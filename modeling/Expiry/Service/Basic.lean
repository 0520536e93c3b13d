import Expiry.Mailbox
import Expiry.Service.Command
import Expiry.Store.Basic

/-!
# Timer services

A timer service is a store of timers and the payloads of the timers that it started, by name. It
handles one command after the other, and now and then it harvests: it removes the timers that are
due and sends the news of each, with its payload, to a mailbox. News that the mailbox has no room
for is lost, and so is its payload.

A store may hold timers from before the service got it, for which there is no payload. The service
relies on it that none of them ends: where one does, the command or the harvest breaks off with a
fault. What a harvest has sent before that stays sent.

## Main definitions

* `Service` — a name, a store, and the payloads
* `Service.handle` — carry out a command
* `Service.announce`, `Announcement` — send the news of some timers, and how far that has come
* `Service.harvest`, `Interruption` — remove the timers that are due and announce them, and what is
  left of a harvest that broke off
* `Delivery` — what became of the news of one timer

## Main results

* `Service.newsOf_eq_ok_iff`, `Service.newsOf_eq_error_iff` — there is news exactly if there is a
  payload
* `Service.harvest_eq_ok_iff`, `Service.harvest_eq_error_iff` — a harvest breaks off where the store
  does, or where the announcement does
-/

namespace Expiry

/-- A store of timers with their payloads. -/
structure Service where
  name : String
  store : Store
  payloads : Std.TreeMap String String := ∅

/-- What handling a command comes to. -/
structure Handled where
  service : Service
  /-- The reply, if the command has one. -/
  reply : Option Reply
  notes : List Note := []
  /-- Whether the service is to stop. -/
  stops : Bool := false

/-- What becomes of a piece of news. -/
inductive Delivery where
  | sent (news : Expiration)
  | dropped (news : Expiration)
  /-- Nobody is there to receive it. -/
  | unheard (news : Expiration)
  deriving DecidableEq, Repr

namespace Delivery

/-- The news that something became of. -/
def news : Delivery → Expiration
  | sent news | dropped news | unheard news => news

/-- News that was sent needs no note. -/
def notes : Delivery → List Note
  | sent _ => []
  | dropped news => [.newsDropped news.name]
  | unheard news => [.newsUnheard news.name]

end Delivery

/-- How far the announcement of some timers has come. -/
structure Announcement where
  deliveries : List Delivery := []
  /-- The payloads that were not taken. -/
  payloads : Std.TreeMap String String
  outbox : Mailbox Expiration
  /-- What the announcement broke off at, if it did. -/
  fault : Option Fault := none

/-- The announcement with one more delivery in front. -/
def Announcement.after (a : Announcement) (delivery : Delivery) : Announcement :=
  { a with deliveries := delivery :: a.deliveries }

/-- What is left of a harvest that broke off. -/
structure Interruption where
  fault : Fault
  outbox : Mailbox Expiration
  deliveries : List Delivery := []
  notes : List Note := []

namespace Service

/-- The name that an identifier stands for. -/
def nameOf (id : Bytes) : String := Utf8.decode id

/-- The news that the timer with identifier `id` has ended, with the payload that belongs to it, and
the payloads that remain. It is a fault if there is none: what is modelled is a build with debug
assertions. One without them would go on with an empty payload. -/
def newsOf (payloads : Std.TreeMap String String) (id : Bytes) :
    Except Fault (Expiration × Std.TreeMap String String) :=
  match payloads[nameOf id]? with
  | some payload => .ok (⟨nameOf id, payload⟩, payloads.erase (nameOf id))
  | none => .error (.payloadMissing (nameOf id))

section

variable {payloads rest : Std.TreeMap String String} {id : Bytes} {news : Expiration}
variable {fault : Fault}

theorem newsOf_eq_ok_iff : newsOf payloads id = .ok (news, rest) ↔
    ∃ payload, payloads[nameOf id]? = some payload ∧ news = ⟨nameOf id, payload⟩ ∧
      rest = payloads.erase (nameOf id) := by
  unfold newsOf
  cases payloads[nameOf id]? <;> simp [eq_comm]

theorem newsOf_eq_error_iff : newsOf payloads id = .error fault ↔
    payloads[nameOf id]? = none ∧ fault = .payloadMissing (nameOf id) := by
  unfold newsOf
  cases payloads[nameOf id]? <;> simp [eq_comm]

end

/-- The service goes on after a reply. -/
def replying (s : Service) (reply : Reply) (notes : List Note := []) : Handled :=
  { service := s, reply := some reply, notes }

/-- Carry out a command while the clock shows `reading`. Memory is taken to be unlimited, so the
store refuses no timer. -/
def handle (s : Service) (reading : Instant) : Command → Except Fault Handled
  | .set name payload duration => do
    let (store, notes) ← s.store.set reading (Bytes.ofString name) duration.toTtl
    return { s with store, payloads := s.payloads.insert name payload }.replying .done notes
  | .cancel name => do
    let store ← s.store.cancel (Bytes.ofString name)
    let payload := s.payloads[name]?
    return { s with store, payloads := s.payloads.erase name }.replying (.payload payload)
  | .cancelAll =>
    .ok { service := { s with store := s.store.clear, payloads := ∅ }, reply := none,
          notes := [.cancelledAll s.name s.store.size] }
  | .look name => .ok (s.replying (.payload s.payloads[name]?))
  | .update name payload =>
    let previous := s.payloads[name]?
    let payloads := s.payloads.modify name fun _ => payload
    .ok ({ s with payloads }.replying (.payload previous))
  | .deadline name => do
    return s.replying (.instant (← s.store.deadline? (Bytes.ofString name)))
  | .nextDeadline => do return s.replying (.instant (← s.store.nextDeadline?))
  | .timeLeft => do
    return s.replying (.wait ((← s.store.timeLeft? reading).map .ofMillis))
  | .popSoonest => do
    match ← s.store.popSoonest with
    | (none, store) => return { s with store }.replying (.timer none)
    | (some timer, store) =>
      let (news, payloads) ← newsOf s.payloads timer.id
      return { s with store, payloads }.replying (.timer (some (news.name, news.payload)))
  | .count => .ok (s.replying (.count s.store.size))
  | .shutdown => .ok { service := s, reply := none, notes := [.shutDown s.name], stops := true }

/-- Send the news of the timers in `due`, one after the other, each with its payload. News for which
there is no room is dropped; once nobody is there to hear, the remaining news is not looked at. At a
timer without a payload the announcement breaks off. -/
def announce (payloads : Std.TreeMap String String) (outbox : Mailbox Expiration) :
    List Timer → Announcement
  | [] => { payloads, outbox }
  | timer :: due =>
    match newsOf payloads timer.id with
    | .error fault => { payloads, outbox, fault := some fault }
    | .ok (news, payloads) =>
      match outbox.trySend news with
      | .ok outbox => (announce payloads outbox due).after (.sent news)
      | .error .full => (announce payloads outbox due).after (.dropped news)
      -- The timers left in `due` are gone from the store, and their payloads stay behind.
      | .error .closed => { deliveries := [.unheard news], payloads, outbox }

/-- Remove the timers that are due while the clock shows `reading`, and announce them. -/
def harvest (s : Service) (reading : Instant) (outbox : Mailbox Expiration) :
    Except Interruption (Service × Mailbox Expiration × List Delivery × List Note) :=
  match s.store.harvest reading with
  | .error fault => .error { fault, outbox }
  | .ok (due, store, harvested) =>
    let a := announce s.payloads outbox due
    let notes := harvested ++ a.deliveries.flatMap (·.notes)
    match a.fault with
    | none => .ok ({ s with store, payloads := a.payloads }, a.outbox, a.deliveries, notes)
    | some fault => .error { fault, outbox := a.outbox, deliveries := a.deliveries, notes }

section

variable {s s' : Service} {reading : Instant} {outbox outbox' : Mailbox Expiration}
variable {deliveries : List Delivery} {notes : List Note} {broken : Interruption}

theorem harvest_eq_ok_iff : s.harvest reading outbox = .ok (s', outbox', deliveries, notes) ↔
    ∃ due store harvested, s.store.harvest reading = .ok (due, store, harvested) ∧
      let a := announce s.payloads outbox due
      a.fault = none ∧ s' = { s with store, payloads := a.payloads } ∧ outbox' = a.outbox ∧
        deliveries = a.deliveries ∧ notes = harvested ++ a.deliveries.flatMap (·.notes) := by
  unfold harvest
  cases s.store.harvest reading with
  | error fault => simp
  | ok result =>
    obtain ⟨due, store, harvested⟩ := result
    constructor
    · intro h
      dsimp only at h
      split at h
      · next hwhole =>
        cases h
        exact ⟨due, store, harvested, rfl, hwhole, rfl, rfl, rfl, rfl⟩
      · cases h
    · rintro ⟨_, _, _, hstore, hwhole, rfl, rfl, rfl, rfl⟩
      cases hstore
      simp only [hwhole]

theorem harvest_eq_error_iff : s.harvest reading outbox = .error broken ↔
    (∃ fault, s.store.harvest reading = .error fault ∧ broken = { fault, outbox }) ∨
      ∃ due store harvested fault, s.store.harvest reading = .ok (due, store, harvested) ∧
        let a := announce s.payloads outbox due
        a.fault = some fault ∧ broken =
          ⟨fault, a.outbox, a.deliveries, harvested ++ a.deliveries.flatMap (·.notes)⟩ := by
  unfold harvest
  cases s.store.harvest reading with
  | error fault => simp [eq_comm]
  | ok result =>
    obtain ⟨due, store, harvested⟩ := result
    constructor
    · intro h
      dsimp only at h
      split at h
      · cases h
      · next fault hfault =>
        cases h
        exact .inr ⟨due, store, harvested, fault, rfl, hfault, rfl⟩
    · rintro (⟨_, hstore, -⟩ | ⟨_, _, _, _, hstore, hfault, rfl⟩) <;> cases hstore
      simp only [hfault]

end

end Service

end Expiry
