import Expiry.Store.Basic

/-!
# Operations on a store

The operations of a store as values, so that a run of a store is a list of them, and what each is
answered.

## Main definitions

* `Operation`, `Answer` — what a store can be asked, and what it says
* `Store.perform`, `Store.run` — carry out one operation, and one after the other
* `Store.Reachable` — a store that can be made by operations
-/

namespace Expiry

/-- What a store can be asked to do. -/
inductive Operation where
  | set (id : Bytes) (ttl : UInt64)
  | cancel (id : Bytes)
  | clear
  | deadline (id : Bytes)
  | contains (id : Bytes)
  | size
  | isEmpty
  | laneCount
  | nextDeadline
  | timeLeft
  | popSoonest
  | harvest
  deriving DecidableEq, Repr

/-- What a store answers. -/
inductive Answer where
  | done
  | flag (value : Bool)
  | count (value : Nat)
  | instant (value : Option Instant)
  | wait (millis : Option UInt64)
  | popped (id : Option Bytes)
  | harvested (ids : List Bytes)
  deriving DecidableEq, Repr

namespace Store

/-- Carry out one operation while the clock shows `reading`. -/
def perform (s : Store) (reading : Instant) : Operation → Except Fault (Answer × Store × List Note)
  | .set id ttl => do
    let (s, notes) ← s.set reading id ttl
    return (.done, s, notes)
  | .cancel id => do return (.done, ← s.cancel id, [])
  | .clear => .ok (.done, s.clear, [])
  | .deadline id => do return (.instant (← s.deadline? id), s, [])
  | .contains id => .ok (.flag (s.contains id), s, [])
  | .size => .ok (.count s.size, s, [])
  | .isEmpty => .ok (.flag s.isEmpty, s, [])
  | .laneCount => .ok (.count s.laneCount, s, [])
  | .nextDeadline => do return (.instant (← s.nextDeadline?), s, [])
  | .timeLeft => do return (.wait (← s.timeLeft? reading), s, [])
  | .popSoonest => do
    let (timer, s) ← s.popSoonest
    return (.popped (timer.map (·.id)), s, [])
  | .harvest => do
    let (due, s, notes) ← s.harvest reading
    return (.harvested (due.map (·.id)), s, notes)

/-- One operation after the other, each with what the clock shows then: all the answers, and the
store afterwards. -/
def run (s : Store) : List (Instant × Operation) → Except Fault (List Answer × Store)
  | [] => .ok ([], s)
  | (reading, op) :: steps => do
    let (answer, s, _) ← s.perform reading op
    let (answers, s) ← s.run steps
    return (answer :: answers, s)

/-- A store that operations make of an empty one. -/
def Reachable (s : Store) : Prop :=
  ∃ tolerance steps answers, (Store.empty tolerance).run steps = .ok (answers, s)

end Store

end Expiry
