import Expiry.ByteMap
import Expiry.Lane
import Expiry.Note

/-!
# Timer stores

A store keeps running timers by identifier. Timers with the same time to live share a lane, and the
store never lets time go backwards: it remembers the latest instant that it has acted at, and takes
an earlier clock reading for that instant. So every lane is in the order of its deadlines without
being sorted, and what is due next is the head of some lane. That is quick to find as long as there
are few different times to live, however many timers are running.

The clock is outside. An operation that depends on the time gets the reading of the clock. Memory is
taken to be unlimited, so there is always room for another timer.

## Main definitions

* `Store` — lanes by the decimal digits of their time to live, slots by identifier, and the pool
* `Store.set`, `Store.cancel`, `Store.clear` — start or restart a timer, and cancel one or all
* `Store.deadline?`, `Store.contains`, `Store.size`, `Store.laneCount` — what is running
* `Store.nextDeadline?`, `Store.timeLeft?` — when the next timer is due
* `Store.popSoonest`, `Store.harvest` — remove the timer due next, and all timers that are due
-/

namespace Expiry

/-- How many milliseconds before its deadline a timer counts as due, unless one says otherwise. -/
def Store.defaultTolerance : UInt64 := 1

/-- Running timers, by identifier and by time to live. -/
structure Store where
  /-- The lane of each time to live in use, under its decimal digits. -/
  lanes : ByteMap Lane := ∅
  /-- The slot of each running timer, under its identifier. -/
  slots : ByteMap Slot := ∅
  pool : Pool := {}
  /-- How many milliseconds before its deadline a timer counts as due. -/
  tolerance : UInt64 := Store.defaultTolerance
  /-- The latest instant that the store has acted at. -/
  latest : Instant := Instant.first

namespace Store

/-- The store without timers. -/
def empty (tolerance : UInt64 := defaultTolerance) : Store := { tolerance }

/-- The number of running timers. -/
def size (s : Store) : Nat := s.slots.size

/-- Whether no timer is running. -/
def isEmpty (s : Store) : Bool := s.slots.isEmpty

/-- The number of different times to live in use. -/
def laneCount (s : Store) : Nat := s.lanes.size

/-- Whether a timer is running for `id`. -/
def contains (s : Store) (id : Bytes) : Bool := s.slots.contains id

/-- The instant that a clock reading stands for: never before the latest one acted at. -/
def instant (s : Store) (reading : Instant) : Instant := max reading s.latest

/-- The last deadline that counts as due at `now`. -/
def horizon (s : Store) (now : Instant) : Instant := now.after s.tolerance

/-- A store in one line. -/
def summary (s : Store) : String :=
  let tolerance := Instant.reach s.tolerance
  s!"Lawn \x7b timers: {s.size}, buckets: {s.laneCount}, latency_tolerance_ms: {tolerance} \x7d"

/-! ### Removing a timer -/

/-- Unlink the node in `slot` from its lane and free the slot. A lane that this leaves empty is
closed. -/
def release (s : Store) (slot : Slot) : Except Fault (Timer × Store) := do
  let node ← s.pool.read slot
  let key := Bytes.decimal node.ttl
  match s.lanes[key]? with
  | none => throw (.laneMissing node.ttl)
  | some lane =>
    let (lane, pool) ← lane.detach s.pool slot
    let lanes := if lane.isEmpty then s.lanes.erase key else s.lanes.insert key lane
    let (node, pool) ← pool.remove slot
    let (indexed, slots) := s.slots.take node.id
    unless indexed = some slot do throw .indexOutOfStep
    return (node.toTimer, { s with lanes, slots, pool })

/-- Cancel the timer for `id`, if one is running. -/
def cancel (s : Store) (id : Bytes) : Except Fault Store :=
  match s.slots[id]? with
  | some slot => do return (← s.release slot).2
  | none => .ok s

/-- Cancel every timer. Time goes on from where it was. -/
def clear (s : Store) : Store := { s with lanes := ∅, slots := ∅, pool := .empty }

/-! ### Starting a timer -/

/-- Put the node in `slot` at the end of the lane for `ttl`, opening the lane if there is none. -/
def enlist (s : Store) (slot : Slot) (ttl : UInt64) : Except Fault (Store × List Note) := do
  let key := Bytes.decimal ttl
  match s.lanes[key]? with
  | some lane =>
    let (lane, pool) ← lane.push s.pool slot
    return ({ s with lanes := s.lanes.insert key lane, pool }, [])
  | none =>
    let (lane, pool) ← (Lane.empty ttl).push s.pool slot
    let (taken, lanes) := s.lanes.add key lane fun existing _ => existing
    if taken then throw (.laneExists ttl)
    return ({ s with lanes, pool }, [.laneOpened ttl])

/-- Start a timer for `id` that is due `ttl` milliseconds from now. A timer already running for `id`
is dropped for it. No timer is refused, as memory is taken to be unlimited. -/
def set (s : Store) (reading : Instant) (id : Bytes) (ttl : UInt64) :
    Except Fault (Store × List Note) := do
  let now := s.instant reading
  -- The new node takes its slot while the old one still has its own: for a moment the store holds
  -- two nodes for `id`, of which only the old one is in a lane.
  let (slot, pool) := s.pool.insert { id, ttl, deadline := now.after ttl }
  let s := { s with pool, latest := now }
  let (s, refreshed) ← match s.slots[id]? with
    | some old => do
      let (timer, s) ← s.release old
      pure (s, [Note.refreshed id timer.ttl ttl])
    | none => pure (s, [])
  let (s, opened) ← s.enlist slot ttl
  let s := { s with slots := s.slots.insert id slot }
  unless s.pool.live = s.size do throw .sizesDiffer
  return (s, refreshed ++ opened)

/-! ### What is due -/

/-- The deadline of the timer for `id`, if one is running. -/
def deadline? (s : Store) (id : Bytes) : Except Fault (Option Instant) :=
  match s.slots[id]? with
  | some slot => do return some (← s.pool.read slot).deadline
  | none => .ok none

/-- The sooner of the timer found so far and the head of one more lane, each with its deadline. If
they are due at once it stays with the one found before. -/
def sooner (pool : Pool) (best : Option (Slot × Instant)) (lane : Lane) :
    Except Fault (Option (Slot × Instant)) :=
  match lane.head with
  | none => .ok best
  | some head => do
    let deadline := (← pool.read head).deadline
    match best with
    | none => return some (head, deadline)
    | some (slot, least) =>
      return some (if deadline < least then (head, deadline) else (slot, least))

/-- The slot of the timer due next, and its deadline. Of several due at once it is the one whose
time to live comes first in the order of the lanes. -/
def soonest (s : Store) : Except Fault (Option (Slot × Instant)) :=
  s.lanes.foldlM (fun best _ lane => sooner s.pool best lane) none

/-- When the next timer is due. -/
def nextDeadline? (s : Store) : Except Fault (Option Instant) := do
  return (← s.soonest).map (·.2)

/-- The milliseconds until the next timer is due, zero if its deadline has passed. -/
def timeLeft? (s : Store) (reading : Instant) : Except Fault (Option UInt64) := do
  return (← s.nextDeadline?).map (s.instant reading).remaining

/-- Remove the timer that is due next, whether it is due or not. -/
def popSoonest (s : Store) : Except Fault (Option Timer × Store) := do
  match ← s.soonest with
  | some (slot, _) =>
    let (timer, s) ← s.release slot
    return (some timer, s)
  | none => return (none, s)

/-- An index without the identifiers of some timers. -/
def unindex (slots : ByteMap Slot) (timers : List Timer) : ByteMap Slot :=
  timers.foldl (fun slots timer => slots.erase timer.id) slots

/-- Drain one lane during a harvest: what is due joins the harvest and leaves the index, and the
lane stays unless that has emptied it. -/
def harvestLane (horizon : Instant) (state : List Timer × ByteMap Slot × Pool) (lane : Lane) :
    Except Fault ((List Timer × ByteMap Slot × Pool) × Option Lane) := do
  let (due, slots, pool) := state
  let (timers, lane, pool) ← lane.drain horizon pool
  return ((due ++ timers, unindex slots timers, pool), if lane.isEmpty then none else some lane)

/-- Remove every timer that is due. The timers come out lane by lane, and within a lane in the order
of their deadlines. -/
def harvest (s : Store) (reading : Instant) : Except Fault (List Timer × Store × List Note) := do
  let now := s.instant reading
  let visit := fun state (_ : Bytes) lane => harvestLane (s.horizon now) state lane
  let ((due, slots, pool), lanes) ← s.lanes.sweepM visit ([], s.slots, s.pool)
  let s := { s with lanes, slots, pool, latest := now }
  return (due, s, if due.isEmpty then [] else [.harvested due.length s.size])

end Store

end Expiry
