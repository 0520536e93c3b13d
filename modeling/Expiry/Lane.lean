import Expiry.Pool

/-!
# Lanes

A lane holds the timers of one time to live, in the order in which they were started. As all of them
run equally long, the one started first is due first: its head. The nodes of a lane lie in a pool
that it shares with other lanes, linked to their neighbours in both directions, so that a timer can
leave from the middle without the lane being searched.

## Main definitions

* `Lane` — the ends and the length of a linked list in a pool
* `Lane.push` — append a node at the tail
* `Lane.detach`, `Lane.popHead` — unlink a node, and the head
* `Lane.drain` — unlink and free nodes from the head for as long as they are due
* `Lane.slots` — the slots from the head along the links
-/

namespace Expiry

/-- The timers that share a time to live. -/
structure Lane where
  ttl : UInt64
  head : Option Slot := none
  tail : Option Slot := none
  length : Nat := 0
  deriving DecidableEq, Repr

namespace Lane

/-- The empty lane for a time to live. -/
def empty (ttl : UInt64) : Lane := { ttl }

/-- Whether the lane holds no timer. -/
def isEmpty (lane : Lane) : Bool := lane.length == 0

/-- Append the node in `slot`. It has the lane's time to live, and its deadline is not before that
of the tail. -/
def push (lane : Lane) (pool : Pool) (slot : Slot) : Except Fault (Lane × Pool) := do
  let node ← pool.read slot
  unless node.ttl = lane.ttl do throw .foreignTtl
  match lane.tail with
  | none =>
    let pool ← pool.modify slot Node.unlinked
    return ({ lane with head := slot, tail := slot, length := lane.length + 1 }, pool)
  | some tail =>
    let last ← pool.read tail
    unless last.deadline ≤ node.deadline do throw .outOfOrder
    let pool ← pool.modify slot (·.unlinked.withPrev tail)
    let pool ← pool.modify tail (·.withNext slot)
    return ({ lane with tail := slot, length := lane.length + 1 }, pool)

/-- Let `next` follow what came before the node in `slot`: the node in `prev`, or the start of the
lane. -/
def closeBefore (lane : Lane) (pool : Pool) (slot : Slot) (prev next : Option Slot) :
    Except Fault (Lane × Pool) :=
  match prev with
  | some prev => do return (lane, ← pool.modify prev (·.withNext next))
  | none => if lane.head = some slot then .ok ({ lane with head := next }, pool)
    else .error .notInLane

/-- Let `prev` precede what came after the node in `slot`: the node in `next`, or the end of the
lane. -/
def closeAfter (lane : Lane) (pool : Pool) (slot : Slot) (prev next : Option Slot) :
    Except Fault (Lane × Pool) :=
  match next with
  | some next => do return (lane, ← pool.modify next (·.withPrev prev))
  | none => if lane.tail = some slot then .ok ({ lane with tail := prev }, pool)
    else .error .notInLane

/-- Unlink the node in `slot`, wherever it is in the lane. -/
def detach (lane : Lane) (pool : Pool) (slot : Slot) : Except Fault (Lane × Pool) := do
  let node ← pool.read slot
  -- The neighbours are taken from `node`, as it was before it lost its links.
  let pool ← pool.modify slot Node.unlinked
  let (lane, pool) ← lane.closeBefore pool slot node.prev node.next
  let (lane, pool) ← lane.closeAfter pool slot node.prev node.next
  match lane.length with
  | 0 => throw .miscounted
  | length + 1 => return ({ lane with length }, pool)

/-- Unlink the head, if there is one. -/
def popHead (lane : Lane) (pool : Pool) : Except Fault (Option Slot × Lane × Pool) :=
  match lane.head with
  | none => .ok (none, lane, pool)
  | some head => do return (some head, ← lane.detach pool head)

/-- `drain`, for at most as many turns as `turns` says. -/
def drainFor (turns : Nat) (horizon : Instant) (lane : Lane) (pool : Pool) :
    Except Fault (List Timer × Lane × Pool) :=
  match turns, lane.head with
  | _, none => .ok ([], lane, pool)
  | 0, some _ => .error .miscounted
  | turns + 1, some head => do
    -- No later node has an earlier deadline, so the first that is not due ends the turns.
    if horizon < (← pool.read head).deadline then
      return ([], lane, pool)
    let (lane, pool) ← lane.detach pool head
    let (node, pool) ← pool.remove head
    let (timers, lane, pool) ← drainFor turns horizon lane pool
    return (node.toTimer :: timers, lane, pool)

/-- Unlink nodes from the head, and free their slots, for as long as their deadlines are not after
`horizon`. The timers come out in the order of the lane. Every turn but the last takes one off the
length of the lane. -/
def drain (horizon : Instant) (lane : Lane) (pool : Pool) :
    Except Fault (List Timer × Lane × Pool) :=
  drainFor (lane.length + 1) horizon lane pool

/-- The slots from `start` along the links, if there are at most as many as `bound` says. -/
def slotsFrom (pool : Pool) : Nat → Option Slot → Except Fault (List Slot)
  | _, none => .ok []
  | 0, some _ => .error .endless
  | bound + 1, some slot => do
    let node ← pool.read slot
    return slot :: (← slotsFrom pool bound node.next)

/-- The slots of the lane, from the head along the links. A walk that does not go in a circle meets
each slot of the pool at most once before it ends or leaves the pool. -/
def slots (lane : Lane) (pool : Pool) : Except Fault (List Slot) :=
  slotsFrom pool (pool.cells.size + 1) lane.head

end Lane

end Expiry
