import Expiry.Fault
import Expiry.Bytes
import Expiry.Time.Instant

/-!
# Pools of nodes

A pool keeps nodes in numbered slots. A removed node's slot is handed out again, the one freed last
first; a slot never used before is opened only if none is free. A slot number is therefore a valid
name for a node exactly as long as the slot is occupied, and reading one that is not is a fault.

A node carries a timer and the links that put it in a lane, a doubly linked list of nodes.

## Main definitions

* `Timer` — an identifier, its time to live, and its deadline
* `Node` — a timer with the slots of its neighbours
* `Pool` — slots, some of them free
* `Pool.insert`, `Pool.remove` — put a node into a slot, and free a slot
* `Pool.read`, `Pool.modify` — look at the node in a slot, and change it in place

## Main results

* `Pool.get?_modify`, `Pool.get?_remove` — changing or freeing a slot leaves all others alone
-/

namespace Expiry

/-- A running timer. -/
structure Timer where
  id : Bytes
  /-- The milliseconds that it was started with. -/
  ttl : UInt64
  deadline : Instant
  deriving DecidableEq, Repr

/-- The number of a place in a pool. -/
abbrev Slot := Nat

/-- A timer in a slot, with its neighbours in a lane. -/
structure Node extends Timer where
  prev : Option Slot := none
  next : Option Slot := none
  deriving DecidableEq, Repr

namespace Node

/-- The node with no neighbours. -/
def unlinked (node : Node) : Node := { node with prev := none, next := none }

/-- The node with `prev` before it. -/
def withPrev (node : Node) (prev : Option Slot) : Node := { node with prev }

/-- The node with `next` after it. -/
def withNext (node : Node) (next : Option Slot) : Node := { node with next }

end Node

/-- Nodes in numbered slots. -/
structure Pool where
  cells : Array (Option Node) := #[]
  /-- The free slots, the one freed last in front. -/
  free : List Slot := []
  /-- The number of occupied slots. -/
  live : Nat := 0
  deriving DecidableEq, Repr

namespace Pool

variable {p q : Pool} {slot slot' : Slot} {node : Node}

/-- The pool without slots. -/
def empty : Pool := {}

/-- The node in a slot, if the slot is occupied. -/
def get? (p : Pool) (slot : Slot) : Option Node := (p.cells[slot]?).join

/-- The node in an occupied slot. -/
def read (p : Pool) (slot : Slot) : Except Fault Node :=
  match p.get? slot with
  | some node => .ok node
  | none => .error (.staleSlot slot)

/-- Put a node into the slot freed last, or into a new one if none is free. A new one can always be
opened, as memory is taken to be unlimited. -/
def insert (p : Pool) (node : Node) : Slot × Pool :=
  match p.free with
  | slot :: free => (slot, ⟨p.cells.setIfInBounds slot (some node), free, p.live + 1⟩)
  | [] => (p.cells.size, ⟨p.cells.push (some node), [], p.live + 1⟩)

/-- Change the node in an occupied slot. -/
def modify (p : Pool) (slot : Slot) (change : Node → Node) : Except Fault Pool := do
  let node ← p.read slot
  return { p with cells := p.cells.setIfInBounds slot (some (change node)) }

/-- Free an occupied slot, handing out its node. -/
def remove (p : Pool) (slot : Slot) : Except Fault (Node × Pool) := do
  let node ← p.read slot
  match p.live with
  | 0 => throw .miscounted
  | live + 1 => return (node, ⟨p.cells.setIfInBounds slot none, slot :: p.free, live⟩)

/-! ### What the operations do to a slot -/

theorem read_eq_ok_iff : p.read slot = .ok node ↔ p.get? slot = some node := by
  unfold read
  cases p.get? slot <;> simp

theorem lt_size_of_get? (h : p.get? slot = some node) : slot < p.cells.size := by
  rw [get?, Option.join_eq_some_iff] at h
  exact (Array.getElem?_eq_some_iff.mp h).1

theorem modify_eq_ok_iff {change : Node → Node} :
    p.modify slot change = .ok q ↔ ∃ node, p.get? slot = some node ∧
      q = { p with cells := p.cells.setIfInBounds slot (some (change node)) } := by
  unfold modify read
  cases p.get? slot with
  | none => simp
  | some node => simp [eq_comm]

theorem get?_modify {change : Node → Node} (h : p.modify slot change = .ok q) :
    q.get? slot' = if slot = slot' then (p.get? slot).map change else p.get? slot' := by
  obtain ⟨node, hget, rfl⟩ := modify_eq_ok_iff.mp h
  rw [hget]
  simp only [get?, Array.getElem?_setIfInBounds, lt_size_of_get? hget]
  split <;> simp

theorem remove_eq_ok_iff :
    p.remove slot = .ok (node, q) ↔ p.get? slot = some node ∧ ∃ live, p.live = live + 1 ∧
      q = ⟨p.cells.setIfInBounds slot none, slot :: p.free, live⟩ := by
  unfold remove read
  cases p.get? slot with
  | none => simp
  | some node =>
    cases p.live with
    | zero => simp
    | succ live => simp [eq_comm]

theorem get?_remove (h : p.remove slot = .ok (node, q)) :
    q.get? slot' = if slot = slot' then none else p.get? slot' := by
  obtain ⟨hget, live, -, rfl⟩ := remove_eq_ok_iff.mp h
  simp only [get?, Array.getElem?_setIfInBounds, lt_size_of_get? hget]
  split <;> simp

end Pool

end Expiry
