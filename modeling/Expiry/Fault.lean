/-!
# Faults

A fault is a broken promise inside the data structures of a timer store and the service around it: a
slot that holds no node, two parts that ought to agree and do not, a count that would fall below
zero. Each operation checks what it relies on and names the first promise that it finds broken, so
that "nothing can go wrong" is a statement about results.

The checks are those of a build with debug assertions. A build without them makes only some of
these checks, and goes on where the other one would stop.

## Main definitions

* `Fault` — the promises that can be found broken
* `Fault.message` — what is said about each

## Main results

* `Fault.ok_bind`, `Fault.error_bind` — an operation goes on after a result and stops at a fault
* `Fault.bind_eq_ok_iff` — the result of two operations in a row is that of the second
* `Fault.mapM_eq_ok` — an operation that has a result for each element of a list
-/

namespace Expiry

/-- A promise found broken. -/
inductive Fault where
  /-- A slot is used that holds no node. -/
  | staleSlot (slot : Nat)
  /-- A timer's time to live has no lane. -/
  | laneMissing (ttl : UInt64)
  /-- A lane is opened for a time to live that has one. -/
  | laneExists (ttl : UInt64)
  /-- A timer joins the lane of another time to live. -/
  | foreignTtl
  /-- A timer joins a lane behind one with a later deadline. -/
  | outOfOrder
  /-- A node is taken out of a lane that it is not in. -/
  | notInLane
  /-- An identifier does not lead to the node of its timer. -/
  | indexOutOfStep
  /-- There are more or fewer nodes than identifiers. -/
  | sizesDiffer
  /-- A count would fall below zero. -/
  | miscounted
  /-- The links of a lane never come to an end. -/
  | endless
  /-- A timer ends for which no payload is stored. -/
  | payloadMissing (name : String)
  deriving DecidableEq, Repr

namespace Fault

/-- What is said about a fault. -/
def message : Fault → String
  | staleSlot slot => s!"stale timer node handle NodeHandle({slot})"
  | laneMissing ttl => s!"timer bucket for ttl {ttl} is missing"
  | laneExists ttl => s!"bucket {ttl} already exists"
  | foreignTtl => "timer bucketed under a foreign ttl"
  | outOfOrder => "timer queue out of expiration order"
  | notInLane => "detached node is not in this queue"
  | indexOutOfStep => "identifier index out of step"
  | sizesDiffer => "as many nodes as identifiers expected"
  | miscounted => "attempt to count below zero"
  | endless => "timer queue runs in a circle"
  | payloadMissing name => s!"timer '{name}' has no payload"

/-! ### Results that may be faults -/

section

variable {α β : Type} {fault : Fault}

@[simp] theorem pure_eq_ok (a : α) : (pure a : Except Fault α) = .ok a := rfl

@[simp] theorem throw_eq_error : (throw fault : Except Fault α) = .error fault := rfl

@[simp] theorem ok_bind (a : α) (f : α → Except Fault β) : Except.ok a >>= f = f a := rfl

@[simp] theorem error_bind (f : α → Except Fault β) :
    (Except.error fault : Except Fault α) >>= f = .error fault := rfl

@[simp] theorem map_ok (f : α → β) (a : α) :
    f <$> (Except.ok a : Except Fault α) = .ok (f a) := rfl

/-- Only where the first operation has a result has the whole one. -/
theorem bind_eq_ok_iff {x : Except Fault α} {f : α → Except Fault β} {b : β} :
    x >>= f = .ok b ↔ ∃ a, x = .ok a ∧ f a = .ok b := by
  cases x <;> simp

/-- Where the operation has a result for every element, it has the list of them. -/
theorem mapM_eq_ok {f : α → Except Fault β} {g : α → β} {l : List α}
    (h : ∀ a ∈ l, f a = .ok (g a)) : l.mapM f = .ok (l.map g) := by
  induction l with
  | nil => rfl
  | cons a rest ih =>
    have hrest := ih fun b hb => h b (List.mem_cons_of_mem _ hb)
    simp [List.mapM_cons, h a List.mem_cons_self, hrest]

end

end Fault

end Expiry
