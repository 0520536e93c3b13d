/-!
# Mailboxes

A bounded first-in first-out queue between two parties. Either party can go away. Nothing more can
be sent once the receiver is gone, and what it had not received is lost; once the sender is gone,
what has been sent can still be received, and after that the receiver learns that it was the end.

## Main definitions

* `Mailbox` — capacity, waiting items, and which party is still there
* `Mailbox.create?` — an empty mailbox, if the capacity is one that a mailbox can have
* `Mailbox.trySend`, `Mailbox.Refusal` — append an item, or the reason why that is not possible
* `Mailbox.receive`, `Mailbox.Receipt` — take the item sent first
* `Mailbox.dropSender`, `Mailbox.dropReceiver` — a party goes away

## Main results

* `Mailbox.trySend_eq_ok_iff` — an item is accepted, at the end, if there is a receiver and room
* `Mailbox.receive_eq_item_iff`, `Mailbox.receive_eq_ended_iff` — what is found is the first item,
  or the end if there is none and no sender
-/

namespace Expiry

/-- A bounded queue between two parties. -/
structure Mailbox (α : Type) where
  capacity : Nat
  /-- The items that wait, the one sent first in front. -/
  items : List α := []
  hasSender : Bool := true
  hasReceiver : Bool := true
  deriving DecidableEq, Repr

namespace Mailbox

variable {α : Type} {m m' : Mailbox α} {a : α}

/-- The largest capacity, one less than the 61st power of two. -/
def maxCapacity : Nat := 0x1fffffffffffffff

/-- An empty mailbox for `capacity` items. There is none for no items at all. -/
def create? (capacity : Nat) : Option (Mailbox α) :=
  if 0 < capacity ∧ capacity ≤ maxCapacity then some { capacity } else none

/-- Why an item cannot be sent. -/
inductive Refusal where
  /-- There is no room now. -/
  | full
  /-- Nobody will receive it. -/
  | closed
  deriving DecidableEq, Repr

/-- Append an item. That nobody will receive it matters more than that there is no room. -/
def trySend (m : Mailbox α) (a : α) : Except Refusal (Mailbox α) :=
  if !m.hasReceiver then .error .closed
  else if m.items.length < m.capacity then .ok { m with items := m.items ++ [a] }
  else .error .full

theorem trySend_eq_ok_iff :
    m.trySend a = .ok m' ↔ m.hasReceiver = true ∧ m.items.length < m.capacity ∧
      m' = { m with items := m.items ++ [a] } := by
  unfold trySend
  cases m.hasReceiver with
  | false => simp
  | true => by_cases h : m.items.length < m.capacity <;> simp [h, eq_comm]

/-- What a receiver finds. -/
inductive Receipt (α : Type) where
  | item (a : α)
  /-- No item waits, but there may be one later. -/
  | nothing
  /-- No item waits, and none will. -/
  | ended
  deriving DecidableEq, Repr

/-- Take the item that was sent first. -/
def receive (m : Mailbox α) : Receipt α × Mailbox α :=
  match m.items with
  | a :: items => (.item a, { m with items })
  | [] => (if m.hasSender then .nothing else .ended, m)

theorem receive_eq_item_iff : m.receive.1 = .item a ↔ ∃ items, m.items = a :: items := by
  unfold receive
  cases hitems : m.items with
  | nil => cases m.hasSender <;> simp
  | cons b items => simp

theorem receive_eq_ended_iff : m.receive.1 = .ended ↔ m.items = [] ∧ m.hasSender = false := by
  unfold receive
  cases hitems : m.items with
  | nil => cases m.hasSender <;> simp
  | cons b items => simp

/-- The sender goes away. -/
def dropSender (m : Mailbox α) : Mailbox α := { m with hasSender := false }

/-- The receiver goes away, and the waiting items with it. -/
def dropReceiver (m : Mailbox α) : Mailbox α := { m with items := [], hasReceiver := false }

end Mailbox

end Expiry
