import Expiry.Time.Instant

/-!
# Families of clocks set by hand

A clock set by hand stands still until it is told to move. Several clocks can be faces of one dial:
a clock taken from another one as a copy shows the same instant for ever after, whichever of the two
is set or advanced. A family keeps its dials and, for each clock, the dial that it shows.

## Main definitions

* `Clocks` — a family of clocks over a number of dials
* `Clocks.single`, `Clocks.add`, `Clocks.copy` — a family of one clock; a new clock with a dial of
  its own; a new face of the dial of an existing clock
* `Clocks.set`, `Clocks.advance` — move the dial that a clock shows
* `Clocks.reading?`, `Clocks.readings` — what a clock shows, and what all of them show

## Main results

* `Clocks.reading?_adjust` — moving a dial changes what exactly its own faces show
-/

namespace Expiry

/-- Clocks named by their ordinal; clock `i` shows the dial `faces[i]`. -/
structure Clocks where
  dials : Array Instant
  faces : Array Nat
  deriving DecidableEq

namespace Clocks

variable {c : Clocks} {i j : Nat}

/-- The family of one clock that shows `start`. -/
def single (start : Instant := Instant.epoch) : Clocks := ⟨#[start], #[0]⟩

/-- Add a clock with a dial of its own. -/
def add (c : Clocks) (start : Instant) : Clocks :=
  ⟨c.dials.push start, c.faces.push c.dials.size⟩

/-- Add a clock that shows the dial of clock `i`. -/
def copy (c : Clocks) (i : Nat) : Clocks :=
  match c.faces[i]? with
  | some dial => { c with faces := c.faces.push dial }
  | none => c

/-- Move the dial of clock `i` to where `move` takes it. -/
def adjust (c : Clocks) (i : Nat) (move : Instant → Instant) : Clocks :=
  match c.faces[i]? with
  | some dial => { c with dials := c.dials.modify dial move }
  | none => c

/-- Set clock `i` to `t`. -/
def set (c : Clocks) (i : Nat) (t : Instant) : Clocks := c.adjust i fun _ => t

/-- Advance clock `i` by the whole milliseconds of `d`. -/
def advance (c : Clocks) (i : Nat) (d : Duration) : Clocks := c.adjust i (·.advance d)

/-- What clock `i` shows. -/
def reading? (c : Clocks) (i : Nat) : Option Instant := do c.dials[← c.faces[i]?]?

/-- What every clock shows, in the order in which the clocks were made. -/
def readings (c : Clocks) : List Instant := c.faces.toList.filterMap (c.dials[·]?)

theorem reading?_adjust (move : Instant → Instant) :
    (c.adjust i move).reading? j =
      if c.faces[i]? = c.faces[j]? then (c.reading? j).map move else c.reading? j := by
  unfold adjust reading?
  cases hi : c.faces[i]? with
  | none => cases c.faces[j]? <;> simp
  | some dial =>
    cases c.faces[j]? with
    | none => simp
    | some other => by_cases h : dial = other <;> simp [h, Array.getElem?_modify]

end Clocks

end Expiry
