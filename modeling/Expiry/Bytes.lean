import Std.Data.String.ToNat

/-!
# Byte strings

Timers are named by arbitrary byte strings. They are ordered as a dictionary orders words: by the
first byte that differs, and a word comes before its own continuations. A text stands for its UTF-8
bytes, and a number for its decimal digits.

## Main definitions

* `Bytes` — byte strings, in lexicographic order
* `Bytes.le` — the order as a test
* `Bytes.ofString` — the UTF-8 bytes of a text
* `Bytes.decimal` — the decimal digits of a 64-bit number

## Main results

* `Bytes.compare_eq_lt_iff` — byte strings are compared in the order of lists
* `Bytes.le_of_prefix`, `Bytes.prefix_of_le_of_le` — a beginning comes before all its continuations,
  and nothing else stands between it and them
* `Bytes.ofString_inj`, `Bytes.decimal_inj` — different texts have different bytes, and different
  numbers different digits
-/

namespace Expiry

/-- A byte string. -/
abbrev Bytes := List UInt8

namespace Bytes

variable {a b c head : Bytes} {x y : UInt8}

theorem compare_eq_lt_iff : compare a b = .lt ↔ a < b := by
  induction a generalizing b with
  | nil => cases b <;> simp
  | cons x a ih =>
    cases b with
    | nil => simp
    | cons y b =>
      rw [List.compare_cons_cons, Ordering.then_eq_lt, ih, List.cons_lt_cons_iff,
        Std.compare_eq_lt, Std.LawfulEqOrd.compare_eq_iff_eq]

/-- Whether `a` is `b` or comes before it. -/
def le (a b : Bytes) : Bool := (compare a b).isLE

theorem le_refl (a : Bytes) : le a a = true := by
  have hself : compare a a = .eq := Std.ReflCmp.compare_self
  rw [le, hself]
  rfl

theorem le_trans (hab : le a b = true) (hbc : le b c = true) : le a c = true :=
  Std.TransCmp.isLE_trans hab hbc

theorem le_total (a b : Bytes) : le a b = true ∨ le b a = true := by
  have hswap : compare b a = (compare a b).swap := Std.OrientedCmp.eq_swap
  rw [le, le, hswap]
  cases compare a b <;> simp

theorem le_antisymm (hab : le a b = true) (hba : le b a = true) : a = b :=
  Std.LawfulEqCmp.eq_of_compare (Std.OrientedCmp.isLE_antisymm hab hba)

/-! ### Beginnings -/

theorem nil_le (a : Bytes) : le [] a = true := List.isLE_compare_nil_left

theorem le_nil_iff : le a [] = true ↔ a = [] := List.isLE_compare_nil_right

theorem cons_le_cons_iff : le (x :: a) (y :: b) = true ↔ x < y ∨ x = y ∧ le a b = true := by
  rw [le, List.compare_cons_cons, Ordering.isLE_then_iff_or, Std.compare_eq_lt,
    Std.LawfulEqOrd.compare_eq_iff_eq, le]

theorem le_of_prefix (h : head <+: a) : le head a = true := by
  induction head generalizing a with
  | nil => exact nil_le a
  | cons x head ih =>
    obtain ⟨rest, rfl⟩ := h
    exact cons_le_cons_iff.mpr (.inr ⟨rfl, ih (List.prefix_append head rest)⟩)

/-- What stands between a byte string and one of its continuations is a continuation too. -/
theorem prefix_of_le_of_le (hhead : le head a = true) (hab : le a b = true) (h : head <+: b) :
    head <+: a := by
  induction head generalizing a b with
  | nil => exact List.nil_prefix
  | cons x head ih =>
    obtain ⟨rest, rfl⟩ := h
    cases a with
    | nil => cases le_nil_iff.mp hhead
    | cons y a =>
      rw [List.cons_append, cons_le_cons_iff] at hab
      rw [cons_le_cons_iff] at hhead
      -- The first bytes bound each other, so they are the same.
      rcases hhead with hlt | ⟨rfl, hhead⟩
      · rcases hab with hlt' | ⟨rfl, -⟩
        · exact absurd hlt' (UInt8.lt_asymm hlt)
        · exact absurd hlt (UInt8.lt_irrefl _)
      · rcases hab with hlt | ⟨-, hab⟩
        · exact absurd hlt (UInt8.lt_irrefl _)
        · exact List.cons_prefix_cons.mpr ⟨rfl, ih hhead hab (List.prefix_append head rest)⟩

/-! ### Texts and numbers -/

/-- The UTF-8 bytes of a text. -/
def ofString (s : String) : Bytes := s.toList.flatMap String.utf8EncodeChar

theorem toByteArray_ofString (s : String) : (ofString s).toByteArray = s.toByteArray := by
  conv => rhs; rw [← String.ofList_toList (s := s), String.toByteArray_ofList]
  rfl

theorem ofString_inj {s t : String} : ofString s = ofString t ↔ s = t := by
  rw [← String.toByteArray_inj, ← List.toByteArray_inj, toByteArray_ofString, toByteArray_ofString]

/-- The decimal digits of `n`, without leading zeros. -/
def decimal (n : UInt64) : Bytes := ofString (toString n.toNat)

theorem decimal_inj {m n : UInt64} : decimal m = decimal n ↔ m = n := by
  rw [decimal, decimal, ofString_inj, ← UInt64.toNat_inj]
  exact Nat.repr_inj

end Bytes

end Expiry
