import Expiry.Bytes

/-!
# Reading bytes as text

A timer's name is shown as text even if its bytes are no valid UTF-8. Reading goes byte by byte.
Inside a character it knows how many bytes are still owed and which values the next one may take.
A byte that cannot continue the character ends it: what was read of it becomes one replacement
character, and the byte is looked at afresh. So each longest piece that could have been the start
of a character counts as one replacement, and every byte that can start none counts as one too.

## Main definitions

* `Utf8.Reader` — between characters, or inside one
* `Utf8.Reader.step`, `Utf8.Reader.finish` — read one byte, or the end
* `Utf8.decode` — the text of a byte string

## Main results

* `Utf8.decode_ofString` — the bytes of a text are read back as that text
-/

namespace Expiry.Utf8

/-- Stands in for bytes that are not a character. -/
def replacement : Char := '\uFFFD'

/-- Where reading stands. -/
inductive Reader where
  /-- Between two characters. -/
  | between
  /-- Inside a character whose bytes so far give `code`. The next byte lies from `low` to `high`,
  and `owed` more follow it. -/
  | inside (owed low high code : Nat)
  deriving DecidableEq, Repr

namespace Reader

/-- Read the byte `b` between two characters. The ranges of the next byte leave out overlong forms,
the surrogates, and all above the last code point. -/
def enter (b : Nat) : List Char × Reader :=
  if b < 0x80 then ([Char.ofNat b], between)
  else if b < 0xC2 then ([replacement], between)
  else if b < 0xE0 then ([], inside 0 0x80 0xBF (b - 0xC0))
  else if b < 0xF0 then
    ([], inside 1 (if b = 0xE0 then 0xA0 else 0x80) (if b = 0xED then 0x9F else 0xBF) (b - 0xE0))
  else if b < 0xF5 then
    ([], inside 2 (if b = 0xF0 then 0x90 else 0x80) (if b = 0xF4 then 0x8F else 0xBF) (b - 0xF0))
  else ([replacement], between)

/-- Read the byte `b`: the characters that it completes, and where reading stands then. -/
def step : Reader → Nat → List Char × Reader
  | between, b => enter b
  | inside owed low high code, b =>
    if low ≤ b ∧ b ≤ high then
      let code := code * 64 + (b - 0x80)
      match owed with
      | 0 => ([Char.ofNat code], between)
      | owed + 1 => ([], inside owed 0x80 0xBF code)
    else
      let (chars, next) := enter b
      (replacement :: chars, next)

/-- Read the end of the bytes. -/
def finish : Reader → List Char
  | between => []
  | inside .. => [replacement]

/-- Read `bytes` to the end. -/
def run : Reader → Bytes → List Char
  | r, [] => r.finish
  | r, b :: rest => (r.step b.toNat).1 ++ run (r.step b.toNat).2 rest

/-- The bytes of a character are read as that character. -/
theorem run_utf8EncodeChar_append (c : Char) (rest : Bytes) :
    between.run (String.utf8EncodeChar c ++ rest) = c :: between.run rest := by
  have hc : Char.ofNat c.val.toNat = c := Char.ofNat_toNat c
  have hvalid : c.val.toNat < 0xD800 ∨ 0xDFFF < c.val.toNat ∧ c.val.toNat < 0x110000 := c.valid
  generalize hv : c.val.toNat = v at hc hvalid
  have toNat_of_lt {n : Nat} (hn : n < 256) : (UInt8.ofNat n).toNat = n :=
    UInt8.toNat_ofNat_of_lt' hn
  simp only [String.utf8EncodeChar, hv]
  split
  · simp only [List.cons_append, List.nil_append, run]
    rw [toNat_of_lt (by omega)]
    simp only [step, enter]
    rw [if_pos (by omega), hc]
    rfl
  split
  · simp only [List.cons_append, List.nil_append, run]
    rw [toNat_of_lt (by omega), toNat_of_lt (by omega)]
    simp only [step, enter]
    rw [if_neg (by omega), if_neg (by omega), if_pos (by omega)]
    simp only [List.nil_append]
    rw [if_pos (by omega),
      show (v / 64 % 32 + 192 - 192) * 64 + (v % 64 + 128 - 128) = v by omega, hc]
    rfl
  split
  · simp only [List.cons_append, List.nil_append, run]
    rw [toNat_of_lt (by omega), toNat_of_lt (by omega), toNat_of_lt (by omega)]
    simp only [step, enter]
    rw [if_neg (by omega), if_neg (by omega), if_neg (by omega), if_pos (by omega)]
    simp only [List.nil_append]
    rw [if_pos (by split <;> split <;> omega)]
    simp only [List.nil_append]
    rw [if_pos (by omega), show ((v / 4096 % 16 + 224 - 224) * 64 + (v / 64 % 64 + 128 - 128)) * 64
      + (v % 64 + 128 - 128) = v by omega, hc]
    rfl
  · simp only [List.cons_append, List.nil_append, run]
    rw [toNat_of_lt (by omega), toNat_of_lt (by omega), toNat_of_lt (by omega),
      toNat_of_lt (by omega)]
    simp only [step, enter]
    rw [if_neg (by omega), if_neg (by omega), if_neg (by omega), if_neg (by omega),
      if_pos (by omega)]
    simp only [List.nil_append]
    rw [if_pos (by split <;> split <;> omega)]
    simp only [List.nil_append]
    rw [if_pos (by omega)]
    simp only [List.nil_append]
    rw [if_pos (by omega), show (((v / 262144 % 8 + 240 - 240) * 64 + (v / 4096 % 64 + 128 - 128))
      * 64 + (v / 64 % 64 + 128 - 128)) * 64 + (v % 64 + 128 - 128) = v by omega, hc]
    rfl

end Reader

/-- The text of a byte string. -/
def decode (bytes : Bytes) : String := String.ofList (Reader.between.run bytes)

theorem decode_ofString (s : String) : decode (Bytes.ofString s) = s := by
  suffices h : ∀ cs : List Char, Reader.between.run (cs.flatMap String.utf8EncodeChar) = cs by
    rw [decode, Bytes.ofString, h, String.ofList_toList]
  intro cs
  induction cs with
  | nil => rfl
  | cons c cs ih => rw [List.flatMap_cons, Reader.run_utf8EncodeChar_append, ih]

end Expiry.Utf8
