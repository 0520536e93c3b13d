import Expiry.Time.Duration

/-!
# Instants

An instant is a signed 64-bit number of milliseconds since the Unix epoch. Deadlines are computed
with saturation: a sum that leaves the range stops at its end, so a deadline too far away to be
written down is the last instant rather than one in the past. A clock moved by hand wraps around
instead.

## Main definitions

* `Instant.clamp` — the instant nearest to an integer
* `Instant.after` — the instant a number of milliseconds after another, saturating
* `Instant.remaining` — the milliseconds from one instant to a later one, zero if it has passed
* `Instant.advance` — an instant moved by a duration, wrapping around
* `Instant.ofUnixTime` — the instant a duration after the Unix epoch, to the nearest millisecond

## Main results

* `Instant.toInt_clamp`, `Instant.clamp_toInt` — clamping cuts to the range and keeps what is in it
* `Instant.le_after` — a deadline is never before the instant it is counted from
* `Instant.after_le_after` — a deadline counted from a later instant is no earlier
* `Instant.after_le_after_of_add_le`, `Instant.add_le_add_of_after_le` — how far saturation keeps
  the order of two sums
* `Instant.le_after_iff` — where saturation cannot be noticed
* `Instant.remaining_eq` — the time left is exact if it is not too long
* `Instant.remaining_le_remaining` — the later it is, the less time is left
-/

namespace Expiry

/-- Milliseconds since the Unix epoch. -/
abbrev Instant := Int64

namespace Instant

/-- The least instant, before every other. -/
abbrev first : Instant := Int64.minValue

/-- The Unix epoch. -/
abbrev epoch : Instant := 0

/-- The greatest instant, after every other. -/
abbrev last : Instant := Int64.maxValue

theorem toInt_max (t u : Instant) : (max t u).toInt = max t.toInt u.toInt := by
  show (if t ≤ u then u else t).toInt = _
  split
  · next hle => exact (Int.max_eq_right (Int64.le_iff_toInt_le.mp hle)).symm
  · next hlt =>
    have hle := Int64.le_of_lt (Int64.not_le.mp hlt)
    exact (Int.max_eq_left (Int64.le_iff_toInt_le.mp hle)).symm

theorem le_max_left (t u : Instant) : t ≤ max t u := by
  rw [Int64.le_iff_toInt_le, toInt_max]
  exact Int.le_max_left _ _

theorem le_max_right (t u : Instant) : u ≤ max t u := by
  rw [Int64.le_iff_toInt_le, toInt_max]
  exact Int.le_max_right _ _

theorem max_self (t : Instant) : max t t = t := by
  rw [← Int64.toInt_inj, toInt_max, Int.max_self]

theorem max_comm (t u : Instant) : max t u = max u t := by
  rw [← Int64.toInt_inj, toInt_max, toInt_max, Int.max_comm]

theorem max_assoc (t u v : Instant) : max (max t u) v = max t (max u v) := by
  rw [← Int64.toInt_inj, toInt_max, toInt_max, toInt_max, toInt_max, Int.max_assoc]

theorem max_le_iff {t u v : Instant} : max t u ≤ v ↔ t ≤ v ∧ u ≤ v := by
  rw [Int64.le_iff_toInt_le, Int64.le_iff_toInt_le, Int64.le_iff_toInt_le, toInt_max, Int.max_le]

/-- The instant nearest to `n`. -/
def clamp (n : Int) : Instant := Int64.ofInt (max first.toInt (min n last.toInt))

theorem toInt_clamp (n : Int) : (clamp n).toInt = max first.toInt (min n last.toInt) := by
  apply Int64.toInt_ofInt_of_le <;> simp only [Int64.toInt_minValue, Int64.toInt_maxValue] <;> omega

@[simp] theorem clamp_toInt (t : Instant) : clamp t.toInt = t := by
  have hlo := t.le_toInt
  have hhi := t.toInt_lt
  apply Int64.toInt_inj.mp
  rw [toInt_clamp, Int64.toInt_minValue, Int64.toInt_maxValue]
  omega

/-- The milliseconds by which `ms` can move an instant: no more than the greatest instant. -/
def reach (ms : UInt64) : Int := min ms.toNat last.toInt

/-- The instant `ms` milliseconds after `t`, or the last one if there is no such instant. -/
def after (t : Instant) (ms : UInt64) : Instant := clamp (t.toInt + reach ms)

theorem toInt_after (t : Instant) (ms : UInt64) :
    (t.after ms).toInt = min (t.toInt + reach ms) last.toInt := by
  have hlo := t.le_toInt
  rw [after, toInt_clamp, reach, Int64.toInt_minValue, Int64.toInt_maxValue]
  omega

theorem le_after (t : Instant) (ms : UInt64) : t ≤ t.after ms := by
  have hhi := t.toInt_lt
  rw [Int64.le_iff_toInt_le, toInt_after, reach, Int64.toInt_maxValue]
  omega

theorem after_le_after {t u : Instant} (h : t ≤ u) (ms : UInt64) : t.after ms ≤ u.after ms := by
  rw [Int64.le_iff_toInt_le] at h ⊢
  rw [toInt_after, toInt_after]
  omega

/-- Saturation keeps the order of two sums if the one that is no greater is not counted from a later
instant. -/
theorem after_le_after_of_add_le {t u : Instant} (h : t ≤ u) {ms ms' : UInt64}
    (hadd : t.toInt + ms.toNat ≤ u.toInt + ms'.toNat) : t.after ms ≤ u.after ms' := by
  rw [Int64.le_iff_toInt_le] at h ⊢
  rw [toInt_after, toInt_after, reach, reach]
  omega

/-- Saturation brings two sums into order only if they were, or if the first leaves the range. -/
theorem add_le_add_of_after_le {t u : Instant} {ms ms' : UInt64} (h : t.after ms ≤ u.after ms') :
    t.toInt + ms.toNat ≤ u.toInt + ms'.toNat ∨ last.toInt < ms.toNat ∨
      last.toInt < t.toInt + ms.toNat := by
  rw [Int64.le_iff_toInt_le, toInt_after, toInt_after, reach, reach] at h
  omega

/-- Whether `u` is at most `ms` milliseconds after `t` shows in the saturated sum, unless `u` is
further away than milliseconds can move an instant. -/
theorem le_after_iff {t u : Instant} {ms : UInt64} (h : u.toInt - t.toInt ≤ last.toInt) :
    u ≤ t.after ms ↔ u.toInt ≤ t.toInt + ms.toNat := by
  have hhi := u.toInt_lt
  have hlast : last.toInt = 2 ^ 63 - 1 := Int64.toInt_maxValue
  rw [Int64.le_iff_toInt_le, toInt_after, reach]
  omega

/-- The milliseconds from `now` until `deadline`: the saturated difference, and zero if `deadline`
has passed. -/
def remaining (now deadline : Instant) : UInt64 :=
  UInt64.ofNat (clamp (deadline.toInt - now.toInt)).toInt.toNat

/-- The difference is exact as long as it is an instant itself. -/
theorem remaining_eq {now deadline : Instant} (h : deadline.toInt - now.toInt ≤ last.toInt) :
    remaining now deadline = UInt64.ofNat (deadline.toInt - now.toInt).toNat := by
  rw [remaining, toInt_clamp]
  congr 1
  rw [Int64.toInt_minValue]
  omega

theorem toNat_remaining (now deadline : Instant) :
    (remaining now deadline).toNat = (min (deadline.toInt - now.toInt) last.toInt).toNat := by
  have hlt : (clamp (deadline.toInt - now.toInt)).toInt.toNat < UInt64.size := by
    rw [toInt_clamp, Int64.toInt_minValue, Int64.toInt_maxValue, UInt64.size]
    omega
  rw [remaining, UInt64.toNat_ofNat_of_lt' hlt, toInt_clamp, Int64.toInt_minValue]
  omega

/-- The later it is, the less time is left. -/
theorem remaining_le_remaining {now now' : Instant} (h : now ≤ now') (deadline : Instant) :
    remaining now' deadline ≤ remaining now deadline := by
  rw [Int64.le_iff_toInt_le] at h
  rw [UInt64.le_iff_toNat_le, toNat_remaining, toNat_remaining]
  omega

/-- The instant shown by a clock at `t` that is moved by the whole milliseconds of `d`; it wraps
around at the ends of the range. -/
def advance (t : Instant) (d : Duration) : Instant := t + Int64.ofInt d.toMillis

/-- The instant that lies `d` after the Unix epoch, to the nearest millisecond, a half upwards. -/
def ofUnixTime (d : Duration) : Instant := Int64.ofInt ((d.toNanos + 500000) / 1000000 : Nat)

end Instant

end Expiry
