/-!
# Durations

A duration is a whole number of seconds and a fraction of a second in nanoseconds. Timers count in
whole milliseconds, so what matters of a duration is `Duration.toMillis`, its milliseconds rounded
down, an exact natural number that need not fit in 64 bits.

## Main definitions

* `Duration` — seconds below `2 ^ 64` and nanoseconds below one second
* `Duration.toNanos`, `Duration.toMillis` — the exact length, and its whole milliseconds
* `Duration.toTtl` — the milliseconds as a 64-bit number, the greatest one if there are more
* `Duration.ofMillis` — the duration of a 64-bit number of milliseconds

## Main results

* `Duration.toMillis_ofMillis` — whole milliseconds are kept
* `Duration.toNanos_inj` — a duration is determined by its length
-/

namespace Expiry

/-- A length of time: whole seconds, and the rest in nanoseconds. -/
structure Duration where
  seconds : UInt64
  nanos : Nat
  nanos_lt : nanos < 1000000000 := by decide
  deriving DecidableEq

namespace Duration

variable {d e : Duration}

/-- The exact length in nanoseconds. -/
def toNanos (d : Duration) : Nat := d.seconds.toNat * 1000000000 + d.nanos

/-- The whole milliseconds of a duration. -/
def toMillis (d : Duration) : Nat := d.toNanos / 1000000

/-- The milliseconds that a timer of this duration runs: the whole ones, as far as 64 bits go. -/
def toTtl (d : Duration) : UInt64 := UInt64.ofNat (min d.toMillis (UInt64.size - 1))

/-- The duration of `ms` milliseconds. -/
def ofMillis (ms : UInt64) : Duration where
  seconds := ms / 1000
  nanos := ms.toNat % 1000 * 1000000
  nanos_lt := by omega

@[simp] theorem toNanos_ofMillis (ms : UInt64) : (ofMillis ms).toNanos = ms.toNat * 1000000 := by
  simp only [toNanos, ofMillis, UInt64.toNat_div, UInt64.reduceToNat]
  omega

@[simp] theorem toMillis_ofMillis (ms : UInt64) : (ofMillis ms).toMillis = ms.toNat := by
  simp [toMillis]

theorem toNat_toTtl (d : Duration) : d.toTtl.toNat = min d.toMillis (UInt64.size - 1) := by
  have hlt : min d.toMillis (UInt64.size - 1) < UInt64.size :=
    Nat.lt_of_le_of_lt (Nat.min_le_right _ _) (by decide)
  rw [toTtl, UInt64.toNat_ofNat_of_lt' hlt]

theorem toNanos_inj : d.toNanos = e.toNanos ↔ d = e := by
  constructor
  · obtain ⟨s, n, hn⟩ := d
    obtain ⟨s', n', hn'⟩ := e
    intro h
    simp only [toNanos] at h
    have hs : s = s' := UInt64.toNat_inj.mp (by omega)
    have hnanos : n = n' := by omega
    subst hs hnanos
    rfl
  · rintro rfl
    rfl

end Duration

end Expiry
