import Gruezi.Rust.Time

/-!
# Clock readings of the machine

An `Instant` as the standard library stores it on Linux: seconds in 64 signed
bits and nanoseconds below one second.  Adding a duration is checked, and the
operator `+` panics where the check fails.  The addition is exact integer
addition wherever it succeeds, and it succeeds wherever the sum can be stored.
-/

namespace Gruezi.Rust

/-- `Duration::as_secs`. -/
def Duration.asSecs (duration : Duration) : Nat :=
  duration.nanos / nanosPerSec

/-- `Duration::subsec_nanos`. -/
def Duration.subsecNanos (duration : Duration) : Nat :=
  duration.nanos % nanosPerSec

/-- `std::sys::unix::time::Timespec`. -/
structure Timespec where
  tvSec : Int
  tvNsec : Nat
  tvSec_ge : -2 ^ 63 ≤ tvSec
  tvSec_lt : tvSec < 2 ^ 63
  tvNsec_lt : tvNsec < nanosPerSec
  deriving DecidableEq, Repr

namespace Timespec

/-- The reading as a number of nanoseconds. -/
def nanos (timespec : Timespec) : Int :=
  timespec.tvSec * nanosPerSec + timespec.tvNsec

/-- `Timespec::checked_add_duration`. -/
def checkedAddDuration (timespec : Timespec) (duration : Duration) : Option Timespec :=
  let secs := timespec.tvSec + duration.asSecs
  let nsec := duration.subsecNanos + timespec.tvNsec
  if fits : secs < 2 ^ 63 then
    if carries : nsec ≥ nanosPerSec then
      if fitsCarry : secs + 1 < 2 ^ 63 then
        some {
          tvSec := secs + 1
          tvNsec := nsec - nanosPerSec
          tvSec_ge := by have := timespec.tvSec_ge; omega
          tvSec_lt := fitsCarry
          tvNsec_lt := by
            have := timespec.tvNsec_lt
            have : duration.subsecNanos < nanosPerSec := Nat.mod_lt _ (by decide)
            omega }
      else none
    else
      some {
        tvSec := secs
        tvNsec := nsec
        tvSec_ge := by have := timespec.tvSec_ge; omega
        tvSec_lt := fits
        tvNsec_lt := Nat.not_le.mp carries }
  else none

/-- The checked addition returns the exact sum. -/
theorem nanos_checkedAddDuration {timespec sum : Timespec} {duration : Duration}
    (added : timespec.checkedAddDuration duration = some sum) :
    sum.nanos = timespec.nanos + duration.nanos := by
  have whole : duration.asSecs * nanosPerSec + duration.subsecNanos = duration.nanos :=
    Nat.div_add_mod' _ _
  have unit : nanosPerSec = 1000000000 := rfl
  simp only [checkedAddDuration] at added
  split at added
  · split at added
    · split at added
      · cases added
        simp only [nanos, nanosPerSec] at whole ⊢
        omega
      · cases added
    · cases added
      simp only [nanos, nanosPerSec] at whole ⊢
      omega
  · cases added

/-- It fails only where the sum cannot be stored. -/
theorem checkedAddDuration_isSome {timespec : Timespec} {duration : Duration}
    (fits : timespec.nanos + duration.nanos < 2 ^ 63 * nanosPerSec) :
    ∃ sum, timespec.checkedAddDuration duration = some sum := by
  have whole : duration.asSecs * nanosPerSec + duration.subsecNanos = duration.nanos :=
    Nat.div_add_mod' _ _
  have unit : nanosPerSec = 1000000000 := rfl
  simp only [nanos, nanosPerSec] at fits whole
  simp only [checkedAddDuration]
  split
  · split
    · split
      · exact ⟨_, rfl⟩
      · omega
    · exact ⟨_, rfl⟩
  · omega

end Timespec

end Gruezi.Rust
