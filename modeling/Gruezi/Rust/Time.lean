import Gruezi.Rust.Io

/-!
# Durations, instants and machine integers

A `std::time::Duration` holds at most `u64::MAX` seconds and 999 999 999
nanoseconds; the bound is a field, so an overlong duration cannot be built.  An
`Instant`, a reading of the monotonic clock, is an integer number of nanoseconds
here: the operations on instants below are total, away from the ends of the
clock.
-/

namespace Gruezi.Rust

def nanosPerMilli : Nat := 1000000

def nanosPerSec : Nat := 1000000000

/-- `std::time::Duration`, by its number of nanoseconds. -/
structure Duration where
  nanos : Nat
  bound : nanos < 2 ^ 64 * nanosPerSec
  deriving DecidableEq, Repr

namespace Duration

@[ext] theorem ext {left right : Duration} (equal : left.nanos = right.nanos) :
    left = right := by
  cases left
  cases right
  cases equal
  rfl

def zero : Duration := ⟨0, by decide⟩

/-- The longest duration not above `nanos`. -/
def saturate (nanos : Nat) : Duration :=
  ⟨min nanos (2 ^ 64 * nanosPerSec - 1), by unfold nanosPerSec; omega⟩

/-- `Duration::from_millis`. -/
def fromMillis (millis : UInt64) : Duration where
  nanos := millis.toNat * nanosPerMilli
  bound := by
    have := millis.toNat_lt
    unfold nanosPerMilli nanosPerSec
    omega

/-- `Duration::saturating_mul`. -/
def saturatingMul (duration : Duration) (factor : UInt32) : Duration :=
  saturate (duration.nanos * factor.toNat)

/-- `Duration::saturating_sub`. -/
def saturatingSub (left right : Duration) : Duration :=
  ⟨left.nanos - right.nanos, by have := left.bound; omega⟩

/-- `Duration::as_millis`. -/
def asMillis (duration : Duration) : Nat :=
  duration.nanos / nanosPerMilli

@[simp] theorem nanos_fromMillis (millis : UInt64) :
    (fromMillis millis).nanos = millis.toNat * nanosPerMilli := rfl

@[simp] theorem nanos_saturatingSub (left right : Duration) :
    (left.saturatingSub right).nanos = left.nanos - right.nanos := rfl

theorem nanos_saturate {nanos : Nat} (fits : nanos < 2 ^ 64 * nanosPerSec) :
    (saturate nanos).nanos = nanos := by
  have : nanos ≤ 2 ^ 64 * nanosPerSec - 1 := by omega
  exact Nat.min_eq_left this

/-- A number of milliseconds that fits in 64 bits, multiplied by a byte, never
reaches the limit of a duration. -/
theorem nanos_fromMillis_saturatingMul (millis : UInt64) (factor : UInt8) :
    ((fromMillis millis).saturatingMul factor.toUInt32).nanos =
      millis.toNat * factor.toNat * nanosPerMilli := by
  have millisLt := millis.toNat_lt
  have factorLt : factor.toNat ≤ 255 := by have := factor.toNat_lt; omega
  have product : millis.toNat * factor.toNat ≤ (2 ^ 64 - 1) * 255 :=
    Nat.mul_le_mul (by omega) factorLt
  have reorder : millis.toNat * nanosPerMilli * factor.toNat =
      millis.toNat * factor.toNat * nanosPerMilli := Nat.mul_right_comm _ _ _
  rw [saturatingMul, nanos_fromMillis, UInt8.toNat_toUInt32, reorder]
  apply nanos_saturate
  unfold nanosPerMilli nanosPerSec
  omega

end Duration

namespace Instant

/-- `Instant + Duration`. -/
def add (instant : Int) (duration : Duration) : Int :=
  instant + duration.nanos

/-- `Instant::saturating_duration_since`. -/
def saturatingDurationSince (instant earlier : Int) : Duration :=
  .saturate (instant - earlier).toNat

end Instant

/-- `u64::saturating_add`. -/
def saturatingAdd (left right : UInt64) : UInt64 :=
  if left.toNat + right.toNat < 2 ^ 64 then left + right else .ofNat (2 ^ 64 - 1)

/-- `u64::try_from(duration.as_millis()).unwrap_or(u64::MAX)`. -/
def durationMillisU64 (duration : Duration) : UInt64 :=
  if duration.asMillis < 2 ^ 64 then .ofNat duration.asMillis
  else .ofNat (2 ^ 64 - 1)

/-- `ha::saturating_elapsed_ms`. -/
def saturatingElapsedMs (now observedAt : Int) : UInt64 :=
  durationMillisU64 (Instant.saturatingDurationSince now observedAt)

theorem toNat_durationMillisU64 (duration : Duration) :
    (durationMillisU64 duration).toNat = min duration.asMillis (2 ^ 64 - 1) := by
  unfold durationMillisU64
  split
  · next fits =>
      rw [UInt64.toNat_ofNat_of_lt' fits, Nat.min_eq_left (by omega)]
  · next overflows =>
      rw [UInt64.toNat_ofNat_of_lt' (by decide), Nat.min_eq_right (by omega)]

/-- The age of a reading in milliseconds, rounded down, is below a bound of at
most `u64::MAX` exactly when the age itself is. -/
theorem saturatingElapsedMs_lt_iff {now observedAt : Int} {bound : Nat}
    (ordered : observedAt ≤ now) (fits : bound < 2 ^ 64) :
    (saturatingElapsedMs now observedAt).toNat < bound ↔
      now < observedAt + (bound * nanosPerMilli : Nat) := by
  rcases Int.le.dest ordered with ⟨age, rfl⟩
  have age_eq : (observedAt + age - observedAt).toNat = age := by omega
  rw [saturatingElapsedMs, toNat_durationMillisU64, Duration.asMillis,
    Instant.saturatingDurationSince, age_eq, Duration.saturate]
  simp only [nanosPerMilli, nanosPerSec]
  omega

end Gruezi.Rust
