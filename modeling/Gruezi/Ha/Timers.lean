import Gruezi.Ha.Advertise
import Gruezi.Rust.Clock

/-!
# Timer arithmetic

The timers mix wrapping arithmetic on `u64`, saturating arithmetic on durations
and panicking additions to the clock.  For a validated configuration none of
the three loses anything, whatever the 64-bit milliseconds are, until the clock
has run for 2^61 seconds.
-/

namespace Gruezi.Ha

open Rust

namespace HaRuntimeConfig

variable {runtime : HaRuntimeConfig}

/-- `follower_deadline` on the machine's clock; `none` is the panic of `+`. -/
def followerDeadlineOnClock (runtime : HaRuntimeConfig) (lastObservedAt : Timespec) :
    Option Timespec :=
  (lastObservedAt.checkedAddDuration runtime.deadTimeout).bind fun instant =>
    instant.checkedAddDuration runtime.holdDown

/-- `Instant::now() + runtime.next_advert_delay(sequence)` on the machine's
clock. -/
def nextAdvertOnClock (runtime : HaRuntimeConfig) (sequence : UInt64)
    (now : Timespec) : Option Timespec :=
  now.checkedAddDuration (runtime.nextAdvertDelay sequence)

/-- Where it does not panic, the machine's clock gives the deadline the loop is
modelled with. -/
theorem followerDeadline_nanos {instant deadline : Timespec}
    (added : runtime.followerDeadlineOnClock instant = some deadline) :
    runtime.followerDeadline instant.nanos = deadline.nanos := by
  rcases Option.bind_eq_some_iff.mp added with ⟨timeout, addedTimeout, addedHoldDown⟩
  rw [followerDeadline, Instant.add, Instant.add,
    Timespec.nanos_checkedAddDuration addedHoldDown,
    Timespec.nanos_checkedAddDuration addedTimeout]

/-- And the time of the next advertisement. -/
theorem nextAdvert_nanos {sequence : UInt64} {now next : Timespec}
    (added : runtime.nextAdvertOnClock sequence now = some next) :
    Instant.add now.nanos (runtime.nextAdvertDelay sequence) = next.nanos :=
  (Timespec.nanos_checkedAddDuration added).symm

/-- What validation guarantees about the timers. -/
structure ValidTimers (runtime : HaRuntimeConfig) : Prop where
  deadFactor : 2 ≤ runtime.deadFactor
  jitterMs : runtime.jitterMs < runtime.advertIntervalMs

theorem validTimers_of_validate {config : Config} (mode : config.mode = .ha)
    (accepted : config.validate = .ok ())
    (converted : tryFrom config = .ok runtime) : runtime.ValidTimers := by
  have valid := Config.validHa_of_validate mode accepted
  simp only [tryFrom, bind_eq_ok] at converted
  rcases converted with ⟨_, _, _, _, _, _, _, _, returned⟩
  cases returned
  exact ⟨valid.deadFactor, valid.jitterMs⟩

/-- The modulus of the jitter does not wrap. -/
theorem toNat_jitterMs_add_one (valid : runtime.ValidTimers) :
    (runtime.jitterMs + 1).toNat = runtime.jitterMs.toNat + 1 := by
  have below := UInt64.lt_iff_toNat_lt.mp valid.jitterMs
  have bound := runtime.advertIntervalMs.toNat_lt
  rw [UInt64.toNat_add, UInt64.toNat_one]
  exact Nat.mod_eq_of_lt (by omega)

theorem nanos_jitterFor_le (valid : runtime.ValidTimers) (sequence : UInt64) :
    (runtime.jitterFor sequence).nanos ≤ runtime.jitterMs.toNat * nanosPerMilli := by
  unfold jitterFor
  split
  · exact Nat.zero_le _
  · rw [Duration.nanos_fromMillis, UInt64.toNat_mod, toNat_jitterMs_add_one valid]
    have remainder : sequence.toNat % (runtime.jitterMs.toNat + 1) ≤
        runtime.jitterMs.toNat :=
      Nat.le_of_lt_succ (Nat.mod_lt _ (Nat.succ_pos _))
    exact Nat.mul_le_mul_right _ remainder

/-- An advertisement is at most one interval after the last. -/
theorem nanos_nextAdvertDelay_le (sequence : UInt64) :
    (runtime.nextAdvertDelay sequence).nanos ≤
      runtime.advertIntervalMs.toNat * nanosPerMilli := by
  rw [nextAdvertDelay, Duration.nanos_saturatingSub]
  exact Nat.sub_le _ _

/-- It is at least an interval without the jitter after the last. -/
theorem le_nanos_nextAdvertDelay (valid : runtime.ValidTimers) (sequence : UInt64) :
    (runtime.advertIntervalMs.toNat - runtime.jitterMs.toNat) * nanosPerMilli ≤
      (runtime.nextAdvertDelay sequence).nanos := by
  have jitter := nanos_jitterFor_le valid sequence
  rw [nextAdvertDelay, Duration.nanos_saturatingSub, advertInterval,
    Duration.nanos_fromMillis, Nat.sub_mul]
  omega

/-- The dead timeout is an exact product. -/
theorem nanos_deadTimeout : runtime.deadTimeout.nanos =
    runtime.advertIntervalMs.toNat * runtime.deadFactor.toNat * nanosPerMilli :=
  Duration.nanos_fromMillis_saturatingMul _ _

/-- The two parts of a deadline add up to the window. -/
theorem nanos_deadTimeout_add_holdDown (runtime : HaRuntimeConfig) :
    runtime.deadTimeout.nanos + runtime.holdDown.nanos = runtime.window := by
  rw [nanos_deadTimeout, holdDown, Duration.nanos_fromMillis, window, Nat.add_mul]

/-- A window is shorter than half the range of the clock. -/
theorem window_le (runtime : HaRuntimeConfig) :
    runtime.window ≤ (2 ^ 64 - 1) * 256 * nanosPerMilli := by
  have interval := runtime.advertIntervalMs.toNat_lt
  have factor := runtime.deadFactor.toNat_lt
  have holdDown := runtime.holdDownMs.toNat_lt
  have product : runtime.advertIntervalMs.toNat * runtime.deadFactor.toNat ≤
      (2 ^ 64 - 1) * 255 :=
    Nat.mul_le_mul (by omega) (by omega)
  exact Nat.mul_le_mul_right _ (by omega)

end HaRuntimeConfig

/-- The timers of a runtime configuration are exact on a clock that has run for
at most 2^61 seconds, and none of its additions panics. -/
structure ExactTimers (runtime : HaRuntimeConfig) : Prop where
  jitterModulus : (runtime.jitterMs + 1).toNat = runtime.jitterMs.toNat + 1
  delay_ge : ∀ sequence,
    (runtime.advertIntervalMs.toNat - runtime.jitterMs.toNat) * nanosPerMilli ≤
      (runtime.nextAdvertDelay sequence).nanos
  delay_le : ∀ sequence, (runtime.nextAdvertDelay sequence).nanos ≤
    runtime.advertIntervalMs.toNat * nanosPerMilli
  delay_pos : ∀ sequence, nanosPerMilli ≤ (runtime.nextAdvertDelay sequence).nanos
  deadTimeout : runtime.deadTimeout.nanos =
    runtime.advertIntervalMs.toNat * runtime.deadFactor.toNat * nanosPerMilli
  deadline : ∀ instant : Timespec, instant.tvSec ≤ 2 ^ 61 →
    ∃ deadline, runtime.followerDeadlineOnClock instant = some deadline ∧
      deadline.nanos = instant.nanos +
        ((runtime.advertIntervalMs.toNat * runtime.deadFactor.toNat +
          runtime.holdDownMs.toNat) * nanosPerMilli : Nat)
  schedule : ∀ (instant : Timespec) sequence, instant.tvSec ≤ 2 ^ 61 →
    ∃ next, runtime.nextAdvertOnClock sequence instant = some next ∧
      next.nanos = instant.nanos + (runtime.nextAdvertDelay sequence).nanos

/-- A clock that has run for at most 2^61 seconds has room for any window. -/
theorem nanos_add_lt {instant : Timespec} {duration : Nat}
    (early : instant.tvSec ≤ 2 ^ 61)
    (bounded : duration ≤ (2 ^ 64 - 1) * 256 * nanosPerMilli) :
    instant.nanos + duration < 2 ^ 63 * nanosPerSec := by
  have fraction := instant.tvNsec_lt
  simp only [Timespec.nanos, nanosPerSec, nanosPerMilli] at bounded fraction ⊢
  omega

/-- Every configuration validation admits has exact timers. -/
theorem exactTimers_of_validate (config : Config) (mode : config.mode = .ha)
    (accepted : config.validate = .ok ()) :
    ∃ runtime, HaRuntimeConfig.tryFrom config = .ok runtime ∧ ExactTimers runtime := by
  obtain ⟨runtime, converted, _⟩ :=
    tryFrom_of_validHa mode (Config.validHa_of_validate mode accepted)
  have valid := HaRuntimeConfig.validTimers_of_validate mode accepted converted
  have jitterBelow := UInt64.lt_iff_toNat_lt.mp valid.jitterMs
  refine ⟨runtime, converted, ?_⟩
  constructor
  case jitterModulus => exact HaRuntimeConfig.toNat_jitterMs_add_one valid
  case delay_ge => exact HaRuntimeConfig.le_nanos_nextAdvertDelay valid
  case delay_le => exact HaRuntimeConfig.nanos_nextAdvertDelay_le
  case delay_pos =>
    intro sequence
    refine le_trans ?_ (HaRuntimeConfig.le_nanos_nextAdvertDelay valid sequence)
    exact Nat.le_mul_of_pos_left _ (by omega)
  case deadTimeout => exact HaRuntimeConfig.nanos_deadTimeout
  case deadline =>
    intro instant early
    have room := nanos_add_lt early runtime.window_le
    have parts := runtime.nanos_deadTimeout_add_holdDown
    have timeoutFits : instant.nanos + runtime.deadTimeout.nanos <
        2 ^ 63 * nanosPerSec := by omega
    rcases Timespec.checkedAddDuration_isSome timeoutFits with ⟨timeout, addedTimeout⟩
    have timeoutEq := Timespec.nanos_checkedAddDuration addedTimeout
    have holdDownFits : timeout.nanos + runtime.holdDown.nanos <
        2 ^ 63 * nanosPerSec := by omega
    rcases Timespec.checkedAddDuration_isSome holdDownFits with ⟨deadline, addedHoldDown⟩
    have deadlineEq := Timespec.nanos_checkedAddDuration addedHoldDown
    refine ⟨deadline, ?_, ?_⟩
    · rw [HaRuntimeConfig.followerDeadlineOnClock, addedTimeout]
      exact addedHoldDown
    · rw [← HaRuntimeConfig.window]
      omega
  case schedule =>
    intro instant sequence early
    have delay := runtime.nanos_nextAdvertDelay_le sequence
    have bounded : (runtime.nextAdvertDelay sequence).nanos ≤
        (2 ^ 64 - 1) * 256 * nanosPerMilli := by
      have interval := runtime.advertIntervalMs.toNat_lt
      exact delay.trans (Nat.mul_le_mul_right _ (by omega))
    rcases Timespec.checkedAddDuration_isSome (nanos_add_lt early bounded) with
      ⟨next, added⟩
    exact ⟨next, added, Timespec.nanos_checkedAddDuration added⟩

theorem exactTimers_of_validate_demo :
    ∃ runtime, HaRuntimeConfig.tryFrom (demoConfig "low") = .ok runtime ∧
      ExactTimers runtime :=
  exactTimers_of_validate (demoConfig "low") rfl (by decide +kernel)

end Gruezi.Ha
