import Mathlib.Order.Basic

/-!
# Watch channels

A channel that keeps the last value sent, with a version that tells the values apart.
A receiver remembers the version it has seen; it can look at the value at any time,
and it can wait for another version.  A waiter that alternates the two, until it has
looked at a value it accepts, misses no value that stays: it never sleeps on the
version of an accepted value.
-/

namespace Lib

universe u v

/-- A watch channel in the states `χ`, by what its users can rely on.  Each send replaces the
value and makes a newer version; the channel is closed once its sender is gone. -/
class Watch (χ : Type u) (α : outParam (Type v)) where
  channel : α → χ
  send : χ → α → χ
  value : χ → α
  version : χ → Nat
  closed : χ → Bool
  /-- A wait for another version than the one that has been seen: the new version, or an
  error if there will be none; `none` as long as it blocks. -/
  changed : χ → (seen : Nat) → Option (Except Unit Nat)
  value_channel : ∀ initial, value (channel initial) = initial
  closed_channel : ∀ initial, closed (channel initial) = false
  value_send : ∀ watch new, value (send watch new) = new
  version_send : ∀ watch new, version watch < version (send watch new)
  closed_send : ∀ watch new, closed (send watch new) = closed watch
  changed_of_ne : ∀ watch seen, version watch ≠ seen →
    changed watch seen = some (.ok (version watch))
  changed_of_eq : ∀ watch, changed watch (version watch) =
    if closed watch then some (.error ()) else none

attribute [simp] Watch.value_channel Watch.closed_channel Watch.value_send Watch.closed_send

/-- The program points of a loop that looks at the value, and waits for a change before
it looks again. -/
inductive Waiter where
  | starting (seen : Nat)
  | waiting (seen : Nat)
  | checking (seen : Nat)
  | done
  deriving DecidableEq, Repr

namespace Waiter

variable {χ : Type u} {α : Type v} [Watch χ α] (accepts : α → Bool) {watch : χ}
variable {waiter next : Waiter}

/-- One step of the waiter; `none` while it blocks, and when it is done. -/
def step (watch : χ) : Waiter → Option Waiter
  | starting seen => some (if accepts (Watch.value watch) then done else waiting seen)
  | waiting seen =>
      (Watch.changed watch seen).map fun change =>
        match change with
        | .ok version => checking version
        | .error () => done
  | checking seen => some (if accepts (Watch.value watch) then done else waiting seen)
  | done => none

/-- How many more steps the waiter needs at most. -/
def remaining : Waiter → Nat
  | starting _ | checking _ => 1
  | waiting _ => 2
  | done => 0

/-- The waiter has not seen a version of the future, and does not wait on a version
whose value it accepts. -/
def Alert (watch : χ) : Waiter → Prop
  | starting seen | checking seen => seen ≤ Watch.version watch
  | waiting seen =>
      seen ≤ Watch.version watch ∧
        (seen = Watch.version watch → accepts (Watch.value watch) = false)
  | done => True

theorem alert_starting (watch : χ) : Alert accepts watch (starting (Watch.version watch)) :=
  Nat.le_refl _

variable {accepts}

/-- Whatever is sent keeps the waiter alert. -/
theorem Alert.send (alert : Alert accepts watch waiter) (value : α) :
    Alert accepts (Watch.send watch value) waiter := by
  have newer := Watch.version_send watch value
  cases waiter with
  | starting seen | checking seen => exact Nat.le_trans alert (Nat.le_of_lt newer)
  | waiting seen =>
      refine ⟨Nat.le_trans alert.1 (Nat.le_of_lt newer), ?_⟩
      intro isNew
      exact absurd (isNew ▸ alert.1) (Nat.not_le_of_lt newer)
  | done => trivial

/-- So does a step of its own. -/
theorem Alert.step (alert : Alert accepts watch waiter)
    (stepped : waiter.step accepts watch = some next) : Alert accepts watch next := by
  have look : ∀ seen, seen ≤ Watch.version watch →
      Alert accepts watch (if accepts (Watch.value watch) then done else waiting seen) := by
    intro seen past
    split
    · trivial
    · next refused => exact ⟨past, fun _ => by simpa using refused⟩
  cases waiter with
  | starting seen | checking seen =>
      cases stepped
      exact look seen alert
  | waiting seen =>
      by_cases same : Watch.version watch = seen
      · rw [Waiter.step, ← same, Watch.changed_of_eq] at stepped
        split at stepped <;> cases stepped
        trivial
      · rw [Waiter.step, Watch.changed_of_ne _ _ same] at stepped
        cases stepped
        exact Nat.le_refl _
  | done => cases stepped

/-- No early end: a waiter is done when it has looked at a value it accepts, or the
sender is gone. -/
theorem accepts_of_done (stepped : waiter.step accepts watch = some done) :
    accepts (Watch.value watch) = true ∨ Watch.closed watch = true := by
  have look : ∀ seen, (if accepts (Watch.value watch) then done else waiting seen) = done →
      accepts (Watch.value watch) = true := by
    intro seen isDone
    split at isDone
    · next accepted => exact accepted
    · cases isDone
  cases waiter with
  | starting seen | checking seen => exact .inl (look seen (Option.some.inj stepped))
  | waiting seen =>
      by_cases same : Watch.version watch = seen
      · rw [Waiter.step, ← same, Watch.changed_of_eq] at stepped
        split at stepped
        · next closed => exact .inr closed
        · cases stepped
      · rw [Waiter.step, Watch.changed_of_ne _ _ same] at stepped
        cases stepped
  | done => cases stepped

/-- No lost wakeup: in front of a value it accepts, an alert waiter is not blocked, and
each step brings it nearer to its end. -/
theorem Alert.advances (alert : Alert accepts watch waiter)
    (accepted : accepts (Watch.value watch) = true) (notDone : waiter ≠ done) :
    ∃ next, waiter.step accepts watch = some next ∧
      next.remaining < waiter.remaining := by
  cases waiter with
  | starting seen | checking seen =>
      exact ⟨done, by simp only [Waiter.step, accepted, if_true], Nat.zero_lt_one⟩
  | waiting seen =>
      have unseen : Watch.version watch ≠ seen := by
        intro same
        cases accepted.symm.trans (alert.2 same.symm)
      refine ⟨checking (Watch.version watch), ?_, Nat.one_lt_two⟩
      rw [Waiter.step, Watch.changed_of_ne _ _ unseen]
      rfl
  | done => exact absurd rfl notDone

/-- A waiter that is in front of a value it accepts gets nearer to its end whenever it
steps. -/
theorem Alert.remaining_lt (alert : Alert accepts watch waiter)
    (accepted : accepts (Watch.value watch) = true)
    (stepped : waiter.step accepts watch = some next) :
    next.remaining < waiter.remaining := by
  have notDone : waiter ≠ done := by
    rintro rfl
    cases stepped
  rcases alert.advances accepted notDone with ⟨other, steppedOther, nearer⟩
  cases stepped.symm.trans steppedOther
  exact nearer

theorem remaining_le (waiter : Waiter) : waiter.remaining ≤ 2 := by
  cases waiter <;> simp [remaining]

end Waiter

/-! ## A channel that counts its sends -/

structure Cell (α : Type u) where
  value : α
  version : Nat
  closed : Bool

instance {α : Type u} : Watch (Cell α) α where
  channel value := { value, version := 0, closed := false }
  send cell value := { cell with value, version := cell.version + 1 }
  value := Cell.value
  version := Cell.version
  closed := Cell.closed
  changed cell seen :=
    if cell.version ≠ seen then some (.ok cell.version)
    else if cell.closed then some (.error ())
    else none
  value_channel _ := rfl
  closed_channel _ := rfl
  value_send _ _ := rfl
  version_send _ _ := Nat.lt_succ_self _
  closed_send _ _ := rfl
  changed_of_ne _ _ unseen := if_pos unseen
  changed_of_eq _ := if_neg fun unseen => unseen rfl

end Lib
