import Mathlib.Init

/-!
# The errors of a computation

`FailsWith allowed result` says that a result, if it is an error, is an allowed
one; `Raises` says the same of a computation from every state.  Sequencing keeps
both, so the errors of a parser are those of its parts.
-/

namespace Lib

universe u

variable {σ ε α β : Type u} {allowed : ε → Prop}

def FailsWith (allowed : ε → Prop) (result : Except ε α) : Prop :=
  ∀ error, result = .error error → allowed error

def Raises (allowed : ε → Prop) (computation : StateT σ (Except ε) α) : Prop :=
  ∀ state, FailsWith allowed (computation.run state)

namespace FailsWith

theorem ok (value : α) : FailsWith allowed (.ok value) := by
  intro error failed
  cases failed

theorem error {found : ε} (permitted : allowed found) :
    FailsWith (α := α) allowed (.error found) := by
  intro error failed
  cases failed
  exact permitted

theorem bind {first : Except ε α} {next : α → Except ε β}
    (firstFails : FailsWith allowed first)
    (nextFails : ∀ value, FailsWith allowed (next value)) :
    FailsWith allowed (first >>= next) := by
  cases first with
  | error found => exact error (firstFails found rfl)
  | ok value => exact nextFails value

end FailsWith

namespace Raises

theorem pure (value : α) : Raises (σ := σ) allowed (Pure.pure value) :=
  fun _ => .ok _

theorem throw {found : ε} (permitted : allowed found) :
    Raises (σ := σ) (α := α) allowed (MonadExcept.throw found) :=
  fun _ => .error permitted

theorem lift {result : Except ε α} (fails : FailsWith allowed result) :
    Raises (σ := σ) allowed (StateT.lift result) :=
  fun _ => fails.bind fun _ => .ok _

theorem bind {first : StateT σ (Except ε) α} {next : α → StateT σ (Except ε) β}
    (firstRaises : Raises allowed first)
    (nextRaises : ∀ value, Raises allowed (next value)) :
    Raises allowed (first >>= next) := by
  intro state
  rw [StateT.run_bind]
  exact (firstRaises state).bind fun _ => nextRaises _ _

end Raises

end Lib
