import Mathlib.Init

/-!
# Retries

Hoare triples for actions that change a state and may fail, with one postcondition for a
value and one for an error, and the rule of a loop that tries an action again after a pause,
as long as its error may pass and the number of tries is not used up.
-/

namespace Lib

variable {σ ε δ α β : Type}

/-- From a state that meets the precondition, the action ends in a value and a state that
meet the first postcondition, or in an error and a state that meet the second. -/
def Triple (before : σ → Prop) (action : ExceptT ε (StateM σ) α)
    (succeeds : α → σ → Prop) (fails : ε → σ → Prop) : Prop :=
  ∀ state, before state →
    match action.run.run state with
    | (.ok value, after) => succeeds value after
    | (.error error, after) => fails error after

/-- Try once, and up to `more` times again. -/
def retry (attempt : ExceptT ε (StateM σ) α) (transient : ε → Bool) (pause : StateM σ Unit) :
    (more : Nat) → ExceptT ε (StateM σ) α
  | 0 => attempt
  | more + 1 =>
      tryCatch attempt fun error =>
        if transient error then do
          ExceptT.lift pause
          retry attempt transient pause more
        else throw error

namespace Triple

variable {before : σ → Prop} {action : ExceptT ε (StateM σ) α}
variable {succeeds : α → σ → Prop} {fails : ε → σ → Prop}

theorem pure {value : α} (holds : ∀ state, before state → succeeds value state) :
    Triple before (Pure.pure value) succeeds fails :=
  holds

theorem throw {error : ε} (holds : ∀ state, before state → fails error state) :
    Triple before (MonadExcept.throw error) succeeds fails :=
  holds

theorem lift {action : StateM σ α}
    (holds : ∀ state, before state → succeeds (action.run state).1 (action.run state).2) :
    Triple before (ExceptT.lift action) succeeds fails :=
  holds

/-- The rule of consequence. -/
theorem conseq {weaker : σ → Prop} {succeeded : α → σ → Prop} {failed : ε → σ → Prop}
    (triple : Triple weaker action succeeded failed)
    (pre : ∀ state, before state → weaker state)
    (ok : ∀ value state, succeeded value state → succeeds value state)
    (error : ∀ error state, failed error state → fails error state) :
    Triple before action succeeds fails := by
  intro state holds
  have post := triple state (pre state holds)
  split at post
  · exact ok _ _ post
  · exact error _ _ post

/-- The rule of consequence for an error. -/
theorem onError {failed : ε → σ → Prop} (triple : Triple before action succeeds failed)
    (error : ∀ error state, failed error state → fails error state) :
    Triple before action succeeds fails :=
  triple.conseq (fun _ => id) (fun _ _ => id) error

theorem bind {middle : α → σ → Prop} {next : α → ExceptT ε (StateM σ) β}
    {ends : β → σ → Prop} (first : Triple before action middle fails)
    (rest : ∀ value, Triple (middle value) (next value) ends fails) :
    Triple before (action >>= next) ends fails := by
  intro state holds
  have post := first state holds
  rw [ExceptT.run_bind, StateT.run_bind]
  split at post
  · next value after ran =>
      rw [ran]
      exact rest value after post
  · next error after ran =>
      rw [ran]
      exact post

/-- What is done about an error starts where it left off. -/
theorem tryCatch {caught : ε → σ → Prop} {handler : ε → ExceptT ε (StateM σ) α}
    (body : Triple before action succeeds caught)
    (handles : ∀ error, Triple (caught error) (handler error) succeeds fails) :
    Triple before (MonadExcept.tryCatch action handler) succeeds fails := by
  intro state holds
  have post := body state holds
  rw [ExceptT.run_tryCatch, StateT.run_bind]
  cases ran : action.run.run state with
  | mk result after =>
      rw [ran] at post
      cases result with
      | ok value => exact post
      | error error => exact handles error after post

/-- Errors of another type. -/
theorem adapt {convert : ε → δ} {fails : δ → σ → Prop}
    (triple : Triple before action succeeds fun error => fails (convert error)) :
    Triple before (ExceptT.adapt convert action) succeeds fails := by
  intro state holds
  have post := triple state holds
  rw [ExceptT.run_adapt, StateT.run_map]
  cases ran : action.run.run state with
  | mk result after =>
      rw [ran] at post
      cases result with
      | ok value => exact post
      | error error => exact post

/-- What is known of a value that the action does return. -/
theorem returned {state : σ} {value : α} (triple : Triple before action succeeds fails)
    (holds : before state) (returns : (action.run.run state).1.toOption = some value) :
    ∃ after, action.run.run state = (.ok value, after) ∧ succeeds value after := by
  have post := triple state holds
  cases ran : action.run.run state with
  | mk result after =>
      rw [ran] at post returns
      cases result with
      | error _ => cases returns
      | ok returned =>
          cases returns
          exact ⟨after, rfl, post⟩

/-- The invariant, of the number of tries that are left, holds before each try. -/
theorem retry {transient : ε → Bool} {pause : StateM σ Unit} {invariant : Nat → σ → Prop}
    {failed : Nat → ε → σ → Prop}
    (attempts : ∀ left, Triple (invariant left) action succeeds (failed left))
    (pauses : ∀ left error state, failed (left + 1) error state → transient error = true →
      invariant left (pause.run state).2)
    (last : ∀ error state, failed 0 error state → fails error state)
    (fatal : ∀ left error state, failed (left + 1) error state → transient error = false →
      fails error state) (more : Nat) :
    Triple (invariant more) (Lib.retry action transient pause more) succeeds fails := by
  induction more with
  | zero => exact (attempts 0).onError last
  | succ more ih =>
      apply (attempts (more + 1)).tryCatch
      intro error
      cases passes : transient error with
      | true =>
          rw [if_pos rfl]
          apply bind _ fun _ => ih
          exact lift fun state after => pauses more error state after passes
      | false =>
          rw [if_neg Bool.false_ne_true]
          exact throw fun state after => fatal more error state after passes

end Triple

end Lib
