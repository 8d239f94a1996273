import Gruezi.Lib.Retry

/-!
# Logs

What a fallible action on a state adds to a log that is part of this state, together with
the result it returns.  A specification is a relation between the two.  Nothing is asked of
the state, so a specification tells apart what an action does from what it only returns.
The log itself can be left out again: an action with a log is related to the one without.
-/

namespace Lib

variable {σ ω ε δ α β : Type}

/-- The action only adds to the log, and what it adds meets the specification with what it
returns. -/
def Logs (log : σ → List ω) (spec : List ω → Except ε α → Prop)
    (action : ExceptT ε (StateM σ) α) : Prop :=
  ∀ state, ∃ made, log (action.run.run state).2 = log state ++ made ∧
    spec made (action.run.run state).1

/-- The tries of a loop that tries again after some errors, each but the last with a pause
behind it. -/
inductive Retries (attempt : List ω → Except ε α → Prop) (transient : ε → Prop)
    (pause : List ω) : (more : Nat) → List ω → Except ε α → Prop where
  | ok {more : Nat} {made : List ω} {value : α} (last : attempt made (.ok value)) :
      Retries attempt transient pause more made (.ok value)
  | fatal {more : Nat} {made : List ω} {error : ε} (last : attempt made (.error error))
      (stays : ¬transient error) :
      Retries attempt transient pause more made (.error error)
  | exhausted {made : List ω} {error : ε} (last : attempt made (.error error)) :
      Retries attempt transient pause 0 made (.error error)
  | again {more : Nat} {made rest : List ω} {error : ε} {result : Except ε α}
      (first : attempt made (.error error)) (passes : transient error)
      (others : Retries attempt transient pause more rest result) :
      Retries attempt transient pause (more + 1) (made ++ pause ++ rest) result

/-- What meets a specification, with another value. -/
inductive Mapped (map : α → β) (spec : List ω → Except ε α → Prop) :
    List ω → Except ε β → Prop where
  | ok {made : List ω} {value : α} (holds : spec made (.ok value)) :
      Mapped map spec made (.ok (map value))
  | error {made : List ω} {error : ε} (holds : spec made (.error error)) :
      Mapped map spec made (.error error)

namespace Logs

variable {log : σ → List ω} {action : ExceptT ε (StateM σ) α}
variable {spec : List ω → Except ε α → Prop}

theorem pure {value : α} (holds : spec [] (.ok value)) : Logs log spec (Pure.pure value) :=
  fun _ => ⟨[], (List.append_nil _).symm, holds⟩

theorem throw {error : ε} (holds : spec [] (.error error)) :
    Logs log spec (MonadExcept.throw error) :=
  fun _ => ⟨[], (List.append_nil _).symm, holds⟩

theorem lift {action : StateM σ α} {made : List ω}
    (adds : ∀ state, log (action.run state).2 = log state ++ made)
    (holds : ∀ value, spec made (.ok value)) : Logs log spec (ExceptT.lift action) :=
  fun state => ⟨made, adds state, holds _⟩

theorem mono {stronger : List ω → Except ε α → Prop} (logs : Logs log stronger action)
    (implies : ∀ made result, stronger made result → spec made result) :
    Logs log spec action := by
  intro state
  rcases logs state with ⟨made, adds, holds⟩
  exact ⟨made, adds, implies _ _ holds⟩

/-- What comes after a value goes on from what has been made so far. -/
theorem bind {first : List ω → Except ε α → Prop} {next : α → ExceptT ε (StateM σ) β}
    {both : List ω → Except ε β → Prop} (logs : Logs log first action)
    (error : ∀ made error, first made (.error error) → both made (.error error))
    (rest : ∀ made value, first made (.ok value) →
      Logs log (fun more => both (made ++ more)) (next value)) :
    Logs log both (action >>= next) := by
  intro state
  rcases logs state with ⟨made, adds, holds⟩
  rw [ExceptT.run_bind, StateT.run_bind]
  cases ran : action.run.run state with
  | mk result after =>
      rw [ran] at adds holds
      cases result with
      | error failed => exact ⟨made, adds, error made failed holds⟩
      | ok value =>
          rcases rest made value holds after with ⟨more, addsMore, holdsMore⟩
          refine ⟨made ++ more, ?_, holdsMore⟩
          exact addsMore.trans ((congrArg (· ++ more) adds).trans (List.append_assoc _ _ _))

theorem map {map : α → β} (logs : Logs log spec action) :
    Logs log (Mapped map spec) (do
      let value ← action
      return map value) := by
  apply logs.bind
  · exact fun made error failed => .error failed
  · intro made value holds
    apply Logs.pure
    rw [List.append_nil]
    exact .ok holds

theorem tryCatch {body : List ω → Except ε α → Prop} {handler : ε → ExceptT ε (StateM σ) α}
    (logs : Logs log body action)
    (ok : ∀ made value, body made (.ok value) → spec made (.ok value))
    (handles : ∀ made error, body made (.error error) →
      Logs log (fun more => spec (made ++ more)) (handler error)) :
    Logs log spec (MonadExcept.tryCatch action handler) := by
  intro state
  rcases logs state with ⟨made, adds, holds⟩
  rw [ExceptT.run_tryCatch, StateT.run_bind]
  cases ran : action.run.run state with
  | mk result after =>
      rw [ran] at adds holds
      cases result with
      | ok value => exact ⟨made, adds, ok made value holds⟩
      | error failed =>
          rcases handles made failed holds after with ⟨more, addsMore, holdsMore⟩
          refine ⟨made ++ more, ?_, holdsMore⟩
          exact addsMore.trans ((congrArg (· ++ more) adds).trans (List.append_assoc _ _ _))

/-- Errors of another type. -/
theorem adapt {convert : ε → δ} {spec : List ω → Except δ α → Prop}
    (logs : Logs log (fun made result => spec made (result.mapError convert)) action) :
    Logs log spec (ExceptT.adapt convert action) := by
  intro state
  rcases logs state with ⟨made, adds, holds⟩
  exact ⟨made, adds, holds⟩

theorem retry {transient : ε → Bool} {again : ε → Prop} {pause : StateM σ Unit}
    {paused : List ω} (attempt : Logs log spec action)
    (pauses : ∀ state, log (pause.run state).2 = log state ++ paused)
    (agree : ∀ made error, spec made (.error error) → (transient error = true ↔ again error))
    (more : Nat) :
    Logs log (Retries spec again paused more) (Lib.retry action transient pause more) := by
  induction more with
  | zero =>
      apply attempt.mono
      intro made result holds
      cases result with
      | ok value => exact .ok holds
      | error error => exact .exhausted holds
  | succ more ih =>
      apply attempt.tryCatch
      · exact fun made value holds => .ok holds
      · intro made error failed
        split
        · next passes =>
            have waits : Logs log (fun made result => made = paused ∧ result = .ok ())
                (ExceptT.lift pause : ExceptT ε (StateM σ) Unit) :=
              .lift pauses fun _ => ⟨rfl, rfl⟩
            apply waits.bind
            · rintro others error ⟨_, isOk⟩
              cases isOk
            · rintro others value ⟨rfl, _⟩
              apply ih.mono
              intro rest result tried
              rw [← List.append_assoc]
              exact .again failed ((agree made error failed).mp passes) tried
        · next stays =>
            apply Logs.throw
            rw [List.append_nil]
            exact .fatal failed fun passes => stays ((agree made error failed).mpr passes)

/-- From an empty log, what is known of the end of an action and of its log. -/
theorem triple {before : σ → Prop} {succeeds : α → σ → Prop} {fails : ε → σ → Prop}
    (logs : Logs log spec action) (ends : Triple before action succeeds fails) :
    Triple (fun state => log state = [] ∧ before state) action
      (fun value after => spec (log after) (.ok value) ∧ succeeds value after)
      (fun error after => spec (log after) (.error error) ∧ fails error after) := by
  rintro state ⟨empty, holds⟩
  have post := ends state holds
  rcases logs state with ⟨made, adds, meets⟩
  rw [empty, List.nil_append] at adds
  rw [← adds] at meets
  cases ran : action.run.run state with
  | mk result after =>
      rw [ran] at post meets
      cases result with
      | ok value => exact ⟨meets, post⟩
      | error error => exact ⟨meets, post⟩

end Logs

/-! ## Without the log -/

/-- The two actions differ in the log only. -/
def Erases (logged : ExceptT ε (StateM (σ × List ω)) α) (plain : ExceptT ε (StateM σ) α) :
    Prop :=
  ∀ state log, plain.run.run state =
    ((logged.run.run (state, log)).1, (logged.run.run (state, log)).2.1)

namespace Erases

variable {logged : ExceptT ε (StateM (σ × List ω)) α} {plain : ExceptT ε (StateM σ) α}

theorem pure (value : α) :
    Erases (Pure.pure value : ExceptT ε (StateM (σ × List ω)) α) (Pure.pure value) :=
  fun _ _ => rfl

theorem throw (error : ε) :
    Erases (MonadExcept.throw error : ExceptT ε (StateM (σ × List ω)) α)
      (MonadExcept.throw error) :=
  fun _ _ => rfl

theorem bind {loggedNext : α → ExceptT ε (StateM (σ × List ω)) β}
    {plainNext : α → ExceptT ε (StateM σ) β} (same : Erases logged plain)
    (rest : ∀ value, Erases (loggedNext value) (plainNext value)) :
    Erases (logged >>= loggedNext) (plain >>= plainNext) := by
  intro state log
  have first := same state log
  rw [ExceptT.run_bind, ExceptT.run_bind, StateT.run_bind, StateT.run_bind]
  cases ran : logged.run.run (state, log) with
  | mk result after =>
      rw [ran] at first
      rw [first]
      cases result with
      | ok value => exact rest value after.1 after.2
      | error error => rfl

theorem tryCatch {loggedHandler : ε → ExceptT ε (StateM (σ × List ω)) α}
    {plainHandler : ε → ExceptT ε (StateM σ) α} (same : Erases logged plain)
    (handles : ∀ error, Erases (loggedHandler error) (plainHandler error)) :
    Erases (MonadExcept.tryCatch logged loggedHandler)
      (MonadExcept.tryCatch plain plainHandler) := by
  intro state log
  have body := same state log
  rw [ExceptT.run_tryCatch, ExceptT.run_tryCatch, StateT.run_bind, StateT.run_bind]
  cases ran : logged.run.run (state, log) with
  | mk result after =>
      rw [ran] at body
      rw [body]
      cases result with
      | ok value => rfl
      | error error => exact handles error after.1 after.2

theorem adapt {convert : ε → δ} (same : Erases logged plain) :
    Erases (ExceptT.adapt convert logged) (ExceptT.adapt convert plain) := by
  intro state log
  rw [ExceptT.run_adapt, ExceptT.run_adapt, StateT.run_map, StateT.run_map, same state log]
  rfl

theorem retry {transient : ε → Bool} {loggedPause : StateM (σ × List ω) Unit}
    {plainPause : StateM σ Unit} (same : Erases logged plain)
    (pauses : Erases (ExceptT.lift loggedPause : ExceptT ε (StateM (σ × List ω)) Unit)
      (ExceptT.lift plainPause))
    (more : Nat) :
    Erases (Lib.retry logged transient loggedPause more)
      (Lib.retry plain transient plainPause more) := by
  induction more with
  | zero => exact same
  | succ more ih =>
      apply same.tryCatch
      intro error
      cases transient error with
      | true => exact pauses.bind fun _ => ih
      | false => exact .throw error

end Erases

end Lib
