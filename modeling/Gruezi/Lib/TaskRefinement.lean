import Gruezi.Lib.Refinement
import Gruezi.Lib.Spawning

/-!
# Refinement of tasks

Two systems with one main machine, whose tasks do not do the same.  If every task of the
one is seen as a task of the other, which takes its steps but for some that it does not
see, then the one system refines the other.
-/

namespace Lib

universe u v w x y z

variable {σ : Type u} {ε : Type v} {ω : Type w} {τ : Type x} {ι : Type y} {υ : Type z}
variable {κ : Type x} {χ : Type z}

/-- How the tasks of `concrete` are seen as tasks of `abstract`. -/
structure TaskView (concrete : Spawner σ ε ω τ ι υ) (abstract : Spawner σ ε ω κ ι χ) where
  seen : τ → κ
  /-- This step of a task is not seen. -/
  hidden : τ → ι → Bool
  visible : υ → Option χ
  main_eq : abstract.main = concrete.main
  starts : ∀ output, abstract.starts output = (concrete.starts output).map seen
  ready : ∀ tasks input, abstract.ready (tasks.map seen) input = concrete.ready tasks input
  hides : ∀ part, concrete.task.Takes part → hidden part.before part.input = true →
    seen part.after = seen part.before ∧ part.output.filterMap visible = []
  follows : ∀ part, concrete.task.Takes part → hidden part.before part.input = false →
    abstract.task.step (seen part.before) part.input =
      some (seen part.after, part.output.filterMap visible)

namespace TaskView

variable {concrete : Spawner σ ε ω τ ι υ} {abstract : Spawner σ ε ω κ ι χ}
variable (view : TaskView concrete abstract)

/-- The whole system as it is seen. -/
def state (system : Spawning σ τ) : Spawning σ κ where
  main := system.main
  tasks := system.tasks.map view.seen

def Sees (system : Spawning σ τ) (other : Spawning σ κ) : Prop :=
  view.state system = other

/-- All but the hidden steps. -/
def observer : Observer (Spawning σ τ) (SpawningInput ε ι) (SpawningOutput ω υ)
    (SpawningInput ε ι) (SpawningOutput ω χ) where
  view next :=
    match next.input with
    | .main input => some (.main input)
    | .task index input =>
        if next.before.tasks[index]?.any (view.hidden · input) then none
        else some (.task index input)
  visible
    | .main output => some (.main output)
    | .task index output => (view.visible output).map (.task index)

variable {view}
variable {next : Transition (Spawning σ τ) (SpawningInput ε ι) (SpawningOutput ω υ)}

theorem outputs_main (outputs : List ω) :
    view.observer.outputs (outputs.map .main) = outputs.map .main := by
  rw [Observer.outputs, List.filterMap_map]
  exact List.filterMap_eq_map ▸ rfl

theorem outputs_task (index : Nat) (outputs : List υ) :
    view.observer.outputs (outputs.map (.task index)) =
      (outputs.filterMap view.visible).map (.task index) := by
  rw [Observer.outputs, List.filterMap_map, List.map_filterMap]
  rfl

theorem step_main {part : Transition σ ε ω}
    (ready : concrete.ready next.before.tasks part.input = true)
    (taken : concrete.main.Takes part) (before : part.before = next.before.main)
    (after : next.after = {
      main := part.after
      tasks := next.before.tasks ++ part.output.filterMap concrete.starts }) :
    abstract.step (view.state next.before) (.main part.input) =
      some (view.state next.after, part.output.map .main) := by
  have started : part.output.filterMap abstract.starts =
      (part.output.filterMap concrete.starts).map view.seen := by
    rw [List.map_filterMap]
    exact congrArg part.output.filterMap (funext view.starts)
  have stepped : abstract.main.step next.before.main part.input =
      some (part.after, part.output) := by
    rw [view.main_eq, ← before]
    exact taken
  have stateAfter : view.state next.after = {
      main := part.after
      tasks := next.before.tasks.map view.seen ++ part.output.filterMap abstract.starts } := by
    rw [state, after, List.map_append, started]
  rw [Spawner.step, state, view.ready, if_pos ready, stepped, stateAfter]
  rfl

theorem step_task {index : Nat} {part : Transition τ ι υ}
    (found : next.before.tasks[index]? = some part.before)
    (taken : concrete.task.Takes part)
    (after : next.after = { next.before with tasks := next.before.tasks.set index part.after })
    (isSeen : view.hidden part.before part.input = false) :
    abstract.step (view.state next.before) (.task index part.input) =
      some (view.state next.after, (part.output.filterMap view.visible).map (.task index)) := by
  have stateAfter : view.state next.after = {
      main := next.before.main
      tasks := (next.before.tasks.map view.seen).set index (view.seen part.after) } := by
    rw [state, after, ← List.map_set]
  rw [Spawner.step, state, List.getElem?_map, found, Option.map_some, Option.bind_some,
    view.follows part taken isSeen, stateAfter]
  rfl

theorem matches_of_takes (taken : concrete.machine.Takes next) {before : Spawning σ κ}
    (related : view.Sees next.before before) :
    view.observer.Matches abstract.machine view.Sees next before := by
  rw [Observer.Matches]
  cases Spawner.moves_of_takes taken with
  | main part input ready partTaken partBefore after output =>
      have seen : view.observer.view next = some (.main part.input) := by
        simp only [observer, input]
      rw [seen, output, outputs_main, ← related]
      exact ⟨_, step_main ready partTaken partBefore after, rfl⟩
  | task index part input found partTaken after output =>
      have seen : view.observer.view next =
          if view.hidden part.before part.input then none
          else some (.task index part.input) := by
        simp only [observer, input, found, Option.any_some]
      rw [seen, output, outputs_task, ← related]
      cases isHidden : view.hidden part.before part.input with
      | true =>
          rcases view.hides part partTaken isHidden with ⟨same, silent⟩
          rcases List.getElem?_eq_some_iff.mp found with ⟨inRange, isTask⟩
          have unchanged : (next.before.tasks.set index part.after).map view.seen =
              next.before.tasks.map view.seen := by
            rw [List.map_set, same, ← List.map_set, ← isTask, List.set_getElem_self]
          constructor
          · rw [silent]
            rfl
          · rw [Sees, state, after, unchanged]
            rfl
      | false =>
          exact ⟨_, step_task found partTaken after isHidden, rfl⟩

/-- Refinement rule for systems with tasks. -/
theorem refines_of_run {first : σ}
    {trace : List (Transition (Spawning σ τ) (SpawningInput ε ι) (SpawningOutput ω υ))}
    {final : Spawning σ τ} (view : TaskView concrete abstract)
    (run : concrete.machine.Run (Spawner.start first) trace final) :
    ∃ followed, view.observer.Refines abstract.machine trace (Spawner.start first)
      (view.state final) followed := by
  have initial : view.Sees (Spawner.start first) (Spawner.start first) := rfl
  rcases Observer.refines_of_run run initial fun _ _ taken _ => matches_of_takes taken with
    ⟨followed, last, refines, rfl⟩
  exact ⟨followed, refines⟩

end TaskView

end Lib
