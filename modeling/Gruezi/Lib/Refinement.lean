import Gruezi.Lib.Machine

/-!
# Refinement between machines

An observer sees some of the transitions of a machine, each as the input of an
abstract machine, and some of the outputs.  If every transition is matched by the
abstract machine, so is every run: what the observer sees is a run of the abstract
machine.  Machines are deterministic, so two runs that refine one abstract machine
and give the observer the same inputs give it the same outputs.
-/

namespace Lib

universe u v w x y z

/-- What of a machine's runs can be observed, as inputs `υ` and outputs `χ`. -/
structure Observer (σ : Type u) (ε : Type v) (ω : Type w) (υ : Type x) (χ : Type y) where
  view : Transition σ ε ω → Option υ
  visible : ω → Option χ

namespace Observer

variable {σ : Type u} {ε : Type v} {ω : Type w} {υ : Type x} {χ : Type y} {τ : Type z}
variable (observer : Observer σ ε ω υ χ) (abstract : Machine τ υ χ)

def inputs (trace : List (Transition σ ε ω)) : List υ :=
  trace.filterMap observer.view

def outputs (effects : List ω) : List χ :=
  effects.filterMap observer.visible

/-- The abstract machine can follow a transition from `before`: by one step of its
own if the observer sees it as an input, and without one otherwise. -/
def Matches (related : σ → τ → Prop) (next : Transition σ ε ω) (before : τ) : Prop :=
  match observer.view next with
  | none => observer.outputs next.output = [] ∧ related next.after before
  | some input => ∃ after,
      abstract.step before input = some (after, observer.outputs next.output) ∧
        related next.after after

/-- What is observed of a run, as a run of the abstract machine. -/
structure Refines (trace : List (Transition σ ε ω)) (first last : τ)
    (followed : List (Transition τ υ χ)) : Prop where
  run : abstract.Run first followed last
  inputs : followed.map (·.input) = observer.inputs trace
  outputs : followed.flatMap (·.output) =
    observer.outputs (trace.flatMap (·.output))

variable {observer abstract}

theorem inputs_append_singleton (taken : List (Transition σ ε ω))
    (next : Transition σ ε ω) :
    observer.inputs (taken ++ [next]) =
      observer.inputs taken ++ (observer.view next).toList := by
  simp only [inputs, List.filterMap_append, List.filterMap_cons, List.filterMap_nil]
  cases observer.view next <;> rfl

theorem outputs_append_singleton (taken : List (Transition σ ε ω))
    (next : Transition σ ε ω) :
    observer.outputs ((taken ++ [next]).flatMap (·.output)) =
      observer.outputs (taken.flatMap (·.output)) ++ observer.outputs next.output := by
  simp only [outputs, List.flatMap_append, List.flatMap_cons, List.flatMap_nil,
    List.append_nil, List.filterMap_append]

/-- Refinement rule. -/
theorem refines_of_run {machine : Machine σ ε ω} {related : σ → τ → Prop} {first : τ}
    {start final : σ} {trace : List (Transition σ ε ω)}
    (run : machine.Run start trace final) (initial : related start first)
    (matched : ∀ next ∈ trace, machine.Takes next → ∀ before,
      related next.before before → observer.Matches abstract related next before) :
    ∃ followed last, observer.Refines abstract trace first last followed ∧
      related final last := by
  apply run.history_induction (motive := fun taken state => ∃ followed last,
    observer.Refines abstract taken first last followed ∧ related state last)
  · exact ⟨[], first, ⟨.nil first, rfl, rfl⟩, initial⟩
  · rintro taken next - nextTaken member ⟨followed, before, refines, holds⟩
    have follows := matched next member nextTaken before holds
    rw [Matches] at follows
    cases seen : observer.view next with
    | none =>
        rw [seen] at follows
        refine ⟨followed, before, ⟨refines.run, ?_, ?_⟩, follows.2⟩
        · rw [inputs_append_singleton, seen, refines.inputs]
          exact (List.append_nil _).symm
        · rw [outputs_append_singleton, follows.1, refines.outputs, List.append_nil]
    | some input =>
        rw [seen] at follows
        rcases follows with ⟨after, stepped, afterRelated⟩
        have step : abstract.Takes ⟨before, input, after, observer.outputs next.output⟩ :=
          stepped
        refine ⟨followed ++ [⟨before, input, after, observer.outputs next.output⟩], after,
          ⟨refines.run.concat step, ?_, ?_⟩, afterRelated⟩
        · rw [inputs_append_singleton, seen, List.map_append, refines.inputs]
          rfl
        · rw [outputs_append_singleton, List.flatMap_append, refines.outputs,
            List.flatMap_singleton]

end Observer

/-! ## Parts -/

/-- A machine inside another, and what of a transition is its own. -/
structure Part (σ : Type u) (ε : Type v) (ω : Type w) (τ : Type z) (υ : Type x) (χ : Type y)
    where
  state : σ → τ
  own : Transition σ ε ω → Option (Transition τ υ χ)

namespace Part

variable {σ : Type u} {ε : Type v} {ω : Type w} {υ : Type x} {χ : Type y} {τ : Type z}
variable {part : Part σ ε ω τ υ χ} {inner : Machine τ υ χ} {machine : Machine σ ε ω}

/-- The transition is one of the inner machine, or leaves it as it is. -/
def Moves (part : Part σ ε ω τ υ χ) (inner : Machine τ υ χ) (next : Transition σ ε ω) : Prop :=
  match part.own next with
  | none => part.state next.after = part.state next.before
  | some moved => inner.Takes moved ∧ moved.before = part.state next.before ∧
      moved.after = part.state next.after

/-- The inner machine's part of a run is a run. -/
theorem run_of_run {start final : σ} {trace : List (Transition σ ε ω)}
    (run : machine.Run start trace final)
    (moves : ∀ next, machine.Takes next → part.Moves inner next) :
    inner.Run (part.state start) (trace.filterMap part.own) (part.state final) := by
  apply run.history_induction (motive := fun taken state =>
    inner.Run (part.state start) (taken.filterMap part.own) (part.state state))
  · exact .nil _
  · intro taken next _ nextTaken _ ran
    have moved := moves next nextTaken
    rw [Moves] at moved
    rw [List.filterMap_append]
    cases own : part.own next with
    | none =>
        rw [own] at moved
        rw [List.filterMap_cons_none own, List.filterMap_nil, List.append_nil, moved]
        exact ran
    | some inside =>
        rw [own] at moved
        rcases moved with ⟨innerTaken, before, after⟩
        rw [List.filterMap_cons_some own, List.filterMap_nil, ← after]
        rw [← before] at ran
        exact ran.concat innerTaken

end Part

namespace Machine.Run

variable {σ : Type u} {ε : Type v} {ω : Type w} {machine : Machine σ ε ω}
variable {start left right : σ} {first second : List (Transition σ ε ω)}

/-- From one state the inputs decide the run. -/
theorem eq_of_inputs (firstRun : machine.Run start first left)
    (secondRun : machine.Run start second right)
    (same : first.map (·.input) = second.map (·.input)) :
    first = second ∧ left = right := by
  induction firstRun generalizing second with
  | nil state =>
      cases List.map_eq_nil_iff.mp same.symm
      exact ⟨rfl, secondRun.eq_of_nil⟩
  | @cons transition rest final taken _ ih =>
      rcases transition with ⟨before, input, after, output⟩
      generalize origin : before = startOfSecond at secondRun
      cases secondRun with
      | nil => cases same
      | @cons other others _ otherTaken otherRun =>
          rcases other with ⟨otherBefore, otherInput, otherAfter, otherOutput⟩
          cases origin
          rw [List.map_cons, List.map_cons] at same
          rcases List.cons_eq_cons.mp same with ⟨inputEq, restEq⟩
          cases inputEq
          cases taken.symm.trans otherTaken
          rcases ih otherRun restEq with ⟨rfl, rfl⟩
          exact ⟨rfl, rfl⟩

end Machine.Run

/-- Two observed runs that refine the same run of an abstract machine. -/
theorem Observer.Refines.outputs_eq
    {σ : Type u} {ε : Type v} {ω : Type w} {υ : Type x} {χ : Type y} {τ : Type z}
    {abstract : Machine τ υ χ} {observer other : Observer σ ε ω υ χ}
    {trace otherTrace : List (Transition σ ε ω)} {first last otherLast : τ}
    {followed otherFollowed : List (Transition τ υ χ)}
    (refines : observer.Refines abstract trace first last followed)
    (otherRefines : other.Refines abstract otherTrace first otherLast otherFollowed)
    (same : observer.inputs trace = other.inputs otherTrace) :
    observer.outputs (trace.flatMap (·.output)) =
        other.outputs (otherTrace.flatMap (·.output)) ∧ last = otherLast := by
  rw [← refines.inputs, ← otherRefines.inputs] at same
  rcases refines.run.eq_of_inputs otherRefines.run same with ⟨rfl, rfl⟩
  exact ⟨refines.outputs.symm.trans otherRefines.outputs, rfl⟩

end Lib
