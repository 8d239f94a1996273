import Mathlib.Data.List.Induction
import Mathlib.Logic.Relation

/-!
# Machines and their runs

A machine consumes one input at a time, may refuse it, and produces a list of
outputs.  A run records every transition it takes, so a property of the whole
history is a property of the recorded list.  Invariants are proved from the
start of a run; history invariants see the transitions taken so far as well.
-/

namespace Lib

universe u v w x

/-- A deterministic machine with inputs `ε` and outputs `ω`. -/
structure Machine (σ : Type u) (ε : Type v) (ω : Type w) where
  step : σ → ε → Option (σ × List ω)

/-- One transition taken by a machine. -/
structure Transition (σ : Type u) (ε : Type v) (ω : Type w) where
  before : σ
  input : ε
  after : σ
  output : List ω

namespace Machine

variable {σ : Type u} {ε : Type v} {ω : Type w} (machine : Machine σ ε ω)

/-- The transition is one of the machine's. -/
def Takes (transition : Transition σ ε ω) : Prop :=
  machine.step transition.before transition.input =
    some (transition.after, transition.output)

/-- A finite run from one state to another, with the transitions it takes. -/
inductive Run : σ → List (Transition σ ε ω) → σ → Prop where
  | nil (state : σ) : Run state [] state
  | cons {transition : Transition σ ε ω} {trace : List (Transition σ ε ω)}
      {final : σ} :
      machine.Takes transition → Run transition.after trace final →
        Run transition.before (transition :: trace) final

namespace Run

variable {machine} {start middle final : σ}
variable {trace first second : List (Transition σ ε ω)}
variable {transition : Transition σ ε ω}

theorem eq_of_nil (run : machine.Run start [] final) : start = final := by
  cases run
  rfl

/-- One more transition. -/
theorem concat (run : machine.Run start trace transition.before)
    (taken : machine.Takes transition) :
    machine.Run start (trace ++ [transition]) transition.after := by
  generalize middleEq : transition.before = middle at run
  induction run with
  | nil state =>
      subst middleEq
      exact .cons taken (.nil _)
  | cons first _ ih => exact .cons first (ih middleEq)

/-- Every split of the recorded list is a split of the run. -/
theorem split (run : machine.Run start (first ++ second) final) :
    ∃ middle, machine.Run start first middle ∧ machine.Run middle second final := by
  induction first generalizing start with
  | nil => exact ⟨start, .nil start, run⟩
  | cons transition first ih =>
      cases run with
      | cons taken rest =>
          rcases ih rest with ⟨middle, left, right⟩
          exact ⟨middle, .cons taken left, right⟩

/-- A transition in the middle of a run is taken from the state its prefix
leads to. -/
theorem split_at (run : machine.Run start (first ++ transition :: second) final) :
    machine.Run start first transition.before ∧ machine.Takes transition ∧
      machine.Run transition.after second final := by
  rcases run.split with ⟨middle, left, right⟩
  cases right with
  | cons taken rest => exact ⟨left, taken, rest⟩

/-- Every transition of a run is taken from a state the run has come to. -/
theorem exists_before (run : machine.Run start trace final) (member : transition ∈ trace) :
    ∃ taken, machine.Run start taken transition.before ∧ machine.Takes transition := by
  rcases List.append_of_mem member with ⟨taken, rest, rfl⟩
  rcases run.split_at with ⟨left, transitionTaken, _⟩
  exact ⟨taken, left, transitionTaken⟩

/-- History invariant rule.  `motive` relates the transitions taken so far to
the state they lead to. -/
theorem history_induction {motive : List (Transition σ ε ω) → σ → Prop}
    (run : machine.Run start trace final) (initial : motive [] start)
    (step : ∀ (taken : List (Transition σ ε ω)) (next : Transition σ ε ω),
      machine.Run start taken next.before → machine.Takes next → next ∈ trace →
      motive taken next.before → motive (taken ++ [next]) next.after) :
    motive trace final := by
  induction trace using List.reverseRecOn generalizing final with
  | nil =>
      cases run
      exact initial
  | append_singleton trace last ih =>
      rcases run.split_at with ⟨left, taken, right⟩
      rw [← right.eq_of_nil]
      apply step trace last left taken (by simp)
      apply ih left
      intro earlier next earlierRun nextTaken member
      exact step earlier next earlierRun nextTaken (List.mem_append_left _ member)

/-- Prefix rule: as the history rule, where a step may look at the rest of the run. -/
theorem prefix_induction {motive : List (Transition σ ε ω) → σ → Prop}
    (run : machine.Run start trace final) (initial : motive [] start)
    (step : ∀ (taken : List (Transition σ ε ω)) (next : Transition σ ε ω)
      (rest : List (Transition σ ε ω)), trace = taken ++ next :: rest →
      machine.Run start taken next.before → machine.Takes next →
      machine.Run next.after rest final →
      motive taken next.before → motive (taken ++ [next]) next.after)
    (split : trace = first ++ second) (reaches : machine.Run start first middle)
    (leaves : machine.Run middle second final) : motive first middle := by
  induction first using List.reverseRecOn generalizing second middle with
  | nil =>
      cases reaches
      exact initial
  | append_singleton first last ih =>
      rcases reaches.split_at with ⟨before, taken, rest⟩
      cases rest.eq_of_nil
      have cut : trace = first ++ last :: second := by
        rw [split, List.append_assoc, List.singleton_append]
      exact step first last second cut before taken leaves
        (ih cut before (.cons taken leaves))

/-- Invariant rule: a predicate that holds at the start and is preserved by
every transition of the run holds at the end. -/
theorem invariant {motive : σ → Prop} (run : machine.Run start trace final)
    (initial : motive start)
    (step : ∀ next ∈ trace, machine.Takes next → motive next.before → motive next.after) :
    motive final :=
  run.history_induction (motive := fun _ state => motive state) initial
    fun _ next _ taken member holds => step next member taken holds

/-- Simulation rule: if every transition of the run is matched by a step of a
relation on abstract states, the run is matched by its steps. -/
theorem simulates {τ : Type x} {step : τ → τ → Prop} {related : σ → τ → Prop} {first : τ}
    (run : machine.Run start trace final) (initial : related start first)
    (matched : ∀ next ∈ trace, machine.Takes next → ∀ before, related next.before before →
      ∃ after, step before after ∧ related next.after after) :
    ∃ last, Relation.ReflTransGen step first last ∧ related final last := by
  apply run.invariant (motive := fun state =>
    ∃ last, Relation.ReflTransGen step first last ∧ related state last)
    ⟨first, .refl, initial⟩
  rintro next member taken ⟨before, steps, holds⟩
  rcases matched next member taken before holds with ⟨after, step, holds⟩
  exact ⟨after, steps.tail step, holds⟩

end Run

/-- Feed a list of inputs to the machine and record the transitions. -/
def transitions (state : σ) : List ε → Option (List (Transition σ ε ω))
  | [] => some []
  | input :: inputs =>
      match machine.step state input with
      | none => none
      | some (after, output) =>
          (transitions after inputs).map
            ({ before := state, input, after, output } :: ·)

/-- The state a recorded list of transitions ends in. -/
def finalState (start : σ) (trace : List (Transition σ ε ω)) : σ :=
  trace.foldl (fun _ transition => transition.after) start

/-- Recorded transitions are a run. -/
theorem run_of_transitions {start : σ} {inputs : List ε}
    {trace : List (Transition σ ε ω)}
    (recorded : machine.transitions start inputs = some trace) :
    machine.Run start trace (finalState start trace) := by
  induction inputs generalizing start trace with
  | nil =>
      cases recorded
      exact .nil start
  | cons input inputs ih =>
      simp only [transitions] at recorded
      cases taken : machine.step start input with
      | none => simp [taken] at recorded
      | some result =>
          simp only [taken, Option.map_eq_some_iff] at recorded
          rcases recorded with ⟨rest, recordedRest, rfl⟩
          have first : machine.Takes ⟨start, input, result.1, result.2⟩ := taken
          exact .cons first (ih recordedRest)

/-- The transitions on a list of inputs the machine does not refuse. -/
def record (start : σ) (inputs : List ε) : List (Transition σ ε ω) :=
  (machine.transitions start inputs).getD []

theorem run_record {start : σ} {inputs : List ε}
    (accepted : (machine.transitions start inputs).isSome = true) :
    machine.Run start (machine.record start inputs)
      (finalState start (machine.record start inputs)) := by
  apply machine.run_of_transitions
  rw [record, Option.getD_of_ne_none (Option.isSome_iff_ne_none.mp accepted)]

theorem map_input_of_transitions {start : σ} {inputs : List ε}
    {trace : List (Transition σ ε ω)}
    (recorded : machine.transitions start inputs = some trace) :
    trace.map (·.input) = inputs := by
  induction inputs generalizing start trace with
  | nil =>
      cases recorded
      rfl
  | cons input inputs ih =>
      simp only [transitions] at recorded
      cases taken : machine.step start input with
      | none => simp [taken] at recorded
      | some result =>
          simp only [taken, Option.map_eq_some_iff] at recorded
          rcases recorded with ⟨rest, recordedRest, rfl⟩
          rw [List.map_cons, ih recordedRest]

theorem map_input_record {start : σ} {inputs : List ε}
    (accepted : (machine.transitions start inputs).isSome = true) :
    (machine.record start inputs).map (·.input) = inputs := by
  apply machine.map_input_of_transitions
  rw [record, Option.getD_of_ne_none (Option.isSome_iff_ne_none.mp accepted)]

end Machine

end Lib
