import Gruezi.Lib.Machine

/-!
# A machine that starts tasks

A main machine whose outputs start tasks, each a machine of its own.  The tasks
run in any interleaving with the main machine, which can wait for them.  The part
of a run that belongs to the main machine, or to one task, is a run of that
machine.
-/

namespace Lib

universe u v w x y z

structure Spawning (σ : Type u) (τ : Type x) where
  main : σ
  tasks : List τ

inductive SpawningInput (ε : Type v) (ι : Type y) where
  | main (input : ε)
  | task (index : Nat) (input : ι)

inductive SpawningOutput (ω : Type w) (υ : Type z) where
  | main (output : ω)
  | task (index : Nat) (output : υ)
  deriving DecidableEq

structure Spawner (σ : Type u) (ε : Type v) (ω : Type w) (τ : Type x) (ι : Type y)
    (υ : Type z) where
  main : Machine σ ε ω
  task : Machine τ ι υ
  /-- The task that an output of the main machine starts. -/
  starts : ω → Option τ
  /-- The main machine does not wait for a task. -/
  ready : List τ → ε → Bool

variable {σ : Type u} {ε : Type v} {ω : Type w} {τ : Type x} {ι : Type y} {υ : Type z}

namespace Spawner

variable (spawner : Spawner σ ε ω τ ι υ)

def step (state : Spawning σ τ) :
    SpawningInput ε ι → Option (Spawning σ τ × List (SpawningOutput ω υ))
  | .main input =>
      if spawner.ready state.tasks input then
        (spawner.main.step state.main input).map fun (main, outputs) =>
          ({ main, tasks := state.tasks ++ outputs.filterMap spawner.starts },
            outputs.map .main)
      else none
  | .task index input =>
      state.tasks[index]?.bind fun task =>
        (spawner.task.step task input).map fun (after, outputs) =>
          ({ state with tasks := state.tasks.set index after }, outputs.map (.task index))

def machine : Machine (Spawning σ τ) (SpawningInput ε ι) (SpawningOutput ω υ) where
  step := spawner.step

/-- The main machine before it has started a task. -/
def start (main : σ) : Spawning σ τ where
  main
  tasks := []

/-- A transition is one of the main machine, or one of a task. -/
inductive Moves (next : Transition (Spawning σ τ) (SpawningInput ε ι) (SpawningOutput ω υ)) :
    Prop where
  | main (part : Transition σ ε ω) :
      next.input = .main part.input →
      spawner.ready next.before.tasks part.input = true →
      spawner.main.Takes part →
      part.before = next.before.main →
      next.after = {
        main := part.after
        tasks := next.before.tasks ++ part.output.filterMap spawner.starts } →
      next.output = part.output.map .main →
      Moves next
  | task (index : Nat) (part : Transition τ ι υ) :
      next.input = .task index part.input →
      next.before.tasks[index]? = some part.before →
      spawner.task.Takes part →
      next.after = { next.before with
        tasks := next.before.tasks.set index part.after } →
      next.output = part.output.map (.task index) →
      Moves next

variable {spawner}
variable {next : Transition (Spawning σ τ) (SpawningInput ε ι) (SpawningOutput ω υ)}

theorem moves_of_takes (taken : spawner.machine.Takes next) : spawner.Moves next := by
  simp only [Machine.Takes, machine] at taken
  cases input : next.input with
  | main mainInput =>
      simp only [input, step] at taken
      split at taken
      · next ready =>
          rcases Option.map_eq_some_iff.mp taken with ⟨⟨after, output⟩, stepped, equal⟩
          cases (Prod.mk.injEq ..).mp equal with
          | intro afterEq outputEq =>
              exact .main ⟨next.before.main, mainInput, after, output⟩ input ready stepped
                rfl afterEq.symm outputEq.symm
      · cases taken
  | task index taskInput =>
      simp only [input, step] at taken
      rcases Option.bind_eq_some_iff.mp taken with ⟨task, found, stepped⟩
      rcases Option.map_eq_some_iff.mp stepped with ⟨⟨after, output⟩, stepped, equal⟩
      cases (Prod.mk.injEq ..).mp equal with
      | intro afterEq outputEq =>
          exact .task index ⟨task, taskInput, after, output⟩ input found stepped
            afterEq.symm outputEq.symm

/-! ## The parts of a run -/

/-- The transition of the main machine in a transition of all. -/
def mainPart (next : Transition (Spawning σ τ) (SpawningInput ε ι) (SpawningOutput ω υ)) :
    Option (Transition σ ε ω) :=
  match next.input with
  | .main input => some {
      before := next.before.main
      input
      after := next.after.main
      output := next.output.filterMap fun
        | .main output => some output
        | .task _ _ => none }
  | .task _ _ => none

/-- The transition of a task in a transition of all. -/
def taskPart (index : Nat)
    (next : Transition (Spawning σ τ) (SpawningInput ε ι) (SpawningOutput ω υ)) :
    Option (Transition τ ι υ) :=
  match next.input, next.before.tasks[index]?, next.after.tasks[index]? with
  | .task acting input, some before, some after =>
      if acting = index then
        some {
          before
          input
          after
          output := next.output.filterMap fun
            | .main _ => none
            | .task _ output => some output }
      else none
  | .main _, _, _ | .task _ _, none, _ | .task _ _, some _, none => none

theorem mainPart_of_main {part : Transition σ ε ω} (input : next.input = .main part.input)
    (before : part.before = next.before.main) (after : next.after.main = part.after)
    (output : next.output = part.output.map .main) : mainPart next = some part := by
  simp only [mainPart, input, output, List.filterMap_map, ← before, after]
  exact congrArg (fun output => some { part with output }) List.filterMap_some

theorem mainPart_of_task {index : Nat} {taskInput : ι}
    (input : next.input = .task index taskInput) : mainPart next = none := by
  rw [mainPart, input]

theorem taskPart_of_main {index : Nat} {mainInput : ε}
    (input : next.input = .main mainInput) : taskPart index next = none := by
  rw [taskPart, input]

theorem taskPart_of_other {index acting : Nat} {taskInput : ι}
    (input : next.input = .task acting taskInput) (other : acting ≠ index) :
    taskPart index next = none := by
  rw [taskPart, input]
  split
  · next acting' input' before after equal _ _ =>
      cases equal
      exact if_neg other
  · rfl
  · rfl
  · rfl

theorem taskPart_of_task {index : Nat} {part : Transition τ ι υ}
    (input : next.input = .task index part.input)
    (found : next.before.tasks[index]? = some part.before)
    (after : next.after = { next.before with
      tasks := next.before.tasks.set index part.after })
    (output : next.output = part.output.map (.task index)) :
    taskPart index next = some part := by
  have bound : index < next.before.tasks.length := (List.getElem?_eq_some_iff.mp found).1
  have foundAfter : next.after.tasks[index]? = some part.after := by
    rw [after, List.getElem?_set_self bound]
  simp only [taskPart, input, found, foundAfter, if_true, output, List.filterMap_map]
  exact congrArg (fun output => some { part with output }) List.filterMap_some

theorem output_of_mainPart (taken : spawner.machine.Takes next) {part : Transition σ ε ω}
    (isMain : mainPart next = some part) : next.output = part.output.map .main := by
  cases moves_of_takes taken with
  | main own input _ _ before after output =>
      cases isMain.symm.trans
        (mainPart_of_main input before (congrArg Spawning.main after) output)
      exact output
  | task index own input => cases isMain.symm.trans (mainPart_of_task input)

theorem output_of_taskPart (taken : spawner.machine.Takes next) {index : Nat}
    {part : Transition τ ι υ} (own : taskPart index next = some part) :
    next.output = part.output.map (.task index) := by
  cases moves_of_takes taken with
  | main other input => cases own.symm.trans (taskPart_of_main input)
  | task acting other input found _ after output =>
      by_cases same : acting = index
      · subst same
        cases own.symm.trans (taskPart_of_task input found after output)
        exact output
      · cases own.symm.trans (taskPart_of_other input same)

/-- An output of the main machine is one of a transition it takes. -/
theorem exists_mainPart (taken : spawner.machine.Takes next) {output : ω}
    (member : .main output ∈ next.output) :
    ∃ part : Transition σ ε ω, output ∈ part.output ∧ spawner.main.Takes part ∧
      part.before = next.before.main := by
  cases moves_of_takes taken with
  | main part _ _ partTaken before _ outputEq =>
      rw [outputEq] at member
      rcases List.mem_map.mp member with ⟨_, inPart, equal⟩
      cases equal
      exact ⟨part, inPart, partTaken, before⟩
  | task index part _ _ _ _ outputEq =>
      rw [outputEq] at member
      rcases List.mem_map.mp member with ⟨_, _, equal⟩
      cases equal

/-- An output of a task is one of its part. -/
theorem exists_taskPart (taken : spawner.machine.Takes next) {index : Nat} {output : υ}
    (member : .task index output ∈ next.output) :
    ∃ part, taskPart index next = some part ∧ output ∈ part.output ∧
      spawner.task.Takes part ∧ next.before.tasks[index]? = some part.before ∧
      next.input = .task index part.input := by
  cases moves_of_takes taken with
  | main part _ _ _ _ _ outputEq =>
      rw [outputEq] at member
      rcases List.mem_map.mp member with ⟨_, _, equal⟩
      cases equal
  | task acting part input found partTaken after outputEq =>
      rw [outputEq] at member
      rcases List.mem_map.mp member with ⟨_, inPart, equal⟩
      cases equal
      exact ⟨part, taskPart_of_task input found after outputEq, inPart, partTaken, found, input⟩

section Run

variable {first : σ} {final : Spawning σ τ}
variable {trace : List (Transition (Spawning σ τ) (SpawningInput ε ι) (SpawningOutput ω υ))}

/-- The main machine's part of a run is a run. -/
theorem main_of_run (run : spawner.machine.Run (start first) trace final) :
    spawner.main.Run first (trace.filterMap mainPart) final.main := by
  apply run.history_induction (motive := fun taken state =>
    spawner.main.Run first (taken.filterMap mainPart) state.main)
  · exact .nil first
  · intro taken next _ nextTaken _ ran
    rw [List.filterMap_append]
    cases moves_of_takes nextTaken with
    | main part input _ partTaken before after output =>
        rw [List.filterMap_cons_some (mainPart_of_main input before
          (congrArg Spawning.main after) output), List.filterMap_nil, after]
        rw [← before] at ran
        exact ran.concat partTaken
    | task index part input _ _ after _ =>
        rw [List.filterMap_cons_none (mainPart_of_task input), List.filterMap_nil,
          List.append_nil, after]
        exact ran

/-- What the main machine outputs in its part of a run, the run outputs. -/
theorem exists_output_of_mainPart {state : Spawning σ τ} {part : Transition σ ε ω}
    (run : spawner.machine.Run state trace final) (member : part ∈ trace.filterMap mainPart)
    {output : ω} (inPart : output ∈ part.output) :
    ∃ next ∈ trace, .main output ∈ next.output := by
  rcases List.mem_filterMap.mp member with ⟨next, inTrace, isMain⟩
  rcases run.exists_before inTrace with ⟨_, _, nextTaken⟩
  refine ⟨next, inTrace, ?_⟩
  rw [output_of_mainPart nextTaken isMain]
  exact List.mem_map_of_mem inPart

/-- What a task outputs in its part of a run, the run outputs. -/
theorem exists_output_of_taskPart {state : Spawning σ τ} {index : Nat}
    {part : Transition τ ι υ} (run : spawner.machine.Run state trace final)
    (member : part ∈ trace.filterMap (taskPart index)) {output : υ}
    (inPart : output ∈ part.output) : ∃ next ∈ trace, .task index output ∈ next.output := by
  rcases List.mem_filterMap.mp member with ⟨next, inTrace, own⟩
  rcases run.exists_before inTrace with ⟨_, _, nextTaken⟩
  refine ⟨next, inTrace, ?_⟩
  rw [output_of_taskPart nextTaken own]
  exact List.mem_map_of_mem inPart

/-- The tasks the main machine has started in a run. -/
def started (spawner : Spawner σ ε ω τ ι υ)
    (trace : List (Transition (Spawning σ τ) (SpawningInput ε ι) (SpawningOutput ω υ))) :
    List τ :=
  ((trace.filterMap mainPart).flatMap (·.output)).filterMap spawner.starts

theorem started_append_main {part : Transition σ ε ω} (isMain : mainPart next = some part) :
    spawner.started (trace ++ [next]) =
      spawner.started trace ++ part.output.filterMap spawner.starts := by
  rw [started, List.filterMap_append, List.filterMap_cons_some isMain, List.filterMap_nil,
    List.flatMap_append, List.filterMap_append, List.flatMap_singleton, started]

theorem started_append_task (isTask : mainPart next = none) :
    spawner.started (trace ++ [next]) = spawner.started trace := by
  rw [started, List.filterMap_append, List.filterMap_cons_none isTask, List.filterMap_nil,
    List.append_nil, started]

/-- The tasks are those that have been started, each where its part of the run has
led it. -/
structure Follows (spawner : Spawner σ ε ω τ ι υ)
    (trace : List (Transition (Spawning σ τ) (SpawningInput ε ι) (SpawningOutput ω υ)))
    (tasks : List τ) : Prop where
  length : tasks.length = (spawner.started trace).length
  ran : ∀ (index : Nat) (task : τ), tasks[index]? = some task →
    ∃ first, (spawner.started trace)[index]? = some first ∧
      spawner.task.Run first (trace.filterMap (taskPart index)) task
  idle : ∀ index, tasks.length ≤ index → trace.filterMap (taskPart index) = []

theorem taskParts_append_none {index : Nat} (other : taskPart index next = none) :
    (trace ++ [next]).filterMap (taskPart index) = trace.filterMap (taskPart index) := by
  rw [List.filterMap_append, List.filterMap_cons_none other, List.filterMap_nil,
    List.append_nil]

theorem taskParts_append_some {index : Nat} {part : Transition τ ι υ}
    (own : taskPart index next = some part) :
    (trace ++ [next]).filterMap (taskPart index) =
      trace.filterMap (taskPart index) ++ [part] := by
  rw [List.filterMap_append, List.filterMap_cons_some own, List.filterMap_nil]

/-- The main machine adds tasks at the end. -/
theorem Follows.main {tasks new : List τ} (follows : spawner.Follows trace tasks)
    (noPart : ∀ index, taskPart index next = none)
    (startedNow : spawner.started (trace ++ [next]) = spawner.started trace ++ new) :
    spawner.Follows (trace ++ [next]) (tasks ++ new) := by
  refine ⟨?_, ?_, ?_⟩
  · rw [startedNow, List.length_append, List.length_append, follows.length]
  · intro index task found
    rw [taskParts_append_none (noPart index), startedNow]
    by_cases old : index < tasks.length
    · rw [List.getElem?_append_left old] at found
      rw [List.getElem?_append_left (follows.length ▸ old)]
      exact follows.ran index task found
    · rw [Nat.not_lt] at old
      rw [List.getElem?_append_right old] at found
      rw [List.getElem?_append_right (follows.length ▸ old), follows.idle index old,
        ← follows.length]
      exact ⟨task, found, .nil task⟩
  · intro index beyond
    rw [List.length_append] at beyond
    rw [taskParts_append_none (noPart index)]
    exact follows.idle index (by omega)

/-- A task moves by itself. -/
theorem Follows.task {tasks : List τ} {acting : Nat} {part : Transition τ ι υ}
    (follows : spawner.Follows trace tasks) (found : tasks[acting]? = some part.before)
    (partTaken : spawner.task.Takes part) (own : taskPart acting next = some part)
    (others : ∀ index, acting ≠ index → taskPart index next = none)
    (startedNow : spawner.started (trace ++ [next]) = spawner.started trace) :
    spawner.Follows (trace ++ [next]) (tasks.set acting part.after) := by
  have bound : acting < tasks.length := (List.getElem?_eq_some_iff.mp found).1
  refine ⟨?_, ?_, ?_⟩
  · rw [startedNow, List.length_set, follows.length]
  · intro index task foundNow
    rw [startedNow]
    by_cases same : acting = index
    · subst same
      rw [List.getElem?_set_self bound, Option.some.injEq] at foundNow
      rcases follows.ran acting part.before found with ⟨first, isFirst, ran⟩
      refine ⟨first, isFirst, ?_⟩
      rw [taskParts_append_some own, ← foundNow]
      exact ran.concat partTaken
    · rw [List.getElem?_set_ne same] at foundNow
      rw [taskParts_append_none (others index same)]
      exact follows.ran index task foundNow
  · intro index beyond
    rw [List.length_set] at beyond
    rw [taskParts_append_none (others index (by omega))]
    exact follows.idle index beyond

/-- Run lemma: a task's part of a run is a run. -/
theorem follows_of_run (run : spawner.machine.Run (start first) trace final) :
    spawner.Follows trace final.tasks := by
  apply run.history_induction (motive := fun taken state =>
    spawner.Follows taken state.tasks)
  · refine ⟨rfl, ?_, fun _ _ => rfl⟩
    intro index task found
    cases found
  · intro taken next _ nextTaken _ follows
    cases moves_of_takes nextTaken with
    | main part input _ _ before after output =>
        have isMain := mainPart_of_main input before (congrArg Spawning.main after) output
        rw [after]
        exact follows.main (fun _ => taskPart_of_main input) (started_append_main isMain)
    | task acting part input found partTaken after output =>
        rw [after]
        exact follows.task found partTaken (taskPart_of_task input found after output)
          (fun _ => taskPart_of_other input) (started_append_task (mainPart_of_task input))

/-- After a transition of its own, a task goes on as in the rest of the run. -/
theorem task_after {index : Nat} {part : Transition τ ι υ}
    {taken rest : List (Transition (Spawning σ τ) (SpawningInput ε ι)
      (SpawningOutput ω υ))}
    (run : spawner.machine.Run (start first) (taken ++ next :: rest) final)
    (own : taskPart index next = some part) :
    ∃ task ∈ final.tasks,
      spawner.task.Run part.after (rest.filterMap (taskPart index)) task := by
  have follows := follows_of_run run
  have parts : (taken ++ next :: rest).filterMap (taskPart index) =
      taken.filterMap (taskPart index) ++ part :: rest.filterMap (taskPart index) := by
    rw [List.filterMap_append, List.filterMap_cons_some own]
  have bound : index < final.tasks.length := by
    by_contra beyond
    have idle := follows.idle index (Nat.le_of_not_lt beyond)
    rw [parts] at idle
    simp at idle
  rcases follows.ran index _ (List.getElem?_eq_getElem bound) with ⟨_, _, ran⟩
  rw [parts] at ran
  exact ⟨_, List.getElem_mem bound, ran.split_at.2.2⟩

end Run

end Spawner

end Lib
