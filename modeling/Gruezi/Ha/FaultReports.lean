import Gruezi.Ha.AddressCommands
import Gruezi.Ha.Addresses
import Gruezi.Ha.SideEffects
import Gruezi.Lib.Spawning

/-!
# Reports of address failures

The control loop with its address actions, whose commands may fail in any
pattern.  A task of `spawn_address_action` runs the fault hook after a failure.
The exit cleanup awaits its removal and only logs a failure, so it is reported on
a faulted exit alone, whose fault hook runs anyway.
-/

namespace Gruezi.Ha

open Rust Lib HaProcess

/-- Who awaits `apply`. -/
inductive ActionCaller where
  /-- A task of `spawn_address_action`. -/
  | task (faultHook : Option (HaHooks × HookContext))
  /-- `cleanup_before_exit`, which only logs an error. -/
  | cleanup
  deriving DecidableEq

inductive ActionPhase where
  | applying
  /-- At the call of the fault hook. -/
  | reporting (hooks : HaHooks) (context : HookContext)
  | finished
  deriving DecidableEq

/-- What follows the return of `apply`. -/
def ActionCaller.afterApply (caller : ActionCaller) (result : Except Error Unit) :
    ActionPhase :=
  match result, caller with
  | .error _, .task (some (hooks, context)) =>
      .reporting hooks { context with reason := some .addressActionFailed }
  | .error _, .task none | .error _, .cleanup | .ok (), _ => .finished

namespace ActionCaller

variable {caller : ActionCaller} {result : Except Error Unit}

theorem afterApply_ne_applying (caller : ActionCaller) (result : Except Error Unit) :
    caller.afterApply result ≠ .applying := by
  unfold afterApply
  split <;> exact ActionPhase.noConfusion

/-- The fault hook is run by a task, after a failure. -/
theorem failed_of_reporting {hooks : HaHooks} {context : HookContext}
    (reporting : caller.afterApply result = .reporting hooks context) :
    caller ≠ .cleanup ∧ ∃ error, result = .error error := by
  unfold afterApply at reporting
  split at reporting
  · exact ⟨ActionCaller.noConfusion, _, rfl⟩
  all_goals cases reporting

end ActionCaller

/-- An address action, with the results of its commands so far. -/
structure ActionTask where
  manager : AddressManager
  action : AddressAction
  caller : ActionCaller
  results : List CommandResult
  phase : ActionPhase

inductive ActionInput where
  /-- The command that `apply` waits for has ended. -/
  | command (result : CommandResult)
  /-- `apply` returns. -/
  | applied
  /-- The fault hook is run; its result is only logged. -/
  | faultHook

inductive ActionEvent where
  | applied (result : Except Error Unit)
  /-- `hooks.run(HookEvent::Fault, context)`. -/
  | faultHook (hooks : HaHooks) (context : HookContext)
  deriving DecidableEq

namespace ActionTask

def step (task : ActionTask) : ActionInput → Option (ActionTask × List ActionEvent)
  | .command result =>
      if task.phase = .applying ∧ task.manager.applyTo task.action task.results = none then
        some ({ task with results := task.results ++ [result] }, [])
      else none
  | .applied =>
      if task.phase = .applying then
        (task.manager.applyTo task.action task.results).map fun (result, _) =>
          ({ task with phase := task.caller.afterApply result }, [.applied result])
      else none
  | .faultHook =>
      match task.phase with
      | .reporting hooks context =>
          some ({ task with phase := .finished }, [.faultHook hooks context])
      | .applying | .finished => none

def machine : Machine ActionTask ActionInput ActionEvent where
  step := step

def start (manager : AddressManager) (action : AddressAction) (caller : ActionCaller) :
    ActionTask where
  manager
  action
  caller
  results := []
  phase := .applying

/-- The exit cleanup waits for the task. -/
def awaited (task : ActionTask) : Bool :=
  task.caller == .cleanup && task.phase != .finished

end ActionTask

/-- The address action that an effect of the loop starts. -/
def actionTask : Effect → Option ActionTask
  | .spawnAddressAction manager action faultHook =>
      some (.start manager action (.task faultHook))
  | .applyAddresses manager action => some (.start manager action .cleanup)
  | .spawnHook _ _ _ | .runHook _ _ _ | .sendTo _ _ | .publish _ => none

/-- The loop and its address actions.  The cleanup resumes when its own action has
ended. -/
def addressSystem (process : HaProcess) :
    Spawner RunState RunInput Effect ActionTask ActionInput ActionEvent where
  main := process.runWithStatus
  task := ActionTask.machine
  starts := actionTask
  ready tasks input :=
    match input with
    | .addressesRemoved => tasks.all (!·.awaited)
    | .event _ | .shutdown | .beginCleanup _ | .faultHookReturned => true

abbrev SystemState := Spawning RunState ActionTask

abbrev SystemEvent := SpawningOutput Effect ActionEvent

abbrev SystemTransition :=
  Transition SystemState (SpawningInput RunInput ActionInput) SystemEvent

/-- The fault hook is executed. -/
def executesFaultHook : SystemEvent → Bool
  | .main (.runHook _ event _) | .main (.spawnHook _ event _) => event == .fault
  | .task _ (.faultHook _ _) => true
  | .main (.spawnAddressAction _ _ _) | .main (.applyAddresses _ _) | .main (.sendTo _ _)
  | .main (.publish _) | .task _ (.applied _) => false

/-- The event executes the fault hook for this address action: its own task does, or
the cleanup that has awaited it. -/
def reports (index : Nat) (caller : ActionCaller) : SystemEvent → Bool
  | .main (.runHook _ event _) => caller == .cleanup && event == .fault
  | .task acting (.faultHook _ _) => acting == index
  | .main (.spawnAddressAction _ _ _) | .main (.spawnHook _ _ _)
  | .main (.applyAddresses _ _) | .main (.sendTo _ _) | .main (.publish _)
  | .task _ (.applied _) => false

theorem executes_of_reports {index : Nat} {caller : ActionCaller} {event : SystemEvent}
    (reported : reports index caller event = true) : executesFaultHook event = true := by
  cases event with
  | main effect =>
      cases effect with
      | runHook hooks event context =>
          rw [reports, Bool.and_eq_true] at reported
          exact reported.2
      | spawnAddressAction | spawnHook | applyAddresses | sendTo | publish => cases reported
  | task acting event =>
      cases event with
      | applied => cases reported
      | faultHook => rfl

/-- A send or a receive fails for good. -/
def EndsLoop (process : HaProcess) (transition : SystemTransition) : Prop :=
  ∃ event handled error, transition.input = .main (.event event) ∧
    process.handle transition.before.main.node event = some handled ∧
    handled.result = .error error

/-- Every address action that fails is followed by its fault hook, and the fault hook
is executed for such a failure, or after the loop has failed. -/
structure FaultsReported (process : HaProcess) (trace : List SystemTransition) : Prop where
  reported : ∀ taken next rest index task error, trace = taken ++ next :: rest →
    next.before.tasks[index]? = some task →
    .task index (.applied (.error error)) ∈ next.output →
    ∃ later ∈ rest, ∃ event ∈ later.output, reports index task.caller event = true
  justified : ∀ taken next rest event, trace = taken ++ next :: rest →
    event ∈ next.output → executesFaultHook event = true →
    (∃ index hooks context error, event = .task index (.faultHook hooks context) ∧
      ∃ earlier ∈ taken, .task index (.applied (.error error)) ∈ earlier.output) ∨
    (∃ hooks context, event = .main (.runHook hooks .fault context)) ∧
      ∃ earlier ∈ taken, EndsLoop process earlier

/-- If this is the return of the removal awaited by the cleanup of a graceful
shutdown, none of its commands has failed. -/
def RemovesCleanly (next : SystemTransition) : Prop :=
  match next.input, next.before.main.phase with
  | .task index .applied, .removing cleanup _ =>
      ∀ task ∈ next.before.tasks[index]?, task.caller = .cleanup → cleanup.faulted = false →
        task.manager.AllSucceed task.action task.results
  | _, _ => True

instance (next : SystemTransition) : Decidable (RemovesCleanly next) := by
  unfold RemovesCleanly AddressManager.AllSucceed
  split <;> infer_instance

/-- The address actions have run to completion, and the loop is not in its exit
cleanup. -/
def Completed (state : SystemState) : Prop :=
  (∀ task ∈ state.tasks, task.phase = .finished) ∧ inCleanup state.main.phase = false

/-! ## One address action -/

namespace ActionTask

/-- The steps of an address action. -/
inductive Steps (task : ActionTask) :
    ActionInput → ActionTask → List ActionEvent → Prop where
  | command {result : CommandResult} :
      task.phase = .applying →
      task.manager.applyTo task.action task.results = none →
      Steps task (.command result) { task with results := task.results ++ [result] } []
  | applied {result : Except Error Unit} {left : List CommandResult} :
      task.phase = .applying →
      task.manager.applyTo task.action task.results = some (result, left) →
      Steps task .applied { task with phase := task.caller.afterApply result }
        [.applied result]
  | faultHook {hooks : HaHooks} {context : HookContext} :
      task.phase = .reporting hooks context →
      Steps task .faultHook { task with phase := .finished } [.faultHook hooks context]

variable {task first final : ActionTask}
variable {trace : List (Transition ActionTask ActionInput ActionEvent)}
variable {next : Transition ActionTask ActionInput ActionEvent}

theorem steps_of_takes (taken : machine.Takes next) :
    Steps next.before next.input next.after next.output := by
  simp only [Machine.Takes, machine] at taken
  generalize next.before = task, next.input = input, next.after = after,
    next.output = output at taken
  cases input with
  | command result =>
      simp only [step] at taken
      split at taken
      · next waits =>
          cases taken
          exact .command waits.1 waits.2
      · cases taken
  | applied =>
      simp only [step] at taken
      split at taken
      · next applying =>
          rcases Option.map_eq_some_iff.mp taken with ⟨⟨result, left⟩, returned, equal⟩
          cases equal
          exact .applied applying returned
      · cases taken
  | faultHook =>
      simp only [step] at taken
      split at taken
      · next reporting =>
          cases taken
          exact .faultHook reporting
      · cases taken
      · cases taken

/-- Who awaits an action does not change. -/
theorem Steps.caller_eq {input : ActionInput} {events : List ActionEvent}
    (steps : Steps task input final events) : final.caller = task.caller := by
  cases steps <;> rfl

theorem Steps.not_finished {input : ActionInput} {events : List ActionEvent}
    (steps : Steps task input final events) : task.phase ≠ .finished := by
  cases steps with
  | command applying | applied applying => simp [applying]
  | faultHook reporting => simp [reporting]

/-- The return of `apply`. -/
theorem Steps.applied_of_mem {input : ActionInput} {events : List ActionEvent}
    (steps : Steps task input final events) {result : Except Error Unit}
    (member : .applied result ∈ events) :
    input = .applied ∧ task.phase = .applying ∧
      final.phase = task.caller.afterApply result ∧
      ∃ left, task.manager.applyTo task.action task.results = some (result, left) := by
  cases steps with
  | command => cases member
  | applied phase returned =>
      cases List.mem_singleton.mp member
      exact ⟨rfl, phase, rfl, _, returned⟩
  | faultHook => cases List.mem_singleton.mp member

theorem Steps.exists_result {events : List ActionEvent}
    (steps : Steps task .applied final events) :
    ∃ result, .applied result ∈ events := by
  cases steps with
  | applied => exact ⟨_, List.mem_singleton_self _⟩

/-- Where the fault hook is run. -/
theorem Steps.reporting_of_mem {input : ActionInput} {events : List ActionEvent}
    (steps : Steps task input final events) {hooks : HaHooks} {context : HookContext}
    (member : .faultHook hooks context ∈ events) : task.phase = .reporting hooks context := by
  cases steps with
  | command => cases member
  | applied => cases List.mem_singleton.mp member
  | faultHook phase =>
      cases List.mem_singleton.mp member
      exact phase

/-- What is known of an address action that has come this far. -/
structure Progress (first : ActionTask)
    (taken : List (Transition ActionTask ActionInput ActionEvent)) (task : ActionTask) :
    Prop where
  caller : task.caller = first.caller
  fed : task.phase = .applying → task.manager.Fed task.action task.results
  failed : ∀ hooks context, task.phase = .reporting hooks context →
    task.caller ≠ .cleanup ∧
      ∃ earlier ∈ taken, ∃ error, .applied (.error error) ∈ earlier.output

theorem progress_of_run (applying : first.phase = .applying) (fresh : first.results = [])
    (run : machine.Run first trace final) : Progress first trace final := by
  apply run.history_induction (motive := Progress first)
  · refine ⟨rfl, ?_, ?_⟩
    · intro _
      rw [fresh]
      exact AddressManager.fed_nil _ _
    · intro hooks context reporting
      cases applying.symm.trans reporting
  · rintro taken next - nextTaken - ⟨caller, _, _⟩
    have steps := steps_of_takes nextTaken
    have sameCaller := steps.caller_eq.trans caller
    generalize beforeEq : next.before = task, next.input = input, next.after = after,
      outputEq : next.output = events at steps sameCaller caller
    cases steps with
    | command phase waiting =>
        refine ⟨sameCaller, fun _ => AddressManager.Fed.next waiting _, ?_⟩
        intro hooks context reporting
        cases phase.symm.trans reporting
    | @applied result left phase returned =>
        refine ⟨sameCaller, ?_, ?_⟩
        · intro stillApplying
          exact absurd stillApplying (ActionCaller.afterApply_ne_applying _ _)
        · intro hooks context reporting
          obtain ⟨notCleanup, error, failed⟩ := ActionCaller.failed_of_reporting reporting
          refine ⟨notCleanup, next, by simp, error, ?_⟩
          rw [outputEq, failed]
          exact List.mem_singleton_self _
    | faultHook phase =>
        refine ⟨sameCaller, ?_, ?_⟩
        · intro stillApplying
          cases stillApplying
        · intro hooks context reporting
          cases reporting

/-- A task that is about to run the fault hook runs it before it ends. -/
theorem reports_of_run {hooks : HaHooks} {context : HookContext}
    (run : machine.Run task trace final) (reporting : task.phase = .reporting hooks context)
    (finished : final.phase = .finished) :
    ∃ later ∈ trace, .faultHook hooks context ∈ later.output := by
  cases run with
  | nil => cases reporting.symm.trans finished
  | @cons next trace _ nextTaken _ =>
      refine ⟨next, List.mem_cons_self, ?_⟩
      have steps := steps_of_takes nextTaken
      generalize next.before = task, next.input = input, next.after = after,
        next.output = events at steps reporting
      cases steps with
      | command phase | applied phase => cases phase.symm.trans reporting
      | faultHook phase =>
          cases phase.symm.trans reporting
          exact List.mem_singleton_self _

end ActionTask

/-! ## The loop -/

/-- What the loop is about to return. -/
def Phase.exitResult : Phase → Option (Except Error Unit)
  | .refreshing | .selecting => none
  | .exiting _ result | .removing _ result | .faulting _ result | .returned result =>
      some result

/-- The exit cleanup has awaited its removal. -/
def Phase.removed : Phase → Bool
  | .faulting _ _ | .returned _ => true
  | .refreshing | .selecting | .exiting _ _ | .removing _ _ => false

section Loop

variable {process : HaProcess} {transition : Transition RunState RunInput Effect}
variable {effects : List Effect} {state : RunState}

/-- Once the loop has ended, what it returns does not change. -/
theorem exitResult_of_takes {result : Except Error Unit}
    (taken : process.runWithStatus.Takes transition)
    (ended : transition.before.phase.exitResult = some result) :
    transition.after.phase.exitResult = some result := by
  have steps := steps_of_takes taken
  generalize transition.before = before, transition.input = input,
    transition.after = after, transition.output = output at steps ended
  cases steps with
  | refresh phase | handled phase | failed phase | shutdown phase =>
      simp [phase, Phase.exitResult] at ended
  | beginCleanup phase | runFaultHook phase | finish phase | finishFaulted phase =>
      rw [phase] at ended
      exact ended

/-- The loop comes to return an error only where a send or a receive fails. -/
theorem fails_of_takes {error : Error} (taken : process.runWithStatus.Takes transition)
    (failed : transition.after.phase.exitResult = some (.error error)) :
    transition.before.phase.exitResult = some (.error error) ∨
      ∃ event handled, transition.input = .event event ∧
        process.handle transition.before.node event = some handled ∧
        handled.result = .error error := by
  have steps := steps_of_takes taken
  generalize transition.before = before, transition.input = input,
    transition.after = after, transition.output = output at steps failed
  cases steps with
  | refresh | handled | shutdown => cases failed
  | @failed event handled other _ _ handles result =>
      cases failed
      exact .inr ⟨event, handled, rfl, handles, result⟩
  | beginCleanup phase | runFaultHook phase | finish phase | finishFaulted phase =>
      left
      rw [phase]
      exact failed

/-- The cleanup goes past its removal when that has returned, and starts no address
action from then on. -/
theorem removed_of_takes (taken : process.runWithStatus.Takes transition)
    (removed : transition.after.phase.removed = true) :
    (transition.input = .addressesRemoved ∨ transition.before.phase.removed = true) ∧
      transition.output.filterMap actionTask = [] := by
  have steps := steps_of_takes taken
  generalize transition.before = before, transition.input = input,
    transition.after = after, transition.output = output at steps removed
  have published : ∀ (node : Node) (cleanup : Cleanup) (result : Except Error Unit),
      (process.finishCleanup node cleanup result).2.filterMap actionTask = [] := by
    intro node cleanup result
    simp only [finishCleanup, Cleanup.finish, publishLoopStatus]
    split <;> rfl
  cases steps with
  | refresh | handled | failed | shutdown | beginCleanup => cases removed
  | @runFaultHook cleanup =>
      refine ⟨.inl rfl, ?_⟩
      rw [Cleanup.faultHook]
      split <;> rfl
  | finish => exact ⟨.inl rfl, published _ _ _⟩
  | finishFaulted phase => exact ⟨.inr (by rw [phase]; rfl), published _ _ _⟩

/-- A task runs the hook of a transition, which is never that of a fault. -/
theorem not_fault_of_spawnHook {hooks : HaHooks} {event : HookEvent} {context : HookContext}
    (taken : process.runWithStatus.Takes transition)
    (member : .spawnHook hooks event context ∈ transition.output) : event ≠ .fault := by
  rw [(spawnHook_of_takes taken member).1]
  unfold transitionHook
  split_ifs <;> exact HookEvent.noConfusion

/-- The exit is faulted if and only if it returns an error. -/
theorem ExitEffects.faulted_eq (exits : ExitEffects process effects state)
    {cleanup : Cleanup} {result : Except Error Unit}
    (removing : state.phase = .removing cleanup result) : cleanup.faulted = !result.isOk := by
  simp only [ExitEffects, removing] at exits
  rcases exits with ⟨_, _, _, rfl, _⟩
  rfl

/-- While the cleanup awaits its removal, no hook has been awaited. -/
theorem ExitEffects.runHook_notMem (exits : ExitEffects process effects state)
    {cleanup : Cleanup} {result : Except Error Unit}
    (removing : state.phase = .removing cleanup result) (hooks : HaHooks)
    (event : HookEvent) (context : HookContext) : .runHook hooks event context ∉ effects := by
  simp only [ExitEffects, removing] at exits
  rcases exits with ⟨looped, _, unawaited, _, rfl⟩
  intro member
  rcases List.mem_append.mp member with inLoop | inCleanup
  · cases unawaited _ inLoop
  · cases List.mem_singleton.mp inCleanup

theorem ExitEffects.applyAddresses_mem (exits : ExitEffects process effects state)
    {cleanup : Cleanup} {result : Except Error Unit}
    (removing : state.phase = .removing cleanup result) :
    .applyAddresses (addressManager process.runtime) .remove ∈ effects := by
  simp only [ExitEffects, removing] at exits
  rcases exits with ⟨_, _, _, _, rfl⟩
  exact List.mem_append_right _ (List.mem_singleton_self _)

/-- A removal is awaited by the exit cleanup only. -/
theorem ExitEffects.removing_or_removed (exits : ExitEffects process effects state)
    {manager : AddressManager} {action : AddressAction}
    (member : .applyAddresses manager action ∈ effects) :
    (∃ cleanup result, state.phase = .removing cleanup result) ∨
      state.phase.removed = true := by
  cases phase : state.phase with
  | refreshing | selecting =>
      simp only [ExitEffects, phase] at exits
      cases exits _ member
  | exiting =>
      simp only [ExitEffects, phase] at exits
      cases exits.1 _ member
  | removing cleanup result => exact .inl ⟨cleanup, result, rfl⟩
  | faulting | returned => exact .inr rfl

/-- A loop that has returned an error has run the fault hook. -/
theorem ExitEffects.exists_runHook (exits : ExitEffects process effects state)
    {error : Error} (returned : state.phase = .returned (.error error)) :
    ∃ hooks context, .runHook hooks .fault context ∈ effects := by
  simp only [ExitEffects, returned] at exits
  rcases exits with ⟨looped, left, now, _, _, _, rfl⟩
  refine ⟨process.runtime.hooks, (exitCleanup process.runtime left (.error error) now).context,
    ?_⟩
  rw [exitCleanup_faultHook]
  simp [Except.isOk, Except.toBool]

end Loop

/-! ## The loop with its address actions -/

/-- How an address action starts: in a task, with its fault hook, or awaited. -/
inductive BeginsAction (process : HaProcess) (effects : List Effect) : ActionTask → Prop where
  | task {action : AddressAction} {context : HookContext} :
      BeginsAction process effects (.start (addressManager process.runtime) action
        (.task (some (process.runtime.hooks, context))))
  | cleanup {manager : AddressManager} {action : AddressAction} :
      .applyAddresses manager action ∈ effects →
      BeginsAction process effects (.start manager action .cleanup)

section System

variable {process : HaProcess} {startupAt scheduledAt : Int}
variable {start final : SystemState} {trace taken rest : List SystemTransition}
variable {next : SystemTransition} {index : Nat} {task : ActionTask}

/-- Along a run too, what the loop returns is settled when it ends. -/
theorem exitResult_of_run {result : Except Error Unit}
    (run : (addressSystem process).machine.Run start trace final)
    (ended : start.main.phase.exitResult = some result) :
    final.main.phase.exitResult = some result := by
  apply run.invariant (motive := fun state => state.main.phase.exitResult = some result)
    ended
  intro next _ nextTaken stays
  cases Spawner.moves_of_takes nextTaken with
  | main part _ _ partTaken before after _ =>
      rw [← before] at stays
      rw [after]
      exact exitResult_of_takes partTaken stays
  | task _ _ _ _ _ after _ =>
      rw [after]
      exact stays

/-- Who awaits an address action stays the same. -/
theorem caller_of_run (run : (addressSystem process).machine.Run start trace final)
    (found : start.tasks[index]? = some task) :
    ∃ last, final.tasks[index]? = some last ∧ last.caller = task.caller := by
  apply run.invariant (motive := fun state =>
    ∃ last, state.tasks[index]? = some last ∧ last.caller = task.caller) ⟨task, found, rfl⟩
  rintro next - nextTaken ⟨last, foundLast, same⟩
  have bound : index < next.before.tasks.length :=
    (List.getElem?_eq_some_iff.mp foundLast).1
  cases Spawner.moves_of_takes nextTaken with
  | main part _ _ _ _ after _ =>
      refine ⟨last, ?_, same⟩
      rw [after, List.getElem?_append_left bound]
      exact foundLast
  | task acting part _ foundActing partTaken after _ =>
      rw [after]
      by_cases own : acting = index
      · subst own
        cases foundActing.symm.trans foundLast
        refine ⟨part.after, List.getElem?_set_self bound, ?_⟩
        exact (ActionTask.steps_of_takes partTaken).caller_eq.trans same
      · exact ⟨last, by rw [List.getElem?_set_ne own]; exact foundLast, same⟩

/-- Run lemma: a loop that returns an error has failed in a step of the run. -/
theorem endsLoop_of_run {error : Error}
    (run : (addressSystem process).machine.Run
      (Spawner.start (process.startRun startupAt scheduledAt)) trace final)
    (failed : final.main.phase.exitResult = some (.error error)) :
    ∃ earlier ∈ trace, EndsLoop process earlier := by
  revert failed
  apply run.history_induction (motive := fun taken state =>
    state.main.phase.exitResult = some (.error error) →
      ∃ earlier ∈ taken, EndsLoop process earlier)
  · intro failed
    cases failed
  · intro taken next _ nextTaken _ ends failed
    have carries : next.before.main.phase.exitResult = some (.error error) →
        ∃ earlier ∈ taken ++ [next], EndsLoop process earlier := by
      intro already
      rcases ends already with ⟨earlier, member, endsEarlier⟩
      exact ⟨earlier, List.mem_append_left _ member, endsEarlier⟩
    cases Spawner.moves_of_takes nextTaken with
    | main part input _ partTaken before after _ =>
        rw [after] at failed
        rcases fails_of_takes partTaken failed with
          already | ⟨event, handled, partInput, handles, result⟩
        · exact carries (before ▸ already)
        · refine ⟨next, by simp, event, handled, error, ?_, before ▸ handles, result⟩
          rw [input, partInput]
    | task _ _ _ _ _ after _ =>
        rw [after] at failed
        exact carries failed

/-- Run lemma: past the removal of the cleanup, no address action is awaited. -/
theorem notAwaited_of_run
    (run : (addressSystem process).machine.Run
      (Spawner.start (process.startRun startupAt scheduledAt)) trace final)
    (removed : final.main.phase.removed = true) :
    ∀ task ∈ final.tasks, task.awaited = false := by
  revert removed
  apply run.invariant (motive := fun state =>
    state.main.phase.removed = true → ∀ task ∈ state.tasks, task.awaited = false)
  · intro removed
    cases removed
  · intro next _ nextTaken holds removed
    cases Spawner.moves_of_takes nextTaken with
    | main part input ready partTaken before after _ =>
        rw [after] at removed ⊢
        obtain ⟨awaits, starts⟩ := removed_of_takes partTaken removed
        change ∀ task ∈ next.before.tasks ++ part.output.filterMap actionTask, _
        rw [starts, List.append_nil]
        rcases awaits with returned | already
        · rw [returned] at ready
          simpa [addressSystem] using ready
        · exact holds (before ▸ already)
    | task acting part _ found partTaken after _ =>
        rw [after] at removed ⊢
        have steps := ActionTask.steps_of_takes partTaken
        have notAwaited := holds removed part.before (List.mem_of_getElem? found)
        intro task member
        rcases List.mem_or_eq_of_mem_set member with old | rfl
        · exact holds removed task old
        · -- An action that still takes steps is not awaited because it is a task.
          simp only [ActionTask.awaited, Bool.and_eq_false_iff, bne_eq_false_iff_eq,
            steps.not_finished, or_false] at notAwaited
          rw [ActionTask.awaited, steps.caller_eq, notAwaited, Bool.false_and]

/-- The address actions of a run begin in one of two ways. -/
theorem beginsAction_of_run
    (run : (addressSystem process).machine.Run
      (Spawner.start (process.startRun startupAt scheduledAt)) trace final)
    (member : task ∈ (addressSystem process).started trace) :
    BeginsAction process (effectsOf (trace.filterMap Spawner.mainPart)) task := by
  rcases List.mem_filterMap.mp member with ⟨effect, inEffects, begins⟩
  cases effect with
  | spawnAddressAction manager action faultHook =>
      have inSpawned : .spawnAddressAction manager action faultHook ∈
          spawned (effectsOf (trace.filterMap Spawner.mainPart)) :=
        List.mem_filter.mpr ⟨inEffects, rfl⟩
      rcases tasks_of_run (Spawner.main_of_run run) with ⟨moves, tasks, _⟩
      rw [tasks] at inSpawned
      rcases List.mem_flatMap.mp inSpawned with ⟨⟨event, context⟩, _, inTasks⟩
      simp only [transitionTasks, List.mem_cons, Effect.spawnAddressAction.injEq,
        reduceCtorEq, List.not_mem_nil, or_false] at inTasks
      rcases inTasks with ⟨rfl, rfl, rfl⟩
      cases begins
      exact .task
  | applyAddresses manager action =>
      cases begins
      exact .cleanup inEffects
  | spawnHook | runHook | sendTo | publish => cases begins

/-- How far an address action of a run has come. -/
theorem progress_of_run
    (run : (addressSystem process).machine.Run
      (Spawner.start (process.startRun startupAt scheduledAt)) trace final)
    (found : final.tasks[index]? = some task) :
    ∃ first, BeginsAction process (effectsOf (trace.filterMap Spawner.mainPart)) first ∧
      ActionTask.Progress first (trace.filterMap (Spawner.taskPart index)) task := by
  rcases (Spawner.follows_of_run run).ran index task found with ⟨first, isFirst, ran⟩
  have begins := beginsAction_of_run run (List.mem_of_getElem? isFirst)
  refine ⟨first, begins, ?_⟩
  cases begins with
  | task | cleanup => exact ActionTask.progress_of_run rfl rfl ran

/-- An address action that is awaited has the cleanup wait for its removal. -/
theorem removing_of_run
    (run : (addressSystem process).machine.Run
      (Spawner.start (process.startRun startupAt scheduledAt)) trace final)
    (found : final.tasks[index]? = some task) (awaited : task.awaited = true) :
    ∃ cleanup result, final.main.phase = .removing cleanup result := by
  rcases progress_of_run run found with ⟨first, begins, progress⟩
  have awaitedFirst : first.caller = .cleanup := by
    simp only [ActionTask.awaited, Bool.and_eq_true, beq_iff_eq] at awaited
    exact progress.caller.symm.trans awaited.1
  cases begins with
  | task => cases awaitedFirst
  | cleanup member =>
      have exits := exitEffects_of_run (Spawner.main_of_run run)
      rcases exits.removing_or_removed member with removing | removed
      · exact removing
      · have notAwaited := notAwaited_of_run run removed task (List.mem_of_getElem? found)
        cases awaited.symm.trans notAwaited

/-- A faulted cleanup that awaits its removal goes on to run the fault hook. -/
theorem runHook_of_run
    (run : (addressSystem process).machine.Run
      (Spawner.start (process.startRun startupAt scheduledAt)) (taken ++ next :: rest) final)
    (completed : inCleanup final.main.phase = false)
    (isTask : Spawner.mainPart next = none) {cleanup : Cleanup} {result : Except Error Unit}
    (removing : next.before.main.phase = .removing cleanup result)
    (faulted : cleanup.faulted = true) :
    ∃ later ∈ rest, ∃ hooks context, .main (.runHook hooks .fault context) ∈ later.output := by
  rcases run.split_at with ⟨before, nextTaken, after⟩
  have exitsBefore := exitEffects_of_run (Spawner.main_of_run before)
  have exits := exitEffects_of_run (Spawner.main_of_run run)
  have mainParts : (taken ++ next :: rest).filterMap Spawner.mainPart =
      taken.filterMap Spawner.mainPart ++ rest.filterMap Spawner.mainPart := by
    rw [List.filterMap_append, List.filterMap_cons_none isTask]
  rw [mainParts, effectsOf, List.flatMap_append] at exits
  obtain ⟨error, failed⟩ : ∃ error, result = .error error := by
    cases result with
    | ok => cases faulted.symm.trans (exitsBefore.faulted_eq removing)
    | error error => exact ⟨error, rfl⟩
  have ended : final.main.phase.exitResult = some (.error error) := by
    apply exitResult_of_run (Machine.Run.cons nextTaken after)
    rw [removing, failed, Phase.exitResult]
  have returned : final.main.phase = .returned (.error error) := by
    have inEffects := List.mem_append_left
      (effectsOf (rest.filterMap Spawner.mainPart)) (exitsBefore.applyAddresses_mem removing)
    rcases exits.removing_or_removed inEffects with ⟨_, _, stillRemoving⟩ | removed
    · rw [stillRemoving] at completed
      cases completed
    · generalize final.main.phase = phase at completed ended removed
      cases phase with
      | refreshing | selecting | exiting | removing => cases removed
      | faulting => cases completed
      | returned =>
          cases ended
          rfl
  rcases exits.exists_runHook returned with ⟨hooks, context, member⟩
  rcases List.mem_append.mp member with inTaken | inRest
  · exact absurd inTaken (exitsBefore.runHook_notMem removing _ _ _)
  · rcases List.mem_flatMap.mp inRest with ⟨part, partOf, inPart⟩
    rcases Spawner.exists_output_of_mainPart after partOf inPart with ⟨later, inRest, output⟩
    exact ⟨later, inRest, hooks, context, output⟩

/-- A task whose action fails goes on to run its fault hook. -/
theorem faultHook_of_run
    (run : (addressSystem process).machine.Run
      (Spawner.start (process.startRun startupAt scheduledAt)) (taken ++ next :: rest) final)
    (completed : ∀ task ∈ final.tasks, task.phase = .finished)
    (found : next.before.tasks[index]? = some task) {hooks : HaHooks}
    {context : HookContext} (caller : task.caller = .task (some (hooks, context)))
    {error : Error} (failed : .task index (.applied (.error error)) ∈ next.output) :
    ∃ later ∈ rest, ∃ context, .task index (.faultHook hooks context) ∈ later.output := by
  rcases run.split_at with ⟨_, nextTaken, after⟩
  rcases Spawner.exists_taskPart nextTaken failed with
    ⟨part, own, inPart, partTaken, foundPart, _⟩
  cases foundPart.symm.trans found
  have steps := ActionTask.steps_of_takes partTaken
  rcases steps.applied_of_mem inPart with ⟨_, _, reporting, _⟩
  rw [caller, ActionCaller.afterApply] at reporting
  rcases Spawner.task_after run own with ⟨last, inFinal, ranAfter⟩
  rcases ActionTask.reports_of_run ranAfter reporting (completed last inFinal) with
    ⟨laterPart, laterOwn, inLater⟩
  rcases Spawner.exists_output_of_taskPart after laterOwn inLater with
    ⟨later, inRest, output⟩
  exact ⟨later, inRest, _, output⟩

/-- A fault hook is executed for a failed action, or after the loop has failed. -/
theorem justified_of_run
    (run : (addressSystem process).machine.Run
      (Spawner.start (process.startRun startupAt scheduledAt)) (taken ++ next :: rest) final)
    {event : SystemEvent} (member : event ∈ next.output)
    (executes : executesFaultHook event = true) :
    (∃ index hooks context error, event = .task index (.faultHook hooks context) ∧
      ∃ earlier ∈ taken, .task index (.applied (.error error)) ∈ earlier.output) ∨
    (∃ hooks context, event = .main (.runHook hooks .fault context)) ∧
      ∃ earlier ∈ taken, EndsLoop process earlier := by
  rcases run.split_at with ⟨before, nextTaken, _⟩
  cases event with
  | main effect =>
      right
      rcases Spawner.exists_mainPart nextTaken member with ⟨part, inPart, partTaken, partBefore⟩
      cases effect with
      | spawnHook hooks event context =>
          have isFault : event = .fault := by simpa [executesFaultHook] using executes
          exact absurd isFault (not_fault_of_spawnHook partTaken inPart)
      | runHook hooks event context =>
          rcases removing_of_runHook partTaken inPart with
            ⟨cleanup, result, removing, faulted, rfl, _⟩
          refine ⟨⟨hooks, context, rfl⟩, ?_⟩
          rw [partBefore] at removing
          have exits := exitEffects_of_run (Spawner.main_of_run before)
          cases result with
          | ok => cases faulted.symm.trans (exits.faulted_eq removing)
          | error error =>
              apply endsLoop_of_run before
              rw [removing, Phase.exitResult]
      | spawnAddressAction | applyAddresses | sendTo | publish => cases executes
  | task index event =>
      left
      cases event with
      | applied => cases executes
      | faultHook hooks context =>
          rcases Spawner.exists_taskPart nextTaken member with
            ⟨part, _, inPart, partTaken, found, _⟩
          have reporting := (ActionTask.steps_of_takes partTaken).reporting_of_mem inPart
          rcases progress_of_run before found with ⟨_, _, progress⟩
          rcases progress.failed hooks context reporting with
            ⟨_, earlierPart, earlierOwn, error, failed⟩
          rcases Spawner.exists_output_of_taskPart before earlierOwn failed with
            ⟨earlier, inTaken, output⟩
          exact ⟨index, hooks, context, error, rfl, earlier, inTaken, output⟩

/-- Whether `apply` returns `Ok`, by the commands it has run. -/
theorem isOk_of_run
    (run : (addressSystem process).machine.Run
      (Spawner.start (process.startRun startupAt scheduledAt)) taken next.before)
    (nextTaken : (addressSystem process).machine.Takes next)
    (found : next.before.tasks[index]? = some task) {result : Except Error Unit}
    (output : .task index (.applied result) ∈ next.output) :
    next.input = .task index .applied ∧ task.phase = .applying ∧
      (result.isOk = true ↔ task.manager.AllSucceed task.action task.results) := by
  rcases Spawner.exists_taskPart nextTaken output with
    ⟨part, _, inPart, partTaken, foundPart, input⟩
  cases foundPart.symm.trans found
  rcases (ActionTask.steps_of_takes partTaken).applied_of_mem inPart with
    ⟨isApplied, applying, _, _, returned⟩
  rcases progress_of_run run found with ⟨_, _, progress⟩
  refine ⟨?_, applying, (progress.fed applying).isOk returned⟩
  rw [input, isApplied]

/-- The failure of an address action is reported, unless it is that of a graceful
cleanup. -/
theorem reported_of_run
    (run : (addressSystem process).machine.Run
      (Spawner.start (process.startRun startupAt scheduledAt)) (taken ++ next :: rest) final)
    (completed : Completed final) (clean : RemovesCleanly next)
    (found : next.before.tasks[index]? = some task) {error : Error}
    (failed : .task index (.applied (.error error)) ∈ next.output) :
    ∃ later ∈ rest, ∃ event ∈ later.output, reports index task.caller event = true := by
  rcases run.split_at with ⟨before, nextTaken, _⟩
  obtain ⟨input, applying, isOk⟩ := isOk_of_run before nextTaken found failed
  rcases progress_of_run before found with ⟨first, begins, progress⟩
  cases caller : task.caller with
  | task faultHook =>
      cases faultHook with
      | none =>
          have unreported := progress.caller.symm.trans caller
          cases begins with
          | task | cleanup => cases unreported
      | some report =>
          rcases faultHook_of_run run completed.1 found caller failed with
            ⟨later, inRest, context, output⟩
          exact ⟨later, inRest, _, output, beq_self_eq_true index⟩
  | cleanup =>
      have awaited : task.awaited = true := by
        rw [ActionTask.awaited, caller, applying]
        rfl
      rcases removing_of_run before found awaited with ⟨cleanup, result, removing⟩
      have faulted : cleanup.faulted = true := by
        by_contra graceful
        rw [RemovesCleanly, input, removing] at clean
        have succeeded := clean task found caller (by simpa using graceful)
        cases isOk.mpr succeeded
      rcases runHook_of_run run completed.2 (Spawner.mainPart_of_task input) removing
        faulted with ⟨later, inRest, hooks, context, output⟩
      exact ⟨later, inRest, _, output, rfl⟩

/-- What a graceful cleanup awaits is never reported. -/
theorem notReported_of_run
    (run : (addressSystem process).machine.Run
      (Spawner.start (process.startRun startupAt scheduledAt)) (taken ++ next :: rest) final)
    (found : next.before.tasks[index]? = some task) (caller : task.caller = .cleanup)
    {cleanup : Cleanup} {result : Except Error Unit}
    (removing : next.before.main.phase = .removing cleanup result)
    (graceful : cleanup.faulted = false) :
    ∀ later ∈ rest, ∀ event ∈ later.output, reports index .cleanup event = false := by
  intro later inRest event output
  by_contra reported
  rw [Bool.not_eq_false] at reported
  rcases List.append_of_mem inRest with ⟨between, after, rfl⟩
  rcases run.split_at with ⟨before, nextTaken, ranAfter⟩
  have ranBetween := Machine.Run.cons nextTaken ranAfter.split_at.1
  rw [← List.cons_append, ← List.append_assoc] at run
  rcases run.split_at with ⟨beforeLater, laterTaken, _⟩
  cases event with
  | main effect =>
      rcases Spawner.exists_mainPart laterTaken output with
        ⟨part, inPart, partTaken, partBefore⟩
      cases effect with
      | runHook hooks event context =>
          rcases removing_of_runHook partTaken inPart with
            ⟨laterCleanup, laterResult, laterRemoving, faulted, _⟩
          rw [partBefore] at laterRemoving
          have exits := exitEffects_of_run (Spawner.main_of_run before)
          have laterExits := exitEffects_of_run (Spawner.main_of_run beforeLater)
          have ended := exitResult_of_run ranBetween (congrArg Phase.exitResult removing)
          rw [laterRemoving] at ended
          cases ended
          rw [exits.faulted_eq removing] at graceful
          rw [laterExits.faulted_eq laterRemoving, graceful] at faulted
          cases faulted
      | spawnHook | spawnAddressAction | applyAddresses | sendTo | publish => cases reported
  | task acting event =>
      cases event with
      | applied => cases reported
      | faultHook hooks context =>
          cases (beq_iff_eq.mp reported : acting = index)
          rcases Spawner.exists_taskPart laterTaken output with
            ⟨part, _, inPart, partTaken, foundLater, _⟩
          have reporting := (ActionTask.steps_of_takes partTaken).reporting_of_mem inPart
          rcases progress_of_run beforeLater foundLater with ⟨_, _, progress⟩
          rcases caller_of_run ranBetween found with ⟨last, foundLast, same⟩
          cases foundLast.symm.trans foundLater
          exact (progress.failed hooks context reporting).1 (same.trans caller)

theorem exists_applied (nextTaken : (addressSystem process).machine.Takes next)
    (input : next.input = .task index .applied) :
    ∃ result, .task index (.applied result) ∈ next.output := by
  cases Spawner.moves_of_takes nextTaken with
  | main _ isMain => cases input.symm.trans isMain
  | task acting part isTask _ partTaken _ outputEq =>
      rw [input, SpawningInput.task.injEq] at isTask
      rcases isTask with ⟨rfl, isApplied⟩
      have steps := ActionTask.steps_of_takes partTaken
      rw [← isApplied] at steps
      rcases steps.exists_result with ⟨result, inPart⟩
      rw [outputEq]
      exact ⟨result, List.mem_map_of_mem inPart⟩

/-- Where every failure is reported, a graceful cleanup removes cleanly. -/
theorem removesCleanly_of_run
    (run : (addressSystem process).machine.Run
      (Spawner.start (process.startRun startupAt scheduledAt)) (taken ++ next :: rest) final)
    (reported : ∀ index task error, next.before.tasks[index]? = some task →
      .task index (.applied (.error error)) ∈ next.output →
      ∃ later ∈ rest, ∃ event ∈ later.output, reports index task.caller event = true) :
    RemovesCleanly next := by
  rcases run.split_at with ⟨before, nextTaken, _⟩
  rw [RemovesCleanly]
  split
  · next index cleanup _ input removing =>
      intro task found caller graceful
      rcases exists_applied nextTaken input with ⟨result, output⟩
      rcases isOk_of_run before nextTaken found output with ⟨_, _, isOk⟩
      cases result with
      | ok => exact isOk.mp rfl
      | error error =>
          rcases reported index task error found output with
            ⟨later, inRest, event, inLater, isReport⟩
          have noReport := notReported_of_run run found caller removing graceful later inRest
            event inLater
          rw [caller, noReport] at isReport
          cases isReport
  · trivial

end System

/-- Address failures and fault hooks go together in a run if and only if no removal
fails that the cleanup of a graceful shutdown awaits. -/
theorem faultsReported_iff (process : HaProcess) (startupAt scheduledAt : Int)
    (trace : List SystemTransition) (final : SystemState)
    (run : (addressSystem process).machine.Run
      (Spawner.start (process.startRun startupAt scheduledAt)) trace final)
    (completed : Completed final) :
    FaultsReported process trace ↔ ∀ next ∈ trace, RemovesCleanly next := by
  constructor
  · intro faultsReported next member
    rcases List.append_of_mem member with ⟨taken, rest, rfl⟩
    apply removesCleanly_of_run run
    intro index task error
    exact faultsReported.reported taken next rest index task error rfl
  · intro clean
    constructor
    case reported =>
      rintro taken next rest index task error rfl found failed
      exact reported_of_run run completed (clean next (by simp)) found failed
    case justified =>
      rintro taken next rest event rfl member executes
      exact justified_of_run run member executes

/-! ## A removal that fails at the exit -/

/-- A waiting node with a fault hook. -/
def watchfulRuntime : HaRuntimeConfig :=
  { demoRuntime "low" 100 false with
    hooks := { (demoRuntime "low" 100 false).hooks with onFault := some "notify" } }

def watchfulProcess : HaProcess :=
  { demoProcess "low" 100 false with runtime := watchfulRuntime }

def removedResult : CommandResult :=
  .ok { success := true, stderr := [] }

def refusedResult : CommandResult :=
  .ok { success := false, stderr := asBytes "RTNETLINK answers: Operation not permitted" }

def systemTrace (inputs : List (SpawningInput RunInput ActionInput)) :
    List SystemTransition :=
  (addressSystem watchfulProcess).machine.record
    (Spawner.start (watchfulProcess.startRun 0 0)) inputs

/-- The loop fails, and both the removal of its start and that of its exit are
refused. -/
def refusedFault : List (SpawningInput RunInput ActionInput) := [
  .main (.event (.refresh 0)),
  .task 0 (.command refusedResult),
  .main (.event (.receive (.error { kind := .addrInUse, text := "in use" }) 1)),
  .main (.beginCleanup 1),
  .task 0 .applied,
  .task 1 (.command refusedResult),
  .task 1 .applied,
  .main .addressesRemoved,
  .task 0 .faultHook,
  .main .faultHookReturned]

/-- The node is shut down, and the removal of its exit is refused. -/
def refusedShutdown : List (SpawningInput RunInput ActionInput) := [
  .main (.event (.refresh 0)),
  .task 0 (.command removedResult),
  .task 0 .applied,
  .main .shutdown,
  .main (.beginCleanup 1),
  .task 1 (.command refusedResult),
  .task 1 .applied,
  .main .addressesRemoved]

theorem faultsReported_refusedFault :
    FaultsReported watchfulProcess (systemTrace refusedFault) ∧
      ((systemTrace refusedFault).flatMap (·.output)).countP executesFaultHook = 2 :=
  ⟨(faultsReported_iff watchfulProcess 0 0 (systemTrace refusedFault) _
      (Machine.run_record _ (by decide +kernel))
      ⟨by decide +kernel, by decide +kernel⟩).mpr (by decide +kernel),
    by decide +kernel⟩

/-- The removal of the exit fails, and no fault hook is executed in the run. -/
theorem not_faultsReported :
    ¬∀ (process : HaProcess) (startupAt scheduledAt : Int)
      (trace : List SystemTransition) (final : SystemState),
      (addressSystem process).machine.Run
        (Spawner.start (process.startRun startupAt scheduledAt)) trace final →
      Completed final → FaultsReported process trace := by
  intro always
  have faultsReported := always watchfulProcess 0 0 (systemTrace refusedShutdown) _
    (Machine.run_record _ (by decide +kernel)) ⟨by decide +kernel, by decide +kernel⟩
  have noHook : ∀ next ∈ systemTrace refusedShutdown, ∀ event ∈ next.output,
      executesFaultHook event = false := by decide +kernel
  obtain ⟨next, member, awaited, failed⟩ : ∃ next ∈ systemTrace refusedShutdown,
      next.before.tasks[1]?.map (·.caller) = some .cleanup ∧
        .task 1 (.applied (.error (.msg ("address action ip del 10.0.0.10/24 failed: " ++
          "RTNETLINK answers: Operation not permitted")))) ∈ next.output := by
    decide +kernel
  rcases Option.map_eq_some_iff.mp awaited with ⟨task, found, _⟩
  rcases List.append_of_mem member with ⟨taken, rest, split⟩
  rcases faultsReported.reported taken next rest 1 task _ split found failed with
    ⟨later, inRest, event, output, reported⟩
  have inTrace : later ∈ systemTrace refusedShutdown := by
    rw [split]
    exact List.mem_append_right _ (List.mem_cons_of_mem _ inRest)
  cases (executes_of_reports reported).symm.trans (noHook later inTrace event output)

end Gruezi.Ha
