import Gruezi.Ha.SideEffects

/-!
# `start_ha_service`

The service is three concurrent parties: the HA task, the API task, and the
caller, which selects over a shutdown signal and the two tasks.  The process
exits when the caller returns, and takes the tasks with it.
-/

namespace Gruezi.Ha

open Rust Lib HaProcess

/-- `tokio::task::JoinError`, by its display text: the task has panicked. -/
structure JoinError where
  text : String
  deriving DecidableEq, Repr

/-- What awaiting a `JoinHandle<Result<()>>` yields. -/
abbrev TaskResult := Except JoinError (Except Error Unit)

def handleTaskResult (result : TaskResult) (name : String) : Except Error Unit :=
  match result with
  | .error joinError =>
      .error (.context (name ++ " task failed to join") (.msg joinError.text))
  | .ok (.error error) => .error (.context (name ++ " task returned an error") error)
  | .ok (.ok ()) => .ok ()

/-- The task that runs `run_with_status`. -/
inductive HaTask where
  /-- Before the first pass of the loop. -/
  | starting
  /-- In the loop, in its cleanup, or returned from it. -/
  | running (run : RunState)
  /-- Returned without entering the loop: the socket could not be bound, or the
  peer address is invalid. -/
  | failed (error : Error)
  | panicked (joinError : JoinError)

/-- The result of the task, once it has one. -/
def HaTask.result : HaTask → Option TaskResult
  | .starting => none
  | .running run =>
      match run.phase with
      | .returned result => some (.ok result)
      | .refreshing | .selecting | .exiting _ _ | .removing _ _ | .faulting _ _ => none
  | .failed error => some (.ok (.error error))
  | .panicked joinError => some (.error joinError)

/-- The task that runs `run_ha_api`. -/
inductive ApiTask where
  | running
  | finished (result : TaskResult)

def ApiTask.result : ApiTask → Option TaskResult
  | .running => none
  | .finished result => some result

/-- Where `start_ha_service` awaits. -/
inductive ServicePhase where
  /-- In `tokio::select!`. -/
  | selecting
  /-- In `await_task(ha_task, "HA runtime")`. -/
  | awaitingHa
  /-- In `await_task(api_task, "HA status API")`. -/
  | awaitingApi
  | returned (result : Except Error Unit)

def ServicePhase.isReturned : ServicePhase → Bool
  | .returned _ => true
  | .selecting | .awaitingHa | .awaitingApi => false

structure ServiceState where
  haTask : HaTask
  apiTask : ApiTask
  /-- The value in the shutdown channel. -/
  shutdown : Bool
  phase : ServicePhase

inductive ServiceInput where
  | haFails (error : Error)
  | haEnters (startupAt scheduledAt : Int)
  | ha (input : RunInput)
  | haPanics (joinError : JoinError)
  | apiEnds (result : TaskResult)
  /-- `shutdown_signal` yields this result, and the select takes its arm. -/
  | signal (result : Except Error Unit)
  /-- The caller sees that the HA task has ended. -/
  | haJoined
  | apiJoined

namespace HaProcess

variable (process : HaProcess)

/-- A step of the HA task.  The shutdown arm of the loop waits for
`wait_for_shutdown`, which waits for the channel to hold `true`. -/
def stepHa (state : ServiceState) (input : RunInput) :
    Option (ServiceState × List Effect) :=
  match state.haTask, input, state.shutdown with
  | .running _, .shutdown, false => none
  | .running run, input, _ =>
      (process.stepRun run input).map fun (run, effects) =>
        ({ state with haTask := .running run }, effects)
  | .starting, _, _ | .failed _, _, _ | .panicked _, _, _ => none

/-- The task ends before it has entered its loop. -/
def failHa (state : ServiceState) (error : Error) : Option ServiceState :=
  match state.haTask with
  | .starting => some { state with haTask := .failed error }
  | .running _ | .failed _ | .panicked _ => none

/-- The task enters its loop. -/
def enterHa (state : ServiceState) (startupAt scheduledAt : Int) : Option ServiceState :=
  match state.haTask with
  | .starting =>
      some { state with haTask := .running (process.startRun startupAt scheduledAt) }
  | .running _ | .failed _ | .panicked _ => none

def panicHa (state : ServiceState) (joinError : JoinError) : Option ServiceState :=
  match state.haTask.result with
  | none => some { state with haTask := .panicked joinError }
  | some _ => none

def endApi (state : ServiceState) (result : TaskResult) : Option ServiceState :=
  match state.apiTask with
  | .running => some { state with apiTask := .finished result }
  | .finished _ => none

/-- The arm of the signal: `signal?` returns at once on an error. -/
def takeSignal (state : ServiceState) (result : Except Error Unit) :
    Option ServiceState :=
  match state.phase, result with
  | .selecting, .ok () => some { state with shutdown := true, phase := .awaitingHa }
  | .selecting, .error error => some { state with phase := .returned (.error error) }
  | .awaitingHa, _ | .awaitingApi, _ | .returned _, _ => none

/-- The arm of the HA task, or the end of the await for it. -/
def joinHa (state : ServiceState) : Option ServiceState :=
  match state.haTask.result, state.phase with
  | some result, .selecting =>
      some { state with
        shutdown := true
        phase := .returned (handleTaskResult result "HA runtime") }
  | some result, .awaitingHa =>
      match handleTaskResult result "HA runtime" with
      | .ok () => some { state with phase := .awaitingApi }
      | .error error => some { state with phase := .returned (.error error) }
  | some _, .awaitingApi | some _, .returned _ | none, _ => none

/-- The arm of the API task, which does not wait for the HA task, or the end of the
await for it. -/
def joinApi (state : ServiceState) : Option ServiceState :=
  match state.apiTask.result, state.phase with
  | some result, .selecting =>
      some { state with
        shutdown := true
        phase := .returned (handleTaskResult result "HA status API") }
  | some result, .awaitingApi =>
      some { state with phase := .returned (handleTaskResult result "HA status API") }
  | some _, .awaitingHa | some _, .returned _ | none, _ => none

/-- A step of one of the parties.  There is none once the caller has returned. -/
def stepService (state : ServiceState) (input : ServiceInput) :
    Option (ServiceState × List Effect) :=
  let silently (next : Option ServiceState) := next.map fun next => (next, [])
  if state.phase.isReturned then none
  else
    match input with
    | .haFails error => silently (failHa state error)
    | .haEnters startupAt scheduledAt =>
        silently (process.enterHa state startupAt scheduledAt)
    | .ha input => process.stepHa state input
    | .haPanics joinError => silently (panicHa state joinError)
    | .apiEnds result => silently (endApi state result)
    | .signal result => silently (takeSignal state result)
    | .haJoined => silently (joinHa state)
    | .apiJoined => silently (joinApi state)

/-- `start_ha_service`, after it has spawned its tasks. -/
def startHaService : Machine ServiceState ServiceInput Effect where
  step := process.stepService

end HaProcess

def ServiceState.start : ServiceState where
  haTask := .starting
  apiTask := .running
  shutdown := false
  phase := .selecting

/-- The task is in its loop, or in the cleanup after it. -/
def HaTask.inLoop : HaTask → Bool
  | .running run => (HaTask.running run).result.isNone
  | .starting | .failed _ | .panicked _ => false

/-- The arms of the select after which nobody waits for the HA task. -/
def ServiceInput.abandons : ServiceInput → Bool
  | .apiJoined | .signal (.error _) => true
  | .haFails _ | .haEnters _ _ | .ha _ | .haPanics _ | .apiEnds _ | .signal (.ok ())
  | .haJoined => false

/-! ## What a step can do -/

/-- The steps by what becomes of the HA task and of the caller. -/
inductive ServiceSteps (process : HaProcess) (state : ServiceState) :
    ServiceInput → ServiceState → List Effect → Prop where
  | haMoves {run after : RunState} {input : RunInput} {effects : List Effect} :
      state.haTask = .running run →
      process.stepRun run input = some (after, effects) →
      ServiceSteps process state (.ha input) { state with haTask := .running after }
        effects
  | haEnters {startupAt scheduledAt : Int} :
      state.haTask = .starting →
      ServiceSteps process state (.haEnters startupAt scheduledAt)
        { state with haTask := .running (process.startRun startupAt scheduledAt) } []
  | haFails {error : Error} :
      state.haTask = .starting →
      ServiceSteps process state (.haFails error)
        { state with haTask := .failed error } []
  | haPanics {joinError : JoinError} :
      state.haTask.result = none →
      ServiceSteps process state (.haPanics joinError)
        { state with haTask := .panicked joinError } []
  | apiEnds {result : TaskResult} :
      ServiceSteps process state (.apiEnds result)
        { state with apiTask := .finished result } []
  | signalled :
      state.phase = .selecting →
      ServiceSteps process state (.signal (.ok ()))
        { state with shutdown := true, phase := .awaitingHa } []
  | haJoined {shutdown : Bool} {phase : ServicePhase} :
      state.haTask.result.isSome = true →
      ServiceSteps process state .haJoined { state with shutdown, phase } []
  | apiJoined {phase : ServicePhase} :
      state.phase = .awaitingApi →
      ServiceSteps process state .apiJoined { state with phase } []
  | abandoned {input : ServiceInput} {shutdown : Bool} {result : Except Error Unit} :
      state.phase = .selecting →
      input.abandons = true →
      ServiceSteps process state input
        { state with shutdown, phase := .returned result } []

section Steps

variable {process : HaProcess} {state next : ServiceState} {input : ServiceInput}
variable {effects : List Effect}

theorem haMoves_of_stepHa {input : RunInput}
    (taken : process.stepHa state input = some (next, effects)) :
    ServiceSteps process state (.ha input) next effects := by
  unfold stepHa at taken
  split at taken
  · cases taken
  · next run _ _ running _ =>
      rcases Option.map_eq_some_iff.mp taken with ⟨⟨after, done⟩, stepped, equal⟩
      cases equal
      exact .haMoves running stepped
  all_goals cases taken

theorem steps_of_joinHa (joined : joinHa state = some next) :
    ServiceSteps process state .haJoined next [] := by
  unfold joinHa at joined
  split at joined
  · next ended _ =>
      cases joined
      exact .haJoined (by rw [ended]; rfl)
  · next ended _ =>
      split at joined <;> cases joined <;> exact .haJoined (by rw [ended]; rfl)
  all_goals cases joined

theorem steps_of_joinApi (joined : joinApi state = some next) :
    ServiceSteps process state .apiJoined next [] := by
  unfold joinApi at joined
  split at joined
  · next selecting =>
      cases joined
      exact .abandoned selecting rfl
  · next awaiting =>
      cases joined
      exact .apiJoined awaiting
  all_goals cases joined

theorem steps_of_takeSignal {result : Except Error Unit}
    (signalled : takeSignal state result = some next) :
    ServiceSteps process state (.signal result) next [] := by
  unfold takeSignal at signalled
  split at signalled
  · next selecting =>
      cases signalled
      exact .signalled selecting
  · next selecting =>
      cases signalled
      exact .abandoned selecting rfl
  all_goals cases signalled

/-- The HA task starts, and ends before or in its loop. -/
theorem steps_of_enterHa {startupAt scheduledAt : Int}
    (entered : process.enterHa state startupAt scheduledAt = some next) :
    ServiceSteps process state (.haEnters startupAt scheduledAt) next [] := by
  unfold enterHa at entered
  split at entered
  · next starting =>
      cases entered
      exact .haEnters starting
  all_goals cases entered

theorem steps_of_failHa {error : Error} (failed : failHa state error = some next) :
    ServiceSteps process state (.haFails error) next [] := by
  unfold failHa at failed
  split at failed
  · next starting =>
      cases failed
      exact .haFails starting
  all_goals cases failed

theorem steps_of_panicHa {joinError : JoinError}
    (panicked : panicHa state joinError = some next) :
    ServiceSteps process state (.haPanics joinError) next [] := by
  unfold panicHa at panicked
  split at panicked
  · next unfinished =>
      cases panicked
      exact .haPanics unfinished
  · cases panicked

theorem steps_of_endApi {result : TaskResult} (ended : endApi state result = some next) :
    ServiceSteps process state (.apiEnds result) next [] := by
  unfold endApi at ended
  split at ended
  · cases ended
    exact .apiEnds
  · cases ended

/-- A step is one of these, and none is taken once the caller has returned. -/
theorem serviceSteps_of_stepService
    (taken : process.stepService state input = some (next, effects)) :
    state.phase.isReturned = false ∧ ServiceSteps process state input next effects := by
  have silently : ∀ {stepped : Option ServiceState},
      stepped.map (fun next => (next, ([] : List Effect))) = some (next, effects) →
        stepped = some next ∧ effects = [] := by
    intro stepped mapped
    rcases Option.map_eq_some_iff.mp mapped with ⟨_, found, equal⟩
    cases equal
    exact ⟨found, rfl⟩
  unfold stepService at taken
  split at taken
  · cases taken
  · next awaiting =>
      refine ⟨by simpa using awaiting, ?_⟩
      cases input with
      | ha input => exact haMoves_of_stepHa taken
      | haFails error =>
          rcases silently taken with ⟨stepped, rfl⟩
          exact steps_of_failHa stepped
      | haEnters startupAt scheduledAt =>
          rcases silently taken with ⟨stepped, rfl⟩
          exact steps_of_enterHa stepped
      | haPanics joinError =>
          rcases silently taken with ⟨stepped, rfl⟩
          exact steps_of_panicHa stepped
      | apiEnds result =>
          rcases silently taken with ⟨stepped, rfl⟩
          exact steps_of_endApi stepped
      | signal result =>
          rcases silently taken with ⟨stepped, rfl⟩
          exact steps_of_takeSignal stepped
      | haJoined =>
          rcases silently taken with ⟨stepped, rfl⟩
          exact steps_of_joinHa stepped
      | apiJoined =>
          rcases silently taken with ⟨stepped, rfl⟩
          exact steps_of_joinApi stepped

end Steps

/-! ## Along a run -/

/-- A task in its loop has not returned. -/
theorem HaTask.inLoop_running {run : RunState} :
    (HaTask.running run).inLoop = true ↔ ∀ result, run.phase ≠ .returned result := by
  cases phase : run.phase <;> simp [inLoop, result, phase]

theorem HaTask.inLoop_of_result {haTask : HaTask} (ended : haTask.result.isSome = true) :
    haTask.inLoop = false := by
  cases haTask with
  | running run => rw [inLoop, Option.isNone_eq_false_iff, ended]
  | starting | failed | panicked => rfl

/-- A step that leaves the select by an abandoning arm does not find the HA task in
its loop. -/
def Waits (next : Transition ServiceState ServiceInput Effect) : Prop :=
  next.before.phase = .selecting → next.input.abandons = true →
    next.before.haTask.inLoop = false

/-- When the caller awaits the API task, the HA task has ended, and when it has
returned, the HA task is not in its loop. -/
structure Supervised (state : ServiceState) : Prop where
  awaitingApi : state.phase = .awaitingApi → state.haTask.result.isSome = true
  returned : ∀ result, state.phase = .returned result → state.haTask.inLoop = false

section Run

variable {process : HaProcess} {final : ServiceState}
variable {taken trace : List (Transition ServiceState ServiceInput Effect)}
variable {next : Transition ServiceState ServiceInput Effect}

theorem Supervised.step (nextTaken : process.startHaService.Takes next) (waits : Waits next)
    (supervised : Supervised next.before) : Supervised next.after := by
  rcases serviceSteps_of_stepService nextTaken with ⟨awaiting, steps⟩
  rw [Waits] at waits
  have notReturned : ∀ result, next.before.phase ≠ .returned result := by
    intro result returned
    rw [returned] at awaiting
    cases awaiting
  generalize next.before = state, next.input = input, next.after = after,
    next.output = output at steps waits supervised notReturned
  cases steps with
  | haMoves running stepped =>
      refine ⟨?_, fun result returned => absurd returned (notReturned result)⟩
      intro awaitingApi
      have ended := HaTask.inLoop_of_result (supervised.awaitingApi awaitingApi)
      have inLoop := HaTask.inLoop_running.mpr (steps_of_stepRun stepped).not_returned
      rw [running, inLoop] at ended
      cases ended
  | haEnters starting | haFails starting =>
      refine ⟨?_, fun result returned => absurd returned (notReturned result)⟩
      intro awaitingApi
      have ended := supervised.awaitingApi awaitingApi
      rw [starting] at ended
      cases ended
  | haPanics unfinished =>
      refine ⟨?_, fun result returned => absurd returned (notReturned result)⟩
      intro awaitingApi
      have ended := supervised.awaitingApi awaitingApi
      rw [unfinished] at ended
      cases ended
  | apiEnds => exact ⟨supervised.awaitingApi, supervised.returned⟩
  | signalled => exact ⟨nofun, nofun⟩
  | haJoined ended =>
      exact ⟨fun _ => ended, fun _ _ => HaTask.inLoop_of_result ended⟩
  | apiJoined awaitingApi =>
      have ended := supervised.awaitingApi awaitingApi
      exact ⟨fun _ => ended, fun _ _ => HaTask.inLoop_of_result ended⟩
  | abandoned selecting abandons =>
      exact ⟨nofun, fun _ _ => waits selecting abandons⟩

theorem supervised_of_run (run : process.startHaService.Run .start trace final)
    (waits : ∀ next ∈ trace, Waits next) : Supervised final := by
  apply run.invariant (motive := Supervised)
  · exact ⟨nofun, nofun⟩
  · intro next member nextTaken supervised
    exact supervised.step nextTaken (waits next member)

/-- The effects of the service are those of the loop of its HA task. -/
theorem loop_of_run (run : process.startHaService.Run .start trace final) :
    (final.haTask = .starting → trace.flatMap (·.output) = []) ∧
      ∀ loop, final.haTask = .running loop → ∃ startupAt scheduledAt looped,
        process.runWithStatus.Run (process.startRun startupAt scheduledAt) looped loop ∧
          effectsOf looped = trace.flatMap (·.output) := by
  apply run.history_induction (motive := fun taken state =>
    (state.haTask = .starting → taken.flatMap (·.output) = []) ∧
      ∀ loop, state.haTask = .running loop → ∃ startupAt scheduledAt looped,
        process.runWithStatus.Run (process.startRun startupAt scheduledAt) looped loop ∧
          effectsOf looped = taken.flatMap (·.output))
  · refine ⟨fun _ => rfl, ?_⟩
    intro loop running
    cases running
  · rintro taken next - nextTaken - ⟨quiet, loops⟩
    have steps := (serviceSteps_of_stepService nextTaken).2
    simp only [List.flatMap_append, List.flatMap_singleton]
    generalize next.before = state, next.input = input, next.after = after,
      next.output = output at steps quiet loops
    cases steps with
    | @haMoves before after input _ running stepped =>
        refine ⟨HaTask.noConfusion, ?_⟩
        rintro loop ⟨⟩
        rcases loops before running with ⟨startupAt, scheduledAt, looped, ran, effects⟩
        let moved : Transition RunState RunInput Effect := ⟨before, input, after, output⟩
        have longer : process.runWithStatus.Run (process.startRun startupAt scheduledAt)
            (looped ++ [moved]) moved.after := Machine.Run.concat ran stepped
        refine ⟨startupAt, scheduledAt, looped ++ [moved], longer, ?_⟩
        rw [effectsOf_append_singleton, effects]
    | haEnters starting =>
        refine ⟨HaTask.noConfusion, ?_⟩
        rintro loop ⟨⟩
        rw [quiet starting]
        exact ⟨_, _, [], .nil _, rfl⟩
    | haFails | haPanics =>
        refine ⟨HaTask.noConfusion, ?_⟩
        intro loop running
        cases running
    | apiEnds | signalled | haJoined | apiJoined | abandoned =>
        simp only [List.append_nil]
        exact ⟨quiet, loops⟩

/-- The removal of the addresses has been awaited in a loop that has returned. -/
theorem removal_of_returned {startupAt scheduledAt : Int} {loop : RunState}
    {looped : List (Transition RunState RunInput Effect)} {result : Except Error Unit}
    (ran : process.runWithStatus.Run (process.startRun startupAt scheduledAt) looped loop)
    (returned : loop.phase = .returned result) :
    .applyAddresses (addressManager process.runtime) .remove ∈ effectsOf looped := by
  have exits := exitEffects_of_run ran
  simp only [ExitEffects, returned] at exits
  rcases exits with ⟨earlier, left, now, _, _, _, effects⟩
  rw [effects]
  simp

/-- Nothing follows the return of the caller. -/
theorem eq_nil_of_service_returned {state : ServiceState} {result : Except Error Unit}
    (returned : state.phase = .returned result)
    (run : process.startHaService.Run state trace final) : trace = [] := by
  cases run with
  | nil => rfl
  | cons nextTaken _ =>
      have awaiting := (serviceSteps_of_stepService nextTaken).1
      rw [returned] at awaiting
      cases awaiting

end Run

/-- When `start_ha_service` returns, a HA task that has entered its loop has
returned from its cleanup, and the addresses are removed. -/
def ExitsClean (process : HaProcess)
    (trace : List (Transition ServiceState ServiceInput Effect)) (final : ServiceState) :
    Prop :=
  ∀ result loop, final.phase = .returned result → final.haTask = .running loop →
    (∃ outcome, loop.phase = .returned outcome) ∧
      .applyAddresses (addressManager process.runtime) .remove ∈ trace.flatMap (·.output)

/-- The service exits clean if and only if it never leaves the select by the arm of
the API task, or by a failed signal, while the HA task is in its loop. -/
theorem exitsClean_iff (process : HaProcess)
    (trace : List (Transition ServiceState ServiceInput Effect)) (final : ServiceState)
    (run : process.startHaService.Run .start trace final) :
    ExitsClean process trace final ↔ ∀ next ∈ trace, Waits next := by
  constructor
  · intro clean next member selecting abandons
    rcases List.append_of_mem member with ⟨taken, rest, rfl⟩
    rcases run.split_at with ⟨_, nextTaken, after⟩
    have steps := (serviceSteps_of_stepService nextTaken).2
    have left : next.after.haTask = next.before.haTask ∧
        ∃ result, next.after.phase = .returned result := by
      generalize next.before = state, next.input = input, next.after = later,
        next.output = output at steps selecting abandons
      cases steps with
      | abandoned => exact ⟨rfl, _, rfl⟩
      | apiJoined awaitingApi => cases selecting.symm.trans awaitingApi
      | haMoves | haEnters | haFails | haPanics | apiEnds | signalled | haJoined =>
          cases abandons
    rcases left with ⟨sameTask, result, returned⟩
    cases eq_nil_of_service_returned returned after
    rw [← after.eq_of_nil] at clean
    rw [← sameTask]
    cases running : next.after.haTask with
    | running loop =>
        rcases (clean result loop returned running).1 with ⟨outcome, ended⟩
        rw [HaTask.inLoop, HaTask.result, ended]
        rfl
    | starting | failed | panicked => rfl
  · intro waits result loop returned running
    have settled := (supervised_of_run run waits).returned result returned
    have ended : ∃ outcome, loop.phase = .returned outcome := by
      by_contra inLoop
      rw [running, HaTask.inLoop_running.mpr (not_exists.mp inLoop)] at settled
      cases settled
    rcases ended with ⟨outcome, ended⟩
    rcases (loop_of_run run).2 loop running with ⟨_, _, looped, ran, effects⟩
    refine ⟨⟨outcome, ended⟩, ?_⟩
    rw [← effects]
    exact removal_of_returned ran ended

/-! ## A shutdown, and a failure of the API -/

/-- A signal arrives while the HA task owns the address. -/
def shutdownTrace : List (Transition ServiceState ServiceInput Effect) :=
  watchedProcess.startHaService.record .start [
    .haEnters 0 0,
    .ha (.event (.refresh 0)),
    .ha (.event (.send (.ok ()) 3000000000 3000000000)),
    .ha (.event (.refresh 3000000000)),
    .signal (.ok ()),
    .ha .shutdown,
    .ha (.beginCleanup 3500000000),
    .apiEnds (.ok (.ok ())),
    .ha .addressesRemoved,
    .haJoined,
    .apiJoined]

theorem exitsClean_iff_shutdown :
    ExitsClean watchedProcess shutdownTrace
        (Machine.finalState .start shutdownTrace) ∧
      (Machine.finalState .start shutdownTrace).phase.isReturned = true := by
  have run : watchedProcess.startHaService.Run .start shutdownTrace
      (Machine.finalState .start shutdownTrace) :=
    Machine.run_record _ (by decide +kernel)
  have waits : ∀ next ∈ shutdownTrace, next.input.abandons = true →
      next.before.haTask.inLoop = false := by decide +kernel
  exact ⟨(exitsClean_iff watchedProcess shutdownTrace _ run).mpr
    fun next member _ => waits next member, by decide +kernel⟩

/-- The port of the API is taken: its task ends with an error while the HA task owns
the address. -/
def failureTrace : List (Transition ServiceState ServiceInput Effect) :=
  watchedProcess.startHaService.record .start [
    .haEnters 0 0,
    .ha (.event (.refresh 0)),
    .ha (.event (.send (.ok ()) 3000000000 3000000000)),
    .ha (.event (.refresh 3000000000)),
    .apiEnds (.ok (.error (.io { kind := .addrInUse, text := "Address already in use" }))),
    .apiJoined]

/-- The service returns, and the HA task is still in its loop. -/
theorem not_exitsClean :
    ¬∀ (process : HaProcess)
      (trace : List (Transition ServiceState ServiceInput Effect)) (final : ServiceState),
      process.startHaService.Run .start trace final → ExitsClean process trace final := by
  intro claimed
  have run : watchedProcess.startHaService.Run .start failureTrace
      (Machine.finalState .start failureTrace) :=
    Machine.run_record _ (by decide +kernel)
  have clean := claimed watchedProcess failureTrace _ run
  have returned : (Machine.finalState .start failureTrace).phase.isReturned = true := by
    decide +kernel
  have inLoop : (Machine.finalState .start failureTrace).haTask.inLoop = true := by
    decide +kernel
  generalize Machine.finalState .start failureTrace = final at clean returned inLoop
  rcases final with ⟨haTask, _, _, phase⟩
  cases phase with
  | selecting | awaitingHa | awaitingApi => cases returned
  | returned result =>
      cases haTask with
      | starting | failed | panicked => cases inLoop
      | running loop =>
          rcases (clean result loop rfl rfl).1 with ⟨outcome, ended⟩
          exact HaTask.inLoop_running.mp inLoop outcome ended

end Gruezi.Ha
