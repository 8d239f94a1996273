import Gruezi.Ha.Exits
import Gruezi.Ha.Service
import Gruezi.Lib.Refinement
import Gruezi.Lib.Watch

/-!
# The shutdown channel

`start_ha_service` with the channel it shuts its tasks down by.  Each task waits for
`wait_for_shutdown` on a receiver of its own, and the two waits interleave with the
sends in every way.  The service of two tasks that see the flag at once is refined by
this one: no task sees it early, and none that looks again after it was set misses it.
-/

namespace Gruezi.Ha

open Rust Lib HaProcess

/-- `wait_for_shutdown`, from one of its steps to the next. -/
def waitForShutdown {χ : Type} [Watch χ Bool] (channel : χ) (waiter : Waiter) :
    Option Waiter :=
  waiter.step id channel

/-- The service, with its channel and where the two waits have come to. -/
structure ShutdownState (χ : Type) where
  service : ServiceState
  channel : χ
  haWaiter : Waiter
  apiWaiter : Waiter

inductive ShutdownInput where
  | service (input : ServiceInput)
  /-- The select of the loop polls its `shutdown`. -/
  | haPolls
  /-- The API server polls its `shutdown`. -/
  | apiPolls

/-- The caller sends `true`: in each arm of its select, apart from that of a failed
signal. -/
def sendsShutdown (state : ServiceState) (input : ServiceInput) : Bool :=
  match state.phase, input with
  | .selecting, .signal (.ok ()) | .selecting, .haJoined | .selecting, .apiJoined => true
  | _, _ => false

/-- The HTTP server of the API, by the results it may end with when its own wait has come to
some point.  With a graceful shutdown it ends without an error only after that wait. -/
structure ApiServer where
  ends : Waiter → TaskResult → Bool
  done_of_ends : ∀ waiter, ends waiter (.ok (.ok ())) = true → waiter = .done

namespace HaProcess

variable {χ : Type} [Watch χ Bool] (process : HaProcess) (api : ApiServer)

/-- A step of one of the parties.  The loop takes the arm of `shutdown` as soon as the
wait is over. -/
def stepServiceInput (state : ShutdownState χ) (input : ServiceInput) :
    Option (ShutdownState χ × List Effect) :=
  let channel :=
    if sendsShutdown state.service input then Watch.send state.channel true else state.channel
  let step := (process.stepService state.service input).map fun (service, effects) =>
    ({ state with service, channel }, effects)
  match input with
  | .ha .shutdown => none
  | .apiEnds result => if api.ends state.apiWaiter result then step else none
  | _ => step

/-- The loop polls its wait, and leaves its select when that is over. -/
def pollHa (state : ShutdownState χ) : Option (ShutdownState χ × List Effect) :=
  match state.service.haTask with
  | .running run =>
      match run.phase with
      | .selecting =>
          (waitForShutdown state.channel state.haWaiter).bind fun haWaiter =>
            if haWaiter = .done then
              (process.stepRun run .shutdown).map fun (run, effects) =>
                ({ state with
                  service := { state.service with haTask := .running run }
                  haWaiter }, effects)
            else some ({ state with haWaiter }, [])
      | .refreshing | .exiting _ _ | .removing _ _ | .faulting _ _ | .returned _ => none
  | .starting | .failed _ | .panicked _ => none

def pollApi (state : ShutdownState χ) : Option (ShutdownState χ × List Effect) :=
  (waitForShutdown state.channel state.apiWaiter).map fun apiWaiter =>
    ({ state with apiWaiter }, [])

def stepShutdown (state : ShutdownState χ) (input : ShutdownInput) :
    Option (ShutdownState χ × List Effect) :=
  if state.service.phase.isReturned then none
  else
    match input with
    | .service input => process.stepServiceInput api state input
    | .haPolls => process.pollHa state
    | .apiPolls => pollApi state

/-- `start_ha_service` with its shutdown channel, after it has spawned its tasks. -/
def shutdownService : Machine (ShutdownState χ) ShutdownInput Effect where
  step := process.stepShutdown api

end HaProcess

def ShutdownState.start {χ : Type} [Watch χ Bool] : ShutdownState χ where
  service := .start
  channel := Watch.channel false
  haWaiter := .starting (Watch.version (Watch.channel false : χ))
  apiWaiter := .starting (Watch.version (Watch.channel false : χ))

/-! ## The flag of the service -/

section Flag

variable {process : HaProcess} {state next : ServiceState} {input : ServiceInput}
variable {effects : List Effect}

/-- The flag is set where the caller sends, and not before it leaves its select. -/
theorem shutdown_of_stepService
    (taken : process.stepService state input = some (next, effects)) :
    next.shutdown = (state.shutdown || sendsShutdown state input) ∧
      (next.phase = .selecting →
        state.phase = .selecting ∧ sendsShutdown state input = false) := by
  simp only [stepService] at taken
  split at taken
  · cases taken
  · cases input with
    | ha input =>
        simp only [stepHa] at taken
        split at taken
        · cases taken
        · rcases Option.map_eq_some_iff.mp taken with ⟨_, _, equal⟩
          cases equal
          simp [sendsShutdown]
        all_goals cases taken
    | haEnters startupAt scheduledAt =>
        simp only [enterHa] at taken
        split at taken <;> cases taken
        simp [sendsShutdown]
    | haFails error =>
        simp only [failHa] at taken
        split at taken <;> cases taken
        simp [sendsShutdown]
    | haPanics joinError =>
        simp only [panicHa] at taken
        split at taken <;> cases taken
        simp [sendsShutdown]
    | apiEnds result =>
        simp only [endApi] at taken
        split at taken <;> cases taken
        simp [sendsShutdown]
    | signal result =>
        simp only [takeSignal] at taken
        split at taken
        · next selecting =>
            cases taken
            simp [sendsShutdown, selecting]
        · next selecting =>
            cases taken
            simp [sendsShutdown, selecting]
        all_goals cases taken
    | haJoined =>
        simp only [joinHa] at taken
        split at taken
        · next selecting =>
            cases taken
            simp [sendsShutdown, selecting]
        · next awaiting =>
            split at taken <;> cases taken <;> simp [sendsShutdown, awaiting]
        all_goals cases taken
    | apiJoined =>
        simp only [joinApi] at taken
        split at taken
        · next selecting =>
            cases taken
            simp [sendsShutdown, selecting]
        · next awaiting =>
            cases taken
            simp [sendsShutdown, awaiting]
        all_goals cases taken

end Flag

/-! ## What a step can do -/

inductive ShutdownSteps {χ : Type} [Watch χ Bool] (process : HaProcess) (state : ShutdownState χ) :
    ShutdownInput → ShutdownState χ → List Effect → Prop where
  | serves {input : ServiceInput} {service : ServiceState} {effects : List Effect} :
      process.stepService state.service input = some (service, effects) →
      input ≠ .ha .shutdown →
      (input = .apiEnds (.ok (.ok ())) → state.apiWaiter = .done) →
      ShutdownSteps process state (.service input)
        { state with
          service
          channel :=
            if sendsShutdown state.service input then Watch.send state.channel true
            else state.channel } effects
  | haWaits {haWaiter : Waiter} :
      waitForShutdown state.channel state.haWaiter = some haWaiter →
      haWaiter ≠ .done →
      ShutdownSteps process state .haPolls { state with haWaiter } []
  | haWakes {run after : RunState} {effects : List Effect} :
      waitForShutdown state.channel state.haWaiter = some .done →
      state.service.haTask = .running run →
      run.phase = .selecting →
      process.stepRun run .shutdown = some (after, effects) →
      ShutdownSteps process state .haPolls
        { state with
          service := { state.service with haTask := .running after }
          haWaiter := .done } effects
  | apiPolls {apiWaiter : Waiter} :
      waitForShutdown state.channel state.apiWaiter = some apiWaiter →
      ShutdownSteps process state .apiPolls { state with apiWaiter } []

section Steps

variable {χ : Type} [Watch χ Bool] {api : ApiServer}
variable {process : HaProcess} {state next : ShutdownState χ} {input : ShutdownInput}
variable {effects : List Effect}

theorem steps_of_stepServiceInput {input : ServiceInput}
    (taken : process.stepServiceInput api state input = some (next, effects)) :
    ShutdownSteps process state (.service input) next effects := by
  have serves : input ≠ .ha .shutdown →
      (input = .apiEnds (.ok (.ok ())) → state.apiWaiter = .done) →
      (process.stepService state.service input).map (fun (service, effects) =>
        ({ state with
          service
          channel :=
            if sendsShutdown state.service input then Watch.send state.channel true
            else state.channel }, effects)) = some (next, effects) →
      ShutdownSteps process state (.service input) next effects := by
    intro noShutdown graceful mapped
    rcases Option.map_eq_some_iff.mp mapped with ⟨⟨service, done⟩, stepped, equal⟩
    cases equal
    exact .serves stepped noShutdown graceful
  simp only [stepServiceInput] at taken
  split at taken
  · cases taken
  · next result =>
      split at taken
      · next ends =>
          refine serves nofun ?_ taken
          rintro ⟨⟩
          exact api.done_of_ends _ ends
      · cases taken
  · next noShutdown notGraceful =>
      exact serves noShutdown (fun graceful => absurd graceful (notGraceful _)) taken

theorem steps_of_pollHa (polled : process.pollHa state = some (next, effects)) :
    ShutdownSteps process state .haPolls next effects := by
  simp only [pollHa] at polled
  split at polled
  · next run running =>
      split at polled
      · next selecting =>
        rcases Option.bind_eq_some_iff.mp polled with ⟨haWaiter, waited, polled⟩
        split at polled
        · next ended =>
            rcases Option.map_eq_some_iff.mp polled with ⟨⟨after, done⟩, stepped, equal⟩
            cases equal
            subst ended
            exact .haWakes waited running selecting stepped
        · next unfinished =>
            cases polled
            exact .haWaits waited unfinished
      all_goals cases polled
  all_goals cases polled

/-- A step is one of these, and none is taken once the caller has returned. -/
theorem shutdownSteps_of_stepShutdown
    (taken : process.stepShutdown api state input = some (next, effects)) :
    state.service.phase.isReturned = false ∧
      ShutdownSteps process state input next effects := by
  simp only [stepShutdown] at taken
  split at taken
  · cases taken
  · next awaiting =>
      refine ⟨by simpa using awaiting, ?_⟩
      cases input with
      | service input => exact steps_of_stepServiceInput taken
      | haPolls => exact steps_of_pollHa taken
      | apiPolls =>
          rcases Option.map_eq_some_iff.mp taken with ⟨apiWaiter, waited, equal⟩
          cases equal
          exact .apiPolls waited

end Steps

/-! ## The flag and the channel agree -/

/-- What holds in every state of the service: the channel holds the flag, no wait sleeps
on it once it is set, and whatever has ended for it has ended after it was set. -/
structure ShutdownState.Inv {χ : Type} [Watch χ Bool] (state : ShutdownState χ) : Prop where
  value : Watch.value state.channel = state.service.shutdown
  opened : Watch.closed state.channel = false
  haAlert : Waiter.Alert id state.channel state.haWaiter
  apiAlert : Waiter.Alert id state.channel state.apiWaiter
  unset : state.service.phase = .selecting → state.service.shutdown = false
  apiWaited : state.apiWaiter = .done → state.service.shutdown = true
  apiEnded : state.service.apiTask.result = some (.ok (.ok ())) →
    state.service.shutdown = true
  haEnded : ∀ run, state.service.haTask = .running run →
    run.phase.exitResult = some (.ok ()) → state.service.shutdown = true
  /-- Nobody polls a wait that is over. -/
  haWoken : state.haWaiter = .done → state.service.haTask ≠ .starting ∧
    ∀ run, state.service.haTask = .running run → run.phase.exitResult ≠ none

section Inv

variable {χ : Type} [Watch χ Bool] {api : ApiServer}
variable {process : HaProcess} {state : ShutdownState χ} {service : ServiceState}
variable {input : ServiceInput} {effects : List Effect}
variable {next : Transition (ShutdownState χ) ShutdownInput Effect}

/-- The loop ends without an error by the shutdown only. -/
theorem exitResult_of_stepRun {run after : RunState} {input : RunInput}
    (stepped : process.stepRun run input = some (after, effects))
    (noShutdown : input ≠ .shutdown) (ended : after.phase.exitResult = some (.ok ())) :
    run.phase.exitResult = some (.ok ()) := by
  have taken : process.runWithStatus.Takes ⟨run, input, after, effects⟩ := stepped
  cases phase : run.phase.exitResult with
  | some result => exact (exitResult_of_takes taken phase).symm.trans ended
  | none =>
      cases (ends_iff_of_takes taken phase).mpr ended with
      | shutdown input => exact absurd input noShutdown

/-- The two tasks end without an error by the shutdown only. -/
theorem ended_of_steps {before : ServiceState}
    (steps : ServiceSteps process before input service effects)
    (noShutdown : input ≠ .ha .shutdown) :
    (service.apiTask.result = some (.ok (.ok ())) →
      before.apiTask.result = some (.ok (.ok ())) ∨
        input = .apiEnds (.ok (.ok ()))) ∧
    (∀ run, service.haTask = .running run → run.phase.exitResult = some (.ok ()) →
      ∃ earlier, before.haTask = .running earlier ∧
        earlier.phase.exitResult = some (.ok ())) := by
  cases steps with
  | haMoves running stepped =>
      refine ⟨.inl, ?_⟩
      rintro run ⟨⟩ ended
      exact ⟨_, running, exitResult_of_stepRun stepped (by simpa using noShutdown) ended⟩
  | haEnters starting =>
      refine ⟨.inl, ?_⟩
      rintro run ⟨⟩ ended
      cases ended
  | haFails | haPanics => exact ⟨.inl, fun _ running => HaTask.noConfusion running⟩
  | apiEnds =>
      refine ⟨?_, fun run running ended => ⟨run, running, ended⟩⟩
      intro graceful
      cases Option.some.inj graceful
      exact .inr rfl
  | signalled | haJoined | apiJoined | abandoned =>
      exact ⟨.inl, fun run running ended => ⟨run, running, ended⟩⟩

/-- A loop that has left its select does not come back to it. -/
theorem woken_of_steps {before : ServiceState}
    (steps : ServiceSteps process before input service effects)
    (woken : before.haTask ≠ .starting ∧
      ∀ run, before.haTask = .running run → run.phase.exitResult ≠ none) :
    service.haTask ≠ .starting ∧
      ∀ run, service.haTask = .running run → run.phase.exitResult ≠ none := by
  cases steps with
  | @haMoves run after input effects running stepped =>
      refine ⟨HaTask.noConfusion, ?_⟩
      rintro run ⟨⟩
      have taken : process.runWithStatus.Takes ⟨run, input, after, effects⟩ := stepped
      rcases Option.ne_none_iff_exists'.mp (woken.2 run running) with ⟨result, ended⟩
      rw [exitResult_of_takes taken ended]
      exact Option.some_ne_none result
  | haEnters starting | haFails starting => exact absurd starting woken.1
  | haPanics => exact ⟨HaTask.noConfusion, fun _ running => HaTask.noConfusion running⟩
  | apiEnds | signalled | haJoined | apiJoined | abandoned => exact woken

theorem ShutdownState.Inv.serves (inv : state.Inv)
    (stepped : process.stepService state.service input = some (service, effects))
    (noShutdown : input ≠ .ha .shutdown)
    (graceful : input = .apiEnds (.ok (.ok ())) → state.apiWaiter = .done) :
    ShutdownState.Inv { state with
      service
      channel :=
        if sendsShutdown state.service input then Watch.send state.channel true
        else state.channel } := by
  rcases shutdown_of_stepService stepped with ⟨flag, selects⟩
  rcases ended_of_steps (serviceSteps_of_stepService stepped).2 noShutdown with
    ⟨apiEnded, haEnded⟩
  have monotone : state.service.shutdown = true → service.shutdown = true := by
    intro isSet
    rw [flag, isSet, Bool.true_or]
  have channel : ∀ waiter, Waiter.Alert id state.channel waiter →
      Waiter.Alert id (if sendsShutdown state.service input then Watch.send state.channel true
        else state.channel) waiter := by
    intro waiter alert
    split
    · exact alert.send true
    · exact alert
  refine ⟨?_, ?_, channel _ inv.haAlert, channel _ inv.apiAlert, ?_, ?_, ?_, ?_,
    fun woken => woken_of_steps (serviceSteps_of_stepService stepped).2 (inv.haWoken woken)⟩
  · cases sends : sendsShutdown state.service input with
    | true =>
        rw [flag, sends, Bool.or_true]
        exact Watch.value_send _ _
    | false =>
        rw [flag, sends, Bool.or_false]
        exact inv.value
  · cases sendsShutdown state.service input with
    | true => exact (Watch.closed_send _ _).trans inv.opened
    | false => exact inv.opened
  · intro selecting
    rw [flag, (selects selecting).2, inv.unset (selects selecting).1, Bool.or_self]
  · exact fun waited => monotone (inv.apiWaited waited)
  · intro ended
    rcases apiEnded ended with earlier | now
    · exact monotone (inv.apiEnded earlier)
    · exact monotone (inv.apiWaited (graceful now))
  · intro run running ended
    rcases haEnded run running ended with ⟨earlier, ran, earlierEnded⟩
    exact monotone (inv.haEnded earlier ran earlierEnded)

/-- A wait that is over has seen the flag. -/
theorem ShutdownState.Inv.shutdown_of_done (inv : state.Inv) {waiter : Waiter}
    (waited : waitForShutdown state.channel waiter = some .done) :
    state.service.shutdown = true := by
  rcases Waiter.accepts_of_done waited with accepted | closed
  · exact inv.value.symm.trans accepted
  · cases inv.opened.symm.trans closed

theorem ShutdownState.Inv.step (inv : next.before.Inv)
    (nextTaken : (process.shutdownService api).Takes next) : next.after.Inv := by
  have steps := (shutdownSteps_of_stepShutdown nextTaken).2
  generalize next.before = before, next.input = taken, next.after = after,
    next.output = output at steps inv
  cases steps with
  | serves stepped noShutdown graceful => exact inv.serves stepped noShutdown graceful
  | haWaits waited unfinished =>
      exact { inv with
        haAlert := inv.haAlert.step waited
        haWoken := fun ended => absurd ended unfinished }
  | haWakes waited running selecting stepped =>
      refine { inv with
        haAlert := trivial
        haEnded := fun _ _ _ => inv.shutdown_of_done waited
        haWoken := fun _ => ⟨HaTask.noConfusion, ?_⟩ }
      rintro run ⟨⟩
      simp only [stepRun, selecting] at stepped
      cases stepped
      exact Option.some_ne_none _
  | apiPolls waited =>
      refine { inv with apiAlert := inv.apiAlert.step waited, apiWaited := ?_ }
      rintro rfl
      exact inv.shutdown_of_done waited

theorem ShutdownState.inv_start : (ShutdownState.start : ShutdownState χ).Inv where
  value := Watch.value_channel false
  opened := Watch.closed_channel false
  haAlert := Waiter.alert_starting id _
  apiAlert := Waiter.alert_starting id _
  unset _ := rfl
  apiWaited := nofun
  apiEnded := nofun
  haEnded _ running := HaTask.noConfusion running
  haWoken := nofun

theorem ShutdownState.inv_of_run {trace : List (Transition (ShutdownState χ) ShutdownInput Effect)}
    {final : ShutdownState χ} (run : (process.shutdownService api).Run .start trace final) :
    final.Inv :=
  run.invariant (motive := ShutdownState.Inv) ShutdownState.inv_start
    fun _ _ taken inv => inv.step taken

end Inv

/-! ## The service of two tasks that see the flag at once -/

/-- A transition as one of `startHaService`.  A wait that goes on is no step of it. -/
def serviceObserver {χ : Type} :
    Observer (ShutdownState χ) ShutdownInput Effect ServiceInput Effect where
  view next :=
    match next.input with
    | .service input => some input
    | .haPolls => if next.after.haWaiter = .done then some (.ha .shutdown) else none
    | .apiPolls => none
  visible := some

section Refinement

variable {χ : Type} [Watch χ Bool] {api : ApiServer}
variable {process : HaProcess} {state : ShutdownState χ} {effects : List Effect}
variable {next : Transition (ShutdownState χ) ShutdownInput Effect}

theorem stepService_of_woken {run after : RunState} (inv : state.Inv)
    (awaiting : state.service.phase.isReturned = false)
    (waited : waitForShutdown state.channel state.haWaiter = some .done)
    (running : state.service.haTask = .running run)
    (stepped : process.stepRun run .shutdown = some (after, effects)) :
    process.stepService state.service (.ha .shutdown) =
      some ({ state.service with haTask := .running after }, effects) := by
  simp only [stepService, awaiting, Bool.false_eq_true, if_false, stepHa, running,
    inv.shutdown_of_done waited, stepped, Option.map_some]

/-- A transition is a step of the service that it is seen as, and no step of it
otherwise. -/
theorem service_of_takes (inv : next.before.Inv)
    (nextTaken : (process.shutdownService api).Takes next) :
    match serviceObserver.view next with
    | some input =>
        process.stepService next.before.service input =
          some (next.after.service, next.output)
    | none => next.after.service = next.before.service ∧ next.output = [] := by
  rcases shutdownSteps_of_stepShutdown nextTaken with ⟨awaiting, steps⟩
  rcases next with ⟨before, input, after, output⟩
  simp only at steps inv awaiting
  cases steps with
  | serves stepped => exact stepped
  | haWaits waited unfinished => simp [serviceObserver, unfinished]
  | haWakes waited running selecting stepped =>
      simpa [serviceObserver] using
        stepService_of_woken inv awaiting waited running stepped
  | apiPolls waited => exact ⟨rfl, rfl⟩

theorem outputs_serviceObserver (χ : Type) (effects : List Effect) :
    (serviceObserver : Observer (ShutdownState χ) _ _ _ _).outputs effects = effects :=
  List.filterMap_some

/-- The state is one of the service, with a channel that agrees. -/
def ShutdownState.Represents (state : ShutdownState χ) (service : ServiceState) : Prop :=
  state.Inv ∧ state.service = service

theorem represents_of_shutdownRun {final : ShutdownState χ}
    {trace : List (Transition (ShutdownState χ) ShutdownInput Effect)}
    (run : (process.shutdownService api).Run .start trace final) :
    ∃ followed last, serviceObserver.Refines process.startHaService trace .start last
      followed ∧ final.Represents last := by
  apply Observer.refines_of_run run ⟨ShutdownState.inv_start, rfl⟩
  rintro next - nextTaken _ ⟨inv, rfl⟩
  have served := service_of_takes inv nextTaken
  rw [Observer.Matches, outputs_serviceObserver]
  split
  · next unseen =>
      rw [unseen] at served
      exact ⟨served.2, inv.step nextTaken, served.1⟩
  · next input seen =>
      rw [seen] at served
      exact ⟨next.after.service, served, inv.step nextTaken, rfl⟩

theorem refines_of_shutdownRun {final : ShutdownState χ}
    {trace : List (Transition (ShutdownState χ) ShutdownInput Effect)}
    (run : (process.shutdownService api).Run .start trace final) :
    ∃ followed, serviceObserver.Refines process.startHaService trace .start final.service
      followed := by
  rcases represents_of_shutdownRun run with ⟨followed, _, refines, _, rfl⟩
  exact ⟨followed, refines⟩

/-- The shutdown channel is transparent: whatever the order of its sends and of the
polls of the two waits, what the service does is what it does when its tasks see the
flag at once. -/
theorem shutdownService_refines (process : HaProcess) (api : ApiServer)
    (trace : List (Transition (ShutdownState χ) ShutdownInput Effect)) (final : ShutdownState χ)
    (run : (process.shutdownService api).Run .start trace final) :
    ∃ followed, process.startHaService.Run .start followed final.service ∧
      followed.map (·.input) = trace.filterMap serviceObserver.view ∧
      followed.flatMap (·.output) = trace.flatMap (·.output) := by
  rcases refines_of_shutdownRun run with ⟨followed, refines⟩
  refine ⟨followed, refines.run, refines.inputs, ?_⟩
  rw [refines.outputs, outputs_serviceObserver]

end Refinement

/-! ## No lost wakeup -/

def ShutdownInput.isHaPoll : ShutdownInput → Bool
  | .haPolls => true
  | .service _ | .apiPolls => false

def ShutdownInput.isApiPoll : ShutdownInput → Bool
  | .apiPolls => true
  | .service _ | .haPolls => false

/-- Neither wait blocks: the loop in its select, and the API server before it stops,
can go on. -/
structure Wakes {χ : Type} [Watch χ Bool] (process : HaProcess) (api : ApiServer)
    (state : ShutdownState χ) : Prop where
  ha : ∀ run, state.service.haTask = .running run → run.phase = .selecting →
    (process.stepShutdown api state .haPolls).isSome = true
  api : state.apiWaiter ≠ .done → (process.stepShutdown api state .apiPolls).isSome = true

section Wakeup

variable {χ : Type} [Watch χ Bool] {api : ApiServer}
variable {process : HaProcess} {state final sent : ShutdownState χ}
variable {trace rest : List (Transition (ShutdownState χ) ShutdownInput Effect)}
variable {next : Transition (ShutdownState χ) ShutdownInput Effect}

theorem shutdown_stays (inv : next.before.Inv)
    (nextTaken : (process.shutdownService api).Takes next)
    (isSet : next.before.service.shutdown = true) :
    next.after.service.shutdown = true := by
  have served := service_of_takes inv nextTaken
  split at served
  · rw [(shutdown_of_stepService served).1, isSet, Bool.true_or]
  · rw [served.1, isSet]

/-- A poll of a wait brings it nearer to its end, and no other step touches it. -/
theorem remaining_of_takes (inv : next.before.Inv)
    (nextTaken : (process.shutdownService api).Takes next)
    (isSet : next.before.service.shutdown = true) :
    (if next.input.isHaPoll then 1 else 0) + next.after.haWaiter.remaining ≤
        next.before.haWaiter.remaining ∧
      (if next.input.isApiPoll then 1 else 0) + next.after.apiWaiter.remaining ≤
        next.before.apiWaiter.remaining := by
  have steps := (shutdownSteps_of_stepShutdown nextTaken).2
  have accepted : id (Watch.value next.before.channel) = true := inv.value.trans isSet
  generalize next.before = before, next.input = input, next.after = after,
    next.output = output at steps inv accepted
  cases steps with
  | serves => simp [ShutdownInput.isHaPoll, ShutdownInput.isApiPoll]
  | haWaits waited | haWakes waited =>
      have nearer := inv.haAlert.remaining_lt accepted waited
      simp only [ShutdownInput.isHaPoll, ShutdownInput.isApiPoll]
      exact ⟨by simp only [if_true]; omega, by simp⟩
  | apiPolls waited =>
      have nearer := inv.apiAlert.remaining_lt accepted waited
      simp only [ShutdownInput.isHaPoll, ShutdownInput.isApiPoll]
      exact ⟨by simp, by simp only [if_true]; omega⟩

theorem wakes_of_inv (inv : state.Inv) (isSet : state.service.shutdown = true)
    (awaiting : state.service.phase.isReturned = false) : Wakes process api state := by
  have accepted : id (Watch.value state.channel) = true := inv.value.trans isSet
  constructor
  · intro run running selecting
    have notDone : state.haWaiter ≠ .done := by
      intro ended
      apply (inv.haWoken ended).2 run running
      rw [selecting]
      rfl
    rcases inv.haAlert.advances accepted notDone with ⟨waiter, waited, _⟩
    have polls : waitForShutdown state.channel state.haWaiter = some waiter := waited
    simp only [stepShutdown, awaiting, Bool.false_eq_true, if_false, pollHa, running,
      selecting, polls, Option.bind_some]
    split
    · simp only [stepRun, selecting, Option.map_some, Option.isSome_some]
    · rfl
  · intro notDone
    rcases inv.apiAlert.advances accepted notDone with ⟨waiter, waited, _⟩
    have polls : waitForShutdown state.channel state.apiWaiter = some waiter := waited
    simp only [stepShutdown, awaiting, Bool.false_eq_true, if_false, pollApi, polls,
      Option.map_some, Option.isSome_some]

/-- No lost wakeup: once the flag is set, a task that waits for it is never blocked, and
it is polled at most twice before its wait is over. -/
theorem wakes_of_shutdown (process : HaProcess) (api : ApiServer)
    (trace rest : List (Transition (ShutdownState χ) ShutdownInput Effect))
    (sent final : ShutdownState χ) (run : (process.shutdownService api).Run .start trace sent)
    (isSet : sent.service.shutdown = true)
    (later : (process.shutdownService api).Run sent rest final) :
    rest.countP (·.input.isHaPoll) ≤ 2 ∧ rest.countP (·.input.isApiPoll) ≤ 2 ∧
      (final.service.phase.isReturned = false → Wakes process api final) := by
  have polled := later.history_induction (motive := fun taken state =>
    state.Inv ∧ state.service.shutdown = true ∧
      taken.countP (·.input.isHaPoll) + state.haWaiter.remaining ≤
        sent.haWaiter.remaining ∧
      taken.countP (·.input.isApiPoll) + state.apiWaiter.remaining ≤
        sent.apiWaiter.remaining) ⟨ShutdownState.inv_of_run run, isSet, by simp⟩ ?_
  · rcases polled with ⟨inv, stillSet, haPolls, apiPolls⟩
    have haRemaining := sent.haWaiter.remaining_le
    have apiRemaining := sent.apiWaiter.remaining_le
    exact ⟨by omega, by omega, wakes_of_inv inv stillSet⟩
  · rintro taken next - nextTaken - ⟨inv, isSet, haPolls, apiPolls⟩
    rcases remaining_of_takes inv nextTaken isSet with ⟨haNearer, apiNearer⟩
    refine ⟨inv.step nextTaken, shutdown_stays inv nextTaken isSet, ?_, ?_⟩ <;>
      simp only [List.countP_append, List.countP_singleton] <;> omega

end Wakeup

/-! ## What the exit status says -/

theorem handleTaskResult_eq_ok {result : TaskResult} {name : String} :
    handleTaskResult result name = .ok () ↔ result = .ok (.ok ()) := by
  rcases result with joinError | error | done <;> simp [handleTaskResult]

/-- The steps by what becomes of the caller. -/
inductive CallerSteps (state : ServiceState) : ServiceInput → ServiceState → Prop where
  | stays {input : ServiceInput} {next : ServiceState} :
      input ≠ .signal (.ok ()) →
      next.phase = state.phase →
      (∀ result, state.haTask.result = some result → next.haTask.result = some result) →
      (∀ result, state.apiTask.result = some result →
        next.apiTask.result = some result) →
      CallerSteps state input next
  | signalled :
      state.phase = .selecting →
      CallerSteps state (.signal (.ok ()))
        { state with shutdown := true, phase := .awaitingHa }
  | signalFails {error : Error} :
      state.phase = .selecting →
      CallerSteps state (.signal (.error error))
        { state with phase := .returned (.error error) }
  | haSelected {result : TaskResult} :
      state.phase = .selecting →
      state.haTask.result = some result →
      CallerSteps state .haJoined
        { state with
          shutdown := true, phase := .returned (handleTaskResult result "HA runtime") }
  | haAwaited :
      state.phase = .awaitingHa →
      state.haTask.result = some (.ok (.ok ())) →
      CallerSteps state .haJoined { state with phase := .awaitingApi }
  | haFailed {result : TaskResult} {error : Error} :
      state.phase = .awaitingHa →
      state.haTask.result = some result →
      handleTaskResult result "HA runtime" = .error error →
      CallerSteps state .haJoined { state with phase := .returned (.error error) }
  | apiSelected {result : TaskResult} :
      state.phase = .selecting →
      state.apiTask.result = some result →
      CallerSteps state .apiJoined
        { state with
          shutdown := true, phase := .returned (handleTaskResult result "HA status API") }
  | apiAwaited {result : TaskResult} :
      state.phase = .awaitingApi →
      state.apiTask.result = some result →
      CallerSteps state .apiJoined
        { state with phase := .returned (handleTaskResult result "HA status API") }

section Caller

variable {process : HaProcess} {state next : ServiceState} {input : ServiceInput}
variable {effects : List Effect}

theorem callerSteps_of_joinHa (joined : joinHa state = some next) :
    CallerSteps state .haJoined next := by
  simp only [joinHa] at joined
  split at joined
  · next ended selecting =>
      cases joined
      exact .haSelected selecting ended
  · next ended awaiting =>
      split at joined
      · next handled =>
          cases joined
          cases handleTaskResult_eq_ok.mp handled
          exact .haAwaited awaiting ended
      · next handled =>
          cases joined
          exact .haFailed awaiting ended handled
  all_goals cases joined

theorem callerSteps_of_joinApi (joined : joinApi state = some next) :
    CallerSteps state .apiJoined next := by
  simp only [joinApi] at joined
  split at joined
  · next ended selecting =>
      cases joined
      exact .apiSelected selecting ended
  · next ended awaiting =>
      cases joined
      exact .apiAwaited awaiting ended
  all_goals cases joined

theorem callerSteps_of_takeSignal {result : Except Error Unit}
    (signalled : takeSignal state result = some next) :
    CallerSteps state (.signal result) next := by
  simp only [takeSignal] at signalled
  split at signalled
  · next selecting =>
      cases signalled
      exact .signalled selecting
  · next selecting =>
      cases signalled
      exact .signalFails selecting
  all_goals cases signalled

/-- A task that has ended moves no more. -/
theorem callerSteps_of_tasks (steps : ServiceSteps process state input next effects)
    (running : ∀ result, input = .apiEnds result → state.apiTask.result = none)
    (noSignal : ∀ result, input ≠ .signal result) (noHa : input ≠ .haJoined)
    (noApi : input ≠ .apiJoined) : CallerSteps state input next := by
  cases steps with
  | haMoves task stepped =>
      refine .stays (noSignal _) rfl ?_ fun _ ended => ended
      intro result ended
      have inLoop := HaTask.inLoop_running.mpr (steps_of_stepRun stepped).not_returned
      rw [task] at ended
      rw [HaTask.inLoop, ended] at inLoop
      cases inLoop
  | haEnters starting | haFails starting =>
      refine .stays (noSignal _) rfl ?_ fun _ ended => ended
      intro result ended
      rw [starting] at ended
      cases ended
  | haPanics unfinished =>
      refine .stays (noSignal _) rfl ?_ fun _ ended => ended
      intro result ended
      cases unfinished.symm.trans ended
  | apiEnds =>
      refine .stays (noSignal _) rfl (fun _ ended => ended) ?_
      intro result ended
      cases (running _ rfl).symm.trans ended
  | signalled => exact absurd rfl (noSignal _)
  | haJoined => exact absurd rfl noHa
  | apiJoined => exact absurd rfl noApi
  | abandoned selecting abandons =>
      cases input with
      | signal result => exact absurd rfl (noSignal result)
      | apiJoined => exact absurd rfl noApi
      | haFails | haEnters | ha | haPanics | apiEnds | haJoined => cases abandons

theorem callerSteps_of_stepService
    (taken : process.stepService state input = some (next, effects)) :
    CallerSteps state input next := by
  have steps := (serviceSteps_of_stepService taken).2
  have tasks := callerSteps_of_tasks steps
  have silently : ∀ {stepped : Option ServiceState},
      stepped.map (fun next => (next, ([] : List Effect))) = some (next, effects) →
        stepped = some next := by
    intro stepped mapped
    rcases Option.map_eq_some_iff.mp mapped with ⟨_, found, equal⟩
    cases equal
    exact found
  simp only [stepService] at taken
  split at taken
  · cases taken
  · cases input with
    | haFails | haEnters | ha | haPanics => exact tasks nofun nofun nofun nofun
    | apiEnds result =>
        apply tasks _ nofun nofun nofun
        intro _ _
        have ended := silently taken
        simp only [endApi] at ended
        split at ended
        · next running => rw [running]; rfl
        · cases ended
    | signal result => exact callerSteps_of_takeSignal (silently taken)
    | haJoined => exact callerSteps_of_joinHa (silently taken)
    | apiJoined => exact callerSteps_of_joinApi (silently taken)

end Caller

/-- A signal has arrived. -/
def Signalled {χ : Type} (trace : List (Transition (ShutdownState χ) ShutdownInput Effect)) :
    Prop :=
  ∃ next ∈ trace, next.input = .service (.signal (.ok ()))

/-- A signal has arrived, and both tasks have ended without an error. -/
structure Graceful {χ : Type} (trace : List (Transition (ShutdownState χ) ShutdownInput Effect))
    (state : ServiceState) : Prop where
  signalled : Signalled trace
  ha : state.haTask.result = some (.ok (.ok ()))
  api : state.apiTask.result = some (.ok (.ok ()))

/-- What the place of the caller says about the past. -/
structure Accounts {χ : Type} (trace : List (Transition (ShutdownState χ) ShutdownInput Effect))
    (state : ServiceState) : Prop where
  selecting : state.phase = .selecting → ¬Signalled trace
  awaitingHa : state.phase = .awaitingHa → Signalled trace
  awaitingApi : state.phase = .awaitingApi →
    Signalled trace ∧ state.haTask.result = some (.ok (.ok ()))
  returned : ∀ result, state.phase = .returned result →
    (result = .ok () ↔ Graceful trace state)

section Exit

variable {χ : Type} {api : ApiServer} {process : HaProcess} {state final : ShutdownState χ}
variable {taken trace : List (Transition (ShutdownState χ) ShutdownInput Effect)}
variable {next : Transition (ShutdownState χ) ShutdownInput Effect}

theorem signalled_append_singleton
    (taken : List (Transition (ShutdownState χ) ShutdownInput Effect))
    (next : Transition (ShutdownState χ) ShutdownInput Effect) :
    Signalled (taken ++ [next]) ↔
      Signalled taken ∨ next.input = .service (.signal (.ok ())) := by
  simp [Signalled, or_and_right, exists_or]

theorem view_eq_signal :
    serviceObserver.view next = some (.signal (.ok ())) ↔
      next.input = .service (.signal (.ok ())) := by
  rcases next with ⟨before, input, after, output⟩
  cases input with
  | service input => simp [serviceObserver]
  | haPolls =>
      simp only [serviceObserver]
      split <;> simp
  | apiPolls => simp [serviceObserver]

/-- The caller stays where it is, and is not signalled. -/
theorem Accounts.of_stays {before after : ServiceState} (accounts : Accounts taken before)
    (same : Signalled (taken ++ [next]) ↔ Signalled taken)
    (awaiting : before.phase.isReturned = false) (samePhase : after.phase = before.phase)
    (haStays : ∀ result, before.haTask.result = some result →
      after.haTask.result = some result) :
    Accounts (taken ++ [next]) after := by
  refine ⟨?_, ?_, ?_, ?_⟩ <;> rw [samePhase]
  · rw [same]
    exact accounts.selecting
  · rw [same]
    exact accounts.awaitingHa
  · intro awaitingApi
    rcases accounts.awaitingApi awaitingApi with ⟨signalled, ended⟩
    exact ⟨same.mpr signalled, haStays _ ended⟩
  · intro result returned
    rw [returned] at awaiting
    cases awaiting

/-- Step lemma, for a step of the caller and of the tasks. -/
theorem Accounts.of_callerSteps {before after : ServiceState} {input : ServiceInput}
    (accounts : Accounts taken before) (caller : CallerSteps before input after)
    (longer : Signalled (taken ++ [next]) ↔ Signalled taken ∨ input = .signal (.ok ()))
    (awaiting : before.phase.isReturned = false)
    (unended : before.phase = .selecting → before.haTask.result ≠ some (.ok (.ok ())) ∧
      before.apiTask.result ≠ some (.ok (.ok ()))) :
    Accounts (taken ++ [next]) after := by
  cases caller with
  | stays noSignal samePhase haStays apiStays =>
      have same : Signalled (taken ++ [next]) ↔ Signalled taken := by
        rw [longer, or_iff_left noSignal]
      exact accounts.of_stays same awaiting samePhase haStays
  | signalled selecting =>
      exact ⟨nofun, fun _ => longer.mpr (.inr rfl), nofun, nofun⟩
  | signalFails selecting =>
      refine ⟨nofun, nofun, nofun, ?_⟩
      rintro result ⟨⟩
      constructor
      · intro succeeded
        cases succeeded
      · intro graceful
        exact absurd graceful.ha (unended selecting).1
  | haSelected selecting ended =>
      refine ⟨nofun, nofun, nofun, ?_⟩
      rintro result ⟨⟩
      constructor
      · intro succeeded
        cases handleTaskResult_eq_ok.mp succeeded
        exact absurd ended (unended selecting).1
      · intro graceful
        exact absurd graceful.ha (unended selecting).1
  | haAwaited awaitingHa ended =>
      refine ⟨nofun, nofun, fun _ => ⟨?_, ended⟩, nofun⟩
      exact longer.mpr (.inl (accounts.awaitingHa awaitingHa))
  | haFailed awaitingHa ended failed =>
      refine ⟨nofun, nofun, nofun, ?_⟩
      rintro result ⟨⟩
      constructor
      · intro succeeded
        cases succeeded
      · intro graceful
        cases ended.symm.trans graceful.ha
        cases failed
  | apiSelected selecting ended =>
      refine ⟨nofun, nofun, nofun, ?_⟩
      rintro result ⟨⟩
      constructor
      · intro succeeded
        cases handleTaskResult_eq_ok.mp succeeded
        exact absurd ended (unended selecting).2
      · intro graceful
        exact absurd graceful.api (unended selecting).2
  | apiAwaited awaitingApi ended =>
      rcases accounts.awaitingApi awaitingApi with ⟨signalled, haEnded⟩
      refine ⟨nofun, nofun, nofun, ?_⟩
      rintro result ⟨⟩
      rw [handleTaskResult_eq_ok]
      constructor
      · rintro rfl
        exact ⟨longer.mpr (.inl signalled), haEnded, ended⟩
      · intro graceful
        exact Option.some.inj (ended.symm.trans graceful.api)

variable [Watch χ Bool]

/-- The HA task ends without an error after the flag is set only. -/
theorem ShutdownState.Inv.shutdown_of_haResult (inv : state.Inv)
    (ended : state.service.haTask.result = some (.ok (.ok ()))) :
    state.service.shutdown = true := by
  cases task : state.service.haTask with
  | running run =>
      apply inv.haEnded run task
      rw [task, HaTask.result] at ended
      split at ended
      · next result phase =>
          rw [phase, Phase.exitResult]
          cases ended
          rfl
      all_goals cases ended
  | starting | failed | panicked =>
      rw [task] at ended
      cases ended

/-- The caller does not find an end without an error in its select. -/
theorem ShutdownState.Inv.unended (inv : state.Inv)
    (selecting : state.service.phase = .selecting) :
    state.service.haTask.result ≠ some (.ok (.ok ())) ∧
      state.service.apiTask.result ≠ some (.ok (.ok ())) := by
  have unset := inv.unset selecting
  constructor
  · intro ended
    cases unset.symm.trans (inv.shutdown_of_haResult ended)
  · intro ended
    cases unset.symm.trans (inv.apiEnded ended)

theorem Accounts.append (accounts : Accounts taken next.before.service)
    (inv : next.before.Inv) (nextTaken : (process.shutdownService api).Takes next) :
    Accounts (taken ++ [next]) next.after.service := by
  have awaiting := (shutdownSteps_of_stepShutdown nextTaken).1
  have served := service_of_takes inv nextTaken
  have longer := signalled_append_singleton taken next
  rw [← view_eq_signal] at longer
  split at served
  · next input seen =>
      rw [seen, Option.some_inj] at longer
      exact accounts.of_callerSteps (callerSteps_of_stepService served) longer awaiting
        inv.unended
  · next unseen =>
      have same : Signalled (taken ++ [next]) ↔ Signalled taken := by
        rw [longer, unseen]
        simp
      rw [served.1]
      exact accounts.of_stays same awaiting rfl fun _ ended => ended

theorem accounts_of_run (run : (process.shutdownService api).Run .start trace final) :
    Accounts trace final.service := by
  have accounted := run.history_induction (motive := fun taken state =>
    state.Inv ∧ Accounts taken state.service) ⟨ShutdownState.inv_start, ?_⟩ ?_
  · exact accounted.2
  · refine ⟨fun _ => ?_, nofun, nofun, nofun⟩
    rintro ⟨next, member, _⟩
    cases member
  · rintro taken next - nextTaken - ⟨inv, accounts⟩
    exact ⟨inv.step nextTaken, accounts.append inv nextTaken⟩

/-- `start_ha_service` returns `Ok` if and only if it has been signalled, and both tasks
have ended without an error.  The addresses are removed then. -/
theorem returns_ok_iff (process : HaProcess) (api : ApiServer)
    (trace : List (Transition (ShutdownState χ) ShutdownInput Effect)) (final : ShutdownState χ)
    (run : (process.shutdownService api).Run .start trace final) :
    (final.service.phase = .returned (.ok ()) ↔
      final.service.phase.isReturned = true ∧ Graceful trace final.service) ∧
    (final.service.phase = .returned (.ok ()) →
      .applyAddresses (addressManager process.runtime) .remove ∈
        trace.flatMap (·.output)) := by
  have accounts := accounts_of_run run
  have exact : final.service.phase = .returned (.ok ()) ↔
      final.service.phase.isReturned = true ∧ Graceful trace final.service := by
    constructor
    · intro returned
      refine ⟨by rw [returned]; rfl, ?_⟩
      exact (accounts.returned _ returned).mp rfl
    · rintro ⟨isReturned, graceful⟩
      cases phase : final.service.phase with
      | returned result => rw [(accounts.returned result phase).mpr graceful]
      | selecting | awaitingHa | awaitingApi =>
          rw [phase] at isReturned
          cases isReturned
  refine ⟨exact, ?_⟩
  intro returned
  have ended := (exact.mp returned).2.ha
  rcases refines_of_shutdownRun run with ⟨followed, refines⟩
  cases task : final.service.haTask with
  | running loop =>
      rcases (loop_of_run refines.run).2 loop task with ⟨_, _, looped, ran, effects⟩
      rw [task, HaTask.result] at ended
      split at ended
      · next result phase =>
          rw [← outputs_serviceObserver χ (trace.flatMap _), ← refines.outputs, ← effects]
          exact removal_of_returned ran phase
      all_goals cases ended
  | starting | failed | panicked =>
      rw [task] at ended
      cases ended

end Exit

/-! ## A signal between the polls -/

/-- A server that may fail at any time. -/
def demoApi : ApiServer where
  ends waiter result :=
    match result with
    | .ok (.ok ()) => waiter == .done
    | .ok (.error _) | .error _ => true
  done_of_ends _ ends := eq_of_beq ends

/-- Both tasks have looked at the flag, and wait, when the signal arrives. -/
def untilSignal : List ShutdownInput := [
  .service (.haEnters 0 0),
  .apiPolls,
  .service (.ha (.event (.refresh 0))),
  .haPolls,
  .service (.ha (.event (.send (.ok ()) 3000000000 3000000000))),
  .service (.ha (.event (.refresh 3000000000))),
  .service (.signal (.ok ()))]

def afterSignal : List ShutdownInput := [
  .haPolls,
  .apiPolls,
  .haPolls,
  .service (.ha (.beginCleanup 3500000000)),
  .apiPolls,
  .service (.apiEnds (.ok (.ok ()))),
  .service (.ha .addressesRemoved),
  .service .haJoined,
  .service .apiJoined]

def gracefulTrace : List (Transition (ShutdownState (Cell Bool)) ShutdownInput Effect) :=
  (watchedProcess.shutdownService demoApi).record .start (untilSignal ++ afterSignal)

theorem gracefulTrace_run :
    (watchedProcess.shutdownService demoApi).Run .start gracefulTrace
      (Machine.finalState .start gracefulTrace) :=
  Machine.run_record _ (by decide +kernel)

theorem shutdownService_refines_graceful :
    ∃ followed, watchedProcess.startHaService.Run .start followed
        (Machine.finalState .start gracefulTrace).service ∧
      followed.map (·.input) = gracefulTrace.filterMap serviceObserver.view ∧
      followed.flatMap (·.output) = gracefulTrace.flatMap (·.output) :=
  shutdownService_refines watchedProcess demoApi gracefulTrace _ gracefulTrace_run

def signalledTrace : List (Transition (ShutdownState (Cell Bool)) ShutdownInput Effect) :=
  (watchedProcess.shutdownService demoApi).record .start untilSignal

def signalledState : ShutdownState (Cell Bool) :=
  Machine.finalState .start signalledTrace

/-- The loop has seen that there is a change, and not yet what it is. -/
def noticedTrace : List (Transition (ShutdownState (Cell Bool)) ShutdownInput Effect) :=
  (watchedProcess.shutdownService demoApi).record signalledState [.haPolls]

theorem wakes_of_shutdown_noticed :
    Wakes watchedProcess demoApi (Machine.finalState signalledState noticedTrace) := by
  have signalled : (watchedProcess.shutdownService demoApi).Run .start signalledTrace
      signalledState := Machine.run_record _ (by decide +kernel)
  have noticed : (watchedProcess.shutdownService demoApi).Run signalledState noticedTrace
      (Machine.finalState signalledState noticedTrace) :=
    Machine.run_record _ (by decide +kernel)
  exact (wakes_of_shutdown watchedProcess demoApi signalledTrace noticedTrace _ _ signalled
    (by decide +kernel) noticed).2.2 (by decide +kernel)

theorem returns_ok_iff_graceful :
    (Machine.finalState .start gracefulTrace).service.phase = .returned (.ok ()) ∧
      .applyAddresses (addressManager watchedProcess.runtime) .remove ∈
        gracefulTrace.flatMap (·.output) := by
  have exits := returns_ok_iff watchedProcess demoApi gracefulTrace _ gracefulTrace_run
  have signalled : Signalled gracefulTrace := by
    have inputs : gracefulTrace.map (·.input) = untilSignal ++ afterSignal :=
      Machine.map_input_record _ (by decide +kernel)
    have member : .service (.signal (.ok ())) ∈ gracefulTrace.map (·.input) := by
      rw [inputs]
      simp [untilSignal]
    rcases List.mem_map.mp member with ⟨next, taken, input⟩
    exact ⟨next, taken, input⟩
  have returned := exits.1.mpr
    ⟨by decide +kernel, signalled, by decide +kernel, by decide +kernel⟩
  exact ⟨returned, exits.2 returned⟩

end Gruezi.Ha
