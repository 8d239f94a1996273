import Gruezi.Ha.Node
import Gruezi.Lib.Machine

/-!
# `run_with_status`

The control loop as a machine.  A phase is a program point at which the loop
awaits or reads the clock: it refreshes, then waits for one of three things, and
after a shutdown or a fatal error it runs the exit cleanup before it returns.
-/

namespace Gruezi.Ha

open Rust Lib

inductive Phase where
  /-- At the top of the loop. -/
  | refreshing
  /-- In `tokio::select!`. -/
  | selecting
  /-- At the call of `cleanup_before_exit`, to return `result` after it. -/
  | exiting (faulted : Bool) (result : Except Error Unit)
  /-- The cleanup awaits the removal of the addresses. -/
  | removing (cleanup : Cleanup) (result : Except Error Unit)
  /-- The cleanup awaits the fault hook. -/
  | faulting (cleanup : Cleanup) (result : Except Error Unit)
  | returned (result : Except Error Unit)

structure RunState where
  node : Node
  phase : Phase

inductive RunInput where
  | event (event : NodeEvent)
  | shutdown
  | beginCleanup (now : Int)
  /-- `manager.apply(AddressAction::Remove)` has returned; its result is only
  logged. -/
  | addressesRemoved
  /-- `hooks.run(HookEvent::Fault, context)` has returned; its result is only
  logged. -/
  | faultHookReturned

namespace HaProcess

variable (process : HaProcess)

/-- The end of `cleanup_before_exit`. -/
def finishCleanup (node : Node) (cleanup : Cleanup) (result : Except Error Unit) :
    RunState × List Effect :=
  let (loopState, effects) :=
    cleanup.finish process.runtime process.statusTx node.loopState
  ({ node := { node with loopState }, phase := .returned result }, effects)

/-- A send waits for the advertisement timer; the other two arms of the select
can be taken at any time. -/
def armReady (loopState : HaLoopState) : NodeEvent → Bool
  | .refresh _ => false
  | .receive _ _ => true
  | .send _ scheduledAt _ => loopState.nextAdvertAt ≤ scheduledAt

def stepRun (state : RunState) (input : RunInput) : Option (RunState × List Effect) :=
  match state.phase, input with
  | .refreshing, .event (.refresh now) =>
      (process.handle state.node (.refresh now)).map fun handled =>
        ({ node := handled.node, phase := .selecting }, handled.effects)
  | .selecting, .event event =>
      if armReady state.node.loopState event then
        (process.handle state.node event).map fun handled =>
          match handled.result with
          | .ok () => ({ node := handled.node, phase := .refreshing }, handled.effects)
          | .error error =>
              ({ node := handled.node, phase := .exiting true (.error error) },
                handled.effects)
      else none
  | .selecting, .shutdown =>
      some ({ state with phase := .exiting false (.ok ()) }, [])
  | .exiting faulted result, .beginCleanup now =>
      if state.node.clock ≤ now then
        let (cleanup, effects) :=
          beginCleanup process.runtime state.node.loopState faulted now
        some ({
          node := { state.node with clock := now }
          phase := .removing cleanup result }, effects)
      else none
  | .removing cleanup result, .addressesRemoved =>
      if cleanup.faulted then
        some ({ state with phase := .faulting cleanup result },
          cleanup.faultHook process.runtime)
      else
        some (process.finishCleanup state.node cleanup result)
  | .faulting cleanup result, .faultHookReturned =>
      some (process.finishCleanup state.node cleanup result)
  | _, _ => none

/-- `run_with_status`, after its socket is bound. -/
def runWithStatus : Machine RunState RunInput Effect where
  step := process.stepRun

def startRun (startupAt scheduledAt : Int) : RunState where
  node := process.startNode startupAt scheduledAt
  phase := .refreshing

/-! ## What a step can do -/

/-- The steps of the loop, by the program point they leave. -/
inductive Steps (state : RunState) : RunInput → RunState → List Effect → Prop where
  | refresh {now : Int} {handled : Handled} :
      state.phase = .refreshing →
      process.handle state.node (.refresh now) = some handled →
      Steps state (.event (.refresh now))
        { node := handled.node, phase := .selecting } handled.effects
  | handled {event : NodeEvent} {handled : Handled} :
      state.phase = .selecting →
      armReady state.node.loopState event = true →
      process.handle state.node event = some handled →
      handled.result = .ok () →
      Steps state (.event event)
        { node := handled.node, phase := .refreshing } handled.effects
  | failed {event : NodeEvent} {handled : Handled} {error : Error} :
      state.phase = .selecting →
      armReady state.node.loopState event = true →
      process.handle state.node event = some handled →
      handled.result = .error error →
      Steps state (.event event)
        { node := handled.node, phase := .exiting true (.error error) } handled.effects
  | shutdown :
      state.phase = .selecting →
      Steps state .shutdown { state with phase := .exiting false (.ok ()) } []
  | beginCleanup {faulted : Bool} {result : Except Error Unit} {now : Int} :
      state.phase = .exiting faulted result →
      state.node.clock ≤ now →
      Steps state (.beginCleanup now)
        { node := { state.node with clock := now }
          phase := .removing
            (beginCleanup process.runtime state.node.loopState faulted now).1 result }
        (beginCleanup process.runtime state.node.loopState faulted now).2
  | runFaultHook {cleanup : Cleanup} {result : Except Error Unit} :
      state.phase = .removing cleanup result →
      cleanup.faulted = true →
      Steps state .addressesRemoved { state with phase := .faulting cleanup result }
        (cleanup.faultHook process.runtime)
  | finish {cleanup : Cleanup} {result : Except Error Unit} :
      state.phase = .removing cleanup result →
      cleanup.faulted = false →
      Steps state .addressesRemoved
        (process.finishCleanup state.node cleanup result).1
        (process.finishCleanup state.node cleanup result).2
  | finishFaulted {cleanup : Cleanup} {result : Except Error Unit} :
      state.phase = .faulting cleanup result →
      Steps state .faultHookReturned
        (process.finishCleanup state.node cleanup result).1
        (process.finishCleanup state.node cleanup result).2

variable {process} {state next : RunState} {input : RunInput} {effects : List Effect}

theorem steps_of_stepRun (taken : process.stepRun state input = some (next, effects)) :
    process.Steps state input next effects := by
  unfold stepRun at taken
  split at taken
  · next now phase =>
      rw [Option.map_eq_some_iff] at taken
      rcases taken with ⟨handled, handles, equal⟩
      cases equal
      exact .refresh phase handles
  · next event phase =>
      split at taken
      · next ready =>
          rw [Option.map_eq_some_iff] at taken
          rcases taken with ⟨handled, handles, equal⟩
          split at equal
          · next result =>
              cases equal
              exact .handled phase ready handles result
          · next error result =>
              cases equal
              exact .failed phase ready handles result
      · cases taken
  · next phase =>
      cases taken
      exact .shutdown phase
  · next faulted result now phase =>
      split at taken
      · next ordered =>
          cases taken
          exact .beginCleanup phase ordered
      · cases taken
  · next cleanup result phase =>
      split at taken
      · next faulted =>
          cases taken
          exact .runFaultHook phase faulted
      · next graceful =>
          cases taken
          exact .finish phase (by simpa using graceful)
  · next cleanup result phase =>
      cases taken
      exact .finishFaulted phase
  · cases taken

/-- A transition of the loop's machine is one of its steps. -/
theorem steps_of_takes {transition : Transition RunState RunInput Effect}
    (taken : process.runWithStatus.Takes transition) :
    process.Steps transition.before transition.input transition.after
      transition.output :=
  steps_of_stepRun taken

/-! ## Along a run -/

/-- No step takes the clock back. -/
theorem Steps.clock_le (steps : process.Steps state input next effects) :
    state.node.clock ≤ next.node.clock := by
  cases steps with
  | refresh _ handles => exact clock_le_of_handle handles
  | handled _ _ handles _ => exact clock_le_of_handle handles
  | failed _ _ handles _ => exact clock_le_of_handle handles
  | beginCleanup _ ordered => exact ordered
  | shutdown | runFaultHook | finish | finishFaulted => exact le_rfl

/-- The start of the process is read once. -/
theorem Steps.startupAt_eq (steps : process.Steps state input next effects) :
    next.node.loopState.startupAt = state.node.loopState.startupAt := by
  cases steps with
  | refresh _ handles => exact startupAt_of_handle handles
  | handled _ _ handles _ => exact startupAt_of_handle handles
  | failed _ _ handles _ => exact startupAt_of_handle handles
  | finish | finishFaulted =>
      simp only [finishCleanup, Cleanup.finish]
      split <;> rfl
  | shutdown | beginCleanup | runFaultHook => rfl

theorem startupAt_of_run {start final : RunState}
    {trace : List (Transition RunState RunInput Effect)}
    (run : process.runWithStatus.Run start trace final) :
    final.node.loopState.startupAt = start.node.loopState.startupAt := by
  apply run.invariant
    (motive := fun state => state.node.loopState.startupAt =
      start.node.loopState.startupAt) rfl
  intro next _ taken same
  exact (steps_of_takes taken).startupAt_eq.trans same

/-! ## What the election sees of a step -/

/-- The input is the arrival of a datagram that is accepted as `packet`. -/
def Accepts (process : HaProcess) (input : RunInput) (packet : HaPacket)
    (observedAt : Int) : Prop :=
  ∃ datagram sender, input = .event (.receive (.ok (datagram, sender)) observedAt) ∧
    HaPacket.decode (datagram.take 1024) = .ok packet ∧
    packet.AcceptedBy process.hasher process.runtime

/-- The steps by what they do to the observation, the conflict latch and the
local state. -/
inductive Evolves (process : HaProcess) (state : RunState) (input : RunInput)
    (next : RunState) : Prop where
  | refreshed (now : Int) :
      input = .event (.refresh now) →
      state.phase = .refreshing →
      next.node.loopState = refreshed process.runtime state.node.loopState now →
      Evolves process state input next
  | accepted (packet : HaPacket) (observedAt : Int) :
      process.Accepts input packet observedAt →
      state.phase = .selecting →
      next.phase = .refreshing →
      (∃ counters, next.node.loopState = { state.node.loopState with
        peerObservation :=
          some (packet.observed state.node.loopState.peerObservation observedAt)
        counters }) →
      Evolves process state input next
  | unchanged :
      (∀ now, input ≠ .event (.refresh now)) →
      (∀ packet observedAt, ¬process.Accepts input packet observedAt) →
      state.phase ≠ .refreshing →
      next.node.loopState.peerObservation = state.node.loopState.peerObservation →
      next.node.loopState.activePeerConflict = state.node.loopState.activePeerConflict →
      (next.node.loopState.state = state.node.loopState.state ∨
        next.node.loopState.state = .init) →
      Evolves process state input next

/-- An event awaited in the select is an acceptance, or leaves the election as
it was. -/
theorem evolves_of_handle {event : NodeEvent} {handled : Handled} {phase : Phase}
    (selecting : state.phase = .selecting)
    (ready : armReady state.node.loopState event = true)
    (handles : process.handle state.node event = some handled)
    (nextPhase : handled.result = .ok () → phase = .refreshing) :
    Evolves process state (.event event) { node := handled.node, phase } := by
  have awaiting : state.phase ≠ .refreshing := by
    rw [selecting]
    exact Phase.noConfusion
  cases event with
  | refresh now => cases ready
  | receive recv observedAt =>
      rcases handle_receive handles with ⟨ordered, _, _, changed⟩
      by_cases accepts :
          ∃ packet, process.Accepts (.event (.receive recv observedAt)) packet observedAt
      · rcases accepts with ⟨packet, accepts⟩
        rcases id accepts with ⟨datagram, sender, arrival, decoded, accepted⟩
        cases arrival
        obtain ⟨other, counters, handlesOther, result, _, loopState⟩ :=
          handle_receive_accepted sender ordered decoded accepted
        cases handles.symm.trans handlesOther
        exact .accepted packet observedAt accepts selecting (nextPhase result)
          ⟨counters, loopState⟩
      · have refused : ∀ packet at_,
            ¬process.Accepts (.event (.receive recv observedAt)) packet at_ := by
          intro packet at_ accepted
          rcases id accepted with ⟨_, _, arrival, _⟩
          cases arrival
          exact accepts ⟨packet, accepted⟩
        obtain ⟨counters, loopState⟩ |
            ⟨datagram, sender, packet, _, rfl, decoded, accepted, _⟩ := changed
        · refine .unchanged (by simp) refused awaiting ?_ ?_ (.inl ?_) <;>
            simp only [loopState]
        · exact absurd ⟨packet, datagram, sender, rfl, decoded, accepted⟩ accepts
  | send sendTo scheduledAt publishedAt =>
      rcases handle_send handles with ⟨_, _, ⟨_, _, _, loopState⟩, _⟩
      refine .unchanged (by simp) ?_ awaiting ?_ ?_ (.inl ?_)
      · rintro packet observedAt ⟨_, _, arrival, _⟩
        cases arrival
      all_goals simp only [loopState]

theorem Steps.evolves (steps : process.Steps state input next effects) :
    Evolves process state input next := by
  have silent : ∀ input : RunInput, (∀ event, input ≠ .event event) →
      (∀ now, input ≠ .event (.refresh now)) ∧
        ∀ packet observedAt, ¬process.Accepts input packet observedAt := by
    intro input noEvent
    refine ⟨fun now => noEvent _, ?_⟩
    rintro packet observedAt ⟨_, _, arrival, _⟩
    exact noEvent _ arrival
  cases steps with
  | refresh phase handles =>
      rcases handle_refresh handles with ⟨_, _, _, loopState, _⟩
      exact .refreshed _ rfl phase loopState
  | handled phase ready handles result =>
      exact evolves_of_handle phase ready handles fun _ => rfl
  | failed phase ready handles result =>
      exact evolves_of_handle phase ready handles fun succeeded => by
        cases succeeded.symm.trans result
  | shutdown phase =>
      rcases silent .shutdown (by simp) with ⟨noRefresh, noAccept⟩
      exact .unchanged noRefresh noAccept (by simp [phase]) rfl rfl (.inl rfl)
  | beginCleanup phase _ =>
      rcases silent (.beginCleanup _) (by simp) with ⟨noRefresh, noAccept⟩
      exact .unchanged noRefresh noAccept (by simp [phase]) rfl rfl (.inl rfl)
  | runFaultHook phase _ =>
      rcases silent .addressesRemoved (by simp) with ⟨noRefresh, noAccept⟩
      exact .unchanged noRefresh noAccept (by simp [phase]) rfl rfl (.inl rfl)
  | finish phase _ =>
      rcases silent .addressesRemoved (by simp) with ⟨noRefresh, noAccept⟩
      refine .unchanged noRefresh noAccept (by simp [phase]) ?_ ?_ (.inr rfl) <;>
        simp only [finishCleanup, Cleanup.finish] <;> split <;> rfl
  | finishFaulted phase =>
      rcases silent .faultHookReturned (by simp) with ⟨noRefresh, noAccept⟩
      refine .unchanged noRefresh noAccept (by simp [phase]) ?_ ?_ (.inr rfl) <;>
        simp only [finishCleanup, Cleanup.finish] <;> split <;> rfl

/-- Accepting a packet records it. -/
theorem peerObservation_of_accepts {transition : Transition RunState RunInput Effect}
    {packet : HaPacket} {observedAt : Int}
    (taken : process.runWithStatus.Takes transition)
    (accepts : process.Accepts transition.input packet observedAt) :
    transition.after.node.loopState.peerObservation =
      some (packet.observed transition.before.node.loopState.peerObservation
        observedAt) := by
  cases (steps_of_takes taken).evolves with
  | refreshed now input =>
      rcases accepts with ⟨_, _, arrival, _⟩
      cases input.symm.trans arrival
  | accepted other at_ acceptsOther _ _ changed =>
      rcases accepts with ⟨_, _, arrival, decoded, _⟩
      rcases acceptsOther with ⟨_, _, arrivalOther, decodedOther, _⟩
      cases arrival.symm.trans arrivalOther
      cases decoded.symm.trans decodedOther
      rcases changed with ⟨counters, loopState⟩
      rw [loopState]
  | unchanged _ refused => exact absurd accepts (refused packet observedAt)

theorem refreshed_of_takes {transition : Transition RunState RunInput Effect} {now : Int}
    (taken : process.runWithStatus.Takes transition)
    (refreshes : transition.input = .event (.refresh now)) :
    transition.before.phase = .refreshing ∧
      transition.after.node.loopState =
        refreshed process.runtime transition.before.node.loopState now := by
  cases (steps_of_takes taken).evolves with
  | refreshed now' input phase loopState =>
      cases refreshes.symm.trans input
      exact ⟨phase, loopState⟩
  | accepted _ _ accepts =>
      rcases accepts with ⟨_, _, arrival, _⟩
      cases refreshes.symm.trans arrival
  | unchanged noRefresh => exact absurd refreshes (noRefresh now)

end HaProcess

/-! ## A concrete pair -/

def demoProcess (nodeId : String) (priority : UInt8) (preempt : Bool) : HaProcess where
  hasher := ⟨fun _ => 0⟩
  runtime := demoRuntime nodeId priority preempt
  peerAddr := demoAddr
  statusTx := false

/-- A demo node with a status channel. -/
def watchedProcess : HaProcess :=
  { demoProcess "high" 200 false with statusTx := true }

/-- The arrival of an advertisement of the demo node `nodeId`. -/
def demoArrival (nodeId : String) (priority : UInt8) (state : HaState)
    (sequence : UInt64) (observedAt : Int) : RunInput :=
  .event (.receive
    (.ok ((demoPacket nodeId priority state sequence).wire, demoAddr)) observedAt)

theorem demoArrival_accepts {localId nodeId : String} {localPriority priority : UInt8}
    {preempt : Bool} {state : HaState} {sequence : UInt64} {observedAt : Int}
    (notBlank : isBlank nodeId = false) (fits : (asBytes nodeId).length ≤ maxIdLen)
    (distinct : nodeId ≠ localId) :
    (demoProcess localId localPriority preempt).Accepts
      (demoArrival nodeId priority state sequence observedAt)
      (demoPacket nodeId priority state sequence) observedAt := by
  have wellFormed : (demoPacket nodeId priority state sequence).WellFormed :=
    wellFormed_demoPacket notBlank fits
  have peers : Peers (demoRuntime nodeId priority false)
      (demoRuntime localId localPriority preempt) := ⟨rfl, rfl, distinct, rfl⟩
  refine ⟨_, _, rfl, HaPacket.decode_take_wire wellFormed (by decide), ?_⟩
  exact peers.acceptedBy

end Gruezi.Ha
