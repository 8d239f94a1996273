import Gruezi.Ha.SideEffects
import Gruezi.Lib.Refinement

/-!
# What a node does for what it hears

The address actions and hooks of a loop, detached or awaited, are those of a small
automaton.  Its inputs are the refreshes, the accepted advertisements cut down to
what the election reads of them, and two steps of the exit; it knows the
configuration apart from the fields only the socket sees.  So rejected traffic,
sends and their failures, sequence numbers, the key, the jitter and the status
channel have no influence on the addresses and the hooks.
-/

namespace Gruezi.Ha

open Rust Lib HaProcess

/-- What is read of an accepted advertisement. -/
structure Sighting where
  nodeId : String
  state : HaState
  priority : UInt8
  observedAt : Int
  deriving DecidableEq, Repr

/-- What makes a node act. -/
inductive Cue where
  | refresh (now : Int)
  | sighted (sighting : Sighting)
  | exit (faulted : Bool) (now : Int)
  | addressesRemoved
  deriving DecidableEq, Repr

/-- The state of the election, and the context of a fault hook that waits for the
removal of the addresses. -/
structure Automaton where
  election : Election
  faultContext : Option HookContext

def Acceptance.sighting (accepted : Acceptance) : Sighting where
  nodeId := accepted.packet.nodeId
  state := accepted.packet.state
  priority := accepted.packet.priority
  observedAt := accepted.observedAt

/-- The observation a sighting turns the previous one into. -/
def Sighting.observed (sighting : Sighting)
    (peerObservation : Option PeerObservation) : PeerObservation where
  nodeId := sighting.nodeId
  state := sighting.state
  priority := sighting.priority
  becameActive := sighting.state == .active && peerObservation.any fun previous =>
    previous.nodeId == sighting.nodeId && previous.state != .active
  observedAt := sighting.observedAt

def ElectionEvent.cue : ElectionEvent → Cue
  | .refresh now => .refresh now
  | .accept accepted => .sighted accepted.sighting

/-- The configuration without what only the socket and the sender use. -/
def HaRuntimeConfig.offWire (runtime : HaRuntimeConfig) : HaRuntimeConfig :=
  { runtime with
    bind := ""
    peer := ""
    protocolVersion := 0
    jitterMs := 0
    auth := .none }

namespace Automaton

variable (runtime : HaRuntimeConfig) (startupAt : Int)

def initial : Automaton where
  election := Election.initial
  faultContext := none

/-- One cue: the next state, and the actions and hooks it causes. -/
def step (automaton : Automaton) : Cue → Automaton × List Effect
  | .refresh now =>
      let election := automaton.election
      let decision := election.decision runtime startupAt now
      ({ automaton with election := election.step runtime startupAt (.refresh now) },
        triggerStateHooks runtime election.state decision.state decision.reason
          election.peerObservation now)
  | .sighted sighting =>
      let election := automaton.election
      ({ automaton with election :=
          { election with
            peerObservation := some (sighting.observed election.peerObservation) } },
        [])
  | .exit faulted now =>
      let election := automaton.election
      let reason : HaDecisionReason :=
        if faulted then .runtimeFault else .gracefulShutdown
      let context := hookContext runtime .init election.state (some reason)
        election.peerObservation now
      ({ automaton with faultContext := if faulted then some context else none },
        [.applyAddresses (addressManager runtime) .remove])
  | .addressesRemoved =>
      ({ automaton with faultContext := none },
        (automaton.faultContext.map (.runHook runtime.hooks .fault)).toList)

def machine : Machine Automaton Cue Effect where
  step automaton cue := some (automaton.step runtime startupAt cue)

end Automaton

namespace Effect

/-- An address action or a hook, detached or awaited. -/
def acts (effect : Effect) : Bool :=
  effect.spawns || effect.awaited

end Effect

namespace HaProcess

variable (process : HaProcess)

/-- The cue of a step of the exit. -/
def exitCue : Phase → RunInput → Option Cue
  | .exiting faulted _, .beginCleanup now => some (.exit faulted now)
  | _, .addressesRemoved => some .addressesRemoved
  | _, _ => none

/-- The cue of a transition, if it has one. -/
def cue (transition : Transition RunState RunInput Effect) : Option Cue :=
  match process.electionEvent transition.input with
  | some event => some event.cue
  | none => exitCue transition.before.phase transition.input

/-- An observer who sees the cues of a loop, its address actions and its hooks. -/
def observer : Observer RunState RunInput Effect Cue Effect where
  view := process.cue
  visible effect := if effect.acts then some effect else none

/-- The context of the fault hook the exit still has to run. -/
def pendingFault : Phase → Option HookContext
  | .removing cleanup _ => if cleanup.faulted then some cleanup.context else none
  | .refreshing | .selecting | .exiting _ _ | .faulting _ _ | .returned _ => none

/-- A loop and the automaton that follows it. -/
structure FollowedBy (process : HaProcess) (startupAt : Int) (state : RunState)
    (automaton : Automaton) : Prop where
  startupAt : state.node.loopState.startupAt = startupAt
  election : state.node.loopState.election = automaton.election
  faultContext : pendingFault state.phase = automaton.faultContext

/-- As long as the loop has not returned. -/
def Related (process : HaProcess) (startupAt : Int) (state : RunState)
    (automaton : Automaton) : Prop :=
  (∃ result, state.phase = .returned result) ∨
    process.FollowedBy startupAt state automaton

end HaProcess

/-! ## The fields nobody reads -/

section OffWire

variable {runtime : HaRuntimeConfig} {startupAt : Int}

@[simp] theorem desiredState_offWire (currentState : HaState)
    (peerObservation : Option PeerObservation) (now : Int) (activePeerConflict : Bool) :
    desiredState runtime.offWire currentState peerObservation startupAt now
        activePeerConflict =
      desiredState runtime currentState peerObservation startupAt now
        activePeerConflict := rfl

@[simp] theorem Election.step_offWire (election : Election) (event : ElectionEvent) :
    election.step runtime.offWire startupAt event =
      election.step runtime startupAt event := by
  cases event <;> rfl

@[simp] theorem triggerStateHooks_offWire (previousState currentState : HaState)
    (reason : HaDecisionReason) (peerObservation : Option PeerObservation) (now : Int) :
    triggerStateHooks runtime.offWire previousState currentState reason peerObservation
        now =
      triggerStateHooks runtime previousState currentState reason peerObservation now :=
  rfl

end OffWire

/-! ## What the observer sees of the effects -/

section Visible

variable {process : HaProcess} {effects : List Effect}

theorem outputs_eq_filter (effects : List Effect) :
    process.observer.outputs effects = effects.filter Effect.acts := by
  rw [Observer.outputs, ← List.filterMap_eq_filter]
  rfl

theorem Silences.outputs (silent : Silences effects) :
    process.observer.outputs effects = [] := by
  rw [outputs_eq_filter, List.filter_eq_nil_iff]
  intro effect member
  simp [Effect.acts, silent effect member]

theorem outputs_append (first second : List Effect) :
    process.observer.outputs (first ++ second) =
      process.observer.outputs first ++ process.observer.outputs second := by
  simp only [outputs_eq_filter, List.filter_append]

theorem outputs_triggerStateHooks {runtime : HaRuntimeConfig}
    {previousState currentState : HaState} {reason : HaDecisionReason}
    {peerObservation : Option PeerObservation} {now : Int} :
    process.observer.outputs (triggerStateHooks runtime previousState currentState reason
        peerObservation now) =
      triggerStateHooks runtime previousState currentState reason peerObservation now := by
  rw [outputs_eq_filter, triggerStateHooks]
  split
  · rfl
  · split <;> rfl

/-- A refresh triggers the hooks of its decision, if that moves the state, and
publishes. -/
theorem outputs_refresh (runtime : HaRuntimeConfig) (statusTx : Bool)
    (loopState : HaLoopState) (now : Int) :
    process.observer.outputs (refreshLocalState runtime statusTx loopState now).2 =
      triggerStateHooks runtime loopState.state
        (refreshDecision runtime loopState now).state
        (refreshDecision runtime loopState now).reason loopState.peerObservation now := by
  simp only [refreshLocalState, refreshDecision]
  split
  · next same =>
      rw [(silences_publish now).outputs, triggerStateHooks, if_pos same]
  · rw [outputs_append, (silences_publish now).outputs, outputs_triggerStateHooks,
      List.append_nil]

end Visible

/-! ## The simulation -/

section Simulation

variable {process : HaProcess} {startupAt : Int} {automaton : Automaton}
variable {transition : Transition RunState RunInput Effect}

theorem view_of_silent {before after : RunState} {input : RunInput}
    {effects : List Effect} (noRefresh : ∀ now, input ≠ .event (.refresh now))
    (refused : ∀ packet observedAt, ¬process.Accepts input packet observedAt) :
    process.observer.view ⟨before, input, after, effects⟩ = exitCue before.phase input := by
  simp only [observer, cue, electionEvent_eq_none noRefresh refused]

theorem view_of_exit {before after : RunState} {input : RunInput} {effects : List Effect}
    (noEvent : ∀ event, input ≠ .event event) :
    process.observer.view ⟨before, input, after, effects⟩ =
      exitCue before.phase input := by
  apply view_of_silent (fun now => noEvent _)
  rintro packet observedAt ⟨_, _, arrival, _⟩
  exact noEvent _ arrival

/-- The automaton follows a refresh. -/
theorem matches_refresh {now : Int} (taken : process.runWithStatus.Takes transition)
    (refreshes : transition.input = .event (.refresh now))
    (follows : process.FollowedBy startupAt transition.before automaton)
    (phase : transition.after.phase = .selecting) :
    process.observer.Matches (Automaton.machine process.runtime.offWire startupAt)
      (process.Related startupAt) transition automaton := by
  have before := (refreshed_of_takes taken refreshes).1
  have loopState := (refreshed_of_takes taken refreshes).2
  have seen : process.observer.view transition = some (.refresh now) := by
    simp only [observer, cue, refreshes, electionEvent_refresh]
    rfl
  rw [Observer.Matches, seen]
  refine ⟨{ automaton with election :=
    automaton.election.step process.runtime.offWire startupAt (.refresh now) }, ?_, .inr ?_⟩
  · rw [output_of_refresh taken refreshes, outputs_refresh]
    simp only [Automaton.machine, Automaton.step, ← follows.election,
      triggerStateHooks_offWire, Election.decision, desiredState_offWire, refreshDecision,
      follows.startupAt]
    rfl
  · constructor
    · rw [loopState, refreshed_startupAt, follows.startupAt]
    · rw [loopState, election_refreshed, follows.startupAt, follows.election,
        Election.step_offWire]
    · rw [phase, ← follows.faultContext, before]
      rfl

/-- An awaited event is no cue, unless an advertisement is accepted. -/
theorem matches_event {event : NodeEvent} {handled : Handled} {before : RunState}
    {phase : Phase} (selecting : before.phase = .selecting)
    (ready : armReady before.node.loopState event = true)
    (handles : process.handle before.node event = some handled)
    (follows : process.FollowedBy startupAt before automaton)
    (nextPhase : handled.result = .ok () → phase = .refreshing)
    (notPending : pendingFault phase = none) :
    process.observer.Matches (Automaton.machine process.runtime.offWire startupAt)
      (process.Related startupAt)
      ⟨before, .event event, { node := handled.node, phase }, handled.effects⟩
      automaton := by
  have noRefresh : ∀ now, RunInput.event event ≠ .event (.refresh now) := by
    rintro now equal
    cases equal
    cases ready
  have silent : process.observer.outputs handled.effects = [] :=
    (silences_handle (noRefresh_of_armReady ready) handles).outputs
  have startupEq : handled.node.loopState.startupAt = startupAt :=
    (startupAt_of_handle handles).trans follows.startupAt
  have pendingEq : pendingFault phase = automaton.faultContext := by
    rw [notPending, ← follows.faultContext, selecting]
    rfl
  cases evolves_of_handle selecting ready handles nextPhase with
  | refreshed now input => exact absurd input (noRefresh now)
  | accepted packet observedAt accepts _ _ changed =>
      rcases changed with ⟨counters, loopState⟩
      have seen : process.observer.view ⟨before, .event event,
          { node := handled.node, phase }, handled.effects⟩ =
            some (.sighted (Acceptance.mk packet observedAt).sighting) := by
        simp only [observer, cue, electionEvent_of_accepts accepts]
        rfl
      rw [Observer.Matches, seen]
      refine ⟨(automaton.step process.runtime.offWire startupAt
        (.sighted (Acceptance.mk packet observedAt).sighting)).1, by rw [silent]; rfl,
        .inr ⟨startupEq, ?_, pendingEq⟩⟩
      simp only at loopState
      simp only [loopState, HaLoopState.election, Automaton.step, ← follows.election]
      rfl
  | unchanged _ refused _ observation latch _ =>
      rw [Observer.Matches, view_of_silent noRefresh refused, selecting]
      refine ⟨silent, .inr ⟨startupEq, ?_, pendingEq⟩⟩
      simp only at observation latch
      simp only [← follows.election, HaLoopState.election, observation, latch,
        state_of_handle (noRefresh_of_armReady ready) handles]

/-- Step lemma: the automaton follows every transition of the loop. -/
theorem matches_of_takes (taken : process.runWithStatus.Takes transition)
    (related : process.Related startupAt transition.before automaton) :
    process.observer.Matches (Automaton.machine process.runtime.offWire startupAt)
      (process.Related startupAt) transition automaton := by
  have steps := steps_of_takes taken
  rcases related with ⟨result, returned⟩ | follows
  · exact absurd returned (steps.not_returned result)
  rcases transition with ⟨before, input, after, output⟩
  simp only at steps follows
  cases steps with
  | refresh => exact matches_refresh taken rfl follows rfl
  | handled phase ready handles _ =>
      exact matches_event phase ready handles follows (fun _ => rfl) rfl
  | failed phase ready handles failed =>
      refine matches_event phase ready handles follows ?_ rfl
      intro succeeded
      cases succeeded.symm.trans failed
  | shutdown phase =>
      rw [Observer.Matches, view_of_exit (by simp), phase]
      refine ⟨rfl, .inr ⟨follows.startupAt, follows.election, ?_⟩⟩
      rw [← follows.faultContext, phase]
      rfl
  | @beginCleanup faulted result now phase _ =>
      rw [Observer.Matches, view_of_exit (by simp), phase]
      refine ⟨(automaton.step process.runtime.offWire startupAt (.exit faulted now)).1,
        rfl, .inr ⟨follows.startupAt, follows.election, ?_⟩⟩
      simp only [Automaton.step, ← follows.election]
      cases faulted <;> rfl
  | @runFaultHook cleanup result phase faulted =>
      rw [Observer.Matches, view_of_exit (by simp), phase]
      have pending := follows.faultContext
      rw [phase, pendingFault, if_pos faulted] at pending
      refine ⟨{ automaton with faultContext := none }, ?_,
        .inr ⟨follows.startupAt, follows.election, rfl⟩⟩
      simp only [Automaton.machine, Automaton.step, ← pending, Cleanup.faultHook, faulted]
      rfl
  | @finish cleanup result phase graceful =>
      rw [Observer.Matches, view_of_exit (by simp), phase]
      have pending := follows.faultContext
      rw [phase, pendingFault, if_neg (by simp [graceful])] at pending
      refine ⟨{ automaton with faultContext := none }, ?_, .inl ⟨result, rfl⟩⟩
      rw [silences_finishCleanup.outputs]
      simp only [Automaton.machine, Automaton.step, ← pending]
      rfl
  | @finishFaulted cleanup result phase =>
      rw [Observer.Matches, view_of_exit (by simp), phase]
      refine ⟨?_, .inl ⟨result, rfl⟩⟩
      rw [silences_finishCleanup.outputs]

end Simulation

/-! ## Along a run -/

section Run

variable {process : HaProcess} {startupAt scheduledAt : Int} {final : RunState}
variable {trace : List (Transition RunState RunInput Effect)}

/-- Run lemma: the automaton follows the loop. -/
theorem followed_of_run
    (run : process.runWithStatus.Run (process.startRun startupAt scheduledAt) trace
      final) :
    ∃ followed last, process.observer.Refines
        (Automaton.machine process.runtime.offWire startupAt) trace Automaton.initial last
        followed ∧
      process.Related startupAt final last := by
  apply Observer.refines_of_run run (.inr ⟨rfl, rfl, rfl⟩)
  intro next _ taken before related
  exact matches_of_takes taken related

/-- What a run of a loop does, told by its automaton. -/
structure ActsAs (process : HaProcess) (startupAt : Int)
    (trace : List (Transition RunState RunInput Effect)) (final : RunState)
    (followed : List (Transition Automaton Cue Effect)) (last : Automaton) : Prop where
  run : (Automaton.machine process.runtime.offWire startupAt).Run Automaton.initial
    followed last
  cues : followed.map (·.input) = trace.filterMap process.cue
  actions : followed.flatMap (·.output) = (effectsOf trace).filter Effect.acts
  election : (∀ result, final.phase ≠ .returned result) →
    final.node.loopState.election = last.election

/-- Refinement: the address actions and hooks of every run, in order and with their
contexts, are those of the automaton on the cues of the run. -/
theorem loop_refines_automaton (process : HaProcess) (startupAt scheduledAt : Int)
    (trace : List (Transition RunState RunInput Effect)) (final : RunState)
    (run : process.runWithStatus.Run (process.startRun startupAt scheduledAt) trace
      final) :
    ∃ followed last, ActsAs process startupAt trace final followed last := by
  rcases followed_of_run run with ⟨followed, last, refines, related⟩
  refine ⟨followed, last, refines.run, refines.inputs, ?_, ?_⟩
  · rw [refines.outputs, outputs_eq_filter]
    rfl
  · intro notReturned
    rcases related with ⟨result, returned⟩ | follows
    · exact absurd returned (notReturned result)
    · exact follows.election

/-- What two runs have in common if no influence but the cues reaches the addresses
and the hooks. -/
structure ActAlike (trace otherTrace : List (Transition RunState RunInput Effect))
    (final otherFinal : RunState) : Prop where
  actions : (effectsOf trace).filter Effect.acts =
    (effectsOf otherTrace).filter Effect.acts
  election : (∀ result, final.phase ≠ .returned result) →
    (∀ result, otherFinal.phase ≠ .returned result) →
    final.node.loopState.election = otherFinal.node.loopState.election

/-- Noninterference: two nodes with the same configuration off the wire that are
started at the same time and get the same cues do the same, whatever else they
receive and send, under whatever keys. -/
theorem actAlike_of_cues (process other : HaProcess)
    (offWire : process.runtime.offWire = other.runtime.offWire)
    (startupAt scheduledAt otherScheduledAt : Int)
    (trace otherTrace : List (Transition RunState RunInput Effect))
    (final otherFinal : RunState)
    (run : process.runWithStatus.Run (process.startRun startupAt scheduledAt) trace
      final)
    (otherRun : other.runWithStatus.Run (other.startRun startupAt otherScheduledAt)
      otherTrace otherFinal)
    (sameCues : trace.filterMap process.cue = otherTrace.filterMap other.cue) :
    ActAlike trace otherTrace final otherFinal := by
  rcases followed_of_run run with ⟨followed, last, refines, related⟩
  rcases followed_of_run otherRun with ⟨otherFollowed, otherLast, otherRefines,
    otherRelated⟩
  rw [← offWire] at otherRefines
  rcases refines.outputs_eq otherRefines sameCues with ⟨sameOutputs, rfl⟩
  constructor
  · rw [outputs_eq_filter, outputs_eq_filter] at sameOutputs
    exact sameOutputs
  · intro notReturned otherNotReturned
    rcases related with ⟨result, returned⟩ | follows
    · exact absurd returned (notReturned result)
    · rcases otherRelated with ⟨result, returned⟩ | otherFollows
      · exact absurd returned (otherNotReturned result)
      · exact follows.election.trans otherFollows.election.symm

end Run

/-! ## Two nodes under different keys -/

/-- A demo node with a key, a jitter and a status channel. -/
def keyedProcess (nodeId : String) (priority : UInt8) : HaProcess where
  hasher := ⟨fun _ => 7⟩
  runtime :=
    { demoRuntime nodeId priority false with auth := .sharedKey "key", jitterMs := 9 }
  peerAddr := demoAddr
  statusTx := true

/-- A node that advertises, hears an owner and is shut down. -/
def plainTrace : List (Transition RunState RunInput Effect) :=
  (demoProcess "low" 100 false).runWithStatus.record
    ((demoProcess "low" 100 false).startRun 0 0) [
    .event (.refresh 0),
    .event (.send (.ok ()) 1000000000 1000000000),
    .event (.refresh 1000000000),
    demoArrival "high" 200 .active 1 1000000001,
    .event (.refresh 1000000001),
    .shutdown,
    .beginCleanup 1000000002,
    .addressesRemoved]

def plainManager : AddressManager := addressManager (demoRuntime "low" 100 false)

def plainHooks : HaHooks := (demoRuntime "low" 100 false).hooks

/-- What the node tells of its first refresh. -/
def plainContext : HookContext where
  nodeId := "low"
  groupId := "group"
  interface := "eth0"
  state := .standby
  previousState := .init
  reason := some .startupHold
  priority := 100
  peerId := none
  peerState := none
  peerPriority := none
  lastPeerSeenMsAgo := none

/-- The address action and the hook of the first refresh, and the removal at the end. -/
theorem loop_refines_automaton_plain :
    ∃ followed last, ActsAs (demoProcess "low" 100 false) 0 plainTrace
        (Machine.finalState ((demoProcess "low" 100 false).startRun 0 0) plainTrace) followed
        last ∧
      followed.flatMap (·.output) = [
        .spawnAddressAction plainManager .remove (some (plainHooks, plainContext)),
        .spawnHook plainHooks .backup plainContext,
        .applyAddresses plainManager .remove] := by
  rcases loop_refines_automaton (demoProcess "low" 100 false) 0 0 plainTrace _
    (Machine.run_record _ (by decide +kernel)) with ⟨followed, last, acts⟩
  exact ⟨followed, last, acts, acts.actions.trans (by decide +kernel)⟩

/-- A node that gets a forged datagram, and hears the owner with a tag. -/
def keyedTrace : List (Transition RunState RunInput Effect) :=
  let owner := keyedProcess "high" 200
  let packet := advertisement owner.hasher owner.runtime .active 5
  (keyedProcess "low" 100).runWithStatus.record ((keyedProcess "low" 100).startRun 0 0) [
    .event (.refresh 0),
    demoArrival "high" 255 .standby 1 3,
    .event (.refresh 1000000000),
    .event (.receive (.ok (packet.wire, demoAddr)) 1000000001),
    .event (.refresh 1000000001),
    .shutdown,
    .beginCleanup 1000000002,
    .addressesRemoved]

theorem actAlike_of_cues_keyed :
    ActAlike plainTrace keyedTrace
        (Machine.finalState ((demoProcess "low" 100 false).startRun 0 0) plainTrace)
        (Machine.finalState ((keyedProcess "low" 100).startRun 0 0) keyedTrace) ∧
      ((effectsOf plainTrace).filter Effect.acts).length = 3 :=
  ⟨actAlike_of_cues (demoProcess "low" 100 false) (keyedProcess "low" 100) rfl 0 0 0
      plainTrace keyedTrace _ _ (Machine.run_record _ (by decide +kernel))
      (Machine.run_record _ (by decide +kernel)) (by decide +kernel),
    by decide +kernel⟩

end Gruezi.Ha
