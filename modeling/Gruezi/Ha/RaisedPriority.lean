import Gruezi.Ha.Election

/-!
# Raising the priority

Two runs of one node, the second under a higher priority, that hear the same
peer at the same times.  Ranking above the peer lets a node take the address
over, and also makes it yield; still the second run owns the address wherever
the first does.
-/

namespace Gruezi.Ha

open Rust Lib

def HaRuntimeConfig.withPriority (runtime : HaRuntimeConfig) (priority : UInt8) :
    HaRuntimeConfig :=
  { runtime with priority }

def HaProcess.withPriority (process : HaProcess) (priority : UInt8) : HaProcess :=
  { process with runtime := process.runtime.withPriority priority }

section Decision

variable {runtime : HaRuntimeConfig} {priority : UInt8} {peerId : String}
variable {peerPriority : UInt8} {startupAt now : Int} {low high : Election}

/-- A higher priority outranks whatever the lower one does. -/
theorem outranks_mono {localPriority : UInt8} {localNodeId : String}
    (raised : localPriority ≤ priority)
    (wins : outranks localPriority localNodeId peerPriority peerId = true) :
    outranks priority localNodeId peerPriority peerId = true := by
  rw [outranks_eq_true] at wins ⊢
  rcases wins with higher | ⟨rfl, order⟩
  · exact .inl (UInt8.lt_of_lt_of_le higher raised)
  · by_cases same : localPriority = priority
    · exact .inr ⟨same.symm, order⟩
    · exact .inl (UInt8.lt_of_le_of_ne raised same)

/-- A peer that is outranked under either priority is decided against in the same
way. -/
theorem decision_withPriority (startupAt now : Int)
    (outrankedLow : ∀ peer ∈ low.peerObservation,
      outranks runtime.priority runtime.nodeId peer.priority peer.nodeId = true)
    (outrankedHigh : ∀ peer ∈ low.peerObservation,
      outranks priority runtime.nodeId peer.priority peer.nodeId = true) :
    (low.decision (runtime.withPriority priority) startupAt now).state =
        (low.decision runtime startupAt now).state ∧
      ((low.decision (runtime.withPriority priority) startupAt now).reason =
          .peerBecameActiveConflict ↔
        (low.decision runtime startupAt now).reason = .peerBecameActiveConflict) := by
  simp only [Election.decision]
  cases observed : low.peerObservation with
  | none =>
      simp only [desiredState_none]
      exact ⟨rfl, Iff.rfl⟩
  | some peer =>
      have winsLow := outrankedLow peer observed
      have winsHigh : outranks (runtime.withPriority priority).priority
          (runtime.withPriority priority).nodeId peer.priority peer.nodeId = true :=
        outrankedHigh peer observed
      by_cases live : peer.LiveAt runtime now
      · -- The liveness window does not depend on the priority.
        have liveHigh : peer.LiveAt (runtime.withPriority priority) now := live
        by_cases peerActive : peer.state = .active
        · rw [desiredState_activePeer live peerActive,
            desiredState_activePeer liveHigh peerActive, desiredStateWithActivePeer,
            desiredStateWithActivePeer, winsLow, winsHigh]
          have samePreempt : (runtime.withPriority priority).preempt = runtime.preempt :=
            rfl
          simp only [samePreempt, Bool.true_and, Bool.and_true]
          split_ifs <;> simp
        · constructor
          · rw [desiredState_passivePeer live peerActive,
              desiredState_passivePeer liveHigh peerActive, winsLow, winsHigh]
            split <;> rfl
          · apply iff_of_false
            · exact desiredState_passivePeer_reason liveHigh peerActive
            · exact desiredState_passivePeer_reason live peerActive
      · have expiredHigh : ¬peer.LiveAt (runtime.withPriority priority) now := live
        rw [desiredState_expired live, desiredState_expired expiredHigh]
        simp

/-- A peer that is not outranked under the lower priority leaves no state in
which only the lower one is `Active`. -/
theorem active_withPriority
    (outranked : ∀ peer ∈ low.peerObservation,
      outranks runtime.priority runtime.nodeId peer.priority peer.nodeId = false)
    (sameObservation : high.peerObservation = low.peerObservation)
    (ordered : low.state = .active → high.state = .active)
    (active : (low.decision runtime startupAt now).state = .active) :
    (high.decision (runtime.withPriority priority) startupAt now).state = .active := by
  rw [Election.decision, sameObservation]
  rw [Election.decision] at active
  cases observed : low.peerObservation with
  | none =>
      rw [observed, desiredState_none] at active
      rw [desiredState_none]
      split at active
      · next owner => rw [if_pos (ordered owner)]
      · split at active
        · next due =>
            split
            · rfl
            · exact congrArg HaDecision.state (if_pos due)
        · cases active
  | some peer =>
      have loses := outranked peer observed
      rw [observed] at active
      by_cases live : peer.LiveAt runtime now
      · by_cases peerActive : peer.state = .active
        · -- A node that loses the ranking never owns the address next to an owner.
          rw [desiredState_activePeer live peerActive, desiredStateWithActivePeer, loses]
            at active
          cases preempt : runtime.preempt <;> simp [preempt] at active
        · rw [desiredState_passivePeer live peerActive, loses] at active
          have owner : low.state = .active := by
            by_contra waiting
            simp [waiting] at active
          have liveHigh : peer.LiveAt (runtime.withPriority priority) now := live
          rw [desiredState_passivePeer liveHigh peerActive, if_pos (ordered owner)]
      · have expiredHigh : ¬peer.LiveAt (runtime.withPriority priority) now := live
        rw [desiredState_expired expiredHigh]

end Decision

/-- The election under the higher priority is at least as far as the one under
the lower priority, next to one peer. -/
structure AtLeast (runtime : HaRuntimeConfig) (peerId : String) (peerPriority : UInt8)
    (low high : Election) : Prop where
  observation : high.peerObservation = low.peerObservation
  onePeer : ∀ peer ∈ low.peerObservation,
    peer.nodeId = peerId ∧ peer.priority = peerPriority
  state : low.state = .active → high.state = .active
  outranked :
    outranks runtime.priority runtime.nodeId peerPriority peerId = true → high = low

/-- The event is not an advertisement of another peer, or of the peer under
another priority. -/
def ElectionEvent.FromPeer (peerId : String) (peerPriority : UInt8) :
    ElectionEvent → Prop
  | .refresh _ => True
  | .accept accepted =>
      accepted.packet.nodeId = peerId ∧ accepted.packet.priority = peerPriority

instance (peerId : String) (peerPriority : UInt8) :
    DecidablePred (ElectionEvent.FromPeer peerId peerPriority)
  | .refresh _ => isTrue trivial
  | .accept _ => inferInstanceAs (Decidable (_ ∧ _))

section Simulation

variable {runtime : HaRuntimeConfig} {priority : UInt8} {peerId : String}
variable {peerPriority : UInt8} {startupAt : Int} {low high : Election}

/-- Next to a peer the lower priority outranks already, raising the priority
changes nothing. -/
theorem step_withPriority (raised : runtime.priority ≤ priority) (now : Int)
    (onePeer : ∀ peer ∈ low.peerObservation,
      peer.nodeId = peerId ∧ peer.priority = peerPriority)
    (wins : outranks runtime.priority runtime.nodeId peerPriority peerId = true) :
    low.step (runtime.withPriority priority) startupAt (.refresh now) =
      low.step runtime startupAt (.refresh now) := by
  have outrankedLow : ∀ peer ∈ low.peerObservation,
      outranks runtime.priority runtime.nodeId peer.priority peer.nodeId = true := by
    intro peer observed
    rcases onePeer peer observed with ⟨rfl, rfl⟩
    exact wins
  rcases decision_withPriority startupAt now outrankedLow
    (fun peer observed => outranks_mono raised (outrankedLow peer observed))
    with ⟨sameState, sameConflict⟩
  simp only [Election.step, sameState, sameConflict]
  rfl

/-- Step lemma of the simulation. -/
theorem AtLeast.step (startupAt : Int) (raised : runtime.priority ≤ priority)
    {event : ElectionEvent}
    (fromPeer : event.FromPeer peerId peerPriority)
    (holds : AtLeast runtime peerId peerPriority low high) :
    AtLeast runtime peerId peerPriority (low.step runtime startupAt event)
      (high.step (runtime.withPriority priority) startupAt event) := by
  cases event with
  | accept accepted =>
      constructor
      case observation =>
        simp only [Election.step, holds.observation]
      case onePeer =>
        rintro _ ⟨⟩
        exact fromPeer
      case state => exact holds.state
      case outranked =>
        intro wins
        rw [holds.outranked wins]
        rfl
  | refresh now =>
      constructor
      case observation => exact holds.observation
      case onePeer => exact holds.onePeer
      case state =>
        intro active
        cases ranks : outranks runtime.priority runtime.nodeId peerPriority peerId with
        | true =>
            rw [holds.outranked ranks, step_withPriority raised now holds.onePeer ranks]
            exact active
        | false =>
            apply active_withPriority _ holds.observation holds.state active
            intro peer observed
            rcases holds.onePeer peer observed with ⟨rfl, rfl⟩
            exact ranks
      case outranked =>
        intro wins
        rw [holds.outranked wins, step_withPriority raised now holds.onePeer wins]

/-- Run lemma of the simulation. -/
theorem AtLeast.states (startupAt : Int) (raised : runtime.priority ≤ priority)
    {events : List ElectionEvent}
    (fromPeer : ∀ event ∈ events, event.FromPeer peerId peerPriority)
    (holds : AtLeast runtime peerId peerPriority low high) :
    List.Forall₂ (fun lowState highState => lowState = .active → highState = .active)
      (Election.states runtime startupAt low events)
      (Election.states (runtime.withPriority priority) startupAt high events) := by
  induction events generalizing low high with
  | nil => exact .nil
  | cons event events ih =>
      have next := holds.step startupAt raised (fromPeer event (by simp))
      have rest := ih (fun later member => fromPeer later (by simp [member])) next
      cases event with
      | refresh now => exact .cons next.state rest
      | accept accepted => exact rest

end Simulation

/-- At every refresh at which the run with the lower priority owns the address,
the run with the higher one does. -/
theorem raised_priority_keeps_ownership (process : HaProcess) (priority : UInt8)
    (peerId : String) (peerPriority : UInt8) (startupAt scheduledAt : Int)
    (low high : List (Transition RunState RunInput Effect))
    (lowFinal highFinal : RunState)
    (raised : process.runtime.priority ≤ priority)
    (lowRun : process.runWithStatus.Run (process.startRun startupAt scheduledAt) low
      lowFinal)
    (highRun : (process.withPriority priority).runWithStatus.Run
      ((process.withPriority priority).startRun startupAt scheduledAt) high highFinal)
    (sameEvents : (process.withPriority priority).electionEvents high =
      process.electionEvents low)
    (onePeer : ∀ event ∈ process.electionEvents low,
      event.FromPeer peerId peerPriority) :
    List.Forall₂ (fun lowState highState => lowState = .active → highState = .active)
      (refreshStates low) (refreshStates high) := by
  rw [HaProcess.refreshStates_eq lowRun, HaProcess.refreshStates_eq highRun, sameEvents]
  apply AtLeast.states startupAt raised onePeer
  constructor
  case observation => rfl
  case onePeer =>
    intro peer observed
    cases observed
  case state => exact id
  case outranked => exact fun _ => rfl

/-! ## Between two priorities -/

/-- A peer whose priority lies between the two waits, takes the address over and
goes silent. -/
def betweenInputs : List RunInput := [
  .event (.refresh 0),
  demoArrival "peer" 150 .standby 1 1,
  .event (.refresh 1),
  demoArrival "peer" 150 .active 2 2,
  .event (.refresh 2),
  .event (.receive (.error { kind := .timedOut, text := "timed out" }) 3),
  .event (.refresh 4000000000)]

def betweenTrace (process : HaProcess) : List (Transition RunState RunInput Effect) :=
  process.runWithStatus.record (process.startRun 0 0) betweenInputs

theorem raised_priority_keeps_ownership_between :
    List.Forall₂ (fun lowState highState => lowState = .active → highState = .active)
        (refreshStates (betweenTrace (demoProcess "high" 100 false)))
        (refreshStates (betweenTrace ((demoProcess "high" 100 false).withPriority 200))) ∧
      refreshStates (betweenTrace (demoProcess "high" 100 false)) =
        [.standby, .standby, .standby, .active] :=
  ⟨raised_priority_keeps_ownership (demoProcess "high" 100 false) 200 "peer" 150 0 0 _ _
      _ _ (by decide) (Machine.run_record _ (by decide +kernel))
      (Machine.run_record _ (by decide +kernel)) (by decide +kernel) (by decide +kernel),
    by decide +kernel⟩

end Gruezi.Ha
