import Gruezi.Ha.Runtime

/-!
# The election decision

`desired_state` and the functions it splits into, and the order on ranks they
compare by.  The lemmas at the end give the decision for each of the four
situations a refresh can find: nothing observed, an expired observation, a live
peer that is `Active`, and a live peer that is not.
-/

namespace Gruezi.Ha

open Rust

structure PeerObservation where
  nodeId : String
  state : HaState
  priority : UInt8
  becameActive : Bool
  observedAt : Int
  deriving DecidableEq, Repr

structure HaDecision where
  state : HaState
  reason : HaDecisionReason
  deriving DecidableEq, Repr

/-! ## Ranks -/

def rankOrder (localPriority : UInt8) (localNodeId : String) (peerPriority : UInt8)
    (peerNodeId : String) : Ordering :=
  match cmpU8 localPriority peerPriority with
  | .eq => cmpStr localNodeId peerNodeId
  | ordering => ordering

def outranks (localPriority : UInt8) (localNodeId : String) (peerPriority : UInt8)
    (peerNodeId : String) : Bool :=
  rankOrder localPriority localNodeId peerPriority peerNodeId == .gt

theorem rankOrder_swap (localPriority : UInt8) (localNodeId : String)
    (peerPriority : UInt8) (peerNodeId : String) :
    (rankOrder localPriority localNodeId peerPriority peerNodeId).swap =
      rankOrder peerPriority peerNodeId localPriority localNodeId := by
  unfold rankOrder
  rw [← cmpU8_swap localPriority peerPriority]
  cases cmpU8 localPriority peerPriority with
  | eq => exact cmpStr_swap localNodeId peerNodeId
  | lt => rfl
  | gt => rfl

theorem rankOrder_eq_eq {localPriority peerPriority : UInt8}
    {localNodeId peerNodeId : String} :
    rankOrder localPriority localNodeId peerPriority peerNodeId = .eq ↔
      localPriority = peerPriority ∧ localNodeId = peerNodeId := by
  unfold rankOrder
  rw [← cmpU8_eq_eq, ← cmpStr_eq_eq]
  cases cmpU8 localPriority peerPriority <;> simp

/-- The priority decides, and between equal priorities the node id. -/
theorem outranks_eq_true {localPriority peerPriority : UInt8}
    {localNodeId peerNodeId : String} :
    outranks localPriority localNodeId peerPriority peerNodeId = true ↔
      peerPriority < localPriority ∨
        localPriority = peerPriority ∧ cmpStr localNodeId peerNodeId = .gt := by
  rw [outranks, rankOrder, cmpU8, compareOfLessAndEq]
  by_cases lower : localPriority < peerPriority
  · simp [lower, UInt8.le_of_lt lower, UInt8.ne_of_lt lower]
  · by_cases ties : localPriority = peerPriority
    · simp [ties]
    · have higher : peerPriority < localPriority :=
        UInt8.lt_of_le_of_ne (UInt8.not_lt.mp lower) (Ne.symm ties)
      simp [lower, ties, higher]

/-- Two ranks never outrank each other. -/
theorem outranks_asymm {localPriority peerPriority : UInt8}
    {localNodeId peerNodeId : String}
    (wins : outranks localPriority localNodeId peerPriority peerNodeId = true) :
    outranks peerPriority peerNodeId localPriority localNodeId = false := by
  simp only [outranks, beq_iff_eq, beq_eq_false_iff_ne] at wins ⊢
  rw [← rankOrder_swap, wins]
  decide

/-- Of two nodes with distinct identifiers, one outranks the other. -/
theorem outranks_total {localPriority peerPriority : UInt8}
    {localNodeId peerNodeId : String} (distinct : localNodeId ≠ peerNodeId)
    (loses : outranks localPriority localNodeId peerPriority peerNodeId = false) :
    outranks peerPriority peerNodeId localPriority localNodeId = true := by
  simp only [outranks, beq_iff_eq, beq_eq_false_iff_ne] at loses ⊢
  rw [← rankOrder_swap]
  cases order : rankOrder localPriority localNodeId peerPriority peerNodeId with
  | lt => rfl
  | eq => exact absurd (rankOrder_eq_eq.mp order).2 distinct
  | gt => exact absurd order loses

/-! ## Decisions -/

def localWinReason (localPriority peerPriority : UInt8)
    (higherPriorityReason tiebreakReason : HaDecisionReason) : HaDecisionReason :=
  if localPriority > peerPriority then higherPriorityReason else tiebreakReason

def peerWinReason (localPriority peerPriority : UInt8)
    (higherPriorityReason tiebreakReason : HaDecisionReason) : HaDecisionReason :=
  if localPriority < peerPriority then higherPriorityReason else tiebreakReason

/-- `peer_observation.filter(|peer| runtime.follower_deadline(peer.observed_at) > now)`. -/
def livePeer (runtime : HaRuntimeConfig) (peerObservation : Option PeerObservation)
    (now : Int) : Option PeerObservation :=
  peerObservation.filter fun peer => runtime.followerDeadline peer.observedAt > now

def hasLiveActivePeer (runtime : HaRuntimeConfig)
    (peerObservation : Option PeerObservation) (now : Int) : Bool :=
  (livePeer runtime peerObservation now).any fun peer => peer.state == .active

def desiredStateWithoutLivePeer (currentState : HaState)
    (peerObservation : Option PeerObservation) (startupDeadline now : Int) :
    HaDecision :=
  if peerObservation.isSome then
    { state := .active, reason := .peerTimeout }
  else if currentState = .active then
    { state := .active, reason := .alreadyActive }
  else if now ≥ startupDeadline then
    { state := .active, reason := .startupDeadlineExpired }
  else
    { state := .standby, reason := .startupHold }

def desiredStateWithActivePeer (runtime : HaRuntimeConfig) (peer : PeerObservation)
    (activePeerConflict : Bool) : HaDecision :=
  let localWins :=
    outranks runtime.priority runtime.nodeId peer.priority peer.nodeId
  if localWins && (peer.becameActive || activePeerConflict) then
    { state := .standby, reason := .peerBecameActiveConflict }
  else if runtime.preempt && localWins then
    { state := .active,
      reason := localWinReason runtime.priority peer.priority
        .preemptHigherPriority .preemptNodeIdTiebreak }
  else if runtime.preempt then
    { state := .standby,
      reason := peerWinReason runtime.priority peer.priority
        .peerHigherPriority .peerNodeIdTiebreak }
  else
    { state := .standby, reason := .peerActiveNoPreempt }

def desiredState (runtime : HaRuntimeConfig) (currentState : HaState)
    (peerObservation : Option PeerObservation) (startupAt now : Int)
    (activePeerConflict : Bool) : HaDecision :=
  let startupDeadline := runtime.followerDeadline startupAt
  match livePeer runtime peerObservation now with
  | none =>
      desiredStateWithoutLivePeer currentState peerObservation startupDeadline now
  | some peer =>
      match peer.state with
      | .active => desiredStateWithActivePeer runtime peer activePeerConflict
      | .init | .standby =>
          if currentState = .active then
            { state := .active, reason := .alreadyActive }
          else if outranks runtime.priority runtime.nodeId peer.priority peer.nodeId then
            { state := .active,
              reason := localWinReason runtime.priority peer.priority
                .localHigherPriority .localNodeIdTiebreak }
          else
            { state := .standby,
              reason := peerWinReason runtime.priority peer.priority
                .peerHigherPriority .peerNodeIdTiebreak }

/-! ## The four situations -/

/-- The observation is inside its liveness window at `now`. -/
def PeerObservation.LiveAt (peer : PeerObservation) (runtime : HaRuntimeConfig)
    (now : Int) : Prop :=
  now < peer.observedAt + runtime.window

instance (peer : PeerObservation) (runtime : HaRuntimeConfig) (now : Int) :
    Decidable (peer.LiveAt runtime now) :=
  inferInstanceAs (Decidable (_ < _))

variable {runtime : HaRuntimeConfig} {currentState : HaState} {peer : PeerObservation}
variable {startupAt now : Int} {activePeerConflict : Bool}

@[simp] theorem livePeer_none : livePeer runtime none now = none := rfl

theorem livePeer_of_live (live : peer.LiveAt runtime now) :
    livePeer runtime (some peer) now = some peer := by
  rw [PeerObservation.LiveAt, ← runtime.followerDeadline_eq] at live
  simp [livePeer, live]

theorem livePeer_of_expired (expired : ¬peer.LiveAt runtime now) :
    livePeer runtime (some peer) now = none := by
  rw [PeerObservation.LiveAt, ← runtime.followerDeadline_eq] at expired
  simp only [livePeer, Option.filter_eq_none_iff]
  rintro _ ⟨⟩
  simpa using expired

/-- `hasLiveActivePeer` is true for a live `Active` observation and nothing else. -/
theorem hasLiveActivePeer_eq_true {peerObservation : Option PeerObservation} :
    hasLiveActivePeer runtime peerObservation now = true ↔
      ∃ peer, peerObservation = some peer ∧ peer.LiveAt runtime now ∧
        peer.state = .active := by
  cases peerObservation with
  | none => simp [hasLiveActivePeer]
  | some peer =>
      by_cases live : peer.LiveAt runtime now
      · simp [hasLiveActivePeer, livePeer_of_live live, live]
      · simp [hasLiveActivePeer, livePeer_of_expired live, live]

/-- Nothing was ever observed: hold until the startup deadline. -/
theorem desiredState_none :
    desiredState runtime currentState none startupAt now activePeerConflict =
      if currentState = .active then
        { state := .active, reason := .alreadyActive }
      else if startupAt + runtime.window ≤ now then
        { state := .active, reason := .startupDeadlineExpired }
      else
        { state := .standby, reason := .startupHold } := by
  simp only [desiredState, livePeer_none, desiredStateWithoutLivePeer,
    HaRuntimeConfig.followerDeadline_eq, Option.isSome_none, Bool.false_eq_true,
    if_false, ge_iff_le]

/-- The observation has expired: take over. -/
theorem desiredState_expired (expired : ¬peer.LiveAt runtime now) :
    desiredState runtime currentState (some peer) startupAt now activePeerConflict =
      { state := .active, reason := .peerTimeout } := by
  simp [desiredState, livePeer_of_expired expired, desiredStateWithoutLivePeer]

/-- A live peer owns the address. -/
theorem desiredState_activePeer (live : peer.LiveAt runtime now)
    (peerActive : peer.state = .active) :
    desiredState runtime currentState (some peer) startupAt now activePeerConflict =
      desiredStateWithActivePeer runtime peer activePeerConflict := by
  simp only [desiredState, livePeer_of_live live, peerActive]

/-- A live peer does not own the address: keep it, or take it by rank. -/
theorem desiredState_passivePeer (live : peer.LiveAt runtime now)
    (peerPassive : peer.state ≠ .active) :
    desiredState runtime currentState (some peer) startupAt now activePeerConflict =
      if currentState = .active then
        { state := .active, reason := .alreadyActive }
      else if outranks runtime.priority runtime.nodeId peer.priority peer.nodeId then
        { state := .active,
          reason := localWinReason runtime.priority peer.priority
            .localHigherPriority .localNodeIdTiebreak }
      else
        { state := .standby,
          reason := peerWinReason runtime.priority peer.priority
            .peerHigherPriority .peerNodeIdTiebreak } := by
  simp only [desiredState, livePeer_of_live live]
  cases shape : peer.state with
  | active => exact absurd shape peerPassive
  | init | standby => rfl

@[simp] theorem localWinReason_eq {localPriority peerPriority : UInt8}
    {higherPriorityReason tiebreakReason reason : HaDecisionReason} :
    localWinReason localPriority peerPriority higherPriorityReason tiebreakReason =
        reason ↔
      if localPriority > peerPriority then higherPriorityReason = reason
      else tiebreakReason = reason := by
  unfold localWinReason
  split <;> rfl

@[simp] theorem peerWinReason_eq {localPriority peerPriority : UInt8}
    {higherPriorityReason tiebreakReason reason : HaDecisionReason} :
    peerWinReason localPriority peerPriority higherPriorityReason tiebreakReason =
        reason ↔
      if localPriority < peerPriority then higherPriorityReason = reason
      else tiebreakReason = reason := by
  unfold peerWinReason
  split <;> rfl

/-- A conflict is the reason exactly where the winner of the ranking yields to a
peer that was promoted next to it. -/
theorem desiredStateWithActivePeer_reason :
    (desiredStateWithActivePeer runtime peer activePeerConflict).reason =
        .peerBecameActiveConflict ↔
      outranks runtime.priority runtime.nodeId peer.priority peer.nodeId = true ∧
        (peer.becameActive = true ∨ activePeerConflict = true) := by
  rw [desiredStateWithActivePeer]
  split_ifs <;> simp_all

/-- Next to a live peer that is not `Active` there is no conflict. -/
theorem desiredState_passivePeer_reason (live : peer.LiveAt runtime now)
    (peerPassive : peer.state ≠ .active) :
    (desiredState runtime currentState (some peer) startupAt now
      activePeerConflict).reason ≠ .peerBecameActiveConflict := by
  rw [desiredState_passivePeer live peerPassive]
  split_ifs <;> simp

/-- Only an expired observation is a timeout. -/
theorem desiredState_live_reason (live : peer.LiveAt runtime now) :
    (desiredState runtime currentState (some peer) startupAt now
      activePeerConflict).reason ≠ .peerTimeout := by
  by_cases peerActive : peer.state = .active
  · rw [desiredState_activePeer live peerActive, desiredStateWithActivePeer]
    split_ifs <;> simp
  · rw [desiredState_passivePeer live peerActive]
    split_ifs <;> simp

/-- No decision puts a node back into `Init`. -/
theorem desiredState_ne_init (peerObservation : Option PeerObservation) :
    (desiredState runtime currentState peerObservation startupAt now
      activePeerConflict).state ≠ .init := by
  cases peerObservation with
  | none =>
      rw [desiredState_none]
      split_ifs <;> simp
  | some peer =>
      by_cases live : peer.LiveAt runtime now
      · by_cases peerActive : peer.state = .active
        · rw [desiredState_activePeer live peerActive, desiredStateWithActivePeer]
          split_ifs <;> simp
        · rw [desiredState_passivePeer live peerActive]
          split_ifs <;> simp
      · rw [desiredState_expired live]
        simp

end Gruezi.Ha
