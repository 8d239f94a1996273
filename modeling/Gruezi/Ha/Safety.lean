import Gruezi.Ha.Pair

/-!
# One owner without timeouts

Two safety results about the pair, over every interleaving and every loss, delay,
duplication and reordering of the advertisements.  As long as the node that
waits never refreshes after a timeout, a lower-ranked node is never elected, and
an owner never loses the address to a peer that must not take it.
-/

namespace Gruezi.Ha

open Rust Lib HaProcess

/-! ## A node that keeps waiting -/

section Waiting

variable {runtime : HaRuntimeConfig} {loopState : HaLoopState} {now : Int}

/-- Before any timeout, a waiting node is promoted only by what it hears from a
live peer. -/
theorem refreshDecision_of_waiting (waiting : loopState.state ≠ .active)
    (before : Pair.BeforeTimeout runtime loopState now)
    (standby : ∀ peer ∈ loopState.peerObservation, peer.LiveAt runtime now →
      (desiredState runtime loopState.state (some peer) loopState.startupAt now
        loopState.activePeerConflict).state = .standby) :
    (refreshDecision runtime loopState now).state = .standby := by
  rw [Pair.BeforeTimeout] at before
  rw [refreshDecision]
  cases observed : loopState.peerObservation with
  | none =>
      rw [observed] at before
      rw [desiredState_none, if_neg waiting, if_neg (not_le.mpr before)]
  | some peer =>
      rw [observed] at before
      exact standby peer observed before

/-- Before any timeout, a waiting node that outranks nobody it observes keeps
waiting. -/
theorem refreshDecision_of_outranked (waiting : loopState.state ≠ .active)
    (before : Pair.BeforeTimeout runtime loopState now)
    (outranked : ∀ peer ∈ loopState.peerObservation,
      outranks runtime.priority runtime.nodeId peer.priority peer.nodeId = false) :
    (refreshDecision runtime loopState now).state = .standby := by
  apply refreshDecision_of_waiting waiting before
  intro peer observed live
  have loses := outranked peer observed
  by_cases peerActive : peer.state = .active
  · rw [desiredState_activePeer live peerActive, desiredStateWithActivePeer, loses]
    simp only [Bool.false_and, Bool.and_false, Bool.false_eq_true, if_false]
    split <;> rfl
  · rw [desiredState_passivePeer live peerActive, if_neg waiting, loses]
    simp only [Bool.false_eq_true, if_false]

/-- Before any timeout, a waiting node without preemption keeps waiting next to
an `Active` peer. -/
theorem refreshDecision_of_noPreempt (waiting : loopState.state ≠ .active)
    (before : Pair.BeforeTimeout runtime loopState now)
    (noPreempt : runtime.preempt = false)
    (peerActive : ∀ peer ∈ loopState.peerObservation, peer.state = .active) :
    (refreshDecision runtime loopState now).state = .standby := by
  apply refreshDecision_of_waiting waiting before
  intro peer observed live
  rw [desiredState_activePeer live (peerActive peer observed),
    desiredStateWithActivePeer, noPreempt]
  simp only [Bool.false_and, Bool.false_eq_true, if_false]
  split <;> rfl

/-- An owner that observes no live owner keeps the address. -/
theorem refreshDecision_of_owner (owner : loopState.state = .active)
    (alone : hasLiveActivePeer runtime loopState.peerObservation now = false) :
    (refreshDecision runtime loopState now).state = .active := by
  rw [refreshDecision]
  cases observed : loopState.peerObservation with
  | none => rw [desiredState_none, if_pos owner]
  | some peer =>
      by_cases live : peer.LiveAt runtime now
      · by_cases peerActive : peer.state = .active
        · have found : hasLiveActivePeer runtime loopState.peerObservation now = true :=
            hasLiveActivePeer_eq_true.mpr ⟨peer, observed, live, peerActive⟩
          rw [alone] at found
          cases found
        · rw [desiredState_passivePeer live peerActive, if_pos owner]
      · rw [desiredState_expired live]

end Waiting

/-! ## Election -/

section Election

variable (pair : Pair) (lower : Side)

/-- The lower-ranked node waits, and observes nobody or the higher-ranked node;
nothing is asked of the other. -/
structure Outranked (side : Side) (node : Node) : Prop where
  waiting : side = lower → node.loopState.state ≠ .active
  observed : side = lower → ∀ peer ∈ node.loopState.peerObservation,
    Pair.ObservationOf (pair.runtime lower.other) peer

theorem outranked_kept : Pair.KeptByEvents pair (fun _ _ => True)
    (Outranked pair lower) where
  current _ _ _ := trivial
  unchanged side node next holds same := by
    constructor
    · intro isLower
      rw [same.state]
      exact holds.waiting isLower
    · intro isLower
      rw [same.peerObservation]
      exact holds.observed isLower
  accepted side node next state sequence counters observedAt holds _ _ _ loopState := by
    constructor
    · intro isLower
      rw [loopState]
      exact holds.waiting isLower
    · rintro rfl peer observed
      rw [loopState] at observed
      cases observed
      exact ⟨rfl, rfl⟩

/-- Step lemma: a refresh before any timeout preserves the invariant. -/
theorem Outranked.refreshed {side : Side} {node next : Node} {now : Int}
    (holds : Outranked pair lower side node)
    (ranked : outranks (pair.runtime lower.other).priority
      (pair.runtime lower.other).nodeId (pair.runtime lower).priority
      (pair.runtime lower).nodeId = true)
    (before : side = lower →
      Pair.BeforeTimeout (pair.runtime side) node.loopState now)
    (loopState : next.loopState =
      Ha.refreshed (pair.runtime side) node.loopState now) :
    Outranked pair lower side next := by
  constructor
  · intro isLower
    have outranked : ∀ peer ∈ node.loopState.peerObservation,
        outranks (pair.runtime side).priority (pair.runtime side).nodeId peer.priority
          peer.nodeId = false := by
      intro peer observed
      rcases holds.observed isLower peer observed with ⟨nodeId, priority⟩
      rw [nodeId, priority, isLower]
      exact outranks_asymm ranked
    rw [loopState, refreshed_state, refreshDecision_of_outranked
      (holds.waiting isLower) (before isLower) outranked]
    exact HaState.noConfusion
  · intro isLower
    rw [loopState, refreshed_peerObservation]
    exact holds.observed isLower

/-- Election safety: of two freshly started nodes the lower-ranked one is never
`Active` as long as it does not refresh after a timeout. -/
theorem lower_never_active (pair : Pair) (lower : Side)
    (ranked : outranks (pair.runtime lower.other).priority
      (pair.runtime lower.other).nodeId (pair.runtime lower).priority
      (pair.runtime lower).nodeId = true)
    (startupAt scheduledAt : Side → Int) (final : World Side Node Bytes)
    (trace : List (Transition (World Side Node Bytes) (Side × NodeEvent)
      (Envelope Side Bytes)))
    (run : pair.system.Run (pair.startWorld startupAt scheduledAt) trace final)
    (noTimeouts : pair.NoTimeouts lower trace) :
    (final.node lower).loopState.state ≠ .active ∧
      ¬((final.node .left).loopState.state = .active ∧
        (final.node .right).loopState.state = .active) := by
  have initial : Network.Holds (Outranked pair lower) (pair.Carries fun _ _ => True)
      (pair.startWorld startupAt scheduledAt) := by
    constructor
    · intro side
      constructor
      · intro _ active
        cases active
      · intro _ peer observed
        cases observed
    · intro envelope member
      cases member
  have holds := (outranked_kept pair lower).holds_of_run run initial ?refreshes
  case refreshes =>
    intro next member now node event holds _ _ loopState
    apply Outranked.refreshed pair lower holds ranked _ loopState
    intro isLower
    rw [isLower]
    exact noTimeouts next member isLower now (by rw [event]; rfl)
  have waiting := (holds.node lower).waiting rfl
  refine ⟨waiting, ?_⟩
  rintro ⟨leftActive, rightActive⟩
  cases lower with
  | left => exact waiting leftActive
  | right => exact waiting rightActive

end Election

/-! ## Failback -/

section Failback

/-- The owner is `Active` and holds no live observation of an owner; the other
node waits, and observes nobody or the owner, which it may not preempt. -/
structure OwnerStays (pair : Pair) (owner side : Side) (node : Node) : Prop where
  owns : side = owner → node.loopState.state = .active
  alone : side = owner → ∀ peer ∈ node.loopState.peerObservation,
    peer.state = .active → ¬peer.LiveAt (pair.runtime owner) node.clock
  waits : side = owner.other → node.loopState.state ≠ .active
  observes : side = owner.other → ∀ peer ∈ node.loopState.peerObservation,
    peer.state = .active ∧ Pair.ObservationOf (pair.runtime owner) peer

/-- The owner advertises that it is `Active`, the other that it is not. -/
def OwnerAdvertises (owner side : Side) (state : HaState) : Prop :=
  state = .active ↔ side = owner

variable {pair : Pair} {owner : Side}

theorem ownerStays_kept :
    Pair.KeptByEvents pair (OwnerAdvertises owner) (OwnerStays pair owner) where
  current side node holds := by
    constructor
    · intro active
      rcases Side.eq_or_eq_other owner side with isOwner | isOther
      · exact isOwner
      · exact absurd active (holds.waits isOther)
    · exact holds.owns
  unchanged side node next holds same := by
    refine ⟨?_, ?_, ?_, ?_⟩
    · rw [same.state]
      exact holds.owns
    · intro isOwner peer observed peerActive live
      rw [same.peerObservation] at observed
      exact holds.alone isOwner peer observed peerActive
        (lt_of_le_of_lt same.clock live)
    · rw [same.state]
      exact holds.waits
    · rw [same.peerObservation]
      exact holds.observes
  accepted side node next state sequence counters observedAt holds advertised _ _
      loopState := by
    refine ⟨?_, ?_, ?_, ?_⟩
    · rw [loopState]
      exact holds.owns
    · rintro rfl peer observed peerActive
      rw [loopState] at observed
      cases observed
      exact absurd (advertised.mp peerActive) (Side.other_ne side)
    · rw [loopState]
      exact holds.waits
    · rintro rfl peer observed
      rw [loopState] at observed
      cases observed
      rw [Side.other_other] at advertised ⊢
      exact ⟨advertised.mpr rfl, rfl, rfl⟩

/-- Step lemma: refreshes preserve the invariant, of the waiting node as long as
they come before any timeout. -/
theorem OwnerStays.refreshed {side : Side} {node next : Node} {now : Int}
    (holds : OwnerStays pair owner side node)
    (noFailback : (pair.runtime owner.other).preempt = false ∨
      outranks (pair.runtime owner.other).priority (pair.runtime owner.other).nodeId
        (pair.runtime owner).priority (pair.runtime owner).nodeId = false)
    (ordered : node.clock ≤ now) (clock : next.clock = now)
    (before : side = owner.other →
      Pair.BeforeTimeout (pair.runtime side) node.loopState now)
    (loopState : next.loopState =
      Ha.refreshed (pair.runtime side) node.loopState now) :
    OwnerStays pair owner side next := by
  refine ⟨?_, ?_, ?_, ?_⟩
  · intro isOwner
    have alone : hasLiveActivePeer (pair.runtime side) node.loopState.peerObservation
        now = false := by
      rw [Bool.eq_false_iff]
      intro found
      rcases hasLiveActivePeer_eq_true.mp found with ⟨peer, observed, live, peerActive⟩
      rw [isOwner] at live
      exact holds.alone isOwner peer observed peerActive (lt_of_le_of_lt ordered live)
    rw [loopState, refreshed_state]
    exact refreshDecision_of_owner (holds.owns isOwner) alone
  · intro isOwner peer observed peerActive live
    rw [loopState, refreshed_peerObservation] at observed
    rw [clock] at live
    exact holds.alone isOwner peer observed peerActive (lt_of_le_of_lt ordered live)
  · intro isOther
    have waiting := holds.waits isOther
    have standby :
        (refreshDecision (pair.runtime side) node.loopState now).state = .standby := by
      rcases noFailback with noPreempt | outranked
      · rw [← isOther] at noPreempt
        apply refreshDecision_of_noPreempt waiting (before isOther) noPreempt
        intro peer observed
        exact (holds.observes isOther peer observed).1
      · apply refreshDecision_of_outranked waiting (before isOther)
        intro peer observed
        rcases holds.observes isOther peer observed with ⟨_, nodeId, priority⟩
        rw [nodeId, priority, isOther]
        exact outranked
    rw [loopState, refreshed_state, standby]
    exact HaState.noConfusion
  · intro isOther
    rw [loopState, refreshed_peerObservation]
    exact holds.observes isOther

/-- No unnecessary failback: an owner that observes no live owner keeps the
address, next to a node that observes at most this owner and may not preempt it,
as long as that node does not refresh after a timeout. -/
theorem owner_stays_active (pair : Pair) (owner : Side)
    (noFailback : (pair.runtime owner.other).preempt = false ∨
      outranks (pair.runtime owner.other).priority (pair.runtime owner.other).nodeId
        (pair.runtime owner).priority (pair.runtime owner).nodeId = false)
    (start final : World Side Node Bytes)
    (ownerActive : (start.node owner).loopState.state = .active)
    (ownerAlone : ∀ peer ∈ (start.node owner).loopState.peerObservation,
      peer.state = .active → ¬peer.LiveAt (pair.runtime owner) (start.node owner).clock)
    (otherWaits : (start.node owner.other).loopState.state ≠ .active)
    (otherObserves : ∀ peer ∈ (start.node owner.other).loopState.peerObservation,
      peer.state = .active ∧ Pair.ObservationOf (pair.runtime owner) peer)
    (inFlight : ∀ envelope ∈ start.wire, pair.Carries (OwnerAdvertises owner) envelope)
    (trace : List (Transition (World Side Node Bytes) (Side × NodeEvent)
      (Envelope Side Bytes)))
    (run : pair.system.Run start trace final)
    (noTimeouts : pair.NoTimeouts owner.other trace) :
    (final.node owner).loopState.state = .active ∧
      (final.node owner.other).loopState.state ≠ .active := by
  have initial : Network.Holds (OwnerStays pair owner)
      (pair.Carries (OwnerAdvertises owner)) start := by
    refine ⟨?_, inFlight⟩
    intro side
    refine ⟨?_, ?_, ?_, ?_⟩
    · rintro rfl
      exact ownerActive
    · rintro rfl
      exact ownerAlone
    · rintro rfl
      exact otherWaits
    · rintro rfl
      exact otherObserves
  have holds := ownerStays_kept.holds_of_run run initial ?refreshes
  case refreshes =>
    intro next member now node event holds ordered clock loopState
    apply holds.refreshed noFailback ordered clock _ loopState
    intro isOther
    rw [isOther]
    exact noTimeouts next member isOther now (by rw [event]; rfl)
  exact ⟨(holds.node owner).owns rfl, (holds.node owner.other).waits rfl⟩

end Failback

/-! ## Two runs of the demo pair -/

/-- Both nodes hold, the higher-ranked one hears the other and is elected. -/
def electionTrace : List (Transition (World Side Node Bytes) (Side × NodeEvent)
    (Envelope Side Bytes)) :=
  (demoPair true).system.record ((demoPair true).startWorld (fun _ => 0) fun _ => 0) [
    (.left, .refresh 0),
    (.right, .refresh 0),
    (.left, .send (.ok ()) 1000000000 1000000000),
    demoDelivery .right .standby 1 1000000000,
    (.right, .refresh 1000000000),
    (.right, .send (.ok ()) 1000000001 1000000001),
    demoDelivery .left .active 1 1000000001,
    (.left, .refresh 1000000001)]

theorem electionTrace_run :
    (demoPair true).system.Run ((demoPair true).startWorld (fun _ => 0) fun _ => 0)
      electionTrace
      (Machine.finalState ((demoPair true).startWorld (fun _ => 0) fun _ => 0)
        electionTrace) :=
  Machine.run_record _ (by decide +kernel)

theorem lower_never_active_demo :
    ((Machine.finalState ((demoPair true).startWorld (fun _ => 0) fun _ => 0)
        electionTrace).node .left).loopState.state ≠ .active :=
  (lower_never_active (demoPair true) .left (by decide) _ _ _ _ electionTrace_run
    (by decide +kernel)).1

/-- The lower-ranked node has taken over at its startup deadline; the other one
starts only then. -/
def takenOver : World Side Node Bytes :=
  Machine.finalState ((demoPair false).startWorld (fun _ => 0) fun _ => 0)
    ((demoPair false).system.record
      ((demoPair false).startWorld (fun _ => 0) fun _ => 0)
      [(.left, .refresh 3000000000)])

/-- The higher-ranked node returns, and hears the owner. -/
def returnTrace : List (Transition (World Side Node Bytes) (Side × NodeEvent)
    (Envelope Side Bytes)) :=
  (demoPair false).system.record takenOver [
    (.right, .refresh 0),
    (.left, .send (.ok ()) 4000000000 4000000000),
    demoDelivery .right .active 1 1000000000,
    (.right, .refresh 1000000000),
    (.right, .send (.ok ()) 1000000001 1000000001),
    demoDelivery .left .standby 1 4000000001,
    (.left, .refresh 4000000001)]

theorem owner_stays_active_demo :
    ((Machine.finalState takenOver returnTrace).node .left).loopState.state = .active ∧
      ((Machine.finalState takenOver returnTrace).node
        (Side.other .left)).loopState.state ≠ .active := by
  have leftObserves : (takenOver.node .left).loopState.peerObservation = none := by
    decide +kernel
  have rightObserves :
      (takenOver.node (Side.other .left)).loopState.peerObservation = none := by
    decide +kernel
  have nothingSent : takenOver.wire = [] := by decide +kernel
  have run : (demoPair false).system.Run takenOver returnTrace
      (Machine.finalState takenOver returnTrace) :=
    Machine.run_record _ (by decide +kernel)
  apply owner_stays_active (demoPair false) .left (.inl rfl) takenOver _
    (by decide +kernel) ?_ (by decide +kernel) ?_ ?_ returnTrace run (by decide +kernel)
  · intro peer observed
    rw [leftObserves] at observed
    cases observed
  · intro peer observed
    rw [rightObserves] at observed
    cases observed
  · intro envelope sent
    rw [nothingSent] at sent
    cases sent

end Gruezi.Ha
