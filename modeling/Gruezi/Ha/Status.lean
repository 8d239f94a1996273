import Gruezi.Ha.Reasons

/-!
# The published status

A snapshot computes the liveness of the peer a second time, next to the decision
it is published with.  The two agree, and so do the milliseconds an operator
reads off the snapshot, whatever the reason of the decision.
-/

namespace Gruezi.Ha

open Rust Lib HaProcess

namespace HaDecisionReason

/-- Reasons of decisions that rank the node against a live peer or yield to
one. -/
def comparesPeer : List HaDecisionReason :=
  [.localHigherPriority, .localNodeIdTiebreak, .peerHigherPriority,
    .peerNodeIdTiebreak, .peerActiveNoPreempt, .peerBecameActiveConflict,
    .preemptHigherPriority, .preemptNodeIdTiebreak]

/-- Reasons of decisions next to a peer that owns the address. -/
def peerOwns : List HaDecisionReason :=
  [.peerActiveNoPreempt, .peerBecameActiveConflict, .preemptHigherPriority,
    .preemptNodeIdTiebreak]

end HaDecisionReason

/-- The status agrees with a decision that was taken on this observation at
`now`. -/
structure HaStatus.Agrees (status : HaStatus) (runtime : HaRuntimeConfig)
    (peerObservation : Option PeerObservation) (now : Int) : Prop where
  aliveDecided : status.peerAlive = true ↔
    (livePeer runtime peerObservation now).isSome = true
  aliveSeen : status.peerAlive = true ↔
    ∃ seen, status.lastPeerSeenMsAgo = some seen ∧
      seen.toNat < status.deadTimeoutMs.toNat + status.holdDownMs.toNat
  timeout : status.decisionReason = .peerTimeout →
    status.peerAlive = false ∧ status.peerNodeId.isSome = true ∧
      status.peerState.isSome = true ∧ status.lastPeerSeenMsAgo.isSome = true
  startup : status.decisionReason ∈ [.startupHold, .startupDeadlineExpired] →
    status.peerAlive = false ∧ status.peerNodeId = none ∧ status.peerState = none ∧
      status.lastPeerSeenMsAgo = none
  compared : status.decisionReason ∈ HaDecisionReason.comparesPeer →
    status.peerAlive = true
  owned : status.decisionReason ∈ HaDecisionReason.peerOwns →
    status.peerState = some .active
  passive : status.decisionReason ∈ [.localHigherPriority, .localNodeIdTiebreak] ∨
      status.decisionReason = .alreadyActive ∧ status.peerAlive = true →
    ∃ state, status.peerState = some state ∧ state ≠ .active

section Snapshot

variable {runtime : HaRuntimeConfig} {loopState : HaLoopState} {now : Int}
variable {accepted : List Acceptance} {property : HaPacket → Prop}

/-- A snapshot calls the peer alive when the last acceptance is live. -/
theorem livePeer_observation :
    (livePeer runtime (observation accepted) now).isSome = true ↔
      LastIsLive runtime accepted now fun _ => True := by
  rcases List.eq_nil_or_concat' accepted with rfl | ⟨earlier, last, rfl⟩
  · simp
  · rw [observation_append, lastIsLive_append, and_true]
    by_cases live : last.LiveAt runtime now
    · have peerLive : (last.packet.observed (observation earlier)
          last.observedAt).LiveAt runtime now := live
      simp [livePeer_of_live peerLive, live]
    · have expired : ¬(last.packet.observed (observation earlier)
          last.observedAt).LiveAt runtime now := live
      simp [livePeer_of_expired expired, live]

theorem LastIsLive.imp {weaker : HaPacket → Prop}
    (holds : LastIsLive runtime accepted now property)
    (implies : ∀ packet, property packet → weaker packet) :
    LastIsLive runtime accepted now weaker := by
  rcases holds with ⟨last, isLast, live, holds⟩
  exact ⟨last, isLast, live, implies last.packet holds⟩

/-- What a live advertisement says about the state of its sender is what the
observation says. -/
theorem LastIsLive.peerState (holds : LastIsLive runtime accepted now property) :
    ∃ packet, (observation accepted).map (·.state) = some packet.state ∧
      property packet := by
  rcases List.eq_nil_or_concat' accepted with rfl | ⟨earlier, last, rfl⟩
  · exact absurd holds lastIsLive_nil
  · rw [observation_append]
    exact ⟨last.packet, rfl, (lastIsLive_append.mp holds).2⟩

/-- The milliseconds of a snapshot decide liveness as the clock does. -/
theorem livePeer_iff_elapsed {peerObservation : Option PeerObservation}
    (ordered : ∀ peer ∈ peerObservation, peer.observedAt ≤ now)
    (fits : runtime.advertIntervalMs.toNat * runtime.deadFactor.toNat +
      runtime.holdDownMs.toNat < 2 ^ 64) :
    (livePeer runtime peerObservation now).isSome = true ↔
      ∃ seen, (peerObservation.map fun peer =>
          saturatingElapsedMs now peer.observedAt) = some seen ∧
        seen.toNat < (durationMillisU64 runtime.deadTimeout).toNat +
          runtime.holdDownMs.toNat := by
  have deadTimeoutMs : (durationMillisU64 runtime.deadTimeout).toNat =
      runtime.advertIntervalMs.toNat * runtime.deadFactor.toNat := by
    rw [toNat_durationMillisU64, Duration.asMillis, HaRuntimeConfig.deadTimeout,
      HaRuntimeConfig.advertInterval, Duration.nanos_fromMillis_saturatingMul,
      Nat.mul_div_cancel _ (by decide)]
    exact Nat.min_eq_left (by omega)
  rw [deadTimeoutMs]
  cases peerObservation with
  | none => simp
  | some peer =>
      have elapsed := saturatingElapsedMs_lt_iff (ordered peer rfl) fits
      have live_iff : (livePeer runtime (some peer) now).isSome = true ↔
          peer.LiveAt runtime now := by
        by_cases live : peer.LiveAt runtime now
        · simp [livePeer_of_live live, live]
        · simp [livePeer_of_expired live, live]
      rw [live_iff, PeerObservation.LiveAt, HaRuntimeConfig.window, ← elapsed]
      simp

/-- A refresh publishes the loop state it leaves behind. -/
theorem publish_refresh {statusTx : Bool} {snapshot : HaStatus}
    (published : .publish snapshot ∈
      (refreshLocalState runtime statusTx loopState now).2) :
    snapshot = statusSnapshot runtime (refreshed runtime loopState now) now := by
  rw [← refreshLocalState_fst runtime statusTx]
  have ofLoopStatus : ∀ left : HaLoopState,
      .publish snapshot ∈ publishLoopStatus runtime statusTx left now →
        snapshot = statusSnapshot runtime left now := by
    intro left member
    cases statusTx with
    | false => cases member
    | true => simpa [publishLoopStatus] using member
  simp only [refreshLocalState] at published ⊢
  split at published
  · next same =>
      rw [if_pos same]
      exact ofLoopStatus _ published
  · next changed =>
      rw [if_neg changed]
      rcases List.mem_append.mp published with spawned | ofStatus
      · simp only [triggerStateHooks, if_neg changed] at spawned
        split at spawned <;> simp at spawned
      · exact ofLoopStatus _ ofStatus

/-- After a silent window the last acceptance is not live. -/
theorem not_lastIsLive_of_silent (silent : Silent runtime accepted now)
    (bounded : ∀ advert ∈ accepted, advert.observedAt ≤ now) :
    ¬LastIsLive runtime accepted now property := by
  rintro ⟨last, isLast, live, _⟩
  have member := List.mem_of_getLast? isLast
  have recent := silent last member
  have bound := bounded last member
  rw [Acceptance.LiveAt] at live
  omega

namespace HaDecisionReason.ExplainedBy

variable {reason : HaDecisionReason} {state : HaState} {startupAt : Int} {yields : Prop}

/-- A reason that names an owner is given next to a live owner. -/
theorem owner (explained : reason.ExplainedBy runtime state startupAt now accepted yields)
    (named : reason ∈ peerOwns) :
    LastIsLive runtime accepted now fun peer => peer.state = .active := by
  simp only [peerOwns, List.mem_cons, List.not_mem_nil, or_false] at named
  rcases named with named | named | named | named
  · exact (explained.peerActiveNoPreempt.mp named).2.imp fun _ => And.left
  · exact (explained.peerBecameActiveConflict.mp named).2.imp fun _ => And.left
  · exact (explained.preemptHigherPriority.mp named).2.2.imp fun _ => And.left
  · exact (explained.preemptNodeIdTiebreak.mp named).2.2.imp fun _ => And.left

/-- A reason that compares with a peer is given next to a live one. -/
theorem live (explained : reason.ExplainedBy runtime state startupAt now accepted yields)
    (compares : reason ∈ comparesPeer) :
    LastIsLive runtime accepted now fun _ => True := by
  have split : reason ∈ peerOwns ∨ reason ∈ [.localHigherPriority, .localNodeIdTiebreak,
      .peerHigherPriority, .peerNodeIdTiebreak] := by
    simp only [comparesPeer, peerOwns, List.mem_cons, List.not_mem_nil] at compares ⊢
    tauto
  rcases split with owns | ranked
  · exact (explained.owner owns).imp fun _ _ => trivial
  · simp only [List.mem_cons, List.not_mem_nil, or_false] at ranked
    rcases ranked with ranked | ranked | ranked | ranked
    · exact (explained.localHigherPriority.mp ranked).2.imp fun _ _ => trivial
    · exact (explained.localNodeIdTiebreak.mp ranked).2.imp fun _ _ => trivial
    · exact (explained.peerHigherPriority.mp ranked).imp fun _ _ => trivial
    · exact (explained.peerNodeIdTiebreak.mp ranked).imp fun _ _ => trivial

/-- A reason to win, or to stay `Active` next to a live peer, is given where the
peer is not `Active`. -/
theorem passive
    (explained : reason.ExplainedBy runtime state startupAt now accepted yields)
    (stays : reason ∈ [.localHigherPriority, .localNodeIdTiebreak] ∨
      reason = .alreadyActive ∧ LastIsLive runtime accepted now fun _ => True) :
    LastIsLive runtime accepted now fun peer => peer.state ≠ .active := by
  simp only [List.mem_cons, List.not_mem_nil, or_false] at stays
  rcases stays with (wins | wins) | ⟨stays, live⟩
  · exact (explained.localHigherPriority.mp wins).2.imp fun _ => And.left
  · exact (explained.localNodeIdTiebreak.mp wins).2.imp fun _ => And.left
  · apply (explained.alreadyActive.mp stays).2.resolve_left
    rintro rfl
    exact lastIsLive_nil live

end HaDecisionReason.ExplainedBy

/-- The last acceptance, if any, is not later than now. -/
theorem observedAt_le (bounded : ∀ advert ∈ accepted, advert.observedAt ≤ now) :
    ∀ peer ∈ observation accepted, peer.observedAt ≤ now := by
  intro peer member
  rcases List.eq_nil_or_concat' accepted with rfl | ⟨earlier, last, rfl⟩
  · cases member
  · rw [observation_append] at member
    cases member
    exact bounded last (by simp)

/-- A decision explained by the history is published in a status that agrees
with it. -/
theorem agrees_of_explained {state : HaState} {startupAt : Int} {yields : Prop}
    (observed : loopState.peerObservation = observation accepted)
    (bounded : ∀ advert ∈ accepted, advert.observedAt ≤ now)
    (explained : loopState.decisionReason.ExplainedBy runtime state startupAt now
      accepted yields)
    (fits : runtime.advertIntervalMs.toNat * runtime.deadFactor.toNat +
      runtime.holdDownMs.toNat < 2 ^ 64) :
    (statusSnapshot runtime loopState now).Agrees runtime loopState.peerObservation
      now := by
  have alive : (statusSnapshot runtime loopState now).peerAlive = true ↔
      LastIsLive runtime accepted now fun _ => True := by
    rw [← livePeer_observation, ← observed]
    rfl
  have peerState : ∀ {property : HaPacket → Prop},
      LastIsLive runtime accepted now property →
      ∃ packet, (statusSnapshot runtime loopState now).peerState =
        some packet.state ∧ property packet := by
    intro property holds
    have stateOf := holds.peerState
    rw [← observed] at stateOf
    exact stateOf
  refine ⟨Iff.rfl, ?aliveSeen, ?timeout, ?startup, ?compared, ?owned, ?passive⟩
  case aliveSeen =>
    apply livePeer_iff_elapsed _ fits
    rw [observed]
    exact observedAt_le bounded
  case timeout =>
    intro reason
    rcases explained.peerTimeout.mp reason with ⟨heard, silent⟩
    refine ⟨?_, ?_⟩
    · rw [← Bool.not_eq_true, alive]
      exact not_lastIsLive_of_silent silent bounded
    · rcases List.eq_nil_or_concat' accepted with rfl | ⟨earlier, last, rfl⟩
      · exact absurd rfl heard
      · simp [statusSnapshot, observed]
  case startup =>
    intro reason
    have nothing : accepted = [] := by
      simp only [List.mem_cons, List.not_mem_nil, or_false] at reason
      rcases reason with hold | expired
      · exact (explained.startupHold.mp hold).1
      · exact (explained.startupDeadlineExpired.mp expired).1
    rw [nothing, observation_nil] at observed
    simp [statusSnapshot, observed]
  case compared =>
    intro reason
    rw [alive]
    exact explained.live reason
  case owned =>
    intro reason
    rcases peerState (explained.owner reason) with ⟨packet, stateEq, active⟩
    rw [stateEq, active]
  case passive =>
    intro reason
    rw [alive] at reason
    rcases peerState (explained.passive reason) with ⟨packet, stateEq, notActive⟩
    exact ⟨packet.state, stateEq, notActive⟩

end Snapshot

/-- Every snapshot a refresh publishes agrees with the decision it was published
with. -/
theorem published_status_agrees (process : HaProcess) (startupAt scheduledAt now : Int)
    (before after : List (Transition RunState RunInput Effect))
    (refresh : Transition RunState RunInput Effect) (final : RunState)
    (snapshot : HaStatus)
    (run : process.runWithStatus.Run (process.startRun startupAt scheduledAt)
      (before ++ refresh :: after) final)
    (refreshes : refresh.input = .event (.refresh now))
    (published : .publish snapshot ∈ refresh.output)
    (fits : process.runtime.advertIntervalMs.toNat * process.runtime.deadFactor.toNat +
      process.runtime.holdDownMs.toNat < 2 ^ 64) :
    snapshot.Agrees process.runtime refresh.before.node.loopState.peerObservation now := by
  rcases run.split_at with ⟨beforeRun, refreshTaken, _⟩
  have ordered := (clock_of_refresh refreshTaken refreshes).1
  rw [output_of_refresh refreshTaken refreshes] at published
  obtain rfl := publish_refresh published
  have observed :
      (refreshed process.runtime refresh.before.node.loopState now).peerObservation =
        observation (process.history before) := by
    rw [refreshed_peerObservation, peerObservation_eq beforeRun]
  have explained := refreshDecision_explained beforeRun ordered
    (latch_iff_conflictInForce beforeRun)
  rw [← refreshed_decisionReason] at explained
  rw [← refreshed_peerObservation process.runtime _ now]
  apply agrees_of_explained observed _ explained fits
  intro advert member
  exact ((history_ordered beforeRun).2 advert member).trans ordered

/-! ## A conflict as an operator sees it -/

def watchedTrace : List (Transition RunState RunInput Effect) :=
  watchedProcess.runWithStatus.record (watchedProcess.startRun 0 0) [
    .event (.refresh 0),
    demoArrival "low" 100 .standby 1 1,
    .event (.refresh 1),
    demoArrival "low" 100 .active 2 2,
    .event (.refresh 2)]

theorem published_status_agrees_watched :
    ∃ refresh ∈ watchedTrace, ∃ snapshot, .publish snapshot ∈ refresh.output ∧
      snapshot.decisionReason = .peerBecameActiveConflict ∧
      snapshot.peerAlive = true ∧ snapshot.peerState = some .active := by
  have conflict : ∃ refresh ∈ watchedTrace, refreshTime refresh.input = some 2 ∧
      refresh.output.getLast? = some (.publish (statusSnapshot watchedProcess.runtime
        refresh.after.node.loopState 2)) ∧
      refresh.after.node.loopState.decisionReason = .peerBecameActiveConflict := by
    decide +kernel
  rcases conflict with ⟨refresh, member, time, published, reason⟩
  rcases List.append_of_mem member with ⟨before, after, split⟩
  have run : watchedProcess.runWithStatus.Run (watchedProcess.startRun 0 0) watchedTrace
      (Machine.finalState (watchedProcess.startRun 0 0) watchedTrace) :=
    Machine.run_record _ (by decide +kernel)
  rw [split] at run
  have agrees := published_status_agrees watchedProcess 0 0 2 before after refresh _ _ run
    (refreshTime_eq_some.mp time) (List.mem_of_getLast? published) (by decide)
  refine ⟨refresh, member, _, List.mem_of_getLast? published, reason, ?_, ?_⟩
  · apply agrees.compared
    simp [statusSnapshot, reason, HaDecisionReason.comparesPeer]
  · apply agrees.owned
    simp [statusSnapshot, reason, HaDecisionReason.peerOwns]

end Gruezi.Ha
