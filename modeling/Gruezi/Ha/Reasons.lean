import Gruezi.Ha.ConflictLatch

/-!
# Decision reasons

Every refresh records a reason.  Each of the twelve is characterised by what was
accepted before the refresh, when, and whether the node is `Active`; the flag
and the latch the code decides by do not appear.
-/

namespace Gruezi.Ha

open Rust Lib HaProcess

/-- The last of the accepted advertisements is live at `now` and has the
property. -/
def LastIsLive (runtime : HaRuntimeConfig) (accepted : List Acceptance) (now : Int)
    (property : HaPacket → Prop) : Prop :=
  ∃ last ∈ accepted.getLast?, last.LiveAt runtime now ∧ property last.packet

/-- None of the accepted advertisements arrived within the last window. -/
def Silent (runtime : HaRuntimeConfig) (accepted : List Acceptance) (now : Int) : Prop :=
  ∀ advert ∈ accepted,
    ¬(now - runtime.window < advert.observedAt ∧ advert.observedAt ≤ now)

/-- The node ranks above the sender of the packet, by priority or, at equal
priority, by node id. -/
def RanksAbove (runtime : HaRuntimeConfig) (packet : HaPacket) : Prop :=
  packet.priority < runtime.priority ∨
    runtime.priority = packet.priority ∧ cmpStr runtime.nodeId packet.nodeId = .gt

/-- The reason is the one that the history of accepted advertisements, the
local state and the clock call for.  `yields` says whether the node has to yield
to an `Active` peer it outranks. -/
structure HaDecisionReason.ExplainedBy (reason : HaDecisionReason)
    (runtime : HaRuntimeConfig) (state : HaState) (startupAt now : Int)
    (accepted : List Acceptance) (yields : Prop) : Prop where
  startupHold : reason = .startupHold ↔
    accepted = [] ∧ state ≠ .active ∧ now < startupAt + runtime.window
  startupDeadlineExpired : reason = .startupDeadlineExpired ↔
    accepted = [] ∧ state ≠ .active ∧ startupAt + runtime.window ≤ now
  peerTimeout : reason = .peerTimeout ↔
    accepted ≠ [] ∧ Silent runtime accepted now
  alreadyActive : reason = .alreadyActive ↔
    state = .active ∧
      (accepted = [] ∨ LastIsLive runtime accepted now fun peer => peer.state ≠ .active)
  localHigherPriority : reason = .localHigherPriority ↔
    state ≠ .active ∧ LastIsLive runtime accepted now fun peer =>
      peer.state ≠ .active ∧ peer.priority < runtime.priority
  localNodeIdTiebreak : reason = .localNodeIdTiebreak ↔
    state ≠ .active ∧ LastIsLive runtime accepted now fun peer =>
      peer.state ≠ .active ∧ runtime.priority = peer.priority ∧
        cmpStr runtime.nodeId peer.nodeId = .gt
  peerHigherPriority : reason = .peerHigherPriority ↔
    LastIsLive runtime accepted now fun peer =>
      (peer.state = .active ∧ runtime.preempt = true ∨
        peer.state ≠ .active ∧ state ≠ .active) ∧
        runtime.priority < peer.priority
  peerNodeIdTiebreak : reason = .peerNodeIdTiebreak ↔
    LastIsLive runtime accepted now fun peer =>
      (peer.state = .active ∧ runtime.preempt = true ∨
        peer.state ≠ .active ∧ state ≠ .active) ∧
        runtime.priority = peer.priority ∧ cmpStr runtime.nodeId peer.nodeId = .lt
  peerBecameActiveConflict : reason = .peerBecameActiveConflict ↔
    yields ∧ LastIsLive runtime accepted now fun peer =>
      peer.state = .active ∧ RanksAbove runtime peer
  peerActiveNoPreempt : reason = .peerActiveNoPreempt ↔
    runtime.preempt = false ∧ LastIsLive runtime accepted now fun peer =>
      peer.state = .active ∧ ¬(yields ∧ RanksAbove runtime peer)
  preemptHigherPriority : reason = .preemptHigherPriority ↔
    runtime.preempt = true ∧ ¬yields ∧ LastIsLive runtime accepted now fun peer =>
      peer.state = .active ∧ peer.priority < runtime.priority
  preemptNodeIdTiebreak : reason = .preemptNodeIdTiebreak ↔
    runtime.preempt = true ∧ ¬yields ∧ LastIsLive runtime accepted now fun peer =>
      peer.state = .active ∧ runtime.priority = peer.priority ∧
        cmpStr runtime.nodeId peer.nodeId = .gt

section Decision

variable {runtime : HaRuntimeConfig} {state : HaState} {startupAt now : Int}
variable {accepted earlier : List Acceptance} {last : Acceptance}
variable {property : HaPacket → Prop}

@[simp] theorem lastIsLive_nil : ¬LastIsLive runtime [] now property := by
  simp [LastIsLive]

@[simp] theorem lastIsLive_append :
    LastIsLive runtime (earlier ++ [last]) now property ↔
      last.LiveAt runtime now ∧ property last.packet := by
  simp [LastIsLive]

/-- Two nodes with distinct ids rank one way or the other, and `outranks`
computes which. -/
theorem rank_cases {packet : HaPacket} (distinct : packet.nodeId ≠ runtime.nodeId) :
    (outranks runtime.priority runtime.nodeId packet.priority packet.nodeId = true ∧
      (packet.priority < runtime.priority ∨
        runtime.priority = packet.priority ∧
          cmpStr runtime.nodeId packet.nodeId = .gt)) ∨
    (outranks runtime.priority runtime.nodeId packet.priority packet.nodeId = false ∧
      (runtime.priority < packet.priority ∨
        runtime.priority = packet.priority ∧
          cmpStr runtime.nodeId packet.nodeId = .lt)) := by
  cases ranks : outranks runtime.priority runtime.nodeId packet.priority
      packet.nodeId with
  | true => exact .inl ⟨rfl, outranks_eq_true.mp ranks⟩
  | false =>
      right
      refine ⟨rfl, ?_⟩
      have reversed := outranks_total distinct.symm ranks
      rcases outranks_eq_true.mp reversed with lower | ⟨ties, order⟩
      · exact .inl lower
      · refine .inr ⟨ties.symm, ?_⟩
        rw [← cmpStr_swap, order]
        rfl

/-- A window in which nothing was accepted is one in which the last acceptance
no longer counts. -/
theorem silent_iff (ordered : (earlier ++ [last]).Pairwise (·.observedAt ≤ ·.observedAt))
    (bounded : ∀ advert ∈ earlier ++ [last], advert.observedAt ≤ now) :
    Silent runtime (earlier ++ [last]) now ↔ ¬last.LiveAt runtime now := by
  rw [Acceptance.LiveAt, not_lt]
  constructor
  · intro silent
    have lastSilent := silent last (by simp)
    have lastBound := bounded last (by simp)
    omega
  · intro expired advert member recent
    have notAfter : advert.observedAt ≤ last.observedAt := by
      rcases List.mem_append.mp member with old | new
      · exact (List.pairwise_append.mp ordered).2.2 advert old last (by simp)
      · rw [List.mem_singleton.mp new]
    omega

/-- With no acceptance yet, only the start of the process and the local state
count. -/
theorem explained_none (activePeerConflict : Bool) (yields : Prop) :
    (desiredState runtime state none startupAt now
      activePeerConflict).reason.ExplainedBy runtime state startupAt now [] yields := by
  rw [desiredState_none]
  by_cases owner : state = .active
  · rw [if_pos owner]
    constructor <;> simp [owner]
  · rw [if_neg owner]
    by_cases due : startupAt + runtime.window ≤ now
    · rw [if_pos due]
      constructor <;> simp [owner, due]
    · rw [if_neg due]
      constructor <;> simp [owner, due, not_le.mp due]

variable {peer : PeerObservation}

/-- The situation next to a live peer that does not own the address. -/
theorem explained_passivePeer (activePeerConflict : Bool) (yields : Prop)
    (live : last.LiveAt runtime now) (passive : last.packet.state ≠ .active)
    (distinct : last.packet.nodeId ≠ runtime.nodeId)
    (heard : ¬Silent runtime (earlier ++ [last]) now) :
    (desiredState runtime state (observation (earlier ++ [last])) startupAt now
      activePeerConflict).reason.ExplainedBy runtime state startupAt now
        (earlier ++ [last]) yields := by
  have peerLive : (last.packet.observed (observation earlier) last.observedAt).LiveAt
      runtime now := live
  rw [observation_append, desiredState_passivePeer peerLive passive]
  by_cases owner : state = .active
  · rw [if_pos owner]
    constructor <;> simp [owner, live, passive, heard]
  · rw [if_neg owner]
    rcases rank_cases distinct with ⟨wins, higher | ⟨ties, first⟩⟩ |
      ⟨loses, lower | ⟨ties, second⟩⟩
    · have notLower := UInt8.lt_asymm higher
      have unequal := (UInt8.ne_of_lt higher).symm
      simp only [HaPacket.observed, wins, if_true]
      constructor <;> simp [owner, live, passive, heard, higher, notLower, unequal]
    · simp only [HaPacket.observed, wins, if_true]
      constructor <;> simp [owner, live, passive, heard, ties, first]
    · have notHigher := UInt8.lt_asymm lower
      have unequal := UInt8.ne_of_lt lower
      simp only [HaPacket.observed, loses, Bool.false_eq_true, if_false]
      constructor <;> simp [owner, live, passive, heard, lower, notHigher, unequal]
    · simp only [HaPacket.observed, loses, Bool.false_eq_true, if_false]
      constructor <;> simp [owner, live, passive, heard, ties, second]

/-- The situation next to a live peer that owns the address. -/
theorem explained_activePeer {activePeerConflict : Bool} {yields : Prop}
    (live : last.LiveAt runtime now) (peerActive : last.packet.state = .active)
    (distinct : last.packet.nodeId ≠ runtime.nodeId)
    (heard : ¬Silent runtime (earlier ++ [last]) now)
    (yields_iff : yields ↔
      EndsInPromotion (earlier ++ [last]) ∨ activePeerConflict = true) :
    (desiredState runtime state (observation (earlier ++ [last])) startupAt now
      activePeerConflict).reason.ExplainedBy runtime state startupAt now
        (earlier ++ [last]) yields := by
  have peerLive : (last.packet.observed (observation earlier) last.observedAt).LiveAt
      runtime now := live
  rw [observation_append, desiredState_activePeer peerLive peerActive,
    desiredStateWithActivePeer]
  rw [← becameActive_iff, ← Bool.or_eq_true] at yields_iff
  generalize ((last.packet.observed (observation earlier)
    last.observedAt).becameActive || activePeerConflict) = yielding at yields_iff ⊢
  obtain rfl := propext yields_iff
  simp only [HaPacket.observed]
  rcases rank_cases distinct with ⟨wins, higher | ⟨ties, first⟩⟩ |
    ⟨loses, lower | ⟨ties, second⟩⟩
  · have notLower := UInt8.lt_asymm higher
    have unequal := (UInt8.ne_of_lt higher).symm
    simp only [wins, Bool.true_and, Bool.and_true]
    cases yielding <;> cases preempt : runtime.preempt <;> constructor <;>
      simp [live, peerActive, heard, higher, notLower, unequal, preempt, RanksAbove]
  · simp only [wins, Bool.true_and, Bool.and_true]
    cases yielding <;> cases preempt : runtime.preempt <;> constructor <;>
      simp [live, peerActive, heard, ties, first, preempt, RanksAbove]
  · have notHigher := UInt8.lt_asymm lower
    have unequal := UInt8.ne_of_lt lower
    simp only [loses, Bool.false_and, Bool.and_false]
    cases yielding <;> cases preempt : runtime.preempt <;> constructor <;>
      simp [live, peerActive, heard, lower, UInt8.le_of_lt lower, notHigher, unequal,
        preempt, RanksAbove]
  · simp only [loses, Bool.false_and, Bool.and_false]
    cases yielding <;> cases preempt : runtime.preempt <;> constructor <;>
      simp [live, peerActive, heard, ties, second, preempt, RanksAbove]

/-- The decision is explained by the history the observation is folded from. -/
theorem explained_of_history {activePeerConflict : Bool} {yields : Prop}
    (ordered : accepted.Pairwise (·.observedAt ≤ ·.observedAt))
    (bounded : ∀ advert ∈ accepted, advert.observedAt ≤ now)
    (foreign : ∀ advert ∈ accepted, advert.packet.nodeId ≠ runtime.nodeId)
    (yields_iff : yields ↔ EndsInPromotion accepted ∨ activePeerConflict = true) :
    (desiredState runtime state (observation accepted) startupAt now
      activePeerConflict).reason.ExplainedBy runtime state startupAt now accepted
        yields := by
  rcases List.eq_nil_or_concat' accepted with rfl | ⟨earlier, last, rfl⟩
  · exact explained_none activePeerConflict yields
  · have silent : Silent runtime (earlier ++ [last]) now ↔ ¬last.LiveAt runtime now :=
      silent_iff ordered bounded
    have distinct := foreign last (by simp)
    by_cases live : last.LiveAt runtime now
    · have heard := mt silent.mp (not_not.mpr live)
      by_cases peerActive : last.packet.state = .active
      · exact explained_activePeer live peerActive distinct heard yields_iff
      · exact explained_passivePeer _ _ live peerActive distinct heard
    · have expired : ¬(last.packet.observed (observation earlier)
          last.observedAt).LiveAt runtime now := live
      rw [observation_append, desiredState_expired expired]
      constructor <;> simp [silent, live]

end Decision

/-! ## Along a run -/

/-- A conflict the node has yielded in and that is not over: it began with a
refresh right after the promotion of a peer of lower rank, and every refresh
since has found the last advertisement live and `Active`.  Nothing but accepted
advertisements and the clock readings of refreshes counts. -/
inductive ConflictInForce (process : HaProcess) :
    List (Transition RunState RunInput Effect) → Prop where
  | provoked {taken : List (Transition RunState RunInput Effect)}
      {refresh : Transition RunState RunInput Effect} {now : Int} :
      refresh.input = .event (.refresh now) →
      EndsInPromotion (process.history taken) →
      (LastIsLive process.runtime (process.history taken) now fun peer =>
        peer.state = .active ∧ RanksAbove process.runtime peer) →
      ConflictInForce process (taken ++ [refresh])
  | kept {taken : List (Transition RunState RunInput Effect)}
      {next : Transition RunState RunInput Effect} :
      ConflictInForce process taken →
      (∀ now, next.input = .event (.refresh now) →
        LastIsLiveActive process.runtime (process.history taken) now) →
      ConflictInForce process (taken ++ [next])

/-- The node has to yield to an `Active` peer it outranks: the last accepted
advertisement directly followed one of the same peer that was not `Active`, or a
conflict is in force. -/
def Yields (process : HaProcess) (taken : List (Transition RunState RunInput Effect)) :
    Prop :=
  EndsInPromotion (process.history taken) ∨ ConflictInForce process taken

section Run

variable {process : HaProcess} {startupAt scheduledAt now : Int} {final : RunState}
variable {taken : List (Transition RunState RunInput Effect)}
variable {next : Transition RunState RunInput Effect}

theorem conflictInForce_append :
    ConflictInForce process (taken ++ [next]) ↔
      (∃ now, next.input = .event (.refresh now) ∧
        EndsInPromotion (process.history taken) ∧
        LastIsLive process.runtime (process.history taken) now fun peer =>
          peer.state = .active ∧ RanksAbove process.runtime peer) ∨
      ConflictInForce process taken ∧ ∀ now, next.input = .event (.refresh now) →
        LastIsLiveActive process.runtime (process.history taken) now := by
  constructor
  · intro inForce
    generalize whole : taken ++ [next] = extended at inForce
    cases inForce with
    | provoked input promoted outranked =>
        rcases List.append_inj' whole rfl with ⟨rfl, single⟩
        cases single
        exact .inl ⟨_, input, promoted, outranked⟩
    | kept before heard =>
        rcases List.append_inj' whole rfl with ⟨rfl, single⟩
        cases single
        exact .inr ⟨before, heard⟩
  · rintro (⟨now, input, promoted, outranked⟩ | ⟨before, heard⟩)
    · exact .provoked input promoted outranked
    · exact .kept before heard

/-- What the decision of a refresh depends on, in terms of the history. -/
theorem refreshDecision_explained
    (run : process.runWithStatus.Run (process.startRun startupAt scheduledAt) taken
      final)
    (ordered : final.node.clock ≤ now)
    (latch_iff : final.node.loopState.activePeerConflict = true ↔
      ConflictInForce process taken) :
    (refreshDecision process.runtime final.node.loopState now).reason.ExplainedBy
      process.runtime final.node.loopState.state startupAt now (process.history taken)
        (Yields process taken) := by
  rcases history_ordered run with ⟨sorted, bounded⟩
  have startup : final.node.loopState.startupAt = startupAt := startupAt_of_run run
  rw [refreshDecision, peerObservation_eq run, startup]
  apply explained_of_history sorted
  · intro advert member
    exact (bounded advert member).trans ordered
  · intro advert member
    exact nodeId_ne_of_mem_history member
  · rw [Yields, latch_iff]

/-- The latch says whether a conflict is in force. -/
theorem latch_iff_conflictInForce
    (run : process.runWithStatus.Run (process.startRun startupAt scheduledAt) taken
      final) :
    final.node.loopState.activePeerConflict = true ↔ ConflictInForce process taken := by
  apply run.history_induction (motive := fun taken state =>
    state.node.loopState.activePeerConflict = true ↔ ConflictInForce process taken)
  · constructor
    · intro latched
      cases latched
    · intro inForce
      generalize nothing : ([] : List (Transition RunState RunInput Effect)) = empty
        at inForce
      cases inForce <;> simp at nothing
  · intro taken next before nextTaken _ latch_iff
    rw [conflictInForce_append]
    by_cases refreshes : ∃ now, next.input = .event (.refresh now)
    · rcases refreshes with ⟨now, input⟩
      have ordered := (clock_of_refresh nextTaken input).1
      have explained := refreshDecision_explained before ordered latch_iff
      rw [(refreshed_of_takes nextTaken input).2, refreshed_latched_iff,
        explained.peerBecameActiveConflict, hasLiveActivePeer_of_run before, latch_iff]
      constructor
      · rintro (⟨promoted | inForce, outranked⟩ | ⟨heard, inForce⟩)
        · exact .inl ⟨now, input, promoted, outranked⟩
        · refine .inr ⟨inForce, fun _ other => ?_⟩
          cases input.symm.trans other
          rcases outranked with ⟨last, isLast, live, peerActive, _⟩
          exact ⟨last, isLast, live, peerActive⟩
        · refine .inr ⟨inForce, fun _ other => ?_⟩
          cases input.symm.trans other
          exact heard
      · rintro (⟨_, other, promoted, outranked⟩ | ⟨inForce, heard⟩)
        · cases input.symm.trans other
          exact .inl ⟨.inl promoted, outranked⟩
        · exact .inr ⟨heard now input, inForce⟩
    · rw [latch_of_not_refresh nextTaken fun now input => refreshes ⟨now, input⟩,
        latch_iff]
      constructor
      · intro inForce
        exact .inr ⟨inForce, fun now input => absurd ⟨now, input⟩ refreshes⟩
      · rintro (⟨now, input, _⟩ | ⟨inForce, _⟩)
        · exact absurd ⟨now, input⟩ refreshes
        · exact inForce

/-- Every refresh of every run records the reason its history calls for. -/
theorem decision_explained (process : HaProcess) (startupAt scheduledAt now : Int)
    (before after : List (Transition RunState RunInput Effect))
    (refresh : Transition RunState RunInput Effect) (final : RunState)
    (run : process.runWithStatus.Run (process.startRun startupAt scheduledAt)
      (before ++ refresh :: after) final)
    (refreshes : refresh.input = .event (.refresh now)) :
    refresh.after.node.loopState.decisionReason.ExplainedBy process.runtime
      refresh.before.node.loopState.state startupAt now (process.history before)
      (Yields process before) := by
  rcases run.split_at with ⟨beforeRun, refreshTaken, _⟩
  have ordered := (clock_of_refresh refreshTaken refreshes).1
  rw [(refreshed_of_takes refreshTaken refreshes).2, refreshed_decisionReason]
  exact refreshDecision_explained beforeRun ordered (latch_iff_conflictInForce beforeRun)

end Run

/-- The yielding node explains its conflict by the promotion it has seen. -/
theorem decision_explained_yield :
    ∃ before refresh after, yieldTrace = before ++ refresh :: after ∧
      refresh.after.node.loopState.decisionReason = .peerBecameActiveConflict ∧
      Yields (demoProcess "high" 200 false) before ∧
      LastIsLive (demoProcess "high" 200 false).runtime
        ((demoProcess "high" 200 false).history before) 2 fun peer =>
          peer.state = .active ∧
            RanksAbove (demoProcess "high" 200 false).runtime peer := by
  have conflict : ∃ refresh ∈ yieldTrace, refreshTime refresh.input = some 2 ∧
      refresh.after.node.loopState.decisionReason = .peerBecameActiveConflict := by
    decide +kernel
  rcases conflict with ⟨refresh, member, time, reason⟩
  rcases List.append_of_mem member with ⟨before, after, split⟩
  have run := yieldTrace_run
  rw [split] at run
  have explained := decision_explained (demoProcess "high" 200 false) 0 0 2 before after
    refresh _ run (refreshTime_eq_some.mp time)
  exact ⟨before, refresh, after, split, reason,
    explained.peerBecameActiveConflict.mp reason⟩

end Gruezi.Ha
