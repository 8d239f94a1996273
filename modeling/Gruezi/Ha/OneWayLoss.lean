import Gruezi.Ha.Run

/-!
# Yielding to an `Active` peer

What a node does that keeps hearing `Active` advertisements of a peer it
outranks.  Without preemption it never stays `Active` next to one.  With
preemption it yields to a peer whose promotion it has witnessed, and goes on
doing so for as long as it hears that peer without a lapse.
-/

namespace Gruezi.Ha

open Rust Lib HaProcess

/-- The clock reading of a refresh. -/
def refreshTime : RunInput → Option Int
  | .event (.refresh now) => some now
  | _ => none

theorem refreshTime_eq_some {input : RunInput} {now : Int} :
    refreshTime input = some now ↔ input = .event (.refresh now) := by
  cases input with
  | event event => cases event <;> simp [refreshTime]
  | shutdown | beginCleanup | addressesRemoved | faultHookReturned => simp [refreshTime]

/-- The loop state owns the address while a live observation says that the
lower-ranked peer `peerId` owns it as well. -/
def DualActiveAt (runtime : HaRuntimeConfig) (peerId : String) (now : Int)
    (loopState : HaLoopState) : Prop :=
  loopState.state = .active ∧
    ∃ peer ∈ loopState.peerObservation, peer.nodeId = peerId ∧
      peer.LiveAt runtime now ∧ peer.state = .active ∧
      outranks runtime.priority runtime.nodeId peer.priority peer.nodeId = true

instance (runtime : HaRuntimeConfig) (peerId : String) (now : Int)
    (loopState : HaLoopState) : Decidable (DualActiveAt runtime peerId now loopState) :=
  inferInstanceAs (Decidable (_ ∧ _))

/-- A stretch of a run from one refresh to another, more than one liveness window
apart, in which every refresh comes out dual-active with the same peer. -/
structure DualActiveSpan (process : HaProcess) (peerId : String)
    (span : List (Transition RunState RunInput Effect)) : Prop where
  apart : ∃ firstAt ∈ span.head?.bind (refreshTime ·.input),
    ∃ lastAt ∈ span.getLast?.bind (refreshTime ·.input),
      firstAt + process.runtime.window < lastAt
  dualActive : ∀ transition ∈ span, ∀ now ∈ refreshTime transition.input,
    DualActiveAt process.runtime peerId now transition.after.node.loopState

instance (process : HaProcess) (peerId : String)
    (span : List (Transition RunState RunInput Effect)) :
    Decidable (DualActiveSpan process peerId span) :=
  decidable_of_iff _
    ⟨fun parts => ⟨parts.1, parts.2⟩, fun span => And.intro span.apart span.dualActive⟩

section Witnessed

variable (process : HaProcess) (peerId : String)

/-- The transition keeps a witnessed promotion in force: it hears nobody else,
not the peer under a rank that wins, and it does not find an `Active`
observation expired. -/
structure KeepsWatch (transition : Transition RunState RunInput Effect) : Prop where
  accepted : ∀ packet observedAt, process.Accepts transition.input packet observedAt →
    packet.nodeId = peerId ∧
      (packet.state ≠ .active ∨ outranks process.runtime.priority
        process.runtime.nodeId packet.priority packet.nodeId = true)
  refreshed : ∀ now, transition.input = .event (.refresh now) →
    ∀ peer ∈ transition.before.node.loopState.peerObservation,
      peer.state = .active → peer.LiveAt process.runtime now

/-- The node has accepted an advertisement in which the peer was not `Active`,
and has kept watch since. -/
def Witnessed (taken : List (Transition RunState RunInput Effect)) : Prop :=
  ∃ old sighting recent, taken = old ++ sighting :: recent ∧
    (∃ packet observedAt, process.Accepts sighting.input packet observedAt ∧
      packet.nodeId = peerId ∧ packet.state ≠ .active) ∧
    ∀ transition ∈ recent, KeepsWatch process peerId transition

/-- What holds of the loop while watch is kept: an `Active` observation of the
peer is one to yield to. -/
structure Watching (state : RunState) (peer : PeerObservation) : Prop where
  observed : state.node.loopState.peerObservation = some peer
  nodeId : peer.nodeId = peerId
  yields : peer.state = .active →
    outranks process.runtime.priority process.runtime.nodeId peer.priority
        peer.nodeId = true ∧
      (state.node.loopState.activePeerConflict = true ∨
        state.phase = .refreshing ∧ peer.becameActive = true)

variable {process peerId}

/-- A refresh that finds a live peer to yield to yields. -/
theorem refreshDecision_conflict {runtime : HaRuntimeConfig} {loopState : HaLoopState}
    {peer : PeerObservation} {now : Int}
    (observed : loopState.peerObservation = some peer) (live : peer.LiveAt runtime now)
    (peerActive : peer.state = .active)
    (wins : outranks runtime.priority runtime.nodeId peer.priority peer.nodeId = true)
    (conflict : peer.becameActive = true ∨ loopState.activePeerConflict = true) :
    refreshDecision runtime loopState now =
      { state := .standby, reason := .peerBecameActiveConflict } := by
  rw [refreshDecision, observed, desiredState_activePeer live peerActive,
    desiredStateWithActivePeer]
  have yields : (peer.becameActive || loopState.activePeerConflict) = true :=
    (Bool.or_eq_true _ _).mpr conflict
  simp only [wins, yields, Bool.and_self, if_true]

/-- Accepting an advertisement that is not `Active` starts the watch. -/
theorem watching_of_sighting {transition : Transition RunState RunInput Effect}
    {packet : HaPacket} {observedAt : Int}
    (taken : process.runWithStatus.Takes transition)
    (accepts : process.Accepts transition.input packet observedAt)
    (samePeer : packet.nodeId = peerId) (passive : packet.state ≠ .active) :
    ∃ peer, Watching process peerId transition.after peer := by
  refine ⟨_, ⟨peerObservation_of_accepts taken accepts, samePeer, ?_⟩⟩
  intro peerActive
  exact absurd peerActive passive

/-- Step lemma: transitions that keep watch preserve the invariant. -/
theorem Watching.step {transition : Transition RunState RunInput Effect}
    {peer : PeerObservation} (taken : process.runWithStatus.Takes transition)
    (keeps : KeepsWatch process peerId transition)
    (watching : Watching process peerId transition.before peer) :
    ∃ peer, Watching process peerId transition.after peer := by
  cases (steps_of_takes taken).evolves with
  | refreshed now input phase loopState =>
      refine ⟨peer, ⟨?_, watching.nodeId, ?_⟩⟩
      · rw [loopState, refreshed_peerObservation]
        exact watching.observed
      · intro peerActive
        rcases watching.yields peerActive with ⟨wins, latchedOrFresh⟩
        have live := keeps.refreshed now input peer watching.observed peerActive
        have conflict : peer.becameActive = true ∨
            transition.before.node.loopState.activePeerConflict = true :=
          latchedOrFresh.symm.imp_left And.right
        refine ⟨wins, .inl ?_⟩
        rw [loopState, refreshed_activePeerConflict,
          refreshDecision_conflict watching.observed live peerActive wins conflict]
        rfl
  | accepted packet observedAt accepts phase nextPhase changed =>
      rcases keeps.accepted packet observedAt accepts with ⟨samePeer, passiveOrWins⟩
      rcases changed with ⟨counters, loopState⟩
      refine ⟨_, ⟨by rw [loopState], samePeer, ?_⟩⟩
      intro peerActive
      refine ⟨passiveOrWins.resolve_left (· peerActive), ?_⟩
      -- The previous observation decides whether this one counts as a promotion.
      by_cases previousActive : peer.state = .active
      · rcases watching.yields previousActive with ⟨_, latched | ⟨refreshing, _⟩⟩
        · exact .inl (by rw [loopState]; exact latched)
        · cases phase.symm.trans refreshing
      · right
        refine ⟨nextPhase, ?_⟩
        have packetActive : packet.state = .active := peerActive
        simp [HaPacket.observed, watching.observed, watching.nodeId, samePeer,
          packetActive, previousActive]
  | unchanged _ _ phase observation latch _ =>
      refine ⟨peer, ⟨observation.trans watching.observed, watching.nodeId, ?_⟩⟩
      intro peerActive
      rcases watching.yields peerActive with ⟨wins, latched | ⟨refreshing, _⟩⟩
      · exact ⟨wins, .inl (latch.trans latched)⟩
      · exact absurd refreshing phase

/-- Run lemma: after a witnessed promotion the invariant holds. -/
theorem watching_of_witnessed {start final : RunState}
    {taken : List (Transition RunState RunInput Effect)}
    (run : process.runWithStatus.Run start taken final)
    (witnessed : Witnessed process peerId taken) :
    ∃ peer, Watching process peerId final peer := by
  obtain ⟨old, sighting, recent, rfl, ⟨packet, observedAt, accepts, samePeer, passive⟩,
    keeps⟩ := witnessed
  rcases run.split_at with ⟨_, sightingTaken, recentRun⟩
  apply recentRun.invariant
    (motive := fun state => ∃ peer, Watching process peerId state peer)
    (watching_of_sighting sightingTaken accepts samePeer passive)
  intro next member nextTaken holds
  rcases holds with ⟨peer, watching⟩
  exact watching.step nextTaken (keeps next member)

end Witnessed

/-- A refresh that comes out dual-active was allowed to preempt, and had nothing
to yield to. -/
theorem preempts_of_dualActive {process : HaProcess} {peerId : String} {now : Int}
    {transition : Transition RunState RunInput Effect}
    (taken : process.runWithStatus.Takes transition)
    (input : transition.input = .event (.refresh now))
    (dualActive :
      DualActiveAt process.runtime peerId now transition.after.node.loopState) :
    process.runtime.preempt = true ∧
      ¬∃ peer, Watching process peerId transition.before peer := by
  rcases dualActive with ⟨active, peer, observedAfter, samePeer, live, peerActive, wins⟩
  have loopState := (refreshed_of_takes taken input).2
  rw [loopState, refreshed_state] at active
  rw [loopState, refreshed_peerObservation] at observedAfter
  have observed : transition.before.node.loopState.peerObservation = some peer :=
    observedAfter
  constructor
  · rw [refreshDecision, observed, desiredState_activePeer live peerActive,
      desiredStateWithActivePeer] at active
    cases preempt : process.runtime.preempt with
    | true => rfl
    | false =>
        simp only [preempt, Bool.false_and, Bool.false_eq_true, if_false] at active
        split at active <;> cases active
  · rintro ⟨other, watching⟩
    cases observed.symm.trans watching.observed
    rcases watching.yields peerActive with ⟨_, latchedOrFresh⟩
    rw [refreshDecision_conflict observed live peerActive wins
      (latchedOrFresh.symm.imp_left And.right)] at active
    cases active

/-- A node stays dual-active for more than a window only if it may preempt and
has not witnessed the promotion of its peer. -/
theorem no_dualActiveSpan_of_witnessed (process : HaProcess) (peerId : String)
    (startupAt scheduledAt : Int)
    (before span after : List (Transition RunState RunInput Effect)) (final : RunState)
    (run : process.runWithStatus.Run (process.startRun startupAt scheduledAt)
      (before ++ (span ++ after)) final)
    (dualActive : DualActiveSpan process peerId span) :
    process.runtime.preempt = true ∧ ¬Witnessed process peerId before := by
  rcases run.split with ⟨state, beforeRun, restRun⟩
  rcases dualActive.apart with ⟨firstAt, firstRefresh, _⟩
  cases span with
  | nil => cases firstRefresh
  | cons first rest =>
      have input : first.input = .event (.refresh firstAt) :=
        refreshTime_eq_some.mp firstRefresh
      cases restRun with
      | cons taken _ =>
          obtain ⟨preempt, unwatched⟩ := preempts_of_dualActive taken input
            (dualActive.dualActive first List.mem_cons_self firstAt firstRefresh)
          refine ⟨preempt, ?_⟩
          intro witnessed
          exact unwatched (watching_of_witnessed beforeRun witnessed)

/-! ## A restarted node -/

/-- The node restarts, with preemption, next to a lower-ranked peer that is
already `Active` and never hears it. -/
def restartTrace : List (Transition RunState RunInput Effect) :=
  let process := demoProcess "high" 200 true
  process.runWithStatus.record (process.startRun 0 0) [
    .event (.refresh 0),
    demoArrival "low" 100 .active 1 1,
    .event (.refresh 1),
    demoArrival "low" 100 .active 2 2000000000,
    .event (.refresh 2000000000),
    demoArrival "low" 100 .active 3 4000000000,
    .event (.refresh 4000000000)]

theorem restartTrace_run :
    (demoProcess "high" 200 true).runWithStatus.Run
      ((demoProcess "high" 200 true).startRun 0 0)
      (restartTrace.take 2 ++ (restartTrace.drop 2 ++ []))
      (Machine.finalState ((demoProcess "high" 200 true).startRun 0 0) restartTrace) := by
  rw [List.append_nil, List.take_append_drop]
  exact Machine.run_record _ (by decide +kernel)

/-- Dual ownership can last: nothing makes the restarted node yield. -/
theorem dualActiveSpan_exists :
    ¬∀ (process : HaProcess) (peerId : String) (startupAt scheduledAt : Int)
      (before span after : List (Transition RunState RunInput Effect))
      (final : RunState),
      process.runWithStatus.Run (process.startRun startupAt scheduledAt)
        (before ++ (span ++ after)) final →
      ¬DualActiveSpan process peerId span := by
  intro never
  exact never _ "low" _ _ _ _ _ _ restartTrace_run (by decide +kernel)

theorem restart_preempts_unwitnessed :
    (demoProcess "high" 200 true).runtime.preempt = true ∧
      ¬Witnessed (demoProcess "high" 200 true) "low" (restartTrace.take 2) :=
  no_dualActiveSpan_of_witnessed _ "low" _ _ _ _ _ _ restartTrace_run
    (by decide +kernel)

end Gruezi.Ha
