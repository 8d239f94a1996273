import Gruezi.Ha.History
import Gruezi.Ha.OneWayLoss

/-!
# The conflict latch

A node that yields to a peer promoted next to it sets a latch.  The latch holds
the node in `Standby` for as long as every refresh finds the last accepted
advertisement live and `Active`, and the first refresh that does not clears it.
-/

namespace Gruezi.Ha

open Rust Lib HaProcess

/-- The last of the accepted advertisements is live at `now`, and `Active`. -/
def LastIsLiveActive (runtime : HaRuntimeConfig) (accepted : List Acceptance)
    (now : Int) : Prop :=
  ∃ last ∈ accepted.getLast?, last.LiveAt runtime now ∧ last.packet.state = .active

instance (runtime : HaRuntimeConfig) (accepted : List Acceptance) (now : Int) :
    Decidable (LastIsLiveActive runtime accepted now) :=
  inferInstanceAs (Decidable (∃ last ∈ accepted.getLast?, _))

section Decision

variable {runtime : HaRuntimeConfig} {loopState : HaLoopState}
variable {accepted : List Acceptance} {now : Int}

/-- What the code looks up in its observation is a fact about the history. -/
theorem hasLiveActivePeer_observation :
    hasLiveActivePeer runtime (observation accepted) now = true ↔
      LastIsLiveActive runtime accepted now := by
  rw [hasLiveActivePeer_eq_true, LastIsLiveActive]
  rcases List.eq_nil_or_concat' accepted with rfl | ⟨earlier, last, rfl⟩
  · simp
  · simp [HaPacket.observed, PeerObservation.LiveAt, Acceptance.LiveAt]

/-- A refresh decides a conflict next to a live `Active` peer of lower rank, if
it saw the promotion of that peer or has yielded to it before. -/
theorem refreshDecision_conflict_iff :
    (refreshDecision runtime loopState now).reason = .peerBecameActiveConflict ↔
      ∃ peer ∈ loopState.peerObservation, peer.LiveAt runtime now ∧
        peer.state = .active ∧
        outranks runtime.priority runtime.nodeId peer.priority peer.nodeId = true ∧
        (peer.becameActive = true ∨ loopState.activePeerConflict = true) := by
  rw [refreshDecision]
  cases observed : loopState.peerObservation with
  | none =>
      rw [desiredState_none]
      split_ifs <;> simp
  | some peer =>
      by_cases live : peer.LiveAt runtime now
      · by_cases peerActive : peer.state = .active
        · rw [desiredState_activePeer live peerActive, desiredStateWithActivePeer_reason]
          simp [live, peerActive]
        · simp [desiredState_passivePeer_reason live peerActive, peerActive]
      · rw [desiredState_expired live]
        simp [live]

/-- Next to a live `Active` peer a latched node waits, whoever the peer is and
whatever its rank. -/
theorem refreshDecision_standby_of_latched
    (hears : hasLiveActivePeer runtime loopState.peerObservation now = true)
    (latched : loopState.activePeerConflict = true) :
    (refreshDecision runtime loopState now).state = .standby := by
  rcases hasLiveActivePeer_eq_true.mp hears with ⟨peer, observed, live, peerActive⟩
  rw [refreshDecision, observed, desiredState_activePeer live peerActive,
    desiredStateWithActivePeer, latched]
  cases outranks runtime.priority runtime.nodeId peer.priority peer.nodeId with
  | true => simp
  | false => cases runtime.preempt <;> simp

/-- The latch after a refresh. -/
theorem refreshed_latched_iff :
    (refreshed runtime loopState now).activePeerConflict = true ↔
      (refreshDecision runtime loopState now).reason = .peerBecameActiveConflict ∨
        hasLiveActivePeer runtime loopState.peerObservation now = true ∧
          loopState.activePeerConflict = true := by
  rw [refreshed_activePeerConflict]
  split
  · next conflict => simp [conflict]
  · next peaceful => simp [peaceful]

/-- A set latch after a refresh means a node that waits for a live owner. -/
theorem standby_of_refreshed_latched
    (latched : (refreshed runtime loopState now).activePeerConflict = true) :
    (refreshed runtime loopState now).state = .standby ∧
      hasLiveActivePeer runtime loopState.peerObservation now = true := by
  rw [refreshed_state]
  rcases refreshed_latched_iff.mp latched with conflict | ⟨hears, before⟩
  · rcases refreshDecision_conflict_iff.mp conflict with
      ⟨peer, observed, live, peerActive, wins, yields⟩
    rw [refreshDecision_conflict observed live peerActive wins yields]
    exact ⟨rfl, hasLiveActivePeer_eq_true.mpr ⟨peer, observed, live, peerActive⟩⟩
  · exact ⟨refreshDecision_standby_of_latched hears before, hears⟩

end Decision

section Run

variable {process : HaProcess} {startupAt scheduledAt : Int} {final : RunState}
variable {taken before span : List (Transition RunState RunInput Effect)}
variable {transition conflict : Transition RunState RunInput Effect} {now : Int}

/-- Every refresh of the span finds the last advertisement accepted by then
live and `Active`. -/
def OwnerHeardThroughout (process : HaProcess)
    (before span : List (Transition RunState RunInput Effect)) : Prop :=
  ∀ (earlier : List (Transition RunState RunInput Effect))
    (refresh : Transition RunState RunInput Effect)
    (later : List (Transition RunState RunInput Effect)) (now : Int),
    span = earlier ++ refresh :: later →
    refresh.input = .event (.refresh now) →
    LastIsLiveActive process.runtime (process.history (before ++ earlier)) now

/-- The observation a refresh reads, in terms of the history before it. -/
theorem hasLiveActivePeer_of_run
    (run : process.runWithStatus.Run (process.startRun startupAt scheduledAt) taken
      final) :
    hasLiveActivePeer process.runtime final.node.loopState.peerObservation now = true ↔
      LastIsLiveActive process.runtime (process.history taken) now := by
  rw [peerObservation_eq run, hasLiveActivePeer_observation]

/-- Nothing but a refresh moves the latch. -/
theorem latch_of_not_refresh (transitionTaken : process.runWithStatus.Takes transition)
    (noRefresh : ∀ now, transition.input ≠ .event (.refresh now)) :
    transition.after.node.loopState.activePeerConflict =
      transition.before.node.loopState.activePeerConflict := by
  cases (steps_of_takes transitionTaken).evolves with
  | refreshed now input => exact absurd input (noRefresh now)
  | accepted _ _ _ _ _ changed =>
      rcases changed with ⟨counters, loopState⟩
      rw [loopState]
  | unchanged _ _ _ _ latch => exact latch

/-- Run lemma: while the owner is heard the latch stays set. -/
theorem latched_throughout
    (run : process.runWithStatus.Run (process.startRun startupAt scheduledAt)
      (before ++ conflict :: span) final)
    (latched : conflict.after.node.loopState.activePeerConflict = true)
    (heard : OwnerHeardThroughout process (before ++ [conflict]) span) :
    final.node.loopState.activePeerConflict = true := by
  induction span using List.reverseRecOn generalizing final with
  | nil =>
      rcases run.split_at with ⟨_, _, rest⟩
      rw [← rest.eq_of_nil]
      exact latched
  | append_singleton span last ih =>
      rw [← List.cons_append, ← List.append_assoc] at run
      rcases run.split_at with ⟨left, lastTaken, right⟩
      rw [← right.eq_of_nil]
      have latchedBefore := ih left fun earlier refresh later now split input =>
        heard earlier refresh (later ++ [last]) now (by rw [split]; simp) input
      by_cases refreshes : ∃ now, last.input = .event (.refresh now)
      · rcases refreshes with ⟨now, input⟩
        have hears := heard span last [] now rfl input
        rw [List.append_assoc, List.singleton_append] at hears
        rw [(refreshed_of_takes lastTaken input).2]
        exact refreshed_latched_iff.mpr
          (.inr ⟨(hasLiveActivePeer_of_run left).mpr hears, latchedBefore⟩)
      · rw [latch_of_not_refresh lastTaken fun now input => refreshes ⟨now, input⟩]
        exact latchedBefore

/-- A latch that is set after a refresh means a waiting node with a live owner,
and a refresh that decides a conflict binds every later one up to the first that
no longer hears the owner. -/
structure LatchSoundAndSticky (process : HaProcess)
    (trace : List (Transition RunState RunInput Effect)) : Prop where
  sound : ∀ (before : List (Transition RunState RunInput Effect))
      (refresh : Transition RunState RunInput Effect)
      (after : List (Transition RunState RunInput Effect)) (now : Int),
    trace = before ++ refresh :: after →
    refresh.input = .event (.refresh now) →
    refresh.after.node.loopState.activePeerConflict = true →
    refresh.after.node.loopState.state = .standby ∧
      ∃ peer, refresh.after.node.loopState.peerObservation = some peer ∧
        peer.LiveAt process.runtime now ∧ peer.state = .active
  sticky : ∀ (before : List (Transition RunState RunInput Effect))
      (conflict : Transition RunState RunInput Effect)
      (span : List (Transition RunState RunInput Effect))
      (refresh : Transition RunState RunInput Effect)
      (after : List (Transition RunState RunInput Effect)) (conflictAt now : Int),
    trace = before ++ conflict :: (span ++ refresh :: after) →
    conflict.input = .event (.refresh conflictAt) →
    conflict.after.node.loopState.decisionReason = .peerBecameActiveConflict →
    OwnerHeardThroughout process (before ++ [conflict]) span →
    refresh.input = .event (.refresh now) →
    conflict.after.node.loopState.state = .standby ∧
      (LastIsLiveActive process.runtime (process.history (before ++ conflict :: span))
          now →
        refresh.after.node.loopState.state = .standby ∧
          refresh.after.node.loopState.activePeerConflict = true) ∧
      (¬LastIsLiveActive process.runtime
          (process.history (before ++ conflict :: span)) now →
        refresh.after.node.loopState.activePeerConflict = false)

/-- The conflict latch is sound and sticky in every run. -/
theorem latch_sound_and_sticky (process : HaProcess) (startupAt scheduledAt : Int)
    (trace : List (Transition RunState RunInput Effect)) (final : RunState)
    (run : process.runWithStatus.Run (process.startRun startupAt scheduledAt) trace
      final) :
    LatchSoundAndSticky process trace where
  sound := by
    rintro before refresh after now rfl input latched
    rcases run.split_at with ⟨_, refreshTaken, _⟩
    have loopState := (refreshed_of_takes refreshTaken input).2
    rw [loopState] at latched ⊢
    rcases standby_of_refreshed_latched latched with ⟨standby, hears⟩
    rcases hasLiveActivePeer_eq_true.mp hears with ⟨peer, observed, live, peerActive⟩
    exact ⟨standby, peer, (refreshed_peerObservation ..).trans observed, live, peerActive⟩
  sticky := by
    rintro before conflict span refresh after conflictAt now rfl conflictInput reason
      heard input
    rcases run.split_at with ⟨_, conflictTaken, _⟩
    have conflictState := (refreshed_of_takes conflictTaken conflictInput).2
    rw [conflictState, refreshed_decisionReason] at reason
    have latched := refreshed_latched_iff.mpr (.inl reason)
    have waits := (standby_of_refreshed_latched latched).1
    rw [← conflictState] at latched waits
    refine ⟨waits, ?_⟩
    rw [← List.cons_append, ← List.append_assoc] at run
    rcases run.split_at with ⟨left, refreshTaken, _⟩
    have latchedBefore := latched_throughout left latched heard
    rw [(refreshed_of_takes refreshTaken input).2]
    constructor
    · intro hears
      have hears := (hasLiveActivePeer_of_run left).mpr hears
      rw [refreshed_state]
      exact ⟨refreshDecision_standby_of_latched hears latchedBefore,
        refreshed_latched_iff.mpr (.inr ⟨hears, latchedBefore⟩)⟩
    · intro silent
      rw [← hasLiveActivePeer_of_run left] at silent
      cases stays : (refreshed process.runtime refresh.before.node.loopState
          now).activePeerConflict with
      | false => rfl
      | true => exact absurd (standby_of_refreshed_latched stays).2 silent

end Run

/-! ## A yielding node -/

/-- A node of higher rank yields to a peer promoted next to it, goes on hearing
it once, and then hears nothing for more than a window. -/
def yieldTrace : List (Transition RunState RunInput Effect) :=
  let process := demoProcess "high" 200 false
  process.runWithStatus.record (process.startRun 0 0) [
    .event (.refresh 0),
    demoArrival "low" 100 .standby 1 1,
    .event (.refresh 1),
    demoArrival "low" 100 .active 2 2,
    .event (.refresh 2),
    demoArrival "low" 100 .active 3 3,
    .event (.refresh 3),
    .event (.receive (.error { kind := .timedOut, text := "timed out" }) 3),
    .event (.refresh 4000000000)]

theorem yieldTrace_run :
    (demoProcess "high" 200 false).runWithStatus.Run
      ((demoProcess "high" 200 false).startRun 0 0) yieldTrace
      (Machine.finalState ((demoProcess "high" 200 false).startRun 0 0) yieldTrace) :=
  Machine.run_record _ (by decide +kernel)

theorem latch_sound_and_sticky_yield :
    LatchSoundAndSticky (demoProcess "high" 200 false) yieldTrace ∧
      yieldTrace.map (fun taken => (taken.after.node.loopState.state,
        taken.after.node.loopState.activePeerConflict)) =
      [(.standby, false), (.standby, false), (.active, false), (.active, false),
        (.standby, true), (.standby, true), (.standby, true), (.standby, true),
        (.active, false)] :=
  ⟨latch_sound_and_sticky _ 0 0 yieldTrace _ yieldTrace_run, by decide +kernel⟩

end Gruezi.Ha
