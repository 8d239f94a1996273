import Gruezi.Ha.LossTolerance
import Gruezi.Ha.SideEffects

/-!
# Failover

A node whose peer has fallen silent takes the address over.  The loop wakes at the
latest for its own next advertisement, so on a machine that runs each step in time
the takeover comes within one liveness window, one advertisement interval and two
delays of the machine; and once taken over, the node keeps the address.
-/

namespace Gruezi.Ha

open Rust Lib HaProcess

/-- What the loop waits for at a program point: its timer in the select, and nothing
elsewhere. -/
def RunState.due (state : RunState) : Int :=
  match state.phase with
  | .selecting => max state.node.clock state.node.loopState.nextAdvertAt
  | .refreshing | .exiting _ _ | .removing _ _ | .faulting _ _ | .returned _ =>
      state.node.clock

/-- Every step is over at most `latency` after what the loop waited for. -/
def Prompt (latency : Int) (trace : List (Transition RunState RunInput Effect)) : Prop :=
  ∀ next ∈ trace, next.after.node.clock ≤ next.before.due + latency

instance (latency : Int) (trace : List (Transition RunState RunInput Effect)) :
    Decidable (Prompt latency trace) :=
  inferInstanceAs (Decidable (∀ next ∈ trace, _))

/-- The loop is running. -/
def Phase.Looping (phase : Phase) : Prop :=
  phase = .refreshing ∨ phase = .selecting

instance : DecidablePred Phase.Looping
  | .refreshing => .isTrue (.inl rfl)
  | .selecting => .isTrue (.inr rfl)
  | .exiting _ _ | .removing _ _ | .faulting _ _ | .returned _ =>
      .isFalse fun looping => by rcases looping with phase | phase <;> cases phase

/-- The advertisement interval, in nanoseconds. -/
def HaRuntimeConfig.intervalNanos (runtime : HaRuntimeConfig) : Int :=
  (runtime.advertIntervalMs.toNat * nanosPerMilli : Nat)

/-- The time at which what was heard until `quiet` no longer counts. -/
def HaRuntimeConfig.silentAt (runtime : HaRuntimeConfig) (quiet : Int) : Int :=
  quiet + runtime.window

/-! ## One step -/

section Step

variable {process : HaProcess} {before after : RunState} {input : RunInput}
variable {effects : List Effect}

/-- The timer is never set further than one interval ahead of the clock. -/
theorem nextAdvertAt_le_of_steps (steps : process.Steps before input after effects)
    (armed : before.node.loopState.nextAdvertAt ≤
      before.node.clock + process.runtime.intervalNanos) :
    after.node.loopState.nextAdvertAt ≤
      after.node.clock + process.runtime.intervalNanos := by
  have advances := steps.clock_le
  rcases Link.nextAdvertAt_of_steps steps with
    ⟨attempt, attempted, reading, _, later | same⟩ | ⟨_, same⟩
  · have sent : attempt.sentAt ≤ after.node.clock := by
      cases steps with
      | @handled event _ _ _ handles _ | @failed event _ _ _ _ handles _ =>
          cases event with
          | refresh now | receive recv observedAt => cases attempted
          | send sendTo scheduledAt publishedAt =>
              cases reading
              simp only [handle] at handles
              split at handles
              · next ordered =>
                  cases handles
                  exact ordered.2
              · cases handles
      | refresh | shutdown | beginCleanup | runFaultHook | finish | finishFaulted =>
          cases attempted
    exact later.trans (Int.add_le_add_right sent _)
  · omega
  · omega

/-- A step out of the select that stays in the loop keeps the state, and refreshes
next. -/
theorem handled_of_selecting (steps : process.Steps before input after effects)
    (selecting : before.phase = .selecting) (looping : after.phase.Looping) :
    after.phase = .refreshing ∧
      after.node.loopState.state = before.node.loopState.state := by
  cases steps with
  | refresh phase => cases selecting.symm.trans phase
  | handled _ ready handles _ =>
      exact ⟨rfl, state_of_handle (noRefresh_of_armReady ready) handles⟩
  | failed | shutdown => rcases looping with phase | phase <;> cases phase
  | beginCleanup phase | runFaultHook phase | finish phase | finishFaulted phase =>
      cases selecting.symm.trans phase

/-- A step from the top of the loop is a refresh. -/
theorem refresh_of_refreshing (steps : process.Steps before input after effects)
    (refreshing : before.phase = .refreshing) :
    ∃ now, input = .event (.refresh now) ∧ after.phase = .selecting ∧
      before.node.clock ≤ now ∧ after.node.clock = now ∧
      after.node.loopState.state =
        (refreshDecision process.runtime before.node.loopState now).state := by
  cases steps with
  | @refresh now handled _ handles =>
      rcases handle_refresh handles with ⟨ordered, _, clock, loopState, _⟩
      exact ⟨now, rfl, rfl, ordered, clock, by rw [loopState, refreshed_state]⟩
  | handled phase | failed phase | shutdown phase | beginCleanup phase
  | runFaultHook phase | finish phase | finishFaulted phase =>
      cases refreshing.symm.trans phase

/-- The loop is not entered again. -/
theorem looping_of_steps (steps : process.Steps before input after effects)
    (looping : after.phase.Looping) : before.phase.Looping := by
  cases steps with
  | refresh phase => exact .inl phase
  | handled phase | failed phase | shutdown phase => exact .inr phase
  | beginCleanup | runFaultHook | finish | finishFaulted =>
      rcases looping with phase | phase <;> cases phase

/-- A node that has heard nothing for a window takes over. -/
theorem refreshDecision_of_silence {loopState : HaLoopState} {quiet now : Int}
    (started : loopState.startupAt ≤ quiet)
    (silence : ∀ peer ∈ loopState.peerObservation, peer.observedAt ≤ quiet)
    (late : process.runtime.silentAt quiet ≤ now) :
    (refreshDecision process.runtime loopState now).state = .active := by
  rw [HaRuntimeConfig.silentAt] at late
  rw [refreshDecision]
  cases observed : loopState.peerObservation with
  | none =>
      rw [desiredState_none]
      split_ifs
      · rfl
      · rfl
      · next early => exact absurd (by omega) early
  | some peer =>
      have heard := silence peer observed
      rw [desiredState_expired]
      simp only [PeerObservation.LiveAt]
      omega

/-- What is remembered was accepted. -/
theorem observedAt_le_of_observation {accepted : List Acceptance} {quiet : Int}
    (silence : ∀ advert ∈ accepted, advert.observedAt ≤ quiet) :
    ∀ peer ∈ observation accepted, peer.observedAt ≤ quiet := by
  intro peer observed
  rcases List.eq_nil_or_concat' accepted with rfl | ⟨earlier, last, rfl⟩
  · cases observed
  · rw [observation_append] at observed
    cases observed
    exact silence last (by simp)

end Step

/-! ## Along a run -/

section Run

variable {process : HaProcess} {startupAt scheduledAt latency quiet : Int}
variable {taken trace : List (Transition RunState RunInput Effect)} {state final : RunState}

/-- A refresh within the bound has come out `Active`. -/
def TakesOver (process : HaProcess) (quiet latency : Int)
    (trace : List (Transition RunState RunInput Effect)) : Prop :=
  ∃ next ∈ trace, ∃ now, next.input = .event (.refresh now) ∧
    process.runtime.silentAt quiet ≤ now ∧
    now ≤ process.runtime.silentAt quiet + process.runtime.intervalNanos + 2 * latency ∧
    next.after.node.loopState.state = .active

/-- The node has taken over, after a silence that is over by its clock. -/
structure TakenOver (process : HaProcess) (quiet latency : Int)
    (taken : List (Transition RunState RunInput Effect)) (state : RunState) : Prop where
  silent : process.runtime.silentAt quiet ≤ state.node.clock
  active : state.node.loopState.state = .active
  takesOver : TakesOver process quiet latency taken

/-- The invariant of a loop that waits for the silence to end: it has not lasted long
enough, or the node has taken over. -/
structure Awaits (process : HaProcess) (quiet latency : Int)
    (taken : List (Transition RunState RunInput Effect)) (state : RunState) : Prop where
  armed : state.node.loopState.nextAdvertAt ≤
    state.node.clock + process.runtime.intervalNanos
  selecting : state.phase = .selecting →
    state.node.clock < process.runtime.silentAt quiet ∨
      TakenOver process quiet latency taken state
  refreshing : state.phase = .refreshing →
    state.node.clock ≤
        process.runtime.silentAt quiet + process.runtime.intervalNanos + latency ∨
      TakenOver process quiet latency taken state

theorem TakesOver.append {next : Transition RunState RunInput Effect}
    (takesOver : TakesOver process quiet latency taken) :
    TakesOver process quiet latency (taken ++ [next]) := by
  rcases takesOver with ⟨refresh, member, rest⟩
  exact ⟨refresh, List.mem_append_left _ member, rest⟩

/-- Step lemma: a transition that stays in the loop keeps the invariant. -/
theorem Awaits.concat {next : Transition RunState RunInput Effect}
    (awaits : Awaits process quiet latency taken next.before)
    (before : process.runWithStatus.Run (process.startRun startupAt scheduledAt) taken
      next.before)
    (nextTaken : process.runWithStatus.Takes next)
    (onTime : next.after.node.clock ≤ next.before.due + latency)
    (started : startupAt ≤ quiet)
    (silence : ∀ accepted ∈ process.history taken, accepted.observedAt ≤ quiet)
    (looping : next.after.phase.Looping) :
    Awaits process quiet latency (taken ++ [next]) next.after := by
  have steps := steps_of_takes nextTaken
  have advances := steps.clock_le
  have wasLooping := looping_of_steps steps looping
  refine ⟨nextAdvertAt_le_of_steps steps awaits.armed, ?_, ?_⟩
  · intro selecting
    rcases wasLooping with refreshing | wasSelecting
    · -- This is the refresh that decides.
      rcases refresh_of_refreshing steps refreshing with ⟨now, input, _, _, clock, decided⟩
      by_cases late : process.runtime.silentAt quiet ≤ now
      · right
        have becomesActive : next.after.node.loopState.state = .active := by
          rw [decided]
          apply refreshDecision_of_silence _ _ late
          · rw [startupAt_of_run before]
            exact started
          · rw [peerObservation_eq before]
            exact observedAt_le_of_observation silence
        refine ⟨by omega, becomesActive, ?_⟩
        rcases awaits.refreshing refreshing with waiting | takenOver
        · refine ⟨next, by simp, now, input, late, ?_, becomesActive⟩
          simp only [RunState.due, refreshing] at onTime
          omega
        · exact takenOver.takesOver.append
      · left
        omega
    · cases (handled_of_selecting steps wasSelecting looping).1.symm.trans selecting
  · intro refreshing
    rcases wasLooping with wasRefreshing | selecting
    · rcases refresh_of_refreshing steps wasRefreshing with ⟨_, _, phase, _⟩
      cases phase.symm.trans refreshing
    · have kept := (handled_of_selecting steps selecting looping).2
      rcases awaits.selecting selecting with waiting | takenOver
      · -- The select has ended by the time of the next advertisement.
        left
        have armed := awaits.armed
        have interval : 0 ≤ process.runtime.intervalNanos := Int.natCast_nonneg _
        simp only [RunState.due, selecting] at onTime
        omega
      · exact .inr ⟨takenOver.silent.trans advances, kept.trans takenOver.active,
          takenOver.takesOver.append⟩

/-- Run lemma: a prompt loop awaits the end of the silence, and takes over. -/
theorem awaits_of_run (prompt : Prompt latency trace) (latencyNonneg : 0 ≤ latency)
    (started : startupAt ≤ quiet) (scheduled : scheduledAt ≤ quiet)
    (silence : ∀ accepted ∈ process.history trace, accepted.observedAt ≤ quiet)
    (run : process.runWithStatus.Run (process.startRun startupAt scheduledAt) trace
      final) (looping : final.phase.Looping) :
    Awaits process quiet latency trace final := by
  induction trace using List.reverseRecOn generalizing final with
  | nil =>
      cases run.eq_of_nil
      refine ⟨?_, ?_, ?_⟩
      · have := process.runtime.nanos_nextAdvertDelay_le 1
        simp only [startRun, startNode, initializeLoopState, Instant.add,
          HaRuntimeConfig.intervalNanos]
        omega
      · intro phase
        cases phase
      · intro _
        left
        simp only [startRun, startNode, HaRuntimeConfig.silentAt,
          HaRuntimeConfig.intervalNanos]
        omega
  | append_singleton taken next ih =>
      rcases run.split_at with ⟨before, nextTaken, rest⟩
      cases rest.eq_of_nil
      rw [history_append] at silence
      have earlier : ∀ accepted ∈ process.history taken, accepted.observedAt ≤ quiet :=
        fun accepted member => silence accepted (List.mem_append_left _ member)
      have awaits := ih (fun other member => prompt other (List.mem_append_left _ member))
        earlier before (looping_of_steps (steps_of_takes nextTaken) looping)
      exact awaits.concat before nextTaken (prompt next (by simp)) started earlier looping

/-- The hooks of a run that leads to `Active` end with a promotion. -/
theorem HooksLeadTo.eq_concat_promote {hooks : List HookEvent}
    (lead : HooksLeadTo hooks .active) : ∃ earlier, hooks = earlier ++ [.promote] := by
  rcases Language.mem_mul.mp lead with ⟨earlier, _, last, isPromote, rfl⟩
  exact ⟨earlier, by rw [isPromote]⟩

/-- The tasks of a loop that is `Active` end with those of a promotion. -/
theorem tasks_of_active (looping : final.phase.Looping)
    (active : final.node.loopState.state = .active)
    (run : process.runWithStatus.Run (process.startRun startupAt scheduledAt) trace
      final) :
    ∃ earlier context, spawned (effectsOf trace) =
      earlier ++ transitionTasks process.runtime .promote context := by
  rcases tasks_of_run run with ⟨moves, tasks, lead | ⟨⟨result, returned⟩, _⟩⟩
  · rw [active] at lead
    rcases lead.eq_concat_promote with ⟨hooks, split⟩
    rcases List.map_eq_append_iff.mp split with ⟨earlier, last, rfl, _, isLast⟩
    rcases List.map_eq_singleton_iff.mp isLast with ⟨move, rfl, promote⟩
    refine ⟨earlier.flatMap fun move => transitionTasks process.runtime move.1 move.2,
      move.2, ?_⟩
    rw [tasks, List.flatMap_append, List.flatMap_singleton, promote]
  · rcases looping with phase | phase <;> cases phase.symm.trans returned

/-- A node that runs on after its peer has fallen silent owns the address, and the
last tasks it has started add the addresses and run the promotion hook. -/
structure OwnsAfterSilence (process : HaProcess) (quiet latency : Int)
    (trace : List (Transition RunState RunInput Effect)) (final : RunState) : Prop where
  active : final.node.loopState.state = .active
  takesOver : TakesOver process quiet latency trace
  tasks : ∃ earlier context, spawned (effectsOf trace) =
    earlier ++ transitionTasks process.runtime .promote context

/-- Failover: once nothing has been accepted for a window, an interval and two delays
of the machine, a node that is still running owns the address. -/
theorem owns_after_silence (process : HaProcess) (startupAt scheduledAt : Int)
    (latency quiet : Int) (latencyNonneg : 0 ≤ latency)
    (trace : List (Transition RunState RunInput Effect)) (final : RunState)
    (run : process.runWithStatus.Run (process.startRun startupAt scheduledAt) trace
      final)
    (prompt : Prompt latency trace) (started : startupAt ≤ quiet ∧ scheduledAt ≤ quiet)
    (silence : ∀ accepted ∈ process.history trace, accepted.observedAt ≤ quiet)
    (looping : final.phase.Looping)
    (late : process.runtime.silentAt quiet + process.runtime.intervalNanos +
      2 * latency < final.node.clock) :
    OwnsAfterSilence process quiet latency trace final := by
  have awaits := awaits_of_run prompt latencyNonneg started.1 started.2 silence run looping
  have interval : 0 ≤ process.runtime.intervalNanos := Int.natCast_nonneg _
  have takenOver : TakenOver process quiet latency trace final := by
    rcases looping with refreshing | selecting
    · apply (awaits.refreshing refreshing).resolve_left
      omega
    · apply (awaits.selecting selecting).resolve_left
      omega
  exact ⟨takenOver.active, takenOver.takesOver,
    tasks_of_active looping takenOver.active run⟩

end Run

/-! ## A peer that dies -/

/-- A waiting node hears the owner at 1.5 s, and then nothing; the third of its own
advertisements after that finds the window over. -/
def failoverTrace : List (Transition RunState RunInput Effect) :=
  (demoProcess "low" 100 false).runWithStatus.record
    ((demoProcess "low" 100 false).startRun 0 0) [
    .event (.refresh 0),
    .event (.send (.ok ()) 1000000000 1000000000),
    .event (.refresh 1000000000),
    demoArrival "high" 200 .active 1 1500000000,
    .event (.refresh 1500000000),
    .event (.send (.ok ()) 2000000000 2000000000),
    .event (.refresh 2000000000),
    .event (.send (.ok ()) 3000000000 3000000000),
    .event (.refresh 3000000000),
    .event (.send (.ok ()) 4000000000 4000000000),
    .event (.refresh 4000000000),
    .event (.send (.ok ()) 5000000000 5000000000),
    .event (.refresh 5000000000),
    .event (.send (.ok ()) 6000000000 6000000000)]

theorem owns_after_silence_demo :
    OwnsAfterSilence (demoProcess "low" 100 false) 1500000000 0 failoverTrace
      (Machine.finalState ((demoProcess "low" 100 false).startRun 0 0) failoverTrace) :=
  owns_after_silence (demoProcess "low" 100 false) 0 0 0 1500000000 le_rfl failoverTrace _
    (Machine.run_record _ (by decide +kernel)) (by decide +kernel) (by decide)
    (by decide +kernel) (by decide +kernel) (by decide +kernel)

end Gruezi.Ha
