import Gruezi.Ha.Run

/-!
# The last accepted advertisement

A node remembers one advertisement, the last it accepted in the order of
arrival.  Sequence numbers are never compared, so a delayed or duplicated
advertisement replaces a newer one, and the refreshes that follow decide by it.
-/

namespace Gruezi.Ha

open Rust Lib HaProcess

variable {process : HaProcess}

/-- Along a stretch in which nothing is accepted the observation stays. -/
theorem peerObservation_of_quiet {start final : RunState}
    {quiet : List (Transition RunState RunInput Effect)}
    (run : process.runWithStatus.Run start quiet final)
    (silent : ∀ transition ∈ quiet, ∀ packet observedAt,
      ¬process.Accepts transition.input packet observedAt) :
    final.node.loopState.peerObservation = start.node.loopState.peerObservation := by
  apply run.invariant (motive := fun state =>
    state.node.loopState.peerObservation = start.node.loopState.peerObservation) rfl
  intro next member taken same
  cases (steps_of_takes taken).evolves with
  | refreshed _ _ _ loopState =>
      rw [loopState, refreshed_peerObservation]
      exact same
  | accepted packet observedAt accepts =>
      exact absurd accepts (silent next member packet observedAt)
  | unchanged _ _ _ observation => exact observation.trans same

/-- Without preemption a waiting node takes the address over when its peer has
gone silent, or does not own it and ranks lower. -/
theorem refreshDecision_active_iff {runtime : HaRuntimeConfig} {loopState : HaLoopState}
    {peer : PeerObservation} {now : Int} (noPreempt : runtime.preempt = false)
    (waiting : loopState.state ≠ .active)
    (observed : loopState.peerObservation = some peer) :
    (refreshDecision runtime loopState now).state = .active ↔
      ¬peer.LiveAt runtime now ∨ peer.state ≠ .active ∧
        outranks runtime.priority runtime.nodeId peer.priority peer.nodeId = true := by
  rw [refreshDecision, observed]
  by_cases live : peer.LiveAt runtime now
  · by_cases peerActive : peer.state = .active
    · rw [desiredState_activePeer live peerActive, desiredStateWithActivePeer, noPreempt]
      simp only [Bool.false_and, Bool.false_eq_true, if_false]
      split <;> simp [live, peerActive]
    · rw [desiredState_passivePeer live peerActive, if_neg waiting]
      split
      · next wins => simp [live, peerActive, wins]
      · next loses => simp [live, loses]
  · rw [desiredState_expired live]
    simp [live]

/-- Until the next acceptance, the last accepted advertisement alone decides
whether a waiting node without preemption takes over, whatever its sequence
number. -/
theorem takeover_iff_lastAdvert (process : HaProcess) (startupAt scheduledAt : Int)
    (packet : HaPacket) (observedAt now : Int)
    (before quiet after : List (Transition RunState RunInput Effect))
    (arrival refresh : Transition RunState RunInput Effect) (final : RunState)
    (noPreempt : process.runtime.preempt = false)
    (run : process.runWithStatus.Run (process.startRun startupAt scheduledAt)
      (before ++ arrival :: (quiet ++ refresh :: after)) final)
    (accepts : process.Accepts arrival.input packet observedAt)
    (silent : ∀ transition ∈ quiet, ∀ other otherAt,
      ¬process.Accepts transition.input other otherAt)
    (refreshes : refresh.input = .event (.refresh now))
    (waiting : refresh.before.node.loopState.state = .standby) :
    refresh.before.node.loopState.peerObservation =
        some (packet.observed arrival.before.node.loopState.peerObservation
          observedAt) ∧
      (refresh.after.node.loopState.state = .active ↔
        observedAt + process.runtime.window ≤ now ∨
          packet.state ≠ .active ∧
            outranks process.runtime.priority process.runtime.nodeId packet.priority
              packet.nodeId = true) := by
  rcases run.split_at with ⟨_, arrivalTaken, restRun⟩
  rcases restRun.split_at with ⟨quietRun, refreshTaken, _⟩
  have observed : refresh.before.node.loopState.peerObservation =
      some (packet.observed arrival.before.node.loopState.peerObservation
        observedAt) :=
    (peerObservation_of_quiet quietRun silent).trans
      (peerObservation_of_accepts arrivalTaken accepts)
  refine ⟨observed, ?_⟩
  have notActive : refresh.before.node.loopState.state ≠ .active := by
    rw [waiting]
    exact HaState.noConfusion
  rw [(refreshed_of_takes refreshTaken refreshes).2, refreshed_state,
    refreshDecision_active_iff noPreempt notActive observed, PeerObservation.LiveAt,
    not_lt]
  rfl

/-! ## A replayed advertisement -/

/-- The peer is `Active` in its fifth advertisement, and then its third, sent
while it was not, arrives late. -/
def replayInputs : List RunInput := [
  .event (.refresh 0),
  demoArrival "low" 100 .active 5 1,
  .event (.refresh 1),
  demoArrival "low" 100 .standby 3 2,
  .event (.refresh 2)]

/-- The run on these inputs, with the local state around the last two steps. -/
theorem replay_run :
    ∃ t₀ t₁ t₂ t₃ t₄ : Transition RunState RunInput Effect, ∃ final,
      (demoProcess "high" 200 false).runWithStatus.Run
        ((demoProcess "high" 200 false).startRun 0 0) [t₀, t₁, t₂, t₃, t₄] final ∧
      [t₀, t₁, t₂, t₃, t₄].map (·.input) = replayInputs ∧
      t₃.before.node.loopState.state = .standby ∧
      t₄.before.node.loopState.state = .standby ∧
      t₄.after.node.loopState.state = .active := by
  have accepted : ((demoProcess "high" 200 false).runWithStatus.transitions
      ((demoProcess "high" 200 false).startRun 0 0) replayInputs).isSome = true := by
    decide +kernel
  have run := Machine.run_record _ accepted
  have inputs := Machine.map_input_record _ accepted
  have states : ((demoProcess "high" 200 false).runWithStatus.record
      ((demoProcess "high" 200 false).startRun 0 0) replayInputs).map
        (fun taken => (taken.before.node.loopState.state,
          taken.after.node.loopState.state)) =
      [(.init, .standby), (.standby, .standby), (.standby, .standby),
        (.standby, .standby), (.standby, .active)] := by
    decide +kernel
  rcases List.map_eq_cons_iff.mp states with ⟨t₀, _, trace, _, rest⟩
  rcases List.map_eq_cons_iff.mp rest with ⟨t₁, _, rfl, _, rest⟩
  rcases List.map_eq_cons_iff.mp rest with ⟨t₂, _, rfl, _, rest⟩
  rcases List.map_eq_cons_iff.mp rest with ⟨t₃, _, rfl, state₃, rest⟩
  rcases List.map_eq_cons_iff.mp rest with ⟨t₄, _, rfl, state₄, rest⟩
  rw [List.map_eq_nil_iff.mp rest] at trace
  rw [trace] at run inputs
  exact ⟨t₀, t₁, t₂, t₃, t₄, _, run, inputs, congrArg Prod.fst state₃,
    congrArg Prod.fst state₄, congrArg Prod.snd state₄⟩

/-- A stale advertisement can move the address. -/
theorem stale_advert_moves_address :
    ¬∀ (process : HaProcess) (peer : HaRuntimeConfig)
      (startupAt scheduledAt freshAt staleAt now : Int) (staleState : HaState)
      (freshSequence staleSequence : UInt64)
      (before quiet after : List (Transition RunState RunInput Effect))
      (fresh stale refresh : Transition RunState RunInput Effect) (final : RunState),
      process.runtime.preempt = false →
      process.runWithStatus.Run (process.startRun startupAt scheduledAt)
        (before ++ fresh :: (quiet ++ stale :: refresh :: after)) final →
      process.Accepts fresh.input
        (advertisement process.hasher peer .active freshSequence) freshAt →
      (∀ transition ∈ quiet, ∀ packet observedAt,
        ¬process.Accepts transition.input packet observedAt) →
      stale.before.node.loopState.state = .standby →
      process.Accepts stale.input
        (advertisement process.hasher peer staleState staleSequence) staleAt →
      staleSequence < freshSequence →
      refresh.input = .event (.refresh now) →
      refresh.after.node.loopState.state ≠ .active := by
  intro ignored
  rcases replay_run with ⟨t₀, t₁, t₂, t₃, t₄, final, run, inputs, state₃, _, active⟩
  simp only [replayInputs, List.map_cons, List.map_nil, List.cons.injEq, and_true]
    at inputs
  rcases inputs with ⟨_, input₁, input₂, input₃, input₄⟩
  refine ignored (demoProcess "high" 200 false) (demoRuntime "low" 100 false) 0 0 1 2 2
    .standby 5 3 [t₀] [t₂] [] t₁ t₃ t₄ final rfl run ?_ ?_ state₃ ?_ (by decide) input₄
    active
  · rw [input₁]
    exact demoArrival_accepts (by decide) (by decide) (by decide)
  · intro transition member packet observedAt accepts
    cases List.mem_singleton.mp member
    rw [input₂] at accepts
    rcases accepts with ⟨_, _, arrival, _⟩
    cases arrival
  · rw [input₃]
    exact demoArrival_accepts (by decide) (by decide) (by decide)

theorem takeover_iff_lastAdvert_replay :
    ∃ arrival refresh : Transition RunState RunInput Effect,
      refresh.before.node.loopState.peerObservation =
          some ((demoPacket "low" 100 .standby 3).observed
            arrival.before.node.loopState.peerObservation 2) ∧
        (refresh.after.node.loopState.state = .active ↔
          2 + (demoProcess "high" 200 false).runtime.window ≤ (2 : Int) ∨
            (demoPacket "low" 100 .standby 3).state ≠ .active ∧
              outranks (demoProcess "high" 200 false).runtime.priority
                (demoProcess "high" 200 false).runtime.nodeId
                (demoPacket "low" 100 .standby 3).priority
                (demoPacket "low" 100 .standby 3).nodeId = true) := by
  rcases replay_run with ⟨t₀, t₁, t₂, t₃, t₄, final, run, inputs, _, state₄, _⟩
  simp only [replayInputs, List.map_cons, List.map_nil, List.cons.injEq, and_true]
    at inputs
  rcases inputs with ⟨_, _, _, input₃, input₄⟩
  have accepts : (demoProcess "high" 200 false).Accepts t₃.input
      (demoPacket "low" 100 .standby 3) 2 := by
    rw [input₃]
    exact demoArrival_accepts (by decide) (by decide) (by decide)
  have silent : ∀ transition ∈ ([] : List (Transition RunState RunInput Effect)),
      ∀ packet observedAt,
        ¬(demoProcess "high" 200 false).Accepts transition.input packet observedAt := by
    intro transition member
    cases member
  exact ⟨t₃, t₄, takeover_iff_lastAdvert (demoProcess "high" 200 false) 0 0
    (demoPacket "low" 100 .standby 3) 2 2 [t₀, t₁, t₂] [] [] t₃ t₄ final rfl run accepts
    silent input₄ state₄⟩

end Gruezi.Ha
