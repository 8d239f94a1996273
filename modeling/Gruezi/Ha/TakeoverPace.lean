import Gruezi.Ha.Failover
import Gruezi.Ha.Safety
import Gruezi.Lib.Spacing

/-!
# The pace of takeovers

A node that takes over because nothing has been heard keeps the address until it hears
an owner, and must then hear nothing for a window to take over in this way again.  So
two such takeovers are a window apart, whatever arrives and however often the process is
killed and started again.  A node that everyone outranks has no other way to take over.
-/

namespace Gruezi.Ha

open Rust Lib HaProcess

inductive LifeInput where
  | run (input : RunInput)
  /-- The process is killed and started again; the new one reads the clock twice. -/
  | restart (startupAt scheduledAt : Int)

def stepLife (process : HaProcess) (state : RunState) :
    LifeInput → Option (RunState × List Effect)
  | .run input => process.stepRun state input
  | .restart startupAt scheduledAt =>
      if state.node.clock ≤ startupAt then
        some (process.startRun startupAt scheduledAt, [])
      else none

/-- A node whose process may be killed at any step. -/
def life (process : HaProcess) : Machine RunState LifeInput Effect where
  step := stepLife process

abbrev LifeTransition := Transition RunState LifeInput Effect

namespace LifeInput

def reading : LifeInput → Option Int
  | run input => input.reading
  | restart startupAt _ => some startupAt

/-- The node accepts an advertisement. -/
def Accepts (process : HaProcess) (input : LifeInput) (packet : HaPacket) : Prop :=
  ∃ event observedAt, input = .run event ∧ process.Accepts event packet observedAt

end LifeInput

/-- The transitions for which tasks add the addresses. -/
def additions (effects : List Effect) : List HookContext :=
  effects.filterMap fun
    | .spawnAddressAction _ .add (some (_, context)) => some context
    | .spawnAddressAction _ _ _ | .spawnHook _ _ _ | .applyAddresses _ _ | .runHook _ _ _
    | .sendTo _ _ | .publish _ => none

theorem additions_append (first second : List Effect) :
    additions (first ++ second) = additions first ++ additions second :=
  List.filterMap_append

/-- When the node has begun to add the addresses, for one of these reasons. -/
def takeoverTimes (reasons : HaDecisionReason → Bool) (trace : List LifeTransition) :
    List Int :=
  trace.flatMap fun next => (additions next.output).filterMap fun context =>
    if context.reason.any reasons then next.input.reading else none

/-- Nothing has been heard for too long. -/
def HaDecisionReason.timedOut (reason : HaDecisionReason) : Bool :=
  reason == .peerTimeout || reason == .startupDeadlineExpired

/-- What the next timeout is counted from. -/
def HaLoopState.heardAt (loopState : HaLoopState) : Int :=
  match loopState.peerObservation with
  | some peer => peer.observedAt
  | none => loopState.startupAt

/-! ## Decisions -/

section Decisions

variable {runtime : HaRuntimeConfig} {loopState : HaLoopState} {now : Int}

/-- A decision by a timeout comes a window after what was last heard. -/
theorem window_of_timedOut
    (timedOut : (refreshDecision runtime loopState now).reason.timedOut = true) :
    loopState.heardAt + runtime.window ≤ now := by
  rw [refreshDecision] at timedOut
  rw [HaLoopState.heardAt]
  cases observed : loopState.peerObservation with
  | none =>
      rw [observed, desiredState_none] at timedOut
      split_ifs at timedOut with owner late
      · cases timedOut
      · exact late
      · cases timedOut
  | some peer =>
      rw [observed] at timedOut
      by_contra early
      have live : peer.LiveAt runtime now := not_le.mp early
      by_cases peerActive : peer.state = .active
      · rw [desiredState_activePeer live peerActive, desiredStateWithActivePeer] at timedOut
        simp only [localWinReason, peerWinReason] at timedOut
        split_ifs at timedOut <;> cases timedOut
      · rw [desiredState_passivePeer live peerActive] at timedOut
        simp only [localWinReason, peerWinReason] at timedOut
        split_ifs at timedOut <;> cases timedOut

/-- An owner gives way only to an owner it has heard within a window. -/
theorem heard_of_leaving (owner : loopState.state = .active)
    (leaves : (refreshDecision runtime loopState now).state ≠ .active) :
    now < loopState.heardAt + runtime.window := by
  by_contra late
  apply leaves
  apply refreshDecision_of_owner owner
  rw [← Bool.not_eq_true, hasLiveActivePeer_eq_true]
  rintro ⟨peer, observed, live, _⟩
  rw [HaLoopState.heardAt, observed] at late
  exact late live

/-- Whom everyone outranks takes over by a timeout. -/
theorem timedOut_of_outranked (waiting : loopState.state ≠ .active)
    (outranked : ∀ peer ∈ loopState.peerObservation,
      outranks runtime.priority runtime.nodeId peer.priority peer.nodeId = false)
    (takes : (refreshDecision runtime loopState now).state = .active) :
    (refreshDecision runtime loopState now).reason.timedOut = true := by
  have late : ¬Pair.BeforeTimeout runtime loopState now := by
    intro before
    cases takes.symm.trans (refreshDecision_of_outranked waiting before outranked)
  rw [Pair.BeforeTimeout] at late
  rw [refreshDecision]
  cases observed : loopState.peerObservation with
  | none =>
      rw [observed] at late
      rw [desiredState_none, if_neg waiting, if_pos (not_lt.mp late)]
      rfl
  | some peer =>
      rw [observed] at late
      rw [desiredState_expired late]
      rfl

end Decisions

/-! ## One step -/

section Step

theorem lastTransitionReason_of_changed {runtime : HaRuntimeConfig} {loopState : HaLoopState}
    {now : Int} (changed : loopState.state ≠ (refreshDecision runtime loopState now).state) :
    (refreshed runtime loopState now).lastTransitionReason =
      some (refreshDecision runtime loopState now).reason := by
  rw [refreshDecision] at changed
  simp only [refreshed, refreshLocalState, if_neg changed]
  rfl

variable {process : HaProcess} {before after : RunState} {input : RunInput}
variable {effects : List Effect}

theorem Silences.additions (silent : Silences effects) : additions effects = [] := by
  rw [Ha.additions, List.filterMap_eq_nil_iff]
  intro effect member
  cases effect with
  | spawnAddressAction => cases (silent _ member).1
  | spawnHook | applyAddresses | runHook | sendTo | publish => rfl

/-- The addresses are added by a refresh that makes the node active. -/
theorem additions_of_steps (steps : process.Steps before input after effects) :
    additions effects = [] ∨ ∃ now context, input = .event (.refresh now) ∧
      before.phase = .refreshing ∧ before.node.loopState.state ≠ .active ∧
      after.node.loopState.state = .active ∧ additions effects = [context] ∧
      context.reason =
        some (refreshDecision process.runtime before.node.loopState now).reason := by
  cases steps with
  | @refresh now _ phase handles =>
      rcases handle_refresh handles with ⟨_, _, _, loopState, effectsEq⟩
      rw [effectsEq]
      by_cases same : (refreshed process.runtime before.node.loopState now).state =
          before.node.loopState.state
      · exact .inl (silences_refresh same).additions
      · have task := (effects_refresh process.statusTx (Ne.symm same)).2
        rw [refreshed_state] at task same
        rw [task, additions_append, (silences_publish now).additions, List.append_nil,
          transitionHook]
        split_ifs with active owner
        · right
          refine ⟨now, _, rfl, phase, ?_, ?_, rfl, ?_⟩
          · intro owner
            exact same (active.trans owner.symm)
          · rw [loopState, refreshed_state, active]
          · exact lastTransitionReason_of_changed (Ne.symm same)
        · exact .inl rfl
        · exact .inl rfl
  | handled _ ready handles | failed _ ready handles =>
      exact .inl (silences_handle (noRefresh_of_armReady ready) handles).additions
  | shutdown | beginCleanup => exact .inl rfl
  | @runFaultHook cleanup =>
      left
      rw [Cleanup.faultHook]
      split <;> rfl
  | finish | finishFaulted => exact .inl silences_finishCleanup.additions

/-- What the next timeout is counted from moves on when something is heard. -/
theorem heardAt_of_takes {next : Transition RunState RunInput Effect}
    (taken : process.runWithStatus.Takes next) :
    next.after.node.loopState.heardAt = next.before.node.loopState.heardAt ∨
      next.before.node.clock ≤ next.after.node.loopState.heardAt := by
  have steps := steps_of_takes taken
  rw [HaLoopState.heardAt, HaLoopState.heardAt, steps.startupAt_eq]
  cases steps.evolves with
  | refreshed now _ _ loopState =>
      left
      rw [loopState, refreshed_peerObservation]
  | accepted packet observedAt accepts _ _ changed =>
      rcases changed with ⟨counters, loopState⟩
      right
      rw [loopState]
      exact (observedAt_of_takes taken (acceptance_of_accepts accepts)).1
  | unchanged _ _ _ observation =>
      left
      rw [observation]

end Step

/-! ## Along a life -/

/-- Timeouts have been a window apart, and the next is as well: the owner that has taken
over by the last gives way only to one it has heard since. -/
structure Paced (process : HaProcess) (startupAt : Int) (times : List Int)
    (state : RunState) : Prop where
  spaced : Spaced process.runtime.window times
  started : ∀ time ∈ times, startupAt + process.runtime.window ≤ time
  heard : startupAt ≤ state.node.loopState.heardAt
  begun : startupAt ≤ state.node.clock
  past : ∀ last ∈ times.getLast?, last ≤ state.node.clock
  settled : ∀ last ∈ times.getLast?, last ≤ state.node.loopState.heardAt ∨
    state.node.loopState.heardAt + process.runtime.window ≤ last
  waits : ∀ last ∈ times.getLast?, state.phase.Looping →
    state.node.loopState.state = .active ∨ last ≤ state.node.loopState.heardAt

section Run

variable {process : HaProcess} {startupAt : Int} {times : List Int}

/-- The times a step adds. -/
theorem takeoverTimes_append_singleton (reasons : HaDecisionReason → Bool)
    (taken : List LifeTransition) (next : LifeTransition) :
    takeoverTimes reasons (taken ++ [next]) = takeoverTimes reasons taken ++
      (additions next.output).filterMap fun context =>
        if context.reason.any reasons then next.input.reading else none := by
  rw [takeoverTimes, List.flatMap_append, List.flatMap_singleton, ← takeoverTimes]

theorem heardAt_of_refresh {next : Transition RunState RunInput Effect} {now : Int}
    (taken : process.runWithStatus.Takes next)
    (refreshes : next.input = .event (.refresh now)) :
    next.after.node.loopState.heardAt = next.before.node.loopState.heardAt := by
  rw [(refreshed_of_takes taken refreshes).2, HaLoopState.heardAt, HaLoopState.heardAt,
    refreshed_peerObservation, refreshed_startupAt]

/-- An owner that has heard nothing since the last timeout keeps the address. -/
theorem Paced.owner_or_heard {next : Transition RunState RunInput Effect} {last : Int}
    (taken : process.runWithStatus.Takes next)
    (paced : Paced process startupAt times next.before) (isLast : last ∈ times.getLast?)
    (looping : next.after.phase.Looping)
    (owner : next.before.node.loopState.state = .active) :
    next.after.node.loopState.state = .active ∨
      last ≤ next.before.node.loopState.heardAt := by
  by_cases refreshes : ∃ now, next.input = .event (.refresh now)
  · rcases refreshes with ⟨now, input⟩
    have advances := (clock_of_refresh taken input).1
    rw [(refreshed_of_takes taken input).2, refreshed_state]
    by_cases keeps : (refreshDecision process.runtime next.before.node.loopState
        now).state = .active
    · exact .inl keeps
    · have heard := heard_of_leaving owner keeps
      have := paced.past last isLast
      rcases paced.settled last isLast with already | expired
      · exact .inr already
      · omega
  · rcases (steps_of_takes taken).state_eq (not_exists.mp refreshes) with same | returned
    · exact .inl (same.trans owner)
    · rcases returned with ⟨result, phase⟩
      rw [phase] at looping
      rcases looping with phase | phase <;> cases phase

/-- A step without a timeout. -/
theorem Paced.step {next : Transition RunState RunInput Effect}
    (taken : process.runWithStatus.Takes next)
    (paced : Paced process startupAt times next.before) :
    Paced process startupAt times next.after := by
  have steps := steps_of_takes taken
  have advances := steps.clock_le
  have heardLater : ∀ time ≤ next.before.node.clock,
      time ≤ next.before.node.loopState.heardAt → time ≤ next.after.node.loopState.heardAt := by
    intro time past heard
    rcases heardAt_of_takes taken with same | later
    · rwa [same]
    · exact past.trans later
  constructor
  case spaced => exact paced.spaced
  case started => exact paced.started
  case heard => exact heardLater _ paced.begun paced.heard
  case begun => exact paced.begun.trans advances
  case past => exact fun last isLast => (paced.past last isLast).trans advances
  case settled =>
    intro last isLast
    rcases heardAt_of_takes taken with same | later
    · rw [same]
      exact paced.settled last isLast
    · exact .inl ((paced.past last isLast).trans later)
  case waits =>
    intro last isLast looping
    rcases paced.waits last isLast (looping_of_steps steps looping) with owner | heard
    · rcases paced.owner_or_heard taken isLast looping owner with owner | heard
      · exact .inl owner
      · exact .inr (heardLater last (paced.past last isLast) heard)
    · exact .inr (heardLater last (paced.past last isLast) heard)

/-- A step that takes over by a timeout. -/
theorem Paced.timeout {next : Transition RunState RunInput Effect} {now : Int}
    (taken : process.runWithStatus.Takes next)
    (refreshes : next.input = .event (.refresh now))
    (waiting : next.before.node.loopState.state ≠ .active)
    (takes : next.after.node.loopState.state = .active)
    (timedOut : (refreshDecision process.runtime next.before.node.loopState
      now).reason.timedOut = true)
    (paced : Paced process startupAt times next.before) :
    Paced process startupAt (times ++ [now]) next.after := by
  have late := window_of_timedOut timedOut
  have clock := (clock_of_refresh taken refreshes).2
  have heardAt := heardAt_of_refresh taken refreshes
  have looping : next.before.phase.Looping := .inl (refreshed_of_takes taken refreshes).1
  have isNow {last : Int} (isLast : last ∈ (times ++ [now]).getLast?) : last = now := by
    rw [List.getLast?_concat] at isLast
    exact (Option.some_inj.mp isLast).symm
  constructor
  case spaced =>
    apply paced.spaced.concat (Int.natCast_nonneg _)
    intro last isLast
    rcases paced.waits last isLast looping with owner | heard
    · exact absurd owner waiting
    · omega
  case started =>
    intro time member
    rcases List.mem_append.mp member with earlier | isNow
    · exact paced.started time earlier
    · cases List.mem_singleton.mp isNow
      exact (Int.add_le_add_right paced.heard _).trans late
  case heard => exact heardAt ▸ paced.heard
  case begun => exact paced.begun.trans (steps_of_takes taken).clock_le
  case past =>
    intro last isLast
    rw [isNow isLast, clock]
  case settled =>
    intro last isLast
    rw [isNow isLast, heardAt]
    exact .inr late
  case waits => exact fun _ _ _ => .inl takes

/-- A process that is started again waits for a window of its own. -/
theorem Paced.restart {state : RunState} {restartedAt scheduledAt : Int}
    (ordered : state.node.clock ≤ restartedAt) (paced : Paced process startupAt times state) :
    Paced process startupAt times (process.startRun restartedAt scheduledAt) := by
  have pastRestart : ∀ last ∈ times.getLast?, last ≤ restartedAt := fun last isLast =>
    (paced.past last isLast).trans ordered
  have clock : restartedAt ≤ (process.startRun restartedAt scheduledAt).node.clock :=
    le_max_left _ _
  constructor
  case spaced => exact paced.spaced
  case started => exact paced.started
  case heard => exact paced.begun.trans ordered
  case begun => exact (paced.begun.trans ordered).trans clock
  case past => exact fun last isLast => (pastRestart last isLast).trans clock
  case settled => exact fun last isLast => .inl (pastRestart last isLast)
  case waits => exact fun last isLast _ => .inr (pastRestart last isLast)

theorem paced_start (process : HaProcess) (startupAt scheduledAt : Int) :
    Paced process startupAt [] (process.startRun startupAt scheduledAt) := by
  constructor
  case spaced => exact Spaced.nil _
  case heard => exact le_rfl
  case begun => exact le_max_left _ _
  all_goals
    intro time member
    cases member

/-- A step of a life is one of the process, or a restart. -/
theorem step_of_life {next : LifeTransition} (taken : (life process).Takes next) :
    (∃ input, next.input = .run input ∧
      process.runWithStatus.Takes ⟨next.before, input, next.after, next.output⟩) ∨
    ∃ restartedAt scheduledAt, next.input = .restart restartedAt scheduledAt ∧
      next.before.node.clock ≤ restartedAt ∧
      next.after = process.startRun restartedAt scheduledAt ∧ next.output = [] := by
  rcases next with ⟨before, input, after, output⟩
  cases input with
  | run input => exact .inl ⟨input, rfl, taken⟩
  | restart restartedAt scheduledAt =>
      change (if before.node.clock ≤ restartedAt then _ else none) = some (after, output) at taken
      split at taken
      · next ordered =>
          cases taken
          exact .inr ⟨restartedAt, scheduledAt, rfl, ordered, rfl, rfl⟩
      · cases taken

/-- Run lemma. -/
theorem paced_of_run {scheduledAt : Int} {trace : List LifeTransition} {final : RunState}
    (run : (life process).Run (process.startRun startupAt scheduledAt) trace final) :
    Paced process startupAt (takeoverTimes HaDecisionReason.timedOut trace) final := by
  apply run.history_induction (motive := fun taken state =>
    Paced process startupAt (takeoverTimes HaDecisionReason.timedOut taken) state)
  · exact paced_start process startupAt scheduledAt
  · intro taken next _ nextTaken _ paced
    rw [takeoverTimes_append_singleton]
    rcases step_of_life nextTaken with
      ⟨input, isRun, stepTaken⟩ | ⟨restartedAt, scheduledAt, _, ordered, after, output⟩
    · rcases additions_of_steps (steps_of_takes stepTaken) with
        nothing | ⟨now, context, refreshes, _, waiting, takes, added, reason⟩
      · rw [nothing, List.filterMap_nil, List.append_nil]
        exact paced.step stepTaken
      · cases refreshes
        rw [added, isRun, List.filterMap_cons, reason, Option.any_some, List.filterMap_nil]
        split_ifs with timedOut
        · exact paced.timeout stepTaken rfl waiting takes timedOut
        · rw [List.append_nil]
          exact paced.step stepTaken
    · rw [output, after]
      simp only [additions, List.filterMap_nil, List.append_nil]
      exact paced.restart ordered

/-- Every addition has its time. -/
theorem length_takeoverTimes {scheduledAt : Int} {trace : List LifeTransition}
    {final : RunState}
    (run : (life process).Run (process.startRun startupAt scheduledAt) trace final) :
    (takeoverTimes (fun _ => true) trace).length =
      (additions (trace.flatMap (·.output))).length := by
  apply run.history_induction (motive := fun taken _ =>
    (takeoverTimes (fun _ => true) taken).length =
      (additions (taken.flatMap (·.output))).length) rfl
  intro taken next _ nextTaken _ same
  rw [takeoverTimes_append_singleton, List.length_append, same, List.flatMap_append,
    List.flatMap_singleton, additions_append, List.length_append]
  congr 1
  rcases step_of_life nextTaken with
    ⟨input, isRun, stepTaken⟩ | ⟨_, _, _, _, _, output⟩
  · rcases additions_of_steps (steps_of_takes stepTaken) with
      nothing | ⟨now, context, refreshes, _, _, _, added, reason⟩
    · rw [nothing]
      rfl
    · cases refreshes
      rw [added, isRun, List.filterMap_cons, reason]
      rfl
  · rw [output]
    rfl

/-- A node that everyone outranks takes over by timeouts alone. -/
theorem takeoverTimes_of_outranked {scheduledAt : Int} {trace : List LifeTransition}
    {final : RunState}
    (run : (life process).Run (process.startRun startupAt scheduledAt) trace final)
    (outranked : ∀ next ∈ trace, ∀ packet, next.input.Accepts process packet →
      outranks process.runtime.priority process.runtime.nodeId packet.priority
        packet.nodeId = false) :
    takeoverTimes (fun _ => true) trace =
      takeoverTimes HaDecisionReason.timedOut trace := by
  have holds : (∀ peer ∈ final.node.loopState.peerObservation,
      outranks process.runtime.priority process.runtime.nodeId peer.priority
        peer.nodeId = false) ∧
      takeoverTimes (fun _ => true) trace = takeoverTimes HaDecisionReason.timedOut trace := by
    apply run.history_induction (motive := fun taken state =>
      (∀ peer ∈ state.node.loopState.peerObservation,
        outranks process.runtime.priority process.runtime.nodeId peer.priority
          peer.nodeId = false) ∧
        takeoverTimes (fun _ => true) taken =
          takeoverTimes HaDecisionReason.timedOut taken)
    · refine ⟨?_, rfl⟩
      intro peer observed
      cases observed
    · rintro taken next - nextTaken member ⟨observed, same⟩
      rw [takeoverTimes_append_singleton, takeoverTimes_append_singleton, same]
      rcases step_of_life nextTaken with
        ⟨input, isRun, stepTaken⟩ | ⟨_, _, _, _, after, output⟩
      · constructor
        · cases (steps_of_takes stepTaken).evolves with
          | refreshed now _ _ loopState =>
              rwa [loopState, refreshed_peerObservation]
          | accepted packet observedAt accepts _ _ changed =>
              rcases changed with ⟨counters, loopState⟩
              intro peer isPeer
              rw [loopState] at isPeer
              cases isPeer
              exact outranked next member packet ⟨input, observedAt, isRun, accepts⟩
          | unchanged _ _ _ observation => rwa [observation]
        · rcases additions_of_steps (steps_of_takes stepTaken) with
            nothing | ⟨now, context, refreshes, _, waiting, takes, added, reason⟩
          · rw [nothing]
            rfl
          · cases refreshes
            rw [(refreshed_of_takes stepTaken rfl).2, refreshed_state] at takes
            rw [added, List.filterMap_cons, List.filterMap_cons, reason, Option.any_some,
              Option.any_some, timedOut_of_outranked waiting observed takes]
            rfl
      · rw [output, after]
        refine ⟨?_, rfl⟩
        intro peer observed
        cases observed
  exact holds.2

end Run

/-- Takeovers by a timeout are a window apart. -/
structure KeepsTakeoverPace (process : HaProcess) (startupAt : Int)
    (trace : List LifeTransition) : Prop where
  spaced : Spaced process.runtime.window (takeoverTimes HaDecisionReason.timedOut trace)
  first : ∀ time ∈ takeoverTimes HaDecisionReason.timedOut trace,
    startupAt + process.runtime.window ≤ time
  rate : ∀ from_ length : Int, 0 ≤ length →
    ((within from_ length (takeoverTimes HaDecisionReason.timedOut trace)).length : Int) *
      process.runtime.window ≤ length + process.runtime.window
  everyAddition : (takeoverTimes (fun _ => true) trace).length =
    (additions (trace.flatMap (·.output))).length
  outranked : (∀ next ∈ trace, ∀ packet, next.input.Accepts process packet →
      outranks process.runtime.priority process.runtime.nodeId packet.priority
        packet.nodeId = false) →
    takeoverTimes (fun _ => true) trace = takeoverTimes HaDecisionReason.timedOut trace

/-- In every life a node takes over by a timeout at most once in a window, however often
its process is killed; and one that everyone outranks takes over in no other way. -/
theorem keepsTakeoverPace (process : HaProcess) (startupAt scheduledAt : Int)
    (trace : List LifeTransition) (final : RunState)
    (run : (life process).Run (process.startRun startupAt scheduledAt) trace final) :
    KeepsTakeoverPace process startupAt trace := by
  have paced := paced_of_run run
  constructor
  case spaced => exact paced.spaced
  case first => exact paced.started
  case rate =>
    intro from_ length nonneg
    exact paced.spaced.length_within_mul_le (Int.natCast_nonneg _) nonneg
  case everyAddition => exact length_takeoverTimes run
  case outranked => exact takeoverTimes_of_outranked run

/-! ## An owner that is killed -/

/-- A node without a peer takes over, is killed, and takes over again. -/
def killedTwice : List LifeInput := [
  .run (.event (.refresh 0)),
  .run (.event (.send (.ok ()) 1000000000 1000000000)),
  .run (.event (.refresh 4000000000)),
  .restart 5000000000 5000000000,
  .run (.event (.refresh 5000000000)),
  .run (.event (.send (.ok ()) 6000000000 6000000000)),
  .run (.event (.refresh 9000000000))]

def killedTwiceTrace : List LifeTransition :=
  (life (demoProcess "low" 100 false)).record ((demoProcess "low" 100 false).startRun 0 0)
    killedTwice

theorem keepsTakeoverPace_killedTwice :
    KeepsTakeoverPace (demoProcess "low" 100 false) 0 killedTwiceTrace ∧
      takeoverTimes HaDecisionReason.timedOut killedTwiceTrace = [4000000000, 9000000000] :=
  ⟨keepsTakeoverPace (demoProcess "low" 100 false) 0 0 killedTwiceTrace _
    (Machine.run_record _ (by decide +kernel)), by decide +kernel⟩

end Gruezi.Ha
