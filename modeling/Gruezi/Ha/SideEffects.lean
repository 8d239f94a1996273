import Gruezi.Ha.Election
import Gruezi.Ha.WireFormat
import Mathlib.Computability.RegularExpressions

/-!
# The side effects of a run

What the loop does besides updating its state, in program order.  A transition
of the local state spawns two tasks, one for the addresses and one for the hook;
nothing else spawns.  The hooks come in a fixed order, and the exit cleanup adds
its awaited effects once, at the end.
-/

namespace Gruezi.Ha

open Rust Lib HaProcess
open RegularExpression (char)
open scoped Computability

namespace Effect

/-- A detached task is started. -/
def spawns : Effect → Bool
  | .spawnAddressAction _ _ _ | .spawnHook _ _ _ => true
  | .applyAddresses _ _ | .runHook _ _ _ | .sendTo _ _ | .publish _ => false

/-- The loop waits for an address action or a hook. -/
def awaited : Effect → Bool
  | .applyAddresses _ _ | .runHook _ _ _ => true
  | .spawnAddressAction _ _ _ | .spawnHook _ _ _ | .sendTo _ _ | .publish _ => false

/-- The hook a detached task runs, if it runs one. -/
def spawnedHook : Effect → Option HookEvent
  | .spawnHook _ event _ => some event
  | .spawnAddressAction _ _ _ | .applyAddresses _ _ | .runHook _ _ _ | .sendTo _ _
  | .publish _ => none

end Effect

/-- The effects of a run, in program order. -/
def effectsOf (trace : List (Transition RunState RunInput Effect)) : List Effect :=
  trace.flatMap (·.output)

/-- The detached tasks among the effects. -/
def spawned (effects : List Effect) : List Effect :=
  effects.filter Effect.spawns

/-- The transition hooks among the effects. -/
def spawnedHooks (effects : List Effect) : List HookEvent :=
  effects.filterMap Effect.spawnedHook

/-- `Backup? (Promote Demote)* Promote?`. -/
def hookOrder : RegularExpression HookEvent :=
  (1 + char .backup) * (char HookEvent.promote * char HookEvent.demote).star *
    (1 + char .promote)

/-- The address action that goes with a transition hook. -/
def HookEvent.addressAction : HookEvent → AddressAction
  | .promote => .add
  | .demote | .backup | .fault => .remove

/-- The hook of a transition between two states. -/
def transitionHook (previousState currentState : HaState) : HookEvent :=
  if currentState = .active then .promote
  else if previousState = .active then .demote
  else .backup

/-- The two tasks of a transition: the action on all addresses, and the hook. -/
def transitionTasks (runtime : HaRuntimeConfig) (event : HookEvent)
    (context : HookContext) : List Effect :=
  [.spawnAddressAction (addressManager runtime) event.addressAction
      (some (runtime.hooks, context)),
    .spawnHook runtime.hooks event context]

section Handlers

variable {hasher : DefaultHasher} {runtime : HaRuntimeConfig} {peerAddr : SocketAddr}
variable {statusTx : Bool} {loopState : HaLoopState} {effects : List Effect}

/-- Neither a task nor an awaited call is among the effects. -/
def Silences (effects : List Effect) : Prop :=
  ∀ effect ∈ effects, effect.spawns = false ∧ effect.awaited = false

theorem Silences.spawned (silent : Silences effects) : spawned effects = [] := by
  rw [Ha.spawned, List.filter_eq_nil_iff]
  intro effect member
  simp [(silent effect member).1]

theorem silences_nil : Silences [] := by
  intro effect member
  cases member

theorem silences_publish (now : Int) :
    Silences (publishLoopStatus runtime statusTx loopState now) := by
  intro effect member
  cases statusTx with
  | false => cases member
  | true =>
      cases List.mem_singleton.mp member
      exact ⟨rfl, rfl⟩

theorem silences_receive {recv : Except IoError (Nat × SocketAddr)} {buffer : Buffer}
    {observedAt : Int} :
    Silences (handleReceiveEvent hasher runtime statusTx loopState recv buffer
      observedAt).effects := by
  simp only [handleReceiveEvent]
  split
  · split <;> exact silences_nil
  · split
    · split
      · exact silences_nil
      · exact silences_publish _
    · exact silences_nil

theorem silences_send {sendTo : Except IoError Unit} {scheduledAt publishedAt : Int} :
    Silences (handleSendEvent hasher runtime peerAddr statusTx loopState sendTo
      scheduledAt publishedAt).effects := by
  simp only [handleSendEvent]
  split
  · intro effect member
    rcases List.mem_append.mp member with datagram | published
    · cases List.mem_singleton.mp datagram
      exact ⟨rfl, rfl⟩
    · exact silences_publish _ effect published
  · split
    · exact silences_publish _
    · exact silences_nil

/-- A transition of the local state triggers its two tasks. -/
theorem triggerStateHooks_eq {previousState currentState : HaState}
    {reason : HaDecisionReason} {peerObservation : Option PeerObservation} {now : Int}
    (changed : previousState ≠ currentState) (notInit : currentState ≠ .init) :
    triggerStateHooks runtime previousState currentState reason peerObservation now =
      transitionTasks runtime (transitionHook previousState currentState)
        (hookContext runtime currentState previousState (some reason) peerObservation
          now) := by
  rw [triggerStateHooks, if_neg changed]
  cases currentState with
  | init => exact absurd rfl notInit
  | active => rfl
  | standby =>
      simp only [transitionTasks, transitionHook, reduceCtorEq, if_false]
      split <;> rfl

end Handlers

/-! ## The order of the hooks -/

/-- The hooks of a run that has come to `Standby`. -/
def standbyHooks : Language HookEvent :=
  (1 + {[.backup]}) * ({[.promote]} * {[.demote]})∗

theorem matches_hookOrder :
    hookOrder.matches' = standbyHooks + standbyHooks * {[.promote]} := by
  simp only [hookOrder, standbyHooks, RegularExpression.matches'_mul,
    RegularExpression.matches'_add, RegularExpression.matches'_epsilon,
    RegularExpression.matches'_char, RegularExpression.matches'_star, mul_add, mul_one]

/-- The hooks of a run that has come to this state, and has not returned. -/
def HooksLeadTo (hooks : List HookEvent) : HaState → Prop
  | .init => hooks = []
  | .standby => hooks ∈ standbyHooks
  | .active => hooks ∈ standbyHooks * ({[.promote]} : Language HookEvent)

theorem nil_mem_standbyHooks : [] ∈ standbyHooks := by
  have empty : [] ∈ (1 + {[.backup]} : Language HookEvent) :=
    (Language.mem_add _ _ _).mpr (.inl rfl)
  exact Language.append_mem_mul empty (Language.nil_mem_kstar _)

/-- One more transition keeps the hooks in order. -/
theorem HooksLeadTo.append {hooks : List HookEvent} {previousState currentState : HaState}
    (lead : HooksLeadTo hooks previousState) (changed : previousState ≠ currentState)
    (notInit : currentState ≠ .init) :
    HooksLeadTo (hooks ++ [transitionHook previousState currentState]) currentState := by
  cases currentState with
  | init => exact absurd rfl notInit
  | active =>
      have waiting : hooks ∈ standbyHooks := by
        cases previousState with
        | init => exact lead ▸ nil_mem_standbyHooks
        | standby => exact lead
        | active => exact absurd rfl changed
      exact Language.append_mem_mul waiting rfl
  | standby =>
      cases previousState with
      | standby => exact absurd rfl changed
      | init =>
          rw [HooksLeadTo] at lead
          rw [lead]
          have backup : [HookEvent.backup] ∈ (1 + {[.backup]} : Language HookEvent) :=
            (Language.mem_add _ _ _).mpr (.inr rfl)
          change [HookEvent.backup] ++ [] ∈ standbyHooks
          exact Language.append_mem_mul backup (Language.nil_mem_kstar _)
      | active =>
          have longer : standbyHooks * {[.promote]} * {[.demote]} ≤ standbyHooks := by
            rw [standbyHooks, mul_assoc, mul_assoc]
            exact mul_le_mul' le_rfl kstar_mul_le_kstar
          exact longer (Language.append_mem_mul lead rfl)

theorem HooksLeadTo.mem_hookOrder {hooks : List HookEvent} {state : HaState}
    (lead : HooksLeadTo hooks state) : hooks ∈ hookOrder.matches' := by
  rw [matches_hookOrder, Language.mem_add]
  cases state with
  | init =>
      rw [HooksLeadTo] at lead
      rw [lead]
      exact .inl nil_mem_standbyHooks
  | standby => exact .inl lead
  | active => exact .inr lead

/-! ## What a transition of the loop does -/

section Steps

variable {process : HaProcess} {runtime : HaRuntimeConfig} {statusTx : Bool}
variable {loopState : HaLoopState} {now : Int}
variable {transition : Transition RunState RunInput Effect}

/-- A refresh that keeps the local state spawns nothing and waits for nothing. -/
theorem silences_refresh
    (same : (refreshed runtime loopState now).state = loopState.state) :
    Silences (refreshLocalState runtime statusTx loopState now).2 := by
  rw [refreshed_state, refreshDecision] at same
  simp only [refreshLocalState, same, if_true]
  exact silences_publish now

/-- A refresh that moves the local state spawns the two tasks of the transition,
for the reason it records. -/
theorem effects_refresh (statusTx : Bool)
    (changed : loopState.state ≠ (refreshed runtime loopState now).state) :
    (refreshed runtime loopState now).lastTransitionReason ≠ none ∧
      (refreshLocalState runtime statusTx loopState now).2 =
        transitionTasks runtime
          (transitionHook loopState.state (refreshed runtime loopState now).state)
          (hookContext runtime (refreshed runtime loopState now).state loopState.state
            (refreshed runtime loopState now).lastTransitionReason
            loopState.peerObservation now) ++
        publishLoopStatus runtime statusTx (refreshed runtime loopState now) now := by
  have notInit : (refreshDecision runtime loopState now).state ≠ .init :=
    desiredState_ne_init _
  rw [refreshed_state] at changed ⊢
  rw [← refreshLocalState_fst runtime statusTx]
  simp only [refreshLocalState]
  simp only [refreshDecision] at changed notInit
  rw [if_neg changed, triggerStateHooks_eq changed notInit]
  exact ⟨Option.some_ne_none _, rfl⟩

/-- The events the loop selects between neither spawn nor wait. -/
theorem silences_handle {node : Node} {event : NodeEvent} {handled : Handled}
    (noRefresh : ∀ now, event ≠ .refresh now)
    (handles : process.handle node event = some handled) :
    Silences handled.effects := by
  cases event with
  | refresh now => exact absurd rfl (noRefresh now)
  | receive recv observedAt =>
      simp only [handle] at handles
      split at handles
      · cases handles
        exact silences_receive
      · cases handles
  | send sendTo scheduledAt publishedAt =>
      simp only [handle] at handles
      split at handles
      · cases handles
        exact silences_send
      · cases handles

theorem noRefresh_of_armReady {event : NodeEvent}
    (ready : armReady loopState event = true) : ∀ now, event ≠ .refresh now := by
  rintro now rfl
  cases ready

theorem silences_finishCleanup {node : Node} {cleanup : Cleanup}
    {result : Except Error Unit} :
    Silences (process.finishCleanup node cleanup result).2 :=
  silences_publish _

theorem spawned_faultHook {cleanup : Cleanup} :
    spawned (cleanup.faultHook runtime) = [] := by
  rw [Cleanup.faultHook]
  split <;> rfl

/-- The detached tasks of a transition: the two tasks of a refresh that moves the
local state, and none otherwise. -/
inductive Spawns (process : HaProcess)
    (transition : Transition RunState RunInput Effect) : Prop where
  | moved (now : Int) (context : HookContext) (published : List Effect) :
      transition.input = .event (.refresh now) →
      transition.before.node.loopState.state ≠ transition.after.node.loopState.state →
      transition.after.node.loopState.state ≠ .init →
      transition.output = transitionTasks process.runtime
        (transitionHook transition.before.node.loopState.state
          transition.after.node.loopState.state) context ++ published →
      Silences published →
      context.previousState = transition.before.node.loopState.state →
      context.state = transition.after.node.loopState.state →
      context.reason = transition.after.node.loopState.lastTransitionReason →
      context.reason ≠ none →
      Spawns process transition
  | quiet :
      spawned transition.output = [] →
      (transition.after.node.loopState.state = transition.before.node.loopState.state ∨
        ∃ result, transition.after.phase = .returned result) →
      Spawns process transition

theorem spawns_of_takes (taken : process.runWithStatus.Takes transition) :
    Spawns process transition := by
  by_cases refreshes : ∃ now, transition.input = .event (.refresh now)
  · rcases refreshes with ⟨now, input⟩
    have loopState := (refreshed_of_takes taken input).2
    have output := output_of_refresh taken input
    by_cases same : (refreshed process.runtime transition.before.node.loopState
        now).state = transition.before.node.loopState.state
    · refine .quiet ?_ (.inl (by rw [loopState]; exact same))
      rw [output]
      exact (silences_refresh same).spawned
    · have changed := Ne.symm same
      obtain ⟨reason, effects⟩ := effects_refresh process.statusTx changed
      rw [effects] at output
      rw [← loopState] at changed reason output
      refine .moved now _ _ input changed ?_ output (silences_publish now) rfl rfl rfl
        reason
      rw [loopState, refreshed_state]
      exact desiredState_ne_init _
  · have noRefresh : ∀ now, transition.input ≠ .event (.refresh now) :=
      fun now input => refreshes ⟨now, input⟩
    have steps := steps_of_takes taken
    refine .quiet ?_ (steps.state_eq noRefresh)
    generalize transition.before = before, transition.input = input,
      transition.after = after, transition.output = output at steps noRefresh
    cases steps with
    | refresh => exact absurd rfl (noRefresh _)
    | handled _ ready handles _ | failed _ ready handles _ =>
        exact (silences_handle (noRefresh_of_armReady ready) handles).spawned
    | shutdown | beginCleanup => rfl
    | runFaultHook => exact spawned_faultHook
    | finish | finishFaulted => exact silences_finishCleanup.spawned

end Steps

/-! ## Along a run -/

theorem effectsOf_append_singleton (taken : List (Transition RunState RunInput Effect))
    (next : Transition RunState RunInput Effect) :
    effectsOf (taken ++ [next]) = effectsOf taken ++ next.output := by
  simp only [effectsOf, List.flatMap_append, List.flatMap_cons, List.flatMap_nil,
    List.append_nil]

theorem spawned_append (first second : List Effect) :
    spawned (first ++ second) = spawned first ++ spawned second :=
  List.filter_append first second

@[simp] theorem spawned_transitionTasks (runtime : HaRuntimeConfig) (event : HookEvent)
    (context : HookContext) :
    spawned (transitionTasks runtime event context) =
      transitionTasks runtime event context := rfl

/-- The hooks are read off the detached tasks. -/
theorem spawnedHooks_spawned (effects : List Effect) :
    spawnedHooks (spawned effects) = spawnedHooks effects := by
  rw [spawnedHooks, spawned, List.filterMap_filter]
  apply congrArg (List.filterMap · effects)
  funext effect
  cases effect <;> rfl

theorem spawnedHooks_transitionTasks (runtime : HaRuntimeConfig)
    (moves : List (HookEvent × HookContext)) :
    spawnedHooks (moves.flatMap fun move => transitionTasks runtime move.1 move.2) =
      moves.map Prod.fst := by
  induction moves with
  | nil => rfl
  | cons move moves ih =>
      rw [spawnedHooks] at ih
      rw [spawnedHooks, List.flatMap_cons, List.filterMap_append, ih]
      rfl

section Run

variable {process : HaProcess} {startupAt scheduledAt : Int} {final : RunState}
variable {trace : List (Transition RunState RunInput Effect)}

/-- Run lemma: the detached tasks come in pairs, whose hooks are in order. -/
theorem tasks_of_run
    (run : process.runWithStatus.Run (process.startRun startupAt scheduledAt) trace
      final) :
    ∃ moves : List (HookEvent × HookContext),
      spawned (effectsOf trace) =
        moves.flatMap (fun move => transitionTasks process.runtime move.1 move.2) ∧
      (HooksLeadTo (moves.map Prod.fst) final.node.loopState.state ∨
        (∃ result, final.phase = .returned result) ∧
          moves.map Prod.fst ∈ hookOrder.matches') := by
  apply run.history_induction (motive := fun taken state =>
    ∃ moves : List (HookEvent × HookContext),
      spawned (effectsOf taken) =
        moves.flatMap (fun move => transitionTasks process.runtime move.1 move.2) ∧
      (HooksLeadTo (moves.map Prod.fst) state.node.loopState.state ∨
        (∃ result, state.phase = .returned result) ∧
          moves.map Prod.fst ∈ hookOrder.matches'))
  · exact ⟨[], rfl, .inl rfl⟩
  · rintro taken next - nextTaken - ⟨moves, tasks, hooks⟩
    have lead : HooksLeadTo (moves.map Prod.fst) next.before.node.loopState.state := by
      apply hooks.resolve_right
      rintro ⟨⟨result, returned⟩, _⟩
      exact (steps_of_takes nextTaken).not_returned result returned
    rw [effectsOf_append_singleton, spawned_append, tasks]
    cases spawns_of_takes nextTaken with
    | moved now context published _ changed notInit output silent =>
        refine ⟨moves ++ [(transitionHook next.before.node.loopState.state
          next.after.node.loopState.state, context)], ?_, .inl ?_⟩
        · rw [output, spawned_append, silent.spawned, List.append_nil,
            spawned_transitionTasks, List.flatMap_append, List.flatMap_singleton]
        · rw [List.map_append]
          exact lead.append changed notInit
    | quiet nothing stays =>
        refine ⟨moves, by rw [nothing, List.append_nil], ?_⟩
        rcases stays with same | returned
        · exact .inl (same ▸ lead)
        · exact .inr ⟨returned, lead.mem_hookOrder⟩

/-- Once it has refreshed, a loop that has not returned is not in `Init`. -/
theorem left_init_of_run
    (run : process.runWithStatus.Run (process.startRun startupAt scheduledAt) trace
      final) :
    final.phase = .refreshing ∨ final.node.loopState.state ≠ .init ∨
      ∃ result, final.phase = .returned result := by
  apply run.invariant (motive := fun state =>
    state.phase = .refreshing ∨ state.node.loopState.state ≠ .init ∨
      ∃ result, state.phase = .returned result) (.inl rfl)
  rintro next - taken holds
  right
  have notReturned : ¬∃ result, next.before.phase = .returned result := by
    rintro ⟨result, returned⟩
    exact (steps_of_takes taken).not_returned result returned
  cases (steps_of_takes taken).evolves with
  | refreshed now _ _ loopState =>
      left
      rw [loopState, refreshed_state]
      exact desiredState_ne_init _
  | accepted _ _ _ phase _ changed =>
      left
      have selecting : next.before.phase ≠ .refreshing := by simp [phase]
      rcases changed with ⟨counters, loopState⟩
      rw [loopState]
      exact (holds.resolve_left selecting).resolve_right notReturned
  | unchanged noRefresh _ phase =>
      have left := (holds.resolve_left phase).resolve_right notReturned
      refine ((steps_of_takes taken).state_eq noRefresh).imp_left fun same => ?_
      rw [same]
      exact left

end Run

/-! ## The exit -/

/-- None of the effects is awaited. -/
def Unawaited (effects : List Effect) : Prop :=
  ∀ effect ∈ effects, effect.awaited = false

theorem Silences.unawaited {effects : List Effect} (silent : Silences effects) :
    Unawaited effects :=
  fun effect member => (silent effect member).2

theorem Unawaited.append {first second : List Effect} (left : Unawaited first)
    (right : Unawaited second) : Unawaited (first ++ second) := by
  intro effect member
  rcases List.mem_append.mp member with inFirst | inSecond
  · exact left effect inFirst
  · exact right effect inSecond

/-- The exit cleanup of a loop in this state, that ends with `result`. -/
def exitCleanup (runtime : HaRuntimeConfig) (loopState : HaLoopState)
    (result : Except Error Unit) (now : Int) : Cleanup :=
  (beginCleanup runtime loopState (!result.isOk) now).1

section Cleanup

variable {runtime : HaRuntimeConfig} {loopState : HaLoopState}
variable {result : Except Error Unit} {now : Int}

theorem exitCleanup_reason :
    (exitCleanup runtime loopState result now).reason =
      if result.isOk then .gracefulShutdown else .runtimeFault := by
  cases failed : result.isOk <;> simp [exitCleanup, beginCleanup, failed]

theorem exitCleanup_faultHook :
    (exitCleanup runtime loopState result now).faultHook runtime =
      if result.isOk then []
      else [.runHook runtime.hooks .fault
        (exitCleanup runtime loopState result now).context] := by
  cases failed : result.isOk <;>
    simp [exitCleanup, beginCleanup, Cleanup.faultHook, failed]

theorem exitCleanup_context :
    (exitCleanup runtime loopState result now).context.reason =
      some (exitCleanup runtime loopState result now).reason := rfl

/-- What the cleanup of a loop that has left `Init` publishes. -/
theorem finish_exitCleanup (runtime : HaRuntimeConfig) (statusTx : Bool)
    (result : Except Error Unit) (now : Int) (notInit : loopState.state ≠ .init) :
    ∃ exited : HaLoopState,
      (exitCleanup runtime loopState result now).finish runtime statusTx loopState =
        (exited, publishLoopStatus runtime statusTx exited now) ∧
      exited.state = .init ∧
      exited.decisionReason = (exitCleanup runtime loopState result now).reason ∧
      exited.lastTransitionReason =
        some (exitCleanup runtime loopState result now).reason := by
  have previous : (exitCleanup runtime loopState result now).previousState ≠ .init :=
    notInit
  rw [Cleanup.finish, if_neg previous]
  exact ⟨_, rfl, rfl, rfl, rfl⟩

end Cleanup

/-- The effects of the run so far, by the program point it has come to: nothing
awaited in the loop, and after it the effects of the cleanup up to that point. -/
def ExitEffects (process : HaProcess) (effects : List Effect) (state : RunState) : Prop :=
  match state.phase with
  | .refreshing | .selecting => Unawaited effects
  | .exiting faulted result => Unawaited effects ∧ faulted = !result.isOk
  | .removing cleanup result =>
      ∃ looped now, Unawaited looped ∧
        cleanup = exitCleanup process.runtime state.node.loopState result now ∧
        effects = looped ++ [.applyAddresses (addressManager process.runtime) .remove]
  | .faulting cleanup result =>
      ∃ looped now, Unawaited looped ∧
        cleanup = exitCleanup process.runtime state.node.loopState result now ∧
        effects = looped ++ [.applyAddresses (addressManager process.runtime) .remove] ++
          cleanup.faultHook process.runtime
  | .returned result =>
      ∃ looped left now, Unawaited looped ∧ left.state ≠ .init ∧
        state.node.loopState = ((exitCleanup process.runtime left result now).finish
          process.runtime process.statusTx left).1 ∧
        effects = looped ++ [.applyAddresses (addressManager process.runtime) .remove] ++
          (exitCleanup process.runtime left result now).faultHook process.runtime ++
          ((exitCleanup process.runtime left result now).finish process.runtime
            process.statusTx left).2

section Exit

variable {process : HaProcess} {startupAt scheduledAt : Int} {final : RunState}
variable {trace : List (Transition RunState RunInput Effect)}
variable {transition : Transition RunState RunInput Effect}

theorem unawaited_refresh (runtime : HaRuntimeConfig) (statusTx : Bool)
    (loopState : HaLoopState) (now : Int) :
    Unawaited (refreshLocalState runtime statusTx loopState now).2 := by
  by_cases same : (refreshed runtime loopState now).state = loopState.state
  · exact (silences_refresh same).unawaited
  · rw [(effects_refresh statusTx (Ne.symm same)).2]
    apply Unawaited.append _ (silences_publish now).unawaited
    intro effect member
    simp only [transitionTasks, List.mem_cons, List.not_mem_nil, or_false] at member
    rcases member with rfl | rfl <;> rfl

/-- Run lemma: the awaited effects of a run are those of its cleanup. -/
theorem exitEffects_of_run
    (run : process.runWithStatus.Run (process.startRun startupAt scheduledAt) trace
      final) :
    ExitEffects process (effectsOf trace) final := by
  apply run.history_induction (motive := fun taken state =>
    ExitEffects process (effectsOf taken) state)
  · intro effect member
    cases member
  · rintro taken next before nextTaken - holds
    have left := left_init_of_run before
    have steps := steps_of_takes nextTaken
    rw [effectsOf_append_singleton]
    generalize next.before = state, next.input = input, next.after = after,
      next.output = output at steps holds left
    cases steps with
    | refresh phase handles =>
        simp only [ExitEffects, phase] at holds
        rcases handle_refresh handles with ⟨_, _, _, _, effects⟩
        rw [effects]
        exact holds.append (unawaited_refresh _ _ _ _)
    | handled phase ready handles _ =>
        simp only [ExitEffects, phase] at holds
        exact holds.append (silences_handle (noRefresh_of_armReady ready) handles).unawaited
    | failed phase ready handles _ =>
        simp only [ExitEffects, phase] at holds
        have silent := silences_handle (noRefresh_of_armReady ready) handles
        exact ⟨holds.append silent.unawaited, rfl⟩
    | shutdown phase =>
        simp only [ExitEffects, phase] at holds
        rw [List.append_nil]
        exact ⟨holds, rfl⟩
    | beginCleanup phase _ =>
        simp only [ExitEffects, phase] at holds
        rcases holds with ⟨unawaited, rfl⟩
        exact ⟨effectsOf taken, _, unawaited, rfl, rfl⟩
    | runFaultHook phase _ =>
        simp only [ExitEffects, phase] at holds
        rcases holds with ⟨looped, now, unawaited, cleanup, effects⟩
        exact ⟨looped, now, unawaited, cleanup, by rw [effects]⟩
    | finish phase graceful =>
        simp only [ExitEffects, phase] at holds
        rcases holds with ⟨looped, now, unawaited, rfl, effects⟩
        refine ⟨looped, state.node.loopState, now, unawaited, ?_, rfl, ?_⟩
        · simpa [phase] using left
        · rw [effects, Cleanup.faultHook, graceful]
          simp [finishCleanup]
    | finishFaulted phase =>
        simp only [ExitEffects, phase] at holds
        rcases holds with ⟨looped, now, unawaited, rfl, effects⟩
        refine ⟨looped, state.node.loopState, now, unawaited, ?_, rfl, ?_⟩
        · simpa [phase] using left
        · rw [effects]
          rfl

/-- A datagram is sent from the select, and encodes the current state. -/
theorem sent_of_takes {datagram : Bytes} (taken : process.runWithStatus.Takes transition)
    (sent : datagram ∈ sentDatagrams transition.output) :
    transition.before.phase = .selecting ∧ ∃ sequence,
      (advertisement process.hasher process.runtime
        transition.before.node.loopState.state sequence).encode = .ok datagram := by
  have steps := steps_of_takes taken
  generalize transition.before = state, transition.input = input,
    transition.after = after, transition.output = output at steps sent
  cases steps with
  | refresh _ handles =>
      rcases handle_refresh handles with ⟨_, _, _, _, effects⟩
      rw [effects, sentDatagrams_refresh] at sent
      cases sent
  | @handled event _ phase ready handles _ | @failed event _ _ phase ready handles _ =>
      refine ⟨phase, ?_⟩
      cases event with
      | refresh now => cases ready
      | receive recv observedAt =>
          rcases handle_receive handles with ⟨_, _, nothing, _⟩
          rw [nothing] at sent
          cases sent
      | send sendTo scheduledAt publishedAt =>
          rcases handle_send handles with ⟨_, _, _, encodes⟩
          exact ⟨_, encodes datagram sent⟩
  | shutdown | beginCleanup => cases sent
  | @runFaultHook cleanup =>
      rw [Cleanup.faultHook] at sent
      split at sent <;> cases sent
  | finish | finishFaulted =>
      simp only [finishCleanup, Cleanup.finish, sentDatagrams_publish] at sent
      cases sent

/-- A hook is spawned by a transition of the local state, in its context. -/
theorem spawnHook_of_takes {hooks : HaHooks} {event : HookEvent} {context : HookContext}
    (taken : process.runWithStatus.Takes transition)
    (member : .spawnHook hooks event context ∈ transition.output) :
    event = transitionHook transition.before.node.loopState.state
        transition.after.node.loopState.state ∧
      context.previousState = transition.before.node.loopState.state ∧
      context.state = transition.after.node.loopState.state ∧
      context.reason = transition.after.node.loopState.lastTransitionReason ∧
      context.reason ≠ none := by
  have inSpawned : .spawnHook hooks event context ∈ spawned transition.output :=
    List.mem_filter.mpr ⟨member, rfl⟩
  cases spawns_of_takes taken with
  | moved _ own published _ _ _ output silent previous current reason recorded =>
      rw [output, spawned_append, silent.spawned, List.append_nil,
        spawned_transitionTasks] at inSpawned
      simp only [transitionTasks, List.mem_cons, reduceCtorEq, Effect.spawnHook.injEq,
        List.not_mem_nil, or_false, false_or] at inSpawned
      rcases inSpawned with ⟨_, isTransition, rfl⟩
      exact ⟨isTransition, previous, current, reason, recorded⟩
  | quiet nothing =>
      rw [nothing] at inSpawned
      cases inSpawned

/-- A refresh that changes the local state spawns the two tasks of that transition, and
nothing else. -/
theorem tasks_of_refresh {now : Int} (taken : process.runWithStatus.Takes transition)
    (input : transition.input = .event (.refresh now))
    (changed : transition.after.node.loopState.state ≠
      transition.before.node.loopState.state) :
    ∃ context, spawned transition.output = transitionTasks process.runtime
        (transitionHook transition.before.node.loopState.state
          transition.after.node.loopState.state) context ∧
      context.previousState = transition.before.node.loopState.state ∧
      context.state = transition.after.node.loopState.state ∧
      context.reason = transition.after.node.loopState.lastTransitionReason ∧
      context.reason ≠ none := by
  have loopState := (refreshed_of_takes taken input).2
  have output := output_of_refresh taken input
  rw [loopState] at changed ⊢
  rcases effects_refresh process.statusTx (Ne.symm changed) with ⟨recorded, effects⟩
  rw [output, effects, spawned_append, (silences_publish now).spawned, List.append_nil,
    spawned_transitionTasks]
  exact ⟨_, rfl, rfl, rfl, rfl, recorded⟩

/-- A hook is awaited at one point only, after the removal of a faulted exit. -/
theorem removing_of_runHook {hooks : HaHooks} {event : HookEvent} {context : HookContext}
    (taken : process.runWithStatus.Takes transition)
    (member : .runHook hooks event context ∈ transition.output) :
    ∃ cleanup result, transition.before.phase = .removing cleanup result ∧
      cleanup.faulted = true ∧ event = .fault ∧ context = cleanup.context := by
  have steps := steps_of_takes taken
  generalize transition.before = state, transition.input = input,
    transition.after = after, transition.output = output at steps member
  have notAwaited : ∀ {effects : List Effect}, Unawaited effects →
      .runHook hooks event context ∉ effects := by
    intro effects unawaited inside
    cases unawaited _ inside
  cases steps with
  | refresh _ handles =>
      rcases handle_refresh handles with ⟨_, _, _, _, effects⟩
      rw [effects] at member
      exact absurd member (notAwaited (unawaited_refresh _ _ _ _))
  | handled _ ready handles _ | failed _ ready handles _ =>
      have silent := silences_handle (noRefresh_of_armReady ready) handles
      exact absurd member (notAwaited silent.unawaited)
  | shutdown => cases member
  | beginCleanup => simp [beginCleanup] at member
  | @runFaultHook cleanup result phase faulted =>
      rw [Cleanup.faultHook, faulted] at member
      simp only [if_true, List.mem_singleton, Effect.runHook.injEq] at member
      exact ⟨cleanup, result, phase, faulted, member.2⟩
  | finish | finishFaulted =>
      exact absurd member (notAwaited silences_finishCleanup.unawaited)

/-- A hook is awaited for a fault only, in the context of the exit. -/
theorem runHook_of_takes {hooks : HaHooks} {event : HookEvent} {context : HookContext}
    {earlier : List Effect} (taken : process.runWithStatus.Takes transition)
    (before : ExitEffects process earlier transition.before)
    (member : .runHook hooks event context ∈ transition.output) :
    event = .fault ∧
      context.previousState = transition.before.node.loopState.state ∧
      context.state = .init ∧ context.reason = some .runtimeFault := by
  rcases removing_of_runHook taken member with
    ⟨cleanup, result, phase, faulted, isFault, rfl⟩
  simp only [ExitEffects, phase] at before
  rcases before with ⟨_, now, _, rfl, _⟩
  simp only [exitCleanup, beginCleanup] at faulted ⊢
  exact ⟨isFault, rfl, rfl, by simp [hookContext, faulted]⟩

/-- The side effects of a run: each transition of the local state has its two
tasks and its hook, in order, and the exit comes once, after all of them. -/
structure OrderedSideEffects (process : HaProcess)
    (trace : List (Transition RunState RunInput Effect)) (final : RunState) : Prop where
  order : spawnedHooks (effectsOf trace) ∈ hookOrder.matches'
  paired : ∃ moves : List (HookEvent × HookContext), spawned (effectsOf trace) =
    moves.flatMap fun move => transitionTasks process.runtime move.1 move.2
  moved : ∀ transition ∈ trace, ∀ now, transition.input = .event (.refresh now) →
    transition.after.node.loopState.state ≠ transition.before.node.loopState.state →
    ∃ context, spawned transition.output = transitionTasks process.runtime
        (transitionHook transition.before.node.loopState.state
          transition.after.node.loopState.state) context ∧
      context.previousState = transition.before.node.loopState.state ∧
      context.state = transition.after.node.loopState.state ∧
      context.reason = transition.after.node.loopState.lastTransitionReason ∧
      context.reason ≠ none
  quiet : ∀ transition ∈ trace,
    (∀ now, transition.input = .event (.refresh now) →
      transition.after.node.loopState.state = transition.before.node.loopState.state) →
    spawned transition.output = []
  contexts : ∀ transition ∈ trace, ∀ hooks event context,
    .spawnHook hooks event context ∈ transition.output →
    context.previousState = transition.before.node.loopState.state ∧
      context.state = transition.after.node.loopState.state ∧
      context.reason = transition.after.node.loopState.lastTransitionReason ∧
      context.reason ≠ none
  faultContexts : ∀ transition ∈ trace, ∀ hooks event context,
    .runHook hooks event context ∈ transition.output →
    event = .fault ∧
      context.previousState = transition.before.node.loopState.state ∧
      context.state = .init ∧ context.reason = some .runtimeFault
  advertised : ∀ transition ∈ trace, ∀ datagram ∈ sentDatagrams transition.output,
    ∃ packet, HaPacket.decode datagram = .ok packet ∧ packet.state ≠ .init
  exit : ∀ result, final.phase = .returned result → ∃ looped context snapshot,
    effectsOf trace =
      looped ++ [.applyAddresses (addressManager process.runtime) .remove] ++
        (if result.isOk then [] else [.runHook process.runtime.hooks .fault context]) ++
        (if process.statusTx then [.publish snapshot] else []) ∧
      Unawaited looped ∧
      snapshot.state = .init ∧
      snapshot.decisionReason =
        (if result.isOk then .gracefulShutdown else .runtimeFault) ∧
      snapshot.lastTransitionReason = some snapshot.decisionReason ∧
      context.reason = snapshot.lastTransitionReason

/-- Side effects happen once for each transition, in a fixed order. -/
theorem ordered_sideEffects (process : HaProcess) (startupAt scheduledAt : Int)
    (trace : List (Transition RunState RunInput Effect)) (final : RunState)
    (run : process.runWithStatus.Run (process.startRun startupAt scheduledAt) trace
      final) :
    OrderedSideEffects process trace final := by
  rcases tasks_of_run run with ⟨moves, tasks, hooks⟩
  constructor
  case order =>
    rw [← spawnedHooks_spawned, tasks, spawnedHooks_transitionTasks]
    rcases hooks with lead | ⟨_, ordered⟩
    · exact lead.mem_hookOrder
    · exact ordered
  case paired => exact ⟨moves, tasks⟩
  case moved =>
    intro transition member now input changed
    rcases run.exists_before member with ⟨_, _, taken⟩
    exact tasks_of_refresh taken input changed
  case quiet =>
    intro transition member stays
    rcases run.exists_before member with ⟨_, _, taken⟩
    cases spawns_of_takes taken with
    | moved now _ _ input changed => exact absurd (stays now input).symm changed
    | quiet nothing => exact nothing
  case contexts =>
    intro transition member hooks event context spawnedHere
    rcases run.exists_before member with ⟨_, _, taken⟩
    exact (spawnHook_of_takes taken spawnedHere).2
  case faultContexts =>
    intro transition member hooks event context awaitedHere
    rcases run.exists_before member with ⟨_, before, taken⟩
    exact runHook_of_takes taken (exitEffects_of_run before) awaitedHere
  case advertised =>
    intro transition member datagram sent
    rcases run.exists_before member with ⟨_, before, taken⟩
    rcases sent_of_takes taken sent with ⟨phase, sequence, encodes⟩
    refine ⟨_, HaPacket.decode_eq_ok_iff.mpr (HaPacket.encode_eq_ok_iff.mp encodes), ?_⟩
    have left := left_init_of_run before
    simpa [phase] using left
  case exit =>
    intro result returned
    have exits := exitEffects_of_run run
    simp only [ExitEffects, returned] at exits
    rcases exits with ⟨looped, left, now, unawaited, notInit, _, effects⟩
    rcases finish_exitCleanup process.runtime process.statusTx result now notInit with
      ⟨exited, finished, init, decision, last⟩
    rw [finished, exitCleanup_faultHook] at effects
    refine ⟨looped, (exitCleanup process.runtime left result now).context,
      statusSnapshot process.runtime exited now, effects, unawaited, init, ?_, ?_, ?_⟩
    · exact decision.trans exitCleanup_reason
    · exact last.trans (congrArg some decision.symm)
    · exact exitCleanup_context.trans last.symm

end Exit

/-! ## A run from start to fault -/

/-- A waiting node takes the address over, advertises, and ends when its next
advertisement fails for good. -/
def faultTrace : List (Transition RunState RunInput Effect) :=
  watchedProcess.runWithStatus.record (watchedProcess.startRun 0 0) [
    .event (.refresh 0),
    demoArrival "low" 100 .standby 1 1,
    .event (.refresh 1),
    .event (.send (.ok ()) 1000000000 1000000000),
    .event (.refresh 1000000000),
    .event (.send (.error { kind := .addrInUse, text := "in use" }) 2000000000 2000000000),
    .beginCleanup 2000000000,
    .addressesRemoved,
    .faultHookReturned]

theorem ordered_sideEffects_fault :
    OrderedSideEffects watchedProcess faultTrace
        (Machine.finalState (watchedProcess.startRun 0 0) faultTrace) ∧
      spawnedHooks (effectsOf faultTrace) = [.backup, .promote] ∧
      ((effectsOf faultTrace).filter Effect.awaited).length = 2 :=
  ⟨ordered_sideEffects watchedProcess 0 0 faultTrace _
      (Machine.run_record _ (by decide +kernel)),
    by decide +kernel, by decide +kernel⟩

end Gruezi.Ha
