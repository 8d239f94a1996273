import Gruezi.Ha.Run
import Gruezi.Lib.Writers

/-!
# The addresses on the interface

The control loop together with the address tasks it spawns.  Each task runs its
`ip address` commands one at a time, in any interleaving with the loop and with
the other tasks; every command succeeds.  The addresses follow the HA state as
long as no command of an overtaken action runs late.
-/

namespace Gruezi.Ha

open Rust Lib HaProcess

/-- Whether the `ip` subcommand of the action, `add` or `del`, leaves the address
present. -/
def AddressAction.adds : AddressAction → Bool
  | .add => true
  | .remove => false

/-- The commands of `AddressManager::apply`, in order. -/
def AddressManager.commands (manager : AddressManager) (action : AddressAction) :
    List (Write String Bool) :=
  manager.addresses.map fun address => ⟨address, action.adds⟩

/-- The task that an effect of the loop starts, if it starts one. -/
def addressTask : Effect → Option (List (Write String Bool))
  | .spawnAddressAction manager action _ => some (manager.commands action)
  | .applyAddresses manager action => some (manager.commands action)
  | .spawnHook _ _ _ | .runHook _ _ _ | .sendTo _ _ | .publish _ => none

/-- The loop, its address tasks and the interface.  `removal` is the index of the
task the exit cleanup awaits. -/
structure VipState where
  run : RunState
  writers : Writers String Bool
  removal : Option Nat

inductive VipInput where
  | loop (input : RunInput)
  | exec (task : Nat)

/-- The cleanup resumes only when the task it awaits has no command left. -/
def removalDone (vip : VipState) : RunInput → Bool
  | .addressesRemoved => vip.removal.any fun task => vip.writers.tasks[task]? == some []
  | _ => true

def stepVip (process : HaProcess) (vip : VipState) :
    VipInput → Option (VipState × List Effect)
  | .loop input =>
      if removalDone vip input then
        (process.stepRun vip.run input).map fun (run, effects) =>
          let removal :=
            match input with
            | .beginCleanup _ => some vip.writers.tasks.length
            | _ => vip.removal
          ({ run
             writers := vip.writers.spawn (effects.filterMap addressTask)
             removal }, effects)
      else none
  | .exec task =>
      (vip.writers.exec task).map fun (_, writers) => ({ vip with writers }, [])

def vipSystem (process : HaProcess) : Machine VipState VipInput Effect where
  step := stepVip process

/-- The loop at its start, on an interface without addresses. -/
def startVip (process : HaProcess) (startupAt scheduledAt : Int) : VipState where
  run := process.startRun startupAt scheduledAt
  writers := { tasks := [], store := fun _ => false }
  removal := none

/-- The exit cleanup has started and not finished. -/
def inCleanup : Phase → Bool
  | .removing _ _ | .faulting _ _ => true
  | .refreshing | .selecting | .exiting _ _ | .returned _ => false

/-- Whether the newest address action adds: the local state is `Active` and the
exit cleanup has not started. -/
def wanted (run : RunState) : Bool :=
  run.node.loopState.state == .active && !inCleanup run.phase

/-- The configured addresses are all present if the state is `Active` and all
absent if it is not. -/
def PresenceFollowsState (process : HaProcess) (vip : VipState) : Prop :=
  ∀ address ∈ process.runtime.addresses,
    vip.writers.store address = (vip.run.node.loopState.state == .active)

/-- The exit cleanup of an `Active` node has started, and has not yet set the
state back to `Init`. -/
def LeavingActive (vip : VipState) : Prop :=
  inCleanup vip.run.phase = true ∧ vip.run.node.loopState.state = .active

/-- The transition runs no late command: a command of an action other than the
newest runs only while one of the newest action for the same address is left. -/
def NotLate (transition : Transition VipState VipInput Effect) : Prop :=
  match transition.input with
  | .loop _ => True
  | .exec task =>
      ∀ executed ∈ transition.before.writers.exec task,
        executed.1.value = wanted transition.before.run ∨
          executed.2.Pending ⟨executed.1.key, wanted transition.before.run⟩

instance (transition : Transition VipState VipInput Effect) :
    Decidable (NotLate transition) := by
  unfold NotLate
  split <;> infer_instance

section Steps

variable {process : HaProcess} {state next : RunState} {input : RunInput}
variable {effects : List Effect}

theorem mem_commands {runtime : HaRuntimeConfig} {action : AddressAction}
    {address : String} (configured : address ∈ runtime.addresses) :
    ⟨address, action.adds⟩ ∈ (addressManager runtime).commands action :=
  List.mem_map.mpr ⟨address, configured, rfl⟩

/-- A refresh that changes the local state starts a task with all commands of
the action the new state asks for. -/
theorem addressTask_of_refresh {runtime : HaRuntimeConfig} {statusTx : Bool}
    {loopState : HaLoopState} {now : Int}
    (changed : (refreshed runtime loopState now).state ≠ loopState.state) :
    ∃ task ∈ (refreshLocalState runtime statusTx loopState now).2.filterMap addressTask,
      ∀ address ∈ runtime.addresses,
        ⟨address, (refreshed runtime loopState now).state == .active⟩ ∈ task := by
  have notInit : (refreshDecision runtime loopState now).state ≠ .init :=
    desiredState_ne_init _
  rw [refreshed_state] at changed ⊢
  simp only [refreshLocalState, refreshDecision] at changed notInit ⊢
  rw [if_neg (Ne.symm changed), List.filterMap_append]
  simp only [triggerStateHooks, if_neg (Ne.symm changed)]
  split
  · next active =>
      rw [active]
      exact ⟨_, List.mem_append_left _ List.mem_cons_self, fun _ => mem_commands⟩
  · next standby =>
      rw [standby]
      exact ⟨_, List.mem_append_left _ List.mem_cons_self, fun _ => mem_commands⟩
  · next init => exact absurd init notInit

/-- A step of the loop leaves the newest action as it is, or starts a task with
all commands of the new one. -/
theorem wanted_of_steps (steps : process.Steps state input next effects) :
    wanted next = wanted state ∨
      ∃ task ∈ effects.filterMap addressTask,
        ∀ address ∈ process.runtime.addresses, ⟨address, wanted next⟩ ∈ task := by
  have otherArm : ∀ {event : NodeEvent} {handled : Handled},
      armReady state.node.loopState event = true →
      process.handle state.node event = some handled →
      handled.node.loopState.state = state.node.loopState.state := by
    intro event handled ready handles
    apply state_of_handle _ handles
    rintro now rfl
    cases ready
  cases steps with
  | @refresh now _ phase handles =>
      rcases handle_refresh handles with ⟨_, _, _, loopState, effectsEq⟩
      by_cases same : (refreshed process.runtime state.node.loopState now).state =
          state.node.loopState.state
      · left
        simp only [wanted, inCleanup, phase, loopState]
        rw [same]
      · right
        simp only [wanted, inCleanup, loopState, effectsEq, Bool.not_false, Bool.and_true]
        exact addressTask_of_refresh same
  | handled phase ready handles _ =>
      left
      simp only [wanted, inCleanup, phase, otherArm ready handles]
  | failed phase ready handles _ =>
      left
      simp only [wanted, inCleanup, phase, otherArm ready handles]
  | shutdown phase =>
      left
      simp only [wanted, inCleanup, phase]
  | beginCleanup phase _ =>
      right
      simp only [wanted, inCleanup, Bool.not_true, Bool.and_false]
      exact ⟨_, List.mem_cons_self, fun _ => mem_commands⟩
  | runFaultHook phase _ =>
      left
      simp only [wanted, inCleanup, phase]
  | finish phase _ =>
      left
      simp only [wanted, inCleanup, phase, finishCleanup, Cleanup.finish, Bool.not_true,
        Bool.and_false]
      rfl
  | finishFaulted phase =>
      left
      simp only [wanted, inCleanup, phase, finishCleanup, Cleanup.finish, Bool.not_true,
        Bool.and_false]
      rfl

/-- Step lemma: unless a late command runs, the addresses go on settling on what
the newest action asks for. -/
theorem settling_step {transition : Transition VipState VipInput Effect}
    (taken : (vipSystem process).Takes transition) (notLate : NotLate transition)
    (settling : transition.before.writers.Settling process.runtime.addresses
      (wanted transition.before.run)) :
    transition.after.writers.Settling process.runtime.addresses
      (wanted transition.after.run) := by
  simp only [Machine.Takes, vipSystem] at taken
  cases vipInput : transition.input with
  | loop input =>
      rw [vipInput] at taken
      simp only [stepVip] at taken
      split at taken
      · rw [Option.map_eq_some_iff] at taken
        rcases taken with ⟨⟨run, effects⟩, stepped, equal⟩
        rw [Prod.mk.injEq] at equal
        rw [← equal.1]
        rcases wanted_of_steps (steps_of_stepRun stepped) with same | covers
        · rw [same]
          exact settling.spawn
        · exact Writers.settling_of_spawn covers
      · cases taken
  | exec task =>
      rw [vipInput] at taken
      simp only [stepVip, Option.map_eq_some_iff] at taken
      rcases taken with ⟨⟨write, writers⟩, executed, equal⟩
      rw [Prod.mk.injEq] at equal
      rw [← equal.1]
      simp only [NotLate, vipInput] at notLate
      exact settling.exec executed (notLate _ executed)

end Steps

/-- In a run without late commands, whenever no command is left to run the
addresses follow the state, except while the exit cleanup of an `Active` node
has removed them and not yet reset the state. -/
theorem presence_follows_state_iff (process : HaProcess) (startupAt scheduledAt : Int)
    (trace : List (Transition VipState VipInput Effect)) (vip : VipState)
    (run : (vipSystem process).Run (startVip process startupAt scheduledAt) trace vip)
    (notLate : ∀ transition ∈ trace, NotLate transition)
    (quiescent : vip.writers.Quiescent) :
    PresenceFollowsState process vip ↔
      ¬(LeavingActive vip ∧ process.runtime.addresses ≠ []) := by
  have settling : vip.writers.Settling process.runtime.addresses (wanted vip.run) := by
    apply run.invariant (motive := fun vip =>
      vip.writers.Settling process.runtime.addresses (wanted vip.run))
    · intro address _
      exact .inr rfl
    · intro next member taken holds
      exact settling_step taken (notLate next member) holds
  have settled := settling.settled quiescent
  by_cases leaving : LeavingActive vip
  · rcases leaving with ⟨cleanup, active⟩
    have absent : wanted vip.run = false := by
      simp only [wanted, cleanup, Bool.not_true, Bool.and_false]
    constructor
    · rintro follows ⟨_, nonempty⟩
      rcases List.exists_mem_of_ne_nil _ nonempty with ⟨address, configured⟩
      have present := follows address configured
      rw [settled address configured, absent, active] at present
      cases present
    · intro noAddresses address configured
      apply absurd _ noAddresses
      exact ⟨⟨cleanup, active⟩, List.ne_nil_of_mem configured⟩
  · have follows : wanted vip.run = (vip.run.node.loopState.state == .active) := by
      rw [LeavingActive, not_and] at leaving
      cases cleanup : inCleanup vip.run.phase with
      | false => simp only [wanted, cleanup, Bool.not_false, Bool.and_true]
      | true =>
          simp only [wanted, cleanup, Bool.not_true, Bool.and_false]
          exact (beq_eq_false_iff_ne.mpr (leaving cleanup)).symm
    constructor
    · rintro _ ⟨leavingActive, _⟩
      exact leaving leavingActive
    · intro _ address configured
      rw [settled address configured, follows]

/-! ## A late removal -/

/-- The node holds at startup and is promoted at the deadline; a receive fails
transiently in between.  The tasks of the two transitions run afterwards, in the
given order. -/
def promotion (tasks : List Nat) : List VipInput :=
  [.loop (.event (.refresh 0)),
    .loop (.event (.receive (.error ⟨.timedOut, "timed out"⟩) 1)),
    .loop (.event (.refresh 3000000000))] ++ tasks.map .exec

def promotionTrace (tasks : List Nat) : List (Transition VipState VipInput Effect) :=
  let process := demoProcess "low" 100 false
  (vipSystem process).record (startVip process 0 0) (promotion tasks)

def promoted (tasks : List Nat) : VipState :=
  Machine.finalState (startVip (demoProcess "low" 100 false) 0 0) (promotionTrace tasks)

/-- The removal spawned at startup runs after the promotion's commands: the node
is `Active`, every command has run and its address is gone. -/
theorem late_removal_loses_address :
    ¬∀ (process : HaProcess) (startupAt scheduledAt : Int)
      (trace : List (Transition VipState VipInput Effect)) (vip : VipState),
      (vipSystem process).Run (startVip process startupAt scheduledAt) trace vip →
      vip.writers.Quiescent → PresenceFollowsState process vip := by
  intro always
  have run : (vipSystem (demoProcess "low" 100 false)).Run
      (startVip (demoProcess "low" 100 false) 0 0) (promotionTrace [1, 0])
      (promoted [1, 0]) :=
    Machine.run_record _ (by decide +kernel)
  have follows := always _ _ _ _ _ run (by decide +kernel)
  have present := follows "10.0.0.10/24" List.mem_cons_self
  exact absurd present (by decide +kernel)

theorem presence_follows_state_iff_demo :
    PresenceFollowsState (demoProcess "low" 100 false) (promoted [0, 1]) ↔
      ¬(LeavingActive (promoted [0, 1]) ∧
        (demoProcess "low" 100 false).runtime.addresses ≠ []) := by
  have run : (vipSystem (demoProcess "low" 100 false)).Run
      (startVip (demoProcess "low" 100 false) 0 0) (promotionTrace [0, 1])
      (promoted [0, 1]) :=
    Machine.run_record _ (by decide +kernel)
  exact presence_follows_state_iff _ _ _ _ _ run (by decide +kernel) (by decide +kernel)

end Gruezi.Ha
