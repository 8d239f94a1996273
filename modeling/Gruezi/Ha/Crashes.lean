import Gruezi.Ha.Addresses
import Gruezi.Ha.SideEffects

/-!
# The interface across crashes

A process that is killed leaves its addresses on the interface, and of its address tasks
the commands that have been started still run.  The next process does not look at the
interface.  Its first decision runs a full action, so from then on the addresses follow
its state, whatever it found; and no other address is ever touched.
-/

namespace Gruezi.Ha

open Rust Lib HaProcess

inductive CrashInput where
  | vip (input : VipInput)
  /-- The process is killed and started again; the new one reads the clock twice.  The
  tasks for which `started` holds have a command running. -/
  | restart (started : Nat → Bool) (startupAt scheduledAt : Int)

/-- A process at its start, next to what is left of its former self. -/
def restartVip (process : HaProcess) (writers : Writers String Bool)
    (startupAt scheduledAt : Int) : VipState where
  run := process.startRun startupAt scheduledAt
  writers
  removal := none

def stepCrash (process : HaProcess) (vip : VipState) :
    CrashInput → Option (VipState × List Effect)
  | .vip input => stepVip process vip input
  | .restart started startupAt scheduledAt =>
      some (restartVip process (vip.writers.kill started) startupAt scheduledAt, [])

def crashSystem (process : HaProcess) : Machine VipState CrashInput Effect where
  step := stepCrash process

/-- The process has taken its first decision. -/
def decided (run : RunState) : Bool :=
  match run.phase with
  | .refreshing => run.node.loopState.state != .init
  | .selecting | .exiting _ _ | .removing _ _ | .faulting _ _ | .returned _ => true

/-- A process that has decided runs no late command. -/
def NotLateOnceDecided (transition : Transition VipState CrashInput Effect) : Prop :=
  match transition.input with
  | .vip (.exec task) =>
      decided transition.before.run = true →
        ∀ executed ∈ transition.before.writers.exec task,
          executed.1.value = wanted transition.before.run ∨
            executed.2.Pending ⟨executed.1.key, wanted transition.before.run⟩
  | .vip (.loop _) | .restart _ _ _ => True

instance (transition : Transition VipState CrashInput Effect) :
    Decidable (NotLateOnceDecided transition) := by
  unfold NotLateOnceDecided
  split <;> infer_instance

section Steps

variable {process : HaProcess} {state next : RunState} {input : RunInput}
variable {effects : List Effect}

theorem Silences.addressTasks (silent : Silences effects) :
    effects.filterMap addressTask = [] := by
  rw [List.filterMap_eq_nil_iff]
  intro effect member
  rcases silent effect member with ⟨spawns, awaited⟩
  cases effect with
  | spawnAddressAction => cases spawns
  | applyAddresses => cases awaited
  | spawnHook | runHook | sendTo | publish => rfl

/-- Every address task runs an action on the configured addresses. -/
theorem addressTasks_of_steps (steps : process.Steps state input next effects) :
    ∀ task ∈ effects.filterMap addressTask, ∃ action,
      task = (addressManager process.runtime).commands action := by
  intro task member
  cases steps with
  | @refresh now _ _ handles =>
      rcases handle_refresh handles with ⟨_, _, _, _, effectsEq⟩
      rw [effectsEq] at member
      by_cases same : (refreshed process.runtime state.node.loopState now).state =
          state.node.loopState.state
      · rw [(silences_refresh same).addressTasks] at member
        cases member
      · rw [(effects_refresh process.statusTx (Ne.symm same)).2, List.filterMap_append,
          (silences_publish now).addressTasks, List.append_nil] at member
        cases List.mem_singleton.mp member
        exact ⟨_, rfl⟩
  | handled _ ready handles | failed _ ready handles =>
      rw [(silences_handle (noRefresh_of_armReady ready) handles).addressTasks] at member
      cases member
  | shutdown => cases member
  | beginCleanup =>
      cases List.mem_singleton.mp member
      exact ⟨_, rfl⟩
  | @runFaultHook cleanup =>
      simp only [Cleanup.faultHook] at member
      split at member <;> cases member
  | finish | finishFaulted =>
      rw [silences_finishCleanup.addressTasks] at member
      cases member

/-- The first decision starts a task with all commands of the action it asks for. -/
theorem covers_of_first (steps : process.Steps state input next effects)
    (undecided : decided state = false) :
    ∃ task ∈ effects.filterMap addressTask,
      ∀ address ∈ process.runtime.addresses, ⟨address, wanted next⟩ ∈ task := by
  cases steps with
  | @refresh now _ phase handles =>
      rcases handle_refresh handles with ⟨_, _, _, loopState, effectsEq⟩
      rw [decided, phase, bne_eq_false_iff_eq] at undecided
      have changed : (refreshed process.runtime state.node.loopState now).state ≠
          state.node.loopState.state := by
        rw [undecided, refreshed_state]
        exact desiredState_ne_init _
      simp only [wanted, inCleanup, loopState, effectsEq, Bool.not_false, Bool.and_true]
      exact addressTask_of_refresh changed
  | handled phase | failed phase | shutdown phase | beginCleanup phase
  | runFaultHook phase | finish phase | finishFaulted phase =>
      rw [decided, phase] at undecided
      cases undecided

/-- What is left to run goes to configured addresses, the other addresses are as they
were, and once the process has decided the configured ones settle on what its newest
action asks for. -/
structure Recovers (process : HaProcess) (store : String → Bool) (vip : VipState) :
    Prop where
  confined : vip.writers.Confined process.runtime.addresses
  others : ∀ address ∉ process.runtime.addresses, vip.writers.store address = store address
  settling : decided vip.run = true →
    vip.writers.Settling process.runtime.addresses (wanted vip.run)

/-- Step lemma. -/
theorem Recovers.step {store : String → Bool}
    {transition : Transition VipState CrashInput Effect}
    (recovers : Recovers process store transition.before)
    (taken : (crashSystem process).Takes transition)
    (notLate : NotLateOnceDecided transition) :
    Recovers process store transition.after := by
  simp only [Machine.Takes, crashSystem] at taken
  cases crashInput : transition.input with
  | vip input =>
      rw [crashInput] at taken
      simp only [stepCrash] at taken
      cases input with
      | loop input =>
          simp only [stepVip] at taken
          split at taken
          · rw [Option.map_eq_some_iff] at taken
            rcases taken with ⟨⟨run, effects⟩, stepped, equal⟩
            rw [Prod.mk.injEq] at equal
            rw [← equal.1]
            have steps := steps_of_stepRun stepped
            refine ⟨recovers.confined.spawn ?_, recovers.others, ?_⟩
            · intro task member write left
              rcases addressTasks_of_steps steps task member with ⟨action, rfl⟩
              rcases List.mem_map.mp left with ⟨address, configured, rfl⟩
              exact configured
            · intro _
              cases before : decided transition.before.run with
              | false => exact Writers.settling_of_spawn (covers_of_first steps before)
              | true =>
                  rcases wanted_of_steps steps with same | covers
                  · simp only [same]
                    exact (recovers.settling before).spawn
                  · exact Writers.settling_of_spawn covers
          · cases taken
      | exec task =>
          simp only [stepVip, Option.map_eq_some_iff] at taken
          rcases taken with ⟨⟨write, writers⟩, executed, equal⟩
          rw [Prod.mk.injEq] at equal
          rw [← equal.1]
          simp only [NotLateOnceDecided, crashInput] at notLate
          refine ⟨recovers.confined.exec executed, ?_, ?_⟩
          · intro address other
            exact (recovers.confined.store_exec executed other).trans
              (recovers.others address other)
          · intro hasDecided
            exact (recovers.settling hasDecided).exec executed (notLate hasDecided _ executed)
  | restart started startupAt scheduledAt =>
      rw [crashInput] at taken
      simp only [stepCrash, Option.some.injEq, Prod.mk.injEq] at taken
      rw [← taken.1]
      refine ⟨recovers.confined.kill, recovers.others, ?_⟩
      intro hasDecided
      cases hasDecided

end Steps

/-- In a run with any number of crashes, on an interface that holds anything, every
address that is not configured stays as it was, and whenever the process has decided and
no command is left to run, the configured addresses are present exactly if the node owns
them and has not begun its exit cleanup. -/
theorem presence_after_crashes (process : HaProcess) (store : String → Bool)
    (startupAt scheduledAt : Int)
    (trace : List (Transition VipState CrashInput Effect)) (vip : VipState)
    (run : (crashSystem process).Run
      (restartVip process { tasks := [], store } startupAt scheduledAt) trace vip)
    (notLate : ∀ transition ∈ trace, NotLateOnceDecided transition) :
    (∀ address ∉ process.runtime.addresses, vip.writers.store address = store address) ∧
      (decided vip.run = true → vip.writers.Quiescent →
        ∀ address ∈ process.runtime.addresses,
          vip.writers.store address = wanted vip.run) := by
  have recovers : Recovers process store vip := by
    apply run.invariant (motive := Recovers process store)
    · refine ⟨?_, fun _ _ => rfl, ?_⟩
      · intro write pending
        rcases pending with ⟨task, member, _⟩
        cases member
      · intro hasDecided
        cases hasDecided
    · intro next member taken recovers
      exact recovers.step taken (notLate next member)
  refine ⟨recovers.others, ?_⟩
  intro hasDecided quiescent
  exact (recovers.settling hasDecided).settled quiescent

/-! ## An owner that is killed -/

/-- The node is promoted, adds its address and is killed; the next process holds at
startup. -/
def killedOwnerTrace : List (Transition VipState CrashInput Effect) :=
  let process := demoProcess "low" 100 false
  (crashSystem process).record
    (restartVip process { tasks := [], store := fun address => address == "192.0.2.7/32" } 0 0) [
    .vip (.loop (.event (.refresh 0))),
    .vip (.loop (.event (.receive (.error ⟨.timedOut, "timed out"⟩) 1))),
    .vip (.loop (.event (.refresh 3000000000))),
    .vip (.exec 0),
    .vip (.exec 1),
    .restart (fun _ => false) 4000000000 4000000000,
    .vip (.loop (.event (.refresh 4000000000))),
    .vip (.exec 2)]

def killedOwner : VipState :=
  Machine.finalState
    (restartVip (demoProcess "low" 100 false)
      { tasks := [], store := fun address => address == "192.0.2.7/32" } 0 0)
    killedOwnerTrace

/-- The address is still there when the owner is killed. -/
example : (killedOwnerTrace.map fun next =>
    next.after.writers.store "10.0.0.10/24") =
      [false, false, false, false, true, true, true, false] := by
  decide +kernel

theorem presence_after_crashes_killedOwner :
    killedOwner.writers.store "192.0.2.7/32" = true ∧
      killedOwner.writers.store "10.0.0.10/24" = false := by
  have follows := presence_after_crashes (demoProcess "low" 100 false)
    (fun address => address == "192.0.2.7/32") 0 0 killedOwnerTrace killedOwner
    (Machine.run_record _ (by decide +kernel)) (by decide +kernel)
  have configured : "10.0.0.10/24" ∈ (demoProcess "low" 100 false).runtime.addresses := by
    decide +kernel
  exact ⟨follows.1 _ (by decide +kernel),
    (follows.2 (by decide +kernel) (by decide +kernel) _ configured).trans
      (by decide +kernel)⟩

end Gruezi.Ha
