import Gruezi.Ha.Announcements

/-!
# The addresses under failing commands

The commands that address actions really run, on an interface, where any of them may
fail.  If no command of an older action runs after one of the newest for the same
address, then once the newest action has ended the addresses follow the HA state, or its
failure has been reported.
-/

namespace Gruezi.Ha

open Rust Lib HaProcess

namespace Command

/-- The address an `ip` command is about, and what it does to it. -/
def change? (command : Command) : Option (String × AddressAction) :=
  match command.args with
  | [object, subcommand, address, _, _] =>
      if object = "address" ∧ subcommand = "add" then some (address, .add)
      else if object = "address" ∧ subcommand = "del" then some (address, .remove)
      else none
  | _ => none

def address? (command : Command) : Option String :=
  command.change?.map Prod.fst

@[simp] theorem change?_ipCommandLine (ipCommand interface address : String)
    (action : AddressAction) :
    (ipCommandLine ipCommand interface address action).change? = some (address, action) := by
  cases action <;> rfl

@[simp] theorem change?_announcementCommand (manager : AddressManager) (ip : IpAddr) :
    (manager.announcementCommand ip).change? = none := by
  cases ip <;> rfl

end Command

/-- The commands of address actions. -/
inductive AddressManager.Issues (manager : AddressManager) : Command → Prop where
  | ip (address : String) (action : AddressAction) :
      Issues manager (ipCommandLine manager.ipCommand manager.interface address action)
  | announcement (ip : IpAddr) : Issues manager (manager.announcementCommand ip)

/-- The programs of a machine, by what a command that has ended has done to the interface.
An `ip` command that succeeds, or says that its address exists already or does not, leaves
the address as it was asked for.  One that fails leaves the interface as it is, and so does
an announcement. -/
structure IpAddress (manager : AddressManager) where
  effect : Command → CommandResult → Interface → Interface
  changes : ∀ address action result interface, succeeds action result = true →
    effect (ipCommandLine manager.ipCommand manager.interface address action) result
      interface = Function.update interface address action.adds
  keeps : ∀ address action result interface, succeeds action result = false →
    effect (ipCommandLine manager.ipCommand manager.interface address action) result
      interface = interface
  announces : ∀ ip result interface,
    effect (manager.announcementCommand ip) result interface = interface

structure Execution where
  index : Nat
  command : Command
  result : CommandResult

/-- The commands of all address actions, in the order they have been run. -/
def executions (trace : List CommandTransition) : List Execution :=
  (trace.flatMap (·.output)).filterMap fun
    | .task index (.executed command result) => some { index, command, result }
    | .task _ (.action _) | .main _ => none

/-- What the commands leave of an interface. -/
def IpAddress.interfaceAfter {manager : AddressManager} (ip : IpAddress manager)
    (interface : Interface) (executed : List Execution) : Interface :=
  executed.foldl (fun interface execution =>
    ip.effect execution.command execution.result interface) interface

/-- After a command of this action, no other action runs one for the same address. -/
def NotOvertaken (index : Nat) (executed : List Execution) : Prop :=
  executed.Pairwise fun earlier later => earlier.index = index →
    earlier.command.address? ≠ none →
      earlier.command.address? = later.command.address? → later.index = index

instance (index : Nat) (executed : List Execution) :
    Decidable (NotOvertaken index executed) :=
  inferInstanceAs (Decidable (List.Pairwise _ _))

/-! ## The newest action -/

section Newest

variable {process : HaProcess} {state next : RunState} {input : RunInput}
variable {effects : List Effect}

/-- The action is on the configured addresses, and its failure is reported unless it is
that of the cleanup, which removes them. -/
structure Configured (process : HaProcess) (task : ActionTask) : Prop where
  manager : task.manager = addressManager process.runtime
  caller : task.caller ≠ .task none
  cleanup : task.caller = .cleanup → task.action = .remove

theorem Silences.actionTasks (silent : Silences effects) : effects.filterMap actionTask = [] := by
  rw [List.filterMap_eq_nil_iff]
  intro effect member
  rcases silent effect member with ⟨spawns, awaited⟩
  cases effect with
  | spawnAddressAction => cases spawns
  | applyAddresses => cases awaited
  | spawnHook | runHook | sendTo | publish => rfl

/-- A step of the loop leaves the newest action as it is, or starts the one that the new
state asks for. -/
theorem newest_of_steps (steps : process.Steps state input next effects) :
    effects.filterMap actionTask = [] ∧ wanted next = wanted state ∨
      ∃ task, effects.filterMap actionTask = [task] ∧ Configured process task ∧
        task.action.adds = wanted next := by
  cases steps with
  | @refresh now _ phase handles =>
      rcases handle_refresh handles with ⟨_, _, _, loopState, effectsEq⟩
      rw [effectsEq]
      simp only [wanted, inCleanup, phase, loopState, Bool.not_false, Bool.and_true]
      by_cases same : (refreshed process.runtime state.node.loopState now).state =
          state.node.loopState.state
      · exact .inl ⟨(silences_refresh same).actionTasks, by rw [same]⟩
      · right
        rw [(effects_refresh process.statusTx (Ne.symm same)).2, List.filterMap_append,
          (silences_publish now).actionTasks, List.append_nil, transitionHook]
        refine ⟨_, rfl, ⟨rfl, by simp [ActionTask.start], ?_⟩, ?_⟩
        · intro isCleanup
          cases isCleanup
        split_ifs with active owner
        · rw [active]
          rfl
        all_goals exact (beq_eq_false_iff_ne.mpr active).symm
  | handled phase ready handles _ | failed phase ready handles _ =>
      have sameState := state_of_handle (noRefresh_of_armReady ready) handles
      refine .inl ⟨(silences_handle (noRefresh_of_armReady ready) handles).actionTasks, ?_⟩
      simp only [wanted, inCleanup, phase, sameState]
  | shutdown phase =>
      refine .inl ⟨rfl, ?_⟩
      simp only [wanted, inCleanup, phase]
  | beginCleanup =>
      right
      refine ⟨_, rfl, ⟨rfl, by simp [ActionTask.start], fun _ => rfl⟩, ?_⟩
      simp only [wanted, inCleanup, Bool.not_true, Bool.and_false]
      rfl
  | @runFaultHook cleanup result phase =>
      refine .inl ⟨?_, ?_⟩
      · rw [Cleanup.faultHook]
        split <;> rfl
      · simp only [wanted, inCleanup, phase]
  | finish phase | finishFaulted phase =>
      refine .inl ⟨silences_finishCleanup.actionTasks, ?_⟩
      simp only [wanted, inCleanup, phase, finishCleanup, Cleanup.finish, Bool.not_true,
        Bool.and_false]
      rfl

end Newest

/-- A command changes neither what the action is nor who awaits it. -/
theorem ActionTask.Runs.unchanged {task final : ActionTask} {input : ActionInput}
    {events : List CommandEvent} (runs : ActionTask.Runs task input final events) :
    final.manager = task.manager ∧ final.action = task.action ∧
      final.caller = task.caller := by
  cases runs <;> exact ⟨rfl, rfl, rfl⟩

section Run

variable {process : HaProcess} {startupAt scheduledAt : Int}
variable {trace : List CommandTransition} {final : SystemState} {index : Nat}

theorem newest_of_run
    (run : (commandSystem process).machine.Run
      (Spawner.start (process.startRun startupAt scheduledAt)) trace final) :
    (∀ task ∈ final.tasks, Configured process task) ∧
      ∀ newest ∈ final.tasks.getLast?, newest.action.adds = wanted final.main := by
  apply run.invariant (motive := fun state =>
    (∀ task ∈ state.tasks, Configured process task) ∧
      ∀ newest ∈ state.tasks.getLast?, newest.action.adds = wanted state.main)
  · constructor <;> intro task member <;> cases member
  · rintro next - nextTaken ⟨configured, newest⟩
    cases Spawner.moves_of_takes nextTaken with
    | main part _ _ partTaken before after _ =>
        rw [after]
        dsimp only [commandSystem]
        rcases newest_of_steps (steps_of_takes partTaken) with
          ⟨nothing, same⟩ | ⟨task, started, isConfigured, asked⟩
        · rw [nothing, List.append_nil, same, before]
          exact ⟨configured, newest⟩
        · rw [started, List.getLast?_concat]
          constructor
          · intro other member
            rcases List.mem_append.mp member with old | new
            · exact configured other old
            · cases List.mem_singleton.mp new
              exact isConfigured
          · intro other isNewest
            cases isNewest
            exact asked
    | task acting part _ found partTaken after _ =>
        rw [after]
        have unchanged := (ActionTask.runs_of_step partTaken).unchanged
        constructor
        · intro other member
          rcases List.mem_or_eq_of_mem_set member with old | rfl
          · exact configured other old
          · have before := configured part.before (List.mem_of_getElem? found)
            refine ⟨unchanged.1.trans before.manager, unchanged.2.2 ▸ before.caller, ?_⟩
            intro isCleanup
            rw [unchanged.2.1]
            exact before.cleanup (unchanged.2.2.symm.trans isCleanup)
        · intro other isNewest
          simp only [List.getLast?_eq_getElem?, List.length_set, List.getElem?_set] at isNewest
          simp only [List.getLast?_eq_getElem?] at newest
          split at isNewest
          · next isActing =>
              split at isNewest
              · cases isNewest
                rw [unchanged.2.1]
                exact newest part.before (isActing ▸ found)
              · cases isNewest
          · exact newest other isNewest

theorem mem_executions {command : Command} {result : CommandResult} :
    ⟨index, command, result⟩ ∈ executions trace ↔
      ∃ next ∈ trace, .task index (.executed command result) ∈ next.output := by
  rw [executions, List.mem_filterMap]
  constructor
  · rintro ⟨event, inTrace, isExecution⟩
    rcases List.mem_flatMap.mp inTrace with ⟨next, member, output⟩
    cases event with
    | main effect => cases isExecution
    | task acting event =>
        cases event with
        | action event => cases isExecution
        | executed other otherResult =>
            cases isExecution
            exact ⟨next, member, output⟩
  · rintro ⟨next, member, output⟩
    exact ⟨_, List.mem_flatMap.mpr ⟨next, member, output⟩, rfl⟩

theorem mem_commandsOf
    (run : (commandSystem process).machine.Run
      (Spawner.start (process.startRun startupAt scheduledAt)) trace final)
    {command : Command} {result : CommandResult} :
    (command, result) ∈ commandsOf index trace ↔
      ⟨index, command, result⟩ ∈ executions trace := by
  rw [mem_executions, commandsOf, ActionTask.commands, List.mem_filterMap]
  constructor
  · rintro ⟨event, inParts, isExecuted⟩
    rcases List.mem_flatMap.mp inParts with ⟨part, own, inPart⟩
    cases event with
    | action event => cases isExecuted
    | executed other otherResult =>
        cases isExecuted
        exact Spawner.exists_output_of_taskPart run own inPart
  · rintro ⟨next, member, output⟩
    rcases exists_taskPart_of_applied run member output with ⟨part, own, inPart⟩
    exact ⟨_, List.mem_flatMap.mpr ⟨part, own, inPart⟩, rfl⟩

end Run

/-! ## What is left on the interface -/

section Interface

variable {executed : List Execution} {index : Nat} {address : String}
variable {action : AddressAction} {interface : Interface}

variable {manager : AddressManager} (ip : IpAddress manager)

namespace IpAddress

theorem effect_of_other {command : Command} (issued : manager.Issues command)
    (other : command.address? ≠ some address) (result : CommandResult) :
    ip.effect command result interface address = interface address := by
  cases issued with
  | ip changed action =>
      rw [Command.address?, Command.change?_ipCommandLine, Option.map_some, ne_eq,
        Option.some_inj] at other
      cases success : succeeds action result with
      | true =>
          rw [ip.changes _ _ _ _ success]
          exact Function.update_of_ne (Ne.symm other) _ _
      | false => rw [ip.keeps _ _ _ _ success]
  | announcement announced => rw [ip.announces]

theorem effect_of_same {command : Command} (issued : manager.Issues command)
    (changes : command.change? = some (address, action)) (result : CommandResult) :
    ip.effect command result interface address =
      if succeeds action result then action.adds else interface address := by
  cases issued with
  | ip changed asked =>
      rw [Command.change?_ipCommandLine] at changes
      cases changes
      cases success : succeeds action result with
      | true =>
          rw [ip.changes _ _ _ _ success, if_pos rfl]
          exact Function.update_self _ _ _
      | false => rw [ip.keeps _ _ _ _ success, if_neg Bool.false_ne_true]
  | announcement announced =>
      rw [Command.change?_announcementCommand] at changes
      cases changes

/-- Commands that ask for what is already there leave it. -/
theorem interfaceAfter_of_kept
    (issued : ∀ execution ∈ executed, manager.Issues execution.command)
    (kept : ∀ later ∈ executed, later.command.address? = some address →
      later.command.change? = some (address, action))
    (already : interface address = action.adds) :
    ip.interfaceAfter interface executed address = action.adds := by
  induction executed generalizing interface with
  | nil => exact already
  | cons execution rest ih =>
      apply ih (fun later inRest => issued later (List.mem_cons_of_mem _ inRest))
        fun later inRest => kept later (List.mem_cons_of_mem _ inRest)
      have isIssued := issued execution List.mem_cons_self
      change ip.effect execution.command execution.result interface address = action.adds
      by_cases same : execution.command.address? = some address
      · rw [ip.effect_of_same isIssued (kept execution List.mem_cons_self same), already,
          ite_self]
      · rw [ip.effect_of_other isIssued same, already]

/-- An action that succeeds on an address, and is not overtaken there, has its way. -/
theorem interfaceAfter_of_notOvertaken
    (issued : ∀ execution ∈ executed, manager.Issues execution.command)
    (notOvertaken : NotOvertaken index executed)
    (own : ∀ execution ∈ executed, execution.index = index →
      execution.command.address? = some address →
        execution.command.change? = some (address, action))
    {execution : Execution} (member : execution ∈ executed) (isOwn : execution.index = index)
    (changes : execution.command.change? = some (address, action))
    (success : succeeds action execution.result = true) :
    ip.interfaceAfter interface executed address = action.adds := by
  have isAddress : execution.command.address? = some address := by
    rw [Command.address?, changes]
    rfl
  have isIssued := issued execution member
  rcases List.append_of_mem member with ⟨taken, rest, rfl⟩
  rw [interfaceAfter, List.foldl_append, List.foldl_cons]
  have inAll {later : Execution} (inRest : later ∈ rest) : later ∈ taken ++ execution :: rest :=
    List.mem_append_right _ (List.mem_cons_of_mem _ inRest)
  apply ip.interfaceAfter_of_kept fun later inRest => issued later (inAll inRest)
  · intro later inRest sameAddress
    refine own later (inAll inRest) ?_ sameAddress
    have after := (List.pairwise_cons.mp (List.pairwise_append.mp notOvertaken).2.1).1
    exact after later inRest isOwn (by simp [isAddress]) (isAddress.trans sameAddress.symm)
  · rw [ip.effect_of_same isIssued changes, if_pos success]

end IpAddress

end Interface

/-! ## What an action runs -/

namespace AddressManager

variable {manager : AddressManager} {action : AddressAction} {address : String}
variable {command : Command} {log : List (Command × CommandResult)}

theorem mem_addressScript {step : ScriptStep Command CommandResult Error}
    (member : step ∈ manager.addressScript action address) :
    (∃ judge, step = .ask
        (ipCommandLine manager.ipCommand manager.interface address action) judge) ∨
      (∃ ip, step = .tell (manager.announcementCommand ip)) ∨ ∃ error, step = .fail error := by
  rw [addressScript] at member
  split at member
  · exact .inr (.inr ⟨_, List.mem_singleton.mp member⟩)
  · rcases List.mem_cons.mp member with isAsk | announces
    · exact .inl ⟨_, isAsk⟩
    · split at announces
      · rcases List.mem_map.mp announces with ⟨command, announced, rfl⟩
        rw [Option.mem_toList] at announced
        rcases announcement_eq_some.mp announced with ⟨ip, _, _, rfl⟩
        exact .inr (.inl ⟨ip, rfl⟩)
      · cases announces

/-- What a script asks and tells are `ip` commands of its action, and announcements. -/
theorem issues_of_mem_script
    (member : (∃ judge, .ask command judge ∈ manager.script action) ∨
      .tell command ∈ manager.script action) :
    manager.Issues command ∧ ∀ address, command.address? = some address →
      command.change? = some (address, action) := by
  have ofStep (step : ScriptStep Command CommandResult Error)
      (inScript : step ∈ manager.script action)
      (isStep : (∃ judge, step = .ask command judge) ∨ step = .tell command) :
      manager.Issues command ∧ ∀ address, command.address? = some address →
        command.change? = some (address, action) := by
    rcases List.mem_flatMap.mp inScript with ⟨other, _, inAddress⟩
    rcases mem_addressScript inAddress with ⟨_, rfl⟩ | ⟨ip, rfl⟩ | ⟨_, rfl⟩
    · rcases isStep with ⟨_, same⟩ | same <;> cases same
      refine ⟨.ip other action, ?_⟩
      intro address isAddress
      rw [Command.address?, Command.change?_ipCommandLine, Option.map_some] at isAddress
      cases isAddress
      exact Command.change?_ipCommandLine _ _ _ _
    · rcases isStep with ⟨_, same⟩ | same <;> cases same
      refine ⟨.announcement ip, ?_⟩
      intro address isAddress
      rw [Command.address?, Command.change?_announcementCommand] at isAddress
      cases isAddress
    · rcases isStep with ⟨_, same⟩ | same <;> cases same
  rcases member with ⟨judge, asked⟩ | told
  · exact ofStep _ asked (.inl ⟨judge, rfl⟩)
  · exact ofStep _ told (.inr rfl)

/-- A completed script has run the `ip` command of the address. -/
theorem ran_of_completed (completed : Lib.Completed (manager.addressScript action address) log) :
    ∃ result, (ipCommandLine manager.ipCommand manager.interface address action, result) ∈ log ∧
      succeeds action result = true := by
  rw [addressScript] at completed
  cases log with
  | nil => split at completed <;> cases completed
  | cons entry log =>
      split at completed
      · cases completed
      · rcases entry with ⟨asked, result⟩
        rcases completed with ⟨rfl, judged, _⟩
        rw [isOk_checkCommand] at judged
        exact ⟨result, List.mem_cons_self, judged⟩

end AddressManager

/-! ## Failures -/

/-- An address action that has ended has returned from `apply`, and has run its fault
hook if it was to. -/
theorem ActionTask.returned_of_finished {first final : ActionTask}
    {trace : List (Transition ActionTask ActionInput CommandEvent)}
    (applying : first.phase = .applying)
    (run : ActionTask.commandMachine.Run first trace final)
    (finished : final.phase = .finished) :
    ∃ result, (∃ earlier ∈ trace, .action (.applied result) ∈ earlier.output) ∧
      (final.caller.afterApply result = .finished ∨
        ∃ later ∈ trace, ∃ hooks context,
          .action (.faultHook hooks context) ∈ later.output) := by
  have progress : final.phase = .applying ∨
      ∃ result, (∃ earlier ∈ trace, .action (.applied result) ∈ earlier.output) ∧
        (final.phase = final.caller.afterApply result ∨
          ∃ later ∈ trace, ∃ hooks context,
            .action (.faultHook hooks context) ∈ later.output) := by
    apply run.history_induction (motive := fun taken task => task.phase = .applying ∨
      ∃ result, (∃ earlier ∈ taken, .action (.applied result) ∈ earlier.output) ∧
        (task.phase = task.caller.afterApply result ∨
          ∃ later ∈ taken, ∃ hooks context,
            .action (.faultHook hooks context) ∈ later.output))
    · exact .inl applying
    · intro taken next _ nextTaken _ progress
      have runs := ActionTask.runs_of_step nextTaken
      generalize next.before = task, next.input = input, next.after = after,
        outputEq : next.output = events at runs progress
      cases runs with
      | command stillApplying => exact .inl stillApplying
      | @applied result left stillApplying ended =>
          refine .inr ⟨result, ⟨next, by simp, ?_⟩, .inl rfl⟩
          rw [outputEq]
          exact List.mem_singleton_self _
      | @faultHook hooks context reporting =>
          rcases progress with stillApplying | ⟨result, ⟨earlier, inTaken, output⟩, _⟩
          · cases stillApplying.symm.trans reporting
          · refine .inr ⟨result, ⟨earlier, List.mem_append_left _ inTaken, output⟩, .inr ?_⟩
            refine ⟨next, by simp, hooks, context, ?_⟩
            rw [outputEq]
            exact List.mem_singleton_self _
  rcases progress with stillApplying | ⟨result, applied, ended | reported⟩
  · cases stillApplying.symm.trans finished
  · exact ⟨result, applied, .inl (ended.symm.trans finished)⟩
  · exact ⟨result, applied, .inr reported⟩

/-- What becomes of the newest action: the addresses follow the state, or its failure is
reported, unless it is that of the cleanup. -/
inductive ActionOutcome (process : HaProcess) (trace : List CommandTransition)
    (final : SystemState) (index : Nat) (newest : ActionTask) (interface : Interface) :
    Prop where
  | followed :
      (∀ address ∈ process.runtime.addresses, interface address = wanted final.main) →
      ActionOutcome process trace final index newest interface
  | failed {error : Error} {applied : CommandTransition} :
      applied ∈ trace →
      .task index (.action (.applied (.error error))) ∈ applied.output →
      (newest.caller = .cleanup ∨ ∃ reported ∈ trace, ∃ hooks context,
        .task index (.action (.faultHook hooks context)) ∈ reported.output) →
      ActionOutcome process trace final index newest interface

section Run

variable {process : HaProcess} {startupAt scheduledAt : Int}
variable {trace : List CommandTransition} {final : SystemState}
variable {older : List ActionTask} {newest : ActionTask}

/-- A command that has been run is one of an address action, which does the same to its
address with all of its commands. -/
theorem issues_of_execution
    (run : (commandSystem process).machine.Run
      (Spawner.start (process.startRun startupAt scheduledAt)) trace final)
    {execution : Execution} (member : execution ∈ executions trace) :
    (addressManager process.runtime).Issues execution.command ∧
      ∃ task ∈ final.tasks, ∀ address, execution.command.address? = some address →
        execution.command.change? = some (address, task.action) := by
  have logged := (mem_commandsOf run).mpr member
  have bound : execution.index < final.tasks.length := by
    by_contra beyond
    rw [commandsOf, (Spawner.follows_of_run run).idle _ (Nat.le_of_not_lt beyond)] at logged
    cases logged
  have found := List.getElem?_eq_getElem bound
  have inScript := (runsScript_of_systemRun run found).logged.mem_script logged
  have configured := (newest_of_run run).1 _ (List.getElem_mem bound)
  have issues := AddressManager.issues_of_mem_script inScript
  rw [← configured.manager]
  exact ⟨issues.1, _, List.getElem_mem bound, issues.2⟩

theorem actionOutcome_of_run (ip : IpAddress (addressManager process.runtime))
    (run : (commandSystem process).machine.Run
      (Spawner.start (process.startRun startupAt scheduledAt)) trace final)
    (tasks : final.tasks = older ++ [newest]) (finished : newest.phase = .finished)
    (notOvertaken : NotOvertaken older.length (executions trace)) (interface : Interface) :
    ActionOutcome process trace final older.length newest
      (ip.interfaceAfter interface (executions trace)) := by
  have found : final.tasks[older.length]? = some newest := by
    rw [tasks, List.getElem?_append_right Nat.le.refl, Nat.sub_self]
    rfl
  have follows := runsScript_of_systemRun run found
  rcases newest_of_run run with ⟨configured, asked⟩
  have isConfigured := configured newest (List.mem_of_getElem? found)
  have isAsked := asked newest (by rw [tasks, List.getLast?_concat]; rfl)
  rcases (Spawner.follows_of_run run).ran _ newest found with ⟨first, isFirst, ran⟩
  rcases List.mem_filterMap.mp (List.mem_of_getElem? isFirst) with ⟨effect, _, starts⟩
  rcases ActionTask.returned_of_finished (ActionTask.fresh_of_actionTask starts).2 ran finished
    with ⟨result, ⟨part, own, inPart⟩, ended⟩
  cases result with
  | ok done =>
      apply ActionOutcome.followed
      intro address isAddress
      have returned := (follows.returned part own _ inPart).2
      rw [← follows.results] at returned
      have completed := (isOk_iff_completed follows.logged returned).mp rfl
      have member : address ∈ newest.manager.addresses := by
        rw [isConfigured.manager]
        exact isAddress
      rcases completed.of_flatMap member with ⟨log, piece, completedHere⟩
      rcases AddressManager.ran_of_completed completedHere with ⟨result, inLog, success⟩
      rw [← isAsked]
      refine ip.interfaceAfter_of_notOvertaken
        (fun execution inTrace => (issues_of_execution run inTrace).1) notOvertaken ?_
        ((mem_commandsOf run).mp (piece.subset inLog)) rfl
        (Command.change?_ipCommandLine _ _ _ _) success
      rintro ⟨index, command, result⟩ inTrace rfl sameAddress
      have inScript := follows.logged.mem_script ((mem_commandsOf run).mpr inTrace)
      exact (AddressManager.issues_of_mem_script inScript).2 _ sameAddress
  | error error =>
      rcases Spawner.exists_output_of_taskPart run own inPart with ⟨applied, inTrace, output⟩
      refine .failed inTrace output ?_
      cases caller : newest.caller with
      | cleanup => exact .inl rfl
      | task faultHook =>
          cases faultHook with
          | none => exact absurd caller isConfigured.caller
          | some report =>
              right
              rcases ended with ended | ⟨later, laterOwn, hooks, context, inLater⟩
              · rw [caller] at ended
                cases ended
              · rcases Spawner.exists_output_of_taskPart run laterOwn inLater with
                  ⟨reported, inTrace, output⟩
                exact ⟨reported, inTrace, hooks, context, output⟩

end Run

/-- Once the newest address action has ended, and no older one has overtaken it, the
addresses follow the HA state, whatever was on the interface and whatever has failed
before; or the newest action has failed, and that has been reported. -/
theorem outcome_of_newest (process : HaProcess)
    (ip : IpAddress (addressManager process.runtime)) (startupAt scheduledAt : Int)
    (trace : List CommandTransition) (final : SystemState)
    (run : (commandSystem process).machine.Run
      (Spawner.start (process.startRun startupAt scheduledAt)) trace final)
    (older : List ActionTask) (newest : ActionTask) (tasks : final.tasks = older ++ [newest])
    (finished : newest.phase = .finished)
    (notOvertaken : NotOvertaken older.length (executions trace)) (interface : Interface) :
    ActionOutcome process trace final older.length newest
      (ip.interfaceAfter interface (executions trace)) :=
  actionOutcome_of_run ip run tasks finished notOvertaken interface

/-! ## A removal that fails before the addition -/

/-- A machine whose `ip` commands do just what their arguments say. -/
def IpAddress.demo (manager : AddressManager) : IpAddress manager where
  effect command result interface :=
    match command.change? with
    | some (address, action) =>
        if succeeds action result then Function.update interface address action.adds
        else interface
    | none => interface
  changes _ _ _ _ success := by simp [success]
  keeps _ _ _ _ failure := by simp [failure]
  announces _ _ _ := by simp

/-- The removal at startup is refused and reported, and the node becomes active. -/
def refusedThenAdded : List (SpawningInput RunInput ActionInput) := [
  .main (.event (.refresh 0)),
  .task 0 (.command refusedResult),
  .task 0 .applied,
  .main (.event (.send (.ok ()) 1000000000 1000000000)),
  .main (.event (.refresh 4000000000)),
  .task 1 (.command removedResult),
  .task 0 .faultHook,
  .task 1 (.command refusedResult),
  .task 1 .applied]

theorem outcome_of_newest_added :
    ∃ older newest, (commandFinal refusedThenAdded).tasks = older ++ [newest] ∧
      ActionOutcome watchfulProcess (commandTrace refusedThenAdded)
        (commandFinal refusedThenAdded) older.length newest
        ((IpAddress.demo (addressManager watchfulRuntime)).interfaceAfter (fun _ => false)
          (executions (commandTrace refusedThenAdded))) ∧
      (IpAddress.demo (addressManager watchfulRuntime)).interfaceAfter (fun _ => false)
        (executions (commandTrace refusedThenAdded)) "10.0.0.10/24" = true := by
  have run : (commandSystem watchfulProcess).machine.Run
      (Spawner.start (watchfulProcess.startRun 0 0)) (commandTrace refusedThenAdded)
      (commandFinal refusedThenAdded) :=
    Machine.run_record _ (by decide +kernel)
  have two : (commandFinal refusedThenAdded).tasks.length = 2 := by decide +kernel
  have ended : ∀ task ∈ (commandFinal refusedThenAdded).tasks, task.phase = .finished := by
    decide +kernel
  have notOvertaken : NotOvertaken 1 (executions (commandTrace refusedThenAdded)) := by
    decide +kernel
  rcases List.eq_nil_or_concat' (commandFinal refusedThenAdded).tasks with
    empty | ⟨older, newest, tasks⟩
  · rw [empty] at two
    cases two
  · have one : older.length = 1 := by
      rw [tasks, List.length_append, List.length_singleton] at two
      omega
    have finished : newest.phase = .finished := by
      apply ended
      rw [tasks]
      exact List.mem_append_right _ (List.mem_singleton_self _)
    refine ⟨older, newest, tasks, ?_, by decide +kernel⟩
    exact outcome_of_newest watchfulProcess (.demo _) 0 0 _ _ run older newest tasks finished
      (one ▸ notOvertaken) _

end Gruezi.Ha
