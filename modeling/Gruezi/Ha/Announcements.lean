import Gruezi.Ha.FaultReports
import Gruezi.Lib.Script
import Gruezi.Lib.TaskRefinement
import Gruezi.Rust.Net

/-!
# Announcements

An address that has been added is announced to the neighbors, by a command of its
own.  What becomes of the command is only logged, so nothing else depends on
announcements: the control loop with the commands that `apply` really runs refines
the one that knows only of the `ip` commands.
-/

namespace Gruezi.Ha

open Rust Lib HaProcess

/-- `split` yields at least one piece. -/
def parseAddressIp (address : String) : Except Error IpAddr :=
  let ip := String.ofList (address.toList.takeWhile (· != '/'))
  match IpAddr.fromStr ip with
  | some ip => .ok ip
  | none =>
      .error (.context ("invalid IP address in " ++ address)
        (.msg "invalid IP address syntax"))

/-- `run_announcement_command`, once the command has ended. -/
def checkAnnouncement (command : String) : CommandResult → Except Error Unit
  | .error error =>
      .error (.context ("failed to execute announcement command " ++ command) (.io error))
  | .ok output =>
      if output.success then .ok ()
      else
        .error (.msg ("announcement command " ++ command ++ " failed: " ++
          fromUtf8Lossy output.stderr))

section Announce

variable {m : Type → Type} [Monad m] (execute : Command → m CommandResult)

def runAnnouncementCommand (command : String) (args : List String) : ExceptT Error m Unit := do
  if isBlank command then
    throw (.msg "announcement command path cannot be empty")
  else
    let result ← ExceptT.lift (execute { program := command, args })
    ExceptT.mk (pure (checkAnnouncement command result))

def announceAddress (arpingCommand ndsendCommand interface address : String) :
    ExceptT Error m Unit := do
  let ip ← ExceptT.mk (pure (parseAddressIp address))
  match ip with
  | .v4 ip =>
      runAnnouncementCommand execute arpingCommand
        ["-U", "-I", interface, "-c", "1", (IpAddr.v4 ip).toString]
  | .v6 ip =>
      runAnnouncementCommand execute ndsendCommand [(IpAddr.v6 ip).toString, interface]

/-- All programs are commands. -/
def Programs.ofCommands : Programs m where
  execute
  announceAddress arpingCommand ndsendCommand interface address :=
    (Ha.announceAddress execute arpingCommand ndsendCommand interface address).run

end Announce

/-! ## The script of an address action -/

namespace AddressManager

/-- The command that announces an address. -/
def announcementCommand (manager : AddressManager) : IpAddr → Command
  | .v4 ip => {
      program := manager.arpingCommand
      args := ["-U", "-I", manager.interface, "-c", "1", (IpAddr.v4 ip).toString] }
  | .v6 ip => {
      program := manager.ndsendCommand
      args := [(IpAddr.v6 ip).toString, manager.interface] }

/-- The announcement of a configured address, if there is one. -/
def announcement (manager : AddressManager) (address : String) : Option Command :=
  match parseAddressIp address with
  | .error _ => none
  | .ok ip =>
      if isBlank (manager.announcementCommand ip).program then none
      else some (manager.announcementCommand ip)

/-- What `apply` does about one address. -/
def addressScript (manager : AddressManager) (action : AddressAction) (address : String) :
    List (ScriptStep Command CommandResult Error) :=
  if isBlank manager.ipCommand then [.fail (.msg "ip command path cannot be empty")]
  else
    .ask (ipCommandLine manager.ipCommand manager.interface address action)
        (checkCommand manager.ipCommand address action) ::
      if action = .add then (manager.announcement address).toList.map .tell else []

def script (manager : AddressManager) (action : AddressAction) :
    List (ScriptStep Command CommandResult Error) :=
  manager.addresses.flatMap (manager.addressScript action)

section Performed

variable {m : Type → Type} [Monad m] [LawfulMonad m] {execute : Command → m CommandResult}
variable {manager : AddressManager} {action : AddressAction} {address : String}

theorem announceAddress_of_error {error : Error}
    (parsed : parseAddressIp address = .error error) (arping ndsend interface : String) :
    announceAddress execute arping ndsend interface address = throw error := by
  apply ExceptT.ext
  rw [announceAddress, parsed, ExceptT.run_bind, ExceptT.run_mk, pure_bind]
  rfl

theorem announceAddress_of_ok {ip : IpAddr} (parsed : parseAddressIp address = .ok ip) :
    announceAddress execute manager.arpingCommand manager.ndsendCommand manager.interface
        address =
      runAnnouncementCommand execute (manager.announcementCommand ip).program
        (manager.announcementCommand ip).args := by
  apply ExceptT.ext
  rw [announceAddress, parsed, ExceptT.run_bind, ExceptT.run_mk, pure_bind]
  cases ip <;> rfl

/-- What `announce_address` returns does not matter, so the command is told. -/
theorem lift_announceAddress :
    (do
      let _ ← ExceptT.lift ((Programs.ofCommands execute).announceAddress manager.arpingCommand
        manager.ndsendCommand manager.interface address)
      : ExceptT Error m Unit) =
    perform execute ((manager.announcement address).toList.map .tell) := by
  apply ExceptT.ext
  rw [Programs.ofCommands, announcement]
  cases parsed : parseAddressIp address with
  | error error => simp [announceAddress_of_error parsed, perform]
  | ok ip =>
      dsimp only
      rw [announceAddress_of_ok parsed, runAnnouncementCommand]
      cases isBlank (manager.announcementCommand ip).program with
      | true => simp [perform]
      | false =>
          simp [perform]
          rfl

theorem applyOne_ofCommands :
    manager.applyOne (.ofCommands execute) action address =
      perform execute (manager.addressScript action address) := by
  rw [applyOne, runAddressCommand, addressScript]
  cases isBlank manager.ipCommand with
  | true =>
      apply ExceptT.ext
      simp [perform]
  | false =>
      cases action with
      | add =>
          rw [if_neg Bool.false_ne_true, if_neg Bool.false_ne_true, if_pos rfl,
            lift_announceAddress]
          simp only [perform, bind_assoc]
          rfl
      | remove =>
          apply ExceptT.ext
          simp [perform, Programs.ofCommands]

/-- `apply` performs the script. -/
theorem apply_ofCommands :
    manager.apply (.ofCommands execute) action = perform execute (manager.script action) := by
  rw [script, ← forM_perform, apply]
  exact congrArg (forM manager.addresses) (funext fun address => applyOne_ofCommands)

theorem untold_addressScript (notBlank : isBlank manager.ipCommand = false) :
    untold (manager.addressScript action address) =
      [.ask (ipCommandLine manager.ipCommand manager.interface address action)
        (checkCommand manager.ipCommand address action)] := by
  rw [addressScript, if_neg (by rw [notBlank]; decide), untold]
  cases action with
  | remove => rfl
  | add =>
      rw [if_pos rfl]
      cases manager.announcement address <;> rfl

theorem applyOne_ofExecute :
    manager.applyOne (.ofExecute execute) action address =
      perform execute (untold (manager.addressScript action address)) := by
  apply ExceptT.ext
  cases blank : isBlank manager.ipCommand with
  | true =>
      rw [run_applyOne_of_blank _ _ _ blank, addressScript, if_pos blank]
      simp [perform, untold]
  | false =>
      rw [run_applyOne _ _ _ blank, untold_addressScript blank, perform]
      simp [perform]

/-- Where nothing depends on announcements, the rest of the script is performed. -/
theorem apply_ofExecute :
    manager.apply (.ofExecute execute) action =
      perform execute (untold (manager.script action)) := by
  rw [script, untold_flatMap, ← forM_perform, apply]
  exact congrArg (forM manager.addresses) (funext fun address => applyOne_ofExecute)

end Performed

theorem ask_mem_script {manager : AddressManager} {action : AddressAction} {command : Command}
    {judge : CommandResult → Except Error Unit}
    (member : .ask command judge ∈ manager.script action) :
    ∃ address ∈ manager.addresses,
      command = ipCommandLine manager.ipCommand manager.interface address action ∧
      judge = checkCommand manager.ipCommand address action := by
  rcases List.mem_flatMap.mp member with ⟨address, configured, inScript⟩
  rw [addressScript] at inScript
  split at inScript
  · simp at inScript
  · cases action with
    | add =>
        simp at inScript
        exact ⟨address, configured, inScript⟩
    | remove =>
        simp at inScript
        exact ⟨address, configured, inScript⟩

/-- Without an `ip` command nothing is run. -/
theorem script_of_blank {manager : AddressManager} (blank : isBlank manager.ipCommand = true)
    (action : AddressAction) :
    manager.script action =
      manager.addresses.map fun _ => .fail (.msg "ip command path cannot be empty") := by
  have fails : manager.addressScript action =
      fun _ => [.fail (.msg "ip command path cannot be empty")] := by
    funext address
    rw [addressScript, if_pos blank]
  rw [script, fails, ← List.map_eq_flatMap]

theorem blank_of_fail_mem_script {manager : AddressManager} {action : AddressAction}
    {error : Error} (member : .fail error ∈ manager.script action) :
    isBlank manager.ipCommand = true ∧ error = .msg "ip command path cannot be empty" := by
  rcases List.mem_flatMap.mp member with ⟨address, -, inScript⟩
  rw [addressScript] at inScript
  split at inScript
  · next blank =>
      cases List.mem_singleton.mp inScript
      exact ⟨blank, rfl⟩
  · cases action <;> simp at inScript

/-- `apply` on the results its commands have had so far: its own with those it has not
needed, or the command it runs next. -/
def applyWith (manager : AddressManager) (action : AddressAction)
    (results : List CommandResult) : Except Command (Except Error Unit × List CommandResult) :=
  (manager.apply (.ofCommands nextAnswer) action).run.run results

variable {manager : AddressManager} {action : AddressAction} {results : List CommandResult}

theorem applyWith_eq : manager.applyWith action results =
    answered (manager.script action) results := by
  rw [applyWith, apply_ofCommands]
  rfl

theorem applyTo_eq : manager.applyTo action results =
    (answered (untold (manager.script action)) results).toOption := by
  rw [applyTo, apply_ofExecute, run_perform_nextReply]

end AddressManager

/-! ## The loop with all commands -/

inductive CommandEvent where
  | executed (command : Command) (result : CommandResult)
  | action (event : ActionEvent)
  deriving DecidableEq

/-- What an address action does but for running its commands. -/
def CommandEvent.action? : CommandEvent → Option ActionEvent
  | executed _ _ => none
  | action event => some event

/-- An address action, with all commands that `apply` runs. -/
def ActionTask.runCommands (task : ActionTask) :
    ActionInput → Option (ActionTask × List CommandEvent)
  | .command result =>
      if task.phase = .applying then
        match task.manager.applyWith task.action task.results with
        | .error command =>
            some ({ task with results := task.results ++ [result] },
              [.executed command result])
        | .ok _ => none
      else none
  | .applied =>
      if task.phase = .applying then
        match task.manager.applyWith task.action task.results with
        | .error _ => none
        | .ok (result, _) =>
            some ({ task with phase := task.caller.afterApply result },
              [.action (.applied result)])
      else none
  | .faultHook =>
      match task.phase with
      | .reporting hooks context =>
          some ({ task with phase := .finished }, [.action (.faultHook hooks context)])
      | .applying | .finished => none

def ActionTask.commandMachine : Machine ActionTask ActionInput CommandEvent where
  step := ActionTask.runCommands

/-- The loop and its address actions, with all commands they run. -/
def commandSystem (process : HaProcess) :
    Spawner RunState RunInput Effect ActionTask ActionInput CommandEvent where
  main := process.runWithStatus
  task := ActionTask.commandMachine
  starts := actionTask
  ready := (addressSystem process).ready

abbrev CommandTransition :=
  Transition SystemState (SpawningInput RunInput ActionInput)
    (SpawningOutput Effect CommandEvent)

namespace ActionTask

/-- `apply` waits for an announcement. -/
def announcing (task : ActionTask) : Bool :=
  telling (task.manager.script task.action) task.results

/-- The task as it is for one who does not know of announcements. -/
def withoutAnnouncements (task : ActionTask) : ActionTask :=
  { task with results := judgedReplies (task.manager.script task.action) task.results }

/-- The steps of an address action with all its commands. -/
inductive Runs (task : ActionTask) :
    ActionInput → ActionTask → List CommandEvent → Prop where
  | command {result : CommandResult} {command : Command} :
      task.phase = .applying →
      answered (task.manager.script task.action) task.results = .error command →
      Runs task (.command result) { task with results := task.results ++ [result] }
        [.executed command result]
  | applied {result : Except Error Unit} {left : List CommandResult} :
      task.phase = .applying →
      answered (task.manager.script task.action) task.results = .ok (result, left) →
      Runs task .applied { task with phase := task.caller.afterApply result }
        [.action (.applied result)]
  | faultHook {hooks : HaHooks} {context : HookContext} :
      task.phase = .reporting hooks context →
      Runs task .faultHook { task with phase := .finished }
        [.action (.faultHook hooks context)]

variable {task final : ActionTask} {input : ActionInput} {events : List CommandEvent}

theorem runs_of_step (stepped : task.runCommands input = some (final, events)) :
    Runs task input final events := by
  cases input with
  | command result =>
      rw [runCommands, AddressManager.applyWith_eq] at stepped
      split at stepped
      · next applying =>
          cases asks : answered (task.manager.script task.action) task.results with
          | error command =>
              rw [asks] at stepped
              cases stepped
              exact .command applying asks
          | ok returned =>
              rw [asks] at stepped
              cases stepped
      · cases stepped
  | applied =>
      rw [runCommands, AddressManager.applyWith_eq] at stepped
      split at stepped
      · next applying =>
          cases returned : answered (task.manager.script task.action) task.results with
          | error command =>
              rw [returned] at stepped
              cases stepped
          | ok result =>
              rw [returned] at stepped
              cases stepped
              exact .applied applying returned
      · cases stepped
  | faultHook =>
      rw [runCommands] at stepped
      cases reporting : task.phase with
      | applying | finished =>
          rw [reporting] at stepped
          cases stepped
      | reporting hooks context =>
          rw [reporting] at stepped
          cases stepped
          exact .faultHook reporting

/-! ## Announcements are not observed -/

theorem fresh_of_actionTask {effect : Effect} {task : ActionTask}
    (starts : actionTask effect = some task) :
    task.results = [] ∧ task.phase = .applying := by
  cases effect with
  | spawnAddressAction | applyAddresses =>
      cases starts
      exact ⟨rfl, rfl⟩
  | spawnHook | runHook | sendTo | publish => cases starts

/-- An action that has not run a command has not announced anything. -/
theorem withoutAnnouncements_of_actionTask {effect : Effect} {task : ActionTask}
    (starts : actionTask effect = some task) : task.withoutAnnouncements = task := by
  have fresh := (fresh_of_actionTask starts).1
  rw [withoutAnnouncements, fresh, judgedReplies_nil, ← fresh]

/-- The result of an announcement changes nothing. -/
theorem withoutAnnouncements_of_announcing (announces : task.announcing = true)
    (result : CommandResult) :
    { task with results := task.results ++ [result] }.withoutAnnouncements =
      task.withoutAnnouncements := by
  rw [withoutAnnouncements, judgedReplies_of_telling announces]
  rfl

/-- A step that is not an announcement is one of the action without announcements. -/
theorem Runs.withoutAnnouncements (runs : Runs task input final events)
    (observed : ∀ result, input = .command result → task.announcing = false) :
    task.withoutAnnouncements.step input =
      some (final.withoutAnnouncements, events.filterMap CommandEvent.action?) := by
  cases runs with
  | @command result command applying asks =>
      rcases answered_untold_of_asking asks (observed result rfl) with ⟨asksSame, longer⟩
      have waits : task.withoutAnnouncements.phase = .applying ∧
          task.withoutAnnouncements.manager.applyTo task.withoutAnnouncements.action
            task.withoutAnnouncements.results = none := by
        refine ⟨applying, ?_⟩
        rw [AddressManager.applyTo_eq]
        exact congrArg Except.toOption asksSame
      rw [step, if_pos waits]
      refine congrArg (fun results => some ({ task with results }, [])) ?_
      exact (longer result).symm
  | @applied result left applying returned =>
      rcases answered_untold_of_ended returned with ⟨others, returnedSame⟩
      have returns : task.withoutAnnouncements.manager.applyTo
          task.withoutAnnouncements.action task.withoutAnnouncements.results =
            some (result, others) := by
        rw [AddressManager.applyTo_eq]
        exact congrArg Except.toOption returnedSame
      have stillApplying : task.withoutAnnouncements.phase = .applying := applying
      rw [step, if_pos stillApplying, returns]
      rfl
  | @faultHook hooks context reporting =>
      have stillReporting : task.withoutAnnouncements.phase = .reporting hooks context :=
        reporting
      rw [step, stillReporting]
      rfl

/-- An announcement does nothing else. -/
theorem Runs.of_announcing (runs : Runs task input final events) {result : CommandResult}
    (isCommand : input = .command result) (announces : task.announcing = true) :
    final.withoutAnnouncements = task.withoutAnnouncements ∧
      events.filterMap CommandEvent.action? = [] := by
  cases runs with
  | command => exact ⟨withoutAnnouncements_of_announcing announces _, rfl⟩
  | applied | faultHook => cases isCommand

end ActionTask

/-- The address actions as they are for one who does not know of announcements. -/
def announcementView (process : HaProcess) :
    TaskView (commandSystem process) (addressSystem process) where
  seen := ActionTask.withoutAnnouncements
  hidden task input :=
    match input with
    | .command _ => task.announcing
    | .applied | .faultHook => false
  visible := CommandEvent.action?
  main_eq := rfl
  starts effect := by
    change actionTask effect = (actionTask effect).map _
    cases starts : actionTask effect with
    | none => rfl
    | some task =>
        rw [Option.map_some, ActionTask.withoutAnnouncements_of_actionTask starts]
  ready tasks input := by
    cases input with
    | addressesRemoved =>
        change (tasks.map _).all _ = tasks.all _
        rw [List.all_map]
        rfl
    | event | shutdown | beginCleanup | faultHookReturned => rfl
  hides part taken isHidden := by
    have runs := ActionTask.runs_of_step taken
    cases input : part.input with
    | command result =>
        rw [input] at isHidden
        exact runs.of_announcing input isHidden
    | applied | faultHook =>
        rw [input] at isHidden
        cases isHidden
  follows part taken isSeen := by
    apply (ActionTask.runs_of_step taken).withoutAnnouncements
    intro result input
    rwa [input] at isSeen

/-- The control loop with the commands it really runs behaves as one that knows only of
the `ip` commands: its other inputs lead to the same outputs and the same state. -/
theorem refines_addressSystem (process : HaProcess) (startupAt scheduledAt : Int)
    (trace : List CommandTransition) (final : SystemState)
    (run : (commandSystem process).machine.Run
      (Spawner.start (process.startRun startupAt scheduledAt)) trace final) :
    ∃ followed, (announcementView process).observer.Refines (addressSystem process).machine
      trace (Spawner.start (process.startRun startupAt scheduledAt))
      ((announcementView process).state final) followed :=
  (announcementView process).refines_of_run run

/-! ## An announcement that fails -/

/-- A node without a peer becomes active, and its announcement is not permitted. -/
def announcementRefused : List (SpawningInput RunInput ActionInput) := [
  .main (.event (.refresh 0)),
  .main (.event (.send (.ok ()) 1000000000 1000000000)),
  .main (.event (.refresh 4000000000)),
  .task 1 (.command removedResult),
  .task 1 (.command refusedResult),
  .task 1 .applied]

def commandTrace (inputs : List (SpawningInput RunInput ActionInput)) :
    List CommandTransition :=
  (commandSystem watchfulProcess).machine.record
    (Spawner.start (watchfulProcess.startRun 0 0)) inputs

def commandFinal (inputs : List (SpawningInput RunInput ActionInput)) : SystemState :=
  Machine.finalState (Spawner.start (watchfulProcess.startRun 0 0)) (commandTrace inputs)

theorem run_announcementRefused :
    (commandSystem watchfulProcess).machine.Run
      (Spawner.start (watchfulProcess.startRun 0 0)) (commandTrace announcementRefused)
      (commandFinal announcementRefused) :=
  Machine.run_record _ (by decide +kernel)

theorem refines_addressSystem_refused :
    (∃ followed, (announcementView watchfulProcess).observer.Refines
      (addressSystem watchfulProcess).machine (commandTrace announcementRefused)
      (Spawner.start (watchfulProcess.startRun 0 0))
      ((announcementView watchfulProcess).state (commandFinal announcementRefused))
      followed) ∧
      ((announcementView watchfulProcess).observer.inputs
        (commandTrace announcementRefused)).length = 5 :=
  ⟨refines_addressSystem watchfulProcess 0 0 _ _ run_announcementRefused, by decide +kernel⟩

/-! ## The commands that have been run -/

namespace CommandEvent

/-- A command that has ended, with its result. -/
def executed? : CommandEvent → Option (Command × CommandResult)
  | executed command result => some (command, result)
  | action _ => none

end CommandEvent

namespace ActionTask

/-- The commands of an address action, in the order they have been run. -/
def commands (taken : List (Transition ActionTask ActionInput CommandEvent)) :
    List (Command × CommandResult) :=
  (taken.flatMap (·.output)).filterMap CommandEvent.executed?

theorem commands_append_singleton
    (taken : List (Transition ActionTask ActionInput CommandEvent))
    (next : Transition ActionTask ActionInput CommandEvent) :
    commands (taken ++ [next]) =
      commands taken ++ next.output.filterMap CommandEvent.executed? := by
  simp only [commands, List.flatMap_append, List.flatMap_cons, List.flatMap_nil,
    List.append_nil, List.filterMap_append]

/-- The commands are those of the script, with the results that have come in. -/
structure RunsScript (taken : List (Transition ActionTask ActionInput CommandEvent))
    (task : ActionTask) : Prop where
  results : (commands taken).map Prod.snd = task.results
  logged : Logged (task.manager.script task.action) (commands taken)
  fed : task.phase = .applying →
    (∃ command, answered (task.manager.script task.action) task.results = .error command) ∨
      ∃ result, answered (task.manager.script task.action) task.results = .ok (result, [])
  returned : ∀ earlier ∈ taken, ∀ result, .action (.applied result) ∈ earlier.output →
    task.phase ≠ .applying ∧
      answered (task.manager.script task.action) task.results = .ok (result, [])

theorem runsScript_of_run {first final : ActionTask}
    {trace : List (Transition ActionTask ActionInput CommandEvent)}
    (fresh : first.results = []) (run : commandMachine.Run first trace final) :
    RunsScript trace final := by
  apply run.history_induction (motive := RunsScript)
  · refine ⟨?_, logged_nil, ?_, ?_⟩
    · rw [fresh]
      rfl
    · intro _
      rw [fresh]
      exact asks_or_ended _
    · intro earlier inTaken
      cases inTaken
  · rintro taken next - nextTaken - ⟨results, logged, fed, returned⟩
    have runs := runs_of_step nextTaken
    have commandsNext := commands_append_singleton taken next
    generalize next.before = task, next.input = input, next.after = after,
      outputEq : next.output = events at *
    cases runs with
    | @command result command applying asks =>
        have commandsNext : commands (taken ++ [next]) = commands taken ++ [(command, result)] :=
          commandsNext
        refine ⟨?_, ?_, fun _ => answered_next asks result, ?_⟩
        · rw [commandsNext, List.map_append, results]
          rfl
        · rw [commandsNext]
          rw [← results] at asks
          exact logged.concat asks result
        · intro earlier inTaken returnedBefore output
          rcases List.mem_append.mp inTaken with before | here
          · exact absurd applying (returned earlier before _ output).1
          · rw [List.mem_singleton.mp here, outputEq] at output
            cases List.mem_singleton.mp output
    | @applied result left applying ended =>
        have commandsNext : commands (taken ++ [next]) = commands taken :=
          commandsNext.trans (List.append_nil _)
        have notApplying := ActionCaller.afterApply_ne_applying task.caller result
        refine ⟨commandsNext ▸ results, commandsNext ▸ logged, ?_, ?_⟩
        · intro stillApplying
          exact absurd stillApplying notApplying
        · intro earlier inTaken returnedBefore output
          rcases List.mem_append.mp inTaken with before | here
          · exact absurd applying (returned earlier before _ output).1
          · rw [List.mem_singleton.mp here, outputEq] at output
            cases List.mem_singleton.mp output
            refine ⟨notApplying, ?_⟩
            rcases fed applying with ⟨command, asks⟩ | ⟨result, usedUp⟩
            · cases ended.symm.trans asks
            · cases ended.symm.trans usedUp
              exact usedUp
    | faultHook reporting =>
        have commandsNext : commands (taken ++ [next]) = commands taken :=
          commandsNext.trans (List.append_nil _)
        refine ⟨commandsNext ▸ results, commandsNext ▸ logged, ?_, ?_⟩
        · intro stillApplying
          cases stillApplying
        · intro earlier inTaken returnedBefore output
          rcases List.mem_append.mp inTaken with before | here
          · exact ⟨ActionPhase.noConfusion, (returned earlier before _ output).2⟩
          · rw [List.mem_singleton.mp here, outputEq] at output
            cases List.mem_singleton.mp output

end ActionTask

/-- The commands of one address action in a run. -/
def commandsOf (index : Nat) (trace : List CommandTransition) :
    List (Command × CommandResult) :=
  ActionTask.commands (trace.filterMap (Spawner.taskPart index))

section Run

variable {process : HaProcess} {startupAt scheduledAt : Int}
variable {trace : List CommandTransition} {final : SystemState} {index : Nat}
variable {task : ActionTask}

theorem runsScript_of_systemRun
    (run : (commandSystem process).machine.Run
      (Spawner.start (process.startRun startupAt scheduledAt)) trace final)
    (found : final.tasks[index]? = some task) :
    ActionTask.RunsScript (trace.filterMap (Spawner.taskPart index)) task := by
  rcases (Spawner.follows_of_run run).ran index task found with ⟨first, isFirst, ran⟩
  rcases List.mem_filterMap.mp (List.mem_of_getElem? isFirst) with ⟨effect, _, starts⟩
  exact ActionTask.runsScript_of_run (ActionTask.fresh_of_actionTask starts).1 ran

/-- A return of `apply` in a run is one of the task. -/
theorem exists_taskPart_of_applied
    (run : (commandSystem process).machine.Run
      (Spawner.start (process.startRun startupAt scheduledAt)) trace final)
    {next : CommandTransition} (member : next ∈ trace) {event : CommandEvent}
    (output : .task index event ∈ next.output) :
    ∃ part ∈ trace.filterMap (Spawner.taskPart index), event ∈ part.output := by
  rcases List.append_of_mem member with ⟨taken, rest, rfl⟩
  rcases run.split_at with ⟨_, nextTaken, _⟩
  rcases Spawner.exists_taskPart nextTaken output with ⟨part, own, inPart, _⟩
  exact ⟨part, List.mem_filterMap.mpr ⟨next, member, own⟩, inPart⟩

end Run

/-- What an error of `apply` comes from: an `ip` command that has failed, or that there is
none to run. -/
inductive ErrorOrigin (manager : AddressManager) (action : AddressAction) (error : Error) :
    List (Command × CommandResult) → Prop where
  | blankIpCommand (blank : isBlank manager.ipCommand = true)
      (text : error = .msg "ip command path cannot be empty") :
      ErrorOrigin manager action error []
  | failedCommand {address : String} {earlier : List (Command × CommandResult)}
      {result : CommandResult} (configured : address ∈ manager.addresses)
      (failed : checkCommand manager.ipCommand address action result = .error error) :
      ErrorOrigin manager action error
        (earlier ++ [(ipCommandLine manager.ipCommand manager.interface address action, result)])

theorem errorOrigin_of_logged {manager : AddressManager} {action : AddressAction}
    {error : Error} {log : List (Command × CommandResult)}
    (logged : Logged (manager.script action) log)
    (returned : answered (manager.script action) (log.map Prod.snd) =
      .ok (.error error, [])) : ErrorOrigin manager action error log := by
  rcases logged.of_error returned with
    fails | ⟨command, judge, asks, earlier, result, rfl, judged⟩
  · rcases AddressManager.blank_of_fail_mem_script fails with ⟨blank, text⟩
    cases log with
    | nil => exact .blankIpCommand blank text
    | cons entry log =>
        rw [AddressManager.script_of_blank blank] at logged
        cases addresses : manager.addresses with
        | nil =>
            rw [addresses] at logged
            cases logged
        | cons address rest =>
            rw [addresses] at logged
            cases logged
  · rcases AddressManager.ask_mem_script asks with ⟨address, configured, rfl, rfl⟩
    exact .failedCommand configured judged

/-- An address action runs the commands of its script in turn, one after the other has
succeeded, and announces an address directly after it has been added.  It returns `Ok`
exactly when it has run all of them, and an error only if its last `ip` command has failed
or it has none to run: never because of an announcement. -/
theorem commands_follow_script (process : HaProcess) (startupAt scheduledAt : Int)
    (trace : List CommandTransition) (final : SystemState)
    (run : (commandSystem process).machine.Run
      (Spawner.start (process.startRun startupAt scheduledAt)) trace final)
    (index : Nat) (task : ActionTask) (found : final.tasks[index]? = some task) :
    Logged (task.manager.script task.action) (commandsOf index trace) ∧
      ∀ next ∈ trace, ∀ result, .task index (.action (.applied result)) ∈ next.output →
        (result.isOk = true ↔
          Lib.Completed (task.manager.script task.action) (commandsOf index trace)) ∧
        ∀ error, result = .error error →
          ErrorOrigin task.manager task.action error (commandsOf index trace) := by
  have follows := runsScript_of_systemRun run found
  refine ⟨follows.logged, ?_⟩
  intro next member result output
  rcases exists_taskPart_of_applied run member output with ⟨part, own, inPart⟩
  have ended := (follows.returned part own result inPart).2
  rw [← follows.results] at ended
  refine ⟨isOk_iff_completed follows.logged ended, ?_⟩
  rintro error rfl
  exact errorOrigin_of_logged follows.logged ended

theorem commands_follow_script_refused :
    ∃ task, (commandFinal announcementRefused).tasks[1]? = some task ∧
      Lib.Completed (task.manager.script task.action)
        (commandsOf 1 (commandTrace announcementRefused)) ∧
      (commandsOf 1 (commandTrace announcementRefused)).map Prod.fst = [
        { program := "ip", args := ["address", "add", "10.0.0.10/24", "dev", "eth0"] },
        { program := "arping", args := ["-U", "-I", "eth0", "-c", "1", "10.0.0.10"] }] := by
  obtain ⟨task, found⟩ : ∃ task, (commandFinal announcementRefused).tasks[1]? = some task :=
    Option.isSome_iff_exists.mp (by decide +kernel)
  obtain ⟨next, member, returned⟩ : ∃ next ∈ commandTrace announcementRefused,
      .task 1 (.action (.applied (.ok ()))) ∈ next.output := by decide +kernel
  have follows := commands_follow_script watchfulProcess 0 0 _ _ run_announcementRefused 1
    task found
  exact ⟨task, found, (follows.2 next member _ returned).1.mp rfl, by decide +kernel⟩

/-! ## The addresses that are announced -/

namespace AddressManager

variable {manager : AddressManager} {action : AddressAction} {address : String}
variable {ip : IpAddr} {command : Command} {log : List (Command × CommandResult)}
variable {result : CommandResult}

/-- The command says which address it announces. -/
theorem announcementCommand_injective (manager : AddressManager) :
    Function.Injective manager.announcementCommand := by
  intro first second same
  apply IpAddr.toString_injective
  have sameArgs := congrArg Command.args same
  cases first with
  | v4 ip =>
      cases second with
      | v4 other => simpa [announcementCommand] using sameArgs
      | v6 other => cases congrArg List.length sameArgs
  | v6 ip =>
      cases second with
      | v4 other => cases congrArg List.length sameArgs
      | v6 other => simpa [announcementCommand] using sameArgs

/-- An announcement is not an `ip` command, whatever the programs are. -/
theorem announcementCommand_ne (manager : AddressManager) (ip : IpAddr)
    (ipCommand interface address : String) (action : AddressAction) :
    manager.announcementCommand ip ≠ ipCommandLine ipCommand interface address action := by
  intro same
  have sameArgs := congrArg (·.args.length) same
  cases ip <;> cases sameArgs

theorem announcement_eq_some : manager.announcement address = some command ↔
    ∃ ip, parseAddressIp address = .ok ip ∧
      isBlank (manager.announcementCommand ip).program = false ∧
      manager.announcementCommand ip = command := by
  rw [announcement]
  cases parseAddressIp address with
  | error error => simp
  | ok ip => simp

/-- What is announced in the script of an address is told after its `ip` command. -/
theorem announced_of_logged
    (logged : Logged (if action = .add then (manager.announcement address).toList.map .tell
      else [] : List (ScriptStep Command CommandResult Error)) log)
    (member : (manager.announcementCommand ip, result) ∈ log) :
    action = .add ∧ parseAddressIp address = .ok ip ∧
      log = [(manager.announcementCommand ip, result)] := by
  cases log with
  | nil => cases member
  | cons entry log =>
      cases action with
      | remove => cases logged
      | add =>
          rw [if_pos rfl] at logged
          cases announced : manager.announcement address with
          | none =>
              rw [announced] at logged
              cases logged
          | some command =>
              rw [announced] at logged
              rcases announcement_eq_some.mp announced with ⟨other, parsed, _, isCommand⟩
              cases log with
              | cons => cases logged.2
              | nil =>
                  cases List.mem_singleton.mp member
                  have same := manager.announcementCommand_injective
                    (logged.1.trans isCommand.symm)
                  rw [same]
                  exact ⟨rfl, parsed, rfl⟩

/-- An address is announced directly after it has been added. -/
theorem added_of_logged (logged : Logged (manager.addressScript action address) log)
    (member : (manager.announcementCommand ip, result) ∈ log) :
    action = .add ∧ parseAddressIp address = .ok ip ∧
      ∃ added, succeeds .add added = true ∧
        log = [(ipCommandLine manager.ipCommand manager.interface address .add, added),
          (manager.announcementCommand ip, result)] := by
  rw [addressScript] at logged
  cases log with
  | nil => cases member
  | cons entry log =>
      split at logged
      · cases logged
      · rcases entry with ⟨asked, added⟩
        rcases logged with ⟨rfl, judged, logged⟩
        have inLog : (manager.announcementCommand ip, result) ∈ log := by
          rcases List.mem_cons.mp member with same | inLog
          · exact absurd (congrArg Prod.fst same) (announcementCommand_ne _ _ _ _ _ _)
          · exact inLog
        rcases announced_of_logged logged inLog with ⟨rfl, parsed, rfl⟩
        rcases judged with empty | judged
        · cases empty
        · rw [isOk_checkCommand] at judged
          exact ⟨rfl, parsed, added, judged, rfl⟩

/-- A completed addition has announced its address once. -/
theorem countP_of_completed (ip : IpAddr)
    (notBlank : isBlank (manager.announcementCommand ip).program = false) (address : String)
    (log : List (Command × CommandResult))
    (completed : Lib.Completed (manager.addressScript .add address) log) :
    log.countP (·.1 == manager.announcementCommand ip) =
      if (parseAddressIp address).toOption == some ip then 1 else 0 := by
  have notAdded : ∀ address, (ipCommandLine manager.ipCommand manager.interface address .add ==
      manager.announcementCommand ip) = false := by
    intro address
    exact beq_eq_false_iff_ne.mpr (announcementCommand_ne _ _ _ _ _ _).symm
  rw [addressScript, if_pos rfl] at completed
  split at completed
  · cases log <;> cases completed
  rcases log with _ | ⟨⟨asked, added⟩, told⟩
  · cases completed
  rcases completed with ⟨rfl, _, announced⟩
  rw [List.countP_cons_of_neg (by simp [notAdded])]
  rw [announcement] at announced
  cases parsed : parseAddressIp address with
  | error error =>
      rw [parsed] at announced
      cases told with
      | nil => rfl
      | cons entry rest => cases announced
  | ok other =>
      rw [parsed] at announced
      by_cases same : other = ip
      · subst same
        simp only [notBlank, Bool.false_eq_true, if_false, Option.toList_some, List.map_cons,
          List.map_nil] at announced
        rcases told with _ | ⟨⟨told, result⟩, rest⟩
        · cases announced
        · rcases announced with ⟨rfl, ended⟩
          cases rest with
          | nil => simp [Except.toOption]
          | cons entry rest => cases ended
      · have otherCommand : manager.announcementCommand other ≠ manager.announcementCommand ip :=
          fun equal => same (manager.announcementCommand_injective equal)
        have notChosen : ((Except.ok other : Except Error IpAddr).toOption == some ip) = false := by
          simp [Except.toOption, same]
        rw [notChosen, if_neg Bool.false_ne_true]
        cases blank : isBlank (manager.announcementCommand other).program with
        | true =>
            simp only [blank, if_true, Option.toList_none, List.map_nil] at announced
            cases told with
            | nil => rfl
            | cons entry rest => cases announced
        | false =>
            simp only [blank, Bool.false_eq_true, if_false, Option.toList_some, List.map_cons,
              List.map_nil] at announced
            rcases told with _ | ⟨⟨told, result⟩, rest⟩
            · cases announced
            · rcases announced with ⟨rfl, ended⟩
              cases rest with
              | nil => simp [otherCommand]
              | cons entry rest => cases ended

end AddressManager

/-- What an address action announces, each time, is an address it has added just before.
An addition that returns `Ok` has announced each of its addresses, as often as it is
configured. -/
theorem announces_added_addresses (process : HaProcess) (startupAt scheduledAt : Int)
    (trace : List CommandTransition) (final : SystemState)
    (run : (commandSystem process).machine.Run
      (Spawner.start (process.startRun startupAt scheduledAt)) trace final)
    (index : Nat) (task : ActionTask) (found : final.tasks[index]? = some task)
    (ip : IpAddr) :
    (∀ position result,
      (commandsOf index trace)[position]? = some (task.manager.announcementCommand ip, result) →
      task.action = .add ∧ ∃ address ∈ task.manager.addresses,
        parseAddressIp address = .ok ip ∧ ∃ before added, position = before + 1 ∧
          (commandsOf index trace)[before]? = some
            (ipCommandLine task.manager.ipCommand task.manager.interface address .add, added) ∧
          succeeds .add added = true) ∧
    (∀ next ∈ trace, .task index (.action (.applied (.ok ()))) ∈ next.output →
      task.action = .add → isBlank (task.manager.announcementCommand ip).program = false →
        (commandsOf index trace).countP (·.1 == task.manager.announcementCommand ip) =
          task.manager.addresses.countP
            fun address => (parseAddressIp address).toOption == some ip) := by
  have follows := runsScript_of_systemRun run found
  constructor
  · intro position result isThere
    rcases follows.logged.of_flatMap isThere with
      ⟨address, configured, done, part, later, place, split, placed, inPart, logged⟩
    rcases AddressManager.added_of_logged logged (List.mem_of_getElem? inPart) with
      ⟨isAdd, parsed, added, success, rfl⟩
    have second : place = 1 := by
      rcases place with _ | _ | place
      · exact absurd (congrArg Prod.fst (Option.some.inj inPart)).symm
          (AddressManager.announcementCommand_ne _ _ _ _ _ _)
      · rfl
      · cases inPart
    subst second
    refine ⟨isAdd, address, configured, parsed, done.length, added, placed, ?_, success⟩
    rw [commandsOf, split, List.append_assoc, List.getElem?_append_right le_rfl, Nat.sub_self]
    rfl
  · intro next member output isAdd notBlank
    rcases exists_taskPart_of_applied run member output with ⟨part, own, inPart⟩
    have ended := (follows.returned part own _ inPart).2
    rw [← follows.results] at ended
    have completed := (isOk_iff_completed follows.logged ended).mp rfl
    rw [isAdd] at completed
    exact completed.countP_of_flatMap
      (AddressManager.countP_of_completed ip notBlank)

/-- The address has been announced, although that is not permitted. -/
theorem announces_added_addresses_refused :
    ∃ task, (commandFinal announcementRefused).tasks[1]? = some task ∧
      (commandsOf 1 (commandTrace announcementRefused)).countP
        (·.1 == task.manager.announcementCommand (.v4 ⟨10, 0, 0, 10⟩)) = 1 := by
  let adds (task : ActionTask) : Bool :=
    task.action == .add && task.manager.addresses == ["10.0.0.10/24"] &&
      task.manager.arpingCommand == "arping"
  obtain ⟨task, found, isAddition⟩ :
      ∃ task, (commandFinal announcementRefused).tasks[1]? = some task ∧ adds task = true :=
    (Option.any_eq_true _ _).mp (by decide +kernel)
  obtain ⟨next, member, returned⟩ : ∃ next ∈ commandTrace announcementRefused,
      .task 1 (.action (.applied (.ok ()))) ∈ next.output := by decide +kernel
  simp only [adds, Bool.and_eq_true, beq_iff_eq] at isAddition
  have announces := announces_added_addresses watchfulProcess 0 0 _ _ run_announcementRefused
    1 task found (.v4 ⟨10, 0, 0, 10⟩)
  refine ⟨task, found, (announces.2 next member returned isAddition.1.1 ?_).trans ?_⟩
  · rw [AddressManager.announcementCommand, isAddition.2]
    exact (by decide : isBlank "arping" = false)
  · rw [isAddition.1.2]
    decide +kernel

end Gruezi.Ha
