import Gruezi.Ha.Overlap
import Gruezi.Ha.Presence

/-!
# One holder of the addresses

The two nodes of a link, each on a host of its own with the commands that its address
actions really run, in any interleaving of the nodes and the commands.  What is known of
the owner is so known of the interfaces: a node that never owns the addresses never puts
them on its interface, and that of an owner carries them once its newest action has ended.
-/

namespace Gruezi.Ha

open Rust Lib HaProcess

abbrev HostInput := SpawningInput RunInput ActionInput

abbrev HostOutput := SpawningOutput Effect CommandEvent

/-- The hosts of the two nodes of a link: the loop of each, with its address actions. -/
structure HostsState where
  sender : SystemState
  receiver : SystemState
  attempts : List Attempt
  time : Int

inductive HostsInput where
  | sender (input : HostInput)
  | receiver (input : HostInput)
  /-- The datagram of an attempt arrives. -/
  | deliver (index : Nat) (source : SocketAddr) (observedAt : Int)

inductive HostsOutput where
  | sender (output : HostOutput)
  | receiver (output : HostOutput)

abbrev HostsTransition := Transition HostsState HostsInput HostsOutput

/-- The link, without the address actions. -/
def HostsState.link (state : HostsState) : LinkState where
  sender := state.sender.main
  receiver := state.receiver.main
  attempts := state.attempts
  time := state.time

namespace HostsInput

/-- The step of the link, if it is not one of an address action. -/
def link? : HostsInput → Option LinkInput
  | sender (.main input) => some (.sender input)
  | receiver (.main input) => some (.receiver input)
  | deliver index source observedAt => some (.deliver index source observedAt)
  | sender (.task _ _) | receiver (.task _ _) => none

def sender? : HostsInput → Option HostInput
  | sender input => some input
  | receiver _ | deliver _ _ _ => none

def receiver? (state : HostsState) : HostsInput → Option HostInput
  | sender _ => none
  | receiver input => some input
  | deliver index source observedAt =>
      (Link.delivery state.link index source observedAt).map .main

end HostsInput

namespace HostsOutput

def sender? : HostsOutput → Option HostOutput
  | sender output => some output
  | receiver _ => none

def receiver? : HostsOutput → Option HostOutput
  | sender _ => none
  | receiver output => some output

end HostsOutput

namespace Link

variable (link : Link)

/-- The link after the step, which address actions leave as it is. -/
def stepLink (state : HostsState) (input : HostsInput) : Option LinkState :=
  match input.link? with
  | some linkInput => link.step state.link linkInput
  | none => some state.link

def stepHosts (state : HostsState) (input : HostsInput) :
    Option (HostsState × List HostsOutput) :=
  (link.stepLink state input).bind fun after =>
    match input.sender?, input.receiver? state with
    | some hostInput, _ =>
        ((commandSystem link.sender).step state.sender hostInput).map
          fun (sender, outputs) =>
            ({ state with sender, attempts := after.attempts, time := after.time },
              outputs.map .sender)
    | none, some hostInput =>
        ((commandSystem link.receiver).step state.receiver hostInput).map
          fun (receiver, outputs) =>
            ({ state with receiver, attempts := after.attempts, time := after.time },
              outputs.map .receiver)
    | none, none => none

def hosts : Machine HostsState HostsInput HostsOutput where
  step := link.stepHosts

/-- Both nodes freshly started. -/
def startHosts (senderAt receiverAt : Int × Int) (time : Int) : HostsState where
  sender := Spawner.start (link.sender.startRun senderAt.1 senderAt.2)
  receiver := Spawner.start (link.receiver.startRun receiverAt.1 receiverAt.2)
  attempts := []
  time

end Link

/-! ## The parts of a run -/

/-- The link, as a part of the hosts. -/
def linkPart : Part HostsState HostsInput HostsOutput LinkState LinkInput Empty where
  state := HostsState.link
  own next := next.input.link?.map fun input =>
    { before := next.before.link, input, after := next.after.link, output := [] }

/-- The host of the sender, as a part of both. -/
def senderPart : Part HostsState HostsInput HostsOutput SystemState HostInput HostOutput where
  state := HostsState.sender
  own next := next.input.sender?.map fun input =>
    { before := next.before.sender
      input
      after := next.after.sender
      output := next.output.filterMap HostsOutput.sender? }

def receiverPart : Part HostsState HostsInput HostsOutput SystemState HostInput HostOutput where
  state := HostsState.receiver
  own next := (next.input.receiver? next.before).map fun input =>
    { before := next.before.receiver
      input
      after := next.after.receiver
      output := next.output.filterMap HostsOutput.receiver? }

namespace Link

variable {link : Link} {next : HostsTransition} {state : HostsState} {input : HostsInput}

/-- The steps of the hosts. -/
inductive HostsMoves (link : Link) (next : HostsTransition) : Prop where
  | sender {hostInput : HostInput} {after : SystemState} {output : List HostOutput} :
      next.input = .sender hostInput →
      (commandSystem link.sender).step next.before.sender hostInput = some (after, output) →
      next.after.sender = after →
      next.after.receiver = next.before.receiver →
      next.output = output.map .sender →
      HostsMoves link next
  | receiver {hostInput : HostInput} {after : SystemState} {output : List HostOutput} :
      next.input.receiver? next.before = some hostInput →
      next.input.sender? = none →
      (commandSystem link.receiver).step next.before.receiver hostInput =
        some (after, output) →
      next.after.receiver = after →
      next.after.sender = next.before.sender →
      next.output = output.map .receiver →
      HostsMoves link next

theorem hostsMoves_of_takes (taken : link.hosts.Takes next) :
    link.HostsMoves next ∧ ∃ after, link.stepLink next.before next.input = some after ∧
      next.after.attempts = after.attempts ∧ next.after.time = after.time := by
  simp only [Machine.Takes, hosts, stepHosts] at taken
  rcases Option.bind_eq_some_iff.mp taken with ⟨after, stepped, moved⟩
  split at moved
  · next hostInput isSender =>
      rcases Option.map_eq_some_iff.mp moved with ⟨⟨sender, output⟩, hostStepped, equal⟩
      rw [Prod.mk.injEq] at equal
      rcases equal with ⟨afterEq, outputEq⟩
      have inputEq : next.input = .sender hostInput := by
        cases given : next.input with
        | sender other =>
            rw [given] at isSender
            cases isSender
            rfl
        | receiver | deliver =>
            rw [given] at isSender
            cases isSender
      rw [← afterEq]
      exact ⟨.sender inputEq hostStepped (by rw [← afterEq]) (by rw [← afterEq]) outputEq.symm,
        after, stepped, rfl, rfl⟩
  · next hostInput notSender isReceiver =>
      rcases Option.map_eq_some_iff.mp moved with ⟨⟨receiver, output⟩, hostStepped, equal⟩
      rw [Prod.mk.injEq] at equal
      rcases equal with ⟨afterEq, outputEq⟩
      rw [← afterEq]
      exact ⟨.receiver isReceiver notSender hostStepped (by rw [← afterEq]) (by rw [← afterEq])
        outputEq.symm, after, stepped, rfl, rfl⟩
  · cases moved

/-- The loop's part of a step of a host. -/
theorem stepRun_of_main {process : HaProcess} {before after : SystemState}
    {runInput : RunInput} {output : List HostOutput}
    (stepped : (commandSystem process).step before (.main runInput) = some (after, output)) :
    ∃ effects, process.stepRun before.main runInput = some (after.main, effects) := by
  have taken : (commandSystem process).machine.Takes ⟨before, .main runInput, after, output⟩ :=
    stepped
  cases Spawner.moves_of_takes taken with
  | main part input _ partTaken partBefore afterEq _ =>
      cases input
      have mainEq : after.main = part.after := congrArg Spawning.main afterEq
      have beforeEq : part.before = before.main := partBefore
      rw [mainEq, ← beforeEq]
      exact ⟨part.output, partTaken⟩
  | task index part input => cases input

/-- An address action leaves the loop as it is. -/
theorem main_of_task {process : HaProcess} {before after : SystemState} {index : Nat}
    {actionInput : ActionInput} {output : List HostOutput}
    (stepped : (commandSystem process).step before (.task index actionInput) =
      some (after, output)) : after.main = before.main := by
  have taken : (commandSystem process).machine.Takes
      ⟨before, .task index actionInput, after, output⟩ := stepped
  cases Spawner.moves_of_takes taken with
  | main part input => cases input
  | task acting part _ _ _ afterEq =>
      have mainEq : after.main = _ := congrArg Spawning.main afterEq
      exact mainEq

/-- A step of the sender's loop is one of the link. -/
theorem loops_of_stepSender {before : HostsState} {after : LinkState} {host : SystemState}
    {runInput : RunInput} {output : List HostOutput}
    (stepped : link.stepSender before.link runInput = some after)
    (hostStepped : (commandSystem link.sender).step before.sender (.main runInput) =
      some (host, output)) :
    after.sender = host.main ∧ after.receiver = before.receiver.main := by
  rcases stepSender_eq_some stepped with ⟨_, _, receiver, _, taken, _⟩
  rcases stepRun_of_main hostStepped with ⟨_, alsoTaken⟩
  have same := Option.some_inj.mp (taken.symm.trans alsoTaken)
  exact ⟨congrArg Prod.fst same, receiver⟩

theorem loops_of_stepReceiver {before : HostsState} {after : LinkState} {host : SystemState}
    {runInput : RunInput} {output : List HostOutput}
    (stepped : link.stepReceiver before.link runInput = some after)
    (hostStepped : (commandSystem link.receiver).step before.receiver (.main runInput) =
      some (host, output)) :
    after.sender = before.sender.main ∧ after.receiver = host.main := by
  rcases stepReceiver_eq_some stepped with ⟨_, _, sender, _, _, taken⟩
  rcases stepRun_of_main hostStepped with ⟨_, alsoTaken⟩
  have same := Option.some_inj.mp (taken.symm.trans alsoTaken)
  exact ⟨sender, congrArg Prod.fst same⟩

/-- The link is where its own step has led it. -/
theorem link_of_takes (taken : link.hosts.Takes next) :
    link.stepLink next.before next.input = some next.after.link := by
  rcases hostsMoves_of_takes taken with ⟨moves, after, stepped, attempts, time⟩
  rw [stepped, HostsState.link, attempts, time]
  suffices loops : after.sender = next.after.sender.main ∧
      after.receiver = next.after.receiver.main by rw [← loops.1, ← loops.2]
  cases moves with
  | @sender hostInput _ _ isSender hostStepped sender receiver _ =>
      rw [isSender] at stepped
      rw [sender, receiver]
      cases hostInput with
      | main runInput => exact loops_of_stepSender stepped hostStepped
      | task index actionInput =>
          cases stepped
          exact ⟨(main_of_task hostStepped).symm, rfl⟩
  | @receiver hostInput _ _ isReceiver notSender hostStepped receiver sender _ =>
      rw [sender, receiver]
      cases input : next.input with
      | sender =>
          rw [input] at notSender
          cases notSender
      | receiver =>
          rw [input] at stepped isReceiver
          cases isReceiver
          cases hostInput with
          | main runInput => exact loops_of_stepReceiver stepped hostStepped
          | task index actionInput =>
              cases stepped
              exact ⟨rfl, (main_of_task hostStepped).symm⟩
      | deliver index source observedAt =>
          rw [input] at stepped isReceiver
          rcases Option.map_eq_some_iff.mp isReceiver with ⟨runInput, arrives, rfl⟩
          rcases Option.bind_eq_some_iff.mp stepped with ⟨_, alsoArrives, received⟩
          cases arrives.symm.trans alsoArrives
          exact loops_of_stepReceiver received hostStepped

theorem linkPart_moves (taken : link.hosts.Takes next) :
    linkPart.Moves link.machine next := by
  have stepped := link_of_takes taken
  simp only [Part.Moves, linkPart]
  cases isLink : next.input.link? with
  | none =>
      simp only [stepLink, isLink, Option.some.injEq] at stepped
      exact stepped.symm
  | some linkInput =>
      simp only [stepLink, isLink] at stepped
      simp only [Option.map_some, Machine.Takes, machine, stepped, and_self]

theorem senderPart_moves (taken : link.hosts.Takes next) :
    senderPart.Moves (commandSystem link.sender).machine next := by
  simp only [Part.Moves, senderPart]
  cases (hostsMoves_of_takes taken).1 with
  | sender isSender hostStepped sender _ output =>
      rw [isSender]
      refine ⟨?_, rfl, rfl⟩
      simp only [Machine.Takes, Spawner.machine, hostStepped, sender, output,
        List.filterMap_map]
      exact congrArg (fun output => some (_, output)) List.filterMap_some.symm
  | receiver _ notSender _ _ sender _ =>
      rw [notSender]
      exact sender

theorem receiverPart_moves (taken : link.hosts.Takes next) :
    receiverPart.Moves (commandSystem link.receiver).machine next := by
  simp only [Part.Moves, receiverPart]
  cases (hostsMoves_of_takes taken).1 with
  | sender isSender _ _ receiver _ =>
      rw [isSender]
      exact receiver
  | receiver isReceiver _ hostStepped receiver _ output =>
      rw [isReceiver]
      refine ⟨?_, rfl, rfl⟩
      simp only [Machine.Takes, Spawner.machine, hostStepped, receiver, output,
        List.filterMap_map]
      exact congrArg (fun output => some (_, output)) List.filterMap_some.symm

end Link

/-! ## A host whose node never owns the addresses -/

section Host

variable {process : HaProcess} {startupAt scheduledAt : Int}
variable {trace : List CommandTransition} {final : SystemState}
variable {address : String} {interface : Interface}

/-- All its address actions are removals. -/
theorem action_of_waits
    (run : (commandSystem process).machine.Run
      (Spawner.start (process.startRun startupAt scheduledAt)) trace final)
    (waits : ∀ part ∈ trace.filterMap Spawner.mainPart,
      part.after.node.loopState.state ≠ .active) :
    ∀ task ∈ final.tasks, task.action = .remove := by
  apply run.invariant (motive := fun state => ∀ task ∈ state.tasks, task.action = .remove)
  · intro task member
    cases member
  · intro next inTrace nextTaken removes
    cases Spawner.moves_of_takes nextTaken with
    | main part input _ partTaken before after output =>
        have isMain := Spawner.mainPart_of_main input before (congrArg Spawning.main after) output
        have notActive := waits part (List.mem_filterMap.mpr ⟨next, inTrace, isMain⟩)
        rw [after]
        intro task member
        rcases List.mem_append.mp member with old | new
        · exact removes task old
        · dsimp only [commandSystem] at new
          rcases newest_of_steps (steps_of_takes partTaken) with
            ⟨nothing, _⟩ | ⟨started, single, _, asked⟩
          · rw [nothing] at new
            cases new
          · rw [single, List.mem_singleton] at new
            rw [wanted, beq_eq_false_iff_ne.mpr notActive, Bool.false_and, ← new] at asked
            cases action : task.action with
            | remove => rfl
            | add =>
                rw [action] at asked
                cases asked
    | task acting part _ found partTaken after _ =>
        rw [after]
        intro task member
        rcases List.mem_or_eq_of_mem_set member with old | rfl
        · exact removes task old
        · rw [(ActionTask.runs_of_step partTaken).unchanged.2.1]
          exact removes _ (List.mem_of_getElem? found)

/-- No address comes on its interface. -/
theorem absent_of_waits (ip : IpAddress (addressManager process.runtime))
    (run : (commandSystem process).machine.Run
      (Spawner.start (process.startRun startupAt scheduledAt)) trace final)
    (waits : ∀ part ∈ trace.filterMap Spawner.mainPart,
      part.after.node.loopState.state ≠ .active) (absent : interface address = false) :
    ip.interfaceAfter interface (executions trace) address = false := by
  have kept : ∀ execution ∈ executions trace, execution.command.address? = some address →
      execution.command.change? = some (address, .remove) := by
    intro execution member isAddress
    rcases (issues_of_execution run member).2 with ⟨task, inTasks, changes⟩
    rw [changes address isAddress, action_of_waits run waits task inTasks]
  exact ip.interfaceAfter_of_kept (fun execution member => (issues_of_execution run member).1)
    kept absent

end Host

/-! ## One holder -/

/-- The address action has returned an error. -/
def ActionFails (index : Nat) (trace : List CommandTransition) : Prop :=
  ∃ applied ∈ trace, ∃ error,
    .task index (.action (.applied (.error error))) ∈ applied.output

/-- Its fault hook has been run. -/
def ActionReports (index : Nat) (trace : List CommandTransition) : Prop :=
  ∃ reported ∈ trace, ∃ hooks context,
    .task index (.action (.faultHook hooks context)) ∈ reported.output

namespace Link

/-- At no moment has the receiver put an address on its interface.  The sender, once it
has settled and its newest action has ended, has put all of its own there, or has
reported that it could not. -/
structure OneHolder (link : Link) (senderIp : IpAddress (addressManager link.sender.runtime))
    (receiverIp : IpAddress (addressManager link.receiver.runtime)) (senderAt : Int × Int)
    (trace : List HostsTransition) (final : HostsState) : Prop where
  absent : ∀ taken rest, trace = taken ++ rest → ∀ (interface : Interface) (address : String),
    interface address = false →
      receiverIp.interfaceAfter interface (executions (taken.filterMap receiverPart.own))
        address = false
  present : final.sender.main.phase.Looping → link.settledAt senderAt < final.time →
    ∀ older newest, final.sender.tasks = older ++ [newest] → newest.phase = .finished →
    NotOvertaken older.length (executions (trace.filterMap senderPart.own)) →
    ∀ interface : Interface,
      (∀ address ∈ link.sender.runtime.addresses,
        senderIp.interfaceAfter interface (executions (trace.filterMap senderPart.own))
          address = true) ∨
        ActionFails older.length (trace.filterMap senderPart.own) ∧
          ActionReports older.length (trace.filterMap senderPart.own)

/-- Once the sender has owned the addresses for a window and the receiver has refreshed
its state, the newest action of the receiver takes them off its interface, or fails. -/
def ReleasedInTime (link : Link) (ip : IpAddress (addressManager link.receiver.runtime))
    (since : Int) (trace : List HostsTransition) (final : HostsState) : Prop :=
  (∃ next ∈ trace, ∃ now, next.input = .receiver (.main (.event (.refresh now))) ∧
    since + link.receiver.runtime.window ≤ next.after.time) →
  ∀ older newest, final.receiver.tasks = older ++ [newest] → newest.phase = .finished →
  NotOvertaken older.length (executions (trace.filterMap receiverPart.own)) →
  ∀ interface : Interface,
    (∀ address ∈ link.receiver.runtime.addresses,
      ip.interfaceAfter interface (executions (trace.filterMap receiverPart.own)) address =
        false) ∨
      ActionFails older.length (trace.filterMap receiverPart.own)

section Run

variable {link : Link} {senderAt receiverAt : Int × Int} {start since : Int}
variable {trace taken : List HostsTransition} {final : HostsState}
variable {steps : List (Transition LinkState LinkInput Empty)} {state : LinkState}

/-- A transition of the receiver's loop is one of the link. -/
theorem mem_linkPart_of_receiver {part : Transition RunState RunInput Effect}
    (member : part ∈ (trace.filterMap receiverPart.own).filterMap Spawner.mainPart) :
    ∃ next ∈ trace.filterMap linkPart.own, next.after.receiver = part.after := by
  rcases List.mem_filterMap.mp member with ⟨host, inHost, isMain⟩
  rcases List.mem_filterMap.mp inHost with ⟨next, inTrace, isReceiver⟩
  rcases Option.map_eq_some_iff.mp isReceiver with ⟨hostInput, received, rfl⟩
  cases hostInput with
  | task => cases isMain
  | main runInput =>
      cases isMain
      have isLink : ∃ linkInput, next.input.link? = some linkInput := by
        cases input : next.input with
        | sender =>
            rw [input] at received
            cases received
        | receiver =>
            rw [input] at received
            cases received
            exact ⟨_, rfl⟩
        | deliver => exact ⟨_, rfl⟩
      rcases isLink with ⟨linkInput, isLink⟩
      refine ⟨⟨next.before.link, linkInput, next.after.link, []⟩,
        List.mem_filterMap.mpr ⟨next, inTrace, ?_⟩, rfl⟩
      simp only [linkPart, isLink, Option.map_some]

theorem link_of_run (run : link.hosts.Run (link.startHosts senderAt receiverAt start) trace final) :
    link.machine.Run (link.start senderAt receiverAt start) (trace.filterMap linkPart.own)
      final.link :=
  linkPart.run_of_run run fun _ => linkPart_moves

theorem sender_of_run
    (run : link.hosts.Run (link.startHosts senderAt receiverAt start) trace final) :
    (commandSystem link.sender).machine.Run
      (Spawner.start (link.sender.startRun senderAt.1 senderAt.2))
      (trace.filterMap senderPart.own) final.sender :=
  senderPart.run_of_run run fun _ => senderPart_moves

theorem receiver_of_run
    (run : link.hosts.Run (link.startHosts senderAt receiverAt start) trace final) :
    (commandSystem link.receiver).machine.Run
      (Spawner.start (link.receiver.startRun receiverAt.1 receiverAt.2))
      (trace.filterMap receiverPart.own) final.receiver :=
  receiverPart.run_of_run run fun _ => receiverPart_moves

/-- Where no transition of the link has made the receiver the owner, its interface is
without the addresses. -/
theorem absent_of_link (ip : IpAddress (addressManager link.receiver.runtime))
    (run : link.hosts.Run (link.startHosts senderAt receiverAt start) taken final)
    (waits : ∀ next ∈ taken.filterMap linkPart.own,
      next.after.receiver.node.loopState.state ≠ .active)
    {interface : Interface} {address : String} (absent : interface address = false) :
    ip.interfaceAfter interface (executions (taken.filterMap receiverPart.own)) address =
      false := by
  apply absent_of_waits ip (receiver_of_run run) _ absent
  intro part member
  rcases mem_linkPart_of_receiver member with ⟨next, inLink, same⟩
  rw [← same]
  exact waits next inLink

/-- A sender that is in its loop once it has settled wants the addresses. -/
theorem wanted_of_settled
    (run : link.machine.Run (link.start senderAt receiverAt start) steps state)
    (settles : ∀ next ∈ steps, link.Settles senderAt next.after.sender)
    (started : start ≤ senderAt.1) (looping : state.sender.phase.Looping)
    (late : link.settledAt senderAt < state.time) : wanted state.sender = true := by
  have active : state.sender.node.loopState.state = .active := by
    rcases List.eq_nil_or_concat' steps with rfl | ⟨before, last, rfl⟩
    · have interval : 0 ≤ link.interval := Int.natCast_nonneg _
      rw [← run.eq_of_nil] at late
      simp only [settledAt, Link.start] at late
      omega
    · rcases run.split_at with ⟨_, lastTaken, atEnd⟩
      have same := atEnd.eq_of_nil
      rw [← same] at looping late ⊢
      exact (settles last (by simp)).owns lastTaken looping late
  have inLoop : inCleanup state.sender.phase = false := by
    rcases looping with phase | phase <;> rw [phase] <;> rfl
  rw [wanted, active, inLoop]
  rfl

/-- An action that is wanted and has failed has been reported. -/
theorem outcome_of_wanted {process : HaProcess} {startupAt scheduledAt : Int}
    (ip : IpAddress (addressManager process.runtime))
    {trace : List CommandTransition} {final : SystemState}
    (run : (commandSystem process).machine.Run
      (Spawner.start (process.startRun startupAt scheduledAt)) trace final)
    {older : List ActionTask} {newest : ActionTask} (tasks : final.tasks = older ++ [newest])
    (finished : newest.phase = .finished)
    (notOvertaken : NotOvertaken older.length (executions trace))
    (wants : wanted final.main = true) (interface : Interface) :
    (∀ address ∈ process.runtime.addresses,
      ip.interfaceAfter interface (executions trace) address = true) ∨
      ActionFails older.length trace ∧ ActionReports older.length trace := by
  cases actionOutcome_of_run ip run tasks finished notOvertaken interface with
  | followed follows =>
      left
      intro address configured
      rw [follows address configured, wants]
  | failed inTrace output reported =>
      right
      refine ⟨⟨_, inTrace, _, output⟩, reported.resolve_left ?_⟩
      intro isCleanup
      rcases newest_of_run run with ⟨configured, asked⟩
      have removes := (configured newest (by simp [tasks])).cleanup isCleanup
      have adds := asked newest (by rw [tasks, List.getLast?_concat]; rfl)
      rw [removes, wants] at adds
      cases adds

/-- Only a refresh makes the receiver the owner. -/
theorem notActive_of_takes {next : Transition LinkState LinkInput Empty}
    (nextTaken : link.machine.Takes next)
    (waits : next.before.receiver.node.loopState.state ≠ .active)
    (refreshed : ∀ now, next.input = .receiver (.event (.refresh now)) →
      next.after.receiver.node.loopState.state ≠ .active) :
    next.after.receiver.node.loopState.state ≠ .active := by
  rcases moves_of_takes nextTaken with ⟨_, _, stepped⟩ | ⟨input, stepped, receives⟩
  · rw [(stepSender_eq_some stepped).2.2.1]
    exact waits
  · rcases stepReceiver_eq_some stepped with ⟨_, _, _, _, _, taken⟩
    cases (steps_of_stepRun taken).evolves with
    | refreshed now refreshes =>
        rcases receives with receives | ⟨_, _, _, _, arrives⟩
        · exact refreshed now (refreshes ▸ receives)
        · rcases delivery_eq_some arrives with ⟨_, _, _, _, received⟩
          cases refreshes.symm.trans received
    | accepted _ _ _ _ _ changed =>
        rcases changed with ⟨counters, loopState⟩
        rw [loopState]
        exact waits
    | unchanged _ _ _ _ _ state =>
        rcases state with same | init
        · rw [same]
          exact waits
        · rw [init]
          exact HaState.noConfusion

/-- Run lemma: a receiver that has refreshed once the sender has owned the addresses for a
window does not own them from then on. -/
theorem notActive_of_owned
    (ranked : outranks link.sender.runtime.priority link.sender.runtime.nodeId
      link.receiver.runtime.priority link.receiver.runtime.nodeId = true)
    (holdDown : 0 < link.holdDown) (started : senderAt.2 ≤ since)
    (run : link.machine.Run (link.start senderAt receiverAt start) steps state)
    (tolerable : link.Tolerable steps state) (genuine : link.Genuine steps)
    (owns : OwnsSince since steps)
    (refreshed : ∃ next ∈ steps, ∃ now, next.input = .receiver (.event (.refresh now)) ∧
      since + link.receiver.runtime.window ≤ next.after.time) :
    state.receiver.node.loopState.state ≠ .active := by
  have holds : (∃ next ∈ steps, ∃ now, next.input = .receiver (.event (.refresh now)) ∧
      since + link.receiver.runtime.window ≤ next.after.time) →
      since + link.receiver.runtime.window ≤ state.time ∧
        state.receiver.node.loopState.state ≠ .active := by
    refine run.prefix_induction (motive := fun taken state =>
      (∃ next ∈ taken, ∃ now, next.input = .receiver (.event (.refresh now)) ∧
        since + link.receiver.runtime.window ≤ next.after.time) →
      since + link.receiver.runtime.window ≤ state.time ∧
        state.receiver.node.loopState.state ≠ .active) ?_ ?_ (List.append_nil _).symm run
      (.nil _)
    · rintro ⟨_, member, _⟩
      cases member
    · rintro taken next rest rfl - nextTaken - ih ⟨earlier, member, now, refreshes, late⟩
      have lateNow : since + link.receiver.runtime.window ≤ next.after.time := by
        rcases List.mem_append.mp member with before | here
        · have ordered := (onTime_of_takes nextTaken).1
          exact (ih ⟨earlier, before, now, refreshes, late⟩).1.trans ordered
        · rw [← List.mem_singleton.mp here]
          exact late
      have refreshed : ∀ now, next.input = .receiver (.event (.refresh now)) →
          next.after.receiver.node.loopState.state ≠ .active := by
        intro now refreshes
        rw [standby_of_owned ranked holdDown started run tolerable genuine refreshes
          (fun earlier member => owns earlier (List.mem_append_left _ member)) lateNow]
        exact HaState.noConfusion
      refine ⟨lateNow, ?_⟩
      rcases List.mem_append.mp member with before | here
      · exact notActive_of_takes nextTaken (ih ⟨earlier, before, now, refreshes, late⟩).2
          refreshed
      · rw [List.mem_singleton.mp here] at refreshes
        exact refreshed now refreshes
  exact (holds refreshed).2

end Run

/-- One holder: next to a sender of higher rank that starts first and gets through, the
receiver never puts an address on its interface, whatever its commands and those of the
sender come to; and the sender puts all of its own there once it has settled. -/
theorem oneHolder_of_run (link : Link)
    (senderIp : IpAddress (addressManager link.sender.runtime))
    (receiverIp : IpAddress (addressManager link.receiver.runtime))
    (ranked : outranks link.sender.runtime.priority link.sender.runtime.nodeId
      link.receiver.runtime.priority link.receiver.runtime.nodeId = true)
    (holdDown : 0 < link.holdDown) (senderAt receiverAt : Int × Int)
    (first : senderAt.2 + link.offset ≤ receiverAt.1) (start : Int)
    (started : start ≤ senderAt.1) (trace : List HostsTransition) (final : HostsState)
    (run : link.hosts.Run (link.startHosts senderAt receiverAt start) trace final)
    (tolerable : link.Tolerable (trace.filterMap linkPart.own) final.link)
    (genuine : link.Genuine (trace.filterMap linkPart.own))
    (reciprocal : link.Reciprocal [] (trace.filterMap linkPart.own)) :
    link.OneHolder senderIp receiverIp senderAt trace final := by
  have holds : ∀ next ∈ trace.filterMap linkPart.own, link.machine.Takes next ∧
      next.after.receiver.node.loopState.state ≠ .active ∧
        link.Settles senderAt next.after.sender :=
    fun _ => waits_and_settles ranked holdDown first (link_of_run run) tolerable genuine
      reciprocal
  constructor
  case absent =>
    intro taken rest split interface address absent
    rcases (split ▸ run).split with ⟨middle, before, _⟩
    apply absent_of_link receiverIp before _ absent
    intro next member
    refine (holds next ?_).2.1
    rw [split, List.filterMap_append]
    exact List.mem_append_left _ member
  case present =>
    intro looping late older newest tasks finished notOvertaken interface
    apply outcome_of_wanted senderIp (sender_of_run run) tasks finished notOvertaken
    exact wanted_of_settled (link_of_run run) (fun next member => (holds next member).2.2)
      started looping late

/-- On a link of tolerable losses a receiver of lower rank has its addresses off its
interface a window after the sender has come to own them, unless a command fails: from
its next refresh on, once the action that this has led to has ended. -/
theorem releasedInTime_of_run (link : Link)
    (ip : IpAddress (addressManager link.receiver.runtime))
    (ranked : outranks link.sender.runtime.priority link.sender.runtime.nodeId
      link.receiver.runtime.priority link.receiver.runtime.nodeId = true)
    (holdDown : 0 < link.holdDown) (senderAt receiverAt : Int × Int) (start since : Int)
    (started : senderAt.2 ≤ since) (trace : List HostsTransition) (final : HostsState)
    (run : link.hosts.Run (link.startHosts senderAt receiverAt start) trace final)
    (tolerable : link.Tolerable (trace.filterMap linkPart.own) final.link)
    (genuine : link.Genuine (trace.filterMap linkPart.own))
    (owns : OwnsSince since (trace.filterMap linkPart.own)) :
    link.ReleasedInTime ip since trace final := by
  rintro ⟨next, member, now, refreshes, late⟩ older newest tasks finished notOvertaken interface
  have isLink : next.input.link? = some (.receiver (.event (.refresh now))) := by
    rw [refreshes]
    rfl
  have waits : final.receiver.main.node.loopState.state ≠ .active := by
    apply notActive_of_owned ranked holdDown started (link_of_run run) tolerable genuine owns
    refine ⟨⟨next.before.link, _, next.after.link, []⟩,
      List.mem_filterMap.mpr ⟨next, member, ?_⟩, now, rfl, late⟩
    simp only [linkPart, isLink, Option.map_some]
  have absent : wanted final.receiver.main = false := by
    rw [wanted, beq_eq_false_iff_ne.mpr waits, Bool.false_and]
  cases actionOutcome_of_run ip (receiver_of_run run) tasks finished notOvertaken interface with
  | followed follows =>
      left
      intro address configured
      rw [follows address configured, absent]
  | failed inTrace output _ => exact .inr ⟨_, inTrace, _, output⟩

end Link

/-! ## Two hosts -/

namespace HostsInput

def ofLink : LinkInput → HostsInput
  | .sender input => sender (.main input)
  | .receiver input => receiver (.main input)
  | .deliver index source observedAt => deliver index source observedAt

@[simp] theorem link?_ofLink (input : LinkInput) : (ofLink input).link? = some input := by
  cases input <;> rfl

end HostsInput

/-- The link's part of a run on these inputs is its run on them without the others. -/
theorem Link.part_of_inputs {link : Link} {senderAt receiverAt : Int × Int} {start : Int}
    {trace : List HostsTransition} {final : HostsState}
    {steps : List (Transition LinkState LinkInput Empty)} {state : LinkState}
    {others : List HostsInput}
    (run : link.hosts.Run (link.startHosts senderAt receiverAt start) trace final)
    (linkRun : link.machine.Run (link.start senderAt receiverAt start) steps state)
    (inputs : trace.map (·.input) = (steps.map fun next => .ofLink next.input) ++ others)
    (noLink : others.filterMap HostsInput.link? = []) :
    trace.filterMap linkPart.own = steps ∧ final.link = state := by
  apply (link_of_run run).eq_of_inputs linkRun
  calc
    (trace.filterMap linkPart.own).map (·.input) =
        (trace.map (·.input)).filterMap HostsInput.link? := by
      simp only [linkPart, List.map_filterMap, List.filterMap_map, Function.comp_def,
        Option.map_map, Option.map_id']
    _ = steps.map (·.input) := by
      simp only [inputs, List.filterMap_append, noLink, List.append_nil, List.filterMap_map,
        Function.comp_def, HostsInput.link?_ofLink, List.filterMap_eq_map']

/-- The receiver's own removal is refused. -/
def holderInputs : List HostsInput :=
  (ownerTrace.map fun next => .ofLink next.input) ++ [
    .sender (.task 0 (.command removedResult)),
    .sender (.task 0 .applied),
    .receiver (.task 0 (.command refusedResult)),
    .sender (.task 1 (.command removedResult)),
    .receiver (.task 0 .applied),
    .sender (.task 1 (.command refusedResult)),
    .sender (.task 1 .applied)]

def holderTrace : List HostsTransition :=
  lossyLink.hosts.record (lossyLink.startHosts (0, 0) (7, 7) 0) holderInputs

def holderFinal : HostsState :=
  Machine.finalState (lossyLink.startHosts (0, 0) (7, 7) 0) holderTrace

theorem oneHolder_of_run_demo :
    lossyLink.OneHolder (.demo _) (.demo _) (0, 0) holderTrace holderFinal ∧
      holderFinal.sender.tasks.map (·.phase) = [.finished, .finished] ∧
      (IpAddress.demo (addressManager lossyLink.sender.runtime)).interfaceAfter
        (fun _ => false) (executions (holderTrace.filterMap senderPart.own))
        "10.0.0.10/24" = true ∧
      (IpAddress.demo (addressManager lossyLink.receiver.runtime)).interfaceAfter
        (fun _ => false) (executions (holderTrace.filterMap receiverPart.own))
        "10.0.0.10/24" = false := by
  have accepted : (lossyLink.hosts.transitions (lossyLink.startHosts (0, 0) (7, 7) 0)
      holderInputs).isSome = true := by decide +kernel
  have run : lossyLink.hosts.Run (lossyLink.startHosts (0, 0) (7, 7) 0) holderTrace
      holderFinal := Machine.run_record _ accepted
  have ownerRun : lossyLink.machine.Run (lossyLink.start (0, 0) (7, 7) 0) ownerTrace
      ownerFinal := Machine.run_record _ (by decide +kernel)
  rcases Link.part_of_inputs run ownerRun (Machine.map_input_record _ accepted) rfl with
    ⟨steps, state⟩
  refine ⟨?_, by decide +kernel⟩
  apply lossyLink.oneHolder_of_run (.demo _) (.demo _) (by decide) (by decide +kernel) (0, 0)
    (7, 7) (by decide) 0 (by decide) holderTrace holderFinal run
  · rw [steps, state]
    exact owner_tolerable
  · rw [steps]
    exact owner_genuine
  · rw [steps]
    decide +kernel

/-- The receiver adds its address late, when it has already given it up. -/
def releasedInputs : List HostsInput :=
  (overlapTrace.map fun next => .ofLink next.input) ++ [
    .receiver (.task 0 (.command removedResult)),
    .receiver (.task 1 (.command removedResult)),
    .receiver (.task 2 (.command removedResult)),
    .receiver (.task 2 .applied)]

def overlapStart : Int × Int :=
  (-9999999993, -9999999993)

def releasedTrace : List HostsTransition :=
  lossyLink.hosts.record (lossyLink.startHosts (0, 0) overlapStart (-10000000000))
    releasedInputs

def releasedFinal : HostsState :=
  Machine.finalState (lossyLink.startHosts (0, 0) overlapStart (-10000000000)) releasedTrace

theorem releasedInTime_of_run_demo :
    lossyLink.ReleasedInTime (.demo _) 4000000000 releasedTrace releasedFinal ∧
      releasedFinal.receiver.tasks.map (·.phase) = [.applying, .applying, .finished] ∧
      NotOvertaken 2 (executions (releasedTrace.filterMap receiverPart.own)) ∧
      (IpAddress.demo (addressManager lossyLink.receiver.runtime)).interfaceAfter
        (fun _ => false) (executions (releasedTrace.filterMap receiverPart.own))
        "10.0.0.10/24" = false := by
  have accepted : (lossyLink.hosts.transitions
      (lossyLink.startHosts (0, 0) overlapStart (-10000000000)) releasedInputs).isSome =
        true := by decide +kernel
  have run : lossyLink.hosts.Run (lossyLink.startHosts (0, 0) overlapStart (-10000000000))
      releasedTrace releasedFinal := Machine.run_record _ accepted
  have overlapRun : lossyLink.machine.Run
      (lossyLink.start (0, 0) overlapStart (-10000000000)) overlapTrace overlapFinal :=
    Machine.run_record _ (by decide +kernel)
  rcases Link.part_of_inputs run overlapRun (Machine.map_input_record _ accepted) rfl with
    ⟨steps, state⟩
  refine ⟨?_, by decide +kernel⟩
  apply lossyLink.releasedInTime_of_run (.demo _) (by decide) (by decide +kernel) (0, 0)
    overlapStart (-10000000000) 4000000000 (by decide) releasedTrace releasedFinal run
  · rw [steps, state]
    exact overlap_tolerable
  · rw [steps]
    exact overlap_genuine
  · rw [steps]
    decide +kernel

end Gruezi.Ha
