import Gruezi.Ha.History
import Gruezi.Ha.Timers
import Gruezi.Lib.Pacing

/-!
# Loss tolerance

A sender and a receiver on clocks of one rate, joined by a link that loses, delays,
reorders and repeats advertisements.  The sender attempts each advertisement
exactly when it is due.  While the link loses no `dead_factor` attempts in a row
and delivers within the hold-down, no refresh of the receiver finds the peer
timed out.
-/

namespace Gruezi.Ha

open Rust Lib HaProcess

/-- An attempt to send an advertisement: its time, and the datagram if the socket
took it. -/
structure Attempt where
  sentAt : Int
  datagram : Option Bytes
  deriving DecidableEq

/-- Two nodes with common timers, one of which hears the other. -/
structure Link where
  sender : HaProcess
  receiver : HaProcess
  /-- How far the receiver's clock is ahead of the sender's. -/
  offset : Int
  advertIntervalMs : sender.runtime.advertIntervalMs = receiver.runtime.advertIntervalMs
  deadFactor : sender.runtime.deadFactor = receiver.runtime.deadFactor
  holdDownMs : sender.runtime.holdDownMs = receiver.runtime.holdDownMs

structure LinkState where
  sender : RunState
  receiver : RunState
  /-- Every attempt so far. -/
  attempts : List Attempt
  /-- The time, by the sender's clock. -/
  time : Int

inductive LinkInput where
  | sender (input : RunInput)
  /-- A step of the receiver, other traffic included. -/
  | receiver (input : RunInput)
  /-- The datagram of an attempt arrives. -/
  | deliver (index : Nat) (source : SocketAddr) (observedAt : Int)

/-- The clock reading a step begins with. -/
def RunInput.reading : RunInput → Option Int
  | .event (.refresh now) => some now
  | .event (.receive _ observedAt) => some observedAt
  | .event (.send _ scheduledAt _) => some scheduledAt
  | .beginCleanup now => some now
  | .shutdown | .addressesRemoved | .faultHookReturned => none

/-- The attempt a step of the sender makes. -/
def RunInput.attempt (input : RunInput) (effects : List Effect) : Option Attempt :=
  match input with
  | .event (.send _ scheduledAt _) =>
      some { sentAt := scheduledAt, datagram := (sentDatagrams effects).head? }
  | _ => none

namespace Link

variable (link : Link)

/-- Time never goes back, and does not pass the moment the next attempt is due. -/
def OnTime (state : LinkState) (time : Int) : Prop :=
  state.time ≤ time ∧ time ≤ state.sender.node.loopState.nextAdvertAt

instance (state : LinkState) (time : Int) : Decidable (OnTime state time) :=
  inferInstanceAs (Decidable (_ ∧ _))

def stepSender (state : LinkState) (input : RunInput) : Option LinkState :=
  let time := input.reading.getD state.time
  if OnTime state time then
    (link.sender.stepRun state.sender input).map fun (sender, effects) =>
      { state with
        sender
        attempts := state.attempts ++ (input.attempt effects).toList
        time }
  else none

def stepReceiver (state : LinkState) (input : RunInput) : Option LinkState :=
  let time := input.reading.elim state.time (· - link.offset)
  if OnTime state time then
    (link.receiver.stepRun state.receiver input).map fun (receiver, _) =>
      { state with receiver, time }
  else none

/-- The receiver's input when the datagram of an attempt arrives. -/
def delivery (state : LinkState) (index : Nat) (source : SocketAddr) (observedAt : Int) :
    Option RunInput := do
  let attempt ← state.attempts[index]?
  let datagram ← attempt.datagram
  return .event (.receive (.ok (datagram, source)) observedAt)

def step (state : LinkState) : LinkInput → Option LinkState
  | .sender input => link.stepSender state input
  | .receiver input => link.stepReceiver state input
  | .deliver index source observedAt =>
      (delivery state index source observedAt).bind (link.stepReceiver state)

def machine : Machine LinkState LinkInput Empty where
  step state input := (link.step state input).map fun next => (next, [])

/-- Both nodes freshly started, each at a time of its own. -/
def start (senderAt receiverAt : Int × Int) (time : Int) : LinkState where
  sender := link.sender.startRun senderAt.1 senderAt.2
  receiver := link.receiver.startRun receiverAt.1 receiverAt.2
  attempts := []
  time

/-- The attempt a step makes the receiver accept, and the time by the sender's
clock. -/
def hearing (next : Transition LinkState LinkInput Empty) : Option (Nat × Int) :=
  match next.input with
  | .deliver index source observedAt =>
      (delivery next.before index source observedAt).bind fun input =>
        (link.receiver.acceptance input).map fun accepted =>
          (index, accepted.observedAt - link.offset)
  | .sender _ | .receiver _ => none

/-- The attempt has been accepted at this time. -/
def Heard (trace : List (Transition LinkState LinkInput Empty)) (index : Nat)
    (time : Int) : Prop :=
  (index, time) ∈ trace.filterMap link.hearing

/-- The hold-down, in nanoseconds. -/
def holdDown : Int :=
  link.receiver.runtime.holdDown.nanos

/-- The advertisement interval, in nanoseconds. -/
def interval : Int :=
  (link.receiver.runtime.advertIntervalMs.toNat * nanosPerMilli : Nat)

/-- Of any `dead_factor` consecutive attempts, all of them a hold-down old, one has
been accepted; and what is accepted is accepted within the hold-down. -/
structure Tolerable (trace : List (Transition LinkState LinkInput Empty))
    (final : LinkState) : Prop where
  losses : ∀ first,
    first + link.receiver.runtime.deadFactor.toNat ≤ final.attempts.length →
    (∀ attempt ∈ (final.attempts.drop first).take link.receiver.runtime.deadFactor.toNat,
      attempt.sentAt + link.holdDown ≤ final.time) →
    ∃ index time, first ≤ index ∧
      index < first + link.receiver.runtime.deadFactor.toNat ∧ link.Heard trace index time
  prompt : ∀ index time attempt, link.Heard trace index time →
    final.attempts[index]? = some attempt → time < attempt.sentAt + link.holdDown

/-! ## One step -/

section Step

variable {link} {state next : LinkState} {input : RunInput} {effects : List Effect}

theorem nextAdvertAt_handleSendEvent (process : HaProcess) (loopState : HaLoopState)
    (sendTo : Except IoError Unit) (scheduledAt publishedAt : Int) :
    let outcome := handleSendEvent process.hasher process.runtime process.peerAddr
      process.statusTx loopState sendTo scheduledAt publishedAt
    (∃ sequence, outcome.loopState.nextAdvertAt =
        Instant.add scheduledAt (process.runtime.nextAdvertDelay sequence)) ∨
      outcome.loopState.nextAdvertAt = loopState.nextAdvertAt := by
  intro outcome
  simp only [outcome, handleSendEvent]
  split
  · exact .inl ⟨_, rfl⟩
  · split
    · exact .inl ⟨_, rfl⟩
    · exact .inr rfl

/-- Only an attempt moves the time of the next one, by at most one interval. -/
theorem nextAdvertAt_of_steps {process : HaProcess} {before after : RunState}
    (steps : process.Steps before input after effects) :
    (∃ attempt, input.attempt effects = some attempt ∧
      input.reading = some attempt.sentAt ∧
      before.node.loopState.nextAdvertAt ≤ attempt.sentAt ∧
      (after.node.loopState.nextAdvertAt ≤ attempt.sentAt +
          (process.runtime.advertIntervalMs.toNat * nanosPerMilli : Nat) ∨
        after.node.loopState.nextAdvertAt = before.node.loopState.nextAdvertAt)) ∨
    (input.attempt effects = none ∧
      after.node.loopState.nextAdvertAt = before.node.loopState.nextAdvertAt) := by
  cases steps with
  | refresh _ handles =>
      rcases handle_refresh handles with ⟨_, _, _, loopState, _⟩
      exact .inr ⟨rfl, by rw [loopState, refreshed_nextAdvertAt]⟩
  | @handled event handled _ ready handles _ | @failed event handled _ _ ready handles _ =>
      cases event with
      | refresh now => cases ready
      | receive recv observedAt =>
          obtain ⟨_, _, _, ⟨_, loopState⟩ | ⟨_, _, _, _, _, _, _, loopState⟩⟩ :=
            handle_receive handles <;> exact .inr ⟨rfl, by rw [loopState]⟩
      | send sendTo scheduledAt publishedAt =>
          refine .inl ⟨_, rfl, rfl, by simpa [armReady] using ready, ?_⟩
          simp only [handle] at handles
          split at handles
          · cases handles
            obtain ⟨sequence, moved⟩ | same := nextAdvertAt_handleSendEvent process
              before.node.loopState sendTo scheduledAt publishedAt
            · left
              have := process.runtime.nanos_nextAdvertDelay_le sequence
              simp only [moved, Instant.add]
              omega
            · exact .inr same
          · cases handles
  | shutdown | beginCleanup | runFaultHook => exact .inr ⟨rfl, rfl⟩
  | finish | finishFaulted =>
      refine .inr ⟨rfl, ?_⟩
      simp only [finishCleanup, Cleanup.finish]
      split <;> rfl

/-- What a step of the sender does to the schedule. -/
theorem stepSender_cases (stepped : link.stepSender state input = some next) :
    OnTime state next.time ∧
      next.receiver = state.receiver ∧
      ((∃ attempt, next.attempts = state.attempts ++ [attempt] ∧
          attempt.sentAt = next.time ∧
          state.sender.node.loopState.nextAdvertAt ≤ attempt.sentAt ∧
          next.sender.node.loopState.nextAdvertAt ≤ attempt.sentAt + link.interval) ∨
        (next.attempts = state.attempts ∧
          next.sender.node.loopState.nextAdvertAt =
            state.sender.node.loopState.nextAdvertAt)) := by
  simp only [stepSender] at stepped
  split at stepped
  · next onTime =>
      rw [Option.map_eq_some_iff] at stepped
      rcases stepped with ⟨⟨sender, effects⟩, taken, equal⟩
      subst equal
      refine ⟨onTime, rfl, ?_⟩
      obtain ⟨attempt, attempted, reading, due, moved⟩ | ⟨idle, same⟩ :=
        nextAdvertAt_of_steps (steps_of_stepRun taken)
      · left
        refine ⟨attempt, by simp only [attempted, Option.toList_some],
          by simp only [reading, Option.getD_some], due, ?_⟩
        have intervalNonneg : (0 : Int) ≤ link.interval := Int.natCast_nonneg _
        have now : attempt.sentAt ≤ state.sender.node.loopState.nextAdvertAt := by
          simpa only [reading, Option.getD_some] using onTime.2
        rw [link.advertIntervalMs] at moved
        rcases moved with later | same
        · exact later
        · simp only [same]
          omega
      · right
        exact ⟨by simp only [idle, Option.toList_none, List.append_nil], same⟩
  · cases stepped

/-- A step of the receiver is taken at the reading of its clock. -/
theorem stepReceiver_eq_some (stepped : link.stepReceiver state input = some next) :
    OnTime state next.time ∧
      next.time = input.reading.elim state.time (· - link.offset) ∧
      next.sender = state.sender ∧ next.attempts = state.attempts ∧
      ∃ effects, link.receiver.stepRun state.receiver input =
        some (next.receiver, effects) := by
  simp only [stepReceiver] at stepped
  split at stepped
  · next onTime =>
      rw [Option.map_eq_some_iff] at stepped
      rcases stepped with ⟨⟨receiver, effects⟩, taken, equal⟩
      subst equal
      exact ⟨onTime, rfl, rfl, rfl, effects, taken⟩
  · cases stepped

/-- What a step of the receiver does to its observation. -/
theorem stepReceiver_cases (stepped : link.stepReceiver state input = some next) :
    (∀ packet observedAt, link.receiver.Accepts input packet observedAt →
        observedAt = next.time + link.offset) ∧
      (next.receiver.node.loopState.peerObservation =
          state.receiver.node.loopState.peerObservation ∧
        (∀ packet observedAt, ¬link.receiver.Accepts input packet observedAt) ∨
      ∃ peer, next.receiver.node.loopState.peerObservation = some peer ∧
        peer.observedAt = next.time + link.offset) := by
  rcases stepReceiver_eq_some stepped with ⟨_, time, _, _, effects, taken⟩
  have clock : ∀ packet observedAt, link.receiver.Accepts input packet observedAt →
      observedAt = next.time + link.offset := by
    rintro packet observedAt ⟨datagram, source, rfl, _⟩
    rw [time]
    exact (Int.sub_add_cancel ..).symm
  refine ⟨clock, ?_⟩
  cases (steps_of_stepRun taken).evolves with
  | refreshed now refreshes _ loopState =>
      refine .inl ⟨by rw [loopState, refreshed_peerObservation], ?_⟩
      rintro packet observedAt ⟨_, _, arrival, _⟩
      cases refreshes.symm.trans arrival
  | accepted packet observedAt accepts _ _ changed =>
      rcases changed with ⟨counters, loopState⟩
      exact .inr ⟨packet.observed state.receiver.node.loopState.peerObservation
        observedAt, by rw [loopState], clock packet observedAt accepts⟩
  | unchanged _ refused _ same => exact .inl ⟨same, refused⟩

theorem delivery_eq_some {index : Nat} {source : SocketAddr} {observedAt : Int}
    (arrives : delivery state index source observedAt = some input) :
    ∃ attempt datagram, state.attempts[index]? = some attempt ∧
      attempt.datagram = some datagram ∧
      input = .event (.receive (.ok (datagram, source)) observedAt) := by
  simp only [delivery, Option.bind_eq_bind, Option.bind_eq_some_iff, Option.pure_def,
    Option.some.injEq] at arrives
  rcases arrives with ⟨attempt, found, datagram, taken, rfl⟩
  exact ⟨attempt, datagram, found, taken, rfl⟩

end Step

/-! ## Along a run -/

section Run

variable {link} {taken trace rest : List (Transition LinkState LinkInput Empty)}
variable {next : Transition LinkState LinkInput Empty} {state final : LinkState}
variable {index : Nat} {time : Int}

/-- A step of the link is one of the sender, or one of the receiver. -/
theorem moves_of_takes (nextTaken : link.machine.Takes next) :
    (∃ input, next.input = .sender input ∧
      link.stepSender next.before input = some next.after) ∨
    (∃ input, link.stepReceiver next.before input = some next.after ∧
      (next.input = .receiver input ∨
        ∃ index source observedAt, next.input = .deliver index source observedAt ∧
          delivery next.before index source observedAt = some input)) := by
  simp only [Machine.Takes, machine, Option.map_eq_some_iff] at nextTaken
  rcases nextTaken with ⟨after, stepped, equal⟩
  cases congrArg Prod.fst equal
  cases nextInput : next.input with
  | sender input =>
      rw [nextInput] at stepped
      exact .inl ⟨input, rfl, stepped⟩
  | receiver input =>
      rw [nextInput] at stepped
      exact .inr ⟨input, stepped, .inl rfl⟩
  | deliver index source observedAt =>
      rw [nextInput] at stepped
      rcases Option.bind_eq_some_iff.mp stepped with ⟨input, arrives, received⟩
      exact .inr ⟨input, received, .inr ⟨index, source, observedAt, rfl, arrives⟩⟩

theorem onTime_of_takes (nextTaken : link.machine.Takes next) :
    OnTime next.before next.after.time := by
  obtain ⟨_, _, stepped⟩ | ⟨_, stepped, _⟩ := moves_of_takes nextTaken
  · exact (stepSender_cases stepped).1
  · exact (stepReceiver_eq_some stepped).1

theorem time_le_of_run (run : link.machine.Run state trace final) :
    state.time ≤ final.time := by
  apply run.invariant (motive := fun later => state.time ≤ later.time) le_rfl
  intro next _ nextTaken ordered
  exact ordered.trans (onTime_of_takes nextTaken).1

theorem attempts_prefix_of_takes (nextTaken : link.machine.Takes next) :
    next.before.attempts <+: next.after.attempts := by
  obtain ⟨_, _, stepped⟩ | ⟨_, stepped, _⟩ := moves_of_takes nextTaken
  · obtain ⟨_, _, ⟨attempt, longer, _⟩ | ⟨same, _⟩⟩ := stepSender_cases stepped
    · exact ⟨[attempt], longer.symm⟩
    · exact same ▸ List.prefix_rfl
  · exact (stepReceiver_eq_some stepped).2.2.2.1 ▸ List.prefix_rfl

theorem attempts_prefix_of_run (run : link.machine.Run state trace final) :
    state.attempts <+: final.attempts := by
  apply run.invariant (motive := fun later => state.attempts <+: later.attempts)
    List.prefix_rfl
  intro next _ nextTaken isPrefix
  exact isPrefix.trans (attempts_prefix_of_takes nextTaken)

/-- An attempt keeps its position. -/
theorem getElem?_of_isPrefix {earlier later : List Attempt} {attempt : Attempt}
    (isPrefix : earlier <+: later) (found : earlier[index]? = some attempt) :
    later[index]? = some attempt := by
  rcases List.getElem?_eq_some_iff.mp found with ⟨within, equal⟩
  rw [← equal]
  exact List.prefix_iff_getElem?.mp isPrefix index within

/-- The attempts keep the pace of the schedule. -/
structure OnSchedule (link : Link) (state : LinkState) : Prop where
  paced : Paced link.interval (state.attempts.map (·.sentAt))
  due : ∀ last ∈ (state.attempts.map (·.sentAt)).getLast?,
    state.sender.node.loopState.nextAdvertAt ≤ last + link.interval
  past : ∀ attempt ∈ state.attempts, attempt.sentAt ≤ state.time

theorem OnSchedule.step (nextTaken : link.machine.Takes next)
    (onSchedule : link.OnSchedule next.before) : link.OnSchedule next.after := by
  have onTime := onTime_of_takes nextTaken
  have past : ∀ attempt ∈ next.before.attempts, attempt.sentAt ≤ next.after.time :=
    fun attempt member => (onSchedule.past attempt member).trans onTime.1
  obtain ⟨_, _, stepped⟩ | ⟨_, stepped, _⟩ := moves_of_takes nextTaken
  · obtain ⟨_, _, ⟨attempt, longer, now, due, later⟩ | ⟨same, kept⟩⟩ :=
      stepSender_cases stepped
    · constructor
      case paced =>
        rw [longer, List.map_append, List.map_singleton]
        apply onSchedule.paced.concat
        intro last isLast
        have := onSchedule.due last isLast
        have := onTime.2
        omega
      case due =>
        rw [longer, List.map_append, List.map_singleton]
        intro last isLast
        rw [List.getLast?_concat, Option.mem_some_iff] at isLast
        rw [← isLast]
        exact later
      case past =>
        rw [longer]
        intro other member
        rcases List.mem_append.mp member with earlier | single
        · exact past other earlier
        · rw [List.mem_singleton.mp single]
          exact now.le
    · exact ⟨same ▸ onSchedule.paced, by rw [same, kept]; exact onSchedule.due,
        same ▸ past⟩
  · obtain ⟨_, _, sender, same, _⟩ := stepReceiver_eq_some stepped
    exact ⟨same ▸ onSchedule.paced, by rw [same, sender]; exact onSchedule.due,
      same ▸ past⟩

/-- The receiver remembers nothing older than what it has heard. -/
def Remembers (link : Link) (taken : List (Transition LinkState LinkInput Empty))
    (state : LinkState) : Prop :=
  ∀ index time, link.Heard taken index time →
    time ≤ state.time ∧
      (∃ attempt, state.attempts[index]? = some attempt ∧ attempt.sentAt ≤ time) ∧
      ∃ peer, state.receiver.node.loopState.peerObservation = some peer ∧
        time + link.offset ≤ peer.observedAt

theorem heard_append :
    link.Heard (taken ++ rest) index time ↔
      link.Heard taken index time ∨ link.Heard rest index time := by
  rw [Heard, List.filterMap_append, List.mem_append]
  rfl

/-- A step by which an attempt is heard. -/
theorem stepReceiver_of_hearing (nextTaken : link.machine.Takes next)
    (heard : link.hearing next = some (index, time)) :
    next.after.time = time ∧
      ∃ attempt input packet, next.before.attempts[index]? = some attempt ∧
        link.stepReceiver next.before input = some next.after ∧
        link.receiver.Accepts input packet (time + link.offset) := by
  unfold hearing at heard
  split at heard
  · next position source observedAt delivers =>
      rcases Option.bind_eq_some_iff.mp heard with ⟨input, arrives, heard⟩
      rcases Option.map_eq_some_iff.mp heard with ⟨accepted, accepts, equal⟩
      cases equal
      have passes := acceptance_eq_some.mp accepts
      obtain ⟨_, sends, _⟩ | ⟨received, stepped, other | ⟨_, _, _, same, arrival⟩⟩ :=
        moves_of_takes nextTaken
      · cases delivers.symm.trans sends
      · cases delivers.symm.trans other
      · cases delivers.symm.trans same
        cases arrives.symm.trans arrival
        rcases delivery_eq_some arrives with ⟨attempt, _, found, _⟩
        have clock := (stepReceiver_cases stepped).1 _ _ passes
        refine ⟨by omega, attempt, input, accepted.packet, found, stepped, ?_⟩
        rwa [Int.sub_add_cancel]
  · cases heard
  · cases heard

theorem heard_singleton (heard : link.Heard [next] index time) :
    link.hearing next = some (index, time) := by
  rcases List.mem_filterMap.mp heard with ⟨_, member, heard⟩
  cases List.mem_singleton.mp member
  exact heard

/-- Nothing is heard before it happens. -/
theorem le_time_of_heard (run : link.machine.Run state trace final)
    (heard : link.Heard trace index time) : state.time ≤ time := by
  rcases List.mem_filterMap.mp heard with ⟨next, member, heard⟩
  rcases run.exists_before member with ⟨_, before, nextTaken⟩
  have now := (stepReceiver_of_hearing nextTaken heard).1
  have := time_le_of_run before
  have := (onTime_of_takes nextTaken).1
  omega

theorem Remembers.append (nextTaken : link.machine.Takes next)
    (onSchedule : link.OnSchedule next.before)
    (remembers : link.Remembers taken next.before) :
    link.Remembers (taken ++ [next]) next.after := by
  have ordered := (onTime_of_takes nextTaken).1
  intro index time heard
  rcases heard_append.mp heard with before | now
  · rcases remembers index time before with
      ⟨past, ⟨attempt, found, sentBefore⟩, peer, observed, fresh⟩
    have stays := getElem?_of_isPrefix (attempts_prefix_of_takes nextTaken) found
    refine ⟨past.trans ordered, ⟨attempt, stays, sentBefore⟩, ?_⟩
    obtain ⟨_, _, stepped⟩ | ⟨_, stepped, _⟩ := moves_of_takes nextTaken
    · rw [(stepSender_cases stepped).2.1]
      exact ⟨peer, observed, fresh⟩
    · obtain ⟨_, ⟨same, _⟩ | ⟨newer, observedNow, clock⟩⟩ := stepReceiver_cases stepped
      · exact ⟨peer, same.trans observed, fresh⟩
      · exact ⟨newer, observedNow, by omega⟩
  · rcases stepReceiver_of_hearing nextTaken (heard_singleton now) with
      ⟨at_, attempt, input, packet, found, stepped, accepts⟩
    have sentBefore := onSchedule.past attempt (List.mem_of_getElem? found)
    have stays := getElem?_of_isPrefix (attempts_prefix_of_takes nextTaken) found
    obtain ⟨_, ⟨_, refused⟩ | ⟨peer, observed, observedAt⟩⟩ := stepReceiver_cases stepped
    · exact absurd accepts (refused packet _)
    · exact ⟨at_.ge, ⟨attempt, stays, by omega⟩, peer, observed, by omega⟩

/-- Run lemma for both. -/
theorem inv_of_run {senderAt receiverAt : Int × Int} {time : Int}
    (run : link.machine.Run (link.start senderAt receiverAt time) trace final) :
    link.OnSchedule final ∧ link.Remembers trace final := by
  apply run.history_induction (motive := fun taken state =>
    link.OnSchedule state ∧ link.Remembers taken state)
  · refine ⟨⟨List.isChain_nil, ?_, ?_⟩, ?_⟩
    · simp [start]
    · simp [start]
    · intro index time heard
      cases heard
  · rintro taken next - nextTaken - ⟨onSchedule, remembers⟩
    exact ⟨onSchedule.step nextTaken, remembers.append nextTaken onSchedule⟩

/-- What is heard in a run before the time of one of its steps is heard before that
step. -/
theorem heard_of_time_lt (nextTaken : link.machine.Takes next)
    (after : link.machine.Run next.after rest final)
    (heard : link.Heard (taken ++ next :: rest) index time)
    (early : time < next.after.time) : link.Heard taken index time := by
  rcases heard_append.mp heard with before | later
  · exact before
  · rw [← List.singleton_append, heard_append] at later
    rcases later with now | later
    · have := (stepReceiver_of_hearing nextTaken (heard_singleton now)).1
      omega
    · have := le_time_of_heard after later
      omega

/-- Of a block of attempts that are all a hold-down old at a step, one has been heard
before the step. -/
theorem heard_of_block (nextTaken : link.machine.Takes next)
    (after : link.machine.Run next.after rest final)
    (tolerable : link.Tolerable (taken ++ next :: rest) final) {first : Nat}
    (room : first + link.receiver.runtime.deadFactor.toNat ≤ next.before.attempts.length)
    (old : ∀ attempt ∈
      (next.before.attempts.drop first).take link.receiver.runtime.deadFactor.toNat,
      attempt.sentAt + link.holdDown ≤ next.after.time) :
    ∃ index, first ≤ index ∧ index < first + link.receiver.runtime.deadFactor.toNat ∧
      ∃ time, link.Heard taken index time := by
  have longer : next.before.attempts <+: final.attempts :=
    (attempts_prefix_of_takes nextTaken).trans (attempts_prefix_of_run after)
  have block : (final.attempts.drop first).take link.receiver.runtime.deadFactor.toNat =
      (next.before.attempts.drop first).take
        link.receiver.runtime.deadFactor.toNat := by
    rcases longer with ⟨more, equal⟩
    rw [← equal, List.drop_append_of_le_length (by omega),
      List.take_append_of_le_length (by rw [List.length_drop]; omega)]
  have oldAtEnd : ∀ attempt ∈
      (final.attempts.drop first).take link.receiver.runtime.deadFactor.toNat,
      attempt.sentAt + link.holdDown ≤ final.time := by
    rw [block]
    intro attempt member
    exact (old attempt member).trans (time_le_of_run after)
  obtain ⟨index, time, lower, upper, heard⟩ :=
    tolerable.losses first (room.trans longer.length_le) oldAtEnd
  refine ⟨index, lower, upper, time, ?_⟩
  apply heard_of_time_lt nextTaken after heard
  -- The attempt was heard within the hold-down, which is over at this step.
  have found : next.before.attempts[index]? = some (next.before.attempts[index]) :=
    List.getElem?_eq_getElem (by omega)
  have prompt := tolerable.prompt index time _ heard (getElem?_of_isPrefix longer found)
  have member : next.before.attempts[index] ∈
      (next.before.attempts.drop first).take
        link.receiver.runtime.deadFactor.toNat := by
    apply List.mem_of_getElem? (i := index - first)
    rw [List.getElem?_take_of_lt (by omega), List.getElem?_drop,
      Nat.add_sub_cancel' lower, found]
  exact prompt.trans_le (old _ member)

/-- At any step after the first acceptance, one of the attempts the receiver has
heard is less than a window old. -/
theorem exists_recent_of_tolerable {senderAt receiverAt : Int × Int} {start : Int}
    (run : link.machine.Run (link.start senderAt receiverAt start)
      (taken ++ next :: rest) final)
    (tolerable : link.Tolerable (taken ++ next :: rest) final)
    (anyHeard : ∃ index time, link.Heard taken index time) :
    ∃ index time attempt, link.Heard taken index time ∧
      next.before.attempts[index]? = some attempt ∧
      next.after.time < attempt.sentAt +
        link.receiver.runtime.deadFactor.toNat * link.interval + link.holdDown := by
  rcases run.split_at with ⟨before, nextTaken, after⟩
  rcases inv_of_run before with ⟨onSchedule, remembers⟩
  have delayPos : 0 < link.holdDown := by
    rcases anyHeard with ⟨index, time, heard⟩
    rcases remembers index time heard with ⟨_, ⟨attempt, found, sentBefore⟩, _⟩
    have longer := (attempts_prefix_of_takes nextTaken).trans (attempts_prefix_of_run after)
    have prompt := tolerable.prompt index time attempt (heard_append.mpr (.inl heard))
      (getElem?_of_isPrefix longer found)
    omega
  have due : ∀ last ∈ (next.before.attempts.map (·.sentAt)).getLast?,
      next.after.time ≤ last + link.interval := by
    intro last isLast
    exact (onTime_of_takes nextTaken).2.trans (onSchedule.due last isLast)
  have bounded : ∀ index, (∃ time, link.Heard taken index time) →
      index < (next.before.attempts.map (·.sentAt)).length := by
    rintro index ⟨time, heard⟩
    rcases remembers index time heard with ⟨_, ⟨attempt, found, _⟩, _⟩
    rw [List.length_map]
    exact (List.getElem?_eq_some_iff.mp found).1
  have losses : ∀ first, first + link.receiver.runtime.deadFactor.toNat ≤
        (next.before.attempts.map (·.sentAt)).length →
      (∀ time ∈ ((next.before.attempts.map (·.sentAt)).drop first).take
          link.receiver.runtime.deadFactor.toNat,
        time + link.holdDown ≤ next.after.time) →
      ∃ index, first ≤ index ∧ index < first + link.receiver.runtime.deadFactor.toNat ∧
        ∃ time, link.Heard taken index time := by
    intro first room old
    rw [List.length_map] at room
    apply heard_of_block nextTaken after tolerable room
    intro attempt member
    apply old
    rw [← List.map_drop, ← List.map_take]
    exact List.mem_map_of_mem member
  obtain ⟨index, sentAt, ⟨time, heard⟩, found, recent⟩ :=
    onSchedule.paced.exists_recent (Int.natCast_nonneg _) delayPos due anyHeard
      bounded losses
  rw [List.getElem?_map, Option.map_eq_some_iff] at found
  rcases found with ⟨attempt, found, rfl⟩
  exact ⟨index, time, attempt, heard, found, recent⟩

theorem window_eq (link : Link) : (link.receiver.runtime.window : Int) =
    link.receiver.runtime.deadFactor.toNat * link.interval + link.holdDown := by
  have parts := link.receiver.runtime.nanos_deadTimeout_add_holdDown
  rw [HaRuntimeConfig.nanos_deadTimeout] at parts
  rw [interval, holdDown, ← parts]
  push_cast
  ring

end Run

/-- Every refresh of the receiver after the first acceptance sees a live peer. -/
def NeverTimesOut (trace : List (Transition LinkState LinkInput Empty)) : Prop :=
  ∀ taken next rest now, trace = taken ++ next :: rest →
    next.input = .receiver (.event (.refresh now)) →
    (∃ index time, link.Heard taken index time) →
      (livePeer link.receiver.runtime
          next.before.receiver.node.loopState.peerObservation now).isSome = true ∧
        next.after.receiver.node.loopState.decisionReason ≠ .peerTimeout

/-- On a link of tolerable losses the peer never times out. -/
theorem never_peerTimeout (link : Link) (senderAt receiverAt : Int × Int) (start : Int)
    (trace : List (Transition LinkState LinkInput Empty)) (final : LinkState)
    (run : link.machine.Run (link.start senderAt receiverAt start) trace final)
    (tolerable : link.Tolerable trace final) : link.NeverTimesOut trace := by
  rintro taken next rest now rfl refreshes anyHeard
  rcases exists_recent_of_tolerable run tolerable anyHeard with
    ⟨index, time, attempt, heard, found, recent⟩
  rcases run.split_at with ⟨before, nextTaken, _⟩
  rcases (inv_of_run before).2 index time heard with
    ⟨_, ⟨other, foundOther, sentBefore⟩, peer, observed, fresh⟩
  cases found.symm.trans foundOther
  obtain ⟨_, sends, _⟩ | ⟨input, stepped, same | ⟨_, _, _, delivers, _⟩⟩ :=
    moves_of_takes nextTaken
  · cases refreshes.symm.trans sends
  · cases refreshes.symm.trans same
    rcases stepReceiver_eq_some stepped with ⟨_, clock, _, _, effects, taken⟩
    have live : peer.LiveAt link.receiver.runtime now := by
      have reading : next.after.time = now - link.offset := clock
      have window := link.window_eq
      simp only [PeerObservation.LiveAt]
      omega
    have refreshTaken : link.receiver.runWithStatus.Takes ⟨next.before.receiver,
        .event (.refresh now), next.after.receiver, effects⟩ := taken
    have loopState := (refreshed_of_takes refreshTaken rfl).2
    refine ⟨by rw [observed, livePeer_of_live live]; rfl, ?_⟩
    rw [loopState, refreshed_decisionReason, refreshDecision, observed]
    exact desiredState_live_reason live
  · cases refreshes.symm.trans delivers

end Link

/-! ## A lossy link -/

/-- A demo node with a hold-down of half a second. -/
def patientProcess (nodeId : String) (priority : UInt8) : HaProcess :=
  let process := demoProcess nodeId priority false
  { process with runtime := { process.runtime with holdDownMs := 500 } }

def lossyLink : Link where
  sender := patientProcess "high" 200
  receiver := patientProcess "low" 100
  offset := 7
  advertIntervalMs := rfl
  deadFactor := rfl
  holdDownMs := rfl

/-- Of four attempts the first and the last arrive, with 3.2 s in between. -/
def lossyTrace : List (Transition LinkState LinkInput Empty) :=
  let failure : IoError := { kind := .timedOut, text := "timed out" }
  lossyLink.machine.record (lossyLink.start (0, 0) (0, 0) 0) [
    .sender (.event (.refresh 0)),
    .receiver (.event (.refresh 7)),
    .sender (.event (.send (.ok ()) 1000000000 1000000000)),
    .deliver 0 demoAddr 1200000007,
    .receiver (.event (.refresh 1200000007)),
    .sender (.event (.refresh 1200000000)),
    .sender (.event (.send (.error failure) 2000000000 2000000000)),
    .sender (.event (.refresh 2000000000)),
    .sender (.event (.send (.ok ()) 3000000000 3000000000)),
    .sender (.event (.refresh 3000000000)),
    .sender (.event (.send (.ok ()) 4000000000 4000000000)),
    .receiver (.event (.send (.ok ()) 4300000007 4300000007)),
    .receiver (.event (.refresh 4350000007)),
    .deliver 3 demoAddr 4400000007,
    .receiver (.event (.refresh 4400000007))]

def lossyFinal : LinkState :=
  Machine.finalState (lossyLink.start (0, 0) (0, 0) 0) lossyTrace

theorem lossy_tolerable : lossyLink.Tolerable lossyTrace lossyFinal := by
  have heard : lossyTrace.filterMap lossyLink.hearing =
      [(0, 1200000000), (3, 4400000000)] := by decide +kernel
  have attempts : lossyFinal.attempts.map (·.sentAt) =
      [1000000000, 2000000000, 3000000000, 4000000000] := by decide +kernel
  have factor : lossyLink.receiver.runtime.deadFactor.toNat = 3 := by decide
  have holdDown : lossyLink.holdDown = 500000000 := by decide +kernel
  have heardIff : ∀ index time, lossyLink.Heard lossyTrace index time ↔
      (index = 0 ∧ time = 1200000000) ∨ (index = 3 ∧ time = 4400000000) := by
    intro index time
    simp [Link.Heard, heard]
  constructor
  case losses =>
    intro first room _
    have count := congrArg List.length attempts
    rw [List.length_map] at count
    rw [factor, count] at room
    simp only [factor, heardIff]
    by_cases atStart : first = 0
    · exact ⟨0, _, by omega, by omega, .inl ⟨rfl, rfl⟩⟩
    · exact ⟨3, _, by simp at room; omega, by omega, .inr ⟨rfl, rfl⟩⟩
  case prompt =>
    intro index time attempt heardAt found
    have sentAt := congrArg (·[index]?) attempts
    simp only [List.getElem?_map, found, Option.map_some] at sentAt
    rcases (heardIff index time).mp heardAt with ⟨rfl, rfl⟩ | ⟨rfl, rfl⟩
    · have : attempt.sentAt = 1000000000 := by simpa using sentAt
      omega
    · have : attempt.sentAt = 4000000000 := by simpa using sentAt
      omega

theorem never_peerTimeout_lossy : lossyLink.NeverTimesOut lossyTrace :=
  lossyLink.never_peerTimeout (0, 0) (0, 0) 0 lossyTrace lossyFinal
    (Machine.run_record _ (by decide +kernel)) lossy_tolerable

end Gruezi.Ha
