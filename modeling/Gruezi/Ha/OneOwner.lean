import Gruezi.Ha.Failover
import Gruezi.Ha.Safety
import Gruezi.Ha.SendPace

/-!
# One owner, in time

The two nodes of a link that answer each other and nobody else.  The higher-ranked
node starts first and its advertisements get through as `Link.Tolerable` asks;
nothing is asked of the other direction, where advertisements may be lost, delayed,
repeated and reordered.  Then the lower-ranked node never owns the address, whatever
its timeouts, and from a window and two intervals after its start on the
higher-ranked node does.
-/

namespace Gruezi.Ha

open Rust Lib HaProcess

/-- The datagram is an encoded advertisement of the node, in one of the given
states. -/
def HaProcess.Encodes (process : HaProcess) (states : HaState → Prop) (datagram : Bytes) :
    Prop :=
  ∃ state sequence, states state ∧
    (advertisement process.hasher process.runtime state sequence).encode = .ok datagram

/-- A received advertisement of a node is accepted as what was encoded. -/
theorem HaProcess.Encodes.accepted {process receiver : HaProcess}
    {states : HaState → Prop} {datagram : Bytes} {source : SocketAddr} {observedAt : Int}
    {packet : HaPacket} {at_ : Int} (encodes : process.Encodes states datagram)
    (accepts : receiver.Accepts (.event (.receive (.ok (datagram, source)) observedAt))
      packet at_) :
    at_ = observedAt ∧ states packet.state ∧ packet.nodeId = process.runtime.nodeId ∧
      packet.priority = process.runtime.priority := by
  rcases encodes with ⟨state, sequence, allowed, encoded⟩
  rcases HaPacket.encode_eq_ok_iff.mp encoded with ⟨wellFormed, wire⟩
  rcases accepts with ⟨_, _, arrival, decoded, _⟩
  cases arrival
  rw [wire, HaPacket.decode_take_wire wellFormed (by decide)] at decoded
  cases decoded
  exact ⟨rfl, allowed, rfl, rfl⟩

namespace Link

variable (link : Link)

/-- The receiver accepts nothing but attempts of the sender. -/
def Genuine (trace : List (Transition LinkState LinkInput Empty)) : Prop :=
  ∀ next ∈ trace, ∀ input, next.input = .receiver input →
    link.receiver.acceptance input = none

/-- The datagrams a step of the receiver sends. -/
def reply (next : Transition LinkState LinkInput Empty) : List Bytes :=
  match next.input with
  | .receiver input =>
      ((link.receiver.stepRun next.before.receiver input).map fun (_, effects) =>
        sentDatagrams effects).getD []
  | .sender _ | .deliver _ _ _ => []

/-- The datagram a step makes the sender accept. -/
def answer (next : Transition LinkState LinkInput Empty) : Option Bytes :=
  match next.input with
  | .sender (.event (.receive (.ok (datagram, source)) observedAt)) =>
      (link.sender.acceptance (.event (.receive (.ok (datagram, source)) observedAt))).map
        fun _ => datagram
  | _ => none

/-- The sender accepts nothing but what the receiver has sent before. -/
def Reciprocal (sent : List Bytes) : List (Transition LinkState LinkInput Empty) → Prop
  | [] => True
  | next :: rest =>
      (∀ datagram ∈ link.answer next, datagram ∈ sent) ∧
        Reciprocal (sent ++ link.reply next) rest

instance decidableReciprocal (sent : List Bytes)
    (trace : List (Transition LinkState LinkInput Empty)) :
    Decidable (link.Reciprocal sent trace) :=
  match trace with
  | [] => .isTrue trivial
  | next :: rest =>
      have := decidableReciprocal (sent ++ link.reply next) rest
      inferInstanceAs (Decidable (_ ∧ _))

/-- The time from which on the sender owns the address: a window and two intervals
after its start. -/
def settledAt (senderAt : Int × Int) : Int :=
  max senderAt.1 senderAt.2 + link.receiver.runtime.window + 2 * link.interval

/-- The address has no other owner than the sender, and has it once it is settled. -/
structure OneOwner (senderAt : Int × Int)
    (trace : List (Transition LinkState LinkInput Empty)) : Prop where
  waits : ∀ next ∈ trace, next.after.receiver.node.loopState.state ≠ .active
  owns : ∀ next ∈ trace, next.after.sender.phase.Looping →
    link.settledAt senderAt < next.after.time →
      next.after.sender.node.loopState.state = .active

/-! ## Steps of the two nodes -/

section Step

variable {link} {state after : LinkState} {input : RunInput}
variable {next : Transition LinkState LinkInput Empty}
variable {taken rest : List (Transition LinkState LinkInput Empty)}

/-- A step of the sender is taken at the reading of its clock. -/
theorem stepSender_eq_some (stepped : link.stepSender state input = some after) :
    OnTime state after.time ∧ after.time = input.reading.getD state.time ∧
      after.receiver = state.receiver ∧
      ∃ effects, link.sender.stepRun state.sender input = some (after.sender, effects) ∧
        after.attempts = state.attempts ++ (input.attempt effects).toList := by
  simp only [stepSender] at stepped
  split at stepped
  · next onTime =>
      rw [Option.map_eq_some_iff] at stepped
      rcases stepped with ⟨⟨sender, effects⟩, taken, equal⟩
      subst equal
      exact ⟨onTime, rfl, rfl, effects, taken, rfl⟩
  · cases stepped

/-- What the sender accepts was sent before. -/
theorem mem_of_reciprocal {sent : List Bytes} {datagram : Bytes}
    (reciprocal : link.Reciprocal sent (taken ++ next :: rest))
    (answers : link.answer next = some datagram) :
    datagram ∈ sent ++ taken.flatMap link.reply := by
  induction taken generalizing sent with
  | nil =>
      rw [List.flatMap_nil, List.append_nil]
      exact reciprocal.1 datagram answers
  | cons earlier taken ih =>
      rw [List.flatMap_cons, ← List.append_assoc]
      exact ih reciprocal.2

/-- What an attempt puts on the wire is an advertisement of the current state. -/
theorem encodes_of_attempt {process : HaProcess} {before following : RunState}
    {effects : List Effect} {attempt : Attempt} {datagram : Bytes}
    (taken : process.stepRun before input = some (following, effects))
    (attempted : input.attempt effects = some attempt)
    (carried : datagram ∈ attempt.datagram) :
    process.Encodes (· = before.node.loopState.state) datagram := by
  cases input with
  | event event =>
      cases event with
      | refresh now | receive recv observedAt => cases attempted
      | send sendTo scheduledAt publishedAt =>
          cases attempted
          have takes : process.runWithStatus.Takes ⟨before,
              .event (.send sendTo scheduledAt publishedAt), following, effects⟩ := taken
          rcases sent_of_takes takes (List.mem_of_mem_head? carried) with
            ⟨_, sequence, encoded⟩
          exact ⟨_, sequence, rfl, encoded⟩
  | shutdown | beginCleanup now | addressesRemoved | faultHookReturned => cases attempted

/-- Delivered attempts are received. -/
theorem receive_of_delivery {index : Nat} {source : SocketAddr} {observedAt : Int}
    (arrives : delivery state index source observedAt = some input) :
    ∃ attempt ∈ state.attempts, ∃ datagram, attempt.datagram = some datagram ∧
      input = .event (.receive (.ok (datagram, source)) observedAt) := by
  rcases delivery_eq_some arrives with ⟨attempt, datagram, found, taken, received⟩
  exact ⟨attempt, List.mem_of_getElem? found, datagram, taken, received⟩

theorem window_sender : (link.sender.runtime.window : Int) = link.receiver.runtime.window := by
  simp only [HaRuntimeConfig.window, link.advertIntervalMs, link.deadFactor,
    link.holdDownMs]

theorem intervalNanos_sender : link.sender.runtime.intervalNanos = link.interval := by
  rw [HaRuntimeConfig.intervalNanos, link.advertIntervalMs]
  rfl

end Step

/-! ## The attempts of the sender -/

section Schedule

variable {link} {senderAt receiverAt : Int × Int} {start : Int}
variable {taken trace rest : List (Transition LinkState LinkInput Empty)}
variable {next : Transition LinkState LinkInput Empty} {state final : LinkState}

/-- Every attempt comes within its interval, and carries an advertisement. -/
structure Attempts (link : Link) (senderAt : Int × Int) (state : LinkState) : Prop where
  attempted : ∀ index attempt, state.attempts[index]? = some attempt →
    attempt.sentAt ≤ senderAt.2 + (index + 1 : Nat) * link.interval
  due : state.sender.node.loopState.nextAdvertAt ≤
    senderAt.2 + (state.attempts.length + 1 : Nat) * link.interval
  carries : ∀ attempt ∈ state.attempts, ∀ datagram ∈ attempt.datagram,
    link.sender.Encodes (fun _ => True) datagram

theorem attempts_start : link.Attempts senderAt (link.start senderAt receiverAt start) := by
  refine ⟨?_, ?_, ?_⟩
  · intro index attempt found
    cases found
  · have := link.sender.runtime.nanos_nextAdvertDelay_le 1
    simp only [Link.start, startRun, startNode, initializeLoopState, Instant.add, interval,
      ← link.advertIntervalMs, List.length_nil]
    omega
  · intro attempt member
    cases member

theorem Attempts.step (nextTaken : link.machine.Takes next)
    (attempts : link.Attempts senderAt next.before) : link.Attempts senderAt next.after := by
  have onTime := onTime_of_takes nextTaken
  obtain ⟨input, _, stepped⟩ | ⟨_, stepped, _⟩ := moves_of_takes nextTaken
  · rcases stepSender_eq_some stepped with ⟨_, _, _, effects, taken, longer⟩
    obtain ⟨_, _, ⟨attempt, appended, now, due, later⟩ | ⟨same, kept⟩⟩ :=
      stepSender_cases stepped
    · have early : attempt.sentAt ≤
          senderAt.2 + (next.before.attempts.length + 1 : Nat) * link.interval := by
        rw [now]
        exact onTime.2.trans attempts.due
      refine ⟨?_, ?_, ?_⟩
      · intro index other found
        rw [appended] at found
        by_cases old : index < next.before.attempts.length
        · rw [List.getElem?_append_left old] at found
          exact attempts.attempted index other found
        · rw [List.getElem?_append_right (Nat.not_lt.mp old),
            List.getElem?_singleton] at found
          split at found
          · next atEnd =>
              cases found
              have : index = next.before.attempts.length := by omega
              rw [this]
              exact early
          · cases found
      · rw [appended, List.length_append, List.length_singleton]
        push_cast at early ⊢
        rw [Int.add_mul _ 1, Int.one_mul]
        omega
      · intro other member datagram carried
        rw [appended] at member longer
        rcases List.mem_append.mp member with earlier | isNew
        · exact attempts.carries other earlier datagram carried
        · cases List.mem_singleton.mp isNew
          have single := List.append_cancel_left longer
          cases attempted : input.attempt effects with
          | none =>
              rw [attempted] at single
              cases single
          | some made =>
              rw [attempted] at single
              cases single
              rcases encodes_of_attempt taken attempted carried with
                ⟨_, sequence, _, encoded⟩
              exact ⟨_, sequence, trivial, encoded⟩
    · exact ⟨same ▸ attempts.attempted, by rw [same, kept]; exact attempts.due,
        same ▸ attempts.carries⟩
  · obtain ⟨_, _, sender, same, _⟩ := stepReceiver_eq_some stepped
    exact ⟨same ▸ attempts.attempted, by rw [same, sender]; exact attempts.due,
      same ▸ attempts.carries⟩

end Schedule

/-! ## The receiver -/

section Receiver

variable {link : Link} {senderAt receiverAt : Int × Int} {start : Int}
variable {taken trace rest : List (Transition LinkState LinkInput Empty)}
variable {next : Transition LinkState LinkInput Empty} {state final : LinkState}

/-- What the receiver remembers of a sender it has heard is live at any step. -/
theorem live_of_heard
    (run : link.machine.Run (link.start senderAt receiverAt start)
      (taken ++ next :: rest) final)
    (tolerable : link.Tolerable (taken ++ next :: rest) final)
    (anyHeard : ∃ index time, link.Heard taken index time) :
    ∃ peer, next.before.receiver.node.loopState.peerObservation = some peer ∧
      peer.LiveAt link.receiver.runtime (next.after.time + link.offset) := by
  rcases exists_recent_of_tolerable run tolerable anyHeard with
    ⟨index, time, attempt, heard, found, recent⟩
  rcases run.split_at with ⟨before, _, _⟩
  rcases (inv_of_run before).2 index time heard with
    ⟨_, ⟨other, foundOther, sentBefore⟩, peer, observed, fresh⟩
  cases found.symm.trans foundOther
  refine ⟨peer, observed, ?_⟩
  have window := link.window_eq
  simp only [PeerObservation.LiveAt]
  omega

/-- Until the receiver hears the sender, the sender's first window is not over. -/
theorem early_of_unheard
    (run : link.machine.Run (link.start senderAt receiverAt start)
      (taken ++ next :: rest) final)
    (tolerable : link.Tolerable (taken ++ next :: rest) final)
    (attempts : link.Attempts senderAt next.before) (holdDown : 0 < link.holdDown)
    (unheard : ∀ index time, ¬link.Heard taken index time) :
    next.after.time < senderAt.2 + link.receiver.runtime.window := by
  rcases run.split_at with ⟨_, nextTaken, after⟩
  have onTime := onTime_of_takes nextTaken
  have interval : 0 ≤ link.interval := Int.natCast_nonneg _
  have within : ∀ count : Nat, count ≤ link.receiver.runtime.deadFactor.toNat →
      (count : Int) * link.interval ≤
        link.receiver.runtime.deadFactor.toNat * link.interval := by
    intro count few
    exact Int.mul_le_mul_of_nonneg_right (by omega) interval
  rw [link.window_eq]
  by_contra late
  rw [not_lt] at late
  by_cases room : link.receiver.runtime.deadFactor.toNat ≤ next.before.attempts.length
  · -- The first attempts are all old enough for one of them to have been heard.
    have old : ∀ attempt ∈ (next.before.attempts.drop 0).take
        link.receiver.runtime.deadFactor.toNat,
        attempt.sentAt + link.holdDown ≤ next.after.time := by
      intro attempt member
      rcases List.getElem?_of_mem member with ⟨index, found⟩
      rw [List.drop_zero, List.getElem?_take] at found
      split at found
      · next few =>
          have := attempts.attempted index attempt found
          have := within (index + 1) few
          omega
      · cases found
    rcases heard_of_block nextTaken after tolerable (by omega) old with
      ⟨index, _, _, time, heard⟩
    exact unheard index time heard
  · -- The next attempt is due before, and no step comes later than it.
    have := attempts.due
    have := onTime.2
    have := within (next.before.attempts.length + 1) (by omega)
    omega

/-- A node that waits, and observes nobody or the sender. -/
structure WaitsFor (link : Link) (receiverAt : Int × Int) (receiver : RunState) : Prop where
  startupAt : receiver.node.loopState.startupAt = receiverAt.1
  waits : receiver.node.loopState.state ≠ .active
  observes : ∀ peer ∈ receiver.node.loopState.peerObservation,
    Pair.ObservationOf link.sender.runtime peer

/-- Step lemma: a waiting node keeps waiting, as long as it refreshes before any
timeout and accepts advertisements of the sender only. -/
theorem WaitsFor.step {before after : RunState} {input : RunInput} {effects : List Effect}
    (waits : link.WaitsFor receiverAt before)
    (ranked : outranks link.sender.runtime.priority link.sender.runtime.nodeId
      link.receiver.runtime.priority link.receiver.runtime.nodeId = true)
    (taken : link.receiver.stepRun before input = some (after, effects))
    (refreshes : ∀ now, input = .event (.refresh now) →
      Pair.BeforeTimeout link.receiver.runtime before.node.loopState now)
    (genuine : ∀ packet observedAt, link.receiver.Accepts input packet observedAt →
      packet.nodeId = link.sender.runtime.nodeId ∧
        packet.priority = link.sender.runtime.priority) :
    link.WaitsFor receiverAt after := by
  have steps := steps_of_stepRun taken
  have startupAt := steps.startupAt_eq.trans waits.startupAt
  cases steps.evolves with
  | refreshed now input _ loopState =>
      have outranked : ∀ peer ∈ before.node.loopState.peerObservation,
          outranks link.receiver.runtime.priority link.receiver.runtime.nodeId
            peer.priority peer.nodeId = false := by
        intro peer observed
        rcases waits.observes peer observed with ⟨nodeId, priority⟩
        rw [nodeId, priority]
        exact outranks_asymm ranked
      refine ⟨startupAt, ?_, ?_⟩
      · rw [loopState, refreshed_state,
          refreshDecision_of_outranked waits.waits (refreshes now input) outranked]
        exact HaState.noConfusion
      · rw [loopState, refreshed_peerObservation]
        exact waits.observes
  | accepted packet observedAt accepts _ _ changed =>
      rcases changed with ⟨counters, loopState⟩
      rcases genuine packet observedAt accepts with ⟨nodeId, priority⟩
      refine ⟨startupAt, by rw [loopState]; exact waits.waits, ?_⟩
      intro peer observed
      rw [loopState] at observed
      cases observed
      exact ⟨nodeId, priority⟩
  | unchanged _ _ _ observation _ state =>
      refine ⟨startupAt, ?_, by rw [observation]; exact waits.observes⟩
      rcases state with same | init
      · rw [same]
        exact waits.waits
      · rw [init]
        exact HaState.noConfusion

/-- The receiver waits for the sender, has remembered nobody it has not heard, and
has never advertised that it owns the address. -/
structure Waits (link : Link) (receiverAt : Int × Int)
    (taken : List (Transition LinkState LinkInput Empty)) (state : LinkState) : Prop where
  receiver : link.WaitsFor receiverAt state.receiver
  unheard : (∀ index time, ¬link.Heard taken index time) →
    state.receiver.node.loopState.peerObservation = none
  replies : ∀ datagram ∈ taken.flatMap link.reply,
    link.receiver.Encodes (· ≠ .active) datagram

theorem waits_start : link.Waits receiverAt [] (link.start senderAt receiverAt start) := by
  refine ⟨⟨rfl, HaState.noConfusion, ?_⟩, fun _ => rfl, ?_⟩
  · intro peer observed
    cases observed
  · intro datagram member
    cases member

/-- Before a timeout: the receiver has heard the sender lately, or its own startup is
not a window ago. -/
theorem beforeTimeout_of_run
    (run : link.machine.Run (link.start senderAt receiverAt start)
      (taken ++ next :: rest) final)
    (tolerable : link.Tolerable (taken ++ next :: rest) final)
    (attempts : link.Attempts senderAt next.before) (holdDown : 0 < link.holdDown)
    (first : senderAt.2 + link.offset ≤ receiverAt.1)
    (waits : link.Waits receiverAt taken next.before) {now : Int}
    (clock : next.after.time = now - link.offset) :
    Pair.BeforeTimeout link.receiver.runtime next.before.receiver.node.loopState now := by
  by_cases anyHeard : ∃ index time, link.Heard taken index time
  · rcases live_of_heard run tolerable anyHeard with ⟨peer, observed, live⟩
    rw [Pair.BeforeTimeout, observed]
    rw [clock, Int.sub_add_cancel] at live
    exact live
  · have unheard : ∀ index time, ¬link.Heard taken index time :=
      fun index time heard => anyHeard ⟨index, time, heard⟩
    have early := early_of_unheard run tolerable attempts holdDown unheard
    rw [Pair.BeforeTimeout, waits.unheard unheard]
    simp only [waits.receiver.startupAt]
    omega

theorem heard_of_delivery {index : Nat} {source : SocketAddr} {observedAt : Int}
    {input : RunInput} {packet : HaPacket} {at_ : Int}
    (delivers : next.input = .deliver index source observedAt)
    (arrives : delivery next.before index source observedAt = some input)
    (accepts : link.receiver.Accepts input packet at_) :
    link.Heard [next] index (at_ - link.offset) := by
  have found : link.hearing next = some (index, at_ - link.offset) := by
    simp only [hearing, delivers, arrives, Option.bind_some,
      acceptance_of_accepts accepts, Option.map_some]
  simp [Heard, found]

/-- Step lemma for the receiver. -/
theorem Waits.concat
    (run : link.machine.Run (link.start senderAt receiverAt start)
      (taken ++ next :: rest) final)
    (tolerable : link.Tolerable (taken ++ next :: rest) final)
    (genuine : link.Genuine (taken ++ next :: rest))
    (ranked : outranks link.sender.runtime.priority link.sender.runtime.nodeId
      link.receiver.runtime.priority link.receiver.runtime.nodeId = true)
    (holdDown : 0 < link.holdDown) (first : senderAt.2 + link.offset ≤ receiverAt.1)
    (attempts : link.Attempts senderAt next.before)
    (waits : link.Waits receiverAt taken next.before) :
    link.Waits receiverAt (taken ++ [next]) next.after := by
  rcases run.split_at with ⟨_, nextTaken, _⟩
  obtain ⟨input, sends, stepped⟩ | ⟨input, stepped, receives | ⟨index, source, observedAt,
    delivers, arrives⟩⟩ := moves_of_takes nextTaken
  · rcases stepSender_eq_some stepped with ⟨_, _, same, _⟩
    refine ⟨by rw [same]; exact waits.receiver, ?_, ?_⟩
    · intro unheard
      rw [same]
      exact waits.unheard fun index time heard =>
        unheard index time (heard_append.mpr (.inl heard))
    · rw [List.flatMap_append, List.flatMap_singleton, reply, sends, List.append_nil]
      exact waits.replies
  · rcases stepReceiver_eq_some stepped with ⟨_, clock, _, _, effects, stepTaken⟩
    have refused := acceptance_eq_none.mp (genuine next (by simp) input receives)
    refine ⟨waits.receiver.step ranked stepTaken ?_ ?_, ?_, ?_⟩
    · rintro now rfl
      exact beforeTimeout_of_run run tolerable attempts holdDown first waits clock
    · intro packet observedAt accepts
      exact absurd accepts (refused packet observedAt)
    · intro unheard
      have nothing := waits.unheard fun index time heard =>
        unheard index time (heard_append.mpr (.inl heard))
      cases (steps_of_stepRun stepTaken).evolves with
      | refreshed now _ _ loopState =>
          rw [loopState, refreshed_peerObservation]
          exact nothing
      | accepted packet observedAt accepts => exact absurd accepts (refused _ _)
      | unchanged _ _ _ observation => exact observation.trans nothing
    · rw [List.flatMap_append, List.flatMap_singleton]
      intro datagram member
      rcases List.mem_append.mp member with earlier | now
      · exact waits.replies datagram earlier
      · rw [reply, receives] at now
        simp only [stepTaken, Option.map_some, Option.getD_some] at now
        have takes : link.receiver.runWithStatus.Takes ⟨next.before.receiver, input,
            next.after.receiver, effects⟩ := stepTaken
        rcases sent_of_takes takes now with ⟨_, sequence, encoded⟩
        exact ⟨_, sequence, waits.receiver.waits, encoded⟩
  · rcases stepReceiver_eq_some stepped with ⟨_, _, _, _, effects, stepTaken⟩
    rcases receive_of_delivery arrives with ⟨attempt, member, datagram, carried, received⟩
    have encodes := attempts.carries attempt member datagram carried
    refine ⟨waits.receiver.step ranked stepTaken ?_ ?_, ?_, ?_⟩
    · rintro now rfl
      cases received
    · rintro packet at_ accepts
      rw [received] at accepts
      exact (encodes.accepted accepts).2.2
    · intro unheard
      have nothing := waits.unheard fun index time heard =>
        unheard index time (heard_append.mpr (.inl heard))
      cases (steps_of_stepRun stepTaken).evolves with
      | refreshed now input =>
          rw [received] at input
          cases input
      | accepted packet at_ accepts =>
          have heard := heard_of_delivery delivers arrives accepts
          exact absurd (heard_append.mpr (.inr heard)) (unheard _ _)
      | unchanged _ _ _ observation => exact observation.trans nothing
    · rw [List.flatMap_append, List.flatMap_singleton, reply, delivers, List.append_nil]
      exact waits.replies

end Receiver

/-! ## The sender -/

section Sender

variable {link : Link} {senderAt receiverAt : Int × Int} {start : Int}
variable {taken trace rest : List (Transition LinkState LinkInput Empty)}
variable {next : Transition LinkState LinkInput Empty} {state final : LinkState}

/-- A node that observes nobody or a waiting peer it outranks owns the address, once
its startup is a window ago. -/
theorem refreshDecision_of_passive {runtime : HaRuntimeConfig} {loopState : HaLoopState}
    {now : Int}
    (passive : ∀ peer ∈ loopState.peerObservation, peer.state ≠ .active ∧
      outranks runtime.priority runtime.nodeId peer.priority peer.nodeId = true)
    (late : loopState.startupAt + runtime.window ≤ now) :
    (refreshDecision runtime loopState now).state = .active := by
  rw [refreshDecision]
  cases observed : loopState.peerObservation with
  | none =>
      rw [desiredState_none]
      split_ifs <;> rfl
  | some peer =>
      rcases passive peer observed with ⟨waits, outranked⟩
      by_cases live : peer.LiveAt runtime now
      · rw [desiredState_passivePeer live waits, if_pos outranked]
        split <;> rfl
      · rw [desiredState_expired live]

/-- The time at which the sender's first window is over. -/
def firstWindow (link : Link) (senderAt : Int × Int) : Int :=
  max senderAt.1 senderAt.2 + link.receiver.runtime.window

/-- The sender observes nobody or a waiting receiver, and from its first window on
every refresh makes it the owner. -/
structure Settles (link : Link) (senderAt : Int × Int) (sender : RunState) : Prop where
  startupAt : sender.node.loopState.startupAt = senderAt.1
  passive : ∀ peer ∈ sender.node.loopState.peerObservation, peer.state ≠ .active ∧
    Pair.ObservationOf link.receiver.runtime peer
  armed : sender.node.loopState.nextAdvertAt ≤ sender.node.clock + link.interval
  selecting : sender.phase = .selecting →
    sender.node.clock < link.firstWindow senderAt ∨
      sender.node.loopState.state = .active
  refreshing : sender.phase = .refreshing →
    sender.node.loopState.nextAdvertAt ≤
        link.firstWindow senderAt + 2 * link.interval ∨
      sender.node.loopState.state = .active

theorem settles_start :
    link.Settles senderAt (link.sender.startRun senderAt.1 senderAt.2) := by
  have interval : 0 ≤ link.interval := Int.natCast_nonneg _
  have delay : (link.sender.startRun senderAt.1 senderAt.2).node.loopState.nextAdvertAt ≤
      senderAt.2 + link.interval := by
    have := link.sender.runtime.nanos_nextAdvertDelay_le 1
    simp only [startRun, startNode, initializeLoopState, Instant.add, Link.interval,
      ← link.advertIntervalMs]
    omega
  refine ⟨rfl, ?_, ?_, ?_, ?_⟩
  · intro peer observed
    cases observed
  · refine delay.trans ?_
    simp only [startRun, startNode]
    omega
  · intro phase
    cases phase
  · intro _
    left
    simp only [firstWindow]
    omega

/-- Step lemma: whatever a sender accepts of a receiver that waits, it settles. -/
theorem Settles.step {before after : RunState} {input : RunInput} {effects : List Effect}
    (settles : link.Settles senderAt before)
    (ranked : outranks link.sender.runtime.priority link.sender.runtime.nodeId
      link.receiver.runtime.priority link.receiver.runtime.nodeId = true)
    (taken : link.sender.stepRun before input = some (after, effects))
    (onTime : ∀ time ∈ input.reading, time ≤ before.node.loopState.nextAdvertAt)
    (answered : ∀ packet observedAt, link.sender.Accepts input packet observedAt →
      packet.state ≠ .active ∧ packet.nodeId = link.receiver.runtime.nodeId ∧
        packet.priority = link.receiver.runtime.priority) :
    link.Settles senderAt after := by
  have steps := steps_of_stepRun taken
  have interval : 0 ≤ link.interval := Int.natCast_nonneg _
  have armed := settles.armed
  refine ⟨steps.startupAt_eq.trans settles.startupAt, ?_, ?_, ?_, ?_⟩
  · cases steps.evolves with
    | refreshed now _ _ loopState =>
        rw [loopState, refreshed_peerObservation]
        exact settles.passive
    | accepted packet observedAt accepts _ _ changed =>
        rcases changed with ⟨counters, loopState⟩
        rcases answered packet observedAt accepts with ⟨waits, nodeId, priority⟩
        intro peer observed
        rw [loopState] at observed
        cases observed
        exact ⟨waits, nodeId, priority⟩
    | unchanged _ _ _ observation =>
        rw [observation]
        exact settles.passive
  · rw [← intervalNanos_sender] at armed ⊢
    exact nextAdvertAt_le_of_steps steps armed
  · intro selecting
    rcases looping_of_steps steps (.inr selecting) with refreshing | wasSelecting
    · -- The refresh at which the first window is over, or has been over.
      rcases refresh_of_refreshing steps refreshing with ⟨now, _, _, _, clock, decided⟩
      by_cases late : link.firstWindow senderAt ≤ now
      · right
        rw [decided]
        apply refreshDecision_of_passive
        · intro peer observed
          rcases settles.passive peer observed with ⟨waits, nodeId, priority⟩
          rw [nodeId, priority]
          exact ⟨waits, ranked⟩
        · rw [settles.startupAt, window_sender]
          simp only [firstWindow] at late
          omega
      · left
        omega
    · cases (handled_of_selecting steps wasSelecting (.inr selecting)).1.symm.trans selecting
  · intro refreshing
    rcases looping_of_steps steps (.inl refreshing) with wasRefreshing | selecting
    · rcases refresh_of_refreshing steps wasRefreshing with ⟨_, _, phase, _⟩
      cases phase.symm.trans refreshing
    · have kept := (handled_of_selecting steps selecting (.inl refreshing)).2
      rcases settles.selecting selecting with waiting | active
      · -- The timer was set in the first window, and is set once more.
        left
        rcases nextAdvertAt_of_steps steps with
          ⟨attempt, _, reading, _, later | same⟩ | ⟨_, same⟩
        · have := onTime attempt.sentAt reading
          have interval : link.sender.runtime.intervalNanos = link.interval :=
            intervalNanos_sender
          rw [HaRuntimeConfig.intervalNanos] at interval
          omega
        · omega
        · omega
      · exact .inr (kept.trans active)

/-- No step of the link comes later than the sender's next attempt. -/
theorem time_le_nextAdvertAt (nextTaken : link.machine.Takes next) :
    next.after.time ≤ next.after.sender.node.loopState.nextAdvertAt := by
  have onTime := (onTime_of_takes nextTaken).2
  obtain ⟨input, _, stepped⟩ | ⟨_, stepped, _⟩ := moves_of_takes nextTaken
  · rcases stepSender_eq_some stepped with ⟨_, _, _, effects, stepTaken, _⟩
    have later : next.before.sender.node.loopState.nextAdvertAt ≤
        next.after.sender.node.loopState.nextAdvertAt := by
      rcases sends_of_steps (steps_of_stepRun stepTaken) with
        ⟨_, sentAt, _, _, _, due, armed⟩ | ⟨_, same | ⟨sentAt, _, due, armed⟩⟩
      · rw [armed, Instant.add]
        omega
      · exact same.ge
      · rw [armed, Instant.add]
        omega
    exact onTime.trans later
  · rw [(stepReceiver_eq_some stepped).2.2.1]
    exact onTime

/-- Step lemma for the sender. -/
theorem Settles.concat (nextTaken : link.machine.Takes next)
    (reciprocal : link.Reciprocal [] (taken ++ next :: rest))
    (ranked : outranks link.sender.runtime.priority link.sender.runtime.nodeId
      link.receiver.runtime.priority link.receiver.runtime.nodeId = true)
    (waits : link.Waits receiverAt taken next.before)
    (settles : link.Settles senderAt next.before.sender) :
    link.Settles senderAt next.after.sender := by
  have onTime := onTime_of_takes nextTaken
  obtain ⟨input, sends, stepped⟩ | ⟨_, stepped, _⟩ := moves_of_takes nextTaken
  · rcases stepSender_eq_some stepped with ⟨_, time, _, effects, stepTaken, _⟩
    apply settles.step ranked stepTaken
    · intro reading isReading
      rw [time, isReading] at onTime
      exact onTime.2
    · intro packet observedAt accepts
      have recorded := acceptance_of_accepts accepts
      rcases id accepts with ⟨datagram, source, rfl, _⟩
      have answers : link.answer next = some datagram := by
        simp only [answer, sends, recorded, Option.map_some]
      have sent := mem_of_reciprocal reciprocal answers
      rw [List.nil_append] at sent
      exact ((waits.replies datagram sent).accepted accepts).2
  · rw [(stepReceiver_eq_some stepped).2.2.1]
    exact settles

end Sender

/-! ## Along a run -/

section Run

variable {link : Link} {senderAt receiverAt : Int × Int} {start : Int}
variable {taken trace rest : List (Transition LinkState LinkInput Empty)}
variable {next : Transition LinkState LinkInput Empty} {final : LinkState}

/-- Run lemma: after every step the receiver waits and the sender settles. -/
theorem waits_and_settles
    (ranked : outranks link.sender.runtime.priority link.sender.runtime.nodeId
      link.receiver.runtime.priority link.receiver.runtime.nodeId = true)
    (holdDown : 0 < link.holdDown) (first : senderAt.2 + link.offset ≤ receiverAt.1)
    (run : link.machine.Run (link.start senderAt receiverAt start) trace final)
    (tolerable : link.Tolerable trace final) (genuine : link.Genuine trace)
    (reciprocal : link.Reciprocal [] trace) (member : next ∈ trace) :
    link.machine.Takes next ∧ next.after.receiver.node.loopState.state ≠ .active ∧
      link.Settles senderAt next.after.sender := by
  rcases List.append_of_mem member with ⟨taken, rest, split⟩
  rcases (split ▸ run).split_at with ⟨before, nextTaken, after⟩
  have holds := run.prefix_induction (motive := fun taken state =>
    link.Attempts senderAt state ∧ link.Waits receiverAt taken state ∧
      link.Settles senderAt state.sender)
    ⟨attempts_start, waits_start, settles_start⟩ ?_
    (by rw [split, List.append_assoc]; rfl) (before.concat nextTaken) after
  · exact ⟨nextTaken, holds.2.1.receiver.waits, holds.2.2⟩
  · rintro taken next rest rfl _ nextTaken _ ⟨attempts, waits, settles⟩
    exact ⟨attempts.step nextTaken,
      waits.concat run tolerable genuine ranked holdDown first attempts,
      settles.concat nextTaken reciprocal ranked waits⟩

/-- A sender that has settled owns the address, as long as it is in its loop. -/
theorem Settles.owns (settles : link.Settles senderAt next.after.sender)
    (nextTaken : link.machine.Takes next) (looping : next.after.sender.phase.Looping)
    (late : link.settledAt senderAt < next.after.time) :
    next.after.sender.node.loopState.state = .active := by
  have due := time_le_nextAdvertAt nextTaken
  have interval : 0 ≤ link.interval := Int.natCast_nonneg _
  have armed := settles.armed
  simp only [settledAt] at late
  rcases looping with refreshing | selecting
  · apply (settles.refreshing refreshing).resolve_left
    simp only [firstWindow]
    omega
  · apply (settles.selecting selecting).resolve_left
    simp only [firstWindow]
    omega

end Run

/-- One owner: next to a sender of higher rank that starts first and gets through, the
receiver never owns the address; and the sender owns it from a window and two
intervals after its start on, as long as it runs. -/
theorem oneOwner_of_run (link : Link)
    (ranked : outranks link.sender.runtime.priority link.sender.runtime.nodeId
      link.receiver.runtime.priority link.receiver.runtime.nodeId = true)
    (holdDown : 0 < link.holdDown) (senderAt receiverAt : Int × Int)
    (first : senderAt.2 + link.offset ≤ receiverAt.1) (start : Int)
    (trace : List (Transition LinkState LinkInput Empty)) (final : LinkState)
    (run : link.machine.Run (link.start senderAt receiverAt start) trace final)
    (tolerable : link.Tolerable trace final) (genuine : link.Genuine trace)
    (reciprocal : link.Reciprocal [] trace) : link.OneOwner senderAt trace := by
  have holds : ∀ next ∈ trace, link.machine.Takes next ∧
      next.after.receiver.node.loopState.state ≠ .active ∧
        link.Settles senderAt next.after.sender :=
    fun _ => waits_and_settles ranked holdDown first run tolerable genuine reciprocal
  constructor
  case waits => exact fun next member => (holds next member).2.1
  case owns =>
    intro next member looping late
    rcases holds next member with ⟨nextTaken, _, settles⟩
    exact settles.owns nextTaken looping late

/-- Bounded losses, read off the list of what was heard. -/
theorem tolerable_of_hearing {link : Link}
    {trace : List (Transition LinkState LinkInput Empty)} {final : LinkState}
    (losses : ∀ first < final.attempts.length + 1,
      first + link.receiver.runtime.deadFactor.toNat ≤ final.attempts.length →
      (∀ attempt ∈
        (final.attempts.drop first).take link.receiver.runtime.deadFactor.toNat,
        attempt.sentAt + link.holdDown ≤ final.time) →
      ∃ heard ∈ trace.filterMap link.hearing, first ≤ heard.1 ∧
        heard.1 < first + link.receiver.runtime.deadFactor.toNat)
    (prompt : ∀ heard ∈ trace.filterMap link.hearing,
      ∀ attempt ∈ final.attempts[heard.1]?, heard.2 < attempt.sentAt + link.holdDown) :
    link.Tolerable trace final := by
  constructor
  · intro first room old
    rcases losses first (by omega) room old with ⟨⟨index, time⟩, heard, lower, upper⟩
    exact ⟨index, time, lower, upper, heard⟩
  · intro index time attempt heard found
    exact prompt (index, time) heard attempt found

/-- Genuine traffic, read off the inputs. -/
theorem genuine_of_refused {link : Link}
    {trace : List (Transition LinkState LinkInput Empty)}
    (refused : ∀ next ∈ trace, (match next.input with
      | .receiver input => link.receiver.acceptance input
      | .sender _ | .deliver _ _ _ => none) = none) : link.Genuine trace := by
  intro next member input receives
  have nothing := refused next member
  rw [receives] at nothing
  exact nothing

end Link

/-! ## A pair on a lossy link -/

/-- The receiver is heard once, and the first and the fourth of six attempts arrive. -/
def ownerTrace : List (Transition LinkState LinkInput Empty) :=
  let reply := advertisement lossyLink.receiver.hasher lossyLink.receiver.runtime .standby 1
  lossyLink.machine.record (lossyLink.start (0, 0) (7, 7) 0) [
    .sender (.event (.refresh 0)),
    .receiver (.event (.refresh 7)),
    .sender (.event (.send (.ok ()) 1000000000 1000000000)),
    .receiver (.event (.send (.ok ()) 1000000007 1000000007)),
    .sender (.event (.refresh 1000000000)),
    .receiver (.event (.refresh 1000000007)),
    .sender (.event (.receive (.ok (reply.wire, demoAddr)) 1100000000)),
    .sender (.event (.refresh 1100000000)),
    .deliver 0 demoAddr 1200000007,
    .receiver (.event (.refresh 1200000007)),
    .sender (.event (.send (.ok ()) 2000000000 2000000000)),
    .sender (.event (.refresh 2000000000)),
    .sender (.event (.send (.ok ()) 3000000000 3000000000)),
    .sender (.event (.refresh 3000000000)),
    .sender (.event (.send (.ok ()) 4000000000 4000000000)),
    .sender (.event (.refresh 4000000000)),
    .deliver 3 demoAddr 4400000007,
    .receiver (.event (.refresh 4400000007)),
    .sender (.event (.send (.ok ()) 5000000000 5000000000)),
    .sender (.event (.refresh 5000000000)),
    .sender (.event (.send (.ok ()) 6000000000 6000000000)),
    .sender (.event (.refresh 6000000000))]

def ownerFinal : LinkState :=
  Machine.finalState (lossyLink.start (0, 0) (7, 7) 0) ownerTrace

theorem owner_tolerable : lossyLink.Tolerable ownerTrace ownerFinal :=
  Link.tolerable_of_hearing (by decide +kernel) (by decide +kernel)

theorem owner_genuine : lossyLink.Genuine ownerTrace :=
  Link.genuine_of_refused (by decide +kernel)

theorem oneOwner_of_run_demo :
    lossyLink.OneOwner (0, 0) ownerTrace ∧
      lossyLink.settledAt (0, 0) < ownerFinal.time :=
  ⟨lossyLink.oneOwner_of_run (by decide) (by decide +kernel) (0, 0) (7, 7) (by decide) 0
      ownerTrace ownerFinal (Machine.run_record _ (by decide +kernel)) owner_tolerable
      owner_genuine (by decide +kernel),
    by decide +kernel⟩

end Gruezi.Ha
