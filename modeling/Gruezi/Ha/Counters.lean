import Gruezi.Ha.ErrorTexts
import Gruezi.Ha.Reception
import Gruezi.Ha.SideEffects

/-!
# The status counters

The counters of a run, compared with the traffic of the run.  Without overflow
they are exact, except that a packet of a foreign group is also counted under
the text its group name contains.
-/

namespace Gruezi.Ha

open Rust Lib HaProcess

/-! ## The traffic -/

namespace RunInput

/-- The socket has answered. -/
def isSocketEvent : RunInput → Bool
  | .event (.receive _ _) | .event (.send _ _ _) => true
  | .event (.refresh _) | .shutdown | .beginCleanup _ | .addressesRemoved
  | .faultHookReturned => false

/-- The datagram that has arrived. -/
def datagram : RunInput → Option Bytes
  | .event (.receive (.ok (datagram, _)) _) => some datagram
  | .event (.receive (.error _) _) | .event (.send _ _ _) | .event (.refresh _)
  | .shutdown | .beginCleanup _ | .addressesRemoved | .faultHookReturned => none

/-- A datagram has arrived that decodes to a packet with the property. -/
def brings (input : RunInput) (property : HaPacket → Bool) : Bool :=
  input.datagram.any fun datagram =>
    match HaPacket.decode datagram with
    | .ok packet => property packet
    | .error _ => false

end RunInput

namespace HaProcess

variable (process : HaProcess)

def acceptsDatagram (input : RunInput) : Bool :=
  input.brings fun packet => packet.AcceptedBy process.hasher process.runtime

def rejectsDatagram (input : RunInput) : Bool :=
  input.datagram.isSome && !process.acceptsDatagram input

def failsAuth (input : RunInput) : Bool :=
  input.brings fun packet => packet.failsAuth process.hasher process.runtime

def duplicatesNodeId (input : RunInput) : Bool :=
  input.brings fun packet => packet.duplicatesNodeId process.runtime

/-- The group name of an arriving packet is taken for a text of the node's own. -/
def misleads (pattern : String) (input : RunInput) : Bool :=
  input.brings fun packet => packet.misleads process.runtime pattern

end HaProcess

/-- How many inputs of the run have the property. -/
def inputCount (trace : List (Transition RunState RunInput Effect))
    (property : RunInput → Bool) : Nat :=
  trace.countP fun transition => property transition.input

/-- The counters of the loop state say what the traffic of the run was. -/
structure ExactCounters (process : HaProcess)
    (trace : List (Transition RunState RunInput Effect)) (loopState : HaLoopState) :
    Prop where
  packetsSent : loopState.counters.packetsSent = loopState.sequence
  sequence : loopState.sequence.toNat = (sentDatagrams (effectsOf trace)).length
  numbered : ∀ (index : Nat) (datagram : Bytes),
    (sentDatagrams (effectsOf trace))[index]? = some datagram →
      ∃ packet, HaPacket.decode datagram = .ok packet ∧
        packet.sequence.toNat = index + 1
  packetsReceived :
    loopState.counters.packetsReceived.toNat = inputCount trace process.acceptsDatagram
  invalidPackets :
    loopState.counters.invalidPackets.toNat = inputCount trace process.rejectsDatagram
  authFailures :
    loopState.counters.authFailures.toNat = inputCount trace process.failsAuth
  duplicateNodeIdPackets :
    loopState.counters.duplicateNodeIdPackets.toNat =
      inputCount trace process.duplicatesNodeId
  classified :
    loopState.counters.authFailures.toNat +
        loopState.counters.duplicateNodeIdPackets.toNat ≤
      loopState.counters.invalidPackets.toNat

/-! ## One step -/

/-- A counter after an input that is, or is not, one of those it counts. -/
def tick (counts : Bool) (counter : UInt64) : UInt64 :=
  if counts then saturatingAdd counter 1 else counter

theorem toNat_tick {counter : UInt64} (counts : Bool) (small : counter.toNat < 2 ^ 64 - 1) :
    (tick counts counter).toNat = counter.toNat + if counts then 1 else 0 := by
  cases counts with
  | false => rfl
  | true =>
      have fits : counter.toNat + (1 : UInt64).toNat < 2 ^ 64 := by
        change counter.toNat + 1 < 2 ^ 64
        omega
      simp only [tick, if_true, saturatingAdd, if_pos fits]
      rw [UInt64.toNat_add, Nat.mod_eq_of_lt fits]
      rfl

section Brings

variable {input : RunInput} {datagram : Bytes} {property : HaPacket → Bool}
variable {packet : HaPacket} {process : HaProcess}

theorem brings_of_decoded (arrives : input.datagram = some datagram)
    (decoded : HaPacket.decode datagram = .ok packet) :
    input.brings property = property packet := by
  rw [RunInput.brings, arrives, Option.any_some, decoded]

theorem brings_of_undecoded {error : Error} (arrives : input.datagram = some datagram)
    (undecoded : HaPacket.decode datagram = .error error) :
    input.brings property = false := by
  rw [RunInput.brings, arrives, Option.any_some, undecoded]

theorem brings_of_none (nothing : input.datagram = none) :
    input.brings property = false := by
  rw [RunInput.brings, nothing, Option.any_none]

theorem exists_of_brings (found : input.brings property = true) :
    ∃ datagram packet, input.datagram = some datagram ∧
      HaPacket.decode datagram = .ok packet ∧ property packet = true := by
  cases arrives : input.datagram with
  | none => cases (brings_of_none arrives).symm.trans found
  | some datagram =>
      cases decoded : HaPacket.decode datagram with
      | error error => cases (brings_of_undecoded arrives decoded).symm.trans found
      | ok packet =>
          exact ⟨datagram, packet, rfl, decoded,
            (brings_of_decoded arrives decoded).symm.trans found⟩

theorem isSocketEvent_of_datagram (arrives : input.datagram.isSome = true) :
    input.isSocketEvent = true := by
  unfold RunInput.datagram at arrives
  split at arrives <;> first | rfl | cases arrives

theorem isSome_of_brings (found : input.brings property = true) :
    input.datagram.isSome = true := by
  rcases exists_of_brings found with ⟨datagram, _, arrives, _⟩
  rw [arrives]
  rfl

/-- A datagram decodes like what of it fits in the buffer. -/
theorem decode_take {datagram : Bytes} {packet : HaPacket} :
    HaPacket.decode (datagram.take 1024) = .ok packet ↔
      HaPacket.decode datagram = .ok packet := by
  rw [decode_take_iff, HaPacket.encode_eq_ok_iff, HaPacket.decode_eq_ok_iff]

end Brings

/-- What one input does to the counters and the sequence number. -/
structure Counted (process : HaProcess) (input : RunInput)
    (before after : HaLoopState) (output : List Effect) : Prop where
  packetsReceived : after.counters.packetsReceived =
    tick (process.acceptsDatagram input) before.counters.packetsReceived
  invalidPackets : after.counters.invalidPackets =
    tick (process.rejectsDatagram input) before.counters.invalidPackets
  authFailures : after.counters.authFailures =
    tick (process.failsAuth input || process.misleads "authentication failed" input)
      before.counters.authFailures
  duplicateNodeIdPackets : after.counters.duplicateNodeIdPackets =
    tick (process.duplicatesNodeId input || process.misleads "duplicate node.id" input)
      before.counters.duplicateNodeIdPackets
  sent :
    (sentDatagrams output = [] ∧ after.sequence = before.sequence ∧
      after.counters.packetsSent = before.counters.packetsSent) ∨
    (input.isSocketEvent = true ∧
      after.sequence = saturatingAdd before.sequence 1 ∧
      after.counters.packetsSent = saturatingAdd before.counters.packetsSent 1 ∧
      ∃ datagram packet, sentDatagrams output = [datagram] ∧
        HaPacket.decode datagram = .ok packet ∧ packet.sequence = after.sequence)

section Step

variable {process : HaProcess} {input : RunInput} {before after : HaLoopState}
variable {output : List Effect}

/-- Without a datagram arriving or leaving, everything stays. -/
theorem counted_of_idle (nothing : input.datagram = none)
    (silent : sentDatagrams output = []) (counters : after.counters = before.counters)
    (sequence : after.sequence = before.sequence) :
    Counted process input before after output := by
  have idle : ∀ property, input.brings property = false := fun _ => brings_of_none nothing
  have notRejected : process.rejectsDatagram input = false := by
    rw [rejectsDatagram, nothing]
    rfl
  constructor
  case sent => exact .inl ⟨silent, sequence, by rw [counters]⟩
  case invalidPackets =>
    rw [notRejected, counters]
    rfl
  case packetsReceived =>
    rw [acceptsDatagram, idle, counters]
    rfl
  all_goals
    simp only [failsAuth, duplicatesNodeId, misleads, idle, counters]
    rfl

/-- A counter of the loop state after a rejection. -/
theorem counted_of_rejected {error : Error} {datagram : Bytes}
    (arrives : input.datagram = some datagram)
    (refused : process.acceptsDatagram input = false)
    (silent : sentDatagrams output = [])
    (auth : isAuthFailure error =
      (process.failsAuth input || process.misleads "authentication failed" input))
    (duplicate : isDuplicateNodeIdFailure error =
      (process.duplicatesNodeId input || process.misleads "duplicate node.id" input))
    (changed : after = { before with counters := before.counters.reject error }) :
    Counted process input before after output := by
  have rejected : process.rejectsDatagram input = true := by
    rw [rejectsDatagram, arrives, refused]
    rfl
  subst changed
  constructor
  case sent => exact .inl ⟨silent, rfl, rfl⟩
  case packetsReceived => rw [refused]; rfl
  case invalidPackets => rw [rejected]; rfl
  case authFailures => rw [← auth]; rfl
  case duplicateNodeIdPackets => rw [← duplicate]; rfl

/-- A packet that is accepted is none of those counted as failures. -/
theorem counted_of_accepted {datagram : Bytes} {packet : HaPacket}
    {peerObservation : Option PeerObservation}
    (arrives : input.datagram = some datagram)
    (decoded : HaPacket.decode datagram = .ok packet)
    (accepted : packet.AcceptedBy process.hasher process.runtime)
    (silent : sentDatagrams output = [])
    (changed : after = { before with
      peerObservation
      counters := before.counters.accept }) :
    Counted process input before after output := by
  have accepts : process.acceptsDatagram input = true :=
    (brings_of_decoded arrives decoded).trans (decide_eq_true accepted)
  have notRejected : process.rejectsDatagram input = false := by
    rw [rejectsDatagram, accepts, Bool.not_true, Bool.and_false]
  have verified : process.failsAuth input = false := by
    rw [HaProcess.failsAuth, brings_of_decoded arrives decoded, HaPacket.failsAuth,
      accepted.tagVerifies, Bool.not_true, Bool.and_false]
  have foreign : process.duplicatesNodeId input = false := by
    rw [HaProcess.duplicatesNodeId, brings_of_decoded arrives decoded,
      HaPacket.duplicatesNodeId, beq_false_of_ne accepted.nodeId, Bool.and_false]
  have honest : ∀ pattern, process.misleads pattern input = false := by
    intro pattern
    rw [HaProcess.misleads, brings_of_decoded arrives decoded, HaPacket.misleads,
      accepted.groupId, bne_self_eq_false, Bool.and_false, Bool.false_and]
  subst changed
  constructor
  case sent => exact .inl ⟨silent, rfl, rfl⟩
  case packetsReceived => rw [accepts]; rfl
  case invalidPackets => rw [notRejected]; rfl
  case authFailures => rw [verified, honest]; rfl
  case duplicateNodeIdPackets => rw [foreign, honest]; rfl

/-- A datagram that arrives is classified by what it decodes to. -/
theorem counted_of_received {statusTx : Bool} {loopState : HaLoopState}
    {buffer : Buffer} {datagram : Bytes} {sender : SocketAddr} {observedAt : Int}
    (arrives : input.datagram = some datagram) :
    Counted process input loopState
      (receiveDatagram process.hasher process.runtime statusTx loopState buffer datagram
        sender observedAt).loopState
      (receiveDatagram process.hasher process.runtime statusTx loopState buffer datagram
        sender observedAt).effects := by
  have silent : sentDatagrams (receiveDatagram process.hasher process.runtime statusTx
      loopState buffer datagram sender observedAt).effects = [] := sentDatagrams_receive
  cases decoded : HaPacket.decode (datagram.take 1024) with
  | error error =>
      have undecoded : ∀ property, input.brings property = false := by
        intro property
        by_contra found
        rcases exists_of_brings (Bool.not_eq_false _ ▸ found) with
          ⟨other, packet, arrivesToo, decodes, _⟩
        cases arrives.symm.trans arrivesToo
        cases decoded.symm.trans (decode_take.mpr decodes)
      rcases handleIncomingPacket_undecoded process.hasher process.runtime sender
        observedAt loopState.peerObservation decoded with ⟨handled, unclassified⟩
      apply counted_of_rejected arrives (undecoded _) silent _ _
        (receiveDatagram_error handled).2
      · rw [unclassified.notAuth, HaProcess.failsAuth, HaProcess.misleads, undecoded,
          undecoded, Bool.or_false]
      · rw [unclassified.notDuplicate, HaProcess.duplicatesNodeId, HaProcess.misleads,
          undecoded, undecoded, Bool.or_false]
  | ok packet =>
      have decodes := decode_take.mp decoded
      by_cases accepted : packet.AcceptedBy process.hasher process.runtime
      · have handled : handleIncomingPacket process.hasher process.runtime
            (datagram.take 1024) sender observedAt loopState.peerObservation =
              .ok (packet.observed loopState.peerObservation observedAt) :=
          handleIncomingPacket_eq_ok.mpr ⟨packet, decoded, accepted, rfl⟩
        exact counted_of_accepted arrives decodes accepted silent
          (receiveDatagram_ok handled).2
      · rcases handleIncomingPacket_refused sender observedAt loopState.peerObservation
          decoded accepted with ⟨error, handled, classified⟩
        apply counted_of_rejected arrives _ silent _ _ (receiveDatagram_error handled).2
        · exact (brings_of_decoded arrives decodes).trans (decide_eq_false accepted)
        · rw [classified.auth, HaProcess.failsAuth, HaProcess.misleads,
            brings_of_decoded arrives decodes, brings_of_decoded arrives decodes]
        · rw [classified.duplicate, HaProcess.duplicatesNodeId, HaProcess.misleads,
            brings_of_decoded arrives decodes, brings_of_decoded arrives decodes]

/-- A send that succeeds carries the next sequence number; one that fails counts
nothing. -/
theorem counted_of_sent {statusTx : Bool} {loopState : HaLoopState}
    {sendTo : Except IoError Unit} {scheduledAt publishedAt : Int} :
    Counted process (.event (.send sendTo scheduledAt publishedAt)) loopState
      (handleSendEvent process.hasher process.runtime process.peerAddr statusTx loopState
        sendTo scheduledAt publishedAt).loopState
      (handleSendEvent process.hasher process.runtime process.peerAddr statusTx loopState
        sendTo scheduledAt publishedAt).effects := by
  simp only [handleSendEvent]
  cases sent : sendAdvertisement process.hasher process.runtime process.peerAddr
      loopState.state loopState.sequence sendTo with
  | error error =>
      simp only
      split
      · exact counted_of_idle rfl sentDatagrams_publish rfl rfl
      · exact counted_of_idle rfl rfl rfl rfl
  | ok sentPair =>
      rcases sentPair with ⟨next, datagram⟩
      obtain ⟨rfl, rfl, packet, built, encodes⟩ := sendAdvertisement_eq_ok.mp sent
      rcases buildPacket_eq_ok.mp built with ⟨_, rfl⟩
      constructor
      case sent =>
        refine .inr ⟨rfl, rfl, rfl, datagram, _, ?_,
          HaPacket.decode_eq_ok_iff.mpr (HaPacket.encode_eq_ok_iff.mp encodes), rfl⟩
        simp only [sentDatagrams, List.filterMap_append]
        exact congrArg ([datagram] ++ ·) sentDatagrams_publish
      all_goals rfl

theorem counted_of_handle {node : Node} {event : NodeEvent} {handled : Handled}
    (handles : process.handle node event = some handled) :
    Counted process (.event event) node.loopState handled.node.loopState
      handled.effects := by
  cases event with
  | refresh now =>
      rcases handle_refresh handles with ⟨_, _, _, loopState, effects⟩
      rw [loopState, effects]
      exact counted_of_idle rfl sentDatagrams_refresh (refreshed_counters ..)
        (refreshed_sequence ..)
  | receive recv observedAt =>
      simp only [handle] at handles
      split at handles
      · cases handles
        cases recv with
        | error error =>
            refine counted_of_idle rfl sentDatagrams_receive ?_ ?_ <;>
              simp only [handleReceiveEvent] <;> split <;> rfl
        | ok received =>
            exact counted_of_received rfl
      · cases handles
  | send sendTo scheduledAt publishedAt =>
      simp only [handle] at handles
      split at handles
      · cases handles
        exact counted_of_sent
      · cases handles

/-- Step lemma: only the events the loop selects between count anything. -/
theorem counted_of_takes {transition : Transition RunState RunInput Effect}
    (taken : process.runWithStatus.Takes transition) :
    Counted process transition.input transition.before.node.loopState
      transition.after.node.loopState transition.output := by
  have steps := steps_of_takes taken
  generalize transition.before = state, transition.input = input,
    transition.after = next, transition.output = output at steps
  cases steps with
  | refresh _ handles => exact counted_of_handle handles
  | handled _ _ handles _ => exact counted_of_handle handles
  | failed _ _ handles _ => exact counted_of_handle handles
  | shutdown => exact counted_of_idle rfl rfl rfl rfl
  | beginCleanup => exact counted_of_idle rfl rfl rfl rfl
  | runFaultHook =>
      refine counted_of_idle rfl ?_ rfl rfl
      rw [Cleanup.faultHook]
      split <;> rfl
  | finish | finishFaulted =>
      refine counted_of_idle rfl sentDatagrams_publish ?_ ?_ <;>
        simp only [finishCleanup, Cleanup.finish] <;> split <;> rfl

end Step

/-! ## Along a run -/

section Counting

variable {trace : List (Transition RunState RunInput Effect)}
variable {first second : RunInput → Bool}

theorem inputCount_append_singleton
    (taken : List (Transition RunState RunInput Effect))
    (next : Transition RunState RunInput Effect) (property : RunInput → Bool) :
    inputCount (taken ++ [next]) property =
      inputCount taken property + if property next.input then 1 else 0 := by
  simp only [inputCount, List.countP_append, List.countP_singleton]

theorem inputCount_mono (implies : ∀ input, first input = true → second input = true) :
    inputCount trace first ≤ inputCount trace second :=
  List.countP_mono_left fun _ _ => implies _

/-- Two kinds of inputs that exclude each other are counted separately. -/
theorem inputCount_or
    (exclusive : ∀ input, first input = true → second input = true → False) :
    inputCount trace (fun input => first input || second input) =
      inputCount trace first + inputCount trace second := by
  induction trace with
  | nil => rfl
  | cons transition trace ih =>
      simp only [inputCount] at ih
      simp only [inputCount, List.countP_cons, ih]
      have apart := exclusive transition.input
      cases isFirst : first transition.input <;>
        cases isSecond : second transition.input <;> simp_all <;> omega

theorem inputCount_eq_zero {property : RunInput → Bool} :
    inputCount trace property = 0 ↔
      ∀ transition ∈ trace, property transition.input = false := by
  simp only [inputCount, List.countP_eq_zero, Bool.not_eq_true]

end Counting

/-- The advertisements of a run are numbered from one. -/
structure SentInOrder (taken : List (Transition RunState RunInput Effect))
    (loopState : HaLoopState) : Prop where
  packetsSent : loopState.counters.packetsSent = loopState.sequence
  sequence : loopState.sequence.toNat = (sentDatagrams (effectsOf taken)).length
  numbered : ∀ (index : Nat) (datagram : Bytes),
    (sentDatagrams (effectsOf taken))[index]? = some datagram →
      ∃ packet, HaPacket.decode datagram = .ok packet ∧
        packet.sequence.toNat = index + 1
  few : (sentDatagrams (effectsOf taken)).length ≤ inputCount taken RunInput.isSocketEvent

/-- The counters of a run, with the packets counted under a text they carry. -/
structure Tally (process : HaProcess) (taken : List (Transition RunState RunInput Effect))
    (loopState : HaLoopState) : Prop where
  sent : SentInOrder taken loopState
  packetsReceived :
    loopState.counters.packetsReceived.toNat = inputCount taken process.acceptsDatagram
  invalidPackets :
    loopState.counters.invalidPackets.toNat = inputCount taken process.rejectsDatagram
  authFailures :
    loopState.counters.authFailures.toNat = inputCount taken fun input =>
      process.failsAuth input || process.misleads "authentication failed" input
  duplicateNodeIdPackets :
    loopState.counters.duplicateNodeIdPackets.toNat = inputCount taken fun input =>
      process.duplicatesNodeId input || process.misleads "duplicate node.id" input

section Run

variable {process : HaProcess} {startupAt scheduledAt : Int} {final : RunState}
variable {trace taken : List (Transition RunState RunInput Effect)}
variable {next : Transition RunState RunInput Effect}

theorem SentInOrder.append (nextTaken : process.runWithStatus.Takes next)
    (small : inputCount taken RunInput.isSocketEvent < 2 ^ 64 - 1)
    (inOrder : SentInOrder taken next.before.node.loopState) :
    SentInOrder (taken ++ [next]) next.after.node.loopState := by
  have datagrams : sentDatagrams (effectsOf (taken ++ [next])) =
      sentDatagrams (effectsOf taken) ++ sentDatagrams next.output := by
    rw [effectsOf_append_singleton, sentDatagrams, List.filterMap_append]
    rfl
  have events := inputCount_append_singleton taken next RunInput.isSocketEvent
  obtain ⟨nothing, sequence, packetsSent⟩ |
      ⟨socket, sequence, packetsSent, datagram, packet, sent, decoded, carries⟩ :=
    (counted_of_takes nextTaken).sent
  · rw [nothing, List.append_nil] at datagrams
    refine ⟨?_, ?_, ?_, ?_⟩
    · rw [packetsSent, sequence, inOrder.packetsSent]
    · rw [datagrams, sequence, inOrder.sequence]
    · rw [datagrams]
      exact inOrder.numbered
    · rw [datagrams, events]
      exact inOrder.few.trans (Nat.le_add_right _ _)
  · rw [sent] at datagrams
    have numbered : next.after.node.loopState.sequence.toNat =
        (sentDatagrams (effectsOf taken)).length + 1 := by
      have room : next.before.node.loopState.sequence.toNat < 2 ^ 64 - 1 := by
        rw [inOrder.sequence]
        exact inOrder.few.trans_lt small
      rw [sequence, ← inOrder.sequence]
      exact toNat_tick true room
    refine ⟨?_, ?_, ?_, ?_⟩
    · rw [packetsSent, sequence, inOrder.packetsSent]
    · rw [datagrams, numbered, List.length_append, List.length_singleton]
    · intro index other found
      rw [datagrams, List.getElem?_append] at found
      split at found
      · exact inOrder.numbered index other found
      · next beyond =>
          rw [List.getElem?_singleton] at found
          split at found
          · next last =>
              cases found
              refine ⟨packet, decoded, ?_⟩
              rw [carries, numbered]
              omega
          · cases found
    · rw [datagrams, List.length_append, List.length_singleton, events, socket]
      exact Nat.succ_le_succ inOrder.few

/-- One more input keeps a counter exact. -/
theorem tick_counts {counter : UInt64} {property : RunInput → Bool}
    (small : inputCount taken RunInput.isSocketEvent < 2 ^ 64 - 1)
    (onSocket : ∀ input, property input = true → input.isSocketEvent = true)
    (counts : counter.toNat = inputCount taken property) :
    (tick (property next.input) counter).toNat =
      inputCount (taken ++ [next]) property := by
  have room : counter.toNat < 2 ^ 64 - 1 := by
    rw [counts]
    exact (inputCount_mono onSocket).trans_lt small
  rw [toNat_tick _ room, counts, inputCount_append_singleton]

theorem Tally.append (nextTaken : process.runWithStatus.Takes next)
    (small : inputCount taken RunInput.isSocketEvent < 2 ^ 64 - 1)
    (tally : Tally process taken next.before.node.loopState) :
    Tally process (taken ++ [next]) next.after.node.loopState := by
  have counted := counted_of_takes nextTaken
  have brought : ∀ (property : HaPacket → Bool) (input : RunInput),
      input.brings property = true → input.isSocketEvent = true :=
    fun _ _ found => isSocketEvent_of_datagram (isSome_of_brings found)
  have either : ∀ (left right : HaPacket → Bool) (input : RunInput),
      (input.brings left || input.brings right) = true → input.isSocketEvent = true :=
    fun _ _ _ found => (Bool.or_eq_true_iff.mp found).elim (brought _ _) (brought _ _)
  have rejected : ∀ input : RunInput,
      process.rejectsDatagram input = true → input.isSocketEvent = true :=
    fun _ found => isSocketEvent_of_datagram (Bool.and_eq_true_iff.mp found).1
  constructor
  case sent => exact tally.sent.append nextTaken small
  case packetsReceived =>
    rw [counted.packetsReceived]
    exact tick_counts small (brought _) tally.packetsReceived
  case invalidPackets =>
    rw [counted.invalidPackets]
    exact tick_counts small rejected tally.invalidPackets
  case authFailures =>
    rw [counted.authFailures]
    exact tick_counts small (either _ _) tally.authFailures
  case duplicateNodeIdPackets =>
    rw [counted.duplicateNodeIdPackets]
    exact tick_counts small (either _ _) tally.duplicateNodeIdPackets

/-- Run lemma: while no counter can overflow, the tally is exact. -/
theorem tally_of_run
    (run : process.runWithStatus.Run (process.startRun startupAt scheduledAt) trace final)
    (small : inputCount trace RunInput.isSocketEvent < 2 ^ 64 - 1) :
    Tally process trace final.node.loopState := by
  revert small
  apply run.history_induction (motive := fun taken state =>
    inputCount taken RunInput.isSocketEvent < 2 ^ 64 - 1 →
      Tally process taken state.node.loopState)
  · intro _
    refine ⟨⟨rfl, rfl, ?_, le_rfl⟩, rfl, rfl, rfl, rfl⟩
    intro index datagram found
    cases found
  · intro taken next _ nextTaken _ holds small
    rw [inputCount_append_singleton] at small
    have earlier := (Nat.le_add_right _ _).trans_lt small
    exact (holds earlier).append nextTaken earlier

/-! ## When the counters are exact -/

/-- Two properties of the same arriving packet. -/
theorem exists_of_brings_both {input : RunInput} {left right : HaPacket → Bool}
    (leftFound : input.brings left = true) (rightFound : input.brings right = true) :
    ∃ packet, left packet = true ∧ right packet = true := by
  rcases exists_of_brings leftFound with ⟨datagram, packet, arrives, decoded, holds⟩
  exact ⟨packet, holds, (brings_of_decoded arrives decoded).symm.trans rightFound⟩

theorem ofGroup_not_misleads {runtime : HaRuntimeConfig} {packet : HaPacket}
    {pattern : String} (ofGroup : packet.ofGroup runtime = true) :
    packet.misleads runtime pattern = false := by
  rw [HaPacket.ofGroup, Bool.and_eq_true_iff, beq_iff_eq, beq_iff_eq] at ofGroup
  rw [HaPacket.misleads, ofGroup.2, bne_self_eq_false, Bool.and_false, Bool.false_and]

theorem failsAuth_or_misleads (input : RunInput)
    (fails : process.failsAuth input = true)
    (misleads : process.misleads "authentication failed" input = true) : False := by
  rcases exists_of_brings_both fails misleads with ⟨packet, fails, misleads⟩
  rw [HaPacket.failsAuth, Bool.and_assoc, Bool.and_eq_true_iff] at fails
  cases (ofGroup_not_misleads fails.1).symm.trans misleads

theorem duplicatesNodeId_or_misleads (input : RunInput)
    (duplicates : process.duplicatesNodeId input = true)
    (misleads : process.misleads "duplicate node.id" input = true) : False := by
  rcases exists_of_brings_both duplicates misleads with ⟨packet, duplicates, misleads⟩
  rw [HaPacket.duplicatesNodeId, Bool.and_eq_true_iff] at duplicates
  cases (ofGroup_not_misleads duplicates.1).symm.trans misleads

theorem failsAuth_or_duplicatesNodeId (input : RunInput)
    (fails : process.failsAuth input = true)
    (duplicates : process.duplicatesNodeId input = true) : False := by
  rcases exists_of_brings_both fails duplicates with ⟨packet, fails, duplicates⟩
  simp only [HaPacket.failsAuth, HaPacket.duplicatesNodeId, Bool.and_eq_true, bne_iff_ne,
    beq_iff_eq] at fails duplicates
  exact fails.1.2 duplicates.2

/-- Both kinds of failures are rejections. -/
theorem rejectsDatagram_of_failure (input : RunInput)
    (failure : (process.failsAuth input || process.duplicatesNodeId input) = true) :
    process.rejectsDatagram input = true := by
  have arrives : input.datagram.isSome = true :=
    (Bool.or_eq_true_iff.mp failure).elim isSome_of_brings isSome_of_brings
  rw [rejectsDatagram, arrives, Bool.true_and, Bool.not_eq_true']
  by_contra accepts
  rw [Bool.not_eq_false] at accepts
  rcases Bool.or_eq_true_iff.mp failure with fails | duplicates
  · rcases exists_of_brings_both accepts fails with ⟨packet, accepted, fails⟩
    simp [HaPacket.failsAuth, (of_decide_eq_true accepted).tagVerifies] at fails
  · rcases exists_of_brings_both accepts duplicates with ⟨packet, accepted, duplicates⟩
    simp [HaPacket.duplicatesNodeId, (of_decide_eq_true accepted).nodeId] at duplicates

/-- The counters are exact if and only if no packet of a foreign group has
arrived whose group name contains one of the two texts. -/
theorem exactCounters_iff (process : HaProcess) (startupAt scheduledAt : Int)
    (trace : List (Transition RunState RunInput Effect)) (final : RunState)
    (run : process.runWithStatus.Run (process.startRun startupAt scheduledAt) trace final)
    (small : inputCount trace RunInput.isSocketEvent < 2 ^ 64 - 1) :
    ExactCounters process trace final.node.loopState ↔
      ∀ transition ∈ trace,
        process.misleads "authentication failed" transition.input = false ∧
          process.misleads "duplicate node.id" transition.input = false := by
  have tally := tally_of_run run small
  have authFailures := tally.authFailures
  have duplicates := tally.duplicateNodeIdPackets
  rw [inputCount_or failsAuth_or_misleads] at authFailures
  rw [inputCount_or duplicatesNodeId_or_misleads] at duplicates
  constructor
  · intro exact
    have noAuth : inputCount trace (process.misleads "authentication failed") = 0 := by
      have := exact.authFailures
      omega
    have noDuplicate : inputCount trace (process.misleads "duplicate node.id") = 0 := by
      have := exact.duplicateNodeIdPackets
      omega
    intro transition member
    exact ⟨inputCount_eq_zero.mp noAuth transition member,
      inputCount_eq_zero.mp noDuplicate transition member⟩
  · intro honest
    rw [inputCount_eq_zero.mpr fun transition member => (honest transition member).1,
      Nat.add_zero] at authFailures
    rw [inputCount_eq_zero.mpr fun transition member => (honest transition member).2,
      Nat.add_zero] at duplicates
    refine ⟨tally.sent.packetsSent, tally.sent.sequence, tally.sent.numbered,
      tally.packetsReceived, tally.invalidPackets, authFailures, duplicates, ?_⟩
    rw [authFailures, duplicates, tally.invalidPackets,
      ← inputCount_or failsAuth_or_duplicatesNodeId]
    exact inputCount_mono rejectsDatagram_of_failure

end Run

/-! ## Honest and misleading traffic -/

/-- A node accepts one advertisement, rejects one that carries its own name, and
sends twice, of which one fails. -/
def honestTrace : List (Transition RunState RunInput Effect) :=
  watchedProcess.runWithStatus.record (watchedProcess.startRun 0 0) [
    .event (.refresh 0),
    demoArrival "low" 100 .standby 1 1,
    .event (.refresh 1),
    demoArrival "high" 100 .standby 2 2,
    .event (.refresh 2),
    .event (.send (.error { kind := .timedOut, text := "timed out" }) 1000000000
      1000000000),
    .event (.refresh 1000000000),
    .event (.send (.ok ()) 2000000000 2000000000)]

theorem run_honest :
    watchedProcess.runWithStatus.Run (watchedProcess.startRun 0 0) honestTrace
      (Machine.finalState (watchedProcess.startRun 0 0) honestTrace) :=
  Machine.run_record _ (by decide +kernel)

theorem exactCounters_iff_honest :
    ExactCounters watchedProcess honestTrace
        (Machine.finalState (watchedProcess.startRun 0 0) honestTrace).node.loopState ∧
      inputCount honestTrace watchedProcess.duplicatesNodeId = 1 := by
  have small : inputCount honestTrace RunInput.isSocketEvent < 2 ^ 64 - 1 := by
    decide +kernel
  have honest : ∀ transition ∈ honestTrace,
      watchedProcess.misleads "authentication failed" transition.input = false ∧
        watchedProcess.misleads "duplicate node.id" transition.input = false := by
    decide +kernel
  refine ⟨?_, by decide +kernel⟩
  exact (exactCounters_iff watchedProcess 0 0 honestTrace _ run_honest small).mpr honest

/-- A packet of a foreign group whose name is made of the texts searched for. -/
def misleadingPacket : HaPacket :=
  { demoPacket "other" 100 .standby 1 with
    groupId := "duplicate node.id, authentication failed" }

def misleadingTrace : List (Transition RunState RunInput Effect) :=
  watchedProcess.runWithStatus.record (watchedProcess.startRun 0 0) [
    .event (.refresh 0),
    .event (.receive (.ok (misleadingPacket.wire, demoAddr)) 1)]

theorem run_misleading :
    watchedProcess.runWithStatus.Run (watchedProcess.startRun 0 0) misleadingTrace
      (Machine.finalState (watchedProcess.startRun 0 0) misleadingTrace) :=
  Machine.run_record _ (by decide +kernel)

/-- One such packet counts as an authentication failure and as a duplicate
`node.id`, and as one invalid packet. -/
theorem not_exactCounters :
    ¬∀ (process : HaProcess) (startupAt scheduledAt : Int)
      (trace : List (Transition RunState RunInput Effect)) (final : RunState),
      process.runWithStatus.Run (process.startRun startupAt scheduledAt) trace final →
        inputCount trace RunInput.isSocketEvent < 2 ^ 64 - 1 →
          ExactCounters process trace final.node.loopState := by
  intro claimed
  have small : inputCount misleadingTrace RunInput.isSocketEvent < 2 ^ 64 - 1 := by
    decide +kernel
  have counters : (Machine.finalState (watchedProcess.startRun 0 0)
      misleadingTrace).node.loopState.counters =
        { invalidPackets := 1, authFailures := 1, duplicateNodeIdPackets := 1 } := by
    decide +kernel
  have classified := (claimed watchedProcess 0 0 misleadingTrace _ run_misleading
    small).classified
  rw [counters] at classified
  exact absurd classified (by decide)

end Gruezi.Ha
