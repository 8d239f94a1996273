import Gruezi.Ha.Loop
import Gruezi.Ha.WireFormat

/-!
# Receiving a datagram

What `handle_receive_event` does with a datagram of any length, of which the
socket delivers what fits in the buffer.  Every advertisement fits, and no
advertisement is a proper prefix of another, so that cutting a datagram never
makes it acceptable.
-/

namespace Gruezi.Ha

open Rust

variable {hasher : DefaultHasher} {runtime : HaRuntimeConfig} {packet : HaPacket}

/-- The datagram is, in full, an advertisement the node accepts. -/
structure HaPacket.Fills (packet : HaPacket) (hasher : DefaultHasher)
    (runtime : HaRuntimeConfig) (datagram : Bytes) : Prop where
  encodes : packet.encode = .ok datagram
  protocolVersion : packet.protocolVersion = runtime.protocolVersion
  groupId : packet.groupId = runtime.groupId
  nodeId : packet.nodeId ≠ runtime.nodeId
  tag : packet.authTag = Ha.authTag hasher runtime.auth packet

/-- What of a datagram reaches the decoder decides like the whole of it. -/
theorem decode_take_iff {datagram : Bytes} :
    HaPacket.decode (datagram.take 1024) = .ok packet ↔
      packet.encode = .ok datagram := by
  rw [HaPacket.decode_eq_ok_iff, HaPacket.encode_eq_ok_iff]
  constructor
  · rintro ⟨wellFormed, cut⟩
    have short := HaPacket.length_wire_le wellFormed
    rw [← cut, List.length_take] at short
    rw [List.take_of_length_le (by omega)] at cut
    exact ⟨wellFormed, cut⟩
  · rintro ⟨wellFormed, rfl⟩
    have short := HaPacket.length_wire_le wellFormed
    exact ⟨wellFormed, List.take_of_length_le (by omega)⟩

theorem acceptedBy_iff_fills {datagram : Bytes} :
    HaPacket.decode (datagram.take 1024) = .ok packet ∧
        packet.AcceptedBy hasher runtime ↔
      packet.Fills hasher runtime datagram := by
  rw [decode_take_iff]
  constructor
  · rintro ⟨encodes, accepted⟩
    have tag := accepted.tagVerifies
    rw [verifyAuthTag, beq_iff_eq] at tag
    exact ⟨encodes, accepted.protocolVersion, accepted.groupId, accepted.nodeId,
      tag.symm⟩
  · intro fills
    refine ⟨fills.encodes, fills.protocolVersion, fills.groupId, fills.nodeId, ?_⟩
    rw [verifyAuthTag, beq_iff_eq]
    exact fills.tag.symm

/-- An accepted datagram is no longer than the longest advertisement. -/
theorem HaPacket.Fills.length_le {datagram : Bytes}
    (fills : packet.Fills hasher runtime datagram) : datagram.length ≤ 216 := by
  rcases HaPacket.encode_eq_ok_iff.mp fills.encodes with ⟨wellFormed, rfl⟩
  exact HaPacket.length_wire_le wellFormed

/-- Of two encodings, one is no proper prefix of the other. -/
theorem encode_eq_of_isPrefix {left right : HaPacket} {short long : Bytes}
    (encodesLeft : left.encode = .ok short) (encodesRight : right.encode = .ok long)
    (isPrefix : short <+: long) : short = long := by
  rcases HaPacket.encode_eq_ok_iff.mp encodesLeft with ⟨leftFormed, rfl⟩
  rcases HaPacket.encode_eq_ok_iff.mp encodesRight with ⟨rightFormed, rfl⟩
  rw [HaPacket.eq_of_wire_isPrefix leftFormed rightFormed isPrefix]

/-! ## The handler on a datagram -/

section Delivery

variable (hasher) (runtime) (statusTx : Bool) (loopState : HaLoopState)
variable (buffer : Buffer) (datagram : Bytes) (sender : SocketAddr) (observedAt : Int)

/-- `handle_receive_event` when the socket delivers a datagram. -/
def receiveDatagram : Outcome :=
  handleReceiveEvent hasher runtime statusTx loopState
    (.ok ((buffer.recvFrom datagram).1, sender)) (buffer.recvFrom datagram).2 observedAt

/-- The counters after a rejection for this reason. -/
def HaCounters.reject (counters : HaCounters) (error : Error) : HaCounters :=
  { counters with
    invalidPackets := saturatingAdd counters.invalidPackets 1
    authFailures :=
      if isAuthFailure error then saturatingAdd counters.authFailures 1
      else counters.authFailures
    duplicateNodeIdPackets :=
      if isDuplicateNodeIdFailure error then
        saturatingAdd counters.duplicateNodeIdPackets 1
      else counters.duplicateNodeIdPackets }

/-- The counters after an acceptance. -/
def HaCounters.accept (counters : HaCounters) : HaCounters :=
  { counters with packetsReceived := saturatingAdd counters.packetsReceived 1 }

variable {hasher runtime statusTx loopState buffer datagram sender observedAt}

theorem recvFrom_fits :
    (buffer.recvFrom datagram).1 ≤ (buffer.recvFrom datagram).2.bytes.length := by
  rw [(buffer.recvFrom datagram).2.length_eq]
  exact Nat.min_le_right _ _

theorem receiveDatagram_ok {observation : PeerObservation}
    (handled : handleIncomingPacket hasher runtime (datagram.take 1024) sender
      observedAt loopState.peerObservation = .ok observation) :
    (receiveDatagram hasher runtime statusTx loopState buffer datagram sender
        observedAt).result = .ok () ∧
      (receiveDatagram hasher runtime statusTx loopState buffer datagram sender
        observedAt).loopState =
        { loopState with
          peerObservation := some observation
          counters := loopState.counters.accept } := by
  simp only [receiveDatagram, handleReceiveEvent, if_pos recvFrom_fits,
    Buffer.take_recvFrom, handled]
  exact ⟨trivial, rfl⟩

theorem receiveDatagram_error {error : Error}
    (handled : handleIncomingPacket hasher runtime (datagram.take 1024) sender
      observedAt loopState.peerObservation = .error error) :
    (receiveDatagram hasher runtime statusTx loopState buffer datagram sender
        observedAt).result = .ok () ∧
      (receiveDatagram hasher runtime statusTx loopState buffer datagram sender
        observedAt).loopState =
        { loopState with counters := loopState.counters.reject error } := by
  simp only [receiveDatagram, handleReceiveEvent, if_pos recvFrom_fits,
    Buffer.take_recvFrom, handled]
  exact ⟨trivial, rfl⟩

/-- A datagram is accepted when it is an advertisement of another node of the
group in full; any other datagram changes counters only. -/
theorem receive_exact_and_inert (hasher : DefaultHasher) (runtime : HaRuntimeConfig)
    (statusTx : Bool) (loopState : HaLoopState) (buffer : Buffer) (datagram : Bytes)
    (sender : SocketAddr) (observedAt : Int) :
    let outcome := receiveDatagram hasher runtime statusTx loopState buffer datagram
      sender observedAt
    outcome.result = .ok () ∧
      (∀ packet : HaPacket, packet.Fills hasher runtime datagram →
        ∃ becameActive counters,
          outcome.loopState = { loopState with
            peerObservation := some {
              nodeId := packet.nodeId
              state := packet.state
              priority := packet.priority
              becameActive
              observedAt }
            counters } ∧
          (becameActive = true ↔ packet.state = .active ∧
            ∃ previous ∈ loopState.peerObservation,
              previous.nodeId = packet.nodeId ∧ previous.state ≠ .active)) ∧
      ((¬∃ packet : HaPacket, packet.Fills hasher runtime datagram) →
        ∃ counters, outcome.loopState = { loopState with counters }) ∧
      (1024 < datagram.length →
        ¬∃ packet : HaPacket, packet.Fills hasher runtime datagram) ∧
      ∀ (other : HaPacket) (whole : Bytes), other.encode = .ok whole →
        whole ≠ datagram → datagram <+: whole ∨ whole <+: datagram →
          ¬∃ packet : HaPacket, packet.Fills hasher runtime datagram := by
  intro outcome
  refine ⟨?result, ?accepts, ?inert, ?long, ?cut⟩
  case result =>
    cases handled : handleIncomingPacket hasher runtime (datagram.take 1024) sender
        observedAt loopState.peerObservation with
    | error error => exact (receiveDatagram_error handled).1
    | ok observation => exact (receiveDatagram_ok handled).1
  case accepts =>
    intro packet fills
    rcases acceptedBy_iff_fills.mpr fills with ⟨decoded, accepted⟩
    have handled : handleIncomingPacket hasher runtime (datagram.take 1024) sender
        observedAt loopState.peerObservation =
          .ok (packet.observed loopState.peerObservation observedAt) :=
      handleIncomingPacket_eq_ok.mpr ⟨packet, decoded, accepted, rfl⟩
    refine ⟨_, _, (receiveDatagram_ok handled).2, ?_⟩
    cases loopState.peerObservation with
    | none => simp
    | some previous => simp
  case inert =>
    intro unacceptable
    cases handled : handleIncomingPacket hasher runtime (datagram.take 1024) sender
        observedAt loopState.peerObservation with
    | error error => exact ⟨_, (receiveDatagram_error handled).2⟩
    | ok observation =>
        rcases handleIncomingPacket_eq_ok.mp handled with ⟨packet, decoded, accepted, _⟩
        exact absurd ⟨packet, acceptedBy_iff_fills.mp ⟨decoded, accepted⟩⟩ unacceptable
  case long =>
    rintro long ⟨packet, fills⟩
    have := fills.length_le
    omega
  case cut =>
    rintro other whole encodes proper related ⟨packet, fills⟩
    rcases related with shorter | longer
    · exact proper (encode_eq_of_isPrefix fills.encodes encodes shorter).symm
    · exact proper (encode_eq_of_isPrefix encodes fills.encodes longer)

end Delivery

end Gruezi.Ha
