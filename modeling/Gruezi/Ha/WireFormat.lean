import Gruezi.Ha.Packet

/-!
# The wire format is a bijection

Each cursor operation is an exact reader.  Composing them gives the language of
`HaPacket.readFields`, which is the layout `HaPacket.wire`; with the checks that
follow it, the decoder accepts precisely the encoder's outputs.
-/

namespace Gruezi.Ha

open Rust Lib InputStream

namespace PacketCursor

theorem reads_readExact (len : Nat) :
    Reads (readExact len) (fun chunk bytes => chunk = bytes ∧ bytes.length = len) := by
  intro cursor bytes after
  have offsetLe := cursor.offset_le
  change readExact len cursor = .ok (bytes, after) ↔ _
  unfold readExact
  split
  · next within =>
      constructor
      · intro returned
        cases returned
        refine ⟨_, ⟨rfl, ?_⟩, List.take_prefix _ _, ?_⟩
        · rw [List.length_take, List.length_drop]
          omega
        · simp only [advance, List.length_take, List.length_drop, mk.injEq, true_and]
          omega
      · rintro ⟨chunk, ⟨rfl, rfl⟩, isPrefix, rfl⟩
        have taken := List.prefix_iff_eq_take.mp isPrefix
        simp only [InputStream.rest] at taken
        rw [← taken]
        simp only [advance, Except.ok.injEq, Prod.mk.injEq, true_and, mk.injEq]
        omega
  · next beyond =>
      constructor
      · intro returned
        cases returned
      · rintro ⟨chunk, ⟨rfl, rfl⟩, isPrefix, -⟩
        have tooLong := isPrefix.length_le
        simp only [InputStream.rest, List.length_drop] at tooLong
        omega

theorem reads_readU8 :
    Reads readU8 (fun chunk byte => chunk = [byte] ∧ True) := by
  unfold readU8
  refine Reads.congr (Reads.bind_exact (reads_readExact 1) (?returns : ∀ bytes : Bytes,
    Reads _ (fun chunk byte => chunk = [] ∧ bytes.head? = some byte))) ?_
  case returns =>
    intro bytes
    cases bytes with
    | nil => exact (Reads.throw truncated).congr (by simp)
    | cons head tail => exact (Reads.pure head).congr (by simp [eq_comm])
  intro chunk byte
  constructor
  · rintro ⟨bytes, right, rfl, length, rfl, head⟩
    rcases List.length_eq_one_iff.mp length with ⟨only, rfl⟩
    simpa using head
  · rintro ⟨rfl, -⟩
    exact ⟨[byte], [], rfl, rfl, rfl, rfl⟩

theorem reads_readUint (width : Nat) :
    Reads (readUint width) (fun chunk value =>
      chunk.length = width ∧ BigEndian.ofBytes chunk = value) := by
  have returns : ∀ bytes : Bytes,
      Reads (if bytes.length = width then
          (pure (BigEndian.ofBytes bytes) : PacketReader Nat)
        else throw truncated)
        (fun chunk value => chunk = [] ∧ bytes.length = width ∧
          BigEndian.ofBytes bytes = value) := by
    intro bytes
    split
    · next length =>
        exact (Reads.pure (BigEndian.ofBytes bytes)).congr
          (by simp [length, eq_comm])
    · next length => exact (Reads.throw truncated).congr (by simp [length])
  apply (Reads.bind_exact (reads_readExact width) returns).congr
  intro chunk value
  constructor
  · rintro ⟨bytes, right, rfl, -, rfl, length, denoted⟩
    rw [List.append_nil]
    exact ⟨length, denoted⟩
  · rintro ⟨length, denoted⟩
    exact ⟨chunk, [], (List.append_nil chunk).symm, length, rfl, length, denoted⟩

/-- A fixed-width integer read through `readUint` reads its own digits. -/
private theorem reads_machineInt {α : Type} {width : Nat} {ofNat : Nat → α}
    {toNat : α → Nat} (fits : ∀ value, toNat value < 256 ^ width)
    (ofNat_toNat : ∀ value, ofNat (toNat value) = value)
    (toNat_ofNat : ∀ value, value < 256 ^ width → toNat (ofNat value) = value) :
    Reads (do return ofNat (← readUint width) : PacketReader α)
      (fun chunk value => chunk = BigEndian.toBytes width (toNat value) ∧ True) := by
  apply (Reads.bind (reads_readUint width) fun value => Reads.pure (ofNat value)).congr
  intro chunk value
  rw [and_true, BigEndian.eq_toBytes_iff (fits value)]
  constructor
  · rintro ⟨left, number, right, rfl, ⟨rfl, rfl⟩, rfl, rfl⟩
    rw [List.append_nil, toNat_ofNat _ (BigEndian.ofBytes_lt left)]
    exact ⟨rfl, rfl⟩
  · rintro ⟨length, denoted⟩
    exact ⟨chunk, toNat value, [], (List.append_nil chunk).symm, ⟨length, denoted⟩,
      rfl, (ofNat_toNat value).symm⟩

theorem reads_readU16 :
    Reads readU16 (fun chunk value =>
      chunk = BigEndian.toBytes 2 value.toNat ∧ True) :=
  reads_machineInt (fun value => value.toNat_lt) (fun _ => UInt16.ofNat_toNat)
    (fun _ fits => UInt16.toNat_ofNat_of_lt' fits)

theorem reads_readU32 :
    Reads readU32 (fun chunk value =>
      chunk = BigEndian.toBytes 4 value.toNat ∧ True) :=
  reads_machineInt (fun value => value.toNat_lt) (fun _ => UInt32.ofNat_toNat)
    (fun _ fits => UInt32.toNat_ofNat_of_lt' fits)

theorem reads_readU64 :
    Reads readU64 (fun chunk value =>
      chunk = BigEndian.toBytes 8 value.toNat ∧ True) :=
  reads_machineInt (fun value => value.toNat_lt) (fun _ => UInt64.ofNat_toNat)
    (fun _ fits => UInt64.toNat_ofNat_of_lt' fits)

theorem reads_readString (len : Nat) :
    Reads (readString len) (fun chunk text =>
      chunk = asBytes text ∧ (asBytes text).length = len) := by
  unfold readString
  refine Reads.congr (Reads.bind_exact (reads_readExact len) (?returns : ∀ bytes : Bytes,
    Reads _ (fun chunk text => chunk = [] ∧ bytes = asBytes text))) ?_
  case returns =>
    intro bytes
    cases decoded : fromUtf8 bytes with
    | ok text =>
        apply (Reads.pure text).congr
        intro chunk other
        rw [← fromUtf8_eq_ok_iff, decoded, Except.ok.injEq, eq_comm (a := other)]
    | error error =>
        apply (Reads.throw (Error.utf8 error)).congr
        intro chunk other
        rw [← fromUtf8_eq_ok_iff, decoded]
        simp
  intro chunk text
  constructor
  · rintro ⟨bytes, right, rfl, length, rfl, rfl⟩
    exact ⟨List.append_nil _, length⟩
  · rintro ⟨rfl, length⟩
    exact ⟨_, [], (List.append_nil _).symm, length, rfl, rfl⟩

end PacketCursor

namespace HaPacket

open PacketCursor

/-- The lengths a packet's prefix bytes can announce. -/
private def LengthsFit (packet : HaPacket) : Prop :=
  (asBytes packet.nodeId).length < 256 ∧ (asBytes packet.groupId).length < 256 ∧
    packet.authTag.length < 65536

private theorem reads_readFields :
    Reads readFields (fun chunk packet =>
      chunk = packet.wire ∧ packet.LengthsFit) := by
  apply Reads.congr
  · exact
      .bind_exact (reads_readExact _) fun magic =>
      .bind_lift (bailIf (magic != packetMagic) _) fun _ =>
      .bind_exact reads_readU8 fun protocolVersion =>
      .bind_exact reads_readU8 fun stateByte =>
      .bind_lift (HaState.tryFrom stateByte) fun state =>
      .bind_exact reads_readU8 fun priority =>
      .bind_exact reads_readU8 fun deadFactor =>
      .bind_exact reads_readU32 fun advertIntervalMs =>
      .bind_exact reads_readU64 fun sequence =>
      .bind_exact reads_readU8 fun nodeIdLen =>
      .bind_exact (reads_readString nodeIdLen.toNat) fun nodeId =>
      .bind_exact reads_readU8 fun groupIdLen =>
      .bind_exact (reads_readString groupIdLen.toNat) fun groupId =>
      .bind_exact reads_readU16 fun authTagLen =>
      .bind_exact (reads_readExact authTagLen.toNat) fun authTag =>
      .pure _
  · intro chunk packet
    constructor
    · rintro ⟨magic, _, rfl, -, _, magicOk, protocolVersion, _, rfl, -,
        stateByte, _, rfl, -, state, stateOk, priority, _, rfl, -,
        deadFactor, _, rfl, -, advertIntervalMs, _, rfl, -, sequence, _, rfl, -,
        nodeIdLen, _, rfl, -, nodeId, _, rfl, nodeIdFits,
        groupIdLen, _, rfl, -, groupId, _, rfl, groupIdFits,
        authTagLen, _, rfl, -, authTag, _, rfl, authTagFits, rfl, rfl⟩
      have magicEq : magic = packetMagic := by simpa using magicOk
      have stateEq := HaState.tryFrom_eq_ok_iff.mp stateOk
      subst magicEq stateEq
      constructor
      · simp [wire, nodeIdFits, groupIdFits, authTagFits]
      · exact ⟨nodeIdFits ▸ nodeIdLen.toNat_lt, groupIdFits ▸ groupIdLen.toNat_lt,
          authTagFits ▸ authTagLen.toNat_lt⟩
    · rintro ⟨rfl, nodeIdFits, groupIdFits, authTagFits⟩
      refine ⟨packetMagic, _, rfl, rfl, (), rfl, _, _, rfl, trivial,
        _, _, rfl, trivial, packet.state, HaState.tryFrom_eq_ok_iff.mpr rfl,
        _, _, rfl, trivial, _, _, rfl, trivial, _, _, rfl, trivial,
        _, _, rfl, trivial, _, _, rfl, trivial, _, _, rfl, ?_,
        _, _, rfl, trivial, _, _, rfl, ?_,
        UInt16.ofNat packet.authTag.length, _, ?_, trivial,
        packet.authTag, [], (List.append_nil _).symm, ?_, rfl, rfl⟩
      · exact (UInt8.toNat_ofNat_of_lt' nodeIdFits).symm
      · exact (UInt8.toNat_ofNat_of_lt' groupIdFits).symm
      · rw [UInt16.toNat_ofNat_of_lt' authTagFits]
      · exact (UInt16.toNat_ofNat_of_lt' authTagFits).symm

private theorem WellFormed.lengthsFit {packet : HaPacket}
    (wellFormed : packet.WellFormed) : packet.LengthsFit := by
  have nodeIdLen := wellFormed.nodeIdLen
  have groupIdLen := wellFormed.groupIdLen
  have authTagLen := wellFormed.authTagLen
  simp only [maxIdLen, maxAuthTagLen] at nodeIdLen groupIdLen authTagLen
  exact ⟨by omega, by omega, by omega⟩

/-- The reads succeed and use up the buffer exactly on the layout of the packet
returned. -/
private theorem readFields_new_iff {bytes : Bytes} {packet : HaPacket}
    {cursor : PacketCursor} :
    readFields.run (new bytes) = .ok (packet, cursor) ∧ cursor.isEmpty = true ↔
      bytes = packet.wire ∧ packet.LengthsFit ∧
        cursor = advance (new bytes) bytes.length := by
  rw [reads_readFields (new bytes) packet cursor, PacketCursor.isEmpty_iff, rest_new]
  constructor
  · rintro ⟨⟨_, ⟨rfl, fit⟩, isPrefix, rfl⟩, exhausted⟩
    rw [rest_advance, rest_new, List.drop_eq_nil_iff] at exhausted
    have whole := isPrefix.eq_of_length_le exhausted
    subst whole
    exact ⟨rfl, fit, rfl⟩
  · rintro ⟨rfl, fit, rfl⟩
    refine ⟨⟨_, ⟨rfl, fit⟩, List.prefix_rfl, rfl⟩, ?_⟩
    rw [rest_advance, rest_new, List.drop_length]

/-- The decoder accepts exactly the layouts of well-formed packets. -/
theorem decode_eq_ok_iff {bytes : Bytes} {packet : HaPacket} :
    decode bytes = .ok packet ↔ packet.WellFormed ∧ bytes = packet.wire := by
  simp only [decode, bind_eq_ok, validatePacketField_eq_ok, bailIf_eq_ok,
    decide_eq_false_iff_not, not_lt, exists_and_left, exists_const, Prod.exists,
    Bool.not_eq_false']
  constructor
  · rintro ⟨found, cursor, reads, exhausted, ⟨nodeIdNotBlank, nodeIdLen⟩,
      ⟨groupIdNotBlank, groupIdLen⟩, authTagLen, returned⟩
    cases returned
    rcases readFields_new_iff.mp ⟨reads, exhausted⟩ with ⟨rfl, -, -⟩
    exact ⟨⟨nodeIdNotBlank, nodeIdLen, groupIdNotBlank, groupIdLen, authTagLen⟩, rfl⟩
  · rintro ⟨wellFormed, rfl⟩
    obtain ⟨reads, exhausted⟩ :=
      readFields_new_iff.mpr ⟨rfl, wellFormed.lengthsFit, rfl⟩
    exact ⟨packet, _, reads, exhausted,
      ⟨wellFormed.nodeIdNotBlank, wellFormed.nodeIdLen⟩,
      ⟨wellFormed.groupIdNotBlank, wellFormed.groupIdLen⟩, wellFormed.authTagLen, rfl⟩

/-- No layout of a well-formed packet is a proper prefix of another: the lengths
in the front of it fix where it ends. -/
theorem eq_of_wire_isPrefix {left right : HaPacket} (leftFormed : left.WellFormed)
    (rightFormed : right.WellFormed) (isPrefix : left.wire <+: right.wire) :
    left = right := by
  have readsLeft := (reads_readFields (new right.wire) left _).mpr
    ⟨left.wire, ⟨rfl, leftFormed.lengthsFit⟩, isPrefix, rfl⟩
  have readsRight := (reads_readFields (new right.wire) right _).mpr
    ⟨right.wire, ⟨rfl, rightFormed.lengthsFit⟩, List.prefix_rfl, rfl⟩
  exact congrArg Prod.fst (Except.ok.inj (readsLeft.symm.trans readsRight))

/-- A packet's layout is short enough for every receive buffer the program uses. -/
theorem length_wire_le {packet : HaPacket} (wellFormed : packet.WellFormed) :
    packet.wire.length ≤ 216 := by
  have nodeIdLen := wellFormed.nodeIdLen
  have groupIdLen := wellFormed.groupIdLen
  have authTagLen := wellFormed.authTagLen
  simp only [maxIdLen, maxAuthTagLen] at nodeIdLen groupIdLen authTagLen
  simp only [wire, List.length_append, BigEndian.length_toBytes, packetMagic,
    List.length_cons, List.length_nil]
  omega

theorem decode_take_wire {packet : HaPacket} (wellFormed : packet.WellFormed) {len : Nat}
    (fits : 216 ≤ len) : decode (packet.wire.take len) = .ok packet := by
  rw [List.take_of_length_le ((length_wire_le wellFormed).trans fits)]
  exact decode_eq_ok_iff.mpr ⟨wellFormed, rfl⟩

/-- The wire format is an exact bijection between packets the encoder accepts
and byte strings the decoder accepts. -/
theorem decode_eq_ok_iff_encode_eq_ok (bytes : Bytes) (packet : HaPacket) :
    decode bytes = .ok packet ↔ packet.encode = .ok bytes := by
  rw [decode_eq_ok_iff, encode_eq_ok_iff]

end HaPacket

end Gruezi.Ha
