import Gruezi.Ha.Runtime
import Gruezi.Lib.Bytes
import Gruezi.Lib.Reader

/-!
# The advertisement wire format

`HaPacket.encode` and `HaPacket.decode` with the cursor the decoder reads
through.  Both are characterised by the same two facts, the byte layout
`HaPacket.wire` and the field limits `HaPacket.WellFormed`, from which the two
directions of the round trip follow.
-/

namespace Gruezi.Ha

open Rust Lib

structure HaPacket where
  protocolVersion : UInt8
  state : HaState
  priority : UInt8
  deadFactor : UInt8
  advertIntervalMs : UInt32
  sequence : UInt64
  nodeId : String
  groupId : String
  authTag : Bytes
  deriving DecidableEq, Repr

/-- `b"GRHZ"`. -/
def packetMagic : Bytes := [0x47, 0x52, 0x48, 0x5A]

def maxIdLen : Nat := 64

def maxAuthTagLen : Nat := 64

def validatePacketField (value fieldName : String) (maxLen : Nat) :
    Except Error Unit := do
  bailIf (isBlank value) (fieldName ++ " cannot be empty")
  bailIf ((asBytes value).length > maxLen)
    (fieldName ++ " exceeds " ++ Nat.repr maxLen ++ " bytes")

@[simp] theorem validatePacketField_eq_ok {value fieldName : String}
    {maxLen : Nat} {result : Unit} :
    validatePacketField value fieldName maxLen = .ok result ↔
      isBlank value = false ∧ (asBytes value).length ≤ maxLen := by
  simp [validatePacketField]

/-- `u8::try_from` and `u16::try_from` on a length, with the error they map to. -/
def tryFromLen (limit len : Nat) (fieldName : String) : Except Error Nat :=
  if len ≤ limit then .ok len
  else .error (.msg (fieldName ++ " exceeds " ++ Nat.repr limit ++ " bytes"))

theorem tryFromLen_eq_ok {limit len result : Nat} {fieldName : String} :
    tryFromLen limit len fieldName = .ok result ↔ len ≤ limit ∧ len = result := by
  unfold tryFromLen
  split <;> simp_all

namespace HaPacket

/-- Encode an HA packet into the wire format. -/
def encode (packet : HaPacket) : Except Error Bytes := do
  validatePacketField packet.nodeId "node_id" maxIdLen
  validatePacketField packet.groupId "group_id" maxIdLen
  bailIf (packet.authTag.length > maxAuthTagLen)
    ("auth_tag exceeds " ++ Nat.repr maxAuthTagLen ++ " bytes")
  let nodeIdLen ← tryFromLen 255 (asBytes packet.nodeId).length "node_id"
  let groupIdLen ← tryFromLen 255 (asBytes packet.groupId).length "group_id"
  let authTagLen ← tryFromLen 65535 packet.authTag.length "auth_tag"
  return packetMagic ++
    [packet.protocolVersion] ++
    [packet.state.asU8] ++
    [packet.priority] ++
    [packet.deadFactor] ++
    BigEndian.toBytes 4 packet.advertIntervalMs.toNat ++
    BigEndian.toBytes 8 packet.sequence.toNat ++
    [UInt8.ofNat nodeIdLen] ++
    asBytes packet.nodeId ++
    [UInt8.ofNat groupIdLen] ++
    asBytes packet.groupId ++
    BigEndian.toBytes 2 authTagLen ++
    packet.authTag

/-- The byte layout of a packet, field by field. -/
def wire (packet : HaPacket) : Bytes :=
  packetMagic ++ ([packet.protocolVersion] ++ ([packet.state.asU8] ++
    ([packet.priority] ++ ([packet.deadFactor] ++
    (BigEndian.toBytes 4 packet.advertIntervalMs.toNat ++
    (BigEndian.toBytes 8 packet.sequence.toNat ++
    ([UInt8.ofNat (asBytes packet.nodeId).length] ++ (asBytes packet.nodeId ++
    ([UInt8.ofNat (asBytes packet.groupId).length] ++ (asBytes packet.groupId ++
    (BigEndian.toBytes 2 packet.authTag.length ++ packet.authTag)))))))))))

/-- The field limits encoder and decoder enforce. -/
structure WellFormed (packet : HaPacket) : Prop where
  nodeIdNotBlank : isBlank packet.nodeId = false
  nodeIdLen : (asBytes packet.nodeId).length ≤ maxIdLen
  groupIdNotBlank : isBlank packet.groupId = false
  groupIdLen : (asBytes packet.groupId).length ≤ maxIdLen
  authTagLen : packet.authTag.length ≤ maxAuthTagLen

/-- The encoder accepts exactly the well-formed packets and lays them out as
`wire` says. -/
theorem encode_eq_ok_iff {packet : HaPacket} {bytes : Bytes} :
    packet.encode = .ok bytes ↔ packet.WellFormed ∧ bytes = packet.wire := by
  simp only [encode, bind_eq_ok, validatePacketField_eq_ok, bailIf_eq_ok,
    decide_eq_false_iff_not, not_lt, exists_and_left, exists_const]
  constructor
  · rintro ⟨⟨nodeIdNotBlank, nodeIdLen⟩, ⟨groupIdNotBlank, groupIdLen⟩, authTagLen,
      _, nodeIdFits, _, groupIdFits, _, authTagFits, written⟩
    rw [tryFromLen_eq_ok] at nodeIdFits groupIdFits authTagFits
    rcases nodeIdFits with ⟨-, rfl⟩
    rcases groupIdFits with ⟨-, rfl⟩
    rcases authTagFits with ⟨-, rfl⟩
    cases written
    refine ⟨⟨nodeIdNotBlank, nodeIdLen, groupIdNotBlank, groupIdLen, authTagLen⟩, ?_⟩
    simp only [wire, List.append_assoc]
  · rintro ⟨wellFormed, rfl⟩
    refine ⟨⟨wellFormed.nodeIdNotBlank, wellFormed.nodeIdLen⟩,
      ⟨wellFormed.groupIdNotBlank, wellFormed.groupIdLen⟩, wellFormed.authTagLen,
      _, tryFromLen_eq_ok.mpr ⟨wellFormed.nodeIdLen.trans (by decide), rfl⟩,
      _, tryFromLen_eq_ok.mpr ⟨wellFormed.groupIdLen.trans (by decide), rfl⟩,
      _, tryFromLen_eq_ok.mpr ⟨wellFormed.authTagLen.trans (by decide), rfl⟩, ?_⟩
    simp only [wire, List.append_assoc]
    rfl

end HaPacket

/-! ## Reading -/

/-- The decoder's cursor.  The offset never passes the end of the buffer. -/
structure PacketCursor where
  bytes : Bytes
  offset : Nat
  offset_le : offset ≤ bytes.length

abbrev PacketReader := StateT PacketCursor (Except Error)

namespace PacketCursor

def new (bytes : Bytes) : PacketCursor :=
  ⟨bytes, 0, Nat.zero_le _⟩

def isEmpty (cursor : PacketCursor) : Bool :=
  cursor.offset == cursor.bytes.length

instance : InputStream PacketCursor UInt8 where
  rest cursor := cursor.bytes.drop cursor.offset
  advance cursor count :=
    { cursor with
      offset := min (cursor.offset + count) cursor.bytes.length
      offset_le := Nat.min_le_right _ _ }
  rest_advance cursor count := by
    simp only [List.drop_drop]
    by_cases within : cursor.offset + count ≤ cursor.bytes.length
    · rw [Nat.min_eq_left within]
    · rw [Nat.min_eq_right (by omega), List.drop_length,
        List.drop_eq_nil_of_le (by omega)]
  advance_zero cursor := by
    cases cursor with
    | mk bytes offset offset_le => simp [offset_le]
  advance_advance cursor first second := by
    simp only [mk.injEq, true_and]
    omega

theorem rest_new (bytes : Bytes) : InputStream.rest (new bytes) = bytes := rfl

theorem isEmpty_iff {cursor : PacketCursor} :
    cursor.isEmpty = true ↔ InputStream.rest cursor = [] := by
  have := cursor.offset_le
  simp only [isEmpty, beq_iff_eq, InputStream.rest, List.drop_eq_nil_iff]
  omega

def truncated : Error := .msg "packet is truncated"

def readExact (len : Nat) : PacketReader Bytes := fun cursor =>
  if within : cursor.offset + len ≤ cursor.bytes.length then
    .ok ((cursor.bytes.drop cursor.offset).take len,
      { cursor with offset := cursor.offset + len, offset_le := within })
  else
    .error truncated

def readU8 : PacketReader UInt8 := do
  match (← readExact 1).head? with
  | some byte => return byte
  | none => throw truncated

/-- The shared part of `read_u16`, `read_u32` and `read_u64`. -/
def readUint (width : Nat) : PacketReader Nat := do
  let bytes ← readExact width
  if bytes.length = width then
    return BigEndian.ofBytes bytes
  else
    throw truncated

def readU16 : PacketReader UInt16 := do
  return UInt16.ofNat (← readUint 2)

def readU32 : PacketReader UInt32 := do
  return UInt32.ofNat (← readUint 4)

def readU64 : PacketReader UInt64 := do
  return UInt64.ofNat (← readUint 8)

def readString (len : Nat) : PacketReader String := do
  match fromUtf8 (← readExact len) with
  | .ok text => return text
  | .error error => throw (.utf8 error)

def readVec (len : Nat) : PacketReader Bytes :=
  readExact len

end PacketCursor

open PacketCursor

namespace HaPacket

/-- The reads of `HaPacket::decode`, up to the test for trailing bytes. -/
def readFields : PacketReader HaPacket := do
  let magic ← readExact packetMagic.length
  bailIf (magic != packetMagic) "invalid packet magic"
  let protocolVersion ← readU8
  let state ← HaState.tryFrom (← readU8)
  let priority ← readU8
  let deadFactor ← readU8
  let advertIntervalMs ← readU32
  let sequence ← readU64
  let nodeIdLen ← readU8
  let nodeId ← readString nodeIdLen.toNat
  let groupIdLen ← readU8
  let groupId ← readString groupIdLen.toNat
  let authTagLen ← readU16
  let authTag ← readVec authTagLen.toNat
  return {
    protocolVersion
    state
    priority
    deadFactor
    advertIntervalMs
    sequence
    nodeId
    groupId
    authTag }

/-- Decode an HA packet from the wire format. -/
def decode (bytes : Bytes) : Except Error HaPacket := do
  let (packet, cursor) ← readFields.run (new bytes)
  bailIf (!cursor.isEmpty) "packet has trailing bytes"
  validatePacketField packet.nodeId "node_id" maxIdLen
  validatePacketField packet.groupId "group_id" maxIdLen
  bailIf (packet.authTag.length > maxAuthTagLen)
    ("auth_tag exceeds " ++ Nat.repr maxAuthTagLen ++ " bytes")
  return packet

end HaPacket

end Gruezi.Ha
