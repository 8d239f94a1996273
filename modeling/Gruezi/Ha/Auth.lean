import Gruezi.Ha.WireFormat

/-!
# The authentication tag

`auth_tag` feeds a key and the packet's fields to a `DefaultHasher` and writes
its 64-bit result as the tag.  The hasher is a parameter, any function of the
bytes it was fed; what the program decides is which bytes those are.
-/

namespace Gruezi.Ha

open Rust Lib

/-- `std::collections::hash_map::DefaultHasher`: the number `finish` returns
after the given bytes were written to a fresh hasher. -/
structure DefaultHasher where
  finish : Bytes → UInt64

/-- `impl Hash for str`: the bytes and a terminator no string contains. -/
def hashStr (text : String) : Bytes :=
  asBytes text ++ [0xFF]

def hashU8 (value : UInt8) : Bytes :=
  [value]

/-- `impl Hash for u32`, in the byte order of a little-endian target. -/
def hashU32 (value : UInt32) : Bytes :=
  (BigEndian.toBytes 4 value.toNat).reverse

/-- `impl Hash for u64`, in the byte order of a little-endian target. -/
def hashU64 (value : UInt64) : Bytes :=
  (BigEndian.toBytes 8 value.toNat).reverse

/-- What `auth_tag` writes to the hasher for a key and a packet. -/
def authStream (key : String) (packet : HaPacket) : Bytes :=
  hashStr key ++
  hashStr packet.groupId ++
  hashStr packet.nodeId ++
  hashU8 packet.priority ++
  hashU8 packet.deadFactor ++
  hashU32 packet.advertIntervalMs ++
  hashU8 packet.state.asU8 ++
  hashU64 packet.sequence

def authTag (hasher : DefaultHasher) (auth : HaAuth) (packet : HaPacket) : Bytes :=
  match auth with
  | .none => []
  | .sharedKey key =>
      BigEndian.toBytes 8 (hasher.finish (authStream key packet)).toNat

def verifyAuthTag (hasher : DefaultHasher) (runtime : HaRuntimeConfig)
    (packet : HaPacket) : Bool :=
  authTag hasher runtime.auth packet == packet.authTag

theorem length_authTag_le (hasher : DefaultHasher) (auth : HaAuth)
    (packet : HaPacket) : (authTag hasher auth packet).length ≤ 8 := by
  cases auth with
  | none => exact Nat.zero_le 8
  | sharedKey key => exact (BigEndian.length_toBytes 8 _).le

/-- The tag does not depend on the tag already in the packet. -/
@[simp] theorem authTag_withTag (hasher : DefaultHasher) (auth : HaAuth)
    (packet : HaPacket) (tag : Bytes) :
    authTag hasher auth { packet with authTag := tag } =
      authTag hasher auth packet := by
  cases auth <;> rfl

/-! ## What the stream determines -/

/-- A terminated string at the front of a stream is determined by the stream. -/
theorem hashStr_append_inj {left right : String} {leftRest rightRest : Bytes} :
    hashStr left ++ leftRest = hashStr right ++ rightRest ↔
      left = right ∧ leftRest = rightRest := by
  rw [hashStr, hashStr, List.append_assoc, List.append_assoc, List.singleton_append,
    List.singleton_append,
    append_terminator_inj (ff_not_mem_asBytes left) (ff_not_mem_asBytes right),
    asBytes_inj]

@[simp] theorem hashU32_inj {left right : UInt32} :
    hashU32 left = hashU32 right ↔ left = right := by
  rw [hashU32, hashU32, List.reverse_inj,
    BigEndian.toBytes_inj left.toNat_lt right.toNat_lt, UInt32.toNat_inj]

@[simp] theorem hashU64_inj {left right : UInt64} :
    hashU64 left = hashU64 right ↔ left = right := by
  rw [hashU64, hashU64, List.reverse_inj,
    BigEndian.toBytes_inj left.toNat_lt right.toNat_lt, UInt64.toNat_inj]

theorem length_hashU32 (value : UInt32) : (hashU32 value).length = 4 := by
  simp [hashU32]

/-- Two packets agree in every field the tag is computed from. -/
structure HashedFieldsAgree (left right : HaPacket) : Prop where
  groupId : left.groupId = right.groupId
  nodeId : left.nodeId = right.nodeId
  priority : left.priority = right.priority
  deadFactor : left.deadFactor = right.deadFactor
  advertIntervalMs : left.advertIntervalMs = right.advertIntervalMs
  state : left.state = right.state
  sequence : left.sequence = right.sequence

/-- Two packets agree in every wire field except the tag itself. -/
structure WireFieldsAgree (left right : HaPacket) : Prop extends
    HashedFieldsAgree left right where
  protocolVersion : left.protocolVersion = right.protocolVersion

/-- The stream determines the key and every hashed field: no byte can move
between the three strings, nor between them and the integers behind them. -/
theorem authStream_inj {leftKey rightKey : String} {left right : HaPacket} :
    authStream leftKey left = authStream rightKey right ↔
      leftKey = rightKey ∧ HashedFieldsAgree left right := by
  simp only [authStream, List.append_assoc, hashStr_append_inj]
  constructor
  · rintro ⟨key, groupId, nodeId, integers⟩
    simp only [hashU8, List.singleton_append, List.cons.injEq] at integers
    rcases integers with ⟨priority, deadFactor, integers⟩
    obtain ⟨interval, tail⟩ := List.append_inj integers
      (by rw [length_hashU32, length_hashU32])
    rw [List.cons.injEq] at tail
    exact ⟨key, groupId, nodeId, priority, deadFactor, hashU32_inj.mp interval,
      HaState.asU8_injective tail.1, hashU64_inj.mp tail.2⟩
  · rintro ⟨rfl, agree⟩
    rw [agree.groupId, agree.nodeId, agree.priority, agree.deadFactor,
      agree.advertIntervalMs, agree.state, agree.sequence]
    exact ⟨rfl, rfl, rfl, rfl⟩

/-! ## What the tag covers -/

/-- The two streams are equal only for equal keys and packets that agree in every
wire field other than the tag. -/
def TagCovers (leftKey : String) (left : HaPacket) (rightKey : String)
    (right : HaPacket) : Prop :=
  authStream leftKey left = authStream rightKey right →
    leftKey = rightKey ∧ WireFieldsAgree left right

/-- The protocol version is the one field the tag leaves out: the tag covers a
pair of packets unless that field alone tells them apart. -/
theorem tagCovers_iff (leftKey rightKey : String) (left right : HaPacket) :
    TagCovers leftKey left rightKey right ↔
      left.protocolVersion = right.protocolVersion ∨ leftKey ≠ rightKey ∨
        ¬HashedFieldsAgree left right := by
  rw [TagCovers, authStream_inj]
  constructor
  · intro covers
    by_cases same : leftKey = rightKey ∧ HashedFieldsAgree left right
    · exact .inl (covers same).2.protocolVersion
    · exact .inr (not_and_or.mp same)
  · rintro exempt ⟨sameKey, agree⟩
    refine ⟨sameKey, agree, ?_⟩
    rcases exempt with protocolVersion | differentKey | differs
    · exact protocolVersion
    · exact absurd sameKey differentKey
    · exact absurd agree differs

/-- A packet altered in its protocol version keeps its tag. -/
theorem exists_not_tagCovers :
    ¬∀ (leftKey rightKey : String) (left right : HaPacket),
      TagCovers leftKey left rightKey right := by
  intro covers
  let sent : HaPacket := {
    protocolVersion := 1
    state := .active
    priority := 100
    deadFactor := 3
    advertIntervalMs := 1000
    sequence := 1
    nodeId := "low"
    groupId := "group"
    authTag := [] }
  let altered : HaPacket := { sent with protocolVersion := 2 }
  have agree := (covers "key" "key" sent altered rfl).2.protocolVersion
  exact absurd agree (by decide)

end Gruezi.Ha
