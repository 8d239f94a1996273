import Gruezi.Ha.Loop
import Gruezi.Lib.Failure

/-!
# Rejections recovered from their texts

`is_auth_failure` and `is_duplicate_node_id_failure` search the text of an error.
Every text `handle_incoming_packet` can fail with is searched here.  Only one of
them carries a field of the packet, the text for a foreign group, and a search
of it is a search of that field.
-/

namespace Gruezi.Ha

open Rust Lib

/-! ## Searching a text -/

section Search

variable {text pattern : String} {char : Char}

theorem containsStr_eq_false :
    containsStr text pattern = false ↔ ¬pattern.toList <:+: text.toList := by
  rw [containsStr, decide_eq_false_iff_not]

/-- A text without one of the characters of the pattern does not contain it. -/
theorem containsStr_eq_false_of_notMem (inPattern : char ∈ pattern.toList)
    (missing : char ∉ text.toList) : containsStr text pattern = false := by
  rw [containsStr_eq_false]
  intro found
  exact missing (found.subset inPattern)

theorem notMem_repr (value : Nat) (notDigit : char.isDigit = false) :
    char ∉ (Nat.repr value).toList := by
  intro member
  rw [Nat.repr, String.toList_ofList] at member
  have digit := Nat.isDigit_of_mem_toDigits (by decide) (by decide) member
  cases notDigit.symm.trans digit

end Search

/-- The error counts as neither kind of failure. -/
structure Unclassified (error : Error) : Prop where
  notAuth : isAuthFailure error = false
  notDuplicate : isDuplicateNodeIdFailure error = false

/-- A text without `h` and without a full stop is found by neither search. -/
theorem unclassified_of_notMem {error : Error} (noH : 'h' ∉ error.toString.toList)
    (noStop : '.' ∉ error.toString.toList) : Unclassified error :=
  ⟨containsStr_eq_false_of_notMem (by decide) noH,
    containsStr_eq_false_of_notMem (by decide) noStop⟩

/-! ## The errors of the decoder -/

theorem notMem_utf8 {char : Char} (error : Utf8Error) (notDigit : char.isDigit = false)
    (absent : char ∉ ("invalid utf-8 sequence of " ++ " bytes from index " ++
      "incomplete utf-8 byte sequence from index ").toList) :
    char ∉ error.toString.toList := by
  simp only [String.toList_append, List.mem_append, not_or] at absent
  rcases absent with ⟨⟨invalid, bytes⟩, incomplete⟩
  rw [Utf8Error.toString]
  split
  · simp only [String.toList_append, List.mem_append, not_or]
    exact ⟨⟨⟨invalid, notMem_repr _ notDigit⟩, bytes⟩, notMem_repr _ notDigit⟩
  · simp only [String.toList_append, List.mem_append, not_or]
    exact ⟨incomplete, notMem_repr _ notDigit⟩

theorem unclassified_utf8 (error : Utf8Error) : Unclassified (.utf8 error) :=
  unclassified_of_notMem (notMem_utf8 error (by decide) (by decide))
    (notMem_utf8 error (by decide) (by decide))

theorem unclassified_state (value : UInt8) :
    Unclassified (.msg ("invalid HA state value " ++ Nat.repr value.toNat)) := by
  apply unclassified_of_notMem <;>
    simp only [Error.toString, String.toList_append, List.mem_append, not_or]
  · exact ⟨by decide, notMem_repr _ (by decide)⟩
  · exact ⟨by decide, notMem_repr _ (by decide)⟩

theorem bailIf_fails {condition : Bool} {text : String}
    (unclassified : Unclassified (.msg text)) :
    FailsWith Unclassified (bailIf condition text) := by
  cases condition with
  | false => exact .ok _
  | true => exact .error unclassified

theorem validatePacketField_fails {value fieldName : String} {maxLen : Nat}
    (empty : Unclassified (.msg (fieldName ++ " cannot be empty")))
    (long : Unclassified
      (.msg (fieldName ++ " exceeds " ++ Nat.repr maxLen ++ " bytes"))) :
    FailsWith Unclassified (validatePacketField value fieldName maxLen) :=
  (bailIf_fails empty).bind fun _ => bailIf_fails long

section Reader

open PacketCursor

theorem unclassified_truncated : Unclassified truncated :=
  ⟨by decide +kernel, by decide +kernel⟩

theorem readExact_raises (len : Nat) : Raises Unclassified (readExact len) := by
  intro cursor error failed
  simp only [readExact, StateT.run] at failed
  split at failed
  · cases failed
  · cases failed
    exact unclassified_truncated

theorem readU8_raises : Raises Unclassified readU8 := by
  apply (readExact_raises 1).bind
  intro bytes
  split
  · exact .pure _
  · exact .throw unclassified_truncated

theorem readUint_raises (width : Nat) : Raises Unclassified (readUint width) := by
  apply (readExact_raises width).bind
  intro bytes
  split
  · exact .pure _
  · exact .throw unclassified_truncated

theorem readString_raises (len : Nat) : Raises Unclassified (readString len) := by
  apply (readExact_raises len).bind
  intro bytes
  split
  · exact .pure _
  · exact .throw (unclassified_utf8 _)

theorem tryFrom_fails (value : UInt8) : FailsWith Unclassified (HaState.tryFrom value) := by
  simp only [HaState.tryFrom]
  split_ifs
  · exact .ok _
  · exact .ok _
  · exact .ok _
  · exact .error (unclassified_state value)

theorem readFields_raises : Raises Unclassified HaPacket.readFields := by
  have magic : Unclassified (.msg "invalid packet magic") :=
    ⟨by decide +kernel, by decide +kernel⟩
  refine (readExact_raises _).bind fun _ => ?_
  refine (Raises.lift (bailIf_fails magic)).bind fun _ => ?_
  refine readU8_raises.bind fun _ => readU8_raises.bind fun _ => ?_
  refine (Raises.lift (tryFrom_fails _)).bind fun _ => ?_
  refine readU8_raises.bind fun _ => readU8_raises.bind fun _ => ?_
  refine ((readUint_raises 4).bind fun _ => .pure _).bind fun _ => ?_
  refine ((readUint_raises 8).bind fun _ => .pure _).bind fun _ => ?_
  refine readU8_raises.bind fun _ => (readString_raises _).bind fun _ => ?_
  refine readU8_raises.bind fun _ => (readString_raises _).bind fun _ => ?_
  refine ((readUint_raises 2).bind fun _ => .pure _).bind fun _ => ?_
  exact (readExact_raises _).bind fun _ => .pure _

/-- No error of the decoder counts as a failed authentication or as a duplicate
`node.id`. -/
theorem decode_fails (bytes : Bytes) : FailsWith Unclassified (HaPacket.decode bytes) := by
  have trailing : Unclassified (.msg "packet has trailing bytes") :=
    ⟨by decide +kernel, by decide +kernel⟩
  have emptyNode : Unclassified (.msg ("node_id" ++ " cannot be empty")) :=
    ⟨by decide +kernel, by decide +kernel⟩
  have longNode : Unclassified
      (.msg ("node_id" ++ " exceeds " ++ Nat.repr maxIdLen ++ " bytes")) :=
    ⟨by decide +kernel, by decide +kernel⟩
  have emptyGroup : Unclassified (.msg ("group_id" ++ " cannot be empty")) :=
    ⟨by decide +kernel, by decide +kernel⟩
  have longGroup : Unclassified
      (.msg ("group_id" ++ " exceeds " ++ Nat.repr maxIdLen ++ " bytes")) :=
    ⟨by decide +kernel, by decide +kernel⟩
  have longTag : Unclassified
      (.msg ("auth_tag exceeds " ++ Nat.repr maxAuthTagLen ++ " bytes")) :=
    ⟨by decide +kernel, by decide +kernel⟩
  refine (readFields_raises _).bind fun _ => (bailIf_fails trailing).bind fun _ => ?_
  refine (validatePacketField_fails emptyNode longNode).bind fun _ => ?_
  refine (validatePacketField_fails emptyGroup longGroup).bind fun _ => ?_
  exact (bailIf_fails longTag).bind fun _ => .ok _

end Reader

/-! ## The errors of the checks -/

section Checks

/-- The version text is found by neither search: a printed address has no `h`,
and the version text has a `u` only in front of everything else. -/
theorem unclassified_version (version : UInt8) (sender : SocketAddr) :
    Unclassified (.msg ("unexpected HA protocol version " ++ Nat.repr version.toNat ++
      " from " ++ sender.text)) := by
  have notInAddress : ∀ char, isAddressChar char = false →
      char ∉ sender.text.toList := by
    intro char notAddress member
    cases notAddress.symm.trans (List.all_eq_true.mp sender.printed char member)
  constructor
  · have noH : 'h' ∉ ("unexpected HA protocol version " ++ Nat.repr version.toNat ++
        " from " ++ sender.text).toList := by
      simp only [String.toList_append, List.mem_append, not_or]
      exact ⟨⟨⟨by decide, notMem_repr _ (by decide)⟩, by decide⟩,
        notInAddress _ (by decide)⟩
    exact containsStr_eq_false_of_notMem (by decide) noH
  · have shape : ("unexpected HA protocol version " ++ Nat.repr version.toNat ++
        " from " ++ sender.text).toList =
          'u' :: ("nexpected HA protocol version ".toList ++
            (Nat.repr version.toNat).toList ++ " from ".toList ++
            sender.text.toList) := by
      simp only [String.toList_append]
      rfl
    have noU : 'u' ∉ "nexpected HA protocol version ".toList ++
        (Nat.repr version.toNat).toList ++ " from ".toList ++ sender.text.toList := by
      simp only [List.mem_append, not_or]
      exact ⟨⟨⟨by decide, notMem_repr _ (by decide)⟩, by decide⟩,
        notInAddress _ (by decide)⟩
    rw [isDuplicateNodeIdFailure, containsStr_eq_false, Error.toString, shape,
      List.infix_cons_iff, not_or]
    constructor
    · intro atFront
      have starts : ("duplicate node.id".toList).head? = some 'u' := by
        rcases atFront with ⟨rest, equal⟩
        exact congrArg List.head? equal
      exact absurd starts (by decide)
    · intro behind
      exact noU (behind.subset (by decide))

/-- No occurrence of a searched text starts in front of the group. -/
theorem containsStr_group (groupId : String) :
    containsStr ("unexpected HA group " ++ groupId) "authentication failed" =
        containsStr groupId "authentication failed" ∧
      containsStr ("unexpected HA group " ++ groupId) "duplicate node.id" =
        containsStr groupId "duplicate node.id" := by
  have group : ("unexpected HA group " ++ groupId).toList =
      ['u', 'n', 'e', 'x', 'p', 'e', 'c', 't', 'e', 'd', ' ', 'H', 'A', ' ',
        'g', 'r', 'o', 'u', 'p', ' '] ++ groupId.toList := by
    rw [String.toList_append]
    rfl
  have authentication : "authentication failed".toList = ['a', 'u', 't', 'h', 'e', 'n',
    't', 'i', 'c', 'a', 't', 'i', 'o', 'n', ' ', 'f', 'a', 'i', 'l', 'e', 'd'] := rfl
  have duplicate : "duplicate node.id".toList = ['d', 'u', 'p', 'l', 'i', 'c', 'a', 't',
    'e', ' ', 'n', 'o', 'd', 'e', '.', 'i', 'd'] := rfl
  constructor
  · simp [containsStr, group, authentication, List.infix_cons_iff]
  · simp [containsStr, group, duplicate, List.infix_cons_iff]

end Checks

/-! ## How a rejection counts -/

namespace HaPacket

variable (packet : HaPacket) (hasher : DefaultHasher) (runtime : HaRuntimeConfig)

/-- Protocol version and group are those of the node. -/
def ofGroup : Bool :=
  packet.protocolVersion == runtime.protocolVersion && packet.groupId == runtime.groupId

/-- The packet is of the group and of another node, and its tag does not verify. -/
def failsAuth : Bool :=
  packet.ofGroup runtime && packet.nodeId != runtime.nodeId &&
    !verifyAuthTag hasher runtime packet

/-- The packet is of the group and carries the local `node.id`. -/
def duplicatesNodeId : Bool :=
  packet.ofGroup runtime && packet.nodeId == runtime.nodeId

/-- The packet is of a foreign group whose name contains the text searched for. -/
def misleads (pattern : String) : Bool :=
  packet.protocolVersion == runtime.protocolVersion &&
    packet.groupId != runtime.groupId && containsStr packet.groupId pattern

end HaPacket

section Rejection

variable {hasher : DefaultHasher} {runtime : HaRuntimeConfig} {payload : Bytes}
variable {packet : HaPacket}

theorem bailIf_passes {α : Type} {condition : Bool} {text : String}
    {rest : Unit → Except Error α} (passes : condition = false) :
    (bailIf condition text >>= rest) = rest () := by
  rw [passes]
  rfl

theorem bailIf_bails {α : Type} {condition : Bool} {text : String}
    {rest : Unit → Except Error α} (bails : condition = true) :
    (bailIf condition text >>= rest) = .error (.msg text) := by
  rw [bails]
  rfl

/-- What does not decode counts as invalid only. -/
theorem handleIncomingPacket_undecoded (hasher : DefaultHasher)
    (runtime : HaRuntimeConfig) {error : Error} (sender : SocketAddr) (observedAt : Int)
    (peerObservation : Option PeerObservation)
    (undecoded : HaPacket.decode payload = .error error) :
    handleIncomingPacket hasher runtime payload sender observedAt peerObservation =
        .error error ∧ Unclassified error := by
  refine ⟨?_, decode_fails payload error undecoded⟩
  rw [handleIncomingPacket, undecoded]
  rfl

/-- The searches find in the text of the error what the packet is rejected for, or
what its group name contains. -/
structure Classified (hasher : DefaultHasher) (runtime : HaRuntimeConfig)
    (packet : HaPacket) (error : Error) : Prop where
  auth : isAuthFailure error = (packet.failsAuth hasher runtime ||
    packet.misleads runtime "authentication failed")
  duplicate : isDuplicateNodeIdFailure error = (packet.duplicatesNodeId runtime ||
    packet.misleads runtime "duplicate node.id")

theorem classified_version (sender : SocketAddr)
    (version : packet.protocolVersion ≠ runtime.protocolVersion) :
    Classified hasher runtime packet
      (.msg ("unexpected HA protocol version " ++ Nat.repr packet.protocolVersion.toNat ++
        " from " ++ sender.text)) := by
  have otherVersion := beq_false_of_ne version
  have unclassified := unclassified_version packet.protocolVersion sender
  constructor
  · simp only [unclassified.notAuth, HaPacket.failsAuth, HaPacket.ofGroup,
      HaPacket.misleads, otherVersion, Bool.false_and, Bool.or_false]
  · simp only [unclassified.notDuplicate, HaPacket.duplicatesNodeId, HaPacket.ofGroup,
      HaPacket.misleads, otherVersion, Bool.false_and, Bool.or_false]

theorem classified_group (version : packet.protocolVersion = runtime.protocolVersion)
    (group : packet.groupId ≠ runtime.groupId) :
    Classified hasher runtime packet
      (.msg ("unexpected HA group " ++ packet.groupId)) := by
  have foreign := bne_iff_ne.mpr group
  have notOwn := beq_false_of_ne group
  rcases containsStr_group packet.groupId with ⟨auth, duplicate⟩
  constructor
  · simp only [isAuthFailure, Error.toString, auth, HaPacket.failsAuth, HaPacket.ofGroup,
      HaPacket.misleads, version, foreign, notOwn, beq_self_eq_true, Bool.and_false,
      Bool.false_and, Bool.true_and, Bool.false_or]
  · simp only [isDuplicateNodeIdFailure, Error.toString, duplicate,
      HaPacket.duplicatesNodeId, HaPacket.ofGroup, HaPacket.misleads, version, foreign,
      notOwn, beq_self_eq_true, Bool.and_false, Bool.false_and, Bool.true_and,
      Bool.false_or]

theorem classified_duplicate (version : packet.protocolVersion = runtime.protocolVersion)
    (group : packet.groupId = runtime.groupId) (node : packet.nodeId = runtime.nodeId) :
    Classified hasher runtime packet
      (.msg "received HA packet with duplicate node.id") := by
  constructor
  · simp only [HaPacket.failsAuth, HaPacket.misleads, group, node, bne_self_eq_false,
      Bool.and_false, Bool.false_and, Bool.or_false]
    decide +kernel
  · simp only [HaPacket.duplicatesNodeId, HaPacket.ofGroup, version, group, node,
      beq_self_eq_true, Bool.and_true, Bool.true_or]
    decide +kernel

theorem classified_tag (version : packet.protocolVersion = runtime.protocolVersion)
    (group : packet.groupId = runtime.groupId) (node : packet.nodeId ≠ runtime.nodeId)
    (tag : verifyAuthTag hasher runtime packet = false) :
    Classified hasher runtime packet (.msg "HA packet authentication failed") := by
  have distinct := bne_iff_ne.mpr node
  have notOwn := beq_false_of_ne node
  constructor
  · simp only [HaPacket.failsAuth, HaPacket.ofGroup, version, group, distinct, tag,
      beq_self_eq_true, Bool.and_true, Bool.not_false, Bool.true_or]
    decide +kernel
  · simp only [HaPacket.duplicatesNodeId, HaPacket.misleads, group, notOwn,
      bne_self_eq_false, Bool.and_false, Bool.false_and, Bool.or_false]
    decide +kernel

/-- A packet that is not accepted is rejected with the text of the first check it
fails. -/
theorem handleIncomingPacket_refused (sender : SocketAddr) (observedAt : Int)
    (peerObservation : Option PeerObservation)
    (decoded : HaPacket.decode payload = .ok packet)
    (refused : ¬packet.AcceptedBy hasher runtime) :
    ∃ error,
      handleIncomingPacket hasher runtime payload sender observedAt peerObservation =
        .error error ∧ Classified hasher runtime packet error := by
  have start : ∀ next : HaPacket → Except Error PeerObservation,
      (HaPacket.decode payload >>= next) = next packet := by
    rw [decoded]
    exact fun _ => rfl
  rw [handleIncomingPacket, start]
  by_cases version : packet.protocolVersion = runtime.protocolVersion
  · rw [bailIf_passes (bne_eq_false_iff_eq.mpr version)]
    by_cases group : packet.groupId = runtime.groupId
    · rw [bailIf_passes (bne_eq_false_iff_eq.mpr group)]
      by_cases node : packet.nodeId = runtime.nodeId
      · rw [bailIf_bails (beq_iff_eq.mpr node)]
        exact ⟨_, rfl, classified_duplicate version group node⟩
      · rw [bailIf_passes (beq_false_of_ne node)]
        have tag : verifyAuthTag hasher runtime packet = false := by
          by_contra verifies
          exact refused ⟨version, group, node, Bool.eq_true_of_not_eq_false verifies⟩
        rw [bailIf_bails (by rw [tag]; rfl)]
        exact ⟨_, rfl, classified_tag version group node tag⟩
    · rw [bailIf_bails (bne_iff_ne.mpr group)]
      exact ⟨_, rfl, classified_group version group⟩
  · rw [bailIf_bails (bne_iff_ne.mpr version)]
    exact ⟨_, rfl, classified_version sender version⟩

end Rejection

end Gruezi.Ha
