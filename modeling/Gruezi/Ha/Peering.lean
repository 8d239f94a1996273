import Gruezi.Ha.Loop

/-!
# Peering

Which nodes accept each other's advertisements.  The bytes one configuration
sends are accepted by another exactly when the two agree on the protocol
version, the group and the authentication and differ in their node identifiers.
-/

namespace Gruezi.Ha

open Rust Lib

/-- Two configurations that are meant to hear each other. -/
structure Peers (left right : HaRuntimeConfig) : Prop where
  protocolVersion : left.protocolVersion = right.protocolVersion
  groupId : left.groupId = right.groupId
  nodeId : left.nodeId ≠ right.nodeId
  auth : left.auth = right.auth

theorem Peers.symm {left right : HaRuntimeConfig} (peers : Peers left right) :
    Peers right left :=
  ⟨peers.protocolVersion.symm, peers.groupId.symm, peers.nodeId.symm, peers.auth.symm⟩

theorem peers_comm {left right : HaRuntimeConfig} :
    Peers left right ↔ Peers right left :=
  ⟨Peers.symm, Peers.symm⟩

/-- The hasher tells the two streams for a packet apart, unless they are the
same stream. -/
def NoCollision (hasher : DefaultHasher) (left right : HaAuth) (packet : HaPacket) :
    Prop :=
  ∀ leftKey rightKey, left = .sharedKey leftKey → right = .sharedKey rightKey →
    hasher.finish (authStream leftKey packet) =
      hasher.finish (authStream rightKey packet) →
    authStream leftKey packet = authStream rightKey packet

variable {hasher : DefaultHasher} {sender receiver : HaRuntimeConfig}
variable {state : HaState} {sequence : UInt64} {packet : HaPacket} {bytes : Bytes}

/-- A tag tells two authentication settings apart. -/
theorem authTag_inj {left right : HaAuth}
    (noCollision : NoCollision hasher left right packet) :
    authTag hasher left packet = authTag hasher right packet ↔ left = right := by
  constructor
  · intro equal
    cases left with
    | none =>
        cases right with
        | none => rfl
        | sharedKey key =>
            have lengths := congrArg List.length equal
            simp [authTag] at lengths
    | sharedKey leftKey =>
        cases right with
        | none =>
            have lengths := congrArg List.length equal
            simp [authTag] at lengths
        | sharedKey rightKey =>
            simp only [authTag] at equal
            rw [BigEndian.toBytes_inj (UInt64.toNat_lt _) (UInt64.toNat_lt _),
              UInt64.toNat_inj] at equal
            have sameStream := noCollision leftKey rightKey rfl rfl equal
            rw [(authStream_inj.mp sameStream).1]
  · rintro rfl
    rfl

/-- The tag in an advertisement is the tag of the advertisement. -/
theorem advertisement_authTag :
    (advertisement hasher sender state sequence).authTag =
      authTag hasher sender.auth (advertisement hasher sender state sequence) :=
  (authTag_withTag hasher sender.auth _ _).symm

/-- An advertisement passes the checks of a receiver exactly when the two are
peers. -/
theorem advertisement_acceptedBy_iff
    (noCollision : NoCollision hasher sender.auth receiver.auth
      (advertisement hasher sender state sequence)) :
    (advertisement hasher sender state sequence).AcceptedBy hasher receiver ↔
      Peers sender receiver := by
  have verifies : verifyAuthTag hasher receiver
      (advertisement hasher sender state sequence) = true ↔
        sender.auth = receiver.auth := by
    rw [verifyAuthTag, beq_iff_eq, advertisement_authTag, eq_comm,
      authTag_inj noCollision]
  constructor
  · intro accepted
    exact ⟨accepted.protocolVersion, accepted.groupId, accepted.nodeId,
      verifies.mp accepted.tagVerifies⟩
  · intro peers
    exact ⟨peers.protocolVersion, peers.groupId, peers.nodeId,
      verifies.mpr peers.auth⟩

/-- Peers accept each other's advertisements, whatever the hasher. -/
theorem Peers.acceptedBy (peers : Peers sender receiver) :
    (advertisement hasher sender state sequence).AcceptedBy hasher receiver := by
  apply (advertisement_acceptedBy_iff ?_).mpr peers
  intro leftKey rightKey left right _
  have sameKey : HaAuth.sharedKey leftKey = .sharedKey rightKey :=
    left.symm.trans (peers.auth.trans right)
  cases sameKey
  rfl

/-- Encoded bytes are accepted when the packet they encode passes the checks. -/
theorem handleIncomingPacket_encoded (encoded : packet.encode = .ok bytes)
    {runtime : HaRuntimeConfig} {from_ : SocketAddr} {observedAt : Int}
    {peerObservation : Option PeerObservation} {observation : PeerObservation} :
    handleIncomingPacket hasher runtime bytes from_ observedAt peerObservation =
        .ok observation ↔
      packet.AcceptedBy hasher runtime ∧
        observation = packet.observed peerObservation observedAt := by
  have decoded : HaPacket.decode bytes = .ok packet :=
    HaPacket.decode_eq_ok_iff.mpr (HaPacket.encode_eq_ok_iff.mp encoded)
  rw [handleIncomingPacket_eq_ok]
  constructor
  · rintro ⟨other, decodedOther, accepted, observed⟩
    cases decoded.symm.trans decodedOther
    exact ⟨accepted, observed⟩
  · rintro ⟨accepted, observed⟩
    exact ⟨packet, decoded, accepted, observed⟩

/-- The receiver accepts the bytes, whenever and from wherever they arrive. -/
def AcceptsBytes (hasher : DefaultHasher) (receiver : HaRuntimeConfig)
    (bytes : Bytes) (from_ : SocketAddr) (observedAt : Int)
    (peerObservation : Option PeerObservation) : Prop :=
  ∃ observation, handleIncomingPacket hasher receiver bytes from_ observedAt
    peerObservation = .ok observation

/-- The bytes a node sends are accepted exactly by its peers. -/
theorem acceptsBytes_iff_peers (built : buildPacket hasher sender state sequence =
      .ok packet) (encoded : packet.encode = .ok bytes)
    (noCollision : NoCollision hasher sender.auth receiver.auth packet)
    {from_ : SocketAddr} {observedAt : Int} {peerObservation : Option PeerObservation} :
    AcceptsBytes hasher receiver bytes from_ observedAt peerObservation ↔
      Peers sender receiver := by
  rcases buildPacket_eq_ok.mp built with ⟨_, rfl⟩
  rw [← advertisement_acceptedBy_iff noCollision]
  constructor
  · rintro ⟨observation, handled⟩
    exact ((handleIncomingPacket_encoded encoded).mp handled).1
  · intro accepted
    exact ⟨_, (handleIncomingPacket_encoded encoded).mpr ⟨accepted, rfl⟩⟩

/-- Peering is exact, records the sender as it is, and is symmetric. -/
theorem peering_exact_and_symmetric (hasher : DefaultHasher)
    (sender receiver : HaRuntimeConfig) (state : HaState) (sequence : UInt64)
    (packet : HaPacket) (bytes : Bytes)
    (built : buildPacket hasher sender state sequence = .ok packet)
    (encoded : packet.encode = .ok bytes)
    (noCollision : NoCollision hasher sender.auth receiver.auth packet)
    (from_ : SocketAddr) (observedAt : Int)
    (peerObservation : Option PeerObservation) :
    (AcceptsBytes hasher receiver bytes from_ observedAt peerObservation ↔
      sender.protocolVersion = receiver.protocolVersion ∧
        sender.groupId = receiver.groupId ∧ sender.nodeId ≠ receiver.nodeId ∧
        sender.auth = receiver.auth) ∧
    (∀ observation, handleIncomingPacket hasher receiver bytes from_ observedAt
        peerObservation = .ok observation →
      observation.nodeId = sender.nodeId ∧ observation.state = state ∧
        observation.priority = sender.priority) ∧
    (∀ (reverseState : HaState) (reverseSequence : UInt64) (reversePacket : HaPacket)
      (reverseBytes : Bytes) (reverseFrom : SocketAddr) (reverseAt : Int)
      (reverseObservation : Option PeerObservation),
      buildPacket hasher receiver reverseState reverseSequence = .ok reversePacket →
      reversePacket.encode = .ok reverseBytes →
      NoCollision hasher receiver.auth sender.auth reversePacket →
      (AcceptsBytes hasher sender reverseBytes reverseFrom reverseAt
          reverseObservation ↔
        AcceptsBytes hasher receiver bytes from_ observedAt peerObservation)) := by
  have accepts : AcceptsBytes hasher receiver bytes from_ observedAt peerObservation ↔
      Peers sender receiver := acceptsBytes_iff_peers built encoded noCollision
  refine ⟨?_, ?_, ?_⟩
  · rw [accepts]
    constructor
    · intro peers
      exact ⟨peers.protocolVersion, peers.groupId, peers.nodeId, peers.auth⟩
    · rintro ⟨protocolVersion, groupId, nodeId, auth⟩
      exact ⟨protocolVersion, groupId, nodeId, auth⟩
  · intro observation handled
    rcases (handleIncomingPacket_encoded encoded).mp handled with ⟨_, rfl⟩
    rcases buildPacket_eq_ok.mp built with ⟨_, rfl⟩
    exact ⟨rfl, rfl, rfl⟩
  · intro reverseState reverseSequence reversePacket reverseBytes reverseFrom reverseAt
      reverseObservation reverseBuilt reverseEncoded reverseNoCollision
    rw [accepts, acceptsBytes_iff_peers reverseBuilt reverseEncoded reverseNoCollision]
    exact peers_comm

/-! ## A concrete pair -/

def demoAddr : SocketAddr :=
  ⟨"10.0.0.2:9375", by decide⟩

/-- The runtime configuration of one node of a small pair: advertisements every
second, a window of three seconds, no authentication. -/
def demoRuntime (nodeId : String) (priority : UInt8) (preempt : Bool) :
    HaRuntimeConfig where
  nodeId
  groupId := "group"
  bind := "0.0.0.0:9375"
  peer := demoAddr.text
  interface := "eth0"
  addresses := ["10.0.0.10/24"]
  protocolVersion := 1
  priority
  preempt
  advertIntervalMs := 1000
  deadFactor := 3
  holdDownMs := 0
  jitterMs := 0
  auth := .none
  hooks := {
    onPromote := none
    onDemote := none
    onBackup := none
    onFault := none
    timeoutMs := 5000 }
  ipCommand := "ip"
  arpingCommand := "arping"
  ndsendCommand := "ndsend"

/-- An advertisement of a demo node; without authentication no hasher is asked. -/
def demoPacket (nodeId : String) (priority : UInt8) (state : HaState)
    (sequence : UInt64) : HaPacket :=
  advertisement ⟨fun _ => 0⟩ (demoRuntime nodeId priority false) state sequence

theorem wellFormed_demoPacket {nodeId : String} {priority : UInt8} {state : HaState}
    {sequence : UInt64} (notBlank : isBlank nodeId = false)
    (fits : (asBytes nodeId).length ≤ maxIdLen) :
    (demoPacket nodeId priority state sequence).WellFormed := by
  have groupNotBlank : isBlank "group" = false := by decide
  have groupFits : (asBytes "group").length ≤ maxIdLen := by decide
  exact ⟨notBlank, fits, groupNotBlank, groupFits, Nat.zero_le _⟩

/-- A hasher that takes in one byte after the other. -/
def demoHasher : DefaultHasher where
  finish bytes := bytes.foldl
    (fun hash byte => (hash ^^^ byte.toUInt64) * 1099511628211) 14695981039346656037

/-- A node of the pair with a shared key. -/
def demoKeyed (nodeId key : String) : HaRuntimeConfig :=
  { demoRuntime nodeId 100 false with auth := .sharedKey key }

/-- A node with the same key accepts what one with another key does not. -/
theorem peering_exact_and_symmetric_demo :
    AcceptsBytes demoHasher (demoKeyed "high" "secret")
        (advertisement demoHasher (demoKeyed "low" "secret") .standby 1).wire demoAddr 0 none ∧
      ¬AcceptsBytes demoHasher (demoKeyed "high" "guess")
        (advertisement demoHasher (demoKeyed "low" "secret") .standby 1).wire demoAddr 0
          none := by
  have built : buildPacket demoHasher (demoKeyed "low" "secret") .standby 1 =
      .ok (advertisement demoHasher (demoKeyed "low" "secret") .standby 1) :=
    buildPacket_eq_ok.mpr ⟨by decide, rfl⟩
  have tagFits : (advertisement demoHasher (demoKeyed "low" "secret") .standby 1).authTag.length ≤
      maxAuthTagLen := by
    rw [advertisement_authTag]
    exact (length_authTag_le _ _ _).trans (by decide)
  have wellFormed :
      (advertisement demoHasher (demoKeyed "low" "secret") .standby 1).WellFormed :=
    ⟨by decide, by decide, by decide, by decide, tagFits⟩
  have encoded := HaPacket.encode_eq_ok_iff.mpr ⟨wellFormed, rfl⟩
  constructor
  · have noCollision : NoCollision demoHasher (demoKeyed "low" "secret").auth
        (demoKeyed "high" "secret").auth
        (advertisement demoHasher (demoKeyed "low" "secret") .standby 1) := by
      rintro leftKey rightKey ⟨⟩ ⟨⟩ _
      rfl
    exact (peering_exact_and_symmetric _ _ _ _ _ _ _ built encoded noCollision _ _ _).1.mpr
      ⟨rfl, rfl, by decide, rfl⟩
  · have noCollision : NoCollision demoHasher (demoKeyed "low" "secret").auth
        (demoKeyed "high" "guess").auth
        (advertisement demoHasher (demoKeyed "low" "secret") .standby 1) := by
      rintro leftKey rightKey ⟨⟩ ⟨⟩ collides
      revert collides
      decide +kernel
    intro accepts
    have peers := (peering_exact_and_symmetric _ _ _ _ _ _ _ built encoded noCollision
      _ _ _).1.mp accepts
    exact absurd peers.2.2.2 (by decide)

end Gruezi.Ha
