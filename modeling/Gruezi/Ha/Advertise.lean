import Gruezi.Ha.Peering

/-!
# Which configurations can advertise

Validation bounds neither the length of the identifiers nor the size of the
advertisement interval, but the packet format does.  A validated configuration
advertises exactly when it keeps within the format's limits too.
-/

namespace Gruezi.Ha

open Rust

/-- The limits of the packet format on a configuration. -/
structure WithinPacketLimits (config : Config) : Prop where
  nodeId : ∀ nodeId ∈ trimmed config.node.id, (asBytes nodeId).length ≤ maxIdLen
  groupId : (asBytes config.ha.groupId).length ≤ maxIdLen
  advertIntervalMs : config.ha.advertIntervalMs.toNat < 2 ^ 32

/-- Every packet of the configuration can be built and encoded, and a send event
whose datagram the socket takes succeeds. -/
structure Advertises (hasher : DefaultHasher) (runtime : HaRuntimeConfig) : Prop where
  packets : ∀ state sequence, ∃ packet bytes,
    buildPacket hasher runtime state sequence = .ok packet ∧
      packet.encode = .ok bytes
  sendEvents : ∀ peerAddr statusTx loopState scheduledAt publishedAt,
    (handleSendEvent hasher runtime peerAddr statusTx loopState (.ok ()) scheduledAt
      publishedAt).result = .ok ()

variable {hasher : DefaultHasher} {runtime : HaRuntimeConfig} {config : Config}

/-- The tag never exceeds its limit, so an advertisement is well formed as soon
as its identifiers are. -/
theorem wellFormed_advertisement_iff {state : HaState} {sequence : UInt64} :
    (advertisement hasher runtime state sequence).WellFormed ↔
      (isBlank runtime.nodeId = false ∧ (asBytes runtime.nodeId).length ≤ maxIdLen) ∧
        isBlank runtime.groupId = false ∧
        (asBytes runtime.groupId).length ≤ maxIdLen := by
  constructor
  · intro wellFormed
    exact ⟨⟨wellFormed.nodeIdNotBlank, wellFormed.nodeIdLen⟩,
      wellFormed.groupIdNotBlank, wellFormed.groupIdLen⟩
  · rintro ⟨⟨nodeIdNotBlank, nodeIdLen⟩, groupIdNotBlank, groupIdLen⟩
    have tagLen : (advertisement hasher runtime state sequence).authTag.length ≤ 8 := by
      rw [advertisement_authTag]
      exact length_authTag_le _ _ _
    exact ⟨nodeIdNotBlank, nodeIdLen, groupIdNotBlank, groupIdLen,
      tagLen.trans (by decide)⟩

/-- Validation guarantees the conversion, and names what it yields. -/
theorem tryFrom_of_validHa (mode : config.mode = .ha) (valid : config.ValidHa) :
    ∃ runtime, HaRuntimeConfig.tryFrom config = .ok runtime ∧
      trimmed config.node.id = some runtime.nodeId ∧
      runtime.groupId = config.ha.groupId ∧
      runtime.advertIntervalMs = config.ha.advertIntervalMs := by
  rcases Option.isSome_iff_exists.mp valid.nodeId with ⟨nodeId, nodeIdEq⟩
  rcases Option.isSome_iff_exists.mp valid.peer with ⟨peer, peerEq⟩
  obtain ⟨auth, authEq⟩ : ∃ auth,
      HaRuntimeConfig.tryFromAuth config.ha.auth = .ok auth := by
    have accepted := valid.auth
    simp only [Config.validateAuth, HaRuntimeConfig.tryFromAuth] at accepted ⊢
    cases authMode : config.ha.auth.mode with
    | none => exact ⟨.none, rfl⟩
    | sharedKey =>
        cases key : trimmed config.ha.auth.key with
        | none => simp [authMode, key] at accepted
        | some text => exact ⟨.sharedKey text, rfl⟩
  have isHa : bailIf (config.mode != .ha) "HA runtime config requires mode 'ha'" =
      .ok () := by
    rw [mode]
    rfl
  simp only [HaRuntimeConfig.tryFrom, isHa, nodeIdEq, peerEq, authEq, Option.elim_some]
  exact ⟨_, rfl, rfl, rfl, rfl⟩

/-- A conversion that keeps within the limits advertises, and no other does. -/
theorem advertises_iff (nodeIdNotBlank : isBlank runtime.nodeId = false)
    (groupIdNotBlank : isBlank runtime.groupId = false) :
    Advertises hasher runtime ↔
      (asBytes runtime.nodeId).length ≤ maxIdLen ∧
        (asBytes runtime.groupId).length ≤ maxIdLen ∧
        runtime.advertIntervalMs.toNat < 2 ^ 32 := by
  constructor
  · intro advertises
    rcases advertises.packets .init 0 with ⟨packet, bytes, built, encoded⟩
    rcases buildPacket_eq_ok.mp built with ⟨interval, rfl⟩
    have wellFormed := (HaPacket.encode_eq_ok_iff.mp encoded).1
    exact ⟨wellFormed.nodeIdLen, wellFormed.groupIdLen, interval⟩
  · rintro ⟨nodeIdLen, groupIdLen, interval⟩
    have encodes : ∀ state sequence,
        buildPacket hasher runtime state sequence =
            .ok (advertisement hasher runtime state sequence) ∧
          (advertisement hasher runtime state sequence).encode =
            .ok (advertisement hasher runtime state sequence).wire := by
      intro state sequence
      refine ⟨buildPacket_eq_ok.mpr ⟨interval, rfl⟩,
        HaPacket.encode_eq_ok_iff.mpr ⟨?_, rfl⟩⟩
      exact wellFormed_advertisement_iff.mpr
        ⟨⟨nodeIdNotBlank, nodeIdLen⟩, groupIdNotBlank, groupIdLen⟩
    constructor
    · intro state sequence
      exact ⟨_, _, encodes state sequence⟩
    · intro peerAddr statusTx loopState scheduledAt publishedAt
      have sent : ∃ next datagram, sendAdvertisement hasher runtime peerAddr
          loopState.state loopState.sequence (.ok ()) = .ok (next, datagram) :=
        ⟨_, _, sendAdvertisement_eq_ok.mpr
          ⟨rfl, rfl, _, encodes loopState.state (saturatingAdd loopState.sequence 1)⟩⟩
      rcases sent with ⟨next, datagram, sent⟩
      obtain ⟨_, _, _, _, _, result, _⟩ | ⟨error, _, failed, _⟩ | ⟨error, failed, _⟩ :=
        handleSendEvent_cases hasher runtime peerAddr statusTx loopState (.ok ())
          scheduledAt publishedAt
      · exact result
      · cases sent.symm.trans failed
      · cases sent.symm.trans failed

/-- A validated configuration always converts, and can advertise exactly when it
keeps within the limits of the packet format. -/
theorem advertises_of_validated_iff (hasher : DefaultHasher) (config : Config)
    (mode : config.mode = .ha) (accepted : config.validate = .ok ()) :
    (∃ runtime, HaRuntimeConfig.tryFrom config = .ok runtime ∧
        Advertises hasher runtime) ↔
      WithinPacketLimits config := by
  have valid := Config.validHa_of_validate mode accepted
  obtain ⟨runtime, converted, nodeIdEq, groupIdEq, intervalEq⟩ :=
    tryFrom_of_validHa mode valid
  have advertises : Advertises hasher runtime ↔ _ :=
    advertises_iff (isBlank_of_trimmed_eq_some nodeIdEq) (groupIdEq ▸ valid.groupId)
  constructor
  · rintro ⟨other, convertedOther, advertisesOther⟩
    cases converted.symm.trans convertedOther
    rcases advertises.mp advertisesOther with ⟨nodeIdLen, groupIdLen, interval⟩
    refine ⟨?_, groupIdEq ▸ groupIdLen, intervalEq ▸ interval⟩
    intro nodeId found
    cases nodeIdEq.symm.trans found
    exact nodeIdLen
  · intro limits
    refine ⟨runtime, converted, advertises.mpr ⟨?_, ?_, ?_⟩⟩
    · exact limits.nodeId runtime.nodeId nodeIdEq
    · exact groupIdEq.symm ▸ limits.groupId
    · exact intervalEq.symm ▸ limits.advertIntervalMs

/-! ## An identifier one byte too long -/

/-- A valid configuration of the demo group, with the given node identifier. -/
def demoConfig (nodeId : String) : Config where
  mode := .ha
  node := { id := some nodeId }
  ha := {
    bind := "0.0.0.0:9375"
    interface := "eth0"
    addresses := ["10.0.0.10/24"]
    peer := some "10.0.0.2:9375"
    groupId := "group"
    protocolVersion := 1
    priority := 100
    preempt := false
    advertIntervalMs := 1000
    deadFactor := 3
    holdDownMs := 3000
    jitterMs := 100
    auth := { mode := .none, key := none }
    hooks := {
      onPromote := none
      onDemote := none
      onBackup := none
      onFault := none
      timeoutMs := 5000 } }
  kv := { dataDir := "", initialCluster := [] }

/-- Validation accepts a node identifier of 65 bytes, which no packet can carry. -/
theorem validated_cannot_advertise :
    ¬∀ (hasher : DefaultHasher) (config : Config), config.mode = .ha →
      config.validate = .ok () →
      ∃ runtime, HaRuntimeConfig.tryFrom config = .ok runtime ∧
        ∀ state sequence, ∃ packet bytes,
          buildPacket hasher runtime state sequence = .ok packet ∧
            packet.encode = .ok bytes := by
  intro always
  obtain ⟨runtime, converted, packets⟩ := always ⟨fun _ => 0⟩
    (demoConfig (String.ofList (List.replicate 65 'n'))) rfl (by decide +kernel)
  rcases packets .init 0 with ⟨packet, bytes, built, encoded⟩
  have refused : (do
      let runtime ← HaRuntimeConfig.tryFrom
        (demoConfig (String.ofList (List.replicate 65 'n')))
      let packet ← buildPacket ⟨fun _ => 0⟩ runtime .init 0
      packet.encode).isOk = false := by
    decide +kernel
  rw [converted] at refused
  simp only [bind, Except.bind, built, encoded] at refused
  cases refused

theorem advertises_of_validated_iff_demo :
    (∃ runtime, HaRuntimeConfig.tryFrom (demoConfig "low") = .ok runtime ∧
        Advertises ⟨fun _ => 0⟩ runtime) ↔
      WithinPacketLimits (demoConfig "low") :=
  advertises_of_validated_iff _ (demoConfig "low") rfl (by decide +kernel)

end Gruezi.Ha
