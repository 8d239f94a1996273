import Gruezi.Ha.Auth
import Gruezi.Ha.Effects
import Mathlib.Data.List.Infix

/-!
# The handlers of the control loop

One definition for each function the loop of `run_with_status` calls, with the
clock readings and the socket results they obtain as arguments.  The spec lemmas
beside them say which fields of the loop state each one can change.
-/

namespace Gruezi.Ha

open Rust

def initializeLoopState (runtime : HaRuntimeConfig) (statusTx : Bool)
    (startupAt scheduledAt : Int) : HaLoopState × List Effect :=
  let loopState := {
    startupAt
    sequence := 0
    state := .init
    activePeerConflict := false
    decisionReason := .startup
    lastTransitionReason := none
    lastTransitionAt := none
    peerObservation := none
    counters := {}
    nextAdvertAt := Instant.add scheduledAt (runtime.nextAdvertDelay 1) }
  (loopState, publishLoopStatus runtime statusTx loopState startupAt)

/-! ## Refreshing the local state -/

def refreshLocalState (runtime : HaRuntimeConfig) (statusTx : Bool)
    (loopState : HaLoopState) (now : Int) : HaLoopState × List Effect :=
  let decision := desiredState runtime loopState.state loopState.peerObservation
    loopState.startupAt now loopState.activePeerConflict
  let activePeerConflict :=
    if decision.reason = .peerBecameActiveConflict then true
    else if !hasLiveActivePeer runtime loopState.peerObservation now then false
    else loopState.activePeerConflict
  let decided := { loopState with
    activePeerConflict
    decisionReason := decision.reason }
  if decided.state = decision.state then
    (decided, publishLoopStatus runtime statusTx decided now)
  else
    let triggered := triggerStateHooks runtime decided.state decision.state
      decision.reason decided.peerObservation now
    let entered := { decided with
      state := decision.state
      lastTransitionReason := some decision.reason
      lastTransitionAt := some now }
    (entered, triggered ++ publishLoopStatus runtime statusTx entered now)

section Refresh

variable (runtime : HaRuntimeConfig) (statusTx : Bool) (loopState : HaLoopState)
variable (now : Int)

/-- The decision a refresh at `now` takes. -/
def refreshDecision : HaDecision :=
  desiredState runtime loopState.state loopState.peerObservation
    loopState.startupAt now loopState.activePeerConflict

/-- The loop state a refresh leaves behind. -/
def refreshed : HaLoopState :=
  (refreshLocalState runtime true loopState now).1

theorem refreshLocalState_fst :
    (refreshLocalState runtime statusTx loopState now).1 =
      refreshed runtime loopState now := by
  simp only [refreshed, refreshLocalState]
  split_ifs <;> rfl

@[simp] theorem refreshed_state :
    (refreshed runtime loopState now).state =
      (refreshDecision runtime loopState now).state := by
  simp only [refreshed, refreshLocalState, refreshDecision]
  split
  · next same => exact same
  · rfl

@[simp] theorem refreshed_decisionReason :
    (refreshed runtime loopState now).decisionReason =
      (refreshDecision runtime loopState now).reason := by
  simp only [refreshed, refreshLocalState, refreshDecision]
  split <;> rfl

/-- The latch is set by a conflict decision, and kept only while a live peer
stays `Active`. -/
theorem refreshed_activePeerConflict :
    (refreshed runtime loopState now).activePeerConflict =
      if (refreshDecision runtime loopState now).reason = .peerBecameActiveConflict then
        true
      else
        hasLiveActivePeer runtime loopState.peerObservation now &&
          loopState.activePeerConflict := by
  have decided : (refreshed runtime loopState now).activePeerConflict =
      if (refreshDecision runtime loopState now).reason = .peerBecameActiveConflict then
        true
      else if !hasLiveActivePeer runtime loopState.peerObservation now then
        false
      else
        loopState.activePeerConflict := by
    simp only [refreshed, refreshLocalState]
    split <;> rfl
  rw [decided]
  cases hasLiveActivePeer runtime loopState.peerObservation now <;> simp

@[simp] theorem refreshed_peerObservation :
    (refreshed runtime loopState now).peerObservation = loopState.peerObservation := by
  simp only [refreshed, refreshLocalState]
  split <;> rfl

@[simp] theorem refreshed_startupAt :
    (refreshed runtime loopState now).startupAt = loopState.startupAt := by
  simp only [refreshed, refreshLocalState]
  split <;> rfl

@[simp] theorem refreshed_sequence :
    (refreshed runtime loopState now).sequence = loopState.sequence := by
  simp only [refreshed, refreshLocalState]
  split <;> rfl

@[simp] theorem refreshed_counters :
    (refreshed runtime loopState now).counters = loopState.counters := by
  simp only [refreshed, refreshLocalState]
  split <;> rfl

@[simp] theorem refreshed_nextAdvertAt :
    (refreshed runtime loopState now).nextAdvertAt = loopState.nextAdvertAt := by
  simp only [refreshed, refreshLocalState]
  split <;> rfl

end Refresh

/-! ## Receiving -/

/-- `str::contains`. -/
def containsStr (text pattern : String) : Bool :=
  decide (pattern.toList <:+: text.toList)

def isAuthFailure (error : Error) : Bool :=
  containsStr error.toString "authentication failed"

def isDuplicateNodeIdFailure (error : Error) : Bool :=
  containsStr error.toString "duplicate node.id"

def isTransientIoError (ioError : IoError) : Bool :=
  match ioError.kind with
  | .permissionDenied
  | .hostUnreachable
  | .networkUnreachable
  | .connectionRefused
  | .connectionReset
  | .brokenPipe
  | .timedOut => true
  | .addrInUse
  | .invalidInput
  | .other => false

def isTransientSendFailure (error : Error) : Bool :=
  error.ioCauses.any isTransientIoError

/-- The value a successful call writes to `*peer_observation`; a failing call
leaves it as it was. -/
def handleIncomingPacket (hasher : DefaultHasher) (runtime : HaRuntimeConfig)
    (payload : Bytes) (sender : SocketAddr) (observedAt : Int)
    (peerObservation : Option PeerObservation) : Except Error PeerObservation := do
  let packet ← HaPacket.decode payload
  let previousPeerState := peerObservation.bind fun observation =>
    if observation.nodeId = packet.nodeId then some observation.state else none
  bailIf (packet.protocolVersion != runtime.protocolVersion)
    ("unexpected HA protocol version " ++ Nat.repr packet.protocolVersion.toNat ++
      " from " ++ sender.text)
  bailIf (packet.groupId != runtime.groupId)
    ("unexpected HA group " ++ packet.groupId)
  bailIf (packet.nodeId == runtime.nodeId)
    "received HA packet with duplicate node.id"
  bailIf (!verifyAuthTag hasher runtime packet) "HA packet authentication failed"
  return {
    nodeId := packet.nodeId
    state := packet.state
    priority := packet.priority
    becameActive := packet.state == .active &&
      previousPeerState.any fun previousState => previousState != .active
    observedAt }

/-- The checks `handle_incoming_packet` puts a decoded packet to. -/
structure HaPacket.AcceptedBy (packet : HaPacket) (hasher : DefaultHasher)
    (runtime : HaRuntimeConfig) : Prop where
  protocolVersion : packet.protocolVersion = runtime.protocolVersion
  groupId : packet.groupId = runtime.groupId
  nodeId : packet.nodeId ≠ runtime.nodeId
  tagVerifies : verifyAuthTag hasher runtime packet = true

/-- What accepting a packet turns the previous observation into. -/
def HaPacket.observed (packet : HaPacket) (peerObservation : Option PeerObservation)
    (observedAt : Int) : PeerObservation where
  nodeId := packet.nodeId
  state := packet.state
  priority := packet.priority
  becameActive := packet.state == .active && peerObservation.any fun previous =>
    previous.nodeId == packet.nodeId && previous.state != .active
  observedAt

/-- A payload is accepted when it decodes to a packet that passes the checks,
and nothing else of it or of its sender is looked at. -/
theorem handleIncomingPacket_eq_ok {hasher : DefaultHasher} {runtime : HaRuntimeConfig}
    {payload : Bytes} {sender : SocketAddr} {observedAt : Int}
    {peerObservation : Option PeerObservation} {observation : PeerObservation} :
    handleIncomingPacket hasher runtime payload sender observedAt peerObservation =
        .ok observation ↔
      ∃ packet, HaPacket.decode payload = .ok packet ∧
        packet.AcceptedBy hasher runtime ∧
        observation = packet.observed peerObservation observedAt := by
  have previousState : ∀ packet : HaPacket,
      ((peerObservation.bind fun observation =>
        if observation.nodeId = packet.nodeId then some observation.state else none).any
          fun previousState => previousState != .active) =
        peerObservation.any fun previous =>
          previous.nodeId == packet.nodeId && previous.state != .active := by
    intro packet
    cases peerObservation with
    | none => rfl
    | some previous =>
        by_cases samePeer : previous.nodeId = packet.nodeId <;> simp [samePeer]
  simp only [handleIncomingPacket, bind_eq_ok, bailIf_eq_ok, exists_const,
    previousState]
  constructor
  · rintro ⟨packet, decoded, version, group, distinct, tag, returned⟩
    cases returned
    exact ⟨packet, decoded,
      ⟨by simpa using version, by simpa using group, by simpa using distinct,
        by simpa using tag⟩, rfl⟩
  · rintro ⟨packet, decoded, accepted, rfl⟩
    exact ⟨packet, decoded, by simpa using accepted.protocolVersion,
      by simpa using accepted.groupId, by simpa using accepted.nodeId,
      by simpa using accepted.tagVerifies, rfl⟩

/-- The receive buffer, `[u8; 1024]`. -/
structure Buffer where
  bytes : Bytes
  length_eq : bytes.length = 1024

def Buffer.zero : Buffer :=
  ⟨List.replicate 1024 0, List.length_replicate⟩

/-- `recv_from`: the datagram's first bytes, as many as fit, overwrite the front
of the buffer, and their number is returned. -/
def Buffer.recvFrom (buffer : Buffer) (datagram : Bytes) : Nat × Buffer :=
  (min datagram.length 1024,
    { bytes := datagram.take 1024 ++ buffer.bytes.drop (min datagram.length 1024)
      length_eq := by
        have := buffer.length_eq
        simp only [List.length_append, List.length_take, List.length_drop]
        omega })

theorem Buffer.take_recvFrom (buffer : Buffer) (datagram : Bytes) :
    (buffer.recvFrom datagram).2.bytes.take (buffer.recvFrom datagram).1 =
      datagram.take 1024 := by
  simp only [recvFrom]
  apply List.take_left'
  rw [List.length_take, Nat.min_comm]

/-- What a handler returns, with the loop state and the effects it leaves. -/
structure Outcome where
  result : Except Error Unit
  loopState : HaLoopState
  effects : List Effect

def handleReceiveEvent (hasher : DefaultHasher) (runtime : HaRuntimeConfig)
    (statusTx : Bool) (loopState : HaLoopState)
    (recv : Except IoError (Nat × SocketAddr)) (buffer : Buffer) (observedAt : Int) :
    Outcome :=
  match recv with
  | .error error =>
      if isTransientIoError error then
        { result := .ok (), loopState, effects := [] }
      else
        { result := .error (.context "failed to receive HA packet" (.io error)),
          loopState, effects := [] }
  | .ok (len, sender) =>
      if len ≤ buffer.bytes.length then
        let payload := buffer.bytes.take len
        match handleIncomingPacket hasher runtime payload sender observedAt
            loopState.peerObservation with
        | .error error =>
            let counters := loopState.counters
            let rejected := { loopState with
              counters := { counters with
                invalidPackets := saturatingAdd counters.invalidPackets 1
                authFailures :=
                  if isAuthFailure error then saturatingAdd counters.authFailures 1
                  else counters.authFailures
                duplicateNodeIdPackets :=
                  if isDuplicateNodeIdFailure error then
                    saturatingAdd counters.duplicateNodeIdPackets 1
                  else counters.duplicateNodeIdPackets } }
            { result := .ok (), loopState := rejected, effects := [] }
        | .ok observation =>
            let accepted := { loopState with
              peerObservation := some observation
              counters := { loopState.counters with
                packetsReceived :=
                  saturatingAdd loopState.counters.packetsReceived 1 } }
            { result := .ok ()
              loopState := accepted
              effects := publishLoopStatus runtime statusTx accepted observedAt }
      else
        { result := .error (.msg "received invalid HA payload length"),
          loopState, effects := [] }

/-- All a receive event can change of the loop state besides the counters is the
observation, and it changes that only by accepting a packet. -/
theorem handleReceiveEvent_cases (hasher : DefaultHasher) (runtime : HaRuntimeConfig)
    (statusTx : Bool) (loopState : HaLoopState)
    (recv : Except IoError (Nat × SocketAddr)) (buffer : Buffer) (observedAt : Int) :
    (∃ counters,
      (handleReceiveEvent hasher runtime statusTx loopState recv buffer
        observedAt).loopState = { loopState with counters }) ∨
    (∃ len sender packet counters,
      recv = .ok (len, sender) ∧
      HaPacket.decode (buffer.bytes.take len) = .ok packet ∧
      packet.AcceptedBy hasher runtime ∧
      (handleReceiveEvent hasher runtime statusTx loopState recv buffer
        observedAt).loopState =
        { loopState with
          peerObservation := some (packet.observed loopState.peerObservation observedAt)
          counters }) := by
  cases recv with
  | error error =>
      left
      simp only [handleReceiveEvent]
      split <;> exact ⟨_, rfl⟩
  | ok received =>
      cases received with
      | mk len sender =>
          simp only [handleReceiveEvent]
          split
          · split
            · exact .inl ⟨_, rfl⟩
            · next observation handled =>
                obtain ⟨packet, decoded, accepted, rfl⟩ :=
                  handleIncomingPacket_eq_ok.mp handled
                exact .inr ⟨len, sender, packet, _, rfl, decoded, accepted, rfl⟩
          · exact .inl ⟨_, rfl⟩

/-- A packet that passes the checks is recorded. -/
theorem handleReceiveEvent_accepted {hasher : DefaultHasher} {runtime : HaRuntimeConfig}
    (statusTx : Bool) (loopState : HaLoopState) {len : Nat} (sender : SocketAddr)
    {buffer : Buffer} (observedAt : Int) {packet : HaPacket}
    (fits : len ≤ buffer.bytes.length)
    (decoded : HaPacket.decode (buffer.bytes.take len) = .ok packet)
    (accepted : packet.AcceptedBy hasher runtime) :
    ∃ counters effects,
      handleReceiveEvent hasher runtime statusTx loopState (.ok (len, sender)) buffer
          observedAt =
        { result := .ok ()
          loopState := { loopState with
            peerObservation :=
              some (packet.observed loopState.peerObservation observedAt)
            counters }
          effects } := by
  have handled : handleIncomingPacket hasher runtime (buffer.bytes.take len) sender
      observedAt loopState.peerObservation =
        .ok (packet.observed loopState.peerObservation observedAt) :=
    handleIncomingPacket_eq_ok.mpr ⟨packet, decoded, accepted, rfl⟩
  simp only [handleReceiveEvent, if_pos fits, handled]
  exact ⟨_, _, rfl⟩

/-! ## Sending -/

def buildPacket (hasher : DefaultHasher) (runtime : HaRuntimeConfig)
    (state : HaState) (sequence : UInt64) : Except Error HaPacket :=
  if runtime.advertIntervalMs.toNat < 2 ^ 32 then
    let packet : HaPacket := {
      protocolVersion := runtime.protocolVersion
      state
      priority := runtime.priority
      deadFactor := runtime.deadFactor
      advertIntervalMs := runtime.advertIntervalMs.toUInt32
      sequence
      nodeId := runtime.nodeId
      groupId := runtime.groupId
      authTag := [] }
    .ok { packet with authTag := authTag hasher runtime.auth packet }
  else
    .error (.msg "HA advert interval exceeds u32")

/-- `send_advertisement`, with the result of `send_to` as an argument: the next
sequence number and the datagram sent. -/
def sendAdvertisement (hasher : DefaultHasher) (runtime : HaRuntimeConfig)
    (peerAddr : SocketAddr) (state : HaState) (sequence : UInt64)
    (sendTo : Except IoError Unit) : Except Error (UInt64 × Bytes) := do
  let nextSequence := saturatingAdd sequence 1
  let packet ← buildPacket hasher runtime state nextSequence
  let encoded ← packet.encode
  match sendTo with
  | .ok () => return (nextSequence, encoded)
  | .error error =>
      throw (.context ("failed to send HA packet to " ++ peerAddr.text) (.io error))

def handleSendEvent (hasher : DefaultHasher) (runtime : HaRuntimeConfig)
    (peerAddr : SocketAddr) (statusTx : Bool) (loopState : HaLoopState)
    (sendTo : Except IoError Unit) (scheduledAt publishedAt : Int) : Outcome :=
  let reschedule (sent : HaLoopState) (effects : List Effect) : Outcome :=
    let scheduled := { sent with
      nextAdvertAt := Instant.add scheduledAt
        (runtime.nextAdvertDelay (sent.sequence + 1)) }
    { result := .ok ()
      loopState := scheduled
      effects := effects ++ publishLoopStatus runtime statusTx scheduled publishedAt }
  match sendAdvertisement hasher runtime peerAddr loopState.state loopState.sequence
      sendTo with
  | .ok (sequence, datagram) =>
      reschedule
        { loopState with
          sequence
          counters := { loopState.counters with
            packetsSent := saturatingAdd loopState.counters.packetsSent 1 } }
        [.sendTo datagram peerAddr]
  | .error error =>
      if isTransientSendFailure error then reschedule loopState []
      else { result := .error error, loopState, effects := [] }

/-- The packet `build_packet` makes, apart from the width of the interval. -/
def advertisement (hasher : DefaultHasher) (runtime : HaRuntimeConfig)
    (state : HaState) (sequence : UInt64) : HaPacket :=
  let packet : HaPacket := {
    protocolVersion := runtime.protocolVersion
    state
    priority := runtime.priority
    deadFactor := runtime.deadFactor
    advertIntervalMs := runtime.advertIntervalMs.toUInt32
    sequence
    nodeId := runtime.nodeId
    groupId := runtime.groupId
    authTag := [] }
  { packet with authTag := authTag hasher runtime.auth packet }

/-- The datagrams among the effects, in order. -/
def sentDatagrams (effects : List Effect) : List Bytes :=
  effects.filterMap fun effect =>
    match effect with
    | .sendTo datagram _ => some datagram
    | _ => none

section Send

variable {hasher : DefaultHasher} {runtime : HaRuntimeConfig} {peerAddr : SocketAddr}
variable {statusTx : Bool} {loopState : HaLoopState} {state : HaState}
variable {sequence next : UInt64} {sendTo : Except IoError Unit}

@[simp] theorem advertisement_state :
    (advertisement hasher runtime state sequence).state = state := rfl

@[simp] theorem advertisement_nodeId :
    (advertisement hasher runtime state sequence).nodeId = runtime.nodeId := rfl

@[simp] theorem advertisement_priority :
    (advertisement hasher runtime state sequence).priority = runtime.priority := rfl

theorem buildPacket_eq_ok {packet : HaPacket} :
    buildPacket hasher runtime state sequence = .ok packet ↔
      runtime.advertIntervalMs.toNat < 2 ^ 32 ∧
        packet = advertisement hasher runtime state sequence := by
  simp only [buildPacket, advertisement]
  split
  · next fits => simp only [fits, true_and, Except.ok.injEq, eq_comm]
  · next overflows => simp only [overflows, false_and, reduceCtorEq]

theorem sendAdvertisement_eq_ok {datagram : Bytes} :
    sendAdvertisement hasher runtime peerAddr state sequence sendTo =
        .ok (next, datagram) ↔
      sendTo = .ok () ∧ next = saturatingAdd sequence 1 ∧
        ∃ packet, buildPacket hasher runtime state next = .ok packet ∧
          packet.encode = .ok datagram := by
  simp only [sendAdvertisement, bind_eq_ok]
  constructor
  · rintro ⟨packet, built, encoded, encodes, sent⟩
    cases sendTo with
    | error error => cases sent
    | ok =>
        cases sent
        exact ⟨rfl, rfl, packet, built, encodes⟩
  · rintro ⟨rfl, rfl, packet, built, encodes⟩
    exact ⟨packet, built, datagram, encodes, rfl⟩

@[simp] theorem sentDatagrams_publish {now : Int} :
    sentDatagrams (publishLoopStatus runtime statusTx loopState now) = [] := by
  cases statusTx <;> rfl

/-- Only a send event hands a datagram to the socket. -/
theorem sentDatagrams_refresh {now : Int} :
    sentDatagrams (refreshLocalState runtime statusTx loopState now).2 = [] := by
  simp only [refreshLocalState]
  split
  · exact sentDatagrams_publish
  · simp only [sentDatagrams, List.filterMap_append, List.append_eq_nil_iff]
    refine ⟨?_, sentDatagrams_publish⟩
    simp only [triggerStateHooks]
    split
    · rfl
    · split <;> rfl

theorem sentDatagrams_receive {recv : Except IoError (Nat × SocketAddr)}
    {buffer : Buffer} {observedAt : Int} :
    sentDatagrams (handleReceiveEvent hasher runtime statusTx loopState recv buffer
      observedAt).effects = [] := by
  simp only [handleReceiveEvent]
  split
  · split <;> rfl
  · split
    · split
      · rfl
      · exact sentDatagrams_publish
    · rfl

/-- A send event hands over one datagram, or reschedules after a transient
failure, or fails and changes nothing. -/
theorem handleSendEvent_cases (hasher : DefaultHasher) (runtime : HaRuntimeConfig)
    (peerAddr : SocketAddr) (statusTx : Bool) (loopState : HaLoopState)
    (sendTo : Except IoError Unit) (scheduledAt publishedAt : Int) :
    let outcome := handleSendEvent hasher runtime peerAddr statusTx loopState sendTo
      scheduledAt publishedAt
    (∃ next datagram counters nextAdvertAt,
      sendAdvertisement hasher runtime peerAddr loopState.state loopState.sequence
        sendTo = .ok (next, datagram) ∧
      outcome.result = .ok () ∧ sentDatagrams outcome.effects = [datagram] ∧
      outcome.loopState =
        { loopState with sequence := next, counters, nextAdvertAt }) ∨
    (∃ error nextAdvertAt,
      sendAdvertisement hasher runtime peerAddr loopState.state loopState.sequence
        sendTo = .error error ∧
      isTransientSendFailure error = true ∧
      outcome.result = .ok () ∧ sentDatagrams outcome.effects = [] ∧
      outcome.loopState = { loopState with nextAdvertAt }) ∨
    (∃ error,
      sendAdvertisement hasher runtime peerAddr loopState.state loopState.sequence
        sendTo = .error error ∧
      isTransientSendFailure error = false ∧
      outcome = { result := .error error, loopState, effects := [] }) := by
  intro outcome
  simp only [outcome, handleSendEvent]
  cases sent : sendAdvertisement hasher runtime peerAddr loopState.state
      loopState.sequence sendTo with
  | ok sentPair =>
      left
      cases sentPair with
      | mk next datagram =>
          refine ⟨next, datagram, _, _, rfl, rfl, ?_, rfl⟩
          simp only [sentDatagrams, List.filterMap_append]
          exact congrArg ([datagram] ++ ·) sentDatagrams_publish
  | error error =>
      right
      cases transient : isTransientSendFailure error with
      | false => exact .inr ⟨error, rfl, transient, by simp [transient]⟩
      | true =>
          simp only [transient, if_true, List.nil_append]
          exact .inl ⟨error, _, rfl, transient, trivial, sentDatagrams_publish, rfl⟩

end Send

/-! ## Exit cleanup -/

/-- The locals of `cleanup_before_exit` that live across its awaits. -/
structure Cleanup where
  faulted : Bool
  previousState : HaState
  now : Int
  reason : HaDecisionReason
  context : HookContext

/-- `cleanup_before_exit` up to its first await, the removal of the addresses. -/
def beginCleanup (runtime : HaRuntimeConfig) (loopState : HaLoopState)
    (faulted : Bool) (now : Int) : Cleanup × List Effect :=
  let previousState := loopState.state
  let reason : HaDecisionReason := if faulted then .runtimeFault else .gracefulShutdown
  let context := hookContext runtime .init previousState (some reason)
    loopState.peerObservation now
  ({ faulted, previousState, now, reason, context },
    [.applyAddresses (addressManager runtime) .remove])

/-- The second await of `cleanup_before_exit`, the fault hook. -/
def Cleanup.faultHook (runtime : HaRuntimeConfig) (cleanup : Cleanup) : List Effect :=
  if cleanup.faulted then [.runHook runtime.hooks .fault cleanup.context] else []

/-- `cleanup_before_exit` after its awaits. -/
def Cleanup.finish (runtime : HaRuntimeConfig) (statusTx : Bool)
    (loopState : HaLoopState) (cleanup : Cleanup) : HaLoopState × List Effect :=
  let left :=
    if cleanup.previousState = .init then loopState
    else
      { loopState with
        lastTransitionReason := some cleanup.reason
        lastTransitionAt := some cleanup.now }
  let exited := { left with
    state := .init
    decisionReason := cleanup.reason }
  (exited, publishLoopStatus runtime statusTx exited cleanup.now)

end Gruezi.Ha
