import Gruezi.Ha.Decision

/-!
# Hooks, address actions and status snapshots

The data of everything the control loop does besides updating its own state.
Each call with an outside effect is one `Effect`; what the loop computes is the
list of them, in program order.
-/

namespace Gruezi.Ha

open Rust

structure HookContext where
  nodeId : String
  groupId : String
  interface : String
  state : HaState
  previousState : HaState
  reason : Option HaDecisionReason
  priority : UInt8
  peerId : Option String
  peerState : Option HaState
  peerPriority : Option UInt8
  lastPeerSeenMsAgo : Option UInt64
  deriving DecidableEq, Repr

inductive HookEvent where
  | promote
  | demote
  | backup
  | fault
  deriving DecidableEq, Repr

inductive AddressAction where
  | add
  | remove
  deriving DecidableEq, Repr

structure AddressManager where
  ipCommand : String
  arpingCommand : String
  ndsendCommand : String
  interface : String
  addresses : List String
  deriving DecidableEq, Repr

structure HaStatus where
  nodeId : String
  groupId : String
  bind : String
  peer : String
  state : HaState
  priority : UInt8
  advertIntervalMs : UInt64
  deadTimeoutMs : UInt64
  holdDownMs : UInt64
  sequence : UInt64
  peerNodeId : Option String
  peerState : Option HaState
  peerAlive : Bool
  lastPeerSeenMsAgo : Option UInt64
  packetsSent : UInt64
  packetsReceived : UInt64
  invalidPackets : UInt64
  authFailures : UInt64
  duplicateNodeIdPackets : UInt64
  decisionReason : HaDecisionReason
  lastTransitionReason : Option HaDecisionReason
  lastTransitionMsAgo : Option UInt64
  deriving DecidableEq, Repr

/-- A call of the control loop with an effect outside its own state. -/
inductive Effect where
  /-- `spawn_address_action`: a detached task. -/
  | spawnAddressAction (manager : AddressManager) (action : AddressAction)
      (faultHook : Option (HaHooks × HookContext))
  /-- `spawn_hook`: a detached task. -/
  | spawnHook (hooks : HaHooks) (event : HookEvent) (context : HookContext)
  /-- `manager.apply(action).await`. -/
  | applyAddresses (manager : AddressManager) (action : AddressAction)
  /-- `hooks.run(event, context).await`. -/
  | runHook (hooks : HaHooks) (event : HookEvent) (context : HookContext)
  /-- A datagram handed to the socket. -/
  | sendTo (datagram : Bytes) (peerAddr : SocketAddr)
  /-- `status_tx.send_replace(snapshot)`. -/
  | publish (snapshot : HaStatus)
  deriving DecidableEq, Repr

structure HaCounters where
  packetsSent : UInt64 := 0
  packetsReceived : UInt64 := 0
  invalidPackets : UInt64 := 0
  authFailures : UInt64 := 0
  duplicateNodeIdPackets : UInt64 := 0
  deriving DecidableEq, Repr

structure HaLoopState where
  startupAt : Int
  sequence : UInt64
  state : HaState
  activePeerConflict : Bool
  decisionReason : HaDecisionReason
  lastTransitionReason : Option HaDecisionReason
  lastTransitionAt : Option Int
  peerObservation : Option PeerObservation
  counters : HaCounters
  nextAdvertAt : Int
  deriving DecidableEq, Repr

def hookContext (runtime : HaRuntimeConfig) (state previousState : HaState)
    (reason : Option HaDecisionReason) (peerObservation : Option PeerObservation)
    (now : Int) : HookContext where
  nodeId := runtime.nodeId
  groupId := runtime.groupId
  interface := runtime.interface
  state
  previousState
  reason
  priority := runtime.priority
  peerId := peerObservation.map (·.nodeId)
  peerState := peerObservation.map (·.state)
  peerPriority := peerObservation.map (·.priority)
  lastPeerSeenMsAgo :=
    peerObservation.map fun peer => saturatingElapsedMs now peer.observedAt

def addressManager (runtime : HaRuntimeConfig) : AddressManager where
  ipCommand := runtime.ipCommand
  arpingCommand := runtime.arpingCommand
  ndsendCommand := runtime.ndsendCommand
  interface := runtime.interface
  addresses := runtime.addresses

/-- The tasks a transition into `currentState` spawns. -/
def triggerStateHooks (runtime : HaRuntimeConfig)
    (previousState currentState : HaState) (reason : HaDecisionReason)
    (peerObservation : Option PeerObservation) (now : Int) : List Effect :=
  if previousState = currentState then []
  else
    let context := hookContext runtime currentState previousState (some reason)
      peerObservation now
    let manager := addressManager runtime
    match currentState with
    | .active =>
        [.spawnAddressAction manager .add (some (runtime.hooks, context)),
          .spawnHook runtime.hooks .promote context]
    | .standby =>
        let event := if previousState = .active then .demote else .backup
        [.spawnAddressAction manager .remove (some (runtime.hooks, context)),
          .spawnHook runtime.hooks event context]
    | .init => []

def statusSnapshot (runtime : HaRuntimeConfig) (loopState : HaLoopState)
    (now : Int) : HaStatus where
  nodeId := runtime.nodeId
  groupId := runtime.groupId
  bind := runtime.bind
  peer := runtime.peer
  state := loopState.state
  priority := runtime.priority
  advertIntervalMs := runtime.advertIntervalMs
  deadTimeoutMs := durationMillisU64 runtime.deadTimeout
  holdDownMs := runtime.holdDownMs
  sequence := loopState.sequence
  peerNodeId := loopState.peerObservation.map (·.nodeId)
  peerState := loopState.peerObservation.map (·.state)
  peerAlive := (livePeer runtime loopState.peerObservation now).isSome
  lastPeerSeenMsAgo := loopState.peerObservation.map fun peer =>
    saturatingElapsedMs now peer.observedAt
  packetsSent := loopState.counters.packetsSent
  packetsReceived := loopState.counters.packetsReceived
  invalidPackets := loopState.counters.invalidPackets
  authFailures := loopState.counters.authFailures
  duplicateNodeIdPackets := loopState.counters.duplicateNodeIdPackets
  decisionReason := loopState.decisionReason
  lastTransitionReason := loopState.lastTransitionReason
  lastTransitionMsAgo := loopState.lastTransitionAt.map fun transitionAt =>
    saturatingElapsedMs now transitionAt

/-- `publish_loop_status`; `statusTx` says whether the loop was given a status
channel. -/
def publishLoopStatus (runtime : HaRuntimeConfig) (statusTx : Bool)
    (loopState : HaLoopState) (now : Int) : List Effect :=
  if statusTx then [.publish (statusSnapshot runtime loopState now)] else []

end Gruezi.Ha
