import Gruezi.Config
import Gruezi.Rust.Time

/-!
# HA states, reasons and the runtime configuration

`HaRuntimeConfig` is what the control loop runs with.  Its timers are derived
from three integers of the configuration; `HaRuntimeConfig.window` is the
liveness window they add up to.
-/

namespace Gruezi.Ha

open Rust

inductive HaState where
  | init
  | standby
  | active
  deriving DecidableEq, Repr

namespace HaState

def asU8 : HaState → UInt8
  | .init => 0
  | .standby => 1
  | .active => 2

/-- `impl TryFrom<u8> for HaState`. -/
def tryFrom (value : UInt8) : Except Error HaState :=
  if value = 0 then .ok .init
  else if value = 1 then .ok .standby
  else if value = 2 then .ok .active
  else .error (.msg ("invalid HA state value " ++ Nat.repr value.toNat))

theorem tryFrom_eq_ok_iff {value : UInt8} {state : HaState} :
    tryFrom value = .ok state ↔ value = state.asU8 := by
  constructor
  · intro read
    unfold tryFrom at read
    split at read
    · next equal => cases read; exact equal
    · split at read
      · next equal => cases read; exact equal
      · split at read
        · next equal => cases read; exact equal
        · cases read
  · rintro rfl
    cases state <;> rfl

theorem asU8_injective : Function.Injective asU8 := by
  intro left right equal
  cases left <;> cases right <;> first | rfl | exact absurd equal (by decide)

end HaState

inductive HaDecisionReason where
  | startup
  | startupHold
  | startupDeadlineExpired
  | alreadyActive
  | peerTimeout
  | localHigherPriority
  | localNodeIdTiebreak
  | peerHigherPriority
  | peerNodeIdTiebreak
  | peerActiveNoPreempt
  | peerBecameActiveConflict
  | preemptHigherPriority
  | preemptNodeIdTiebreak
  | gracefulShutdown
  | runtimeFault
  | addressActionFailed
  deriving DecidableEq, Repr

inductive HaAuth where
  | none
  | sharedKey (key : String)
  deriving DecidableEq, Repr

structure HaHooks where
  onPromote : Option String
  onDemote : Option String
  onBackup : Option String
  onFault : Option String
  timeoutMs : UInt64
  deriving DecidableEq, Repr

structure HaRuntimeConfig where
  nodeId : String
  groupId : String
  bind : String
  peer : String
  interface : String
  addresses : List String
  protocolVersion : UInt8
  priority : UInt8
  preempt : Bool
  advertIntervalMs : UInt64
  deadFactor : UInt8
  holdDownMs : UInt64
  jitterMs : UInt64
  auth : HaAuth
  hooks : HaHooks
  ipCommand : String
  arpingCommand : String
  ndsendCommand : String
  deriving DecidableEq, Repr

namespace HaRuntimeConfig

variable (runtime : HaRuntimeConfig)

def advertInterval : Duration :=
  .fromMillis runtime.advertIntervalMs

def deadTimeout : Duration :=
  runtime.advertInterval.saturatingMul runtime.deadFactor.toUInt32

def holdDown : Duration :=
  .fromMillis runtime.holdDownMs

def jitterFor (sequence : UInt64) : Duration :=
  if runtime.jitterMs = 0 then .zero
  else .fromMillis (sequence % (runtime.jitterMs + 1))

def nextAdvertDelay (sequence : UInt64) : Duration :=
  runtime.advertInterval.saturatingSub (runtime.jitterFor sequence)

def followerDeadline (lastObservedAt : Int) : Int :=
  Instant.add (Instant.add lastObservedAt runtime.deadTimeout) runtime.holdDown

/-- The liveness window `advert_interval * dead_factor + hold_down`, in
nanoseconds. -/
def window : Nat :=
  (runtime.advertIntervalMs.toNat * runtime.deadFactor.toNat +
    runtime.holdDownMs.toNat) * nanosPerMilli

/-- No saturation happens on the way: the deadline lies exactly one window
after the observation. -/
theorem followerDeadline_eq (lastObservedAt : Int) :
    runtime.followerDeadline lastObservedAt = lastObservedAt + runtime.window := by
  simp only [followerDeadline, Instant.add, deadTimeout, advertInterval, holdDown,
    Duration.nanos_fromMillis_saturatingMul, Duration.nanos_fromMillis, window,
    Nat.add_mul, Int.natCast_add]
  omega

/-- `impl TryFrom<&Config> for HaRuntimeConfig`, the authentication part. -/
def tryFromAuth (auth : HaAuthConfig) : Except Error HaAuth :=
  match auth.mode with
  | .none => .ok .none
  | .sharedKey =>
      match trimmed auth.key with
      | some key => .ok (.sharedKey key)
      | none =>
          .error (.msg
            "mode 'ha' requires ha.auth.key when ha.auth.mode is 'shared_key'")

/-- `impl TryFrom<&Config> for HaRuntimeConfig`. -/
def tryFrom (config : Config) : Except Error HaRuntimeConfig := do
  bailIf (config.mode != .ha) "HA runtime config requires mode 'ha'"
  let nodeId ← (trimmed config.node.id).elim
    (.error (.msg "mode 'ha' requires node.id")) .ok
  let peer ← (trimmed config.ha.peer).elim
    (.error (.msg "mode 'ha' requires ha.peer")) .ok
  let auth ← tryFromAuth config.ha.auth
  return {
    nodeId
    groupId := config.ha.groupId
    bind := config.ha.bind
    peer
    interface := config.ha.interface
    addresses := config.ha.addresses
    protocolVersion := config.ha.protocolVersion
    priority := config.ha.priority
    preempt := config.ha.preempt
    advertIntervalMs := config.ha.advertIntervalMs
    deadFactor := config.ha.deadFactor
    holdDownMs := config.ha.holdDownMs
    jitterMs := config.ha.jitterMs
    auth
    hooks := {
      onPromote := config.ha.hooks.onPromote
      onDemote := config.ha.hooks.onDemote
      onBackup := config.ha.hooks.onBackup
      onFault := config.ha.hooks.onFault
      timeoutMs := config.ha.hooks.timeoutMs }
    ipCommand := "ip"
    arpingCommand := "arping"
    ndsendCommand := "ndsend" }

end HaRuntimeConfig

end Gruezi.Ha
