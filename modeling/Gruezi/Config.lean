import Gruezi.Rust.Io

/-!
# Configuration and its validation

The YAML configuration after deserialization, with `Config::validate` as the
source runs it: one check after the other, the first failing one deciding the
message.
-/

namespace Gruezi

open Rust

inductive Mode where
  | ha
  | kv
  deriving DecidableEq, Repr

structure NodeConfig where
  id : Option String
  deriving DecidableEq, Repr

inductive HaAuthMode where
  | none
  | sharedKey
  deriving DecidableEq, Repr

structure HaAuthConfig where
  mode : HaAuthMode
  key : Option String
  deriving DecidableEq, Repr

structure HaHooksConfig where
  onPromote : Option String
  onDemote : Option String
  onBackup : Option String
  onFault : Option String
  timeoutMs : UInt64
  deriving DecidableEq, Repr

structure HaConfig where
  bind : String
  interface : String
  addresses : List String
  peer : Option String
  groupId : String
  protocolVersion : UInt8
  priority : UInt8
  preempt : Bool
  advertIntervalMs : UInt64
  deadFactor : UInt8
  holdDownMs : UInt64
  jitterMs : UInt64
  auth : HaAuthConfig
  hooks : HaHooksConfig
  deriving DecidableEq, Repr

structure KvConfig where
  dataDir : String
  initialCluster : List String
  deriving DecidableEq, Repr

structure Config where
  mode : Mode
  node : NodeConfig
  ha : HaConfig
  kv : KvConfig
  deriving DecidableEq, Repr

/-- `if condition { bail!(text) }`. -/
def bailIf (condition : Bool) (text : String) : Except Error Unit :=
  if condition then .error (.msg text) else .ok ()

@[simp] theorem bailIf_eq_ok {condition : Bool} {text : String} {result : Unit} :
    bailIf condition text = .ok result ↔ condition = false := by
  cases condition <;> simp [bailIf]

/-- A sequence of checks passes exactly when the first one and the rest do. -/
theorem bailIf_bind_eq_ok {α : Type} {condition : Bool} {text : String}
    {rest : Except Error α} {result : α} :
    (bailIf condition text >>= fun _ => rest) = .ok result ↔
      condition = false ∧ rest = .ok result := by
  simp

/-- `value.as_deref().map(str::trim).filter(|value| !value.is_empty())`. -/
def trimmed (value : Option String) : Option String :=
  (value.map trim).filter fun text => !text.isEmpty

theorem trimmed_eq_some {value : Option String} {text : String} :
    trimmed value = some text ↔
      ∃ raw, value = some raw ∧ text = trim raw ∧ isBlank raw = false := by
  cases value with
  | none => simp [trimmed]
  | some raw =>
      simp only [trimmed, Option.map_some, Option.filter_eq_some_iff,
        Option.some.injEq, isBlank]
      constructor
      · rintro ⟨rfl, nonempty⟩
        exact ⟨raw, rfl, rfl, by simpa using nonempty⟩
      · rintro ⟨_, rfl, rfl, nonempty⟩
        exact ⟨rfl, by simpa using nonempty⟩

theorem isBlank_of_trimmed_eq_some {value : Option String} {text : String}
    (found : trimmed value = some text) : isBlank text = false := by
  rcases trimmed_eq_some.mp found with ⟨raw, -, rfl, notBlank⟩
  rw [isBlank_trim, notBlank]

def validateHookPath (path : Option String) (fieldName : String) :
    Except Error Unit :=
  bailIf (path.any isBlank)
    ("mode 'ha' does not allow an empty value for " ++ fieldName)

namespace Config

/-- The last check of `validate_ha`: a key is required with `shared_key` and
refused without it. -/
def validateAuth (auth : HaAuthConfig) : Except Error Unit :=
  match auth.mode with
  | .none =>
      bailIf auth.key.isSome
        "mode 'ha' does not allow ha.auth.key when ha.auth.mode is 'none'"
  | .sharedKey =>
      bailIf (trimmed auth.key).isNone
        "mode 'ha' requires ha.auth.key when ha.auth.mode is 'shared_key'"

def validateHa (config : Config) : Except Error Unit := do
  bailIf (trimmed config.node.id).isNone "mode 'ha' requires node.id"
  bailIf (isBlank config.ha.interface) "mode 'ha' requires ha.interface"
  bailIf (isBlank config.ha.groupId) "mode 'ha' requires ha.group_id"
  bailIf config.ha.addresses.isEmpty
    "mode 'ha' requires at least one address in ha.addresses"
  bailIf (config.ha.addresses.any isBlank)
    "mode 'ha' does not allow empty entries in ha.addresses"
  bailIf (trimmed config.ha.peer).isNone "mode 'ha' requires ha.peer"
  bailIf (config.ha.priority == 0)
    "mode 'ha' requires ha.priority to be greater than 0"
  bailIf (config.ha.advertIntervalMs == 0)
    "mode 'ha' requires ha.advert_interval_ms to be greater than 0"
  bailIf (config.ha.protocolVersion == 0)
    "mode 'ha' requires ha.protocol_version to be greater than 0"
  bailIf (config.ha.deadFactor < 2)
    "mode 'ha' requires ha.dead_factor to be at least 2"
  bailIf (config.ha.jitterMs ≥ config.ha.advertIntervalMs)
    "mode 'ha' requires ha.jitter_ms to be smaller than ha.advert_interval_ms"
  bailIf (config.ha.hooks.timeoutMs == 0)
    "mode 'ha' requires ha.hooks.timeout_ms to be greater than 0"
  validateHookPath config.ha.hooks.onPromote "ha.hooks.on_promote"
  validateHookPath config.ha.hooks.onDemote "ha.hooks.on_demote"
  validateHookPath config.ha.hooks.onBackup "ha.hooks.on_backup"
  validateHookPath config.ha.hooks.onFault "ha.hooks.on_fault"
  validateAuth config.ha.auth

def validateKv (config : Config) : Except Error Unit := do
  bailIf (isBlank config.kv.dataDir) "mode 'kv' requires kv.data_dir"
  bailIf (config.kv.initialCluster.length < 3)
    "mode 'kv' requires at least 3 entries in kv.initial_cluster"
  bailIf (config.kv.initialCluster.any isBlank)
    "mode 'kv' does not allow empty entries in kv.initial_cluster"

/-- Validate mode-specific requirements. -/
def validate (config : Config) : Except Error Unit :=
  match config.mode with
  | .ha => config.validateHa
  | .kv => config.validateKv

/-- What `validate` has established about an `ha` configuration it accepts. -/
structure ValidHa (config : Config) : Prop where
  nodeId : (trimmed config.node.id).isSome
  interface : isBlank config.ha.interface = false
  groupId : isBlank config.ha.groupId = false
  addresses : config.ha.addresses ≠ []
  addressesNotBlank : ∀ address ∈ config.ha.addresses, isBlank address = false
  peer : (trimmed config.ha.peer).isSome
  priority : config.ha.priority ≠ 0
  advertIntervalMs : config.ha.advertIntervalMs ≠ 0
  protocolVersion : config.ha.protocolVersion ≠ 0
  deadFactor : 2 ≤ config.ha.deadFactor
  jitterMs : config.ha.jitterMs < config.ha.advertIntervalMs
  timeoutMs : config.ha.hooks.timeoutMs ≠ 0
  hookPaths : ∀ path ∈ [config.ha.hooks.onPromote, config.ha.hooks.onDemote,
    config.ha.hooks.onBackup, config.ha.hooks.onFault], path.any isBlank = false
  auth : validateAuth config.ha.auth = .ok ()

theorem validateHa_eq_ok_iff {config : Config} :
    config.validateHa = .ok () ↔ config.ValidHa := by
  simp only [validateHa, validateHookPath, bailIf_bind_eq_ok,
    Option.isNone_eq_false_iff, List.isEmpty_eq_false_iff, List.any_eq_false,
    Bool.not_eq_true, beq_eq_false_iff_ne, decide_eq_false_iff_not, UInt8.not_lt,
    UInt64.not_le, ge_iff_le]
  constructor
  · rintro ⟨nodeId, interface, groupId, addresses, notBlank, peer, priority,
      interval, version, deadFactor, jitter, timeout, promote, demote, backup,
      fault, auth⟩
    refine ⟨nodeId, interface, groupId, addresses, notBlank, peer, priority,
      interval, version, deadFactor, jitter, timeout, ?_, auth⟩
    simp [promote, demote, backup, fault]
  · intro valid
    refine ⟨valid.nodeId, valid.interface, valid.groupId, valid.addresses,
      valid.addressesNotBlank, valid.peer, valid.priority, valid.advertIntervalMs,
      valid.protocolVersion, valid.deadFactor, valid.jitterMs, valid.timeoutMs,
      ?_, ?_, ?_, ?_, valid.auth⟩ <;>
      exact valid.hookPaths _ (by simp)

theorem validHa_of_validate {config : Config} (mode : config.mode = .ha)
    (accepted : config.validate = .ok ()) : config.ValidHa := by
  rw [validate, mode] at accepted
  exact validateHa_eq_ok_iff.mp accepted

end Config

end Gruezi
