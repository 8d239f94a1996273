import Gruezi.Ha.FaultReports

/-!
# Hook commands

The command of a hook, and what its script sees of a transition.  The environment loses
nothing of the context, as long as the process has not inherited a variable that a
command may leave unset.  Along a run the environments form a chain: a script is told
the state that the one before it was told to have been entered.
-/

namespace Gruezi.Ha

open Rust Lib HaProcess

/-! ## Texts -/

/-- `str::to_ascii_uppercase`. -/
def toAsciiUppercase (text : String) : String :=
  String.ofList (text.toList.map Char.toUpper)

def HookEvent.asEnvValue : HookEvent → String
  | .promote => "promote"
  | .demote => "demote"
  | .backup => "backup"
  | .fault => "fault"

/-- `format!("{:?}", state)`. -/
def HaState.debug : HaState → String
  | .init => "Init"
  | .standby => "Standby"
  | .active => "Active"

def HaDecisionReason.asStr : HaDecisionReason → String
  | .startup => "startup"
  | .startupHold => "startup_hold"
  | .startupDeadlineExpired => "startup_deadline_expired"
  | .alreadyActive => "already_active"
  | .peerTimeout => "peer_timeout"
  | .localHigherPriority => "local_higher_priority"
  | .localNodeIdTiebreak => "local_node_id_tiebreak"
  | .peerHigherPriority => "peer_higher_priority"
  | .peerNodeIdTiebreak => "peer_node_id_tiebreak"
  | .peerActiveNoPreempt => "peer_active_no_preempt"
  | .peerBecameActiveConflict => "peer_became_active_conflict"
  | .preemptHigherPriority => "preempt_higher_priority"
  | .preemptNodeIdTiebreak => "preempt_node_id_tiebreak"
  | .gracefulShutdown => "graceful_shutdown"
  | .runtimeFault => "runtime_fault"
  | .addressActionFailed => "address_action_failed"

def HaState.asEnvValue (state : HaState) : String :=
  toAsciiUppercase state.debug

def HaDecisionReason.asEnvValue (reason : HaDecisionReason) : String :=
  toAsciiUppercase reason.asStr

/-! ## The command -/

def HaHooks.scriptFor (hooks : HaHooks) : HookEvent → Option String
  | .promote => hooks.onPromote
  | .demote => hooks.onDemote
  | .backup => hooks.onBackup
  | .fault => hooks.onFault

/-- The variables of a command, in the order in which they are set. -/
abbrev Environment := List (String × String)

/-- A variable that is set if there is a value for it. -/
def setIfSome (name : String) (value : Option String) : Environment :=
  (value.map fun value => (name, value)).toList

def hookEnvironment (event : HookEvent) (context : HookContext) : Environment :=
  [("GRUEZI_EVENT", event.asEnvValue),
    ("GRUEZI_NODE_ID", context.nodeId),
    ("GRUEZI_GROUP_ID", context.groupId),
    ("GRUEZI_INTERFACE", context.interface),
    ("GRUEZI_PRIORITY", Nat.repr context.priority.toNat),
    ("GRUEZI_STATE", context.state.asEnvValue),
    ("GRUEZI_PREVIOUS_STATE", context.previousState.asEnvValue)] ++
  setIfSome "GRUEZI_REASON" (context.reason.map HaDecisionReason.asEnvValue) ++
  setIfSome "GRUEZI_PEER_ID" context.peerId ++
  setIfSome "GRUEZI_PEER_STATE" (context.peerState.map HaState.asEnvValue) ++
  setIfSome "GRUEZI_PEER_PRIORITY"
    (context.peerPriority.map fun priority => Nat.repr priority.toNat) ++
  setIfSome "GRUEZI_LAST_PEER_SEEN_MS"
    (context.lastPeerSeenMsAgo.map fun millis => Nat.repr millis.toNat)

structure HookCommand where
  script : String
  env : Environment
  deriving DecidableEq, Repr

def hookCommand (script : String) (event : HookEvent) (context : HookContext) :
    HookCommand where
  script
  env := hookEnvironment event context

/-- `std::process::Output`, with the display text of its status. -/
structure HookOutput where
  success : Bool
  status : String
  stderr : Bytes
  deriving DecidableEq, Repr

/-- What `timeout(duration, command.output())` yields. -/
inductive HookResult where
  | elapsed
  | failed (error : IoError)
  | exited (output : HookOutput)
  deriving DecidableEq, Repr

def checkHook (script : String) (timeoutMs : UInt64) : HookResult → Except Error Unit
  | .elapsed =>
      .error (.context ("hook " ++ script ++ " timed out after " ++
        Nat.repr timeoutMs.toNat ++ "ms") (.msg "deadline has elapsed"))
  | .failed error => .error (.context ("failed to execute hook " ++ script) (.io error))
  | .exited output =>
      if output.success then .ok ()
      else
        .error (.msg ("hook " ++ script ++ " failed with " ++ output.status ++ ": " ++
          fromUtf8Lossy output.stderr))

/-- `HaHooks::run`, with what executes the command. -/
def HaHooks.run {m : Type → Type} [Monad m] (execute : HookCommand → m HookResult)
    (hooks : HaHooks) (event : HookEvent) (context : HookContext) : m (Except Error Unit) :=
  match hooks.scriptFor event with
  | none => pure (.ok ())
  | some script => do
      let result ← execute (hookCommand script event context)
      return checkHook script hooks.timeoutMs result

/-- Every error of a hook names its script. -/
theorem toString_of_checkHook {script : String} {timeoutMs : UInt64} {result : HookResult}
    {error : Error} (failed : checkHook script timeoutMs result = .error error) :
    ∃ before after, error.toString = before ++ script ++ after := by
  cases result with
  | elapsed =>
      cases failed
      exact ⟨"hook ", " timed out after " ++ Nat.repr timeoutMs.toNat ++ "ms",
        by simp [Error.toString, String.append_assoc]⟩
  | failed ioError =>
      cases failed
      exact ⟨"failed to execute hook ", "", by simp [Error.toString]⟩
  | exited output =>
      rw [checkHook] at failed
      split at failed <;> cases failed
      exact ⟨"hook ", " failed with " ++ output.status ++ ": " ++
        fromUtf8Lossy output.stderr, by simp [Error.toString, String.append_assoc]⟩

/-! ## What a script reads -/

/-- A variable as a script sees it: set by the command, or inherited. -/
def seen (inherited : String → Option String) (environment : Environment) (name : String) :
    Option String :=
  (environment.lookup name).or (inherited name)

/-- The variables a command may leave unset. -/
def optionalVariables : List String :=
  ["GRUEZI_REASON", "GRUEZI_PEER_ID", "GRUEZI_PEER_STATE", "GRUEZI_PEER_PRIORITY",
    "GRUEZI_LAST_PEER_SEEN_MS"]

/-- The value of each variable. -/
structure Reads (read : String → Option String) (event : HookEvent)
    (context : HookContext) : Prop where
  event : read "GRUEZI_EVENT" = some event.asEnvValue
  nodeId : read "GRUEZI_NODE_ID" = some context.nodeId
  groupId : read "GRUEZI_GROUP_ID" = some context.groupId
  interface : read "GRUEZI_INTERFACE" = some context.interface
  priority : read "GRUEZI_PRIORITY" = some (Nat.repr context.priority.toNat)
  state : read "GRUEZI_STATE" = some context.state.asEnvValue
  previousState : read "GRUEZI_PREVIOUS_STATE" = some context.previousState.asEnvValue
  reason : read "GRUEZI_REASON" = context.reason.map HaDecisionReason.asEnvValue
  peerId : read "GRUEZI_PEER_ID" = context.peerId
  peerState : read "GRUEZI_PEER_STATE" = context.peerState.map HaState.asEnvValue
  peerPriority : read "GRUEZI_PEER_PRIORITY" =
    context.peerPriority.map fun priority => Nat.repr priority.toNat
  lastPeerSeenMsAgo : read "GRUEZI_LAST_PEER_SEEN_MS" =
    context.lastPeerSeenMsAgo.map fun millis => Nat.repr millis.toNat

theorem lookup_setIfSome {name other : String} {value : Option String} :
    (setIfSome name value).lookup other = if other = name then value else none := by
  cases value with
  | none => simp [setIfSome]
  | some value => by_cases same : other = name <;> simp [setIfSome, same]

theorem reads_seen {inherited : String → Option String}
    (unset : ∀ name ∈ optionalVariables, inherited name = none) (event : HookEvent)
    (context : HookContext) :
    Reads (seen inherited (hookEnvironment event context)) event context := by
  simp only [optionalVariables, List.forall_mem_cons] at unset
  rcases unset with ⟨reason, peerId, peerState, peerPriority, lastPeerSeen, _⟩
  constructor <;>
    simp [seen, hookEnvironment, List.lookup_append, lookup_setIfSome,
      List.lookup_cons, *]

/-! ## Nothing is lost -/

theorem repr_injective {left right : Nat} (same : Nat.repr left = Nat.repr right) :
    left = right := by
  have digits : Nat.toDigits 10 left = Nat.toDigits 10 right := by
    rw [← Nat.toList_repr, ← Nat.toList_repr, same]
  rw [← Nat.ofDigitChars_toDigits (b := 10) (n := left) (by decide) (by decide), digits,
    Nat.ofDigitChars_toDigits (by decide) (by decide)]

/-- A text that is found again among all texts determines its value. -/
theorem injective_of_find {α : Type} (values : List α) {text : α → String}
    (found : ∀ value, values.find? (text · == text value) = some value) :
    Function.Injective text := by
  intro left right same
  rw [← Option.some_inj, ← found left, ← found right, same]

theorem HookEvent.asEnvValue_injective : Function.Injective HookEvent.asEnvValue := by
  apply injective_of_find [.promote, .demote, .backup, .fault]
  intro event
  cases event <;> decide +kernel

theorem HaState.asEnvValue_injective : Function.Injective HaState.asEnvValue := by
  apply injective_of_find [.init, .standby, .active]
  intro state
  cases state <;> decide +kernel

theorem toNat_toUpper (char : Char) :
    char.toUpper.toNat =
      if 97 ≤ char.toNat ∧ char.toNat ≤ 122 then char.toNat - 32 else char.toNat := by
  have bound := char.val.toNat_lt
  by_cases lower : 'a'.val ≤ char.val ∧ char.val ≤ 'z'.val
  · have raised : char.toUpper.val = char.val + ('A'.val - 'a'.val) := by
      delta Char.toUpper
      rw [dif_pos lower]
    have low : 97 ≤ char.val.toNat := UInt32.le_iff_toNat_le.mp lower.1
    have high : char.val.toNat ≤ 122 := UInt32.le_iff_toNat_le.mp lower.2
    have shift : ('A'.val - 'a'.val).toNat = 2 ^ 32 - 32 := by decide
    simp only [Char.toNat, raised]
    rw [if_pos ⟨low, high⟩, UInt32.toNat_add]
    omega
  · have kept : char.toUpper = char := by
      delta Char.toUpper
      rw [dif_neg lower]
    rw [kept, if_neg]
    intro inside
    exact lower ⟨UInt32.le_iff_toNat_le.mpr inside.1, UInt32.le_iff_toNat_le.mpr inside.2⟩

/-- On characters that are not upper-case themselves. -/
theorem toUpper_injOn {left right : Char} (leftLower : left.isUpper = false)
    (rightLower : right.isUpper = false) (same : left.toUpper = right.toUpper) :
    left = right := by
  have outside : ∀ {char : Char}, char.isUpper = false →
      char.toNat < 65 ∨ 90 < char.toNat := by
    intro char notUpper
    by_contra inside
    have low : 65 ≤ char.val.toNat := by simp only [Char.toNat] at inside; omega
    have high : char.val.toNat ≤ 90 := by simp only [Char.toNat] at inside; omega
    have upper : char.isUpper = true :=
      decide_eq_true ⟨UInt32.le_iff_toNat_le.mpr low, UInt32.le_iff_toNat_le.mpr high⟩
    cases notUpper.symm.trans upper
  have leftOutside := outside leftLower
  have rightOutside := outside rightLower
  have sameNat := congrArg Char.toNat same
  rw [toNat_toUpper, toNat_toUpper] at sameNat
  apply Char.toNat_inj.mp
  split at sameNat <;> split at sameNat <;> omega

theorem toAsciiUppercase_injOn {left right : String}
    (leftLower : left.toList.all (!·.isUpper) = true)
    (rightLower : right.toList.all (!·.isUpper) = true)
    (same : toAsciiUppercase left = toAsciiUppercase right) : left = right := by
  simp only [List.all_eq_true, Bool.not_eq_true'] at leftLower rightLower
  have chars : left.toList.map Char.toUpper = right.toList.map Char.toUpper :=
    String.ofList_injective same
  apply String.toList_injective
  generalize left.toList = first, right.toList = second at *
  induction first generalizing second with
  | nil => exact (List.map_eq_nil_iff.mp chars.symm).symm
  | cons char rest ih =>
      cases second with
      | nil => cases chars
      | cons other others =>
          rw [List.map_cons, List.map_cons, List.cons.injEq] at chars
          rw [List.forall_mem_cons] at leftLower rightLower
          rw [toUpper_injOn leftLower.1 rightLower.1 chars.1,
            ih others leftLower.2 rightLower.2 chars.2]

theorem HaDecisionReason.asStr_injective : Function.Injective HaDecisionReason.asStr := by
  apply injective_of_find [.startup, .startupHold, .startupDeadlineExpired,
    .alreadyActive, .peerTimeout, .localHigherPriority, .localNodeIdTiebreak,
    .peerHigherPriority, .peerNodeIdTiebreak, .peerActiveNoPreempt,
    .peerBecameActiveConflict, .preemptHigherPriority, .preemptNodeIdTiebreak,
    .gracefulShutdown, .runtimeFault, .addressActionFailed]
  intro reason
  cases reason <;> decide +kernel

theorem HaDecisionReason.asEnvValue_injective :
    Function.Injective HaDecisionReason.asEnvValue := by
  have lower : ∀ reason : HaDecisionReason,
      reason.asStr.toList.all (!·.isUpper) = true := by
    intro reason
    cases reason <;> decide +kernel
  intro left right same
  exact HaDecisionReason.asStr_injective
    (toAsciiUppercase_injOn (lower left) (lower right) same)

/-- What is read of a hook determines its event and its context. -/
theorem Reads.unique {read : String → Option String} {event otherEvent : HookEvent}
    {context other : HookContext} (reads : Reads read event context)
    (readsOther : Reads read otherEvent other) : event = otherEvent ∧ context = other := by
  have same : ∀ {name : String} {value otherValue : Option String},
      read name = value → read name = otherValue → value = otherValue :=
    fun readValue readOther => readValue.symm.trans readOther
  have reprU8 : Function.Injective fun value : UInt8 => Nat.repr value.toNat :=
    fun _ _ equal => UInt8.toNat_inj.mp (repr_injective equal)
  have reprU64 : Function.Injective fun value : UInt64 => Nat.repr value.toNat :=
    fun _ _ equal => UInt64.toNat_inj.mp (repr_injective equal)
  have events := HookEvent.asEnvValue_injective
    (Option.some.inj (same reads.event readsOther.event))
  have nodeId := Option.some.inj (same reads.nodeId readsOther.nodeId)
  have groupId := Option.some.inj (same reads.groupId readsOther.groupId)
  have interface := Option.some.inj (same reads.interface readsOther.interface)
  have priority := reprU8 (Option.some.inj (same reads.priority readsOther.priority))
  have state := HaState.asEnvValue_injective
    (Option.some.inj (same reads.state readsOther.state))
  have previousState := HaState.asEnvValue_injective
    (Option.some.inj (same reads.previousState readsOther.previousState))
  have reason := Option.map_injective HaDecisionReason.asEnvValue_injective
    (same reads.reason readsOther.reason)
  have peerId := same reads.peerId readsOther.peerId
  have peerState := Option.map_injective HaState.asEnvValue_injective
    (same reads.peerState readsOther.peerState)
  have peerPriority := Option.map_injective reprU8
    (same reads.peerPriority readsOther.peerPriority)
  have lastPeerSeen := Option.map_injective reprU64
    (same reads.lastPeerSeenMsAgo readsOther.lastPeerSeenMsAgo)
  refine ⟨events, ?_⟩
  cases context
  cases other
  rw [HookContext.mk.injEq]
  exact ⟨nodeId, groupId, interface, state, previousState, reason, priority, peerId,
    peerState, peerPriority, lastPeerSeen⟩

/-- The environment is lossless: two hooks that look the same to a script, in a process
that has not inherited an optional variable, are one event in one context. -/
theorem hookEnvironment_lossless (inherited : String → Option String)
    (unset : ∀ name ∈ optionalVariables, inherited name = none)
    (event otherEvent : HookEvent) (context other : HookContext)
    (same : ∀ name, seen inherited (hookEnvironment event context) name =
      seen inherited (hookEnvironment otherEvent other) name) :
    event = otherEvent ∧ context = other := by
  have readsOther := reads_seen unset otherEvent other
  rw [← funext same] at readsOther
  exact (reads_seen unset event context).unique readsOther

/-! ## The hooks of a run -/

/-- The hooks a list of effects calls for, whether spawned or awaited. -/
def hookCalls (effects : List Effect) : List (HookEvent × HookContext) :=
  effects.filterMap fun effect =>
    match effect with
    | .spawnHook _ event context | .runHook _ event context => some (event, context)
    | .spawnAddressAction _ _ _ | .applyAddresses _ _ | .sendTo _ _ | .publish _ => none

theorem hookCalls_append (first second : List Effect) :
    hookCalls (first ++ second) = hookCalls first ++ hookCalls second :=
  List.filterMap_append

theorem Silences.hookCalls {effects : List Effect} (silent : Silences effects) :
    hookCalls effects = [] := by
  rw [Ha.hookCalls, List.filterMap_eq_nil_iff]
  intro effect member
  rcases silent effect member with ⟨noSpawn, noAwait⟩
  cases effect with
  | spawnHook => cases noSpawn
  | runHook => cases noAwait
  | spawnAddressAction | applyAddresses | sendTo | publish => rfl

/-- The hook between two states: after a fault `Init` is entered. -/
def hookBetween (previousState state : HaState) : HookEvent :=
  if state = .init then .fault else transitionHook previousState state

/-- The hooks lead from one state to another: each is called for a change of the state
that the one before has led to. -/
def Leads : HaState → List (HookEvent × HookContext) → HaState → Prop
  | state, [], last => state = last
  | state, (event, context) :: calls, last =>
      context.previousState = state ∧ context.state ≠ state ∧
        event = hookBetween state context.state ∧ Leads context.state calls last

theorem Leads.append {first middle last : HaState}
    {calls others : List (HookEvent × HookContext)} (leads : Leads first calls middle)
    (onward : Leads middle others last) : Leads first (calls ++ others) last := by
  induction calls generalizing first with
  | nil =>
      cases leads
      exact onward
  | cons call calls ih =>
      rcases leads with ⟨previous, changed, event, rest⟩
      exact ⟨previous, changed, event, ih rest⟩

section Run

variable {process : HaProcess} {startupAt scheduledAt : Int} {final : RunState}
variable {trace : List (Transition RunState RunInput Effect)}

/-- A refresh calls for the hook of its transition, if it makes one. -/
theorem leads_of_refresh (statusTx : Bool) (runtime : HaRuntimeConfig)
    (loopState : HaLoopState) (now : Int) :
    Leads loopState.state (hookCalls (refreshLocalState runtime statusTx loopState now).2)
      (refreshed runtime loopState now).state := by
  by_cases same : (refreshed runtime loopState now).state = loopState.state
  · rw [(silences_refresh same).hookCalls]
    exact same.symm
  · have notInit : (refreshed runtime loopState now).state ≠ .init := by
      rw [refreshed_state]
      exact desiredState_ne_init _
    rw [(effects_refresh statusTx (Ne.symm same)).2, hookCalls_append,
      (silences_publish now).hookCalls, List.append_nil]
    refine ⟨rfl, same, ?_, rfl⟩
    exact (if_neg notInit).symm

/-- Run lemma: the hooks of a run lead from `Init` to its state. -/
theorem leads_of_run
    (run : process.runWithStatus.Run (process.startRun startupAt scheduledAt) trace
      final) :
    ∃ last, Leads .init (hookCalls (effectsOf trace)) last ∧
      (final.phase.removed = false → last = final.node.loopState.state) := by
  apply run.history_induction (motive := fun taken state =>
    ∃ last, Leads .init (hookCalls (effectsOf taken)) last ∧
      (state.phase.removed = false → last = state.node.loopState.state))
  · exact ⟨.init, rfl, fun _ => rfl⟩
  · rintro taken next before nextTaken - ⟨last, leads, isLast⟩
    have exits := exitEffects_of_run before
    have left := left_init_of_run before
    have steps := steps_of_takes nextTaken
    rw [effectsOf_append_singleton, hookCalls_append]
    generalize next.before = state, next.input = input, next.after = after,
      next.output = output at steps isLast exits left
    have quiet : ∀ {effects : List Effect}, Silences effects →
        hookCalls (effectsOf taken) ++ hookCalls effects = hookCalls (effectsOf taken) := by
      intro effects silent
      rw [silent.hookCalls, List.append_nil]
    cases steps with
    | refresh phase handles =>
        rcases handle_refresh handles with ⟨_, _, _, loopState, effects⟩
        have current := isLast (by rw [phase]; rfl)
        subst current
        rw [effects]
        refine ⟨_, leads.append (leads_of_refresh _ _ _ _), fun _ => ?_⟩
        rw [loopState]
    | handled phase ready handles | failed phase ready handles =>
        have noRefresh := noRefresh_of_armReady ready
        rw [quiet (silences_handle noRefresh handles)]
        refine ⟨last, leads, fun _ => ?_⟩
        rw [isLast (by rw [phase]; rfl)]
        exact (state_of_handle noRefresh handles).symm
    | shutdown phase =>
        rw [quiet silences_nil]
        exact ⟨last, leads, fun _ => isLast (by rw [phase]; rfl)⟩
    | beginCleanup phase ordered =>
        refine ⟨last, ?_, fun _ => isLast (by rw [phase]; rfl)⟩
        rw [show hookCalls (beginCleanup _ _ _ _).2 = [] from rfl, List.append_nil]
        exact leads
    | @runFaultHook cleanup result phase faulted =>
        simp only [ExitEffects, phase] at exits
        rcases exits with ⟨_, now, _, rfl, _⟩
        have notInit : state.node.loopState.state ≠ .init := by simpa [phase] using left
        have current := isLast (by rw [phase]; rfl)
        subst current
        refine ⟨.init, leads.append ?_, ?_⟩
        · rw [Cleanup.faultHook, if_pos faulted]
          exact ⟨rfl, Ne.symm notInit, rfl, rfl⟩
        · intro notRemoved
          cases notRemoved
    | finish | finishFaulted =>
        rw [quiet silences_finishCleanup]
        refine ⟨last, leads, ?_⟩
        intro notRemoved
        cases notRemoved

end Run

/-! ## What the scripts of a run are told -/

/-- The event between two states, as scripts are told of them. -/
def eventBetween (previousState state : String) : String :=
  if state = "INIT" then "fault"
  else if state = "ACTIVE" then "promote"
  else if previousState = "ACTIVE" then "demote"
  else "backup"

/-- The scripts are told of one chain of states.  Each is told the state that the one
before it was told, another state, and the event between the two. -/
def Tell : String → List Environment → String → Prop
  | state, [], last => state = last
  | state, environment :: environments, last =>
      environment.lookup "GRUEZI_PREVIOUS_STATE" = some state ∧
        ∃ next, environment.lookup "GRUEZI_STATE" = some next ∧ next ≠ state ∧
          environment.lookup "GRUEZI_EVENT" = some (eventBetween state next) ∧
          Tell next environments last

theorem asEnvValue_hookBetween (previousState state : HaState) :
    (hookBetween previousState state).asEnvValue =
      eventBetween previousState.asEnvValue state.asEnvValue := by
  cases previousState <;> cases state <;> decide +kernel

theorem Leads.tell {first last : HaState} {calls : List (HookEvent × HookContext)}
    (leads : Leads first calls last) :
    Tell first.asEnvValue (calls.map fun call => hookEnvironment call.1 call.2)
      last.asEnvValue := by
  induction calls generalizing first with
  | nil =>
      cases leads
      rfl
  | cons call calls ih =>
      rcases call with ⟨event, context⟩
      rcases leads with ⟨rfl, changed, rfl, rest⟩
      have nothing : ∀ name ∈ optionalVariables, (fun _ => none : String → Option String)
          name = none := fun _ _ => rfl
      have reads := reads_seen nothing (hookBetween context.previousState context.state)
        context
      have lookup : ∀ {name value : String},
          seen (fun _ => none) (hookEnvironment
            (hookBetween context.previousState context.state) context) name = some value →
          (hookEnvironment (hookBetween context.previousState context.state)
            context).lookup name = some value := by
        intro name value read
        rwa [seen, Option.or_none] at read
      refine ⟨lookup reads.previousState, _, lookup reads.state, ?_, ?_, ih rest⟩
      · exact fun same => changed (HaState.asEnvValue_injective same)
      · rw [← asEnvValue_hookBetween]
        exact lookup reads.event

/-- The hooks of a run, in the order in which it calls for them, are told of one chain of
states from `INIT`, and until the cleanup has removed the addresses the last of them is
the state of the loop. -/
theorem hooks_tell_of_run (process : HaProcess) (startupAt scheduledAt : Int)
    (trace : List (Transition RunState RunInput Effect)) (final : RunState)
    (run : process.runWithStatus.Run (process.startRun startupAt scheduledAt) trace
      final) :
    ∃ last, Tell "INIT" ((hookCalls (effectsOf trace)).map fun call =>
        hookEnvironment call.1 call.2) last ∧
      (final.phase.removed = false → last = final.node.loopState.state.asEnvValue) := by
  rcases leads_of_run run with ⟨last, leads, isLast⟩
  refine ⟨last.asEnvValue, ?_, fun notRemoved => by rw [isLast notRemoved]⟩
  have initial : HaState.init.asEnvValue = "INIT" := by decide +kernel
  rw [← initial]
  exact leads.tell

/-! ## A demotion, seen by its script -/

def demotion : HookContext where
  nodeId := "a"
  groupId := "g"
  interface := "eth0"
  state := .standby
  previousState := .active
  reason := some .peerBecameActiveConflict
  priority := 100
  peerId := some "b"
  peerState := some .active
  peerPriority := some 50
  lastPeerSeenMsAgo := some 12

example : (hookEnvironment .demote demotion).drop 4 =
    [("GRUEZI_PRIORITY", "100"), ("GRUEZI_STATE", "STANDBY"),
      ("GRUEZI_PREVIOUS_STATE", "ACTIVE"), ("GRUEZI_REASON", "PEER_BECAME_ACTIVE_CONFLICT"),
      ("GRUEZI_PEER_ID", "b"), ("GRUEZI_PEER_STATE", "ACTIVE"),
      ("GRUEZI_PEER_PRIORITY", "50"), ("GRUEZI_LAST_PEER_SEEN_MS", "12")] := by
  decide +kernel

theorem hookEnvironment_lossless_demotion :
    HookEvent.demote = .demote ∧ demotion = { demotion with interface := "eth" ++ "0" } :=
  hookEnvironment_lossless (fun name => if name = "PATH" then some "/bin" else none)
    (by decide +kernel) .demote .demote demotion { demotion with interface := "eth" ++ "0" }
    fun _ => by rfl

theorem hooks_tell_of_run_fault :
    ∃ last, Tell "INIT" ((hookCalls (effectsOf faultTrace)).map fun call =>
        hookEnvironment call.1 call.2) last ∧
      ((Machine.finalState (watchedProcess.startRun 0 0) faultTrace).phase.removed = false →
        last = (Machine.finalState (watchedProcess.startRun 0 0)
          faultTrace).node.loopState.state.asEnvValue) :=
  hooks_tell_of_run watchedProcess 0 0 faultTrace _
    (Machine.run_record _ (by decide +kernel))

end Gruezi.Ha
