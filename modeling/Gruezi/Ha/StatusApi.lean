import Gruezi.Ha.Exits
import Gruezi.Ha.Service
import Gruezi.Lib.Watch

/-!
# The status API

The loop publishes its status in a watch channel, and the API serves what the channel
holds.  The two are concurrent: a request comes between any two steps of the service.
What is served is still what the loop has come to, but for the counts of packets it has
rejected since, and the responses of a process never go back.
-/

namespace Gruezi.Ha

open Rust Lib HaProcess

/-! ## The responses -/

/-- `HaStatus::new`. -/
def HaStatus.new (nodeId groupId bind peer : String) : HaStatus where
  nodeId
  groupId
  bind
  peer
  state := .init
  priority := 0
  advertIntervalMs := 0
  deadTimeoutMs := 0
  holdDownMs := 0
  sequence := 0
  peerNodeId := none
  peerState := none
  peerAlive := false
  lastPeerSeenMsAgo := none
  packetsSent := 0
  packetsReceived := 0
  invalidPackets := 0
  authFailures := 0
  duplicateNodeIdPackets := 0
  decisionReason := .startup
  lastTransitionReason := none
  lastTransitionMsAgo := none

structure StatusResponse where
  mode : String
  ha : Option HaStatus
  deriving DecidableEq, Repr

/-- `StatusResponse::ha`. -/
def StatusResponse.ofHa (status : HaStatus) : StatusResponse where
  mode := "ha"
  ha := some status

structure HealthResponse where
  status : String
  deriving DecidableEq, Repr

/-- What a `GET` is answered with. -/
inductive ApiResponse where
  | health (response : HealthResponse)
  | status (response : StatusResponse)
  /-- The path has no route. -/
  | notFound
  deriving DecidableEq, Repr

def health : HealthResponse where
  status := "ok"

def haStatus {χ : Type} [Watch χ HaStatus] (channel : χ) : StatusResponse :=
  .ofHa (Watch.value channel)

/-- The routes of `run_ha_api`. -/
def route {χ : Type} [Watch χ HaStatus] (channel : χ) (path : String) : ApiResponse :=
  if path = "/health" then .health health
  else if path = "/status" then .status (haStatus channel)
  else if path = "/ha/status" then .status (haStatus channel)
  else .notFound

/-! ## The service and its API -/

/-- `publish_status`, with a status channel. -/
def publishStatus {χ : Type} [Watch χ HaStatus] (channel : χ) : Effect → χ
  | .publish snapshot => Watch.send channel snapshot
  | .spawnAddressAction _ _ _ | .spawnHook _ _ _ | .applyAddresses _ _
  | .runHook _ _ _ | .sendTo _ _ => channel

structure StatusState (χ : Type) where
  service : ServiceState
  channel : χ

inductive StatusInput where
  | service (input : ServiceInput)
  /-- A `GET` of this path arrives, and is answered. -/
  | get (path : String)

inductive StatusOutput where
  | effect (effect : Effect)
  | served (path : String) (response : ApiResponse)
  deriving DecidableEq

/-- The status in an answer, if it is one to a request for the status. -/
def StatusOutput.status : StatusOutput → Option HaStatus
  | .served _ (.status response) => response.ha
  | .served _ (.health _) | .served _ .notFound | .effect _ => none

def servedStatuses (outputs : List StatusOutput) : List HaStatus :=
  outputs.filterMap StatusOutput.status

theorem servedStatuses_append (first second : List StatusOutput) :
    servedStatuses (first ++ second) = servedStatuses first ++ servedStatuses second :=
  List.filterMap_append

/-- The status channel of `start_ha_service`, before the loop has published. -/
def freshStatus (runtime : HaRuntimeConfig) : HaStatus :=
  .new runtime.nodeId runtime.groupId runtime.bind runtime.peer

def StatusState.start {χ : Type} [Watch χ HaStatus] (runtime : HaRuntimeConfig) :
    StatusState χ where
  service := .start
  channel := Watch.channel (freshStatus runtime)

namespace HaProcess

variable {χ : Type} [Watch χ HaStatus] (process : HaProcess)

/-- The process as `start_ha_service` runs it, with a status channel. -/
def watched : HaProcess :=
  { process with statusTx := true }

/-- What `initialize_loop_state` publishes when the loop is entered. -/
def initialPublish : ServiceInput → List Effect
  | .haEnters startupAt scheduledAt =>
      (initializeLoopState process.runtime true startupAt scheduledAt).2
  | .haFails _ | .ha _ | .haPanics _ | .apiEnds _ | .signal _ | .haJoined | .apiJoined => []

def stepStatus (state : StatusState χ) (input : StatusInput) :
    Option (StatusState χ × List StatusOutput) :=
  match input with
  | .service input =>
      (process.watched.stepService state.service input).map fun (service, effects) =>
        let effects := process.initialPublish input ++ effects
        ({ service, channel := effects.foldl publishStatus state.channel },
          effects.map .effect)
  | .get path =>
      match state.service.apiTask with
      | .running =>
          if state.service.phase.isReturned then none
          else some (state, [.served path (route state.channel path)])
      | .finished _ => none

/-- `start_ha_service` with the requests its API answers. -/
def statusService : Machine (StatusState χ) StatusInput StatusOutput where
  step := process.stepStatus

end HaProcess

/-! ## What is published -/

theorem publishStatus_foldl_loopStatus {χ : Type} [Watch χ HaStatus] (runtime : HaRuntimeConfig)
    (channel : χ) (effects : List Effect) (loopState : HaLoopState)
    (now : Int) :
    Watch.value ((effects ++ publishLoopStatus runtime true loopState now).foldl publishStatus
      channel) = statusSnapshot runtime loopState now := by
  rw [List.foldl_append]
  exact Watch.value_send _ _

structure HaCounters.Le (earlier later : HaCounters) : Prop where
  packetsSent : earlier.packetsSent ≤ later.packetsSent
  packetsReceived : earlier.packetsReceived ≤ later.packetsReceived
  invalidPackets : earlier.invalidPackets ≤ later.invalidPackets
  authFailures : earlier.authFailures ≤ later.authFailures
  duplicateNodeIdPackets :
    earlier.duplicateNodeIdPackets ≤ later.duplicateNodeIdPackets

theorem HaCounters.Le.refl (counters : HaCounters) : counters.Le counters :=
  ⟨UInt64.le_refl _, UInt64.le_refl _, UInt64.le_refl _, UInt64.le_refl _,
    UInt64.le_refl _⟩

/-- The counts were published before some packets were rejected. -/
structure HaCounters.Lags (published current : HaCounters) : Prop
    extends published.Le current where
  sentAll : published.packetsSent = current.packetsSent
  receivedAll : published.packetsReceived = current.packetsReceived

theorem HaCounters.Lags.refl (counters : HaCounters) : counters.Lags counters :=
  ⟨.refl counters, rfl, rfl⟩

/-- The later of two statuses of a process. -/
structure HaStatus.Precedes (earlier later : HaStatus) : Prop where
  nodeId : later.nodeId = earlier.nodeId
  groupId : later.groupId = earlier.groupId
  bind : later.bind = earlier.bind
  peer : later.peer = earlier.peer
  sequence : earlier.sequence ≤ later.sequence
  packetsSent : earlier.packetsSent ≤ later.packetsSent
  packetsReceived : earlier.packetsReceived ≤ later.packetsReceived
  invalidPackets : earlier.invalidPackets ≤ later.invalidPackets
  authFailures : earlier.authFailures ≤ later.authFailures
  duplicateNodeIdPackets :
    earlier.duplicateNodeIdPackets ≤ later.duplicateNodeIdPackets

theorem HaStatus.Precedes.refl (status : HaStatus) : status.Precedes status :=
  ⟨rfl, rfl, rfl, rfl, UInt64.le_refl _, UInt64.le_refl _, UInt64.le_refl _,
    UInt64.le_refl _, UInt64.le_refl _, UInt64.le_refl _⟩

theorem HaStatus.Precedes.trans {first second third : HaStatus}
    (earlier : first.Precedes second) (later : second.Precedes third) :
    first.Precedes third where
  nodeId := later.nodeId.trans earlier.nodeId
  groupId := later.groupId.trans earlier.groupId
  bind := later.bind.trans earlier.bind
  peer := later.peer.trans earlier.peer
  sequence := UInt64.le_trans earlier.sequence later.sequence
  packetsSent := UInt64.le_trans earlier.packetsSent later.packetsSent
  packetsReceived := UInt64.le_trans earlier.packetsReceived later.packetsReceived
  invalidPackets := UInt64.le_trans earlier.invalidPackets later.invalidPackets
  authFailures := UInt64.le_trans earlier.authFailures later.authFailures
  duplicateNodeIdPackets :=
    UInt64.le_trans earlier.duplicateNodeIdPackets later.duplicateNodeIdPackets

theorem le_saturatingAdd (left right : UInt64) : left ≤ saturatingAdd left right := by
  rw [saturatingAdd, UInt64.le_iff_toNat_le]
  split
  · next fits =>
      rw [UInt64.toNat_add, Nat.mod_eq_of_lt fits]
      exact Nat.le_add_right _ _
  · rw [UInt64.toNat_ofNat_of_lt' (by decide)]
    have := left.toNat_lt
    omega

/-- The later snapshot of a loop. -/
theorem precedes_statusSnapshot {runtime : HaRuntimeConfig}
    {earlier later : HaLoopState} (before now : Int)
    (sequence : earlier.sequence ≤ later.sequence)
    (counters : earlier.counters.Le later.counters) :
    (statusSnapshot runtime earlier before).Precedes
      (statusSnapshot runtime later now) where
  nodeId := rfl
  groupId := rfl
  bind := rfl
  peer := rfl
  sequence := sequence
  packetsSent := counters.packetsSent
  packetsReceived := counters.packetsReceived
  invalidPackets := counters.invalidPackets
  authFailures := counters.authFailures
  duplicateNodeIdPackets := counters.duplicateNodeIdPackets

/-- The first snapshot of a loop. -/
theorem precedes_freshStatus (runtime : HaRuntimeConfig) (loopState : HaLoopState)
    (now : Int) : (freshStatus runtime).Precedes (statusSnapshot runtime loopState now) where
  nodeId := rfl
  groupId := rfl
  bind := rfl
  peer := rfl
  sequence := UInt64.zero_le
  packetsSent := UInt64.zero_le
  packetsReceived := UInt64.zero_le
  invalidPackets := UInt64.zero_le
  authFailures := UInt64.zero_le
  duplicateNodeIdPackets := UInt64.zero_le

/-- What an event does to the loop state, and what it publishes of it. -/
inductive Publishes (runtime : HaRuntimeConfig) (loopState : HaLoopState)
    (handled : Handled) : Prop where
  | published (earlier : List Effect) :
      handled.effects =
        earlier ++ publishLoopStatus runtime true handled.node.loopState
          handled.node.clock →
      loopState.sequence ≤ handled.node.loopState.sequence →
      loopState.counters.Le handled.node.loopState.counters →
      Publishes runtime loopState handled
  | silent :
      handled.effects = [] →
      { handled.node.loopState with counters := loopState.counters } = loopState →
      loopState.counters.Lags handled.node.loopState.counters →
      Publishes runtime loopState handled

section Handle

variable {process : HaProcess} {node : Node} {handled : Handled} {error : Error}

/-- A refresh publishes in each case. -/
theorem published_of_refresh {now : Int} (watched : process.statusTx = true)
    (handles : process.handle node (.refresh now) = some handled) :
    (∃ earlier, handled.effects = earlier ++ publishLoopStatus process.runtime true
        handled.node.loopState handled.node.clock) ∧
      handled.node.loopState.sequence = node.loopState.sequence ∧
      handled.node.loopState.counters = node.loopState.counters := by
  rcases handle_refresh handles with ⟨_, _, clock, loopState, effects⟩
  refine ⟨?_, by rw [loopState, refreshed_sequence], by rw [loopState, refreshed_counters]⟩
  rw [effects, clock, loopState, ← refreshLocalState_fst process.runtime process.statusTx,
    watched]
  simp only [refreshLocalState]
  split
  · exact ⟨[], rfl⟩
  · exact ⟨_, rfl⟩

theorem publishes_of_receive {recv : Except IoError (Bytes × SocketAddr)} {observedAt : Int}
    (watched : process.statusTx = true)
    (handles : process.handle node (.receive recv observedAt) = some handled) :
    Publishes process.runtime node.loopState handled := by
  simp only [handle] at handles
  split at handles
  · cases recv with
    | error ioError =>
        cases handles
        cases transient : isTransientIoError ioError <;>
          simp only [handleReceiveEvent, transient, if_true, Bool.false_eq_true, if_false] <;>
          exact .silent rfl rfl (.refl _)
    | ok received =>
        cases handles
        have fits := (node.buffer.recvFrom received.1).2.length_eq
        have length : (node.buffer.recvFrom received.1).1 ≤
            (node.buffer.recvFrom received.1).2.bytes.length := by
          rw [fits]
          exact Nat.min_le_right _ _
        simp only [handleReceiveEvent, if_pos length]
        split
        · refine .silent rfl rfl ⟨⟨UInt64.le_refl _, UInt64.le_refl _, ?_, ?_, ?_⟩, rfl, rfl⟩
          · exact le_saturatingAdd _ _
          · simp only
            split
            · exact le_saturatingAdd _ _
            · exact UInt64.le_refl _
          · simp only
            split
            · exact le_saturatingAdd _ _
            · exact UInt64.le_refl _
        · refine .published [] (by rw [watched]; rfl) (UInt64.le_refl _) ?_
          exact { HaCounters.Le.refl node.loopState.counters with
            packetsReceived := le_saturatingAdd _ _ }
  · cases handles

theorem publishes_of_send {sendTo : Except IoError Unit} {scheduledAt publishedAt : Int}
    (watched : process.statusTx = true)
    (handles : process.handle node (.send sendTo scheduledAt publishedAt) = some handled) :
    Publishes process.runtime node.loopState handled := by
  simp only [handle] at handles
  split at handles
  · cases handles
    simp only [handleSendEvent]
    split
    · next sequence datagram sent =>
        refine .published [.sendTo datagram process.peerAddr] (by rw [watched]) ?_ ?_
        · rw [(sendAdvertisement_eq_ok.mp sent).2.1]
          exact le_saturatingAdd _ _
        · exact { HaCounters.Le.refl node.loopState.counters with
            packetsSent := le_saturatingAdd _ _ }
    · split
      · exact .published [] (by rw [watched]) (UInt64.le_refl _) (.refl _)
      · exact .silent rfl rfl (.refl _)
  · cases handles

theorem publishes_of_handle {event : NodeEvent} (watched : process.statusTx = true)
    (handles : process.handle node event = some handled) :
    Publishes process.runtime node.loopState handled := by
  cases event with
  | refresh now =>
      rcases published_of_refresh watched handles with
        ⟨⟨earlier, effects⟩, sequence, counters⟩
      refine .published earlier effects ?_ ?_
      · rw [sequence]
        exact UInt64.le_refl _
      · rw [counters]
        exact .refl _
  | receive recv observedAt => exact publishes_of_receive watched handles
  | send sendTo scheduledAt publishedAt => exact publishes_of_send watched handles

/-- A handler that fails leaves the loop state, and publishes nothing. -/
theorem unchanged_of_failed {event : NodeEvent}
    (handles : process.handle node event = some handled)
    (failed : handled.result = .error error) :
    handled.effects = [] ∧ handled.node.loopState = node.loopState := by
  cases event with
  | refresh now =>
      rw [(handle_refresh handles).2.1] at failed
      cases failed
  | receive recv observedAt =>
      rcases (result_of_receive handles).mp failed with ⟨ioError, rfl, fatal, _⟩
      simp only [handle] at handles
      split at handles
      · cases handles
        simp [handleReceiveEvent, fatal]
      · cases handles
  | send sendTo scheduledAt publishedAt =>
      simp only [handle] at handles
      split at handles
      · cases handles
        simp only [handleSendEvent] at failed ⊢
        split at failed
        · cases failed
        · split at failed <;> cases failed
          next fatal => simp only [if_neg fatal, and_self]
      · cases handles

end Handle

/-! ## What the channel holds -/

/-- A status of the loop at each of its program points.  In the select it is the
current one.  Before a refresh it may lack packets that have just been rejected, and
in the cleanup it is the one from before. -/
def Shows (runtime : HaRuntimeConfig) (status : HaStatus) (run : RunState) : Prop :=
  match run.phase with
  | .selecting => status = statusSnapshot runtime run.node.loopState run.node.clock
  | .refreshing => ∃ counters at_, at_ ≤ run.node.clock ∧
      counters.Lags run.node.loopState.counters ∧
      status = statusSnapshot runtime { run.node.loopState with counters } at_
  | .exiting _ _ | .removing _ _ | .faulting _ _ => ∃ at_ ≤ run.node.clock,
      status = statusSnapshot runtime run.node.loopState at_
  | .returned _ => run.node.loopState.state = .init ∧ ∃ at_ ≤ run.node.clock,
      status = statusSnapshot runtime run.node.loopState at_

/-- What the API serves for each state of the HA task. -/
def Serves (runtime : HaRuntimeConfig) (status : HaStatus) : HaTask → Prop
  | .starting | .failed _ => status = freshStatus runtime
  | .running run => Shows runtime status run
  -- The last status before the panic stays.
  | .panicked _ => True

/-- The cleanup has read the clock last. -/
def CleansUpAt (run : RunState) : Prop :=
  match run.phase with
  | .removing cleanup _ | .faulting cleanup _ => cleanup.now ≤ run.node.clock
  | .refreshing | .selecting | .exiting _ _ | .returned _ => True

section Loop

variable {process : HaProcess} {state next : RunState} {input : RunInput}
variable {effects : List Effect} {node : Node} {handled : Handled}

theorem cleansUpAt_of_steps (steps : process.Steps state input next effects)
    (cleansUp : CleansUpAt state) : CleansUpAt next := by
  cases steps with
  | refresh | handled | failed | shutdown => trivial
  | beginCleanup => exact le_refl _
  | runFaultHook phase faulted =>
      simp only [CleansUpAt, phase] at cleansUp ⊢
      exact cleansUp
  | finish | finishFaulted => trivial

variable {χ : Type} [Watch χ HaStatus] {channel : χ}

/-- A handler that succeeds has published what it leaves, or packets were rejected. -/
theorem shows_of_handled {event : NodeEvent} (watched : process.statusTx = true)
    (handles : process.handle node event = some handled)
    (value : Watch.value channel = statusSnapshot process.runtime node.loopState node.clock) :
    (∃ counters at_, at_ ≤ handled.node.clock ∧
      counters.Lags handled.node.loopState.counters ∧
      Watch.value (handled.effects.foldl publishStatus channel) = statusSnapshot
        process.runtime { handled.node.loopState with counters } at_) ∧
    (Watch.value channel).Precedes
      (Watch.value (handled.effects.foldl publishStatus channel)) := by
  cases publishes_of_handle watched handles with
  | published earlier effects sequence counters =>
      rw [effects, publishStatus_foldl_loopStatus, value]
      exact ⟨⟨_, handled.node.clock, le_refl _, .refl _, rfl⟩,
        precedes_statusSnapshot _ _ sequence counters⟩
  | silent effects loopState counters =>
      rw [effects]
      refine ⟨⟨node.loopState.counters, node.clock, clock_le_of_handle handles, counters,
        ?_⟩, .refl _⟩
      rw [loopState]
      exact value

theorem shows_of_finish {cleanup : Cleanup} {result : Except Error Unit}
    (watched : process.statusTx = true)
    (shown : ∃ at_ ≤ node.clock,
      Watch.value channel = statusSnapshot process.runtime node.loopState at_)
    (cleansUp : cleanup.now ≤ node.clock) :
    Shows process.runtime
        (Watch.value ((process.finishCleanup node cleanup result).2.foldl publishStatus channel))
        (process.finishCleanup node cleanup result).1 ∧
      (Watch.value channel).Precedes
        (Watch.value
          ((process.finishCleanup node cleanup result).2.foldl publishStatus channel)) := by
  rcases shown with ⟨at_, _, value⟩
  simp only [finishCleanup, Cleanup.finish, watched]
  rw [← List.nil_append (publishLoopStatus _ _ _ _), publishStatus_foldl_loopStatus, value]
  refine ⟨⟨rfl, cleanup.now, cleansUp, rfl⟩, precedes_statusSnapshot _ _ ?_ ?_⟩ <;>
    simp only <;> split
  · exact UInt64.le_refl _
  · exact UInt64.le_refl _
  · exact .refl _
  · exact .refl _

/-- Step lemma: the status follows the loop, and does not go back. -/
theorem shows_of_steps (watched : process.statusTx = true)
    (steps : process.Steps state input next effects)
    (shows : Shows process.runtime (Watch.value channel) state) (cleansUp : CleansUpAt state) :
    Shows process.runtime (Watch.value (effects.foldl publishStatus channel)) next ∧
      (Watch.value channel).Precedes (Watch.value (effects.foldl publishStatus channel)) := by
  cases steps with
  | refresh phase handles =>
      simp only [Shows, phase] at shows
      rcases shows with ⟨published, before, past, lags, value⟩
      rcases published_of_refresh watched handles with
        ⟨⟨earlier, effects⟩, sequence, counters⟩
      rw [effects, publishStatus_foldl_loopStatus, value]
      refine ⟨rfl, precedes_statusSnapshot _ _ ?_ ?_⟩
      · rw [sequence]
        exact UInt64.le_refl _
      · rw [counters]
        exact lags.toLe
  | handled phase ready handles succeeded =>
      simp only [Shows, phase] at shows
      exact shows_of_handled watched handles shows
  | failed phase ready handles failed =>
      simp only [Shows, phase] at shows
      rcases unchanged_of_failed handles failed with ⟨effects, loopState⟩
      rw [effects]
      refine ⟨⟨state.node.clock, clock_le_of_handle handles, ?_⟩, .refl _⟩
      rw [loopState]
      exact shows
  | shutdown phase =>
      simp only [Shows, phase] at shows
      exact ⟨⟨_, le_refl _, shows⟩, .refl _⟩
  | beginCleanup phase ordered =>
      simp only [Shows, phase] at shows
      rcases shows with ⟨at_, past, value⟩
      exact ⟨⟨at_, past.trans ordered, value⟩, .refl _⟩
  | @runFaultHook cleanup result phase faulted =>
      simp only [Shows, phase] at shows
      simp only [Cleanup.faultHook, faulted, if_true]
      exact ⟨shows, .refl _⟩
  | @finish cleanup result phase faulted =>
      simp only [Shows, phase] at shows
      simp only [CleansUpAt, phase] at cleansUp
      exact shows_of_finish watched shows cleansUp
  | @finishFaulted cleanup result phase =>
      simp only [Shows, phase] at shows
      simp only [CleansUpAt, phase] at cleansUp
      exact shows_of_finish watched shows cleansUp

end Loop

/-! ## Along a run -/

structure StatusState.Inv {χ : Type} [Watch χ HaStatus] (runtime : HaRuntimeConfig)
    (state : StatusState χ) : Prop where
  serves : Serves runtime (Watch.value state.channel) state.service.haTask
  cleansUp : ∀ run, state.service.haTask = .running run → CleansUpAt run

section Run

variable {χ : Type} [Watch χ HaStatus] {process : HaProcess} {final : StatusState χ}
variable {trace : List (Transition (StatusState χ) StatusInput StatusOutput)}
variable {next : Transition (StatusState χ) StatusInput StatusOutput}

theorem StatusState.inv_start (runtime : HaRuntimeConfig) :
    (StatusState.start runtime : StatusState χ).Inv runtime :=
  ⟨Watch.value_channel _, fun _ running => HaTask.noConfusion running⟩

/-- The loop is entered with a first status. -/
theorem value_initialPublish (channel : χ) (startupAt scheduledAt : Int) :
    Watch.value ((process.initialPublish (.haEnters startupAt scheduledAt)).foldl
        publishStatus channel) =
      statusSnapshot process.runtime
        (initializeLoopState process.runtime true startupAt scheduledAt).1 startupAt :=
  Watch.value_send _ _

theorem shows_start (process : HaProcess) (startupAt scheduledAt : Int) :
    Shows process.runtime
      (statusSnapshot process.runtime
        (initializeLoopState process.runtime true startupAt scheduledAt).1 startupAt)
      (process.startRun startupAt scheduledAt) :=
  ⟨{}, startupAt, le_max_left _ _, .refl _, rfl⟩

/-- Step lemma, for a step of the service. -/
theorem StatusState.Inv.serve {state : StatusState χ} {service : ServiceState}
    {input : ServiceInput} {effects : List Effect} (inv : state.Inv process.runtime)
    (steps : ServiceSteps process.watched state.service input service effects) :
    let channel := (process.initialPublish input ++ effects).foldl publishStatus state.channel
    StatusState.Inv process.runtime ⟨service, channel⟩ ∧
      (Watch.value state.channel).Precedes (Watch.value channel) := by
  have idle : ∀ {haTask : HaTask}, haTask = state.service.haTask →
      Serves process.runtime (Watch.value state.channel) haTask ∧
        ∀ run, haTask = .running run → CleansUpAt run := by
    rintro _ rfl
    exact ⟨inv.serves, inv.cleansUp⟩
  cases steps with
  | @haMoves run after input effects running stepped =>
      have moves := steps_of_stepRun stepped
      have shows := inv.serves
      rw [running] at shows
      have watched : process.watched.statusTx = true := rfl
      have following := shows_of_steps watched moves shows (inv.cleansUp run running)
      refine ⟨⟨following.1, ?_⟩, following.2⟩
      rintro later ⟨⟩
      exact cleansUpAt_of_steps moves (inv.cleansUp run running)
  | haEnters starting =>
      have fresh := inv.serves
      rw [starting, Serves] at fresh
      refine ⟨⟨?_, ?_⟩, ?_⟩
      · rw [List.append_nil, value_initialPublish]
        exact shows_start process _ _
      · rintro later ⟨⟩
        trivial
      · rw [List.append_nil, value_initialPublish, fresh]
        exact precedes_freshStatus _ _ _
  | haFails starting =>
      have fresh := inv.serves
      rw [starting] at fresh
      exact ⟨⟨fresh, fun _ running => HaTask.noConfusion running⟩, .refl _⟩
  | haPanics =>
      exact ⟨⟨trivial, fun _ running => HaTask.noConfusion running⟩, .refl _⟩
  | apiEnds | signalled | haJoined | apiJoined =>
      exact ⟨⟨(idle rfl).1, (idle rfl).2⟩, .refl _⟩
  | abandoned selecting abandons =>
      cases input with
      | apiJoined | signal => exact ⟨⟨(idle rfl).1, (idle rfl).2⟩, .refl _⟩
      | haFails | haEnters | ha | haPanics | apiEnds | haJoined => cases abandons

theorem StatusState.Inv.step (inv : next.before.Inv process.runtime)
    (nextTaken : process.statusService.Takes next) :
    next.after.Inv process.runtime ∧
      (Watch.value next.before.channel).Precedes (Watch.value next.after.channel) := by
  rcases next with ⟨before, input, after, output⟩
  have taken : process.stepStatus before input = some (after, output) := nextTaken
  cases input with
  | service input =>
      rcases Option.map_eq_some_iff.mp taken with ⟨⟨service, effects⟩, stepped, equal⟩
      cases equal
      exact inv.serve (serviceSteps_of_stepService stepped).2
  | get path =>
      simp only [stepStatus] at taken
      split at taken
      · split at taken <;> cases taken
        exact ⟨inv, .refl _⟩
      · cases taken

theorem StatusState.inv_of_run
    (run : process.statusService.Run (.start process.runtime) trace final) :
    final.Inv process.runtime :=
  run.invariant (motive := fun state => state.Inv process.runtime)
    (StatusState.inv_start process.runtime) fun _ _ taken inv => (inv.step taken).1

/-- A transition makes effects, or answers one request from the channel. -/
theorem output_of_takes (nextTaken : process.statusService.Takes next) :
    (∃ effects : List Effect, next.output = effects.map .effect) ∨
      (next.after = next.before ∧
        ∃ path, next.output = [.served path (route next.before.channel path)]) := by
  rcases next with ⟨before, input, after, output⟩
  have taken : process.stepStatus before input = some (after, output) := nextTaken
  cases input with
  | service input =>
      rcases Option.map_eq_some_iff.mp taken with ⟨⟨service, effects⟩, _, equal⟩
      cases equal
      exact .inl ⟨_, rfl⟩
  | get path =>
      simp only [stepStatus] at taken
      split at taken
      · split at taken <;> cases taken
        exact .inr ⟨rfl, path, rfl⟩
      · cases taken

/-- The status is served on two paths. -/
theorem status_of_route {channel : χ} {path : String}
    {response : StatusResponse} (served : route channel path = .status response) :
    (path = "/status" ∨ path = "/ha/status") ∧ response = .ofHa (Watch.value channel) := by
  simp only [route] at served
  split at served
  · cases served
  · split at served
    · next isStatus =>
        cases served
        exact ⟨.inl isStatus, rfl⟩
    · split at served <;> cases served
      next isStatus => exact ⟨.inr isStatus, rfl⟩

/-- Whenever a status is served, it is that of the loop at the point it has come to. -/
theorem served_status_shows (process : HaProcess)
    (trace : List (Transition (StatusState χ) StatusInput StatusOutput)) (final : StatusState χ)
    (run : process.statusService.Run (.start process.runtime) trace final) :
    ∀ next ∈ trace, ∀ path response, .served path (.status response) ∈ next.output →
      (path = "/status" ∨ path = "/ha/status") ∧ ∃ status, response = .ofHa status ∧
        Serves process.runtime status next.before.service.haTask := by
  intro next member path response served
  rcases run.exists_before member with ⟨taken, before, nextTaken⟩
  rcases output_of_takes nextTaken with ⟨effects, output⟩ | ⟨_, requested, output⟩
  · rw [output] at served
    rcases List.mem_map.mp served with ⟨_, _, other⟩
    cases other
  · rw [output, List.mem_singleton] at served
    injection served with samePath sameResponse
    subst samePath
    rcases status_of_route sameResponse.symm with ⟨isStatus, rfl⟩
    exact ⟨isStatus, _, rfl, (StatusState.inv_of_run before).serves⟩

/-- A transition serves the status of the channel, or none. -/
theorem servedStatuses_of_takes (nextTaken : process.statusService.Takes next) :
    servedStatuses next.output = [] ∨
      (next.after = next.before ∧
        servedStatuses next.output = [Watch.value next.before.channel]) := by
  rcases output_of_takes nextTaken with ⟨effects, output⟩ | ⟨same, path, output⟩
  · left
    rw [output, servedStatuses, List.filterMap_eq_nil_iff]
    intro served member
    rcases List.mem_map.mp member with ⟨effect, _, rfl⟩
    rfl
  · rw [output]
    cases answer : route next.before.channel path with
    | health response => exact .inl rfl
    | notFound => exact .inl rfl
    | status response =>
        rw [(status_of_route answer).2]
        exact .inr ⟨same, rfl⟩

/-- Of two statuses that are served, the later one has the same node and peer, and no
count of it is smaller. -/
theorem served_statuses_ordered (process : HaProcess)
    (trace : List (Transition (StatusState χ) StatusInput StatusOutput)) (final : StatusState χ)
    (run : process.statusService.Run (.start process.runtime) trace final) :
    (servedStatuses (trace.flatMap (·.output))).Pairwise HaStatus.Precedes := by
  have ordered := run.history_induction (motive := fun taken state =>
    state.Inv process.runtime ∧
      (servedStatuses (taken.flatMap (·.output))).Pairwise HaStatus.Precedes ∧
      ∀ status ∈ servedStatuses (taken.flatMap (·.output)),
        status.Precedes (Watch.value state.channel))
    ⟨StatusState.inv_start process.runtime, .nil, fun _ none => absurd none List.not_mem_nil⟩
    ?_
  · exact ordered.2.1
  · rintro taken next - nextTaken - ⟨inv, pairwise, bounded⟩
    rcases inv.step nextTaken with ⟨afterInv, later⟩
    simp only [List.flatMap_append, List.flatMap_singleton, servedStatuses_append]
    rcases servedStatuses_of_takes nextTaken with served | ⟨same, served⟩
    · rw [served, List.append_nil]
      exact ⟨afterInv, pairwise, fun status member => (bounded status member).trans later⟩
    · rw [served]
      refine ⟨afterInv, List.pairwise_append.mpr
        ⟨pairwise, List.pairwise_singleton _ _, ?_⟩, ?_⟩
      · intro earlier earlierMember status member
        rw [List.mem_singleton.mp member]
        exact bounded earlier earlierMember
      · intro status member
        rw [same]
        rcases List.mem_append.mp member with earlier | now
        · exact bounded status earlier
        · rw [List.mem_singleton.mp now]
          exact .refl _

end Run

/-! ## A loop without a channel -/

def Effect.isPublish : Effect → Bool
  | .publish _ => true
  | .spawnAddressAction _ _ _ | .spawnHook _ _ _ | .applyAddresses _ _ | .runHook _ _ _
  | .sendTo _ _ => false

/-- The effects on anything but the status channel. -/
def unpublished (effects : List Effect) : List Effect :=
  effects.filter fun effect => !effect.isPublish

theorem unpublished_append (first second : List Effect) :
    unpublished (first ++ second) = unpublished first ++ unpublished second :=
  List.filter_append first second

@[simp] theorem unpublished_publishLoopStatus (runtime : HaRuntimeConfig) (statusTx : Bool)
    (loopState : HaLoopState) (now : Int) :
    unpublished (publishLoopStatus runtime statusTx loopState now) = [] := by
  cases statusTx <;> rfl

/-- `run_with_status` with or without a channel; `run` and `run_until` have none. -/
def HaProcess.withStatusTx (process : HaProcess) (statusTx : Bool) : HaProcess :=
  { process with statusTx }

section Channel

variable {process : HaProcess} {node : Node} {event : NodeEvent}
variable {handled : Handled}

theorem refreshLocalState_statusTx (runtime : HaRuntimeConfig) (first second : Bool)
    (loopState : HaLoopState) (now : Int) :
    (refreshLocalState runtime first loopState now).1 =
        (refreshLocalState runtime second loopState now).1 ∧
      unpublished (refreshLocalState runtime first loopState now).2 =
        unpublished (refreshLocalState runtime second loopState now).2 := by
  refine ⟨by simp only [refreshLocalState_fst], ?_⟩
  simp only [refreshLocalState]
  split
  · simp only [unpublished_publishLoopStatus]
  · simp only [unpublished_append, unpublished_publishLoopStatus]

theorem handleReceiveEvent_statusTx (hasher : DefaultHasher) (runtime : HaRuntimeConfig)
    (first second : Bool) (loopState : HaLoopState)
    (recv : Except IoError (Nat × SocketAddr)) (buffer : Buffer) (observedAt : Int) :
    let outcome := handleReceiveEvent hasher runtime first loopState recv buffer observedAt
    let other := handleReceiveEvent hasher runtime second loopState recv buffer observedAt
    outcome.result = other.result ∧ outcome.loopState = other.loopState ∧
      unpublished outcome.effects = unpublished other.effects := by
  intro outcome other
  simp only [outcome, other, handleReceiveEvent]
  split
  · split <;> exact ⟨rfl, rfl, rfl⟩
  · split
    · split
      · exact ⟨rfl, rfl, rfl⟩
      · simp only [unpublished_publishLoopStatus, and_self]
    · exact ⟨rfl, rfl, rfl⟩

theorem handleSendEvent_statusTx (hasher : DefaultHasher) (runtime : HaRuntimeConfig)
    (peerAddr : SocketAddr) (first second : Bool) (loopState : HaLoopState)
    (sendTo : Except IoError Unit) (scheduledAt publishedAt : Int) :
    let outcome := handleSendEvent hasher runtime peerAddr first loopState sendTo
      scheduledAt publishedAt
    let other := handleSendEvent hasher runtime peerAddr second loopState sendTo
      scheduledAt publishedAt
    outcome.result = other.result ∧ outcome.loopState = other.loopState ∧
      unpublished outcome.effects = unpublished other.effects := by
  intro outcome other
  simp only [outcome, other, handleSendEvent]
  split
  · simp only [unpublished_append, unpublished_publishLoopStatus, and_self]
  · split
    · simp only [unpublished_append, unpublished_publishLoopStatus, and_self]
    · exact ⟨rfl, rfl, rfl⟩

/-- An event is handled in the same way, apart from what is published. -/
theorem handle_withStatusTx (statusTx : Bool)
    (handles : process.handle node event = some handled) :
    ∃ effects, (process.withStatusTx statusTx).handle node event =
        some { handled with effects } ∧
      unpublished effects = unpublished handled.effects := by
  cases event with
  | refresh now =>
      simp only [handle] at handles ⊢
      split at handles
      · next ordered =>
          cases handles
          rcases refreshLocalState_statusTx process.runtime process.statusTx statusTx
            node.loopState now with ⟨loopState, effects⟩
          refine ⟨_, ?_, effects.symm⟩
          simp only [if_pos ordered, withStatusTx, loopState]
      · cases handles
  | receive recv observedAt =>
      simp only [handle] at handles ⊢
      split at handles
      · next ordered =>
          cases handles
          rw [if_pos ordered]
          rcases handleReceiveEvent_statusTx process.hasher process.runtime process.statusTx
            statusTx node.loopState _ _ observedAt with ⟨result, loopState, effects⟩
          refine ⟨_, ?_, effects.symm⟩
          simp only [withStatusTx, result, loopState]
      · cases handles
  | send sendTo scheduledAt publishedAt =>
      simp only [handle] at handles ⊢
      split at handles
      · next ordered =>
          cases handles
          rcases handleSendEvent_statusTx process.hasher process.runtime process.peerAddr
            process.statusTx statusTx node.loopState sendTo scheduledAt publishedAt with
            ⟨result, loopState, effects⟩
          refine ⟨_, ?_, effects.symm⟩
          simp only [if_pos ordered, withStatusTx, result, loopState]
      · cases handles

theorem finishCleanup_withStatusTx (process : HaProcess) (statusTx : Bool) (node : Node)
    (cleanup : Cleanup) (result : Except Error Unit) :
    ((process.withStatusTx statusTx).finishCleanup node cleanup result).1 =
        (process.finishCleanup node cleanup result).1 ∧
      unpublished ((process.withStatusTx statusTx).finishCleanup node cleanup result).2 =
        unpublished (process.finishCleanup node cleanup result).2 := by
  refine ⟨rfl, ?_⟩
  simp only [finishCleanup, Cleanup.finish, unpublished_publishLoopStatus]

/-- Step lemma: the channel makes no difference to a step. -/
theorem stepRun_withStatusTx (statusTx : Bool) {state next : RunState} {input : RunInput}
    {effects : List Effect} (taken : process.stepRun state input = some (next, effects)) :
    ∃ others, (process.withStatusTx statusTx).stepRun state input = some (next, others) ∧
      unpublished others = unpublished effects := by
  cases steps_of_stepRun taken with
  | refresh phase handles =>
      rcases handle_withStatusTx statusTx handles with ⟨others, same, quiet⟩
      exact ⟨others, by simp only [stepRun, phase, same, Option.map_some], quiet⟩
  | handled phase ready handles succeeded | failed phase ready handles succeeded =>
      rcases handle_withStatusTx statusTx handles with ⟨others, same, quiet⟩
      refine ⟨others, ?_, quiet⟩
      simp only [stepRun, phase, ready, if_true, same, Option.map_some, succeeded]
  | shutdown phase => exact ⟨[], by simp only [stepRun, phase], rfl⟩
  | beginCleanup phase ordered =>
      exact ⟨_, by simp only [stepRun, phase, if_pos ordered]; rfl, rfl⟩
  | runFaultHook phase faulted =>
      exact ⟨_, by simp only [stepRun, phase, faulted, if_true]; rfl, rfl⟩
  | @finish cleanup result phase graceful =>
      rcases finishCleanup_withStatusTx process statusTx state.node cleanup result with
        ⟨same, quiet⟩
      refine ⟨_, ?_, quiet⟩
      simp only [stepRun, phase, graceful, Bool.false_eq_true, if_false, ← same]
  | @finishFaulted cleanup result phase =>
      rcases finishCleanup_withStatusTx process statusTx state.node cleanup result with
        ⟨same, quiet⟩
      refine ⟨_, ?_, quiet⟩
      simp only [stepRun, phase, ← same]

/-- The status channel only observes: on the same inputs, a loop with a channel and one
without come to the same state, and make the same effects apart from what is published. -/
theorem status_only_observes (process : HaProcess) (statusTx : Bool)
    (trace : List (Transition RunState RunInput Effect)) (start final : RunState)
    (run : process.runWithStatus.Run start trace final) :
    ∃ others, (process.withStatusTx statusTx).runWithStatus.Run start others final ∧
      others.map (·.input) = trace.map (·.input) ∧
      unpublished (effectsOf others) = unpublished (effectsOf trace) := by
  induction run with
  | nil state => exact ⟨[], .nil state, rfl, rfl⟩
  | @cons next rest final taken _ ih =>
      rcases ih with ⟨others, run, inputs, effects⟩
      rcases stepRun_withStatusTx statusTx taken with ⟨output, same, quiet⟩
      let other : Transition RunState RunInput Effect :=
        ⟨next.before, next.input, next.after, output⟩
      have step : (process.withStatusTx statusTx).runWithStatus.Takes other := same
      refine ⟨other :: others, Machine.Run.cons step run,
        by simp only [List.map_cons, inputs, other], ?_⟩
      simp only [effectsOf, List.flatMap_cons, unpublished_append] at effects ⊢
      rw [quiet, effects]

end Channel

/-! ## Requests between the steps -/

def askedProcess : HaProcess :=
  demoProcess "high" 200 false

/-- A node rejects a packet, and is asked before and after it has looked at its state
again. -/
def askedTrace : List (Transition (StatusState (Cell HaStatus)) StatusInput StatusOutput) :=
  askedProcess.statusService.record (.start askedProcess.runtime) [
    .get "/status",
    .service (.haEnters 0 0),
    .get "/health",
    .service (.ha (.event (.refresh 0))),
    .service (.ha (.event (.receive (.ok ([1, 2, 3], demoAddr)) 1000000000))),
    .get "/ha/status",
    .service (.ha (.event (.refresh 1000000000))),
    .get "/status"]

theorem askedTrace_run :
    askedProcess.statusService.Run (.start askedProcess.runtime) askedTrace
      (Machine.finalState (.start askedProcess.runtime) askedTrace) :=
  Machine.run_record _ (by decide +kernel)

/-- Only the last status counts the packet. -/
example : (servedStatuses (askedTrace.flatMap (·.output))).map (·.invalidPackets) =
    [0, 0, 1] := by
  decide +kernel

theorem served_status_shows_asked :
    ∃ next ∈ askedTrace, ∃ response, .served "/status" (.status response) ∈ next.output ∧
      ∃ status, response = .ofHa status ∧
        Serves askedProcess.runtime status next.before.service.haTask := by
  have served : .served "/status" (.status (.ofHa
      (Watch.value (askedTrace.get ⟨7, by decide +kernel⟩).before.channel))) ∈
      (askedTrace.get ⟨7, by decide +kernel⟩).output := by
    decide +kernel
  exact ⟨_, List.get_mem _ _, _, served,
    (served_status_shows askedProcess askedTrace _ askedTrace_run _ (List.get_mem _ _)
      _ _ served).2⟩

theorem status_only_observes_fault :
    ∃ others, (watchedProcess.withStatusTx false).runWithStatus.Run
        (watchedProcess.startRun 0 0) others
        (Machine.finalState (watchedProcess.startRun 0 0) faultTrace) ∧
      others.map (·.input) = faultTrace.map (·.input) ∧
      unpublished (effectsOf others) = unpublished (effectsOf faultTrace) :=
  status_only_observes watchedProcess false faultTrace _ _
    (Machine.run_record _ (by decide +kernel))

theorem served_statuses_ordered_asked :
    (servedStatuses (askedTrace.flatMap (·.output))).Pairwise HaStatus.Precedes :=
  served_statuses_ordered askedProcess askedTrace _ askedTrace_run

end Gruezi.Ha
