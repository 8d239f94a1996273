import Gruezi.Ha.Node
import Gruezi.Lib.Network

/-!
# The two-node system

Two configurations that are meant to hear each other, each run by its own node
with its own clock, exchanging encoded advertisements over an unreliable network.
-/

namespace Gruezi.Ha

open Rust Lib HaProcess

inductive Side where
  | left
  | right
  deriving DecidableEq, Repr

def Side.other : Side → Side
  | left => right
  | right => left

@[simp] theorem Side.other_other (side : Side) : side.other.other = side := by
  cases side <;> rfl

theorem Side.other_ne (side : Side) : side.other ≠ side := by
  cases side <;> decide

/-- Every side is one of a side and its other. -/
theorem Side.eq_or_eq_other (side party : Side) : party = side ∨ party = side.other := by
  cases side <;> cases party <;> decide

/-- Two nodes of one group. -/
structure Pair where
  hasher : DefaultHasher
  runtime : Side → HaRuntimeConfig
  peerAddr : Side → SocketAddr
  statusTx : Side → Bool
  peers : Peers (runtime .left) (runtime .right)

namespace Pair

variable (pair : Pair)

def process (side : Side) : HaProcess where
  hasher := pair.hasher
  runtime := pair.runtime side
  peerAddr := pair.peerAddr side
  statusTx := pair.statusTx side

theorem peers_other (side : Side) :
    Peers (pair.runtime side.other) (pair.runtime side) := by
  cases side with
  | left => exact pair.peers.symm
  | right => exact pair.peers

/-- The advertisements of one side. -/
def advert (side : Side) (state : HaState) (sequence : UInt64) : HaPacket :=
  advertisement pair.hasher (pair.runtime side) state sequence

/-- A node handles an event that does not end it, and its datagrams go to the
other side. -/
def party (side : Side) : Machine Node NodeEvent (Side × Bytes) where
  step node event :=
    (pair.process side).handle node event |>.bind fun handled =>
      match handled.result with
      | .ok () =>
          some (handled.node,
            (sentDatagrams handled.effects).map fun datagram => (side.other, datagram))
      | .error _ => none

/-- A received datagram was sent by the other side. -/
def arrival (side : Side) : NodeEvent → Option (Side × Bytes)
  | .receive (.ok (datagram, _)) _ => some (side.other, datagram)
  | _ => none

def network : Network Side Node NodeEvent Bytes where
  party := pair.party
  arrival := arrival

/-- The system of the two nodes and the messages between them. -/
abbrev system : Machine (World Side Node Bytes) (Side × NodeEvent) (Envelope Side Bytes) :=
  pair.network.system

/-- Both nodes freshly started, and nothing sent. -/
def startWorld (startupAt scheduledAt : Side → Int) : World Side Node Bytes where
  node side := (pair.process side).startNode (startupAt side) (scheduledAt side)
  wire := []

/-- The message is an encoded advertisement of its source, in one of the given
states. -/
def Carries (states : Side → HaState → Prop) (envelope : Envelope Side Bytes) : Prop :=
  envelope.target = envelope.source.other ∧ ∃ state sequence,
    states envelope.source state ∧
      (pair.advert envelope.source state sequence).encode = .ok envelope.message

/-- A record of an advertisement of the node: it carries the node's rank. -/
structure ObservationOf (runtime : HaRuntimeConfig) (peer : PeerObservation) : Prop where
  nodeId : peer.nodeId = runtime.nodeId
  priority : peer.priority = runtime.priority

variable {pair} {side : Side} {node next : Node} {addressed : List (Side × Bytes)}

/-! ## What one input does to a node -/

theorem party_eq_some {event : NodeEvent}
    (stepped : (pair.party side).step node event = some (next, addressed)) :
    ∃ handled, (pair.process side).handle node event = some handled ∧
      handled.result = .ok () ∧ handled.node = next ∧
      addressed = (sentDatagrams handled.effects).map fun datagram =>
        (side.other, datagram) := by
  simp only [party, Option.bind_eq_some_iff] at stepped
  rcases stepped with ⟨handled, handles, succeeded⟩
  split at succeeded
  · next result =>
      cases succeeded
      exact ⟨handled, handles, result, rfl, rfl⟩
  · cases succeeded

theorem party_refresh {now : Int}
    (stepped : (pair.party side).step node (.refresh now) = some (next, addressed)) :
    node.clock ≤ now ∧ next.clock = now ∧
      next.loopState = refreshed (pair.runtime side) node.loopState now ∧
      addressed = [] := by
  rcases party_eq_some stepped with ⟨handled, handles, _, rfl, rfl⟩
  rcases handle_refresh handles with ⟨ordered, _, clock, loopState, effects⟩
  exact ⟨ordered, clock, loopState, by rw [effects, sentDatagrams_refresh, List.map_nil]⟩

/-- An advertisement of the other side is accepted. -/
theorem party_receive_advert {datagram : Bytes} {sender : SocketAddr} {observedAt : Int}
    {state : HaState} {sequence : UInt64}
    (encoded : (pair.advert side.other state sequence).encode = .ok datagram)
    (stepped : (pair.party side).step node (.receive (.ok (datagram, sender)) observedAt) =
      some (next, addressed)) :
    ∃ counters, next.loopState = { node.loopState with
      peerObservation := some ((pair.advert side.other state sequence).observed
        node.loopState.peerObservation observedAt)
      counters } := by
  rcases party_eq_some stepped with ⟨handled, handles, _, rfl, _⟩
  rcases handle_receive handles with ⟨ordered, _⟩
  rcases HaPacket.encode_eq_ok_iff.mp encoded with ⟨wellFormed, wire⟩
  have decoded : HaPacket.decode (datagram.take 1024) =
      .ok (pair.advert side.other state sequence) := by
    rw [wire]
    exact HaPacket.decode_take_wire wellFormed (by decide)
  have accepted : (pair.advert side.other state sequence).AcceptedBy
      (pair.process side).hasher (pair.process side).runtime :=
    (pair.peers_other side).acceptedBy
  obtain ⟨other, counters, handlesOther, _, _, loopState⟩ :=
    handle_receive_accepted sender ordered decoded accepted
  cases handles.symm.trans handlesOther
  exact ⟨counters, loopState⟩

/-- Whatever arrives is an advertisement of the other side, and is accepted. -/
theorem party_receive {recv : Except IoError (Bytes × SocketAddr)} {observedAt : Int}
    {states : Side → HaState → Prop}
    (stepped : (pair.party side).step node (.receive recv observedAt) =
      some (next, addressed))
    (carried : ∀ arrived ∈ arrival side (.receive recv observedAt),
      pair.Carries states ⟨arrived.1, side, arrived.2⟩) :
    node.clock ≤ observedAt ∧ next.clock = observedAt ∧ addressed = [] ∧
      ((∃ counters, next.loopState = { node.loopState with counters }) ∨
      (∃ state sequence counters, states side.other state ∧
        next.loopState = { node.loopState with
          peerObservation := some ((pair.advert side.other state sequence).observed
            node.loopState.peerObservation observedAt)
          counters })) := by
  rcases party_eq_some stepped with ⟨handled, handles, _, nodeEq, sent⟩
  rcases handle_receive handles with ⟨ordered, clock, silent, changed⟩
  rw [nodeEq] at clock changed
  refine ⟨ordered, clock, by rw [sent, silent, List.map_nil], ?_⟩
  rcases changed with same | ⟨datagram, sender, _, _, rfl, _, _, _⟩
  · exact .inl same
  · right
    rcases carried _ rfl with ⟨_, state, sequence, allowed, encoded⟩
    rcases party_receive_advert encoded stepped with ⟨counters, loopState⟩
    exact ⟨state, sequence, counters, allowed, loopState⟩

theorem party_send {sendTo : Except IoError Unit} {scheduledAt publishedAt : Int}
    (stepped : (pair.party side).step node (.send sendTo scheduledAt publishedAt) =
      some (next, addressed)) :
    node.clock ≤ publishedAt ∧ next.clock = publishedAt ∧
      (∃ sequence counters nextAdvertAt, next.loopState =
        { node.loopState with sequence, counters, nextAdvertAt }) ∧
      ∀ message ∈ addressed, message.1 = side.other ∧ ∃ sequence,
        (pair.advert side node.loopState.state sequence).encode = .ok message.2 := by
  rcases party_eq_some stepped with ⟨handled, handles, _, rfl, rfl⟩
  rcases handle_send handles with ⟨ordered, clock, loopState, encodes⟩
  refine ⟨ordered, clock, loopState, ?_⟩
  intro message member
  rcases List.mem_map.mp member with ⟨datagram, sent, rfl⟩
  exact ⟨rfl, _, encodes datagram sent⟩

/-! ## Invariants of the pair -/

/-- Two states of a node that differ in nothing the election reads, the second
not earlier than the first. -/
structure SameElection (node next : Node) : Prop where
  clock : node.clock ≤ next.clock
  state : next.loopState.state = node.loopState.state
  activePeerConflict :
    next.loopState.activePeerConflict = node.loopState.activePeerConflict
  startupAt : next.loopState.startupAt = node.loopState.startupAt
  peerObservation : next.loopState.peerObservation = node.loopState.peerObservation

/-- A predicate on each node that holds whatever the node receives, provided the
other side advertises only the given states. -/
structure KeptByEvents (pair : Pair) (states : Side → HaState → Prop)
    (nodeInv : Side → Node → Prop) : Prop where
  current : ∀ side node, nodeInv side node → states side node.loopState.state
  unchanged : ∀ side node next, nodeInv side node → SameElection node next →
    nodeInv side next
  accepted : ∀ side node next state sequence counters observedAt,
    nodeInv side node → states side.other state →
    node.clock ≤ observedAt → next.clock = observedAt →
    next.loopState = { node.loopState with
      peerObservation := some ((pair.advert side.other state sequence).observed
        node.loopState.peerObservation observedAt)
      counters } →
    nodeInv side next

/-- Invariant rule for the pair: what the events keep and the refreshes of the
run keep holds along the run, and so does what the messages carry. -/
theorem KeptByEvents.holds_of_run {nodeInv : Side → Node → Prop}
    {states : Side → HaState → Prop} {start final : World Side Node Bytes}
    {trace : List (Transition (World Side Node Bytes) (Side × NodeEvent)
      (Envelope Side Bytes))}
    (kept : KeptByEvents pair states nodeInv)
    (run : pair.system.Run start trace final)
    (initial : Network.Holds nodeInv (pair.Carries states) start)
    (refreshes : ∀ next ∈ trace, ∀ now node, next.input.2 = .refresh now →
      nodeInv next.input.1 (next.before.node next.input.1) →
      (next.before.node next.input.1).clock ≤ now → node.clock = now →
      node.loopState = refreshed (pair.runtime next.input.1)
        (next.before.node next.input.1).loopState now →
      nodeInv next.input.1 node) :
    Network.Holds nodeInv (pair.Carries states) final := by
  apply Network.holds_of_run run initial
  intro next member node addressed stepped carried holds
  cases event : next.input.2 with
  | refresh now =>
      rw [event] at stepped
      rcases party_refresh stepped with ⟨ordered, clock, loopState, rfl⟩
      refine ⟨refreshes next member now node event holds ordered clock loopState, ?_⟩
      intro message sent
      cases sent
  | receive recv observedAt =>
      rw [event] at stepped carried
      rcases party_receive stepped carried with ⟨ordered, clock, rfl, same | accepted⟩
      · rcases same with ⟨counters, loopState⟩
        constructor
        · apply kept.unchanged _ _ _ holds
          constructor <;> first | exact ordered.trans clock.ge | rw [loopState]
        · intro message sent
          cases sent
      · rcases accepted with ⟨advertised, sequence, counters, allowed, loopState⟩
        refine ⟨kept.accepted _ _ _ advertised sequence counters observedAt holds allowed
          ordered clock loopState, ?_⟩
        intro message sent
        cases sent
  | send sendTo scheduledAt publishedAt =>
      rw [event] at stepped
      rcases party_send stepped with ⟨ordered, clock, ⟨_, _, _, loopState⟩, encodes⟩
      constructor
      · apply kept.unchanged _ _ _ holds
        constructor <;> first | exact ordered.trans clock.ge | rw [loopState]
      · intro message sent
        rcases encodes message sent with ⟨target, sequence, encoded⟩
        exact ⟨target, _, sequence, kept.current _ _ holds, encoded⟩

/-! ## Refreshes before any timeout -/

/-- At `now` the observation has not expired and, without one, the startup
deadline has not been reached. -/
def BeforeTimeout (runtime : HaRuntimeConfig) (loopState : HaLoopState) (now : Int) :
    Prop :=
  match loopState.peerObservation with
  | some peer => peer.LiveAt runtime now
  | none => now < loopState.startupAt + runtime.window

instance (runtime : HaRuntimeConfig) (loopState : HaLoopState) (now : Int) :
    Decidable (BeforeTimeout runtime loopState now) := by
  unfold BeforeTimeout
  split <;> infer_instance

/-- The clock reading of a refresh of the node. -/
def refreshAt : NodeEvent → Option Int
  | .refresh now => some now
  | _ => none

/-- In the trace no refresh of the side comes after a timeout. -/
def NoTimeouts (pair : Pair) (side : Side)
    (trace : List (Transition (World Side Node Bytes) (Side × NodeEvent)
      (Envelope Side Bytes))) : Prop :=
  ∀ next ∈ trace, next.input.1 = side → ∀ now ∈ refreshAt next.input.2,
    BeforeTimeout (pair.runtime side) (next.before.node side).loopState now

instance (pair : Pair) (side : Side)
    (trace : List (Transition (World Side Node Bytes) (Side × NodeEvent)
      (Envelope Side Bytes))) : Decidable (NoTimeouts pair side trace) :=
  inferInstanceAs (Decidable (∀ next ∈ trace, _ → _))

end Pair

/-! ## A demo pair -/

/-- A pair without authentication; the right node outranks the left one. -/
def demoPair (preempt : Bool) : Pair where
  hasher := ⟨fun _ => 0⟩
  runtime
    | .left => demoRuntime "low" 100 preempt
    | .right => demoRuntime "high" 200 preempt
  peerAddr _ := demoAddr
  statusTx _ := false
  peers := ⟨rfl, rfl, (by decide : "low" ≠ "high"), rfl⟩

/-- The arrival at a side of what the other side of the demo pair has sent. -/
def demoDelivery (side : Side) (state : HaState) (sequence : UInt64)
    (observedAt : Int) : Side × NodeEvent :=
  let packet := (demoPair false).advert side.other state sequence
  (side, .receive (.ok (packet.wire, demoAddr)) observedAt)

end Gruezi.Ha
