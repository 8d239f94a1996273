import Gruezi.Ha.History
import Gruezi.Ha.Safety

/-!
# Restarts and hostile traffic

The two-node system in the open: a node can be killed and started again at any time,
with nothing kept of its former self, and anybody can send it datagrams that it does
not accept.  What the former process has sent stays on the wire.  Safety without
timeouts outlives both.
-/

namespace Gruezi.Ha

open Rust Lib HaProcess

/-- What can happen to a node. -/
inductive OpenInput where
  | event (event : NodeEvent)
  /-- The process is killed and started again; the new one reads the clock twice. -/
  | restart (startupAt scheduledAt : Int)

/-- The clock reading of a refresh. -/
def OpenInput.refreshAt : OpenInput → Option Int
  | .event nodeEvent => Pair.refreshAt nodeEvent
  | .restart _ _ => none

namespace Pair

variable (pair : Pair)

def openParty (side : Side) : Machine Node OpenInput (Side × Bytes) where
  step node
    | .event event => (pair.party side).step node event
    | .restart startupAt scheduledAt =>
        some ((pair.process side).startNode startupAt scheduledAt, [])

/-- A datagram that is accepted was sent by the other side; any other datagram can
arrive at any time. -/
def openArrival (side : Side) : OpenInput → Option (Side × Bytes)
  | .event (.receive (.ok (datagram, sender)) observedAt) =>
      ((pair.process side).acceptance
        (.event (.receive (.ok (datagram, sender)) observedAt))).map
          fun _ => (side.other, datagram)
  | _ => none

def openNetwork : Network Side Node OpenInput Bytes where
  party := pair.openParty
  arrival := pair.openArrival

/-- The system of two nodes that restart, on a network that carries anything. -/
abbrev openSystem :
    Machine (World Side Node Bytes) (Side × OpenInput) (Envelope Side Bytes) :=
  pair.openNetwork.system

abbrev OpenTrace :=
  List (Transition (World Side Node Bytes) (Side × OpenInput) (Envelope Side Bytes))

/-- In the trace no refresh of the side comes after a timeout. -/
def NoOpenTimeouts (side : Side) (trace : OpenTrace) : Prop :=
  ∀ next ∈ trace, next.input.1 = side → ∀ now ∈ next.input.2.refreshAt,
    BeforeTimeout (pair.runtime side) (next.before.node side).loopState now

instance (side : Side) (trace : OpenTrace) : Decidable (pair.NoOpenTimeouts side trace) :=
  inferInstanceAs (Decidable (∀ next ∈ trace, _ → _))

/-- The process of the side is not started again. -/
def KeepsRunning (side : Side) (trace : OpenTrace) : Prop :=
  ∀ next ∈ trace, next.input.1 = side → ∀ startupAt scheduledAt,
    next.input.2 ≠ .restart startupAt scheduledAt

variable {pair} {side : Side} {node next : Node} {addressed : List (Side × Bytes)}

/-- A receive in the open: the election does not notice, or an advertisement of the
other side is accepted. -/
theorem party_receive_open {recv : Except IoError (Bytes × SocketAddr)} {observedAt : Int}
    {states : Side → HaState → Prop}
    (stepped : (pair.party side).step node (.receive recv observedAt) =
      some (next, addressed))
    (carried : ∀ arrived ∈ pair.openArrival side (.event (.receive recv observedAt)),
      pair.Carries states ⟨arrived.1, side, arrived.2⟩) :
    node.clock ≤ observedAt ∧ next.clock = observedAt ∧ addressed = [] ∧
      ((∃ counters, next.loopState = { node.loopState with counters }) ∨
      (∃ state sequence counters, states side.other state ∧
        next.loopState = { node.loopState with
          peerObservation := some ((pair.advert side.other state sequence).observed
            node.loopState.peerObservation observedAt)
          counters })) := by
  rcases party_eq_some stepped with ⟨handled, handles, _, nodeEq, sent⟩
  rcases handle_receive handles with ⟨ordered, clock, silent, changed⟩
  rw [nodeEq] at clock changed
  refine ⟨ordered, clock, by rw [sent, silent, List.map_nil], ?_⟩
  rcases changed with same | ⟨datagram, sender, packet, _, rfl, decoded, accepted, _⟩
  · exact .inl same
  · right
    have accepts : (pair.process side).Accepts
        (.event (.receive (.ok (datagram, sender)) observedAt)) packet observedAt :=
      ⟨datagram, sender, rfl, decoded, accepted⟩
    have arrives : pair.openArrival side
        (.event (.receive (.ok (datagram, sender)) observedAt)) =
          some (side.other, datagram) := by
      simp only [openArrival, acceptance_of_accepts accepts, Option.map_some]
    rcases carried _ arrives with ⟨_, state, sequence, allowed, encoded⟩
    rcases party_receive_advert encoded stepped with ⟨counters, loopState⟩
    exact ⟨state, sequence, counters, allowed, loopState⟩

/-- Invariant rule for the open system: what the events keep, and the refreshes and
restarts of the run keep, holds along the run. -/
theorem KeptByEvents.holds_of_openRun {nodeInv : Side → Node → Prop}
    {states : Side → HaState → Prop} {start final : World Side Node Bytes}
    {trace : OpenTrace} (kept : KeptByEvents pair states nodeInv)
    (run : pair.openSystem.Run start trace final)
    (initial : Network.Holds nodeInv (pair.Carries states) start)
    (refreshes : ∀ next ∈ trace, ∀ now node, next.input.2.refreshAt = some now →
      nodeInv next.input.1 (next.before.node next.input.1) →
      (next.before.node next.input.1).clock ≤ now → node.clock = now →
      node.loopState = refreshed (pair.runtime next.input.1)
        (next.before.node next.input.1).loopState now →
      nodeInv next.input.1 node)
    (restarts : ∀ next ∈ trace, ∀ startupAt scheduledAt,
      next.input.2 = .restart startupAt scheduledAt →
      nodeInv next.input.1
        ((pair.process next.input.1).startNode startupAt scheduledAt)) :
    Network.Holds nodeInv (pair.Carries states) final := by
  apply Network.holds_of_run run initial
  intro next member node addressed stepped carried holds
  cases input : next.input.2 with
  | restart startupAt scheduledAt =>
      rw [input] at stepped
      cases stepped
      refine ⟨restarts next member startupAt scheduledAt input, ?_⟩
      intro message sent
      cases sent
  | event event =>
      rw [input] at stepped carried
      cases event with
      | refresh now =>
          rcases party_refresh stepped with ⟨ordered, clock, loopState, rfl⟩
          refine ⟨refreshes next member now node (by rw [input]; rfl) holds ordered clock
            loopState, ?_⟩
          intro message sent
          cases sent
      | receive recv observedAt =>
          rcases party_receive_open stepped carried with
            ⟨ordered, clock, rfl, same | accepted⟩
          · rcases same with ⟨counters, loopState⟩
            constructor
            · apply kept.unchanged _ _ _ holds
              constructor <;> first | exact ordered.trans clock.ge | rw [loopState]
            · intro message sent
              cases sent
          · rcases accepted with ⟨advertised, sequence, counters, allowed, loopState⟩
            refine ⟨kept.accepted _ _ _ advertised sequence counters observedAt holds
              allowed ordered clock loopState, ?_⟩
            intro message sent
            cases sent
      | send sendTo scheduledAt publishedAt =>
          rcases party_send stepped with ⟨ordered, clock, ⟨_, _, _, loopState⟩, encodes⟩
          constructor
          · apply kept.unchanged _ _ _ holds
            constructor <;> first | exact ordered.trans clock.ge | rw [loopState]
          · intro message sent
            rcases encodes message sent with ⟨target, sequence, encoded⟩
            exact ⟨target, _, sequence, kept.current _ _ holds, encoded⟩

end Pair

/-! ## Election -/

/-- A freshly started node waits and has heard nobody. -/
theorem outranked_startNode (pair : Pair) (lower side : Side) (startupAt scheduledAt : Int) :
    Outranked pair lower side ((pair.process side).startNode startupAt scheduledAt) := by
  constructor
  · intro _ active
    cases active
  · intro _ peer observed
    cases observed

/-- Election safety in the open: the lower-ranked of two nodes is never `Active` as
long as none of its processes refreshes after a timeout, however often either node is
started again and whatever is sent to them. -/
theorem lower_waits_across_restarts (pair : Pair) (lower : Side)
    (ranked : outranks (pair.runtime lower.other).priority
      (pair.runtime lower.other).nodeId (pair.runtime lower).priority
      (pair.runtime lower).nodeId = true)
    (startupAt scheduledAt : Side → Int) (final : World Side Node Bytes)
    (trace : Pair.OpenTrace)
    (run : pair.openSystem.Run (pair.startWorld startupAt scheduledAt) trace final)
    (noTimeouts : pair.NoOpenTimeouts lower trace) :
    (final.node lower).loopState.state ≠ .active ∧
      ¬((final.node .left).loopState.state = .active ∧
        (final.node .right).loopState.state = .active) := by
  have initial : Network.Holds (Outranked pair lower) (pair.Carries fun _ _ => True)
      (pair.startWorld startupAt scheduledAt) := by
    constructor
    · intro side
      exact outranked_startNode pair lower side _ _
    · intro envelope member
      cases member
  have holds := (outranked_kept pair lower).holds_of_openRun run initial ?refreshes
    ?restarts
  case refreshes =>
    intro next member now node refreshes holds _ _ loopState
    apply Outranked.refreshed pair lower holds ranked _ loopState
    intro isLower
    rw [isLower]
    exact noTimeouts next member isLower now refreshes
  case restarts =>
    intro next _ startupAt scheduledAt _
    exact outranked_startNode pair lower _ startupAt scheduledAt
  have waiting := (holds.node lower).waiting rfl
  refine ⟨waiting, ?_⟩
  rintro ⟨leftActive, rightActive⟩
  cases lower with
  | left => exact waiting leftActive
  | right => exact waiting rightActive

/-! ## Failback -/

/-- No failback in the open: an owner that keeps running keeps the address, however
often the other node returns, next to a node that may not preempt it and does not
refresh after a timeout. -/
theorem owner_stays_across_restarts (pair : Pair) (owner : Side)
    (noFailback : (pair.runtime owner.other).preempt = false ∨
      outranks (pair.runtime owner.other).priority (pair.runtime owner.other).nodeId
        (pair.runtime owner).priority (pair.runtime owner).nodeId = false)
    (start final : World Side Node Bytes)
    (initial : Network.Holds (OwnerStays pair owner)
      (pair.Carries (OwnerAdvertises owner)) start)
    (trace : Pair.OpenTrace) (run : pair.openSystem.Run start trace final)
    (keepsRunning : Pair.KeepsRunning owner trace)
    (noTimeouts : pair.NoOpenTimeouts owner.other trace) :
    (final.node owner).loopState.state = .active ∧
      (final.node owner.other).loopState.state ≠ .active := by
  have holds := ownerStays_kept.holds_of_openRun run initial ?refreshes ?restarts
  case refreshes =>
    intro next member now node refreshes holds ordered clock loopState
    apply holds.refreshed noFailback ordered clock _ loopState
    intro isOther
    rw [isOther]
    exact noTimeouts next member isOther now refreshes
  case restarts =>
    intro next member startupAt scheduledAt restarts
    have isOther : next.input.1 = owner.other := by
      rcases Side.eq_or_eq_other owner next.input.1 with isOwner | isOther
      · exact absurd restarts (keepsRunning next member isOwner _ _)
      · exact isOther
    refine ⟨?_, ?_, ?_, ?_⟩
    · intro isOwner
      exact absurd (isOther.symm.trans isOwner) (Side.other_ne owner)
    · intro _ peer observed
      cases observed
    · intro _ active
      cases active
    · intro _ peer observed
      cases observed
  exact ⟨(holds.node owner).owns rfl, (holds.node owner.other).waits rfl⟩

/-! ## Two runs of the demo pair -/

/-- The higher-ranked node is elected and killed, its former advertisement arrives
late, and a stranger announces himself. -/
def killedTrace : Pair.OpenTrace :=
  let deliver (side : Side) (state : HaState) (observedAt : Int) : Side × OpenInput :=
    (side, .event (.receive
      (.ok (((demoPair true).advert side.other state 1).wire, demoAddr)) observedAt))
  let stranger := { (demoPair true).advert .left .active 1 with groupId := "other" }
  (demoPair true).openSystem.record
    ((demoPair true).startWorld (fun _ => 0) fun _ => 0) [
    (.left, .event (.refresh 0)),
    (.right, .event (.refresh 0)),
    (.left, .event (.send (.ok ()) 1000000000 1000000000)),
    deliver .right .standby 1000000000,
    (.right, .event (.refresh 1000000000)),
    (.right, .event (.send (.ok ()) 1000000001 1000000001)),
    (.right, .restart 5 5),
    (.right, .event (.refresh 6)),
    (.right, .event (.receive (.ok (stranger.wire, demoAddr)) 7)),
    (.right, .event (.refresh 7)),
    deliver .left .active 2000000000,
    (.left, .event (.refresh 2000000000))]

theorem killedTrace_run :
    (demoPair true).openSystem.Run ((demoPair true).startWorld (fun _ => 0) fun _ => 0)
      killedTrace
      (Machine.finalState ((demoPair true).startWorld (fun _ => 0) fun _ => 0)
        killedTrace) :=
  Machine.run_record _ (by decide +kernel)

theorem lower_waits_across_restarts_demo :
    ((Machine.finalState ((demoPair true).startWorld (fun _ => 0) fun _ => 0)
        killedTrace).node .left).loopState.state ≠ .active :=
  (lower_waits_across_restarts (demoPair true) .left (by decide) _ _ _ killedTrace
    killedTrace_run (by decide +kernel)).1

/-- The higher-ranked node returns twice next to the owner, and hears it in the end. -/
def rejoinTrace : Pair.OpenTrace :=
  (demoPair false).openSystem.record takenOver [
    (.right, .event (.refresh 0)),
    (.right, .restart 100 100),
    (.right, .event (.refresh 100)),
    (.left, .event (.send (.ok ()) 4000000000 4000000000)),
    (.right, .event (.receive
      (.ok (((demoPair false).advert .left .active 1).wire, demoAddr)) 1000000000)),
    (.right, .event (.refresh 1000000000))]

theorem holds_takenOver : Network.Holds (OwnerStays (demoPair false) .left)
    ((demoPair false).Carries (OwnerAdvertises .left)) takenOver := by
  have states : (takenOver.node .left).loopState.state = .active ∧
      (takenOver.node .right).loopState.state ≠ .active := by decide +kernel
  have observations : ∀ side : Side,
      (takenOver.node side).loopState.peerObservation = none := by
    intro side
    cases side <;> decide +kernel
  have nothingSent : takenOver.wire = [] := by decide +kernel
  constructor
  · intro side
    refine ⟨?_, ?_, ?_, ?_⟩
    · rintro rfl
      exact states.1
    · intro _ peer observed
      rw [observations] at observed
      cases observed
    · rintro rfl
      exact states.2
    · intro _ peer observed
      rw [observations] at observed
      cases observed
  · intro envelope sent
    rw [nothingSent] at sent
    cases sent

theorem owner_stays_across_restarts_demo :
    ((Machine.finalState takenOver rejoinTrace).node .left).loopState.state = .active ∧
      ((Machine.finalState takenOver rejoinTrace).node
        (Side.other .left)).loopState.state ≠ .active := by
  have inputs : ∀ next ∈ rejoinTrace, next.input.1 = .left →
      (match next.input.2 with
        | .restart _ _ => true
        | .event _ => false) = false := by decide +kernel
  have run : (demoPair false).openSystem.Run takenOver rejoinTrace
      (Machine.finalState takenOver rejoinTrace) :=
    Machine.run_record _ (by decide +kernel)
  apply owner_stays_across_restarts (demoPair false) .left (.inl rfl) takenOver _
    holds_takenOver rejoinTrace run ?_ (by decide +kernel)
  intro next member isLeft startupAt scheduledAt restarts
  have kept := inputs next member isLeft
  rw [restarts] at kept
  cases kept

end Gruezi.Ha
