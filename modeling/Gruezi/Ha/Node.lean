import Gruezi.Ha.Peering

/-!
# A node and its events

The state the control loop keeps between two awaits, and the three events that
change it: a refresh, a completed receive and an elapsed advertisement timer.
An event carries the clock readings its handler takes; they never go back.
-/

namespace Gruezi.Ha

open Rust

/-- What `run_with_status` works with and never changes. -/
structure HaProcess where
  hasher : DefaultHasher
  runtime : HaRuntimeConfig
  peerAddr : SocketAddr
  statusTx : Bool

structure Node where
  loopState : HaLoopState
  buffer : Buffer
  /-- The latest reading of the monotonic clock. -/
  clock : Int

inductive NodeEvent where
  | refresh (now : Int)
  | receive (recv : Except IoError (Bytes × SocketAddr)) (observedAt : Int)
  | send (sendTo : Except IoError Unit) (scheduledAt publishedAt : Int)

/-- The outcome of an event. -/
structure Handled where
  result : Except Error Unit
  node : Node
  effects : List Effect

namespace HaProcess

variable (process : HaProcess)

/-- Run the handler of an event, unless its clock readings lie in the past. -/
def handle (node : Node) : NodeEvent → Option Handled
  | .refresh now =>
      if node.clock ≤ now then
        let (loopState, effects) :=
          refreshLocalState process.runtime process.statusTx node.loopState now
        some {
          result := .ok ()
          node := { node with loopState, clock := now }
          effects }
      else none
  | .receive recv observedAt =>
      if node.clock ≤ observedAt then
        let (recv, buffer) : Except IoError (Nat × SocketAddr) × Buffer :=
          match recv with
          | .error error => (.error error, node.buffer)
          | .ok (datagram, sender) =>
              let (len, buffer) := node.buffer.recvFrom datagram
              (.ok (len, sender), buffer)
        let outcome := handleReceiveEvent process.hasher process.runtime
          process.statusTx node.loopState recv buffer observedAt
        some {
          result := outcome.result
          node := { loopState := outcome.loopState, buffer, clock := observedAt }
          effects := outcome.effects }
      else none
  | .send sendTo scheduledAt publishedAt =>
      if node.clock ≤ scheduledAt ∧ scheduledAt ≤ publishedAt then
        let outcome := handleSendEvent process.hasher process.runtime process.peerAddr
          process.statusTx node.loopState sendTo scheduledAt publishedAt
        some {
          result := outcome.result
          node := { node with loopState := outcome.loopState, clock := publishedAt }
          effects := outcome.effects }
      else none

/-- A node as `run_with_status` sets it up. -/
def startNode (startupAt scheduledAt : Int) : Node where
  loopState := (initializeLoopState process.runtime process.statusTx startupAt
    scheduledAt).1
  buffer := .zero
  clock := max startupAt scheduledAt

/-! ## What an event can change -/

variable {process} {node : Node} {handled : Handled}

theorem handle_refresh {now : Int}
    (handles : process.handle node (.refresh now) = some handled) :
    node.clock ≤ now ∧ handled.result = .ok () ∧ handled.node.clock = now ∧
      handled.node.loopState = refreshed process.runtime node.loopState now ∧
      handled.effects = (refreshLocalState process.runtime process.statusTx
        node.loopState now).2 := by
  simp only [handle] at handles
  split at handles
  · next ordered =>
      cases handles
      exact ⟨ordered, rfl, rfl, refreshLocalState_fst _ _ _ _, rfl⟩
  · cases handles

/-- The payload handed to `handle_receive_event` is the received datagram, cut
to the size of the buffer. -/
theorem handle_receive {recv : Except IoError (Bytes × SocketAddr)} {observedAt : Int}
    (handles : process.handle node (.receive recv observedAt) = some handled) :
    node.clock ≤ observedAt ∧ handled.node.clock = observedAt ∧
      sentDatagrams handled.effects = [] ∧
      ((∃ counters, handled.node.loopState = { node.loopState with counters }) ∨
      (∃ datagram sender packet counters,
        recv = .ok (datagram, sender) ∧
        HaPacket.decode (datagram.take 1024) = .ok packet ∧
        packet.AcceptedBy process.hasher process.runtime ∧
        handled.node.loopState = { node.loopState with
          peerObservation :=
            some (packet.observed node.loopState.peerObservation observedAt)
          counters })) := by
  simp only [handle] at handles
  split at handles
  · next ordered =>
      cases recv with
      | error error =>
          cases handles
          refine ⟨ordered, rfl, sentDatagrams_receive, .inl ?_⟩
          obtain same | ⟨_, _, _, _, received, _⟩ := handleReceiveEvent_cases
            process.hasher process.runtime process.statusTx node.loopState
            (.error error) node.buffer observedAt
          · exact same
          · cases received
      | ok received =>
          cases received with
          | mk datagram sender =>
              cases handles
              refine ⟨ordered, rfl, sentDatagrams_receive, ?_⟩
              obtain same | ⟨len, _, packet, counters, received, decoded, accepted,
                changed⟩ := handleReceiveEvent_cases process.hasher process.runtime
                process.statusTx node.loopState
                (.ok ((node.buffer.recvFrom datagram).1, sender))
                (node.buffer.recvFrom datagram).2 observedAt
              · exact .inl same
              · cases received
                rw [Buffer.take_recvFrom] at decoded
                exact .inr ⟨datagram, sender, packet, counters, rfl, decoded, accepted,
                  changed⟩
  · cases handles

/-- A datagram of an acceptable packet is accepted. -/
theorem handle_receive_accepted {datagram : Bytes} (sender : SocketAddr)
    {observedAt : Int} {packet : HaPacket} (ordered : node.clock ≤ observedAt)
    (decoded : HaPacket.decode (datagram.take 1024) = .ok packet)
    (accepted : packet.AcceptedBy process.hasher process.runtime) :
    ∃ handled counters,
      process.handle node (.receive (.ok (datagram, sender)) observedAt) =
        some handled ∧
      handled.result = .ok () ∧ handled.node.clock = observedAt ∧
      handled.node.loopState = { node.loopState with
        peerObservation :=
          some (packet.observed node.loopState.peerObservation observedAt)
        counters } := by
  rw [← Buffer.take_recvFrom node.buffer] at decoded
  have fits : (node.buffer.recvFrom datagram).1 ≤
      (node.buffer.recvFrom datagram).2.bytes.length := by
    rw [(node.buffer.recvFrom datagram).2.length_eq]
    exact Nat.min_le_right _ _
  obtain ⟨counters, effects, outcome⟩ := handleReceiveEvent_accepted
    process.statusTx node.loopState sender observedAt fits decoded accepted
  simp only [handle, if_pos ordered, outcome]
  exact ⟨_, counters, rfl, rfl, rfl, rfl⟩

/-- A send changes nothing the election reads; what it hands to the socket
encodes the advertisement of the current state. -/
theorem handle_send {sendTo : Except IoError Unit} {scheduledAt publishedAt : Int}
    (handles : process.handle node (.send sendTo scheduledAt publishedAt) =
      some handled) :
    node.clock ≤ publishedAt ∧ handled.node.clock = publishedAt ∧
      (∃ sequence counters nextAdvertAt, handled.node.loopState =
        { node.loopState with sequence, counters, nextAdvertAt }) ∧
      ∀ datagram ∈ sentDatagrams handled.effects,
        (advertisement process.hasher process.runtime node.loopState.state
          (saturatingAdd node.loopState.sequence 1)).encode = .ok datagram := by
  simp only [handle] at handles
  split at handles
  · next ordered =>
      cases handles
      refine ⟨ordered.1.trans ordered.2, rfl, ?_⟩
      obtain ⟨next, datagram, counters, nextAdvertAt, sent, _, datagrams, changed⟩ |
          ⟨error, nextAdvertAt, _, _, _, datagrams, changed⟩ | ⟨error, _, _, outcome⟩ :=
        handleSendEvent_cases process.hasher process.runtime process.peerAddr
          process.statusTx node.loopState sendTo scheduledAt publishedAt
      · rcases sendAdvertisement_eq_ok.mp sent with ⟨_, rfl, packet, built, encodes⟩
        rcases buildPacket_eq_ok.mp built with ⟨_, rfl⟩
        refine ⟨⟨_, counters, nextAdvertAt, changed⟩, ?_⟩
        intro other member
        rw [datagrams, List.mem_singleton] at member
        rw [member]
        exact encodes
      · refine ⟨⟨_, _, nextAdvertAt, changed⟩, ?_⟩
        intro other member
        rw [datagrams] at member
        cases member
      · rw [outcome]
        refine ⟨⟨_, _, _, rfl⟩, ?_⟩
        intro other member
        cases member
  · cases handles

/-- No event takes the clock back. -/
theorem clock_le_of_handle {event : NodeEvent}
    (handles : process.handle node event = some handled) :
    node.clock ≤ handled.node.clock := by
  cases event with
  | refresh now =>
      rcases handle_refresh handles with ⟨ordered, _, clock, _⟩
      exact ordered.trans clock.ge
  | receive recv observedAt =>
      rcases handle_receive handles with ⟨ordered, clock, _⟩
      exact ordered.trans clock.ge
  | send sendTo scheduledAt publishedAt =>
      rcases handle_send handles with ⟨ordered, clock, _⟩
      exact ordered.trans clock.ge

/-- Only a refresh moves the local state. -/
theorem state_of_handle {event : NodeEvent} (noRefresh : ∀ now, event ≠ .refresh now)
    (handles : process.handle node event = some handled) :
    handled.node.loopState.state = node.loopState.state := by
  cases event with
  | refresh now => exact absurd rfl (noRefresh now)
  | receive recv observedAt =>
      obtain ⟨_, _, _, ⟨_, loopState⟩ | ⟨_, _, _, _, _, _, _, loopState⟩⟩ :=
        handle_receive handles <;> rw [loopState]
  | send sendTo scheduledAt publishedAt =>
      rcases handle_send handles with ⟨_, _, ⟨_, _, _, loopState⟩, _⟩
      rw [loopState]

/-- No event moves the start of the process. -/
theorem startupAt_of_handle {event : NodeEvent}
    (handles : process.handle node event = some handled) :
    handled.node.loopState.startupAt = node.loopState.startupAt := by
  cases event with
  | refresh now =>
      rcases handle_refresh handles with ⟨_, _, _, loopState, _⟩
      rw [loopState, refreshed_startupAt]
  | receive recv observedAt =>
      obtain ⟨_, _, _, ⟨_, loopState⟩ | ⟨_, _, _, _, _, _, _, loopState⟩⟩ :=
        handle_receive handles <;> rw [loopState]
  | send sendTo scheduledAt publishedAt =>
      rcases handle_send handles with ⟨_, _, ⟨_, _, _, loopState⟩, _⟩
      rw [loopState]

end HaProcess

end Gruezi.Ha
