import Gruezi.Ha.Contest
import Gruezi.Ha.Pair

/-!
# Stabilisation in rounds

The pair after a partition has healed: from any two loop states, in each round
both nodes send one advertisement and accept the other's, in any order, and
refresh after every event within the liveness windows.  Each step is a step of
the contest, so after three rounds there is one owner, and it stays the owner.
-/

namespace Gruezi.Ha

open Rust Lib HaProcess

structure RoundState where
  node : Side → Node
  /-- The datagram each side has sent in this round. -/
  sent : Side → Option Bytes
  received : Side → Bool
  /-- Whether an event of the side has not been followed by a refresh yet. -/
  owesRefresh : Side → Bool
  /-- Whether the side has accepted an advertisement since the start. -/
  heard : Side → Bool
  round : Nat

inductive RoundInput where
  | event (side : Side) (event : NodeEvent)
  | nextRound

namespace RoundState

/-- The side has done its part of the round. -/
def finished (rounds : RoundState) (side : Side) : Bool :=
  (rounds.sent side).isSome && rounds.received side && !rounds.owesRefresh side

/-- At `now` the observation made in these rounds, if there is one yet, is inside
its liveness window. -/
def inWindow (pair : Pair) (rounds : RoundState) (side : Side) (now : Int) : Bool :=
  !rounds.heard side || (rounds.node side).loopState.peerObservation.any fun peer =>
    decide (peer.LiveAt (pair.runtime side) now)

end RoundState

namespace Pair

variable (pair : Pair)

def stepRound (rounds : RoundState) : RoundInput → Option (RoundState × List Bytes)
  | .event side (.refresh now) =>
      if rounds.inWindow pair side now then
        ((pair.party side).step (rounds.node side) (.refresh now)).map fun result =>
          ({ rounds with
             node := Function.update rounds.node side result.1
             owesRefresh := Function.update rounds.owesRefresh side false }, [])
      else none
  | .event side (.send sendTo scheduledAt publishedAt) =>
      if rounds.owesRefresh side = false ∧ rounds.sent side = none then
        match (pair.party side).step (rounds.node side)
            (.send sendTo scheduledAt publishedAt) with
        | some (node, [(_, datagram)]) =>
            some ({ rounds with
              node := Function.update rounds.node side node
              sent := Function.update rounds.sent side (some datagram)
              owesRefresh := Function.update rounds.owesRefresh side true }, [datagram])
        | _ => none
      else none
  | .event side (.receive (.ok (datagram, sender)) observedAt) =>
      if rounds.owesRefresh side = false ∧ rounds.received side = false ∧
          rounds.sent side.other = some datagram then
        ((pair.party side).step (rounds.node side)
            (.receive (.ok (datagram, sender)) observedAt)).map fun result =>
          ({ rounds with
             node := Function.update rounds.node side result.1
             received := Function.update rounds.received side true
             owesRefresh := Function.update rounds.owesRefresh side true
             heard := Function.update rounds.heard side true }, [])
      else none
  | .event _ (.receive (.error _) _) => none
  | .nextRound =>
      if rounds.finished .left && rounds.finished .right then
        some ({ rounds with
          sent := fun _ => none
          received := fun _ => false
          round := rounds.round + 1 }, [])
      else none

/-- The rounds as a machine; its outputs are the datagrams sent. -/
def rounds : Machine RoundState RoundInput Bytes where
  step := pair.stepRound

/-- Any two nodes, before the first round and with nothing in flight. -/
def startRounds (node : Side → Node) : RoundState where
  node
  sent _ := none
  received _ := false
  owesRefresh _ := false
  heard _ := false
  round := 0

/-! ## The contest behind the rounds -/

/-- One side of the rounds and its contestant. -/
structure Shows (rounds : RoundState) (side : Side) (contestant : Contestant) : Prop where
  state : (rounds.node side).loopState.state = contestant.state
  conflict : (rounds.node side).loopState.activePeerConflict = contestant.conflict
  heard : rounds.heard side = contestant.heard
  observed : contestant.heard = true →
    ∃ peer, (rounds.node side).loopState.peerObservation = some peer ∧
      ObservationOf (pair.runtime side.other) peer ∧ peer.state = contestant.seen ∧
      peer.becameActive = contestant.becameActive
  owesRefresh : rounds.owesRefresh side = contestant.owesRefresh
  received : rounds.received side = contestant.received
  nothingSent : contestant.sent = none → rounds.sent side = none
  sent : ∀ state ∈ contestant.sent, ∃ sequence datagram,
    rounds.sent side = some datagram ∧
      (pair.advert side state sequence).encode = .ok datagram

/-- The rounds and the contest they are an instance of. -/
structure Plays (top : Side) (rounds : RoundState) (contest : Contest) : Prop where
  higher : pair.Shows rounds top contest.higher
  lower : pair.Shows rounds top.other contest.lower
  round : rounds.round = contest.round

end Pair

/-- A refresh within the liveness window decides as the contestant does. -/
theorem decide_eq_refreshed {runtime : HaRuntimeConfig} {loopState : HaLoopState}
    {peer : PeerObservation} {now : Int} {contestant : Contestant}
    (observed : loopState.peerObservation = some peer) (live : peer.LiveAt runtime now)
    (state : loopState.state = contestant.state)
    (conflict : loopState.activePeerConflict = contestant.conflict)
    (seen : peer.state = contestant.seen)
    (became : peer.becameActive = contestant.becameActive) :
    contestant.decide
        (outranks runtime.priority runtime.nodeId peer.priority peer.nodeId)
        runtime.preempt =
      ((refreshed runtime loopState now).state,
        (refreshed runtime loopState now).activePeerConflict) := by
  rw [refreshed_state, refreshed_activePeerConflict]
  by_cases peerActive : peer.state = .active
  · have alive : hasLiveActivePeer runtime loopState.peerObservation now = true :=
      hasLiveActivePeer_eq_true.mpr ⟨peer, observed, live, peerActive⟩
    have decision : refreshDecision runtime loopState now =
        desiredStateWithActivePeer runtime peer loopState.activePeerConflict := by
      rw [refreshDecision, observed, desiredState_activePeer live peerActive]
    rw [decision, alive, Contestant.decide, if_pos (seen ▸ peerActive), ← became,
      ← conflict]
    simp only [desiredStateWithActivePeer_reason, Bool.true_and]
    rw [desiredStateWithActivePeer]
    split_ifs <;> simp_all
  · have dead : hasLiveActivePeer runtime loopState.peerObservation now = false := by
      rw [Bool.eq_false_iff]
      intro alive
      obtain ⟨other, otherObserved, _, otherActive⟩ :=
        hasLiveActivePeer_eq_true.mp alive
      cases observed.symm.trans otherObserved
      exact peerActive otherActive
    have noConflict : (refreshDecision runtime loopState now).reason ≠
        .peerBecameActiveConflict := by
      rw [refreshDecision, observed]
      exact desiredState_passivePeer_reason live peerActive
    rw [if_neg noConflict, dead, Bool.false_and, refreshDecision, observed,
      desiredState_passivePeer live peerActive, Contestant.decide,
      if_neg (seen ▸ peerActive), state]
    split_ifs <;> simp_all

namespace Pair

variable {pair : Pair} {rounds next : RoundState} {side : Side} {output : List Bytes}
variable {own other : Contestant}

/-- The side outranks the other one. -/
def wins (pair : Pair) (side : Side) : Bool :=
  outranks (pair.runtime side).priority (pair.runtime side).nodeId
    (pair.runtime side.other).priority (pair.runtime side.other).nodeId

/-- The side has taken one step of its contestant. -/
abbrev Acts (pair : Pair) (next : RoundState) (side : Side) (inbox : Option HaState)
    (own : Contestant) : Prop :=
  ∃ after, Contestant.Act (pair.wins side) (pair.runtime side).preempt inbox own after ∧
    pair.Shows next side after

/-! ## What a step of the rounds can do -/

theorem stepRound_refresh {now : Int}
    (taken : pair.stepRound rounds (.event side (.refresh now)) = some (next, output)) :
    rounds.inWindow pair side now = true ∧ ∃ node addressed,
      (pair.party side).step (rounds.node side) (.refresh now) = some (node, addressed) ∧
      next = { rounds with
        node := Function.update rounds.node side node
        owesRefresh := Function.update rounds.owesRefresh side false } := by
  simp only [stepRound] at taken
  split at taken
  · next window =>
      rw [Option.map_eq_some_iff] at taken
      rcases taken with ⟨⟨node, addressed⟩, stepped, equal⟩
      cases equal
      exact ⟨window, node, addressed, stepped, rfl⟩
  · cases taken

theorem stepRound_send {sendTo : Except IoError Unit} {scheduledAt publishedAt : Int}
    (taken : pair.stepRound rounds (.event side (.send sendTo scheduledAt publishedAt)) =
      some (next, output)) :
    rounds.owesRefresh side = false ∧ rounds.sent side = none ∧ ∃ node target datagram,
      (pair.party side).step (rounds.node side) (.send sendTo scheduledAt publishedAt) =
        some (node, [(target, datagram)]) ∧
      next = { rounds with
        node := Function.update rounds.node side node
        sent := Function.update rounds.sent side (some datagram)
        owesRefresh := Function.update rounds.owesRefresh side true } := by
  simp only [stepRound] at taken
  split at taken
  · next ready =>
      split at taken
      · next node target datagram stepped =>
          cases taken
          exact ⟨ready.1, ready.2, node, target, datagram, stepped, rfl⟩
      · cases taken
  · cases taken

theorem stepRound_receive {recv : Except IoError (Bytes × SocketAddr)} {observedAt : Int}
    (taken : pair.stepRound rounds (.event side (.receive recv observedAt)) =
      some (next, output)) :
    ∃ datagram sender, recv = .ok (datagram, sender) ∧
      rounds.owesRefresh side = false ∧ rounds.received side = false ∧
      rounds.sent side.other = some datagram ∧ ∃ node addressed,
      (pair.party side).step (rounds.node side)
        (.receive (.ok (datagram, sender)) observedAt) = some (node, addressed) ∧
      next = { rounds with
        node := Function.update rounds.node side node
        received := Function.update rounds.received side true
        owesRefresh := Function.update rounds.owesRefresh side true
        heard := Function.update rounds.heard side true } := by
  cases recv with
  | error => cases taken
  | ok arrived =>
      rcases arrived with ⟨datagram, sender⟩
      simp only [stepRound] at taken
      split at taken
      · next ready =>
          rcases ready with ⟨settled, notReceived, inFlight⟩
          rw [Option.map_eq_some_iff] at taken
          rcases taken with ⟨⟨node, addressed⟩, stepped, equal⟩
          cases equal
          exact ⟨datagram, sender, rfl, settled, notReceived, inFlight, node, addressed,
            stepped, rfl⟩
      · cases taken

theorem stepRound_nextRound
    (taken : pair.stepRound rounds .nextRound = some (next, output)) :
    (∀ side, rounds.finished side = true) ∧
      next = { rounds with
        sent := fun _ => none
        received := fun _ => false
        round := rounds.round + 1 } := by
  simp only [stepRound] at taken
  split at taken
  · next finished =>
      cases taken
      rw [Bool.and_eq_true] at finished
      refine ⟨?_, rfl⟩
      intro side
      cases side with
      | left => exact finished.1
      | right => exact finished.2
  · cases taken

/-! ## Each step is a step of the contest -/

/-- What a side shows depends on nothing of the other side. -/
theorem Shows.frame (shows : pair.Shows rounds side own)
    (node : next.node side = rounds.node side)
    (heard : next.heard side = rounds.heard side)
    (owesRefresh : next.owesRefresh side = rounds.owesRefresh side)
    (received : next.received side = rounds.received side)
    (sent : next.sent side = rounds.sent side) : pair.Shows next side own := by
  constructor
  · rw [node]; exact shows.state
  · rw [node]; exact shows.conflict
  · rw [heard]; exact shows.heard
  · rw [node]; exact shows.observed
  · rw [owesRefresh]; exact shows.owesRefresh
  · rw [received]; exact shows.received
  · rw [sent]; exact shows.nothingSent
  · rw [sent]; exact shows.sent

/-- An event of one side changes nothing of the other. -/
theorem stepRound_other {event : NodeEvent}
    (taken : pair.stepRound rounds (.event side event) = some (next, output)) :
    next.round = rounds.round ∧ ∀ contestant, pair.Shows rounds side.other contestant →
      pair.Shows next side.other contestant := by
  have apart : side.other ≠ side := side.other_ne
  cases event with
  | refresh now =>
      rcases stepRound_refresh taken with ⟨_, _, _, _, rfl⟩
      exact ⟨rfl, fun _ shows => shows.frame (by simp [apart]) rfl (by simp [apart]) rfl
        rfl⟩
  | receive recv observedAt =>
      rcases stepRound_receive taken with ⟨_, _, _, _, _, _, _, _, _, rfl⟩
      exact ⟨rfl, fun _ shows => shows.frame (by simp [apart]) (by simp [apart])
        (by simp [apart]) (by simp [apart]) rfl⟩
  | send sendTo scheduledAt publishedAt =>
      rcases stepRound_send taken with ⟨_, _, _, _, _, _, rfl⟩
      exact ⟨rfl, fun _ shows => shows.frame (by simp [apart]) rfl (by simp [apart]) rfl
        (by simp [apart])⟩

theorem Shows.refresh {now : Int} (shows : pair.Shows rounds side own)
    (taken : pair.stepRound rounds (.event side (.refresh now)) = some (next, output)) :
    pair.Acts next side other.sent own := by
  rcases stepRound_refresh taken with ⟨window, node, addressed, stepped, rfl⟩
  rcases party_refresh stepped with ⟨_, _, loopState, _⟩
  refine ⟨_, .refresh node.loopState.state node.loopState.activePeerConflict ?_, ?_⟩
  · intro heard
    rcases shows.observed heard with ⟨peer, observed, rank, seen, became⟩
    have live : peer.LiveAt (pair.runtime side) now := by
      rw [RoundState.inWindow, shows.heard, heard, observed] at window
      simpa using window
    rw [loopState, wins, ← rank.priority, ← rank.nodeId]
    exact decide_eq_refreshed observed live shows.state shows.conflict seen became
  · exact { shows with
      state := by simp
      conflict := by simp
      observed := fun heard => by simpa [loopState] using shows.observed heard
      owesRefresh := by simp }

theorem Shows.send {sendTo : Except IoError Unit} {scheduledAt publishedAt : Int}
    (shows : pair.Shows rounds side own)
    (taken : pair.stepRound rounds (.event side (.send sendTo scheduledAt publishedAt)) =
      some (next, output)) :
    pair.Acts next side other.sent own := by
  obtain ⟨settled, unsent, node, target, datagram, stepped, rfl⟩ := stepRound_send taken
  rcases party_send stepped with ⟨_, _, ⟨_, _, _, loopState⟩, encodes⟩
  have notSent : own.sent = none := by
    rw [Option.eq_none_iff_forall_not_mem]
    intro state sent
    rcases shows.sent state sent with ⟨_, _, sentDatagram, _⟩
    rw [unsent] at sentDatagram
    cases sentDatagram
  refine ⟨_, .send (shows.owesRefresh ▸ settled) notSent, ?_⟩
  have sent : ∀ advertised ∈ some own.state, ∃ sequence datagram',
      Function.update rounds.sent side (some datagram) side = some datagram' ∧
        (pair.advert side advertised sequence).encode = .ok datagram' := by
    rintro _ ⟨⟩
    obtain ⟨_, sequence, encoded⟩ := encodes _ (List.mem_singleton_self _)
    exact ⟨sequence, datagram, by simp, shows.state ▸ encoded⟩
  exact { shows with
    state := by simpa [loopState] using shows.state
    conflict := by simpa [loopState] using shows.conflict
    observed := by simpa [loopState] using shows.observed
    owesRefresh := by simp
    nothingSent := fun none => (nomatch none)
    sent }

theorem Shows.receive {recv : Except IoError (Bytes × SocketAddr)} {observedAt : Int}
    (shows : pair.Shows rounds side own)
    (othershows : pair.Shows rounds side.other other)
    (taken : pair.stepRound rounds (.event side (.receive recv observedAt)) =
      some (next, output)) :
    pair.Acts next side other.sent own := by
  obtain ⟨datagram, sender, rfl, settled, notReceived, inFlight, node, addressed, stepped,
    rfl⟩ := stepRound_receive taken
  cases sent : other.sent with
  | none =>
      rw [othershows.nothingSent sent] at inFlight
      cases inFlight
  | some advertised =>
      rcases othershows.sent _ sent with ⟨sequence, sentDatagram, found, encoded⟩
      cases inFlight.symm.trans found
      rcases party_receive_advert encoded stepped with ⟨_, loopState⟩
      refine ⟨_, .receive advertised ((pair.advert side.other advertised
        sequence).observed (rounds.node side).loopState.peerObservation
          observedAt).becameActive (shows.owesRefresh ▸ settled)
        (shows.received ▸ notReceived) rfl ?_, ?_⟩
      · intro heard
        rcases shows.observed heard with ⟨peer, observed, rank, seen, _⟩
        simp [HaPacket.observed, observed, advert, rank.nodeId, seen]
      · exact { shows with
          state := by simpa [loopState] using shows.state
          conflict := by simpa [loopState] using shows.conflict
          heard := by simp
          observed := fun _ => ⟨_, by simp [loopState], ⟨rfl, rfl⟩, rfl, rfl⟩
          owesRefresh := by simp
          received := by simp }

theorem Shows.event {event : NodeEvent} (shows : pair.Shows rounds side own)
    (othershows : pair.Shows rounds side.other other)
    (taken : pair.stepRound rounds (.event side event) = some (next, output)) :
    pair.Acts next side other.sent own := by
  cases event with
  | refresh now => exact shows.refresh taken
  | receive recv observedAt => exact shows.receive othershows taken
  | send sendTo scheduledAt publishedAt => exact shows.send taken

theorem Shows.finished (shows : pair.Shows rounds side own)
    (finished : rounds.finished side = true) : own.Finished := by
  simp only [RoundState.finished, Bool.and_eq_true, Bool.not_eq_true'] at finished
  rcases finished with ⟨⟨sent, received⟩, settled⟩
  refine ⟨?_, shows.received ▸ received, shows.owesRefresh ▸ settled⟩
  intro notSent
  rw [shows.nothingSent notSent] at sent
  cases sent

theorem wins_other_of_wins {top : Side} (higher : pair.wins top = true) :
    pair.wins top.other = false := by
  rw [wins, Side.other_other]
  exact outranks_asymm higher

/-- Simulation: each step of the rounds is a step of the contest. -/
theorem Plays.step {top : Side} {contest : Contest} {input : RoundInput}
    (higher : pair.wins top = true) (plays : pair.Plays top rounds contest)
    (taken : pair.stepRound rounds input = some (next, output)) :
    ∃ after, Contest.Step (pair.runtime top).preempt (pair.runtime top.other).preempt
      contest after ∧ pair.Plays top next after := by
  cases input with
  | event acting event =>
      rcases stepRound_other taken with ⟨sameRound, untouched⟩
      rcases Side.eq_or_eq_other top acting with rfl | rfl
      · rcases plays.higher.event plays.lower taken with ⟨after, act, shows⟩
        rw [higher] at act
        exact ⟨_, .higher act, shows, untouched _ plays.lower,
          sameRound.trans plays.round⟩
      · rw [Side.other_other] at untouched
        obtain ⟨after, act, shows⟩ :=
          plays.lower.event ((Side.other_other top).symm ▸ plays.higher) taken
        rw [wins_other_of_wins higher] at act
        exact ⟨_, .lower act, untouched _ plays.higher, shows,
          sameRound.trans plays.round⟩
  | nextRound =>
      rcases stepRound_nextRound taken with ⟨finished, rfl⟩
      have nextRound : ∀ side contestant, pair.Shows rounds side contestant →
          pair.Shows { rounds with
            sent := fun _ => none
            received := fun _ => false
            round := rounds.round + 1 } side contestant.nextRound :=
        fun _ _ shows => { shows with
          received := rfl
          nothingSent := fun _ => rfl
          sent := fun _ sent => (nomatch sent) }
      exact ⟨_, .nextRound (plays.higher.finished (finished _))
        (plays.lower.finished (finished _)), nextRound _ _ plays.higher,
        nextRound _ _ plays.lower, congrArg (· + 1) plays.round⟩

/-- The contestant of a node that has heard nothing in the rounds yet. -/
def contestant (node : Node) : Contestant where
  state := node.loopState.state
  heard := false
  seen := .init
  becameActive := false
  conflict := node.loopState.activePeerConflict
  owesRefresh := false
  sent := none
  received := false

theorem shows_startRounds (node : Side → Node) (side : Side) :
    pair.Shows (startRounds node) side (contestant (node side)) :=
  ⟨rfl, rfl, rfl, fun heard => (nomatch heard), rfl, rfl, fun _ => rfl,
    fun _ sent => (nomatch sent)⟩

theorem exists_wins (pair : Pair) : ∃ top, pair.wins top = true := by
  cases left : pair.wins .left with
  | true => exact ⟨.left, left⟩
  | false => exact ⟨.right, outranks_total pair.peers.nodeId left⟩

/-- Exactly this node is `Active`. -/
def SoleActive (rounds : RoundState) (owner : Side) : Prop :=
  ∀ side, (rounds.node side).loopState.state = .active ↔ side = owner

theorem Plays.soleActive {top : Side} {contest : Contest}
    (plays : pair.Plays top rounds contest) {higherOwns : Bool}
    (owner : contest.Owner higherOwns) :
    SoleActive rounds (if higherOwns then top else top.other) := by
  rcases owner with ⟨higherActive, lowerActive⟩
  have apart : top.other ≠ top := top.other_ne
  intro side
  rcases Side.eq_or_eq_other top side with rfl | rfl
  · rw [plays.higher.state, higherActive]
    cases higherOwns <;> simp [apart.symm]
  · rw [plays.lower.state, lowerActive]
    cases higherOwns <;> simp [apart]

/-- From any two loop states the pair has settled after three rounds: exactly one
node is `Active` from then on, and it is always the same one. -/
theorem one_owner_after_three_rounds (pair : Pair) (node : Side → Node)
    (trace : List (Transition RoundState RoundInput Bytes)) (rounds : RoundState)
    (run : pair.rounds.Run (startRounds node) trace rounds) (healed : 3 ≤ rounds.round) :
    ∃ owner, ∀ laterTrace later, pair.rounds.Run rounds laterTrace later →
      SoleActive later owner := by
  rcases pair.exists_wins with ⟨top, higher⟩
  have start : pair.Plays top (startRounds node)
      ⟨contestant (node top), contestant (node top.other), 0⟩ :=
    ⟨shows_startRounds node top, shows_startRounds node top.other, rfl⟩
  obtain ⟨contest, steps, plays⟩ := run.simulates start
    fun next _ taken _ plays => plays.step higher taken
  obtain ⟨higherOwns, owns⟩ :=
    Contest.lasting_owner ⟨rfl, rfl, rfl, rfl, rfl⟩ steps (plays.round ▸ healed)
  refine ⟨if higherOwns then top else top.other, ?_⟩
  intro laterTrace later laterRun
  obtain ⟨last, laterSteps, laterPlays⟩ := laterRun.simulates plays
    fun next _ taken _ plays => plays.step higher taken
  exact laterPlays.soleActive (owns last laterSteps)

end Pair

/-- Both nodes of the demo pair `Active` on their own side of a partition. -/
def dualActive (side : Side) : Node :=
  let node := ((demoPair false).process side).startNode 0 0
  { node with loopState := { node.loopState with state := .active } }

/-- One round of the demo pair: each side sends at `now`, in the given state. -/
def demoRound (sequence : UInt64) (leftState rightState : HaState) (now : Int) :
    List RoundInput :=
  let event := fun input : Side × NodeEvent => RoundInput.event input.1 input.2
  [event (.left, .send (.ok ()) now now), event (.left, .refresh now),
    event (.right, .send (.ok ()) now now), event (.right, .refresh now),
    event (demoDelivery .right leftState sequence now), event (.right, .refresh now),
    event (demoDelivery .left rightState sequence now), event (.left, .refresh now),
    .nextRound]

/-- Both give way to the other in the first round; the higher-ranked one takes
the address in the second. -/
def healing : List (Transition RoundState RoundInput Bytes) :=
  (demoPair false).rounds.record (Pair.startRounds dualActive)
    (demoRound 1 .active .active 1000000000 ++
      demoRound 2 .standby .standby 2000000000 ++
      demoRound 3 .standby .active 3000000000)

theorem one_owner_after_three_rounds_demo :
    ∃ owner, ∀ laterTrace later,
      (demoPair false).rounds.Run
        (Machine.finalState (Pair.startRounds dualActive) healing) laterTrace later →
      Pair.SoleActive later owner :=
  Pair.one_owner_after_three_rounds (demoPair false) dualActive healing _
    (Machine.run_record _ (by decide +kernel)) (by decide +kernel)

end Gruezi.Ha
