import Gruezi.Ha.OneOwner

/-!
# The overlap of two owners

A node of lower rank may own the address when the higher-ranked one takes it over, by a
timeout, at its startup deadline or by preemption, and then both own it.  On a link of
tolerable losses that is for less than a window: the receiver hears the owner in time,
yields to it, and waits for it from then on.
-/

namespace Gruezi.Ha

open Rust Lib HaProcess

namespace Link

variable (link : Link)

/-- The sender has owned the address at all of these steps that come after `since`. -/
def OwnsSince (since : Int) (taken : List (Transition LinkState LinkInput Empty)) : Prop :=
  ∀ next ∈ taken, since < next.after.time →
    next.before.sender.node.loopState.state = .active

instance (since : Int) (taken : List (Transition LinkState LinkInput Empty)) :
    Decidable (OwnsSince since taken) :=
  inferInstanceAs (Decidable (∀ _ ∈ _, _ → _))

/-- Whenever the sender has owned the address for a window, a refresh of the receiver
leaves it waiting. -/
def YieldsInTime (since : Int) (trace : List (Transition LinkState LinkInput Empty)) : Prop :=
  ∀ taken next rest now, trace = taken ++ next :: rest →
    next.input = .receiver (.event (.refresh now)) →
    OwnsSince since taken → since + link.receiver.runtime.window ≤ next.after.time →
      next.after.receiver.node.loopState.state = .standby

/-! ## The receiver -/

/-- The receiver does not own the address, or learns at its next refresh that another
node does. -/
def Yielding (receiver : RunState) : Prop :=
  receiver.node.loopState.state ≠ .active ∨
    receiver.phase = .refreshing ∧
      ∀ peer ∈ receiver.node.loopState.peerObservation, peer.state = .active

section Receiver

variable {link} {before after : RunState} {input : RunInput} {effects : List Effect}

/-- A node yields to a live owner of higher rank, and keeps waiting for it. -/
theorem refreshDecision_of_yielding {runtime : HaRuntimeConfig} {loopState : HaLoopState}
    {peer : PeerObservation} {now : Int}
    (observed : loopState.peerObservation = some peer) (live : peer.LiveAt runtime now)
    (loses : outranks runtime.priority runtime.nodeId peer.priority peer.nodeId = false)
    (yielding : loopState.state ≠ .active ∨ peer.state = .active) :
    (refreshDecision runtime loopState now).state = .standby := by
  rw [refreshDecision, observed]
  by_cases peerActive : peer.state = .active
  · rw [desiredState_activePeer live peerActive, desiredStateWithActivePeer, loses]
    simp only [Bool.false_and, Bool.and_false, Bool.false_eq_true, if_false]
    split <;> rfl
  · rw [desiredState_passivePeer live peerActive, if_neg (yielding.resolve_right peerActive),
      loses]
    simp only [Bool.false_eq_true, if_false]

/-- A refresh with a live observation of the sender leaves a yielding node waiting. -/
theorem Yielding.refresh {now : Int} (yielding : Yielding before)
    (ranked : outranks link.sender.runtime.priority link.sender.runtime.nodeId
      link.receiver.runtime.priority link.receiver.runtime.nodeId = true)
    (observes : ∀ peer ∈ before.node.loopState.peerObservation,
      Pair.ObservationOf link.sender.runtime peer)
    (live : ∃ peer, before.node.loopState.peerObservation = some peer ∧
      peer.LiveAt link.receiver.runtime now) :
    (refreshDecision link.receiver.runtime before.node.loopState now).state = .standby := by
  rcases live with ⟨peer, observed, live⟩
  apply refreshDecision_of_yielding observed live
  · rcases observes peer observed with ⟨nodeId, priority⟩
    rw [nodeId, priority]
    exact outranks_asymm ranked
  · rcases yielding with waits | ⟨_, active⟩
    · exact .inl waits
    · exact .inr (active peer observed)

/-- Step lemma: a yielding node goes on yielding, as long as it refreshes with a live
observation of the sender. -/
theorem Yielding.step (yielding : Yielding before)
    (ranked : outranks link.sender.runtime.priority link.sender.runtime.nodeId
      link.receiver.runtime.priority link.receiver.runtime.nodeId = true)
    (taken : link.receiver.stepRun before input = some (after, effects))
    (observes : ∀ peer ∈ before.node.loopState.peerObservation,
      Pair.ObservationOf link.sender.runtime peer)
    (live : ∀ now, input = .event (.refresh now) →
      ∃ peer, before.node.loopState.peerObservation = some peer ∧
        peer.LiveAt link.receiver.runtime now) : Yielding after := by
  cases (steps_of_stepRun taken).evolves with
  | refreshed now refreshes _ loopState =>
      left
      rw [loopState, refreshed_state, yielding.refresh ranked observes (live now refreshes)]
      exact HaState.noConfusion
  | accepted _ _ _ selecting _ changed =>
      rcases changed with ⟨counters, loopState⟩
      rcases yielding with waits | ⟨refreshing, _⟩
      · left
        rw [loopState]
        exact waits
      · cases selecting.symm.trans refreshing
  | unchanged _ _ notRefreshing _ _ state =>
      rcases yielding with waits | ⟨refreshing, _⟩
      · left
        rcases state with same | init
        · rw [same]
          exact waits
        · rw [init]
          exact HaState.noConfusion
      · exact absurd refreshing notRefreshing

end Receiver

/-! ## Along a run -/

section Run

variable {link} {senderAt receiverAt : Int × Int} {start since : Int}
variable {taken rest : List (Transition LinkState LinkInput Empty)}
variable {next : Transition LinkState LinkInput Empty} {state final : LinkState}

/-- The receiver has heard an advertisement sent after `since`. -/
def HeardSince (link : Link) (since : Int)
    (taken : List (Transition LinkState LinkInput Empty)) (state : LinkState) : Prop :=
  ∃ index time attempt, link.Heard taken index time ∧
    state.attempts[index]? = some attempt ∧ since < attempt.sentAt

/-- What is sent after `since` says that the sender owns the address, and the receiver
yields once it has heard it. -/
structure Yields (link : Link) (since : Int)
    (taken : List (Transition LinkState LinkInput Empty)) (state : LinkState) : Prop where
  claims : ∀ attempt ∈ state.attempts, since < attempt.sentAt →
    ∀ datagram ∈ attempt.datagram, link.sender.Encodes (· = .active) datagram
  observes : ∀ peer ∈ state.receiver.node.loopState.peerObservation,
    Pair.ObservationOf link.sender.runtime peer
  yields : link.HeardSince since taken state → Yielding state.receiver

theorem yields_start : link.Yields since [] (link.start senderAt receiverAt start) := by
  refine ⟨?_, ?_, ?_⟩
  · intro attempt member
    cases member
  · intro peer observed
    cases observed
  · rintro ⟨_, _, _, heard, _⟩
    cases heard

/-- What was heard before a step was sent before it. -/
theorem HeardSince.of_append (remembers : link.Remembers taken next.before)
    (nextTaken : link.machine.Takes next)
    (heardSince : link.HeardSince since (taken ++ [next]) next.after) :
    link.HeardSince since taken next.before ∨
      ∃ index time attempt, link.hearing next = some (index, time) ∧
        next.after.attempts[index]? = some attempt ∧ since < attempt.sentAt := by
  rcases heardSince with ⟨index, time, attempt, heard, found, late⟩
  rcases heard_append.mp heard with before | now
  · left
    rcases remembers index time before with ⟨_, ⟨same, foundBefore, _⟩, _⟩
    have stays := getElem?_of_isPrefix (attempts_prefix_of_takes nextTaken) foundBefore
    cases found.symm.trans stays
    exact ⟨index, time, attempt, before, foundBefore, late⟩
  · exact .inr ⟨index, time, attempt, heard_singleton now, found, late⟩

/-- Step lemma for what the sender claims. -/
theorem claims_concat (nextTaken : link.machine.Takes next)
    (owns : OwnsSince since (taken ++ [next]))
    (claims : ∀ attempt ∈ next.before.attempts, since < attempt.sentAt →
      ∀ datagram ∈ attempt.datagram, link.sender.Encodes (· = .active) datagram) :
    ∀ attempt ∈ next.after.attempts, since < attempt.sentAt →
      ∀ datagram ∈ attempt.datagram, link.sender.Encodes (· = .active) datagram := by
  intro attempt member late datagram carried
  rcases moves_of_takes nextTaken with ⟨input, _, stepped⟩ | ⟨_, stepped, _⟩
  · rcases stepSender_eq_some stepped with ⟨_, time, _, effects, stepTaken, longer⟩
    rw [longer] at member
    rcases List.mem_append.mp member with earlier | isNew
    · exact claims attempt earlier late datagram carried
    · rw [Option.mem_toList] at isNew
      have clock : next.after.time = attempt.sentAt := by
        rcases nextAdvertAt_of_steps (steps_of_stepRun stepTaken) with
          ⟨made, attempted, reading, _⟩ | ⟨idle, _⟩
        · cases attempted.symm.trans isNew
          rw [time, reading, Option.getD_some]
        · cases idle.symm.trans isNew
      have active := owns next (by simp) (by rw [clock]; exact late)
      rcases encodes_of_attempt stepTaken isNew carried with ⟨_, sequence, rfl, encoded⟩
      exact ⟨_, sequence, active, encoded⟩
  · rw [(stepReceiver_eq_some stepped).2.2.2.1] at member
    exact claims attempt member late datagram carried

/-- Whatever the receiver accepts is an advertisement of the sender. -/
theorem sender_of_accepts {trace : List (Transition LinkState LinkInput Empty)}
    {input : RunInput} {packet : HaPacket} {observedAt : Int} (genuine : link.Genuine trace)
    (member : next ∈ trace) (attempts : link.Attempts senderAt next.before)
    (receives : next.input = .receiver input ∨
      ∃ index source observedAt, next.input = .deliver index source observedAt ∧
        delivery next.before index source observedAt = some input)
    (accepts : link.receiver.Accepts input packet observedAt) :
    packet.nodeId = link.sender.runtime.nodeId ∧
      packet.priority = link.sender.runtime.priority := by
  rcases receives with receives | ⟨_, _, _, _, arrives⟩
  · exact absurd accepts (acceptance_eq_none.mp (genuine next member input receives) _ _)
  · rcases receive_of_delivery arrives with ⟨attempt, made, datagram, carried, received⟩
    rw [received] at accepts
    exact ((attempts.carries attempt made datagram carried).accepted accepts).2.2

/-- A step of the receiver leaves it with nothing but an observation of the sender. -/
theorem observes_of_step {before after : RunState} {input : RunInput}
    {effects : List Effect} (taken : link.receiver.stepRun before input = some (after, effects))
    (observes : ∀ peer ∈ before.node.loopState.peerObservation,
      Pair.ObservationOf link.sender.runtime peer)
    (genuine : ∀ packet observedAt, link.receiver.Accepts input packet observedAt →
      packet.nodeId = link.sender.runtime.nodeId ∧
        packet.priority = link.sender.runtime.priority) :
    ∀ peer ∈ after.node.loopState.peerObservation,
      Pair.ObservationOf link.sender.runtime peer := by
  cases (steps_of_stepRun taken).evolves with
  | refreshed now _ _ loopState =>
      rw [loopState, refreshed_peerObservation]
      exact observes
  | accepted packet observedAt accepts _ _ changed =>
      rcases changed with ⟨counters, loopState⟩
      rcases genuine packet observedAt accepts with ⟨nodeId, priority⟩
      intro peer observed
      rw [loopState] at observed
      cases observed
      exact ⟨nodeId, priority⟩
  | unchanged _ _ _ observation =>
      rw [observation]
      exact observes

/-- A receiver that hears the sender say that it owns the address yields. -/
theorem yielding_of_hearing {index : Nat} {time : Int} {attempt : Attempt}
    (nextTaken : link.machine.Takes next) (hears : link.hearing next = some (index, time))
    (found : next.after.attempts[index]? = some attempt)
    (claims : ∀ datagram ∈ attempt.datagram, link.sender.Encodes (· = .active) datagram) :
    Yielding next.after.receiver := by
  rcases moves_of_takes nextTaken with ⟨_, sends, _⟩ | ⟨input, stepped, receives |
    ⟨position, source, observedAt, delivers, arrives⟩⟩
  · simp only [hearing, sends] at hears
    cases hears
  · simp only [hearing, receives] at hears
    cases hears
  · rcases stepReceiver_eq_some stepped with ⟨_, _, _, sameAttempts, effects, stepTaken⟩
    rcases delivery_eq_some arrives with ⟨made, datagram, foundMade, carried, rfl⟩
    simp only [hearing, delivers, arrives, Option.bind_some, Option.map_eq_some_iff] at hears
    rcases hears with ⟨accepted, accepts, equal⟩
    cases equal
    rw [sameAttempts, foundMade] at found
    cases found
    cases (steps_of_stepRun stepTaken).evolves with
    | refreshed now refreshes => cases refreshes
    | accepted packet at_ accepts _ refreshing changed =>
        rcases changed with ⟨counters, loopState⟩
        have active := ((claims datagram carried).accepted accepts).2.1
        right
        refine ⟨refreshing, ?_⟩
        intro peer observed
        rw [loopState] at observed
        cases observed
        exact active
    | unchanged _ refused =>
        exact absurd (acceptance_eq_some.mp accepts) (refused _ _)

/-- Step lemma. -/
theorem Yields.concat
    (run : link.machine.Run (link.start senderAt receiverAt start)
      (taken ++ next :: rest) final)
    (tolerable : link.Tolerable (taken ++ next :: rest) final)
    (genuine : link.Genuine (taken ++ next :: rest))
    (ranked : outranks link.sender.runtime.priority link.sender.runtime.nodeId
      link.receiver.runtime.priority link.receiver.runtime.nodeId = true)
    (attempts : link.Attempts senderAt next.before)
    (owns : OwnsSince since (taken ++ [next]))
    (yields : link.Yields since taken next.before) :
    link.Yields since (taken ++ [next]) next.after := by
  rcases run.split_at with ⟨before, nextTaken, _⟩
  have claims := claims_concat nextTaken owns yields.claims
  have heardSince : link.HeardSince since (taken ++ [next]) next.after → _ :=
    HeardSince.of_append (inv_of_run before).2 nextTaken
  rcases moves_of_takes nextTaken with ⟨input, sends, stepped⟩ | ⟨input, stepped, receives⟩
  · have same := (stepSender_eq_some stepped).2.2.1
    refine ⟨claims, by rw [same]; exact yields.observes, ?_⟩
    intro heard
    rw [same]
    rcases heardSince heard with earlier | ⟨_, _, _, hears, _⟩
    · exact yields.yields earlier
    · simp only [hearing, sends] at hears
      cases hears
  · rcases stepReceiver_eq_some stepped with ⟨_, clock, _, _, effects, stepTaken⟩
    refine ⟨claims, observes_of_step stepTaken yields.observes ?_, ?_⟩
    · intro packet observedAt accepts
      exact sender_of_accepts genuine (by simp) attempts receives accepts
    · intro heard
      rcases heardSince heard with earlier | ⟨_, _, attempt, hears, found, late⟩
      · apply (yields.yields earlier).step ranked stepTaken yields.observes
        intro now refreshes
        rcases earlier with ⟨index, time, _, heardBefore, _⟩
        rcases live_of_heard run tolerable ⟨index, time, heardBefore⟩ with
          ⟨peer, observed, live⟩
        have reading : next.after.time = now - link.offset := by rw [clock, refreshes]; rfl
        rw [reading, Int.sub_add_cancel] at live
        exact ⟨peer, observed, live⟩
      · exact yielding_of_hearing nextTaken hears found
          (claims attempt (List.mem_of_getElem? found) late)

/-- Run lemma: a refresh of the receiver at which the sender has owned the address for a
window leaves it waiting. -/
theorem standby_of_owned
    (ranked : outranks link.sender.runtime.priority link.sender.runtime.nodeId
      link.receiver.runtime.priority link.receiver.runtime.nodeId = true)
    (holdDown : 0 < link.holdDown) (started : senderAt.2 ≤ since)
    (run : link.machine.Run (link.start senderAt receiverAt start)
      (taken ++ next :: rest) final)
    (tolerable : link.Tolerable (taken ++ next :: rest) final)
    (genuine : link.Genuine (taken ++ next :: rest)) {now : Int}
    (refreshes : next.input = .receiver (.event (.refresh now)))
    (owns : OwnsSince since taken)
    (late : since + link.receiver.runtime.window ≤ next.after.time) :
    next.after.receiver.node.loopState.state = .standby := by
  rcases run.split_at with ⟨before, nextTaken, after⟩
  have holds : link.Attempts senderAt next.before ∧
      (OwnsSince since taken → link.Yields since taken next.before) := by
    refine run.prefix_induction (motive := fun taken state =>
      link.Attempts senderAt state ∧ (OwnsSince since taken → link.Yields since taken state))
      ⟨attempts_start, fun _ => yields_start⟩ ?_ rfl before (.cons nextTaken after)
    intro taken next rest split _ nextTaken _ before
    rcases before with ⟨attempts, yields⟩
    refine ⟨attempts.step nextTaken, ?_⟩
    intro owns
    have earlier : OwnsSince since taken :=
      fun next member => owns next (List.mem_append_left _ member)
    exact (yields earlier).concat (split ▸ run) (split ▸ tolerable) (split ▸ genuine) ranked
      attempts owns
  rcases holds with ⟨attempts, yields⟩
  have anyHeard : ∃ index time, link.Heard taken index time := by
    by_contra unheard
    have early := early_of_unheard run tolerable attempts holdDown
      fun index time heard => unheard ⟨index, time, heard⟩
    omega
  have window := link.window_eq
  rcases exists_recent_of_tolerable run tolerable anyHeard with
    ⟨index, time, attempt, heard, found, recent⟩
  have heardSince : link.HeardSince since taken next.before :=
    ⟨index, time, attempt, heard, found, by omega⟩
  rcases live_of_heard run tolerable anyHeard with ⟨peer, observed, live⟩
  rcases moves_of_takes nextTaken with ⟨_, sends, _⟩ | ⟨input, stepped, receives |
    ⟨_, _, _, delivers, _⟩⟩
  · cases refreshes.symm.trans sends
  · cases refreshes.symm.trans receives
    rcases stepReceiver_eq_some stepped with ⟨_, clock, _, _, effects, stepTaken⟩
    have reading : next.after.time = now - link.offset := clock
    rw [reading, Int.sub_add_cancel] at live
    have refreshTaken : link.receiver.runWithStatus.Takes ⟨next.before.receiver,
        .event (.refresh now), next.after.receiver, effects⟩ := stepTaken
    have loopState := (refreshed_of_takes refreshTaken rfl).2
    have yielding := (yields owns).yields heardSince
    rw [loopState, refreshed_state]
    exact yielding.refresh ranked (yields owns).observes ⟨peer, observed, live⟩
  · cases refreshes.symm.trans delivers

end Run

/-- On a link of tolerable losses a receiver of lower rank never owns the address at a
refresh at which the sender has owned it for a window: the overlap of the two is
shorter. -/
theorem yieldsInTime_of_run (link : Link)
    (ranked : outranks link.sender.runtime.priority link.sender.runtime.nodeId
      link.receiver.runtime.priority link.receiver.runtime.nodeId = true)
    (holdDown : 0 < link.holdDown) (senderAt receiverAt : Int × Int) (start since : Int)
    (started : senderAt.2 ≤ since)
    (trace : List (Transition LinkState LinkInput Empty)) (final : LinkState)
    (run : link.machine.Run (link.start senderAt receiverAt start) trace final)
    (tolerable : link.Tolerable trace final) (genuine : link.Genuine trace) :
    link.YieldsInTime since trace := by
  intro taken next rest now split refreshes owns late
  subst split
  exact standby_of_owned ranked holdDown started run tolerable genuine refreshes owns late

end Link

/-! ## An overlap -/

/-- The receiver has owned the address for 10 s when the sender, which has not heard it,
takes over at its startup deadline.  Of its next attempts the first arrives. -/
def overlapTrace : List (Transition LinkState LinkInput Empty) :=
  lossyLink.machine.record (lossyLink.start (0, 0) (-9999999993, -9999999993) (-10000000000)) [
    .receiver (.event (.refresh (-9999999993))),
    .receiver (.event (.send (.ok ()) (-5999999993) (-5999999993))),
    .receiver (.event (.refresh (-5999999993))),
    .sender (.event (.refresh 0)),
    .sender (.event (.send (.ok ()) 1000000000 1000000000)),
    .sender (.event (.refresh 1000000000)),
    .sender (.event (.send (.ok ()) 2000000000 2000000000)),
    .sender (.event (.refresh 2000000000)),
    .deliver 1 demoAddr 2100000007,
    .receiver (.event (.refresh 2100000007)),
    .sender (.event (.send (.ok ()) 3000000000 3000000000)),
    .sender (.event (.refresh 3000000000)),
    .sender (.event (.send (.ok ()) 4000000000 4000000000)),
    .sender (.event (.refresh 4000000000)),
    .sender (.event (.send (.ok ()) 5000000000 5000000000)),
    .sender (.event (.refresh 5000000000)),
    .deliver 4 demoAddr 5400000007,
    .receiver (.event (.refresh 5400000007)),
    .sender (.event (.send (.ok ()) 6000000000 6000000000)),
    .sender (.event (.refresh 6000000000)),
    .sender (.event (.send (.ok ()) 7000000000 7000000000)),
    .sender (.event (.refresh 7000000000)),
    .receiver (.event (.send (.ok ()) 7600000007 7600000007)),
    .receiver (.event (.refresh 7600000007))]

def overlapFinal : LinkState :=
  Machine.finalState
    (lossyLink.start (0, 0) (-9999999993, -9999999993) (-10000000000)) overlapTrace

theorem overlap_tolerable : lossyLink.Tolerable overlapTrace overlapFinal :=
  Link.tolerable_of_hearing (by decide +kernel) (by decide +kernel)

theorem overlap_genuine : lossyLink.Genuine overlapTrace :=
  Link.genuine_of_refused (by decide +kernel)

/-- Both own the address in between. -/
example : ∃ next ∈ overlapTrace, next.after.sender.node.loopState.state = .active ∧
    next.after.receiver.node.loopState.state = .active := by
  decide +kernel

theorem yieldsInTime_of_run_demo :
    lossyLink.YieldsInTime 4000000000 overlapTrace ∧
      Link.OwnsSince 4000000000 overlapTrace ∧
      4000000000 + lossyLink.receiver.runtime.window ≤ overlapFinal.time :=
  ⟨lossyLink.yieldsInTime_of_run (by decide) (by decide +kernel) (0, 0)
      (-9999999993, -9999999993) (-10000000000) 4000000000 (by decide) overlapTrace
      overlapFinal (Machine.run_record _ (by decide +kernel)) overlap_tolerable
      overlap_genuine,
    by decide +kernel, by decide +kernel⟩

end Gruezi.Ha
