import Gruezi.Ha.Run

/-!
# The history of accepted advertisements

The advertisements a run has accepted, read off its inputs alone, with the
clock readings of their arrival.  The single observation a node keeps is a fold
over this history: its last entry, and whether the entry before it came from the
same peer in another state.
-/

namespace Gruezi.Ha

open Rust Lib

/-- An accepted advertisement and the time of its arrival. -/
structure Acceptance where
  packet : HaPacket
  observedAt : Int
  deriving DecidableEq

/-- The advertisement still counts at `now`. -/
def Acceptance.LiveAt (accepted : Acceptance) (runtime : HaRuntimeConfig)
    (now : Int) : Prop :=
  now < accepted.observedAt + runtime.window

instance (accepted : Acceptance) (runtime : HaRuntimeConfig) (now : Int) :
    Decidable (accepted.LiveAt runtime now) :=
  inferInstanceAs (Decidable (_ < _))

/-- The observation after one more acceptance. -/
def Acceptance.observe (peerObservation : Option PeerObservation)
    (accepted : Acceptance) : Option PeerObservation :=
  some (accepted.packet.observed peerObservation accepted.observedAt)

/-- The observation a history of acceptances leaves behind. -/
def observation (accepted : List Acceptance) : Option PeerObservation :=
  accepted.foldl Acceptance.observe none

/-- The last advertisement of the history is `Active` and directly follows one
of the same node that is not. -/
def EndsInPromotion (accepted : List Acceptance) : Prop :=
  ∃ earlier previous last, accepted = earlier ++ [previous, last] ∧
    previous.packet.nodeId = last.packet.nodeId ∧
    previous.packet.state ≠ .active ∧ last.packet.state = .active

@[simp] theorem observation_nil : observation [] = none := rfl

@[simp] theorem observation_append (earlier : List Acceptance) (last : Acceptance) :
    observation (earlier ++ [last]) =
      some (last.packet.observed (observation earlier) last.observedAt) := by
  simp only [observation, List.foldl_append, List.foldl_cons, List.foldl_nil,
    Acceptance.observe]

/-- The flag of an observation says how its history ends. -/
theorem becameActive_iff {earlier : List Acceptance} {last : Acceptance} :
    (last.packet.observed (observation earlier) last.observedAt).becameActive = true ↔
      EndsInPromotion (earlier ++ [last]) := by
  have lastTwo : EndsInPromotion (earlier ++ [last]) ↔
      ∃ oldest previous, earlier = oldest ++ [previous] ∧
        previous.packet.nodeId = last.packet.nodeId ∧
        previous.packet.state ≠ .active ∧ last.packet.state = .active := by
    constructor
    · rintro ⟨oldest, previous, final, split, sameNode, passive, active⟩
      rw [List.append_cons oldest previous [final]] at split
      rcases List.append_inj' split rfl with ⟨rfl, equal⟩
      cases equal
      exact ⟨oldest, previous, rfl, sameNode, passive, active⟩
    · rintro ⟨oldest, previous, rfl, sameNode, passive, active⟩
      exact ⟨oldest, previous, last, by simp, sameNode, passive, active⟩
  rw [lastTwo]
  rcases List.eq_nil_or_concat' earlier with rfl | ⟨oldest, previous, rfl⟩
  · simp [HaPacket.observed]
  · rw [observation_append]
    constructor
    · intro flag
      simp only [HaPacket.observed, Option.any_some, Bool.and_eq_true, beq_iff_eq,
        bne_iff_ne] at flag
      exact ⟨oldest, previous, rfl, flag.2.1, flag.2.2, flag.1⟩
    · rintro ⟨_, other, equal, sameNode, passive, active⟩
      rcases List.append_inj' equal rfl with ⟨_, single⟩
      cases single
      simp only [HaPacket.observed, Option.any_some, Bool.and_eq_true, beq_iff_eq,
        bne_iff_ne]
      exact ⟨active, sameNode, passive⟩

instance (packet : HaPacket) (hasher : DefaultHasher) (runtime : HaRuntimeConfig) :
    Decidable (packet.AcceptedBy hasher runtime) :=
  decidable_of_iff
    ((packet.protocolVersion = runtime.protocolVersion ∧
      packet.groupId = runtime.groupId) ∧
      packet.nodeId ≠ runtime.nodeId ∧ verifyAuthTag hasher runtime packet = true)
    ⟨fun parts => ⟨parts.1.1, parts.1.2, parts.2.1, parts.2.2⟩,
      fun accepted => ⟨⟨accepted.protocolVersion, accepted.groupId⟩,
        accepted.nodeId, accepted.tagVerifies⟩⟩

namespace HaProcess

variable (process : HaProcess)

/-- What the input is accepted as, if it is. -/
def acceptance : RunInput → Option Acceptance
  | .event (.receive (.ok (datagram, _)) observedAt) =>
      match HaPacket.decode (datagram.take 1024) with
      | .ok packet =>
          if packet.AcceptedBy process.hasher process.runtime then
            some { packet, observedAt }
          else none
      | .error _ => none
  | _ => none

/-- The acceptances among the recorded transitions, in order. -/
def history (taken : List (Transition RunState RunInput Effect)) : List Acceptance :=
  taken.filterMap fun transition => process.acceptance transition.input

variable {process} {input : RunInput} {accepted : Acceptance}

theorem acceptance_eq_some :
    process.acceptance input = some accepted ↔
      process.Accepts input accepted.packet accepted.observedAt := by
  constructor
  · intro found
    unfold acceptance at found
    split at found
    · next datagram sender observedAt =>
        split at found
        · next packet decoded =>
            split at found
            · next passes =>
                cases found
                exact ⟨datagram, sender, rfl, decoded, passes⟩
            · cases found
        · cases found
    · cases found
  · rintro ⟨datagram, sender, rfl, decoded, passes⟩
    simp only [acceptance, decoded, if_pos passes]

theorem acceptance_of_accepts {packet : HaPacket} {observedAt : Int}
    (accepts : process.Accepts input packet observedAt) :
    process.acceptance input = some { packet, observedAt } :=
  acceptance_eq_some.mpr accepts

theorem acceptance_eq_none :
    process.acceptance input = none ↔
      ∀ packet observedAt, ¬process.Accepts input packet observedAt := by
  constructor
  · intro refused packet observedAt accepts
    cases refused.symm.trans (acceptance_of_accepts accepts)
  · intro refused
    cases found : process.acceptance input with
    | none => rfl
    | some accepted => exact absurd (acceptance_eq_some.mp found) (refused _ _)

@[simp] theorem acceptance_refresh (now : Int) :
    process.acceptance (.event (.refresh now)) = none := rfl

@[simp] theorem history_nil : process.history [] = [] := rfl

theorem history_append (first second : List (Transition RunState RunInput Effect)) :
    process.history (first ++ second) =
      process.history first ++ process.history second :=
  List.filterMap_append

theorem history_singleton (transition : Transition RunState RunInput Effect) :
    process.history [transition] = (process.acceptance transition.input).toList := by
  simp only [history, List.filterMap_cons, List.filterMap_nil]
  cases process.acceptance transition.input <;> rfl

/-! ## Step lemmas -/

variable {transition : Transition RunState RunInput Effect}

/-- A step observes what it accepts and nothing else. -/
theorem observe_of_takes (taken : process.runWithStatus.Takes transition) :
    transition.after.node.loopState.peerObservation =
      (process.acceptance transition.input).toList.foldl Acceptance.observe
        transition.before.node.loopState.peerObservation := by
  cases (steps_of_takes taken).evolves with
  | refreshed now input _ loopState =>
      rw [input, acceptance_refresh, loopState, refreshed_peerObservation]
      rfl
  | accepted packet observedAt accepts _ _ changed =>
      rcases changed with ⟨counters, loopState⟩
      rw [acceptance_of_accepts accepts, loopState]
      rfl
  | unchanged _ refused _ observation =>
      rw [acceptance_eq_none.mpr refused, observation]
      rfl

/-- An acceptance carries the clock reading of its arrival. -/
theorem observedAt_of_takes (taken : process.runWithStatus.Takes transition)
    (accepts : process.acceptance transition.input = some accepted) :
    transition.before.node.clock ≤ accepted.observedAt ∧
      transition.after.node.clock = accepted.observedAt := by
  rcases acceptance_eq_some.mp accepts with ⟨datagram, sender, arrival, _⟩
  rcases transition with ⟨before, input, after, output⟩
  cases arrival
  cases steps_of_takes taken with
  | handled _ _ handles _ =>
      rcases handle_receive handles with ⟨ordered, clock, _⟩
      exact ⟨ordered, clock⟩
  | failed _ _ handles _ =>
      rcases handle_receive handles with ⟨ordered, clock, _⟩
      exact ⟨ordered, clock⟩

/-- So does a refresh carry the clock reading it decides by. -/
theorem clock_of_refresh {now : Int} (taken : process.runWithStatus.Takes transition)
    (refreshes : transition.input = .event (.refresh now)) :
    transition.before.node.clock ≤ now ∧ transition.after.node.clock = now := by
  rcases transition with ⟨before, input, after, output⟩
  cases refreshes
  cases steps_of_takes taken with
  | refresh _ handles =>
      rcases handle_refresh handles with ⟨ordered, _, clock, _⟩
      exact ⟨ordered, clock⟩
  | handled _ ready | failed _ ready => cases ready

/-- The effects of a refresh. -/
theorem output_of_refresh {now : Int} (taken : process.runWithStatus.Takes transition)
    (refreshes : transition.input = .event (.refresh now)) :
    transition.output = (refreshLocalState process.runtime process.statusTx
      transition.before.node.loopState now).2 := by
  rcases transition with ⟨before, input, after, output⟩
  cases refreshes
  cases steps_of_takes taken with
  | refresh _ handles =>
      rcases handle_refresh handles with ⟨_, _, _, _, effects⟩
      exact effects
  | handled _ ready | failed _ ready => cases ready

/-- Accepted advertisements come from other nodes of the group. -/
theorem nodeId_ne_of_mem_history
    {taken : List (Transition RunState RunInput Effect)}
    (member : accepted ∈ process.history taken) :
    accepted.packet.nodeId ≠ process.runtime.nodeId := by
  rcases List.mem_filterMap.mp member with ⟨transition, _, accepts⟩
  obtain ⟨_, _, _, _, passes⟩ := acceptance_eq_some.mp accepts
  exact passes.nodeId

/-! ## Along a run -/

section Run

variable {startupAt scheduledAt : Int} {final : RunState}
variable {taken : List (Transition RunState RunInput Effect)}

/-- What a node remembers is the fold over what it has accepted. -/
theorem peerObservation_eq
    (run : process.runWithStatus.Run (process.startRun startupAt scheduledAt) taken
      final) :
    final.node.loopState.peerObservation = observation (process.history taken) := by
  apply run.history_induction (motive := fun taken state =>
    state.node.loopState.peerObservation = observation (process.history taken)) rfl
  intro taken next _ nextTaken _ holds
  rw [observe_of_takes nextTaken, holds, history_append, history_singleton]
  exact (List.foldl_append ..).symm

/-- Acceptances are recorded in the order of their times, none after the latest
reading of the clock. -/
theorem history_ordered
    (run : process.runWithStatus.Run (process.startRun startupAt scheduledAt) taken
      final) :
    (process.history taken).Pairwise (·.observedAt ≤ ·.observedAt) ∧
      ∀ accepted ∈ process.history taken, accepted.observedAt ≤ final.node.clock := by
  apply run.history_induction (motive := fun taken state =>
    (process.history taken).Pairwise (·.observedAt ≤ ·.observedAt) ∧
      ∀ accepted ∈ process.history taken, accepted.observedAt ≤ state.node.clock)
  · simp
  · rintro taken next - nextTaken - ⟨ordered, bounded⟩
    have advances := (steps_of_takes nextTaken).clock_le
    rw [history_append, history_singleton]
    cases accepts : process.acceptance next.input with
    | none =>
        simp only [Option.toList_none, List.append_nil]
        exact ⟨ordered, fun accepted member =>
          (bounded accepted member).trans advances⟩
    | some arrived =>
        rcases observedAt_of_takes nextTaken accepts with ⟨late, clock⟩
        simp only [Option.toList_some, List.pairwise_append, List.mem_singleton,
          List.mem_append]
        refine ⟨⟨ordered, List.pairwise_singleton _ _, ?_⟩, ?_⟩
        · rintro earlier member _ rfl
          exact (bounded earlier member).trans late
        · rintro accepted (member | rfl)
          · exact (bounded accepted member).trans advances
          · exact clock.ge

end Run

end HaProcess

end Gruezi.Ha
