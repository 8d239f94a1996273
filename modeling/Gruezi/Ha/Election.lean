import Gruezi.Ha.History
import Gruezi.Ha.OneWayLoss

/-!
# The election of a run

What the refreshes of a run decide depends on the accepted advertisements and
the clock readings of the refreshes, and on nothing else the loop does.  The
election is the fold over these events; the loop refines it.
-/

namespace Gruezi.Ha

open Rust Lib

inductive ElectionEvent where
  | refresh (now : Int)
  | accept (accepted : Acceptance)
  deriving DecidableEq

/-- The part of the loop state the election reads and writes. -/
structure Election where
  state : HaState
  activePeerConflict : Bool
  peerObservation : Option PeerObservation

namespace Election

variable (runtime : HaRuntimeConfig) (startupAt : Int)

def initial : Election where
  state := .init
  activePeerConflict := false
  peerObservation := none

/-- The decision of a refresh. -/
def decision (election : Election) (now : Int) : HaDecision :=
  desiredState runtime election.state election.peerObservation startupAt now
    election.activePeerConflict

def step (election : Election) : ElectionEvent → Election
  | .refresh now => {
      state := (election.decision runtime startupAt now).state
      activePeerConflict :=
        if (election.decision runtime startupAt now).reason = .peerBecameActiveConflict
        then true
        else hasLiveActivePeer runtime election.peerObservation now &&
          election.activePeerConflict
      peerObservation := election.peerObservation }
  | .accept accepted =>
      { election with peerObservation := accepted.observe election.peerObservation }

/-- The local states the refreshes among the events lead to. -/
def states (election : Election) : List ElectionEvent → List HaState
  | [] => []
  | .refresh now :: events =>
      (election.step runtime startupAt (.refresh now)).state ::
        states (election.step runtime startupAt (.refresh now)) events
  | .accept accepted :: events =>
      states (election.step runtime startupAt (.accept accepted)) events

theorem states_append (election : Election) (first second : List ElectionEvent) :
    states runtime startupAt election (first ++ second) =
      states runtime startupAt election first ++
        states runtime startupAt (first.foldl (step runtime startupAt) election)
          second := by
  induction first generalizing election with
  | nil => rfl
  | cons event first ih =>
      cases event with
      | refresh now => simp only [List.cons_append, states, ih, List.foldl_cons]
      | accept accepted => simp only [List.cons_append, states, ih, List.foldl_cons]

end Election

def HaLoopState.election (loopState : HaLoopState) : Election where
  state := loopState.state
  activePeerConflict := loopState.activePeerConflict
  peerObservation := loopState.peerObservation

/-- The local states after the refreshes of a run. -/
def refreshStates (trace : List (Transition RunState RunInput Effect)) : List HaState :=
  trace.filterMap fun transition =>
    (refreshTime transition.input).map fun _ => transition.after.node.loopState.state

namespace HaProcess

def electionEvent (process : HaProcess) (input : RunInput) : Option ElectionEvent :=
  match refreshTime input with
  | some now => some (.refresh now)
  | none => (process.acceptance input).map .accept

/-- The events of a run that the election depends on. -/
def electionEvents (process : HaProcess)
    (trace : List (Transition RunState RunInput Effect)) : List ElectionEvent :=
  trace.filterMap fun transition => process.electionEvent transition.input

variable {process : HaProcess} {start final : RunState}
variable {trace : List (Transition RunState RunInput Effect)}
variable {transition : Transition RunState RunInput Effect}

/-- Nothing follows the return of the loop. -/
theorem Steps.not_returned {state next : RunState} {input : RunInput}
    {effects : List Effect} (steps : process.Steps state input next effects)
    (result : Except Error Unit) : state.phase ≠ .returned result := by
  intro returned
  cases steps with
  | refresh phase | handled phase | failed phase | shutdown phase | beginCleanup phase
  | runFaultHook phase | finish phase | finishFaulted phase =>
      cases returned.symm.trans phase

/-- A step that is no refresh keeps the local state, unless it returns. -/
theorem Steps.state_eq {state next : RunState} {input : RunInput}
    {effects : List Effect} (steps : process.Steps state input next effects)
    (noRefresh : ∀ now, input ≠ .event (.refresh now)) :
    next.node.loopState.state = state.node.loopState.state ∨
      ∃ result, next.phase = .returned result := by
  cases steps with
  | refresh => exact absurd rfl (noRefresh _)
  | handled _ _ handles _ | failed _ _ handles _ =>
      left
      apply state_of_handle _ handles
      rintro now rfl
      exact noRefresh now rfl
  | shutdown | beginCleanup | runFaultHook => exact .inl rfl
  | finish | finishFaulted => exact .inr ⟨_, rfl⟩

/-- A refresh of the loop is one of the election. -/
theorem election_refreshed (runtime : HaRuntimeConfig) (loopState : HaLoopState)
    (now : Int) :
    (refreshed runtime loopState now).election =
      loopState.election.step runtime loopState.startupAt (.refresh now) := by
  simp only [HaLoopState.election, refreshed_state, refreshed_activePeerConflict,
    refreshed_peerObservation]
  rfl

theorem electionEvent_refresh (now : Int) :
    process.electionEvent (.event (.refresh now)) = some (.refresh now) := rfl

theorem electionEvent_of_accepts {input : RunInput} {packet : HaPacket}
    {observedAt : Int} (accepts : process.Accepts input packet observedAt) :
    process.electionEvent input = some (.accept { packet, observedAt }) := by
  have recorded := acceptance_of_accepts accepts
  rcases accepts with ⟨datagram, sender, rfl, _⟩
  simp only [electionEvent, refreshTime, recorded, Option.map_some]

theorem electionEvent_eq_none {input : RunInput}
    (noRefresh : ∀ now, input ≠ .event (.refresh now))
    (refused : ∀ packet observedAt, ¬process.Accepts input packet observedAt) :
    process.electionEvent input = none := by
  cases time : refreshTime input with
  | none => simp [electionEvent, time, acceptance_eq_none.mpr refused]
  | some now => exact absurd (refreshTime_eq_some.mp time) (noRefresh now)

/-- Step lemma: a transition takes the election along its event, if it has one,
unless the loop returns. -/
theorem election_of_takes (taken : process.runWithStatus.Takes transition) :
    transition.after.node.loopState.election =
        (process.electionEvent transition.input).toList.foldl
          (Election.step process.runtime transition.before.node.loopState.startupAt)
          transition.before.node.loopState.election ∨
      process.electionEvent transition.input = none ∧
        ∃ result, transition.after.phase = .returned result := by
  cases (steps_of_takes taken).evolves with
  | refreshed now input _ loopState =>
      left
      rw [input, electionEvent_refresh, loopState, election_refreshed]
      rfl
  | accepted packet observedAt accepts _ _ changed =>
      left
      rcases changed with ⟨counters, loopState⟩
      rw [electionEvent_of_accepts accepts, loopState]
      rfl
  | unchanged noRefresh refused _ observation latch _ =>
      have silent := electionEvent_eq_none noRefresh refused
      rcases (steps_of_takes taken).state_eq noRefresh with same | returned
      · left
        rw [silent]
        simp only [HaLoopState.election, same, observation, latch, Option.toList_none,
          List.foldl_nil]
      · exact .inr ⟨silent, returned⟩

/-- Nothing is recorded after the return of the loop. -/
theorem eq_nil_of_returned {result : Except Error Unit}
    (run : process.runWithStatus.Run start trace final)
    (returned : start.phase = .returned result) : trace = [] := by
  cases run with
  | nil => rfl
  | cons taken _ => exact absurd returned ((steps_of_takes taken).not_returned result)

/-- Step lemma: a refresh leads to the state the election leads to. -/
theorem states_of_takes (taken : process.runWithStatus.Takes transition) :
    ((refreshTime transition.input).map fun _ =>
        transition.after.node.loopState.state).toList =
      Election.states process.runtime transition.before.node.loopState.startupAt
        transition.before.node.loopState.election
        (process.electionEvent transition.input).toList := by
  cases (steps_of_takes taken).evolves with
  | refreshed now input _ loopState =>
      rw [input, electionEvent_refresh, loopState, refreshed_state]
      rfl
  | accepted packet observedAt accepts =>
      rw [electionEvent_of_accepts accepts]
      rcases accepts with ⟨_, _, arrival, _⟩
      rw [arrival]
      rfl
  | unchanged noRefresh refused =>
      rw [electionEvent_eq_none noRefresh refused]
      cases time : refreshTime transition.input with
      | none => rfl
      | some now => exact absurd (refreshTime_eq_some.mp time) (noRefresh now)

theorem refreshStates_cons : refreshStates (transition :: trace) =
    ((refreshTime transition.input).map fun _ =>
      transition.after.node.loopState.state).toList ++ refreshStates trace := by
  rw [refreshStates, List.filterMap_cons]
  cases refreshTime transition.input <;> rfl

theorem electionEvents_cons : process.electionEvents (transition :: trace) =
    (process.electionEvent transition.input).toList ++ process.electionEvents trace := by
  rw [electionEvents, List.filterMap_cons]
  cases process.electionEvent transition.input <;> rfl

/-- Run lemma: the refreshes of the loop go through the states of the
election. -/
theorem refreshStates_eq (run : process.runWithStatus.Run start trace final) :
    refreshStates trace = Election.states process.runtime
      start.node.loopState.startupAt start.node.loopState.election
      (process.electionEvents trace) := by
  induction run with
  | nil => rfl
  | @cons transition trace final taken rest ih =>
      rw [refreshStates_cons, electionEvents_cons, Election.states_append,
        states_of_takes taken]
      congr 1
      rcases election_of_takes taken with moves | ⟨silent, result, returned⟩
      · rw [ih, moves, (steps_of_takes taken).startupAt_eq]
      · rw [eq_nil_of_returned rest returned]
        rfl

end HaProcess

end Gruezi.Ha
