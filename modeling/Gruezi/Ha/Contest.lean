import Gruezi.Ha.Decision
import Mathlib.Logic.Relation

/-!
# The contest for the address

What is left of two nodes that hear each other once per round when clocks,
packets and identifiers are forgotten: each side's state, what it last heard, its
conflict latch, and how far it is in the current round.  From any two starting
states the contest has a lasting owner after three rounds.
-/

namespace Gruezi.Ha

/-- One side.  Until it has heard the other side in this contest, its memory of
the past is arbitrary. -/
structure Contestant where
  state : HaState
  heard : Bool
  seen : HaState
  becameActive : Bool
  conflict : Bool
  owesRefresh : Bool
  /-- The state advertised in this round, if the side has advertised. -/
  sent : Option HaState
  received : Bool

namespace Contestant

/-- The outcome of a refresh within the liveness window: the new state and
conflict latch.  `wins` says whether this side outranks the other. -/
def decide (wins preempt : Bool) (side : Contestant) : HaState × Bool :=
  if side.seen = .active then
    if wins && (side.becameActive || side.conflict) then (.standby, true)
    else if preempt && wins then (.active, side.conflict)
    else (.standby, side.conflict)
  else if side.state = .active ∨ wins then (.active, false)
  else (.standby, false)

/-- A refresh has taken place since the last acceptance. -/
def Settled (wins preempt : Bool) (side : Contestant) : Prop :=
  side.decide wins preempt = (side.state, side.conflict)

/-- What one side can do: refresh, advertise once a round, and accept what the
other side has advertised in this round.  `inbox` is that advertisement. -/
inductive Act (wins preempt : Bool) (inbox : Option HaState) (before : Contestant) :
    Contestant → Prop where
  | refresh (state : HaState) (conflict : Bool) :
      (before.heard = true → before.decide wins preempt = (state, conflict)) →
      Act wins preempt inbox before { before with state, conflict, owesRefresh := false }
  | send :
      before.owesRefresh = false →
      before.sent = none →
      Act wins preempt inbox before
        { before with sent := some before.state, owesRefresh := true }
  | receive (advertised : HaState) (becameActive : Bool) :
      before.owesRefresh = false →
      before.received = false →
      inbox = some advertised →
      (before.heard = true → (becameActive = true ↔
        advertised = .active ∧ before.seen ≠ .active)) →
      Act wins preempt inbox before
        { before with
          heard := true, seen := advertised, becameActive
          received := true, owesRefresh := true }

/-- The side has done its part of the round. -/
structure Finished (side : Contestant) : Prop where
  sent : side.sent ≠ none
  received : side.received = true
  refreshed : side.owesRefresh = false

/-- The side at the start of the next round. -/
def nextRound (side : Contestant) : Contestant :=
  { side with sent := none, received := false }

variable {wins preempt : Bool} {inbox : Option HaState} {before after : Contestant}

/-- A second refresh changes nothing. -/
theorem settled_refresh {state : HaState} {conflict : Bool} {owesRefresh : Bool}
    (decided : before.decide wins preempt = (state, conflict)) :
    Settled wins preempt { before with state, conflict, owesRefresh } := by
  unfold decide at decided
  unfold Settled decide
  by_cases seenActive : before.seen = .active
  · simp only [if_pos seenActive] at decided ⊢
    cases wins <;> cases preempt <;> cases became : before.becameActive <;>
      cases latch : before.conflict <;> simp_all
  · simp only [if_neg seenActive] at decided ⊢
    cases wins <;> by_cases active : before.state = .active <;> simp_all

end Contestant

/-- The two sides, by rank, and the number of finished rounds. -/
structure Contest where
  higher : Contestant
  lower : Contestant
  round : Nat

namespace Contest

/-- One step of the contest.  `higherPreempts` and `lowerPreempts` are the
preemption flags of the two sides. -/
inductive Step (higherPreempts lowerPreempts : Bool) (contest : Contest) :
    Contest → Prop where
  | higher {next : Contestant} :
      Contestant.Act true higherPreempts contest.lower.sent contest.higher next →
      Step higherPreempts lowerPreempts contest { contest with higher := next }
  | lower {next : Contestant} :
      Contestant.Act false lowerPreempts contest.higher.sent contest.lower next →
      Step higherPreempts lowerPreempts contest { contest with lower := next }
  | nextRound :
      contest.higher.Finished →
      contest.lower.Finished →
      Step higherPreempts lowerPreempts contest
        { higher := contest.higher.nextRound
          lower := contest.lower.nextRound
          round := contest.round + 1 }

/-! ## Where the rounds lead -/

/-- The higher-ranked side owns the address for good. -/
structure HigherOwns (preempt : Bool) (contest : Contest) : Prop where
  lowerState : contest.lower.state ≠ .active
  lowerSent : ∀ state ∈ contest.lower.sent, state ≠ .active
  higherState : contest.higher.state = .active
  insists : contest.higher.seen = .active →
    preempt = true ∧ contest.higher.becameActive = false ∧
      contest.higher.conflict = false

/-- The lower-ranked side owns the address for good. -/
structure LowerOwns (preempt : Bool) (contest : Contest) : Prop where
  lowerState : contest.lower.state = .active
  lowerSeen : contest.lower.seen ≠ .active
  lowerSent : ∀ state ∈ contest.lower.sent, state = .active
  higherState : contest.higher.state ≠ .active
  higherSeen : contest.higher.seen = .active
  higherSent : ∀ state ∈ contest.higher.sent, state ≠ .active
  yields : preempt = false ∨ contest.higher.conflict = true

/-- The lower-ranked side has given up; the other will hear so in this round. -/
structure LowerGaveUp (contest : Contest) : Prop where
  lowerState : contest.lower.state ≠ .active
  lowerSent : ∀ state ∈ contest.lower.sent, state ≠ .active
  higherSeen : contest.higher.received = true → contest.higher.seen ≠ .active

/-- The higher-ranked side insists; the other will hear so in this round. -/
structure HigherInsists (preempt : Bool) (contest : Contest) : Prop where
  preempts : preempt = true
  higherState : contest.higher.state = .active
  higherSent : ∀ state ∈ contest.higher.sent, state = .active
  higherConflict : contest.higher.conflict = false
  higherBecame : contest.higher.seen = .active → contest.higher.becameActive = false
  higherSeen : contest.higher.received = false → contest.higher.seen = .active
  lowerSeen : contest.lower.received = true → contest.lower.seen = .active

/-- What every contest keeps to.  From the second round on a lower-ranked side
that is still `Active` has been so since it first heard the other, so everything
it has advertised since says so. -/
structure Basic (higherPreempts lowerPreempts : Bool) (contest : Contest) : Prop where
  higherHeard : 1 ≤ contest.round ∨ contest.higher.received = true →
    contest.higher.heard = true
  lowerHeard : 1 ≤ contest.round ∨ contest.lower.received = true →
    contest.lower.heard = true
  higherSettled : contest.higher.heard = true → contest.higher.owesRefresh = false →
    contest.higher.Settled true higherPreempts
  lowerSettled : contest.lower.heard = true → contest.lower.owesRefresh = false →
    contest.lower.Settled false lowerPreempts
  lowerSent : 1 ≤ contest.round → contest.lower.state = .active →
    ∀ state ∈ contest.lower.sent, state = .active
  higherSeen : 2 ≤ contest.round ∨ 1 ≤ contest.round ∧ contest.higher.received = true →
    contest.lower.state = .active → contest.higher.seen = .active

/-- Both sides have heard each other in this contest. -/
structure Heard (contest : Contest) : Prop where
  higher : contest.higher.heard = true
  lower : contest.lower.heard = true

variable {higherPreempts lowerPreempts preempt : Bool} {contest next : Contest}

/-! ## Refreshes that decide -/

/-- The lower-ranked side stays `Active` exactly next to a side that is not, and
is never elected. -/
theorem active_of_decide_lower {side : Contestant} {state : HaState} {conflict : Bool}
    (decided : side.decide false preempt = (state, conflict)) :
    state = .active ↔ side.seen ≠ .active ∧ side.state = .active := by
  have outcome : state = (side.decide false preempt).1 := by rw [decided]
  rw [outcome, Contestant.decide]
  by_cases seenActive : side.seen = .active
  · simp [seenActive]
  · by_cases active : side.state = .active <;> simp [seenActive, active]

/-- The higher-ranked side takes an address nobody owns. -/
theorem decide_higher_of_passive {side : Contestant} (passive : side.seen ≠ .active) :
    side.decide true preempt = (.active, false) := by
  simp [Contestant.decide, passive]

/-- Next to an owner it stays `Active` only if it may preempt and nothing says
that the other side was promoted; anything that says so is remembered. -/
theorem decide_higher_of_active {side : Contestant} (seenActive : side.seen = .active) :
    side.decide true preempt =
      (if preempt && !(side.becameActive || side.conflict) then .active else .standby,
        side.becameActive || side.conflict) := by
  unfold Contestant.decide
  cases preempt <;> cases side.becameActive <;> cases side.conflict <;> simp [seenActive]

/-! ## Steps -/

theorem Heard.step (heard : contest.Heard)
    (step : Step higherPreempts lowerPreempts contest next) : next.Heard := by
  cases step with
  | higher act =>
      cases act with
      | refresh | send => exact { heard with }
      | receive => exact { heard with higher := rfl }
  | lower act =>
      cases act with
      | refresh | send => exact { heard with }
      | receive => exact { heard with lower := rfl }
  | nextRound => exact { heard with }

theorem HigherOwns.step (heard : contest.Heard)
    (step : Step higherPreempts lowerPreempts contest next)
    (owns : contest.HigherOwns higherPreempts) : next.HigherOwns higherPreempts := by
  cases step with
  | higher act =>
      cases act with
      | refresh state conflict decided =>
          have outcome := decided heard.higher
          by_cases seenActive : contest.higher.seen = .active
          · rcases owns.insists seenActive with ⟨preempts, notBecame, noConflict⟩
            rw [decide_higher_of_active seenActive, preempts, notBecame, noConflict]
              at outcome
            cases outcome
            exact { owns with
              higherState := rfl
              insists := fun _ => ⟨preempts, notBecame, rfl⟩ }
          · rw [decide_higher_of_passive seenActive] at outcome
            cases outcome
            exact { owns with
              higherState := rfl
              insists := fun active => absurd active seenActive }
      | send => exact { owns with }
      | receive advertised becameActive _ _ inbox _ =>
          have passive := owns.lowerSent advertised inbox
          exact { owns with insists := fun active => absurd active passive }
  | lower act =>
      cases act with
      | refresh state conflict decided =>
          have stillPassive : state ≠ .active := by
            intro active
            exact owns.lowerState
              ((active_of_decide_lower (decided heard.lower)).mp active).2
          exact { owns with lowerState := stillPassive }
      | send =>
          exact { owns with lowerSent := by rintro _ ⟨⟩; exact owns.lowerState }
      | receive => exact { owns with }
  | nextRound => exact { owns with lowerSent := fun _ sent => (nomatch sent) }

theorem LowerOwns.step (heard : contest.Heard)
    (step : Step higherPreempts lowerPreempts contest next)
    (owns : contest.LowerOwns higherPreempts) : next.LowerOwns higherPreempts := by
  cases step with
  | higher act =>
      cases act with
      | refresh state conflict decided =>
          have outcome := decided heard.higher
          rw [decide_higher_of_active owns.higherSeen, Prod.mk.injEq] at outcome
          rcases outcome with ⟨stateEq, conflictEq⟩
          have yields : higherPreempts = false ∨ conflict = true := by
            rcases owns.yields with noPreempt | latched
            · exact .inl noPreempt
            · exact .inr (by rw [← conflictEq, latched, Bool.or_true])
          have passive : state ≠ .active := by
            rw [← stateEq]
            rcases owns.yields with noPreempt | latched
            · simp [noPreempt]
            · simp [latched]
          exact { owns with higherState := passive, yields }
      | send =>
          exact { owns with higherSent := by rintro _ ⟨⟩; exact owns.higherState }
      | receive advertised becameActive _ _ inbox _ =>
          exact { owns with higherSeen := owns.lowerSent advertised inbox }
  | lower act =>
      cases act with
      | refresh state conflict decided =>
          have stays : state = .active :=
            (active_of_decide_lower (decided heard.lower)).mpr
              ⟨owns.lowerSeen, owns.lowerState⟩
          exact { owns with lowerState := stays }
      | send =>
          exact { owns with lowerSent := by rintro _ ⟨⟩; exact owns.lowerState }
      | receive advertised becameActive _ _ inbox _ =>
          exact { owns with lowerSeen := owns.higherSent advertised inbox }
  | nextRound =>
      exact { owns with
        lowerSent := fun _ sent => (nomatch sent)
        higherSent := fun _ sent => (nomatch sent) }

theorem LowerGaveUp.step (heard : contest.Heard)
    (step : Step higherPreempts lowerPreempts contest next)
    (sameRound : next.round = contest.round) (gaveUp : contest.LowerGaveUp) :
    next.LowerGaveUp := by
  cases step with
  | higher act =>
      cases act with
      | refresh | send => exact { gaveUp with }
      | receive advertised becameActive _ _ inbox _ =>
          exact { gaveUp with higherSeen := fun _ => gaveUp.lowerSent advertised inbox }
  | lower act =>
      cases act with
      | refresh state conflict decided =>
          have stillPassive : state ≠ .active := by
            intro active
            exact gaveUp.lowerState
              ((active_of_decide_lower (decided heard.lower)).mp active).2
          exact { gaveUp with lowerState := stillPassive }
      | send =>
          exact { gaveUp with lowerSent := by rintro _ ⟨⟩; exact gaveUp.lowerState }
      | receive => exact { gaveUp with }
  | nextRound => exact absurd sameRound (Nat.succ_ne_self _)

theorem HigherInsists.step (heard : contest.Heard)
    (step : Step higherPreempts lowerPreempts contest next)
    (sameRound : next.round = contest.round)
    (insists : contest.HigherInsists higherPreempts) :
    next.HigherInsists higherPreempts := by
  cases step with
  | higher act =>
      cases act with
      | refresh state conflict decided =>
          have outcome := decided heard.higher
          by_cases seenActive : contest.higher.seen = .active
          · rw [decide_higher_of_active seenActive, insists.preempts,
              insists.higherBecame seenActive, insists.higherConflict] at outcome
            cases outcome
            exact { insists with higherState := rfl, higherConflict := rfl }
          · rw [decide_higher_of_passive seenActive] at outcome
            cases outcome
            exact { insists with higherState := rfl, higherConflict := rfl }
      | send =>
          exact { insists with higherSent := by rintro _ ⟨⟩; exact insists.higherState }
      | receive advertised becameActive _ notReceived _ became =>
          -- The observation it replaces was Active already.
          have seenActive := insists.higherSeen notReceived
          have notFresh : becameActive = false := by
            rw [Bool.eq_false_iff]
            intro fresh
            exact ((became heard.higher).mp fresh).2 seenActive
          exact { insists with
            higherBecame := fun _ => notFresh
            higherSeen := fun received => (nomatch received) }
  | lower act =>
      cases act with
      | refresh | send => exact { insists with }
      | receive advertised becameActive _ _ inbox _ =>
          exact { insists with lowerSeen := fun _ => insists.higherSent advertised inbox }
  | nextRound => exact absurd sameRound (Nat.succ_ne_self _)

theorem Basic.step (basic : contest.Basic higherPreempts lowerPreempts)
    (step : Step higherPreempts lowerPreempts contest next) :
    next.Basic higherPreempts lowerPreempts := by
  cases step with
  | higher act =>
      cases act with
      | refresh state conflict decided =>
          exact { basic with
            higherSettled := fun heard _ => Contestant.settled_refresh (decided heard) }
      | send => exact { basic with higherSettled := fun _ owes => (nomatch owes) }
      | receive advertised becameActive _ _ inbox _ =>
          have heardActive : 2 ≤ contest.round ∨ 1 ≤ contest.round ∧ true = true →
              contest.lower.state = .active → advertised = .active := by
            intro round lowerActive
            have started : 1 ≤ contest.round := by
              rcases round with second | first
              · exact Nat.le_of_succ_le second
              · exact first.1
            exact basic.lowerSent started lowerActive advertised inbox
          exact { basic with
            higherHeard := fun _ => rfl
            higherSettled := fun _ owes => (nomatch owes)
            higherSeen := heardActive }
  | lower act =>
      cases act with
      | refresh state conflict decided =>
          -- An Active lower side was Active before the refresh.
          have wasActive : 1 ≤ contest.round → state = .active →
              contest.lower.state = .active := by
            intro started active
            have outcome := decided (basic.lowerHeard (.inl started))
            exact ((active_of_decide_lower outcome).mp active).2
          have sentActive : 1 ≤ contest.round → state = .active →
              ∀ sent ∈ contest.lower.sent, sent = .active := by
            intro started active
            exact basic.lowerSent started (wasActive started active)
          have seenActive :
              2 ≤ contest.round ∨ 1 ≤ contest.round ∧ contest.higher.received = true →
              state = .active → contest.higher.seen = .active := by
            intro round active
            have started : 1 ≤ contest.round := by
              rcases round with second | first
              · exact Nat.le_of_succ_le second
              · exact first.1
            exact basic.higherSeen round (wasActive started active)
          exact { basic with
            lowerSettled := fun heard _ => Contestant.settled_refresh (decided heard)
            lowerSent := sentActive
            higherSeen := seenActive }
      | send =>
          exact { basic with
            lowerSettled := fun _ owes => (nomatch owes)
            lowerSent := by rintro _ active _ ⟨⟩; exact active }
      | receive =>
          exact { basic with
            lowerHeard := fun _ => rfl
            lowerSettled := fun _ owes => (nomatch owes) }
  | nextRound higherFinished lowerFinished =>
      have seenActive : 2 ≤ contest.round + 1 ∨ 1 ≤ contest.round + 1 ∧ false = true →
          contest.lower.state = .active → contest.higher.seen = .active := by
        intro round lowerActive
        apply basic.higherSeen _ lowerActive
        right
        refine ⟨?_, higherFinished.received⟩
        rcases round with second | ⟨_, received⟩
        · exact Nat.le_of_succ_le_succ second
        · cases received
      exact { basic with
        higherHeard := fun _ => basic.higherHeard (.inr higherFinished.received)
        lowerHeard := fun _ => basic.lowerHeard (.inr lowerFinished.received)
        lowerSent := fun _ _ _ sent => (nomatch sent)
        higherSeen := seenActive }

/-! ## The three rounds -/

/-- What is known of a contest by the number of finished rounds. -/
structure Stage (higherPreempts lowerPreempts : Bool) (contest : Contest) : Prop where
  basic : contest.Basic higherPreempts lowerPreempts
  third : contest.round = 2 → contest.LowerGaveUp ∨ contest.LowerOwns higherPreempts ∨
    contest.HigherInsists higherPreempts
  decided : 3 ≤ contest.round →
    contest.HigherOwns higherPreempts ∨ contest.LowerOwns higherPreempts

theorem Basic.heard (basic : contest.Basic higherPreempts lowerPreempts)
    (started : 1 ≤ contest.round) : contest.Heard :=
  ⟨basic.higherHeard (.inl started), basic.lowerHeard (.inl started)⟩

/-- At the end of the second round: if the lower-ranked side is still `Active`,
the other has heard so, and has either yielded or may insist. -/
theorem third_of_second (basic : contest.Basic higherPreempts lowerPreempts)
    (second : contest.round = 1) (higherFinished : contest.higher.Finished)
    (lowerFinished : contest.lower.Finished) :
    let next : Contest := {
      higher := contest.higher.nextRound
      lower := contest.lower.nextRound
      round := contest.round + 1 }
    next.LowerGaveUp ∨ next.LowerOwns higherPreempts ∨
      next.HigherInsists higherPreempts := by
  intro next
  have heard : contest.Heard := basic.heard second.ge
  by_cases lowerActive : contest.lower.state = .active
  · right
    have seenActive : contest.higher.seen = .active :=
      basic.higherSeen (.inr ⟨second.ge, higherFinished.received⟩) lowerActive
    have higherSettled := basic.higherSettled heard.higher higherFinished.refreshed
    rw [Contestant.Settled, decide_higher_of_active seenActive, Prod.mk.injEq]
      at higherSettled
    rcases higherSettled with ⟨stateEq, conflictEq⟩
    have lowerSettled := basic.lowerSettled heard.lower lowerFinished.refreshed
    have lowerSeen : contest.lower.seen ≠ .active :=
      ((active_of_decide_lower lowerSettled).mp lowerActive).1
    by_cases higherActive : contest.higher.state = .active
    · right
      rw [higherActive] at stateEq
      have insists : higherPreempts = true ∧
          (contest.higher.becameActive || contest.higher.conflict) = false := by
        split at stateEq
        · next both => simpa using both
        · cases stateEq
      rcases insists with ⟨preempts, unprovoked⟩
      rcases Bool.or_eq_false_iff.mp unprovoked with ⟨notBecame, noConflict⟩
      exact {
        preempts
        higherState := higherActive
        higherSent := fun _ sent => (nomatch sent)
        higherConflict := noConflict
        higherBecame := fun _ => notBecame
        higherSeen := fun _ => seenActive
        lowerSeen := fun received => (nomatch received) }
    · left
      have yields : higherPreempts = false ∨ contest.higher.conflict = true := by
        cases preempts : higherPreempts with
        | false => exact .inl rfl
        | true =>
            right
            cases latch : contest.higher.conflict with
            | true => rfl
            | false =>
                rw [latch] at conflictEq
                rw [preempts, latch, conflictEq] at stateEq
                exact absurd stateEq.symm higherActive
      exact {
        lowerState := lowerActive
        lowerSeen
        lowerSent := fun _ sent => (nomatch sent)
        higherState := higherActive
        higherSeen := seenActive
        higherSent := fun _ sent => (nomatch sent)
        yields }
  · left
    exact ⟨lowerActive, fun _ sent => (nomatch sent), fun received => (nomatch received)⟩

/-- At the end of the third round there is a lasting owner. -/
theorem decided_of_third (basic : contest.Basic higherPreempts lowerPreempts)
    (third : contest.round = 2) (higherFinished : contest.higher.Finished)
    (lowerFinished : contest.lower.Finished)
    (known : contest.LowerGaveUp ∨ contest.LowerOwns higherPreempts ∨
      contest.HigherInsists higherPreempts) :
    let next : Contest := {
      higher := contest.higher.nextRound
      lower := contest.lower.nextRound
      round := contest.round + 1 }
    next.HigherOwns higherPreempts ∨ next.LowerOwns higherPreempts := by
  intro next
  have heard : contest.Heard := basic.heard (third.symm ▸ Nat.le_succ 1)
  have step : Step higherPreempts lowerPreempts contest next :=
    .nextRound higherFinished lowerFinished
  rcases known with gaveUp | owns | insists
  · left
    have passive := gaveUp.higherSeen higherFinished.received
    have higherSettled := basic.higherSettled heard.higher higherFinished.refreshed
    rw [Contestant.Settled, decide_higher_of_passive passive, Prod.mk.injEq]
      at higherSettled
    exact ⟨gaveUp.lowerState, fun _ sent => (nomatch sent), higherSettled.1.symm,
      fun active => absurd active passive⟩
  · right
    exact owns.step heard step
  · left
    have lowerSettled := basic.lowerSettled heard.lower lowerFinished.refreshed
    refine ⟨?_, fun _ sent => (nomatch sent), insists.higherState, ?_⟩
    · intro lowerActive
      exact ((active_of_decide_lower lowerSettled).mp lowerActive).1
        (insists.lowerSeen lowerFinished.received)
    · intro seenActive
      exact ⟨insists.preempts, insists.higherBecame seenActive, insists.higherConflict⟩

theorem Stage.step (stage : contest.Stage higherPreempts lowerPreempts)
    (step : Step higherPreempts lowerPreempts contest next) :
    next.Stage higherPreempts lowerPreempts := by
  refine ⟨stage.basic.step step, ?_, ?_⟩
  · intro third
    by_cases sameRound : next.round = contest.round
    · have heard := stage.basic.heard (by omega)
      rcases stage.third (sameRound ▸ third) with gaveUp | owns | insists
      · exact .inl (gaveUp.step heard step sameRound)
      · exact .inr (.inl (owns.step heard step))
      · exact .inr (.inr (insists.step heard step sameRound))
    · cases step with
      | higher | lower => exact absurd rfl sameRound
      | nextRound higherFinished lowerFinished =>
          exact third_of_second stage.basic (Nat.succ.inj third) higherFinished
            lowerFinished
  · intro decided
    by_cases already : 3 ≤ contest.round
    · have heard := stage.basic.heard (by omega)
      rcases stage.decided already with owns | owns
      · exact .inl (owns.step heard step)
      · exact .inr (owns.step heard step)
    · cases step with
      | higher | lower => exact absurd decided already
      | nextRound higherFinished lowerFinished =>
          have third : contest.round = 2 := by
            simp only at decided
            omega
          exact decided_of_third stage.basic third higherFinished lowerFinished
            (stage.third third)

/-- A contest nobody has heard anything in yet. -/
structure Fresh (contest : Contest) : Prop where
  round : contest.round = 0
  higherHeard : contest.higher.heard = false
  higherReceived : contest.higher.received = false
  lowerHeard : contest.lower.heard = false
  lowerReceived : contest.lower.received = false

theorem Fresh.stage (fresh : contest.Fresh) :
    contest.Stage higherPreempts lowerPreempts := by
  have round := fresh.round
  refine ⟨⟨?_, ?_, ?_, ?_, ?_, ?_⟩, fun third => by omega, fun decided => by omega⟩
  · intro known
    simp [fresh.higherReceived, round] at known
  · intro known
    simp [fresh.lowerReceived, round] at known
  · intro heard
    simp [fresh.higherHeard] at heard
  · intro heard
    simp [fresh.lowerHeard] at heard
  · intro started
    omega
  · intro started
    omega

/-- One of the sides, `true` for the higher-ranked one, is the owner. -/
def Owner (higherOwns : Bool) (contest : Contest) : Prop :=
  (contest.higher.state = .active ↔ higherOwns = true) ∧
    (contest.lower.state = .active ↔ higherOwns = false)

theorem Stage.steps (stage : contest.Stage higherPreempts lowerPreempts)
    (steps : Relation.ReflTransGen (Step higherPreempts lowerPreempts) contest next) :
    next.Stage higherPreempts lowerPreempts := by
  induction steps with
  | refl => exact stage
  | tail _ step ih => exact ih.step step

/-- What one step preserves among contests that are heard, all steps preserve. -/
theorem owns_of_steps {owns : Contest → Prop} (heard : contest.Heard)
    (preserved : ∀ contest next : Contest, contest.Heard →
      Step higherPreempts lowerPreempts contest next → owns contest → owns next)
    (initial : owns contest)
    (steps : Relation.ReflTransGen (Step higherPreempts lowerPreempts) contest next) :
    owns next := by
  have both : next.Heard ∧ owns next := by
    induction steps with
    | refl => exact ⟨heard, initial⟩
    | tail _ step ih => exact ⟨ih.1.step step, preserved _ _ ih.1 step ih.2⟩
  exact both.2

/-- Stabilisation: from any start, the contest has one owner after three rounds,
and the same one for ever. -/
theorem lasting_owner {start : Contest} (fresh : start.Fresh)
    (steps : Relation.ReflTransGen (Step higherPreempts lowerPreempts) start contest)
    (decided : 3 ≤ contest.round) :
    ∃ higherOwns, ∀ later,
      Relation.ReflTransGen (Step higherPreempts lowerPreempts) contest later →
      later.Owner higherOwns := by
  have stage : contest.Stage higherPreempts lowerPreempts := fresh.stage.steps steps
  have heard : contest.Heard := stage.basic.heard (by omega)
  rcases stage.decided decided with owns | owns
  · refine ⟨true, ?_⟩
    intro later laterSteps
    have laterOwns : later.HigherOwns higherPreempts :=
      owns_of_steps heard (fun _ _ heard step owns => owns.step heard step) owns
        laterSteps
    exact ⟨iff_of_true laterOwns.higherState rfl,
      iff_of_false laterOwns.lowerState Bool.noConfusion⟩
  · refine ⟨false, ?_⟩
    intro later laterSteps
    have laterOwns : later.LowerOwns higherPreempts :=
      owns_of_steps heard (fun _ _ heard step owns => owns.step heard step) owns
        laterSteps
    exact ⟨iff_of_false laterOwns.higherState Bool.noConfusion,
      iff_of_true laterOwns.lowerState rfl⟩

end Contest

end Gruezi.Ha
