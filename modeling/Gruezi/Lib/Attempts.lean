import Mathlib.Data.List.TakeWhile

/-!
# Loops over steps that can fail

A loop that attempts one element after the other on a shared state, and stops at
the first that fails.  It is compared with the pass that attempts every element,
whatever becomes of the others: the loop fails exactly when one of these
attempts does, and it has done the work of those before the first failure.

The same loop is also run on replies that come in one at a time: it waits for the
next, and has returned once it needs no more.
-/

namespace Lib

universe u

variable {σ ε ρ α : Type u}

/-! ## Up to the first failure -/

section TakeWhile

variable {keep : α → Bool} {before after : List α} {failed : α}

theorem takeWhile_append_cons_of_neg (fails : keep failed = false) :
    (before ++ failed :: after).takeWhile keep = before.takeWhile keep := by
  induction before with
  | nil => exact List.takeWhile_cons_of_neg (by simp [fails])
  | cons first before ih =>
      rw [List.cons_append, List.takeWhile_cons, List.takeWhile_cons, ih]

/-- What is not in front of the first failure is that failure, or behind it. -/
theorem exists_failed_of_notMem_takeWhile {list : List α} {element : α}
    (member : element ∈ list) (behind : element ∉ list.takeWhile keep) :
    ∃ failed after, list = list.takeWhile keep ++ failed :: after ∧
      keep failed = false ∧ element ∈ failed :: after := by
  have split := List.takeWhile_append_dropWhile (p := keep) (l := list)
  have inRest : element ∈ list.dropWhile keep := by
    rw [← split, List.mem_append] at member
    exact member.resolve_left behind
  cases rest : list.dropWhile keep with
  | nil =>
      rw [rest] at inRest
      cases inRest
  | cons failed after =>
      have stops := List.head_dropWhile_not keep (l := list) (by simp [rest])
      refine ⟨failed, after, ?_, ?_, rest ▸ inRest⟩
      · rw [← rest, split]
      · simpa only [rest, List.head_cons] using stops

end TakeWhile

/-! ## A shared state -/

section State

variable (attempt : α → ExceptT ε (StateM σ) PUnit)

/-- Attempt every element, whatever becomes of the others. -/
def attemptAll : List α → σ → List (α × Except ε PUnit)
  | [], _ => []
  | element :: rest, state =>
      let attempted := (attempt element).run.run state
      (element, attempted.1) :: attemptAll rest attempted.2

/-- The elements attempted before the first failure. -/
def succeededFirst (attempts : List (α × Except ε PUnit)) : List α :=
  (attempts.takeWhile (·.2.isOk)).map Prod.fst

/-- An attempt that succeeds has the effect of its element, and one that fails has
none. -/
structure HasEffect (effect : σ → α → σ) : Prop where
  ok : ∀ element before after done,
    (attempt element).run.run before = (.ok done, after) → after = effect before element
  error : ∀ element before after error,
    (attempt element).run.run before = (.error error, after) → after = before

variable {attempt} {elements : List α} {state : σ} {effect : σ → α → σ}

/-- They are known from which attempts have succeeded. -/
theorem succeededFirst_eq (attempts : List (α × Except ε PUnit)) :
    succeededFirst attempts =
      ((attempts.map fun attempted => (attempted.1, attempted.2.isOk)).takeWhile
        (·.2)).map Prod.fst := by
  rw [succeededFirst, List.takeWhile_map, List.map_map]
  rfl

/-- The loop goes on after a success, and stops at a failure. -/
theorem forM_run_cons {element : α} {rest : List α} :
    (forM (element :: rest) attempt).run.run state =
      match (attempt element).run.run state with
      | (.ok _, next) => (forM rest attempt).run.run next
      | (.error error, next) => (.error error, next) := by
  rw [List.forM_cons, ExceptT.run_bind, StateT.run_bind]
  rcases attempted : (attempt element).run.run state with ⟨result, next⟩
  cases result <;> rfl

/-- The loop fails exactly when one of the attempts does. -/
theorem isOk_forM : ((forM elements attempt).run.run state).1.isOk = true ↔
    ∀ attempted ∈ attemptAll attempt elements state, attempted.2.isOk = true := by
  induction elements generalizing state with
  | nil => exact iff_of_true rfl fun _ member => absurd member List.not_mem_nil
  | cons element rest ih =>
      rw [forM_run_cons, attemptAll, List.forall_mem_cons]
      rcases (attempt element).run.run state with ⟨result, next⟩
      cases result with
      | ok done => exact ih.trans (and_iff_right rfl).symm
      | error error => exact iff_of_false Bool.false_ne_true fun passes =>
          Bool.false_ne_true passes.1

/-- The loop does what the attempts before the first failure do. -/
theorem state_forM (hasEffect : HasEffect attempt effect) :
    ((forM elements attempt).run.run state).2 =
      (succeededFirst (attemptAll attempt elements state)).foldl effect state := by
  induction elements generalizing state with
  | nil => rfl
  | cons element rest ih =>
      rw [forM_run_cons, attemptAll]
      rcases attempted : (attempt element).run.run state with ⟨result, next⟩
      cases result with
      | ok done =>
          rw [succeededFirst, List.takeWhile_cons_of_pos rfl, List.map_cons,
            List.foldl_cons, ← hasEffect.ok _ _ _ _ attempted]
          exact ih
      | error error => exact hasEffect.error _ _ _ _ attempted

end State

/-! ## Replies -/

/-- The next reply, if it has come in. -/
def nextReply : StateT (List ρ) Option ρ
  | [] => none
  | reply :: rest => some (reply, rest)

section Replies

/-- Each attempt waits for one reply, and judges it. -/
structure AsksOnce (attempt : α → ExceptT ε (StateT (List ρ) Option) PUnit)
    (judge : α → ρ → Except ε PUnit) : Prop where
  waits : ∀ element, (attempt element).run.run [] = none
  answered : ∀ element reply rest,
    (attempt element).run.run (reply :: rest) = some (judge element reply, rest)

variable {attempt : α → ExceptT ε (StateT (List ρ) Option) PUnit}
variable {judge : α → ρ → Except ε PUnit} {good : ρ → Bool}
variable {elements : List α} {replies : List ρ} {result : Except ε PUnit}

/-- The loop goes on after a success, and stops at a failure or where it waits. -/
theorem forM_replies_cons {element : α} {rest : List α} :
    (forM (element :: rest) attempt).run.run replies =
      ((attempt element).run.run replies).bind fun attempted =>
        match attempted with
        | (.ok _, left) => (forM rest attempt).run.run left
        | (.error error, left) => some (.error error, left) := by
  rw [List.forM_cons, ExceptT.run_bind, StateT.run_bind]
  apply congrArg (Option.bind _)
  funext attempted
  rcases attempted with ⟨result, left⟩
  cases result <;> rfl

namespace AsksOnce

theorem forM_cons (asks : AsksOnce attempt judge) {element : α} {rest : List α}
    {reply : ρ} :
    (forM (element :: rest) attempt).run.run (reply :: replies) =
      match judge element reply with
      | .ok _ => (forM rest attempt).run.run replies
      | .error error => some (.error error, replies) := by
  rw [forM_replies_cons, asks.answered, Option.bind_some]
  cases judge element reply <;> rfl

/-- A loop that waits goes on waiting after the next reply, or returns with it. -/
theorem next (asks : AsksOnce attempt judge) (reply : ρ)
    (waiting : (forM elements attempt).run.run replies = none) :
    (forM elements attempt).run.run (replies ++ [reply]) = none ∨
      ∃ result, (forM elements attempt).run.run (replies ++ [reply]) =
        some (result, []) := by
  induction elements generalizing replies with
  | nil => cases waiting
  | cons element rest ih =>
      cases replies with
      | nil =>
          rw [List.nil_append, asks.forM_cons]
          cases judge element reply with
          | error error => exact .inr ⟨_, rfl⟩
          | ok done =>
              cases rest with
              | nil => exact .inr ⟨_, rfl⟩
              | cons later rest =>
                  left
                  simp only [forM_replies_cons, asks.waits, Option.bind_none]
      | cons first replies =>
          rw [asks.forM_cons] at waiting
          rw [List.cons_append, asks.forM_cons]
          cases judged : judge element first with
          | error error =>
              rw [judged] at waiting
              cases waiting
          | ok done =>
              rw [judged] at waiting
              exact ih waiting

/-- A loop that has used up its replies has succeeded exactly when all of them are
good. -/
theorem isOk (asks : AsksOnce attempt judge)
    (judges : ∀ element reply, (judge element reply).isOk = good reply)
    (returned : (forM elements attempt).run.run replies = some (result, [])) :
    result.isOk = true ↔ ∀ reply ∈ replies, good reply = true := by
  induction elements generalizing replies with
  | nil =>
      cases returned
      exact iff_of_true rfl fun _ member => absurd member List.not_mem_nil
  | cons element rest ih =>
      cases replies with
      | nil =>
          rw [forM_replies_cons, asks.waits] at returned
          cases returned
      | cons reply replies =>
          rw [asks.forM_cons] at returned
          rw [List.forall_mem_cons, ← judges element]
          cases judged : judge element reply with
          | error error =>
              rw [judged] at returned
              cases returned
              exact iff_of_false Bool.false_ne_true fun passes =>
                Bool.false_ne_true passes.1
          | ok done =>
              rw [judged] at returned
              exact (ih returned).trans (and_iff_right rfl).symm

end AsksOnce

/-! ## Replies and a state -/

/-- Some replies give a program what it does from any state. -/
def Replays (replied : ExceptT ε (StateT (List ρ) Option) PUnit)
    (program : ExceptT ε (StateM σ) PUnit) : Prop :=
  ∀ state, ∃ replies, ∀ more,
    replied.run.run (replies ++ more) = some ((program.run.run state).1, more)

/-- If every attempt is replayed, so is the loop. -/
theorem replays_forM {program : α → ExceptT ε (StateM σ) PUnit}
    (replays : ∀ element, Replays (attempt element) (program element)) :
    Replays (forM elements attempt) (ForM.forM elements program) := by
  induction elements with
  | nil => exact fun _ => ⟨[], fun _ => rfl⟩
  | cons element rest ih =>
      intro state
      obtain ⟨first, answered⟩ := replays element state
      rcases attempted : (program element).run.run state with ⟨result, next⟩
      rw [attempted] at answered
      cases result with
      | error error =>
          refine ⟨first, fun more => ?_⟩
          rw [forM_replies_cons, answered, forM_run_cons, attempted]
          rfl
      | ok done =>
          obtain ⟨others, answeredRest⟩ := ih next
          refine ⟨first ++ others, fun more => ?_⟩
          rw [forM_replies_cons, List.append_assoc, answered, forM_run_cons, attempted]
          exact answeredRest more

end Replies

end Lib
