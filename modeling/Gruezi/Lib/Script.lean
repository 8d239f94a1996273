import Gruezi.Lib.Attempts

/-!
# Scripts

A program that asks one thing after the other, and gives up at the first bad answer, is
a script: a list of what it asks, with a judgement on each answer.  A script is
performed in any monad that answers.  On answers that come in one at a time it says what
it asks next, and a log of what has been asked and answered is a part of the script.
What it only tells, without a judgement on the answer, can be left out of it.
-/

namespace Lib

universe u v

inductive ScriptStep (Q R ε : Type u) where
  | ask (question : Q) (judge : R → Except ε PUnit)
  /-- Whatever the answer is, the script goes on. -/
  | tell (question : Q)
  | fail (error : ε)

variable {Q R ε α : Type u} {m : Type u → Type v}

/-! ## Performing a script -/

section Perform

variable [Monad m] (answer : Q → m R)

def perform : List (ScriptStep Q R ε) → ExceptT ε m PUnit
  | [] => pure ⟨⟩
  | .ask question judge :: rest => do
      let reply ← ExceptT.lift (answer question)
      ExceptT.mk (pure (judge reply))
      perform rest
  | .tell question :: rest => do
      let _ ← ExceptT.lift (answer question)
      perform rest
  | .fail error :: _ => throw error

variable [LawfulMonad m] {answer}

theorem perform_append (first second : List (ScriptStep Q R ε)) :
    perform answer (first ++ second) =
      perform answer first >>= fun _ => perform answer second := by
  induction first with
  | nil => simp [perform]
  | cons step rest ih =>
      cases step with
      | ask question judge => simp only [List.cons_append, perform, ih, bind_assoc]
      | tell question => simp only [List.cons_append, perform, ih, bind_assoc]
      | fail error =>
          apply ExceptT.ext
          simp [perform]

/-- A loop over scripts is one script. -/
theorem forM_perform (elements : List α) (script : α → List (ScriptStep Q R ε)) :
    (forM elements fun element => perform answer (script element)) =
      perform answer (elements.flatMap script) := by
  induction elements with
  | nil => rfl
  | cons element rest ih =>
      rw [List.forM_cons, ih, List.flatMap_cons, perform_append]

end Perform

/-! ## Answers that come in -/

/-- The next answer, or the question it is to. -/
def nextAnswer (question : Q) : StateT (List R) (Except Q) R
  | [] => .error question
  | reply :: rest => .ok (reply, rest)

/-- A script on the answers it has had so far: its result with the answers it has not
needed, or what it asks next. -/
def answered (script : List (ScriptStep Q R ε)) (replies : List R) :
    Except Q (Except ε PUnit × List R) :=
  (perform nextAnswer script).run.run replies

/-- What a script asks next, it only tells. -/
def telling : List (ScriptStep Q R ε) → List R → Bool
  | .ask _ judge :: rest, reply :: replies => (judge reply).isOk && telling rest replies
  | .tell _ :: rest, _ :: replies => telling rest replies
  | .tell _ :: _, [] => true
  | .ask _ _ :: _, [] | .fail _ :: _, _ | [], _ => false

/-- What has been asked and answered is a part of the script, in order, and every answer
but the last has been good. -/
def Logged : List (ScriptStep Q R ε) → List (Q × R) → Prop
  | _, [] => True
  | .ask question judge :: rest, (asked, reply) :: log =>
      asked = question ∧ (log = [] ∨ (judge reply).isOk = true) ∧ Logged rest log
  | .tell question :: rest, (asked, _) :: log => asked = question ∧ Logged rest log
  | .fail _ :: _, _ :: _ | [], _ :: _ => False

/-- All of the script has been asked and answered well. -/
def Completed : List (ScriptStep Q R ε) → List (Q × R) → Prop
  | [], [] => True
  | .ask question judge :: rest, (asked, reply) :: log =>
      asked = question ∧ (judge reply).isOk = true ∧ Completed rest log
  | .tell question :: rest, (asked, _) :: log => asked = question ∧ Completed rest log
  | .ask _ _ :: _, [] | .tell _ :: _, [] | .fail _ :: _, _ | [], _ :: _ => False

section Answers

variable {script rest : List (ScriptStep Q R ε)} {question asked : Q} {reply : R}
variable {replies : List R} {judge : R → Except ε PUnit} {log : List (Q × R)}
variable {result : Except ε PUnit}

@[simp] theorem answered_fail {error : ε} :
    answered (.fail error :: rest) replies = .ok (.error error, replies) := rfl

theorem answered_ask_cons :
    answered (.ask question judge :: rest) (reply :: replies) =
      match judge reply with
      | .ok _ => answered rest replies
      | .error error => .ok (.error error, replies) := by
  change (ExceptT.bindCont (fun _ => perform nextAnswer rest) (judge reply)).run replies = _
  cases judge reply <;> rfl

/-- The same answers in a monad that only waits. -/
theorem run_perform_nextReply :
    (perform (fun _ => nextReply) script).run.run replies =
      (answered script replies).toOption := by
  induction script generalizing replies with
  | nil => rfl
  | cons step rest ih =>
      cases step with
      | fail error => rfl
      | tell question =>
          cases replies with
          | nil => rfl
          | cons reply replies => exact ih
      | ask question judge =>
          cases replies with
          | nil => rfl
          | cons reply replies =>
              rw [answered_ask_cons]
              change (ExceptT.bindCont (fun _ => perform (fun _ => nextReply) rest)
                (judge reply)).run replies = _
              cases judge reply with
              | error error => rfl
              | ok done => exact ih

/-- Before the first answer a script asks, or has ended. -/
theorem asks_or_ended (script : List (ScriptStep Q R ε)) :
    (∃ question, answered script ([] : List R) = .error question) ∨
      ∃ result, answered script ([] : List R) = .ok (result, []) := by
  rcases script with _ | ⟨_ | _ | _, _⟩
  · exact .inr ⟨_, rfl⟩
  · exact .inl ⟨_, rfl⟩
  · exact .inl ⟨_, rfl⟩
  · exact .inr ⟨_, rfl⟩

/-- A script that asks goes on asking after the next answer, or has ended with it. -/
theorem answered_next (asks : answered script replies = .error question) (reply : R) :
    (∃ other, answered script (replies ++ [reply]) = .error other) ∨
      ∃ result, answered script (replies ++ [reply]) = .ok (result, []) := by
  induction script generalizing replies with
  | nil => cases asks
  | cons step rest ih =>
      cases step with
      | fail error => cases asks
      | tell told =>
          cases replies with
          | nil => exact asks_or_ended rest
          | cons earlier replies => exact ih asks
      | ask told judge =>
          cases replies with
          | nil =>
              rw [List.nil_append, answered_ask_cons]
              cases judge reply with
              | error error => exact .inr ⟨_, rfl⟩
              | ok done => exact asks_or_ended rest
          | cons earlier replies =>
              rw [answered_ask_cons] at asks
              rw [List.cons_append, answered_ask_cons]
              cases judged : judge earlier with
              | error error =>
                  rw [judged] at asks
                  cases asks
              | ok done =>
                  rw [judged] at asks
                  exact ih asks

/-! ## The log -/

theorem logged_nil : Logged script ([] : List (Q × R)) := by
  cases script <;> trivial

/-- What is logged has been asked or told by the script. -/
theorem Logged.mem_script (logged : Logged script log) (member : (asked, reply) ∈ log) :
    (∃ judge, .ask asked judge ∈ script) ∨ .tell asked ∈ script := by
  induction script generalizing log with
  | nil =>
      cases log with
      | nil => cases member
      | cons entry log => cases logged
  | cons step rest ih =>
      cases log with
      | nil => cases member
      | cons entry log =>
          have later (inLog : (asked, reply) ∈ log) (logged : Logged rest log) :
              (∃ judge, .ask asked judge ∈ step :: rest) ∨ .tell asked ∈ step :: rest :=
            (ih logged inLog).imp
              (fun ⟨judge, inRest⟩ => ⟨judge, List.mem_cons_of_mem _ inRest⟩)
              (List.mem_cons_of_mem _)
          cases step with
          | fail error => cases logged
          | tell told =>
              rcases List.mem_cons.mp member with rfl | inLog
              · rw [logged.1]
                exact .inr List.mem_cons_self
              · exact later inLog logged.2
          | ask told judge =>
              rcases List.mem_cons.mp member with rfl | inLog
              · rw [logged.1]
                exact .inl ⟨judge, List.mem_cons_self⟩
              · exact later inLog logged.2.2

/-- What is asked next, and its answer, are logged. -/
theorem Logged.concat (logged : Logged script log)
    (asks : answered script (log.map Prod.snd) = .error question) (reply : R) :
    Logged script (log ++ [(question, reply)]) := by
  induction script generalizing log with
  | nil => cases asks
  | cons step rest ih =>
      cases step with
      | fail error => cases asks
      | tell told =>
          cases log with
          | nil =>
              cases asks
              exact ⟨rfl, logged_nil⟩
          | cons entry log => exact ⟨logged.1, ih logged.2 asks⟩
      | ask told judge =>
          cases log with
          | nil =>
              cases asks
              exact ⟨rfl, .inl rfl, logged_nil⟩
          | cons entry log =>
              rw [List.map_cons, answered_ask_cons] at asks
              cases judged : judge entry.2 with
              | error error =>
                  rw [judged] at asks
                  cases asks
              | ok done =>
                  rw [judged] at asks
                  exact ⟨logged.1, .inr (by rw [judged]; rfl), ih logged.2.2 asks⟩

/-- A script that has used up its answers has succeeded exactly if all of it is in the
log. -/
theorem isOk_iff_completed (logged : Logged script log)
    (returned : answered script (log.map Prod.snd) = .ok (result, [])) :
    result.isOk = true ↔ Completed script log := by
  induction script generalizing log with
  | nil =>
      cases log with
      | nil =>
          cases returned
          exact iff_of_true rfl trivial
      | cons entry log => cases logged
  | cons step rest ih =>
      cases step with
      | fail error =>
          cases log with
          | nil =>
              cases returned
              exact iff_of_false Bool.false_ne_true id
          | cons entry log => cases logged
      | tell told =>
          cases log with
          | nil => cases returned
          | cons entry log =>
              exact (ih logged.2 returned).trans (and_iff_right logged.1).symm
      | ask told judge =>
          cases log with
          | nil => cases returned
          | cons entry log =>
              rw [List.map_cons, answered_ask_cons] at returned
              cases judged : judge entry.2 with
              | error error =>
                  rw [judged, Except.ok.injEq, Prod.mk.injEq] at returned
                  rw [← returned.1]
                  refine iff_of_false Bool.false_ne_true ?_
                  intro completed
                  rw [Completed, judged] at completed
                  cases completed.2.1
              | ok done =>
                  rw [judged] at returned
                  rw [Completed, judged]
                  exact (ih logged.2.2 returned).trans
                    ⟨fun completed => ⟨logged.1, rfl, completed⟩, fun completed =>
                      completed.2.2⟩

/-- A script that has used up its answers fails with the last of them, or by itself. -/
theorem Logged.of_error {error : ε} (logged : Logged script log)
    (returned : answered script (log.map Prod.snd) = .ok (.error error, [])) :
    .fail error ∈ script ∨
      ∃ question judge, .ask question judge ∈ script ∧
        ∃ earlier reply, log = earlier ++ [(question, reply)] ∧ judge reply = .error error := by
  have later {step : ScriptStep Q R ε} {rest : List (ScriptStep Q R ε)} {entry : Q × R}
      {log : List (Q × R)} (inRest : .fail error ∈ rest ∨
        ∃ question judge, .ask question judge ∈ rest ∧
          ∃ earlier reply, log = earlier ++ [(question, reply)] ∧ judge reply = .error error) :
      .fail error ∈ step :: rest ∨
        ∃ question judge, .ask question judge ∈ step :: rest ∧
          ∃ earlier reply, entry :: log = earlier ++ [(question, reply)] ∧
            judge reply = .error error := by
    rcases inRest with fails | ⟨question, judge, asks, earlier, reply, rfl, judged⟩
    · exact .inl (List.mem_cons_of_mem _ fails)
    · exact .inr ⟨question, judge, List.mem_cons_of_mem _ asks, entry :: earlier, reply, rfl,
        judged⟩
  induction script generalizing log with
  | nil => cases returned
  | cons step rest ih =>
      cases step with
      | fail failed =>
          rw [answered_fail, Except.ok.injEq, Prod.mk.injEq, Except.error.injEq] at returned
          rw [returned.1]
          exact .inl List.mem_cons_self
      | tell told =>
          cases log with
          | nil => cases returned
          | cons entry log => exact later (ih logged.2 returned)
      | ask told judge =>
          cases log with
          | nil => cases returned
          | cons entry log =>
              rw [List.map_cons, answered_ask_cons] at returned
              cases judged : judge entry.2 with
              | ok done =>
                  rw [judged] at returned
                  exact later (ih logged.2.2 returned)
              | error failed =>
                  rw [judged] at returned
                  dsimp only at returned
                  have isLast : log = [] := by
                    rcases logged.2.1 with isLast | good
                    · exact isLast
                    · rw [judged] at good
                      cases good
                  rw [Except.ok.injEq, Prod.mk.injEq, Except.error.injEq] at returned
                  rw [returned.1] at judged
                  refine .inr ⟨told, judge, List.mem_cons_self, [], entry.2, ?_, judged⟩
                  rw [isLast, ← logged.1]
                  rfl

/-! ## Scripts in a row -/

/-- Either the first script has not been completed, or the second has begun. -/
theorem Logged.of_append {second : List (ScriptStep Q R ε)}
    (logged : Logged (script ++ second) log) :
    Logged script log ∨
      ∃ done later, log = done ++ later ∧ Completed script done ∧ Logged second later := by
  induction script generalizing log with
  | nil => exact .inr ⟨[], log, rfl, trivial, logged⟩
  | cons step rest ih =>
      cases log with
      | nil => exact .inl logged_nil
      | cons entry log =>
          cases step with
          | fail error => cases logged
          | tell told =>
              rcases ih logged.2 with unfinished | ⟨done, later, rfl, completed, begun⟩
              · exact .inl ⟨logged.1, unfinished⟩
              · exact .inr ⟨entry :: done, later, rfl, ⟨logged.1, completed⟩, begun⟩
          | ask told judge =>
              rcases logged with ⟨same, rfl | good, logged⟩
              · exact .inl ⟨same, .inl rfl, logged_nil⟩
              · rcases ih logged with unfinished | ⟨done, later, rfl, completed, begun⟩
                · exact .inl ⟨same, .inr good, unfinished⟩
                · exact .inr ⟨entry :: done, later, rfl, ⟨same, good, completed⟩, begun⟩

theorem Completed.of_append {second : List (ScriptStep Q R ε)}
    (completed : Completed (script ++ second) log) :
    ∃ done later, log = done ++ later ∧ Completed script done ∧ Completed second later := by
  induction script generalizing log with
  | nil => exact ⟨[], log, rfl, trivial, completed⟩
  | cons step rest ih =>
      cases log with
      | nil => cases step <;> cases completed
      | cons entry log =>
          cases step with
          | fail error => cases completed
          | tell told =>
              rcases ih completed.2 with ⟨done, later, rfl, first, second⟩
              exact ⟨entry :: done, later, rfl, ⟨completed.1, first⟩, second⟩
          | ask told judge =>
              rcases ih completed.2.2 with ⟨done, later, rfl, first, second⟩
              exact ⟨entry :: done, later, rfl, ⟨completed.1, completed.2.1, first⟩, second⟩

theorem Completed.logged (completed : Completed script log) : Logged script log := by
  induction script generalizing log with
  | nil =>
      cases log with
      | nil => trivial
      | cons entry log => cases completed
  | cons step rest ih =>
      cases log with
      | nil => exact logged_nil
      | cons entry log =>
          cases step with
          | fail error => cases completed
          | tell told => exact ⟨completed.1, ih completed.2⟩
          | ask told judge => exact ⟨completed.1, .inr completed.2.1, ih completed.2.2⟩

/-- What is logged at a position belongs to one of the scripts in a row, and its part of
the log is in one piece. -/
theorem Logged.of_flatMap {elements : List α} {scripts : α → List (ScriptStep Q R ε)}
    (logged : Logged (elements.flatMap scripts) log) {position : Nat} {entry : Q × R}
    (found : log[position]? = some entry) :
    ∃ element ∈ elements, ∃ done part later place, log = done ++ part ++ later ∧
      position = done.length + place ∧ part[place]? = some entry ∧
      Logged (scripts element) part := by
  induction elements generalizing log position with
  | nil =>
      cases log with
      | nil => cases found
      | cons entry log => cases logged
  | cons element rest ih =>
      rw [List.flatMap_cons] at logged
      rcases logged.of_append with here | ⟨first, others, rfl, completed, begun⟩
      · exact ⟨element, List.mem_cons_self, [], log, [], position, by simp, by simp, found, here⟩
      · by_cases inFirst : position < first.length
        · rw [List.getElem?_append_left inFirst] at found
          exact ⟨element, List.mem_cons_self, [], first, others, position, by simp, by simp,
            found, completed.logged⟩
        · rw [not_lt] at inFirst
          rw [List.getElem?_append_right inFirst] at found
          rcases ih begun found with
            ⟨other, inRest, done, part, later, place, rfl, placed, inPart, itsPart⟩
          refine ⟨other, List.mem_cons_of_mem _ inRest, first ++ done, part, later, place,
            by simp, ?_, inPart, itsPart⟩
          rw [List.length_append]
          omega

/-- All scripts in a row have been completed. -/
theorem Completed.of_flatMap {elements : List α} {scripts : α → List (ScriptStep Q R ε)}
    (completed : Completed (elements.flatMap scripts) log) {element : α}
    (member : element ∈ elements) :
    ∃ part, part <:+: log ∧ Completed (scripts element) part := by
  induction elements generalizing log with
  | nil => cases member
  | cons first rest ih =>
      rw [List.flatMap_cons] at completed
      rcases completed.of_append with ⟨done, later, rfl, isDone, others⟩
      rcases List.mem_cons.mp member with rfl | inRest
      · exact ⟨done, (List.prefix_append _ _).isInfix, isDone⟩
      · rcases ih others inRest with ⟨part, piece, itsPart⟩
        exact ⟨part, piece.trans (List.suffix_append _ _).isInfix, itsPart⟩

/-- What one in each of some completed scripts is, is so often in the log. -/
theorem Completed.countP_of_flatMap {elements : List α}
    {scripts : α → List (ScriptStep Q R ε)} {counted : Q × R → Bool} {chosen : α → Bool}
    (completed : Completed (elements.flatMap scripts) log)
    (once : ∀ element log, Completed (scripts element) log →
      log.countP counted = if chosen element then 1 else 0) :
    log.countP counted = elements.countP chosen := by
  induction elements generalizing log with
  | nil =>
      cases log with
      | nil => rfl
      | cons entry log => cases completed
  | cons element rest ih =>
      rw [List.flatMap_cons] at completed
      rcases completed.of_append with ⟨done, later, rfl, isDone, others⟩
      rw [List.countP_append, once element done isDone, ih others, List.countP_cons,
        Nat.add_comm]

/-! ## What is only told -/

/-- The script without what it only tells. -/
def untold : List (ScriptStep Q R ε) → List (ScriptStep Q R ε)
  | [] => []
  | .ask question judge :: rest => .ask question judge :: untold rest
  | .tell _ :: rest => untold rest
  | .fail error :: rest => .fail error :: untold rest

theorem untold_append (first second : List (ScriptStep Q R ε)) :
    untold (first ++ second) = untold first ++ untold second := by
  induction first with
  | nil => rfl
  | cons step rest ih => cases step <;> simp [untold, ih]

theorem untold_flatMap (elements : List α) (scripts : α → List (ScriptStep Q R ε)) :
    untold (elements.flatMap scripts) = elements.flatMap fun element =>
      untold (scripts element) := by
  induction elements with
  | nil => rfl
  | cons element rest ih => rw [List.flatMap_cons, untold_append, ih, List.flatMap_cons]

/-- The answers that are judged. -/
def judgedReplies : List (ScriptStep Q R ε) → List R → List R
  | .ask _ _ :: rest, reply :: replies => reply :: judgedReplies rest replies
  | .tell _ :: rest, _ :: replies => judgedReplies rest replies
  | .ask _ _ :: _, [] | .tell _ :: _, [] | .fail _ :: _, _ | [], _ => []

theorem judgedReplies_nil : judgedReplies script ([] : List R) = [] := by
  rcases script with _ | ⟨_ | _ | _, _⟩ <;> rfl

/-- To a script without them, an answer to what is only told makes no difference. -/
theorem judgedReplies_of_telling (tells : telling script replies = true) (reply : R) :
    judgedReplies script (replies ++ [reply]) = judgedReplies script replies := by
  induction script generalizing replies with
  | nil => cases tells
  | cons step rest ih =>
      cases step with
      | fail error => cases tells
      | tell told =>
          cases replies with
          | nil => exact judgedReplies_nil
          | cons earlier replies => exact ih tells
      | ask told judge =>
          cases replies with
          | nil => cases tells
          | cons earlier replies =>
              rw [telling, Bool.and_eq_true] at tells
              exact congrArg (earlier :: ·) (ih tells.2)

/-- A script that asks for an answer it judges asks the same without what it tells. -/
theorem answered_untold_of_asking (asks : answered script replies = .error question)
    (judges : telling script replies = false) :
    answered (untold script) (judgedReplies script replies) = .error question ∧
      ∀ reply, judgedReplies script (replies ++ [reply]) =
        judgedReplies script replies ++ [reply] := by
  induction script generalizing replies with
  | nil => cases asks
  | cons step rest ih =>
      cases step with
      | fail error => cases asks
      | tell told =>
          cases replies with
          | nil => cases judges
          | cons earlier replies => exact ih asks judges
      | ask told judge =>
          cases replies with
          | nil =>
              cases asks
              refine ⟨rfl, ?_⟩
              intro reply
              exact congrArg (reply :: ·) judgedReplies_nil
          | cons earlier replies =>
              rw [answered_ask_cons] at asks
              rw [telling] at judges
              cases judged : judge earlier with
              | error error =>
                  rw [judged] at asks
                  cases asks
              | ok done =>
                  rw [judged] at asks judges
                  rcases ih asks judges with ⟨asksSame, longer⟩
                  refine ⟨?_, fun reply => congrArg (earlier :: ·) (longer reply)⟩
                  rw [untold, judgedReplies, answered_ask_cons, judged]
                  exact asksSame

/-- A script that has ended has the same result without what it tells. -/
theorem answered_untold_of_ended {left : List R}
    (ended : answered script replies = .ok (result, left)) :
    ∃ left, answered (untold script) (judgedReplies script replies) = .ok (result, left) := by
  induction script generalizing replies with
  | nil =>
      cases ended
      exact ⟨_, rfl⟩
  | cons step rest ih =>
      cases step with
      | fail error =>
          cases ended
          exact ⟨_, rfl⟩
      | tell told =>
          cases replies with
          | nil => cases ended
          | cons earlier replies => exact ih ended
      | ask told judge =>
          cases replies with
          | nil => cases ended
          | cons earlier replies =>
              rw [answered_ask_cons] at ended
              rw [untold, judgedReplies, answered_ask_cons]
              cases judged : judge earlier with
              | error error =>
                  rw [judged] at ended
                  cases ended
                  exact ⟨_, rfl⟩
              | ok done =>
                  rw [judged] at ended
                  exact ih ended

end Answers

end Lib
