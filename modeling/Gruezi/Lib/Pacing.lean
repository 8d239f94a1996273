import Mathlib.Data.List.Chain
import Mathlib.Tactic.Ring

/-!
# Paced sources and bounded loss

A source is paced if it sends with a bounded gap.  If a listener hears one of any
`factor` consecutive sends, each within `delay`, then at no time was the last send
it has heard made as long as `factor` gaps and one delay ago.
-/

namespace Lib

/-- Consecutive sends are at most `gap` apart. -/
def Paced (gap : Int) (sent : List Int) : Prop :=
  sent.IsChain fun earlier later => later ≤ earlier + gap

namespace Paced

variable {gap delay now earlier later : Int} {sent : List Int} {index count factor : Nat}

theorem le_of_getElem? (paced : Paced gap sent)
    (earlierAt : sent[index]? = some earlier)
    (laterAt : sent[index + count]? = some later) :
    later ≤ earlier + count * gap := by
  induction count generalizing later with
  | zero =>
      cases earlierAt.symm.trans laterAt
      simp
  | succ count ih =>
      rw [← Nat.add_assoc] at laterAt
      rcases List.getElem?_eq_some_iff.mp laterAt with ⟨within, laterEq⟩
      have reached := List.getElem?_eq_getElem (l := sent) (i := index + count) (by omega)
      have one : later ≤ sent[index + count] + gap := by
        rw [← laterEq]
        exact List.isChain_iff_getElem.mp paced (index + count) within
      calc later ≤ sent[index + count] + gap := one
        _ ≤ earlier + count * gap + gap := by
            have := ih reached
            omega
        _ = earlier + (count + 1 : Nat) * gap := by
            push_cast
            ring

/-- At most `factor` sends later, at most `factor` gaps have passed. -/
theorem le_of_count_le (paced : Paced gap sent) (gapNonneg : 0 ≤ gap)
    (earlierAt : sent[index]? = some earlier)
    (laterAt : sent[index + count]? = some later) (few : count ≤ factor) :
    later ≤ earlier + factor * gap := by
  have gaps : (count : Int) * gap ≤ factor * gap :=
    Int.mul_le_mul_of_nonneg_right (by omega) gapNonneg
  have := paced.le_of_getElem? earlierAt laterAt
  omega

/-- One more send, not later than the pace allows. -/
theorem concat (paced : Paced gap sent)
    (inPace : ∀ last ∈ sent.getLast?, later ≤ last + gap) :
    Paced gap (sent ++ [later]) := by
  rw [Paced, List.isChain_append]
  refine ⟨paced, List.isChain_singleton _, ?_⟩
  intro last isLast head isHead
  cases isHead
  exact inPace last isLast

/-- A nonempty set of positions below a bound has a last one. -/
theorem exists_last {heard : Nat → Prop} {bound : Nat} (anyHeard : ∃ index, heard index)
    (bounded : ∀ index, heard index → index < bound) :
    ∃ index, heard index ∧ ∀ other, heard other → other ≤ index := by
  classical
  rcases anyHeard with ⟨first, firstHeard⟩
  refine ⟨Nat.findGreatest heard bound,
    Nat.findGreatest_spec (bounded first firstHeard).le firstHeard, ?_⟩
  intro other otherHeard
  exact Nat.le_findGreatest (bounded other otherHeard).le otherHeard

/-- The last send that was heard is less than `factor` gaps and one delay old. -/
theorem exists_recent {heard : Nat → Prop} (paced : Paced gap sent) (gapNonneg : 0 ≤ gap)
    (delayPos : 0 < delay)
    (due : ∀ last ∈ sent.getLast?, now ≤ last + gap)
    (anyHeard : ∃ index, heard index)
    (bounded : ∀ index, heard index → index < sent.length)
    (losses : ∀ first, first + factor ≤ sent.length →
      (∀ time ∈ (sent.drop first).take factor, time + delay ≤ now) →
        ∃ index, first ≤ index ∧ index < first + factor ∧ heard index) :
    ∃ index time, heard index ∧ sent[index]? = some time ∧
      now < time + factor * gap + delay := by
  rcases exists_last anyHeard bounded with ⟨index, indexHeard, greatest⟩
  have within := bounded index indexHeard
  have sentAt := List.getElem?_eq_getElem within
  refine ⟨index, sent[index], indexHeard, sentAt, ?_⟩
  by_contra late
  rw [not_lt] at late
  have unheard : ¬∃ other,
      index + 1 ≤ other ∧ other < index + 1 + factor ∧ heard other := by
    rintro ⟨other, beyond, _, otherHeard⟩
    have := greatest other otherHeard
    omega
  by_cases room : index + 1 + factor ≤ sent.length
  · -- A whole block follows it, old enough for one of the block to have been heard.
    apply unheard
    apply losses (index + 1) room
    intro time member
    rcases List.getElem?_of_mem member with ⟨offset, found⟩
    rw [List.getElem?_take, List.getElem?_drop, Nat.add_assoc] at found
    split at found
    · next short =>
        have := paced.le_of_count_le gapNonneg sentAt found (by omega : 1 + offset ≤ factor)
        omega
    · cases found
  · -- Less than a block follows it, and the next send is not overdue.
    have lastAt : sent[index + (sent.length - 1 - index)]? =
        some (sent[sent.length - 1]) := by
      rw [List.getElem?_eq_getElem (by omega)]
      congr 2
      omega
    have recent : now ≤ sent[sent.length - 1] + gap := by
      apply due
      rw [List.getLast?_eq_getElem?, List.getElem?_eq_getElem (by omega)]
      rfl
    have elapsed := paced.le_of_getElem? sentAt lastAt
    have gaps : ((sent.length - 1 - index : Nat) + 1 : Int) * gap ≤ factor * gap :=
      Int.mul_le_mul_of_nonneg_right (by omega) gapNonneg
    rw [Int.add_mul, Int.one_mul] at gaps
    omega

end Paced

end Lib
