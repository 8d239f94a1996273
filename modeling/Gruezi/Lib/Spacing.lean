import Mathlib.Data.List.Chain
import Mathlib.Data.List.Count
import Mathlib.Tactic.Ring

/-!
# Spaced events

Events at least `gap` apart cannot crowd: an interval holds at most one more of them
than gaps fit into it.
-/

namespace Lib

/-- Any two of the times are at least `gap` apart, the earlier first. -/
def Spaced (gap : Int) (times : List Int) : Prop :=
  times.Pairwise fun earlier later => earlier + gap ≤ later

/-- The times in the interval of this length. -/
def within (first length : Int) (times : List Int) : List Int :=
  times.filter fun time => first ≤ time ∧ time < first + length

namespace Spaced

variable {gap first length last time : Int} {times : List Int}

theorem nil (gap : Int) : Spaced gap [] := List.Pairwise.nil

/-- One more event, a gap after the last. -/
theorem concat (spaced : Spaced gap times) (gapNonneg : 0 ≤ gap)
    (later : ∀ last ∈ times.getLast?, last + gap ≤ time) :
    Spaced gap (times ++ [time]) := by
  rw [Spaced, List.pairwise_append]
  refine ⟨spaced, List.pairwise_singleton _ _, ?_⟩
  intro earlier member other isTime
  cases List.mem_singleton.mp isTime
  rcases List.eq_nil_or_concat' times with rfl | ⟨before, last, rfl⟩
  · cases member
  · have lastLater : last + gap ≤ time := later last (by simp)
    rcases List.mem_append.mp member with inside | isLast
    · have := (List.pairwise_append.mp spaced).2.2 earlier inside last (by simp)
      omega
    · cases List.mem_singleton.mp isLast
      exact lastLater

/-- From the first event to any event there are as many gaps as events between. -/
theorem count_mul_le (spaced : Spaced gap (first :: times))
    (bounded : ∀ time ∈ first :: times, time < last) :
    first + times.length * gap < last := by
  induction times generalizing first with
  | nil =>
      have := bounded first (by simp)
      simpa using this
  | cons second rest ih =>
      have next : first + gap ≤ second :=
        (List.pairwise_cons.mp spaced).1 second (by simp)
      have rest := ih (List.pairwise_cons.mp spaced).2 fun time member =>
        bounded time (List.mem_cons_of_mem _ member)
      rw [List.length_cons]
      push_cast
      rw [Int.add_mul, Int.one_mul]
      omega

/-- An interval holds at most one event more than gaps fit into it. -/
theorem length_within_mul_le (spaced : Spaced gap times) (gapNonneg : 0 ≤ gap)
    (lengthNonneg : 0 ≤ length) :
    ((within first length times).length : Int) * gap ≤ length + gap := by
  have inside : ∀ time ∈ within first length times,
      first ≤ time ∧ time < first + length := by
    intro time member
    simpa using (List.mem_filter.mp member).2
  have spacedInside : Spaced gap (within first length times) :=
    List.Pairwise.sublist List.filter_sublist spaced
  generalize within first length times = chosen at inside spacedInside
  cases chosen with
  | nil =>
      simp only [List.length_nil, Nat.cast_zero, Int.zero_mul]
      omega
  | cons earliest rest =>
      have room := spacedInside.count_mul_le fun time member => (inside time member).2
      have from_ := (inside earliest (by simp)).1
      rw [List.length_cons]
      push_cast
      rw [Int.add_mul, Int.one_mul]
      omega

end Spaced

end Lib
