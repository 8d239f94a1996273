import Mathlib.Init

/-!
# Exact readers

A reader runs over a stream and may fail.  `Reads reader shape` says exactly
when it succeeds: the unread input starts with a chunk of the given shape for
the value returned, and the stream moves past that chunk and nothing else.
Sequencing readers concatenates their chunks, so the language of a whole format
is computed from those of its fields.
-/

namespace Lib

universe u v

/-- A state with unread input that can be skipped.  Skipping is the only way
the state changes. -/
class InputStream (σ : Type u) (β : outParam (Type v)) where
  rest : σ → List β
  advance : σ → Nat → σ
  rest_advance : ∀ (state : σ) (count : Nat),
    rest (advance state count) = (rest state).drop count
  advance_zero : ∀ state : σ, advance state 0 = state
  advance_advance : ∀ (state : σ) (first second : Nat),
    advance (advance state first) second = advance state (first + second)

namespace InputStream

variable {σ : Type u} {β : Type v} [InputStream σ β] {ε α γ : Type u}

/-- The reader returns `value` exactly when the unread input starts with a
chunk related to `value`, and it consumes that chunk. -/
def Reads (reader : StateT σ (Except ε) α) (shape : List β → α → Prop) : Prop :=
  ∀ (state : σ) (value : α) (after : σ),
    reader.run state = .ok (value, after) ↔
      ∃ chunk, shape chunk value ∧ chunk <+: rest state ∧
        after = advance state chunk.length

namespace Reads

theorem pure (value : α) :
    Reads (σ := σ) (ε := ε) (Pure.pure value)
      (fun chunk result => chunk = [] ∧ result = value) := by
  intro state result after
  simp only [StateT.run_pure]
  constructor
  · intro returned
    cases returned
    exact ⟨[], ⟨rfl, rfl⟩, List.nil_prefix, (advance_zero state).symm⟩
  · rintro ⟨_, ⟨rfl, rfl⟩, -, rfl⟩
    rw [List.length_nil, advance_zero]
    rfl

/-- A computation that leaves the stream alone reads the empty chunk. -/
theorem lift (result : Except ε α) :
    Reads (σ := σ) (StateT.lift result)
      (fun chunk value => chunk = [] ∧ result = .ok value) := by
  intro state value after
  cases result with
  | error error =>
      constructor
      · intro returned
        cases returned
      · rintro ⟨_, ⟨-, impossible⟩, -⟩
        cases impossible
  | ok found =>
      constructor
      · intro returned
        cases returned
        exact ⟨[], ⟨rfl, rfl⟩, List.nil_prefix, (advance_zero state).symm⟩
      · rintro ⟨_, ⟨rfl, equal⟩, -, rfl⟩
        cases equal
        rw [List.length_nil, advance_zero]
        rfl

/-- A failing reader reads nothing. -/
theorem throw (error : ε) :
    Reads (σ := σ) (α := α) (MonadExcept.throw error) (fun _ _ => False) := by
  intro state value after
  constructor
  · intro returned
    cases returned
  · rintro ⟨_, impossible, -⟩
    cases impossible

/-- Sequencing concatenates chunks. -/
theorem bind {first : StateT σ (Except ε) α} {second : α → StateT σ (Except ε) γ}
    {firstShape : List β → α → Prop} {secondShape : α → List β → γ → Prop}
    (firstReads : Reads first firstShape)
    (secondReads : ∀ value, Reads (second value) (secondShape value)) :
    Reads (first >>= second) (fun chunk result =>
      ∃ left value right, chunk = left ++ right ∧ firstShape left value ∧
        secondShape value right result) := by
  intro state result after
  rw [StateT.run_bind]
  constructor
  · intro returned
    cases found : first.run state with
    | error error =>
        rw [found] at returned
        cases returned
    | ok pair =>
        rcases pair with ⟨value, middle⟩
        rw [found] at returned
        obtain ⟨left, leftShape, leftPrefix, rfl⟩ :=
          (firstReads state value middle).mp found
        obtain ⟨right, rightShape, rightPrefix, rfl⟩ :=
          (secondReads value _ result after).mp returned
        refine ⟨left ++ right, ⟨left, value, right, rfl, leftShape, rightShape⟩,
          ?_, by rw [advance_advance, List.length_append]⟩
        rcases leftPrefix with ⟨tail, equal⟩
        rw [rest_advance, ← equal, List.drop_left] at rightPrefix
        rw [← equal]
        exact List.prefix_append_right_inj left |>.mpr rightPrefix
  · rintro ⟨_, ⟨left, value, right, rfl, leftShape, rightShape⟩, whole, rfl⟩
    have leftPrefix : left <+: rest state :=
      (List.prefix_append left right).trans whole
    have rightPrefix : right <+: rest (advance state left.length) := by
      rcases whole with ⟨tail, equal⟩
      rw [rest_advance, ← equal, List.append_assoc, List.drop_left]
      exact List.prefix_append right tail
    have found := (firstReads state value _).mpr ⟨left, leftShape, leftPrefix, rfl⟩
    have returned := (secondReads value _ result _).mpr
      ⟨right, rightShape, rightPrefix, rfl⟩
    rw [found, List.length_append, ← advance_advance]
    exact returned

/-- Replace a shape by an equivalent one. -/
theorem congr {reader : StateT σ (Except ε) α} {shape other : List β → α → Prop}
    (reads : Reads reader shape)
    (same : ∀ chunk value, shape chunk value ↔ other chunk value) :
    Reads reader other := by
  intro state value after
  rw [reads state value after]
  exact exists_congr fun chunk => and_congr_left fun _ => same chunk value

/-- Sequencing after a reader whose chunk is a function of its value. -/
theorem bind_exact {first : StateT σ (Except ε) α}
    {second : α → StateT σ (Except ε) γ} {write : α → List β} {valid : α → Prop}
    {secondShape : α → List β → γ → Prop}
    (firstReads : Reads first fun chunk value => chunk = write value ∧ valid value)
    (secondReads : ∀ value, Reads (second value) (secondShape value)) :
    Reads (first >>= second) (fun chunk result =>
      ∃ value right, chunk = write value ++ right ∧ valid value ∧
        secondShape value right result) := by
  apply (bind firstReads secondReads).congr
  intro chunk result
  constructor
  · rintro ⟨_, value, right, equal, ⟨rfl, ok⟩, shaped⟩
    exact ⟨value, right, equal, ok, shaped⟩
  · rintro ⟨value, right, equal, ok, shaped⟩
    exact ⟨write value, value, right, equal, ⟨rfl, ok⟩, shaped⟩

/-- Sequencing after a computation that leaves the stream alone. -/
theorem bind_lift (first : Except ε α) {second : α → StateT σ (Except ε) γ}
    {secondShape : α → List β → γ → Prop}
    (secondReads : ∀ value, Reads (second value) (secondShape value)) :
    Reads (StateT.lift first >>= second) (fun chunk result =>
      ∃ value, first = .ok value ∧ secondShape value chunk result) := by
  apply (bind (lift first) secondReads).congr
  intro chunk result
  constructor
  · rintro ⟨_, value, right, rfl, ⟨rfl, returned⟩, shaped⟩
    exact ⟨value, returned, shaped⟩
  · rintro ⟨value, returned, shaped⟩
    exact ⟨[], value, chunk, rfl, ⟨rfl, returned⟩, shaped⟩

end Reads

end InputStream

end Lib
