import Mathlib.Data.List.Basic
import Mathlib.Logic.Function.Basic

/-!
# Unordered writers

Detached tasks that write to a shared store, one write at a time and in any
interleaving.  Nothing orders two tasks, so the last write to a key decides, and
a store settles on a value only if no other write to the key comes after the
last one that writes it.
-/

namespace Lib

universe u v

structure Write (α : Type u) (β : Type v) where
  key : α
  value : β
  deriving DecidableEq

/-- The writes each task has left, and the store they go to. -/
structure Writers (α : Type u) (β : Type v) where
  tasks : List (List (Write α β))
  store : α → β

namespace Writers

variable {α : Type u} {β : Type v}

def spawn (writers : Writers α β) (tasks : List (List (Write α β))) : Writers α β :=
  { writers with tasks := writers.tasks ++ tasks }

/-- The task at `index` makes its next write. -/
def exec [DecidableEq α] (writers : Writers α β) (index : Nat) :
    Option (Write α β × Writers α β) :=
  match writers.tasks[index]? with
  | some (write :: rest) =>
      some (write, {
        tasks := writers.tasks.set index rest
        store := Function.update writers.store write.key write.value })
  | _ => none

/-- Some task still has the write to make. -/
def Pending (writers : Writers α β) (write : Write α β) : Prop :=
  ∃ task ∈ writers.tasks, write ∈ task

instance [DecidableEq α] [DecidableEq β] (writers : Writers α β) (write : Write α β) :
    Decidable (writers.Pending write) :=
  inferInstanceAs (Decidable (∃ task ∈ writers.tasks, write ∈ task))

/-- The tasks are killed.  Of a task that has started its next write this one is still
made. -/
def kill (writers : Writers α β) (started : Nat → Bool) : Writers α β :=
  { writers with
    tasks := writers.tasks.mapIdx fun index task =>
      if started index then task.take 1 else [] }

/-- No task has a write left. -/
def Quiescent (writers : Writers α β) : Prop :=
  ∀ task ∈ writers.tasks, task = []

instance [DecidableEq α] [DecidableEq β] (writers : Writers α β) :
    Decidable writers.Quiescent :=
  inferInstanceAs (Decidable (∀ task ∈ writers.tasks, task = []))

/-- Every key holds the value, or has a write of the value coming. -/
def Settling (writers : Writers α β) (keys : List α) (value : β) : Prop :=
  ∀ key ∈ keys, writers.Pending ⟨key, value⟩ ∨ writers.store key = value

variable {writers after : Writers α β} {write other : Write α β} {index : Nat}
variable {tasks : List (List (Write α β))} {keys : List α} {value : β}

theorem pending_spawn : (writers.spawn tasks).Pending write ↔
    writers.Pending write ∨ ∃ task ∈ tasks, write ∈ task := by
  simp only [Pending, spawn, List.mem_append, or_and_right, exists_or]

/-- Making a write leaves every other pending write pending. -/
theorem pending_exec [DecidableEq α]
    (executed : writers.exec index = some (write, after))
    (pending : writers.Pending other) : other = write ∨ after.Pending other := by
  simp only [exec] at executed
  split at executed
  · next head rest found =>
      cases executed
      rcases pending with ⟨task, member, left⟩
      rcases List.getElem_of_mem member with ⟨position, bound, rfl⟩
      by_cases same : position = index
      · subst same
        rw [List.getElem?_eq_getElem bound, Option.some.injEq] at found
        rw [found] at left
        cases left with
        | head => exact .inl rfl
        | tail _ left =>
            right
            exact ⟨rest, List.mem_set bound rest, left⟩
      · right
        refine ⟨_, ?_, left⟩
        rw [← List.getElem_set_ne (Ne.symm same) (a := rest) (by simpa using bound)]
        exact List.getElem_mem _
  · cases executed

theorem store_exec [DecidableEq α]
    (executed : writers.exec index = some (write, after)) :
    after.store = Function.update writers.store write.key write.value := by
  simp only [exec] at executed
  split at executed
  · cases executed
    rfl
  · cases executed

/-- New tasks disturb nothing that settles. -/
theorem Settling.spawn (settling : writers.Settling keys value) :
    (writers.spawn tasks).Settling keys value := by
  intro key member
  rcases settling key member with pending | stored
  · exact .inl (pending_spawn.mpr (.inl pending))
  · exact .inr stored

/-- A task with a write of the value for every key makes the keys settle on it. -/
theorem settling_of_spawn
    (covers : ∃ task ∈ tasks, ∀ key ∈ keys, ⟨key, value⟩ ∈ task) :
    (writers.spawn tasks).Settling keys value := by
  rcases covers with ⟨task, member, writes⟩
  intro key found
  exact .inl (pending_spawn.mpr (.inr ⟨task, member, writes key found⟩))

/-- A write disturbs what settles only if it writes another value after the last
pending write of the value to its key. -/
theorem Settling.exec [DecidableEq α] (settling : writers.Settling keys value)
    (executed : writers.exec index = some (write, after))
    (harmless : write.value = value ∨ after.Pending ⟨write.key, value⟩) :
    after.Settling keys value := by
  intro key member
  by_cases sameKey : key = write.key
  · subst sameKey
    rcases harmless with sameValue | pending
    · right
      rw [store_exec executed, Function.update_self, sameValue]
    · exact .inl pending
  · rcases settling key member with pending | stored
    · rcases pending_exec executed pending with same | pending
      · exact absurd (congrArg Write.key same) sameKey
      · exact .inl pending
    · right
      rw [store_exec executed, Function.update_of_ne sameKey]
      exact stored

/-- Once no write is left, the keys have settled. -/
theorem Settling.settled (settling : writers.Settling keys value)
    (quiescent : writers.Quiescent) : ∀ key ∈ keys, writers.store key = value := by
  intro key member
  rcases settling key member with ⟨task, taskMember, left⟩ | stored
  · rw [quiescent task taskMember] at left
    cases left
  · exact stored

/-! ## The keys that are written -/

/-- Every write that is left is to one of the keys. -/
def Confined (writers : Writers α β) (keys : List α) : Prop :=
  ∀ write, writers.Pending write → write.key ∈ keys

theorem Confined.spawn (confined : writers.Confined keys)
    (writes : ∀ task ∈ tasks, ∀ write ∈ task, write.key ∈ keys) :
    (writers.spawn tasks).Confined keys := by
  intro write pending
  rcases pending_spawn.mp pending with earlier | ⟨task, member, left⟩
  · exact confined write earlier
  · exact writes task member write left

/-- A kill adds no write. -/
theorem pending_of_kill {started : Nat → Bool} (pending : (writers.kill started).Pending write) :
    writers.Pending write := by
  rcases pending with ⟨task, member, left⟩
  rcases List.mem_mapIdx.mp member with ⟨index, bound, rfl⟩
  split at left
  · exact ⟨_, List.getElem_mem bound, List.mem_of_mem_take left⟩
  · cases left

theorem Confined.kill {started : Nat → Bool} (confined : writers.Confined keys) :
    (writers.kill started).Confined keys :=
  fun write pending => confined write (pending_of_kill pending)

/-- The write that is made was pending, and so was all that is left. -/
theorem pending_of_exec [DecidableEq α]
    (executed : writers.exec index = some (write, after)) :
    writers.Pending write ∧ ∀ other, after.Pending other → writers.Pending other := by
  simp only [exec] at executed
  split at executed
  · next head rest found =>
      cases executed
      have member := List.mem_of_getElem? found
      refine ⟨⟨_, member, List.mem_cons_self⟩, ?_⟩
      intro other pending
      rcases pending with ⟨task, set, left⟩
      rcases List.mem_or_eq_of_mem_set set with kept | rfl
      · exact ⟨task, kept, left⟩
      · exact ⟨_, member, List.mem_cons_of_mem _ left⟩
  · cases executed

theorem Confined.exec [DecidableEq α] (confined : writers.Confined keys)
    (executed : writers.exec index = some (write, after)) : after.Confined keys :=
  fun other pending => confined other ((pending_of_exec executed).2 other pending)

/-- A key that is not among them keeps its value. -/
theorem Confined.store_exec [DecidableEq α] (confined : writers.Confined keys)
    (executed : writers.exec index = some (write, after)) {key : α} (outside : key ∉ keys) :
    after.store key = writers.store key := by
  rw [Writers.store_exec executed, Function.update_of_ne]
  intro same
  exact outside (same ▸ confined write (pending_of_exec executed).1)

end Writers

end Lib
