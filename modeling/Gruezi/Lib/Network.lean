import Gruezi.Lib.Machine
import Mathlib.Logic.Function.Basic

/-!
# Parties over an unreliable network

Each party is a machine whose outputs are addressed messages.  A message once
sent stays on the wire: it can arrive any number of times, at any time, in any
order or never, so one system covers loss, delay, duplication and reordering.
-/

namespace Lib

universe u v w x

/-- Parties `ι` with states `σ` and inputs `ε`, exchanging messages `μ`. -/
structure Network (ι : Type u) (σ : Type v) (ε : Type w) (μ : Type x) where
  party : ι → Machine σ ε (ι × μ)
  /-- The message an input of a party is the arrival of, with its sender. -/
  arrival : ι → ε → Option (ι × μ)

structure Envelope (ι : Type u) (μ : Type x) where
  source : ι
  target : ι
  message : μ
  deriving DecidableEq

/-- The states of all parties and every message sent so far. -/
structure World (ι : Type u) (σ : Type v) (μ : Type x) where
  node : ι → σ
  wire : List (Envelope ι μ)

namespace Network

variable {ι : Type u} {σ : Type v} {ε : Type w} {μ : Type x}
variable [DecidableEq ι] [DecidableEq μ] (network : Network ι σ ε μ)

/-- One party takes one input; a message arrives only if it was sent. -/
def step (world : World ι σ μ) (input : ι × ε) :
    Option (World ι σ μ × List (Envelope ι μ)) :=
  if ∀ arrived ∈ network.arrival input.1 input.2,
      ⟨arrived.1, input.1, arrived.2⟩ ∈ world.wire then
    ((network.party input.1).step (world.node input.1) input.2).map fun result =>
      let sent := result.2.map fun addressed =>
        (⟨input.1, addressed.1, addressed.2⟩ : Envelope ι μ)
      ({ node := Function.update world.node input.1 result.1
         wire := world.wire ++ sent }, sent)
  else none

/-- The parties and the wire as one machine. -/
def system : Machine (World ι σ μ) (ι × ε) (Envelope ι μ) where
  step := network.step

variable {network} {world next : World ι σ μ} {input : ι × ε}
variable {sent : List (Envelope ι μ)}

/-- What a step of the system can do. -/
theorem step_eq_some (taken : network.step world input = some (next, sent)) :
    ∃ state addressed,
      (network.party input.1).step (world.node input.1) input.2 =
        some (state, addressed) ∧
      (∀ arrived ∈ network.arrival input.1 input.2,
        ⟨arrived.1, input.1, arrived.2⟩ ∈ world.wire) ∧
      next.node = Function.update world.node input.1 state ∧
      next.wire = world.wire ++ addressed.map fun message =>
        ⟨input.1, message.1, message.2⟩ := by
  simp only [step] at taken
  split at taken
  · next arrives =>
      rw [Option.map_eq_some_iff] at taken
      rcases taken with ⟨⟨state, addressed⟩, stepped, equal⟩
      cases equal
      exact ⟨state, addressed, stepped, arrives, rfl, rfl⟩
  · cases taken

/-- A predicate on each party and one on the messages between any two. -/
structure Holds (nodeInv : ι → σ → Prop) (wireInv : Envelope ι μ → Prop)
    (world : World ι σ μ) : Prop where
  node : ∀ party, nodeInv party (world.node party)
  wire : ∀ envelope ∈ world.wire, wireInv envelope

/-- Invariant rule: if every input a party takes preserves that party's
predicate, given the message predicate for what arrives, and establishes the
message predicate for what it sends, then both hold along every run. -/
theorem holds_of_run {nodeInv : ι → σ → Prop} {wireInv : Envelope ι μ → Prop}
    {start final : World ι σ μ}
    {trace : List (Transition (World ι σ μ) (ι × ε) (Envelope ι μ))}
    (run : network.system.Run start trace final)
    (initial : Holds nodeInv wireInv start)
    (preserves : ∀ next ∈ trace, ∀ state addressed,
      (network.party next.input.1).step (next.before.node next.input.1) next.input.2 =
        some (state, addressed) →
      (∀ arrived ∈ network.arrival next.input.1 next.input.2,
        wireInv ⟨arrived.1, next.input.1, arrived.2⟩) →
      nodeInv next.input.1 (next.before.node next.input.1) →
      nodeInv next.input.1 state ∧
        ∀ message ∈ addressed, wireInv ⟨next.input.1, message.1, message.2⟩) :
    Holds nodeInv wireInv final := by
  apply run.invariant initial
  intro next member taken holds
  rcases step_eq_some taken with ⟨state, addressed, stepped, arrives, nodeEq, wireEq⟩
  obtain ⟨stateInv, sentInv⟩ := preserves next member state addressed stepped
    (fun arrived found => holds.wire _ (arrives arrived found))
    (holds.node next.input.1)
  constructor
  · intro party
    rw [nodeEq]
    by_cases acting : party = next.input.1
    · rw [acting, Function.update_self]
      exact stateInv
    · rw [Function.update_of_ne acting]
      exact holds.node party
  · intro envelope found
    rw [wireEq, List.mem_append, List.mem_map] at found
    rcases found with old | ⟨message, sentMember, rfl⟩
    · exact holds.wire envelope old
    · exact sentInv message sentMember

end Network

end Lib
