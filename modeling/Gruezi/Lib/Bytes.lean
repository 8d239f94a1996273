import Mathlib.Algebra.Group.Nat.Defs
import Mathlib.Data.List.Induction

/-!
# Self-delimiting pieces of a byte string

Two ways to write a value so that it can be told apart from what follows it.
A fixed-width big-endian number and its digits determine each other, and a
string followed by a terminator it does not contain ends at the first
terminator.
-/

namespace Lib.BigEndian

/-- The `width` lowest base-256 digits of a number. -/
def toBytes : (width : Nat) → Nat → List UInt8
  | 0, _ => []
  | width + 1, value => toBytes width (value / 256) ++ [UInt8.ofNat value]

/-- The number a list of base-256 digits denotes. -/
def ofBytes (bytes : List UInt8) : Nat :=
  bytes.foldl (fun value byte => value * 256 + byte.toNat) 0

@[simp] theorem length_toBytes (width value : Nat) :
    (toBytes width value).length = width := by
  induction width generalizing value with
  | zero => rfl
  | succ width ih => simp [toBytes, ih]

@[simp] theorem ofBytes_nil : ofBytes [] = 0 := rfl

@[simp] theorem ofBytes_concat (bytes : List UInt8) (byte : UInt8) :
    ofBytes (bytes ++ [byte]) = ofBytes bytes * 256 + byte.toNat := by
  simp [ofBytes]

theorem ofBytes_lt (bytes : List UInt8) : ofBytes bytes < 256 ^ bytes.length := by
  induction bytes using List.reverseRecOn with
  | nil => simp
  | append_singleton bytes byte ih =>
      have byteLt := byte.toNat_lt
      rw [ofBytes_concat, List.length_append, List.length_singleton, Nat.pow_succ]
      omega

theorem ofBytes_toBytes {width value : Nat} (fits : value < 256 ^ width) :
    ofBytes (toBytes width value) = value := by
  induction width generalizing value with
  | zero => simp_all [toBytes]
  | succ width ih =>
      have quotientFits : value / 256 < 256 ^ width := by
        rw [Nat.pow_succ] at fits
        omega
      rw [toBytes, ofBytes_concat, ih quotientFits, UInt8.toNat_ofNat']
      omega

theorem toBytes_ofBytes (bytes : List UInt8) :
    toBytes bytes.length (ofBytes bytes) = bytes := by
  induction bytes using List.reverseRecOn with
  | nil => rfl
  | append_singleton bytes byte ih =>
      have byteLt := byte.toNat_lt
      have quotient : (ofBytes bytes * 256 + byte.toNat) / 256 = ofBytes bytes := by
        omega
      have digit : UInt8.ofNat (ofBytes bytes * 256 + byte.toNat) = byte := by
        apply UInt8.toNat_inj.mp
        rw [UInt8.toNat_ofNat']
        omega
      rw [ofBytes_concat, List.length_append, List.length_singleton, toBytes,
        quotient, ih, digit]

/-- A digit string of the right width is the encoding of the number it denotes. -/
theorem eq_toBytes_iff {width value : Nat} {bytes : List UInt8}
    (fits : value < 256 ^ width) :
    bytes = toBytes width value ↔ bytes.length = width ∧ ofBytes bytes = value := by
  constructor
  · rintro rfl
    exact ⟨length_toBytes width value, ofBytes_toBytes fits⟩
  · rintro ⟨rfl, rfl⟩
    exact (toBytes_ofBytes bytes).symm

/-- Numbers that fit are told apart by their digits. -/
theorem toBytes_inj {width left right : Nat} (leftFits : left < 256 ^ width)
    (rightFits : right < 256 ^ width) :
    toBytes width left = toBytes width right ↔ left = right := by
  constructor
  · intro equal
    rw [← ofBytes_toBytes leftFits, equal, ofBytes_toBytes rightFits]
  · rintro rfl
    rfl

end Lib.BigEndian

namespace Lib

/-- Where the terminator does not occur in the strings before it, a
concatenation determines both the string and the rest. -/
theorem append_terminator_inj {α : Type} {terminator : α}
    {left right leftRest rightRest : List α}
    (leftFree : terminator ∉ left) (rightFree : terminator ∉ right) :
    left ++ terminator :: leftRest = right ++ terminator :: rightRest ↔
      left = right ∧ leftRest = rightRest := by
  constructor
  · intro equal
    induction left generalizing right with
    | nil =>
        cases right with
        | nil => exact ⟨rfl, (List.cons.inj equal).2⟩
        | cons head right =>
            have headEq := (List.cons.inj equal).1
            exact absurd (headEq ▸ List.mem_cons_self) rightFree
    | cons head left ih =>
        cases right with
        | nil =>
            have headEq := (List.cons.inj equal).1
            exact absurd (headEq ▸ List.mem_cons_self) leftFree
        | cons other right =>
            rcases List.cons.inj equal with ⟨rfl, tailEq⟩
            obtain ⟨rfl, restEq⟩ := ih (fun member => leftFree (.tail _ member))
              (fun member => rightFree (.tail _ member)) tailEq
            exact ⟨rfl, restEq⟩
  · rintro ⟨rfl, rfl⟩
    rfl

end Lib
