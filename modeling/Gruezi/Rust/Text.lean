import Mathlib.Data.List.DropRight
import Mathlib.Order.Interval.Finset.Nat

/-!
# Byte strings and UTF-8 text

Rust's `&[u8]` and `Vec<u8>` are lists of bytes here, and `String` is Lean's
own, which like Rust's is a byte string carrying a proof that it is UTF-8.
This module names the standard-library operations on both that the program
uses: `as_bytes`, `from_utf8`, `from_utf8_lossy`, `trim`, and the display text of
a UTF-8 error.
-/

namespace Gruezi.Rust

abbrev Bytes := List UInt8

/-- `str::as_bytes`. -/
def asBytes (text : String) : Bytes :=
  text.toByteArray.data.toList

theorem asBytes_injective : Function.Injective asBytes := by
  intro left right equal
  apply String.toByteArray_inj.mp
  apply ByteArray.ext
  exact Array.toList_inj.mp equal

@[simp] theorem asBytes_inj {left right : String} :
    asBytes left = asBytes right ↔ left = right :=
  asBytes_injective.eq_iff

theorem asBytes_ofByteArray (bytes : Bytes)
    (valid : bytes.toByteArray.IsValidUTF8) :
    asBytes (String.ofByteArray bytes.toByteArray valid) = bytes :=
  List.toList_data_toByteArray

theorem toByteArray_asBytes (text : String) :
    (asBytes text).toByteArray = text.toByteArray := by
  apply ByteArray.ext
  simp [asBytes]

/-- The bytes of a string are the concatenated encodings of its characters. -/
theorem asBytes_eq_flatMap (text : String) :
    ∃ chars : List Char, asBytes text = chars.flatMap String.utf8EncodeChar := by
  rcases text.isValidUTF8 with ⟨chars, equal⟩
  refine ⟨chars, ?_⟩
  rw [asBytes, equal, List.utf8Encode, List.toList_data_toByteArray]

private theorem lt_of_mem_utf8EncodeChar {char : Char} {byte : UInt8}
    (member : byte ∈ String.utf8EncodeChar char) : byte.toNat < 0xF8 := by
  simp only [String.utf8EncodeChar] at member
  split at member
  · simp only [List.mem_singleton] at member
    subst byte
    simp only [UInt8.toNat_ofNat']
    omega
  · split at member
    · simp only [List.mem_cons, List.not_mem_nil, or_false] at member
      rcases member with rfl | rfl <;> simp only [UInt8.toNat_ofNat'] <;> omega
    · split at member
      · simp only [List.mem_cons, List.not_mem_nil, or_false] at member
        rcases member with rfl | rfl | rfl <;>
          simp only [UInt8.toNat_ofNat'] <;> omega
      · simp only [List.mem_cons, List.not_mem_nil, or_false] at member
        rcases member with rfl | rfl | rfl | rfl <;>
          simp only [UInt8.toNat_ofNat'] <;> omega

/-- The byte `0xFF` never occurs in UTF-8, which is what makes it a terminator
for hashed strings. -/
theorem ff_not_mem_asBytes (text : String) : (0xFF : UInt8) ∉ asBytes text := by
  intro member
  rcases asBytes_eq_flatMap text with ⟨chars, equal⟩
  rw [equal, List.mem_flatMap] at member
  rcases member with ⟨char, -, encoded⟩
  have bound := lt_of_mem_utf8EncodeChar encoded
  exact absurd bound (by decide)

/-! ## Comparison -/

/-- `u8::cmp`. -/
def cmpU8 (left right : UInt8) : Ordering :=
  compareOfLessAndEq left right

/-- `str::cmp`: lexicographic on the bytes. -/
def cmpStr (left right : String) : Ordering :=
  List.compareLex cmpU8 (asBytes left) (asBytes right)

instance : Std.OrientedCmp cmpU8 :=
  inferInstanceAs (Std.OrientedCmp (compare : UInt8 → UInt8 → Ordering))

instance : Std.LawfulEqCmp cmpU8 :=
  inferInstanceAs (Std.LawfulEqCmp (compare : UInt8 → UInt8 → Ordering))

theorem cmpU8_swap (left right : UInt8) :
    (cmpU8 left right).swap = cmpU8 right left :=
  Std.OrientedCmp.eq_swap.symm

theorem cmpU8_eq_eq {left right : UInt8} : cmpU8 left right = .eq ↔ left = right :=
  Std.LawfulEqCmp.compare_eq_iff_eq

theorem cmpStr_swap (left right : String) :
    (cmpStr left right).swap = cmpStr right left :=
  (@Std.OrientedCmp.eq_swap _ (List.compareLex cmpU8) _ _ _).symm

theorem cmpStr_eq_eq {left right : String} : cmpStr left right = .eq ↔ left = right := by
  rw [cmpStr, Std.LawfulEqCmp.compare_eq_iff_eq, asBytes_inj]

/-! ## Validation -/

/-- `std::str::Utf8Error`. -/
structure Utf8Error where
  validUpTo : Nat
  errorLen : Option Nat
  deriving DecidableEq, Repr

/-- Length of the character a leading byte announces; zero for a byte that
leads no character. -/
def utf8CharWidth (byte : UInt8) : Nat :=
  if byte < 0x80 then 1
  else if byte < 0xC2 then 0
  else if byte < 0xE0 then 2
  else if byte < 0xF0 then 3
  else if byte < 0xF5 then 4
  else 0

def isContinuation (byte : UInt8) : Bool :=
  0x80 ≤ byte && byte < 0xC0

/-- The second byte's range depends on the first one: it excludes overlong
encodings, surrogates and values above `U+10FFFF`. -/
def secondByteAllowed (first second : UInt8) : Bool :=
  if first = 0xE0 then 0xA0 ≤ second && second < 0xC0
  else if first = 0xED then 0x80 ≤ second && second < 0xA0
  else if first = 0xF0 then 0x90 ≤ second && second < 0xC0
  else if first = 0xF4 then 0x80 ≤ second && second < 0x90
  else isContinuation second

/-- `Utf8Error::error_len` for the bytes from the first invalid character on:
`none` when they end inside a character. -/
def utf8ErrorLen : Bytes → Option Nat
  | [] => none
  | first :: rest =>
      if utf8CharWidth first < 2 then some 1
      else
        match rest with
        | [] => none
        | second :: rest =>
            if !secondByteAllowed first second then some 1
            else
              match rest with
              | [] => none
              | third :: rest =>
                  if !isContinuation third then some 2
                  else
                    match rest with
                    | [] => none
                    | fourth :: _ =>
                        if !isContinuation fourth then some 3 else none

/-- The error of a byte string that is not UTF-8. -/
def utf8Error (bytes : Bytes) : Utf8Error :=
  let validUpTo :=
    Nat.findGreatest (fun size => (bytes.take size).toByteArray.IsValidUTF8)
      bytes.length
  { validUpTo, errorLen := utf8ErrorLen (bytes.drop validUpTo) }

/-- `impl Display for Utf8Error`. -/
def Utf8Error.toString (error : Utf8Error) : String :=
  match error.errorLen with
  | some errorLen =>
      "invalid utf-8 sequence of " ++ Nat.repr errorLen ++ " bytes from index " ++
        Nat.repr error.validUpTo
  | none =>
      "incomplete utf-8 byte sequence from index " ++ Nat.repr error.validUpTo

/-- `String::from_utf8`. -/
def fromUtf8 (bytes : Bytes) : Except Utf8Error String :=
  if valid : bytes.toByteArray.IsValidUTF8 then
    .ok (String.ofByteArray bytes.toByteArray valid)
  else
    .error (utf8Error bytes)

theorem fromUtf8_eq_ok_iff {bytes : Bytes} {text : String} :
    fromUtf8 bytes = .ok text ↔ bytes = asBytes text := by
  constructor
  · intro decoded
    unfold fromUtf8 at decoded
    split at decoded
    · next valid =>
        cases decoded
        exact (asBytes_ofByteArray bytes valid).symm
    · cases decoded
  · rintro rfl
    have valid : (asBytes text).toByteArray.IsValidUTF8 := by
      rw [toByteArray_asBytes]
      exact text.isValidUTF8
    rw [fromUtf8, dif_pos valid]
    congr 1
    exact String.toByteArray_inj.mp (toByteArray_asBytes text)

/-- The text of the bytes up to an error, and U+FFFD for the invalid sequence after
it, as long as there is fuel. -/
def lossyChunks : Nat → Bytes → String
  | 0, _ => ""
  | fuel + 1, bytes =>
      match fromUtf8 bytes with
      | .ok text => text
      | .error error =>
          let chunk := (fromUtf8 (bytes.take error.validUpTo)).toOption.getD ""
          match error.errorLen with
          | none => chunk ++ "\uFFFD"
          | some errorLen =>
              chunk ++ "\uFFFD" ++
                lossyChunks fuel (bytes.drop (error.validUpTo + errorLen))

/-- `String::from_utf8_lossy`.  Every chunk takes a byte at least. -/
def fromUtf8Lossy (bytes : Bytes) : String :=
  lossyChunks (bytes.length + 1) bytes

@[simp] theorem fromUtf8Lossy_asBytes (text : String) :
    fromUtf8Lossy (asBytes text) = text := by
  rw [fromUtf8Lossy, lossyChunks, fromUtf8_eq_ok_iff.mpr rfl]

/-! ## Trimming -/

/-- `char::is_whitespace`: the Unicode `White_Space` property. -/
def isWhitespace (char : Char) : Bool :=
  let code := char.toNat
  (0x09 ≤ code && code ≤ 0x0D) || code == 0x20 || code == 0x85 || code == 0xA0 ||
    code == 0x1680 || (0x2000 ≤ code && code ≤ 0x200A) || code == 0x2028 ||
    code == 0x2029 || code == 0x202F || code == 0x205F || code == 0x3000

/-- `str::trim`. -/
def trim (text : String) : String :=
  String.ofList ((text.toList.dropWhile isWhitespace).rdropWhile isWhitespace)

/-- `text.trim().is_empty()`, the emptiness test every validation uses. -/
def isBlank (text : String) : Bool :=
  (trim text).isEmpty

private theorem dropWhile_rdropWhile_dropWhile (keep : Char → Bool)
    (chars : List Char) :
    ((chars.dropWhile keep).rdropWhile keep).dropWhile keep =
      (chars.dropWhile keep).rdropWhile keep := by
  cases shape : (chars.dropWhile keep).rdropWhile keep with
  | nil => rfl
  | cons head tail =>
      have isPrefix := List.rdropWhile_prefix keep (l := chars.dropWhile keep)
      rw [shape] at isPrefix
      rcases isPrefix with ⟨suffix, equal⟩
      have notDropped := List.dropWhile_get_zero_not keep chars
        (by rw [← equal]; simp)
      have headKept : keep head = false := by
        simpa [← equal] using notDropped
      simp [headKept]

theorem trim_trim (text : String) : trim (trim text) = trim text := by
  simp only [trim, String.toList_ofList]
  rw [dropWhile_rdropWhile_dropWhile, List.rdropWhile_idempotent]

@[simp] theorem isBlank_trim (text : String) : isBlank (trim text) = isBlank text := by
  rw [isBlank, isBlank, trim_trim]

end Gruezi.Rust
