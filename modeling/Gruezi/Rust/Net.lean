import Gruezi.Rust.Io
import Mathlib.Tactic.Ring

/-!
# IP addresses

`std::net::IpAddr`, its parser and its text.  A parser works on the characters that are
left, and one that fails has read nothing.  An address is read back from its text.
-/

namespace Gruezi.Rust

/-- `std::net::Ipv4Addr`. -/
structure Ipv4Addr where
  first : UInt8
  second : UInt8
  third : UInt8
  fourth : UInt8
  deriving DecidableEq, Repr

/-- `std::net::Ipv6Addr`. -/
structure Ipv6Addr where
  segments : List UInt16
  length_eq : segments.length = 8
  deriving DecidableEq, Repr

/-- `std::net::IpAddr`. -/
inductive IpAddr where
  | v4 (ip : Ipv4Addr)
  | v6 (ip : Ipv6Addr)
  deriving DecidableEq, Repr

/-! ## The text -/

/-- `impl Display for Ipv4Addr`. -/
def Ipv4Addr.chars (ip : Ipv4Addr) : List Char :=
  Nat.toDigits 10 ip.first.toNat ++ '.' :: (Nat.toDigits 10 ip.second.toNat ++
    '.' :: (Nat.toDigits 10 ip.third.toNat ++ '.' :: Nat.toDigits 10 ip.fourth.toNat))

/-- The two segments an IPv4 address stands for, in big-endian order. -/
def Ipv4Addr.segments (ip : Ipv4Addr) : List UInt16 :=
  [.ofNat (ip.first.toNat * 256 + ip.second.toNat),
    .ofNat (ip.third.toNat * 256 + ip.fourth.toNat)]

namespace Ipv6Addr

/-- `to_ipv4_mapped`. -/
def toIpv4Mapped (ip : Ipv6Addr) : Option Ipv4Addr :=
  match ip.segments with
  | [0, 0, 0, 0, 0, 0xffff, high, low] =>
      some {
        first := .ofNat (high.toNat / 256)
        second := .ofNat (high.toNat % 256)
        third := .ofNat (low.toNat / 256)
        fourth := .ofNat (low.toNat % 256) }
  | _ => none

structure Span where
  start : Nat
  len : Nat
  deriving DecidableEq, Repr

/-- The first of the longest spans of zeros, from `index` on. -/
def longestZeros (index : Nat) (longest current : Span) : List UInt16 → Span
  | [] => longest
  | segment :: rest =>
      if segment = 0 then
        let current : Span := {
          start := if current.len = 0 then index else current.start
          len := current.len + 1 }
        longestZeros (index + 1) (if current.len > longest.len then current else longest)
          current rest
      else longestZeros (index + 1) longest ⟨0, 0⟩ rest

/-- A colon-separated part of the address. -/
def fmtSubslice : List UInt16 → List Char
  | [] => []
  | first :: tail =>
      Nat.toDigits 16 first.toNat ++ tail.flatMap fun segment =>
        ':' :: Nat.toDigits 16 segment.toNat

/-- `impl Display for Ipv6Addr`. -/
def chars (ip : Ipv6Addr) : List Char :=
  match ip.toIpv4Mapped with
  | some ipv4 => "::ffff:".toList ++ ipv4.chars
  | none =>
      let zeroes := longestZeros 0 ⟨0, 0⟩ ⟨0, 0⟩ ip.segments
      if zeroes.len > 1 then
        fmtSubslice (ip.segments.take zeroes.start) ++ "::".toList ++
          fmtSubslice (ip.segments.drop (zeroes.start + zeroes.len))
      else fmtSubslice ip.segments

/-- The segments that `head` and `tail` leave out are zero. -/
def ofParts (head tail : List UInt16) : Ipv6Addr where
  segments := List.ofFn fun index : Fin 8 =>
    if index < 8 - tail.length then head.getD index 0
    else tail.getD (index - (8 - tail.length)) 0
  length_eq := List.length_ofFn

end Ipv6Addr

def IpAddr.toString : IpAddr → String
  | v4 ip => .ofList ip.chars
  | v6 ip => .ofList ip.chars

/-! ## The parser -/

/-- A parser of `core::net::parser`. -/
abbrev Parser (α : Type) := StateT (List Char) Option α

namespace Parser

/-- `char::to_digit`. -/
def toDigit (radix : Nat) (char : Char) : Option Nat :=
  let digit :=
    if '0' ≤ char && char ≤ '9' then some (char.toNat - '0'.toNat)
    else if 'a' ≤ char && char ≤ 'z' then some (char.toNat - 'a'.toNat + 10)
    else if 'A' ≤ char && char ≤ 'Z' then some (char.toNat - 'A'.toNat + 10)
    else none
  digit.filter (· < radix)

def readGivenChar (target : Char) : Parser Unit
  | [] => none
  | char :: rest => if char = target then some ((), rest) else none

/-- A separator in front of every element but the first. -/
def readSeparator {α : Type} (separator : Char) (index : Nat) (inner : Parser α) :
    Parser α := do
  if index > 0 then
    readGivenChar separator
  inner

/-- The digits at the front: their value, their count and what follows, unless there are
more than `maxDigits`. -/
def readDigits (radix maxDigits result digitCount : Nat) :
    List Char → Option (Nat × Nat × List Char)
  | [] => some (result, digitCount, [])
  | char :: rest =>
      match toDigit radix char with
      | none => some (result, digitCount, char :: rest)
      | some digit =>
          if digitCount + 1 > maxDigits then none
          else readDigits radix maxDigits (result * radix + digit) (digitCount + 1) rest

/-- `read_number`, for a type with the values below `size`. -/
def readNumber (radix maxDigits : Nat) (allowZeroPrefix : Bool) (size : Nat) : Parser Nat
  | chars => do
      let (result, digitCount, rest) ← readDigits radix maxDigits 0 0 chars
      if digitCount = 0 then none
      else if !allowZeroPrefix && chars.head? == some '0' && digitCount > 1 then none
      else if result < size then some (result, rest)
      else none

/-- Octal numbers are not allowed. -/
def readOctet (index : Nat) : Parser UInt8 := do
  let octet ← readSeparator '.' index (readNumber 10 3 false (2 ^ 8))
  return .ofNat octet

def readIpv4Addr : Parser Ipv4Addr := do
  let first ← readOctet 0
  let second ← readOctet 1
  let third ← readOctet 2
  let fourth ← readOctet 3
  return { first, second, third, fourth }

def readGroup (index : Nat) : Parser UInt16 := do
  let group ← readSeparator ':' index (readNumber 16 4 true (2 ^ 16))
  return .ofNat group

/-- `read_groups`: at most `left` groups more, and whether the last two are an embedded
IPv4 address. -/
def readGroups : (left index : Nat) → List Char → (List UInt16 × Bool) × List Char
  | 0, _, chars => (([], false), chars)
  | left + 1, index, chars =>
      match if left > 0 then (readSeparator ':' index readIpv4Addr).run chars else none with
      | some (ip, rest) => ((ip.segments, true), rest)
      | none =>
          match (readGroup index).run chars with
          | none => (([], false), chars)
          | some (group, rest) =>
              let ((groups, embedded), rest) := readGroups left (index + 1) rest
              ((group :: groups, embedded), rest)

def readIpv6Addr : Parser Ipv6Addr
  | chars => do
      let ((head, embedded), chars) := readGroups 8 0 chars
      if head.length = 8 then
        some (.ofParts head [], chars)
      else if embedded then
        none
      else
        let (_, chars) ← (readGivenChar ':').run chars
        let (_, chars) ← (readGivenChar ':').run chars
        let ((tail, _), chars) := readGroups (8 - (head.length + 1)) 0 chars
        some (.ofParts head tail, chars)

/-- An IPv4 address is tried first. -/
def readIpAddr : Parser IpAddr
  | chars =>
      match readIpv4Addr.run chars with
      | some (ip, rest) => some (.v4 ip, rest)
      | none => (readIpv6Addr.run chars).map fun (ip, rest) => (.v6 ip, rest)

end Parser

/-- `impl FromStr for IpAddr`: nothing may be left. -/
def IpAddr.fromStr (text : String) : Option IpAddr :=
  match Parser.readIpAddr.run text.toList with
  | some (ip, []) => some ip
  | some (_, _ :: _) | none => none

/-! ## Numbers -/

namespace Parser

theorem toDigit_digitChar : ∀ radix < 17, ∀ digit < radix,
    toDigit radix (Nat.digitChar digit) = some digit := by
  decide +kernel

/-- No number goes on with these characters. -/
def Stops (radix : Nat) (rest : List Char) : Prop :=
  ∀ char ∈ rest.head?, toDigit radix char = none

/-- A digit of a smaller radix is one of a larger radix. -/
theorem Stops.mono {radix larger : Nat} {rest : List Char} (stops : Stops larger rest)
    (smaller : radix ≤ larger) : Stops radix rest := by
  intro char first
  have noDigit := stops char first
  simp only [toDigit, Option.filter_eq_none_iff, decide_eq_true_eq] at noDigit ⊢
  intro digit isDigit
  exact fun below => noDigit digit isDigit (below.trans_le smaller)

section Numbers

variable {radix maxDigits size number result digitCount : Nat} {allowZeroPrefix : Bool}
variable {rest : List Char}

theorem readDigits_of_stops (stops : Stops radix rest) :
    readDigits radix maxDigits result digitCount rest = some (result, digitCount, rest) := by
  cases rest with
  | nil => rfl
  | cons char rest => rw [readDigits, stops char rfl]

/-- The digits of a number are read as that number. -/
theorem readDigits_toDigits (atLeastTwo : 1 < radix) (small : radix < 17)
    (room : digitCount + (Nat.toDigits radix number).length ≤ maxDigits) :
    readDigits radix maxDigits result digitCount (Nat.toDigits radix number ++ rest) =
      readDigits radix maxDigits
        (result * radix ^ (Nat.toDigits radix number).length + number)
        (digitCount + (Nat.toDigits radix number).length) rest := by
  induction number using Nat.strongRecOn generalizing rest with
  | ind number ih =>
      by_cases single : number < radix
      · rw [Nat.toDigits_of_lt_base single] at room ⊢
        rw [List.length_singleton] at room ⊢
        rw [List.singleton_append, readDigits, toDigit_digitChar radix small number single,
          pow_one]
        exact if_neg (by omega)
      · have several : radix ≤ number := Nat.le_of_not_lt single
        have smaller : number / radix < number :=
          Nat.div_lt_self (by omega) atLeastTwo
        have digit : number % radix < radix := Nat.mod_lt _ (by omega)
        rw [Nat.toDigits_of_base_le atLeastTwo several, List.length_append,
          List.length_singleton] at room
        rw [Nat.toDigits_of_base_le atLeastTwo several, List.append_assoc,
          ih _ smaller (by omega), List.singleton_append, readDigits,
          toDigit_digitChar radix small _ digit, List.length_append, List.length_singleton]
        have value : (result * radix ^ (Nat.toDigits radix (number / radix)).length +
              number / radix) * radix + number % radix =
            result * radix ^ ((Nat.toDigits radix (number / radix)).length + 1) + number := by
          calc
            _ = result * radix ^ ((Nat.toDigits radix (number / radix)).length + 1) +
                (radix * (number / radix) + number % radix) := by ring
            _ = _ := by rw [Nat.div_add_mod]
        rw [← value, ← Nat.add_assoc]
        exact if_neg (by omega)

/-- Only zero begins with a zero. -/
theorem head_toDigits (atLeastTwo : 1 < radix) (small : radix < 17)
    (isZero : (Nat.toDigits radix number).head? = some '0') : number = 0 := by
  induction number using Nat.strongRecOn with
  | ind number ih =>
      by_cases single : number < radix
      · rw [Nat.toDigits_of_lt_base single, List.head?_singleton, Option.some.injEq] at isZero
        have read := toDigit_digitChar radix small number single
        have zero := toDigit_digitChar radix small 0 (by omega)
        rw [isZero] at read
        exact Option.some_inj.mp (read.symm.trans zero)
      · have several : radix ≤ number := Nat.le_of_not_lt single
        rw [Nat.toDigits_of_base_le atLeastTwo several,
          List.head?_append_of_ne_nil _ Nat.toDigits_ne_nil] at isZero
        have none := ih _ (Nat.div_lt_self (by omega) atLeastTwo) isZero
        have := Nat.div_pos several (by omega)
        omega

/-- The text of a number is read as that number. -/
theorem readNumber_toDigits (atLeastTwo : 1 < radix) (small : radix < 17)
    (fits : number < size) (short : (Nat.toDigits radix number).length ≤ maxDigits)
    (stops : Stops radix rest) :
    (readNumber radix maxDigits allowZeroPrefix size).run
        (Nat.toDigits radix number ++ rest) = some (number, rest) := by
  have digits : readDigits radix maxDigits 0 0 (Nat.toDigits radix number ++ rest) =
      some (number, (Nat.toDigits radix number).length, rest) := by
    rw [readDigits_toDigits atLeastTwo small (by omega), readDigits_of_stops stops,
      Nat.zero_mul, Nat.zero_add, Nat.zero_add]
  have positive : 0 < (Nat.toDigits radix number).length := Nat.length_toDigits_pos
  have prefixed : (!allowZeroPrefix &&
      (Nat.toDigits radix number ++ rest).head? == some '0' &&
      decide ((Nat.toDigits radix number).length > 1)) = false := by
    by_contra refused
    simp only [Bool.not_eq_false, Bool.and_eq_true, beq_iff_eq, decide_eq_true_eq,
      List.head?_append_of_ne_nil _ Nat.toDigits_ne_nil] at refused
    have zero := head_toDigits atLeastTwo small refused.1.2
    rw [zero, Nat.toDigits_of_lt_base (by omega)] at refused
    exact absurd refused.2 (by decide)
  simp only [StateT.run, readNumber, digits, Option.bind_eq_bind, Option.bind_some]
  rw [if_neg (by omega), if_neg (by rw [prefixed]; decide), if_pos fits]

/-- Where no digit comes, no number is read. -/
theorem readNumber_of_stops (stops : Stops radix rest) :
    (readNumber radix maxDigits allowZeroPrefix size).run rest = none := by
  simp only [StateT.run, readNumber, readDigits_of_stops stops, Option.bind_eq_bind,
    Option.bind_some, if_true]

/-- A number leaves the end of what it is read from. -/
theorem suffix_of_readDigits {chars : List Char} {value count : Nat}
    (read : readDigits radix maxDigits result digitCount chars = some (value, count, rest)) :
    rest <:+ chars := by
  induction chars generalizing result digitCount with
  | nil =>
      cases read
      exact List.suffix_rfl
  | cons char chars ih =>
      rw [readDigits] at read
      split at read
      · cases read
        exact List.suffix_rfl
      · split at read
        · cases read
        · exact (ih read).trans (List.suffix_cons char chars)

theorem suffix_of_readNumber {chars : List Char}
    (read : (readNumber radix maxDigits allowZeroPrefix size).run chars =
      some (number, rest)) : rest <:+ chars := by
  simp only [StateT.run, readNumber, Option.bind_eq_bind, Option.bind_eq_some_iff] at read
  rcases read with ⟨⟨value, count, left⟩, digits, passed⟩
  split at passed
  · cases passed
  · split at passed
    · cases passed
    · split at passed
      · cases passed
        exact suffix_of_readDigits digits
      · cases passed

end Numbers

/-! ## Separators -/

section Separators

variable {α : Type} {separator char : Char} {index : Nat} {inner : Parser α}
variable {rest : List Char}

@[simp] theorem run_readGivenChar :
    (readGivenChar separator).run (separator :: rest) = some ((), rest) :=
  if_pos rfl

theorem run_readGivenChar_none (others : separator ∉ rest.head?) :
    (readGivenChar separator).run rest = none := by
  cases rest with
  | nil => rfl
  | cons char rest => exact if_neg fun same => others (congrArg some same)

@[simp] theorem run_readSeparator_zero :
    (readSeparator separator 0 inner).run rest = inner.run rest := rfl

theorem run_readSeparator (later : 0 < index) :
    (readSeparator separator index inner).run (separator :: rest) = inner.run rest := by
  rw [readSeparator, if_pos later, StateT.run_bind, run_readGivenChar]
  rfl

theorem run_readSeparator_none (later : 0 < index) (others : separator ∉ rest.head?) :
    (readSeparator separator index inner).run rest = none := by
  rw [readSeparator, if_pos later, StateT.run_bind, run_readGivenChar_none others]
  rfl

end Separators

/-! ## IPv4 -/

section Ipv4

variable {rest : List Char} {octet : UInt8} {index : Nat}

theorem readNumber_octet (stops : Stops 10 rest) :
    (readNumber 10 3 false (2 ^ 8)).run (Nat.toDigits 10 octet.toNat ++ rest) =
      some (octet.toNat, rest) := by
  apply readNumber_toDigits (by decide) (by decide) octet.toNat_lt _ stops
  rw [Nat.length_toDigits_le_iff (by decide) (by decide)]
  exact octet.toNat_lt.trans (by decide)

theorem run_readOctet_zero (stops : Stops 10 rest) :
    (readOctet 0).run (Nat.toDigits 10 octet.toNat ++ rest) = some (octet, rest) := by
  rw [readOctet, StateT.run_bind, run_readSeparator_zero, readNumber_octet stops]
  exact congrArg (fun octet => some (octet, rest)) UInt8.ofNat_toNat

theorem run_readOctet (later : 0 < index) (stops : Stops 10 rest) :
    (readOctet index).run ('.' :: (Nat.toDigits 10 octet.toNat ++ rest)) =
      some (octet, rest) := by
  rw [readOctet, StateT.run_bind, run_readSeparator later, readNumber_octet stops]
  exact congrArg (fun octet => some (octet, rest)) UInt8.ofNat_toNat

/-- An IPv4 address is read from its text. -/
theorem run_readIpv4Addr (ip : Ipv4Addr) (stops : Stops 10 rest) :
    readIpv4Addr.run (ip.chars ++ rest) = some (ip, rest) := by
  have dot : ∀ more : List Char, Stops 10 ('.' :: more) := by
    intro more char first
    cases first
    decide
  rw [Ipv4Addr.chars, readIpv4Addr]
  simp only [List.append_assoc, List.cons_append]
  rw [StateT.run_bind, run_readOctet_zero (dot _), Option.bind_eq_bind, Option.bind_some,
    StateT.run_bind, run_readOctet (by decide) (dot _), Option.bind_eq_bind, Option.bind_some,
    StateT.run_bind, run_readOctet (by decide) (dot _), Option.bind_eq_bind, Option.bind_some,
    StateT.run_bind, run_readOctet (by decide) stops]
  rfl

theorem run_readIpv4Addr_chars (ip : Ipv4Addr) : readIpv4Addr.run ip.chars = some (ip, []) := by
  have stops : Stops 10 [] := by
    intro char first
    cases first
  rw [← List.append_nil ip.chars, run_readIpv4Addr ip stops]

theorem run_readIpv4Addr_of_stops (stops : Stops 10 rest) :
    readIpv4Addr.run rest = none := by
  simp only [readIpv4Addr, readOctet, StateT.run_bind, run_readSeparator_zero,
    readNumber_of_stops stops, Option.bind_eq_bind, Option.bind_none]

/-- Without a dot there is no IPv4 address. -/
theorem run_readIpv4Addr_of_notMem (noDot : '.' ∉ rest) : readIpv4Addr.run rest = none := by
  rw [readIpv4Addr, StateT.run_bind]
  cases read : (readOctet 0).run rest with
  | none => rfl
  | some result =>
      rcases result with ⟨octet, left⟩
      rw [readOctet, StateT.run_bind, run_readSeparator_zero, Option.bind_eq_bind,
        Option.bind_eq_some_iff] at read
      rcases read with ⟨⟨number, more⟩, digits, same⟩
      cases same
      have others : '.' ∉ more.head? := by
        intro first
        exact noDot ((suffix_of_readNumber digits).subset (List.mem_of_mem_head? first))
      rw [Option.bind_eq_bind, Option.bind_some, StateT.run_bind, readOctet, StateT.run_bind,
        run_readSeparator_none (by decide) others]
      rfl

end Ipv4

/-! ## IPv6 -/

section Ipv6

variable {rest : List Char} {group : UInt16} {groups : List UInt16} {left index : Nat}

/-- Where reading groups stops: at a `::`, or where neither a digit nor a colon comes. -/
def EndsGroups (rest : List Char) : Prop :=
  (∃ more, rest = ':' :: ':' :: more) ∨ Stops 16 rest ∧ ':' ∉ rest.head?

theorem stops_colon (radix : Nat) (more : List Char) : Stops radix (':' :: more) := by
  intro char first
  cases first
  rfl

theorem EndsGroups.stops (ends : EndsGroups rest) : Stops 16 rest := by
  rcases ends with ⟨more, rfl⟩ | ⟨stops, _⟩
  · exact stops_colon 16 _
  · exact stops

theorem endsGroups_nil : EndsGroups [] := by
  right
  constructor
  · intro char first
    cases first
  · exact Option.not_mem_none _

/-- Neither a group nor an IPv4 address comes where reading groups stops. -/
theorem EndsGroups.run_readGroup (ends : EndsGroups rest) (index : Nat) :
    (readGroup index).run rest = none := by
  rw [readGroup, StateT.run_bind]
  cases index with
  | zero => rw [run_readSeparator_zero, readNumber_of_stops ends.stops]; rfl
  | succ index =>
      rcases ends with ⟨more, rfl⟩ | ⟨_, noColon⟩
      · rw [run_readSeparator (Nat.succ_pos _), readNumber_of_stops (stops_colon 16 more)]
        rfl
      · rw [run_readSeparator_none (Nat.succ_pos _) noColon]
        rfl

theorem EndsGroups.run_readIpv4Addr (ends : EndsGroups rest) (index : Nat) :
    (readSeparator ':' index readIpv4Addr).run rest = none := by
  cases index with
  | zero => exact run_readIpv4Addr_of_stops (ends.stops.mono (by decide))
  | succ index =>
      rcases ends with ⟨more, rfl⟩ | ⟨_, noColon⟩
      · rw [run_readSeparator (Nat.succ_pos _)]
        exact run_readIpv4Addr_of_stops (stops_colon 10 more)
      · exact run_readSeparator_none (Nat.succ_pos _) noColon

theorem readGroups_of_ends (ends : EndsGroups rest) :
    readGroups left index rest = (([], false), rest) := by
  cases left with
  | zero => rfl
  | succ left =>
      rw [readGroups, ends.run_readIpv4Addr, ite_self]
      simp only [ends.run_readGroup]

theorem run_readSeparator_ipv4 (noDot : '.' ∉ rest) (index : Nat) :
    (readSeparator ':' index readIpv4Addr).run rest = none := by
  cases index with
  | zero => exact run_readIpv4Addr_of_notMem noDot
  | succ index =>
      by_cases colon : ':' ∈ rest.head?
      · rcases List.head?_eq_some_iff.mp colon with ⟨more, rfl⟩
        rw [run_readSeparator (Nat.succ_pos _)]
        exact run_readIpv4Addr_of_notMem fun member => noDot (List.mem_cons_of_mem _ member)
      · exact run_readSeparator_none (Nat.succ_pos _) colon

theorem readNumber_group (stops : Stops 16 rest) :
    (readNumber 16 4 true (2 ^ 16)).run (Nat.toDigits 16 group.toNat ++ rest) =
      some (group.toNat, rest) := by
  apply readNumber_toDigits (by decide) (by decide) group.toNat_lt _ stops
  rw [Nat.length_toDigits_le_iff (by decide) (by decide)]
  exact group.toNat_lt

theorem run_readGroup_zero (stops : Stops 16 rest) :
    (readGroup 0).run (Nat.toDigits 16 group.toNat ++ rest) = some (group, rest) := by
  rw [readGroup, StateT.run_bind, run_readSeparator_zero, readNumber_group stops]
  exact congrArg (fun group => some (group, rest)) UInt16.ofNat_toNat

theorem run_readGroup (later : 0 < index) (stops : Stops 16 rest) :
    (readGroup index).run (':' :: (Nat.toDigits 16 group.toNat ++ rest)) =
      some (group, rest) := by
  rw [readGroup, StateT.run_bind, run_readSeparator later, readNumber_group stops]
  exact congrArg (fun group => some (group, rest)) UInt16.ofNat_toNat

/-- The groups that follow another, each behind its separator. -/
def laterGroups (groups : List UInt16) : List Char :=
  groups.flatMap fun group => ':' :: Nat.toDigits 16 group.toNat

theorem laterGroups_cons (group : UInt16) (groups : List UInt16) :
    laterGroups (group :: groups) ++ rest =
      ':' :: (Nat.toDigits 16 group.toNat ++ (laterGroups groups ++ rest)) := by
  simp only [laterGroups, List.flatMap_cons, List.cons_append, List.append_assoc]

theorem fmtSubslice_cons (group : UInt16) (groups : List UInt16) :
    Ipv6Addr.fmtSubslice (group :: groups) ++ rest =
      Nat.toDigits 16 group.toNat ++ (laterGroups groups ++ rest) :=
  List.append_assoc _ _ _

theorem stops_laterGroups (ends : EndsGroups rest) :
    Stops 16 (laterGroups groups ++ rest) := by
  cases groups with
  | nil => exact ends.stops
  | cons group groups =>
      rw [laterGroups_cons]
      exact stops_colon 16 _

theorem dot_notMem_toDigits {radix : Nat} (atLeastTwo : 1 < radix) (small : radix < 17)
    (number : Nat) : '.' ∉ Nat.toDigits radix number := by
  induction number using Nat.strongRecOn with
  | ind number ih =>
      have dot : ∀ digit < 17, '.' ≠ Nat.digitChar digit := by decide
      by_cases single : number < radix
      · rw [Nat.toDigits_of_lt_base single, List.mem_singleton]
        exact dot number (by omega)
      · have below : number % radix < radix := Nat.mod_lt _ (by omega)
        have smaller : number / radix < number :=
          Nat.div_lt_self (by omega) atLeastTwo
        rw [Nat.toDigits_of_base_le atLeastTwo (Nat.le_of_not_lt single), List.mem_append,
          not_or, List.mem_singleton]
        exact ⟨ih _ smaller, dot _ (by omega)⟩

theorem dot_notMem_laterGroups (groups : List UInt16) : '.' ∉ laterGroups groups := by
  intro dot
  rcases List.mem_flatMap.mp dot with ⟨group, _, inGroup⟩
  rcases List.mem_cons.mp inGroup with colon | digit
  · exact absurd colon (by decide)
  · exact dot_notMem_toDigits (by decide) (by decide) _ digit

theorem dot_notMem_fmtSubslice (groups : List UInt16) :
    '.' ∉ Ipv6Addr.fmtSubslice groups := by
  cases groups with
  | nil => exact List.not_mem_nil
  | cons group groups =>
      rw [Ipv6Addr.fmtSubslice, List.mem_append, not_or]
      exact ⟨dot_notMem_toDigits (by decide) (by decide) _, dot_notMem_laterGroups groups⟩

theorem readGroups_laterGroups (later : 0 < index) (fits : groups.length ≤ left)
    (ends : EndsGroups rest) (noDot : '.' ∉ rest) :
    readGroups left index (laterGroups groups ++ rest) = ((groups, false), rest) := by
  induction groups generalizing left index with
  | nil => exact readGroups_of_ends ends
  | cons group groups ih =>
      cases left with
      | zero => cases fits
      | succ left =>
          have noDotHere : '.' ∉ laterGroups (group :: groups) ++ rest := by
            rw [List.mem_append, not_or]
            exact ⟨dot_notMem_laterGroups _, noDot⟩
          rw [readGroups, run_readSeparator_ipv4 noDotHere, ite_self, laterGroups_cons,
            run_readGroup later (stops_laterGroups ends)]
          simp only [ih (Nat.succ_pos index) (Nat.le_of_succ_le_succ fits)]

/-- Groups are read from a part of the text. -/
theorem readGroups_fmtSubslice (fits : groups.length ≤ left) (ends : EndsGroups rest)
    (noDot : '.' ∉ rest) :
    readGroups left 0 (Ipv6Addr.fmtSubslice groups ++ rest) = ((groups, false), rest) := by
  cases groups with
  | nil => exact readGroups_of_ends ends
  | cons group groups =>
      cases left with
      | zero => cases fits
      | succ left =>
          have noDotHere : '.' ∉ Ipv6Addr.fmtSubslice (group :: groups) ++ rest := by
            rw [List.mem_append, not_or]
            exact ⟨dot_notMem_fmtSubslice _, noDot⟩
          rw [readGroups, run_readSeparator_ipv4 noDotHere, ite_self, fmtSubslice_cons,
            run_readGroup_zero (stops_laterGroups ends)]
          simp only [readGroups_laterGroups Nat.one_pos (Nat.le_of_succ_le_succ fits) ends
            noDot]

end Ipv6

end Parser

/-! ## Spans of zeros -/

namespace Ipv6Addr

/-- All segments of the span are zero. -/
def IsZeros (segments : List UInt16) (span : Span) : Prop :=
  ∀ index, span.start ≤ index → index < span.start + span.len → segments[index]? = some 0

theorem isZeros_longestZeros {segments done rest : List UInt16} {longest current : Span}
    (split : segments = done ++ rest) (found : IsZeros segments longest)
    (here : IsZeros segments current)
    (adjacent : current.len ≠ 0 → current.start + current.len = done.length) :
    IsZeros segments (longestZeros done.length longest current rest) := by
  induction rest generalizing done longest current with
  | nil => exact found
  | cons segment rest ih =>
      have splitNext : segments = (done ++ [segment]) ++ rest := by
        rw [split, List.append_assoc, List.singleton_append]
      have lengthNext : (done ++ [segment]).length = done.length + 1 := by
        rw [List.length_append, List.length_singleton]
      rw [longestZeros, ← lengthNext]
      split
      · next zero =>
          have atEnd : segments[done.length]? = some 0 := by
            rw [split, List.getElem?_append_right Nat.le.refl, Nat.sub_self, zero]
            rfl
          have ends : (if current.len = 0 then done.length else current.start) +
              current.len = done.length := by
            split <;> omega
          have goesOn (nonempty : current.len ≠ 0) :
              (if current.len = 0 then done.length else current.start) = current.start :=
            if_neg nonempty
          generalize (if current.len = 0 then done.length else current.start) = start
            at ends goesOn
          have grown : IsZeros segments ⟨start, current.len + 1⟩ := by
            intro index fromStart toEnd
            by_cases last : index = done.length
            · rw [last, atEnd]
            · dsimp only at fromStart toEnd
              have nonempty : current.len ≠ 0 := by omega
              rw [goesOn nonempty] at fromStart ends
              exact here index fromStart (by omega)
          apply ih splitNext
          · split_ifs
            · exact grown
            · exact found
          · exact grown
          · intro _
            rw [lengthNext, ← Nat.add_assoc, ends]
      · apply ih splitNext found
        · intro index fromStart toEnd
          exact absurd toEnd (Nat.not_lt_of_le fromStart)
        · intro nonempty
          exact absurd rfl nonempty

/-- What is left out of the text is zero. -/
theorem append_zeros {segments : List UInt16} {span : Span} (nonempty : 0 < span.len)
    (zeros : IsZeros segments span) :
    segments = segments.take span.start ++ (List.replicate span.len 0 ++
      segments.drop (span.start + span.len)) := by
  have inRange : span.start + span.len ≤ segments.length := by
    have last := zeros (span.start + span.len - 1) (by omega) (by omega)
    have := (List.getElem?_eq_some_iff.mp last).1
    omega
  have isZero : (segments.drop span.start).take span.len = List.replicate span.len 0 := by
    apply List.ext_getElem?
    intro index
    rw [List.getElem?_take, List.getElem?_drop, List.getElem?_replicate]
    split
    · next inside => rw [zeros _ (Nat.le_add_right _ _) (Nat.add_lt_add_left inside _)]
    · rfl
  rw [← isZero, ← List.drop_drop, List.take_append_drop, List.take_append_drop]

/-- The segments between the two parts are zero. -/
theorem ofParts_eq {ip : Ipv6Addr} {head tail : List UInt16} {zeros : Nat}
    (parts : ip.segments = head ++ (List.replicate zeros 0 ++ tail)) :
    ofParts head tail = ip := by
  have total := ip.length_eq
  rw [parts, List.length_append, List.length_append, List.length_replicate] at total
  rw [ofParts, Ipv6Addr.mk.injEq, parts]
  apply List.ext_getElem
  · rw [List.length_ofFn, List.length_append, List.length_append, List.length_replicate,
      total]
  · intro index inFirst inSecond
    rw [List.length_ofFn] at inFirst
    simp only [List.getElem_ofFn, List.getElem_append, List.getElem_replicate,
      List.length_replicate, List.getD_eq_getElem?_getD]
    by_cases inTail : index < 8 - tail.length
    · rw [if_pos inTail]
      split_ifs
      · rw [List.getElem?_eq_getElem, Option.getD_some]
      · rw [List.getElem?_eq_none (by omega), Option.getD_none]
      · omega
    · have behind : index - (8 - tail.length) = index - head.length - zeros := by omega
      rw [if_neg inTail, dif_neg (by omega), dif_neg (by omega), behind,
        List.getElem?_eq_getElem, Option.getD_some]

theorem ofParts_segments (ip : Ipv6Addr) : ofParts ip.segments [] = ip := by
  have parts : ip.segments = ip.segments ++ (List.replicate 0 0 ++ []) := by
    rw [List.replicate_zero, List.nil_append, List.append_nil]
  exact ofParts_eq parts

/-- The segments of an address that stands for an IPv4 address. -/
theorem segments_of_toIpv4Mapped {ip : Ipv6Addr} {ipv4 : Ipv4Addr}
    (mapped : ip.toIpv4Mapped = some ipv4) :
    ip.segments = List.replicate 5 0 ++ 0xffff :: ipv4.segments := by
  unfold toIpv4Mapped at mapped
  split at mapped
  · next high low segments =>
      cases mapped
      have ofParts (segment : UInt16) :
          UInt16.ofNat ((UInt8.ofNat (segment.toNat / 256)).toNat * 256 +
            (UInt8.ofNat (segment.toNat % 256)).toNat) = segment := by
        have high : segment.toNat / 256 < 256 := by
          have := segment.toNat_lt
          omega
        have low : segment.toNat % 256 < 256 := Nat.mod_lt _ (by decide)
        rw [UInt8.toNat_ofNat_of_lt' high, UInt8.toNat_ofNat_of_lt' low, Nat.div_add_mod',
          UInt16.ofNat_toNat]
      rw [segments, Ipv4Addr.segments, ofParts, ofParts]
      rfl
  · cases mapped

end Ipv6Addr

/-! ## Round trips -/

namespace Parser

section Ipv6Text

variable {rest : List Char}

theorem run_readIpv6Addr_full (ip : Ipv6Addr) (ends : EndsGroups rest) (noDot : '.' ∉ rest) :
    readIpv6Addr.run (Ipv6Addr.fmtSubslice ip.segments ++ rest) = some (ip, rest) := by
  have groups : readGroups 8 0 (Ipv6Addr.fmtSubslice ip.segments ++ rest) =
      ((ip.segments, false), rest) :=
    readGroups_fmtSubslice ip.length_eq.le ends noDot
  simp only [StateT.run, readIpv6Addr, groups]
  rw [if_pos ip.length_eq, Ipv6Addr.ofParts_segments]

/-- Two parts with a `::` between them. -/
theorem run_readIpv6Addr_of_parts {chars more : List Char} {head tail : List UInt16}
    {embedded : Bool} (inHead : readGroups 8 0 chars = ((head, false), ':' :: ':' :: more))
    (short : head.length ≠ 8)
    (inTail : readGroups (8 - (head.length + 1)) 0 more = ((tail, embedded), rest)) :
    readIpv6Addr.run chars = some (.ofParts head tail, rest) := by
  simp only [StateT.run, readIpv6Addr, inHead]
  rw [if_neg short, if_neg Bool.false_ne_true]
  simp only [readGivenChar, if_true, Option.bind_eq_bind, Option.bind_some, inTail]

theorem run_readIpv6Addr_compressed {ip : Ipv6Addr} {head tail : List UInt16} {zeros : Nat}
    (several : zeros > 1) (parts : ip.segments = head ++ (List.replicate zeros 0 ++ tail))
    (ends : EndsGroups rest) (noDot : '.' ∉ rest) :
    readIpv6Addr.run (Ipv6Addr.fmtSubslice head ++ "::".toList ++
      Ipv6Addr.fmtSubslice tail ++ rest) = some (ip, rest) := by
  have total := ip.length_eq
  rw [parts, List.length_append, List.length_append, List.length_replicate] at total
  have noDotBehind : '.' ∉ "::".toList ++ (Ipv6Addr.fmtSubslice tail ++ rest) := by
    rw [List.mem_append, List.mem_append, not_or, not_or]
    exact ⟨by decide, dot_notMem_fmtSubslice tail, noDot⟩
  have inTail : readGroups (8 - (head.length + 1)) 0 (Ipv6Addr.fmtSubslice tail ++ rest) =
      ((tail, false), rest) :=
    readGroups_fmtSubslice (by omega) ends noDot
  rw [List.append_assoc, List.append_assoc, ← Ipv6Addr.ofParts_eq parts]
  exact run_readIpv6Addr_of_parts
    (readGroups_fmtSubslice (by omega) (.inl ⟨_, rfl⟩) noDotBehind) (by omega) inTail

/-- The last two segments as an IPv4 address. -/
theorem run_readIpv6Addr_mapped {ip : Ipv6Addr} {ipv4 : Ipv4Addr}
    (parts : ip.segments = List.replicate 5 0 ++ 0xffff :: ipv4.segments)
    (stops : Stops 10 rest) :
    readIpv6Addr.run ("::ffff:".toList ++ ipv4.chars ++ rest) = some (ip, rest) := by
  have inHead : readGroups 8 0 ("::ffff:".toList ++ (ipv4.chars ++ rest)) =
      (([], false), "::ffff:".toList ++ (ipv4.chars ++ rest)) :=
    readGroups_of_ends (.inl ⟨_, rfl⟩)
  have embedded : readGroups 6 1 (':' :: (ipv4.chars ++ rest)) =
      ((ipv4.segments, true), rest) := by
    rw [readGroups, run_readSeparator Nat.one_pos, if_pos (by decide),
      run_readIpv4Addr ipv4 stops]
  have inTail : readGroups 7 0 (Nat.toDigits 16 (0xffff : UInt16).toNat ++
      ':' :: (ipv4.chars ++ rest)) = ((0xffff :: ipv4.segments, true), rest) := by
    have noIpv4 : (readSeparator ':' 0 readIpv4Addr).run
        (Nat.toDigits 16 (0xffff : UInt16).toNat ++ ':' :: (ipv4.chars ++ rest)) = none := by
      apply run_readIpv4Addr_of_stops
      intro char first
      cases first
      decide
    rw [readGroups, noIpv4, ite_self, run_readGroup_zero (stops_colon 16 _)]
    simp only [embedded]
  have same : .ofParts [] (0xffff :: ipv4.segments) = ip :=
    Ipv6Addr.ofParts_eq (by rw [List.nil_append, parts])
  rw [← same, List.append_assoc]
  exact run_readIpv6Addr_of_parts inHead (by decide) inTail

/-- An IPv6 address is read from its text, where no more of it can follow. -/
theorem run_readIpv6Addr (ip : Ipv6Addr) (ends : EndsGroups rest) (noDot : '.' ∉ rest) :
    readIpv6Addr.run (ip.chars ++ rest) = some (ip, rest) := by
  rw [Ipv6Addr.chars]
  cases mapped : ip.toIpv4Mapped with
  | some ipv4 =>
      exact run_readIpv6Addr_mapped (Ipv6Addr.segments_of_toIpv4Mapped mapped)
        (ends.stops.mono (by decide))
  | none =>
      dsimp only
      split_ifs with compressed
      · have zeros : Ipv6Addr.IsZeros ip.segments
            (Ipv6Addr.longestZeros 0 ⟨0, 0⟩ ⟨0, 0⟩ ip.segments) := by
          apply Ipv6Addr.isZeros_longestZeros (List.nil_append _).symm
          · intro index fromStart toEnd
            exact absurd toEnd (Nat.not_lt_of_le fromStart)
          · intro index fromStart toEnd
            exact absurd toEnd (Nat.not_lt_of_le fromStart)
          · intro nonempty
            exact absurd rfl nonempty
        exact run_readIpv6Addr_compressed compressed
          (Ipv6Addr.append_zeros (Nat.zero_lt_of_lt compressed) zeros) ends noDot
      · exact run_readIpv6Addr_full ip ends noDot

end Ipv6Text

/-- What reads as an IPv6 address does not read as an IPv4 address. -/
theorem run_readIpv4Addr_of_ipv6 (ip : Ipv6Addr) : readIpv4Addr.run ip.chars = none := by
  rw [Ipv6Addr.chars]
  cases ip.toIpv4Mapped with
  | some ipv4 => exact run_readIpv4Addr_of_stops (stops_colon 10 _)
  | none =>
      apply run_readIpv4Addr_of_notMem
      dsimp only
      split_ifs
      · rw [List.mem_append, List.mem_append, not_or, not_or]
        exact ⟨⟨dot_notMem_fmtSubslice _, by decide⟩, dot_notMem_fmtSubslice _⟩
      · exact dot_notMem_fmtSubslice _

end Parser

/-- An address is read from its text. -/
theorem IpAddr.fromStr_toString (ip : IpAddr) : IpAddr.fromStr ip.toString = some ip := by
  cases ip with
  | v4 ip =>
      have read := Parser.run_readIpv4Addr_chars ip
      simp only [fromStr, toString, String.toList_ofList, StateT.run, Parser.readIpAddr]
      simp only [StateT.run] at read
      rw [read]
  | v6 ip =>
      have noIpv4 := Parser.run_readIpv4Addr_of_ipv6 ip
      have read := Parser.run_readIpv6Addr ip Parser.endsGroups_nil List.not_mem_nil
      rw [List.append_nil] at read
      simp only [StateT.run] at noIpv4 read
      simp only [fromStr, toString, String.toList_ofList, StateT.run, Parser.readIpAddr]
      rw [noIpv4, read]
      rfl

theorem IpAddr.toString_injective : Function.Injective IpAddr.toString := by
  intro first second same
  have read := congrArg IpAddr.fromStr same
  rwa [fromStr_toString, fromStr_toString, Option.some_inj] at read

end Gruezi.Rust
