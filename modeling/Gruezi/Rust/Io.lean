import Gruezi.Rust.Text

/-!
# Errors and socket addresses

`Error` is the fragment of `anyhow::Error` the program builds and inspects: a
message, a wrapped standard-library error, or a context laid over another
error.  Its display text is the outermost message, and its chain is walked for
an `io::Error`.
-/

namespace Gruezi.Rust

/-- The `std::io::ErrorKind` values the program distinguishes, with one value
for every kind it treats alike. -/
inductive ErrorKind where
  | permissionDenied
  | hostUnreachable
  | networkUnreachable
  | connectionRefused
  | connectionReset
  | brokenPipe
  | timedOut
  | addrInUse
  | invalidInput
  | other
  deriving DecidableEq, Repr

/-- `std::io::Error`, with its display text. -/
structure IoError where
  kind : ErrorKind
  text : String
  deriving DecidableEq, Repr

/-- `anyhow::Error`. -/
inductive Error where
  | msg (text : String)
  | utf8 (error : Utf8Error)
  | io (error : IoError)
  | context (text : String) (source : Error)
  deriving DecidableEq, Repr

namespace Error

/-- `impl Display for anyhow::Error`: the outermost message only. -/
def toString : Error → String
  | msg text => text
  | utf8 error => error.toString
  | io error => error.text
  | context text _ => text

/-- `error.chain().filter_map(|cause| cause.downcast_ref::<io::Error>())`. -/
def ioCauses : Error → List IoError
  | msg _ => []
  | utf8 _ => []
  | io error => [error]
  | context _ source => source.ioCauses

end Error

/-- The `?` operator: a sequence succeeds when its first part does, with a value
on which the rest succeeds. -/
@[simp] theorem bind_eq_ok {ε α β : Type} {first : Except ε α}
    {next : α → Except ε β} {result : β} :
    (first >>= next) = .ok result ↔
      ∃ value, first = .ok value ∧ next value = .ok result := by
  cases first with
  | error error => simp [bind, Except.bind]
  | ok value => simp [bind, Except.bind]

/-- The characters a printed socket address is made of. -/
def isAddressChar (char : Char) : Bool :=
  char.isDigit || ('a' ≤ char && char ≤ 'f') || char == '.' || char == ':' ||
    char == '[' || char == ']' || char == '%'

/-- `std::net::SocketAddr`.  The program only prints the addresses it receives,
so an address is its printed form. -/
structure SocketAddr where
  text : String
  printed : text.toList.all isAddressChar = true
  deriving DecidableEq, Repr

end Gruezi.Rust
