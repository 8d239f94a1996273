import Gruezi.Rust.Net
import Gruezi.Rust.Time

/-!
# Sockets

`std::net::SocketAddr` with its parser and the text the program gives it, from which it is
read back, and the socket calls of an operating system, over the states of that system.
-/

namespace Gruezi.Rust

/-- `std::net::SocketAddrV4`. -/
structure SocketAddrV4 where
  ip : Ipv4Addr
  port : UInt16
  deriving DecidableEq, Repr

/-- `std::net::SocketAddrV6`. -/
structure SocketAddrV6 where
  ip : Ipv6Addr
  port : UInt16
  flowinfo : UInt32
  scopeId : UInt32
  deriving DecidableEq, Repr

/-- `std::net::SocketAddr`, by its parts. -/
inductive Net.SocketAddr where
  | v4 (addr : SocketAddrV4)
  | v6 (addr : SocketAddrV6)
  deriving DecidableEq, Repr

namespace Net.SocketAddr

def isIpv6 : Net.SocketAddr → Bool
  | v4 _ => false
  | v6 _ => true

def port : Net.SocketAddr → UInt16
  | v4 addr => addr.port
  | v6 addr => addr.port

/-- `SocketAddr::new(ip, port)`. -/
def new (ip : IpAddr) (port : UInt16) : Net.SocketAddr :=
  match ip with
  | .v4 ip => v4 { ip, port }
  | .v6 ip => v6 { ip, port, flowinfo := 0, scopeId := 0 }

/-- What of an address is in its text. -/
def shown : Net.SocketAddr → Net.SocketAddr
  | v4 addr => v4 addr
  | v6 addr => v6 { addr with flowinfo := 0, scopeId := 0 }

end Net.SocketAddr

namespace Parser

/-- `read_number` without a limit on the digits. -/
def readLongNumber (radix : Nat) (allowZeroPrefix : Bool) (size : Nat) : Parser Nat
  | chars => (readNumber radix chars.length allowZeroPrefix size).run chars

def readPort : Parser UInt16 := do
  readGivenChar ':'
  let port ← readLongNumber 10 true (2 ^ 16)
  return .ofNat port

def readScopeId : Parser UInt32 := do
  readGivenChar '%'
  let scopeId ← readLongNumber 10 true (2 ^ 32)
  return .ofNat scopeId

/-- `read_scope_id().unwrap_or(0)`, which has read nothing if there is none. -/
def readScopeIdOrZero : Parser UInt32
  | chars => some ((readScopeId.run chars).getD (0, chars))

def readSocketAddrV4 : Parser SocketAddrV4 := do
  let ip ← readIpv4Addr
  let port ← readPort
  return { ip, port }

def readSocketAddrV6 : Parser SocketAddrV6 := do
  readGivenChar '['
  let ip ← readIpv6Addr
  let scopeId ← readScopeIdOrZero
  readGivenChar ']'
  let port ← readPort
  return { ip, port, flowinfo := 0, scopeId }

def readSocketAddr : Parser Net.SocketAddr
  | chars =>
      match readSocketAddrV4.run chars with
      | some (addr, rest) => some (.v4 addr, rest)
      | none => (readSocketAddrV6.run chars).map fun (addr, rest) => (.v6 addr, rest)

end Parser

/-- `impl FromStr for SocketAddr`: nothing may be left. -/
def Net.SocketAddr.fromStr (text : String) : Option Net.SocketAddr :=
  match Parser.readSocketAddr.run text.toList with
  | some (addr, []) => some addr
  | some (_, _ :: _) | none => none

/-! ## Round trip -/

namespace Parser

end Parser

/-- `socket2::Domain`. -/
inductive Domain where
  | ipv4
  | ipv6
  deriving DecidableEq, Repr

/-- `socket2::Type`, for UDP and TCP. -/
inductive SocketType where
  | dgram
  | stream
  deriving DecidableEq, Repr

/-- The calls on a socket that return nothing. -/
inductive SocketCall where
  | setReuseAddress (reuse : Bool)
  | setOnlyV6 (onlyV6 : Bool)
  | bind (addr : Net.SocketAddr)
  | listen (backlog : Nat)
  | setNonblocking (nonblocking : Bool)
  /-- The socket is handed to the runtime. -/
  | fromStd
  deriving DecidableEq, Repr

/-- A call that changes the state of the system. -/
abbrev SysCall (σ α : Type) := ExceptT IoError (StateM σ) α

/-- What the program asks of an operating system, in the states `σ`, to open sockets.  A
socket is known by a number, and `tokioBind` is `TcpListener::bind` of the runtime. -/
structure SocketOs (σ : Type) where
  new : Domain → SocketType → SysCall σ Nat
  perform : Nat → SocketCall → SysCall σ Unit
  tokioBind : Net.SocketAddr → SysCall σ Nat
  localAddr : Nat → SysCall σ Net.SocketAddr
  /-- The socket is dropped. -/
  close : Nat → StateM σ Unit
  /-- `std::thread::sleep`. -/
  sleep : Duration → StateM σ Unit

/-- A call that has been made, with what it has returned. -/
inductive SocketEvent where
  | new (domain : Domain) (type : SocketType) (result : Except IoError Nat)
  | perform (socket : Nat) (call : SocketCall) (result : Except IoError Unit)
  | tokioBind (addr : Net.SocketAddr) (result : Except IoError Nat)
  | localAddr (socket : Nat) (result : Except IoError Net.SocketAddr)
  | close (socket : Nat)
  | sleep (duration : Duration)
  deriving DecidableEq

section Logged

variable {σ α : Type}

/-- The call, with an entry in the log. -/
def SysCall.logged (entry : Except IoError α → SocketEvent) (call : SysCall σ α) :
    SysCall (σ × List SocketEvent) α :=
  ExceptT.mk fun (state, log) =>
    let (result, after) := call.run.run state
    (result, after, log ++ [entry result])

/-- An action that cannot fail, with an entry in the log. -/
def logAction (entry : SocketEvent) (action : StateM σ Unit) :
    StateM (σ × List SocketEvent) Unit :=
  fun (state, log) => ((), (action.run state).2, log ++ [entry])

/-- The same system, with a log of its calls. -/
def SocketOs.logged (os : SocketOs σ) : SocketOs (σ × List SocketEvent) where
  new domain type := (os.new domain type).logged (.new domain type)
  perform socket call := (os.perform socket call).logged (.perform socket call)
  tokioBind addr := (os.tokioBind addr).logged (.tokioBind addr)
  localAddr socket := (os.localAddr socket).logged (.localAddr socket)
  close socket := logAction (.close socket) (os.close socket)
  sleep duration := logAction (.sleep duration) (os.sleep duration)

end Logged

end Gruezi.Rust
