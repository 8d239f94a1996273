import Gruezi.Ha.StartUp
import Gruezi.Lib.Logs

/-!
# Socket calls

The calls that a start-up and the listener of the API make, with what they return in the
end.  It is said of every operating system, from its log: which calls are made, in which
order, on which socket, and that each socket is closed again unless it is returned.
-/

namespace Gruezi.Ha

open Rust Lib

/-! ## One socket -/

/-- A socket as it is asked for. -/
structure Opening where
  type : SocketType
  backlog : Option Nat
  domain : Domain
  addr : Net.SocketAddr
  onlyV6 : Option Bool

namespace Opening

/-- What is done with the new socket, in order. -/
def setUp (opening : Opening) : List SocketCall :=
  [.setReuseAddress true] ++ opening.onlyV6.toList.map .setOnlyV6 ++ [.bind opening.addr] ++
    opening.backlog.toList.map .listen ++ [.setNonblocking true, .fromStd]

/-- At an address, for its family only. -/
def single (type : SocketType) (backlog : Option Nat) (addr : Net.SocketAddr) : Opening where
  type
  backlog
  domain := if addr.isIpv6 then .ipv6 else .ipv4
  addr
  onlyV6 := if addr.isIpv6 then some true else none

end Opening

/-- Calls on a socket, each made after the success of the one before. -/
inductive Performed (socket : Nat) :
    List SocketCall → List SocketEvent → Except Error Unit → Prop where
  | done : Performed socket [] [] (.ok ())
  | next {call : SocketCall} {rest : List SocketCall} {made : List SocketEvent}
      {result : Except Error Unit} (others : Performed socket rest made result) :
      Performed socket (call :: rest) (.perform socket call (.ok ()) :: made) result
  | failed {call : SocketCall} {rest : List SocketCall} (error : IoError) :
      Performed socket (call :: rest) [.perform socket call (.error error)] (.error (.io error))

/-- A socket is opened and set up, or what has been opened is closed. -/
inductive Opens (opening : Opening) : List SocketEvent → Except Error Nat → Prop where
  | refused (error : IoError) :
      Opens opening [.new opening.domain opening.type (.error error)] (.error (.io error))
  | failed {socket : Nat} {made : List SocketEvent} {error : Error}
      (performed : Performed socket opening.setUp made (.error error)) :
      Opens opening (.new opening.domain opening.type (.ok socket) :: made ++ [.close socket])
        (.error error)
  | opened {socket : Nat} {made : List SocketEvent}
      (performed : Performed socket opening.setUp made (.ok ())) :
      Opens opening (.new opening.domain opening.type (.ok socket) :: made) (.ok socket)

section Logged

variable {σ α : Type} (os : SocketOs σ)

variable {os}

theorem Opens.ioError {opening : Opening} {made : List SocketEvent} {error : Error}
    (opens : Opens opening made (.error error)) : ∃ ioError, error = .io ioError := by
  have performed_ioError : ∀ {socket calls made}, Performed socket calls made (.error error) →
      ∃ ioError, error = .io ioError := by
    intro socket calls made performed
    induction calls generalizing made with
    | nil => cases performed
    | cons call rest ih =>
        cases performed with
        | next others => exact ih others
        | failed ioError => exact ⟨ioError, rfl⟩
  cases opens with
  | refused ioError => exact ⟨ioError, rfl⟩
  | failed performed => exact performed_ioError performed

variable (os)

end Logged

end Gruezi.Ha
