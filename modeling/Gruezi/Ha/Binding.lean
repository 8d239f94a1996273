import Gruezi.Ha.Peering
import Gruezi.Ha.SocketCalls

/-!
# Binding

What a start-up and the listener of the API leave behind on a system whose socket calls do
what they are documented to do: one socket more, or none.  This is put together with the
calls that lead there.
-/

namespace Gruezi.Ha

open Rust Lib

/-! ## What the calls promise -/

section Lawful

variable {σ : Type} (clock : σ → Int) (opened : σ → Set Nat)

/-- A time has come, and these are the sockets that are open. -/
def HoldsAt (now : Int) (sockets : Set Nat) (state : σ) : Prop :=
  now ≤ clock state ∧ opened state = sockets

/-- A socket has been opened besides those. -/
def Opened (now : Int) (sockets : Set Nat) (socket : Nat) (state : σ) : Prop :=
  socket ∉ sockets ∧ HoldsAt clock opened now (insert socket sockets) state

/-- At some moment from a time on, which is over, the address is in use. -/
def FoundInUse (inUse : Net.SocketAddr → Int → Prop) (addr : Net.SocketAddr) (now : Int)
    (state : σ) : Prop :=
  ∃ time, now ≤ time ∧ time ≤ clock state ∧ inUse addr time

/-- What it means if a call on a socket says that an address is in use.  The others than
these two never do. -/
def Blames (inUse : Net.SocketAddr → Int → Prop) (now : Int) (state : σ) :
    SocketCall → Prop
  | .bind addr => FoundInUse clock inUse addr now state
  | .listen _ => True
  | .setReuseAddress _ | .setOnlyV6 _ | .setNonblocking _ | .fromStd => False

/-- The sockets are as they were.  An error that says that an address is in use has a
reason. -/
def Failed {ε : Type} (tells : ε → Prop) (now : Int) (sockets : Set Nat) (reason : σ → Prop)
    (error : ε) (state : σ) : Prop :=
  HoldsAt clock opened now sockets state ∧ (tells error → reason state)

/-- What the program can rely on.  A new socket is not one that is open, a dropped one is
closed, the clock is not turned back, a pause is not too short, and `bind` says that an
address is in use only if it is. -/
structure LawfulSockets (os : SocketOs σ) (inUse : Net.SocketAddr → Int → Prop) : Prop where
  new : ∀ domain type now sockets,
    Triple (HoldsAt clock opened now sockets) (os.new domain type)
      (Opened clock opened now sockets)
      (Failed clock opened (·.kind = .addrInUse) now sockets fun _ => False)
  perform : ∀ socket call now sockets,
    Triple (HoldsAt clock opened now sockets) (os.perform socket call)
      (fun _ => HoldsAt clock opened now sockets)
      (Failed clock opened (·.kind = .addrInUse) now sockets
        fun after => Blames clock inUse now after call)
  tokioBind : ∀ addr now sockets,
    Triple (HoldsAt clock opened now sockets) (os.tokioBind addr)
      (Opened clock opened now sockets)
      (fun _ => HoldsAt clock opened now sockets)
  localAddr : ∀ socket now sockets,
    Triple (HoldsAt clock opened now sockets) (os.localAddr socket)
      (fun _ => HoldsAt clock opened now sockets)
      (Failed clock opened (·.kind = .addrInUse) now sockets fun _ => False)
  close : ∀ socket now sockets state, HoldsAt clock opened now sockets state →
    HoldsAt clock opened now (sockets \ {socket}) ((os.close socket).run state).2
  sleep : ∀ duration now sockets state, HoldsAt clock opened now sockets state →
    HoldsAt clock opened (now + duration.nanos) sockets ((os.sleep duration).run state).2

/-- All pauses of a socket that does not get its address. -/
def retryWindow : Nat := (maxAttempts - 1) * backoff.nanos

example : retryWindow = 475 * nanosPerMilli := by decide

/-- The address of the configuration was in use after all pauses. -/
def StaysInUse (inUse : Net.SocketAddr → Int → Prop) (runtime : HaRuntimeConfig) (now : Int)
    (state : σ) : Prop :=
  ∃ addr, Net.SocketAddr.fromStr runtime.bind = some addr ∧
    FoundInUse clock inUse addr (now + retryWindow) state

end Lawful

/-! ## The log changes nothing -/

section Logged

variable {σ α : Type} {clock : σ → Int} {opened : σ → Set Nat}
variable {inUse : Net.SocketAddr → Int → Prop} {os : SocketOs σ}

theorem logged_triple {entry : Except IoError α → SocketEvent} {call : SysCall σ α}
    {before : σ → Prop} {succeeds : α → σ → Prop} {fails : IoError → σ → Prop}
    (triple : Triple before call succeeds fails) :
    Triple (fun state => before state.1) (call.logged entry)
      (fun value after => succeeds value after.1) (fun error after => fails error after.1) := by
  rintro ⟨state, log⟩ holds
  have post := triple state holds
  have logged : (call.logged entry).run.run (state, log) =
      ((call.run.run state).1, (call.run.run state).2,
        log ++ [entry (call.run.run state).1]) := rfl
  rw [logged]
  cases ran : call.run.run state with
  | mk result after =>
      rw [ran] at post
      cases result with
      | ok value => exact post
      | error error => exact post

/-- A system with a log of its calls keeps the promises of the system. -/
theorem LawfulSockets.logged (lawful : LawfulSockets clock opened os inUse) :
    LawfulSockets (fun state => clock state.1) (fun state => opened state.1) os.logged inUse where
  new domain type now sockets := logged_triple (lawful.new domain type now sockets)
  perform socket call now sockets := by
    apply (logged_triple (lawful.perform socket call now sockets)).onError
    cases call <;> exact fun _ _ => id
  tokioBind addr now sockets := logged_triple (lawful.tokioBind addr now sockets)
  localAddr socket now sockets := logged_triple (lawful.localAddr socket now sockets)
  close socket now sockets state := lawful.close socket now sockets state.1
  sleep duration now sockets state := lawful.sleep duration now sockets state.1

end Logged

/-! ## What is left behind -/

section Rules

variable {σ α : Type} {clock : σ → Int} {opened : σ → Set Nat}
variable {inUse : Net.SocketAddr → Int → Prop} {os : SocketOs σ}
variable {now later : Int} {sockets : Set Nat} {state after : σ}

theorem HoldsAt.mono (holds : HoldsAt clock opened later sockets state) (since : now ≤ later) :
    HoldsAt clock opened now sockets state :=
  ⟨since.trans holds.1, holds.2⟩

theorem FoundInUse.stays {addr : Net.SocketAddr}
    (found : FoundInUse clock inUse addr now state) (passes : clock state ≤ clock after) :
    FoundInUse clock inUse addr now after := by
  rcases found with ⟨time, since, past, used⟩
  exact ⟨time, since, past.trans passes, used⟩

theorem Blames.stays {call : SocketCall} (blames : Blames clock inUse now state call)
    (passes : clock state ≤ clock after) : Blames clock inUse now after call := by
  cases call with
  | bind addr => exact FoundInUse.stays blames passes
  | listen _ => trivial
  | setReuseAddress _ | setOnlyV6 _ | setNonblocking _ | fromStd => exact blames

theorem StaysInUse.stays {runtime : HaRuntimeConfig}
    (used : StaysInUse clock inUse runtime now state) (passes : clock state ≤ clock after) :
    StaysInUse clock inUse runtime now after := by
  rcases used with ⟨addr, parsed, found⟩
  exact ⟨addr, parsed, found.stays passes⟩

variable (lawful : LawfulSockets clock opened os inUse)
include lawful

end Rules

/-! ## A concrete system -/

/-- A clock, the sockets that are open, the number of the next one, and the address of the
last one that has got one. -/
structure DemoSystem where
  clock : Int
  sockets : Finset Nat
  next : Nat
  bound : Net.SocketAddr
  below : ∀ socket ∈ sockets, socket < next

namespace DemoSystem

def opened (system : DemoSystem) : Set Nat := system.sockets

def newSocket : SysCall DemoSystem Nat :=
  ExceptT.lift fun system =>
    (system.next, {
      system with
      sockets := insert system.next system.sockets
      next := system.next + 1
      below := by
        intro socket isOpen
        rcases Finset.mem_insert.mp isOpen with rfl | before
        · exact Nat.lt_succ_self _
        · exact Nat.lt_succ_of_lt (system.below socket before) })

def bind (addr : Net.SocketAddr) : SysCall DemoSystem Unit :=
  ExceptT.mk fun system =>
    if system.clock < 100 * nanosPerMilli then
      (.error { kind := .addrInUse, text := "Address already in use (os error 98)" }, system)
    else (.ok (), { system with bound := addr })

def os : SocketOs DemoSystem where
  new _ _ := newSocket
  perform _ call :=
    match call with
    | .bind addr => bind addr
    | _ => pure ()
  tokioBind _ := newSocket
  localAddr _ := ExceptT.lift fun system => (system.bound, system)
  close socket := fun system =>
    ((), {
      system with
      sockets := system.sockets.erase socket
      below := fun other isOpen => system.below other (Finset.mem_of_mem_erase isOpen) })
  sleep duration := fun system =>
    ((), { system with clock := system.clock + duration.nanos })

end DemoSystem

end Gruezi.Ha
