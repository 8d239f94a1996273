import Gruezi.Ha.Loop
import Gruezi.Lib.Attempts

/-!
# Address commands

`AddressManager::apply` with the commands it runs, over any monad in which they
are run: on a machine they change the interface, and elsewhere their results are
known in advance.  The loop stops at the first command that fails, so a removal
leaves the addresses behind it in place.
-/

namespace Gruezi.Ha

open Rust Lib

/-- `tokio::process::Command`: a program and its arguments. -/
structure Command where
  program : String
  args : List String
  deriving DecidableEq, Repr

/-- `std::process::Output`: whether the exit status is a success, and the standard
error. -/
structure Output where
  success : Bool
  stderr : Bytes
  deriving DecidableEq, Repr

/-- What `Command::output` yields. -/
abbrev CommandResult := Except IoError Output

def AddressAction.ipSubcommand : AddressAction → String
  | .add => "add"
  | .remove => "del"

def isIgnorableIpError (action : AddressAction) (stderr : Bytes) : Bool :=
  let stderr := fromUtf8Lossy stderr
  match action with
  | .add => containsStr stderr "File exists"
  | .remove => containsStr stderr "Cannot assign requested address"

/-- The programs `apply` runs.  What `announce_address` returns is only logged. -/
structure Programs (m : Type → Type) where
  execute : Command → m CommandResult
  announceAddress : (arpingCommand ndsendCommand interface address : String) →
    m (Except Error Unit)

/-- The command for one address. -/
def ipCommandLine (ipCommand interface address : String) (action : AddressAction) :
    Command where
  program := ipCommand
  args := ["address", action.ipSubcommand, address, "dev", interface]

/-- `run_address_command`, once the command has ended. -/
def checkCommand (ipCommand address : String) (action : AddressAction) :
    CommandResult → Except Error Unit
  | .error error =>
      .error (.context ("failed to execute " ++ ipCommand ++ " for " ++ address) (.io error))
  | .ok output =>
      if output.success || isIgnorableIpError action output.stderr then .ok ()
      else
        .error (.msg ("address action " ++ ipCommand ++ " " ++ action.ipSubcommand ++ " " ++
          address ++ " failed: " ++ fromUtf8Lossy output.stderr))

section Apply

variable {m : Type → Type} [Monad m] (programs : Programs m)

def runAddressCommand (ipCommand interface address : String) (action : AddressAction) :
    ExceptT Error m Unit := do
  if isBlank ipCommand then
    throw (.msg "ip command path cannot be empty")
  else
    let result ← ExceptT.lift (programs.execute
      (ipCommandLine ipCommand interface address action))
    ExceptT.mk (pure (checkCommand ipCommand address action result))

/-- One pass of the loop of `apply`. -/
def AddressManager.applyOne (manager : AddressManager) (action : AddressAction)
    (address : String) : ExceptT Error m Unit := do
  runAddressCommand programs manager.ipCommand manager.interface address action
  if action = .add then
    let _ ← ExceptT.lift (programs.announceAddress manager.arpingCommand
      manager.ndsendCommand manager.interface address)

def AddressManager.apply (manager : AddressManager) (action : AddressAction) :
    ExceptT Error m Unit :=
  forM manager.addresses (manager.applyOne programs action)

end Apply

/-- Programs that run these commands, where nothing depends on announcements. -/
def Programs.ofExecute {m : Type → Type} [Monad m] (execute : Command → m CommandResult) :
    Programs m where
  execute
  announceAddress _ _ _ _ := pure (.ok ())

/-! ## The result of a command -/

/-- The command succeeded, or failed in a way that does not matter. -/
def succeeds (action : AddressAction) : CommandResult → Bool
  | .error _ => false
  | .ok output => output.success || isIgnorableIpError action output.stderr

@[simp] theorem isOk_checkCommand (ipCommand address : String) (action : AddressAction)
    (result : CommandResult) :
    (checkCommand ipCommand address action result).isOk = succeeds action result := by
  cases result with
  | error error => rfl
  | ok output =>
      rw [checkCommand, succeeds]
      split
      · next passes => rw [passes]; rfl
      · next fails => rw [Bool.not_eq_true] at fails; rw [fails]; rfl

section ApplyOne

variable {m : Type → Type} [Monad m] [LawfulMonad m] (execute : Command → m CommandResult)
variable {manager : AddressManager}

/-- Without the path of a program nothing is run. -/
theorem run_applyOne_of_blank (action : AddressAction) (address : String)
    (blank : isBlank manager.ipCommand = true) :
    (manager.applyOne (.ofExecute execute) action address).run =
      pure (.error (.msg "ip command path cannot be empty")) := by
  simp [AddressManager.applyOne, runAddressCommand, blank]

theorem run_applyOne (action : AddressAction) (address : String)
    (notBlank : isBlank manager.ipCommand = false) :
    (manager.applyOne (.ofExecute execute) action address).run =
      checkCommand manager.ipCommand address action <$>
        execute (ipCommandLine manager.ipCommand manager.interface address action) := by
  cases action <;> simp [AddressManager.applyOne, runAddressCommand, notBlank, Programs.ofExecute]

end ApplyOne

/-! ## Results that come in -/

namespace AddressManager

variable (manager : AddressManager) (action : AddressAction)

/-- `apply` on the results its commands have had so far, with those it has not needed:
none as long as it waits for the next. -/
def applyTo (results : List CommandResult) :
    Option (Except Error Unit × List CommandResult) :=
  (manager.apply (.ofExecute fun _ => nextReply) action).run.run results

/-- `apply` waits for its next command, or has returned with the last. -/
def Fed (results : List CommandResult) : Prop :=
  manager.applyTo action results = none ∨
    ∃ result, manager.applyTo action results = some (result, [])

/-- No command has failed, and there is a program to run if there is an address. -/
def AllSucceed (results : List CommandResult) : Prop :=
  (manager.addresses = [] ∨ isBlank manager.ipCommand = false) ∧
    ∀ result ∈ results, succeeds action result = true

variable {manager action} {results : List CommandResult}

theorem asksOnce (notBlank : isBlank manager.ipCommand = false) :
    AsksOnce (manager.applyOne (.ofExecute fun _ => nextReply) action) fun address =>
      checkCommand manager.ipCommand address action := by
  constructor <;> intro address
  · rw [run_applyOne _ _ _ notBlank]
    rfl
  · intro result rest
    rw [run_applyOne _ _ _ notBlank]
    rfl

/-- Without the path of a program `apply` fails at the first address. -/
theorem applyTo_of_blank (blank : isBlank manager.ipCommand = true)
    (nonempty : manager.addresses ≠ []) :
    ∃ error, manager.applyTo action results = some (.error error, results) := by
  rcases List.exists_cons_of_ne_nil nonempty with ⟨address, rest, addresses⟩
  rw [applyTo, apply, addresses, forM_replies_cons, run_applyOne_of_blank _ _ _ blank]
  exact ⟨_, rfl⟩

theorem applyTo_of_empty (empty : manager.addresses = []) :
    manager.applyTo action results = some (.ok (), results) := by
  rw [applyTo, apply, empty]
  rfl

theorem notBlank_of_waiting (waiting : manager.applyTo action results = none) :
    manager.addresses ≠ [] ∧ isBlank manager.ipCommand = false := by
  have nonempty : manager.addresses ≠ [] := by
    intro empty
    cases waiting.symm.trans (applyTo_of_empty empty)
  refine ⟨nonempty, ?_⟩
  cases blank : isBlank manager.ipCommand with
  | false => rfl
  | true =>
      rcases applyTo_of_blank blank nonempty with ⟨error, returned⟩
      cases waiting.symm.trans returned

theorem fed_nil (manager : AddressManager) (action : AddressAction) :
    manager.Fed action [] := by
  cases addresses : manager.addresses with
  | nil => exact .inr ⟨_, applyTo_of_empty addresses⟩
  | cons address rest =>
      cases blank : isBlank manager.ipCommand with
      | true =>
          have nonempty : manager.addresses ≠ [] := by simp [addresses]
          rcases applyTo_of_blank blank nonempty with ⟨_, returned⟩
          exact .inr ⟨_, returned⟩
      | false =>
          left
          rw [applyTo, apply, addresses, forM_replies_cons, (asksOnce blank).waits]
          rfl

theorem Fed.next (waiting : manager.applyTo action results = none)
    (result : CommandResult) : manager.Fed action (results ++ [result]) :=
  (asksOnce (notBlank_of_waiting waiting).2).next result waiting

/-- `apply` returns `Ok` exactly when no command has failed. -/
theorem Fed.isOk (fed : manager.Fed action results) {result : Except Error Unit}
    {left : List CommandResult}
    (returned : manager.applyTo action results = some (result, left)) :
    result.isOk = true ↔ manager.AllSucceed action results := by
  rcases fed with waiting | ⟨_, usedUp⟩
  · cases waiting.symm.trans returned
  · cases returned.symm.trans usedUp
    by_cases empty : manager.addresses = []
    · cases usedUp.symm.trans (applyTo_of_empty empty)
      exact iff_of_true rfl ⟨.inl empty, fun _ member => absurd member List.not_mem_nil⟩
    · cases blank : isBlank manager.ipCommand with
      | true =>
          rcases applyTo_of_blank blank empty with ⟨_, failed⟩
          cases returned.symm.trans failed
          apply iff_of_false Bool.false_ne_true
          rintro ⟨nothing | notBlank, _⟩
          · exact empty nothing
          · cases blank.symm.trans notBlank
      | false =>
          rw [AllSucceed, and_iff_right (.inr blank)]
          exact (asksOnce blank).isOk (fun _ _ => isOk_checkCommand _ _ _ _) returned

/-- Whatever runs the commands, its results lead `apply` to the same outcome. -/
theorem exists_results {σ : Type} (execute : Command → StateM σ CommandResult)
    (manager : AddressManager) (action : AddressAction) (state : σ) :
    ∃ results, manager.applyTo action results =
      some (((manager.apply (.ofExecute execute) action).run.run state).1, []) := by
  have replays : Replays (manager.apply (.ofExecute fun _ => nextReply) action)
      (manager.apply (.ofExecute execute) action) := by
    apply replays_forM
    intro address state
    cases blank : isBlank manager.ipCommand with
    | true =>
        refine ⟨[], fun more => ?_⟩
        rw [run_applyOne_of_blank _ _ _ blank, run_applyOne_of_blank _ _ _ blank]
        rfl
    | false =>
        rw [run_applyOne execute _ _ blank]
        refine ⟨[((execute (ipCommandLine manager.ipCommand manager.interface address
          action)).run state).1], fun more => ?_⟩
        exact (asksOnce blank).answered _ _ _
  rcases replays state with ⟨results, returned⟩
  refine ⟨results, ?_⟩
  rw [applyTo, ← List.append_nil results]
  exact returned []

end AddressManager

/-! ## Removal on a machine -/

/-- Whether an address is on the interface. -/
abbrev Interface := String → Bool

def AddressManager.delCommand (manager : AddressManager) (address : String) : Command :=
  ipCommandLine manager.ipCommand manager.interface address .remove

/-- The `ip address del` of a machine.  It removes its address, or fails and leaves
the interface as it is.  It says that an address is not present only if it is not. -/
structure IpAddressDel (manager : AddressManager) where
  execute : Command → StateM Interface CommandResult
  removes : ∀ address before output after,
    (execute (manager.delCommand address)).run before = (.ok output, after) →
    output.success = true → after = Function.update before address false
  keeps : ∀ address before result after,
    (execute (manager.delCommand address)).run before = (result, after) →
    (∀ output, result = .ok output → output.success = false) → after = before
  absent : ∀ address before output after,
    (execute (manager.delCommand address)).run before = (.ok output, after) →
    output.success = false → isIgnorableIpError .remove output.stderr = true →
    before address = false

namespace IpAddressDel

variable {manager : AddressManager} (ip : IpAddressDel manager)

/-- `AddressManager::apply(AddressAction::Remove)` on the machine. -/
def applyRemove (interface : Interface) : Except Error Unit × Interface :=
  (manager.apply (.ofExecute ip.execute) .remove).run.run interface

/-- The result of every removal, run in its turn whatever becomes of the others. -/
def results : List String → Interface → List (String × CommandResult)
  | [], _ => []
  | address :: rest, interface =>
      let ran := (ip.execute (manager.delCommand address)).run interface
      (address, ran.1) :: results rest ran.2

end IpAddressDel

/-- The removal of an address can be run, and succeeds. -/
def AddressManager.canRemove (manager : AddressManager) (result : CommandResult) : Bool :=
  !isBlank manager.ipCommand && succeeds .remove result

/-- Afterwards every address whose own removal succeeds is gone, only addresses whose
own removal fails remain, and there is an error if one has failed. -/
structure RemovesAll (manager : AddressManager) (ip : IpAddressDel manager)
    (interface : Interface) : Prop where
  removed : ∀ removal ∈ ip.results manager.addresses interface,
    manager.canRemove removal.2 = true → (ip.applyRemove interface).2 removal.1 = false
  remaining : ∀ address ∈ manager.addresses, (ip.applyRemove interface).2 address = true →
    ∃ removal ∈ ip.results manager.addresses interface,
      removal.1 = address ∧ manager.canRemove removal.2 = false
  reported : (ip.applyRemove interface).1.isOk = false ↔
    ∃ removal ∈ ip.results manager.addresses interface,
      manager.canRemove removal.2 = false

/-- Whatever is behind an address whose removal fails, is present and can be removed,
is in front of it as well. -/
def NoneStranded (manager : AddressManager) (ip : IpAddressDel manager)
    (interface : Interface) : Prop :=
  ∀ before failed after, ip.results manager.addresses interface = before ++ failed :: after →
    manager.canRemove failed.2 = false →
    ∀ removal ∈ after, manager.canRemove removal.2 = true →
      interface removal.1 = true → removal.1 ∈ before.map Prod.fst

section Removal

variable {manager : AddressManager} {ip : IpAddressDel manager} {interface : Interface}

/-- What a command that has ended says about the interface. -/
theorem interface_of_del (ip : IpAddressDel manager) {address : String}
    {before after : Interface} {result : CommandResult}
    (ran : (ip.execute (manager.delCommand address)).run before = (result, after)) :
    after = if succeeds .remove result then Function.update before address false
      else before := by
  cases result with
  | error error => exact ip.keeps _ _ _ _ ran (by simp)
  | ok output =>
      cases success : output.success with
      | true =>
          rw [succeeds, success, Bool.true_or, if_pos rfl]
          exact ip.removes _ _ _ _ ran success
      | false =>
          have kept : after = before := by
            apply ip.keeps _ _ _ _ ran
            rintro _ ⟨⟩
            exact success
          rw [succeeds, success, Bool.false_or, kept]
          split
          · next ignorable =>
              have absent := ip.absent _ _ _ _ ran success ignorable
              rw [← absent, Function.update_eq_self]
          · rfl

theorem run_applyOne_remove (ip : IpAddressDel manager)
    (notBlank : isBlank manager.ipCommand = false) (address : String) (before : Interface) :
    (manager.applyOne (.ofExecute ip.execute) .remove address).run.run before =
      (checkCommand manager.ipCommand address .remove
          ((ip.execute (manager.delCommand address)).run before).1,
        ((ip.execute (manager.delCommand address)).run before).2) := by
  rw [run_applyOne _ _ _ notBlank]
  rfl

/-- A removal that succeeds leaves the address absent, and one that fails changes
nothing. -/
theorem interface_of_applyOne (ip : IpAddressDel manager) {address : String}
    {before after : Interface} {result : Except Error Unit}
    (ran : (manager.applyOne (.ofExecute ip.execute) .remove address).run.run before =
      (result, after)) :
    after = if result.isOk then Function.update before address false else before := by
  cases blank : isBlank manager.ipCommand with
  | true =>
      rw [run_applyOne_of_blank _ _ _ blank] at ran
      cases ran
      rfl
  | false =>
      rw [run_applyOne_remove ip blank, Prod.mk.injEq] at ran
      rcases ran with ⟨checked, ended⟩
      rw [← ended, interface_of_del ip Prod.mk.eta.symm, ← checked, isOk_checkCommand]

theorem hasEffect_remove (ip : IpAddressDel manager) :
    HasEffect (manager.applyOne (.ofExecute ip.execute) .remove)
      fun interface address => Function.update interface address false := by
  constructor
  case ok =>
    intro address before after _ ran
    exact interface_of_applyOne ip ran
  case error =>
    intro address before after _ ran
    exact interface_of_applyOne ip ran

/-- Which of the attempts of `apply` succeed. -/
theorem attemptAll_remove (ip : IpAddressDel manager) (addresses : List String)
    (interface : Interface) :
    (attemptAll (manager.applyOne (.ofExecute ip.execute) .remove) addresses
        interface).map (fun attempted => (attempted.1, attempted.2.isOk)) =
      (ip.results addresses interface).map fun removal =>
        (removal.1, manager.canRemove removal.2) := by
  cases blank : isBlank manager.ipCommand with
  | true =>
      have fails : ∀ result, manager.canRemove result = false := by
        intro result
        rw [AddressManager.canRemove, blank, Bool.not_true, Bool.false_and]
      -- Nothing is run, so the interface the other pass has come to does not matter.
      suffices same : ∀ other, (attemptAll (manager.applyOne (.ofExecute ip.execute) .remove)
          addresses interface).map (fun attempted => (attempted.1, attempted.2.isOk)) =
            (ip.results addresses other).map fun removal =>
              (removal.1, manager.canRemove removal.2) from same interface
      induction addresses with
      | nil => exact fun _ => rfl
      | cons address rest ih =>
          intro other
          rw [attemptAll, run_applyOne_of_blank _ _ _ blank, IpAddressDel.results,
            List.map_cons, List.map_cons, fails]
          exact congrArg _ (ih _)
  | false =>
      induction addresses generalizing interface with
      | nil => rfl
      | cons address rest ih =>
          rw [attemptAll, IpAddressDel.results, List.map_cons, List.map_cons,
            run_applyOne_remove ip blank, isOk_checkCommand, ih,
            AddressManager.canRemove, blank, Bool.not_false, Bool.true_and]

/-- The addresses `apply` removes: those in front of the first whose removal fails. -/
def IpAddressDel.reached (ip : IpAddressDel manager) (interface : Interface) :
    List String :=
  ((ip.results manager.addresses interface).takeWhile (manager.canRemove ·.2)).map Prod.fst

theorem isOk_applyRemove (ip : IpAddressDel manager) (interface : Interface) :
    (ip.applyRemove interface).1.isOk = true ↔
      ∀ removal ∈ ip.results manager.addresses interface,
        manager.canRemove removal.2 = true := by
  have outcomes := attemptAll_remove ip manager.addresses interface
  rw [IpAddressDel.applyRemove, AddressManager.apply, isOk_forM]
  have sameOutcomes := congrArg (fun outcomes => ∀ outcome ∈ outcomes, outcome.2 = true)
    outcomes
  simpa only [List.forall_mem_map, eq_iff_iff] using sameOutcomes

theorem foldl_update_false (addresses : List String) (interface : Interface)
    (address : String) :
    addresses.foldl (fun interface address => Function.update interface address false)
      interface address = (interface address && !decide (address ∈ addresses)) := by
  induction addresses generalizing interface with
  | nil => simp
  | cons first rest ih =>
      rw [List.foldl_cons, ih]
      by_cases same : address = first
      · simp [same]
      · rw [Function.update_of_ne same]
        simp [same]

theorem succeededFirst_remove (ip : IpAddressDel manager) (interface : Interface) :
    succeededFirst (attemptAll (manager.applyOne (.ofExecute ip.execute) .remove)
      manager.addresses interface) = ip.reached interface := by
  rw [succeededFirst_eq, attemptAll_remove, List.takeWhile_map, List.map_map]
  simp only [Function.comp_def]
  rw [IpAddressDel.reached]

/-- What `apply` leaves on the interface. -/
theorem applyRemove_interface (ip : IpAddressDel manager) (interface : Interface)
    (address : String) : (ip.applyRemove interface).2 address =
      (interface address && !decide (address ∈ ip.reached interface)) := by
  rw [IpAddressDel.applyRemove, AddressManager.apply, state_forM (hasEffect_remove ip),
    foldl_update_false, succeededFirst_remove]

theorem map_fst_results (ip : IpAddressDel manager) (addresses : List String)
    (interface : Interface) :
    (ip.results addresses interface).map Prod.fst = addresses := by
  induction addresses generalizing interface with
  | nil => rfl
  | cons address rest ih => rw [IpAddressDel.results, List.map_cons, ih]

end Removal

/-- A removal is complete if and only if no address that is present and could be
removed stands only behind one whose removal fails. -/
theorem removesAll_iff (manager : AddressManager) (ip : IpAddressDel manager)
    (interface : Interface) :
    RemovesAll manager ip interface ↔ NoneStranded manager ip interface := by
  constructor
  · intro complete before failed after split fails removal member passes present
    have gone := complete.removed removal (by simp [split, member]) passes
    rw [applyRemove_interface, present, Bool.true_and, Bool.not_eq_false',
      decide_eq_true_eq, IpAddressDel.reached, split,
      takeWhile_append_cons_of_neg (by simpa using fails)] at gone
    exact List.map_subset _ (List.takeWhile_subset _) gone
  · intro noneStranded
    have removed : ∀ removal ∈ ip.results manager.addresses interface,
        manager.canRemove removal.2 = true →
          (ip.applyRemove interface).2 removal.1 = false := by
      intro removal member passes
      rw [applyRemove_interface]
      cases present : interface removal.1 with
      | false => rfl
      | true =>
          rw [Bool.true_and, Bool.not_eq_false', decide_eq_true_eq]
          by_contra notReached
          have behind : removal ∉ (ip.results manager.addresses interface).takeWhile
              (manager.canRemove ·.2) :=
            fun inFront => notReached (List.mem_map_of_mem inFront)
          rcases exists_failed_of_notMem_takeWhile member behind with
            ⟨failed, after, split, fails, member⟩
          rcases List.mem_cons.mp member with rfl | later
          · cases passes.symm.trans fails
          · exact notReached (noneStranded _ _ _ split fails removal later passes present)
    refine ⟨removed, ?_, ?_⟩
    · intro address configured present
      rw [← map_fst_results ip manager.addresses interface] at configured
      rcases List.mem_map.mp configured with ⟨removal, member, rfl⟩
      refine ⟨removal, member, rfl, ?_⟩
      by_contra passes
      cases present.symm.trans (removed removal member (by simpa using passes))
    · rw [← Bool.not_eq_true, isOk_applyRemove]
      simp

/-! ## A removal that is not permitted -/

/-- `ip address del` where the removal of one address is not permitted. -/
def refuse (refused address : String) (interface : Interface) : CommandResult × Interface :=
  if address = refused then
    (.ok { success := false, stderr := asBytes "RTNETLINK answers: Operation not permitted" },
      interface)
  else if interface address then
    (.ok { success := true, stderr := [] }, Function.update interface address false)
  else
    (.ok {
      success := false
      stderr := asBytes "RTNETLINK answers: Cannot assign requested address" }, interface)

def refusing (manager : AddressManager) (refused : String) : IpAddressDel manager where
  execute command := refuse refused (command.args.getD 2 "")
  removes := by
    intro address before output after ran success
    change refuse refused address before = _ at ran
    unfold refuse at ran
    split_ifs at ran <;> cases ran
    · cases success
    · rfl
    · cases success
  keeps := by
    intro address before result after ran fails
    change refuse refused address before = _ at ran
    unfold refuse at ran
    split_ifs at ran <;> cases ran
    · rfl
    · cases fails _ rfl
    · rfl
  absent := by
    intro address before output after ran fails ignorable
    change refuse refused address before = _ at ran
    unfold refuse at ran
    split_ifs at ran with _ present <;> cases ran
    · simp only [isIgnorableIpError, fromUtf8Lossy_asBytes] at ignorable
      exact absurd ignorable (by decide)
    · cases fails
    · simpa using present

def twoAddresses : AddressManager where
  ipCommand := "ip"
  arpingCommand := "arping"
  ndsendCommand := "ndsend"
  interface := "eth0"
  addresses := ["10.0.0.10/24", "fd00::10/64"]

/-- The removal of the first address is not permitted, and the second one, which could
be removed, is still there afterwards. -/
theorem not_removesAll :
    ¬∀ (manager : AddressManager) (ip : IpAddressDel manager) (interface : Interface),
      RemovesAll manager ip interface := by
  intro always
  have complete := always twoAddresses (refusing twoAddresses "10.0.0.10/24") fun _ => true
  have gone := complete.removed ("fd00::10/64", .ok { success := true, stderr := [] })
    (by decide +kernel) (by decide +kernel)
  have remains : ((refusing twoAddresses "10.0.0.10/24").applyRemove fun _ => true).2
      "fd00::10/64" = true := by decide +kernel
  cases gone.symm.trans remains

end Gruezi.Ha
