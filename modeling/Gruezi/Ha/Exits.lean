import Gruezi.Ha.FaultReports
import Gruezi.Lib.Failure

/-!
# Why the loop returns

The loop ends for one of four reasons, and each determines what it returns: a
shutdown, a receive or a send that fails for good, and an advertisement that cannot
be encoded.  What is received, accepted or not, never ends it.
-/

namespace Gruezi.Ha

open Rust Lib HaProcess

namespace HaProcess

variable (process : HaProcess)

/-- The datagram of the next advertisement, or the error of making it. -/
def nextDatagram (loopState : HaLoopState) : Except Error Bytes := do
  let packet ← buildPacket process.hasher process.runtime loopState.state
    (saturatingAdd loopState.sequence 1)
  packet.encode

/-- The transition ends the loop, to return this result. -/
inductive Ends (next : Transition RunState RunInput Effect) : Except Error Unit → Prop where
  | shutdown :
      next.input = .shutdown →
      Ends next (.ok ())
  | receive {ioError : IoError} {observedAt : Int} :
      next.input = .event (.receive (.error ioError) observedAt) →
      isTransientIoError ioError = false →
      Ends next (.error (.context "failed to receive HA packet" (.io ioError)))
  | send {ioError : IoError} {scheduledAt publishedAt : Int} {datagram : Bytes} :
      next.input = .event (.send (.error ioError) scheduledAt publishedAt) →
      process.nextDatagram next.before.node.loopState = .ok datagram →
      isTransientIoError ioError = false →
      Ends next (.error
        (.context ("failed to send HA packet to " ++ process.peerAddr.text) (.io ioError)))
  | encode {sendTo : Except IoError Unit} {scheduledAt publishedAt : Int} {error : Error} :
      next.input = .event (.send sendTo scheduledAt publishedAt) →
      process.nextDatagram next.before.node.loopState = .error error →
      Ends next (.error error)

end HaProcess

/-! ## The error of an advertisement -/

/-- The error was not caused by I/O. -/
def NotIo (error : Error) : Prop :=
  error.ioCauses = []

theorem bailIf_notIo (condition : Bool) (text : String) :
    FailsWith NotIo (bailIf condition text) := by
  intro error failed
  rw [bailIf] at failed
  split at failed <;> cases failed
  rfl

theorem validatePacketField_notIo (value fieldName : String) (maxLen : Nat) :
    FailsWith NotIo (validatePacketField value fieldName maxLen) :=
  (bailIf_notIo _ _).bind fun _ => bailIf_notIo _ _

theorem tryFromLen_notIo (limit len : Nat) (fieldName : String) :
    FailsWith NotIo (tryFromLen limit len fieldName) := by
  intro error failed
  rw [tryFromLen] at failed
  split at failed <;> cases failed
  rfl

theorem encode_notIo (packet : HaPacket) : FailsWith NotIo packet.encode := by
  apply (validatePacketField_notIo _ _ _).bind
  intro _
  apply (validatePacketField_notIo _ _ _).bind
  intro _
  apply (bailIf_notIo _ _).bind
  intro _
  apply (tryFromLen_notIo _ _ _).bind
  intro _
  apply (tryFromLen_notIo _ _ _).bind
  intro _
  apply (tryFromLen_notIo _ _ _).bind
  intro _
  exact .ok _

theorem nextDatagram_notIo (process : HaProcess) (loopState : HaLoopState) :
    FailsWith NotIo (process.nextDatagram loopState) := by
  have built : FailsWith NotIo (buildPacket process.hasher process.runtime loopState.state
      (saturatingAdd loopState.sequence 1)) := by
    intro error failed
    rw [buildPacket] at failed
    split at failed <;> cases failed
    rfl
  exact built.bind fun packet => encode_notIo packet

/-- A send makes its datagram before it hands it over. -/
theorem sendAdvertisement_eq (process : HaProcess) (loopState : HaLoopState)
    (sendTo : Except IoError Unit) :
    sendAdvertisement process.hasher process.runtime process.peerAddr loopState.state
        loopState.sequence sendTo =
      match process.nextDatagram loopState, sendTo with
      | .error error, _ => .error error
      | .ok datagram, .ok () => .ok (saturatingAdd loopState.sequence 1, datagram)
      | .ok _, .error ioError => .error
          (.context ("failed to send HA packet to " ++ process.peerAddr.text)
            (.io ioError)) := by
  simp only [sendAdvertisement, nextDatagram, bind, Except.bind]
  cases buildPacket process.hasher process.runtime loopState.state
      (saturatingAdd loopState.sequence 1) with
  | error error => rfl
  | ok packet =>
      simp only
      cases packet.encode with
      | error error => rfl
      | ok datagram =>
          cases sendTo with
          | error ioError => rfl
          | ok sent => rfl

/-! ## One step -/

section Step

variable {process : HaProcess} {transition : Transition RunState RunInput Effect}
variable {node : Node} {handled : Handled} {error : Error}

/-- A receive ends the loop by an error of the socket that is not transient, and by
nothing that is received. -/
theorem result_of_receive {recv : Except IoError (Bytes × SocketAddr)} {observedAt : Int}
    (handles : process.handle node (.receive recv observedAt) = some handled) :
    handled.result = .error error ↔
      ∃ ioError, recv = .error ioError ∧ isTransientIoError ioError = false ∧
        error = .context "failed to receive HA packet" (.io ioError) := by
  simp only [handle] at handles
  split at handles
  · cases recv with
    | error ioError =>
        cases handles
        cases transient : isTransientIoError ioError with
        | true =>
            simp only [handleReceiveEvent, transient, if_true]
            constructor
            · intro failed
              cases failed
            · rintro ⟨_, same, fatal, _⟩
              cases same
              cases transient.symm.trans fatal
        | false =>
            simp only [handleReceiveEvent, transient, Bool.false_eq_true, if_false]
            constructor
            · intro failed
              cases failed
              exact ⟨ioError, rfl, transient, rfl⟩
            · rintro ⟨_, same, _, rfl⟩
              cases same
              rfl
    | ok received =>
        rcases received with ⟨datagram, sender⟩
        cases handles
        have fits : (node.buffer.recvFrom datagram).1 ≤
            (node.buffer.recvFrom datagram).2.bytes.length := by
          rw [(node.buffer.recvFrom datagram).2.length_eq]
          exact Nat.min_le_right _ _
        simp only [handleReceiveEvent, if_pos fits]
        cases handleIncomingPacket process.hasher process.runtime
          ((node.buffer.recvFrom datagram).2.bytes.take (node.buffer.recvFrom datagram).1)
          sender observedAt node.loopState.peerObservation <;> simp
  · cases handles

/-- A send ends the loop by an error of the socket that is not transient, or because
there is no datagram to send. -/
theorem result_of_send {sendTo : Except IoError Unit} {scheduledAt publishedAt : Int}
    (handles : process.handle node (.send sendTo scheduledAt publishedAt) = some handled) :
    handled.result = .error error ↔
      process.nextDatagram node.loopState = .error error ∨
      ∃ ioError datagram, sendTo = .error ioError ∧
        process.nextDatagram node.loopState = .ok datagram ∧
        isTransientIoError ioError = false ∧
        error = .context ("failed to send HA packet to " ++ process.peerAddr.text)
          (.io ioError) := by
  simp only [handle] at handles
  split at handles
  · cases handles
    simp only [handleSendEvent, sendAdvertisement_eq]
    cases made : process.nextDatagram node.loopState with
    | error other =>
        have notIo : other.ioCauses = [] := nextDatagram_notIo process _ other made
        simp [isTransientSendFailure, notIo]
    | ok datagram =>
        cases sendTo with
        | ok sent => simp
        | error ioError =>
            cases transient : isTransientIoError ioError with
            | true => simp [isTransientSendFailure, Error.ioCauses, transient]
            | false =>
                simp only [isTransientSendFailure, Error.ioCauses, List.any_cons, transient,
                  List.any_nil, Bool.or_self, Bool.false_eq_true, if_false]
                constructor
                · intro failed
                  cases failed
                  exact .inr ⟨ioError, datagram, rfl, rfl, transient, rfl⟩
                · rintro (nothing | ⟨_, _, same, _, _, rfl⟩)
                  · cases nothing
                  · cases same
                    rfl
  · cases handles

/-- An event of the select ends the loop by the error of its handler. -/
theorem ends_iff_of_handle {event : NodeEvent} {after : RunState} {output : List Effect}
    {before : RunState} (ready : armReady before.node.loopState event = true)
    (handles : process.handle before.node event = some handled) :
    process.Ends ⟨before, .event event, after, output⟩ (.error error) ↔
      handled.result = .error error := by
  cases event with
  | refresh now => cases ready
  | receive recv observedAt =>
      rw [result_of_receive handles]
      constructor
      · intro ends
        cases ends with
        | receive input fatal =>
            cases input
            exact ⟨_, rfl, fatal, rfl⟩
        | send input | encode input => cases input
      · rintro ⟨ioError, rfl, fatal, rfl⟩
        exact .receive rfl fatal
  | send sendTo scheduledAt publishedAt =>
      rw [result_of_send handles]
      constructor
      · intro ends
        cases ends with
        | receive input => cases input
        | send input made fatal =>
            cases input
            exact .inr ⟨_, _, rfl, made, fatal, rfl⟩
        | encode input made =>
            cases input
            exact .inl made
      · rintro (made | ⟨ioError, datagram, rfl, made, fatal, rfl⟩)
        · exact .encode rfl made
        · exact .send rfl made fatal

/-- Step lemma: the loop comes to return a result by the transition that ends it. -/
theorem ends_iff_of_takes {result : Except Error Unit}
    (taken : process.runWithStatus.Takes transition)
    (running : transition.before.phase.exitResult = none) :
    process.Ends transition result ↔ transition.after.phase.exitResult = some result := by
  rcases transition with ⟨before, input, after, output⟩
  have steps := steps_of_takes taken
  simp only at steps running
  cases steps with
  | refresh =>
      constructor
      · intro ends
        cases ends with
        | shutdown input | receive input | send input | encode input => cases input
      · intro ended
        cases ended
  | handled _ ready handles succeeded =>
      constructor
      · intro ends
        cases result with
        | ok done =>
            cases ends with
            | shutdown input => cases input
        | error error =>
            cases succeeded.symm.trans ((ends_iff_of_handle ready handles).mp ends)
      · intro ended
        cases ended
  | failed _ ready handles failed =>
      constructor
      · intro ends
        cases result with
        | ok done =>
            cases ends with
            | shutdown input => cases input
        | error error =>
            cases failed.symm.trans ((ends_iff_of_handle ready handles).mp ends)
            rfl
      · intro ended
        cases ended
        exact (ends_iff_of_handle ready handles).mpr failed
  | shutdown =>
      constructor
      · intro ends
        cases ends with
        | shutdown => rfl
        | receive input | send input | encode input => cases input
      · intro ended
        cases ended
        exact .shutdown rfl
  | beginCleanup phase | runFaultHook phase | finish phase | finishFaulted phase =>
      simp [phase, Phase.exitResult] at running

/-- The loop is ended from its select. -/
theorem selecting_of_ends {result : Except Error Unit}
    (taken : process.runWithStatus.Takes transition)
    (ends : process.Ends transition result) : transition.before.phase = .selecting := by
  rcases transition with ⟨before, input, after, output⟩
  have steps := steps_of_takes taken
  simp only at steps
  cases steps with
  | handled phase | failed phase | shutdown phase => exact phase
  | refresh | beginCleanup | runFaultHook | finish | finishFaulted =>
      cases ends with
      | shutdown input | receive input | send input | encode input => cases input

end Step

/-! ## Along a run -/

section Run

variable {process : HaProcess} {start final : RunState} {result : Except Error Unit}
variable {trace : List (Transition RunState RunInput Effect)}
variable {next : Transition RunState RunInput Effect}

/-- What the loop returns is settled when it ends. -/
theorem exitResult_stays (run : process.runWithStatus.Run start trace final)
    (ended : start.phase.exitResult = some result) :
    final.phase.exitResult = some result := by
  apply run.invariant (motive := fun state => state.phase.exitResult = some result) ended
  intro next _ nextTaken holds
  exact exitResult_of_takes nextTaken holds

/-- A transition that ends the loop leaves it ended. -/
theorem exitResult_of_ends (taken : process.runWithStatus.Takes next)
    (ends : process.Ends next result) : next.after.phase.exitResult = some result := by
  apply (ends_iff_of_takes taken _).mp ends
  rw [selecting_of_ends taken ends]
  rfl

/-- After the end no transition ends the loop again. -/
theorem not_ends_of_ended (run : process.runWithStatus.Run start trace final)
    (ended : start.phase.exitResult = some result) :
    ∀ other ∈ trace, ∀ outcome, ¬process.Ends other outcome := by
  intro other member outcome ends
  rcases List.append_of_mem member with ⟨taken, rest, rfl⟩
  rcases run.split_at with ⟨before, otherTaken, _⟩
  have still := exitResult_stays before ended
  rw [selecting_of_ends otherTaken ends] at still
  cases still

/-- A loop that has ended has been ended by a transition. -/
theorem exists_ends_of_run (run : process.runWithStatus.Run start trace final)
    (running : start.phase.exitResult = none)
    (ended : final.phase.exitResult = some result) :
    ∃ taken next rest, trace = taken ++ next :: rest ∧ process.Ends next result := by
  induction trace using List.reverseRecOn generalizing final with
  | nil =>
      cases run
      cases running.symm.trans ended
  | append_singleton earlier last ih =>
      rcases run.split_at with ⟨before, lastTaken, rest⟩
      cases rest.eq_of_nil
      cases phase : last.before.phase.exitResult with
      | none =>
          exact ⟨earlier, last, [], rfl, (ends_iff_of_takes lastTaken phase).mpr ended⟩
      | some other =>
          cases ended.symm.trans (exitResult_of_takes lastTaken phase)
          rcases ih before phase with ⟨taken, next, rest, rfl, ends⟩
          exact ⟨taken, next, rest ++ [last], by simp, ends⟩

/-- The loop has ended, to return a result, if and only if a transition of the run has
ended it with this result; it has done so from the select, and no other has. -/
theorem ends_iff_of_run (process : HaProcess) (startupAt scheduledAt : Int)
    (trace : List (Transition RunState RunInput Effect)) (final : RunState)
    (run : process.runWithStatus.Run (process.startRun startupAt scheduledAt) trace
      final) (result : Except Error Unit) :
    final.phase.exitResult = some result ↔
      ∃ taken next rest, trace = taken ++ next :: rest ∧ process.Ends next result ∧
        next.before.phase = .selecting ∧
        ∀ other ∈ taken ++ rest, ∀ outcome, ¬process.Ends other outcome := by
  constructor
  · intro ended
    rcases exists_ends_of_run run rfl ended with ⟨taken, next, rest, rfl, ends⟩
    rcases run.split_at with ⟨before, nextTaken, after⟩
    have selecting := selecting_of_ends nextTaken ends
    refine ⟨taken, next, rest, rfl, ends, selecting, ?_⟩
    intro other member outcome otherEnds
    rcases List.mem_append.mp member with earlier | later
    · rcases List.append_of_mem earlier with ⟨first, second, rfl⟩
      rcases before.split_at with ⟨_, otherTaken, between⟩
      have still := exitResult_stays between (exitResult_of_ends otherTaken otherEnds)
      rw [selecting] at still
      cases still
    · exact not_ends_of_ended after (exitResult_of_ends nextTaken ends) other later outcome
        otherEnds
  · rintro ⟨taken, next, rest, rfl, ends, _, _⟩
    rcases run.split_at with ⟨_, nextTaken, after⟩
    exact exitResult_stays after (exitResult_of_ends nextTaken ends)

end Run

/-! ## A send that fails for good -/

theorem ends_iff_of_run_fault :
    ∃ taken next rest, faultTrace = taken ++ next :: rest ∧
      watchedProcess.Ends next (.error
        (.context ("failed to send HA packet to " ++ demoAddr.text)
          (.io { kind := .addrInUse, text := "in use" }))) ∧
      next.before.phase = .selecting ∧
      ∀ other ∈ taken ++ rest, ∀ outcome, ¬watchedProcess.Ends other outcome :=
  (ends_iff_of_run watchedProcess 0 0 faultTrace _
    (Machine.run_record _ (by decide +kernel)) _).mp (by decide +kernel)

end Gruezi.Ha
