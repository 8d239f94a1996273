import Gruezi.Ha.LossTolerance
import Gruezi.Ha.SideEffects
import Gruezi.Lib.Spacing

/-!
# The pace of a sender

The advertisement timer is rearmed by every attempt, failed ones included, and by
nothing else.  So whatever arrives, and however the socket behaves, a node does not
send more than one advertisement for each interval without its jitter.
-/

namespace Gruezi.Ha

open Rust Lib HaProcess

/-- The time at which each datagram of the run was sent, in order. -/
def sendTimes (trace : List (Transition RunState RunInput Effect)) : List Int :=
  trace.flatMap fun next =>
    (sentDatagrams next.output).filterMap fun _ => next.input.reading

/-- The least time between two advertisements, in nanoseconds. -/
def HaRuntimeConfig.spacing (runtime : HaRuntimeConfig) : Int :=
  ((runtime.advertIntervalMs.toNat - runtime.jitterMs.toNat) * nanosPerMilli : Nat)

section Step

variable {process : HaProcess} {transition : Transition RunState RunInput Effect}
variable {before after : RunState} {input : RunInput} {effects : List Effect}

/-- A step sends at most one datagram, when its timer has elapsed, and rearms it. -/
theorem sends_of_steps (steps : process.Steps before input after effects) :
    (∃ datagram sentAt sequence, sentDatagrams effects = [datagram] ∧
      input.reading = some sentAt ∧ before.node.loopState.nextAdvertAt ≤ sentAt ∧
      after.node.loopState.nextAdvertAt =
        Instant.add sentAt (process.runtime.nextAdvertDelay sequence)) ∨
    (sentDatagrams effects = [] ∧
      (after.node.loopState.nextAdvertAt = before.node.loopState.nextAdvertAt ∨
        ∃ sentAt sequence, before.node.loopState.nextAdvertAt ≤ sentAt ∧
          after.node.loopState.nextAdvertAt =
            Instant.add sentAt (process.runtime.nextAdvertDelay sequence))) := by
  cases steps with
  | refresh _ handles =>
      rcases handle_refresh handles with ⟨_, _, _, loopState, effects⟩
      refine .inr ⟨by rw [effects, sentDatagrams_refresh], .inl ?_⟩
      rw [loopState, refreshed_nextAdvertAt]
  | @handled event handled _ ready handles _ | @failed event handled _ _ ready handles _ =>
      cases event with
      | refresh now => cases ready
      | receive recv observedAt =>
          rcases handle_receive handles with ⟨_, _, nothing, changed⟩
          refine .inr ⟨nothing, .inl ?_⟩
          rcases changed with ⟨_, loopState⟩ | ⟨_, _, _, _, _, _, _, loopState⟩ <;>
            rw [loopState]
      | send sendTo scheduledAt publishedAt =>
          have due : before.node.loopState.nextAdvertAt ≤ scheduledAt := by
            simpa [armReady] using ready
          simp only [handle] at handles
          split at handles
          · cases handles
            simp only [handleSendEvent]
            cases sent : sendAdvertisement process.hasher process.runtime process.peerAddr
                before.node.loopState.state before.node.loopState.sequence sendTo with
            | ok sentPair =>
                refine .inl ⟨sentPair.2, scheduledAt, sentPair.1 + 1, ?_, rfl, due, rfl⟩
                simp only [sentDatagrams, List.filterMap_append]
                exact congrArg ([sentPair.2] ++ ·) sentDatagrams_publish
            | error error =>
                right
                simp only
                split
                · exact ⟨sentDatagrams_publish, .inr ⟨scheduledAt, _, due, rfl⟩⟩
                · exact ⟨rfl, .inl rfl⟩
          · cases handles
  | shutdown | beginCleanup => exact .inr ⟨rfl, .inl rfl⟩
  | @runFaultHook cleanup =>
      refine .inr ⟨?_, .inl rfl⟩
      rw [Cleanup.faultHook]
      split <;> rfl
  | finish | finishFaulted =>
      refine .inr ⟨?_, .inl ?_⟩ <;>
        simp only [finishCleanup, Cleanup.finish, sentDatagrams_publish]
      split <;> rfl

end Step

section Run

variable {process : HaProcess} {startupAt scheduledAt : Int} {final : RunState}
variable {trace : List (Transition RunState RunInput Effect)}

theorem sentDatagrams_append (first second : List Effect) :
    sentDatagrams (first ++ second) = sentDatagrams first ++ sentDatagrams second :=
  List.filterMap_append

theorem sendTimes_append_singleton
    (taken : List (Transition RunState RunInput Effect))
    (next : Transition RunState RunInput Effect) :
    sendTimes (taken ++ [next]) = sendTimes taken ++
      (sentDatagrams next.output).filterMap fun _ => next.input.reading := by
  rw [sendTimes, List.flatMap_append, List.flatMap_singleton, ← sendTimes]

/-- One entry for each datagram. -/
theorem length_sendTimes (run : process.runWithStatus.Run
    (process.startRun startupAt scheduledAt) trace final) :
    (sendTimes trace).length = (sentDatagrams (effectsOf trace)).length := by
  apply run.history_induction (motive := fun taken _ =>
    (sendTimes taken).length = (sentDatagrams (effectsOf taken)).length) rfl
  intro taken next _ nextTaken _ same
  rw [sendTimes_append_singleton, effectsOf_append_singleton, sentDatagrams_append,
    List.length_append, List.length_append, same]
  congr 1
  rcases sends_of_steps (steps_of_takes nextTaken) with
    ⟨datagram, sentAt, _, sent, reading, _⟩ | ⟨nothing, _⟩
  · simp [sent, reading]
  · simp [nothing]

/-- Run lemma: sends are spaced, and the timer is a gap after the last. -/
theorem spaced_of_run (valid : process.runtime.ValidTimers)
    (run : process.runWithStatus.Run (process.startRun startupAt scheduledAt) trace
      final) :
    Spaced process.runtime.spacing (sendTimes trace) ∧
      (∀ last ∈ (sendTimes trace).getLast?,
        last + process.runtime.spacing ≤ final.node.loopState.nextAdvertAt) ∧
      scheduledAt + process.runtime.spacing ≤ final.node.loopState.nextAdvertAt ∧
      ∀ time ∈ sendTimes trace, scheduledAt + process.runtime.spacing ≤ time := by
  have nonneg : 0 ≤ process.runtime.spacing := Int.natCast_nonneg _
  have rearmed : ∀ sentAt sequence, sentAt + process.runtime.spacing ≤
      Instant.add sentAt (process.runtime.nextAdvertDelay sequence) := by
    intro sentAt sequence
    have := HaRuntimeConfig.le_nanos_nextAdvertDelay valid sequence
    simp only [HaRuntimeConfig.spacing, Instant.add]
    omega
  apply run.history_induction (motive := fun taken state =>
    Spaced process.runtime.spacing (sendTimes taken) ∧
      (∀ last ∈ (sendTimes taken).getLast?,
        last + process.runtime.spacing ≤ state.node.loopState.nextAdvertAt) ∧
      scheduledAt + process.runtime.spacing ≤ state.node.loopState.nextAdvertAt ∧
      ∀ time ∈ sendTimes taken, scheduledAt + process.runtime.spacing ≤ time)
  · refine ⟨Spaced.nil _, ?_, rearmed scheduledAt 1, ?_⟩ <;> intro time member <;>
      cases member
  · rintro taken next - nextTaken - ⟨spaced, lastDue, startDue, started⟩
    have times := sendTimes_append_singleton taken next
    rcases sends_of_steps (steps_of_takes nextTaken) with
      ⟨datagram, sentAt, sequence, sent, reading, due, armed⟩ | ⟨nothing, timer⟩
    · rw [times, sent, reading, armed]
      simp only [List.filterMap_cons, List.filterMap_nil]
      have rearmedAt := rearmed sentAt sequence
      refine ⟨spaced.concat nonneg fun last isLast => (lastDue last isLast).trans due,
        ?_, ?_, ?_⟩
      · intro last isLast
        cases (List.getLast?_concat ..).symm.trans isLast
        exact rearmedAt
      · omega
      · intro time member
        rcases List.mem_append.mp member with earlier | isSent
        · exact started time earlier
        · cases List.mem_singleton.mp isSent
          exact startDue.trans due
    · rw [times, nothing, List.filterMap_nil, List.append_nil]
      have later : next.before.node.loopState.nextAdvertAt ≤
          next.after.node.loopState.nextAdvertAt := by
        rcases timer with same | ⟨sentAt, sequence, due, armed⟩
        · exact same.ge
        · have := rearmed sentAt sequence
          omega
      exact ⟨spaced, fun last isLast => (lastDue last isLast).trans later,
        startDue.trans later, started⟩

/-- The sends of a run keep the pace. -/
structure KeepsPace (process : HaProcess) (scheduledAt : Int)
    (trace : List (Transition RunState RunInput Effect)) : Prop where
  everyDatagram : (sendTimes trace).length = (sentDatagrams (effectsOf trace)).length
  spaced : Spaced process.runtime.spacing (sendTimes trace)
  spacing_pos : 0 < process.runtime.spacing
  first : ∀ time ∈ sendTimes trace, scheduledAt + process.runtime.spacing ≤ time
  rate : ∀ from_ length : Int, 0 ≤ length →
    ((within from_ length (sendTimes trace)).length : Int) * process.runtime.spacing ≤
      length + process.runtime.spacing

/-- A node of a validated configuration keeps the pace in every run. -/
theorem keepsPace_of_validate (config : Config) (mode : config.mode = .ha)
    (accepted : config.validate = .ok ()) (process : HaProcess)
    (converted : HaRuntimeConfig.tryFrom config = .ok process.runtime)
    (startupAt scheduledAt : Int)
    (trace : List (Transition RunState RunInput Effect)) (final : RunState)
    (run : process.runWithStatus.Run (process.startRun startupAt scheduledAt) trace
      final) :
    KeepsPace process scheduledAt trace := by
  have valid := HaRuntimeConfig.validTimers_of_validate mode accepted converted
  have positive : 0 < process.runtime.spacing := by
    have below := UInt64.lt_iff_toNat_lt.mp valid.jitterMs
    simp only [HaRuntimeConfig.spacing, nanosPerMilli]
    omega
  rcases spaced_of_run valid run with ⟨spaced, _, _, started⟩
  refine ⟨length_sendTimes run, spaced, positive, started, ?_⟩
  intro from_ length nonneg
  exact spaced.length_within_mul_le positive.le nonneg

end Run

/-! ## A validated node -/

/-- The configuration a valid configuration file is turned into. -/
def validatedRuntime (config : Config) : HaRuntimeConfig :=
  match HaRuntimeConfig.tryFrom config with
  | .ok runtime => runtime
  | .error _ => demoRuntime "" 0 false

theorem tryFrom_validatedRuntime {config : Config}
    (converts : (HaRuntimeConfig.tryFrom config).isOk = true) :
    HaRuntimeConfig.tryFrom config = .ok (validatedRuntime config) := by
  rw [validatedRuntime]
  cases converted : HaRuntimeConfig.tryFrom config with
  | ok runtime => rfl
  | error error =>
      rw [converted] at converts
      cases converts

/-- The demo node of a configuration file. -/
def validatedProcess : HaProcess :=
  { demoProcess "low" 100 false with runtime := validatedRuntime (demoConfig "low") }

/-- Two advertisements, and a failed attempt between them. -/
def paceTrace : List (Transition RunState RunInput Effect) :=
  let failure : IoError := { kind := .timedOut, text := "timed out" }
  validatedProcess.runWithStatus.record (validatedProcess.startRun 0 0) [
    .event (.refresh 0),
    .event (.send (.ok ()) 1000000000 1000000000),
    .event (.refresh 1000000000),
    .event (.send (.error failure) 2000000000 2000000001),
    .event (.refresh 2000000001),
    .event (.send (.ok ()) 3000000000 3000000000)]

theorem keepsPace_of_validate_demo :
    KeepsPace validatedProcess 0 paceTrace ∧
      sendTimes paceTrace = [1000000000, 3000000000] :=
  ⟨keepsPace_of_validate (demoConfig "low") rfl (by decide +kernel) validatedProcess
      (tryFrom_validatedRuntime (by decide +kernel)) 0 0 paceTrace _
      (Machine.run_record _ (by decide +kernel)),
    by decide +kernel⟩

end Gruezi.Ha
