import Metidos.Rpc.TransportAccounting

/-!
Replies: an accepted request is answered at most once, and a canceled one is not answered unless
its response was already being encoded.
-/

namespace Metidos.Rpc

open Transition

def TransportState.responsesOf (state : TransportState) (execution : ExecutionId) : List Response :=
  state.sent.filter fun response => response.sentBy = .execution execution

def TransportState.isEncoding (state : TransportState) (execution : ExecutionId) : Prop :=
  ∃ entry, state.executions[execution]? = some entry ∧ entry.phase.encoding

section Once

variable {options : TransportOptions} {state next : TransportState} {event : TransportEvent}
  {execution : ExecutionId} {entry : Execution}

theorem responsesOf_append {response : Response} (appended : next.sent = state.sent ++ [response]) :
    next.responsesOf execution =
      state.responsesOf execution ++
        if response.sentBy = .execution execution then [response] else [] := by
  simp only [TransportState.responsesOf, appended, List.filter_append, List.filter_singleton]
  by_cases mine : response.sentBy = .execution execution <;> simp [mine]

theorem responsesOf_running (ended : RespondersEnded state)
    (known : state.executions[execution]? = some entry) (running : entry.phase ≠ .finished) :
    state.responsesOf execution = [] := by
  rw [TransportState.responsesOf, List.filter_eq_nil_iff]
  intro response member
  rw [decide_eq_true_eq]
  intro sentBy
  obtain ⟨finished, same, done⟩ := ended response member execution sentBy
  rw [known, Option.some.injEq] at same
  exact running (same ▸ done)

theorem encoding_running {phase : ExecutionPhase} (encoding : phase.encoding) :
    phase ≠ .finished := by
  rcases encoding with rfl | rfl
  · simp
  · simp

def RespondsOnce (state : TransportState) : Prop :=
  ∀ execution, (state.responsesOf execution).length ≤ 1

theorem respondsOnce_step (holds : RespondsOnce state) (ended : RespondersEnded state)
    (stepped : transportStep options state event = some next) : RespondsOnce next := by
  intro execution
  rcases step_sent stepped with same | ⟨response, appended, act⟩
  · rw [TransportState.responsesOf, same]
    exact holds execution
  · rw [responsesOf_append appended]
    split
    · rename_i sentBy
      obtain ⟨entry, _, known, encoding, _⟩ := act execution sentBy
      rw [responsesOf_running ended known (encoding_running encoding)]
      simp
    · rw [List.append_nil]
      exact holds execution

theorem respondsOnce_of_reaches {allowed : TransportState → TransportEvent → Prop}
    (reached : Reaches (transportStep options) allowed .initial state) : RespondsOnce state := by
  have both := reached.invariant
    (fun state => RespondsOnce state ∧ RespondersEnded state)
    ⟨by simp [RespondsOnce, TransportState.responsesOf, TransportState.initial],
      by simp [RespondersEnded, TransportState.initial]⟩
    fun _ _ _ holds _ stepped =>
      ⟨respondsOnce_step holds.1 holds.2 stepped, respondersEnded_step holds.2 stepped⟩
  exact both.1

end Once

section Silence

variable {options : TransportOptions} {state next later : TransportState} {event : TransportEvent}
  {execution : ExecutionId} {entry : Execution}

/-- Whatever it settles with, this execution ends without a response. -/
structure Silent (entry : Execution) : Prop where
  canceled : entry.canceledByClient = true
  aborted : entry.aborted.isSome = true
  early : ¬entry.phase.encoding

theorem abort_early {reason : AbortReason} (early : ¬entry.phase.encoding) :
    ¬(entry.abort reason).phase.encoding := by
  rcases abort_phase entry reason with same | ⟨_, settled⟩
  · rwa [same]
  · simp [settled, ExecutionPhase.encoding]

theorem silent_abort (entry : Execution) (canceled : entry.canceledByClient = true) (early : ¬entry.phase.encoding)
    (reason : AbortReason) : Silent (entry.abort reason) :=
  ⟨abort_canceledByClient.trans canceled, abort_aborted, abort_early early⟩

theorem silent_cancel (early : ¬entry.phase.encoding) : Silent entry.cancel :=
  silent_abort { entry with canceledByClient := true } rfl early _

theorem silent_abortForClose (early : ¬entry.phase.encoding) : Silent entry.abortForClose :=
  silent_abort { entry with canceledByClient := true, timerActive := false } rfl early _

theorem silent_timeOut (silent : Silent entry) : Silent entry.timeOut :=
  silent_abort { entry with timerActive := false } silent.canceled silent.early _

theorem silent_moveTo (silent : Silent entry) {phase : ExecutionPhase} (early : ¬phase.encoding) :
    Silent (entry.moveTo phase) :=
  ⟨silent.canceled, silent.aborted, early⟩

theorem silent_dropped (silent : Silent entry) (outcome : Settlement) :
    outcome.dropped entry = true := by
  cases outcome with
  | value => exact silent.aborted
  | error => exact silent.canceled
  | aborted => exact silent.canceled

theorem silent_change {after : Execution} (silent : Silent entry)
    (change : ExecutionChange options state event execution entry after) : Silent after := by
  cases change with
  | unchanged => exact silent
  | closed => exact silent_abortForClose silent.early
  | canceled => exact silent_cancel silent.early
  | timedOut => exact silent_timeOut silent
  | settled => exact silent_moveTo silent (by simp [ExecutionPhase.encoding])
  | @resumed outcome _ _ kept =>
    rw [silent_dropped silent outcome] at kept
    exact absurd kept (by simp)
  | dropped =>
    exact ⟨silent.canceled, silent.aborted, by simp [Execution.finish, ExecutionPhase.encoding]⟩
  | encodeFailed _ encoding _ => exact absurd (Or.inl encoding) silent.early
  | ended _ encoding _ => exact absurd encoding silent.early

theorem silent_of_reaches
    (reached : Reaches (transportStep options) Unrestricted state later)
    (known : state.executions[execution]? = some entry) (silent : Silent entry)
    (none : state.responsesOf execution = []) : later.responsesOf execution = [] := by
  refine (reached.invariant (fun later =>
    (∃ entry, later.executions[execution]? = some entry ∧ Silent entry) ∧
      later.responsesOf execution = []) ⟨⟨entry, known, silent⟩, none⟩ ?_).2
  rintro before event after ⟨⟨entry, known, silent⟩, none⟩ _ stepped
  obtain ⟨changed, found, change⟩ := step_execution stepped known
  refine ⟨⟨changed, found, silent_change silent change⟩, ?_⟩
  rcases step_sent stepped with same | ⟨response, appended, act⟩
  · rw [TransportState.responsesOf, same]
    exact none
  · rw [responsesOf_append appended, none, List.nil_append, if_neg]
    intro sentBy
    obtain ⟨sender, _, there, encoding, _⟩ := act execution sentBy
    rw [known, Option.some.injEq] at there
    exact silent.early (there ▸ encoding)

end Silence

section Cancellation

variable {options : TransportOptions} {state next : TransportState} {event : TransportEvent}
  {execution : ExecutionId}

theorem cancel_execution (stepped : transportStep options state event = some next)
    (target : state.cancelTarget options event = some execution) {entry : Execution}
    (known : state.executions[execution]? = some entry) :
    next.executions[execution]? = some entry.cancel ∧ next.sent = state.sent := by
  cases callback_of_step stepped with
  | @taskParsed task message payload withinRateLimit found _ =>
    cases payload with
    | none => exact absurd target (by simp [TransportState.cancelTarget])
    | some parsed =>
      simp only [TransportState.cancelTarget, found] at target
      split at target
      · rename_i cancelClient requestId same accepted
        rw [Option.some.injEq] at same
        subst same
        simp only [TransportState.taskParsed, accepted, TransportState.abortPendingRequest,
          target]
        exact ⟨(getElem?_modify_entry known).trans (by rw [if_pos rfl]), rfl⟩
      · exact absurd target (by simp)
  | _ => exact absurd target (by simp [TransportState.cancelTarget])

theorem running_of_cancelTarget (holds : Accounting options state.accounts)
    (target : state.cancelTarget options event = some execution) :
    ∃ entry, state.executions[execution]? = some entry ∧ entry.phase ≠ .finished := by
  cases event with
  | taskParsed task payload withinRateLimit =>
    cases payload with
    | none => exact absurd target (by simp [TransportState.cancelTarget])
    | some parsed =>
      simp only [TransportState.cancelTarget] at target
      split at target
      · obtain ⟨entry, known, _, _, running⟩ := started_of_pending holds target
        exact ⟨entry, known, running⟩
      · exact absurd target (by simp)
  | _ => exact absurd target (by simp [TransportState.cancelTarget])

theorem cancel_encoding {entry : Execution} (encoding : entry.phase.encoding) :
    entry.cancel.phase.encoding := by
  rcases abort_phase { entry with canceledByClient := true } .canceled with same | ⟨awaiting, _⟩
  · rw [Execution.cancel, same]
    exact encoding
  · rcases encoding with result | error
    · exact absurd (awaiting.symm.trans result) (by simp)
    · exact absurd (awaiting.symm.trans error) (by simp)

theorem responds_of_encoding (options : TransportOptions) {entry : Execution}
    (known : state.executions[execution]? = some entry) (encoding : entry.phase.encoding) :
    ∃ later, transportStep options state (.responseEncoded execution .sent) = some later ∧
      later.responsesOf execution ≠ [] := by
  refine ⟨state.responseEncoded execution entry .sent, ?_, ?_⟩
  · simp only [transportStep, known, Option.bind_eq_bind, Option.bind_some]
    exact if_pos encoding
  · have appended : (state.responseEncoded execution entry .sent).sent = state.sent ++ _ :=
      (finishExecution_sent _ _).trans (send_sent _ _)
    rw [responsesOf_append appended]
    simp

/-- Over every interleaving a request is answered at most once; a cancel that finds it pending
silences it exactly if its response is not being encoded yet. -/
theorem responses_of_canceled
    (reached : Reaches (transportStep options) Unrestricted .initial state) :
    (∀ execution, (state.responsesOf execution).length ≤ 1) ∧
    ∀ event next execution, transportStep options state event = some next →
      state.cancelTarget options event = some execution →
      ((∀ later, Reaches (transportStep options) Unrestricted next later →
        later.responsesOf execution = []) ↔ ¬state.isEncoding execution) := by
  refine ⟨respondsOnce_of_reaches reached, ?_⟩
  intro event next execution stepped target
  obtain ⟨entry, known, running⟩ :=
    running_of_cancelTarget (accounting_of_reaches reached) target
  obtain ⟨found, sent⟩ := cancel_execution stepped target known
  constructor
  · rintro silent ⟨same, there, encoding⟩
    rw [known, Option.some.injEq] at there
    obtain ⟨later, responded, answered⟩ :=
      responds_of_encoding options found (cancel_encoding (there ▸ encoding))
    exact answered (silent later ((Reaches.refl next).tail trivial responded))
  · intro early later continued
    have quiet : ¬entry.phase.encoding := fun encoding => early ⟨entry, known, encoding⟩
    refine silent_of_reaches continued found (silent_cancel quiet) ?_
    rw [TransportState.responsesOf, sent]
    exact responsesOf_running (respondersEnded_of_reaches reached) known running

theorem responses_of_canceled_one : ∃ state : TransportState,
    state.sent.length = 1 ∧ (state.responsesOf 0).length ≤ 1 := by
  have counted : (run (transportStep sampleOptions) (fun _ _ => true) .initial
      (.opened sampleData :: sampleMessage 0 0 ++
        [.taskParsed 0 (some (samplePayload "request" 5)) true, .handlerSettles 0 false,
          .executionResumes 0, .responseEncoded 0 .sent])).map (·.sent.length) = some 1 := by decide
  obtain ⟨state, ran, one⟩ := Option.map_eq_some_iff.mp counted
  have reached := (reaches_of_run ran).unrestricted
  exact ⟨state, one, (responses_of_canceled reached).1 0⟩

/-- The cancel arrives while the result is being encoded; the response goes out after it. -/
theorem responses_after_cancel :
    ¬∀ (options : TransportOptions) (state : TransportState),
      Reaches (transportStep options) Unrestricted .initial state →
      (∀ execution, (state.responsesOf execution).length ≤ 1) ∧
      ∀ event next execution, transportStep options state event = some next →
        state.cancelTarget options event = some execution →
        ∀ later, Reaches (transportStep options) Unrestricted next later →
          later.responsesOf execution = [] := by
  intro claimed
  have before : (run (transportStep sampleOptions) (fun _ _ => true) .initial
      (.opened sampleData :: sampleMessage 0 0 ++
        [.taskParsed 0 (some (samplePayload "request" 5)) true, .handlerSettles 0 false,
          .executionResumes 0] ++ sampleMessage 0 1)).map (fun state =>
        (state.cancelTarget sampleOptions
            (.taskParsed 1 (some (samplePayload "cancel" 5)) true),
          (transportStep sampleOptions state
              (.taskParsed 1 (some (samplePayload "cancel" 5)) true)).map fun next =>
            (run (transportStep sampleOptions) (fun _ _ => true) next
              [.responseEncoded 0 .sent]).map fun later => (later.responsesOf 0).length)) =
      some (some 0, some (some 1)) := rfl
  obtain ⟨state, ran, facts⟩ := Option.map_eq_some_iff.mp before
  obtain ⟨target, facts⟩ := Prod.mk.inj facts
  obtain ⟨next, stepped, facts⟩ := Option.map_eq_some_iff.mp facts
  obtain ⟨later, continued, answered⟩ := Option.map_eq_some_iff.mp facts
  have reached := (reaches_of_run ran).unrestricted
  have reachedLater :=
    (reaches_of_run continued).unrestricted
  have silent := (claimed sampleOptions state reached).2 _ next 0 stepped target later reachedLater
  rw [silent] at answered
  exact absurd answered (by simp)

end Cancellation

end Metidos.Rpc
