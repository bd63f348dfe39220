import Metidos.Rpc.TransportSteps

/-!
What one callback can do to an execution that is there and to the responses sent: the inversion
lemmas that the statements about whole runs rest on.
-/

namespace Metidos.Rpc

open Transition

def TransportState.cancelTarget (options : TransportOptions) (state : TransportState) :
    TransportEvent → Option ExecutionId
  | .taskParsed task (some parsed) _ =>
    match state.tasks[task]?, parseRpcClientMessage options.methods parsed with
    | some entry, .ok (.cancel requestId) => (state.pendingRequests entry.client).get? requestId
    | _, _ => none
  | _ => none

@[grind =] def Settlement.next : Settlement → ExecutionPhase
  | .value => .encodingResult
  | .error | .aborted => .encodingError

def Settlement.dropped (entry : Execution) : Settlement → Bool
  | .value => entry.aborted.isSome
  | .error | .aborted => entry.canceledByClient

def TransportEvent.continues (event : TransportEvent) (execution : ExecutionId) : Bool :=
  match event with
  | .handlerSettles target _ | .executionResumes target | .responseEncoded target _ =>
    target == execution
  | _ => false

inductive ExecutionChange (options : TransportOptions) (state : TransportState)
    (event : TransportEvent) (execution : ExecutionId) (entry : Execution) : Execution → Prop
  | unchanged : event.continues execution = false →
      ExecutionChange options state event execution entry entry
  | closed : event.continues execution = false →
      ExecutionChange options state event execution entry entry.abortForClose
  | canceled : state.cancelTarget options event = some execution →
      ExecutionChange options state event execution entry entry.cancel
  | timedOut : event = .timeout execution →
      ExecutionChange options state event execution entry entry.timeOut
  | settled {failed} : event = .handlerSettles execution failed → entry.phase = .awaiting →
      ExecutionChange options state event execution entry
        (entry.moveTo (.settled (if failed then .error else .value)))
  | resumed {outcome} : event = .executionResumes execution → entry.phase = .settled outcome →
      outcome.dropped entry = false →
      ExecutionChange options state event execution entry (entry.moveTo outcome.next)
  | dropped {outcome} : event = .executionResumes execution → entry.phase = .settled outcome →
      outcome.dropped entry = true →
      ExecutionChange options state event execution entry entry.finish
  | encodeFailed : event = .responseEncoded execution .encodeFailed →
      entry.phase = .encodingResult → entry.canceledByClient = false →
      ExecutionChange options state event execution entry (entry.moveTo .encodingError)
  | ended {outcome} {after : Execution} : event = .responseEncoded execution outcome →
      entry.phase.encoding → after = entry ∨ after = entry.abortForClose →
      ExecutionChange options state event execution entry after.finish

section Operations

variable {options : TransportOptions} {state next : TransportState} {event : TransportEvent}
  {execution other : ExecutionId} {entry : Execution}

def Closes (entry after : Execution) : Prop := after = entry ∨ after = entry.abortForClose

theorem close_execution (known : state.executions[execution]? = some entry) (client : ClientId) :
    ∃ after, (state.close client).executions[execution]? = some after ∧ Closes entry after := by
  have same := congrArg Accounts.executions (TransportState.accounts_close state client)
  change (state.close client).executions = _ at same
  rw [same]
  have before : state.accounts.executions[execution]? = some entry := known
  rcases abortAll_executions state.accounts client execution with kept | aborted
  · exact ⟨entry, kept.trans before, Or.inl rfl⟩
  · exact ⟨entry.abortForClose, by rw [aborted, before, Option.map_some], Or.inr rfl⟩

theorem closeAll_execution (known : state.executions[execution]? = some entry)
    (clients : List ClientId) :
    ∃ after, (state.closeAll clients).executions[execution]? = some after ∧
      Closes entry after := by
  induction clients generalizing state entry with
  | nil => exact ⟨entry, known, Or.inl rfl⟩
  | cons client clients ih =>
    obtain ⟨first, closedFirst, firstCloses⟩ := close_execution known client
    obtain ⟨after, closedRest, restCloses⟩ := ih closedFirst
    refine ⟨after, closedRest, ?_⟩
    rcases firstCloses with rfl | rfl
    · exact restCloses
    · rcases restCloses with rfl | rfl
      · exact Or.inr rfl
      · exact Or.inr (abortForClose_idempotent entry)

theorem changes_of_closes {after : Execution} (closes : Closes entry after)
    (foreign : event.continues execution = false) :
    ExecutionChange options state event execution entry after := by
  rcases closes with rfl | rfl
  · exact .unchanged foreign
  · exact .closed foreign

theorem executions_of_accounts {first second : TransportState}
    (same : first.accounts = second.accounts) : first.executions = second.executions :=
  congrArg Accounts.executions same

theorem sent_of_accounts {first second : TransportState}
    (same : first.accounts = second.accounts) : first.sent = second.sent :=
  congrArg Accounts.sent same

theorem close_sent (client : ClientId) : (state.close client).sent = state.sent :=
  (congrArg Accounts.sent (TransportState.accounts_close state client)).trans (abortAll_sent _ _)

theorem closeAll_sent (clients : List ClientId) : (state.closeAll clients).sent = state.sent := by
  induction clients generalizing state with
  | nil => rfl
  | cons client clients ih => exact ih.trans (close_sent client)

theorem refreshed_executions (client : ClientId) (data : SocketData) :
    ({ state with data := state.data.set client data }.refreshClientIndexes client).executions =
      state.executions :=
  executions_of_accounts (TransportState.accounts_refreshClientIndexes _ _)

theorem startTask_execution (known : state.executions[execution]? = some entry) (task : TaskId)
    (message : MessageTask) (revalidation : Revalidation) (withinBudget : Bool) :
    ∃ after, (state.startTask options task message revalidation withinBudget).executions[execution]? =
      some after ∧ Closes entry after := by
  cases revalidation with
  | rejected => exact close_execution known _
  | threw => exact ⟨entry, known, Or.inl rfl⟩
  | accepted data =>
    have refreshed := known
    rw [← refreshed_executions message.client data] at refreshed
    simp only [TransportState.startTask]
    split
    · exact close_execution refreshed _
    · split
      · exact close_execution refreshed _
      · exact ⟨entry, refreshed, Or.inl rfl⟩

theorem startTask_sent (task : TaskId) (message : MessageTask) (revalidation : Revalidation)
    (withinBudget : Bool) :
    (state.startTask options task message revalidation withinBudget).sent = state.sent := by
  cases revalidation with
  | rejected => exact close_sent _
  | threw => rfl
  | accepted data =>
    have refreshed : ({ state with data := state.data.set message.client data
        }.refreshClientIndexes message.client).sent = state.sent :=
      sent_of_accounts (TransportState.accounts_refreshClientIndexes _ _)
    simp only [TransportState.startTask]
    split
    · exact (close_sent _).trans refreshed
    · split
      · exact (close_sent _).trans refreshed
      · exact refreshed

theorem handleRequest_executions (options : TransportOptions) (state : TransportState)
    (task : TaskId) (client : ClientId) (request : RpcRequest) (withinRateLimit : Bool) :
    (state.handleRequest options task client request withinRateLimit).executions =
        state.executions ∨
      (state.handleRequest options task client request withinRateLimit).executions =
        (state.startExecution client request).executions := by
  simp only [TransportState.handleRequest]
  split
  · exact Or.inl rfl
  · split
    · exact Or.inr rfl
    · exact Or.inl rfl

theorem handleRequest_sent (task : TaskId) (client : ClientId) (request : RpcRequest)
    (withinRateLimit : Bool) :
    (state.handleRequest options task client request withinRateLimit).sent = state.sent := by
  simp only [TransportState.handleRequest]
  split
  · rfl
  · split <;> rfl

theorem taskParsed_sent (task : TaskId) (message : MessageTask)
    (payload : Option ParsedRpcClientMessage) (withinRateLimit : Bool) :
    (state.taskParsed options task message payload withinRateLimit).sent = state.sent := by
  cases payload with
  | none => rfl
  | some parsed =>
    simp only [TransportState.taskParsed]
    split
    · split <;> rfl
    · simp only [TransportState.abortPendingRequest]
      split <;> rfl
    · exact handleRequest_sent _ _ _ _

theorem taskParsed_execution (known : state.executions[execution]? = some entry) {task : TaskId}
    {message : MessageTask} (waiting : state.tasks[task]? = some message)
    (payload : Option ParsedRpcClientMessage) (withinRateLimit : Bool) :
    ∃ after, (state.taskParsed options task message payload withinRateLimit).executions[execution]? =
        some after ∧
      ExecutionChange options state (.taskParsed task payload withinRateLimit) execution entry
        after := by
  cases payload with
  | none => exact ⟨entry, known, .unchanged rfl⟩
  | some parsed =>
    simp only [TransportState.taskParsed]
    split
    · split <;> exact ⟨entry, known, .unchanged rfl⟩
    · rename_i requestId accepted
      simp only [TransportState.abortPendingRequest]
      split
      · exact ⟨entry, known, .unchanged rfl⟩
      · rename_i target found
        refine ⟨_, getElem?_modify_entry known, ?_⟩
        split
        · rename_i same
          subst same
          refine .canceled ?_
          simp only [TransportState.cancelTarget, waiting, accepted, found]
        · exact .unchanged rfl
    · rename_i request accepted
      rcases handleRequest_executions options state task message.client
        request withinRateLimit with same | started
      · exact ⟨entry, by rw [same, known], .unchanged rfl⟩
      · have bound := (List.getElem?_eq_some_iff.mp known).1
        refine ⟨entry, ?_, .unchanged rfl⟩
        rw [started]
        exact (List.getElem?_append_left bound).trans known

theorem send_execution (known : state.executions[execution]? = some entry) (response : Response)
    (delivered : Bool) :
    ∃ after, (state.sendWebSocketMessage response delivered).executions[execution]? = some after ∧
      Closes entry after := by
  rcases send_executions state response delivered execution with same | aborted
  · exact ⟨entry, same.trans known, Or.inl rfl⟩
  · exact ⟨entry.abortForClose, by rw [aborted, known, Option.map_some], Or.inr rfl⟩

theorem taskReplied_execution (known : state.executions[execution]? = some entry) (task : TaskId)
    (message : MessageTask) (requestId : RequestId) (outcome : FrameOutcome) :
    ∃ after, (state.taskReplied task message requestId outcome).executions[execution]? =
      some after ∧ Closes entry after := by
  cases outcome with
  | encodeFailed => exact close_execution known _
  | sent => exact send_execution known _ _
  | notSent => exact send_execution known _ _

theorem resumeExecution_change (options : TransportOptions) (state : TransportState)
    (execution : ExecutionId) {outcome : Settlement} (settled : entry.phase = .settled outcome) :
    ∃ update : Execution → Execution,
      (state.resumeExecution execution entry outcome).executions =
        state.executions.modify execution update ∧
      ExecutionChange options state (.executionResumes execution) execution entry (update entry) := by
  cases outcome with
  | value =>
    simp only [TransportState.resumeExecution]
    split
    · rename_i aborted
      exact ⟨_, finishExecution_executions _ _, .dropped rfl settled aborted⟩
    · rename_i running
      exact ⟨_, rfl, .resumed rfl settled (by simpa [Settlement.dropped] using running)⟩
  | error =>
    simp only [TransportState.resumeExecution]
    split
    · rename_i canceled
      exact ⟨_, finishExecution_executions _ _, .dropped rfl settled canceled⟩
    · rename_i running
      exact ⟨_, rfl, .resumed rfl settled (by simpa [Settlement.dropped] using running)⟩
  | aborted =>
    simp only [TransportState.resumeExecution]
    split
    · rename_i canceled
      exact ⟨_, finishExecution_executions _ _, .dropped rfl settled canceled⟩
    · rename_i running
      exact ⟨_, rfl, .resumed rfl settled (by simpa [Settlement.dropped] using running)⟩

theorem respond_execution (known : state.executions[other]? = some entry) (response : Response)
    (delivered : Bool) (execution : ExecutionId) (ending : Execution) :
    ∃ after, Closes entry after ∧
      ((state.sendWebSocketMessage response delivered).finishExecution execution
        ending).executions[other]? = some (if execution = other then after.finish else after) := by
  obtain ⟨after, found, closes⟩ := send_execution known response delivered
  refine ⟨after, closes, ?_⟩
  rw [finishExecution_executions, getElem?_modify_entry found]

theorem responseEncoded_execution (known : state.executions[other]? = some entry)
    {ending : Execution} (ends : state.executions[execution]? = some ending)
    (encoding : ending.phase.encoding) (outcome : FrameOutcome) :
    ∃ after, (state.responseEncoded execution ending outcome).executions[other]? = some after ∧
      ExecutionChange options state (.responseEncoded execution outcome) other entry after := by
  have responds : ∀ response delivered, ∃ after,
      ((state.sendWebSocketMessage response delivered).finishExecution execution
        ending).executions[other]? = some after ∧
      ExecutionChange options state (.responseEncoded execution outcome) other entry after := by
    intro response delivered
    obtain ⟨after, closes, found⟩ := respond_execution known response delivered execution ending
    refine ⟨_, found, ?_⟩
    split
    · rename_i same
      subst same
      rw [ends, Option.some.injEq] at known
      exact .ended rfl (known ▸ encoding) closes
    · rename_i different
      exact changes_of_closes closes (by simpa [TransportEvent.continues] using different)
  cases outcome with
  | encodeFailed =>
    simp only [TransportState.responseEncoded]
    split
    · rename_i fails
      refine ⟨_, getElem?_modify_entry known, ?_⟩
      split
      · rename_i same
        subst same
        rw [ends, Option.some.injEq] at known
        subst known
        exact .encodeFailed rfl fails.1 fails.2
      · rename_i different
        exact .unchanged (by simpa [TransportEvent.continues] using different)
    · refine ⟨_, by rw [finishExecution_executions, getElem?_modify_entry known], ?_⟩
      split
      · rename_i same
        subst same
        rw [ends, Option.some.injEq] at known
        exact .ended rfl (known ▸ encoding) (Or.inl rfl)
      · rename_i different
        exact .unchanged (by simpa [TransportEvent.continues] using different)
  | sent => exact responds _ true
  | notSent => exact responds _ false

end Operations

section Step

variable {options : TransportOptions} {state next : TransportState} {event : TransportEvent}
  {execution : ExecutionId} {entry : Execution}

theorem modify_change (known : state.executions[execution]? = some entry) {target : ExecutionId}
    {update : Execution → Execution}
    (foreign : target ≠ execution → event.continues execution = false)
    (change : execution = target →
      ExecutionChange options state event execution entry (update entry)) :
    ∃ after, (state.executions.modify target update)[execution]? = some after ∧
      ExecutionChange options state event execution entry after := by
  refine ⟨_, getElem?_modify_entry known, ?_⟩
  split
  · rename_i same
    exact change same.symm
  · rename_i different
    exact .unchanged (foreign different)

theorem changes_of_closed {after : TransportState}
    (closes : ∃ changed, after.executions[execution]? = some changed ∧ Closes entry changed)
    (foreign : event.continues execution = false) :
    ∃ changed, after.executions[execution]? = some changed ∧
      ExecutionChange options state event execution entry changed := by
  obtain ⟨changed, found, closed⟩ := closes
  exact ⟨changed, found, changes_of_closes closed foreign⟩

theorem step_execution (stepped : transportStep options state event = some next)
    (known : state.executions[execution]? = some entry) :
    ∃ after, next.executions[execution]? = some after ∧
      ExecutionChange options state event execution entry after := by
  have kept : ∀ {after : TransportState}, after.accounts = state.accounts →
      event.continues execution = false → ∃ changed, after.executions[execution]? = some changed ∧
        ExecutionChange options state event execution entry changed := by
    intro after same foreign
    exact ⟨entry, by rw [executions_of_accounts same, known], .unchanged foreign⟩
  cases callback_of_step stepped with
  | opened => exact kept (TransportState.accounts_open _ _) rfl
  | closed _ => exact changes_of_closed (close_execution known _) rfl
  | drained _ => exact kept (TransportState.accounts_drain _ _) rfl
  | closeSession => exact changes_of_closed (closeAll_execution known _) rfl
  | closeUser => exact changes_of_closed (closeAll_execution known _) rfl
  | message _ => exact kept (TransportState.accounts_handleMessage _ _ _) rfl
  | taskStarts => exact changes_of_closed (startTask_execution known _ _ _ _) rfl
  | taskParsed waiting _ => exact taskParsed_execution known waiting _ _
  | taskReplied => exact changes_of_closed (taskReplied_execution known _ _ _ _) rfl
  | handlerSettles there awaiting =>
    apply modify_change known (by simp [TransportEvent.continues])
    rintro rfl
    rw [there, Option.some.injEq] at known
    exact .settled rfl (known ▸ awaiting)
  | timeout there _ =>
    apply modify_change known (fun _ => rfl)
    rintro rfl
    exact .timedOut rfl
  | @executionResumes target _ outcome there settled =>
    obtain ⟨update, modified, change⟩ :=
      resumeExecution_change options state target settled
    rw [modified]
    apply modify_change known (by simp [TransportEvent.continues])
    rintro rfl
    rw [there, Option.some.injEq] at known
    exact known ▸ change
  | responseEncoded there encoding => exact responseEncoded_execution known there encoding _

def LastAct (state next : TransportState) (event : TransportEvent) (response : Response) : Prop :=
  ∀ execution, response.sentBy = .execution execution →
    ∃ entry outcome, state.executions[execution]? = some entry ∧ entry.phase.encoding ∧
      event = .responseEncoded execution outcome ∧ response.client = entry.client ∧
      response.requestId = entry.requestId ∧
      ∃ after, next.executions[execution]? = some after ∧ after.phase = .finished

theorem respond_lastAct {ending : Execution} (there : state.executions[execution]? = some ending)
    (encoding : ending.phase.encoding) (outcome : FrameOutcome) (ok delivered : Bool) :
    LastAct state
      ((state.sendWebSocketMessage
        ⟨ending.client, ending.requestId, ok, .execution execution⟩ delivered).finishExecution
          execution ending)
      (.responseEncoded execution outcome)
      ⟨ending.client, ending.requestId, ok, .execution execution⟩ := by
  intro other sentBy
  obtain rfl := Replier.execution.inj sentBy
  obtain ⟨after, _, found⟩ := respond_execution there
    ⟨ending.client, ending.requestId, ok, .execution execution⟩ delivered execution ending
  exact ⟨ending, outcome, there, encoding, rfl, rfl, rfl, _, found, by simp [Execution.finish]⟩

theorem step_sent (stepped : transportStep options state event = some next) :
    next.sent = state.sent ∨
      ∃ response, next.sent = state.sent ++ [response] ∧ LastAct state next event response := by
  cases callback_of_step stepped with
  | opened => exact Or.inl (sent_of_accounts (TransportState.accounts_open _ _))
  | closed _ => exact Or.inl (close_sent _)
  | drained _ => exact Or.inl (sent_of_accounts (TransportState.accounts_drain _ _))
  | closeSession => exact Or.inl (closeAll_sent _)
  | closeUser => exact Or.inl (closeAll_sent _)
  | message _ => exact Or.inl rfl
  | taskStarts => exact Or.inl (startTask_sent _ _ _ _)
  | taskParsed => exact Or.inl (taskParsed_sent _ _ _ _)
  | @taskReplied _ _ _ outcome =>
    cases outcome with
    | encodeFailed => exact Or.inl (close_sent _)
    | sent => exact Or.inr ⟨_, send_sent _ true, by simp [LastAct]⟩
    | notSent => exact Or.inr ⟨_, send_sent _ false, by simp [LastAct]⟩
  | handlerSettles => exact Or.inl rfl
  | timeout => exact Or.inl rfl
  | @executionResumes _ entry outcome =>
    refine Or.inl ?_
    cases outcome with
    | value =>
      simp only [TransportState.resumeExecution]
      split
      · exact finishExecution_sent _ _
      · rfl
    | error =>
      simp only [TransportState.resumeExecution]
      split
      · exact finishExecution_sent _ _
      · rfl
    | aborted =>
      simp only [TransportState.resumeExecution]
      split
      · exact finishExecution_sent _ _
      · rfl
  | @responseEncoded target entry outcome there encoding =>
    cases outcome with
    | encodeFailed =>
      refine Or.inl ?_
      simp only [TransportState.responseEncoded]
      split
      · rfl
      · exact finishExecution_sent _ _
    | sent =>
      exact Or.inr ⟨_, (finishExecution_sent _ _).trans (send_sent _ _),
        respond_lastAct there encoding .sent _ true⟩
    | notSent =>
      exact Or.inr ⟨_, (finishExecution_sent _ _).trans (send_sent _ _),
        respond_lastAct there encoding .notSent _ false⟩

theorem cancelTarget_foreign {target : ExecutionId}
    (canceled : state.cancelTarget options event = some target) :
    event.continues execution = false := by
  cases event with
  | taskParsed => rfl
  | _ => exact absurd canceled (by simp [TransportState.cancelTarget])

def ExecutionPhase.remaining : ExecutionPhase → Nat
  | .awaiting => 4
  | .settled _ => 3
  | .encodingResult => 2
  | .encodingError => 1
  | .finished => 0

theorem abort_remaining (entry : Execution) (reason : AbortReason) :
    (entry.abort reason).phase.remaining ≤ entry.phase.remaining := by
  rcases abort_phase entry reason with same | ⟨before, after⟩
  · exact same ▸ Nat.le_refl _
  · rw [before, after]
    simp [ExecutionPhase.remaining]

theorem change_remaining {after : Execution}
    (change : ExecutionChange options state event execution entry after) :
    after.phase.remaining + (event.continues execution).toNat ≤ entry.phase.remaining := by
  cases change with
  | unchanged foreign => simp [foreign]
  | closed foreign =>
    rw [foreign]
    exact abort_remaining _ _
  | canceled target =>
    rw [cancelTarget_foreign target]
    exact abort_remaining _ _
  | timedOut timer =>
    subst timer
    exact abort_remaining _ _
  | settled own awaiting =>
    subst own
    simp [Execution.moveTo, awaiting, ExecutionPhase.remaining, TransportEvent.continues]
  | @resumed outcome own settled _ =>
    subst own
    cases outcome <;>
      simp [Execution.moveTo, settled, Settlement.next, ExecutionPhase.remaining,
        TransportEvent.continues]
  | dropped own settled _ =>
    subst own
    simp [Execution.finish, settled, ExecutionPhase.remaining, TransportEvent.continues]
  | encodeFailed own encoding _ =>
    subst own
    simp [Execution.moveTo, encoding, ExecutionPhase.remaining, TransportEvent.continues]
  | ended own encoding closes =>
    subst own
    rcases encoding with result | error
    · simp [Execution.finish, result, ExecutionPhase.remaining, TransportEvent.continues]
    · simp [Execution.finish, error, ExecutionPhase.remaining, TransportEvent.continues]

theorem closes_client {after : Execution} (closes : Closes entry after) :
    after.client = entry.client := by
  rcases closes with rfl | rfl
  · rfl
  · exact abortForClose_client

theorem change_client {after : Execution}
    (change : ExecutionChange options state event execution entry after) :
    after.client = entry.client := by
  cases change with
  | closed => exact abortForClose_client
  | canceled => exact cancel_client
  | timedOut => exact abort_client
  | @ended _ after _ _ closes =>
    have same : after.client = entry.client := closes_client closes
    exact same
  | _ => rfl

theorem remaining_eq_zero {phase : ExecutionPhase} : phase.remaining = 0 ↔ phase = .finished := by
  cases phase <;> simp [ExecutionPhase.remaining]

theorem change_finished {after : Execution}
    (change : ExecutionChange options state event execution entry after)
    (ended : entry.phase = .finished) : after.phase = .finished := by
  have less := change_remaining change
  rw [remaining_eq_zero.mpr ended] at less
  exact remaining_eq_zero.mp (by omega)

theorem run_remaining {events : List TransportEvent}
    (ran : run (transportStep options) (fun _ _ => true) state events = some next)
    (known : state.executions[execution]? = some entry) :
    ∃ after, next.executions[execution]? = some after ∧
      after.phase.remaining + events.countP (·.continues execution) ≤ entry.phase.remaining := by
  induction events generalizing state entry with
  | nil =>
    simp only [run, Option.some.injEq] at ran
    exact ⟨entry, ran ▸ known, by simp⟩
  | cons event events ih =>
    simp only [run, if_true] at ran
    obtain ⟨middle, stepped, rest⟩ := Option.bind_eq_some_iff.mp ran
    obtain ⟨between, found, change⟩ := step_execution stepped known
    obtain ⟨after, foundAfter, bound⟩ := ih rest found
    refine ⟨after, foundAfter, ?_⟩
    have first := change_remaining change
    rw [List.countP_cons]
    cases own : event.continues execution <;> simp [own] at first ⊢ <;> omega

theorem continues_of_running (options : TransportOptions)
    (known : state.executions[execution]? = some entry) (running : entry.phase ≠ .finished) :
    ∃ event, event.continues execution = true ∧
      (transportStep options state event).isSome = true := by
  cases phase : entry.phase with
  | awaiting =>
    refine ⟨.handlerSettles execution false, by simp [TransportEvent.continues], ?_⟩
    simp [transportStep, known, phase]
  | settled outcome =>
    refine ⟨.executionResumes execution, by simp [TransportEvent.continues], ?_⟩
    simp [transportStep, known, phase]
  | encodingResult =>
    refine ⟨.responseEncoded execution .sent, by simp [TransportEvent.continues], ?_⟩
    simp [transportStep, known, phase]
  | encodingError =>
    refine ⟨.responseEncoded execution .sent, by simp [TransportEvent.continues], ?_⟩
    simp [transportStep, known, phase]
  | finished => exact absurd phase running

def RespondersEnded (state : TransportState) : Prop :=
  ∀ response ∈ state.sent, ∀ execution, response.sentBy = .execution execution →
    ∃ entry, state.executions[execution]? = some entry ∧ entry.phase = .finished

theorem respondersEnded_step (holds : RespondersEnded state)
    (stepped : transportStep options state event = some next) : RespondersEnded next := by
  have earlier : ∀ response ∈ state.sent, ∀ execution, response.sentBy = .execution execution →
      ∃ entry, next.executions[execution]? = some entry ∧ entry.phase = .finished := by
    intro response member execution sentBy
    obtain ⟨entry, known, ended⟩ := holds response member execution sentBy
    obtain ⟨after, found, change⟩ := step_execution stepped known
    exact ⟨after, found, change_finished change ended⟩
  rcases step_sent stepped with same | ⟨last, appended, act⟩
  · intro response member
    exact earlier response (same ▸ member)
  · intro response member execution sentBy
    rw [appended, List.mem_append, List.mem_singleton] at member
    rcases member with member | rfl
    · exact earlier response member execution sentBy
    · obtain ⟨_, _, _, _, _, _, _, ended⟩ := act execution sentBy
      exact ended

theorem respondersEnded_of_reaches {allowed : TransportState → TransportEvent → Prop}
    (reached : Reaches (transportStep options) allowed .initial state) : RespondersEnded state :=
  reached.invariant _ (by simp [RespondersEnded, TransportState.initial])
    fun _ _ _ holds _ stepped => respondersEnded_step holds stepped

end Step

section Samples

def sampleOptions : TransportOptions where
  methods := ⟨["listThreads"], by decide⟩
  maxPayloadBytes := 100
  maxPendingRequests := 1
  maxPendingRequestsPerClient := 1

def sampleData : SocketData := ⟨some "session", some 7⟩

def sampleMessage (client : ClientId) (task : TaskId) : List TransportEvent :=
  [.message client 10, .taskStarts task (.accepted sampleData) true]

def samplePayload (type : String) (requestId : RequestId) : ParsedRpcClientMessage where
  type := some type
  id := some requestId
  method := some "listThreads"
  paramsValid := true
  timeoutMs := none

end Samples

end Metidos.Rpc
