import Metidos.Rpc.TransportCore

/-!
What the operations of the transport change: the pending maps, their counter and the executions
on one side, the client set and the session index on the other.
-/

namespace Metidos.Rpc

section Abort

variable {execution : Execution} {reason : AbortReason}

@[simp] theorem abort_client : (execution.abort reason).client = execution.client := by
  rw [Execution.abort]
  split <;> rfl

@[simp] theorem abort_requestId : (execution.abort reason).requestId = execution.requestId := by
  rw [Execution.abort]
  split <;> rfl

@[simp] theorem abort_canceledByClient :
    (execution.abort reason).canceledByClient = execution.canceledByClient := by
  rw [Execution.abort]
  split <;> rfl

@[simp] theorem abort_aborted : (execution.abort reason).aborted.isSome = true := by
  rw [Execution.abort]
  split
  · rename_i known
    simp [known]
  · rfl

theorem abort_phase (execution : Execution) (reason : AbortReason) :
    (execution.abort reason).phase = execution.phase ∨
    execution.phase = .awaiting ∧ (execution.abort reason).phase = .settled .aborted := by
  rw [Execution.abort]
  split
  · exact Or.inl rfl
  · by_cases awaiting : execution.phase = .awaiting
    · exact Or.inr ⟨awaiting, by simp [awaiting]⟩
    · exact Or.inl (by simp [awaiting])

@[simp] theorem abort_finished :
    (execution.abort reason).phase = .finished ↔ execution.phase = .finished := by
  rcases abort_phase execution reason with same | ⟨before, after⟩
  · rw [same]
  · simp [before, after]

@[simp] theorem cancel_client : execution.cancel.client = execution.client := by
  simp [Execution.cancel]

@[simp] theorem cancel_requestId : execution.cancel.requestId = execution.requestId := by
  simp [Execution.cancel]

@[simp] theorem cancel_finished :
    execution.cancel.phase = .finished ↔ execution.phase = .finished := by
  simp [Execution.cancel]

@[simp] theorem abortForClose_client : execution.abortForClose.client = execution.client := by
  simp [Execution.abortForClose]

@[simp] theorem abortForClose_requestId :
    execution.abortForClose.requestId = execution.requestId := by
  simp [Execution.abortForClose]

@[simp] theorem abortForClose_finished :
    execution.abortForClose.phase = .finished ↔ execution.phase = .finished := by
  simp [Execution.abortForClose]

theorem abortForClose_idempotent (execution : Execution) :
    execution.abortForClose.abortForClose = execution.abortForClose := by
  cases known : execution.aborted <;> simp [Execution.abortForClose, Execution.abort, known]

end Abort

def ExecutionPhase.encoding (phase : ExecutionPhase) : Prop :=
  phase = .encodingResult ∨ phase = .encodingError

structure Accounts where
  pendingRequestsByClient : OrderedMap ClientId (OrderedMap RequestId ExecutionId)
  pendingRequestCount : Nat
  executions : List Execution
  sent : List Response

structure Registry where
  nextClient : ClientId
  clients : OrderedSet ClientId
  clientsBySessionId : OrderedMap SessionId (OrderedSet ClientId)
  indexedClientSessionId : OrderedMap ClientId SessionId
  data : OrderedMap ClientId SocketData

def Accounts.abortAll (accounts : Accounts) (client : ClientId) : Accounts :=
  match accounts.pendingRequestsByClient.get? client with
  | none => accounts
  | some pending =>
    { accounts with
      pendingRequestsByClient := accounts.pendingRequestsByClient.delete client
      pendingRequestCount := accounts.pendingRequestCount - pending.size
      executions := pending.values.foldl (fun entries execution =>
        entries.modify execution Execution.abortForClose) accounts.executions }

namespace TransportState

def accounts (state : TransportState) : Accounts :=
  { pendingRequestsByClient := state.pendingRequestsByClient
    pendingRequestCount := state.pendingRequestCount
    executions := state.executions
    sent := state.sent }

def registry (state : TransportState) : Registry :=
  { nextClient := state.nextClient
    clients := state.clients
    clientsBySessionId := state.clientsBySessionId
    indexedClientSessionId := state.indexedClientSessionId
    data := state.data }

section Frames

variable (state : TransportState) (client : ClientId)

@[simp] theorem accounts_modifyTask (task : TaskId) (phase : TaskPhase) :
    (state.modifyTask task phase).accounts = state.accounts := rfl

@[simp] theorem accounts_handleMessage (messageByteLength : Nat) :
    (state.handleMessage client messageByteLength).accounts = state.accounts := rfl

@[simp] theorem accounts_addClientToSessionIndex (sessionId : SessionId) :
    (state.addClientToSessionIndex client sessionId).accounts = state.accounts := rfl

@[simp] theorem accounts_removeClientFromSessionIndex (sessionId : SessionId) :
    (state.removeClientFromSessionIndex client sessionId).accounts = state.accounts := by
  rw [removeClientFromSessionIndex]
  split
  · rfl
  · simp only
    split <;> rfl

@[simp] theorem accounts_removeClientIndexes :
    (state.removeClientIndexes client).accounts = state.accounts := by
  rw [removeClientIndexes]
  split
  · rfl
  · rename_i sessionId _
    exact accounts_removeClientFromSessionIndex state client sessionId

@[simp] theorem accounts_refreshClientIndexes :
    (state.refreshClientIndexes client).accounts = state.accounts := by
  simp only [refreshClientIndexes]
  split
  · split
    · split <;> simp
    · split <;> simp
  · split <;> simp

@[simp] theorem accounts_open (data : SocketData) : (state.open data).accounts = state.accounts := by
  rw [TransportState.open]
  exact accounts_refreshClientIndexes _ _

@[simp] theorem accounts_drain : (state.drain client).accounts = state.accounts := by
  rw [drain]
  split
  · exact accounts_refreshClientIndexes _ _
  · rfl

@[simp] theorem registry_modifyTask (task : TaskId) (phase : TaskPhase) :
    (state.modifyTask task phase).registry = state.registry := rfl

@[simp] theorem registry_handleMessage (messageByteLength : Nat) :
    (state.handleMessage client messageByteLength).registry = state.registry := rfl

@[simp] theorem registry_modifyExecution (execution : ExecutionId) (update : Execution → Execution) :
    (state.modifyExecution execution update).registry = state.registry := rfl

@[simp] theorem registry_register (request : RpcRequest) :
    (state.register client request).registry = state.registry := rfl

@[simp] theorem registry_startExecution (request : RpcRequest) :
    (state.startExecution client request).registry = state.registry := rfl

@[simp] theorem registry_finishExecution (execution : ExecutionId) (entry : Execution) :
    (state.finishExecution execution entry).registry = state.registry := by
  simp only [finishExecution]
  split <;> rfl

@[simp] theorem registry_abortPendingRequest (requestId : RequestId) :
    (state.abortPendingRequest client requestId).registry = state.registry := by
  rw [abortPendingRequest]
  split <;> rfl

end Frames

section Closing

theorem foldl_modifyExecution (state : TransportState) (executions : List ExecutionId)
    (update : Execution → Execution) :
    executions.foldl (fun state execution => state.modifyExecution execution update) state =
      { state with
        executions := executions.foldl (fun entries execution => entries.modify execution update)
          state.executions } := by
  induction executions generalizing state with
  | nil => rfl
  | cons execution executions ih =>
    rw [List.foldl_cons, ih]
    rfl

theorem getElem?_foldl_modify {α : Type} {update : α → α} (idempotent : ∀ entry, update (update entry) = update entry)
    (positions : List Nat) (entries : List α) (position : Nat) :
    (positions.foldl (fun entries position => entries.modify position update) entries)[position]? =
      entries[position]?.map fun entry => if position ∈ positions then update entry else entry := by
  induction positions generalizing entries with
  | nil => simp
  | cons first positions ih =>
    rw [List.foldl_cons, ih, List.getElem?_modify]
    cases found : entries[position]? with
    | none => simp
    | some entry =>
      by_cases same : first = position
      · subst same
        by_cases again : first ∈ positions
        · simp [again, idempotent]
        · simp [again]
      · simp [same, Ne.symm same]

theorem accounts_abortAllPendingRequests (state : TransportState) (client : ClientId) :
    (state.abortAllPendingRequests client).accounts = state.accounts.abortAll client := by
  simp only [abortAllPendingRequests, Accounts.abortAll, accounts]
  cases state.pendingRequestsByClient.get? client with
  | none => rfl
  | some pending =>
    simp only [foldl_modifyExecution]
    rfl

theorem registry_abortAllPendingRequests (state : TransportState) (client : ClientId) :
    (state.abortAllPendingRequests client).registry = state.registry := by
  simp only [abortAllPendingRequests]
  cases state.pendingRequestsByClient.get? client with
  | none => rfl
  | some pending =>
    simp only [foldl_modifyExecution]
    rfl

@[simp] theorem accounts_close (state : TransportState) (client : ClientId) :
    (state.close client).accounts = state.accounts.abortAll client := by
  rw [close, accounts_abortAllPendingRequests, accounts_removeClientIndexes]
  rfl

def unregister (state : TransportState) (client : ClientId) : TransportState :=
  { state with
    clients := state.clients.delete client
    clientMessageQueueTail := state.clientMessageQueueTail.delete client }

@[simp] theorem registry_close (state : TransportState) (client : ClientId) :
    (state.close client).registry =
      ((state.unregister client).removeClientIndexes client).registry := by
  rw [close, registry_abortAllPendingRequests]
  rfl

end Closing

end TransportState

section Executions

variable {state : TransportState}

theorem getElem?_modify_entry {executions : List Execution} {execution other : ExecutionId}
    {update : Execution → Execution} {entry : Execution} (found : executions[other]? = some entry) :
    (executions.modify execution update)[other]? =
      some (if execution = other then update entry else entry) := by
  rw [List.getElem?_modify, found]
  rfl

theorem getElem?_abortForClose (executions : List ExecutionId) (entries : List Execution)
    (execution : ExecutionId) :
    (executions.foldl (fun entries execution => entries.modify execution Execution.abortForClose)
        entries)[execution]? =
      entries[execution]?.map fun entry =>
        if execution ∈ executions then entry.abortForClose else entry :=
  TransportState.getElem?_foldl_modify abortForClose_idempotent executions entries execution

theorem finishExecution_executions (execution : ExecutionId) (entry : Execution) :
    (state.finishExecution execution entry).executions =
      state.executions.modify execution Execution.finish := by
  simp only [TransportState.finishExecution]
  split <;> rfl

theorem finishExecution_sent (execution : ExecutionId) (entry : Execution) :
    (state.finishExecution execution entry).sent = state.sent := by
  simp only [TransportState.finishExecution]
  split <;> rfl

theorem abortAll_sent (accounts : Accounts) (client : ClientId) :
    (accounts.abortAll client).sent = accounts.sent := by
  rw [Accounts.abortAll]
  split <;> rfl

theorem abortAll_executions (accounts : Accounts) (client : ClientId) (execution : ExecutionId) :
    (accounts.abortAll client).executions[execution]? = accounts.executions[execution]? ∨
      (accounts.abortAll client).executions[execution]? =
        accounts.executions[execution]?.map Execution.abortForClose := by
  rw [Accounts.abortAll]
  split
  · exact Or.inl rfl
  · simp only [getElem?_abortForClose]
    split
    · exact Or.inr rfl
    · exact Or.inl Option.map_id'

theorem send_sent (response : Response) (delivered : Bool) :
    (state.sendWebSocketMessage response delivered).sent = state.sent ++ [response] := by
  simp only [TransportState.sendWebSocketMessage]
  split
  · rfl
  · exact (congrArg Accounts.sent (TransportState.accounts_close _ _)).trans (abortAll_sent _ _)

theorem send_executions (state : TransportState) (response : Response) (delivered : Bool)
    (execution : ExecutionId) :
    (state.sendWebSocketMessage response delivered).executions[execution]? =
        state.executions[execution]? ∨
      (state.sendWebSocketMessage response delivered).executions[execution]? =
        state.executions[execution]?.map Execution.abortForClose := by
  simp only [TransportState.sendWebSocketMessage]
  split
  · exact Or.inl rfl
  · have same := congrArg Accounts.executions (TransportState.accounts_close
      { state with sent := state.sent ++ [response] } response.client)
    change (TransportState.close _ _).executions = _ at same
    rw [same]
    exact abortAll_executions _ _ _

end Executions

inductive Callback (options : TransportOptions) (state : TransportState) :
    TransportEvent → TransportState → Prop
  | opened {data} : Callback options state (.opened data) (state.open data)
  | closed {client} : client < state.nextClient →
      Callback options state (.closed client) (state.close client)
  | drained {client} : client < state.nextClient →
      Callback options state (.drained client) (state.drain client)
  | closeSession {sessionId} :
      Callback options state (.closeSession sessionId) (state.closeSession sessionId)
  | closeUser {userId} : Callback options state (.closeUser userId) (state.closeUser userId)
  | message {client messageByteLength} : client < state.nextClient →
      Callback options state (.message client messageByteLength)
        (state.handleMessage client messageByteLength)
  | taskStarts {task entry revalidation withinBudget} : state.tasks[task]? = some entry →
      entry.phase = .waiting → state.previousDone entry = true →
      Callback options state (.taskStarts task revalidation withinBudget)
        (state.startTask options task entry revalidation withinBudget)
  | taskParsed {task entry payload withinRateLimit} : state.tasks[task]? = some entry →
      entry.phase = .parsing →
      Callback options state (.taskParsed task payload withinRateLimit)
        (state.taskParsed options task entry payload withinRateLimit)
  | taskReplied {task entry requestId outcome} : state.tasks[task]? = some entry →
      entry.phase = .replying requestId →
      Callback options state (.taskReplied task outcome)
        (state.taskReplied task entry requestId outcome)
  | handlerSettles {execution entry failed} : state.executions[execution]? = some entry →
      entry.phase = .awaiting →
      Callback options state (.handlerSettles execution failed)
        (state.modifyExecution execution (·.moveTo (.settled (if failed then .error else .value))))
  | timeout {execution entry} : state.executions[execution]? = some entry →
      entry.timerActive = true →
      Callback options state (.timeout execution) (state.modifyExecution execution (·.timeOut))
  | executionResumes {execution entry outcome} : state.executions[execution]? = some entry →
      entry.phase = .settled outcome →
      Callback options state (.executionResumes execution)
        (state.resumeExecution execution entry outcome)
  | responseEncoded {execution entry outcome} : state.executions[execution]? = some entry →
      entry.phase.encoding →
      Callback options state (.responseEncoded execution outcome)
        (state.responseEncoded execution entry outcome)

theorem callback_of_step {options : TransportOptions} {state next : TransportState}
    {event : TransportEvent} (stepped : transportStep options state event = some next) :
    Callback options state event next := by
  cases event with
  | opened data => exact Option.some.inj stepped ▸ .opened
  | closeSession sessionId => exact Option.some.inj stepped ▸ .closeSession
  | closeUser userId => exact Option.some.inj stepped ▸ .closeUser
  | closed client =>
    obtain ⟨known, ⟨⟩⟩ := Option.ite_none_right_eq_some.mp stepped
    exact .closed known
  | drained client =>
    obtain ⟨known, ⟨⟩⟩ := Option.ite_none_right_eq_some.mp stepped
    exact .drained known
  | message client messageByteLength =>
    obtain ⟨known, ⟨⟩⟩ := Option.ite_none_right_eq_some.mp stepped
    exact .message known
  | taskStarts task revalidation withinBudget =>
    obtain ⟨entry, found, runs⟩ := Option.bind_eq_some_iff.mp stepped
    obtain ⟨⟨waiting, turn⟩, ⟨⟩⟩ := Option.ite_none_right_eq_some.mp runs
    exact .taskStarts found waiting turn
  | taskParsed task payload withinRateLimit =>
    obtain ⟨entry, found, runs⟩ := Option.bind_eq_some_iff.mp stepped
    obtain ⟨parsing, ⟨⟩⟩ := Option.ite_none_right_eq_some.mp runs
    exact .taskParsed found parsing
  | taskReplied task outcome =>
    obtain ⟨entry, found, runs⟩ := Option.bind_eq_some_iff.mp stepped
    split at runs
    · rename_i requestId replying
      exact Option.some.inj runs ▸ .taskReplied found replying
    · exact absurd runs (by simp)
  | handlerSettles execution failed =>
    obtain ⟨entry, found, runs⟩ := Option.bind_eq_some_iff.mp stepped
    obtain ⟨awaiting, ⟨⟩⟩ := Option.ite_none_right_eq_some.mp runs
    exact .handlerSettles found awaiting
  | timeout execution =>
    obtain ⟨entry, found, runs⟩ := Option.bind_eq_some_iff.mp stepped
    obtain ⟨active, ⟨⟩⟩ := Option.ite_none_right_eq_some.mp runs
    exact .timeout found active
  | executionResumes execution =>
    obtain ⟨entry, found, runs⟩ := Option.bind_eq_some_iff.mp stepped
    split at runs
    · rename_i outcome settled
      exact Option.some.inj runs ▸ .executionResumes found settled
    · exact absurd runs (by simp)
  | responseEncoded execution outcome =>
    obtain ⟨entry, found, runs⟩ := Option.bind_eq_some_iff.mp stepped
    obtain ⟨encoding, ⟨⟩⟩ := Option.ite_none_right_eq_some.mp runs
    exact .responseEncoded found encoding

end Metidos.Rpc
