import Metidos.Library.ExceptRules
import Metidos.Rpc.TransportChanges

/-!
Pending-request accounting: the counter is the sum of the pending maps, the caps hold, and every
pending entry has a started execution that takes it out again.
-/

namespace Metidos.Rpc

open Transition

structure Accounting (options : TransportOptions) (accounts : Accounts) : Prop where
  counted : accounts.pendingRequestCount = accounts.pendingRequestsByClient.total OrderedMap.size
  clientCap : ∀ client pending, accounts.pendingRequestsByClient.get? client = some pending →
    pending.size ≤ options.maxPendingRequestsPerClient
  serverCap : accounts.pendingRequestCount ≤ options.maxPendingRequests
  started : ∀ client pending requestId execution,
    accounts.pendingRequestsByClient.get? client = some pending →
    pending.get? requestId = some execution →
    ∃ entry, accounts.executions[execution]? = some entry ∧ entry.client = client ∧
      entry.requestId = requestId ∧ entry.phase ≠ .finished

structure KeepsRunning (update : Execution → Execution) : Prop where
  client : ∀ entry, (update entry).client = entry.client
  requestId : ∀ entry, (update entry).requestId = entry.requestId
  running : ∀ entry, entry.phase ≠ .finished → (update entry).phase ≠ .finished

section Operations

variable {options : TransportOptions} {accounts : Accounts}

theorem accounting_executions {executions : List Execution} (holds : Accounting options accounts)
    (keeps : ∀ (execution : ExecutionId) (entry : Execution),
      accounts.executions[execution]? = some entry →
      ∃ updated : Execution, executions[execution]? = some updated ∧ updated.client = entry.client ∧
        updated.requestId = entry.requestId ∧
        (entry.phase ≠ .finished → updated.phase ≠ .finished)) :
    Accounting options { accounts with executions } := by
  refine ⟨holds.counted, holds.clientCap, holds.serverCap, ?_⟩
  intro client pending requestId execution found listed
  obtain ⟨entry, known, ofClient, ofRequest, running⟩ :=
    holds.started client pending requestId execution found listed
  obtain ⟨updated, now, sameClient, sameRequest, still⟩ := keeps execution entry known
  exact ⟨updated, now, by rw [sameClient, ofClient], by rw [sameRequest, ofRequest], still running⟩

theorem accounting_modify {update : Execution → Execution} (keeps : KeepsRunning update)
    (holds : Accounting options accounts) (execution : ExecutionId) :
    Accounting options
      { accounts with executions := accounts.executions.modify execution update } := by
  apply accounting_executions holds
  intro other entry known
  refine ⟨_, getElem?_modify_entry known, ?_⟩
  split
  · exact ⟨keeps.client entry, keeps.requestId entry, keeps.running entry⟩
  · exact ⟨rfl, rfl, id⟩

theorem accounting_abortAll (holds : Accounting options accounts) (client : ClientId) :
    Accounting options (accounts.abortAll client) := by
  rw [Accounts.abortAll]
  cases found : accounts.pendingRequestsByClient.get? client with
  | none => exact holds
  | some pending =>
    have removed := OrderedMap.total_delete OrderedMap.size accounts.pendingRequestsByClient client
    rw [found, Option.elim_some] at removed
    have counted := holds.counted
    have bounded := holds.serverCap
    have detached : Accounting options { accounts with
        pendingRequestsByClient := accounts.pendingRequestsByClient.delete client
        pendingRequestCount := accounts.pendingRequestCount - pending.size } := by
      refine ⟨?_, ?_, ?_, ?_⟩
      · simp only
        omega
      · intro other others listed
        simp only [OrderedMap.get?_delete] at listed
        split at listed
        · exact absurd listed (by simp)
        · exact holds.clientCap other others listed
      · simp only
        omega
      · intro other others requestId execution listed
        simp only [OrderedMap.get?_delete] at listed
        split at listed
        · exact absurd listed (by simp)
        · exact holds.started other others requestId execution listed
    apply accounting_executions detached
    intro execution entry known
    refine ⟨_, by rw [getElem?_abortForClose, known, Option.map_some], ?_⟩
    split
    · simp
    · exact ⟨rfl, rfl, id⟩

theorem accounting_sent (holds : Accounting options accounts) (sent : List Response) :
    Accounting options { accounts with sent } :=
  ⟨holds.counted, holds.clientCap, holds.serverCap, holds.started⟩

end Operations

section States

variable {options : TransportOptions} {state : TransportState}

theorem pendingRequests_of_get? {client : ClientId} {pending : OrderedMap RequestId ExecutionId}
    (found : state.pendingRequestsByClient.get? client = some pending) :
    state.pendingRequests client = pending := by
  rw [TransportState.pendingRequests, found, Option.getD_some]

theorem get?_of_pendingRequests {client : ClientId} {requestId : RequestId}
    {execution : ExecutionId}
    (listed : (state.pendingRequests client).get? requestId = some execution) :
    state.pendingRequestsByClient.get? client = some (state.pendingRequests client) := by
  cases found : state.pendingRequestsByClient.get? client with
  | none =>
    rw [TransportState.pendingRequests, found] at listed
    exact absurd listed (by simp)
  | some pending => rw [pendingRequests_of_get? found]

theorem admit_eq_ok {client : ClientId} {requestId : RequestId} {withinRateLimit : Bool}
    (admitted : state.admitRequest options client requestId withinRateLimit = .ok ()) :
    (state.pendingRequests client).get? requestId = none ∧
      (state.pendingRequests client).size + 1 ≤ options.maxPendingRequestsPerClient ∧
      state.pendingRequestCount + 1 ≤ options.maxPendingRequests := by
  simp only [TransportState.admitRequest] at admitted
  split at admitted
  · exact absurd admitted (by simp)
  · split at admitted
    · exact absurd admitted (by simp)
    · rename_i fresh
      split at admitted
      · exact absurd admitted (by simp)
      · split at admitted
        · exact absurd admitted (by simp)
        · refine ⟨?_, by omega, by omega⟩
          simpa [OrderedMap.has] using fresh

theorem accounting_start (holds : Accounting options state.accounts) {client : ClientId}
    {request : RpcRequest} {withinRateLimit : Bool}
    (admitted : state.admitRequest options client request.id withinRateLimit = .ok ()) :
    Accounting options ((state.register client request).startExecution client request).accounts := by
  obtain ⟨fresh, fitsClient, fitsServer⟩ := admit_eq_ok admitted
  have grown := OrderedMap.size_set_of_absent (state.pendingRequests client)
    state.executions.length fresh
  have added := OrderedMap.total_set OrderedMap.size state.pendingRequestsByClient client
    ((state.pendingRequests client).set request.id state.executions.length)
  have before : (state.pendingRequestsByClient.get? client).elim 0 OrderedMap.size =
      (state.pendingRequests client).size := by
    rw [TransportState.pendingRequests]
    cases state.pendingRequestsByClient.get? client <;> rfl
  have counted := holds.counted
  simp only [TransportState.accounts] at counted
  refine ⟨?_, ?_, fitsServer, ?_⟩
  · simp only [TransportState.accounts, TransportState.startExecution, TransportState.register,
      TransportState.setPendingRequests, TransportState.incrementPendingRequestCount]
    omega
  · intro other pending found
    simp only [TransportState.accounts, TransportState.startExecution, TransportState.register,
      TransportState.setPendingRequests, TransportState.incrementPendingRequestCount,
      OrderedMap.get?_set] at found
    split at found
    · rw [Option.some.injEq] at found
      rw [← found, grown]
      exact fitsClient
    · exact holds.clientCap other pending found
  · intro other pending requestId execution found listed
    simp only [TransportState.accounts, TransportState.startExecution, TransportState.register,
      TransportState.setPendingRequests, TransportState.incrementPendingRequestCount,
      OrderedMap.get?_set] at found ⊢
    have earlier : ∀ (new : Execution) pending,
        state.pendingRequestsByClient.get? other = some pending →
        pending.get? requestId = some execution →
        ∃ entry, (state.executions ++ [new])[execution]? = some entry ∧ entry.client = other ∧
          entry.requestId = requestId ∧ entry.phase ≠ .finished := by
      intro new pending found listed
      obtain ⟨entry, known, facts⟩ := holds.started other pending requestId execution found listed
      refine ⟨entry, ?_, facts⟩
      have bound := (List.getElem?_eq_some_iff.mp known).1
      exact (List.getElem?_append_left bound).trans known
    split at found
    · rename_i same
      rw [Option.some.injEq] at found
      rw [← found, OrderedMap.get?_set] at listed
      split at listed
      · rename_i sameRequest
        rw [Option.some.injEq] at listed
        subst listed same sameRequest
        exact ⟨_, List.getElem?_concat_length, rfl, rfl, by simp⟩
      · subst same
        exact earlier _ _ (get?_of_pendingRequests listed) listed
    · exact earlier _ pending found listed

theorem accounting_finish (holds : Accounting options state.accounts) {execution : ExecutionId}
    {entry : Execution} (known : state.executions[execution]? = some entry) :
    Accounting options (state.finishExecution execution entry).accounts := by
  have counted := holds.counted
  simp only [TransportState.accounts] at counted
  -- An entry of any map that names this execution is the one the `finally` block looks at.
  have only : ∀ client pending requestId, state.pendingRequestsByClient.get? client = some pending →
      pending.get? requestId = some execution → client = entry.client ∧
        requestId = entry.requestId := by
    intro client pending requestId found listed
    obtain ⟨other, same, ofClient, ofRequest, _⟩ :=
      holds.started client pending requestId execution found listed
    rw [show state.accounts.executions = state.executions from rfl, known, Option.some.injEq] at same
    subst same
    exact ⟨ofClient.symm, ofRequest.symm⟩
  have others : ∀ client pending requestId other,
      state.pendingRequestsByClient.get? client = some pending →
      pending.get? requestId = some other → other ≠ execution →
      ∃ found, (state.executions.modify execution Execution.finish)[other]? = some found ∧
        found.client = client ∧ found.requestId = requestId ∧ found.phase ≠ .finished := by
    intro client pending requestId other found listed different
    obtain ⟨running, same, facts⟩ := holds.started client pending requestId other found listed
    refine ⟨running, (getElem?_modify_entry same).trans ?_, facts⟩
    rw [if_neg (Ne.symm different)]
  simp only [TransportState.finishExecution]
  split
  · rename_i listed
    change (state.pendingRequests entry.client).get? entry.requestId = some execution at listed
    have mapped := get?_of_pendingRequests listed
    have shrunk := OrderedMap.size_delete_of_present (state.pendingRequests entry.client) listed
    have removed := OrderedMap.total_set OrderedMap.size state.pendingRequestsByClient entry.client
      ((state.pendingRequests entry.client).delete entry.requestId)
    rw [mapped, Option.elim_some] at removed
    have serverCap := holds.serverCap
    simp only [TransportState.accounts] at serverCap
    refine ⟨?_, ?_, ?_, ?_⟩
    · change state.pendingRequestCount - 1 = (state.pendingRequestsByClient.set entry.client
        ((state.pendingRequests entry.client).delete entry.requestId)).total OrderedMap.size
      omega
    · intro client pending found
      change (state.pendingRequestsByClient.set entry.client
        ((state.pendingRequests entry.client).delete entry.requestId)).get? client = _ at found
      rw [OrderedMap.get?_set] at found
      split at found
      · rw [Option.some.injEq] at found
        have cap := holds.clientCap _ _ mapped
        rw [← found]
        omega
      · exact holds.clientCap client pending found
    · change state.pendingRequestCount - 1 ≤ _
      omega
    · intro client pending requestId other found entryListed
      change (state.pendingRequestsByClient.set entry.client
        ((state.pendingRequests entry.client).delete entry.requestId)).get? client = _ at found
      rw [OrderedMap.get?_set] at found
      split at found
      · rename_i same
        rw [Option.some.injEq] at found
        rw [← found, OrderedMap.get?_delete] at entryListed
        split at entryListed
        · exact absurd entryListed (by simp)
        · rename_i differentRequest
          refine others client _ requestId other (same ▸ mapped) entryListed ?_
          rintro rfl
          exact differentRequest (only _ _ _ mapped entryListed).2
      · rename_i different
        refine others client pending requestId other found entryListed ?_
        rintro rfl
        exact different (only _ _ _ found entryListed).1
  · rename_i unlisted
    change ¬(state.pendingRequests entry.client).get? entry.requestId = some execution at unlisted
    refine ⟨holds.counted, holds.clientCap, holds.serverCap, ?_⟩
    intro client pending requestId other found entryListed
    refine others client pending requestId other found entryListed ?_
    rintro rfl
    obtain ⟨rfl, rfl⟩ := only client pending requestId found entryListed
    have same : state.pendingRequests entry.client = pending := pendingRequests_of_get? found
    rw [same] at unlisted
    exact unlisted entryListed

end States

theorem keepsRunning_cancel : KeepsRunning Execution.cancel :=
  ⟨by simp, by simp, by simp⟩

theorem keepsRunning_timeOut : KeepsRunning Execution.timeOut :=
  ⟨by simp [Execution.timeOut], by simp [Execution.timeOut], by simp [Execution.timeOut]⟩

theorem keepsRunning_moveTo {phase : ExecutionPhase} (running : phase ≠ .finished) :
    KeepsRunning (·.moveTo phase) :=
  ⟨fun _ => rfl, fun _ => rfl, fun _ _ => running⟩

section Steps

variable {options : TransportOptions} {state next : TransportState} {event : TransportEvent}

theorem accounting_close (holds : Accounting options state.accounts) (client : ClientId) :
    Accounting options (state.close client).accounts := by
  rw [TransportState.accounts_close]
  exact accounting_abortAll holds client

theorem accounting_closeAll (holds : Accounting options state.accounts) (clients : List ClientId) :
    Accounting options (state.closeAll clients).accounts := by
  induction clients generalizing state with
  | nil => exact holds
  | cons client clients ih => exact ih (accounting_close holds client)

theorem accounting_abortPendingRequest (holds : Accounting options state.accounts)
    (client : ClientId) (requestId : RequestId) :
    Accounting options (state.abortPendingRequest client requestId).accounts := by
  rw [TransportState.abortPendingRequest]
  split
  · exact holds
  · exact accounting_modify keepsRunning_cancel holds _

theorem handler_of_parsed {methods : RpcMethods} {parsed : ParsedRpcClientMessage}
    {request : RpcRequest} (accepted : parseRpcClientMessage methods parsed = .ok (.request request)) :
    methods.property request.method = some .function := by
  have inner : parseRpcRequestMessage methods parsed = .ok request := by
    simp only [parseRpcClientMessage] at accepted
    split at accepted
    · exact absurd accepted (by simp)
    · rw [ExceptRules.map_eq_ok] at accepted
      obtain ⟨found, parsedRequest, same⟩ := accepted
      rw [RpcClientMessage.request.injEq] at same
      exact same ▸ parsedRequest
  simp only [parseRpcRequestMessage] at inner
  split at inner
  · split at inner
    · split at inner
      · rw [ExceptRules.bind_eq_ok] at inner
        obtain ⟨_, valid, built⟩ := inner
        simp only [ExceptRules.pure_eq_ok, Except.ok.injEq] at built
        subst built
        simp only [validateRpcRequestParams] at valid
        split at valid
        · exact absurd valid (by simp)
        · rename_i known
          exact not_not.mp known
      · exact absurd inner (by simp)
    · exact absurd inner (by simp)
  · exact absurd inner (by simp)

theorem accounting_handleRequest (holds : Accounting options state.accounts) (task : TaskId)
    (client : ClientId) {request : RpcRequest} (withinRateLimit : Bool)
    (handler : options.methods.property request.method = some .function) :
    Accounting options
      (state.handleRequest options task client request withinRateLimit).accounts := by
  rw [TransportState.handleRequest]
  split
  · exact holds
  · rename_i admitted
    simp only [handler, if_true, TransportState.accounts_modifyTask]
    exact accounting_start holds admitted

theorem accounting_taskParsed (holds : Accounting options state.accounts) (task : TaskId)
    (entry : MessageTask) (payload : Option ParsedRpcClientMessage) (withinRateLimit : Bool) :
    Accounting options (state.taskParsed options task entry payload withinRateLimit).accounts := by
  cases payload with
  | none => exact holds
  | some parsed =>
    simp only [TransportState.taskParsed]
    split
    · split
      · exact holds
      · exact holds
    · exact accounting_abortPendingRequest holds _ _
    · rename_i accepted
      exact accounting_handleRequest holds _ _ _ (handler_of_parsed accepted)

theorem accounting_startTask (holds : Accounting options state.accounts) (task : TaskId)
    (entry : MessageTask) (revalidation : Revalidation) (withinBudget : Bool) :
    Accounting options (state.startTask options task entry revalidation withinBudget).accounts := by
  cases revalidation with
  | rejected => exact accounting_close holds _
  | threw => exact holds
  | accepted data =>
    have refreshed : Accounting options ({ state with data := state.data.set entry.client data
        }.refreshClientIndexes entry.client).accounts := by
      rw [TransportState.accounts_refreshClientIndexes]
      exact holds
    simp only [TransportState.startTask]
    split
    · exact accounting_close refreshed _
    · split
      · exact accounting_close refreshed _
      · exact refreshed

theorem accounting_send (holds : Accounting options state.accounts) (response : Response)
    (delivered : Bool) :
    Accounting options (state.sendWebSocketMessage response delivered).accounts := by
  simp only [TransportState.sendWebSocketMessage]
  split
  · exact accounting_sent holds _
  · rw [TransportState.accounts_close]
    exact accounting_abortAll (accounting_sent holds _) _

theorem accounting_taskReplied (holds : Accounting options state.accounts) (task : TaskId)
    (entry : MessageTask) (requestId : RequestId) (outcome : FrameOutcome) :
    Accounting options (state.taskReplied task entry requestId outcome).accounts := by
  cases outcome with
  | encodeFailed => exact accounting_close holds _
  | sent => exact accounting_send holds _ true
  | notSent => exact accounting_send holds _ false

theorem finishExecution_congr {execution : ExecutionId} {first second : Execution}
    (client : first.client = second.client) (requestId : first.requestId = second.requestId) :
    state.finishExecution execution first = state.finishExecution execution second := by
  simp only [TransportState.finishExecution, client, requestId]

theorem accounting_respond (holds : Accounting options state.accounts) {execution : ExecutionId}
    {entry : Execution} (known : state.executions[execution]? = some entry) (response : Response)
    (delivered : Bool) :
    Accounting options ((state.sendWebSocketMessage response delivered).finishExecution
      execution entry).accounts := by
  obtain ⟨now, knownNow, closes⟩ := send_execution known response delivered
  have client : now.client = entry.client := by
    rcases closes with rfl | rfl <;> simp
  have requestId : now.requestId = entry.requestId := by
    rcases closes with rfl | rfl <;> simp
  rw [finishExecution_congr client.symm requestId.symm]
  exact accounting_finish (accounting_send holds response delivered) knownNow

theorem accounting_resumeExecution (holds : Accounting options state.accounts)
    {execution : ExecutionId} {entry : Execution}
    (known : state.executions[execution]? = some entry) (outcome : Settlement) :
    Accounting options (state.resumeExecution execution entry outcome).accounts := by
  have ends := accounting_finish holds known
  cases outcome with
  | value =>
    simp only [TransportState.resumeExecution]
    split
    · exact ends
    · exact accounting_modify (keepsRunning_moveTo (by simp)) holds execution
  | error =>
    simp only [TransportState.resumeExecution]
    split
    · exact ends
    · exact accounting_modify (keepsRunning_moveTo (by simp)) holds execution
  | aborted =>
    simp only [TransportState.resumeExecution]
    split
    · exact ends
    · exact accounting_modify (keepsRunning_moveTo (by simp)) holds execution

theorem accounting_responseEncoded (holds : Accounting options state.accounts)
    {execution : ExecutionId} {entry : Execution}
    (known : state.executions[execution]? = some entry) (outcome : FrameOutcome) :
    Accounting options (state.responseEncoded execution entry outcome).accounts := by
  cases outcome with
  | encodeFailed =>
    simp only [TransportState.responseEncoded]
    split
    · exact accounting_modify (keepsRunning_moveTo (by simp)) holds execution
    · exact accounting_finish holds known
  | sent => exact accounting_respond holds known _ true
  | notSent => exact accounting_respond holds known _ false

theorem accounting_step (holds : Accounting options state.accounts)
    (stepped : transportStep options state event = some next) :
    Accounting options next.accounts := by
  cases callback_of_step stepped with
  | opened =>
    rw [TransportState.accounts_open]
    exact holds
  | closed _ => exact accounting_close holds _
  | drained _ =>
    rw [TransportState.accounts_drain]
    exact holds
  | closeSession => exact accounting_closeAll holds _
  | closeUser => exact accounting_closeAll holds _
  | message _ => exact holds
  | taskStarts => exact accounting_startTask holds _ _ _ _
  | taskParsed => exact accounting_taskParsed holds _ _ _ _
  | taskReplied => exact accounting_taskReplied holds _ _ _ _
  | handlerSettles => exact accounting_modify (keepsRunning_moveTo (by simp)) holds _
  | timeout => exact accounting_modify keepsRunning_timeOut holds _
  | executionResumes known _ => exact accounting_resumeExecution holds known _
  | responseEncoded known _ => exact accounting_responseEncoded holds known _

theorem accounting_initial : Accounting options TransportState.initial.accounts := by
  refine ⟨rfl, ?_, Nat.zero_le _, ?_⟩
  · intro client pending found
    exact absurd found (by simp [TransportState.accounts, TransportState.initial])
  · intro client pending requestId execution found
    exact absurd found (by simp [TransportState.accounts, TransportState.initial])

theorem accounting_of_reaches {allowed : TransportState → TransportEvent → Prop}
    (reached : Reaches (transportStep options) allowed .initial state) :
    Accounting options state.accounts :=
  reached.invariant _ accounting_initial fun _ _ _ holds _ stepped => accounting_step holds stepped

end Steps

section Removal

variable {options : TransportOptions} {state : TransportState}

theorem started_of_pending (holds : Accounting options state.accounts) {client : ClientId}
    {requestId : RequestId} {execution : ExecutionId}
    (listed : (state.pendingRequests client).get? requestId = some execution) :
    ∃ entry, state.executions[execution]? = some entry ∧ entry.client = client ∧
      entry.requestId = requestId ∧ entry.phase ≠ .finished :=
  holds.started client _ requestId execution (get?_of_pendingRequests listed) listed

structure WillRemove (options : TransportOptions) (state : TransportState) (client : ClientId)
    (requestId : RequestId) (execution : ExecutionId) : Prop where
  enabled : ∃ event, event.continues execution = true ∧
    (transportStep options state event).isSome = true
  bounded : ∀ events later, run (transportStep options) (fun _ _ => true) state events = some later →
    events.countP (·.continues execution) ≤ 4
  removes : ∃ later,
    Reaches (transportStep options) (fun _ event => event.continues execution = true) state later ∧
      (later.pendingRequests client).get? requestId ≠ some execution

theorem removes_of_pending {client : ClientId} {requestId : RequestId} {execution : ExecutionId}
    {entry : Execution} (holds : Accounting options state.accounts)
    (known : state.executions[execution]? = some entry) :
    ∃ later,
      Reaches (transportStep options) (fun _ event => event.continues execution = true) state later ∧
        (later.pendingRequests client).get? requestId ≠ some execution := by
  -- Induction on the callbacks the execution has left.
  induction left : entry.phase.remaining using Nat.strongRecOn generalizing state entry with
  | ind left ih =>
    by_cases listed : (state.pendingRequests client).get? requestId = some execution
    · obtain ⟨same, knownSame, _, _, running⟩ := started_of_pending holds listed
      obtain ⟨event, own, enabled⟩ := continues_of_running options knownSame running
      obtain ⟨next, stepped⟩ := Option.isSome_iff_exists.mp enabled
      obtain ⟨after, found, change⟩ := step_execution stepped known
      have fewer := change_remaining change
      rw [own, Bool.toNat_true] at fewer
      obtain ⟨later, reached, gone⟩ :=
        ih after.phase.remaining (by omega) (accounting_step holds stepped) found rfl
      exact ⟨later, Relation.ReflTransGen.head ⟨event, own, stepped⟩ reached, gone⟩
    · exact ⟨state, Reaches.refl state, listed⟩

theorem pendingRequests_accounted
    (reached : Reaches (transportStep options) Unrestricted .initial state) :
    state.pendingRequestCount = state.pendingRequestsByClient.total OrderedMap.size ∧
    state.pendingRequestCount ≤ options.maxPendingRequests ∧
    (∀ client, (state.pendingRequests client).size ≤ options.maxPendingRequestsPerClient) ∧
    ∀ client requestId execution,
      (state.pendingRequests client).get? requestId = some execution →
      ∃ entry, state.executions[execution]? = some entry ∧ entry.client = client ∧
        entry.requestId = requestId ∧ entry.phase ≠ .finished ∧
        (∀ response ∈ state.sent, response.sentBy ≠ .execution execution) ∧
        WillRemove options state client requestId execution := by
  have holds := accounting_of_reaches reached
  refine ⟨holds.counted, holds.serverCap, ?_, ?_⟩
  · intro client
    rw [TransportState.pendingRequests]
    cases found : state.pendingRequestsByClient.get? client with
    | none => simp
    | some pending => exact holds.clientCap client pending found
  · intro client requestId execution listed
    obtain ⟨entry, known, ofClient, ofRequest, running⟩ := started_of_pending holds listed
    refine ⟨entry, known, ofClient, ofRequest, running, ?_, ?_, ?_, ?_⟩
    · intro response member sentBy
      obtain ⟨ended, same, finished⟩ :=
        respondersEnded_of_reaches reached response member execution sentBy
      rw [known, Option.some.injEq] at same
      exact running (same ▸ finished)
    · exact continues_of_running options known running
    · intro events later ran
      obtain ⟨after, _, bound⟩ := run_remaining ran known
      have most : entry.phase.remaining ≤ 4 := by
        cases entry.phase <;> simp [ExecutionPhase.remaining]
      omega
    · exact removes_of_pending holds known

theorem pendingRequests_accounted_one : ∃ state : TransportState,
    state.pendingRequestCount = 1 ∧
      1 = state.pendingRequestsByClient.total OrderedMap.size := by
  have counted : (run (transportStep sampleOptions) (fun _ _ => true) .initial
      (.opened sampleData :: sampleMessage 0 0 ++
        [.taskParsed 0 (some (samplePayload "request" 5)) true])).map
      (·.pendingRequestCount) = some 1 := by decide
  obtain ⟨state, ran, one⟩ := Option.map_eq_some_iff.mp counted
  have reached := (reaches_of_run ran).unrestricted
  exact ⟨state, one, one ▸ (pendingRequests_accounted reached).1⟩

end Removal

end Metidos.Rpc
