import Metidos.Rpc.TransportAccounting
import Metidos.Rpc.TransportIndex

/-!
The connection registry: the index by session against the set of registered clients, and what a
client that has been closed can still do.
-/

namespace Metidos.Rpc

open Transition

structure Quiet (state next : TransportState) : Prop where
  nextClient : next.nextClient = state.nextClient
  clients : ∀ client ∈ next.clients, client ∈ state.clients
  pending : ∀ client, (next.pendingRequestsByClient.get? client).isSome = true →
    (state.pendingRequestsByClient.get? client).isSome = true ∧
      (client ∈ state.clients → client ∈ next.clients)
  executions : next.executions.length = state.executions.length
  consistent : IndexConsistent state → IndexConsistent next
  visible : ∀ client ∈ next.clients,
    state.indexedClientSessionId.get? client = state.sessionIdOf client →
    next.indexedClientSessionId.get? client = next.sessionIdOf client
  hidden : ∀ client, client ∉ next.clients →
    next.indexedClientSessionId.get? client = none ∨
      client ∉ state.clients ∧
        next.indexedClientSessionId.get? client = state.indexedClientSessionId.get? client

structure SameBut (client : ClientId) (state middle : TransportState) : Prop where
  nextClient : middle.nextClient = state.nextClient
  clients : middle.clients = state.clients
  pending : middle.pendingRequestsByClient = state.pendingRequestsByClient
  executions : middle.executions = state.executions
  consistent : IndexConsistent state → IndexConsistent middle
  indexed : ∀ other, other ≠ client →
    middle.indexedClientSessionId.get? other = state.indexedClientSessionId.get? other
  sessions : ∀ other, other ≠ client → middle.sessionIdOf other = state.sessionIdOf other

def TransportState.renew (state : TransportState) (client : ClientId) (data : SocketData) :
    TransportState :=
  { state with data := state.data.set client data }.refreshClientIndexes client

section Quiet

variable {options : TransportOptions} {state middle next : TransportState} {client : ClientId}

theorem Quiet.trans (first : Quiet state middle) (second : Quiet middle next) :
    Quiet state next := by
  refine ⟨second.nextClient.trans first.nextClient,
    fun client member => first.clients client (second.clients client member), ?_,
    second.executions.trans first.executions,
    fun consistent => second.consistent (first.consistent consistent), ?_, ?_⟩
  · intro client listed
    obtain ⟨between, stays⟩ := second.pending client listed
    obtain ⟨before, stayed⟩ := first.pending client between
    exact ⟨before, fun member => stays (stayed member)⟩
  · intro client member right
    exact second.visible client member
      (first.visible client (second.clients client member) right)
  · intro client away
    rcases second.hidden client away with gone | ⟨awayBetween, same⟩
    · exact Or.inl gone
    · rcases first.hidden client awayBetween with gone | ⟨awayBefore, sameBefore⟩
      · exact Or.inl (same.trans gone)
      · exact Or.inr ⟨awayBefore, same.trans sameBefore⟩

theorem quiet_of_registry (registry : next.registry = state.registry)
    (pending : next.pendingRequestsByClient = state.pendingRequestsByClient)
    (executions : next.executions.length = state.executions.length) : Quiet state next := by
  have clients : next.clients = state.clients := congrArg Registry.clients registry
  have indexed : next.indexedClientSessionId = state.indexedClientSessionId :=
    congrArg Registry.indexedClientSessionId registry
  have buckets : next.clientsBySessionId = state.clientsBySessionId :=
    congrArg Registry.clientsBySessionId registry
  have data : next.data = state.data := congrArg Registry.data registry
  refine ⟨congrArg Registry.nextClient registry, fun _ member => clients ▸ member,
    fun _ listed => ⟨pending ▸ listed, fun member => clients.symm ▸ member⟩, executions,
    fun holds => indexConsistent_congr holds buckets indexed, ?_, ?_⟩
  · intro client _ right
    rw [indexed, TransportState.sessionIdOf, data]
    exact right
  · intro client away
    exact Or.inr ⟨clients ▸ away, by rw [indexed]⟩

theorem quiet_refl (state : TransportState) : Quiet state state := quiet_of_registry rfl rfl rfl

theorem quiet_modifyTask (task : TaskId) (phase : TaskPhase) :
    Quiet state (state.modifyTask task phase) :=
  quiet_of_registry rfl rfl rfl

theorem quiet_modifyExecution (execution : ExecutionId) (update : Execution → Execution) :
    Quiet state (state.modifyExecution execution update) :=
  quiet_of_registry rfl rfl (List.length_modify _ _ _)

theorem sameBut_refl (client : ClientId) (state : TransportState) : SameBut client state state :=
  ⟨rfl, rfl, rfl, rfl, id, fun _ _ => rfl, fun _ _ => rfl⟩

theorem sameBut_renew (state : TransportState) (client : ClientId) (data : SocketData) :
    SameBut client state (state.renew client data) := by
  have indexed :=
    refreshClientIndexes_indexed { state with data := state.data.set client data } client
  have consistent : IndexConsistent state → IndexConsistent (state.renew client data) := fun holds =>
    indexConsistent_refresh { state with data := state.data.set client data }
      (indexConsistent_congr holds rfl rfl) client
  obtain ⟨buckets, entries, same⟩ := refreshClientIndexes_only
    { state with data := state.data.set client data } client
  rw [TransportState.renew] at consistent ⊢
  rw [same] at indexed consistent ⊢
  refine ⟨rfl, rfl, rfl, rfl, consistent, ?_, ?_⟩
  · intro other different
    exact (indexed other).trans (if_neg different)
  · intro other different
    simp [TransportState.sessionIdOf, different]

theorem renew_indexed (state : TransportState) (client : ClientId) (data : SocketData) :
    (state.renew client data).indexedClientSessionId.get? client = data.sessionId ∧
      (state.renew client data).sessionIdOf client = data.sessionId := by
  have indexed :=
    refreshClientIndexes_indexed { state with data := state.data.set client data } client client
  have session : ({ state with data := state.data.set client data } : TransportState).sessionIdOf
      client = data.sessionId := by
    simp [TransportState.sessionIdOf]
  obtain ⟨buckets, entries, same⟩ := refreshClientIndexes_only
    { state with data := state.data.set client data } client
  rw [if_pos rfl, session] at indexed
  refine ⟨indexed, ?_⟩
  rw [TransportState.renew, same]
  exact session

theorem clients_close (state : TransportState) (client : ClientId) :
    (state.close client).clients = state.clients.delete client ∧
      (state.close client).nextClient = state.nextClient := by
  obtain ⟨buckets, entries, same⟩ := removeClientIndexes_only (state.unregister client) client
  have closed := TransportState.registry_close state client
  rw [same] at closed
  exact ⟨congrArg Registry.clients closed, congrArg Registry.nextClient closed⟩

theorem abortAll_pending (accounts : Accounts) (client other : ClientId) :
    (accounts.abortAll client).pendingRequestsByClient.get? other =
      if other = client then none else accounts.pendingRequestsByClient.get? other := by
  rw [Accounts.abortAll]
  split
  · rename_i absent
    split
    · rename_i same
      exact same ▸ absent
    · rfl
  · rw [OrderedMap.get?_delete]

theorem abortAll_length (accounts : Accounts) (client : ClientId) :
    (accounts.abortAll client).executions.length = accounts.executions.length := by
  have folded : ∀ (positions : List ExecutionId) (entries : List Execution),
      (positions.foldl (fun entries execution =>
        entries.modify execution Execution.abortForClose) entries).length = entries.length := by
    intro positions
    induction positions with
    | nil => exact fun _ => rfl
    | cons position positions ih => exact fun entries => (ih _).trans (List.length_modify _ _ _)
  rw [Accounts.abortAll]
  split
  · rfl
  · exact folded _ _

theorem pending_close (state : TransportState) (client other : ClientId) :
    (state.close client).pendingRequestsByClient.get? other =
      if other = client then none else state.pendingRequestsByClient.get? other := by
  have same := congrArg Accounts.pendingRequestsByClient (TransportState.accounts_close state client)
  change (state.close client).pendingRequestsByClient = _ at same
  rw [same]
  exact abortAll_pending _ _ _

theorem close_indexed (state : TransportState) (client other : ClientId) :
    (state.close client).indexedClientSessionId.get? other =
        (if other = client then none else state.indexedClientSessionId.get? other) ∧
      (state.close client).sessionIdOf other = state.sessionIdOf other := by
  have indexed := removeClientIndexes_indexed (state.unregister client) client other
  obtain ⟨buckets, entries, same⟩ := removeClientIndexes_only (state.unregister client) client
  have closed := TransportState.registry_close state client
  have entriesClosed := congrArg Registry.indexedClientSessionId closed
  rw [same] at closed
  have data := congrArg Registry.data closed
  simp only [TransportState.registry] at entriesClosed data
  refine ⟨?_, ?_⟩
  · rw [entriesClosed]
    exact indexed
  · rw [TransportState.sessionIdOf, data]
    rfl

theorem indexConsistent_close (holds : IndexConsistent state) (client : ClientId) :
    IndexConsistent (state.close client) := by
  have closed := TransportState.registry_close state client
  exact indexConsistent_congr (indexConsistent_remove (state.unregister client)
      (indexConsistent_congr holds rfl rfl) client)
    (congrArg Registry.clientsBySessionId closed) (congrArg Registry.indexedClientSessionId closed)

theorem quiet_close_of (same : SameBut client state middle) :
    Quiet state (middle.close client) := by
  obtain ⟨clients, nextClient⟩ := clients_close middle client
  have member : ∀ other, other ∈ (middle.close client).clients ↔
      other ≠ client ∧ other ∈ state.clients := by
    intro other
    rw [clients, OrderedSet.mem_delete, same.clients]
  refine ⟨nextClient.trans same.nextClient, fun other there => ((member other).mp there).2, ?_, ?_,
    fun holds => indexConsistent_close (same.consistent holds) client, ?_, ?_⟩
  · intro other listed
    rw [pending_close, same.pending] at listed
    split at listed
    · exact absurd listed (by simp)
    · rename_i different
      exact ⟨listed, fun there => (member other).mpr ⟨different, there⟩⟩
  · have closed := congrArg Accounts.executions (TransportState.accounts_close middle client)
    change (middle.close client).executions = _ at closed
    rw [closed, abortAll_length]
    exact congrArg List.length same.executions
  · intro other there right
    have different := ((member other).mp there).1
    obtain ⟨indexed, session⟩ := close_indexed middle client other
    rw [indexed, session, if_neg different, same.indexed other different,
      same.sessions other different, right]
  · intro other away
    obtain ⟨indexed, _⟩ := close_indexed middle client other
    rw [indexed]
    by_cases sameClient : other = client
    · exact Or.inl (if_pos sameClient)
    · refine Or.inr ⟨fun there => away ((member other).mpr ⟨sameClient, there⟩), ?_⟩
      rw [if_neg sameClient, same.indexed other sameClient]

theorem quiet_close (client : ClientId) : Quiet state (state.close client) :=
  quiet_close_of (sameBut_refl client state)

theorem quiet_closeAll (clients : List ClientId) : Quiet state (state.closeAll clients) := by
  induction clients generalizing state with
  | nil => exact quiet_refl _
  | cons client clients ih => exact (quiet_close client).trans ih

theorem quiet_renew {data : SocketData} (shown : client ∈ state.clients ∨ data.sessionId = none) :
    Quiet state (state.renew client data) := by
  have same := sameBut_renew state client data
  obtain ⟨indexed, session⟩ := renew_indexed state client data
  refine ⟨same.nextClient, fun other there => same.clients ▸ there,
    fun other listed => ⟨same.pending ▸ listed, fun there => same.clients.symm ▸ there⟩,
    congrArg List.length same.executions, same.consistent, ?_, ?_⟩
  · intro other there right
    by_cases sameClient : other = client
    · rw [sameClient, indexed, session]
    · rw [same.indexed other sameClient, same.sessions other sameClient, right]
  · intro other away
    rw [same.clients] at away
    by_cases sameClient : other = client
    · subst sameClient
      exact Or.inl (indexed.trans (shown.resolve_left away))
    · exact Or.inr ⟨away, same.indexed other sameClient⟩

theorem quiet_drain (client : ClientId) : Quiet state (state.drain client) := by
  rw [TransportState.drain]
  split
  · rename_i member
    have indexed := refreshClientIndexes_indexed state client
    have consistent := fun holds => indexConsistent_refresh state holds client
    obtain ⟨buckets, entries, same⟩ := refreshClientIndexes_only state client
    rw [same] at indexed consistent ⊢
    refine ⟨rfl, fun _ there => there, fun _ listed => ⟨listed, id⟩, rfl, consistent, ?_, ?_⟩
    · intro other _ right
      refine (indexed other).trans ?_
      split
      · rename_i sameClient
        exact sameClient ▸ rfl
      · exact right
    · intro other away
      refine Or.inr ⟨away, (indexed other).trans (if_neg ?_)⟩
      rintro rfl
      exact away member
  · exact quiet_refl state

theorem quiet_or_revived (options : TransportOptions) (state : TransportState) (task : TaskId)
    (entry : MessageTask) (revalidation : Revalidation) (withinBudget : Bool) :
    Quiet state (state.startTask options task entry revalidation withinBudget) ∨
      ∃ data, revalidation = .accepted data ∧ entry.client ∉ state.clients ∧
        data.sessionId ≠ none ∧ ¬options.maxPayloadBytes < entry.messageByteLength ∧
        withinBudget = true ∧
        state.startTask options task entry revalidation withinBudget =
          (state.renew entry.client data).modifyTask task .parsing := by
  cases revalidation with
  | rejected => exact Or.inl ((quiet_close _).trans (quiet_modifyTask _ _))
  | threw => exact Or.inl (quiet_modifyTask _ _)
  | accepted data =>
    have closes := (quiet_close_of (sameBut_renew state entry.client data)).trans
      (quiet_modifyTask task .finished)
    simp only [TransportState.startTask]
    split
    · exact Or.inl closes
    · rename_i fits
      split
      · exact Or.inl closes
      · rename_i affordable
        by_cases shown : entry.client ∈ state.clients ∨ data.sessionId = none
        · exact Or.inl ((quiet_renew shown).trans (quiet_modifyTask _ _))
        · rw [not_or] at shown
          exact Or.inr ⟨data, rfl, shown.1, shown.2, fits, by simpa using affordable, rfl⟩

theorem quiet_send (response : Response) (delivered : Bool) :
    Quiet state (state.sendWebSocketMessage response delivered) := by
  simp only [TransportState.sendWebSocketMessage]
  split
  · exact quiet_of_registry rfl rfl rfl
  · have logged : Quiet state { state with sent := state.sent ++ [response] } :=
      quiet_of_registry rfl rfl rfl
    exact logged.trans (quiet_close _)

theorem quiet_finish (execution : ExecutionId) (entry : Execution) :
    Quiet state (state.finishExecution execution entry) := by
  simp only [TransportState.finishExecution]
  split
  · rename_i listed
    refine Quiet.trans (quiet_modifyExecution execution Execution.finish) ?_
    refine ⟨rfl, fun _ member => member, ?_, rfl, fun holds => indexConsistent_congr holds rfl rfl,
      fun _ _ right => right, fun _ away => Or.inr ⟨away, rfl⟩⟩
    intro client there
    simp only [TransportState.decrementPendingRequestCount, TransportState.setPendingRequests,
      OrderedMap.get?_set] at there
    split at there
    · rename_i same
      rw [same, get?_of_pendingRequests listed]
      exact ⟨rfl, id⟩
    · exact ⟨there, id⟩
  · exact quiet_modifyExecution execution Execution.finish

theorem quiet_resumeExecution (execution : ExecutionId) (entry : Execution)
    (outcome : Settlement) : Quiet state (state.resumeExecution execution entry outcome) := by
  cases outcome <;>
  · simp only [TransportState.resumeExecution]
    split
    · exact quiet_finish _ _
    · exact quiet_modifyExecution _ _

theorem quiet_responseEncoded (execution : ExecutionId) (entry : Execution)
    (outcome : FrameOutcome) : Quiet state (state.responseEncoded execution entry outcome) := by
  cases outcome with
  | encodeFailed =>
    simp only [TransportState.responseEncoded]
    split
    · exact quiet_modifyExecution _ _
    · exact quiet_finish _ _
  | sent => exact (quiet_send _ true).trans (quiet_finish _ _)
  | notSent => exact (quiet_send _ false).trans (quiet_finish _ _)

theorem quiet_taskReplied (task : TaskId) (entry : MessageTask) (requestId : RequestId)
    (outcome : FrameOutcome) : Quiet state (state.taskReplied task entry requestId outcome) := by
  cases outcome with
  | encodeFailed => exact (quiet_close _).trans (quiet_modifyTask _ _)
  | sent => exact (quiet_send _ true).trans (quiet_modifyTask _ _)
  | notSent => exact (quiet_send _ false).trans (quiet_modifyTask _ _)

theorem quiet_abortPendingRequest (client : ClientId) (requestId : RequestId) :
    Quiet state (state.abortPendingRequest client requestId) := by
  rw [TransportState.abortPendingRequest]
  split
  · exact quiet_refl state
  · exact quiet_modifyExecution _ _

theorem quiet_or_admitted (options : TransportOptions) (state : TransportState) (task : TaskId)
    (entry : MessageTask) (payload : Option ParsedRpcClientMessage) (withinRateLimit : Bool) :
    Quiet state (state.taskParsed options task entry payload withinRateLimit) ∨
      ∃ parsed request, payload = some parsed ∧
        parseRpcClientMessage options.methods parsed = .ok (.request request) ∧
        state.admitRequest options entry.client request.id withinRateLimit = .ok () ∧
        state.taskParsed options task entry payload withinRateLimit =
          ((state.register entry.client request).startExecution entry.client request).modifyTask
            task .finished := by
  cases payload with
  | none => exact Or.inl (quiet_modifyTask _ _)
  | some parsed =>
    simp only [TransportState.taskParsed]
    split
    · refine Or.inl ?_
      split <;> exact quiet_modifyTask _ _
    · exact Or.inl ((quiet_abortPendingRequest _ _).trans (quiet_modifyTask _ _))
    · rename_i request accepted
      simp only [TransportState.handleRequest, handler_of_parsed accepted, if_true]
      split
      · exact Or.inl (quiet_modifyTask _ _)
      · rename_i admitted
        exact Or.inr ⟨parsed, request, rfl, accepted, admitted, rfl⟩

end Quiet

/-- What a callback can do to the registry. -/
inductive RegistryChange (options : TransportOptions) (state : TransportState)
    (event : TransportEvent) : TransportState → Prop
  | quiet {next} : Quiet state next → RegistryChange options state event next
  | opened {data} : RegistryChange options state event (state.open data)
  | admitted {task entry parsed request withinRateLimit} :
      event = .taskParsed task (some parsed) withinRateLimit → state.tasks[task]? = some entry →
      parseRpcClientMessage options.methods parsed = .ok (.request request) →
      state.admitRequest options entry.client request.id withinRateLimit = .ok () →
      RegistryChange options state event
        (((state.register entry.client request).startExecution entry.client request).modifyTask
          task .finished)
  | revived {task entry data} : event = .taskStarts task (.accepted data) true →
      state.tasks[task]? = some entry → entry.client ∉ state.clients → data.sessionId ≠ none →
      ¬options.maxPayloadBytes < entry.messageByteLength →
      RegistryChange options state event ((state.renew entry.client data).modifyTask task .parsing)

/-- No message of a closed client is served: none of its queued messages passes the checks before
parsing under a session that still resolves, and no request of its is admitted. -/
def TransportState.servesRegistered (options : TransportOptions) (state : TransportState) :
    TransportEvent → Bool
  | .taskStarts task (.accepted data) withinBudget =>
    (state.tasks[task]?).all fun entry =>
      decide (entry.client ∈ state.clients) || data.sessionId.isNone ||
        decide (options.maxPayloadBytes < entry.messageByteLength) || !withinBudget
  | .taskParsed task (some parsed) withinRateLimit =>
    (state.tasks[task]?).all fun entry =>
      match parseRpcClientMessage options.methods parsed with
      | .ok (.request request) => decide (entry.client ∈ state.clients) ||
          !(state.admitRequest options entry.client request.id withinRateLimit).isOk
      | _ => true
  | _ => true

section Step

variable {options : TransportOptions} {state next : TransportState} {event : TransportEvent}
  {client : ClientId}

theorem registry_step (stepped : transportStep options state event = some next) :
    RegistryChange options state event next := by
  cases callback_of_step stepped with
  | opened => exact .opened
  | closed _ => exact .quiet (quiet_close _)
  | drained _ => exact .quiet (quiet_drain _)
  | closeSession => exact .quiet (quiet_closeAll _)
  | closeUser => exact .quiet (quiet_closeAll _)
  | message _ => exact .quiet (quiet_of_registry rfl rfl rfl)
  | @taskStarts task entry revalidation withinBudget found _ _ =>
    rcases quiet_or_revived options state task entry revalidation
      withinBudget with quiet | ⟨data, rfl, away, session, fits, rfl, same⟩
    · exact .quiet quiet
    · exact same ▸ .revived rfl found away session fits
  | @taskParsed task entry payload withinRateLimit found _ =>
    rcases quiet_or_admitted options state task entry payload
      withinRateLimit with quiet | ⟨parsed, request, rfl, accepted, admitted, same⟩
    · exact .quiet quiet
    · exact same ▸ .admitted rfl found accepted admitted
  | taskReplied => exact .quiet (quiet_taskReplied _ _ _ _)
  | handlerSettles => exact .quiet (quiet_modifyExecution _ _)
  | timeout => exact .quiet (quiet_modifyExecution _ _)
  | executionResumes => exact .quiet (quiet_resumeExecution _ _ _)
  | responseEncoded => exact .quiet (quiet_responseEncoded _ _ _)

theorem client_of_admitted {task : TaskId} {entry : MessageTask} {parsed : ParsedRpcClientMessage}
    {request : RpcRequest} {withinRateLimit : Bool}
    (served : state.servesRegistered options (.taskParsed task (some parsed) withinRateLimit) = true)
    (found : state.tasks[task]? = some entry)
    (accepted : parseRpcClientMessage options.methods parsed = .ok (.request request))
    (admitted : state.admitRequest options entry.client request.id withinRateLimit = .ok ()) :
    entry.client ∈ state.clients := by
  simpa [TransportState.servesRegistered, found, accepted, admitted, Except.isOk, Except.toBool]
    using served

theorem not_revived {task : TaskId} {entry : MessageTask} {data : SocketData}
    (served : state.servesRegistered options (.taskStarts task (.accepted data) true) = true)
    (found : state.tasks[task]? = some entry) (away : entry.client ∉ state.clients)
    (session : data.sessionId ≠ none) :
    options.maxPayloadBytes < entry.messageByteLength := by
  simpa [TransportState.servesRegistered, found, away, session] using served

structure Visible (state : TransportState) : Prop where
  consistent : IndexConsistent state
  indexed : ∀ client ∈ state.clients,
    state.indexedClientSessionId.get? client = state.sessionIdOf client
  known : ∀ client ∈ state.clients, client < state.nextClient
  indexedKnown : ∀ client sessionId, state.indexedClientSessionId.get? client = some sessionId →
    client < state.nextClient
  tasks : TasksKnown state

def Hidden (state : TransportState) : Prop :=
  ∀ client, client ∉ state.clients → state.indexedClientSessionId.get? client = none

def PendingRegistered (state : TransportState) : Prop :=
  ∀ client, (state.pendingRequestsByClient.get? client).isSome = true → client ∈ state.clients

structure OpenSpec (state next : TransportState) : Prop where
  clients : next.clients = state.clients.add state.nextClient
  nextClient : next.nextClient = state.nextClient + 1
  pending : next.pendingRequestsByClient = state.pendingRequestsByClient
  executions : next.executions = state.executions
  consistent : IndexConsistent state → IndexConsistent next
  indexed : ∀ client, client ≠ state.nextClient →
    next.indexedClientSessionId.get? client = state.indexedClientSessionId.get? client ∧
      next.sessionIdOf client = state.sessionIdOf client
  own : next.indexedClientSessionId.get? state.nextClient = next.sessionIdOf state.nextClient

theorem open_spec (state : TransportState) (data : SocketData) : OpenSpec state (state.open data) := by
  have added : state.open data = ({ state with
      nextClient := state.nextClient + 1
      clients := state.clients.add state.nextClient
      clientMessageQueueTail := state.clientMessageQueueTail.set state.nextClient none
      } : TransportState).renew state.nextClient data := rfl
  have same := sameBut_renew { state with
      nextClient := state.nextClient + 1
      clients := state.clients.add state.nextClient
      clientMessageQueueTail := state.clientMessageQueueTail.set state.nextClient none }
    state.nextClient data
  obtain ⟨indexed, session⟩ := renew_indexed { state with
      nextClient := state.nextClient + 1
      clients := state.clients.add state.nextClient
      clientMessageQueueTail := state.clientMessageQueueTail.set state.nextClient none }
    state.nextClient data
  rw [added]
  exact ⟨same.clients, same.nextClient, same.pending, same.executions,
    fun holds => same.consistent (indexConsistent_congr holds rfl rfl),
    fun client different => ⟨same.indexed client different, same.sessions client different⟩,
    indexed.trans session.symm⟩

theorem clients_step (stepped : transportStep options state event = some next) :
    state.nextClient ≤ next.nextClient ∧
      ∀ client ∈ next.clients, client < state.nextClient → client ∈ state.clients := by
  cases registry_step stepped with
  | quiet quiet =>
    exact ⟨Nat.le_of_eq quiet.nextClient.symm, fun client member _ => quiet.clients client member⟩
  | @opened data =>
    have spec := open_spec state data
    rw [spec.clients, spec.nextClient]
    refine ⟨Nat.le_succ _, ?_⟩
    intro client member known
    rcases (OrderedSet.mem_add _ _ _).mp member with rfl | before
    · exact absurd known (Nat.lt_irrefl _)
    · exact before
  | admitted => exact ⟨Nat.le_refl _, fun client member _ => member⟩
  | @revived task entry data =>
    have same := sameBut_renew state entry.client data
    exact ⟨Nat.le_of_eq same.nextClient.symm, fun client member _ => same.clients ▸ member⟩

theorem visible_of_quiet (holds : Visible state) (quiet : Quiet state next)
    (tasks : TasksKnown next) : Visible next := by
  refine ⟨quiet.consistent holds.consistent, ?_, ?_, ?_, tasks⟩
  · intro client member
    exact quiet.visible client member (holds.indexed client (quiet.clients client member))
  · intro client member
    rw [quiet.nextClient]
    exact holds.known client (quiet.clients client member)
  · intro client sessionId indexed
    rw [quiet.nextClient]
    by_cases member : client ∈ next.clients
    · exact holds.known client (quiet.clients client member)
    · rcases quiet.hidden client member with gone | ⟨_, same⟩
      · exact absurd (indexed.symm.trans gone) (by simp)
      · exact holds.indexedKnown client sessionId (same.symm.trans indexed)

theorem visible_step (holds : Visible state)
    (stepped : transportStep options state event = some next) : Visible next := by
  have tasks := tasksKnown_step holds.tasks (clients_step stepped).1 stepped
  cases registry_step stepped with
  | quiet quiet => exact visible_of_quiet holds quiet tasks
  | @opened data =>
    have spec := open_spec state data
    refine ⟨spec.consistent holds.consistent, ?_, ?_, ?_, tasks⟩
    · intro client member
      by_cases own : client = state.nextClient
      · exact own ▸ spec.own
      · rw [spec.clients, OrderedSet.mem_add] at member
        obtain ⟨indexed, session⟩ := spec.indexed client own
        rw [indexed, session]
        exact holds.indexed client (member.resolve_left own)
    · intro client member
      rw [spec.clients, OrderedSet.mem_add] at member
      rw [spec.nextClient]
      rcases member with rfl | before
      · exact Nat.lt_succ_self _
      · exact Nat.lt_succ_of_lt (holds.known client before)
    · intro client sessionId indexed
      rw [spec.nextClient]
      by_cases own : client = state.nextClient
      · exact own ▸ Nat.lt_succ_self _
      · exact Nat.lt_succ_of_lt
          (holds.indexedKnown client sessionId ((spec.indexed client own).1.symm.trans indexed))
  | admitted =>
    exact ⟨indexConsistent_congr holds.consistent rfl rfl, holds.indexed, holds.known,
      holds.indexedKnown, tasks⟩
  | @revived task entry data _ found away =>
    have same := sameBut_renew state entry.client data
    have counted : ((state.renew entry.client data).modifyTask task .parsing).nextClient =
        state.nextClient := same.nextClient
    refine ⟨indexConsistent_congr (same.consistent holds.consistent) rfl rfl, ?_, ?_, ?_, tasks⟩
    · intro client member
      change client ∈ (state.renew entry.client data).clients at member
      rw [same.clients] at member
      have different : client ≠ entry.client := by
        rintro rfl
        exact away member
      exact (same.indexed client different).trans
        ((holds.indexed client member).trans (same.sessions client different).symm)
    · intro client member
      change client ∈ (state.renew entry.client data).clients at member
      rw [same.clients] at member
      rw [counted]
      exact holds.known client member
    · intro client sessionId indexed
      rw [counted]
      by_cases own : client = entry.client
      · exact own ▸ holds.tasks entry (List.mem_of_getElem? found)
      · exact holds.indexedKnown client sessionId ((same.indexed client own).symm.trans indexed)

theorem hidden_step (holds : Hidden state)
    (served : state.servesRegistered options event = true)
    (stepped : transportStep options state event = some next) : Hidden next := by
  cases registry_step stepped with
  | quiet quiet =>
    intro client away
    rcases quiet.hidden client away with gone | ⟨before, same⟩
    · exact gone
    · exact same.trans (holds client before)
  | @opened data =>
    have spec := open_spec state data
    intro client away
    rw [spec.clients, OrderedSet.mem_add, not_or] at away
    exact (spec.indexed client away.1).1.trans (holds client away.2)
  | admitted => exact holds
  | revived own found away session fits =>
    subst own
    exact absurd (not_revived served found away session) fits

theorem pendingRegistered_step (holds : PendingRegistered state)
    (served : state.servesRegistered options event = true)
    (stepped : transportStep options state event = some next) : PendingRegistered next := by
  cases registry_step stepped with
  | quiet quiet =>
    intro client listed
    obtain ⟨before, stays⟩ := quiet.pending client listed
    exact stays (holds client before)
  | @opened data =>
    have spec := open_spec state data
    intro client listed
    rw [spec.clients]
    exact (OrderedSet.mem_add _ _ _).mpr (Or.inr (holds client (spec.pending ▸ listed)))
  | admitted own found accepted admitted =>
    subst own
    have member := client_of_admitted served found accepted admitted
    intro client listed
    simp only [TransportState.modifyTask, TransportState.startExecution, TransportState.register,
      TransportState.setPendingRequests, TransportState.incrementPendingRequestCount,
      OrderedMap.get?_set] at listed ⊢
    split at listed
    · rename_i same
      exact same ▸ member
    · exact holds client listed
  | revived own found away session fits =>
    subst own
    exact absurd (not_revived served found away session) fits

theorem newExecution_step (served : state.servesRegistered options event = true)
    (stepped : transportStep options state event = some next) {execution : ExecutionId}
    {entry : Execution} (found : next.executions[execution]? = some entry)
    (new : state.executions.length ≤ execution) : entry.client ∈ state.clients := by
  have bound := (List.getElem?_eq_some_iff.mp found).1
  cases registry_step stepped with
  | quiet quiet =>
    rw [quiet.executions] at bound
    omega
  | @opened data =>
    rw [(open_spec state data).executions] at bound
    omega
  | admitted own waiting accepted admitted =>
    subst own
    have member := client_of_admitted served waiting accepted admitted
    change (state.executions ++ _)[execution]? = some entry at found
    rw [List.getElem?_append_right new] at found
    have only := List.mem_singleton.mp (List.mem_of_getElem? found)
    rw [only]
    exact member
  | revived own waiting away session fits =>
    subst own
    exact absurd (not_revived served waiting away session) fits

end Step

section Runs

variable {options : TransportOptions} {state later : TransportState} {client : ClientId}

def ServesRegistered (options : TransportOptions) (state : TransportState)
    (event : TransportEvent) : Prop :=
  state.servesRegistered options event = true

def IndexExact (state : TransportState) : Prop :=
  ∀ sessionId client, client ∈ state.sessionClients sessionId ↔
    client ∈ state.clients ∧ state.sessionIdOf client = some sessionId

/-- Since `closed` the client is out of the set and of the index, has no pending request, and no
handler has been started for it. -/
structure StaysClosed (closed later : TransportState) (client : ClientId) : Prop where
  unregistered : client ∉ later.clients
  unindexed : ∀ sessionId, client ∉ later.sessionClients sessionId
  nonePending : later.pendingRequests client = OrderedMap.empty
  noneStarted : ∀ (execution : ExecutionId) (entry : Execution),
    later.executions[execution]? = some entry → entry.client = client →
      execution < closed.executions.length

theorem visible_initial : Visible TransportState.initial := by
  refine ⟨⟨?_, ?_⟩, ?_, ?_, ?_, ?_⟩ <;>
    simp [TransportState.initial, TransportState.sessionClients, TasksKnown]

structure Registered (state : TransportState) : Prop where
  visible : Visible state
  hidden : Hidden state
  pending : PendingRegistered state

theorem registered_initial : Registered TransportState.initial :=
  ⟨visible_initial, by simp [Hidden, TransportState.initial],
    by simp [PendingRegistered, TransportState.initial]⟩

theorem registered_step {event : TransportEvent} (holds : Registered state)
    (served : ServesRegistered options state event)
    (stepped : transportStep options state event = some later) : Registered later :=
  ⟨visible_step holds.visible stepped, hidden_step holds.hidden served stepped,
    pendingRegistered_step holds.pending served stepped⟩

theorem registered_of_reaches
    (reached : Reaches (transportStep options) (ServesRegistered options) state later)
    (holds : Registered state) : Registered later :=
  reached.invariant _ holds fun _ _ _ holds served stepped => registered_step holds served stepped

theorem indexExact_iff (visible : Visible state) : IndexExact state ↔ Hidden state := by
  constructor
  · intro exactly client away
    cases indexed : state.indexedClientSessionId.get? client with
    | none => rfl
    | some sessionId =>
      have listed := (visible.consistent.buckets sessionId client).mpr indexed
      exact absurd ((exactly sessionId client).mp listed).1 away
  · intro hidden sessionId client
    rw [visible.consistent.buckets]
    by_cases member : client ∈ state.clients
    · rw [visible.indexed client member]
      simp [member]
    · simp [hidden client member, member]

structure Away (state later : TransportState) (client : ClientId) : Prop where
  known : client < later.nextClient
  unregistered : client ∉ later.clients
  noneStarted : ∀ (execution : ExecutionId) (entry : Execution),
    later.executions[execution]? = some entry → entry.client = client →
      execution < state.executions.length

theorem away_step {before after : TransportState} {event : TransportEvent}
    (away : Away state before client) (served : ServesRegistered options before event)
    (stepped : transportStep options before event = some after) : Away state after client := by
  obtain ⟨counted, comesBack⟩ := clients_step stepped
  refine ⟨Nat.lt_of_lt_of_le away.known counted,
    fun member => away.unregistered (comesBack client member away.known), ?_⟩
  intro execution entry found ofClient
  by_cases new : before.executions.length ≤ execution
  · have member := newExecution_step served stepped found new
    rw [ofClient] at member
    exact absurd member away.unregistered
  · have old := List.getElem?_eq_getElem (Nat.lt_of_not_le new)
    obtain ⟨changed, same, change⟩ := step_execution stepped old
    rw [found, Option.some.injEq] at same
    subst same
    exact away.noneStarted execution _ old ((change_client change).symm.trans ofClient)

theorem away_of_reaches
    (reached : Reaches (transportStep options) (ServesRegistered options) state later)
    (known : client < state.nextClient) (away : client ∉ state.clients) :
    Away state later client := by
  refine reached.invariant _ ⟨known, away, ?_⟩
    fun _ _ _ away served stepped => away_step away served stepped
  intro execution entry found _
  exact (List.getElem?_eq_some_iff.mp found).1

theorem staysClosed_of_reaches (registered : Registered state)
    (reached : Reaches (transportStep options) (ServesRegistered options) state later)
    (known : client < state.nextClient) (away : client ∉ state.clients) :
    StaysClosed state later client := by
  have stays := away_of_reaches reached known away
  have holds := registered_of_reaches reached registered
  have exactly := (indexExact_iff holds.visible).mpr holds.hidden
  refine ⟨stays.unregistered, ?_, ?_, stays.noneStarted⟩
  · intro sessionId member
    exact stays.unregistered ((exactly sessionId client).mp member).1
  · rw [TransportState.pendingRequests]
    cases found : later.pendingRequestsByClient.get? client with
    | none => rfl
    | some requests => exact absurd (holds.pending client (by simp [found])) stays.unregistered

theorem served_of_registered {next : TransportState} {event : TransportEvent}
    (stepped : transportStep options state event = some next) (registered : Registered next) :
    ServesRegistered options state event := by
  cases callback_of_step stepped with
  | @taskStarts task entry revalidation withinBudget found _ _ =>
    cases revalidation with
    | rejected => rfl
    | threw => rfl
    | accepted data =>
      rw [ServesRegistered, TransportState.servesRegistered, found, Option.all_some]
      by_contra unserved
      simp only [Bool.or_eq_true, decide_eq_true_eq, Bool.not_eq_true', not_or,
        Bool.not_eq_false, Bool.not_eq_true, Option.isNone_eq_false_iff] at unserved
      obtain ⟨⟨⟨away, session⟩, fits⟩, affordable⟩ := unserved
      obtain ⟨indexed, _⟩ := renew_indexed state entry.client data
      have same := sameBut_renew state entry.client data
      simp only [TransportState.startTask, gt_iff_lt, fits, if_false, affordable,
        Bool.not_true, Bool.false_eq_true] at registered
      have gone := registered.hidden entry.client fun there => away (same.clients ▸ there)
      exact absurd (session.symm.trans (congrArg Option.isSome (indexed.symm.trans gone)))
        (by simp)
  | @taskParsed task entry payload withinRateLimit found _ =>
    cases payload with
    | none => rfl
    | some parsed =>
      rw [ServesRegistered, TransportState.servesRegistered, found, Option.all_some]
      split
      · rename_i request accepted
        by_contra unserved
        simp only [Bool.or_eq_true, decide_eq_true_eq, Bool.not_eq_true', not_or,
          Bool.not_eq_false] at unserved
        have admitted : state.admitRequest options entry.client request.id withinRateLimit =
            .ok () := by
          cases outcome : state.admitRequest options entry.client request.id withinRateLimit with
          | ok admitted => rfl
          | error refusal =>
            rw [outcome] at unserved
            exact absurd unserved.2 (by simp [Except.isOk, Except.toBool])
        simp only [TransportState.taskParsed, accepted, TransportState.handleRequest, admitted,
          handler_of_parsed accepted, if_true] at registered
        refine unserved.1 (registered.pending entry.client ?_)
        simp [TransportState.modifyTask, TransportState.startExecution,
          TransportState.register, TransportState.setPendingRequests,
          TransportState.incrementPendingRequestCount]
      · rfl
  | _ => rfl

/-- In a run that serves no closed client the registry is exact and closed clients stay away.  The
condition is the weakest: a step that breaks it breaks the registry at once. -/
theorem registry_of_served (reached : Reaches (transportStep options) (ServesRegistered options)
      .initial state) :
    IndexExact state ∧
    (∀ client, client < state.nextClient → client ∉ state.clients → ∀ later,
      Reaches (transportStep options) (ServesRegistered options) state later →
      StaysClosed state later client) ∧
    (∀ client, client < state.nextClient → ∀ later,
      Reaches (transportStep options) (ServesRegistered options) (state.close client) later →
      StaysClosed (state.close client) later client) ∧
    ∀ event next, transportStep options state event = some next →
      (ServesRegistered options state event ↔ IndexExact next ∧ PendingRegistered next) := by
  have registered := registered_of_reaches reached registered_initial
  refine ⟨(indexExact_iff registered.visible).mpr registered.hidden, ?_, ?_, ?_⟩
  · intro client known away later continued
    exact staysClosed_of_reaches registered continued known away
  · intro client known later continued
    have stepped : transportStep options state (.closed client) = some (state.close client) :=
      if_pos known
    have served : ServesRegistered options state (.closed client) := rfl
    obtain ⟨clients, nextClient⟩ := clients_close state client
    refine staysClosed_of_reaches (registered_step registered served stepped) continued
      (nextClient ▸ known) ?_
    rw [clients, OrderedSet.mem_delete]
    exact fun left => left.1 rfl
  · intro event next stepped
    have visible := visible_step registered.visible stepped
    constructor
    · intro served
      have holds := registered_step registered served stepped
      exact ⟨(indexExact_iff visible).mpr holds.hidden, holds.pending⟩
    · rintro ⟨exactly, pending⟩
      exact served_of_registered stepped ⟨visible, (indexExact_iff visible).mp exactly, pending⟩

theorem registry_of_served_one : ∃ state : TransportState,
    state.clients.size = 1 ∧ IndexExact state := by
  have counted : (run (transportStep sampleOptions)
      (fun state event => state.servesRegistered sampleOptions event) .initial
      (.opened sampleData :: sampleMessage 0 0)).map (·.clients.size) = some 1 := by decide
  obtain ⟨state, ran, one⟩ := Option.map_eq_some_iff.mp counted
  exact ⟨state, one, (registry_of_served (reaches_of_run ran)).1⟩

/-- A client closes while its message waits; the session still resolves, so the message puts the
client back into the index, registers a request and starts a handler. -/
theorem registry_serves_closed :
    ¬∀ (options : TransportOptions) (state : TransportState),
      Reaches (transportStep options) Unrestricted .initial state →
      IndexExact state ∧
      ∀ client, client < state.nextClient → ∀ later,
        Reaches (transportStep options) Unrestricted (state.close client) later →
        StaysClosed (state.close client) later client := by
  intro claimed
  have opened : (run (transportStep sampleOptions) (fun _ _ => true) .initial
      [.opened sampleData, .message 0 10]).map (fun state => (decide (0 < state.nextClient),
        (run (transportStep sampleOptions) (fun _ _ => true) (state.close 0)
          [.taskStarts 0 (.accepted sampleData) true,
            .taskParsed 0 (some (samplePayload "request" 5)) true]).map fun later =>
          (decide (0 ∈ later.clients), decide (0 ∈ later.sessionClients "session"),
            (later.pendingRequests 0).size, later.executions.map (·.client)))) =
      some (true, some (false, true, 1, [0])) := rfl
  obtain ⟨state, ran, facts⟩ := Option.map_eq_some_iff.mp opened
  obtain ⟨known, facts⟩ := Prod.mk.inj facts
  obtain ⟨later, continued, facts⟩ := Option.map_eq_some_iff.mp facts
  obtain ⟨_, facts⟩ := Prod.mk.inj facts
  obtain ⟨indexed, _⟩ := Prod.mk.inj facts
  have reached := (reaches_of_run ran).unrestricted
  have reachedLater :=
    (reaches_of_run continued).unrestricted
  have stays := (claimed sampleOptions state reached).2 0 (of_decide_eq_true known) later
    reachedLater
  exact stays.unindexed "session" (of_decide_eq_true indexed)

end Runs

end Metidos.Rpc
