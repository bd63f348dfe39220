import Metidos.Rpc.TransportChanges

/-!
The index by session: its two maps stay consistent, and what each operation on it does to the
session a client is indexed under.
-/

namespace Metidos.Rpc

def TransportState.sessionClients (state : TransportState) (sessionId : SessionId) :
    OrderedSet ClientId :=
  (state.clientsBySessionId.get? sessionId).getD OrderedSet.empty

structure IndexConsistent (state : TransportState) : Prop where
  buckets : ∀ sessionId client, client ∈ state.sessionClients sessionId ↔
    state.indexedClientSessionId.get? client = some sessionId
  nonempty : ∀ sessionId clients, state.clientsBySessionId.get? sessionId = some clients →
    clients.size ≠ 0

section Index

variable {state other : TransportState} {client : ClientId} {sessionId : SessionId}

theorem indexConsistent_congr (holds : IndexConsistent state)
    (buckets : other.clientsBySessionId = state.clientsBySessionId)
    (indexed : other.indexedClientSessionId = state.indexedClientSessionId) :
    IndexConsistent other := by
  refine ⟨?_, ?_⟩
  · intro sessionId client
    rw [TransportState.sessionClients, buckets, indexed]
    exact holds.buckets sessionId client
  · intro sessionId clients
    rw [buckets]
    exact holds.nonempty sessionId clients

theorem add_size_ne_zero (clients : OrderedSet ClientId) (client : ClientId) :
    (clients.add client).size ≠ 0 := by
  intro empty
  have member : client ∈ clients.add client := (OrderedSet.mem_add _ _ _).mpr (Or.inl rfl)
  rw [OrderedSet.mem_def, List.length_eq_zero_iff.mp empty] at member
  exact absurd member (by simp)

theorem sessionClients_add (client : ClientId) (sessionId other : SessionId) :
    (state.addClientToSessionIndex client sessionId).sessionClients other =
      if other = sessionId then (state.sessionClients sessionId).add client
      else state.sessionClients other := by
  simp only [TransportState.sessionClients, TransportState.addClientToSessionIndex,
    OrderedMap.get?_upsert]
  split <;> rfl

theorem indexConsistent_add (holds : IndexConsistent state)
    (absent : state.indexedClientSessionId.get? client = none) :
    IndexConsistent (state.addClientToSessionIndex client sessionId) := by
  refine ⟨?_, ?_⟩
  · intro target member
    have before := holds.buckets target member
    rw [sessionClients_add]
    change _ ↔ (state.indexedClientSessionId.set client sessionId).get? member = some target
    rw [OrderedMap.get?_set]
    by_cases sameClient : member = client
    · subst sameClient
      rw [absent] at before
      by_cases sameSession : target = sessionId
      · simp [sameSession]
      · simp [sameSession, Ne.symm sameSession, before]
    · by_cases sameSession : target = sessionId
      · subst sameSession
        simp [sameClient, before]
      · simp [sameClient, sameSession, before]
  · intro target clients found
    simp only [TransportState.addClientToSessionIndex, OrderedMap.get?_upsert] at found
    split at found
    · rw [Option.some.injEq] at found
      exact found ▸ add_size_ne_zero _ _
    · exact holds.nonempty target clients found

theorem mem_sessionClients_remove (state : TransportState) (client : ClientId)
    (sessionId : SessionId) (member : ClientId) (target : SessionId) :
    member ∈ (state.removeClientFromSessionIndex client sessionId).sessionClients target ↔
      (target = sessionId → member ≠ client) ∧ member ∈ state.sessionClients target := by
  simp only [TransportState.removeClientFromSessionIndex]
  split
  · rename_i absent
    by_cases sameSession : target = sessionId
    · subst sameSession
      simp [TransportState.sessionClients, absent]
    · simp [sameSession]
  · rename_i clients found
    split
    · rename_i empty
      by_cases sameSession : target = sessionId
      · subst sameSession
        simp only [TransportState.sessionClients, OrderedMap.get?_delete, found, if_true,
          Option.getD_none, Option.getD_some, OrderedSet.not_mem_empty, false_iff, not_and]
        intro different there
        have remains : member ∈ clients.delete client :=
          (OrderedSet.mem_delete _ _ _).mpr ⟨different trivial, there⟩
        rw [OrderedSet.mem_def, List.length_eq_zero_iff.mp empty] at remains
        exact absurd remains (by simp)
      · simp [TransportState.sessionClients, sameSession]
    · by_cases sameSession : target = sessionId
      · subst sameSession
        simp [TransportState.sessionClients, found]
      · simp [TransportState.sessionClients, sameSession]

theorem removeClientFromSessionIndex_indexed :
    (state.removeClientFromSessionIndex client sessionId).indexedClientSessionId =
      state.indexedClientSessionId := by
  simp only [TransportState.removeClientFromSessionIndex]
  split
  · rfl
  · split <;> rfl

theorem removeClientFromSessionIndex_nonempty (holds : IndexConsistent state) {target : SessionId}
    {clients : OrderedSet ClientId}
    (found : (state.removeClientFromSessionIndex client sessionId).clientsBySessionId.get? target =
      some clients) : clients.size ≠ 0 := by
  simp only [TransportState.removeClientFromSessionIndex] at found
  split at found
  · exact holds.nonempty target clients found
  · split at found
    · simp only [OrderedMap.get?_delete] at found
      split at found
      · exact absurd found (by simp)
      · exact holds.nonempty target clients found
    · rename_i remains
      simp only [OrderedMap.get?_set] at found
      split at found
      · rw [Option.some.injEq] at found
        exact found ▸ remains
      · exact holds.nonempty target clients found

theorem removeClientIndexes_indexed (state : TransportState) (client member : ClientId) :
    (state.removeClientIndexes client).indexedClientSessionId.get? member =
      if member = client then none else state.indexedClientSessionId.get? member := by
  simp only [TransportState.removeClientIndexes]
  split
  · rename_i absent
    split
    · rename_i same
      exact same ▸ absent
    · rfl
  · rw [OrderedMap.get?_delete, removeClientFromSessionIndex_indexed]

theorem indexConsistent_remove (state : TransportState) (holds : IndexConsistent state) (client : ClientId) :
    IndexConsistent (state.removeClientIndexes client) := by
  refine ⟨?_, ?_⟩
  · intro target member
    rw [removeClientIndexes_indexed]
    simp only [TransportState.removeClientIndexes]
    split
    · rename_i absent
      rw [holds.buckets]
      split
      · rename_i same
        rw [same, absent]
      · rfl
    · rename_i sessionId found
      have moved := mem_sessionClients_remove state client sessionId member target
      refine moved.trans ?_
      rw [holds.buckets]
      by_cases same : member = client
      · subst same
        rw [found]
        simpa using fun different => Ne.symm different
      · simp [same]
  · intro target clients
    simp only [TransportState.removeClientIndexes]
    split
    · exact holds.nonempty target clients
    · exact removeClientFromSessionIndex_nonempty holds

theorem refreshClientIndexes_indexed (state : TransportState) (client member : ClientId) :
    (state.refreshClientIndexes client).indexedClientSessionId.get? member =
      if member = client then state.sessionIdOf client
      else state.indexedClientSessionId.get? member := by
  have removed := removeClientIndexes_indexed state client member
  have added : ∀ (start : TransportState) sessionId,
      (start.addClientToSessionIndex client sessionId).indexedClientSessionId.get? member =
        if member = client then some sessionId else start.indexedClientSessionId.get? member :=
    fun start sessionId => OrderedMap.get?_set _ _ _ _
  simp only [TransportState.refreshClientIndexes]
  cases next : state.sessionIdOf client with
  | none =>
    cases previous : state.indexedClientSessionId.get? client with
    | none =>
      by_cases same : member = client
      · simp [same, previous]
      · simp [same]
    | some sessionId => simpa using removed
  | some sessionId =>
    by_cases same : state.indexedClientSessionId.get? client = some sessionId
    · by_cases sameClient : member = client
      · simp [same, sameClient]
      · simp [same, sameClient]
    · simp only [ne_eq, same, not_false_eq_true, and_true, if_true]
      rw [added]
      by_cases sameClient : member = client
      · simp [sameClient]
      · simp only [sameClient, if_false] at removed ⊢
        split
        · exact removed
        · rfl

theorem indexConsistent_refresh (state : TransportState) (holds : IndexConsistent state) (client : ClientId) :
    IndexConsistent (state.refreshClientIndexes client) := by
  simp only [TransportState.refreshClientIndexes]
  have removed := indexConsistent_remove state holds client
  have gone : (state.removeClientIndexes client).indexedClientSessionId.get? client = none := by
    rw [removeClientIndexes_indexed, if_pos rfl]
  cases next : state.sessionIdOf client with
  | none =>
    simp only
    split
    · exact removed
    · exact holds
  | some sessionId =>
    by_cases same : state.indexedClientSessionId.get? client = some sessionId
    · simpa [same] using holds
    · simp only [ne_eq, same, not_false_eq_true, and_true, if_true]
      split
      · exact indexConsistent_add removed gone
      · rename_i absent
        exact indexConsistent_add holds (by simpa using absent)

end Index

section Frames

variable (state : TransportState) (client : ClientId)

theorem removeClientFromSessionIndex_only (sessionId : SessionId) :
    ∃ buckets, state.removeClientFromSessionIndex client sessionId =
      { state with clientsBySessionId := buckets } := by
  simp only [TransportState.removeClientFromSessionIndex]
  split
  · exact ⟨_, rfl⟩
  · split <;> exact ⟨_, rfl⟩

theorem removeClientIndexes_only :
    ∃ buckets entries, state.removeClientIndexes client =
      { state with clientsBySessionId := buckets, indexedClientSessionId := entries } := by
  simp only [TransportState.removeClientIndexes]
  split
  · exact ⟨_, _, rfl⟩
  · rename_i sessionId _
    obtain ⟨buckets, same⟩ := removeClientFromSessionIndex_only state client sessionId
    rw [same]
    exact ⟨_, _, rfl⟩

theorem refreshClientIndexes_only :
    ∃ buckets entries, state.refreshClientIndexes client =
      { state with clientsBySessionId := buckets, indexedClientSessionId := entries } := by
  obtain ⟨buckets, entries, same⟩ := removeClientIndexes_only state client
  simp only [TransportState.refreshClientIndexes, same]
  split
  · split
    · split <;> exact ⟨_, _, rfl⟩
    · split <;> exact ⟨_, _, rfl⟩
  · split <;> exact ⟨_, _, rfl⟩

end Frames

section Tasks

variable {options : TransportOptions} {state next : TransportState} {event : TransportEvent}

theorem tasks_refresh (client : ClientId) :
    (state.refreshClientIndexes client).tasks = state.tasks := by
  obtain ⟨buckets, entries, same⟩ := refreshClientIndexes_only state client
  rw [same]

theorem tasks_close (state : TransportState) (client : ClientId) : (state.close client).tasks = state.tasks := by
  obtain ⟨buckets, entries, same⟩ := removeClientIndexes_only (state.unregister client) client
  change (((state.unregister client).removeClientIndexes client).abortAllPendingRequests
    client).tasks = state.tasks
  rw [same]
  simp only [TransportState.abortAllPendingRequests]
  split
  · rfl
  · simp only [TransportState.foldl_modifyExecution]
    rfl

theorem tasks_closeAll (clients : List ClientId) :
    (state.closeAll clients).tasks = state.tasks := by
  induction clients generalizing state with
  | nil => rfl
  | cons client clients ih => exact ih.trans (tasks_close _ client)

theorem tasks_send (response : Response) (delivered : Bool) :
    (state.sendWebSocketMessage response delivered).tasks = state.tasks := by
  simp only [TransportState.sendWebSocketMessage]
  split
  · rfl
  · exact tasks_close _ _

theorem tasks_finish (execution : ExecutionId) (entry : Execution) :
    (state.finishExecution execution entry).tasks = state.tasks := by
  simp only [TransportState.finishExecution]
  split <;> rfl

def TasksKnown (state : TransportState) : Prop :=
  ∀ task ∈ state.tasks, task.client < state.nextClient

def KeepsTasks (state next : TransportState) : Prop :=
  ∀ task ∈ next.tasks, ∃ before ∈ state.tasks, before.client = task.client

theorem keepsTasks_of_eq (same : next.tasks = state.tasks) : KeepsTasks state next :=
  fun task member => ⟨task, same ▸ member, rfl⟩

theorem keepsTasks_modifyTask {middle : TransportState} (same : middle.tasks = state.tasks)
    (task : TaskId) (phase : TaskPhase) : KeepsTasks state (middle.modifyTask task phase) := by
  intro updated member
  obtain ⟨position, found⟩ := List.mem_iff_getElem?.mp member
  simp only [TransportState.modifyTask, same, List.getElem?_modify, Option.map_eq_map,
    Option.map_eq_some_iff] at found
  obtain ⟨before, there, rfl⟩ := found
  refine ⟨before, List.mem_of_getElem? there, ?_⟩
  split <;> rfl

theorem keepsTasks_startTask (task : TaskId) (entry : MessageTask) (revalidation : Revalidation)
    (withinBudget : Bool) :
    KeepsTasks state (state.startTask options task entry revalidation withinBudget) := by
  cases revalidation with
  | rejected => exact keepsTasks_modifyTask (tasks_close _ _) _ _
  | threw => exact keepsTasks_modifyTask rfl _ _
  | accepted data =>
    have refreshed : ({ state with data := state.data.set entry.client data
        }.refreshClientIndexes entry.client).tasks = state.tasks := tasks_refresh _
    simp only [TransportState.startTask]
    split
    · exact keepsTasks_modifyTask ((tasks_close _ _).trans refreshed) _ _
    · split
      · exact keepsTasks_modifyTask ((tasks_close _ _).trans refreshed) _ _
      · exact keepsTasks_modifyTask refreshed _ _

theorem keepsTasks_taskParsed (task : TaskId) (entry : MessageTask)
    (payload : Option ParsedRpcClientMessage) (withinRateLimit : Bool) :
    KeepsTasks state (state.taskParsed options task entry payload withinRateLimit) := by
  cases payload with
  | none => exact keepsTasks_modifyTask rfl _ _
  | some parsed =>
    simp only [TransportState.taskParsed]
    split
    · split
      · exact keepsTasks_modifyTask rfl _ _
      · exact keepsTasks_modifyTask rfl _ _
    · refine keepsTasks_modifyTask ?_ _ _
      simp only [TransportState.abortPendingRequest]
      split <;> rfl
    · simp only [TransportState.handleRequest]
      split
      · exact keepsTasks_modifyTask rfl _ _
      · split
        · exact keepsTasks_modifyTask rfl _ _
        · exact keepsTasks_modifyTask rfl _ _

theorem tasks_resumeExecution (execution : ExecutionId) (entry : Execution)
    (outcome : Settlement) : (state.resumeExecution execution entry outcome).tasks = state.tasks := by
  cases outcome <;>
  · simp only [TransportState.resumeExecution]
    split
    · exact tasks_finish _ _
    · rfl

theorem tasks_responseEncoded (execution : ExecutionId) (entry : Execution)
    (outcome : FrameOutcome) :
    (state.responseEncoded execution entry outcome).tasks = state.tasks := by
  cases outcome with
  | encodeFailed =>
    simp only [TransportState.responseEncoded]
    split
    · rfl
    · exact tasks_finish _ _
  | sent => exact (tasks_finish _ _).trans (tasks_send _ true)
  | notSent => exact (tasks_finish _ _).trans (tasks_send _ false)

theorem tasks_step (stepped : transportStep options state event = some next) :
    KeepsTasks state next ∨
      ∃ client messageByteLength, client < state.nextClient ∧
        next = state.handleMessage client messageByteLength := by
  cases callback_of_step stepped with
  | opened => exact Or.inl (keepsTasks_of_eq (tasks_refresh _))
  | closed _ => exact Or.inl (keepsTasks_of_eq (tasks_close _ _))
  | drained _ =>
    refine Or.inl (keepsTasks_of_eq ?_)
    rw [TransportState.drain]
    split
    · exact tasks_refresh _
    · rfl
  | closeSession => exact Or.inl (keepsTasks_of_eq (tasks_closeAll _))
  | closeUser => exact Or.inl (keepsTasks_of_eq (tasks_closeAll _))
  | message known => exact Or.inr ⟨_, _, known, rfl⟩
  | taskStarts => exact Or.inl (keepsTasks_startTask _ _ _ _)
  | taskParsed => exact Or.inl (keepsTasks_taskParsed _ _ _ _)
  | @taskReplied _ _ _ outcome =>
    refine Or.inl ?_
    cases outcome with
    | encodeFailed => exact keepsTasks_modifyTask (tasks_close _ _) _ _
    | sent => exact keepsTasks_modifyTask (tasks_send _ true) _ _
    | notSent => exact keepsTasks_modifyTask (tasks_send _ false) _ _
  | handlerSettles => exact Or.inl (keepsTasks_of_eq rfl)
  | timeout => exact Or.inl (keepsTasks_of_eq rfl)
  | executionResumes => exact Or.inl (keepsTasks_of_eq (tasks_resumeExecution _ _ _))
  | responseEncoded => exact Or.inl (keepsTasks_of_eq (tasks_responseEncoded _ _ _))

theorem tasksKnown_step (holds : TasksKnown state) (grown : state.nextClient ≤ next.nextClient)
    (stepped : transportStep options state event = some next) : TasksKnown next := by
  intro task member
  rcases tasks_step stepped with keeps | ⟨client, messageByteLength, known, rfl⟩
  · obtain ⟨before, there, same⟩ := keeps task member
    exact same ▸ Nat.lt_of_lt_of_le (holds before there) grown
  · simp only [TransportState.handleMessage, List.mem_append, List.mem_singleton] at member
    rcases member with there | rfl
    · exact holds task there
    · exact known

end Tasks

end Metidos.Rpc
