import Metidos.Library.OrderedMap
import Metidos.Library.Transition

/-!
Executable model of the request side of `src/bun/rpc-transport.ts`, wired as `src/bun/index.ts`
wires it.  A step runs one callback up to its next `await`; its event names the callback and
carries what the environment decides there: the session lookup, the abuse budget, the token
bucket, the decoded payload, a handler's outcome, and the fate of a frame.  Loggers and
recorders do not throw.  The proofs live in `TransportSteps`, `TransportAccounting`,
`TransportRegistry` and `TransportReplies`.
-/

namespace Metidos.Rpc

abbrev ClientId := Nat
abbrev TaskId := Nat
abbrev ExecutionId := Nat
abbrev RequestId := Nat
abbrev SessionId := String

structure SocketData where
  sessionId : Option SessionId
  userId : Option Nat
  deriving DecidableEq

inductive AbortReason
  | canceled
  | timedOut
  | closed
  deriving DecidableEq

/-- How the promise of `awaitRequestResult` settled. -/
inductive Settlement
  | value
  | error
  | aborted
  deriving DecidableEq

/-- Where `executeRegisteredRpcRequest` waits. -/
inductive ExecutionPhase
  | awaiting
  | settled (outcome : Settlement)
  | encodingResult
  | encodingError
  | finished
  deriving DecidableEq

/-- A started handler execution with its `PendingRpcRequest`. -/
structure Execution where
  client : ClientId
  requestId : RequestId
  timeoutMs : Option Nat
  timerActive : Bool
  aborted : Option AbortReason
  canceledByClient : Bool
  phase : ExecutionPhase
  deriving DecidableEq

/-- Where `handleMessageAsync` waits; a waiting task has not been entered yet. -/
inductive TaskPhase
  | waiting
  | parsing
  | replying (requestId : RequestId)
  | finished
  deriving DecidableEq

structure MessageTask where
  client : ClientId
  previous : Option TaskId
  messageByteLength : Nat
  phase : TaskPhase
  deriving DecidableEq

inductive Replier
  | execution (execution : ExecutionId)
  | task (task : TaskId)
  deriving DecidableEq

/-- A response handed to `client.send`; the texts of errors and results are left out. -/
structure Response where
  client : ClientId
  requestId : RequestId
  ok : Bool
  sentBy : Replier
  deriving DecidableEq

/-- The names of the RPC methods: the own keys of `rpcHandlers` and of `rpcParamValidators`,
which the type system keeps equal, and all of whose values are functions. -/
structure RpcMethods where
  names : List String
  ordinary : "__proto__" ∉ names

structure TransportOptions where
  methods : RpcMethods
  maxPayloadBytes : Nat
  maxPendingRequests : Nat
  maxPendingRequestsPerClient : Nat

/-- `typeof` of a property that is there. -/
inductive PropertyType
  | function
  | object
  deriving DecidableEq

def objectPrototypeProperty (name : String) : Option PropertyType :=
  if name ∈ ["constructor", "toString", "toLocaleString", "valueOf", "hasOwnProperty",
      "isPrototypeOf", "propertyIsEnumerable", "__defineGetter__", "__defineSetter__",
      "__lookupGetter__", "__lookupSetter__"] then some .function
  else if name = "__proto__" then some .object
  else none

/-- `typeof table[name]` for a table of functions. -/
def RpcMethods.property (methods : RpcMethods) (name : String) : Option PropertyType :=
  if name ∈ methods.names then some .function else objectPrototypeProperty name

/-- A decoded payload: the fields after their type checks, the number of milliseconds after
`normalizeTimeoutMs`, and whether the method's parameter validator accepts the parameters. -/
structure ParsedRpcClientMessage where
  type : Option String
  id : Option RequestId
  method : Option String
  paramsValid : Bool
  timeoutMs : Option Nat
  deriving DecidableEq

structure RpcRequest where
  id : RequestId
  method : String
  timeoutMs : Option Nat
  deriving DecidableEq

inductive RpcClientMessage
  | request (request : RpcRequest)
  | cancel (id : RequestId)
  deriving DecidableEq

def validateRpcRequestParams (methods : RpcMethods) (method : String) (paramsValid : Bool) :
    Except String Unit :=
  if methods.property method ≠ some .function then .error "Invalid RPC method."
  else if paramsValid then .ok ()
  else .error "Invalid RPC parameters."

def parseRpcRequestMessage (methods : RpcMethods) (parsed : ParsedRpcClientMessage) :
    Except String RpcRequest :=
  if parsed.type = some "request" then
    match parsed.id, parsed.method with
    | some id, some method =>
      if (methods.property method).isSome then do
        let _ ← validateRpcRequestParams methods method parsed.paramsValid
        return { id, method, timeoutMs := parsed.timeoutMs }
      else .error "Invalid RPC request payload"
    | _, _ => .error "Invalid RPC request payload"
  else .error "Invalid RPC request payload"

def parseRpcClientMessage (methods : RpcMethods) (parsed : ParsedRpcClientMessage) :
    Except String RpcClientMessage :=
  match parsed.type, parsed.id with
  | some "cancel", some id => .ok (.cancel id)
  | _, _ => (parseRpcRequestMessage methods parsed).map .request

structure TransportState where
  nextClient : ClientId
  clients : OrderedSet ClientId
  clientsBySessionId : OrderedMap SessionId (OrderedSet ClientId)
  indexedClientSessionId : OrderedMap ClientId SessionId
  data : OrderedMap ClientId SocketData
  pendingRequestsByClient : OrderedMap ClientId (OrderedMap RequestId ExecutionId)
  clientMessageQueueTail : OrderedMap ClientId (Option TaskId)
  pendingRequestCount : Nat
  peakPendingRequestCount : Nat
  tasks : List MessageTask
  executions : List Execution
  sent : List Response

def TransportState.initial : TransportState where
  nextClient := 0
  clients := OrderedSet.empty
  clientsBySessionId := OrderedMap.empty
  indexedClientSessionId := OrderedMap.empty
  data := OrderedMap.empty
  pendingRequestsByClient := OrderedMap.empty
  clientMessageQueueTail := OrderedMap.empty
  pendingRequestCount := 0
  peakPendingRequestCount := 0
  tasks := []
  executions := []
  sent := []

namespace TransportState

def incrementPendingRequestCount (state : TransportState) : TransportState :=
  { state with
    pendingRequestCount := state.pendingRequestCount + 1
    peakPendingRequestCount := max state.peakPendingRequestCount (state.pendingRequestCount + 1) }

def decrementPendingRequestCount (state : TransportState) (count : Nat) : TransportState :=
  { state with pendingRequestCount := state.pendingRequestCount - count }

def pendingRequests (state : TransportState) (client : ClientId) : OrderedMap RequestId ExecutionId :=
  (state.pendingRequestsByClient.get? client).getD OrderedMap.empty

def setPendingRequests (state : TransportState) (client : ClientId)
    (pending : OrderedMap RequestId ExecutionId) : TransportState :=
  { state with pendingRequestsByClient := state.pendingRequestsByClient.set client pending }

def sessionIdOf (state : TransportState) (client : ClientId) : Option SessionId :=
  (state.data.get? client).bind SocketData.sessionId

def addClientToSessionIndex (state : TransportState) (client : ClientId) (sessionId : SessionId) :
    TransportState :=
  { state with
    clientsBySessionId :=
      state.clientsBySessionId.upsert sessionId OrderedSet.empty (·.add client)
    indexedClientSessionId := state.indexedClientSessionId.set client sessionId }

def removeClientFromSessionIndex (state : TransportState) (client : ClientId)
    (sessionId : SessionId) : TransportState :=
  match state.clientsBySessionId.get? sessionId with
  | none => state
  | some sessionClients =>
    let remaining := sessionClients.delete client
    if remaining.size = 0 then
      { state with clientsBySessionId := state.clientsBySessionId.delete sessionId }
    else { state with clientsBySessionId := state.clientsBySessionId.set sessionId remaining }

def removeClientIndexes (state : TransportState) (client : ClientId) : TransportState :=
  match state.indexedClientSessionId.get? client with
  | none => state
  | some sessionId =>
    let removed := state.removeClientFromSessionIndex client sessionId
    { removed with indexedClientSessionId := removed.indexedClientSessionId.delete client }

def refreshClientIndexes (state : TransportState) (client : ClientId) : TransportState :=
  let nextSessionId := state.sessionIdOf client
  let previousSessionId := state.indexedClientSessionId.get? client
  let state :=
    if previousSessionId.isSome ∧ previousSessionId ≠ nextSessionId then
      state.removeClientIndexes client
    else state
  match nextSessionId with
  | some sessionId =>
    if previousSessionId ≠ some sessionId then state.addClientToSessionIndex client sessionId
    else state
  | none => state

def modifyExecution (state : TransportState) (execution : ExecutionId)
    (update : Execution → Execution) : TransportState :=
  { state with executions := state.executions.modify execution update }

def modifyTask (state : TransportState) (task : TaskId) (phase : TaskPhase) : TransportState :=
  { state with tasks := state.tasks.modify task fun entry => { entry with phase } }

end TransportState

/-- `controller.abort(reason)`: the first abort decides, and rejects a promise still awaited. -/
def Execution.abort (execution : Execution) (reason : AbortReason) : Execution :=
  match execution.aborted with
  | some _ => execution
  | none =>
    { execution with
      aborted := some reason
      phase := if execution.phase = .awaiting then .settled .aborted else execution.phase }

def Execution.cancel (execution : Execution) : Execution :=
  { execution with canceledByClient := true }.abort .canceled

def Execution.finish (execution : Execution) : Execution :=
  { execution with timerActive := false, phase := .finished }

def Execution.moveTo (execution : Execution) (phase : ExecutionPhase) : Execution :=
  { execution with phase }

def Execution.timeOut (execution : Execution) : Execution :=
  { execution with timerActive := false }.abort .timedOut

/-- The body of the loop of `abortAllPendingRequests`. -/
def Execution.abortForClose (execution : Execution) : Execution :=
  { execution with canceledByClient := true, timerActive := false }.abort .closed

namespace TransportState

/-- The map that an execution captured is the client's current one, or was cleared when it was
detached; an entry is one execution's, so asking the current map for it is the same test. -/
def abortPendingRequest (state : TransportState) (client : ClientId) (requestId : RequestId) :
    TransportState :=
  match (state.pendingRequests client).get? requestId with
  | none => state
  | some execution => state.modifyExecution execution (·.cancel)

def abortAllPendingRequests (state : TransportState) (client : ClientId) : TransportState :=
  match state.pendingRequestsByClient.get? client with
  | none => state
  | some pending =>
    let aborted := pending.values.foldl (fun state execution =>
      state.modifyExecution execution (·.abortForClose)) state
    let counted := aborted.decrementPendingRequestCount pending.size
    { counted with pendingRequestsByClient := counted.pendingRequestsByClient.delete client }

def close (state : TransportState) (client : ClientId) : TransportState :=
  let unregistered := { state with
    clients := state.clients.delete client
    clientMessageQueueTail := state.clientMessageQueueTail.delete client }
  (unregistered.removeClientIndexes client).abortAllPendingRequests client

def «open» (state : TransportState) (data : SocketData) : TransportState :=
  let client := state.nextClient
  let added := { state with
    nextClient := client + 1
    data := state.data.set client data
    clients := state.clients.add client
    clientMessageQueueTail := state.clientMessageQueueTail.set client none }
  added.refreshClientIndexes client

def drain (state : TransportState) (client : ClientId) : TransportState :=
  if client ∈ state.clients then state.refreshClientIndexes client else state

def closeAll (state : TransportState) (clients : List ClientId) : TransportState :=
  clients.foldl close state

def closeSession (state : TransportState) (sessionId : SessionId) : TransportState :=
  state.closeAll ((state.clientsBySessionId.get? sessionId).getD OrderedSet.empty).elements

def closeUser (state : TransportState) (userId : Nat) : TransportState :=
  state.closeAll (state.clients.elements.filter fun client =>
    (state.data.get? client).bind SocketData.userId = some userId)

/-- `handleMessage`: the task follows the one at the tail of the client's queue. -/
def handleMessage (state : TransportState) (client : ClientId) (messageByteLength : Nat) :
    TransportState :=
  let previous := ((state.clientMessageQueueTail.get? client).getD none)
  { state with
    tasks := state.tasks ++ [{ client, previous, messageByteLength, phase := .waiting }]
    clientMessageQueueTail := state.clientMessageQueueTail.set client (some state.tasks.length) }

end TransportState

/-- The outcome of `revalidateSession`. -/
inductive Revalidation
  | rejected
  | accepted (data : SocketData)
  | threw
  deriving DecidableEq

inductive FrameOutcome
  | encodeFailed
  | sent
  | notSent
  deriving DecidableEq

/-- Why a parsed request is answered with an error at once. -/
inductive Refusal
  | rateLimited
  | duplicate
  | overClientCapacity
  | overServerCapacity
  deriving DecidableEq

namespace TransportState

variable (options : TransportOptions)

/-- `assertRateLimit`, the duplicate test and `assertCapacity`. -/
def admitRequest (state : TransportState) (client : ClientId) (requestId : RequestId)
    (withinRateLimit : Bool) : Except Refusal Unit :=
  let pending := state.pendingRequests client
  if !withinRateLimit then .error .rateLimited
  else if pending.has requestId then .error .duplicate
  else if pending.size + 1 > options.maxPendingRequestsPerClient then .error .overClientCapacity
  else if state.pendingRequestCount + 1 > options.maxPendingRequests then
    .error .overServerCapacity
  else .ok ()

def register (state : TransportState) (client : ClientId) (request : RpcRequest) : TransportState :=
  (state.setPendingRequests client
    ((state.pendingRequests client).set request.id state.executions.length)
    ).incrementPendingRequestCount

def startExecution (state : TransportState) (client : ClientId) (request : RpcRequest) :
    TransportState :=
  { state with
    executions := state.executions ++
      [{ client, requestId := request.id, timeoutMs := request.timeoutMs,
         timerActive := request.timeoutMs.isSome, aborted := none, canceledByClient := false,
         phase := .awaiting }] }

def handleRequest (state : TransportState) (task : TaskId) (client : ClientId)
    (request : RpcRequest) (withinRateLimit : Bool) : TransportState :=
  match state.admitRequest options client request.id withinRateLimit with
  | .error _ => state.modifyTask task (.replying request.id)
  | .ok () =>
    let registered := state.register client request
    if options.methods.property request.method = some .function then
      (registered.startExecution client request).modifyTask task .finished
    else registered.modifyTask task (.replying request.id)

@[grind =] def startTask (state : TransportState) (task : TaskId) (entry : MessageTask)
    (revalidation : Revalidation) (withinBudget : Bool) : TransportState :=
  match revalidation with
  | .rejected => (state.close entry.client).modifyTask task .finished
  | .threw => state.modifyTask task .finished
  | .accepted data =>
    let refreshed := { state with data := state.data.set entry.client data
      }.refreshClientIndexes entry.client
    if entry.messageByteLength > options.maxPayloadBytes then
      (refreshed.close entry.client).modifyTask task .finished
    else if !withinBudget then (refreshed.close entry.client).modifyTask task .finished
    else refreshed.modifyTask task .parsing

@[grind =] def taskParsed (state : TransportState) (task : TaskId) (entry : MessageTask)
    (payload : Option ParsedRpcClientMessage) (withinRateLimit : Bool) : TransportState :=
  match payload with
  | none => state.modifyTask task .finished
  | some parsed =>
    match parseRpcClientMessage options.methods parsed with
    | .error _ =>
      match parsed.id with
      | some requestId => state.modifyTask task (.replying requestId)
      | none => state.modifyTask task .finished
    | .ok (.cancel requestId) =>
      (state.abortPendingRequest entry.client requestId).modifyTask task .finished
    | .ok (.request request) =>
      state.handleRequest options task entry.client request withinRateLimit

/-- `sendWebSocketMessage`: a send that does not go through closes the client. -/
def sendWebSocketMessage (state : TransportState) (response : Response) (delivered : Bool) :
    TransportState :=
  let sent := { state with sent := state.sent ++ [response] }
  if delivered then sent else sent.close response.client

def taskReplied (state : TransportState) (task : TaskId) (entry : MessageTask)
    (requestId : RequestId) (outcome : FrameOutcome) : TransportState :=
  match outcome with
  | .encodeFailed => (state.close entry.client).modifyTask task .finished
  | .sent =>
    (state.sendWebSocketMessage ⟨entry.client, requestId, false, .task task⟩ true).modifyTask
      task .finished
  | .notSent =>
    (state.sendWebSocketMessage ⟨entry.client, requestId, false, .task task⟩ false).modifyTask
      task .finished

/-- The `finally` block: the entry goes if it is still this execution's. -/
def finishExecution (state : TransportState) (execution : ExecutionId) (entry : Execution) :
    TransportState :=
  let ended := state.modifyExecution execution (·.finish)
  let pending := ended.pendingRequests entry.client
  if pending.get? entry.requestId = some execution then
    (ended.setPendingRequests entry.client (pending.delete entry.requestId)
      ).decrementPendingRequestCount 1
  else ended

/-- The continuation of `await awaitRequestResult(...)`. -/
def resumeExecution (state : TransportState) (execution : ExecutionId) (entry : Execution)
    (outcome : Settlement) : TransportState :=
  match outcome with
  | .value =>
    if entry.aborted.isSome then state.finishExecution execution entry
    else state.modifyExecution execution (·.moveTo .encodingResult)
  | .error | .aborted =>
    if entry.canceledByClient then state.finishExecution execution entry
    else state.modifyExecution execution (·.moveTo .encodingError)

def responseEncoded (state : TransportState) (execution : ExecutionId) (entry : Execution)
    (outcome : FrameOutcome) : TransportState :=
  let response : Response :=
    ⟨entry.client, entry.requestId, entry.phase == .encodingResult, .execution execution⟩
  match outcome with
  | .encodeFailed =>
    if entry.phase = .encodingResult ∧ entry.canceledByClient = false then
      state.modifyExecution execution (·.moveTo .encodingError)
    else state.finishExecution execution entry
  | .sent => (state.sendWebSocketMessage response true).finishExecution execution entry
  | .notSent => (state.sendWebSocketMessage response false).finishExecution execution entry

end TransportState

inductive TransportEvent
  | opened (data : SocketData)
  | closed (client : ClientId)
  | drained (client : ClientId)
  | closeSession (sessionId : SessionId)
  | closeUser (userId : Nat)
  | message (client : ClientId) (messageByteLength : Nat)
  | taskStarts (task : TaskId) (revalidation : Revalidation) (withinBudget : Bool)
  | taskParsed (task : TaskId) (payload : Option ParsedRpcClientMessage) (withinRateLimit : Bool)
  | taskReplied (task : TaskId) (outcome : FrameOutcome)
  | handlerSettles (execution : ExecutionId) (failed : Bool)
  | timeout (execution : ExecutionId)
  | executionResumes (execution : ExecutionId)
  | responseEncoded (execution : ExecutionId) (outcome : FrameOutcome)
  deriving DecidableEq

def TransportState.previousDone (state : TransportState) (entry : MessageTask) : Bool :=
  match entry.previous with
  | none => true
  | some previous => (state.tasks[previous]?).all fun task => task.phase == .finished

@[grind =] def transportStep (options : TransportOptions) (state : TransportState) :
    TransportEvent → Option TransportState
  | .opened data => some (state.open data)
  | .closed client => if client < state.nextClient then some (state.close client) else none
  | .drained client => if client < state.nextClient then some (state.drain client) else none
  | .closeSession sessionId => some (state.closeSession sessionId)
  | .closeUser userId => some (state.closeUser userId)
  | .message client messageByteLength =>
    if client < state.nextClient then some (state.handleMessage client messageByteLength)
    else none
  | .taskStarts task revalidation withinBudget => do
      let entry ← state.tasks[task]?
      if entry.phase = .waiting ∧ state.previousDone entry = true then
        some (state.startTask options task entry revalidation withinBudget)
      else none
  | .taskParsed task payload withinRateLimit => do
      let entry ← state.tasks[task]?
      if entry.phase = .parsing then
        some (state.taskParsed options task entry payload withinRateLimit)
      else none
  | .taskReplied task outcome => do
      let entry ← state.tasks[task]?
      match entry.phase with
      | .replying requestId => some (state.taskReplied task entry requestId outcome)
      | _ => none
  | .handlerSettles execution failed => do
      let entry ← state.executions[execution]?
      if entry.phase = .awaiting then
        some (state.modifyExecution execution
          (·.moveTo (.settled (if failed then .error else .value))))
      else none
  | .timeout execution => do
      let entry ← state.executions[execution]?
      if entry.timerActive then
        some (state.modifyExecution execution (·.timeOut))
      else none
  | .executionResumes execution => do
      let entry ← state.executions[execution]?
      match entry.phase with
      | .settled outcome => some (state.resumeExecution execution entry outcome)
      | _ => none
  | .responseEncoded execution outcome => do
      let entry ← state.executions[execution]?
      if entry.phase = .encodingResult ∨ entry.phase = .encodingError then
        some (state.responseEncoded execution entry outcome)
      else none

end Metidos.Rpc
