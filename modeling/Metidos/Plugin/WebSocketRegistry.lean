import Metidos.Library.Transition
import Metidos.Plugin.NetworkAllowlist

/-!
The WebSocket connections of a plugin, `PluginWebSocketRegistry` of `src/bun/plugin/websocket.ts`:
connect calls around the awaited URL check, the callbacks of the sockets and of the timers, and
the calls of the plugin, in any order.
-/

namespace Metidos.Plugin

inductive PluginWebSocketEvent
  | message (text : String)
  | close (code : Nat) (reason : String)
  | error (message : String)
  deriving DecidableEq

def PluginWebSocketEvent.isTerminal : PluginWebSocketEvent → Bool
  | .message _ => false
  | .close _ _ => true
  | .error _ => true

inductive PluginWebSocketState
  | closed
  | closing
  | connecting
  | opened
  deriving DecidableEq

inductive PluginWebSocketErrorCode
  | allowlistDenied
  | connectionLimitExceeded
  | invalidConnectionId
  | invalidNetworkPolicy
  | networkWebsocketFailed
  | permissionDenied
  | receiveAlreadyPending
  | timeout
  deriving DecidableEq

structure PluginWebSocketError where
  code : PluginWebSocketErrorCode
  message : String
  deriving DecidableEq

structure PluginNetworkPolicy where
  webSocketAllow : List Text
  enforceHttps : Option Bool

/-- The context of a registry.  A limit is present when it is an integer; the URL parser and the
text of a URL for messages are the host's. -/
structure PluginWebSocketContext where
  maxConnections : Option Int
  maxMessageBytes : Option Int
  maxQueuedMessages : Option Int
  network : Option PluginNetworkPolicy
  permissions : List String
  parseUrl : ParseUrl
  diagnosticUrl : Url → String

def integerLimit (value : Option Int) (fallback minimum maximum : Nat) : Nat :=
  match value with
  | none => fallback
  | some value => min maximum (max minimum value.toNat)

namespace PluginWebSocketContext

def connectionLimit (context : PluginWebSocketContext) : Nat :=
  integerLimit context.maxConnections 4 1 32

def messageBytes (context : PluginWebSocketContext) : Nat :=
  integerLimit context.maxMessageBytes (64 * 1024) 1 (1024 * 1024)

def queuedMessages (context : PluginWebSocketContext) : Nat :=
  integerLimit context.maxQueuedMessages 32 1 1024

end PluginWebSocketContext

/-- A connection, with what the closures of its connect call hold: `outcome` once the call is
settled, and whether they have dropped the record.  `registered` tells whether the record is in the
registry's map.  The last two fields record what the queue is about: the events that receive calls
have returned, and the messages that arrived before the first terminal event or overflow. -/
structure WebSocketRecord where
  id : Nat
  url : Url
  timeoutMs : Nat
  finalEvent : Option PluginWebSocketEvent
  queue : List PluginWebSocketEvent
  receive : Bool
  state : PluginWebSocketState
  outcome : Option (Except PluginWebSocketError Unit)
  dropped : Bool
  registered : Bool
  delivered : List PluginWebSocketEvent
  kept : List PluginWebSocketEvent

structure Registry where
  nextId : Nat
  dialing : List Url
  records : List WebSocketRecord

def Registry.initial : Registry where
  nextId := 1
  dialing := []
  records := []

namespace WebSocketRecord

def isActive (record : WebSocketRecord) : Bool :=
  record.registered && record.state != .closed

def keptWith (record : WebSocketRecord) (event : PluginWebSocketEvent) :
    List PluginWebSocketEvent :=
  if event.isTerminal || record.finalEvent.isSome then record.kept else record.kept ++ [event]

def overflowEvent (context : PluginWebSocketContext) (record : WebSocketRecord) :
    PluginWebSocketEvent :=
  .error (s!"Plugin WebSocket {record.id} exceeded queued message limit of " ++
    s!"{context.queuedMessages}.")

def enqueue (context : PluginWebSocketContext) (record : WebSocketRecord)
    (event : PluginWebSocketEvent) : WebSocketRecord :=
  if record.receive then
    { record with
      receive := false
      delivered := record.delivered ++ [event]
      kept := record.keptWith event
      registered := record.registered && !event.isTerminal }
  else if context.queuedMessages ≤ record.queue.length then
    { record with
      finalEvent := some (record.overflowEvent context)
      queue := record.queue ++ [record.overflowEvent context] }
  else
    { record with
      queue := record.queue ++ [event]
      kept := record.keptWith event }

def finish (context : PluginWebSocketContext) (record : WebSocketRecord)
    (event : PluginWebSocketEvent) : WebSocketRecord :=
  enqueue context { record with finalEvent := some event } event

def onOpen (record : WebSocketRecord) : WebSocketRecord :=
  if record.outcome.isSome || record.dropped then record
  else { record with outcome := some (.ok ()), state := .opened }

def messageEventFromData (context : PluginWebSocketContext) (text : String) :
    Except String PluginWebSocketEvent :=
  if context.messageBytes < text.utf8ByteSize then
    .error s!"Plugin WebSocket message exceeded {context.messageBytes} bytes."
  else .ok (.message text)

def onMessage (context : PluginWebSocketContext) (record : WebSocketRecord) (text : String) :
    WebSocketRecord :=
  if record.dropped then record
  else
    match messageEventFromData context text with
    | .ok event => enqueue context record event
    | .error message => finish context record (.error message)

def onClose (context : PluginWebSocketContext) (record : WebSocketRecord) (code : Nat)
    (reason : String) : WebSocketRecord :=
  if record.dropped then record
  else finish context { record with state := .closed } (.close code reason)

def failedMessage (context : PluginWebSocketContext) (url : Url) : String :=
  "Plugin WebSocket failed for " ++ context.diagnosticUrl url

def onError (context : PluginWebSocketContext) (record : WebSocketRecord)
    (text : Option String) : WebSocketRecord :=
  let message := text.getD (failedMessage context record.url ++ ".")
  if record.outcome.isNone then
    { record with
      outcome := some (.error { code := .networkWebsocketFailed, message })
      registered := false
      dropped := true }
  else if record.dropped then record
  else finish context record (.error message)

def timeoutMessage (context : PluginWebSocketContext) (record : WebSocketRecord) : String :=
  s!"Plugin WebSocket connect timed out after {record.timeoutMs}ms for " ++
    context.diagnosticUrl record.url ++ "."

def onConnectTimeout (context : PluginWebSocketContext) (record : WebSocketRecord) :
    WebSocketRecord :=
  if record.outcome.isSome then record
  else
    { record with
      outcome := some (.error { code := .timeout, message := record.timeoutMessage context }) }

/-- What a receive call returns, unless it waits for an event. -/
inductive ReceiveResult
  | event (event : PluginWebSocketEvent)
  | waiting
  | refused (error : PluginWebSocketError)
  deriving DecidableEq

def consumeEvent (record : WebSocketRecord) (event : PluginWebSocketEvent) : WebSocketRecord :=
  { record with
    delivered := record.delivered ++ [event]
    registered := record.registered && !event.isTerminal }

def receiveCall (record : WebSocketRecord) : ReceiveResult × WebSocketRecord :=
  match record.queue, record.finalEvent with
  | event :: rest, _ => (.event event, consumeEvent { record with queue := rest } event)
  | [], some event => (.event event, consumeEvent record event)
  | [], none =>
    if record.receive then
      (.refused
        { code := .receiveAlreadyPending,
          message := s!"Plugin WebSocket {record.id} already has a pending receive call." },
        record)
    else (.waiting, { record with receive := true })

def onReceiveTimeout (record : WebSocketRecord) : WebSocketRecord :=
  { record with receive := false }

def closeCall (record : WebSocketRecord) : WebSocketRecord :=
  { record with state := if record.state = .closed then .closed else .closing }

def shutDown (record : WebSocketRecord) : WebSocketRecord :=
  if record.registered then { record with receive := false, registered := false } else record

end WebSocketRecord

def compiledAllowlistForContext (context : PluginWebSocketContext) :
    Except PluginWebSocketError (List CompiledPluginNetworkAllowPattern) :=
  let webSocketAllow := (context.network.map PluginNetworkPolicy.webSocketAllow).getD []
  if webSocketAllow = [] then
    .error { code := .invalidNetworkPolicy,
             message := "Plugin WebSocket requires a non-empty network.webSocketAllow list." }
  else
    let compiled := compilePluginNetworkAllowlist context.parseUrl
      { allowUnsafeAllDomains := some (context.permissions.contains "unsafe"),
        enforceHttps := context.network.bind PluginNetworkPolicy.enforceHttps,
        kind := some .websocket,
        patterns := webSocketAllow }
    if compiled.issues = [] then .ok compiled.patterns
    else .error { code := .invalidNetworkPolicy,
                  message := " ".intercalate (compiled.issues.map (·.message)) }

def assertPluginWebSocketUrlAllowed (context : PluginWebSocketContext)
    (allowlist : List CompiledPluginNetworkAllowPattern) (requestUrl : Text) :
    Except PluginWebSocketError Url :=
  match assertPluginNetworkUrlAllowed context.parseUrl allowlist requestUrl with
  | .ok url => .ok url
  | .error error => .error { code := .allowlistDenied, message := error.message }

namespace Registry

def activeConnectionCount (registry : Registry) : Nat :=
  registry.records.countP WebSocketRecord.isActive

def connectChecks (context : PluginWebSocketContext) (registry : Registry) (url : Text) :
    Except PluginWebSocketError Url := do
  if !context.permissions.contains "network:websocket" then
    throw { code := .permissionDenied,
            message := "Plugin WebSocket requires network:websocket permission." }
  if context.connectionLimit ≤ registry.activeConnectionCount then
    throw { code := .connectionLimitExceeded,
            message := s!"Plugin WebSocket connection limit of {context.connectionLimit} " ++
              "has been reached." }
  let allowlist ← compiledAllowlistForContext context
  assertPluginWebSocketUrlAllowed context allowlist url

inductive Dialing
  | refused
  | threw
  | dialed (timeoutMs : Nat)
  deriving DecidableEq

def newRecord (id : Nat) (url : Url) (timeoutMs : Nat) : WebSocketRecord where
  id := id
  url := url
  timeoutMs := timeoutMs
  finalEvent := none
  queue := []
  receive := false
  state := .connecting
  outcome := none
  dropped := false
  registered := true
  delivered := []
  kept := []

/-- A change of the one record with the id. -/
@[grind =]
def update (registry : Registry) (id : Nat) (change : WebSocketRecord → WebSocketRecord) :
    Registry :=
  { registry with
    records := registry.records.map fun record => if record.id = id then change record else record }

def updateConnection (registry : Registry) (id : Nat)
    (change : WebSocketRecord → WebSocketRecord) : Registry :=
  registry.update id fun record => if record.registered then change record else record

def recordOf (registry : Registry) (id : Nat) : Option WebSocketRecord :=
  registry.records.find? fun record => record.id = id

inductive Event
  | connect (url : Text)
  | dial (index : Nat) (outcome : Dialing)
  | connectTimeout (id : Nat)
  | opened (id : Nat)
  | message (id : Nat) (text : String)
  | closed (id : Nat) (code : Nat) (reason : String)
  | errored (id : Nat) (message : Option String)
  | receive (id : Nat)
  | receiveTimeout (id : Nat)
  | close (id : Nat)
  | closeAll
  deriving DecidableEq

/-- One callback or call.  A call that is refused changes nothing, and a socket does not open after
it has closed. -/
@[grind =]
def step (context : PluginWebSocketContext) (registry : Registry) : Event → Option Registry
  | .connect url =>
    match connectChecks context registry url with
    | .ok url => some { registry with dialing := registry.dialing ++ [url] }
    | .error _ => some registry
  | .dial index outcome =>
    (registry.dialing[index]?).map fun url =>
      let settled := { registry with dialing := registry.dialing.eraseIdx index }
      match outcome with
      | .refused => settled
      | .threw => { settled with nextId := registry.nextId + 1 }
      | .dialed timeoutMs =>
        { settled with
          nextId := registry.nextId + 1
          records := registry.records ++ [newRecord registry.nextId url timeoutMs] }
  | .connectTimeout id =>
    (registry.recordOf id).map fun _ => registry.update id (·.onConnectTimeout context)
  | .opened id =>
    (registry.recordOf id).map fun _ => registry.update id fun record =>
      if record.state = .closed then record else record.onOpen
  | .message id text =>
    (registry.recordOf id).map fun _ => registry.update id (·.onMessage context text)
  | .closed id code reason =>
    (registry.recordOf id).map fun _ => registry.update id (·.onClose context code reason)
  | .errored id message =>
    (registry.recordOf id).map fun _ => registry.update id (·.onError context message)
  | .receive id => some (registry.updateConnection id fun record => record.receiveCall.2)
  | .receiveTimeout id =>
    (registry.recordOf id).bind fun record =>
      if record.receive then some (registry.update id (·.onReceiveTimeout)) else none
  | .close id => some (registry.updateConnection id (·.closeCall))
  | .closeAll => some { registry with records := registry.records.map (·.shutDown) }

end Registry

end Metidos.Plugin
