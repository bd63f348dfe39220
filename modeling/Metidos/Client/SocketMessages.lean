import Metidos.Client.ThreadStore
import Metidos.Library.Transition
import Metidos.Rpc.CodecCore

/-!
The RPC socket of the client, `src/mainview/index.ts`: opening and replacing it, turning the
transport off, and what becomes of the frames that it receives. A frame that is not compressed is
decoded in the microtasks after it has arrived, before anything else happens; a compressed one
takes as long as its stream does.
-/

namespace Metidos.Client

open Rpc (RpcValue FrameError)

/-- What the client takes from its host. `devServer` is read off the page. -/
structure SocketHost where
  devServer : Bool
  parseJson : Text → Option RpcValue
  gunzipBytes : List UInt8 → Except FrameError (List UInt8)

inductive SocketData
  | text (value : Text)
  | binary (bytes : List UInt8)
  deriving DecidableEq

def isRpcBinaryFrame (bytes : List UInt8) : Bool :=
  4 ≤ bytes.length && Bytes.ofBigEndian (bytes.take 2) == Rpc.MAGIC

def ARRAY_BUFFER_TEXT : Text := "[object ArrayBuffer]".toList

def SocketHost.payload (host : SocketHost) : SocketData → Option RpcValue
  | .text value => host.parseJson value
  | .binary bytes =>
    if isRpcBinaryFrame bytes then
      (Rpc.decodeRpcBinaryFrame host.gunzipBytes bytes {}).toOption
    else host.parseJson ARRAY_BUFFER_TEXT

def inflates (bytes : List UInt8) : Bool :=
  match Rpc.readFrame bytes with
  | .ok ((flags, _), _) => flags = Rpc.FLAG_COMPRESSED
  | .error _ => false

def RpcValue.property (value : RpcValue) (key : Text) : RpcValue :=
  match value with
  | .object entries => (entries.lookup key).getD .undefined
  | _ => .undefined

def RpcValue.truthy : RpcValue → Bool
  | .undefined => false
  | .null => false
  | .boolean value => value
  | .number value =>
    value.bits % 2 ^ 63 ≠ 0 && !Rpc.isNaNBits value.bits
  | .string text => text ≠ []
  | .array _ => true
  | .object _ => true

def eventTypes : List Text :=
  ["reload", "git-history-changed", "cron-jobs-changed", "context-focus-changed",
    "thread-start-request-created", "thread-start-request-resolved", "thread-extension-ui",
    "thread-status-changed", "terminal-changed", "calendar-changed", "calendar-notifications-due",
    "user-notification-sent", "model-catalog-changed"].map String.toList

inductive RpcSocketMessage
  | event (type : Text) (payload : RpcValue)
  | response (payload : RpcValue)

def RpcSocketMessage.isEvent : RpcSocketMessage → Bool
  | event _ _ => true
  | response _ => false

def readSocketMessage (payload : RpcValue) : Option RpcSocketMessage :=
  match payload with
  | .undefined => none
  | .null => none
  | payload =>
    match RpcValue.property payload "type".toList with
    | .string type =>
      if type ∈ eventTypes then some (.event type payload) else some (.response payload)
    | _ => some (.response payload)

def SocketHost.message (host : SocketHost) (data : SocketData) : Option RpcSocketMessage :=
  (host.payload data).bind readSocketMessage

structure SocketFrame where
  generation : Nat
  arrival : Nat
  data : SocketData
  deriving DecidableEq

/-- A message that was dispatched or has settled a request, and whether its socket was then that
of the transport. -/
structure AppliedMessage where
  generation : Nat
  arrival : Nat
  message : RpcSocketMessage
  current : Bool

/-- A socket is named by its generation. `socketBusy` says that it is connecting or open,
`decoding` and `inflating` are the frames whose decoding has not ended, and `applied` is the
history of the messages, the newest first. -/
structure SocketState where
  rpcTransportEnabled : Bool
  isPageUnloading : Bool
  activeSocketGeneration : Nat
  socket : Option Nat
  socketBusy : Bool
  rpcSocketConnectPromise : Bool
  ticketsAwaited : Nat
  pendingRequests : List Rpc.JsNumber
  framesReceived : Nat
  decoding : Option SocketFrame
  inflating : List SocketFrame
  applied : List AppliedMessage

namespace SocketState

def initial : SocketState where
  rpcTransportEnabled := false
  isPageUnloading := false
  activeSocketGeneration := 0
  socket := none
  socketBusy := false
  rpcSocketConnectPromise := false
  ticketsAwaited := 0
  pendingRequests := []
  framesReceived := 0
  decoding := none
  inflating := []
  applied := []

def rejectPendingRequests (state : SocketState) : SocketState := { state with pendingRequests := [] }

def disableRpcTransport (state : SocketState) : SocketState :=
  { state.rejectPendingRequests with
    rpcTransportEnabled := false
    activeSocketGeneration := state.activeSocketGeneration + 1
    socket := none
    rpcSocketConnectPromise := false }

def connectRpcSocket (state : SocketState) : SocketState :=
  if state.isPageUnloading ∨ ¬state.rpcTransportEnabled ∨ state.rpcSocketConnectPromise then state
  else if state.socket ≠ none ∧ state.socketBusy then state
  else
    { state with
      rpcSocketConnectPromise := true
      ticketsAwaited := state.ticketsAwaited + 1 }

def enableRpcTransport (state : SocketState) : SocketState :=
  let enabled := { state with rpcTransportEnabled := true }
  if enabled.socket ≠ none ∧ enabled.socketBusy then enabled else enabled.connectRpcSocket

def ticketIssued (state : SocketState) : SocketState :=
  { state with
    ticketsAwaited := state.ticketsAwaited - 1
    rpcSocketConnectPromise := false
    activeSocketGeneration := state.activeSocketGeneration + 1
    socket := some (state.activeSocketGeneration + 1)
    socketBusy := true }

def ticketFailed (state : SocketState) (authRequired : Bool) : SocketState :=
  let failed :=
    { state with ticketsAwaited := state.ticketsAwaited - 1, rpcSocketConnectPromise := false }
  if authRequired then failed.disableRpcTransport else failed

def socketClosed (state : SocketState) (generation : Nat) : SocketState :=
  if state.socket = some generation then { state with socket := none }.rejectPendingRequests
  else state

def record (state : SocketState) (frame : SocketFrame) (message : RpcSocketMessage) :
    SocketState :=
  { state with
    applied :=
      { generation := frame.generation, arrival := frame.arrival, message,
        current :=
          frame.generation = state.activeSocketGeneration && state.rpcTransportEnabled } ::
        state.applied }

def pendingRequest (state : SocketState) (payload : RpcValue) : Option Rpc.JsNumber :=
  match RpcValue.property payload "id".toList with
  | .number id => state.pendingRequests.find? (· = id)
  | _ => none

def isAuthRequiredRpcError (payload : RpcValue) : Bool :=
  match RpcValue.property payload "errorCode".toList with
  | .string code =>
    code = "session_required".toList || code = "invalid_websocket_ticket".toList
  | _ => false

def reloadWindow (host : SocketHost) (state : SocketState) : SocketState :=
  if ¬host.devServer ∨ state.isPageUnloading then state else { state with isPageUnloading := true }

def handleMessage (host : SocketHost) (state : SocketState) (frame : SocketFrame) : SocketState :=
  match host.message frame.data with
  | none => state
  | some (.event type payload) =>
    let dispatched := state.record frame (.event type payload)
    if type = "reload".toList then dispatched.reloadWindow host else dispatched
  | some (.response payload) =>
    match state.pendingRequest payload with
    | none => state
    | some id =>
      let settled :=
        { state with
          pendingRequests := state.pendingRequests.filter (· ≠ id) }.record frame
            (.response payload)
      if RpcValue.truthy (RpcValue.property payload "ok".toList) then settled
      else if isAuthRequiredRpcError payload then settled.disableRpcTransport
      else settled

def messageReceived (host : SocketHost) (state : SocketState) (generation : Nat)
    (data : SocketData) : SocketState :=
  let frame : SocketFrame := ⟨generation, state.framesReceived, data⟩
  let arrived := { state with framesReceived := state.framesReceived + 1 }
  if generation ≠ state.activeSocketGeneration ∨ state.socket ≠ some generation then arrived
  else
    match data with
    | .text _ => arrived.handleMessage host frame
    | .binary bytes =>
      if ¬isRpcBinaryFrame bytes then arrived.handleMessage host frame
      else if inflates bytes then { arrived with inflating := arrived.inflating ++ [frame] }
      else { arrived with decoding := some frame }

end SocketState

inductive SocketEvent
  | enabled
  | disabled
  | connects
  | ticketIssued
  | ticketFailed (authRequired : Bool)
  | socketClosing
  | socketClosed (generation : Nat)
  | requestSent (id : Rpc.JsNumber)
  | requestFinished (id : Rpc.JsNumber)
  | pageUnloads
  | messageReceived (generation : Nat) (data : SocketData)
  | decoded
  | inflated (arrival : Nat)
  deriving DecidableEq

def socketStep (host : SocketHost) (state : SocketState) (event : SocketEvent) :
    Option SocketState :=
  match state.decoding with
  | some frame =>
    match event with
    | .decoded => some ({ state with decoding := none }.handleMessage host frame)
    | _ => none
  | none =>
    match event with
    | .enabled => some state.enableRpcTransport
    | .disabled => some state.disableRpcTransport
    | .connects => some state.connectRpcSocket
    | .ticketIssued => if 0 < state.ticketsAwaited then some state.ticketIssued else none
    | .ticketFailed authRequired =>
      if 0 < state.ticketsAwaited then some (state.ticketFailed authRequired) else none
    | .socketClosing => some { state with socketBusy := false }
    | .socketClosed generation => some (state.socketClosed generation)
    | .requestSent id => some { state with pendingRequests := id :: state.pendingRequests }
    | .requestFinished id =>
      some { state with pendingRequests := state.pendingRequests.filter (· ≠ id) }
    | .pageUnloads => some { state with isPageUnloading := true }
    | .messageReceived generation data => some (state.messageReceived host generation data)
    | .decoded => none
    | .inflated arrival =>
      match state.inflating.find? fun frame => frame.arrival = arrival with
      | none => none
      | some frame =>
        some ({ state with
          inflating := state.inflating.filter fun other =>
            other.arrival ≠ arrival }.handleMessage host frame)

end Metidos.Client
