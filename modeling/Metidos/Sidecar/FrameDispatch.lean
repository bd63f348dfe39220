import Mathlib.Data.List.Infix
import Metidos.Library.OrderedMap
import Metidos.Library.Transition

/-!
Executable model of the frame dispatcher of `src/bun/plugin/sidecar-main.ts`: the serial queue,
the settlement frames that bypass it, active host requests with their abort controllers, and the
host operations that callbacks request.  Frames are modelled as decoded; what callbacks and
startups come to arrives with the event.  The proofs live in `CancelOutcome`.
-/

namespace Metidos.Sidecar

abbrev Text := List Char

/-- A frame from the host by its type; a frame that is not decoded, or is no host envelope, is
refused with an error, and its `type` field may still be that of a settlement. -/
inductive HostFrame
  | startup
  | shutdown
  | cancel (targetId : Text) (reason : Option Text)
  | response (requestId : Text)
  | error (requestId : Option Text)
  | request (id : Text)
  | refused (settlement : Bool) (code message : Text) (requestId : Option Text)
  deriving DecidableEq

def isPluginSidecarHostSettlementFrame : HostFrame → Bool
  | .response _ => true
  | .error _ => true
  | .refused settlement _ _ _ => settlement
  | _ => false

/-- What the sidecar writes to stdout; results are JSON texts. -/
inductive SidecarFrame
  | ready
  | response (requestId result : Text)
  | error (code message : Text) (requestId : Option Text)
  | request (id : Text) (hostRequestId : Option Text)
  deriving DecidableEq

/-- How the callback of a host request ends: it has answered, with a result or an error of its
own, or it throws. -/
inductive CallbackEnd
  | responded (result : Text)
  | failed (code message : Text)
  | threw (name message : Text)
  deriving DecidableEq

/-- What the head of the queue awaits. -/
inductive Handling
  | startup
  | shutdown
  | request (id : Text) (previousRequestId : Option Text)
  deriving DecidableEq

/-- What has happened, for the statements about runs. -/
inductive Moment
  | received (frame : HostFrame)
  | started (id : Text)
  | settled (id : Text) (aborted : Bool)
  deriving DecidableEq

/-- An abort controller is the reason that it was aborted with, if it was; `abandoned` lists the
requests that were aborted while their callback goes on. -/
structure DispatchState where
  keepRunning : Bool
  failed : Bool
  queue : List HostFrame
  current : Option Handling
  cancelledHostRequestIds : OrderedSet Text
  activeHostRequestAbortControllers : OrderedMap Text (Option Text)
  activeHostRequestId : Option Text
  hostRequestSequence : Nat
  pendingHostRequests : OrderedSet Text
  abandoned : List Text
  written : List SidecarFrame
  history : List Moment

def pluginHostRequestMaxPending : Nat := 64

namespace DispatchState

def initial : DispatchState where
  keepRunning := true
  failed := false
  queue := []
  current := none
  cancelledHostRequestIds := .empty
  activeHostRequestAbortControllers := .empty
  activeHostRequestId := none
  hostRequestSequence := 0
  pendingHostRequests := .empty
  abandoned := []
  written := []
  history := []

def write (state : DispatchState) (frame : SidecarFrame) : DispatchState :=
  { state with written := state.written ++ [frame] }

def note (state : DispatchState) (moment : Moment) : DispatchState :=
  { state with history := state.history ++ [moment] }

def handleHostCancel (state : DispatchState) (targetId : Text) (reason : Option Text) :
    DispatchState :=
  { state with
    cancelledHostRequestIds := state.cancelledHostRequestIds.add targetId
    activeHostRequestAbortControllers :=
      state.activeHostRequestAbortControllers.modify targetId fun aborted =>
        aborted.or (some (reason.getD "cancelled".toList)) }

/-- `handleHostResponse` and `handleHostError`. -/
def settleHostRequest (state : DispatchState) (requestId : Text) : DispatchState :=
  { state with pendingHostRequests := state.pendingHostRequests.delete requestId }

/-- `withActiveHostRequest` up to the first `await` of the callback. -/
def startRequest (state : DispatchState) (id : Text) : DispatchState :=
  { state with
    activeHostRequestAbortControllers := state.activeHostRequestAbortControllers.set id none
    activeHostRequestId := some id
    current := some (.request id state.activeHostRequestId) }.note (.started id)

/-- The `finally` of `withActiveHostRequest`. -/
def finishRequest (state : DispatchState) (id : Text) (previousRequestId : Option Text)
    (aborted : Bool) : DispatchState :=
  { state with
    activeHostRequestAbortControllers := state.activeHostRequestAbortControllers.delete id
    cancelledHostRequestIds := state.cancelledHostRequestIds.delete id
    activeHostRequestId := previousRequestId
    current := none }.note (.settled id aborted)

def callbackWrites (state : DispatchState) (id : Text) : CallbackEnd → DispatchState
  | .responded result =>
    if id ∈ state.cancelledHostRequestIds then state else state.write (.response id result)
  | .failed code message => state.write (.error code message (some id))
  | .threw _ _ => state

def isAbortLikeError (name message : Text) : Bool :=
  name = "AbortError".toList || decide ("cancelled".toList <:+: message)

def frameFailed (state : DispatchState) : DispatchState :=
  { state with keepRunning := false, failed := true }

def callbackEnded (state : DispatchState) (id : Text) (previousRequestId : Option Text)
    (ending : CallbackEnd) : DispatchState :=
  let answered := state.callbackWrites id ending
  match state.activeHostRequestAbortControllers.get? id, ending with
  | some (some reason), _ =>
    (answered.write (.error "host_request_cancelled".toList reason (some id))).finishRequest id
      previousRequestId true
  | _, .threw name message =>
    if id ∈ state.cancelledHostRequestIds ∨ isAbortLikeError name message = true then
      (answered.write (.error "host_request_cancelled".toList message (some id))).finishRequest
        id previousRequestId false
    else (answered.finishRequest id previousRequestId false).frameFailed
  | _, _ => answered.finishRequest id previousRequestId false

def raceAborted (state : DispatchState) (id : Text) (previousRequestId : Option Text)
    (reason : Text) : DispatchState :=
  { (state.write (.error "host_request_cancelled".toList reason (some id))).finishRequest id
      previousRequestId true with
    abandoned := state.abandoned ++ [id] }

/-- `rejectPendingHostRequests` and the end of a shutdown. -/
def shutDown (state : DispatchState) : DispatchState :=
  { state with
    pendingHostRequests := .empty
    current := none
    keepRunning := false }

/-- `handlePluginSidecarProtocolFrame` up to its first `await`. -/
def handleFrame (state : DispatchState) : HostFrame → DispatchState
  | .startup => { state with current := some .startup }
  | .shutdown => { state with current := some .shutdown }
  | .cancel targetId reason => state.handleHostCancel targetId reason
  | .response requestId => state.settleHostRequest requestId
  | .error requestId => state.settleHostRequest (requestId.getD [])
  | .request id => state.startRequest id
  | .refused _ code message requestId => state.write (.error code message requestId)

def dispatchFrame (state : DispatchState) (frame : HostFrame) : DispatchState :=
  let state := state.note (.received frame)
  if isPluginSidecarHostSettlementFrame frame then state.handleFrame frame
  else { state with queue := state.queue ++ [frame] }

/-- `requestHostOperation` of a request that is encoded and written. -/
def requestHostOperation (pluginId : Text) (state : DispatchState) : DispatchState :=
  if pluginHostRequestMaxPending ≤ state.pendingHostRequests.size then state
  else
    let sequence := state.hostRequestSequence + 1
    let requestId := pluginId ++ ":host-request:".toList ++ (Nat.repr sequence).toList
    { state with
      hostRequestSequence := sequence
      pendingHostRequests := state.pendingHostRequests.add requestId }.write
        (.request requestId state.activeHostRequestId)

end DispatchState

inductive DispatchEvent
  | frame (frame : HostFrame)
  | advance
  | startupEnded (reply : SidecarFrame)
  | shutdownFlushed
  | callbackEnded (ending : CallbackEnd)
  | raceAborted
  | abandonedEnded (id : Text) (ending : CallbackEnd)
  | hostOperation
  | hostRequestTimedOut (requestId : Text)

@[grind =] def dispatchStep (pluginId : Text) (state : DispatchState) :
    DispatchEvent → Option DispatchState
  | .frame frame => if state.keepRunning then some (state.dispatchFrame frame) else none
  | .advance =>
    match state.current, state.queue with
    | none, frame :: rest => some ({ state with queue := rest }.handleFrame frame)
    | _, _ => none
  | .startupEnded reply =>
    match state.current with
    | some .startup => some ({ state with current := none }.write reply)
    | _ => none
  | .shutdownFlushed =>
    match state.current with
    | some .shutdown => some state.shutDown
    | _ => none
  | .callbackEnded ending =>
    match state.current with
    | some (.request id previousRequestId) => some (state.callbackEnded id previousRequestId ending)
    | _ => none
  | .raceAborted =>
    match state.current with
    | some (.request id previousRequestId) =>
      match state.activeHostRequestAbortControllers.get? id with
      | some (some reason) => some (state.raceAborted id previousRequestId reason)
      | _ => none
    | _ => none
  | .abandonedEnded id ending =>
    if state.abandoned.contains id then
      some ({ state with abandoned := state.abandoned.erase id }.callbackWrites id ending)
    else none
  | .hostOperation => some (state.requestHostOperation pluginId)
  | .hostRequestTimedOut requestId => some (state.settleHostRequest requestId)

end Metidos.Sidecar
