import Metidos.Library.OrderedMap

/-!
The terminal sessions of `src/bun/terminal-manager.ts`: the replay buffer, the output that waits
for the sockets of a session, and the operations on sessions and sockets.  Texts are the UTF-16
code units of the source's strings.
-/

namespace Metidos.Terminal

abbrev Units := List Nat

def units (text : String) : Units := text.toList.map Char.toNat

def unitSize (unit : Nat) : Nat := if unit < 0x80 then 1 else if unit < 0x800 then 2 else 3

def encodedSize : Units → Nat
  | [] => 0
  | [unit] => unitSize unit
  | high :: low :: rest =>
    if 0xD800 ≤ high ∧ high < 0xDC00 ∧ 0xDC00 ≤ low ∧ low < 0xE000 then 4 + encodedSize rest
    else unitSize high + encodedSize (low :: rest)

def trimFrom (maxBytes : Nat) (next : Units) : Units :=
  if next ≠ [] ∧ maxBytes < encodedSize next then
    trimFrom maxBytes (next.drop (max 1 ((encodedSize next - maxBytes + 1) / 2)))
  else next
termination_by next.length
decreasing_by
  rename_i kept
  have nonempty := List.length_pos_iff.mpr kept.1
  rw [List.length_drop]
  omega

def trimStringToMaxBytes (text : Units) (maxBytes : Nat) : Units :=
  if maxBytes = 0 ∨ encodedSize text ≤ maxBytes then text
  else trimFrom maxBytes (text.drop (text.length - maxBytes))

structure TerminalOutputSegment where
  byteLength : Nat
  text : Units
  deriving DecidableEq

structure TerminalOutputBuffer where
  maxBytes : Nat
  byteLength : Nat
  segments : List TerminalOutputSegment
  deriving DecidableEq

namespace TerminalOutputBuffer

def new (maxBytes : Nat) : TerminalOutputBuffer where
  maxBytes := maxBytes
  byteLength := 0
  segments := []

def trimSegments (maxBytes : Nat) :
    Nat → List TerminalOutputSegment → Nat × List TerminalOutputSegment
  | byteLength, [] => (byteLength, [])
  | byteLength, segment :: rest =>
    if byteLength ≤ maxBytes then (byteLength, segment :: rest)
    else
      let overflowBytes := byteLength - maxBytes
      if segment.byteLength ≤ overflowBytes then
        trimSegments maxBytes (byteLength - segment.byteLength) rest
      else
        let keptText := trimStringToMaxBytes segment.text (segment.byteLength - overflowBytes)
        let keptByteLength := encodedSize keptText
        (byteLength - segment.byteLength + keptByteLength,
          { byteLength := keptByteLength, text := keptText } :: rest)

variable (buffer : TerminalOutputBuffer)

def trimToMaxBytes : TerminalOutputBuffer :=
  if buffer.maxBytes = 0 then buffer
  else
    let (byteLength, segments) := trimSegments buffer.maxBytes buffer.byteLength buffer.segments
    { buffer with byteLength, segments }

def append (text : Units) : TerminalOutputBuffer :=
  if text = [] then buffer
  else
    let segmentText :=
      if 0 < buffer.maxBytes ∧ buffer.maxBytes < encodedSize text then
        trimStringToMaxBytes text buffer.maxBytes
      else text
    let segmentByteLength := encodedSize segmentText
    let pushed : TerminalOutputBuffer := { buffer with
      byteLength := buffer.byteLength + segmentByteLength
      segments := buffer.segments ++ [{ byteLength := segmentByteLength, text := segmentText }] }
    pushed.trimToMaxBytes

def toUnits : Units := buffer.segments.flatMap TerminalOutputSegment.text

end TerminalOutputBuffer

/-- What a socket is opened with; the socket itself is named by the number of its opening. -/
structure TerminalSocketData where
  terminalId : Nat
  sessionId : Option Units
  userId : Option Nat
  deriving DecidableEq

inductive TerminalMessage
  | ready
  | replay (data : Units)
  | output (data : Units)
  | close (code : Nat) (reason : Units)
  deriving DecidableEq

abbrev Sends := List (Nat × TerminalMessage)

def TERMINAL_SOCKET_CLOSE_NORMAL : Nat := 1000

def TERMINAL_SOCKET_CLOSE_POLICY_VIOLATION : Nat := 1008

inductive TerminalStatus
  | starting
  | running
  | closing
  | exited
  | error
  deriving DecidableEq

structure TerminalSession where
  ownerSessionId : Option Units
  outputBuffer : TerminalOutputBuffer
  pendingSocketOutput : Units
  socketFlushTimer : Bool
  sockets : OrderedSet Nat
  status : TerminalStatus
  closeTimer : Bool
  exitedCleanupTimer : Bool
  waitingForKeyToClose : Bool

namespace TerminalSession

def new (ownerSessionId : Option Units) (replayBufferBytes : Nat) : TerminalSession where
  ownerSessionId := ownerSessionId
  outputBuffer := .new replayBufferBytes
  pendingSocketOutput := []
  socketFlushTimer := false
  sockets := .empty
  status := .starting
  closeTimer := false
  exitedCleanupTimer := false
  waitingForKeyToClose := false

variable (session : TerminalSession)

def appendOutput (data : Units) : TerminalSession :=
  let appended := { session with outputBuffer := session.outputBuffer.append data }
  if session.sockets.size = 0 then appended
  else
    { appended with
      pendingSocketOutput := session.pendingSocketOutput ++ data
      socketFlushTimer := true }

def flushSocketOutput : TerminalSession × Sends :=
  let stopped := { session with socketFlushTimer := false }
  if session.pendingSocketOutput = [] then (stopped, [])
  else
    ({ stopped with pendingSocketOutput := [] },
      session.sockets.elements.map fun socket => (socket, .output session.pendingSocketOutput))

def retainedRawOutput : Units := session.outputBuffer.toUnits

def clearPendingSocketOutput : TerminalSession :=
  { session with socketFlushTimer := false, pendingSocketOutput := [] }

def exitLabel (exitCode : Option Int) : Units :=
  units "\r\n" ++ units "Exited code " ++ units (toString (exitCode.getD 0)) ++
    units ". Press any key to close this terminal..."

def handleExit (exitCode : Option Int) : TerminalSession :=
  let exited := { session with closeTimer := false, status := .exited, waitingForKeyToClose := true }
  { exited.appendOutput (exitLabel exitCode) with exitedCleanupTimer := true }

/-- The end of a session: what waits is flushed and the sockets are closed.  The session leaves the
map of the manager. -/
def removeSession : Option TerminalSession × Sends :=
  let (_, flushed) := session.flushSocketOutput
  (none, flushed ++ session.sockets.elements.map fun socket =>
    (socket, .close TERMINAL_SOCKET_CLOSE_NORMAL (units "Terminal closed.")))

def closeSession (fromKeypress : Bool) : Option TerminalSession × Sends :=
  if session.status = .exited || session.waitingForKeyToClose || fromKeypress then
    session.removeSession
  else (some { session with status := .closing, closeTimer := true }, [])

def socketCanAccessSession (data : TerminalSocketData) : Bool :=
  match data.sessionId, session.ownerSessionId with
  | some sessionId, some ownerSessionId => ownerSessionId ≠ [] && sessionId = ownerSessionId
  | _, _ => false

def refusal (socket : Nat) : Sends :=
  [(socket, .close TERMINAL_SOCKET_CLOSE_POLICY_VIOLATION (units "Terminal not authorized."))]

def connectSocket (socket : Nat) (data : TerminalSocketData) : TerminalSession × Sends :=
  if session.socketCanAccessSession data then
    let (flushed, sent) := session.flushSocketOutput
    let joined := { flushed with sockets := flushed.sockets.add socket }
    let replayBuffer := joined.retainedRawOutput
    (joined, sent ++ (socket, .ready) ::
      if replayBuffer = [] then [] else [(socket, .replay replayBuffer)])
  else (session, refusal socket)

def disconnectSocket (socket : Nat) (data : TerminalSocketData) : TerminalSession :=
  if session.socketCanAccessSession data then
    let left := { session with sockets := session.sockets.delete socket }
    if left.sockets.size = 0 then left.clearPendingSocketOutput else left
  else session

/-- The first loop of `closeMatchingSockets`, at one session. -/
def closeMatchingSockets (matched : Nat → Bool) (reason : Units) (terminatePtys : Bool) :
    TerminalSession × Sends :=
  let closed := session.sockets.elements.filter matched
  let left := { session with sockets := closed.foldl OrderedSet.delete session.sockets }
  let sent := closed.map fun socket => (socket, .close TERMINAL_SOCKET_CLOSE_POLICY_VIOLATION reason)
  if closed = [] then (session, [])
  else if !terminatePtys && left.sockets.size = 0 then (left.clearPendingSocketOutput, sent)
  else (left, sent)

end TerminalSession

/-- What an event does to one session. -/
inductive SessionOperation
  | appendOutput (data : Units)
  | failToStart (data : Units)
  | handleExit (exitCode : Option Int)
  | flushSocketOutput
  | connectSocket (socket : Nat) (data : TerminalSocketData)
  | disconnectSocket (socket : Nat) (data : TerminalSocketData)
  | closeMatchingSockets (matched : Nat → Bool) (reason : Units) (terminatePtys : Bool)
  | closeSession (fromKeypress : Bool)
  | removeSession

namespace SessionOperation

def kept (result : TerminalSession × Sends) : Option TerminalSession × Sends :=
  (some result.1, result.2)

@[grind =] def run (session : TerminalSession) : SessionOperation → Option TerminalSession × Sends
  | .appendOutput data => (some (session.appendOutput data), [])
  | .failToStart data =>
    (some { ({ session with status := .error }.appendOutput data) with
      exitedCleanupTimer := true }, [])
  | .handleExit exitCode => (some (session.handleExit exitCode), [])
  | .flushSocketOutput => kept session.flushSocketOutput
  | .connectSocket socket data => kept (session.connectSocket socket data)
  | .disconnectSocket socket data => (some (session.disconnectSocket socket data), [])
  | .closeMatchingSockets matched reason terminatePtys =>
    kept (session.closeMatchingSockets matched reason terminatePtys)
  | .closeSession fromKeypress => session.closeSession fromKeypress
  | .removeSession => session.removeSession

def refused : SessionOperation → Sends
  | .connectSocket socket _ => TerminalSession.refusal socket
  | _ => []

def appended : SessionOperation → Units
  | .appendOutput data => data
  | .failToStart data => data
  | .handleExit exitCode => TerminalSession.exitLabel exitCode
  | _ => []

end SessionOperation

structure TerminalManager where
  sessions : OrderedMap Nat TerminalSession
  created : Nat
  opened : List TerminalSocketData

def TerminalManager.initial : TerminalManager where
  sessions := .empty
  created := 0
  opened := []

inductive TerminalEvent
  | createTerminal (ownerSessionId : Option Units) (replayBufferBytes : Nat)
      (startupError : Option Units)
  | ptyData (terminalId : Nat) (data : Units)
  | ptyExit (terminalId : Nat) (exitCode : Option Int)
  | flushTimerFires (terminalId : Nat)
  | closeTimerFires (terminalId : Nat)
  | exitedCleanupFires (terminalId : Nat)
  | closeTerminal (terminalId : Nat)
  | openSocket (data : TerminalSocketData)
  | closeSocket (socket : Nat)
  | keypress (socket : Nat)
  | closeSocketsForSession (sessionId reason : Units) (terminatePtys : Bool)
  | closeSocketsForUser (userId : Nat) (reason : Units) (terminatePtys : Bool)

namespace TerminalManager

variable (manager : TerminalManager)

/-- The operations of the two loops of `closeMatchingSockets`, in their order. -/
def closeMatchingSockets (matches' : TerminalSocketData → Bool) (reason : Units)
    (terminatePtys : Bool) : List (Nat × SessionOperation) :=
  let matched := fun socket => (manager.opened[socket]?).any matches'
  let sessionsToTerminate := manager.sessions.entries.filter fun entry =>
    terminatePtys && entry.2.sockets.elements.any matched
  (manager.sessions.keys.map fun terminalId =>
    (terminalId, .closeMatchingSockets matched reason terminatePtys)) ++
  sessionsToTerminate.map fun entry => (entry.1, .closeSession false)

def guarded (terminalId : Nat) (allows : TerminalSession → Bool) (operation : SessionOperation) :
    List (Nat × SessionOperation) :=
  match manager.sessions.get? terminalId with
  | some session => if allows session then [(terminalId, operation)] else []
  | none => []

/-- The session operations of an event.  An expired session goes by its cleanup timer or when the
next terminal is created, which is the same operation. -/
@[grind =] def operations : TerminalEvent → List (Nat × SessionOperation)
  | .createTerminal _ _ startupError =>
    match startupError with
    | some message => [(manager.created, .failToStart message)]
    | none => []
  | .ptyData terminalId data => [(terminalId, .appendOutput data)]
  | .ptyExit terminalId exitCode => [(terminalId, .handleExit exitCode)]
  | .flushTimerFires terminalId =>
    manager.guarded terminalId TerminalSession.socketFlushTimer .flushSocketOutput
  | .closeTimerFires terminalId =>
    manager.guarded terminalId TerminalSession.closeTimer .removeSession
  | .exitedCleanupFires terminalId =>
    manager.guarded terminalId (fun session => session.status = .exited || session.status = .error)
      .removeSession
  | .closeTerminal terminalId => [(terminalId, .closeSession false)]
  | .openSocket data => [(data.terminalId, .connectSocket manager.opened.length data)]
  | .closeSocket socket =>
    match manager.opened[socket]? with
    | some data => [(data.terminalId, .disconnectSocket socket data)]
    | none => []
  | .keypress socket =>
    match manager.opened[socket]? with
    | some data =>
      manager.guarded data.terminalId (fun session => session.socketCanAccessSession data &&
        (session.waitingForKeyToClose || session.status = .exited)) (.closeSession true)
    | none => []
  | .closeSocketsForSession sessionId reason terminatePtys =>
    manager.closeMatchingSockets (fun data => data.sessionId = some sessionId) reason terminatePtys
  | .closeSocketsForUser userId reason terminatePtys =>
    manager.closeMatchingSockets (fun data => data.userId = some userId) reason terminatePtys

def enter : TerminalEvent → TerminalManager
  | .createTerminal ownerSessionId replayBufferBytes _ =>
    { manager with
      sessions := manager.sessions.set manager.created
        { TerminalSession.new ownerSessionId replayBufferBytes with status := .running }
      created := manager.created + 1 }
  | .openSocket data => { manager with opened := manager.opened ++ [data] }
  | _ => manager

def apply (terminalId : Nat) (operation : SessionOperation) : TerminalManager × Sends :=
  match manager.sessions.get? terminalId with
  | none => (manager, operation.refused)
  | some session =>
    match operation.run session with
    | (some after, sent) =>
      ({ manager with sessions := manager.sessions.set terminalId after }, sent)
    | (none, sent) => ({ manager with sessions := manager.sessions.delete terminalId }, sent)

end TerminalManager

end Metidos.Terminal
