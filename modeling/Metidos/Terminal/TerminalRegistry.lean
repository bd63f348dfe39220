import Metidos.Library.SlotTable
import Metidos.Terminal.TerminalCore

/-!
The registry of terminals in `src/bun/terminal-manager.ts`: the caps, the indices of the sessions
and the array that finds a session by its index, over the sessions of `TerminalCore`.
-/

namespace Metidos.Terminal

structure TerminalLimitConfig where
  exitedIdleTtlMs : Nat
  maxGlobalTerminals : Nat
  maxTerminalsPerOwner : Nat
  deriving DecidableEq

/-- A session with the fields that the registry adds; `updatedAt` is in milliseconds. -/
structure RegisteredSession where
  terminalId : Nat
  terminalIndex : Nat
  createdFromThreadId : Option Int
  updatedAt : Int
  session : TerminalSession

structure TerminalAccessScope where
  createdFromThreadId : Option Int
  ownerSessionId : Option Units
  deriving DecidableEq

def terminalOwnerSessionKeyForThread (threadId : Int) : Units :=
  units ("thread:" ++ toString threadId)

/-- Whether `assertTerminalAccess` returns without a throw. -/
def assertTerminalAccess (session : RegisteredSession) (access : Option TerminalAccessScope) :
    Bool :=
  match access with
  | none => true
  | some access =>
    let owner := session.session.ownerSessionId
    (access.ownerSessionId.any fun ownerSessionId =>
      ownerSessionId ≠ [] && owner = some ownerSessionId) ||
    access.createdFromThreadId.any fun threadId =>
      session.createdFromThreadId = some threadId ||
        owner = some (terminalOwnerSessionKeyForThread threadId)

/-- `cwdIsInside` is whether the requested directory lies in the worktree, and `startupError` is
what is shown when the process does not start. -/
structure TerminalCreateInput where
  ownerSessionId : Option Units
  createdFromThreadId : Option Int
  replayBufferBytes : Nat
  cwdIsInside : Bool
  startupError : Option Units

def SessionOperation.touches : SessionOperation → Bool
  | .appendOutput _ | .failToStart _ | .handleExit _ | .closeSession _ => true
  | _ => false

structure TerminalRegistry where
  limitConfig : TerminalLimitConfig
  sessions : OrderedMap Nat RegisteredSession
  terminalOrder : List (Option Nat)
  created : Nat
  opened : List TerminalSocketData

namespace TerminalRegistry

def initial (limitConfig : TerminalLimitConfig) : TerminalRegistry where
  limitConfig := limitConfig
  sessions := .empty
  terminalOrder := []
  created := 0
  opened := []

variable (registry : TerminalRegistry)

def toManager : TerminalManager where
  sessions := registry.sessions.transform RegisteredSession.session
  created := registry.created
  opened := registry.opened

def nextTerminalIndex (terminalId : Nat) : Nat × TerminalRegistry :=
  (registry.terminalOrder.length,
    { registry with terminalOrder := registry.terminalOrder ++ [some terminalId] })

def removeSession (session : RegisteredSession) : TerminalRegistry :=
  { registry with
    sessions := registry.sessions.delete session.terminalId
    terminalOrder :=
      SlotTable.release registry.terminalOrder session.terminalIndex session.terminalId }

def apply (now : Int) (step : Nat × SessionOperation) : TerminalRegistry :=
  match registry.sessions.get? step.1 with
  | none => registry
  | some session =>
    match step.2.run session.session with
    | (some after, _) =>
      { registry with
        sessions := registry.sessions.set step.1
          { session with
            session := after
            updatedAt := if step.2.touches then now else session.updatedAt } }
    | (none, _) => registry.removeSession session

def isExpired (now : Int) (session : RegisteredSession) : Bool :=
  (session.session.status = .exited || session.session.status = .error) &&
    (registry.limitConfig.exitedIdleTtlMs = 0 ||
      session.updatedAt + registry.limitConfig.exitedIdleTtlMs ≤ now)

def pruneExpiredExitedSessions (now : Int) : TerminalRegistry :=
  (registry.sessions.values.filter (registry.isExpired now)).foldl removeSession registry

def enforceTerminalCaps (now : Int) : Except String Unit × TerminalRegistry :=
  let pruned := registry.pruneExpiredExitedSessions now
  if pruned.limitConfig.maxGlobalTerminals ≤ pruned.sessions.size then
    (.error "Global terminal limit reached. Close a terminal and try again.", pruned)
  else if pruned.limitConfig.maxTerminalsPerOwner ≤ pruned.sessions.size then
    (.error "App terminal limit reached. Close a terminal and try again.", pruned)
  else (.ok (), pruned)

def register (input : TerminalCreateInput) (now : Int) : TerminalRegistry :=
  let terminalId := registry.created
  let (terminalIndex, indexed) := registry.nextTerminalIndex terminalId
  { indexed with
    sessions := indexed.sessions.set terminalId
      { terminalId
        terminalIndex
        createdFromThreadId := input.createdFromThreadId
        updatedAt := now
        session := { TerminalSession.new input.ownerSessionId input.replayBufferBytes with
          status := .running } }
    created := terminalId + 1 }

def createTerminal (input : TerminalCreateInput) (now : Int) :
    Except String Nat × TerminalRegistry :=
  match registry.enforceTerminalCaps now with
  | (.error message, pruned) => (.error message, pruned)
  | (.ok _, pruned) =>
    if !input.cwdIsInside then
      (.error "Terminal directory must stay inside the selected worktree.", pruned)
    else
      let registered := pruned.register input now
      (.ok pruned.created,
        match input.startupError with
        | none => registered
        | some message => registered.apply now (pruned.created, .failToStart message))

def listTerminals (access : Option TerminalAccessScope) : List RegisteredSession :=
  (registry.terminalOrder.filterMap fun slot => slot.bind registry.sessions.get?).filter
    fun session => assertTerminalAccess session access

def resolveTerminalByIndex (terminalIndex : Int) : Except String RegisteredSession :=
  let terminalId :=
    if terminalIndex < 0 then none else (registry.terminalOrder[terminalIndex.toNat]?).join
  match terminalId.bind registry.sessions.get? with
  | none => .error ("Terminal " ++ toString terminalIndex ++ " was not found.")
  | some session => .ok session

def killTerminalByIndex (terminalIndex : Int) (access : Option TerminalAccessScope) (now : Int) :
    Except String Unit × TerminalRegistry :=
  match registry.resolveTerminalByIndex terminalIndex with
  | .error message => (.error message, registry)
  | .ok session =>
    if assertTerminalAccess session access then
      (.ok (), registry.apply now (session.terminalId, .closeSession false))
    else (.error "Terminal access is denied for the current context.", registry)

def touch (terminalId : Nat) (now : Int) : TerminalRegistry :=
  { registry with
    sessions := registry.sessions.modify terminalId fun session =>
      { session with updatedAt := now } }

end TerminalRegistry

/-- What happens to a registry.  `session` are the events of `TerminalCore`, exits, timers,
sockets and closes among them; creations have their own event here. -/
inductive RegistryEvent
  | createTerminal (input : TerminalCreateInput)
  | killTerminalByIndex (terminalIndex : Int) (access : Option TerminalAccessScope)
  | touch (terminalId : Nat)
  | session (event : TerminalEvent)

open TerminalRegistry in
def registryStep (registry : TerminalRegistry) (event : RegistryEvent × Int) :
    Option TerminalRegistry :=
  match event.1 with
  | .createTerminal input => some (registry.createTerminal input event.2).2
  | .killTerminalByIndex terminalIndex access =>
    some (registry.killTerminalByIndex terminalIndex access event.2).2
  | .touch terminalId => some (registry.touch terminalId event.2)
  | .session (.createTerminal ..) => none
  | .session (.openSocket data) =>
    some ((registry.toManager.operations (.openSocket data)).foldl
      (fun registry step => registry.apply event.2 step)
      { registry with opened := registry.opened ++ [data] })
  | .session other =>
    some ((registry.toManager.operations other).foldl
      (fun registry step => registry.apply event.2 step) registry)

end Metidos.Terminal
