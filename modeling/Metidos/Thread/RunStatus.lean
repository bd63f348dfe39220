import Mathlib.Data.Char
import Mathlib.Data.List.Lex

/-!
The run status of a thread, `threadRunStatusFromRecord` of
`src/bun/project-procedures/thread-detail.ts`.
-/

namespace Metidos.Thread

abbrev StatusText := List Char

inductive RunState
  | working
  | idle
  | failed
  | stopped
  deriving DecidableEq

def RunState.text : RunState → StatusText
  | .working => "working".toList
  | .idle => "idle".toList
  | .failed => "failed".toList
  | .stopped => "stopped".toList

structure RpcThreadRunStatus where
  state : RunState
  startedAt : Option StatusText
  updatedAt : Option StatusText
  error : Option StatusText
  hasUnreadError : Bool
  deriving DecidableEq

structure ThreadRecord where
  updatedAt : StatusText
  activeTurnStartedAt : Option StatusText
  lastRunAt : Option StatusText
  lastErrorAt : Option StatusText
  lastErrorSeenAt : Option StatusText
  lastErrorMessage : Option StatusText
  deriving DecidableEq

def THREAD_STOPPED_MESSAGE : StatusText := "Thread run was stopped by the user.".toList

def THREAD_INTERRUPTED_MESSAGE : StatusText :=
  "Thread run was interrupted before completion.".toList

def LEGACY_THREAD_STOPPED_MESSAGE : StatusText := "Codex turn was stopped by the user.".toList

def LEGACY_THREAD_INTERRUPTED_MESSAGE : StatusText :=
  "Codex turn was interrupted before completion.".toList

def isStoppedThreadMessage (message : Option StatusText) : Bool :=
  message = some THREAD_STOPPED_MESSAGE || message = some THREAD_INTERRUPTED_MESSAGE ||
    message = some LEGACY_THREAD_STOPPED_MESSAGE ||
    message = some LEGACY_THREAD_INTERRUPTED_MESSAGE

def present (text : Option StatusText) : Option StatusText := text.filter (· ≠ [])

def hasUnreadThreadError (thread : ThreadRecord) : Bool :=
  match present thread.lastErrorAt with
  | none => false
  | some lastErrorAt =>
    match present thread.lastErrorSeenAt with
    | none => true
    | some lastErrorSeenAt => lastErrorSeenAt < lastErrorAt

def failureIsCurrent (thread : ThreadRecord) : Bool :=
  match present thread.lastErrorAt with
  | none => false
  | some lastErrorAt =>
    match present thread.lastRunAt with
    | none => true
    | some lastRunAt => lastRunAt ≤ lastErrorAt

def threadRunStatusFromRecord (thread : ThreadRecord)
    (activeStatus : Option RpcThreadRunStatus) : RpcThreadRunStatus :=
  let hasUnreadError := hasUnreadThreadError thread
  match activeStatus with
  | some activeStatus =>
    { activeStatus with
      hasUnreadError := if activeStatus.state = .stopped then false else hasUnreadError }
  | none =>
    match present thread.activeTurnStartedAt with
    | some activeTurnStartedAt =>
      { state := .working, startedAt := some activeTurnStartedAt
        updatedAt := some thread.updatedAt, error := none, hasUnreadError := false }
    | none =>
      if failureIsCurrent thread then
        if isStoppedThreadMessage thread.lastErrorMessage then
          { state := .stopped, startedAt := none, updatedAt := thread.lastErrorAt
            error := thread.lastErrorMessage, hasUnreadError := false }
        else
          { state := .failed, startedAt := none, updatedAt := thread.lastErrorAt
            error := some (thread.lastErrorMessage.getD "Thread run failed.".toList)
            hasUnreadError := hasUnreadError }
      else
        { state := .idle, startedAt := none
          updatedAt := some (thread.lastRunAt.getD thread.updatedAt)
          error := none, hasUnreadError := false }

@[simp] theorem threadRunStatusFromRecord_active (thread : ThreadRecord)
    (activeStatus : RpcThreadRunStatus) :
    (threadRunStatusFromRecord thread (some activeStatus)).state = activeStatus.state := rfl

end Metidos.Thread
