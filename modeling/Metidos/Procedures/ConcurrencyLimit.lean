import Metidos.Library.JsNumber
import Metidos.Library.Transition

/-!
`createAsyncConcurrencyLimit` of `src/bun/project-procedures/shared.ts`: the queue of submitted
tasks, the counter of active ones, the abort listeners and the promise chain of a started task.
-/

namespace Metidos.Procedures

/-- `Math.max(1, Math.trunc(maxConcurrent) || 1)`; `none` is no bound. -/
def concurrencyOf : JsNumber → Option Nat
  | .nan => some 1
  | .negativeInfinity => some 1
  | .infinity => none
  | .finite value => some (max 1 (value.num.tdiv value.den).toNat)

def isBelow (concurrency : Option Nat) (activeCount : Nat) : Bool :=
  concurrency.all (activeCount < ·)

inductive LimitOutcome
  | fulfilled
  | rejected
  | aborted
  deriving DecidableEq

/-- Where the chain of a task is: not started, before the microtask that calls the callback, while
the callback's promise is pending, before its outcome is passed on, before `finally`, and after. -/
inductive LimitPhase
  | waiting
  | started
  | running
  | ended (outcome : LimitOutcome)
  | closing
  | done
  deriving DecidableEq

/-- `listening` is the abort listener that will still be called: a signal that is aborted before
the task is submitted calls none. -/
structure LimitedTask where
  signal : Option Nat
  listening : Bool
  phase : LimitPhase
  outcome : Option LimitOutcome
  deriving DecidableEq

/-- The tasks in the order of their submission, with those started in the order of their start. -/
structure LimitState where
  activeCount : Nat
  pendingTasks : List Nat
  tasks : Nat → LimitedTask
  taskCount : Nat
  abortedSignals : List Nat
  starts : List Nat

namespace LimitState

def initial : LimitState where
  activeCount := 0
  pendingTasks := []
  tasks := fun _ => { signal := none, listening := false, phase := .waiting, outcome := none }
  taskCount := 0
  abortedSignals := []
  starts := []

variable (state : LimitState)

def updateTask (task : Nat) (update : LimitedTask → LimitedTask) : LimitState :=
  { state with
    tasks := fun other => if other = task then update (state.tasks task) else state.tasks other }

def isAborted (task : Nat) : Bool :=
  (state.tasks task).signal.any state.abortedSignals.contains

def detachAbortListener (task : Nat) : LimitState :=
  state.updateTask task fun found => { found with listening := false }

def settle (task : Nat) (outcome : LimitOutcome) : LimitState :=
  state.updateTask task fun found => { found with outcome := found.outcome.or (some outcome) }

def setPhase (task : Nat) (phase : LimitPhase) : LimitState :=
  state.updateTask task fun found => { found with phase }

def start (task : Nat) : LimitState :=
  let detached := state.detachAbortListener task
  { detached.setPhase task .started with
    activeCount := state.activeCount + 1
    starts := state.starts ++ [task] }

@[grind =] def scheduleTasks (concurrency : Option Nat) : LimitState → List Nat → LimitState
  | state, [] => { state with pendingTasks := [] }
  | state, nextTask :: rest =>
    if isBelow concurrency state.activeCount then
      let shifted := { state with pendingTasks := rest }
      if shifted.isAborted nextTask then
        scheduleTasks concurrency
          ((shifted.detachAbortListener nextTask).settle nextTask .aborted) rest
      else scheduleTasks concurrency (shifted.start nextTask) rest
    else state

def schedule (concurrency : Option Nat) : LimitState :=
  scheduleTasks concurrency state state.pendingTasks

def submit (signal : Option Nat) : LimitState :=
  { state with
    pendingTasks := state.pendingTasks ++ [state.taskCount]
    tasks := fun other =>
      if other = state.taskCount then
        { signal
          listening := signal.any fun signal => !state.abortedSignals.contains signal
          phase := .waiting, outcome := none }
      else state.tasks other
    taskCount := state.taskCount + 1 }

def removePendingTask (task : Nat) : LimitState :=
  { state with pendingTasks := state.pendingTasks.erase task }

def handleAbort (task : Nat) : LimitState :=
  ((state.removePendingTask task).detachAbortListener task).settle task .aborted

def finish (concurrency : Option Nat) (task : Nat) : LimitState :=
  { state.setPhase task .done with activeCount := state.activeCount - 1 }.schedule concurrency

end LimitState

inductive LimitEvent
  | run (signal : Option Nat)
  | abort (signal : Nat)
  | handleAbort (task : Nat)
  | callCallback (task : Nat)
  | callbackSettles (task : Nat) (fulfilled : Bool)
  | passOutcome (task : Nat)
  | finish (task : Nat)
  deriving DecidableEq

/-- The listeners of a signal are called one by one after the abort of the signal; microtasks and
settlements come in any order. -/
def limitStep (maxConcurrent : JsNumber) (state : LimitState) : LimitEvent → Option LimitState
  | .run signal => some ((state.submit signal).schedule (concurrencyOf maxConcurrent))
  | .abort signal => some { state with abortedSignals := signal :: state.abortedSignals }
  | .handleAbort task =>
    if task < state.taskCount ∧ (state.tasks task).listening = true ∧
        state.isAborted task = true then
      some (state.handleAbort task)
    else none
  | .callCallback task =>
    if task < state.taskCount ∧ (state.tasks task).phase = .started then
      some (state.setPhase task .running)
    else none
  | .callbackSettles task fulfilled =>
    if task < state.taskCount ∧ (state.tasks task).phase = .running then
      some (state.setPhase task (.ended (if fulfilled then .fulfilled else .rejected)))
    else none
  | .passOutcome task =>
    match (state.tasks task).phase with
    | .ended outcome =>
      if task < state.taskCount then some ((state.settle task outcome).setPhase task .closing)
      else none
    | _ => none
  | .finish task =>
    if task < state.taskCount ∧ (state.tasks task).phase = .closing then
      some (state.finish (concurrencyOf maxConcurrent) task)
    else none

end Metidos.Procedures
