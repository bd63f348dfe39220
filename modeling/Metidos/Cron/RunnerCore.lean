import Mathlib.Data.List.Basic
import Metidos.Library.Transition

/-!
The rows behind cron execution and the statements of `src/bun/db.ts` and `cron-store.ts` on
them.  Rows are never removed, so that an identifier is the position of its row.
-/

namespace Metidos.CronRunner

abbrev CronJobId := Nat
abbrev ThreadId := Nat
abbrev RunId := Nat

inductive CronJobRunStatus
  | inProgress
  | stopped
  | errored
  | completed
  deriving DecidableEq

structure CronJobRow where
  schedule : String
  enabled : Bool
  deleted : Bool
  lastRunDate : Option Int
  lastRunStatus : Option CronJobRunStatus
  deriving DecidableEq

/-- `stoppedMessage` says that the last error message is the one of a stopped thread, and
`projectDeleted` that the row's project is deleted. -/
structure ThreadRow where
  cronJobId : Option CronJobId
  activeTurnStartedAt : Option Int
  deleted : Bool
  projectDeleted : Bool
  lastRunAt : Option Int
  lastErrorAt : Option Int
  stoppedMessage : Bool
  deriving DecidableEq

structure CronJobRunRow where
  cronJobId : CronJobId
  threadId : ThreadId
  runDate : Int
  runStatus : CronJobRunStatus
  deriving DecidableEq

structure Database where
  cronJobs : List CronJobRow
  threads : List ThreadRow
  cronJobRuns : List CronJobRunRow
  deriving DecidableEq

namespace Database

def updateCronJob (database : Database) (cronJobId : CronJobId)
    (update : CronJobRow → CronJobRow) : Database :=
  { database with cronJobs := database.cronJobs.modify cronJobId update }

def updateThread (database : Database) (threadId : ThreadId)
    (update : ThreadRow → ThreadRow) : Database :=
  { database with threads := database.threads.modify threadId update }

def isActiveThreadOf (cronJobId : CronJobId) (thread : ThreadRow) : Bool :=
  thread.cronJobId == some cronJobId && !thread.deleted && thread.activeTurnStartedAt.isSome

def hasActiveThreadForCronJob (database : Database) (cronJobId : CronJobId) : Bool :=
  database.threads.any (isActiveThreadOf cronJobId)

def isClaimable (database : Database) (cronJobId : CronJobId) (runDate : Int)
    (cronJob : CronJobRow) : Bool :=
  !cronJob.deleted && cronJob.lastRunStatus != some .inProgress &&
    !database.hasActiveThreadForCronJob cronJobId &&
    cronJob.lastRunDate.all (· < runDate)

def listDueScheduledJobIds (database : Database) (schedule : String) (scheduledTime : Int) :
    List CronJobId :=
  (List.range database.cronJobs.length).filter fun cronJobId =>
    database.cronJobs[cronJobId]?.any fun cronJob =>
      cronJob.schedule == schedule && cronJob.enabled &&
        database.isClaimable cronJobId scheduledTime cronJob

/-- The updated database when the row was claimed, `none` when no row was returned. -/
def claimCronJobForScheduledRunById (database : Database) (cronJobId : CronJobId)
    (runDate : Int) (includeDisabled : Bool) : Option Database :=
  match database.cronJobs[cronJobId]? with
  | none => none
  | some cronJob =>
    if (cronJob.enabled || includeDisabled) && database.isClaimable cronJobId runDate cronJob then
      some (database.updateCronJob cronJobId fun cronJob =>
        { cronJob with lastRunDate := some runDate, lastRunStatus := some .inProgress })
    else none

def createCronJobRun (database : Database) (run : CronJobRunRow) : Database :=
  { database with cronJobRuns := database.cronJobRuns ++ [run] }

def updateCronJobRunStatus (database : Database) (runId : RunId) (status : CronJobRunStatus) :
    Database :=
  { database with
    cronJobRuns := database.cronJobRuns.modify runId fun run => { run with runStatus := status } }

def updateCronJobLastRun (database : Database) (cronJobId : CronJobId) (runDate : Int)
    (status : CronJobRunStatus) : Database :=
  database.updateCronJob cronJobId fun cronJob =>
    { cronJob with lastRunDate := some runDate, lastRunStatus := some status }

def stopRunOf (cronJobId : CronJobId) (run : CronJobRunRow) : CronJobRunRow :=
  if run.cronJobId = cronJobId ∧ run.runStatus = .inProgress then { run with runStatus := .stopped }
  else run

def stopCronJob (cronJob : CronJobRow) : CronJobRow :=
  if cronJob.lastRunStatus = some .inProgress then { cronJob with lastRunStatus := some .stopped }
  else cronJob

def stopInProgressCronJobRuns (database : Database) (cronJobId : CronJobId) : Database :=
  let stopped := { database with cronJobRuns := database.cronJobRuns.map (stopRunOf cronJobId) }
  stopped.updateCronJob cronJobId stopCronJob

def softDeleteCronJob (database : Database) (cronJobId : CronJobId) : Database :=
  database.updateCronJob cronJobId fun cronJob =>
    { cronJob with deleted := true, enabled := false }

def createThread (database : Database) (cronJobId : Option CronJobId) : Database :=
  { database with threads := database.threads ++ [⟨cronJobId, none, false, false, none, none, false⟩] }

def getThreadById (database : Database) (threadId : ThreadId) : Option ThreadRow :=
  database.threads[threadId]?.filter fun thread => !thread.deleted && !thread.projectDeleted

def deleteThread (database : Database) (threadId : ThreadId) : Database :=
  database.updateThread threadId fun thread => { thread with deleted := true }

def markThreadRunStarted (database : Database) (threadId : ThreadId) (startedAt : Int) :
    Database :=
  database.updateThread threadId fun thread =>
    { thread with activeTurnStartedAt := some startedAt }

def markThreadRan (database : Database) (threadId : ThreadId) (at_ : Int) : Database :=
  database.updateThread threadId fun thread =>
    { thread with
      lastRunAt := some at_, activeTurnStartedAt := none, lastErrorAt := none,
      stoppedMessage := false }

def markThreadStopped (database : Database) (threadId : ThreadId) (at_ : Int) : Database :=
  database.updateThread threadId fun thread =>
    { thread with
      lastRunAt := some at_, activeTurnStartedAt := none, lastErrorAt := some at_,
      stoppedMessage := true }

def markThreadFailed (database : Database) (threadId : ThreadId) (at_ : Int) : Database :=
  database.updateThread threadId fun thread =>
    { thread with activeTurnStartedAt := none, lastErrorAt := some at_, stoppedMessage := false }

end Database

namespace Database

variable {database : Database} {cronJobId other : CronJobId} {threadId : ThreadId}

@[simp] theorem updateCronJob_threads (update : CronJobRow → CronJobRow) :
    (database.updateCronJob cronJobId update).threads = database.threads := rfl

@[simp] theorem updateThread_cronJobs (update : ThreadRow → ThreadRow) :
    (database.updateThread threadId update).cronJobs = database.cronJobs := rfl

theorem updateCronJob_get (update : CronJobRow → CronJobRow) :
    (database.updateCronJob cronJobId update).cronJobs[cronJobId]? =
      database.cronJobs[cronJobId]?.map update := by
  simp [updateCronJob]

theorem updateCronJob_get_other (update : CronJobRow → CronJobRow) (differs : other ≠ cronJobId) :
    (database.updateCronJob cronJobId update).cronJobs[other]? = database.cronJobs[other]? := by
  simp [updateCronJob, Ne.symm differs]

theorem hasActiveThread_iff : database.hasActiveThreadForCronJob cronJobId = true ↔
    ∃ (threadId : Nat) (thread : ThreadRow), database.threads[threadId]? = some thread ∧
      isActiveThreadOf cronJobId thread = true := by
  rw [hasActiveThreadForCronJob, List.any_eq_true]
  constructor
  · rintro ⟨thread, member, active⟩
    obtain ⟨threadId, found⟩ := List.getElem?_of_mem member
    exact ⟨threadId, thread, found, active⟩
  · rintro ⟨threadId, thread, found, active⟩
    exact ⟨thread, List.mem_of_getElem? found, active⟩

theorem claim_spec {runDate : Int} {includeDisabled : Bool} {claimed : Database}
    (returned : database.claimCronJobForScheduledRunById cronJobId runDate includeDisabled =
      some claimed) :
    (∃ cronJob, database.cronJobs[cronJobId]? = some cronJob ∧
      cronJob.lastRunStatus ≠ some .inProgress) ∧
    database.hasActiveThreadForCronJob cronJobId = false ∧
    claimed = database.updateCronJob cronJobId fun cronJob =>
      { cronJob with lastRunDate := some runDate, lastRunStatus := some .inProgress } := by
  simp only [claimCronJobForScheduledRunById] at returned
  split at returned
  · exact absurd returned (by simp)
  · rename_i cronJob found
    split at returned
    · rename_i accepted
      simp only [isClaimable, Bool.and_eq_true, Bool.not_eq_true', bne_iff_ne] at accepted
      refine ⟨⟨cronJob, found, accepted.2.1.1.2⟩, accepted.2.1.2, ?_⟩
      exact (Option.some.inj returned).symm
    · exact absurd returned (by simp)

end Database

end Metidos.CronRunner

/-!
Executable model of `src/bun/sidecar-cron-runner.ts`: claims, the set of active jobs, the
limiter for scheduled launches and the executions in flight, as a step function whose events
are the resumption points of the coroutines.  The proofs live in `RunnerOverlap`.
-/

namespace Metidos.CronRunner

open Database

structure CronTask where
  cronJobId : CronJobId
  scheduledTime : Int
  deriving DecidableEq

def scheduledCronExecutionConcurrency : Nat := 2

/-- `createAsyncConcurrencyLimit`; a task in `starting` has left the queue, and its callback runs
in a later microtask. -/
structure ConcurrencyLimit where
  activeCount : Nat
  pendingTasks : List CronTask
  starting : List CronTask
  deriving DecidableEq

namespace ConcurrencyLimit

def scheduleFrom (activeCount : Nat) (starting : List CronTask) :
    List CronTask → ConcurrencyLimit
  | [] => ⟨activeCount, [], starting⟩
  | nextTask :: rest =>
    if activeCount < scheduledCronExecutionConcurrency then
      scheduleFrom (activeCount + 1) (starting ++ [nextTask]) rest
    else ⟨activeCount, nextTask :: rest, starting⟩

def schedule (limit : ConcurrencyLimit) : ConcurrencyLimit :=
  scheduleFrom limit.activeCount limit.starting limit.pendingTasks

@[grind =] def run (limit : ConcurrencyLimit) (task : CronTask) : ConcurrencyLimit :=
  schedule { limit with pendingTasks := limit.pendingTasks ++ [task] }

def release (limit : ConcurrencyLimit) : ConcurrencyLimit :=
  schedule { limit with activeCount := limit.activeCount - 1 }

def waiting (limit : ConcurrencyLimit) : List CronTask := limit.starting ++ limit.pendingTasks

end ConcurrencyLimit

inductive ExecutionPhase
  | creating
  | sending (runId : RunId)
  | monitored (runId : RunId)
  | settled
  deriving DecidableEq

/-- The turn that the prompt of an execution starts on its thread. -/
inductive TurnState
  | notStarted
  | running
  | ended
  deriving DecidableEq

structure Execution where
  cronJobId : CronJobId
  scheduledTime : Int
  limited : Bool
  threadId : Option ThreadId
  phase : ExecutionPhase
  turn : TurnState
  deriving DecidableEq

structure RunnerState where
  database : Database
  activeCronJobIds : List CronJobId
  scheduledCronExecutionLimit : ConcurrencyLimit
  releases : Nat
  executions : List Execution
  deriving DecidableEq

/-- What ends the wait of a monitor: the thread row, a published status, or the deadline. -/
inductive Completion
  | observed
  | published (status : CronJobRunStatus)
  | timedOut
  deriving DecidableEq

inductive TurnOutcome
  | ran
  | stopped
  | failed
  deriving DecidableEq

inductive RunnerEvent
  | runDueCronJobs (schedule : String) (scheduledTime : Int)
  | runCronJobById (cronJobId : CronJobId) (scheduledTime : Int) (allowStaleRestart : Bool)
  | taskCalled
  | limiterReleased
  | threadCreated (execution : Nat)
  | launchFailed (execution : Nat) (threadExists : Bool)
  | turnStarted (execution : Nat) (startedAt : Int)
  | messageSent (execution : Nat)
  | monitorSettled (execution : Nat) (completion : Completion)
  | turnFinished (execution : Nat) (outcome : TurnOutcome) (finishedAt : Int)
  | otherTurnStarted (threadId : ThreadId) (startedAt : Int)
  | otherTurnFinished (threadId : ThreadId) (outcome : TurnOutcome) (finishedAt : Int)
  | threadDeleted (threadId : ThreadId)
  | projectDeleted (threadId : ThreadId)
  | otherThreadCreated
  | cronJobCreated (schedule : String) (enabled : Bool)
  | cronJobUpdated (cronJobId : CronJobId) (schedule : String) (enabled : Bool)
  | cronJobDeleted (cronJobId : CronJobId)
  deriving DecidableEq

def readCurrentCronThreadState (database : Database) (threadId : ThreadId) :
    Bool × CronJobRunStatus :=
  match database.getThreadById threadId with
  | none => (false, .errored)
  | some thread =>
    if thread.activeTurnStartedAt.isSome then (true, .errored)
    else
      match thread.lastErrorAt with
      | none => (false, .completed)
      | some lastErrorAt =>
        if thread.lastRunAt.all (· ≤ lastErrorAt) then
          (false, if thread.stoppedMessage then .stopped else .errored)
        else (false, .completed)

namespace RunnerState

def markCronJobActive (state : RunnerState) (cronJobId : CronJobId) : RunnerState :=
  { state with activeCronJobIds := state.activeCronJobIds.insert cronJobId }

def clearActiveCronJob (state : RunnerState) (cronJobId : CronJobId) : RunnerState :=
  { state with activeCronJobIds := state.activeCronJobIds.filter (· != cronJobId) }

def setExecution (state : RunnerState) (index : Nat) (execution : Execution) : RunnerState :=
  { state with executions := state.executions.set index execution }

/-- `executeCronJob` up to its first `await`. -/
def executeCronJob (state : RunnerState) (task : CronTask) (limited : Bool) : RunnerState :=
  let marked := state.markCronJobActive task.cronJobId
  { marked with
    executions := marked.executions ++
      [⟨task.cronJobId, task.scheduledTime, limited, none, .creating, .notStarted⟩] }

def returned (state : RunnerState) (execution : Execution) : RunnerState :=
  if execution.limited then { state with releases := state.releases + 1 } else state

def claimDue (activeCronJobIds : List CronJobId) (scheduledTime : Int) :
    Database → List CronJobId → Database × List CronTask
  | database, [] => (database, [])
  | database, cronJobId :: rest =>
    if activeCronJobIds.contains cronJobId || database.hasActiveThreadForCronJob cronJobId then
      claimDue activeCronJobIds scheduledTime database rest
    else
      match database.claimCronJobForScheduledRunById cronJobId scheduledTime false with
      | none => claimDue activeCronJobIds scheduledTime database rest
      | some claimed =>
        let others := claimDue activeCronJobIds scheduledTime claimed rest
        (others.1, ⟨cronJobId, scheduledTime⟩ :: others.2)

def runDueCronJobs (state : RunnerState) (schedule : String) (scheduledTime : Int) :
    RunnerState :=
  let due := state.database.listDueScheduledJobIds schedule scheduledTime
  let jobs := claimDue state.activeCronJobIds scheduledTime state.database due
  { state with
    database := jobs.1
    scheduledCronExecutionLimit :=
      jobs.2.foldl ConcurrencyLimit.run state.scheduledCronExecutionLimit }

def restartStale (state : RunnerState) (cronJobId : CronJobId) (allowStaleRestart : Bool) :
    Database :=
  if allowStaleRestart && !state.activeCronJobIds.contains cronJobId &&
      !state.database.hasActiveThreadForCronJob cronJobId then
    state.database.stopInProgressCronJobRuns cronJobId
  else state.database

def runCronJobById (state : RunnerState) (cronJobId : CronJobId) (scheduledTime : Int)
    (allowStaleRestart : Bool) : RunnerState :=
  let database := state.restartStale cronJobId allowStaleRestart
  match database.claimCronJobForScheduledRunById cronJobId scheduledTime true with
  | none => { state with database := database }
  | some claimed =>
    executeCronJob { state with database := claimed } ⟨cronJobId, scheduledTime⟩ false

def failLaunch (state : RunnerState) (index : Nat) (execution : Execution)
    (runId : Option RunId) : RunnerState :=
  let database := match runId with
    | some runId => state.database.updateCronJobRunStatus runId .errored
    | none => state.database
  let failed := (state.setExecution index { execution with phase := .settled }).returned execution
  { failed with
    database := database.updateCronJobLastRun execution.cronJobId execution.scheduledTime
      .errored }.clearActiveCronJob execution.cronJobId

def settle (state : RunnerState) (index : Nat) (execution : Execution) (runId : RunId)
    (status : CronJobRunStatus) : RunnerState :=
  let database := state.database.updateCronJobRunStatus runId status
  let done := state.setExecution index { execution with phase := .settled }
  { done with
    database := database.updateCronJobLastRun execution.cronJobId execution.scheduledTime
      status }.clearActiveCronJob execution.cronJobId

def markTurn (outcome : TurnOutcome) (database : Database) (threadId : ThreadId)
    (finishedAt : Int) : Database :=
  match outcome with
  | .ran => database.markThreadRan threadId finishedAt
  | .stopped => database.markThreadStopped threadId finishedAt
  | .failed => database.markThreadFailed threadId finishedAt

def runsOn (threadId : ThreadId) (execution : Execution) : Bool :=
  execution.threadId == some threadId && execution.turn == .running

def canStartTurn (state : RunnerState) (threadId : ThreadId) : Bool :=
  state.database.threads[threadId]?.any fun thread =>
    !thread.deleted && thread.activeTurnStartedAt.isNone

end RunnerState

open RunnerState

@[grind =] def runnerStep (state : RunnerState) : RunnerEvent → Option RunnerState
  | .runDueCronJobs schedule scheduledTime => some (state.runDueCronJobs schedule scheduledTime)
  | .runCronJobById cronJobId scheduledTime allowStaleRestart =>
    some (state.runCronJobById cronJobId scheduledTime allowStaleRestart)
  | .taskCalled =>
    match state.scheduledCronExecutionLimit.starting with
    | [] => none
    | task :: rest =>
      let called := { state with
        scheduledCronExecutionLimit :=
          { state.scheduledCronExecutionLimit with starting := rest } }
      some (called.executeCronJob task true)
  | .limiterReleased =>
    if state.releases = 0 then none
    else some { state with
      releases := state.releases - 1
      scheduledCronExecutionLimit := state.scheduledCronExecutionLimit.release }
  | .threadCreated index =>
    match state.executions[index]? with
    | some execution =>
      if execution.phase = .creating then
        let threadId := state.database.threads.length
        let runId := state.database.cronJobRuns.length
        let created := state.database.createThread (some execution.cronJobId)
        let sending := { execution with threadId := some threadId, phase := .sending runId }
        some { state.setExecution index sending with
          database := created.createCronJobRun
            ⟨execution.cronJobId, threadId, execution.scheduledTime, .inProgress⟩ }
      else none
    | none => none
  | .launchFailed index threadExists =>
    match state.executions[index]? with
    | some execution =>
      match execution.phase with
      | .creating =>
        let threadId := state.database.threads.length
        let database :=
          if threadExists then
            (state.database.createThread (some execution.cronJobId)).deleteThread threadId
          else state.database
        some ({ state with database := database }.failLaunch index execution none)
      | .sending runId => some (state.failLaunch index execution (some runId))
      | _ => none
    | none => none
  | .turnStarted index startedAt =>
    match state.executions[index]? with
    | some execution =>
      match execution.phase, execution.threadId with
      | .sending _, some threadId =>
        if execution.turn = .notStarted ∧ state.canStartTurn threadId = true then
          some { state.setExecution index { execution with turn := .running } with
            database := state.database.markThreadRunStarted threadId startedAt }
        else none
      | _, _ => none
    | none => none
  | .messageSent index =>
    match state.executions[index]? with
    | some execution =>
      match execution.phase with
      | .sending runId =>
        let monitored := { execution with phase := .monitored runId }
        some ((state.setExecution index monitored).returned execution)
      | _ => none
    | none => none
  | .monitorSettled index completion =>
    match state.executions[index]? with
    | some execution =>
      match execution.phase, execution.threadId with
      | .monitored runId, some threadId =>
        let current := readCurrentCronThreadState state.database threadId
        match completion with
        | .observed =>
          if current.1 then none else some (state.settle index execution runId current.2)
        | .published status => some (state.settle index execution runId status)
        | .timedOut => some (state.settle index execution runId .errored)
      | _, _ => none
    | none => none
  | .turnFinished index outcome finishedAt =>
    match state.executions[index]? with
    | some execution =>
      match execution.threadId with
      | some threadId =>
        if execution.turn = .running then
          some { state.setExecution index { execution with turn := .ended } with
            database := markTurn outcome state.database threadId finishedAt }
        else none
      | none => none
    | none => none
  | .otherTurnStarted threadId startedAt =>
    if state.canStartTurn threadId = true then
      some { state with database := state.database.markThreadRunStarted threadId startedAt }
    else none
  | .otherTurnFinished threadId outcome finishedAt =>
    if state.executions.any (runsOn threadId) then none
    else some { state with database := markTurn outcome state.database threadId finishedAt }
  | .threadDeleted threadId =>
    if state.canStartTurn threadId = true then
      some { state with database := state.database.deleteThread threadId }
    else none
  | .projectDeleted threadId =>
    some { state with database := state.database.updateThread threadId fun thread =>
      { thread with projectDeleted := true } }
  | .otherThreadCreated => some { state with database := state.database.createThread none }
  | .cronJobCreated schedule enabled =>
    some { state with database := { state.database with
      cronJobs := state.database.cronJobs ++ [⟨schedule, enabled, false, none, none⟩] } }
  | .cronJobUpdated cronJobId schedule enabled =>
    some { state with database := state.database.updateCronJob cronJobId fun cronJob =>
      { cronJob with schedule := schedule, enabled := enabled } }
  | .cronJobDeleted cronJobId =>
    some { state with database := state.database.softDeleteCronJob cronJobId }

def RunnerState.fresh (database : Database) : RunnerState where
  database := database
  activeCronJobIds := []
  scheduledCronExecutionLimit := ⟨0, [], []⟩
  releases := 0
  executions := []

end Metidos.CronRunner
