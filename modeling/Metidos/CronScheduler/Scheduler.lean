import Metidos.Library.OrderedMap

/-!
`src/bun/sidecar-cron-scheduler.ts`: the registrations of cron jobs, with the table of jobs that
`listActive` and `getById` of the cron store read.  The expansion of a schedule is a parameter, and
what fails is given with each call.
-/

namespace Metidos.CronScheduler

abbrev Text := List Char

def maxRegisteredCronJobs : Nat := 256

def maxCronHandlesPerJob : Nat := 8

/-- A time zone with its current offset: what `currentTimezoneSignature` writes. -/
structure Zone where
  timezone : Text
  offsetMinutes : Int
  deriving DecidableEq

structure CronJob where
  id : Nat
  schedule : Text
  enabled : Nat
  deletedAt : Option Nat
  projectDeletedAt : Option Nat
  deriving DecidableEq

/-- A handle of `Bun.cron`, with the schedule that it was given and what this was expanded from. -/
structure InProcessCronHandle where
  id : Nat
  cronJobId : Nat
  expanded : Text
  schedule : Text
  zone : Zone
  deriving DecidableEq

/-- The time zone during a call, whether its signature can not be read, the jobs for which it can
not be read or expanded with, and the calls of `Bun.cron` that throw. -/
structure Environment where
  zone : Zone
  signatureFails : Bool
  zoneFails : Nat → Bool
  cronFails : Nat → Nat → Bool

abbrev Expansion := Text → Zone → Option (List Text)

structure Scheduler where
  registrations : OrderedMap Nat (List InProcessCronHandle)
  live : List InProcessCronHandle
  created : Nat
  schedulerStarted : Bool
  schedulerTimezoneSignature : Option Zone
  timezoneMonitor : Bool
  jobs : List CronJob

namespace Scheduler

def initial : Scheduler where
  registrations := .empty
  live := []
  created := 0
  schedulerStarted := false
  schedulerTimezoneSignature := none
  timezoneMonitor := false
  jobs := []

def stopHandles (state : Scheduler) (handles : List InProcessCronHandle) : Scheduler :=
  { state with live := state.live.filter fun handle => handle ∉ handles }

def unregisterCronJob (state : Scheduler) (cronJobId : Nat) : Scheduler :=
  match state.registrations.get? cronJobId with
  | none => state
  | some handles =>
    { state.stopHandles handles with registrations := state.registrations.delete cronJobId }

def unregisterAllCronJobs (state : Scheduler) : Scheduler :=
  state.registrations.keys.foldl unregisterCronJob state

def captureTimezoneSignature (environment : Environment) (state : Scheduler) : Scheduler :=
  { state with
    schedulerTimezoneSignature :=
      if environment.signatureFails then none else some environment.zone }

def createHandles (environment : Environment) (cronJob : CronJob) (index : Nat) :
    List Text → Scheduler → List InProcessCronHandle → Scheduler × List InProcessCronHandle × Bool
  | [], state, handles => (state, handles, true)
  | schedule :: rest, state, handles =>
    if environment.cronFails cronJob.id index then (state, handles, false)
    else
      let handle :=
        { id := state.created
          cronJobId := cronJob.id
          expanded := schedule
          schedule := cronJob.schedule
          zone := environment.zone }
      createHandles environment cronJob (index + 1) rest
        { state with live := state.live ++ [handle], created := state.created + 1 }
        (handles ++ [handle])

def registerCronJob (expand : Expansion) (environment : Environment) (state : Scheduler)
    (cronJob : CronJob) : Scheduler :=
  let wasRegistered := state.registrations.has cronJob.id
  let state := state.unregisterCronJob cronJob.id
  if !wasRegistered && maxRegisteredCronJobs ≤ state.registrations.size then state
  else if environment.zoneFails cronJob.id then state
  else
    match expand cronJob.schedule environment.zone with
    | none => state
    | some schedules =>
      if maxCronHandlesPerJob < schedules.length then state
      else
        match createHandles environment cronJob 0 schedules state [] with
        | (state, handles, true) =>
          { state with registrations := state.registrations.set cronJob.id handles }
        | (state, handles, false) => state.stopHandles handles

def registerCronJobs (expand : Expansion) (environment : Environment) (registered : Nat) :
    List CronJob → Scheduler → Scheduler
  | [], state => state
  | job :: jobs, state =>
    if job.enabled ≠ 1 ∨ job.deletedAt ≠ none then
      registerCronJobs expand environment registered jobs state
    else if maxRegisteredCronJobs ≤ registered then state
    else
      registerCronJobs expand environment (registered + 1) jobs
        (registerCronJob expand environment state job)

def syncCronSchedulerJobs (expand : Expansion) (environment : Environment) (state : Scheduler)
    (jobs : List CronJob) : Scheduler :=
  let pruned := state.registrations.keys.foldl
    (fun state cronJobId =>
      if cronJobId ∈ jobs.map CronJob.id then state else state.unregisterCronJob cronJobId) state
  registerCronJobs expand environment 0 jobs pruned

def isActive (job : CronJob) : Bool :=
  job.enabled = 1 && job.deletedAt.isNone && job.projectDeletedAt.isNone

def listActive (state : Scheduler) : List CronJob := state.jobs.filter isActive

def getById (state : Scheduler) (cronJobId : Nat) : Option CronJob :=
  state.jobs.find? fun job => job.id = cronJobId

def startCronScheduler (expand : Expansion) (environment : Environment) (state : Scheduler) :
    Scheduler :=
  if state.schedulerStarted then state
  else
    let state := captureTimezoneSignature environment { state with schedulerStarted := true }
    let state := { state with timezoneMonitor := true }
    syncCronSchedulerJobs expand environment state state.listActive

def stopCronScheduler (state : Scheduler) : Scheduler :=
  if !state.schedulerStarted then state
  else
    { state.unregisterAllCronJobs with
      timezoneMonitor := false
      schedulerTimezoneSignature := none
      schedulerStarted := false }

def syncCronSchedulerCron (expand : Expansion) (environment : Environment) (state : Scheduler)
    (cronJobId : Nat) : Scheduler :=
  if !state.schedulerStarted then state
  else
    let state := state.unregisterCronJob cronJobId
    match state.getById cronJobId with
    | none => state
    | some cronJob =>
      if cronJob.enabled ≠ 1 ∨ cronJob.deletedAt ≠ none then state
      else registerCronJob expand environment state cronJob

def syncCronSchedulerTimezone (expand : Expansion) (environment : Environment)
    (state : Scheduler) : Scheduler :=
  if !state.schedulerStarted then state
  else
    let state := captureTimezoneSignature environment state
    syncCronSchedulerJobs expand environment state state.listActive

def reconcileCronSchedulerTimezoneOffset (expand : Expansion) (environment : Environment)
    (state : Scheduler) : Scheduler :=
  if !state.schedulerStarted || environment.signatureFails ||
      state.schedulerTimezoneSignature = some environment.zone then state
  else
    let state := { state with schedulerTimezoneSignature := some environment.zone }
    syncCronSchedulerJobs expand environment state state.listActive

/-- The calls, and an edit that replaces the rows of the table. -/
inductive Event
  | edit (jobs : List CronJob)
  | start (environment : Environment)
  | stop
  | syncCron (environment : Environment) (cronJobId : Nat)
  | syncTimezone (environment : Environment)
  | reconcile (environment : Environment)

def step (expand : Expansion) (state : Scheduler) : Event → Option Scheduler
  | .edit jobs =>
    if (jobs.map CronJob.id).Pairwise (· < ·) then some { state with jobs } else none
  | .start environment => some (state.startCronScheduler expand environment)
  | .stop => some state.stopCronScheduler
  | .syncCron environment cronJobId =>
    some (state.syncCronSchedulerCron expand environment cronJobId)
  | .syncTimezone environment => some (state.syncCronSchedulerTimezone expand environment)
  | .reconcile environment => some (state.reconcileCronSchedulerTimezoneOffset expand environment)

def fullSync (state : Scheduler) : Event → Option Environment
  | .start environment => if state.schedulerStarted then none else some environment
  | .syncTimezone environment => if state.schedulerStarted then some environment else none
  | .reconcile environment =>
    if !state.schedulerStarted || environment.signatureFails ||
        state.schedulerTimezoneSignature = some environment.zone then none
    else some environment
  | _ => none

def isRegistrable (expand : Expansion) (environment : Environment) (cronJob : CronJob) : Bool :=
  !environment.zoneFails cronJob.id &&
    (expand cronJob.schedule environment.zone).any fun schedules =>
      schedules.length ≤ maxCronHandlesPerJob &&
        (List.range schedules.length).all fun index => !environment.cronFails cronJob.id index

/-- What holds after any call: each live handle belongs to one job, at most `256` jobs are registered
and none while the scheduler is stopped. -/
structure Recorded (state : Scheduler) : Prop where
  oneJob : ∀ handle ∈ state.live, ∃! cronJobId, ∃ handles,
    state.registrations.get? cronJobId = some handles ∧ handle ∈ handles
  bounded : state.registrations.size ≤ maxRegisteredCronJobs
  stopped : state.schedulerStarted = false → state.registrations.size = 0 ∧ state.live = []

/-- What holds after a sync of all jobs: the handles are those of the current schedules and time
zone, the registered jobs are active, and one that could be registered is left out only for `256`
others. -/
structure Synced (expand : Expansion) (environment : Environment) (state : Scheduler) : Prop where
  current : ∀ handle ∈ state.live, ∃ job ∈ state.listActive, job.id = handle.cronJobId ∧
    handle.schedule = job.schedule ∧ handle.zone = environment.zone
  active : ∀ cronJobId ∈ state.registrations.keys, ∃ job ∈ state.listActive, job.id = cronJobId
  complete : ∀ job ∈ state.listActive, isRegistrable expand environment job = true →
    job.id ∉ state.registrations.keys → state.registrations.size = maxRegisteredCronJobs

section

variable (expand : Expansion) (environment : Environment) (state : Scheduler)

def gains (jobs : List CronJob) : Nat :=
  jobs.countP fun job =>
    !state.registrations.has job.id && isRegistrable expand environment job

def losses (jobs : List CronJob) : Nat :=
  jobs.countP fun job =>
    state.registrations.has job.id && !isRegistrable expand environment job

def registeredActive : Nat :=
  (state.registrations.keys.filter fun cronJobId =>
    cronJobId ∈ state.listActive.map CronJob.id).length

def tried : List CronJob := state.listActive.take maxRegisteredCronJobs

def untried : List CronJob := state.listActive.drop maxRegisteredCronJobs

/-- The state before a sync of all jobs does not lead to the counter's mistake: the handles of jobs
that the sync does not come to are up to date, and it ends with `256` registered jobs or leaves out
none that could be registered. -/
def SyncFits : Prop :=
  (∀ job ∈ state.untried, ∀ handles, state.registrations.get? job.id = some handles →
    ∀ handle ∈ handles, handle.schedule = job.schedule ∧ handle.zone = environment.zone) ∧
  ((maxRegisteredCronJobs + state.losses expand environment state.tried ≤
        state.registeredActive + state.gains expand environment state.tried ∧
      ∀ tail, tail <:+ state.tried →
        state.losses expand environment tail ≤ state.gains expand environment tail) ∨
    ((∀ front, front <+: state.tried →
        state.registeredActive + state.gains expand environment front ≤
          maxRegisteredCronJobs + state.losses expand environment front) ∧
      ∀ job ∈ state.untried, isRegistrable expand environment job = true →
        state.registrations.has job.id = true))

end

end Scheduler

end Metidos.CronScheduler
