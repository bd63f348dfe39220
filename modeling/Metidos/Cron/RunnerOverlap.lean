import Metidos.Cron.RunnerCore

/-!
At most one execution of a cron job is in flight, as long as no stale restart is requested for
a job that waits in the limiter; and a run in which one is.
-/

namespace Metidos.CronRunner

open Database RunnerState Transition

def Execution.InFlight (execution : Execution) : Prop :=
  execution.phase ≠ .settled ∨ execution.turn = .running

def ThreadOf (database : Database) (execution : Execution) : Prop :=
  (execution.turn = .running → execution.threadId ≠ none ∧ execution.phase ≠ .creating) ∧
    ∀ threadId, execution.threadId = some threadId →
      ∃ thread, database.threads[threadId]? = some thread ∧
        thread.cronJobId = some execution.cronJobId ∧
        (execution.turn = .running →
          thread.deleted = false ∧ thread.activeTurnStartedAt.isSome = true)

def Busy (executions : List Execution) (waiting : List CronTask) (cronJobId : CronJobId) : Prop :=
  (∃ task ∈ waiting, task.cronJobId = cronJobId) ∨
    ∃ execution ∈ executions, execution.cronJobId = cronJobId ∧ execution.phase ≠ .settled

def InProgress (database : Database) (cronJobId : CronJobId) : Prop :=
  ∃ cronJob, database.cronJobs[cronJobId]? = some cronJob ∧
    cronJob.lastRunStatus = some .inProgress

structure Exclusive (database : Database) (activeCronJobIds : List CronJobId)
    (executions : List Execution) (waiting : List CronTask) : Prop where
  waitsOnce : (waiting.map CronTask.cronJobId).Nodup
  fliesOnce : ∀ (first second : Nat) (execution other : Execution),
    executions[first]? = some execution → executions[second]? = some other →
    execution.cronJobId = other.cronJobId → execution.InFlight → other.InFlight → first = second
  apart : ∀ task ∈ waiting, ∀ execution ∈ executions, execution.InFlight →
    execution.cronJobId ≠ task.cronJobId
  progress : ∀ cronJobId, Busy executions waiting cronJobId → InProgress database cronJobId
  marked : ∀ execution ∈ executions, execution.phase ≠ .settled →
    execution.cronJobId ∈ activeCronJobIds
  threads : ∀ execution ∈ executions, ThreadOf database execution

variable {database later : Database} {activeCronJobIds : List CronJobId}
  {executions : List Execution} {waiting : List CronTask} {cronJobId : CronJobId}
  {execution changed : Execution} {index : Nat} {task : CronTask}

theorem ThreadOf.changePhase (thread : ThreadOf database execution) {phase : ExecutionPhase}
    (created : phase ≠ .creating) : ThreadOf database { execution with phase := phase } :=
  ⟨fun running => ⟨(thread.1 running).1, created⟩, thread.2⟩

theorem Exclusive.changeRows (exclusive : Exclusive database activeCronJobIds executions waiting)
    (jobs : ∀ cronJobId, Busy executions waiting cronJobId → InProgress database cronJobId →
      InProgress later cronJobId)
    (threads : ∀ execution ∈ executions, ThreadOf database execution → ThreadOf later execution) :
    Exclusive later activeCronJobIds executions waiting where
  waitsOnce := exclusive.waitsOnce
  fliesOnce := exclusive.fliesOnce
  apart := exclusive.apart
  progress := fun cronJobId busy => jobs cronJobId busy (exclusive.progress cronJobId busy)
  marked := exclusive.marked
  threads := fun execution member => threads execution member (exclusive.threads execution member)

theorem mem_set {member : Execution} (inside : member ∈ executions.set index changed) :
    member = changed ∨ member ∈ executions :=
  (List.mem_or_eq_of_mem_set inside).symm

theorem Exclusive.changeExecution
    (exclusive : Exclusive database activeCronJobIds executions waiting)
    (found : executions[index]? = some execution)
    (sameJob : changed.cronJobId = execution.cronJobId)
    (flying : changed.InFlight → execution.InFlight)
    (unsettled : changed.phase ≠ .settled → execution.phase ≠ .settled)
    (thread : ThreadOf database changed) :
    Exclusive database activeCronJobIds (executions.set index changed) waiting := by
  have member := List.mem_of_getElem? found
  have stored : ∀ (position : Nat) (other : Execution),
      (executions.set index changed)[position]? = some other →
      ∃ before, executions[position]? = some before ∧ other.cronJobId = before.cronJobId ∧
        (other.InFlight → before.InFlight) := by
    intro position other at_
    by_cases here : index = position
    · subst here
      have bound := (List.getElem?_eq_some_iff.mp found).1
      rw [List.getElem?_set_self bound, Option.some.injEq] at at_
      subst at_
      exact ⟨execution, found, sameJob, flying⟩
    · rw [List.getElem?_set_ne here] at at_
      exact ⟨other, at_, rfl, id⟩
  constructor
  · exact exclusive.waitsOnce
  · intro first second one other atFirst atSecond same oneFlies otherFlies
    obtain ⟨before, found, job, flies⟩ := stored first one atFirst
    obtain ⟨beforeOther, foundOther, jobOther, fliesOther⟩ := stored second other atSecond
    exact exclusive.fliesOnce first second before beforeOther found foundOther
      (by rw [← job, ← jobOther, same]) (flies oneFlies) (fliesOther otherFlies)
  · intro task waits one inside flies
    rcases mem_set inside with rfl | old
    · rw [sameJob]
      exact exclusive.apart task waits execution member (flying flies)
    · exact exclusive.apart task waits one old flies
  · intro job busy
    apply exclusive.progress job
    rcases busy with waits | ⟨one, inside, same, open_⟩
    · exact Or.inl waits
    · rcases mem_set inside with rfl | old
      · exact Or.inr ⟨execution, member, by rw [← same, sameJob], unsettled open_⟩
      · exact Or.inr ⟨one, old, same, open_⟩
  · intro one inside open_
    rcases mem_set inside with rfl | old
    · rw [sameJob]
      exact exclusive.marked execution member (unsettled open_)
    · exact exclusive.marked one old open_
  · intro one inside
    rcases mem_set inside with rfl | old
    · exact thread
    · exact exclusive.threads one old

theorem Exclusive.clear (exclusive : Exclusive database activeCronJobIds executions waiting)
    (idle : ¬ Busy executions waiting cronJobId) :
    Exclusive database (activeCronJobIds.filter (· != cronJobId)) executions waiting := by
  refine { exclusive with marked := ?_ }
  intro one inside open_
  rw [List.mem_filter]
  refine ⟨exclusive.marked one inside open_, ?_⟩
  rw [bne_iff_ne]
  intro same
  exact idle (Or.inr ⟨one, inside, same, open_⟩)

theorem Exclusive.claim (exclusive : Exclusive database activeCronJobIds executions waiting)
    {runDate : Int} {includeDisabled : Bool}
    (claimed : database.claimCronJobForScheduledRunById cronJobId runDate includeDisabled =
      some later) :
    Exclusive later activeCronJobIds executions (waiting ++ [⟨cronJobId, runDate⟩]) := by
  obtain ⟨⟨cronJob, found, status⟩, quiet, rfl⟩ := Database.claim_spec claimed
  have idle : ¬ Busy executions waiting cronJobId := by
    intro busy
    obtain ⟨row, stored, inProgress⟩ := exclusive.progress cronJobId busy
    rw [found, Option.some.injEq] at stored
    rw [stored] at status
    exact status inProgress
  have grounded : ∀ one ∈ executions, one.InFlight → one.cronJobId ≠ cronJobId := by
    intro one inside flies same
    rcases flies with open_ | running
    · exact idle (Or.inr ⟨one, inside, same, open_⟩)
    · obtain ⟨needsThread, threads⟩ := exclusive.threads one inside
      obtain ⟨threadId, thread⟩ := Option.ne_none_iff_exists'.mp (needsThread running).1
      obtain ⟨row, stored, job, active⟩ := threads threadId thread
      have busyThread : database.hasActiveThreadForCronJob cronJobId = true := by
        rw [Database.hasActiveThread_iff]
        refine ⟨threadId, row, stored, ?_⟩
        simp [isActiveThreadOf, job, same, active running]
      rw [quiet] at busyThread
      exact absurd busyThread (by decide)
  constructor
  · rw [List.map_append, List.nodup_append]
    refine ⟨exclusive.waitsOnce, by simp, ?_⟩
    intro other member single
    obtain ⟨task, waits, rfl⟩ := List.mem_map.mp member
    intro last same
    obtain rfl : single = cronJobId := by simpa using last
    exact idle (Or.inl ⟨task, waits, same⟩)
  · exact exclusive.fliesOnce
  · intro task waits one inside flies
    rcases List.mem_append.mp waits with before | last
    · exact exclusive.apart task before one inside flies
    · obtain rfl := List.mem_singleton.mp last
      exact grounded one inside flies
  · intro job busy
    by_cases same : job = cronJobId
    · subst same
      refine ⟨{ cronJob with lastRunDate := some runDate, lastRunStatus := some .inProgress }, ?_,
        rfl⟩
      rw [Database.updateCronJob_get, found]
      rfl
    · have before : Busy executions waiting job := by
        rcases busy with ⟨task, waits, is⟩ | unsettled
        · rcases List.mem_append.mp waits with old | last
          · exact Or.inl ⟨task, old, is⟩
          · obtain rfl := List.mem_singleton.mp last
            exact absurd is.symm same
        · exact Or.inr unsettled
      obtain ⟨row, stored, inProgress⟩ := exclusive.progress job before
      exact ⟨row, by rw [Database.updateCronJob_get_other _ same]; exact stored, inProgress⟩
  · exact exclusive.marked
  · exact exclusive.threads

theorem Exclusive.permute {others : List CronTask}
    (exclusive : Exclusive database activeCronJobIds executions waiting)
    (same : waiting.Perm others) : Exclusive database activeCronJobIds executions others := by
  constructor
  · exact (same.map CronTask.cronJobId).nodup_iff.mp exclusive.waitsOnce
  · exact exclusive.fliesOnce
  · intro task waits
    exact exclusive.apart task (same.mem_iff.mpr waits)
  · intro job busy
    apply exclusive.progress job
    rcases busy with ⟨task, waits, is⟩ | unsettled
    · exact Or.inl ⟨task, same.mem_iff.mpr waits, is⟩
    · exact Or.inr unsettled
  · exact exclusive.marked
  · exact exclusive.threads

theorem Exclusive.launch
    (exclusive : Exclusive database activeCronJobIds executions (task :: waiting))
    (limited : Bool) :
    Exclusive database (activeCronJobIds.insert task.cronJobId)
      (executions ++ [⟨task.cronJobId, task.scheduledTime, limited, none, .creating, .notStarted⟩])
      waiting := by
  have mine : ∀ one ∈ executions, one.InFlight → one.cronJobId ≠ task.cronJobId :=
    exclusive.apart task (by simp)
  have once := exclusive.waitsOnce
  rw [List.map_cons, List.nodup_cons] at once
  constructor
  · exact once.2
  · intro first second one other atFirst atSecond same oneFlies otherFlies
    rw [List.getElem?_append] at atFirst atSecond
    split at atFirst
    · split at atSecond
      · exact exclusive.fliesOnce first second one other atFirst atSecond same oneFlies otherFlies
      · have new := List.mem_of_getElem? atSecond
        obtain rfl := List.mem_singleton.mp new
        exact absurd same (mine one (List.mem_of_getElem? atFirst) oneFlies)
    · have new := List.mem_of_getElem? atFirst
      obtain rfl := List.mem_singleton.mp new
      split at atSecond
      · exact absurd same.symm (mine other (List.mem_of_getElem? atSecond) otherFlies)
      · have firstBound := (List.getElem?_eq_some_iff.mp atFirst).1
        have secondBound := (List.getElem?_eq_some_iff.mp atSecond).1
        simp only [List.length_singleton] at firstBound secondBound
        omega
  · intro waiter waits one inside flies
    rcases List.mem_append.mp inside with old | new
    · exact exclusive.apart waiter (List.mem_cons_of_mem _ waits) one old flies
    · obtain rfl := List.mem_singleton.mp new
      intro same
      apply once.1
      rw [List.mem_map]
      exact ⟨waiter, waits, same.symm⟩
  · intro job busy
    apply exclusive.progress job
    rcases busy with ⟨waiter, waits, is⟩ | ⟨one, inside, is, open_⟩
    · exact Or.inl ⟨waiter, List.mem_cons_of_mem _ waits, is⟩
    · rcases List.mem_append.mp inside with old | new
      · exact Or.inr ⟨one, old, is, open_⟩
      · obtain rfl := List.mem_singleton.mp new
        exact Or.inl ⟨task, by simp, is⟩
  · intro one inside open_
    rw [List.mem_insert_iff]
    rcases List.mem_append.mp inside with old | new
    · exact Or.inr (exclusive.marked one old open_)
    · obtain rfl := List.mem_singleton.mp new
      exact Or.inl rfl
  · intro one inside
    rcases List.mem_append.mp inside with old | new
    · exact exclusive.threads one old
    · obtain rfl := List.mem_singleton.mp new
      exact ⟨by simp, by simp⟩

theorem waiting_scheduleFrom (activeCount : Nat) (starting pendingTasks : List CronTask) :
    (ConcurrencyLimit.scheduleFrom activeCount starting pendingTasks).waiting =
      starting ++ pendingTasks := by
  induction pendingTasks generalizing activeCount starting with
  | nil => rfl
  | cons nextTask rest ih =>
    rw [ConcurrencyLimit.scheduleFrom]
    split
    · rw [ih]
      simp
    · rfl

theorem waiting_run (limit : ConcurrencyLimit) (task : CronTask) :
    (limit.run task).waiting = limit.waiting ++ [task] := by
  rw [ConcurrencyLimit.run, ConcurrencyLimit.schedule, waiting_scheduleFrom,
    ConcurrencyLimit.waiting, List.append_assoc]

theorem waiting_release (limit : ConcurrencyLimit) : limit.release.waiting = limit.waiting :=
  waiting_scheduleFrom _ _ _

theorem waiting_runAll (tasks : List CronTask) (limit : ConcurrencyLimit) :
    (tasks.foldl ConcurrencyLimit.run limit).waiting = limit.waiting ++ tasks := by
  induction tasks generalizing limit with
  | nil => simp
  | cons task rest ih =>
    rw [List.foldl_cons, ih, waiting_run]
    simp

theorem ThreadOf.updateThread {threadId : ThreadId} {update : ThreadRow → ThreadRow}
    (thread : ThreadOf database execution)
    (keeps : ∀ row, (update row).cronJobId = row.cronJobId)
    (usable : execution.turn = .running → execution.threadId = some threadId → ∀ row : ThreadRow,
      row.deleted = false → row.activeTurnStartedAt.isSome = true →
        (update row).deleted = false ∧ (update row).activeTurnStartedAt.isSome = true) :
    ThreadOf (database.updateThread threadId update) execution := by
  refine ⟨thread.1, ?_⟩
  intro used mine
  obtain ⟨row, stored, job, active⟩ := thread.2 used mine
  by_cases same : threadId = used
  · subst same
    refine ⟨update row, ?_, by rw [keeps, job], ?_⟩
    · simp [Database.updateThread, stored]
    · intro running
      exact usable running mine row (active running).1 (active running).2
  · refine ⟨row, ?_, job, active⟩
    simp [Database.updateThread, same, stored]

theorem ThreadOf.appendThread (thread : ThreadOf database execution) (new : ThreadRow) :
    ThreadOf { database with threads := database.threads ++ [new] } execution := by
  refine ⟨thread.1, ?_⟩
  intro used mine
  obtain ⟨row, stored, rest⟩ := thread.2 used mine
  refine ⟨row, ?_, rest⟩
  rw [List.getElem?_append_left (List.getElem?_eq_some_iff.mp stored).1]
  exact stored

theorem markTurn_update (outcome : TurnOutcome) (database : Database) (threadId : ThreadId)
    (finishedAt : Int) :
    ∃ update : ThreadRow → ThreadRow, (∀ row, (update row).cronJobId = row.cronJobId) ∧
      markTurn outcome database threadId finishedAt = database.updateThread threadId update := by
  cases outcome
  · refine ⟨_, ?_, rfl⟩
    exact fun _ => rfl
  · refine ⟨_, ?_, rfl⟩
    exact fun _ => rfl
  · refine ⟨_, ?_, rfl⟩
    exact fun _ => rfl

def RunnerState.Exclusion (state : RunnerState) : Prop :=
  Exclusive state.database state.activeCronJobIds state.executions
    state.scheduledCronExecutionLimit.waiting

/-- No stale restart is requested for a job that waits in the limiter, unless an active thread
of the job rules the restart out. -/
def NoRestartWhileWaiting (state : RunnerState) : RunnerEvent → Prop
  | .runCronJobById cronJobId _ true =>
    (∀ task ∈ state.scheduledCronExecutionLimit.waiting, task.cronJobId ≠ cronJobId) ∨
      state.database.hasActiveThreadForCronJob cronJobId = true
  | _ => True

def restartAllowed (state : RunnerState) : RunnerEvent → Bool
  | .runCronJobById cronJobId _ true =>
    state.scheduledCronExecutionLimit.waiting.all (·.cronJobId != cronJobId) ||
      state.database.hasActiveThreadForCronJob cronJobId
  | _ => true

theorem noRestart_of_allowed (state : RunnerState) (event : RunnerEvent)
    (allowed : restartAllowed state event = true) : NoRestartWhileWaiting state event := by
  cases event with
  | runCronJobById cronJobId scheduledTime allowStaleRestart =>
    cases allowStaleRestart with
    | false => trivial
    | true =>
      simp only [restartAllowed, Bool.or_eq_true, List.all_eq_true, bne_iff_ne] at allowed
      exact allowed
  | _ => trivial

theorem claimDue_exclusive (scheduledTime : Int) (due : List CronJobId)
    (exclusive : Exclusive database activeCronJobIds executions waiting)
    (activeIds : List CronJobId) :
    Exclusive (claimDue activeIds scheduledTime database due).1 activeCronJobIds executions
      (waiting ++ (claimDue activeIds scheduledTime database due).2) := by
  induction due generalizing database waiting with
  | nil => simpa [claimDue] using exclusive
  | cons cronJobId rest ih =>
    rw [claimDue]
    split
    · exact ih exclusive
    · split
      · exact ih exclusive
      · rename_i claimed returned
        have next := ih (exclusive.claim returned)
        simpa using next

theorem Exclusion.runDueCronJobs {state : RunnerState} (exclusion : state.Exclusion)
    (schedule : String) (scheduledTime : Int) :
    (state.runDueCronJobs schedule scheduledTime).Exclusion := by
  have claimed := claimDue_exclusive scheduledTime
    (state.database.listDueScheduledJobIds schedule scheduledTime) exclusion
    state.activeCronJobIds
  simp only [RunnerState.Exclusion, RunnerState.runDueCronJobs, waiting_runAll]
  exact claimed

theorem restartStale_exclusive {state : RunnerState} (exclusion : state.Exclusion)
    {allowStaleRestart : Bool} (careful : ∀ scheduledTime, NoRestartWhileWaiting state
      (.runCronJobById cronJobId scheduledTime allowStaleRestart)) :
    Exclusive (state.restartStale cronJobId allowStaleRestart) state.activeCronJobIds
      state.executions state.scheduledCronExecutionLimit.waiting := by
  simp only [restartStale]
  split
  · rename_i stale
    simp only [Bool.and_eq_true, Bool.not_eq_true'] at stale
    obtain ⟨⟨allowed, inactive⟩, quiet⟩ := stale
    have idle : ¬ Busy state.executions state.scheduledCronExecutionLimit.waiting cronJobId := by
      subst allowed
      rintro (⟨task, waits, same⟩ | ⟨one, inside, same, open_⟩)
      · rcases careful 0 with absent | active
        · exact absent task waits same
        · rw [quiet] at active
          exact absurd active (by decide)
      · have marked := exclusion.marked one inside open_
        rw [same] at marked
        simp [marked] at inactive
    apply exclusion.changeRows
    · intro job busy inProgress
      have differs : job ≠ cronJobId := by
        rintro rfl
        exact idle busy
      obtain ⟨row, stored, status⟩ := inProgress
      refine ⟨row, ?_, status⟩
      rw [stopInProgressCronJobRuns, Database.updateCronJob_get_other _ differs]
      exact stored
    · intro one _ thread
      exact thread
  · exact exclusion

theorem Exclusion.runCronJobById {state : RunnerState} (exclusion : state.Exclusion)
    {scheduledTime : Int} {allowStaleRestart : Bool}
    (careful : NoRestartWhileWaiting state
      (.runCronJobById cronJobId scheduledTime allowStaleRestart)) :
    (state.runCronJobById cronJobId scheduledTime allowStaleRestart).Exclusion := by
  have restarted : Exclusive (state.restartStale cronJobId allowStaleRestart)
      state.activeCronJobIds state.executions state.scheduledCronExecutionLimit.waiting :=
    restartStale_exclusive exclusion fun _ => by cases allowStaleRestart <;> exact careful
  simp only [RunnerState.runCronJobById]
  split
  · exact restarted
  · rename_i claimed returned
    have next := restarted.claim returned
    exact (next.permute List.perm_append_comm).launch false

theorem Exclusive.settle
    (exclusive : Exclusive database activeCronJobIds executions waiting)
    (found : executions[index]? = some execution) (open_ : execution.phase ≠ .settled)
    (jobs : ∀ job, job ≠ execution.cronJobId → InProgress database job → InProgress later job)
    (threads : ∀ one ∈ executions, ThreadOf database one → ThreadOf later one) :
    Exclusive later (activeCronJobIds.filter (· != execution.cronJobId))
      (executions.set index { execution with phase := .settled }) waiting := by
  have member := List.mem_of_getElem? found
  have changed : Exclusive database activeCronJobIds
      (executions.set index { execution with phase := .settled }) waiting :=
    exclusive.changeExecution found rfl (fun _ => Or.inl open_) (fun _ => open_)
      ((exclusive.threads execution member).changePhase (by simp))
  have idle : ¬ Busy (executions.set index { execution with phase := .settled }) waiting
      execution.cronJobId := by
    rintro (⟨task, waits, same⟩ | ⟨one, inside, same, unsettled⟩)
    · exact exclusive.apart task waits execution member (Or.inl open_) same.symm
    · obtain ⟨position, at_⟩ := List.getElem?_of_mem inside
      by_cases here : index = position
      · subst here
        rw [List.getElem?_set_self (List.getElem?_eq_some_iff.mp found).1, Option.some.injEq] at at_
        rw [← at_] at unsettled
        exact unsettled rfl
      · rw [List.getElem?_set_ne here] at at_
        exact here (exclusive.fliesOnce index position execution one found at_ same.symm
          (Or.inl open_) (Or.inl unsettled))
  refine (changed.changeRows ?_ ?_).clear idle
  · intro job busy inProgress
    apply jobs job _ inProgress
    rintro rfl
    exact idle busy
  · intro one inside thread
    rcases mem_set inside with rfl | old
    · have kept := threads execution member (exclusive.threads execution member)
      exact kept.changePhase (by simp)
    · exact threads one old thread

theorem inProgress_other {update : CronJobRow → CronJobRow} {job : CronJobId}
    (differs : job ≠ cronJobId) (inProgress : InProgress database job) :
    InProgress (database.updateCronJob cronJobId update) job := by
  obtain ⟨row, stored, status⟩ := inProgress
  exact ⟨row, by rw [Database.updateCronJob_get_other _ differs]; exact stored, status⟩

theorem inProgress_kept {update : CronJobRow → CronJobRow} {job : CronJobId}
    (keeps : ∀ row, (update row).lastRunStatus = row.lastRunStatus)
    (inProgress : InProgress database job) :
    InProgress (database.updateCronJob cronJobId update) job := by
  by_cases same : job = cronJobId
  · subst same
    obtain ⟨row, stored, status⟩ := inProgress
    exact ⟨update row, by rw [Database.updateCronJob_get, stored]; rfl, by rw [keeps, status]⟩
  · exact inProgress_other same inProgress

theorem Exclusive.finish
    (exclusive : Exclusive database activeCronJobIds executions waiting)
    (found : executions[index]? = some execution) (open_ : execution.phase ≠ .settled)
    (rows : Database) (sameJobs : rows.cronJobs = database.cronJobs)
    (sameThreads : rows.threads = database.threads) (status : CronJobRunStatus) :
    Exclusive (rows.updateCronJobLastRun execution.cronJobId execution.scheduledTime status)
      (activeCronJobIds.filter (· != execution.cronJobId))
      (executions.set index { execution with phase := .settled }) waiting := by
  apply exclusive.settle found open_
  · intro job differs inProgress
    apply inProgress_other differs
    simpa only [InProgress, sameJobs] using inProgress
  · intro one _ thread
    simpa only [ThreadOf, updateCronJobLastRun, updateCronJob_threads, sameThreads] using thread

@[simp] theorem returned_database (state : RunnerState) :
    (state.returned execution).database = state.database := by
  rw [returned]
  split <;> rfl

@[simp] theorem returned_activeCronJobIds (state : RunnerState) :
    (state.returned execution).activeCronJobIds = state.activeCronJobIds := by
  rw [returned]
  split <;> rfl

@[simp] theorem returned_executions (state : RunnerState) :
    (state.returned execution).executions = state.executions := by
  rw [returned]
  split <;> rfl

@[simp] theorem returned_limit (state : RunnerState) :
    (state.returned execution).scheduledCronExecutionLimit =
      state.scheduledCronExecutionLimit := by
  rw [returned]
  split <;> rfl

theorem Exclusion.failLaunch {state : RunnerState} (exclusion : state.Exclusion)
    (found : state.executions[index]? = some execution) (open_ : execution.phase ≠ .settled)
    (runId : Option RunId) : (state.failLaunch index execution runId).Exclusion := by
  cases runId with
  | none =>
    have finished := exclusion.finish found open_ state.database rfl rfl .errored
    simpa [RunnerState.Exclusion, RunnerState.failLaunch, clearActiveCronJob, setExecution]
      using finished
  | some runId =>
    have finished := exclusion.finish found open_
      (state.database.updateCronJobRunStatus runId .errored) rfl rfl .errored
    simpa [RunnerState.Exclusion, RunnerState.failLaunch, clearActiveCronJob, setExecution]
      using finished

theorem Exclusion.settle {state : RunnerState} (exclusion : state.Exclusion)
    (found : state.executions[index]? = some execution) (open_ : execution.phase ≠ .settled)
    (runId : RunId) (status : CronJobRunStatus) :
    (state.settle index execution runId status).Exclusion := by
  have finished := exclusion.finish found open_
    (state.database.updateCronJobRunStatus runId status) rfl rfl status
  simpa [RunnerState.Exclusion, RunnerState.settle, clearActiveCronJob, setExecution] using finished

theorem threads_turnStarted {threadId : ThreadId} (startedAt : Int)
    (thread : ThreadOf database execution) :
    ThreadOf (database.markThreadRunStarted threadId startedAt) execution := by
  apply thread.updateThread
  · exact fun _ => rfl
  · intro _ _ row kept _
    exact ⟨kept, rfl⟩

theorem threads_markTurn {threadId : ThreadId} (outcome : TurnOutcome) (finishedAt : Int)
    (thread : ThreadOf database execution) (elsewhere : runsOn threadId execution = false) :
    ThreadOf (markTurn outcome database threadId finishedAt) execution := by
  obtain ⟨update, keeps, is⟩ := markTurn_update outcome database threadId finishedAt
  rw [is]
  apply thread.updateThread keeps
  intro running mine
  simp [runsOn, running, mine] at elsewhere

theorem threads_deleted {threadId : ThreadId} {row : ThreadRow}
    (stored : database.threads[threadId]? = some row) (quiet : row.activeTurnStartedAt = none)
    (thread : ThreadOf database execution) : ThreadOf (database.deleteThread threadId) execution := by
  refine ⟨thread.1, ?_⟩
  intro used mine
  obtain ⟨found, at_, job, active⟩ := thread.2 used mine
  by_cases same : threadId = used
  · subst same
    obtain rfl : row = found := by simpa [stored] using at_
    refine ⟨{ row with deleted := true }, by simp [deleteThread, Database.updateThread, stored],
      job, ?_⟩
    intro running
    simp [quiet] at active
    exact absurd running active
  · exact ⟨found, by simp [deleteThread, Database.updateThread, same, at_], job, active⟩

theorem Exclusion.taskCalled {state : RunnerState} (exclusion : state.Exclusion)
    {rest : List CronTask} (starting : state.scheduledCronExecutionLimit.starting = task :: rest) :
    (({ state with
      scheduledCronExecutionLimit :=
        { state.scheduledCronExecutionLimit with starting := rest } } :
        RunnerState).executeCronJob task true).Exclusion := by
  have waits : Exclusive state.database state.activeCronJobIds state.executions
      (task :: (rest ++ state.scheduledCronExecutionLimit.pendingTasks)) := by
    have before := exclusion
    rw [RunnerState.Exclusion, ConcurrencyLimit.waiting, starting] at before
    exact before
  exact waits.launch true

theorem Exclusion.limiterReleased {state : RunnerState} (exclusion : state.Exclusion)
    (releases : Nat) :
    ({ state with
      releases := releases
      scheduledCronExecutionLimit := state.scheduledCronExecutionLimit.release } :
        RunnerState).Exclusion := by
  rw [RunnerState.Exclusion, waiting_release]
  exact exclusion

theorem Exclusion.changeRows {state : RunnerState} (exclusion : state.Exclusion)
    {rows : Database}
    (jobs : ∀ job, InProgress state.database job → InProgress rows job)
    (threads : ∀ one ∈ state.executions, ThreadOf state.database one → ThreadOf rows one) :
    ({ state with database := rows } : RunnerState).Exclusion :=
  Exclusive.changeRows exclusion (fun job _ => jobs job) threads

theorem Exclusion.threadCreated {state : RunnerState} (exclusion : state.Exclusion)
    (found : state.executions[index]? = some execution) (creating : execution.phase = .creating)
    {rows : Database} (sameJobs : rows.cronJobs = state.database.cronJobs)
    (created : rows.threads =
      state.database.threads ++ [⟨some execution.cronJobId, none, false, false, none, none, false⟩])
    (runId : RunId) :
    ({ state.setExecution index { execution with
        threadId := some state.database.threads.length, phase := .sending runId } with
      database := rows } : RunnerState).Exclusion := by
  have member := List.mem_of_getElem? found
  have idle : execution.turn ≠ .running := by
    intro running
    exact ((exclusion.threads execution member).1 running).2 creating
  have grown : Exclusive rows state.activeCronJobIds state.executions
      state.scheduledCronExecutionLimit.waiting := by
    apply Exclusive.changeRows exclusion
    · intro job _ inProgress
      simpa only [InProgress, sameJobs] using inProgress
    · intro one _ thread
      have kept := thread.appendThread
        ⟨some execution.cronJobId, none, false, false, none, none, false⟩
      simpa only [ThreadOf, created] using kept
  apply grown.changeExecution found
  · rfl
  · exact fun _ => Or.inl (by simp [creating])
  · exact fun _ => by simp [creating]
  · refine ⟨fun running => absurd running idle, ?_⟩
    intro threadId mine
    obtain rfl : state.database.threads.length = threadId := by simpa using mine
    exact ⟨_, by rw [created, List.getElem?_concat_length], rfl, fun running => absurd running idle⟩

theorem Exclusion.turnStarted {state : RunnerState} (exclusion : state.Exclusion)
    (found : state.executions[index]? = some execution) {runId : RunId}
    (sending : execution.phase = .sending runId) {threadId : ThreadId}
    (mine : execution.threadId = some threadId) (can : state.canStartTurn threadId = true)
    (startedAt : Int) :
    ({ state.setExecution index { execution with turn := .running } with
      database := state.database.markThreadRunStarted threadId startedAt } :
        RunnerState).Exclusion := by
  have member := List.mem_of_getElem? found
  have started : Exclusive (state.database.markThreadRunStarted threadId startedAt)
      state.activeCronJobIds state.executions state.scheduledCronExecutionLimit.waiting :=
    Exclusive.changeRows exclusion (fun _ _ inProgress => inProgress)
      (fun _ _ thread => threads_turnStarted startedAt thread)
  apply started.changeExecution found
  · rfl
  · exact fun _ => Or.inl (by simp [sending])
  · exact id
  · refine ⟨fun _ => ⟨by simp [mine], by simp [sending]⟩, ?_⟩
    intro used is
    obtain rfl : threadId = used := by simpa [mine] using is
    obtain ⟨row, stored, job, _⟩ := (exclusion.threads execution member).2 threadId mine
    simp only [canStartTurn, stored, Option.any_some, Bool.and_eq_true, Bool.not_eq_true'] at can
    refine ⟨{ row with activeTurnStartedAt := some startedAt }, ?_, job, fun _ => ⟨can.1, rfl⟩⟩
    simp [markThreadRunStarted, Database.updateThread, stored]

theorem Exclusion.messageSent {state : RunnerState} (exclusion : state.Exclusion)
    (found : state.executions[index]? = some execution) {runId : RunId}
    (sending : execution.phase = .sending runId) :
    ((state.setExecution index { execution with phase := .monitored runId }).returned
      execution).Exclusion := by
  have member := List.mem_of_getElem? found
  have changed : Exclusive state.database state.activeCronJobIds
      (state.executions.set index { execution with phase := .monitored runId })
      state.scheduledCronExecutionLimit.waiting := by
    apply Exclusive.changeExecution exclusion found
    · rfl
    · exact fun _ => Or.inl (by simp [sending])
    · exact fun _ => by simp [sending]
    · exact (exclusion.threads execution member).changePhase (by simp)
  simpa [RunnerState.Exclusion, setExecution] using changed

theorem Exclusive.runsAlone
    (exclusive : Exclusive database activeCronJobIds executions waiting)
    (found : executions[index]? = some execution) (running : execution.turn = .running)
    {threadId : ThreadId} (mine : execution.threadId = some threadId) {position : Nat}
    {other : Execution} (stored : executions[position]? = some other)
    (runs : runsOn threadId other = true) : position = index := by
  simp only [runsOn, Bool.and_eq_true, beq_iff_eq] at runs
  obtain ⟨row, at_, job, _⟩ :=
    (exclusive.threads execution (List.mem_of_getElem? found)).2 threadId mine
  obtain ⟨rowOther, atOther, jobOther, _⟩ :=
    (exclusive.threads other (List.mem_of_getElem? stored)).2 threadId runs.1
  obtain rfl : row = rowOther := by simpa [at_] using atOther
  have same : other.cronJobId = execution.cronJobId := by simpa [job] using jobOther.symm
  exact exclusive.fliesOnce position index other execution stored found same (Or.inr runs.2)
    (Or.inr running)

theorem Exclusion.turnFinished {state : RunnerState} (exclusion : state.Exclusion)
    (found : state.executions[index]? = some execution) (running : execution.turn = .running)
    {threadId : ThreadId} (mine : execution.threadId = some threadId) (outcome : TurnOutcome)
    (finishedAt : Int) :
    ({ state.setExecution index { execution with turn := .ended } with
      database := markTurn outcome state.database threadId finishedAt } :
        RunnerState).Exclusion := by
  have member := List.mem_of_getElem? found
  have ended : Exclusive state.database state.activeCronJobIds
      (state.executions.set index { execution with turn := .ended })
      state.scheduledCronExecutionLimit.waiting := by
    apply Exclusive.changeExecution exclusion found
    · rfl
    · exact fun _ => Or.inr running
    · exact id
    · refine ⟨by simp, ?_⟩
      intro used is
      obtain ⟨row, stored, job, _⟩ := (exclusion.threads execution member).2 used is
      exact ⟨row, stored, job, by simp⟩
  apply Exclusive.changeRows ended
  · intro job _ inProgress
    obtain ⟨update, _, is⟩ := markTurn_update outcome state.database threadId finishedAt
    rw [is]
    exact inProgress
  · intro one inside thread
    apply threads_markTurn outcome finishedAt thread
    obtain ⟨position, at_⟩ := List.getElem?_of_mem inside
    by_cases here : index = position
    · subst here
      rw [List.getElem?_set_self (List.getElem?_eq_some_iff.mp found).1, Option.some.injEq] at at_
      simp [runsOn, ← at_]
    · rw [List.getElem?_set_ne here] at at_
      rw [← Bool.not_eq_true]
      intro runs
      exact here (Exclusive.runsAlone exclusion found running mine at_ runs).symm

theorem exclusion_step {state next : RunnerState} {event : RunnerEvent}
    (exclusion : state.Exclusion) (careful : NoRestartWhileWaiting state event)
    (stepped : runnerStep state event = some next) : next.Exclusion := by
  cases event with
  | runDueCronJobs schedule scheduledTime =>
    obtain rfl := Option.some.inj stepped
    exact Exclusion.runDueCronJobs exclusion schedule scheduledTime
  | runCronJobById cronJobId scheduledTime allowStaleRestart =>
    obtain rfl := Option.some.inj stepped
    exact Exclusion.runCronJobById exclusion careful
  | taskCalled =>
    simp only [runnerStep] at stepped
    split at stepped
    · exact absurd stepped (by simp)
    · rename_i task rest starting
      obtain rfl := Option.some.inj stepped
      exact Exclusion.taskCalled exclusion starting
  | limiterReleased =>
    simp only [runnerStep] at stepped
    split at stepped
    · exact absurd stepped (by simp)
    · obtain rfl := Option.some.inj stepped
      exact Exclusion.limiterReleased exclusion _
  | threadCreated index =>
    simp only [runnerStep] at stepped
    split at stepped
    · rename_i execution found
      split at stepped
      · rename_i creating
        obtain rfl := Option.some.inj stepped
        apply Exclusion.threadCreated exclusion found creating
        · rfl
        · rfl
      · exact absurd stepped (by simp)
    · exact absurd stepped (by simp)
  | launchFailed index threadExists =>
    simp only [runnerStep] at stepped
    split at stepped
    · rename_i execution found
      split at stepped
      · rename_i creating
        obtain rfl := Option.some.inj stepped
        apply Exclusion.failLaunch
        · cases threadExists
          · exact exclusion
          · apply Exclusion.changeRows exclusion
            · exact fun _ inProgress => inProgress
            · intro one _ thread
              apply threads_deleted (List.getElem?_concat_length) rfl
              exact thread.appendThread _
        · exact found
        · simp [creating]
      · rename_i runId sending
        obtain rfl := Option.some.inj stepped
        exact Exclusion.failLaunch exclusion found (by simp [sending]) _
      · exact absurd stepped (by simp)
    · exact absurd stepped (by simp)
  | turnStarted index startedAt =>
    simp only [runnerStep] at stepped
    split at stepped
    · rename_i execution found
      split at stepped
      · rename_i runId threadId sending mine
        split at stepped
        · rename_i can
          obtain rfl := Option.some.inj stepped
          exact Exclusion.turnStarted exclusion found sending mine can.2 startedAt
        · exact absurd stepped (by simp)
      · exact absurd stepped (by simp)
    · exact absurd stepped (by simp)
  | messageSent index =>
    simp only [runnerStep] at stepped
    split at stepped
    · rename_i execution found
      split at stepped
      · rename_i runId sending
        obtain rfl := Option.some.inj stepped
        exact Exclusion.messageSent exclusion found sending
      · exact absurd stepped (by simp)
    · exact absurd stepped (by simp)
  | monitorSettled index completion =>
    simp only [runnerStep] at stepped
    split at stepped
    · rename_i execution found
      split at stepped
      · rename_i runId threadId monitored mine
        have open_ : execution.phase ≠ .settled := by simp [monitored]
        split at stepped
        · split at stepped
          · exact absurd stepped (by simp)
          · obtain rfl := Option.some.inj stepped
            exact Exclusion.settle exclusion found open_ _ _
        · obtain rfl := Option.some.inj stepped
          exact Exclusion.settle exclusion found open_ _ _
        · obtain rfl := Option.some.inj stepped
          exact Exclusion.settle exclusion found open_ _ _
      · exact absurd stepped (by simp)
    · exact absurd stepped (by simp)
  | turnFinished index outcome finishedAt =>
    simp only [runnerStep] at stepped
    split at stepped
    · rename_i execution found
      split at stepped
      · rename_i threadId mine
        split at stepped
        · rename_i running
          obtain rfl := Option.some.inj stepped
          exact Exclusion.turnFinished exclusion found running mine outcome finishedAt
        · exact absurd stepped (by simp)
      · exact absurd stepped (by simp)
    · exact absurd stepped (by simp)
  | otherTurnStarted threadId startedAt =>
    simp only [runnerStep] at stepped
    split at stepped
    · obtain rfl := Option.some.inj stepped
      apply Exclusion.changeRows exclusion
      · exact fun _ inProgress => inProgress
      · exact fun _ _ thread => threads_turnStarted startedAt thread
    · exact absurd stepped (by simp)
  | otherTurnFinished threadId outcome finishedAt =>
    simp only [runnerStep] at stepped
    split at stepped
    · exact absurd stepped (by simp)
    · rename_i others
      obtain rfl := Option.some.inj stepped
      simp only [List.any_eq_true, not_exists, not_and, Bool.not_eq_true] at others
      apply Exclusion.changeRows exclusion
      · intro job inProgress
        obtain ⟨update, _, is⟩ := markTurn_update outcome state.database threadId finishedAt
        rw [is]
        exact inProgress
      · exact fun one inside thread =>
          threads_markTurn outcome finishedAt thread (others one inside)
  | threadDeleted threadId =>
    simp only [runnerStep] at stepped
    split at stepped
    · rename_i can
      obtain rfl := Option.some.inj stepped
      simp only [canStartTurn, Option.any_eq_true, Bool.and_eq_true, Bool.not_eq_true',
        Option.isNone_iff_eq_none] at can
      obtain ⟨row, stored, _, quiet⟩ := can
      apply Exclusion.changeRows exclusion
      · exact fun _ inProgress => inProgress
      · exact fun _ _ thread => threads_deleted stored quiet thread
    · exact absurd stepped (by simp)
  | projectDeleted threadId =>
    obtain rfl := Option.some.inj stepped
    apply Exclusion.changeRows exclusion
    · exact fun _ inProgress => inProgress
    · intro one _ thread
      exact thread.updateThread (fun _ => rfl) fun _ _ row kept active => ⟨kept, active⟩
  | otherThreadCreated =>
    obtain rfl := Option.some.inj stepped
    apply Exclusion.changeRows exclusion
    · exact fun _ inProgress => inProgress
    · exact fun one _ thread => thread.appendThread _
  | cronJobCreated schedule enabled =>
    obtain rfl := Option.some.inj stepped
    apply Exclusion.changeRows exclusion
    · rintro job ⟨row, stored, status⟩
      refine ⟨row, ?_, status⟩
      rw [List.getElem?_append_left (List.getElem?_eq_some_iff.mp stored).1]
      exact stored
    · exact fun one _ thread => thread
  | cronJobUpdated cronJobId schedule enabled =>
    obtain rfl := Option.some.inj stepped
    apply Exclusion.changeRows exclusion
    · exact fun _ inProgress => inProgress_kept (fun _ => rfl) inProgress
    · exact fun one _ thread => thread
  | cronJobDeleted cronJobId =>
    obtain rfl := Option.some.inj stepped
    apply Exclusion.changeRows exclusion
    · exact fun _ inProgress => inProgress_kept (fun _ => rfl) inProgress
    · exact fun one _ thread => thread

theorem exclusion_fresh (database : Database) : (RunnerState.fresh database).Exclusion := by
  constructor
  · simp [RunnerState.fresh, ConcurrencyLimit.waiting]
  · simp [RunnerState.fresh]
  · simp [RunnerState.fresh]
  · simp [RunnerState.fresh, ConcurrencyLimit.waiting, Busy]
  · simp [RunnerState.fresh]
  · simp [RunnerState.fresh]

def minuteJobs : Database where
  cronJobs := List.replicate 3 ⟨"* * * * *", true, false, none, none⟩
  threads := []
  cronJobRuns := []

def carefulEvents : List RunnerEvent :=
  [.runDueCronJobs "* * * * *" 60, .taskCalled, .taskCalled, .runCronJobById 0 90 true]

theorem careful_run :
    (run runnerStep restartAllowed (RunnerState.fresh minuteJobs) carefulEvents).map
      (fun state => state.executions.map fun execution => (execution.cronJobId, execution.phase)) =
        some [(0, .creating), (1, .creating)] := by decide +kernel

def overlappingEvents : List RunnerEvent :=
  [.runDueCronJobs "* * * * *" 60, .taskCalled, .taskCalled, .runCronJobById 2 90 true,
    .threadCreated 0, .turnStarted 0 95, .messageSent 0, .limiterReleased, .taskCalled]

theorem overlapping_run :
    (run runnerStep (fun _ _ => true) (RunnerState.fresh minuteJobs) overlappingEvents).map
      (fun state => (state.executions[2]?, state.executions[3]?)) =
        some (some ⟨2, 90, false, none, .creating, .notStarted⟩,
          some ⟨2, 60, true, none, .creating, .notStarted⟩) := by decide +kernel

end Metidos.CronRunner
