import Metidos.Procedures.ConcurrencyRuns

/-!
What holds in every state of a run of a concurrency limit: the bound, the count, the order of the
starts, and that no task that waits is forgotten.
-/

namespace Metidos.Procedures

open Transition

def LimitEvent.goesOn : LimitEvent → Bool
  | run _ => false
  | abort _ => false
  | handleAbort _ => true
  | callCallback _ => true
  | callbackSettles _ _ => true
  | passOutcome _ => true
  | finish _ => true

theorem concurrencyOf_pos {maxConcurrent : JsNumber} {bound : Nat}
    (isBound : concurrencyOf maxConcurrent = some bound) : 0 < bound := by
  cases maxConcurrent with
  | nan => exact Option.some.inj isBound ▸ Nat.one_pos
  | negativeInfinity => exact Option.some.inj isBound ▸ Nat.one_pos
  | infinity => cases isBound
  | finite value =>
    rw [← Option.some.inj isBound]
    exact Nat.lt_of_lt_of_le Nat.one_pos (Nat.le_max_left _ _)

namespace LimitState

variable {maxConcurrent : JsNumber} {state next : LimitState} {task : Nat} {event : LimitEvent}

structure Sound (concurrency : Option Nat) (state : LimitState) : Prop where
  fits : Fits state
  busy : Busy concurrency state
  bounded : Bounded concurrency state

theorem sound_initial (concurrency : Option Nat) : Sound concurrency .initial where
  fits := fits_initial
  busy := fun waiting => absurd rfl waiting
  bounded := fun _ _ => Nat.zero_le _

theorem Fits.started_of_phase (fits : Fits state) (created : task < state.taskCount)
    (phase : (state.tasks task).phase ≠ .waiting) : task ∈ state.starts := by
  by_contra unstarted
  by_cases isPending : task ∈ state.pendingTasks
  · exact phase (fits.pending task isPending).2.1
  · exact phase (fits.dropped task created unstarted isPending).2.2.2

theorem Fits.pending_of_listening (fits : Fits state) (created : task < state.taskCount)
    (listening : (state.tasks task).listening = true) : task ∈ state.pendingTasks := by
  by_contra notPending
  by_cases started : task ∈ state.starts
  · rw [(fits.started task started).2.2] at listening
    cases listening
  · rw [(fits.dropped task created started notPending).2.2.1] at listening
    cases listening

theorem Fits.activeCount_pos (fits : Fits state) (started : task ∈ state.starts)
    (isActive : (state.tasks task).phase.active = 1) : 0 < state.activeCount := by
  have others : ∀ other, other ≠ task →
      ((state.setPhase task .done).tasks other).phase = (state.tasks other).phase :=
    fun other differs => by rw [setPhase, updateTask_other state differs]
  have weighed : (state.setPhase task .done).weigh LimitPhase.active + _ =
      state.weigh LimitPhase.active + _ := weigh_update fits.once started rfl others
  have isDone : ((state.setPhase task .done).tasks task).phase.active = 0 := by
    rw [setPhase, updateTask_self]
    rfl
  have counted := fits.counted
  omega

theorem advances_update (update : LimitedTask → LimitedTask) (count : Nat)
    (signal : (update (state.tasks task)).signal = (state.tasks task).signal)
    (listening : (update (state.tasks task)).listening = (state.tasks task).listening)
    (notWaiting : (update (state.tasks task)).phase ≠ .waiting)
    (settled : (update (state.tasks task)).outcome.isSome = true ↔
      (update (state.tasks task)).phase = .closing ∨ (update (state.tasks task)).phase = .done)
    (kept : ∀ outcome, (state.tasks task).outcome = some outcome →
      (update (state.tasks task)).outcome = some outcome)
    (counted : count + (state.tasks task).phase.active =
      state.activeCount + (update (state.tasks task)).phase.active) :
    Advances state { state.updateTask task update with activeCount := count } task where
  pendingTasks := rfl
  taskCount := rfl
  abortedSignals := rfl
  starts := rfl
  others := fun other differs => by simp [updateTask, differs]
  signal := by simpa [updateTask] using signal
  listening := by simpa [updateTask] using listening
  phase := by simpa [updateTask] using notWaiting
  settled := by simpa [updateTask] using settled
  outcome := by simpa [updateTask] using kept
  counted := by simpa [updateTask] using counted

theorem Fits.advances_setPhase (fits : Fits state) (started : task ∈ state.starts)
    {phase : LimitPhase} (isActive : (state.tasks task).phase.active = 1)
    (opened : (state.tasks task).phase ≠ .closing) (nextActive : phase.active = 1)
    (nextOpened : phase ≠ .closing) : Advances state (state.setPhase task phase) task := by
  have unsettled := fits.settled task started
  refine advances_update (fun found => { found with phase }) state.activeCount rfl rfl ?_ ?_
    (fun _ settled => settled) ?_
  · intro waits
    have isWaiting : phase = .waiting := waits
    rw [isWaiting] at nextActive
    cases nextActive
  · have notDone : (state.tasks task).phase ≠ .done := by
      intro isDone
      rw [isDone] at isActive
      cases isActive
    have nextNotDone : phase ≠ .done := by
      intro isDone
      rw [isDone] at nextActive
      cases nextActive
    simpa [opened, notDone, nextOpened, nextNotDone] using unsettled
  · rw [isActive]
    exact congrArg _ nextActive.symm

theorem Fits.advances_passOutcome (fits : Fits state) (started : task ∈ state.starts)
    {outcome : LimitOutcome} (phase : (state.tasks task).phase = .ended outcome) :
    Advances state ((state.settle task outcome).setPhase task .closing) task := by
  have both : (state.settle task outcome).setPhase task .closing =
      { state.updateTask task fun found =>
          { found with outcome := found.outcome.or (some outcome), phase := .closing } with
        activeCount := state.activeCount } := by
    rw [settle, setPhase, updateTask, updateTask, updateTask]
    congr 1
    funext other
    by_cases isTask : other = task
    · simp [isTask]
    · simp [isTask]
  have unsettled := fits.settled task started
  rw [phase] at unsettled
  rw [both]
  refine advances_update _ state.activeCount rfl rfl (by simp) ?_ ?_ ?_
  · cases (state.tasks task).outcome <;> simp
  · intro known settled
    rw [settled]
    rfl
  · rw [phase]
    rfl

theorem Fits.advances_done (fits : Fits state) (started : task ∈ state.starts)
    (phase : (state.tasks task).phase = .closing) :
    Advances state { state.setPhase task .done with activeCount := state.activeCount - 1 } task := by
  have isActive : (state.tasks task).phase.active = 1 := by
    rw [phase]
    rfl
  have positive := fits.activeCount_pos started isActive
  refine advances_update (fun found => { found with phase := .done }) _ rfl rfl (by simp) ?_
    (fun _ settled => settled) ?_
  · have settled := (fits.settled task started).mpr (Or.inl phase)
    simp [settled]
  · rw [isActive]
    simp only [LimitPhase.active]
    omega

theorem Sound.step (sound : Sound (concurrencyOf maxConcurrent) state)
    (stepped : limitStep maxConcurrent state event = some next) :
    Sound (concurrencyOf maxConcurrent) next ∧ Follows state next ∧
      (event.goesOn = true → next.work < state.work) := by
  obtain ⟨fits, busy, bounded⟩ := sound
  cases event with
  | run signal =>
    simp only [limitStep, Option.some.injEq] at stepped
    have scheduled := (fits.submit signal).scheduleTasks bounded rfl
    rw [← stepped]
    exact ⟨⟨scheduled.fits, scheduled.busy, scheduled.bounded⟩,
      .trans fits (fits.follows_submit signal) scheduled.follows, fun goesOn => by cases goesOn⟩
  | abort signal =>
    simp only [limitStep, Option.some.injEq] at stepped
    rw [← stepped]
    exact ⟨⟨fits.abort signal, busy, bounded⟩, follows_abort state signal,
      fun goesOn => by cases goesOn⟩
  | handleAbort task =>
    simp only [limitStep] at stepped
    split at stepped
    · rename_i handled
      obtain ⟨created, listening, isAborted⟩ := handled
      have member := fits.pending_of_listening created listening
      rw [← Option.some.inj stepped]
      refine ⟨⟨fits.handleAbort member isAborted, fun _ => ?_, bounded⟩,
        fits.follows_handleAbort member, fun _ => fits.work_handleAbort member⟩
      exact busy (List.ne_nil_of_mem member)
    · cases stepped
  | callCallback task =>
    simp only [limitStep] at stepped
    split at stepped
    · rename_i isStarted
      obtain ⟨created, phase⟩ := isStarted
      have started := fits.started_of_phase created (by simp [phase])
      have advances : Advances state (state.setPhase task .running) task :=
        fits.advances_setPhase started (by rw [phase]; rfl) (by simp [phase]) rfl (by simp)
      have fewer := fits.work_advance started advances
        (by simp [phase, setPhase, updateTask, LimitPhase.stepsLeft])
      rw [← Option.some.inj stepped]
      exact ⟨⟨fits.advance started advances, busy, bounded⟩,
        fits.follows_advance started advances, fun _ => fewer⟩
    · cases stepped
  | callbackSettles task fulfilled =>
    simp only [limitStep] at stepped
    split at stepped
    · rename_i isRunning
      obtain ⟨created, phase⟩ := isRunning
      have started := fits.started_of_phase created (by simp [phase])
      have advances : Advances state
          (state.setPhase task (.ended (if fulfilled then .fulfilled else .rejected))) task :=
        fits.advances_setPhase started (by rw [phase]; rfl) (by simp [phase]) rfl (by simp)
      have fewer := fits.work_advance started advances
        (by simp [phase, setPhase, updateTask, LimitPhase.stepsLeft])
      rw [← Option.some.inj stepped]
      exact ⟨⟨fits.advance started advances, busy, bounded⟩,
        fits.follows_advance started advances, fun _ => fewer⟩
    · cases stepped
  | passOutcome task =>
    simp only [limitStep] at stepped
    split at stepped
    · rename_i outcome phase
      split at stepped
      · rename_i created
        have started := fits.started_of_phase created (by simp [phase])
        have advances := fits.advances_passOutcome started phase
        have fewer := fits.work_advance started advances
          (by simp [phase, settle, setPhase, updateTask, LimitPhase.stepsLeft])
        rw [← Option.some.inj stepped]
        exact ⟨⟨fits.advance started advances, busy, bounded⟩,
          fits.follows_advance started advances, fun _ => fewer⟩
      · cases stepped
    · cases stepped
  | finish task =>
    simp only [limitStep] at stepped
    split at stepped
    · rename_i isClosing
      obtain ⟨created, phase⟩ := isClosing
      have started := fits.started_of_phase created (by simp [phase])
      have advances := fits.advances_done started phase
      have fewer := fits.work_advance started advances
        (by simp [phase, setPhase, updateTask, LimitPhase.stepsLeft])
      have within : Bounded (concurrencyOf maxConcurrent)
          { state.setPhase task .done with activeCount := state.activeCount - 1 } :=
        fun bound isBound => Nat.le_trans (Nat.sub_le _ _) (bounded bound isBound)
      have scheduled := (fits.advance started advances).scheduleTasks within rfl
      rw [← Option.some.inj stepped]
      exact ⟨⟨scheduled.fits, scheduled.busy, scheduled.bounded⟩,
        .trans fits (fits.follows_advance started advances) scheduled.follows,
        fun _ => Nat.lt_of_le_of_lt scheduled.work fewer⟩
    · cases stepped

theorem sum_map_eq_lengths {tasks : List Nat} {weight : Nat → Nat} {one other : Nat → Bool}
    (each : ∀ task ∈ tasks, weight task = (one task).toNat + (other task).toNat) :
    (tasks.map weight).sum = (tasks.filter one).length + (tasks.filter other).length := by
  induction tasks with
  | nil => rfl
  | cons task tasks ih =>
    have rest := ih fun other member => each other (List.mem_cons_of_mem _ member)
    rw [List.map_cons, List.sum_cons, rest, each task List.mem_cons_self, List.filter_cons,
      List.filter_cons]
    cases one task <;> cases other task <;> simp <;> omega

def isUnsettled (state : LimitState) (task : Nat) : Bool := (state.tasks task).outcome.isNone

def isClosing (state : LimitState) (task : Nat) : Bool := (state.tasks task).phase = .closing

structure TasksKept (maxConcurrent : JsNumber) (state : LimitState) : Prop where
  bounded : ∀ bound, concurrencyOf maxConcurrent = some bound → state.activeCount ≤ bound
  counted : state.activeCount = (state.starts.filter state.isUnsettled).length +
    (state.starts.filter state.isClosing).length
  ordered : state.starts.Pairwise (· < ·)
  behind : ∀ task ∈ state.pendingTasks, ∀ started ∈ state.starts, started < task
  unstarted : ∀ task < state.taskCount, task ∉ state.starts →
    (state.tasks task).phase = .waiting ∧
      (task ∈ state.pendingTasks ∧ (state.tasks task).outcome = none ∨
        state.isAborted task = true ∧ (state.tasks task).outcome = some .aborted)
  busy : state.pendingTasks ≠ [] → concurrencyOf maxConcurrent = some state.activeCount

theorem Fits.counts (fits : Fits state) : state.activeCount =
    (state.starts.filter state.isUnsettled).length +
      (state.starts.filter state.isClosing).length := by
  rw [fits.counted, weigh]
  refine sum_map_eq_lengths fun task started => ?_
  obtain ⟨_, notWaiting, _⟩ := fits.started task started
  have settled := fits.settled task started
  rw [isUnsettled, isClosing]
  cases phase : (state.tasks task).phase with
  | waiting => exact absurd phase notWaiting
  | started =>
    simp only [phase] at settled
    cases outcome : (state.tasks task).outcome <;> simp [outcome, LimitPhase.active] at settled ⊢
  | running =>
    simp only [phase] at settled
    cases outcome : (state.tasks task).outcome <;> simp [outcome, LimitPhase.active] at settled ⊢
  | ended result =>
    simp only [phase] at settled
    cases outcome : (state.tasks task).outcome <;> simp [outcome, LimitPhase.active] at settled ⊢
  | closing =>
    simp only [phase] at settled
    cases outcome : (state.tasks task).outcome <;> simp [outcome, LimitPhase.active] at settled ⊢
  | done =>
    simp only [phase] at settled
    cases outcome : (state.tasks task).outcome <;> simp [outcome, LimitPhase.active] at settled ⊢

theorem Sound.kept (sound : Sound (concurrencyOf maxConcurrent) state) :
    TasksKept maxConcurrent state where
  bounded := sound.bounded
  counted := sound.fits.counts
  ordered := sound.fits.ordered
  behind := fun task isPending started isStarted =>
    sound.fits.behind started isStarted task isPending
  unstarted := by
    intro task created unstarted
    by_cases isPending : task ∈ state.pendingTasks
    · obtain ⟨_, phase, outcome⟩ := sound.fits.pending task isPending
      exact ⟨phase, Or.inl ⟨isPending, outcome⟩⟩
    · obtain ⟨isAborted, outcome, _, phase⟩ := sound.fits.dropped task created unstarted isPending
      exact ⟨phase, Or.inr ⟨isAborted, outcome⟩⟩
  busy := by
    intro waiting
    have full := sound.busy waiting
    cases bound : concurrencyOf maxConcurrent with
    | none =>
      rw [bound] at full
      cases full
    | some bound' =>
      have within := sound.bounded bound' bound
      rw [bound] at full
      have reached : ¬state.activeCount < bound' := by simpa [isBelow] using full
      rw [Nat.le_antisymm within (Nat.le_of_not_lt reached)]

theorem goesOn_of_active (created : task < state.taskCount)
    (isActive : (state.tasks task).phase.active = 1) :
    ∃ event : LimitEvent, event.goesOn = true ∧
      (limitStep maxConcurrent state event).isSome = true := by
  cases phase : (state.tasks task).phase with
  | waiting =>
    rw [phase] at isActive
    cases isActive
  | started => exact ⟨.callCallback task, rfl, by simp [limitStep, created, phase]⟩
  | running => exact ⟨.callbackSettles task true, rfl, by simp [limitStep, created, phase]⟩
  | ended outcome => exact ⟨.passOutcome task, rfl, by simp [limitStep, created, phase]⟩
  | closing => exact ⟨.finish task, rfl, by simp [limitStep, created, phase]⟩
  | done =>
    rw [phase] at isActive
    cases isActive

theorem Sound.quiet (sound : Sound (concurrencyOf maxConcurrent) state)
    (quiet : ∀ event : LimitEvent, event.goesOn = true →
      limitStep maxConcurrent state event = none) :
    (∀ task ∈ state.starts, (state.tasks task).phase = .done) ∧ state.pendingTasks = [] := by
  have closed : ∀ task ∈ state.starts, (state.tasks task).phase = .done := by
    intro task started
    obtain ⟨created, notWaiting, _⟩ := sound.fits.started task started
    by_contra open'
    have isActive : (state.tasks task).phase.active = 1 := by
      cases phase : (state.tasks task).phase with
      | waiting => exact absurd phase notWaiting
      | started => rfl
      | running => rfl
      | ended outcome => rfl
      | closing => rfl
      | done => exact absurd phase open'
    obtain ⟨event, goesOn, enabled⟩ := @goesOn_of_active maxConcurrent _ _ created isActive
    rw [quiet event goesOn] at enabled
    cases enabled
  refine ⟨closed, ?_⟩
  by_contra waiting
  have positive := concurrencyOf_pos (sound.kept.busy waiting)
  have idle : state.weigh LimitPhase.active = 0 := by
    rw [weigh]
    refine List.sum_eq_zero fun weight member => ?_
    obtain ⟨task, started, isWeight⟩ := List.mem_map.mp member
    rw [← isWeight, closed task started]
    rfl
  have counted := sound.fits.counted
  omega

theorem Fits.handled (fits : Fits state) (isPending : task ∈ state.pendingTasks)
    (listening : (state.tasks task).listening = true) (isAborted : state.isAborted task = true) :
    ∃ next, limitStep maxConcurrent state (.handleAbort task) = some next ∧
      (next.tasks task).outcome = some .aborted := by
  obtain ⟨created, _, unsettled⟩ := fits.pending task isPending
  refine ⟨state.handleAbort task, by simp [limitStep, created, listening, isAborted], ?_⟩
  rw [handleAbort_task, unsettled]
  rfl

def Attended (state : LimitState) (task : Nat) : Prop :=
  task ∈ state.starts ∨ (state.tasks task).outcome = some .aborted ∨
    task ∈ state.pendingTasks ∧
      (state.tasks task).listening = (state.tasks task).signal.isSome

theorem Attended.step (created : task < state.taskCount)
    (follows : Follows state next) (attended : Attended state task) : Attended next task := by
  rcases attended with started | rejected | ⟨isPending, listening⟩
  · exact Or.inl (follows.started started)
  · exact Or.inr (Or.inl (follows.outcome task created _ rejected))
  · rcases follows.attended task isPending with started | rejected | ⟨stillPending, same⟩
    · exact Or.inl started
    · exact Or.inr (Or.inl rejected)
    · refine Or.inr (Or.inr ⟨stillPending, ?_⟩)
      rw [same, listening, follows.signal task created]

end LimitState

open LimitState

variable {maxConcurrent : JsNumber} {state later : LimitState}

theorem reaches_sound (sound : Sound (concurrencyOf maxConcurrent) state)
    (reached : Reaches (limitStep maxConcurrent) Unrestricted state later) :
    Sound (concurrencyOf maxConcurrent) later ∧ Follows state later :=
  reached.invariant
    (fun later => Sound (concurrencyOf maxConcurrent) later ∧ Follows state later)
    ⟨sound, .refl state⟩ fun _ _ _ before _ stepped =>
      ⟨(before.1.step stepped).1, .trans sound.fits before.2 (before.1.step stepped).2.1⟩

theorem reaches_attended {task : Nat} (sound : Sound (concurrencyOf maxConcurrent) state)
    (created : task < state.taskCount) (attended : Attended state task)
    (reached : Reaches (limitStep maxConcurrent) Unrestricted state later) :
    Attended later task := by
  have kept := reached.invariant (fun later => (Sound (concurrencyOf maxConcurrent) later ∧
      task < later.taskCount) ∧ Attended later task) ⟨⟨sound, created⟩, attended⟩
    fun before _ _ holds _ stepped => by
      obtain ⟨⟨isSound, isCreated⟩, isAttended⟩ := holds
      obtain ⟨nextSound, follows, _⟩ := isSound.step stepped
      exact ⟨⟨nextSound, Nat.lt_of_lt_of_le isCreated follows.count⟩,
        isAttended.step isCreated follows⟩
  exact kept.2

/-- The tasks are kept in every state reached, whatever the number given and the order of aborts
and settlements. From there on a task aborted before its start never starts, an outcome stays, and
a waiting task whose signal is aborted is rejected by its listener. The steps of the tasks and of
the listeners come to an end, and then every task has started once or was rejected as aborted. -/
theorem limited_tasks_kept
    (reached : Reaches (limitStep maxConcurrent) Unrestricted .initial state) :
    TasksKept maxConcurrent state ∧
    (∀ later, Reaches (limitStep maxConcurrent) Unrestricted state later →
      (∀ task < state.taskCount,
        (task ∉ state.starts → state.isAborted task = true → task ∉ later.starts) ∧
        ∀ outcome, (state.tasks task).outcome = some outcome →
          (later.tasks task).outcome = some outcome) ∧
      ∀ task ∈ state.pendingTasks, state.isAborted task = false → task ∉ later.starts →
        later.isAborted task = true → (later.tasks task).outcome = some .aborted ∨
          ∃ next, limitStep maxConcurrent later (.handleAbort task) = some next ∧
            (next.tasks task).outcome = some .aborted) ∧
    (∀ event next, event.goesOn = true → limitStep maxConcurrent state event = some next →
      next.work < state.work) ∧
    ((∀ event : LimitEvent, event.goesOn = true → limitStep maxConcurrent state event = none) →
      ∀ task < state.taskCount,
        task ∈ state.starts ∧ (state.tasks task).outcome.isSome = true ∨
        state.isAborted task = true ∧ (state.tasks task).outcome = some .aborted) := by
  have sound := (reaches_sound (sound_initial _) reached).1
  refine ⟨sound.kept, fun later reaches => ⟨fun task created => ?_, ?_⟩,
    fun _ _ goesOn stepped => (sound.step stepped).2.2 goesOn, fun quiet task created => ?_⟩
  · have follows := (reaches_sound sound reaches).2
    exact ⟨follows.barred task created, follows.outcome task created⟩
  · intro task isPending free unstarted isAborted
    obtain ⟨laterSound, follows⟩ := reaches_sound sound reaches
    have created := (sound.fits.pending task isPending).1
    have listening := sound.fits.attentive task isPending free
    have attended := reaches_attended sound created (Or.inr (Or.inr ⟨isPending, listening⟩)) reaches
    rcases attended with started | rejected | ⟨stillPending, stillListening⟩
    · exact absurd started unstarted
    · exact Or.inl rejected
    · refine Or.inr (laterSound.fits.handled stillPending ?_ isAborted)
      rw [stillListening]
      cases signal : (later.tasks task).signal with
      | some signal => rfl
      | none =>
        rw [LimitState.isAborted, signal] at isAborted
        cases isAborted
  · obtain ⟨closed, empty⟩ := sound.quiet quiet
    by_cases started : task ∈ state.starts
    · exact Or.inl ⟨started, (sound.fits.settled task started).mpr (Or.inr (closed task started))⟩
    · refine Or.inr ?_
      rcases (sound.kept.unstarted task created started).2 with ⟨isPending, _⟩ | aborted
      · rw [empty] at isPending
        cases isPending
      · exact aborted

theorem limited_tasks_kept_aborted : ∃ state : LimitState,
    state.starts = [0, 2] ∧ (state.tasks 1).outcome = some .aborted ∧
      TasksKept (.finite 1) state := by
  have ran : ((run (limitStep (.finite 1)) (fun _ _ => true) .initial
      [.run none, .run (some 7), .run none, .callCallback 0, .abort 7, .handleAbort 1,
        .callbackSettles 0 false, .passOutcome 0, .finish 0]).any fun state =>
      state.starts = [0, 2] ∧ (state.tasks 1).outcome = some .aborted) = true := by
    decide +kernel
  obtain ⟨state, isRun, holds⟩ := (Option.any_eq_true _ _).mp ran
  obtain ⟨starts, outcome⟩ := of_decide_eq_true holds
  exact ⟨state, starts, outcome, (limited_tasks_kept (reaches_of_run isRun).unrestricted).1⟩

theorem not_limited_tasks_counted :
    (¬∀ value state, Reaches (limitStep (.finite value)) Unrestricted .initial state →
      (state.activeCount : Rat) ≤ value) ∧
    ¬∀ maxConcurrent state, Reaches (limitStep maxConcurrent) Unrestricted .initial state →
      state.activeCount = (state.starts.filter state.isUnsettled).length := by
  constructor
  · intro within
    have ran : ((run (limitStep (.finite 0)) (fun _ _ => true) .initial [.run none]).any
        fun state => ¬(state.activeCount : Rat) ≤ 0) = true := by decide +kernel
    obtain ⟨state, isRun, exceeds⟩ := (Option.any_eq_true _ _).mp ran
    exact of_decide_eq_true exceeds (within 0 state (reaches_of_run isRun).unrestricted)
  · intro counts
    have ran : ((run (limitStep (.finite 1)) (fun _ _ => true) .initial
        [.run none, .callCallback 0, .callbackSettles 0 true, .passOutcome 0]).any fun state =>
          state.activeCount ≠ (state.starts.filter state.isUnsettled).length) = true := by
      decide +kernel
    obtain ⟨state, isRun, differs⟩ := (Option.any_eq_true _ _).mp ran
    exact of_decide_eq_true differs (counts _ state (reaches_of_run isRun).unrestricted)

end Metidos.Procedures
