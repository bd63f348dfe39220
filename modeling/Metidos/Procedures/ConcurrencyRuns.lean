import Mathlib.Algebra.BigOperators.Group.List.Basic
import Mathlib.Algebra.Ring.Nat
import Metidos.Procedures.ConcurrencyLimit

/-!
How the queue, the counter and the listeners of a concurrency limit fit together in every state of
a run, and what follows for the order and the number of the starts.
-/

namespace Metidos.Procedures

open Transition

namespace LimitPhase

def active : LimitPhase → Nat
  | waiting => 0
  | started => 1
  | running => 1
  | ended _ => 1
  | closing => 1
  | done => 0

def stepsLeft : LimitPhase → Nat
  | waiting => 0
  | started => 4
  | running => 3
  | ended _ => 2
  | closing => 1
  | done => 0

end LimitPhase

namespace LimitState

variable {maxConcurrent : JsNumber} {concurrency : Option Nat} {state next last : LimitState}
  {task : Nat} {rest : List Nat}

def weigh (state : LimitState) (weight : LimitPhase → Nat) : Nat :=
  (state.starts.map fun task => weight (state.tasks task).phase).sum

def work (state : LimitState) : Nat :=
  5 * state.pendingTasks.length + state.weigh LimitPhase.stepsLeft

structure Fits (state : LimitState) : Prop where
  pending : ∀ task ∈ state.pendingTasks, task < state.taskCount ∧
    (state.tasks task).phase = .waiting ∧ (state.tasks task).outcome = none
  sorted : state.pendingTasks.Pairwise (· < ·)
  behind : ∀ started ∈ state.starts, ∀ task ∈ state.pendingTasks, started < task
  ordered : state.starts.Pairwise (· < ·)
  started : ∀ task ∈ state.starts, task < state.taskCount ∧
    (state.tasks task).phase ≠ .waiting ∧ (state.tasks task).listening = false
  settled : ∀ task ∈ state.starts, (state.tasks task).outcome.isSome = true ↔
    (state.tasks task).phase = .closing ∨ (state.tasks task).phase = .done
  dropped : ∀ task < state.taskCount, task ∉ state.starts → task ∉ state.pendingTasks →
    state.isAborted task = true ∧ (state.tasks task).outcome = some .aborted ∧
      (state.tasks task).listening = false ∧ (state.tasks task).phase = .waiting
  attentive : ∀ task ∈ state.pendingTasks, state.isAborted task = false →
    (state.tasks task).listening = (state.tasks task).signal.isSome
  counted : state.activeCount = state.weigh LimitPhase.active

def Busy (concurrency : Option Nat) (state : LimitState) : Prop :=
  state.pendingTasks ≠ [] → isBelow concurrency state.activeCount = false

def Bounded (concurrency : Option Nat) (state : LimitState) : Prop :=
  ∀ bound, concurrency = some bound → state.activeCount ≤ bound

theorem fits_initial : Fits .initial where
  pending := fun _ member => by cases member
  sorted := List.Pairwise.nil
  behind := fun _ member => by cases member
  ordered := List.Pairwise.nil
  started := fun _ member => by cases member
  settled := fun _ member => by cases member
  dropped := fun _ created => by cases created
  attentive := fun _ member => by cases member
  counted := rfl

theorem updateTask_self (state : LimitState) (task : Nat) (update : LimitedTask → LimitedTask) :
    (state.updateTask task update).tasks task = update (state.tasks task) := by
  simp [updateTask]

theorem updateTask_other {other : Nat} (state : LimitState) (differs : other ≠ task)
    (update : LimitedTask → LimitedTask) :
    (state.updateTask task update).tasks other = state.tasks other := by
  simp [updateTask, differs]

theorem weigh_congr {weight : LimitPhase → Nat} (starts : next.starts = state.starts)
    (same : ∀ task ∈ state.starts, (next.tasks task).phase = (state.tasks task).phase) :
    next.weigh weight = state.weigh weight := by
  rw [weigh, weigh, starts]
  congr 1
  exact List.map_congr_left fun task member => by rw [same task member]

theorem weigh_update {weight : LimitPhase → Nat} (once : state.starts.Nodup)
    (member : task ∈ state.starts) (starts : next.starts = state.starts)
    (others : ∀ other, other ≠ task → (next.tasks other).phase = (state.tasks other).phase) :
    next.weigh weight + weight (state.tasks task).phase =
      state.weigh weight + weight (next.tasks task).phase := by
  have split : ∀ tasks : LimitState, tasks.starts = state.starts → tasks.weigh weight =
      weight (tasks.tasks task).phase +
        ((state.starts.erase task).map fun other => weight (tasks.tasks other).phase).sum := by
    intro tasks same
    rw [weigh, same]
    exact (List.sum_map_erase (fun other => weight (tasks.tasks other).phase) member).symm
  have rest : (state.starts.erase task).map (fun other => weight (next.tasks other).phase) =
      (state.starts.erase task).map fun other => weight (state.tasks other).phase := by
    refine List.map_congr_left fun other inside => ?_
    rw [others other (once.mem_erase_iff.mp inside).1]
  rw [split next starts, split state rfl, rest]
  omega

theorem Fits.once (fits : Fits state) : state.starts.Nodup :=
  fits.ordered.imp fun less => Nat.ne_of_lt less

theorem Fits.unique (fits : Fits state) : state.pendingTasks.Nodup :=
  fits.sorted.imp fun less => Nat.ne_of_lt less

theorem Fits.unstarted (fits : Fits state) (member : task ∈ state.pendingTasks) :
    task ∉ state.starts :=
  fun started => absurd (fits.behind task started task member) (Nat.lt_irrefl task)

theorem Fits.differs {other : Nat} (fits : Fits state) (member : task ∈ state.pendingTasks)
    (started : other ∈ state.starts) : other ≠ task := by
  intro isTask
  rw [isTask] at started
  exact fits.unstarted member started

theorem handleAbort_task (state : LimitState) (task : Nat) :
    (state.handleAbort task).tasks task =
      { state.tasks task with
        listening := false
        outcome := (state.tasks task).outcome.or (some .aborted) } := by
  simp [handleAbort, settle, detachAbortListener, removePendingTask, updateTask]

theorem handleAbort_other {other : Nat} (state : LimitState) (differs : other ≠ task) :
    (state.handleAbort task).tasks other = state.tasks other := by
  simp [handleAbort, settle, detachAbortListener, removePendingTask, updateTask, differs]

theorem handleAbort_isAborted (state : LimitState) (task other : Nat) :
    (state.handleAbort task).isAborted other = state.isAborted other := by
  by_cases same : other = task
  · rw [isAborted, same, handleAbort_task]
    rfl
  · rw [isAborted, handleAbort_other state same]
    rfl

theorem Fits.handleAbort (fits : Fits state) (member : task ∈ state.pendingTasks)
    (isAborted : state.isAborted task = true) : Fits (state.handleAbort task) := by
  have remains : ∀ other, other ∈ (state.handleAbort task).pendingTasks ↔
      other ≠ task ∧ other ∈ state.pendingTasks :=
    fun other => fits.unique.mem_erase_iff
  have same : ∀ other ∈ state.starts,
      (state.handleAbort task).tasks other = state.tasks other :=
    fun other started => handleAbort_other state (fits.differs member started)
  constructor
  · intro other inside
    obtain ⟨differs, isPending⟩ := (remains other).mp inside
    rw [handleAbort_other state differs]
    exact fits.pending other isPending
  · exact fits.sorted.sublist List.erase_sublist
  · intro started isStarted other inside
    exact fits.behind started isStarted other ((remains other).mp inside).2
  · exact fits.ordered
  · intro other isStarted
    rw [same other isStarted]
    exact fits.started other isStarted
  · intro other isStarted
    rw [same other isStarted]
    exact fits.settled other isStarted
  · intro other created unstarted notPending
    rw [handleAbort_isAborted]
    by_cases isTask : other = task
    · obtain ⟨_, waiting, unsettled⟩ := fits.pending task member
      rw [isTask, handleAbort_task, unsettled]
      exact ⟨isAborted, rfl, rfl, waiting⟩
    · rw [handleAbort_other state isTask]
      exact fits.dropped other created unstarted
        fun isPending => notPending ((remains other).mpr ⟨isTask, isPending⟩)
  · intro other inside
    obtain ⟨differs, isPending⟩ := (remains other).mp inside
    rw [handleAbort_isAborted, handleAbort_other state differs]
    exact fits.attentive other isPending
  · have kept : (state.handleAbort task).weigh LimitPhase.active =
        state.weigh LimitPhase.active :=
      weigh_congr rfl fun other started => by rw [same other started]
    rw [kept]
    exact fits.counted

def startNext (state : LimitState) (task : Nat) (rest : List Nat) : LimitState :=
  { state with pendingTasks := rest }.start task

theorem startNext_task (state : LimitState) (task : Nat) (rest : List Nat) :
    (state.startNext task rest).tasks task =
      { state.tasks task with listening := false, phase := .started } := by
  simp [startNext, start, setPhase, detachAbortListener, updateTask]

theorem startNext_other {other : Nat} (state : LimitState) (differs : other ≠ task)
    (rest : List Nat) : (state.startNext task rest).tasks other = state.tasks other := by
  simp [startNext, start, setPhase, detachAbortListener, updateTask, differs]

theorem startNext_isAborted (state : LimitState) (task : Nat) (rest : List Nat) (other : Nat) :
    (state.startNext task rest).isAborted other = state.isAborted other := by
  by_cases same : other = task
  · rw [isAborted, same, startNext_task]
    rfl
  · rw [isAborted, startNext_other state same]
    rfl

theorem mem_startNext {other : Nat} :
    other ∈ (state.startNext task rest).starts ↔ other ∈ state.starts ∨ other = task := by
  simp [startNext, start]

theorem startNext_weigh (fits : Fits state) (isNext : state.pendingTasks = task :: rest)
    (weight : LimitPhase → Nat) :
    (state.startNext task rest).weigh weight = state.weigh weight + weight .started := by
  have member : task ∈ state.pendingTasks := by
    rw [isNext]
    exact List.mem_cons_self
  have same : state.starts.map (fun other =>
        weight ((state.startNext task rest).tasks other).phase) =
      state.starts.map fun other => weight (state.tasks other).phase := by
    refine List.map_congr_left fun other started => ?_
    rw [startNext_other state (fits.differs member started)]
  have starts : (state.startNext task rest).starts = state.starts ++ [task] := rfl
  rw [weigh, starts, List.map_append, same, List.sum_append, weigh]
  simp [startNext_task]

theorem Fits.startNext (fits : Fits state) (isNext : state.pendingTasks = task :: rest) :
    Fits (state.startNext task rest) := by
  have sorted := fits.sorted
  rw [isNext] at sorted
  obtain ⟨later, restSorted⟩ := List.pairwise_cons.mp sorted
  have member : task ∈ state.pendingTasks := by
    rw [isNext]
    exact List.mem_cons_self
  have inRest : ∀ other ∈ rest, other ∈ state.pendingTasks ∧ other ≠ task := by
    intro other inside
    rw [isNext]
    exact ⟨List.mem_cons_of_mem _ inside, Nat.ne_of_gt (later other inside)⟩
  have same : ∀ other ∈ state.starts,
      (state.startNext task rest).tasks other = state.tasks other :=
    fun other started => startNext_other state (fits.differs member started) rest
  constructor
  · intro other inside
    obtain ⟨isPending, differs⟩ := inRest other inside
    rw [startNext_other state differs]
    exact fits.pending other isPending
  · exact restSorted
  · intro started isStarted other inside
    rcases mem_startNext.mp isStarted with before | isTask
    · exact fits.behind started before other (inRest other inside).1
    · rw [isTask]
      exact later other inside
  · refine List.pairwise_append.mpr ⟨fits.ordered, List.pairwise_singleton _ _, ?_⟩
    intro started isStarted other isTask
    rw [List.mem_singleton.mp isTask]
    exact fits.behind started isStarted task member
  · intro other isStarted
    rcases mem_startNext.mp isStarted with before | isTask
    · rw [same other before]
      exact fits.started other before
    · rw [isTask, startNext_task]
      exact ⟨(fits.pending task member).1, by simp, rfl⟩
  · intro other isStarted
    rcases mem_startNext.mp isStarted with before | isTask
    · rw [same other before]
      exact fits.settled other before
    · rw [isTask, startNext_task, (fits.pending task member).2.2]
      simp
  · intro other created unstarted notPending
    have differs : other ≠ task := fun isTask => unstarted (mem_startNext.mpr (Or.inr isTask))
    rw [startNext_isAborted, startNext_other state differs]
    refine fits.dropped other created (fun started => unstarted (mem_startNext.mpr (Or.inl started)))
      fun isPending => ?_
    rw [isNext] at isPending
    rcases List.mem_cons.mp isPending with isTask | inside
    · exact differs isTask
    · exact notPending inside
  · intro other inside
    obtain ⟨isPending, differs⟩ := inRest other inside
    rw [startNext_isAborted, startNext_other state differs]
    exact fits.attentive other isPending
  · rw [startNext_weigh fits isNext, ← fits.counted]
    rfl

structure Follows (state next : LimitState) : Prop where
  count : state.taskCount ≤ next.taskCount
  starts : ∃ more, next.starts = state.starts ++ more
  signal : ∀ task < state.taskCount, (next.tasks task).signal = (state.tasks task).signal
  aborted : ∀ task < state.taskCount, state.isAborted task = true → next.isAborted task = true
  outcome : ∀ task < state.taskCount, ∀ outcome, (state.tasks task).outcome = some outcome →
    (next.tasks task).outcome = some outcome
  barred : ∀ task < state.taskCount, task ∉ state.starts → state.isAborted task = true →
    task ∉ next.starts
  attended : ∀ task ∈ state.pendingTasks, task ∈ next.starts ∨
    (next.tasks task).outcome = some .aborted ∨
      task ∈ next.pendingTasks ∧ (next.tasks task).listening = (state.tasks task).listening

theorem Follows.refl (state : LimitState) : Follows state state where
  count := Nat.le_refl _
  starts := ⟨[], (List.append_nil _).symm⟩
  signal := fun _ _ => rfl
  aborted := fun _ _ isAborted => isAborted
  outcome := fun _ _ _ settled => settled
  barred := fun _ _ unstarted _ => unstarted
  attended := fun _ isPending => Or.inr (Or.inr ⟨isPending, rfl⟩)

theorem Follows.started (follows : Follows state next) (started : task ∈ state.starts) :
    task ∈ next.starts := by
  obtain ⟨more, starts⟩ := follows.starts
  rw [starts]
  exact List.mem_append_left _ started

theorem Follows.trans (fits : Fits state) (first : Follows state next)
    (second : Follows next last) : Follows state last where
  count := Nat.le_trans first.count second.count
  starts := by
    obtain ⟨more, starts⟩ := first.starts
    obtain ⟨later, lastStarts⟩ := second.starts
    exact ⟨more ++ later, by rw [lastStarts, starts, List.append_assoc]⟩
  signal := fun task created => by
    rw [second.signal task (Nat.lt_of_lt_of_le created first.count), first.signal task created]
  aborted := fun task created isAborted =>
    second.aborted task (Nat.lt_of_lt_of_le created first.count) (first.aborted task created isAborted)
  outcome := fun task created outcome settled =>
    second.outcome task (Nat.lt_of_lt_of_le created first.count) outcome
      (first.outcome task created outcome settled)
  barred := fun task created unstarted isAborted =>
    second.barred task (Nat.lt_of_lt_of_le created first.count)
      (first.barred task created unstarted isAborted) (first.aborted task created isAborted)
  attended := by
    intro task isPending
    have created := Nat.lt_of_lt_of_le (fits.pending task isPending).1 first.count
    rcases first.attended task isPending with started | rejected | ⟨stillPending, listening⟩
    · exact Or.inl (second.started started)
    · exact Or.inr (Or.inl (second.outcome task created _ rejected))
    · have next := second.attended task stillPending
      rwa [listening] at next

theorem Fits.follows_handleAbort (fits : Fits state) (member : task ∈ state.pendingTasks) :
    Follows state (state.handleAbort task) where
  count := Nat.le_refl _
  starts := ⟨[], (List.append_nil _).symm⟩
  signal := by
    intro other _
    by_cases isTask : other = task
    · rw [isTask, handleAbort_task]
    · rw [handleAbort_other state isTask]
  aborted := fun other _ isAborted => by rwa [handleAbort_isAborted]
  outcome := by
    intro other created outcome settled
    by_cases isTask : other = task
    · rw [isTask, (fits.pending task member).2.2] at settled
      cases settled
    · rwa [handleAbort_other state isTask]
  barred := fun _ _ unstarted _ => unstarted
  attended := by
    intro other isPending
    by_cases isTask : other = task
    · rw [isTask, handleAbort_task, (fits.pending task member).2.2]
      exact Or.inr (Or.inl rfl)
    · rw [handleAbort_other state isTask]
      exact Or.inr (Or.inr ⟨fits.unique.mem_erase_iff.mpr ⟨isTask, isPending⟩, rfl⟩)

theorem follows_startNext (isNext : state.pendingTasks = task :: rest)
    (free : state.isAborted task = false) : Follows state (state.startNext task rest) where
  count := Nat.le_refl _
  starts := ⟨[task], rfl⟩
  signal := by
    intro other _
    by_cases isTask : other = task
    · rw [isTask, startNext_task]
    · rw [startNext_other state isTask]
  aborted := fun other _ isAborted => by rwa [startNext_isAborted]
  outcome := by
    intro other created outcome settled
    by_cases isTask : other = task
    · rw [isTask] at settled
      rwa [isTask, startNext_task]
    · rwa [startNext_other state isTask]
  barred := by
    intro other created unstarted isAborted started
    rcases mem_startNext.mp started with before | isTask
    · exact unstarted before
    · rw [isTask, free] at isAborted
      cases isAborted
  attended := by
    intro other isPending
    rw [isNext] at isPending
    by_cases isTask : other = task
    · exact Or.inl (mem_startNext.mpr (Or.inr isTask))
    · rw [startNext_other state isTask]
      exact Or.inr (Or.inr ⟨(List.mem_cons.mp isPending).resolve_left isTask, rfl⟩)

theorem isBelow_lt {bound count : Nat} (below : isBelow (some bound) count = true) :
    count < bound := by
  simpa [isBelow] using below

theorem Fits.work_handleAbort (fits : Fits state) (member : task ∈ state.pendingTasks) :
    (state.handleAbort task).work < state.work := by
  have kept : (state.handleAbort task).weigh LimitPhase.stepsLeft =
      state.weigh LimitPhase.stepsLeft :=
    weigh_congr rfl fun other started => by
      rw [handleAbort_other state (fits.differs member started)]
  have fewer : (state.handleAbort task).pendingTasks.length = state.pendingTasks.length - 1 :=
    List.length_erase_of_mem member
  have some := List.length_pos_of_mem member
  rw [work, work, kept, fewer]
  omega

theorem Fits.work_startNext (fits : Fits state) (isNext : state.pendingTasks = task :: rest) :
    (state.startNext task rest).work < state.work := by
  have fewer : (state.startNext task rest).pendingTasks = rest := rfl
  rw [work, work, startNext_weigh fits isNext, fewer, isNext, List.length_cons,
    LimitPhase.stepsLeft]
  omega

structure Scheduled (concurrency : Option Nat) (state next : LimitState) : Prop where
  fits : Fits next
  busy : Busy concurrency next
  bounded : Bounded concurrency next
  follows : Follows state next
  work : next.work ≤ state.work

theorem Fits.scheduleTasks {queue : List Nat} (fits : Fits state)
    (bounded : Bounded concurrency state) (isQueue : state.pendingTasks = queue) :
    Scheduled concurrency state (LimitState.scheduleTasks concurrency state queue) := by
  induction queue generalizing state with
  | nil =>
    have same : { state with pendingTasks := [] } = state := by rw [← isQueue]
    rw [LimitState.scheduleTasks, same]
    exact ⟨fits, fun waiting => absurd isQueue waiting, bounded, .refl state, Nat.le_refl _⟩
  | cons task rest ih =>
    rw [LimitState.scheduleTasks]
    split
    · rename_i below
      have member : task ∈ state.pendingTasks := by
        rw [isQueue]
        exact List.mem_cons_self
      have isRest : state.pendingTasks.erase task = rest := by
        rw [isQueue]
        exact List.erase_cons_head task rest
      dsimp only
      split
      · rename_i isAborted
        have same : ({ state with pendingTasks := rest }.detachAbortListener task).settle task
            .aborted = state.handleAbort task := by
          rw [LimitState.handleAbort, removePendingTask, isRest]
        have rejected := fits.handleAbort member isAborted
        have next := ih rejected bounded isRest
        have less := fits.work_handleAbort member
        rw [same]
        exact ⟨next.fits, next.busy, next.bounded,
          .trans fits (fits.follows_handleAbort member) next.follows,
          Nat.le_trans next.work (Nat.le_of_lt less)⟩
      · rename_i unaborted
        have free : state.isAborted task = false := Bool.eq_false_iff.mpr unaborted
        have started := fits.startNext isQueue
        have within : Bounded concurrency (state.startNext task rest) := by
          intro bound isBound
          rw [isBound] at below
          exact isBelow_lt below
        have next := ih started within rfl
        have less := fits.work_startNext isQueue
        exact ⟨next.fits, next.busy, next.bounded,
          .trans fits (follows_startNext isQueue free) next.follows,
          Nat.le_trans next.work (Nat.le_of_lt less)⟩
    · rename_i full
      exact ⟨fits, fun _ => Bool.eq_false_iff.mpr full, bounded, .refl state, Nat.le_refl _⟩

theorem submit_task (state : LimitState) (signal : Option Nat) :
    (state.submit signal).tasks state.taskCount =
      { signal
        listening := signal.any fun signal => !state.abortedSignals.contains signal
        phase := .waiting, outcome := none } := by
  simp [submit]

theorem submit_other {signal : Option Nat} (state : LimitState) (created : task < state.taskCount) :
    (state.submit signal).tasks task = state.tasks task := by
  simp [submit, Nat.ne_of_lt created]

theorem submit_isAborted {signal : Option Nat} (state : LimitState)
    (created : task < state.taskCount) :
    (state.submit signal).isAborted task = state.isAborted task := by
  rw [isAborted, submit_other state created]
  rfl

theorem Fits.submit (fits : Fits state) (signal : Option Nat) : Fits (state.submit signal) := by
  have inside : ∀ task ∈ (state.submit signal).pendingTasks,
      task ∈ state.pendingTasks ∨ task = state.taskCount := by
    intro task member
    simpa [LimitState.submit] using member
  have earlier : ∀ task ∈ state.starts, (state.submit signal).tasks task = state.tasks task :=
    fun task started => submit_other state (fits.started task started).1
  constructor
  · intro task member
    rcases inside task member with before | isNew
    · obtain ⟨created, kept⟩ := fits.pending task before
      rw [submit_other state created]
      exact ⟨Nat.lt_succ_of_lt created, kept⟩
    · rw [isNew, submit_task]
      exact ⟨Nat.lt_succ_self _, rfl, rfl⟩
  · refine List.pairwise_append.mpr ⟨fits.sorted, List.pairwise_singleton _ _, ?_⟩
    intro task member other isNew
    rw [List.mem_singleton.mp isNew]
    exact (fits.pending task member).1
  · intro started isStarted task member
    rcases inside task member with before | isNew
    · exact fits.behind started isStarted task before
    · rw [isNew]
      exact (fits.started started isStarted).1
  · exact fits.ordered
  · intro task isStarted
    obtain ⟨created, kept⟩ := fits.started task isStarted
    rw [earlier task isStarted]
    exact ⟨Nat.lt_succ_of_lt created, kept⟩
  · intro task isStarted
    rw [earlier task isStarted]
    exact fits.settled task isStarted
  · intro task created unstarted notPending
    have isEarlier : task < state.taskCount := by
      refine Nat.lt_of_le_of_ne (Nat.le_of_lt_succ created) fun isNew => notPending ?_
      exact List.mem_append_right _ (List.mem_singleton.mpr isNew)
    rw [submit_isAborted state isEarlier, submit_other state isEarlier]
    exact fits.dropped task isEarlier unstarted fun before =>
      notPending (List.mem_append_left _ before)
  · intro task member free
    rcases inside task member with before | isNew
    · have created := (fits.pending task before).1
      rw [submit_isAborted state created] at free
      rw [submit_other state created]
      exact fits.attentive task before free
    · rw [isAborted, isNew, submit_task] at free
      rw [isNew, submit_task]
      cases signal with
      | none => rfl
      | some signal =>
        have unaborted : state.abortedSignals.contains signal = false := free
        exact congrArg not unaborted
  · have kept : (state.submit signal).weigh LimitPhase.active = state.weigh LimitPhase.active :=
      weigh_congr rfl fun task started => by rw [earlier task started]
    rw [kept]
    exact fits.counted

theorem Fits.follows_submit (fits : Fits state) (signal : Option Nat) :
    Follows state (state.submit signal) where
  count := Nat.le_succ _
  starts := ⟨[], (List.append_nil _).symm⟩
  signal := fun task created => by rw [submit_other state created]
  aborted := fun task created isAborted => by rwa [submit_isAborted state created]
  outcome := fun task created outcome settled => by rwa [submit_other state created]
  barred := fun _ _ unstarted _ => unstarted
  attended := by
    intro task isPending
    rw [submit_other state (fits.pending task isPending).1]
    exact Or.inr (Or.inr ⟨List.mem_append_left _ isPending, rfl⟩)

theorem isAborted_abort (state : LimitState) (signal task : Nat) :
    { state with abortedSignals := signal :: state.abortedSignals }.isAborted task =
      (state.isAborted task || (state.tasks task).signal == some signal) := by
  cases given : (state.tasks task).signal with
  | none => simp [isAborted, given]
  | some own =>
    rw [isAborted, isAborted, given]
    exact List.contains_cons.trans (Bool.or_comm _ _)

theorem Fits.abort (fits : Fits state) (signal : Nat) :
    Fits { state with abortedSignals := signal :: state.abortedSignals } := by
  constructor
  · exact fits.pending
  · exact fits.sorted
  · exact fits.behind
  · exact fits.ordered
  · exact fits.started
  · exact fits.settled
  · intro task created unstarted notPending
    obtain ⟨isAborted, kept⟩ := fits.dropped task created unstarted notPending
    rw [isAborted_abort, isAborted]
    exact ⟨rfl, kept⟩
  · intro task member free
    rw [isAborted_abort, Bool.or_eq_false_iff] at free
    exact fits.attentive task member free.1
  · exact fits.counted

theorem follows_abort (state : LimitState) (signal : Nat) :
    Follows state { state with abortedSignals := signal :: state.abortedSignals } where
  count := Nat.le_refl _
  starts := ⟨[], (List.append_nil _).symm⟩
  signal := fun _ _ => rfl
  aborted := fun task _ isAborted => by rw [isAborted_abort, isAborted, Bool.true_or]
  outcome := fun _ _ _ settled => settled
  barred := fun _ _ unstarted _ => unstarted
  attended := fun _ isPending => Or.inr (Or.inr ⟨isPending, rfl⟩)

structure Advances (state next : LimitState) (task : Nat) : Prop where
  pendingTasks : next.pendingTasks = state.pendingTasks
  taskCount : next.taskCount = state.taskCount
  abortedSignals : next.abortedSignals = state.abortedSignals
  starts : next.starts = state.starts
  others : ∀ other, other ≠ task → next.tasks other = state.tasks other
  signal : (next.tasks task).signal = (state.tasks task).signal
  listening : (next.tasks task).listening = (state.tasks task).listening
  phase : (next.tasks task).phase ≠ .waiting
  settled : (next.tasks task).outcome.isSome = true ↔
    (next.tasks task).phase = .closing ∨ (next.tasks task).phase = .done
  outcome : ∀ outcome, (state.tasks task).outcome = some outcome →
    (next.tasks task).outcome = some outcome
  counted : next.activeCount + (state.tasks task).phase.active =
    state.activeCount + (next.tasks task).phase.active

theorem Advances.isAborted (advances : Advances state next task) (other : Nat) :
    next.isAborted other = state.isAborted other := by
  rw [LimitState.isAborted, LimitState.isAborted, advances.abortedSignals]
  by_cases isTask : other = task
  · rw [isTask, advances.signal]
  · rw [advances.others other isTask]

theorem Advances.weigh (advances : Advances state next task) (fits : Fits state)
    (started : task ∈ state.starts) (weight : LimitPhase → Nat) :
    next.weigh weight + weight (state.tasks task).phase =
      state.weigh weight + weight (next.tasks task).phase :=
  weigh_update fits.once started advances.starts fun other differs => by
    rw [advances.others other differs]

theorem Fits.advance (fits : Fits state) (started : task ∈ state.starts)
    (advances : Advances state next task) : Fits next := by
  have unmoved : ∀ other, other ∉ state.starts → next.tasks other = state.tasks other := by
    intro other unstarted
    refine advances.others other fun isTask => unstarted ?_
    rwa [isTask]
  have unstartedPending : ∀ other ∈ state.pendingTasks, other ∉ state.starts :=
    fun other isPending => fits.unstarted isPending
  constructor
  · intro other isPending
    rw [advances.pendingTasks] at isPending
    rw [advances.taskCount, unmoved other (unstartedPending other isPending)]
    exact fits.pending other isPending
  · rw [advances.pendingTasks]
    exact fits.sorted
  · rw [advances.pendingTasks, advances.starts]
    exact fits.behind
  · rw [advances.starts]
    exact fits.ordered
  · intro other isStarted
    rw [advances.starts] at isStarted
    rw [advances.taskCount]
    by_cases isTask : other = task
    · obtain ⟨created, _, detached⟩ := fits.started task started
      rw [isTask, advances.listening]
      exact ⟨created, advances.phase, detached⟩
    · rw [advances.others other isTask]
      exact fits.started other isStarted
  · intro other isStarted
    rw [advances.starts] at isStarted
    by_cases isTask : other = task
    · rw [isTask]
      exact advances.settled
    · rw [advances.others other isTask]
      exact fits.settled other isStarted
  · intro other created unstarted notPending
    rw [advances.taskCount] at created
    rw [advances.starts] at unstarted
    rw [advances.pendingTasks] at notPending
    rw [advances.isAborted, unmoved other unstarted]
    exact fits.dropped other created unstarted notPending
  · intro other isPending free
    rw [advances.pendingTasks] at isPending
    rw [advances.isAborted] at free
    rw [unmoved other (unstartedPending other isPending)]
    exact fits.attentive other isPending free
  · have weighed := advances.weigh fits started LimitPhase.active
    have moved := advances.counted
    have counted := fits.counted
    omega

theorem Fits.follows_advance (fits : Fits state) (started : task ∈ state.starts)
    (advances : Advances state next task) : Follows state next where
  count := Nat.le_of_eq advances.taskCount.symm
  starts := ⟨[], by rw [advances.starts, List.append_nil]⟩
  signal := by
    intro other _
    by_cases isTask : other = task
    · rw [isTask, advances.signal]
    · rw [advances.others other isTask]
  aborted := fun other _ isAborted => by rwa [advances.isAborted]
  outcome := by
    intro other _ outcome settled
    by_cases isTask : other = task
    · rw [isTask] at settled
      rw [isTask]
      exact advances.outcome outcome settled
    · rwa [advances.others other isTask]
  barred := fun other _ unstarted _ => by rwa [advances.starts]
  attended := by
    intro other isPending
    have differs := (fits.differs isPending started).symm
    rw [advances.pendingTasks, advances.others other differs]
    exact Or.inr (Or.inr ⟨isPending, rfl⟩)

theorem Fits.work_advance (fits : Fits state) (started : task ∈ state.starts)
    (advances : Advances state next task)
    (fewer : (next.tasks task).phase.stepsLeft < (state.tasks task).phase.stepsLeft) :
    next.work < state.work := by
  have weighed := advances.weigh fits started LimitPhase.stepsLeft
  rw [work, work, advances.pendingTasks]
  omega

end LimitState

end Metidos.Procedures
