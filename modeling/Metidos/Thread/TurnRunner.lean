import Metidos.Library.Transition
import Metidos.Thread.RunStatus

/-!
The turns of one thread: `queueMessage` and `stopTurn` of
`src/bun/project-procedures/thread-turn-runner.ts`, `clearThread` of `thread-runtime-lifecycle.ts`,
and the settlement of `runThreadMessageInBackground`.  The state is what the maps of the lifecycle
hold under the id of the thread.
-/

namespace Metidos.Thread

/-- A run in flight, from its start to the end of its `finally`.  Its number names its controller
and its completion. -/
structure BackgroundRun where
  number : Nat
  startedAt : StatusText
  aborted : Bool
  deriving DecidableEq

structure TurnState where
  abortController : Option Nat
  completion : Option Nat
  status : Option RpcThreadRunStatus
  queueing : List StatusText
  running : List BackgroundRun
  started : Nat
  deriving DecidableEq

def TurnState.initial : TurnState where
  abortController := none
  completion := none
  status := none
  queueing := []
  running := []
  started := 0

/-- How a run settles: with a status and its `finally` at once, with the status of a canceled turn
before its `finally`, or with its `finally` alone. -/
inductive RunSettlement
  | ran (updatedAt : StatusText)
  | failed (updatedAt message : StatusText)
  | canceled (updatedAt message : StatusText)
  | ended
  deriving DecidableEq

inductive TurnEvent
  | queueMessage (thread : ThreadRecord) (providerAvailable : Bool) (startedAt : StatusText)
  | messagePersisted (index : Nat)
  | persistFails (index : Nat)
  | stopTurn (thread : ThreadRecord) (stoppedAt : StatusText)
  | clearThread
  | touchRunStatus (number : Nat) (updatedAt : StatusText)
  | settle (number : Nat) (settlement : RunSettlement)
  deriving DecidableEq

namespace TurnState

variable (state : TurnState)

def currentRunStatus (thread : ThreadRecord) : RpcThreadRunStatus :=
  threadRunStatusFromRecord thread state.status

def setRunStatus (status : RpcThreadRunStatus) : TurnState := { state with status := some status }

def abort (number : Nat) : TurnState :=
  { state with
    running := state.running.map fun run =>
      if run.number = number then { run with aborted := true } else run }

def queueMessage (thread : ThreadRecord) (providerAvailable : Bool) (startedAt : StatusText) :
    TurnState :=
  if (state.currentRunStatus thread).state = .working then state
  else if state.completion.isSome then state
  else if !providerAvailable then state
  else { state with queueing := state.queueing ++ [startedAt] }

def startRun (startedAt : StatusText) : TurnState :=
  let registered := { state with abortController := some state.started }.setRunStatus
    { state := .working, startedAt := some startedAt, updatedAt := some startedAt
      error := none, hasUnreadError := false }
  { registered with
    running := state.running ++ [{ number := state.started, startedAt, aborted := false }]
    started := state.started + 1
    completion := some state.started }

def stopTurn (thread : ThreadRecord) (stoppedAt : StatusText) : TurnState :=
  let currentRunStatus := state.currentRunStatus thread
  if currentRunStatus.state ≠ .working then state
  else
    match state.abortController with
    | none => state
    | some number =>
      (state.abort number).setRunStatus
        { state := .stopped, startedAt := currentRunStatus.startedAt
          updatedAt := some stoppedAt, error := some THREAD_STOPPED_MESSAGE
          hasUnreadError := false }

def clearThread : TurnState :=
  let aborted := match state.abortController with
    | none => state
    | some number => state.abort number
  { aborted with abortController := none, completion := none, status := none }

def touchWorkingRunStatus (updatedAt : StatusText) : TurnState :=
  match state.status with
  | none => state
  | some current =>
    if current.state = .working then
      { state with status := some { current with updatedAt := some updatedAt } }
    else state

def deleteControllerIfCurrent (number : Nat) : TurnState :=
  if state.abortController = some number then { state with abortController := none } else state

def deleteCompletion : TurnState := { state with completion := none }

/-- The `finally` of a run. -/
def endRun (run : BackgroundRun) : TurnState :=
  { (state.deleteControllerIfCurrent run.number).deleteCompletion with
    running := state.running.erase run }

def settle (run : BackgroundRun) : RunSettlement → TurnState
  | .ran updatedAt =>
    (state.setRunStatus
      { state := .idle, startedAt := some run.startedAt, updatedAt := some updatedAt
        error := none, hasUnreadError := false }).endRun run
  | .failed updatedAt message =>
    (state.setRunStatus
      { state := .failed, startedAt := some run.startedAt, updatedAt := some updatedAt
        error := some ("Thread run failed: ".toList ++ message)
        hasUnreadError := true }).endRun run
  | .canceled updatedAt message =>
    state.setRunStatus
      { state := .stopped, startedAt := some run.startedAt, updatedAt := some updatedAt
        error := some message, hasUnreadError := false }
  | .ended => state.endRun run

end TurnState

def turnStep (state : TurnState) : TurnEvent → Option TurnState
  | .queueMessage thread providerAvailable startedAt =>
    some (state.queueMessage thread providerAvailable startedAt)
  | .messagePersisted index =>
    (state.queueing[index]?).map fun startedAt =>
      { state with queueing := state.queueing.eraseIdx index }.startRun startedAt
  | .persistFails index =>
    (state.queueing[index]?).map fun _ =>
      { state with queueing := state.queueing.eraseIdx index }
  | .stopTurn thread stoppedAt => some (state.stopTurn thread stoppedAt)
  | .clearThread => some state.clearThread
  | .touchRunStatus number updatedAt =>
    (state.running.find? fun run => run.number = number && !run.aborted).map fun _ =>
      state.touchWorkingRunStatus updatedAt
  | .settle number settlement =>
    (state.running.find? fun run => run.number = number).map fun run =>
      state.settle run settlement

namespace TurnState

/-- What the runs of a thread promise: one in flight, the registered controller and completion are
its own, a stop aborts it, and the settlement of a run leaves what belongs to a later one. -/
structure OneTurn (state : TurnState) : Prop where
  alone : state.running.length ≤ 1
  controller : ∀ number, state.abortController = some number →
    ∃ run ∈ state.running, run.number = number
  completion : ∀ number, state.completion = some number →
    ∃ run ∈ state.running, run.number = number
  stops : ∀ thread stoppedAt, (state.currentRunStatus thread).state = .working →
    ∀ run ∈ (state.stopTurn thread stoppedAt).running, run.aborted = true
  settles : ∀ number settlement next, turnStep state (.settle number settlement) = some next →
    (∃ later, number < later ∧ later < state.started) →
      next.status = state.status ∧ next.abortController = state.abortController ∧
        next.completion = state.completion

/-- A message is queued only while no other one is being written, and only when every run in
flight is registered. -/
def QueuesApart (state : TurnState) : TurnEvent → Prop
  | .queueMessage _ _ _ =>
    state.queueing = [] ∧ ∀ run ∈ state.running, state.completion = some run.number
  | _ => True

instance (state : TurnState) (event : TurnEvent) : Decidable (QueuesApart state event) := by
  cases event <;> unfold QueuesApart <;> infer_instance

structure Sound (state : TurnState) : Prop where
  newest : state.running = [] ∨
    ∃ run, state.running = [run] ∧ run.number + 1 = state.started ∧
      (state.abortController = some run.number ∨ run.aborted = true)
  waiting : state.queueing = [] ∨ state.running = [] ∧ ∃ startedAt, state.queueing = [startedAt]
  controller : ∀ number, state.abortController = some number →
    ∃ run ∈ state.running, run.number = number
  completion : ∀ number, state.completion = some number →
    ∃ run ∈ state.running, run.number = number

variable {state next : TurnState}

theorem stopTurn_running (thread : ThreadRecord) (stoppedAt : StatusText) {number : Nat}
    (isWorking : (state.currentRunStatus thread).state = .working)
    (registered : state.abortController = some number) :
    (state.stopTurn thread stoppedAt).running = (state.abort number).running := by
  rw [stopTurn, if_neg (not_not_intro isWorking), registered]
  rfl

theorem stopTurn_unregistered (thread : ThreadRecord) (stoppedAt : StatusText)
    (unregistered : state.abortController = none) : state.stopTurn thread stoppedAt = state := by
  rw [stopTurn]
  split
  · rfl
  · rw [unregistered]

theorem Sound.oneTurn (sound : state.Sound) : state.OneTurn where
  alone := by
    rcases sound.newest with idle | ⟨run, running, _⟩
    · rw [idle]
      exact Nat.zero_le 1
    · rw [running]
      exact Nat.le_refl 1
  controller := sound.controller
  completion := sound.completion
  stops := by
    intro thread stoppedAt isWorking run member
    rcases sound.newest with idle | ⟨only, running, _, atController⟩
    · cases registered : state.abortController with
      | none =>
        rw [stopTurn_unregistered thread stoppedAt registered, idle] at member
        cases member
      | some number =>
        rw [stopTurn_running thread stoppedAt isWorking registered, abort, idle] at member
        cases member
    · cases registered : state.abortController with
      | none =>
        rw [stopTurn_unregistered thread stoppedAt registered, running,
          List.mem_singleton] at member
        rcases atController with isRegistered | isAborted
        · cases registered.symm.trans isRegistered
        · exact member ▸ isAborted
      | some number =>
        obtain ⟨found, isFound, isNumber⟩ := sound.controller number registered
        rw [running, List.mem_singleton] at isFound
        cases isFound
        rw [stopTurn_running thread stoppedAt isWorking registered, abort] at member
        dsimp only at member
        rw [running, List.map_singleton, List.mem_singleton, if_pos isNumber] at member
        rw [member]
  settles := by
    rintro number settlement next stepped ⟨later, isLater, isStarted⟩
    obtain ⟨run, isRun, _⟩ := Option.map_eq_some_iff.mp stepped
    have member := List.mem_of_find?_eq_some isRun
    have isNumber := List.find?_some isRun
    rw [decide_eq_true_eq] at isNumber
    rcases sound.newest with idle | ⟨only, running, isNewest, _⟩
    · rw [idle] at member
      cases member
    · rw [running, List.mem_singleton] at member
      rw [← member] at isNewest
      omega

theorem Sound.abort (sound : state.Sound) (number : Nat) : (state.abort number).Sound := by
  have kept : ∀ wanted, (∃ run ∈ state.running, run.number = wanted) →
      ∃ run ∈ (state.abort number).running, run.number = wanted := by
    rintro wanted ⟨run, member, rfl⟩
    refine ⟨_, List.mem_map_of_mem member, ?_⟩
    split
    · rfl
    · rfl
  refine ⟨?_, ?_, fun wanted registered => kept wanted (sound.controller wanted registered),
    fun wanted registered => kept wanted (sound.completion wanted registered)⟩
  · rcases sound.newest with idle | ⟨run, running, isNewest, atController⟩
    · refine Or.inl ?_
      rw [TurnState.abort]
      dsimp only
      rw [idle, List.map_nil]
    · refine Or.inr ⟨if run.number = number then { run with aborted := true } else run, ?_, ?_⟩
      · rw [TurnState.abort]
        dsimp only
        rw [running, List.map_singleton]
      · split
        · exact ⟨isNewest, Or.inr rfl⟩
        · exact ⟨isNewest, atController⟩
  · rcases sound.waiting with nothing | ⟨idle, one⟩
    · exact Or.inl nothing
    · refine Or.inr ⟨?_, one⟩
      rw [TurnState.abort]
      dsimp only
      rw [idle, List.map_nil]

theorem Sound.setRunStatus (sound : state.Sound) (status : Option RpcThreadRunStatus) :
    { state with status := status }.Sound :=
  ⟨sound.newest, sound.waiting, sound.controller, sound.completion⟩

theorem Sound.queueMessage (sound : state.Sound) {thread : ThreadRecord}
    {providerAvailable : Bool} {startedAt : StatusText}
    (apart : state.QueuesApart (.queueMessage thread providerAvailable startedAt)) :
    (state.queueMessage thread providerAvailable startedAt).Sound := by
  rw [TurnState.queueMessage]
  split
  · exact sound
  · split
    · exact sound
    · rename_i unregistered
      split
      · exact sound
      · refine ⟨sound.newest, Or.inr ⟨?_, startedAt, ?_⟩, sound.controller, sound.completion⟩
        · refine List.eq_nil_iff_forall_not_mem.mpr fun run member => unregistered ?_
          rw [apart.2 run member]
          rfl
        · dsimp only
          rw [apart.1, List.nil_append]

theorem Sound.dequeue (sound : state.Sound) {index : Nat} {startedAt : StatusText}
    (atIndex : state.queueing[index]? = some startedAt) :
    state.running = [] ∧ state.queueing.eraseIdx index = [] := by
  rcases sound.waiting with nothing | ⟨idle, only, one⟩
  · rw [nothing] at atIndex
    cases atIndex
  · refine ⟨idle, ?_⟩
    rw [one] at atIndex ⊢
    cases index with
    | zero => rfl
    | succ index => cases atIndex

theorem Sound.messagePersisted (sound : state.Sound) {index : Nat} {startedAt : StatusText}
    (atIndex : state.queueing[index]? = some startedAt) :
    ({ state with queueing := state.queueing.eraseIdx index }.startRun startedAt).Sound := by
  obtain ⟨idle, nothing⟩ := sound.dequeue atIndex
  have running : ({ state with
      queueing := state.queueing.eraseIdx index }.startRun startedAt).running =
        [{ number := state.started, startedAt, aborted := false }] := by
    rw [startRun]
    dsimp only
    rw [idle, List.nil_append]
  refine ⟨Or.inr ⟨_, running, rfl, Or.inl rfl⟩, Or.inl nothing, ?_, ?_⟩
  · rintro number isNumber
    cases isNumber
    exact ⟨_, running ▸ List.mem_singleton_self _, rfl⟩
  · rintro number isNumber
    cases isNumber
    exact ⟨_, running ▸ List.mem_singleton_self _, rfl⟩

theorem Sound.persistFails (sound : state.Sound) {index : Nat} {startedAt : StatusText}
    (atIndex : state.queueing[index]? = some startedAt) :
    { state with queueing := state.queueing.eraseIdx index }.Sound :=
  ⟨sound.newest, Or.inl (sound.dequeue atIndex).2, sound.controller, sound.completion⟩

theorem Sound.stopTurn (sound : state.Sound) (thread : ThreadRecord) (stoppedAt : StatusText) :
    (state.stopTurn thread stoppedAt).Sound := by
  rw [TurnState.stopTurn]
  split
  · exact sound
  · split
    · exact sound
    · exact (sound.abort _).setRunStatus _

theorem Sound.clearThread (sound : state.Sound) : state.clearThread.Sound := by
  rw [TurnState.clearThread]
  cases registered : state.abortController with
  | none =>
    refine ⟨?_, sound.waiting, (fun _ isNumber => by cases isNumber),
      (fun _ isNumber => by cases isNumber)⟩
    rcases sound.newest with idle | ⟨run, running, isNewest, atController⟩
    · exact Or.inl idle
    · rcases atController with isRegistered | isAborted
      · cases registered.symm.trans isRegistered
      · exact Or.inr ⟨run, running, isNewest, Or.inr isAborted⟩
  | some number =>
    obtain ⟨found, isFound, isNumber⟩ := sound.controller number registered
    refine ⟨?_, (sound.abort number).waiting, (fun _ isNumber => by cases isNumber),
      (fun _ isNumber => by cases isNumber)⟩
    rcases sound.newest with idle | ⟨run, running, isNewest, _⟩
    · rw [idle] at isFound
      cases isFound
    · rw [running, List.mem_singleton] at isFound
      cases isFound
      have aborted : (state.abort number).running = [{ found with aborted := true }] := by
        rw [TurnState.abort]
        dsimp only
        rw [running, List.map_singleton, if_pos isNumber]
      exact Or.inr ⟨_, aborted, isNewest, Or.inr rfl⟩

theorem Sound.endRun (sound : state.Sound) {run : BackgroundRun} (member : run ∈ state.running) :
    (state.endRun run).Sound := by
  rcases sound.newest with idle | ⟨only, running, _, _⟩
  · rw [idle] at member
    cases member
  · rw [running, List.mem_singleton] at member
    subst member
    have ended : (state.endRun run).running = [] := by
      rw [TurnState.endRun]
      dsimp only
      rw [running, List.erase_cons_head]
    have noController : (state.endRun run).abortController = none := by
      rw [TurnState.endRun, deleteControllerIfCurrent]
      split
      · rfl
      · rename_i differs
        cases registered : state.abortController with
        | none => exact registered
        | some number =>
          obtain ⟨found, isFound, isNumber⟩ := sound.controller number registered
          rw [running, List.mem_singleton] at isFound
          rw [registered, ← isNumber, isFound] at differs
          exact absurd rfl differs
    have queueing : (state.endRun run).queueing = state.queueing := by
      rw [TurnState.endRun, deleteControllerIfCurrent]
      split
      · rfl
      · rfl
    refine ⟨Or.inl ended, ?_, ?_, ?_⟩
    · rw [queueing, ended]
      exact sound.waiting.imp_right fun one => ⟨rfl, one.2⟩
    · intro number registered
      rw [noController] at registered
      cases registered
    · intro number registered
      cases registered

theorem Sound.settle (sound : state.Sound) {run : BackgroundRun} (member : run ∈ state.running)
    (settlement : RunSettlement) : (state.settle run settlement).Sound := by
  cases settlement with
  | ran updatedAt => exact (sound.setRunStatus _).endRun member
  | failed updatedAt message => exact (sound.setRunStatus _).endRun member
  | canceled updatedAt message => exact sound.setRunStatus _
  | ended => exact sound.endRun member

theorem Sound.step {event : TurnEvent} (sound : state.Sound) (apart : state.QueuesApart event)
    (stepped : turnStep state event = some next) : next.Sound := by
  cases event with
  | queueMessage thread providerAvailable startedAt =>
    cases stepped
    exact sound.queueMessage apart
  | messagePersisted index =>
    obtain ⟨startedAt, atIndex, rfl⟩ := Option.map_eq_some_iff.mp stepped
    exact sound.messagePersisted atIndex
  | persistFails index =>
    obtain ⟨startedAt, atIndex, rfl⟩ := Option.map_eq_some_iff.mp stepped
    exact sound.persistFails atIndex
  | stopTurn thread stoppedAt =>
    cases stepped
    exact sound.stopTurn thread stoppedAt
  | clearThread =>
    cases stepped
    exact sound.clearThread
  | touchRunStatus number updatedAt =>
    obtain ⟨run, _, rfl⟩ := Option.map_eq_some_iff.mp stepped
    rw [touchWorkingRunStatus]
    split
    · exact sound
    · split
      · exact sound.setRunStatus _
      · exact sound
  | settle number settlement =>
    obtain ⟨run, isRun, rfl⟩ := Option.map_eq_some_iff.mp stepped
    exact sound.settle (List.mem_of_find?_eq_some isRun) settlement

end TurnState

open Transition TurnState

/-- A thread whose messages are queued one after the other, none behind a run that a clear has
dropped, has one turn at a time. -/
theorem one_turn_per_thread {state : TurnState}
    (reached : Reaches turnStep QueuesApart TurnState.initial state) : state.OneTurn := by
  have start : TurnState.initial.Sound := by
    refine ⟨Or.inl rfl, Or.inl rfl, ?_, ?_⟩
    · intro number registered
      cases registered
    · intro number registered
      cases registered
  exact (reached.invariant TurnState.Sound start
    fun before event after sound apart stepped => sound.step apart stepped).oneTurn

namespace Sample

def newThread : ThreadRecord where
  updatedAt := "2026-01-01".toList
  activeTurnStartedAt := none
  lastRunAt := none
  lastErrorAt := none
  lastErrorSeenAt := none
  lastErrorMessage := none

def turnEvents : List TurnEvent :=
  [.queueMessage newThread true "1".toList, .messagePersisted 0, .stopTurn newThread "2".toList,
    .settle 0 (.canceled "3".toList THREAD_STOPPED_MESSAGE), .settle 0 .ended,
    .queueMessage newThread true "4".toList, .messagePersisted 0]

def overlappingEvents : List TurnEvent :=
  [.queueMessage newThread true "1".toList, .queueMessage newThread true "2".toList,
    .messagePersisted 0, .messagePersisted 0]

end Sample

theorem one_turn_per_thread_stopped : ∃ state : TurnState,
    (state.running.length = 1 ∧ state.started = 2) ∧ state.OneTurn := by
  have ran : ((run turnStep (fun state event => decide (QueuesApart state event))
      TurnState.initial Sample.turnEvents).any fun state =>
        state.running.length = 1 ∧ state.started = 2) = true := by decide +kernel
  obtain ⟨state, isRun, counted⟩ := (Option.any_eq_true _ _).mp ran
  exact ⟨state, of_decide_eq_true counted, one_turn_per_thread
    ((reaches_of_run isRun).weaken fun _ _ => of_decide_eq_true)⟩

theorem overlapping_messages_run : ¬ ∀ state : TurnState,
    Reaches turnStep Unrestricted TurnState.initial state → state.OneTurn := by
  have ran : ((run turnStep (fun _ _ => true) TurnState.initial Sample.overlappingEvents).any
      fun state => state.running.length = 2) = true := by decide +kernel
  obtain ⟨state, isRun, two⟩ := (Option.any_eq_true _ _).mp ran
  intro always
  have alone := (always state (reaches_of_run isRun).unrestricted).alone
  rw [of_decide_eq_true two] at alone
  exact absurd alone (by decide)

end Metidos.Thread
