import Metidos.Thread.ActivityRuns

/-!
What becomes of a failed flush: its entries stay in the buffer, and whether the flushes behind it
still run is a matter of the one promise that they are chained on.
-/

namespace Metidos.Thread

open WriterState Transition

/-- What is promised of a failed flush and of the flushes that have settled after it. -/
structure Recovers (state : WriterState) (newer : List (FlushLink × FlushOutcome))
    (due : List Text) : Prop where
  ran : ∀ later ∈ newer, later.2 ≠ .skipped
  kept : ∀ activityId ∈ due, state.entries.has activityId = true ∨
    ∃ later ∈ newer, later.2 = .flushed
  persisted : ∀ later ∈ newer, later.2 = .flushed → later.1.force = true →
    later.1.queuedBefore = state.queued.length → ∀ activityId ∈ due, ∀ write,
      state.lastQueued activityId = some write → ∀ input ∈ write.inputs,
        state.messages.Shows input

def WriterState.FailuresRecover (state : WriterState) : Prop :=
  ∀ newer link due older, state.settled = newer ++ (link, FlushOutcome.failed due) :: older →
    Recovers state newer due

def ChainEnds (state : WriterState) : WriterEvent → Prop
  | .queue _ _ _ force terminal => state.rejected = true → (force || terminal) = false
  | .flushAll => state.rejected = false
  | .timerFires => state.rejected = false
  | .flushFails => state.pending = []
  | _ => True

instance (state : WriterState) (event : WriterEvent) : Decidable (ChainEnds state event) := by
  cases event <;> unfold ChainEnds <;> infer_instance

structure ChainSound (state : WriterState) : Prop where
  present : ∀ link due, state.running = some (link, due) →
    ∀ activityId ∈ due.map DueEntry.activityId, state.entries.has activityId = true
  ended : state.rejected = true → state.running = none ∧ state.pending = []
  failed : ∀ newer link due older,
    state.settled = newer ++ (link, FlushOutcome.failed due) :: older →
      state.rejected = true ∧ newer = [] ∧
        ∀ activityId ∈ due, state.entries.has activityId = true

variable {state : WriterState} {flushIntervalMs : Int}

theorem ChainSound.recovers (sound : ChainSound state) : state.FailuresRecover := by
  intro newer link due older settled
  obtain ⟨_, rfl, kept⟩ := sound.failed newer link due older settled
  refine ⟨?_, fun activityId isDue => Or.inl (kept _ isDue), ?_⟩
  · intro later member
    cases member
  · intro later member
    cases member

theorem ChainSound.of_queue {next : WriterState} (sound : ChainSound state)
    (running : next.running = state.running) (rejected : next.rejected = state.rejected)
    (settled : next.settled = state.settled)
    (pending : state.rejected = true → next.pending = state.pending)
    (entries : ∀ activityId, state.entries.has activityId = true →
      next.entries.has activityId = true) : ChainSound next where
  present := by
    rw [running]
    exact fun link due isRunning activityId isDue =>
      entries _ (sound.present link due isRunning activityId isDue)
  ended := by
    intro isRejected
    rw [rejected] at isRejected
    rw [running, pending isRejected]
    exact sound.ended isRejected
  failed := by
    rw [rejected, settled]
    intro newer link due older isSettled
    obtain ⟨isRejected, isNewest, kept⟩ := sound.failed newer link due older isSettled
    exact ⟨isRejected, isNewest, fun activityId isDue => entries _ (kept activityId isDue)⟩

theorem has_set (entries : BufferedEntries) (activityId : Text)
    (entry : BufferedThreadActivityWrite) (other : Text) (has : entries.has other = true) :
    (entries.set activityId entry).has other = true := by
  rw [OrderedMap.has, OrderedMap.get?_set]
  split
  · rfl
  · exact has

theorem ChainSound.queue (sound : ChainSound state) {activityId signature : Text}
    {inputs : List ThreadActivityInput} {force terminal : Bool}
    (ends : ChainEnds state (.queue activityId signature inputs force terminal)) :
    ChainSound (state.queue activityId signature inputs force terminal) := by
  rw [WriterState.queue]
  split
  · rename_i forced
    refine sound.of_queue rfl rfl rfl ?_ fun other => has_set _ _ _ other
    intro isRejected
    rw [ends isRejected] at forced
    cases forced
  · rw [WriterState.scheduleFlush]
    split
    · exact sound.of_queue rfl rfl rfl (fun _ => rfl) fun other => has_set _ _ _ other
    · exact sound.of_queue rfl rfl rfl (fun _ => rfl) fun other => has_set _ _ _ other

theorem ChainSound.no_failure (sound : ChainSound state) (runs : state.rejected = false)
    {newer older : List (FlushLink × FlushOutcome)} {link : FlushLink} {due : List Text} :
    state.settled ≠ newer ++ (link, .failed due) :: older := by
  intro settled
  rw [(sound.failed newer link due older settled).1] at runs
  cases runs

theorem scheduleFlush_settled (state : WriterState) :
    state.scheduleFlush.settled = state.settled ∧
      state.scheduleFlush.rejected = state.rejected ∧
      state.scheduleFlush.running = state.running := by
  rw [WriterState.scheduleFlush]
  split
  · exact ⟨rfl, rfl, rfl⟩
  · exact ⟨rfl, rfl, rfl⟩

theorem finishFlush_settled (persistedAt : Int) (due : List DueEntry) :
    (state.finishFlush persistedAt due).settled = state.settled ∧
      (state.finishFlush persistedAt due).rejected = state.rejected ∧
      (state.finishFlush persistedAt due).running = state.running := by
  rw [WriterState.finishFlush]
  split
  · exact scheduleFlush_settled _
  · exact scheduleFlush_settled _

theorem ChainSound.step {next : WriterState} {event : WriterEvent} (sound : ChainSound state)
    (ends : ChainEnds state event) (stepped : writerStep flushIntervalMs state event = some next) :
    ChainSound next := by
  cases event with
  | queue activityId signature inputs force terminal =>
    cases stepped
    exact sound.queue ends
  | flushAll =>
    cases stepped
    refine sound.of_queue rfl rfl rfl (fun isRejected => ?_) fun _ has => has
    cases isRejected.symm.trans ends
  | timerFires =>
    simp only [writerStep] at stepped
    split at stepped
    · cases stepped
      refine sound.of_queue rfl rfl rfl (fun isRejected => ?_) fun _ has => has
      cases isRejected.symm.trans ends
    · cases stepped
  | flushStarts timestamp =>
    simp only [writerStep] at stepped
    split at stepped
    · rename_i runs _ _
      cases stepped
      refine ⟨?_, fun isRejected => ?_, fun newer link due older settled =>
        absurd settled (sound.no_failure runs)⟩
      · intro _ _ running activityId isDue
        cases running
        obtain ⟨dueEntry, member, rfl⟩ := List.mem_map.mp isDue
        obtain ⟨entry, present, _⟩ := mem_dueEntries.mp member
        rw [OrderedMap.has, present]
        rfl
      · cases isRejected.symm.trans runs
    · cases stepped
  | flushFinishes persistedAt =>
    obtain ⟨⟨link, due⟩, running, rfl⟩ := Option.map_eq_some_iff.mp stepped
    have runs : state.rejected = false := by
      refine Bool.eq_false_iff.mpr fun isRejected => ?_
      rw [(sound.ended isRejected).1] at running
      cases running
    obtain ⟨settled, rejected, idle⟩ :=
      @finishFlush_settled { state with running := none } persistedAt due
    refine ⟨?_, fun isRejected => ?_, ?_⟩
    · intro _ _ isRunning
      cases idle.symm.trans isRunning
    · cases (isRejected.symm.trans rejected).trans runs
    · intro newer other otherDue older isSettled
      simp only [settle, settled] at isSettled
      cases newer with
      | nil => simp at isSettled
      | cons first newer =>
        exact absurd (List.cons.inj isSettled).2 (sound.no_failure runs)
  | flushFails =>
    obtain ⟨⟨link, due⟩, running, rfl⟩ := Option.map_eq_some_iff.mp stepped
    have runs : state.rejected = false := by
      refine Bool.eq_false_iff.mpr fun isRejected => ?_
      rw [(sound.ended isRejected).1] at running
      cases running
    refine ⟨(fun _ _ isRunning => by cases isRunning), fun _ => ⟨rfl, ends⟩, ?_⟩
    intro newer other otherDue older isSettled
    cases newer with
    | nil =>
      cases isSettled
      exact ⟨rfl, rfl, sound.present link due running⟩
    | cons first newer => exact absurd (List.cons.inj isSettled).2 (sound.no_failure runs)
  | flushSkipped =>
    simp only [writerStep] at stepped
    split at stepped
    · rename_i isRejected _ isPending
      rw [(sound.ended isRejected).2] at isPending
      cases isPending
    · cases stepped
  | flushAllReturns =>
    simp only [writerStep] at stepped
    split at stepped
    · cases stepped
      exact sound.of_queue rfl rfl rfl (fun _ => rfl) fun _ has => has
    · cases stepped

/-- A run whose only failing flush is the last of its chain keeps what that flush had in hand and
skips none. -/
theorem failures_recover (flushIntervalMs : Int) {messages : ThreadMessages} {state : WriterState}
    (reached : Reaches (writerStep flushIntervalMs) ChainEnds (initial messages) state) :
    state.FailuresRecover := by
  have start : ChainSound (initial messages) := by
    refine ⟨(fun link due running => by cases running), (fun rejected => by cases rejected), ?_⟩
    intro newer link due older settled
    simp [initial] at settled
  exact (reached.invariant ChainSound start
    fun before event after sound ends stepped => sound.step ends stepped).recovers

namespace Sample

def failedEvents : List WriterEvent :=
  [queueText "one" false, .flushAll, .flushStarts 0, .flushFails, .flushAllReturns,
    queueText "two" false]

def retriedEvents : List WriterEvent :=
  [queueText "one" false, .flushAll, .flushStarts 0, .flushFails, .flushAllReturns, .flushAll,
    .flushSkipped, .flushAllReturns]

end Sample

theorem failures_recover_last : ∃ state : WriterState,
    (state.settled.any fun entry => entry.2 = .failed ["reply".toList]) = true ∧
      state.FailuresRecover := by
  have ran : ((run (writerStep 500) (fun state event => decide (ChainEnds state event))
      (initial Sample.noMessages) Sample.failedEvents).any fun state =>
        state.settled.any fun entry => entry.2 = .failed ["reply".toList]) = true := by
    decide +kernel
  obtain ⟨state, isRun, failed⟩ := (Option.any_eq_true _ _).mp ran
  exact ⟨state, failed, failures_recover 500
    ((reaches_of_run isRun).weaken fun _ _ => of_decide_eq_true)⟩

theorem retried_flush_skipped : ¬ ∀ (flushIntervalMs : Int) (messages : ThreadMessages)
    (state : WriterState), messages.Sound →
    Reaches (writerStep flushIntervalMs) Unrestricted (initial messages) state →
      state.FailuresRecover := by
  have ran : ((run (writerStep 500) (fun _ _ => true) (initial Sample.noMessages)
      Sample.retriedEvents).any fun state => state.settled = [
        ({ number := 1, force := true, flushAll := true, queuedBefore := 1 }, .skipped),
        ({ number := 0, force := true, flushAll := true, queuedBefore := 1 },
          .failed ["reply".toList])]) = true := by decide +kernel
  obtain ⟨state, isRun, isSettled⟩ := (Option.any_eq_true _ _).mp ran
  intro always
  have recovers := always 500 Sample.noMessages state Sample.noMessages_sound
    (reaches_of_run isRun).unrestricted [_] _ _ [] (of_decide_eq_true isSettled)
  exact recovers.ran _ List.mem_cons_self rfl

end Metidos.Thread
