import Metidos.Thread.ActivityFlush

/-!
Runs of the buffered writer: what is stored once `flushAll` has returned, and what becomes of the
flushes behind one that has failed.
-/

namespace Metidos.Thread

open ThreadMessages WriterState

namespace WriterState

variable (state : WriterState)

def lastQueued (activityId : Text) : Option QueuedWrite :=
  state.queued.find? fun write => write.activityId = activityId

def HasLink (link : FlushLink) : Prop :=
  link ∈ state.pending ∨ (∃ due, state.running = some (link, due)) ∨
    ∃ outcome, (link, outcome) ∈ state.settled

/-- Once a `flushAll` has returned and nothing was queued since its call, each activity has one row
for each input of its last write, and the row shows that input. -/
def NothingLost : Prop :=
  ∀ link, (link, FlushOutcome.flushed) ∈ state.returned →
    link.queuedBefore = state.queued.length →
    ∀ activityId write, state.lastQueued activityId = some write → ∀ input ∈ write.inputs,
      ∃ row, state.messages.rows.filter (·.hasKey input.key) = [row] ∧ row.put input = row

end WriterState

structure WriterSound (scheme : ItemScheme) (state : WriterState) : Prop where
  table : state.messages.Sound
  entries : EntriesSound scheme state.messages state.entries
  last : ∀ activityId write, state.lastQueued activityId = some write →
    write.inputs = scheme.inputs activityId write.signature ∧
      ((∃ entry, state.entries.get? activityId = some entry ∧
          entry.signature = write.signature) ∨
        state.entries.get? activityId = none ∧
          scheme.Stored state.messages activityId write.signature)
  due : ∀ link due, state.running = some (link, due) → DueSound state.entries due
  links : ∀ link, state.HasLink link →
    link.queuedBefore ≤ state.queued.length ∧ (link.flushAll = true → link.force = true)
  fresh : ∀ link due, state.running = some (link, due) →
    link.queuedBefore = state.queued.length → link.force = true →
    ∀ activityId entry, state.entries.get? activityId = some entry →
      ∃ dueEntry ∈ due, dueEntry.activityId = activityId ∧
        (dueEntry.signatureChanged = false → entry.signatureChanged = false)
  clean : ∀ link, (link, FlushOutcome.flushed) ∈ state.settled →
    link.queuedBefore = state.queued.length → link.force = true →
    ∀ activityId entry, state.entries.get? activityId = some entry →
      scheme.Stored state.messages activityId entry.signature
  returned : ∀ settled ∈ state.returned, settled ∈ state.settled ∧ settled.1.flushAll = true

variable {scheme : ItemScheme} {state : WriterState} {flushIntervalMs : Int}

theorem unchanged_iff (entry : BufferedThreadActivityWrite) :
    entry.signatureChanged = false ↔
      entry.persisted = true ∧ entry.lastPersistedSignature = some entry.signature := by
  simp [BufferedThreadActivityWrite.signatureChanged]

theorem WriterSound.initial {messages : ThreadMessages} (sound : messages.Sound) :
    WriterSound scheme (WriterState.initial messages) where
  table := sound
  entries := fun activityId entry present => by cases present
  last := fun activityId write queued => by cases queued
  due := fun link due running => by cases running
  links := by
    rintro link (pending | ⟨due, running⟩ | ⟨outcome, settled⟩)
    · cases pending
    · cases running
    · cases settled
  fresh := fun link due running => by cases running
  clean := fun link settled => by cases settled
  returned := fun settled member => by cases member

theorem WriterSound.nothingLost (sound : WriterSound scheme state) : state.NothingLost := by
  intro link isReturned nothingQueued activityId write isLast input member
  obtain ⟨isSettled, isFlushAll⟩ := sound.returned _ isReturned
  have forced := (sound.links link (Or.inr (Or.inr ⟨_, isSettled⟩))).2 isFlushAll
  obtain ⟨built, atEntry⟩ := sound.last activityId write isLast
  have stored : scheme.Stored state.messages activityId write.signature := by
    rcases atEntry with ⟨entry, present, same⟩ | ⟨_, stored⟩
    · exact same ▸ sound.clean link isSettled nothingQueued forced activityId entry present
    · exact stored
  obtain ⟨row, inside, hasKey, shown⟩ := stored input (built ▸ member)
  refine ⟨row, ?_, shown⟩
  have inFilter : row ∈ state.messages.rows.filter (·.hasKey input.key) :=
    List.mem_filter.mpr ⟨inside, hasKey⟩
  have onlyRow : ∀ other ∈ state.messages.rows.filter (·.hasKey input.key), other = row := by
    intro other otherIn
    obtain ⟨otherInside, otherHas⟩ := List.mem_filter.mp otherIn
    exact sound.table.keyed other otherInside row inside input.key otherHas hasKey
  have distinct := sound.table.distinct.filter (·.hasKey input.key)
  generalize state.messages.rows.filter (·.hasKey input.key) = rows at *
  cases rows with
  | nil => cases inFilter
  | cons first rest =>
    cases rest with
    | nil => rw [onlyRow first (by simp)]
    | cons second rest =>
      have same := (onlyRow first (by simp)).trans (onlyRow second (by simp)).symm
      simp [same] at distinct

theorem WriterSound.of_links {next : WriterState} (sound : WriterSound scheme state)
    (messages : next.messages = state.messages) (entries : next.entries = state.entries)
    (queued : next.queued = state.queued) (running : next.running = state.running)
    (settled : next.settled = state.settled) (returned : next.returned = state.returned)
    (pending : ∀ link ∈ next.pending, link ∈ state.pending ∨
      link.queuedBefore = state.queued.length ∧ (link.flushAll = true → link.force = true)) :
    WriterSound scheme next where
  table := messages ▸ sound.table
  entries := messages ▸ entries ▸ sound.entries
  last := by
    rw [messages, entries]
    rw [show next.lastQueued = state.lastQueued by
      funext activityId; rw [lastQueued, lastQueued, queued]]
    exact sound.last
  due := by
    rw [running, entries]
    exact sound.due
  links := by
    rw [queued]
    rintro link (isPending | isRunning | isSettled)
    · rcases pending link isPending with old | ⟨bound, forced⟩
      · exact sound.links link (Or.inl old)
      · exact ⟨Nat.le_of_eq bound, forced⟩
    · rw [running] at isRunning
      exact sound.links link (Or.inr (Or.inl isRunning))
    · rw [settled] at isSettled
      exact sound.links link (Or.inr (Or.inr isSettled))
  fresh := by
    rw [running, queued, entries]
    exact sound.fresh
  clean := by
    rw [settled, queued, entries, messages]
    exact sound.clean
  returned := by
    rw [returned, settled]
    exact sound.returned

theorem WriterSound.enqueueFlush (sound : WriterSound scheme state) (force flushAll : Bool)
    (forced : flushAll = true → force = true) :
    WriterSound scheme (state.clearFlushTimer.enqueueFlush force flushAll) := by
  refine sound.of_links rfl rfl rfl rfl rfl rfl ?_
  intro link isPending
  rcases List.mem_append.mp isPending with old | new
  · exact Or.inl old
  · cases List.mem_singleton.mp new
    exact Or.inr ⟨rfl, forced⟩

theorem WriterSound.scheduleFlush (sound : WriterSound scheme state) :
    WriterSound scheme state.scheduleFlush := by
  rw [WriterState.scheduleFlush]
  split
  · exact sound
  · exact sound.of_links rfl rfl rfl rfl rfl rfl fun link isPending => Or.inl isPending

def QueueBuilt (scheme : ItemScheme) (_ : WriterState) : WriterEvent → Prop
  | .queue activityId signature inputs _ _ => inputs = scheme.inputs activityId signature
  | _ => True

/-- A queue call that gives no new signature to an entry whose builder the running flush has
called, and drops no entry that this flush holds for stored. -/
def QueueApart (state : WriterState) : WriterEvent → Prop
  | .queue activityId signature _ _ terminal =>
    ∀ link due, state.running = some (link, due) →
      ∀ dueEntry ∈ due, dueEntry.activityId = activityId →
        ∀ entry, state.entries.get? activityId = some entry →
          if dueEntry.signatureChanged then signature = entry.signature
          else terminal = true → entry.lastPersistedSignature = some signature
  | _ => True

theorem lastQueued_queue (write : QueuedWrite) (activityId : Text) :
    { state with queued := write :: state.queued }.lastQueued activityId =
      if write.activityId = activityId then some write else state.lastQueued activityId := by
  rw [lastQueued, List.find?_cons]
  split
  · rename_i same
    rw [if_pos (of_decide_eq_true same)]
  · rename_i differs
    rw [if_neg (of_decide_eq_false differs)]
    rfl

theorem WriterSound.putEntry (sound : WriterSound scheme state) (activityId signature : Text)
    (inputs : List ThreadActivityInput) (force terminal : Bool)
    (built : inputs = scheme.inputs activityId signature)
    (apart : QueueApart state (.queue activityId signature inputs force terminal)) :
    WriterSound scheme { state with
      entries := state.entries.set activityId
        { (state.entries.get? activityId).getD (freshEntry signature inputs) with
          buildInputs := inputs, signature := signature, terminal := terminal }
      queued := { activityId, signature, inputs } :: state.queued } := by
  have shorter : ∀ link, state.HasLink link →
      link.queuedBefore ≠ (({ activityId, signature, inputs } : QueuedWrite) ::
        state.queued).length := by
    intro link isLink same
    have bound := (sound.links link isLink).1
    rw [List.length_cons] at same
    omega
  refine ⟨sound.table, ?_, ?_, ?_, ?_, ?_, ?_, sound.returned⟩
  · intro other entry present
    rw [OrderedMap.get?_set] at present
    split at present
    · rename_i same
      cases same
      cases present
      refine ⟨built, ?_, ?_⟩
      · intro otherSignature
        cases old : state.entries.get? activityId with
        | none => exact fun index messageId atIndex => by cases atIndex
        | some entry => exact (sound.entries _ _ old).named otherSignature
      · cases old : state.entries.get? activityId with
        | none => exact fun isPersisted => by cases isPersisted
        | some entry => exact (sound.entries _ _ old).persisted
    · exact sound.entries other entry present
  · intro other write isLast
    rw [@lastQueued_queue { state with entries := _ }] at isLast
    rw [OrderedMap.get?_set]
    split at isLast
    · rename_i same
      cases same
      cases isLast
      exact ⟨built, Or.inl ⟨_, by rw [if_pos rfl], rfl⟩⟩
    · rename_i differs
      rw [if_neg fun same => differs same.symm]
      exact sound.last other write isLast
  · intro link due running
    have current := sound.due link due running
    refine ⟨current.distinct, ?_, ?_, ?_⟩
    · intro dueEntry isDue
      rw [OrderedMap.get?_set]
      split
      · exact ⟨_, rfl⟩
      · exact current.present dueEntry isDue
    · intro dueEntry isDue isChanged entry present
      rw [OrderedMap.get?_set] at present
      split at present
      · rename_i same
        cases present
        obtain ⟨old, isOld⟩ := current.present dueEntry isDue
        have sameSignature := apart link due running dueEntry isDue same old (same ▸ isOld)
        rw [if_pos isChanged] at sameSignature
        rw [current.built dueEntry isDue isChanged old isOld, (sound.entries _ _ isOld).built,
          built, sameSignature, same]
      · exact current.built dueEntry isDue isChanged entry present
    · intro dueEntry isDue isUnchanged entry present
      rw [OrderedMap.get?_set] at present
      split at present
      · rename_i same
        cases present
        obtain ⟨old, isOld⟩ := current.present dueEntry isDue
        have kept := apart link due running dueEntry isDue same old (same ▸ isOld)
        rw [isUnchanged] at kept
        rw [← same, isOld]
        exact ⟨(current.dropped dueEntry isDue isUnchanged old isOld).1, by simpa using kept⟩
      · exact current.dropped dueEntry isDue isUnchanged entry present
  · intro link isLink
    have bound := sound.links link isLink
    exact ⟨Nat.le_succ_of_le bound.1, bound.2⟩
  · intro link due running same
    exact absurd same (shorter link (Or.inr (Or.inl ⟨due, running⟩)))
  · intro link settled same
    exact absurd same (shorter link (Or.inr (Or.inr ⟨_, settled⟩)))

theorem WriterSound.queue (sound : WriterSound scheme state) {activityId signature : Text}
    {inputs : List ThreadActivityInput} {force terminal : Bool}
    (built : inputs = scheme.inputs activityId signature)
    (apart : QueueApart state (.queue activityId signature inputs force terminal)) :
    WriterSound scheme (state.queue activityId signature inputs force terminal) := by
  have put := sound.putEntry activityId signature inputs force terminal built apart
  rw [WriterState.queue]
  split
  · exact put.enqueueFlush true false (fun isFlushAll => by cases isFlushAll)
  · exact put.scheduleFlush

theorem mem_dueEntries {timestamp : Int} {force : Bool} {dueEntry : DueEntry} :
    dueEntry ∈ state.dueEntries flushIntervalMs timestamp force ↔
      ∃ entry, state.entries.get? dueEntry.activityId = some entry ∧
        isDue flushIntervalMs timestamp force entry = true ∧
        dueEntry.signatureChanged = entry.signatureChanged ∧
        dueEntry.inputs = entry.buildInputs := by
  rw [dueEntries, List.mem_filterMap]
  constructor
  · rintro ⟨⟨activityId, entry⟩, inside, isSome⟩
    dsimp only at isSome
    split at isSome
    · rename_i due
      cases isSome
      exact ⟨entry, (OrderedMap.get?_eq_some_iff _ _ _).mpr inside, due, rfl, rfl⟩
    · cases isSome
  · rintro ⟨entry, present, due, isChanged, built⟩
    refine ⟨(dueEntry.activityId, entry), (OrderedMap.get?_eq_some_iff _ _ _).mp present, ?_⟩
    dsimp only
    rw [if_pos due, ← isChanged, ← built]

theorem dueEntries_distinct (timestamp : Int) (force : Bool) :
    ((state.dueEntries flushIntervalMs timestamp force).map DueEntry.activityId).Nodup := by
  have sublist : ∀ entries : List (Text × BufferedThreadActivityWrite),
      ((entries.filterMap fun pair =>
        if isDue flushIntervalMs timestamp force pair.2 then
          some ({ activityId := pair.1, signatureChanged := pair.2.signatureChanged
                  inputs := pair.2.buildInputs } : DueEntry)
        else none).map DueEntry.activityId).Sublist (entries.map Prod.fst) := by
    intro entries
    induction entries with
    | nil => exact List.Sublist.slnil
    | cons first rest ih =>
      rw [List.filterMap_cons]
      split
      · rename_i isNone
        exact ih.cons _
      · rename_i isSome
        split at isSome
        · cases isSome
          exact ih.cons_cons _
        · cases isSome
  exact state.entries.distinct.sublist (sublist state.entries.entries)

theorem WriterSound.flushStarts (sound : WriterSound scheme state) (timestamp : Int)
    {link : FlushLink} {rest : List FlushLink}
    (isPending : state.pending = link :: rest) :
    WriterSound scheme { state with
      pending := rest
      running := some (link, state.dueEntries flushIntervalMs timestamp link.force) } where
  table := sound.table
  entries := sound.entries
  last := sound.last
  due := by
    intro _ _ running
    cases running
    refine ⟨dueEntries_distinct timestamp link.force, ?_, ?_, ?_⟩
    · intro dueEntry isDue
      obtain ⟨entry, present, _⟩ := mem_dueEntries.mp isDue
      exact ⟨entry, present⟩
    · intro dueEntry isDue _ entry present
      obtain ⟨other, isOther, _, _, built⟩ := mem_dueEntries.mp isDue
      cases isOther.symm.trans present
      exact built
    · intro dueEntry isDue isUnchanged entry present
      obtain ⟨other, isOther, _, isChanged, _⟩ := mem_dueEntries.mp isDue
      cases isOther.symm.trans present
      obtain ⟨persisted, same⟩ := (unchanged_iff entry).mp (isChanged.symm.trans isUnchanged)
      exact ⟨persisted, fun _ => same⟩
  links := by
    rintro other (later | ⟨due, running⟩ | settled)
    · exact sound.links other (Or.inl (isPending ▸ List.mem_cons_of_mem _ later))
    · cases running
      exact sound.links link (Or.inl (isPending ▸ List.mem_cons_self))
    · exact sound.links other (Or.inr (Or.inr settled))
  fresh := by
    intro _ _ running _ forced activityId entry present
    cases running
    refine ⟨⟨activityId, entry.signatureChanged, entry.buildInputs⟩,
      mem_dueEntries.mpr ⟨entry, present, ?_, rfl, rfl⟩, rfl, id⟩
    rw [isDue, forced]
    rfl
  clean := sound.clean
  returned := sound.returned

theorem WriterSound.settleOther {next : WriterState} (sound : WriterSound scheme state)
    {link : FlushLink} {outcome : FlushOutcome} (isLink : state.HasLink link)
    (notFlushed : outcome ≠ .flushed) (messages : next.messages = state.messages)
    (entries : next.entries = state.entries) (queued : next.queued = state.queued)
    (idle : next.running = none) (settled : next.settled = (link, outcome) :: state.settled)
    (returned : next.returned = state.returned)
    (pending : ∀ other ∈ next.pending, other ∈ state.pending) : WriterSound scheme next where
  table := messages ▸ sound.table
  entries := messages ▸ entries ▸ sound.entries
  last := by
    rw [messages, entries]
    rw [show next.lastQueued = state.lastQueued by
      funext activityId; rw [lastQueued, lastQueued, queued]]
    exact sound.last
  due := by
    intro _ _ running
    rw [idle] at running
    cases running
  links := by
    rw [queued]
    rintro other (isPending | ⟨due, running⟩ | ⟨otherOutcome, isSettled⟩)
    · exact sound.links other (Or.inl (pending other isPending))
    · rw [idle] at running
      cases running
    · rw [settled] at isSettled
      rcases List.mem_cons.mp isSettled with same | earlier
      · cases same
        exact sound.links link isLink
      · exact sound.links other (Or.inr (Or.inr ⟨_, earlier⟩))
  fresh := by
    intro _ _ running
    rw [idle] at running
    cases running
  clean := by
    intro other isSettled
    rw [queued, entries, messages]
    rw [settled] at isSettled
    rcases List.mem_cons.mp isSettled with same | earlier
    · cases same
      exact absurd rfl notFlushed
    · exact sound.clean other earlier
  returned := by
    rw [returned, settled]
    intro entry member
    obtain ⟨isSettled, isFlushAll⟩ := sound.returned entry member
    exact ⟨List.mem_cons_of_mem _ isSettled, isFlushAll⟩

theorem WriterSound.finishFlush (sound : WriterSound scheme state) (persistedAt : Int)
    {link : FlushLink} {due : List DueEntry} (running : state.running = some (link, due)) :
    WriterSound scheme
      (({ state with running := none }.finishFlush persistedAt due).settle link .flushed) := by
  have current := sound.due link due running
  obtain ⟨messages, written, flushTimer, finished, wrote⟩ :=
    @finishFlush_written _ { state with running := none } due sound.table
      sound.entries current persistedAt
  have signatureBefore : ∀ activityId entryAfter,
      (due.foldl (markPersisted persistedAt) written).get? activityId = some entryAfter →
      ∃ entry, state.entries.get? activityId = some entry ∧
        entryAfter.signature = entry.signature := by
    intro activityId entryAfter isAfter
    cases present : state.entries.get? activityId with
    | none =>
      rw [finished_absent current wrote persistedAt present] at isAfter
      cases isAfter
    | some entry =>
      rcases kept_or_stored sound.entries current wrote persistedAt present with
        ⟨other, isOther, same⟩ | ⟨dropped, _⟩
      · cases isOther.symm.trans isAfter
        exact ⟨entry, rfl, same⟩
      · rw [dropped] at isAfter
        cases isAfter
  rw [finished]
  refine ⟨wrote.sound, entries_after_flush sound.entries current wrote persistedAt, ?_, ?_, ?_,
    ?_, ?_, ?_⟩
  · intro activityId write isLast
    obtain ⟨built, atEntry⟩ := sound.last activityId write isLast
    refine ⟨built, ?_⟩
    rcases atEntry with ⟨entry, present, same⟩ | ⟨absent, stored⟩
    · rw [← same]
      exact kept_or_stored sound.entries current wrote persistedAt present
    · refine Or.inr ⟨finished_absent current wrote persistedAt absent, ?_⟩
      exact wrote.kept _ _ (fun dueEntry isDue _ =>
        not_due_of_absent current absent dueEntry isDue) stored
  · intro _ _ isRunning
    cases isRunning
  · rintro other (isPending | ⟨otherDue, isRunning⟩ | ⟨outcome, isSettled⟩)
    · exact sound.links other (Or.inl isPending)
    · cases isRunning
    · rcases List.mem_cons.mp isSettled with same | earlier
      · cases same
        exact sound.links link (Or.inr (Or.inl ⟨due, running⟩))
      · exact sound.links other (Or.inr (Or.inr ⟨_, earlier⟩))
  · intro _ _ isRunning
    cases isRunning
  · intro other isSettled nothingQueued forced activityId entryAfter isAfter
    obtain ⟨entry, present, same⟩ := signatureBefore activityId entryAfter isAfter
    rw [same]
    rcases List.mem_cons.mp isSettled with isSame | earlier
    · cases isSame
      obtain ⟨dueEntry, isDue, rfl, unchanged⟩ :=
        sound.fresh link due running nothingQueued forced activityId entry present
      cases isChanged : dueEntry.signatureChanged with
      | true => exact stored_changed sound.entries current wrote isDue isChanged present
      | false =>
        obtain ⟨persisted, isLast⟩ := (unchanged_iff entry).mp (unchanged isChanged)
        obtain ⟨signature, isSignature, stored⟩ :=
          (sound.entries _ _ present).persisted persisted
        cases isLast.symm.trans isSignature
        exact stored_unchanged current wrote isDue isChanged stored
    · exact stored_present sound.entries current wrote present
        (sound.clean other earlier nothingQueued forced activityId entry present)
  · intro entry member
    obtain ⟨isSettled, isFlushAll⟩ := sound.returned entry member
    exact ⟨List.mem_cons_of_mem _ isSettled, isFlushAll⟩

theorem WriterSound.flushAllReturns (sound : WriterSound scheme state)
    {entry : FlushLink × FlushOutcome}
    (found : state.settled.find? (fun entry =>
      entry.1.flushAll && entry ∉ state.returned) = some entry) :
    WriterSound scheme { state with flushTimer := false, returned := entry :: state.returned } := by
  refine ⟨sound.table, sound.entries, sound.last, sound.due, sound.links, sound.fresh,
    sound.clean, ?_⟩
  intro other member
  rcases List.mem_cons.mp member with rfl | earlier
  · have passes := List.find?_some found
    rw [Bool.and_eq_true] at passes
    exact ⟨List.mem_of_find?_eq_some found, passes.1⟩
  · exact sound.returned other earlier

theorem WriterSound.step {next : WriterState} {event : WriterEvent}
    (sound : WriterSound scheme state) (built : QueueBuilt scheme state event)
    (apart : QueueApart state event) (stepped : writerStep flushIntervalMs state event = some next) :
    WriterSound scheme next := by
  cases event with
  | queue activityId signature inputs force terminal =>
    cases stepped
    exact sound.queue built apart
  | flushAll =>
    cases stepped
    exact sound.enqueueFlush true true fun _ => rfl
  | timerFires =>
    simp only [writerStep] at stepped
    split at stepped
    · cases stepped
      exact sound.enqueueFlush false false fun isFlushAll => isFlushAll
    · cases stepped
  | flushStarts timestamp =>
    simp only [writerStep] at stepped
    split at stepped
    · rename_i isPending
      cases stepped
      exact sound.flushStarts timestamp isPending
    · cases stepped
  | flushFinishes persistedAt =>
    obtain ⟨⟨link, due⟩, running, rfl⟩ := Option.map_eq_some_iff.mp stepped
    exact sound.finishFlush persistedAt running
  | flushFails =>
    obtain ⟨⟨link, due⟩, running, rfl⟩ := Option.map_eq_some_iff.mp stepped
    exact sound.settleOther (Or.inr (Or.inl ⟨due, running⟩)) (by simp) rfl rfl rfl rfl rfl rfl
      fun _ isPending => isPending
  | flushSkipped =>
    simp only [writerStep] at stepped
    split at stepped
    · rename_i link rest _ idle isPending
      cases stepped
      refine @WriterSound.settleOther _ _ _ sound link .skipped
        (Or.inl (isPending ▸ List.mem_cons_self)) (by simp) rfl rfl rfl idle rfl rfl ?_
      exact fun other later => isPending ▸ List.mem_cons_of_mem _ later
    · cases stepped
  | flushAllReturns =>
    simp only [writerStep] at stepped
    split at stepped
    · rename_i found
      cases stepped
      exact sound.flushAllReturns found
    · cases stepped

open Transition

/-- A run that replaces no entry while a flush has it in hand loses no write. -/
theorem buffered_writes_kept (scheme : ItemScheme) (flushIntervalMs : Int)
    {messages : ThreadMessages} (sound : messages.Sound) {state : WriterState}
    (reached : Reaches (writerStep flushIntervalMs)
      (fun state event => QueueBuilt scheme state event ∧ QueueApart state event)
      (initial messages) state) : state.NothingLost := by
  have always := reached.invariant (WriterSound scheme) (.initial sound)
    fun before event after before_sound allowed stepped =>
      before_sound.step allowed.1 allowed.2 stepped
  exact always.nothingLost

namespace Sample

def noMessages : ThreadMessages where
  rows := []
  sequence := 1

theorem noMessages_sound : noMessages.Sound where
  below := fun row member => by cases member
  identified := fun row member => by cases member
  keyed := fun row member => by cases member
  distinct := List.nodup_nil

def shown (activityId signature : Text) : List ThreadActivityInput :=
  [{ threadId := 1, itemId := activityId, role := none, kind := "chat".toList
     text := signature, state := none, payloadJson := none }]

def oneItem : ItemScheme where
  keys := fun activityId => [(1, activityId)]
  inputs := shown
  keyed := fun _ _ => rfl
  distinct := fun _ => List.nodup_singleton _
  apart := fun activityId other key inOne inOther => by
    cases List.mem_singleton.mp inOne
    exact (Prod.mk.inj (List.mem_singleton.mp inOther)).2

def queueText (text : String) (terminal : Bool) : WriterEvent :=
  .queue "reply".toList text.toList (shown "reply".toList text.toList) false terminal

def idleCheck (state : WriterState) : WriterEvent → Bool
  | .queue activityId signature inputs _ _ =>
    inputs = oneItem.inputs activityId signature && state.running.isNone
  | _ => true

theorem idleCheck_clean {state : WriterState} {event : WriterEvent}
    (passes : idleCheck state event = true) :
    QueueBuilt oneItem state event ∧ QueueApart state event := by
  cases event with
  | queue activityId signature inputs force terminal =>
    obtain ⟨built, idle⟩ := Bool.and_eq_true_iff.mp passes
    have isBuilt : inputs = oneItem.inputs activityId signature := of_decide_eq_true built
    refine ⟨isBuilt, fun link due running => ?_⟩
    rw [running] at idle
    cases idle
  | _ => exact ⟨trivial, trivial⟩

def builtCheck (_ : WriterState) : WriterEvent → Bool
  | .queue activityId signature inputs _ _ => inputs = oneItem.inputs activityId signature
  | _ => true

theorem builtCheck_built {state : WriterState} {event : WriterEvent}
    (passes : builtCheck state event = true) : QueueBuilt oneItem state event := by
  cases event with
  | queue activityId signature inputs force terminal =>
    have isBuilt : inputs = oneItem.inputs activityId signature := of_decide_eq_true passes
    exact isBuilt
  | _ => trivial

def keptEvents : List WriterEvent :=
  [queueText "one" false, .flushAll, .flushStarts 0, .flushFinishes 1, .flushAllReturns]

def replacedEvents : List WriterEvent :=
  [queueText "one" false, .flushAll, .flushStarts 0, queueText "two" true, .flushFinishes 1,
    .flushStarts 2, .flushFinishes 2, .flushAllReturns, .flushAll, .flushStarts 3,
    .flushFinishes 3, .flushAllReturns]

end Sample

theorem buffered_writes_kept_reply : ∃ state : WriterState,
    (state.returned.any fun entry => entry.2 = .flushed) = true ∧ state.NothingLost := by
  have ran : ((run (writerStep 500) Sample.idleCheck (initial Sample.noMessages)
      Sample.keptEvents).any fun state =>
        state.returned.any fun entry => entry.2 = .flushed) = true := by decide +kernel
  obtain ⟨state, isRun, returned⟩ := (Option.any_eq_true _ _).mp ran
  exact ⟨state, returned, buffered_writes_kept Sample.oneItem 500 Sample.noMessages_sound
    ((reaches_of_run isRun).weaken fun _ _ => Sample.idleCheck_clean)⟩

def WriterState.losesReply (state : WriterState) : Bool :=
  (state.returned.any fun entry =>
    entry.2 = .flushed && entry.1.queuedBefore = state.queued.length) &&
  (state.lastQueued "reply".toList).any fun write => write.inputs.any fun input =>
    !state.messages.rows.any fun row => row.hasKey input.key && row.put input = row

theorem losesReply_lost (loses : state.losesReply = true) : ¬ state.NothingLost := by
  obtain ⟨returned, last⟩ := Bool.and_eq_true_iff.mp loses
  obtain ⟨⟨link, outcome⟩, isReturned, passes⟩ := List.any_eq_true.mp returned
  obtain ⟨flushed, nothingQueued⟩ := Bool.and_eq_true_iff.mp passes
  obtain ⟨write, isLast, hidden⟩ := (Option.any_eq_true _ _).mp last
  obtain ⟨input, member, notShown⟩ := List.any_eq_true.mp hidden
  intro kept
  cases of_decide_eq_true flushed
  obtain ⟨row, rows, shown⟩ := kept link isReturned (of_decide_eq_true nothingQueued) _ write
    isLast input member
  have inFilter : row ∈ state.messages.rows.filter (·.hasKey input.key) := by simp [rows]
  obtain ⟨inside, hasKey⟩ := List.mem_filter.mp inFilter
  rw [Bool.not_eq_true', List.any_eq_false] at notShown
  refine notShown row inside ?_
  rw [hasKey, decide_eq_true shown]
  rfl

theorem replaced_reply_lost : ¬ ∀ (scheme : ItemScheme) (flushIntervalMs : Int)
    (messages : ThreadMessages) (state : WriterState), messages.Sound →
    Reaches (writerStep flushIntervalMs) (QueueBuilt scheme) (initial messages) state →
      state.NothingLost := by
  have ran : ((run (writerStep 500) Sample.builtCheck (initial Sample.noMessages)
      Sample.replacedEvents).any WriterState.losesReply) = true := by decide +kernel
  obtain ⟨state, isRun, loses⟩ := (Option.any_eq_true _ _).mp ran
  intro always
  exact losesReply_lost loses (always Sample.oneItem 500 Sample.noMessages state
    Sample.noMessages_sound ((reaches_of_run isRun).weaken fun _ _ => Sample.builtCheck_built))

end Metidos.Thread
