import Metidos.Client.ThreadTurn

/-!
When the error path of a turn brings back what was there before it.
-/

namespace Metidos.Client

open JsText

variable {context : StoreContext} {before after state composed : TurnState}
variable {options : SendOptions} {attempt : SendAttempt}

def runStateOf (store : ThreadStore) (id : Nat) : Option RunState :=
  (store.byId.get? id).map fun thread => thread.runStatus.state

/-- The thread of a turn has the run state of before, and one that was created for the turn is not
left working. -/
def ThreadRolledBack (before after : TurnState) : FailedTurn → Prop
  | .creation _ _ _ => after.store = before.store
  | .createdSend _ _ created _ _ => runStateOf after.store created.id ≠ some .working
  | .send _ _ _ => ∀ id, before.selectedThreadId = some id →
      runStateOf after.store id = runStateOf before.store id
  | .stop _ _ _ _ => ∀ id, before.selectedThreadId = some id →
      runStateOf after.store id = runStateOf before.store id

def Unshown (before : TurnState) (messages : List TranscriptMessage) : Prop :=
  ∀ message ∈ messages, message.id ≠ before.optimisticThreadMessageId

def MessageGone (before after : TurnState) : FailedTurn → Prop
  | .creation _ _ _ => Unshown before after.threadMessages
  | .createdSend _ _ _ _ _ => Unshown before after.threadMessages
  | .send _ _ _ => Unshown before after.threadMessages
  | .stop _ _ _ _ => True

def FailedTurn.draftOf (failure : FailedTurn) (state : TurnState) : Text :=
  match failure with
  | .creation options _ _ => state.readChatComposerDraft options.initialChatInput
  | .createdSend options _ _ _ _ => state.readChatComposerDraft options.initialChatInput
  | .send options _ _ => state.readChatComposerDraft options.initialChatInput
  | .stop _ _ _ _ => state.readChatComposerDraft []

structure RolledBack (before after : TurnState) (failure : FailedTurn) : Prop where
  thread : ThreadRolledBack before after failure
  message : MessageGone before after failure
  draft : failure.draftOf after = failure.draftOf before
  images : after.images = before.images

def clockTime (context : StoreContext) (clock : Text) : WithBot Int :=
  instant (parseThreadSnapshotTimestamp context (some clock))

def BehindClock (context : StoreContext) (thread : RpcThread) (clock : Text) : Prop :=
  snapshotTime context thread < clockTime context clock ∨
    snapshotTime context thread = clockTime context clock ∧ snapshotTime context thread ≠ ⊥ ∧
      statusTime context thread < clockTime context clock

def AheadOfClock (context : StoreContext) (thread : RpcThread) (clock : Text) : Prop :=
  clockTime context clock < snapshotTime context thread ∨
    clockTime context clock = snapshotTime context thread ∧ clockTime context clock ≠ ⊥ ∧
      clockTime context clock < statusTime context thread

/-- Nothing stands in the way of the undo: the clock of the client is not past the thread, or was
so far behind it that the store did not take the optimistic one, and where the selection has
changed the transcript does not show the message. -/
def UndoTaken (context : StoreContext) (before : TurnState) : FailedTurn → Prop
  | .creation _ _ _ => True
  | .createdSend options _ created sending _ =>
    let stored := upserted context (before.store.byId.get? created.id) created
    (stored.runStatus.state ≠ .working ∧
      AheadOfClock context stored options.startedAt) ∧
    (sending.selectedThreadId = some created.id ∨ Unshown before sending.threadMessages)
  | .send options sending _ =>
    (∀ id thread, before.selectedThreadId = some id → before.store.byId.get? id = some thread →
      thread.runStatus.state = .working ∨
        if sending.selectedThreadId = some id then
          ¬BehindClock context thread options.startedAt
        else AheadOfClock context thread options.startedAt) ∧
    (sending.selectedThreadId = before.selectedThreadId ∨ Unshown before sending.threadMessages)
  | .stop _ stoppedAt _ _ =>
    ∀ id thread, before.selectedThreadId = some id → before.store.byId.get? id = some thread →
      thread.runStatus.state = .stopped ∨
        ¬BehindClock context thread stoppedAt

theorem lessFresh_clock {thread optimistic : RpcThread} {clock : Text}
    (updatedAt : optimistic.updatedAt = clock)
    (statusAt : optimistic.runStatus.updatedAt = some clock) :
    (lessFresh context thread optimistic = false ↔ ¬BehindClock context thread clock) ∧
      (lessFresh context optimistic thread = true ↔ AheadOfClock context thread clock) := by
  have snapshotClock : snapshotTime context optimistic = clockTime context clock := by
    rw [snapshotTime, updatedAt, clockTime]
  have statusClock : statusTime context optimistic = clockTime context clock := by
    rw [statusTime, statusAt, clockTime]
  rw [← Bool.not_eq_true, lessFresh_iff, lessFresh_iff, snapshotClock, statusClock]
  exact ⟨Iff.rfl, Iff.rfl⟩

theorem upserted_state (existing thread : RpcThread) :
    (upserted context (some existing) thread).runStatus.state =
      if lessFresh context thread existing then existing.runStatus.state
      else thread.runStatus.state := by
  rw [upserted]
  by_cases equivalent : threadsEquivalent existing thread = true
  · have same := congrArg RpcThreadRunStatus.state (threadsEquivalent_fresh equivalent).2.2.2
    rw [if_pos (Or.inl equivalent)]
    split
    · rfl
    · exact same
  · by_cases stale : lessFresh context thread existing = true
    · rw [if_pos (Or.inr stale), if_pos stale]
    · rw [if_neg (not_or.mpr ⟨equivalent, stale⟩), if_neg stale]

theorem undo_state (thread optimistic : RpcThread) :
    (upserted context (some (upserted context (some thread) optimistic)) thread).runStatus.state =
        thread.runStatus.state ↔
      optimistic.runStatus.state = thread.runStatus.state ∨
        lessFresh context thread optimistic = false := by
  rw [upserted_state]
  by_cases stale : lessFresh context optimistic thread = true
  · have kept : upserted context (some thread) optimistic = thread := by
      rw [upserted, if_pos (Or.inr stale)]
    rw [kept, lessFresh_self]
    exact ⟨fun _ => Or.inr (lessFresh_asymm stale), fun _ => rfl⟩
  · by_cases equivalent : threadsEquivalent thread optimistic = true
    · have same := congrArg RpcThreadRunStatus.state (threadsEquivalent_fresh equivalent).2.2.2
      have kept : upserted context (some thread) optimistic = thread := by
        rw [upserted, if_pos (Or.inl equivalent)]
      rw [kept, lessFresh_self]
      exact ⟨fun _ => Or.inl same.symm, fun _ => rfl⟩
    · have taken : upserted context (some thread) optimistic = optimistic := by
        rw [upserted, if_neg (not_or.mpr ⟨equivalent, stale⟩)]
      rw [taken]
      cases older : lessFresh context thread optimistic with
      | true => simp
      | false => simp

theorem optimistic_state (thread optimistic : RpcThread) :
    (upserted context (some thread) optimistic).runStatus.state = thread.runStatus.state ↔
      optimistic.runStatus.state = thread.runStatus.state ∨
        lessFresh context optimistic thread = true := by
  rw [upserted_state]
  cases lessFresh context optimistic thread with
  | true => simp
  | false => simp

theorem upsert_runState (listed : Listed before.store) (thread : RpcThread) :
    ((upsertThreadStore context before.store thread).byId.get? thread.id) =
      some (upserted context (before.store.byId.get? thread.id) thread) := by
  rw [upsertThreadStore_get? listed, if_pos rfl]

structure Composed (before composed : TurnState) (options : SendOptions) (attempt : SendAttempt) :
    Prop where
  store : composed.store = before.store
  selected : composed.selectedThreadId = before.selectedThreadId
  messages : composed.threadMessages = before.threadMessages
  draft : composed.draft = some []
  images : composed.images = []
  text : attempt.text = trim (before.readChatComposerDraft options.initialChatInput)
  startedAt : attempt.optimisticStartedAt = options.startedAt
  messageId : attempt.optimisticMessageId = before.optimisticThreadMessageId
  pendingImages : attempt.pendingImages = before.images
  sending : attempt.sendingThreadId = before.selectedThreadId.filter (0 < ·)
  previous : attempt.previousThread = attempt.sendingThreadId.bind before.store.byId.get?
  target : attempt.targetThread = attempt.previousThread

theorem composed_of (comes : composedTurn before options = some (composed, attempt)) :
    Composed before composed options attempt := by
  simp only [composedTurn, sendThreadTurn] at comes
  split at comes
  · cases comes
  · rename_i started first isStart
    split at comes
    · cases comes
    · rename_i last ready isComposed
      cases comes
      split at isStart
      · cases isStart
      · split at isStart
        · cases isStart
        · split at isStart
          · cases isStart
          · cases isStart
            rw [composeTurn] at isComposed
            split at isComposed
            · cases isComposed
            · split at isComposed
              · cases isComposed
              · cases isComposed
                exact ⟨rfl, rfl, rfl, rfl, rfl, rfl, rfl, rfl, rfl, rfl, rfl, rfl⟩

theorem restoreComposer_store (state : TurnState) (attempt : SendAttempt) :
    (restoreComposer state attempt).store = state.store ∧
      (restoreComposer state attempt).threadMessages = state.threadMessages := by
  simp only [restoreComposer]
  split
  · split
    · exact ⟨rfl, rfl⟩
    · exact ⟨rfl, rfl⟩
  · split
    · exact ⟨rfl, rfl⟩
    · exact ⟨rfl, rfl⟩

theorem restoreComposer_composer (noDraft : state.draft = some []) (noImages : state.images = [])
    (fallback : Text) :
    (restoreComposer state attempt).readChatComposerDraft fallback = attempt.text ∧
      (restoreComposer state attempt).images = attempt.pendingImages := by
  have empty : state.readChatComposerDraft [] = [] := by
    rw [TurnState.readChatComposerDraft, noDraft]
    rfl
  have cleared : (state.setChatComposerDraft attempt.text).images = [] := noImages
  simp only [restoreComposer, if_pos empty, if_pos cleared]
  exact ⟨rfl, rfl⟩

theorem rollBackSelection_store (error : Text) :
    (rollBackSelection context state attempt error).store =
      match attempt.previousThread with
      | none => state.store
      | some previousThread => upsertThreadStore context state.store previousThread := by
  rw [rollBackSelection]
  cases attempt.previousThread with
  | none => rfl
  | some previousThread => rfl

theorem rollBackSelection_rest (error : Text) :
    (rollBackSelection context state attempt error).threadMessages =
        removeOptimisticThreadMessageById state.threadMessages attempt.optimisticMessageId ∧
      (rollBackSelection context state attempt error).draft = state.draft ∧
        (rollBackSelection context state attempt error).images = state.images := by
  rw [rollBackSelection]
  cases attempt.previousThread with
  | none => exact ⟨rfl, rfl, rfl⟩
  | some previousThread => exact ⟨rfl, rfl, rfl⟩

theorem failSend_store (error : Text) :
    (failSend context state attempt error).store =
      if failsInSelection state attempt then
        match attempt.previousThread with
        | none => state.store
        | some previousThread => upsertThreadStore context state.store previousThread
      else state.store := by
  have restored := restoreComposer_store (if failsInSelection state attempt then
    rollBackSelection context state attempt error else state) attempt
  rw [failSend, restored.1]
  split
  · exact rollBackSelection_store error
  · rfl

theorem failSend_composer (noDraft : state.draft = some []) (noImages : state.images = [])
    (error fallback : Text) :
    (failSend context state attempt error).readChatComposerDraft fallback = attempt.text ∧
      (failSend context state attempt error).images = attempt.pendingImages := by
  obtain ⟨_, sameDraft, sameImages⟩ :=
    @rollBackSelection_rest context state attempt error
  rw [failSend]
  split
  · exact restoreComposer_composer (sameDraft.trans noDraft) (sameImages.trans noImages) fallback
  · exact restoreComposer_composer noDraft noImages fallback

theorem failSend_messages (error : Text) :
    (∀ message ∈ (failSend context state attempt error).threadMessages,
        message.id ≠ attempt.optimisticMessageId) ↔
      failsInSelection state attempt = true ∨
        ∀ message ∈ state.threadMessages, message.id ≠ attempt.optimisticMessageId := by
  have restored := restoreComposer_store (if failsInSelection state attempt then
    rollBackSelection context state attempt error else state) attempt
  rw [failSend, restored.2]
  by_cases inSelection : failsInSelection state attempt = true
  · rw [if_pos inSelection, (rollBackSelection_rest error).1, removeOptimisticThreadMessageById]
    refine ⟨fun _ => Or.inl inSelection, fun _ message member => ?_⟩
    exact of_decide_eq_true (List.mem_filter.mp member).2
  · rw [if_neg inSelection]
    exact ⟨Or.inr, fun either => either.resolve_left inSelection⟩

theorem applyOptimisticSend_store (threadId : Nat) :
    (applyOptimisticSend context state attempt threadId).store =
      match attempt.targetThread with
      | none => state.store
      | some target =>
        upsertThreadStore context state.store
          (sendingThread target attempt.optimisticStartedAt) := by
  rw [applyOptimisticSend]
  cases attempt.targetThread with
  | none =>
    dsimp only
    split
    · rfl
    · rfl
  | some target =>
    dsimp only
    split
    · rfl
    · rfl

theorem applyOptimisticSend_composer (threadId : Nat) :
    (applyOptimisticSend context state attempt threadId).draft = state.draft ∧
      (applyOptimisticSend context state attempt threadId).images = state.images := by
  rw [applyOptimisticSend]
  cases attempt.targetThread with
  | none =>
    dsimp only
    split
    · exact ⟨rfl, rfl⟩
    · exact ⟨rfl, rfl⟩
  | some target =>
    dsimp only
    split
    · exact ⟨rfl, rfl⟩
    · exact ⟨rfl, rfl⟩

def Trimmed (draft : Text) : Prop := trim draft = draft

def DraftTrimmed (before : TurnState) : FailedTurn → Prop
  | .creation options _ _ => Trimmed (before.readChatComposerDraft options.initialChatInput)
  | .createdSend options _ _ _ _ => Trimmed (before.readChatComposerDraft options.initialChatInput)
  | .send options _ _ => Trimmed (before.readChatComposerDraft options.initialChatInput)
  | .stop _ _ _ _ => True

theorem rolledBack_iff {failure : FailedTurn} {draft : Text} {thread message : Prop}
    (isThread : ThreadRolledBack before after failure ↔ thread)
    (isMessage : MessageGone before after failure ↔ message)
    (isDraft : failure.draftOf after = draft) (sameImages : after.images = before.images) :
    RolledBack before after failure ↔
      draft = failure.draftOf before ∧ thread ∧ message := by
  constructor
  · rintro ⟨threadBack, gone, sameDraft, _⟩
    exact ⟨isDraft ▸ sameDraft, isThread.mp threadBack, isMessage.mp gone⟩
  · rintro ⟨sameDraft, threadBack, gone⟩
    exact ⟨isThread.mpr threadBack, isMessage.mpr gone, isDraft.trans sameDraft, sameImages⟩

theorem creation_rolledBack {creating : Meanwhile} {error : Text}
    (comes : composedTurn before options = some (composed, attempt))
    (unsent : attempt.sendingThreadId = none) :
    RolledBack before (failSend context (composed.meanwhile creating) attempt error)
        (.creation options creating error) ↔
      DraftTrimmed before (.creation options creating error) := by
  have facts := composed_of comes
  have inSelection : failsInSelection (composed.meanwhile creating) attempt = true := by
    rw [failsInSelection, unsent]
  have composer := @failSend_composer context (composed.meanwhile creating) attempt facts.draft
    facts.images error options.initialChatInput
  have threadBack : ThreadRolledBack before
      (failSend context (composed.meanwhile creating) attempt error)
        (.creation options creating error) := by
    rw [ThreadRolledBack, failSend_store, if_pos inSelection, facts.previous, unsent]
    exact facts.store
  have gone : MessageGone before (failSend context (composed.meanwhile creating) attempt error)
      (.creation options creating error) := by
    rw [MessageGone, Unshown, ← facts.messageId]
    exact (failSend_messages error).mpr (Or.inl inSelection)
  rw [rolledBack_iff (iff_true_intro threadBack) (iff_true_intro gone) composer.1
    (composer.2.trans facts.pendingImages), facts.text]
  exact ⟨fun both => both.1, fun trimmed => ⟨trimmed, trivial, trivial⟩⟩

theorem createdSend_rolledBack {creating sending : Meanwhile} {created : RpcThread} {error : Text}
    (listed : Listed before.store)
    (comes : composedTurn before options = some (composed, attempt))
    (unsent : attempt.sendingThreadId = none) :
    RolledBack before
        (failSend context
          ((applyOptimisticSend context
            (threadCreated context (composed.meanwhile creating) attempt created).1
            (threadCreated context (composed.meanwhile creating) attempt created).2
            created.id).meanwhile sending)
          (threadCreated context (composed.meanwhile creating) attempt created).2 error)
        (.createdSend options creating created sending error) ↔
      DraftTrimmed before (.createdSend options creating created sending error) ∧
        UndoTaken context before (.createdSend options creating created sending error) := by
  have facts := composed_of comes
  generalize isTarget : threadCreated context (composed.meanwhile creating) attempt created = target
  have isState : target.1 = (composed.meanwhile creating).upsertThread context created := by
    rw [← isTarget]
    rfl
  have isAttempt : target.2 = { attempt with
      sendingThreadId := some created.id, targetThread := some created } := by
    rw [← isTarget]
    rfl
  generalize isShown : (applyOptimisticSend context target.1 target.2 created.id).meanwhile sending =
    shown
  have shownStore : shown.store = upsertThreadStore context
      (upsertThreadStore context before.store created)
      (sendingThread created options.startedAt) := by
    rw [← isShown]
    refine (applyOptimisticSend_store created.id).trans ?_
    rw [isAttempt, isState]
    dsimp only
    rw [facts.startedAt, ← facts.store]
    rfl
  have shownDraft : shown.draft = some [] := by
    rw [← isShown]
    refine (applyOptimisticSend_composer created.id).1.trans ?_
    rw [isState]
    exact facts.draft
  have shownImages : shown.images = [] := by
    rw [← isShown]
    refine (applyOptimisticSend_composer created.id).2.trans ?_
    rw [isState]
    exact facts.images
  have shownMessages : shown.threadMessages = sending.threadMessages := by
    rw [← isShown]
    rfl
  have shownSelected : shown.selectedThreadId = sending.selectedThreadId := by
    rw [← isShown]
    rfl
  have noPrevious : target.2.previousThread = none := by
    rw [isAttempt]
    dsimp only
    rw [facts.previous, unsent]
    rfl
  have composer := @failSend_composer context shown target.2 shownDraft shownImages error
    options.initialChatInput
  have sameAttempt : target.2.text = attempt.text ∧ target.2.pendingImages = attempt.pendingImages ∧
      target.2.optimisticMessageId = attempt.optimisticMessageId := by
    rw [isAttempt]
    exact ⟨rfl, rfl, rfl⟩
  have finalStore : (failSend context shown target.2 error).store = shown.store := by
    rw [failSend_store, noPrevious]
    split
    · rfl
    · rfl
  have threadBack : ThreadRolledBack before (failSend context shown target.2 error)
      (.createdSend options creating created sending error) ↔
      ((upserted context (before.store.byId.get? created.id) created).runStatus.state ≠ .working ∧
        AheadOfClock context (upserted context (before.store.byId.get? created.id) created)
          options.startedAt) := by
    have clocks := @lessFresh_clock context
      (upserted context (before.store.byId.get? created.id) created)
      (sendingThread created options.startedAt) options.startedAt rfl rfl
    have idSame : (sendingThread created options.startedAt).id = created.id := rfl
    rw [ThreadRolledBack, finalStore, shownStore, runStateOf,
      upsertThreadStore_get? (upsertThreadStore_listed listed created), if_pos idSame.symm,
      upsert_runState listed, Option.map_some, upserted_state, ← clocks.2]
    cases lessFresh context (sendingThread created options.startedAt)
        (upserted context (before.store.byId.get? created.id) created) with
    | true => simp
    | false => simp [sendingThread]
  have gone : MessageGone before (failSend context shown target.2 error)
      (.createdSend options creating created sending error) ↔
      (sending.selectedThreadId = some created.id ∨ Unshown before sending.threadMessages) := by
    have inSelection : failsInSelection shown target.2 = true ↔
        sending.selectedThreadId = some created.id := by
      rw [failsInSelection, isAttempt, shownSelected]
      exact decide_eq_true_iff
    rw [MessageGone, Unshown, Unshown, ← facts.messageId, ← sameAttempt.2.2, ← inSelection,
      ← shownMessages]
    exact failSend_messages error
  rw [rolledBack_iff threadBack gone composer.1
    (composer.2.trans (sameAttempt.2.1.trans facts.pendingImages)), sameAttempt.1, facts.text]
  rfl

theorem sentFrom (facts : Composed before composed options attempt) {id : Nat}
    (sends : attempt.sendingThreadId = some id) :
    before.selectedThreadId = some id ∧
      attempt.previousThread = before.store.byId.get? id ∧
        attempt.targetThread = before.store.byId.get? id := by
  have selected := facts.sending.symm.trans sends
  have previous : attempt.previousThread = before.store.byId.get? id := by
    rw [facts.previous, sends]
    rfl
  exact ⟨(Option.filter_eq_some_iff.mp selected).1, previous, facts.target.trans previous⟩

theorem send_runState {shown : TurnState} {id : Nat} {thread : RpcThread} (error : Text)
    (listed : Listed before.store) (present : before.store.byId.get? id = some thread)
    (previous : attempt.previousThread = some thread)
    (shownStore : shown.store =
      upsertThreadStore context before.store (sendingThread thread options.startedAt)) :
    runStateOf (failSend context shown attempt error).store id =
      some (if failsInSelection shown attempt then
        (upserted context
          (some (upserted context (some thread) (sendingThread thread options.startedAt)))
          thread).runStatus.state
      else
        (upserted context (some thread)
          (sendingThread thread options.startedAt)).runStatus.state) := by
  have isId : thread.id = id := listed.keyed id thread present
  have sameId : (sendingThread thread options.startedAt).id = id := isId
  have shownThread : shown.store.byId.get? id =
      some (upserted context (some thread) (sendingThread thread options.startedAt)) := by
    rw [shownStore, upsertThreadStore_get? listed, if_pos sameId.symm, present]
  have shownListed : Listed shown.store := by
    rw [shownStore]
    exact upsertThreadStore_listed listed _
  rw [runStateOf, failSend_store, previous]
  by_cases inSelection : failsInSelection shown attempt = true
  · rw [if_pos inSelection, if_pos inSelection]
    dsimp only
    rw [upsertThreadStore_get? shownListed, if_pos isId.symm, shownThread]
    rfl
  · rw [if_neg inSelection, if_neg inSelection, shownThread]
    rfl

theorem send_threadBack {shown : TurnState} {sending : Meanwhile} {id : Nat} {error : Text}
    (listed : Listed before.store) (selected : before.selectedThreadId = some id)
    (sends : attempt.sendingThreadId = some id)
    (previous : attempt.previousThread = before.store.byId.get? id)
    (shownSelected : shown.selectedThreadId = sending.selectedThreadId)
    (shownStore : shown.store = match before.store.byId.get? id with
      | none => before.store
      | some thread =>
        upsertThreadStore context before.store (sendingThread thread options.startedAt)) :
    ThreadRolledBack before (failSend context shown attempt error) (.send options sending error) ↔
      ∀ id thread, before.selectedThreadId = some id →
        before.store.byId.get? id = some thread →
          thread.runStatus.state = .working ∨
            if sending.selectedThreadId = some id then
              ¬BehindClock context thread options.startedAt
            else AheadOfClock context thread options.startedAt := by
  have single : ThreadRolledBack before (failSend context shown attempt error)
      (.send options sending error) ↔
        runStateOf (failSend context shown attempt error).store id =
          runStateOf before.store id := by
    rw [ThreadRolledBack, selected]
    exact ⟨fun all => all id rfl, fun same _ isId => Option.some.inj isId ▸ same⟩
  rw [single]
  cases present : before.store.byId.get? id with
  | none =>
    rw [present] at previous shownStore
    have sameStore : (failSend context shown attempt error).store = before.store := by
      rw [failSend_store, previous, shownStore]
      exact ite_self _
    rw [sameStore]
    refine iff_of_true rfl fun other thread isSelected isThread => ?_
    rw [selected] at isSelected
    cases isSelected
    rw [present] at isThread
    cases isThread
  | some thread =>
    rw [present] at previous shownStore
    have onlyThread : (∀ id thread, before.selectedThreadId = some id →
        before.store.byId.get? id = some thread →
          thread.runStatus.state = .working ∨
            if sending.selectedThreadId = some id then
              ¬BehindClock context thread options.startedAt
            else AheadOfClock context thread options.startedAt) ↔
        (thread.runStatus.state = .working ∨
          if sending.selectedThreadId = some id then
            ¬BehindClock context thread options.startedAt
          else AheadOfClock context thread options.startedAt) := by
      refine ⟨fun all => all id thread selected present, fun holds other old isId isOld => ?_⟩
      rw [selected] at isId
      cases isId
      rw [present] at isOld
      cases isOld
      exact holds
    have inSelection : failsInSelection shown attempt = true ↔
        sending.selectedThreadId = some id := by
      rw [failsInSelection, sends, shownSelected]
      exact decide_eq_true_iff
    have isWorking : (sendingThread thread options.startedAt).runStatus.state =
        thread.runStatus.state ↔ thread.runStatus.state = .working := eq_comm
    have clocks := @lessFresh_clock context thread (sendingThread thread options.startedAt)
      options.startedAt rfl rfl
    rw [onlyThread, send_runState error listed present previous shownStore, runStateOf, present,
      Option.map_some, Option.some.injEq]
    by_cases stays : sending.selectedThreadId = some id
    · rw [if_pos (inSelection.mpr stays), if_pos stays, undo_state, isWorking,
        clocks.1]
    · rw [if_neg (mt inSelection.mp stays), if_neg stays, optimistic_state,
        isWorking, clocks.2]

theorem send_rolledBack {sending : Meanwhile} {error : Text} {id : Nat}
    (listed : Listed before.store)
    (comes : composedTurn before options = some (composed, attempt))
    (sends : attempt.sendingThreadId = some id) :
    RolledBack before
        (failSend context ((applyOptimisticSend context composed attempt id).meanwhile sending)
          attempt error)
        (.send options sending error) ↔
      DraftTrimmed before (.send options sending error) ∧
        UndoTaken context before (.send options sending error) := by
  have facts := composed_of comes
  obtain ⟨selected, previous, target⟩ := sentFrom facts sends
  generalize isShown : (applyOptimisticSend context composed attempt id).meanwhile sending = shown
  have shownStore : shown.store = match before.store.byId.get? id with
      | none => before.store
      | some thread =>
        upsertThreadStore context before.store (sendingThread thread options.startedAt) := by
    rw [← isShown]
    refine (applyOptimisticSend_store id).trans ?_
    rw [target, facts.startedAt, facts.store]
  have shownDraft : shown.draft = some [] := by
    rw [← isShown]
    exact (applyOptimisticSend_composer id).1.trans facts.draft
  have shownImages : shown.images = [] := by
    rw [← isShown]
    exact (applyOptimisticSend_composer id).2.trans facts.images
  have shownMessages : shown.threadMessages = sending.threadMessages := by
    rw [← isShown]
    rfl
  have shownSelected : shown.selectedThreadId = sending.selectedThreadId := by
    rw [← isShown]
    rfl
  have composer := @failSend_composer context shown attempt shownDraft shownImages error
    options.initialChatInput
  have threadBack := @send_threadBack context before options attempt shown sending id error listed
    selected sends previous shownSelected shownStore
  have gone : MessageGone before (failSend context shown attempt error)
      (.send options sending error) ↔
      (sending.selectedThreadId = before.selectedThreadId ∨
        Unshown before sending.threadMessages) := by
    have inSelection : failsInSelection shown attempt = true ↔
        sending.selectedThreadId = before.selectedThreadId := by
      rw [failsInSelection, sends, shownSelected, selected]
      exact decide_eq_true_iff
    rw [MessageGone, Unshown, Unshown, ← facts.messageId, ← inSelection, ← shownMessages]
    exact failSend_messages error
  rw [rolledBack_iff threadBack gone composer.1 (composer.2.trans facts.pendingImages), facts.text]
  rfl

theorem failStop_store (attempt : StopAttempt) (error : Text) :
    (failStop context state attempt error).store =
      match attempt.previousThread with
      | none => state.store
      | some previousThread => upsertThreadStore context state.store previousThread := by
  rw [failStop]
  cases attempt.previousThread with
  | none => rfl
  | some previousThread =>
    dsimp only
    split
    · rfl
    · rfl

theorem failStop_composer (attempt : StopAttempt) (error : Text) :
    (failStop context state attempt error).draft = state.draft ∧
      (failStop context state attempt error).images = state.images := by
  rw [failStop]
  cases attempt.previousThread with
  | none => exact ⟨rfl, rfl⟩
  | some previousThread =>
    dsimp only
    split
    · exact ⟨rfl, rfl⟩
    · exact ⟨rfl, rfl⟩

structure Stopping (context : StoreContext) (before stopped : TurnState) (stoppedAt : Text)
    (attempt : StopAttempt) : Prop where
  selected : before.selectedThreadId = some attempt.threadId
  previous : attempt.previousThread = before.store.byId.get? attempt.threadId
  store : stopped.store = match attempt.previousThread with
    | none => before.store
    | some thread => upsertThreadStore context before.store (stoppedThread thread stoppedAt)
  draft : stopped.draft = before.draft
  images : stopped.images = before.images

theorem stopping_of {stopped : TurnState} {isWorking : Bool} {stoppedAt : Text}
    {attempt : StopAttempt}
    (comes : stopSelectedThreadTurn context before isWorking stoppedAt = (stopped, some attempt)) :
    Stopping context before stopped stoppedAt attempt := by
  rw [stopSelectedThreadTurn] at comes
  split at comes
  · cases comes
  · rename_i id isId
    have selected := (Option.filter_eq_some_iff.mp isId).1
    split at comes
    · cases comes
    · dsimp only at comes
      split at comes
      · rename_i absent
        cases comes
        exact ⟨selected, absent.symm, rfl, rfl, rfl⟩
      · rename_i thread present
        cases comes
        exact ⟨selected, present.symm, rfl, rfl, rfl⟩

theorem stop_threadBack {stopped : TurnState} {isWorking : Bool} {stoppedAt : Text}
    {attempt : StopAttempt} {stopping : Meanwhile} {error : Text} (listed : Listed before.store)
    (facts : Stopping context before stopped stoppedAt attempt) :
    ThreadRolledBack before (failStop context (stopped.meanwhile stopping) attempt error)
        (.stop isWorking stoppedAt stopping error) ↔
      UndoTaken context before (.stop isWorking stoppedAt stopping error) := by
  have finalStore := @failStop_store context (stopped.meanwhile stopping) attempt error
  have sameStore : (stopped.meanwhile stopping).store = stopped.store := rfl
  rw [sameStore, facts.store] at finalStore
  rw [ThreadRolledBack, UndoTaken, facts.selected]
  constructor
  · rintro back id thread ⟨⟩ present
    have isId : thread.id = attempt.threadId := listed.keyed _ thread present
    have stoppedId : (stoppedThread thread stoppedAt).id = attempt.threadId := isId
    have same := back attempt.threadId rfl
    rw [facts.previous.trans present] at finalStore
    dsimp only at finalStore
    rw [finalStore, runStateOf, upsertThreadStore_get? (upsertThreadStore_listed listed _),
      if_pos isId.symm, upsertThreadStore_get? listed, if_pos stoppedId.symm, runStateOf, present,
      Option.map_some, Option.map_some, Option.some.injEq, undo_state,
      (lessFresh_clock rfl rfl).1] at same
    exact same.imp_left Eq.symm
  · rintro taken id ⟨⟩
    cases present : before.store.byId.get? attempt.threadId with
    | none =>
      rw [facts.previous.trans present] at finalStore
      rw [finalStore]
    | some thread =>
      have isId : thread.id = attempt.threadId := listed.keyed _ thread present
      have stoppedId : (stoppedThread thread stoppedAt).id = attempt.threadId := isId
      rw [facts.previous.trans present] at finalStore
      dsimp only at finalStore
      rw [finalStore, runStateOf, upsertThreadStore_get? (upsertThreadStore_listed listed _),
        if_pos isId.symm, upsertThreadStore_get? listed, if_pos stoppedId.symm, runStateOf,
        present, Option.map_some, Option.map_some, Option.some.injEq, undo_state,
        (lessFresh_clock rfl rfl).1]
      exact (taken attempt.threadId thread rfl present).imp_left Eq.symm

theorem stop_rolledBack {stopped : TurnState} {isWorking : Bool} {stoppedAt : Text}
    {attempt : StopAttempt} {stopping : Meanwhile} {error : Text} (listed : Listed before.store)
    (comes : stopSelectedThreadTurn context before isWorking stoppedAt = (stopped, some attempt)) :
    RolledBack before (failStop context (stopped.meanwhile stopping) attempt error)
        (.stop isWorking stoppedAt stopping error) ↔
      UndoTaken context before (.stop isWorking stoppedAt stopping error) := by
  have facts := stopping_of comes
  have composer := @failStop_composer context (stopped.meanwhile stopping) attempt error
  have sameDraft : (FailedTurn.stop isWorking stoppedAt stopping error).draftOf
      (failStop context (stopped.meanwhile stopping) attempt error) =
        (FailedTurn.stop isWorking stoppedAt stopping error).draftOf before := by
    rw [FailedTurn.draftOf, FailedTurn.draftOf, TurnState.readChatComposerDraft,
      TurnState.readChatComposerDraft, composer.1]
    exact congrArg (Option.getD · []) facts.draft
  have gone : MessageGone before (failStop context (stopped.meanwhile stopping) attempt error)
      (.stop isWorking stoppedAt stopping error) := trivial
  rw [rolledBack_iff (stop_threadBack listed facts) (iff_true_intro gone) sameDraft
    (composer.2.trans facts.images)]
  exact ⟨fun all => all.2.1, fun taken => ⟨rfl, taken, trivial⟩⟩

theorem failed_turns_rolled_back (context : StoreContext) {before after : TurnState}
    (failure : FailedTurn) (listed : Listed before.store)
    (fails : failTurn context before failure = some after) :
    RolledBack before after failure ↔
      DraftTrimmed before failure ∧ UndoTaken context before failure := by
  cases failure with
  | creation options creating error =>
    rw [failTurn] at fails
    split at fails
    · cases fails
    · rename_i composed attempt comes
      split at fails
      · rename_i unsent
        cases fails
        rw [creation_rolledBack comes unsent]
        exact ⟨fun trimmed => ⟨trimmed, trivial⟩, And.left⟩
      · cases fails
  | createdSend options creating created sending error =>
    rw [failTurn] at fails
    split at fails
    · cases fails
    · rename_i composed attempt comes
      split at fails
      · rename_i unsent
        cases fails
        exact createdSend_rolledBack listed comes unsent
      · cases fails
  | send options sending error =>
    rw [failTurn] at fails
    split at fails
    · cases fails
    · rename_i composed attempt comes
      split at fails
      · cases fails
      · rename_i id sends
        cases fails
        exact send_rolledBack listed comes sends
  | stop isWorking stoppedAt stopping error =>
    rw [failTurn] at fails
    split at fails
    · cases fails
    · rename_i stopped attempt comes
      cases fails
      rw [stop_rolledBack listed comes]
      exact ⟨fun taken => ⟨trivial, taken⟩, And.right⟩

namespace Sample

def composing : TurnState where
  store := createThreadStore twoDates [thread 1 .idle "1970-01-01T00:00:01.000Z"]
  threadMessages := []
  draft := some "Hello".toList
  images := []
  selectedThreadId := some 1
  selectedThreadRunState := .idle
  chatError := []
  isSending := false
  isStoppingThread := false
  optimisticThreadMessageId := -1

def rejectedAt (startedAt : String) : FailedTurn :=
  .send
    { initialChatInput := [], selectedThreadIsWorking := false, canCreateThread := true,
      modelSupportsImages := false, pendingImageReads := 0, startedAt := startedAt.toList }
    { selectedThreadId := some 1, selectedThreadRunState := .working,
      threadMessages :=
        [{ id := -1, threadId := 1, text := "Hello".toList, images := [],
           createdAt := startedAt.toList }] }
    "Rejected".toList

end Sample

theorem failed_turns_rolled_back_sameInstant :
    ∃ after, failTurn Sample.twoDates Sample.composing
        (Sample.rejectedAt "1970-01-01T00:00:01.000Z") = some after ∧
      RolledBack Sample.composing after (Sample.rejectedAt "1970-01-01T00:00:01.000Z") := by
  have fails : (failTurn Sample.twoDates Sample.composing
      (Sample.rejectedAt "1970-01-01T00:00:01.000Z")).isSome = true := by
    decide +kernel
  have trimmed : trim "Hello".toList = "Hello".toList := by decide +kernel
  have stored : Sample.composing.store.byId.get? 1 =
      some (Sample.thread 1 .idle "1970-01-01T00:00:01.000Z") := by
    decide +kernel
  have fresh : lessFresh Sample.twoDates (Sample.thread 1 .idle "1970-01-01T00:00:01.000Z")
      (sendingThread (Sample.thread 1 .idle "1970-01-01T00:00:01.000Z")
        "1970-01-01T00:00:01.000Z".toList) = false := by
    decide +kernel
  obtain ⟨after, isAfter⟩ := Option.isSome_iff_exists.mp fails
  refine ⟨after, isAfter, (failed_turns_rolled_back Sample.twoDates _
    (createThreadStore_listed _ _) isAfter).mpr ⟨trimmed, ?_, Or.inl rfl⟩⟩
  rintro id thread ⟨⟩ present
  rw [stored] at present
  cases present
  exact Or.inr ((if_pos rfl).mpr ((lessFresh_clock rfl rfl).1.mp fresh))

theorem rejected_send_left_working : ¬ ∀ (context : StoreContext) (before after : TurnState)
    (failure : FailedTurn), Listed before.store → failTurn context before failure = some after →
      RolledBack before after failure := by
  have ran : ((failTurn Sample.twoDates Sample.composing
      (Sample.rejectedAt "1970-01-01T00:00:02.000Z")).any fun after =>
        runStateOf after.store 1 = some .working ∧
          runStateOf Sample.composing.store 1 = some .idle) = true := by
    decide +kernel
  obtain ⟨after, fails, left⟩ := (Option.any_eq_true _ _).mp ran
  obtain ⟨isWorking, wasIdle⟩ := of_decide_eq_true left
  intro always
  have back := (always Sample.twoDates Sample.composing after _ (createThreadStore_listed _ _)
    fails).thread 1 rfl
  rw [isWorking, wasIdle] at back
  cases back

end Metidos.Client
