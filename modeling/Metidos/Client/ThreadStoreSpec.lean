import Metidos.Client.ThreadStore
import Mathlib.Data.Int.ConditionallyCompleteOrder
import Mathlib.Order.WithBot

/-!
What one operation of the thread store does to the snapshot of each thread, and that the list of
ids stays the list of the keys.
-/

namespace Metidos.Client

variable {context : StoreContext} {store : ThreadStore} {thread other left middle right : RpcThread}

def instant : Option Int → WithBot Int
  | none => ⊥
  | some value => value

theorem differenceSign_lt (left right : Option Int) :
    differenceSign left right = some .lt ↔ instant left < instant right := by
  cases left with
  | none =>
    cases right with
    | none => simp [differenceSign, instant]
    | some right => simp [differenceSign, instant]
  | some left =>
    cases right with
    | none => simp [differenceSign, instant]
    | some right => simp [differenceSign, instant, Int.compare_eq_lt]

theorem differenceSign_eq (left right : Option Int) :
    differenceSign left right = some .eq ↔ instant left = instant right ∧ instant left ≠ ⊥ := by
  cases left with
  | none =>
    cases right with
    | none => simp [differenceSign, instant]
    | some right => simp [differenceSign, instant]
  | some left =>
    cases right with
    | none => simp [differenceSign, instant]
    | some right => simp [differenceSign, instant]

def snapshotTime (context : StoreContext) (thread : RpcThread) : WithBot Int :=
  instant (parseThreadSnapshotTimestamp context (some thread.updatedAt))

def statusTime (context : StoreContext) (thread : RpcThread) : WithBot Int :=
  instant (parseThreadSnapshotTimestamp context thread.runStatus.updatedAt)

theorem lessFresh_iff (left right : RpcThread) : lessFresh context left right = true ↔
    snapshotTime context left < snapshotTime context right ∨
      snapshotTime context left = snapshotTime context right ∧ snapshotTime context left ≠ ⊥ ∧
        statusTime context left < statusTime context right := by
  rw [lessFresh, decide_eq_true_eq, compareThreadsByFreshness]
  by_cases same : differenceSign (parseThreadSnapshotTimestamp context (some left.updatedAt))
      (parseThreadSnapshotTimestamp context (some right.updatedAt)) = some .eq
  · obtain ⟨equal, present⟩ := (differenceSign_eq _ _).mp same
    have times : snapshotTime context left = snapshotTime context right := equal
    rw [if_neg (not_not_intro same), differenceSign_lt]
    constructor
    · intro less
      exact Or.inr ⟨times, present, less⟩
    · rintro (less | ⟨_, _, less⟩)
      · exact absurd less (times ▸ lt_irrefl _)
      · exact less
  · rw [if_pos same, differenceSign_lt]
    constructor
    · exact Or.inl
    · rintro (less | ⟨times, present, _⟩)
      · exact less
      · exact absurd ((differenceSign_eq _ _).mpr ⟨times, present⟩) same

theorem lessFresh_self (thread : RpcThread) : lessFresh context thread thread = false := by
  refine Bool.eq_false_iff.mpr fun less => ?_
  rcases (lessFresh_iff thread thread).mp less with less | ⟨_, _, less⟩
  · exact lt_irrefl _ less
  · exact lt_irrefl _ less

theorem lessFresh_negTrans (first : lessFresh context middle left = false)
    (second : lessFresh context right middle = false) :
    lessFresh context right left = false := by
  refine Bool.eq_false_iff.mpr fun less => ?_
  have notFirst := mt (lessFresh_iff middle left).mpr (Bool.eq_false_iff.mp first)
  have notSecond := mt (lessFresh_iff right middle).mpr (Bool.eq_false_iff.mp second)
  push Not at notFirst notSecond
  rcases (lessFresh_iff right left).mp less with earlier | ⟨same, present, earlier⟩
  · exact absurd (lt_of_lt_of_le earlier notFirst.1) (not_lt_of_ge notSecond.1)
  · have middleTime : snapshotTime context middle = snapshotTime context left :=
      le_antisymm (same ▸ notSecond.1) notFirst.1
    have laterMiddle := notFirst.2 middleTime (middleTime ▸ same ▸ present)
    have laterRight := notSecond.2 (same.trans middleTime.symm) present
    exact absurd (lt_of_lt_of_le earlier laterMiddle) (not_lt_of_ge laterRight)

theorem lessFresh_asymm {left right : RpcThread} (less : lessFresh context left right = true) :
    lessFresh context right left = false := by
  refine Bool.eq_false_iff.mpr fun greater => ?_
  rcases (lessFresh_iff left right).mp less with first | ⟨same, _, first⟩
  · rcases (lessFresh_iff right left).mp greater with second | ⟨same, _, _⟩
    · exact lt_asymm first second
    · exact absurd first (same ▸ lt_irrefl _)
  · rcases (lessFresh_iff right left).mp greater with second | ⟨_, _, second⟩
    · exact absurd second (same ▸ lt_irrefl _)
    · exact lt_asymm first second

theorem threadsEquivalent_fresh (equivalent : threadsEquivalent left right = true) :
    left.id = right.id ∧ left.updatedAt = right.updatedAt ∧ left.pinnedAt = right.pinnedAt ∧
      left.runStatus = right.runStatus := by
  simp only [threadsEquivalent, Bool.and_eq_true, beq_iff_eq] at equivalent
  exact ⟨by tauto, by tauto, by tauto, by tauto⟩

structure Listed (store : ThreadStore) : Prop where
  keyed : ∀ id thread, store.byId.get? id = some thread → thread.id = id
  nodup : store.orderedIds.Nodup
  members : ∀ id, id ∈ store.orderedIds ↔ store.byId.has id = true

theorem listed_empty : Listed emptyThreadStore :=
  ⟨fun _ _ present => (by cases present), List.nodup_nil, fun _ =>
    ⟨fun member => (by cases member), fun present => (by cases present)⟩⟩

theorem spliceIn_perm {α : Type} (index : Nat) (item : α) (items : List α) :
    (spliceIn index item items).Perm (item :: items) := by
  have joined : (items.take index ++ item :: items.drop index).Perm
      (item :: (items.take index ++ items.drop index)) := List.perm_middle
  rwa [List.take_append_drop] at joined

def Keyed (byId : OrderedMap Nat RpcThread) : Prop :=
  ∀ id thread, byId.get? id = some thread → thread.id = id

theorem Keyed.set {byId : OrderedMap Nat RpcThread} (keyed : Keyed byId) (thread : RpcThread) :
    Keyed (byId.set thread.id thread) := by
  intro id other present
  rw [OrderedMap.get?_set] at present
  split at present
  · rename_i same
    rw [← Option.some.inj present, same]
  · exact keyed id other present

theorem Keyed.keepFreshest {byId : OrderedMap Nat RpcThread} (keyed : Keyed byId)
    (thread : RpcThread) : Keyed (keepFreshest context byId thread) := by
  rw [Client.keepFreshest]
  split
  · exact keyed.set thread
  · split
    · exact keyed.set thread
    · exact keyed

theorem keyed_freshestById (items : List RpcThread) : Keyed (freshestById context items) := by
  have general : ∀ byId, Keyed byId → Keyed (items.foldl (keepFreshest context) byId) := by
    induction items with
    | nil => exact fun _ keyed => keyed
    | cons thread items ih => exact fun byId keyed => ih _ (keyed.keepFreshest thread)
  exact general _ fun _ _ present => by cases present

theorem Keyed.ids {byId : OrderedMap Nat RpcThread} (keyed : Keyed byId) :
    byId.values.map RpcThread.id = byId.keys := by
  rw [OrderedMap.values, OrderedMap.keys, List.map_map]
  refine List.map_congr_left fun entry member => ?_
  exact keyed entry.1 entry.2 ((OrderedMap.get?_eq_some_iff _ _ _).mpr member)

theorem createThreadStore_listed (context : StoreContext) (items : List RpcThread) :
    Listed (createThreadStore context items) := by
  have keyed : Keyed (freshestById context items) := keyed_freshestById items
  have sortedKeyed : Keyed ((freshestById context items).sortKeys fun left right => left ≤ right) := by
    intro id thread present
    rw [OrderedMap.get?_sortKeys] at present
    exact keyed id thread present
  have ids : (createThreadStore context items).orderedIds.Perm
      ((freshestById context items).sortKeys fun left right => left ≤ right).keys := by
    rw [← sortedKeyed.ids]
    exact (List.mergeSort_perm _ _).map RpcThread.id
  refine ⟨keyed, ids.nodup_iff.mpr (OrderedMap.keys_nodup _), fun id => ?_⟩
  rw [ids.mem_iff, ← OrderedMap.has_iff, OrderedMap.has, OrderedMap.has, OrderedMap.get?_sortKeys]
  rfl

def upserted (context : StoreContext) (existing : Option RpcThread) (thread : RpcThread) :
    RpcThread :=
  match existing with
  | none => thread
  | some existingThread =>
    if threadsEquivalent existingThread thread ∨ lessFresh context thread existingThread then
      existingThread
    else thread

theorem upsertThreadStore_get? (listed : Listed store) (thread : RpcThread) (id : Nat) :
    (upsertThreadStore context store thread).byId.get? id =
      if id = thread.id then some (upserted context (store.byId.get? id) thread)
      else store.byId.get? id := by
  have stays : ∀ existing, store.byId.get? thread.id = some existing →
      store.byId.get? id = if id = thread.id then some existing else store.byId.get? id := by
    intro existing present
    split
    · rename_i same
      rw [same, present]
    · rfl
  rw [upsertThreadStore]
  cases present : store.byId.get? thread.id with
  | none =>
    dsimp only
    rw [OrderedMap.get?_set]
    split
    · rename_i same
      rw [same, present]
      rfl
    · rfl
  | some existing =>
    dsimp only
    have isUpserted : (if id = thread.id then
        some (upserted context (store.byId.get? id) thread) else store.byId.get? id) =
        if id = thread.id then some (upserted context (some existing) thread)
        else store.byId.get? id := by
      split
      · rename_i same
        rw [same, present]
      · rfl
    rw [isUpserted, upserted]
    split
    · rename_i equivalent
      rw [if_pos (Or.inl equivalent)]
      exact stays existing present
    · rename_i differs
      split
      · rename_i stale
        rw [if_pos (Or.inr stale)]
        exact stays existing present
      · rename_i fresh
        rw [if_neg (not_or.mpr ⟨differs, fresh⟩)]
        split
        · rename_i absent
          have member := (listed.members thread.id).mpr (by rw [OrderedMap.has, present]; rfl)
          exact absurd member (List.idxOf?_eq_none_iff.mp absent)
        · split
          · rw [OrderedMap.get?_set]
          · rw [OrderedMap.get?_set]

theorem upsertThreadStore_listed (listed : Listed store) (thread : RpcThread) :
    Listed (upsertThreadStore context store thread) := by
  have hasSet : ∀ id, (store.byId.set thread.id thread).has id = true ↔
      id = thread.id ∨ store.byId.has id = true := by
    intro id
    rw [OrderedMap.has_iff, OrderedMap.has_iff, OrderedMap.mem_keys_set]
  rw [upsertThreadStore]
  cases present : store.byId.get? thread.id with
  | none =>
    have absent : thread.id ∉ store.orderedIds := by
      rw [listed.members, OrderedMap.has, present]
      exact Bool.false_ne_true
    have perm := spliceIn_perm
      (findThreadStoreInsertionIndex context store.orderedIds store.byId thread) thread.id
      store.orderedIds
    refine ⟨Keyed.set listed.keyed thread, ?_, fun id => ?_⟩
    · exact perm.nodup_iff.mpr (List.nodup_cons.mpr ⟨absent, listed.nodup⟩)
    · rw [hasSet, perm.mem_iff, List.mem_cons, listed.members]
  | some existing =>
    have has : store.byId.has thread.id = true := by
      rw [OrderedMap.has, present]
      rfl
    have sameIds : ∀ id, (store.byId.set thread.id thread).has id = true ↔
        store.byId.has id = true := by
      intro id
      rw [hasSet]
      constructor
      · rintro (same | before)
        · exact same ▸ has
        · exact before
      · exact Or.inr
    dsimp only
    split
    · exact listed
    · split
      · exact listed
      · split
        · exact createThreadStore_listed context _
        · rename_i index isIndex
          obtain ⟨inside, isThread, _⟩ := List.idxOf?_eq_some_iff.mp isIndex
          split
          · refine ⟨Keyed.set listed.keyed thread, listed.nodup, fun id => ?_⟩
            rw [sameIds, listed.members]
          · have removed := List.getElem_cons_eraseIdx_perm inside
            rw [isThread] at removed
            have perm := (spliceIn_perm (findThreadStoreInsertionIndex context
              (store.orderedIds.eraseIdx index) (store.byId.set thread.id thread) thread)
              thread.id (store.orderedIds.eraseIdx index)).trans removed
            refine ⟨Keyed.set listed.keyed thread, perm.nodup_iff.mpr listed.nodup,
              fun id => ?_⟩
            rw [sameIds, perm.mem_iff, listed.members]

theorem removeThreadFromStore_get? (store : ThreadStore) (threadId id : Nat) :
    (removeThreadFromStore store threadId).byId.get? id =
      if id = threadId then none else store.byId.get? id := by
  rw [removeThreadFromStore]
  split
  · rename_i absent
    split
    · rename_i same
      rw [same, absent]
    · rfl
  · rw [OrderedMap.get?_delete]

theorem removeThreadFromStore_listed (listed : Listed store) (threadId : Nat) :
    Listed (removeThreadFromStore store threadId) := by
  have gets := removeThreadFromStore_get? store threadId
  refine ⟨fun id thread present => ?_, ?_, fun id => ?_⟩
  · rw [gets] at present
    split at present
    · cases present
    · exact listed.keyed id thread present
  · rw [removeThreadFromStore]
    split
    · exact listed.nodup
    · exact listed.nodup.sublist List.filter_sublist
  · rw [OrderedMap.has, gets]
    rw [removeThreadFromStore]
    split
    · rename_i absent
      rw [listed.members, OrderedMap.has]
      split
      · rename_i same
        rw [same, absent]
      · rfl
    · rw [List.mem_filter, listed.members, OrderedMap.has, decide_eq_true_eq]
      split
      · rename_i same
        simp [same]
      · rename_i differs
        simp [differs]

def KeepsUp (context : StoreContext) (before after : ThreadStore) : Prop :=
  ∀ id old, before.byId.get? id = some old →
    ∃ new, after.byId.get? id = some new ∧ lessFresh context new old = false

theorem KeepsUp.refl (context : StoreContext) (store : ThreadStore) :
    KeepsUp context store store :=
  fun _ old present => ⟨old, present, lessFresh_self old⟩

theorem KeepsUp.trans {before between after : ThreadStore} (first : KeepsUp context before between)
    (second : KeepsUp context between after) : KeepsUp context before after := by
  intro id old present
  obtain ⟨middle, isMiddle, fresher⟩ := first id old present
  obtain ⟨new, isNew, freshest⟩ := second id middle isMiddle
  exact ⟨new, isNew, lessFresh_negTrans fresher freshest⟩

theorem keepsUp_upsert (listed : Listed store) (thread : RpcThread) :
    KeepsUp context store (upsertThreadStore context store thread) := by
  intro id old present
  rw [upsertThreadStore_get? listed]
  split
  · refine ⟨_, rfl, ?_⟩
    rw [present, upserted]
    split
    · exact lessFresh_self old
    · rename_i accepted
      exact Bool.eq_false_iff.mpr fun stale => accepted (Or.inr stale)
  · exact ⟨old, present, lessFresh_self old⟩

theorem upserts_spec (threads : List RpcThread) (listed : Listed store) :
    Listed (threads.foldl (upsertThreadStore context) store) ∧
      KeepsUp context store (threads.foldl (upsertThreadStore context) store) ∧
        ∀ id, (threads.foldl (upsertThreadStore context) store).byId.has id = true →
          store.byId.has id = true ∨ ∃ thread ∈ threads, thread.id = id := by
  induction threads generalizing store with
  | nil => exact ⟨listed, KeepsUp.refl context store, fun _ has => Or.inl has⟩
  | cons thread threads ih =>
    obtain ⟨stillListed, keeps, ids⟩ := ih (upsertThreadStore_listed listed thread)
    refine ⟨stillListed, (keepsUp_upsert listed thread).trans keeps, fun id has => ?_⟩
    rcases ids id has with before | ⟨later, member, isId⟩
    · rw [OrderedMap.has, upsertThreadStore_get? listed] at before
      split at before
      · rename_i same
        exact Or.inr ⟨thread, List.mem_cons_self, same.symm⟩
      · exact Or.inl before
    · exact Or.inr ⟨later, List.mem_cons_of_mem _ member, isId⟩

end Metidos.Client

namespace Metidos.Client.Sample

def twoDates : StoreContext where
  dateParse := fun text =>
    if text = "1970-01-01T00:00:01.000Z".toList then some 1000
    else if text = "1970-01-01T00:00:02.000Z".toList then some 2000
    else none
  localeCompare := fun left right =>
    if left = right then .eq else if JsText.utf16 left < JsText.utf16 right then .lt else .gt

def thread (id : Nat) (state : RunState) (updatedAt : String) : RpcThread where
  id
  projectId := 1
  worktreePath := "/work".toList
  title := "Thread".toList
  summary := none
  model := "model".toList
  reasoningEffort := "medium".toList
  webSearchAccess := false
  githubAccess := false
  gitAccess := none
  sqliteAccess := none
  webServerAccess := none
  agentsAccess := false
  calendarAccess := none
  notificationsAccess := none
  weatherAccess := none
  threadsAccess := none
  cronsAccess := none
  metidosAccess := false
  pluginAccessGroups := none
  permissions := none
  unsafeMode := false
  piSessionId := none
  piSessionFile := none
  piLeafEntryId := none
  pinnedAt := none
  createdAt := "1970-01-01T00:00:01.000Z".toList
  updatedAt := updatedAt.toList
  lastRunAt := none
  usage := none
  compaction := {
    estimatedTriggerTokens := 100000, estimatedTriggerSource := .heuristic,
    maxObservedInputTokens := none, inferredCount := 0, lastInferredAt := none,
    lastInferredBeforeInputTokens := none, lastInferredAfterInputTokens := none }
  runStatus := {
    state, startedAt := none, updatedAt := some updatedAt.toList, error := none,
    hasUnreadError := false, phase := none, queue := none }

end Metidos.Client.Sample
