import Metidos.Client.ThreadPolling

/-!
What the updates of the polls may do to the store, and when they do no more.
-/

namespace Metidos.Client

open Transition

variable {context : StoreContext} {state next : PollState} {event : PollEvent}

/-- An update of the store that leaves nothing older, drops nothing that was added and brings
nothing back that was removed. -/
structure NeverBack (context : StoreContext) (history : PollHistory) (before after : ThreadStore) :
    Prop where
  fresh : ∀ id old new, before.byId.get? id = some old → after.byId.get? id = some new →
    lessFresh context new old = false
  kept : ∀ id ∈ history.added, before.byId.has id = true → after.byId.has id = true
  gone : ∀ id ∈ history.removed, before.byId.has id = false → after.byId.has id = false

/-- The history of the poll that an event belongs to. The result of a list that arrives is
computed then. -/
def PollEvent.history (state : PollState) : PollEvent → Option PollHistory
  | .statusesLoaded _ _ => state.statusRefresh.map StatusRefresh.history
  | .statusesFailed => state.statusRefresh.map StatusRefresh.history
  | .statusDetailLoaded _ _ => state.statusRefresh.map StatusRefresh.history
  | .statusDetailFailed => state.statusRefresh.map StatusRefresh.history
  | .threadsListed _ _ => state.discovery.map fun poll => { poll.history with added := [] }
  | .listingFailed => state.discovery.map DiscoveryPoll.history
  | .discoveryDetailLoaded _ _ => state.discovery.map DiscoveryPoll.history
  | .discoveryDetailFailed => state.discovery.map DiscoveryPoll.history
  | _ => none

structure PollResult where
  latestThreads : Option (List RpcThread)
  answered : List RpcThread

def PollEvent.shown (context : StoreContext) (state : PollState) :
    PollEvent → Option PollResult
  | .statusesLoaded loaded nowMs =>
    match state.statusRefresh with
    | some refresh =>
      if (refresh.selectedSummary loaded).any (state.awaitsDetail nowMs) then none
      else some ⟨none, loaded⟩
    | none => none
  | .statusDetailLoaded detail _ =>
    match state.statusRefresh.map StatusRefresh.stage with
    | some (.detail loaded summary) =>
      some ⟨none,
        if state.selectedThreadId = some summary.id then loaded ++ [detail] else loaded⟩
    | _ => none
  | .statusDetailFailed =>
    match state.statusRefresh.map StatusRefresh.stage with
    | some (.detail loaded _) => some ⟨none, loaded⟩
    | _ => none
  | .threadsListed loaded nowMs =>
    match state.discovery with
    | some poll =>
      if poll.cancelled then none
      else if (poll.activeSelectedThreadId.bind
          (PollState.nextDiscoveredThreadStore context state.latestThreads loaded).byId.get?).any
            (state.awaitsDetail nowMs) then none
      else some ⟨some state.latestThreads, loaded⟩
    | none => none
  | .discoveryDetailLoaded detail _ =>
    match state.discovery with
    | some ⟨_, false, .detail latest loaded summary, _⟩ =>
      some ⟨some latest,
        if state.selectedThreadId = some summary.id then loaded ++ loaded ++ [detail]
        else loaded⟩
    | _ => none
  | .discoveryDetailFailed =>
    match state.discovery with
    | some ⟨_, false, .detail latest loaded _, _⟩ => some ⟨some latest, loaded⟩
    | _ => none
  | _ => none

/-- Nothing that a poll shows was removed since it was sent, and a prepared store goes in only
where the threads are still those of the render from which it was prepared. -/
def InStep (context : StoreContext) (state : PollState) (event : PollEvent) : Prop :=
  ∀ result ∈ event.shown context state,
    (∀ latest ∈ result.latestThreads, ∀ id,
      (createThreadStore context latest).byId.get? id = state.store.byId.get? id) ∧
    ∀ history ∈ event.history state, ∀ thread ∈ result.answered, thread.id ∈ history.removed →
      state.store.byId.has thread.id = true

namespace PollState

@[simp] theorem setThreadStore_store (state : PollState) (store : ThreadStore) :
    (state.setThreadStore store).store = store := rfl

@[simp] theorem recordDetailPoll_store (state : PollState) (summary : RpcThread) (nowMs : Int) :
    (state.recordDetailPoll summary nowMs).store = state.store := rfl

@[simp] theorem endDiscovery_store (state : PollState) : state.endDiscovery.store = state.store :=
  rfl

@[simp] theorem followDetail_store (state : PollState) (summary detail : RpcThread) :
    (state.followDetail summary detail).store = state.store := by
  rw [followDetail]
  split
  · rfl
  · rfl

@[simp] theorem startRefresh_store (state : PollState) (threadIds : List Nat) :
    (state.startRefresh threadIds).store = state.store := rfl

@[simp] theorem endRefresh_store (state : PollState) (refresh : StatusRefresh) :
    (state.endRefresh refresh).store = state.store := by
  rw [endRefresh]
  split
  · split
    · rfl
    · rfl
  · rfl

@[simp] theorem pollThreadStatuses_store (state : PollState) (threadIds : List Nat) :
    (state.pollThreadStatuses threadIds).store = state.store := by
  rw [pollThreadStatuses]
  split
  · split
    · rfl
    · rfl
  · split
    · rfl
    · rfl

@[simp] theorem discoveryStarts_store (state : PollState) :
    state.discoveryStarts.store = state.store := by
  rw [discoveryStarts]
  split
  · rfl
  · rfl

@[simp] theorem effectsRun_store (state : PollState) (dependenciesChanged : Bool) :
    (state.effectsRun context dependenciesChanged).store = state.store := by
  rw [effectsRun]
  split
  · rfl
  · rfl

end PollState

theorem resolveOutcome_eq (store : ThreadStore) (detail : RpcThread) (loaded : List RpcThread)
    (summaryId : Nat) (selected : Option Nat) :
    resolveThreadStatusRefreshOutcome context store (some detail) loaded summaryId selected =
      (if selected = some summaryId then loaded ++ [detail] else loaded).foldl
        (upsertThreadStore context) store := by
  rw [resolveThreadStatusRefreshOutcome]
  by_cases same : selected = some summaryId
  · simp [same, mergeThreadStatusSummaries]
  · simp [same, mergeThreadStatusSummaries]

theorem resolvedStore_eq (selected : Option Nat) (detail : RpcThread)
    (latest loaded : List RpcThread) (summary : RpcThread) :
    (if selected = some summary.id then
      resolveThreadStatusRefreshOutcome context
        (PollState.nextDiscoveredThreadStore context latest loaded) (some detail) loaded summary.id
        selected
    else PollState.nextDiscoveredThreadStore context latest loaded) =
      (if selected = some summary.id then loaded ++ loaded ++ [detail] else loaded).foldl
        (upsertThreadStore context) (createThreadStore context latest) := by
  split
  · rename_i same
    rw [resolveOutcome_eq, if_pos same, PollState.nextDiscoveredThreadStore, ← List.foldl_append,
      List.append_assoc]
  · rfl

def ShownStore (context : StoreContext) (before after : ThreadStore) : Option PollResult → Prop
  | none => after = before
  | some ⟨none, answered⟩ => after = answered.foldl (upsertThreadStore context) before
  | some ⟨some latest, answered⟩ => after = before ∨
      after = answered.foldl (upsertThreadStore context) (createThreadStore context latest)

theorem commitDiscovered_shown (state : PollState) {latest answered : List RpcThread}
    {discovered : ThreadStore} (isFold : discovered =
      answered.foldl (upsertThreadStore context) (createThreadStore context latest)) :
    ShownStore context state.store (state.commitDiscovered discovered).store
      (some ⟨some latest, answered⟩) := by
  rw [PollState.commitDiscovered, PollState.setThreadStore_store]
  split
  · exact Or.inl rfl
  · exact Or.inr isFold

theorem shown_statusesLoaded {refresh : StatusRefresh} (isRefresh : state.statusRefresh = some refresh)
    (loaded : List RpcThread) (nowMs : Int) :
    ShownStore context state.store
      (state.statusesLoaded context refresh loaded nowMs).store
      ((PollEvent.statusesLoaded loaded nowMs).shown context state) := by
  simp only [PollEvent.shown, isRefresh, PollState.statusesLoaded]
  cases refresh.selectedSummary loaded with
  | none => exact PollState.endRefresh_store _ _
  | some summary =>
    simp only [Option.any_some]
    split
    · rfl
    · exact PollState.endRefresh_store _ _

theorem shown_threadsListed {poll : DiscoveryPoll} (isPoll : state.discovery = some poll)
    (loaded : List RpcThread) (nowMs : Int) :
    ShownStore context state.store
      (state.threadsListed context poll loaded nowMs).store
      ((PollEvent.threadsListed loaded nowMs).shown context state) := by
  have committed : ShownStore context state.store
      (state.commitDiscovered
        (PollState.nextDiscoveredThreadStore context state.latestThreads loaded)).store
      (some ⟨some state.latestThreads, loaded⟩) := commitDiscovered_shown state rfl
  simp only [PollEvent.shown, isPoll, PollState.threadsListed]
  by_cases cancelled : poll.cancelled = true
  · rw [if_pos cancelled, if_pos cancelled]
    rfl
  · rw [if_neg cancelled, if_neg cancelled]
    cases poll.activeSelectedThreadId.bind
        (PollState.nextDiscoveredThreadStore context state.latestThreads loaded).byId.get? with
    | none =>
      simp only [Option.any_none, Bool.false_eq_true, if_false]
      split
      · exact committed
      · exact committed
    | some summary =>
      by_cases needed : shouldRefreshSelectedThreadDetail state.selectedThreadDetailRefreshKey
          state.selectedThreadRunState summary = true
      · by_cases skipped : shouldSkipSelectedThreadDetailPoll state.lastSelectedThreadDetailPoll
            nowMs summary = true
        · have shows : state.awaitsDetail nowMs summary = false := by
            simp [PollState.awaitsDetail, skipped]
          simp only [Option.any_some, shows, needed, not_true_eq_false, if_false, skipped, if_true,
            Bool.false_eq_true]
          exact committed
        · have waits : state.awaitsDetail nowMs summary = true := by
            simp [PollState.awaitsDetail, needed, skipped]
          simp only [Option.any_some, waits, needed, not_true_eq_false, if_false, skipped, if_true]
          rfl
      · have shows : state.awaitsDetail nowMs summary = false := by
          simp [PollState.awaitsDetail, needed]
        simp only [Option.any_some, shows, needed, not_false_eq_true, if_true, Bool.false_eq_true,
          if_false]
        exact committed

theorem shown_discoveryDetailLoaded {poll : DiscoveryPoll} {latest loaded : List RpcThread}
    {summary : RpcThread} (isPoll : state.discovery = some poll)
    (isStage : poll.stage = .detail latest loaded summary) (detail : RpcThread) (nowMs : Int) :
    ShownStore context state.store
      (state.discoveryDetailLoaded context poll latest loaded summary detail nowMs).store
      ((PollEvent.discoveryDetailLoaded detail nowMs).shown context state) := by
  obtain ⟨selected, cancelled, stage, history⟩ := poll
  cases isStage
  simp only [PollEvent.shown, isPoll, PollState.discoveryDetailLoaded]
  cases cancelled with
  | true => rfl
  | false =>
    rw [if_neg Bool.false_ne_true, PollState.endDiscovery_store, PollState.followDetail_store]
    exact commitDiscovered_shown (state.recordDetailPoll summary nowMs)
      (resolvedStore_eq state.selectedThreadId detail latest loaded summary)

theorem shown_discoveryDetailFailed {poll : DiscoveryPoll} {latest loaded : List RpcThread}
    {summary : RpcThread} (isPoll : state.discovery = some poll)
    (isStage : poll.stage = .detail latest loaded summary) :
    ShownStore context state.store
      (state.discoveryDetailFailed context poll latest loaded).store
      (PollEvent.discoveryDetailFailed.shown context state) := by
  obtain ⟨selected, cancelled, stage, history⟩ := poll
  cases isStage
  simp only [PollEvent.shown, isPoll, PollState.discoveryDetailFailed]
  cases cancelled with
  | true => rfl
  | false => exact commitDiscovered_shown state rfl

theorem shown_store {history : PollHistory} (isPoll : event.history state = some history)
    (stepped : pollStep context state event = some next) :
    ShownStore context state.store next.store (event.shown context state) := by
  cases event with
  | statusChanged _ _ => cases isPoll
  | upserts _ => cases isPoll
  | removes _ => cases isPoll
  | rendered => cases isPoll
  | effectsRun _ => cases isPoll
  | selects _ _ _ => cases isPoll
  | statusesPolled _ => cases isPoll
  | discoveryStarts => cases isPoll
  | statusesLoaded loaded nowMs =>
    rw [pollStep] at stepped
    split at stepped
    · rename_i refresh isRefresh
      split at stepped
      · cases stepped
        exact shown_statusesLoaded isRefresh loaded nowMs
      · cases stepped
    · cases stepped
  | statusesFailed =>
    rw [pollStep] at stepped
    split at stepped
    · split at stepped
      · cases stepped
        rfl
      · cases stepped
    · cases stepped
  | statusDetailLoaded detail nowMs =>
    rw [pollStep] at stepped
    split at stepped
    · rename_i refresh isRefresh
      split at stepped
      · cases stepped
      · rename_i loaded summary isStage
        cases stepped
        simp only [PollEvent.shown, isRefresh, Option.map_some, isStage,
          PollState.statusDetailLoaded, PollState.endRefresh_store, PollState.followDetail_store]
        exact resolveOutcome_eq state.store detail loaded summary.id state.selectedThreadId
    · cases stepped
  | statusDetailFailed =>
    rw [pollStep] at stepped
    split at stepped
    · rename_i refresh isRefresh
      split at stepped
      · cases stepped
      · rename_i loaded summary isStage
        cases stepped
        simp only [PollEvent.shown, isRefresh, Option.map_some, isStage,
          PollState.statusDetailFailed, PollState.endRefresh_store]
        rfl
    · cases stepped
  | threadsListed loaded nowMs =>
    rw [pollStep] at stepped
    split at stepped
    · rename_i poll isDiscovery
      split at stepped
      · cases stepped
        exact shown_threadsListed isDiscovery loaded nowMs
      · cases stepped
    · cases stepped
  | listingFailed =>
    rw [pollStep] at stepped
    split at stepped
    · split at stepped
      · cases stepped
        rfl
      · cases stepped
    · cases stepped
  | discoveryDetailLoaded detail nowMs =>
    rw [pollStep] at stepped
    split at stepped
    · rename_i poll isDiscovery
      split at stepped
      · cases stepped
      · rename_i latest loaded summary isStage
        cases stepped
        exact shown_discoveryDetailLoaded isDiscovery isStage detail nowMs
    · cases stepped
  | discoveryDetailFailed =>
    rw [pollStep] at stepped
    split at stepped
    · rename_i poll isDiscovery
      split at stepped
      · cases stepped
      · rename_i latest loaded summary isStage
        cases stepped
        exact shown_discoveryDetailFailed isDiscovery isStage
    · cases stepped

theorem other_store (notPoll : event.history state = none)
    (stepped : pollStep context state event = some next) :
    next.store = state.store ∨
      (∃ thread, next.store = upsertThreadStore context state.store thread) ∨
        ∃ threadId, next.store = removeThreadFromStore state.store threadId := by
  cases event with
  | statusChanged thread projectIds =>
    cases stepped
    rw [PollState.setThreadStore_store, applyThreadStatusEvent]
    split
    · exact Or.inr (Or.inl ⟨thread, rfl⟩)
    · exact Or.inl rfl
  | upserts thread =>
    cases stepped
    exact Or.inr (Or.inl ⟨thread, rfl⟩)
  | removes threadId =>
    cases stepped
    exact Or.inr (Or.inr ⟨threadId, rfl⟩)
  | rendered =>
    cases stepped
    exact Or.inl rfl
  | effectsRun dependenciesChanged =>
    cases stepped
    exact Or.inl (PollState.effectsRun_store state dependenciesChanged)
  | selects threadId runState key =>
    cases stepped
    exact Or.inl rfl
  | statusesPolled threadIds =>
    cases stepped
    exact Or.inl (PollState.pollThreadStatuses_store state threadIds)
  | discoveryStarts =>
    cases stepped
    exact Or.inl (PollState.discoveryStarts_store state)
  | statusesLoaded _ _ =>
    rw [pollStep, Option.map_eq_none_iff.mp notPoll] at stepped
    cases stepped
  | statusesFailed =>
    rw [pollStep, Option.map_eq_none_iff.mp notPoll] at stepped
    cases stepped
  | statusDetailLoaded _ _ =>
    rw [pollStep, Option.map_eq_none_iff.mp notPoll] at stepped
    cases stepped
  | statusDetailFailed =>
    rw [pollStep, Option.map_eq_none_iff.mp notPoll] at stepped
    cases stepped
  | threadsListed _ _ =>
    rw [pollStep, Option.map_eq_none_iff.mp notPoll] at stepped
    cases stepped
  | listingFailed =>
    rw [pollStep, Option.map_eq_none_iff.mp notPoll] at stepped
    cases stepped
  | discoveryDetailLoaded _ _ =>
    rw [pollStep, Option.map_eq_none_iff.mp notPoll] at stepped
    cases stepped
  | discoveryDetailFailed =>
    rw [pollStep, Option.map_eq_none_iff.mp notPoll] at stepped
    cases stepped

theorem shownStore_listed {before after : ThreadStore} {shown : Option PollResult}
    (becomes : ShownStore context before after shown) (listed : Listed before) : Listed after := by
  match shown, becomes with
  | none, becomes => exact becomes ▸ listed
  | some ⟨none, answered⟩, becomes =>
    rw [becomes]
    exact (upserts_spec answered listed).1
  | some ⟨some latest, answered⟩, becomes =>
    rcases becomes with same | prepared
    · exact same ▸ listed
    · rw [prepared]
      exact (upserts_spec answered (createThreadStore_listed context latest)).1

theorem listed_step (listed : Listed state.store)
    (stepped : pollStep context state event = some next) : Listed next.store := by
  cases isPoll : event.history state with
  | some history => exact shownStore_listed (shown_store isPoll stepped) listed
  | none =>
    rcases other_store isPoll stepped with same | ⟨thread, isUpsert⟩ | ⟨threadId, isRemoval⟩
    · exact same ▸ listed
    · exact isUpsert ▸ upsertThreadStore_listed listed thread
    · exact isRemoval ▸ removeThreadFromStore_listed listed threadId

theorem listed_reached
    (reached : Reaches (pollStep context) Unrestricted PollState.initial state) :
    Listed state.store :=
  reached.invariant (fun state => Listed state.store) listed_empty
    fun _ _ _ listed _ stepped => listed_step listed stepped

theorem neverBack_refl (history : PollHistory) (store : ThreadStore) :
    NeverBack context history store store where
  fresh := by
    intro id old new isOld isNew
    rw [isOld] at isNew
    rw [← Option.some.inj isNew]
    exact lessFresh_self old
  kept := fun _ _ has => has
  gone := fun _ _ absent => absent

theorem neverBack_upserts {history : PollHistory} {base store : ThreadStore}
    {answered : List RpcThread} (listed : Listed base)
    (same : ∀ id, base.byId.get? id = store.byId.get? id)
    (present : ∀ thread ∈ answered, thread.id ∈ history.removed →
      store.byId.has thread.id = true) :
    NeverBack context history store (answered.foldl (upsertThreadStore context) base) := by
  obtain ⟨_, keeps, ids⟩ := @upserts_spec context _ answered listed
  refine ⟨fun id old new isOld isNew => ?_, fun id _ has => ?_, fun id removed absent => ?_⟩
  · obtain ⟨found, isFound, fresher⟩ := keeps id old (by rw [same, isOld])
    rw [isNew] at isFound
    rwa [Option.some.inj isFound]
  · obtain ⟨old, isOld⟩ := Option.isSome_iff_exists.mp has
    obtain ⟨found, isFound, _⟩ := keeps id old (by rw [same, isOld])
    rw [OrderedMap.has, isFound]
    rfl
  · refine Bool.eq_false_iff.mpr fun has => ?_
    rcases ids id has with before | ⟨thread, member, isId⟩
    · rw [OrderedMap.has, same] at before
      exact Bool.false_ne_true (absent.symm.trans before)
    · have back := present thread member (isId ▸ removed)
      rw [isId] at back
      exact Bool.false_ne_true (absent.symm.trans back)

theorem polls_never_go_back (context : StoreContext)
    (reached : Reaches (pollStep context) (InStep context) PollState.initial state)
    {history : PollHistory} (isPoll : event.history state = some history)
    (inStep : InStep context state event) (stepped : pollStep context state event = some next) :
    NeverBack context history state.store next.store := by
  have listed := listed_reached reached.unrestricted
  have becomes := shown_store isPoll stepped
  cases shown : event.shown context state with
  | none =>
    rw [shown] at becomes
    rw [becomes]
    exact neverBack_refl history state.store
  | some result =>
    obtain ⟨current, alive⟩ := inStep result shown
    rw [shown] at becomes
    have present := alive history isPoll
    match result, becomes, current, present with
    | ⟨none, answered⟩, becomes, _, present =>
      rw [becomes]
      exact neverBack_upserts listed (fun _ => rfl) present
    | ⟨some latest, answered⟩, becomes, current, present =>
      rcases becomes with same | prepared
      · rw [same]
        exact neverBack_refl history state.store
      · rw [prepared]
        exact neverBack_upserts (createThreadStore_listed context latest)
          (current latest rfl) present

namespace Sample

def working : RpcThread := thread 1 .working "1970-01-01T00:00:01.000Z"

def stopped : RpcThread := thread 1 .stopped "1970-01-01T00:00:02.000Z"

def added : RpcThread := thread 2 .idle "1970-01-01T00:00:02.000Z"

def inStepCheck (state : PollState) (event : PollEvent) : Bool :=
  (event.shown twoDates state).all fun result =>
    (result.latestThreads.all fun latest =>
      (createThreadStore twoDates latest).byId = state.store.byId) &&
    (event.history state).all fun history =>
      result.answered.all fun thread =>
        !decide (thread.id ∈ history.removed) || state.store.byId.has thread.id

theorem inStepCheck_inStep {state : PollState} {event : PollEvent}
    (passes : inStepCheck state event = true) : InStep twoDates state event := by
  intro result isShown
  rw [inStepCheck, isShown, Option.all_some, Bool.and_eq_true] at passes
  refine ⟨fun latest isLatest id => ?_, fun history isHistory thread member removed => ?_⟩
  · have same := passes.1
    rw [isLatest, Option.all_some, decide_eq_true_eq] at same
    rw [same]
  · have alive := passes.2
    rw [isHistory, Option.all_some] at alive
    have one := List.all_eq_true.mp alive thread member
    simpa [removed] using one

def waitingEvents : List PollEvent :=
  [.upserts working, .rendered, .effectsRun false, .selects (some 1) .working none,
    .discoveryStarts, .threadsListed [working, added] 0]

def overtakenEvents : List PollEvent :=
  [.upserts working, .rendered, .effectsRun false, .selects (some 1) .working none,
    .discoveryStarts, .threadsListed [working] 0, .upserts added]

end Sample

theorem polls_never_go_back_detail :
    ∃ state next history,
      pollStep Sample.twoDates state (.discoveryDetailLoaded Sample.stopped 1) = some next ∧
        next.store.byId.get? 1 = some Sample.stopped ∧
          NeverBack Sample.twoDates history state.store next.store := by
  have ran : ((run (pollStep Sample.twoDates) Sample.inStepCheck PollState.initial
      Sample.waitingEvents).any fun state =>
        Sample.inStepCheck state (.discoveryDetailLoaded Sample.stopped 1) &&
          (pollStep Sample.twoDates state (.discoveryDetailLoaded Sample.stopped 1)).any
            fun next => next.store.byId.get? 1 = some Sample.stopped) = true := by
    decide +kernel
  obtain ⟨state, isRun, last⟩ := (Option.any_eq_true _ _).mp ran
  rw [Bool.and_eq_true] at last
  obtain ⟨next, stepped, isStopped⟩ := (Option.any_eq_true _ _).mp last.2
  have reached := (reaches_of_run isRun).weaken fun _ _ => Sample.inStepCheck_inStep
  cases isPoll : (PollEvent.discoveryDetailLoaded Sample.stopped 1).history state with
  | none =>
    rw [pollStep, Option.map_eq_none_iff.mp isPoll] at stepped
    cases stepped
  | some history =>
    exact ⟨state, next, history, stepped, of_decide_eq_true isStopped,
      polls_never_go_back Sample.twoDates reached isPoll (Sample.inStepCheck_inStep last.1)
        stepped⟩

theorem added_thread_dropped : ¬ ∀ (context : StoreContext) (state next : PollState)
    (event : PollEvent) (history : PollHistory),
    Reaches (pollStep context) Unrestricted PollState.initial state →
      event.history state = some history → pollStep context state event = some next →
        NeverBack context history state.store next.store := by
  have ran : ((run (pollStep Sample.twoDates) (fun _ _ => true) PollState.initial
      Sample.overtakenEvents).any fun state =>
        state.store.byId.has 2 &&
          (pollStep Sample.twoDates state (.discoveryDetailLoaded Sample.working 1)).any fun next =>
            !next.store.byId.has 2 &&
              ((PollEvent.discoveryDetailLoaded Sample.working 1).history state).any
                fun history => 2 ∈ history.added) = true := by
    decide +kernel
  obtain ⟨state, isRun, last⟩ := (Option.any_eq_true _ _).mp ran
  rw [Bool.and_eq_true] at last
  obtain ⟨next, stepped, dropped⟩ := (Option.any_eq_true _ _).mp last.2
  rw [Bool.and_eq_true] at dropped
  obtain ⟨history, isPoll, isAdded⟩ := (Option.any_eq_true _ _).mp dropped.2
  intro always
  have neverBack := always Sample.twoDates state next _ history (reaches_of_run isRun).unrestricted
    isPoll stepped
  have kept := neverBack.kept 2 (of_decide_eq_true isAdded) last.1
  rw [kept] at dropped
  cases dropped.1

end Metidos.Client
