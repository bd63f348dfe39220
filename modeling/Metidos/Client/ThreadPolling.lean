import Metidos.Client.ThreadStoreSpec
import Metidos.Library.JsNumerals
import Metidos.Library.Transition

/-!
The polling of the thread statuses and of the thread list,
`src/mainview/app/use-thread-status-controller.ts`, next to the other updates of the store. An
update by `setThreadStore` is applied to the store as the updates before it have left it; the
threads of a render are those of the store at that moment, and the effects run after it.
-/

namespace Metidos.Client

open JsText

abbrev DetailRefreshKey := Text

def RunState.text : RunState → Text
  | .idle => "idle".toList
  | .working => "working".toList
  | .failed => "failed".toList
  | .stopped => "stopped".toList

def buildSelectedThreadDetailRefreshKey (thread : RpcThread) : DetailRefreshKey :=
  [':'].intercalate [stringOfNumber thread.id, thread.updatedAt, thread.runStatus.state.text,
    thread.runStatus.updatedAt.getD []]

def shouldRefreshSelectedThreadDetail (lastLoadedKey : Option DetailRefreshKey)
    (previousRunState : RunState) (summary : RpcThread) : Bool :=
  let summaryRunState := summary.runStatus.state
  if summaryRunState = .working then true
  else if previousRunState = .working ∨
      (summaryRunState = .failed ∧ previousRunState ≠ .failed) ∨
        (summaryRunState = .stopped ∧ previousRunState ≠ .stopped) then
    some (buildSelectedThreadDetailRefreshKey summary) ≠ lastLoadedKey
  else false

def SELECTED_THREAD_DETAIL_UNCHANGED_WORKING_MIN_INTERVAL_MS : Int := 15000

structure DetailPoll where
  key : DetailRefreshKey
  polledAtMs : Int
  deriving DecidableEq

def shouldSkipSelectedThreadDetailPoll (lastPoll : Option DetailPoll) (nowMs : Int)
    (summary : RpcThread) : Bool :=
  match lastPoll with
  | none => false
  | some poll =>
    summary.runStatus.state = .working &&
      poll.key = buildSelectedThreadDetailRefreshKey summary &&
        nowMs - poll.polledAtMs < SELECTED_THREAD_DETAIL_UNCHANGED_WORKING_MIN_INTERVAL_MS

def mergeThreadStatusSummaries (context : StoreContext) (currentThreadStore : ThreadStore)
    (loadedThreadStatuses : List RpcThread) : ThreadStore :=
  loadedThreadStatuses.foldl (upsertThreadStore context) currentThreadStore

def resolveThreadStatusRefreshOutcome (context : StoreContext) (currentThreadStore : ThreadStore)
    (detail : Option RpcThread) (loadedThreadStatuses : List RpcThread)
    (selectedSummaryThreadId : Nat) (selectedThreadId : Option Nat) : ThreadStore :=
  let mergedThreadStore :=
    mergeThreadStatusSummaries context currentThreadStore loadedThreadStatuses
  match detail with
  | none => mergedThreadStore
  | some thread =>
    if selectedThreadId ≠ some selectedSummaryThreadId then mergedThreadStore
    else upsertThreadStore context mergedThreadStore thread

def buildThreadStatusRequestKey (threadIds : List Nat) : List Nat := threadIds.mergeSort

structure SeedEntry where
  threadId : Nat
  updatedAt : Text
  pinnedAt : Text
  state : RunState
  startedAt : Text
  statusUpdatedAt : Text
  error : Text
  hasUnreadError : Bool
  phase : Option RunPhase
  queue : Option RpcThreadQueueStatus
  deriving DecidableEq

def seedEntry (thread : RpcThread) : SeedEntry where
  threadId := thread.id
  updatedAt := thread.updatedAt
  pinnedAt := thread.pinnedAt.getD []
  state := thread.runStatus.state
  startedAt := thread.runStatus.startedAt.getD []
  statusUpdatedAt := thread.runStatus.updatedAt.getD []
  error := thread.runStatus.error.getD []
  hasUnreadError := thread.runStatus.hasUnreadError
  phase := thread.runStatus.phase
  queue := thread.runStatus.queue

def buildThreadDiscoverySeedKey (context : StoreContext) (threads : List RpcThread) :
    List SeedEntry :=
  (threadStoreItems (createThreadStore context threads)).map seedEntry

/-- What has happened to the store while a poll was under way: the ids that were removed since it
was sent, and those that were added since its result was computed. -/
structure PollHistory where
  removed : List Nat
  added : List Nat
  deriving DecidableEq

def PollHistory.start : PollHistory := ⟨[], []⟩

inductive StatusStage
  | requested
  | detail (loadedThreadStatuses : List RpcThread) (selectedSummary : RpcThread)
  deriving DecidableEq

structure StatusRefresh where
  threadIds : List Nat
  activeSelectedThreadId : Option Nat
  stage : StatusStage
  history : PollHistory
  deriving DecidableEq

def StatusRefresh.selectedSummary (refresh : StatusRefresh)
    (loadedThreadStatuses : List RpcThread) : Option RpcThread :=
  refresh.activeSelectedThreadId.bind fun id => loadedThreadStatuses.find? (·.id = id)

inductive DiscoveryStage
  | requested
  | detail (latestThreads loadedThreads : List RpcThread) (selectedSummary : RpcThread)
  deriving DecidableEq

structure DiscoveryPoll where
  activeSelectedThreadId : Option Nat
  cancelled : Bool
  stage : DiscoveryStage
  history : PollHistory
  deriving DecidableEq

/-- `latestThreads` are the threads of the last render, `seededThreads` those of the render after
which the discovery effect last ran. -/
structure PollState where
  store : ThreadStore
  latestThreads : List RpcThread
  seededThreads : List RpcThread
  selectedThreadId : Option Nat
  selectedThreadRunState : RunState
  selectedThreadDetailRefreshKey : Option DetailRefreshKey
  lastSelectedThreadDetailPoll : Option DetailPoll
  statusRefresh : Option StatusRefresh
  queuedThreadIds : Option (List Nat)
  discovery : Option DiscoveryPoll
  deriving DecidableEq

def PollState.initial : PollState where
  store := emptyThreadStore
  latestThreads := []
  seededThreads := []
  selectedThreadId := none
  selectedThreadRunState := .idle
  selectedThreadDetailRefreshKey := none
  lastSelectedThreadDetailPoll := none
  statusRefresh := none
  queuedThreadIds := none
  discovery := none

/-- The answers of the server come as `applyOptimisticThreadErrorSeenToList` and
`prepareOpenedThreadDetail` hand them on, with the time at which they arrive. -/
inductive PollEvent
  | statusChanged (thread : RpcThread) (projectIds : List Nat)
  | upserts (thread : RpcThread)
  | removes (threadId : Nat)
  | rendered
  | effectsRun (dependenciesChanged : Bool)
  | selects (threadId : Option Nat) (runState : RunState) (key : Option DetailRefreshKey)
  | statusesPolled (threadIds : List Nat)
  | statusesLoaded (loadedThreadStatuses : List RpcThread) (nowMs : Int)
  | statusesFailed
  | statusDetailLoaded (detail : RpcThread) (nowMs : Int)
  | statusDetailFailed
  | discoveryStarts
  | threadsListed (loadedThreads : List RpcThread) (nowMs : Int)
  | listingFailed
  | discoveryDetailLoaded (detail : RpcThread) (nowMs : Int)
  | discoveryDetailFailed
  deriving DecidableEq

namespace PollState

def setThreadStore (state : PollState) (store : ThreadStore) : PollState :=
  let note (history : PollHistory) : PollHistory :=
    { removed := history.removed ++ state.store.orderedIds.filter fun id => !store.byId.has id
      added := history.added ++ store.orderedIds.filter fun id => !state.store.byId.has id }
  { state with
    store
    statusRefresh := state.statusRefresh.map fun refresh =>
      { refresh with history := note refresh.history }
    discovery := state.discovery.map fun poll => { poll with history := note poll.history } }

def awaitsDetail (state : PollState) (nowMs : Int) (summary : RpcThread) : Bool :=
  shouldRefreshSelectedThreadDetail state.selectedThreadDetailRefreshKey
      state.selectedThreadRunState summary &&
    !shouldSkipSelectedThreadDetailPoll state.lastSelectedThreadDetailPoll nowMs summary

def recordDetailPoll (state : PollState) (summary : RpcThread) (nowMs : Int) : PollState :=
  { state with
    lastSelectedThreadDetailPoll :=
      some { key := buildSelectedThreadDetailRefreshKey summary, polledAtMs := nowMs } }

def followDetail (state : PollState) (summary detail : RpcThread) : PollState :=
  if state.selectedThreadId = some summary.id then
    { state with
      selectedThreadDetailRefreshKey := some (buildSelectedThreadDetailRefreshKey detail)
      selectedThreadRunState := detail.runStatus.state }
  else state

def startRefresh (state : PollState) (threadIds : List Nat) : PollState :=
  { state with
    queuedThreadIds := none
    statusRefresh := some
      { threadIds, activeSelectedThreadId := state.selectedThreadId, stage := .requested,
        history := .start } }

def endRefresh (state : PollState) (refresh : StatusRefresh) : PollState :=
  match state.queuedThreadIds with
  | some (threadId :: threadIds) =>
    if buildThreadStatusRequestKey refresh.threadIds =
        buildThreadStatusRequestKey (threadId :: threadIds) then
      { state with statusRefresh := none, queuedThreadIds := none }
    else state.startRefresh (threadId :: threadIds)
  | _ => { state with statusRefresh := none, queuedThreadIds := none }

def pollThreadStatuses (state : PollState) (threadIds : List Nat) : PollState :=
  match state.statusRefresh with
  | some refresh =>
    if buildThreadStatusRequestKey refresh.threadIds = buildThreadStatusRequestKey threadIds then
      state
    else { state with queuedThreadIds := some threadIds }
  | none => if threadIds = [] then state else state.startRefresh threadIds

def statusesLoaded (context : StoreContext) (state : PollState) (refresh : StatusRefresh)
    (loadedThreadStatuses : List RpcThread) (nowMs : Int) : PollState :=
  let merged := state.setThreadStore
    (mergeThreadStatusSummaries context state.store loadedThreadStatuses)
  match refresh.selectedSummary loadedThreadStatuses with
  | none => merged.endRefresh refresh
  | some selectedSummary =>
    if state.awaitsDetail nowMs selectedSummary then
      { state with
        statusRefresh :=
          some { refresh with stage := .detail loadedThreadStatuses selectedSummary } }
    else
      { merged with selectedThreadRunState := selectedSummary.runStatus.state }.endRefresh refresh

def statusDetailLoaded (context : StoreContext) (state : PollState) (refresh : StatusRefresh)
    (loadedThreadStatuses : List RpcThread) (selectedSummary detail : RpcThread) (nowMs : Int) :
    PollState :=
  let outcome := resolveThreadStatusRefreshOutcome context state.store (some detail)
    loadedThreadStatuses selectedSummary.id state.selectedThreadId
  (((state.recordDetailPoll selectedSummary nowMs).setThreadStore outcome).followDetail
    selectedSummary detail).endRefresh refresh

def statusDetailFailed (context : StoreContext) (state : PollState) (refresh : StatusRefresh)
    (loadedThreadStatuses : List RpcThread) (selectedSummary : RpcThread) : PollState :=
  let outcome := resolveThreadStatusRefreshOutcome context state.store none loadedThreadStatuses
    selectedSummary.id state.selectedThreadId
  (state.setThreadStore outcome).endRefresh refresh

def nextDiscoveredThreadStore (context : StoreContext) (latestThreads loadedThreads : List RpcThread) :
    ThreadStore :=
  loadedThreads.foldl (upsertThreadStore context) (createThreadStore context latestThreads)

def commitDiscovered (state : PollState) (discovered : ThreadStore) : PollState :=
  state.setThreadStore
    (if threadStoresEquivalent state.store discovered then state.store else discovered)

def endDiscovery (state : PollState) : PollState := { state with discovery := none }

def threadsListed (context : StoreContext) (state : PollState) (poll : DiscoveryPoll)
    (loadedThreads : List RpcThread) (nowMs : Int) : PollState :=
  if poll.cancelled then state.endDiscovery
  else
    let discovered := nextDiscoveredThreadStore context state.latestThreads loadedThreads
    match poll.activeSelectedThreadId.bind discovered.byId.get? with
    | none =>
      let committed := (state.commitDiscovered discovered).endDiscovery
      if threadStoreItems discovered = [] then { committed with selectedThreadRunState := .idle }
      else committed
    | some selectedSummary =>
      if ¬shouldRefreshSelectedThreadDetail state.selectedThreadDetailRefreshKey
          state.selectedThreadRunState selectedSummary then
        { (state.commitDiscovered discovered).endDiscovery with
          selectedThreadRunState := selectedSummary.runStatus.state }
      else if shouldSkipSelectedThreadDetailPoll state.lastSelectedThreadDetailPoll nowMs
          selectedSummary then
        (state.commitDiscovered discovered).endDiscovery
      else
        { state with
          discovery := some
            { poll with
              stage := .detail state.latestThreads loadedThreads selectedSummary
              history := { poll.history with added := [] } } }

def discoveryDetailLoaded (context : StoreContext) (state : PollState) (poll : DiscoveryPoll)
    (latestThreads loadedThreads : List RpcThread) (selectedSummary detail : RpcThread)
    (nowMs : Int) : PollState :=
  let recorded := state.recordDetailPoll selectedSummary nowMs
  if poll.cancelled then recorded.endDiscovery
  else
    let nextThreadStore := nextDiscoveredThreadStore context latestThreads loadedThreads
    let resolvedThreadStore :=
      if state.selectedThreadId = some selectedSummary.id then
        resolveThreadStatusRefreshOutcome context nextThreadStore (some detail) loadedThreads
          selectedSummary.id state.selectedThreadId
      else nextThreadStore
    ((recorded.commitDiscovered resolvedThreadStore).followDetail selectedSummary
      detail).endDiscovery

def discoveryDetailFailed (context : StoreContext) (state : PollState) (poll : DiscoveryPoll)
    (latestThreads loadedThreads : List RpcThread) : PollState :=
  if poll.cancelled then state.endDiscovery
  else
    (state.commitDiscovered
      (nextDiscoveredThreadStore context latestThreads loadedThreads)).endDiscovery

def discoveryStarts (state : PollState) : PollState :=
  match state.discovery with
  | some _ => state
  | none =>
    { state with
      discovery := some
        { activeSelectedThreadId := state.selectedThreadId, cancelled := false,
          stage := .requested, history := .start } }

def effectsRun (context : StoreContext) (state : PollState) (dependenciesChanged : Bool) :
    PollState :=
  if dependenciesChanged = true ∨ buildThreadDiscoverySeedKey context state.latestThreads ≠
      buildThreadDiscoverySeedKey context state.seededThreads then
    { state with
      seededThreads := state.latestThreads
      discovery := state.discovery.map fun poll => { poll with cancelled := true } }
  else { state with seededThreads := state.latestThreads }

end PollState

/-- `applyMainviewShellThreadStatusEvent`: threads of unknown projects are let in only if they are
in the store. -/
def applyThreadStatusEvent (context : StoreContext) (projectIds : List Nat) (store : ThreadStore)
    (thread : RpcThread) : ThreadStore :=
  if thread.projectId ∈ projectIds ∨ store.byId.has thread.id = true then
    upsertThreadStore context store thread
  else store

@[grind =] def pollStep (context : StoreContext) (state : PollState) : PollEvent → Option PollState
  | .statusChanged thread projectIds =>
    some (state.setThreadStore (applyThreadStatusEvent context projectIds state.store thread))
  | .upserts thread =>
    some (state.setThreadStore (upsertThreadStore context state.store thread))
  | .removes threadId => some (state.setThreadStore (removeThreadFromStore state.store threadId))
  | .rendered => some { state with latestThreads := threadStoreItems state.store }
  | .effectsRun dependenciesChanged => some (state.effectsRun context dependenciesChanged)
  | .selects threadId runState key =>
    some { state with
      selectedThreadId := threadId
      selectedThreadRunState := runState
      selectedThreadDetailRefreshKey := key }
  | .statusesPolled threadIds => some (state.pollThreadStatuses threadIds)
  | .statusesLoaded loadedThreadStatuses nowMs =>
    match state.statusRefresh with
    | some refresh =>
      match refresh.stage with
      | .requested => some (state.statusesLoaded context refresh loadedThreadStatuses nowMs)
      | .detail _ _ => none
    | none => none
  | .statusesFailed =>
    match state.statusRefresh with
    | some refresh =>
      match refresh.stage with
      | .requested => some { state with statusRefresh := none, queuedThreadIds := none }
      | .detail _ _ => none
    | none => none
  | .statusDetailLoaded detail nowMs =>
    match state.statusRefresh with
    | some refresh =>
      match refresh.stage with
      | .requested => none
      | .detail loaded summary =>
        some (state.statusDetailLoaded context refresh loaded summary detail nowMs)
    | none => none
  | .statusDetailFailed =>
    match state.statusRefresh with
    | some refresh =>
      match refresh.stage with
      | .requested => none
      | .detail loaded summary =>
        some (state.statusDetailFailed context refresh loaded summary)
    | none => none
  | .discoveryStarts => some state.discoveryStarts
  | .threadsListed loadedThreads nowMs =>
    match state.discovery with
    | some poll =>
      match poll.stage with
      | .requested => some (state.threadsListed context poll loadedThreads nowMs)
      | .detail _ _ _ => none
    | none => none
  | .listingFailed =>
    match state.discovery with
    | some poll =>
      match poll.stage with
      | .requested => some state.endDiscovery
      | .detail _ _ _ => none
    | none => none
  | .discoveryDetailLoaded detail nowMs =>
    match state.discovery with
    | some poll =>
      match poll.stage with
      | .requested => none
      | .detail latest loaded summary =>
        some (state.discoveryDetailLoaded context poll latest loaded summary detail nowMs)
    | none => none
  | .discoveryDetailFailed =>
    match state.discovery with
    | some poll =>
      match poll.stage with
      | .requested => none
      | .detail latest loaded _ =>
        some (state.discoveryDetailFailed context poll latest loaded)
    | none => none

end Metidos.Client
