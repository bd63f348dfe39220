import Metidos.Library.JsText
import Metidos.Library.OrderedMap

/-!
The thread store of the client, `src/mainview/app/thread-store.ts`: the threads by id, with the
ids in the order in which they are listed.
-/

namespace Metidos.Client

open JsText

abbrev Text := List Char

inductive RunState
  | idle
  | working
  | failed
  | stopped
  deriving DecidableEq

inductive RunPhase
  | streaming
  | compacting
  deriving DecidableEq

structure RpcThreadQueueStatus where
  pendingMessageCount : Nat
  steeringMessageCount : Nat
  followUpMessageCount : Nat
  deriving DecidableEq

structure RpcThreadRunStatus where
  state : RunState
  startedAt : Option Text
  updatedAt : Option Text
  error : Option Text
  hasUnreadError : Bool
  phase : Option RunPhase
  queue : Option RpcThreadQueueStatus
  deriving DecidableEq

structure RpcThreadUsage where
  inputTokens : Nat
  cachedInputTokens : Nat
  outputTokens : Nat
  contextWindowTokens : Option (Option Nat)
  deriving DecidableEq

inductive TriggerSource
  | heuristic
  | observed
  deriving DecidableEq

structure RpcThreadCompaction where
  estimatedTriggerTokens : Nat
  estimatedTriggerSource : TriggerSource
  maxObservedInputTokens : Option Nat
  inferredCount : Nat
  lastInferredAt : Option Text
  lastInferredBeforeInputTokens : Option Nat
  lastInferredAfterInputTokens : Option Nat
  deriving DecidableEq

structure RpcThread where
  id : Nat
  projectId : Nat
  worktreePath : Text
  title : Text
  summary : Option Text
  model : Text
  reasoningEffort : Text
  webSearchAccess : Bool
  githubAccess : Bool
  gitAccess : Option Bool
  sqliteAccess : Option Bool
  webServerAccess : Option Bool
  agentsAccess : Bool
  calendarAccess : Option Bool
  notificationsAccess : Option Bool
  weatherAccess : Option Bool
  threadsAccess : Option Bool
  cronsAccess : Option Bool
  metidosAccess : Bool
  pluginAccessGroups : Option (List Text)
  permissions : Option (List Text)
  unsafeMode : Bool
  piSessionId : Option Text
  piSessionFile : Option Text
  piLeafEntryId : Option Text
  pinnedAt : Option Text
  createdAt : Text
  updatedAt : Text
  lastRunAt : Option Text
  usage : Option RpcThreadUsage
  compaction : RpcThreadCompaction
  runStatus : RpcThreadRunStatus
  deriving DecidableEq

/-- `Date.parse`, where `none` stands for `NaN`, and `localeCompare`. -/
structure StoreContext where
  dateParse : Text → Option Int
  localeCompare : Text → Text → Ordering

structure ThreadStore where
  byId : OrderedMap Nat RpcThread
  orderedIds : List Nat
  deriving DecidableEq

def emptyThreadStore : ThreadStore := ⟨.empty, []⟩

def threadStoreItems (store : ThreadStore) : List RpcThread :=
  store.orderedIds.filterMap store.byId.get?

def threadListUpdatedAt (thread : RpcThread) : Text :=
  match thread.runStatus.updatedAt with
  | some updatedAt =>
    if (thread.runStatus.state = .stopped ∨ thread.runStatus.state = .failed) ∧
        updatedAt ≠ [] ∧ utf16 thread.updatedAt < utf16 updatedAt then updatedAt
    else thread.updatedAt
  | none => thread.updatedAt

def compareByTurn (context : StoreContext) (left right : RpcThread) : Ordering :=
  let leftIsTurning := left.runStatus.state = .working
  let rightIsTurning := right.runStatus.state = .working
  if leftIsTurning ∧ ¬rightIsTurning then .lt
  else if rightIsTurning ∧ ¬leftIsTurning then .gt
  else context.localeCompare (threadListUpdatedAt right) (threadListUpdatedAt left)

def compareThreadsByRecency (context : StoreContext) (left right : RpcThread) : Ordering :=
  let leftPinnedAt := left.pinnedAt.getD []
  let rightPinnedAt := right.pinnedAt.getD []
  if leftPinnedAt ≠ [] ∨ rightPinnedAt ≠ [] then
    if leftPinnedAt = [] then .gt
    else if rightPinnedAt = [] then .lt
    else if leftPinnedAt ≠ rightPinnedAt then context.localeCompare rightPinnedAt leftPinnedAt
    else compareByTurn context left right
  else compareByTurn context left right

/-- `none` stands for negative infinity. -/
def parseThreadSnapshotTimestamp (context : StoreContext) (value : Option Text) : Option Int :=
  match value with
  | none => none
  | some text => if trim text = [] then none else context.dateParse text

/-- The sign of a difference of timestamps; that of two negative infinities is `NaN`. -/
def differenceSign : Option Int → Option Int → Option Ordering
  | some left, some right => some (compare left right)
  | some _, none => some .gt
  | none, some _ => some .lt
  | none, none => none

def compareThreadsByFreshness (context : StoreContext) (left right : RpcThread) :
    Option Ordering :=
  let updatedAtComparison :=
    differenceSign (parseThreadSnapshotTimestamp context (some left.updatedAt))
      (parseThreadSnapshotTimestamp context (some right.updatedAt))
  if updatedAtComparison ≠ some .eq then updatedAtComparison
  else
    differenceSign (parseThreadSnapshotTimestamp context left.runStatus.updatedAt)
      (parseThreadSnapshotTimestamp context right.runStatus.updatedAt)

def lessFresh (context : StoreContext) (left right : RpcThread) : Bool :=
  compareThreadsByFreshness context left right = some .lt

def asFresh (context : StoreContext) (left right : RpcThread) : Bool :=
  compareThreadsByFreshness context left right = some .gt ||
    compareThreadsByFreshness context left right = some .eq

def stringArraysEqual (left right : Option (List Text)) : Bool := left.getD [] == right.getD []

def threadsEquivalent (left right : RpcThread) : Bool :=
  left.id == right.id && left.projectId == right.projectId &&
  left.worktreePath == right.worktreePath && left.title == right.title &&
  left.summary == right.summary && left.model == right.model &&
  left.reasoningEffort == right.reasoningEffort &&
  left.webSearchAccess == right.webSearchAccess && left.githubAccess == right.githubAccess &&
  left.gitAccess == right.gitAccess && left.sqliteAccess == right.sqliteAccess &&
  left.webServerAccess == right.webServerAccess && left.agentsAccess == right.agentsAccess &&
  left.calendarAccess == right.calendarAccess &&
  left.notificationsAccess == right.notificationsAccess &&
  left.weatherAccess == right.weatherAccess && left.threadsAccess == right.threadsAccess &&
  left.cronsAccess == right.cronsAccess && left.metidosAccess == right.metidosAccess &&
  stringArraysEqual left.pluginAccessGroups right.pluginAccessGroups &&
  stringArraysEqual left.permissions right.permissions &&
  left.unsafeMode == right.unsafeMode && left.piSessionId == right.piSessionId &&
  left.piSessionFile == right.piSessionFile && left.piLeafEntryId == right.piLeafEntryId &&
  left.pinnedAt == right.pinnedAt && left.createdAt == right.createdAt &&
  left.updatedAt == right.updatedAt && left.lastRunAt == right.lastRunAt &&
  left.usage == right.usage && left.compaction == right.compaction &&
  left.runStatus == right.runStatus

def threadStoresEquivalent (left right : ThreadStore) : Bool :=
  left.orderedIds == right.orderedIds &&
    left.orderedIds.all fun threadId =>
      match left.byId.get? threadId, right.byId.get? threadId with
      | some leftThread, some rightThread => threadsEquivalent leftThread rightThread
      | _, _ => false

def spliceIn {α : Type} (index : Nat) (item : α) (items : List α) : List α :=
  items.take index ++ item :: items.drop index

def searchLoop (goesBefore : Nat → Bool) : Nat → Nat → Nat → Nat
  | 0, low, _ => low
  | fuel + 1, low, high =>
    if low < high then
      let mid := (low + high) / 2
      if goesBefore mid then searchLoop goesBefore fuel (mid + 1) high
      else searchLoop goesBefore fuel low mid
    else low

def findThreadStoreInsertionIndex (context : StoreContext) (orderedIds : List Nat)
    (byId : OrderedMap Nat RpcThread) (thread : RpcThread) : Nat :=
  searchLoop (fun mid =>
    match (orderedIds[mid]?.filter (· ≠ 0)).bind byId.get? with
    | some midThread => compareThreadsByRecency context midThread thread ≠ .gt
    | none => false) orderedIds.length 0 orderedIds.length

def keepFreshest (context : StoreContext) (byId : OrderedMap Nat RpcThread) (thread : RpcThread) :
    OrderedMap Nat RpcThread :=
  match byId.get? thread.id with
  | none => byId.set thread.id thread
  | some existingThread =>
    if asFresh context thread existingThread then byId.set thread.id thread else byId

def freshestById (context : StoreContext) (items : List RpcThread) : OrderedMap Nat RpcThread :=
  items.foldl (keepFreshest context) .empty

def sortByRecency (context : StoreContext) (items : List RpcThread) : List RpcThread :=
  items.mergeSort fun left right => compareThreadsByRecency context left right != .gt

def createThreadStore (context : StoreContext) (items : List RpcThread) : ThreadStore :=
  let byId := freshestById context items
  let values := (byId.sortKeys fun left right => left ≤ right).values
  { byId, orderedIds := (sortByRecency context values).map RpcThread.id }

def staysInPlace (context : StoreContext) (previous next : Option RpcThread)
    (thread : RpcThread) : Bool :=
  previous.all (fun previousThread =>
      compareThreadsByRecency context previousThread thread != .gt) &&
    next.all fun nextThread => compareThreadsByRecency context thread nextThread != .gt

def neighbours {α : Type} (items : List α) (index : Nat) : Option α × Option α :=
  (if 0 < index then items[index - 1]? else none, items[index + 1]?)

def upsertThreadStore (context : StoreContext) (store : ThreadStore) (thread : RpcThread) :
    ThreadStore :=
  match store.byId.get? thread.id with
  | none =>
    let insertionIndex :=
      findThreadStoreInsertionIndex context store.orderedIds store.byId thread
    { byId := store.byId.set thread.id thread
      orderedIds := spliceIn insertionIndex thread.id store.orderedIds }
  | some existingThread =>
    if threadsEquivalent existingThread thread then store
    else if lessFresh context thread existingThread then store
    else
      match store.orderedIds.idxOf? thread.id with
      | none => createThreadStore context (threadStoreItems store ++ [thread])
      | some existingIndex =>
        let around := neighbours store.orderedIds existingIndex
        let byId := store.byId.set thread.id thread
        if staysInPlace context (around.1.bind store.byId.get?)
            (around.2.bind store.byId.get?) thread then
          { byId, orderedIds := store.orderedIds }
        else
          let orderedIds := store.orderedIds.eraseIdx existingIndex
          let insertionIndex := findThreadStoreInsertionIndex context orderedIds byId thread
          { byId, orderedIds := spliceIn insertionIndex thread.id orderedIds }

def removeThreadFromStore (store : ThreadStore) (threadId : Nat) : ThreadStore :=
  match store.byId.get? threadId with
  | none => store
  | some _ =>
    { byId := store.byId.delete threadId
      orderedIds := store.orderedIds.filter (· ≠ threadId) }

end Metidos.Client
