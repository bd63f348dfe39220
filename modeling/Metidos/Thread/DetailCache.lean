import Metidos.Library.OrderedMap
import Metidos.Library.Transition
import Metidos.Thread.RunStatus

/-!
The cache of thread details, `readDetailCached` and `invalidateDetail` of
`src/bun/project-procedures/thread-runtime-lifecycle.ts`, over the builder `buildThreadDetailRaw`,
which reads the database at once and then waits for the image previews of what it has read.
-/

namespace Metidos.Thread

structure RpcThread where
  id : Nat
  updatedAt : StatusText
  runStatus : RpcThreadRunStatus
  deriving DecidableEq

def buildThreadDetailCacheValidationKey (thread : RpcThread) : StatusText :=
  [':'].intercalate [
    (toString thread.id).toList,
    thread.updatedAt,
    thread.runStatus.state.text,
    thread.runStatus.startedAt.getD [],
    thread.runStatus.error.getD [],
    if thread.runStatus.hasUnreadError then ['1'] else ['0']]

section Detail

variable (Messages : Type)

/-- A detail, with the moment at which its builder has read the database. -/
structure RpcThreadDetail where
  thread : RpcThread
  messages : Messages
  readAt : Nat

structure DetailBuild where
  threadId : Nat
  startedAt : Nat
  detail : RpcThreadDetail Messages

structure DetailResult where
  threadId : Nat
  startedAt : Nat
  detail : RpcThreadDetail Messages

/-- The database as the builder reads it, the cache, the calls that wait for their builders, and
what has happened so far: the invalidations with their moments, and the calls that have returned. -/
structure DetailState where
  clock : Nat
  database : OrderedMap Nat (RpcThread × Messages)
  detailCache : OrderedMap Nat (RpcThreadDetail Messages)
  building : List (DetailBuild Messages)
  invalidated : List (Nat × Nat)
  returned : List (DetailResult Messages)

inductive DetailEvent
  | write (threadId : Nat) (row : RpcThread × Messages)
  | invalidateDetail (threadId : Nat)
  | readDetailCached (threadId : Nat) (expectedThread : Option RpcThread)
  | buildResolves (index : Nat)
  | buildRejects (index : Nat)

structure DetailOptions where
  applyRuntimeTelemetry : Nat → RpcThread → RpcThread
  threadDetailCacheMaxEntries : Nat

end Detail

variable {Messages : Type}

def DetailState.initial (database : OrderedMap Nat (RpcThread × Messages)) :
    DetailState Messages where
  clock := 0
  database := database
  detailCache := .empty
  building := []
  invalidated := []
  returned := []

namespace DetailState

section Lru

variable {ν : Type} (cache : OrderedMap Nat ν) (key : Nat)

def readLruValue : Option ν × OrderedMap Nat ν :=
  match cache.get? key with
  | none => (none, cache)
  | some value => (some value, (cache.delete key).set key value)

def writeLruValue (value : ν) (maxEntries : Nat) : OrderedMap Nat ν :=
  let written := (cache.delete key).set key value
  OrderedMap.deleteOldest^[written.size - maxEntries] written

theorem get?_readLruValue (other : Nat) :
    (readLruValue cache key).2.get? other = cache.get? other := by
  rw [readLruValue]
  split
  · rfl
  · rename_i value present
    rw [OrderedMap.get?_set]
    split
    · rename_i same
      rw [same, present]
    · rename_i differs
      rw [OrderedMap.get?_delete, if_neg differs]

theorem readLruValue_value : (readLruValue cache key).1 = cache.get? key := by
  rw [readLruValue]
  split
  · rename_i absent
    rw [absent]
  · rename_i present
    rw [present]

theorem get?_writeLruValue {cache : OrderedMap Nat ν} {key other maxEntries : Nat} {value found : ν}
    (present : (writeLruValue cache key value maxEntries).get? other = some found) :
    other = key ∧ found = value ∨ cache.get? other = some found := by
  have written := OrderedMap.get?_iterate_deleteOldest _ present
  rw [OrderedMap.get?_set] at written
  split at written
  · rename_i same
    exact Or.inl ⟨same, (Option.some.inj written).symm⟩
  · rename_i differs
    rw [OrderedMap.get?_delete, if_neg differs] at written
    exact Or.inr written

end Lru

variable (options : DetailOptions) (state : DetailState Messages)

def cacheIsFresh (cached : RpcThreadDetail Messages) (expectedThread : Option RpcThread) : Bool :=
  match expectedThread with
  | none => true
  | some expectedThread =>
    buildThreadDetailCacheValidationKey cached.thread =
      buildThreadDetailCacheValidationKey expectedThread

def buildThreadDetailRaw (threadId : Nat) : Option (RpcThreadDetail Messages) :=
  (state.database.get? threadId).map fun (thread, messages) =>
    { thread, messages, readAt := state.clock }

def invalidateDetail (threadId : Nat) : DetailState Messages :=
  { state with
    detailCache := state.detailCache.delete threadId
    invalidated := (threadId, state.clock) :: state.invalidated }

def returns (threadId startedAt : Nat) (detail : RpcThreadDetail Messages) :
    DetailState Messages :=
  { state with returned := { threadId, startedAt, detail } :: state.returned }

def readDetailCached (threadId : Nat) (expectedThread : Option RpcThread) :
    DetailState Messages :=
  let (cached, detailCache) := readLruValue state.detailCache threadId
  let read := { state with detailCache := detailCache }
  match cached.filter fun cached => cacheIsFresh cached expectedThread with
  | some cached =>
    read.returns threadId state.clock
      { cached with
        thread := expectedThread.getD
          (options.applyRuntimeTelemetry state.clock cached.thread) }
  | none =>
    match state.buildThreadDetailRaw threadId with
    | some detail =>
      { read with
        building := state.building ++ [{ threadId, startedAt := state.clock, detail }] }
    | none => read

def buildResolves (build : DetailBuild Messages) : DetailState Messages :=
  let written := { state with
    detailCache := writeLruValue state.detailCache build.threadId build.detail
      options.threadDetailCacheMaxEntries }
  written.returns build.threadId build.startedAt
    { build.detail with
      thread := options.applyRuntimeTelemetry state.clock build.detail.thread }

def tick : DetailState Messages := { state with clock := state.clock + 1 }

end DetailState

def detailStep (options : DetailOptions) (state : DetailState Messages) :
    DetailEvent Messages → Option (DetailState Messages)
  | .write threadId row =>
    some { state with database := state.database.set threadId row }.tick
  | .invalidateDetail threadId => some (state.invalidateDetail threadId).tick
  | .readDetailCached threadId expectedThread =>
    some (state.readDetailCached options threadId expectedThread).tick
  | .buildResolves index =>
    (state.building[index]?).map fun build =>
      ({ state with building := state.building.eraseIdx index }.buildResolves options build).tick
  | .buildRejects index =>
    (state.building[index]?).map fun _ =>
      { state with building := state.building.eraseIdx index }.tick

namespace DetailState

def Coherent (state : DetailState Messages) : Prop :=
  ∀ result ∈ state.returned, ∀ moment, (result.threadId, moment) ∈ state.invalidated →
    moment < result.startedAt → moment < result.detail.readAt

def BuildsCurrent (state : DetailState Messages) : DetailEvent Messages → Prop
  | .buildResolves index =>
    ∀ build, state.building[index]? = some build →
      ∀ moment, (build.threadId, moment) ∈ state.invalidated → moment < build.startedAt
  | _ => True

structure Sound (state : DetailState Messages) : Prop where
  coherent : state.Coherent
  past : ∀ entry ∈ state.invalidated, entry.2 < state.clock
  started : ∀ result ∈ state.returned, result.startedAt ≤ state.clock
  built : ∀ build ∈ state.building, build.detail.readAt = build.startedAt ∧
    build.startedAt ≤ state.clock
  cached : ∀ threadId detail, state.detailCache.get? threadId = some detail →
    ∀ moment, (threadId, moment) ∈ state.invalidated → moment < detail.readAt

variable {options : DetailOptions} {state next : DetailState Messages}

theorem Sound.tick (sound : state.Sound) : state.tick.Sound where
  coherent := sound.coherent
  past := fun entry member => Nat.lt_succ_of_lt (sound.past entry member)
  started := fun result member => Nat.le_succ_of_le (sound.started result member)
  built := fun build member =>
    ⟨(sound.built build member).1, Nat.le_succ_of_le (sound.built build member).2⟩
  cached := sound.cached

theorem Sound.returns (sound : state.Sound) {threadId startedAt : Nat}
    {detail : RpcThreadDetail Messages} (past : startedAt ≤ state.clock)
    (current : ∀ moment, (threadId, moment) ∈ state.invalidated → moment < detail.readAt) :
    (state.returns threadId startedAt detail).Sound := by
  refine ⟨?_, sound.past, ?_, sound.built, sound.cached⟩
  · intro result member moment isInvalidated isBefore
    rcases List.mem_cons.mp member with rfl | earlier
    · exact current moment isInvalidated
    · exact sound.coherent result earlier moment isInvalidated isBefore
  · intro result member
    rcases List.mem_cons.mp member with rfl | earlier
    · exact past
    · exact sound.started result earlier

theorem Sound.invalidateDetail (sound : state.Sound) (threadId : Nat) :
    (state.invalidateDetail threadId).tick.Sound := by
  refine ⟨?_, ?_, ?_, ?_, ?_⟩
  · intro result member moment isInvalidated isBefore
    rcases List.mem_cons.mp isInvalidated with isNow | earlier
    · cases isNow
      exact absurd (sound.started result member) (Nat.not_le_of_lt isBefore)
    · exact sound.coherent result member moment earlier isBefore
  · intro entry member
    rcases List.mem_cons.mp member with rfl | earlier
    · exact Nat.lt_succ_self _
    · exact Nat.lt_succ_of_lt (sound.past entry earlier)
  · exact fun result member => Nat.le_succ_of_le (sound.started result member)
  · exact sound.tick.built
  · intro other detail present moment isInvalidated
    have kept : (state.detailCache.delete threadId).get? other = some detail := present
    rw [OrderedMap.get?_delete] at kept
    split at kept
    · cases kept
    · rename_i differs
      rcases List.mem_cons.mp isInvalidated with isNow | earlier
      · exact absurd (Prod.mk.inj isNow).1 differs
      · exact sound.cached other detail kept moment earlier

theorem Sound.readDetailCached (sound : state.Sound) (threadId : Nat)
    (expectedThread : Option RpcThread) :
    (state.readDetailCached options threadId expectedThread).Sound := by
  have read : { state with
      detailCache := (readLruValue state.detailCache threadId).2 }.Sound := by
    refine ⟨sound.coherent, sound.past, sound.started, sound.built, ?_⟩
    intro other detail present
    rw [get?_readLruValue] at present
    exact sound.cached other detail present
  rw [DetailState.readDetailCached]
  dsimp only
  split
  · rename_i cached isFresh
    rw [readLruValue_value] at isFresh
    have present := (Option.filter_eq_some_iff.mp isFresh).1
    exact read.returns (Nat.le_refl _) (sound.cached threadId cached present)
  · split
    · rename_i detail isRead
      obtain ⟨row, _, rfl⟩ := Option.map_eq_some_iff.mp isRead
      refine ⟨sound.coherent, sound.past, sound.started, ?_, read.cached⟩
      intro build member
      rcases List.mem_append.mp member with earlier | isNew
      · exact sound.built build earlier
      · cases List.mem_singleton.mp isNew
        exact ⟨rfl, Nat.le_refl _⟩
    · exact read

theorem Sound.leave (sound : state.Sound) (index : Nat) :
    { state with building := state.building.eraseIdx index }.Sound where
  coherent := sound.coherent
  past := sound.past
  started := sound.started
  built := fun build member => sound.built build (List.mem_of_mem_eraseIdx member)
  cached := sound.cached

theorem Sound.buildResolves (sound : state.Sound) {build : DetailBuild Messages}
    (isRead : build.detail.readAt = build.startedAt) (past : build.startedAt ≤ state.clock)
    (current : ∀ moment, (build.threadId, moment) ∈ state.invalidated →
      moment < build.startedAt) : (state.buildResolves options build).Sound := by
  have written : { state with
      detailCache := writeLruValue state.detailCache build.threadId build.detail
        options.threadDetailCacheMaxEntries }.Sound := by
    refine ⟨sound.coherent, sound.past, sound.started, sound.built, ?_⟩
    intro other detail present moment isInvalidated
    rcases get?_writeLruValue present with ⟨rfl, rfl⟩ | earlier
    · rw [isRead]
      exact current moment isInvalidated
    · exact sound.cached other detail earlier moment isInvalidated
  refine written.returns past fun moment isInvalidated => ?_
  exact lt_of_lt_of_eq (current moment isInvalidated) isRead.symm

theorem Sound.step {event : DetailEvent Messages} (sound : state.Sound)
    (current : state.BuildsCurrent event) (stepped : detailStep options state event = some next) :
    next.Sound := by
  cases event with
  | write threadId row =>
    cases stepped
    exact Sound.tick ⟨sound.coherent, sound.past, sound.started, sound.built, sound.cached⟩
  | invalidateDetail threadId =>
    cases stepped
    exact sound.invalidateDetail threadId
  | readDetailCached threadId expectedThread =>
    cases stepped
    exact (sound.readDetailCached threadId expectedThread).tick
  | buildResolves index =>
    obtain ⟨build, atIndex, rfl⟩ := Option.map_eq_some_iff.mp stepped
    obtain ⟨isRead, past⟩ := sound.built build (List.mem_of_getElem? atIndex)
    exact ((sound.leave index).buildResolves isRead past (current build atIndex)).tick
  | buildRejects index =>
    obtain ⟨build, _, rfl⟩ := Option.map_eq_some_iff.mp stepped
    exact (sound.leave index).tick

end DetailState

open Transition DetailState

/-- A run in which no builder outlives an invalidation of its thread yields nothing stale. -/
theorem detail_cache_coherent (options : DetailOptions)
    {database : OrderedMap Nat (RpcThread × Messages)} {state : DetailState Messages}
    (reached : Reaches (detailStep options) BuildsCurrent (initial database) state) :
    state.Coherent := by
  have start : (initial database).Sound := by
    refine ⟨?_, ?_, ?_, ?_, ?_⟩
    · intro result member
      cases member
    · intro entry member
      cases member
    · intro result member
      cases member
    · intro build member
      cases member
    · intro threadId detail present
      cases present
  exact (reached.invariant DetailState.Sound start
    fun before event after sound current stepped => sound.step current stepped).coherent

namespace Sample

def currentCheck (state : DetailState Nat) : DetailEvent Nat → Bool
  | .buildResolves index =>
    (state.building[index]?).all fun build =>
      state.invalidated.all fun entry => entry.1 ≠ build.threadId || entry.2 < build.startedAt
  | _ => true

theorem currentCheck_current {state : DetailState Nat} {event : DetailEvent Nat}
    (passes : currentCheck state event = true) : BuildsCurrent state event := by
  cases event with
  | buildResolves index =>
    intro build atIndex moment isInvalidated
    simp only [currentCheck, atIndex, Option.all_some] at passes
    simpa using List.all_eq_true.mp passes _ isInvalidated
  | _ => trivial

def idleThread : RpcThread where
  id := 1
  updatedAt := "2026-01-01".toList
  runStatus := {
    state := .idle, startedAt := none, updatedAt := none, error := none, hasUnreadError := false }

def detailOptions : DetailOptions where
  applyRuntimeTelemetry := fun _ thread => thread
  threadDetailCacheMaxEntries := 50

def oneMessage : OrderedMap Nat (RpcThread × Nat) := OrderedMap.empty.set 1 (idleThread, 1)

def cachedEvents : List (DetailEvent Nat) :=
  [.readDetailCached 1 none, .buildResolves 0, .write 1 (idleThread, 2), .invalidateDetail 1,
    .readDetailCached 1 none, .buildResolves 0, .readDetailCached 1 (some idleThread)]

def outlivedEvents : List (DetailEvent Nat) :=
  [.readDetailCached 1 none, .write 1 (idleThread, 2), .invalidateDetail 1, .buildResolves 0,
    .readDetailCached 1 (some idleThread)]

end Sample

theorem detail_cache_coherent_reread : ∃ state : DetailState Nat,
    (state.returned.map fun result => result.detail.messages) = [2, 2, 1] ∧ state.Coherent := by
  have ran : ((run (detailStep Sample.detailOptions) Sample.currentCheck
      (initial Sample.oneMessage) Sample.cachedEvents).any fun state =>
        (state.returned.map fun result => result.detail.messages) = [2, 2, 1]) = true := by
    decide +kernel
  obtain ⟨state, isRun, returned⟩ := (Option.any_eq_true _ _).mp ran
  exact ⟨state, of_decide_eq_true returned, detail_cache_coherent Sample.detailOptions
    ((reaches_of_run isRun).weaken fun _ _ => Sample.currentCheck_current)⟩

theorem outlived_build_yielded : ¬ ∀ (options : DetailOptions)
    (database : OrderedMap Nat (RpcThread × Nat)) (state : DetailState Nat),
    Reaches (detailStep options) Unrestricted (initial database) state → state.Coherent := by
  have ran : ((run (detailStep Sample.detailOptions) (fun _ _ => true)
      (initial Sample.oneMessage) Sample.outlivedEvents).any fun state =>
        state.returned.any fun result => state.invalidated.any fun entry =>
          entry.1 = result.threadId && entry.2 < result.startedAt &&
            result.detail.readAt ≤ entry.2) = true := by
    decide +kernel
  obtain ⟨state, isRun, isStale⟩ := (Option.any_eq_true _ _).mp ran
  obtain ⟨result, isReturned, isStale⟩ := List.any_eq_true.mp isStale
  obtain ⟨⟨threadId, moment⟩, isInvalidated, isStale⟩ := List.any_eq_true.mp isStale
  simp only [Bool.and_eq_true, decide_eq_true_eq] at isStale
  obtain ⟨⟨rfl, isBefore⟩, isOlder⟩ := isStale
  intro always
  have coherent := always Sample.detailOptions Sample.oneMessage state
    (reaches_of_run isRun).unrestricted
  exact absurd (coherent result isReturned moment isInvalidated isBefore)
    (Nat.not_lt_of_le isOlder)

end Metidos.Thread
