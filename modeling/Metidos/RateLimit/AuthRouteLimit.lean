import Metidos.Library.Machine
import Metidos.Library.OrderedMap
import Metidos.Library.Separators
import Metidos.Library.SlidingWindow
import Metidos.RateLimit.LimiterHits

/-!
The limit on failed authentications of `src/bun/auth/rate-limit.ts`: a table of buckets, two for
an attempt, with the failures of a window and the lock that too many of them start.
-/

namespace Metidos.RateLimit

open SlidingWindow

inductive RateLimitedAuthPath
  | login
  | recoveryLogin
  | resetPassword
  | resetPin
  | setup
  | stepUp
  | wsTicket
  deriving DecidableEq

def RateLimitedAuthPath.pathname : RateLimitedAuthPath → Text
  | .login => "/auth/login".toList
  | .recoveryLogin => "/auth/recovery-login".toList
  | .resetPassword => "/auth/reset-password".toList
  | .resetPin => "/auth/reset-pin".toList
  | .setup => "/auth/setup".toList
  | .stepUp => "/auth/step-up".toList
  | .wsTicket => "/auth/ws-ticket".toList

def RateLimitedAuthPath.all : List RateLimitedAuthPath :=
  [.login, .recoveryLogin, .setup, .resetPassword, .resetPin, .stepUp, .wsTicket]

structure AuthRouteRateLimitConfig where
  lockoutMs : Int
  peerFailureLimit : Nat
  subjectFailureLimit : Nat
  windowMs : Int

def authRouteRateLimits : RateLimitedAuthPath → AuthRouteRateLimitConfig
  | .login | .recoveryLogin | .setup | .resetPassword | .resetPin | .stepUp | .wsTicket =>
    { lockoutMs := 10 * 60 * 1000
      peerFailureLimit := 12
      subjectFailureLimit := 6
      windowMs := 10 * 60 * 1000 }

def authRouteRateLimitMaxBucketAgeMs : Int :=
  (RateLimitedAuthPath.all.flatMap fun pathname =>
    [(authRouteRateLimits pathname).lockoutMs, (authRouteRateLimits pathname).windowMs]).foldl max 0

def authRouteRateLimitPruneIntervalMs : Int := authRouteRateLimitMaxBucketAgeMs

structure AuthRouteRateLimitContext where
  nowMs : Int
  pathname : RateLimitedAuthPath
  peerKey : Text
  subjectKey : Option Text
  deriving DecidableEq

structure AuthRouteBucketState where
  failuresMs : List Int
  lockedUntilMs : Option Int
  deriving DecidableEq

namespace AuthRouteBucketState

def clear : AuthRouteBucketState := { failuresMs := [], lockedUntilMs := none }

def isClear (state : AuthRouteBucketState) : Prop :=
  state.failuresMs = [] ∧ state.lockedUntilMs = none

instance (state : AuthRouteBucketState) : Decidable state.isClear :=
  inferInstanceAs (Decidable (_ ∧ _))

def normalized (windowMs nowMs : Int) (state : AuthRouteBucketState) : AuthRouteBucketState where
  failuresMs := recent windowMs nowMs state.failuresMs
  lockedUntilMs := state.lockedUntilMs.filter fun lockedUntilMs => nowMs < lockedUntilMs

end AuthRouteBucketState

structure AuthRouteBucketRow extends AuthRouteBucketState where
  updatedAtMs : Int
  deriving DecidableEq

abbrev AuthRouteRows := OrderedMap Text AuthRouteBucketRow

structure AuthRouteStore where
  rows : AuthRouteRows
  lastPruneAtMs : Int

namespace AuthRouteRows

def readBucketState (rows : AuthRouteRows) (key : Text) : Option AuthRouteBucketState :=
  (rows.get? key).map AuthRouteBucketRow.toAuthRouteBucketState

def writeBucketState (rows : AuthRouteRows) (key : Text) (state : AuthRouteBucketState)
    (updatedAtMs : Int) : AuthRouteRows :=
  rows.set key { state with updatedAtMs := updatedAtMs }

def deleteBucketState (rows : AuthRouteRows) (key : Text) : AuthRouteRows := rows.delete key

def pruneExpiredAuthRouteRateLimitBuckets (rows : AuthRouteRows) (nowMs : Int) : AuthRouteRows :=
  let cutoffMs := nowMs - authRouteRateLimitMaxBucketAgeMs
  rows.filter fun _ row =>
    !(row.updatedAtMs ≤ cutoffMs && row.lockedUntilMs.all fun lockedUntilMs => lockedUntilMs ≤ nowMs)

def normalizeBucketState (rows : AuthRouteRows) (key : Text) (nowMs windowMs : Int) :
    AuthRouteRows × AuthRouteBucketState :=
  match rows.readBucketState key with
  | none => (rows, .clear)
  | some current =>
    let normalized := current.normalized windowMs nowMs
    if normalized.isClear then (rows.deleteBucketState key, normalized)
    else (rows.writeBucketState key normalized nowMs, normalized)

def persistBucketState (rows : AuthRouteRows) (key : Text) (state : AuthRouteBucketState)
    (nowMs : Int) : AuthRouteRows :=
  if state.isClear then rows.deleteBucketState key else rows.writeBucketState key state nowMs

end AuthRouteRows

def AuthRouteStore.maybePruneExpiredAuthRouteRateLimitBuckets (store : AuthRouteStore)
    (nowMs : Int) : AuthRouteStore :=
  if store.lastPruneAtMs ≠ 0 ∧ nowMs - store.lastPruneAtMs < authRouteRateLimitPruneIntervalMs then
    store
  else
    { rows := store.rows.pruneExpiredAuthRouteRateLimitBuckets nowMs, lastPruneAtMs := nowMs }

inductive AuthRouteScope
  | peer
  | subject
  deriving DecidableEq

def AuthRouteScope.text : AuthRouteScope → Text
  | .peer => "peer".toList
  | .subject => "subject".toList

structure AuthRouteKey where
  pathname : RateLimitedAuthPath
  scope : AuthRouteScope
  value : Text
  deriving DecidableEq

def AuthRouteKey.rawKey (key : AuthRouteKey) : Text :=
  key.pathname.pathname ++ ':' :: (key.scope.text ++ ':' :: key.value)

def AuthRouteRateLimitContext.keyOf (context : AuthRouteRateLimitContext)
    (scope : AuthRouteScope) : AuthRouteKey where
  pathname := context.pathname
  scope := scope
  value := match scope with
    | .peer => context.peerKey
    | .subject => context.subjectKey.getD []

def AuthRouteRateLimitContext.hasSubject (context : AuthRouteRateLimitContext) : Bool :=
  context.subjectKey.any fun subjectKey => !subjectKey.isEmpty

section

variable (hash : Text → Text)

def AuthRouteKey.bucketKey (key : AuthRouteKey) : Text := hash key.rawKey

def authRouteRateLimitBucketKey (context : AuthRouteRateLimitContext) (scope : AuthRouteScope) :
    Text :=
  (context.keyOf scope).bucketKey hash

structure RateLimitScope where
  key : Text
  maxFailures : Nat

def rateLimitScopes (context : AuthRouteRateLimitContext) (config : AuthRouteRateLimitConfig) :
    List RateLimitScope :=
  let peer : RateLimitScope :=
    { key := authRouteRateLimitBucketKey hash context .peer, maxFailures := config.peerFailureLimit }
  let subject : RateLimitScope :=
    { key := authRouteRateLimitBucketKey hash context .subject
      maxFailures := config.subjectFailureLimit }
  if context.hasSubject then [peer, subject] else [peer]

def readRetryAfterSeconds (lockedUntilMs nowMs : Int) : Int :=
  max 1 (ceilSeconds (lockedUntilMs - nowMs))

def laterLock (longest locked : Option Int) : Option Int :=
  match locked, longest with
  | some lockedUntilMs, some longestLockedUntilMs =>
    if longestLockedUntilMs < lockedUntilMs then some lockedUntilMs else some longestLockedUntilMs
  | some lockedUntilMs, none => some lockedUntilMs
  | none, longest => longest

def readScope (nowMs windowMs : Int) (read : AuthRouteRows × Option Int)
    (scope : RateLimitScope) : AuthRouteRows × Option Int :=
  let normalized := read.1.normalizeBucketState scope.key nowMs windowMs
  (normalized.1, laterLock read.2 normalized.2.lockedUntilMs)

def readAuthRouteRateLimitStatus (store : AuthRouteStore) (context : AuthRouteRateLimitContext) :
    AuthRouteStore × Option Int :=
  let config := authRouteRateLimits context.pathname
  let pruned := store.maybePruneExpiredAuthRouteRateLimitBuckets context.nowMs
  let read := (rateLimitScopes hash context config).foldl
    (readScope context.nowMs config.windowMs) (pruned.rows, none)
  ({ pruned with rows := read.1 },
    read.2.map fun longestLockedUntilMs => readRetryAfterSeconds longestLockedUntilMs context.nowMs)

def noteScopeFailure (nowMs : Int) (config : AuthRouteRateLimitConfig) (rows : AuthRouteRows)
    (scope : RateLimitScope) : AuthRouteRows :=
  let normalized := rows.normalizeBucketState scope.key nowMs config.windowMs
  if normalized.2.lockedUntilMs.isSome then normalized.1
  else
    let failuresMs := normalized.2.failuresMs ++ [nowMs]
    let state : AuthRouteBucketState :=
      if scope.maxFailures ≤ failuresMs.length then
        { failuresMs := [], lockedUntilMs := some (nowMs + config.lockoutMs) }
      else { normalized.2 with failuresMs := failuresMs }
    normalized.1.persistBucketState scope.key state nowMs

def noteAuthRouteFailure (store : AuthRouteStore) (context : AuthRouteRateLimitContext) :
    AuthRouteStore × Option Int :=
  let config := authRouteRateLimits context.pathname
  let rows := (rateLimitScopes hash context config).foldl
    (noteScopeFailure context.nowMs config) store.rows
  readAuthRouteRateLimitStatus hash { store with rows := rows } context

def noteAuthRouteSuccess (store : AuthRouteStore) (context : AuthRouteRateLimitContext) :
    AuthRouteStore :=
  let config := authRouteRateLimits context.pathname
  let pruned := store.maybePruneExpiredAuthRouteRateLimitBuckets context.nowMs
  if context.hasSubject then
    let subjectKey := authRouteRateLimitBucketKey hash context .subject
    let normalized := pruned.rows.normalizeBucketState subjectKey context.nowMs config.windowMs
    { pruned with rows := normalized.1.deleteBucketState subjectKey }
  else pruned

inductive AuthRouteEvent
  | attempt (context : AuthRouteRateLimitContext)
  | failure (context : AuthRouteRateLimitContext)
  | success (context : AuthRouteRateLimitContext)
  | prune (nowMs : Int)
  deriving DecidableEq

def AuthRouteEvent.nowMs : AuthRouteEvent → Int
  | .attempt context | .failure context | .success context => context.nowMs
  | .prune nowMs => nowMs

def authRouteLimiter : Machine AuthRouteStore AuthRouteEvent (Option Int) where
  start := { rows := OrderedMap.empty, lastPruneAtMs := 0 }
  step := fun store event =>
    match event with
    | .attempt context => readAuthRouteRateLimitStatus hash store context
    | .failure context => noteAuthRouteFailure hash store context
    | .success context => (noteAuthRouteSuccess hash store context, none)
    | .prune nowMs =>
      ({ store with rows := store.rows.pruneExpiredAuthRouteRateLimitBuckets nowMs }, none)

end

end Metidos.RateLimit

/-!
The table of failed authentications against one bucket for each key.  Pruning, normalising and
deleting empty rows change nothing that a later call can see.
-/

namespace Metidos.RateLimit

open SlidingWindow Machine

theorem pathname_plain (pathname : RateLimitedAuthPath) : ':' ∉ pathname.pathname := by
  cases pathname <;> decide

theorem pathname_injective {pathname other : RateLimitedAuthPath}
    (same : pathname.pathname = other.pathname) : pathname = other := by
  revert same
  cases pathname <;> cases other <;> decide

theorem scope_plain (scope : AuthRouteScope) : ':' ∉ scope.text := by
  cases scope <;> decide

theorem scope_injective {scope other : AuthRouteScope} (same : scope.text = other.text) :
    scope = other := by
  revert same
  cases scope <;> cases other <;> decide

theorem rawKey_injective {key other : AuthRouteKey} (same : key.rawKey = other.rawKey) :
    key = other := by
  obtain ⟨pathname, scope, value⟩ := key
  obtain ⟨otherPathname, otherScope, otherValue⟩ := other
  obtain ⟨samePath, rest⟩ :=
    Separators.first_inj (pathname_plain pathname) (pathname_plain otherPathname) same
  obtain ⟨sameScope, rfl⟩ := Separators.first_inj (scope_plain scope) (scope_plain otherScope) rest
  rw [pathname_injective samePath, scope_injective sameScope]

def AuthRouteKey.config (key : AuthRouteKey) : AuthRouteRateLimitConfig :=
  authRouteRateLimits key.pathname

def AuthRouteKey.maxFailures (key : AuthRouteKey) : Nat :=
  match key.scope with
  | .peer => key.config.peerFailureLimit
  | .subject => key.config.subjectFailureLimit

def AuthRouteRateLimitContext.keys (context : AuthRouteRateLimitContext) : List AuthRouteKey :=
  if context.hasSubject then [context.keyOf .peer, context.keyOf .subject]
  else [context.keyOf .peer]

def AuthRouteKey.rateLimitScope (hash : Text → Text) (key : AuthRouteKey) : RateLimitScope where
  key := key.bucketKey hash
  maxFailures := key.maxFailures

theorem rateLimitScopes_eq (hash : Text → Text) (context : AuthRouteRateLimitContext) :
    rateLimitScopes hash context (authRouteRateLimits context.pathname) =
      context.keys.map (AuthRouteKey.rateLimitScope hash) := by
  rw [rateLimitScopes, AuthRouteRateLimitContext.keys]
  split <;> rfl

theorem keys_pathname {context : AuthRouteRateLimitContext} {key : AuthRouteKey}
    (member : key ∈ context.keys) : key.pathname = context.pathname := by
  rw [AuthRouteRateLimitContext.keys] at member
  split at member
  · rcases List.mem_pair.mp member with rfl | rfl <;> rfl
  · rw [List.mem_singleton.mp member]
    rfl

theorem keys_nodup (context : AuthRouteRateLimitContext) : context.keys.Nodup := by
  rw [AuthRouteRateLimitContext.keys]
  split
  · simp [AuthRouteRateLimitContext.keyOf]
  · exact List.nodup_singleton _

theorem window_le_lockout (pathname : RateLimitedAuthPath) :
    (authRouteRateLimits pathname).windowMs ≤ (authRouteRateLimits pathname).lockoutMs := by
  cases pathname <;> decide

theorem window_pos (pathname : RateLimitedAuthPath) :
    0 < (authRouteRateLimits pathname).windowMs := by
  cases pathname <;> decide

theorem window_le_maxAge (pathname : RateLimitedAuthPath) :
    (authRouteRateLimits pathname).windowMs ≤ authRouteRateLimitMaxBucketAgeMs := by
  cases pathname <;> decide

namespace AuthRouteBucketState

variable {windowMs nowMs later : Int} {state : AuthRouteBucketState}

theorem isClear_iff : state.isClear ↔ state = clear := by
  obtain ⟨failuresMs, lockedUntilMs⟩ := state
  simp [isClear, clear]

@[simp] theorem normalized_clear : clear.normalized windowMs nowMs = clear := rfl

theorem normalized_normalized (passed : nowMs ≤ later) :
    (state.normalized windowMs nowMs).normalized windowMs later =
      state.normalized windowMs later := by
  have locks : (state.lockedUntilMs.filter fun lockedUntilMs => nowMs < lockedUntilMs).filter
      (fun lockedUntilMs => later < lockedUntilMs) =
        state.lockedUntilMs.filter fun lockedUntilMs => later < lockedUntilMs := by
    cases state.lockedUntilMs with
    | none => rfl
    | some lockedUntilMs =>
      by_cases still : later < lockedUntilMs
      · have before : nowMs < lockedUntilMs := by omega
        simp [Option.filter, still, before]
      · by_cases before : nowMs < lockedUntilMs <;> simp [Option.filter, still, before]
  simp only [normalized, recent_recent passed, locks]

end AuthRouteBucketState

namespace AuthRouteRows

variable {rows : AuthRouteRows} {key other : Text} {state : AuthRouteBucketState}
  {nowMs later windowMs : Int}

def stateOf (rows : AuthRouteRows) (key : Text) : AuthRouteBucketState :=
  (rows.readBucketState key).getD .clear

theorem stateOf_delete : (rows.deleteBucketState key).stateOf other =
    if other = key then .clear else rows.stateOf other := by
  rw [stateOf, stateOf, readBucketState, readBucketState, deleteBucketState,
    OrderedMap.get?_delete]
  split <;> rfl

theorem stateOf_write (updatedAtMs : Int) :
    (rows.writeBucketState key state updatedAtMs).stateOf other =
      if other = key then state else rows.stateOf other := by
  rw [stateOf, stateOf, readBucketState, readBucketState, writeBucketState, OrderedMap.get?_set]
  split <;> rfl

theorem stateOf_persist : (rows.persistBucketState key state nowMs).stateOf other =
    if other = key then state else rows.stateOf other := by
  rw [persistBucketState]
  split
  · rename_i isClear
    rw [AuthRouteBucketState.isClear_iff.mp isClear, stateOf_delete]
  · exact stateOf_write nowMs

theorem normalizeBucketState_spec :
    (rows.normalizeBucketState key nowMs windowMs).2 =
        (rows.stateOf key).normalized windowMs nowMs ∧
      (rows.normalizeBucketState key nowMs windowMs).1.stateOf other =
        if other = key then (rows.stateOf key).normalized windowMs nowMs
        else rows.stateOf other := by
  rw [normalizeBucketState]
  cases present : rows.readBucketState key with
  | none =>
    have isClear : rows.stateOf key = .clear := by rw [stateOf, present, Option.getD_none]
    rw [isClear]
    refine ⟨rfl, ?_⟩
    by_cases same : other = key
    · rw [if_pos same, same]
      exact isClear
    · rw [if_neg same]
  | some current =>
    have isCurrent : rows.stateOf key = current := by rw [stateOf, present, Option.getD_some]
    rw [isCurrent]
    dsimp only
    split
    · rename_i isClear
      rw [stateOf_delete, AuthRouteBucketState.isClear_iff.mp isClear]
      exact ⟨rfl, rfl⟩
    · rw [stateOf_write]
      exact ⟨rfl, rfl⟩

/-- No row has a failure that is later than its last update, nor an update that is later than
now. -/
def Stamped (nowMs : Int) (rows : AuthRouteRows) : Prop :=
  ∀ key row, rows.get? key = some row →
    (∀ failedAtMs ∈ row.failuresMs, failedAtMs ≤ row.updatedAtMs) ∧ row.updatedAtMs ≤ nowMs

theorem Stamped.mono (stamped : rows.Stamped nowMs) (passed : nowMs ≤ later) :
    rows.Stamped later := by
  intro key row present
  obtain ⟨failures, updated⟩ := stamped key row present
  exact ⟨failures, updated.trans passed⟩

theorem Stamped.delete (stamped : rows.Stamped nowMs) : (rows.deleteBucketState key).Stamped nowMs := by
  intro found row present
  rw [deleteBucketState, OrderedMap.get?_delete] at present
  split at present
  · exact absurd present (by simp)
  · exact stamped found row present

theorem Stamped.write (stamped : rows.Stamped nowMs)
    (notLater : ∀ failedAtMs ∈ state.failuresMs, failedAtMs ≤ nowMs) :
    (rows.writeBucketState key state nowMs).Stamped nowMs := by
  intro found row present
  rw [writeBucketState, OrderedMap.get?_set] at present
  split at present
  · rw [← Option.some.inj present]
    exact ⟨notLater, le_refl _⟩
  · exact stamped found row present

theorem Stamped.persist (stamped : rows.Stamped nowMs)
    (notLater : ∀ failedAtMs ∈ state.failuresMs, failedAtMs ≤ nowMs) :
    (rows.persistBucketState key state nowMs).Stamped nowMs := by
  rw [persistBucketState]
  split
  · exact stamped.delete
  · exact stamped.write notLater

theorem Stamped.failures_le (stamped : rows.Stamped nowMs) :
    ∀ failedAtMs ∈ (rows.stateOf key).failuresMs, failedAtMs ≤ nowMs := by
  intro failedAtMs member
  rw [stateOf, readBucketState] at member
  cases present : rows.get? key with
  | none =>
    rw [present] at member
    exact absurd member List.not_mem_nil
  | some row =>
    rw [present] at member
    obtain ⟨failures, updated⟩ := stamped key row present
    exact (failures failedAtMs member).trans updated

theorem Stamped.normalize (stamped : rows.Stamped nowMs) :
    (rows.normalizeBucketState key nowMs windowMs).1.Stamped nowMs := by
  have notLater := @Stamped.failures_le _ key _ stamped
  rw [normalizeBucketState]
  cases present : rows.readBucketState key with
  | none => exact stamped
  | some current =>
    rw [stateOf, present, Option.getD_some] at notLater
    dsimp only
    split
    · exact stamped.delete
    · exact stamped.write fun failedAtMs member => notLater failedAtMs (mem_recent.mp member).1

theorem stateOf_prune (stamped : rows.Stamped nowMs)
    (young : windowMs ≤ authRouteRateLimitMaxBucketAgeMs) (passed : nowMs ≤ later) :
    ((rows.pruneExpiredAuthRouteRateLimitBuckets nowMs).stateOf key).normalized windowMs later =
      (rows.stateOf key).normalized windowMs later := by
  rw [stateOf, stateOf, readBucketState, readBucketState, pruneExpiredAuthRouteRateLimitBuckets,
    OrderedMap.get?_filter]
  cases present : rows.get? key with
  | none => rfl
  | some row =>
    rw [Option.filter_some]
    split
    · rfl
    · rename_i expired
      obtain ⟨failures, -⟩ := stamped key row present
      simp only [Bool.not_eq_true, Bool.not_eq_false', Bool.and_eq_true, decide_eq_true_eq,
        Option.all_eq_true] at expired
      obtain ⟨old, unlocked⟩ := expired
      have noFailures : recent windowMs later row.failuresMs = [] := by
        refine List.filter_eq_nil_iff.mpr fun failedAtMs member => ?_
        have bound := failures failedAtMs member
        rw [decide_eq_true_iff]
        omega
      have noLock : row.lockedUntilMs.filter (fun lockedUntilMs => later < lockedUntilMs) =
          none := by
        cases isLocked : row.lockedUntilMs with
        | none => rfl
        | some lockedUntilMs =>
          have ended := unlocked lockedUntilMs isLocked
          have past : ¬ later < lockedUntilMs := by omega
          simp [Option.filter, past]
      rw [Option.map_none, Option.map_some, Option.getD_none, Option.getD_some,
        AuthRouteBucketState.normalized_clear]
      simp only [AuthRouteBucketState.normalized, noFailures, noLock]
      rfl

theorem Stamped.prune (stamped : rows.Stamped nowMs) :
    (rows.pruneExpiredAuthRouteRateLimitBuckets later).Stamped nowMs := by
  intro key row present
  rw [pruneExpiredAuthRouteRateLimitBuckets, OrderedMap.get?_filter,
    Option.filter_eq_some_iff] at present
  exact stamped key row present.1

end AuthRouteRows

end Metidos.RateLimit
