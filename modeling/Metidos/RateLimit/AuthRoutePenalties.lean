import Metidos.RateLimit.AuthRouteLimit

/-!
One bucket for each key, without a table: what the calls do to it, and that the table shows the
same buckets at every time to come.
-/

namespace Metidos.RateLimit

open SlidingWindow Machine

abbrev Penalties := AuthRouteKey → AuthRouteBucketState

namespace AuthRouteKey

variable (key : AuthRouteKey) (nowMs : Int) (state : AuthRouteBucketState)

def seen : AuthRouteBucketState := state.normalized key.config.windowMs nowMs

def afterFailure : AuthRouteBucketState :=
  let current := key.seen nowMs state
  if current.lockedUntilMs.isSome then state
  else
    let failuresMs := current.failuresMs ++ [nowMs]
    if key.maxFailures ≤ failuresMs.length then
      { failuresMs := [], lockedUntilMs := some (nowMs + key.config.lockoutMs) }
    else { current with failuresMs := failuresMs }

variable {key nowMs state}

theorem seen_seen {later : Int} (passed : nowMs ≤ later) :
    key.seen later (key.seen nowMs state) = key.seen later state :=
  AuthRouteBucketState.normalized_normalized passed

theorem seen_mono {other : AuthRouteBucketState} {later : Int} (passed : nowMs ≤ later)
    (same : key.seen nowMs state = key.seen nowMs other) :
    key.seen later state = key.seen later other := by
  rw [← seen_seen passed, same, seen_seen passed]

end AuthRouteKey

def AuthRouteEvent.keys : AuthRouteEvent → List AuthRouteKey
  | .attempt context | .failure context | .success context => context.keys
  | .prune _ => []

def AuthRouteEvent.fails (key : AuthRouteKey) : AuthRouteEvent → Bool
  | .failure context => decide (key ∈ context.keys)
  | _ => false

def AuthRouteEvent.clears (key : AuthRouteKey) : AuthRouteEvent → Bool
  | .success context => context.hasSubject && decide (key = context.keyOf .subject)
  | _ => false

namespace Penalties

def step (penalties : Penalties) (event : AuthRouteEvent) : Penalties := fun key =>
  if event.fails key then key.afterFailure event.nowMs (penalties key)
  else if event.clears key then .clear
  else penalties key

def lockedUntil (penalties : Penalties) (nowMs : Int) (key : AuthRouteKey) : Option Int :=
  (key.seen nowMs (penalties key)).lockedUntilMs

def retryAfterSeconds (penalties : Penalties) (context : AuthRouteRateLimitContext) : Option Int :=
  ((context.keys.map (penalties.lockedUntil context.nowMs)).foldl laterLock none).map
    fun longestLockedUntilMs => readRetryAfterSeconds longestLockedUntilMs context.nowMs

def machine : Machine Penalties AuthRouteEvent (Option Int) where
  start := fun _ => .clear
  step := fun penalties event =>
    (penalties.step event,
      match event with
      | .attempt context | .failure context => (penalties.step event).retryAfterSeconds context
      | .success _ | .prune _ => none)

end Penalties

def CollisionFree (hash : Text → Text) (known : AuthRouteKey → Prop) : Prop :=
  ∀ key other, known key → known other → hash key.rawKey = hash other.rawKey →
    key.rawKey = other.rawKey

variable {hash : Text → Text} {known : AuthRouteKey → Prop}

theorem CollisionFree.key_eq (collisionFree : CollisionFree hash known) {key other : AuthRouteKey}
    (isKnown : known key) (otherKnown : known other)
    (same : key.bucketKey hash = other.bucketKey hash) : key = other :=
  rawKey_injective (collisionFree key other isKnown otherKnown same)

structure Shows (hash : Text → Text) (known : AuthRouteKey → Prop) (nowMs : Int)
    (rows : AuthRouteRows) (penalties : Penalties) : Prop where
  stamped : rows.Stamped nowMs
  same : ∀ key, known key →
    key.seen nowMs (rows.stateOf (key.bucketKey hash)) = key.seen nowMs (penalties key)

variable {nowMs later : Int} {rows : AuthRouteRows} {penalties : Penalties} {key : AuthRouteKey}

theorem Shows.mono (shows' : Shows hash known nowMs rows penalties) (passed : nowMs ≤ later) :
    Shows hash known later rows penalties where
  stamped := shows'.stamped.mono passed
  same := fun key isKnown => AuthRouteKey.seen_mono passed (shows'.same key isKnown)

theorem Shows.normalize (shows' : Shows hash known nowMs rows penalties)
    (collisionFree : CollisionFree hash known) (isKnown : known key) :
    (rows.normalizeBucketState (key.bucketKey hash) nowMs key.config.windowMs).2 =
        key.seen nowMs (penalties key) ∧
      Shows hash known nowMs
        (rows.normalizeBucketState (key.bucketKey hash) nowMs key.config.windowMs).1
        penalties := by
  refine ⟨?_, shows'.stamped.normalize, fun other otherKnown => ?_⟩
  · rw [← shows'.same key isKnown]
    exact (@AuthRouteRows.normalizeBucketState_spec _ _ [] _ _).1
  · rw [AuthRouteRows.normalizeBucketState_spec.2]
    split
    · rename_i sameKey
      obtain rfl := collisionFree.key_eq otherKnown isKnown sameKey
      rw [← shows'.same other otherKnown]
      exact AuthRouteKey.seen_seen (le_refl nowMs)
    · exact shows'.same other otherKnown

theorem Shows.prune (shows' : Shows hash known nowMs rows penalties) :
    Shows hash known nowMs (rows.pruneExpiredAuthRouteRateLimitBuckets nowMs) penalties where
  stamped := shows'.stamped.prune
  same := by
    intro key isKnown
    rw [← shows'.same key isKnown]
    exact AuthRouteRows.stateOf_prune shows'.stamped (window_le_maxAge _) (le_refl nowMs)

theorem Shows.maybePrune {store : AuthRouteStore}
    (shows' : Shows hash known nowMs store.rows penalties) :
    Shows hash known nowMs (store.maybePruneExpiredAuthRouteRateLimitBuckets nowMs).rows
      penalties := by
  rw [AuthRouteStore.maybePruneExpiredAuthRouteRateLimitBuckets]
  split
  · exact shows'
  · exact shows'.prune

theorem Shows.write {written : AuthRouteRows} {state : AuthRouteBucketState}
    (shows' : Shows hash known nowMs rows penalties) (collisionFree : CollisionFree hash known)
    (isKnown : known key) (stamped : written.Stamped nowMs)
    (stateOf : ∀ other, written.stateOf other =
      if other = key.bucketKey hash then state else rows.stateOf other) :
    Shows hash known nowMs written (Function.update penalties key state) where
  stamped := stamped
  same := by
    intro other otherKnown
    rw [stateOf]
    by_cases isKey : other = key
    · subst isKey
      rw [if_pos rfl, Function.update_self]
    · rw [if_neg fun same => isKey (collisionFree.key_eq otherKnown isKnown same),
        Function.update_of_ne isKey]
      exact shows'.same other otherKnown

theorem Shows.failScope (shows' : Shows hash known nowMs rows penalties)
    (collisionFree : CollisionFree hash known) (isKnown : known key) :
    Shows hash known nowMs
      (noteScopeFailure nowMs key.config rows (key.rateLimitScope hash))
      (Function.update penalties key (key.afterFailure nowMs (penalties key))) := by
  obtain ⟨current, normalized⟩ := shows'.normalize collisionFree isKnown
  simp only [noteScopeFailure, AuthRouteKey.rateLimitScope, current, AuthRouteKey.afterFailure]
  split
  · rw [Function.update_eq_self]
    exact normalized
  · rename_i unlocked
    have isUnlocked : (key.seen nowMs (penalties key)).lockedUntilMs = none := by
      simpa using unlocked
    refine normalized.write collisionFree isKnown (normalized.stamped.persist ?_)
      fun other => AuthRouteRows.stateOf_persist
    have notLater : ∀ failedAtMs ∈ (key.seen nowMs (penalties key)).failuresMs,
        failedAtMs ≤ nowMs := by
      rw [← shows'.same key isKnown]
      exact fun failedAtMs member => shows'.stamped.failures_le failedAtMs (mem_recent.mp member).1
    split
    · simp
    · intro failedAtMs member
      rcases List.mem_append.mp member with before | isNow
      · exact notLater failedAtMs before
      · exact (List.mem_singleton.mp isNow).le

theorem Shows.noteFailures {config : AuthRouteRateLimitConfig} {keys : List AuthRouteKey}
    (shows' : Shows hash known nowMs rows penalties) (collisionFree : CollisionFree hash known)
    (allKnown : ∀ key ∈ keys, known key) (sameConfig : ∀ key ∈ keys, key.config = config)
    (distinct : keys.Nodup) :
    Shows hash known nowMs
      ((keys.map (AuthRouteKey.rateLimitScope hash)).foldl
        (noteScopeFailure nowMs config) rows)
      (fun key => if key ∈ keys then key.afterFailure nowMs (penalties key) else penalties key) := by
  induction keys generalizing rows penalties with
  | nil => simpa using shows'
  | cons key keys ih =>
    rw [List.nodup_cons] at distinct
    have first := shows'.failScope collisionFree (allKnown key List.mem_cons_self)
    rw [sameConfig key List.mem_cons_self] at first
    have rest := ih first (fun other member => allKnown other (List.mem_cons_of_mem _ member))
      (fun other member => sameConfig other (List.mem_cons_of_mem _ member)) distinct.2
    rw [List.map_cons, List.foldl_cons]
    refine cast (congrArg _ (funext fun other => ?_)) rest
    by_cases isKey : other = key
    · subst isKey
      rw [if_neg distinct.1, if_pos List.mem_cons_self, Function.update_self]
    · rw [Function.update_of_ne isKey]
      simp only [List.mem_cons, isKey, false_or]

theorem Shows.readScopes {windowMs : Int} {keys : List AuthRouteKey} {longest : Option Int}
    (shows' : Shows hash known nowMs rows penalties) (collisionFree : CollisionFree hash known)
    (allKnown : ∀ key ∈ keys, known key) (sameWindow : ∀ key ∈ keys, key.config.windowMs = windowMs) :
    ((keys.map (AuthRouteKey.rateLimitScope hash)).foldl (readScope nowMs windowMs)
        (rows, longest)).2 = (keys.map (penalties.lockedUntil nowMs)).foldl laterLock longest ∧
      Shows hash known nowMs ((keys.map (AuthRouteKey.rateLimitScope hash)).foldl
        (readScope nowMs windowMs) (rows, longest)).1 penalties := by
  induction keys generalizing rows longest with
  | nil => exact ⟨rfl, shows'⟩
  | cons key keys ih =>
    obtain ⟨current, normalized⟩ :=
      shows'.normalize collisionFree (allKnown key List.mem_cons_self)
    rw [sameWindow key List.mem_cons_self] at current normalized
    rw [List.map_cons, List.foldl_cons, List.map_cons, List.foldl_cons]
    dsimp only [readScope, AuthRouteKey.rateLimitScope]
    rw [current]
    exact ih normalized (fun other member => allKnown other (List.mem_cons_of_mem _ member))
      (fun other member => sameWindow other (List.mem_cons_of_mem _ member))

variable {store : AuthRouteStore} {context : AuthRouteRateLimitContext}

theorem keys_config (member : key ∈ context.keys) :
    key.config = authRouteRateLimits context.pathname := by
  rw [AuthRouteKey.config, keys_pathname member]

theorem Shows.readStatus (shows' : Shows hash known context.nowMs store.rows penalties)
    (collisionFree : CollisionFree hash known) (allKnown : ∀ key ∈ context.keys, known key) :
    (readAuthRouteRateLimitStatus hash store context).2 = penalties.retryAfterSeconds context ∧
      Shows hash known context.nowMs (readAuthRouteRateLimitStatus hash store context).1.rows
        penalties := by
  obtain ⟨longest, read⟩ := @Shows.readScopes _ _ _ _ _ _ _ none shows'.maybePrune collisionFree
    allKnown fun key member => congrArg AuthRouteRateLimitConfig.windowMs (keys_config member)
  rw [readAuthRouteRateLimitStatus, rateLimitScopes_eq]
  dsimp only
  rw [longest]
  exact ⟨rfl, read⟩

theorem keyOf_subject_mem (hasSubject : context.hasSubject = true) :
    context.keyOf .subject ∈ context.keys := by
  rw [AuthRouteRateLimitContext.keys, if_pos hasSubject]
  exact List.mem_cons_of_mem _ List.mem_cons_self

theorem Shows.step {event : AuthRouteEvent}
    (shows' : Shows hash known event.nowMs store.rows penalties)
    (collisionFree : CollisionFree hash known) (allKnown : ∀ key ∈ event.keys, known key) :
    ((authRouteLimiter hash).step store event).2 = (Penalties.machine.step penalties event).2 ∧
      Shows hash known event.nowMs ((authRouteLimiter hash).step store event).1.rows
        (penalties.step event) := by
  cases event with
  | attempt context =>
    have unchanged : penalties.step (.attempt context) = penalties := rfl
    simp only [Penalties.machine, unchanged]
    exact shows'.readStatus collisionFree allKnown
  | failure context =>
    have noted := shows'.noteFailures collisionFree allKnown
      (fun key member => keys_config member) (keys_nodup context)
    have stepped : penalties.step (.failure context) = fun key =>
        if key ∈ context.keys then key.afterFailure context.nowMs (penalties key)
        else penalties key := by
      funext key
      simp [Penalties.step, AuthRouteEvent.fails, AuthRouteEvent.clears, AuthRouteEvent.nowMs]
    have status := @Shows.readStatus _ _ _ { store with rows := _ } _ noted collisionFree
      allKnown
    simp only [authRouteLimiter, noteAuthRouteFailure, Penalties.machine, stepped,
      rateLimitScopes_eq]
    exact status
  | success context =>
    refine ⟨rfl, ?_⟩
    simp only [authRouteLimiter, noteAuthRouteSuccess]
    have pruned := shows'.maybePrune
    split
    · rename_i hasSubject
      have isKnown := allKnown _ (keyOf_subject_mem hasSubject)
      obtain ⟨-, normalized⟩ := pruned.normalize collisionFree isKnown
      have stepped : penalties.step (.success context) =
          Function.update penalties (context.keyOf .subject) .clear := by
        funext key
        by_cases isKey : key = context.keyOf .subject
        · subst isKey
          simp [Penalties.step, AuthRouteEvent.fails, AuthRouteEvent.clears, hasSubject]
        · simp [Penalties.step, AuthRouteEvent.fails, AuthRouteEvent.clears, isKey]
      rw [stepped]
      exact normalized.write collisionFree isKnown normalized.stamped.delete
        fun other => AuthRouteRows.stateOf_delete
    · rename_i noSubject
      have stepped : penalties.step (.success context) = penalties := by
        funext key
        simp [Penalties.step, AuthRouteEvent.fails, AuthRouteEvent.clears, noSubject]
      rw [stepped]
      exact pruned
  | prune nowMs => exact ⟨rfl, shows'.prune⟩

end Metidos.RateLimit
