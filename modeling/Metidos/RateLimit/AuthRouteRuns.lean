import Metidos.RateLimit.AuthRoutePenalties

/-!
The limit on failed authentications over every sequence of calls at times that do not go back: when
a lock begins, how long it lasts, and that keys and prunings do not change the decisions.
-/

namespace Metidos.RateLimit

open SlidingWindow Machine

def Touches (events : List AuthRouteEvent) (key : AuthRouteKey) : Prop :=
  ∃ event ∈ events, key ∈ event.keys

structure AuthRouteValid (hash : Text → Text) (events : List AuthRouteEvent) : Prop where
  chronological : events.Pairwise fun earlier later => earlier.nowMs ≤ later.nowMs
  collisionFree : CollisionFree hash (Touches events)

variable {hash : Text → Text} {events before after : List AuthRouteEvent} {event : AuthRouteEvent}
  {key : AuthRouteKey} {nowMs : Int}

theorem AuthRouteValid.sublist {others : List AuthRouteEvent} (valid : AuthRouteValid hash events)
    (within : others.Sublist events) : AuthRouteValid hash others where
  chronological := valid.chronological.sublist within
  collisionFree := by
    rintro key other ⟨event, isEvent, isKey⟩ ⟨otherEvent, isOther, isOtherKey⟩
    exact valid.collisionFree key other ⟨event, within.subset isEvent, isKey⟩
      ⟨otherEvent, within.subset isOther, isOtherKey⟩

theorem AuthRouteValid.shorter (events : List AuthRouteEvent) (event : AuthRouteEvent)
    (valid : AuthRouteValid hash (events ++ [event])) : AuthRouteValid hash events :=
  valid.sublist (List.sublist_append_left events [event])

def NotBefore (events : List AuthRouteEvent) (nowMs : Int) : Prop :=
  ∀ event ∈ events, event.nowMs ≤ nowMs

theorem AuthRouteValid.notBefore (valid : AuthRouteValid hash (events ++ [event])) :
    NotBefore events event.nowMs := fun earlier member =>
  (List.pairwise_append.mp valid.chronological).2.2 earlier member event
    (List.mem_singleton_self event)

theorem NotBefore.left (notBefore : NotBefore (before ++ after) nowMs) : NotBefore before nowMs :=
  fun event member => notBefore event (List.mem_append_left _ member)

def AuthRouteStore.lockedUntil (hash : Text → Text) (store : AuthRouteStore) (nowMs : Int)
    (key : AuthRouteKey) : Option Int :=
  (key.seen nowMs (store.rows.stateOf (key.bucketKey hash))).lockedUntilMs

def AuthRouteStore.Refused (hash : Text → Text) (store : AuthRouteStore) (nowMs : Int)
    (key : AuthRouteKey) : Prop :=
  (store.lockedUntil hash nowMs key).isSome = true

instance (store : AuthRouteStore) : Decidable (store.Refused hash nowMs key) :=
  inferInstanceAs (Decidable (_ = _))

def penaltiesAfter (events : List AuthRouteEvent) : Penalties := (Penalties.machine.run events).state

theorem penaltiesAfter_append_one (events : List AuthRouteEvent) (event : AuthRouteEvent) :
    penaltiesAfter (events ++ [event]) = (penaltiesAfter events).step event :=
  state_append_one _ events event

theorem authRoute_simulates {known : AuthRouteKey → Prop}
    (collisionFree : CollisionFree hash known) (valid : AuthRouteValid hash events)
    (allKnown : ∀ key, Touches events key → known key) :
    ((authRouteLimiter hash).run events).answers = (Penalties.machine.run events).answers ∧
      ∀ nowMs, NotBefore events nowMs →
        Shows hash known nowMs ((authRouteLimiter hash).run events).state.rows
          (penaltiesAfter events) := by
  refine @run_simulates _ _ _ _ (authRouteLimiter hash) Penalties.machine
    (fun events => AuthRouteValid hash events ∧ ∀ key, Touches events key → known key)
    ?_ (fun events store penalties => ∀ nowMs, NotBefore events nowMs →
      Shows hash known nowMs store.rows penalties) ?_ ?_ _ ⟨valid, allKnown⟩
  · rintro events event ⟨valid, allKnown⟩
    refine ⟨AuthRouteValid.shorter events event valid, fun key touched => allKnown key ?_⟩
    obtain ⟨earlier, isEvent, isKey⟩ := touched
    exact ⟨earlier, List.mem_append_left _ isEvent, isKey⟩
  · intro nowMs _
    refine ⟨fun key row present => ?_, fun key _ => rfl⟩
    simp [authRouteLimiter] at present
  · rintro events event store penalties ⟨valid, allKnown⟩ - shows'
    have stepped := (shows' event.nowMs valid.notBefore).step collisionFree
      fun key isKey => allKnown key ⟨event, by simp, isKey⟩
    refine ⟨stepped.1, fun nowMs notBefore => ?_⟩
    exact stepped.2.mono (notBefore event (by simp))

theorem authRoute_shows (valid : AuthRouteValid hash events) (notBefore : NotBefore events nowMs) :
    Shows hash (Touches events) nowMs ((authRouteLimiter hash).run events).state.rows
      (penaltiesAfter events) :=
  (authRoute_simulates valid.collisionFree valid fun _ => id).2 nowMs notBefore

theorem lockedUntil_eq (valid : AuthRouteValid hash (before ++ after))
    (notBefore : NotBefore before nowMs) (touched : Touches (before ++ after) key) :
    ((authRouteLimiter hash).run before).state.lockedUntil hash nowMs key =
      (penaltiesAfter before).lockedUntil nowMs key := by
  have shorter := valid.sublist (List.sublist_append_left before after)
  have shows' := (authRoute_simulates valid.collisionFree shorter
    fun key ⟨event, isEvent, isKey⟩ => ⟨event, List.mem_append_left _ isEvent, isKey⟩).2
      nowMs notBefore
  exact congrArg AuthRouteBucketState.lockedUntilMs (shows'.same key touched)

theorem lockedUntil_eq_some {penalties : Penalties} {lockedUntilMs : Int} :
    penalties.lockedUntil nowMs key = some lockedUntilMs ↔
      (penalties key).lockedUntilMs = some lockedUntilMs ∧ nowMs < lockedUntilMs := by
  rw [Penalties.lockedUntil]
  simp [AuthRouteKey.seen, AuthRouteBucketState.normalized, Option.filter_eq_some_iff]

theorem lockedUntil_of_none {penalties : Penalties}
    (unlocked : (penalties key).lockedUntilMs = none) :
    penalties.lockedUntil nowMs key = none := by
  cases found : penalties.lockedUntil nowMs key with
  | none => rfl
  | some lockedUntilMs =>
    rw [(lockedUntil_eq_some.mp found).1] at unlocked
    exact absurd unlocked (by simp)

theorem step_other {penalties : Penalties} (noFailure : event.fails key = false)
    (noClear : event.clears key = false) : penalties.step event key = penalties key := by
  simp [Penalties.step, noFailure, noClear]

theorem step_clears {penalties : Penalties} (clears : event.clears key = true) :
    penalties.step event key = .clear := by
  have noFailure : event.fails key = false := by
    cases event <;> simp_all [AuthRouteEvent.fails, AuthRouteEvent.clears]
  simp [Penalties.step, noFailure, clears]

theorem step_fails {penalties : Penalties} (fails : event.fails key = true) :
    penalties.step event key = key.afterFailure event.nowMs (penalties key) := by
  simp [Penalties.step, fails]

theorem afterFailure_locked {state : AuthRouteBucketState} {lockedUntilMs : Int}
    (locked : (key.seen nowMs state).lockedUntilMs = some lockedUntilMs) :
    key.afterFailure nowMs state = state := by
  rw [AuthRouteKey.afterFailure, locked]
  rfl

theorem afterFailure_full {state : AuthRouteBucketState}
    (unlocked : (key.seen nowMs state).lockedUntilMs = none)
    (full : key.maxFailures ≤ ((key.seen nowMs state).failuresMs ++ [nowMs]).length) :
    key.afterFailure nowMs state =
      { failuresMs := [], lockedUntilMs := some (nowMs + key.config.lockoutMs) } := by
  simp only [AuthRouteKey.afterFailure, unlocked, if_pos full]
  rfl

theorem afterFailure_room {state : AuthRouteBucketState}
    (unlocked : (key.seen nowMs state).lockedUntilMs = none)
    (room : ((key.seen nowMs state).failuresMs ++ [nowMs]).length < key.maxFailures) :
    key.afterFailure nowMs state =
      { failuresMs := (key.seen nowMs state).failuresMs ++ [nowMs], lockedUntilMs := none } := by
  simp only [AuthRouteKey.afterFailure, unlocked, if_neg (Nat.not_le_of_lt room)]
  rfl

/-- The failures of a key that were noted while it was not refused, since its last success: after
one more call. -/
def countFailure (hash : Text → Text) (key : AuthRouteKey) (counted : AuthRouteStore × List Int)
    (event : AuthRouteEvent) : AuthRouteStore × List Int :=
  (((authRouteLimiter hash).step counted.1 event).1,
    if event.clears key then []
    else if event.fails key = true ∧ ¬ counted.1.Refused hash event.nowMs key then
      counted.2 ++ [event.nowMs]
    else counted.2)

def countedFailures (hash : Text → Text) (key : AuthRouteKey) (events : List AuthRouteEvent) :
    List Int :=
  (events.foldl (countFailure hash key) ((authRouteLimiter hash).start, [])).2

theorem countFailure_store (events : List AuthRouteEvent) :
    (events.foldl (countFailure hash key) ((authRouteLimiter hash).start, [])).1 =
      ((authRouteLimiter hash).run events).state := by
  induction events using List.reverseRecOn with
  | nil => rfl
  | append_singleton events event ih =>
    rw [List.foldl_append, state_append_one, ← ih]
    rfl

theorem countedFailures_append_one (events : List AuthRouteEvent) (event : AuthRouteEvent) :
    countedFailures hash key (events ++ [event]) =
      if event.clears key then []
      else if event.fails key = true ∧
          ¬ ((authRouteLimiter hash).run events).state.Refused hash event.nowMs key then
        countedFailures hash key events ++ [event.nowMs]
      else countedFailures hash key events := by
  rw [countedFailures, List.foldl_append, ← @countFailure_store _ key]
  rfl

/-- The bucket of a key has the failures that count, while no lock is on: a lock drops them, but
lasts until they are out of the window. -/
structure Tallied (hash : Text → Text) (key : AuthRouteKey) (events : List AuthRouteEvent) :
    Prop where
  notLater : ∀ nowMs, NotBefore events nowMs →
    ∀ failedAtMs ∈ countedFailures hash key events, failedAtMs ≤ nowMs
  same : ∀ nowMs, NotBefore events nowMs → (penaltiesAfter events).lockedUntil nowMs key = none →
    recent key.config.windowMs nowMs (countedFailures hash key events) =
      (key.seen nowMs (penaltiesAfter events key)).failuresMs

theorem refused_iff {penalties : Penalties} {store : AuthRouteStore}
    (same : store.lockedUntil hash nowMs key = penalties.lockedUntil nowMs key) :
    ¬ store.Refused hash nowMs key ↔ penalties.lockedUntil nowMs key = none := by
  rw [AuthRouteStore.Refused, same, Bool.not_eq_true, Option.isSome_eq_false_iff,
    Option.isNone_iff_eq_none]

theorem Tallied.step (tallied : Tallied hash key events)
    (sameLock : ((authRouteLimiter hash).run events).state.lockedUntil hash event.nowMs key =
      (penaltiesAfter events).lockedUntil event.nowMs key)
    (passed : NotBefore events event.nowMs) : Tallied hash key (events ++ [event]) := by
  have counted := @countedFailures_append_one hash key events event
  by_cases clears : event.clears key = true
  · rw [if_pos clears] at counted
    refine ⟨by simp [counted], fun nowMs _ _ => ?_⟩
    rw [counted, penaltiesAfter_append_one, step_clears clears]
    rfl
  · rw [if_neg clears] at counted
    simp only [refused_iff sameLock] at counted
    rw [Bool.not_eq_true] at clears
    by_cases counts : event.fails key = true ∧
        (penaltiesAfter events).lockedUntil event.nowMs key = none
    · obtain ⟨fails, unlocked⟩ := counts
      rw [if_pos ⟨fails, unlocked⟩] at counted
      have before := tallied.notLater event.nowMs passed
      have same := tallied.same event.nowMs passed unlocked
      have notLater : ∀ failedAtMs ∈ countedFailures hash key (events ++ [event]),
          failedAtMs ≤ event.nowMs := by
        rw [counted]
        intro failedAtMs member
        rcases List.mem_append.mp member with earlier | isNow
        · exact before failedAtMs earlier
        · exact (List.mem_singleton.mp isNow).le
      refine ⟨fun nowMs notBefore failedAtMs member =>
        (notLater failedAtMs member).trans (notBefore event (by simp)),
        fun nowMs notBefore free => ?_⟩
      have later : event.nowMs ≤ nowMs := notBefore event (by simp)
      rw [penaltiesAfter_append_one] at free ⊢
      rw [step_fails fails]
      by_cases full : key.maxFailures ≤
          ((key.seen event.nowMs (penaltiesAfter events key)).failuresMs ++ [event.nowMs]).length
      · have locked := afterFailure_full unlocked full
        have past : ¬ nowMs < event.nowMs + key.config.lockoutMs := by
          intro within
          have found : ((penaltiesAfter events).step event).lockedUntil nowMs key =
              some (event.nowMs + key.config.lockoutMs) := by
            rw [lockedUntil_eq_some, step_fails fails, locked]
            exact ⟨rfl, within⟩
          rw [found] at free
          exact absurd free (by simp)
        have longer := window_le_lockout key.pathname
        rw [locked]
        refine List.filter_eq_nil_iff.mpr fun failedAtMs member => ?_
        have bound := notLater failedAtMs member
        rw [decide_eq_true_iff]
        simp only [AuthRouteKey.config] at past ⊢
        omega
      · rw [afterFailure_room unlocked (Nat.lt_of_not_le full), counted, recent_append,
          ← recent_recent later, same]
        exact (recent_append _ _).symm
    · rw [if_neg counts] at counted
      have unchanged : (penaltiesAfter events).step event key = penaltiesAfter events key := by
        by_cases fails : event.fails key = true
        · rw [step_fails fails]
          cases locked : (penaltiesAfter events).lockedUntil event.nowMs key with
          | none => exact absurd ⟨fails, locked⟩ counts
          | some lockedUntilMs => exact afterFailure_locked locked
        · exact step_other (by simpa using fails) clears
      refine ⟨fun nowMs notBefore => ?_, fun nowMs notBefore free => ?_⟩
      · rw [counted]
        exact tallied.notLater nowMs notBefore.left
      · rw [penaltiesAfter_append_one, Penalties.lockedUntil, unchanged] at free
        rw [counted, penaltiesAfter_append_one, unchanged]
        exact tallied.same nowMs notBefore.left free

theorem tallied (valid : AuthRouteValid hash (before ++ after))
    (touched : Touches (before ++ after) key) : Tallied hash key before := by
  induction before using List.reverseRecOn generalizing after with
  | nil => exact ⟨by simp [countedFailures], fun _ _ _ => rfl⟩
  | append_singleton before event ih =>
    rw [List.append_assoc] at valid touched
    have earlier := valid.sublist (List.Sublist.append_left
      (List.sublist_append_left [event] after) before)
    exact (ih valid touched).step (lockedUntil_eq valid earlier.notBefore touched)
      earlier.notBefore

structure StartsLock (hash : Text → Text) (key : AuthRouteKey) (before : List AuthRouteEvent)
    (event : AuthRouteEvent) : Prop where
  fails : event.fails key = true
  admitted : ¬ ((authRouteLimiter hash).run before).state.Refused hash event.nowMs key
  accumulated : key.maxFailures ≤
    (recent key.config.windowMs event.nowMs (countedFailures hash key (before ++ [event]))).length

theorem not_clears_of_fails (fails : event.fails key = true) : event.clears key = false := by
  cases event <;> simp_all [AuthRouteEvent.fails, AuthRouteEvent.clears]

theorem fails_mem (fails : event.fails key = true) : key ∈ event.keys := by
  cases event with
  | failure context => exact of_decide_eq_true fails
  | attempt | success | prune => exact absurd fails (by simp [AuthRouteEvent.fails])

theorem counted_eq (valid : AuthRouteValid hash (before ++ event :: after))
    (touched : Touches (before ++ event :: after) key) (fails : event.fails key = true)
    (admitted : ¬ ((authRouteLimiter hash).run before).state.Refused hash event.nowMs key) :
    (penaltiesAfter before).lockedUntil event.nowMs key = none ∧
      recent key.config.windowMs event.nowMs (countedFailures hash key (before ++ [event])) =
        (key.seen event.nowMs (penaltiesAfter before key)).failuresMs ++ [event.nowMs] := by
  have earlier : AuthRouteValid hash (before ++ [event]) :=
    valid.sublist (List.Sublist.append_left (by simp) before)
  have unlocked := (refused_iff (lockedUntil_eq valid earlier.notBefore touched)).mp admitted
  have same := (tallied valid touched).same event.nowMs earlier.notBefore unlocked
  refine ⟨unlocked, ?_⟩
  rw [countedFailures_append_one, not_clears_of_fails fails, if_neg (by simp),
    if_pos ⟨fails, admitted⟩, recent_append, same,
    recent_self (show 0 < key.config.windowMs from window_pos key.pathname)]

theorem StartsLock.locked (starts : StartsLock hash key before event)
    (valid : AuthRouteValid hash (before ++ event :: after)) :
    penaltiesAfter (before ++ [event]) key =
      { failuresMs := [], lockedUntilMs := some (event.nowMs + key.config.lockoutMs) } := by
  have touched : Touches (before ++ event :: after) key :=
    ⟨event, by simp, fails_mem starts.fails⟩
  obtain ⟨unlocked, counted⟩ := counted_eq valid touched starts.fails starts.admitted
  have full := starts.accumulated
  rw [counted] at full
  rw [penaltiesAfter_append_one, step_fails starts.fails]
  exact afterFailure_full unlocked full

theorem locked_stays {lockedUntilMs : Int}
    (locked : penaltiesAfter before key = { failuresMs := [], lockedUntilMs := some lockedUntilMs })
    (during : ∀ event ∈ after, event.clears key = false ∧ event.nowMs < lockedUntilMs) :
    penaltiesAfter (before ++ after) key =
      { failuresMs := [], lockedUntilMs := some lockedUntilMs } := by
  induction after using List.reverseRecOn with
  | nil => rwa [List.append_nil]
  | append_singleton after event ih =>
    have state := ih fun earlier member => during earlier (List.mem_append_left _ member)
    obtain ⟨noClear, within⟩ := during event (by simp)
    rw [← List.append_assoc, penaltiesAfter_append_one]
    by_cases fails : event.fails key = true
    · have found := lockedUntil_eq_some.mpr ⟨congrArg AuthRouteBucketState.lockedUntilMs state,
        within⟩
      rw [step_fails fails, afterFailure_locked found, state]
    · rw [step_other (by simpa using fails) noClear, state]

theorem lock_exact (starts : StartsLock hash key before event)
    (valid : AuthRouteValid hash (before ++ event :: after))
    (during : ∀ later ∈ after, later.clears key = false ∧
      later.nowMs < event.nowMs + key.config.lockoutMs)
    (notBefore : NotBefore (before ++ event :: after) nowMs) :
    ((authRouteLimiter hash).run (before ++ event :: after)).state.Refused hash nowMs key ↔
      nowMs < event.nowMs + key.config.lockoutMs := by
  have state := locked_stays (starts.locked valid) during
  rw [List.append_assoc] at state
  have touched : Touches (before ++ event :: after ++ []) key :=
    ⟨event, by simp, fails_mem starts.fails⟩
  have whole : AuthRouteValid hash (before ++ event :: after ++ []) := by rwa [List.append_nil]
  rw [AuthRouteStore.Refused, lockedUntil_eq whole notBefore touched, Option.isSome_iff_exists]
  constructor
  · rintro ⟨lockedUntilMs, found⟩
    obtain ⟨isLock, within⟩ := lockedUntil_eq_some.mp found
    rw [List.singleton_append] at state
    rw [state] at isLock
    rwa [← Option.some.inj isLock] at within
  · intro within
    exact ⟨_, lockedUntil_eq_some.mpr ⟨congrArg AuthRouteBucketState.lockedUntilMs state, within⟩⟩

theorem lock_origin (valid : AuthRouteValid hash (before ++ after))
    (touched : Touches (before ++ after) key) {lockedUntilMs : Int}
    (locked : (penaltiesAfter before key).lockedUntilMs = some lockedUntilMs) :
    ∃ earlier event later, before = earlier ++ event :: later ∧
      StartsLock hash key earlier event ∧ (∀ other ∈ later, other.clears key = false) ∧
        lockedUntilMs = event.nowMs + key.config.lockoutMs := by
  induction before using List.reverseRecOn generalizing after with
  | nil => exact absurd locked (by simp [penaltiesAfter, run_nil, Penalties.machine,
      AuthRouteBucketState.clear])
  | append_singleton before event ih =>
    rw [List.append_assoc, List.singleton_append] at valid touched
    rw [penaltiesAfter_append_one] at locked
    by_cases clears : event.clears key = true
    · rw [step_clears clears] at locked
      exact absurd locked (by simp [AuthRouteBucketState.clear])
    · rw [Bool.not_eq_true] at clears
      have older (unchanged : (penaltiesAfter before).step event key =
          penaltiesAfter before key) : ∃ earlier first later, before ++ [event] =
            earlier ++ first :: later ∧ StartsLock hash key earlier first ∧
              (∀ other ∈ later, other.clears key = false) ∧
                lockedUntilMs = first.nowMs + key.config.lockoutMs := by
        rw [unchanged] at locked
        obtain ⟨earlier, first, later, rfl, starts, noClear, isEnd⟩ := ih valid touched locked
        refine ⟨earlier, first, later ++ [event], by simp, starts, ?_, isEnd⟩
        intro other member
        rcases List.mem_append.mp member with before | isEvent
        · exact noClear other before
        · rwa [List.mem_singleton.mp isEvent]
      by_cases fails : event.fails key = true
      · by_cases refused :
            ((authRouteLimiter hash).run before).state.Refused hash event.nowMs key
        · refine older ?_
          have earlier : AuthRouteValid hash (before ++ [event]) :=
            valid.sublist (List.Sublist.append_left (by simp) before)
          rw [AuthRouteStore.Refused, lockedUntil_eq valid earlier.notBefore touched,
            Option.isSome_iff_exists] at refused
          obtain ⟨lock, found⟩ := refused
          rw [step_fails fails, afterFailure_locked found]
        · obtain ⟨unlocked, counted⟩ := counted_eq valid touched fails refused
          rw [step_fails fails] at locked
          by_cases full : key.maxFailures ≤ ((key.seen event.nowMs
              (penaltiesAfter before key)).failuresMs ++ [event.nowMs]).length
          · rw [afterFailure_full unlocked full] at locked
            refine ⟨before, event, [], rfl, ⟨fails, refused, ?_⟩, by simp,
              (Option.some.inj locked).symm⟩
            rwa [counted]
          · rw [afterFailure_room unlocked (Nat.lt_of_not_le full)] at locked
            exact absurd locked (by simp)
      · exact older (step_other (by simpa using fails) clears)

theorem refused_origin (valid : AuthRouteValid hash events) (touched : Touches events key)
    (notBefore : NotBefore events nowMs)
    (refused : ((authRouteLimiter hash).run events).state.Refused hash nowMs key) :
    ∃ before event after, events = before ++ event :: after ∧ StartsLock hash key before event ∧
      (∀ other ∈ after, other.clears key = false) ∧
        nowMs < event.nowMs + key.config.lockoutMs := by
  have whole : AuthRouteValid hash (events ++ []) := by rwa [List.append_nil]
  have wholeTouched : Touches (events ++ []) key := by rwa [List.append_nil]
  rw [AuthRouteStore.Refused, lockedUntil_eq whole notBefore wholeTouched,
    Option.isSome_iff_exists] at refused
  obtain ⟨lockedUntilMs, found⟩ := refused
  obtain ⟨isLock, within⟩ := lockedUntil_eq_some.mp found
  obtain ⟨before, event, after, split, starts, noClear, rfl⟩ :=
    lock_origin whole wholeTouched isLock
  exact ⟨before, event, after, split, starts, noClear, within⟩

theorem cleared_not_refused (valid : AuthRouteValid hash (before ++ [event]))
    (clears : event.clears key = true) (isKey : key ∈ event.keys)
    (notBefore : NotBefore (before ++ [event]) nowMs) :
    ¬ ((authRouteLimiter hash).run (before ++ [event])).state.Refused hash nowMs key := by
  have whole : AuthRouteValid hash (before ++ [event] ++ []) := by rwa [List.append_nil]
  have touched : Touches (before ++ [event] ++ []) key := ⟨event, by simp, isKey⟩
  rw [refused_iff (lockedUntil_eq whole notBefore touched)]
  refine lockedUntil_of_none ?_
  rw [penaltiesAfter_append_one, step_clears clears]
  rfl

theorem clears_mem (clears : event.clears key = true) : key ∈ event.keys := by
  cases event with
  | success context =>
    simp only [AuthRouteEvent.clears, Bool.and_eq_true, decide_eq_true_eq] at clears
    rw [clears.2]
    exact keyOf_subject_mem clears.1
  | attempt | failure | prune => exact absurd clears (by simp [AuthRouteEvent.clears])

def callsOf (key : AuthRouteKey) (events : List AuthRouteEvent) : List AuthRouteEvent :=
  events.filter fun event => key ∈ event.keys

theorem penaltiesAfter_callsOf (events : List AuthRouteEvent) (key : AuthRouteKey) :
    penaltiesAfter (callsOf key events) key = penaltiesAfter events key := by
  induction events using List.reverseRecOn with
  | nil => rfl
  | append_singleton events event ih =>
    rw [callsOf, List.filter_append, ← callsOf, penaltiesAfter_append_one]
    by_cases isKey : key ∈ event.keys
    · rw [List.filter_cons_of_pos (by simpa using isKey), List.filter_nil,
        penaltiesAfter_append_one]
      simp only [Penalties.step, ih]
    · have noFailure : event.fails key = false := by
        simpa using mt fails_mem isKey
      have noClear : event.clears key = false := by
        simpa using mt clears_mem isKey
      rw [List.filter_cons_of_neg (by simpa using isKey), List.filter_nil, List.append_nil, ih,
        step_other noFailure noClear]

theorem lockedUntil_callsOf (valid : AuthRouteValid hash events) (touched : Touches events key)
    (notBefore : NotBefore events nowMs) :
    ((authRouteLimiter hash).run events).state.lockedUntil hash nowMs key =
      ((authRouteLimiter hash).run (callsOf key events)).state.lockedUntil hash nowMs key := by
  have whole : AuthRouteValid hash (events ++ []) := by rwa [List.append_nil]
  have wholeTouched : Touches (events ++ []) key := by rwa [List.append_nil]
  have fewer : AuthRouteValid hash (callsOf key events ++ []) := by
    rw [List.append_nil]
    exact valid.sublist List.filter_sublist
  have fewerTouched : Touches (callsOf key events ++ []) key := by
    obtain ⟨event, isEvent, isKey⟩ := touched
    refine ⟨event, ?_, isKey⟩
    rw [List.append_nil]
    exact List.mem_filter.mpr ⟨isEvent, by simpa using isKey⟩
  have fewerNotBefore : NotBefore (callsOf key events) nowMs :=
    fun event member => notBefore event (List.mem_filter.mp member).1
  rw [lockedUntil_eq whole notBefore wholeTouched,
    lockedUntil_eq fewer fewerNotBefore fewerTouched, Penalties.lockedUntil,
    Penalties.lockedUntil, penaltiesAfter_callsOf]

def AuthRouteEvent.isPrune : AuthRouteEvent → Bool
  | .prune _ => true
  | _ => false

def withoutPrunes (events : List AuthRouteEvent) : List AuthRouteEvent :=
  events.filter fun event => !event.isPrune

theorem penalties_withoutPrunes (events : List AuthRouteEvent) :
    (Penalties.machine.run events).answers.filter (fun answer => !answer.1.isPrune) =
        (Penalties.machine.run (withoutPrunes events)).answers ∧
      penaltiesAfter events = penaltiesAfter (withoutPrunes events) := by
  induction events using List.reverseRecOn with
  | nil => exact ⟨rfl, rfl⟩
  | append_singleton events event ih =>
    obtain ⟨answers, state⟩ := ih
    rw [withoutPrunes, List.filter_append, ← withoutPrunes, answers_append_one,
      penaltiesAfter_append_one, List.filter_append, answers, reply]
    by_cases isPrune : event.isPrune = true
    · have unchanged : (penaltiesAfter events).step event = penaltiesAfter events := by
        cases event with
        | prune nowMs => rfl
        | attempt | failure | success => exact absurd isPrune (by simp [AuthRouteEvent.isPrune])
      rw [List.filter_cons_of_neg (by simpa using isPrune), List.filter_cons_of_neg
        (by simpa using isPrune), List.filter_nil, List.filter_nil, List.append_nil,
        List.append_nil, unchanged]
      exact ⟨rfl, state⟩
    · rw [List.filter_cons_of_pos (by simpa using isPrune), List.filter_cons_of_pos
        (by simpa using isPrune), List.filter_nil, List.filter_nil, answers_append_one,
        penaltiesAfter_append_one, reply, ← penaltiesAfter, ← penaltiesAfter, state]
      exact ⟨rfl, rfl⟩

theorem answers_withoutPrunes (valid : AuthRouteValid hash events) :
    ((authRouteLimiter hash).run events).answers.filter (fun answer => !answer.1.isPrune) =
      ((authRouteLimiter hash).run (withoutPrunes events)).answers := by
  have fewer : AuthRouteValid hash (withoutPrunes events) := valid.sublist List.filter_sublist
  rw [(authRoute_simulates valid.collisionFree valid fun _ => id).1,
    (authRoute_simulates fewer.collisionFree fewer fun _ => id).1]
  exact (penalties_withoutPrunes events).1

theorem isSome_laterLock (longest locked : Option Int) :
    (laterLock longest locked).isSome = true ↔ longest.isSome = true ∨ locked.isSome = true := by
  cases longest with
  | none => cases locked <;> simp [laterLock]
  | some first =>
    cases locked with
    | none => simp [laterLock]
    | some second =>
      simp only [laterLock]
      split <;> simp

theorem isSome_foldl_laterLock (locks : List (Option Int)) (longest : Option Int) :
    (locks.foldl laterLock longest).isSome = true ↔
      longest.isSome = true ∨ ∃ lock ∈ locks, lock.isSome = true := by
  induction locks generalizing longest with
  | nil => simp
  | cons lock locks ih =>
    rw [List.foldl_cons, ih, isSome_laterLock, List.exists_mem_cons_iff, or_assoc]

theorem attempt_refused_iff {context : AuthRouteRateLimitContext}
    (valid : AuthRouteValid hash (events ++ [.attempt context])) :
    ((authRouteLimiter hash).reply events (.attempt context)).isSome = true ↔
      ∃ key ∈ context.keys,
        ((authRouteLimiter hash).run events).state.Refused hash context.nowMs key := by
  have earlier : NotBefore events context.nowMs := valid.notBefore
  have shows' := (authRoute_simulates valid.collisionFree (AuthRouteValid.shorter _ _ valid)
    fun key ⟨event, isEvent, isKey⟩ => ⟨event, List.mem_append_left _ isEvent, isKey⟩).2
      context.nowMs earlier
  have answer := (shows'.readStatus valid.collisionFree fun key isKey =>
    ⟨.attempt context, by simp, isKey⟩).1
  have replied : (authRouteLimiter hash).reply events (.attempt context) =
      (penaltiesAfter events).retryAfterSeconds context := answer
  rw [replied, Penalties.retryAfterSeconds, Option.isSome_map, isSome_foldl_laterLock]
  simp only [Option.isSome_none, Bool.false_eq_true, false_or, List.mem_map,
    exists_exists_and_eq_and]
  constructor
  · rintro ⟨key, isKey, locked⟩
    refine ⟨key, isKey, ?_⟩
    rwa [AuthRouteStore.Refused, lockedUntil_eq valid earlier ⟨.attempt context, by simp, isKey⟩]
  · rintro ⟨key, isKey, refused⟩
    refine ⟨key, isKey, ?_⟩
    rwa [AuthRouteStore.Refused,
      lockedUntil_eq valid earlier ⟨.attempt context, by simp, isKey⟩] at refused

structure AuthRouteLimitCorrect (hash : Text → Text) (events : List AuthRouteEvent) : Prop where
  attempts : ∀ before context answer after,
    ((authRouteLimiter hash).run events).answers = before ++ (.attempt context, answer) :: after →
      (answer.isSome = true ↔ ∃ key ∈ context.keys,
        ((authRouteLimiter hash).run (before.map Prod.fst)).state.Refused hash context.nowMs key)
  locked : ∀ key before event after, events = before ++ event :: after →
    StartsLock hash key before event → (∀ later ∈ after, later.clears key = false ∧
      later.nowMs < event.nowMs + key.config.lockoutMs) → ∀ nowMs, NotBefore events nowMs →
        (((authRouteLimiter hash).run events).state.Refused hash nowMs key ↔
          nowMs < event.nowMs + key.config.lockoutMs)
  onlyLocked : ∀ key nowMs, Touches events key → NotBefore events nowMs →
    ((authRouteLimiter hash).run events).state.Refused hash nowMs key →
      ∃ before event after, events = before ++ event :: after ∧ StartsLock hash key before event ∧
        (∀ other ∈ after, other.clears key = false) ∧
          nowMs < event.nowMs + key.config.lockoutMs
  cleared : ∀ key before event, events = before ++ [event] → event.clears key = true →
    ∀ nowMs, NotBefore events nowMs →
      ¬ ((authRouteLimiter hash).run events).state.Refused hash nowMs key
  independent : ∀ key nowMs, Touches events key → NotBefore events nowMs →
    ((authRouteLimiter hash).run events).state.lockedUntil hash nowMs key =
      ((authRouteLimiter hash).run (callsOf key events)).state.lockedUntil hash nowMs key
  prunesUnseen :
    ((authRouteLimiter hash).run events).answers.filter (fun answer => !answer.1.isPrune) =
      ((authRouteLimiter hash).run (withoutPrunes events)).answers
  pruneKeeps : ∀ (key : AuthRouteKey) nowMs later, NotBefore events nowMs → nowMs ≤ later →
    key.seen later ((((authRouteLimiter hash).run events).state.rows
      |>.pruneExpiredAuthRouteRateLimitBuckets nowMs).stateOf (key.bucketKey hash)) =
        key.seen later (((authRouteLimiter hash).run events).state.rows.stateOf
          (key.bucketKey hash))

theorem auth_route_limit_correct (valid : AuthRouteValid hash events) :
    AuthRouteLimitCorrect hash events where
  attempts := by
    intro before context answer after split
    obtain ⟨-, isReply⟩ := answers_split split
    have whole := map_fst_answers (authRouteLimiter hash) events
    rw [split, List.map_append, List.map_cons] at whole
    have first : AuthRouteValid hash (before.map Prod.fst ++ [.attempt context]) := by
      refine valid.sublist ?_
      rw [← whole]
      exact List.Sublist.append_left (by simp) _
    rw [← attempt_refused_iff first, ← isReply]
  locked := by
    rintro key before event after rfl starts during nowMs notBefore
    exact lock_exact starts valid during notBefore
  onlyLocked := fun key nowMs touched notBefore => refused_origin valid touched notBefore
  cleared := by
    rintro key before event rfl clears nowMs notBefore
    exact cleared_not_refused valid clears (clears_mem clears) notBefore
  independent := fun key nowMs touched notBefore => lockedUntil_callsOf valid touched notBefore
  prunesUnseen := answers_withoutPrunes valid
  pruneKeeps := by
    intro key nowMs later notBefore passed
    exact AuthRouteRows.stateOf_prune (authRoute_shows valid notBefore).stamped
      (window_le_maxAge _) passed

def sixFailures : List AuthRouteEvent :=
  (List.range 6).map fun minute => .failure
    { nowMs := 60000 * minute, pathname := .login, peerKey := ['p'], subjectKey := some ['u'] }

theorem auth_route_limit_correct_sixFailures : AuthRouteLimitCorrect id sixFailures :=
  auth_route_limit_correct { chronological := by decide, collisionFree := fun _ _ _ _ => id }

end Metidos.RateLimit
