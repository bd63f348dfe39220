import Metidos.Auth.SessionCore

/-!
What the session functions change.  Most of them only take away: sessions, tickets and cache
entries.  A touch also moves the last use of one session, in its row and in the touch cache alike.
-/

def OrderedMap.Within {κ ν : Type} [DecidableEq κ] (small large : OrderedMap κ ν) : Prop :=
  ∀ key value, small.get? key = some value → large.get? key = some value

namespace OrderedMap.Within

variable {κ ν : Type} [DecidableEq κ] {small middle large : OrderedMap κ ν}

theorem refl (map : OrderedMap κ ν) : map.Within map := fun _ _ found => found

theorem trans (first : small.Within middle) (second : middle.Within large) :
    small.Within large := fun key value found => second key value (first key value found)

theorem empty (map : OrderedMap κ ν) : (OrderedMap.empty : OrderedMap κ ν).Within map := by
  intro key value found
  exact absurd found (by simp)

theorem delete (map : OrderedMap κ ν) (key : κ) : (map.delete key).Within map := by
  intro other value found
  rw [get?_delete] at found
  split at found
  · exact absurd found (by simp)
  · exact found

theorem filter (keep : κ → ν → Bool) (map : OrderedMap κ ν) : (map.filter keep).Within map := by
  intro key value found
  rw [get?_filter] at found
  exact (Option.filter_eq_some_iff.mp found).1

end OrderedMap.Within

namespace Metidos.Auth

section LruMap

variable {κ ν : Type} [DecidableEq κ]

@[simp] theorem readLruMapValue_fst (cache : OrderedMap κ ν) (key : κ) :
    (readLruMapValue cache key).1 = cache.get? key := by
  rw [readLruMapValue]
  split
  · rename_i absent
    exact absent.symm
  · rename_i value present
    exact present.symm

@[simp] theorem get?_readLruMapValue (cache : OrderedMap κ ν) (key other : κ) :
    (readLruMapValue cache key).2.get? other = cache.get? other := by
  rw [readLruMapValue]
  split
  · rfl
  · rename_i value present
    rw [OrderedMap.get?_set]
    split
    · rename_i same
      rw [same, present]
    · rename_i different
      rw [OrderedMap.get?_delete, if_neg different]

@[simp] theorem get?_writeLruMapValue (cache : OrderedMap κ ν) (key other : κ) (value : ν) :
    (writeLruMapValue cache key value).get? other =
      if other = key then some value else cache.get? other := by
  rw [writeLruMapValue]
  split
  · rw [OrderedMap.get?_set]
    split
    · rfl
    · rename_i different
      rw [OrderedMap.get?_delete, if_neg different]
  · rw [OrderedMap.get?_set]

theorem pruneLruMapToMaxEntries_within (cache : OrderedMap κ ν) (maxEntries : Nat) :
    (pruneLruMapToMaxEntries cache maxEntries).Within cache := by
  intro key value found
  rw [pruneLruMapToMaxEntries] at found
  exact OrderedMap.get?_iterate_deleteOldest _ found

end LruMap

section Touches

variable (caches : SessionCaches)

@[simp] theorem recordResolvedAuthSession_touches (session : AuthSessionRecord) (nowMs : Nat) :
    (caches.recordResolvedAuthSession session nowMs).authSessionLastTouchedAt =
      caches.authSessionLastTouchedAt := rfl

@[simp] theorem readCachedResolvedAuthSession_touches (sessionId : SessionId) (nowMs : Nat) :
    (caches.readCachedResolvedAuthSession sessionId nowMs).2.authSessionLastTouchedAt =
      caches.authSessionLastTouchedAt := by
  rw [SessionCaches.readCachedResolvedAuthSession]
  split
  · rfl
  · split <;> rfl

@[simp] theorem updateCachedResolvedAuthSession_touches (sessionId : SessionId)
    (updater : AuthSessionRecord → AuthSessionRecord) :
    (caches.updateCachedResolvedAuthSession sessionId updater).authSessionLastTouchedAt =
      caches.authSessionLastTouchedAt := by
  rw [SessionCaches.updateCachedResolvedAuthSession]
  split <;> rfl

@[simp] theorem readAuthSessionLastTouchedAt_fst (sessionId : SessionId) :
    (caches.readAuthSessionLastTouchedAt sessionId).1 =
      caches.authSessionLastTouchedAt.get? sessionId := by
  simp [SessionCaches.readAuthSessionLastTouchedAt]

theorem readAuthSessionLastTouchedAt_within (sessionId : SessionId) :
    ((caches.readAuthSessionLastTouchedAt sessionId).2.authSessionLastTouchedAt).Within
      caches.authSessionLastTouchedAt := by
  intro other touchedAt found
  simpa [SessionCaches.readAuthSessionLastTouchedAt] using found

theorem pruneAuthSessionTouchCache_within (nowMs : Nat) :
    ((caches.pruneAuthSessionTouchCache nowMs).authSessionLastTouchedAt).Within
      caches.authSessionLastTouchedAt :=
  (pruneLruMapToMaxEntries_within _ _).trans (OrderedMap.Within.filter _ _)

theorem forgetSession_within (sessionId : SessionId) :
    ((caches.forgetSession sessionId).authSessionLastTouchedAt).Within
      caches.authSessionLastTouchedAt :=
  OrderedMap.Within.delete _ _

end Touches

structure Fewer (after before : SessionStore) : Prop where
  touches : after.caches.authSessionLastTouchedAt.Within before.caches.authSessionLastTouchedAt
  sessions : ∀ sessionId row, after.database.authSessions.get? sessionId = some row →
    ∃ earlier, before.database.authSessions.get? sessionId = some earlier ∧
      row.lastUsedAt = earlier.lastUsedAt ∧ row.expiresAt = earlier.expiresAt

structure Narrower (after before : SessionStore) : Prop where
  users : after.database.users = before.database.users
  authSettings : after.database.authSettings = before.database.authSettings
  authRecoveryCodes : after.database.authRecoveryCodes = before.database.authRecoveryCodes
  tickets :
    after.database.authWebSocketTickets.Within before.database.authWebSocketTickets
  touches : after.caches.authSessionLastTouchedAt.Within before.caches.authSessionLastTouchedAt
  sessions : after.database.authSessions.Within before.database.authSessions

namespace Narrower

variable {before middle after : SessionStore}

theorem refl (store : SessionStore) : Narrower store store :=
  ⟨rfl, rfl, rfl, .refl _, .refl _, .refl _⟩

theorem trans (second : Narrower after middle) (first : Narrower middle before) :
    Narrower after before where
  users := second.users.trans first.users
  authSettings := second.authSettings.trans first.authSettings
  authRecoveryCodes := second.authRecoveryCodes.trans first.authRecoveryCodes
  tickets := second.tickets.trans first.tickets
  touches := second.touches.trans first.touches
  sessions := second.sessions.trans first.sessions

theorem fewer (narrower : Narrower after before) : Fewer after before where
  touches := narrower.touches
  sessions := fun sessionId row found => ⟨row, narrower.sessions sessionId row found, rfl, rfl⟩

theorem ofCaches (store : SessionStore) {caches : SessionCaches}
    (touches : caches.authSessionLastTouchedAt.Within store.caches.authSessionLastTouchedAt) :
    Narrower { store with caches } store :=
  ⟨rfl, rfl, rfl, .refl _, touches, .refl _⟩

theorem withCaches (narrower : Narrower middle before) {caches : SessionCaches}
    (touches : caches.authSessionLastTouchedAt.Within middle.caches.authSessionLastTouchedAt) :
    Narrower { middle with caches } before :=
  (ofCaches middle touches).trans narrower

end Narrower

section Narrowing

variable (store : SessionStore)

theorem maybeDeleteExpiredAuthSessions_narrower (nowMs : Nat) :
    Narrower (store.maybeDeleteExpiredAuthSessions nowMs) store := by
  rw [SessionStore.maybeDeleteExpiredAuthSessions]
  split
  · exact Narrower.refl store
  · exact ⟨rfl, rfl, rfl, .filter _ _, pruneAuthSessionTouchCache_within _ nowMs, .filter _ _⟩

theorem dropSession_narrower (sessionId : SessionId) :
    Narrower (store.dropSession sessionId) store :=
  ⟨rfl, rfl, rfl, .filter _ _, forgetSession_within _ sessionId, .delete _ _⟩

theorem logout_narrower (sessionId : Option SessionId) :
    Narrower (store.logout sessionId) store := by
  cases sessionId with
  | none => exact Narrower.refl store
  | some sessionId =>
    simp only [SessionStore.logout]
    split
    · exact Narrower.refl store
    · exact dropSession_narrower store sessionId

end Narrowing

def AuthDatabase.liveSession (database : AuthDatabase) (sessionId : SessionId) (nowMs : Nat) :
    Option AuthSessionRecord :=
  (database.getAuthSession sessionId).filter fun session =>
    nowMs < session.expiresAt && nowMs < session.lastUsedAt + DEFAULT_SESSION_IDLE_TIMEOUT_MS

def AuthSessionRecord.refreshed (session : AuthSessionRecord) (nowMs : Nat) (touch : Bool) :
    AuthSessionRecord :=
  if touch ∧ session.lastUsedAt + AUTH_SESSION_TOUCH_INTERVAL_MS ≤ nowMs then
    { session with lastUsedAt := nowMs }
  else session

theorem getAuthSession_eq_some {database : AuthDatabase} {sessionId : SessionId}
    {session : AuthSessionRecord} (found : database.getAuthSession sessionId = some session) :
    session.id = sessionId ∧
      database.authSessions.get? sessionId = some session.toAuthSessionRow ∧
      ∃ user, database.getUserById session.userId = some user ∧ user.enabled = true := by
  simp only [AuthDatabase.getAuthSession, Option.bind_eq_bind, Option.bind_eq_some_iff] at found
  obtain ⟨row, stored, user, known, result⟩ := found
  split at result
  · rename_i enabled
    cases Option.some.inj result
    exact ⟨rfl, stored, user, known, enabled⟩
  · exact absurd result (by simp)

theorem liveSession_eq_some {database : AuthDatabase} {sessionId : SessionId} {nowMs : Nat}
    {session : AuthSessionRecord} (found : database.liveSession sessionId nowMs = some session) :
    database.getAuthSession sessionId = some session ∧ nowMs < session.expiresAt ∧
      nowMs < session.lastUsedAt + DEFAULT_SESSION_IDLE_TIMEOUT_MS := by
  have parts := Option.filter_eq_some_iff.mp found
  simp only [Bool.and_eq_true, decide_eq_true_eq] at parts
  exact parts

theorem liveSession_sweep (store : SessionStore) (sessionId : SessionId) (nowMs : Nat) :
    (store.maybeDeleteExpiredAuthSessions nowMs).database.liveSession sessionId nowMs =
      store.database.liveSession sessionId nowMs := by
  rw [SessionStore.maybeDeleteExpiredAuthSessions]
  split
  · rfl
  · simp only [AuthDatabase.liveSession, AuthDatabase.getAuthSession,
      AuthDatabase.deleteExpiredAuthSessions, AuthDatabase.getUserById, OrderedMap.get?_filter,
      Option.bind_eq_bind]
    cases stored : store.database.authSessions.get? sessionId with
    | none => rfl
    | some row =>
      by_cases unexpired : nowMs < row.expiresAt
      · simp [Option.filter, unexpired]
      · have swept : (some row).filter (fun row => decide (nowMs < row.expiresAt)) = none := by
          simp [Option.filter, unexpired]
        rw [swept, Option.bind_none, Option.filter_none]
        symm
        rw [Option.filter_eq_none_iff]
        intro session found
        rw [Option.bind_some] at found
        obtain ⟨user, known, result⟩ := Option.bind_eq_some_iff.mp found
        split at result
        · cases Option.some.inj result
          simp [unexpired]
        · exact absurd result (by simp)

def CachesAgree (store : SessionStore) : Prop :=
  ∀ sessionId touchedAt row,
    store.caches.authSessionLastTouchedAt.get? sessionId = some touchedAt →
    store.database.authSessions.get? sessionId = some row → touchedAt = row.lastUsedAt

theorem CachesAgree.fewer {before after : SessionStore} (agree : CachesAgree before)
    (fewer : Fewer after before) : CachesAgree after := by
  intro sessionId touchedAt row touched stored
  obtain ⟨earlier, earlierStored, sameUse, _⟩ := fewer.sessions sessionId row stored
  rw [sameUse]
  exact agree sessionId touchedAt earlier (fewer.touches sessionId touchedAt touched) earlierStored

theorem cachesAgree_empty (database : AuthDatabase) :
    CachesAgree { database, caches := .empty } := by
  intro sessionId touchedAt row touched _
  exact absurd touched (by simp [SessionCaches.empty])

inductive ResolveEffect (before : SessionStore) (sessionId : SessionId) (nowMs : Nat)
    (touch : Bool) : Option AuthSessionRecord → SessionStore → Prop
  | refused {after : SessionStore} (narrower : Narrower after before) :
      ResolveEffect before sessionId nowMs touch none after
  | served {after : SessionStore} {session : AuthSessionRecord} (narrower : Narrower after before)
      (live : before.database.liveSession sessionId nowMs = some session)
      (kept : after.database.authSessions.get? sessionId = some session.toAuthSessionRow)
      (recent : session.refreshed nowMs touch = session) :
      ResolveEffect before sessionId nowMs touch (some session) after
  | touched {middle : SessionStore} {caches : SessionCaches} {session : AuthSessionRecord}
      (narrower : Narrower middle before)
      (live : before.database.liveSession sessionId nowMs = some session)
      (kept : middle.database.authSessions.get? sessionId = some session.toAuthSessionRow)
      (touching : touch = true)
      (refreshed : session.refreshed nowMs touch = { session with lastUsedAt := nowMs })
      (touches : ∀ other touchedAt, caches.authSessionLastTouchedAt.get? other = some touchedAt →
        other = sessionId ∧ touchedAt = nowMs ∨
          other ≠ sessionId ∧
            middle.caches.authSessionLastTouchedAt.get? other = some touchedAt) :
      ResolveEffect before sessionId nowMs touch (some { session with lastUsedAt := nowMs })
        { database := { middle.database with
            authSessions := middle.database.authSessions.modify sessionId fun row =>
              { row with lastUsedAt := nowMs } }
          caches }

theorem resolveUnexpiredSession_effect {store : SessionStore} {session : AuthSessionRecord}
    {nowMs : Nat} (touch : Bool) (agree : CachesAgree store)
    (found : store.database.getAuthSession session.id = some session)
    (unexpired : nowMs < session.expiresAt) :
    ResolveEffect store session.id nowMs touch
      (store.resolveUnexpiredSession session nowMs touch).1
      (store.resolveUnexpiredSession session nowMs touch).2 ∧
    (store.resolveUnexpiredSession session nowMs touch).1 =
      (store.database.liveSession session.id nowMs).map (·.refreshed nowMs touch) := by
  have stored := (getAuthSession_eq_some found).2.1
  -- the cached touch, when there is one, is the stored last use
  have lastTouched : (store.caches.readAuthSessionLastTouchedAt session.id).1.getD
      session.lastUsedAt = session.lastUsedAt := by
    rw [readAuthSessionLastTouchedAt_fst]
    cases touched : store.caches.authSessionLastTouchedAt.get? session.id with
    | none => rfl
    | some touchedAt => exact agree session.id touchedAt _ touched stored
  have narrow := Narrower.ofCaches store
    (readAuthSessionLastTouchedAt_within store.caches session.id)
  simp only [SessionStore.resolveUnexpiredSession, lastTouched, lt_irrefl, if_false]
  generalize (store.caches.readAuthSessionLastTouchedAt session.id).2 = read at narrow
  by_cases idle : isSessionIdleExpired session nowMs = true
  · have dead : store.database.liveSession session.id nowMs = none := by
      simp only [isSessionIdleExpired, decide_eq_true_eq] at idle
      rw [AuthDatabase.liveSession, found, Option.filter_eq_none_iff]
      intro other same
      cases Option.some.inj same
      simp only [Bool.and_eq_true, decide_eq_true_eq, not_and]
      omega
    simp only [idle, if_true, dead, Option.map_none, and_true]
    exact .refused ((dropSession_narrower _ _).trans narrow)
  · have live : store.database.liveSession session.id nowMs = some session := by
      simp only [isSessionIdleExpired, decide_eq_true_eq, not_le] at idle
      rw [AuthDatabase.liveSession, found, Option.filter_eq_some_iff]
      simp [unexpired, idle]
    simp only [idle, Bool.false_eq_true, if_false, live, Option.map_some]
    cases touch with
    | false =>
      have recent : session.refreshed nowMs false = session := by
        simp [AuthSessionRecord.refreshed]
      simp only [Bool.not_false, if_true, recent, and_true]
      exact .served narrow live stored recent
    | true =>
      simp only [Bool.not_true, Bool.false_eq_true, if_false]
      by_cases due : session.lastUsedAt + AUTH_SESSION_TOUCH_INTERVAL_MS ≤ nowMs
      · have refreshed : session.refreshed nowMs true = { session with lastUsedAt := nowMs } := by
          simp [AuthSessionRecord.refreshed, due]
        have touches : ∀ other touchedAt,
            (((read.recordAuthSessionTouchedAt session.id nowMs).pruneAuthSessionTouchCache
              nowMs).recordResolvedAuthSession { session with lastUsedAt := nowMs }
                nowMs).authSessionLastTouchedAt.get? other = some touchedAt →
            other = session.id ∧ touchedAt = nowMs ∨
              other ≠ session.id ∧
                read.authSessionLastTouchedAt.get? other = some touchedAt := by
          intro other touchedAt touched
          rw [recordResolvedAuthSession_touches] at touched
          have written := pruneAuthSessionTouchCache_within _ _ other touchedAt touched
          simp only [SessionCaches.recordAuthSessionTouchedAt, get?_writeLruMapValue] at written
          split at written
          · rename_i same
            exact Or.inl ⟨same, (Option.some.inj written).symm⟩
          · rename_i different
            exact Or.inr ⟨different, written⟩
        simp only [due, if_true, AuthDatabase.touchAuthSessionIfExpiresAfter, stored,
          Option.any_some, unexpired, decide_true, refreshed, and_true]
        have effect := ResolveEffect.touched narrow live stored rfl refreshed touches
        exact effect
      · have recent : session.refreshed nowMs true = session := by
          simp [AuthSessionRecord.refreshed, due]
        simp only [due, if_false, recent, and_true]
        exact .served narrow live stored recent

theorem ResolveEffect.widen {before middle after : SessionStore} {sessionId : SessionId}
    {nowMs : Nat} {touch : Bool} {answer : Option AuthSessionRecord}
    (effect : ResolveEffect middle sessionId nowMs touch answer after)
    (narrower : Narrower middle before)
    (same : middle.database.liveSession sessionId nowMs =
      before.database.liveSession sessionId nowMs) :
    ResolveEffect before sessionId nowMs touch answer after := by
  cases effect with
  | refused further => exact .refused (further.trans narrower)
  | served further live kept recent =>
    exact .served (further.trans narrower) (same ▸ live) kept recent
  | touched further live kept touching refreshed touches =>
    exact .touched (further.trans narrower) (same ▸ live) kept touching refreshed touches

def AuthDatabase.answer (database : AuthDatabase) (input : ResolveSessionInput) :
    Option AuthSessionRecord :=
  match input.sessionId with
  | none => none
  | some sessionId =>
    if sessionId = "" then none
    else (database.liveSession sessionId input.nowMs).map (·.refreshed input.nowMs input.touch)

theorem resolveSession_spec {store : SessionStore} (agree : CachesAgree store)
    (input : ResolveSessionInput) :
    ResolveEffect store (input.sessionId.getD "") input.nowMs input.touch
      (store.resolveSession input).1 (store.resolveSession input).2 ∧
    (store.resolveSession input).1 = store.database.answer input := by
  obtain ⟨requested, nowMs, touch⟩ := input
  simp only [SessionStore.resolveSession, AuthDatabase.answer]
  cases requested with
  | none => exact ⟨.refused (Narrower.refl store), rfl⟩
  | some sessionId =>
    simp only [Option.getD_some]
    by_cases blank : sessionId = ""
    · simp only [blank, if_true, and_true]
      exact .refused (Narrower.refl store)
    · simp only [blank, if_false]
      have swept := maybeDeleteExpiredAuthSessions_narrower store nowMs
      have sameLive := liveSession_sweep store sessionId nowMs
      generalize store.maybeDeleteExpiredAuthSessions nowMs = sweptStore at swept sameLive
      have reading : Narrower { sweptStore with
          caches := (sweptStore.caches.readCachedResolvedAuthSession sessionId nowMs).2 }
          store := by
        apply swept.withCaches
        rw [readCachedResolvedAuthSession_touches]
        exact .refl _
      generalize (sweptStore.caches.readCachedResolvedAuthSession sessionId nowMs).1 = cached
      generalize (sweptStore.caches.readCachedResolvedAuthSession sessionId nowMs).2 = caches
        at reading
      rw [← sameLive]
      cases found : sweptStore.database.getAuthSession sessionId with
      | none =>
        have dead : sweptStore.database.liveSession sessionId nowMs = none := by
          rw [AuthDatabase.liveSession, found, Option.filter_none]
        simp only [dead, Option.map_none]
        split
        · exact ⟨.refused (reading.withCaches (forgetSession_within caches sessionId)), rfl⟩
        · exact ⟨.refused reading, rfl⟩
      | some session =>
        have named := (getAuthSession_eq_some found).1
        have recording : Narrower { sweptStore with
            caches := caches.recordResolvedAuthSession session nowMs } store := by
          apply reading.withCaches
          rw [recordResolvedAuthSession_touches]
          exact .refl _
        have recordedAgree := agree.fewer recording.fewer
        by_cases expired : session.expiresAt ≤ nowMs
        · have dead : sweptStore.database.liveSession sessionId nowMs = none := by
            rw [AuthDatabase.liveSession, found, Option.filter_eq_none_iff]
            intro other same
            cases Option.some.inj same
            simp only [Bool.and_eq_true, decide_eq_true_eq, not_and]
            omega
          simp only [expired, if_true, dead, Option.map_none, and_true]
          exact .refused ((dropSession_narrower _ _).trans recording)
        · simp only [expired, if_false]
          subst named
          have parts := resolveUnexpiredSession_effect touch recordedAgree found
            (Nat.lt_of_not_le expired)
          exact ⟨parts.1.widen recording sameLive, parts.2⟩

end Metidos.Auth
