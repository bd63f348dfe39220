import Metidos.Auth.SessionSteps
import Metidos.Library.Transition

/-!
The session caches are transparent: over any run of the session operations at nondecreasing times,
`resolveSession` answers as the rows alone would, and it never serves a session that has been ended,
has expired or has been idle for too long.
-/

namespace Metidos.Auth

open Transition

structure SessionLife where
  expiresAt : Nat
  lastUsedAt : Nat
  ended : Bool
  deriving DecidableEq

def SessionLife.end (life : SessionLife) : SessionLife := { life with ended := true }

abbrev SessionLives := OrderedMap SessionId SessionLife

def SessionLives.recordUse (lives : SessionLives) (answer : Option AuthSessionRecord)
    (touch : Bool) (nowMs : Nat) : SessionLives :=
  match answer with
  | none => lives
  | some session =>
    if touch then lives.modify session.id fun life => { life with lastUsedAt := nowMs }
    else lives

def SessionLives.logout (lives : SessionLives) (sessionId : Option SessionId) : SessionLives :=
  match sessionId with
  | none => lives
  | some sessionId => if sessionId = "" then lives else lives.modify sessionId SessionLife.end

structure SessionRun where
  store : SessionStore
  clock : Nat
  lives : SessionLives

def SessionRun.start (users : List UserRecord) : SessionRun where
  store :=
    { database :=
        { users
          authSettings := none
          authRecoveryCodes := .empty
          authSessions := .empty
          authWebSocketTickets := .empty }
      caches := .empty }
  clock := 0
  lives := .empty

/-- `recordStepUp` is the end of a step-up whose request arrived at `startedAt`;
`deleteAllAuthSessions` is the revocation of the reset flows, which some of them follow with
`clearAuthSessionTouchCache`; `restart` is a new process over the same rows. -/
inductive SessionOperation
  | createSession (sessionId : SessionId) (userId : UserId) (sessionLifetimeDays : Nat)
  | resolveSession (sessionId : Option SessionId) (touch : Bool)
  | recordStepUp (sessionId : SessionId) (startedAt : Nat)
  | logout (sessionId : Option SessionId)
  | deleteAllAuthSessions (clearCaches : Bool)
  | updateUserEnabled (userId : UserId) (enabled : Bool)
  | pruneAuthSessionTouchCache
  | restart
  deriving DecidableEq

structure SessionEvent where
  nowMs : Nat
  operation : SessionOperation
  deriving DecidableEq

def sessionStep (state : SessionRun) (event : SessionEvent) : Option SessionRun :=
  let { store, clock, lives } := state
  let nowMs := event.nowMs
  if nowMs < clock then none
  else
    match event.operation with
    | .createSession sessionId userId sessionLifetimeDays =>
      if sessionId = "" ∨ (lives.get? sessionId).isSome then none
      else
        some {
          store := store.createSessionRecord sessionId userId sessionLifetimeDays nowMs
          clock := nowMs
          lives := lives.set sessionId
            { expiresAt := addDays nowMs sessionLifetimeDays, lastUsedAt := nowMs, ended := false } }
    | .resolveSession sessionId touch =>
      let (answer, store) := store.resolveSession { sessionId, nowMs, touch }
      some { store, clock := nowMs, lives := SessionLives.recordUse lives answer touch nowMs }
    | .recordStepUp sessionId startedAt =>
      some { store := store.recordStepUp sessionId startedAt, clock := nowMs, lives }
    | .logout sessionId =>
      some {
        store := store.logout sessionId
        clock := nowMs
        lives := SessionLives.logout lives sessionId }
    | .deleteAllAuthSessions clearCaches =>
      some {
        store :=
          { database := store.database.deleteAllAuthSessions
            caches :=
              if clearCaches then store.caches.clearAuthSessionTouchCache else store.caches }
        clock := nowMs
        lives := lives.mapValues SessionLife.end }
    | .updateUserEnabled userId enabled =>
      some {
        store := { store with database := store.database.updateUserEnabled userId enabled }
        clock := nowMs
        lives := if enabled then lives else lives.mapValues SessionLife.end }
    | .pruneAuthSessionTouchCache =>
      some {
        store := { store with caches := store.caches.pruneAuthSessionTouchCache nowMs }
        clock := nowMs
        lives }
    | .restart => some { store := { store with caches := .empty }, clock := nowMs, lives }

/-- Every row belongs to a session that has not been ended, under its expiry and with no later use
than was made of it. -/
structure SessionInvariant (state : SessionRun) : Prop where
  agree : CachesAgree state.store
  lives : ∀ sessionId row, state.store.database.authSessions.get? sessionId = some row →
    ∃ life, state.lives.get? sessionId = some life ∧ life.ended = false ∧
      life.expiresAt = row.expiresAt ∧ row.lastUsedAt ≤ life.lastUsedAt
  uses : ∀ sessionId life, state.lives.get? sessionId = some life → life.lastUsedAt ≤ state.clock
  touches : ∀ sessionId touchedAt,
    state.store.caches.authSessionLastTouchedAt.get? sessionId = some touchedAt →
      (state.lives.get? sessionId).isSome

theorem sessionInvariant_start (users : List UserRecord) :
    SessionInvariant (SessionRun.start users) where
  agree := cachesAgree_empty _
  lives := by
    intro sessionId row stored
    exact absurd stored (by simp [SessionRun.start])
  uses := by
    intro sessionId life known
    exact absurd known (by simp [SessionRun.start])
  touches := by
    intro sessionId touchedAt touched
    exact absurd touched (by simp [SessionRun.start, SessionCaches.empty])

theorem SessionInvariant.fewer {state : SessionRun} (holds : SessionInvariant state)
    {store : SessionStore} (fewer : Fewer store state.store) {nowMs : Nat}
    (later : state.clock ≤ nowMs) :
    SessionInvariant { store, clock := nowMs, lives := state.lives } where
  agree := holds.agree.fewer fewer
  lives := by
    intro sessionId row stored
    obtain ⟨earlier, earlierStored, sameUse, sameExpiry⟩ := fewer.sessions sessionId row stored
    rw [sameUse, sameExpiry]
    exact holds.lives sessionId earlier earlierStored
  uses := fun sessionId life known => (holds.uses sessionId life known).trans later
  touches := fun sessionId touchedAt touched =>
    holds.touches sessionId touchedAt (fewer.touches sessionId touchedAt touched)

theorem recordStepUp_fewer (store : SessionStore) (sessionId : SessionId) (now : Nat) :
    Fewer (store.recordStepUp sessionId now) store where
  touches := by
    simp only [SessionStore.recordStepUp, updateCachedResolvedAuthSession_touches]
    exact .refl _
  sessions := by
    intro other row stored
    simp only [SessionStore.recordStepUp, AuthDatabase.setAuthSessionStepUpValidUntil,
      OrderedMap.get?_modify] at stored
    split at stored
    · rename_i same
      obtain ⟨earlier, earlierStored, result⟩ := Option.map_eq_some_iff.mp stored
      subst result
      exact ⟨earlier, same ▸ earlierStored, rfl, rfl⟩
    · exact ⟨row, stored, rfl, rfl⟩

theorem SessionInvariant.resolve {state : SessionRun} (holds : SessionInvariant state)
    {sessionId : SessionId} {nowMs : Nat} (later : state.clock ≤ nowMs) {touch : Bool}
    {answer : Option AuthSessionRecord} {store : SessionStore}
    (effect : ResolveEffect state.store sessionId nowMs touch answer store) :
    SessionInvariant
      { store, clock := nowMs, lives := state.lives.recordUse answer touch nowMs } := by
  cases effect with
  | refused narrower => exact holds.fewer narrower.fewer later
  | served narrower live kept recent =>
    rename_i session
    have kept := holds.fewer narrower.fewer later
    cases touch with
    | false => exact kept
    | true =>
      simp only [SessionLives.recordUse, if_true]
      refine ⟨kept.agree, ?_, ?_, ?_⟩
      · intro other row stored
        obtain ⟨life, known, running, sameExpiry, used⟩ := kept.lives other row stored
        simp only [OrderedMap.get?_modify]
        split
        · rename_i same
          subst same
          rw [known]
          refine ⟨{ life with lastUsedAt := nowMs }, rfl, running, sameExpiry, ?_⟩
          exact used.trans (kept.uses session.id life known)
        · exact ⟨life, known, running, sameExpiry, used⟩
      · intro other life known
        simp only [OrderedMap.get?_modify] at known
        split at known
        · obtain ⟨earlier, _, result⟩ := Option.map_eq_some_iff.mp known
          subst result
          exact Nat.le_refl nowMs
        · exact kept.uses other life known
      · intro other touchedAt touched
        have isKnown := kept.touches other touchedAt touched
        simp only [OrderedMap.get?_modify]
        split
        · rename_i same
          subst same
          simpa using isKnown
        · exact isKnown
  | touched narrower live kept touching refreshed touches =>
    rename_i middle caches session
    have middleHolds := holds.fewer narrower.fewer later
    have named := (getAuthSession_eq_some (liveSession_eq_some live).1).1
    subst touching named
    simp only [SessionLives.recordUse, if_true]
    obtain ⟨life, known, running, sameExpiry, _⟩ := middleHolds.lives session.id _ kept
    refine ⟨?_, ?_, ?_, ?_⟩
    · intro other touchedAt row touched stored
      simp only [OrderedMap.get?_modify] at stored
      split at stored
      · rename_i same
        subst same
        rw [kept, Option.map_some] at stored
        cases Option.some.inj stored
        rcases touches session.id touchedAt touched with ⟨_, now⟩ | ⟨different, _⟩
        · exact now
        · exact absurd rfl different
      · rename_i different
        rcases touches other touchedAt touched with ⟨same, _⟩ | ⟨_, earlier⟩
        · exact absurd same different
        · exact middleHolds.agree other touchedAt row earlier stored
    · intro other row stored
      simp only [OrderedMap.get?_modify] at stored ⊢
      split at stored
      · rename_i same
        subst same
        rw [kept, Option.map_some] at stored
        cases Option.some.inj stored
        simp only [if_true, known, Option.map_some]
        exact ⟨_, rfl, running, sameExpiry, Nat.le_refl nowMs⟩
      · rename_i different
        simp only [different, if_false]
        exact middleHolds.lives other row stored
    · intro other life known
      simp only [OrderedMap.get?_modify] at known
      split at known
      · obtain ⟨earlier, _, result⟩ := Option.map_eq_some_iff.mp known
        subst result
        exact Nat.le_refl nowMs
      · exact middleHolds.uses other life known
    · intro other touchedAt touched
      have isKnown : (state.lives.get? other).isSome = true := by
        rcases touches other touchedAt touched with ⟨same, _⟩ | ⟨_, earlier⟩
        · rw [same, known]
          rfl
        · exact middleHolds.touches other touchedAt earlier
      simp only [OrderedMap.get?_modify]
      split
      · rename_i same
        subst same
        simpa using isKnown
      · exact isKnown

theorem SessionInvariant.create {state : SessionRun} (holds : SessionInvariant state)
    {sessionId : SessionId} {nowMs : Nat} (later : state.clock ≤ nowMs)
    (fresh : state.lives.get? sessionId = none) (userId : UserId) (sessionLifetimeDays : Nat) :
    SessionInvariant
      { store := state.store.createSessionRecord sessionId userId sessionLifetimeDays nowMs
        clock := nowMs
        lives := state.lives.set sessionId
          { expiresAt := addDays nowMs sessionLifetimeDays
            lastUsedAt := nowMs
            ended := false } } where
  agree := by
    intro other touchedAt row touched stored
    have isKnown := holds.touches other touchedAt touched
    simp only [SessionStore.createSessionRecord, AuthDatabase.createAuthSession,
      OrderedMap.get?_set] at stored
    split at stored
    · rename_i same
      rw [same, fresh] at isKnown
      exact absurd isKnown (by simp)
    · exact holds.agree other touchedAt row touched (OrderedMap.Within.filter _ _ other row stored)
  lives := by
    intro other row stored
    simp only [SessionStore.createSessionRecord, AuthDatabase.createAuthSession,
      OrderedMap.get?_set] at stored ⊢
    split at stored
    · rename_i same
      cases Option.some.inj stored
      simp only [same, if_true]
      exact ⟨_, rfl, rfl, rfl, Nat.le_refl nowMs⟩
    · rename_i different
      simp only [different, if_false]
      exact holds.lives other row (OrderedMap.Within.filter _ _ other row stored)
  uses := by
    intro other life known
    simp only [OrderedMap.get?_set] at known
    split at known
    · cases Option.some.inj known
      exact Nat.le_refl nowMs
    · exact (holds.uses other life known).trans later
  touches := by
    intro other touchedAt touched
    have isKnown := holds.touches other touchedAt touched
    simp only [OrderedMap.get?_set]
    split
    · rfl
    · exact isKnown

theorem SessionInvariant.logout {state : SessionRun} (holds : SessionInvariant state)
    (sessionId : Option SessionId) {nowMs : Nat} (later : state.clock ≤ nowMs) :
    SessionInvariant
      { store := state.store.logout sessionId
        clock := nowMs
        lives := state.lives.logout sessionId } := by
  have kept := holds.fewer (logout_narrower state.store sessionId).fewer later
  cases sessionId with
  | none => exact kept
  | some sessionId =>
    simp only [SessionLives.logout]
    by_cases blank : sessionId = ""
    · rw [if_pos blank]
      exact kept
    rw [if_neg blank]
    refine ⟨kept.agree, ?_, ?_, ?_⟩
    · intro other row stored
      obtain ⟨life, known, facts⟩ := kept.lives other row stored
      have different : other ≠ sessionId := by
        intro same
        simp [SessionStore.logout, blank, SessionStore.dropSession,
          AuthDatabase.deleteAuthSession, same] at stored
      simp only [OrderedMap.get?_modify, different, if_false]
      exact ⟨life, known, facts⟩
    · intro other life known
      simp only [OrderedMap.get?_modify] at known
      split at known
      · obtain ⟨earlier, earlierKnown, result⟩ := Option.map_eq_some_iff.mp known
        subst result
        exact kept.uses sessionId earlier earlierKnown
      · exact kept.uses other life known
    · intro other touchedAt touched
      have isKnown := kept.touches other touchedAt touched
      simp only [OrderedMap.get?_modify]
      split
      · rename_i same
        subst same
        simpa using isKnown
      · exact isKnown

theorem SessionInvariant.revoke {state : SessionRun} (holds : SessionInvariant state)
    {store : SessionStore} (fewer : Fewer store state.store) {nowMs : Nat}
    (later : state.clock ≤ nowMs) (gone : store.database.authSessions = .empty) :
    SessionInvariant
      { store, clock := nowMs, lives := state.lives.mapValues SessionLife.end } := by
  have kept := holds.fewer fewer later
  refine ⟨kept.agree, ?_, ?_, ?_⟩
  · intro sessionId row stored
    rw [gone] at stored
    exact absurd stored (by simp)
  · intro sessionId life known
    rw [OrderedMap.get?_mapValues] at known
    obtain ⟨earlier, earlierKnown, result⟩ := Option.map_eq_some_iff.mp known
    subst result
    exact kept.uses sessionId earlier earlierKnown
  · intro sessionId touchedAt touched
    have isKnown := kept.touches sessionId touchedAt touched
    rw [OrderedMap.get?_mapValues, Option.isSome_map]
    exact isKnown

theorem sessionStep_invariant {state next : SessionRun} {event : SessionEvent}
    (holds : SessionInvariant state) (stepped : sessionStep state event = some next) :
    SessionInvariant next := by
  obtain ⟨nowMs, operation⟩ := event
  simp only [sessionStep] at stepped
  split at stepped
  · exact absurd stepped (by simp)
  rename_i notEarlier
  have later : state.clock ≤ nowMs := Nat.le_of_not_lt notEarlier
  cases operation with
  | createSession sessionId userId sessionLifetimeDays =>
    simp only at stepped
    split at stepped
    · exact absurd stepped (by simp)
    · rename_i fresh
      simp only [not_or, Bool.not_eq_true, Option.isSome_eq_false_iff,
        Option.isNone_iff_eq_none] at fresh
      cases Option.some.inj stepped
      exact holds.create later fresh.2 userId sessionLifetimeDays
  | resolveSession sessionId touch =>
    cases Option.some.inj stepped
    exact holds.resolve later
      (resolveSession_spec holds.agree { sessionId, nowMs, touch }).1
  | recordStepUp sessionId startedAt =>
    cases Option.some.inj stepped
    exact holds.fewer (recordStepUp_fewer state.store sessionId startedAt) later
  | logout sessionId =>
    cases Option.some.inj stepped
    exact holds.logout sessionId later
  | deleteAllAuthSessions clearCaches =>
    cases Option.some.inj stepped
    refine holds.revoke ⟨?_, ?_⟩ later rfl
    · cases clearCaches with
      | false => exact .refl _
      | true => exact .empty _
    · intro sessionId row stored
      exact absurd stored (by simp [AuthDatabase.deleteAllAuthSessions])
  | updateUserEnabled userId enabled =>
    cases Option.some.inj stepped
    cases enabled with
    | false =>
      have fewer : Fewer { state.store with
          database := state.store.database.updateUserEnabled userId false } state.store := by
        refine ⟨.refl _, ?_⟩
        intro sessionId row stored
        exact absurd stored (by
          simp [AuthDatabase.updateUserEnabled, AuthDatabase.deleteAllAuthSessions])
      exact holds.revoke fewer later rfl
    | true =>
      have fewer : Fewer { state.store with
          database := state.store.database.updateUserEnabled userId true } state.store :=
        ⟨.refl _, fun sessionId row stored => ⟨row, stored, rfl, rfl⟩⟩
      exact holds.fewer fewer later
  | pruneAuthSessionTouchCache =>
    cases Option.some.inj stepped
    exact holds.fewer (Narrower.ofCaches state.store
      (pruneAuthSessionTouchCache_within _ nowMs)).fewer later
  | restart =>
    cases Option.some.inj stepped
    exact holds.fewer (Narrower.ofCaches state.store (.empty _)).fewer later

theorem run_invariant {users : List UserRecord} {state : SessionRun}
    (reached : Reaches sessionStep Unrestricted (SessionRun.start users) state) :
    SessionInvariant state :=
  reached.invariant _ (sessionInvariant_start users)
    fun _ _ _ holds _ stepped => sessionStep_invariant holds stepped

/-- After any run, a request is answered as if every cache were empty, and the session it is
answered with has not been ended and is within both of its deadlines. -/
theorem resolveSession_transparent {users : List UserRecord} {state : SessionRun}
    (reached : Reaches sessionStep Unrestricted (SessionRun.start users) state)
    (input : ResolveSessionInput) :
    (state.store.resolveSession input).1 =
        ({ state.store with caches := .empty : SessionStore }.resolveSession input).1 ∧
      ∀ session, (state.store.resolveSession input).1 = some session →
        input.sessionId = some session.id ∧
          ∃ life, state.lives.get? session.id = some life ∧ life.ended = false ∧
            input.nowMs < life.expiresAt ∧
            input.nowMs < life.lastUsedAt + DEFAULT_SESSION_IDLE_TIMEOUT_MS := by
  have holds := run_invariant reached
  have answered := (resolveSession_spec holds.agree input).2
  have bare := (resolveSession_spec (cachesAgree_empty state.store.database) input).2
  refine ⟨answered.trans bare.symm, ?_⟩
  intro session served
  rw [answered, AuthDatabase.answer] at served
  split at served
  · exact absurd served (by simp)
  rename_i sessionId requested
  split at served
  · exact absurd served (by simp)
  obtain ⟨stored, live, result⟩ := Option.map_eq_some_iff.mp served
  obtain ⟨found, unexpired, active⟩ := liveSession_eq_some live
  obtain ⟨named, row, _⟩ := getAuthSession_eq_some found
  have sameId : session.id = sessionId := by
    rw [← result, ← named, AuthSessionRecord.refreshed]
    split <;> rfl
  obtain ⟨life, known, running, sameExpiry, used⟩ := holds.lives sessionId _ row
  refine ⟨sameId ▸ requested, life, sameId ▸ known, running, ?_, ?_⟩
  · rw [sameExpiry]
    exact unexpired
  · omega

def sampleOperator : UserRecord :=
  { id := 1, username := "metidos", enabled := true, isAdmin := true }

theorem resolveSession_transparent_one :
    ∃ state, Reaches sessionStep Unrestricted (SessionRun.start [sampleOperator]) state ∧
      (state.store.resolveSession { sessionId := some "s", nowMs := 120000, touch := true }).1.map
          (·.lastUsedAt) = some 90000 ∧
      (state.store.resolveSession { sessionId := some "s", nowMs := 120000, touch := true }).1 =
        ({ state.store with caches := .empty : SessionStore }.resolveSession
          { sessionId := some "s", nowMs := 120000, touch := true }).1 := by
  have served : (run sessionStep (fun _ _ => true) (SessionRun.start [sampleOperator])
      [⟨1000, .createSession "s" 1 7⟩, ⟨90000, .resolveSession (some "s") true⟩]).map
        (fun state => (state.store.resolveSession
          { sessionId := some "s", nowMs := 120000, touch := true }).1.map (·.lastUsedAt)) =
      some (some 90000) := by
    decide +kernel
  obtain ⟨state, ran, lastUsed⟩ := Option.map_eq_some_iff.mp served
  have reached : Reaches sessionStep Unrestricted (SessionRun.start [sampleOperator]) state :=
    (reaches_of_run ran).unrestricted
  exact ⟨state, reached, lastUsed, (resolveSession_transparent reached _).1⟩

end Metidos.Auth
