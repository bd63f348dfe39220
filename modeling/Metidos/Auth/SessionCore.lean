import Metidos.Library.JsText
import Metidos.Library.OrderedMap

/-!
Executable model of the authentication tables and of the functions of `src/bun/db.ts` over them.
An ISO timestamp is its number of milliseconds, and a table with a primary key is a map.
-/

namespace Metidos.Auth

abbrev UserId := Nat

abbrev SessionId := String

abbrev TicketId := String

abbrev CodeHash := String

structure UserRecord where
  id : UserId
  username : String
  enabled : Bool
  isAdmin : Bool
  deriving DecidableEq

structure AuthSettings where
  primaryFactorHash : String
  totpSecretCiphertext : List Char
  totpLastUsedCounter : Option Nat
  sessionLifetimeDays : Nat
  failedPrimaryFactorAttempts : Nat
  lockedUntil : Option Nat
  deriving DecidableEq

structure AuthRecoveryCode where
  codeHash : CodeHash
  usedAt : Option Nat
  deriving DecidableEq

structure AuthSessionRow where
  userId : UserId
  issuedAt : Nat
  expiresAt : Nat
  lastUsedAt : Nat
  stepUpValidUntil : Option Nat
  deriving DecidableEq

structure AuthSessionRecord extends AuthSessionRow where
  id : SessionId
  isAdmin : Bool
  username : String
  deriving DecidableEq

structure AuthWebSocketTicket where
  sessionId : SessionId
  issuedAt : Nat
  expiresAt : Nat
  consumedAt : Option Nat
  deriving DecidableEq

structure AuthDatabase where
  users : List UserRecord
  authSettings : Option AuthSettings
  authRecoveryCodes : OrderedMap CodeHash (Option Nat)
  authSessions : OrderedMap SessionId AuthSessionRow
  authWebSocketTickets : OrderedMap TicketId AuthWebSocketTicket

/-- `length(trim(totp_secret_ciphertext)) > 0`: the SQL function only trims spaces. -/
def AuthSettings.configured (settings : AuthSettings) : Bool :=
  settings.totpSecretCiphertext.any (· ≠ ' ')

def hasTotpEnrollment (settings : AuthSettings) : Bool :=
  !(JsText.trim settings.totpSecretCiphertext).isEmpty

namespace AuthDatabase

variable (database : AuthDatabase)

def getUserById (userId : UserId) : Option UserRecord := database.users.find? (·.id = userId)

def getUserByUsername (username : String) : Option UserRecord :=
  database.users.find? (·.username = username)

def createUser (username : String) (isAdmin : Bool) : UserRecord × AuthDatabase :=
  let user : UserRecord :=
    { id := (database.users.map (·.id)).foldr max 0 + 1, username, enabled := true, isAdmin }
  (user, { database with users := database.users ++ [user] })

def countConfiguredAuthUsers : Nat :=
  if database.authSettings.any (·.configured) then 1 else 0

def listKnownAuthUsernames : List String :=
  if database.countConfiguredAuthUsers = 0 then []
  else (database.users.head?.map (·.username)).toList

def setAuthFailureState (failedPrimaryFactorAttempts : Nat) (lockedUntil : Option Nat) :
    AuthDatabase :=
  { database with
    authSettings := database.authSettings.map fun settings =>
      { settings with failedPrimaryFactorAttempts, lockedUntil } }

def resetAuthFailureState : AuthDatabase := database.setAuthFailureState 0 none

/-- The conditional `UPDATE`: `COALESCE(totp_last_used_counter, -1) < counter`. -/
def tryAdvanceTotpLastUsedCounter (counter : Nat) : Bool × AuthDatabase :=
  match database.authSettings with
  | none => (false, database)
  | some settings =>
    if settings.totpLastUsedCounter.all (· < counter) then
      (true, { database with
        authSettings := some { settings with totpLastUsedCounter := some counter } })
    else (false, database)

def upsertAuthSettings (primaryFactorHash : String) (totpSecretCiphertext : List Char)
    (sessionLifetimeDays : Nat) : AuthDatabase :=
  { database with
    authSettings := some (match database.authSettings with
      | none =>
        { primaryFactorHash, totpSecretCiphertext, sessionLifetimeDays
          totpLastUsedCounter := none
          failedPrimaryFactorAttempts := 0
          lockedUntil := none }
      | some settings =>
        { settings with primaryFactorHash, totpSecretCiphertext, sessionLifetimeDays }) }

def listAuthRecoveryCodes : List AuthRecoveryCode :=
  database.authRecoveryCodes.entries.map fun (codeHash, usedAt) => { codeHash, usedAt }

def replaceAuthRecoveryCodeHashes (codeHashes : List CodeHash) : AuthDatabase :=
  { database with
    authRecoveryCodes := codeHashes.foldl (fun codes codeHash => codes.set codeHash none) .empty }

/-- `UPDATE … WHERE code_hash = ? AND used_at IS NULL`, with whether a row changed. -/
def markAuthRecoveryCodeUsed (codeHash : CodeHash) (usedAt : Nat) : Bool × AuthDatabase :=
  if database.authRecoveryCodes.get? codeHash = some none then
    (true, { database with
      authRecoveryCodes := database.authRecoveryCodes.set codeHash (some usedAt) })
  else (false, database)

def createAuthSession (sessionId : SessionId) (row : AuthSessionRow) : AuthDatabase :=
  { database with authSessions := database.authSessions.set sessionId row }

def getAuthSession (sessionId : SessionId) : Option AuthSessionRecord := do
  let row ← database.authSessions.get? sessionId
  let user ← database.getUserById row.userId
  if user.enabled then
    some { row with id := sessionId, isAdmin := user.isAdmin, username := user.username }
  else none

def touchAuthSessionIfExpiresAfter (sessionId : SessionId) (lastUsedAt expiresAfter : Nat) :
    Bool × AuthDatabase :=
  if (database.authSessions.get? sessionId).any (expiresAfter < ·.expiresAt) then
    (true, { database with
      authSessions := database.authSessions.modify sessionId fun row => { row with lastUsedAt } })
  else (false, database)

def setAuthSessionStepUpValidUntil (sessionId : SessionId) (stepUpValidUntil : Option Nat) :
    AuthDatabase :=
  { database with
    authSessions := database.authSessions.modify sessionId fun row =>
      { row with stepUpValidUntil } }

def deleteAuthSession (sessionId : SessionId) : AuthDatabase :=
  { database with
    authWebSocketTickets :=
      database.authWebSocketTickets.filter fun _ ticket => ticket.sessionId ≠ sessionId
    authSessions := database.authSessions.delete sessionId }

def deleteAllAuthSessions : AuthDatabase :=
  { database with authWebSocketTickets := .empty, authSessions := .empty }

def deleteExpiredAuthSessions (now : Nat) : AuthDatabase :=
  { database with
    authWebSocketTickets := database.authWebSocketTickets.filter fun _ ticket =>
      !(database.authSessions.get? ticket.sessionId).any (·.expiresAt ≤ now)
    authSessions := database.authSessions.filter fun _ row => now < row.expiresAt }

def createAuthWebSocketTicket (ticketId : TicketId) (ticket : AuthWebSocketTicket) :
    AuthDatabase :=
  { database with authWebSocketTickets := database.authWebSocketTickets.set ticketId ticket }

def getAuthWebSocketTicket (ticketId : TicketId) : Option AuthWebSocketTicket :=
  database.authWebSocketTickets.get? ticketId

/-- The conditional `UPDATE` with both guards given, and whether a row changed. -/
def consumeAuthWebSocketTicket (ticketId : TicketId) (consumedAt expiresAfter : Nat)
    (sessionId : SessionId) : Bool × AuthDatabase :=
  if (database.authWebSocketTickets.get? ticketId).any fun ticket =>
      ticket.consumedAt.isNone && ticket.sessionId = sessionId && expiresAfter < ticket.expiresAt
  then
    (true, { database with
      authWebSocketTickets := database.authWebSocketTickets.modify ticketId fun ticket =>
        { ticket with consumedAt := some consumedAt } })
  else (false, database)

def deleteExpiredAuthWebSocketTickets (now : Nat) : AuthDatabase :=
  { database with
    authWebSocketTickets := database.authWebSocketTickets.filter fun _ ticket =>
      now < ticket.expiresAt && ticket.consumedAt.isNone }

def resetUserOtpEnrollment : AuthDatabase :=
  let cleared : AuthDatabase := { database with
    authSettings := database.authSettings.map fun settings =>
      { settings with
        totpSecretCiphertext := []
        failedPrimaryFactorAttempts := 0
        lockedUntil := none }
    authRecoveryCodes := .empty }
  cleared.deleteAllAuthSessions

/-- `updateUserProfile` on the `enabled` column; disabling a user revokes every session. -/
def updateUserEnabled (userId : UserId) (enabled : Bool) : AuthDatabase :=
  let updated : AuthDatabase := { database with
    users := database.users.map fun user =>
      if user.id = userId then { user with enabled } else user }
  if enabled then updated else updated.deleteAllAuthSessions

end AuthDatabase

end Metidos.Auth

/-!
Executable model of `src/bun/lru-map.ts` and of the session caches, session resolution, logout and
websocket tickets of `src/bun/auth/service-session.ts`.  There is one database, so the weak map of
resolve caches is the one cache it holds; a missing cache is an empty one.
-/

namespace Metidos.Auth

section LruMap

variable {κ ν : Type} [DecidableEq κ]

def readLruMapValue (cache : OrderedMap κ ν) (key : κ) : Option ν × OrderedMap κ ν :=
  match cache.get? key with
  | none => (none, cache)
  | some value => (some value, (cache.delete key).set key value)

def writeLruMapValue (cache : OrderedMap κ ν) (key : κ) (value : ν) : OrderedMap κ ν :=
  if cache.has key then (cache.delete key).set key value else cache.set key value

@[irreducible] def pruneLruMapToMaxEntries (cache : OrderedMap κ ν) (maxEntries : Nat) : OrderedMap κ ν :=
  OrderedMap.deleteOldest^[cache.size - maxEntries] cache

end LruMap

def DEFAULT_SESSION_IDLE_TIMEOUT_MS : Nat := 24 * 60 * 60 * 1000

def DEFAULT_STEP_UP_LIFETIME_MS : Nat := 10 * 60 * 1000

def WEBSOCKET_TICKET_LIFETIME_MS : Nat := 60 * 1000

def EXPIRED_AUTH_SESSION_SWEEP_INTERVAL_MS : Nat := 60000

def AUTH_SESSION_TOUCH_INTERVAL_MS : Nat := 60000

def AUTH_SESSION_RESOLVE_CACHE_TTL_MS : Nat := 5000

def MAX_AUTH_SESSION_TOUCH_CACHE_ENTRIES : Nat := 1024

def MAX_AUTH_SESSION_RESOLVE_CACHE_ENTRIES : Nat := 1024

def addDays (date days : Nat) : Nat := date + days * (24 * 60 * 60 * 1000)

def isSessionIdleExpired (session : AuthSessionRecord) (now : Nat) : Bool :=
  session.lastUsedAt + DEFAULT_SESSION_IDLE_TIMEOUT_MS ≤ now

structure AuthSessionResolveCacheEntry where
  cachedUntilMs : Nat
  session : AuthSessionRecord
  deriving DecidableEq

structure SessionCaches where
  lastExpiredAuthSessionSweepAt : Nat
  authSessionLastTouchedAt : OrderedMap SessionId Nat
  authSessionResolve : OrderedMap SessionId AuthSessionResolveCacheEntry

def SessionCaches.empty : SessionCaches where
  lastExpiredAuthSessionSweepAt := 0
  authSessionLastTouchedAt := .empty
  authSessionResolve := .empty

namespace SessionCaches

variable (caches : SessionCaches)

def clearAuthSessionTouchCache : SessionCaches :=
  { caches with authSessionLastTouchedAt := .empty, authSessionResolve := .empty }

def readAuthSessionLastTouchedAt (sessionId : SessionId) : Option Nat × SessionCaches :=
  let (lastTouchedAt, cache) := readLruMapValue caches.authSessionLastTouchedAt sessionId
  (lastTouchedAt, { caches with authSessionLastTouchedAt := cache })

def readCachedResolvedAuthSession (sessionId : SessionId) (nowMs : Nat) :
    Option AuthSessionRecord × SessionCaches :=
  match readLruMapValue caches.authSessionResolve sessionId with
  | (none, _) => (none, caches)
  | (some entry, cache) =>
    if entry.cachedUntilMs ≤ nowMs then
      (none, { caches with authSessionResolve := cache.delete sessionId })
    else (some entry.session, { caches with authSessionResolve := cache })

def recordResolvedAuthSession (session : AuthSessionRecord) (nowMs : Nat) : SessionCaches :=
  { caches with
    authSessionResolve := pruneLruMapToMaxEntries
      (writeLruMapValue caches.authSessionResolve session.id
        { cachedUntilMs := nowMs + AUTH_SESSION_RESOLVE_CACHE_TTL_MS, session })
      MAX_AUTH_SESSION_RESOLVE_CACHE_ENTRIES }

def forgetSession (sessionId : SessionId) : SessionCaches :=
  { caches with
    authSessionLastTouchedAt := caches.authSessionLastTouchedAt.delete sessionId
    authSessionResolve := caches.authSessionResolve.delete sessionId }

def recordAuthSessionTouchedAt (sessionId : SessionId) (nowMs : Nat) : SessionCaches :=
  { caches with
    authSessionLastTouchedAt := writeLruMapValue caches.authSessionLastTouchedAt sessionId nowMs }

def updateCachedResolvedAuthSession (sessionId : SessionId)
    (updater : AuthSessionRecord → AuthSessionRecord) : SessionCaches :=
  match caches.authSessionResolve.get? sessionId with
  | none => caches
  | some entry =>
    { caches with
      authSessionResolve := writeLruMapValue caches.authSessionResolve sessionId
        { entry with session := updater entry.session } }

def pruneAuthSessionTouchCache (nowMs : Nat) : SessionCaches :=
  { caches with
    authSessionLastTouchedAt := pruneLruMapToMaxEntries
      (caches.authSessionLastTouchedAt.filter fun _ lastTouchedAtMs =>
        nowMs < lastTouchedAtMs + DEFAULT_SESSION_IDLE_TIMEOUT_MS +
          EXPIRED_AUTH_SESSION_SWEEP_INTERVAL_MS)
      MAX_AUTH_SESSION_TOUCH_CACHE_ENTRIES }

end SessionCaches

structure SessionStore where
  database : AuthDatabase
  caches : SessionCaches

structure ResolveSessionInput where
  sessionId : Option SessionId
  nowMs : Nat
  touch : Bool

namespace SessionStore

variable (store : SessionStore)

def maybeDeleteExpiredAuthSessions (nowMs : Nat) : SessionStore :=
  if store.caches.lastExpiredAuthSessionSweepAt ≠ 0 ∧
      nowMs < store.caches.lastExpiredAuthSessionSweepAt + EXPIRED_AUTH_SESSION_SWEEP_INTERVAL_MS
  then store
  else
    { database := store.database.deleteExpiredAuthSessions nowMs
      caches := { store.caches.pruneAuthSessionTouchCache nowMs with
        lastExpiredAuthSessionSweepAt := nowMs } }

def dropSession (sessionId : SessionId) : SessionStore where
  database := store.database.deleteAuthSession sessionId
  caches := store.caches.forgetSession sessionId

/-- `resolveSession` from the idle check on. -/
def resolveUnexpiredSession (session : AuthSessionRecord) (nowMs : Nat) (touch : Bool) :
    Option AuthSessionRecord × SessionStore :=
  let (touchedAt, caches) := store.caches.readAuthSessionLastTouchedAt session.id
  let store := { store with caches }
  let lastTouchedAtMs := touchedAt.getD session.lastUsedAt
  let sessionForIdleCheck :=
    if session.lastUsedAt < lastTouchedAtMs then { session with lastUsedAt := lastTouchedAtMs }
    else session
  if isSessionIdleExpired sessionForIdleCheck nowMs then (none, store.dropSession session.id)
  else if !touch then (some sessionForIdleCheck, store)
  else if lastTouchedAtMs + AUTH_SESSION_TOUCH_INTERVAL_MS ≤ nowMs then
    match store.database.touchAuthSessionIfExpiresAfter session.id nowMs nowMs with
    | (false, _) => (none, { store with caches := store.caches.forgetSession session.id })
    | (true, database) =>
      let touchedSession := { session with lastUsedAt := nowMs }
      (some touchedSession,
        { database
          caches := ((store.caches.recordAuthSessionTouchedAt session.id nowMs)
            |>.pruneAuthSessionTouchCache nowMs).recordResolvedAuthSession touchedSession nowMs })
  else (some sessionForIdleCheck, store)

def resolveSession (input : ResolveSessionInput) : Option AuthSessionRecord × SessionStore :=
  match input.sessionId with
  | none => (none, store)
  | some sessionId =>
    if sessionId = "" then (none, store)
    else
      let store := store.maybeDeleteExpiredAuthSessions input.nowMs
      let (cachedSession, caches) :=
        store.caches.readCachedResolvedAuthSession sessionId input.nowMs
      let store := { store with caches }
      match store.database.getAuthSession sessionId with
      | none =>
        if cachedSession.isSome then
          (none, { store with caches := store.caches.forgetSession sessionId })
        else (none, store)
      | some session =>
        let store :=
          { store with caches := store.caches.recordResolvedAuthSession session input.nowMs }
        if session.expiresAt ≤ input.nowMs then (none, store.dropSession session.id)
        else store.resolveUnexpiredSession session input.nowMs input.touch

def logout (sessionId : Option SessionId) : SessionStore :=
  match sessionId with
  | none => store
  | some sessionId => if sessionId = "" then store else store.dropSession sessionId

/-- The last part of `stepUpSession`. -/
def recordStepUp (sessionId : SessionId) (now : Nat) : SessionStore :=
  let stepUpValidUntil := some (now + DEFAULT_STEP_UP_LIFETIME_MS)
  { database := store.database.setAuthSessionStepUpValidUntil sessionId stepUpValidUntil
    caches := store.caches.updateCachedResolvedAuthSession sessionId fun session =>
      { session with stepUpValidUntil } }

def createSessionRecord (sessionId : SessionId) (userId : UserId) (sessionLifetimeDays now : Nat) :
    SessionStore :=
  { store with
    database := ((store.database.deleteExpiredAuthSessions now)
      |>.deleteExpiredAuthWebSocketTickets now).createAuthSession sessionId
        { userId
          issuedAt := now
          expiresAt := addDays now sessionLifetimeDays
          lastUsedAt := now
          stepUpValidUntil := none } }

def issueWebSocketTicket (sessionId : SessionId) (ticketId : TicketId) (now : Nat) :
    Option AuthWebSocketTicket × SessionStore :=
  match store.resolveSession { sessionId, nowMs := now, touch := true } with
  | (none, store) => (none, store)
  | (some session, store) =>
    let ticket : AuthWebSocketTicket :=
      { sessionId := session.id
        issuedAt := now
        expiresAt := now + WEBSOCKET_TICKET_LIFETIME_MS
        consumedAt := none }
    (some ticket, { store with
      database := (store.database.deleteExpiredAuthWebSocketTickets now)
        |>.createAuthWebSocketTicket ticketId ticket })

def validateAndConsumeWebSocketTicket (sessionId : SessionId) (ticketId : TicketId) (now : Nat) :
    Bool × SessionStore :=
  match store.resolveSession { sessionId, nowMs := now, touch := false } with
  | (none, store) => (false, store)
  | (some session, store) =>
    match store.database.getAuthWebSocketTicket ticketId with
    | none => (false, store)
    | some ticket =>
      if ticket.sessionId ≠ session.id || ticket.consumedAt.isSome || ticket.expiresAt ≤ now
      then (false, store)
      else
        match store.database.consumeAuthWebSocketTicket ticketId now now session.id with
        | (false, _) => (false, store)
        | (true, database) => (true, { store with database })

/-- The session of an accepted RPC upgrade: the ticket is consumed, then the session is resolved
again. -/
@[grind =]
def upgradeWebSocket (sessionId : SessionId) (ticketId : TicketId) (now resolvedAt : Nat) :
    Option AuthSessionRecord × SessionStore :=
  match store.validateAndConsumeWebSocketTicket sessionId ticketId now with
  | (false, store) => (none, store)
  | (true, store) => store.resolveSession { sessionId, nowMs := resolvedAt, touch := true }

end SessionStore

end Metidos.Auth
