import Metidos.Auth.AttemptCore

/-!
Executable model of the sign-in flows, second part: the segments of each flow between its awaits,
and the steps of the system.  Statements of the database do not fail; `setupAuth` keeps its
transaction open over one await, in which other requests run on the same connection.
-/

namespace Metidos.Auth

structure Resumption where
  opened : Except AuthFailure StoredTotpSecret
  sessionId : SessionId

/-- What the awaited calls of a setup give; without a key `encryptAuthSecret` throws before it
waits for anything. -/
structure SetupResumption where
  recoveryCodeHashes : List CodeHash
  primaryFactorHash : Except AuthFailure String
  keyLoaded : Except AuthFailure Unit
  iv : List Char
  payload : List Char
  sessionId : SessionId

def Attempt.context? : Attempt → Option AttemptContext
  | .login context .. => some context
  | .recovery context .. => some context
  | .stepUp context .. => some context
  | .finished _ => none

def Attempt.succeeded : Attempt → Bool
  | .finished (.ok _) => true
  | _ => false

namespace AuthSystem

variable (system : AuthSystem)

def setDatabase (database : AuthDatabase) : AuthSystem :=
  { system with store := { system.store with database } }

def countFailure (context : AttemptContext) (otherwise : AuthFailure) : AuthSystem × Attempt :=
  match incrementFailedAttempts system.store.database context.user.id context.nowMs with
  | .error failure => (system, .finished (.error failure))
  | .ok (some lockedUntil, database) =>
    ({ system.setDatabase database with
        log := { system.log with locksRecorded := system.log.locksRecorded + 1 } },
      .finished (.error (.authLocked lockedUntil)))
  | .ok (none, database) => (system.setDatabase database, .finished (.error otherwise))

def clearFailures : AuthSystem := system.setDatabase system.store.database.resetAuthFailureState

def acceptTotp (environment : AuthEnvironment) (context : AttemptContext)
    (stored : StoredTotpSecret) (totpCode : List Char) : Bool × AuthSystem :=
  match verifyTotpMatchedCounter environment stored totpCode context.nowMs with
  | none => (false, system)
  | some matchedCounter =>
    match system.store.database.tryAdvanceTotpLastUsedCounter matchedCounter with
    | (false, _) => (false, system)
    | (true, database) =>
      (true, { system.setDatabase database with
        log := { system.log with
          acceptedCounters := system.log.acceptedCounters ++ [matchedCounter] } })

def createSession (sessionId : SessionId) (userId : UserId) (sessionLifetimeDays nowMs : Nat) :
    AuthSystem :=
  { system with
    store := system.store.createSessionRecord sessionId userId sessionLifetimeDays nowMs
    log := { system.log with issuedSessions := system.log.issuedSessions ++ [sessionId] } }

def finishLogin (context : AttemptContext) (matchingCodeHash : Option CodeHash)
    (sessionId : SessionId) : AuthSystem × Attempt :=
  let system := system.createSession sessionId context.user.id
    context.settings.sessionLifetimeDays context.nowMs
  ({ system with
      log := { system.log with
        recoveryLogins := system.log.recoveryLogins ++ matchingCodeHash.toList } },
    .finished (.ok (.session sessionId)))

def resumeLogin (environment : AuthEnvironment) (context : AttemptContext) (primaryFactor : String)
    (totpCode : List Char) (phase : LoginPhase) (resumption : Resumption) :
    AuthSystem × Attempt :=
  match phase with
  | .verifyingPrimaryFactor =>
    let primaryFactorValid :=
      environment.verifyPrimaryFactor primaryFactor context.settings.primaryFactorHash
    if hasTotpEnrollment context.settings then
      (system, .login context primaryFactor totpCode (.decryptingSecret primaryFactorValid))
    else if primaryFactorValid then
      (system, .finished (.error (.totpSetupRequired context.user.username)))
    else system.countFailure context .theProvidedCredentialsAreInvalid
  | .decryptingSecret primaryFactorValid =>
    match decryptAuthSecret context.settings.totpSecretCiphertext resumption.opened with
    | .error failure => (system, .finished (.error failure))
    | .ok stored =>
      (system, .login context primaryFactor totpCode (.verifyingTotp primaryFactorValid stored))
  | .verifyingTotp primaryFactorValid stored =>
    let (totpValid, system) := system.acceptTotp environment context stored totpCode
    if !primaryFactorValid || !totpValid then
      system.countFailure context .theProvidedCredentialsAreInvalid
    else (system.clearFailures, .login context primaryFactor totpCode .creatingSession)
  | .creatingSession => system.finishLogin context none resumption.sessionId

def resumeRecovery (environment : AuthEnvironment) (context : AttemptContext)
    (primaryFactor recoveryCode : String) (phase : RecoveryPhase) (resumption : Resumption) :
    AuthSystem × Attempt :=
  match phase with
  | .verifyingPrimaryFactor =>
    if environment.verifyPrimaryFactor primaryFactor context.settings.primaryFactorHash then
      (system, .recovery context primaryFactor recoveryCode
        (.matchingCode system.store.database.listAuthRecoveryCodes none))
    else system.countFailure context .theProvidedCredentialsAreInvalid
  | .matchingCode (record :: remaining) matchingCodeHash =>
    let isMatch := environment.verifyRecoveryCode recoveryCode record.codeHash
    let matchingCodeHash :=
      if isMatch && record.usedAt.isNone && matchingCodeHash.isNone then some record.codeHash
      else matchingCodeHash
    (system, .recovery context primaryFactor recoveryCode
      (.matchingCode remaining matchingCodeHash))
  | .matchingCode [] none =>
    system.countFailure context
      (if hasTotpEnrollment context.settings then .theProvidedCredentialsAreInvalid
      else .totpSetupRequired context.user.username)
  | .matchingCode [] (some codeHash) =>
    match system.store.database.markAuthRecoveryCodeUsed codeHash context.nowMs with
    | (false, _) => (system, .finished (.error .theProvidedCredentialsAreInvalid))
    | (true, database) =>
      ((system.setDatabase database).clearFailures,
        .recovery context primaryFactor recoveryCode (.creatingSession codeHash))
  | .creatingSession codeHash =>
    system.finishLogin context (some codeHash) resumption.sessionId

def resumeStepUp (environment : AuthEnvironment) (context : AttemptContext) (sessionId : SessionId)
    (primaryFactor : String) (totpCode : List Char) (phase : StepUpPhase)
    (resumption : Resumption) : AuthSystem × Attempt :=
  match phase with
  | .verifyingPrimaryFactor =>
    if environment.verifyPrimaryFactor primaryFactor context.settings.primaryFactorHash then
      (system, .stepUp context sessionId primaryFactor totpCode .decryptingSecret)
    else system.countFailure context .theProvidedCredentialsAreInvalid
  | .decryptingSecret =>
    match decryptAuthSecret context.settings.totpSecretCiphertext resumption.opened with
    | .error failure => (system, .finished (.error failure))
    | .ok stored =>
      (system, .stepUp context sessionId primaryFactor totpCode (.verifyingTotp stored))
  | .verifyingTotp stored =>
    let (totpValid, system) := system.acceptTotp environment context stored totpCode
    if !totpValid then system.countFailure context .theProvidedCredentialsAreInvalid
    else
      let system := system.clearFailures
      ({ system with store := system.store.recordStepUp sessionId context.nowMs },
        .finished (.ok (.stepUp (context.nowMs + DEFAULT_STEP_UP_LIFETIME_MS))))

/-- One request from an await to the next, or `none` for one that has ended. -/
def resumeAttempt (environment : AuthEnvironment) (resumption : Resumption) :
    Attempt → Option (AuthSystem × Attempt)
  | .login context primaryFactor totpCode phase =>
    some (system.resumeLogin environment context primaryFactor totpCode phase resumption)
  | .recovery context primaryFactor recoveryCode phase =>
    some (system.resumeRecovery environment context primaryFactor recoveryCode phase resumption)
  | .stepUp context sessionId primaryFactor totpCode phase =>
    some (system.resumeStepUp environment context sessionId primaryFactor totpCode phase
      resumption)
  | .finished _ => none

def beginAttempt (checked : Except AuthFailure ConfiguredAuthUser × AuthDatabase) (nowMs : Nat)
    (continued : AttemptContext → Attempt) : AuthSystem :=
  let system := system.setDatabase checked.2
  let attempt :=
    match checked.1 with
    | .error failure => .finished (.error failure)
    | .ok configured =>
      continued {
        nowMs
        settings := configured.settings
        user := configured.user
        locksSeen := system.log.locksRecorded }
  { system with attempts := system.attempts ++ [attempt] }

def startLogin (username : Option String) (primaryFactor : String) (totpCode : List Char)
    (nowMs : Nat) : AuthSystem :=
  system.beginAttempt
    (enforceConfiguredUserByUsername system.store.database
      (resolveAuthInputUsername system.store.database username) nowMs)
    nowMs fun context => .login context primaryFactor totpCode .verifyingPrimaryFactor

def startRecovery (username : Option String) (primaryFactor recoveryCode : String)
    (nowMs : Nat) : AuthSystem :=
  system.beginAttempt
    (enforceConfiguredUserByUsername system.store.database
      (resolveAuthInputUsername system.store.database username) nowMs)
    nowMs fun context => .recovery context primaryFactor recoveryCode .verifyingPrimaryFactor

def startStepUp (sessionId : SessionId) (primaryFactor : String) (totpCode : List Char)
    (nowMs : Nat) : AuthSystem :=
  match system.store.resolveSession { sessionId := some sessionId, nowMs, touch := true } with
  | (none, store) =>
    { system with
      store
      attempts := system.attempts ++ [.finished (.error .sessionRequired)] }
  | (some session, store) =>
    let system := { system with store }
    system.beginAttempt (enforceConfiguredUserById system.store.database session.userId nowMs)
      nowMs fun context =>
        .stepUp context session.id primaryFactor totpCode .verifyingPrimaryFactor

end AuthSystem

section Setup

def normalizeSessionLifetimeDays (value : Option Nat) : Except AuthFailure Nat :=
  match value with
  | none => .ok DEFAULT_SESSION_LIFETIME_DAYS
  | some days =>
    if days < 1 ∨ 30 < days then
      .error (.error "Session lifetime must be an integer between 1 and 30.")
    else .ok days

/-- The checks of `setupAuth` before its first await: the operator to complete, if there is one. -/
def checkSetup (database : AuthDatabase) (username : String) (now : Nat) :
    Except AuthFailure (Option ConfiguredAuthUser) × AuthDatabase :=
  match database.getUserByUsername username with
  | none =>
    if 0 < database.countConfiguredAuthUsers then
      (.error (.configuredForAnother username), database)
    else (.ok none, database)
  | some user =>
    if !user.enabled then (.error .userDisabled, database)
    else
      match readCurrentAuthSettingsForUser database now with
      | (none, database) => (.error (.settingsMissing username), database)
      | (some settings, database) =>
        if hasTotpEnrollment settings then (.error (.alreadyConfigured username), database)
        else
          match settings.lockedUntil with
          | some lockedUntil => (.error (.authLocked lockedUntil), database)
          | none => (.ok (some { settings, user }), database)

def recheckSetup (database : AuthDatabase) (context : SetupContext) :
    Except AuthFailure (UserRecord × AuthDatabase) :=
  match context.existing with
  | some existing =>
    match readCurrentAuthSettingsForUser database context.nowMs with
    | (none, _) => .error (.settingsMissing context.username)
    | (some settings, database) =>
      if hasTotpEnrollment settings then .error (.alreadyConfigured context.username)
      else .ok (existing.user, database.resetAuthFailureState)
  | none =>
    if database.countConfiguredAuthUsers ≠ 0 then
      .error (.configuredForAnother context.username)
    else if (database.getUserByUsername context.username).isSome then
      .error (.alreadyConfigured context.username)
    else .ok (database.createUser context.username true)

def Setup.isQueued : Setup → Bool
  | .running _ (.queued ..) => true
  | .running _ (.encryptingSecret ..) => true
  | _ => false

namespace AuthSystem

variable (system : AuthSystem)

def startSetup (input : SetupInput) (nowMs : Nat) : AuthSystem :=
  let username := resolveAuthInputUsername system.store.database input.username
  let (checked, database) := checkSetup system.store.database username nowMs
  let setup : Setup :=
    match checked with
    | .error failure => .finished (.error failure)
    | .ok existing => .running { input, username, nowMs, existing } .verifyingTotp
  { system.setDatabase database with setups := system.setups ++ [setup] }

def queueSetup (context : SetupContext) (matchedCounter : Nat) (material : SetupMaterial) :
    Setup :=
  if MAX_IMMEDIATE_TRANSACTION_QUEUE_DEPTH ≤ system.setups.countP Setup.isQueued then
    .finished (.error .rateLimited)
  else .running context (.queued matchedCounter material)

/-- The statements of `setupAuth` after its secret has been encrypted, up to `COMMIT`. -/
def commitSetup (context : SetupContext) (matchedCounter : Nat) (material : SetupMaterial)
    (user : UserRecord) (resumption : SetupResumption) : AuthSystem × Setup :=
  let database := (system.store.database.upsertAuthSettings material.primaryFactorHash
    (encryptAuthSecret resumption.iv resumption.payload) material.sessionLifetimeDays)
      |>.replaceAuthRecoveryCodeHashes material.recoveryCodeHashes
  let system := (system.setDatabase database).createSession resumption.sessionId user.id
    material.sessionLifetimeDays context.nowMs
  ({ system with
      openTransaction := none
      log := { system.log with
        acceptedCounters := system.log.acceptedCounters ++ [matchedCounter]
        setupCounters := system.log.setupCounters ++ [matchedCounter] } },
    .finished (.ok resumption.sessionId))

@[grind =] def resumeSetup (environment : AuthEnvironment) (setup : Nat) (context : SetupContext)
    (phase : SetupPhase) (resumption : SetupResumption) : Option (AuthSystem × Setup) :=
  match phase with
  | .verifyingTotp =>
    match verifyTotpMatchedCounter environment
        { secret := context.input.totpSecret, algorithm := .sha256 } context.input.totpCode
        context.nowMs with
    | none =>
      some (system,
        .finished (.error (.invalidCredentials "The provided TOTP code is invalid.")))
    | some matchedCounter =>
      match normalizeSessionLifetimeDays context.input.sessionLifetimeDays with
      | .error failure => some (system, .finished (.error failure))
      | .ok days =>
        some (system, .running context (.hashingRecoveryCodes matchedCounter days))
  | .hashingRecoveryCodes matchedCounter days =>
    let codeHashes := resumption.recoveryCodeHashes
    if codeHashes.Nodup ∧ ∀ codeHash ∈ codeHashes, codeHash ∉ system.log.issuedCodes then
      some ({ system with
          log := { system.log with issuedCodes := system.log.issuedCodes ++ codeHashes } },
        .running context (.preparingPrimaryFactor matchedCounter days codeHashes))
    else none
  | .preparingPrimaryFactor matchedCounter days recoveryCodeHashes =>
    match context.existing with
    | some { settings, user } =>
      if environment.verifyPrimaryFactor context.input.primaryFactor
          settings.primaryFactorHash then
        some (system, system.queueSetup context matchedCounter
          { recoveryCodeHashes
            primaryFactorHash := settings.primaryFactorHash
            sessionLifetimeDays := settings.sessionLifetimeDays })
      else
        let attempt : AttemptContext :=
          { nowMs := context.nowMs, settings, user, locksSeen := system.log.locksRecorded }
        let (system, counted) :=
          system.countFailure attempt .theProvidedCredentialsAreInvalid
        match counted with
        | .finished (.error failure) => some (system, .finished (.error failure))
        | _ => none
    | none =>
      match resumption.primaryFactorHash with
      | .error failure => some (system, .finished (.error failure))
      | .ok primaryFactorHash =>
        some (system, system.queueSetup context matchedCounter
          { recoveryCodeHashes, primaryFactorHash, sessionLifetimeDays := days })
  | .queued matchedCounter material =>
    if system.openTransaction.isSome then none
    else
      -- a refusal rolls back a transaction in which nobody else has run
      match recheckSetup system.store.database context, resumption.keyLoaded with
      | .error failure, _ => some (system, .finished (.error failure))
      | .ok _, .error failure => some (system, .finished (.error failure))
      | .ok (user, database), .ok () =>
        some ({ system.setDatabase database with openTransaction := some setup },
          .running context (.encryptingSecret matchedCounter material user))
  | .encryptingSecret matchedCounter material user =>
    if resumption.sessionId = "" ∨ resumption.sessionId ∈ system.log.issuedSessions then none
    else some (system.commitSetup context matchedCounter material user resumption)

end AuthSystem

end Setup

inductive AuthEvent
  | advanceClock (nowMs : Nat)
  | startLogin (username : Option String) (primaryFactor : String) (totpCode : List Char)
      (nowMs : Nat)
  | startRecovery (username : Option String) (primaryFactor recoveryCode : String) (nowMs : Nat)
  | startStepUp (sessionId : SessionId) (primaryFactor : String) (totpCode : List Char)
      (nowMs : Nat)
  | resumeAttempt (attempt : Nat) (resumption : Resumption)
  | startSetup (input : SetupInput) (nowMs : Nat)
  | resumeSetup (setup : Nat) (resumption : SetupResumption)
  | resolveSession (input : ResolveSessionInput)
  | getAuthStatus (sessionId : Option SessionId) (nowMs : Nat)
  | logout (sessionId : Option SessionId)
  | issueWebSocketTicket (sessionId : SessionId) (ticketId : TicketId) (nowMs : Nat)
  | upgradeWebSocket (sessionId : SessionId) (ticketId : TicketId) (resolvedAt : Nat)
  | resetUserOtpEnrollment
  | updateUserEnabled (userId : UserId) (enabled : Bool)
  | finalizePrimaryFactorReset (settings : AuthSettings) (primaryFactorHash : String)
  | regenerateRecoveryCodes (codeHashes : List CodeHash)

namespace AuthSystem

variable (system : AuthSystem)

def getAuthStatus (sessionId : Option SessionId) (nowMs : Nat) : AuthSystem :=
  match system.store.resolveSession { sessionId, nowMs, touch := false } with
  | (none, store) => { system with store }
  | (some _, store) =>
    { system with store }.setDatabase (readCurrentAuthSettingsForUser store.database nowMs).2

def issueWebSocketTicket (sessionId : SessionId) (ticketId : TicketId) (nowMs : Nat) :
    AuthSystem :=
  match system.store.issueWebSocketTicket sessionId ticketId nowMs with
  | (none, store) => { system with store }
  | (some ticket, store) =>
    { system with
      store
      log := { system.log with issuedTickets := system.log.issuedTickets.set ticketId ticket } }

@[grind =] def upgradeWebSocket (sessionId : SessionId) (ticketId : TicketId) (resolvedAt : Nat) :
    AuthSystem :=
  match system.store.upgradeWebSocket sessionId ticketId system.clock resolvedAt with
  | (none, store) => { system with store, clock := resolvedAt }
  | (some session, store) =>
    { system with
      store
      clock := resolvedAt
      log := { system.log with
        upgrades := system.log.upgrades ++ [{ ticketId, sessionId := session.id }] } }

/-- The statements of `finalizePrimaryFactorReset`, whose settings were read by its caller. -/
def finalizePrimaryFactorReset (settings : AuthSettings) (primaryFactorHash : String) :
    AuthSystem :=
  { system with
    store :=
      { database := ((system.store.database.upsertAuthSettings primaryFactorHash
          settings.totpSecretCiphertext settings.sessionLifetimeDays).resetAuthFailureState)
            |>.deleteAllAuthSessions
        caches := system.store.caches.clearAuthSessionTouchCache } }

end AuthSystem

/-- Random ids and salted hashes are new whenever they are drawn.  A request carries the time at
which it arrived, and an upgrade reads the clock.  The recovery codes are regenerated by a process
of its own, which waits for an open transaction. -/
@[grind =] def authStep (environment : AuthEnvironment) (system : AuthSystem) :
    AuthEvent → Option AuthSystem
  | .advanceClock nowMs => if nowMs < system.clock then none else some { system with clock := nowMs }
  | .startLogin username primaryFactor totpCode nowMs =>
    if system.clock < nowMs then none
    else some (system.startLogin username primaryFactor totpCode nowMs)
  | .startRecovery username primaryFactor recoveryCode nowMs =>
    if system.clock < nowMs then none
    else some (system.startRecovery username primaryFactor recoveryCode nowMs)
  | .startStepUp sessionId primaryFactor totpCode nowMs =>
    if system.clock < nowMs then none
    else some (system.startStepUp sessionId primaryFactor totpCode nowMs)
  | .resumeAttempt id resumption =>
    if resumption.sessionId = "" ∨ resumption.sessionId ∈ system.log.issuedSessions then none
    else do
      let attempt ← system.attempts[id]?
      let (system, attempt) ← system.resumeAttempt environment resumption attempt
      some { system with attempts := system.attempts.set id attempt }
  | .startSetup input nowMs =>
    if system.clock < nowMs then none else some (system.startSetup input nowMs)
  | .resumeSetup id resumption =>
    match system.setups[id]? with
    | some (.running context phase) => do
        let (system, setup) ← system.resumeSetup environment id context phase resumption
        some { system with setups := system.setups.set id setup }
    | _ => none
  | .resolveSession input =>
    if system.clock < input.nowMs then none
    else some { system with store := (system.store.resolveSession input).2 }
  | .getAuthStatus sessionId nowMs =>
    if system.clock < nowMs then none else some (system.getAuthStatus sessionId nowMs)
  | .logout sessionId => some { system with store := system.store.logout sessionId }
  | .issueWebSocketTicket sessionId ticketId nowMs =>
    if system.clock < nowMs ∨ (system.log.issuedTickets.get? ticketId).isSome then none
    else some (system.issueWebSocketTicket sessionId ticketId nowMs)
  | .upgradeWebSocket sessionId ticketId resolvedAt =>
    if resolvedAt < system.clock then none
    else some (system.upgradeWebSocket sessionId ticketId resolvedAt)
  | .resetUserOtpEnrollment =>
    some (system.setDatabase system.store.database.resetUserOtpEnrollment)
  | .updateUserEnabled userId enabled =>
    some (system.setDatabase (system.store.database.updateUserEnabled userId enabled))
  | .finalizePrimaryFactorReset settings primaryFactorHash =>
    some (system.finalizePrimaryFactorReset settings primaryFactorHash)
  | .regenerateRecoveryCodes codeHashes =>
    if system.openTransaction.isSome then none
    else if codeHashes.Nodup ∧ ∀ codeHash ∈ codeHashes, codeHash ∉ system.log.issuedCodes then
      some { system.setDatabase
          (system.store.database.replaceAuthRecoveryCodeHashes codeHashes) with
        log := { system.log with issuedCodes := system.log.issuedCodes ++ codeHashes } }
    else none

end Metidos.Auth
