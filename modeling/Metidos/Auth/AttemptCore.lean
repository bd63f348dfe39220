import Metidos.Auth.SessionCore

/-!
Executable model of the sign-in flows: the lockout state of `src/bun/auth/service-core.ts`, the TOTP
check of `index.ts`, and the login, recovery login, step-up and setup of `service-login.ts` and
`service-session.ts`.  A flow is cut at its awaits, and a step of the system runs one request from
one await to the next, so that requests interleave in every order.
-/

namespace Metidos.Auth

def LOGIN_LOCKOUT_AFTER_FAILURES : Nat := 3

def LOGIN_LOCKOUT_WINDOW_MS : Nat := 10 * 60 * 1000

def DEFAULT_SESSION_LIFETIME_DAYS : Nat := 7

def DEFAULT_TOTP_DIGITS : Nat := 6

def DEFAULT_TOTP_PERIOD_SECONDS : Nat := 30

def MAX_IMMEDIATE_TRANSACTION_QUEUE_DEPTH : Nat := 100

def DEFAULT_LOCAL_OPERATOR_USERNAME : String := "metidos"

def AUTH_SECRET_VERSION : List Char := "v2".toList

inductive AuthServiceErrorCode
  | authLocked
  | authNotConfigured
  | authSecretUnavailable
  | invalidCredentials
  | rateLimited
  | sessionRequired
  | totpSetupRequired
  | userDisabled
  | usernameTaken
  deriving DecidableEq

structure AuthServiceError where
  code : AuthServiceErrorCode
  message : String
  status : Nat
  lockedUntil : Option Nat := none
  username : Option String := none
  deriving DecidableEq

inductive AuthFailure
  | service (error : AuthServiceError)
  | error (message : String)
  deriving DecidableEq

namespace AuthFailure

def authNotConfigured : AuthFailure :=
  .service {
    code := .authNotConfigured
    message := "Authentication is not configured yet."
    status := 409 }

def invalidCredentials (message : String) : AuthFailure :=
  .service { code := .invalidCredentials, message, status := 401 }

def theProvidedCredentialsAreInvalid : AuthFailure :=
  invalidCredentials "The provided credentials are invalid."

def authLocked (lockedUntil : Nat) : AuthFailure :=
  .service {
    code := .authLocked
    message := "Too many failed authentication attempts. Try again later."
    status := 423
    lockedUntil := some lockedUntil }

def userDisabled : AuthFailure :=
  .service { code := .userDisabled, message := "The user account is disabled.", status := 403 }

def sessionRequired : AuthFailure :=
  .service {
    code := .sessionRequired
    message := "A valid authenticated session is required."
    status := 401 }

def totpSetupRequired (username : String) : AuthFailure :=
  .service {
    code := .totpSetupRequired
    message := "Complete authenticator setup to finish signing in."
    status := 409
    username := some username }

def authSecretUnavailable : AuthFailure :=
  .service {
    code := .authSecretUnavailable
    message := "Auth secret key material is unavailable. Restore the original key file or complete " ++
      "a full auth reset before continuing."
    status := 503 }

def usernameTaken (message : String) : AuthFailure :=
  .service { code := .usernameTaken, message, status := 409 }

def alreadyConfigured (username : String) : AuthFailure :=
  usernameTaken ("The username \"" ++ username ++ "\" is already configured.")

def configuredForAnother (username : String) : AuthFailure :=
  usernameTaken ("Authentication is already configured for the local operator. Use the configured " ++
    "username instead of \"" ++ username ++ "\".")

def settingsMissing (username : String) : AuthFailure :=
  .service {
    code := .authNotConfigured
    message := "The username \"" ++ username ++ "\" cannot be configured because its " ++
      "authentication settings are missing."
    status := 409 }

def rateLimited : AuthFailure :=
  .service {
    code := .rateLimited
    message := "Too many authentication requests are queued. Try again later."
    status := 503 }

end AuthFailure

section Lockout

def readCurrentAuthSettingsForUser (database : AuthDatabase) (now : Nat) :
    Option AuthSettings × AuthDatabase :=
  match database.authSettings with
  | none => (none, database)
  | some settings =>
    if settings.lockedUntil.any (· ≤ now) then
      (database.resetAuthFailureState.authSettings, database.resetAuthFailureState)
    else (some settings, database)

/-- `incrementFailedAttempts` over `readMutableAuthSettingsForUser`: the new lock, if any. -/
def incrementFailedAttempts (database : AuthDatabase) (userId : UserId) (now : Nat) :
    Except AuthFailure (Option Nat × AuthDatabase) :=
  match readCurrentAuthSettingsForUser database now with
  | (none, _) =>
    .error (.error s!"Authentication settings were not found for user {userId}.")
  | (some settings, database) =>
    let nextAttempts := settings.failedPrimaryFactorAttempts + 1
    if LOGIN_LOCKOUT_AFTER_FAILURES ≤ nextAttempts then
      let lockedUntil := now + LOGIN_LOCKOUT_WINDOW_MS
      .ok (some lockedUntil, database.setAuthFailureState 0 (some lockedUntil))
    else .ok (none, database.setAuthFailureState nextAttempts none)

structure ConfiguredAuthUser where
  settings : AuthSettings
  user : UserRecord
  deriving DecidableEq

def findConfiguredAuthUserByUsername (database : AuthDatabase) (username : String) (now : Nat) :
    Option ConfiguredAuthUser × AuthDatabase :=
  match database.getUserByUsername username with
  | none => (none, database)
  | some user =>
    if !user.enabled then (none, database)
    else
      match readCurrentAuthSettingsForUser database now with
      | (none, database) => (none, database)
      | (some settings, database) =>
        match database.getUserById user.id with
        | none => (none, database)
        | some configuredUser =>
          if !configuredUser.enabled || configuredUser.username ≠ user.username then
            (none, database)
          else (some { settings, user := configuredUser }, database)

def enforceConfiguredUserByUsername (database : AuthDatabase) (username : String) (now : Nat) :
    Except AuthFailure ConfiguredAuthUser × AuthDatabase :=
  if database.countConfiguredAuthUsers = 0 then (.error .authNotConfigured, database)
  else
    match findConfiguredAuthUserByUsername database username now with
    | (none, database) => (.error .theProvidedCredentialsAreInvalid, database)
    | (some resolved, database) =>
      match resolved.settings.lockedUntil with
      | some lockedUntil => (.error (.authLocked lockedUntil), database)
      | none => (.ok resolved, database)

def enforceConfiguredUserById (database : AuthDatabase) (userId : UserId) (now : Nat) :
    Except AuthFailure ConfiguredAuthUser × AuthDatabase :=
  match readCurrentAuthSettingsForUser database now with
  | (none, database) => (.error .authNotConfigured, database)
  | (some settings, database) =>
    match database.getUserById userId with
    | none => (.error .authNotConfigured, database)
    | some configuredUser =>
      if !configuredUser.enabled then (.error .userDisabled, database)
      else
        match settings.lockedUntil with
        | some lockedUntil => (.error (.authLocked lockedUntil), database)
        | none => (.ok { settings, user := configuredUser }, database)

def resolveAuthInputUsername (database : AuthDatabase) (username : Option String) : String :=
  username.getD (database.listKnownAuthUsernames.headD DEFAULT_LOCAL_OPERATOR_USERNAME)

end Lockout

section Totp

inductive TotpAlgorithm
  | sha1
  | sha256
  | sha512
  deriving DecidableEq

structure StoredTotpSecret where
  secret : String
  algorithm : TotpAlgorithm
  deriving DecidableEq

/-- The cryptographic primitives that the flows await. -/
structure AuthEnvironment where
  verifyPrimaryFactor : String → String → Bool
  verifyRecoveryCode : String → CodeHash → Bool
  hotp : String → Nat → TotpAlgorithm → List Char

def verifyTotpMatchedCounter (environment : AuthEnvironment) (stored : StoredTotpSecret)
    (code : List Char) (atMs : Nat) : Option Nat :=
  let normalizedCode := code.filter (!JsText.isWhiteSpace ·)
  if normalizedCode.length = DEFAULT_TOTP_DIGITS ∧ normalizedCode.all Char.isDigit then
    let currentCounter := atMs / 1000 / DEFAULT_TOTP_PERIOD_SECONDS
    -- the window is one step either way, and the step before the epoch is skipped
    let candidateCounters :=
      (if currentCounter = 0 then [] else [currentCounter - 1]) ++
        [currentCounter, currentCounter + 1]
    candidateCounters.find? fun candidateCounter =>
      normalizedCode = environment.hotp stored.secret candidateCounter stored.algorithm
  else none

/-- The ciphertext has the stored shape, and `opened` is what decrypting and parsing it gives. -/
def decryptAuthSecret (ciphertext : List Char) (opened : Except AuthFailure StoredTotpSecret) :
    Except AuthFailure StoredTotpSecret :=
  match ciphertext.splitOn '.' with
  | [version, iv, payload] =>
    if version = AUTH_SECRET_VERSION ∧ iv ≠ [] ∧ payload ≠ [] then opened
    else .error (.error "Invalid auth secret ciphertext.")
  | _ => .error (.error "Invalid auth secret ciphertext.")

def encryptAuthSecret (iv payload : List Char) : List Char :=
  AUTH_SECRET_VERSION ++ '.' :: (iv ++ '.' :: payload)

end Totp

/-- What a flow holds after its lock check; `locksSeen` counts the locks recorded until then. -/
structure AttemptContext where
  nowMs : Nat
  settings : AuthSettings
  user : UserRecord
  locksSeen : Nat
  deriving DecidableEq

inductive AttemptResult
  | session (sessionId : SessionId)
  | stepUp (stepUpValidUntil : Nat)
  deriving DecidableEq

/-- What `verifyPrimaryFactorAndTotp`, and then `login`, waits for. -/
inductive LoginPhase
  | verifyingPrimaryFactor
  | decryptingSecret (primaryFactorValid : Bool)
  | verifyingTotp (primaryFactorValid : Bool) (stored : StoredTotpSecret)
  | creatingSession
  deriving DecidableEq

/-- The recovery codes are checked one after the other against the list read before the first. -/
inductive RecoveryPhase
  | verifyingPrimaryFactor
  | matchingCode (remaining : List AuthRecoveryCode) (matchingCodeHash : Option CodeHash)
  | creatingSession (matchingCodeHash : CodeHash)
  deriving DecidableEq

inductive StepUpPhase
  | verifyingPrimaryFactor
  | decryptingSecret
  | verifyingTotp (stored : StoredTotpSecret)
  deriving DecidableEq

inductive Attempt
  | login (context : AttemptContext) (primaryFactor : String) (totpCode : List Char)
      (phase : LoginPhase)
  | recovery (context : AttemptContext) (primaryFactor recoveryCode : String)
      (phase : RecoveryPhase)
  | stepUp (context : AttemptContext) (sessionId : SessionId) (primaryFactor : String)
      (totpCode : List Char) (phase : StepUpPhase)
  | finished (result : Except AuthFailure AttemptResult)

structure SetupInput where
  username : Option String
  primaryFactor : String
  totpSecret : String
  totpCode : List Char
  sessionLifetimeDays : Option Nat
  deriving DecidableEq

structure SetupContext where
  input : SetupInput
  username : String
  nowMs : Nat
  existing : Option ConfiguredAuthUser
  deriving DecidableEq

structure SetupMaterial where
  recoveryCodeHashes : List CodeHash
  primaryFactorHash : String
  sessionLifetimeDays : Nat
  deriving DecidableEq

/-- Every phase after the TOTP check remembers the counter that the code matched, which the flow
itself drops. -/
inductive SetupPhase
  | verifyingTotp
  | hashingRecoveryCodes (matchedCounter requestedSessionLifetimeDays : Nat)
  | preparingPrimaryFactor (matchedCounter requestedSessionLifetimeDays : Nat)
      (recoveryCodeHashes : List CodeHash)
  | queued (matchedCounter : Nat) (material : SetupMaterial)
  | encryptingSecret (matchedCounter : Nat) (material : SetupMaterial) (user : UserRecord)
  deriving DecidableEq

inductive Setup
  | running (context : SetupContext) (phase : SetupPhase)
  | finished (result : Except AuthFailure SessionId)

structure Upgrade where
  ticketId : TicketId
  sessionId : SessionId
  deriving DecidableEq

/-- The history that the claims about runs speak of; no request reads it. -/
structure AuthLog where
  locksRecorded : Nat
  acceptedCounters : List Nat
  setupCounters : List Nat
  issuedSessions : List SessionId
  issuedCodes : List CodeHash
  recoveryLogins : List CodeHash
  issuedTickets : OrderedMap TicketId AuthWebSocketTicket
  upgrades : List Upgrade

structure AuthSystem where
  store : SessionStore
  clock : Nat
  attempts : List Attempt
  setups : List Setup
  openTransaction : Option Nat
  log : AuthLog

def AuthSystem.start (database : AuthDatabase) (clock : Nat) : AuthSystem where
  store := { database, caches := .empty }
  clock
  attempts := []
  setups := []
  openTransaction := none
  log :=
    { locksRecorded := 0
      acceptedCounters := []
      setupCounters := []
      issuedSessions := database.authSessions.keys
      issuedCodes := database.authRecoveryCodes.keys
      recoveryLogins := []
      issuedTickets := database.authWebSocketTickets
      upgrades := [] }

end Metidos.Auth
