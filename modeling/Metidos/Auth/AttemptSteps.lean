import Metidos.Auth.AttemptFlows
import Metidos.Auth.SessionSteps

/-!
What one segment of a flow does.  A segment waits or is refused and changes nothing, or it decides
its attempt: it counts a failure, clears the failures, consumes a recovery code, grants a step-up or
creates a session.  The lock checks and the failure counts change the failure state alone.
-/

namespace Metidos.Auth

def FailuresOnly (after before : AuthDatabase) : Prop :=
  ∃ failedPrimaryFactorAttempts lockedUntil,
    after = before.setAuthFailureState failedPrimaryFactorAttempts lockedUntil

structure SessionsOnly (after before : AuthDatabase) : Prop where
  users : after.users = before.users
  authSettings : after.authSettings = before.authSettings
  authRecoveryCodes : after.authRecoveryCodes = before.authRecoveryCodes

namespace AuthDatabase

variable (database : AuthDatabase)

def lockedUntil : Option Nat := database.authSettings.bind (·.lockedUntil)

def totpLastUsedCounter : Option Nat := database.authSettings.bind (·.totpLastUsedCounter)

def isEnrolled : Bool := database.authSettings.any hasTotpEnrollment

@[simp] theorem setAuthFailureState_twice (attempts again : Nat) (lockedUntil later : Option Nat) :
    (database.setAuthFailureState attempts lockedUntil).setAuthFailureState again later =
      database.setAuthFailureState again later := by
  simp [setAuthFailureState, Function.comp_def]

theorem setAuthFailureState_lockedUntil (attempts : Nat) (lockedUntil : Option Nat) :
    (database.setAuthFailureState attempts lockedUntil).lockedUntil =
      if database.authSettings.isSome then lockedUntil else none := by
  cases found : database.authSettings <;>
    simp [AuthDatabase.lockedUntil, setAuthFailureState, found]

@[simp] theorem resetAuthFailureState_lockedUntil :
    database.resetAuthFailureState.lockedUntil = none := by
  simp [resetAuthFailureState, setAuthFailureState_lockedUntil]

end AuthDatabase

namespace FailuresOnly

variable {before middle after : AuthDatabase}

theorem refl (database : AuthDatabase) : FailuresOnly database database := by
  cases found : database.authSettings with
  | none =>
    refine ⟨0, none, ?_⟩
    rw [AuthDatabase.setAuthFailureState, found, Option.map_none, ← found]
  | some settings =>
    refine ⟨settings.failedPrimaryFactorAttempts, settings.lockedUntil, ?_⟩
    rw [AuthDatabase.setAuthFailureState, found, Option.map_some, ← found]

theorem trans (second : FailuresOnly after middle) (first : FailuresOnly middle before) :
    FailuresOnly after before := by
  obtain ⟨attempts, lockedUntil, rfl⟩ := first
  obtain ⟨again, later, rfl⟩ := second
  exact ⟨again, later, before.setAuthFailureState_twice attempts again lockedUntil later⟩

theorem setState (database : AuthDatabase) (attempts : Nat) (lockedUntil : Option Nat) :
    FailuresOnly (database.setAuthFailureState attempts lockedUntil) database :=
  ⟨attempts, lockedUntil, rfl⟩

theorem reset (database : AuthDatabase) : FailuresOnly database.resetAuthFailureState database :=
  setState database 0 none

theorem isEnrolled (only : FailuresOnly after before) : after.isEnrolled = before.isEnrolled := by
  obtain ⟨attempts, lockedUntil, rfl⟩ := only
  cases found : before.authSettings <;>
    simp [AuthDatabase.isEnrolled, AuthDatabase.setAuthFailureState, found, hasTotpEnrollment]

theorem totpLastUsedCounter (only : FailuresOnly after before) :
    after.totpLastUsedCounter = before.totpLastUsedCounter := by
  obtain ⟨attempts, lockedUntil, rfl⟩ := only
  cases found : before.authSettings <;>
    simp [AuthDatabase.totpLastUsedCounter, AuthDatabase.setAuthFailureState, found]

theorem authRecoveryCodes (only : FailuresOnly after before) :
    after.authRecoveryCodes = before.authRecoveryCodes := by
  obtain ⟨attempts, lockedUntil, rfl⟩ := only
  rfl

theorem authSessions (only : FailuresOnly after before) :
    after.authSessions = before.authSessions := by
  obtain ⟨attempts, lockedUntil, rfl⟩ := only
  rfl

theorem authWebSocketTickets (only : FailuresOnly after before) :
    after.authWebSocketTickets = before.authWebSocketTickets := by
  obtain ⟨attempts, lockedUntil, rfl⟩ := only
  rfl

end FailuresOnly

section LockChecks

variable (database : AuthDatabase) (now : Nat)

theorem readCurrentAuthSettingsForUser_cases :
    (readCurrentAuthSettingsForUser database now).2 = database ∨
      database.lockedUntil.any (· ≤ now) ∧
        (readCurrentAuthSettingsForUser database now).2 = database.resetAuthFailureState := by
  rw [readCurrentAuthSettingsForUser]
  split
  · exact .inl rfl
  · rename_i settings found
    split
    · rename_i passed
      exact .inr ⟨by rw [AuthDatabase.lockedUntil, found]; exact passed, rfl⟩
    · exact .inl rfl

theorem readCurrentAuthSettingsForUser_failuresOnly :
    FailuresOnly (readCurrentAuthSettingsForUser database now).2 database := by
  rcases readCurrentAuthSettingsForUser_cases database now with kept | ⟨_, reset⟩
  · rw [kept]
    exact .refl database
  · rw [reset]
    exact .reset database

theorem readCurrentAuthSettingsForUser_fst :
    (readCurrentAuthSettingsForUser database now).1 =
      (readCurrentAuthSettingsForUser database now).2.authSettings := by
  rw [readCurrentAuthSettingsForUser]
  split
  · rename_i absent
    exact absent.symm
  · rename_i settings found
    split
    · rfl
    · exact found.symm

/-- What a lock check leaves behind: the failure state as one read of it does, and settings without
a lock when it passes. -/
structure LockChecked (checked : Except AuthFailure ConfiguredAuthUser × AuthDatabase) :
    Prop where
  database : checked.2 = database ∨ checked.2 = (readCurrentAuthSettingsForUser database now).2
  passed : ∀ configured, checked.1 = .ok configured →
    checked.2.authSettings = some configured.settings ∧ configured.settings.lockedUntil = none

variable {database now}

theorem LockChecked.failuresOnly
    {checked : Except AuthFailure ConfiguredAuthUser × AuthDatabase}
    (holds : LockChecked database now checked) : FailuresOnly checked.2 database := by
  rcases holds.database with kept | read
  · rw [kept]
    exact .refl database
  · rw [read]
    exact readCurrentAuthSettingsForUser_failuresOnly database now

theorem LockChecked.locked {checked : Except AuthFailure ConfiguredAuthUser × AuthDatabase}
    (holds : LockChecked database now checked) {lockedUntil : Nat}
    (locked : database.lockedUntil = some lockedUntil) (inForce : now < lockedUntil) :
    checked.2 = database := by
  rcases holds.database with kept | read
  · exact kept
  · rcases readCurrentAuthSettingsForUser_cases database now with kept | ⟨passed, _⟩
    · rw [read, kept]
    · rw [locked] at passed
      simp at passed
      omega

theorem findConfiguredAuthUserByUsername_checked (database : AuthDatabase) (now : Nat)
    (username : String) :
    (findConfiguredAuthUserByUsername database username now).2 = database ∧
        (findConfiguredAuthUserByUsername database username now).1 = none ∨
      (findConfiguredAuthUserByUsername database username now).2 =
          (readCurrentAuthSettingsForUser database now).2 ∧
        ∀ configured,
          (findConfiguredAuthUserByUsername database username now).1 = some configured →
            (readCurrentAuthSettingsForUser database now).2.authSettings =
              some configured.settings := by
  have settingsRead := readCurrentAuthSettingsForUser_fst database now
  rw [findConfiguredAuthUserByUsername]
  split
  · exact .inl ⟨rfl, rfl⟩
  split
  · exact .inl ⟨rfl, rfl⟩
  right
  split
  · rename_i next read
    rw [read]
    exact ⟨rfl, fun configured found => absurd found (by simp)⟩
  · rename_i settings next read
    rw [read] at settingsRead ⊢
    split
    · exact ⟨rfl, fun configured found => absurd found (by simp)⟩
    · split
      · exact ⟨rfl, fun configured found => absurd found (by simp)⟩
      · refine ⟨rfl, ?_⟩
        intro configured found
        cases Option.some.inj found
        exact settingsRead.symm

theorem enforceConfiguredUserByUsername_checked (username : String) :
    LockChecked database now (enforceConfiguredUserByUsername database username now) := by
  rw [enforceConfiguredUserByUsername]
  split
  · exact ⟨.inl rfl, fun configured ok => absurd ok (by simp)⟩
  have found := findConfiguredAuthUserByUsername_checked database now username
  split
  · rename_i next search
    rw [search] at found
    refine ⟨?_, fun configured ok => absurd ok (by simp)⟩
    rcases found with ⟨kept, _⟩ | ⟨read, _⟩
    · exact .inl kept
    · exact .inr read
  · rename_i resolved next search
    rw [search] at found
    rcases found with ⟨_, absent⟩ | ⟨read, settings⟩
    · exact absurd absent (by simp)
    split
    · exact ⟨.inr read, fun configured ok => absurd ok (by simp)⟩
    · rename_i unlocked
      refine ⟨.inr read, ?_⟩
      intro configured ok
      cases Except.ok.inj ok
      refine ⟨?_, unlocked⟩
      rw [read]
      exact settings _ rfl

theorem enforceConfiguredUserById_checked (userId : UserId) :
    LockChecked database now (enforceConfiguredUserById database userId now) := by
  have settingsRead := readCurrentAuthSettingsForUser_fst database now
  rw [enforceConfiguredUserById]
  split
  · rename_i next read
    rw [read] at settingsRead
    exact ⟨.inr (by rw [read]), fun configured ok => absurd ok (by simp)⟩
  · rename_i settings next read
    rw [read] at settingsRead
    split
    · exact ⟨.inr (by rw [read]), fun configured ok => absurd ok (by simp)⟩
    · split
      · exact ⟨.inr (by rw [read]), fun configured ok => absurd ok (by simp)⟩
      · split
        · exact ⟨.inr (by rw [read]), fun configured ok => absurd ok (by simp)⟩
        · rename_i unlocked
          refine ⟨.inr (by rw [read]), ?_⟩
          intro configured ok
          cases Except.ok.inj ok
          exact ⟨settingsRead.symm, unlocked⟩

theorem incrementFailedAttempts_spec {userId : UserId} {locked : Option Nat}
    {next : AuthDatabase}
    (counted : incrementFailedAttempts database userId now = .ok (locked, next)) :
    FailuresOnly next database ∧ next.lockedUntil = locked := by
  have only := readCurrentAuthSettingsForUser_failuresOnly database now
  have settingsRead := readCurrentAuthSettingsForUser_fst database now
  rw [incrementFailedAttempts] at counted
  split at counted
  · exact absurd counted (by simp)
  · rename_i settings current read
    rw [read] at only settingsRead
    have present : current.authSettings.isSome = true := by rw [← settingsRead]; rfl
    simp only at counted
    split at counted
    · cases counted
      refine ⟨(FailuresOnly.setState _ _ _).trans only, ?_⟩
      rw [AuthDatabase.setAuthFailureState_lockedUntil, if_pos present]
    · cases counted
      refine ⟨(FailuresOnly.setState _ _ _).trans only, ?_⟩
      rw [AuthDatabase.setAuthFailureState_lockedUntil, if_pos present]

end LockChecks

section Sessions

theorem SessionsOnly.refl (database : AuthDatabase) : SessionsOnly database database :=
  ⟨rfl, rfl, rfl⟩

theorem SessionsOnly.trans {before middle after : AuthDatabase}
    (second : SessionsOnly after middle) (first : SessionsOnly middle before) :
    SessionsOnly after before :=
  ⟨second.users.trans first.users, second.authSettings.trans first.authSettings,
    second.authRecoveryCodes.trans first.authRecoveryCodes⟩

variable (store : SessionStore)

theorem resolveUnexpiredSession_sessionsOnly (session : AuthSessionRecord) (nowMs : Nat)
    (touch : Bool) :
    SessionsOnly (store.resolveUnexpiredSession session nowMs touch).2.database
      store.database := by
  simp only [SessionStore.resolveUnexpiredSession, AuthDatabase.touchAuthSessionIfExpiresAfter]
  generalize (ite (session.lastUsedAt < _) _ _ : AuthSessionRecord) = sessionForIdleCheck
  split
  · exact ⟨rfl, rfl, rfl⟩
  split
  · exact ⟨rfl, rfl, rfl⟩
  split
  · split
    · exact ⟨rfl, rfl, rfl⟩
    · rename_i touched
      split at touched
      · cases touched
        exact ⟨rfl, rfl, rfl⟩
      · exact absurd touched (by simp)
  · exact ⟨rfl, rfl, rfl⟩

theorem resolveSession_sessionsOnly (input : ResolveSessionInput) :
    SessionsOnly (store.resolveSession input).2.database store.database := by
  have swept := maybeDeleteExpiredAuthSessions_narrower store input.nowMs
  have sweptOnly : SessionsOnly (store.maybeDeleteExpiredAuthSessions input.nowMs).database
      store.database := ⟨swept.users, swept.authSettings, swept.authRecoveryCodes⟩
  simp only [SessionStore.resolveSession]
  split
  · exact .refl _
  split
  · exact .refl _
  split
  · split
    · exact sweptOnly
    · exact sweptOnly
  · split
    · exact ⟨sweptOnly.users, sweptOnly.authSettings, sweptOnly.authRecoveryCodes⟩
    · exact (resolveUnexpiredSession_sessionsOnly _ _ _ _).trans sweptOnly

theorem logout_sessionsOnly (sessionId : Option SessionId) :
    SessionsOnly (store.logout sessionId).database store.database := by
  have narrower := logout_narrower store sessionId
  exact ⟨narrower.users, narrower.authSettings, narrower.authRecoveryCodes⟩

theorem issueWebSocketTicket_sessionsOnly (sessionId : SessionId) (ticketId : TicketId)
    (now : Nat) :
    SessionsOnly (store.issueWebSocketTicket sessionId ticketId now).2.database
      store.database := by
  have resolved := resolveSession_sessionsOnly store
    { sessionId := some sessionId, nowMs := now, touch := true }
  rw [SessionStore.issueWebSocketTicket]
  split
  · rename_i next refused
    rw [refused] at resolved
    exact resolved
  · rename_i session next served
    rw [served] at resolved
    exact ⟨resolved.users, resolved.authSettings, resolved.authRecoveryCodes⟩

theorem validateAndConsumeWebSocketTicket_sessionsOnly (sessionId : SessionId)
    (ticketId : TicketId) (now : Nat) :
    SessionsOnly (store.validateAndConsumeWebSocketTicket sessionId ticketId now).2.database
      store.database := by
  have resolved := resolveSession_sessionsOnly store
    { sessionId := some sessionId, nowMs := now, touch := false }
  rw [SessionStore.validateAndConsumeWebSocketTicket]
  split
  · rename_i next refused
    rw [refused] at resolved
    exact resolved
  · rename_i session next served
    rw [served] at resolved
    split
    · exact resolved
    split
    · exact resolved
    split
    · exact resolved
    · rename_i database consumed
      rw [AuthDatabase.consumeAuthWebSocketTicket] at consumed
      split at consumed
      · cases consumed
        exact ⟨resolved.users, resolved.authSettings, resolved.authRecoveryCodes⟩
      · exact absurd consumed (by simp)

theorem upgradeWebSocket_sessionsOnly (sessionId : SessionId) (ticketId : TicketId)
    (now resolvedAt : Nat) :
    SessionsOnly (store.upgradeWebSocket sessionId ticketId now resolvedAt).2.database
      store.database := by
  have consumed :=
    validateAndConsumeWebSocketTicket_sessionsOnly store sessionId ticketId now
  rw [SessionStore.upgradeWebSocket]
  split
  · rename_i next refused
    rw [refused] at consumed
    exact consumed
  · rename_i next accepted
    rw [accepted] at consumed
    exact (resolveSession_sessionsOnly next _).trans consumed

end Sessions

section Attempts

def Attempt.totpCheck? : Attempt → Option (StoredTotpSecret × List Char)
  | .login _ _ totpCode (.verifyingTotp _ stored) => some (stored, totpCode)
  | .stepUp _ _ _ totpCode (.verifyingTotp stored) => some (stored, totpCode)
  | _ => none

def Attempt.heldCode? : Attempt → Option CodeHash
  | .recovery _ _ _ (.creatingSession codeHash) => some codeHash
  | _ => none

def Attempt.matchedCounter? (environment : AuthEnvironment) (attempt : Attempt) : Option Nat := do
  let context ← attempt.context?
  let (stored, totpCode) ← attempt.totpCheck?
  verifyTotpMatchedCounter environment stored totpCode context.nowMs

/-- The next segment decides the attempt: it fails with a count, clears the failures or creates a
session. -/
@[grind =]
def Attempt.concludes (environment : AuthEnvironment) (database : AuthDatabase) : Attempt → Bool
  | .login context primaryFactor _ .verifyingPrimaryFactor =>
    !hasTotpEnrollment context.settings &&
      !environment.verifyPrimaryFactor primaryFactor context.settings.primaryFactorHash
  | .login _ _ _ (.decryptingSecret _) => false
  | .login _ _ _ (.verifyingTotp ..) => true
  | .login _ _ _ .creatingSession => true
  | .recovery context primaryFactor _ .verifyingPrimaryFactor =>
    !environment.verifyPrimaryFactor primaryFactor context.settings.primaryFactorHash
  | .recovery _ _ _ (.matchingCode (_ :: _) _) => false
  | .recovery _ _ _ (.matchingCode [] none) => true
  | .recovery _ _ _ (.matchingCode [] (some codeHash)) =>
    database.authRecoveryCodes.get? codeHash = some none
  | .recovery _ _ _ (.creatingSession _) => true
  | .stepUp context _ primaryFactor _ .verifyingPrimaryFactor =>
    !environment.verifyPrimaryFactor primaryFactor context.settings.primaryFactorHash
  | .stepUp _ _ _ _ .decryptingSecret => false
  | .stepUp _ _ _ _ (.verifyingTotp _) => true
  | .finished _ => false

variable (environment : AuthEnvironment) (system : AuthSystem) (attempt : Attempt)

inductive TotpEffect : AuthSystem → Prop
  | refused : TotpEffect system
  | accepted {settings : AuthSettings} {matchedCounter : Nat}
      (matched : attempt.matchedCounter? environment = some matchedCounter)
      (found : system.store.database.authSettings = some settings)
      (newer : settings.totpLastUsedCounter.all (· < matchedCounter)) :
      TotpEffect { system.setDatabase { system.store.database with
            authSettings := some { settings with totpLastUsedCounter := some matchedCounter } } with
        log := { system.log with
          acceptedCounters := system.log.acceptedCounters ++ [matchedCounter] } }

inductive AttemptEffect (context : AttemptContext) (resumption : Resumption) :
    AuthSystem → Attempt → Prop
  | waits {next : Attempt} (idle : attempt.concludes environment system.store.database = false)
      (same : next.context? = some context) (notHolding : attempt.heldCode? = none)
      (holdsNone : next.heldCode? = none)
      (enrolled : next.totpCheck?.isSome → hasTotpEnrollment context.settings) :
      AttemptEffect context resumption system next
  | refused {failure : AuthFailure}
      (idle : attempt.concludes environment system.store.database = false)
      (notHolding : attempt.heldCode? = none) :
      AttemptEffect context resumption system (.finished (.error failure))
  | failed {middle : AuthSystem} {failure : AuthFailure}
      (deciding : attempt.concludes environment system.store.database = true)
      (notHolding : attempt.heldCode? = none) (checked : TotpEffect environment system attempt middle) :
      AttemptEffect context resumption (middle.countFailure context failure).1
        (middle.countFailure context failure).2
  | verified {middle : AuthSystem} {next : Attempt}
      (deciding : attempt.concludes environment system.store.database = true)
      (same : next.context? = some context) (notHolding : attempt.heldCode? = none)
      (holdsNone : next.heldCode? = none) (checksNone : next.totpCheck? = none)
      (checked : TotpEffect environment system attempt middle) :
      AttemptEffect context resumption middle.clearFailures next
  | recovered {codeHash : CodeHash} {next : Attempt}
      (deciding : attempt.concludes environment system.store.database = true)
      (same : next.context? = some context) (notHolding : attempt.heldCode? = none)
      (holds : next.heldCode? = some codeHash) (checksNone : next.totpCheck? = none)
      (unused : system.store.database.authRecoveryCodes.get? codeHash = some none) :
      AttemptEffect context resumption
        (system.setDatabase { system.store.database with
          authRecoveryCodes := system.store.database.authRecoveryCodes.set codeHash
            (some context.nowMs) }).clearFailures next
  | steppedUp {middle : AuthSystem} {sessionId : SessionId} {stepUpValidUntil : Nat}
      (deciding : attempt.concludes environment system.store.database = true)
      (notHolding : attempt.heldCode? = none) (checked : TotpEffect environment system attempt middle) :
      AttemptEffect context resumption
        { middle.clearFailures with
          store := middle.clearFailures.store.recordStepUp sessionId context.nowMs }
        (.finished (.ok (.stepUp stepUpValidUntil)))
  | created (deciding : attempt.concludes environment system.store.database = true) :
      AttemptEffect context resumption
        (system.finishLogin context attempt.heldCode? resumption.sessionId).1
        (system.finishLogin context attempt.heldCode? resumption.sessionId).2

variable {environment system attempt}

theorem hasTotpEnrollment_of_mem {settings : AuthSettings} {char : Char}
    (member : char ∈ settings.totpSecretCiphertext)
    (solid : JsText.isWhiteSpace char = false) : hasTotpEnrollment settings = true := by
  rw [hasTotpEnrollment, Bool.not_eq_true', List.isEmpty_eq_false_iff]
  intro blank
  rw [JsText.trim_eq_nil_iff] at blank
  exact absurd (blank char member) (by simp [solid])

theorem decryptAuthSecret_enrolled {settings : AuthSettings}
    {opened : Except AuthFailure StoredTotpSecret} {stored : StoredTotpSecret}
    (decrypted : decryptAuthSecret settings.totpSecretCiphertext opened = .ok stored) :
    hasTotpEnrollment settings = true := by
  by_cases separated : '.' ∈ settings.totpSecretCiphertext
  · exact hasTotpEnrollment_of_mem separated (by decide)
  · rw [decryptAuthSecret, List.splitOn_eq_singleton separated] at decrypted
    exact absurd decrypted (by simp)

theorem acceptTotp_effect {context : AttemptContext} {stored : StoredTotpSecret}
    {totpCode : List Char} (held : attempt.context? = some context)
    (checks : attempt.totpCheck? = some (stored, totpCode)) :
    TotpEffect environment system attempt
      (system.acceptTotp environment context stored totpCode).2 := by
  rw [AuthSystem.acceptTotp]
  split
  · exact .refused
  · rename_i matchedCounter found
    have matched : attempt.matchedCounter? environment = some matchedCounter := by
      rw [Attempt.matchedCounter?, held, checks]
      exact found
    split
    · exact .refused
    · rename_i database advanced
      rw [AuthDatabase.tryAdvanceTotpLastUsedCounter] at advanced
      split at advanced
      · exact absurd advanced (by simp)
      · rename_i settings present
        split at advanced
        · rename_i newer
          cases advanced
          exact .accepted matched present newer
        · exact absurd advanced (by simp)

variable (environment system)

theorem resumeLogin_effect (context : AttemptContext) (primaryFactor : String)
    (totpCode : List Char) (phase : LoginPhase) (resumption : Resumption) :
    AttemptEffect environment system (.login context primaryFactor totpCode phase) context
      resumption
      (system.resumeLogin environment context primaryFactor totpCode phase resumption).1
      (system.resumeLogin environment context primaryFactor totpCode phase resumption).2 := by
  cases phase with
  | verifyingPrimaryFactor =>
    simp only [AuthSystem.resumeLogin]
    split
    · rename_i enrolled
      exact .waits (by simp [Attempt.concludes, enrolled]) rfl rfl rfl (by simp [Attempt.totpCheck?])
    · rename_i unenrolled
      split
      · rename_i valid
        exact .refused (by simp [Attempt.concludes, valid]) rfl
      · rename_i invalid
        exact .failed (by simp [Attempt.concludes, unenrolled, invalid]) rfl .refused
  | decryptingSecret primaryFactorValid =>
    simp only [AuthSystem.resumeLogin]
    split
    · exact .refused rfl rfl
    · rename_i stored decrypted
      exact .waits rfl rfl rfl rfl fun _ => decryptAuthSecret_enrolled decrypted
  | verifyingTotp primaryFactorValid stored =>
    have checked : TotpEffect environment system
        (.login context primaryFactor totpCode (.verifyingTotp primaryFactorValid stored))
        (system.acceptTotp environment context stored totpCode).2 := acceptTotp_effect rfl rfl
    simp only [AuthSystem.resumeLogin]
    split
    · exact .failed rfl rfl checked
    · exact .verified rfl rfl rfl rfl rfl checked
  | creatingSession => exact .created rfl

theorem resumeRecovery_effect (context : AttemptContext) (primaryFactor recoveryCode : String)
    (phase : RecoveryPhase) (resumption : Resumption) :
    AttemptEffect environment system (.recovery context primaryFactor recoveryCode phase) context
      resumption
      (system.resumeRecovery environment context primaryFactor recoveryCode phase resumption).1
      (system.resumeRecovery environment context primaryFactor recoveryCode phase
        resumption).2 := by
  cases phase with
  | verifyingPrimaryFactor =>
    simp only [AuthSystem.resumeRecovery]
    split
    · rename_i valid
      exact .waits (by simp [Attempt.concludes, valid]) rfl rfl rfl (by simp [Attempt.totpCheck?])
    · rename_i invalid
      exact .failed (by simp [Attempt.concludes, invalid]) rfl .refused
  | matchingCode remaining matchingCodeHash =>
    cases remaining with
    | cons record remaining =>
      exact .waits rfl rfl rfl rfl (by simp [AuthSystem.resumeRecovery, Attempt.totpCheck?])
    | nil =>
      cases matchingCodeHash with
      | none => exact .failed rfl rfl .refused
      | some codeHash =>
        simp only [AuthSystem.resumeRecovery, AuthDatabase.markAuthRecoveryCodeUsed]
        split
        · rename_i marked
          split at marked
          · exact absurd marked (by simp)
          · rename_i used
            exact .refused (by simpa [Attempt.concludes] using used) rfl
        · rename_i marked
          split at marked
          · rename_i unused
            cases marked
            exact .recovered (by simpa [Attempt.concludes] using unused) rfl rfl rfl rfl unused
          · exact absurd marked (by simp)
  | creatingSession codeHash => exact .created rfl

theorem resumeStepUp_effect (context : AttemptContext) (sessionId : SessionId)
    (primaryFactor : String) (totpCode : List Char) (phase : StepUpPhase)
    (resumption : Resumption) :
    AttemptEffect environment system (.stepUp context sessionId primaryFactor totpCode phase)
      context resumption
      (system.resumeStepUp environment context sessionId primaryFactor totpCode phase resumption).1
      (system.resumeStepUp environment context sessionId primaryFactor totpCode phase
        resumption).2 := by
  cases phase with
  | verifyingPrimaryFactor =>
    simp only [AuthSystem.resumeStepUp]
    split
    · rename_i valid
      exact .waits (by simp [Attempt.concludes, valid]) rfl rfl rfl (by simp [Attempt.totpCheck?])
    · rename_i invalid
      exact .failed (by simp [Attempt.concludes, invalid]) rfl .refused
  | decryptingSecret =>
    simp only [AuthSystem.resumeStepUp]
    split
    · exact .refused rfl rfl
    · rename_i stored decrypted
      exact .waits rfl rfl rfl rfl fun _ => decryptAuthSecret_enrolled decrypted
  | verifyingTotp stored =>
    have checked : TotpEffect environment system
        (.stepUp context sessionId primaryFactor totpCode (.verifyingTotp stored))
        (system.acceptTotp environment context stored totpCode).2 := acceptTotp_effect rfl rfl
    simp only [AuthSystem.resumeStepUp]
    split
    · exact .failed rfl rfl checked
    · exact .steppedUp rfl rfl checked

variable {environment system}

theorem resumeAttempt_effect {resumption : Resumption} {after : AuthSystem} {next : Attempt}
    (resumed : system.resumeAttempt environment resumption attempt = some (after, next)) :
    ∃ context, attempt.context? = some context ∧
      AttemptEffect environment system attempt context resumption after next := by
  cases attempt with
  | login context primaryFactor totpCode phase =>
    simp only [AuthSystem.resumeAttempt, Option.some.injEq] at resumed
    have effect := resumeLogin_effect environment system context primaryFactor totpCode phase resumption
    rw [resumed] at effect
    exact ⟨context, rfl, effect⟩
  | recovery context primaryFactor recoveryCode phase =>
    simp only [AuthSystem.resumeAttempt, Option.some.injEq] at resumed
    have effect := resumeRecovery_effect environment system context primaryFactor recoveryCode
      phase resumption
    rw [resumed] at effect
    exact ⟨context, rfl, effect⟩
  | stepUp context sessionId primaryFactor totpCode phase =>
    simp only [AuthSystem.resumeAttempt, Option.some.injEq] at resumed
    have effect := resumeStepUp_effect environment system context sessionId primaryFactor totpCode
      phase resumption
    rw [resumed] at effect
    exact ⟨context, rfl, effect⟩
  | finished result => exact absurd resumed (by simp [AuthSystem.resumeAttempt])

end Attempts

end Metidos.Auth
