import Metidos.Auth.AttemptSteps

/-!
What one segment of a setup does.  Only the opening of its transaction, its commit and a counted
failure change the database; the recovery codes are drawn before and stored by the commit.
-/

namespace Metidos.Auth

def SetupPhase.isOpen : SetupPhase → Bool
  | .encryptingSecret .. => true
  | _ => false

def SetupPhase.drawnCodes : SetupPhase → List CodeHash
  | .verifyingTotp => []
  | .hashingRecoveryCodes .. => []
  | .preparingPrimaryFactor _ _ codeHashes => codeHashes
  | .queued _ material => material.recoveryCodeHashes
  | .encryptingSecret _ material _ => material.recoveryCodeHashes

@[grind =] def SetupPhase.concludes (environment : AuthEnvironment) (context : SetupContext) :
    SetupPhase → Bool
  | .preparingPrimaryFactor .. =>
    context.existing.any fun existing =>
      !environment.verifyPrimaryFactor context.input.primaryFactor
        existing.settings.primaryFactorHash
  | .queued .. => context.existing.isSome
  | _ => false

@[grind =] def Setup.concludes (environment : AuthEnvironment) : Setup → Bool
  | .running context phase => phase.concludes environment context
  | .finished _ => false

theorem hasTotpEnrollment_configured {settings : AuthSettings}
    (enrolled : hasTotpEnrollment settings = true) : settings.configured = true := by
  rw [AuthSettings.configured, List.any_eq_true]
  by_contra onlySpaces
  have blank : JsText.trim settings.totpSecretCiphertext = [] := by
    rw [JsText.trim_eq_nil_iff]
    intro char member
    by_cases space : char = ' '
    · rw [space]
      decide
    · exact absurd ⟨char, member, by simpa using space⟩ onlySpaces
  simp [hasTotpEnrollment, blank] at enrolled

theorem isEnrolled_of_countConfiguredAuthUsers {database : AuthDatabase}
    (unconfigured : database.countConfiguredAuthUsers = 0) : database.isEnrolled = false := by
  rw [AuthDatabase.countConfiguredAuthUsers] at unconfigured
  rw [AuthDatabase.isEnrolled, Option.any_eq_false]
  intro settings found
  by_contra enrolled
  have configured := hasTotpEnrollment_configured (Bool.eq_true_of_not_eq_false enrolled)
  rw [found] at unconfigured
  simp [configured] at unconfigured

theorem recheckSetup_spec {database next : AuthDatabase} {context : SetupContext}
    {user : UserRecord} (rechecked : recheckSetup database context = .ok (user, next)) :
    database.isEnrolled = false ∧
      (context.existing.isSome = true ∧ FailuresOnly next database ∧ next.lockedUntil = none ∨
        context.existing = none ∧ next = (database.createUser context.username true).2) := by
  rw [recheckSetup] at rechecked
  split at rechecked
  · rename_i existing isExisting
    have only := readCurrentAuthSettingsForUser_failuresOnly database context.nowMs
    have settingsRead := readCurrentAuthSettingsForUser_fst database context.nowMs
    split at rechecked
    · exact absurd rechecked (by simp)
    · rename_i settings current read
      rw [read] at only settingsRead
      split at rechecked
      · exact absurd rechecked (by simp)
      · rename_i unenrolled
        cases rechecked
        refine ⟨?_, .inl ⟨by rw [isExisting]; rfl, (FailuresOnly.reset current).trans only, ?_⟩⟩
        · rw [← only.isEnrolled, AuthDatabase.isEnrolled, ← settingsRead]
          simpa using unenrolled
        · exact AuthDatabase.resetAuthFailureState_lockedUntil current
  · rename_i isNone
    split at rechecked
    · exact absurd rechecked (by simp)
    · rename_i unconfigured
      split at rechecked
      · exact absurd rechecked (by simp)
      · simp only [Except.ok.injEq] at rechecked
        exact ⟨isEnrolled_of_countConfiguredAuthUsers (by simpa using unconfigured),
          .inr ⟨isNone, by rw [rechecked]⟩⟩

theorem encryptAuthSecret_enrolled {settings : AuthSettings} {iv payload : List Char}
    (encrypted : settings.totpSecretCiphertext = encryptAuthSecret iv payload) :
    hasTotpEnrollment settings = true := by
  have separated : '.' ∈ settings.totpSecretCiphertext := by
    rw [encrypted, encryptAuthSecret]
    exact List.mem_append_right _ List.mem_cons_self
  exact hasTotpEnrollment_of_mem separated (by decide)

theorem upsertAuthSettings_isEnrolled (database : AuthDatabase) (primaryFactorHash : String)
    (iv payload : List Char) (sessionLifetimeDays : Nat) :
    (database.upsertAuthSettings primaryFactorHash (encryptAuthSecret iv payload)
      sessionLifetimeDays).isEnrolled = true := by
  simp only [AuthDatabase.isEnrolled, AuthDatabase.upsertAuthSettings, Option.any_some]
  split
  · exact encryptAuthSecret_enrolled rfl
  · exact encryptAuthSecret_enrolled rfl

variable (environment : AuthEnvironment) (system : AuthSystem)

inductive SetupEffect (setup : Nat) (context : SetupContext) (phase : SetupPhase) :
    AuthSystem → Setup → Prop
  | refused {failure : AuthFailure} (closed : phase.isOpen = false) :
      SetupEffect setup context phase system (.finished (.error failure))
  | failed {counted : AttemptContext} {otherwise failure : AuthFailure}
      (deciding : phase.concludes environment context = true) (closed : phase.isOpen = false) :
      SetupEffect setup context phase (system.countFailure counted otherwise).1
        (.finished (.error failure))
  | waits {next : SetupPhase} (idle : phase.concludes environment context = false)
      (closed : phase.isOpen = false) (stillClosed : next.isOpen = false)
      (same : next.drawnCodes = phase.drawnCodes) :
      SetupEffect setup context phase system (.running context next)
  | hashed (next : SetupPhase) (idle : phase.concludes environment context = false)
      (closed : phase.isOpen = false) (stillClosed : next.isOpen = false)
      (distinct : next.drawnCodes.Nodup)
      (fresh : ∀ codeHash ∈ next.drawnCodes, codeHash ∉ system.log.issuedCodes) :
      SetupEffect setup context phase
        { system with
          log := { system.log with issuedCodes := system.log.issuedCodes ++ next.drawnCodes } }
        (.running context next)
  | opened {matchedCounter : Nat} {material : SetupMaterial} {user : UserRecord}
      {database : AuthDatabase} (queued : phase = .queued matchedCounter material)
      (free : system.openTransaction = none)
      (rechecked : recheckSetup system.store.database context = .ok (user, database)) :
      SetupEffect setup context phase
        { system.setDatabase database with openTransaction := some setup }
        (.running context (.encryptingSecret matchedCounter material user))
  | committed {matchedCounter : Nat} {material : SetupMaterial} {user : UserRecord}
      {resumption : SetupResumption}
      (encrypting : phase = .encryptingSecret matchedCounter material user)
      (fresh : resumption.sessionId ∉ system.log.issuedSessions) :
      SetupEffect setup context phase
        (system.commitSetup context matchedCounter material user resumption).1
        (system.commitSetup context matchedCounter material user resumption).2

variable {environment system}

theorem queueSetup_effect {setup : Nat} {context : SetupContext} {phase : SetupPhase}
    {matchedCounter : Nat} {material : SetupMaterial}
    (idle : phase.concludes environment context = false) (closed : phase.isOpen = false)
    (same : material.recoveryCodeHashes = phase.drawnCodes) :
    SetupEffect environment system setup context phase system
      (system.queueSetup context matchedCounter material) := by
  rw [AuthSystem.queueSetup]
  split
  · exact .refused closed
  · exact .waits idle closed rfl same

theorem countFailure_snd (counted : AttemptContext) (otherwise : AuthFailure) :
    ∃ failure, (system.countFailure counted otherwise).2 = .finished (.error failure) := by
  rw [AuthSystem.countFailure]
  split
  · exact ⟨_, rfl⟩
  · exact ⟨_, rfl⟩
  · exact ⟨_, rfl⟩

theorem resumeSetup_effect {setup : Nat} {context : SetupContext} {phase : SetupPhase}
    {resumption : SetupResumption} {after : AuthSystem} {next : Setup}
    (resumed : system.resumeSetup environment setup context phase resumption =
      some (after, next)) :
    SetupEffect environment system setup context phase after next := by
  cases phase with
  | verifyingTotp =>
    simp only [AuthSystem.resumeSetup] at resumed
    split at resumed
    · cases resumed
      exact .refused rfl
    · split at resumed
      · cases resumed
        exact .refused rfl
      · cases resumed
        exact .waits rfl rfl rfl rfl
  | hashingRecoveryCodes matchedCounter days =>
    simp only [AuthSystem.resumeSetup] at resumed
    split at resumed
    · rename_i fresh
      cases resumed
      exact .hashed (.preparingPrimaryFactor matchedCounter days resumption.recoveryCodeHashes)
        rfl rfl rfl fresh.1 fresh.2
    · exact absurd resumed (by simp)
  | preparingPrimaryFactor matchedCounter days codeHashes =>
    simp only [AuthSystem.resumeSetup] at resumed
    split at resumed
    · rename_i settings user existing
      split at resumed
      · rename_i valid
        cases resumed
        exact queueSetup_effect (by simp [SetupPhase.concludes, existing, valid]) rfl rfl
      · rename_i invalid
        split at resumed
        · cases resumed
          exact .failed (by simpa [SetupPhase.concludes, existing] using invalid) rfl
        · exact absurd resumed (by simp)
    · rename_i absent
      split at resumed
      · cases resumed
        exact .refused rfl
      · cases resumed
        exact queueSetup_effect (by simp [SetupPhase.concludes, absent]) rfl rfl
  | queued matchedCounter material =>
    simp only [AuthSystem.resumeSetup] at resumed
    split at resumed
    · exact absurd resumed (by simp)
    · rename_i free
      split at resumed
      · cases resumed
        exact .refused rfl
      · cases resumed
        exact .refused rfl
      · rename_i rechecked _
        cases resumed
        exact .opened rfl (by simpa using free) rechecked
  | encryptingSecret matchedCounter material user =>
    simp only [AuthSystem.resumeSetup] at resumed
    split at resumed
    · exact absurd resumed (by simp)
    · rename_i fresh
      cases resumed
      exact .committed rfl fun issued => fresh (.inr issued)

section Events

variable {before after : AuthSystem}

structure Calm (after before : AuthSystem) : Prop where
  attempts : after.attempts = before.attempts
  setups : after.setups = before.setups
  openTransaction : after.openTransaction = before.openTransaction
  locksRecorded : after.log.locksRecorded = before.log.locksRecorded
  acceptedCounters : after.log.acceptedCounters = before.log.acceptedCounters
  setupCounters : after.log.setupCounters = before.log.setupCounters
  issuedCodes : after.log.issuedCodes = before.log.issuedCodes
  recoveryLogins : after.log.recoveryLogins = before.log.recoveryLogins
  authSettings : after.store.database.authSettings = before.store.database.authSettings
  authRecoveryCodes :
    after.store.database.authRecoveryCodes = before.store.database.authRecoveryCodes

theorem Calm.ofStore {store : SessionStore}
    (only : SessionsOnly store.database before.store.database) :
    Calm { before with store } before :=
  ⟨rfl, rfl, rfl, rfl, rfl, rfl, rfl, rfl, only.authSettings, only.authRecoveryCodes⟩

theorem issueWebSocketTicket_calm (system : AuthSystem) (sessionId : SessionId)
    (ticketId : TicketId) (nowMs : Nat) :
    Calm (system.issueWebSocketTicket sessionId ticketId nowMs) system := by
  have only := issueWebSocketTicket_sessionsOnly system.store sessionId ticketId nowMs
  rw [AuthSystem.issueWebSocketTicket]
  split
  · rename_i store issued
    rw [issued] at only
    exact ⟨rfl, rfl, rfl, rfl, rfl, rfl, rfl, rfl, only.authSettings, only.authRecoveryCodes⟩
  · rename_i ticket store issued
    rw [issued] at only
    exact ⟨rfl, rfl, rfl, rfl, rfl, rfl, rfl, rfl, only.authSettings, only.authRecoveryCodes⟩

theorem upgradeWebSocket_calm (system : AuthSystem) (sessionId : SessionId) (ticketId : TicketId)
    (resolvedAt : Nat) : Calm (system.upgradeWebSocket sessionId ticketId resolvedAt) system := by
  have only :=
    upgradeWebSocket_sessionsOnly system.store sessionId ticketId system.clock resolvedAt
  rw [AuthSystem.upgradeWebSocket]
  split
  · rename_i store upgraded
    rw [upgraded] at only
    exact ⟨rfl, rfl, rfl, rfl, rfl, rfl, rfl, rfl, only.authSettings, only.authRecoveryCodes⟩
  · rename_i session store upgraded
    rw [upgraded] at only
    exact ⟨rfl, rfl, rfl, rfl, rfl, rfl, rfl, rfl, only.authSettings, only.authRecoveryCodes⟩

theorem getAuthStatus_cases (system : AuthSystem) (sessionId : Option SessionId) (nowMs : Nat) :
    ∃ middle, Calm middle system ∧ middle.clock = system.clock ∧
      (system.getAuthStatus sessionId nowMs = middle ∨
        system.getAuthStatus sessionId nowMs =
          middle.setDatabase (readCurrentAuthSettingsForUser middle.store.database nowMs).2) := by
  have only := resolveSession_sessionsOnly system.store { sessionId, nowMs, touch := false }
  rw [AuthSystem.getAuthStatus]
  split
  · rename_i store resolved
    rw [resolved] at only
    exact ⟨{ system with store }, .ofStore only, rfl, .inl rfl⟩
  · rename_i session store resolved
    rw [resolved] at only
    exact ⟨{ system with store }, .ofStore only, rfl, .inr rfl⟩

theorem beginAttempt_attempts (system : AuthSystem)
    (checked : Except AuthFailure ConfiguredAuthUser × AuthDatabase) (nowMs : Nat)
    (continued : AttemptContext → Attempt) :
    ∃ attempt, (system.beginAttempt checked nowMs continued).attempts =
        system.attempts ++ [attempt] ∧
      ((∃ failure, attempt = .finished (.error failure)) ∨
        ∃ configured, checked.1 = .ok configured ∧
          attempt = continued {
            nowMs
            settings := configured.settings
            user := configured.user
            locksSeen := system.log.locksRecorded }) := by
  refine ⟨_, rfl, ?_⟩
  split
  · exact .inl ⟨_, rfl⟩
  · rename_i configured passed
    exact .inr ⟨configured, passed, rfl⟩

theorem startStepUp_cases (system : AuthSystem) (sessionId : SessionId) (primaryFactor : String)
    (totpCode : List Char) (nowMs : Nat) :
    ∃ middle, Calm middle system ∧ middle.clock = system.clock ∧
      (system.startStepUp sessionId primaryFactor totpCode nowMs =
          { middle with
            attempts := middle.attempts ++ [.finished (.error .sessionRequired)] } ∨
        ∃ session : AuthSessionRecord,
          system.startStepUp sessionId primaryFactor totpCode nowMs =
            middle.beginAttempt
              (enforceConfiguredUserById middle.store.database session.userId nowMs) nowMs
              fun context =>
                .stepUp context session.id primaryFactor totpCode .verifyingPrimaryFactor) := by
  have only := resolveSession_sessionsOnly system.store
    { sessionId := some sessionId, nowMs, touch := true }
  rw [AuthSystem.startStepUp]
  split
  · rename_i store resolved
    rw [resolved] at only
    exact ⟨{ system with store }, .ofStore only, rfl, .inl rfl⟩
  · rename_i session store resolved
    rw [resolved] at only
    exact ⟨{ system with store }, .ofStore only, rfl, .inr ⟨session, rfl⟩⟩

theorem updateUserEnabled_authSettings (database : AuthDatabase) (userId : UserId)
    (enabled : Bool) :
    (database.updateUserEnabled userId enabled).authSettings = database.authSettings := by
  rw [AuthDatabase.updateUserEnabled]
  split <;> rfl

theorem checkSetup_database (database : AuthDatabase) (username : String) (now : Nat) :
    (checkSetup database username now).2 = database ∨
      (checkSetup database username now).2 = (readCurrentAuthSettingsForUser database now).2 := by
  rw [checkSetup]
  split
  · split
    · exact .inl rfl
    · exact .inl rfl
  · split
    · exact .inl rfl
    · right
      split
      · rename_i read
        rw [read]
      · rename_i read
        rw [read]
        split
        · rfl
        · split <;> rfl

theorem checkSetup_failuresOnly (database : AuthDatabase) (username : String) (now : Nat) :
    FailuresOnly (checkSetup database username now).2 database := by
  rcases checkSetup_database database username now with kept | read
  · rw [kept]
    exact .refl database
  · rw [read]
    exact readCurrentAuthSettingsForUser_failuresOnly database now

variable {environment : AuthEnvironment}

theorem resumeAttempt_of_step {id : Nat} {resumption : Resumption}
    (stepped : authStep environment before (.resumeAttempt id resumption) = some after) :
    ∃ attempt middle next context, before.attempts[id]? = some attempt ∧
      attempt.context? = some context ∧
      AttemptEffect environment before attempt context resumption middle next ∧
      after = { middle with attempts := middle.attempts.set id next } := by
  simp only [authStep] at stepped
  split at stepped
  · exact absurd stepped (by simp)
  · simp only [Option.bind_eq_bind, Option.bind_eq_some_iff] at stepped
    obtain ⟨attempt, found, ⟨middle, next⟩, resumed, result⟩ := stepped
    cases Option.some.inj result
    obtain ⟨context, held, effect⟩ := resumeAttempt_effect resumed
    exact ⟨attempt, middle, next, context, found, held, effect, rfl⟩

theorem resumeSetup_of_step {id : Nat} {resumption : SetupResumption}
    (stepped : authStep environment before (.resumeSetup id resumption) = some after) :
    ∃ context phase middle next, before.setups[id]? = some (.running context phase) ∧
      SetupEffect environment before id context phase middle next ∧
      after = { middle with setups := middle.setups.set id next } := by
  simp only [authStep] at stepped
  split at stepped
  · rename_i context phase found
    simp only [Option.bind_eq_bind, Option.bind_eq_some_iff] at stepped
    obtain ⟨⟨middle, next⟩, resumed, result⟩ := stepped
    cases Option.some.inj result
    exact ⟨context, phase, middle, next, found, resumeSetup_effect resumed, rfl⟩
  · exact absurd stepped (by simp)

end Events

end Metidos.Auth
