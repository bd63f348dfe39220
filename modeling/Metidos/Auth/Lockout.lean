import Metidos.Auth.SessionCaching
import Metidos.Auth.SetupSteps

/-!
The lockout over runs.  Every attempt reads the lock before its first await and never again, so an
attempt that passed its check before a lock was recorded may end that lock, or succeed under it.
Where no such attempt is decided while the lock is in force, the lock stands until its time.
-/

namespace Metidos.Auth

open Transition

namespace AuthSystem

variable (system : AuthSystem)

def lockedUntil : Option Nat := system.store.database.lockedUntil

def lockInForce : Bool := system.lockedUntil.any (system.clock < ·)

def Succeeds (id : Nat) : Prop := ∃ result, system.attempts[id]? = some (.finished (.ok result))

end AuthSystem

/-- While a lock is in force, no attempt that passed its check before the lock was recorded is
decided, no setup counts or clears failures, and nobody resets the credentials. -/
def RespectsLock (environment : AuthEnvironment) (system : AuthSystem) (event : AuthEvent) :
    Prop :=
  system.lockInForce = true →
    match event with
    | .resumeAttempt id _ =>
      ∀ attempt context, system.attempts[id]? = some attempt →
        attempt.context? = some context → context.locksSeen < system.log.locksRecorded →
        attempt.concludes environment system.store.database = false
    | .resumeSetup id _ =>
      ∀ setup, system.setups[id]? = some setup → setup.concludes environment = false
    | .resetUserOtpEnrollment => False
    | .finalizePrimaryFactorReset .. => False
    | _ => True

def LocksMove (after before : AuthSystem) : Prop :=
  after.log.locksRecorded = before.log.locksRecorded ∧
      (after.lockedUntil = before.lockedUntil ∨ after.lockedUntil = none) ∨
    before.log.locksRecorded < after.log.locksRecorded

def LocksSeen (system : AuthSystem) : Prop :=
  ∀ attempt ∈ system.attempts, ∀ context, attempt.context? = some context →
    context.locksSeen ≤ system.log.locksRecorded ∧
      (context.locksSeen = system.log.locksRecorded → system.lockedUntil = none)

section Moves

variable {environment : AuthEnvironment} {before after system middle : AuthSystem}
  {attempt next : Attempt} {context : AttemptContext}

theorem LocksMove.kept (recorded : after.log.locksRecorded = before.log.locksRecorded)
    (same : after.store.database.authSettings = before.store.database.authSettings) :
    LocksMove after before := by
  refine .inl ⟨recorded, .inl ?_⟩
  rw [AuthSystem.lockedUntil, AuthSystem.lockedUntil, AuthDatabase.lockedUntil,
    AuthDatabase.lockedUntil, same]

theorem LocksMove.ended (recorded : after.log.locksRecorded = before.log.locksRecorded)
    (ended : after.lockedUntil = none) : LocksMove after before := .inl ⟨recorded, .inr ended⟩

theorem LocksSeen.later (seen : LocksSeen before) (move : LocksMove after before)
    (attempts : ∀ attempt ∈ after.attempts, ∀ context, attempt.context? = some context →
      (∃ earlier ∈ before.attempts, earlier.context? = some context) ∨
        context.locksSeen = after.log.locksRecorded ∧ after.lockedUntil = none) :
    LocksSeen after := by
  intro attempt member context held
  rcases attempts attempt member context held with ⟨earlier, earlierMember, same⟩ | ⟨now, none⟩
  · obtain ⟨bounded, unlocked⟩ := seen earlier earlierMember context same
    rcases move with ⟨recorded, kept | ended⟩ | more
    · rw [recorded, kept]
      exact ⟨bounded, unlocked⟩
    · rw [recorded]
      exact ⟨bounded, fun _ => ended⟩
    · exact ⟨by omega, fun now => by omega⟩
  · exact ⟨now.le, fun _ => none⟩

theorem LocksSeen.sameAttempts (seen : LocksSeen before) (move : LocksMove after before)
    (same : after.attempts = before.attempts) : LocksSeen after := by
  refine seen.later move ?_
  intro attempt member context held
  rw [same] at member
  exact .inl ⟨attempt, member, held⟩

theorem countFailure_locks (context : AttemptContext) (failure : AuthFailure) :
    LocksMove (system.countFailure context failure).1 system ∧
      (system.countFailure context failure).1.attempts = system.attempts ∧
      (system.countFailure context failure).1.clock = system.clock := by
  rw [AuthSystem.countFailure]
  split
  · exact ⟨.kept rfl rfl, rfl, rfl⟩
  · exact ⟨.inr (Nat.lt_succ_self _), rfl, rfl⟩
  · rename_i database counted
    exact ⟨.ended rfl (incrementFailedAttempts_spec counted).2, rfl, rfl⟩

theorem TotpEffect.locks (checked : TotpEffect environment system attempt middle) :
    middle.log.locksRecorded = system.log.locksRecorded ∧
      middle.lockedUntil = system.lockedUntil ∧
      middle.attempts = system.attempts ∧ middle.clock = system.clock := by
  cases checked with
  | refused => exact ⟨rfl, rfl, rfl, rfl⟩
  | accepted matched found newer =>
    refine ⟨rfl, ?_, rfl, rfl⟩
    simp [AuthSystem.lockedUntil, AuthDatabase.lockedUntil, AuthSystem.setDatabase, found]

theorem AttemptEffect.locks {resumption : Resumption}
    (effect : AttemptEffect environment system attempt context resumption after next) :
    LocksMove after system ∧ after.attempts = system.attempts ∧ after.clock = system.clock ∧
      (next.context? = none ∨ next.context? = some context) := by
  cases effect with
  | waits idle same => exact ⟨.kept rfl rfl, rfl, rfl, .inr same⟩
  | refused => exact ⟨.kept rfl rfl, rfl, rfl, .inl rfl⟩
  | @failed middle failure deciding notHolding checked =>
    obtain ⟨recorded, locked, attempts, clock⟩ := checked.locks
    obtain ⟨move, sameAttempts, sameClock⟩ :=
      @countFailure_locks middle context failure
    obtain ⟨error, ended⟩ := @countFailure_snd middle context failure
    refine ⟨?_, sameAttempts.trans attempts, sameClock.trans clock, .inl (by rw [ended]; rfl)⟩
    rw [LocksMove, ← recorded, ← locked]
    exact move
  | verified deciding same notHolding holdsNone checksNone checked =>
    obtain ⟨recorded, locked, attempts, clock⟩ := checked.locks
    exact ⟨.ended recorded (AuthDatabase.resetAuthFailureState_lockedUntil _), attempts, clock,
      .inr same⟩
  | recovered deciding same =>
    exact ⟨.ended rfl (AuthDatabase.resetAuthFailureState_lockedUntil _), rfl, rfl, .inr same⟩
  | @steppedUp middle sessionId _ deciding notHolding checked =>
    obtain ⟨recorded, locked, attempts, clock⟩ := checked.locks
    exact ⟨.ended recorded (AuthDatabase.resetAuthFailureState_lockedUntil _), attempts, clock,
      .inl rfl⟩
  | created => exact ⟨.kept rfl rfl, rfl, rfl, .inl rfl⟩

theorem AttemptEffect.idle {resumption : Resumption}
    (effect : AttemptEffect environment system attempt context resumption after next)
    (idle : attempt.concludes environment system.store.database = false) :
    after = system ∧ ∀ result, next ≠ .finished (.ok result) := by
  cases effect with
  | waits _ same =>
    refine ⟨rfl, ?_⟩
    intro result finished
    rw [finished] at same
    exact absurd same (by simp [Attempt.context?])
  | refused => exact ⟨rfl, by simp⟩
  | failed deciding => rw [idle] at deciding; exact absurd deciding (by simp)
  | verified deciding => rw [idle] at deciding; exact absurd deciding (by simp)
  | recovered deciding => rw [idle] at deciding; exact absurd deciding (by simp)
  | steppedUp deciding => rw [idle] at deciding; exact absurd deciding (by simp)
  | created deciding => rw [idle] at deciding; exact absurd deciding (by simp)

theorem commitSetup_lockedUntil (setupContext : SetupContext) (matchedCounter : Nat)
    (material : SetupMaterial) (user : UserRecord) (resumption : SetupResumption) :
    (system.commitSetup setupContext matchedCounter material user resumption).1.lockedUntil =
      system.lockedUntil := by
  cases found : system.store.database.authSettings <;>
    simp [AuthSystem.commitSetup, AuthSystem.lockedUntil, AuthDatabase.lockedUntil,
      AuthSystem.createSession, AuthSystem.setDatabase, SessionStore.createSessionRecord,
      AuthDatabase.createAuthSession, AuthDatabase.deleteExpiredAuthWebSocketTickets,
      AuthDatabase.deleteExpiredAuthSessions, AuthDatabase.replaceAuthRecoveryCodeHashes,
      AuthDatabase.upsertAuthSettings, found]

theorem SetupEffect.locks {setup : Nat} {setupContext : SetupContext} {phase : SetupPhase}
    {result : Setup}
    (effect : SetupEffect environment system setup setupContext phase after result) :
    LocksMove after system ∧ after.attempts = system.attempts ∧ after.clock = system.clock := by
  cases effect with
  | refused => exact ⟨.kept rfl rfl, rfl, rfl⟩
  | failed => exact countFailure_locks _ _
  | waits => exact ⟨.kept rfl rfl, rfl, rfl⟩
  | hashed => exact ⟨.kept rfl rfl, rfl, rfl⟩
  | opened queued free rechecked =>
    obtain ⟨_, ⟨_, _, unlocked⟩ | ⟨_, created⟩⟩ := recheckSetup_spec rechecked
    · exact ⟨.ended rfl unlocked, rfl, rfl⟩
    · exact ⟨.kept rfl (by rw [created]; rfl), rfl, rfl⟩
  | committed =>
    exact ⟨.inl ⟨rfl, .inl (commitSetup_lockedUntil _ _ _ _ _)⟩, rfl, rfl⟩

theorem SetupEffect.idle {setup : Nat} {setupContext : SetupContext} {phase : SetupPhase}
    {result : Setup}
    (effect : SetupEffect environment system setup setupContext phase after result)
    (idle : phase.concludes environment setupContext = false) :
    after.lockedUntil = system.lockedUntil := by
  cases effect with
  | refused => rfl
  | failed deciding => rw [idle] at deciding; exact absurd deciding (by simp)
  | waits => rfl
  | hashed => rfl
  | opened queued free rechecked =>
    rw [queued, SetupPhase.concludes] at idle
    obtain ⟨_, ⟨exists', _⟩ | ⟨_, created⟩⟩ := recheckSetup_spec rechecked
    · rw [idle] at exists'
      exact absurd exists' (by simp)
    · rw [created]
      rfl
  | committed => exact commitSetup_lockedUntil _ _ _ _ _

theorem SessionsOnly.lockedUntil {later earlier : AuthDatabase}
    (only : SessionsOnly later earlier) : later.lockedUntil = earlier.lockedUntil := by
  rw [AuthDatabase.lockedUntil, AuthDatabase.lockedUntil, only.authSettings]

theorem readCurrentAuthSettingsForUser_locked {database : AuthDatabase} {now lockedUntil : Nat}
    (locked : database.lockedUntil = some lockedUntil) (inForce : now < lockedUntil) :
    (readCurrentAuthSettingsForUser database now).2 = database := by
  rcases readCurrentAuthSettingsForUser_cases database now with kept | ⟨passed, _⟩
  · exact kept
  · rw [locked] at passed
    simp at passed
    omega

theorem readCurrentAuthSettingsForUser_lockedUntil (database : AuthDatabase) (now : Nat) :
    (readCurrentAuthSettingsForUser database now).2.lockedUntil = database.lockedUntil ∨
      (readCurrentAuthSettingsForUser database now).2.lockedUntil = none := by
  rcases readCurrentAuthSettingsForUser_cases database now with kept | ⟨_, reset⟩
  · rw [kept]
    exact .inl rfl
  · rw [reset]
    exact .inr database.resetAuthFailureState_lockedUntil

end Moves

section Starts

variable {system : AuthSystem} {nowMs : Nat} {continued : AttemptContext → Attempt}
  {checked : Except AuthFailure ConfiguredAuthUser × AuthDatabase}

theorem LockChecked.lockedUntil {database : AuthDatabase}
    (holds : LockChecked database nowMs checked) :
    checked.2.lockedUntil = database.lockedUntil ∨ checked.2.lockedUntil = none := by
  rcases holds.database with kept | read
  · exact .inl (by rw [kept])
  · rw [read]
    exact readCurrentAuthSettingsForUser_lockedUntil database nowMs

theorem LocksSeen.begin (seen : LocksSeen system)
    (holds : LockChecked system.store.database nowMs checked)
    (holding : ∀ context, (continued context).context? = some context) :
    LocksSeen (system.beginAttempt checked nowMs continued) := by
  have move : LocksMove (system.beginAttempt checked nowMs continued) system :=
    .inl ⟨rfl, holds.lockedUntil⟩
  refine seen.later move ?_
  obtain ⟨new, attempts, outcome⟩ := beginAttempt_attempts system checked nowMs continued
  intro attempt member context held
  rw [attempts, List.mem_append, List.mem_singleton] at member
  rcases member with earlier | isNew
  · exact .inl ⟨attempt, earlier, held⟩
  · rw [isNew] at held
    rcases outcome with ⟨failure, ended⟩ | ⟨configured, passed, goesOn⟩
    · rw [ended] at held
      exact absurd held (by simp [Attempt.context?])
    · rw [goesOn, holding] at held
      cases Option.some.inj held
      obtain ⟨settings, unlocked⟩ := holds.passed configured passed
      refine .inr ⟨rfl, ?_⟩
      change checked.2.lockedUntil = none
      rw [AuthDatabase.lockedUntil, settings]
      exact unlocked

theorem beginAttempt_succeeds
    (holding : ∀ context, (continued context).context? = some context) {id : Nat}
    (succeeds : (system.beginAttempt checked nowMs continued).Succeeds id) :
    system.Succeeds id := by
  obtain ⟨new, attempts, outcome⟩ := beginAttempt_attempts system checked nowMs continued
  obtain ⟨result, finished⟩ := succeeds
  rw [attempts, List.getElem?_append] at finished
  split at finished
  · exact ⟨result, finished⟩
  · rw [List.getElem?_singleton] at finished
    split at finished
    · have isNew := Option.some.inj finished
      rcases outcome with ⟨failure, ended⟩ | ⟨configured, passed, goesOn⟩
      · rw [ended] at isNew
        exact absurd isNew (by simp)
      · have held := holding
          { nowMs
            settings := configured.settings
            user := configured.user
            locksSeen := system.log.locksRecorded }
        rw [← goesOn, isNew] at held
        exact absurd held (by simp [Attempt.context?])
    · exact absurd finished (by simp)

end Starts

section Steps

variable {environment : AuthEnvironment} {before after : AuthSystem} {event : AuthEvent}

theorem Calm.lockedUntil (calm : Calm after before) : after.lockedUntil = before.lockedUntil := by
  rw [AuthSystem.lockedUntil, AuthSystem.lockedUntil, AuthDatabase.lockedUntil,
    AuthDatabase.lockedUntil, calm.authSettings]

theorem Calm.seen (calm : Calm after before) (seen : LocksSeen before) : LocksSeen after :=
  seen.sameAttempts (.inl ⟨calm.locksRecorded, .inl calm.lockedUntil⟩) calm.attempts

theorem Calm.succeeds (calm : Calm after before) {id : Nat} (succeeds : after.Succeeds id) :
    before.Succeeds id := by
  rw [AuthSystem.Succeeds, calm.attempts] at succeeds
  exact succeeds

theorem finalizePrimaryFactorReset_locks (system : AuthSystem) (settings : AuthSettings)
    (primaryFactorHash : String) :
    LocksMove (system.finalizePrimaryFactorReset settings primaryFactorHash) system := by
  have cleared : SessionsOnly
      (system.finalizePrimaryFactorReset settings primaryFactorHash).store.database
      ((system.store.database.upsertAuthSettings primaryFactorHash settings.totpSecretCiphertext
        settings.sessionLifetimeDays).resetAuthFailureState) := ⟨rfl, rfl, rfl⟩
  exact .ended rfl
    (cleared.lockedUntil.trans (AuthDatabase.resetAuthFailureState_lockedUntil _))

theorem resetUserOtpEnrollment_lockedUntil (database : AuthDatabase) :
    database.resetUserOtpEnrollment.lockedUntil = none := by
  cases found : database.authSettings <;>
    simp [AuthDatabase.lockedUntil, AuthDatabase.resetUserOtpEnrollment,
      AuthDatabase.deleteAllAuthSessions, found]

theorem startSetup_calm (system : AuthSystem) (input : SetupInput) (nowMs : Nat) :
    (system.startSetup input nowMs).attempts = system.attempts ∧
      (system.startSetup input nowMs).log = system.log ∧
      ((system.startSetup input nowMs).lockedUntil = system.lockedUntil ∨
        (system.startSetup input nowMs).lockedUntil = none) ∧
      ∀ lockedUntil, system.lockedUntil = some lockedUntil → nowMs < lockedUntil →
        (system.startSetup input nowMs).lockedUntil = some lockedUntil := by
  have database := checkSetup_database system.store.database
    (resolveAuthInputUsername system.store.database input.username) nowMs
  refine ⟨rfl, rfl, ?_, ?_⟩
  · change (checkSetup _ _ nowMs).2.lockedUntil = _ ∨ (checkSetup _ _ nowMs).2.lockedUntil = _
    rcases database with kept | read
    · exact .inl (by rw [kept]; rfl)
    · rw [read]
      exact readCurrentAuthSettingsForUser_lockedUntil _ nowMs
  · intro lockedUntil locked inForce
    change (checkSetup _ _ nowMs).2.lockedUntil = _
    rcases database with kept | read
    · rw [kept]
      exact locked
    · rw [read, readCurrentAuthSettingsForUser_locked locked inForce]
      exact locked

theorem authStep_locksSeen (seen : LocksSeen before)
    (stepped : authStep environment before event = some after) : LocksSeen after := by
  cases event with
  | advanceClock nowMs =>
    simp only [authStep] at stepped
    split at stepped <;> cases stepped
    exact seen.sameAttempts (.kept rfl rfl) rfl
  | startLogin username primaryFactor totpCode nowMs =>
    simp only [authStep] at stepped
    split at stepped <;> cases stepped
    exact seen.begin (enforceConfiguredUserByUsername_checked _) fun _ => rfl
  | startRecovery username primaryFactor recoveryCode nowMs =>
    simp only [authStep] at stepped
    split at stepped <;> cases stepped
    exact seen.begin (enforceConfiguredUserByUsername_checked _) fun _ => rfl
  | startStepUp sessionId primaryFactor totpCode nowMs =>
    simp only [authStep] at stepped
    split at stepped <;> cases stepped
    obtain ⟨middle, calm, _, refused | ⟨session, begun⟩⟩ :=
      startStepUp_cases before sessionId primaryFactor totpCode nowMs
    · rw [refused]
      refine (calm.seen seen).later (.kept rfl rfl) ?_
      intro attempt member context held
      rcases List.mem_append.mp member with earlier | new
      · exact .inl ⟨attempt, earlier, held⟩
      · rw [List.mem_singleton.mp new] at held
        exact absurd held (by simp [Attempt.context?])
    · rw [begun]
      exact (calm.seen seen).begin (enforceConfiguredUserById_checked _) fun _ => rfl
  | resumeAttempt id resumption =>
    obtain ⟨attempt, middle, next, context, found, held, effect, result⟩ :=
      resumeAttempt_of_step stepped
    obtain ⟨move, attempts, _, same⟩ := effect.locks
    subst result
    refine seen.later move ?_
    intro other member otherContext otherHeld
    rcases List.mem_or_eq_of_mem_set member with earlier | new
    · exact .inl ⟨other, attempts ▸ earlier, otherHeld⟩
    · rw [new] at otherHeld
      rcases same with ended | same
      · rw [ended] at otherHeld
        exact absurd otherHeld (by simp)
      · rw [same] at otherHeld
        exact .inl ⟨attempt, List.mem_of_getElem? found, held.trans otherHeld⟩
  | startSetup input nowMs =>
    simp only [authStep] at stepped
    split at stepped <;> cases stepped
    obtain ⟨attempts, log, locked, _⟩ := startSetup_calm before input nowMs
    exact seen.sameAttempts (.inl ⟨by rw [log], locked⟩) attempts
  | resumeSetup id resumption =>
    obtain ⟨context, phase, middle, next, _, effect, result⟩ := resumeSetup_of_step stepped
    obtain ⟨move, attempts, _⟩ := effect.locks
    subst result
    exact seen.sameAttempts move attempts
  | resolveSession input =>
    simp only [authStep] at stepped
    split at stepped <;> cases stepped
    exact (Calm.ofStore (resolveSession_sessionsOnly before.store input)).seen seen
  | getAuthStatus sessionId nowMs =>
    simp only [authStep] at stepped
    split at stepped <;> cases stepped
    obtain ⟨middle, calm, _, resolved | read⟩ := getAuthStatus_cases before sessionId nowMs
    · rw [resolved]
      exact calm.seen seen
    · rw [read]
      exact (calm.seen seen).sameAttempts
        (.inl ⟨rfl, readCurrentAuthSettingsForUser_lockedUntil _ nowMs⟩) rfl
  | logout sessionId =>
    cases Option.some.inj stepped
    exact (Calm.ofStore (logout_sessionsOnly before.store sessionId)).seen seen
  | issueWebSocketTicket sessionId ticketId nowMs =>
    simp only [authStep] at stepped
    split at stepped <;> cases stepped
    exact (issueWebSocketTicket_calm before sessionId ticketId nowMs).seen seen
  | upgradeWebSocket sessionId ticketId resolvedAt =>
    simp only [authStep] at stepped
    split at stepped <;> cases stepped
    exact (upgradeWebSocket_calm before sessionId ticketId resolvedAt).seen seen
  | resetUserOtpEnrollment =>
    cases Option.some.inj stepped
    exact seen.sameAttempts (.ended rfl (resetUserOtpEnrollment_lockedUntil _)) rfl
  | updateUserEnabled userId enabled =>
    cases Option.some.inj stepped
    exact seen.sameAttempts (.kept rfl (updateUserEnabled_authSettings _ userId enabled)) rfl
  | finalizePrimaryFactorReset settings primaryFactorHash =>
    cases Option.some.inj stepped
    exact seen.sameAttempts (finalizePrimaryFactorReset_locks before settings primaryFactorHash)
      rfl
  | regenerateRecoveryCodes codeHashes =>
    simp only [authStep] at stepped
    split at stepped
    · exact absurd stepped (by simp)
    · split at stepped <;> cases stepped
      exact seen.sameAttempts (.kept rfl rfl) rfl

theorem upgradeWebSocket_clock (system : AuthSystem) (sessionId : SessionId)
    (ticketId : TicketId) (resolvedAt : Nat) :
    (system.upgradeWebSocket sessionId ticketId resolvedAt).clock = resolvedAt := by
  rw [AuthSystem.upgradeWebSocket]
  split <;> rfl

theorem issueWebSocketTicket_clock (system : AuthSystem) (sessionId : SessionId)
    (ticketId : TicketId) (nowMs : Nat) :
    (system.issueWebSocketTicket sessionId ticketId nowMs).clock = system.clock := by
  rw [AuthSystem.issueWebSocketTicket]
  split <;> rfl

theorem authStep_clock (stepped : authStep environment before event = some after) :
    before.clock ≤ after.clock := by
  cases event with
  | advanceClock nowMs =>
    simp only [authStep] at stepped
    split at stepped <;> cases stepped
    rename_i notEarlier
    exact Nat.le_of_not_lt notEarlier
  | startLogin username primaryFactor totpCode nowMs =>
    simp only [authStep] at stepped
    split at stepped <;> cases stepped
    exact Nat.le_refl _
  | startRecovery username primaryFactor recoveryCode nowMs =>
    simp only [authStep] at stepped
    split at stepped <;> cases stepped
    exact Nat.le_refl _
  | startStepUp sessionId primaryFactor totpCode nowMs =>
    simp only [authStep] at stepped
    split at stepped <;> cases stepped
    obtain ⟨middle, _, clock, refused | ⟨session, begun⟩⟩ :=
      startStepUp_cases before sessionId primaryFactor totpCode nowMs
    · rw [refused]
      exact clock.ge
    · rw [begun]
      exact clock.ge
  | resumeAttempt id resumption =>
    obtain ⟨attempt, middle, next, context, _, _, effect, result⟩ :=
      resumeAttempt_of_step stepped
    rw [result]
    exact effect.locks.2.2.1.ge
  | startSetup input nowMs =>
    simp only [authStep] at stepped
    split at stepped <;> cases stepped
    exact Nat.le_refl _
  | resumeSetup id resumption =>
    obtain ⟨context, phase, middle, next, _, effect, result⟩ := resumeSetup_of_step stepped
    rw [result]
    exact effect.locks.2.2.ge
  | resolveSession input =>
    simp only [authStep] at stepped
    split at stepped <;> cases stepped
    exact Nat.le_refl _
  | getAuthStatus sessionId nowMs =>
    simp only [authStep] at stepped
    split at stepped <;> cases stepped
    obtain ⟨middle, _, clock, resolved | read⟩ := getAuthStatus_cases before sessionId nowMs
    · rw [resolved]
      exact clock.ge
    · rw [read]
      exact clock.ge
  | logout sessionId =>
    cases Option.some.inj stepped
    exact Nat.le_refl _
  | issueWebSocketTicket sessionId ticketId nowMs =>
    simp only [authStep] at stepped
    split at stepped <;> cases stepped
    exact (issueWebSocketTicket_clock before sessionId ticketId nowMs).ge
  | upgradeWebSocket sessionId ticketId resolvedAt =>
    simp only [authStep] at stepped
    split at stepped <;> cases stepped
    rename_i notEarlier
    rw [upgradeWebSocket_clock]
    exact Nat.le_of_not_lt notEarlier
  | resetUserOtpEnrollment =>
    cases Option.some.inj stepped
    exact Nat.le_refl _
  | updateUserEnabled userId enabled =>
    cases Option.some.inj stepped
    exact Nat.le_refl _
  | finalizePrimaryFactorReset settings primaryFactorHash =>
    cases Option.some.inj stepped
    exact Nat.le_refl _
  | regenerateRecoveryCodes codeHashes =>
    simp only [authStep] at stepped
    split at stepped
    · exact absurd stepped (by simp)
    · split at stepped <;> cases stepped
      exact Nat.le_refl _

/-- The lock stands, and no attempt has succeeded that had not. -/
structure Stands (lockedUntil : Nat) (after before : AuthSystem) : Prop where
  locked : after.lockedUntil = some lockedUntil
  succeeds : ∀ id, after.Succeeds id → before.Succeeds id

theorem Calm.stands (calm : Calm after before) {lockedUntil : Nat}
    (locked : before.lockedUntil = some lockedUntil) : Stands lockedUntil after before :=
  ⟨calm.lockedUntil.trans locked, fun _ succeeds => calm.succeeds succeeds⟩

theorem Stands.begin {system : AuthSystem} {nowMs lockedUntil : Nat}
    {continued : AttemptContext → Attempt}
    {checked : Except AuthFailure ConfiguredAuthUser × AuthDatabase}
    (locked : system.lockedUntil = some lockedUntil) (inForce : nowMs < lockedUntil)
    (holds : LockChecked system.store.database nowMs checked)
    (holding : ∀ context, (continued context).context? = some context) :
    Stands lockedUntil (system.beginAttempt checked nowMs continued) system where
  locked := by
    change checked.2.lockedUntil = some lockedUntil
    rw [holds.locked locked inForce]
    exact locked
  succeeds := fun _ succeeds => beginAttempt_succeeds holding succeeds

theorem authStep_stands {lockedUntil : Nat} (seen : LocksSeen before)
    (respects : RespectsLock environment before event)
    (stepped : authStep environment before event = some after)
    (locked : before.lockedUntil = some lockedUntil) (early : before.clock < lockedUntil) :
    Stands lockedUntil after before := by
  have inForce : before.lockInForce = true := by simp [AuthSystem.lockInForce, locked, early]
  have respected := respects inForce
  cases event with
  | advanceClock nowMs =>
    simp only [authStep] at stepped
    split at stepped <;> cases stepped
    exact ⟨locked, fun id succeeds => succeeds⟩
  | startLogin username primaryFactor totpCode nowMs =>
    simp only [authStep] at stepped
    split at stepped <;> cases stepped
    rename_i arrived
    exact .begin locked (by omega) (enforceConfiguredUserByUsername_checked _) fun _ => rfl
  | startRecovery username primaryFactor recoveryCode nowMs =>
    simp only [authStep] at stepped
    split at stepped <;> cases stepped
    rename_i arrived
    exact .begin locked (by omega) (enforceConfiguredUserByUsername_checked _) fun _ => rfl
  | startStepUp sessionId primaryFactor totpCode nowMs =>
    simp only [authStep] at stepped
    split at stepped <;> cases stepped
    rename_i arrived
    obtain ⟨middle, calm, _, refused | ⟨session, begun⟩⟩ :=
      startStepUp_cases before sessionId primaryFactor totpCode nowMs
    · rw [refused]
      refine ⟨calm.lockedUntil.trans locked, ?_⟩
      intro id succeeds
      obtain ⟨result, finished⟩ := succeeds
      refine calm.succeeds ?_
      rw [List.getElem?_append] at finished
      split at finished
      · exact ⟨result, finished⟩
      · rw [List.getElem?_singleton] at finished
        split at finished
        · exact absurd (Option.some.inj finished) (by simp)
        · exact absurd finished (by simp)
    · rw [begun]
      have stands : Stands lockedUntil
          (middle.beginAttempt
            (enforceConfiguredUserById middle.store.database session.userId nowMs) nowMs
            fun context =>
              .stepUp context session.id primaryFactor totpCode .verifyingPrimaryFactor) middle :=
        .begin (calm.lockedUntil.trans locked) (by omega) (enforceConfiguredUserById_checked _)
          fun _ => rfl
      exact ⟨stands.locked, fun id succeeds => calm.succeeds (stands.succeeds id succeeds)⟩
  | resumeAttempt id resumption =>
    obtain ⟨attempt, middle, next, context, found, held, effect, result⟩ :=
      resumeAttempt_of_step stepped
    obtain ⟨bounded, unlocked⟩ := seen attempt (List.mem_of_getElem? found) context held
    -- the lock is not over, so the attempt passed its check before the lock was recorded
    have earlier : context.locksSeen < before.log.locksRecorded := by
      rcases Nat.lt_or_eq_of_le bounded with less | same
      · exact less
      · rw [unlocked same] at locked
        exact absurd locked (by simp)
    obtain ⟨kept, notSucceeded⟩ := effect.idle (respected attempt context found held earlier)
    subst kept result
    refine ⟨locked, ?_⟩
    intro other succeeds
    obtain ⟨result, finished⟩ := succeeds
    rw [List.getElem?_set] at finished
    split at finished
    · split at finished
      · exact absurd (Option.some.inj finished) (notSucceeded result)
      · exact absurd finished (by simp)
    · exact ⟨result, finished⟩
  | startSetup input nowMs =>
    simp only [authStep] at stepped
    split at stepped <;> cases stepped
    rename_i arrived
    obtain ⟨attempts, _, _, stands⟩ := startSetup_calm before input nowMs
    refine ⟨stands lockedUntil locked (by omega), ?_⟩
    intro id succeeds
    rw [AuthSystem.Succeeds, attempts] at succeeds
    exact succeeds
  | resumeSetup id resumption =>
    obtain ⟨context, phase, middle, next, found, effect, result⟩ := resumeSetup_of_step stepped
    have kept := effect.idle (respected _ found)
    have attempts := effect.locks.2.1
    subst result
    refine ⟨kept.trans locked, ?_⟩
    intro id succeeds
    change ∃ result, middle.attempts[id]? = _ at succeeds
    rw [attempts] at succeeds
    exact succeeds
  | resolveSession input =>
    simp only [authStep] at stepped
    split at stepped <;> cases stepped
    exact (Calm.ofStore (resolveSession_sessionsOnly before.store input)).stands locked
  | getAuthStatus sessionId nowMs =>
    simp only [authStep] at stepped
    split at stepped <;> cases stepped
    rename_i arrived
    obtain ⟨middle, calm, _, resolved | read⟩ := getAuthStatus_cases before sessionId nowMs
    · rw [resolved]
      exact calm.stands locked
    · have middleLocked := calm.lockedUntil.trans locked
      rw [read, readCurrentAuthSettingsForUser_locked middleLocked (by omega)]
      exact calm.stands locked
  | logout sessionId =>
    cases Option.some.inj stepped
    exact (Calm.ofStore (logout_sessionsOnly before.store sessionId)).stands locked
  | issueWebSocketTicket sessionId ticketId nowMs =>
    simp only [authStep] at stepped
    split at stepped <;> cases stepped
    exact (issueWebSocketTicket_calm before sessionId ticketId nowMs).stands locked
  | upgradeWebSocket sessionId ticketId resolvedAt =>
    simp only [authStep] at stepped
    split at stepped <;> cases stepped
    exact (upgradeWebSocket_calm before sessionId ticketId resolvedAt).stands locked
  | resetUserOtpEnrollment => exact respected.elim
  | updateUserEnabled userId enabled =>
    cases Option.some.inj stepped
    refine ⟨?_, fun id succeeds => succeeds⟩
    change (before.store.database.updateUserEnabled userId enabled).lockedUntil = _
    rw [AuthDatabase.lockedUntil, updateUserEnabled_authSettings]
    exact locked
  | finalizePrimaryFactorReset settings primaryFactorHash => exact respected.elim
  | regenerateRecoveryCodes codeHashes =>
    simp only [authStep] at stepped
    split at stepped
    · exact absurd stepped (by simp)
    · split at stepped <;> cases stepped
      exact ⟨locked, fun id succeeds => succeeds⟩

end Steps

theorem run_locksSeen {environment : AuthEnvironment} {database : AuthDatabase} {clock : Nat}
    {allowed : AuthSystem → AuthEvent → Prop} {system : AuthSystem}
    (reached : Reaches (authStep environment) allowed (.start database clock) system) :
    LocksSeen system := by
  refine reached.invariant LocksSeen ?_ fun _ _ _ seen _ stepped =>
    authStep_locksSeen seen stepped
  intro attempt member
  exact absurd member (by simp [AuthSystem.start])

/-- Where every step respects the lock, a lock stands until its time, and no attempt succeeds
before. -/
theorem lockout_stands {environment : AuthEnvironment} {database : AuthDatabase} {clock : Nat}
    {system later : AuthSystem} {lockedUntil : Nat}
    (reached : Reaches (authStep environment) Unrestricted (.start database clock) system)
    (locked : system.lockedUntil = some lockedUntil)
    (continued : Reaches (authStep environment) (RespectsLock environment) system later)
    (early : later.clock < lockedUntil) :
    later.lockedUntil = some lockedUntil ∧ ∀ id, later.Succeeds id → system.Succeeds id := by
  have stands : LocksSeen later ∧ (later.clock < lockedUntil → Stands lockedUntil later system) := by
    refine continued.invariant (fun state => LocksSeen state ∧
      (state.clock < lockedUntil → Stands lockedUntil state system)) ?_ ?_
    · exact ⟨run_locksSeen reached, fun _ => ⟨locked, fun id succeeds => succeeds⟩⟩
    · intro before event after holds respects stepped
      refine ⟨authStep_locksSeen holds.1 stepped, ?_⟩
      intro afterEarly
      have beforeEarly : before.clock < lockedUntil :=
        Nat.lt_of_le_of_lt (authStep_clock stepped) afterEarly
      have earlier := holds.2 beforeEarly
      have step := authStep_stands holds.1 respects stepped earlier.locked beforeEarly
      exact ⟨step.locked, fun id succeeds => earlier.succeeds id (step.succeeds id succeeds)⟩
  exact ⟨(stands.2 early).locked, (stands.2 early).succeeds⟩

theorem Attempt.succeeds_of_succeeded {system : AuthSystem} {id : Nat}
    (succeeded : system.attempts[id]?.any Attempt.succeeded = true) : system.Succeeds id := by
  obtain ⟨attempt, found, isSuccess⟩ := (Option.any_eq_true _ _).mp succeeded
  cases attempt with
  | finished result =>
    cases result with
    | ok result => exact ⟨result, found⟩
    | error failure => exact absurd isSuccess (by simp [Attempt.succeeded])
  | login => exact absurd isSuccess (by simp [Attempt.succeeded])
  | recovery => exact absurd isSuccess (by simp [Attempt.succeeded])
  | stepUp => exact absurd isSuccess (by simp [Attempt.succeeded])

section Samples

def sampleEnvironment : AuthEnvironment where
  verifyPrimaryFactor := fun primaryFactor primaryFactorHash => primaryFactor = primaryFactorHash
  verifyRecoveryCode := fun recoveryCode codeHash => recoveryCode = codeHash
  hotp := fun _ _ _ => "123456".toList

def sampleDatabase : AuthDatabase where
  users := [sampleOperator]
  authSettings := some {
    primaryFactorHash := "open"
    totpSecretCiphertext := encryptAuthSecret ['i'] ['p']
    totpLastUsedCounter := none
    sessionLifetimeDays := 7
    failedPrimaryFactorAttempts := 0
    lockedUntil := none }
  authRecoveryCodes := OrderedMap.empty.set "code" none
  authSessions := .empty
  authWebSocketTickets := .empty

def sampleResumption : Resumption where
  opened := .ok { secret := "secret", algorithm := .sha256 }
  sessionId := "session"

def sampleFailures (first : Nat) : List AuthEvent :=
  [.startRecovery none "wrong" "" 1000, .resumeAttempt first sampleResumption,
    .startRecovery none "wrong" "" 1000, .resumeAttempt (first + 1) sampleResumption,
    .startRecovery none "wrong" "" 1000, .resumeAttempt (first + 2) sampleResumption]

/-- A login that arrives under a lock is refused, and the lock stands. -/
theorem lockout_stands_one :
    ∃ system later, Reaches (authStep sampleEnvironment) Unrestricted
        (.start sampleDatabase 1000) system ∧
      system.lockedUntil = some 601000 ∧
      Reaches (authStep sampleEnvironment) (RespectsLock sampleEnvironment) system later ∧
      later.clock = 600000 ∧ later.attempts.length = 4 ∧
      later.lockedUntil = some 601000 ∧ ∀ id, later.Succeeds id → system.Succeeds id := by
  have traced : (run (authStep sampleEnvironment) (fun _ _ => true) (.start sampleDatabase 1000)
      (sampleFailures 0)).map (fun system => (system.lockedUntil,
        (run (authStep sampleEnvironment)
          (fun _ event => match event with
            | .advanceClock _ => true
            | .startLogin .. => true
            | _ => false) system
          [.advanceClock 600000, .startLogin none "open" "123456".toList 600000]).map
            (fun later => (later.clock, later.attempts.length)))) =
      some (some 601000, some (600000, 4)) := by
    decide +kernel
  obtain ⟨system, ran, facts⟩ := Option.map_eq_some_iff.mp traced
  obtain ⟨locked, continued⟩ := Prod.mk.inj facts
  obtain ⟨later, ranOn, laterFacts⟩ := Option.map_eq_some_iff.mp continued
  obtain ⟨clock, attempts⟩ := Prod.mk.inj laterFacts
  have reached : Reaches (authStep sampleEnvironment) Unrestricted
      (.start sampleDatabase 1000) system := (reaches_of_run ran).unrestricted
  have respects : Reaches (authStep sampleEnvironment) (RespectsLock sampleEnvironment) system
      later := by
    refine (reaches_of_run ranOn).weaken ?_
    intro state event passes inForce
    cases event with
    | advanceClock nowMs => trivial
    | startLogin username primaryFactor totpCode nowMs => trivial
    | _ => exact absurd passes (by simp)
  exact ⟨system, later, reached, locked, respects, clock, attempts,
    lockout_stands reached locked respects (by omega)⟩

def AuthEvent.ofAttempt : AuthEvent → Bool
  | .advanceClock _ => true
  | .startLogin .. => true
  | .startRecovery .. => true
  | .startStepUp .. => true
  | .resumeAttempt .. => true
  | _ => false

/-- A login is under way while three recovery logins fail: it ends the lock that they record and
succeeds ten minutes before its time. -/
theorem lockout_ended_early :
    ∃ system later, Reaches (authStep sampleEnvironment) (fun _ event => event.ofAttempt = true)
        (.start sampleDatabase 1000) system ∧
      system.lockedUntil = some 601000 ∧
      Reaches (authStep sampleEnvironment) (fun _ event => event.ofAttempt = true) system later ∧
      later.clock = 1000 ∧ later.lockedUntil = none ∧ ¬ system.Succeeds 0 ∧ later.Succeeds 0 := by
  have traced : (run (authStep sampleEnvironment) (fun _ event => event.ofAttempt)
      (.start sampleDatabase 1000)
      ([.startLogin none "open" "123456".toList 1000, .resumeAttempt 0 sampleResumption,
        .resumeAttempt 0 sampleResumption] ++ sampleFailures 1)).map (fun system =>
          (system.lockedUntil, (system.attempts[0]?.bind Attempt.context?).isSome,
            (run (authStep sampleEnvironment) (fun _ event => event.ofAttempt) system
              [.resumeAttempt 0 sampleResumption, .resumeAttempt 0 sampleResumption]).map
                (fun later => (later.clock, later.lockedUntil,
                  later.attempts[0]?.any Attempt.succeeded)))) =
      some (some 601000, true, some (1000, none, true)) := by
    decide +kernel
  obtain ⟨system, ran, facts⟩ := Option.map_eq_some_iff.mp traced
  simp only [Prod.mk.injEq] at facts
  obtain ⟨locked, underWay, continued⟩ := facts
  obtain ⟨later, ranOn, laterFacts⟩ := Option.map_eq_some_iff.mp continued
  simp only [Prod.mk.injEq] at laterFacts
  obtain ⟨clock, ended, succeeded⟩ := laterFacts
  refine ⟨system, later, reaches_of_run ran, locked, reaches_of_run ranOn, clock, ended, ?_,
    Attempt.succeeds_of_succeeded succeeded⟩
  rintro ⟨result, finished⟩
  rw [finished] at underWay
  exact absurd underWay (by simp [Attempt.context?])

end Samples

end Metidos.Auth
