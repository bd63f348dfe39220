import Metidos.Auth.Lockout

/-!
The TOTP counters over runs.  Login and step-up move the stored counter up by a conditional update,
so what they accept increases.  The setup accepts a code without moving the counter; its time step
is accepted once more unless every later code is newer.
-/

namespace Metidos.Auth

open Transition

/-- No login or step-up presents a code that the stored counter lets pass, of a time step at or below
the one that a setup accepted; and nobody resets the enrollment. -/
def NewerThanSetup (environment : AuthEnvironment) (system : AuthSystem) (event : AuthEvent) :
    Prop :=
  match event with
  | .resumeAttempt id _ =>
    ∀ attempt matchedCounter, system.attempts[id]? = some attempt →
      attempt.matchedCounter? environment = some matchedCounter →
      system.store.database.totpLastUsedCounter.all (· < matchedCounter) = true →
      ∀ used ∈ system.log.setupCounters, used < matchedCounter
  | .resetUserOtpEnrollment => False
  | .finalizePrimaryFactorReset .. => False
  | _ => True

structure AttemptSound (enrolled : Bool) (attempt : Attempt) : Prop where
  contexts : ∀ context, attempt.context? = some context →
    hasTotpEnrollment context.settings = true → enrolled = true
  checks : attempt.totpCheck?.isSome = true →
    ∃ context, attempt.context? = some context ∧ hasTotpEnrollment context.settings = true

structure CountersInvariant (system : AuthSystem) : Prop where
  increasing : system.log.acceptedCounters.Pairwise (· < ·)
  bounded : ∀ counter ∈ system.log.acceptedCounters, counter ∈ system.log.setupCounters ∨
    ∃ stored, system.store.database.totpLastUsedCounter = some stored ∧ counter ≤ stored
  unenrolled : system.store.database.isEnrolled = false → system.log.acceptedCounters = []
  attempts : ∀ attempt ∈ system.attempts, AttemptSound system.store.database.isEnrolled attempt
  opened : ∀ (id : Nat) context phase, system.setups[id]? = some (.running context phase) →
    phase.isOpen = true → system.openTransaction = some id
  openUnenrolled : system.openTransaction.isSome = true →
    system.store.database.isEnrolled = false

structure SameCounters (after before : AuthSystem) : Prop where
  acceptedCounters : after.log.acceptedCounters = before.log.acceptedCounters
  setupCounters : after.log.setupCounters = before.log.setupCounters
  isEnrolled : after.store.database.isEnrolled = before.store.database.isEnrolled
  totpLastUsedCounter :
    after.store.database.totpLastUsedCounter = before.store.database.totpLastUsedCounter
  openTransaction : after.openTransaction = before.openTransaction

variable {environment : AuthEnvironment} {before middle after system : AuthSystem}

theorem AttemptSound.finished (enrolled : Bool) (result : Except AuthFailure AttemptResult) :
    AttemptSound enrolled (.finished result) where
  contexts := fun context held => absurd held (by simp [Attempt.context?])
  checks := fun isSome => absurd isSome (by simp [Attempt.totpCheck?])

theorem CountersInvariant.frame (holds : CountersInvariant before)
    (same : SameCounters after before)
    (attempts : ∀ attempt ∈ after.attempts,
      attempt ∈ before.attempts ∨ AttemptSound before.store.database.isEnrolled attempt)
    (setups : ∀ (id : Nat) context phase, after.setups[id]? = some (.running context phase) →
      phase.isOpen = true → before.setups[id]? = some (.running context phase)) :
    CountersInvariant after where
  increasing := by
    rw [same.acceptedCounters]
    exact holds.increasing
  bounded := by
    rw [same.acceptedCounters, same.setupCounters, same.totpLastUsedCounter]
    exact holds.bounded
  unenrolled := by
    rw [same.isEnrolled, same.acceptedCounters]
    exact holds.unenrolled
  attempts := by
    intro attempt member
    rw [same.isEnrolled]
    rcases attempts attempt member with earlier | sound
    · exact holds.attempts attempt earlier
    · exact sound
  opened := by
    intro id context phase found isOpen
    rw [same.openTransaction]
    exact holds.opened id context phase (setups id context phase found isOpen) isOpen
  openUnenrolled := by
    rw [same.isEnrolled, same.openTransaction]
    exact holds.openUnenrolled

theorem SameCounters.refl (system : AuthSystem) : SameCounters system system :=
  ⟨rfl, rfl, rfl, rfl, rfl⟩

theorem SameCounters.trans (second : SameCounters after middle)
    (first : SameCounters middle before) : SameCounters after before where
  acceptedCounters := second.acceptedCounters.trans first.acceptedCounters
  setupCounters := second.setupCounters.trans first.setupCounters
  isEnrolled := second.isEnrolled.trans first.isEnrolled
  totpLastUsedCounter := second.totpLastUsedCounter.trans first.totpLastUsedCounter
  openTransaction := second.openTransaction.trans first.openTransaction

theorem SameCounters.ofSettings (log : after.log.acceptedCounters = before.log.acceptedCounters)
    (setups : after.log.setupCounters = before.log.setupCounters)
    (openTransaction : after.openTransaction = before.openTransaction)
    (settings : after.store.database.authSettings = before.store.database.authSettings) :
    SameCounters after before :=
  ⟨log, setups, by rw [AuthDatabase.isEnrolled, settings]; rfl,
    by rw [AuthDatabase.totpLastUsedCounter, settings]; rfl, openTransaction⟩

theorem SameCounters.ofFailures {database : AuthDatabase}
    (only : FailuresOnly database before.store.database) :
    SameCounters (before.setDatabase database) before :=
  ⟨rfl, rfl, only.isEnrolled, only.totpLastUsedCounter, rfl⟩

theorem clearFailures_counters (system : AuthSystem) : SameCounters system.clearFailures system :=
  .ofFailures (.reset _)

theorem CountersInvariant.sameRequests (holds : CountersInvariant before)
    (same : SameCounters after before) (attempts : after.attempts = before.attempts)
    (setups : after.setups = before.setups) : CountersInvariant after := by
  refine holds.frame same ?_ ?_
  · intro attempt member
    rw [attempts] at member
    exact .inl member
  · intro id context phase found _
    rw [setups] at found
    exact found

theorem countFailure_counters (context : AttemptContext) (failure : AuthFailure) :
    SameCounters (system.countFailure context failure).1 system ∧
      (system.countFailure context failure).1.attempts = system.attempts ∧
      (system.countFailure context failure).1.setups = system.setups := by
  rw [AuthSystem.countFailure]
  split
  · exact ⟨.refl system, rfl, rfl⟩
  · rename_i database counted
    have only := (incrementFailedAttempts_spec counted).1
    exact ⟨⟨rfl, rfl, only.isEnrolled, only.totpLastUsedCounter, rfl⟩, rfl, rfl⟩
  · rename_i database counted
    exact ⟨.ofFailures (incrementFailedAttempts_spec counted).1, rfl, rfl⟩

theorem CountersInvariant.checkTotp {attempt : Attempt} {id : Nat}
    (holds : CountersInvariant system) (running : system.attempts[id]? = some attempt)
    (newerThanSetup : ∀ matchedCounter, attempt.matchedCounter? environment = some matchedCounter →
      system.store.database.totpLastUsedCounter.all (· < matchedCounter) = true →
      ∀ used ∈ system.log.setupCounters, used < matchedCounter)
    (checked : TotpEffect environment system attempt middle) :
    CountersInvariant middle ∧ middle.attempts = system.attempts ∧
      middle.setups = system.setups ∧
      middle.store.database.isEnrolled = system.store.database.isEnrolled := by
  cases checked with
  | refused => exact ⟨holds, rfl, rfl, rfl⟩
  | @accepted settings matchedCounter matched found newer =>
    have newerThanAll : ∀ counter ∈ system.log.acceptedCounters, counter < matchedCounter := by
      intro counter member
      rcases holds.bounded counter member with setup | ⟨stored, isStored, most⟩
      · refine newerThanSetup matchedCounter matched ?_ counter setup
        rw [AuthDatabase.totpLastUsedCounter, found]
        exact newer
      · rw [AuthDatabase.totpLastUsedCounter, found] at isStored
        have isSome : settings.totpLastUsedCounter = some stored := isStored
        rw [isSome] at newer
        simp at newer
        omega
    have sameEnrollment : (system.setDatabase { system.store.database with
        authSettings := some { settings with
          totpLastUsedCounter := some matchedCounter } }).store.database.isEnrolled =
        system.store.database.isEnrolled := by
      rw [AuthDatabase.isEnrolled, AuthDatabase.isEnrolled, found]
      rfl
    have isEnrolled : system.store.database.isEnrolled = true := by
      have sound := holds.attempts attempt (List.mem_of_getElem? running)
      have checks : attempt.totpCheck?.isSome = true := by
        rw [Attempt.matchedCounter?, Option.bind_eq_bind, Option.bind_eq_some_iff] at matched
        obtain ⟨held, _, rest⟩ := matched
        obtain ⟨check, isCheck, _⟩ := Option.bind_eq_some_iff.mp rest
        rw [isCheck]
        rfl
      obtain ⟨held, isHeld, enrolled⟩ := sound.checks checks
      exact sound.contexts held isHeld enrolled
    refine ⟨⟨?_, ?_, ?_, ?_, holds.opened, ?_⟩, rfl, rfl, sameEnrollment⟩
    · refine List.pairwise_append.mpr ⟨holds.increasing, List.pairwise_singleton _ _, ?_⟩
      intro counter member last isLast
      rw [List.mem_singleton.mp isLast]
      exact newerThanAll counter member
    · intro counter member
      rcases List.mem_append.mp member with earlier | last
      · exact .inr ⟨matchedCounter, rfl, (newerThanAll counter earlier).le⟩
      · exact .inr ⟨matchedCounter, rfl, (List.mem_singleton.mp last).le⟩
    · intro unenrolled
      rw [sameEnrollment, isEnrolled] at unenrolled
      exact absurd unenrolled (by simp)
    · intro other member
      rw [sameEnrollment]
      exact holds.attempts other member
    · intro isOpen
      rw [sameEnrollment]
      exact holds.openUnenrolled isOpen

theorem CountersInvariant.resume {attempt next : Attempt} {context : AttemptContext} {id : Nat}
    {resumption : Resumption} (holds : CountersInvariant before)
    (running : before.attempts[id]? = some attempt) (held : attempt.context? = some context)
    (newerThanSetup : ∀ matchedCounter, attempt.matchedCounter? environment = some matchedCounter →
      before.store.database.totpLastUsedCounter.all (· < matchedCounter) = true →
      ∀ used ∈ before.log.setupCounters, used < matchedCounter)
    (effect : AttemptEffect environment before attempt context resumption after next) :
    CountersInvariant { after with attempts := after.attempts.set id next } := by
  have sound := holds.attempts attempt (List.mem_of_getElem? running)
  -- the attempt goes on under the context that it held, or has ended
  have continuing : ∀ {other : Attempt}, other.context? = some context →
      (other.totpCheck?.isSome → hasTotpEnrollment context.settings) →
      AttemptSound before.store.database.isEnrolled other := by
    intro other same checks
    refine ⟨?_, fun isSome => ⟨context, same, checks isSome⟩⟩
    intro otherContext otherHeld enrolled
    rw [same] at otherHeld
    cases Option.some.inj otherHeld
    exact sound.contexts context held enrolled
  have replaced : ∀ {state : AuthSystem} {other : Attempt}, CountersInvariant state →
      state.store.database.isEnrolled = before.store.database.isEnrolled →
      AttemptSound before.store.database.isEnrolled other →
      CountersInvariant { state with attempts := state.attempts.set id other } := by
    intro state other stateHolds sameEnrollment otherSound
    refine stateHolds.frame (.ofSettings rfl rfl rfl rfl) ?_ fun _ _ _ found _ => found
    intro attempt member
    rcases List.mem_or_eq_of_mem_set member with earlier | new
    · exact .inl earlier
    · rw [new, sameEnrollment]
      exact .inr otherSound
  cases effect with
  | waits idle same notHolding holdsNone enrolled =>
    exact replaced holds rfl (continuing same enrolled)
  | refused => exact replaced holds rfl (.finished _ _)
  | @failed middle failure deciding notHolding checked =>
    obtain ⟨middleHolds, _, _, sameEnrollment⟩ :=
      holds.checkTotp running newerThanSetup checked
    obtain ⟨same, attempts, setups⟩ := @countFailure_counters middle context failure
    obtain ⟨error, ended⟩ := @countFailure_snd middle context failure
    rw [ended]
    exact replaced (middleHolds.sameRequests same attempts setups)
      (same.isEnrolled.trans sameEnrollment) (.finished _ _)
  | @verified middle _ deciding same notHolding holdsNone checksNone checked =>
    obtain ⟨middleHolds, _, _, sameEnrollment⟩ :=
      holds.checkTotp running newerThanSetup checked
    have cleared := clearFailures_counters middle
    exact replaced (middleHolds.sameRequests cleared rfl rfl)
      (cleared.isEnrolled.trans sameEnrollment)
      (continuing same fun isSome => absurd isSome (by simp [checksNone]))
  | @recovered codeHash _ deciding same notHolding isHeld checksNone unused =>
    have marked : SameCounters
        (before.setDatabase { before.store.database with
          authRecoveryCodes := before.store.database.authRecoveryCodes.set codeHash
            (some context.nowMs) }) before := .ofSettings rfl rfl rfl rfl
    have cleared := (clearFailures_counters _).trans marked
    exact replaced (holds.sameRequests cleared rfl rfl) cleared.isEnrolled
      (continuing same fun isSome => absurd isSome (by simp [checksNone]))
  | @steppedUp middle _ _ deciding notHolding checked =>
    obtain ⟨middleHolds, _, _, sameEnrollment⟩ :=
      holds.checkTotp running newerThanSetup checked
    have cleared := clearFailures_counters middle
    have clearedHolds := middleHolds.sameRequests cleared rfl rfl
    exact replaced (clearedHolds.sameRequests (.ofSettings rfl rfl rfl rfl) rfl rfl)
      (cleared.isEnrolled.trans sameEnrollment) (.finished _ _)
  | created =>
    exact replaced (holds.sameRequests (.ofSettings rfl rfl rfl rfl) rfl rfl) rfl
      (.finished _ _)

theorem CountersInvariant.commit {id : Nat} {context : SetupContext} {matchedCounter : Nat}
    {material : SetupMaterial} {user : UserRecord} {resumption : SetupResumption}
    (holds : CountersInvariant before)
    (running : before.setups[id]? =
      some (.running context (.encryptingSecret matchedCounter material user))) :
    CountersInvariant { (before.commitSetup context matchedCounter material user resumption).1 with
      setups := (before.commitSetup context matchedCounter material user
          resumption).1.setups.set id
        (before.commitSetup context matchedCounter material user resumption).2 } := by
  have isOpen := holds.opened id context _ running rfl
  have none : before.log.acceptedCounters = [] :=
    holds.unenrolled (holds.openUnenrolled (by rw [isOpen]; rfl))
  have enrolled : (before.commitSetup context matchedCounter material user
      resumption).1.store.database.isEnrolled = true :=
    upsertAuthSettings_isEnrolled _ _ _ _ _
  refine ⟨?_, ?_, ?_, ?_, ?_, ?_⟩
  · change (before.log.acceptedCounters ++ [matchedCounter]).Pairwise (· < ·)
    rw [none]
    exact List.pairwise_singleton _ _
  · intro counter member
    change counter ∈ before.log.acceptedCounters ++ [matchedCounter] at member
    rw [none] at member
    exact .inl (List.mem_append_right _ member)
  · intro unenrolled
    rw [enrolled] at unenrolled
    exact absurd unenrolled (by simp)
  · intro attempt member
    refine ⟨fun _ _ _ => enrolled, (holds.attempts attempt member).checks⟩
  · intro other otherContext otherPhase found otherOpen
    change (before.setups.set id _)[other]? = _ at found
    rw [List.getElem?_set] at found
    split at found
    · split at found
      · exact absurd (Option.some.inj found) (by simp [AuthSystem.commitSetup])
      · exact absurd found (by simp)
    · rename_i different
      have alsoOpen := holds.opened other otherContext otherPhase found otherOpen
      rw [isOpen] at alsoOpen
      exact absurd (Option.some.inj alsoOpen) different
  · intro stillOpen
    exact absurd stillOpen (by simp [AuthSystem.commitSetup])

theorem CountersInvariant.resumeSetup {id : Nat} {context : SetupContext} {phase : SetupPhase}
    {next : Setup} (holds : CountersInvariant before)
    (running : before.setups[id]? = some (.running context phase))
    (effect : SetupEffect environment before id context phase after next) :
    CountersInvariant { after with setups := after.setups.set id next } := by
  have inRange : id < before.setups.length := (List.getElem?_eq_some_iff.mp running).1
  have replaced : ∀ {state : AuthSystem} {other : Setup}, CountersInvariant state →
      (∀ context phase, other = .running context phase → phase.isOpen = false) →
      CountersInvariant { state with setups := state.setups.set id other } := by
    intro state other stateHolds notOpen
    refine stateHolds.frame (.ofSettings rfl rfl rfl rfl) (fun _ member => .inl member) ?_
    intro otherId otherContext otherPhase found otherOpen
    change (state.setups.set id other)[otherId]? = _ at found
    rw [List.getElem?_set] at found
    split at found
    · split at found
      · rw [notOpen _ _ (Option.some.inj found)] at otherOpen
        exact absurd otherOpen (by simp)
      · exact absurd found (by simp)
    · exact found
  cases effect with
  | refused => exact replaced holds fun _ _ finished => absurd finished (by simp)
  | @failed counted otherwise =>
    obtain ⟨same, attempts, setups⟩ := @countFailure_counters before counted otherwise
    exact replaced (holds.sameRequests same attempts setups)
      fun _ _ finished => absurd finished (by simp)
  | waits idle closed stillClosed =>
    refine replaced holds fun _ _ isRunning => ?_
    cases isRunning
    exact stillClosed
  | hashed next idle closed stillClosed =>
    refine replaced (holds.sameRequests (.ofSettings rfl rfl rfl rfl) rfl rfl)
      fun _ _ isRunning => ?_
    cases isRunning
    exact stillClosed
  | @opened matchedCounter material user database queued free rechecked =>
    obtain ⟨unenrolled, changed⟩ := recheckSetup_spec rechecked
    have same : SameCounters (before.setDatabase database) before := by
      rcases changed with ⟨_, only, _⟩ | ⟨_, created⟩
      · exact .ofFailures only
      · exact .ofSettings rfl rfl rfl (by rw [created]; rfl)
    have middleHolds := holds.sameRequests same rfl rfl
    refine ⟨middleHolds.increasing, middleHolds.bounded, middleHolds.unenrolled,
      middleHolds.attempts, ?_, fun _ => same.isEnrolled.trans unenrolled⟩
    intro otherId otherContext otherPhase found otherOpen
    change (before.setups.set id _)[otherId]? = _ at found
    rw [List.getElem?_set] at found
    split at found
    · rename_i isThis
      rw [isThis]
    · have alsoOpen := holds.opened otherId otherContext otherPhase found otherOpen
      rw [free] at alsoOpen
      exact absurd alsoOpen (by simp)
  | committed encrypting =>
    subst encrypting
    exact holds.commit running

theorem CountersInvariant.begin {nowMs : Nat} {continued : AttemptContext → Attempt}
    {checked : Except AuthFailure ConfiguredAuthUser × AuthDatabase}
    (holds : CountersInvariant system)
    (passes : LockChecked system.store.database nowMs checked)
    (holding : ∀ context, (continued context).context? = some context)
    (notChecking : ∀ context, (continued context).totpCheck? = none) :
    CountersInvariant (system.beginAttempt checked nowMs continued) := by
  have same : SameCounters (system.beginAttempt checked nowMs continued) system :=
    ⟨rfl, rfl, passes.failuresOnly.isEnrolled, passes.failuresOnly.totpLastUsedCounter, rfl⟩
  refine holds.frame same ?_ fun _ _ _ found _ => found
  obtain ⟨new, attempts, outcome⟩ := beginAttempt_attempts system checked nowMs continued
  intro attempt member
  rw [attempts, List.mem_append, List.mem_singleton] at member
  rcases member with earlier | isNew
  · exact .inl earlier
  · right
    rw [isNew]
    rcases outcome with ⟨failure, ended⟩ | ⟨configured, passed, goesOn⟩
    · rw [ended]
      exact .finished _ _
    · rw [goesOn]
      refine ⟨?_, fun isSome => absurd isSome (by rw [notChecking]; simp)⟩
      intro context held enrolled
      rw [holding] at held
      cases Option.some.inj held
      rw [← passes.failuresOnly.isEnrolled, AuthDatabase.isEnrolled,
        (passes.passed configured passed).1]
      exact enrolled

theorem CountersInvariant.calm (holds : CountersInvariant before) (calm : Calm after before) :
    CountersInvariant after :=
  holds.sameRequests
    (.ofSettings calm.acceptedCounters calm.setupCounters calm.openTransaction calm.authSettings)
    calm.attempts calm.setups

theorem CountersInvariant.startSetup (holds : CountersInvariant before) (input : SetupInput)
    (nowMs : Nat) : CountersInvariant (before.startSetup input nowMs) := by
  have only : FailuresOnly (checkSetup before.store.database
      (resolveAuthInputUsername before.store.database input.username) nowMs).2
      before.store.database := checkSetup_failuresOnly _ _ nowMs
  have same : SameCounters (before.startSetup input nowMs) before :=
    ⟨rfl, rfl, only.isEnrolled, only.totpLastUsedCounter, rfl⟩
  refine holds.frame same (fun _ member => .inl member) ?_
  intro id context phase found isOpen
  simp only [AuthSystem.startSetup, List.getElem?_append] at found
  split at found
  · exact found
  · rw [List.getElem?_singleton] at found
    split at found
    · -- the new setup checks its code first, so it has no open transaction
      have new := Option.some.inj found
      split at new
      · exact absurd new (by simp)
      · cases new
        exact absurd isOpen (by simp [SetupPhase.isOpen])
    · exact absurd found (by simp)

theorem authStep_counters {event : AuthEvent} (holds : CountersInvariant before)
    (newer : NewerThanSetup environment before event)
    (stepped : authStep environment before event = some after) : CountersInvariant after := by
  cases event with
  | advanceClock nowMs =>
    simp only [authStep] at stepped
    split at stepped <;> cases stepped
    exact holds.sameRequests (.ofSettings rfl rfl rfl rfl) rfl rfl
  | startLogin username primaryFactor totpCode nowMs =>
    simp only [authStep] at stepped
    split at stepped <;> cases stepped
    exact holds.begin (enforceConfiguredUserByUsername_checked _) (fun _ => rfl) fun _ => rfl
  | startRecovery username primaryFactor recoveryCode nowMs =>
    simp only [authStep] at stepped
    split at stepped <;> cases stepped
    exact holds.begin (enforceConfiguredUserByUsername_checked _) (fun _ => rfl) fun _ => rfl
  | startStepUp sessionId primaryFactor totpCode nowMs =>
    simp only [authStep] at stepped
    split at stepped <;> cases stepped
    obtain ⟨middle, calm, _, refused | ⟨session, begun⟩⟩ :=
      startStepUp_cases before sessionId primaryFactor totpCode nowMs
    · rw [refused]
      refine (holds.calm calm).frame (.ofSettings rfl rfl rfl rfl) ?_ fun _ _ _ found _ => found
      intro attempt member
      rcases List.mem_append.mp member with earlier | new
      · exact .inl earlier
      · rw [List.mem_singleton.mp new]
        exact .inr (.finished _ _)
    · rw [begun]
      exact (holds.calm calm).begin (enforceConfiguredUserById_checked _) (fun _ => rfl)
        fun _ => rfl
  | resumeAttempt id resumption =>
    obtain ⟨attempt, middle, next, context, found, held, effect, result⟩ :=
      resumeAttempt_of_step stepped
    rw [result]
    exact holds.resume found held (fun matchedCounter => newer attempt matchedCounter found)
      effect
  | startSetup input nowMs =>
    simp only [authStep] at stepped
    split at stepped <;> cases stepped
    exact holds.startSetup input nowMs
  | resumeSetup id resumption =>
    obtain ⟨context, phase, middle, next, found, effect, result⟩ := resumeSetup_of_step stepped
    rw [result]
    exact holds.resumeSetup found effect
  | resolveSession input =>
    simp only [authStep] at stepped
    split at stepped <;> cases stepped
    exact holds.calm (.ofStore (resolveSession_sessionsOnly before.store input))
  | getAuthStatus sessionId nowMs =>
    simp only [authStep] at stepped
    split at stepped <;> cases stepped
    obtain ⟨middle, calm, _, resolved | read⟩ := getAuthStatus_cases before sessionId nowMs
    · rw [resolved]
      exact holds.calm calm
    · rw [read]
      exact (holds.calm calm).sameRequests
        (.ofFailures (readCurrentAuthSettingsForUser_failuresOnly _ nowMs)) rfl rfl
  | logout sessionId =>
    cases Option.some.inj stepped
    exact holds.calm (.ofStore (logout_sessionsOnly before.store sessionId))
  | issueWebSocketTicket sessionId ticketId nowMs =>
    simp only [authStep] at stepped
    split at stepped <;> cases stepped
    exact holds.calm (issueWebSocketTicket_calm before sessionId ticketId nowMs)
  | upgradeWebSocket sessionId ticketId resolvedAt =>
    simp only [authStep] at stepped
    split at stepped <;> cases stepped
    exact holds.calm (upgradeWebSocket_calm before sessionId ticketId resolvedAt)
  | resetUserOtpEnrollment => exact newer.elim
  | updateUserEnabled userId enabled =>
    cases Option.some.inj stepped
    exact holds.sameRequests
      (.ofSettings rfl rfl rfl (updateUserEnabled_authSettings _ userId enabled)) rfl rfl
  | finalizePrimaryFactorReset settings primaryFactorHash => exact newer.elim
  | regenerateRecoveryCodes codeHashes =>
    simp only [authStep] at stepped
    split at stepped
    · exact absurd stepped (by simp)
    · split at stepped <;> cases stepped
      exact holds.sameRequests (.ofSettings rfl rfl rfl rfl) rfl rfl

theorem countersInvariant_start (database : AuthDatabase) (clock : Nat) :
    CountersInvariant (.start database clock) where
  increasing := .nil
  bounded := fun counter member => absurd member (by simp [AuthSystem.start])
  unenrolled := fun _ => rfl
  attempts := fun attempt member => absurd member (by simp [AuthSystem.start])
  opened := fun id context phase found => absurd found (by simp [AuthSystem.start])
  openUnenrolled := fun isOpen => absurd isOpen (by simp [AuthSystem.start])

/-- Where login and step-up only accept codes newer than the setup's, the accepted time steps
increase, so that none is accepted twice. -/
theorem acceptedCounters_increasing {database : AuthDatabase} {clock : Nat}
    (reached : Reaches (authStep environment) (NewerThanSetup environment)
      (.start database clock) system) :
    system.log.acceptedCounters.Pairwise (· < ·) :=
  (reached.invariant CountersInvariant (countersInvariant_start database clock)
    fun _ _ _ holds newer stepped => authStep_counters holds newer stepped).increasing

section Samples

def emptyDatabase : AuthDatabase where
  users := []
  authSettings := none
  authRecoveryCodes := .empty
  authSessions := .empty
  authWebSocketTickets := .empty

def numberedEnvironment : AuthEnvironment where
  verifyPrimaryFactor := fun primaryFactor primaryFactorHash => primaryFactor = primaryFactorHash
  verifyRecoveryCode := fun recoveryCode codeHash => recoveryCode = codeHash
  hotp := fun _ counter _ =>
    let digits := (Nat.repr counter).toList
    List.replicate (6 - digits.length) '0' ++ digits

def sampleSetupInput : SetupInput where
  username := none
  primaryFactor := "open"
  totpSecret := "secret"
  totpCode := "000001".toList
  sessionLifetimeDays := none

def sampleSetupResumption : SetupResumption where
  recoveryCodeHashes := ["code"]
  primaryFactorHash := .ok "open"
  keyLoaded := .ok ()
  iv := ['i']
  payload := ['p']
  sessionId := "first"

def sampleSetup : List AuthEvent :=
  .startSetup sampleSetupInput 30000 :: List.replicate 5 (.resumeSetup 0 sampleSetupResumption)

def sampleLogin (totpCode : String) : List AuthEvent :=
  .startLogin none "open" totpCode.toList 30000 ::
    List.replicate 4 (.resumeAttempt 0 sampleResumption)

/-- The setup accepts the code of time step 1 and the login the code of time step 2. -/
theorem acceptedCounters_increasing_one :
    ∃ system, Reaches (authStep numberedEnvironment) (NewerThanSetup numberedEnvironment)
        (.start emptyDatabase 30000) system ∧
      system.log.acceptedCounters = [1, 2] ∧ system.log.acceptedCounters.Pairwise (· < ·) := by
  have traced : (run (authStep numberedEnvironment)
      (fun system event => match event with
        | .startSetup .. => true
        | .resumeSetup .. => true
        | .startLogin .. => true
        | .resumeAttempt id _ =>
          ((system.attempts[id]?).bind (·.matchedCounter? numberedEnvironment)).all
            fun matchedCounter => system.log.setupCounters.all (· < matchedCounter)
        | _ => false)
      (.start emptyDatabase 30000) (sampleSetup ++ sampleLogin "000002")).map
        (·.log.acceptedCounters) = some [1, 2] := by
    decide +kernel
  obtain ⟨system, ran, accepted⟩ := Option.map_eq_some_iff.mp traced
  have reached : Reaches (authStep numberedEnvironment) (NewerThanSetup numberedEnvironment)
      (.start emptyDatabase 30000) system := by
    refine (reaches_of_run ran).weaken ?_
    intro state event passes
    cases event with
    | resumeAttempt id resumption =>
      intro attempt matchedCounter found matched passesStored used member
      simp only [found, Option.bind_some, matched, Option.all_some, List.all_eq_true,
        decide_eq_true_eq] at passes
      exact passes used member
    | startSetup input nowMs => trivial
    | resumeSetup id resumption => trivial
    | startLogin username primaryFactor totpCode nowMs => trivial
    | _ => exact absurd passes (by simp)
  exact ⟨system, reached, accepted, acceptedCounters_increasing reached⟩

def AuthEvent.ofSetupOrAttempt : AuthEvent → Bool
  | .startSetup .. => true
  | .resumeSetup .. => true
  | event => event.ofAttempt

theorem setupCounter_accepted_twice :
    ∃ system, Reaches (authStep numberedEnvironment)
        (fun _ event => event.ofSetupOrAttempt = true) (.start emptyDatabase 30000) system ∧
      system.log.acceptedCounters = [1, 1] ∧ system.Succeeds 0 ∧
      ¬ system.log.acceptedCounters.Pairwise (· < ·) := by
  have traced : (run (authStep numberedEnvironment) (fun _ event => event.ofSetupOrAttempt)
      (.start emptyDatabase 30000) (sampleSetup ++ sampleLogin "000001")).map
        (fun system => (system.log.acceptedCounters,
          system.attempts[0]?.any Attempt.succeeded)) = some ([1, 1], true) := by
    decide +kernel
  obtain ⟨system, ran, facts⟩ := Option.map_eq_some_iff.mp traced
  obtain ⟨accepted, succeeded⟩ := Prod.mk.inj facts
  refine ⟨system, reaches_of_run ran, accepted, Attempt.succeeds_of_succeeded succeeded, ?_⟩
  rw [accepted]
  decide

end Samples

end Metidos.Auth
