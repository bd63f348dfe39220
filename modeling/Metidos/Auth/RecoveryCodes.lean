import Metidos.Auth.SetupSteps
import Metidos.Library.Transition

/-!
Recovery codes over runs.  A code is drawn by a setup or a regeneration, stored as unused, marked by
a conditional update and then belongs to the one attempt that marked it, until that attempt has
logged in.  No code that an attempt holds or has logged in with is unused again.
-/

namespace Metidos.Auth

theorem filterMap_set_perm {α β : Type} (choose : α → Option β) {list : List α} {index : Nat}
    {old : α} (found : list[index]? = some old) (new : α) :
    ∃ rest, (list.filterMap choose).Perm ((choose old).toList ++ rest) ∧
      ((list.set index new).filterMap choose).Perm ((choose new).toList ++ rest) := by
  obtain ⟨inRange, isOld⟩ := List.getElem?_eq_some_iff.mp found
  have chosen : ∀ element, (list.take index ++ element :: list.drop (index + 1)).filterMap choose =
      (list.take index).filterMap choose ++
        ((choose element).toList ++ (list.drop (index + 1)).filterMap choose) := by
    intro element
    rw [List.filterMap_append, List.filterMap_cons]
    cases choose element <;> rfl
  have split : list = list.take index ++ old :: list.drop (index + 1) := by
    rw [← isOld, List.getElem_cons_drop, List.take_append_drop]
  refine ⟨(list.take index).filterMap choose ++ (list.drop (index + 1)).filterMap choose, ?_, ?_⟩
  · conv_lhs => rw [split]
    rw [chosen]
    exact List.perm_append_comm_assoc _ _ _
  · rw [List.set_eq_take_append_cons_drop, if_pos inRange, chosen]
    exact List.perm_append_comm_assoc _ _ _

theorem get?_replaceAuthRecoveryCodeHashes (database : AuthDatabase) (codeHashes : List CodeHash)
    (codeHash : CodeHash) :
    (database.replaceAuthRecoveryCodeHashes codeHashes).authRecoveryCodes.get? codeHash =
      if codeHash ∈ codeHashes then some none else none := by
  have stored : ∀ (codes : OrderedMap CodeHash (Option Nat)),
      (codeHashes.foldl (fun codes codeHash => codes.set codeHash none) codes).get? codeHash =
        if codeHash ∈ codeHashes then some none else codes.get? codeHash := by
    induction codeHashes with
    | nil => intro codes; simp
    | cons first codeHashes ih =>
      intro codes
      rw [List.foldl_cons, ih, OrderedMap.get?_set]
      by_cases isFirst : codeHash = first <;> simp [isFirst]
  simpa [AuthDatabase.replaceAuthRecoveryCodeHashes] using stored .empty

def Setup.drawnCodes : Setup → List CodeHash
  | .running _ phase => phase.drawnCodes
  | .finished _ => []

namespace AuthSystem

variable (system : AuthSystem)

def drawnCodes (id : Nat) : List CodeHash := (system.setups[id]?.map Setup.drawnCodes).getD []

def spentCodes : List CodeHash :=
  system.log.recoveryLogins ++ system.attempts.filterMap Attempt.heldCode?

end AuthSystem

/-- Spent codes are issued, distinct and not stored as unused; the codes that a setup has drawn are
its own, and neither stored nor spent. -/
structure CodesInvariant (system : AuthSystem) : Prop where
  stored : ∀ codeHash usedAt,
    system.store.database.authRecoveryCodes.get? codeHash = some usedAt →
      codeHash ∈ system.log.issuedCodes
  spentOnce : system.spentCodes.Nodup
  spentIssued : ∀ codeHash ∈ system.spentCodes, codeHash ∈ system.log.issuedCodes
  spentUsed : ∀ codeHash ∈ system.spentCodes,
    system.store.database.authRecoveryCodes.get? codeHash ≠ some none
  drawnIssued : ∀ id, ∀ codeHash ∈ system.drawnCodes id, codeHash ∈ system.log.issuedCodes
  drawnUnspent : ∀ id, ∀ codeHash ∈ system.drawnCodes id, codeHash ∉ system.spentCodes
  drawnUnstored : ∀ id, ∀ codeHash ∈ system.drawnCodes id,
    system.store.database.authRecoveryCodes.get? codeHash = none
  drawnApart : ∀ id other, id ≠ other → ∀ codeHash ∈ system.drawnCodes id,
    codeHash ∉ system.drawnCodes other

open Transition

section Frames

variable {before after : AuthSystem}

theorem CodesInvariant.frame (holds : CodesInvariant before)
    (codes : after.store.database.authRecoveryCodes = before.store.database.authRecoveryCodes)
    (issued : after.log.issuedCodes = before.log.issuedCodes)
    (spent : after.spentCodes.Perm before.spentCodes)
    (drawn : ∀ id, after.drawnCodes id = [] ∨ after.drawnCodes id = before.drawnCodes id) :
    CodesInvariant after := by
  have earlier : ∀ id, ∀ codeHash ∈ after.drawnCodes id, codeHash ∈ before.drawnCodes id := by
    intro id codeHash member
    rcases drawn id with none | same
    · rw [none] at member
      exact absurd member List.not_mem_nil
    · exact same ▸ member
  refine ⟨?_, ?_, ?_, ?_, ?_, ?_, ?_, ?_⟩
  · rw [codes, issued]
    exact holds.stored
  · exact spent.nodup_iff.mpr holds.spentOnce
  · intro codeHash member
    rw [issued]
    exact holds.spentIssued codeHash (spent.mem_iff.mp member)
  · intro codeHash member
    rw [codes]
    exact holds.spentUsed codeHash (spent.mem_iff.mp member)
  · intro id codeHash member
    rw [issued]
    exact holds.drawnIssued id codeHash (earlier id codeHash member)
  · intro id codeHash member isSpent
    exact holds.drawnUnspent id codeHash (earlier id codeHash member) (spent.mem_iff.mp isSpent)
  · intro id codeHash member
    rw [codes]
    exact holds.drawnUnstored id codeHash (earlier id codeHash member)
  · intro id other different codeHash member otherMember
    exact holds.drawnApart id other different codeHash (earlier id codeHash member)
      (earlier other codeHash otherMember)

theorem CodesInvariant.replace (holds : CodesInvariant before) (codeHashes : List CodeHash)
    (codes : ∀ codeHash, after.store.database.authRecoveryCodes.get? codeHash =
      if codeHash ∈ codeHashes then some none else none)
    (issued : ∀ codeHash ∈ codeHashes, codeHash ∈ before.log.issuedCodes)
    (sameIssued : after.log.issuedCodes = before.log.issuedCodes)
    (unspent : ∀ codeHash ∈ codeHashes, codeHash ∉ before.spentCodes)
    (sameSpent : after.spentCodes = before.spentCodes)
    (drawn : ∀ id, after.drawnCodes id = [] ∨ after.drawnCodes id = before.drawnCodes id ∧
      ∀ codeHash ∈ before.drawnCodes id, codeHash ∉ codeHashes) :
    CodesInvariant after := by
  have earlier : ∀ id, ∀ codeHash ∈ after.drawnCodes id,
      codeHash ∈ before.drawnCodes id ∧ codeHash ∉ codeHashes := by
    intro id codeHash member
    rcases drawn id with none | ⟨same, apart⟩
    · rw [none] at member
      exact absurd member List.not_mem_nil
    · rw [same] at member
      exact ⟨member, apart codeHash member⟩
  refine ⟨?_, ?_, ?_, ?_, ?_, ?_, ?_, ?_⟩
  · intro codeHash usedAt found
    rw [codes] at found
    split at found
    · rename_i member
      rw [sameIssued]
      exact issued codeHash member
    · exact absurd found (by simp)
  · rw [sameSpent]
    exact holds.spentOnce
  · rw [sameSpent, sameIssued]
    exact holds.spentIssued
  · intro codeHash member
    rw [sameSpent] at member
    rw [codes, if_neg fun replaced => unspent codeHash replaced member]
    simp
  · intro id codeHash member
    rw [sameIssued]
    exact holds.drawnIssued id codeHash (earlier id codeHash member).1
  · intro id codeHash member
    rw [sameSpent]
    exact holds.drawnUnspent id codeHash (earlier id codeHash member).1
  · intro id codeHash member
    rw [codes, if_neg (earlier id codeHash member).2]
  · intro id other different codeHash member otherMember
    exact holds.drawnApart id other different codeHash (earlier id codeHash member).1
      (earlier other codeHash otherMember).1

theorem CodesInvariant.issue (holds : CodesInvariant before) (codeHashes : List CodeHash)
    (fresh : ∀ codeHash ∈ codeHashes, codeHash ∉ before.log.issuedCodes)
    (codes : after.store.database.authRecoveryCodes = before.store.database.authRecoveryCodes)
    (issued : after.log.issuedCodes = before.log.issuedCodes ++ codeHashes)
    (spent : after.spentCodes = before.spentCodes) (drawer : Nat)
    (drawn : ∀ id, after.drawnCodes id = before.drawnCodes id ∨
      id = drawer ∧ after.drawnCodes id = codeHashes) :
    CodesInvariant after := by
  have still : ∀ {codeHash}, codeHash ∈ before.log.issuedCodes →
      codeHash ∈ after.log.issuedCodes := by
    intro codeHash member
    rw [issued]
    exact List.mem_append_left _ member
  have cases : ∀ {id codeHash}, codeHash ∈ after.drawnCodes id →
      codeHash ∈ before.drawnCodes id ∨ id = drawer ∧ codeHash ∈ codeHashes := by
    intro id codeHash member
    rcases drawn id with same | ⟨isDrawer, new⟩
    · exact .inl (same ▸ member)
    · exact .inr ⟨isDrawer, new ▸ member⟩
  refine ⟨?_, ?_, ?_, ?_, ?_, ?_, ?_, ?_⟩
  · intro codeHash usedAt found
    rw [codes] at found
    exact still (holds.stored codeHash usedAt found)
  · rw [spent]
    exact holds.spentOnce
  · intro codeHash member
    rw [spent] at member
    exact still (holds.spentIssued codeHash member)
  · rw [spent, codes]
    exact holds.spentUsed
  · intro id codeHash member
    rcases cases member with earlier | ⟨_, new⟩
    · exact still (holds.drawnIssued id codeHash earlier)
    · rw [issued]
      exact List.mem_append_right _ new
  · intro id codeHash member isSpent
    rw [spent] at isSpent
    rcases cases member with earlier | ⟨_, new⟩
    · exact holds.drawnUnspent id codeHash earlier isSpent
    · exact fresh codeHash new (holds.spentIssued codeHash isSpent)
  · intro id codeHash member
    rw [codes]
    rcases cases member with earlier | ⟨_, new⟩
    · exact holds.drawnUnstored id codeHash earlier
    · cases found : before.store.database.authRecoveryCodes.get? codeHash with
      | none => rfl
      | some usedAt => exact absurd (holds.stored codeHash usedAt found) (fresh codeHash new)
  · intro id other different codeHash member otherMember
    rcases cases member with earlier | ⟨isDrawer, new⟩
    · rcases cases otherMember with otherEarlier | ⟨_, otherNew⟩
      · exact holds.drawnApart id other different codeHash earlier otherEarlier
      · exact fresh codeHash otherNew (holds.drawnIssued id codeHash earlier)
    · rcases cases otherMember with otherEarlier | ⟨otherDrawer, _⟩
      · exact fresh codeHash new (holds.drawnIssued other codeHash otherEarlier)
      · exact different (isDrawer.trans otherDrawer.symm)

theorem CodesInvariant.spend (holds : CodesInvariant before) {codeHash : CodeHash} {usedAt : Nat}
    (unused : before.store.database.authRecoveryCodes.get? codeHash = some none)
    (codes : after.store.database.authRecoveryCodes =
      before.store.database.authRecoveryCodes.set codeHash (some usedAt))
    (issued : after.log.issuedCodes = before.log.issuedCodes)
    (spent : after.spentCodes.Perm (codeHash :: before.spentCodes))
    (drawn : ∀ id, after.drawnCodes id = before.drawnCodes id) : CodesInvariant after := by
  have cases : ∀ {other}, other ∈ after.spentCodes → other = codeHash ∨ other ∈ before.spentCodes :=
    fun member => List.mem_cons.mp (spent.mem_iff.mp member)
  have notDrawn : ∀ id, codeHash ∉ before.drawnCodes id := by
    intro id member
    rw [holds.drawnUnstored id codeHash member] at unused
    exact absurd unused (by simp)
  refine ⟨?_, ?_, ?_, ?_, ?_, ?_, ?_, ?_⟩
  · intro other otherUsedAt found
    rw [issued]
    rw [codes, OrderedMap.get?_set] at found
    split at found
    · rename_i same
      rw [same]
      exact holds.stored codeHash none unused
    · exact holds.stored other otherUsedAt found
  · refine spent.nodup_iff.mpr (List.nodup_cons.mpr ⟨?_, holds.spentOnce⟩)
    intro member
    exact holds.spentUsed codeHash member unused
  · intro other member
    rw [issued]
    rcases cases member with same | earlier
    · rw [same]
      exact holds.stored codeHash none unused
    · exact holds.spentIssued other earlier
  · intro other member
    rw [codes, OrderedMap.get?_set]
    split
    · simp
    · rename_i different
      rcases cases member with same | earlier
      · exact absurd same different
      · exact holds.spentUsed other earlier
  · intro id other member
    rw [issued]
    exact holds.drawnIssued id other (drawn id ▸ member)
  · intro id other member isSpent
    rw [drawn id] at member
    rcases cases isSpent with same | earlier
    · exact notDrawn id (same ▸ member)
    · exact holds.drawnUnspent id other member earlier
  · intro id other member
    rw [drawn id] at member
    rw [codes, OrderedMap.get?_set]
    split
    · rename_i same
      exact absurd (same ▸ member) (notDrawn id)
    · exact holds.drawnUnstored id other member
  · intro id otherId different other member
    rw [drawn id] at member
    rw [drawn otherId]
    exact holds.drawnApart id otherId different other member

end Frames

section Steps

variable {environment : AuthEnvironment} {before middle after : AuthSystem}

theorem Calm.spentCodes (calm : Calm after before) : after.spentCodes = before.spentCodes := by
  rw [AuthSystem.spentCodes, AuthSystem.spentCodes, calm.recoveryLogins, calm.attempts]

theorem Calm.drawnCodes (calm : Calm after before) (id : Nat) :
    after.drawnCodes id = before.drawnCodes id := by
  rw [AuthSystem.drawnCodes, AuthSystem.drawnCodes, calm.setups]

theorem CodesInvariant.calm (holds : CodesInvariant before) (calm : Calm after before) :
    CodesInvariant after :=
  holds.frame calm.authRecoveryCodes calm.issuedCodes (.of_eq calm.spentCodes)
    fun id => .inr (calm.drawnCodes id)

theorem CodesInvariant.setDatabase {database : AuthDatabase} (holds : CodesInvariant before)
    (codes : database.authRecoveryCodes = before.store.database.authRecoveryCodes) :
    CodesInvariant (before.setDatabase database) :=
  holds.frame codes rfl (.refl _) fun _ => .inr rfl

structure SameCodes (after before : AuthSystem) : Prop where
  codes : after.store.database.authRecoveryCodes = before.store.database.authRecoveryCodes
  issuedCodes : after.log.issuedCodes = before.log.issuedCodes
  recoveryLogins : after.log.recoveryLogins = before.log.recoveryLogins
  attempts : after.attempts = before.attempts
  setups : after.setups = before.setups

theorem countFailure_codes (system : AuthSystem) (context : AttemptContext)
    (failure : AuthFailure) : SameCodes (system.countFailure context failure).1 system := by
  rw [AuthSystem.countFailure]
  split
  · exact ⟨rfl, rfl, rfl, rfl, rfl⟩
  · rename_i counted
    exact ⟨(incrementFailedAttempts_spec counted).1.authRecoveryCodes, rfl, rfl, rfl, rfl⟩
  · rename_i counted
    exact ⟨(incrementFailedAttempts_spec counted).1.authRecoveryCodes, rfl, rfl, rfl, rfl⟩

theorem TotpEffect.codes {attempt : Attempt} {system : AuthSystem}
    (checked : TotpEffect environment system attempt middle) : SameCodes middle system := by
  cases checked with
  | refused => exact ⟨rfl, rfl, rfl, rfl, rfl⟩
  | accepted => exact ⟨rfl, rfl, rfl, rfl, rfl⟩

theorem SameCodes.trans (second : SameCodes after middle) (first : SameCodes middle before) :
    SameCodes after before :=
  ⟨second.codes.trans first.codes, second.issuedCodes.trans first.issuedCodes,
    second.recoveryLogins.trans first.recoveryLogins, second.attempts.trans first.attempts,
    second.setups.trans first.setups⟩

theorem CodesInvariant.replaceAttempt {attempt next : Attempt} {id : Nat}
    (holds : CodesInvariant before) (same : SameCodes after before)
    (running : before.attempts[id]? = some attempt) (held : attempt.heldCode? = none)
    (holdsNone : next.heldCode? = none) :
    CodesInvariant { after with attempts := after.attempts.set id next } := by
  obtain ⟨rest, now, later⟩ := filterMap_set_perm Attempt.heldCode? running next
  rw [held] at now
  rw [holdsNone] at later
  refine holds.frame same.codes same.issuedCodes ?_ ?_
  · simp only [AuthSystem.spentCodes, same.attempts, same.recoveryLogins]
    exact (later.trans now.symm).append_left _
  · intro other
    simp only [AuthSystem.drawnCodes, same.setups, or_true]

theorem CodesInvariant.resume {attempt next : Attempt} {context : AttemptContext} {id : Nat}
    {resumption : Resumption} (holds : CodesInvariant before)
    (running : before.attempts[id]? = some attempt)
    (effect : AttemptEffect environment before attempt context resumption after next) :
    CodesInvariant { after with attempts := after.attempts.set id next } := by
  cases effect with
  | waits idle same notHolding holdsNone =>
    exact holds.replaceAttempt ⟨rfl, rfl, rfl, rfl, rfl⟩ running notHolding holdsNone
  | refused idle notHolding =>
    exact holds.replaceAttempt ⟨rfl, rfl, rfl, rfl, rfl⟩ running notHolding rfl
  | @failed middle failure deciding notHolding checked =>
    obtain ⟨error, ended⟩ := @countFailure_snd middle context failure
    rw [ended]
    exact holds.replaceAttempt ((countFailure_codes middle context failure).trans checked.codes)
      running notHolding rfl
  | @verified middle _ deciding same notHolding holdsNone checksNone checked =>
    have cleared : SameCodes middle.clearFailures middle := ⟨rfl, rfl, rfl, rfl, rfl⟩
    exact holds.replaceAttempt (cleared.trans checked.codes) running notHolding holdsNone
  | @steppedUp middle sessionId _ deciding notHolding checked =>
    have granted : SameCodes { middle.clearFailures with
        store := middle.clearFailures.store.recordStepUp sessionId context.nowMs } middle :=
      ⟨rfl, rfl, rfl, rfl, rfl⟩
    exact holds.replaceAttempt (granted.trans checked.codes) running notHolding rfl
  | @recovered codeHash _ deciding same notHolding isHeld checksNone unused =>
    obtain ⟨rest, now, later⟩ := filterMap_set_perm Attempt.heldCode? running next
    rw [notHolding] at now
    rw [isHeld] at later
    refine holds.spend unused rfl rfl ?_ fun _ => rfl
    -- the code joins those of the attempts under way
    refine (later.append_left _).trans ?_
    exact List.perm_middle.trans ((now.symm.append_left _).cons codeHash)
  | created =>
    obtain ⟨rest, now, later⟩ := filterMap_set_perm Attempt.heldCode? running
      (before.finishLogin context attempt.heldCode? resumption.sessionId).2
    refine holds.frame rfl rfl ?_ fun _ => .inr rfl
    -- the code that the attempt held is one that somebody has logged in with
    refine (later.append_left _).trans ?_
    simp only [AuthSystem.finishLogin, AuthSystem.createSession, Attempt.heldCode?,
      Option.toList_none, List.nil_append, List.append_assoc]
    exact now.symm.append_left _

theorem CodesInvariant.begin {nowMs : Nat} {continued : AttemptContext → Attempt}
    {checked : Except AuthFailure ConfiguredAuthUser × AuthDatabase}
    (holds : CodesInvariant before) (passes : LockChecked before.store.database nowMs checked)
    (holdsNone : ∀ context, (continued context).heldCode? = none) :
    CodesInvariant (before.beginAttempt checked nowMs continued) := by
  refine holds.frame passes.failuresOnly.authRecoveryCodes rfl ?_ fun _ => .inr rfl
  obtain ⟨new, attempts, outcome⟩ := beginAttempt_attempts before checked nowMs continued
  have notHolding : new.heldCode? = none := by
    rcases outcome with ⟨failure, ended⟩ | ⟨configured, passed, goesOn⟩
    · rw [ended]
      rfl
    · rw [goesOn]
      exact holdsNone _
  rw [AuthSystem.spentCodes, attempts, List.filterMap_append, List.filterMap_cons, notHolding]
  simp only [List.filterMap_nil, List.append_nil]
  exact .refl _

theorem drawnCodes_set {setups : List Setup} {id : Nat} {setup next : Setup}
    (running : setups[id]? = some setup) (other : Nat) :
    (((setups.set id next)[other]?).map Setup.drawnCodes).getD [] =
      if other = id then next.drawnCodes else ((setups[other]?).map Setup.drawnCodes).getD [] := by
  rw [List.getElem?_set]
  split
  · rename_i same
    rw [if_pos same.symm, if_pos (List.getElem?_eq_some_iff.mp running).1]
    rfl
  · rename_i different
    rw [if_neg fun same => different same.symm]

theorem CodesInvariant.resumeSetup {id : Nat} {context : SetupContext} {phase : SetupPhase}
    {next : Setup} (holds : CodesInvariant before)
    (running : before.setups[id]? = some (.running context phase))
    (effect : SetupEffect environment before id context phase after next) :
    CodesInvariant { after with setups := after.setups.set id next } := by
  have drawnHere : before.drawnCodes id = phase.drawnCodes := by
    rw [AuthSystem.drawnCodes, running]
    rfl
  have replaced : ∀ {state : AuthSystem} {other : Setup}, CodesInvariant state →
      state.setups = before.setups →
      other.drawnCodes = [] ∨ other.drawnCodes = phase.drawnCodes →
      CodesInvariant { state with setups := state.setups.set id other } := by
    intro state other stateHolds sameSetups drawn
    refine stateHolds.frame rfl rfl (.refl _) ?_
    intro otherId
    simp only [AuthSystem.drawnCodes, sameSetups, drawnCodes_set running]
    split
    · rename_i same
      rw [same, running]
      exact drawn
    · exact .inr rfl
  cases effect with
  | refused => exact replaced holds rfl (.inl rfl)
  | @failed counted otherwise =>
    have same := countFailure_codes before counted otherwise
    have middleHolds : CodesInvariant (before.countFailure counted otherwise).1 := by
      refine holds.frame same.codes same.issuedCodes ?_ fun other => .inr ?_
      · rw [AuthSystem.spentCodes, same.recoveryLogins, same.attempts]
        exact .refl _
      · rw [AuthSystem.drawnCodes, same.setups]
        rfl
    exact replaced middleHolds same.setups (.inl rfl)
  | waits idle closed stillClosed same => exact replaced holds rfl (.inr same)
  | hashed next idle closed stillClosed distinct fresh =>
    refine holds.issue next.drawnCodes fresh rfl rfl rfl id fun other => ?_
    simp only [AuthSystem.drawnCodes, drawnCodes_set running]
    split
    · rename_i same
      exact .inr ⟨same, rfl⟩
    · exact .inl rfl
  | @opened matchedCounter material user database queued free rechecked =>
    have codes : database.authRecoveryCodes = before.store.database.authRecoveryCodes := by
      obtain ⟨_, ⟨_, only, _⟩ | ⟨_, created⟩⟩ := recheckSetup_spec rechecked
      · exact only.authRecoveryCodes
      · rw [created]
        rfl
    have middleHolds : CodesInvariant { before.setDatabase database with
        openTransaction := some id } := holds.frame codes rfl (.refl _) fun _ => .inr rfl
    refine replaced middleHolds rfl (.inr ?_)
    rw [queued]
    rfl
  | @committed matchedCounter material user resumption encrypting fresh =>
    have drawn : before.drawnCodes id = material.recoveryCodeHashes := by
      rw [drawnHere, encrypting]
      rfl
    refine holds.replace material.recoveryCodeHashes ?_ ?_ rfl ?_ rfl ?_
    · exact get?_replaceAuthRecoveryCodeHashes before.store.database material.recoveryCodeHashes
    · intro codeHash member
      exact holds.drawnIssued id codeHash (drawn ▸ member)
    · intro codeHash member
      exact holds.drawnUnspent id codeHash (drawn ▸ member)
    · intro other
      have setups : (before.commitSetup context matchedCounter material user
          resumption).1.setups = before.setups := rfl
      simp only [AuthSystem.drawnCodes, setups, drawnCodes_set running]
      split
      · exact .inl rfl
      · rename_i different
        refine .inr ⟨rfl, ?_⟩
        intro codeHash member stored
        exact holds.drawnApart other id different codeHash member (drawn ▸ stored)

theorem authStep_codes {event : AuthEvent} (holds : CodesInvariant before)
    (stepped : authStep environment before event = some after) : CodesInvariant after := by
  cases event with
  | advanceClock nowMs =>
    simp only [authStep] at stepped
    split at stepped <;> cases stepped
    exact holds.frame rfl rfl (.refl _) fun _ => .inr rfl
  | startLogin username primaryFactor totpCode nowMs =>
    simp only [authStep] at stepped
    split at stepped <;> cases stepped
    exact holds.begin (enforceConfiguredUserByUsername_checked _) fun _ => rfl
  | startRecovery username primaryFactor recoveryCode nowMs =>
    simp only [authStep] at stepped
    split at stepped <;> cases stepped
    exact holds.begin (enforceConfiguredUserByUsername_checked _) fun _ => rfl
  | startStepUp sessionId primaryFactor totpCode nowMs =>
    simp only [authStep] at stepped
    split at stepped <;> cases stepped
    obtain ⟨middle, calm, _, refused | ⟨session, begun⟩⟩ :=
      startStepUp_cases before sessionId primaryFactor totpCode nowMs
    · rw [refused]
      refine (holds.calm calm).frame rfl rfl ?_ fun _ => .inr rfl
      rw [AuthSystem.spentCodes, List.filterMap_append, List.filterMap_cons]
      simp only [Attempt.heldCode?, List.filterMap_nil, List.append_nil]
      exact .refl _
    · rw [begun]
      exact (holds.calm calm).begin (enforceConfiguredUserById_checked _) fun _ => rfl
  | resumeAttempt id resumption =>
    obtain ⟨attempt, middle, next, context, found, held, effect, result⟩ :=
      resumeAttempt_of_step stepped
    rw [result]
    exact holds.resume found effect
  | startSetup input nowMs =>
    simp only [authStep] at stepped
    split at stepped <;> cases stepped
    have codes : (checkSetup before.store.database
        (resolveAuthInputUsername before.store.database input.username)
        nowMs).2.authRecoveryCodes = before.store.database.authRecoveryCodes :=
      (checkSetup_failuresOnly _ _ nowMs).authRecoveryCodes
    refine holds.frame codes rfl (.refl _) ?_
    intro id
    simp only [AuthSystem.drawnCodes, AuthSystem.startSetup, List.getElem?_append]
    split
    · exact .inr rfl
    · left
      rw [List.getElem?_singleton]
      split
      · split <;> rfl
      · rfl
  | resumeSetup id resumption =>
    obtain ⟨context, phase, middle, next, found, effect, result⟩ := resumeSetup_of_step stepped
    rw [result]
    exact holds.resumeSetup found effect
  | resolveSession input =>
    simp only [authStep] at stepped
    split at stepped <;> cases stepped
    exact holds.calm (.ofStore (resolveSession_sessionsOnly before.store input))
  | getAuthStatus sessionId nowMs =>
    simp only [authStep] at stepped
    split at stepped <;> cases stepped
    obtain ⟨middle, calm, _, resolved | read⟩ := getAuthStatus_cases before sessionId nowMs
    · rw [resolved]
      exact holds.calm calm
    · rw [read]
      exact (holds.calm calm).setDatabase
        (readCurrentAuthSettingsForUser_failuresOnly _ nowMs).authRecoveryCodes
  | logout sessionId =>
    cases Option.some.inj stepped
    exact holds.calm (.ofStore (logout_sessionsOnly before.store sessionId))
  | issueWebSocketTicket sessionId ticketId nowMs =>
    simp only [authStep] at stepped
    split at stepped <;> cases stepped
    exact holds.calm (issueWebSocketTicket_calm before sessionId ticketId nowMs)
  | upgradeWebSocket sessionId ticketId resolvedAt =>
    simp only [authStep] at stepped
    split at stepped <;> cases stepped
    exact holds.calm (upgradeWebSocket_calm before sessionId ticketId resolvedAt)
  | resetUserOtpEnrollment =>
    cases Option.some.inj stepped
    refine holds.replace [] (fun _ => rfl) (by simp) rfl (by simp) rfl fun _ => .inr ⟨rfl, ?_⟩
    simp
  | updateUserEnabled userId enabled =>
    cases Option.some.inj stepped
    refine holds.setDatabase ?_
    rw [AuthDatabase.updateUserEnabled]
    split <;> rfl
  | finalizePrimaryFactorReset settings primaryFactorHash =>
    cases Option.some.inj stepped
    exact holds.frame rfl rfl (.refl _) fun _ => .inr rfl
  | regenerateRecoveryCodes codeHashes =>
    simp only [authStep] at stepped
    split at stepped
    · exact absurd stepped (by simp)
    · split at stepped <;> cases stepped
      rename_i fresh
      have issued : CodesInvariant { before with
          log := { before.log with issuedCodes := before.log.issuedCodes ++ codeHashes } } :=
        holds.issue codeHashes fresh.2 rfl rfl rfl 0 fun _ => .inl rfl
      refine issued.replace codeHashes (get?_replaceAuthRecoveryCodeHashes _ codeHashes)
        (fun _ member => List.mem_append_right _ member) rfl ?_ rfl fun id => .inr ⟨rfl, ?_⟩
      · intro codeHash member isSpent
        exact fresh.2 codeHash member (holds.spentIssued codeHash isSpent)
      · intro codeHash drawn member
        exact fresh.2 codeHash member (holds.drawnIssued id codeHash drawn)

theorem codesInvariant_start (database : AuthDatabase) (clock : Nat) :
    CodesInvariant (.start database clock) where
  stored := by
    intro codeHash usedAt found
    exact List.mem_map.mpr ⟨(codeHash, usedAt),
      (OrderedMap.get?_eq_some_iff _ _ _).mp found, rfl⟩
  spentOnce := .nil
  spentIssued := fun codeHash member => absurd member List.not_mem_nil
  spentUsed := fun codeHash member => absurd member List.not_mem_nil
  drawnIssued := fun id codeHash member => absurd member List.not_mem_nil
  drawnUnspent := fun id codeHash member => absurd member List.not_mem_nil
  drawnUnstored := fun id codeHash member => absurd member List.not_mem_nil
  drawnApart := fun id other different codeHash member => absurd member List.not_mem_nil

end Steps

end Metidos.Auth
