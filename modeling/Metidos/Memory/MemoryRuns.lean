import Metidos.Library.Transition
import Metidos.Memory.MemoryStore

/-!
Runs of the memory store: the full-text index holds the active facts, and an erase leaves the
memory of other projects and worktrees alone.
-/

namespace Metidos.Memory

namespace MemoryFact

def key (fact : MemoryFact) : Nat × MemoryText × MemoryText × Option MemoryText :=
  (fact.projectId, fact.worktreePath, fact.factType, fact.scopeEntity)

def Current (fact : MemoryFact) : Prop :=
  fact.status = .active ∧ fact.isMutable = true ∧ fact.memoryKind = .canonical

end MemoryFact

namespace MemoryTables

structure Consistent (tables : MemoryTables) : Prop where
  indexed : ∀ id, tables.factsFts.get? id = (tables.facts.get? id).bind fun fact =>
    if fact.status = .active then some fact.indexRow else none
  embedded : ∀ id, tables.embeddings.has id = true →
    ∃ fact, tables.facts.get? id = some fact ∧ fact.status ≠ .erased
  single : ∀ id other fact otherFact, tables.facts.get? id = some fact →
    tables.facts.get? other = some otherFact → fact.Current → otherFact.Current →
      fact.key = otherFact.key → fact.scopeEntity.getD [] ≠ [] → id = other
  superseded : ∀ id fact later, tables.facts.get? id = some fact →
    fact.supersededByFactId = some later →
      id < later ∧ ∃ laterFact, tables.facts.get? later = some laterFact ∧
        laterFact.key = fact.key

structure ErasesApart (input : MemoryForgetInput) (before after : MemoryTables) : Prop where
  facts : ∀ id fact, before.facts.get? id = some fact →
    ¬(fact.projectId = input.projectId ∧ fact.worktreePath = input.worktreePath) →
      after.facts.get? id = some fact ∧ after.factsFts.get? id = before.factsFts.get? id ∧
        after.embeddings.get? id = before.embeddings.get? id
  evidence : ∀ id evidence, before.evidence.get? id = some evidence →
    ¬(evidence.projectId = input.projectId ∧ evidence.worktreePath = input.worktreePath) →
      after.evidence.get? id = some evidence ∧
        after.evidenceFts.get? id = before.evidenceFts.get? id

structure Sound (tables : MemoryTables) : Prop where
  consistent : tables.Consistent
  counted : ∀ id fact, tables.facts.get? id = some fact → id < tables.nextFactId
  unerased : ∀ id fact, tables.facts.get? id = some fact → fact.status = .active →
    fact.erasedAt = none

variable {context : MemoryContext} {tables : MemoryTables}

theorem Sound.fresh (sound : tables.Sound) : tables.facts.get? tables.nextFactId = none := by
  refine Option.eq_none_iff_forall_ne_some.mpr fun fact present => ?_
  exact Nat.lt_irrefl _ (sound.counted _ fact present)

theorem Sound.of_facts {next : MemoryTables} (sound : tables.Sound)
    (facts : next.facts = tables.facts) (counter : next.nextFactId = tables.nextFactId)
    (factsFts : next.factsFts = tables.factsFts) (embeddings : next.embeddings = tables.embeddings) :
    next.Sound := by
  refine ⟨⟨?_, ?_, ?_, ?_⟩, ?_, ?_⟩
  · rw [facts, factsFts]
    exact sound.consistent.indexed
  · rw [facts, embeddings]
    exact sound.consistent.embedded
  · rw [facts]
    exact sound.consistent.single
  · rw [facts]
    exact sound.consistent.superseded
  · rw [facts, counter]
    exact sound.counted
  · rw [facts]
    exact sound.unerased

def superseding (factId : Nat) (now : MemoryText) (fact : MemoryFact) : MemoryFact :=
  { fact with status := .superseded, supersededByFactId := some factId, updatedAt := now }

theorem supersedeAll {factId : Nat} (now : MemoryText) {ids : List Nat} (absent : factId ∉ ids) :
    ids.foldl (supersede factId now) tables =
      { tables with
        facts := ids.foldl (fun facts id => facts.modify id (superseding factId now)) tables.facts
        factsFts := ids.foldl OrderedMap.delete tables.factsFts } := by
  induction ids generalizing tables with
  | nil => rfl
  | cons first rest ih =>
    have differs : first ≠ factId := fun same => absent (same ▸ List.mem_cons_self)
    rw [List.foldl_cons, ih (List.not_mem_of_not_mem_cons absent), supersede, if_neg differs]
    rfl

theorem mem_supersededFactIds {input : MemoryRememberInput} {candidate : MemoryFactCandidate}
    {id : Nat} : id ∈ tables.supersededFactIds input candidate ↔
      shouldSupersede candidate = true ∧ ∃ fact, tables.facts.get? id = some fact ∧
        isSuperseded input candidate fact = true := by
  rw [supersededFactIds]
  split
  · rename_i should
    simp only [List.mem_map, List.mem_mergeSort, List.mem_filter, Prod.exists,
      exists_and_right, exists_eq_right, should, true_and, OrderedMap.get?_eq_some_iff]
  · rename_i shouldNot
    simp [shouldNot]

theorem key_of_isSuperseded {input : MemoryRememberInput} {candidate : MemoryFactCandidate}
    {fact : MemoryFact} {supersedes : Option Nat} {now : MemoryText}
    (should : shouldSupersede candidate = true) (isOld : isSuperseded input candidate fact = true) :
    (candidateFact input candidate .active supersedes now).key = fact.key := by
  simp only [shouldSupersede, isSuperseded, Bool.and_eq_true, decide_eq_true_eq] at should isOld
  obtain ⟨⟨⟨⟨⟨⟨⟨project, worktree⟩, type⟩, scope⟩, _⟩, _⟩, _⟩, _⟩ := isOld
  simp only [MemoryFact.key, candidateFact, project, worktree, type, scope, Prod.mk.injEq, true_and]
  cases hasScope : candidate.scopeEntity with
  | none =>
    rw [hasScope] at should
    exact absurd rfl should.2
  | some scopeEntity => rfl

theorem isSuperseded_of_current {input : MemoryRememberInput} {candidate : MemoryFactCandidate}
    {fact : MemoryFact} {supersedes : Option Nat} {now : MemoryText}
    (current : (candidateFact input candidate .active supersedes now).Current)
    (oldCurrent : fact.Current) (unerased : fact.erasedAt = none)
    (same : (candidateFact input candidate .active supersedes now).key = fact.key)
    (hasEntity : fact.scopeEntity.getD [] ≠ []) :
    shouldSupersede candidate = true ∧ isSuperseded input candidate fact = true := by
  obtain ⟨_, isMutable, kind⟩ := current
  obtain ⟨oldActive, oldMutable, oldKind⟩ := oldCurrent
  simp only [MemoryFact.key, candidateFact, Prod.mk.injEq] at same kind isMutable
  obtain ⟨project, worktree, type, scope⟩ := same
  have mutableCandidate : candidate.isMutable.getD true = true := by
    rw [decide_eq_true_eq] at isMutable
    cases isGiven : candidate.isMutable with
    | none => rfl
    | some given =>
      cases given with
      | true => rfl
      | false => exact absurd isGiven isMutable
  have someScope : fact.scopeEntity = some (candidate.scopeEntity.getD []) := by
    rw [scope]
    cases hasScope : fact.scopeEntity with
    | none =>
      rw [hasScope] at hasEntity
      exact absurd rfl hasEntity
    | some scopeEntity => rfl
  constructor
  · rw [← scope] at hasEntity
    simp [shouldSupersede, mutableCandidate, kind, hasEntity]
  · simp [isSuperseded, project, worktree, type, someScope, oldActive, oldMutable, oldKind, unerased]

theorem Sound.rememberAccepted (sound : tables.Sound) {input : MemoryRememberInput}
    {candidate : MemoryFactCandidate} {supersedes : Option Nat} (evidenceId : Nat)
    (excerpt now : MemoryText) :
    ((tables.supersededFactIds input candidate).foldl (supersede tables.nextFactId now)
      (((tables.insertFact (candidateFact input candidate .active supersedes now)).1.linkEvidence
        tables.nextFactId evidenceId excerpt).indexFact tables.nextFactId
          (candidateFact input candidate .active supersedes now).indexRow)).Sound := by
  have noNew := sound.fresh
  have notNew : tables.nextFactId ∉ tables.supersededFactIds input candidate := by
    intro isOld
    obtain ⟨_, fact, present, _⟩ := mem_supersededFactIds.mp isOld
    cases noNew.symm.trans present
  rw [supersedeAll now notNew]
  generalize isFact : candidateFact input candidate .active supersedes now = fact
  have active : fact.status = .active := by rw [← isFact]; rfl
  have noLink : fact.supersededByFactId = none := by rw [← isFact]; rfl
  have unerased : fact.erasedAt = none := by rw [← isFact]; rfl
  generalize isIds : tables.supersededFactIds input candidate = ids at notNew
  have oldOf : ∀ id ∈ ids, ∃ old, tables.facts.get? id = some old ∧ old.key = fact.key := by
    intro id member
    rw [← isIds] at member
    obtain ⟨should, old, present, isOld⟩ := mem_supersededFactIds.mp member
    exact ⟨old, present, isFact ▸ (key_of_isSuperseded should isOld).symm⟩
  -- the facts after the call: the new one, the superseded ones and the others
  have facts : ∀ id, (ids.foldl
      (fun facts id => facts.modify id (superseding tables.nextFactId now))
      (tables.facts.set tables.nextFactId fact)).get? id =
        if id ∈ ids then (tables.facts.get? id).map (superseding tables.nextFactId now)
        else if id = tables.nextFactId then some fact else tables.facts.get? id := by
    intro id
    have twice : ∀ fact, superseding tables.nextFactId now
        (superseding tables.nextFactId now fact) = superseding tables.nextFactId now fact :=
      fun _ => rfl
    rw [OrderedMap.get?_foldl_modify twice, OrderedMap.get?_set]
    split
    · rename_i member
      rw [if_neg fun same : id = tables.nextFactId => notNew (same ▸ member)]
    · rfl
  have indexes : ∀ id, (ids.foldl OrderedMap.delete
      (tables.factsFts.set tables.nextFactId fact.indexRow)).get? id =
        if id ∈ ids then none
        else if id = tables.nextFactId then some fact.indexRow else tables.factsFts.get? id := by
    intro id
    rw [OrderedMap.get?_foldl_delete, OrderedMap.get?_set]
  have cases' : ∀ id after, (ids.foldl
      (fun facts id => facts.modify id (superseding tables.nextFactId now))
      (tables.facts.set tables.nextFactId fact)).get? id = some after →
      (∃ old, id ∈ ids ∧ tables.facts.get? id = some old ∧
        after = superseding tables.nextFactId now old) ∨
      id = tables.nextFactId ∧ after = fact ∨
      id ∉ ids ∧ id ≠ tables.nextFactId ∧ tables.facts.get? id = some after := by
    intro id after isAfter
    rw [facts] at isAfter
    split at isAfter
    · rename_i member
      obtain ⟨old, present, rfl⟩ := Option.map_eq_some_iff.mp isAfter
      exact Or.inl ⟨old, member, present, rfl⟩
    · rename_i notOld
      split at isAfter
      · rename_i isNew
        exact Or.inr (Or.inl ⟨isNew, (Option.some.inj isAfter).symm⟩)
      · rename_i differs
        exact Or.inr (Or.inr ⟨notOld, differs, isAfter⟩)
  have currentOld : ∀ id old, id ∉ ids → tables.facts.get? id = some old → old.Current →
      fact.Current → fact.key = old.key → old.scopeEntity.getD [] ≠ [] → False := by
    intro id old notOld present oldCurrent current same hasEntity
    refine notOld (isIds ▸ mem_supersededFactIds.mpr ?_)
    obtain ⟨should, isOld⟩ := isSuperseded_of_current (isFact ▸ current) oldCurrent
      (sound.unerased id old present oldCurrent.1) (isFact ▸ same) hasEntity
    exact ⟨should, old, present, isOld⟩
  refine ⟨⟨?_, ?_, ?_, ?_⟩, ?_, ?_⟩
  · intro id
    dsimp only [indexFact, linkEvidence, insertFact]
    rw [indexes, facts]
    split
    · rename_i member
      obtain ⟨old, present, _⟩ := oldOf id member
      rw [present]
      rfl
    · split
      · rw [Option.bind_some, if_pos active]
      · exact sound.consistent.indexed id
  · intro id embedded
    obtain ⟨old, present, unerasedOld⟩ := sound.consistent.embedded id embedded
    dsimp only [indexFact, linkEvidence, insertFact]
    rw [facts]
    split
    · exact ⟨_, congrArg (Option.map _) present, by simp [superseding]⟩
    · rw [if_neg fun same : id = tables.nextFactId => by
        rw [same, noNew] at present
        cases present]
      exact ⟨old, present, unerasedOld⟩
  · intro id other one another isOne isOther current otherCurrent sameKey hasEntity
    dsimp only [indexFact, linkEvidence, insertFact] at isOne isOther
    rcases cases' id one isOne with ⟨old, _, _, rfl⟩ | ⟨isNew, rfl⟩ | ⟨notOld, _, present⟩
    · cases current.1
    · rcases cases' other another isOther with
        ⟨old, _, _, rfl⟩ | ⟨otherNew, _⟩ | ⟨otherNotOld, _, otherPresent⟩
      · cases otherCurrent.1
      · exact isNew.trans otherNew.symm
      · have otherEntity : another.scopeEntity.getD [] ≠ [] := by
          have scope : one.scopeEntity = another.scopeEntity :=
            congrArg (fun key => key.2.2.2) sameKey
          rwa [← scope]
        exact (currentOld other another otherNotOld otherPresent otherCurrent current sameKey
          otherEntity).elim
    · rcases cases' other another isOther with
        ⟨old, _, _, rfl⟩ | ⟨_, rfl⟩ | ⟨_, _, otherPresent⟩
      · cases otherCurrent.1
      · exact (currentOld id one notOld present current otherCurrent sameKey.symm hasEntity).elim
      · exact sound.consistent.single id other one another present otherPresent current
          otherCurrent sameKey hasEntity
  · intro id after later isAfter isLater
    dsimp only [indexFact, linkEvidence, insertFact] at isAfter ⊢
    rcases cases' id after isAfter with ⟨old, member, present, rfl⟩ | ⟨_, rfl⟩ | ⟨_, _, present⟩
    · cases isLater
      obtain ⟨same, isSame, sameKey⟩ := oldOf id member
      cases present.symm.trans isSame
      refine ⟨sound.counted id old present, fact, ?_, sameKey.symm⟩
      rw [facts, if_neg notNew, if_pos rfl]
    · rw [noLink] at isLater
      cases isLater
    · obtain ⟨bound, laterFact, isLaterFact, sameKey⟩ :=
        sound.consistent.superseded id after later present isLater
      refine ⟨bound, ?_⟩
      rw [facts]
      split
      · exact ⟨_, congrArg (Option.map _) isLaterFact, sameKey⟩
      · rw [if_neg fun same : later = tables.nextFactId => by
          rw [same, noNew] at isLaterFact
          cases isLaterFact]
        exact ⟨laterFact, isLaterFact, sameKey⟩
  · intro id after isAfter
    dsimp only [indexFact, linkEvidence, insertFact] at isAfter ⊢
    rcases cases' id after isAfter with ⟨old, _, present, _⟩ | ⟨rfl, _⟩ | ⟨_, _, present⟩
    · exact Nat.lt_succ_of_lt (sound.counted id old present)
    · exact Nat.lt_succ_self _
    · exact Nat.lt_succ_of_lt (sound.counted id after present)
  · intro id after isAfter isActive
    dsimp only [indexFact, linkEvidence, insertFact] at isAfter
    rcases cases' id after isAfter with ⟨old, _, _, rfl⟩ | ⟨_, rfl⟩ | ⟨_, _, present⟩
    · cases isActive
    · exact unerased
    · exact sound.unerased id after present isActive

theorem Sound.rememberRejected (sound : tables.Sound) {fact : MemoryFact}
    (rejected : fact.status = .rejected) (noLink : fact.supersededByFactId = none)
    (evidenceId : Nat) (excerpt : MemoryText) :
    ((tables.insertFact fact).1.linkEvidence tables.nextFactId evidenceId excerpt).Sound := by
  have noNew := sound.fresh
  have old : ∀ id after, (tables.facts.set tables.nextFactId fact).get? id = some after →
      id = tables.nextFactId ∧ after = fact ∨ tables.facts.get? id = some after := by
    intro id after isAfter
    rw [OrderedMap.get?_set] at isAfter
    split at isAfter
    · rename_i isNew
      exact Or.inl ⟨isNew, (Option.some.inj isAfter).symm⟩
    · exact Or.inr isAfter
  have kept : ∀ id present, tables.facts.get? id = some present →
      (tables.facts.set tables.nextFactId fact).get? id = some present := by
    intro id present isPresent
    rw [OrderedMap.get?_set, if_neg]
    · exact isPresent
    · intro same
      rw [same, noNew] at isPresent
      cases isPresent
  have notActive : fact.status ≠ .active := by rw [rejected]; simp
  refine ⟨⟨?_, ?_, ?_, ?_⟩, ?_, ?_⟩
  · intro id
    dsimp only [linkEvidence, insertFact]
    rw [sound.consistent.indexed, OrderedMap.get?_set]
    split
    · rename_i isNew
      rw [isNew, noNew, Option.bind_some, if_neg notActive]
      rfl
    · rfl
  · intro id embedded
    obtain ⟨present, isPresent, unerased⟩ := sound.consistent.embedded id embedded
    exact ⟨present, kept id present isPresent, unerased⟩
  · intro id other one another isOne isOther current otherCurrent
    rcases old id one isOne with ⟨_, rfl⟩ | isOne
    · exact absurd current.1 notActive
    · rcases old other another isOther with ⟨_, rfl⟩ | isOther
      · exact absurd otherCurrent.1 notActive
      · exact sound.consistent.single id other one another isOne isOther current otherCurrent
  · intro id after later isAfter isLater
    rcases old id after isAfter with ⟨_, rfl⟩ | isAfter
    · rw [noLink] at isLater
      cases isLater
    · obtain ⟨bound, laterFact, isLaterFact, sameKey⟩ :=
        sound.consistent.superseded id after later isAfter isLater
      exact ⟨bound, laterFact, kept _ _ isLaterFact, sameKey⟩
  · intro id after isAfter
    rcases old id after isAfter with ⟨rfl, _⟩ | isAfter
    · exact Nat.lt_succ_self _
    · exact Nat.lt_succ_of_lt (sound.counted id after isAfter)
  · intro id after isAfter isActive
    rcases old id after isAfter with ⟨_, rfl⟩ | isAfter
    · exact absurd isActive notActive
    · exact sound.unerased id after isAfter isActive

theorem Sound.rememberFact (sound : tables.Sound) {input : MemoryRememberInput}
    {candidate : MemoryFactCandidate} {evidenceId : Nat} {now : MemoryText} {next : MemoryTables}
    (remembered : rememberFact context input evidenceId now tables candidate = some next) :
    next.Sound := by
  rw [MemoryTables.rememberFact] at remembered
  split at remembered
  · dsimp only at remembered
    split at remembered
    · cases remembered
      exact sound.rememberAccepted evidenceId _ now
    · cases remembered
  · cases remembered
    exact sound.rememberRejected rfl rfl evidenceId _

theorem Sound.rememberMemoryFacts (sound : tables.Sound) {input : MemoryRememberInput}
    {now : MemoryText} {next : MemoryTables}
    (remembered : tables.rememberMemoryFacts context input now = some next) : next.Sound := by
  have general : ∀ (candidates : List MemoryFactCandidate) (start : MemoryTables), start.Sound →
      candidates.foldlM (MemoryTables.rememberFact context input tables.nextEvidenceId now) start =
        some next → next.Sound := by
    intro candidates
    induction candidates with
    | nil =>
      intro start startSound finished
      cases finished
      exact startSound
    | cons candidate rest ih =>
      intro start startSound finished
      rw [List.foldlM_cons] at finished
      obtain ⟨middle, isMiddle, isRest⟩ := Option.bind_eq_some_iff.mp finished
      exact ih middle (startSound.rememberFact isMiddle) isRest
  have created : (tables.createMemoryEvidence input).1.Sound := sound.of_facts rfl rfl rfl rfl
  exact general input.facts _ created remembered

theorem Sound.upsertMemoryFactEmbedding (sound : tables.Sound) {input : MemoryEmbeddingInput}
    {now : MemoryText} {next : MemoryTables}
    (live : input.embedding = [] ∨ ∀ fact, tables.facts.get? input.factId = some fact →
      fact.status ≠ .erased)
    (upserted : tables.upsertMemoryFactEmbedding input now = some next) : next.Sound := by
  rw [MemoryTables.upsertMemoryFactEmbedding] at upserted
  split at upserted
  · cases upserted
    exact sound
  · rename_i something
    split at upserted
    · rename_i hasFact
      cases upserted
      have consistent := sound.consistent
      refine ⟨⟨consistent.indexed, ?_, consistent.single, consistent.superseded⟩, sound.counted,
        sound.unerased⟩
      intro id embedded
      rw [OrderedMap.has, OrderedMap.get?_upsert] at embedded
      split at embedded
      · rename_i isFact
        obtain ⟨fact, present⟩ := Option.isSome_iff_exists.mp hasFact
        exact ⟨fact, isFact ▸ present, live.resolve_left something fact present⟩
      · exact consistent.embedded id embedded
    · cases upserted

def erasing (input : MemoryForgetInput) (erasedAt : MemoryText) (fact : MemoryFact) : MemoryFact :=
  if fact.projectId = input.projectId ∧ fact.worktreePath = input.worktreePath then
    { fact with status := .erased, erasedAt := some erasedAt, updatedAt := erasedAt }
  else fact

def erasingEvidence (input : MemoryForgetInput) (erasedAt : MemoryText)
    (evidence : MemoryEvidence) : MemoryEvidence :=
  if evidence.projectId = input.projectId ∧ evidence.worktreePath = input.worktreePath then
    { evidence with erasedAt := some erasedAt }
  else evidence

theorem erasing_twice (input : MemoryForgetInput) (erasedAt : MemoryText) (fact : MemoryFact) :
    erasing input erasedAt (erasing input erasedAt fact) = erasing input erasedAt fact := by
  by_cases own : fact.projectId = input.projectId ∧ fact.worktreePath = input.worktreePath
  · simp [erasing, own]
  · simp [erasing, own]

theorem erasingEvidence_twice (input : MemoryForgetInput) (erasedAt : MemoryText)
    (evidence : MemoryEvidence) :
    erasingEvidence input erasedAt (erasingEvidence input erasedAt evidence) =
      erasingEvidence input erasedAt evidence := by
  by_cases own : evidence.projectId = input.projectId ∧
      evidence.worktreePath = input.worktreePath
  · simp [erasingEvidence, own]
  · simp [erasingEvidence, own]

theorem eraseFacts (input : MemoryForgetInput) (erasedAt : MemoryText) (ids : List Nat) :
    ids.foldl (eraseFact input erasedAt) tables =
      { tables with
        facts := ids.foldl (fun facts id => facts.modify id (erasing input erasedAt)) tables.facts
        factsFts := ids.foldl OrderedMap.delete tables.factsFts
        embeddings := ids.foldl OrderedMap.delete tables.embeddings } := by
  induction ids generalizing tables with
  | nil => rfl
  | cons first rest ih =>
    rw [List.foldl_cons, ih]
    rfl

theorem eraseAllEvidence (input : MemoryForgetInput) (erasedAt : MemoryText) (ids : List Nat) :
    ids.foldl (eraseEvidence input erasedAt) tables =
      { tables with
        evidence := ids.foldl (fun evidence id =>
          evidence.modify id (erasingEvidence input erasedAt)) tables.evidence
        evidenceFts := ids.foldl OrderedMap.delete tables.evidenceFts } := by
  induction ids generalizing tables with
  | nil => rfl
  | cons first rest ih =>
    rw [List.foldl_cons, ih]
    rfl

/-- An erase names no fact and no evidence of another project or worktree that has an index row or
an embedding, and its query finds none. -/
structure ForgetsOwn (context : MemoryContext) (tables : MemoryTables) (input : MemoryForgetInput) :
    Prop where
  facts : ∀ id ∈ input.factIds, ∀ fact, tables.facts.get? id = some fact →
    (fact.projectId = input.projectId ∧ fact.worktreePath = input.worktreePath) ∨
      tables.factsFts.get? id = none ∧ tables.embeddings.get? id = none
  evidence : ∀ id ∈ input.evidenceIds, ∀ evidence, tables.evidence.get? id = some evidence →
    (evidence.projectId = input.projectId ∧ evidence.worktreePath = input.worktreePath) ∨
      tables.evidenceFts.get? id = none
  query : ∀ id ∈ tables.queriedFactIds context input, ∀ fact, tables.facts.get? id = some fact →
    fact.projectId = input.projectId ∧ fact.worktreePath = input.worktreePath

theorem linked_own {input : MemoryForgetInput} {evidenceId id : Nat}
    (linked : id ∈ tables.linkedFactIds input evidenceId) {fact : MemoryFact}
    (present : tables.facts.get? id = some fact) :
    fact.projectId = input.projectId ∧ fact.worktreePath = input.worktreePath := by
  obtain ⟨link, isLink, rfl⟩ := List.mem_map.mp linked
  obtain ⟨_, passes⟩ := List.mem_filter.mp isLink
  rw [Bool.and_eq_true, present] at passes
  simpa using passes.2

theorem forgotten_own {input : MemoryForgetInput} (forgets : ForgetsOwn context tables input)
    {id : Nat} (forgotten : id ∈ tables.forgottenFactIds context input) {fact : MemoryFact}
    (present : tables.facts.get? id = some fact) :
    (fact.projectId = input.projectId ∧ fact.worktreePath = input.worktreePath) ∨
      tables.factsFts.get? id = none ∧ tables.embeddings.get? id = none := by
  rw [forgottenFactIds, OrderedSet.mem_addAll, OrderedSet.mem_addAll, OrderedSet.mem_ofList]
    at forgotten
  rcases forgotten with linked | queried | given
  · obtain ⟨evidenceId, _, isLinked⟩ := List.mem_flatMap.mp linked
    exact Or.inl (linked_own isLinked present)
  · exact Or.inl (forgets.query id queried fact present)
  · exact forgets.facts id given fact present

section Erased

variable {input : MemoryForgetInput} {erasedAt : MemoryText} {ids evidenceIds : List Nat}

theorem erased_tables :
    evidenceIds.foldl (eraseEvidence input erasedAt) (ids.foldl (eraseFact input erasedAt) tables) =
      { tables with
        facts := ids.foldl (fun facts id => facts.modify id (erasing input erasedAt)) tables.facts
        factsFts := ids.foldl OrderedMap.delete tables.factsFts
        embeddings := ids.foldl OrderedMap.delete tables.embeddings
        evidence := evidenceIds.foldl (fun evidence id =>
          evidence.modify id (erasingEvidence input erasedAt)) tables.evidence
        evidenceFts := evidenceIds.foldl OrderedMap.delete tables.evidenceFts } := by
  rw [eraseFacts, eraseAllEvidence]

theorem get?_erased (id : Nat) :
    (ids.foldl (fun facts id => facts.modify id (erasing input erasedAt)) tables.facts).get? id =
      if id ∈ ids then (tables.facts.get? id).map (erasing input erasedAt)
      else tables.facts.get? id :=
  OrderedMap.get?_foldl_modify (erasing_twice input erasedAt) tables.facts ids id

theorem erasing_key (fact : MemoryFact) :
    (erasing input erasedAt fact).key = fact.key ∧
      (erasing input erasedAt fact).supersededByFactId = fact.supersededByFactId := by
  rw [erasing]
  split
  · exact ⟨rfl, rfl⟩
  · exact ⟨rfl, rfl⟩

theorem erasing_active {fact : MemoryFact} (active : (erasing input erasedAt fact).status = .active) :
    erasing input erasedAt fact = fact := by
  rw [erasing] at active ⊢
  split at active
  · cases active
  · rename_i other
    rw [if_neg other]

theorem Sound.erase (sound : tables.Sound)
    (own : ∀ id ∈ ids, ∀ fact, tables.facts.get? id = some fact →
      (fact.projectId = input.projectId ∧ fact.worktreePath = input.worktreePath) ∨
        tables.factsFts.get? id = none ∧ tables.embeddings.get? id = none) :
    (evidenceIds.foldl (eraseEvidence input erasedAt)
      (ids.foldl (eraseFact input erasedAt) tables)).Sound := by
  have consistent := sound.consistent
  rw [erased_tables]
  have before : ∀ id after, (ids.foldl (fun facts id =>
      facts.modify id (erasing input erasedAt)) tables.facts).get? id = some after →
      ∃ fact, tables.facts.get? id = some fact ∧
        (after = erasing input erasedAt fact ∨ after = fact) := by
    intro id after isAfter
    rw [get?_erased] at isAfter
    split at isAfter
    · obtain ⟨fact, present, rfl⟩ := Option.map_eq_some_iff.mp isAfter
      exact ⟨fact, present, Or.inl rfl⟩
    · exact ⟨after, isAfter, Or.inr rfl⟩
  have activeBefore : ∀ id after, (ids.foldl (fun facts id =>
      facts.modify id (erasing input erasedAt)) tables.facts).get? id = some after →
      after.status = .active → tables.facts.get? id = some after := by
    intro id after isAfter active
    obtain ⟨fact, present, rfl | rfl⟩ := before id after isAfter
    · rw [erasing_active active]
      exact present
    · exact present
  refine ⟨⟨?_, ?_, ?_, ?_⟩, ?_, ?_⟩
  · intro id
    dsimp only
    rw [OrderedMap.get?_foldl_delete, get?_erased]
    split
    · rename_i member
      cases present : tables.facts.get? id with
      | none => rfl
      | some fact =>
        rw [Option.map_some, Option.bind_some]
        rcases own id member fact present with isOwn | ⟨unindexed, _⟩
        · rw [erasing, if_pos isOwn]
          rfl
        · have notActive := (consistent.indexed id).symm.trans unindexed
          rw [present, Option.bind_some] at notActive
          split at notActive
          · cases notActive
          · rename_i inactive
            rw [if_neg]
            intro active
            exact inactive (erasing_active active ▸ active)
    · exact consistent.indexed id
  · intro id embedded
    dsimp only at embedded ⊢
    rw [OrderedMap.has, OrderedMap.get?_foldl_delete] at embedded
    split at embedded
    · cases embedded
    · rename_i notErased
      rw [get?_erased, if_neg notErased]
      exact consistent.embedded id embedded
  · intro id other one another isOne isOther current otherCurrent
    exact consistent.single id other one another (activeBefore id one isOne current.1)
      (activeBefore other another isOther otherCurrent.1) current otherCurrent
  · intro id after later isAfter isLater
    obtain ⟨fact, present, same⟩ := before id after isAfter
    have unchanged : after.key = fact.key ∧ after.supersededByFactId = fact.supersededByFactId := by
      rcases same with rfl | rfl
      · exact erasing_key fact
      · exact ⟨rfl, rfl⟩
    obtain ⟨bound, laterFact, isLaterFact, sameKey⟩ :=
      consistent.superseded id fact later present (unchanged.2.symm.trans isLater)
    refine ⟨bound, ?_⟩
    dsimp only
    rw [get?_erased, isLaterFact, unchanged.1]
    split
    · exact ⟨_, rfl, (erasing_key laterFact).1.trans sameKey⟩
    · exact ⟨_, rfl, sameKey⟩
  · intro id after isAfter
    obtain ⟨fact, present, _⟩ := before id after isAfter
    exact sound.counted id fact present
  · intro id after isAfter active
    exact sound.unerased id after (activeBefore id after isAfter active) active

theorem erase_apart (ownEvidence : ∀ id ∈ evidenceIds, ∀ evidence,
      tables.evidence.get? id = some evidence →
      (evidence.projectId = input.projectId ∧ evidence.worktreePath = input.worktreePath) ∨
        tables.evidenceFts.get? id = none)
    (own : ∀ id ∈ ids, ∀ fact, tables.facts.get? id = some fact →
      (fact.projectId = input.projectId ∧ fact.worktreePath = input.worktreePath) ∨
        tables.factsFts.get? id = none ∧ tables.embeddings.get? id = none) :
    ErasesApart input tables (evidenceIds.foldl (eraseEvidence input erasedAt)
      (ids.foldl (eraseFact input erasedAt) tables)) := by
  rw [erased_tables]
  constructor
  · intro id fact present other
    dsimp only
    rw [get?_erased, OrderedMap.get?_foldl_delete, OrderedMap.get?_foldl_delete]
    split
    · rename_i member
      obtain ⟨unindexed, unembedded⟩ := (own id member fact present).resolve_left other
      rw [present, Option.map_some, erasing, if_neg other]
      exact ⟨rfl, unindexed.symm, unembedded.symm⟩
    · exact ⟨present, rfl, rfl⟩
  · intro id evidence present other
    dsimp only
    rw [OrderedMap.get?_foldl_modify (erasingEvidence_twice input erasedAt),
      OrderedMap.get?_foldl_delete]
    split
    · rename_i member
      have unindexed := (ownEvidence id member evidence present).resolve_left other
      rw [present, Option.map_some, erasingEvidence, if_neg other]
      exact ⟨rfl, unindexed.symm⟩
    · exact ⟨present, rfl⟩

end Erased

def KeepsApart (context : MemoryContext) (tables : MemoryTables) : MemoryEvent → Prop
  | .rememberMemoryFacts _ _ => True
  | .upsertMemoryFactEmbedding input _ => input.embedding = [] ∨
      ∀ fact, tables.facts.get? input.factId = some fact → fact.status ≠ .erased
  | .eraseMemory input _ => ForgetsOwn context tables input

theorem Sound.step (sound : tables.Sound) {event : MemoryEvent} {next : MemoryTables}
    (apart : KeepsApart context tables event) (stepped : memoryStep context tables event = some next) :
    next.Sound := by
  cases event with
  | rememberMemoryFacts input now => exact sound.rememberMemoryFacts stepped
  | upsertMemoryFactEmbedding input now => exact sound.upsertMemoryFactEmbedding apart stepped
  | eraseMemory input erasedAt =>
    rw [memoryStep, MemoryTables.eraseMemory] at stepped
    split at stepped
    · cases stepped
    · cases stepped
      exact sound.erase fun id member fact present => forgotten_own apart member present

end MemoryTables

open Transition MemoryTables

/-- In a run of calls that each keep to their own memory, every state is consistent and every
erase leaves the memory of the others as it was. -/
theorem memory_store_consistent (context : MemoryContext) {tables : MemoryTables}
    (reached : Reaches (memoryStep context) (KeepsApart context) MemoryTables.empty tables) :
    tables.Consistent ∧ ∀ input erasedAt next, KeepsApart context tables (.eraseMemory input erasedAt) →
      memoryStep context tables (.eraseMemory input erasedAt) = some next →
        ErasesApart input tables next := by
  have start : MemoryTables.empty.Sound := by
    refine ⟨⟨fun _ => rfl, ?_, ?_, ?_⟩, ?_, ?_⟩
    · intro id embedded
      cases embedded
    · intro id other fact otherFact present
      cases present
    · intro id fact later present
      cases present
    · intro id fact present
      cases present
    · intro id fact present
      cases present
  have sound := reached.invariant MemoryTables.Sound start
    fun before event after sound apart stepped => sound.step apart stepped
  refine ⟨sound.consistent, fun input erasedAt next apart stepped => ?_⟩
  rw [memoryStep, MemoryTables.eraseMemory] at stepped
  split at stepped
  · cases stepped
  · cases stepped
    refine erase_apart ?_ fun id member fact present => forgotten_own apart member present
    intro id member
    exact apart.evidence id ((OrderedSet.mem_ofList _ _).mp member)

namespace Sample

def remembering : MemoryContext where
  validateMemoryFact := fun _ _ => true
  matchesQuery := fun _ _ => true
  redactMemoryPreview := fun text length => text.take length

def rememberIn (projectId : Nat) : MemoryEvent :=
  .rememberMemoryFacts
    { projectId, worktreePath := "w".toList, originThreadId := none
      sourceKind := "manual".toList, text := "the port is 80".toList
      facts := [{ statement := "port 80".toList, factType := "port".toList, memoryKind := none
                  scopeEntity := some "web".toList, isMutable := none, validFrom := none
                  supersedesFactId := none }] } "1".toList

def embedFirst : MemoryEvent :=
  .upsertMemoryFactEmbedding
    { factId := 1, projectId := 1, worktreePath := "w".toList, embedding := [1]
      modelKey := none } "2".toList

def forgetFirst (projectId : Nat) : MemoryForgetInput where
  projectId := projectId
  worktreePath := "w".toList
  factIds := [1]
  evidenceIds := [1]
  query := none
  confirm := "FORGET".toList

def keepsApart (tables : MemoryTables) : MemoryEvent → Bool
  | .rememberMemoryFacts _ _ => true
  | .upsertMemoryFactEmbedding input _ =>
    (tables.facts.get? input.factId).all fun fact => fact.status ≠ .erased
  | .eraseMemory input _ =>
    input.query = none &&
    (input.factIds.all fun id => (tables.facts.get? id).all fun fact =>
      fact.projectId = input.projectId && fact.worktreePath = input.worktreePath) &&
    input.evidenceIds.all fun id => (tables.evidence.get? id).all fun evidence =>
      evidence.projectId = input.projectId && evidence.worktreePath = input.worktreePath

theorem keepsApart_sound {tables : MemoryTables} {event : MemoryEvent}
    (keeps : keepsApart tables event = true) : KeepsApart remembering tables event := by
  cases event with
  | rememberMemoryFacts input now => exact trivial
  | upsertMemoryFactEmbedding input now =>
    refine Or.inr fun fact present => ?_
    rw [keepsApart, present] at keeps
    simpa using keeps
  | eraseMemory input erasedAt =>
    simp only [keepsApart, Bool.and_eq_true, List.all_eq_true, Option.all_eq_true,
      decide_eq_true_eq] at keeps
    obtain ⟨⟨noQuery, ownFacts⟩, ownEvidence⟩ := keeps
    refine ⟨fun id member fact present => Or.inl (ownFacts id member fact present),
      fun id member evidence present => Or.inl (ownEvidence id member evidence present), ?_⟩
    intro id queried
    rw [queriedFactIds, noQuery] at queried
    cases queried

end Sample

theorem memory_store_consistent_forgets : ∃ tables : MemoryTables,
    (tables.facts.get? 1).map MemoryFact.status = some .erased ∧ tables.Consistent := by
  have ran : ((run (memoryStep Sample.remembering) Sample.keepsApart MemoryTables.empty
      [Sample.rememberIn 1, Sample.embedFirst, Sample.rememberIn 2,
        .eraseMemory (Sample.forgetFirst 1) "3".toList]).any fun tables =>
      (tables.facts.get? 1).map MemoryFact.status = some .erased) = true := by decide +kernel
  obtain ⟨tables, isRun, isErased⟩ := (Option.any_eq_true _ _).mp ran
  have reached := (reaches_of_run isRun).weaken fun _ _ keeps => Sample.keepsApart_sound keeps
  exact ⟨tables, of_decide_eq_true isErased,
    (memory_store_consistent Sample.remembering reached).1⟩

theorem not_memory_store_consistent : ¬∀ (context : MemoryContext) (tables : MemoryTables),
    Reaches (memoryStep context) Unrestricted MemoryTables.empty tables →
      tables.Consistent ∧ ∀ input erasedAt next,
        memoryStep context tables (.eraseMemory input erasedAt) = some next →
          ErasesApart input tables next := by
  intro kept
  have ran : ((run (memoryStep Sample.remembering) (fun _ _ => true) MemoryTables.empty
      [Sample.rememberIn 1, .eraseMemory (Sample.forgetFirst 2) "2".toList]).any fun tables =>
      (tables.facts.get? 1).map MemoryFact.status = some .active ∧
        tables.factsFts.get? 1 = none) = true := by decide +kernel
  obtain ⟨tables, isRun, isErased⟩ := (Option.any_eq_true _ _).mp ran
  obtain ⟨isActive, unindexed⟩ := of_decide_eq_true isErased
  obtain ⟨fact, present, active⟩ := Option.map_eq_some_iff.mp isActive
  have indexed := (kept _ tables (reaches_of_run isRun).unrestricted).1.indexed 1
  rw [unindexed, present, Option.bind_some, if_pos active] at indexed
  cases indexed

end Metidos.Memory
