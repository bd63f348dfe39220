import Metidos.Memory.RememberStatements

/-!
What any part of a call keeps of the memory tables, and the rows that a remembering call leaves
when one of its statements throws.
-/

namespace Metidos.Memory

open StatementScript Transition

namespace MemoryTables

structure Linked (tables : MemoryTables) : Prop where
  facts : ∀ id fact, tables.facts.get? id = some fact → id < tables.nextFactId
  evidence : ∀ id evidence, tables.evidence.get? id = some evidence → id < tables.nextEvidenceId
  links : ∀ link ∈ tables.factEvidence, ∃ fact evidence,
    tables.facts.get? link.factId = some fact ∧
      tables.evidence.get? link.evidenceId = some evidence ∧
        fact.projectId = evidence.projectId ∧ fact.worktreePath = evidence.worktreePath

structure Follows (before after : MemoryTables) : Prop where
  facts : ∀ id fact, before.facts.get? id = some fact →
    ∃ later, after.facts.get? id = some later ∧ later.projectId = fact.projectId ∧
      later.worktreePath = fact.worktreePath ∧
        (fact.erasedAt.isSome = true → later.erasedAt.isSome = true)
  evidence : ∀ id evidence, before.evidence.get? id = some evidence →
    ∃ later, after.evidence.get? id = some later ∧ later.projectId = evidence.projectId ∧
      later.worktreePath = evidence.worktreePath ∧
        (evidence.erasedAt.isSome = true → later.erasedAt.isSome = true)
  links : ∀ link ∈ after.factEvidence,
    link ∈ before.factEvidence ∨ before.evidence.get? link.evidenceId = none

variable {tables before middle after : MemoryTables}

theorem Follows.refl (tables : MemoryTables) : Follows tables tables where
  facts := fun _ fact present => ⟨fact, present, rfl, rfl, id⟩
  evidence := fun _ evidence present => ⟨evidence, present, rfl, rfl, id⟩
  links := fun _ member => Or.inl member

theorem Follows.trans (first : Follows before middle) (second : Follows middle after) :
    Follows before after where
  facts := by
    intro id fact present
    obtain ⟨between, isBetween, project, worktree, erased⟩ := first.facts id fact present
    obtain ⟨later, isLater, laterProject, laterWorktree, laterErased⟩ :=
      second.facts id between isBetween
    exact ⟨later, isLater, laterProject.trans project, laterWorktree.trans worktree,
      fun isErased => laterErased (erased isErased)⟩
  evidence := by
    intro id evidence present
    obtain ⟨between, isBetween, project, worktree, erased⟩ := first.evidence id evidence present
    obtain ⟨later, isLater, laterProject, laterWorktree, laterErased⟩ :=
      second.evidence id between isBetween
    exact ⟨later, isLater, laterProject.trans project, laterWorktree.trans worktree,
      fun isErased => laterErased (erased isErased)⟩
  links := by
    intro link member
    rcases second.links link member with old | absent
    · exact first.links link old
    · refine Or.inr (Option.eq_none_iff_forall_ne_some.mpr fun evidence present => ?_)
      obtain ⟨later, isLater, _⟩ := first.evidence _ evidence present
      cases absent.symm.trans isLater

theorem Linked.follow (linked : before.Linked) (follows : Follows before after)
    (facts : ∀ id fact, after.facts.get? id = some fact → id < after.nextFactId)
    (evidence : ∀ id row, after.evidence.get? id = some row → id < after.nextEvidenceId)
    (links : after.factEvidence = before.factEvidence) : after.Linked := by
  refine ⟨facts, evidence, fun link member => ?_⟩
  rw [links] at member
  obtain ⟨fact, row, isFact, isRow, project, worktree⟩ := linked.links link member
  obtain ⟨laterFact, isLaterFact, factProject, factWorktree, _⟩ := follows.facts _ fact isFact
  obtain ⟨laterRow, isLaterRow, rowProject, rowWorktree, _⟩ := follows.evidence _ row isRow
  exact ⟨laterFact, laterRow, isLaterFact, isLaterRow,
    factProject.trans (project.trans rowProject.symm),
    factWorktree.trans (worktree.trans rowWorktree.symm)⟩

theorem Linked.freshFact (linked : tables.Linked) :
    tables.facts.get? tables.nextFactId = none := by
  refine Option.eq_none_iff_forall_ne_some.mpr fun fact present => ?_
  exact Nat.lt_irrefl _ (linked.facts _ fact present)

theorem Linked.freshEvidence (linked : tables.Linked) :
    tables.evidence.get? tables.nextEvidenceId = none := by
  refine Option.eq_none_iff_forall_ne_some.mpr fun row present => ?_
  exact Nat.lt_irrefl _ (linked.evidence _ row present)

structure Continues (start current : MemoryTables) : Prop where
  linked : current.Linked
  follows : Follows start current

theorem Continues.same (holds : Continues before tables) (facts : after.facts = tables.facts)
    (nextFactId : after.nextFactId = tables.nextFactId)
    (evidence : after.evidence = tables.evidence)
    (nextEvidenceId : after.nextEvidenceId = tables.nextEvidenceId)
    (links : after.factEvidence = tables.factEvidence) : Continues before after := by
  refine ⟨⟨?_, ?_, ?_⟩, ⟨?_, ?_, ?_⟩⟩
  · rw [facts, nextFactId]
    exact holds.linked.facts
  · rw [evidence, nextEvidenceId]
    exact holds.linked.evidence
  · rw [facts, evidence, links]
    exact holds.linked.links
  · rw [facts]
    exact holds.follows.facts
  · rw [evidence]
    exact holds.follows.evidence
  · rw [links]
    exact holds.follows.links

theorem Continues.modifyFact (holds : Continues before tables) (factId : Nat)
    (update : MemoryFact → MemoryFact)
    (keeps : ∀ fact, (update fact).projectId = fact.projectId ∧
      (update fact).worktreePath = fact.worktreePath ∧
        (fact.erasedAt.isSome = true → (update fact).erasedAt.isSome = true)) :
    Continues before { tables with facts := tables.facts.modify factId update } := by
  have follows : Follows tables
      { tables with facts := tables.facts.modify factId update } := by
    refine ⟨fun id fact present => ?_, (Follows.refl tables).evidence,
      fun _ member => Or.inl member⟩
    rw [OrderedMap.get?_modify]
    split
    · rename_i same
      rw [← same, present]
      exact ⟨update fact, rfl, keeps fact⟩
    · exact ⟨fact, present, rfl, rfl, fun erased => erased⟩
  refine ⟨holds.linked.follow follows ?_ holds.linked.evidence rfl, holds.follows.trans follows⟩
  intro id fact present
  rw [OrderedMap.get?_modify] at present
  split at present
  · rename_i same
    obtain ⟨old, isOld, _⟩ := Option.map_eq_some_iff.mp present
    exact holds.linked.facts id old (same ▸ isOld)
  · exact holds.linked.facts id fact present

theorem Continues.modifyEvidence (holds : Continues before tables) (evidenceId : Nat)
    (update : MemoryEvidence → MemoryEvidence)
    (keeps : ∀ row, (update row).projectId = row.projectId ∧
      (update row).worktreePath = row.worktreePath ∧
        (row.erasedAt.isSome = true → (update row).erasedAt.isSome = true)) :
    Continues before { tables with evidence := tables.evidence.modify evidenceId update } := by
  have follows : Follows tables
      { tables with evidence := tables.evidence.modify evidenceId update } := by
    refine ⟨(Follows.refl tables).facts, fun id row present => ?_,
      fun _ member => Or.inl member⟩
    rw [OrderedMap.get?_modify]
    split
    · rename_i same
      rw [← same, present]
      exact ⟨update row, rfl, keeps row⟩
    · exact ⟨row, present, rfl, rfl, fun erased => erased⟩
  refine ⟨holds.linked.follow follows holds.linked.facts ?_ rfl, holds.follows.trans follows⟩
  intro id row present
  rw [OrderedMap.get?_modify] at present
  split at present
  · rename_i same
    obtain ⟨old, isOld, _⟩ := Option.map_eq_some_iff.mp present
    exact holds.linked.evidence id old (same ▸ isOld)
  · exact holds.linked.evidence id row present

theorem Continues.insertFact (holds : Continues before tables) (fact : MemoryFact) :
    Continues before (tables.insertFact fact).1 := by
  have follows : Follows tables (tables.insertFact fact).1 := by
    refine ⟨fun id old present => ⟨old, ?_, rfl, rfl, fun erased => erased⟩,
      (Follows.refl tables).evidence, fun _ member => Or.inl member⟩
    rw [MemoryTables.insertFact, OrderedMap.get?_set, if_neg]
    · exact present
    · intro same
      cases holds.linked.freshFact.symm.trans (same ▸ present)
  refine ⟨holds.linked.follow follows ?_ holds.linked.evidence rfl, holds.follows.trans follows⟩
  intro id old present
  rw [MemoryTables.insertFact, OrderedMap.get?_set] at present
  split at present
  · rename_i same
    exact same ▸ Nat.lt_succ_self _
  · exact Nat.lt_succ_of_lt (holds.linked.facts id old present)

theorem Continues.insertEvidence (holds : Continues before tables) (row : MemoryEvidence) :
    Continues before { tables with
      evidence := tables.evidence.set tables.nextEvidenceId row
      nextEvidenceId := tables.nextEvidenceId + 1 } := by
  have follows : Follows tables { tables with
      evidence := tables.evidence.set tables.nextEvidenceId row
      nextEvidenceId := tables.nextEvidenceId + 1 } := by
    refine ⟨(Follows.refl tables).facts,
      fun id old present => ⟨old, ?_, rfl, rfl, fun erased => erased⟩,
      fun _ member => Or.inl member⟩
    rw [OrderedMap.get?_set, if_neg]
    · exact present
    · intro same
      cases holds.linked.freshEvidence.symm.trans (same ▸ present)
  refine ⟨holds.linked.follow follows holds.linked.facts ?_ rfl, holds.follows.trans follows⟩
  intro id old present
  rw [OrderedMap.get?_set] at present
  split at present
  · rename_i same
    exact same ▸ Nat.lt_succ_self _
  · exact Nat.lt_succ_of_lt (holds.linked.evidence id old present)

theorem Continues.linkEvidence (holds : Continues before tables) {factId evidenceId : Nat}
    {fact : MemoryFact} {row : MemoryEvidence} (isFact : tables.facts.get? factId = some fact)
    (isRow : tables.evidence.get? evidenceId = some row)
    (project : fact.projectId = row.projectId) (worktree : fact.worktreePath = row.worktreePath)
    (isNew : before.evidence.get? evidenceId = none) (excerpt : MemoryText) :
    Continues before (tables.linkEvidence factId evidenceId excerpt) := by
  refine ⟨⟨holds.linked.facts, holds.linked.evidence, fun link member => ?_⟩,
    ⟨holds.follows.facts, holds.follows.evidence, fun link member => ?_⟩⟩
  · rcases List.mem_append.mp member with old | added
    · exact holds.linked.links link old
    · rw [List.mem_singleton.mp added]
      exact ⟨fact, row, isFact, isRow, project, worktree⟩
  · rcases List.mem_append.mp member with old | added
    · exact holds.follows.links link old
    · rw [List.mem_singleton.mp added]
      exact Or.inr isNew

structure Remembering (start : MemoryTables) (input : MemoryRememberInput)
    (current : MemoryTables) : Prop where
  continues : Continues start current
  evidence : ∃ row, current.evidence.get? start.nextEvidenceId = some row ∧
    row.projectId = input.projectId ∧ row.worktreePath = input.worktreePath

end MemoryTables

namespace MemoryDatabase

open MemoryTables

variable {context : MemoryContext} {extractMemorySignals : MemoryText → List MemorySignalInput}
variable {start : MemoryTables} {input : MemoryRememberInput} {now : MemoryText}
variable {db : MemoryDatabase}

theorem insertFact_remembering {fact : MemoryFact} {after : MemoryDatabase}
    (holds : Remembering start input db.tables) (inserted : insertFact fact db = some after) :
    Remembering start input after.tables ∧
      after.tables.facts.get? db.tables.nextFactId = some fact := by
  rw [insertFact] at inserted
  split at inserted
  · cases inserted
    refine ⟨⟨holds.continues.insertFact fact, holds.evidence⟩, ?_⟩
    exact OrderedMap.get?_set_self _ _ _
  · cases inserted

theorem linkEvidence_remembering {factId : Nat} {fact : MemoryFact} (excerpt : MemoryText)
    (isNew : start.evidence.get? start.nextEvidenceId = none)
    (holds : Remembering start input db.tables) (isFact : db.tables.facts.get? factId = some fact)
    (project : fact.projectId = input.projectId)
    (worktree : fact.worktreePath = input.worktreePath) :
    Remembering start input (db.tables.linkEvidence factId start.nextEvidenceId excerpt) := by
  obtain ⟨row, isRow, rowProject, rowWorktree⟩ := holds.evidence
  exact ⟨holds.continues.linkEvidence isFact isRow (project.trans rowProject.symm)
    (worktree.trans rowWorktree.symm) isNew excerpt, row, isRow, rowProject, rowWorktree⟩

theorem supersedeStatements_remembering (factId oldId : Nat)
    (holds : Remembering start input db.tables) :
    (supersedeStatements factId now oldId).Throughout
      (fun db => Remembering start input db.tables) db := by
  rw [supersedeStatements]
  split
  · exact holds
  · refine ⟨holds, fun after isAfter => ?_⟩
    cases isAfter
    have superseded : Remembering start input
        { db.tables with facts := db.tables.facts.modify oldId fun fact =>
          { fact with
            status := .superseded, supersededByFactId := some factId, updatedAt := now } } :=
      ⟨holds.continues.modifyFact oldId _ fun _ => ⟨rfl, rfl, fun erased => erased⟩, holds.evidence⟩
    refine ⟨superseded, fun unindexed isUnindexed => ?_⟩
    cases isUnindexed
    exact ⟨superseded.continues.same rfl rfl rfl rfl rfl, superseded.evidence⟩

theorem acceptStatements_remembering (isNew : start.evidence.get? start.nextEvidenceId = none)
    (candidate : MemoryFactCandidate) (supersededFactIds : List Nat)
    (holds : Remembering start input db.tables) :
    (acceptStatements context input start.nextEvidenceId db.tables.nextFactId now candidate
      supersededFactIds).Throughout (fun db => Remembering start input db.tables) db := by
  refine ⟨holds, fun inserted isInserted => ?_⟩
  obtain ⟨remembering, isFact⟩ := insertFact_remembering holds isInserted
  refine ⟨remembering, fun linked isLinked => ?_⟩
  cases isLinked
  have linked := linkEvidence_remembering (context.redactMemoryPreview input.text 500)
    isNew remembering isFact rfl rfl
  refine ⟨linked, fun indexed isIndexed => ?_⟩
  cases isIndexed
  refine throughout_each (fun oldId _ _ holds => supersedeStatements_remembering _ oldId holds) ?_
  exact ⟨linked.continues.same rfl rfl rfl rfl rfl, linked.evidence⟩

theorem rejectStatements_remembering (isNew : start.evidence.get? start.nextEvidenceId = none)
    (candidate : MemoryFactCandidate) (holds : Remembering start input db.tables) :
    (rejectStatements context input start.nextEvidenceId db.tables.nextFactId now
      candidate).Throughout (fun db => Remembering start input db.tables) db := by
  refine ⟨holds, fun inserted isInserted => ?_⟩
  obtain ⟨remembering, isFact⟩ := insertFact_remembering holds isInserted
  refine ⟨remembering, fun linked isLinked => ?_⟩
  cases isLinked
  exact linkEvidence_remembering _ isNew remembering isFact rfl rfl

theorem candidateStatements_remembering
    (isNew : start.evidence.get? start.nextEvidenceId = none)
    (candidates : List MemoryFactCandidate) (accepted : List Nat)
    (holds : Remembering start input db.tables) :
    (candidateStatements context input start.nextEvidenceId now candidates accepted).Throughout
      (fun db => Remembering start input db.tables) db := by
  induction candidates generalizing accepted db with
  | nil =>
    refine ⟨holds, fun after isAfter => ?_⟩
    cases isAfter
    exact holds
  | cons candidate rest ih =>
    rw [candidateStatements, Throughout]
    dsimp only
    split
    · exact (acceptStatements_remembering isNew candidate _ holds).andThen
        fun middle _ remembering => ih _ remembering
    · exact (rejectStatements_remembering isNew candidate holds).andThen
        fun middle _ remembering => ih _ remembering

theorem evidenceStatements_remembering {inserted : MemoryDatabase} (linked : db.tables.Linked)
    (isInserted : insertEvidence input db = some inserted) :
    (evidenceStatements context extractMemorySignals input db.tables.nextEvidenceId
      now).Throughout (fun later => Remembering db.tables input later.tables) inserted := by
  have remembering : Remembering db.tables input inserted.tables := by
    cases isInserted
    exact ⟨Continues.insertEvidence ⟨linked, Follows.refl db.tables⟩ _,
      _, OrderedMap.get?_set_self _ _ _, rfl, rfl⟩
  refine ⟨remembering, fun indexed isIndexed => ?_⟩
  cases isIndexed
  refine Throughout.andThen (throughout_each (fun signal _ state holds => ?_) ?_)
    fun middle _ holds => candidateStatements_remembering linked.freshEvidence _ _ holds
  · refine ⟨holds, fun after isAfter => ?_⟩
    cases isAfter
    exact holds
  · exact ⟨remembering.continues.same rfl rfl rfl rfl rfl, remembering.evidence⟩

theorem eraseFactStatements_continues (input : MemoryForgetInput) (erasedAt : MemoryText)
    (factId : Nat) (holds : Continues start db.tables) :
    (eraseFactStatements input erasedAt factId).Throughout
      (fun db => Continues start db.tables) db := by
  refine ⟨holds, fun erased isErased => ?_⟩
  cases isErased
  have erased := holds.modifyFact factId (fun fact =>
    if fact.projectId = input.projectId ∧ fact.worktreePath = input.worktreePath then
      { fact with status := .erased, erasedAt := some erasedAt, updatedAt := erasedAt }
    else fact) fun fact => by
      split
      · exact ⟨rfl, rfl, fun _ => rfl⟩
      · exact ⟨rfl, rfl, fun erased => erased⟩
  refine ⟨erased, fun unindexed isUnindexed => ?_⟩
  cases isUnindexed
  refine ⟨erased.same rfl rfl rfl rfl rfl, fun unembedded isUnembedded => ?_⟩
  cases isUnembedded
  exact erased.same rfl rfl rfl rfl rfl

theorem eraseEvidenceStatements_continues (input : MemoryForgetInput) (erasedAt : MemoryText)
    (evidenceId : Nat) (holds : Continues start db.tables) :
    (eraseEvidenceStatements input erasedAt evidenceId).Throughout
      (fun db => Continues start db.tables) db := by
  refine ⟨holds, fun erased isErased => ?_⟩
  cases isErased
  have erased := holds.modifyEvidence evidenceId (fun row =>
    if row.projectId = input.projectId ∧ row.worktreePath = input.worktreePath then
      { row with erasedAt := some erasedAt }
    else row) fun row => by
      split
      · exact ⟨rfl, rfl, fun _ => rfl⟩
      · exact ⟨rfl, rfl, fun erased => erased⟩
  refine ⟨erased, fun unindexed isUnindexed => ?_⟩
  cases isUnindexed
  exact erased.same rfl rfl rfl rfl rfl

theorem statementsOf_continues (linked : db.tables.Linked) (event : MemoryEvent) :
    (statementsOf context extractMemorySignals event).Throughout
      (fun later => Continues db.tables later.tables) db := by
  have initially : Continues db.tables db.tables := ⟨linked, Follows.refl db.tables⟩
  cases event with
  | rememberMemoryFacts input now =>
    refine ⟨initially, fun inserted isInserted => ?_⟩
    exact (evidenceStatements_remembering linked isInserted).weaken
      fun _ remembering => remembering.continues
  | upsertMemoryFactEmbedding input now =>
    refine ⟨initially, fun after isAfter => ?_⟩
    obtain ⟨tables, upserted, rfl⟩ := Option.map_eq_some_iff.mp isAfter
    rw [upsertMemoryFactEmbedding] at upserted
    split at upserted
    · cases upserted
      exact initially
    · split at upserted
      · cases upserted
        exact initially.same rfl rfl rfl rfl rfl
      · cases upserted
  | eraseMemory input erasedAt =>
    rw [statementsOf, eraseStatements]
    split
    · exact ⟨initially, fun after isAfter => by cases isAfter⟩
    · refine Throughout.andThen (throughout_each (fun factId _ _ holds =>
        eraseFactStatements_continues input erasedAt factId holds) initially) ?_
      exact fun middle _ holds => throughout_each (fun evidenceId _ _ holds =>
        eraseEvidenceStatements_continues input erasedAt evidenceId holds) holds

structure SameRows (before after : MemoryDatabase) : Prop where
  evidence : after.tables.evidence = before.tables.evidence
  evidenceFts : after.tables.evidenceFts = before.tables.evidenceFts
  signals : after.signals = before.signals
  facts : after.tables.facts = before.tables.facts
  factsFts : after.tables.factsFts = before.tables.factsFts
  factEvidence : after.tables.factEvidence = before.tables.factEvidence

end MemoryDatabase

open MemoryDatabase MemoryTables

variable {context : MemoryContext} {extractMemorySignals : MemoryText → List MemorySignalInput}
variable {db next : MemoryDatabase}

theorem databaseStep_continues {call : MemoryCall} (linked : db.tables.Linked)
    (stepped : databaseStep context extractMemorySignals db call = some next) :
    Continues db.tables next.tables := by
  have throughout : (statementsOf context extractMemorySignals call.event).Throughout
      (fun later => Continues db.tables later.tables) db :=
    statementsOf_continues linked call.event
  rw [databaseStep] at stepped
  split at stepped
  · exact throughout.run stepped
  · exact throughout.thrownAt stepped

theorem reaches_continues {allowed : MemoryDatabase → MemoryCall → Prop}
    (reached : Reaches (databaseStep context extractMemorySignals) allowed db next)
    (linked : db.tables.Linked) : Continues db.tables next.tables := by
  refine reached.invariant (fun later => Continues db.tables later.tables)
    ⟨linked, Follows.refl db.tables⟩ fun before call after holds _ stepped => ?_
  have continues := databaseStep_continues holds.linked stepped
  exact ⟨continues.linked, holds.follows.trans continues.follows⟩

theorem empty_linked : MemoryDatabase.empty.tables.Linked where
  facts := fun _ _ present => by cases present
  evidence := fun _ _ present => by cases present
  links := fun _ member => by cases member

/-- When a statement of a remembering call throws, the rows are as before if and only if it is the
first one. -/
theorem remember_leaves_rows (context : MemoryContext)
    (extractMemorySignals : MemoryText → List MemorySignalInput) {db left : MemoryDatabase}
    (reached : Reaches (databaseStep context extractMemorySignals) Unrestricted
      MemoryDatabase.empty db) (input : MemoryRememberInput) (now : MemoryText) {position : Nat}
    (thrown : (rememberStatements context extractMemorySignals input now).thrownAt position db =
      some left) : SameRows db left ↔ position = 0 := by
  have linked := (reaches_continues reached empty_linked).linked
  rw [rememberStatements, thrownAt] at thrown
  cases position with
  | zero =>
    cases thrown
    exact ⟨fun _ => rfl, fun _ => ⟨rfl, rfl, rfl, rfl, rfl, rfl⟩⟩
  | succ position =>
    obtain ⟨inserted, isInserted, rest⟩ := Option.bind_eq_some_iff.mp thrown
    refine ⟨fun same => ?_, fun isFirst => by cases isFirst⟩
    -- the evidence row stays through every later statement
    obtain ⟨row, isRow, _⟩ :=
      ((evidenceStatements_remembering linked isInserted).thrownAt rest).evidence
    rw [same.evidence, linked.freshEvidence] at isRow
    cases isRow

namespace Sample

def accepting : MemoryContext where
  validateMemoryFact := fun _ _ => true
  matchesQuery := fun _ _ => true
  redactMemoryPreview := fun text length => text.take length

def supersedingInput (supersedes : Option Nat) : MemoryRememberInput where
  projectId := 1
  worktreePath := "w".toList
  originThreadId := none
  sourceKind := "manual".toList
  text := "the port is 80".toList
  facts :=
    [{ statement := "port 80".toList, factType := "port".toList, memoryKind := none
       scopeEntity := none, isMutable := none, validFrom := none
       supersedesFactId := supersedes }]

end Sample

theorem remember_leaves_rows_first : SameRows MemoryDatabase.empty MemoryDatabase.empty ↔ 0 = 0 :=
  remember_leaves_rows Sample.accepting (fun _ => []) (Reaches.refl _)
    (Sample.supersedingInput none) "1".toList rfl

theorem not_remember_leaves_rows : ¬∀ (context : MemoryContext)
    (extractMemorySignals : MemoryText → List MemorySignalInput) (db left : MemoryDatabase),
    Reaches (databaseStep context extractMemorySignals) Unrestricted MemoryDatabase.empty db →
      ∀ (input : MemoryRememberInput) (now : MemoryText) (position : Nat),
        (rememberStatements context extractMemorySignals input now).thrownAt position db =
          some left → SameRows db left := by
  intro kept
  -- the statement of position 2 is the insert of the fact, which fails
  have ran : (((rememberStatements Sample.accepting (fun _ => [])
      (Sample.supersedingInput (some 99)) "1".toList).thrownAt 2 MemoryDatabase.empty).any
        fun left => left.tables.evidence.has 1) = true := by decide +kernel
  obtain ⟨left, thrown, hasRow⟩ := (Option.any_eq_true _ _).mp ran
  have same := kept Sample.accepting (fun _ => []) MemoryDatabase.empty left (Reaches.refl _)
    (Sample.supersedingInput (some 99)) "1".toList 2 thrown
  rw [same.evidence] at hasRow
  cases hasRow

end Metidos.Memory
