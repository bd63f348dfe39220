import Metidos.Library.StatementScript
import Metidos.Library.Transition
import Metidos.Memory.MemoryStore

/-!
The statements of `rememberMemoryFacts` and `eraseMemory` one by one, with the signal and write
event tables, and what is left of a call when one of them throws.
-/

namespace Metidos.Memory

structure MemorySignalInput where
  kind : MemoryText
  value : MemoryText
  normalizedValue : Option MemoryText
  startOffset : Option Nat
  endOffset : Option Nat
  deriving DecidableEq

structure MemorySignal where
  evidenceId : Nat
  signal : MemorySignalInput
  deriving DecidableEq

structure MemoryWriteEvent where
  projectId : Nat
  worktreePath : MemoryText
  threadId : Option Nat
  evidenceId : Nat
  acceptedFactIds : List Nat
  deriving DecidableEq

structure MemoryDatabase where
  tables : MemoryTables
  signals : List MemorySignal
  writeEvents : List MemoryWriteEvent
  deriving DecidableEq

namespace MemoryDatabase

def empty : MemoryDatabase where
  tables := .empty
  signals := []
  writeEvents := []

def onTables (update : MemoryTables → MemoryTables) (db : MemoryDatabase) :
    Option MemoryDatabase :=
  some { db with tables := update db.tables }

def insertEvidence (input : MemoryRememberInput) : MemoryDatabase → Option MemoryDatabase :=
  onTables fun tables =>
    { tables with
      evidence := tables.evidence.set tables.nextEvidenceId
        { projectId := input.projectId, worktreePath := input.worktreePath
          originThreadId := input.originThreadId, sourceKind := input.sourceKind
          text := input.text, erasedAt := none }
      nextEvidenceId := tables.nextEvidenceId + 1 }

def indexEvidence (evidenceId : Nat) (text : MemoryText) :
    MemoryDatabase → Option MemoryDatabase :=
  onTables fun tables => { tables with evidenceFts := tables.evidenceFts.set evidenceId text }

def insertSignal (evidenceId : Nat) (signal : MemorySignalInput) (db : MemoryDatabase) :
    Option MemoryDatabase :=
  some { db with signals := db.signals ++ [{ evidenceId, signal }] }

def insertFact (fact : MemoryFact) (db : MemoryDatabase) : Option MemoryDatabase :=
  if fact.supersedesFactId.all fun supersedes => db.tables.facts.has supersedes then
    some { db with tables := (db.tables.insertFact fact).1 }
  else none

def supersedeFact (factId : Nat) (now : MemoryText) (oldId : Nat) :
    MemoryDatabase → Option MemoryDatabase :=
  onTables fun tables =>
    { tables with
      facts := tables.facts.modify oldId fun fact =>
        { fact with
          status := .superseded, supersededByFactId := some factId, updatedAt := now } }

def insertWriteEvent (input : MemoryRememberInput) (evidenceId : Nat) (acceptedFactIds : List Nat)
    (db : MemoryDatabase) : Option MemoryDatabase :=
  some { db with
    writeEvents := db.writeEvents ++
      [{ projectId := input.projectId, worktreePath := input.worktreePath
         threadId := input.originThreadId, evidenceId, acceptedFactIds }] }

open StatementScript

def supersedeStatements (factId : Nat) (now : MemoryText) (oldId : Nat) :
    StatementScript MemoryDatabase :=
  if oldId = factId then done
  else
    issue (supersedeFact factId now oldId)
      (statement (onTables fun tables => tables.unindexFact oldId))

variable (context : MemoryContext) (extractMemorySignals : MemoryText → List MemorySignalInput)

def acceptStatements (input : MemoryRememberInput) (evidenceId factId : Nat) (now : MemoryText)
    (candidate : MemoryFactCandidate) (supersededFactIds : List Nat) :
    StatementScript MemoryDatabase :=
  let explicitSupersedes := candidate.supersedesFactId.or supersededFactIds.head?
  let fact := MemoryTables.candidateFact input candidate .active explicitSupersedes now
  issue (insertFact fact)
    (issue (onTables fun tables => tables.linkEvidence factId evidenceId
        (context.redactMemoryPreview input.text 500))
      (issue (onTables fun tables => tables.indexFact factId fact.indexRow)
        (each supersededFactIds (supersedeStatements factId now))))

def rejectStatements (input : MemoryRememberInput) (evidenceId factId : Nat) (now : MemoryText)
    (candidate : MemoryFactCandidate) : StatementScript MemoryDatabase :=
  issue (insertFact (MemoryTables.candidateFact input candidate .rejected none now))
    (statement (onTables fun tables => tables.linkEvidence factId evidenceId
      (context.redactMemoryPreview input.text 500)))

def candidateStatements (input : MemoryRememberInput) (evidenceId : Nat) (now : MemoryText) :
    List MemoryFactCandidate → List Nat → StatementScript MemoryDatabase
  | [], accepted => statement (insertWriteEvent input evidenceId accepted)
  | candidate :: rest, accepted =>
    read fun db =>
      let factId := db.tables.nextFactId
      if context.validateMemoryFact input candidate then
        (acceptStatements context input evidenceId factId now candidate
          (db.tables.supersededFactIds input candidate)).andThen
            (candidateStatements input evidenceId now rest (accepted ++ [factId]))
      else
        (rejectStatements context input evidenceId factId now candidate).andThen
          (candidateStatements input evidenceId now rest accepted)

def evidenceStatements (input : MemoryRememberInput) (evidenceId : Nat) (now : MemoryText) :
    StatementScript MemoryDatabase :=
  issue (indexEvidence evidenceId input.text)
    ((each (extractMemorySignals input.text) fun signal =>
      statement (insertSignal evidenceId signal)).andThen
        (candidateStatements context input evidenceId now input.facts []))

def rememberStatements (input : MemoryRememberInput) (now : MemoryText) :
    StatementScript MemoryDatabase :=
  read fun db => issue (insertEvidence input)
    (evidenceStatements context extractMemorySignals input db.tables.nextEvidenceId now)

def eraseFactStatements (input : MemoryForgetInput) (erasedAt : MemoryText) (factId : Nat) :
    StatementScript MemoryDatabase :=
  issue (onTables fun tables =>
      { tables with
        facts := tables.facts.modify factId fun fact =>
          if fact.projectId = input.projectId ∧ fact.worktreePath = input.worktreePath then
            { fact with status := .erased, erasedAt := some erasedAt, updatedAt := erasedAt }
          else fact })
    (issue (onTables fun tables => tables.unindexFact factId)
      (statement (onTables fun tables =>
        { tables with embeddings := tables.embeddings.delete factId })))

def eraseEvidenceStatements (input : MemoryForgetInput) (erasedAt : MemoryText)
    (evidenceId : Nat) : StatementScript MemoryDatabase :=
  issue (onTables fun tables =>
      { tables with
        evidence := tables.evidence.modify evidenceId fun evidence =>
          if evidence.projectId = input.projectId ∧
              evidence.worktreePath = input.worktreePath then
            { evidence with erasedAt := some erasedAt }
          else evidence })
    (statement (onTables fun tables =>
      { tables with evidenceFts := tables.evidenceFts.delete evidenceId }))

def eraseStatements (input : MemoryForgetInput) (erasedAt : MemoryText) :
    StatementScript MemoryDatabase :=
  if input.confirm ≠ "FORGET".toList then statement fun _ => none
  else
    read fun db =>
      (each (db.tables.forgottenFactIds context input).elements
        (eraseFactStatements input erasedAt)).andThen
          (each (OrderedSet.ofList input.evidenceIds).elements
            (eraseEvidenceStatements input erasedAt))

variable {context extractMemorySignals} {input : MemoryRememberInput} {now : MemoryText}
variable {db : MemoryDatabase}

theorem run_supersedeStatements (factId oldId : Nat) (tables : MemoryTables) :
    (supersedeStatements factId now oldId).run { db with tables } =
      some { db with tables := MemoryTables.supersede factId now tables oldId } := by
  rw [supersedeStatements, MemoryTables.supersede]
  split
  · rfl
  · rfl

theorem run_acceptStatements (evidenceId : Nat) (candidate : MemoryFactCandidate)
    (accepts : context.validateMemoryFact input candidate = true) :
    (acceptStatements context input evidenceId db.tables.nextFactId now candidate
      (db.tables.supersededFactIds input candidate)).run db =
        (MemoryTables.rememberFact context input evidenceId now db.tables candidate).map
          fun tables => { db with tables } := by
  rw [acceptStatements, MemoryTables.rememberFact, if_pos accepts]
  simp only [run, insertFact]
  rw [show (MemoryTables.candidateFact input candidate .active
    (candidate.supersedesFactId.or (db.tables.supersededFactIds input candidate).head?)
      now).supersedesFactId = candidate.supersedesFactId.or
        (db.tables.supersededFactIds input candidate).head? from rfl]
  split
  · rw [Option.bind_some, onTables, Option.bind_some, onTables, Option.bind_some, Option.map_some]
    exact run_each (fun oldId _ tables => run_supersedeStatements _ oldId tables) _
  · rfl

theorem run_rejectStatements (evidenceId : Nat) (candidate : MemoryFactCandidate)
    (rejects : ¬context.validateMemoryFact input candidate = true) :
    (rejectStatements context input evidenceId db.tables.nextFactId now candidate).run db =
      (MemoryTables.rememberFact context input evidenceId now db.tables candidate).map
        fun tables => { db with tables } := by
  rw [MemoryTables.rememberFact, if_neg rejects]
  rfl

theorem run_candidateStatements (evidenceId : Nat) (candidates : List MemoryFactCandidate)
    (accepted : List Nat) :
    ((candidateStatements context input evidenceId now candidates accepted).run db).map tables =
      candidates.foldlM (MemoryTables.rememberFact context input evidenceId now) db.tables := by
  induction candidates generalizing accepted db with
  | nil => rfl
  | cons candidate rest ih =>
    rw [candidateStatements, run, List.foldlM_cons]
    dsimp only
    split
    · rename_i accepts
      rw [run_andThen, run_acceptStatements evidenceId candidate accepts, Option.bind_map]
      cases MemoryTables.rememberFact context input evidenceId now db.tables candidate with
      | none => rfl
      | some next => exact @ih { db with tables := next } _
    · rename_i rejects
      rw [run_andThen, run_rejectStatements evidenceId candidate rejects, Option.bind_map]
      cases MemoryTables.rememberFact context input evidenceId now db.tables candidate with
      | none => rfl
      | some next => exact @ih { db with tables := next } _

theorem run_signalStatements (db : MemoryDatabase) (evidenceId : Nat) (signals : List MemorySignalInput) :
    ∃ rows, (each signals fun signal => statement (insertSignal evidenceId signal)).run db =
      some { db with signals := rows } := by
  have total : ∀ signal ∈ signals, ∀ rows,
      (statement (insertSignal evidenceId signal)).run { db with signals := rows } =
        some { db with signals := rows ++ [{ evidenceId, signal }] } := fun _ _ _ => rfl
  exact ⟨_, run_each total db.signals⟩

theorem run_rememberStatements :
    ((rememberStatements context extractMemorySignals input now).run db).map tables =
      db.tables.rememberMemoryFacts context input now := by
  rw [rememberStatements, run, run, insertEvidence, onTables, Option.bind_some,
    evidenceStatements, run, indexEvidence, onTables, Option.bind_some, run_andThen]
  obtain ⟨rows, ran⟩ := run_signalStatements
    { db with tables := (db.tables.createMemoryEvidence input).1 } db.tables.nextEvidenceId
      (extractMemorySignals input.text)
  have signals := congrArg (fun result => Option.map tables (Option.bind result
    (candidateStatements context input db.tables.nextEvidenceId now input.facts []).run)) ran
  refine signals.trans ?_
  rw [Option.bind_some]
  exact run_candidateStatements _ _ _

theorem run_eraseStatements (input : MemoryForgetInput) (erasedAt : MemoryText) :
    ((eraseStatements context input erasedAt).run db).map tables =
      db.tables.eraseMemory context input erasedAt := by
  rw [eraseStatements, MemoryTables.eraseMemory]
  split
  · rfl
  · have facts : ∀ factId ∈ (db.tables.forgottenFactIds context input).elements, ∀ tables,
        (eraseFactStatements input erasedAt factId).run { db with tables } =
          some { db with tables := tables.eraseFact input erasedAt factId } := fun _ _ _ => rfl
    have evidence : ∀ evidenceId ∈ (OrderedSet.ofList input.evidenceIds).elements, ∀ tables,
        (eraseEvidenceStatements input erasedAt evidenceId).run { db with tables } =
          some { db with tables := tables.eraseEvidence input erasedAt evidenceId } :=
      fun _ _ _ => rfl
    rw [run, run_andThen, run_each facts db.tables, Option.bind_some, run_each evidence]
    rfl

variable (context extractMemorySignals)

def statementsOf : MemoryEvent → StatementScript MemoryDatabase
  | .rememberMemoryFacts input now => rememberStatements context extractMemorySignals input now
  | .upsertMemoryFactEmbedding input now =>
    statement fun db => (db.tables.upsertMemoryFactEmbedding input now).map fun tables =>
      { db with tables }
  | .eraseMemory input erasedAt => eraseStatements context input erasedAt

end MemoryDatabase

structure MemoryCall where
  event : MemoryEvent
  throwsAt : Option Nat
  deriving DecidableEq

def databaseStep (context : MemoryContext)
    (extractMemorySignals : MemoryText → List MemorySignalInput) (db : MemoryDatabase)
    (call : MemoryCall) : Option MemoryDatabase :=
  let statements := MemoryDatabase.statementsOf context extractMemorySignals call.event
  match call.throwsAt with
  | none => statements.run db
  | some position => statements.thrownAt position db

theorem databaseStep_completes (context : MemoryContext)
    (extractMemorySignals : MemoryText → List MemorySignalInput) (db : MemoryDatabase)
    (event : MemoryEvent) :
    (databaseStep context extractMemorySignals db { event, throwsAt := none }).map
      MemoryDatabase.tables = memoryStep context db.tables event := by
  cases event with
  | rememberMemoryFacts input now => exact MemoryDatabase.run_rememberStatements
  | upsertMemoryFactEmbedding input now =>
    rw [memoryStep, databaseStep, MemoryDatabase.statementsOf, StatementScript.statement]
    dsimp only
    rw [StatementScript.run]
    cases db.tables.upsertMemoryFactEmbedding input now with
    | none => rfl
    | some tables => rfl
  | eraseMemory input erasedAt => exact MemoryDatabase.run_eraseStatements input erasedAt

end Metidos.Memory
