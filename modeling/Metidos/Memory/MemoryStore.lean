import Mathlib.Data.Char
import Mathlib.Data.List.Lex
import Metidos.Library.OrderedMap
import Metidos.Library.JsText

/-!
The memory store of `src/bun/pi/memory/store.ts`: facts, evidence, their links, the two full-text
indexes and the embeddings, with the statements of `rememberMemoryFacts`,
`upsertMemoryFactEmbedding` and `eraseMemory`.
-/

namespace Metidos.Memory

abbrev MemoryText := List Char

inductive MemoryKind
  | canonical
  | observation
  | technical
  deriving DecidableEq

inductive MemoryFactStatus
  | active
  | superseded
  | rejected
  | erased
  deriving DecidableEq

structure MemoryFact where
  projectId : Nat
  worktreePath : MemoryText
  originThreadId : Option Nat
  statement : MemoryText
  factType : MemoryText
  memoryKind : MemoryKind
  scopeEntity : Option MemoryText
  status : MemoryFactStatus
  isMutable : Bool
  validFrom : Option MemoryText
  supersedesFactId : Option Nat
  supersededByFactId : Option Nat
  updatedAt : MemoryText
  erasedAt : Option MemoryText
  deriving DecidableEq

structure FactIndexRow where
  statement : MemoryText
  scopeEntity : MemoryText
  factType : MemoryText
  deriving DecidableEq

def MemoryFact.indexRow (fact : MemoryFact) : FactIndexRow where
  statement := fact.statement
  scopeEntity := fact.scopeEntity.getD []
  factType := fact.factType

structure MemoryEvidence where
  projectId : Nat
  worktreePath : MemoryText
  originThreadId : Option Nat
  sourceKind : MemoryText
  text : MemoryText
  erasedAt : Option MemoryText
  deriving DecidableEq

structure MemoryEmbedding where
  projectId : Nat
  worktreePath : MemoryText
  embedding : List Int
  modelKey : Option MemoryText
  updatedAt : MemoryText
  deriving DecidableEq

structure MemoryFactEvidence where
  factId : Nat
  evidenceId : Nat
  excerpt : MemoryText
  deriving DecidableEq

structure MemoryTables where
  facts : OrderedMap Nat MemoryFact
  nextFactId : Nat
  factsFts : OrderedMap Nat FactIndexRow
  evidence : OrderedMap Nat MemoryEvidence
  nextEvidenceId : Nat
  evidenceFts : OrderedMap Nat MemoryText
  factEvidence : List MemoryFactEvidence
  embeddings : OrderedMap Nat MemoryEmbedding
  deriving DecidableEq

def MemoryTables.empty : MemoryTables where
  facts := .empty
  nextFactId := 1
  factsFts := .empty
  evidence := .empty
  nextEvidenceId := 1
  evidenceFts := .empty
  factEvidence := []
  embeddings := .empty

structure MemoryFactCandidate where
  statement : MemoryText
  factType : MemoryText
  memoryKind : Option MemoryKind
  scopeEntity : Option MemoryText
  isMutable : Option Bool
  validFrom : Option MemoryText
  supersedesFactId : Option Nat
  deriving DecidableEq

structure MemoryRememberInput where
  projectId : Nat
  worktreePath : MemoryText
  originThreadId : Option Nat
  sourceKind : MemoryText
  text : MemoryText
  facts : List MemoryFactCandidate
  deriving DecidableEq

structure MemoryForgetInput where
  projectId : Nat
  worktreePath : MemoryText
  factIds : List Nat
  evidenceIds : List Nat
  query : Option MemoryText
  confirm : MemoryText
  deriving DecidableEq

structure MemoryEmbeddingInput where
  factId : Nat
  projectId : Nat
  worktreePath : MemoryText
  embedding : List Int
  modelKey : Option MemoryText
  deriving DecidableEq

/-- The validation of a candidate against its evidence, the match of a full-text query, and the
preview of a text up to a length. -/
structure MemoryContext where
  validateMemoryFact : MemoryRememberInput → MemoryFactCandidate → Bool
  matchesQuery : MemoryText → FactIndexRow → Bool
  redactMemoryPreview : MemoryText → Nat → MemoryText

namespace MemoryTables

variable (context : MemoryContext) (tables : MemoryTables)

def createMemoryEvidence (input : MemoryRememberInput) : MemoryTables × Nat :=
  ({ tables with
      evidence := tables.evidence.set tables.nextEvidenceId
        { projectId := input.projectId, worktreePath := input.worktreePath
          originThreadId := input.originThreadId, sourceKind := input.sourceKind
          text := input.text, erasedAt := none }
      nextEvidenceId := tables.nextEvidenceId + 1
      evidenceFts := tables.evidenceFts.set tables.nextEvidenceId input.text },
    tables.nextEvidenceId)

def insertFact (fact : MemoryFact) : MemoryTables × Nat :=
  ({ tables with
      facts := tables.facts.set tables.nextFactId fact
      nextFactId := tables.nextFactId + 1 },
    tables.nextFactId)

def linkEvidence (factId evidenceId : Nat) (excerpt : MemoryText) : MemoryTables :=
  { tables with factEvidence := tables.factEvidence ++ [{ factId, evidenceId, excerpt }] }

def indexFact (factId : Nat) (row : FactIndexRow) : MemoryTables :=
  { tables with factsFts := tables.factsFts.set factId row }

def unindexFact (factId : Nat) : MemoryTables :=
  { tables with factsFts := tables.factsFts.delete factId }

def candidateFact (input : MemoryRememberInput) (candidate : MemoryFactCandidate)
    (status : MemoryFactStatus) (supersedesFactId : Option Nat) (now : MemoryText) :
    MemoryFact where
  projectId := input.projectId
  worktreePath := input.worktreePath
  originThreadId := input.originThreadId
  statement := candidate.statement
  factType := candidate.factType
  memoryKind := candidate.memoryKind.getD .canonical
  scopeEntity := candidate.scopeEntity
  status := status
  isMutable := candidate.isMutable ≠ some false
  validFrom := candidate.validFrom
  supersedesFactId := supersedesFactId
  supersededByFactId := none
  updatedAt := now
  erasedAt := none

def shouldSupersede (candidate : MemoryFactCandidate) : Bool :=
  candidate.isMutable.getD true && candidate.memoryKind.getD .canonical = .canonical &&
    candidate.scopeEntity.getD [] ≠ []

def isSuperseded (input : MemoryRememberInput) (candidate : MemoryFactCandidate)
    (fact : MemoryFact) : Bool :=
  fact.projectId = input.projectId && fact.worktreePath = input.worktreePath &&
    fact.factType = candidate.factType &&
    fact.scopeEntity = some (candidate.scopeEntity.getD []) && fact.status = .active &&
    fact.isMutable && fact.memoryKind = .canonical && fact.erasedAt = none

def supersededFactIds (input : MemoryRememberInput) (candidate : MemoryFactCandidate) : List Nat :=
  if shouldSupersede candidate then
    ((tables.facts.entries.filter fun entry =>
      isSuperseded input candidate entry.2).mergeSort fun one other =>
        decide (other.2.updatedAt ≤ one.2.updatedAt)).map Prod.fst
  else []

def supersede (factId : Nat) (now : MemoryText) (tables : MemoryTables) (oldId : Nat) :
    MemoryTables :=
  if oldId = factId then tables
  else
    { tables with
      facts := tables.facts.modify oldId fun fact =>
        { fact with
          status := .superseded, supersededByFactId := some factId, updatedAt := now }
      factsFts := tables.factsFts.delete oldId }

def rememberFact (input : MemoryRememberInput) (evidenceId : Nat) (now : MemoryText)
    (tables : MemoryTables) (candidate : MemoryFactCandidate) : Option MemoryTables :=
  let excerpt := context.redactMemoryPreview input.text 500
  if context.validateMemoryFact input candidate then
    let supersededFactIds := tables.supersededFactIds input candidate
    let explicitSupersedes := candidate.supersedesFactId.or supersededFactIds.head?
    if explicitSupersedes.all fun supersedes => tables.facts.has supersedes then
      let fact := candidateFact input candidate .active explicitSupersedes now
      let (inserted, factId) := tables.insertFact fact
      let linked := inserted.linkEvidence factId evidenceId excerpt
      let indexed := linked.indexFact factId fact.indexRow
      some (supersededFactIds.foldl (supersede factId now) indexed)
    else none
  else
    let (inserted, factId) := tables.insertFact (candidateFact input candidate .rejected none now)
    some (inserted.linkEvidence factId evidenceId excerpt)

def rememberMemoryFacts (input : MemoryRememberInput) (now : MemoryText) : Option MemoryTables :=
  let (tables, evidenceId) := tables.createMemoryEvidence input
  input.facts.foldlM (rememberFact context input evidenceId now) tables

def upsertMemoryFactEmbedding (input : MemoryEmbeddingInput) (now : MemoryText) :
    Option MemoryTables :=
  if input.embedding = [] then some tables
  else if tables.facts.has input.factId then
    some { tables with
      embeddings := tables.embeddings.upsert input.factId
        { projectId := input.projectId, worktreePath := input.worktreePath
          embedding := input.embedding, modelKey := input.modelKey, updatedAt := now }
        fun old => { old with
          embedding := input.embedding, modelKey := input.modelKey, updatedAt := now } }
  else none

def searchMemoryFactsForObservability (projectId : Nat) (worktreePath query : MemoryText)
    (limit : Nat) : List (Nat × MemoryFact) :=
  ((tables.facts.entries.filter fun entry =>
    (projectId = 0 || entry.2.projectId = projectId) &&
    (worktreePath = [] || entry.2.worktreePath = worktreePath) &&
    (JsText.trim query = [] ||
      (tables.factsFts.get? entry.1).any (context.matchesQuery query))).mergeSort fun one other =>
        decide (other.2.updatedAt ≤ one.2.updatedAt)).take limit

def searchMemoryFacts (input : MemoryForgetInput) (query : MemoryText) : List Nat :=
  (tables.searchMemoryFactsForObservability context input.projectId input.worktreePath query
    50).map Prod.fst

def linkedFactIds (input : MemoryForgetInput) (evidenceId : Nat) : List Nat :=
  (tables.factEvidence.filter fun link =>
    link.evidenceId = evidenceId && (tables.facts.get? link.factId).any fun fact =>
      fact.projectId = input.projectId && fact.worktreePath = input.worktreePath).map
        MemoryFactEvidence.factId

def queriedFactIds (input : MemoryForgetInput) : List Nat :=
  match input.query.filter fun query => JsText.trim query ≠ [] with
  | some query => tables.searchMemoryFacts context input query
  | none => []

def forgottenFactIds (input : MemoryForgetInput) : OrderedSet Nat :=
  (((OrderedSet.ofList input.factIds).addAll (tables.queriedFactIds context input)).addAll
    ((OrderedSet.ofList input.evidenceIds).elements.flatMap (tables.linkedFactIds input)))

def eraseFact (input : MemoryForgetInput) (erasedAt : MemoryText) (tables : MemoryTables)
    (factId : Nat) : MemoryTables :=
  { tables with
    facts := tables.facts.modify factId fun fact =>
      if fact.projectId = input.projectId ∧ fact.worktreePath = input.worktreePath then
        { fact with status := .erased, erasedAt := some erasedAt, updatedAt := erasedAt }
      else fact
    factsFts := tables.factsFts.delete factId
    embeddings := tables.embeddings.delete factId }

def eraseEvidence (input : MemoryForgetInput) (erasedAt : MemoryText) (tables : MemoryTables)
    (evidenceId : Nat) : MemoryTables :=
  { tables with
    evidence := tables.evidence.modify evidenceId fun evidence =>
      if evidence.projectId = input.projectId ∧ evidence.worktreePath = input.worktreePath then
        { evidence with erasedAt := some erasedAt }
      else evidence
    evidenceFts := tables.evidenceFts.delete evidenceId }

def eraseMemory (input : MemoryForgetInput) (erasedAt : MemoryText) : Option MemoryTables :=
  if input.confirm ≠ "FORGET".toList then none
  else
    let factIds := tables.forgottenFactIds context input
    let erased := factIds.elements.foldl (eraseFact input erasedAt) tables
    some ((OrderedSet.ofList input.evidenceIds).elements.foldl (eraseEvidence input erasedAt)
      erased)

end MemoryTables

inductive MemoryEvent
  | rememberMemoryFacts (input : MemoryRememberInput) (now : MemoryText)
  | upsertMemoryFactEmbedding (input : MemoryEmbeddingInput) (now : MemoryText)
  | eraseMemory (input : MemoryForgetInput) (erasedAt : MemoryText)
  deriving DecidableEq

def memoryStep (context : MemoryContext) (tables : MemoryTables) :
    MemoryEvent → Option MemoryTables
  | .rememberMemoryFacts input now => tables.rememberMemoryFacts context input now
  | .upsertMemoryFactEmbedding input now => tables.upsertMemoryFactEmbedding input now
  | .eraseMemory input erasedAt => tables.eraseMemory context input erasedAt

end Metidos.Memory
