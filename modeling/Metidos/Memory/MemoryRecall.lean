import Mathlib.Order.Basic
import Mathlib.Order.Compare
import Metidos.Library.JsNumerals
import Metidos.Memory.RememberStatements

/-!
The recall of `src/bun/pi/memory/retrieval.ts`: the planned routes, the query of each, their fusion
and the evidence of the facts; and the `memory_inspect` tool.
-/

namespace Metidos.Memory

inductive RouteName
  | ftsFact
  | entity
  | temporal
  | evidence
  | vector
  deriving DecidableEq

inductive RecallScope
  | project
  | worktree
  | thread
  deriving DecidableEq

structure MemoryRecallInput where
  projectId : Nat
  worktreePath : MemoryText
  threadId : Option Nat
  query : MemoryText
  scope : Option RecallScope
  limit : Option Int
  tokenBudget : Option Nat
  includeSuperseded : Bool
  includeEvidence : Bool
  embeddingAvailable : Bool
  queryEmbedding : List Int
  deriving DecidableEq

/-- The full-text match of the two indexes, `LIKE`, the entities of a query, the order of
`localeCompare` and the arithmetic of the scores. -/
structure RecallContext (Score : Type) where
  matchesFact : MemoryText → FactIndexRow → Bool
  matchesEvidence : MemoryText → MemoryText → Bool
  like : MemoryText → MemoryText → Bool
  queryEntities : MemoryText → List MemoryText
  localeCompare : MemoryText → MemoryText → Ordering
  consistent : Std.TransCmp localeCompare
  zero : Score
  addRoute : Score → RouteName → Nat → Score

def isTermChar (char : Char) : Bool :=
  char.isAlphanum || char = '_' || char = '.' || char = '@' || char = '/' || char = '-'

def termRuns : List Char → List (List Char)
  | [] => [[]]
  | char :: rest =>
    if isTermChar char then (termRuns rest).modifyHead (char :: ·) else [] :: termRuns rest

def joinTerms : List MemoryText → MemoryText
  | [] => []
  | [term] => quoted term
  | term :: rest => quoted term ++ " OR ".toList ++ joinTerms rest
where
  quoted (term : MemoryText) : MemoryText := Char.ofNat 34 :: term ++ [Char.ofNat 34]

def safeFtsQuery (query : MemoryText) : MemoryText :=
  joinTerms (((termRuns query).filter fun run => 2 ≤ run.length).take 12)

def includesText (text : MemoryText) (word : String) : Bool :=
  text.tails.any fun tail => word.toList.isPrefixOf tail

def isWordChar (char : Char) : Bool := char.isAlphanum || char = '_'

def matchesHere : List (Char → Bool) → List Char → Bool
  | [], rest => !(rest.head?.any isWordChar)
  | _ :: _, [] => false
  | one :: pattern, char :: rest => one char && matchesHere pattern rest

def includesWord (pattern : List (Char → Bool)) : Option Char → List Char → Bool
  | before, [] => !(before.any isWordChar) && matchesHere pattern []
  | before, char :: rest =>
    !(before.any isWordChar) && matchesHere pattern (char :: rest) ||
      includesWord pattern (some char) rest

def word (text : String) : List (Char → Bool) := text.toList.map fun char other => other = char

def datePattern : List (Char → Bool) :=
  let digits (count : Nat) : List (Char → Bool) := List.replicate count Char.isDigit
  digits 4 ++ word "-" ++ digits 2 ++ word "-" ++ digits 2

def asksTime (query : MemoryText) : Bool :=
  (["when", "latest", "current", "previous", "yesterday", "today", "last"].any fun text =>
    includesWord (word text) none query) || includesWord datePattern none query

def asksEvidence (query : MemoryText) : Bool :=
  (["why", "how"].any fun text => includesWord (word text) none query) ||
    ["what led to", "support", "evidence"].any (includesText query)

def planRoutes (input : MemoryRecallInput) : List RouteName :=
  let query := JsText.toLowerCase input.query
  [.ftsFact] ++ (if asksTime query then [.temporal] else []) ++
    (if asksEvidence query then [.evidence] else []) ++ [.entity] ++
    if input.embeddingAvailable && !input.queryEmbedding.isEmpty then [.vector] else []

def includeSuperseded (input : MemoryRecallInput) : Bool :=
  input.includeSuperseded ||
    ["changed", "updated", "previously", "used to", "superseded", "previous"].any
      (includesText (JsText.toLowerCase input.query))

def recallLimit (input : MemoryRecallInput) : Nat :=
  let asked : Int := input.limit.getD
    (if ["summarize", "recap", "list", "all"].any
      (includesText (JsText.toLowerCase input.query)) then 25 else 10)
  (max 1 (min 50 asked)).toNat

def includeEvidence (input : MemoryRecallInput) : Bool :=
  input.includeEvidence ||
    ["summarize", "recap", "list", "all", "why", "how", "evidence"].any
      (includesText (JsText.toLowerCase input.query))

def inThread (input : MemoryRecallInput) (fact : MemoryFact) : Bool :=
  if input.scope = some .thread then
    (input.threadId.filter (· ≠ 0)).all fun threadId => fact.originThreadId = some threadId
  else true

def baseWhere (input : MemoryRecallInput) (fact : MemoryFact) : Bool :=
  fact.projectId = input.projectId && fact.erasedAt = none &&
    (input.scope = some .project || fact.worktreePath = input.worktreePath) &&
    inThread input fact &&
    (fact.status = .active || includeSuperseded input && fact.status = .superseded)

variable {Score : Type} (context : RecallContext Score) (tables : MemoryTables)

def routeEntities (input : MemoryRecallInput) : List MemoryText :=
  ((context.queryEntities input.query).filter fun entity =>
    2 < (JsText.utf16 entity).length).take 8

def evidenceFacts (query : MemoryText) : List (Nat × MemoryFact) :=
  (OrderedSet.ofList (tables.evidenceFts.entries.flatMap fun entry =>
    if context.matchesEvidence query entry.2 then
      (tables.factEvidence.filter fun link => link.evidenceId = entry.1).filterMap fun link =>
        (tables.facts.get? link.factId).map fun fact => (link.factId, fact)
    else [])).elements

def queryRoute (input : MemoryRecallInput) (route : RouteName) (limit : Nat) :
    List (Nat × MemoryFact) :=
  let fts := safeFtsQuery input.query
  let inScope (row : Nat × MemoryFact) : Bool := baseWhere input row.2
  match route with
  | .ftsFact =>
    if fts = [] then []
    else
      ((tables.facts.entries.filter fun row =>
        (tables.factsFts.get? row.1).any (context.matchesFact fts)).filter inScope).take limit
  | .entity =>
    let entities := routeEntities context input
    if entities = [] then []
    else
      (((tables.facts.entries.filter inScope).filter fun row => entities.any fun entity =>
        context.like entity row.2.statement ||
          row.2.scopeEntity.any (context.like entity)).mergeSort fun one other =>
            decide (other.2.updatedAt ≤ one.2.updatedAt)).take limit
  | .temporal =>
    ((tables.facts.entries.filter inScope).mergeSort fun one other =>
      decide (other.2.validFrom.getD other.2.updatedAt ≤
        one.2.validFrom.getD one.2.updatedAt)).take limit
  | .evidence =>
    if fts = [] then []
    else ((evidenceFacts context tables fts).filter inScope).take limit
  | .vector => []

structure RouteResult where
  factId : Nat
  rank : Nat
  route : RouteName
  row : MemoryFact

def rankRows (route : RouteName) (rows : List (Nat × MemoryFact)) : List RouteResult :=
  rows.zipIdx.map fun (row : (Nat × MemoryFact) × Nat) =>
    { factId := row.1.1, rank := row.2 + 1, route, row := row.1.2 }

structure RecallEvidence where
  id : Nat
  excerpt : MemoryText
  sourceKind : MemoryText
  originThreadId : Option Nat
  deriving DecidableEq

structure MemoryRecallFact (Score : Type) where
  id : Nat
  statement : MemoryText
  factType : MemoryText
  memoryKind : MemoryKind
  scopeEntity : Option MemoryText
  status : MemoryFactStatus
  updatedAt : MemoryText
  score : Score
  evidence : Option (List RecallEvidence)

def mapRecallFact (id : Nat) (row : MemoryFact) (score : Score) : MemoryRecallFact Score where
  id := id
  statement := row.statement
  factType := row.factType
  memoryKind := row.memoryKind
  scopeEntity := row.scopeEntity
  status := row.status
  updatedAt := row.updatedAt
  score := score
  evidence := none

structure FusedRow (Score : Type) where
  row : MemoryFact
  score : Score

def fuseInto (byId : OrderedMap Nat (FusedRow Score)) (result : RouteResult) :
    OrderedMap Nat (FusedRow Score) :=
  let current := (byId.get? result.factId).getD { row := result.row, score := context.zero }
  byId.set result.factId
    { current with score := context.addRoute current.score result.route result.rank }

def recallOrder [LinearOrder Score] :
    MemoryRecallFact Score → MemoryRecallFact Score → Ordering :=
  compareLex (compareOn MemoryRecallFact.score)
    (compareLex (fun one other => context.localeCompare one.updatedAt other.updatedAt)
      (compareOn MemoryRecallFact.id))

def recallsBefore [LinearOrder Score] (one other : MemoryRecallFact Score) : Bool :=
  (recallOrder context other one).isLE

def fuse [LinearOrder Score] (routes : List RouteResult) : List (MemoryRecallFact Score) :=
  ((routes.foldl (fuseInto context) .empty).entries.map fun (entry : Nat × FusedRow Score) =>
    mapRecallFact entry.1 entry.2.row entry.2.score).mergeSort (recallsBefore context)

def factEvidence (factId : Nat) : List RecallEvidence :=
  ((tables.factEvidence.filter fun link => link.factId = factId).filterMap fun link =>
    (tables.evidence.get? link.evidenceId).bind fun row =>
      if row.erasedAt = none then
        some { id := link.evidenceId, excerpt := link.excerpt, sourceKind := row.sourceKind
               originThreadId := row.originThreadId }
      else none).take 3

def attachEvidence (facts : List (MemoryRecallFact Score)) : List (MemoryRecallFact Score) :=
  facts.map fun fact => { fact with evidence := some (factEvidence tables fact.id) }

def statusText : MemoryFactStatus → MemoryText
  | .active => "active".toList
  | .superseded => "superseded".toList
  | .rejected => "rejected".toList
  | .erased => "erased".toList

def contextLine (includeEvidence : Bool) (fact : MemoryRecallFact Score) : MemoryText :=
  "M".toList ++ JsText.stringOfNumber fact.id ++ " [".toList ++ fact.factType ++ ", ".toList ++
    statusText fact.status ++ ", ".toList ++ fact.updatedAt.take 10 ++ "] ".toList ++
      fact.statement ++
        match (if includeEvidence then fact.evidence.bind List.head? else none) with
        | some evidence =>
          " Evidence E".toList ++ JsText.stringOfNumber evidence.id ++ ": ".toList ++
            evidence.excerpt
        | none => []

def packLines (maxChars : Nat) : Nat → List MemoryText → List MemoryText
  | _, [] => []
  | chars, line :: rest =>
    if maxChars < chars + (JsText.utf16 line).length then []
    else line :: packLines maxChars (chars + (JsText.utf16 line).length) rest

def packContext (facts : List (MemoryRecallFact Score)) (tokenBudget : Nat)
    (includeEvidence : Bool) : MemoryText :=
  List.intercalate ['\n']
    (packLines (max 500 (tokenBudget * 4)) 0 (facts.map (contextLine includeEvidence)))

structure MemoryRecallResult (Score : Type) where
  context : MemoryText
  facts : List (MemoryRecallFact Score)

def recallMemory [LinearOrder Score] (input : MemoryRecallInput) : MemoryRecallResult Score :=
  let limit := recallLimit input
  let routeResults := (planRoutes input).flatMap fun route =>
    rankRows route (queryRoute context tables input route (limit * 2))
  let fused := (fuse context routeResults).take limit
  let facts := if includeEvidence input then attachEvidence tables fused else fused
  { context := packContext facts (input.tokenBudget.getD 1200) (includeEvidence input), facts }

structure MemoryFactPreview where
  id : Nat
  projectId : Nat
  worktreePath : MemoryText
  originThreadId : Option Nat
  statement : MemoryText
  factType : MemoryText
  memoryKind : MemoryKind
  scopeEntity : Option MemoryText
  status : MemoryFactStatus
  updatedAt : MemoryText
  validFrom : Option MemoryText
  erasedAt : Option MemoryText
  supersedesFactId : Option Nat
  supersededByFactId : Option Nat
  deriving DecidableEq

structure MemoryEvidencePreview where
  id : Nat
  textPreview : MemoryText
  excerpt : MemoryText
  sourceKind : MemoryText
  originThreadId : Option Nat
  erasedAt : Option MemoryText
  deriving DecidableEq

structure MemoryEvidenceDetail where
  id : Nat
  text : MemoryText
  sourceKind : MemoryText
  originThreadId : Option Nat
  erasedAt : Option MemoryText
  deriving DecidableEq

inductive InspectDetail
  | fact (fact : MemoryFactPreview) (evidence : List MemoryEvidencePreview)
  | evidence (evidence : MemoryEvidenceDetail) (signals : List MemorySignal)
      (facts : List MemoryFactPreview)
  | facts (facts : List MemoryFactPreview)
  deriving DecidableEq

/-- The options of the tools of a thread; project ids count from one. -/
structure PiMemoryToolOptions where
  projectId : Nat
  worktreePath : MemoryText
  positive : 0 < projectId

structure MemoryInspectParams where
  factId : Option Nat
  evidenceId : Option Nat
  query : Option MemoryText
  deriving DecidableEq

section Inspection

variable (memory : MemoryContext) (db : MemoryDatabase)

def mapFactPreview (id : Nat) (row : MemoryFact) : MemoryFactPreview where
  id := id
  projectId := row.projectId
  worktreePath := row.worktreePath
  originThreadId := row.originThreadId
  statement := memory.redactMemoryPreview row.statement 360
  factType := row.factType
  memoryKind := row.memoryKind
  scopeEntity := row.scopeEntity
  status := row.status
  updatedAt := row.updatedAt
  validFrom := row.validFrom
  erasedAt := row.erasedAt
  supersedesFactId := row.supersedesFactId
  supersededByFactId := row.supersededByFactId

def getMemoryFactDetail (factId : Nat) : Option InspectDetail :=
  (db.tables.facts.get? factId).map fun fact =>
    .fact (mapFactPreview memory factId fact)
      ((db.tables.factEvidence.filter fun link => link.factId = factId).filterMap fun link =>
        (db.tables.evidence.get? link.evidenceId).map fun row =>
          { id := link.evidenceId, textPreview := memory.redactMemoryPreview row.text 500
            excerpt := link.excerpt, sourceKind := row.sourceKind
            originThreadId := row.originThreadId, erasedAt := row.erasedAt })

def signalBefore (one other : MemorySignal) : Bool :=
  decide (one.signal.kind < other.signal.kind) ||
    decide (one.signal.kind = other.signal.kind) &&
      match one.signal.startOffset, other.signal.startOffset with
      | none, _ => true
      | some _, none => false
      | some first, some second => decide (first ≤ second)

def getMemoryEvidenceDetail (evidenceId : Nat) : Option InspectDetail :=
  (db.tables.evidence.get? evidenceId).map fun row =>
    .evidence
      { id := evidenceId, text := memory.redactMemoryPreview row.text 10000
        sourceKind := row.sourceKind, originThreadId := row.originThreadId
        erasedAt := row.erasedAt }
      ((db.signals.filter fun signal => signal.evidenceId = evidenceId).mergeSort signalBefore)
      ((db.tables.factEvidence.filter fun link => link.evidenceId = evidenceId).filterMap
        fun link => (db.tables.facts.get? link.factId).map (mapFactPreview memory link.factId))

def memoryInspect (options : PiMemoryToolOptions) (params : MemoryInspectParams) :
    Option InspectDetail :=
  match params.factId.filter (· ≠ 0), params.evidenceId.filter (· ≠ 0),
      params.query.filter (· ≠ []) with
  | some factId, _, _ => getMemoryFactDetail memory db factId
  | none, some evidenceId, _ => getMemoryEvidenceDetail memory db evidenceId
  | none, none, some query =>
    some (.facts ((db.tables.searchMemoryFactsForObservability memory options.projectId
      options.worktreePath query 10).map fun entry => mapFactPreview memory entry.1 entry.2))
  | none, none, none => none

end Inspection

end Metidos.Memory
