import Metidos.Memory.MemoryRecall
import Metidos.Memory.MemoryRuns
import Metidos.Memory.RememberAtomicity

/-!
A recall returns memory of its project and scope only, an inspection that of the project of the
item it is given, and an erase of evidence ends the recall of its facts and excerpts.
-/

namespace Metidos.Memory

open Transition

variable {Score : Type} {context : RecallContext Score}
variable {tables : MemoryTables} {input : MemoryRecallInput}

theorem inThread_iff {fact : MemoryFact} : inThread input fact = true ↔
    (input.scope = some .thread → ∀ threadId, input.threadId = some threadId → threadId ≠ 0 →
      fact.originThreadId = some threadId) := by
  rw [inThread]
  split
  · rename_i isThread
    simp only [isThread, forall_const, Option.all_eq_true, Option.filter_eq_some_iff,
      decide_eq_true_eq, and_imp, ne_eq]
  · rename_i other
    simp [other]

theorem baseWhere_iff {fact : MemoryFact} : baseWhere input fact = true ↔
    fact.projectId = input.projectId ∧ fact.erasedAt = none ∧
      (input.scope = some .project ∨ fact.worktreePath = input.worktreePath) ∧
      (input.scope = some .thread → ∀ threadId, input.threadId = some threadId → threadId ≠ 0 →
        fact.originThreadId = some threadId) ∧
      (fact.status = .active ∨ includeSuperseded input = true ∧ fact.status = .superseded) := by
  simp only [baseWhere, Bool.and_eq_true, Bool.or_eq_true, decide_eq_true_eq, and_assoc,
    inThread_iff]

theorem mem_evidenceFacts {query : MemoryText} {row : Nat × MemoryFact}
    (found : row ∈ evidenceFacts context tables query) :
    tables.facts.get? row.1 = some row.2 := by
  rw [evidenceFacts, ← OrderedSet.mem_def, OrderedSet.mem_ofList] at found
  obtain ⟨entry, _, isRow⟩ := List.mem_flatMap.mp found
  split at isRow
  · obtain ⟨link, _, isFact⟩ := List.mem_filterMap.mp isRow
    obtain ⟨fact, present, rfl⟩ := Option.map_eq_some_iff.mp isFact
    exact present
  · cases isRow

theorem mem_facts_of_entry {row : Nat × MemoryFact} (member : row ∈ tables.facts.entries) :
    tables.facts.get? row.1 = some row.2 :=
  (OrderedMap.get?_eq_some_iff _ _ _).mpr member

theorem mem_queryRoute {route : RouteName} {limit : Nat} {row : Nat × MemoryFact}
    (found : row ∈ queryRoute context tables input route limit) :
    tables.facts.get? row.1 = some row.2 ∧ baseWhere input row.2 = true := by
  cases route with
  | ftsFact =>
    simp only [queryRoute] at found
    split at found
    · cases found
    · obtain ⟨matched, inScope⟩ := List.mem_filter.mp (List.mem_of_mem_take found)
      exact ⟨mem_facts_of_entry (List.mem_filter.mp matched).1, inScope⟩
  | entity =>
    simp only [queryRoute] at found
    split at found
    · cases found
    · obtain ⟨inside, _⟩ :=
        List.mem_filter.mp (List.mem_mergeSort.mp (List.mem_of_mem_take found))
      obtain ⟨member, inScope⟩ := List.mem_filter.mp inside
      exact ⟨mem_facts_of_entry member, inScope⟩
  | temporal =>
    obtain ⟨member, inScope⟩ :=
      List.mem_filter.mp (List.mem_mergeSort.mp (List.mem_of_mem_take found))
    exact ⟨mem_facts_of_entry member, inScope⟩
  | evidence =>
    simp only [queryRoute] at found
    split at found
    · cases found
    · obtain ⟨member, inScope⟩ := List.mem_filter.mp (List.mem_of_mem_take found)
      exact ⟨mem_evidenceFacts member, inScope⟩
  | vector => cases found

theorem fused_rows {results : List RouteResult} {property : Nat → MemoryFact → Prop}
    (holds : ∀ result ∈ results, property result.factId result.row) (id : Nat)
    (fused : FusedRow Score)
    (present : (results.foldl (fuseInto context) .empty).get? id = some fused) :
    property id fused.row := by
  have general : ∀ (results : List RouteResult) (byId : OrderedMap Nat (FusedRow Score)),
      (∀ result ∈ results, property result.factId result.row) →
      (∀ id fused, byId.get? id = some fused → property id fused.row) →
      ∀ id fused, (results.foldl (fuseInto context) byId).get? id = some fused →
        property id fused.row := by
    intro results
    induction results with
    | nil => exact fun _ _ initially => initially
    | cons result rest ih =>
      intro byId holds initially
      refine ih _ (fun other member => holds other (List.mem_cons_of_mem _ member)) ?_
      intro id fused present
      rw [fuseInto, OrderedMap.get?_set] at present
      split at present
      · rename_i same
        cases present
        rw [same]
        cases current : byId.get? result.factId with
        | none => exact holds result List.mem_cons_self
        | some old => exact initially _ old current
      · exact initially id fused present
  refine general results .empty holds (fun id fused present => ?_) id fused present
  cases present

variable [LinearOrder Score]

theorem trans_recallOrder (context : RecallContext Score) :
    Std.TransCmp (recallOrder context) := by
  have locale := context.consistent
  have times : Std.TransCmp fun one other : MemoryRecallFact Score =>
      context.localeCompare one.updatedAt other.updatedAt :=
    { eq_swap := Std.OrientedCmp.eq_swap, isLE_trans := Std.TransCmp.isLE_trans }
  exact inferInstanceAs (Std.TransCmp (compareLex _ (compareLex _ _)))

theorem recallsBefore_iff {one other : MemoryRecallFact Score} :
    recallsBefore context one other = true ↔ other.score < one.score ∨
      one.score = other.score ∧
        (context.localeCompare other.updatedAt one.updatedAt = .lt ∨
          context.localeCompare other.updatedAt one.updatedAt = .eq ∧ other.id ≤ one.id) := by
  rw [recallsBefore, recallOrder, compareLex, compareLex, compareOn, compareOn]
  cases score : compare other.score one.score with
  | lt =>
    have less := compare_lt_iff_lt.mp score
    simp [less]
  | eq =>
    have same := compare_eq_iff_eq.mp score
    cases context.localeCompare other.updatedAt one.updatedAt with
    | lt => simp [same]
    | eq => simp [same, Std.isLE_compare]
    | gt => simp [same]
  | gt =>
    have more := compare_gt_iff_gt.mp score
    simp [more.not_gt, more.ne]

theorem fuse_ordered (results : List RouteResult) :
    (fuse context results).Pairwise fun one other => recallsBefore context one other = true := by
  have order := trans_recallOrder context
  refine List.pairwise_mergeSort (fun one other third first second => ?_) (fun one other => ?_) _
  · exact Std.TransCmp.isLE_trans second first
  · rw [recallsBefore, recallsBefore, @Std.OrientedCmp.eq_swap _ (recallOrder context) _]
    cases recallOrder context one other with
    | lt => rfl
    | eq => rfl
    | gt => rfl

theorem fuse_distinct (results : List RouteResult) :
    ((fuse context results).map MemoryRecallFact.id).Nodup := by
  have permuted := List.mergeSort_perm ((results.foldl (fuseInto context) .empty).entries.map
    fun (entry : Nat × FusedRow Score) => mapRecallFact entry.1 entry.2.row entry.2.score)
      (recallsBefore context)
  refine ((permuted.map MemoryRecallFact.id).nodup_iff).mpr ?_
  rw [List.map_map]
  exact (results.foldl (fuseInto context) .empty).distinct

theorem mem_fuse {results : List RouteResult} (property : Nat → MemoryFact → Prop)
    (holds : ∀ result ∈ results, property result.factId result.row)
    {fact : MemoryRecallFact Score} (fused : fact ∈ fuse context results) :
    ∃ row, property fact.id row ∧ fact = mapRecallFact fact.id row fact.score := by
  obtain ⟨entry, member, rfl⟩ := List.mem_map.mp (List.mem_mergeSort.mp fused)
  exact ⟨entry.2.row, fused_rows holds entry.1 entry.2
    ((OrderedMap.get?_eq_some_iff _ _ _).mpr member), rfl⟩

structure RecallIsolated (context : RecallContext Score) (tables : MemoryTables)
    (input : MemoryRecallInput) (facts : List (MemoryRecallFact Score)) : Prop where
  bounded : facts.length ≤ recallLimit input
  distinct : (facts.map MemoryRecallFact.id).Nodup
  selected : ∀ fact ∈ facts, ∃ row, tables.facts.get? fact.id = some row ∧
    fact.statement = row.statement ∧ fact.status = row.status ∧
    fact.updatedAt = row.updatedAt ∧ row.projectId = input.projectId ∧
    (input.scope = some .project ∨ row.worktreePath = input.worktreePath) ∧
    (input.scope = some .thread → ∀ threadId, input.threadId = some threadId → threadId ≠ 0 →
      row.originThreadId = some threadId) ∧
    row.erasedAt = none ∧
    (row.status = .active ∨ includeSuperseded input = true ∧ row.status = .superseded)
  ordered : facts.Pairwise fun one other => other.score < one.score ∨
    one.score = other.score ∧
      (context.localeCompare other.updatedAt one.updatedAt = .lt ∨
        context.localeCompare other.updatedAt one.updatedAt = .eq ∧ other.id ≤ one.id)

theorem mem_rankRows {route : RouteName} {rows : List (Nat × MemoryFact)} {result : RouteResult}
    (ranked : result ∈ rankRows route rows) : (result.factId, result.row) ∈ rows := by
  obtain ⟨row, member, rfl⟩ := List.mem_map.mp ranked
  exact List.mem_of_getElem? (List.mem_zipIdx_iff_getElem?.mp member)

theorem mem_recalled {limit : Nat} {fact : MemoryRecallFact Score}
    (recalled : fact ∈ fuse context ((planRoutes input).flatMap fun route =>
      rankRows route (queryRoute context tables input route limit))) :
    ∃ row, (tables.facts.get? fact.id = some row ∧ baseWhere input row = true) ∧
      fact = mapRecallFact fact.id row fact.score := by
  refine mem_fuse (fun id row => tables.facts.get? id = some row ∧ baseWhere input row = true)
    (fun result member => ?_) recalled
  obtain ⟨route, _, ranked⟩ := List.mem_flatMap.mp member
  exact mem_queryRoute (mem_rankRows ranked)

theorem recallMemory_isolated (context : RecallContext Score) (tables : MemoryTables)
    (input : MemoryRecallInput) :
    RecallIsolated context tables input (recallMemory context tables input).facts := by
  rw [recallMemory]
  dsimp only
  generalize isResults : ((planRoutes input).flatMap fun route =>
    rankRows route (queryRoute context tables input route (recallLimit input * 2))) = results
  have fused : RecallIsolated context tables input
      ((fuse context results).take (recallLimit input)) := by
    refine ⟨List.length_take_le _ _, ?_, fun fact member => ?_, ?_⟩
    · rw [List.map_take]
      exact (List.take_sublist _ _).nodup (fuse_distinct results)
    · obtain ⟨row, ⟨present, inScope⟩, isFact⟩ :=
        mem_recalled (isResults ▸ List.mem_of_mem_take member)
      obtain ⟨project, unerased, worktree, thread, status⟩ := baseWhere_iff.mp inScope
      rw [isFact]
      exact ⟨row, present, rfl, rfl, rfl, project, worktree, thread, unerased, status⟩
    · exact ((fuse_ordered results).sublist (List.take_sublist _ _)).imp recallsBefore_iff.mp
  split
  · refine ⟨?_, ?_, ?_, ?_⟩
    · rw [attachEvidence, List.length_map]
      exact fused.bounded
    · rw [attachEvidence, List.map_map]
      exact fused.distinct
    · intro fact member
      obtain ⟨plain, isPlain, rfl⟩ := List.mem_map.mp member
      exact fused.selected plain isPlain
    · exact List.pairwise_map.mpr fused.ordered
  · exact fused

theorem recallMemory_evidence {fact : MemoryRecallFact Score} {items : List RecallEvidence}
    {item : RecallEvidence} (recalled : fact ∈ (recallMemory context tables input).facts)
    (attached : fact.evidence = some items) (member : item ∈ items) :
    ∃ row, tables.evidence.get? item.id = some row ∧ row.erasedAt = none := by
  rw [recallMemory] at recalled
  dsimp only at recalled
  split at recalled
  · obtain ⟨plain, _, rfl⟩ := List.mem_map.mp recalled
    cases attached
    obtain ⟨link, _, isItem⟩ := List.mem_filterMap.mp (List.mem_of_mem_take member)
    obtain ⟨row, present, isShown⟩ := Option.bind_eq_some_iff.mp isItem
    split at isShown
    · rename_i unerased
      cases isShown
      exact ⟨row, present, unerased⟩
    · cases isShown
  · obtain ⟨row, _, isFact⟩ := mem_recalled (List.mem_of_mem_take recalled)
    rw [isFact] at attached
    cases attached

section Inspection

variable {memory : MemoryContext} {db : MemoryDatabase} {options : PiMemoryToolOptions}
variable {params : MemoryInspectParams}

def InspectDetail.factIds : InspectDetail → List Nat
  | .fact preview _ => [preview.id]
  | .evidence _ _ previews => previews.map MemoryFactPreview.id
  | .facts previews => previews.map MemoryFactPreview.id

def InspectDetail.evidenceIds : InspectDetail → List Nat
  | .fact _ previews => previews.map MemoryEvidencePreview.id
  | .evidence detail _ _ => [detail.id]
  | .facts _ => []

def DetailOf (projectId : Nat) (tables : MemoryTables) (detail : InspectDetail) : Prop :=
  (∀ id ∈ detail.factIds, ∀ fact, tables.facts.get? id = some fact →
    fact.projectId = projectId) ∧
  ∀ id ∈ detail.evidenceIds, ∀ row, tables.evidence.get? id = some row →
    row.projectId = projectId

def InspectsOwn (projectId : Nat) (tables : MemoryTables) (params : MemoryInspectParams) : Prop :=
  match params.factId.filter (· ≠ 0), params.evidenceId.filter (· ≠ 0) with
  | some factId, _ => ∀ fact, tables.facts.get? factId = some fact → fact.projectId = projectId
  | none, some evidenceId =>
    ∀ row, tables.evidence.get? evidenceId = some row → row.projectId = projectId
  | none, none => True

theorem factDetail_iff (linked : db.tables.Linked) {projectId factId : Nat} :
    (∀ detail, getMemoryFactDetail memory db factId = some detail →
      DetailOf projectId db.tables detail) ↔
    ∀ fact, db.tables.facts.get? factId = some fact → fact.projectId = projectId := by
  constructor
  · intro own fact present
    rw [getMemoryFactDetail, present] at own
    exact (own _ rfl).1 factId (List.mem_singleton_self factId) fact present
  · intro own detail isDetail
    obtain ⟨fact, present, rfl⟩ := Option.map_eq_some_iff.mp isDetail
    constructor
    · intro id member other isOther
      rw [List.mem_singleton.mp member] at isOther
      exact own other isOther
    · intro id member row isRow
      obtain ⟨preview, isPreview, rfl⟩ := List.mem_map.mp member
      obtain ⟨link, isLink, isShown⟩ := List.mem_filterMap.mp isPreview
      obtain ⟨shown, isEvidence, rfl⟩ := Option.map_eq_some_iff.mp isShown
      obtain ⟨inside, isFact⟩ := List.mem_filter.mp isLink
      obtain ⟨linkedFact, linkedRow, presentFact, presentRow, project, _⟩ :=
        linked.links link inside
      cases presentRow.symm.trans isRow
      rw [of_decide_eq_true isFact] at presentFact
      exact project.symm.trans (own linkedFact presentFact)

theorem evidenceDetail_iff (linked : db.tables.Linked) {projectId evidenceId : Nat} :
    (∀ detail, getMemoryEvidenceDetail memory db evidenceId = some detail →
      DetailOf projectId db.tables detail) ↔
    ∀ row, db.tables.evidence.get? evidenceId = some row → row.projectId = projectId := by
  constructor
  · intro own row present
    rw [getMemoryEvidenceDetail, present] at own
    exact (own _ rfl).2 evidenceId (List.mem_singleton_self evidenceId) row present
  · intro own detail isDetail
    obtain ⟨row, present, rfl⟩ := Option.map_eq_some_iff.mp isDetail
    constructor
    · intro id member fact isFact
      obtain ⟨preview, isPreview, rfl⟩ := List.mem_map.mp member
      obtain ⟨link, isLink, isShown⟩ := List.mem_filterMap.mp isPreview
      obtain ⟨shown, isShownFact, rfl⟩ := Option.map_eq_some_iff.mp isShown
      obtain ⟨inside, isEvidence⟩ := List.mem_filter.mp isLink
      obtain ⟨linkedFact, linkedRow, presentFact, presentRow, project, _⟩ :=
        linked.links link inside
      cases presentFact.symm.trans isFact
      rw [of_decide_eq_true isEvidence] at presentRow
      exact project.trans (own linkedRow presentRow)
    · intro id member other isOther
      rw [List.mem_singleton.mp member] at isOther
      exact own other isOther

theorem queryDetail_own (query : MemoryText) :
    DetailOf options.projectId db.tables
      (.facts ((db.tables.searchMemoryFactsForObservability memory options.projectId
        options.worktreePath query 10).map fun entry => mapFactPreview memory entry.1 entry.2)) := by
  refine ⟨fun id member fact isFact => ?_, fun id member => by cases member⟩
  obtain ⟨preview, isPreview, rfl⟩ := List.mem_map.mp member
  obtain ⟨entry, isFound, rfl⟩ := List.mem_map.mp isPreview
  obtain ⟨inside, passes⟩ :=
    List.mem_filter.mp (List.mem_mergeSort.mp (List.mem_of_mem_take isFound))
  cases ((OrderedMap.get?_eq_some_iff _ entry.1 entry.2).mpr inside).symm.trans isFact
  simp only [Bool.and_eq_true, Bool.or_eq_true, decide_eq_true_eq] at passes
  exact passes.1.1.resolve_left options.positive.ne'

theorem memoryInspect_iff (linked : db.tables.Linked) :
    (∀ detail, memoryInspect memory db options params = some detail →
      DetailOf options.projectId db.tables detail) ↔
    InspectsOwn options.projectId db.tables params := by
  rw [memoryInspect, InspectsOwn]
  cases params.factId.filter (· ≠ 0) with
  | some factId => exact factDetail_iff linked
  | none =>
    cases params.evidenceId.filter (· ≠ 0) with
    | some evidenceId => exact evidenceDetail_iff linked
    | none =>
      refine ⟨fun _ => trivial, fun _ detail isDetail => ?_⟩
      cases hasQuery : params.query.filter (· ≠ []) with
      | none =>
        rw [hasQuery] at isDetail
        cases isDetail
      | some query =>
        rw [hasQuery] at isDetail
        cases isDetail
        exact queryDetail_own query

end Inspection

structure EvidenceErased (tables : MemoryTables) (evidenceId : Nat) : Prop where
  evidence : ∃ row, tables.evidence.get? evidenceId = some row ∧ row.erasedAt.isSome = true
  facts : ∀ link ∈ tables.factEvidence, link.evidenceId = evidenceId →
    ∃ fact, tables.facts.get? link.factId = some fact ∧ fact.erasedAt.isSome = true

def Forgets (context : RecallContext Score) (tables : MemoryTables) (evidenceId : Nat) : Prop :=
  ∀ input, ∀ fact ∈ (recallMemory context tables input).facts,
    (∀ link ∈ tables.factEvidence, link.evidenceId = evidenceId → link.factId ≠ fact.id) ∧
      ∀ items, fact.evidence = some items → ∀ item ∈ items, item.id ≠ evidenceId

theorem EvidenceErased.follow {before after : MemoryTables} {evidenceId : Nat}
    (erased : EvidenceErased before evidenceId) (follows : before.Follows after) :
    EvidenceErased after evidenceId := by
  obtain ⟨row, present, isErased⟩ := erased.evidence
  refine ⟨?_, fun link member isEvidence => ?_⟩
  · obtain ⟨later, isLater, _, _, keeps⟩ := follows.evidence _ row present
    exact ⟨later, isLater, keeps isErased⟩
  · rcases follows.links link member with old | absent
    · obtain ⟨fact, isFact, factErased⟩ := erased.facts link old isEvidence
      obtain ⟨later, isLater, _, _, keeps⟩ := follows.facts _ fact isFact
      exact ⟨later, isLater, keeps factErased⟩
    · rw [isEvidence, present] at absent
      cases absent

theorem EvidenceErased.forgets {evidenceId : Nat} (erased : EvidenceErased tables evidenceId) :
    Forgets context tables evidenceId := by
  intro input fact recalled
  constructor
  · intro link member isEvidence same
    obtain ⟨row, present, isErased⟩ := erased.facts link member isEvidence
    obtain ⟨shown, isShown, _, _, _, _, _, _, unerased, _⟩ :=
      (recallMemory_isolated context tables input).selected fact recalled
    rw [← same] at isShown
    cases present.symm.trans isShown
    rw [unerased] at isErased
    cases isErased
  · intro items attached item member same
    obtain ⟨row, present, isErased⟩ := erased.evidence
    obtain ⟨shown, isShown, unerased⟩ := recallMemory_evidence recalled attached member
    rw [same] at isShown
    cases present.symm.trans isShown
    rw [unerased] at isErased
    cases isErased

theorem eraseMemory_erases {memory : MemoryContext} {forget : MemoryForgetInput}
    {erasedAt : MemoryText} {after : MemoryTables} {evidenceId : Nat} {row : MemoryEvidence}
    (linked : tables.Linked) (erased : tables.eraseMemory memory forget erasedAt = some after)
    (given : evidenceId ∈ forget.evidenceIds)
    (present : tables.evidence.get? evidenceId = some row)
    (project : row.projectId = forget.projectId)
    (worktree : row.worktreePath = forget.worktreePath) : EvidenceErased after evidenceId := by
  rw [MemoryTables.eraseMemory] at erased
  split at erased
  · cases erased
  · cases erased
    rw [MemoryTables.erased_tables]
    constructor
    · refine ⟨MemoryTables.erasingEvidence forget erasedAt row, ?_, ?_⟩
      · have isGiven : evidenceId ∈ (OrderedSet.ofList forget.evidenceIds).elements :=
          (OrderedSet.mem_ofList _ _).mpr given
        dsimp only
        rw [OrderedMap.get?_foldl_modify (MemoryTables.erasingEvidence_twice forget erasedAt),
          if_pos isGiven, present, Option.map_some]
      · rw [MemoryTables.erasingEvidence, if_pos ⟨project, worktree⟩]
        rfl
    · intro link member isEvidence
      obtain ⟨fact, linkedRow, isFact, isRow, factProject, factWorktree⟩ :=
        linked.links link member
      cases present.symm.trans (isEvidence ▸ isRow)
      have own : fact.projectId = forget.projectId ∧ fact.worktreePath = forget.worktreePath :=
        ⟨factProject.trans project, factWorktree.trans worktree⟩
      have isLinked : link.factId ∈ tables.linkedFactIds forget evidenceId := by
        refine List.mem_map.mpr ⟨link, List.mem_filter.mpr ⟨member, ?_⟩, rfl⟩
        simp [isEvidence, isFact, own]
      have isForgotten : link.factId ∈ (tables.forgottenFactIds memory forget).elements := by
        rw [← OrderedSet.mem_def, MemoryTables.forgottenFactIds, OrderedSet.mem_addAll]
        exact Or.inl (List.mem_flatMap.mpr
          ⟨evidenceId, (OrderedSet.mem_ofList _ _).mpr given, isLinked⟩)
      refine ⟨MemoryTables.erasing forget erasedAt fact, ?_, ?_⟩
      · dsimp only
        rw [MemoryTables.get?_erased, if_pos isForgotten, isFact, Option.map_some]
      · rw [MemoryTables.erasing, if_pos own]
        rfl

/-- Every recall is isolated; an inspection is if and only if the item of its id is of the project;
and after an erase of evidence of its project and worktree no later recall returns the facts and
excerpts of the evidence. -/
theorem memory_recall_isolated (context : RecallContext Score) (memory : MemoryContext)
    (extractMemorySignals : MemoryText → List MemorySignalInput) {db : MemoryDatabase}
    (reached : Reaches (databaseStep memory extractMemorySignals) Unrestricted
      MemoryDatabase.empty db) :
    (∀ tables input,
      RecallIsolated context tables input (recallMemory context tables input).facts) ∧
    (∀ (options : PiMemoryToolOptions) (params : MemoryInspectParams),
      (∀ detail, memoryInspect memory db options params = some detail →
        DetailOf options.projectId db.tables detail) ↔
      InspectsOwn options.projectId db.tables params) ∧
    ∀ (forget : MemoryForgetInput) (erasedAt : MemoryText) (next : MemoryDatabase),
      databaseStep memory extractMemorySignals db
        { event := .eraseMemory forget erasedAt, throwsAt := none } = some next →
      ∀ evidenceId ∈ forget.evidenceIds, ∀ row, db.tables.evidence.get? evidenceId = some row →
        row.projectId = forget.projectId → row.worktreePath = forget.worktreePath →
          ∀ later, Reaches (databaseStep memory extractMemorySignals) Unrestricted next later →
            Forgets context later.tables evidenceId := by
  have linked := (reaches_continues reached empty_linked).linked
  refine ⟨recallMemory_isolated context, fun _ _ => memoryInspect_iff linked, ?_⟩
  intro forget erasedAt next erased evidenceId given row present project worktree later reaches
  have completes := databaseStep_completes memory extractMemorySignals db
    (.eraseMemory forget erasedAt)
  rw [erased] at completes
  have isErased := eraseMemory_erases linked completes.symm given present project worktree
  have continues := databaseStep_continues linked erased
  exact (isErased.follow (reaches_continues reaches continues.linked).follows).forgets

namespace Sample

def recalling : RecallContext Nat where
  matchesFact := fun _ _ => true
  matchesEvidence := fun _ _ => true
  like := fun _ _ => true
  queryEntities := fun query => [query]
  localeCompare := fun _ _ => .eq
  consistent := { eq_swap := rfl, isLE_trans := fun _ _ => rfl }
  zero := 0
  addRoute := fun score _ _ => score + 1

def rememberPort : MemoryCall where
  event := .rememberMemoryFacts (supersedingInput none) "1".toList
  throwsAt := none

def optionsOf (projectId : Nat) (positive : 0 < projectId) : PiMemoryToolOptions where
  projectId := projectId
  worktreePath := "w".toList
  positive := positive

def inspectFirst : MemoryInspectParams where
  factId := some 1
  evidenceId := none
  query := none

end Sample

theorem memory_recall_isolated_remembered : ∃ db : MemoryDatabase,
    db.tables.facts.has 1 = true ∧ ∀ detail,
      memoryInspect Sample.accepting db (Sample.optionsOf 1 Nat.one_pos) Sample.inspectFirst =
        some detail → DetailOf 1 db.tables detail := by
  have ran : ((run (databaseStep Sample.accepting fun _ => []) (fun _ _ => true)
      MemoryDatabase.empty [Sample.rememberPort]).any fun db =>
        (db.tables.facts.get? 1).any fun fact => fact.projectId = 1) = true := by decide +kernel
  obtain ⟨db, isRun, isFact⟩ := (Option.any_eq_true _ _).mp ran
  obtain ⟨fact, present, project⟩ := (Option.any_eq_true _ _).mp isFact
  have isolated := memory_recall_isolated Sample.recalling Sample.accepting (fun _ => [])
    (reaches_of_run isRun).unrestricted
  refine ⟨db, ?_, (isolated.2.1 (Sample.optionsOf 1 Nat.one_pos) Sample.inspectFirst).mpr ?_⟩
  · rw [OrderedMap.has, present]
    rfl
  · intro other isOther
    cases present.symm.trans isOther
    exact of_decide_eq_true project

theorem not_memory_recall_isolated : ¬∀ (context : RecallContext Nat) (memory : MemoryContext)
    (extractMemorySignals : MemoryText → List MemorySignalInput) (db : MemoryDatabase),
    Reaches (databaseStep memory extractMemorySignals) Unrestricted MemoryDatabase.empty db →
    (∀ tables input,
      RecallIsolated context tables input (recallMemory context tables input).facts) ∧
    (∀ (options : PiMemoryToolOptions) (params : MemoryInspectParams) (detail : InspectDetail),
      memoryInspect memory db options params = some detail →
        DetailOf options.projectId db.tables detail) ∧
    ∀ (forget : MemoryForgetInput) (erasedAt : MemoryText) (next : MemoryDatabase),
      databaseStep memory extractMemorySignals db
        { event := .eraseMemory forget erasedAt, throwsAt := none } = some next →
      ∀ evidenceId ∈ forget.evidenceIds, ∀ row, db.tables.evidence.get? evidenceId = some row →
        row.projectId = forget.projectId →
          ∀ later, Reaches (databaseStep memory extractMemorySignals) Unrestricted next later →
            Forgets context later.tables evidenceId := by
  intro isolated
  have ran : ((run (databaseStep Sample.accepting fun _ => []) (fun _ _ => true)
      MemoryDatabase.empty [Sample.rememberPort]).any fun db =>
        (db.tables.facts.get? 1).any fun fact => fact.projectId = 1) = true := by decide +kernel
  obtain ⟨db, isRun, isFact⟩ := (Option.any_eq_true _ _).mp ran
  obtain ⟨fact, present, project⟩ := (Option.any_eq_true _ _).mp isFact
  have shown := (isolated Sample.recalling Sample.accepting (fun _ => []) db
    (reaches_of_run isRun).unrestricted).2.1 (Sample.optionsOf 2 Nat.two_pos) Sample.inspectFirst
  have own := (factDetail_iff (reaches_continues (reaches_of_run isRun) empty_linked).linked).mp
    shown fact present
  rw [of_decide_eq_true project] at own
  cases own

end Metidos.Memory
