import Metidos.Markdown.BlockParser

/-!
Two runs of the block parser compared: more fuel prolongs a run, and a run that is stopped at a
list marker of another kind is one that runs out of any fuel when it is not stopped.
-/

namespace Metidos.Markdown

open Outcome

variable {ν : Type} {inlines : InlineParser ν} {references : LinkReferenceDefinitions}
  {firstMarker : ParsedListMarker} {state : ListState ν}
  {related : (α : Type) → Outcome α → Outcome α → Prop}

/-- A line of a list item, without a blank line before it, that has a marker of another kind at
the level of the list and continues the item as code.  The loop of `parseListAt` hands it to
`collectListContinuationBlock`, which stops at it. -/
def otherMarker : Breakpoint ν := fun firstMarker state =>
  match state.rest with
  | [] => false
  | line :: _ =>
    let continuation := stripListContinuationIndent line.text firstMarker.indent
    (parseListMarker line.text).any (fun marker =>
        isSameListLevel marker firstMarker && !continuesList marker firstMarker) &&
      !state.items.isEmpty && !state.pendingBlank &&
      firstMarker.indent < leadingSpaces line.text && !isBlockQuoteLine continuation &&
      (isFencedCodeOpener continuation || isIndentedCodeLine continuation)

structure CallsRelated (related : (α : Type) → Outcome α → Outcome α → Prop)
    (left right : Calls ν) : Prop where
  parseDocument : ∀ depth content,
    related _ (left.parseDocument depth content) (right.parseDocument depth content)
  documentLoop : ∀ depth references mayHave lines blocks,
    related _ (left.documentLoop depth references mayHave lines blocks)
      (right.documentLoop depth references mayHave lines blocks)
  parseListAt : ∀ references lines,
    related _ (left.parseListAt references lines) (right.parseListAt references lines)
  listLoop : ∀ references firstMarker state,
    related _ (left.listLoop references firstMarker state)
      (right.listLoop references firstMarker state)

section

variable {left right : Calls ν} (relates : Relates related)
  (calls : CallsRelated related left right)

include relates calls

theorem appendChild_related (state : ListState ν) (content : Text) (rest : List SourceLine)
    (finish : Nat) : related _ (appendChild left state content rest finish)
      (appendChild right state content rest finish) :=
  relates.bind _ _ _ _ _ _ (calls.parseDocument 0 content) fun _ => relates.refl _ _

theorem listContinuation_related (line : SourceLine) (rest : List SourceLine) :
    related _ (listContinuation left inlines references firstMarker state line rest)
      (listContinuation right inlines references firstMarker state line rest) := by
  unfold listContinuation
  split
  · exact relates.refl _ _
  · split
    · split
      · exact appendChild_related relates calls _ _ _ _
      · dsimp only
        split
        · exact appendChild_related relates calls _ _ _ _
        · split
          · exact appendChild_related relates calls _ _ _ _
          · exact relates.refl _ _
    · exact relates.refl _ _

theorem listIteration_related :
    related _ (listIteration left inlines references firstMarker state)
      (listIteration right inlines references firstMarker state) := by
  unfold listIteration
  split
  · exact relates.refl _ _
  · split
    · exact listContinuation_related relates calls _ _
    · split
      · exact relates.refl _ _
      · split
        · refine relates.bind _ _ _ _ _ _ (calls.parseListAt _ _) fun nested => ?_
          exact relates.refl _ _
        · exact listContinuation_related relates calls _ _

theorem parseListAtBody_related (lines : List SourceLine) :
    related _ (parseListAtBody left inlines references lines)
      (parseListAtBody right inlines references lines) := by
  unfold parseListAtBody
  split
  · exact relates.refl _ _
  · exact relates.bind _ _ _ _ _ _ (calls.listLoop _ _ _) fun _ => relates.refl _ _

theorem parseBlockQuote_related (depth : Nat) (lines : List SourceLine) :
    related _ (parseBlockQuote left inlines depth lines)
      (parseBlockQuote right inlines depth lines) := by
  unfold parseBlockQuote
  split
  · exact relates.refl _ _
  · split
    · exact relates.refl _ _
    · dsimp only
      split
      · exact relates.refl _ _
      · exact relates.bind _ _ _ _ _ _ (calls.parseDocument _ _) fun _ => relates.refl _ _

theorem documentIteration_related (depth : Nat) (mayHave : Bool) (line : SourceLine)
    (rest : List SourceLine) :
    related _ (documentIteration left inlines depth references mayHave line rest)
      (documentIteration right inlines depth references mayHave line rest) := by
  unfold documentIteration
  dsimp only
  split
  · exact relates.refl _ _
  · split
    · exact relates.refl _ _
    · refine relates.bind _ _ _ _ _ _ (parseBlockQuote_related relates calls depth _) ?_
      intro blockQuote
      cases blockQuote with
      | some parsed => exact relates.refl _ _
      | none =>
        dsimp only
        split
        · exact relates.refl _ _
        · exact relates.bind _ _ _ _ _ _ (calls.parseListAt _ _) fun _ => relates.refl _ _

theorem documentLoopBody_related (depth : Nat) (mayHave : Bool) (lines : List SourceLine)
    (blocks : List (MarkdownBlockNode ν)) :
    related _ (documentLoopBody left inlines depth references mayHave lines blocks)
      (documentLoopBody right inlines depth references mayHave lines blocks) := by
  unfold documentLoopBody
  split
  · exact relates.refl _ _
  · exact relates.bind _ _ _ _ _ _ (documentIteration_related relates calls _ _ _ _) fun _ =>
      calls.documentLoop _ _ _ _ _

theorem parseDocumentBody_related (depth : Nat) (content : Text) :
    related _ (parseDocumentBody left inlines depth content)
      (parseDocumentBody right inlines depth content) :=
  relates.bind _ _ _ _ _ _ (calls.documentLoop _ _ _ _ _) fun _ => relates.refl _ _

theorem listRound_related :
    related _ (listLoopBody neverStop left inlines references firstMarker state)
      (listLoopBody neverStop right inlines references firstMarker state) := by
  unfold listLoopBody
  rw [neverStop, if_neg (by simp), if_neg (by simp)]
  refine relates.bind _ _ _ _ _ _ (listIteration_related relates calls) fun next => ?_
  cases next with
  | none => exact relates.refl _ _
  | some next => exact calls.listLoop _ _ _

end

theorem listLoopBody_of_not_stop {stop : Breakpoint ν} {calls : Calls ν}
    (goes : stop firstMarker state = false) :
    listLoopBody stop calls inlines references firstMarker state =
      listLoopBody neverStop calls inlines references firstMarker state := by
  unfold listLoopBody
  rw [goes, neverStop]

theorem parserCalls_succ (stop : Breakpoint ν) (fuel : Nat) :
    CallsRelated Prolongs (parserCalls inlines stop fuel) (parserCalls inlines stop (fuel + 1)) := by
  induction fuel with
  | zero =>
    exact
      { parseDocument := fun _ _ => Or.inl rfl
        documentLoop := fun _ _ _ _ _ => Or.inl rfl
        parseListAt := fun _ _ => Or.inl rfl
        listLoop := fun _ _ _ => Or.inl rfl }
  | succ fuel ih =>
    refine
      { parseDocument := parseDocumentBody_related prolongs_relates ih
        documentLoop := fun depth references mayHave lines blocks =>
          documentLoopBody_related prolongs_relates ih depth mayHave lines blocks
        parseListAt := fun references lines => parseListAtBody_related prolongs_relates ih lines
        listLoop := ?_ }
    intro references firstMarker state
    cases goes : stop firstMarker state with
    | true =>
      refine Or.inr ?_
      simp only [parserCalls, listLoopBody, goes, if_true]
    | false =>
      change Prolongs _ (listLoopBody stop _ inlines references firstMarker state)
        (listLoopBody stop _ inlines references firstMarker state)
      rw [listLoopBody_of_not_stop goes, listLoopBody_of_not_stop goes]
      exact listRound_related prolongs_relates ih

theorem parseDocument_mono {stop : Breakpoint ν} {fuel more depth : Nat} {content : Text}
    (le : fuel ≤ more) :
    Prolongs _ ((parserCalls inlines stop fuel).parseDocument depth content)
      ((parserCalls inlines stop more).parseDocument depth content) := by
  induction le with
  | refl => exact Or.inr rfl
  | @step middle _ ih =>
    have next := (@parserCalls_succ _ inlines stop middle).parseDocument depth content
    rcases ih with isOut | same
    · exact Or.inl isOut
    · rw [same]
      exact next

theorem parseDocument_nil (stop : Breakpoint ν) (fuel depth : Nat) :
    (parserCalls inlines stop fuel).parseDocument depth [] = .outOfFuel ∨
      ∃ document, (parserCalls inlines stop fuel).parseDocument depth [] = .done document := by
  match fuel with
  | 0 => exact Or.inl rfl
  | 1 => exact Or.inl rfl
  | fuel + 2 => exact Or.inr ⟨_, rfl⟩

theorem changeLast_isEmpty (change : MutableListItem ν → MutableListItem ν)
    (items : List (MutableListItem ν)) : (changeLast change items).isEmpty = items.isEmpty := by
  cases items with
  | nil => rfl
  | cons item items =>
    cases items with
    | nil => rfl
    | cons second items => rfl

theorem collectListContinuation_sameLevel {line : SourceLine} {rest : List SourceLine}
    {marker : ParsedListMarker} (isMarker : parseListMarker line.text = some marker)
    (same : isSameListLevel marker firstMarker = true) :
    collectListContinuation firstMarker (line :: rest) = ([], line :: rest) := by
  rw [collectListContinuation, isMarker]
  simp [same]

theorem otherMarker_line (stuck : otherMarker firstMarker state = true) :
    ∃ line rest marker, state.rest = line :: rest ∧ parseListMarker line.text = some marker ∧
      isSameListLevel marker firstMarker = true ∧ continuesList marker firstMarker = false ∧
      state.items.isEmpty = false ∧ state.pendingBlank = false ∧
      firstMarker.indent < leadingSpaces line.text ∧
      isBlockQuoteLine (stripListContinuationIndent line.text firstMarker.indent) = false ∧
      (isFencedCodeOpener (stripListContinuationIndent line.text firstMarker.indent) ||
        isIndentedCodeLine (stripListContinuationIndent line.text firstMarker.indent)) = true := by
  unfold otherMarker at stuck
  split at stuck
  · exact absurd stuck (by simp)
  · rename_i line rest isRest
    simp only [Bool.and_eq_true, Option.any_eq_true, Bool.not_eq_true', decide_eq_true_eq]
      at stuck
    obtain ⟨⟨⟨⟨⟨⟨marker, isMarker, same, other⟩, items⟩, noBlank⟩, deeper⟩, noQuote⟩, code⟩ := stuck
    exact ⟨line, rest, marker, isRest, isMarker, same, other, items, noBlank, deeper, noQuote, code⟩

theorem parseListMarker_blank {line : Text} (blank : isBlank line = true) :
    parseListMarker line = none := by
  have rest : ∀ unit ∈ line.drop (leadingSpaces line), isBlankUnit unit = true := fun unit member =>
    List.all_eq_true.mp blank unit (List.mem_of_mem_drop member)
  rw [parseListMarker]
  cases found : line.drop (leadingSpaces line) with
  | nil => rfl
  | cons first after =>
    have isBlankFirst := rest first (found ▸ List.mem_cons_self)
    simp only [isBlankUnit, Bool.or_eq_true, decide_eq_true_eq] at isBlankFirst
    rcases isBlankFirst with rfl | rfl
    · rfl
    · rfl

theorem isBlank_of_marker {line : Text} {marker : ParsedListMarker}
    (isMarker : parseListMarker line = some marker) : isBlank line = false := by
  by_contra blank
  rw [parseListMarker_blank (eq_true_of_ne_false blank)] at isMarker
  exact absurd isMarker (by simp)

theorem listIteration_otherMarker {calls : Calls ν}
    (stuck : otherMarker firstMarker state = true) :
    listIteration calls inlines references firstMarker state =
      appendChild calls state [] state.rest (continuationEnd state.rest state.rest) := by
  obtain ⟨line, rest, marker, isRest, isMarker, same, other, items, noBlank, deeper, noQuote, code⟩ :=
    otherMarker_line stuck
  have shallow : ¬firstMarker.indent + 1 < marker.indent := by
    simp only [isSameListLevel, Bool.and_eq_true, decide_eq_true_eq] at same
    omega
  unfold listIteration
  rw [isRest]
  dsimp only
  rw [isMarker]
  dsimp only
  rw [other, if_neg (by simp), items, decide_eq_false shallow, Bool.false_and, if_neg (by simp),
    listContinuation, isBlank_of_marker isMarker, items, noBlank,
    collectListContinuation_sameLevel isMarker same]
  simp only [deeper, noQuote, code]
  rfl

theorem otherMarker_stuck (fuel : Nat) (stuck : otherMarker firstMarker state = true) :
    (parserCalls inlines neverStop fuel).listLoop references firstMarker state = .outOfFuel := by
  induction fuel generalizing state with
  | zero => rfl
  | succ fuel ih =>
    change listLoopBody neverStop _ inlines references firstMarker state = .outOfFuel
    rw [listLoopBody, neverStop, if_neg (by simp), listIteration_otherMarker stuck, appendChild]
    rcases @parseDocument_nil _ inlines neverStop fuel 0 with isOut | ⟨document, isDone⟩
    · rw [isOut]
      rfl
    · obtain ⟨_, _, _, _, _, _, _, _, noBlank, _⟩ := otherMarker_line stuck
      rw [isDone]
      apply ih
      simpa [otherMarker, changeLast_isEmpty, noBlank] using stuck

theorem parserCalls_stopsFirst (fuel : Nat) :
    CallsRelated StopsFirst (parserCalls inlines otherMarker fuel)
      (parserCalls inlines neverStop fuel) := by
  induction fuel with
  | zero =>
    exact
      { parseDocument := fun _ _ => Or.inl rfl
        documentLoop := fun _ _ _ _ _ => Or.inl rfl
        parseListAt := fun _ _ => Or.inl rfl
        listLoop := fun _ _ _ => Or.inl rfl }
  | succ fuel ih =>
    refine
      { parseDocument := parseDocumentBody_related stopsFirst_relates ih
        documentLoop := fun depth references mayHave lines blocks =>
          documentLoopBody_related stopsFirst_relates ih depth mayHave lines blocks
        parseListAt := fun references lines =>
          parseListAtBody_related stopsFirst_relates ih lines
        listLoop := ?_ }
    intro references firstMarker state
    cases stuck : otherMarker firstMarker state with
    | true =>
      refine Or.inr ⟨?_, otherMarker_stuck (fuel + 1) stuck⟩
      simp only [parserCalls, listLoopBody, stuck, if_true]
    | false =>
      change StopsFirst _ (listLoopBody otherMarker _ inlines references firstMarker state)
        (listLoopBody neverStop _ inlines references firstMarker state)
      rw [listLoopBody_of_not_stop stuck]
      exact listRound_related stopsFirst_relates ih

end Metidos.Markdown
