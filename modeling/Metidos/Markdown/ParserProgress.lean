import Metidos.Markdown.ParserCalls

/-!
Progress of the block parser: what each block leaves is a proper end of its lines, the contents
that are parsed anew are shorter than their lines, and a content is parsed to its end unless a list
loop meets a marker of another kind that it can not take in.
-/

namespace Metidos.Markdown

open Outcome

variable {ν : Type} {inlines : InlineParser ν} {references : LinkReferenceDefinitions}
  {firstMarker : ParsedListMarker} {state next : ListState ν} {stop : Breakpoint ν}
  {line : SourceLine} {lines rest after : List SourceLine} {parts : List Text}
  {parsed : Parsed ν} {fuel : Nat}

def linesSize (lines : List SourceLine) : Nat := (lines.map fun line => line.text.length + 1).sum

def partsSize (parts : List Text) : Nat := (parts.map fun part => part.length + 1).sum

@[simp] theorem linesSize_nil : linesSize [] = 0 := rfl

@[simp] theorem linesSize_cons (line : SourceLine) (lines : List SourceLine) :
    linesSize (line :: lines) = line.text.length + 1 + linesSize lines := by
  simp [linesSize]

@[simp] theorem partsSize_nil : partsSize [] = 0 := rfl

@[simp] theorem partsSize_cons (part : Text) (parts : List Text) :
    partsSize (part :: parts) = part.length + 1 + partsSize parts := by
  simp [partsSize]

theorem linesSize_suffix (isSuffix : after <:+ lines) : linesSize after ≤ linesSize lines := by
  obtain ⟨before, rfl⟩ := isSuffix
  simp [linesSize]

theorem linesSize_lt (isSuffix : after <:+ rest) :
    linesSize after < linesSize (line :: rest) := by
  have le := linesSize_suffix isSuffix
  rw [linesSize_cons]
  omega

theorem length_joinLines (parts : List Text) (some : parts ≠ []) :
    (joinLines parts).length + 1 = partsSize parts := by
  induction parts with
  | nil => exact absurd rfl some
  | cons part parts ih =>
    cases parts with
    | nil => simp [joinLines, List.intercalate]
    | cons second parts =>
      have rest := ih (by simp)
      simp only [joinLines, List.intercalate, List.intersperse_cons_cons, List.flatten_cons,
        List.length_append, List.length_singleton, partsSize_cons] at rest ⊢
      omega

theorem length_normalizeSource (content : Text) :
    (normalizeSource content).length ≤ content.length := by
  fun_induction normalizeSource content with
  | case1 => exact le_refl _
  | case2 rest ih => simp only [List.length_cons]; omega
  | case3 rest _ ih => simp only [List.length_cons]; omega
  | case4 rest ih => simp only [List.length_cons]; omega
  | case5 unit rest _ _ _ ih => simp only [List.length_cons]; omega

theorem linesSize_splitLinesFrom (start : Nat) (current source : Text) :
    linesSize (splitLinesFrom start current source) = current.length + source.length + 1 := by
  induction source generalizing start current with
  | nil => simp [splitLinesFrom]
  | cons unit rest ih =>
    rw [splitLinesFrom]
    split
    · rw [linesSize_cons, ih]
      simp
      omega
    · rw [ih]
      simp
      omega

theorem linesSize_splitLines (source : Text) :
    linesSize (splitLines source) ≤ source.length + 1 := by
  rw [splitLines]
  split
  · simp
  · rw [linesSize_splitLinesFrom]
    simp

theorem collectFence_suffix (fence minimumLength indent : Nat) (lines : List SourceLine) :
    (collectFence fence minimumLength indent lines).2 <:+ lines := by
  induction lines with
  | nil => exact List.suffix_refl _
  | cons line rest ih =>
    rw [collectFence]
    split
    · exact List.suffix_cons _ _
    · exact ih.trans (List.suffix_cons _ _)

theorem collectIndented_suffix (lines : List SourceLine) : (collectIndented lines).2 <:+ lines := by
  induction lines with
  | nil => exact List.suffix_refl _
  | cons line rest ih =>
    rw [collectIndented]
    split
    · exact List.suffix_refl _
    · exact ih.trans (List.suffix_cons _ _)

theorem collectRows_suffix (columnCount : Nat) (lines : List SourceLine) :
    (collectRows inlines references columnCount lines).2 <:+ lines := by
  induction lines with
  | nil => exact List.suffix_refl _
  | cons line rest ih =>
    rw [collectRows]
    dsimp only
    split
    · exact List.suffix_refl _
    · exact ih.trans (List.suffix_cons _ _)

theorem collectParagraph_suffix (parts : List Text) (sawBacktick : Bool)
    (lines : List SourceLine) : (collectParagraph parts sawBacktick lines).2 <:+ lines := by
  induction lines generalizing parts sawBacktick with
  | nil => exact List.suffix_refl _
  | cons line rest ih =>
    rw [collectParagraph]
    split
    · split
      · exact (ih _ _).trans (List.suffix_cons _ _)
      · exact List.suffix_refl _
    · split
      · exact List.suffix_refl _
      · exact (ih _ _).trans (List.suffix_cons _ _)

theorem parseFencedCode_rest (isParsed : parseFencedCode (line :: rest) = some parsed) :
    parsed.rest <:+ rest := by
  unfold parseFencedCode at isParsed
  dsimp only at isParsed
  split at isParsed
  · exact absurd isParsed (by simp)
  · split at isParsed
    · exact absurd isParsed (by simp)
    · split at isParsed
      · exact absurd isParsed (by simp)
      · obtain rfl := Option.some.inj isParsed
        exact collectFence_suffix _ _ _ _

theorem parseIndentedCode_rest (isParsed : parseIndentedCode (line :: rest) = some parsed) :
    parsed.rest <:+ rest := by
  unfold parseIndentedCode at isParsed
  dsimp only at isParsed
  split at isParsed
  · rename_i indented
    obtain rfl := Option.some.inj isParsed
    dsimp only
    rw [collectIndented, indented, Bool.not_true, Bool.and_false, if_neg (by simp)]
    exact collectIndented_suffix rest
  · exact absurd isParsed (by simp)

theorem parseThematicBreak_rest (isParsed : parseThematicBreak (line :: rest) = some parsed) :
    parsed.rest <:+ rest := by
  unfold parseThematicBreak at isParsed
  dsimp only at isParsed
  split at isParsed
  · obtain rfl := Option.some.inj isParsed
    exact List.suffix_refl _
  · exact absurd isParsed (by simp)

theorem parseTable_rest (isParsed : parseTable inlines references (line :: rest) = some parsed) :
    parsed.rest <:+ rest := by
  unfold parseTable at isParsed
  split at isParsed
  · rename_i header delimiterLine after same
    obtain ⟨rfl, rfl⟩ := List.cons.inj same
    split at isParsed
    · exact absurd isParsed (by simp)
    · dsimp only at isParsed
      split at isParsed
      · exact absurd isParsed (by simp)
      · obtain rfl := Option.some.inj isParsed
        exact (collectRows_suffix _ _).trans (List.suffix_cons _ _)
  · exact absurd isParsed (by simp)

theorem parseAtxHeading_rest
    (isParsed : parseAtxHeading inlines references (line :: rest) = some parsed) :
    parsed.rest <:+ rest := by
  obtain ⟨block, _, rfl⟩ := Option.map_eq_some_iff.mp isParsed
  exact List.suffix_refl _

theorem setextHeading_rest
    (isParsed : setextHeading inlines references lines parts after = some parsed) :
    parsed.rest <:+ after := by
  unfold setextHeading at isParsed
  split at isParsed
  · obtain ⟨level, _, rfl⟩ := Option.map_eq_some_iff.mp isParsed
    exact List.suffix_cons _ _
  · exact absurd isParsed (by simp)

theorem parseParagraph_rest
    (isParsed : parseParagraph inlines references (line :: rest) = some parsed) :
    parsed.rest <:+ rest := by
  have leaves : (collectParagraph [] false (line :: rest)).1 = [] ∨
      (collectParagraph [] false (line :: rest)).2 <:+ rest := by
    rw [collectParagraph]
    split
    · simp
    · exact Or.inr (collectParagraph_suffix _ _ _)
  unfold parseParagraph at isParsed
  dsimp only at isParsed
  split at isParsed
  · exact absurd isParsed (by simp)
  · rename_i nonempty
    have left := leaves.resolve_left nonempty
    split at isParsed
    · rename_i heading isHeading
      obtain rfl := Option.some.inj isParsed
      exact (setextHeading_rest isHeading).trans left
    · split at isParsed
      · exact absurd isParsed (by simp)
      · obtain rfl := Option.some.inj isParsed
        exact left

theorem leafBeforeLists_rest
    (isLeaf : leafBeforeLists inlines references (line :: rest) = some parsed) :
    parsed.rest <:+ rest := by
  simp only [leafBeforeLists, Option.or_eq_some_iff] at isLeaf
  rcases isLeaf with ((fenced | ⟨_, indented⟩) | ⟨_, thematic⟩) | ⟨_, table⟩
  · exact parseFencedCode_rest fenced
  · exact parseIndentedCode_rest indented
  · exact parseThematicBreak_rest thematic
  · exact parseTable_rest table

theorem leafAfterLists_rest
    (isLeaf : leafAfterLists inlines references (line :: rest) = some parsed) :
    parsed.rest <:+ rest := by
  rcases Option.or_eq_some_iff.mp isLeaf with heading | ⟨_, paragraph⟩
  · exact parseAtxHeading_rest heading
  · exact parseParagraph_rest paragraph

theorem collectBlockQuote_suffix (lines : List SourceLine) :
    (collectBlockQuote lines).2 <:+ lines := by
  induction lines with
  | nil => exact List.suffix_refl _
  | cons line rest ih =>
    rw [collectBlockQuote]
    split
    · exact ih.trans (List.suffix_cons _ _)
    · split
      · exact ih.trans (List.suffix_cons _ _)
      · exact List.suffix_refl _

theorem stripBlockQuoteMarker_length {line : Text} (isQuote : isBlockQuoteLine line = true) :
    (stripBlockQuoteMarker line).length < line.length := by
  have marker : (line)[skipUpToThreeSpacesIndex line]? = some (unit '>') := of_decide_eq_true isQuote
  have bound : skipUpToThreeSpacesIndex line < line.length :=
    (List.getElem?_eq_some_iff.mp marker).1
  simp only [stripBlockQuoteMarker, marker, if_true, List.length_drop]
  split
  · omega
  · omega

theorem collectBlockQuote_size (lines : List SourceLine) :
    partsSize (collectBlockQuote lines).1 ≤ linesSize lines := by
  induction lines with
  | nil => exact le_refl _
  | cons line rest ih =>
    rw [collectBlockQuote]
    split
    · rename_i isQuote
      have shorter := stripBlockQuoteMarker_length isQuote
      simp only [partsSize_cons, linesSize_cons]
      omega
    · split
      · simp only [partsSize_cons, linesSize_cons, stripUpToThreeSpaces, List.length_drop]
        omega
      · simp

theorem blockQuoteContent_length (parts : List Text) :
    (blockQuoteContent parts).length ≤ (joinLines parts).length := by
  rw [blockQuoteContent]
  split
  · simp
  · exact le_refl _

theorem blockQuoteContent_small (isQuote : isBlockQuoteLine line.text = true) :
    (blockQuoteContent (collectBlockQuote (line :: rest)).1).length + 2 ≤
      linesSize (line :: rest) := by
  have shorter := stripBlockQuoteMarker_length isQuote
  have size := collectBlockQuote_size rest
  have content := blockQuoteContent_length (collectBlockQuote (line :: rest)).1
  rw [collectBlockQuote, if_pos isQuote] at content ⊢
  have joined := length_joinLines (stripBlockQuoteMarker line.text :: (collectBlockQuote rest).1)
    (by simp)
  simp only [partsSize_cons] at joined
  rw [linesSize_cons]
  dsimp only at content ⊢
  omega

theorem parseBlockQuote_rest {calls : Calls ν} {depth : Nat}
    (isDone : parseBlockQuote calls inlines depth (line :: rest) = .done (some parsed)) :
    parsed.rest <:+ rest := by
  unfold parseBlockQuote at isDone
  dsimp only at isDone
  split at isDone
  · exact absurd isDone (by simp)
  · rename_i isQuote
    have left : (collectBlockQuote (line :: rest)).2 <:+ rest := by
      rw [collectBlockQuote, if_pos (by simpa using isQuote)]
      exact collectBlockQuote_suffix rest
    split at isDone
    · obtain rfl := Option.some.inj (Outcome.done.inj isDone)
      exact left
    · obtain ⟨document, _, isParsed⟩ := bind_eq_done_iff.mp isDone
      obtain rfl := Option.some.inj (Outcome.done.inj isParsed)
      exact left

theorem collectListContinuation_suffix (lines : List SourceLine) :
    (collectListContinuation firstMarker lines).2 <:+ lines := by
  induction lines with
  | nil => exact List.suffix_refl _
  | cons line rest ih =>
    rw [collectListContinuation]
    split
    · exact List.suffix_refl _
    · exact ih.trans (List.suffix_cons _ _)

theorem collectListContinuation_size (firstMarker : ParsedListMarker)
    (lines : List SourceLine) :
    partsSize (collectListContinuation firstMarker lines).1 ≤ linesSize lines := by
  induction lines with
  | nil => exact le_refl _
  | cons line rest ih =>
    rw [collectListContinuation]
    split
    · simp
    · simp only [partsSize_cons, linesSize_cons]
      split
      · simp only [List.length_nil]
        omega
      · simp only [stripListContinuationIndent, List.length_drop]
        omega

theorem leadingSpaces_le (line : Text) : leadingSpaces line ≤ line.length :=
  (List.takeWhile_prefix _).length_le

theorem stripListContinuationIndent_length {line : Text} {indent : Nat}
    (deeper : indent < leadingSpaces line) (notBlank : isBlank line = false) :
    (stripListContinuationIndent line indent).length + 2 ≤ line.length := by
  have bound := leadingSpaces_le line
  have proper : leadingSpaces line ≠ line.length := by
    intro same
    have all : line.takeWhile (· = space) = line :=
      (List.takeWhile_prefix _).eq_of_length same
    have blank : isBlank line = true := by
      refine List.all_eq_true.mpr fun unit member => ?_
      rw [← all] at member
      have isSpace := List.mem_takeWhile_imp member
      simp only [decide_eq_true_eq] at isSpace
      simp [isBlankUnit, isSpace]
    exact absurd (blank.symm.trans notBlank) (by simp)
  rw [stripListContinuationIndent, List.length_drop]
  omega

theorem collectListContinuation_small (deeper : firstMarker.indent < leadingSpaces line.text)
    (notBlank : isBlank line.text = false) :
    (joinLines (collectListContinuation firstMarker (line :: rest)).1).length + 2 ≤
      linesSize (line :: rest) := by
  have strip := stripListContinuationIndent_length deeper notBlank
  have size := collectListContinuation_size firstMarker rest
  rw [linesSize_cons, collectListContinuation]
  split
  · simp only [joinLines, List.intercalate, List.intersperse_nil, List.flatten_nil,
      List.length_nil]
    omega
  · have joined := length_joinLines (stripListContinuationIndent line.text firstMarker.indent ::
      (collectListContinuation firstMarker rest).1) (by simp)
    simp only [partsSize_cons] at joined
    dsimp only
    rw [notBlank, if_neg (by simp)]
    omega

theorem continuesList_self (marker : ParsedListMarker) : continuesList marker marker = true := by
  simp [continuesList, isSameListLevel]

theorem appendChild_done {calls : Calls ν} {content : Text} {finish : Nat}
    (isDone : appendChild calls state content after finish = .done (some next)) :
    next.rest = after ∧ next.pendingBlank = false ∧
      next.items.isEmpty = state.items.isEmpty ∧ next.finish = finish := by
  obtain ⟨document, _, isNext⟩ := bind_eq_done_iff.mp isDone
  obtain rfl := Option.some.inj (Outcome.done.inj isNext)
  exact ⟨rfl, rfl, changeLast_isEmpty _ _, rfl⟩

theorem collectListContinuation_takes (deeper : firstMarker.indent < leadingSpaces line.text) :
    (collectListContinuation firstMarker (line :: rest)).2 <:+ rest ∨
      (collectListContinuation firstMarker (line :: rest)).2 = line :: rest ∧
        (parseListMarker line.text).any (fun marker => isSameListLevel marker firstMarker) =
          true := by
  rw [collectListContinuation]
  split
  · rename_i stops
    refine Or.inr ⟨rfl, ?_⟩
    have shallow : decide (leadingSpaces line.text ≤ firstMarker.indent) = false :=
      decide_eq_false (by omega)
    simpa [shallow] using stops
  · exact Or.inl (collectListContinuation_suffix rest)

def RoundEnds (firstMarker : ParsedListMarker) (state next : ListState ν)
    (rest : List SourceLine) : Prop :=
  (next.rest <:+ rest ∨ next.rest = state.rest ∧ next.pendingBlank = false ∧
    (state.pendingBlank = true ∨ otherMarker firstMarker state = true)) ∧
    next.items.isEmpty = false

theorem listContinuation_done {calls : Calls ν} (isRest : state.rest = line :: rest)
    (other : (parseListMarker line.text).any (fun marker => continuesList marker firstMarker) =
      false)
    (isDone : listContinuation calls inlines references firstMarker state line rest =
      .done (some next)) : RoundEnds firstMarker state next rest := by
  unfold listContinuation at isDone
  split at isDone
  · rename_i blank
    split at isDone
    · exact absurd isDone (by simp)
    · obtain rfl := Option.some.inj (Outcome.done.inj isDone)
      simp only [Bool.and_eq_true, Bool.not_eq_true'] at blank
      exact ⟨Or.inl (List.suffix_refl _), blank.1⟩
  · split at isDone
    · rename_i inItem
      simp only [Bool.and_eq_true, Bool.not_eq_true', decide_eq_true_eq] at inItem
      obtain ⟨⟨notBlank, items⟩, deeper⟩ := inItem
      split at isDone
      · rename_i pending
        obtain ⟨left, noPending, still, _⟩ := appendChild_done isDone
        refine ⟨?_, still.trans items⟩
        rcases @collectListContinuation_takes _ _ rest deeper with takes | ⟨stays, _⟩
        · exact Or.inl (left ▸ takes)
        · exact Or.inr ⟨left.trans (stays.trans isRest.symm), noPending, Or.inl pending⟩
      · rename_i noPending
        dsimp only at isDone
        split at isDone
        · obtain ⟨left, _, still, _⟩ := appendChild_done isDone
          exact ⟨Or.inl (left ▸ List.suffix_refl _), still.trans items⟩
        · rename_i noQuote
          split at isDone
          · rename_i code
            obtain ⟨left, cleared, still, _⟩ := appendChild_done isDone
            refine ⟨?_, still.trans items⟩
            rcases @collectListContinuation_takes _ _ rest deeper with takes | ⟨stays, same⟩
            · exact Or.inl (left ▸ takes)
            · refine Or.inr ⟨left.trans (stays.trans isRest.symm), cleared, Or.inr ?_⟩
              obtain ⟨marker, isMarker, same⟩ := (Option.any_eq_true _ _).mp same
              rw [isMarker, Option.any_some] at other
              simp only [otherMarker, isRest, isMarker, Option.any_some, same, other, items]
              simpa [noPending, deeper, noQuote] using code
          · obtain rfl := Option.some.inj (Outcome.done.inj isDone)
            exact ⟨Or.inl (List.suffix_refl _), (changeLast_isEmpty _ _).trans items⟩
    · exact absurd isDone (by simp)

structure CallsShrink (calls : Calls ν) : Prop where
  parseListAt : ∀ references line rest parsed,
    calls.parseListAt references (line :: rest) = .done (some parsed) → parsed.rest <:+ rest
  listLoop : ∀ references firstMarker state final,
    calls.listLoop references firstMarker state = .done final → final.rest <:+ state.rest ∧
      ∀ line rest, state.rest = line :: rest → parseListMarker line.text = some firstMarker →
        state.items.isEmpty = true → final.rest <:+ rest

theorem listIteration_done {calls : Calls ν} (shrink : CallsShrink calls)
    (isDone : listIteration calls inlines references firstMarker state = .done (some next)) :
    ∃ line rest, state.rest = line :: rest ∧ RoundEnds firstMarker state next rest := by
  unfold listIteration at isDone
  split at isDone
  · exact absurd isDone (by simp)
  · rename_i line rest isRest
    refine ⟨line, rest, isRest, ?_⟩
    split at isDone
    · rename_i noMarker
      exact listContinuation_done isRest (by rw [noMarker]; rfl) isDone
    · rename_i marker isMarker
      split at isDone
      · obtain rfl := Option.some.inj (Outcome.done.inj isDone)
        exact ⟨Or.inl (List.suffix_refl _), by simp⟩
      · rename_i other
        split at isDone
        · rename_i deeper
          obtain ⟨nested, isNested, isNext⟩ := bind_eq_done_iff.mp isDone
          cases nested with
          | none => exact absurd isNext (by simp)
          | some nested =>
            obtain rfl := Option.some.inj (Outcome.done.inj isNext)
            simp only [Bool.and_eq_true, Bool.not_eq_true'] at deeper
            refine ⟨Or.inl ?_, (changeLast_isEmpty _ _).trans deeper.2⟩
            exact shrink.parseListAt _ _ _ _ (isRest ▸ isNested)
        · exact listContinuation_done isRest (by simpa [isMarker] using other) isDone

theorem RoundEnds.suffix (ends : RoundEnds firstMarker state next rest)
    (isRest : state.rest = line :: rest) : next.rest <:+ state.rest := by
  rcases ends.1 with takes | ⟨stays, _⟩
  · exact isRest ▸ takes.trans (List.suffix_cons _ _)
  · exact stays ▸ List.suffix_refl _

theorem parserCalls_shrink (stop : Breakpoint ν) (fuel : Nat) :
    CallsShrink (parserCalls inlines stop fuel) := by
  induction fuel with
  | zero =>
    exact
      { parseListAt := fun _ _ _ _ isDone => absurd isDone (by simp [parserCalls])
        listLoop := fun _ _ _ _ isDone => absurd isDone (by simp [parserCalls]) }
  | succ fuel ih =>
    refine { parseListAt := ?_, listLoop := ?_ }
    · intro references line rest parsed isDone
      change parseListAtBody _ inlines references (line :: rest) = .done (some parsed) at isDone
      unfold parseListAtBody at isDone
      split at isDone
      · exact absurd isDone (by simp)
      · rename_i firstMarker isFirst
        obtain ⟨final, isFinal, isParsed⟩ := bind_eq_done_iff.mp isDone
        obtain rfl := Option.some.inj (Outcome.done.inj isParsed)
        exact (ih.listLoop _ _ _ _ isFinal).2 line rest rfl isFirst rfl
    · intro references firstMarker state final isDone
      change listLoopBody stop _ inlines references firstMarker state = .done final at isDone
      unfold listLoopBody at isDone
      split at isDone
      · exact absurd isDone (by simp)
      · obtain ⟨next, isNext, isFinal⟩ := bind_eq_done_iff.mp isDone
        cases next with
        | none =>
          obtain rfl := Outcome.done.inj isFinal
          refine ⟨List.suffix_refl _, ?_⟩
          intro line rest isRest isFirst _
          rw [listIteration, isRest] at isNext
          dsimp only at isNext
          rw [isFirst] at isNext
          dsimp only at isNext
          rw [continuesList_self, if_pos rfl] at isNext
          exact absurd isNext (by simp)
        | some next =>
          obtain ⟨line, rest, isRest, ends⟩ := listIteration_done ih isNext
          have after := (ih.listLoop _ _ _ _ isFinal).1
          refine ⟨after.trans (ends.suffix isRest), ?_⟩
          intro first others isLines isFirst fresh
          obtain ⟨rfl, rfl⟩ := List.cons.inj (isRest.symm.trans isLines)
          refine after.trans ?_
          rw [listIteration, isRest] at isNext
          dsimp only at isNext
          rw [isFirst] at isNext
          dsimp only at isNext
          rw [continuesList_self, if_pos rfl] at isNext
          obtain rfl := Option.some.inj (Outcome.done.inj isNext)
          exact List.suffix_refl _

def pendingNeed (state : ListState ν) : Nat := if state.pendingBlank then 1 else 0

/-- Fuel with which no call runs out, by the size of its lines; a list that has an item needs more
than one that has none yet, since a nested list starts at the same line. -/
structure EnoughFuel (inlines : InlineParser ν) (fuel : Nat) : Prop where
  parseDocument : ∀ depth content, 8 * (content.length + 1) + 6 ≤ fuel →
    (parserCalls inlines otherMarker fuel).parseDocument depth content ≠ .outOfFuel
  documentLoop : ∀ depth references mayHave lines blocks, 8 * linesSize lines + 5 ≤ fuel →
    (parserCalls inlines otherMarker fuel).documentLoop depth references mayHave lines blocks ≠
      .outOfFuel
  parseListAt : ∀ references lines, 8 * linesSize lines + 3 ≤ fuel →
    (parserCalls inlines otherMarker fuel).parseListAt references lines ≠ .outOfFuel
  listStart : ∀ references firstMarker line rest (state : ListState ν),
    state.rest = line :: rest → parseListMarker line.text = some firstMarker →
      8 * linesSize state.rest + 2 ≤ fuel →
      (parserCalls inlines otherMarker fuel).listLoop references firstMarker state ≠ .outOfFuel
  listLoop : ∀ references firstMarker (state : ListState ν), state.items.isEmpty = false →
    8 * linesSize state.rest + 4 + pendingNeed state ≤ fuel →
      (parserCalls inlines otherMarker fuel).listLoop references firstMarker state ≠ .outOfFuel

theorem appendChild_enough {content : Text} {finish : Nat} (enough : EnoughFuel inlines fuel)
    (small : 8 * (content.length + 1) + 6 ≤ fuel) :
    appendChild (parserCalls inlines otherMarker fuel) state content after finish ≠ .outOfFuel :=
  bind_ne_outOfFuel (enough.parseDocument 0 content small) fun _ _ => by simp

theorem listContinuation_enough (enough : EnoughFuel inlines fuel)
    (bound : 8 * linesSize (line :: rest) + 3 ≤ fuel) :
    listContinuation (parserCalls inlines otherMarker fuel) inlines references firstMarker state
      line rest ≠ .outOfFuel := by
  unfold listContinuation
  split
  · split
    · simp
    · simp
  · split
    · rename_i inItem
      simp only [Bool.and_eq_true, Bool.not_eq_true', decide_eq_true_eq] at inItem
      obtain ⟨⟨notBlank, _⟩, deeper⟩ := inItem
      have block := @collectListContinuation_small firstMarker line rest deeper notBlank
      have strip := stripListContinuationIndent_length deeper notBlank
      have size := linesSize_cons line rest
      have ofBlock : appendChild (parserCalls inlines otherMarker fuel) state
          (joinLines (collectListContinuation firstMarker (line :: rest)).1)
          (collectListContinuation firstMarker (line :: rest)).2
          (continuationEnd (line :: rest) (collectListContinuation firstMarker (line :: rest)).2) ≠
            .outOfFuel :=
        appendChild_enough enough (by omega)
      split
      · exact ofBlock
      · dsimp only
        split
        · exact appendChild_enough enough (by omega)
        · split
          · exact ofBlock
          · simp
    · simp

theorem listIteration_enough (enough : EnoughFuel inlines fuel)
    (bound : 8 * linesSize state.rest + 3 ≤ fuel) :
    listIteration (parserCalls inlines otherMarker fuel) inlines references firstMarker state ≠
      .outOfFuel := by
  unfold listIteration
  split
  · simp
  · rename_i line rest isRest
    have lines : 8 * linesSize (line :: rest) + 3 ≤ fuel := isRest ▸ bound
    split
    · exact listContinuation_enough enough lines
    · split
      · simp
      · split
        · refine bind_ne_outOfFuel (enough.parseListAt _ _ bound) fun nested _ => ?_
          cases nested with
          | none => simp
          | some nested => simp
        · exact listContinuation_enough enough lines

theorem parseBlockQuote_enough {depth : Nat} (enough : EnoughFuel inlines fuel)
    (bound : 8 * linesSize (line :: rest) ≤ fuel) :
    parseBlockQuote (parserCalls inlines otherMarker fuel) inlines depth (line :: rest) ≠
      .outOfFuel := by
  unfold parseBlockQuote
  dsimp only
  split
  · simp
  · rename_i isQuote
    have small := @blockQuoteContent_small line rest (by simpa using isQuote)
    split
    · simp
    · exact bind_ne_outOfFuel (enough.parseDocument _ _ (by omega)) fun _ _ => by simp

theorem documentIteration_enough {depth : Nat} {mayHave : Bool} (enough : EnoughFuel inlines fuel)
    (bound : 8 * linesSize (line :: rest) + 3 ≤ fuel) :
    documentIteration (parserCalls inlines otherMarker fuel) inlines depth references mayHave line
      rest ≠ .outOfFuel := by
  unfold documentIteration
  dsimp only
  split
  · simp
  · split
    · simp
    · refine bind_ne_outOfFuel (parseBlockQuote_enough enough (by omega)) fun blockQuote _ => ?_
      cases blockQuote with
      | some parsed => simp
      | none =>
        dsimp only
        split
        · simp
        · refine bind_ne_outOfFuel (enough.parseListAt _ _ bound) fun list _ => ?_
          cases list with
          | some parsed => simp
          | none =>
            dsimp only
            split
            · simp
            · simp

theorem documentIteration_rest {calls : Calls ν} {depth : Nat} {mayHave : Bool}
    {block : Option (MarkdownBlockNode ν)} (shrink : CallsShrink calls)
    (isDone : documentIteration calls inlines depth references mayHave line rest =
      .done (block, after)) : after <:+ rest := by
  unfold documentIteration at isDone
  dsimp only at isDone
  split at isDone
  · obtain ⟨rfl, rfl⟩ := Prod.mk.inj (Outcome.done.inj isDone)
    exact List.suffix_refl _
  · split at isDone
    · obtain ⟨rfl, rfl⟩ := Prod.mk.inj (Outcome.done.inj isDone)
      exact List.suffix_refl _
    · obtain ⟨blockQuote, isQuote, isDone⟩ := bind_eq_done_iff.mp isDone
      cases blockQuote with
      | some parsed =>
        obtain ⟨rfl, rfl⟩ := Prod.mk.inj (Outcome.done.inj isDone)
        exact parseBlockQuote_rest isQuote
      | none =>
        dsimp only at isDone
        split at isDone
        · rename_i leaf isLeaf
          obtain ⟨rfl, rfl⟩ := Prod.mk.inj (Outcome.done.inj isDone)
          exact leafBeforeLists_rest isLeaf
        · obtain ⟨list, isList, isDone⟩ := bind_eq_done_iff.mp isDone
          cases list with
          | some parsed =>
            obtain ⟨rfl, rfl⟩ := Prod.mk.inj (Outcome.done.inj isDone)
            exact shrink.parseListAt _ _ _ _ isList
          | none =>
            dsimp only at isDone
            split at isDone
            · rename_i leaf isLeaf
              obtain ⟨rfl, rfl⟩ := Prod.mk.inj (Outcome.done.inj isDone)
              exact leafAfterLists_rest isLeaf
            · obtain ⟨rfl, rfl⟩ := Prod.mk.inj (Outcome.done.inj isDone)
              exact List.suffix_refl _

theorem listLoop_enough (enough : EnoughFuel inlines fuel)
    (bound : 8 * linesSize state.rest + 3 + pendingNeed state ≤ fuel)
    (afterwards : ∀ next line rest, state.rest = line :: rest → RoundEnds firstMarker state next rest →
      otherMarker firstMarker state = false →
      8 * linesSize next.rest + 4 + pendingNeed next ≤ fuel) :
    listLoopBody otherMarker (parserCalls inlines otherMarker fuel) inlines references firstMarker
      state ≠ .outOfFuel := by
  unfold listLoopBody
  split
  · simp
  · rename_i goes
    refine bind_ne_outOfFuel (listIteration_enough enough (by omega)) fun next isNext => ?_
    cases next with
    | none => simp
    | some next =>
      obtain ⟨line, rest, isRest, ends⟩ := listIteration_done (parserCalls_shrink _ _) isNext
      exact enough.listLoop _ _ _ ends.2
        (afterwards next line rest isRest ends (Bool.eq_false_iff.mpr goes))

theorem pendingNeed_le (state : ListState ν) : pendingNeed state ≤ 1 := by
  rw [pendingNeed]
  split
  · exact le_refl _
  · exact Nat.zero_le _

theorem enoughFuel (inlines : InlineParser ν) (fuel : Nat) : EnoughFuel inlines fuel := by
  induction fuel with
  | zero =>
    refine { parseDocument := ?_, documentLoop := ?_, parseListAt := ?_, listStart := ?_, listLoop := ?_ }
    all_goals intros; omega
  | succ fuel ih =>
    refine { parseDocument := ?_, documentLoop := ?_, parseListAt := ?_, listStart := ?_, listLoop := ?_ }
    · intro depth content bound
      have normalized := length_normalizeSource content
      have lines := linesSize_splitLines (normalizeSource content)
      exact bind_ne_outOfFuel (ih.documentLoop _ _ _ _ _ (by omega)) fun _ _ => by simp
    · intro depth references mayHave lines blocks bound
      cases lines with
      | nil => simp [parserCalls, documentLoopBody]
      | cons line rest =>
        refine bind_ne_outOfFuel (documentIteration_enough ih (by omega)) ?_
        rintro ⟨block, after⟩ isDone
        have smaller := @linesSize_lt line _ _
          (documentIteration_rest (parserCalls_shrink _ _) isDone)
        exact ih.documentLoop _ _ _ _ _ (by omega)
    · intro references lines bound
      change parseListAtBody _ inlines references lines ≠ .outOfFuel
      unfold parseListAtBody
      split
      · simp
      · rename_i firstMarker isFirst
        cases lines with
        | nil => exact absurd isFirst (by simp)
        | cons line rest =>
          exact bind_ne_outOfFuel (ih.listStart _ _ line rest _ rfl isFirst (by dsimp only; omega))
            fun _ _ => by simp
    · intro references firstMarker line rest state isRest isFirst bound
      change listLoopBody otherMarker _ inlines references firstMarker state ≠ .outOfFuel
      unfold listLoopBody
      split
      · simp
      · rw [listIteration, isRest]
        dsimp only
        rw [isFirst]
        dsimp only
        rw [continuesList_self, if_pos rfl]
        have size := linesSize_cons line rest
        rw [isRest] at bound
        refine ih.listLoop _ _ _ (by simp) ?_
        dsimp only [pendingNeed]
        simp only [Bool.false_eq_true, if_false]
        omega
    · intro references firstMarker state items bound
      refine listLoop_enough ih ?_ ?_
      · omega
      · intro next line rest isRest ends goes
        rcases ends.1 with takes | ⟨stays, noPending, pending⟩
        · have smaller := @linesSize_lt line _ _ takes
          have pendingNext := pendingNeed_le next
          rw [isRest] at bound
          omega
        · have pending := pending.resolve_right (by simp [goes])
          simp only [pendingNeed, pending, noPending, stays, if_true] at bound ⊢
          simp only [Bool.false_eq_true, if_false]
          omega

theorem parseDocument_stuck {content : Text}
    (stops : (parserCalls inlines otherMarker fuel).parseDocument 0 content = .stopped)
    (more : Nat) (document : ParsedDocument ν) :
    parseDocument inlines more content ≠ .done document := by
  intro isDone
  have stopsLater : (parserCalls inlines otherMarker (max fuel more)).parseDocument 0 content =
      .stopped := by
    rcases parseDocument_mono (Nat.le_max_left fuel more) with isOut | same
    · exact absurd (isOut.symm.trans stops) (by simp)
    · exact same.symm.trans stops
  have doneLater := (parseDocument_mono (Nat.le_max_right fuel more)).eq_done isDone
  rcases (parserCalls_stopsFirst (max fuel more)).parseDocument 0 content with same | ⟨_, isOut⟩
  · exact absurd (stopsLater.symm.trans (same.trans doneLater)) (by simp)
  · exact absurd (isOut.symm.trans doneLater) (by simp)

theorem parseDocument_of_not_stopped (content : Text)
    (goes : ∀ fuel, (parserCalls inlines otherMarker fuel).parseDocument 0 content ≠ .stopped) :
    ∃ fuel document, parseDocument inlines fuel content = .done document := by
  have enough := (enoughFuel inlines (8 * (content.length + 1) + 6)).parseDocument 0 content
    (le_refl _)
  refine ⟨8 * (content.length + 1) + 6, ?_⟩
  rcases (parserCalls_stopsFirst _).parseDocument 0 content with same | ⟨isStopped, _⟩
  · cases ends : (parserCalls inlines otherMarker (8 * (content.length + 1) + 6)).parseDocument 0
      content with
    | done document => exact ⟨document, same.symm.trans ends⟩
    | stopped => exact absurd ends (goes _)
    | outOfFuel => exact absurd ends enough
  · exact absurd isStopped (goes _)

def ListState.Advances (state next : ListState ν) : Prop :=
  next.rest.length < state.rest.length ∨
    next.rest = state.rest ∧ state.pendingBlank = true ∧ next.pendingBlank = false

theorem listIteration_advances {calls : Calls ν} (shrink : CallsShrink calls)
    (isDone : listIteration calls inlines references firstMarker state = .done (some next)) :
    state.Advances next ↔ otherMarker firstMarker state = false := by
  constructor
  · intro advances
    by_contra stuck
    have stuck := eq_true_of_ne_false stuck
    rw [listIteration_otherMarker stuck] at isDone
    obtain ⟨same, _, _⟩ := appendChild_done isDone
    obtain ⟨_, _, _, _, _, _, _, _, noPending, _⟩ := otherMarker_line stuck
    rcases advances with shorter | ⟨_, pending, _⟩
    · rw [same] at shorter
      omega
    · exact absurd (pending.symm.trans noPending) (by simp)
  · intro goes
    obtain ⟨line, rest, isRest, ends⟩ := listIteration_done shrink isDone
    rcases ends.1 with takes | ⟨stays, noPending, pending⟩
    · refine Or.inl ?_
      have shorter := takes.length_le
      rw [isRest, List.length_cons]
      omega
    · exact Or.inr ⟨stays, pending.resolve_right (by simp [goes]), noPending⟩

/-- The parser returns just where no list loop that it comes to meets such a line; a round of a
list advances just where it does not meet one, and every round of the document takes a line. -/
theorem parseDocument_returns_iff (inlines : InlineParser ν) (content : Text) :
    ((∃ fuel document, parseDocument inlines fuel content = .done document) ↔
      ∀ fuel, (parserCalls inlines otherMarker fuel).parseDocument 0 content ≠ .stopped) ∧
    (∀ fuel references firstMarker state next,
      listIteration (parserCalls inlines neverStop fuel) inlines references firstMarker state =
          .done (some next) →
        (state.Advances next ↔ otherMarker firstMarker state = false)) ∧
    ∀ fuel depth references mayHave line rest block after,
      documentIteration (parserCalls inlines neverStop fuel) inlines depth references mayHave line
          rest = .done (block, after) → after.length < (line :: rest).length := by
  refine ⟨⟨?_, parseDocument_of_not_stopped content⟩, ?_, ?_⟩
  · rintro ⟨more, document, isDone⟩ fuel stops
    exact parseDocument_stuck stops more document isDone
  · intro fuel references firstMarker state next isDone
    exact listIteration_advances (parserCalls_shrink _ _) isDone
  · intro fuel depth references mayHave line rest block after isDone
    have shorter := (documentIteration_rest (parserCalls_shrink _ _) isDone).length_le
    rw [List.length_cons]
    omega

def plainInlines : InlineParser Text where
  parseInlines := fun text _ => [text]
  normalizeReferenceLabel := id

def markersOfTwoKinds : Text := units "- a\n *     b"

theorem parseDocument_never_returns :
    ¬∃ fuel document, parseDocument plainInlines fuel markersOfTwoKinds = .done document := by
  have stops : (match (parserCalls plainInlines otherMarker 8).parseDocument 0
      markersOfTwoKinds with
    | .stopped => true
    | _ => false) = true := by
    decide +kernel
  rintro ⟨fuel, document, isDone⟩
  refine @parseDocument_stuck _ _ 8 _ ?_ fuel document isDone
  split at stops
  · assumption
  · exact absurd stops (by simp)

end Metidos.Markdown
