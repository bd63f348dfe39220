import Metidos.Markdown.ParserProgress

/-!
The blocks of a document against its content: each block is the piece of the content that its
parser took, in order, and what stands between the blocks is blank or defines a reference.
-/

namespace Metidos.Markdown

open Outcome

variable {ν : Type} {inlines : InlineParser ν} {references : LinkReferenceDefinitions}
  {firstMarker : ParsedListMarker} {state next : ListState ν} {stop : Breakpoint ν}
  {content : Text} {line : SourceLine} {lines taken rest after : List SourceLine}
  {parts : List Text} {parsed : Parsed ν} {block : MarkdownBlockNode ν}
  {blocks : List (MarkdownBlockNode ν)} {kind : BlockKind} {calls : Calls ν}

def slice (text : Text) (start finish : Nat) : Text := (text.drop start).take (finish - start)

def SourceLine.LiesIn (line : SourceLine) (block : MarkdownBlockNode ν) : Prop :=
  block.base.start ≤ line.start ∧ line.finish ≤ block.base.finish

/-- The blocks are pieces of the content in order, and what they leave out of the lines has no
text or defines a reference. -/
structure Covers (content : Text) (lines : List SourceLine) (blocks : List (MarkdownBlockNode ν)) :
    Prop where
  starts : ∀ block ∈ blocks, ∃ line ∈ lines, block.base.start = line.start
  proper : ∀ block ∈ blocks, block.base.start ≤ block.base.finish
  ordered : blocks.Pairwise fun earlier later => earlier.base.finish < later.base.start
  raw : ∀ block ∈ blocks, block.base.raw = slice content block.base.start block.base.finish
  ids : ∀ block ∈ blocks, ∃ kind, block.base.id = .block kind block.base.start
  left : ∀ line ∈ lines, (∃ unit ∈ line.text, isSpaceUnit unit = false) →
    (∀ block ∈ blocks, ¬line.LiesIn block) →
      (parseLinkReferenceDefinitionLine line.text).isSome = true

def Placed (content : Text) : List SourceLine → Prop
  | [] => True
  | line :: rest =>
    content.drop line.start = sourceSlice (line :: rest) ∧
      line.finish = line.start + line.text.length ∧
      (∀ next ∈ rest.head?, next.start = line.finish + 1) ∧ Placed content rest

theorem sourceSlice_cons_cons (line next : SourceLine) (rest : List SourceLine) :
    sourceSlice (line :: next :: rest) = line.text ++ newline :: sourceSlice (next :: rest) := by
  simp [sourceSlice, joinLines, List.intercalate]

theorem sourceSlice_front (taken after : List SourceLine) :
    sourceSlice taken <+: sourceSlice (taken ++ after) := by
  induction taken with
  | nil => exact List.nil_prefix
  | cons line taken ih =>
    cases taken with
    | nil =>
      cases after with
      | nil => exact List.prefix_refl _
      | cons next after =>
        rw [List.singleton_append, sourceSlice_cons_cons]
        simp [sourceSlice, joinLines, List.intercalate]
    | cons next taken =>
      obtain ⟨tail, same⟩ := ih
      refine ⟨tail, ?_⟩
      rw [List.cons_append, List.cons_append, sourceSlice_cons_cons, sourceSlice_cons_cons,
        List.append_assoc, List.cons_append, same]
      rfl

theorem splitLinesFrom_first (start : Nat) (current source : Text) :
    ∃ line rest, splitLinesFrom start current source = line :: rest ∧ line.start = start := by
  induction source generalizing current with
  | nil => exact ⟨_, _, rfl, rfl⟩
  | cons unit rest ih =>
    rw [splitLinesFrom]
    split
    · exact ⟨_, _, rfl, rfl⟩
    · exact ih _

theorem sourceSlice_splitLinesFrom (start : Nat) (current source : Text) :
    sourceSlice (splitLinesFrom start current source) = current ++ source := by
  induction source generalizing start current with
  | nil => simp [splitLinesFrom, sourceSlice, joinLines, List.intercalate]
  | cons unit rest ih =>
    rw [splitLinesFrom]
    split
    · rename_i isNewline
      obtain ⟨next, others, isNext, _⟩ :=
        splitLinesFrom_first (start + current.length + 1) [] rest
      have later := ih (start + current.length + 1) []
      rw [isNext] at later ⊢
      rw [sourceSlice_cons_cons, later, isNewline]
      rfl
    · rw [ih, List.append_assoc]
      rfl

theorem splitLinesFrom_placed (start : Nat) (current source : Text)
    (here : content.drop start = current ++ source) :
    Placed content (splitLinesFrom start current source) := by
  induction source generalizing start current with
  | nil =>
    have whole := sourceSlice_splitLinesFrom start current []
    exact ⟨here.trans whole.symm, rfl, by simp, trivial⟩
  | cons unit rest ih =>
    have whole := sourceSlice_splitLinesFrom start current (unit :: rest)
    rw [splitLinesFrom] at whole ⊢
    split
    · rename_i isNewline
      rw [if_pos isNewline] at whole
      have later : content.drop (start + current.length + 1) = [] ++ rest := by
        rw [← List.drop_drop, ← List.drop_drop, here, List.drop_left]
        rfl
      refine ⟨here.trans whole.symm, rfl, ?_, ih _ _ later⟩
      obtain ⟨next, others, isNext, isStart⟩ :=
        splitLinesFrom_first (start + current.length + 1) [] rest
      intro first isFirst
      rw [isNext] at isFirst
      obtain rfl := Option.some.inj isFirst
      exact isStart
    · refine ih _ _ ?_
      rw [here, List.append_assoc]
      rfl

theorem splitLines_placed (content : Text) : Placed content (splitLines content) := by
  rw [splitLines]
  split
  · trivial
  · exact splitLinesFrom_placed 0 [] content rfl

theorem Placed.le (placed : Placed content lines) : ∀ line ∈ lines, line.start ≤ line.finish := by
  induction lines with
  | nil => simp
  | cons first rest ih =>
    obtain ⟨_, isFinish, _, later⟩ := placed
    intro line member
    rcases List.mem_cons.mp member with rfl | member
    · omega
    · exact ih later line member

theorem Placed.pairwise (placed : Placed content lines) :
    lines.Pairwise fun earlier later => earlier.finish < later.start := by
  induction lines with
  | nil => exact List.Pairwise.nil
  | cons first rest ih =>
    have ordered := ih placed.2.2.2
    refine List.pairwise_cons.mpr ⟨?_, ordered⟩
    cases rest with
    | nil => simp
    | cons next rest =>
      have isNext := placed.2.2.1 next rfl
      have proper := placed.2.2.2.le next List.mem_cons_self
      intro later member
      rcases List.mem_cons.mp member with rfl | member
      · omega
      · have after := (List.pairwise_cons.mp ordered).1 later member
        omega

theorem Placed.append_right (placed : Placed content (taken ++ after)) : Placed content after := by
  induction taken with
  | nil => exact placed
  | cons line taken ih => exact ih placed.2.2.2

theorem Placed.length {last : SourceLine} (placed : Placed content (line :: rest ++ after))
    (isLast : (line :: rest).getLast? = some last) :
    last.finish = line.start + (sourceSlice (line :: rest)).length := by
  induction rest generalizing line with
  | nil =>
    obtain rfl := Option.some.inj isLast
    simpa [sourceSlice, joinLines, List.intercalate] using placed.2.1
  | cons next rest ih =>
    have isNext := placed.2.2.1 next rfl
    have isFinish := placed.2.1
    have later := ih placed.2.2.2 (by simpa using isLast)
    rw [sourceSlice_cons_cons, List.length_append, List.length_cons]
    omega

theorem Placed.slice {last : SourceLine} (placed : Placed content (line :: rest ++ after))
    (isLast : (line :: rest).getLast? = some last) :
    sourceSlice (line :: rest) = slice content line.start last.finish := by
  rw [Markdown.slice, placed.1, placed.length isLast, Nat.add_sub_cancel_left]
  exact List.prefix_iff_eq_take.mp (sourceSlice_front _ _)

theorem consumedLines_append (taken after : List SourceLine) :
    consumedLines (taken ++ after) after = taken := by
  simp [consumedLines]

theorem Covers.cons (placed : Placed content (line :: rest)) (left : after <:+ rest)
    (isBase : block.base = baseBlock kind (line :: rest) after)
    (covers : Covers content after blocks) : Covers content (line :: rest) (block :: blocks) := by
  obtain ⟨middle, rfl⟩ := left
  have shape : line :: (middle ++ after) = line :: middle ++ after := rfl
  obtain ⟨last, isLast⟩ := Option.isSome_iff_exists.mp
    (List.getLast?_isSome.mpr (List.cons_ne_nil line middle))
  have base : block.base =
      { id := .block kind line.start
        raw := sourceSlice (line :: middle)
        start := line.start
        finish := last.finish } := by
    rw [isBase, shape, baseBlock, consumedLines_append, isLast]
    rfl
  obtain ⟨inside, _, across⟩ := List.pairwise_append.mp (shape ▸ placed.pairwise)
  obtain ⟨init, isInit⟩ : ∃ init, line :: middle = init ++ [last] :=
    List.getLast?_eq_some_iff.mp isLast
  have lastMember : last ∈ line :: middle := List.mem_of_getLast? isLast
  have first : ∀ inner ∈ line :: middle, line.start ≤ inner.start := by
    intro inner member
    rcases List.mem_cons.mp member with rfl | member
    · exact le_refl _
    · have later := (List.pairwise_cons.mp inside).1 inner member
      have proper := placed.le line List.mem_cons_self
      omega
  have final : ∀ inner ∈ line :: middle, inner.finish ≤ last.finish := by
    intro inner member
    have proper := placed.le last (List.mem_append_left after lastMember)
    rw [isInit] at inside member
    rcases List.mem_append.mp member with earlier | isEnd
    · have before := (List.pairwise_append.mp inside).2.2 inner earlier last (by simp)
      omega
    · rw [List.mem_singleton.mp isEnd]
  have proper : line.start ≤ last.finish :=
    (placed.le line List.mem_cons_self).trans (final line List.mem_cons_self)
  have later : ∀ other ∈ blocks, last.finish < other.base.start := by
    intro other member
    obtain ⟨second, isLater, isStart⟩ := covers.starts other member
    rw [isStart]
    exact across last lastMember second isLater
  constructor
  · intro other member
    rcases List.mem_cons.mp member with rfl | member
    · exact ⟨line, List.mem_cons_self, by rw [base]⟩
    · obtain ⟨second, isLater, isStart⟩ := covers.starts other member
      exact ⟨second, List.mem_append_right (line :: middle) isLater, isStart⟩
  · intro other member
    rcases List.mem_cons.mp member with rfl | member
    · rw [base]
      exact proper
    · exact covers.proper other member
  · refine List.pairwise_cons.mpr ⟨fun other member => ?_, covers.ordered⟩
    rw [base]
    exact later other member
  · intro other member
    rcases List.mem_cons.mp member with rfl | member
    · rw [base]
      exact Placed.slice placed isLast
    · exact covers.raw other member
  · intro other member
    rcases List.mem_cons.mp member with rfl | member
    · exact ⟨kind, by rw [base]⟩
    · exact covers.ids other member
  · intro inner member hasText outside
    rcases List.mem_append.mp (shape ▸ member) with isTaken | isLater
    · refine absurd ⟨?_, ?_⟩ (outside block List.mem_cons_self)
      · rw [base]
        exact first inner isTaken
      · rw [base]
        exact final inner isTaken
    · exact covers.left inner isLater hasText fun other isOther =>
        outside other (List.mem_cons_of_mem _ isOther)

theorem Covers.skip (covers : Covers content rest blocks)
    (skipped : (∃ unit ∈ line.text, isSpaceUnit unit = false) →
      (parseLinkReferenceDefinitionLine line.text).isSome = true) :
    Covers content (line :: rest) blocks where
  starts := fun block member =>
    let ⟨first, isLater, isStart⟩ := covers.starts block member
    ⟨first, List.mem_cons_of_mem _ isLater, isStart⟩
  proper := covers.proper
  ordered := covers.ordered
  raw := covers.raw
  ids := covers.ids
  left := by
    intro other member hasText outside
    rcases List.mem_cons.mp member with rfl | member
    · exact skipped hasText
    · exact covers.left other member hasText outside

def Parsed.Spans (lines : List SourceLine) (parsed : Parsed ν) : Prop :=
  ∃ kind, parsed.block.base = baseBlock kind lines parsed.rest

theorem parseFencedCode_spans (isParsed : parseFencedCode lines = some parsed) :
    parsed.Spans lines := by
  unfold parseFencedCode at isParsed
  split at isParsed
  · exact absurd isParsed (by simp)
  · split at isParsed
    · exact absurd isParsed (by simp)
    · split at isParsed
      · exact absurd isParsed (by simp)
      · split at isParsed
        · exact absurd isParsed (by simp)
        · obtain rfl := Option.some.inj isParsed
          exact ⟨.code, rfl⟩

theorem parseIndentedCode_spans (isParsed : parseIndentedCode lines = some parsed) :
    parsed.Spans lines := by
  unfold parseIndentedCode at isParsed
  split at isParsed
  · exact absurd isParsed (by simp)
  · split at isParsed
    · obtain rfl := Option.some.inj isParsed
      exact ⟨.code, rfl⟩
    · exact absurd isParsed (by simp)

theorem parseThematicBreak_spans (isParsed : parseThematicBreak lines = some parsed) :
    parsed.Spans lines := by
  unfold parseThematicBreak at isParsed
  split at isParsed
  · exact absurd isParsed (by simp)
  · split at isParsed
    · obtain rfl := Option.some.inj isParsed
      exact ⟨.thematicBreak, rfl⟩
    · exact absurd isParsed (by simp)

theorem parseTable_spans (isParsed : parseTable inlines references lines = some parsed) :
    parsed.Spans lines := by
  unfold parseTable at isParsed
  split at isParsed
  · split at isParsed
    · exact absurd isParsed (by simp)
    · dsimp only at isParsed
      split at isParsed
      · exact absurd isParsed (by simp)
      · obtain rfl := Option.some.inj isParsed
        exact ⟨.table, rfl⟩
  · exact absurd isParsed (by simp)

theorem parseAtxHeading_spans (isParsed : parseAtxHeading inlines references lines = some parsed) :
    parsed.Spans lines := by
  unfold parseAtxHeading at isParsed
  split at isParsed
  · exact absurd isParsed (by simp)
  · obtain ⟨heading, isHeading, rfl⟩ := Option.map_eq_some_iff.mp isParsed
    obtain ⟨found, _, rfl⟩ := Option.map_eq_some_iff.mp isHeading
    exact ⟨.heading, rfl⟩

theorem parseParagraph_spans (isParsed : parseParagraph inlines references lines = some parsed) :
    parsed.Spans lines := by
  unfold parseParagraph at isParsed
  dsimp only at isParsed
  split at isParsed
  · exact absurd isParsed (by simp)
  · split at isParsed
    · rename_i heading isHeading
      obtain rfl := Option.some.inj isParsed
      unfold setextHeading at isHeading
      split at isHeading
      · obtain ⟨level, _, rfl⟩ := Option.map_eq_some_iff.mp isHeading
        exact ⟨.heading, rfl⟩
      · exact absurd isHeading (by simp)
    · split at isParsed
      · exact absurd isParsed (by simp)
      · obtain rfl := Option.some.inj isParsed
        exact ⟨.paragraph, rfl⟩

theorem parseBlockQuote_spans {depth : Nat}
    (isDone : parseBlockQuote calls inlines depth lines = .done (some parsed)) :
    parsed.Spans lines := by
  unfold parseBlockQuote at isDone
  split at isDone
  · exact absurd isDone (by simp)
  · split at isDone
    · exact absurd isDone (by simp)
    · dsimp only at isDone
      split at isDone
      · obtain rfl := Option.some.inj (Outcome.done.inj isDone)
        exact ⟨.blockquote, rfl⟩
      · obtain ⟨document, _, isParsed⟩ := bind_eq_done_iff.mp isDone
        obtain rfl := Option.some.inj (Outcome.done.inj isParsed)
        exact ⟨.blockquote, rfl⟩

theorem leafBeforeLists_spans (isLeaf : leafBeforeLists inlines references lines = some parsed) :
    parsed.Spans lines := by
  simp only [leafBeforeLists, Option.or_eq_some_iff] at isLeaf
  rcases isLeaf with ((fenced | ⟨_, indented⟩) | ⟨_, thematic⟩) | ⟨_, table⟩
  · exact parseFencedCode_spans fenced
  · exact parseIndentedCode_spans indented
  · exact parseThematicBreak_spans thematic
  · exact parseTable_spans table

theorem leafAfterLists_spans (isLeaf : leafAfterLists inlines references lines = some parsed) :
    parsed.Spans lines := by
  rcases Option.or_eq_some_iff.mp isLeaf with heading | ⟨_, paragraph⟩
  · exact parseAtxHeading_spans heading
  · exact parseParagraph_spans paragraph

theorem collectParagraph_front (parts : List Text) (sawBacktick : Bool)
    (lines : List SourceLine) : parts <+: (collectParagraph parts sawBacktick lines).1 := by
  induction lines generalizing parts sawBacktick with
  | nil => exact List.prefix_refl _
  | cons line rest ih =>
    rw [collectParagraph]
    split
    · split
      · exact (List.prefix_append _ _).trans (ih _ _)
      · exact List.prefix_refl _
    · split
      · exact List.prefix_refl _
      · exact (List.prefix_append _ _).trans (ih _ _)

theorem isSpaceUnit_of_blank {unit : Nat} (blank : isBlankUnit unit = true) :
    isSpaceUnit unit = true := by
  simp only [isBlankUnit, Bool.or_eq_true, decide_eq_true_eq] at blank
  rcases blank with rfl | rfl <;> decide

theorem trimEnd_eq_nil {text : Text} (empty : trimEnd text = []) :
    ∀ unit ∈ text, isSpaceUnit unit = true := by
  rw [trimEnd, List.reverse_eq_nil_iff, List.dropWhile_eq_nil_iff] at empty
  exact fun unit member => empty unit (List.mem_reverse.mpr member)

theorem normalizeParagraphText_eq_nil {text : Text} (empty : normalizeParagraphText text = []) :
    ∀ unit ∈ text, isSpaceUnit unit = true := by
  unfold normalizeParagraphText at empty
  dsimp only at empty
  split at empty
  · exact absurd empty (by simp)
  · split at empty
    · exact absurd empty (by simp)
    · have later := trimEnd_eq_nil empty
      intro unit member
      rw [← @List.takeWhile_append_dropWhile _ isBlankUnit text] at member
      rcases List.mem_append.mp member with leading | member
      · exact isSpaceUnit_of_blank (List.mem_takeWhile_imp leading)
      · exact later unit member

theorem mem_joinLines {part : Text} {unit : Nat} (isUnit : unit ∈ part) :
    ∀ {parts : List Text}, part ∈ parts → unit ∈ joinLines parts
  | [], member => absurd member (by simp)
  | [only], member => by
      rw [List.mem_singleton.mp member] at isUnit
      simpa [joinLines, List.intercalate] using isUnit
  | first :: second :: parts, member => by
      have joined : joinLines (first :: second :: parts) =
          first ++ newline :: joinLines (second :: parts) := by
        simp [joinLines, List.intercalate]
      rw [joined]
      rcases List.mem_cons.mp member with rfl | member
      · exact List.mem_append_left _ isUnit
      · exact List.mem_append_right _ (List.mem_cons_of_mem _ (mem_joinLines isUnit member))

theorem parseParagraph_none (notBlank : isBlank line.text = false)
    (isNone : parseParagraph inlines references (line :: rest) = none) :
    ∀ unit ∈ line.text, isSpaceUnit unit = true := by
  have isFirst : stripUpToThreeSpaces line.text ∈
      (collectParagraph [] false (line :: rest)).1 := by
    rw [collectParagraph, notBlank, if_neg (by simp), if_neg (by simp)]
    exact (collectParagraph_front _ _ rest).subset (by simp)
  unfold parseParagraph at isNone
  dsimp only at isNone
  split at isNone
  · rename_i empty
    exact absurd isFirst (by simp [empty])
  · split at isNone
    · exact absurd isNone (by simp)
    · split at isNone
      · rename_i empty
        have spaces := normalizeParagraphText_eq_nil empty
        intro unit member
        rw [← List.take_append_drop (skipUpToThreeSpacesIndex line.text) line.text] at member
        rcases List.mem_append.mp member with leading | member
        · have indent : unit ∈ line.text.takeWhile (· = space) := by
            rw [List.prefix_iff_eq_take.mp (List.takeWhile_prefix (· = space))]
            exact List.take_subset_take_left _ (Nat.min_le_right _ _) leading
          have isSpace := List.mem_takeWhile_imp indent
          simp only [decide_eq_true_eq] at isSpace
          rw [isSpace]
          decide
        · exact spaces unit (mem_joinLines member isFirst)
      · exact absurd isNone (by simp)

def lastFinish (lines rest : List SourceLine) : Nat :=
  ((consumedLines lines rest).getLast?.map SourceLine.finish).getD 0

theorem lastFinish_after (here : line :: rest <:+ lines) (left : after <:+ rest) :
    lastFinish lines after = lastFinish (line :: rest) after := by
  obtain ⟨before, rfl⟩ := here
  obtain ⟨middle, rfl⟩ := left
  have whole : before ++ line :: (middle ++ after) = (before ++ line :: middle) ++ after := by simp
  have part : line :: (middle ++ after) = line :: middle ++ after := rfl
  rw [lastFinish, lastFinish, whole, part, consumedLines_append, consumedLines_append,
    List.getLast?_append_of_ne_nil _ (List.cons_ne_nil _ _)]

theorem lastFinish_one (here : line :: rest <:+ lines) : lastFinish lines rest = line.finish := by
  rw [lastFinish_after here (List.suffix_refl rest), lastFinish,
    show line :: rest = [line] ++ rest from rfl, consumedLines_append]
  rfl

theorem continuationEnd_after (left : after <:+ rest) :
    continuationEnd (line :: rest) after = lastFinish (line :: rest) after := by
  obtain ⟨middle, rfl⟩ := left
  obtain ⟨last, isLast⟩ := Option.isSome_iff_exists.mp
    (List.getLast?_isSome.mpr (List.cons_ne_nil line middle))
  rw [continuationEnd, lastFinish, show line :: (middle ++ after) = line :: middle ++ after from rfl,
    consumedLines_append, isLast]
  rfl

def TakesNext (firstMarker : ParsedListMarker) (state : ListState ν) : Prop :=
  ∃ line rest marker, state.rest = line :: rest ∧ parseListMarker line.text = some marker ∧
    (continuesList marker firstMarker = true ∨
      isSameListLevel marker firstMarker = true ∧ state.items.isEmpty = false ∧
        firstMarker.indent < leadingSpaces line.text)

structure EndsAt (lines : List SourceLine) (firstMarker : ParsedListMarker)
    (state : ListState ν) : Prop where
  here : state.rest <:+ lines
  finish : state.finish = lastFinish lines state.rest ∨ TakesNext firstMarker state

theorem appendChild_ne_none {text : Text} {finish : Nat} :
    appendChild calls state text after finish ≠ .done none := by
  intro isDone
  obtain ⟨document, _, isNone⟩ := bind_eq_done_iff.mp isDone
  exact absurd isNone (by simp)

theorem takesNext_goes (takes : TakesNext firstMarker state) :
    listIteration calls inlines references firstMarker state ≠ .done none := by
  obtain ⟨line, rest, marker, isRest, isMarker, taken⟩ := takes
  unfold listIteration
  rw [isRest]
  dsimp only
  rw [isMarker]
  dsimp only
  split
  · simp
  · rename_i other
    obtain ⟨same, items, deeper⟩ := taken.resolve_left other
    have shallow : ¬firstMarker.indent + 1 < marker.indent := by
      simp only [isSameListLevel, Bool.and_eq_true, decide_eq_true_eq] at same
      omega
    rw [decide_eq_false shallow, Bool.false_and, if_neg (by simp), listContinuation, items,
      isBlank_of_marker isMarker, if_neg (by simp), if_pos (by simpa using deeper)]
    split
    · exact appendChild_ne_none
    · dsimp only
      split
      · exact appendChild_ne_none
      · split
        · exact appendChild_ne_none
        · simp

def ListsSpan (calls : Calls ν) : Prop :=
  ∀ references line rest parsed, calls.parseListAt references (line :: rest) = .done (some parsed) →
    parsed.block.base = baseBlock .list (line :: rest) parsed.rest

theorem listContinuation_ends (here : line :: rest <:+ lines)
    (isDone : listContinuation calls inlines references firstMarker state line rest =
      .done (some next)) :
    next.finish = lastFinish lines next.rest ∨ TakesNext firstMarker next := by
  unfold listContinuation at isDone
  split at isDone
  · split at isDone
    · exact absurd isDone (by simp)
    · obtain rfl := Option.some.inj (Outcome.done.inj isDone)
      exact Or.inl (lastFinish_one here).symm
  · split at isDone
    · rename_i inItem
      simp only [Bool.and_eq_true, Bool.not_eq_true', decide_eq_true_eq] at inItem
      obtain ⟨⟨notBlank, items⟩, deeper⟩ := inItem
      have ofBlock {text : Text} (isDone : appendChild calls state text
          (collectListContinuation firstMarker (line :: rest)).2
          (continuationEnd (line :: rest) (collectListContinuation firstMarker (line :: rest)).2) =
            .done (some next)) :
          next.finish = lastFinish lines next.rest ∨ TakesNext firstMarker next := by
        obtain ⟨left, _, still, isFinish⟩ := appendChild_done isDone
        rcases @collectListContinuation_takes _ _ rest deeper with takes | ⟨stays, same⟩
        · refine Or.inl ?_
          rw [isFinish, left, continuationEnd_after takes, lastFinish_after here takes]
        · obtain ⟨marker, isMarker, same⟩ := (Option.any_eq_true _ _).mp same
          exact Or.inr ⟨line, rest, marker, left.trans stays, isMarker,
            Or.inr ⟨same, still.trans items, deeper⟩⟩
      split at isDone
      · exact ofBlock isDone
      · dsimp only at isDone
        split at isDone
        · obtain ⟨left, _, _, isFinish⟩ := appendChild_done isDone
          refine Or.inl ?_
          rw [isFinish, left, lastFinish_one here]
        · split at isDone
          · exact ofBlock isDone
          · obtain rfl := Option.some.inj (Outcome.done.inj isDone)
            exact Or.inl (lastFinish_one here).symm
    · exact absurd isDone (by simp)

theorem listIteration_ends (shrink : CallsShrink calls) (nested : ListsSpan calls)
    (ends : EndsAt lines firstMarker state)
    (isDone : listIteration calls inlines references firstMarker state = .done (some next)) :
    EndsAt lines firstMarker next := by
  obtain ⟨line, rest, isRest, round⟩ := listIteration_done shrink isDone
  have here : line :: rest <:+ lines := isRest ▸ ends.here
  refine ⟨(round.suffix isRest).trans ends.here, ?_⟩
  unfold listIteration at isDone
  rw [isRest] at isDone
  dsimp only at isDone
  split at isDone
  · exact listContinuation_ends here isDone
  · split at isDone
    · obtain rfl := Option.some.inj (Outcome.done.inj isDone)
      exact Or.inl (lastFinish_one here).symm
    · split at isDone
      · obtain ⟨inner, isInner, isNext⟩ := bind_eq_done_iff.mp isDone
        cases inner with
        | none => exact absurd isNext (by simp)
        | some inner =>
          obtain rfl := Option.some.inj (Outcome.done.inj isNext)
          have left := shrink.parseListAt _ _ _ _ isInner
          refine Or.inl ?_
          rw [lastFinish_after here left]
          exact congrArg BaseBlock.finish (nested _ _ _ _ isInner)
      · exact listContinuation_ends here isDone

structure ListsEnd (inlines : InlineParser ν) (calls : Calls ν) : Prop where
  parseListAt : ListsSpan calls
  listLoop : ∀ references firstMarker state final lines, EndsAt lines firstMarker state →
    calls.listLoop references firstMarker state = .done final →
      final.finish = lastFinish lines final.rest

theorem parserCalls_listsEnd (stop : Breakpoint ν) (fuel : Nat) :
    ListsEnd inlines (parserCalls inlines stop fuel) := by
  induction fuel with
  | zero =>
    exact
      { parseListAt := fun _ _ _ _ isDone => absurd isDone (by simp [parserCalls])
        listLoop := fun _ _ _ _ _ _ isDone => absurd isDone (by simp [parserCalls]) }
  | succ fuel ih =>
    refine { parseListAt := ?_, listLoop := ?_ }
    · intro references line rest parsed isDone
      change parseListAtBody _ inlines references (line :: rest) = .done (some parsed) at isDone
      unfold parseListAtBody at isDone
      split at isDone
      · exact absurd isDone (by simp)
      · rename_i firstMarker isFirst
        obtain ⟨final, isFinal, isParsed⟩ := bind_eq_done_iff.mp isDone
        obtain rfl := Option.some.inj (Outcome.done.inj isParsed)
        have isFinish := ih.listLoop _ _ _ _ (line :: rest)
          ⟨List.suffix_refl _, Or.inr ⟨line, rest, firstMarker, rfl, isFirst,
            Or.inl (continuesList_self firstMarker)⟩⟩ isFinal
        change { baseBlock .list (line :: rest) final.rest with finish := final.finish } =
          baseBlock .list (line :: rest) final.rest
        rw [isFinish]
        rfl
    · intro references firstMarker state final lines ends isDone
      change listLoopBody stop _ inlines references firstMarker state = .done final at isDone
      unfold listLoopBody at isDone
      split at isDone
      · exact absurd isDone (by simp)
      · obtain ⟨next, isNext, isFinal⟩ := bind_eq_done_iff.mp isDone
        cases next with
        | none =>
          obtain rfl := Outcome.done.inj isFinal
          exact ends.finish.resolve_right fun takes => takesNext_goes takes isNext
        | some next =>
          exact ih.listLoop _ _ _ _ _
            (listIteration_ends (parserCalls_shrink _ _) ih.parseListAt ends isNext) isFinal

/-- A round of the document loop makes a block of the lines that it takes, or leaves out a line
that has no text or defines a reference. -/
theorem documentIteration_covers {depth : Nat} {mayHave : Bool}
    {found : Option (MarkdownBlockNode ν)} (nested : ListsSpan calls)
    (isDone : documentIteration calls inlines depth references mayHave line rest =
      .done (found, after)) :
    (∃ block kind, found = some block ∧ block.base = baseBlock kind (line :: rest) after) ∨
      found = none ∧ after = rest ∧ ((∃ unit ∈ line.text, isSpaceUnit unit = false) →
        (parseLinkReferenceDefinitionLine line.text).isSome = true) := by
  have ofParsed {parsed : Parsed ν} (spans : parsed.Spans (line :: rest))
      (same : (some parsed.block, parsed.rest) = (found, after)) :
      ∃ block kind, found = some block ∧ block.base = baseBlock kind (line :: rest) after := by
    obtain ⟨rfl, rfl⟩ := Prod.mk.inj same
    obtain ⟨kind, isBase⟩ := spans
    exact ⟨parsed.block, kind, rfl, isBase⟩
  unfold documentIteration at isDone
  dsimp only at isDone
  split at isDone
  · rename_i blank
    obtain ⟨rfl, rfl⟩ := Prod.mk.inj (Outcome.done.inj isDone)
    refine Or.inr ⟨rfl, rfl, fun ⟨unit, member, solid⟩ => ?_⟩
    have isSpace := isSpaceUnit_of_blank (List.all_eq_true.mp blank unit member)
    exact absurd (isSpace.symm.trans solid) (by simp)
  · rename_i notBlank
    split at isDone
    · rename_i defines
      obtain ⟨rfl, rfl⟩ := Prod.mk.inj (Outcome.done.inj isDone)
      exact Or.inr ⟨rfl, rfl, fun _ => (Bool.and_eq_true_iff.mp defines).2⟩
    · obtain ⟨blockQuote, isQuote, isDone⟩ := bind_eq_done_iff.mp isDone
      cases blockQuote with
      | some parsed =>
        exact Or.inl (ofParsed (parseBlockQuote_spans isQuote) (Outcome.done.inj isDone))
      | none =>
        dsimp only at isDone
        split at isDone
        · rename_i leaf isLeaf
          exact Or.inl (ofParsed (leafBeforeLists_spans isLeaf) (Outcome.done.inj isDone))
        · obtain ⟨list, isList, isDone⟩ := bind_eq_done_iff.mp isDone
          cases list with
          | some parsed =>
            exact Or.inl (ofParsed ⟨.list, nested _ _ _ _ isList⟩ (Outcome.done.inj isDone))
          | none =>
            dsimp only at isDone
            split at isDone
            · rename_i leaf isLeaf
              exact Or.inl (ofParsed (leafAfterLists_spans isLeaf) (Outcome.done.inj isDone))
            · rename_i isNone
              obtain ⟨rfl, rfl⟩ := Prod.mk.inj (Outcome.done.inj isDone)
              refine Or.inr ⟨rfl, rfl, fun ⟨unit, member, solid⟩ => ?_⟩
              have isSpace := parseParagraph_none (eq_false_of_ne_true notBlank)
                (Option.or_eq_none_iff.mp isNone).2 unit member
              exact absurd (isSpace.symm.trans solid) (by simp)

theorem documentLoop_covers (stop : Breakpoint ν) (fuel : Nat) {depth : Nat} {mayHave : Bool}
    {final : List (MarkdownBlockNode ν)} (placed : Placed content lines)
    (isDone : (parserCalls inlines stop fuel).documentLoop depth references mayHave lines blocks =
      .done final) : ∃ added, final = blocks ++ added ∧ Covers content lines added := by
  induction fuel generalizing lines blocks with
  | zero => exact absurd isDone (by simp [parserCalls])
  | succ fuel ih =>
    change documentLoopBody _ inlines depth references mayHave lines blocks = .done final at isDone
    unfold documentLoopBody at isDone
    split at isDone
    · obtain rfl := Outcome.done.inj isDone
      exact ⟨[], (List.append_nil _).symm, by constructor <;> simp⟩
    · rename_i line rest
      obtain ⟨⟨found, after⟩, isRound, isDone⟩ := bind_eq_done_iff.mp isDone
      obtain ⟨taken, isRest⟩ := documentIteration_rest (parserCalls_shrink _ _) isRound
      have placedAfter : Placed content after := by
        have later : Placed content rest := placed.2.2.2
        rw [← isRest] at later
        exact later.append_right
      obtain ⟨added, isFinal, covers⟩ := ih placedAfter isDone
      rcases documentIteration_covers (parserCalls_listsEnd stop fuel).parseListAt isRound with
        ⟨block, kind, rfl, isBase⟩ | ⟨rfl, rfl, skipped⟩
      · refine ⟨block :: added, ?_, Covers.cons placed ⟨taken, isRest⟩ isBase covers⟩
        rw [isFinal, Option.toList_some, List.append_assoc]
        rfl
      · refine ⟨added, ?_, covers.skip skipped⟩
        rw [isFinal, Option.toList_none, List.append_nil]

theorem normalizeSource_plain {content : Text}
    (plain : ∀ unit ∈ content, unit ≠ 0x0D ∧ unit ≠ 0) : normalizeSource content = content := by
  fun_induction normalizeSource content with
  | case1 => rfl
  | case2 rest ih => exact absurd rfl (plain 0x0D List.mem_cons_self).1
  | case3 rest _ ih => exact absurd rfl (plain 0x0D List.mem_cons_self).1
  | case4 rest ih => exact absurd rfl (plain 0 List.mem_cons_self).2
  | case5 unit rest _ _ _ ih =>
    rw [ih fun later member => plain later (List.mem_cons_of_mem _ member)]

theorem Covers.ids_nodup (covers : Covers content lines blocks) :
    (blocks.map fun block => block.base.id).Nodup := by
  rw [List.Nodup, List.pairwise_map]
  refine covers.ordered.imp_of_mem fun {earlier later} isEarlier isLater before same => ?_
  obtain ⟨earlierKind, earlierId⟩ := covers.ids earlier isEarlier
  obtain ⟨laterKind, laterId⟩ := covers.ids later isLater
  have starts := (BlockId.block.inj (earlierId.symm.trans (same.trans laterId))).2
  have proper := covers.proper earlier isEarlier
  omega

/-- The blocks of a document cut its content into pieces. -/
theorem parseDocument_partitions {fuel : Nat} {content : Text} {document : ParsedDocument ν}
    (plain : ∀ unit ∈ content, unit ≠ 0x0D ∧ unit ≠ 0)
    (isDone : parseDocument inlines fuel content = .done document) :
    (∀ block ∈ document.blocks, block.base.start ≤ block.base.finish) ∧
    (document.blocks.Pairwise fun earlier later => earlier.base.finish < later.base.start) ∧
    (∀ block ∈ document.blocks,
      block.base.raw = slice content block.base.start block.base.finish) ∧
    (document.blocks.map fun block => block.base.id).Nodup ∧
    ∀ line ∈ splitLines content, (∃ unit ∈ line.text, isSpaceUnit unit = false) →
      (∀ block ∈ document.blocks, ¬line.LiesIn block) →
        (parseLinkReferenceDefinitionLine line.text).isSome = true := by
  cases fuel with
  | zero => exact absurd isDone (by simp [parseDocument, parserCalls])
  | succ fuel =>
    change parseDocumentBody _ inlines 0 content = .done document at isDone
    unfold parseDocumentBody at isDone
    dsimp only at isDone
    rw [normalizeSource_plain plain] at isDone
    obtain ⟨final, isFinal, isDocument⟩ := bind_eq_done_iff.mp isDone
    obtain rfl := Outcome.done.inj isDocument
    obtain ⟨added, rfl, covers⟩ := documentLoop_covers _ _ (splitLines_placed content) isFinal
    exact ⟨covers.proper, covers.ordered, covers.raw, covers.ids_nodup, covers.left⟩

def listAndParagraph : Text := units "- a\n- b\n  c\n\nd"

theorem parseDocument_partitions_list :
    ∃ document, parseDocument plainInlines 9 listAndParagraph = .done document ∧
      document.blocks.Pairwise fun earlier later => earlier.base.finish < later.base.start := by
  have ends : (match parseDocument plainInlines 9 listAndParagraph with
    | .done document => document.blocks.length == 2
    | _ => false) = true := by
    decide +kernel
  have plain : listAndParagraph.all (fun unit => unit ≠ 0x0D && unit ≠ 0) = true := by decide
  cases isDone : parseDocument plainInlines 9 listAndParagraph with
  | done document =>
    refine ⟨document, rfl, (parseDocument_partitions (fun unit member => ?_) isDone).2.1⟩
    simpa using List.all_eq_true.mp plain unit member
  | stopped => exact absurd ends (by simp [isDone])
  | outOfFuel => exact absurd ends (by simp [isDone])

end Metidos.Markdown
