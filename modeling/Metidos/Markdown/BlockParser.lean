import Metidos.Library.Outcome
import Metidos.Markdown.BlockText

/-!
Executable model of the block parser of `src/mainview/getdown/src/core/document.ts`, for a content
without a previous document.  The lines that are left stand for the index of the next line, calls
and rounds of the two loops take fuel, and a list loop may be stopped at chosen lines.  The proofs
live in `ParserProgress`.
-/

namespace Metidos.Markdown

structure InlineParser (ν : Type) where
  parseInlines : Text → LinkReferenceDefinitions → List ν
  normalizeReferenceLabel : Text → Text

inductive BlockKind
  | paragraph
  | heading
  | thematicBreak
  | code
  | table
  | list
  | blockquote
  deriving DecidableEq

/-- The kind with the start, or the hash of the text for a paragraph of a list item. -/
inductive BlockId
  | block (kind : BlockKind) (start : Nat)
  | listParagraph (hash : Nat)
  deriving DecidableEq

structure BaseBlock where
  id : BlockId
  raw : Text
  start : Nat
  finish : Nat
  deriving DecidableEq

structure TableCell (ν : Type) where
  text : Text
  children : List ν

mutual

inductive MarkdownBlockNode (ν : Type)
  | paragraph (base : BaseBlock) (text : Text) (children : List ν)
  | heading (base : BaseBlock) (level : Nat) (text : Text) (children : List ν)
  | thematicBreak (base : BaseBlock)
  | code (base : BaseBlock) (text : Text) (language : Option Text)
  | table (base : BaseBlock) (alignments : List TableAlignment) (header : List (TableCell ν))
      (rows : List (List (TableCell ν)))
  | list (base : BaseBlock) (ordered : Bool) (marker : Nat) (startNumber : Option Nat)
      (items : List (ListItem ν))
  | blockquote (base : BaseBlock) (blocks : List (MarkdownBlockNode ν))

/-- `task` tells whether a task is checked. -/
inductive ListItem (ν : Type)
  | item (text : Text) (children : List ν) (task : Option Bool)
      (blocks : Option (List (MarkdownBlockNode ν)))

end

def MarkdownBlockNode.base {ν : Type} : MarkdownBlockNode ν → BaseBlock
  | .paragraph base _ _ => base
  | .heading base _ _ _ => base
  | .thematicBreak base => base
  | .code base _ _ => base
  | .table base _ _ _ => base
  | .list base _ _ _ _ => base
  | .blockquote base _ => base

structure ParsedDocument (ν : Type) where
  content : Text
  blocks : List (MarkdownBlockNode ν)

structure Parsed (ν : Type) where
  block : MarkdownBlockNode ν
  rest : List SourceLine

variable {ν : Type}

def consumedLines (lines rest : List SourceLine) : List SourceLine :=
  lines.take (lines.length - rest.length)

def baseBlock (kind : BlockKind) (lines rest : List SourceLine) : BaseBlock :=
  let consumed := consumedLines lines rest
  let start := (lines.head?.map SourceLine.start).getD 0
  { id := .block kind start
    raw := sourceSlice consumed
    start
    finish := (consumed.getLast?.map SourceLine.finish).getD 0 }

def collectFence (fence minimumLength indent : Nat) :
    List SourceLine → List Text × List SourceLine
  | [] => ([], [])
  | line :: rest =>
    if isClosingCodeFence line.text fence minimumLength then ([], rest)
    else
      let (parts, after) := collectFence fence minimumLength indent rest
      (stripCodeFenceIndent line.text indent :: parts, after)

def parseFencedCode (lines : List SourceLine) : Option (Parsed ν) :=
  match lines with
  | [] => none
  | first :: rest =>
    match fenceOpener first.text with
    | none => none
    | some opener =>
      if opener.fence = backtick ∧ opener.info.contains backtick then none
      else if rest = [] ∧ opener.info = [] then none
      else
        let (parts, after) := collectFence opener.fence opener.length opener.indent rest
        let language := opener.info.takeWhile (!isSpaceUnit ·)
        some
          { block :=
              .code (baseBlock .code lines after)
                (if parts = [] then [] else joinLines parts ++ [newline])
                (if language = [] then none else some language)
            rest := after }

def collectIndented : List SourceLine → List Text × List SourceLine
  | [] => ([], [])
  | line :: rest =>
    if !isBlank line.text && !isIndentedCodeLine line.text then ([], line :: rest)
    else
      let (parts, after) := collectIndented rest
      (stripCodeIndent line.text :: parts, after)

def parseIndentedCode (lines : List SourceLine) : Option (Parsed ν) :=
  match lines with
  | [] => none
  | first :: _ =>
    if isIndentedCodeLine first.text then
      let (parts, after) := collectIndented lines
      some
        { block :=
            .code (baseBlock .code lines after)
              (joinLines (trimTrailingBlankCodeLines parts) ++ [newline]) none
          rest := after }
    else none

def parseThematicBreak (lines : List SourceLine) : Option (Parsed ν) :=
  match lines with
  | [] => none
  | line :: rest =>
    if isThematicBreakLine line.text then
      some { block := .thematicBreak (baseBlock .thematicBreak lines rest), rest }
    else none

def normalizeTableCells (inlines : InlineParser ν) (references : LinkReferenceDefinitions)
    (cells : List Text) (count : Nat) : List (TableCell ν) :=
  (List.range count).map fun index =>
    let text := (cells[index]?).getD []
    { text, children := inlines.parseInlines text references }

def collectRows (inlines : InlineParser ν) (references : LinkReferenceDefinitions)
    (columnCount : Nat) : List SourceLine → List (List (TableCell ν)) × List SourceLine
  | [] => ([], [])
  | line :: rest =>
    let text := stripUpToThreeSpaces line.text
    if isBlank text || !text.contains (unit '|') then ([], line :: rest)
    else
      let (rows, after) := collectRows inlines references columnCount rest
      (normalizeTableCells inlines references (splitTableRow text) columnCount :: rows, after)

def parseTable (inlines : InlineParser ν) (references : LinkReferenceDefinitions)
    (lines : List SourceLine) : Option (Parsed ν) :=
  match lines with
  | header :: delimiterLine :: rest =>
    if !header.text.contains (unit '|') && !delimiterLine.text.contains (unit '|') then none
    else
      let headerTexts := splitTableRow (stripUpToThreeSpaces header.text)
      let delimiterCells := splitTableRow (stripUpToThreeSpaces delimiterLine.text)
      let alignments := delimiterCells.map parseTableAlignment
      if headerTexts = [] ∨ delimiterCells = [] ∨ alignments.any Option.isNone then none
      else
        let columnCount := headerTexts.length
        let (rows, after) := collectRows inlines references columnCount rest
        some
          { block :=
              .table (baseBlock .table lines after)
                ((List.range columnCount).map fun index =>
                  ((alignments[index]?).bind id).getD .unset)
                (normalizeTableCells inlines references headerTexts columnCount) rows
            rest := after }
  | _ => none

def headingOf (inlines : InlineParser ν) (references : LinkReferenceDefinitions) (base : BaseBlock)
    (line : Text) : Option (MarkdownBlockNode ν) :=
  (atxHeading line).map fun (level, body) =>
    let text := trim (stripClosingHashes body)
    .heading base level text (inlines.parseInlines text references)

def parseAtxHeading (inlines : InlineParser ν) (references : LinkReferenceDefinitions)
    (lines : List SourceLine) : Option (Parsed ν) :=
  match lines with
  | [] => none
  | line :: rest =>
    (headingOf inlines references (baseBlock .heading lines rest) line.text).map
      fun block => { block, rest }

def interruptsParagraph (parts : List Text) (line : Text) : Bool :=
  (parts.length = 1 && (parseSetextDelimiter line).isSome) || isAtxHeadingLine line ||
    isThematicBreakLine line || isBlockQuoteLine line || isParagraphInterruptingListLine line ||
    isIndentedCodeLine line

def collectParagraph (parts : List Text) (sawBacktick : Bool) :
    List SourceLine → List Text × List SourceLine
  | [] => (parts, [])
  | line :: rest =>
    if isBlank line.text then
      if sawBacktick && parts ≠ [] && hasUnclosedCodeSpan (joinLines parts) then
        collectParagraph (parts ++ [[]]) sawBacktick rest
      else (parts, line :: rest)
    else if parts ≠ [] && interruptsParagraph parts line.text then (parts, line :: rest)
    else
      collectParagraph (parts ++ [stripUpToThreeSpaces line.text])
        (sawBacktick || line.text.contains backtick) rest

def setextHeading (inlines : InlineParser ν) (references : LinkReferenceDefinitions)
    (lines : List SourceLine) (parts : List Text) (after : List SourceLine) : Option (Parsed ν) :=
  match parts, after with
  | [part], delimiterLine :: rest =>
    (parseSetextDelimiter delimiterLine.text).map fun level =>
      let text := trim part
      { block := .heading (baseBlock .heading lines rest) level text
          (inlines.parseInlines text references)
        rest }
  | _, _ => none

def parseParagraph (inlines : InlineParser ν) (references : LinkReferenceDefinitions)
    (lines : List SourceLine) : Option (Parsed ν) :=
  let (parts, after) := collectParagraph [] false lines
  if parts = [] then none
  else
    match setextHeading inlines references lines parts after with
    | some heading => some heading
    | none =>
      let text := normalizeParagraphText (joinLines parts)
      if text = [] then none
      else
        some
          { block := .paragraph (baseBlock .paragraph lines after) text
              (inlines.parseInlines text references)
            rest := after }

def maxBlockquoteNesting : Nat := 256

@[grind =] def collectBlockQuote : List SourceLine → List Text × List SourceLine
  | [] => ([], [])
  | line :: rest =>
    if isBlockQuoteLine line.text then
      let (parts, after) := collectBlockQuote rest
      (stripBlockQuoteMarker line.text :: parts, after)
    else if !isBlank line.text then
      let (parts, after) := collectBlockQuote rest
      (stripUpToThreeSpaces line.text :: parts, after)
    else ([], line :: rest)

def blockQuoteContent (parts : List Text) : Text :=
  if trim (joinLines parts) = [] then [] else joinLines parts

def parseCappedBlockQuoteChildren (inlines : InlineParser ν) (childContent : Text) (start : Nat)
    (raw : Text) : List (MarkdownBlockNode ν) :=
  let text := normalizeParagraphText childContent
  if text = [] then []
  else
    [.paragraph
      { id := .block .paragraph start, raw := childContent, start, finish := start + raw.length }
      text (inlines.parseInlines text .empty)]

structure MutableListItem (ν : Type) where
  text : Text
  children : List ν
  task : Option Bool
  blocks : Option (List (MarkdownBlockNode ν))

def createListItem (inlines : InlineParser ν) (references : LinkReferenceDefinitions)
    (rawText : Text) : MutableListItem ν :=
  let task := parseTaskMarker rawText
  let text := (task.map TaskMarker.text).getD rawText
  match headingOf inlines references
      { id := .block .heading 0, raw := text, start := 0, finish := text.length } text with
  | some heading =>
    { text := [], children := [], task := task.map TaskMarker.checked, blocks := some [heading] }
  | none =>
    { text
      children := inlines.parseInlines text references
      task := task.map TaskMarker.checked
      blocks := none }

def appendBlock (item : MutableListItem ν) (block : MarkdownBlockNode ν) : MutableListItem ν :=
  { item with blocks := some (item.blocks.getD [] ++ [block]) }

def appendBlocks (item : MutableListItem ν) (blocks : List (MarkdownBlockNode ν)) :
    MutableListItem ν :=
  if blocks.isEmpty then item else { item with blocks := some (item.blocks.getD [] ++ blocks) }

def appendText (inlines : InlineParser ν) (references : LinkReferenceDefinitions)
    (item : MutableListItem ν) (continuation : Text) : MutableListItem ν :=
  let text := if item.text = [] then continuation else item.text ++ newline :: continuation
  { item with text, children := inlines.parseInlines text references }

def changeLast (change : MutableListItem ν → MutableListItem ν) :
    List (MutableListItem ν) → List (MutableListItem ν)
  | [] => []
  | [item] => [change item]
  | item :: items => item :: changeLast change items

def stableBlockHash (value : Text) : Nat :=
  value.foldl (fun hash unit => ((hash * 33) % 2 ^ 32) ^^^ unit) 5381

def createListParagraphBlock (inlines : InlineParser ν) (references : LinkReferenceDefinitions)
    (text : Text) : MarkdownBlockNode ν :=
  .paragraph
    { id := .listParagraph (stableBlockHash text), raw := text, start := 0, finish := text.length }
    text (inlines.parseInlines text references)

def finalizeListItem (inlines : InlineParser ν) (references : LinkReferenceDefinitions)
    (loose : Bool) (item : MutableListItem ν) : ListItem ν :=
  if !loose then .item item.text item.children item.task item.blocks
  else
    let paragraph :=
      if item.text = [] then [] else [createListParagraphBlock inlines references item.text]
    let blocks := paragraph ++ item.blocks.getD []
    .item [] [] item.task (if blocks.isEmpty then none else some blocks)

def blankBelongsToList (firstMarker : ParsedListMarker) (after : List SourceLine) : Bool :=
  match after.dropWhile fun line => isBlank line.text with
  | [] => false
  | next :: _ =>
    ((parseListMarker next.text).any fun marker => continuesList marker firstMarker) ||
      firstMarker.indent < leadingSpaces next.text

@[grind =] def collectListContinuation (firstMarker : ParsedListMarker) :
    List SourceLine → List Text × List SourceLine
  | [] => ([], [])
  | line :: rest =>
    if (parseListMarker line.text).any (fun marker => isSameListLevel marker firstMarker) ||
        !isBlank line.text && leadingSpaces line.text ≤ firstMarker.indent then
      ([], line :: rest)
    else
      let (parts, after) := collectListContinuation firstMarker rest
      ((if isBlank line.text then []
        else stripListContinuationIndent line.text firstMarker.indent) :: parts, after)

/-- `end` of `collectListContinuationBlock`: that of the last line it takes, or of the line where
it starts when it takes none. -/
def continuationEnd (lines after : List SourceLine) : Nat :=
  (((consumedLines lines after).getLast?.or lines.head?).map SourceLine.finish).getD 0

structure ListState (ν : Type) where
  items : List (MutableListItem ν)
  rest : List SourceLine
  finish : Nat
  loose : Bool
  pendingBlank : Bool

structure Calls (ν : Type) where
  parseDocument : Nat → Text → Outcome (ParsedDocument ν)
  documentLoop : Nat → LinkReferenceDefinitions → Bool → List SourceLine →
    List (MarkdownBlockNode ν) → Outcome (List (MarkdownBlockNode ν))
  parseListAt : LinkReferenceDefinitions → List SourceLine → Outcome (Option (Parsed ν))
  listLoop : LinkReferenceDefinitions → ParsedListMarker → ListState ν → Outcome (ListState ν)

def appendChild (calls : Calls ν) (state : ListState ν) (content : Text)
    (rest : List SourceLine) (finish : Nat) : Outcome (Option (ListState ν)) := do
  let childDocument ← calls.parseDocument 0 content
  pure (some
    { state with
      items := changeLast (appendBlocks · childDocument.blocks) state.items
      rest
      finish
      pendingBlank := false })

/-- The part of the loop body after the markers; `none` leaves the loop. -/
def listContinuation (calls : Calls ν) (inlines : InlineParser ν)
    (references : LinkReferenceDefinitions) (firstMarker : ParsedListMarker)
    (state : ListState ν) (line : SourceLine) (rest : List SourceLine) :
    Outcome (Option (ListState ν)) :=
  if !state.items.isEmpty && isBlank line.text then
    if !blankBelongsToList firstMarker rest then pure none
    else pure (some { state with rest, finish := line.finish, loose := true, pendingBlank := true })
  else if !isBlank line.text && !state.items.isEmpty &&
      firstMarker.indent < leadingSpaces line.text then
    if state.pendingBlank then
      let (parts, after) := collectListContinuation firstMarker (line :: rest)
      appendChild calls state (joinLines parts) after (continuationEnd (line :: rest) after)
    else
      let continuation := stripListContinuationIndent line.text firstMarker.indent
      if isBlockQuoteLine continuation then
        appendChild calls state continuation rest line.finish
      else if isFencedCodeOpener continuation || isIndentedCodeLine continuation then
        let (parts, after) := collectListContinuation firstMarker (line :: rest)
        appendChild calls state (joinLines parts) after (continuationEnd (line :: rest) after)
      else
        pure (some
          { state with
            items := changeLast (appendText inlines references · continuation) state.items
            rest
            finish := line.finish })
  else pure none

/-- The loop body of `parseListAt`; `none` leaves the loop. -/
@[grind =] def listIteration (calls : Calls ν) (inlines : InlineParser ν)
    (references : LinkReferenceDefinitions) (firstMarker : ParsedListMarker)
    (state : ListState ν) : Outcome (Option (ListState ν)) :=
  match state.rest with
  | [] => pure none
  | line :: rest =>
    match parseListMarker line.text with
    | none => listContinuation calls inlines references firstMarker state line rest
    | some marker =>
      if continuesList marker firstMarker then
        pure (some
          { state with
            items := state.items ++ [createListItem inlines references marker.text]
            rest
            finish := line.finish
            pendingBlank := false })
      else if firstMarker.indent + 1 < marker.indent && !state.items.isEmpty then do
        match ← calls.parseListAt references state.rest with
        | none => pure none
        | some nested =>
          pure (some
            { state with
              items := changeLast (appendBlock · nested.block) state.items
              rest := nested.rest
              finish := nested.block.base.finish
              pendingBlank := false })
      else listContinuation calls inlines references firstMarker state line rest

abbrev Breakpoint (ν : Type) := ParsedListMarker → ListState ν → Bool

def listLoopBody (stop : Breakpoint ν) (calls : Calls ν) (inlines : InlineParser ν)
    (references : LinkReferenceDefinitions) (firstMarker : ParsedListMarker)
    (state : ListState ν) : Outcome (ListState ν) :=
  if stop firstMarker state then .stopped
  else do
    match ← listIteration calls inlines references firstMarker state with
    | none => pure state
    | some next => calls.listLoop references firstMarker next

def listBlock (inlines : InlineParser ν) (references : LinkReferenceDefinitions)
    (lines : List SourceLine) (firstMarker : ParsedListMarker) (state : ListState ν) :
    MarkdownBlockNode ν :=
  .list { baseBlock .list lines state.rest with finish := state.finish } firstMarker.ordered
    firstMarker.marker
    (if firstMarker.ordered ∧ firstMarker.number ≠ some 1 then firstMarker.number else none)
    (state.items.map (finalizeListItem inlines references state.loose))

def parseListAtBody (calls : Calls ν) (inlines : InlineParser ν)
    (references : LinkReferenceDefinitions) (lines : List SourceLine) :
    Outcome (Option (Parsed ν)) :=
  match lines.head?.bind fun line => parseListMarker line.text with
  | none => pure none
  | some firstMarker => do
      let state ← calls.listLoop references firstMarker
        { items := []
          rest := lines
          finish := (lines.head?.map SourceLine.finish).getD 0
          loose := false
          pendingBlank := false }
      pure (some
        { block := listBlock inlines references lines firstMarker state
          rest := state.rest })

def parseBlockQuote (calls : Calls ν) (inlines : InlineParser ν) (depth : Nat)
    (lines : List SourceLine) : Outcome (Option (Parsed ν)) :=
  match lines with
  | [] => pure none
  | first :: _ =>
    if !isBlockQuoteLine first.text then pure none
    else do
      let (parts, after) := collectBlockQuote lines
      let base := baseBlock .blockquote lines after
      let childContent := blockQuoteContent parts
      if maxBlockquoteNesting ≤ depth then
        let childBlocks := parseCappedBlockQuoteChildren inlines childContent base.start base.raw
        pure (some { block := .blockquote base childBlocks, rest := after })
      else
        let childDocument ← calls.parseDocument (depth + 1) childContent
        pure (some { block := .blockquote base childDocument.blocks, rest := after })

def leafBeforeLists (inlines : InlineParser ν) (references : LinkReferenceDefinitions)
    (lines : List SourceLine) : Option (Parsed ν) :=
  (((parseFencedCode lines).or (parseIndentedCode lines)).or (parseThematicBreak lines)).or
    (parseTable inlines references lines)

def leafAfterLists (inlines : InlineParser ν) (references : LinkReferenceDefinitions)
    (lines : List SourceLine) : Option (Parsed ν) :=
  (parseAtxHeading inlines references lines).or (parseParagraph inlines references lines)

/-- What the loop body of `parseDocumentInternal` makes of the lines: the block, if there is one,
with the lines that are left. -/
def documentIteration (calls : Calls ν) (inlines : InlineParser ν) (depth : Nat)
    (references : LinkReferenceDefinitions) (mayHaveReferenceDefinitions : Bool)
    (line : SourceLine) (rest : List SourceLine) :
    Outcome (Option (MarkdownBlockNode ν) × List SourceLine) :=
  let lines := line :: rest
  if isBlank line.text then pure (none, rest)
  else if mayHaveReferenceDefinitions && (parseLinkReferenceDefinitionLine line.text).isSome then
    pure (none, rest)
  else do
    match ← parseBlockQuote calls inlines depth lines with
    | some blockQuote => pure (some blockQuote.block, blockQuote.rest)
    | none =>
      match leafBeforeLists inlines references lines with
      | some leaf => pure (some leaf.block, leaf.rest)
      | none =>
        match ← calls.parseListAt references lines with
        | some list => pure (some list.block, list.rest)
        | none =>
          match leafAfterLists inlines references lines with
          | some leaf => pure (some leaf.block, leaf.rest)
          | none => pure (none, rest)

def documentLoopBody (calls : Calls ν) (inlines : InlineParser ν) (depth : Nat)
    (references : LinkReferenceDefinitions) (mayHaveReferenceDefinitions : Bool)
    (lines : List SourceLine) (blocks : List (MarkdownBlockNode ν)) :
    Outcome (List (MarkdownBlockNode ν)) :=
  match lines with
  | [] => pure blocks
  | line :: rest => do
      let (block, after) ← documentIteration calls inlines depth references
        mayHaveReferenceDefinitions line rest
      calls.documentLoop depth references mayHaveReferenceDefinitions after
        (blocks ++ block.toList)

def addDefinition (inlines : InlineParser ν) (definitions : LinkReferenceDefinitions)
    (line : SourceLine) : LinkReferenceDefinitions :=
  match parseLinkReferenceDefinitionLine line.text with
  | none => definitions
  | some parsed =>
    let label := inlines.normalizeReferenceLabel parsed.label
    if label ≠ [] ∧ !definitions.has label then definitions.set label parsed.definition
    else definitions

def hasDefinitionMark (text : Text) : Bool :=
  (text.zip (text.drop 1)).contains (unit ']', unit ':')

def collectLinkReferenceDefinitions (inlines : InlineParser ν) (lines : List SourceLine) :
    LinkReferenceDefinitions :=
  (lines.filter fun line => hasDefinitionMark line.text).foldl (addDefinition inlines) .empty

def parseDocumentBody (calls : Calls ν) (inlines : InlineParser ν) (depth : Nat) (content : Text) :
    Outcome (ParsedDocument ν) := do
  let normalized := normalizeSource content
  let lines := splitLines normalized
  let mayHaveReferenceDefinitions := hasDefinitionMark normalized
  let references :=
    if mayHaveReferenceDefinitions then collectLinkReferenceDefinitions inlines lines else .empty
  let blocks ← calls.documentLoop depth references mayHaveReferenceDefinitions lines []
  pure { content := normalized, blocks }

@[grind =] def parserCalls (inlines : InlineParser ν) (stop : Breakpoint ν) : Nat → Calls ν
  | 0 =>
    { parseDocument := fun _ _ => .outOfFuel
      documentLoop := fun _ _ _ _ _ => .outOfFuel
      parseListAt := fun _ _ => .outOfFuel
      listLoop := fun _ _ _ => .outOfFuel }
  | fuel + 1 =>
    let calls := parserCalls inlines stop fuel
    { parseDocument := parseDocumentBody calls inlines
      documentLoop := documentLoopBody calls inlines
      parseListAt := parseListAtBody calls inlines
      listLoop := listLoopBody stop calls inlines }

def neverStop : Breakpoint ν := fun _ _ => false

def parseDocument (inlines : InlineParser ν) (fuel : Nat) (content : Text) :
    Outcome (ParsedDocument ν) :=
  (parserCalls inlines neverStop fuel).parseDocument 0 content

end Metidos.Markdown
