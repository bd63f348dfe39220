import Metidos.Library.JsText
import Metidos.Library.OrderedMap

/-!
Lines of `src/mainview/getdown/src/core/document.ts` and what is read off a single line: blank
lines, code, quote and list markers, headings, fences, reference definitions and table rows.  A
text is its UTF-16 code units.
-/

namespace Metidos.Markdown

open JsText

abbrev Text := List Nat

def unit (char : Char) : Nat := char.toNat

def units (text : String) : Text := utf16 text.toList

def space : Nat := 0x20

def tab : Nat := 0x09

def newline : Nat := 0x0A

def backtick : Nat := 0x60

def backslash : Nat := 0x5C

structure SourceLine where
  text : Text
  start : Nat
  finish : Nat
  deriving DecidableEq

def isSpaceUnit (unit : Nat) : Bool := isWhiteSpace (Char.ofNat unit)

def trimStart (text : Text) : Text := text.dropWhile isSpaceUnit

def trimEnd (text : Text) : Text := (text.reverse.dropWhile isSpaceUnit).reverse

def trim (text : Text) : Text := trimEnd (trimStart text)

def isBlankUnit (unit : Nat) : Bool := unit = space || unit = tab

def isLineTerminator (unit : Nat) : Bool :=
  unit = newline || unit = 0x0D || unit = 0x2028 || unit = 0x2029

def isDigitUnit (unit : Nat) : Bool := 0x30 ≤ unit && unit ≤ 0x39

def endsWith (text suffix : Text) : Bool := suffix.isSuffixOf text

def joinLines (parts : List Text) : Text := [newline].intercalate parts

def normalizeSource : Text → Text
  | [] => []
  | 0x0D :: 0x0A :: rest => newline :: normalizeSource rest
  | 0x0D :: rest => newline :: normalizeSource rest
  | 0 :: rest => 0xFFFD :: normalizeSource rest
  | unit :: rest => unit :: normalizeSource rest

def splitLinesFrom (start : Nat) (current : Text) : Text → List SourceLine
  | [] => [{ text := current, start, finish := start + current.length }]
  | unit :: rest =>
    if unit = newline then
      { text := current, start, finish := start + current.length } ::
        splitLinesFrom (start + current.length + 1) [] rest
    else splitLinesFrom start (current ++ [unit]) rest

def splitLines (source : Text) : List SourceLine :=
  if source = [] then [] else splitLinesFrom 0 [] source

def sourceSlice (lines : List SourceLine) : Text := joinLines (lines.map SourceLine.text)

def leadingSpaces (line : Text) : Nat := (line.takeWhile (· = space)).length

def skipUpToThreeSpacesIndex (line : Text) : Nat := min 3 (leadingSpaces line)

def stripUpToThreeSpaces (line : Text) : Text := line.drop (skipUpToThreeSpacesIndex line)

def isBlank (line : Text) : Bool := line.all isBlankUnit

def fourSpaces : Text := [space, space, space, space]

def isIndentedCodeLine (line : Text) : Bool := fourSpaces.isPrefixOf line || [tab].isPrefixOf line

def stripCodeIndent (line : Text) : Text :=
  if [tab].isPrefixOf line then line.drop 1
  else if fourSpaces.isPrefixOf line then line.drop 4
  else line

def stripCodeFenceIndent (line : Text) (indent : Nat) : Text :=
  line.drop (min indent (leadingSpaces line))

def trimTrailingBlankCodeLines (parts : List Text) : List Text :=
  (parts.reverse.dropWhile (· = [])).reverse

def isBlockQuoteLine (line : Text) : Bool :=
  (line)[skipUpToThreeSpacesIndex line]? = some (unit '>')

def stripBlockQuoteMarker (line : Text) : Text :=
  let index := skipUpToThreeSpacesIndex line
  let afterMarker := if (line)[index]? = some (unit '>') then index + 1 else index
  line.drop (if (line)[afterMarker]? = some space then afterMarker + 1 else afterMarker)

def isFenceUnit (unit : Nat) : Bool := unit = backtick || unit = Metidos.Markdown.unit '~'

def isFencedCodeOpener (line : Text) : Bool :=
  match line.drop (skipUpToThreeSpacesIndex line) with
  | first :: second :: third :: _ => isFenceUnit first && second = first && third = first
  | _ => false

structure FenceOpener where
  indent : Nat
  fence : Nat
  length : Nat
  info : Text
  deriving DecidableEq

def fenceOpener (line : Text) : Option FenceOpener :=
  let indent := leadingSpaces line
  match line.drop indent with
  | [] => none
  | fence :: rest =>
    let run := (fence :: rest).takeWhile (· = fence)
    let after := (fence :: rest).dropWhile (· = fence)
    if indent ≤ 3 ∧ isFenceUnit fence ∧ 3 ≤ run.length ∧ after.all (!isLineTerminator ·) then
      some { indent, fence, length := run.length, info := trim after }
    else none

def isClosingCodeFence (line : Text) (fence minimumLength : Nat) : Bool :=
  let rest := line.drop (skipUpToThreeSpacesIndex line)
  minimumLength ≤ (rest.takeWhile (· = fence)).length &&
    (rest.dropWhile (· = fence)).all isBlankUnit

def isThematicBreakLine (line : Text) : Bool :=
  let rest := line.drop (skipUpToThreeSpacesIndex line)
  match rest with
  | [] => false
  | marker :: _ =>
    (marker = unit '*' || marker = unit '-' || marker = unit '_') &&
      rest.all (fun char => char = marker || isBlankUnit char) &&
      let count := rest.count marker
      3 ≤ count && !(count = 4 && (trim rest).length = 4 && marker ≠ unit '-')

def atxHeading (line : Text) : Option (Nat × Text) :=
  let indent := leadingSpaces line
  let rest := line.drop indent
  let level := (rest.takeWhile (· = unit '#')).length
  let after := rest.drop level
  if indent ≤ 3 ∧ 1 ≤ level ∧ level ≤ 6 ∧ (after.head?.all isBlankUnit) ∧
      (after.dropWhile isBlankUnit).all (!isLineTerminator ·) then
    some (level, after.dropWhile isBlankUnit)
  else none

/-- `replace(/[ \t]+#+[ \t]*$/, "")`. -/
def stripClosingHashes (text : Text) : Text :=
  let reversed := text.reverse.dropWhile isBlankUnit
  let afterHashes := reversed.dropWhile (· = unit '#')
  if afterHashes.length < reversed.length ∧ afterHashes.head?.any isBlankUnit then
    (afterHashes.dropWhile isBlankUnit).reverse
  else text

def isAtxHeadingLine (line : Text) : Bool :=
  let rest := line.drop (skipUpToThreeSpacesIndex line)
  let level := min 6 (rest.takeWhile (· = unit '#')).length
  level ≠ 0 && (rest.drop level).head?.all isBlankUnit

def parseSetextDelimiter (line : Text) : Option Nat :=
  match trim (stripUpToThreeSpaces line) with
  | [] => none
  | marker :: rest =>
    if (marker = unit '=' ∨ marker = unit '-') ∧ rest.all (· = marker) then
      some (if marker = unit '=' then 1 else 2)
    else none

structure ParsedListMarker where
  indent : Nat
  ordered : Bool
  marker : Nat
  number : Option Nat
  text : Text
  deriving DecidableEq

/-- `(?:[ \t]+(.*)|[ \t]*)$` after a marker: the text where there is a blank, which may be absent
where the line ends. -/
def markerText (after : Text) : Option (Option Text) :=
  match after with
  | [] => some none
  | first :: _ =>
    let text := after.dropWhile isBlankUnit
    if isBlankUnit first ∧ text.all (!isLineTerminator ·) then some (some text) else none

def unorderedMarker (indent : Nat) (rest : Text) : Option (Option ParsedListMarker) :=
  match rest with
  | [] => none
  | marker :: after =>
    if marker = unit '-' ∨ marker = unit '+' ∨ marker = unit '*' then
      (markerText after).map fun text =>
        if marker = unit '*' ∧ text = none then none
        else some { indent, ordered := false, marker, number := none, text := text.getD [] }
    else none

def orderedMarker (indent : Nat) (rest : Text) : Option ParsedListMarker :=
  let digits := rest.takeWhile isDigitUnit
  match rest.drop digits.length with
  | [] => none
  | marker :: after =>
    if 1 ≤ digits.length ∧ digits.length ≤ 9 ∧ (marker = unit '.' ∨ marker = unit ')') then
      (markerText after).map fun text =>
        { indent
          ordered := true
          marker
          number := some (digits.foldl (fun value digit => value * 10 + (digit - 0x30)) 0)
          text := text.getD [] }
    else none

def parseListMarker (line : Text) : Option ParsedListMarker :=
  let indent := leadingSpaces line
  let rest := line.drop indent
  match unorderedMarker indent rest with
  | some found => found
  | none => orderedMarker indent rest

def isSameListLevel (marker firstMarker : ParsedListMarker) : Bool :=
  firstMarker.indent ≤ marker.indent && marker.indent ≤ firstMarker.indent + 1

def continuesList (marker firstMarker : ParsedListMarker) : Bool :=
  isSameListLevel marker firstMarker && marker.ordered = firstMarker.ordered &&
    marker.marker = firstMarker.marker

def isParagraphInterruptingListLine (line : Text) : Bool :=
  match parseListMarker line with
  | none => false
  | some marker =>
    trim marker.text ≠ [] && (!marker.ordered || marker.number = some 1)

def stripListContinuationIndent (line : Text) (listIndent : Nat) : Text :=
  line.drop (min line.length (listIndent + 2))

structure TaskMarker where
  checked : Bool
  text : Text
  deriving DecidableEq

def parseTaskMarker (text : Text) : Option TaskMarker :=
  match text with
  | opening :: mark :: closing :: rest =>
    if opening = unit '[' ∧ (mark = space ∨ mark = unit 'x' ∨ mark = unit 'X') ∧
        closing = unit ']' then
      match rest with
      | [] => some { checked := mark ≠ space, text := [] }
      | first :: rest =>
        if first = space then
          some { checked := mark ≠ space, text := rest.takeWhile (!isLineTerminator ·) }
        else none
    else none
  | _ => none

structure LinkReferenceDefinition where
  href : Text
  title : Option Text
  deriving DecidableEq

abbrev LinkReferenceDefinitions := OrderedMap Text LinkReferenceDefinition

def parseReferenceTitle (raw : Text) : Option Text :=
  let quoted := fun (opening closing : Nat) => raw.head? = some opening && raw.getLast? = some closing
  if raw ≠ [] ∧ (quoted 0x22 0x22 ∨ quoted 0x27 0x27 ∨ quoted (unit '(') (unit ')')) then
    some (raw.drop 1).dropLast
  else none

/-- `replace(/\\([()])/g, "$1")`. -/
def unescapeParentheses : Text → Text
  | [] => []
  | [last] => [last]
  | first :: second :: rest =>
    if first = backslash ∧ (second = unit '(' ∨ second = unit ')') then
      second :: unescapeParentheses rest
    else first :: unescapeParentheses (second :: rest)

def parseLinkReferenceDefinitionBody (body : Text) : Option LinkReferenceDefinition :=
  match trim body with
  | [] => none
  | first :: rest =>
    if first = unit '<' then
      if rest.contains (unit '>') then
        let href := rest.takeWhile (· ≠ unit '>')
        some { href, title := parseReferenceTitle (trim (rest.drop (href.length + 1))) }
      else none
    else
      let target := (first :: rest).takeWhile (!isSpaceUnit ·)
      let after := (first :: rest).dropWhile (!isSpaceUnit ·)
      some
        { href := unescapeParentheses target
          title := parseReferenceTitle (trim after) }

structure LinkReferenceDefinitionLine where
  label : Text
  definition : LinkReferenceDefinition
  deriving DecidableEq

def parseLinkReferenceDefinitionLine (line : Text) : Option LinkReferenceDefinitionLine :=
  let indent := leadingSpaces line
  match line.drop indent with
  | [] => none
  | opening :: rest =>
    let label := rest.takeWhile (· ≠ unit ']')
    match rest.drop label.length with
    | closing :: colon :: after =>
      let body := after.dropWhile isBlankUnit
      if indent ≤ 3 ∧ opening = unit '[' ∧ label ≠ [] ∧ closing = unit ']' ∧
          colon = unit ':' ∧ body.all (!isLineTerminator ·) then
        (parseLinkReferenceDefinitionBody body).map fun definition => { label, definition }
      else none
    | _ => none

inductive TableAlignment
  | left
  | center
  | right
  | unset
  deriving DecidableEq

def splitCells (cell : Text) (escaped : Bool) : Text → List Text
  | [] => [trim (if escaped then cell ++ [backslash] else cell)]
  | char :: rest =>
    if escaped then splitCells (cell ++ [char]) false rest
    else if char = backslash then splitCells cell true rest
    else if char = unit '|' then trim cell :: splitCells [] false rest
    else splitCells (cell ++ [char]) false rest

def splitTableRow (line : Text) : List Text :=
  let trimmed := trim line
  let source := if trimmed.head? = some (unit '|') then trimmed.drop 1 else trimmed
  splitCells [] false
    (if endsWith source [unit '|'] ∧ !endsWith source [backslash, unit '|'] then source.dropLast
    else source)

def parseTableAlignment (cell : Text) : Option TableAlignment :=
  let normalized := trim cell
  let left := normalized.head? = some (unit ':')
  let right := endsWith normalized [unit ':']
  let dashes := (if left then normalized.drop 1 else normalized)
  let dashes := if dashes.getLast? = some (unit ':') then dashes.dropLast else dashes
  if dashes ≠ [] ∧ dashes.all (· = unit '-') then
    some (if left ∧ right then .center else if left then .left else if right then .right else .unset)
  else none

def countRun (marker : Nat) (text : Text) : Nat := (text.takeWhile (· = marker)).length

/-- `hasUnclosedCodeSpan`: the length of the open run of backticks and the current run. -/
def unclosedCodeSpan (openerLength : Option Nat) (run : Nat) : Text → Bool
  | [] => (closeRun openerLength run).isSome
  | char :: rest =>
    if char = backtick then unclosedCodeSpan openerLength (run + 1) rest
    else unclosedCodeSpan (closeRun openerLength run) 0 rest
where
  closeRun (openerLength : Option Nat) (run : Nat) : Option Nat :=
    if run = 0 then openerLength
    else
      match openerLength with
      | none => some run
      | some length => if length = run then none else some length

def hasUnclosedCodeSpan (source : Text) : Bool := unclosedCodeSpan none 0 source

def trimEndBlanks (text : Text) : Text := (text.reverse.dropWhile isBlankUnit).reverse

def hasTrailingHardBreakBackslash (text : Text) : Bool :=
  ((trimEndBlanks text).reverse.takeWhile (· = backslash)).length % 2 = 1

def normalizeParagraphText (text : Text) : Text :=
  let leadingTrimmed := text.dropWhile isBlankUnit
  let trailingSpaces := (leadingTrimmed.reverse.takeWhile (· = space)).length
  if hasTrailingHardBreakBackslash leadingTrimmed then trimEndBlanks leadingTrimmed ++ [newline]
  else if 2 ≤ trailingSpaces then
    leadingTrimmed.take (leadingTrimmed.length - trailingSpaces) ++ [space, space, newline]
  else trimEnd leadingTrimmed

end Metidos.Markdown
