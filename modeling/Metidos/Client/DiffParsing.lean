import Mathlib.Data.List.Induction
import Metidos.Library.JsText

/-!
`src/mainview/app/diff-parsing.ts` on the unified diffs that git prints.
-/

namespace Metidos.Client.Diff

open JsText

abbrev Text := List Char

inductive DiffLineKind
  | metadata
  | file
  | hunk
  | context
  | add
  | remove
  deriving DecidableEq

structure DiffLine where
  kind : DiffLineKind
  key : Text
  text : Text
  deriving DecidableEq

structure DiffSummary where
  additions : Nat
  deletions : Nat
  hunks : Nat
  deriving DecidableEq

structure DiffParseResult where
  lines : List DiffLine
  summary : DiffSummary
  deriving DecidableEq

def emptyDiffParseResult : DiffParseResult := ⟨[], ⟨0, 0, 0⟩⟩

def classifyDiffLine (line : Text) : DiffLineKind :=
  if "diff --git".toList.isPrefixOf line then .metadata
  else if "--- ".toList.isPrefixOf line || "+++ ".toList.isPrefixOf line then .file
  else if "@@".toList.isPrefixOf line then .hunk
  else if "+".toList.isPrefixOf line then .add
  else if "-".toList.isPrefixOf line then .remove
  else .context

/-- `text.split(/\r?\n/)`. -/
def splitLines : Text → List Text
  | [] => [[]]
  | '\n' :: rest => [] :: splitLines rest
  | '\r' :: '\n' :: rest => [] :: splitLines rest
  | char :: rest => (splitLines rest).modifyHead (char :: ·)

def DiffSummary.count (summary : DiffSummary) : DiffLineKind → DiffSummary
  | .hunk => { summary with hunks := summary.hunks + 1 }
  | .add => { summary with additions := summary.additions + 1 }
  | .remove => { summary with deletions := summary.deletions + 1 }
  | _ => summary

def parseUnifiedDiffText (diffText : Text) : DiffParseResult :=
  if trim diffText = [] then emptyDiffParseResult
  else
    let rawLines := splitLines diffText
    { lines := rawLines.mapIdx fun index line =>
        { kind := classifyDiffLine line, key := stringOfNumber index ++ ':' :: line, text := line }
      summary := rawLines.foldl (fun summary line => summary.count (classifyDiffLine line)) ⟨0, 0, 0⟩ }

/-- A text within one line. -/
abbrev LineText := { text : Text // '\n' ∉ text }

inductive BodyLine
  | context (text : LineText)
  | added (text : LineText)
  | removed (text : LineText)
  | noNewline

def BodyLine.print : BodyLine → Text
  | .context text => ' ' :: text
  | .added text => '+' :: text
  | .removed text => '-' :: text
  | .noNewline => "\\ No newline at end of file".toList

/-- A hunk with the first line on each side; the header has the counts that the body gives. -/
structure Hunk where
  oldStart : Nat
  newStart : Nat
  heading : LineText
  body : List BodyLine

def printRange (start count : Nat) : Text :=
  if count = 1 then stringOfNumber start
  else stringOfNumber start ++ ',' :: stringOfNumber count

def BodyLine.inOld : BodyLine → Bool
  | .context _ => true
  | .removed _ => true
  | _ => false

def BodyLine.inNew : BodyLine → Bool
  | .context _ => true
  | .added _ => true
  | _ => false

def Hunk.printHeader (hunk : Hunk) : Text :=
  "@@ -".toList ++ (printRange hunk.oldStart (hunk.body.countP BodyLine.inOld) ++ (" +".toList ++
    (printRange hunk.newStart (hunk.body.countP BodyLine.inNew) ++ (" @@".toList ++
      if hunk.heading.val = [] then [] else ' ' :: hunk.heading.val))))

inductive ExtendedHeader
  | oldMode
  | newMode
  | deletedFileMode
  | newFileMode
  | copyFrom
  | copyTo
  | renameFrom
  | renameTo
  | similarityIndex
  | dissimilarityIndex
  | index
  | binaryFiles
  deriving DecidableEq

def ExtendedHeader.words : ExtendedHeader → Text
  | .oldMode => "old mode ".toList
  | .newMode => "new mode ".toList
  | .deletedFileMode => "deleted file mode ".toList
  | .newFileMode => "new file mode ".toList
  | .copyFrom => "copy from ".toList
  | .copyTo => "copy to ".toList
  | .renameFrom => "rename from ".toList
  | .renameTo => "rename to ".toList
  | .similarityIndex => "similarity index ".toList
  | .dissimilarityIndex => "dissimilarity index ".toList
  | .index => "index ".toList
  | .binaryFiles => "Binary files ".toList

structure FileDiff where
  names : LineText
  extended : List (ExtendedHeader × LineText)
  oldName : LineText
  newName : LineText
  hunks : List Hunk

inductive Role
  | fileHeader
  | hunkHeader
  | body (line : BodyLine)

def Hunk.lines (hunk : Hunk) : List (Role × Text) :=
  (.hunkHeader, hunk.printHeader) :: hunk.body.map fun line => (.body line, line.print)

def FileDiff.lines (file : FileDiff) : List (Role × Text) :=
  (.fileHeader, "diff --git ".toList ++ file.names.val) ::
    file.extended.map (fun header => (.fileHeader, header.1.words ++ header.2.val)) ++
    (if file.hunks.isEmpty then []
    else [(.fileHeader, "--- ".toList ++ file.oldName.val),
      (.fileHeader, "+++ ".toList ++ file.newName.val)]) ++
    file.hunks.flatMap Hunk.lines

def diffLines (files : List FileDiff) : List (Role × Text) := files.flatMap FileDiff.lines

def printDiff (files : List FileDiff) : Text :=
  (diffLines files).flatMap fun line => line.2 ++ ['\n']

def Role.Shows : Role → DiffLineKind → Prop
  | .hunkHeader, kind => kind = .hunk
  | .body (.added _), kind => kind = .add
  | .body (.removed _), kind => kind = .remove
  | .body (.context _), kind => kind = .context
  | _, kind => kind ≠ .hunk ∧ kind ≠ .add ∧ kind ≠ .remove

def Role.isHunk : Role → Bool
  | .hunkHeader => true
  | _ => false

def Role.isAdded : Role → Bool
  | .body (.added _) => true
  | _ => false

def Role.isRemoved : Role → Bool
  | .body (.removed _) => true
  | _ => false

/-- The parse shows every printed line as what it is, and its summary has the true numbers. -/
def ParsedExactly (files : List FileDiff) : Prop :=
  (∀ (index : Nat) (role : Role) (text : Text), (diffLines files)[index]? = some (role, text) →
    ∃ line, (parseUnifiedDiffText (printDiff files)).lines[index]? = some line ∧
      role.Shows line.kind) ∧
  (parseUnifiedDiffText (printDiff files)).summary =
    { additions := (diffLines files).countP fun line => line.1.isAdded
      deletions := (diffLines files).countP fun line => line.1.isRemoved
      hunks := (diffLines files).countP fun line => line.1.isHunk }

/-- A changed line that, with its mark, looks like the name of a side. -/
def Role.looksLikeHeader : Role → Bool
  | .body (.added text) => "++ ".toList.isPrefixOf text.val
  | .body (.removed text) => "-- ".toList.isPrefixOf text.val
  | _ => false

def stripReturn (line : Text) : Text := if line.getLast? = some '\r' then line.dropLast else line

theorem stripReturn_append {mark : Text} (solid : mark.getLast? ≠ some '\r') (text : Text) :
    stripReturn (mark ++ text) = mark ++ stripReturn text := by
  cases text using List.reverseRecOn with
  | nil => simp [stripReturn, solid]
  | append_singleton text last =>
    rw [stripReturn, stripReturn, ← List.append_assoc]
    simp only [List.getLast?_concat, List.dropLast_concat]
    split <;> simp

theorem splitLines_line {line : Text} (single : '\n' ∉ line) (rest : Text) :
    splitLines (line ++ '\n' :: rest) = stripReturn line :: splitLines rest := by
  induction line with
  | nil => rfl
  | cons char line ih =>
    obtain ⟨other, single⟩ := not_or.mp (List.mem_cons.not.mp single)
    by_cases final : char = '\r' ∧ line = []
    · obtain ⟨rfl, rfl⟩ := final
      rfl
    · have step : splitLines (char :: (line ++ '\n' :: rest)) =
          (splitLines (line ++ '\n' :: rest)).modifyHead (char :: ·) := by
        rw [splitLines]
        · exact fun same => other same.symm
        · intro after isReturn same
          refine final ⟨isReturn, ?_⟩
          cases line with
          | nil => rfl
          | cons next line =>
            rw [List.cons_append] at same
            exact absurd (List.cons.inj same).1.symm (not_or.mp (List.mem_cons.not.mp single)).1
      have stripped : stripReturn (char :: line) = char :: stripReturn line := by
        cases line with
        | nil =>
          have solid : char ≠ '\r' := fun same => final ⟨same, rfl⟩
          simp [stripReturn, solid]
        | cons next line =>
          simp only [stripReturn, List.getLast?_cons_cons, List.dropLast_cons_cons]
          split <;> rfl
      rw [List.cons_append, step, ih single, stripped]
      rfl

theorem splitLines_lines {lines : List (Role × Text)} (single : ∀ line ∈ lines, '\n' ∉ line.2) :
    splitLines (lines.flatMap fun line => line.2 ++ ['\n']) =
      lines.map (fun line => stripReturn line.2) ++ [[]] := by
  induction lines with
  | nil => rfl
  | cons line lines ih =>
    have first : (line :: lines).flatMap (fun line => line.2 ++ ['\n']) =
        line.2 ++ '\n' :: lines.flatMap (fun line => line.2 ++ ['\n']) := by simp
    rw [first, splitLines_line (single line (by simp)),
      ih fun other member => single other (List.mem_cons_of_mem _ member)]
    rfl

inductive FileMark
  | command
  | oldName
  | newName
  | extended (header : ExtendedHeader)

def FileMark.words : FileMark → Text
  | .command => "diff --git ".toList
  | .oldName => "--- ".toList
  | .newName => "+++ ".toList
  | .extended header => header.words

theorem mem_diffLines {files : List FileDiff} {line : Role × Text} (member : line ∈ diffLines files) :
    (∃ (mark : FileMark) (text : LineText), line = (.fileHeader, mark.words ++ text.val)) ∨
      (∃ hunk : Hunk, line = (.hunkHeader, hunk.printHeader)) ∨
      ∃ body : BodyLine, line = (.body body, body.print) := by
  obtain ⟨file, -, member⟩ := List.mem_flatMap.mp member
  simp only [FileDiff.lines, List.cons_append, List.mem_cons, List.mem_append] at member
  rcases member with rfl | (extended | sides) | inHunks
  · exact Or.inl ⟨.command, file.names, rfl⟩
  · obtain ⟨⟨header, text⟩, -, rfl⟩ := List.mem_map.mp extended
    exact Or.inl ⟨.extended header, text, rfl⟩
  · split at sides
    · exact absurd sides (by simp)
    · rcases List.mem_cons.mp sides with rfl | last
      · exact Or.inl ⟨.oldName, file.oldName, rfl⟩
      · exact Or.inl ⟨.newName, file.newName, List.mem_singleton.mp last⟩
  · obtain ⟨hunk, -, inHunk⟩ := List.mem_flatMap.mp inHunks
    rcases List.mem_cons.mp inHunk with rfl | inBody
    · exact Or.inr (Or.inl ⟨hunk, rfl⟩)
    · obtain ⟨body, -, rfl⟩ := List.mem_map.mp inBody
      exact Or.inr (Or.inr ⟨body, rfl⟩)

theorem FileMark.words_plain (mark : FileMark) :
    mark.words.getLast? = some ' ' ∧ '\n' ∉ mark.words := by
  cases mark with
  | command => decide
  | oldName => decide
  | newName => decide
  | extended header => cases header <;> decide

theorem newline_notMem_number (value : Nat) : '\n' ∉ stringOfNumber value := by
  intro member
  exact absurd (isDigit_of_mem_stringOfNumber member) (by decide)

theorem newline_notMem_range (start count : Nat) : '\n' ∉ printRange start count := by
  rw [printRange]
  split
  · exact newline_notMem_number start
  · simp [newline_notMem_number]

theorem diffLines_single {files : List FileDiff} :
    ∀ line ∈ diffLines files, '\n' ∉ line.2 := by
  intro line member
  have unmarked : ∀ {mark : Char}, '\n' ≠ mark → ∀ text : LineText, '\n' ∉ mark :: text.val :=
    fun other text inside => (List.mem_cons.mp inside).elim other text.property
  rcases mem_diffLines member with ⟨mark, text, rfl⟩ | ⟨hunk, rfl⟩ | ⟨body, rfl⟩
  · exact fun inside => (List.mem_append.mp inside).elim mark.words_plain.2 text.property
  · have heading : '\n' ∉ if hunk.heading.val = [] then [] else ' ' :: hunk.heading.val := by
      split
      · simp
      · simp [hunk.heading.property]
    simp [Hunk.printHeader, newline_notMem_range, heading]
  · cases body with
    | context text => exact unmarked (by decide) text
    | added text => exact unmarked (by decide) text
    | removed text => exact unmarked (by decide) text
    | noNewline => decide

theorem classifyDiffLine_mark (mark : FileMark) (text : Text) :
    classifyDiffLine (mark.words ++ text) = match mark with
      | .command => .metadata
      | .extended _ => .context
      | _ => .file := by
  cases mark with
  | command => rfl
  | oldName => rfl
  | newName => rfl
  | extended header => cases header <;> rfl

theorem classifyDiffLine_changed (text : Text) :
    classifyDiffLine ('+' :: text) = (if "++ ".toList.isPrefixOf text then .file else .add) ∧
      classifyDiffLine ('-' :: text) = if "-- ".toList.isPrefixOf text then .file else .remove := by
  refine ⟨?_, ?_⟩
  · change (if "++ ".toList.isPrefixOf text = true then DiffLineKind.file else .add) = _
    rfl
  · have sides : ("-- ".toList.isPrefixOf text || false) = "-- ".toList.isPrefixOf text :=
      Bool.or_false _
    change (if ("-- ".toList.isPrefixOf text || false) = true then DiffLineKind.file else .remove) = _
    rw [sides]

theorem isPrefixOf_stripReturn {mark : Text} (solid : mark.getLast? ≠ some '\r') (text : Text) :
    mark.isPrefixOf (stripReturn text) = mark.isPrefixOf text := by
  rw [Bool.eq_iff_iff, List.isPrefixOf_iff_prefix, List.isPrefixOf_iff_prefix]
  constructor
  · intro starts
    refine starts.trans ?_
    rw [stripReturn]
    split
    · exact List.dropLast_prefix text
    · exact List.prefix_rfl
  · rintro ⟨rest, rfl⟩
    rw [stripReturn_append solid]
    exact List.prefix_append _ _

theorem classifyDiffLine_added (text : LineText) :
    classifyDiffLine (stripReturn (BodyLine.added text).print) =
      if "++ ".toList.isPrefixOf text.val then .file else .add := by
  refine (congrArg classifyDiffLine (@stripReturn_append ['+'] (by decide) text.val)).trans ?_
  rw [← isPrefixOf_stripReturn (by decide) text.val]
  exact (classifyDiffLine_changed _).1

theorem classifyDiffLine_removed (text : LineText) :
    classifyDiffLine (stripReturn (BodyLine.removed text).print) =
      if "-- ".toList.isPrefixOf text.val then .file else .remove := by
  refine (congrArg classifyDiffLine (@stripReturn_append ['-'] (by decide) text.val)).trans ?_
  rw [← isPrefixOf_stripReturn (by decide) text.val]
  exact (classifyDiffLine_changed _).2

theorem shows_line_iff {files : List FileDiff} {role : Role} {text : Text}
    (member : (role, text) ∈ diffLines files) :
    role.Shows (classifyDiffLine (stripReturn text)) ↔ role.looksLikeHeader = false := by
  rcases mem_diffLines member with ⟨mark, rest, same⟩ | ⟨hunk, same⟩ | ⟨body, same⟩
  · obtain ⟨rfl, rfl⟩ := Prod.mk.inj same
    have solid : mark.words.getLast? ≠ some '\r' := by
      rw [mark.words_plain.1]
      decide
    rw [stripReturn_append solid, classifyDiffLine_mark]
    cases mark <;> simp [Role.Shows, Role.looksLikeHeader]
  · obtain ⟨rfl, rfl⟩ := Prod.mk.inj same
    rw [Hunk.printHeader, stripReturn_append (by decide)]
    exact iff_of_true rfl rfl
  · obtain ⟨rfl, rfl⟩ := Prod.mk.inj same
    cases body with
    | context text =>
      have shown := congrArg classifyDiffLine (@stripReturn_append [' '] (by decide) text.val)
      exact iff_of_true shown rfl
    | added text =>
      rw [classifyDiffLine_added, Role.Shows, Role.looksLikeHeader]
      cases "++ ".toList.isPrefixOf text.val <;> simp
    | removed text =>
      rw [classifyDiffLine_removed, Role.Shows, Role.looksLikeHeader]
      cases "-- ".toList.isPrefixOf text.val <;> simp
    | noNewline => exact iff_of_true ⟨by decide, by decide, by decide⟩ rfl

theorem Role.Shows.same {role : Role} {kind : DiffLineKind} (shows : role.Shows kind) :
    decide (kind = .add) = role.isAdded ∧ decide (kind = .remove) = role.isRemoved ∧
      decide (kind = .hunk) = role.isHunk := by
  have quiet : kind ≠ .hunk ∧ kind ≠ .add ∧ kind ≠ .remove →
      decide (kind = .add) = false ∧ decide (kind = .remove) = false ∧
        decide (kind = .hunk) = false := by
    rintro ⟨first, second, third⟩
    simp [first, second, third]
  cases role with
  | fileHeader => exact quiet shows
  | hunkHeader =>
    obtain rfl : kind = .hunk := shows
    exact ⟨rfl, rfl, rfl⟩
  | body line =>
    cases line with
    | context text =>
      obtain rfl : kind = .context := shows
      exact ⟨rfl, rfl, rfl⟩
    | added text =>
      obtain rfl : kind = .add := shows
      exact ⟨rfl, rfl, rfl⟩
    | removed text =>
      obtain rfl : kind = .remove := shows
      exact ⟨rfl, rfl, rfl⟩
    | noNewline => exact quiet shows

theorem foldl_count (lines : List Text) (summary : DiffSummary) :
    lines.foldl (fun summary line => summary.count (classifyDiffLine line)) summary =
      { additions := summary.additions + lines.countP fun line => classifyDiffLine line = .add
        deletions := summary.deletions + lines.countP fun line => classifyDiffLine line = .remove
        hunks := summary.hunks + lines.countP fun line => classifyDiffLine line = .hunk } := by
  induction lines generalizing summary with
  | nil => rfl
  | cons line lines ih =>
    rw [List.foldl_cons, ih, List.countP_cons, List.countP_cons, List.countP_cons]
    cases classifyDiffLine line <;> simp [DiffSummary.count] <;> omega

theorem printDiff_solid {files : List FileDiff} (some : files ≠ []) : trim (printDiff files) ≠ [] := by
  intro blank
  cases files with
  | nil => exact some rfl
  | cons file files =>
    have first : (Role.fileHeader, "diff --git ".toList ++ file.names.val) ∈
        diffLines (file :: files) :=
      List.mem_flatMap.mpr ⟨file, List.mem_cons_self,
        List.mem_append_left _ (List.mem_append_left _ List.mem_cons_self)⟩
    have letter : 'd' ∈ printDiff (file :: files) :=
      List.mem_flatMap.mpr ⟨_, first, List.mem_append_left _ (List.mem_append_left _ (by decide))⟩
    exact absurd (trim_eq_nil_iff.mp blank 'd' letter) (by decide)

theorem parseUnifiedDiffText_printDiff {files : List FileDiff} (some : files ≠ []) :
    let lines := (diffLines files).map (fun line => stripReturn line.2) ++ [[]]
    parseUnifiedDiffText (printDiff files) =
      { lines := lines.mapIdx fun index line =>
          { kind := classifyDiffLine line, key := stringOfNumber index ++ ':' :: line, text := line }
        summary :=
          { additions := lines.countP fun line => classifyDiffLine line = .add
            deletions := lines.countP fun line => classifyDiffLine line = .remove
            hunks := lines.countP fun line => classifyDiffLine line = .hunk } } := by
  intro lines
  rw [parseUnifiedDiffText, if_neg (printDiff_solid some), printDiff,
    splitLines_lines diffLines_single]
  simp only [foldl_count, Nat.zero_add]
  rfl

/-- A diff is parsed exactly unless a line it adds starts with `++ ` or one it removes with `-- `:
with its mark such a line looks like the name of a side. -/
theorem diff_parsedExactly_iff (files : List FileDiff) :
    ParsedExactly files ↔ ∀ line ∈ diffLines files, line.1.looksLikeHeader = false := by
  by_cases some : files = []
  · subst some
    exact iff_of_true ⟨by simp [diffLines], rfl⟩ (by simp [diffLines])
  rw [ParsedExactly, parseUnifiedDiffText_printDiff some]
  constructor
  · rintro ⟨shown, -⟩ ⟨role, text⟩ member
    obtain ⟨index, found⟩ := List.getElem?_of_mem member
    obtain ⟨line, isLine, shows⟩ := shown index role text found
    have inside := (List.getElem?_eq_some_iff.mp found).1
    rw [List.getElem?_mapIdx, List.getElem?_append_left (by simpa using inside), List.getElem?_map,
      found] at isLine
    obtain rfl := Option.some.inj isLine
    exact (shows_line_iff member).mp shows
  · intro plain
    have shows : ∀ line ∈ diffLines files, line.1.Shows (classifyDiffLine (stripReturn line.2)) :=
      fun line member => (shows_line_iff member).mpr (plain line member)
    refine ⟨fun index role text found => ?_, ?_⟩
    · have inside := (List.getElem?_eq_some_iff.mp found).1
      rw [List.getElem?_mapIdx, List.getElem?_append_left (by simpa using inside), List.getElem?_map,
        found]
      exact ⟨_, rfl, shows _ (List.mem_of_getElem? found)⟩
    · have counted : ∀ (kind : DiffLineKind) (is : Role → Bool), kind ≠ .context →
          (∀ line ∈ diffLines files,
            decide (classifyDiffLine (stripReturn line.2) = kind) = is line.1) →
          ((diffLines files).map (fun line : Role × Text => stripReturn line.2) ++ [[]]).countP
              (fun line => classifyDiffLine line = kind) =
            (diffLines files).countP fun line => is line.1 := by
        intro kind is changes same
        have last : classifyDiffLine [] = .context := rfl
        rw [List.countP_append, List.countP_map, List.countP_singleton, last,
          decide_eq_false changes.symm]
        exact List.countP_congr fun line member => by
          rw [Function.comp_apply, same line member]
      simp only [DiffSummary.mk.injEq]
      exact ⟨counted .add _ (by decide) fun line member => (shows line member).same.1,
        counted .remove _ (by decide) fun line member => (shows line member).same.2.1,
        counted .hunk _ (by decide) fun line member => (shows line member).same.2.2⟩

def commentDiff : FileDiff where
  names := ⟨"a/q.sql b/q.sql".toList, by decide⟩
  extended := []
  oldName := ⟨"a/q.sql".toList, by decide⟩
  newName := ⟨"b/q.sql".toList, by decide⟩
  hunks := [⟨1, 0, ⟨[], by decide⟩, [.removed ⟨"-- x".toList, by decide⟩]⟩]

theorem diff_comment_uncounted : ¬ParsedExactly [commentDiff] ∧
    (parseUnifiedDiffText (printDiff [commentDiff])).summary.deletions = 0 := by
  refine ⟨?_, by decide +kernel⟩
  rintro ⟨-, counted⟩
  have none : (parseUnifiedDiffText (printDiff [commentDiff])).summary.deletions = 0 := by
    decide +kernel
  rw [counted] at none
  exact absurd none (by decide +kernel)

end Metidos.Client.Diff
