import Metidos.Library.JsText
import Metidos.Library.Separators

/-!
The pages of a commit history and the read of a single commit, from `src/bun/git.ts`, with what git
prints for the formats that it is given.
-/

namespace Metidos.Git.History

open JsText Separators

abbrev Text := List Char

def fieldSeparator : Char := Char.ofNat 0x1f

def recordSeparator : Char := Char.ofNat 0x1e

def trimEnd (text : Text) : Text := (trimStart text.reverse).reverse

structure GitHistoryEntry where
  hash : Text
  shortHash : Text
  subject : Text
  authorName : Text
  committedAt : Text
  deriving DecidableEq

def orElse (value fallback : Text) : Text := if value = [] then fallback else value

def parseGitHistoryEntryRecord (now record : Text) : Option GitHistoryEntry :=
  let fields := split fieldSeparator record
  let hash := fields.getD 0 []
  let shortHash := fields.getD 1 []
  if hash = [] ∨ shortHash = [] then none
  else
    some
      { hash
        shortHash
        subject := orElse (fields.getD 2 []) shortHash
        authorName := orElse (fields.getD 3 []) "Unknown".toList
        committedAt := orElse (fields.getD 4 []) now }

def parseGitHistoryEntries (now raw : Text) : List GitHistoryEntry :=
  if raw = [] then []
  else
    (((split recordSeparator raw).map trim).filter fun record => record ≠ []).filterMap
      (parseGitHistoryEntryRecord now)

/-- `runGit` is `runGitHistoryCommand` for a number of commits to skip and one to stop at; it has no
output where there is no commit. -/
def readGitHistoryPageEntries (runGit : Nat → Nat → Option Text) (now : Text) (offset limit : Nat) :
    List GitHistoryEntry × Option Nat :=
  match runGit offset (limit + 1) with
  | none => ([], none)
  | some rawEntries =>
    let parsedEntries := parseGitHistoryEntries now rawEntries
    if limit < parsedEntries.length then (parsedEntries.take limit, some (offset + limit))
    else (parsedEntries, none)

structure GitHistoryFirstPage where
  headHash : Text
  headShortHash : Text
  entries : List GitHistoryEntry
  nextOffset : Option Nat
  deriving DecidableEq

def readGitHistoryFirstPage (now rawEntries : Text) (limit : Nat) :
    Except String GitHistoryFirstPage :=
  let parsedEntries := parseGitHistoryEntries now rawEntries
  match parsedEntries with
  | [] => .error "Expected a first git history entry when history is not empty."
  | firstEntry :: _ =>
    let hasMore := limit < parsedEntries.length
    .ok
      { headHash := firstEntry.hash
        headShortHash := firstEntry.shortHash
        entries := if hasMore then parsedEntries.take limit else parsedEntries
        nextOffset := if hasMore then some limit else none }

def dropLineBreak : Text → Text
  | '\n' :: rest => rest
  | '\r' :: '\n' :: rest => rest
  | text => text

def readGitCommitDiffResult (now raw commitHash : Text) : Except Text (GitHistoryEntry × Text) :=
  if recordSeparator ∉ raw then .error ("Unable to read commit diff: ".toList ++ commitHash)
  else
    let metadataRaw := raw.takeWhile (· ≠ recordSeparator)
    let diffText := (raw.dropWhile (· ≠ recordSeparator)).drop 1
    match parseGitHistoryEntryRecord now metadataRaw with
    | none => .error ("Unable to read commit metadata: ".toList ++ commitHash)
    | some commit => .ok (commit, dropLineBreak diffText)

/-- A hash or a date as git prints it. -/
abbrev Token := { text : Text //
  text ≠ [] ∧ ∀ char ∈ text, char ≠ fieldSeparator ∧ char ≠ recordSeparator ∧ isWhiteSpace char = false }

/-- A text that git stores on one line. -/
abbrev LineText := { text : Text // '\n' ∉ text ∧ Char.ofNat 0 ∉ text }

structure Commit where
  hash : Token
  shortHash : Token
  subject : LineText
  authorName : LineText
  committedAt : Token
  diff : Text

/-- `%H%x1f%h%x1f%s%x1f%an%x1f%cI`. -/
def Commit.print (commit : Commit) : Text :=
  commit.hash.val ++ fieldSeparator :: (commit.shortHash.val ++ fieldSeparator ::
    (commit.subject.val ++ fieldSeparator :: (commit.authorName.val ++ fieldSeparator ::
      commit.committedAt.val)))

def printLog : List Commit → Text
  | [] => []
  | [commit] => commit.print ++ [recordSeparator]
  | commit :: next :: commits =>
    commit.print ++ recordSeparator :: '\n' :: printLog (next :: commits)

def gitLog (commits : List Commit) (skip maxCount : Nat) : Option Text :=
  if commits.isEmpty then none else some (trimEnd (printLog ((commits.drop skip).take maxCount)))

def gitShow (commit : Commit) : Text :=
  trimEnd (commit.print ++ recordSeparator ::
    if commit.diff = [] then [] else '\n' :: commit.diff)

def entryOf (commit : Commit) : GitHistoryEntry where
  hash := commit.hash.val
  shortHash := commit.shortHash.val
  subject := commit.subject.val
  authorName := commit.authorName.val
  committedAt := commit.committedAt.val

def followPages (commits : List Commit) (now : Text) :
    Nat → (Nat → Nat) → Nat → Option (List GitHistoryEntry)
  | 0, _, _ => none
  | fuel + 1, sizes, offset =>
    match readGitHistoryPageEntries (gitLog commits) now offset (sizes 0) with
    | (entries, none) => some entries
    | (entries, some next) =>
      (followPages commits now fuel (fun page => sizes (page + 1)) next).map (entries ++ ·)

/-- The pages have the commits in order, the first page names the newest, and each commit is read
with its diff. -/
structure HistoryRead (diffOf : Commit → Text) (now : Text) (commits : List Commit) : Prop where
  pages : ∀ sizes : Nat → Nat, (∀ page, 1 ≤ sizes page) →
    followPages commits now (commits.length + 1) sizes 0 = some (commits.map entryOf)
  first : ∀ newest ∈ commits.head?, ∀ limit, 1 ≤ limit → ∀ raw ∈ gitLog commits 0 (limit + 1),
    readGitHistoryFirstPage now raw limit =
      .ok
        { headHash := newest.hash.val
          headShortHash := newest.shortHash.val
          entries := (commits.take limit).map entryOf
          nextOffset := if limit < commits.length then some limit else none }
  single : ∀ commit ∈ commits, readGitCommitDiffResult now (gitShow commit) commit.hash.val =
    .ok (entryOf commit, diffOf commit)

def Commit.Plain (commit : Commit) : Prop :=
  ∀ text ∈ [commit.subject.val, commit.authorName.val],
    text ≠ [] ∧ fieldSeparator ∉ text ∧ recordSeparator ∉ text

variable {commit : Commit} {commits : List Commit} {now : Text}

theorem trimEnd_solid {char : Char} (solid : isWhiteSpace char = false) (before after : Text) :
    trimEnd (before ++ char :: after) = before ++ char :: trimEnd after := by
  have reversed : trimStart (after.reverse ++ char :: before.reverse) =
      trimStart after.reverse ++ char :: before.reverse := by
    rw [trimStart, List.dropWhile_append]
    split
    · rename_i blank
      rw [trimStart, List.isEmpty_iff.mp blank]
      simp [solid]
    · rfl
  have parts : (before ++ char :: after).reverse = after.reverse ++ char :: before.reverse := by simp
  rw [trimEnd, parts, reversed, trimEnd]
  simp

theorem recordSeparator_solid : isWhiteSpace recordSeparator = false := by decide

theorem Commit.Plain.fields (plain : commit.Plain) :
    split fieldSeparator commit.print = [commit.hash.val, commit.shortHash.val, commit.subject.val,
      commit.authorName.val, commit.committedAt.val] := by
  have token : ∀ token : Token, fieldSeparator ∉ token.val := fun token inside =>
    (token.property.2 _ inside).1 rfl
  rw [Commit.print, split_append (token commit.hash), split_append (token commit.shortHash),
    split_append (plain commit.subject.val (by simp)).2.1,
    split_append (plain commit.authorName.val (by simp)).2.1, split_plain (token commit.committedAt)]

theorem Commit.Plain.single (plain : commit.Plain) : recordSeparator ∉ commit.print := by
  have token : ∀ token : Token, recordSeparator ∉ token.val := fun token inside =>
    (token.property.2 _ inside).2.1 rfl
  have other : recordSeparator ≠ fieldSeparator := by decide
  simp only [Commit.print, List.mem_append, List.mem_cons, not_or]
  exact ⟨token _, other, token _, other, (plain _ (by simp)).2.2, other, (plain _ (by simp)).2.2,
    other, token _⟩

theorem parseGitHistoryEntryRecord_print (plain : commit.Plain) :
    parseGitHistoryEntryRecord now commit.print = some (entryOf commit) := by
  have subject := (plain commit.subject.val (by simp)).1
  have author := (plain commit.authorName.val (by simp)).1
  simp [parseGitHistoryEntryRecord, plain.fields, entryOf, orElse, subject, author,
    commit.hash.property.1, commit.shortHash.property.1, commit.committedAt.property.1]

theorem trim_print (commit : Commit) : trim commit.print = commit.print := by
  have solid : ∀ token : Token, ∀ char ∈ token.val, isWhiteSpace char = false := fun token char member =>
    (token.property.2 char member).2.2
  apply trim_eq_self
  · intro char first
    rw [Commit.print, List.head?_append, List.head?_eq_some_head commit.hash.property.1] at first
    exact solid _ char (Option.some.inj first ▸ List.head_mem _)
  · intro char last
    have ended : commit.print = (commit.hash.val ++ fieldSeparator :: (commit.shortHash.val ++
        fieldSeparator :: (commit.subject.val ++ fieldSeparator :: (commit.authorName.val ++
          [fieldSeparator])))) ++ commit.committedAt.val := by
      simp [Commit.print]
    rw [ended, List.getLast?_append, List.getLast?_eq_some_getLast commit.committedAt.property.1]
      at last
    exact solid _ char (Option.some.inj last ▸ List.getLast_mem _)

def entriesOf (now text : Text) : List GitHistoryEntry :=
  (((split recordSeparator text).map trim).filter fun record => record ≠ []).filterMap
    (parseGitHistoryEntryRecord now)

theorem entriesOf_print (plain : commit.Plain) (rest : Text) :
    entriesOf now (commit.print ++ recordSeparator :: rest) = entryOf commit :: entriesOf now rest ∧
      entriesOf now ('\n' :: (commit.print ++ recordSeparator :: rest)) =
        entryOf commit :: entriesOf now rest := by
  have some : commit.print ≠ [] := by simp [Commit.print]
  have broken : recordSeparator ∉ '\n' :: commit.print := by
    simp only [List.mem_cons, not_or]
    exact ⟨by decide, plain.single⟩
  have trimmed : trim ('\n' :: commit.print) = commit.print := trim_print commit
  constructor
  · rw [entriesOf, split_append plain.single]
    simp [trim_print, some, parseGitHistoryEntryRecord_print plain, entriesOf]
  · rw [← List.cons_append, entriesOf, split_append broken]
    simp [trimmed, some, parseGitHistoryEntryRecord_print plain, entriesOf]

theorem entriesOf_printLog (plain : ∀ commit ∈ commits, commit.Plain) :
    entriesOf now (printLog commits) = commits.map entryOf ∧
      entriesOf now ('\n' :: printLog commits) = commits.map entryOf := by
  fun_induction printLog commits with
  | case1 => exact ⟨rfl, rfl⟩
  | case2 commit => exact entriesOf_print (plain commit (by simp)) []
  | case3 commit next commits ih =>
    rw [List.forall_mem_cons] at plain
    obtain ⟨first, second⟩ := @entriesOf_print _ now plain.1
      ('\n' :: printLog (next :: commits))
    rw [(ih plain.2).2] at first second
    exact ⟨first, second⟩

theorem trimEnd_printLog (commits : List Commit) : trimEnd (printLog commits) = printLog commits := by
  have ends : commits = [] ∨ ∃ before, printLog commits = before ++ [recordSeparator] := by
    fun_induction printLog commits with
    | case1 => exact Or.inl rfl
    | case2 commit => exact Or.inr ⟨commit.print, rfl⟩
    | case3 commit next commits ih =>
      obtain ⟨before, joined⟩ := ih.resolve_left (by simp)
      exact Or.inr ⟨commit.print ++ recordSeparator :: '\n' :: before, by simp [joined]⟩
  rcases ends with rfl | ⟨before, joined⟩
  · rfl
  · rw [joined]
    exact trimEnd_solid recordSeparator_solid before []

theorem parseGitHistoryEntries_printLog (plain : ∀ commit ∈ commits, commit.Plain) :
    parseGitHistoryEntries now (trimEnd (printLog commits)) = commits.map entryOf := by
  rw [trimEnd_printLog, ← (@entriesOf_printLog _ now plain).1, parseGitHistoryEntries]
  split
  · rename_i empty
    rw [empty]
    rfl
  · rfl

theorem readGitHistoryPageEntries_gitLog (plain : ∀ commit ∈ commits, commit.Plain)
    (offset limit : Nat) : readGitHistoryPageEntries (gitLog commits) now offset limit =
      (((commits.drop offset).take limit).map entryOf,
        if limit < (commits.drop offset).length then some (offset + limit) else none) := by
  rw [readGitHistoryPageEntries, gitLog]
  by_cases empty : commits = []
  · subst empty
    simp
  · have parsed := @parseGitHistoryEntries_printLog
      ((commits.drop offset).take (limit + 1)) now fun commit member =>
        plain commit (List.mem_of_mem_drop (List.mem_of_mem_take member))
    simp only [List.isEmpty_iff, empty, if_false, parsed, List.length_map, List.length_take]
    by_cases more : limit < (commits.drop offset).length
    · rw [if_pos (by omega), if_pos more, ← List.map_take, List.take_take,
        Nat.min_eq_left (by omega)]
    · rw [if_neg (by omega), if_neg more, List.take_of_length_le (by omega),
        List.take_of_length_le (by omega)]

theorem followPages_eq (plain : ∀ commit ∈ commits, commit.Plain) (fuel : Nat) (sizes : Nat → Nat)
    (offset : Nat) (positive : ∀ page, 1 ≤ sizes page) (enough : commits.length < offset + fuel) :
    followPages commits now fuel sizes offset = some ((commits.drop offset).map entryOf) ∨
      fuel = 0 := by
  induction fuel generalizing sizes offset with
  | zero => exact Or.inr rfl
  | succ fuel ih =>
    refine Or.inl ?_
    have large := positive 0
    rw [followPages, readGitHistoryPageEntries_gitLog plain]
    by_cases more : sizes 0 < (commits.drop offset).length
    · rw [if_pos more]
      rw [List.length_drop] at more
      have rest := (ih (fun page => sizes (page + 1)) (offset + sizes 0)
        (fun page => positive (page + 1)) (by omega)).resolve_right (by omega)
      simp only [rest, Option.map_some, ← List.map_append]
      rw [← List.drop_drop, List.take_append_drop]
    · rw [if_neg more]
      simp only [List.take_of_length_le (Nat.le_of_not_lt more)]

theorem readGitHistoryFirstPage_gitLog (plain : ∀ commit ∈ commits, commit.Plain) {newest : Commit}
    (isNewest : newest ∈ commits.head?) (limit : Nat) {raw : Text}
    (isRaw : raw ∈ gitLog commits 0 (limit + 1)) : readGitHistoryFirstPage now raw limit =
      .ok
        { headHash := newest.hash.val
          headShortHash := newest.shortHash.val
          entries := (commits.take limit).map entryOf
          nextOffset := if limit < commits.length then some limit else none } := by
  have page := @readGitHistoryPageEntries_gitLog _ now plain 0 limit
  rw [readGitHistoryPageEntries, Option.mem_def.mp isRaw, List.drop_zero, Nat.zero_add] at page
  obtain ⟨rest, rfl⟩ := List.head?_eq_some_iff.mp isNewest
  have parsed : parseGitHistoryEntries now raw = ((newest :: rest).take (limit + 1)).map entryOf := by
    obtain rfl := Option.some.inj isRaw
    exact parseGitHistoryEntries_printLog fun commit member => plain commit (List.mem_of_mem_take member)
  rw [List.take_succ_cons, List.map_cons] at parsed
  dsimp only at page
  rw [readGitHistoryFirstPage]
  simp only [parsed] at page ⊢
  split at page
  · rename_i more
    obtain ⟨entries, next⟩ := Prod.mk.inj page
    rw [if_pos more, if_pos more, entries, ← next]
    rfl
  · rename_i last
    obtain ⟨entries, next⟩ := Prod.mk.inj page
    rw [if_neg last, if_neg last, entries, ← next]
    rfl

theorem trimEnd_lineBreak (text : Text) :
    trimEnd ('\n' :: text) = if trimEnd text = [] then [] else '\n' :: trimEnd text := by
  have blank : isWhiteSpace '\n' = true := by decide
  simp only [trimEnd, trimStart, List.reverse_cons, List.dropWhile_append, List.reverse_eq_nil_iff,
    List.isEmpty_iff]
  split
  · simp [blank]
  · simp

theorem readGitCommitDiffResult_gitShow (plain : commit.Plain) (commitHash : Text) :
    readGitCommitDiffResult now (gitShow commit) commitHash =
      .ok (entryOf commit, trimEnd commit.diff) := by
  have inPrint : ∀ char ∈ commit.print, decide (char ≠ recordSeparator) = true := by
    intro char member
    exact decide_eq_true fun same => plain.single (same ▸ member)
  rw [gitShow, trimEnd_solid recordSeparator_solid, readGitCommitDiffResult]
  rw [if_neg (by simp), List.takeWhile_append_of_pos inPrint, List.dropWhile_append_of_pos inPrint]
  simp only [List.takeWhile_cons, List.dropWhile_cons, ne_eq, not_true, decide_false,
    Bool.false_eq_true, if_false, List.append_nil, List.drop_succ_cons, List.drop_zero,
    parseGitHistoryEntryRecord_print plain]
  congr 2
  split
  · rename_i empty
    rw [empty]
    rfl
  · rw [trimEnd_lineBreak]
    split
    · rename_i blank
      rw [blank]
      rfl
    · rfl

theorem parseGitHistoryEntryRecord_plain {record : Text} {entry : GitHistoryEntry}
    (single : recordSeparator ∉ record)
    (parsed : parseGitHistoryEntryRecord now record = some entry) :
    ∀ text ∈ [entry.subject, entry.authorName],
      text ≠ [] ∧ fieldSeparator ∉ text ∧ recordSeparator ∉ text := by
  have piece : ∀ index, fieldSeparator ∉ (split fieldSeparator record).getD index [] ∧
      recordSeparator ∉ (split fieldSeparator record).getD index [] := by
    intro index
    rw [List.getD_eq_getElem?_getD]
    cases found : (split fieldSeparator record)[index]? with
    | none => simp
    | some field =>
      have isPiece := List.mem_of_getElem? found
      exact ⟨fun inside => (mem_of_mem_split isPiece inside).2 rfl,
        fun inside => single (mem_of_mem_split isPiece inside).1⟩
  have either : ∀ value fallback : Text, fallback ≠ [] →
      fieldSeparator ∉ value ∧ recordSeparator ∉ value →
      fieldSeparator ∉ fallback ∧ recordSeparator ∉ fallback →
      orElse value fallback ≠ [] ∧ fieldSeparator ∉ orElse value fallback ∧
        recordSeparator ∉ orElse value fallback := by
    intro value fallback some first second
    rw [orElse]
    split
    · exact ⟨some, second⟩
    · rename_i present
      exact ⟨present, first⟩
  unfold parseGitHistoryEntryRecord at parsed
  dsimp only at parsed
  split at parsed
  · exact absurd parsed (by simp)
  · rename_i present
    obtain rfl := Option.some.inj parsed
    rw [List.forall_mem_cons, List.forall_mem_singleton]
    exact ⟨either _ _ (not_or.mp present).2 (piece 2) (piece 1),
      either _ _ (by decide) (piece 3) (by decide)⟩

theorem readGitCommitDiffResult_plain {raw commitHash diff : Text}
    (read : readGitCommitDiffResult now raw commitHash = .ok (entryOf commit, diff)) :
    commit.Plain := by
  unfold readGitCommitDiffResult at read
  split at read
  · exact absurd read (by simp)
  · dsimp only at read
    split at read
    · exact absurd read (by simp)
    · rename_i entry parsed
      obtain rfl := (Prod.mk.inj (Except.ok.inj read)).1
      refine parseGitHistoryEntryRecord_plain (fun inside => ?_) parsed
      simpa using List.mem_takeWhile_imp inside

/-- A history is read back, with diffs trimmed at their ends, exactly when no text of a commit is
empty or has a separator; with diffs as git prints them, exactly when these are trimmed as well. -/
theorem gitHistory_read_iff (now : Text) (commits : List Commit) :
    (HistoryRead (fun commit => trimEnd commit.diff) now commits ↔
      ∀ commit ∈ commits, commit.Plain) ∧
    (HistoryRead Commit.diff now commits ↔
      ∀ commit ∈ commits, commit.Plain ∧ trimEnd commit.diff = commit.diff) := by
  have reads : (∀ commit ∈ commits, commit.Plain) →
      ∀ diffOf : Commit → Text, (∀ commit ∈ commits, trimEnd commit.diff = diffOf commit) →
        HistoryRead diffOf now commits := by
    intro plain diffOf same
    refine ⟨fun sizes positive => ?_, fun newest isNewest limit _ raw isRaw =>
      readGitHistoryFirstPage_gitLog plain isNewest limit isRaw, fun commit member => ?_⟩
    · exact (followPages_eq plain _ sizes 0 positive (by omega)).resolve_right (by omega)
    · rw [readGitCommitDiffResult_gitShow (plain commit member), same commit member]
  constructor
  · exact ⟨fun read commit member => readGitCommitDiffResult_plain (read.single commit member),
      fun plain => reads plain _ fun _ _ => rfl⟩
  · constructor
    · intro read commit member
      have single := read.single commit member
      have plain := readGitCommitDiffResult_plain single
      rw [readGitCommitDiffResult_gitShow plain] at single
      exact ⟨plain, (Prod.mk.inj (Except.ok.inj single)).2⟩
    · intro both
      exact reads (fun commit member => (both commit member).1) _ fun commit member =>
        (both commit member).2

theorem token_of_all {text : Text} (some : text ≠ [])
    (plain : text.all (fun char =>
      char ≠ fieldSeparator && char ≠ recordSeparator && !isWhiteSpace char) = true) :
    text ≠ [] ∧
      ∀ char ∈ text, char ≠ fieldSeparator ∧ char ≠ recordSeparator ∧ isWhiteSpace char = false := by
  refine ⟨some, fun char member => ?_⟩
  simpa [and_assoc] using List.all_eq_true.mp plain char member

def splitSubject : Commit where
  hash := ⟨"aaaa".toList, token_of_all (by decide) (by decide)⟩
  shortHash := ⟨"aa".toList, token_of_all (by decide) (by decide)⟩
  subject := ⟨['f', 'i', 'x', fieldSeparator, 'r', 'o', 'o', 't'], by decide⟩
  authorName := ⟨"Ann".toList, by decide⟩
  committedAt := ⟨"2024-01-01T00:00:00Z".toList, token_of_all (by decide) (by decide)⟩
  diff := []

theorem gitHistory_shifted :
    ¬HistoryRead (fun commit => trimEnd commit.diff) [] [splitSubject] ∧
      ¬HistoryRead Commit.diff [] [splitSubject] := by
  have split : ¬splitSubject.Plain := fun plain =>
    absurd (plain _ List.mem_cons_self).2.1 (by decide)
  exact ⟨fun read => split (readGitCommitDiffResult_plain (read.single _ List.mem_cons_self)),
    fun read => split (readGitCommitDiffResult_plain (read.single _ List.mem_cons_self))⟩

end Metidos.Git.History
