import Mathlib.Data.List.Forall2
import Metidos.Library.Separators

/-!
`parseWorktreeChanges` and `formatWorktreeStatusLines` of `src/bun/git.ts`, on texts as their UTF-16
code units, by which JavaScript indexes and compares them.
-/

namespace Metidos.Git

abbrev Text := List UInt16

def unit (char : Char) : UInt16 := char.toNat.toUInt16

inductive WorktreeChangeStatus
  | added
  | copied
  | deleted
  | modified
  | renamed
  | unmerged
  | untracked
  deriving DecidableEq

structure WorktreeChange where
  path : Text
  previousPath : Option Text
  stagedStatus : Option WorktreeChangeStatus
  unstagedStatus : Option WorktreeChangeStatus
  deriving DecidableEq

def normalizeWorktreeChangeStatus (code : UInt16) : Option WorktreeChangeStatus :=
  if code = unit 'A' then some .added
  else if code = unit 'C' then some .copied
  else if code = unit 'D' then some .deleted
  else if code = unit 'M' then some .modified
  else if code = unit 'R' then some .renamed
  else if code = unit 'U' then some .unmerged
  else if code = unit '?' then some .untracked
  else none

def parseRecords : List Text → List WorktreeChange
  | [] => []
  | record :: records =>
    if record.length < 4 then parseRecords records
    else
      let stagedCode := record.getD 0 (unit ' ')
      let change (previousPath : Option Text) : WorktreeChange :=
        { path := record.drop 3
          previousPath
          stagedStatus := normalizeWorktreeChangeStatus stagedCode
          unstagedStatus := normalizeWorktreeChangeStatus (record.getD 1 (unit ' ')) }
      if stagedCode = unit 'R' ∨ stagedCode = unit 'C' then
        match records with
        | [] => [change none]
        | previous :: rest =>
          change (if previous = [] then none else some previous) :: parseRecords rest
      else change none :: parseRecords records

def parseWorktreeChanges (raw : Text) : List WorktreeChange :=
  if raw = [] then []
  else (parseRecords (Separators.split 0 raw)).mergeSort fun left right => left.path ≤ right.path

def worktreeChangeStatusCode : Option WorktreeChangeStatus → UInt16
  | some .added => unit 'A'
  | some .copied => unit 'C'
  | some .deleted => unit 'D'
  | some .modified => unit 'M'
  | some .renamed => unit 'R'
  | some .unmerged => unit 'U'
  | some .untracked => unit '?'
  | none => unit ' '

def formatWorktreeStatusLine (change : WorktreeChange) : Text :=
  let path :=
    match change.previousPath with
    | some previousPath =>
      if previousPath ≠ [] ∧
          (change.stagedStatus = some .renamed ∨ change.stagedStatus = some .copied) then
        previousPath ++ (" -> ".toList.map unit ++ change.path)
      else change.path
    | none => change.path
  [worktreeChangeStatusCode change.stagedStatus, worktreeChangeStatusCode change.unstagedStatus,
    unit ' '] ++ path

def formatWorktreeStatusLines (changes : List WorktreeChange) : List Text :=
  changes.map formatWorktreeStatusLine

/-- A path that git prints: not empty and without NUL. -/
abbrev GitPath := { path : Text // path ≠ [] ∧ 0 ∉ path }

abbrev StatusLetter := { code : UInt16 // code ≠ 0 }

def StatusLetter.moves (letter : StatusLetter) : Prop :=
  letter.val = unit 'R' ∨ letter.val = unit 'C'

/-- An entry of `git status --porcelain=v1 -z`: the original path is there exactly when a letter
says that the file moved. -/
structure StatusEntry where
  staged : StatusLetter
  unstaged : StatusLetter
  path : GitPath
  original : Option GitPath
  hasOriginal : original.isSome = true ↔ staged.moves ∨ unstaged.moves

def StatusEntry.record (entry : StatusEntry) : Text :=
  entry.staged.val :: entry.unstaged.val :: unit ' ' :: entry.path.val

def StatusEntry.print (entry : StatusEntry) : Text :=
  entry.record ++ 0 :: match entry.original with
    | some original => original.val ++ [0]
    | none => []

def printStatus (entries : List StatusEntry) : Text := entries.flatMap StatusEntry.print

structure Shows (entry : StatusEntry) (change : WorktreeChange) : Prop where
  path : change.path = entry.path.val
  original : change.previousPath = entry.original.map Subtype.val
  staged : worktreeChangeStatusCode change.stagedStatus = entry.staged.val
  unstaged : worktreeChangeStatusCode change.unstagedStatus = entry.unstaged.val

/-- One change for each entry, in the order of the paths, and lines that end in these. -/
structure ParsedExactly (entries : List StatusEntry) (changes : List WorktreeChange) : Prop where
  one : ∃ order, order.Perm entries ∧ List.Forall₂ Shows order changes
  sorted : changes.Pairwise fun left right => left.path ≤ right.path
  named : ∀ entry ∈ entries, ∃ line ∈ formatWorktreeStatusLines changes, entry.path.val <:+ line

def StatusLetter.Known (letter : StatusLetter) : Prop :=
  letter.val ∈ "ACDMRU? ".toList.map unit

theorem worktreeChangeStatusCode_known (status : Option WorktreeChangeStatus) :
    worktreeChangeStatusCode status ∈ "ACDMRU? ".toList.map unit := by
  cases status with
  | none => decide
  | some status => cases status <;> decide

theorem worktreeChangeStatusCode_normalize {code : UInt16}
    (known : code ∈ "ACDMRU? ".toList.map unit) :
    worktreeChangeStatusCode (normalizeWorktreeChangeStatus code) = code := by
  have all : ("ACDMRU? ".toList.map unit).all (fun code =>
      worktreeChangeStatusCode (normalizeWorktreeChangeStatus code) = code) = true := by
    decide
  exact of_decide_eq_true (List.all_eq_true.mp all code known)

theorem parseRecords_previousPath (records : List Text) : ∀ change ∈ parseRecords records,
    change.previousPath ≠ none →
      change.stagedStatus = some .renamed ∨ change.stagedStatus = some .copied := by
  have moved : ∀ code, code = unit 'R' ∨ code = unit 'C' →
      normalizeWorktreeChangeStatus code = some .renamed ∨
        normalizeWorktreeChangeStatus code = some .copied := by
    rintro code (rfl | rfl)
    · exact Or.inl (by decide)
    · exact Or.inr (by decide)
  fun_induction parseRecords records with
  | case1 => simp
  | case2 record records short ih => exact ih
  | case3 record long stagedCode change moves =>
    rw [List.forall_mem_singleton]
    exact fun _ => moved _ moves
  | case4 record long stagedCode change moves previous rest ih =>
    rw [List.forall_mem_cons]
    exact ⟨fun _ => moved _ moves, ih⟩
  | case5 record records long stagedCode change stays ih =>
    rw [List.forall_mem_cons]
    exact ⟨fun some => absurd rfl some, ih⟩

def changeOf (entry : StatusEntry) : WorktreeChange where
  path := entry.path.val
  previousPath := entry.original.map Subtype.val
  stagedStatus := normalizeWorktreeChangeStatus entry.staged.val
  unstagedStatus := normalizeWorktreeChangeStatus entry.unstaged.val

theorem parseRecords_print {entry : StatusEntry}
    (stagedMoves : entry.unstaged.moves → entry.staged.moves) (rest : Text) :
    parseRecords (Separators.split 0 (entry.print ++ rest)) =
      changeOf entry :: parseRecords (Separators.split 0 rest) := by
  have plain : 0 ∉ entry.record := by
    simp only [StatusEntry.record, List.mem_cons, not_or]
    exact ⟨entry.staged.property.symm, entry.unstaged.property.symm, by decide,
      entry.path.property.2⟩
  have long : ¬entry.record.length < 4 := by
    have some := List.length_pos_of_ne_nil entry.path.property.1
    simp only [StatusEntry.record, List.length_cons]
    omega
  rw [StatusEntry.print]
  cases isOriginal : entry.original with
  | none =>
    have stays : ¬(entry.staged.val = unit 'R' ∨ entry.staged.val = unit 'C') := by
      intro moves
      have present := entry.hasOriginal.mpr (Or.inl moves)
      rw [isOriginal] at present
      cases present
    rw [List.append_assoc, List.cons_append, List.nil_append, Separators.split_append plain,
      parseRecords, if_neg long]
    simp only [StatusEntry.record, List.getD_cons_zero, stays, if_false]
    simp [changeOf, isOriginal]
  | some original =>
    have moves : entry.staged.val = unit 'R' ∨ entry.staged.val = unit 'C' := by
      have either := entry.hasOriginal.mp (isOriginal ▸ rfl)
      exact either.elim id stagedMoves
    rw [List.append_assoc, List.cons_append, Separators.split_append plain, List.append_assoc,
      List.singleton_append, Separators.split_append original.property.2, parseRecords,
      if_neg long]
    simp only [StatusEntry.record, List.getD_cons_zero, moves, if_true]
    simp [changeOf, isOriginal, original.property.1]

theorem parseRecords_printStatus {entries : List StatusEntry}
    (stagedMoves : ∀ entry ∈ entries, entry.unstaged.moves → entry.staged.moves) :
    parseRecords (Separators.split 0 (printStatus entries)) = entries.map changeOf := by
  induction entries with
  | nil => rfl
  | cons entry entries ih =>
    rw [List.forall_mem_cons] at stagedMoves
    have tail := ih stagedMoves.2
    rw [printStatus] at tail ⊢
    rw [List.flatMap_cons, parseRecords_print stagedMoves.1, tail]
    rfl

theorem parseWorktreeChanges_printStatus {entries : List StatusEntry}
    (stagedMoves : ∀ entry ∈ entries, entry.unstaged.moves → entry.staged.moves) :
    parseWorktreeChanges (printStatus entries) =
      (entries.mergeSort fun left right => left.path.val ≤ right.path.val).map changeOf := by
  have ordered : (entries.mergeSort fun left right => left.path.val ≤ right.path.val).map changeOf =
      (entries.map changeOf).mergeSort fun left right => left.path ≤ right.path :=
    List.map_mergeSort fun _ _ _ _ => rfl
  rw [parseWorktreeChanges, parseRecords_printStatus stagedMoves, ordered]
  split
  · rename_i empty
    cases entries with
    | nil => exact List.mergeSort_nil.symm
    | cons entry entries => simp [printStatus, StatusEntry.print] at empty
  · rfl

theorem parseWorktreeChanges_previousPath {raw : Text} {change : WorktreeChange}
    (member : change ∈ parseWorktreeChanges raw) (some : change.previousPath ≠ none) :
    worktreeChangeStatusCode change.stagedStatus = unit 'R' ∨
      worktreeChangeStatusCode change.stagedStatus = unit 'C' := by
  rw [parseWorktreeChanges] at member
  split at member
  · exact absurd member List.not_mem_nil
  · rcases parseRecords_previousPath _ change (List.mem_mergeSort.mp member) some with moved | moved
    · exact Or.inl (moved ▸ rfl)
    · exact Or.inr (moved ▸ rfl)

theorem path_isSuffixOf_line (change : WorktreeChange) :
    change.path <:+ formatWorktreeStatusLine change := by
  refine List.IsSuffix.trans ?_ (List.suffix_append _ _)
  split
  · split
    · exact (List.suffix_append _ _).trans (List.suffix_append _ _)
    · exact List.suffix_rfl
  · exact List.suffix_rfl

theorem exists_shown {order : List StatusEntry} {changes : List WorktreeChange}
    (shown : List.Forall₂ Shows order changes) {entry : StatusEntry} (member : entry ∈ order) :
    ∃ change ∈ changes, Shows entry change := by
  induction shown with
  | nil => exact absurd member List.not_mem_nil
  | @cons _ change _ _ shows _ ih =>
    rcases List.mem_cons.mp member with rfl | later
    · exact ⟨change, by simp, shows⟩
    · obtain ⟨other, isOther, shows⟩ := ih later
      exact ⟨other, List.mem_cons_of_mem _ isOther, shows⟩

/-- Status output is parsed exactly when every letter is one that a change can have and no file is
moved in the worktree alone. -/
theorem worktreeChanges_parsedExactly_iff (entries : List StatusEntry) :
    ParsedExactly entries (parseWorktreeChanges (printStatus entries)) ↔
      ∀ entry ∈ entries, entry.staged.Known ∧ entry.unstaged.Known ∧
        (entry.unstaged.moves → entry.staged.moves) := by
  constructor
  · rintro ⟨⟨order, perm, shown⟩, -, -⟩ entry member
    obtain ⟨change, isChange, shows⟩ := exists_shown shown (perm.mem_iff.mpr member)
    have stagedKnown := worktreeChangeStatusCode_known change.stagedStatus
    have unstagedKnown := worktreeChangeStatusCode_known change.unstagedStatus
    rw [shows.staged] at stagedKnown
    rw [shows.unstaged] at unstagedKnown
    refine ⟨stagedKnown, unstagedKnown, fun moves => ?_⟩
    have original := entry.hasOriginal.mpr (Or.inr moves)
    have present : change.previousPath ≠ none := by
      rw [shows.original]
      intro absent
      rw [Option.map_eq_none_iff.mp absent] at original
      cases original
    have moved := parseWorktreeChanges_previousPath isChange present
    rw [shows.staged] at moved
    exact moved
  · intro good
    rw [parseWorktreeChanges_printStatus fun entry member => (good entry member).2.2]
    have perm := List.mergeSort_perm entries fun left right => left.path.val ≤ right.path.val
    refine ⟨⟨_, perm, ?_⟩, ?_, ?_⟩
    · rw [List.forall₂_map_right_iff, List.forall₂_same]
      intro entry member
      obtain ⟨staged, unstaged, -⟩ := good entry (perm.mem_iff.mp member)
      exact ⟨rfl, rfl, worktreeChangeStatusCode_normalize staged,
        worktreeChangeStatusCode_normalize unstaged⟩
    · rw [List.pairwise_map]
      refine (List.pairwise_mergeSort ?_ ?_ entries).imp of_decide_eq_true
      · intro first second third
        simp only [decide_eq_true_eq]
        exact List.le_trans
      · intro first second
        simpa only [Bool.or_eq_true, decide_eq_true_eq] using List.le_total _ _
    · intro entry member
      refine ⟨_, List.mem_map_of_mem (List.mem_map_of_mem (perm.mem_iff.mpr member)), ?_⟩
      exact path_isSuffixOf_line (changeOf entry)

def renamedInWorktree : StatusEntry where
  staged := ⟨unit ' ', by decide⟩
  unstaged := ⟨unit 'R', by decide⟩
  path := ⟨"new.txt".toList.map unit, by decide⟩
  original := some ⟨"old.txt".toList.map unit, by decide⟩
  hasOriginal := iff_of_true rfl (Or.inr (Or.inl rfl))

theorem worktreeChanges_renamed_twice :
    ¬ParsedExactly [renamedInWorktree] (parseWorktreeChanges (printStatus [renamedInWorktree])) := by
  rintro ⟨⟨order, perm, shown⟩, -, -⟩
  obtain rfl := List.perm_singleton.mp perm
  have two : (parseRecords (Separators.split 0 (printStatus [renamedInWorktree]))).length = 2 := by
    decide +kernel
  have same := shown.length_eq
  rw [parseWorktreeChanges, if_neg (by decide), List.length_mergeSort, two] at same
  exact absurd same (by decide)

end Metidos.Git
