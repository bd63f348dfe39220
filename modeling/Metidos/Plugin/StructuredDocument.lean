import Mathlib.Data.List.Nodup
import Metidos.Plugin.StructuredText

/-!
`stringifyTomlDocument` as a whole: the document that it returns denotes the value.
-/

namespace Metidos.StructuredData

open JsText Toml

def linesText (lines : List Text) : Text := lines.flatMap (· ++ [lineFeed])

theorem documentText_eq (lines : List Text) : documentText lines = linesText lines := by
  rw [documentText, linesText]
  induction lines with
  | nil => rfl
  | cons line lines ih =>
    cases lines with
    | nil => simp [List.intercalate]
    | cons next lines => simpa [List.intercalate] using ih

theorem length_le_linesText (lines : List Text) : lines.length ≤ (linesText lines).length := by
  induction lines with
  | nil => simp
  | cons line lines ih =>
    simp only [linesText, List.flatMap_cons, List.length_append, List.length_cons] at ih ⊢
    omega

theorem assertTomlKey_starts (key : Key) :
    ∃ first rest, assertTomlKey key = first :: rest ∧ first ≠ lineFeed ∧ first ≠ '[' := by
  rw [assertTomlKey]
  split
  · exact ⟨quoteMark, _, rfl, by decide⟩
  · rename_i bare some isBareKey
    have allBare := (keyChars_of_bare isBareKey).2
    cases bare with
    | nil => exact absurd rfl some
    | cons first rest =>
      have firstBare := allBare first List.mem_cons_self
      refine ⟨first, rest, rfl, ?_, ?_⟩
      · rintro rfl
        revert firstBare
        decide
      · rintro rfl
        revert firstBare
        decide
  · exact ⟨quoteMark, _, rfl, by decide⟩

theorem readLines_line {text : Text} {first : Char} {rest after : Text}
    (starts : text = first :: rest) (solid : first ≠ lineFeed) {line : Option Line}
    (read : readExpression (text ++ lineFeed :: after) =
      line.map fun line => (line, lineFeed :: after)) (fuel : Nat) :
    readLines (fuel + 1) (text ++ lineFeed :: after) =
      line.bind fun line => (readLines fuel after).map (line :: ·) := by
  subst starts
  rw [List.cons_append] at read ⊢
  rw [readLines, if_neg solid, read]
  cases line with
  | none => rfl
  | some line => simp

def entryLeaf (key : Key) (entry : Value) : Option (Text × Leaf) :=
  (keyChars key).bind fun chars =>
    if isWritable entry then (leafOf entry).map fun leaf => (chars, leaf) else none

theorem readExpression_entry {key : Key} {entry : Value} {text : Text}
    (printed : stringifyTomlValue entry = .ok text) (after : Text) :
    readExpression (assertTomlKey key ++ ' ' :: '=' :: ' ' :: text ++ lineFeed :: after) =
      ((entryLeaf key entry).map fun read => Line.entry read.1 read.2).map fun line =>
        (line, lineFeed :: after) := by
  obtain ⟨first, rest, starts, -, notBracket⟩ := assertTomlKey_starts key
  have read := @readKey_text key (' ' :: '=' :: ' ' :: (text ++ lineFeed :: after))
    (by simp; decide)
  have value := @readValue_text entry text printed (lineFeed :: after) (by simp; decide)
    ((text ++ lineFeed :: after).length + 1) (by simp only [List.length_append]; omega)
  have whole : assertTomlKey key ++ ' ' :: '=' :: ' ' :: text ++ lineFeed :: after =
      assertTomlKey key ++ ' ' :: '=' :: ' ' :: (text ++ lineFeed :: after) := by simp
  rw [whole]
  unfold readExpression
  split
  · rename_i same
    rw [starts] at same
    exact absurd (List.cons.inj same).1 notBracket
  · rw [read, entryLeaf]
    cases keyChars key with
    | none => rfl
    | some chars =>
      simp only [Option.map_some, value, Option.bind_some]
      cases isWritable entry <;> cases leafOf entry <;> rfl

theorem intercalate_length (path : List Key) :
    path.length ≤ (['.'].intercalate (path.map assertTomlKey)).length + 1 := by
  induction path with
  | nil => simp
  | cons key path ih =>
    cases path with
    | nil => simp
    | cons next path =>
      simp only [List.map_cons, List.intercalate_cons_cons, List.length_append,
        List.length_cons] at ih ⊢
      omega

theorem readExpression_header {path : List Key} (some : path ≠ []) (after : Text) :
    readExpression (headerText path ++ lineFeed :: after) =
      ((path.mapM keyChars).map Line.header).map fun line => (line, lineFeed :: after) := by
  have long := intercalate_length path
  have read := @readHeader_text path some (lineFeed :: after)
    ((['.'].intercalate (path.map assertTomlKey) ++ ']' :: lineFeed :: after).length + 1)
    (by rw [List.length_append]; omega)
  rw [headerText, List.cons_append, List.append_assoc, List.singleton_append, readExpression, read]
  cases path.mapM keyChars <;> rfl

def isTableOrNull (entry : Value) : Bool := isNullish entry || (tomlRecord entry).isSome

def entryLeaves (entries : Entries) : Option (List (Text × Leaf)) :=
  (entries.filter fun entry => !isTableOrNull entry.2).mapM fun entry => entryLeaf entry.1 entry.2

def leafLines (leaves : List (Text × Leaf)) : List Line :=
  leaves.map fun leaf => .entry leaf.1 leaf.2

theorem readLines_entries {entries : Entries} {lines : List Text}
    (printed : entryLines entries = .ok lines) (fuel : Nat) (after : Text) :
    readLines (fuel + lines.length) (linesText lines ++ after) =
      (entryLeaves entries).bind fun leaves =>
        (readLines fuel after).map (leafLines leaves ++ ·) := by
  induction entries generalizing lines with
  | nil =>
    obtain rfl := Except.ok.inj printed
    simp [linesText, entryLeaves, leafLines]
  | cons first rest ih =>
    obtain ⟨key, entry⟩ := first
    rw [entryLines] at printed
    split at printed
    · rename_i skipped
      rw [entryLeaves, List.filter_cons_of_neg (by
        simp [show isTableOrNull entry = true from skipped])]
      exact ih printed
    · rename_i kept
      have own : entryLeaves ((key, entry) :: rest) =
          (entryLeaf key entry).bind fun read => (entryLeaves rest).map (read :: ·) := by
        rw [entryLeaves, List.filter_cons_of_pos (by simpa [isTableOrNull] using kept), List.mapM_cons]
        cases entryLeaf key entry with
        | none => rfl
        | some read => cases whole : entryLeaves rest <;> rw [entryLeaves] at whole <;> simp [whole]
      rw [own]
      split at printed
      · rename_i text isText
        cases tail : entryLines rest with
        | error error => simp [tail, Except.map] at printed
        | ok others =>
          obtain rfl := by simpa [tail, Except.map] using printed
          obtain ⟨char, more, starts, solid, -⟩ := assertTomlKey_starts key
          have line := readLines_line (by rw [starts]; rfl) solid
            (@readExpression_entry key entry text isText (linesText others ++ after))
            (fuel + others.length)
          have whole : linesText ((assertTomlKey key ++ ' ' :: '=' :: ' ' :: text) :: others) ++
              after = assertTomlKey key ++ ' ' :: '=' :: ' ' :: text ++
                lineFeed :: (linesText others ++ after) := by
            simp [linesText]
          rw [whole, List.length_cons, ← Nat.add_assoc, line, ih tail]
          cases entryLeaf key entry with
          | none => rfl
          | some read => cases entryLeaves rest <;> cases readLines fuel after <;> rfl
      · cases printed

def readTable (table : List Key × Entries) : Option Table :=
  (table.1.mapM keyChars).bind fun path => (entryLeaves table.2).map fun leaves => ⟨path, leaves⟩

def expressions (table : Table) : List Line := .header table.path :: leafLines table.entries

theorem readLines_tables {tables : List (List Key × Entries)} {lines result : List Text}
    (printed : tables.foldlM tableLines lines = .ok result)
    (nested : ∀ table ∈ tables, table.1 ≠ []) :
    (∀ table ∈ tables, ∃ pushed, entryLines table.2 = .ok pushed) ∧
    ∃ more, result = lines ++ more ∧ ∀ fuel, readLines (fuel + more.length) (linesText more) =
      (tables.mapM readTable).map fun read => read.flatMap expressions := by
  induction tables generalizing lines with
  | nil =>
    obtain rfl := Except.ok.inj printed
    refine ⟨by simp, [], by simp, fun fuel => ?_⟩
    cases fuel <;> rfl
  | cons table tables ih =>
    rw [List.foldlM_cons, tableLines] at printed
    cases own : entryLines table.2 with
    | error error =>
      rw [own] at printed
      cases printed
    | ok pushed =>
      rw [own] at printed
      obtain ⟨others, more, isResult, reads⟩ := ih printed fun other member =>
        nested other (List.mem_cons_of_mem _ member)
      have header := @readLines_line (headerText table.1) _ _ _ rfl (by decide) _
        (readExpression_header (nested table List.mem_cons_self)
          (linesText pushed ++ linesText more))
      have body : ∀ fuel, readLines (fuel + (headerText table.1 :: (pushed ++ more)).length)
          (linesText (headerText table.1 :: (pushed ++ more))) =
            ((table :: tables).mapM readTable).map fun read => read.flatMap expressions := by
        intro fuel
        have whole : linesText (headerText table.1 :: (pushed ++ more)) =
            headerText table.1 ++ lineFeed :: (linesText pushed ++ linesText more) := by
          simp [linesText]
        have count : fuel + (headerText table.1 :: (pushed ++ more)).length =
            ((fuel + more.length) + pushed.length) + 1 := by
          simp only [List.length_cons, List.length_append]
          omega
        rw [whole, count, header, readLines_entries own, reads, List.mapM_cons, readTable]
        cases table.1.mapM keyChars with
        | none => rfl
        | some path =>
          cases entryLeaves table.2 with
          | none => rfl
          | some leaves =>
            cases tables.mapM readTable <;> simp [expressions]
      refine ⟨List.forall_mem_cons.mpr ⟨⟨pushed, own⟩, others⟩,
        (if lines = [] then [] else [[]]) ++ headerText table.1 :: (pushed ++ more), ?_,
        fun fuel => ?_⟩
      · rw [isResult]
        simp
      · split
        · exact body fuel
        · exact body fuel

theorem tablesOf_expressions (path : List Text) (leaves : List (Text × Leaf)) (tables : List Table) :
    tablesOf path (leafLines leaves ++ tables.flatMap expressions) = ⟨path, leaves⟩ :: tables := by
  induction tables generalizing path leaves with
  | nil =>
    induction leaves with
    | nil => rfl
    | cons leaf leaves ih =>
      rw [leafLines, List.map_cons, List.cons_append, tablesOf]
      rw [leafLines] at ih
      rw [ih]
      rfl
  | cons table tables ih =>
    induction leaves with
    | nil =>
      rw [leafLines, List.map_nil, List.nil_append, List.flatMap_cons, expressions,
        List.cons_append, tablesOf, ih]
    | cons leaf leaves rest =>
      rw [leafLines, List.map_cons, List.cons_append, tablesOf]
      rw [leafLines] at rest
      rw [rest]
      rfl

theorem mem_nestedTables {path : List Key} {entries : Entries} {table : List Key × Entries} :
    table ∈ nestedTables path entries ↔ ∃ key entry, (key, entry) ∈ entries ∧
      tomlRecord entry = some table.2 ∧ table.1 = path ++ [key] := by
  induction entries with
  | nil => simp [nestedTables]
  | cons first rest ih =>
    obtain ⟨key, entry⟩ := first
    rw [nestedTables]
    cases isRecord : tomlRecord entry with
    | none =>
      simp only [ih, List.mem_cons, Prod.mk.injEq]
      grind
    | some nested =>
      obtain ⟨tablePath, tableEntries⟩ := table
      simp only [List.mem_cons, ih, Prod.mk.injEq]
      grind

/-- The entries of the value's objects at a path of keys, without those that are null. -/
inductive Reaches : Value → List Key → Value → Prop
  | here {value : Value} (present : isNullish value = false) : Reaches value [] value
  | entry {entries : Entries} {key : Key} {entry : Value} {path : List Key} {found : Value}
      (member : (key, entry) ∈ entries) (inside : Reaches entry path found) :
      Reaches (.object entries) (key :: path) found

theorem reaches_object {entries : Entries} {path : List Key} {found : Value} :
    Reaches (.object entries) path found ↔ (path = [] ∧ found = .object entries) ∨
      ∃ key entry rest, path = key :: rest ∧ (key, entry) ∈ entries ∧ Reaches entry rest found := by
  constructor
  · intro reaches
    cases reaches with
    | here => exact Or.inl ⟨rfl, rfl⟩
    | entry member inside => exact Or.inr ⟨_, _, _, rfl, member, inside⟩
  · rintro (⟨rfl, rfl⟩ | ⟨key, entry, rest, rfl, member, inside⟩)
    · exact .here rfl
    · exact .entry member inside

theorem reaches_record {entry : Value} {entries table : Entries} {path : List Key}
    (isRecord : tomlRecord entry = some entries) :
    (∃ found, Reaches entry path found ∧ tomlRecord found = some table) ↔
      ∃ found, Reaches (.object entries) path found ∧ tomlRecord found = some table := by
  cases entry with
  | object own =>
    obtain rfl := Option.some.inj isRecord
    rfl
  | date value =>
    obtain rfl := Option.some.inj isRecord
    constructor
    · rintro ⟨found, reaches, isTable⟩
      cases reaches
      exact ⟨.object [], .here rfl, isTable⟩
    · rintro ⟨found, reaches, isTable⟩
      rcases reaches_object.mp reaches with ⟨rfl, rfl⟩ | ⟨key, other, rest, -, member, -⟩
      · exact ⟨.date value, .here rfl, isTable⟩
      · exact absurd member List.not_mem_nil
  | array items => cases isRecord
  | string text => cases isRecord
  | boolean value => cases isRecord
  | number value => cases isRecord
  | null => cases isRecord
  | undefined => cases isRecord

theorem record_of_reaches {entry found : Value} {path : List Key} {table : Entries}
    (reaches : Reaches entry path found) (isTable : tomlRecord found = some table) :
    ∃ entries, tomlRecord entry = some entries := by
  cases reaches with
  | here => exact ⟨table, isTable⟩
  | entry member inside => exact ⟨_, rfl⟩

theorem mem_loopTables (queue : List (List Key × Entries)) (path : List Key) (table : Entries) :
    (path, table) ∈ loopTables queue ↔ ∃ start ∈ queue, ∃ rest, path = start.1 ++ rest ∧
      ∃ found, Reaches (.object start.2) rest found ∧ tomlRecord found = some table := by
  induction queue using loopTables.induct with
  | case1 => simp [loopTables]
  | case2 first entries rest ih =>
    rw [loopTables, List.mem_cons, ih]
    constructor
    · rintro (same | ⟨start, member, path, rfl, reaches⟩)
      · obtain ⟨rfl, rfl⟩ := Prod.mk.inj same
        exact ⟨_, List.mem_cons_self, [], by simp, _, .here rfl, rfl⟩
      · rcases List.mem_append.mp member with queued | nested
        · exact ⟨start, List.mem_cons_of_mem _ queued, path, rfl, reaches⟩
        · obtain ⟨key, entry, isEntry, isRecord, startPath⟩ := mem_nestedTables.mp nested
          obtain ⟨found, inside, isTable⟩ := (reaches_record isRecord).mpr reaches
          exact ⟨_, List.mem_cons_self, key :: path, by simp [startPath], found,
            .entry isEntry inside, isTable⟩
    · rintro ⟨start, member, path, rfl, found, reaches, isTable⟩
      rcases List.mem_cons.mp member with rfl | queued
      · rcases reaches_object.mp reaches with ⟨rfl, rfl⟩ | ⟨key, entry, more, rfl, isEntry, inside⟩
        · left
          exact Prod.ext (List.append_nil _) (Option.some.inj isTable).symm
        · obtain ⟨nested, isRecord⟩ := record_of_reaches inside isTable
          refine Or.inr ⟨(first ++ [key], nested), List.mem_append_right _
            (mem_nestedTables.mpr ⟨key, entry, isEntry, isRecord, rfl⟩), more, by simp,
            (reaches_record isRecord).mp ⟨found, inside, isTable⟩⟩
      · exact Or.inr ⟨start, List.mem_append_left _ queued, path, rfl, found, reaches, isTable⟩

def Apart (queue : List (List Key × Entries)) : Prop :=
  queue.Pairwise fun left right => ¬left.1 <+: right.1 ∧ ¬right.1 <+: left.1

theorem nestedTables_apart (path : List Key) {entries : Entries}
    (distinct : (entries.map Prod.fst).Nodup) : Apart (nestedTables path entries) := by
  induction entries with
  | nil => exact List.Pairwise.nil
  | cons first rest ih =>
    obtain ⟨key, entry⟩ := first
    obtain ⟨fresh, distinct⟩ := List.nodup_cons.mp distinct
    rw [nestedTables]
    split
    · refine List.Pairwise.cons (fun table member => ?_) (ih distinct)
      obtain ⟨other, found, isEntry, -, isPath⟩ := mem_nestedTables.mp member
      have differs : key ≠ other := by
        rintro rfl
        exact fresh (List.mem_map.mpr ⟨_, isEntry, rfl⟩)
      rw [isPath]
      constructor
      · rw [List.prefix_append_right_inj]
        simpa using differs
      · rw [List.prefix_append_right_inj]
        simpa using Ne.symm differs
    · exact ih distinct

theorem loopTables_nodup {queue : List (List Key × Entries)} (apart : Apart queue)
    (distinct : ∀ table ∈ loopTables queue, (table.2.map Prod.fst).Nodup) :
    ((loopTables queue).map Prod.fst).Nodup := by
  induction queue using loopTables.induct with
  | case1 => simp [loopTables]
  | case2 path entries rest ih =>
    rw [loopTables] at distinct ⊢
    obtain ⟨headApart, restApart⟩ := List.pairwise_cons.mp apart
    have nestedApart := nestedTables_apart path (distinct _ List.mem_cons_self)
    have below {table : List Key × Entries} (nested : table ∈ nestedTables path entries) :
        ∃ key, table.1 = path ++ [key] := by
      obtain ⟨key, -, -, -, isPath⟩ := mem_nestedTables.mp nested
      exact ⟨key, isPath⟩
    rw [List.map_cons, List.nodup_cons]
    constructor
    · intro member
      obtain ⟨⟨again, table⟩, isTable, rfl⟩ := List.mem_map.mp member
      obtain ⟨start, queued, more, isPath, -⟩ := (mem_loopTables _ _ _).mp isTable
      rcases List.mem_append.mp queued with inRest | nested
      · exact (headApart start inRest).2 ⟨more, isPath.symm⟩
      · obtain ⟨key, startPath⟩ := below nested
        have length := congrArg List.length isPath
        simp [startPath] at length
    · refine ih (List.pairwise_append.mpr ⟨restApart, nestedApart, fun left isLeft right isRight =>
        ?_⟩) fun table member => distinct table (List.mem_cons_of_mem _ member)
      obtain ⟨key, rightPath⟩ := below isRight
      obtain ⟨notAbove, notBelow⟩ := headApart left isLeft
      rw [rightPath]
      constructor
      · intro above
        rcases List.prefix_concat_iff.mp above with same | above
        · exact notAbove (same ▸ List.prefix_append path [key])
        · exact notBelow above
      · intro under
        exact notAbove ((List.prefix_append path [key]).trans under)

section Mapped

variable {α β γ : Type} {f : α → Option β} {list : List α} {result : List β}

theorem mapM_some (all : list.mapM f = some result) :
    (∀ found, found ∈ result ↔ ∃ element ∈ list, f element = some found) ∧
    (∀ element ∈ list, ∃ found, f element = some found) ∧
    ∀ (g : β → γ) (h : α → γ), (∀ element found, f element = some found → g found = h element) →
      result.map g = list.map h := by
  induction list generalizing result with
  | nil =>
    obtain rfl : result = [] := by simpa using all.symm
    simp
  | cons first list ih =>
    rw [List.mapM_cons] at all
    cases isFirst : f first with
    | none => simp [isFirst] at all
    | some found =>
      cases tail : list.mapM f with
      | none => simp [isFirst, tail] at all
      | some others =>
        obtain rfl : result = found :: others := by simpa [isFirst, tail] using all.symm
        obtain ⟨members, each, images⟩ := ih tail
        refine ⟨fun other => ?_, ?_, fun g h same => ?_⟩
        · simp [members, isFirst, eq_comm]
        · exact List.forall_mem_cons.mpr ⟨⟨found, isFirst⟩, each⟩
        · rw [List.map_cons, List.map_cons, same _ _ isFirst, images g h same]

theorem mapM_isSome (each : ∀ element ∈ list, ∃ found, f element = some found) :
    ∃ result, list.mapM f = some result := by
  induction list with
  | nil => exact ⟨[], rfl⟩
  | cons first list ih =>
    obtain ⟨⟨found, isFirst⟩, rest⟩ := List.forall_mem_cons.mp each
    obtain ⟨others, tail⟩ := ih rest
    exact ⟨found :: others, by simp [List.mapM_cons, isFirst, tail]⟩

end Mapped

def keyOf (text : Text) : Key := text.map .scalar

theorem keyOf_injective : Function.Injective keyOf :=
  List.map_injective_iff.mpr fun _ _ same => KeyPoint.scalar.inj same

theorem keyOf_of_chars {key : Key} {chars : Text} (read : keyChars key = some chars) :
    keyOf chars = key := by
  have image := (mapM_some read).2.2 KeyPoint.scalar id fun point char isChar => by
    cases point with
    | scalar other =>
      rw [keyChar] at isChar
      split at isChar
      · cases isChar
      · rw [Option.some.inj isChar]
        rfl
    | surrogate offset => cases isChar
  rwa [List.map_id] at image

theorem path_of_chars {path : List Key} {texts : List Text}
    (read : path.mapM keyChars = some texts) : texts.map keyOf = path := by
  have image := (mapM_some read).2.2 keyOf id fun key chars isChars => keyOf_of_chars isChars
  rwa [List.map_id] at image

def WritableKey (key : Key) : Prop := ∀ point ∈ key, ∃ char, point = .scalar char ∧ char ≠ delete

theorem writableKey_iff {key : Key} : WritableKey key ↔ ∃ chars, keyChars key = some chars := by
  have one (point : KeyPoint) : (∃ char, point = .scalar char ∧ char ≠ delete) ↔
      ∃ char, keyChar point = some char := by
    cases point with
    | scalar char => by_cases deleted : char = delete <;> simp [keyChar, deleted]
    | surrogate offset => simp [keyChar]
  constructor
  · intro writable
    exact mapM_isSome fun point member => (one point).mp (writable point member)
  · rintro ⟨chars, read⟩ point member
    exact (one point).mpr ((@mapM_some _ _ Unit _ _ _ read).2.1 point member)

def DistinctKeys (value : Value) : Prop :=
  ∀ path entries, Reaches value path (.object entries) → (entries.map Prod.fst).Nodup

theorem reaches_present {value found : Value} {path : List Key} (reaches : Reaches value path found) :
    isNullish value = false := by
  cases reaches with
  | here present => exact present
  | entry member inside => rfl

theorem reaches_unique {value found other : Value} {path : List Key} (distinct : DistinctKeys value)
    (first : Reaches value path found) (second : Reaches value path other) : found = other := by
  induction first with
  | here present =>
    cases second
    rfl
  | @entry entries key entry path found member inside ih =>
    cases second with
    | @entry _ _ again _ _ memberAgain insideAgain =>
      have own := distinct [] entries (.here rfl)
      have same := List.inj_on_of_nodup_map own member memberAgain rfl
      obtain rfl := (Prod.mk.inj same).2
      exact ih (fun path entries reaches => distinct _ _ (.entry member reaches)) insideAgain

theorem reaches_append {value found : Value} {front back : List Key} :
    Reaches value (front ++ back) found ↔
      ∃ middle, Reaches value front middle ∧ Reaches middle back found := by
  constructor
  · intro reaches
    induction front generalizing value with
    | nil => exact ⟨value, .here (reaches_present reaches), reaches⟩
    | cons key front ih =>
      cases reaches with
      | entry member inside =>
        obtain ⟨middle, first, second⟩ := ih inside
        exact ⟨middle, .entry member first, second⟩
  · rintro ⟨middle, first, second⟩
    induction first with
    | here => exact second
    | entry member inside ih => exact .entry member (ih second)

theorem entryLines_printed {entries : Entries} {lines : List Text}
    (printed : entryLines entries = .ok lines) {key : Key} {entry : Value}
    (member : (key, entry) ∈ entries) (kept : isTableOrNull entry = false) :
    ∃ text, stringifyTomlValue entry = .ok text := by
  induction entries generalizing lines with
  | nil => exact absurd member List.not_mem_nil
  | cons first rest ih =>
    obtain ⟨firstKey, firstEntry⟩ := first
    rw [entryLines] at printed
    split at printed
    · rename_i skipped
      rcases List.mem_cons.mp member with same | later
      · obtain ⟨rfl, rfl⟩ := Prod.mk.inj same
        exact absurd (kept.symm.trans skipped) (by decide)
      · exact ih printed later
    · split at printed
      · rename_i text isText
        cases tail : entryLines rest with
        | error error => simp [tail, Except.map] at printed
        | ok others =>
          rcases List.mem_cons.mp member with same | later
          · obtain ⟨rfl, rfl⟩ := Prod.mk.inj same
            exact ⟨text, isText⟩
          · exact ih tail later
      · cases printed

mutual

theorem leafOf_printed {value : Value} {text : Text} (printed : stringifyTomlValue value = .ok text) :
    ∃ leaf, leafOf value = some leaf := by
  cases value with
  | string content => exact ⟨_, rfl⟩
  | boolean content => exact ⟨_, rfl⟩
  | number content => exact ⟨_, rfl⟩
  | date content => exact ⟨_, rfl⟩
  | array items =>
    rw [stringifyTomlValue] at printed
    split at printed
    · rename_i texts isTexts
      obtain ⟨leaves, isLeaves⟩ := leavesOf_printed isTexts
      exact ⟨.array leaves, by rw [leafOf, isLeaves]; rfl⟩
    · cases printed
  | object entries => cases printed
  | null => cases printed
  | undefined => cases printed

theorem leavesOf_printed {items : List Value} {texts : List Text}
    (printed : stringifyTomlItems items = .ok texts) : ∃ leaves, leavesOf items = some leaves := by
  cases items with
  | nil => exact ⟨[], rfl⟩
  | cons item items =>
    rw [stringifyTomlItems] at printed
    split at printed
    · rename_i text isText
      cases tail : stringifyTomlItems items with
      | error error => simp [tail, Except.map] at printed
      | ok others =>
        obtain ⟨leaf, isLeaf⟩ := leafOf_printed isText
        obtain ⟨leaves, isLeaves⟩ := leavesOf_printed tail
        exact ⟨leaf :: leaves, by rw [leavesOf, isLeaf, isLeaves]; rfl⟩
    · cases printed

end

def documentTables (entries : Entries) : List (List Key × Entries) := loopTables [([], entries)]

theorem documentTables_eq (entries : Entries) :
    documentTables entries = ([], entries) :: loopTables (nestedTables [] entries) := by
  rw [documentTables, loopTables, List.nil_append]

theorem parse_document {value : Value} {text : Text} (returns : stringifyTomlDocument value = .ok text) :
    ∃ entries, tomlRecord value = some entries ∧
      (∀ table ∈ documentTables entries, ∃ pushed, entryLines table.2 = .ok pushed) ∧
      parse text = (documentTables entries).mapM readTable := by
  rw [stringifyTomlDocument] at returns
  cases isRecord : tomlRecord value with
  | none => simp [isRecord] at returns
  | some entries =>
    rw [isRecord] at returns
    cases own : entryLines entries with
    | error error =>
      simp only [own] at returns
      cases returns
    | ok lines =>
      cases loop : (loopTables (nestedTables [] entries)).foldlM tableLines lines with
      | error error =>
        simp only [own] at returns
        change ((loopTables (nestedTables [] entries)).foldlM tableLines lines >>= _) = _
          at returns
        rw [loop] at returns
        cases returns
      | ok result =>
        simp only [own] at returns
        change ((loopTables (nestedTables [] entries)).foldlM tableLines lines >>= _) = _
          at returns
        rw [loop] at returns
        obtain rfl := Except.ok.inj returns
        obtain ⟨others, more, rfl, reads⟩ := readLines_tables loop fun table member => by
          obtain ⟨start, queued, rest, isPath, -⟩ :=
            (mem_loopTables _ table.1 table.2).mp member
          obtain ⟨key, -, -, -, startPath⟩ := mem_nestedTables.mp queued
          simp [isPath, startPath]
        refine ⟨entries, rfl, ?_, ?_⟩
        · rw [documentTables_eq]
          exact List.forall_mem_cons.mpr ⟨⟨lines, own⟩, others⟩
        · have long := length_le_linesText (lines ++ more)
          rw [List.length_append] at long
          have whole : linesText (lines ++ more) = linesText lines ++ linesText more :=
            List.flatMap_append
          obtain ⟨fuel, isFuel⟩ := Nat.exists_eq_add_of_le long
          have count : (linesText (lines ++ more)).length =
              (fuel + more.length) + lines.length := by omega
          rw [parse, documentText_eq, count, whole, readLines_entries own, reads,
            documentTables_eq, List.mapM_cons, readTable]
          cases entryLeaves entries with
          | none => rfl
          | some leaves =>
            cases (loopTables (nestedTables [] entries)).mapM readTable with
            | none => rfl
            | some tables =>
              exact congrArg some (tablesOf_expressions [] leaves tables)

def nodeOf : Value → Option Node
  | .object _ => some .table
  | value => (leafOf value).map .leaf

/-- The text is a valid TOML document, and at every path of keys it has what the value has there,
null and undefined entries apart. -/
def Denotes (text : Text) (value : Value) : Prop :=
  ∃ tables, parse text = some tables ∧ Valid tables ∧ ∀ path node,
    (∃ found, Reaches value path found ∧ nodeOf found = some node) ↔
      ∃ texts, path = texts.map keyOf ∧ Holds tables texts node

def isDate : Value → Bool
  | .date _ => true
  | _ => false

/-- Every key on the way is writable, and the entry is no date and has nothing that TOML cannot
write. -/
def Representable (value : Value) : Prop :=
  ∀ path found, Reaches value path found →
    (∀ key ∈ path, WritableKey key) ∧ isDate found = false ∧ isWritable found = true

theorem record_cases {value : Value} {entries : Entries} (isRecord : tomlRecord value = some entries) :
    value = .object entries ∨ (isDate value = true ∧ entries = []) := by
  cases value <;> simp_all [tomlRecord, isDate]

theorem object_of_table {value : Value} (isTable : nodeOf value = some .table) :
    ∃ entries, value = .object entries := by
  cases value <;> simp_all [nodeOf]

theorem leaf_of_node {value : Value} {leaf : Leaf} (isNode : nodeOf value = some (.leaf leaf)) :
    leafOf value = some leaf ∧ (isDate value = false → isTableOrNull value = false) := by
  cases value <;> simp_all [nodeOf, isTableOrNull, isNullish, tomlRecord, isDate, leafOf]

theorem node_of_leaf {value : Value} {leaf : Leaf} (kept : isTableOrNull value = false)
    (isLeaf : leafOf value = some leaf) : nodeOf value = some (.leaf leaf) := by
  cases value <;> simp_all [nodeOf, isTableOrNull, tomlRecord]

theorem found_present {value found : Value} {path : List Key} (reaches : Reaches value path found) :
    isNullish found = false := by
  induction reaches with
  | here present => exact present
  | entry member inside ih => exact ih

theorem reaches_entry {value : Value} {path : List Key} {entries : Entries} {key : Key}
    {entry : Value} (reaches : Reaches value path (.object entries)) (member : (key, entry) ∈ entries)
    (present : isNullish entry = false) : Reaches value (path ++ [key]) entry :=
  reaches_append.mpr ⟨_, reaches, .entry member (.here present)⟩

theorem leaf_parent {value found : Value} {entries : Entries} {path : List Key}
    (isRecord : tomlRecord value = some entries) (reaches : Reaches value path found)
    (plain : tomlRecord found = none) : ∃ front key table, path = front ++ [key] ∧
      Reaches value front (.object table) ∧ (key, found) ∈ table := by
  rcases List.eq_nil_or_concat' path with rfl | ⟨front, key, rfl⟩
  · cases reaches
    rw [isRecord] at plain
    cases plain
  · obtain ⟨middle, first, second⟩ := reaches_append.mp reaches
    cases second with
    | entry member inside =>
      cases inside
      exact ⟨front, key, _, rfl, first, member⟩

theorem mem_documentTables {value : Value} {entries : Entries}
    (isRecord : tomlRecord value = some entries) (path : List Key) (table : Entries) :
    (path, table) ∈ documentTables entries ↔
      ∃ found, Reaches value path found ∧ tomlRecord found = some table := by
  rw [reaches_record isRecord, documentTables, mem_loopTables]
  simp

theorem readTable_spec {table : List Key × Entries} {read : Table}
    (isRead : readTable table = some read) : read.path.map keyOf = table.1 ∧
      entryLeaves table.2 = some read.entries ∧ ∀ key ∈ table.1, WritableKey key := by
  rw [readTable] at isRead
  cases texts : table.1.mapM keyChars with
  | none => simp [texts] at isRead
  | some path =>
    cases leaves : entryLeaves table.2 with
    | none => simp [texts, leaves] at isRead
    | some entries =>
      obtain rfl : ⟨path, entries⟩ = read := by simpa [texts, leaves] using isRead
      exact ⟨path_of_chars texts, rfl, fun key member =>
        writableKey_iff.mpr ((@mapM_some _ _ Unit _ _ _ texts).2.1 key member)⟩

theorem entryLeaf_spec {key : Key} {entry : Value} {found : Text × Leaf}
    (isFound : entryLeaf key entry = some found) :
    keyChars key = some found.1 ∧ isWritable entry = true ∧ leafOf entry = some found.2 := by
  rw [entryLeaf] at isFound
  cases isChars : keyChars key with
  | none => simp [isChars] at isFound
  | some text =>
    cases writable : isWritable entry with
    | false => simp [isChars, writable] at isFound
    | true =>
      cases isLeaf : leafOf entry with
      | none => simp [isChars, writable, isLeaf] at isFound
      | some value =>
        obtain rfl : (text, value) = found := by
          simpa [isChars, writable, isLeaf] using isFound
        exact ⟨rfl, rfl, rfl⟩

theorem mem_entryLeaves {entries : Entries} {leaves : List (Text × Leaf)}
    (read : entryLeaves entries = some leaves) (chars : Text) (leaf : Leaf) :
    (chars, leaf) ∈ leaves ↔ ∃ entry, (keyOf chars, entry) ∈ entries ∧
      isTableOrNull entry = false ∧ leafOf entry = some leaf := by
  obtain ⟨members, each, -⟩ := @mapM_some _ _ Unit _ _ _ read
  rw [members]
  constructor
  · rintro ⟨⟨key, entry⟩, member, isFound⟩
    obtain ⟨isKey, -, isLeaf⟩ := entryLeaf_spec isFound
    obtain ⟨inEntries, kept⟩ := List.mem_filter.mp member
    exact ⟨entry, keyOf_of_chars isKey ▸ inEntries, by simpa using kept, isLeaf⟩
  · rintro ⟨entry, inEntries, kept, isLeaf⟩
    have member : (keyOf chars, entry) ∈ entries.filter fun entry => !isTableOrNull entry.2 :=
      List.mem_filter.mpr ⟨inEntries, by simpa using kept⟩
    obtain ⟨⟨text, value⟩, isFound⟩ := each _ member
    obtain ⟨isKey, -, isValue⟩ := entryLeaf_spec isFound
    obtain rfl := keyOf_injective (keyOf_of_chars isKey)
    obtain rfl : leaf = value := Option.some.inj (isLeaf.symm.trans isValue)
    exact ⟨_, member, isFound⟩

theorem representable_of_denotes {value : Value} (distinct : DistinctKeys value) {text : Text}
    (returns : stringifyTomlDocument value = .ok text) (denotes : Denotes text value) :
    Representable value := by
  obtain ⟨entries, isRecord, -, parsed⟩ := parse_document returns
  obtain ⟨tables, isTables, -, same⟩ := denotes
  obtain ⟨members, each, -⟩ := @mapM_some _ _ Unit _ _ _ (parsed.symm.trans isTables)
  intro path found reaches
  cases isTable : tomlRecord found with
  | some table =>
    have member := (mem_documentTables isRecord path table).mpr ⟨found, reaches, isTable⟩
    obtain ⟨read, isRead⟩ := each _ member
    obtain ⟨isPath, -, writable⟩ := readTable_spec isRead
    rcases record_cases isTable with rfl | ⟨date, -⟩
    · exact ⟨writable, rfl, rfl⟩
    · obtain ⟨other, otherReaches, isNode⟩ := (same path .table).mpr ⟨read.path, isPath.symm, read,
        (members read).mpr ⟨_, member, isRead⟩, List.prefix_rfl⟩
      obtain ⟨own, rfl⟩ := object_of_table isNode
      rw [reaches_unique distinct reaches otherReaches] at date
      cases date
  | none =>
    obtain ⟨front, key, table, rfl, parent, member⟩ := leaf_parent isRecord reaches isTable
    obtain ⟨read, isRead⟩ := each _ ((mem_documentTables isRecord front table).mpr
      ⟨_, parent, rfl⟩)
    obtain ⟨-, leaves, writable⟩ := readTable_spec isRead
    have kept : isTableOrNull found = false := by
      simp [isTableOrNull, found_present reaches, isTable]
    obtain ⟨leaf, isLeaf⟩ := (@mapM_some _ _ Unit _ _ _ leaves).2.1 (key, found)
      (List.mem_filter.mpr ⟨member, by simpa using kept⟩)
    obtain ⟨isKey, isWritableFound, -⟩ := entryLeaf_spec isLeaf
    refine ⟨List.forall_mem_append.mpr ⟨writable, ?_⟩, ?_, isWritableFound⟩
    · simpa using writableKey_iff.mpr ⟨_, isKey⟩
    · cases found <;> first | rfl | cases isTable

theorem readTable_some {value : Value} {path : List Key} {table : Entries} {pushed : List Text}
    (representable : Representable value) (reaches : Reaches value path (.object table))
    (printed : entryLines table = .ok pushed) : ∃ read, readTable (path, table) = some read := by
  obtain ⟨texts, isPath⟩ : ∃ texts, path.mapM keyChars = some texts :=
    mapM_isSome fun key member => writableKey_iff.mp ((representable _ _ reaches).1 key member)
  obtain ⟨leaves, isLeaves⟩ : ∃ leaves, entryLeaves table = some leaves := by
    refine mapM_isSome fun entry member => ?_
    obtain ⟨key, entry⟩ := entry
    obtain ⟨inTable, kept⟩ := List.mem_filter.mp member
    have plain : isTableOrNull entry = false := by simpa using kept
    have present : isNullish entry = false := (Bool.or_eq_false_iff.mp plain).1
    obtain ⟨writable, -, isWritableEntry⟩ := representable _ _ (reaches_entry reaches inTable present)
    obtain ⟨text, isText⟩ := entryLines_printed printed inTable plain
    obtain ⟨leaf, isLeaf⟩ := leafOf_printed isText
    obtain ⟨chars, isChars⟩ := writableKey_iff.mp (writable key (by simp))
    exact ⟨(chars, leaf), by simp [entryLeaf, isChars, isWritableEntry, isLeaf]⟩
  exact ⟨⟨texts, leaves⟩, by simp [readTable, isPath, isLeaves]⟩

theorem denotes_of_representable {value : Value} (distinct : DistinctKeys value) {text : Text}
    (returns : stringifyTomlDocument value = .ok text) (representable : Representable value) :
    Denotes text value := by
  obtain ⟨entries, isRecord, printed, parsed⟩ := parse_document returns
  have isObject {path : List Key} {found : Value} {table : Entries} (reaches : Reaches value path found)
      (isTable : tomlRecord found = some table) : found = .object table := by
    rcases record_cases isTable with same | ⟨date, -⟩
    · exact same
    · exact absurd ((representable _ _ reaches).2.1.symm.trans date) (by decide)
  have visited {path : List Key} {table : Entries} : (path, table) ∈ documentTables entries ↔
      Reaches value path (.object table) := by
    rw [mem_documentTables isRecord]
    constructor
    · rintro ⟨found, reaches, isTable⟩
      exact isObject reaches isTable ▸ reaches
    · intro reaches
      exact ⟨_, reaches, rfl⟩
  obtain ⟨tables, isTables⟩ : ∃ tables, (documentTables entries).mapM readTable = some tables :=
    mapM_isSome fun table member => by
      obtain ⟨pushed, isPushed⟩ := printed table member
      exact readTable_some representable (visited.mp member) isPushed
  have images := (mapM_some isTables).2.2 (fun read => read.path.map keyOf) Prod.fst
    fun table read isRead => (readTable_spec isRead).1
  obtain ⟨members, each, -⟩ := @mapM_some _ _ Unit _ _ _ isTables
  have source {read : Table} (member : read ∈ tables) : ∃ table,
      Reaches value (read.path.map keyOf) (.object table) ∧
        entryLeaves table = some read.entries := by
    obtain ⟨⟨path, table⟩, isVisited, isRead⟩ := (members read).mp member
    obtain ⟨isPath, leaves, -⟩ := readTable_spec isRead
    exact ⟨table, isPath ▸ visited.mp isVisited, leaves⟩
  have target {path : List Key} {table : Entries} (reaches : Reaches value path (.object table)) :
      ∃ read ∈ tables, read.path.map keyOf = path ∧ entryLeaves table = some read.entries := by
    obtain ⟨read, isRead⟩ := each _ (visited.mpr reaches)
    obtain ⟨isPath, leaves, -⟩ := readTable_spec isRead
    exact ⟨read, (members read).mpr ⟨_, visited.mpr reaches, isRead⟩, isPath, leaves⟩
  refine ⟨tables, parsed.trans isTables, ⟨?_, ?_, ?_⟩, ?_⟩
  · have once := @loopTables_nodup [([], entries)] (List.pairwise_singleton _ _)
      fun table member => distinct table.1 table.2 (visited.mp member)
    have mapped : ((tables.map Table.path).map (List.map keyOf)).Nodup := by
      rw [List.map_map]
      exact images ▸ once
    exact List.Nodup.of_map _ mapped
  · intro read member
    obtain ⟨table, reaches, leaves⟩ := source member
    have keys := (mapM_some leaves).2.2 (fun leaf => keyOf leaf.1) Prod.fst
      fun entry leaf isLeaf => keyOf_of_chars (entryLeaf_spec isLeaf).1
    have once : ((table.filter fun entry => !isTableOrNull entry.2).map Prod.fst).Nodup :=
      List.Nodup.sublist (List.filter_sublist.map _) (distinct _ _ reaches)
    have mapped : ((read.entries.map Prod.fst).map keyOf).Nodup := by
      rw [List.map_map]
      exact keys ▸ once
    exact List.Nodup.of_map _ mapped
  · rintro read member ⟨chars, leaf⟩ isEntry other isOther ⟨rest, above⟩
    obtain ⟨table, reaches, leaves⟩ := source member
    obtain ⟨entry, inTable, kept, -⟩ := (mem_entryLeaves leaves chars leaf).mp isEntry
    obtain ⟨otherTable, otherReaches, -⟩ := source isOther
    rw [← above, List.append_assoc, List.map_append] at otherReaches
    obtain ⟨middle, first, second⟩ := reaches_append.mp otherReaches
    obtain rfl := reaches_unique distinct first reaches
    cases second with
    | entry again inside =>
      have same := List.inj_on_of_nodup_map (distinct _ _ reaches) inTable again rfl
      obtain rfl := (Prod.mk.inj same).2
      obtain ⟨own, isOwn⟩ := record_of_reaches inside rfl
      simp [isTableOrNull, isOwn] at kept
  · intro path node
    cases node with
    | table =>
      constructor
      · rintro ⟨found, reaches, isNode⟩
        obtain ⟨table, rfl⟩ := object_of_table isNode
        obtain ⟨read, member, isPath, -⟩ := target reaches
        exact ⟨read.path, isPath.symm, read, member, List.prefix_rfl⟩
      · rintro ⟨texts, rfl, read, member, rest, above⟩
        obtain ⟨table, reaches, -⟩ := source member
        rw [← above, List.map_append] at reaches
        obtain ⟨middle, first, second⟩ := reaches_append.mp reaches
        refine ⟨middle, first, ?_⟩
        generalize rest.map keyOf = below at second
        cases second <;> rfl
    | leaf value =>
      constructor
      · rintro ⟨found, reaches, isNode⟩
        obtain ⟨writable, notDate, -⟩ := representable _ _ reaches
        obtain ⟨isLeaf, isKept⟩ := leaf_of_node isNode
        have kept := isKept notDate
        have plain : tomlRecord found = none := by
          simpa using (Bool.or_eq_false_iff.mp kept).2
        obtain ⟨front, key, table, rfl, parent, inTable⟩ := leaf_parent isRecord reaches plain
        obtain ⟨read, member, isPath, leaves⟩ := target parent
        obtain ⟨chars, isChars⟩ := writableKey_iff.mp (writable key (by simp))
        obtain rfl := keyOf_of_chars isChars
        exact ⟨read.path ++ [chars], by simp [isPath], read, member, chars,
          (mem_entryLeaves leaves chars value).mpr ⟨found, inTable, kept, isLeaf⟩, rfl⟩
      · rintro ⟨texts, rfl, read, member, chars, isEntry, rfl⟩
        obtain ⟨table, reaches, leaves⟩ := source member
        obtain ⟨entry, inTable, kept, isLeaf⟩ := (mem_entryLeaves leaves chars value).mp isEntry
        have present : isNullish entry = false := (Bool.or_eq_false_iff.mp kept).1
        refine ⟨entry, ?_, node_of_leaf kept isLeaf⟩
        rw [List.map_append]
        exact reaches_entry reaches inTable present

/-- What the document denotes is the value, exactly where no entry of an object is a date, no year in
an array needs more than four digits, and no key or string has a delete character or, for a key, a
surrogate that stands alone. -/
theorem tomlDocument_denotes_iff (value : Value) (distinct : DistinctKeys value) (text : Text)
    (returns : stringifyTomlDocument value = .ok text) :
    Denotes text value ↔ Representable value :=
  ⟨representable_of_denotes distinct returns, denotes_of_representable distinct returns⟩

def flagDocument : Value := .object [(keyOf ['a'], .boolean true)]

theorem tomlDocument_denotes_flag : Denotes "a = true\n".toList flagDocument ↔
    Representable flagDocument := by
  refine tomlDocument_denotes_iff flagDocument (fun path entries reaches => ?_) _ ?_
  · rcases reaches_object.mp reaches with ⟨-, same⟩ | ⟨key, entry, rest, -, member, inside⟩
    · rw [Value.object.inj same]
      decide
    · obtain ⟨-, rfl⟩ := Prod.mk.inj (List.mem_singleton.mp member)
      cases inside
  · simp [stringifyTomlDocument, flagDocument, tomlRecord, entryLines, nestedTables, loopTables]
    rfl

def epoch : Date := ⟨⟨1970, 1, 1, 0, 0, 0, 0⟩, by decide⟩

def datedDocument : Value := .object [(keyOf ['d'], .date epoch)]

theorem tomlDocument_date : stringifyTomlDocument datedDocument = .ok "[d]\n".toList ∧
    ¬Denotes "[d]\n".toList datedDocument := by
  have returns : stringifyTomlDocument datedDocument = .ok "[d]\n".toList := by
    simp [stringifyTomlDocument, datedDocument, tomlRecord, entryLines, nestedTables, loopTables]
    rfl
  have distinct : DistinctKeys datedDocument := by
    intro path entries reaches
    rcases reaches_object.mp reaches with ⟨-, same⟩ | ⟨key, entry, rest, -, member, inside⟩
    · rw [Value.object.inj same]
      decide
    · obtain ⟨-, rfl⟩ := Prod.mk.inj (List.mem_singleton.mp member)
      cases inside
  refine ⟨returns, fun denotes => ?_⟩
  have representable := representable_of_denotes distinct returns denotes
  have dated := representable [keyOf ['d']] (.date epoch)
    (.entry List.mem_cons_self (.here rfl))
  exact absurd dated.2.1 (by decide)

end Metidos.StructuredData
