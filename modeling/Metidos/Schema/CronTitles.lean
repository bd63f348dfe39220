import Mathlib.Data.Char
import Mathlib.Data.List.Lex
import Metidos.Library.JsNumerals
import Metidos.Library.OrderedMap
import Metidos.Library.Separators

/-!
The unique titles of active cron jobs, `dedupeActiveCronJobTitles` of
`src/bun/app-schema-migration.ts`: titles are grouped by one folding, and the index behind it
compares them by another.
-/

namespace Metidos.Schema.CronTitles

abbrev Text := List Char

structure CronJobRow where
  id : Int
  title : Text
  createdAt : Text
  deletedAt : Option Int
  deriving DecidableEq

structure CronJobs where
  rows : List CronJobRow
  distinct : (rows.map CronJobRow.id).Nodup

/-- `LOWER` of SQLite, and the key that the `NOCASE` collation compares. -/
def foldAscii (text : Text) : Text := text.map Char.toLower

def trimSpaces (text : Text) : Text :=
  ((text.dropWhile (· = ' ')).reverse.dropWhile (· = ' ')).reverse

/-- `ORDER BY LOWER(TRIM(title)) ASC, created_at ASC, id ASC`. -/
def rowLe (row other : CronJobRow) : Bool :=
  let title := foldAscii (trimSpaces row.title)
  let otherTitle := foldAscii (trimSpaces other.title)
  title < otherTitle || title = otherTitle && (row.createdAt < other.createdAt ||
    row.createdAt = other.createdAt && row.id ≤ other.id)

def CronJobRow.isActive (row : CronJobRow) : Bool := row.deletedAt.isNone

def CronJobs.activeJobRows (jobs : CronJobs) : List CronJobRow :=
  (jobs.rows.filter CronJobRow.isActive).mergeSort rowLe

def CronJobRow.retitled (row : CronJobRow) (title : Text) : CronJobRow := { row with title := title }

/-- `UPDATE cron_jobs SET title = ? WHERE id = ?`. -/
def CronJobs.setTitle (jobs : CronJobs) (id : Int) (title : Text) : CronJobs where
  rows := jobs.rows.map fun row => if row.id = id then row.retitled title else row
  distinct := by
    have ids : (fun row : CronJobRow => (if row.id = id then row.retitled title else row).id) =
        CronJobRow.id := by
      funext row
      split <;> rfl
    simpa [Function.comp_def, ids] using jobs.distinct

def numbered (title : Text) (count : Nat) : Text := title ++ '-' :: JsText.stringOfNumber count

section

-- `String.prototype.toLowerCase`.
variable (toLowerCase : Text → Text)

def groupTitle (row : CronJobRow) : Text := toLowerCase (JsText.trim row.title)

def dedupeRow (state : CronJobs × OrderedMap Text Nat) (row : CronJobRow) :
    CronJobs × OrderedMap Text Nat :=
  let title := groupTitle toLowerCase row
  let currentCount := (state.2.get? title).getD 0
  let titleCounts := state.2.set title (currentCount + 1)
  if 0 < currentCount then (state.1.setTitle row.id (numbered row.title currentCount), titleCounts)
  else (state.1, titleCounts)

def dedupeActiveCronJobTitles (jobs : CronJobs) : CronJobs :=
  (jobs.activeJobRows.foldl (dedupeRow toLowerCase) (jobs, OrderedMap.empty)).1

def earlier (rows : List CronJobRow) (row : CronJobRow) : List CronJobRow :=
  (rows.takeWhile fun other => other.id ≠ row.id).filter fun other =>
    groupTitle toLowerCase other = groupTitle toLowerCase row

def place (rows : List CronJobRow) (row : CronJobRow) : Nat :=
  (earlier toLowerCase rows row).length

def newTitle (rows : List CronJobRow) (row : CronJobRow) : Text :=
  if 0 < place toLowerCase rows row then numbered row.title (place toLowerCase rows row)
  else row.title

end

variable {toLowerCase : Text → Text} {jobs : CronJobs} {row other : CronJobRow}
  {rows done rest : List CronJobRow}

structure DoneSo (toLowerCase : Text → Text) (jobs : CronJobs) (rows done : List CronJobRow)
    (state : CronJobs × OrderedMap Text Nat) : Prop where
  retitled : state.1.rows = jobs.rows.map fun row =>
    if row.id ∈ done.map CronJobRow.id then row.retitled (newTitle toLowerCase rows row) else row
  counted : ∀ title, (state.2.get? title).getD 0 =
    (done.filter fun other => groupTitle toLowerCase other = title).length

theorem takeWhile_before (distinct : ((done ++ row :: rest).map CronJobRow.id).Nodup) :
    (done ++ row :: rest).takeWhile (fun other => other.id ≠ row.id) = done := by
  have apart : ∀ other ∈ done, other.id ≠ row.id := by
    intro other member same
    rw [List.map_append, List.map_cons, List.nodup_append] at distinct
    exact distinct.2.2 other.id (List.mem_map_of_mem member) row.id List.mem_cons_self same
  rw [List.takeWhile_append_of_pos (by simpa using apart), List.takeWhile_cons_of_neg (by simp),
    List.append_nil]

theorem place_eq (distinct : ((done ++ row :: rest).map CronJobRow.id).Nodup) :
    place toLowerCase (done ++ row :: rest) row =
      (done.filter fun other => groupTitle toLowerCase other = groupTitle toLowerCase row).length := by
  rw [place, earlier, takeWhile_before distinct]

theorem row_eq_of_id (jobs : CronJobs) (member : row ∈ jobs.rows) (otherMember : other ∈ jobs.rows)
    (same : row.id = other.id) : row = other :=
  List.inj_on_of_nodup_map jobs.distinct member otherMember same

theorem retitled_self (row : CronJobRow) : row.retitled row.title = row := rfl

theorem DoneSo.step {state : CronJobs × OrderedMap Text Nat}
    (so : DoneSo toLowerCase jobs (done ++ row :: rest) done state)
    (distinct : ((done ++ row :: rest).map CronJobRow.id).Nodup) (member : row ∈ jobs.rows) :
    DoneSo toLowerCase jobs (done ++ row :: rest) (done ++ [row])
      (dedupeRow toLowerCase state row) := by
  have count : (state.2.get? (groupTitle toLowerCase row)).getD 0 =
      place toLowerCase (done ++ row :: rest) row := by
    rw [so.counted, place_eq distinct]
  have isNew : row.id ∉ done.map CronJobRow.id := by
    rw [List.map_append, List.map_cons, List.nodup_append] at distinct
    exact fun inside => distinct.2.2 row.id inside row.id List.mem_cons_self rfl
  refine ⟨?_, fun title => ?_⟩
  · have onlyRow : ∀ found ∈ jobs.rows, found.id = row.id → found = row :=
      fun found isRow same => row_eq_of_id jobs isRow member same
    simp only [dedupeRow, count, List.map_append, List.map_cons, List.map_nil, List.mem_append,
      List.mem_singleton]
    split
    · rename_i later
      simp only [CronJobs.setTitle, so.retitled, List.map_map]
      refine List.map_congr_left fun found isRow => ?_
      rw [Function.comp_apply]
      by_cases isSame : found.id = row.id
      · obtain rfl := onlyRow found isRow isSame
        rw [if_neg isNew, if_pos rfl, if_pos (Or.inr rfl), newTitle, if_pos later]
      · by_cases before : found.id ∈ done.map CronJobRow.id
        · rw [if_pos before, if_pos (Or.inl before), if_neg]
          exact isSame
        · rw [if_neg before, if_neg isSame, if_neg (not_or.mpr ⟨before, isSame⟩)]
    · rename_i isFirst
      rw [so.retitled]
      refine List.map_congr_left fun found isRow => ?_
      by_cases isSame : found.id = row.id
      · obtain rfl := onlyRow found isRow isSame
        rw [if_neg isNew, if_pos (Or.inr rfl), newTitle, if_neg isFirst, retitled_self]
      · simp only [isSame, or_false]
  · have set : (dedupeRow toLowerCase state row).2 = state.2.set (groupTitle toLowerCase row)
        (place toLowerCase (done ++ row :: rest) row + 1) := by
      simp only [dedupeRow, count]
      split <;> rfl
    rw [set, OrderedMap.get?_set, List.filter_append, List.length_append]
    by_cases same : title = groupTitle toLowerCase row
    · rw [if_pos same, Option.getD_some, place_eq distinct, same, List.filter_cons_of_pos (by simp)]
      rfl
    · rw [if_neg same, so.counted, List.filter_cons_of_neg (by simpa using Ne.symm same)]
      rfl

theorem foldl_dedupeRow {state : CronJobs × OrderedMap Text Nat} (rest : List CronJobRow)
    (so : DoneSo toLowerCase jobs (done ++ rest) done state)
    (distinct : ((done ++ rest).map CronJobRow.id).Nodup)
    (among : ∀ row ∈ rest, row ∈ jobs.rows) :
    DoneSo toLowerCase jobs (done ++ rest) (done ++ rest)
      (rest.foldl (dedupeRow toLowerCase) state) := by
  induction rest generalizing done state with
  | nil => simpa using so
  | cons row rest ih =>
    have next := so.step distinct (among row List.mem_cons_self)
    have whole : done ++ row :: rest = done ++ [row] ++ rest := by simp
    rw [whole] at next distinct ⊢
    exact ih next distinct fun other member => among other (List.mem_cons_of_mem _ member)

theorem mem_activeJobRows (jobs : CronJobs) :
    row ∈ jobs.activeJobRows ↔ row ∈ jobs.rows ∧ row.isActive = true := by
  rw [CronJobs.activeJobRows, (List.mergeSort_perm _ _).mem_iff, List.mem_filter]

theorem activeJobRows_distinct (jobs : CronJobs) :
    (jobs.activeJobRows.map CronJobRow.id).Nodup := by
  have sub : ((jobs.rows.filter CronJobRow.isActive).map CronJobRow.id).Sublist
      (jobs.rows.map CronJobRow.id) := List.filter_sublist.map _
  exact ((List.mergeSort_perm _ _).map CronJobRow.id).nodup_iff.mpr (jobs.distinct.sublist sub)

theorem dedupe_rows (toLowerCase : Text → Text) (jobs : CronJobs) :
    (dedupeActiveCronJobTitles toLowerCase jobs).rows = jobs.rows.map fun row =>
      if row.isActive then row.retitled (newTitle toLowerCase jobs.activeJobRows row) else row := by
  have start : DoneSo toLowerCase jobs ([] ++ jobs.activeJobRows) [] (jobs, OrderedMap.empty) :=
    ⟨by simp, by simp⟩
  have so := foldl_dedupeRow jobs.activeJobRows start (activeJobRows_distinct jobs)
    fun row member => ((mem_activeJobRows jobs).mp member).1
  rw [dedupeActiveCronJobTitles, so.retitled]
  refine List.map_congr_left fun row isRow => ?_
  have isIn : row.id ∈ ([] ++ jobs.activeJobRows).map CronJobRow.id ↔ row.isActive = true := by
    constructor
    · intro inside
      obtain ⟨found, isFound, same⟩ := List.mem_map.mp inside
      obtain ⟨isFoundRow, active⟩ := (mem_activeJobRows jobs).mp isFound
      rwa [← row_eq_of_id jobs isFoundRow isRow same]
    · intro active
      exact List.mem_map_of_mem ((mem_activeJobRows jobs).mpr ⟨isRow, active⟩)
  simp only [isIn]
  rfl

def FoldsAscii (toLowerCase : Text → Text) : Prop :=
  ∀ text other, foldAscii text = foldAscii other → toLowerCase text = toLowerCase other

theorem isWhiteSpace_toLower (char : Char) :
    JsText.isWhiteSpace char.toLower = JsText.isWhiteSpace char := by
  have code := JsText.toLower_toNat char
  split at code
  · have lower : JsText.isWhiteSpace char.toLower = false := by
      rw [Bool.eq_false_iff]
      intro blank
      simp only [JsText.isWhiteSpace, code, Bool.or_eq_true, Bool.and_eq_true, decide_eq_true_eq,
        beq_iff_eq] at blank
      omega
    have capital : JsText.isWhiteSpace char = false := by
      rw [Bool.eq_false_iff]
      intro blank
      simp only [JsText.isWhiteSpace, Bool.or_eq_true, Bool.and_eq_true, decide_eq_true_eq,
        beq_iff_eq] at blank
      omega
    rw [lower, capital]
  · rw [JsText.isWhiteSpace, JsText.isWhiteSpace, code]

theorem trimStart_foldAscii (text : Text) :
    JsText.trimStart (foldAscii text) = foldAscii (JsText.trimStart text) := by
  rw [JsText.trimStart, JsText.trimStart, foldAscii, List.dropWhile_map]
  have same : JsText.isWhiteSpace ∘ Char.toLower = JsText.isWhiteSpace :=
    funext isWhiteSpace_toLower
  rw [same]
  rfl

theorem trim_foldAscii (text : Text) :
    JsText.trim (foldAscii text) = foldAscii (JsText.trim text) := by
  have reversed (text : Text) : (foldAscii text).reverse = foldAscii text.reverse :=
    List.map_reverse.symm
  rw [JsText.trim, JsText.trim, trimStart_foldAscii, reversed, trimStart_foldAscii, reversed]

theorem groupTitle_eq (folds : FoldsAscii toLowerCase)
    (same : foldAscii row.title = foldAscii other.title) :
    groupTitle toLowerCase row = groupTitle toLowerCase other := by
  refine folds _ _ ?_
  rw [← trim_foldAscii, ← trim_foldAscii, same]

theorem place_lt {first second third : List CronJobRow}
    (distinct : ((first ++ row :: (second ++ other :: third)).map CronJobRow.id).Nodup)
    (same : groupTitle toLowerCase row = groupTitle toLowerCase other) :
    place toLowerCase (first ++ row :: (second ++ other :: third)) row <
      place toLowerCase (first ++ row :: (second ++ other :: third)) other := by
  have split : first ++ row :: (second ++ other :: third) =
      (first ++ row :: second) ++ other :: third := by simp
  rw [place_eq distinct]
  rw [split] at distinct ⊢
  rw [place_eq distinct, List.filter_append, List.filter_cons_of_pos (by simpa using same),
    List.length_append, List.length_cons, same]
  omega

theorem place_ne (distinct : (rows.map CronJobRow.id).Nodup) (member : row ∈ rows)
    (otherMember : other ∈ rows) (apart : row ≠ other)
    (same : groupTitle toLowerCase row = groupTitle toLowerCase other) :
    place toLowerCase rows row ≠ place toLowerCase rows other := by
  obtain ⟨before, after, rfl⟩ := List.append_of_mem member
  rw [List.mem_append, List.mem_cons] at otherMember
  rcases otherMember with isBefore | isSame | isAfter
  · obtain ⟨first, second, rfl⟩ := List.append_of_mem isBefore
    have split : first ++ other :: second ++ row :: after =
        first ++ other :: (second ++ row :: after) := by simp
    rw [split] at distinct ⊢
    exact (place_lt distinct same.symm).ne'
  · exact absurd isSame.symm apart
  · obtain ⟨second, third, rfl⟩ := List.append_of_mem isAfter
    exact (place_lt distinct same).ne

theorem foldAscii_numbered (title : Text) (count : Nat) :
    foldAscii (numbered title count) =
      foldAscii title ++ '-' :: foldAscii (JsText.stringOfNumber count) := by
  rw [numbered, foldAscii, List.map_append]
  rfl

theorem foldAscii_stringOfNumber (count : Nat) :
    foldAscii (JsText.stringOfNumber count) = JsText.stringOfNumber count := by
  rw [foldAscii]
  conv_rhs => rw [← List.map_id (JsText.stringOfNumber count)]
  refine List.map_congr_left fun char member => ?_
  have digit := JsText.digit_code (JsText.isDigit_of_mem_stringOfNumber member)
  refine Char.ext (UInt32.toNat_inj.mp ?_)
  have code := JsText.toLower_toNat char
  rw [if_neg (by omega)] at code
  exact code

theorem dash_not_mem (count : Nat) : '-' ∉ foldAscii (JsText.stringOfNumber count) := by
  rw [foldAscii_stringOfNumber]
  intro member
  exact absurd (JsText.isDigit_of_mem_stringOfNumber member) (by decide)

theorem numbered_inj {title otherTitle : Text} {count otherCount : Nat}
    (same : foldAscii (numbered title count) = foldAscii (numbered otherTitle otherCount)) :
    foldAscii title = foldAscii otherTitle ∧ count = otherCount := by
  rw [foldAscii_numbered, foldAscii_numbered] at same
  obtain ⟨titles, counts⟩ :=
    Separators.last_inj (dash_not_mem count) (dash_not_mem otherCount) same
  rw [foldAscii_stringOfNumber, foldAscii_stringOfNumber] at counts
  exact ⟨titles, JsText.stringOfNumber_injective counts⟩

theorem numbered_ne (title : Text) (count : Nat) : numbered title count ≠ title := by
  intro same
  have longer := congrArg List.length same
  simp only [numbered, List.length_append, List.length_cons] at longer
  omega

def TitlesDistinct (jobs : CronJobs) : Prop :=
  ((jobs.rows.filter CronJobRow.isActive).map fun row => foldAscii row.title).Nodup

def KeepsUnique (toLowerCase : Text → Text) (jobs : CronJobs) : Prop :=
  ∀ row ∈ jobs.activeJobRows,
    (∀ other ∈ jobs.activeJobRows, other.id ≠ row.id →
      foldAscii other.title ≠ foldAscii row.title) →
      row ∈ (dedupeActiveCronJobTitles toLowerCase jobs).rows

/-- No first title of a group is, up to ASCII case, a later title of a group with its place behind
it, and every later title of a group is, up to ASCII case, that of another job. -/
structure DedupeSafe (toLowerCase : Text → Text) (jobs : CronJobs) : Prop where
  noneMet : ∀ row ∈ jobs.activeJobRows, ∀ other ∈ jobs.activeJobRows,
    0 < place toLowerCase jobs.activeJobRows row →
      place toLowerCase jobs.activeJobRows other = 0 →
        foldAscii (numbered row.title (place toLowerCase jobs.activeJobRows row)) ≠
          foldAscii other.title
  onlyEqual : ∀ row ∈ jobs.activeJobRows, 0 < place toLowerCase jobs.activeJobRows row →
    ∃ other ∈ jobs.activeJobRows, other.id ≠ row.id ∧ foldAscii other.title = foldAscii row.title

theorem titlesDistinct_iff (toLowerCase : Text → Text) (jobs : CronJobs) :
    TitlesDistinct (dedupeActiveCronJobTitles toLowerCase jobs) ↔
      ∀ row ∈ jobs.activeJobRows, ∀ other ∈ jobs.activeJobRows,
        foldAscii (newTitle toLowerCase jobs.activeJobRows row) =
          foldAscii (newTitle toLowerCase jobs.activeJobRows other) → row = other := by
  have titles : ((dedupeActiveCronJobTitles toLowerCase jobs).rows.filter
      CronJobRow.isActive).map (fun row => foldAscii row.title) =
        (jobs.rows.filter CronJobRow.isActive).map fun row =>
          foldAscii (newTitle toLowerCase jobs.activeJobRows row) := by
    have active : (CronJobRow.isActive ∘ fun row : CronJobRow => if row.isActive then
        row.retitled (newTitle toLowerCase jobs.activeJobRows row) else row) =
          CronJobRow.isActive := by
      funext row
      rw [Function.comp_apply]
      split <;> rfl
    rw [dedupe_rows, List.filter_map, active, List.map_map]
    refine List.map_congr_left fun row member => ?_
    rw [Function.comp_apply, if_pos (List.mem_filter.mp member).2]
    rfl
  have distinct : (jobs.rows.filter CronJobRow.isActive).Nodup :=
    (jobs.distinct.of_map _).filter _
  rw [TitlesDistinct, titles, List.nodup_map_iff_inj_on distinct]
  simp only [mem_activeJobRows, List.mem_filter]

theorem newTitle_injOn_iff (folds : FoldsAscii toLowerCase) (jobs : CronJobs) :
    (∀ row ∈ jobs.activeJobRows, ∀ other ∈ jobs.activeJobRows,
      foldAscii (newTitle toLowerCase jobs.activeJobRows row) =
        foldAscii (newTitle toLowerCase jobs.activeJobRows other) → row = other) ↔
      ∀ row ∈ jobs.activeJobRows, ∀ other ∈ jobs.activeJobRows,
        0 < place toLowerCase jobs.activeJobRows row →
          place toLowerCase jobs.activeJobRows other = 0 →
            foldAscii (numbered row.title (place toLowerCase jobs.activeJobRows row)) ≠
              foldAscii other.title := by
  have distinct := activeJobRows_distinct jobs
  constructor
  · intro injective row member other otherMember later first met
    have same := injective row member other otherMember
    rw [newTitle, if_pos later, newTitle, if_neg (by omega)] at same
    rw [same met] at later
    omega
  · intro noneMet row member other otherMember same
    by_contra apart
    rw [newTitle, newTitle] at same
    by_cases later : 0 < place toLowerCase jobs.activeJobRows row
    · rw [if_pos later] at same
      by_cases otherLater : 0 < place toLowerCase jobs.activeJobRows other
      · rw [if_pos otherLater] at same
        obtain ⟨titles, places⟩ := numbered_inj same
        exact place_ne distinct member otherMember apart (groupTitle_eq folds titles) places
      · rw [if_neg otherLater] at same
        exact noneMet row member other otherMember later (by omega) same
    · rw [if_neg later] at same
      by_cases otherLater : 0 < place toLowerCase jobs.activeJobRows other
      · rw [if_pos otherLater] at same
        exact noneMet other otherMember row member otherLater (by omega) same.symm
      · rw [if_neg otherLater] at same
        exact place_ne distinct member otherMember apart (groupTitle_eq folds same) (by omega)

theorem mem_dedupe_iff (toLowerCase : Text → Text) (jobs : CronJobs)
    (member : row ∈ jobs.activeJobRows) :
    row ∈ (dedupeActiveCronJobTitles toLowerCase jobs).rows ↔
      place toLowerCase jobs.activeJobRows row = 0 := by
  obtain ⟨isRow, active⟩ := (mem_activeJobRows jobs).mp member
  rw [dedupe_rows, List.mem_map]
  constructor
  · rintro ⟨found, isFound, same⟩
    have sameId : found.id = row.id := by
      rw [← same]
      split <;> rfl
    obtain rfl := row_eq_of_id jobs isFound isRow sameId
    rw [if_pos active] at same
    have titles : newTitle toLowerCase jobs.activeJobRows found = found.title :=
      congrArg CronJobRow.title same
    by_contra later
    rw [newTitle, if_pos (by omega)] at titles
    exact numbered_ne _ _ titles
  · intro first
    refine ⟨row, isRow, ?_⟩
    rw [if_pos active, newTitle, if_neg (by omega)]
    rfl

theorem keepsUnique_iff (toLowerCase : Text → Text) (jobs : CronJobs) :
    KeepsUnique toLowerCase jobs ↔
      ∀ row ∈ jobs.activeJobRows, 0 < place toLowerCase jobs.activeJobRows row →
        ∃ other ∈ jobs.activeJobRows,
          other.id ≠ row.id ∧ foldAscii other.title = foldAscii row.title := by
  refine forall₂_congr fun row member => ?_
  rw [mem_dedupe_iff toLowerCase jobs member]
  constructor
  · intro keeps later
    by_contra none
    refine later.ne' (keeps fun other isOther apart same => none ⟨other, isOther, apart, same⟩)
  · intro onlyEqual unique
    by_contra later
    obtain ⟨other, isOther, apart, same⟩ := onlyEqual (by omega)
    exact unique other isOther apart same

/-- The index can be made and unique titles stay just where no number meets a title and no title
shares its group with titles that the index takes for others. -/
theorem dedupe_correct_iff (folds : FoldsAscii toLowerCase) (jobs : CronJobs) :
    TitlesDistinct (dedupeActiveCronJobTitles toLowerCase jobs) ∧ KeepsUnique toLowerCase jobs ↔
      DedupeSafe toLowerCase jobs := by
  rw [titlesDistinct_iff, newTitle_injOn_iff folds, keepsUnique_iff]
  exact ⟨fun both => ⟨both.1, both.2⟩, fun safe => ⟨safe.noneMet, safe.onlyEqual⟩⟩

def metNumber : CronJobs where
  rows :=
    [{ id := 1, title := ['a'], createdAt := [], deletedAt := none },
      { id := 2, title := ['a'], createdAt := [], deletedAt := none },
      { id := 3, title := ['a', '-', '1'], createdAt := [], deletedAt := none }]
  distinct := by decide

theorem foldAscii_folds : FoldsAscii foldAscii := fun _ _ => id

theorem dedupe_correct_iff_metNumber :
    TitlesDistinct (dedupeActiveCronJobTitles foldAscii metNumber) ∧
        KeepsUnique foldAscii metNumber ↔ DedupeSafe foldAscii metNumber :=
  dedupe_correct_iff foldAscii_folds metNumber

theorem metNumber_activeJobRows : metNumber.activeJobRows = metNumber.rows := by
  have active : metNumber.rows.filter CronJobRow.isActive = metNumber.rows := by decide
  rw [CronJobs.activeJobRows, active]
  exact List.mergeSort_of_pairwise (by decide)

theorem number_meets_title :
    ¬ TitlesDistinct (dedupeActiveCronJobTitles foldAscii metNumber) := by
  rw [dedupeActiveCronJobTitles, metNumber_activeJobRows]
  unfold TitlesDistinct
  decide

end Metidos.Schema.CronTitles
