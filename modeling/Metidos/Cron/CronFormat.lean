import Metidos.Cron.CronFields

namespace Metidos.Cron

open JsText ExceptRules

def runBounds (start prev : Nat) : List Nat → List (Nat × Nat)
  | [] => [(start, prev)]
  | current :: rest =>
    if current = prev + 1 then runBounds start current rest
    else (start, prev) :: runBounds current current rest

theorem formatRuns_eq (start prev : Nat) (rest : List Nat) :
    formatRuns start prev rest = (runBounds start prev rest).map fun run => formatRun run.1 run.2 := by
  induction rest generalizing start prev with
  | nil => rfl
  | cons current rest ih =>
    simp only [formatRuns, runBounds]
    split
    · exact ih start current
    · simp [ih]

theorem runBounds_ne_nil (start prev : Nat) (rest : List Nat) : runBounds start prev rest ≠ [] := by
  induction rest generalizing start prev with
  | nil => simp [runBounds]
  | cons current rest ih =>
    simp only [runBounds]
    split
    · exact ih start current
    · simp

theorem mem_runBounds {start prev : Nat} (rest : List Nat) (order : start ≤ prev) (value : Nat) :
    (∃ run ∈ runBounds start prev rest, run.1 ≤ value ∧ value ≤ run.2) ↔
      (start ≤ value ∧ value ≤ prev) ∨ value ∈ rest := by
  induction rest generalizing start prev with
  | nil => simp [runBounds]
  | cons current rest ih =>
    simp only [runBounds]
    split
    · rename_i consecutive
      rw [ih (by omega), List.mem_cons]
      constructor
      · rintro (inside | later)
        · by_cases last : value = current
          · exact Or.inr (Or.inl last)
          · exact Or.inl (by omega)
        · exact Or.inr (Or.inr later)
      · rintro (inside | last | later)
        · exact Or.inl (by omega)
        · exact Or.inl (by omega)
        · exact Or.inr later
    · simp only [List.mem_cons, exists_eq_or_imp, ih (Nat.le_refl current)]
      constructor
      · rintro (inside | same | later)
        · exact Or.inl inside
        · exact Or.inr (Or.inl (by omega))
        · exact Or.inr (Or.inr later)
      · rintro (inside | same | later)
        · exact Or.inl inside
        · exact Or.inr (Or.inl (by omega))
        · exact Or.inr (Or.inr later)

theorem runBounds_bounded {low high start prev : Nat} {rest : List Nat} (order : start ≤ prev)
    (startLow : low ≤ start) (prevHigh : prev ≤ high)
    (restBounded : ∀ value ∈ rest, low ≤ value ∧ value ≤ high) :
    ∀ run ∈ runBounds start prev rest, low ≤ run.1 ∧ run.1 ≤ run.2 ∧ run.2 ≤ high := by
  induction rest generalizing start prev with
  | nil =>
    intro run member
    simp only [runBounds, List.mem_singleton] at member
    subst member
    exact ⟨startLow, order, prevHigh⟩
  | cons current rest ih =>
    have first := restBounded current (by simp)
    have later : ∀ value ∈ rest, low ≤ value ∧ value ≤ high :=
      fun value member => restBounded value (List.mem_cons_of_mem _ member)
    simp only [runBounds]
    split
    · exact ih (by omega) startLow first.2 later
    · intro run member
      rcases List.mem_cons.mp member with same | tail
      · subst same
        exact ⟨startLow, order, prevHigh⟩
      · exact ih (Nat.le_refl _) first.1 first.2 later run tail

theorem mem_formatRun {start prev : Nat} {char : Char} (member : char ∈ formatRun start prev) :
    char.isDigit = true ∨ char = '-' := by
  rw [formatRun] at member
  split at member
  · exact Or.inl (isDigit_of_mem_stringOfNumber member)
  · rcases List.mem_append.mp member with first | rest
    · exact Or.inl (isDigit_of_mem_stringOfNumber first)
    · rcases List.mem_cons.mp rest with dash | last
      · exact Or.inr dash
      · exact Or.inl (isDigit_of_mem_stringOfNumber last)

theorem not_mem_formatRun {start prev : Nat} {char : Char} (notDigit : char.isDigit = false)
    (notDash : char ≠ '-') : char ∉ formatRun start prev := by
  intro member
  rcases mem_formatRun member with digit | dash
  · simp [notDigit] at digit
  · exact notDash dash

theorem formatRun_ne_nil (start prev : Nat) : formatRun start prev ≠ [] := by
  rw [formatRun]
  split
  · exact stringOfNumber_ne_nil start
  · simp

theorem not_mem_stringOfNumber {value : Nat} {char : Char} (notDigit : char.isDigit = false) :
    char ∉ stringOfNumber value := by
  intro member
  rw [isDigit_of_mem_stringOfNumber member] at notDigit
  exact Bool.noConfusion notDigit

section Reparse

variable {name : CronFieldName} {raw : List Char} {min max high : Nat} {aliases : Aliases}
  {normalize : Nat → Nat}

theorem parseRawValue_stringOfNumber (shape : FieldShape name min max high aliases normalize)
    {value : Nat} (low : min ≤ value) (upper : value ≤ max) :
    parseRawValue name (stringOfNumber value) min max aliases = .ok value := by
  have upperCase : toUpperCase (stringOfNumber value) = stringOfNumber value :=
    toUpperCase_digits fun _ member => isDigit_of_mem_stringOfNumber member
  have unaliased : aliases.lookup (stringOfNumber value) = none := by
    rw [List.lookup_eq_none_iff]
    intro entry member
    obtain ⟨char, inside, notDigit⟩ := shape.spelled entry member
    rw [bne_iff_ne]
    intro same
    rw [← same] at inside
    exact not_mem_stringOfNumber notDigit inside
  have inRange : ¬(value < min ∨ value > max) := by omega
  simp [parseRawValue, upperCase, unaliased, isDigits_stringOfNumber, inRange]

theorem normalized_range (shape : FieldShape name min max high aliases normalize) {first last : Nat}
    (low : min ≤ first) (upper : last ≤ high) :
    uniqueSorted ((range first last).map normalize) = range first last := by
  have fixed : (range first last).map normalize = (range first last).map id := by
    apply List.map_congr_left
    intro value member
    rw [mem_range] at member
    exact shape.fixes value (by omega) (by omega)
  rw [fixed, List.map_id]
  exact uniqueSorted_eq_self (range_sorted first last)

theorem expandBase_formatRun (shape : FieldShape name min max high aliases normalize)
    {start prev : Nat} (low : min ≤ start) (order : start ≤ prev) (upper : prev ≤ high) :
    expandBase name (formatRun start prev) min max aliases normalize = .ok (range start prev) := by
  have whole := shape.high_le_max
  have notStar : formatRun start prev ≠ ['*'] := by
    intro same
    have member : '*' ∈ formatRun start prev := by simp [same]
    exact not_mem_formatRun (by decide) (by decide) member
  simp only [expandBase, notStar, if_false]
  by_cases single : start = prev
  · subst single
    have pieces : (formatRun start start).splitOn '-' = [stringOfNumber start] := by
      rw [formatRun, if_pos rfl]
      exact List.splitOn_eq_singleton (not_mem_stringOfNumber (by decide))
    simp only [pieces, parseValue, parseRawValue_stringOfNumber shape low (Nat.le_trans upper whole),
      Except.map, shape.fixes start low upper, range_self, ok_bind, pure_eq_ok]
  · have pieces : (formatRun start prev).splitOn '-' = [stringOfNumber start, stringOfNumber prev] := by
      rw [formatRun, if_neg single,
        List.splitOn_append_cons_self_of_not_mem (not_mem_stringOfNumber (by decide)),
        List.splitOn_eq_singleton (not_mem_stringOfNumber (by decide))]
    have nonempty : ¬(stringOfNumber start = [] ∨ stringOfNumber prev = []) := by
      simp [stringOfNumber_ne_nil]
    simp only [pieces, nonempty, if_false,
      parseRawValue_stringOfNumber shape low (by omega : start ≤ max),
      parseRawValue_stringOfNumber shape (by omega : min ≤ prev) (Nat.le_trans upper whole), ok_bind]
    rw [if_neg (by omega), normalized_range shape low upper]
    rfl

theorem parseToken_formatRun (shape : FieldShape name min max high aliases normalize)
    {start prev : Nat} (low : min ≤ start) (order : start ≤ prev) (upper : prev ≤ high) :
    parseToken name raw min max aliases normalize (formatRun start prev) = .ok (range start prev) := by
  have pieces : (formatRun start prev).splitOn '/' = [formatRun start prev] :=
    List.splitOn_eq_singleton (not_mem_formatRun (by decide) (by decide))
  simp only [parseToken, formatRun_ne_nil, if_false, pieces,
    expandBase_formatRun shape low order upper, ok_bind, everyStep_one, pure_eq_ok]

theorem expandBase_star (shape : FieldShape name min max high aliases normalize) :
    expandBase name ['*'] min max aliases normalize = .ok (range min high) := by
  have whole := shape.high_le_max
  have same : uniqueSorted ((range min max).map normalize) = range min high := by
    apply sorted_ext (uniqueSorted_sorted _) (range_sorted min high)
    intro value
    rw [mem_uniqueSorted, List.mem_map, mem_range]
    constructor
    · rintro ⟨rawValue, inside, rfl⟩
      rw [mem_range] at inside
      exact shape.maps rawValue inside.1 inside.2
    · intro inside
      exact ⟨value, mem_range.mpr ⟨inside.1, by omega⟩, shape.fixes value inside.1 inside.2⟩
  simp [expandBase, same]

theorem parseToken_star (shape : FieldShape name min max high aliases normalize) :
    parseToken name raw min max aliases normalize ['*'] = .ok (range min high) := by
  have pieces : ['*'].splitOn '/' = [['*']] := by decide
  simp only [parseToken, List.cons_ne_nil, if_false, pieces, expandBase_star shape, ok_bind,
    everyStep_one, pure_eq_ok]

theorem parseField_of_items (shape : FieldShape name min max high aliases normalize)
    {values : List Nat} (kept : trim raw ≠ []) (sorted : values.Pairwise (· < ·))
    (items : ∀ token ∈ raw.splitOn ',', ∃ added,
      parseToken name raw min max aliases normalize token = .ok added)
    (union : ∀ value, value ∈ values ↔ ∃ token ∈ raw.splitOn ',', ∃ added,
      parseToken name raw min max aliases normalize token = .ok added ∧ value ∈ added) :
    parseField name raw min max aliases normalize =
      .ok { name, raw, min, max, values, wildcard := values == range min high } := by
  obtain ⟨finish, folded⟩ := foldlM_succeeds
    (fun (values : OrderedSet Nat) token => do
      let added ← parseToken name raw min max aliases normalize token
      return values.addAll added)
    (raw.splitOn ',') OrderedSet.empty
    (by
      intro state token member
      obtain ⟨added, parsed⟩ := items token member
      exact ⟨state.addAll added, by rw [parsed]; rfl⟩)
  have spec := parseTokens_spec folded
  have result : sortNumbers finish.elements = values := by
    apply sorted_ext (sortNumbers_sorted finish.distinct) sorted
    intro value
    rw [mem_sortNumbers, ← OrderedSet.mem_def, spec.2 value, union value]
  rw [parseField, if_neg kept, folded, ok_bind, shape.full, result]
  rfl

theorem formatValues_full (min high : Nat) : formatValues (range min high) (range min high) = ['*'] := by
  simp [formatValues, uniqueSorted_eq_self (range_sorted min high)]

theorem formatValues_items {first : Nat} {rest : List Nat} {full : List Nat}
    (sorted : (first :: rest).Pairwise (· < ·)) (restricted : first :: rest ≠ full) :
    formatValues (first :: rest) full =
      [','].intercalate ((runBounds first first rest).map fun run => formatRun run.1 run.2) := by
  simp [formatValues, uniqueSorted_eq_self sorted, restricted, formatRuns_eq]

theorem formatValues_ne_nil {values full : List Nat} (sorted : values.Pairwise (· < ·))
    (nonempty : values ≠ []) : formatValues values full ≠ [] := by
  by_cases whole : values = full
  · subst whole
    simp [formatValues, uniqueSorted_eq_self sorted]
  · cases values with
    | nil => exact absurd rfl nonempty
    | cons first rest =>
      rw [formatValues_items sorted whole]
      obtain ⟨run, runs, split⟩ := List.exists_cons_of_ne_nil (runBounds_ne_nil first first rest)
      rw [split, List.map_cons]
      exact intercalate_ne_nil _ (formatRun_ne_nil run.1 run.2)

theorem formatValues_solid {values full : List Nat} (sorted : values.Pairwise (· < ·)) :
    ∀ char ∈ formatValues values full, isWhiteSpace char = false := by
  intro char member
  by_cases whole : values = full
  · subst whole
    simp only [formatValues, uniqueSorted_eq_self sorted, if_true, List.mem_singleton] at member
    subst member
    decide
  · cases values with
    | nil => simp [formatValues, uniqueSorted_eq_self sorted, whole] at member
    | cons first rest =>
      rw [formatValues_items sorted whole] at member
      rcases mem_intercalate member with separator | ⟨item, listed, inside⟩
      · rw [List.mem_singleton] at separator
        subst separator
        decide
      · obtain ⟨run, _, rfl⟩ := List.mem_map.mp listed
        rcases mem_formatRun inside with digit | dash
        · exact digit_not_whiteSpace digit
        · subst dash
          decide

theorem trim_formatValues {values full : List Nat} (sorted : values.Pairwise (· < ·)) :
    trim (formatValues values full) = formatValues values full := by
  apply trim_eq_self
  · intro char member
    exact formatValues_solid sorted char (List.mem_of_mem_head? member)
  · intro char member
    exact formatValues_solid sorted char (List.mem_of_mem_getLast? member)

theorem parseField_formatValues (shape : FieldShape name min max high aliases normalize)
    {values : List Nat} (formed : WellFormedValues min high values) :
    parseField name (formatValues values (range min high)) min max aliases normalize =
      .ok { name, raw := formatValues values (range min high), min, max, values,
            wildcard := values == range min high } := by
  have kept : trim (formatValues values (range min high)) ≠ [] := by
    rw [trim_formatValues formed.sorted]
    exact formatValues_ne_nil formed.sorted formed.nonempty
  by_cases whole : values = range min high
  · subst whole
    rw [formatValues_full] at kept ⊢
    have tokens : ['*'].splitOn ',' = [['*']] := by decide
    apply parseField_of_items shape kept formed.sorted
    · intro token member
      rw [tokens, List.mem_singleton] at member
      subst member
      exact ⟨_, parseToken_star shape⟩
    · intro value
      simp [tokens, parseToken_star shape]
  · obtain ⟨first, rest, split⟩ := List.exists_cons_of_ne_nil formed.nonempty
    subst split
    have firstBounds := formed.bounded first (by simp)
    have restBounds : ∀ value ∈ rest, min ≤ value ∧ value ≤ high :=
      fun value member => formed.bounded value (List.mem_cons_of_mem _ member)
    have bounded := runBounds_bounded (Nat.le_refl first) firstBounds.1 firstBounds.2 restBounds
    rw [formatValues_items formed.sorted whole] at kept ⊢
    have tokens : ([','].intercalate
        ((runBounds first first rest).map fun run => formatRun run.1 run.2)).splitOn ',' =
        (runBounds first first rest).map fun run => formatRun run.1 run.2 :=
      List.splitOn_intercalate ',' (by
        intro item member
        obtain ⟨run, _, rfl⟩ := List.mem_map.mp member
        exact not_mem_formatRun (by decide) (by decide))
      (by simp [runBounds_ne_nil])
    have parses : ∀ run ∈ runBounds first first rest, ∀ text,
        parseToken name text min max aliases normalize (formatRun run.1 run.2) =
          .ok (range run.1 run.2) := by
      intro run member text
      have bounds := bounded run member
      exact parseToken_formatRun shape bounds.1 bounds.2.1 bounds.2.2
    apply parseField_of_items shape kept formed.sorted
    · intro token member
      rw [tokens] at member
      obtain ⟨run, listed, rfl⟩ := List.mem_map.mp member
      exact ⟨_, parses run listed _⟩
    · intro value
      rw [tokens]
      have covered := mem_runBounds rest (Nat.le_refl first) value
      constructor
      · intro member
        obtain ⟨run, listed, inside⟩ := covered.mpr (by
          rcases List.mem_cons.mp member with same | later
          · exact Or.inl (by omega)
          · exact Or.inr later)
        exact ⟨formatRun run.1 run.2, List.mem_map_of_mem listed, _, parses run listed _,
          mem_range.mpr inside⟩
      · rintro ⟨token, member, added, parsed, inside⟩
        obtain ⟨run, listed, rfl⟩ := List.mem_map.mp member
        rw [parses run listed, Except.ok.injEq] at parsed
        subst parsed
        rcases covered.mp ⟨run, listed, mem_range.mp inside⟩ with same | later
        · exact List.mem_cons.mpr (Or.inl (by omega))
        · exact List.mem_cons_of_mem _ later

end Reparse

def formattedField (name : CronFieldName) (min max high : Nat) (values : List Nat) :
    ParsedCronField :=
  { name, raw := formatValues values (range min high), min, max, values,
    wildcard := values == range min high }

def formattedCron (minutes hours dom month dow : List Nat) : ParsedCron :=
  { raw := formatFields minutes hours dom month dow
    minute := formattedField .minute 0 59 59 minutes
    hour := formattedField .hour 0 23 23 hours
    dayOfMonth := formattedField .dayOfMonth 1 31 31 dom
    month := formattedField .month 1 12 12 month
    dayOfWeek := formattedField .dayOfWeek 0 7 6 dow }

theorem parseCron_formatFields {minutes hours dom month dow : List Nat}
    (minutesFormed : WellFormedValues 0 59 minutes) (hoursFormed : WellFormedValues 0 23 hours)
    (domFormed : WellFormedValues 1 31 dom) (monthFormed : WellFormedValues 1 12 month)
    (dowFormed : WellFormedValues 0 6 dow) :
    parseCron (formatFields minutes hours dom month dow) =
      .ok (formattedCron minutes hours dom month dow) := by
  have solid : ∀ word ∈ [formatValues minutes fullMinutes, formatValues hours fullHours,
      formatValues dom fullDom, formatValues month fullMonths, formatValues dow fullDow],
      word ≠ [] ∧ ∀ char ∈ word, isWhiteSpace char = false := by
    have field : ∀ {low high : Nat} {values full : List Nat}, WellFormedValues low high values →
        formatValues values full ≠ [] ∧
          ∀ char ∈ formatValues values full, isWhiteSpace char = false :=
      fun formed => ⟨formatValues_ne_nil formed.sorted formed.nonempty,
        formatValues_solid formed.sorted⟩
    simp only [List.mem_cons, List.not_mem_nil, or_false, forall_eq_or_imp, forall_eq]
    exact ⟨field minutesFormed, field hoursFormed, field domFormed, field monthFormed,
      field dowFormed⟩
  have parts : splitWhiteSpace (trim (formatFields minutes hours dom month dow)) =
      [formatValues minutes fullMinutes, formatValues hours fullHours, formatValues dom fullDom,
        formatValues month fullMonths, formatValues dow fullDow] := by
    rw [formatFields, trim_intercalate _ (by simp) solid, splitWhiteSpace_intercalate _ (by simp) solid]
  simp only [parseCron, parts]
  rw [fullMinutes, fullHours, fullDom, fullMonths, fullDow,
    parseField_formatValues minuteShape minutesFormed,
    parseField_formatValues hourShape hoursFormed,
    parseField_formatValues dayOfMonthShape domFormed,
    parseField_formatValues monthShape monthFormed,
    parseField_formatValues dayOfWeekShape dowFormed]
  rfl

end Metidos.Cron
