import Metidos.Cron.CronFields

/-!
The values that a field takes from each item of its list, against the raw range that the item
denotes as written, stepped before Sunday 7 is folded onto 0.
-/

namespace Metidos.Cron

open JsText ExceptRules

namespace CronFieldName

def min : CronFieldName → Nat
  | minute => 0
  | hour => 0
  | dayOfMonth => 1
  | month => 1
  | dayOfWeek => 0

def max : CronFieldName → Nat
  | minute => 59
  | hour => 23
  | dayOfMonth => 31
  | month => 12
  | dayOfWeek => 7

def aliases : CronFieldName → Aliases
  | minute => []
  | hour => []
  | dayOfMonth => []
  | month => monthAliases
  | dayOfWeek => dowAliases

def normalize : CronFieldName → Nat → Nat
  | minute => id
  | hour => id
  | dayOfMonth => id
  | month => id
  | dayOfWeek => normalizeDayOfWeek

def parse (name : CronFieldName) (raw : List Char) : Except CronError ParsedCronField :=
  parseField name raw name.min name.max name.aliases name.normalize

end CronFieldName

structure CronItem where
  first : Nat
  last : Nat
  step : Nat
  deriving DecidableEq

variable {name : CronFieldName} {raw token : List Char} {min max : Nat} {aliases : Aliases}
  {normalize : Nat → Nat} {item : CronItem} {value : Nat}

def readBase (name : CronFieldName) (base : List Char) (min max : Nat) (aliases : Aliases) :
    Except CronError (Nat × Nat) :=
  if base = ['*'] then .ok (min, max)
  else
    match base.splitOn '-' with
    | [value] => do
        let parsed ← parseRawValue name value min max aliases
        return (parsed, parsed)
    | [rangeStart, rangeEnd] =>
      if rangeStart = [] ∨ rangeEnd = [] then
        parseError s!"{name.text} field has an invalid range: {quoted base}"
      else do
        let rawStart ← parseRawValue name rangeStart min max aliases
        let rawEnd ← parseRawValue name rangeEnd min max aliases
        if rawStart > rawEnd then
          parseError
            s!"{name.text} field range start cannot be greater than range end: {quoted base}"
        else return (rawStart, rawEnd)
    | _ => parseError s!"{name.text} field has an invalid range: {quoted base}"

def readItem (name : CronFieldName) (raw : List Char) (min max : Nat) (aliases : Aliases)
    (token : List Char) : Except CronError CronItem :=
  if token = [] then
    parseError s!"{name.text} field contains an empty list item: {quoted raw}"
  else
    match token.splitOn '/' with
    | [base] => do
        let (first, last) ← readBase name base min max aliases
        return { first, last, step := 1 }
    | [base, stepRaw] => do
        let step ← parseStep name token stepRaw
        let (first, last) ← readBase name base min max aliases
        return { first, last, step }
    | _ => parseError s!"{name.text} field contains too many '/' separators: {quoted token}"

def CronItem.parsedValues (normalize : Nat → Nat) (item : CronItem) : List Nat :=
  everyStep item.step 0 (uniqueSorted ((range item.first item.last).map normalize))

theorem expandBase_eq (name : CronFieldName) (base : List Char) (min max : Nat)
    (aliases : Aliases) (normalize : Nat → Nat) :
    expandBase name base min max aliases normalize =
      (readBase name base min max aliases).map fun bounds =>
        uniqueSorted ((range bounds.1 bounds.2).map normalize) := by
  rw [expandBase, readBase]
  split
  · rfl
  · generalize base.splitOn '-' = pieces
    rcases pieces with _ | ⟨first, _ | ⟨rangeEnd, _ | ⟨more, rest⟩⟩⟩
    · rfl
    · simp only [parseValue]
      cases parseRawValue name first min max aliases with
      | error error => rfl
      | ok parsed =>
        have single : uniqueSorted ((range parsed parsed).map normalize) = [normalize parsed] := by
          rw [range_self]
          exact uniqueSorted_eq_self (List.pairwise_singleton _ _)
        exact congrArg Except.ok single.symm
    · simp only
      split
      · rfl
      · cases parseRawValue name first min max aliases with
        | error error => rfl
        | ok rawStart =>
          cases parseRawValue name rangeEnd min max aliases with
          | error error => rfl
          | ok rawEnd =>
            simp only [ok_bind]
            split
            · rfl
            · rfl
    · rfl

theorem parseToken_eq (name : CronFieldName) (raw : List Char) (min max : Nat)
    (aliases : Aliases) (normalize : Nat → Nat) (token : List Char) :
    parseToken name raw min max aliases normalize token =
      (readItem name raw min max aliases token).map (CronItem.parsedValues normalize) := by
  rw [parseToken, readItem]
  split
  · rfl
  · generalize token.splitOn '/' = pieces
    rcases pieces with _ | ⟨base, _ | ⟨stepRaw, _ | ⟨more, rest⟩⟩⟩
    · rfl
    · simp only [expandBase_eq]
      cases readBase name base min max aliases with
      | error error => rfl
      | ok bounds => rfl
    · simp only
      cases parseStep name token stepRaw with
      | error error => rfl
      | ok step =>
        simp only [ok_bind, expandBase_eq]
        cases readBase name base min max aliases with
        | error error => rfl
        | ok bounds => rfl
    · rfl

theorem mem_everyStep {step wait : Nat} {values : List Nat} (positive : 0 < step) :
    value ∈ everyStep step wait values ↔ ∃ k, values[wait + k * step]? = some value := by
  induction values generalizing wait with
  | nil => simp [everyStep]
  | cons first values ih =>
    cases wait with
    | zero =>
      rw [everyStep, List.mem_cons, ih]
      constructor
      · rintro (isFirst | ⟨k, found⟩)
        · exact ⟨0, by simp [isFirst]⟩
        · refine ⟨k + 1, ?_⟩
          have index : 0 + (k + 1) * step = (step - 1 + k * step) + 1 := by
            rw [Nat.succ_mul]
            omega
          rw [index, List.getElem?_cons_succ]
          exact found
      · rintro ⟨k, found⟩
        cases k with
        | zero => exact Or.inl (by simpa using found.symm)
        | succ k =>
          have index : 0 + (k + 1) * step = (step - 1 + k * step) + 1 := by
            rw [Nat.succ_mul]
            omega
          rw [index, List.getElem?_cons_succ] at found
          exact Or.inr ⟨k, found⟩
    | succ wait =>
      rw [everyStep, ih]
      refine exists_congr fun k => ?_
      rw [Nat.succ_add, List.getElem?_cons_succ]

theorem range_getElem? {first last index : Nat} :
    (range first last)[index]? = some value ↔ first + index ≤ last ∧ value = first + index := by
  rw [range]
  constructor
  · intro found
    obtain ⟨inside, isValue⟩ := List.getElem?_eq_some_iff.mp found
    rw [List.length_range'] at inside
    rw [List.getElem_range', Nat.one_mul] at isValue
    exact ⟨by omega, isValue.symm⟩
  · rintro ⟨inside, isValue⟩
    rw [List.getElem?_range' (by omega), Nat.one_mul, isValue]

namespace CronItem

def Denotes (normalize : Nat → Nat) (item : CronItem) (value : Nat) : Prop :=
  ∃ k, item.first + k * item.step ≤ item.last ∧ normalize (item.first + k * item.step) = value

def StepsToSunday (name : CronFieldName) (item : CronItem) : Prop :=
  name = .dayOfWeek ∧ 0 < item.first ∧ item.first < 7 ∧ item.last = 7 ∧ 1 < item.step

instance (name : CronFieldName) (item : CronItem) : Decidable (item.StepsToSunday name) :=
  inferInstanceAs (Decidable (_ ∧ _ ∧ _ ∧ _ ∧ _))

/-- What the parser takes from such an item: Sunday, and from there the days of the range stepped,
each one day before the day that is denoted. -/
def StepsFromSunday (item : CronItem) (value : Nat) : Prop :=
  value = 0 ∨ ∃ k, value + 1 = item.first + (k + 1) * item.step ∧ value ≤ 6

def Contributes (name : CronFieldName) (item : CronItem) (value : Nat) : Prop :=
  if item.StepsToSunday name then item.StepsFromSunday value else item.Denotes name.normalize value

end CronItem

structure CronItem.Read (min max : Nat) (item : CronItem) : Prop where
  low : min ≤ item.first
  order : item.first ≤ item.last
  high : item.last ≤ max
  step : 0 < item.step

theorem readBase_bounds {base : List Char} {bounds : Nat × Nat} (order : min ≤ max)
    (read : readBase name base min max aliases = .ok bounds) :
    min ≤ bounds.1 ∧ bounds.1 ≤ bounds.2 ∧ bounds.2 ≤ max := by
  rw [readBase] at read
  split at read
  · rw [← Except.ok.inj read]
    exact ⟨Nat.le_refl _, order, Nat.le_refl _⟩
  · split at read
    · obtain ⟨parsed, found, wrapped⟩ := bind_eq_ok.mp read
      obtain ⟨low, high⟩ := parseRawValue_bounded found
      rw [← Except.ok.inj wrapped]
      exact ⟨low, Nat.le_refl _, high⟩
    · split at read
      · simp [parseError] at read
      · obtain ⟨rawStart, startFound, rest⟩ := bind_eq_ok.mp read
        obtain ⟨rawEnd, endFound, checked⟩ := bind_eq_ok.mp rest
        have startBounds := parseRawValue_bounded startFound
        have endBounds := parseRawValue_bounded endFound
        split at checked
        · simp [parseError] at checked
        · rename_i inOrder
          rw [← Except.ok.inj checked]
          exact ⟨startBounds.1, Nat.le_of_not_lt inOrder, endBounds.2⟩
    · simp [parseError] at read

theorem parseStep_pos {stepRaw : List Char} {step : Nat}
    (parsed : parseStep name token stepRaw = .ok step) : 0 < step := by
  rw [parseStep] at parsed
  split at parsed
  · simp [parseError] at parsed
  · simp only at parsed
    split at parsed
    · simp [parseError] at parsed
    · rename_i notZero
      rw [← Except.ok.inj parsed]
      exact Nat.pos_of_ne_zero notZero

theorem readItem_read (order : min ≤ max)
    (read : readItem name raw min max aliases token = .ok item) : item.Read min max := by
  rw [readItem] at read
  split at read
  · simp [parseError] at read
  · split at read
    · obtain ⟨bounds, found, wrapped⟩ := bind_eq_ok.mp read
      obtain ⟨low, inOrder, high⟩ := readBase_bounds order found
      rw [← Except.ok.inj wrapped]
      exact ⟨low, inOrder, high, Nat.one_pos⟩
    · obtain ⟨step, stepped, rest⟩ := bind_eq_ok.mp read
      obtain ⟨bounds, found, wrapped⟩ := bind_eq_ok.mp rest
      obtain ⟨low, inOrder, high⟩ := readBase_bounds order found
      rw [← Except.ok.inj wrapped]
      exact ⟨low, inOrder, high, parseStep_pos stepped⟩
    · simp [parseError] at read

theorem mem_parsedValues_of_fixed (positive : 0 < item.step)
    (fixed : ∀ value, item.first ≤ value → value ≤ item.last → normalize value = value) :
    value ∈ item.parsedValues normalize ↔ item.Denotes normalize value := by
  have same : (range item.first item.last).map normalize = range item.first item.last := by
    have each : (range item.first item.last).map normalize =
        (range item.first item.last).map fun value => value :=
      List.map_congr_left fun value member =>
        fixed value (mem_range.mp member).1 (mem_range.mp member).2
    rw [each, List.map_id']
  rw [CronItem.parsedValues, same, uniqueSorted_eq_self (range_sorted _ _), mem_everyStep positive,
    CronItem.Denotes]
  refine exists_congr fun k => ?_
  rw [Nat.zero_add, range_getElem?]
  constructor
  · rintro ⟨inside, isValue⟩
    exact ⟨inside, by rw [fixed _ (Nat.le_add_right _ _) inside, isValue]⟩
  · rintro ⟨inside, isValue⟩
    rw [fixed _ (Nat.le_add_right _ _) inside] at isValue
    exact ⟨inside, isValue.symm⟩

theorem sunday_first {first : Nat} (low : 0 < first) (high : first ≤ 7) :
    uniqueSorted ((range first 7).map normalizeDayOfWeek) = 0 :: range first 6 := by
  apply sorted_ext (uniqueSorted_sorted _)
  · refine List.pairwise_cons.mpr ⟨fun day member => ?_, range_sorted _ _⟩
    exact Nat.lt_of_lt_of_le low (mem_range.mp member).1
  · intro day
    rw [mem_uniqueSorted, List.mem_map, List.mem_cons, mem_range]
    constructor
    · rintro ⟨raw, member, isDay⟩
      have bounds := mem_range.mp member
      rw [normalizeDayOfWeek] at isDay
      split at isDay
      · exact Or.inl isDay.symm
      · exact Or.inr (by omega)
    · rintro (isSunday | inside)
      · exact ⟨7, mem_range.mpr ⟨high, Nat.le_refl _⟩, isSunday.symm⟩
      · refine ⟨day, mem_range.mpr (by omega), ?_⟩
        rw [normalizeDayOfWeek, if_neg (by omega)]

theorem mem_parsedValues_to_sunday (positive : 0 < item.step) (low : 0 < item.first)
    (high : item.first ≤ 7) (toSunday : item.last = 7) :
    value ∈ item.parsedValues normalizeDayOfWeek ↔ item.StepsFromSunday value := by
  rw [CronItem.parsedValues, toSunday, sunday_first low high, mem_everyStep positive,
    CronItem.StepsFromSunday]
  constructor
  · rintro ⟨k, found⟩
    cases k with
    | zero => exact Or.inl (by simpa using found.symm)
    | succ k =>
      obtain ⟨index, isIndex⟩ : ∃ index, 0 + (k + 1) * item.step = index + 1 :=
        ⟨k * item.step + (item.step - 1), by rw [Nat.succ_mul]; omega⟩
      rw [isIndex, List.getElem?_cons_succ, range_getElem?] at found
      exact Or.inr ⟨k, by omega, by omega⟩
  · rintro (isSunday | ⟨k, isDay, within⟩)
    · exact ⟨0, by simp [isSunday]⟩
    · refine ⟨k + 1, ?_⟩
      obtain ⟨index, isIndex⟩ : ∃ index, 0 + (k + 1) * item.step = index + 1 :=
        ⟨k * item.step + (item.step - 1), by rw [Nat.succ_mul]; omega⟩
      rw [isIndex, List.getElem?_cons_succ, range_getElem?]
      exact ⟨by omega, by omega⟩

theorem normalizeDayOfWeek_fixed {day : Nat} (within : day ≤ 6) :
    normalizeDayOfWeek day = day := by
  rw [normalizeDayOfWeek, if_neg (by omega)]

theorem mem_parsedValues_week (positive : 0 < item.step) (fromSunday : item.first = 0)
    (toSunday : item.last = 7) :
    value ∈ item.parsedValues normalizeDayOfWeek ↔ item.Denotes normalizeDayOfWeek value := by
  have week : uniqueSorted ((range 0 7).map normalizeDayOfWeek) = range 0 6 := by decide
  rw [CronItem.parsedValues, fromSunday, toSunday, week, mem_everyStep positive, CronItem.Denotes,
    fromSunday, toSunday]
  simp only [Nat.zero_add, range_getElem?]
  constructor
  · rintro ⟨k, inside, isValue⟩
    exact ⟨k, by omega, by rw [normalizeDayOfWeek_fixed inside, isValue]⟩
  · rintro ⟨k, inside, isValue⟩
    by_cases last : k * item.step = 7
    · refine ⟨0, by omega, ?_⟩
      rw [← isValue, last, Nat.zero_mul]
      rfl
    · rw [normalizeDayOfWeek_fixed (by omega)] at isValue
      exact ⟨k, by omega, isValue.symm⟩

theorem denotes_unstepped (low : 0 < item.first) (high : item.first ≤ 7)
    (toSunday : item.last = 7) (unstepped : item.step = 1 ∨ item.first = 7)
    (positive : 0 < item.step) :
    item.StepsFromSunday value ↔ item.Denotes normalizeDayOfWeek value := by
  rw [CronItem.StepsFromSunday, CronItem.Denotes, toSunday]
  rcases unstepped with isOne | isSeven
  · rw [isOne]
    constructor
    · rintro (isSunday | ⟨k, isDay, within⟩)
      · refine ⟨7 - item.first, by omega, ?_⟩
        have last : item.first + (7 - item.first) * 1 = 7 := by omega
        rw [last, isSunday]
        rfl
      · refine ⟨k, by omega, ?_⟩
        rw [normalizeDayOfWeek_fixed (by omega)]
        omega
    · rintro ⟨k, inside, isValue⟩
      by_cases last : item.first + k * 1 = 7
      · rw [last] at isValue
        exact Or.inl isValue.symm
      · rw [normalizeDayOfWeek_fixed (by omega)] at isValue
        exact Or.inr ⟨k, by omega, by omega⟩
  · rw [isSeven]
    constructor
    · rintro (isSunday | ⟨k, isDay, within⟩)
      · exact ⟨0, by omega, by rw [isSunday, Nat.zero_mul]; rfl⟩
      · have further : item.step ≤ (k + 1) * item.step :=
          Nat.le_mul_of_pos_left item.step (Nat.succ_pos k)
        omega
    · rintro ⟨k, inside, isValue⟩
      have none : k * item.step = 0 := by omega
      rw [none] at isValue
      exact Or.inl isValue.symm

theorem mem_parsedValues (read : item.Read name.min name.max) :
    value ∈ item.parsedValues name.normalize ↔ item.Contributes name value := by
  obtain ⟨_, order, high, positive⟩ := read
  rw [CronItem.Contributes]
  cases name with
  | minute =>
    rw [if_neg (by simp [CronItem.StepsToSunday])]
    exact mem_parsedValues_of_fixed positive fun _ _ _ => rfl
  | hour =>
    rw [if_neg (by simp [CronItem.StepsToSunday])]
    exact mem_parsedValues_of_fixed positive fun _ _ _ => rfl
  | dayOfMonth =>
    rw [if_neg (by simp [CronItem.StepsToSunday])]
    exact mem_parsedValues_of_fixed positive fun _ _ _ => rfl
  | month =>
    rw [if_neg (by simp [CronItem.StepsToSunday])]
    exact mem_parsedValues_of_fixed positive fun _ _ _ => rfl
  | dayOfWeek =>
    have within : item.last ≤ 7 := high
    by_cases toSunday : item.last = 7
    · by_cases fromSunday : item.first = 0
      · rw [if_neg (by simp [CronItem.StepsToSunday, fromSunday])]
        exact mem_parsedValues_week positive fromSunday toSunday
      · have low : 0 < item.first := Nat.pos_of_ne_zero fromSunday
        have parsed : value ∈ item.parsedValues normalizeDayOfWeek ↔ item.StepsFromSunday value :=
          mem_parsedValues_to_sunday positive low (by omega) toSunday
        by_cases stepped : item.StepsToSunday .dayOfWeek
        · rw [if_pos stepped]
          exact parsed
        · rw [if_neg stepped]
          refine parsed.trans (denotes_unstepped low (by omega) toSunday ?_ positive)
          by_cases isSeven : item.first = 7
          · exact Or.inr isSeven
          · have isOne : ¬1 < item.step := fun steps =>
              stepped ⟨rfl, low, by omega, toSunday, steps⟩
            exact Or.inl (by omega)
    · rw [if_neg (by simp [CronItem.StepsToSunday, toSunday])]
      exact mem_parsedValues_of_fixed positive fun day _ upper =>
        normalizeDayOfWeek_fixed (by omega)

def IsItem (name : CronFieldName) (raw : List Char) (item : CronItem) : Prop :=
  ∃ token ∈ raw.splitOn ',', readItem name raw name.min name.max name.aliases token = .ok item

def StepsCovered (name : CronFieldName) (raw : List Char) : Prop :=
  ∀ item, IsItem name raw item → item.StepsToSunday name →
    (∀ value, item.StepsFromSunday value →
      ∃ other, IsItem name raw other ∧ other.Denotes name.normalize value) ∧
    ∀ k, item.first + k * item.step < 7 →
      ∃ other, IsItem name raw other ∧ other.Contributes name (item.first + k * item.step)

theorem CronFieldName.min_le_max (name : CronFieldName) : name.min ≤ name.max := by
  cases name <;> decide

theorem parse_contributes {field : ParsedCronField} (parsed : name.parse raw = .ok field) :
    value ∈ field.values ↔ ∃ item, IsItem name raw item ∧ item.Contributes name value := by
  rw [(parseField_spec parsed).2.1 value]
  constructor
  · rintro ⟨token, isToken, added, tokenParsed, member⟩
    rw [parseToken_eq] at tokenParsed
    obtain ⟨item, read, isAdded⟩ := map_eq_ok.mp tokenParsed
    rw [← isAdded] at member
    exact ⟨item, ⟨token, isToken, read⟩,
      (mem_parsedValues (readItem_read name.min_le_max read)).mp member⟩
  · rintro ⟨item, ⟨token, isToken, read⟩, contributes⟩
    refine ⟨token, isToken, item.parsedValues name.normalize, ?_, ?_⟩
    · rw [parseToken_eq, read]
      rfl
    · exact (mem_parsedValues (readItem_read name.min_le_max read)).mpr contributes

/-- An accepted field holds what its items denote if and only if no item is a stepped range of days
from Monday or later to Sunday 7, or other items make up for the difference. -/
theorem field_denotes_iff (name : CronFieldName) (raw : List Char) (field : ParsedCronField)
    (parsed : name.parse raw = .ok field) :
    (∀ value, value ∈ field.values ↔
      ∃ item, IsItem name raw item ∧ item.Denotes name.normalize value) ↔
    StepsCovered name raw := by
  simp only [parse_contributes parsed]
  constructor
  · intro holds item isItem stepped
    constructor
    · intro value fromSunday
      refine (holds value).mp ⟨item, isItem, ?_⟩
      rw [CronItem.Contributes, if_pos stepped]
      exact fromSunday
    · intro k within
      refine (holds _).mpr ⟨item, isItem, k, ?_, ?_⟩
      · rw [stepped.2.2.2.1]
        exact Nat.le_of_lt within
      · rw [stepped.1]
        exact normalizeDayOfWeek_fixed (Nat.le_of_lt_succ within)
  · intro covered value
    constructor
    · rintro ⟨item, isItem, contributes⟩
      rw [CronItem.Contributes] at contributes
      split at contributes
      · rename_i stepped
        exact (covered item isItem stepped).1 value contributes
      · exact ⟨item, isItem, contributes⟩
    · rintro ⟨item, isItem, denotes⟩
      by_cases stepped : item.StepsToSunday name
      · obtain ⟨k, inside, isValue⟩ := denotes
        rw [stepped.2.2.2.1] at inside
        by_cases last : item.first + k * item.step = 7
        · refine ⟨item, isItem, ?_⟩
          rw [CronItem.Contributes, if_pos stepped]
          rw [last, stepped.1] at isValue
          exact Or.inl isValue.symm
        · have within : item.first + k * item.step < 7 := by omega
          rw [stepped.1] at isValue
          have same : normalizeDayOfWeek (item.first + k * item.step) = value := isValue
          rw [normalizeDayOfWeek_fixed (Nat.le_of_lt_succ within)] at same
          rw [← same]
          exact (covered item isItem stepped).2 k within
      · refine ⟨item, isItem, ?_⟩
        rw [CronItem.Contributes, if_neg stepped]
        exact denotes

theorem field_denotes_iff_weekdays : ∃ field, CronFieldName.dayOfWeek.parse "1-5/2".toList = .ok field ∧
    ((∀ value, value ∈ field.values ↔ ∃ item, IsItem .dayOfWeek "1-5/2".toList item ∧
      item.Denotes CronFieldName.dayOfWeek.normalize value) ↔
    StepsCovered .dayOfWeek "1-5/2".toList) := by
  have parsed : (CronFieldName.dayOfWeek.parse "1-5/2".toList).isOk = true := by decide +kernel
  cases found : CronFieldName.dayOfWeek.parse "1-5/2".toList with
  | error error =>
    rw [found] at parsed
    cases parsed
  | ok field => exact ⟨field, rfl, field_denotes_iff _ _ field found⟩

theorem not_field_denotes : ¬∀ (name : CronFieldName) (raw : List Char) (field : ParsedCronField),
    name.parse raw = .ok field → ∀ value, value ∈ field.values ↔
      ∃ item, IsItem name raw item ∧ item.Denotes name.normalize value := by
  intro holds
  have parsed : ((CronFieldName.dayOfWeek.parse "5-7/2".toList).map ParsedCronField.values) =
      .ok [0, 6] := by decide +kernel
  obtain ⟨field, found, values⟩ := map_eq_ok.mp parsed
  have friday : ∃ item, IsItem .dayOfWeek "5-7/2".toList item ∧
      item.Denotes CronFieldName.dayOfWeek.normalize 5 := by
    refine ⟨{ first := 5, last := 7, step := 2 }, ⟨"5-7/2".toList, ?_, ?_⟩, 0, by decide, rfl⟩
    · decide +kernel
    · decide +kernel
  have member := (holds .dayOfWeek "5-7/2".toList field found 5).mpr friday
  rw [values] at member
  exact absurd member (by decide)

end Metidos.Cron
