import Metidos.Library.ExceptRules
import Metidos.Cron.CronCore

/-!
Parsed fields are sorted value sets within their range, and parsing a formatted value set
gives the set back.
-/

namespace Metidos.Cron

open JsText ExceptRules

structure WellFormedValues (low high : Nat) (values : List Nat) : Prop where
  nonempty : values ≠ []
  sorted : values.Pairwise (· < ·)
  bounded : ∀ value ∈ values, low ≤ value ∧ value ≤ high

structure FieldShape (name : CronFieldName) (min max high : Nat) (aliases : Aliases)
    (normalize : Nat → Nat) : Prop where
  high_le_max : high ≤ max
  full : (if name = .dayOfWeek then fullDow else range min max) = range min high
  maps : ∀ value, min ≤ value → value ≤ max → min ≤ normalize value ∧ normalize value ≤ high
  fixes : ∀ value, min ≤ value → value ≤ high → normalize value = value
  spelled : ∀ entry ∈ aliases, ∃ char ∈ entry.1, char.isDigit = false

@[simp] theorem mem_range {low high value : Nat} :
    value ∈ range low high ↔ low ≤ value ∧ value ≤ high := by
  simp only [range, List.mem_range'_1]
  omega

theorem range_sorted (low high : Nat) : (range low high).Pairwise (· < ·) := by
  simpa [range] using List.pairwise_lt_range' (s := low) (n := high + 1 - low)

theorem range_self (value : Nat) : range value value = [value] := by
  simp [range]

@[simp] theorem mem_sortNumbers {values : List Nat} {value : Nat} :
    value ∈ sortNumbers values ↔ value ∈ values := by
  simp [sortNumbers]

theorem sortNumbers_sorted {values : List Nat} (distinct : values.Nodup) :
    (sortNumbers values).Pairwise (· < ·) := by
  have weak : (sortNumbers values).Pairwise (· ≤ ·) := List.pairwise_insertionSort _ values
  have unique : (sortNumbers values).Nodup :=
    (List.perm_insertionSort (· ≤ ·) values).nodup_iff.mpr distinct
  exact (weak.and unique).imp fun both => Nat.lt_of_le_of_ne both.1 both.2

theorem sorted_ext {first second : List Nat} (firstSorted : first.Pairwise (· < ·))
    (secondSorted : second.Pairwise (· < ·)) (same : ∀ value, value ∈ first ↔ value ∈ second) :
    first = second :=
  firstSorted.eq_of_mem_iff secondSorted same

@[simp] theorem mem_uniqueSorted {values : List Nat} {value : Nat} :
    value ∈ uniqueSorted values ↔ value ∈ values := by
  rw [uniqueSorted, mem_sortNumbers, ← OrderedSet.mem_def, OrderedSet.mem_ofList]

theorem uniqueSorted_sorted (values : List Nat) : (uniqueSorted values).Pairwise (· < ·) :=
  sortNumbers_sorted (OrderedSet.ofList values).distinct

theorem uniqueSorted_eq_self {values : List Nat} (sorted : values.Pairwise (· < ·)) :
    uniqueSorted values = values :=
  sorted_ext (uniqueSorted_sorted values) sorted fun _ => mem_uniqueSorted

theorem everyStep_one (values : List Nat) : everyStep 1 0 values = values := by
  induction values with
  | nil => rfl
  | cons value values ih => simp [everyStep, ih]

theorem mem_of_mem_everyStep {step wait value : Nat} {values : List Nat}
    (member : value ∈ everyStep step wait values) : value ∈ values := by
  induction values generalizing wait with
  | nil => simp [everyStep] at member
  | cons first values ih =>
    cases wait with
    | zero =>
      simp only [everyStep, List.mem_cons] at member
      rcases member with same | later
      · simp [same]
      · exact List.mem_cons_of_mem _ (ih later)
    | succ wait =>
      simp only [everyStep] at member
      exact List.mem_cons_of_mem _ (ih member)

theorem everyStep_ne_nil {step : Nat} {values : List Nat} (nonempty : values ≠ []) :
    everyStep step 0 values ≠ [] := by
  cases values with
  | nil => exact absurd rfl nonempty
  | cons value values => simp [everyStep]

section Parsing

variable {name : CronFieldName} {raw : List Char} {min max high : Nat} {aliases : Aliases}
  {normalize : Nat → Nat}

theorem parseRawValue_bounded {value : Nat}
    (parsed : parseRawValue name raw min max aliases = .ok value) : min ≤ value ∧ value ≤ max := by
  simp only [parseRawValue] at parsed
  split at parsed
  · simp [parseError] at parsed
  · split at parsed
    · simp [parseError] at parsed
    · rename_i inside
      simp only [Except.ok.injEq] at parsed
      omega

theorem parseValue_bounded (shape : FieldShape name min max high aliases normalize) {value : Nat}
    (parsed : parseValue name raw min max aliases normalize = .ok value) :
    min ≤ value ∧ value ≤ high := by
  rw [parseValue, map_eq_ok] at parsed
  obtain ⟨rawValue, found, rfl⟩ := parsed
  have bounds := parseRawValue_bounded found
  exact shape.maps rawValue bounds.1 bounds.2

theorem normalized_range_bounded (shape : FieldShape name min max high aliases normalize)
    {first last : Nat} (low : min ≤ first) (upper : last ≤ max) :
    ∀ value ∈ uniqueSorted ((range first last).map normalize), min ≤ value ∧ value ≤ high := by
  intro value member
  rw [mem_uniqueSorted, List.mem_map] at member
  obtain ⟨rawValue, inside, rfl⟩ := member
  rw [mem_range] at inside
  exact shape.maps rawValue (by omega) (by omega)

theorem normalized_range_ne_nil {first last : Nat} (order : first ≤ last) :
    uniqueSorted ((range first last).map normalize) ≠ [] := by
  apply List.ne_nil_of_mem (a := normalize first)
  rw [mem_uniqueSorted]
  exact List.mem_map_of_mem (mem_range.mpr ⟨Nat.le_refl _, order⟩)

theorem expandBase_bounded (shape : FieldShape name min max high aliases normalize)
    (order : min ≤ high) {values : List Nat}
    (expanded : expandBase name raw min max aliases normalize = .ok values) :
    values ≠ [] ∧ ∀ value ∈ values, min ≤ value ∧ value ≤ high := by
  have whole := Nat.le_trans order shape.high_le_max
  simp only [expandBase] at expanded
  split at expanded
  · simp only [Except.ok.injEq] at expanded
    subst expanded
    exact ⟨normalized_range_ne_nil whole,
      normalized_range_bounded shape (Nat.le_refl _) (Nat.le_refl _)⟩
  · split at expanded
    · rw [bind_eq_ok] at expanded
      obtain ⟨value, parsed, wrapped⟩ := expanded
      simp only [pure_eq_ok, Except.ok.injEq] at wrapped
      subst wrapped
      have bounds := parseValue_bounded shape parsed
      exact ⟨by simp, by simpa using bounds⟩
    · split at expanded
      · simp [parseError] at expanded
      · simp only [bind_eq_ok] at expanded
        obtain ⟨first, firstParsed, last, lastParsed, ranged⟩ := expanded
        have firstBounds := parseRawValue_bounded firstParsed
        have lastBounds := parseRawValue_bounded lastParsed
        split at ranged
        · simp [parseError] at ranged
        · simp only [pure_eq_ok, Except.ok.injEq] at ranged
          subst ranged
          exact ⟨normalized_range_ne_nil (by omega),
            normalized_range_bounded shape firstBounds.1 lastBounds.2⟩
    · simp [parseError] at expanded

theorem parseToken_bounded (shape : FieldShape name min max high aliases normalize)
    (order : min ≤ high) {token : List Char} {values : List Nat}
    (parsed : parseToken name raw min max aliases normalize token = .ok values) :
    values ≠ [] ∧ ∀ value ∈ values, min ≤ value ∧ value ≤ high := by
  simp only [parseToken] at parsed
  split at parsed
  · simp [parseError] at parsed
  · split at parsed
    · rw [bind_eq_ok] at parsed
      obtain ⟨base, expanded, stepped⟩ := parsed
      simp only [pure_eq_ok, Except.ok.injEq] at stepped
      subst stepped
      have facts := expandBase_bounded shape order expanded
      exact ⟨everyStep_ne_nil facts.1, fun value member => facts.2 value (mem_of_mem_everyStep member)⟩
    · simp only [bind_eq_ok] at parsed
      obtain ⟨step, _, base, expanded, stepped⟩ := parsed
      simp only [pure_eq_ok, Except.ok.injEq] at stepped
      subst stepped
      have facts := expandBase_bounded shape order expanded
      exact ⟨everyStep_ne_nil facts.1, fun value member => facts.2 value (mem_of_mem_everyStep member)⟩
    · simp [parseError] at parsed

theorem parseTokens_spec {parse : List Char → Except CronError (List Nat)}
    {tokens : List (List Char)} {values : OrderedSet Nat}
    (folded : tokens.foldlM (fun values token => do
      let added ← parse token
      return values.addAll added) (OrderedSet.empty : OrderedSet Nat) = .ok values) :
    (∀ token ∈ tokens, ∃ added, parse token = .ok added) ∧
      ∀ value, value ∈ values ↔ ∃ token ∈ tokens, ∃ added, parse token = .ok added ∧ value ∈ added := by
  have spec := foldlM_invariant
    (fun processed (values : OrderedSet Nat) =>
      (∀ token ∈ processed, ∃ added, parse token = .ok added) ∧
        ∀ value, value ∈ values ↔
          ∃ token ∈ processed, ∃ added, parse token = .ok added ∧ value ∈ added)
    folded (by simp) (by
      intro processed token before after _ holds stepped
      rw [bind_eq_ok] at stepped
      obtain ⟨added, parsed, extended⟩ := stepped
      simp only [pure_eq_ok, Except.ok.injEq] at extended
      subst extended
      constructor
      · intro other member
        rcases List.mem_append.mp member with earlier | last
        · exact holds.1 other earlier
        · rw [List.mem_singleton] at last
          exact ⟨added, last ▸ parsed⟩
      · intro value
        rw [OrderedSet.mem_addAll, holds.2 value]
        constructor
        · rintro (fresh | ⟨other, earlier, found⟩)
          · exact ⟨token, by simp, added, parsed, fresh⟩
          · exact ⟨other, List.mem_append_left _ earlier, found⟩
        · rintro ⟨other, member, found, foundParsed, belongs⟩
          rcases List.mem_append.mp member with earlier | last
          · exact Or.inr ⟨other, earlier, found, foundParsed, belongs⟩
          · rw [List.mem_singleton] at last
            subst last
            rw [parsed, Except.ok.injEq] at foundParsed
            exact Or.inl (foundParsed ▸ belongs))
  exact spec

theorem parseField_spec {field : ParsedCronField}
    (parsed : parseField name raw min max aliases normalize = .ok field) :
    (∀ token ∈ raw.splitOn ',', ∃ added,
        parseToken name raw min max aliases normalize token = .ok added) ∧
      (∀ value, value ∈ field.values ↔ ∃ token ∈ raw.splitOn ',', ∃ added,
        parseToken name raw min max aliases normalize token = .ok added ∧ value ∈ added) ∧
      field.values.Pairwise (· < ·) ∧
      field.wildcard = (field.values == if name = .dayOfWeek then fullDow else range min max) := by
  simp only [parseField] at parsed
  split at parsed
  · simp [parseError] at parsed
  · rw [bind_eq_ok] at parsed
    obtain ⟨values, folded, built⟩ := parsed
    simp only [pure_eq_ok, Except.ok.injEq] at built
    subst built
    have spec := parseTokens_spec folded
    refine ⟨spec.1, ?_, sortNumbers_sorted values.distinct, rfl⟩
    intro value
    simp only [mem_sortNumbers]
    exact spec.2 value

theorem parseField_wellFormed (shape : FieldShape name min max high aliases normalize)
    (order : min ≤ high) {field : ParsedCronField}
    (parsed : parseField name raw min max aliases normalize = .ok field) :
    WellFormedValues min high field.values ∧
      field.wildcard = (field.values == range min high) := by
  have spec := parseField_spec parsed
  rw [shape.full] at spec
  refine ⟨⟨?_, spec.2.2.1, ?_⟩, spec.2.2.2⟩
  · obtain ⟨token, member⟩ := List.exists_mem_of_ne_nil _ (List.splitOn_ne_nil ',' raw)
    obtain ⟨added, tokenParsed⟩ := spec.1 token member
    have facts := parseToken_bounded shape order tokenParsed
    obtain ⟨value, belongs⟩ := List.exists_mem_of_ne_nil _ facts.1
    exact List.ne_nil_of_mem ((spec.2.1 value).mpr ⟨token, member, added, tokenParsed, belongs⟩)
  · intro value belongs
    obtain ⟨token, _, added, tokenParsed, inside⟩ := (spec.2.1 value).mp belongs
    exact (parseToken_bounded shape order tokenParsed).2 value inside

end Parsing

theorem spelled_of_any {aliases : Aliases}
    (spelled : (aliases.all fun entry => entry.1.any fun char => !char.isDigit) = true) :
    ∀ entry ∈ aliases, ∃ char ∈ entry.1, char.isDigit = false := by
  intro entry member
  obtain ⟨char, isChar, notDigit⟩ := List.any_eq_true.mp (List.all_eq_true.mp spelled entry member)
  exact ⟨char, isChar, by simpa using notDigit⟩

theorem minuteShape : FieldShape .minute 0 59 59 [] id :=
  ⟨Nat.le_refl _, rfl, fun _ low high => ⟨low, high⟩, fun _ _ _ => rfl, by simp⟩

theorem hourShape : FieldShape .hour 0 23 23 [] id :=
  ⟨Nat.le_refl _, rfl, fun _ low high => ⟨low, high⟩, fun _ _ _ => rfl, by simp⟩

theorem dayOfMonthShape : FieldShape .dayOfMonth 1 31 31 [] id :=
  ⟨Nat.le_refl _, rfl, fun _ low high => ⟨low, high⟩, fun _ _ _ => rfl, by simp⟩

theorem monthShape : FieldShape .month 1 12 12 monthAliases id :=
  ⟨Nat.le_refl _, rfl, fun _ low high => ⟨low, high⟩, fun _ _ _ => rfl, spelled_of_any (by decide)⟩

theorem dayOfWeekShape : FieldShape .dayOfWeek 0 7 6 dowAliases normalizeDayOfWeek := by
  refine ⟨by decide, rfl, ?_, ?_, spelled_of_any (by decide)⟩
  · intro value _ upper
    rw [normalizeDayOfWeek]
    split <;> omega
  · intro value _ upper
    rw [normalizeDayOfWeek, if_neg (by omega)]

end Metidos.Cron
