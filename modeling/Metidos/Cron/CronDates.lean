import Metidos.Cron.CronGroups

/-!
The date specifications of a shifted schedule match exactly the shifted days, and no day
matches two of them.
-/

namespace Metidos.Cron

open JsText ExceptRules Gregorian

def DateMatches (dom month dow : List Nat) (day : Int) : Prop :=
  (civilOfDay day).month ∈ month ∧
    if dom ≠ fullDom ∧ dow ≠ fullDow then
      (civilOfDay day).dayOfMonth ∈ dom ∨ weekday day ∈ dow
    else (civilOfDay day).dayOfMonth ∈ dom ∧ weekday day ∈ dow

structure WellFormedSpec (spec : DateSpec) : Prop where
  dom : WellFormedValues 1 31 spec.dom
  month : WellFormedValues 1 12 spec.month
  dow : WellFormedValues 0 6 spec.dow

structure CoversExactly (specs : List DateSpec) (days : Int → Prop) : Prop where
  formed : ∀ spec ∈ specs, WellFormedSpec spec
  exact : ∀ day, (∃ spec ∈ specs, DateMatches spec.dom spec.month spec.dow day) ↔ days day
  unique : ∀ day, ∀ first ∈ specs, ∀ second ∈ specs,
    DateMatches first.dom first.month first.dow day →
    DateMatches second.dom second.month second.dow day → first = second

theorem range_wellFormed {low high : Nat} (order : low ≤ high) :
    WellFormedValues low high (range low high) := by
  refine ⟨?_, range_sorted low high, fun value member => mem_range.mp member⟩
  exact List.ne_nil_of_mem (mem_range.mpr ⟨Nat.le_refl _, order⟩)

theorem weekday_mem_fullDow (day : Int) : weekday day ∈ fullDow := by
  have bound := weekday_lt day
  rw [fullDow, mem_range]
  omega

theorem civil_bounds (day : Int) :
    1 ≤ (civilOfDay day).month ∧ (civilOfDay day).month ≤ 12 ∧
      1 ≤ (civilOfDay day).dayOfMonth ∧ (civilOfDay day).dayOfMonth ≤ 31 := by
  have valid := civilOfDay_valid day
  exact ⟨valid.monthLow, valid.monthHigh, valid.dayLow,
    Nat.le_trans valid.dayHigh (daysInMonth_le _ _)⟩

theorem dayOfMonth_mem_fullDom (day : Int) : (civilOfDay day).dayOfMonth ∈ fullDom := by
  have bounds := civil_bounds day
  rw [fullDom, mem_range]
  omega

theorem month_mem_fullMonths (day : Int) : (civilOfDay day).month ∈ fullMonths := by
  have bounds := civil_bounds day
  rw [fullMonths, mem_range]
  omega

theorem dateMatches_fullDow {dom month : List Nat} {day : Int} :
    DateMatches dom month fullDow day ↔
      (civilOfDay day).month ∈ month ∧ (civilOfDay day).dayOfMonth ∈ dom := by
  simp [DateMatches, weekday_mem_fullDow]

theorem dateMatches_fullDom {month dow : List Nat} {day : Int} :
    DateMatches fullDom month dow day ↔
      (civilOfDay day).month ∈ month ∧ weekday day ∈ dow := by
  simp [DateMatches, dayOfMonth_mem_fullDom]

theorem mod_eq_emod {value divisor : Int} (positive : 0 < divisor) :
    mod value divisor = value % divisor := by
  have low := Int.lt_tmod_of_pos value positive
  have shifted : Int.tmod value divisor + divisor = value + divisor * (1 - Int.tdiv value divisor) := by
    rw [Int.tmod_def, Int.mul_sub, Int.mul_one]
    omega
  rw [mod, Int.tmod_eq_emod_of_nonneg (by omega), shifted, Int.add_mul_emod_self_left]

section Weekday

theorem mem_shiftDayOfWeekSet {values : List Nat} {dayDelta : Int} {value : Nat} :
    value ∈ shiftDayOfWeekSet values dayDelta ↔
      ∃ earlier ∈ values, (((earlier : Int) + dayDelta) % 7).toNat = value := by
  simp [shiftDayOfWeekSet, mod_eq_emod]

theorem weekday_shift {values : List Nat} {dayDelta : Int} (bounded : ∀ value ∈ values, value ≤ 6)
    (day : Int) :
    weekday day ∈ shiftDayOfWeekSet values dayDelta ↔ weekday (day - dayDelta) ∈ values := by
  rw [mem_shiftDayOfWeekSet]
  constructor
  · rintro ⟨earlier, member, shifted⟩
    have bound := bounded earlier member
    have same : weekday (day - dayDelta) = earlier := by
      simp only [weekday] at shifted ⊢
      omega
    exact same ▸ member
  · intro member
    refine ⟨_, member, ?_⟩
    simp only [weekday]
    omega

theorem shiftDayOfWeekSet_wellFormed {values : List Nat} {dayDelta : Int} (filled : values ≠ []) :
    WellFormedValues 0 6 (shiftDayOfWeekSet values dayDelta) := by
  refine ⟨?_, uniqueSorted_sorted _, ?_⟩
  · obtain ⟨value, member⟩ := List.exists_mem_of_ne_nil _ filled
    exact List.ne_nil_of_mem (mem_shiftDayOfWeekSet.mpr ⟨value, member, rfl⟩)
  · intro value member
    obtain ⟨earlier, _, rfl⟩ := mem_shiftDayOfWeekSet.mp member
    omega

end Weekday

section Targets

variable {year dayDelta : Int} {months daysOfMonth : List Nat}

theorem isValidDate_iff {month dom : Nat} :
    isValidDate year month dom = true ↔ ValidMonthDay (isLeapYear year) month dom := by
  simp only [isValidDate, dateUtc, beq_iff_eq]
  constructor
  · intro same
    have valid := civilOfDay_valid (dayNumber year month dom)
    rwa [same] at valid
  · exact civilOfDay_dayNumber

theorem setUtcDate_eq (day delta : Int) :
    setUtcDate day ((civilOfDay day).dayOfMonth + delta) = day + delta := by
  have number := dayNumber_civilOfDay day
  simp only [setUtcDate, dayNumber] at number ⊢
  omega

theorem pairKey_injective {firstMonth firstDom secondMonth secondDom : Nat}
    (same : pairKey firstMonth firstDom = pairKey secondMonth secondDom) :
    firstMonth = secondMonth ∧ firstDom = secondDom := by
  have parts : ∀ month dom, (pairKey month dom).splitOn '/' =
      [stringOfNumber month, stringOfNumber dom] := by
    intro month dom
    rw [pairKey, List.splitOn_append_cons_self_of_not_mem (not_mem_stringOfNumber (by decide)),
      List.splitOn_eq_singleton (not_mem_stringOfNumber (by decide))]
  have lists := parts firstMonth firstDom
  rw [same, parts] at lists
  simp only [List.cons.injEq, and_true] at lists
  exact ⟨(stringOfNumber_injective lists.1).symm, (stringOfNumber_injective lists.2).symm⟩

theorem parsePairKey_pairKey (month dom : Nat) : parsePairKey (pairKey month dom) = .ok (month, dom) := by
  have parts : (pairKey month dom).splitOn '/' = [stringOfNumber month, stringOfNumber dom] := by
    rw [pairKey, List.splitOn_append_cons_self_of_not_mem (not_mem_stringOfNumber (by decide)),
      List.splitOn_eq_singleton (not_mem_stringOfNumber (by decide))]
  simp [parsePairKey, parts]

def dayKey (day : Int) : List Char := pairKey (monthDay day).1 (monthDay day).2

theorem dayKey_eq_iff {first second : Int} : dayKey first = dayKey second ↔ monthDay first = monthDay second := by
  constructor
  · intro same
    have parts := pairKey_injective same
    exact Prod.ext parts.1 parts.2
  · intro same
    rw [dayKey, dayKey, same]

theorem mem_domLoop {month : Nat} {doms : List Nat} {out : OrderedSet (List Char)}
    {pair : List Char} :
    pair ∈ doms.foldl (fun out dom =>
        if isValidDate year month dom then
          let date := dateUtc year month dom
          let target := civilOfDay (setUtcDate date ((civilOfDay date).dayOfMonth + dayDelta))
          out.add (pairKey target.month target.dayOfMonth)
        else out) out ↔
      pair ∈ out ∨ ∃ dom ∈ doms, ValidMonthDay (isLeapYear year) month dom ∧
        pair = dayKey (dayNumber year month dom + dayDelta) := by
  induction doms generalizing out with
  | nil => simp
  | cons dom doms ih =>
    rw [List.foldl_cons, ih]
    simp only [List.mem_cons, exists_eq_or_imp, setUtcDate_eq, ← isValidDate_iff]
    by_cases valid : isValidDate year month dom = true
    · simp only [valid, if_true, OrderedSet.mem_add, true_and]
      rw [or_comm (a := pair = _), or_assoc]
      rfl
    · simp [valid]

theorem mem_targetMonthDayPairsForYear {pair : List Char} :
    pair ∈ targetMonthDayPairsForYear year months daysOfMonth dayDelta ↔
      ∃ month ∈ months, ∃ dom ∈ daysOfMonth, ValidMonthDay (isLeapYear year) month dom ∧
        pair = dayKey (dayNumber year month dom + dayDelta) := by
  have general : ∀ (rest : List Nat) (out : OrderedSet (List Char)),
      pair ∈ rest.foldl (fun out month =>
        daysOfMonth.foldl (fun out dom =>
          if isValidDate year month dom then
            let date := dateUtc year month dom
            let target := civilOfDay (setUtcDate date ((civilOfDay date).dayOfMonth + dayDelta))
            out.add (pairKey target.month target.dayOfMonth)
          else out) out) out ↔
        pair ∈ out ∨ ∃ month ∈ rest, ∃ dom ∈ daysOfMonth, ValidMonthDay (isLeapYear year) month dom ∧
          pair = dayKey (dayNumber year month dom + dayDelta) := by
    intro rest
    induction rest with
    | nil => simp
    | cons month rest ih =>
      intro out
      rw [List.foldl_cons, ih, mem_domLoop, or_assoc]
      simp only [List.mem_cons, exists_eq_or_imp]
  rw [targetMonthDayPairsForYear, general]
  simp

theorem dayKey_mem_targets (year : Int) {day : Int}
    (small : dayDelta = -1 ∨ dayDelta = 0 ∨ dayDelta = 1)
    (leap : isLeapYear year = isLeapYear (civilOfDay day).year) :
    dayKey day ∈ targetMonthDayPairsForYear year months daysOfMonth dayDelta ↔
      (civilOfDay (day - dayDelta)).month ∈ months ∧
        (civilOfDay (day - dayDelta)).dayOfMonth ∈ daysOfMonth := by
  have back : -dayDelta = -1 ∨ -dayDelta = 0 ∨ -dayDelta = 1 := by omega
  rw [mem_targetMonthDayPairsForYear]
  constructor
  · rintro ⟨month, monthListed, dom, domListed, valid, same⟩
    rw [dayKey_eq_iff] at same
    have start := civilOfDay_dayNumber valid
    have shifted : monthDay (day + -dayDelta) =
        monthDay (dayNumber year month dom + dayDelta + -dayDelta) := by
      apply monthDay_add_congr _ _ back same
      rcases year_add (dayNumber year month dom) small with stays | ⟨_, boundary⟩
      · left
        rw [stays, start, leap]
      · right
        rwa [same]
    rw [Int.add_neg_cancel_right, monthDay_dayNumber valid, ← Int.sub_eq_add_neg] at shifted
    have monthSame : (civilOfDay (day - dayDelta)).month = month := congrArg Prod.fst shifted
    have domSame : (civilOfDay (day - dayDelta)).dayOfMonth = dom := congrArg Prod.snd shifted
    rw [monthSame, domSame]
    exact ⟨monthListed, domListed⟩
  · rintro ⟨monthListed, domListed⟩
    have valid := monthDay_near_valid day back
    rw [← leap, ← Int.sub_eq_add_neg] at valid
    refine ⟨_, monthListed, _, domListed, valid, ?_⟩
    rw [dayKey_eq_iff]
    have start := civilOfDay_dayNumber valid
    have shifted := monthDay_add_congr (day - dayDelta)
      (dayNumber year (monthDay (day - dayDelta)).1 (monthDay (day - dayDelta)).2) small
      (monthDay_dayNumber valid).symm (by
        rcases year_add day back with stays | ⟨_, boundary⟩
        · left
          rw [Int.sub_eq_add_neg, stays, ← leap, ← Int.sub_eq_add_neg, start]
        · right
          rwa [Int.sub_eq_add_neg])
    rw [Int.sub_add_cancel] at shifted
    exact shifted

theorem target_valid {pair : List Char} (small : dayDelta = -1 ∨ dayDelta = 0 ∨ dayDelta = 1)
    (member : pair ∈ targetMonthDayPairsForYear year months daysOfMonth dayDelta) :
    ∃ month dom, pair = pairKey month dom ∧ ValidMonthDay (isLeapYear year) month dom := by
  obtain ⟨month, _, dom, _, valid, same⟩ := mem_targetMonthDayPairsForYear.mp member
  have near := monthDay_near_valid (dayNumber year month dom) small
  rw [civilOfDay_dayNumber valid] at near
  exact ⟨_, _, same, near⟩

theorem strictUnion_exact (small : dayDelta = -1 ∨ dayDelta = 0 ∨ dayDelta = 1)
    (agree : ∀ month dom, ValidMonthDay false month dom →
      (pairKey month dom ∈ targetMonthDayPairsForYear 2021 months daysOfMonth dayDelta ↔
        pairKey month dom ∈ targetMonthDayPairsForYear 2020 months daysOfMonth dayDelta))
    (day : Int) :
    (dayKey day ∈ targetMonthDayPairsForYear 2021 months daysOfMonth dayDelta ∨
        dayKey day ∈ targetMonthDayPairsForYear 2020 months daysOfMonth dayDelta) ↔
      (civilOfDay (day - dayDelta)).month ∈ months ∧
        (civilOfDay (day - dayDelta)).dayOfMonth ∈ daysOfMonth := by
  have valid := civilOfDay_valid day
  cases leap : isLeapYear (civilOfDay day).year with
  | true =>
    rw [← dayKey_mem_targets 2020 small (by rw [leap]; decide)]
    constructor
    · rintro (common | inLeap)
      · -- A common year's target is valid in a common year, where both years agree.
        obtain ⟨month, dom, same, common_valid⟩ := target_valid small common
        rw [same] at common ⊢
        exact (agree month dom common_valid).mp common
      · exact inLeap
    · exact Or.inr
  | false =>
    rw [← dayKey_mem_targets 2021 small (by rw [leap]; decide)]
    rw [leap] at valid
    constructor
    · rintro (common | inLeap)
      · exact common
      · exact (agree _ _ valid).mpr inLeap
    · exact Or.inl

end Targets

section MonthDayPairs

variable {pairs : List (List Char)}

def ValidPairs (pairs : List (List Char)) : Prop :=
  ∀ pair ∈ pairs, ∃ month dom, pair = pairKey month dom ∧ ValidMonthDay true month dom

theorem daysByMonth_spec {daysByMonth : OrderedMap Nat (OrderedSet Nat)} (valid : ValidPairs pairs)
    (folded : pairs.foldlM (fun daysByMonth pair => do
      let (month, dom) ← parsePairKey pair
      return daysByMonth.upsert month OrderedSet.empty (·.add dom))
      (OrderedMap.empty : OrderedMap Nat (OrderedSet Nat)) = .ok daysByMonth) :
    AllFilled daysByMonth ∧
      ∀ month dom, HasTime daysByMonth month dom ↔ pairKey month dom ∈ pairs := by
  refine foldlM_invariant
    (fun processed (daysByMonth : OrderedMap Nat (OrderedSet Nat)) =>
      AllFilled daysByMonth ∧
        ∀ month dom, HasTime daysByMonth month dom ↔ pairKey month dom ∈ processed)
    folded ⟨allFilled_empty, by simp⟩ ?_
  intro processed pair before after member holds stepped
  obtain ⟨month, dom, rfl, _⟩ := valid pair member
  rw [parsePairKey_pairKey, ok_bind] at stepped
  simp only [pure_eq_ok, Except.ok.injEq] at stepped
  subst stepped
  refine ⟨allFilled_upsert holds.1 month dom, ?_⟩
  intro otherMonth otherDom
  rw [hasTime_upsert, holds.2, List.mem_append, List.mem_singleton]
  constructor
  · rintro (⟨rfl, rfl⟩ | earlier)
    · exact Or.inr rfl
    · exact Or.inl earlier
  · rintro (earlier | same)
    · exact Or.inr earlier
    · exact Or.inl (pairKey_injective same)

def monthEntries (daysByMonth : OrderedMap Nat (OrderedSet Nat)) : List (Nat × List Nat) :=
  daysByMonth.entries.map fun entry =>
    let dom := sortNumbers entry.2.elements
    (entry.1, if dom == allPossibleValidDaysForMonth entry.1 then fullDom else dom)

theorem monthEntries_distinct (daysByMonth : OrderedMap Nat (OrderedSet Nat)) :
    ((monthEntries daysByMonth).map Prod.fst).Nodup := by
  rw [monthEntries, List.map_map]
  exact daysByMonth.distinct

theorem mem_monthEntries {daysByMonth : OrderedMap Nat (OrderedSet Nat)} {month : Nat}
    {doms : List Nat} :
    (month, doms) ∈ monthEntries daysByMonth ↔
      ∃ set, daysByMonth.get? month = some set ∧
        doms = if sortNumbers set.elements = allPossibleValidDaysForMonth month then fullDom
          else sortNumbers set.elements := by
  simp only [monthEntries, List.mem_map, Prod.exists, Prod.mk.injEq, OrderedMap.get?_eq_some_iff,
    beq_iff_eq]
  constructor
  · rintro ⟨found, set, member, rfl, same⟩
    exact ⟨set, member, same.symm⟩
  · rintro ⟨set, member, same⟩
    exact ⟨month, set, member, rfl, same.symm⟩

theorem mem_allPossibleValidDays {month dom : Nat} (valid : ValidMonthDay true month dom) :
    dom ∈ allPossibleValidDaysForMonth month := by
  obtain ⟨monthLow, monthHigh, dayLow, dayHigh⟩ := valid
  simp only [daysInMonth, if_true] at dayHigh
  rw [allPossibleValidDaysForMonth]
  split
  · rename_i february
    rw [if_pos february] at dayHigh
    exact mem_range.mpr ⟨dayLow, dayHigh⟩
  · rename_i other
    rw [if_neg other] at dayHigh
    split
    · rename_i short
      simp only [List.mem_cons, List.not_mem_nil, or_false] at short
      rw [if_pos short] at dayHigh
      exact mem_range.mpr ⟨dayLow, dayHigh⟩
    · rename_i long
      simp only [List.mem_cons, List.not_mem_nil, or_false] at long
      rw [if_neg long] at dayHigh
      exact mem_range.mpr ⟨dayLow, dayHigh⟩

theorem validMonthDay_leap {leap : Bool} {month dom : Nat} (valid : ValidMonthDay leap month dom) :
    ValidMonthDay true month dom := by
  refine ⟨valid.monthLow, valid.monthHigh, valid.dayLow, Nat.le_trans valid.dayHigh ?_⟩
  cases leap
  · simp only [daysInMonth]
    split
    · decide
    · exact Nat.le_refl _
  · exact Nat.le_refl _

theorem mem_entryDays {daysByMonth : OrderedMap Nat (OrderedSet Nat)} {month dom : Nat}
    {doms : List Nat} (listed : (month, doms) ∈ monthEntries daysByMonth)
    (valid : ValidMonthDay true month dom) : dom ∈ doms ↔ HasTime daysByMonth month dom := by
  obtain ⟨set, found, rfl⟩ := mem_monthEntries.mp listed
  have inside : HasTime daysByMonth month dom ↔ dom ∈ set := by simp [HasTime, found]
  rw [inside]
  split
  · rename_i complete
    have possible := mem_allPossibleValidDays valid
    rw [← complete, mem_sortNumbers] at possible
    have high := Nat.le_trans valid.dayHigh (daysInMonth_le _ _)
    have listedDay : dom ∈ fullDom := mem_range.mpr ⟨valid.dayLow, high⟩
    exact ⟨fun _ => possible, fun _ => listedDay⟩
  · exact mem_sortNumbers

theorem entryDays_wellFormed {daysByMonth : OrderedMap Nat (OrderedSet Nat)} {month : Nat}
    {doms : List Nat} (filled : AllFilled daysByMonth)
    (valid : ∀ month dom, HasTime daysByMonth month dom → ValidMonthDay true month dom)
    (listed : (month, doms) ∈ monthEntries daysByMonth) :
    (1 ≤ month ∧ month ≤ 12) ∧ WellFormedValues 1 31 doms := by
  obtain ⟨set, found, rfl⟩ := mem_monthEntries.mp listed
  obtain ⟨dom, inside⟩ := List.exists_mem_of_ne_nil _ (filled month set found)
  have anyDay := valid month dom ⟨set, found, inside⟩
  refine ⟨⟨anyDay.monthLow, anyDay.monthHigh⟩, ?_⟩
  split
  · exact range_wellFormed (by decide)
  · refine ⟨List.ne_nil_of_mem (mem_sortNumbers.mpr inside), sortNumbers_sorted set.distinct, ?_⟩
    intro other member
    have validDay := valid month other ⟨set, found, mem_sortNumbers.mp member⟩
    exact ⟨validDay.dayLow, Nat.le_trans validDay.dayHigh (daysInMonth_le _ _)⟩

theorem groupMonthDayPairs_covers {specs : List DateSpec} (valid : ValidPairs pairs)
    (grouped : groupMonthDayPairs pairs = .ok specs) :
    CoversExactly specs fun day => dayKey day ∈ pairs := by
  simp only [groupMonthDayPairs, bind_eq_ok] at grouped
  obtain ⟨daysByMonth, folded, built⟩ := grouped
  simp only [pure_eq_ok, Except.ok.injEq] at built
  subst built
  obtain ⟨filled, times⟩ := daysByMonth_spec valid folded
  have validTime : ∀ month dom, HasTime daysByMonth month dom → ValidMonthDay true month dom := by
    intro month dom time
    obtain ⟨foundMonth, foundDom, same, validPair⟩ := valid _ ((times month dom).mp time)
    obtain ⟨rfl, rfl⟩ := pairKey_injective same
    exact validPair
  have mem_specs : ∀ spec : DateSpec, spec ∈ ((collectByValues (monthEntries daysByMonth)).values.map
      fun group => ({ dom := group.1, month := sortNumbers group.2, dow := fullDow } : DateSpec)
      ).insertionSort (fun a b => compareDateSpecs a b ≤ 0) ↔
        ∃ group ∈ (collectByValues (monthEntries daysByMonth)).values,
          spec = { dom := group.1, month := sortNumbers group.2, dow := fullDow } := by
    intro spec
    simp only [List.mem_insertionSort, List.mem_map, eq_comm]
  refine ⟨?_, ?_, ?_⟩
  · intro spec member
    obtain ⟨group, listed, rfl⟩ := (mem_specs spec).mp member
    obtain ⟨someMonths, members⟩ := mem_collectByValues.mp listed
    obtain ⟨aMonth, inGroup⟩ := List.exists_mem_of_ne_nil _ someMonths
    have anEntry := entryDays_wellFormed filled validTime (collected_members listed inGroup)
    refine ⟨anEntry.2, ⟨?_, ?_, ?_⟩, range_wellFormed (by decide)⟩
    · exact List.ne_nil_of_mem (mem_sortNumbers.mpr inGroup)
    · apply sortNumbers_sorted
      rw [members]
      exact membersOf_nodup (monthEntries_distinct daysByMonth) group.1
    · intro month inside
      rw [mem_sortNumbers] at inside
      exact (entryDays_wellFormed filled validTime (collected_members listed inside)).1
  · intro day
    have validDay := validMonthDay_leap (civilOfDay_valid day)
    rw [dayKey, ← times]
    constructor
    · rintro ⟨spec, member, matching⟩
      obtain ⟨group, listed, rfl⟩ := (mem_specs spec).mp member
      rw [dateMatches_fullDow, mem_sortNumbers] at matching
      exact (mem_entryDays (collected_members listed matching.1) validDay).mp matching.2
    · intro time
      obtain ⟨set, found, inside⟩ := time
      obtain ⟨group, listed, same, inGroup⟩ := collected_exists
        (mem_monthEntries.mpr ⟨set, found, rfl⟩)
      refine ⟨_, (mem_specs _).mpr ⟨group, listed, rfl⟩, ?_⟩
      rw [dateMatches_fullDow, mem_sortNumbers]
      exact ⟨inGroup, (mem_entryDays (collected_members listed inGroup) validDay).mpr
        ⟨set, found, inside⟩⟩
  · intro day first firstListed second secondListed firstMatches secondMatches
    obtain ⟨firstGroup, firstIn, rfl⟩ := (mem_specs first).mp firstListed
    obtain ⟨secondGroup, secondIn, rfl⟩ := (mem_specs second).mp secondListed
    rw [dateMatches_fullDow, mem_sortNumbers] at firstMatches secondMatches
    rw [collected_unique (monthEntries_distinct daysByMonth) firstIn secondIn firstMatches.1
      secondMatches.1]

theorem convertMonthDayPairs_covers {months doms : List Nat} {dayDelta : Int}
    {specs : List DateSpec} (small : dayDelta = -1 ∨ dayDelta = 0 ∨ dayDelta = 1)
    (converted : convertMonthDayPairs months doms dayDelta true = .ok specs) :
    CoversExactly specs fun day =>
      (civilOfDay (day - dayDelta)).month ∈ months ∧
        (civilOfDay (day - dayDelta)).dayOfMonth ∈ doms := by
  simp only [convertMonthDayPairs, if_true, bind_eq_ok] at converted
  obtain ⟨_, checked, grouped⟩ := converted
  rw [forM_eq_ok] at checked
  have inUnion : ∀ pair, pair ∈ (OrderedSet.ofList
      ((targetMonthDayPairsForYear 2021 months doms dayDelta).elements ++
        (targetMonthDayPairsForYear 2020 months doms dayDelta).elements)).elements ↔
      pair ∈ targetMonthDayPairsForYear 2021 months doms dayDelta ∨
        pair ∈ targetMonthDayPairsForYear 2020 months doms dayDelta := by
    intro pair
    rw [← OrderedSet.mem_def, OrderedSet.mem_ofList, List.mem_append]
    rfl
  have valid : ValidPairs (OrderedSet.ofList
      ((targetMonthDayPairsForYear 2021 months doms dayDelta).elements ++
        (targetMonthDayPairsForYear 2020 months doms dayDelta).elements)).elements := by
    intro pair member
    rcases (inUnion pair).mp member with common | inLeap
    · obtain ⟨month, dom, same, validDay⟩ := target_valid small common
      exact ⟨month, dom, same, validMonthDay_leap validDay⟩
    · obtain ⟨month, dom, same, validDay⟩ := target_valid small inLeap
      exact ⟨month, dom, same, validMonthDay_leap validDay⟩
  have covers := groupMonthDayPairs_covers valid grouped
  refine ⟨covers.formed, ?_, covers.unique⟩
  intro day
  rw [covers.exact, inUnion]
  apply strictUnion_exact small
  intro month dom validDay
  have known : isValidDate 2021 month dom = true := isValidDate_iff.mpr validDay
  by_contra differ
  have listed : pairKey month dom ∈ targetMonthDayPairsForYear 2021 months doms dayDelta ∨
      pairKey month dom ∈ targetMonthDayPairsForYear 2020 months doms dayDelta := by
    by_contra neither
    rw [not_or] at neither
    exact differ ⟨fun common => absurd common neither.1, fun inLeap => absurd inLeap neither.2⟩
  have passed := checked _ ((inUnion _).mpr listed)
  rw [parsePairKey_pairKey, ok_bind, if_pos ⟨known, by simpa using differ⟩] at passed
  simp [conversionError] at passed

end MonthDayPairs

theorem convertDateSpec_covers {cron : ParsedCron} {dayDelta : Int} {specs : List DateSpec}
    (dom : WellFormedValues 1 31 cron.dayOfMonth.values)
    (month : WellFormedValues 1 12 cron.month.values)
    (dow : WellFormedValues 0 6 cron.dayOfWeek.values)
    (domFull : cron.dayOfMonth.wildcard = (cron.dayOfMonth.values == fullDom))
    (monthFull : cron.month.wildcard = (cron.month.values == fullMonths))
    (dowFull : cron.dayOfWeek.wildcard = (cron.dayOfWeek.values == fullDow))
    (small : dayDelta = -1 ∨ dayDelta = 0 ∨ dayDelta = 1)
    (converted : convertDateSpec cron dayDelta true = .ok specs) :
    CoversExactly specs fun day =>
      DateMatches cron.dayOfMonth.values cron.month.values cron.dayOfWeek.values
        (day - dayDelta) := by
  have single : ∀ spec : DateSpec, WellFormedSpec spec → ∀ days : Int → Prop,
      (∀ day, DateMatches spec.dom spec.month spec.dow day ↔ days day) →
      CoversExactly [spec] days := by
    intro spec formed days same
    refine ⟨by simpa using formed, ?_, ?_⟩
    · intro day
      simpa using same day
    · intro day first firstListed second secondListed _ _
      rw [List.mem_singleton.mp firstListed, List.mem_singleton.mp secondListed]
  simp only [convertDateSpec] at converted
  split at converted
  · rename_i unshifted
    rw [Except.ok.injEq] at converted
    subst unshifted converted
    exact single _ ⟨dom, month, dow⟩ _ (by simp)
  · split at converted
    · simp [conversionError] at converted
    · rename_i notBoth
      split at converted
      · rename_i dowRestricted
        have wholeDom : cron.dayOfMonth.values = fullDom := by
          rw [dowRestricted, Bool.and_true, Bool.not_eq_true', Bool.not_eq_false] at notBoth
          rwa [notBoth, eq_comm, beq_iff_eq] at domFull
        split at converted
        · simp [conversionError] at converted
        · rename_i monthChecked
          have wholeMonth : cron.month.values = fullMonths := by
            rw [Bool.and_true, Bool.not_eq_true', Bool.not_eq_false] at monthChecked
            rwa [monthChecked, eq_comm, beq_iff_eq] at monthFull
          rw [Except.ok.injEq] at converted
          subst converted
          refine single _ ⟨range_wellFormed (by decide), range_wellFormed (by decide),
            shiftDayOfWeekSet_wellFormed dow.nonempty⟩ _ ?_
          intro day
          rw [wholeDom, wholeMonth, dateMatches_fullDom, dateMatches_fullDom,
            weekday_shift (fun value member => (dow.bounded value member).2)]
          simp [month_mem_fullMonths]
      · rename_i dowWild
        have wholeDow : cron.dayOfWeek.values = fullDow := by
          rw [Bool.not_eq_true', Bool.not_eq_false] at dowWild
          rwa [dowWild, eq_comm, beq_iff_eq] at dowFull
        have covers := convertMonthDayPairs_covers small converted
        refine ⟨covers.formed, ?_, covers.unique⟩
        intro day
        rw [covers.exact, wholeDow, dateMatches_fullDow]

end Metidos.Cron
