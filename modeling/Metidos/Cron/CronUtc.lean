import Metidos.Cron.CronDates

namespace Metidos.Cron

open JsText ExceptRules Gregorian

structure WellFormedCron (cron : ParsedCron) : Prop where
  minute : WellFormedValues 0 59 cron.minute.values
  hour : WellFormedValues 0 23 cron.hour.values
  dayOfMonth : WellFormedValues 1 31 cron.dayOfMonth.values
  month : WellFormedValues 1 12 cron.month.values
  dayOfWeek : WellFormedValues 0 6 cron.dayOfWeek.values
  domFull : cron.dayOfMonth.wildcard = (cron.dayOfMonth.values == fullDom)
  monthFull : cron.month.wildcard = (cron.month.values == fullMonths)
  dowFull : cron.dayOfWeek.wildcard = (cron.dayOfWeek.values == fullDow)

theorem parseCron_wellFormed {expression : List Char} {cron : ParsedCron}
    (parsed : parseCron expression = .ok cron) : WellFormedCron cron := by
  simp only [parseCron] at parsed
  split at parsed
  · simp only [bind_eq_ok] at parsed
    obtain ⟨minute, minuteParsed, hour, hourParsed, dom, domParsed, month, monthParsed, dow,
      dowParsed, built⟩ := parsed
    simp only [pure_eq_ok, Except.ok.injEq] at built
    subst built
    have minuteFacts := parseField_wellFormed minuteShape (by decide) minuteParsed
    have hourFacts := parseField_wellFormed hourShape (by decide) hourParsed
    have domFacts := parseField_wellFormed dayOfMonthShape (by decide) domParsed
    have monthFacts := parseField_wellFormed monthShape (by decide) monthParsed
    have dowFacts := parseField_wellFormed dayOfWeekShape (by decide) dowParsed
    exact ⟨minuteFacts.1, hourFacts.1, domFacts.1, monthFacts.1, dowFacts.1, domFacts.2,
      monthFacts.2, dowFacts.2⟩
  · simp [parseError] at parsed

theorem dayMatches_iff {cron : ParsedCron}
    (domFull : cron.dayOfMonth.wildcard = (cron.dayOfMonth.values == fullDom))
    (dowFull : cron.dayOfWeek.wildcard = (cron.dayOfWeek.values == fullDow)) (day : Int) :
    (civilOfDay day).month ∈ cron.month.values ∧ dayMatches cron day = true ↔
      DateMatches cron.dayOfMonth.values cron.month.values cron.dayOfWeek.values day := by
  simp only [dayMatches, DateMatches, domFull, dowFull]
  by_cases wholeDom : cron.dayOfMonth.values = fullDom
  · simp [wholeDom]
  · by_cases wholeDow : cron.dayOfWeek.values = fullDow
    · simp [wholeDow]
    · simp [wholeDom, wholeDow]

theorem cronMatchesUtcDate_iff {cron : ParsedCron}
    (domFull : cron.dayOfMonth.wildcard = (cron.dayOfMonth.values == fullDom))
    (dowFull : cron.dayOfWeek.wildcard = (cron.dayOfWeek.values == fullDow)) (instant : Int) :
    cronMatchesUtcDate cron instant = true ↔
      utcMinutes instant ∈ cron.minute.values ∧ utcHours instant ∈ cron.hour.values ∧
        DateMatches cron.dayOfMonth.values cron.month.values cron.dayOfWeek.values
          (utcDay instant) := by
  rw [← dayMatches_iff domFull dowFull]
  simp [cronMatchesUtcDate, and_assoc]

section Shift

variable {offsetMinutes : Int}

theorem shiftLocalTimeToUtc_instant (instant : Int) :
    shiftLocalTimeToUtc (utcHours (instant + offsetMinutes)) (utcMinutes (instant + offsetMinutes))
        offsetMinutes =
      { hour := utcHours instant, minute := utcMinutes instant,
        dayDelta := utcDay instant - utcDay (instant + offsetMinutes) } := by
  simp only [shiftLocalTimeToUtc, mod_eq_emod (show (0 : Int) < 1440 by decide), floorDiv, utcHours,
    utcMinutes, utcDay, ShiftedTime.mk.injEq]
  refine ⟨?_, ?_, ?_⟩
  · omega
  · omega
  · omega

theorem shiftLocalTimeToUtc_inverse {localHour localMinute : Nat} (hourBound : localHour ≤ 23)
    (minuteBound : localMinute ≤ 59) {instant : Int}
    (hour : utcHours instant = (shiftLocalTimeToUtc localHour localMinute offsetMinutes).hour)
    (minute : utcMinutes instant =
      (shiftLocalTimeToUtc localHour localMinute offsetMinutes).minute) :
    localHour = utcHours (instant + offsetMinutes) ∧
      localMinute = utcMinutes (instant + offsetMinutes) := by
  simp only [shiftLocalTimeToUtc, mod_eq_emod (show (0 : Int) < 1440 by decide), utcHours,
    utcMinutes] at hour minute ⊢
  constructor
  · omega
  · omega

theorem dayDelta_small (low : -1440 < offsetMinutes) (high : offsetMinutes < 1440)
    {localHour localMinute : Nat} (hourBound : localHour ≤ 23) (minuteBound : localMinute ≤ 59) :
    (shiftLocalTimeToUtc localHour localMinute offsetMinutes).dayDelta = -1 ∨
      (shiftLocalTimeToUtc localHour localMinute offsetMinutes).dayDelta = 0 ∨
      (shiftLocalTimeToUtc localHour localMinute offsetMinutes).dayDelta = 1 := by
  simp only [shiftLocalTimeToUtc, floorDiv]
  omega

theorem shiftLocalTimeToUtc_bounds (localHour localMinute : Nat) :
    (shiftLocalTimeToUtc localHour localMinute offsetMinutes).hour ≤ 23 ∧
      (shiftLocalTimeToUtc localHour localMinute offsetMinutes).minute ≤ 59 := by
  simp only [shiftLocalTimeToUtc, mod_eq_emod (show (0 : Int) < 1440 by decide)]
  omega

end Shift

section Output

theorem mem_bucketSchedules {output : OrderedSet (List Char)} {bucket : Bucket}
    {schedule : List Char} :
    schedule ∈ bucketSchedules output bucket ↔
      schedule ∈ output ∨ ∃ timeSpec ∈ compactTimePairs bucket.pairs,
        schedule = formatFields timeSpec.minutes timeSpec.hours bucket.spec.dom bucket.spec.month
          bucket.spec.dow := by
  rw [bucketSchedules]
  generalize compactTimePairs bucket.pairs = timeSpecs
  induction timeSpecs generalizing output with
  | nil => simp
  | cons timeSpec timeSpecs ih =>
    rw [List.foldl_cons, ih, OrderedSet.mem_add]
    simp only [List.mem_cons, exists_eq_or_imp]
    rw [or_comm (a := schedule = _), or_assoc]

theorem mem_outputSchedules {buckets : List Bucket} {schedule : List Char} :
    schedule ∈ buckets.foldl bucketSchedules OrderedSet.empty ↔
      ∃ bucket ∈ buckets, ∃ timeSpec ∈ compactTimePairs bucket.pairs,
        schedule = formatFields timeSpec.minutes timeSpec.hours bucket.spec.dom bucket.spec.month
          bucket.spec.dow := by
  have general : ∀ (rest : List Bucket) (output : OrderedSet (List Char)),
      schedule ∈ rest.foldl bucketSchedules output ↔
        schedule ∈ output ∨ ∃ bucket ∈ rest, ∃ timeSpec ∈ compactTimePairs bucket.pairs,
          schedule = formatFields timeSpec.minutes timeSpec.hours bucket.spec.dom
            bucket.spec.month bucket.spec.dow := by
    intro rest
    induction rest with
    | nil => simp
    | cons bucket rest ih =>
      intro output
      rw [List.foldl_cons, ih, mem_bucketSchedules, or_assoc]
      simp only [List.mem_cons, exists_eq_or_imp]
  rw [general]
  simp

def scheduleMatches (schedule : List Char) (instant : Int) : Bool :=
  match parseCron schedule with
  | .ok cron => cronMatchesUtcDate cron instant
  | .error _ => false

theorem scheduleMatches_formatFields {minutes hours : List Nat} {spec : DateSpec}
    (minutesFormed : WellFormedValues 0 59 minutes) (hoursFormed : WellFormedValues 0 23 hours)
    (formed : WellFormedSpec spec) (instant : Int) :
    scheduleMatches (formatFields minutes hours spec.dom spec.month spec.dow) instant = true ↔
      utcMinutes instant ∈ minutes ∧ utcHours instant ∈ hours ∧
        DateMatches spec.dom spec.month spec.dow (utcDay instant) := by
  rw [scheduleMatches, parseCron_formatFields minutesFormed hoursFormed formed.dom formed.month
    formed.dow]
  exact cronMatchesUtcDate_iff rfl rfl instant

theorem countP_eq_one {α : Type} [DecidableEq α] {items : List α} {test : α → Bool} (distinct : items.Nodup)
    {item : α} (member : item ∈ items) (passes : test item = true)
    (unique : ∀ other ∈ items, test other = true → other = item) : items.countP test = 1 := by
  have same : (items.filter test).Perm [item] := by
    rw [List.perm_ext_iff_of_nodup (distinct.filter _) (List.nodup_singleton item)]
    intro other
    rw [List.mem_filter, List.mem_singleton]
    constructor
    · exact fun facts => unique other facts.1 facts.2
    · rintro rfl
      exact ⟨member, passes⟩
  rw [List.countP_eq_length_filter, same.length_eq]
  rfl

end Output

section Conversion

variable {cron : ParsedCron} {offsetMinutes : Int} {buckets : Buckets}

structure ConvertedBuckets (cron : ParsedCron) (offsetMinutes : Int) (buckets : Buckets) : Prop where
  converts : ∀ localHour ∈ cron.hour.values, ∀ localMinute ∈ cron.minute.values,
    Converts cron offsetMinutes true localHour localMinute
  hold : BucketsHold buckets fun spec hour minute =>
    ∃ localHour ∈ cron.hour.values, ∃ localMinute ∈ cron.minute.values,
      ShiftsTo cron offsetMinutes true localHour localMinute spec hour minute

theorem bucket_filed (holds : ConvertedBuckets cron offsetMinutes buckets) {bucket : Bucket}
    (member : bucket ∈ buckets.values) (hour minute : Nat) :
    HasTime bucket.pairs hour minute ↔ Filed buckets bucket.spec hour minute := by
  obtain ⟨key, found⟩ := (OrderedMap.mem_values_iff _ _).mp member
  have same := holds.hold.keyed key bucket found
  subst same
  simp [Filed, found]

theorem filed_bucket (holds : ConvertedBuckets cron offsetMinutes buckets) {spec : DateSpec}
    {hour minute : Nat} (filed : Filed buckets spec hour minute) :
    ∃ bucket ∈ buckets.values, bucket.spec = spec ∧ HasTime bucket.pairs hour minute := by
  obtain ⟨bucket, found, time⟩ := filed
  have same := holds.hold.keyed _ bucket found
  exact ⟨bucket, (OrderedMap.mem_values_iff _ _).mpr ⟨_, found⟩, (dateSpecKey_injective same).symm, time⟩

theorem bucket_unique (holds : ConvertedBuckets cron offsetMinutes buckets) {first second : Bucket}
    (inFirst : first ∈ buckets.values) (inSecond : second ∈ buckets.values)
    (same : first.spec = second.spec) : first = second := by
  obtain ⟨firstKey, firstFound⟩ := (OrderedMap.mem_values_iff _ _).mp inFirst
  obtain ⟨secondKey, secondFound⟩ := (OrderedMap.mem_values_iff _ _).mp inSecond
  have keys : firstKey = secondKey := by
    rw [holds.hold.keyed _ _ firstFound, holds.hold.keyed _ _ secondFound, same]
  rw [keys, secondFound, Option.some.injEq] at firstFound
  exact firstFound.symm

def instantDelta (offsetMinutes instant : Int) : Int :=
  utcDay instant - utcDay (instant + offsetMinutes)

theorem hasTime_instant (formed : WellFormedCron cron)
    (holds : ConvertedBuckets cron offsetMinutes buckets) {bucket : Bucket}
    (member : bucket ∈ buckets.values) {instant : Int}
    (time : HasTime bucket.pairs (utcHours instant) (utcMinutes instant)) :
    utcHours (instant + offsetMinutes) ∈ cron.hour.values ∧
      utcMinutes (instant + offsetMinutes) ∈ cron.minute.values ∧
      ∃ specs, convertDateSpec cron (instantDelta offsetMinutes instant) true = .ok specs ∧
        bucket.spec ∈ specs := by
  rw [bucket_filed holds member, holds.hold.exact] at time
  obtain ⟨localHour, hourListed, localMinute, minuteListed, specs, converted, inSpecs, hour,
    minute⟩ := time
  obtain ⟨rfl, rfl⟩ := shiftLocalTimeToUtc_inverse (formed.hour.bounded _ hourListed).2
    (formed.minute.bounded _ minuteListed).2 hour minute
  rw [shiftLocalTimeToUtc_instant] at converted
  exact ⟨hourListed, minuteListed, specs, converted, inSpecs⟩

variable (low : -1440 < offsetMinutes) (high : offsetMinutes < 1440)
include low high

theorem converted_covers (formed : WellFormedCron cron) {localHour localMinute : Nat}
    (hourListed : localHour ∈ cron.hour.values) (minuteListed : localMinute ∈ cron.minute.values)
    (specs : List DateSpec)
    (converted : convertDateSpec cron
      (shiftLocalTimeToUtc localHour localMinute offsetMinutes).dayDelta true = .ok specs) :
    CoversExactly specs fun day =>
      DateMatches cron.dayOfMonth.values cron.month.values cron.dayOfWeek.values
        (day - (shiftLocalTimeToUtc localHour localMinute offsetMinutes).dayDelta) :=
  convertDateSpec_covers formed.dayOfMonth formed.month formed.dayOfWeek formed.domFull
    formed.monthFull formed.dowFull
    (dayDelta_small low high (formed.hour.bounded _ hourListed).2
      (formed.minute.bounded _ minuteListed).2) converted

theorem instant_covers (formed : WellFormedCron cron) {instant : Int}
    (hourListed : utcHours (instant + offsetMinutes) ∈ cron.hour.values)
    (minuteListed : utcMinutes (instant + offsetMinutes) ∈ cron.minute.values)
    (specs : List DateSpec)
    (converted : convertDateSpec cron (instantDelta offsetMinutes instant) true = .ok specs) :
    CoversExactly specs fun day =>
      DateMatches cron.dayOfMonth.values cron.month.values cron.dayOfWeek.values
        (day - instantDelta offsetMinutes instant) := by
  have covers := converted_covers low high formed hourListed minuteListed specs
  rw [shiftLocalTimeToUtc_instant] at covers
  exact covers converted

theorem bucketSchedule_wellFormed (formed : WellFormedCron cron)
    (holds : ConvertedBuckets cron offsetMinutes buckets) {bucket : Bucket}
    (member : bucket ∈ buckets.values) {timeSpec : TimeSpec}
    (listed : timeSpec ∈ compactTimePairs bucket.pairs) :
    WellFormedValues 0 59 timeSpec.minutes ∧ WellFormedValues 0 23 timeSpec.hours ∧
      WellFormedSpec bucket.spec := by
  obtain ⟨key, found⟩ := (OrderedMap.mem_values_iff _ _).mp member
  have filled := holds.hold.filled key bucket found
  have bounded : ∀ hour minute, HasTime bucket.pairs hour minute → hour ≤ 23 ∧ minute ≤ 59 := by
    intro hour minute time
    rw [bucket_filed holds member, holds.hold.exact] at time
    obtain ⟨localHour, _, localMinute, _, _, _, _, rfl, rfl⟩ := time
    exact shiftLocalTimeToUtc_bounds localHour localMinute
  have times := compactTimePairs_wellFormed filled bounded listed
  refine ⟨times.2, times.1, ?_⟩
  obtain ⟨hour, inHours⟩ := List.exists_mem_of_ne_nil _ times.1.nonempty
  obtain ⟨minute, inMinutes⟩ := List.exists_mem_of_ne_nil _ times.2.nonempty
  have time := (compactTimePairs_exact hour minute).mp ⟨timeSpec, listed, inHours, inMinutes⟩
  rw [bucket_filed holds member, holds.hold.exact] at time
  obtain ⟨localHour, hourListed, localMinute, minuteListed, specs, converted, inSpecs, _⟩ := time
  exact (converted_covers low high formed hourListed minuteListed _ converted).formed _ inSpecs

theorem bucketSchedule_sound (formed : WellFormedCron cron)
    (holds : ConvertedBuckets cron offsetMinutes buckets) {bucket : Bucket}
    (member : bucket ∈ buckets.values) {timeSpec : TimeSpec}
    (listed : timeSpec ∈ compactTimePairs bucket.pairs) {instant : Int}
    (hour : utcHours instant ∈ timeSpec.hours) (minute : utcMinutes instant ∈ timeSpec.minutes)
    (date : DateMatches bucket.spec.dom bucket.spec.month bucket.spec.dow (utcDay instant)) :
    cronMatchesUtcDate cron (instant + offsetMinutes) = true := by
  have time := (compactTimePairs_exact _ _).mp ⟨timeSpec, listed, hour, minute⟩
  obtain ⟨hourListed, minuteListed, specs, converted, inSpecs⟩ :=
    hasTime_instant formed holds member time
  have covers := instant_covers low high formed hourListed minuteListed specs converted
  have local_ := (covers.exact (utcDay instant)).mp ⟨bucket.spec, inSpecs, date⟩
  rw [instantDelta, Int.sub_sub_self] at local_
  exact (cronMatchesUtcDate_iff formed.domFull formed.dowFull _).mpr
    ⟨minuteListed, hourListed, local_⟩

theorem bucketSchedule_complete (formed : WellFormedCron cron)
    (holds : ConvertedBuckets cron offsetMinutes buckets) {instant : Int}
    (matching : cronMatchesUtcDate cron (instant + offsetMinutes) = true) :
    ∃ bucket ∈ buckets.values, ∃ timeSpec ∈ compactTimePairs bucket.pairs,
      utcMinutes instant ∈ timeSpec.minutes ∧ utcHours instant ∈ timeSpec.hours ∧
        DateMatches bucket.spec.dom bucket.spec.month bucket.spec.dow (utcDay instant) := by
  obtain ⟨minuteListed, hourListed, date⟩ :=
    (cronMatchesUtcDate_iff formed.domFull formed.dowFull _).mp matching
  obtain ⟨specs, converted⟩ := holds.converts _ hourListed _ minuteListed
  have shifted := converted
  rw [shiftLocalTimeToUtc_instant] at shifted
  have covers := instant_covers low high formed hourListed minuteListed specs shifted
  obtain ⟨spec, inSpecs, matchesDay⟩ := (covers.exact (utcDay instant)).mpr (by
    rwa [instantDelta, Int.sub_sub_self])
  have filed : Filed buckets spec (utcHours instant) (utcMinutes instant) := by
    rw [holds.hold.exact]
    refine ⟨_, hourListed, _, minuteListed, specs, converted, inSpecs, ?_⟩
    rw [shiftLocalTimeToUtc_instant]
    exact ⟨rfl, rfl⟩
  obtain ⟨bucket, member, rfl, time⟩ := filed_bucket holds filed
  obtain ⟨timeSpec, listed, hour, minute⟩ := (compactTimePairs_exact _ _).mpr time
  exact ⟨bucket, member, timeSpec, listed, minute, hour, matchesDay⟩

theorem bucketSchedule_unique (formed : WellFormedCron cron)
    (holds : ConvertedBuckets cron offsetMinutes buckets) {instant : Int}
    {first second : Bucket} (inFirst : first ∈ buckets.values) (inSecond : second ∈ buckets.values)
    {firstTime secondTime : TimeSpec} (firstListed : firstTime ∈ compactTimePairs first.pairs)
    (secondListed : secondTime ∈ compactTimePairs second.pairs)
    (firstMinute : utcMinutes instant ∈ firstTime.minutes)
    (secondMinute : utcMinutes instant ∈ secondTime.minutes)
    (firstHour : utcHours instant ∈ firstTime.hours)
    (secondHour : utcHours instant ∈ secondTime.hours)
    (firstDate : DateMatches first.spec.dom first.spec.month first.spec.dow (utcDay instant))
    (secondDate : DateMatches second.spec.dom second.spec.month second.spec.dow (utcDay instant)) :
    first = second ∧ firstTime = secondTime := by
  have firstHas := (compactTimePairs_exact _ _).mp ⟨firstTime, firstListed, firstHour, firstMinute⟩
  have secondHas :=
    (compactTimePairs_exact _ _).mp ⟨secondTime, secondListed, secondHour, secondMinute⟩
  obtain ⟨hourListed, minuteListed, specs, converted, firstSpec⟩ :=
    hasTime_instant formed holds inFirst firstHas
  obtain ⟨_, _, others, otherConverted, secondSpec⟩ :=
    hasTime_instant formed holds inSecond secondHas
  rw [converted, Except.ok.injEq] at otherConverted
  subst otherConverted
  have covers := instant_covers low high formed hourListed minuteListed specs converted
  have same := bucket_unique holds inFirst inSecond
    (covers.unique _ _ firstSpec _ secondSpec firstDate secondDate)
  subst same
  exact ⟨rfl, compactTimePairs_unique firstListed secondListed firstHour secondHour⟩

end Conversion

theorem cronToUtc_eq_ok {localeCompare : List Char → List Char → Int} {expression : List Char}
    {offsetMinutes : Int} {strict : Option Bool} {cron : ParsedCron} {schedules : List (List Char)}
    (strictMode : strict ≠ some false) (parsed : parseCron expression = .ok cron)
    (converted : cronToUtc localeCompare expression offsetMinutes strict = .ok schedules) :
    -1440 < offsetMinutes ∧ offsetMinutes < 1440 ∧ ∃ buckets : Buckets,
      ConvertedBuckets cron offsetMinutes buckets ∧
        schedules.Perm (buckets.values.foldl bucketSchedules OrderedSet.empty).elements := by
  have mode : strict.getD true = true := by
    cases strict with
    | none => rfl
    | some flag => simpa using strictMode
  simp only [cronToUtc] at converted
  split at converted
  · simp [conversionError] at converted
  · rename_i inside
    rw [parsed, ok_bind, mode, bind_eq_ok] at converted
    obtain ⟨buckets, folded, printed⟩ := converted
    simp only [pure_eq_ok, Except.ok.injEq] at printed
    subst printed
    have loops := hourLoop_hold folded
    exact ⟨by omega, by omega, buckets, ⟨loops.1, loops.2⟩, List.perm_insertionSort _ _⟩

/-- Strict conversion preserves the meaning of a schedule: at every UTC minute the local
expression matches the shifted instant exactly when one of the UTC schedules matches it, and
then only one does. -/
theorem cronToUtc_preserves_matching (localeCompare : List Char → List Char → Int)
    (expression : List Char) (offsetMinutes : Int) (strict : Option Bool) (cron : ParsedCron)
    (schedules : List (List Char)) (strictMode : strict ≠ some false)
    (parsed : parseCron expression = .ok cron)
    (converted : cronToUtc localeCompare expression offsetMinutes strict = .ok schedules) :
    (∀ schedule ∈ schedules, ∃ utc, parseCron schedule = .ok utc) ∧
      ∀ instant : Int, cronMatchesUtcDate cron (instant + offsetMinutes) = true ↔
        schedules.countP (fun schedule => scheduleMatches schedule instant) = 1 := by
  obtain ⟨low, high, buckets, holds, same⟩ := cronToUtc_eq_ok strictMode parsed converted
  have formed := parseCron_wellFormed parsed
  have listed : ∀ schedule, schedule ∈ schedules ↔
      ∃ bucket ∈ buckets.values, ∃ timeSpec ∈ compactTimePairs bucket.pairs,
        schedule = formatFields timeSpec.minutes timeSpec.hours bucket.spec.dom bucket.spec.month
          bucket.spec.dow := by
    intro schedule
    rw [same.mem_iff]
    exact mem_outputSchedules
  constructor
  · intro schedule member
    obtain ⟨bucket, inBuckets, timeSpec, inTimes, rfl⟩ := (listed schedule).mp member
    have facts := bucketSchedule_wellFormed low high formed holds inBuckets inTimes
    exact ⟨_, parseCron_formatFields facts.1 facts.2.1 facts.2.2.dom facts.2.2.month facts.2.2.dow⟩
  · intro instant
    constructor
    · intro matching
      obtain ⟨bucket, inBuckets, timeSpec, inTimes, minute, hour, date⟩ :=
        bucketSchedule_complete low high formed holds matching
      have facts := bucketSchedule_wellFormed low high formed holds inBuckets inTimes
      refine countP_eq_one (same.nodup_iff.mpr (OrderedSet.distinct _))
        ((listed _).mpr ⟨bucket, inBuckets, timeSpec, inTimes, rfl⟩)
        ((scheduleMatches_formatFields facts.1 facts.2.1 facts.2.2 instant).mpr
          ⟨minute, hour, date⟩) ?_
      intro other member passes
      obtain ⟨otherBucket, inOther, otherTime, otherListed, rfl⟩ := (listed other).mp member
      have otherFacts := bucketSchedule_wellFormed low high formed holds inOther otherListed
      obtain ⟨otherMinute, otherHour, otherDate⟩ :=
        (scheduleMatches_formatFields otherFacts.1 otherFacts.2.1 otherFacts.2.2 instant).mp passes
      obtain ⟨rfl, rfl⟩ := bucketSchedule_unique low high formed holds inOther inBuckets otherListed
        inTimes otherMinute minute otherHour hour otherDate date
      rfl
    · intro counted
      obtain ⟨schedule, member, passes⟩ := List.countP_pos_iff.mp
        (show 0 < schedules.countP (fun schedule => scheduleMatches schedule instant) by omega)
      obtain ⟨bucket, inBuckets, timeSpec, inTimes, rfl⟩ := (listed schedule).mp member
      have facts := bucketSchedule_wellFormed low high formed holds inBuckets inTimes
      obtain ⟨minute, hour, date⟩ :=
        (scheduleMatches_formatFields facts.1 facts.2.1 facts.2.2 instant).mp passes
      exact bucketSchedule_sound low high formed holds inBuckets inTimes hour minute date

theorem cronToUtc_preserves_matching_newYear :
    (∀ schedule ∈ ["0 1 1 1 *".toList, "0 3 31 12 *".toList],
        ∃ utc, parseCron schedule = .ok utc) ∧
      ∀ instant : Int,
        cronMatchesUtcDate (formattedCron [0] [1, 23] [31] [12] fullDow) (instant + -120) = true ↔
          ["0 1 1 1 *".toList, "0 3 31 12 *".toList].countP
            (fun schedule => scheduleMatches schedule instant) = 1 :=
  cronToUtc_preserves_matching (fun _ _ => 0) "0 1,23 31 12 *".toList (-120) none
    (formattedCron [0] [1, 23] [31] [12] fullDow) _ (by decide) (by decide +kernel)
    (by decide +kernel)

end Metidos.Cron

/-!
`formatCron` prints one text for each schedule: it is parsed back to the same values, and equal
texts are printed for equal value sets only.
-/

namespace Metidos.Cron

open ExceptRules

structure SameSets (one other : ParsedCron) : Prop where
  minute : ∀ value, value ∈ one.minute.values ↔ value ∈ other.minute.values
  hour : ∀ value, value ∈ one.hour.values ↔ value ∈ other.hour.values
  dayOfMonth : ∀ value, value ∈ one.dayOfMonth.values ↔ value ∈ other.dayOfMonth.values
  month : ∀ value, value ∈ one.month.values ↔ value ∈ other.month.values
  dayOfWeek : ∀ value, value ∈ one.dayOfWeek.values ↔ value ∈ other.dayOfWeek.values

variable {expression other : List Char} {cron otherCron : ParsedCron}

theorem parseCron_formatCron (formed : WellFormedCron cron) :
    parseCron (formatCron cron) =
      .ok (formattedCron cron.minute.values cron.hour.values cron.dayOfMonth.values
        cron.month.values cron.dayOfWeek.values) :=
  parseCron_formatFields formed.minute formed.hour formed.dayOfMonth formed.month formed.dayOfWeek

theorem SameSets.format (same : SameSets cron otherCron) (formed : WellFormedCron cron)
    (otherFormed : WellFormedCron otherCron) : formatCron cron = formatCron otherCron := by
  rw [formatCron, formatCron,
    sorted_ext formed.minute.sorted otherFormed.minute.sorted same.minute,
    sorted_ext formed.hour.sorted otherFormed.hour.sorted same.hour,
    sorted_ext formed.dayOfMonth.sorted otherFormed.dayOfMonth.sorted same.dayOfMonth,
    sorted_ext formed.month.sorted otherFormed.month.sorted same.month,
    sorted_ext formed.dayOfWeek.sorted otherFormed.dayOfWeek.sorted same.dayOfWeek]

theorem sameSets_of_format (formed : WellFormedCron cron) (otherFormed : WellFormedCron otherCron)
    (sameText : formatCron cron = formatCron otherCron) : SameSets cron otherCron := by
  have read := parseCron_formatCron formed
  rw [sameText, parseCron_formatCron otherFormed, Except.ok.injEq] at read
  have minute : otherCron.minute.values = cron.minute.values :=
    congrArg (fun found => found.minute.values) read
  have hour : otherCron.hour.values = cron.hour.values :=
    congrArg (fun found => found.hour.values) read
  have dayOfMonth : otherCron.dayOfMonth.values = cron.dayOfMonth.values :=
    congrArg (fun found => found.dayOfMonth.values) read
  have month : otherCron.month.values = cron.month.values :=
    congrArg (fun found => found.month.values) read
  have dayOfWeek : otherCron.dayOfWeek.values = cron.dayOfWeek.values :=
    congrArg (fun found => found.dayOfWeek.values) read
  constructor
  · simp [minute]
  · simp [hour]
  · simp [dayOfMonth]
  · simp [month]
  · simp [dayOfWeek]

theorem normalizeCron_ok (parsed : parseCron expression = .ok cron) :
    normalizeCron expression = .ok (formatCron cron) := by
  rw [normalizeCron, parsed]
  rfl

/-- The formatted text of an accepted expression is parsed back to the same sets and normalised to
itself, and two accepted expressions have one normal form if and only if their sets are equal. -/
theorem format_canonical (parsed : parseCron expression = .ok cron)
    (otherParsed : parseCron other = .ok otherCron) :
    (∃ again, parseCron (formatCron cron) = .ok again ∧ SameSets again cron) ∧
    (normalizeCron expression).bind normalizeCron = normalizeCron expression ∧
    (normalizeCron expression = normalizeCron other ↔ SameSets cron otherCron) := by
  have formed := parseCron_wellFormed parsed
  have otherFormed := parseCron_wellFormed otherParsed
  have again := parseCron_formatCron formed
  refine ⟨⟨_, again, ?_⟩, ?_, ?_⟩
  · exact ⟨fun _ => Iff.rfl, fun _ => Iff.rfl, fun _ => Iff.rfl, fun _ => Iff.rfl, fun _ => Iff.rfl⟩
  · rw [normalizeCron_ok parsed]
    have normal := normalizeCron_ok again
    exact normal
  · rw [normalizeCron_ok parsed, normalizeCron_ok otherParsed, Except.ok.injEq]
    exact ⟨sameSets_of_format formed otherFormed, fun same => same.format formed otherFormed⟩

theorem format_canonical_weekend : ∃ cron otherCron,
    parseCron "0 9 * * SAT,SUN".toList = .ok cron ∧ parseCron "0 9 * * 6-7".toList = .ok otherCron ∧
      (normalizeCron "0 9 * * SAT,SUN".toList = normalizeCron "0 9 * * 6-7".toList ↔
        SameSets cron otherCron) := by
  have accepted : ((parseCron "0 9 * * SAT,SUN".toList).isOk &&
      (parseCron "0 9 * * 6-7".toList).isOk) = true := by decide +kernel
  cases parsed : parseCron "0 9 * * SAT,SUN".toList with
  | error error =>
    rw [parsed] at accepted
    cases accepted
  | ok cron =>
    cases otherParsed : parseCron "0 9 * * 6-7".toList with
    | error error =>
      rw [parsed, otherParsed] at accepted
      cases accepted
    | ok otherCron => exact ⟨cron, otherCron, rfl, rfl, (format_canonical parsed otherParsed).2.2⟩

end Metidos.Cron
