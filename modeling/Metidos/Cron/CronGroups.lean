import Mathlib.Data.List.Induction
import Metidos.Cron.CronFormat

/-!
The two groupings of the conversion: members that share a list of values, and shifted times
that share a date specification.
-/

namespace Metidos.Cron

open JsText ExceptRules

theorem not_mem_joinNumbers {values : List Nat} {char : Char} (notDigit : char.isDigit = false)
    (notComma : char ≠ ',') : char ∉ joinNumbers values := by
  intro member
  rcases mem_intercalate member with separator | ⟨word, listed, inside⟩
  · exact notComma (List.mem_singleton.mp separator)
  · obtain ⟨value, _, rfl⟩ := List.mem_map.mp listed
    exact not_mem_stringOfNumber notDigit inside

theorem joinNumbers_injective {first second : List Nat}
    (same : joinNumbers first = joinNumbers second) : first = second := by
  have items : ∀ values : List Nat, values ≠ [] →
      (joinNumbers values).splitOn ',' = values.map stringOfNumber := by
    intro values nonempty
    apply List.splitOn_intercalate
    · intro word member
      obtain ⟨value, _, rfl⟩ := List.mem_map.mp member
      exact not_mem_stringOfNumber (by decide)
    · simpa using nonempty
  have filled : ∀ values : List Nat, values ≠ [] → joinNumbers values ≠ [] := by
    intro values nonempty
    obtain ⟨value, rest, rfl⟩ := List.exists_cons_of_ne_nil nonempty
    exact intercalate_ne_nil _ (stringOfNumber_ne_nil value)
  by_cases firstEmpty : first = []
  · by_cases secondEmpty : second = []
    · rw [firstEmpty, secondEmpty]
    · exact absurd (by rw [← same, firstEmpty]; rfl) (filled second secondEmpty)
  · by_cases secondEmpty : second = []
    · exact absurd (by rw [same, secondEmpty]; rfl) (filled first firstEmpty)
    · have texts := items first firstEmpty
      rw [same, items second secondEmpty] at texts
      exact (stringOfNumber_injective.list_map texts).symm

theorem dateSpecKey_injective {first second : DateSpec}
    (same : dateSpecKey first = dateSpecKey second) : first = second := by
  have parts : ∀ spec : DateSpec, (dateSpecKey spec).splitOn '|' =
      [joinNumbers spec.dom, joinNumbers spec.month, joinNumbers spec.dow] := by
    intro spec
    have solid : ∀ values, '|' ∉ joinNumbers values :=
      fun values => not_mem_joinNumbers (by decide) (by decide)
    rw [dateSpecKey, List.append_assoc, List.cons_append,
      List.splitOn_append_cons_self_of_not_mem (solid _),
      List.splitOn_append_cons_self_of_not_mem (solid _), List.splitOn_eq_singleton (solid _)]
  have lists := parts first
  rw [same, parts second] at lists
  simp only [List.cons.injEq, and_true] at lists
  obtain ⟨dom, month, dow⟩ := lists
  cases first
  cases second
  simp only [DateSpec.mk.injEq]
  exact ⟨(joinNumbers_injective dom).symm, (joinNumbers_injective month).symm,
    (joinNumbers_injective dow).symm⟩

section Collect

variable {entries : List (Nat × List Nat)}

def membersOf (entries : List (Nat × List Nat)) (values : List Nat) : List Nat :=
  (entries.filter fun entry => entry.2 = values).map Prod.fst

@[simp] theorem mem_membersOf {values : List Nat} {member : Nat} :
    member ∈ membersOf entries values ↔ (member, values) ∈ entries := by
  simp [membersOf]

theorem membersOf_append (entries : List (Nat × List Nat)) (entry : Nat × List Nat)
    (values : List Nat) : membersOf (entries ++ [entry]) values =
      if entry.2 = values then membersOf entries values ++ [entry.1]
      else membersOf entries values := by
  simp only [membersOf, List.filter_append, List.map_append]
  split
  · rename_i same
    simp [same]
  · rename_i other
    simp [other]

theorem collectByValues_append (entries : List (Nat × List Nat)) (entry : Nat × List Nat) :
    collectByValues (entries ++ [entry]) =
      (collectByValues entries).upsert (joinNumbers entry.2) (entry.2, [])
        fun group => (group.1, group.2 ++ [entry.1]) := by
  simp [collectByValues]

theorem collectByValues_get? (entries : List (Nat × List Nat)) (values : List Nat) :
    (collectByValues entries).get? (joinNumbers values) =
      if membersOf entries values = [] then none else some (values, membersOf entries values) := by
  induction entries using List.reverseRecOn with
  | nil => rfl
  | append_singleton entries entry ih =>
    rw [collectByValues_append, OrderedMap.get?_upsert, membersOf_append]
    by_cases same : entry.2 = values
    · subst same
      rw [if_pos rfl, ih, if_pos rfl]
      by_cases fresh : membersOf entries entry.2 = []
      · simp [fresh]
      · simp [fresh]
    · have other : joinNumbers values ≠ joinNumbers entry.2 :=
        fun equal => same (joinNumbers_injective equal).symm
      rw [if_neg other, ih, if_neg same]

theorem collectByValues_keys {key : List Char} (member : key ∈ (collectByValues entries).keys) :
    ∃ values, key = joinNumbers values := by
  induction entries using List.reverseRecOn with
  | nil => simp [collectByValues] at member
  | append_singleton entries entry ih =>
    rw [collectByValues_append, OrderedMap.upsert, OrderedMap.mem_keys_set] at member
    rcases member with same | earlier
    · exact ⟨entry.2, same⟩
    · exact ih earlier

theorem mem_collectByValues {group : List Nat × List Nat} :
    group ∈ (collectByValues entries).values ↔
      group.2 ≠ [] ∧ group.2 = membersOf entries group.1 := by
  rw [OrderedMap.mem_values_iff]
  constructor
  · rintro ⟨key, found⟩
    have listed : key ∈ (collectByValues entries).keys := by
      by_contra absent
      rw [← OrderedMap.get?_eq_none_iff, found] at absent
      exact absurd absent (by simp)
    obtain ⟨values, rfl⟩ := collectByValues_keys listed
    rw [collectByValues_get?] at found
    split at found
    · exact absurd found (by simp)
    · rename_i filled
      rw [Option.some.injEq] at found
      subst found
      exact ⟨filled, rfl⟩
  · rintro ⟨filled, same⟩
    refine ⟨joinNumbers group.1, ?_⟩
    rw [collectByValues_get?, if_neg (by rwa [← same]), ← same]

theorem collected_unique (distinct : (entries.map Prod.fst).Nodup)
    {first second : List Nat × List Nat} (firstListed : first ∈ (collectByValues entries).values)
    (secondListed : second ∈ (collectByValues entries).values) {member : Nat}
    (inFirst : member ∈ first.2) (inSecond : member ∈ second.2) : first = second := by
  obtain ⟨_, firstMembers⟩ := mem_collectByValues.mp firstListed
  obtain ⟨_, secondMembers⟩ := mem_collectByValues.mp secondListed
  rw [firstMembers, mem_membersOf] at inFirst
  rw [secondMembers, mem_membersOf] at inSecond
  have same : first.1 = second.1 := by
    have entry := List.inj_on_of_nodup_map distinct inFirst inSecond rfl
    exact congrArg Prod.snd entry
  exact Prod.ext same (by rw [firstMembers, secondMembers, same])

theorem collected_exists {member : Nat} {values : List Nat} (listed : (member, values) ∈ entries) :
    ∃ group ∈ (collectByValues entries).values, group.1 = values ∧ member ∈ group.2 := by
  refine ⟨(values, membersOf entries values), mem_collectByValues.mpr ⟨?_, rfl⟩, rfl, ?_⟩
  · exact List.ne_nil_of_mem (mem_membersOf.mpr listed)
  · exact mem_membersOf.mpr listed

theorem collected_members {group : List Nat × List Nat} {member : Nat}
    (listed : group ∈ (collectByValues entries).values) (inside : member ∈ group.2) :
    (member, group.1) ∈ entries := by
  rw [(mem_collectByValues.mp listed).2, mem_membersOf] at inside
  exact inside

theorem membersOf_nodup (distinct : (entries.map Prod.fst).Nodup) (values : List Nat) :
    (membersOf entries values).Nodup :=
  distinct.sublist (List.filter_sublist.map Prod.fst)

end Collect

section TimePairs

variable {pairs : OrderedMap Nat (OrderedSet Nat)}

def HasTime (pairs : OrderedMap Nat (OrderedSet Nat)) (hour minute : Nat) : Prop :=
  ∃ minutes, pairs.get? hour = some minutes ∧ minute ∈ minutes

def AllFilled (pairs : OrderedMap Nat (OrderedSet Nat)) : Prop :=
  ∀ hour minutes, pairs.get? hour = some minutes → minutes.elements ≠ []

@[simp] theorem not_hasTime_empty (hour minute : Nat) : ¬HasTime OrderedMap.empty hour minute := by
  simp [HasTime]

theorem allFilled_empty : AllFilled OrderedMap.empty := by
  intro hour minutes found
  exact absurd found (by simp)

theorem hasTime_upsert (hour minute otherHour otherMinute : Nat) :
    HasTime (pairs.upsert hour OrderedSet.empty (·.add minute)) otherHour otherMinute ↔
      (otherHour = hour ∧ otherMinute = minute) ∨ HasTime pairs otherHour otherMinute := by
  simp only [HasTime, OrderedMap.get?_upsert]
  by_cases same : otherHour = hour
  · subst same
    cases found : pairs.get? otherHour with
    | none => simp
    | some minutes => simp
  · simp [same]

theorem allFilled_upsert (filled : AllFilled pairs) (hour minute : Nat) :
    AllFilled (pairs.upsert hour OrderedSet.empty (·.add minute)) := by
  intro other minutes found
  rw [OrderedMap.get?_upsert] at found
  split at found
  · rw [Option.some.injEq] at found
    subst found
    exact List.ne_nil_of_mem (a := minute) ((OrderedSet.mem_add _ _ _).mpr (Or.inl rfl))
  · exact filled other minutes found

def timeEntries (pairs : OrderedMap Nat (OrderedSet Nat)) : List (Nat × List Nat) :=
  pairs.entries.map fun entry => (entry.1, sortNumbers entry.2.elements)

theorem timeEntries_distinct (pairs : OrderedMap Nat (OrderedSet Nat)) :
    ((timeEntries pairs).map Prod.fst).Nodup := by
  rw [timeEntries, List.map_map]
  exact pairs.distinct

theorem mem_timeEntries {hour : Nat} {minutes : List Nat} :
    (hour, minutes) ∈ timeEntries pairs ↔
      ∃ set, pairs.get? hour = some set ∧ sortNumbers set.elements = minutes := by
  simp only [timeEntries, List.mem_map, Prod.exists, Prod.mk.injEq, OrderedMap.get?_eq_some_iff]
  constructor
  · rintro ⟨found, set, member, rfl, same⟩
    exact ⟨set, member, same⟩
  · rintro ⟨set, member, same⟩
    exact ⟨hour, set, member, rfl, same⟩

theorem mem_compactTimePairs {timeSpec : TimeSpec} :
    timeSpec ∈ compactTimePairs pairs ↔
      ∃ group ∈ (collectByValues (timeEntries pairs)).values,
        timeSpec = { minutes := group.1, hours := sortNumbers group.2 } := by
  simp only [compactTimePairs, List.mem_insertionSort, List.mem_map, eq_comm]
  rfl

theorem compactTimePairs_exact (hour minute : Nat) :
    (∃ timeSpec ∈ compactTimePairs pairs, hour ∈ timeSpec.hours ∧ minute ∈ timeSpec.minutes) ↔
      HasTime pairs hour minute := by
  constructor
  · rintro ⟨timeSpec, member, inHours, inMinutes⟩
    obtain ⟨group, listed, rfl⟩ := mem_compactTimePairs.mp member
    simp only [mem_sortNumbers] at inHours
    obtain ⟨set, found, same⟩ := mem_timeEntries.mp (collected_members listed inHours)
    simp only [← same, mem_sortNumbers] at inMinutes
    exact ⟨set, found, inMinutes⟩
  · rintro ⟨set, found, inside⟩
    obtain ⟨group, listed, same, inGroup⟩ := collected_exists (mem_timeEntries.mpr ⟨set, found, rfl⟩)
    refine ⟨_, mem_compactTimePairs.mpr ⟨group, listed, rfl⟩, ?_, ?_⟩
    · simpa using inGroup
    · simp only [same, mem_sortNumbers]
      exact inside

theorem compactTimePairs_unique {first second : TimeSpec} (inFirst : first ∈ compactTimePairs pairs)
    (inSecond : second ∈ compactTimePairs pairs) {hour : Nat} (firstHour : hour ∈ first.hours)
    (secondHour : hour ∈ second.hours) : first = second := by
  obtain ⟨firstGroup, firstListed, rfl⟩ := mem_compactTimePairs.mp inFirst
  obtain ⟨secondGroup, secondListed, rfl⟩ := mem_compactTimePairs.mp inSecond
  simp only [mem_sortNumbers] at firstHour secondHour
  rw [collected_unique (timeEntries_distinct pairs) firstListed secondListed firstHour secondHour]

theorem compactTimePairs_wellFormed
    (filled : AllFilled pairs)
    (bounded : ∀ hour minute, HasTime pairs hour minute → hour ≤ 23 ∧ minute ≤ 59)
    {timeSpec : TimeSpec} (member : timeSpec ∈ compactTimePairs pairs) :
    WellFormedValues 0 23 timeSpec.hours ∧ WellFormedValues 0 59 timeSpec.minutes := by
  obtain ⟨group, listed, rfl⟩ := mem_compactTimePairs.mp member
  obtain ⟨someHours, members⟩ := mem_collectByValues.mp listed
  obtain ⟨anHour, anHourListed⟩ := List.exists_mem_of_ne_nil _ someHours
  obtain ⟨set, found, same⟩ := mem_timeEntries.mp (collected_members listed anHourListed)
  obtain ⟨aMinute, aMinuteListed⟩ := List.exists_mem_of_ne_nil _ (filled anHour set found)
  constructor
  · refine ⟨?_, ?_, ?_⟩
    · exact List.ne_nil_of_mem (mem_sortNumbers.mpr anHourListed)
    · apply sortNumbers_sorted
      rw [members]
      exact membersOf_nodup (timeEntries_distinct pairs) group.1
    · intro hour inside
      rw [mem_sortNumbers] at inside
      obtain ⟨hourSet, hourFound, _⟩ := mem_timeEntries.mp (collected_members listed inside)
      obtain ⟨minute, minuteListed⟩ := List.exists_mem_of_ne_nil _ (filled hour hourSet hourFound)
      exact ⟨Nat.zero_le _, (bounded hour minute ⟨hourSet, hourFound, minuteListed⟩).1⟩
  · simp only [← same]
    refine ⟨?_, sortNumbers_sorted set.distinct, ?_⟩
    · exact List.ne_nil_of_mem (mem_sortNumbers.mpr aMinuteListed)
    · intro minute inside
      rw [mem_sortNumbers] at inside
      exact ⟨Nat.zero_le _, (bounded anHour minute ⟨set, found, inside⟩).2⟩

end TimePairs

section BucketFilling

def Filed (buckets : Buckets) (spec : DateSpec) (hour minute : Nat) : Prop :=
  ∃ bucket, buckets.get? (dateSpecKey spec) = some bucket ∧ HasTime bucket.pairs hour minute

structure BucketsHold (buckets : Buckets) (filed : DateSpec → Nat → Nat → Prop) : Prop where
  keyed : ∀ key bucket, buckets.get? key = some bucket → key = dateSpecKey bucket.spec
  filled : ∀ key bucket, buckets.get? key = some bucket → AllFilled bucket.pairs
  exact : ∀ spec hour minute, Filed buckets spec hour minute ↔ filed spec hour minute

theorem addPair_get? (shifted : ShiftedTime) (buckets : Buckets) (spec : DateSpec)
    (key : List Char) :
    (addPair shifted buckets spec).get? key =
      if key = dateSpecKey spec then
        some (((buckets.get? key).getD { spec, pairs := OrderedMap.empty }).addTime
          shifted.hour shifted.minute)
      else buckets.get? key := by
  rw [addPair, OrderedMap.get?_upsert]
  split
  · rename_i same
    rw [same]
  · rfl

theorem emptyBuckets_hold : BucketsHold OrderedMap.empty fun _ _ _ => False := by
  refine ⟨?_, ?_, ?_⟩
  · intro key bucket found
    exact absurd found (by simp)
  · intro key bucket found
    exact absurd found (by simp)
  · intro spec hour minute
    simp [Filed]

theorem addPair_hold {buckets : Buckets} {filed : DateSpec → Nat → Nat → Prop}
    (holds : BucketsHold buckets filed) (shifted : ShiftedTime) (spec : DateSpec) :
    BucketsHold (addPair shifted buckets spec) fun other hour minute =>
      (other = spec ∧ hour = shifted.hour ∧ minute = shifted.minute) ∨ filed other hour minute := by
  refine ⟨?_, ?_, ?_⟩
  · intro key bucket found
    rw [addPair_get?] at found
    split at found
    · rename_i same
      rw [Option.some.injEq] at found
      subst found
      cases earlier : buckets.get? key with
      | none => simpa [Bucket.addTime] using same
      | some old => simpa [Bucket.addTime] using holds.keyed key old earlier
    · exact holds.keyed key bucket found
  · intro key bucket found
    rw [addPair_get?] at found
    split at found
    · rw [Option.some.injEq] at found
      subst found
      apply allFilled_upsert
      cases earlier : buckets.get? key with
      | none => exact allFilled_empty
      | some old => exact holds.filled key old earlier
    · exact holds.filled key bucket found
  · intro other hour minute
    rw [← holds.exact, Filed, Filed]
    simp only [addPair_get?]
    by_cases same : other = spec
    · subst same
      simp only [if_true, Option.some.injEq, exists_eq_left', Bucket.addTime, hasTime_upsert,
        true_and]
      cases earlier : buckets.get? (dateSpecKey other) with
      | none => simp
      | some old => simp
    · have different : dateSpecKey other ≠ dateSpecKey spec :=
        fun equal => same (dateSpecKey_injective equal)
      simp [different, same]

theorem addPairs_hold {buckets : Buckets} {filed : DateSpec → Nat → Nat → Prop}
    (holds : BucketsHold buckets filed) (shifted : ShiftedTime) (specs : List DateSpec) :
    BucketsHold (specs.foldl (addPair shifted) buckets) fun other hour minute =>
      (other ∈ specs ∧ hour = shifted.hour ∧ minute = shifted.minute) ∨ filed other hour minute := by
  induction specs generalizing buckets filed with
  | nil => simpa using holds
  | cons spec specs ih =>
    have next := ih (addPair_hold holds shifted spec)
    refine ⟨next.keyed, next.filled, ?_⟩
    intro other hour minute
    rw [List.foldl_cons, next.exact other hour minute, List.mem_cons]
    constructor
    · rintro (later | first | earlier)
      · exact Or.inl ⟨Or.inr later.1, later.2⟩
      · exact Or.inl ⟨Or.inl first.1, first.2⟩
      · exact Or.inr earlier
    · rintro (⟨first | later, time⟩ | earlier)
      · exact Or.inr (Or.inl ⟨first, time⟩)
      · exact Or.inl ⟨later, time⟩
      · exact Or.inr (Or.inr earlier)

def ShiftsTo (cron : ParsedCron) (offsetMinutes : Int) (strict : Bool) (localHour localMinute : Nat)
    (spec : DateSpec) (hour minute : Nat) : Prop :=
  let shifted := shiftLocalTimeToUtc localHour localMinute offsetMinutes
  ∃ specs, convertDateSpec cron shifted.dayDelta strict = .ok specs ∧ spec ∈ specs ∧
    hour = shifted.hour ∧ minute = shifted.minute

def Converts (cron : ParsedCron) (offsetMinutes : Int) (strict : Bool)
    (localHour localMinute : Nat) : Prop :=
  ∃ specs, convertDateSpec cron
    (shiftLocalTimeToUtc localHour localMinute offsetMinutes).dayDelta strict = .ok specs

theorem minuteLoop_hold {cron : ParsedCron} {offsetMinutes : Int} {strict : Bool} {localHour : Nat}
    {minutes : List Nat} {buckets finish : Buckets} {filed : DateSpec → Nat → Nat → Prop}
    (holds : BucketsHold buckets filed)
    (folded : minutes.foldlM (fun buckets localMinute => do
      let shifted := shiftLocalTimeToUtc localHour localMinute offsetMinutes
      let dateSpecs ← convertDateSpec cron shifted.dayDelta strict
      return dateSpecs.foldl (addPair shifted) buckets) buckets = .ok finish) :
    (∀ localMinute ∈ minutes, Converts cron offsetMinutes strict localHour localMinute) ∧
      BucketsHold finish fun spec hour minute =>
        (∃ localMinute ∈ minutes,
          ShiftsTo cron offsetMinutes strict localHour localMinute spec hour minute) ∨
          filed spec hour minute := by
  refine foldlM_invariant
    (fun processed (buckets : Buckets) =>
      (∀ localMinute ∈ processed, Converts cron offsetMinutes strict localHour localMinute) ∧
        BucketsHold buckets fun spec hour minute =>
          (∃ localMinute ∈ processed,
            ShiftsTo cron offsetMinutes strict localHour localMinute spec hour minute) ∨
            filed spec hour minute) folded (by simpa using holds) ?_
  intro processed localMinute before after _ earlier stepped
  rw [bind_eq_ok] at stepped
  obtain ⟨specs, converted, filled⟩ := stepped
  simp only [pure_eq_ok, Except.ok.injEq] at filled
  subst filled
  have next := addPairs_hold earlier.2 (shiftLocalTimeToUtc localHour localMinute offsetMinutes) specs
  refine ⟨?_, next.keyed, next.filled, ?_⟩
  · intro other member
    rcases List.mem_append.mp member with before | last
    · exact earlier.1 other before
    · exact List.mem_singleton.mp last ▸ ⟨specs, converted⟩
  intro spec hour minute
  rw [next.exact spec hour minute]
  simp only [List.mem_append, List.mem_singleton, or_and_right, exists_or, exists_eq_left]
  constructor
  · rintro (⟨inside, time⟩ | before | start)
    · exact Or.inl (Or.inr ⟨specs, converted, inside, time⟩)
    · exact Or.inl (Or.inl before)
    · exact Or.inr start
  · rintro ((before | ⟨found, foundConverted, inside, time⟩) | start)
    · exact Or.inr (Or.inl before)
    · rw [converted, Except.ok.injEq] at foundConverted
      exact Or.inl ⟨foundConverted ▸ inside, time⟩
    · exact Or.inr (Or.inr start)

theorem hourLoop_hold {cron : ParsedCron} {offsetMinutes : Int} {strict : Bool}
    {finish : Buckets}
    (folded : cron.hour.values.foldlM (fun buckets localHour =>
      cron.minute.values.foldlM (fun buckets localMinute => do
        let shifted := shiftLocalTimeToUtc localHour localMinute offsetMinutes
        let dateSpecs ← convertDateSpec cron shifted.dayDelta strict
        return dateSpecs.foldl (addPair shifted) buckets) buckets)
      (OrderedMap.empty : Buckets) = .ok finish) :
    (∀ localHour ∈ cron.hour.values, ∀ localMinute ∈ cron.minute.values,
        Converts cron offsetMinutes strict localHour localMinute) ∧
      BucketsHold finish fun spec hour minute =>
        ∃ localHour ∈ cron.hour.values, ∃ localMinute ∈ cron.minute.values,
          ShiftsTo cron offsetMinutes strict localHour localMinute spec hour minute := by
  refine foldlM_invariant
    (fun processed (buckets : Buckets) =>
      (∀ localHour ∈ processed, ∀ localMinute ∈ cron.minute.values,
        Converts cron offsetMinutes strict localHour localMinute) ∧
      BucketsHold buckets fun spec hour minute =>
        ∃ localHour ∈ processed, ∃ localMinute ∈ cron.minute.values,
          ShiftsTo cron offsetMinutes strict localHour localMinute spec hour minute)
    folded (by simpa using emptyBuckets_hold) ?_
  intro processed localHour before after _ earlier stepped
  have next := minuteLoop_hold earlier.2 stepped
  refine ⟨?_, next.2.keyed, next.2.filled, ?_⟩
  · intro other member
    rcases List.mem_append.mp member with before | last
    · exact earlier.1 other before
    · exact List.mem_singleton.mp last ▸ next.1
  · intro spec hour minute
    rw [next.2.exact spec hour minute]
    simp only [List.mem_append, List.mem_singleton, or_and_right, exists_or, exists_eq_left]
    exact or_comm

end BucketFilling

end Metidos.Cron
