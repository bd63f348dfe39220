import Metidos.Calendar.ListingSpec

/-!
When the expansion of a recurring event over a window is exact: the dates that are scanned, the
occurrences that they stand for, and two windows side by side.
-/

namespace Metidos.Calendar

open ExceptRules

variable {host : Host} {input : RecurrenceExpansionInput} {recurrenceRule : RecurrenceRule}
  {rule : RRule} {windowStart windowEnd date instant : Int} {occurrence : ExpandedOccurrenceTime}

/-- A clock goes back only over times that it then shows twice: before the instant of a wall time
with a single one it shows no later time, and after it no earlier one. -/
def WallClock.Separates (clock : WallClock) : Prop :=
  ∀ parts instant, wallCandidates clock.wall parts = [instant] →
    (∀ earlier, earlier ≤ instant → clock.wall earlier ≤ parts) ∧
      ∀ later, instant ≤ later → parts ≤ clock.wall later

theorem OccurrenceTime.overlaps_iff {time : OccurrenceTime} {start end_ : Int}
    (isStart : time.start = some start) (isEnd : time.end_ = some end_) :
    time.overlaps windowStart windowEnd = true ↔ windowStart < end_ ∧ start < windowEnd := by
  rw [OccurrenceTime.overlaps, isStart, isEnd]
  simp

theorem isShown_iff {exdates : List DateText} :
    isShown exdates windowStart windowEnd occurrence = true ↔
      occurrence.originalStart ∉ exdates ∧
        occurrence.time.overlaps windowStart windowEnd = true := by
  simp [isShown]

namespace RecurrenceExpansionInput

def Occurs (input : RecurrenceExpansionInput) (host : Host) (rule : RRule) (date : Int)
    (occurrence : ExpandedOccurrenceTime) : Prop :=
  date ∈ input.ruleDates host rule ∧ input.occurrenceOfDate host date = .ok occurrence

def BeginsAt (input : RecurrenceExpansionInput) (host : Host) (date instant : Int) : Prop :=
  match input.clock host with
  | none => instant = date
  | some clock => wallCandidates clock.wall date = [instant]

def placed (input : RecurrenceExpansionInput) (instant : Int) : Int :=
  if input.allDay then startOfDay instant else instant

theorem occurrenceFromStart_times
    (made : input.occurrenceFromStart instant = .ok occurrence) :
    occurrence.time.start = some (input.placed instant) ∧
      occurrence.time.end_ = some (input.placed (instant + input.duration)) := by
  rw [occurrenceFromStart] at made
  cases isDay : input.allDay with
  | true =>
    rw [if_pos isDay] at made
    simp only [formatDateOnly, bind_eq_ok] at made
    obtain ⟨first, isFirst, last, isLast, same⟩ := made
    split at isFirst
    · split at isLast
      · cases isFirst
        cases isLast
        cases same
        rw [placed, placed, if_pos isDay, if_pos isDay]
        exact ⟨rfl, rfl⟩
      · cases isLast
    · cases isFirst
  | false =>
    rw [if_neg (Bool.eq_false_iff.mp isDay)] at made
    simp only [toISOString, bind_eq_ok] at made
    obtain ⟨first, isFirst, last, isLast, same⟩ := made
    split at isFirst
    · split at isLast
      · cases isFirst
        cases isLast
        cases same
        rw [placed, placed, if_neg (Bool.eq_false_iff.mp isDay),
          if_neg (Bool.eq_false_iff.mp isDay)]
        exact ⟨rfl, rfl⟩
      · cases isLast
    · cases isFirst

theorem localWallTimeToUtc_eq_ok {clock : WallClock} {timezone : Text} :
    localWallTimeToUtc clock timezone date = .ok instant ↔
      wallCandidates clock.wall date = [instant] := by
  rw [localWallTimeToUtc]
  split
  · rename_i empty
    rw [empty]
    simp
  · rename_i candidate single
    rw [single]
    simp
  · rename_i several
    constructor
    · intro found
      cases found
    · intro single
      exact absurd single (several instant)

theorem occurrenceOfDate_eq_ok : input.occurrenceOfDate host date = .ok occurrence ↔
    ∃ instant, input.BeginsAt host date instant ∧
      input.occurrenceFromStart instant = .ok occurrence := by
  simp only [occurrenceOfDate, BeginsAt]
  cases input.clock host with
  | none => simp
  | some clock => simp only [bind_eq_ok, localWallTimeToUtc_eq_ok]

theorem Occurs.times (occurs : input.Occurs host rule date occurrence) :
    ∃ instant, input.BeginsAt host date instant ∧
      occurrence.time.start = some (input.placed instant) ∧
        occurrence.time.end_ = some (input.placed (instant + input.duration)) := by
  obtain ⟨instant, begins, made⟩ := occurrenceOfDate_eq_ok.mp occurs.2
  exact ⟨instant, begins, occurrenceFromStart_times made⟩

theorem clock_timed {clock : WallClock} (onClock : input.clock host = some clock) :
    input.allDay = false := by
  rw [RecurrenceExpansionInput.clock] at onClock
  split at onClock
  · cases onClock
  · rename_i timed
    exact Bool.eq_false_iff.mpr timed

theorem clock_allDay (isDay : input.allDay = true) : input.clock host = none := by
  rw [RecurrenceExpansionInput.clock, if_pos isDay]

theorem wall_of_candidate {clock : WallClock} (single : wallCandidates clock.wall date = [instant]) :
    clock.wall instant = date := by
  have member : instant ∈ wallCandidates clock.wall date := by
    rw [single]
    exact List.mem_singleton.mpr rfl
  rw [wallCandidates, List.mem_filter, beq_iff_eq] at member
  exact member.2

theorem mem_scanned : date ∈ input.scanned host rule windowStart windowEnd ↔
    date ∈ input.ruleDates host rule ∧ input.floating host windowStart - input.lookBack ≤ date ∧
      date ≤ input.floating host windowEnd :=
  DateSeries.mem_between

theorem lookBack_le (input : RecurrenceExpansionInput) :
    msPerDay ≤ input.lookBack ∧ input.duration ≤ input.lookBack :=
  ⟨le_max_left _ _, le_max_right _ _⟩

def StartsBefore (first second : ExpandedOccurrenceTime) : Prop :=
  ∃ early late, first.time.start = some early ∧ second.time.start = some late ∧ early < late

/-- The occurrences of the series that are not excepted and overlap the window, in order. -/
structure ShowsWindow (host : Host) (input : RecurrenceExpansionInput) (rule : RRule)
    (windowStart windowEnd : Int) (times : List ExpandedOccurrenceTime) : Prop where
  increasing : times.Pairwise StartsBefore
  mem_iff : ∀ occurrence, occurrence ∈ times ↔
    (∃ date, input.Occurs host rule date occurrence) ∧
      occurrence.originalStart ∉ input.exdates ∧
        occurrence.time.overlaps windowStart windowEnd = true

def ExpandsExactly (host : Host) (input : RecurrenceExpansionInput) (rule : RRule)
    (windowStart windowEnd : Int) : Prop :=
  ∃ times, expandCalendarOccurrences host input windowStart windowEnd none = .ok times ∧
    ShowsWindow host input rule windowStart windowEnd times

structure Covers (host : Host) (input : RecurrenceExpansionInput) (rule : RRule)
    (windowStart windowEnd : Int) : Prop where
  /-- No date that is scanned is in a gap or a fold of the zone, or past the dates of the host. -/
  resolves : ∀ date ∈ input.scanned host rule windowStart windowEnd,
    ∃ occurrence, input.occurrenceOfDate host date = .ok occurrence
  /-- On the clock of the zone no occurrence began longer before the window than is looked back. -/
  lookedBack : ∀ clock, input.clock host = some clock → ∀ date occurrence,
    input.Occurs host rule date occurrence →
      isShown input.exdates windowStart windowEnd occurrence = true →
        clock.wall windowStart ≤ date + input.lookBack
  dayScanned : input.allDay = true → ∀ date occurrence, input.Occurs host rule date occurrence →
    isShown input.exdates windowStart windowEnd occurrence = true →
      ∃ other, input.Occurs host rule other occurrence ∧ other ≤ windowEnd
  daysApart : input.allDay = true → ∀ first second early late,
    input.Occurs host rule first early → input.Occurs host rule second late →
      first ∈ input.scanned host rule windowStart windowEnd →
        second ∈ input.scanned host rule windowStart windowEnd → first < second →
          isShown input.exdates windowStart windowEnd early = true →
            isShown input.exdates windowStart windowEnd late = true →
              startOfDay first ≠ startOfDay second

theorem clocked_floating {clock : WallClock} (onClock : input.clock host = some clock)
    (time : Int) : input.floating host time = clock.wall time := by
  rw [floating, onClock]

theorem unclocked_floating (unclocked : input.clock host = none) (time : Int) :
    input.floating host time = time := by
  rw [floating, unclocked]

theorem Occurs.overlap (occurs : input.Occurs host rule date occurrence)
    (shown : isShown input.exdates windowStart windowEnd occurrence = true) :
    ∃ instant, input.BeginsAt host date instant ∧
      occurrence.time.start = some (input.placed instant) ∧
        windowStart < input.placed (instant + input.duration) ∧
          input.placed instant < windowEnd := by
  obtain ⟨instant, begins, isStart, isEnd⟩ := occurs.times
  have overlaps := (isShown_iff.mp shown).2
  rw [OccurrenceTime.overlaps_iff isStart isEnd] at overlaps
  exact ⟨instant, begins, isStart, overlaps.1, overlaps.2⟩

theorem placed_le (input : RecurrenceExpansionInput) (instant : Int) :
    input.placed instant ≤ instant := by
  rw [placed]
  split
  · exact Int.ediv_mul_le instant (Int.ne_of_gt msPerDay_pos)
  · exact Int.le_refl _

theorem scanned_of_utc (unclocked : input.clock host = none)
    (occurs : input.Occurs host rule date occurrence)
    (shown : isShown input.exdates windowStart windowEnd occurrence = true)
    (early : date ≤ windowEnd) : date ∈ input.scanned host rule windowStart windowEnd := by
  obtain ⟨instant, begins, _, endsLate, _⟩ := occurs.overlap shown
  rw [BeginsAt, unclocked] at begins
  have same : instant = date := begins
  have down := input.placed_le (instant + input.duration)
  have back := input.lookBack_le.2
  rw [mem_scanned, unclocked_floating unclocked, unclocked_floating unclocked]
  exact ⟨occurs.1, by omega, early⟩

theorem scanned_of_clock {clock : WallClock} (onClock : input.clock host = some clock)
    (separates : clock.Separates) (occurs : input.Occurs host rule date occurrence)
    (shown : isShown input.exdates windowStart windowEnd occurrence = true)
    (near : clock.wall windowStart ≤ date + input.lookBack) :
    date ∈ input.scanned host rule windowStart windowEnd := by
  obtain ⟨instant, begins, _, _, startsEarly⟩ := occurs.overlap shown
  rw [BeginsAt, onClock] at begins
  have single : wallCandidates clock.wall date = [instant] := begins
  rw [placed, if_neg (Bool.eq_false_iff.mp (clock_timed onClock))] at startsEarly
  have later := (separates date instant single).2 windowEnd (Int.le_of_lt startsEarly)
  rw [mem_scanned, clocked_floating onClock, clocked_floating onClock]
  exact ⟨occurs.1, by omega, later⟩

theorem Covers.reaches (covers : Covers host input rule windowStart windowEnd)
    (separates : ∀ clock, input.clock host = some clock → clock.Separates)
    (occurs : input.Occurs host rule date occurrence)
    (shown : isShown input.exdates windowStart windowEnd occurrence = true) :
    ∃ other ∈ input.scanned host rule windowStart windowEnd,
      input.occurrenceOfDate host other = .ok occurrence := by
  cases onClock : input.clock host with
  | some clock =>
    have near := covers.lookedBack clock onClock date occurrence occurs shown
    exact ⟨date, scanned_of_clock onClock (separates clock onClock) occurs shown near, occurs.2⟩
  | none =>
    cases isDay : input.allDay with
    | true =>
      obtain ⟨other, sameOccurs, early⟩ :=
        covers.dayScanned isDay date occurrence occurs shown
      exact ⟨other, scanned_of_utc onClock sameOccurs shown early, sameOccurs.2⟩
    | false =>
      obtain ⟨instant, begins, _, _, startsEarly⟩ := occurs.overlap shown
      rw [BeginsAt, onClock] at begins
      have same : instant = date := begins
      rw [placed, if_neg (Bool.eq_false_iff.mp isDay)] at startsEarly
      exact ⟨date, scanned_of_utc onClock occurs shown (by omega), occurs.2⟩

theorem covers_of_short {clock : WallClock} {forward : Int}
    (onClock : input.clock host = some clock) (separates : clock.Separates)
    (gains : ∀ early late, early ≤ late →
      clock.wall late - clock.wall early ≤ late - early + forward)
    (short : input.duration + forward ≤ msPerDay)
    (resolves : ∀ date ∈ input.scanned host rule windowStart windowEnd,
      ∃ occurrence, input.occurrenceOfDate host date = .ok occurrence) :
    Covers host input rule windowStart windowEnd := by
  have timed := clock_timed onClock
  refine ⟨resolves, ?_, ?_, ?_⟩
  · intro other isOther date occurrence occurs shown
    cases onClock.symm.trans isOther
    obtain ⟨instant, begins, _, endsLate, _⟩ := occurs.overlap shown
    rw [BeginsAt, onClock] at begins
    have single : wallCandidates clock.wall date = [instant] := begins
    rw [placed, if_neg (Bool.eq_false_iff.mp timed)] at endsLate
    have back := input.lookBack_le.1
    have positive := msPerDay_pos
    rcases Int.le_total windowStart instant with before | after
    · have earlier := (separates date instant single).1 windowStart before
      omega
    · have gained := gains instant windowStart after
      rw [wall_of_candidate single] at gained
      omega
  · intro isDay
    rw [timed] at isDay
    cases isDay
  · intro isDay
    rw [timed] at isDay
    cases isDay

theorem pairwise_apply {relation : Int → Int → Prop} {dates : List Int} {first second : Int}
    (ordered : dates.Pairwise (· < ·)) (related : dates.Pairwise relation)
    (isFirst : first ∈ dates) (isSecond : second ∈ dates) (order : first < second) :
    relation first second := by
  induction dates with
  | nil => cases isFirst
  | cons head rest ih =>
    rw [List.pairwise_cons] at ordered related
    rcases List.mem_cons.mp isFirst with rfl | inRest
    · rcases List.mem_cons.mp isSecond with rfl | later
      · exact absurd order (Int.lt_irrefl _)
      · exact related.1 second later
    · rcases List.mem_cons.mp isSecond with rfl | later
      · exact absurd (ordered.1 first inRest) (Int.lt_asymm order)
      · exact ih ordered.2 related.2 inRest later

theorem placed_lt (input : RecurrenceExpansionInput) {first second early late : Int}
    (isEarly : input.BeginsAt host first early) (isLate : input.BeginsAt host second late)
    (order : first < second) (apart : input.allDay = true → startOfDay first ≠ startOfDay second) :
    input.placed early < input.placed late := by
  cases onClock : input.clock host with
  | some clock =>
    rw [BeginsAt, onClock] at isEarly isLate
    rw [placed, placed, if_neg (Bool.eq_false_iff.mp (clock_timed onClock)),
      if_neg (Bool.eq_false_iff.mp (clock_timed onClock))]
    exact clock.inOrder isEarly isLate order
  | none =>
    rw [BeginsAt, onClock] at isEarly isLate
    have sameEarly : early = first := isEarly
    have sameLate : late = second := isLate
    rw [sameEarly, sameLate, placed, placed]
    split
    · rename_i isDay
      have differ := apart isDay
      simp only [startOfDay, msPerDay, msPerMinute, msPerSecond] at differ ⊢
      omega
    · exact order

theorem Covers.increasing (covers : Covers host input rule windowStart windowEnd)
    {first second : Int} {early late : ExpandedOccurrenceTime}
    (isEarly : input.Occurs host rule first early) (isLate : input.Occurs host rule second late)
    (firstScanned : first ∈ input.scanned host rule windowStart windowEnd)
    (secondScanned : second ∈ input.scanned host rule windowStart windowEnd)
    (order : first < second)
    (firstShown : isShown input.exdates windowStart windowEnd early = true)
    (secondShown : isShown input.exdates windowStart windowEnd late = true) :
    StartsBefore early late := by
  obtain ⟨earlyInstant, earlyBegins, earlyStart, _⟩ := isEarly.times
  obtain ⟨lateInstant, lateBegins, lateStart, _⟩ := isLate.times
  refine ⟨_, _, earlyStart, lateStart, input.placed_lt earlyBegins lateBegins order fun isDay => ?_⟩
  exact covers.daysApart isDay first second early late isEarly isLate firstScanned secondScanned
    order firstShown secondShown

theorem shown_of_rule (hasRule : input.recurrenceRule = some recurrenceRule) :
    input.shown host windowStart windowEnd =
      ((input.scanned host recurrenceRule.rule windowStart windowEnd).filterMap fun date =>
        (input.occurrenceOfDate host date).toOption).filter
          (isShown input.exdates windowStart windowEnd) := by
  have sameTest : input.shows windowStart windowEnd =
      isShown input.exdates windowStart windowEnd := by
    funext occurrence
    simp [shows, isShown, hasRule]
  rw [shown, sameTest, candidates, hasRule]
  simp only [resolve, hasRule]

theorem toOption_eq_some : (input.occurrenceOfDate host date).toOption = some occurrence ↔
    input.occurrenceOfDate host date = .ok occurrence := by
  cases input.occurrenceOfDate host date with
  | error error => simp [Except.toOption]
  | ok value => simp [Except.toOption]

theorem mem_shown_of_rule (hasRule : input.recurrenceRule = some recurrenceRule) :
    occurrence ∈ input.shown host windowStart windowEnd ↔
      (∃ date ∈ input.scanned host recurrenceRule.rule windowStart windowEnd,
        input.occurrenceOfDate host date = .ok occurrence) ∧
        isShown input.exdates windowStart windowEnd occurrence = true := by
  rw [shown_of_rule hasRule]
  simp only [List.mem_filter, List.mem_filterMap, toOption_eq_some]

theorem shown_pairwise (hasRule : input.recurrenceRule = some recurrenceRule) :
    (input.shown host windowStart windowEnd).Pairwise StartsBefore ↔
      (input.scanned host recurrenceRule.rule windowStart windowEnd).Pairwise
        fun first second => ∀ early, input.occurrenceOfDate host first = .ok early →
          ∀ late, input.occurrenceOfDate host second = .ok late →
            isShown input.exdates windowStart windowEnd early = true →
              isShown input.exdates windowStart windowEnd late = true →
                StartsBefore early late := by
  rw [shown_of_rule hasRule, List.pairwise_filter, List.pairwise_filterMap]
  simp only [toOption_eq_some]

theorem expandsExactly_iff_shown :
    ExpandsExactly host input rule windowStart windowEnd ↔
      input.Resolves host windowStart windowEnd ∧
        ShowsWindow host input rule windowStart windowEnd
          (input.shown host windowStart windowEnd) := by
  constructor
  · rintro ⟨times, expanded, shows⟩
    obtain ⟨resolves, same, _⟩ := expandCalendarOccurrences_eq_ok.mp expanded
    exact ⟨resolves, same ▸ shows⟩
  · rintro ⟨resolves, shows⟩
    refine ⟨_, expandCalendarOccurrences_eq_ok.mpr ⟨resolves, rfl, ?_⟩, shows⟩
    intro _ limit isLimit
    cases isLimit

theorem resolves_iff (hasRule : input.recurrenceRule = some recurrenceRule) :
    input.Resolves host windowStart windowEnd ↔
      ∀ date ∈ input.scanned host recurrenceRule.rule windowStart windowEnd,
        ∃ occurrence, input.occurrenceOfDate host date = .ok occurrence := by
  rw [Resolves, candidates, hasRule]
  simp only [resolve, hasRule]

theorem Covers.shows (covers : Covers host input recurrenceRule.rule windowStart windowEnd)
    (hasRule : input.recurrenceRule = some recurrenceRule)
    (separates : ∀ clock, input.clock host = some clock → clock.Separates) :
    ShowsWindow host input recurrenceRule.rule windowStart windowEnd
      (input.shown host windowStart windowEnd) := by
  refine ⟨?_, fun occurrence => ?_⟩
  · rw [shown_pairwise hasRule]
    refine (DateSeries.between_ordered _ _).imp_of_mem ?_
    intro first second firstScanned secondScanned order early isEarly late isLate
    exact covers.increasing ⟨(mem_scanned.mp firstScanned).1, isEarly⟩
      ⟨(mem_scanned.mp secondScanned).1, isLate⟩ firstScanned secondScanned order
  · rw [mem_shown_of_rule hasRule, isShown_iff]
    constructor
    · rintro ⟨⟨date, scanned, made⟩, kept⟩
      exact ⟨⟨date, (mem_scanned.mp scanned).1, made⟩, kept⟩
    · rintro ⟨⟨date, occurs⟩, kept⟩
      obtain ⟨other, scanned, made⟩ := covers.reaches separates occurs (isShown_iff.mpr kept)
      exact ⟨⟨other, scanned, made⟩, kept⟩

theorem covers_of_shows (hasRule : input.recurrenceRule = some recurrenceRule)
    (resolves : input.Resolves host windowStart windowEnd)
    (shows : ShowsWindow host input recurrenceRule.rule windowStart windowEnd
      (input.shown host windowStart windowEnd)) :
    Covers host input recurrenceRule.rule windowStart windowEnd := by
  have reached : ∀ date occurrence, input.Occurs host recurrenceRule.rule date occurrence →
      isShown input.exdates windowStart windowEnd occurrence = true →
        ∃ other ∈ input.scanned host recurrenceRule.rule windowStart windowEnd,
          input.occurrenceOfDate host other = .ok occurrence := by
    intro date occurrence occurs kept
    have member := (shows.mem_iff occurrence).mpr ⟨⟨date, occurs⟩, isShown_iff.mp kept⟩
    exact ((mem_shown_of_rule hasRule).mp member).1
  refine ⟨(resolves_iff hasRule).mp resolves, ?_, ?_, ?_⟩
  · intro clock onClock date occurrence occurs kept
    obtain ⟨other, scanned, made⟩ := reached date occurrence occurs kept
    -- On a clock an occurrence has one date: what the clock shows when it starts.
    obtain ⟨instant, begins, isStart, _⟩ := occurs.times
    have otherOccurs : input.Occurs host recurrenceRule.rule other occurrence :=
      ⟨(mem_scanned.mp scanned).1, made⟩
    obtain ⟨otherInstant, otherBegins, otherStart, _⟩ := otherOccurs.times
    have timed := Bool.eq_false_iff.mp (clock_timed onClock)
    rw [placed, if_neg timed] at isStart otherStart
    have sameInstant : instant = otherInstant := Option.some.inj (isStart.symm.trans otherStart)
    rw [BeginsAt, onClock] at begins otherBegins
    have sameDate : date = other := by
      rw [← wall_of_candidate begins, ← wall_of_candidate otherBegins, sameInstant]
    have low := (mem_scanned.mp scanned).2.1
    rw [clocked_floating onClock] at low
    omega
  · intro isDay date occurrence occurs kept
    obtain ⟨other, scanned, made⟩ := reached date occurrence occurs kept
    obtain ⟨member, _, early⟩ := mem_scanned.mp scanned
    rw [unclocked_floating (clock_allDay isDay)] at early
    exact ⟨other, ⟨member, made⟩, early⟩
  · intro isDay first second early late isEarly isLate firstScanned secondScanned order
      firstShown secondShown sameDay
    have before := pairwise_apply (DateSeries.between_ordered _ _)
      ((shown_pairwise hasRule).mp shows.increasing) firstScanned secondScanned order early isEarly.2
      late isLate.2 firstShown secondShown
    obtain ⟨earlyInstant, lateInstant, earlyStart, lateStart, starts⟩ := before
    obtain ⟨firstInstant, firstBegins, firstStart, _⟩ := isEarly.times
    obtain ⟨secondInstant, secondBegins, secondStart, _⟩ := isLate.times
    rw [BeginsAt, clock_allDay isDay] at firstBegins secondBegins
    have sameFirst : firstInstant = first := firstBegins
    have sameSecond : secondInstant = second := secondBegins
    rw [placed, if_pos isDay, sameFirst] at firstStart
    rw [placed, if_pos isDay, sameSecond] at secondStart
    have isFirst := Option.some.inj (earlyStart.symm.trans firstStart)
    have isSecond := Option.some.inj (lateStart.symm.trans secondStart)
    omega

theorem expandsExactly_iff (hasRule : input.recurrenceRule = some recurrenceRule)
    (separates : ∀ clock, input.clock host = some clock → clock.Separates) :
    ExpandsExactly host input recurrenceRule.rule windowStart windowEnd ↔
      Covers host input recurrenceRule.rule windowStart windowEnd := by
  rw [expandsExactly_iff_shown]
  constructor
  · rintro ⟨resolves, shows⟩
    exact covers_of_shows hasRule resolves shows
  · intro covers
    exact ⟨(resolves_iff hasRule).mpr covers.resolves, covers.shows hasRule separates⟩

def PointAt (occurrence : ExpandedOccurrenceTime) (middle : Int) : Prop :=
  ∃ start end_, occurrence.time.start = some start ∧ occurrence.time.end_ = some end_ ∧
    middle ≤ start ∧ end_ ≤ middle

theorem overlaps_split {start middle end_ : Int} (first : start ≤ middle) (second : middle ≤ end_)
    (occurs : input.Occurs host rule date occurrence) :
    occurrence.time.overlaps start middle = true ∨ occurrence.time.overlaps middle end_ = true ↔
      occurrence.time.overlaps start end_ = true ∧ ¬PointAt occurrence middle := by
  obtain ⟨instant, _, isStart, isEnd⟩ := occurs.times
  have isPoint : PointAt occurrence middle ↔
      middle ≤ input.placed instant ∧ input.placed (instant + input.duration) ≤ middle := by
    constructor
    · rintro ⟨starts, ends, isFrom, isTo, bounds⟩
      rw [Option.some.inj (isStart.symm.trans isFrom), Option.some.inj (isEnd.symm.trans isTo)]
      exact bounds
    · exact fun bounds => ⟨_, _, isStart, isEnd, bounds⟩
  rw [OccurrenceTime.overlaps_iff isStart isEnd, OccurrenceTime.overlaps_iff isStart isEnd,
    OccurrenceTime.overlaps_iff isStart isEnd, isPoint]
  omega

/-- The expansions of two windows side by side and of both as one. -/
structure ExpandsAdjacent (host : Host) (input : RecurrenceExpansionInput) (rule : RRule)
    (start middle end_ : Int) : Prop where
  first : ExpandsExactly host input rule start middle
  second : ExpandsExactly host input rule middle end_
  whole : ExpandsExactly host input rule start end_
  union : ∀ early late both,
    expandCalendarOccurrences host input start middle none = .ok early →
      expandCalendarOccurrences host input middle end_ none = .ok late →
        expandCalendarOccurrences host input start end_ none = .ok both →
          ∀ occurrence, occurrence ∈ both ↔ occurrence ∈ early ∨ occurrence ∈ late

def NoneAtBoundary (host : Host) (input : RecurrenceExpansionInput) (rule : RRule)
    (start middle end_ : Int) : Prop :=
  ∀ date occurrence, input.Occurs host rule date occurrence →
    isShown input.exdates start end_ occurrence = true → ¬PointAt occurrence middle

theorem noneAtBoundary_of_lasting {start middle end_ : Int} (timed : input.allDay = false)
    (lasts : 0 < input.duration) : NoneAtBoundary host input rule start middle end_ := by
  rintro date occurrence occurs - ⟨starts, ends, isFrom, isTo, after, before⟩
  obtain ⟨instant, _, isStart, isEnd⟩ := occurs.times
  rw [placed, if_neg (Bool.eq_false_iff.mp timed)] at isStart isEnd
  have sameStart := Option.some.inj (isStart.symm.trans isFrom)
  have sameEnd := Option.some.inj (isEnd.symm.trans isTo)
  omega

theorem union_iff {start middle end_ : Int} {early late both : List ExpandedOccurrenceTime}
    (first : start ≤ middle) (second : middle ≤ end_)
    (isEarly : ShowsWindow host input rule start middle early)
    (isLate : ShowsWindow host input rule middle end_ late)
    (isBoth : ShowsWindow host input rule start end_ both) :
    (∀ occurrence, occurrence ∈ both ↔ occurrence ∈ early ∨ occurrence ∈ late) ↔
      NoneAtBoundary host input rule start middle end_ := by
  constructor
  · intro same date occurrence occurs shown
    have kept := isShown_iff.mp shown
    have either := (same occurrence).mp ((isBoth.mem_iff occurrence).mpr ⟨⟨date, occurs⟩, kept⟩)
    rw [isEarly.mem_iff, isLate.mem_iff] at either
    have overlap := either.imp (fun member => member.2.2) fun member => member.2.2
    exact ((overlaps_split first second occurs).mp overlap).2
  · intro none occurrence
    rw [isBoth.mem_iff, isEarly.mem_iff, isLate.mem_iff]
    constructor
    · rintro ⟨⟨date, occurs⟩, kept⟩
      have apart := none date occurrence occurs (isShown_iff.mpr kept)
      rcases (overlaps_split first second occurs).mpr ⟨kept.2, apart⟩ with before | after
      · exact Or.inl ⟨⟨date, occurs⟩, kept.1, before⟩
      · exact Or.inr ⟨⟨date, occurs⟩, kept.1, after⟩
    · rintro (⟨⟨date, occurs⟩, kept, before⟩ | ⟨⟨date, occurs⟩, kept, after⟩)
      · exact ⟨⟨date, occurs⟩, kept, ((overlaps_split first second occurs).mp (Or.inl before)).1⟩
      · exact ⟨⟨date, occurs⟩, kept, ((overlaps_split first second occurs).mp (Or.inr after)).1⟩

theorem window_expansion_exact {start middle end_ : Int}
    (hasRule : input.recurrenceRule = some recurrenceRule)
    (separates : ∀ clock, input.clock host = some clock → clock.Separates)
    (first : start ≤ middle) (second : middle ≤ end_) :
    ExpandsAdjacent host input recurrenceRule.rule start middle end_ ↔
      Covers host input recurrenceRule.rule start middle ∧
        Covers host input recurrenceRule.rule middle end_ ∧
          Covers host input recurrenceRule.rule start end_ ∧
            NoneAtBoundary host input recurrenceRule.rule start middle end_ := by
  rw [← expandsExactly_iff hasRule separates, ← expandsExactly_iff hasRule separates,
    ← expandsExactly_iff hasRule separates]
  constructor
  · intro adjacent
    obtain ⟨early, isEarly, showsEarly⟩ := adjacent.first
    obtain ⟨late, isLate, showsLate⟩ := adjacent.second
    obtain ⟨both, isBoth, showsBoth⟩ := adjacent.whole
    exact ⟨adjacent.first, adjacent.second, adjacent.whole,
      (union_iff first second showsEarly showsLate showsBoth).mp
        (adjacent.union early late both isEarly isLate isBoth)⟩
  · rintro ⟨isFirst, isSecond, isWhole, none⟩
    refine ⟨isFirst, isSecond, isWhole, fun early late both isEarly isLate isBoth => ?_⟩
    obtain ⟨_, expandedEarly, showsEarly⟩ := isFirst
    obtain ⟨_, expandedLate, showsLate⟩ := isSecond
    obtain ⟨_, expandedBoth, showsBoth⟩ := isWhole
    cases Except.ok.inj (isEarly.symm.trans expandedEarly)
    cases Except.ok.inj (isLate.symm.trans expandedLate)
    cases Except.ok.inj (isBoth.symm.trans expandedBoth)
    exact (union_iff first second showsEarly showsLate showsBoth).mpr none

end RecurrenceExpansionInput

def WallClock.increasing (wall : Int → Int) (wholeSeconds : ∀ instant, wall instant % msPerSecond = 0)
    (near : ∀ instant, instant - 16 * 60 * msPerMinute ≤ wall instant ∧
      wall instant ≤ instant + 16 * 60 * msPerMinute)
    (increases : ∀ early late, early ≤ late → wall early ≤ wall late) : WallClock where
  wall := wall
  wholeSeconds := wholeSeconds
  near := near
  inOrder := by
    intro first second early late isEarly isLate order
    have agrees : ∀ {parts instant : Int}, wallCandidates wall parts = [instant] →
        wall instant = parts := by
      intro parts instant single
      have member : instant ∈ wallCandidates wall parts := by
        rw [single]
        exact List.mem_singleton.mpr rfl
      rw [wallCandidates, List.mem_filter, beq_iff_eq] at member
      exact member.2
    by_contra notEarlier
    have back := increases late early (Int.not_lt.mp notEarlier)
    rw [agrees isEarly, agrees isLate] at back
    omega

theorem WallClock.increasing_separates (wall : Int → Int) (wholeSeconds near)
    (increases : ∀ early late, early ≤ late → wall early ≤ wall late) :
    (WallClock.increasing wall wholeSeconds near increases).Separates := by
  intro parts instant single
  have agrees := RecurrenceExpansionInput.wall_of_candidate single
  rw [← agrees]
  exact ⟨fun earlier order => increases earlier instant order,
    fun later order => increases instant later order⟩

namespace Sample

def newYorkWall (instant : Int) : Int :=
  (instant - (if instant < 1772953200000 then 5 else 4) * 60 * msPerMinute) / msPerSecond *
    msPerSecond

theorem newYorkWall_increases (early late : Int) (order : early ≤ late) :
    newYorkWall early ≤ newYorkWall late := by
  simp only [newYorkWall, msPerMinute, msPerSecond]
  split
  · split
    · omega
    · omega
  · split
    · omega
    · omega

theorem newYorkWall_near (instant : Int) :
    instant - 16 * 60 * msPerMinute ≤ newYorkWall instant ∧
      newYorkWall instant ≤ instant + 16 * 60 * msPerMinute := by
  simp only [newYorkWall, msPerMinute, msPerSecond]
  split
  · omega
  · omega

def newYork : WallClock :=
  .increasing newYorkWall (fun _ => Int.mul_emod_left _ _) newYorkWall_near newYorkWall_increases

def newYorkHost : Host :=
  { Host.daily with
    timeZone := fun name => if name = "America/New_York".toList then some newYork else none }

def daily (duration : Int) : RecurrenceExpansionInput where
  allDay := false
  baseStart := 1772902800000
  duration
  recurrenceRule := some ⟨{ dailyRule with count := some 3 }, rfl, rfl, by decide⟩
  exdates := []
  timezone := "America/New_York".toList

theorem daily_clock (duration : Int) : (daily duration).clock newYorkHost = some newYork := rfl

theorem daily_separates (duration : Int) (clock : WallClock)
    (onClock : (daily duration).clock newYorkHost = some clock) : clock.Separates := by
  cases (daily_clock duration).symm.trans onClock
  exact WallClock.increasing_separates _ _ _ _

theorem newYork_gains (early late : Int) (order : early ≤ late) :
    newYork.wall late - newYork.wall early ≤ late - early + (60 * msPerMinute + msPerSecond) := by
  change newYorkWall late - newYorkWall early ≤ _
  simp only [newYorkWall, msPerMinute, msPerSecond]
  split
  · split
    · omega
    · omega
  · split
    · omega
    · omega

theorem hour_covers {windowStart windowEnd : Int}
    (resolves : (((daily 3600000).scanned newYorkHost { dailyRule with count := some 3 } windowStart
      windowEnd).all fun date =>
        ((daily 3600000).occurrenceOfDate newYorkHost date).toOption.isSome) = true) :
    RecurrenceExpansionInput.Covers newYorkHost (daily 3600000) { dailyRule with count := some 3 }
      windowStart windowEnd := by
  refine RecurrenceExpansionInput.covers_of_short (daily_clock 3600000)
    (WallClock.increasing_separates _ _ _ _) newYork_gains (by decide) fun date scanned => ?_
  obtain ⟨occurrence, made⟩ :=
    Option.isSome_iff_exists.mp (List.all_eq_true.mp resolves date scanned)
  exact ⟨occurrence, RecurrenceExpansionInput.toOption_eq_some.mp made⟩

end Sample

theorem window_expansion_exact_hour :
    RecurrenceExpansionInput.ExpandsAdjacent Sample.newYorkHost (Sample.daily 3600000)
      { dailyRule with count := some 3 } 1772928000000 1773014400000 1773100800000 := by
  refine (@RecurrenceExpansionInput.window_expansion_exact Sample.newYorkHost (Sample.daily 3600000)
    ⟨{ dailyRule with count := some 3 }, rfl, rfl, by decide⟩ _ _ _ rfl
    (Sample.daily_separates 3600000) (by decide) (by decide)).mpr ⟨?_, ?_, ?_, ?_⟩
  · exact Sample.hour_covers (by decide +kernel)
  · exact Sample.hour_covers (by decide +kernel)
  · exact Sample.hour_covers (by decide +kernel)
  · exact RecurrenceExpansionInput.noneAtBoundary_of_lasting rfl (by decide)

/-- A day's event from noon to one o'clock of the day on which the clocks are put forward is not
found from half past twelve on. -/
theorem running_day_missed : ¬ ∀ (host : Host) (input : RecurrenceExpansionInput)
    (recurrenceRule : RecurrenceRule) (start middle end_ : Int),
    input.recurrenceRule = some recurrenceRule →
      (∀ clock, input.clock host = some clock → clock.Separates) → start ≤ middle →
        middle ≤ end_ →
          RecurrenceExpansionInput.ExpandsAdjacent host input recurrenceRule.rule start middle
            end_ := by
  intro always
  have exact_ := (always Sample.newYorkHost (Sample.daily 86400000)
    ⟨{ dailyRule with count := some 3 }, rfl, rfl, by decide⟩ 1772987400000 1772988300000
    1772989200000 rfl (Sample.daily_separates 86400000) (by decide) (by decide)).whole
  obtain ⟨times, expanded, shows⟩ := exact_
  have missing : ((expandCalendarOccurrences Sample.newYorkHost (Sample.daily 86400000)
      1772987400000 1772989200000 none).toOption.any fun times =>
        !times.contains ⟨.instant 1772902800000, false, .instant 1772902800000,
          .instant 1772989200000⟩) = true := by
    decide +kernel
  have isDate : 1772884800000 ∈ ((Sample.daily 86400000).ruleDates Sample.newYorkHost
      { dailyRule with count := some 3 }).upTo 1772884800000 := by
    decide +kernel
  have made : ((Sample.daily 86400000).occurrenceOfDate Sample.newYorkHost
      1772884800000).toOption = some ⟨.instant 1772902800000, false, .instant 1772902800000,
        .instant 1772989200000⟩ := by
    decide +kernel
  have member := (shows.mem_iff _).mpr ⟨⟨1772884800000, isDate,
    RecurrenceExpansionInput.toOption_eq_some.mp made⟩, by decide +kernel, by decide +kernel⟩
  rw [expanded] at missing
  have absent : times.contains ⟨.instant 1772902800000, false, .instant 1772902800000,
      .instant 1772989200000⟩ = false := by
    simpa [Except.toOption] using missing
  rw [List.contains_iff_mem.mpr member] at absent
  cases absent

end Metidos.Calendar
