import Metidos.Library.DateSeries
import Metidos.Library.ExceptRules
import Metidos.Library.JsText

/-!
Dates of the calendar: the texts that stand for them, wall clocks of time zones, and what the
calendar takes from its host (time zone data and the recurrence library).
-/

namespace Metidos.Calendar

abbrev Text := List Char

def msPerSecond : Int := 1000
def msPerMinute : Int := 60 * msPerSecond
def msPerDay : Int := 24 * 60 * msPerMinute

def maxDateMs : Int := 8640000000000000

inductive CalendarError
  | message (text : String)
  | invalidDate
  | dstGap (timezone : Text) (wall : Int)
  | dstAmbiguous (timezone : Text) (wall : Int)
  | occurrenceLimit (maxOccurrences : Nat)
  | eventChanged
  deriving DecidableEq

/-- A text that stands for a date: one that `toISOString` writes, a plain `YYYY-MM-DD`, or any
other with what `new Date` makes of it, alone and with a midnight time appended. -/
inductive DateText
  | instant (ms : Int)
  | day (number : Int)
  | other (text : Text) (date : Option Int) (midnight : Option Int)
  deriving DecidableEq

namespace DateText

def isEmpty : DateText → Bool
  | other text _ _ => text.isEmpty
  | _ => false

def parseDate : DateText → Option Int
  | instant ms => some ms
  | day number => some (number * msPerDay)
  | other _ date _ => date

def parseMidnight : DateText → Option Int
  | instant _ => none
  | day number => some (number * msPerDay)
  | other _ _ midnight => midnight

def parseStrict : DateText → Option Int
  | day number => some (number * msPerDay)
  | _ => none

def moment (allDay : Bool) (text : DateText) : Option Int :=
  if allDay then text.parseMidnight else text.parseDate

end DateText

def parseIsoDate (value : DateText) : Except CalendarError Int :=
  match value.parseDate with
  | some ms => .ok ms
  | none => .error (.message "Invalid date value")

def parseAllDayDate (value : DateText) : Except CalendarError Int :=
  match value.parseMidnight with
  | some ms => .ok ms
  | none => .error (.message "Invalid all-day date value")

def isValidDate (ms : Int) : Bool := -maxDateMs ≤ ms && ms ≤ maxDateMs

def toISOString (ms : Int) : Except CalendarError DateText :=
  if isValidDate ms then .ok (.instant ms) else .error .invalidDate

def formatDateOnly (ms : Int) : Except CalendarError DateText :=
  if isValidDate ms then .ok (.day (ms / msPerDay)) else .error .invalidDate

/-- The instants that `localWallTimeToUtc` finds for a wall time: the offsets a day around it are
tried, and kept where the clock agrees. -/
def wallCandidates (wall : Int → Int) (parts : Int) : List Int :=
  let offsets := ([parts, parts - msPerDay, parts + msPerDay].map fun date => wall date - date)
  (offsets.eraseDups.map fun offset => parts - offset).filter fun candidate =>
    wall candidate == parts

/-- A time zone: the wall time of each instant in whole seconds, as if it were UTC. -/
structure WallClock where
  wall : Int → Int
  wholeSeconds : ∀ instant, wall instant % msPerSecond = 0
  near : ∀ instant, instant - 16 * 60 * msPerMinute ≤ wall instant ∧
    wall instant ≤ instant + 16 * 60 * msPerMinute
  /-- Wall times with a single instant come in the order of their instants. -/
  inOrder : ∀ {first second early late : Int}, wallCandidates wall first = [early] →
    wallCandidates wall second = [late] → first < second → early < late

def localWallTimeToUtc (clock : WallClock) (timezone : Text) (parts : Int) :
    Except CalendarError Int :=
  match wallCandidates clock.wall parts with
  | [] => .error (.dstGap timezone parts)
  | [candidate] => .ok candidate
  | _ => .error (.dstAmbiguous timezone parts)

/-- The options of a recurrence rule; `options` holds all but the named ones. -/
structure RRule where
  frequency : String
  bySecondOrMinute : Bool
  options : Text
  count : Option Nat
  until_ : Option Int
  deriving DecidableEq

def unsupportedDenseRecurrenceFrequencies : List String := ["SECONDLY", "MINUTELY", "HOURLY"]

def isDense (frequency : String) : Bool := unsupportedDenseRecurrenceFrequencies.contains frequency

def startOfDay (ms : Int) : Int := ms / msPerDay * msPerDay

/-- What the calendar takes from `Intl` and from the `rrule` package.  `dates` enumerates a rule
from its `dtstart` without its `count` and `until_`; `textLe` compares texts by code units, and
`sortsBefore` start texts and then titles by locale. -/
structure Host where
  timeZone : Text → Option WallClock
  rrulestr : Text → Except String RRule
  dates : RRule → Int → DateSeries
  textLe : DateText → DateText → Bool
  sortsBefore : DateText × Text → DateText × Text → Bool
  /-- Bounds do not take part in the enumeration. -/
  dates_bounds : ∀ rule start count until_,
    dates { rule with count := count, until_ := until_ } start = dates rule start
  dates_start : ∀ {rule start date}, date ∈ dates rule start → start ≤ date
  /-- A rule of days or longer restarts at one of its dates, and on the day of one of its dates
  at the time of day of the first start. -/
  dates_restart : ∀ {rule start date low}, isDense rule.frequency = false →
    date ∈ dates rule start →
    (low = date ∨ low ≤ date ∧ startOfDay low = startOfDay date ∧
      low % msPerDay = start % msPerDay) →
    ∀ later, later ∈ dates rule low ↔ later ∈ dates rule start ∧ low ≤ later
  textLe_instant : ∀ first second,
    textLe (.instant first) (.instant second) = decide (first ≤ second)
  textLe_day : ∀ first second, textLe (.day first) (.day second) = decide (first ≤ second)

/-- `validTimezone` together with the comparison with `UTC`: no clock stands for UTC. -/
def Host.clockOf (host : Host) (timezone : Text) : Option WallClock :=
  let trimmed := JsText.trim timezone
  if trimmed.isEmpty || trimmed == "UTC".toList then none else host.timeZone trimmed

def WallClock.fixed (offset : Int) (whole : offset % msPerSecond = 0)
    (small : -(15 * 60 * msPerMinute) ≤ offset ∧ offset ≤ 16 * 60 * msPerMinute) :
    WallClock where
  wall := fun instant => (instant + offset) / msPerSecond * msPerSecond
  wholeSeconds := fun instant => by simp
  near := fun instant => by
    simp only [msPerMinute, msPerSecond] at *
    omega
  inOrder := by
    intro first second early late firstFound secondFound order
    have agrees : ∀ {parts candidate : Int},
        wallCandidates (fun instant => (instant + offset) / msPerSecond * msPerSecond) parts =
          [candidate] → (candidate + offset) / msPerSecond * msPerSecond = parts := by
      intro parts candidate found
      have member : candidate ∈ wallCandidates
          (fun instant => (instant + offset) / msPerSecond * msPerSecond) parts := by
        rw [found]
        exact List.mem_singleton.mpr rfl
      simp only [wallCandidates, List.mem_filter, beq_iff_eq] at member
      exact member.2
    have firstAgrees := agrees firstFound
    have secondAgrees := agrees secondFound
    simp only [msPerSecond] at firstAgrees secondAgrees
    omega

def dailyRule : RRule := ⟨"DAILY", false, [], none, none⟩

def hourlyRule : RRule := ⟨"HOURLY", false, [], none, none⟩

def knownRules : List (Text × RRule) :=
  [("FREQ=DAILY".toList, dailyRule), ("RRULE:FREQ=DAILY".toList, dailyRule),
    ("FREQ=DAILY;COUNT=3".toList, { dailyRule with count := some 3 }),
    ("FREQ=HOURLY".toList, hourlyRule)]

theorem msPerDay_pos : 0 < msPerDay := by decide

@[grind =] def RRule.step (rule : RRule) : Int :=
  if rule.frequency = "HOURLY" then 60 * msPerMinute else msPerDay

theorem RRule.step_pos (rule : RRule) : 0 < rule.step := by
  rw [step]
  split <;> decide

theorem RRule.step_of_sparse {rule : RRule} (sparse : isDense rule.frequency = false) :
    rule.step = msPerDay := by
  rw [step, if_neg]
  intro hourly
  rw [hourly] at sparse
  exact absurd sparse (by decide)

def Host.daily : Host where
  timeZone := fun name =>
    if name = "Etc/GMT+5".toList then
      some (.fixed (-(5 * 60 * msPerMinute)) (by decide) (by decide))
    else none
  rrulestr := fun text =>
    match knownRules.lookup text with
    | some rule => .ok rule
    | none => .error "Unknown RRULE"
  dates := fun rule start => .every start rule.step rule.step_pos
  textLe := fun first second =>
    match first, second with
    | .instant first, .instant second => first ≤ second
    | .day first, .day second => first ≤ second
    | _, _ => false
  sortsBefore := fun _ _ => true
  dates_bounds := fun _ _ _ _ => rfl
  dates_start := by
    intro rule start date member
    obtain ⟨index, rfl⟩ := (DateSeries.mem_every rule.step_pos).mp member
    have := Int.mul_nonneg (Int.natCast_nonneg index) (Int.le_of_lt rule.step_pos)
    omega
  dates_restart := by
    intro rule start date low sparse member place later
    simp only [DateSeries.mem_every, RRule.step_of_sparse sparse] at member ⊢
    obtain ⟨index, rfl⟩ := member
    have same : low = start + index * msPerDay := by
      rcases place with same | ⟨_, day, time⟩
      · exact same
      · simp only [startOfDay, msPerDay, msPerMinute, msPerSecond] at *
        omega
    subst same
    simp only [msPerDay, msPerMinute, msPerSecond]
    constructor
    · rintro ⟨count, rfl⟩
      exact ⟨⟨index + count, by push_cast; omega⟩, by omega⟩
    · rintro ⟨⟨count, rfl⟩, after⟩
      exact ⟨count - index, by omega⟩
  textLe_instant := fun _ _ => rfl
  textLe_day := fun _ _ => rfl

end Metidos.Calendar

/-!
Executable model of `src/bun/calendar/recurrence.ts`: validation, expansion over a window,
truncation and the recount of a split rule.
-/

namespace Metidos.Calendar

def maxSplitCountScan : Nat := 10000
def maxRecurrenceRuleCount : Nat := 10000

structure RecurrenceRule where
  rule : RRule
  sparse : isDense rule.frequency = false
  minutesFixed : rule.bySecondOrMinute = false
  countBounded : ∀ count ∈ rule.count, count ≤ maxRecurrenceRuleCount
  deriving DecidableEq

def splitLines (text : Text) : List Text := text.splitOn '\n'

def startsWithDtstart (line : Text) : Bool :=
  (JsText.toUpperCase (line.take 7)).take 7 == "DTSTART".toList

def upperRRulePrefix (text : Text) : Text :=
  if (JsText.toUpperCase (text.take 6)) == "RRULE:".toList then "RRULE:".toList ++ text.drop 6
  else text

def normalizeRRule (rule : Text) : Text :=
  let lines := ((splitLines rule).map JsText.trim).filter fun line =>
    !line.isEmpty && !startsWithDtstart line
  upperRRulePrefix (['\n'].intercalate lines)

def validateRRuleString (host : Host) (rule : Option Text) :
    Except CalendarError (Option RecurrenceRule) :=
  match rule.map JsText.trim with
  | none | some [] => .ok none
  | some trimmed =>
    match host.rrulestr (normalizeRRule trimmed) with
    | .error text => .error (.message ("Invalid recurrence rule: " ++ text))
    | .ok parsed =>
      if sparse : isDense parsed.frequency = false then
        if minutesFixed : parsed.bySecondOrMinute = false then
          if bounded : ∀ count ∈ parsed.count, count ≤ maxRecurrenceRuleCount then
            .ok (some ⟨parsed, sparse, minutesFixed, bounded⟩)
          else .error (.message "Invalid recurrence rule: COUNT must be at most 10000.")
        else .error (.message ("Invalid recurrence rule: BYSECOND and BYMINUTE are too dense " ++
          "for calendar expansion."))
      else .error (.message ("Invalid recurrence rule: FREQ=" ++ parsed.frequency ++
        " is too dense for calendar expansion."))

structure OccurrenceTime where
  allDay : Bool
  startText : DateText
  endText : DateText
  deriving DecidableEq

def OccurrenceTime.start (time : OccurrenceTime) : Option Int := time.startText.moment time.allDay

def OccurrenceTime.end_ (time : OccurrenceTime) : Option Int := time.endText.moment time.allDay

def OccurrenceTime.overlaps (time : OccurrenceTime) (windowStart windowEnd : Int) : Bool :=
  match time.start, time.end_ with
  | some start, some end_ => windowStart < end_ && start < windowEnd
  | _, _ => false

structure ExpandedOccurrenceTime where
  originalStart : DateText
  time : OccurrenceTime
  deriving DecidableEq

/-- `RecurrenceExpansionInput` with `baseStartDate` and `occurrenceDurationMs` worked out. -/
structure RecurrenceExpansionInput where
  allDay : Bool
  baseStart : Int
  duration : Int
  recurrenceRule : Option RecurrenceRule
  exdates : List DateText
  timezone : Text
  deriving DecidableEq

namespace RecurrenceExpansionInput

def occurrenceFromStart (input : RecurrenceExpansionInput) (start : Int) :
    Except CalendarError ExpandedOccurrenceTime := do
  if input.allDay then
    let originalStart ← formatDateOnly start
    let endDate ← formatDateOnly (start + input.duration)
    pure ⟨originalStart, true, originalStart, endDate⟩
  else
    let startAt ← toISOString start
    let endAt ← toISOString (start + input.duration)
    pure ⟨startAt, false, startAt, endAt⟩

def clock (input : RecurrenceExpansionInput) (host : Host) : Option WallClock :=
  if input.allDay then none else host.clockOf input.timezone

def floating (input : RecurrenceExpansionInput) (host : Host) (instant : Int) : Int :=
  match input.clock host with
  | none => instant
  | some clock => clock.wall instant

def occurrenceOfDate (input : RecurrenceExpansionInput) (host : Host) (date : Int) :
    Except CalendarError ExpandedOccurrenceTime :=
  match input.clock host with
  | none => input.occurrenceFromStart date
  | some clock => do
      input.occurrenceFromStart (← localWallTimeToUtc clock (JsText.trim input.timezone) date)

def ruleDates (input : RecurrenceExpansionInput) (host : Host) (rule : RRule) : DateSeries :=
  (host.dates rule (input.floating host input.baseStart)).cut rule.count rule.until_

def lookBack (input : RecurrenceExpansionInput) : Int := max msPerDay input.duration

def scanned (input : RecurrenceExpansionInput) (host : Host) (rule : RRule)
    (windowStart windowEnd : Int) : List Int :=
  (input.ruleDates host rule).between (input.floating host windowStart - input.lookBack)
    (input.floating host windowEnd)

end RecurrenceExpansionInput

def enforceExpandedOccurrenceLimit {α : Type} (occurrences : List α)
    (maxOccurrences : Option Nat) : Except CalendarError (List α) :=
  match maxOccurrences with
  | none => .ok occurrences
  | some maxOccurrences =>
    if occurrences.length > maxOccurrences then .error (.occurrenceLimit maxOccurrences)
    else .ok occurrences

def isShown (exdates : List DateText) (windowStart windowEnd : Int)
    (occurrence : ExpandedOccurrenceTime) : Bool :=
  !exdates.contains occurrence.originalStart && occurrence.time.overlaps windowStart windowEnd

def expandCalendarOccurrences (host : Host) (input : RecurrenceExpansionInput)
    (windowStart windowEnd : Int) (maxOccurrences : Option Nat) :
    Except CalendarError (List ExpandedOccurrenceTime) :=
  match input.recurrenceRule with
  | none => do
      let occurrence ← input.occurrenceFromStart input.baseStart
      -- Neither the excluded dates nor the limit are looked at for a single event.
      pure (if occurrence.time.overlaps windowStart windowEnd then [occurrence] else [])
  | some recurrenceRule => do
      let dates := input.scanned host recurrenceRule.rule windowStart windowEnd
      let between ← dates.mapM (input.occurrenceOfDate host)
      enforceExpandedOccurrenceLimit
        (between.filter (isShown input.exdates windowStart windowEnd)) maxOccurrences

def RecurrenceRule.withBounds (recurrenceRule : RecurrenceRule) (count : Option Nat)
    (until_ : Option Int) (bounded : ∀ limit ∈ count, limit ≤ maxRecurrenceRuleCount) :
    RecurrenceRule :=
  ⟨{ recurrenceRule.rule with count := count, until_ := until_ }, recurrenceRule.sparse,
    recurrenceRule.minutesFixed, bounded⟩

/-- The last instant that the text of a truncated rule allows; `UNTIL` holds whole seconds. -/
def untilBefore (occurrence : Int) (allDay : Bool) : Int :=
  if allDay then (occurrence - msPerDay) / msPerSecond * msPerSecond
  else (occurrence - 1000) / msPerSecond * msPerSecond

def truncateRRuleBeforeOccurrence (recurrenceRule : RecurrenceRule) (occurrenceStart : DateText)
    (allDay : Bool) : Except CalendarError RecurrenceRule := do
  let occurrence ← if allDay then parseAllDayDate occurrenceStart else parseIsoDate occurrenceStart
  pure (recurrenceRule.withBounds none (some (untilBefore occurrence allDay)) (by simp))

def scanBeforeSplit (host : Host) (splitStart : DateText) (allDay : Bool) :
    List Int → Nat → Nat → Except CalendarError (Nat × Bool)
  | [], _, before => .ok (before, false)
  | date :: rest, scanned, before =>
    if scanned + 1 > maxSplitCountScan then
      .error (.message ("Refusing to scan more than 10000 occurrences while splitting " ++
        "recurrence count."))
    else do
      let start ← if allDay then formatDateOnly date else toISOString date
      if host.textLe splitStart start then pure (before, true)
      else scanBeforeSplit host splitStart allDay rest (scanned + 1) (before + 1)

def datesThrough (series : DateSeries) (instant : Int) : List Int :=
  series.upTo (instant - 1) ++ (series.firstFrom instant).toList

def RecurrenceRule.remainder (recurrenceRule : RecurrenceRule) {originalCount : Nat}
    (counted : recurrenceRule.rule.count = some originalCount) (before : Nat) : RecurrenceRule :=
  recurrenceRule.withBounds (some (originalCount - before)) none (by
    intro limit is
    obtain rfl := Option.some.inj is
    exact Nat.le_trans (Nat.sub_le _ _) (recurrenceRule.countBounded originalCount counted))

def adjustRRuleCountAfterSplit (host : Host) (recurrenceRule : RecurrenceRule)
    (originalStart splitStart : DateText) (allDay : Bool) :
    Except CalendarError (Option RecurrenceRule) := do
  let dtstart ← if allDay then parseAllDayDate originalStart else parseIsoDate originalStart
  match counted : recurrenceRule.rule.count with
  | none | some 0 => pure (some recurrenceRule)
  | some originalCount =>
    let series :=
      (host.dates recurrenceRule.rule dtstart).cut (some originalCount) recurrenceRule.rule.until_
    let split ← if allDay then parseAllDayDate splitStart else parseIsoDate splitStart
    let (before, foundSplitStart) ←
      scanBeforeSplit host splitStart allDay (datesThrough series split) 0 0
    if foundSplitStart && originalCount - before > 0 then
      pure (some (recurrenceRule.remainder counted before))
    else pure none

end Metidos.Calendar
