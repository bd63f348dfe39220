import Mathlib.Data.List.Sort
import Metidos.Library.OrderedMap
import Metidos.Library.JsText
import Metidos.Library.Gregorian

/-!
Executable model of `src/shared/cron-utc.ts`: parsing, formatting and the conversion of a
fixed-offset schedule to UTC.  A string is the list of its characters, and a `Date` is its
day number.  The proofs live in `CronFields`, `CronGroups`, `CronDates` and `CronUtc`.
-/

namespace Metidos.Cron

open JsText Gregorian

inductive CronFieldName
  | minute
  | hour
  | dayOfMonth
  | month
  | dayOfWeek
  deriving DecidableEq

def CronFieldName.text : CronFieldName → String
  | minute => "minute"
  | hour => "hour"
  | dayOfMonth => "dayOfMonth"
  | month => "month"
  | dayOfWeek => "dayOfWeek"

structure ParsedCronField where
  name : CronFieldName
  raw : List Char
  min : Nat
  max : Nat
  values : List Nat
  wildcard : Bool
  deriving DecidableEq

structure ParsedCron where
  raw : List Char
  minute : ParsedCronField
  hour : ParsedCronField
  dayOfMonth : ParsedCronField
  month : ParsedCronField
  dayOfWeek : ParsedCronField
  deriving DecidableEq

/-- `CronParseError` and `CronConversionError`. -/
inductive CronError
  | parse (message : String)
  | conversion (message : String)
  deriving DecidableEq

structure DateSpec where
  dom : List Nat
  month : List Nat
  dow : List Nat
  deriving DecidableEq

abbrev Aliases := List (List Char × Nat)

def monthAliases : Aliases :=
  [("JAN".toList, 1), ("FEB".toList, 2), ("MAR".toList, 3), ("APR".toList, 4),
    ("MAY".toList, 5), ("JUN".toList, 6), ("JUL".toList, 7), ("AUG".toList, 8),
    ("SEP".toList, 9), ("OCT".toList, 10), ("NOV".toList, 11), ("DEC".toList, 12)]

def dowAliases : Aliases :=
  [("SUN".toList, 0), ("MON".toList, 1), ("TUE".toList, 2), ("WED".toList, 3),
    ("THU".toList, 4), ("FRI".toList, 5), ("SAT".toList, 6)]

def range (min max : Nat) : List Nat := List.range' min (max + 1 - min)

def fullMinutes : List Nat := range 0 59
def fullHours : List Nat := range 0 23
def fullDom : List Nat := range 1 31
def fullMonths : List Nat := range 1 12
def fullDow : List Nat := range 0 6

def sortNumbers (values : List Nat) : List Nat := values.insertionSort (· ≤ ·)

def uniqueSorted (values : List Nat) : List Nat := sortNumbers (OrderedSet.ofList values).elements

def quoted (text : List Char) : String := String.ofList (jsonStringify text)

def parseError {α : Type} (message : String) : Except CronError α := .error (.parse message)

def conversionError {α : Type} (message : String) : Except CronError α :=
  .error (.conversion message)

def normalizeDayOfWeek (value : Nat) : Nat := if value = 7 then 0 else value

def parseRawValue (name : CronFieldName) (raw : List Char) (min max : Nat) (aliases : Aliases) :
    Except CronError Nat :=
  let aliased := aliases.lookup (toUpperCase raw)
  let value := aliased <|> (if isDigits raw then some (numberOfDigits raw) else none)
  match value with
  | none => parseError s!"{name.text} field has an invalid value: {quoted raw}"
  | some value =>
    if value < min ∨ value > max then
      parseError s!"{name.text} field value {value} is outside allowed range {min}-{max}"
    else .ok value

def parseValue (name : CronFieldName) (raw : List Char) (min max : Nat) (aliases : Aliases)
    (normalize : Nat → Nat) : Except CronError Nat :=
  (parseRawValue name raw min max aliases).map normalize

def parseStep (name : CronFieldName) (token stepRaw : List Char) : Except CronError Nat :=
  if !isDigits stepRaw then
    parseError s!"{name.text} field has an invalid step value: {quoted token}"
  else
    let step := numberOfDigits stepRaw
    if step = 0 then
      parseError s!"{name.text} field step must be greater than zero: {quoted token}"
    else .ok step

def expandBase (name : CronFieldName) (base : List Char) (min max : Nat) (aliases : Aliases)
    (normalize : Nat → Nat) : Except CronError (List Nat) :=
  if base = ['*'] then .ok (uniqueSorted ((range min max).map normalize))
  else
    match base.splitOn '-' with
    | [value] => do
        let parsed ← parseValue name value min max aliases normalize
        return [parsed]
    | [rangeStart, rangeEnd] =>
      if rangeStart = [] ∨ rangeEnd = [] then
        parseError s!"{name.text} field has an invalid range: {quoted base}"
      else do
        let rawStart ← parseRawValue name rangeStart min max aliases
        let rawEnd ← parseRawValue name rangeEnd min max aliases
        if rawStart > rawEnd then
          parseError
            s!"{name.text} field range start cannot be greater than range end: {quoted base}"
        else return uniqueSorted ((range rawStart rawEnd).map normalize)
    | _ => parseError s!"{name.text} field has an invalid range: {quoted base}"

def everyStep (step : Nat) : Nat → List Nat → List Nat
  | _, [] => []
  | 0, value :: rest => value :: everyStep step (step - 1) rest
  | wait + 1, _ :: rest => everyStep step wait rest

def parseToken (name : CronFieldName) (raw : List Char) (min max : Nat) (aliases : Aliases)
    (normalize : Nat → Nat) (token : List Char) : Except CronError (List Nat) :=
  if token = [] then
    parseError s!"{name.text} field contains an empty list item: {quoted raw}"
  else
    match token.splitOn '/' with
    | [base] => do
        let baseValues ← expandBase name base min max aliases normalize
        return everyStep 1 0 baseValues
    | [base, stepRaw] => do
        let step ← parseStep name token stepRaw
        let baseValues ← expandBase name base min max aliases normalize
        return everyStep step 0 baseValues
    | _ => parseError s!"{name.text} field contains too many '/' separators: {quoted token}"

def parseField (name : CronFieldName) (raw : List Char) (min max : Nat) (aliases : Aliases)
    (normalize : Nat → Nat) : Except CronError ParsedCronField :=
  if trim raw = [] then parseError s!"{name.text} field cannot be empty"
  else do
    let values ← (raw.splitOn ',').foldlM (fun values token => do
      let added ← parseToken name raw min max aliases normalize token
      return values.addAll added) (OrderedSet.empty : OrderedSet Nat)
    let sorted := sortNumbers values.elements
    let full := if name = .dayOfWeek then fullDow else range min max
    return { name, raw, min, max, values := sorted, wildcard := sorted == full }

def parseCron (expression : List Char) : Except CronError ParsedCron :=
  let parts := splitWhiteSpace (trim expression)
  match parts with
  | [minute, hour, dayOfMonth, month, dayOfWeek] => do
      let minute ← parseField .minute minute 0 59 [] id
      let hour ← parseField .hour hour 0 23 [] id
      let dayOfMonth ← parseField .dayOfMonth dayOfMonth 1 31 [] id
      let month ← parseField .month month 1 12 monthAliases id
      let dayOfWeek ← parseField .dayOfWeek dayOfWeek 0 7 dowAliases normalizeDayOfWeek
      return { raw := expression, minute, hour, dayOfMonth, month, dayOfWeek }
  | _ =>
    parseError (s!"Expected a standard 5-field cron expression, got {parts.length} field(s): " ++
      quoted expression)

def formatRun (start prev : Nat) : List Char :=
  if start = prev then stringOfNumber start
  else stringOfNumber start ++ '-' :: stringOfNumber prev

def formatRuns (start prev : Nat) : List Nat → List (List Char)
  | [] => [formatRun start prev]
  | current :: rest =>
    if current = prev + 1 then formatRuns start current rest
    else formatRun start prev :: formatRuns current current rest

def formatValues (values full : List Nat) : List Char :=
  let sorted := uniqueSorted values
  if sorted = full then ['*']
  else
    match sorted with
    | [] => []
    | start :: rest => [','].intercalate (formatRuns start start rest)

def formatFields (minutes hours dom month dow : List Nat) : List Char :=
  [' '].intercalate
    [formatValues minutes fullMinutes, formatValues hours fullHours, formatValues dom fullDom,
      formatValues month fullMonths, formatValues dow fullDow]

def formatCron (cron : ParsedCron) : List Char :=
  formatFields cron.minute.values cron.hour.values cron.dayOfMonth.values cron.month.values
    cron.dayOfWeek.values

def normalizeCron (expression : List Char) : Except CronError (List Char) :=
  (parseCron expression).map formatCron

def floorDiv (value divisor : Int) : Int := value / divisor

def mod (value divisor : Int) : Int := Int.tmod (Int.tmod value divisor + divisor) divisor

structure ShiftedTime where
  hour : Nat
  minute : Nat
  dayDelta : Int
  deriving DecidableEq

def shiftLocalTimeToUtc (hour minute : Nat) (offsetMinutes : Int) : ShiftedTime :=
  let localTotal : Int := hour * 60 + minute
  let utcTotal := localTotal - offsetMinutes
  let normalized := (mod utcTotal 1440).toNat
  { hour := normalized / 60, minute := normalized % 60, dayDelta := floorDiv utcTotal 1440 }

def shiftDayOfWeekSet (values : List Nat) (dayDelta : Int) : List Nat :=
  uniqueSorted (values.map fun value => (mod (value + dayDelta) 7).toNat)

/-- `Date.UTC(year, month - 1, dom)` as a day number: a day past the month's end rolls over. -/
def dateUtc (year : Int) (month dom : Nat) : Int := dayNumber year month dom

def setUtcDate (day value : Int) : Int :=
  dayNumber (civilOfDay day).year (civilOfDay day).month 1 + (value - 1)

def isValidDate (year : Int) (month dom : Nat) : Bool :=
  civilOfDay (dateUtc year month dom) == { year, month, dayOfMonth := dom }

def pairKey (month dom : Nat) : List Char := stringOfNumber month ++ '/' :: stringOfNumber dom

def parsePairKey (pair : List Char) : Except CronError (Nat × Nat) :=
  match (pair.splitOn '/').map numberOfDigits with
  | month :: dom :: _ => .ok (month, dom)
  | _ => conversionError s!"Invalid month/day pair: {String.ofList pair}"

def targetMonthDayPairsForYear (year : Int) (months daysOfMonth : List Nat) (dayDelta : Int) :
    OrderedSet (List Char) :=
  months.foldl (fun out month =>
    daysOfMonth.foldl (fun out dom =>
      if isValidDate year month dom then
        let date := dateUtc year month dom
        let target := civilOfDay (setUtcDate date ((civilOfDay date).dayOfMonth + dayDelta))
        out.add (pairKey target.month target.dayOfMonth)
      else out) out) OrderedSet.empty

def allPossibleValidDaysForMonth (month : Nat) : List Nat :=
  if month = 2 then range 1 29
  else if month ∈ [4, 6, 9, 11] then range 1 30
  else range 1 31

def joinNumbers (values : List Nat) : List Char := [','].intercalate (values.map stringOfNumber)

/-- The members that share one list of values, in the order the lists were first met.  Both
groupings of the source use this loop, keyed by the joined values. -/
def collectByValues (entries : List (Nat × List Nat)) : OrderedMap (List Char) (List Nat × List Nat) :=
  entries.foldl (fun groups entry =>
    groups.upsert (joinNumbers entry.2) (entry.2, []) fun group => (group.1, group.2 ++ [entry.1]))
    OrderedMap.empty

def compareNumberArrays : List Nat → List Nat → Int
  | [], [] => 0
  | [], b => -(b.length : Int)
  | a, [] => a.length
  | a :: as, b :: bs => if a = b then compareNumberArrays as bs else (a : Int) - b

def orElseNumber (first second : Int) : Int := if first = 0 then second else first

def compareDateSpecs (a b : DateSpec) : Int :=
  orElseNumber (compareNumberArrays a.month b.month)
    (orElseNumber (compareNumberArrays a.dom b.dom) (compareNumberArrays a.dow b.dow))

def groupMonthDayPairs (pairs : List (List Char)) : Except CronError (List DateSpec) := do
  let daysByMonth ← pairs.foldlM (fun daysByMonth pair => do
    let (month, dom) ← parsePairKey pair
    return daysByMonth.upsert month OrderedSet.empty (·.add dom))
    (OrderedMap.empty : OrderedMap Nat (OrderedSet Nat))
  let monthsByDomSet := collectByValues (daysByMonth.entries.map fun entry =>
    let dom := sortNumbers entry.2.elements
    (entry.1, if dom == allPossibleValidDaysForMonth entry.1 then fullDom else dom))
  let specs := monthsByDomSet.values.map fun group =>
    ({ dom := group.1, month := sortNumbers group.2, dow := fullDow } : DateSpec)
  return specs.insertionSort fun a b => compareDateSpecs a b ≤ 0

def convertMonthDayPairs (months daysOfMonth : List Nat) (dayDelta : Int) (strict : Bool) :
    Except CronError (List DateSpec) := do
  let commonTargets := targetMonthDayPairsForYear 2021 months daysOfMonth dayDelta
  let leapTargets := targetMonthDayPairsForYear 2020 months daysOfMonth dayDelta
  let union := OrderedSet.ofList (commonTargets.elements ++ leapTargets.elements)
  if strict then
    -- February 29 may differ, since it names no day of a common year.
    forM union.elements fun pair => do
      let (month, dom) ← parsePairKey pair
      if isValidDate 2021 month dom ∧ decide (pair ∈ commonTargets) ≠ decide (pair ∈ leapTargets) then
        conversionError (s!"Cannot exactly represent shifted date {month}/{dom} because it " ++
          "differs between common and leap years.")
      else return ()
  groupMonthDayPairs union.elements

def convertDateSpec (cron : ParsedCron) (dayDelta : Int) (strict : Bool) :
    Except CronError (List DateSpec) :=
  let original : DateSpec :=
    { dom := cron.dayOfMonth.values, month := cron.month.values, dow := cron.dayOfWeek.values }
  if dayDelta = 0 then .ok [original]
  else if !cron.dayOfMonth.wildcard && !cron.dayOfWeek.wildcard then
    if strict then
      conversionError ("Cannot exactly shift a cron expression with both day-of-month and " ++
        "day-of-week restricted when the time crosses a day boundary. Standard cron uses OR " ++
        "semantics for those fields.")
    else .ok [{ original with dow := shiftDayOfWeekSet cron.dayOfWeek.values dayDelta }]
  else if !cron.dayOfWeek.wildcard then
    if !cron.month.wildcard && strict then
      conversionError ("Cannot exactly shift a month-restricted day-of-week schedule across a " ++
        "day boundary with standard 5-field cron.")
    else
      .ok [{ dom := fullDom, month := fullMonths,
             dow := shiftDayOfWeekSet cron.dayOfWeek.values dayDelta }]
  else convertMonthDayPairs cron.month.values cron.dayOfMonth.values dayDelta strict

structure TimeSpec where
  hours : List Nat
  minutes : List Nat
  deriving DecidableEq

def compareTimeSpecs (a b : TimeSpec) : Int :=
  orElseNumber ((a.hours.headD 0 : Int) - b.hours.headD 0)
    ((a.minutes.headD 0 : Int) - b.minutes.headD 0)

def compactTimePairs (pairs : OrderedMap Nat (OrderedSet Nat)) : List TimeSpec :=
  let hoursByMinuteSet := collectByValues (pairs.entries.map fun entry =>
    (entry.1, sortNumbers entry.2.elements))
  let specs := hoursByMinuteSet.values.map fun group =>
    ({ minutes := group.1, hours := sortNumbers group.2 } : TimeSpec)
  specs.insertionSort fun a b => compareTimeSpecs a b ≤ 0

def dateSpecKey (spec : DateSpec) : List Char :=
  joinNumbers spec.dom ++ '|' :: joinNumbers spec.month ++ '|' :: joinNumbers spec.dow

structure Bucket where
  spec : DateSpec
  pairs : OrderedMap Nat (OrderedSet Nat)

abbrev Buckets := OrderedMap (List Char) Bucket

def Bucket.addTime (bucket : Bucket) (hour minute : Nat) : Bucket :=
  { bucket with pairs := bucket.pairs.upsert hour OrderedSet.empty (·.add minute) }

def addPair (shifted : ShiftedTime) (buckets : Buckets) (spec : DateSpec) : Buckets :=
  buckets.upsert (dateSpecKey spec) { spec, pairs := OrderedMap.empty }
    (·.addTime shifted.hour shifted.minute)

section Output

-- Locale-sensitive string comparison, the last tie-breaker of the output order.
variable (localeCompare : List Char → List Char → Int)

/-- The strings compared are results of `formatFields`, which always parse. -/
def compareCronStrings (a b : List Char) : Int :=
  match parseCron a, parseCron b with
  | .ok pa, .ok pb =>
    orElseNumber ((pa.hour.values.headD 0 : Int) - pb.hour.values.headD 0)
      (orElseNumber ((pa.minute.values.headD 0 : Int) - pb.minute.values.headD 0)
        (orElseNumber (compareNumberArrays pa.month.values pb.month.values)
          (orElseNumber (compareNumberArrays pa.dayOfMonth.values pb.dayOfMonth.values)
            (orElseNumber (compareNumberArrays pa.dayOfWeek.values pb.dayOfWeek.values)
              (localeCompare a b)))))
  | _, _ => 0

def bucketSchedules (output : OrderedSet (List Char)) (bucket : Bucket) : OrderedSet (List Char) :=
  (compactTimePairs bucket.pairs).foldl (fun output timeSpec =>
    output.add (formatFields timeSpec.minutes timeSpec.hours bucket.spec.dom bucket.spec.month
      bucket.spec.dow)) output

/-- Convert a fixed-local-offset expression to UTC schedules.  The guard against an offset
that is no integer is the type of `offsetMinutes`; `strict` defaults to true. -/
def cronToUtc (expression : List Char) (offsetMinutes : Int) (strict : Option Bool) :
    Except CronError (List (List Char)) :=
  if offsetMinutes ≤ -1440 ∨ offsetMinutes ≥ 1440 then
    conversionError "offsetMinutes must be greater than -1440 and less than 1440"
  else do
    let strict := strict.getD true
    let cron ← parseCron expression
    let pairsByDateSpec ← cron.hour.values.foldlM (fun buckets localHour =>
      cron.minute.values.foldlM (fun buckets localMinute => do
        let shifted := shiftLocalTimeToUtc localHour localMinute offsetMinutes
        let dateSpecs ← convertDateSpec cron shifted.dayDelta strict
        return dateSpecs.foldl (addPair shifted) buckets) buckets)
      (OrderedMap.empty : Buckets)
    let output := pairsByDateSpec.values.foldl bucketSchedules OrderedSet.empty
    return output.elements.insertionSort fun a b => compareCronStrings localeCompare a b ≤ 0

end Output

def utcMinutes (instant : Int) : Nat := (instant % 60).toNat
def utcHours (instant : Int) : Nat := (instant / 60 % 24).toNat
def utcDay (instant : Int) : Int := instant / 1440

def dayMatches (cron : ParsedCron) (day : Int) : Bool :=
  let domMatches := decide ((civilOfDay day).dayOfMonth ∈ cron.dayOfMonth.values)
  let dowMatches := decide (weekday day ∈ cron.dayOfWeek.values)
  if !cron.dayOfMonth.wildcard && !cron.dayOfWeek.wildcard then domMatches || dowMatches
  else domMatches && dowMatches

def cronMatchesUtcDate (cron : ParsedCron) (instant : Int) : Bool :=
  decide (utcMinutes instant ∈ cron.minute.values) &&
    decide (utcHours instant ∈ cron.hour.values) &&
    decide ((civilOfDay (utcDay instant)).month ∈ cron.month.values) &&
    dayMatches cron (utcDay instant)

end Metidos.Cron
