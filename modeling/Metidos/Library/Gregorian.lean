import Mathlib.Data.Int.Basic
import Mathlib.Tactic.IntervalCases

/-!
The proleptic Gregorian calendar on day numbers counted from 1 January 1970, for every
integer day and year.  `dayNumber` and `civilOfDay` are inverse to each other on the valid
dates, and the date of the following day is the calendar successor.
-/

namespace Gregorian

structure CivilDate where
  year : Int
  month : Nat
  dayOfMonth : Nat
  deriving DecidableEq

def isLeapYear (year : Int) : Bool := year % 4 == 0 && (year % 100 != 0 || year % 400 == 0)

def daysInYear (year : Int) : Nat := if isLeapYear year then 366 else 365

def daysInMonth (leap : Bool) (month : Nat) : Nat :=
  if month = 2 then (if leap then 29 else 28)
  else if month = 4 ∨ month = 6 ∨ month = 9 ∨ month = 11 then 30
  else 31

def daysBeforeMonth (leap : Bool) : Nat → Nat
  | 0 => 0
  | 1 => 0
  | month + 1 => daysBeforeMonth leap month + daysInMonth leap month

def dayFromYear (year : Int) : Int :=
  365 * (year - 1970) + (year - 1969) / 4 - (year - 1901) / 100 + (year - 1601) / 400

/-- The largest year that does not start after the day: an estimate from the mean length of a
year, corrected by one. -/
def yearOfDay (day : Int) : Int :=
  let estimate := 1970 + (400 * day) / 146097
  if day < dayFromYear estimate then estimate - 1
  else if dayFromYear (estimate + 1) ≤ day then estimate + 1
  else estimate

def monthOfYearDay (leap : Bool) (yearDay : Nat) : Nat → Nat
  | 0 => 0
  | month + 1 =>
    if daysBeforeMonth leap (month + 1) ≤ yearDay then month + 1
    else monthOfYearDay leap yearDay month

def dayNumber (year : Int) (month dayOfMonth : Nat) : Int :=
  dayFromYear year + daysBeforeMonth (isLeapYear year) month + dayOfMonth - 1

def civilOfDay (day : Int) : CivilDate :=
  let year := yearOfDay day
  let leap := isLeapYear year
  let yearDay := (day - dayFromYear year).toNat
  let month := monthOfYearDay leap yearDay 12
  { year, month, dayOfMonth := yearDay - daysBeforeMonth leap month + 1 }

def weekday (day : Int) : Nat := ((day + 4) % 7).toNat

structure ValidMonthDay (leap : Bool) (month dayOfMonth : Nat) : Prop where
  monthLow : 1 ≤ month
  monthHigh : month ≤ 12
  dayLow : 1 ≤ dayOfMonth
  dayHigh : dayOfMonth ≤ daysInMonth leap month

instance (leap : Bool) (month dayOfMonth : Nat) : Decidable (ValidMonthDay leap month dayOfMonth) :=
  decidable_of_iff (1 ≤ month ∧ month ≤ 12 ∧ 1 ≤ dayOfMonth ∧ dayOfMonth ≤ daysInMonth leap month)
    ⟨fun facts => ⟨facts.1, facts.2.1, facts.2.2.1, facts.2.2.2⟩,
      fun valid => ⟨valid.1, valid.2, valid.3, valid.4⟩⟩

theorem isLeapYear_iff (year : Int) :
    isLeapYear year = true ↔ year % 4 = 0 ∧ (year % 100 ≠ 0 ∨ year % 400 = 0) := by
  simp [isLeapYear]

theorem dayFromYear_succ (year : Int) :
    dayFromYear (year + 1) = dayFromYear year + daysInYear year := by
  by_cases leap : isLeapYear year = true
  · rw [daysInYear, if_pos leap]
    rw [isLeapYear_iff] at leap
    simp only [dayFromYear]
    omega
  · rw [daysInYear, if_neg leap]
    rw [isLeapYear_iff] at leap
    simp only [dayFromYear]
    omega

theorem dayFromYear_add (year : Int) (count : Nat) :
    dayFromYear year + 365 * count ≤ dayFromYear (year + count) := by
  induction count with
  | zero => simp
  | succ count ih =>
    have step := dayFromYear_succ (year + count)
    have long : 365 ≤ daysInYear (year + count) := by
      rw [daysInYear]
      split <;> decide
    rw [show year + ((count + 1 : Nat) : Int) = year + count + 1 by omega]
    omega

theorem dayFromYear_mono {first second : Int} (order : first ≤ second) :
    dayFromYear first ≤ dayFromYear second := by
  obtain ⟨count, equal⟩ := Int.le.dest order
  have bound := dayFromYear_add first count
  rw [equal] at bound
  omega

theorem yearOfDay_spec (day : Int) :
    dayFromYear (yearOfDay day) ≤ day ∧ day < dayFromYear (yearOfDay day + 1) := by
  have early : dayFromYear (1970 + (400 * day) / 146097 - 1) ≤ day := by
    simp only [dayFromYear]
    omega
  have late : day < dayFromYear (1970 + (400 * day) / 146097 + 1 + 1) := by
    simp only [dayFromYear]
    omega
  simp only [yearOfDay]
  split
  · rename_i before
    refine ⟨early, ?_⟩
    rw [Int.sub_add_cancel]
    exact before
  · rename_i reached
    split
    · rename_i after
      exact ⟨after, late⟩
    · rename_i within
      exact ⟨by omega, by omega⟩

theorem yearOfDay_unique {day year : Int} (low : dayFromYear year ≤ day)
    (high : day < dayFromYear (year + 1)) : yearOfDay day = year := by
  have spec := yearOfDay_spec day
  rcases Int.lt_trichotomy (yearOfDay day) year with smaller | equal | larger
  · have order := dayFromYear_mono (show yearOfDay day + 1 ≤ year by omega)
    omega
  · exact equal
  · have order := dayFromYear_mono (show year + 1 ≤ yearOfDay day by omega)
    omega

theorem daysBeforeMonth_succ (leap : Bool) {month : Nat} (low : 1 ≤ month) :
    daysBeforeMonth leap (month + 1) = daysBeforeMonth leap month + daysInMonth leap month := by
  obtain ⟨previous, rfl⟩ : ∃ previous, month = previous + 1 := ⟨month - 1, by omega⟩
  rfl

theorem daysBeforeMonth_thirteen (year : Int) :
    daysBeforeMonth (isLeapYear year) 13 = daysInYear year := by
  rw [daysInYear]
  cases isLeapYear year <;> rfl

theorem daysInMonth_pos (leap : Bool) (month : Nat) : 28 ≤ daysInMonth leap month := by
  rw [daysInMonth]
  split
  · cases leap <;> decide
  · split <;> decide

theorem daysInMonth_le (leap : Bool) (month : Nat) : daysInMonth leap month ≤ 31 := by
  rw [daysInMonth]
  split
  · cases leap <;> decide
  · split <;> decide

theorem daysBeforeMonth_mono (leap : Bool) {first second : Nat} (low : 1 ≤ first)
    (order : first ≤ second) : daysBeforeMonth leap first ≤ daysBeforeMonth leap second := by
  induction order with
  | refl => exact Nat.le_refl _
  | step order ih =>
    rw [Nat.succ_eq_add_one, daysBeforeMonth_succ leap (Nat.le_trans low order)]
    omega

theorem monthOfYearDay_spec (leap : Bool) (yearDay bound : Nat) (low : 1 ≤ bound) :
    1 ≤ monthOfYearDay leap yearDay bound ∧ monthOfYearDay leap yearDay bound ≤ bound ∧
      daysBeforeMonth leap (monthOfYearDay leap yearDay bound) ≤ yearDay ∧
      (monthOfYearDay leap yearDay bound < bound →
        yearDay < daysBeforeMonth leap (monthOfYearDay leap yearDay bound + 1)) := by
  induction bound with
  | zero => omega
  | succ bound ih =>
    rw [monthOfYearDay]
    split
    · rename_i reached
      exact ⟨by omega, Nat.le_refl _, reached, fun smaller => absurd smaller (Nat.lt_irrefl _)⟩
    · rename_i missed
      by_cases first : bound = 0
      · subst first
        exact absurd (Nat.zero_le yearDay) missed
      · have facts := ih (by omega)
        refine ⟨facts.1, by omega, facts.2.2.1, ?_⟩
        intro smaller
        by_cases equal : monthOfYearDay leap yearDay bound = bound
        · rw [equal]
          omega
        · exact facts.2.2.2 (by omega)

theorem monthOfYearDay_unique (leap : Bool) {yearDay month : Nat} (low : 1 ≤ month)
    (high : month ≤ 12) (from_ : daysBeforeMonth leap month ≤ yearDay)
    (to_ : yearDay < daysBeforeMonth leap (month + 1)) : monthOfYearDay leap yearDay 12 = month := by
  have spec := monthOfYearDay_spec leap yearDay 12 (by decide)
  rcases Nat.lt_trichotomy (monthOfYearDay leap yearDay 12) month with smaller | equal | larger
  · have order := daysBeforeMonth_mono leap (by omega)
      (show monthOfYearDay leap yearDay 12 + 1 ≤ month by omega)
    have upper := spec.2.2.2 (by omega)
    omega
  · exact equal
  · have order := daysBeforeMonth_mono leap (by omega)
      (show month + 1 ≤ monthOfYearDay leap yearDay 12 by omega)
    omega

theorem dayNumber_bounds {year : Int} {month dayOfMonth : Nat}
    (valid : ValidMonthDay (isLeapYear year) month dayOfMonth) :
    dayFromYear year ≤ dayNumber year month dayOfMonth ∧
      dayNumber year month dayOfMonth < dayFromYear (year + 1) := by
  have low := valid.dayLow
  have high := valid.dayHigh
  have next := daysBeforeMonth_succ (isLeapYear year) valid.monthLow
  have order : daysBeforeMonth (isLeapYear year) (month + 1) ≤
      daysBeforeMonth (isLeapYear year) 13 := daysBeforeMonth_mono (isLeapYear year) (by omega)
    (by have := valid.monthHigh; omega)
  rw [daysBeforeMonth_thirteen] at order
  have years := dayFromYear_succ year
  simp only [dayNumber]
  omega

@[simp] theorem civilOfDay_dayNumber {year : Int} {month dayOfMonth : Nat}
    (valid : ValidMonthDay (isLeapYear year) month dayOfMonth) :
    civilOfDay (dayNumber year month dayOfMonth) = { year, month, dayOfMonth } := by
  have bounds := dayNumber_bounds valid
  have yearEq : yearOfDay (dayNumber year month dayOfMonth) = year :=
    yearOfDay_unique bounds.1 bounds.2
  have low := valid.dayLow
  have high := valid.dayHigh
  have yearDayEq : (dayNumber year month dayOfMonth - dayFromYear year).toNat =
      daysBeforeMonth (isLeapYear year) month + dayOfMonth - 1 := by
    simp only [dayNumber]
    omega
  have next := daysBeforeMonth_succ (isLeapYear year) valid.monthLow
  have monthEq : monthOfYearDay (isLeapYear year)
      (daysBeforeMonth (isLeapYear year) month + dayOfMonth - 1) 12 = month :=
    monthOfYearDay_unique _ valid.monthLow valid.monthHigh (by omega) (by omega)
  simp only [civilOfDay, yearEq, yearDayEq, monthEq, CivilDate.mk.injEq, true_and]
  omega

theorem civilOfDay_valid (day : Int) :
    ValidMonthDay (isLeapYear (civilOfDay day).year) (civilOfDay day).month
      (civilOfDay day).dayOfMonth := by
  have years := yearOfDay_spec day
  have length := dayFromYear_succ (yearOfDay day)
  have spec := monthOfYearDay_spec (isLeapYear (yearOfDay day))
    (day - dayFromYear (yearOfDay day)).toNat 12 (by decide)
  have last := daysBeforeMonth_thirteen (yearOfDay day)
  have next := daysBeforeMonth_succ (isLeapYear (yearOfDay day)) spec.1
  refine ⟨spec.1, spec.2.1, by simp [civilOfDay], ?_⟩
  simp only [civilOfDay]
  by_cases december : monthOfYearDay (isLeapYear (yearOfDay day))
      (day - dayFromYear (yearOfDay day)).toNat 12 = 12
  · rw [december] at next spec ⊢
    rw [last] at next
    omega
  · have upper := spec.2.2.2 (by omega)
    omega

@[simp] theorem dayNumber_civilOfDay (day : Int) :
    dayNumber (civilOfDay day).year (civilOfDay day).month (civilOfDay day).dayOfMonth = day := by
  have years := yearOfDay_spec day
  have spec := monthOfYearDay_spec (isLeapYear (yearOfDay day))
    (day - dayFromYear (yearOfDay day)).toNat 12 (by decide)
  simp only [dayNumber, civilOfDay]
  omega

def nextDate (date : CivilDate) : CivilDate :=
  if date.dayOfMonth < daysInMonth (isLeapYear date.year) date.month then
    { date with dayOfMonth := date.dayOfMonth + 1 }
  else if date.month < 12 then { date with month := date.month + 1, dayOfMonth := 1 }
  else { year := date.year + 1, month := 1, dayOfMonth := 1 }

theorem nextDate_valid {date : CivilDate}
    (valid : ValidMonthDay (isLeapYear date.year) date.month date.dayOfMonth) :
    ValidMonthDay (isLeapYear (nextDate date).year) (nextDate date).month
      (nextDate date).dayOfMonth := by
  obtain ⟨monthLow, monthHigh, dayLow, dayHigh⟩ := valid
  simp only [nextDate]
  split
  · rename_i inside
    exact ⟨monthLow, monthHigh, by simp, inside⟩
  · split
    · rename_i early
      have long := daysInMonth_pos (isLeapYear date.year) (date.month + 1)
      exact ⟨by simp, early, Nat.le_refl _, by simp only; omega⟩
    · have long := daysInMonth_pos (isLeapYear (date.year + 1)) 1
      exact ⟨Nat.le_refl _, by simp, Nat.le_refl _, by simp only; omega⟩

theorem dayNumber_nextDate {date : CivilDate}
    (valid : ValidMonthDay (isLeapYear date.year) date.month date.dayOfMonth) :
    dayNumber (nextDate date).year (nextDate date).month (nextDate date).dayOfMonth =
      dayNumber date.year date.month date.dayOfMonth + 1 := by
  have low := valid.dayLow
  have high := valid.dayHigh
  have next := daysBeforeMonth_succ (isLeapYear date.year) valid.monthLow
  simp only [nextDate]
  split
  · simp only [dayNumber]
    omega
  · split
    · simp only [dayNumber]
      omega
    · have december : date.month = 12 := by
        have := valid.monthHigh
        omega
      have years := dayFromYear_succ date.year
      have length := daysBeforeMonth_thirteen date.year
      rw [december] at next high ⊢
      rw [length] at next
      have start : daysBeforeMonth (isLeapYear (date.year + 1)) 1 = 0 := rfl
      simp only [dayNumber, start]
      rename_i lastDay _
      rw [december] at lastDay
      omega

theorem civilOfDay_succ (day : Int) : civilOfDay (day + 1) = nextDate (civilOfDay day) := by
  have valid := civilOfDay_valid day
  have number := dayNumber_nextDate valid
  rw [dayNumber_civilOfDay] at number
  rw [← number, civilOfDay_dayNumber (nextDate_valid valid)]

def monthDay (day : Int) : Nat × Nat := ((civilOfDay day).month, (civilOfDay day).dayOfMonth)

def nextMonthDay (leap : Bool) (date : Nat × Nat) : Nat × Nat :=
  if date.2 < daysInMonth leap date.1 then (date.1, date.2 + 1)
  else if date.1 < 12 then (date.1 + 1, 1)
  else (1, 1)

def previousMonthDay (leap : Bool) (date : Nat × Nat) : Nat × Nat :=
  if 1 < date.2 then (date.1, date.2 - 1)
  else if 1 < date.1 then (date.1 - 1, daysInMonth leap (date.1 - 1))
  else (12, 31)

theorem monthDay_succ (day : Int) :
    monthDay (day + 1) = nextMonthDay (isLeapYear (civilOfDay day).year) (monthDay day) := by
  simp only [monthDay, civilOfDay_succ, nextDate, nextMonthDay]
  split
  · rename_i inside
    simp [inside]
  · rename_i monthEnd
    split
    · rename_i early
      simp [monthEnd, early]
    · rename_i late
      simp [monthEnd, late]

theorem year_succ (day : Int) :
    (civilOfDay (day + 1)).year = (civilOfDay day).year ∨
      (monthDay day = (12, 31) ∧ monthDay (day + 1) = (1, 1)) := by
  have valid := civilOfDay_valid day
  have high := valid.monthHigh
  have last := valid.dayHigh
  rw [monthDay_succ]
  simp only [monthDay, civilOfDay_succ, nextDate, nextMonthDay]
  split
  · exact Or.inl rfl
  · rename_i monthEnd
    split
    · exact Or.inl rfl
    · rename_i yearEnd
      have december : (civilOfDay day).month = 12 := by omega
      have length : daysInMonth (isLeapYear (civilOfDay day).year) 12 = 31 := rfl
      rw [december, length] at last monthEnd
      refine Or.inr ⟨?_, ?_⟩
      · rw [december]
        simp only [Prod.mk.injEq, true_and]
        omega
      · simp [december, length, monthEnd]

theorem monthDay_pred (day : Int) :
    monthDay (day - 1) = previousMonthDay (isLeapYear (civilOfDay day).year) (monthDay day) := by
  have valid := civilOfDay_valid (day - 1)
  have successor := civilOfDay_succ (day - 1)
  rw [Int.sub_add_cancel] at successor
  simp only [monthDay, successor, nextDate, previousMonthDay]
  have low := valid.monthLow
  have high := valid.monthHigh
  have first := valid.dayLow
  have last := valid.dayHigh
  split
  · rename_i inside
    simp only
    rw [if_pos (by omega)]
    simp
  · rename_i monthEnd
    have exactDay : (civilOfDay (day - 1)).dayOfMonth =
        daysInMonth (isLeapYear (civilOfDay (day - 1)).year) (civilOfDay (day - 1)).month := by
      omega
    split
    · simp only [Nat.lt_irrefl, if_false]
      rw [if_pos (by omega)]
      simp [exactDay]
    · have december : (civilOfDay (day - 1)).month = 12 := by omega
      rw [december] at exactDay
      simp only [Nat.lt_irrefl, if_false, december, exactDay]
      rfl

theorem nextMonthDay_congr {first second : Bool} {date : Nat × Nat}
    (same : first = second ∨ date.1 ≠ 2) : nextMonthDay first date = nextMonthDay second date := by
  rcases same with same | other
  · rw [same]
  · simp [nextMonthDay, daysInMonth, other]

theorem previousMonthDay_congr {first second : Bool} {date : Nat × Nat}
    (same : first = second ∨ date.1 ≠ 3) :
    previousMonthDay first date = previousMonthDay second date := by
  rcases same with same | other
  · rw [same]
  · have notMarch : date.1 - 1 ≠ 2 := by omega
    simp [previousMonthDay, daysInMonth, notMarch]

/-- Shifting by at most one day moves equal month-days to equal month-days, provided both
years agree on the leap day or the date lies at a year boundary. -/
theorem monthDay_add_congr (first second : Int) {delta : Int}
    (small : delta = -1 ∨ delta = 0 ∨ delta = 1)
    (same : monthDay first = monthDay second)
    (leap : isLeapYear (civilOfDay first).year = isLeapYear (civilOfDay second).year ∨
      monthDay first = (1, 1) ∨ monthDay first = (12, 31)) :
    monthDay (first + delta) = monthDay (second + delta) := by
  have february : isLeapYear (civilOfDay first).year = isLeapYear (civilOfDay second).year ∨
      (monthDay first).1 ≠ 2 := by
    rcases leap with agree | january | december
    · exact Or.inl agree
    · exact Or.inr (by simp [january])
    · exact Or.inr (by simp [december])
  have march : isLeapYear (civilOfDay first).year = isLeapYear (civilOfDay second).year ∨
      (monthDay first).1 ≠ 3 := by
    rcases leap with agree | january | december
    · exact Or.inl agree
    · exact Or.inr (by simp [january])
    · exact Or.inr (by simp [december])
  rcases small with rfl | rfl | rfl
  · rw [← Int.sub_eq_add_neg, ← Int.sub_eq_add_neg, monthDay_pred, monthDay_pred, ← same]
    exact previousMonthDay_congr march
  · simpa using same
  · rw [monthDay_succ, monthDay_succ, ← same]
    exact nextMonthDay_congr february

theorem year_add (day : Int) {delta : Int} (small : delta = -1 ∨ delta = 0 ∨ delta = 1) :
    (civilOfDay (day + delta)).year = (civilOfDay day).year ∨
      ((monthDay day = (1, 1) ∨ monthDay day = (12, 31)) ∧
        (monthDay (day + delta) = (1, 1) ∨ monthDay (day + delta) = (12, 31))) := by
  rcases small with rfl | rfl | rfl
  · have step := year_succ (day + -1)
    rw [Int.neg_add_cancel_right] at step
    rcases step with equal | boundary
    · exact Or.inl equal.symm
    · exact Or.inr ⟨Or.inl boundary.2, Or.inr boundary.1⟩
  · exact Or.inl (by simp)
  · rcases year_succ day with equal | boundary
    · exact Or.inl equal
    · exact Or.inr ⟨Or.inr boundary.1, Or.inl boundary.2⟩

theorem monthDay_near_valid (day : Int) {delta : Int}
    (small : delta = -1 ∨ delta = 0 ∨ delta = 1) :
    ValidMonthDay (isLeapYear (civilOfDay day).year) (monthDay (day + delta)).1
      (monthDay (day + delta)).2 := by
  rcases year_add day small with same | ⟨_, january | december⟩
  · rw [← same]
    exact civilOfDay_valid (day + delta)
  · rw [january]
    cases isLeapYear (civilOfDay day).year <;> decide
  · rw [december]
    cases isLeapYear (civilOfDay day).year <;> decide

theorem monthDay_dayNumber {year : Int} {month dayOfMonth : Nat}
    (valid : ValidMonthDay (isLeapYear year) month dayOfMonth) :
    monthDay (dayNumber year month dayOfMonth) = (month, dayOfMonth) := by
  rw [monthDay, civilOfDay_dayNumber valid]

theorem weekday_lt (day : Int) : weekday day < 7 := by
  simp only [weekday]
  omega

example : civilOfDay 11016 = { year := 2000, month := 2, dayOfMonth := 29 } := by decide

end Gregorian
