import Metidos.Library.IntervalColumns
import Mathlib.Data.Set.Basic
import Mathlib.Order.Bounds.Basic

/-!
`layoutTimedOccurrences` of `src/mainview/app/calendar-layout.ts`: the columns of a day.  An instant
is its number of milliseconds since the epoch.
-/

namespace Metidos.CalendarLayout

open IntervalColumns

variable {ρ : Type}

def dayMs : Int := 24 * 60 * 60 * 1000

/-- An occurrence with the instants of its dates, absent when there is no valid date, and its other
fields. -/
structure RpcCalendarOccurrence (ρ : Type) where
  allDay : Bool
  startAt : Option Int
  endAt : Option Int
  fields : ρ

structure TimedOccurrenceLayout (ρ : Type) where
  occurrence : RpcCalendarOccurrence ρ
  topPercent : Rat
  heightPercent : Rat
  column : Nat
  columnCount : Nat

structure TimedLayoutInput (ρ : Type) where
  occurrence : RpcCalendarOccurrence ρ
  start : Int
  finish : Int

def timedLayoutInput (dayStart : Option Int) (occurrence : RpcCalendarOccurrence ρ) :
    Option (TimedLayoutInput ρ) :=
  match occurrence.allDay, occurrence.startAt, occurrence.endAt with
  | false, some rawStart, some rawEnd =>
    let start := dayStart.elim rawStart fun dayStart => max rawStart dayStart
    let finish := dayStart.elim rawEnd fun dayStart => min rawEnd (dayStart + dayMs)
    if finish ≤ start then none else some ⟨occurrence, start, finish⟩
  | _, _, _ => none

def inputLe (left right : TimedLayoutInput ρ) : Bool :=
  left.start < right.start || (left.start == right.start && left.finish ≤ right.finish)

def buildTimedLayout (minutesOfDay : Int → Nat) (item : TimedLayoutInput ρ) (column : Nat) :
    TimedOccurrenceLayout ρ where
  occurrence := item.occurrence
  topPercent := (minutesOfDay item.start : Rat) / (24 * 60) * 100
  heightPercent := ((max (15 * 60 * 1000) (item.finish - item.start) : Int) : Rat) / dayMs * 100
  column := column
  columnCount := 1

def flushCluster (minutesOfDay : Int → Nat) (cluster : List (TimedLayoutInput ρ)) :
    List (TimedOccurrenceLayout ρ) :=
  let placed := assign TimedLayoutInput.start TimedLayoutInput.finish [] cluster
  placed.map fun item =>
    { buildTimedLayout minutesOfDay item.1 item.2 with columnCount := width placed }

structure LayoutState (ρ : Type) where
  layouts : List (TimedOccurrenceLayout ρ)
  cluster : List (TimedLayoutInput ρ)
  clusterEnd : Int

def addItem (minutesOfDay : Int → Nat) (state : LayoutState ρ) (item : TimedLayoutInput ρ) :
    LayoutState ρ :=
  let state :=
    if !state.cluster.isEmpty && state.clusterEnd ≤ item.start then
      ⟨state.layouts ++ flushCluster minutesOfDay state.cluster, [], 0⟩
    else state
  { state with
    cluster := state.cluster ++ [item]
    clusterEnd := max state.clusterEnd item.finish }

def timedItems (dayStart : Option Int) (occurrences : List (RpcCalendarOccurrence ρ)) :
    List (TimedLayoutInput ρ) :=
  (occurrences.filterMap (timedLayoutInput dayStart)).mergeSort inputLe

def layoutTimedOccurrences (minutesOfDay : Int → Nat)
    (occurrences : List (RpcCalendarOccurrence ρ)) (dayStart : Option Int) :
    List (TimedOccurrenceLayout ρ) :=
  let state := (timedItems dayStart occurrences).foldl (addItem minutesOfDay) ⟨[], [], 0⟩
  state.layouts ++ flushCluster minutesOfDay state.cluster

structure LocalDay where
  start : Int
  finish : Int
  positive : start < finish

def LocalDay.Has (day : LocalDay) (time : Int) : Prop := day.start ≤ time ∧ time < day.finish

def RpcCalendarOccurrence.runsAt (occurrence : RpcCalendarOccurrence ρ) (time : Int) : Bool :=
  match occurrence.allDay, occurrence.startAt, occurrence.endAt with
  | false, some rawStart, some rawEnd => rawStart ≤ time && time < rawEnd
  | _, _, _ => false

section

variable (day : LocalDay) (occurrences : List (RpcCalendarOccurrence ρ))

def OverlapsDay (occurrence : RpcCalendarOccurrence ρ) : Prop :=
  ∃ time, day.Has time ∧ occurrence.runsAt time = true

def OverlapWithin (left right : RpcCalendarOccurrence ρ) : Prop :=
  ∃ time, day.Has time ∧ left.runsAt time = true ∧ right.runsAt time = true

def Together : RpcCalendarOccurrence ρ → RpcCalendarOccurrence ρ → Prop :=
  Relation.ReflTransGen fun left right =>
    left ∈ occurrences ∧ right ∈ occurrences ∧ OverlapWithin day left right

open Classical in
/-- The largest number of occurrences in the cluster of one that overlap at an instant of the day. -/
def IsClusterDepth (occurrence : RpcCalendarOccurrence ρ) : Nat → Prop :=
  IsGreatest { count | ∃ time, day.Has time ∧ count = occurrences.countP fun other =>
    decide (Together day occurrences occurrence other) && other.runsAt time }

open Classical in
/-- The layout of a day: each occurrence that overlaps it once, in a column of its own among those it
overlaps, and as many columns as its cluster needs. -/
structure LaidOut (layouts : List (TimedOccurrenceLayout ρ)) : Prop where
  once : (layouts.map TimedOccurrenceLayout.occurrence).Perm
    (occurrences.filter fun occurrence => OverlapsDay day occurrence)
  apart : layouts.Pairwise fun left right =>
    OverlapWithin day left.occurrence right.occurrence → left.column ≠ right.column
  below : ∀ layout ∈ layouts, layout.column < layout.columnCount
  depth : ∀ layout ∈ layouts, IsClusterDepth day occurrences layout.occurrence layout.columnCount

/-- No occurrence starts between the day's end and `24` hours after its start, and the clusters that
begin before the epoch have one depth. -/
structure LayoutFits : Prop where
  outside : ∀ occurrence ∈ occurrences, ∀ rawStart rawEnd, occurrence.allDay = false →
    occurrence.startAt = some rawStart → occurrence.endAt = some rawEnd → rawStart < rawEnd →
      ¬(min day.finish (day.start + dayMs) ≤ rawStart ∧
        rawStart < max day.finish (day.start + dayMs))
  sameDepth : ∃ depth, ∀ occurrence ∈ occurrences, OverlapsDay day occurrence →
    day.start < 0 → (∃ rawStart < 0, occurrence.startAt = some rawStart) →
      IsClusterDepth day occurrences occurrence depth

end

end Metidos.CalendarLayout
