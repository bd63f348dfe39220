import Metidos.Calendar.CalendarSystem

/-!
What a listing returns when it does not throw: for each event and each cached row the dates that
are scanned, of these the ones that are shown, and the overrides that no shown date renders.
-/

namespace Metidos.Calendar

open CalendarDatabase ExceptRules

variable {host : Host} {input : RecurrenceExpansionInput} {windowStart windowEnd : Int}
  {maxOccurrences : Option Nat} {database : CalendarDatabase}

namespace RecurrenceExpansionInput

def candidates (input : RecurrenceExpansionInput) (host : Host) (windowStart windowEnd : Int) :
    List Int :=
  match input.recurrenceRule with
  | none => [input.baseStart]
  | some recurrenceRule => input.scanned host recurrenceRule.rule windowStart windowEnd

def resolve (input : RecurrenceExpansionInput) (host : Host) (date : Int) :
    Except CalendarError ExpandedOccurrenceTime :=
  match input.recurrenceRule with
  | none => input.occurrenceFromStart date
  | some _ => input.occurrenceOfDate host date

def shows (input : RecurrenceExpansionInput) (windowStart windowEnd : Int)
    (occurrence : ExpandedOccurrenceTime) : Bool :=
  (input.recurrenceRule.isNone || !input.exdates.contains occurrence.originalStart) &&
    occurrence.time.overlaps windowStart windowEnd

def Resolves (input : RecurrenceExpansionInput) (host : Host) (windowStart windowEnd : Int) :
    Prop :=
  ∀ date ∈ input.candidates host windowStart windowEnd,
    ∃ occurrence, input.resolve host date = .ok occurrence

def shown (input : RecurrenceExpansionInput) (host : Host) (windowStart windowEnd : Int) :
    List ExpandedOccurrenceTime :=
  ((input.candidates host windowStart windowEnd).filterMap fun date =>
    (input.resolve host date).toOption).filter (input.shows windowStart windowEnd)

end RecurrenceExpansionInput

theorem enforceExpandedOccurrenceLimit_eq_ok {α : Type} {occurrences kept : List α} :
    enforceExpandedOccurrenceLimit occurrences maxOccurrences = .ok kept ↔
      kept = occurrences ∧ ∀ limit ∈ maxOccurrences, occurrences.length ≤ limit := by
  cases maxOccurrences with
  | none => simp [enforceExpandedOccurrenceLimit, eq_comm]
  | some limit =>
    simp only [enforceExpandedOccurrenceLimit, Option.mem_def, Option.some.injEq, forall_eq']
    split
    · simp
      omega
    · simp [eq_comm]
      omega

theorem expandCalendarOccurrences_eq_ok {times : List ExpandedOccurrenceTime} :
    expandCalendarOccurrences host input windowStart windowEnd maxOccurrences = .ok times ↔
      input.Resolves host windowStart windowEnd ∧
        times = input.shown host windowStart windowEnd ∧
        (input.recurrenceRule.isSome = true → ∀ limit ∈ maxOccurrences, times.length ≤ limit) := by
  rw [expandCalendarOccurrences]
  cases rule : input.recurrenceRule with
  | none =>
    have unfiltered : ∀ occurrence, input.shows windowStart windowEnd occurrence =
        occurrence.time.overlaps windowStart windowEnd := by
      intro occurrence
      simp [RecurrenceExpansionInput.shows, rule]
    simp only [bind_eq_ok, pure_eq_ok, Except.ok.injEq, RecurrenceExpansionInput.Resolves,
      RecurrenceExpansionInput.candidates, RecurrenceExpansionInput.resolve,
      RecurrenceExpansionInput.shown, rule, List.mem_singleton, forall_eq, Option.isSome_none,
      Bool.false_eq_true, false_implies, and_true]
    constructor
    · rintro ⟨occurrence, is, rfl⟩
      refine ⟨⟨occurrence, is⟩, ?_⟩
      simp [is, Except.toOption, List.filter_cons, unfiltered]
    · rintro ⟨⟨occurrence, is⟩, rfl⟩
      refine ⟨occurrence, is, ?_⟩
      simp [is, Except.toOption, List.filter_cons, unfiltered]
  | some recurrenceRule =>
    simp only [bind_eq_ok, mapM_eq_ok, enforceExpandedOccurrenceLimit_eq_ok,
      RecurrenceExpansionInput.Resolves, RecurrenceExpansionInput.candidates,
      RecurrenceExpansionInput.resolve, RecurrenceExpansionInput.shown, rule, Option.isSome_some,
      forall_const]
    have same : isShown input.exdates windowStart windowEnd =
        input.shows windowStart windowEnd := by
      funext occurrence
      simp [isShown, RecurrenceExpansionInput.shows, rule]
    rw [same]
    constructor
    · rintro ⟨between, ⟨all, rfl⟩, is, below⟩
      exact ⟨all, is, is ▸ below⟩
    · rintro ⟨all, is, below⟩
      exact ⟨_, ⟨all, rfl⟩, is, is ▸ below⟩

end Metidos.Calendar
