import Metidos.Calendar.CalendarChanges

/-!
Optimistic concurrency on local events: what a version protects against, and the changes of a
single occurrence that it does not see.
-/

namespace Metidos.Calendar

open CalendarDatabase ExceptRules Transition

namespace CalendarCommand

def mutates (eventId : EventId) : CalendarCommand → Bool
  | .updateEvent input => input.eventId == eventId
  | .deleteEvent target _ => target == eventId
  | _ => false

def expectedVersion : CalendarCommand → Option Nat
  | .updateEvent input => input.expectedVersion
  | .deleteEvent _ input => input.expectedVersion
  | _ => none

def isJustThis : CalendarCommand → Bool
  | .updateEvent input => input.scope == some .justThis
  | .deleteEvent _ input => input.scope == some .justThis
  | _ => false

end CalendarCommand

def Commits (host : Host) (eventId : EventId) (database : CalendarDatabase)
    (command : CalendarCommand) : Prop :=
  command.mutates eventId = true ∧ (perform host database command).error = none

/-- The version of the event as a client reads it: off the event, or off an occurrence with an
override, which is listed with the version of the override. -/
def ReadsVersion (database : CalendarDatabase) (eventId : EventId) (version : Nat) : Prop :=
  ∃ row, database.events[eventId]? = some row ∧ row.deleted = false ∧
    (row.version = version ∨ ∃ originalStart override,
      database.overrides.get? (eventId, originalStart) = some override ∧
        override.version = version)

def ChangesOneOccurrence (eventId : EventId) (database : CalendarDatabase)
    (command : CalendarCommand) : Prop :=
  command.mutates eventId = true ∧ command.isJustThis = true ∧
    ∀ input, command = .deleteEvent eventId input →
      ∃ row, database.events[eventId]? = some row ∧ row.recurrenceRule.isSome = true

def WholeChanges (host : Host) (eventId : EventId) (database : CalendarDatabase)
    (command : CalendarCommand) : Prop :=
  ¬ (Commits host eventId database command ∧ ChangesOneOccurrence eventId database command)

def AtLeast (eventId : EventId) (version : Nat) (tables : EventTables) : Prop :=
  ∃ row, tables.events[eventId]? = some row ∧ (row.deleted = true ∨ version ≤ row.version)

variable {host : Host} {before after : CalendarDatabase} {eventId target : EventId}
  {version : Nat} {command : CalendarCommand} {tables : EventTables}

theorem AtLeast.modify {update : EventSqlRow → EventSqlRow} (bound : AtLeast eventId version tables)
    (keeps : ∀ row, row.version ≤ (update row).version ∧
      (row.deleted = true → (update row).deleted = true)) :
    AtLeast eventId version (tables.modify target update) := by
  obtain ⟨row, stored, reached⟩ := bound
  by_cases same : target = eventId
  · subst same
    refine ⟨update row, by simp [EventTables.modify, stored], ?_⟩
    rcases reached with deleted | reached
    · exact Or.inl ((keeps row).2 deleted)
    · exact Or.inr (Nat.le_trans reached (keeps row).1)
  · exact ⟨row, by simp [EventTables.modify, same, stored], reached⟩

theorem AtLeast.append (bound : AtLeast eventId version tables) (row : EventSqlRow) :
    AtLeast eventId version (tables.append row) := by
  obtain ⟨found, stored, reached⟩ := bound
  refine ⟨found, ?_, reached⟩
  rw [EventTables.append, List.getElem?_append_left (List.getElem?_eq_some_iff.mp stored).1]
  exact stored

theorem AtLeast.advance {update : EventSqlRow → EventSqlRow} (bound : AtLeast eventId version tables)
    (advances : ∀ row, (row.deleted = true → (update row).deleted = true) ∧
      ((update row).deleted = true ∨ row.version < (update row).version)) :
    AtLeast eventId (version + 1) (tables.modify eventId update) := by
  obtain ⟨row, stored, reached⟩ := bound
  refine ⟨update row, by simp [EventTables.modify, stored], ?_⟩
  rcases reached with deleted | reached
  · exact Or.inl ((advances row).1 deleted)
  · rcases (advances row).2 with deleted | later
    · exact Or.inl deleted
    · exact Or.inr (by omega)

theorem truncated_keeps (rule : RecurrenceRule) (row : EventSqlRow) :
    row.version ≤ (EventSqlRow.truncated rule row).version ∧
      (row.deleted = true → (EventSqlRow.truncated rule row).deleted = true) :=
  ⟨Nat.le_succ _, id⟩

theorem truncated_advances (rule : RecurrenceRule) (row : EventSqlRow) :
    (row.deleted = true → (EventSqlRow.truncated rule row).deleted = true) ∧
      ((EventSqlRow.truncated rule row).deleted = true ∨
        row.version < (EventSqlRow.truncated rule row).version) :=
  ⟨id, Or.inr (Nat.lt_succ_self _)⟩

theorem over_keeps (event : ValidEvent) (row : EventSqlRow) :
    row.version ≤ (event.over row).version ∧
      (row.deleted = true → (event.over row).deleted = true) :=
  ⟨Nat.le_succ _, id⟩

theorem over_advances (event : ValidEvent) (row : EventSqlRow) :
    (row.deleted = true → (event.over row).deleted = true) ∧
      ((event.over row).deleted = true ∨ row.version < (event.over row).version) :=
  ⟨id, Or.inr (Nat.lt_succ_self _)⟩

theorem AtLeast.updated {input : CalendarEventUpdateInput} {returned : EventId}
    (bound : AtLeast eventId version before.eventTables)
    (ok : updateCalendarEvent host before input = .ok (after, returned)) :
    AtLeast eventId version after.eventTables := by
  obtain ⟨row, _, _, _, just | ⟨_, rule, _, split⟩ | ⟨_, _, whole⟩⟩ :=
    updateCalendarEvent_cases ok
  · obtain ⟨_, _, _, is⟩ := updateJustThis_cases just.2
    rw [is]
    exact bound
  · obtain ⟨_, truncated, _, _, is | ⟨event, is⟩⟩ := updateAfterThis_cases split
    · rw [is]
      exact bound.modify (truncated_keeps truncated)
    · rw [is]
      exact (bound.modify (truncated_keeps truncated)).append event.row
  · obtain ⟨event, _, is⟩ := updateWholeSeries_cases whole
    rw [is]
    exact bound.modify (over_keeps event)

theorem AtLeast.deleted {input : DeleteInput} (bound : AtLeast eventId version before.eventTables)
    (ok : deleteCalendarEvent before target input = .ok after) :
    AtLeast eventId version after.eventTables := by
  obtain ⟨row, _, _, _, ⟨_, _, is⟩ | ⟨_, _, truncated, _, _, is⟩ | ⟨_, is⟩⟩ :=
    deleteCalendarEvent_cases ok
  · rw [is]
    exact bound
  · rw [is]
    exact bound.modify (truncated_keeps truncated)
  · rw [is]
    exact bound.modify fun row => ⟨Nat.le_refl _, fun _ => rfl⟩

theorem AtLeast.step (bound : AtLeast eventId version before.eventTables)
    (stepped : calendarStep host before command = some after) :
    AtLeast eventId version after.eventTables := by
  obtain rfl := Option.some.inj stepped
  cases ofEvents : command.ofEvents with
  | false =>
    rw [perform_eventTables host before ofEvents]
    exact bound
  | true =>
    cases command with
    | createEvent input =>
      simp only [perform]
      cases created : createCalendarEvent host before input with
      | error error => exact bound
      | ok result =>
        obtain ⟨event, _, _, is⟩ := createCalendarEvent_cases created
        simp only [Except.map, performed, is, eventTables_insertEvent]
        exact bound.append event.row
    | updateEvent input =>
      simp only [perform]
      cases updated : updateCalendarEvent host before input with
      | error error => exact bound
      | ok result => exact bound.updated updated
    | deleteEvent target input =>
      simp only [perform]
      cases deleted : deleteCalendarEvent before target input with
      | error error => exact bound
      | ok result => exact bound.deleted deleted
    | _ => exact absurd ofEvents (by simp [CalendarCommand.ofEvents])

theorem AtLeast.run {allowed : CalendarDatabase → CalendarCommand → Prop}
    (bound : AtLeast eventId version before.eventTables)
    (reached : Reaches (calendarStep host) allowed before after) :
    AtLeast eventId version after.eventTables :=
  reached.invariant (fun database => AtLeast eventId version database.eventTables) bound
    fun _ _ _ holds _ stepped => holds.step stepped

theorem Commits.cases (commits : Commits host eventId before command) :
    (∃ input result, command = .updateEvent input ∧ input.eventId = eventId ∧
        updateCalendarEvent host before input = .ok result ∧
        (perform host before command).database = result.1) ∨
      ∃ input result, command = .deleteEvent eventId input ∧
        deleteCalendarEvent before eventId input = .ok result ∧
        (perform host before command).database = result := by
  obtain ⟨mutates, succeeds⟩ := commits
  cases command with
  | updateEvent input =>
    simp only [perform] at succeeds ⊢
    cases updated : updateCalendarEvent host before input with
    | error error => simp [updated, Except.map, performed] at succeeds
    | ok result =>
      exact Or.inl ⟨input, result, rfl, by simpa [CalendarCommand.mutates] using mutates,
        updated, rfl⟩
  | deleteEvent target input =>
    obtain rfl : target = eventId := by simpa [CalendarCommand.mutates] using mutates
    simp only [perform] at succeeds ⊢
    cases deleted : deleteCalendarEvent before target input with
    | error error => simp [deleted, performed] at succeeds
    | ok result => exact Or.inr ⟨input, result, rfl, deleted, rfl⟩
  | _ => exact absurd mutates (by simp [CalendarCommand.mutates])

theorem Commits.found (commits : Commits host eventId before command) :
    ∃ row, before.events[eventId]? = some row ∧ row.deleted = false ∧
      ∀ expected ∈ command.expectedVersion, row.version = expected := by
  obtain ⟨input, result, rfl, rfl, updated, _⟩ | ⟨input, result, rfl, deleted, _⟩ := commits.cases
  · obtain ⟨row, stored, present, expected, _⟩ := updateCalendarEvent_cases updated
    exact ⟨row, stored, present, expected⟩
  · obtain ⟨row, stored, present, expected, _⟩ := deleteCalendarEvent_cases deleted
    exact ⟨row, stored, present, expected⟩

theorem Commits.advances (commits : Commits host eventId before command)
    (whole : WholeChanges host eventId before command)
    (bound : AtLeast eventId version before.eventTables) :
    AtLeast eventId (version + 1) (perform host before command).database.eventTables := by
  have single : ¬ ChangesOneOccurrence eventId before command := fun one => whole ⟨commits, one⟩
  have mutates := commits.1
  obtain ⟨input, result, rfl, rfl, updated, is⟩ | ⟨input, result, rfl, deleted, is⟩ :=
    commits.cases
  · rw [is]
    obtain ⟨row, _, _, _, ⟨just, _⟩ | ⟨_, rule, _, split⟩ | ⟨_, _, series⟩⟩ :=
      updateCalendarEvent_cases updated
    · exact absurd ⟨mutates, by simp [CalendarCommand.isJustThis, just], by simp⟩ single
    · obtain ⟨_, truncated, _, _, is | ⟨event, is⟩⟩ := updateAfterThis_cases split
      · rw [is]
        exact bound.advance (truncated_advances truncated)
      · rw [is]
        exact (bound.advance (truncated_advances truncated)).append event.row
    · obtain ⟨event, _, is⟩ := updateWholeSeries_cases series
      rw [is]
      exact bound.advance (over_advances event)
  · rw [is]
    obtain ⟨row, stored, _, _, ⟨just, recurring, _⟩ | ⟨_, _, truncated, _, _, is⟩ | ⟨_, is⟩⟩ :=
      deleteCalendarEvent_cases deleted
    · exact absurd ⟨mutates, by simp [CalendarCommand.isJustThis, just], fun _ _ =>
        ⟨row, stored, recurring⟩⟩ single
    · rw [is]
      exact bound.advance (truncated_advances truncated)
    · rw [is]
      exact bound.advance fun row => ⟨fun _ => rfl, Or.inl rfl⟩

/-- Where no single occurrence changes, a version that was read off the event admits a mutation
only as long as no other one has committed. -/
theorem stale_version_rejected {start later : CalendarDatabase} {row : EventSqlRow}
    {second : CalendarCommand}
    (read : start.events[eventId]? = some row) (isVersion : row.version = version)
    (first : Reaches (calendarStep host) (WholeChanges host eventId) start before)
    (commits : Commits host eventId before command)
    (whole : WholeChanges host eventId before command)
    (rest : Reaches (calendarStep host) (WholeChanges host eventId)
      (perform host before command).database later)
    (expects : second.expectedVersion = some version) : ¬ Commits host eventId later second := by
  have bound : AtLeast eventId version start.eventTables :=
    ⟨row, read, Or.inr (Nat.le_of_eq isVersion.symm)⟩
  obtain ⟨last, stored, reached⟩ := (commits.advances whole (bound.run first)).run rest
  intro again
  obtain ⟨found, at_, present, expected⟩ := again.found
  obtain rfl : last = found := by simpa [CalendarDatabase.eventTables, at_] using stored.symm
  have current := expected version expects
  rcases reached with deleted | past
  · rw [present] at deleted
    exact absurd deleted (by decide)
  · omega

theorem stale_version_rejected_daily :
    ∃ start row, start.events[0]? = some row ∧ row.version = 1 ∧
      Commits Host.daily 0 start (.updateEvent (.unchanged 0 .wholeSeries none (some 1))) ∧
      ¬ Commits Host.daily 0
        (perform Host.daily start
          (.updateEvent (.unchanged 0 .wholeSeries none (some 1)))).database
        (.deleteEvent 0 ⟨none, none, some 1⟩) := by
  have created : (run (calendarStep Host.daily) (fun _ _ => true) .initial createDailyEvent).map
      (fun database => (database.events.map fun row => row.version,
        (perform Host.daily database
          (.updateEvent (.unchanged 0 .wholeSeries none (some 1)))).error)) =
        some ([1], none) := by decide +kernel
  obtain ⟨start, _, is⟩ := Option.map_eq_some_iff.mp created
  obtain ⟨versions, succeeds⟩ := Prod.mk.inj is
  obtain ⟨row, stored, isVersion⟩ : ∃ row, start.events[0]? = some row ∧ row.version = 1 := by
    rw [← Option.map_eq_some_iff, ← List.getElem?_map, versions]
    rfl
  have whole : WholeChanges Host.daily 0 start
      (.updateEvent (.unchanged 0 .wholeSeries none (some 1))) := by
    rintro ⟨_, _, single, _⟩
    exact absurd single (by decide)
  refine ⟨start, row, stored, isVersion, ⟨rfl, succeeds⟩, ?_⟩
  exact stale_version_rejected stored isVersion (Reaches.refl start) ⟨rfl, succeeds⟩ whole
    (Reaches.refl _) rfl

/-- An update of one occurrence, which leaves the version of the event as it was, and after it an
update of the whole series by who has read the event before. -/
theorem occurrence_update_unseen :
    ¬ ∀ (host : Host) (eventId : EventId) (version : Nat) (start before later : CalendarDatabase)
      (first second : CalendarCommand),
      ReadsVersion start eventId version →
      Reaches (calendarStep host) Unrestricted start before →
      Commits host eventId before first →
      Reaches (calendarStep host) Unrestricted (perform host before first).database later →
      second.expectedVersion = some version → ¬ Commits host eventId later second := by
  intro claimed
  have created : (run (calendarStep Host.daily) (fun _ _ => true) .initial createDailyEvent).map
      (fun database => (database.events.map fun row => (row.version, row.deleted),
        (perform Host.daily database
          (.updateEvent (.unchanged 0 .justThis (some (.instant msPerDay)) (some 1)))).error,
        (perform Host.daily
          (perform Host.daily database
            (.updateEvent (.unchanged 0 .justThis (some (.instant msPerDay)) (some 1)))).database
          (.updateEvent (.unchanged 0 .wholeSeries none (some 1)))).error)) =
        some ([(1, false)], none, none) := by decide +kernel
  obtain ⟨start, _, is⟩ := Option.map_eq_some_iff.mp created
  obtain ⟨rows, succeeds, again⟩ := by simpa only [Prod.mk.injEq] using is
  obtain ⟨row, stored, isRow⟩ : ∃ row, start.events[0]? = some row ∧
      (row.version, row.deleted) = (1, false) := by
    rw [← Option.map_eq_some_iff, ← List.getElem?_map, rows]
    rfl
  obtain ⟨isVersion, present⟩ := Prod.mk.inj isRow
  exact claimed Host.daily 0 1 start start _ _ _ ⟨row, stored, present, Or.inl isVersion⟩
    (Reaches.refl start) ⟨rfl, succeeds⟩ (Reaches.refl _) rfl ⟨rfl, again⟩

end Metidos.Calendar
