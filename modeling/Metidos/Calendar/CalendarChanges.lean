import Metidos.Calendar.CalendarSystem

/-!
What each command does to the tables behind local events: one inversion lemma for updates, one
for deletes, and the tables are kept by everything else but a creation.
-/

namespace Metidos.Calendar

open CalendarDatabase ExceptRules

structure EventTables where
  events : List EventSqlRow
  exdates : OrderedSet (EventId × DateText)
  overrides : OrderedMap (EventId × DateText) OverrideRow

def CalendarDatabase.eventTables (database : CalendarDatabase) : EventTables :=
  ⟨database.events, database.exdates, database.overrides⟩

namespace EventTables

def modify (tables : EventTables) (eventId : EventId) (update : EventSqlRow → EventSqlRow) :
    EventTables :=
  { tables with events := tables.events.modify eventId update }

def append (tables : EventTables) (row : EventSqlRow) : EventTables :=
  { tables with events := tables.events ++ [row] }

def exclude (tables : EventTables) (eventId : EventId) (originalStart : DateText) : EventTables :=
  { tables with exdates := tables.exdates.add (eventId, originalStart) }

def place (tables : EventTables) (eventId : EventId) (originalStart : DateText)
    (override : OverrideRow) : EventTables :=
  { tables with overrides := tables.overrides.set (eventId, originalStart) override }

end EventTables

variable {host : Host} {before after : CalendarDatabase} {eventId : EventId}

theorem eventTables_insertEventReminders (eventId : EventId) (reminders : List CalendarReminder)
    (database : CalendarDatabase) :
    (insertEventReminders eventId reminders database).eventTables = database.eventTables := by
  induction reminders generalizing database with
  | nil => rfl
  | cons reminder rest ih =>
    rw [insertEventReminders, ih]
    rfl

@[simp] theorem eventTables_replaceEventReminders (database : CalendarDatabase)
    (eventId : EventId) (reminders : List CalendarReminder) :
    (database.replaceEventReminders eventId reminders).eventTables = database.eventTables := by
  rw [replaceEventReminders, eventTables_insertEventReminders]
  rfl

def ValidEvent.row (event : ValidEvent) : EventSqlRow :=
  ⟨event.calendarId, event.title, event.description, event.location, event.time, event.timezone,
    event.recurrenceRule, 1, false⟩

theorem eventTables_insertEvent (database : CalendarDatabase) (event : ValidEvent) :
    (insertEvent database event).eventTables = database.eventTables.append event.row := by
  rw [insertEvent, eventTables_replaceEventReminders]
  rfl

def EventSqlRow.truncated (rule : RecurrenceRule) (row : EventSqlRow) : EventSqlRow :=
  { row with recurrenceRule := some rule, version := row.version + 1 }

def ValidEvent.over (event : ValidEvent) (row : EventSqlRow) : EventSqlRow :=
  { event.row with version := row.version + 1, deleted := row.deleted }

theorem currentEventRow_eq_ok {database : CalendarDatabase} {row : EventSqlRow} :
    database.currentEventRow eventId = .ok row ↔
      database.events[eventId]? = some row ∧ row.deleted = false := by
  rw [currentEventRow]
  split
  · rename_i stored found
    rw [found, Option.some.injEq]
    split
    · rename_i deleted
      constructor
      · intro impossible
        exact absurd impossible (by simp)
      · rintro ⟨rfl, present⟩
        exact absurd deleted (by simp [present])
    · rename_i present
      constructor
      · intro same
        obtain rfl := Except.ok.inj same
        exact ⟨rfl, by simpa using present⟩
      · rintro ⟨rfl, _⟩
        rfl
  · rename_i absent
    simp [absent]

theorem createCalendarEvent_cases {input : CalendarEventInput} {created : EventId}
    (ok : createCalendarEvent host before input = .ok (after, created)) :
    ∃ event, validateEventInput host input = .ok event ∧ created = before.events.length ∧
      after = insertEvent before event := by
  simp only [createCalendarEvent, bind_eq_ok, pure_eq_ok, Except.ok.injEq, Prod.mk.injEq] at ok
  obtain ⟨_, _, event, valid, same, is⟩ := ok
  exact ⟨event, valid, is.symm, same.symm⟩

theorem assertVersion_eq_ok {row : EventSqlRow} {expectedVersion : Option Nat} :
    assertVersion row expectedVersion = .ok () ↔
      ∀ expected ∈ expectedVersion, row.version = expected := by
  rw [assertVersion]
  cases expectedVersion with
  | none => simp
  | some expected => simp

theorem updateJustThis_cases {row : EventSqlRow} {input : CalendarEventUpdateInput}
    {occurrenceStart : DateText}
    (ok : updateJustThis host before eventId row input occurrenceStart = .ok after) :
    ∃ selected override, findOccurrenceTimeForStart host row occurrenceStart = .ok (some selected) ∧
      after.eventTables =
        (before.eventTables.place eventId occurrenceStart override).exclude eventId
          occurrenceStart := by
  simp only [updateJustThis, bind_eq_ok] at ok
  obtain ⟨found, finds, rest⟩ := ok
  cases found with
  | none => exact absurd rest (by simp)
  | some selected =>
    simp only [createOrUpdateOccurrenceOverride, bind_eq_ok, pure_eq_ok,
      Except.ok.injEq] at rest
    obtain ⟨written, ⟨normalized, _, writes⟩, is⟩ := rest
    subst writes is
    exact ⟨selected, _, finds, rfl⟩

theorem updateAfterThis_cases {row : EventSqlRow} {rule : RecurrenceRule}
    {input : CalendarEventUpdateInput} {occurrenceStart : DateText} {returned : EventId}
    (ok : updateAfterThis host before eventId row rule input occurrenceStart =
      .ok (after, returned)) :
    ∃ selected truncated,
      findOccurrenceTimeForStart host row occurrenceStart = .ok (some selected) ∧
      truncateRRuleBeforeOccurrence rule occurrenceStart row.time.time.allDay = .ok truncated ∧
      (after.eventTables = before.eventTables.modify eventId (EventSqlRow.truncated truncated) ∨
        ∃ event : ValidEvent, after.eventTables =
          (before.eventTables.modify eventId (EventSqlRow.truncated truncated)).append
            event.row) := by
  simp only [updateAfterThis, bind_eq_ok] at ok
  obtain ⟨found, finds, rest⟩ := ok
  cases found with
  | none => exact absurd rest (by simp)
  | some selected =>
    simp only [bind_eq_ok] at rest
    obtain ⟨truncated, truncates, adjusted, _, last⟩ := rest
    refine ⟨selected, truncated, finds, truncates, ?_⟩
    split at last
    · simp only [pure_eq_ok, Except.ok.injEq, Prod.mk.injEq] at last
      left
      rw [← last.1]
      rfl
    · obtain ⟨event, _, _, is⟩ := createCalendarEvent_cases last
      right
      refine ⟨event, ?_⟩
      rw [is, eventTables_insertEvent]
      rfl

theorem updateWholeSeries_cases {row : EventSqlRow} {input : CalendarEventUpdateInput}
    {returned : EventId}
    (ok : updateWholeSeries host before eventId row input = .ok (after, returned)) :
    ∃ event, validateEventInput host
        (input.over row (input.calendarId.getD row.calendarId) row.time.time
          (match input.recurrenceRule with
          | some rule => .text rule
          | none => .stored row.recurrenceRule)
          (input.reminders.getD (reminderInputs (before.eventReminders eventId)))) = .ok event ∧
      after.eventTables = before.eventTables.modify eventId event.over := by
  simp only [updateWholeSeries, bind_eq_ok, pure_eq_ok, Except.ok.injEq, Prod.mk.injEq] at ok
  obtain ⟨event, valid, _, _, same, _⟩ := ok
  refine ⟨event, valid, ?_⟩
  rw [← same, eventTables_replaceEventReminders]
  rfl

theorem updateCalendarEvent_cases {input : CalendarEventUpdateInput} {returned : EventId}
    (ok : updateCalendarEvent host before input = .ok (after, returned)) :
    ∃ row, before.events[input.eventId]? = some row ∧ row.deleted = false ∧
      (∀ expected ∈ input.expectedVersion, row.version = expected) ∧
      ((input.scope = some .justThis ∧
          updateJustThis host before input.eventId row input
            (occurrenceStartOf row input.occurrenceStart) = .ok after) ∨
        (input.scope = some .afterThis ∧ ∃ rule, row.recurrenceRule = some rule ∧
          updateAfterThis host before input.eventId row rule input
            (occurrenceStartOf row input.occurrenceStart) = .ok (after, returned)) ∨
        (input.scope ≠ some .justThis ∧
          (input.scope = some .afterThis → row.recurrenceRule = none) ∧
          updateWholeSeries host before input.eventId row input = .ok (after, returned))) := by
  simp only [updateCalendarEvent, bind_eq_ok] at ok
  obtain ⟨row, read, _, _, _, version, rest⟩ := ok
  rw [currentEventRow_eq_ok] at read
  refine ⟨row, read.1, read.2, assertVersion_eq_ok.mp version, ?_⟩
  split at rest
  · rename_i scope
    simp only [bind_eq_ok, pure_eq_ok, Except.ok.injEq, Prod.mk.injEq] at rest
    obtain ⟨updated, updates, same, _⟩ := rest
    left
    refine ⟨?_, by rw [← same]; exact updates⟩
    cases given : input.scope with
    | none => simp [given] at scope
    | some scope' => simpa [given] using scope
  · rename_i rule scope recurring
    right
    left
    refine ⟨?_, rule, recurring, rest⟩
    cases given : input.scope with
    | none => simp [given] at scope
    | some scope' => simpa [given] using scope
  · rename_i notJust notAfter
    right
    right
    refine ⟨?_, ?_, rest⟩
    · intro just
      exact notJust (by simp [just])
    · intro afterThis
      cases rule : row.recurrenceRule with
      | none => rfl
      | some rule' => exact absurd rule (notAfter rule' (by simp [afterThis]))

theorem deleteCalendarEvent_cases {input : DeleteInput}
    (ok : deleteCalendarEvent before eventId input = .ok after) :
    ∃ row, before.events[eventId]? = some row ∧ row.deleted = false ∧
      (∀ expected ∈ input.expectedVersion, row.version = expected) ∧
      ((input.scope = some .justThis ∧ row.recurrenceRule.isSome = true ∧
          after.eventTables = before.eventTables.exclude eventId
            (occurrenceStartOf row input.occurrenceStart)) ∨
        (input.scope = some .afterThis ∧ ∃ rule truncated, row.recurrenceRule = some rule ∧
          truncateRRuleBeforeOccurrence rule (occurrenceStartOf row input.occurrenceStart)
            row.time.time.allDay = .ok truncated ∧
          after.eventTables =
            before.eventTables.modify eventId (EventSqlRow.truncated truncated)) ∨
        ((input.scope = some .justThis ∨ input.scope = some .afterThis →
            row.recurrenceRule = none) ∧
          after.eventTables = before.eventTables.modify eventId
            fun stored => { stored with deleted := true })) := by
  simp only [deleteCalendarEvent, bind_eq_ok] at ok
  obtain ⟨row, read, _, _, _, version, rest⟩ := ok
  rw [currentEventRow_eq_ok] at read
  refine ⟨row, read.1, read.2, assertVersion_eq_ok.mp version, ?_⟩
  split at rest
  · rename_i rule scope recurring
    simp only [pure_eq_ok, Except.ok.injEq] at rest
    left
    refine ⟨?_, by simp [recurring], by rw [← rest]; rfl⟩
    cases given : input.scope with
    | none => simp [given] at scope
    | some scope' => simpa [given] using scope
  · rename_i rule scope recurring
    simp only [bind_eq_ok, pure_eq_ok, Except.ok.injEq] at rest
    obtain ⟨truncated, truncates, same⟩ := rest
    right
    left
    refine ⟨?_, rule, truncated, recurring, truncates, by rw [← same]; rfl⟩
    cases given : input.scope with
    | none => simp [given] at scope
    | some scope' => simpa [given] using scope
  · rename_i notJust notAfter
    simp only [pure_eq_ok, Except.ok.injEq] at rest
    right
    right
    refine ⟨?_, by rw [← rest]; rfl⟩
    cases rule : row.recurrenceRule with
    | none => exact fun _ => rfl
    | some rule' =>
      rintro (scope | scope)
      · exact absurd rule (notJust rule' (by simp [scope]))
      · exact absurd rule (notAfter rule' (by simp [scope]))

theorem scheduleDue_only (now : Int) (due : List ReminderDue) (database : CalendarDatabase) :
    ∃ deliveries next, (scheduleDue now due database).1 =
      { database with deliveries := deliveries, nextDeliveryId := next } := by
  induction due generalizing database with
  | nil => exact ⟨_, _, rfl⟩
  | cons reminder rest ih =>
    rw [scheduleDue]
    split
    · obtain ⟨deliveries, next, is⟩ := ih (upsertReminderDelivery database reminder now)
      rw [is, upsertReminderDelivery]
      split
      · exact ⟨deliveries, next, rfl⟩
      · exact ⟨deliveries, next, rfl⟩
    · exact ⟨_, _, rfl⟩

theorem scheduleOccurrences_only (now : Int) (occurrences : List CalendarOccurrence)
    (database : CalendarDatabase) :
    ∃ deliveries next, (scheduleOccurrences now occurrences database).1 =
      { database with deliveries := deliveries, nextDeliveryId := next } := by
  induction occurrences generalizing database with
  | nil => exact ⟨_, _, rfl⟩
  | cons occurrence rest ih =>
    rw [scheduleOccurrences]
    split
    · exact ih database
    · split
      · exact ⟨_, _, rfl⟩
      · rename_i startMs _
        have only := scheduleDue_only now
          ((remindersDue database occurrence startMs).filter fun due => isDue now due.scheduledMs)
          database
        simp only
        split
        · rename_i scheduled scheduledEq
          rw [scheduledEq] at only
          obtain ⟨deliveries, next, is⟩ := only
          obtain ⟨deliveries', next', is'⟩ := ih scheduled
          simp only at is
          exact ⟨deliveries', next', by rw [is', is]⟩
        · rename_i scheduled error scheduledEq
          rw [scheduledEq] at only
          exact only

theorem deliver_only (keys : List DeliveryKey) (now : Int) (database : CalendarDatabase) :
    ∃ deliveries, keys.foldl (fun database key =>
      { database with deliveries := database.deliveries.modify key (markDeliveryDelivered now) })
        database = { database with deliveries := deliveries } := by
  induction keys generalizing database with
  | nil => exact ⟨_, rfl⟩
  | cons key rest ih =>
    rw [List.foldl_cons]
    obtain ⟨deliveries, is⟩ := ih _
    exact ⟨deliveries, is⟩

theorem tick_only (host : Host) (database : CalendarDatabase) (now : Int) :
    ∃ deliveries next, (scheduleDueCalendarReminders host database now).database =
      { database with deliveries := deliveries, nextDeliveryId := next } := by
  rw [scheduleDueCalendarReminders]
  split
  · exact ⟨_, _, rfl⟩
  · rename_i occurrences _
    obtain ⟨deliveries, next, is⟩ := scheduleOccurrences_only now occurrences database
    split
    · rename_i scheduled error scheduledEq
      rw [scheduledEq] at is
      exact ⟨deliveries, next, is⟩
    · rename_i scheduled scheduledEq
      rw [scheduledEq] at is
      obtain ⟨delivered, marks⟩ :=
        deliver_only ((dueDeliveries host scheduled now).map Prod.fst) now scheduled
      refine ⟨delivered, next, ?_⟩
      simp only [deliverDueInAppAndBrowserNotifications]
      simp only at is
      rw [marks, is]

def OnlyFeeds (before after : CalendarDatabase) : Prop :=
  ∃ calendars preferences externalCalendars externalCache deliveries nextCalendarId nextCacheId,
    after = { before with
      calendars := calendars
      preferences := preferences
      externalCalendars := externalCalendars
      externalCache := externalCache
      deliveries := deliveries
      nextCalendarId := nextCalendarId
      nextCacheId := nextCacheId }

theorem OnlyFeeds.refl (database : CalendarDatabase) : OnlyFeeds database database :=
  ⟨_, _, _, _, _, _, _, rfl⟩

theorem insertCacheRows_only (host : Host) (calendarId : CalendarId)
    (events : List ParsedIcsEvent) (database : CalendarDatabase) :
    ∃ cache next, (insertCacheRows host calendarId events database).1 =
      { database with externalCache := cache, nextCacheId := next } := by
  induction events generalizing database with
  | nil => exact ⟨_, _, rfl⟩
  | cons event rest ih =>
    rw [insertCacheRows]
    split
    · exact ⟨_, _, rfl⟩
    · obtain ⟨cache, next, is⟩ := ih _
      exact ⟨cache, next, is⟩

theorem OnlyFeeds.refreshed (host : Host) (database : CalendarDatabase)
    (calendarId : CalendarId) (outcome : DownloadOutcome) (now : Int) :
    OnlyFeeds database (finishRefresh host database calendarId outcome now).1 := by
  cases outcome with
  | notModified => exact ⟨_, _, _, _, _, _, _, rfl⟩
  | failed error => exact ⟨_, _, _, _, _, _, _, rfl⟩
  | fetched events headers =>
    obtain ⟨cache, next, is⟩ := insertCacheRows_only host calendarId events
      ((database.deleteExternalDeliveries calendarId).clearCache calendarId)
    simp only [finishRefresh, replaceExternalCalendarCache]
    cases rows : insertCacheRows host calendarId events
        ((database.deleteExternalDeliveries calendarId).clearCache calendarId) with
    | mk replaced error =>
      rw [rows] at is
      simp only at is
      subst is
      cases error with
      | none => exact ⟨_, _, _, _, _, _, _, rfl⟩
      | some error => exact ⟨_, _, _, _, _, _, _, rfl⟩

def CalendarCommand.ofEvents : CalendarCommand → Bool
  | .createEvent _ | .updateEvent _ | .deleteEvent _ _ => true
  | _ => false

def CalendarCommand.ofFeeds : CalendarCommand → Bool
  | .createCalendar _ | .createExternal _ | .updateExternal _ _ | .deleteExternal _
  | .refreshExternal _ _ _ => true
  | _ => false

theorem perform_onlyFeeds (host : Host) (database : CalendarDatabase)
    {command : CalendarCommand} (ofFeeds : command.ofFeeds = true) :
    OnlyFeeds database (perform host database command).database := by
  cases command with
  | createCalendar _ => exact ⟨_, _, _, _, _, _, _, rfl⟩
  | createExternal _ => exact ⟨_, _, _, _, _, _, _, rfl⟩
  | refreshExternal calendarId outcome now => exact .refreshed host database calendarId outcome now
  | updateExternal calendarId input =>
    simp only [perform]
    cases updated : updateExternalCalendar database calendarId input with
    | error error => exact .refl database
    | ok result =>
      simp only [updateExternalCalendar, bind_eq_ok, pure_eq_ok, Except.ok.injEq] at updated
      obtain ⟨_, _, rfl⟩ := updated
      exact ⟨_, _, _, _, _, _, _, rfl⟩
  | deleteExternal calendarId =>
    simp only [perform]
    cases deleted : deleteExternalCalendar database calendarId with
    | error error => exact .refl database
    | ok result =>
      simp only [deleteExternalCalendar, bind_eq_ok, pure_eq_ok, Except.ok.injEq] at deleted
      obtain ⟨_, _, rfl⟩ := deleted
      exact ⟨_, _, _, _, _, _, _, rfl⟩
  | _ => exact absurd ofFeeds (by simp [CalendarCommand.ofFeeds])

def OnlySettings (before after : CalendarDatabase) : Prop :=
  ∃ calendars preferences settings deliveries nextDeliveryId,
    after = { before with
      calendars := calendars
      preferences := preferences
      settings := settings
      deliveries := deliveries
      nextDeliveryId := nextDeliveryId }

theorem OnlySettings.performed {outcome : Except CalendarError CalendarDatabase}
    (only : ∀ updated, outcome = .ok updated → OnlySettings before updated) :
    OnlySettings before (performed before outcome).database := by
  cases outcome with
  | ok updated => exact only updated rfl
  | error error => exact ⟨_, _, _, _, _, rfl⟩

theorem perform_onlySettings (host : Host) (database : CalendarDatabase)
    {command : CalendarCommand} (notEvents : command.ofEvents = false)
    (notFeeds : command.ofFeeds = false) :
    OnlySettings database (perform host database command).database := by
  cases command with
  | dismiss _ _ => exact ⟨_, _, _, _, _, rfl⟩
  | cleanup _ => exact ⟨_, _, _, _, _, rfl⟩
  | tick now =>
    obtain ⟨deliveries, next, is⟩ := tick_only host database now
    simp only [perform, is]
    exact ⟨_, _, _, _, _, rfl⟩
  | snooze deliveryId snoozedUntil now =>
    apply OnlySettings.performed
    intro updated ok
    simp only [snoozeCalendarNotification] at ok
    split at ok
    · obtain rfl := Except.ok.inj ok
      exact ⟨_, _, _, _, _, rfl⟩
    · exact absurd ok (by simp)
  | deleteCalendar calendarId now =>
    apply OnlySettings.performed
    intro updated ok
    simp only [deleteCalendar, bind_eq_ok, pure_eq_ok, Except.ok.injEq] at ok
    obtain ⟨_, _, rfl⟩ := ok
    exact ⟨_, _, _, _, _, rfl⟩
  | updatePreference calendarId input =>
    apply OnlySettings.performed
    intro updated ok
    simp only [updateCalendarPreference, bind_eq_ok, pure_eq_ok, Except.ok.injEq] at ok
    obtain ⟨_, _, rfl⟩ := ok
    exact ⟨_, _, _, _, _, rfl⟩
  | updateSettings input =>
    apply OnlySettings.performed
    intro updated ok
    simp only [updateCalendarNotificationSettings, bind_eq_ok, pure_eq_ok,
      Except.ok.injEq] at ok
    obtain ⟨_, _, rfl⟩ := ok
    exact ⟨_, _, _, _, _, rfl⟩
  | _ => simp [CalendarCommand.ofEvents, CalendarCommand.ofFeeds] at notEvents notFeeds

theorem perform_eventTables (host : Host) (database : CalendarDatabase)
    {command : CalendarCommand} (others : command.ofEvents = false) :
    (perform host database command).database.eventTables = database.eventTables := by
  cases ofFeeds : command.ofFeeds with
  | true =>
    obtain ⟨_, _, _, _, _, _, _, is⟩ := perform_onlyFeeds host database ofFeeds
    rw [is]
    rfl
  | false =>
    obtain ⟨_, _, _, _, _, is⟩ := perform_onlySettings host database others ofFeeds
    rw [is]
    rfl

def OnlyEvents (before after : CalendarDatabase) : Prop :=
  ∃ events exdates overrides reminderRows nextReminderId remove,
    after = { before.removeDeliveries remove with
      events := events
      exdates := exdates
      overrides := overrides
      reminderRows := reminderRows
      nextReminderId := nextReminderId }

theorem removeDeliveries_none (database : CalendarDatabase) :
    database.removeDeliveries (fun _ _ => false) = database := by
  have kept : database.deliveries.filter (fun _ _ => true) = database.deliveries := by
    apply OrderedMap.ext
    exact List.filter_eq_self.mpr fun _ _ => rfl
  simp only [removeDeliveries, Bool.not_false, kept]

theorem OnlyEvents.refl (database : CalendarDatabase) : OnlyEvents database database :=
  ⟨_, _, _, _, _, fun _ _ => false, by rw [removeDeliveries_none]⟩

theorem OnlyEvents.write (only : OnlyEvents before after) (events : List EventSqlRow)
    (exdates : OrderedSet (EventId × DateText))
    (overrides : OrderedMap (EventId × DateText) OverrideRow)
    (reminderRows : List EventReminderRow) (nextReminderId : Nat) :
    OnlyEvents before { after with
      events := events
      exdates := exdates
      overrides := overrides
      reminderRows := reminderRows
      nextReminderId := nextReminderId } := by
  obtain ⟨_, _, _, _, _, remove, rfl⟩ := only
  exact ⟨events, exdates, overrides, reminderRows, nextReminderId, remove, rfl⟩

theorem OnlyEvents.clear (only : OnlyEvents before after) (eventId : EventId)
    (occurrenceStart : Option DateText) :
    OnlyEvents before (after.deleteLocalEventNotificationDeliveries eventId occurrenceStart) := by
  obtain ⟨events, exdates, overrides, reminderRows, nextReminderId, remove, rfl⟩ := only
  let dropped : DeliveryKey → DeliveryRow → Bool := fun key row =>
    remove key row || (key.sourceType == .local_ && key.eventId == .local_ eventId &&
      (occurrenceStart.filter (!·.isEmpty)).all (key.occurrenceStart == ·))
  refine ⟨events, exdates, overrides, reminderRows, nextReminderId, dropped, ?_⟩
  have twice : ((before.deliveries.filter fun key row => !remove key row).filter fun key _ =>
      !(key.sourceType == .local_ && key.eventId == .local_ eventId &&
        (occurrenceStart.filter (!·.isEmpty)).all (key.occurrenceStart == ·))) =
      before.deliveries.filter fun key row => !dropped key row := by
    apply OrderedMap.ext
    simp only [OrderedMap.filter, List.filter_filter, dropped, Bool.not_or]
    apply List.filter_congr
    intro entry _
    exact Bool.and_comm _ _
  simp only [deleteLocalEventNotificationDeliveries, removeDeliveries, twice]

theorem insertEventReminders_only (eventId : EventId) (reminders : List CalendarReminder)
    (database : CalendarDatabase) :
    ∃ rows next, insertEventReminders eventId reminders database =
      { database with reminderRows := rows, nextReminderId := next } := by
  induction reminders generalizing database with
  | nil => exact ⟨_, _, rfl⟩
  | cons reminder rest ih =>
    rw [insertEventReminders]
    obtain ⟨rows, next, is⟩ := ih _
    exact ⟨rows, next, is⟩

theorem OnlyEvents.insertEvent (only : OnlyEvents before after) (event : ValidEvent) :
    OnlyEvents before (insertEvent after event) := by
  rw [Calendar.insertEvent, replaceEventReminders]
  obtain ⟨rows, next, is⟩ := insertEventReminders_only _ _ _
  rw [is]
  exact only.write _ _ _ _ _

theorem OnlyEvents.updated {input : CalendarEventUpdateInput} {returned : EventId}
    (ok : updateCalendarEvent host before input = .ok (after, returned)) :
    OnlyEvents before after := by
  simp only [updateCalendarEvent, bind_eq_ok] at ok
  obtain ⟨row, _, _, _, _, _, rest⟩ := ok
  split at rest
  · simp only [updateJustThis, bind_eq_ok, pure_eq_ok, Except.ok.injEq, Prod.mk.injEq] at rest
    obtain ⟨updated, ⟨found, _, writes⟩, rfl, _⟩ := rest
    cases found with
    | none => exact absurd writes (by simp)
    | some selected =>
      simp only [createOrUpdateOccurrenceOverride, bind_eq_ok, pure_eq_ok,
        Except.ok.injEq] at writes
      obtain ⟨_, ⟨_, _, rfl⟩, rfl⟩ := writes
      exact ((OnlyEvents.refl before).write _ _ _ _ _).clear _ _
  · simp only [updateAfterThis, bind_eq_ok] at rest
    obtain ⟨found, _, rest⟩ := rest
    cases found with
    | none => exact absurd rest (by simp)
    | some selected =>
      simp only [bind_eq_ok] at rest
      obtain ⟨truncated, _, adjusted, _, last⟩ := rest
      have cut : OnlyEvents before (truncateEvent before input.eventId truncated) :=
        ((OnlyEvents.refl before).write _ _ _ _ _).clear _ _
      split at last
      · simp only [pure_eq_ok, Except.ok.injEq, Prod.mk.injEq] at last
        exact last.1 ▸ cut
      · obtain ⟨event, _, _, is⟩ := createCalendarEvent_cases last
        exact is ▸ cut.insertEvent event
  · simp only [updateWholeSeries, bind_eq_ok, pure_eq_ok, Except.ok.injEq, Prod.mk.injEq] at rest
    obtain ⟨event, _, _, _, rfl, _⟩ := rest
    rw [replaceEventReminders]
    obtain ⟨rows, next, is⟩ := insertEventReminders_only _ _ _
    rw [is]
    exact ((OnlyEvents.refl before).clear input.eventId none).write _ _ _ _ _

theorem OnlyEvents.deleted {input : DeleteInput}
    (ok : deleteCalendarEvent before eventId input = .ok after) : OnlyEvents before after := by
  simp only [deleteCalendarEvent, bind_eq_ok] at ok
  obtain ⟨row, _, _, _, _, _, rest⟩ := ok
  split at rest
  · simp only [pure_eq_ok, Except.ok.injEq] at rest
    exact rest ▸ ((OnlyEvents.refl before).write _ _ _ _ _).clear _ _
  · simp only [bind_eq_ok, pure_eq_ok, Except.ok.injEq] at rest
    obtain ⟨truncated, _, rfl⟩ := rest
    exact ((OnlyEvents.refl before).write _ _ _ _ _).clear _ _
  · simp only [pure_eq_ok, Except.ok.injEq] at rest
    exact rest ▸ ((OnlyEvents.refl before).clear eventId none).write _ _ _ _ _

theorem perform_onlyEvents (host : Host) (database : CalendarDatabase)
    {command : CalendarCommand} (ofEvents : command.ofEvents = true) :
    OnlyEvents database (perform host database command).database := by
  cases command with
  | createEvent input =>
    simp only [perform]
    cases created : createCalendarEvent host database input with
    | error error => exact .refl database
    | ok result =>
      obtain ⟨event, _, _, is⟩ := createCalendarEvent_cases created
      simp only [Except.map, performed, is]
      exact (OnlyEvents.refl database).insertEvent event
  | updateEvent input =>
    simp only [perform]
    cases updated : updateCalendarEvent host database input with
    | error error => exact .refl database
    | ok result => exact .updated updated
  | deleteEvent target input =>
    simp only [perform]
    cases deleted : deleteCalendarEvent database target input with
    | error error => exact .refl database
    | ok result => exact .deleted deleted
  | _ => exact absurd ofEvents (by simp [CalendarCommand.ofEvents])

end Metidos.Calendar
