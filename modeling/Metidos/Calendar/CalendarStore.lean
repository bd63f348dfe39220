import Metidos.Calendar.Recurrence
import Metidos.Library.OrderedMap

/-!
The tables of `src/bun/calendar/store.ts` and the values they hold.  Unique columns are the keys
of a map; events are never removed, so that an identifier is the position of its row.
-/

namespace Metidos.Calendar

abbrev CalendarId := Nat
abbrev EventId := Nat

inductive SourceType
  | local_
  | externalIcs
  deriving DecidableEq

inductive NotificationChannel
  | inApp
  | browser
  | ntfy
  deriving DecidableEq

inductive DeliveryStatus
  | scheduled
  | delivered
  | dismissed
  | failed
  | expired
  | snoozed
  deriving DecidableEq

inductive EventKey
  | local_ (eventId : EventId)
  | external (uid : Text)
  deriving DecidableEq

/-- `minutesBefore` is the floor of the given number, `none` for one that is not finite. -/
structure CalendarReminderInput where
  id : Option Text
  minutesBefore : Option Int
  deriving DecidableEq

structure CalendarReminder where
  id : Option Text
  minutesBefore : Nat
  deriving DecidableEq

/-- The dates of a stored event, which `validateEventInput` has checked. -/
structure EventTime where
  time : OccurrenceTime
  start : Int
  end_ : Int
  startsAt : time.start = some start
  endsAt : time.end_ = some end_
  ordered : start < end_
  deriving DecidableEq

namespace EventTime

def startAt (time : EventTime) : Option DateText :=
  if time.time.allDay then none else some time.time.startText

def endAt (time : EventTime) : Option DateText :=
  if time.time.allDay then none else some time.time.endText

def startDate (time : EventTime) : Option DateText :=
  if time.time.allDay then some time.time.startText else none

def endDate (time : EventTime) : Option DateText :=
  if time.time.allDay then some time.time.endText else none

def duration (time : EventTime) : Int :=
  if time.time.allDay then max msPerDay (time.end_ - time.start) else time.end_ - time.start

end EventTime

structure CalendarRow where
  title : Text
  deleted : Bool
  deriving DecidableEq

structure PreferenceRow where
  visible : Bool
  notificationsEnabled : Bool
  notificationChannels : List NotificationChannel
  deriving DecidableEq

structure EventSqlRow where
  calendarId : CalendarId
  title : Text
  description : Text
  location : Text
  time : EventTime
  timezone : Text
  recurrenceRule : Option RecurrenceRule
  version : Nat
  deleted : Bool
  deriving DecidableEq

structure OverrideRow where
  title : Text
  description : Text
  location : Text
  time : EventTime
  timezone : Text
  version : Nat
  deriving DecidableEq

structure EventReminderRow where
  id : Nat
  eventId : EventId
  minutesBefore : Nat
  deriving DecidableEq

inductive NotificationMode
  | source
  | default
  deriving DecidableEq

structure ExternalCalendarRow where
  title : Text
  enabled : Bool
  visible : Bool
  notificationsEnabled : Bool
  notificationMode : NotificationMode
  etag : Option Text
  lastModified : Option Text
  lastFetchedAt : Option Int
  lastSuccessAt : Option Int
  lastErrorAt : Option Int
  lastError : Option Text
  consecutiveFailures : Nat
  deriving DecidableEq

/-- A date of a feed: an instant, or the number of a day. -/
inductive IcsTime
  | dateTime (ms : Int)
  | date (day : Int)
  deriving DecidableEq

structure IcsTimes where
  start : IcsTime
  end_ : Option IcsTime
  deriving DecidableEq

namespace IcsTimes

def allDay (times : IcsTimes) : Bool :=
  match times.start with
  | .dateTime _ => false
  | .date _ => true

def baseStart (times : IcsTimes) : Int :=
  match times.start with
  | .dateTime ms => ms
  | .date day => day * msPerDay

def baseEnd (times : IcsTimes) : Int :=
  match times.start, times.end_ with
  | .dateTime _, some (.dateTime ms) => ms
  | .date _, some (.date day) => day * msPerDay
  | _, _ => times.baseStart

def duration (times : IcsTimes) : Int :=
  if times.allDay then max msPerDay (times.baseEnd - times.baseStart)
  else max 0 (times.baseEnd - times.baseStart)

end IcsTimes

structure ExternalCacheRow where
  id : Nat
  externalCalendarId : CalendarId
  uid : Text
  recurrenceId : Option DateText
  title : Text
  description : Text
  location : Text
  times : IcsTimes
  timezone : Text
  recurrenceRule : Option RecurrenceRule
  exdates : List DateText
  reminders : List CalendarReminder
  deriving DecidableEq

structure NotificationSettings where
  defaultReminders : List CalendarReminder
  inAppEnabled : Bool
  browserEnabled : Bool
  deriving DecidableEq

structure DeliveryKey where
  sourceType : SourceType
  eventId : EventKey
  occurrenceStart : DateText
  occurrenceTimezone : Text
  reminderId : Text
  channel : NotificationChannel
  deriving DecidableEq

structure DeliveryRow where
  id : Nat
  calendarId : CalendarId
  scheduledAt : DateText
  status : DeliveryStatus
  deliveredAt : Option Int
  dismissedAt : Option Int
  updatedAt : Int
  title : Text
  deriving DecidableEq

structure CalendarDatabase where
  calendars : OrderedMap CalendarId CalendarRow
  preferences : OrderedMap CalendarId PreferenceRow
  events : List EventSqlRow
  exdates : OrderedSet (EventId × DateText)
  overrides : OrderedMap (EventId × DateText) OverrideRow
  reminderRows : List EventReminderRow
  externalCalendars : OrderedMap CalendarId ExternalCalendarRow
  externalCache : List ExternalCacheRow
  settings : NotificationSettings
  deliveries : OrderedMap DeliveryKey DeliveryRow
  nextCalendarId : CalendarId
  nextReminderId : Nat
  nextCacheId : Nat
  nextDeliveryId : Nat

def maxCalendarRemindersPerEvent : Nat := 20
def defaultReminderMinutes : Nat := 10
def maxCalendarOccurrencesPerRequest : Nat := 5000

def orDefault (fallback text : Text) : Text := if text.isEmpty then fallback else text

def normalizeReminder (reminder : CalendarReminderInput) : Option CalendarReminder :=
  reminder.minutesBefore.map fun minutes => ⟨reminder.id, minutes.toNat⟩

def normalizeReminders (reminders : List CalendarReminderInput) :
    Except CalendarError (List CalendarReminder) :=
  if reminders.length > maxCalendarRemindersPerEvent then
    .error (.message "Calendar events support at most 20 reminders.")
  else .ok (reminders.filterMap normalizeReminder)

namespace CalendarDatabase

def assertCalendarReadable (database : CalendarDatabase) (calendarId : CalendarId) :
    Except CalendarError Unit :=
  if (database.calendars.get? calendarId).any (!·.deleted) then .ok ()
  else .error (.message "Calendar not found or not visible.")

def assertCalendarWritable (database : CalendarDatabase) (calendarId : CalendarId) :
    Except CalendarError Unit :=
  database.assertCalendarReadable calendarId

def listEventExdates (database : CalendarDatabase) (eventId : EventId) : List DateText :=
  (database.exdates.elements.filter (·.1 == eventId)).map Prod.snd

def listEventOverrides (database : CalendarDatabase) (eventId : EventId) :
    List (DateText × OverrideRow) :=
  (database.overrides.entries.filter (·.1.1 == eventId)).map fun entry => (entry.1.2, entry.2)

def reminderRowLe (first second : EventReminderRow) : Bool :=
  first.minutesBefore < second.minutesBefore ||
    (first.minutesBefore == second.minutesBefore && first.id ≤ second.id)

def eventReminders (database : CalendarDatabase) (eventId : EventId) : List CalendarReminder :=
  ((database.reminderRows.filter (·.eventId == eventId)).mergeSort reminderRowLe).map fun row =>
    ⟨some (JsText.stringOfNumber row.id), row.minutesBefore⟩

def currentEventRow (database : CalendarDatabase) (eventId : EventId) :
    Except CalendarError EventSqlRow :=
  match database.events[eventId]? with
  | some row => if row.deleted then .error (.message "Event not found.") else .ok row
  | none => .error (.message "Event not found.")

def updateEventRow (database : CalendarDatabase) (eventId : EventId)
    (update : EventSqlRow → EventSqlRow) : CalendarDatabase :=
  { database with events := database.events.modify eventId update }

def insertExdate (database : CalendarDatabase) (eventId : EventId) (originalStart : DateText) :
    CalendarDatabase :=
  { database with exdates := database.exdates.add (eventId, originalStart) }

def removeDeliveries (database : CalendarDatabase) (remove : DeliveryKey → DeliveryRow → Bool) :
    CalendarDatabase :=
  { database with deliveries := database.deliveries.filter fun key row => !remove key row }

def deleteLocalEventNotificationDeliveries (database : CalendarDatabase) (eventId : EventId)
    (occurrenceStart : Option DateText) : CalendarDatabase :=
  database.removeDeliveries fun key _ =>
    key.sourceType == .local_ && key.eventId == .local_ eventId &&
      (occurrenceStart.filter (!·.isEmpty)).all (key.occurrenceStart == ·)

def insertEventReminders (eventId : EventId) :
    List CalendarReminder → CalendarDatabase → CalendarDatabase
  | [], database => database
  | reminder :: rest, database =>
    insertEventReminders eventId rest
      { database with
        reminderRows := database.reminderRows ++
          [⟨database.nextReminderId, eventId, reminder.minutesBefore⟩]
        nextReminderId := database.nextReminderId + 1 }

def replaceEventReminders (database : CalendarDatabase) (eventId : EventId)
    (reminders : List CalendarReminder) : CalendarDatabase :=
  insertEventReminders eventId reminders
    { database with
      reminderRows := database.reminderRows.filter (·.eventId != eventId) }

end CalendarDatabase

end Metidos.Calendar

/-!
Executable model of the events of `src/bun/calendar/store.ts`: creation, updates and deletes in
each scope, and the overrides and excluded dates they write.
-/

namespace Metidos.Calendar

open CalendarDatabase

inductive ReminderScope
  | wholeSeries
  | afterThis
  | justThis
  deriving DecidableEq

inductive RuleInput
  | text (rule : Option Text)
  | stored (rule : Option RecurrenceRule)
  deriving DecidableEq

structure CalendarEventInput where
  calendarId : CalendarId
  title : Text
  description : Text
  location : Text
  startAt : Option DateText
  endAt : Option DateText
  startDate : Option DateText
  endDate : Option DateText
  allDay : Bool
  timezone : Text
  recurrenceRule : RuleInput
  reminders : Option (List CalendarReminderInput)
  deriving DecidableEq

structure CalendarEventUpdateInput where
  eventId : EventId
  expectedVersion : Option Nat
  scope : Option ReminderScope
  occurrenceStart : Option DateText
  calendarId : Option CalendarId
  title : Option Text
  description : Option Text
  location : Option Text
  startAt : Option DateText
  endAt : Option DateText
  startDate : Option DateText
  endDate : Option DateText
  allDay : Option Bool
  timezone : Option Text
  recurrenceRule : Option (Option Text)
  reminders : Option (List CalendarReminderInput)
  deriving DecidableEq

structure DeleteInput where
  scope : Option ReminderScope
  occurrenceStart : Option DateText
  expectedVersion : Option Nat
  deriving DecidableEq

structure ValidEvent where
  calendarId : CalendarId
  title : Text
  description : Text
  location : Text
  time : EventTime
  timezone : Text
  recurrenceRule : Option RecurrenceRule
  reminders : List CalendarReminder
  deriving DecidableEq

def normalizeCalendarTimezone (host : Host) (value : Text) : Except CalendarError Text :=
  let timezone := orDefault "UTC".toList (JsText.trim value)
  if timezone = "UTC".toList || (host.timeZone timezone).isSome then .ok timezone
  else .error (.message ("Calendar timezone is invalid: " ++ String.ofList timezone))

theorem moment_of_parseStrict {text : DateText} {ms : Int} (parsed : text.parseStrict = some ms) :
    text.moment true = some ms := by
  cases text with
  | day number => exact parsed
  | instant _ => exact absurd parsed (by simp [DateText.parseStrict])
  | other _ _ _ => exact absurd parsed (by simp [DateText.parseStrict])

def validateAllDay (startDate endDate : Option DateText) : Except CalendarError EventTime :=
  match startDate.filter (!·.isEmpty), endDate.filter (!·.isEmpty) with
  | some startText, some endText =>
    match startParsed : startText.parseStrict with
    | none => .error (.message "startDate must be a valid YYYY-MM-DD date.")
    | some start =>
      match endParsed : endText.parseStrict with
      | none => .error (.message "endDate must be a valid YYYY-MM-DD date.")
      | some end_ =>
        if ordered : start < end_ then
          .ok ⟨⟨true, startText, endText⟩, start, end_, moment_of_parseStrict startParsed,
            moment_of_parseStrict endParsed, ordered⟩
        else .error (.message "All-day events require endDate after startDate.")
  | _, _ => .error (.message "All-day events require startDate and endDate.")

def validateTimed (startAt endAt : Option DateText) : Except CalendarError EventTime :=
  match startAt.filter (!·.isEmpty), endAt.filter (!·.isEmpty) with
  | some startText, some endText =>
    match startParsed : startText.parseDate, endParsed : endText.parseDate with
    | some start, some end_ =>
      if ordered : start < end_ then
        .ok ⟨⟨false, startText, endText⟩, start, end_, startParsed, endParsed, ordered⟩
      else .error (.message "Timed events require endAt after startAt.")
    | _, _ => .error (.message "Timed events require endAt after startAt.")
  | _, _ => .error (.message "Timed events require startAt and endAt.")

def validateRule (host : Host) : RuleInput → Except CalendarError (Option RecurrenceRule)
  | .text rule => validateRRuleString host rule
  -- The text of a rule in a row has passed before.
  | .stored rule => .ok rule

def defaultEventReminders : List CalendarReminderInput := [⟨none, some defaultReminderMinutes⟩]

def validateEventInput (host : Host) (input : CalendarEventInput) :
    Except CalendarError ValidEvent := do
  let timezone ← normalizeCalendarTimezone host input.timezone
  let time ←
    if input.allDay then validateAllDay input.startDate input.endDate
    else validateTimed input.startAt input.endAt
  let recurrenceRule ← validateRule host input.recurrenceRule
  let reminders ← normalizeReminders (input.reminders.getD defaultEventReminders)
  pure {
    calendarId := input.calendarId
    title := orDefault "Untitled event".toList (JsText.trim input.title)
    description := input.description
    location := input.location
    time := time
    timezone := timezone
    recurrenceRule := recurrenceRule
    reminders := reminders }

def insertEvent (database : CalendarDatabase) (event : ValidEvent) : CalendarDatabase :=
  replaceEventReminders
    { database with
      events := database.events ++
        [⟨event.calendarId, event.title, event.description, event.location, event.time,
          event.timezone, event.recurrenceRule, 1, false⟩] }
    database.events.length event.reminders

def createCalendarEvent (host : Host) (database : CalendarDatabase) (input : CalendarEventInput) :
    Except CalendarError (CalendarDatabase × EventId) := do
  database.assertCalendarWritable input.calendarId
  let event ← validateEventInput host input
  pure (insertEvent database event, database.events.length)

def assertVersion (row : EventSqlRow) (expectedVersion : Option Nat) : Except CalendarError Unit :=
  if expectedVersion.all (row.version == ·) then .ok () else .error .eventChanged

def expansionInput (row : EventSqlRow) (exdates : List DateText) : RecurrenceExpansionInput where
  allDay := row.time.time.allDay
  baseStart := row.time.start
  duration := row.time.duration
  recurrenceRule := row.recurrenceRule
  exdates := exdates
  timezone := row.timezone

def expandRowOccurrences (host : Host) (row : EventSqlRow) (windowStart windowEnd : Int)
    (exdates : List DateText) (maxOccurrences : Option Nat) :
    Except CalendarError (List ExpandedOccurrenceTime) :=
  expandCalendarOccurrences host (expansionInput row exdates) windowStart windowEnd maxOccurrences

def findOccurrenceTimeForStart (host : Host) (row : EventSqlRow) (occurrenceStart : DateText) :
    Except CalendarError (Option ExpandedOccurrenceTime) := do
  match row.recurrenceRule with
  | none =>
    let base := row.time.start
    let found ← expandRowOccurrences host row (base - msPerDay) (base + msPerDay) [] none
    pure found.head?
  | some _ =>
    match occurrenceStart.moment row.time.time.allDay with
    | none => pure none
    | some center =>
      let found ← expandRowOccurrences host row (center - 2 * msPerDay) (center + 2 * msPerDay)
        [] none
      pure (found.find? (·.originalStart == occurrenceStart))

def occurrenceStartOf (row : EventSqlRow) (occurrenceStart : Option DateText) : DateText :=
  occurrenceStart.getD row.time.time.startText

def reminderInputs (reminders : List CalendarReminder) : List CalendarReminderInput :=
  reminders.map fun reminder => ⟨reminder.id, some reminder.minutesBefore⟩

def CalendarEventUpdateInput.over (input : CalendarEventUpdateInput) (row : EventSqlRow)
    (calendarId : CalendarId) (time : OccurrenceTime) (recurrenceRule : RuleInput)
    (reminders : List CalendarReminderInput) : CalendarEventInput where
  calendarId := calendarId
  title := input.title.getD row.title
  description := input.description.getD row.description
  location := input.location.getD row.location
  startAt := input.startAt <|> (if time.allDay then none else some time.startText)
  endAt := input.endAt <|> (if time.allDay then none else some time.endText)
  startDate := input.startDate <|> (if time.allDay then some time.startText else none)
  endDate := input.endDate <|> (if time.allDay then some time.endText else none)
  allDay := input.allDay.getD row.time.time.allDay
  timezone := input.timezone.getD row.timezone
  recurrenceRule := recurrenceRule
  reminders := some reminders

def upsertOverride (database : CalendarDatabase) (eventId : EventId) (originalStart : DateText)
    (override : OverrideRow) : CalendarDatabase :=
  let version := match database.overrides.get? (eventId, originalStart) with
    | some stored => stored.version + 1
    | none => 1
  { database with
    overrides :=
      database.overrides.set (eventId, originalStart) { override with version := version } }

def createOrUpdateOccurrenceOverride (host : Host) (database : CalendarDatabase)
    (eventId : EventId) (row : EventSqlRow) (input : CalendarEventUpdateInput)
    (originalStart : DateText) (selected : ExpandedOccurrenceTime) :
    Except CalendarError CalendarDatabase := do
  let normalized ← validateEventInput host
    (input.over row row.calendarId selected.time (.stored row.recurrenceRule) [])
  pure (upsertOverride database eventId originalStart
    ⟨normalized.title, normalized.description, normalized.location, normalized.time,
      normalized.timezone, 1⟩)

def updateJustThis (host : Host) (database : CalendarDatabase) (eventId : EventId)
    (row : EventSqlRow) (input : CalendarEventUpdateInput) (occurrenceStart : DateText) :
    Except CalendarError CalendarDatabase := do
  match ← findOccurrenceTimeForStart host row occurrenceStart with
  | none => .error (.message "Occurrence not found for update.")
  | some selected =>
    let written ←
      createOrUpdateOccurrenceOverride host database eventId row input occurrenceStart selected
    pure ((written.insertExdate eventId occurrenceStart).deleteLocalEventNotificationDeliveries
      eventId (some occurrenceStart))

def truncateEvent (database : CalendarDatabase) (eventId : EventId)
    (truncated : RecurrenceRule) : CalendarDatabase :=
  (database.updateEventRow eventId fun stored =>
    { stored with
      recurrenceRule := some truncated
      version := stored.version + 1 }).deleteLocalEventNotificationDeliveries eventId none

def adjustedFutureRule (host : Host) (row : EventSqlRow) (recurrenceRule : RecurrenceRule)
    (input : CalendarEventUpdateInput) (occurrenceStart : DateText) :
    Except CalendarError RuleInput :=
  match input.recurrenceRule with
  | some rule => .ok (.text rule)
  | none =>
    (adjustRRuleCountAfterSplit host recurrenceRule row.time.time.startText occurrenceStart
      row.time.time.allDay).map RuleInput.stored

/-- An update of an occurrence and the following ones: the rule is truncated, and the rest becomes
an event of its own.  The result names the event returned to the client. -/
def updateAfterThis (host : Host) (database : CalendarDatabase) (eventId : EventId)
    (row : EventSqlRow) (recurrenceRule : RecurrenceRule) (input : CalendarEventUpdateInput)
    (occurrenceStart : DateText) : Except CalendarError (CalendarDatabase × EventId) := do
  match ← findOccurrenceTimeForStart host row occurrenceStart with
  | none => .error (.message "Occurrence not found for split.")
  | some selected =>
    let truncated ←
      truncateRRuleBeforeOccurrence recurrenceRule occurrenceStart row.time.time.allDay
    let cut := truncateEvent database eventId truncated
    let future ← adjustedFutureRule host row recurrenceRule input occurrenceStart
    if future = .stored none then pure (cut, eventId)
    else
      createCalendarEvent host cut
        (input.over row row.calendarId selected.time future
          (input.reminders.getD (reminderInputs (cut.eventReminders eventId))))

def updateWholeSeries (host : Host) (database : CalendarDatabase) (eventId : EventId)
    (row : EventSqlRow) (input : CalendarEventUpdateInput) : Except CalendarError (CalendarDatabase × EventId) := do
  let recurrenceRule : RuleInput :=
    match input.recurrenceRule with
    | some rule => .text rule
    | none => .stored row.recurrenceRule
  let normalized ← validateEventInput host
    (input.over row (input.calendarId.getD row.calendarId) row.time.time recurrenceRule
      (input.reminders.getD (reminderInputs (database.eventReminders eventId))))
  database.assertCalendarWritable normalized.calendarId
  let cleared := database.deleteLocalEventNotificationDeliveries eventId none
  let updated := cleared.updateEventRow eventId fun stored =>
    { stored with
      calendarId := normalized.calendarId
      title := normalized.title
      description := normalized.description
      location := normalized.location
      time := normalized.time
      timezone := normalized.timezone
      recurrenceRule := normalized.recurrenceRule
      version := stored.version + 1 }
  pure (updated.replaceEventReminders eventId normalized.reminders, eventId)

def updateCalendarEvent (host : Host) (database : CalendarDatabase)
    (input : CalendarEventUpdateInput) : Except CalendarError (CalendarDatabase × EventId) := do
  let row ← database.currentEventRow input.eventId
  database.assertCalendarWritable row.calendarId
  assertVersion row input.expectedVersion
  let occurrenceStart := occurrenceStartOf row input.occurrenceStart
  match input.scope.getD .wholeSeries, row.recurrenceRule with
  | .justThis, _ => do
      let updated ← updateJustThis host database input.eventId row input occurrenceStart
      pure (updated, input.eventId)
  | .afterThis, some recurrenceRule =>
    updateAfterThis host database input.eventId row recurrenceRule input occurrenceStart
  | _, _ => updateWholeSeries host database input.eventId row input

def deleteCalendarEvent (database : CalendarDatabase) (eventId : EventId) (input : DeleteInput) :
    Except CalendarError CalendarDatabase := do
  let row ← database.currentEventRow eventId
  database.assertCalendarWritable row.calendarId
  assertVersion row input.expectedVersion
  let occurrenceStart := occurrenceStartOf row input.occurrenceStart
  match input.scope.getD .wholeSeries, row.recurrenceRule with
  | .justThis, some _ =>
    pure ((database.insertExdate eventId occurrenceStart).deleteLocalEventNotificationDeliveries
      eventId (some occurrenceStart))
  | .afterThis, some recurrenceRule => do
      let truncated ←
        truncateRRuleBeforeOccurrence recurrenceRule occurrenceStart row.time.time.allDay
      pure (truncateEvent database eventId truncated)
  | _, _ =>
    pure ((database.deleteLocalEventNotificationDeliveries eventId none).updateEventRow eventId
      fun stored => { stored with deleted := true })

end Metidos.Calendar
