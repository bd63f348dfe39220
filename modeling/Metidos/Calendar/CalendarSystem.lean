import Metidos.Calendar.CalendarListing
import Metidos.Library.Transition

/-!
Executable model of `src/bun/calendar/notifications.ts` and of the reminder deliveries in
`store.ts`: a scheduler tick, dismissals, snoozes, the cleanup, and the settings whose change
drops deliveries.
-/

namespace Metidos.Calendar

open CalendarDatabase

def catchUpWindowMs : Int := 30 * msPerMinute
def lookAheadWindowMs : Int := 2 * msPerMinute
def cleanupRetentionMs : Int := 24 * 60 * msPerMinute
def maxDueNotificationDeliveriesPerTick : Nat := 1000

def occurrenceStartMs (occurrence : CalendarOccurrence) : Except CalendarError Int :=
  match occurrence.time.start with
  | some start => .ok (if occurrence.time.allDay then start + 8 * 60 * msPerMinute else start)
  | none => .error (.message "Invalid calendar notification date")

def channelsForCalendar (calendarChannels : List NotificationChannel)
    (settings : NotificationSettings) : List NotificationChannel :=
  let enabled := (calendarChannels.filter fun channel =>
    (channel == .inApp && settings.inAppEnabled) ||
      (channel == .browser && settings.browserEnabled)).eraseDups
  if enabled.isEmpty && settings.inAppEnabled then [.inApp] else enabled

def defaultReminders (settings : NotificationSettings) : List CalendarReminder :=
  if settings.defaultReminders.isEmpty then [⟨none, defaultReminderMinutes⟩]
  else settings.defaultReminders

def remindersOf (database : CalendarDatabase) (occurrence : CalendarOccurrence) :
    List CalendarReminder :=
  match occurrence.sourceType with
  | .externalIcs =>
    match database.externalCalendars.get? occurrence.calendarId with
    | none => []
    | some external =>
      if external.notificationsEnabled then
        match external.notificationMode with
        | .source => occurrence.reminders
        | .default => defaultReminders database.settings
      else []
  | .local_ =>
    if (database.preferences.get? occurrence.calendarId).any (·.notificationsEnabled) then
      occurrence.reminders
    else []

def channelsOf (database : CalendarDatabase) (occurrence : CalendarOccurrence) :
    List NotificationChannel :=
  match occurrence.sourceType with
  | .externalIcs => channelsForCalendar [.inApp] database.settings
  | .local_ =>
    channelsForCalendar
      (((database.preferences.get? occurrence.calendarId).map
        PreferenceRow.notificationChannels).getD [])
      database.settings

/-- `reminder.id`, or else the position and the minutes. -/
def reminderIdOf (index : Nat) (reminder : CalendarReminder) : Text :=
  reminder.id.getD
    (JsText.stringOfNumber index ++ [':'] ++ JsText.stringOfNumber reminder.minutesBefore)

structure ReminderDue where
  key : DeliveryKey
  calendarId : CalendarId
  scheduledMs : Int
  title : Text
  deriving DecidableEq

/-- Inside the window of a tick.  A date out of range is no number, and passes both comparisons
of the source. -/
def isDue (now scheduledMs : Int) : Bool :=
  !isValidDate scheduledMs ||
    (now - catchUpWindowMs ≤ scheduledMs && scheduledMs ≤ now + lookAheadWindowMs)

def remindersDue (database : CalendarDatabase) (occurrence : CalendarOccurrence)
    (startMs : Int) : List ReminderDue :=
  (((remindersOf database occurrence).take maxCalendarRemindersPerEvent).zipIdx).flatMap
    fun (reminder, index) => (channelsOf database occurrence).map fun channel =>
      { key := ⟨occurrence.sourceType, occurrence.eventId, occurrence.originalStart,
          occurrence.timezone, reminderIdOf index reminder, channel⟩
        calendarId := occurrence.calendarId
        scheduledMs := startMs - reminder.minutesBefore * msPerMinute
        title := occurrence.title }

def upsertReminderDelivery (database : CalendarDatabase) (due : ReminderDue) (now : Int) :
    CalendarDatabase :=
  if database.deliveries.has due.key then database
  else
    { database with
      deliveries := database.deliveries.set due.key
        ⟨database.nextDeliveryId, due.calendarId, .instant due.scheduledMs, .scheduled, none,
          none, now, due.title⟩
      nextDeliveryId := database.nextDeliveryId + 1 }

def scheduleDue (now : Int) : List ReminderDue → CalendarDatabase →
    CalendarDatabase × Option CalendarError
  | [], database => (database, none)
  | due :: rest, database =>
    if isValidDate due.scheduledMs then
      scheduleDue now rest (upsertReminderDelivery database due now)
    else (database, some .invalidDate)

def scheduleOccurrences (now : Int) :
    List CalendarOccurrence → CalendarDatabase → CalendarDatabase × Option CalendarError
  | [], database => (database, none)
  | occurrence :: rest, database =>
    if (remindersOf database occurrence).isEmpty then scheduleOccurrences now rest database
    else
      match occurrenceStartMs occurrence with
      | .error error => (database, some error)
      | .ok startMs =>
        let due := (remindersDue database occurrence startMs).filter fun due =>
          isDue now due.scheduledMs
        match scheduleDue now due database with
        | (scheduled, none) => scheduleOccurrences now rest scheduled
        | (scheduled, some error) => (scheduled, some error)

def isDeliverable (host : Host) (now : Int) (key : DeliveryKey) (row : DeliveryRow) : Bool :=
  (row.status == .scheduled || row.status == .snoozed) &&
    (key.channel == .inApp || key.channel == .browser) &&
    host.textLe row.scheduledAt (.instant now)

def deliveryOrder (host : Host) (left right : DeliveryKey × DeliveryRow) : Bool :=
  if host.textLe left.2.scheduledAt right.2.scheduledAt then
    !host.textLe right.2.scheduledAt left.2.scheduledAt || left.2.id ≤ right.2.id
  else false

def markDeliveryDelivered (now : Int) (row : DeliveryRow) : DeliveryRow :=
  { row with
    status := .delivered
    deliveredAt := some (row.deliveredAt.getD now)
    updatedAt := now }

def dueDeliveries (host : Host) (database : CalendarDatabase) (now : Int) :
    List (DeliveryKey × DeliveryRow) :=
  ((database.deliveries.entries.filter fun entry =>
    isDeliverable host now entry.1 entry.2).mergeSort (deliveryOrder host)).take
      maxDueNotificationDeliveriesPerTick

def deliverDueInAppAndBrowserNotifications (host : Host) (database : CalendarDatabase)
    (now : Int) : CalendarDatabase × List DeliveryKey :=
  let rows := (dueDeliveries host database now).map Prod.fst
  (rows.foldl (fun database key =>
    { database with deliveries := database.deliveries.modify key (markDeliveryDelivered now) })
      database, rows)

structure TickResult where
  database : CalendarDatabase
  delivered : List DeliveryKey
  error : Option CalendarError

def scheduleDueCalendarReminders (host : Host) (database : CalendarDatabase) (now : Int) :
    TickResult :=
  match listCalendarOccurrences host database (now - catchUpWindowMs) (now + msPerDay)
      (some maxCalendarOccurrencesPerRequest) with
  | .error error => ⟨database, [], some error⟩
  | .ok occurrences =>
    match scheduleOccurrences now occurrences database with
    | (scheduled, some error) => ⟨scheduled, [], some error⟩
    | (scheduled, none) =>
      let delivered := deliverDueInAppAndBrowserNotifications host scheduled now
      ⟨delivered.1, delivered.2, none⟩

def updateDelivery (database : CalendarDatabase) (deliveryId : Nat)
    (update : DeliveryRow → DeliveryRow) : CalendarDatabase :=
  { database with
    deliveries := database.deliveries.mapValues fun row =>
      if row.id = deliveryId then update row else row }

def dismissCalendarNotification (database : CalendarDatabase) (deliveryId : Nat) (now : Int) :
    CalendarDatabase :=
  updateDelivery database deliveryId fun row =>
    { row with status := .dismissed, dismissedAt := some now, updatedAt := now }

def snoozeCalendarNotification (database : CalendarDatabase) (deliveryId : Nat)
    (snoozedUntil : DateText) (now : Int) : Except CalendarError CalendarDatabase :=
  if database.deliveries.values.any (·.id == deliveryId) then
    .ok (updateDelivery database deliveryId fun row =>
      { row with status := .snoozed, scheduledAt := snoozedUntil, updatedAt := now })
  else .error (.message "Notification not found.")

def cancelDelivery (calendarId : CalendarId) (now : Int) (row : DeliveryRow) : DeliveryRow :=
  if row.calendarId = calendarId ∧
      (row.status = .scheduled ∨ row.status = .delivered ∨ row.status = .snoozed) then
    { row with
      status := .dismissed, dismissedAt := some (row.dismissedAt.getD now), updatedAt := now }
  else row

def cancelCalendarNotifications (database : CalendarDatabase) (calendarId : CalendarId)
    (now : Int) : CalendarDatabase :=
  { database with deliveries := database.deliveries.mapValues (cancelDelivery calendarId now) }

def isPrunable (olderThan : Int) (row : DeliveryRow) : Bool :=
  (row.status == .dismissed || row.status == .expired) &&
    row.dismissedAt.getD row.updatedAt < olderThan

def runCalendarNotificationCleanup (database : CalendarDatabase) (now : Int) :
    CalendarDatabase :=
  database.removeDeliveries fun _ row => isPrunable (now - cleanupRetentionMs) row

def defaultPreference : PreferenceRow := ⟨true, true, [.inApp]⟩

def createCalendar (database : CalendarDatabase) (title : Text) : CalendarDatabase :=
  { database with
    calendars := database.calendars.set database.nextCalendarId
      ⟨orDefault "Untitled calendar".toList (JsText.trim title), false⟩
    preferences := database.preferences.set database.nextCalendarId defaultPreference
    nextCalendarId := database.nextCalendarId + 1 }

def deleteCalendar (database : CalendarDatabase) (calendarId : CalendarId) (now : Int) :
    Except CalendarError CalendarDatabase := do
  database.assertCalendarReadable calendarId
  let deleted := { database with
    calendars := database.calendars.modify calendarId fun row => { row with deleted := true } }
  pure (cancelCalendarNotifications deleted calendarId now)

structure PreferenceUpdate where
  visible : Option Bool
  notificationsEnabled : Option Bool
  notificationChannels : Option (List NotificationChannel)
  deriving DecidableEq

def orDefaultChannels (channels : List NotificationChannel) : List NotificationChannel :=
  if channels.isEmpty then [.inApp] else channels

def updateCalendarPreference (database : CalendarDatabase) (calendarId : CalendarId)
    (input : PreferenceUpdate) : Except CalendarError CalendarDatabase := do
  database.assertCalendarReadable calendarId
  let current := (database.preferences.get? calendarId).getD ⟨true, false, [.inApp]⟩
  let updated := { database with
    preferences := database.preferences.set calendarId
      ⟨input.visible.getD current.visible,
        input.notificationsEnabled.getD current.notificationsEnabled,
        orDefaultChannels (input.notificationChannels.getD current.notificationChannels)⟩ }
  pure (updated.removeDeliveries fun key row =>
    key.sourceType == .local_ && row.calendarId == calendarId)

structure SettingsUpdate where
  defaultReminders : Option (List CalendarReminderInput)
  inAppEnabled : Option Bool
  browserEnabled : Option Bool
  deriving DecidableEq

def updateCalendarNotificationSettings (database : CalendarDatabase) (input : SettingsUpdate) :
    Except CalendarError CalendarDatabase := do
  let reminders ← (input.defaultReminders.map normalizeReminders).getD
    (.ok database.settings.defaultReminders)
  let updated := { database with
    settings := ⟨reminders, input.inAppEnabled.getD database.settings.inAppEnabled,
      input.browserEnabled.getD database.settings.browserEnabled⟩ }
  pure (updated.removeDeliveries fun _ _ => true)

end Metidos.Calendar

/-!
The calendar as one system: every command that reads or writes its tables, run one after the
other on the event loop.
-/

namespace Metidos.Calendar

open CalendarDatabase

inductive CalendarCommand
  | createCalendar (title : Text)
  | deleteCalendar (calendarId : CalendarId) (now : Int)
  | updatePreference (calendarId : CalendarId) (input : PreferenceUpdate)
  | updateSettings (input : SettingsUpdate)
  | createEvent (input : CalendarEventInput)
  | updateEvent (input : CalendarEventUpdateInput)
  | deleteEvent (eventId : EventId) (input : DeleteInput)
  | createExternal (title : Text)
  | updateExternal (calendarId : CalendarId) (input : ExternalCalendarUpdate)
  | deleteExternal (calendarId : CalendarId)
  | refreshExternal (calendarId : CalendarId) (outcome : DownloadOutcome) (now : Int)
  | tick (now : Int)
  | dismiss (deliveryId : Nat) (now : Int)
  | snooze (deliveryId : Nat) (snoozedUntil : DateText) (now : Int)
  | cleanup (now : Int)
  deriving DecidableEq

structure Performed where
  database : CalendarDatabase
  error : Option CalendarError

def performed (database : CalendarDatabase) : Except CalendarError CalendarDatabase → Performed
  | .ok updated => ⟨updated, none⟩
  | .error error => ⟨database, some error⟩

@[grind =] def perform (host : Host) (database : CalendarDatabase) : CalendarCommand → Performed
  | .createCalendar title => ⟨createCalendar database title, none⟩
  | .deleteCalendar calendarId now => performed database (deleteCalendar database calendarId now)
  | .updatePreference calendarId input =>
    performed database (updateCalendarPreference database calendarId input)
  | .updateSettings input =>
    performed database (updateCalendarNotificationSettings database input)
  | .createEvent input =>
    performed database ((createCalendarEvent host database input).map Prod.fst)
  | .updateEvent input =>
    performed database ((updateCalendarEvent host database input).map Prod.fst)
  | .deleteEvent eventId input => performed database (deleteCalendarEvent database eventId input)
  | .createExternal title => ⟨database.createExternalCalendar title, none⟩
  | .updateExternal calendarId input =>
    performed database (database.updateExternalCalendar calendarId input)
  | .deleteExternal calendarId => performed database (database.deleteExternalCalendar calendarId)
  | .refreshExternal calendarId outcome now =>
    let refreshed := finishRefresh host database calendarId outcome now
    ⟨refreshed.1, refreshed.2⟩
  | .tick now =>
    let ticked := scheduleDueCalendarReminders host database now
    ⟨ticked.database, ticked.error⟩
  | .dismiss deliveryId now => ⟨dismissCalendarNotification database deliveryId now, none⟩
  | .snooze deliveryId snoozedUntil now =>
    performed database (snoozeCalendarNotification database deliveryId snoozedUntil now)
  | .cleanup now => ⟨runCalendarNotificationCleanup database now, none⟩

def calendarStep (host : Host) (database : CalendarDatabase) (command : CalendarCommand) :
    Option CalendarDatabase :=
  some (perform host database command).database

def CalendarDatabase.initial : CalendarDatabase where
  calendars := .empty
  preferences := .empty
  events := []
  exdates := .empty
  overrides := .empty
  reminderRows := []
  externalCalendars := .empty
  externalCache := []
  settings := ⟨[⟨none, defaultReminderMinutes⟩], true, false⟩
  deliveries := .empty
  nextCalendarId := 1
  nextReminderId := 1
  nextCacheId := 1
  nextDeliveryId := 1

def dailyEvent : CalendarEventInput where
  calendarId := 1
  title := "Standup".toList
  description := []
  location := []
  startAt := some (.instant 0)
  endAt := some (.instant (60 * msPerMinute))
  startDate := none
  endDate := none
  allDay := false
  timezone := "UTC".toList
  recurrenceRule := .text (some "FREQ=DAILY".toList)
  reminders := none

def createDailyEvent : List CalendarCommand :=
  [.createCalendar "Work".toList, .createEvent dailyEvent]

def CalendarEventUpdateInput.unchanged (eventId : EventId) (scope : ReminderScope)
    (occurrenceStart : Option DateText) (expectedVersion : Option Nat) :
    CalendarEventUpdateInput where
  eventId := eventId
  expectedVersion := expectedVersion
  scope := some scope
  occurrenceStart := occurrenceStart
  calendarId := none
  title := none
  description := none
  location := none
  startAt := none
  endAt := none
  startDate := none
  endDate := none
  allDay := none
  timezone := none
  recurrenceRule := none
  reminders := none

end Metidos.Calendar
