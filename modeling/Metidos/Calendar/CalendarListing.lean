import Metidos.Calendar.CalendarStore

/-!
Executable model of `listCalendarOccurrences`: the expansions of local events with their
overrides, and the cached events of feeds.
-/

namespace Metidos.Calendar

open CalendarDatabase

/-- `local:event:start`, or `external_ics:calendar:uid:recurrence:start`. -/
inductive OccurrenceId
  | local_ (eventId : EventId) (originalStart : DateText)
  | external (calendarId : CalendarId) (uid : Text) (recurrence start : DateText)
  deriving DecidableEq

structure CalendarOccurrence where
  occurrenceId : OccurrenceId
  sourceType : SourceType
  calendarId : CalendarId
  eventId : EventKey
  title : Text
  description : Text
  location : Text
  time : OccurrenceTime
  timezone : Text
  isRecurring : Bool
  originalStart : DateText
  version : Option Nat
  reminders : List CalendarReminder
  deriving DecidableEq

def assertCalendarOccurrenceLimit (count : Nat) (maxOccurrences : Option Nat) :
    Except CalendarError Unit :=
  match maxOccurrences with
  | none => .ok ()
  | some maxOccurrences =>
    if count > maxOccurrences then .error (.occurrenceLimit maxOccurrences) else .ok ()

def CalendarDatabase.isVisibleCalendar (database : CalendarDatabase) (calendarId : CalendarId) :
    Bool :=
  (database.calendars.get? calendarId).any (!·.deleted) &&
    (database.preferences.get? calendarId).all (·.visible)

def CalendarDatabase.visibleEvents (database : CalendarDatabase) :
    List (EventSqlRow × EventId) :=
  database.events.zipIdx.filter fun entry =>
    !entry.1.deleted && database.isVisibleCalendar entry.1.calendarId

def localOccurrence (eventId : EventId) (row : EventSqlRow) (reminders : List CalendarReminder)
    (time : ExpandedOccurrenceTime) (override : Option OverrideRow) : CalendarOccurrence where
  occurrenceId := .local_ eventId time.originalStart
  sourceType := .local_
  calendarId := row.calendarId
  eventId := .local_ eventId
  title := (override.map OverrideRow.title).getD row.title
  description := (override.map OverrideRow.description).getD row.description
  location := (override.map OverrideRow.location).getD row.location
  time := (override.map fun row => row.time.time).getD time.time
  timezone := (override.map OverrideRow.timezone).getD row.timezone
  isRecurring := row.recurrenceRule.isSome
  originalStart := time.originalStart
  version := some ((override.map OverrideRow.version).getD row.version)
  reminders := reminders

def localOverrideToOccurrence (eventId : EventId) (row : EventSqlRow)
    (reminders : List CalendarReminder) (windowStart windowEnd : Int)
    (override : DateText × OverrideRow) : Option CalendarOccurrence :=
  if override.2.time.time.overlaps windowStart windowEnd then
    some (localOccurrence eventId row reminders ⟨override.1, override.2.time.time⟩
      (some override.2))
  else none

/-- The occurrences of one event, after `before` others.  The pushes of the last loop are checked
against the limit one by one in the source, with the same outcome. -/
def listEventOccurrences (host : Host) (database : CalendarDatabase) (windowStart windowEnd : Int)
    (maxOccurrences : Option Nat) (before : Nat) (entry : EventSqlRow × EventId) :
    Except CalendarError (List CalendarOccurrence) := do
  let (row, eventId) := entry
  let overrides := database.listEventOverrides eventId
  let reminders := database.eventReminders eventId
  let occurrenceTimes ← expandRowOccurrences host row windowStart windowEnd
    (database.listEventExdates eventId) (maxOccurrences.map (· - before))
  assertCalendarOccurrenceLimit (before + occurrenceTimes.length) maxOccurrences
  let rendered := occurrenceTimes.map fun time =>
    localOccurrence eventId row reminders time
      (database.overrides.get? (eventId, time.originalStart))
  let moved := (overrides.filter fun override =>
    !occurrenceTimes.any (·.originalStart == override.1)).filterMap
      (localOverrideToOccurrence eventId row reminders windowStart windowEnd)
  assertCalendarOccurrenceLimit (before + rendered.length + moved.length) maxOccurrences
  pure (rendered ++ moved)

def listRows {ρ : Type} (list : Nat → ρ → Except CalendarError (List CalendarOccurrence)) :
    Nat → List ρ → Except CalendarError (List CalendarOccurrence)
  | _, [] => .ok []
  | before, row :: rest => do
      let here ← list before row
      let later ← listRows list (before + here.length) rest
      pure (here ++ later)

def CalendarDatabase.isListedExternal (database : CalendarDatabase) (calendarId : CalendarId) :
    Bool :=
  (database.externalCalendars.get? calendarId).any fun calendar =>
    calendar.enabled && calendar.visible

def CalendarDatabase.listedCache (database : CalendarDatabase) : List ExternalCacheRow :=
  database.externalCache.filter fun row => database.isListedExternal row.externalCalendarId

def overrideOriginalStarts (rows : List ExternalCacheRow) (calendarId : CalendarId) (uid : Text) :
    List DateText :=
  (rows.filter fun row => row.externalCalendarId == calendarId && row.uid == uid).filterMap
    ExternalCacheRow.recurrenceId

def externalExpansionInput (rows : List ExternalCacheRow) (row : ExternalCacheRow) :
    RecurrenceExpansionInput where
  allDay := row.times.allDay
  baseStart := row.times.baseStart
  duration := row.times.duration
  recurrenceRule := row.recurrenceRule
  exdates := row.exdates ++
    (match row.recurrenceId with
    | some _ => []
    | none => overrideOriginalStarts rows row.externalCalendarId row.uid)
  timezone := row.timezone

def externalOccurrence (row : ExternalCacheRow) (time : ExpandedOccurrenceTime) :
    CalendarOccurrence where
  occurrenceId := .external row.externalCalendarId row.uid
    (row.recurrenceId.getD time.originalStart) time.originalStart
  sourceType := .externalIcs
  calendarId := row.externalCalendarId
  eventId := .external row.uid
  title := row.title
  description := row.description
  location := row.location
  time := time.time
  timezone := row.timezone
  isRecurring := row.recurrenceRule.isSome
  originalStart := row.recurrenceId.getD time.originalStart
  version := none
  reminders := row.reminders

def listCachedOccurrences (host : Host) (rows : List ExternalCacheRow)
    (windowStart windowEnd : Int) (maxOccurrences : Option Nat) (before : Nat)
    (row : ExternalCacheRow) : Except CalendarError (List CalendarOccurrence) := do
  let times ← expandCalendarOccurrences host (externalExpansionInput rows row) windowStart
    windowEnd (maxOccurrences.map (· - before))
  assertCalendarOccurrenceLimit (before + times.length) maxOccurrences
  pure (times.map (externalOccurrence row))

def listExternalOccurrences (host : Host) (database : CalendarDatabase)
    (windowStart windowEnd : Int) (maxOccurrences : Option Nat) :
    Except CalendarError (List CalendarOccurrence) :=
  let rows := database.listedCache
  listRows (listCachedOccurrences host rows windowStart windowEnd maxOccurrences) 0 rows

def occurrenceLe (host : Host) (left right : CalendarOccurrence) : Bool :=
  host.sortsBefore (left.time.startText, left.title) (right.time.startText, right.title)

def listCalendarOccurrences (host : Host) (database : CalendarDatabase)
    (windowStart windowEnd : Int) (maxOccurrences : Option Nat) :
    Except CalendarError (List CalendarOccurrence) := do
  let localOccurrences ← listRows
    (listEventOccurrences host database windowStart windowEnd maxOccurrences) 0
    database.visibleEvents
  let externalOccurrences ← listExternalOccurrences host database windowStart windowEnd
    (maxOccurrences.map (· - localOccurrences.length))
  let occurrences := localOccurrences ++ externalOccurrences
  assertCalendarOccurrenceLimit occurrences.length maxOccurrences
  pure (occurrences.mergeSort (occurrenceLe host))

end Metidos.Calendar

/-!
Executable model of the cache of external calendars: its replacement after a download, and the
end of `refreshExternalIcsCalendar` in `src/bun/calendar/ics.ts`.
-/

namespace Metidos.Calendar

structure ParsedIcsEvent where
  uid : Text
  recurrenceId : Option DateText
  title : Text
  description : Text
  location : Text
  times : IcsTimes
  timezone : Text
  recurrenceRule : Option Text
  exdates : List DateText
  reminders : List CalendarReminderInput
  deriving DecidableEq

structure CacheHeaders where
  etag : Option Text
  lastModified : Option Text
  deriving DecidableEq

inductive DownloadOutcome
  | notModified
  | failed (error : Text)
  | fetched (events : List ParsedIcsEvent) (headers : CacheHeaders)
  deriving DecidableEq

namespace CalendarDatabase

def sameCacheKey (calendarId : CalendarId) (event : ParsedIcsEvent) (row : ExternalCacheRow) :
    Bool :=
  row.externalCalendarId == calendarId && row.uid == event.uid &&
    event.recurrenceId.isSome && row.recurrenceId == event.recurrenceId

def cacheRowOf (host : Host) (database : CalendarDatabase) (calendarId : CalendarId)
    (event : ParsedIcsEvent) : Except CalendarError ExternalCacheRow := do
  let recurrenceRule ← validateRRuleString host event.recurrenceRule
  let reminders ← normalizeReminders event.reminders
  if database.externalCache.any (sameCacheKey calendarId event) then
    .error (.message "UNIQUE constraint failed")
  else if (database.externalCalendars.get? calendarId).isNone then
    .error (.message "FOREIGN KEY constraint failed")
  else
    pure ⟨database.nextCacheId, calendarId, event.uid, event.recurrenceId, event.title,
      event.description, event.location, event.times, event.timezone, recurrenceRule,
      event.exdates, reminders⟩

@[grind =] def insertCacheRows (host : Host) (calendarId : CalendarId) :
    List ParsedIcsEvent → CalendarDatabase → CalendarDatabase × Option CalendarError
  | [], database => (database, none)
  | event :: rest, database =>
    match cacheRowOf host database calendarId event with
    | .error error => (database, some error)
    | .ok row =>
      insertCacheRows host calendarId rest
        { database with
          externalCache := database.externalCache ++ [row]
          nextCacheId := database.nextCacheId + 1 }

def updateExternalRow (database : CalendarDatabase) (calendarId : CalendarId)
    (update : ExternalCalendarRow → ExternalCalendarRow) : CalendarDatabase :=
  { database with externalCalendars := database.externalCalendars.modify calendarId update }

def deleteExternalDeliveries (database : CalendarDatabase) (calendarId : CalendarId) :
    CalendarDatabase :=
  database.removeDeliveries fun key row =>
    key.sourceType == .externalIcs && row.calendarId == calendarId

def clearCache (database : CalendarDatabase) (calendarId : CalendarId) : CalendarDatabase :=
  { database with
    externalCache := database.externalCache.filter (·.externalCalendarId != calendarId) }

def markSuccess (now : Int) (row : ExternalCalendarRow) : ExternalCalendarRow :=
  { row with
    lastFetchedAt := some now, lastSuccessAt := some now, lastErrorAt := none, lastError := none,
    consecutiveFailures := 0 }

def replaceExternalCalendarCache (host : Host) (database : CalendarDatabase)
    (calendarId : CalendarId) (events : List ParsedIcsEvent) (headers : CacheHeaders)
    (now : Int) : CalendarDatabase × Option CalendarError :=
  let cleared := (database.deleteExternalDeliveries calendarId).clearCache calendarId
  match insertCacheRows host calendarId events cleared with
  | (inserted, some error) => (inserted, some error)
  | (inserted, none) =>
    (inserted.updateExternalRow calendarId fun row =>
      { markSuccess now row with etag := headers.etag, lastModified := headers.lastModified },
      none)

def CalendarError.text : CalendarError → Text
  | .message text => text.toList
  | .invalidDate => "Invalid Date".toList
  | .dstGap timezone _ => "Recurring occurrence falls in a DST gap for ".toList ++ timezone
  | .dstAmbiguous timezone _ =>
    "Recurring occurrence is ambiguous during a DST transition for ".toList ++ timezone
  | .occurrenceLimit maxOccurrences =>
    "Calendar occurrence request returned more than ".toList ++
      JsText.stringOfNumber maxOccurrences ++ " occurrences. Narrow the date range.".toList
  | .eventChanged => "Event changed".toList

def markExternalCalendarFetchError (database : CalendarDatabase) (calendarId : CalendarId)
    (error : Text) (now : Int) : CalendarDatabase :=
  database.updateExternalRow calendarId fun row =>
    { row with
      lastFetchedAt := some now, lastErrorAt := some now, lastError := some error,
      consecutiveFailures := row.consecutiveFailures + 1 }

/-- `refreshExternalIcsCalendar` from the end of the download on. -/
def finishRefresh (host : Host) (database : CalendarDatabase) (calendarId : CalendarId)
    (outcome : DownloadOutcome) (now : Int) : CalendarDatabase × Option CalendarError :=
  match outcome with
  | .notModified => (database.updateExternalRow calendarId (markSuccess now), none)
  | .failed error =>
    (database.markExternalCalendarFetchError calendarId error now,
      some (.message (String.ofList error)))
  | .fetched events headers =>
    match replaceExternalCalendarCache host database calendarId events headers now with
    | (replaced, none) => (replaced, none)
    | (replaced, some error) =>
      (replaced.markExternalCalendarFetchError calendarId (CalendarError.text error) now,
        some error)

def createExternalCalendar (database : CalendarDatabase) (title : Text) : CalendarDatabase :=
  { database with
    externalCalendars := database.externalCalendars.set database.nextCalendarId
      ⟨orDefault "External calendar".toList (JsText.trim title), true, true, false, .default, none,
        none, none, none, none, none, 0⟩
    nextCalendarId := database.nextCalendarId + 1 }

structure ExternalCalendarUpdate where
  title : Option Text
  visible : Option Bool
  enabled : Option Bool
  notificationsEnabled : Option Bool
  notificationMode : Option NotificationMode
  deriving DecidableEq

def assertExternal (database : CalendarDatabase) (calendarId : CalendarId) :
    Except CalendarError Unit :=
  if (database.externalCalendars.get? calendarId).isSome then .ok ()
  else .error (.message "External calendar not found.")

def updateExternalCalendar (database : CalendarDatabase) (calendarId : CalendarId)
    (input : ExternalCalendarUpdate) : Except CalendarError CalendarDatabase := do
  database.assertExternal calendarId
  let updated := database.updateExternalRow calendarId fun row =>
    { row with
      title := (input.title.map fun title => orDefault row.title (JsText.trim title)).getD row.title
      visible := input.visible.getD row.visible
      enabled := input.enabled.getD row.enabled
      notificationsEnabled := input.notificationsEnabled.getD row.notificationsEnabled
      notificationMode := input.notificationMode.getD row.notificationMode }
  pure (updated.deleteExternalDeliveries calendarId)

def deleteExternalCalendar (database : CalendarDatabase) (calendarId : CalendarId) :
    Except CalendarError CalendarDatabase := do
  database.assertExternal calendarId
  let cleared := (database.deleteExternalDeliveries calendarId).clearCache calendarId
  pure { cleared with externalCalendars := cleared.externalCalendars.delete calendarId }

end CalendarDatabase

end Metidos.Calendar
