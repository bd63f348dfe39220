import Metidos.Calendar.CalendarChanges

/-!
What a failed refresh of an external calendar leaves behind, and what a later `304` then vouches
for.
-/

namespace Metidos.Calendar

open CalendarDatabase ExceptRules Transition

variable {host : Host} {before after database : CalendarDatabase} {calendarId other : CalendarId}
  {outcome : DownloadOutcome} {now : Int}

def CalendarDatabase.validators (database : CalendarDatabase) (calendarId : CalendarId) :
    Option (Option Text × Option Text) :=
  (database.externalCalendars.get? calendarId).map fun row => (row.etag, row.lastModified)

def RefreshUndone (calendarId : CalendarId) (before after : CalendarDatabase) : Prop :=
  after.externalCache = before.externalCache ∧ after.deliveries = before.deliveries ∧
    after.validators calendarId = before.validators calendarId

def HasCachedEvents (database : CalendarDatabase) (calendarId : CalendarId) : Prop :=
  ∃ row ∈ database.externalCache, row.externalCalendarId = calendarId

def HasExternalDeliveries (database : CalendarDatabase) (calendarId : CalendarId) : Prop :=
  ∃ entry ∈ database.deliveries.entries,
    entry.1.sourceType = .externalIcs ∧ entry.2.calendarId = calendarId

def FirstEventRejected (host : Host) (database : CalendarDatabase) (calendarId : CalendarId)
    (events : List ParsedIcsEvent) : Prop :=
  ∃ first rest, events = first :: rest ∧
    ∃ error, cacheRowOf host database calendarId first = .error error

/-- A refresh that has nothing to lose if it fails: it ends before the cache is replaced, or the
calendar has nothing stored and the feed's first event is rejected. -/
def LosesNothing (host : Host) (database : CalendarDatabase) (calendarId : CalendarId) :
    DownloadOutcome → Prop
  | .notModified | .failed _ => True
  | .fetched events _ =>
    FirstEventRejected host database calendarId events ∧
      ¬ HasCachedEvents database calendarId ∧ ¬ HasExternalDeliveries database calendarId

structure HoldsEvent (host : Host) (calendarId : CalendarId) (event : ParsedIcsEvent)
    (row : ExternalCacheRow) : Prop where
  calendar : row.externalCalendarId = calendarId
  uid : row.uid = event.uid
  recurrenceId : row.recurrenceId = event.recurrenceId
  title : row.title = event.title
  description : row.description = event.description
  location : row.location = event.location
  times : row.times = event.times
  timezone : row.timezone = event.timezone
  recurrenceRule : validateRRuleString host event.recurrenceRule = .ok row.recurrenceRule
  exdates : row.exdates = event.exdates
  reminders : normalizeReminders event.reminders = .ok row.reminders

theorem cacheRowOf_eq_ok {event : ParsedIcsEvent} {row : ExternalCacheRow}
    (ok : cacheRowOf host database calendarId event = .ok row) :
    HoldsEvent host calendarId event row ∧ row.id = database.nextCacheId ∧
      (database.externalCalendars.get? calendarId).isSome = true := by
  simp only [cacheRowOf, bind_eq_ok] at ok
  obtain ⟨rule, rules, reminders, reminds, rest⟩ := ok
  split at rest
  · exact absurd rest (by simp)
  · split at rest
    · exact absurd rest (by simp)
    · rename_i stored
      simp only [pure_eq_ok, Except.ok.injEq] at rest
      subst rest
      refine ⟨⟨rfl, rfl, rfl, rfl, rfl, rfl, rfl, rfl, rules, rfl, reminds⟩, rfl, ?_⟩
      simpa [Option.isSome_iff_ne_none] using stored

theorem insertCacheRows_spec (host : Host) (calendarId : CalendarId)
    (events : List ParsedIcsEvent) (database : CalendarDatabase) :
    ∃ rows, (insertCacheRows host calendarId events database).1 =
        { database with
          externalCache := database.externalCache ++ rows
          nextCacheId := database.nextCacheId + rows.length } ∧
      List.Forall₂ (HoldsEvent host calendarId) (events.take rows.length) rows ∧
      (∀ row ∈ rows, row.externalCalendarId = calendarId ∧ database.nextCacheId ≤ row.id ∧
        row.id < database.nextCacheId + rows.length ∧
        (database.externalCalendars.get? calendarId).isSome = true) ∧
      ((insertCacheRows host calendarId events database).2 = none → rows.length = events.length) ∧
      ((insertCacheRows host calendarId events database).2 ≠ none → rows = [] →
        FirstEventRejected host database calendarId events) := by
  induction events generalizing database with
  | nil => exact ⟨[], by simp [insertCacheRows], by simp, by simp, by simp, by simp [insertCacheRows]⟩
  | cons event rest ih =>
    rw [insertCacheRows]
    split
    · rename_i error rejected
      exact ⟨[], by simp, by simp, by simp, by simp, fun _ _ => ⟨event, rest, rfl, error, rejected⟩⟩
    · rename_i row accepted
      obtain ⟨holds, fresh, stored⟩ := cacheRowOf_eq_ok accepted
      obtain ⟨rows, is, all, ids, whole, _⟩ := ih
        { database with
          externalCache := database.externalCache ++ [row]
          nextCacheId := database.nextCacheId + 1 }
      refine ⟨row :: rows, ?_, ?_, ?_, ?_, by simp⟩
      · rw [is]
        simp [Nat.add_assoc, Nat.add_comm 1]
      · exact List.Forall₂.cons holds all
      · intro inserted member
        rcases List.mem_cons.mp member with rfl | later
        · exact ⟨holds.calendar, Nat.le_of_eq fresh.symm, by simp [fresh], stored⟩
        · obtain ⟨same, above, below, _⟩ := ids inserted later
          simp only [List.length_cons]
          simp only at above below
          exact ⟨same, by omega, by omega, stored⟩
      · intro succeeds
        simp [whole succeeds]

structure FeedTables where
  externalCalendars : OrderedMap CalendarId ExternalCalendarRow
  externalCache : List ExternalCacheRow
  nextCalendarId : CalendarId
  nextCacheId : Nat

def CalendarDatabase.feedTables (database : CalendarDatabase) : FeedTables :=
  ⟨database.externalCalendars, database.externalCache, database.nextCalendarId,
    database.nextCacheId⟩

theorem perform_feedTables (host : Host) (database : CalendarDatabase)
    {command : CalendarCommand} (others : command.ofFeeds = false) :
    (perform host database command).database.feedTables = database.feedTables := by
  cases ofEvents : command.ofEvents with
  | true =>
    obtain ⟨_, _, _, _, _, _, is⟩ := perform_onlyEvents host database ofEvents
    rw [is]
    rfl
  | false =>
    obtain ⟨_, _, _, _, _, is⟩ := perform_onlySettings host database ofEvents others
    rw [is]
    rfl

/-- A download with events: the cache is cleared, filled up to the first event that fails, and the
validators are stored if none does. -/
theorem finishRefresh_fetched (host : Host) (database : CalendarDatabase)
    (calendarId : CalendarId) (events : List ParsedIcsEvent) (headers : CacheHeaders) (now : Int) :
    ∃ rows update,
      (finishRefresh host database calendarId (.fetched events headers) now).1.feedTables =
        ⟨database.externalCalendars.modify calendarId update,
          database.externalCache.filter (·.externalCalendarId != calendarId) ++ rows,
          database.nextCalendarId, database.nextCacheId + rows.length⟩ ∧
      (finishRefresh host database calendarId (.fetched events headers) now).1.deliveries =
        (database.deleteExternalDeliveries calendarId).deliveries ∧
      List.Forall₂ (HoldsEvent host calendarId) (events.take rows.length) rows ∧
      (∀ row ∈ rows, row.externalCalendarId = calendarId ∧ database.nextCacheId ≤ row.id ∧
        row.id < database.nextCacheId + rows.length ∧
        (database.externalCalendars.get? calendarId).isSome = true) ∧
      ((finishRefresh host database calendarId (.fetched events headers) now).2 = none →
        rows.length = events.length ∧ ∀ row, (update row).etag = headers.etag ∧
          (update row).lastModified = headers.lastModified) ∧
      ((finishRefresh host database calendarId (.fetched events headers) now).2 ≠ none →
        (∀ row, (update row).etag = row.etag ∧ (update row).lastModified = row.lastModified) ∧
        (rows = [] → FirstEventRejected host
          ((database.deleteExternalDeliveries calendarId).clearCache calendarId) calendarId
          events)) := by
  obtain ⟨rows, is, holds, ids, whole, rejected⟩ := insertCacheRows_spec host calendarId events
    ((database.deleteExternalDeliveries calendarId).clearCache calendarId)
  refine ⟨rows, ?_⟩
  simp only [finishRefresh, replaceExternalCalendarCache]
  cases inserted : insertCacheRows host calendarId events
      ((database.deleteExternalDeliveries calendarId).clearCache calendarId) with
  | mk replaced error =>
    simp only [inserted] at is whole rejected
    subst is
    cases error with
    | none =>
      exact ⟨fun row => { markSuccess now row with
        etag := headers.etag, lastModified := headers.lastModified },
        rfl, rfl, holds, ids, fun _ => ⟨whole rfl, fun _ => ⟨rfl, rfl⟩⟩, by simp⟩
    | some error =>
      exact ⟨fun row => { row with
        lastFetchedAt := some now, lastErrorAt := some now,
        lastError := some (CalendarError.text error),
        consecutiveFailures := row.consecutiveFailures + 1 },
        rfl, rfl, holds, ids, by simp, fun _ => ⟨fun _ => ⟨rfl, rfl⟩, rejected (by simp)⟩⟩

structure FeedsNumbered (tables : FeedTables) : Prop where
  calendars : ∀ row ∈ tables.externalCache,
    (tables.externalCalendars.get? row.externalCalendarId).isSome = true
  fresh : ∀ calendarId, (tables.externalCalendars.get? calendarId).isSome = true →
    calendarId < tables.nextCalendarId
  numbered : ∀ row ∈ tables.externalCache, row.id < tables.nextCacheId

theorem FeedsNumbered.modify {tables : FeedTables} (numbered : FeedsNumbered tables)
    (calendarId : CalendarId) (update : ExternalCalendarRow → ExternalCalendarRow) :
    FeedsNumbered { tables with
      externalCalendars := tables.externalCalendars.modify calendarId update } := by
  have same : ∀ other, ((tables.externalCalendars.modify calendarId update).get? other).isSome =
      (tables.externalCalendars.get? other).isSome := by
    intro other
    rw [OrderedMap.get?_modify]
    split
    · rename_i is
      rw [is, Option.isSome_map]
    · rfl
  refine ⟨?_, ?_, numbered.numbered⟩
  · intro row member
    simp only [same]
    exact numbered.calendars row member
  · intro other stored
    simp only [same] at stored
    exact numbered.fresh other stored

theorem FeedsNumbered.refresh (numbered : FeedsNumbered before.feedTables)
    (outcome : DownloadOutcome) :
    FeedsNumbered (finishRefresh host before calendarId outcome now).1.feedTables := by
  cases outcome with
  | notModified => exact numbered.modify calendarId (markSuccess now)
  | failed error => exact numbered.modify calendarId _
  | fetched events headers =>
    obtain ⟨rows, update, is, _, holds, ids, _⟩ :=
      finishRefresh_fetched host before calendarId events headers now
    rw [is]
    have filled : FeedsNumbered ⟨before.externalCalendars,
        before.externalCache.filter (·.externalCalendarId != calendarId) ++ rows,
        before.nextCalendarId, before.nextCacheId + rows.length⟩ := by
      refine ⟨?_, numbered.fresh, ?_⟩
      · intro row member
        rcases List.mem_append.mp member with kept | inserted
        · exact numbered.calendars row (List.mem_filter.mp kept).1
        · obtain ⟨same, _, _, stored⟩ := ids row inserted
          rw [same]
          exact stored
      · intro row member
        rcases List.mem_append.mp member with kept | inserted
        · have := numbered.numbered row (List.mem_filter.mp kept).1
          simp only [feedTables] at this ⊢
          omega
        · exact (ids row inserted).2.2.1
    exact filled.modify calendarId update

theorem FeedsNumbered.step {command : CalendarCommand} (numbered : FeedsNumbered before.feedTables)
    (stepped : calendarStep host before command = some after) :
    FeedsNumbered after.feedTables := by
  obtain rfl := Option.some.inj stepped
  cases command with
  | createCalendar title =>
    exact ⟨numbered.calendars, fun other stored =>
      Nat.lt_succ_of_lt (numbered.fresh other stored), numbered.numbered⟩
  | createExternal title =>
    simp only [perform, createExternalCalendar]
    refine ⟨?_, ?_, numbered.numbered⟩
    · intro row member
      have stored := numbered.calendars row member
      simp only [feedTables, OrderedMap.get?_set] at stored ⊢
      split
      · rfl
      · exact stored
    · intro other stored
      simp only [feedTables, OrderedMap.get?_set] at stored ⊢
      split at stored
      · rename_i same
        exact same ▸ Nat.lt_succ_self _
      · exact Nat.lt_succ_of_lt (numbered.fresh other stored)
  | updateExternal calendarId input =>
    simp only [perform]
    cases updated : updateExternalCalendar before calendarId input with
    | error error => exact numbered
    | ok result =>
      simp only [updateExternalCalendar, bind_eq_ok, pure_eq_ok, Except.ok.injEq] at updated
      obtain ⟨_, _, rfl⟩ := updated
      exact numbered.modify calendarId _
  | deleteExternal calendarId =>
    simp only [perform]
    cases deleted : deleteExternalCalendar before calendarId with
    | error error => exact numbered
    | ok result =>
      simp only [deleteExternalCalendar, bind_eq_ok, pure_eq_ok, Except.ok.injEq] at deleted
      obtain ⟨_, _, rfl⟩ := deleted
      refine ⟨?_, ?_, ?_⟩
      · intro row member
        obtain ⟨kept, differs⟩ := List.mem_filter.mp member
        have stored := numbered.calendars row kept
        simp only [feedTables, performed, OrderedMap.get?_delete] at stored ⊢
        rw [if_neg (by simpa using differs)]
        exact stored
      · intro other stored
        simp only [feedTables, performed, OrderedMap.get?_delete] at stored
        split at stored
        · exact absurd stored (by simp)
        · exact numbered.fresh other stored
      · intro row member
        exact numbered.numbered row (List.mem_filter.mp member).1
  | refreshExternal calendarId outcome now => exact numbered.refresh outcome
  | _ =>
    rw [perform_feedTables host before rfl]
    exact numbered

theorem FeedsNumbered.initial : FeedsNumbered CalendarDatabase.initial.feedTables :=
  ⟨by simp [feedTables, CalendarDatabase.initial], by
    intro calendarId stored
    simp [feedTables, CalendarDatabase.initial] at stored,
    by simp [feedTables, CalendarDatabase.initial]⟩

theorem FeedsNumbered.reached
    (reached : Reaches (calendarStep host) Unrestricted .initial database) :
    FeedsNumbered database.feedTables :=
  reached.invariant (fun database => FeedsNumbered database.feedTables) .initial
    fun _ _ _ holds _ stepped => holds.step stepped

theorem clearCache_same (nothing : ¬ HasCachedEvents database calendarId) :
    database.externalCache.filter (·.externalCalendarId != calendarId) =
      database.externalCache := by
  rw [List.filter_eq_self]
  intro row member
  simp only [bne_iff_ne, ne_eq]
  exact fun same => nothing ⟨row, member, same⟩

theorem deleteExternalDeliveries_same :
    (database.deleteExternalDeliveries calendarId).deliveries = database.deliveries ↔
      ¬ HasExternalDeliveries database calendarId := by
  simp only [deleteExternalDeliveries, removeDeliveries, OrderedMap.ext_iff, OrderedMap.filter,
    List.filter_eq_self, HasExternalDeliveries, Bool.not_eq_eq_eq_not, Bool.not_true,
    Bool.and_eq_false_imp, beq_iff_eq, beq_eq_false_iff_ne]
  constructor
  · rintro kept ⟨entry, member, external, same⟩
    exact kept entry member external same
  · intro nothing entry member external same
    exact nothing ⟨entry, member, external, same⟩

theorem firstEventRejected_clear {events : List ParsedIcsEvent}
    (nothing : ¬ HasCachedEvents database calendarId) :
    FirstEventRejected host
        ((database.deleteExternalDeliveries calendarId).clearCache calendarId) calendarId events ↔
      FirstEventRejected host database calendarId events := by
  have same : ∀ event error,
      cacheRowOf host ((database.deleteExternalDeliveries calendarId).clearCache calendarId)
        calendarId event = .error error ↔
      cacheRowOf host database calendarId event = .error error := by
    intro event error
    have kept : ((database.deleteExternalDeliveries calendarId).clearCache
        calendarId).externalCache = database.externalCache := clearCache_same nothing
    simp only [cacheRowOf, kept]
    rfl
  simp only [FirstEventRejected, same]

theorem failed_refresh_undone (numbered : FeedsNumbered database.feedTables)
    (fails : (finishRefresh host database calendarId outcome now).2 ≠ none) :
    RefreshUndone calendarId database (finishRefresh host database calendarId outcome now).1 ↔
      LosesNothing host database calendarId outcome := by
  cases outcome with
  | notModified => exact absurd rfl fails
  | failed error =>
    refine iff_of_true ⟨rfl, rfl, ?_⟩ trivial
    simp only [finishRefresh, markExternalCalendarFetchError, updateExternalRow, validators,
      OrderedMap.get?_modify, if_true, Option.map_map]
    rfl
  | fetched events headers =>
    obtain ⟨rows, update, is, deliveries, holds, ids, _, undone⟩ :=
      finishRefresh_fetched host database calendarId events headers now
    obtain ⟨keeps, rejects⟩ := undone fails
    have cache := congrArg FeedTables.externalCache is
    have calendars := congrArg FeedTables.externalCalendars is
    simp only [feedTables] at cache calendars
    simp only [RefreshUndone, LosesNothing, cache, deliveries, deleteExternalDeliveries_same]
    constructor
    · rintro ⟨cacheSame, deliveriesSame, _⟩
      -- An inserted row would carry a number that no stored row has.
      have none : rows = [] := by
        rw [List.eq_nil_iff_forall_not_mem]
        intro row inserted
        have stored : row ∈ database.externalCache := by
          rw [← cacheSame]
          exact List.mem_append_right _ inserted
        have below := numbered.numbered row stored
        have above := (ids row inserted).2.1
        simp only [feedTables] at below
        omega
      have nothing : ¬ HasCachedEvents database calendarId := by
        rintro ⟨row, member, same⟩
        rw [none, List.append_nil] at cacheSame
        rw [← cacheSame, List.mem_filter] at member
        exact absurd same (by simpa using member.2)
      exact ⟨(firstEventRejected_clear nothing).mp (rejects none), nothing, deliveriesSame⟩
    · rintro ⟨rejected, nothing, deliveriesSame⟩
      obtain ⟨first, rest, rfl, error, rejected⟩ := (firstEventRejected_clear nothing).mpr rejected
      refine ⟨?_, deliveriesSame, ?_⟩
      · rw [← cache]
        simp only [finishRefresh, replaceExternalCalendarCache, insertCacheRows, rejected]
        exact clearCache_same nothing
      · simp only [validators, calendars, OrderedMap.get?_modify, if_true, Option.map_map]
        congr 1
        funext row
        simp only [Function.comp_apply, (keeps row).1, (keeps row).2]

structure Feed where
  events : List ParsedIcsEvent
  headers : CacheHeaders

structure FeedHistory where
  database : CalendarDatabase
  feeds : CalendarId → Option Feed

def FeedHistory.initial : FeedHistory := ⟨.initial, fun _ => none⟩

def FeedHistory.record (history : FeedHistory) (succeeds : Bool) :
    CalendarCommand → CalendarId → Option Feed
  | .createExternal _ => fun calendarId =>
    if calendarId = history.database.nextCalendarId then none else history.feeds calendarId
  | .refreshExternal refreshed (.fetched events headers) _ => fun calendarId =>
    if succeeds ∧ calendarId = refreshed then some ⟨events, headers⟩
    else history.feeds calendarId
  | _ => history.feeds

def feedStep (host : Host) (history : FeedHistory) (command : CalendarCommand) :
    Option FeedHistory :=
  let done := perform host history.database command
  some ⟨done.database, history.record done.error.isNone command⟩

def FailsCleanly (host : Host) (history : FeedHistory) (command : CalendarCommand) : Prop :=
  ∀ calendarId outcome now, command = .refreshExternal calendarId outcome now →
    (finishRefresh host history.database calendarId outcome now).2 ≠ none →
    LosesNothing host history.database calendarId outcome

def cachedOf (calendarId : CalendarId) (rows : List ExternalCacheRow) : List ExternalCacheRow :=
  rows.filter (·.externalCalendarId == calendarId)

def HoldsFeed (host : Host) (calendarId : CalendarId) (row : ExternalCalendarRow)
    (cached : List ExternalCacheRow) : Option Feed → Prop
  | none => row.etag = none ∧ row.lastModified = none ∧ cached = []
  | some feed => row.etag = feed.headers.etag ∧ row.lastModified = feed.headers.lastModified ∧
      List.Forall₂ (HoldsEvent host calendarId) feed.events cached

theorem HoldsFeed.keep {row updated : ExternalCalendarRow} {cached : List ExternalCacheRow}
    {feed : Option Feed} (holds : HoldsFeed host calendarId row cached feed)
    (same : updated.etag = row.etag ∧ updated.lastModified = row.lastModified) :
    HoldsFeed host calendarId updated cached feed := by
  cases feed with
  | none =>
    obtain ⟨etag, modified, nothing⟩ := holds
    exact ⟨same.1.trans etag, same.2.trans modified, nothing⟩
  | some feed =>
    obtain ⟨etag, modified, all⟩ := holds
    exact ⟨same.1.trans etag, same.2.trans modified, all⟩

/-- What a `304` marks as current is the complete feed that the validators are from. -/
def CacheComplete (host : Host) (history : FeedHistory) : Prop :=
  ∀ calendarId row, history.database.externalCalendars.get? calendarId = some row →
    HoldsFeed host calendarId row (cachedOf calendarId history.database.externalCache)
      (history.feeds calendarId)

theorem cachedOf_filter_other (rows : List ExternalCacheRow) (differ : other ≠ calendarId) :
    cachedOf other (rows.filter (·.externalCalendarId != calendarId)) = cachedOf other rows := by
  simp only [cachedOf, List.filter_filter]
  apply List.filter_congr
  intro row _
  by_cases same : row.externalCalendarId = other
  · simp [same, differ]
  · simp [same]

theorem cachedOf_filter_self (rows : List ExternalCacheRow) :
    cachedOf calendarId (rows.filter (·.externalCalendarId != calendarId)) = [] := by
  simp only [cachedOf, List.filter_filter, List.filter_eq_nil_iff]
  intro row _
  simp

theorem cachedOf_append (first second : List ExternalCacheRow) :
    cachedOf calendarId (first ++ second) = cachedOf calendarId first ++ cachedOf calendarId second :=
  List.filter_append ..

theorem cachedOf_other {rows : List ExternalCacheRow} (differ : other ≠ calendarId)
    (all : ∀ row ∈ rows, row.externalCalendarId = calendarId) : cachedOf other rows = [] := by
  rw [cachedOf, List.filter_eq_nil_iff]
  intro row member same
  exact differ ((beq_iff_eq.mp same).symm.trans (all row member))

theorem cachedOf_all {rows : List ExternalCacheRow}
    (all : ∀ row ∈ rows, row.externalCalendarId = calendarId) : cachedOf calendarId rows = rows := by
  rw [cachedOf, List.filter_eq_self]
  intro row member
  exact beq_iff_eq.mpr (all row member)

theorem CacheComplete.modify {feeds : CalendarId → Option Feed}
    {update : ExternalCalendarRow → ExternalCalendarRow}
    (complete : CacheComplete host ⟨before, feeds⟩)
    (calendars : after.externalCalendars = before.externalCalendars.modify calendarId update)
    (cache : after.externalCache = before.externalCache)
    (keeps : ∀ row, (update row).etag = row.etag ∧ (update row).lastModified = row.lastModified) :
    CacheComplete host ⟨after, feeds⟩ := by
  intro other row stored
  simp only [calendars, cache, OrderedMap.get?_modify] at stored ⊢
  split at stored
  · rename_i same
    subst same
    obtain ⟨old, found, rfl⟩ := Option.map_eq_some_iff.mp stored
    exact (complete other old found).keep (keeps old)
  · exact complete other row stored

theorem CacheComplete.refresh {history : FeedHistory} (complete : CacheComplete host history)
    (events : List ParsedIcsEvent) (headers : CacheHeaders)
    (clean : FailsCleanly host history (.refreshExternal calendarId (.fetched events headers) now))
    (numbered : FeedsNumbered history.database.feedTables) :
    CacheComplete host
      ⟨(finishRefresh host history.database calendarId (.fetched events headers) now).1,
        history.record (finishRefresh host history.database calendarId (.fetched events headers)
          now).2.isNone (.refreshExternal calendarId (.fetched events headers) now)⟩ := by
  obtain ⟨rows, update, is, _, holds, ids, done, undone⟩ :=
    finishRefresh_fetched host history.database calendarId events headers now
  have cache := congrArg FeedTables.externalCache is
  have calendars := congrArg FeedTables.externalCalendars is
  simp only [feedTables] at cache calendars
  cases failed : (finishRefresh host history.database calendarId (.fetched events headers) now).2 with
  | some error =>
    have fails : (finishRefresh host history.database calendarId (.fetched events headers)
        now).2 ≠ none := by simp [failed]
    obtain ⟨cacheSame, _, _⟩ :=
      (failed_refresh_undone numbered fails).mpr (clean _ _ _ rfl fails)
    have same : history.record false (.refreshExternal calendarId (.fetched events headers) now) =
        history.feeds := by
      funext other
      simp [FeedHistory.record]
    simp only [Option.isNone_some, same]
    exact complete.modify calendars cacheSame (undone fails).1
  | none =>
    obtain ⟨whole, marks⟩ := done failed
    rw [whole, List.take_length] at holds
    have all : ∀ row ∈ rows, row.externalCalendarId = calendarId := fun row member =>
      (ids row member).1
    intro other row stored
    simp only [FeedHistory.record, Option.isNone_none, true_and, cache, calendars,
      OrderedMap.get?_modify, cachedOf_append] at stored ⊢
    by_cases same : other = calendarId
    · subst same
      rw [if_pos rfl] at stored ⊢
      obtain ⟨old, _, rfl⟩ := Option.map_eq_some_iff.mp stored
      rw [cachedOf_filter_self, cachedOf_all all, List.nil_append]
      exact ⟨(marks old).1, (marks old).2, holds⟩
    · rw [if_neg same] at stored ⊢
      rw [cachedOf_filter_other _ same, cachedOf_other same all, List.append_nil]
      exact complete other row stored

theorem CacheComplete.others {history : FeedHistory} {command : CalendarCommand}
    (complete : CacheComplete host history) (others : command.ofFeeds = false) :
    CacheComplete host ⟨(perform host history.database command).database,
      history.record (perform host history.database command).error.isNone command⟩ := by
  have tables := perform_feedTables host history.database others
  have calendars := congrArg FeedTables.externalCalendars tables
  have cache := congrArg FeedTables.externalCache tables
  have recorded : history.record (perform host history.database command).error.isNone command =
      history.feeds := by
    cases command with
    | createExternal _ => exact absurd others (by simp [CalendarCommand.ofFeeds])
    | refreshExternal _ _ _ => exact absurd others (by simp [CalendarCommand.ofFeeds])
    | _ => rfl
  intro other row stored
  simp only [feedTables] at calendars cache
  simp only [calendars, cache, recorded] at stored ⊢
  exact complete other row stored

theorem CacheComplete.step {history next : FeedHistory} {command : CalendarCommand}
    (complete : CacheComplete host history) (numbered : FeedsNumbered history.database.feedTables)
    (clean : FailsCleanly host history command)
    (stepped : feedStep host history command = some next) : CacheComplete host next := by
  obtain rfl := Option.some.inj stepped
  cases command with
  | createCalendar title => exact complete
  | createExternal title =>
    intro other row stored
    simp only [perform, createExternalCalendar, OrderedMap.get?_set, FeedHistory.record] at stored ⊢
    split at stored
    · rename_i same
      obtain rfl := Option.some.inj stored
      rw [if_pos same]
      refine ⟨rfl, rfl, ?_⟩
      rw [cachedOf, List.filter_eq_nil_iff]
      intro cached member isNew
      have below := numbered.fresh _ (numbered.calendars cached member)
      rw [beq_iff_eq.mp isNew, same] at below
      exact absurd below (Nat.lt_irrefl _)
    · rename_i differs
      rw [if_neg differs]
      exact complete other row stored
  | updateExternal calendarId input =>
    simp only [perform]
    cases updated : updateExternalCalendar history.database calendarId input with
    | error error => exact complete
    | ok result =>
      simp only [updateExternalCalendar, bind_eq_ok, pure_eq_ok, Except.ok.injEq] at updated
      obtain ⟨_, _, rfl⟩ := updated
      exact complete.modify rfl rfl fun _ => ⟨rfl, rfl⟩
  | deleteExternal calendarId =>
    simp only [perform]
    cases deleted : deleteExternalCalendar history.database calendarId with
    | error error => exact complete
    | ok result =>
      simp only [deleteExternalCalendar, bind_eq_ok, pure_eq_ok, Except.ok.injEq] at deleted
      obtain ⟨_, _, rfl⟩ := deleted
      intro other row stored
      simp only [performed, OrderedMap.get?_delete] at stored ⊢
      split at stored
      · exact absurd stored (by simp)
      · rename_i differs
        have holds := complete other row stored
        rw [← cachedOf_filter_other _ differs] at holds
        exact holds
  | refreshExternal calendarId outcome now =>
    cases outcome with
    | notModified => exact complete.modify rfl rfl fun _ => ⟨rfl, rfl⟩
    | failed error => exact complete.modify rfl rfl fun _ => ⟨rfl, rfl⟩
    | fetched events headers => exact complete.refresh events headers clean numbered
  | _ => exact complete.others rfl

theorem CacheComplete.run {history : FeedHistory}
    (reached : Reaches (feedStep host) (FailsCleanly host) .initial history) :
    CacheComplete host history := by
  have both : FeedsNumbered history.database.feedTables ∧ CacheComplete host history := by
    refine reached.invariant (fun history =>
      FeedsNumbered history.database.feedTables ∧ CacheComplete host history) ⟨.initial, ?_⟩ ?_
    · intro calendarId row stored
      exact absurd stored (by simp [FeedHistory.initial, CalendarDatabase.initial])
    · rintro before command after ⟨numbered, complete⟩ clean stepped
      refine ⟨?_, complete.step numbered clean stepped⟩
      obtain rfl := Option.some.inj stepped
      exact numbered.step rfl
  exact both.2

/-- A refresh that fails is undone exactly if it had nothing to lose; and where every refresh that
fails has nothing to lose, what a `304` marks as current is always the complete feed of the stored
validators. -/
theorem refresh_atomic (reached : Reaches (calendarStep host) Unrestricted .initial database) :
    (∀ calendarId outcome now,
      (finishRefresh host database calendarId outcome now).2 ≠ none →
      (RefreshUndone calendarId database (finishRefresh host database calendarId outcome now).1 ↔
        LosesNothing host database calendarId outcome)) ∧
    ∀ history, Reaches (feedStep host) (FailsCleanly host) .initial history →
      CacheComplete host history :=
  ⟨fun _ _ _ => failed_refresh_undone (.reached reached), fun _ => CacheComplete.run⟩

def feedEvent (recurrenceRule : Option Text) : ParsedIcsEvent where
  uid := "standup".toList
  recurrenceId := none
  title := "Standup".toList
  description := []
  location := []
  times := ⟨.dateTime 0, some (.dateTime (60 * msPerMinute))⟩
  timezone := "UTC".toList
  recurrenceRule := recurrenceRule
  exdates := []
  reminders := []

def refreshOnce : List CalendarCommand :=
  [.createExternal "Team".toList,
    .refreshExternal 1 (.fetched [feedEvent (some "FREQ=DAILY".toList)] ⟨some "1".toList, none⟩) 0]

theorem refresh_atomic_failed :
    ∃ database, database.externalCache.length = 1 ∧
      RefreshUndone 1 database (finishRefresh Host.daily database 1 (.failed "timeout".toList) 9).1 := by
  have ran : (run (calendarStep Host.daily) (fun _ _ => true) .initial refreshOnce).map
      (fun database => database.externalCache.length) = some 1 := by decide +kernel
  obtain ⟨database, ran, stored⟩ := Option.map_eq_some_iff.mp ran
  refine ⟨database, stored, ?_⟩
  exact ((refresh_atomic (reaches_of_run ran).unrestricted).1 1 (.failed "timeout".toList) 9
    (by simp [finishRefresh])).mpr trivial

theorem refresh_loses_cache :
    ¬ ∀ (host : Host) (database : CalendarDatabase),
      Reaches (calendarStep host) Unrestricted .initial database →
      ∀ calendarId outcome now, (finishRefresh host database calendarId outcome now).2 ≠ none →
        RefreshUndone calendarId database
          (finishRefresh host database calendarId outcome now).1 := by
  intro claimed
  have ran : (run (calendarStep Host.daily) (fun _ _ => true) .initial refreshOnce).map
      (fun database =>
        let refreshed := finishRefresh Host.daily database 1
          (.fetched [feedEvent (some "FREQ=HOURLY".toList)] ⟨some "2".toList, none⟩) 9
        (database.externalCache.length, refreshed.1.externalCache.length, refreshed.2.isSome)) =
        some (1, 0, true) := by decide +kernel
  obtain ⟨database, ran, is⟩ := Option.map_eq_some_iff.mp ran
  obtain ⟨stored, lost, fails⟩ := by simpa only [Prod.mk.injEq] using is
  have undone := claimed Host.daily database (reaches_of_run ran).unrestricted 1 _ 9
    (Option.isSome_iff_ne_none.mp fails)
  rw [undone.1, stored] at lost
  exact absurd lost (by decide)

end Metidos.Calendar
