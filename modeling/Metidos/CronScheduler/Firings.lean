import Metidos.Cron.CronUtc
import Metidos.CronScheduler.SchedulerRuns

/-!
The expansions of `src/bun/cron-schedules.ts` and the next run computed from them; and the scheduler
with them: over every run the live handles of a registered job fire together when its local schedule
does, and never two of them at once.
-/

namespace Metidos.CronScheduler

open Cron JsText Transition

def maxCronScheduleBytes : Nat := 256

/-- No expansion where the source throws. -/
def expandCronScheduleForBun (localeCompare : Text → Text → Int) : Expansion :=
  fun schedule zone =>
    if maxCronScheduleBytes < (schedule.map Char.utf8Size).sum then none
    else
      match cronToUtc localeCompare schedule zone.offsetMinutes none with
      | .error _ => none
      | .ok [only] =>
        match normalizeCron schedule with
        | .error _ => none
        | .ok normal => some [if only = normal then schedule else only]
      | .ok schedules => some schedules

variable {localeCompare : Text → Text → Int} {schedule : Text} {cron : ParsedCron}
  {schedules : List Text} {zone : Zone} {offsetMinutes : Int}

/-- The expanded schedules match where the local one does, one at a time. -/
def MatchesTogether (cron : ParsedCron) (offsetMinutes : Int) (schedules : List Text) : Prop :=
  ∀ instant,
    (cronMatchesUtcDate cron (instant + offsetMinutes) = true →
      schedules.countP (fun member => scheduleMatches member instant) = 1) ∧
    ∀ member ∈ schedules, scheduleMatches member instant = true →
      cronMatchesUtcDate cron (instant + offsetMinutes) = true

theorem converted_together (parsed : parseCron schedule = .ok cron)
    (converted : cronToUtc localeCompare schedule offsetMinutes none = .ok schedules) :
    MatchesTogether cron offsetMinutes schedules := by
  obtain ⟨low, high, buckets, holds, same⟩ := cronToUtc_eq_ok (by simp) parsed converted
  have formed := parseCron_wellFormed parsed
  have listed : ∀ member, member ∈ schedules ↔
      ∃ bucket ∈ buckets.values, ∃ timeSpec ∈ compactTimePairs bucket.pairs,
        member = formatFields timeSpec.minutes timeSpec.hours bucket.spec.dom bucket.spec.month
          bucket.spec.dow := fun member => by rw [same.mem_iff]; exact mem_outputSchedules
  have fields : ∀ instant member, member ∈ schedules → scheduleMatches member instant = true →
      ∃ bucket ∈ buckets.values, ∃ timeSpec ∈ compactTimePairs bucket.pairs,
        member = formatFields timeSpec.minutes timeSpec.hours bucket.spec.dom bucket.spec.month
          bucket.spec.dow ∧ utcMinutes instant ∈ timeSpec.minutes ∧
          utcHours instant ∈ timeSpec.hours ∧
          DateMatches bucket.spec.dom bucket.spec.month bucket.spec.dow (utcDay instant) := by
    intro instant member isMember passes
    obtain ⟨bucket, inBuckets, timeSpec, inTimes, rfl⟩ := (listed member).mp isMember
    have facts := bucketSchedule_wellFormed low high formed holds inBuckets inTimes
    exact ⟨bucket, inBuckets, timeSpec, inTimes, rfl,
      (scheduleMatches_formatFields facts.1 facts.2.1 facts.2.2 instant).mp passes⟩
  refine fun instant => ⟨fun matching => ?_, fun member isMember passes => ?_⟩
  · obtain ⟨bucket, inBuckets, timeSpec, inTimes, minute, hour, date⟩ :=
      bucketSchedule_complete low high formed holds matching
    have facts := bucketSchedule_wellFormed low high formed holds inBuckets inTimes
    refine countP_eq_one (same.nodup_iff.mpr (OrderedSet.distinct _))
      ((listed _).mpr ⟨bucket, inBuckets, timeSpec, inTimes, rfl⟩)
      ((scheduleMatches_formatFields facts.1 facts.2.1 facts.2.2 instant).mpr
        ⟨minute, hour, date⟩) fun other isOther passes => ?_
    obtain ⟨otherBucket, inOther, otherTime, otherListed, rfl, otherMinute, otherHour,
      otherDate⟩ := fields instant other isOther passes
    obtain ⟨rfl, rfl⟩ := bucketSchedule_unique low high formed holds inOther inBuckets otherListed
      inTimes otherMinute minute otherHour hour otherDate date
    rfl
  · obtain ⟨bucket, inBuckets, timeSpec, inTimes, -, minute, hour, date⟩ :=
      fields instant member isMember passes
    exact bucketSchedule_sound low high formed holds inBuckets inTimes hour minute date

theorem scheduleMatches_formatCron (parsed : parseCron schedule = .ok cron) (instant : Int) :
    scheduleMatches (formatCron cron) instant = scheduleMatches schedule instant := by
  have formed := parseCron_wellFormed parsed
  rw [scheduleMatches, scheduleMatches, parsed, parseCron_formatCron formed]
  refine Bool.eq_iff_iff.mpr ?_
  rw [cronMatchesUtcDate_iff formed.domFull formed.dowFull]
  exact cronMatchesUtcDate_iff rfl rfl instant

theorem expanded_together
    (expanded : expandCronScheduleForBun localeCompare schedule zone = some schedules) :
    ∃ cron, parseCron schedule = .ok cron ∧
      MatchesTogether cron zone.offsetMinutes schedules := by
  rw [expandCronScheduleForBun] at expanded
  split at expanded
  · cases expanded
  · cases parsed : parseCron schedule with
    | error error =>
      have fails : ∀ found,
          cronToUtc localeCompare schedule zone.offsetMinutes none ≠ .ok found := by
        intro found
        rw [cronToUtc]
        split
        · simp [conversionError]
        · simp [parsed, ExceptRules.error_bind]
      split at expanded
      · cases expanded
      · exact absurd ‹_› (fails _)
      · exact absurd ‹_› (fails _)
    | ok cron =>
      refine ⟨cron, rfl, ?_⟩
      split at expanded
      · cases expanded
      · rename_i only converted
        have together := converted_together parsed converted
        rw [normalizeCron_ok parsed] at expanded
        obtain rfl := Option.some.inj expanded
        split
        · rename_i normal
          subst normal
          simpa [MatchesTogether, scheduleMatches_formatCron parsed] using together
        · exact together
      · rename_i _ converted
        obtain rfl := Option.some.inj expanded
        exact converted_together parsed converted

/-- The loop body of `computeNextRunDateForLocalCronSchedule`. -/
def earlierRun (parse : Text → Option Int) (nextRunDateMs : Option Int) (expandedSchedule : Text) :
    Option Int :=
  match parse expandedSchedule with
  | none => nextRunDateMs
  | some parsedDateMs => some (nextRunDateMs.elim parsedDateMs (min · parsedDateMs))

/-- `parse` is `Bun.cron.parse`, which gives milliseconds or no date; the outer `none` throws. -/
def computeNextRunDateForLocalCronSchedule (localeCompare : Text → Text → Int)
    (parse : Text → Option Int) (schedule : Text) (zone : Zone) : Option (Option Int) :=
  if trim schedule = [] then some none
  else
    (expandCronScheduleForBun localeCompare schedule zone).map fun schedules =>
      schedules.foldl (earlierRun parse) none

/-- The dates after `now` at whose minutes something fires. -/
def runsAfter (now : Int) (fires : Int → Bool) : Set Int :=
  {date | now < date ∧ ∃ minute, date = minute * 60000 ∧ fires minute = true}

def IsNextRun (dates : Set Int) : Option Int → Prop
  | none => dates = ∅
  | some date => IsLeast dates date

theorem nextRun_foldl {now : Int} {parse : Text → Option Int} {dates : Set Int}
    {date : Option Int} (next : IsNextRun dates date)
    (parses : ∀ member ∈ schedules,
      IsNextRun (runsAfter now (scheduleMatches member)) (parse member)) :
    IsNextRun (dates ∪ {date | ∃ member ∈ schedules, date ∈ runsAfter now (scheduleMatches member)})
      (schedules.foldl (earlierRun parse) date) := by
  induction schedules generalizing dates date with
  | nil => simpa using next
  | cons member rest ih =>
    have either : IsNextRun (dates ∪ runsAfter now (scheduleMatches member))
        (earlierRun parse date member) := by
      have own := parses member List.mem_cons_self
      rw [earlierRun]
      cases isNext : parse member with
      | none =>
        rw [isNext, IsNextRun] at own
        rwa [own, Set.union_empty]
      | some other =>
        rw [isNext] at own
        cases date with
        | none =>
          rw [show dates = ∅ from next, Set.empty_union]
          exact own
        | some date => exact IsLeast.union next own
    have both := ih either fun other isLater => parses other (List.mem_cons_of_mem _ isLater)
    have same : dates ∪ {date | ∃ other ∈ member :: rest,
        date ∈ runsAfter now (scheduleMatches other)} =
          dates ∪ runsAfter now (scheduleMatches member) ∪
            {date | ∃ other ∈ rest, date ∈ runsAfter now (scheduleMatches other)} := by
      ext date
      simp [or_assoc]
    rwa [same]

/-- The next run is the first date after `now` at which the local schedule matches. -/
theorem next_run_is_first_local (localeCompare : Text → Text → Int) (parse : Text → Option Int)
    (now : Int) (next : Option Int)
    (computed : computeNextRunDateForLocalCronSchedule localeCompare parse schedule zone =
      some next)
    (parses : ∀ expanded, expandCronScheduleForBun localeCompare schedule zone = some expanded →
      ∀ member ∈ expanded, IsNextRun (runsAfter now (scheduleMatches member)) (parse member)) :
    trim schedule = [] ∧ next = none ∨ ∃ cron, parseCron schedule = .ok cron ∧
      IsNextRun (runsAfter now fun minute => cronMatchesUtcDate cron (minute + zone.offsetMinutes))
        next := by
  rw [computeNextRunDateForLocalCronSchedule] at computed
  split at computed
  · rename_i blank
    exact .inl ⟨blank, (Option.some.inj computed).symm⟩
  · obtain ⟨schedules, expanded, rfl⟩ := Option.map_eq_some_iff.mp computed
    obtain ⟨cron, parsed, together⟩ := expanded_together expanded
    refine .inr ⟨cron, parsed, ?_⟩
    have start : IsNextRun ∅ none := rfl
    have least := nextRun_foldl start (parses schedules expanded)
    rw [Set.empty_union] at least
    refine (congrArg (IsNextRun · _) (Set.ext fun date => ?_)).mpr least
    constructor
    · rintro ⟨after, minute, rfl, matching⟩
      have once := (together minute).1 matching
      obtain ⟨member, isMember, passes⟩ := List.countP_pos_iff.mp (once ▸ Nat.one_pos)
      exact ⟨member, isMember, after, minute, rfl, passes⟩
    · rintro ⟨member, isMember, after, minute, rfl, passes⟩
      exact ⟨after, minute, rfl, (together minute).2 member isMember passes⟩

theorem next_run_is_first_local_newYear : ∃ cron, parseCron "0 1 1 1 *".toList = .ok cron ∧
    IsNextRun (runsAfter (-1) fun minute => cronMatchesUtcDate cron (minute + 60)) (some 0) := by
  have expanded : expandCronScheduleForBun (fun _ _ => 0) "0 1 1 1 *".toList ⟨"CET".toList, 60⟩ =
      some ["0 0 1 1 *".toList] := by
    decide +kernel
  have computed : computeNextRunDateForLocalCronSchedule (fun _ _ => 0) (fun _ => some 0)
      "0 1 1 1 *".toList ⟨"CET".toList, 60⟩ = some (some 0) := by
    rw [computeNextRunDateForLocalCronSchedule, expanded]
    decide +kernel
  have first : IsNextRun (runsAfter (-1) (scheduleMatches "0 0 1 1 *".toList)) (some 0) := by
    refine ⟨⟨by decide, 0, rfl, by decide +kernel⟩, ?_⟩
    rintro date ⟨after, minute, rfl, _⟩
    omega
  refine (next_run_is_first_local _ _ (-1) _ computed fun found isFound member isMember =>
    ?_).resolve_left fun blank => by cases blank.2
  obtain rfl := Option.some.inj (expanded.symm.trans isFound)
  obtain rfl := List.mem_singleton.mp isMember
  exact first

namespace Scheduler

variable {expand : Expansion} {environment : Environment} {state next : Scheduler}

def Expands (expand : Expansion) (handles : List InProcessCronHandle) : Prop :=
  ∃ schedule zone,
    expand schedule zone = some (handles.map InProcessCronHandle.expanded) ∧
      ∀ handle ∈ handles, handle.schedule = schedule ∧ handle.zone = zone

def AllExpand (expand : Expansion) (state : Scheduler) : Prop :=
  ∀ cronJobId handles, state.registrations.get? cronJobId = some handles → Expands expand handles

theorem AllExpand.fewer (all : AllExpand expand state)
    (fewer : ∀ other, next.registrations.get? other = none ∨
      next.registrations.get? other = state.registrations.get? other) : AllExpand expand next := by
  intro cronJobId handles present
  rcases fewer cronJobId with absent | same
  · rw [absent] at present
    cases present
  · exact all cronJobId handles (same ▸ present)

theorem AllExpand.unregister (all : AllExpand expand state) (cronJobId : Nat) :
    AllExpand expand (state.unregisterCronJob cronJobId) := by
  refine all.fewer fun other => ?_
  rw [get?_unregister]
  split
  · exact .inl rfl
  · exact .inr rfl

theorem createHandles_expanded (cronJob : CronJob) (schedules : List Text) {index : Nat}
    {handles : List InProcessCronHandle} {made : Scheduler × List InProcessCronHandle × Bool}
    (creates : createHandles environment cronJob index schedules state handles = made)
    (works : made.2.2 = true) :
    made.2.1.map InProcessCronHandle.expanded =
      handles.map InProcessCronHandle.expanded ++ schedules := by
  induction schedules generalizing index state handles with
  | nil =>
    subst creates
    simp [createHandles]
  | cons schedule rest ih =>
    rw [createHandles] at creates
    split at creates
    · subst creates
      cases works
    · simpa using ih creates

theorem AllExpand.register (all : AllExpand expand state) (sound : Sound state)
    (cronJob : CronJob) : AllExpand expand (registerCronJob expand environment state cronJob) := by
  intro cronJobId handles present
  have registered : Registered expand environment cronJob state
      (registerCronJob expand environment state cronJob) := registerCronJob_registered sound cronJob
  by_cases other : cronJobId ≠ cronJob.id
  · rw [registered.others cronJobId other] at present
    exact all cronJobId handles present
  · obtain rfl : cronJobId = cronJob.id := not_not.mp other
    refine ⟨cronJob.schedule, environment.zone, ?_, registered.current handles present⟩
    have absent : (state.unregisterCronJob cronJob.id).registrations.get? cronJob.id = none := by
      rw [get?_unregister, if_pos rfl]
    have noHandles : ∀ {later : Scheduler},
        later.registrations = (state.unregisterCronJob cronJob.id).registrations →
        later.registrations.get? cronJob.id ≠ some handles := fun same found => by
      rw [same, absent] at found
      cases found
    unfold registerCronJob at present
    dsimp only at present
    split at present
    · exact absurd present (noHandles rfl)
    · split at present
      · exact absurd present (noHandles rfl)
      · split at present
        · exact absurd present (noHandles rfl)
        · rename_i schedules expanded
          split at present
          · exact absurd present (noHandles rfl)
          · have started : Created environment cronJob (state.unregisterCronJob cronJob.id)
                (state.unregisterCronJob cronJob.id) [] :=
              ⟨rfl, ⟨rfl, rfl⟩, (List.append_nil _).symm, Nat.le_refl _, by simp⟩
            split at present
            · rename_i made
              rw [OrderedMap.get?_set, if_pos rfl] at present
              obtain rfl := Option.some.inj present
              rw [expanded, createHandles_expanded cronJob schedules made rfl]
              rfl
            · rename_i made
              have created := @createHandles_created environment cronJob schedules 0 _ _ _ started
              rw [made] at created
              exact absurd present (noHandles created.1.registrations)

theorem AllExpand.registerAll (jobs : List CronJob) (all : AllExpand expand state)
    (sound : Sound state) :
    AllExpand expand (jobs.foldl (registerCronJob expand environment) state) := by
  induction jobs generalizing state with
  | nil => exact all
  | cons job rest ih =>
    exact ih (all.register sound job) (registerCronJob_registered sound job).sound

theorem allExpand_sync (state : Scheduler) (all : AllExpand expand state) (sound : Sound state)
    (ordered : (state.jobs.map CronJob.id).Pairwise (· < ·)) :
    AllExpand expand (syncCronSchedulerJobs expand environment state state.listActive) := by
  obtain ⟨pruned, prunedSound, _, present, _, same⟩ :=
    @sync_refreshed expand environment state sound ordered
  have fewer : AllExpand expand pruned := all.fewer fun other => by
    rw [present]
    split
    · exact .inr rfl
    · exact .inl rfl
  exact same ▸ fewer.registerAll state.tried prunedSound

theorem AllExpand.step (all : AllExpand expand state) (kept : Kept state) {event : Event}
    (stepped : step expand state event = some next) : AllExpand expand next := by
  cases event with
  | edit jobs =>
    simp only [Scheduler.step] at stepped
    split at stepped
    · obtain rfl := Option.some.inj stepped
      exact all
    · cases stepped
  | start environment =>
    obtain rfl := Option.some.inj stepped
    rw [startCronScheduler]
    split
    · exact all
    · exact allExpand_sync { captureTimezoneSignature environment
        { state with schedulerStarted := true } with timezoneMonitor := true } all
        (kept.sound.of_same rfl rfl rfl) kept.ordered
  | stop =>
    obtain rfl := Option.some.inj stepped
    rw [stopCronScheduler]
    split
    · exact all
    · exact all.fewer fun other => .inl ((unregisterAll_sound kept.sound).2.2 other)
  | syncCron environment cronJobId =>
    obtain rfl := Option.some.inj stepped
    rw [syncCronSchedulerCron]
    split
    · exact all
    · dsimp only
      split
      · exact all.unregister cronJobId
      · split
        · exact all.unregister cronJobId
        · exact (all.unregister cronJobId).register (kept.sound.unregister cronJobId) _
  | syncTimezone environment =>
    obtain rfl := Option.some.inj stepped
    rw [syncCronSchedulerTimezone]
    split
    · exact all
    · exact allExpand_sync (captureTimezoneSignature environment state) all
        (kept.sound.of_same rfl rfl rfl) kept.ordered
  | reconcile environment =>
    obtain rfl := Option.some.inj stepped
    rw [reconcileCronSchedulerTimezoneOffset]
    split
    · exact all
    · exact allExpand_sync { state with schedulerTimezoneSignature := some environment.zone } all
        (kept.sound.of_same rfl rfl rfl) kept.ordered

/-- At every moment of every run, and at every instant, exactly one of the live handles of a
registered job fires if the schedule that it was registered with matches the local time, and none
fires otherwise. -/
theorem registered_job_fires_once (localeCompare : Text → Text → Int) (state : Scheduler)
    (reached : Reaches (step (expandCronScheduleForBun localeCompare)) Unrestricted initial state)
    (cronJobId : Nat) (registered : state.registrations.has cronJobId = true) :
    ∃ schedule zone cron, parseCron schedule = .ok cron ∧
      (∀ handle ∈ state.live, handle.cronJobId = cronJobId →
        handle.schedule = schedule ∧ handle.zone = zone) ∧
      ∀ instant,
        (cronMatchesUtcDate cron (instant + zone.offsetMinutes) = true →
          ∃! handle, handle ∈ state.live ∧ handle.cronJobId = cronJobId ∧
            scheduleMatches handle.expanded instant = true) ∧
        (cronMatchesUtcDate cron (instant + zone.offsetMinutes) = false →
          ∀ handle ∈ state.live, handle.cronJobId = cronJobId →
            scheduleMatches handle.expanded instant = false) := by
  obtain ⟨kept, all⟩ := reached.invariant
    (fun state => Kept state ∧ AllExpand (expandCronScheduleForBun localeCompare) state)
    ⟨kept_initial, fun _ _ present => by cases present⟩
    fun _ _ _ both _ stepped => ⟨kept_step both.1 stepped, both.2.step both.1 stepped⟩
  obtain ⟨handles, present⟩ := Option.isSome_iff_exists.mp registered
  obtain ⟨schedule, zone, expanded, made⟩ := all cronJobId handles present
  obtain ⟨cron, parsed, together⟩ := expanded_together expanded
  have isLive : ∀ handle, handle ∈ state.live ∧ handle.cronJobId = cronJobId ↔
      handle ∈ handles := by
    intro handle
    constructor
    · rintro ⟨live, rfl⟩
      obtain ⟨found, isFound, member⟩ := kept.sound.recorded handle live
      rw [present] at isFound
      exact Option.some.inj isFound ▸ member
    · intro member
      exact (kept.sound.owned _ _ present handle member).symm
  refine ⟨schedule, zone, cron, parsed, fun handle live own =>
    made handle ((isLive handle).mp ⟨live, own⟩), fun instant => ⟨fun matching => ?_, ?_⟩⟩
  · have once := (together instant).1 matching
    rw [List.countP_map, List.countP_eq_length_filter, List.length_eq_one_iff] at once
    obtain ⟨handle, only⟩ := once
    have isOnly : ∀ other, (other ∈ handles ∧ scheduleMatches other.expanded instant = true) ↔
        other = handle := fun other => by
      rw [← List.mem_singleton (a := other), ← only, List.mem_filter]
      rfl
    refine ⟨handle, ?_, ?_⟩
    · obtain ⟨member, fires⟩ := (isOnly handle).mpr rfl
      exact ⟨((isLive handle).mpr member).1, ((isLive handle).mpr member).2, fires⟩
    · rintro other ⟨live, own, fires⟩
      exact (isOnly other).mp ⟨(isLive other).mp ⟨live, own⟩, fires⟩
  · intro quiet handle live own
    refine Bool.eq_false_iff.mpr fun fires => ?_
    have matching := (together instant).2 _
      (List.mem_map_of_mem ((isLive handle).mp ⟨live, own⟩)) fires
    rw [quiet] at matching
    cases matching

theorem registered_job_fires_once_twoHandles :
    let expand := expandCronScheduleForBun fun _ _ => 0
    let environment : Environment :=
      ⟨⟨"UTC".toList, 120⟩, false, fun _ => false, fun _ _ => false⟩
    let job : CronJob := ⟨1, "0 1,23 31 12 *".toList, 1, none, none⟩
    let started := startCronScheduler expand environment { initial with jobs := [job] }
    started.live.length = 2 ∧ ∃ (zone : Zone) (cron : ParsedCron), ∀ instant,
      cronMatchesUtcDate cron (instant + zone.offsetMinutes) = true →
        ∃! handle, handle ∈ started.live ∧ handle.cronJobId = 1 ∧
          scheduleMatches handle.expanded instant = true := by
  intro expand environment job started
  have edited : step expand initial (.edit [job]) = some { initial with jobs := [job] } := by
    simp [step]
  have starts : step expand { initial with jobs := [job] } (.start environment) =
      some started := rfl
  obtain ⟨_, zone, cron, _, _, fires⟩ := registered_job_fires_once (fun _ _ => 0) started
    (((Reaches.refl initial).tail trivial edited).tail trivial starts) 1 (by decide +kernel)
  exact ⟨by decide +kernel, zone, cron, fun instant => (fires instant).1⟩

end Scheduler

end Metidos.CronScheduler
