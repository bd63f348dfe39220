import Metidos.CronScheduler.Scheduler
import Metidos.Library.Transition
import Mathlib.Data.List.Perm.Subperm

/-!
The registrations over runs: every live handle stays recorded, and a sync of all jobs is complete
unless its counter, which counts attempts, leaves out a job while the map has room.
-/

namespace Metidos.CronScheduler.Scheduler

open Transition

variable {expand : Expansion} {environment : Environment} {state next : Scheduler}
  {cronJob : CronJob} {jobs : List CronJob}

structure Sound (state : Scheduler) : Prop where
  recorded : ∀ handle ∈ state.live, ∃ handles,
    state.registrations.get? handle.cronJobId = some handles ∧ handle ∈ handles
  owned : ∀ cronJobId handles, state.registrations.get? cronJobId = some handles →
    ∀ handle ∈ handles, handle.cronJobId = cronJobId ∧ handle ∈ state.live
  old : ∀ handle ∈ state.live, handle.id < state.created
  bounded : state.registrations.size ≤ maxRegisteredCronJobs

structure SameRest (state next : Scheduler) : Prop where
  started : next.schedulerStarted = state.schedulerStarted
  jobs : next.jobs = state.jobs

theorem SameRest.trans {middle : Scheduler} (first : SameRest state middle)
    (second : SameRest middle next) : SameRest state next :=
  ⟨second.started.trans first.started, second.jobs.trans first.jobs⟩

theorem get?_unregister (state : Scheduler) (cronJobId other : Nat) :
    (state.unregisterCronJob cronJobId).registrations.get? other =
      if other = cronJobId then none else state.registrations.get? other := by
  unfold unregisterCronJob
  split
  · rename_i absent
    split
    · rename_i same
      rw [same, absent]
    · rfl
  · exact OrderedMap.get?_delete _ _ _

theorem unregister_rest (state : Scheduler) (cronJobId : Nat) :
    SameRest state (state.unregisterCronJob cronJobId) := by
  unfold unregisterCronJob
  split <;> exact ⟨rfl, rfl⟩

theorem size_unregister (state : Scheduler) (cronJobId : Nat) :
    (state.unregisterCronJob cronJobId).registrations.size +
        (if state.registrations.has cronJobId then 1 else 0) = state.registrations.size := by
  unfold unregisterCronJob
  rw [OrderedMap.has]
  split
  · rename_i absent
    rw [absent]
    rfl
  · rename_i handles present
    rw [present]
    exact OrderedMap.size_delete_of_present _ present

theorem mem_live_unregister (sound : Sound state) {cronJobId : Nat}
    {handle : InProcessCronHandle} :
    handle ∈ (state.unregisterCronJob cronJobId).live ↔
      handle ∈ state.live ∧ handle.cronJobId ≠ cronJobId := by
  unfold unregisterCronJob
  split
  · rename_i absent
    refine ⟨fun isLive => ⟨isLive, fun same => ?_⟩, And.left⟩
    obtain ⟨handles, present, _⟩ := sound.recorded handle isLive
    rw [same, absent] at present
    exact absurd present (by simp)
  · rename_i handles present
    simp only [stopHandles, List.mem_filter, decide_eq_true_eq]
    refine and_congr_right fun isLive => not_congr ⟨fun member => ?_, fun same => ?_⟩
    · exact (sound.owned _ _ present handle member).1
    · obtain ⟨found, isFound, member⟩ := sound.recorded handle isLive
      rw [same, present] at isFound
      exact Option.some.inj isFound ▸ member

theorem Sound.unregister (sound : Sound state) (cronJobId : Nat) :
    Sound (state.unregisterCronJob cronJobId) := by
  refine
    { recorded := fun handle isLive => ?_
      owned := fun other handles present handle member => ?_
      old := fun handle isLive => ?_
      bounded := ?_ }
  · obtain ⟨isLive, other⟩ := (mem_live_unregister sound).mp isLive
    obtain ⟨handles, present, member⟩ := sound.recorded handle isLive
    exact ⟨handles, by rw [get?_unregister, if_neg other, present], member⟩
  · rw [get?_unregister] at present
    split at present
    · exact absurd present (by simp)
    · rename_i different
      obtain ⟨same, isLive⟩ := sound.owned _ _ present handle member
      exact ⟨same, (mem_live_unregister sound).mpr ⟨isLive, same ▸ different⟩⟩
  · have created : (state.unregisterCronJob cronJobId).created = state.created := by
      unfold unregisterCronJob
      split <;> rfl
    rw [created]
    exact sound.old handle ((mem_live_unregister sound).mp isLive).1
  · have size := size_unregister state cronJobId
    have bounded := sound.bounded
    omega

structure Created (environment : Environment) (cronJob : CronJob) (state next : Scheduler)
    (handles : List InProcessCronHandle) : Prop where
  registrations : next.registrations = state.registrations
  rest : SameRest state next
  live : next.live = state.live ++ handles
  created : state.created ≤ next.created
  handles : ∀ handle ∈ handles, handle.cronJobId = cronJob.id ∧
    handle.schedule = cronJob.schedule ∧ handle.zone = environment.zone ∧
    state.created ≤ handle.id ∧ handle.id < next.created

theorem createHandles_created (schedules : List Text) {index : Nat} {start state : Scheduler}
    {handles : List InProcessCronHandle} (created : Created environment cronJob start state handles) :
    Created environment cronJob start
        (createHandles environment cronJob index schedules state handles).1
        (createHandles environment cronJob index schedules state handles).2.1 ∧
      (createHandles environment cronJob index schedules state handles).2.2 =
        (List.range' index schedules.length).all fun index =>
          !environment.cronFails cronJob.id index := by
  induction schedules generalizing index state handles with
  | nil => exact ⟨created, rfl⟩
  | cons schedule rest ih =>
    rw [createHandles, List.length_cons, List.range'_succ, List.all_cons]
    split
    · rename_i fails
      exact ⟨created, by rw [fails]; rfl⟩
    · rename_i works
      have further : Created environment cronJob start
          { state with
            live := state.live ++ [{
              id := state.created
              cronJobId := cronJob.id
              expanded := schedule
              schedule := cronJob.schedule
              zone := environment.zone }]
            created := state.created + 1 }
          (handles ++ [{
            id := state.created
            cronJobId := cronJob.id
            expanded := schedule
            schedule := cronJob.schedule
            zone := environment.zone }]) := by
        refine
          { registrations := created.registrations
            rest := ⟨created.rest.started, created.rest.jobs⟩
            live := by rw [created.live, List.append_assoc]
            created := Nat.le_succ_of_le created.created
            handles := fun handle member => ?_ }
        rcases List.mem_append.mp member with earlier | isNew
        · obtain ⟨job, schedule, zone, fresh, below⟩ := created.handles handle earlier
          exact ⟨job, schedule, zone, fresh, Nat.lt_succ_of_lt below⟩
        · rw [List.mem_singleton.mp isNew]
          exact ⟨rfl, rfl, rfl, created.created, Nat.lt_succ_self _⟩
      obtain ⟨ends, done⟩ := ih further
      refine ⟨ends, done.trans ?_⟩
      rw [eq_false_of_ne_true works]
      rfl

structure Registered (expand : Expansion) (environment : Environment) (cronJob : CronJob)
    (state next : Scheduler) : Prop where
  sound : Sound next
  rest : SameRest state next
  others : ∀ other, other ≠ cronJob.id →
    next.registrations.get? other = state.registrations.get? other
  current : ∀ handles, next.registrations.get? cronJob.id = some handles → ∀ handle ∈ handles,
    handle.schedule = cronJob.schedule ∧ handle.zone = environment.zone
  done : next.registrations.has cronJob.id = true ↔
    isRegistrable expand environment cronJob = true ∧
      (state.registrations.has cronJob.id = true ∨
        state.registrations.size < maxRegisteredCronJobs)
  size : next.registrations.size + (if state.registrations.has cronJob.id then 1 else 0) =
    state.registrations.size + if next.registrations.has cronJob.id then 1 else 0

theorem registered_without (sound : Sound state)
    (out : ¬(isRegistrable expand environment cronJob = true ∧
      (state.registrations.has cronJob.id = true ∨
        state.registrations.size < maxRegisteredCronJobs)))
    (registrations : next.registrations =
      (state.unregisterCronJob cronJob.id).registrations)
    (live : next.live = (state.unregisterCronJob cronJob.id).live)
    (rest : SameRest state next) (created : state.created ≤ next.created) :
    Registered expand environment cronJob state next := by
  have kept := sound.unregister cronJob.id
  have absent : next.registrations.get? cronJob.id = none := by
    rw [registrations, get?_unregister, if_pos rfl]
  have hasNot : next.registrations.has cronJob.id = false := by
    rw [OrderedMap.has, absent]
    rfl
  refine
    { sound :=
        { recorded := by rw [registrations, live]; exact kept.recorded
          owned := by rw [registrations, live]; exact kept.owned
          old := fun handle isLive => ?_
          bounded := by rw [registrations]; exact kept.bounded }
      rest
      others := fun other different => by rw [registrations, get?_unregister, if_neg different]
      current := fun handles present => by rw [absent] at present; exact absurd present (by simp)
      done := iff_of_false (by simp [hasNot]) out
      size := ?_ }
  · rw [live] at isLive
    exact Nat.lt_of_lt_of_le (sound.old handle ((mem_live_unregister sound).mp isLive).1) created
  · have size := size_unregister state cronJob.id
    rw [hasNot, registrations]
    simpa using size

theorem registered_with (sound : Sound state) {after : Scheduler}
    {handles : List InProcessCronHandle}
    (made : Created environment cronJob (state.unregisterCronJob cronJob.id) after handles)
    (registrable : isRegistrable expand environment cronJob = true)
    (isRoom : state.registrations.has cronJob.id = true ∨
      state.registrations.size < maxRegisteredCronJobs) :
    Registered expand environment cronJob state
      { after with registrations := after.registrations.set cronJob.id handles } := by
  have size := size_unregister state cronJob.id
  have rest := unregister_rest state cronJob.id
  have kept := sound.unregister cronJob.id
  have absent : (state.unregisterCronJob cronJob.id).registrations.get? cronJob.id =
      none := by
    rw [get?_unregister, if_pos rfl]
  have sizeNow := OrderedMap.size_set_of_absent _ handles absent
  have present (other : Nat) :
      (after.registrations.set cronJob.id handles).get? other =
        if other = cronJob.id then some handles
        else (state.unregisterCronJob cronJob.id).registrations.get? other := by
    rw [OrderedMap.get?_set, made.registrations]
  have isIn : (after.registrations.set cronJob.id handles).has cronJob.id = true := by
    rw [OrderedMap.has, present, if_pos rfl]
    rfl
  refine
    { sound :=
        { recorded := fun handle isLive => ?_
          owned := fun other found isFound handle member => ?_
          old := fun handle isLive => ?_
          bounded := ?_ }
      rest := ⟨(rest.trans made.rest).started, (rest.trans made.rest).jobs⟩
      others := fun other different => ?_
      current := fun found isFound handle member => ?_
      done := iff_of_true isIn ⟨registrable, isRoom⟩
      size := ?_ }
  · rw [made.live] at isLive
    rcases List.mem_append.mp isLive with earlier | isNew
    · obtain ⟨found, isFound, member⟩ := kept.recorded handle earlier
      have different := ((mem_live_unregister sound).mp earlier).2
      exact ⟨found, by rw [present, if_neg different, isFound], member⟩
    · exact ⟨handles, by rw [present, if_pos (made.handles handle isNew).1], isNew⟩
  · rw [present] at isFound
    rw [made.live]
    split at isFound
    · rename_i same
      obtain rfl := Option.some.inj isFound
      exact ⟨same ▸ (made.handles handle member).1, List.mem_append_right _ member⟩
    · obtain ⟨job, isLive⟩ := kept.owned _ _ isFound handle member
      exact ⟨job, List.mem_append_left _ isLive⟩
  · rw [made.live] at isLive
    rcases List.mem_append.mp isLive with earlier | isNew
    · exact Nat.lt_of_lt_of_le (kept.old handle earlier) made.created
    · exact (made.handles handle isNew).2.2.2.2
  · dsimp only
    rw [made.registrations]
    have bounded := sound.bounded
    rcases isRoom with was | room
    · rw [was] at size
      simp only [if_true] at size
      omega
    · omega
  · rw [present, if_neg different, get?_unregister, if_neg different]
  · rw [present, if_pos rfl] at isFound
    obtain rfl := Option.some.inj isFound
    obtain ⟨_, schedule, zone, _⟩ := made.handles handle member
    exact ⟨schedule, zone⟩
  · dsimp only
    rw [isIn, made.registrations]
    simp only [if_true]
    omega

theorem registerCronJob_registered (sound : Sound state) (cronJob : CronJob) :
    Registered expand environment cronJob state
      (registerCronJob expand environment state cronJob) := by
  have size := size_unregister state cronJob.id
  have rest := unregister_rest state cronJob.id
  have createdSame : (state.unregisterCronJob cronJob.id).created = state.created := by
    unfold unregisterCronJob
    split <;> rfl
  have keeps (out : ¬(isRegistrable expand environment cronJob = true ∧
      (state.registrations.has cronJob.id = true ∨
        state.registrations.size < maxRegisteredCronJobs))) :
      Registered expand environment cronJob state (state.unregisterCronJob cronJob.id) :=
    registered_without sound out rfl rfl rest (Nat.le_of_eq createdSame.symm)
  unfold registerCronJob
  dsimp only
  split
  · rename_i full
    simp only [Bool.and_eq_true, Bool.not_eq_true', decide_eq_true_eq] at full
    rw [full.1] at size
    refine keeps fun both => ?_
    rcases both.2 with was | room
    · exact absurd (full.1.symm.trans was) (by simp)
    · simp only [Bool.false_eq_true, if_false] at size
      omega
  · rename_i room
    split
    · rename_i fails
      exact keeps fun both => by simp [isRegistrable, fails] at both
    · rename_i works
      split
      · rename_i throws
        exact keeps fun both => by simp [isRegistrable, throws] at both
      · rename_i schedules expanded
        split
        · rename_i tooMany
          exact keeps fun both => by simp [isRegistrable, expanded, Nat.not_le.mpr tooMany] at both
        · rename_i few
          have start : Created environment cronJob (state.unregisterCronJob cronJob.id)
              (state.unregisterCronJob cronJob.id) [] :=
            { registrations := rfl
              rest := ⟨rfl, rfl⟩
              live := (List.append_nil _).symm
              created := Nat.le_refl _
              handles := by simp }
          obtain ⟨made, allDone⟩ := @createHandles_created environment cronJob schedules 0 _ _ _ start
          generalize createHandles environment cronJob 0 schedules
            (state.unregisterCronJob cronJob.id) [] = result at made allDone ⊢
          obtain ⟨after, handles, done⟩ := result
          dsimp only at made allDone ⊢
          have registrable : isRegistrable expand environment cronJob = done := by
            rw [isRegistrable, expanded, eq_false_of_ne_true works, Option.any_some,
              decide_eq_true (Nat.le_of_not_lt few), allDone, List.range_eq_range']
            simp
          have fresh : ∀ handle ∈ handles, handle ∉ (state.unregisterCronJob cronJob.id).live := by
            intro handle member isLive
            have older := (sound.unregister cronJob.id).old handle isLive
            have newer := (made.handles handle member).2.2.2.1
            omega
          cases done with
          | false =>
            have stays : (state.unregisterCronJob cronJob.id).live.filter
                (fun handle => decide (handle ∉ handles)) =
                  (state.unregisterCronJob cronJob.id).live :=
              List.filter_eq_self.mpr fun handle isLive => by
                simpa using fun member => fresh handle member isLive
            have gone : handles.filter (fun handle => decide (handle ∉ handles)) = [] :=
              List.filter_eq_nil_iff.mpr (by simp)
            refine registered_without sound (fun both => ?_) made.registrations ?_
              ⟨(rest.trans made.rest).started, (rest.trans made.rest).jobs⟩
              (createdSame ▸ made.created)
            · exact absurd (registrable.symm.trans both.1) (by simp)
            · simp only [stopHandles, made.live, List.filter_append]
              rw [stays, gone, List.append_nil]
          | true =>
            refine registered_with sound made registrable ?_
            by_contra neither
            obtain ⟨hasNot, tooFew⟩ := not_or.mp neither
            refine room ?_
            rw [eq_false_of_ne_true hasNot] at size ⊢
            simp only [Bool.false_eq_true, if_false, Nat.add_zero] at size
            simp only [Bool.not_false, Bool.true_and, decide_eq_true_eq]
            omega

theorem prune_get? (kept : Nat → Prop) [DecidablePred kept] (cronJobIds : List Nat)
    (sound : Sound state) :
    Sound (cronJobIds.foldl (fun state cronJobId =>
        if kept cronJobId then state else state.unregisterCronJob cronJobId) state) ∧
      SameRest state (cronJobIds.foldl (fun state cronJobId =>
        if kept cronJobId then state else state.unregisterCronJob cronJobId) state) ∧
      ∀ other, (cronJobIds.foldl (fun state cronJobId =>
          if kept cronJobId then state else state.unregisterCronJob cronJobId)
        state).registrations.get? other =
        if other ∈ cronJobIds ∧ ¬kept other then none else state.registrations.get? other := by
  induction cronJobIds generalizing state with
  | nil => exact ⟨sound, ⟨rfl, rfl⟩, fun other => by simp⟩
  | cons cronJobId rest ih =>
    rw [List.foldl_cons]
    split
    · rename_i keep
      obtain ⟨ends, same, present⟩ := ih sound
      refine ⟨ends, same, fun other => ?_⟩
      rw [present]
      by_cases isThis : other = cronJobId
      · simp [isThis, keep]
      · simp [isThis]
    · rename_i drop
      obtain ⟨ends, same, present⟩ := ih (sound.unregister cronJobId)
      refine ⟨ends, (unregister_rest state cronJobId).trans same, fun other => ?_⟩
      rw [present, get?_unregister]
      by_cases isThis : other = cronJobId
      · simp [isThis, drop]
      · simp [isThis]

theorem Sound.live_of_empty (sound : Sound state)
    (absent : ∀ cronJobId, state.registrations.get? cronJobId = none) :
    state.registrations.size = 0 ∧ state.live = [] := by
  constructor
  · have none (cronJobId : Nat) : cronJobId ∉ state.registrations.keys :=
      (OrderedMap.get?_eq_none_iff _ _).mp (absent cronJobId)
    have empty := List.eq_nil_iff_forall_not_mem.mpr none
    rw [OrderedMap.keys, List.map_eq_nil_iff] at empty
    rw [OrderedMap.size, empty]
    rfl
  · refine List.eq_nil_iff_forall_not_mem.mpr fun handle isLive => ?_
    obtain ⟨handles, present, _⟩ := sound.recorded handle isLive
    rw [absent] at present
    exact absurd present (by simp)

theorem unregisterAll_sound (sound : Sound state) :
    Sound state.unregisterAllCronJobs ∧ SameRest state state.unregisterAllCronJobs ∧
      ∀ cronJobId, state.unregisterAllCronJobs.registrations.get? cronJobId = none := by
  obtain ⟨ends, rest, present⟩ := prune_get? (fun _ => False) state.registrations.keys sound
  simp only [if_false] at ends rest present
  refine ⟨ends, rest, fun cronJobId => ?_⟩
  rw [unregisterAllCronJobs, present]
  split
  · rfl
  · rename_i out
    refine (OrderedMap.get?_eq_none_iff _ _).mpr fun member => out ⟨member, not_false⟩

structure Refreshed (environment : Environment) (jobs : List CronJob) (state next : Scheduler) :
    Prop where
  sound : Sound next
  rest : SameRest state next
  others : ∀ other, other ∉ jobs.map CronJob.id →
    next.registrations.get? other = state.registrations.get? other
  current : ∀ job ∈ jobs, ∀ handles, next.registrations.get? job.id = some handles →
    ∀ handle ∈ handles, handle.schedule = job.schedule ∧ handle.zone = environment.zone

theorem registerAll_refreshed (sound : Sound state) (distinct : (jobs.map CronJob.id).Nodup) :
    Refreshed environment jobs state (jobs.foldl (registerCronJob expand environment) state) := by
  induction jobs generalizing state with
  | nil => exact ⟨sound, ⟨rfl, rfl⟩, fun _ _ => rfl, by simp⟩
  | cons job rest ih =>
    rw [List.map_cons, List.nodup_cons] at distinct
    have registered : Registered expand environment job state _ :=
      registerCronJob_registered sound job
    have later := ih registered.sound distinct.2
    refine
      { sound := later.sound
        rest := registered.rest.trans later.rest
        others := fun other out => ?_
        current := fun found member handles present handle isIn => ?_ }
    · rw [List.map_cons, List.mem_cons, not_or] at out
      rw [List.foldl_cons, later.others other out.2, registered.others other out.1]
    · rw [List.foldl_cons] at present
      rcases List.mem_cons.mp member with isThis | isLater
      · rw [isThis, later.others job.id distinct.1] at present
        rw [isThis]
        exact registered.current handles present handle isIn
      · exact later.current found isLater handles present handle isIn

section Counts

variable {before : Scheduler} {job : CronJob}

theorem gains_cons : gains expand environment before (job :: jobs) =
    gains expand environment before jobs +
      if !before.registrations.has job.id && isRegistrable expand environment job then 1 else 0 :=
  List.countP_cons

theorem losses_cons : losses expand environment before (job :: jobs) =
    losses expand environment before jobs +
      if before.registrations.has job.id && !isRegistrable expand environment job then 1 else 0 :=
  List.countP_cons

theorem known_register (sound : Sound state) (distinct : ((job :: jobs).map CronJob.id).Nodup)
    (known : ∀ found ∈ job :: jobs,
      state.registrations.has found.id = before.registrations.has found.id) :
    ∀ found ∈ jobs, (registerCronJob expand environment state job).registrations.has found.id =
      before.registrations.has found.id := by
  intro found member
  have registered : Registered expand environment job state _ :=
    registerCronJob_registered sound job
  rw [← known found (List.mem_cons_of_mem _ member), OrderedMap.has, OrderedMap.has,
    registered.others]
  rintro same
  rw [List.map_cons, List.nodup_cons] at distinct
  exact distinct.1 (same ▸ List.mem_map_of_mem member)

theorem registerAll_full (sound : Sound state) (distinct : (jobs.map CronJob.id).Nodup)
    (known : ∀ job ∈ jobs, state.registrations.has job.id = before.registrations.has job.id)
    (enough : maxRegisteredCronJobs + losses expand environment before jobs ≤
      state.registrations.size + gains expand environment before jobs)
    (tails : ∀ tail, tail <:+ jobs →
      losses expand environment before tail ≤ gains expand environment before tail) :
    (jobs.foldl (registerCronJob expand environment) state).registrations.size =
      maxRegisteredCronJobs := by
  induction jobs generalizing state with
  | nil =>
    have bounded := sound.bounded
    have none : losses expand environment before [] = 0 ∧
        gains expand environment before [] = 0 := ⟨rfl, rfl⟩
    rw [List.foldl_nil]
    omega
  | cons job rest ih =>
    have registered : Registered expand environment job state _ :=
      registerCronJob_registered sound job
    have isKnown := known job List.mem_cons_self
    have size := registered.size
    have done := registered.done
    have bounded := sound.bounded
    have afterwards := tails rest (List.suffix_cons job rest)
    rw [List.foldl_cons]
    refine ih registered.sound (List.nodup_cons.mp distinct).2
      (known_register sound distinct known) ?_
      fun tail isTail => tails tail (isTail.trans (List.suffix_cons job rest))
    rw [gains_cons, losses_cons, ← isKnown] at enough
    cases wasIn : state.registrations.has job.id <;>
      cases registrable : isRegistrable expand environment job <;>
      cases isIn : (registerCronJob expand environment state job).registrations.has job.id <;>
      simp [wasIn, registrable, isIn] at size done enough <;> omega

theorem registerAll_roomy (sound : Sound state) (distinct : (jobs.map CronJob.id).Nodup)
    (known : ∀ job ∈ jobs, state.registrations.has job.id = before.registrations.has job.id)
    (roomy : ∀ front, front <+: jobs →
      state.registrations.size + gains expand environment before front ≤
        maxRegisteredCronJobs + losses expand environment before front) :
    ∀ job ∈ jobs, isRegistrable expand environment job = true →
      (jobs.foldl (registerCronJob expand environment) state).registrations.has job.id = true := by
  induction jobs generalizing state with
  | nil => simp
  | cons job rest ih =>
    have registered : Registered expand environment job state _ :=
      registerCronJob_registered sound job
    have isKnown := known job List.mem_cons_self
    have size := registered.size
    have done := registered.done
    have parts := List.nodup_cons.mp distinct
    intro found member registrable
    rw [List.foldl_cons]
    rcases List.mem_cons.mp member with isThis | isLater
    · have refreshed : Refreshed environment rest _
          (rest.foldl (registerCronJob expand environment) _) :=
        registerAll_refreshed registered.sound parts.2
      rw [isThis, OrderedMap.has, refreshed.others job.id parts.1, ← OrderedMap.has, done]
      refine ⟨isThis ▸ registrable, ?_⟩
      have room := roomy [job] ⟨rest, rfl⟩
      rw [gains_cons, losses_cons, ← isKnown, ← isThis, registrable] at room
      have none : losses expand environment before [] = 0 ∧
        gains expand environment before [] = 0 := ⟨rfl, rfl⟩
      cases wasIn : state.registrations.has found.id with
      | true => exact Or.inl (isThis ▸ wasIn)
      | false =>
        refine Or.inr ?_
        simp only [wasIn, Bool.not_false, Bool.and_true, Bool.not_true, Bool.and_false,
          Bool.false_eq_true, if_true, if_false] at room
        omega
    · refine ih registered.sound parts.2 (known_register sound distinct known) ?_ found isLater
        registrable
      intro front isFront
      have room := roomy (job :: front) ((List.prefix_cons_inj job).mpr isFront)
      rw [gains_cons, losses_cons, ← isKnown] at room
      cases wasIn : state.registrations.has job.id <;>
        cases registrable : isRegistrable expand environment job <;>
        cases isIn : (registerCronJob expand environment state job).registrations.has job.id <;>
        simp [wasIn, registrable, isIn] at size done room <;> omega

end Counts

theorem registerCronJobs_take (active : ∀ job ∈ jobs, isActive job = true) (registered : Nat)
    (state : Scheduler) :
    registerCronJobs expand environment registered jobs state =
      (jobs.take (maxRegisteredCronJobs - registered)).foldl
        (registerCronJob expand environment) state := by
  induction jobs generalizing registered state with
  | nil => rw [List.take_nil]; rfl
  | cons job rest ih =>
    have isOn := active job List.mem_cons_self
    simp only [isActive, Bool.and_eq_true, decide_eq_true_eq, Option.isNone_iff_eq_none] at isOn
    rw [registerCronJobs, if_neg (by simp [isOn])]
    split
    · rename_i full
      rw [Nat.sub_eq_zero_of_le full, List.take_zero, List.foldl_nil]
    · rename_i room
      have more : maxRegisteredCronJobs - registered =
          maxRegisteredCronJobs - (registered + 1) + 1 := by omega
      rw [ih (fun found member => active found (List.mem_cons_of_mem _ member)), more,
        List.take_succ_cons, List.foldl_cons]

theorem ids_distinct {ids : List Nat} (ordered : ids.Pairwise (· < ·)) : ids.Nodup :=
  ordered.imp Nat.ne_of_lt

theorem listActive_ids_sublist (state : Scheduler) :
    (state.listActive.map CronJob.id).Sublist (state.jobs.map CronJob.id) :=
  List.filter_sublist.map CronJob.id

theorem sync_refreshed (sound : Sound state)
    (ordered : (state.jobs.map CronJob.id).Pairwise (· < ·)) :
    ∃ pruned, Sound pruned ∧ SameRest state pruned ∧
      (∀ other, pruned.registrations.get? other =
        if other ∈ state.listActive.map CronJob.id then state.registrations.get? other
        else none) ∧
      Refreshed environment state.tried pruned
        (syncCronSchedulerJobs expand environment state state.listActive) ∧
      syncCronSchedulerJobs expand environment state state.listActive =
        state.tried.foldl (registerCronJob expand environment) pruned := by
  obtain ⟨ends, rest, present⟩ := prune_get?
    (fun cronJobId => cronJobId ∈ state.listActive.map CronJob.id) state.registrations.keys sound
  have same := @registerCronJobs_take expand environment state.listActive
    (fun job member => (List.mem_filter.mp member).2) 0
    (state.registrations.keys.foldl (fun state' cronJobId =>
      if cronJobId ∈ state.listActive.map CronJob.id then state'
      else state'.unregisterCronJob cronJobId) state)
  refine ⟨_, ends, rest, fun other => ?_, ?_, same⟩
  · rw [present]
    by_cases isActive : other ∈ state.listActive.map CronJob.id
    · rw [if_neg fun both => both.2 isActive, if_pos isActive]
    · rw [if_neg isActive]
      split
      · rfl
      · rename_i out
        exact (OrderedMap.get?_eq_none_iff _ _).mpr fun member => out ⟨member, isActive⟩
  · rw [syncCronSchedulerJobs, same]
    refine registerAll_refreshed ends (List.Nodup.sublist ?_ (ids_distinct ordered))
    exact ((List.take_sublist _ _).map CronJob.id).trans (listActive_ids_sublist state)

theorem sync_sound (sound : Sound state)
    (ordered : (state.jobs.map CronJob.id).Pairwise (· < ·)) :
    Sound (syncCronSchedulerJobs expand environment state state.listActive) ∧
      SameRest state (syncCronSchedulerJobs expand environment state state.listActive) := by
  obtain ⟨_, _, rest, _, refreshed, _⟩ :=
    @sync_refreshed expand environment state sound ordered
  exact ⟨refreshed.sound, rest.trans refreshed.rest⟩

theorem listActive_same (same : SameRest state next) : next.listActive = state.listActive := by
  rw [listActive, listActive, same.jobs]

theorem mem_tried_or_untried {job : CronJob} (active : job ∈ state.listActive) :
    job ∈ state.tried ∨ job ∈ state.untried := by
  rwa [← List.mem_append, tried, untried, List.take_append_drop]

theorem pruned_size {pruned : Scheduler}
    (present : ∀ other, pruned.registrations.get? other =
      if other ∈ state.listActive.map CronJob.id then state.registrations.get? other else none) :
    pruned.registrations.size = state.registeredActive := by
  have perm : pruned.registrations.keys.Perm (state.registrations.keys.filter fun cronJobId =>
      cronJobId ∈ state.listActive.map CronJob.id) := by
    refine (List.perm_ext_iff_of_nodup pruned.registrations.keys_nodup
      (state.registrations.keys_nodup.filter _)).mpr fun other => ?_
    rw [List.mem_filter, ← OrderedMap.has_iff, ← OrderedMap.has_iff, OrderedMap.has, present,
      decide_eq_true_iff]
    split
    · rename_i inside
      exact (and_iff_left inside).symm
    · rename_i outside
      exact iff_of_false (by simp) fun both => outside both.2
  have length := perm.length_eq
  rwa [OrderedMap.keys, List.length_map] at length

theorem sync_synced (sound : Sound state)
    (ordered : (state.jobs.map CronJob.id).Pairwise (· < ·))
    (fits : SyncFits expand environment state) :
    Synced expand environment
      (syncCronSchedulerJobs expand environment state state.listActive) := by
  obtain ⟨pruned, isSound, rest, present, refreshed, same⟩ :=
    @sync_refreshed expand environment state sound ordered
  obtain ⟨upToDate, counts⟩ := fits
  have distinct := (ids_distinct ordered).sublist (listActive_ids_sublist state)
  have apart : ∀ job ∈ state.untried, job.id ∉ state.tried.map CronJob.id := by
    have both := distinct
    rw [← List.take_append_drop maxRegisteredCronJobs state.listActive, List.map_append,
      List.nodup_append] at both
    intro job member isTried
    exact both.2.2 _ isTried _ (List.mem_map_of_mem member) rfl
  have triedDistinct : (state.tried.map CronJob.id).Nodup :=
    distinct.sublist ((List.take_sublist _ _).map CronJob.id)
  have isActive (job : CronJob) (member : job ∈ state.tried) : job ∈ state.listActive :=
    List.mem_of_mem_take member
  have known (job : CronJob) (active : job ∈ state.listActive) :
      pruned.registrations.has job.id = state.registrations.has job.id := by
    rw [OrderedMap.has, present, if_pos (List.mem_map_of_mem active), OrderedMap.has]
  have size := pruned_size present
  have active : ∀ cronJobId,
      (syncCronSchedulerJobs expand environment state state.listActive).registrations.has
        cronJobId = true → ∃ job ∈ state.listActive, job.id = cronJobId := by
    intro cronJobId isIn
    by_cases isTried : cronJobId ∈ state.tried.map CronJob.id
    · obtain ⟨job, member, isId⟩ := List.mem_map.mp isTried
      exact ⟨job, isActive job member, isId⟩
    · rw [OrderedMap.has, refreshed.others _ isTried, present] at isIn
      split at isIn
      · rename_i inside
        obtain ⟨job, member, isId⟩ := List.mem_map.mp inside
        exact ⟨job, member, isId⟩
      · exact absurd isIn (by simp)
  have whole : (syncCronSchedulerJobs expand environment state state.listActive).listActive =
      state.listActive :=
    listActive_same (rest.trans refreshed.rest)
  refine
    { current := fun handle isLive => ?_
      active := fun cronJobId member => ?_
      complete := fun job member registrable out => ?_ }
  · obtain ⟨handles, isFound, isIn⟩ := refreshed.sound.recorded handle isLive
    obtain ⟨job, member, isId⟩ := active handle.cronJobId (by rw [OrderedMap.has, isFound]; rfl)
    rw [whole]
    rw [← isId] at isFound
    refine ⟨job, member, isId, ?_⟩
    rcases mem_tried_or_untried member with isTried | isUntried
    · exact refreshed.current job isTried handles isFound handle isIn
    · rw [refreshed.others _ (apart job isUntried), present,
        if_pos (List.mem_map_of_mem member)] at isFound
      exact upToDate job isUntried handles isFound handle isIn
  · rw [whole]
    exact active cronJobId ((OrderedMap.has_iff _ _).mpr member)
  · rw [whole] at member
    rw [same]
    rcases counts with ⟨enough, tails⟩ | ⟨roomy, others⟩
    · refine registerAll_full isSound triedDistinct
        (fun job isTried => known job (isActive job isTried)) ?_ tails
      rwa [size]
    · refine absurd ((OrderedMap.has_iff _ _).mp ?_) out
      rcases mem_tried_or_untried member with isTried | isUntried
      · rw [same]
        refine registerAll_roomy isSound triedDistinct
          (fun job isTried => known job (isActive job isTried)) ?_ job isTried registrable
        intro front isFront
        rw [size]
        exact roomy front isFront
      · rw [OrderedMap.has, refreshed.others _ (apart job isUntried), ← OrderedMap.has,
          known job member]
        exact others job isUntried registrable

structure Kept (state : Scheduler) : Prop where
  sound : Sound state
  ordered : (state.jobs.map CronJob.id).Pairwise (· < ·)
  stopped : state.schedulerStarted = false →
    ∀ cronJobId, state.registrations.get? cronJobId = none

theorem kept_initial : Kept initial where
  sound :=
    { recorded := fun _ isLive => absurd isLive (by simp [initial])
      owned := fun _ _ present => absurd present (by simp [initial])
      old := fun _ isLive => absurd isLive (by simp [initial])
      bounded := Nat.zero_le _ }
  ordered := List.Pairwise.nil
  stopped := fun _ _ => rfl

theorem Sound.of_same {state next : Scheduler} (sound : Sound state)
    (registrations : next.registrations = state.registrations) (live : next.live = state.live)
    (created : next.created = state.created) : Sound next where
  recorded := by rw [registrations, live]; exact sound.recorded
  owned := by rw [registrations, live]; exact sound.owned
  old := by rw [live, created]; exact sound.old
  bounded := by rw [registrations]; exact sound.bounded

theorem Kept.of_sound {state next : Scheduler} (kept : Kept state) (sound : Sound next)
    (jobs : next.jobs = state.jobs) (started : next.schedulerStarted = true) : Kept next where
  sound
  ordered := by rw [jobs]; exact kept.ordered
  stopped := fun stopped => absurd (started.symm.trans stopped) (by simp)

theorem kept_sync (kept : Kept state) (sound : Sound next) (jobs : next.jobs = state.jobs)
    (started : next.schedulerStarted = true) :
    Kept (syncCronSchedulerJobs expand environment next next.listActive) := by
  obtain ⟨isSound, same⟩ := @sync_sound expand environment next sound (jobs ▸ kept.ordered)
  exact kept.of_sound isSound (same.jobs.trans jobs) (same.started.trans started)

theorem kept_step (kept : Kept state) {event : Event}
    (stepped : step expand state event = some next) : Kept next := by
  cases event with
  | edit jobs =>
    simp only [step] at stepped
    split at stepped
    · rename_i ordered
      obtain rfl := Option.some.inj stepped
      exact ⟨kept.sound.of_same rfl rfl rfl, ordered, kept.stopped⟩
    · exact absurd stepped (by simp)
  | start environment =>
    obtain rfl := Option.some.inj stepped
    rw [startCronScheduler]
    split
    · exact kept
    · exact kept_sync kept (kept.sound.of_same rfl rfl rfl) rfl rfl
  | stop =>
    obtain rfl := Option.some.inj stepped
    rw [stopCronScheduler]
    split
    · exact kept
    · obtain ⟨sound, same, absent⟩ := unregisterAll_sound kept.sound
      refine ⟨sound.of_same rfl rfl rfl, ?_, fun _ => absent⟩
      rw [same.jobs]
      exact kept.ordered
  | syncCron environment cronJobId =>
    obtain rfl := Option.some.inj stepped
    rw [syncCronSchedulerCron]
    split
    · exact kept
    · rename_i isStarted
      rw [Bool.not_eq_true', Bool.not_eq_false] at isStarted
      have unregistered : Kept (state.unregisterCronJob cronJobId) :=
        kept.of_sound (kept.sound.unregister cronJobId) (unregister_rest state cronJobId).jobs
          ((unregister_rest state cronJobId).started.trans isStarted)
      dsimp only
      split
      · exact unregistered
      · rename_i cronJob _
        split
        · exact unregistered
        · have registered : Registered expand environment cronJob _ _ :=
            registerCronJob_registered unregistered.sound cronJob
          exact unregistered.of_sound registered.sound registered.rest.jobs
            (registered.rest.started.trans
              ((unregister_rest state cronJobId).started.trans isStarted))
  | syncTimezone environment =>
    obtain rfl := Option.some.inj stepped
    rw [syncCronSchedulerTimezone]
    split
    · exact kept
    · rename_i isStarted
      rw [Bool.not_eq_true', Bool.not_eq_false] at isStarted
      exact kept_sync kept (kept.sound.of_same rfl rfl rfl) rfl isStarted
  | reconcile environment =>
    obtain rfl := Option.some.inj stepped
    rw [reconcileCronSchedulerTimezoneOffset]
    split
    · exact kept
    · rename_i changed
      simp only [Bool.or_eq_true, Bool.not_eq_true', not_or, Bool.not_eq_false] at changed
      exact kept_sync kept (kept.sound.of_same rfl rfl rfl) rfl changed.1.1

theorem Kept.recorded (kept : Kept state) : Recorded state where
  oneJob := by
    intro handle isLive
    obtain ⟨handles, present, member⟩ := kept.sound.recorded handle isLive
    refine ⟨handle.cronJobId, ⟨handles, present, member⟩, ?_⟩
    rintro cronJobId ⟨others, isThere, isIn⟩
    exact (kept.sound.owned _ _ isThere handle isIn).1.symm
  bounded := kept.sound.bounded
  stopped := fun stopped => kept.sound.live_of_empty (kept.stopped stopped)

theorem step_synced (kept : Kept state) {event : Event}
    (isSync : fullSync state event = some environment)
    (fits : SyncFits expand environment state) (stepped : step expand state event = some next) :
    Synced expand environment next := by
  cases event with
  | edit => exact absurd isSync (by simp [fullSync])
  | start =>
    simp only [fullSync] at isSync
    split at isSync
    · exact absurd isSync (by simp)
    · rename_i notStarted
      obtain rfl := Option.some.inj isSync
      obtain rfl := Option.some.inj stepped
      rw [startCronScheduler, if_neg notStarted]
      exact sync_synced (kept.sound.of_same rfl rfl rfl) kept.ordered fits
  | stop => exact absurd isSync (by simp [fullSync])
  | syncCron => exact absurd isSync (by simp [fullSync])
  | syncTimezone =>
    simp only [fullSync] at isSync
    split at isSync
    · rename_i isStarted
      obtain rfl := Option.some.inj isSync
      obtain rfl := Option.some.inj stepped
      rw [syncCronSchedulerTimezone, if_neg (by simp [isStarted])]
      exact sync_synced (kept.sound.of_same rfl rfl rfl) kept.ordered fits
    · exact absurd isSync (by simp)
  | reconcile =>
    simp only [fullSync] at isSync
    split at isSync
    · exact absurd isSync (by simp)
    · rename_i changed
      obtain rfl := Option.some.inj isSync
      obtain rfl := Option.some.inj stepped
      rw [reconcileCronSchedulerTimezoneOffset, if_neg changed]
      exact sync_synced (kept.sound.of_same rfl rfl rfl) kept.ordered fits

theorem syncFits_of_few (few : state.listActive.length ≤ maxRegisteredCronJobs) :
    SyncFits expand environment state := by
  have noneLeft : state.untried = [] := List.drop_eq_nil_of_le few
  have all : state.tried = state.listActive := List.take_of_length_le few
  refine ⟨by simp [noneLeft], Or.inr ⟨fun front isFront => ?_, by simp [noneLeft]⟩⟩
  rw [all] at isFront
  have registered : state.registeredActive ≤
      state.listActive.countP fun job => state.registrations.has job.id := by
    have inside : (state.registrations.keys.filter fun cronJobId =>
        cronJobId ∈ state.listActive.map CronJob.id) ⊆
          (state.listActive.filter fun job => state.registrations.has job.id).map CronJob.id := by
      intro cronJobId member
      rw [List.mem_filter, decide_eq_true_iff, List.mem_map] at member
      obtain ⟨isKey, job, active, rfl⟩ := member
      exact List.mem_map_of_mem
        (List.mem_filter.mpr ⟨active, (OrderedMap.has_iff _ _).mpr isKey⟩)
    have fewer := ((state.registrations.keys_nodup.filter _).subperm inside).length_le
    rw [List.countP_eq_length_filter]
    rwa [List.length_map] at fewer
  have gained : gains expand environment state front ≤
      state.listActive.countP fun job => !state.registrations.has job.id := by
    refine Nat.le_trans (isFront.sublist.countP_le) (List.countP_mono_left fun job _ gain => ?_)
    exact (Bool.and_eq_true_iff.mp gain).1
  have total := List.length_eq_countP_add_countP
    (fun job : CronJob => state.registrations.has job.id) (l := state.listActive)
  simp only [Bool.not_eq_true, Bool.decide_eq_false] at total
  omega

/-- In every run whose syncs of all jobs all fit, the registrations are recorded, and each sync
leaves the current ones. -/
theorem cronScheduler_synced (expand : Expansion) (state : Scheduler)
    (reached : Reaches (step expand)
      (fun state event => ∀ environment, fullSync state event = some environment →
        SyncFits expand environment state) initial state) :
    Recorded state ∧
      ∀ event environment next, fullSync state event = some environment →
        SyncFits expand environment state → step expand state event = some next →
          Synced expand environment next := by
  have kept : Kept state := reached.invariant Kept kept_initial
    fun _ _ _ kept _ stepped => kept_step kept stepped
  exact ⟨kept.recorded, fun _ _ _ isSync fits stepped => step_synced kept isSync fits stepped⟩

/-- A job is registered in one zone and, after a change of the zone, in the other. -/
theorem cronScheduler_synced_reconcile :
    let expand : Expansion := fun schedule _ => some [schedule]
    let environment (offsetMinutes : Int) : Environment :=
      ⟨⟨"UTC".toList, offsetMinutes⟩, false, fun _ => false, fun _ _ => false⟩
    let job : CronJob := ⟨1, "0 9 * * *".toList, 1, none, none⟩
    let started := startCronScheduler expand (environment 0) { initial with jobs := [job] }
    Recorded started ∧ Synced expand (environment 60)
      (reconcileCronSchedulerTimezoneOffset expand (environment 60) started) := by
  intro expand environment job started
  have edited : step expand initial (.edit [job]) = some { initial with jobs := [job] } := by
    simp [step]
  have starts : step expand { initial with jobs := [job] } (.start (environment 0)) =
      some started := rfl
  have synced := cronScheduler_synced expand started
    (((Reaches.refl initial).tail
        (fun _ isSync => absurd isSync (by simp [fullSync])) edited).tail
      (fun _ _ => syncFits_of_few (by decide)) starts)
  exact ⟨synced.1, synced.2 (.reconcile (environment 60)) (environment 60) _ rfl
    (syncFits_of_few (by decide)) rfl⟩

def crowdedJobs : List CronJob :=
  (List.range' 1 257).map fun cronJobId => ⟨cronJobId, "0 9 * * *".toList, 1, none, none⟩

def crowdedEnvironment : Environment :=
  ⟨⟨"UTC".toList, 0⟩, false, fun _ => false, fun cronJobId _ => cronJobId ≤ 256⟩

def sameSchedule : Expansion := fun schedule _ => some [schedule]

/-- `256` jobs that can not be registered take the places of the job after them. -/
theorem cronScheduler_synced_attempts :
    ¬ ∀ (expand : Expansion) (state : Scheduler),
      Reaches (step expand) Unrestricted initial state →
        Recorded state ∧
          ∀ event environment next, fullSync state event = some environment →
            step expand state event = some next → Synced expand environment next := by
  intro always
  have ordered : (crowdedJobs.map CronJob.id).Pairwise (· < ·) := by
    rw [crowdedJobs, List.map_map]
    exact (List.map_id _).symm ▸ List.pairwise_lt_range' 1
  have edited : step sameSchedule initial (.edit crowdedJobs) =
      some { initial with jobs := crowdedJobs } := by
    rw [step, if_pos ordered]
  have synced := (always sameSchedule { initial with jobs := crowdedJobs }
    ((Reaches.refl initial).tail trivial edited)).2
      (.start crowdedEnvironment) crowdedEnvironment _ rfl rfl
  generalize ends : startCronScheduler sameSchedule crowdedEnvironment
    { initial with jobs := crowdedJobs } = next at synced
  have leavesOut : (next.listActive.any fun job =>
      isRegistrable sameSchedule crowdedEnvironment job &&
        !next.registrations.has job.id) = true := by
    rw [← ends]
    decide +kernel
  have isEmpty : next.registrations.size = 0 := by
    rw [← ends]
    decide +kernel
  obtain ⟨job, member, isLeft⟩ := List.any_eq_true.mp leavesOut
  obtain ⟨registrable, out⟩ := Bool.and_eq_true_iff.mp isLeft
  have full := synced.complete job member registrable
    (mt (OrderedMap.has_iff _ _).mpr (by simpa using out))
  exact absurd (isEmpty.symm.trans full) (by decide)

end Metidos.CronScheduler.Scheduler
