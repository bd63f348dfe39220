import Metidos.Calendar.TimedLayout

/-!
The layout of a day gives each occurrence of it one column, and each cluster as many as it needs,
exactly when the day's length and the epoch do not get in the way.
-/

namespace Metidos.CalendarLayout

open IntervalColumns Relation

variable {ρ : Type} {day : LocalDay} {occurrences : List (RpcCalendarOccurrence ρ)}
  {occurrence : RpcCalendarOccurrence ρ} {item : TimedLayoutInput ρ} {minutesOfDay : Int → Nat}

theorem runsAt_iff {time : Int} : occurrence.runsAt time = true ↔
    occurrence.allDay = false ∧ ∃ rawStart rawEnd, occurrence.startAt = some rawStart ∧
      occurrence.endAt = some rawEnd ∧ rawStart ≤ time ∧ time < rawEnd := by
  obtain ⟨allDay, startAt, endAt, fields⟩ := occurrence
  unfold RpcCalendarOccurrence.runsAt
  cases allDay <;> cases startAt <;> cases endAt <;> simp

theorem timedLayoutInput_iff {dayStart : Int} :
    timedLayoutInput (some dayStart) occurrence = some item ↔
      item.occurrence = occurrence ∧ occurrence.allDay = false ∧
        ∃ rawStart rawEnd, occurrence.startAt = some rawStart ∧ occurrence.endAt = some rawEnd ∧
          item.start = max rawStart dayStart ∧ item.finish = min rawEnd (dayStart + dayMs) ∧
            item.start < item.finish := by
  obtain ⟨allDay, startAt, endAt, fields⟩ := occurrence
  obtain ⟨itsOccurrence, start, finish⟩ := item
  unfold timedLayoutInput
  cases allDay with
  | true => simp
  | false =>
    cases startAt with
    | none => simp
    | some rawStart =>
      cases endAt with
      | none => simp
      | some rawEnd =>
        dsimp only [Option.elim_some]
        split
        · rename_i empty
          refine iff_of_false (by simp) fun ⟨_, _, _, _, isStart, isEnd, one, two, less⟩ => ?_
          obtain rfl := Option.some.inj isStart
          obtain rfl := Option.some.inj isEnd
          rw [one, two] at less
          exact absurd less (not_lt.mpr empty)
        · rename_i nonempty
          constructor
          · intro same
            cases same
            exact ⟨rfl, rfl, rawStart, rawEnd, rfl, rfl, rfl, rfl, not_le.mp nonempty⟩
          · rintro ⟨rfl, _, _, _, isStart, isEnd, rfl, rfl, _⟩
            obtain rfl := Option.some.inj isStart
            obtain rfl := Option.some.inj isEnd
            rfl

section Items

theorem mem_timedItems {dayStart : Option Int} : item ∈ timedItems dayStart occurrences ↔
    ∃ occurrence ∈ occurrences, timedLayoutInput dayStart occurrence = some item := by
  rw [timedItems, (List.mergeSort_perm _ _).mem_iff, List.mem_filterMap]

theorem timedItems_sorted (dayStart : Option Int) :
    (timedItems dayStart occurrences).Pairwise fun left right => left.start ≤ right.start := by
  have sorted : (timedItems dayStart occurrences).Pairwise fun left right =>
      inputLe left right = true :=
    List.pairwise_mergeSort (fun first second third => by simp [inputLe]; omega)
      (fun first second => by simp [inputLe]; omega) _
  exact sorted.imp fun before => by
    simp [inputLe] at before
    omega

theorem filterMap_occurrence (dayStart : Int) (occurrences : List (RpcCalendarOccurrence ρ)) :
    (occurrences.filterMap (timedLayoutInput (some dayStart))).map TimedLayoutInput.occurrence =
      occurrences.filter fun occurrence => (timedLayoutInput (some dayStart) occurrence).isSome := by
  induction occurrences with
  | nil => rfl
  | cons occurrence rest ih =>
    rw [List.filterMap_cons, List.filter_cons]
    cases made : timedLayoutInput (some dayStart) occurrence with
    | none => exact ih
    | some item =>
      rw [List.map_cons, ih, (timedLayoutInput_iff.mp made).1]
      rfl

theorem timedItems_occurrence (dayStart : Int) :
    ((timedItems (some dayStart) occurrences).map TimedLayoutInput.occurrence).Perm
      (occurrences.filter fun occurrence =>
        (timedLayoutInput (some dayStart) occurrence).isSome) := by
  rw [← filterMap_occurrence]
  exact (List.mergeSort_perm _ _).map _

theorem item_times (member : item ∈ timedItems (some day.start) occurrences) :
    item.occurrence ∈ occurrences ∧ item.occurrence.allDay = false ∧
      ∃ rawStart rawEnd, item.occurrence.startAt = some rawStart ∧
        item.occurrence.endAt = some rawEnd ∧ item.start = max rawStart day.start ∧
          item.finish = min rawEnd (day.start + dayMs) ∧ item.start < item.finish := by
  obtain ⟨occurrence, isIn, made⟩ := mem_timedItems.mp member
  obtain ⟨rfl, times⟩ := timedLayoutInput_iff.mp made
  exact ⟨isIn, times⟩

theorem item_eq {other : TimedLayoutInput ρ}
    (isItem : item ∈ timedItems (some day.start) occurrences)
    (isOther : other ∈ timedItems (some day.start) occurrences)
    (same : other.occurrence = item.occurrence) : other = item := by
  obtain ⟨occurrence, _, made⟩ := mem_timedItems.mp isItem
  obtain ⟨otherOne, _, otherMade⟩ := mem_timedItems.mp isOther
  rw [(timedLayoutInput_iff.mp made).1, (timedLayoutInput_iff.mp otherMade).1] at same
  rw [same] at otherMade
  exact Option.some.inj (otherMade.symm.trans made)

theorem runsAt_times {time rawStart rawEnd : Int} (timed : occurrence.allDay = false)
    (isStart : occurrence.startAt = some rawStart) (isEnd : occurrence.endAt = some rawEnd) :
    occurrence.runsAt time = true ↔ rawStart ≤ time ∧ time < rawEnd := by
  rw [RpcCalendarOccurrence.runsAt, timed, isStart, isEnd]
  simp

theorem isSome_iff {dayStart : Int} : (timedLayoutInput (some dayStart) occurrence).isSome = true ↔
    ∃ time, dayStart ≤ time ∧ time < dayStart + dayMs ∧ occurrence.runsAt time = true := by
  rw [Option.isSome_iff_exists]
  constructor
  · rintro ⟨item, made⟩
    obtain ⟨rfl, timed, rawStart, rawEnd, isStart, isEnd, start, finish, less⟩ :=
      timedLayoutInput_iff.mp made
    refine ⟨item.start, ?_, ?_, (runsAt_times timed isStart isEnd).mpr ?_⟩ <;> omega
  · rintro ⟨time, after, before, runs⟩
    obtain ⟨timed, rawStart, rawEnd, isStart, isEnd, started, unfinished⟩ := runsAt_iff.mp runs
    refine ⟨⟨occurrence, max rawStart dayStart, min rawEnd (dayStart + dayMs)⟩,
      timedLayoutInput_iff.mpr ⟨rfl, timed, rawStart, rawEnd, isStart, isEnd, rfl, rfl, ?_⟩⟩
    dsimp only
    omega

end Items

theorem outside_iff :
    (∀ occurrence ∈ occurrences, ∀ rawStart rawEnd, occurrence.allDay = false →
      occurrence.startAt = some rawStart → occurrence.endAt = some rawEnd → rawStart < rawEnd →
        ¬(min day.finish (day.start + dayMs) ≤ rawStart ∧
          rawStart < max day.finish (day.start + dayMs))) ↔
      ∀ occurrence ∈ occurrences, OverlapsDay day occurrence ↔
        (timedLayoutInput (some day.start) occurrence).isSome = true := by
  have positive := day.positive
  have isDay : dayMs = 86400000 := rfl
  refine forall_congr' fun occurrence => forall_congr' fun _ => ?_
  rw [isSome_iff]
  constructor
  · intro outside
    constructor
    · rintro ⟨time, ⟨after, before⟩, runs⟩
      obtain ⟨timed, rawStart, rawEnd, isStart, isEnd, started, unfinished⟩ := runsAt_iff.mp runs
      have out := outside rawStart rawEnd timed isStart isEnd (by omega)
      refine ⟨max rawStart day.start, ?_, ?_, (runsAt_times timed isStart isEnd).mpr ?_⟩ <;> omega
    · rintro ⟨time, after, before, runs⟩
      obtain ⟨timed, rawStart, rawEnd, isStart, isEnd, started, unfinished⟩ := runsAt_iff.mp runs
      have out := outside rawStart rawEnd timed isStart isEnd (by omega)
      refine ⟨max rawStart day.start, ⟨?_, ?_⟩, (runsAt_times timed isStart isEnd).mpr ?_⟩ <;> omega
  · intro same rawStart rawEnd timed isStart isEnd less between
    rcases le_total day.finish (day.start + dayMs) with shorter | longer
    · have short := same.mpr ⟨rawStart, by omega, by omega,
        (runsAt_times timed isStart isEnd).mpr ⟨le_refl _, less⟩⟩
      obtain ⟨time, ⟨_, before⟩, runs⟩ := short
      have started := ((runsAt_times timed isStart isEnd).mp runs).1
      omega
    · have long := same.mp ⟨rawStart, ⟨by omega, by omega⟩,
        (runsAt_times timed isStart isEnd).mpr ⟨le_refl _, less⟩⟩
      obtain ⟨time, _, before, runs⟩ := long
      have started := ((runsAt_times timed isStart isEnd).mp runs).1
      omega

section Groups

def groups (day : LocalDay) (occurrences : List (RpcCalendarOccurrence ρ)) :
    List (List (TimedLayoutInput ρ)) :=
  cut TimedLayoutInput.start TimedLayoutInput.finish 0 [] 0
    (timedItems (some day.start) occurrences)

theorem foldl_addItem (items : List (TimedLayoutInput ρ)) (state : LayoutState ρ) :
    (items.foldl (addItem minutesOfDay) state).layouts ++
        flushCluster minutesOfDay (items.foldl (addItem minutesOfDay) state).cluster =
      state.layouts ++ (cut TimedLayoutInput.start TimedLayoutInput.finish 0 state.cluster
        state.clusterEnd items).flatMap (flushCluster minutesOfDay) := by
  induction items generalizing state with
  | nil =>
    obtain ⟨layouts, cluster, clusterEnd⟩ := state
    cases cluster with
    | nil => rfl
    | cons first rest => simp [cut]
  | cons item rest ih =>
    rw [List.foldl_cons, ih, cut, addItem]
    split
    · rw [List.flatMap_cons, List.append_assoc]
      rfl
    · rfl

theorem layout_eq : layoutTimedOccurrences minutesOfDay occurrences (some day.start) =
    (groups day occurrences).flatMap (flushCluster minutesOfDay) :=
  foldl_addItem _ _

theorem flatten_groups :
    (groups day occurrences).flatten = timedItems (some day.start) occurrences :=
  flatten_cut _ _ _

theorem flushCluster_occurrence (cluster : List (TimedLayoutInput ρ)) :
    (flushCluster minutesOfDay cluster).map TimedOccurrenceLayout.occurrence =
      cluster.map TimedLayoutInput.occurrence := by
  conv_rhs =>
    rw [← @map_assign _ _ _ TimedLayoutInput.start TimedLayoutInput.finish cluster []]
  rw [flushCluster, List.map_map, List.map_map]
  rfl

theorem layout_occurrence :
    (layoutTimedOccurrences minutesOfDay occurrences (some day.start)).map
        TimedOccurrenceLayout.occurrence =
      (timedItems (some day.start) occurrences).map TimedLayoutInput.occurrence := by
  rw [layout_eq, ← flatten_groups]
  induction groups day occurrences with
  | nil => rfl
  | cons group rest ih =>
    rw [List.flatMap_cons, List.map_append, flushCluster_occurrence, ih, List.flatten_cons,
      List.map_append]

theorem groups_apart : (groups day occurrences).Pairwise fun earlier later =>
    ∀ right ∈ later, 0 ≤ right.start ∧ ∀ left ∈ earlier, left.finish ≤ right.start :=
  cut_apart (le_refl _) (by simp) (timedItems_sorted _)

variable {group : List (TimedLayoutInput ρ)}

theorem mem_items_of_group (isGroup : group ∈ groups day occurrences) (member : item ∈ group) :
    item ∈ timedItems (some day.start) occurrences := by
  rw [← flatten_groups]
  exact List.mem_flatten.mpr ⟨group, isGroup, member⟩

theorem group_sorted (isGroup : group ∈ groups day occurrences) :
    group.Pairwise fun left right => left.start ≤ right.start := by
  refine (@timedItems_sorted _ occurrences (some day.start)).sublist ?_
  rw [← flatten_groups]
  exact List.sublist_flatten_of_mem isGroup

theorem item_positive (member : item ∈ timedItems (some day.start) occurrences) :
    item.start < item.finish := by
  obtain ⟨_, _, _, _, _, _, _, _, positive⟩ := item_times member
  exact positive

theorem group_apart (isGroup : group ∈ groups day occurrences) :
    Apart TimedLayoutInput.start TimedLayoutInput.finish
        (assign TimedLayoutInput.start TimedLayoutInput.finish [] group) ∧
      ∀ new ∈ assign TimedLayoutInput.start TimedLayoutInput.finish [] group, new.2 + 1 ≤
        (assign TimedLayoutInput.start TimedLayoutInput.finish [] group).countP fun other =>
          covers TimedLayoutInput.start TimedLayoutInput.finish new.1.start other.1 :=
  @assign_apart _ _ _ TimedLayoutInput.start TimedLayoutInput.finish group [] []
    (fun _ member => item_positive (mem_items_of_group isGroup member)) (group_sorted isGroup)
    ⟨fun _ _ isThere => absurd isThere (by simp), by simp⟩ List.Pairwise.nil

end Groups

section Depth

variable {group : List (TimedLayoutInput ρ)} {left right : TimedLayoutInput ρ}

def StartsOutside (day : LocalDay) (occurrences : List (RpcCalendarOccurrence ρ)) : Prop :=
  ∀ occurrence ∈ occurrences, ∀ rawStart rawEnd, occurrence.allDay = false →
    occurrence.startAt = some rawStart → occurrence.endAt = some rawEnd → rawStart < rawEnd →
      ¬(min day.finish (day.start + dayMs) ≤ rawStart ∧
        rawStart < max day.finish (day.start + dayMs))

theorem overlap_iff (outside : StartsOutside day occurrences)
    (isLeft : left ∈ timedItems (some day.start) occurrences)
    (isRight : right ∈ timedItems (some day.start) occurrences) :
    Overlap TimedLayoutInput.start TimedLayoutInput.finish left right ↔
      OverlapWithin day left.occurrence right.occurrence := by
  have positive := day.positive
  have isDay : dayMs = 86400000 := rfl
  obtain ⟨inLeft, timed, one, two, isOne, isTwo, start, finish, less⟩ := item_times isLeft
  obtain ⟨inRight, alsoTimed, three, four, isThree, isFour, begin, ending, fewer⟩ :=
    item_times isRight
  have out := outside _ inLeft one two timed isOne isTwo (by omega)
  have alsoOut := outside _ inRight three four alsoTimed isThree isFour (by omega)
  constructor
  · rintro ⟨before, after⟩
    refine ⟨max left.start right.start, ⟨?_, ?_⟩, (runsAt_times timed isOne isTwo).mpr ?_,
      (runsAt_times alsoTimed isThree isFour).mpr ?_⟩ <;> omega
  · rintro ⟨time, ⟨after, before⟩, runs, alsoRuns⟩
    have times := (runsAt_times timed isOne isTwo).mp runs
    have alsoTimes := (runsAt_times alsoTimed isThree isFour).mp alsoRuns
    constructor <;> omega

theorem start_has (outside : StartsOutside day occurrences)
    (isLeft : left ∈ timedItems (some day.start) occurrences) : day.Has left.start := by
  have positive := day.positive
  have isDay : dayMs = 86400000 := rfl
  obtain ⟨inLeft, timed, one, two, isOne, isTwo, start, finish, less⟩ := item_times isLeft
  have out := outside _ inLeft one two timed isOne isTwo (by omega)
  constructor <;> omega

theorem runsAt_of_covers (isLeft : left ∈ timedItems (some day.start) occurrences) {time : Int}
    (inside : covers TimedLayoutInput.start TimedLayoutInput.finish time left = true) :
    left.occurrence.runsAt time = true := by
  obtain ⟨_, timed, one, two, isOne, isTwo, start, finish, _⟩ := item_times isLeft
  simp only [covers, Bool.and_eq_true, decide_eq_true_eq] at inside
  refine (runsAt_times timed isOne isTwo).mpr ?_
  omega

theorem overlapWithin_symm {left right : RpcCalendarOccurrence ρ}
    (overlap : OverlapWithin day left right) : OverlapWithin day right left := by
  obtain ⟨time, isIn, runs, alsoRuns⟩ := overlap
  exact ⟨time, isIn, alsoRuns, runs⟩

theorem together_symm {left right : RpcCalendarOccurrence ρ}
    (together : Together day occurrences left right) : Together day occurrences right left := by
  induction together with
  | refl => exact ReflTransGen.refl
  | tail _ last ih => exact ReflTransGen.head ⟨last.2.1, last.1, overlapWithin_symm last.2.2⟩ ih

theorem depth_congr {left right : RpcCalendarOccurrence ρ} {depth : Nat}
    (together : Together day occurrences left right)
    (isDepth : IsClusterDepth day occurrences left depth) :
    IsClusterDepth day occurrences right depth := by
  have same : Together day occurrences left = Together day occurrences right :=
    funext fun other => propext ⟨(together_symm together).trans, together.trans⟩
  unfold IsClusterDepth at isDepth ⊢
  rwa [same] at isDepth

theorem mem_group_of_overlap (isGroup : group ∈ groups day occurrences) (isLeft : left ∈ group)
    (isRight : right ∈ timedItems (some day.start) occurrences)
    (overlap : Overlap TimedLayoutInput.start TimedLayoutInput.finish left right) :
    right ∈ group := by
  rw [← flatten_groups] at isRight
  obtain ⟨other, isOther, member⟩ := List.mem_flatten.mp isRight
  obtain ⟨before, after, parts⟩ := List.append_of_mem isGroup
  have apart := @groups_apart _ day occurrences
  rw [parts, List.pairwise_append, List.pairwise_cons] at apart
  rw [parts, List.mem_append, List.mem_cons] at isOther
  rcases isOther with earlier | rfl | later
  · have ended := (apart.2.2 other earlier group List.mem_cons_self left isLeft).2 right member
    exact absurd overlap.1 (not_lt.mpr ended)
  · exact member
  · have ended := (apart.2.1.1 other later right member).2 left isLeft
    exact absurd overlap.2 (not_lt.mpr ended)

theorem item_of_overlaps (sameDay : ∀ occurrence ∈ occurrences, OverlapsDay day occurrence ↔
      (timedLayoutInput (some day.start) occurrence).isSome = true)
    (member : occurrence ∈ occurrences) (overlaps : OverlapsDay day occurrence) :
    ∃ item ∈ timedItems (some day.start) occurrences, item.occurrence = occurrence := by
  obtain ⟨item, made⟩ := Option.isSome_iff_exists.mp ((sameDay occurrence member).mp overlaps)
  exact ⟨item, mem_timedItems.mpr ⟨occurrence, member, made⟩, (timedLayoutInput_iff.mp made).1⟩

theorem mem_group_of_together (outside : StartsOutside day occurrences)
    (isGroup : group ∈ groups day occurrences) (isLeft : left ∈ group)
    (together : Together day occurrences left.occurrence occurrence) :
    ∃ right ∈ group, right.occurrence = occurrence := by
  induction together with
  | refl => exact ⟨left, isLeft, rfl⟩
  | tail _ last ih =>
    obtain ⟨middle, isMiddle, rfl⟩ := ih
    obtain ⟨_, member, overlap⟩ := last
    obtain ⟨time, isIn, _, runs⟩ := id overlap
    obtain ⟨right, isRight, rfl⟩ :=
      item_of_overlaps (outside_iff.mp outside) member ⟨time, isIn, runs⟩
    exact ⟨right, mem_group_of_overlap isGroup isMiddle isRight
      ((overlap_iff outside (mem_items_of_group isGroup isMiddle) isRight).mpr overlap), rfl⟩

open Classical in
theorem countP_cluster (outside : StartsOutside day occurrences)
    (isGroup : group ∈ groups day occurrences) (isLeft : left ∈ group) {time : Int}
    (isIn : day.Has time) :
    occurrences.countP (fun other =>
        decide (Together day occurrences left.occurrence other) && other.runsAt time) =
      group.countP fun item =>
        decide (Together day occurrences left.occurrence item.occurrence) &&
          item.occurrence.runsAt time := by
  have chosen (other : RpcCalendarOccurrence ρ) (member : other ∈ occurrences) :
      (decide (Together day occurrences left.occurrence other) && other.runsAt time) =
        ((decide (Together day occurrences left.occurrence other) && other.runsAt time) &&
          (timedLayoutInput (some day.start) other).isSome) := by
    cases runs : other.runsAt time with
    | false => simp
    | true =>
      rw [(outside_iff.mp outside other member).mp ⟨time, isIn, runs⟩, Bool.and_true,
        Bool.and_true]
  rw [List.countP_congr fun other member => by rw [chosen other member], ← List.countP_filter,
    ← (timedItems_occurrence day.start).countP_eq, List.countP_map, ← flatten_groups]
  obtain ⟨before, after, parts⟩ := List.append_of_mem isGroup
  have apart := @groups_apart _ day occurrences
  have others (item : TimedLayoutInput ρ)
      (isItem : item ∈ timedItems (some day.start) occurrences) (out : item ∉ group) :
      ¬Together day occurrences left.occurrence item.occurrence := by
    intro together
    obtain ⟨right, isRight, same⟩ := mem_group_of_together outside isGroup isLeft together
    exact out (item_eq isItem (mem_items_of_group isGroup isRight) same ▸ isRight)
  have none (rest : List (List (TimedLayoutInput ρ)))
      (inside : ∀ other ∈ rest, other ∈ groups day occurrences)
      (disjoint : ∀ other ∈ rest, ∀ item ∈ other, item ∉ group) :
      rest.flatten.countP ((fun other => decide (Together day occurrences left.occurrence other) &&
        other.runsAt time) ∘ TimedLayoutInput.occurrence) = 0 := by
    refine List.countP_eq_zero.mpr fun item member => ?_
    obtain ⟨other, isOther, isItem⟩ := List.mem_flatten.mp member
    have notTogether := others item (mem_items_of_group (inside other isOther) isItem)
      (disjoint other isOther item isItem)
    simp [notTogether]
  rw [parts, List.pairwise_append, List.pairwise_cons] at apart
  have positive (item : TimedLayoutInput ρ) (member : item ∈ group) :=
    item_positive (mem_items_of_group isGroup member)
  rw [parts, List.flatten_append, List.flatten_cons, List.countP_append, List.countP_append,
    none before, none after, Nat.zero_add, Nat.add_zero]
  · rfl
  · exact fun other member => parts ▸ List.mem_append_right _ (List.mem_cons_of_mem _ member)
  · intro other isOther item isItem member
    have ended := (apart.2.1.1 other isOther item isItem).2 item member
    exact absurd (positive item member) (not_lt.mpr ended)
  · exact fun other member => parts ▸ List.mem_append_left _ member
  · intro other isOther item isItem member
    have ended := (apart.2.2 other isOther group List.mem_cons_self item member).2 item isItem
    exact absurd (positive item member) (not_lt.mpr ended)

def groupWidth (group : List (TimedLayoutInput ρ)) : Nat :=
  width (assign TimedLayoutInput.start TimedLayoutInput.finish [] group)

theorem countP_assign (group : List (TimedLayoutInput ρ)) (chosen : TimedLayoutInput ρ → Bool) :
    (assign TimedLayoutInput.start TimedLayoutInput.finish [] group).countP
        (fun placed => chosen placed.1) = group.countP chosen := by
  conv_rhs =>
    rw [← @map_assign _ _ _ TimedLayoutInput.start TimedLayoutInput.finish group [],
      List.countP_map]
  rfl

theorem together_of_overlap (outside : StartsOutside day occurrences)
    (isLeft : left ∈ timedItems (some day.start) occurrences)
    (isRight : right ∈ timedItems (some day.start) occurrences)
    (overlap : Overlap TimedLayoutInput.start TimedLayoutInput.finish left right) :
    Together day occurrences left.occurrence right.occurrence :=
  ReflTransGen.single ⟨(item_times isLeft).1, (item_times isRight).1,
    (overlap_iff outside isLeft isRight).mp overlap⟩

open Classical in
theorem exists_depth (outside : StartsOutside day occurrences)
    (isGroup : group ∈ groups day occurrences) :
    ∃ left ∈ group, IsClusterDepth day occurrences left.occurrence (groupWidth group) := by
  obtain ⟨apart, enough⟩ := group_apart isGroup
  have items {item : TimedLayoutInput ρ} (member : item ∈ group) :=
    mem_items_of_group isGroup member
  have inGroup {placed : TimedLayoutInput ρ × Nat}
      (member : placed ∈ assign TimedLayoutInput.start TimedLayoutInput.finish [] group) :
      placed.1 ∈ group := by
    rw [← @map_assign _ _ _ TimedLayoutInput.start TimedLayoutInput.finish group []]
    exact List.mem_map_of_mem member
  have nonempty : assign TimedLayoutInput.start TimedLayoutInput.finish [] group ≠ [] := by
    intro isNil
    refine cut_ne_nil isGroup ?_
    rw [← @map_assign _ _ _ TimedLayoutInput.start TimedLayoutInput.finish group [], isNil]
    rfl
  have most (time : Int) (left : TimedLayoutInput ρ) (isLeft : left ∈ group)
      (isIn : day.Has time) :
      occurrences.countP (fun other => decide (Together day occurrences left.occurrence other) &&
        other.runsAt time) ≤ groupWidth group := by
    rw [countP_cluster outside isGroup isLeft isIn, ← countP_assign]
    refine @countP_le_width _ _ _ TimedLayoutInput.start TimedLayoutInput.finish _ apart
      (fun item => decide (Together day occurrences left.occurrence item.occurrence) &&
        item.occurrence.runsAt time) fun one isOne two isTwo runs alsoRuns => ?_
    rw [Bool.and_eq_true] at runs alsoRuns
    exact (overlap_iff outside (items (inGroup isOne)) (items (inGroup isTwo))).mpr
      ⟨time, isIn, runs.2, alsoRuns.2⟩
  obtain ⟨placed, isPlaced, last⟩ := exists_width nonempty
  have isFirst := inGroup isPlaced
  refine ⟨placed.1, isFirst, ⟨placed.1.start, start_has outside (items isFirst), ?_⟩, ?_⟩
  · refine le_antisymm ?_ (most _ _ isFirst (start_has outside (items isFirst)))
    rw [countP_cluster outside isGroup isFirst (start_has outside (items isFirst)), groupWidth,
      ← last]
    refine Nat.le_trans (enough placed isPlaced) ?_
    rw [countP_assign]
    refine List.countP_mono_left fun item member inside => ?_
    have runs := runsAt_of_covers (items member) inside
    simp only [covers, Bool.and_eq_true, decide_eq_true_eq] at inside
    have overlap : Overlap TimedLayoutInput.start TimedLayoutInput.finish placed.1 item :=
      ⟨inside.2, lt_of_le_of_lt inside.1 (item_positive (items isFirst))⟩
    simp [runs, together_of_overlap outside (items isFirst) (items member) overlap]
  · rintro count ⟨time, isIn, rfl⟩
    exact most time _ isFirst isIn

end Depth

section Layout

variable {group : List (TimedLayoutInput ρ)}

theorem mem_layout {layout : TimedOccurrenceLayout ρ} :
    layout ∈ layoutTimedOccurrences minutesOfDay occurrences (some day.start) ↔
      ∃ group ∈ groups day occurrences, ∃ placed ∈
        assign TimedLayoutInput.start TimedLayoutInput.finish [] group,
          layout = { buildTimedLayout minutesOfDay placed.1 placed.2 with
            columnCount := groupWidth group } := by
  rw [layout_eq, List.mem_flatMap]
  refine exists_congr fun group => and_congr_right fun _ => ?_
  rw [flushCluster, List.mem_map]
  exact exists_congr fun placed => and_congr_right fun _ => eq_comm

theorem mem_group_of_assign {placed : TimedLayoutInput ρ × Nat}
    (member : placed ∈ assign TimedLayoutInput.start TimedLayoutInput.finish [] group) :
    placed.1 ∈ group := by
  rw [← @map_assign _ _ _ TimedLayoutInput.start TimedLayoutInput.finish group []]
  exact List.mem_map_of_mem member

theorem layout_apart (outside : StartsOutside day occurrences) :
    (layoutTimedOccurrences minutesOfDay occurrences (some day.start)).Pairwise fun left right =>
      OverlapWithin day left.occurrence right.occurrence → left.column ≠ right.column := by
  rw [layout_eq, List.pairwise_flatMap]
  constructor
  · intro group isGroup
    rw [flushCluster]
    refine List.pairwise_map.mpr ((group_apart isGroup).1.imp_of_mem ?_)
    intro left right isLeft isRight different overlap
    exact different ((overlap_iff outside (mem_items_of_group isGroup (mem_group_of_assign isLeft))
      (mem_items_of_group isGroup (mem_group_of_assign isRight))).mpr overlap)
  · refine groups_apart.imp_of_mem ?_
    intro earlier later isEarlier isLater apart left isLeft right isRight overlap
    obtain ⟨one, isOne, rfl⟩ := List.mem_map.mp isLeft
    obtain ⟨two, isTwo, rfl⟩ := List.mem_map.mp isRight
    have inOne := mem_group_of_assign isOne
    have inTwo := mem_group_of_assign isTwo
    have ended := (apart two.1 inTwo).2 one.1 inOne
    have overlaps := (overlap_iff outside (mem_items_of_group isEarlier inOne)
      (mem_items_of_group isLater inTwo)).mpr overlap
    exact absurd overlaps.2 (not_lt.mpr ended)

theorem group_linked (outside : StartsOutside day occurrences)
    (isGroup : group ∈ groups day occurrences) :
    Linked TimedLayoutInput.start 0
      (fun left right => Together day occurrences left.occurrence right.occurrence) group := by
  refine cut_linked (fun left isLeft right isRight => together_of_overlap outside isLeft isRight)
    (fun item member => item_positive member) (timedItems_sorted _) (Or.inl (le_refl _)) ?_ group
    isGroup
  exact fun item member => absurd member List.not_mem_nil

theorem root_together {left right : TimedLayoutInput ρ}
    (path : ReflTransGen (fun left right : TimedLayoutInput ρ =>
      Together day occurrences left.occurrence right.occurrence) left right) :
    Together day occurrences left.occurrence right.occurrence := by
  induction path with
  | refl => exact ReflTransGen.refl
  | tail _ last ih => exact ih.trans last

theorem depth_of_fits (fits : LayoutFits day occurrences) (isGroup : group ∈ groups day occurrences)
    {item : TimedLayoutInput ρ} (member : item ∈ group) :
    IsClusterDepth day occurrences item.occurrence (groupWidth group) := by
  have outside : StartsOutside day occurrences := fits.outside
  obtain ⟨widest, isWidest, isDepth⟩ := exists_depth outside isGroup
  obtain ⟨root, isRoot, path, kind⟩ := group_linked outside isGroup item member
  obtain ⟨other, isOther, otherPath, otherKind⟩ :=
    group_linked outside isGroup widest isWidest
  have toRoot := root_together path
  have toOther := root_together otherPath
  have atOther := depth_congr toOther isDepth
  refine depth_congr (together_symm toRoot) ?_
  by_cases early : ∃ first, group.head? = some first ∧ first.start < 0
  · have below {start : TimedLayoutInput ρ}
        (kind : start.start < 0 ∨ group.head? = some start) : start.start < 0 := by
      rcases kind with isBelow | isHead
      · exact isBelow
      · obtain ⟨first, isFirst, isBelow⟩ := early
        rw [isFirst] at isHead
        exact Option.some.inj isHead ▸ isBelow
    obtain ⟨depth, same⟩ := fits.sameDepth
    have known {start : TimedLayoutInput ρ} (inGroup : start ∈ group) (isBelow : start.start < 0) :
        IsClusterDepth day occurrences start.occurrence depth := by
      have isItem := mem_items_of_group isGroup inGroup
      obtain ⟨isIn, timed, rawStart, rawEnd, isStart, isEnd, begins, ends, less⟩ := item_times isItem
      refine same _ isIn ⟨start.start, start_has outside isItem, ?_⟩ (by omega)
        ⟨rawStart, by omega, isStart⟩
      refine (runsAt_times timed isStart isEnd).mpr ?_
      omega
    have equal := (known isOther (below otherKind)).unique atOther
    exact equal ▸ known isRoot (below kind)
  · have late {start : TimedLayoutInput ρ} (inGroup : start ∈ group)
        (kind : start.start < 0 ∨ group.head? = some start) : group.head? = some start := by
      rcases kind with isBelow | isHead
      · refine absurd ?_ early
        have sorted := group_sorted isGroup
        cases group with
        | nil => exact absurd inGroup List.not_mem_nil
        | cons first rest =>
          refine ⟨first, rfl, ?_⟩
          rcases List.mem_cons.mp inGroup with rfl | isLater
          · exact isBelow
          · exact lt_of_le_of_lt ((List.pairwise_cons.mp sorted).1 start isLater) isBelow
      · exact isHead
    have one := (late isRoot kind).symm.trans (late isOther otherKind)
    exact (congrArg TimedLayoutInput.occurrence (Option.some.inj one)).symm ▸ atOther

theorem sameDepth_of_laidOut (outside : StartsOutside day occurrences)
    (depths : ∀ layout ∈ layoutTimedOccurrences minutesOfDay occurrences (some day.start),
      IsClusterDepth day occurrences layout.occurrence layout.columnCount) :
    ∃ depth, ∀ occurrence ∈ occurrences, OverlapsDay day occurrence →
      day.start < 0 → (∃ rawStart < 0, occurrence.startAt = some rawStart) →
        IsClusterDepth day occurrences occurrence depth := by
  refine ⟨((groups day occurrences).head?.map groupWidth).getD 0, ?_⟩
  rintro occurrence member overlaps early ⟨rawStart, below, isStart⟩
  obtain ⟨item, isItem, rfl⟩ := item_of_overlaps (outside_iff.mp outside) member overlaps
  have isBelow : item.start < 0 := by
    obtain ⟨_, _, start, _, same, _, begins, _, _⟩ := item_times isItem
    obtain rfl := Option.some.inj (same.symm.trans isStart)
    omega
  have inItems := isItem
  rw [← flatten_groups] at isItem
  obtain ⟨group, isGroup, inGroup⟩ := List.mem_flatten.mp isItem
  have first : (groups day occurrences).head? = some group := by
    have apart := @groups_apart _ day occurrences
    cases parts : groups day occurrences with
    | nil => exact absurd (parts ▸ isGroup) List.not_mem_nil
    | cons head rest =>
      rw [parts, List.pairwise_cons] at apart
      rw [parts] at isGroup
      rcases List.mem_cons.mp isGroup with rfl | later
      · rfl
      · exact absurd isBelow (not_lt.mpr (apart.1 group later item inGroup).1)
  rw [first]
  rw [← @map_assign _ _ _ TimedLayoutInput.start TimedLayoutInput.finish group []] at inGroup
  obtain ⟨placed, isPlaced, rfl⟩ := List.mem_map.mp inGroup
  exact depths _ (mem_layout.mpr ⟨group, isGroup, placed, isPlaced, rfl⟩)

theorem outside_of_laidOut (laid : LaidOut day occurrences
    (layoutTimedOccurrences minutesOfDay occurrences (some day.start))) :
    StartsOutside day occurrences := by
  classical
  have once := laid.once
  rw [layout_occurrence] at once
  refine outside_iff.mpr fun occurrence member => ?_
  have same := ((timedItems_occurrence day.start).symm.trans once).mem_iff (a := occurrence)
  simp only [List.mem_filter, member, true_and, decide_eq_true_eq] at same
  exact same.symm

end Layout

/-- A day is laid out as it should be if and only if no occurrence starts between its end and `24`
hours, and the clusters that begin before the epoch have one depth. -/
theorem layoutTimedOccurrences_laidOut (minutesOfDay : Int → Nat) (day : LocalDay)
    (occurrences : List (RpcCalendarOccurrence ρ)) :
    LaidOut day occurrences
        (layoutTimedOccurrences minutesOfDay occurrences (some day.start)) ↔
      LayoutFits day occurrences := by
  classical
  constructor
  · intro laid
    have outside := outside_of_laidOut laid
    exact ⟨outside, sameDepth_of_laidOut outside laid.depth⟩
  · intro fits
    have outside : StartsOutside day occurrences := fits.outside
    refine ⟨?_, layout_apart outside, fun layout member => ?_, fun layout member => ?_⟩
    · rw [layout_occurrence]
      refine (timedItems_occurrence day.start).trans (List.Perm.of_eq (List.filter_congr fun occurrence member => ?_))
      rw [Bool.eq_iff_iff, decide_eq_true_eq]
      exact (outside_iff.mp outside occurrence member).symm
    · obtain ⟨group, _, placed, isPlaced, rfl⟩ := mem_layout.mp member
      exact lt_width isPlaced
    · obtain ⟨group, isGroup, placed, isPlaced, rfl⟩ := mem_layout.mp member
      exact depth_of_fits fits isGroup (mem_group_of_assign isPlaced)

/-- On a day of `25` hours, an occurrence in the last one is left out. -/
theorem layoutTimedOccurrences_laidOut_long :
    ¬ ∀ (minutesOfDay : Int → Nat) (day : LocalDay)
        (occurrences : List (RpcCalendarOccurrence Unit)),
      LaidOut day occurrences
        (layoutTimedOccurrences minutesOfDay occurrences (some day.start)) := by
  intro always
  have outside := outside_of_laidOut (always (fun _ => 0)
    ⟨1792879200000, 1792969200000, by decide⟩
    [⟨false, some 1792967400000, some 1792968300000, ()⟩])
  exact outside _ List.mem_cons_self 1792967400000 1792968300000 rfl rfl rfl (by decide) (by decide)

end Metidos.CalendarLayout
