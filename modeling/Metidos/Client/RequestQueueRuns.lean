import Mathlib.Data.List.Nodup
import Mathlib.Data.List.Perm.Basic
import Metidos.Client.RequestQueue
import Metidos.Library.Transition

/-!
The request queue over runs: the permits are counted right, none is free while a request waits, and
every request is settled once.
-/

namespace Metidos.Client.RequestQueue

namespace RpcRequestQueue

theorem granted_settle (state : RpcRequestQueue) (request : Nat) (settlement : Settlement) :
    (state.settle request settlement).granted =
      state.granted ++ if settlement = .granted then [request] else [] := by
  cases settlement <;> simp [granted, settle]

structure Sound (limit : Nat) (state : RpcRequestQueue) : Prop where
  bounded : state.activeCount ≤ limit
  counted : state.activeCount + state.released.length = state.granted.length
  ofGranted : ∀ request ∈ state.released, request ∈ state.granted
  releasedOnce : state.released.Nodup
  once : (state.settlements.map Prod.fst ++ state.queue.map QueuedRpcRequest.request).Perm
    (List.range state.requests)
  ordered : state.queue.Pairwise fun earlier later =>
    earlier.request < later.request ∧ earlier.sequence < later.sequence
  next : ∀ entry ∈ state.queue, entry.sequence < state.nextSequence
  listening : state.listeners = state.queue.filter fun entry => entry.signal.isSome

variable {limit : Nat} {state next : RpcRequestQueue} {entry : QueuedRpcRequest}

theorem sound_initial (limit : Nat) : Sound limit initial where
  bounded := Nat.zero_le _
  counted := rfl
  ofGranted := by simp [initial]
  releasedOnce := List.nodup_nil
  once := List.Perm.refl _
  ordered := List.Pairwise.nil
  next := by simp [initial]
  listening := rfl

theorem Sound.queue_nodup (sound : Sound limit state) : state.queue.Nodup :=
  sound.ordered.imp fun {earlier later} before same => by
    rw [same] at before
    omega

theorem Sound.settled_once (sound : Sound limit state) :
    (state.settlements.map Prod.fst ++ state.queue.map QueuedRpcRequest.request).Nodup :=
  sound.once.nodup_iff.mpr List.nodup_range

theorem Sound.granted_nodup (sound : Sound limit state) : state.granted.Nodup :=
  (List.nodup_append.mp sound.settled_once).1.sublist (List.filter_sublist.map _)

theorem Sound.request_le (sound : Sound limit state) {first second : QueuedRpcRequest}
    (isFirst : first ∈ state.queue) (isSecond : second ∈ state.queue)
    (sequence : first.sequence ≤ second.sequence) : first.request ≤ second.request := by
  by_contra larger
  have different : second ≠ first := fun same => larger (same ▸ Nat.le_refl _)
  obtain ⟨before, after, shape⟩ := List.append_of_mem isFirst
  have ordered := sound.ordered
  rw [shape] at ordered isSecond
  obtain ⟨_, inside, across⟩ := List.pairwise_append.mp ordered
  rcases List.mem_append.mp isSecond with earlier | later
  · exact absurd (across second earlier first List.mem_cons_self).2 (by omega)
  · rcases List.mem_cons.mp later with same | later
    · exact different same
    · exact larger (Nat.le_of_lt ((List.pairwise_cons.mp inside).1 second later).1)

theorem Sound.takeOut (sound : Sound limit state) (queued : entry ∈ state.queue)
    (error : AbortError) :
    Sound limit ((state.without entry).settle entry.request (.rejected error)) := by
  have sublist : (state.queue.erase entry).Sublist state.queue := List.erase_sublist
  refine
    { bounded := sound.bounded
      counted := ?_
      ofGranted := ?_
      releasedOnce := sound.releasedOnce
      once := ?_
      ordered := sound.ordered.sublist sublist
      next := fun other member => sound.next other (sublist.subset member)
      listening := ?_ }
  · rw [granted_settle, if_neg (by simp), List.append_nil]
    exact sound.counted
  · rw [granted_settle, if_neg (by simp), List.append_nil]
    exact sound.ofGranted
  · refine List.Perm.trans ?_ sound.once
    simp only [settle, without, List.map_append, List.append_assoc]
    exact List.Perm.append_left _
      ((List.perm_cons_erase queued).map QueuedRpcRequest.request).symm
  · change state.listeners.erase entry = _
    rw [sound.listening]
    exact List.erase_filter

theorem Sound.grant (sound : Sound limit state) (queued : entry ∈ state.queue)
    (free : state.activeCount < limit) :
    Sound limit ({ state.without entry with
      activeCount := state.activeCount + 1 }.settle entry.request .granted) := by
  have taken := sound.takeOut queued .abortError
  refine
    { bounded := free
      counted := ?_
      ofGranted := ?_
      releasedOnce := sound.releasedOnce
      once := ?_
      ordered := taken.ordered
      next := taken.next
      listening := taken.listening }
  · rw [granted_settle, if_pos rfl, List.length_append]
    have counted := sound.counted
    change state.activeCount + 1 + state.released.length = state.granted.length + 1
    omega
  · rw [granted_settle, if_pos rfl]
    exact fun request member => List.mem_append_left _ (sound.ofGranted request member)
  · simpa [settle, without] using taken.once

theorem eraseIdx_queue (sound : Sound limit state) {index : Nat}
    (isEntry : state.queue[index]? = some entry) :
    state.queue.eraseIdx index = state.queue.erase entry := by
  obtain ⟨below, rfl⟩ := List.getElem?_eq_some_iff.mp isEntry
  exact (List.Nodup.erase_getElem sound.queue_nodup _ below).symm

theorem drainLoop_succ (sound : Sound limit state) (free : state.activeCount < limit)
    (waiting : state.queue ≠ []) (rounds : Nat) :
    ∃ entry ∈ state.queue, (∀ other ∈ state.queue, beats other entry = false) ∧
      drainLoop limit (rounds + 1) state =
        match state.abortReason entry.signal with
        | some reason =>
          drainLoop limit rounds
            ((state.without entry).settle entry.request (.rejected (createAbortError reason)))
        | none =>
          drainLoop limit rounds
            ({ state.without entry with
              activeCount := state.activeCount + 1 }.settle entry.request .granted) := by
  obtain ⟨entry, isEntry, best⟩ := nextQueueIndex_best waiting
  refine ⟨entry, List.mem_of_getElem? isEntry, best, ?_⟩
  rw [drainLoop, if_pos free, isEntry]
  dsimp only
  rw [eraseIdx_queue sound isEntry]
  rfl

theorem drainLoop_stop {rounds : Nat} (stops : ¬state.activeCount < limit ∨ state.queue = []) :
    drainLoop limit rounds state = state := by
  cases rounds with
  | zero => rfl
  | succ rounds =>
    rw [drainLoop]
    split
    · rename_i free
      rw [stops.resolve_left (not_not_intro free), List.getElem?_nil]
    · rfl

theorem length_erase_lt (queued : entry ∈ state.queue) :
    (state.queue.erase entry).length + 1 = state.queue.length := by
  rw [List.length_erase_of_mem queued]
  have size := List.length_pos_of_mem queued
  omega

structure DrainedTo (limit : Nat) (state next : RpcRequestQueue) : Prop where
  sound : Sound limit next
  full : next.queue = [] ∨ next.activeCount = limit
  shorter : next.queue.length ≤ state.queue.length
  released : next.released = state.released
  aborted : next.aborted = state.aborted
  requests : next.requests = state.requests
  queued : ∀ entry ∈ next.queue, entry ∈ state.queue
  settlements : state.settlements <+: next.settlements

theorem drainLoop_drained (rounds : Nat) (sound : Sound limit state)
    (enough : state.queue.length ≤ rounds) :
    DrainedTo limit state (drainLoop limit rounds state) := by
  induction rounds generalizing state with
  | zero =>
    have empty : state.queue = [] := List.eq_nil_of_length_eq_zero (Nat.le_zero.mp enough)
    exact ⟨sound, Or.inl empty, Nat.le_refl _, rfl, rfl, rfl, fun _ => id, List.prefix_refl _⟩
  | succ rounds ih =>
    by_cases stops : ¬state.activeCount < limit ∨ state.queue = []
    · rw [drainLoop_stop stops]
      refine ⟨sound, ?_, Nat.le_refl _, rfl, rfl, rfl, fun _ => id, List.prefix_refl _⟩
      rcases stops with busy | empty
      · exact Or.inr (Nat.le_antisymm sound.bounded (Nat.le_of_not_lt busy))
      · exact Or.inl empty
    · obtain ⟨free, waiting⟩ := not_or.mp stops
      have free := Decidable.not_not.mp free
      obtain ⟨entry, queued, _, isRound⟩ := drainLoop_succ sound free waiting rounds
      have size := length_erase_lt queued
      have onward : ∀ middle : RpcRequestQueue, Sound limit middle →
          middle.queue = state.queue.erase entry → middle.released = state.released →
          middle.aborted = state.aborted → middle.requests = state.requests →
          state.settlements <+: middle.settlements →
          DrainedTo limit state (drainLoop limit rounds middle) := by
        intro middle soundMiddle isQueue isReleased isAborted isRequests grows
        have drained := ih soundMiddle (by rw [isQueue]; omega)
        refine ⟨drained.sound, drained.full, ?_, drained.released.trans isReleased,
          drained.aborted.trans isAborted, drained.requests.trans isRequests, ?_,
          grows.trans drained.settlements⟩
        · have shorter := drained.shorter
          rw [isQueue] at shorter
          omega
        · intro other member
          have left := drained.queued other member
          rw [isQueue] at left
          exact List.mem_of_mem_erase left
      rw [isRound]
      cases state.abortReason entry.signal with
      | some reason =>
        exact onward _ (sound.takeOut queued _) rfl rfl rfl rfl (List.prefix_append _ _)
      | none =>
        exact onward _ (sound.grant queued free) rfl rfl rfl rfl (List.prefix_append _ _)

theorem drainLoop_shorter {rounds : Nat} (sound : Sound limit state)
    (free : state.activeCount < limit) (waiting : state.queue ≠ [])
    (enough : state.queue.length ≤ rounds) :
    (drainLoop limit rounds state).queue.length < state.queue.length := by
  cases rounds with
  | zero => exact absurd (List.eq_nil_of_length_eq_zero (Nat.le_zero.mp enough)) waiting
  | succ rounds =>
    obtain ⟨entry, queued, _, isRound⟩ := drainLoop_succ sound free waiting rounds
    have size := length_erase_lt queued
    have onward : ∀ middle : RpcRequestQueue, Sound limit middle →
        middle.queue = state.queue.erase entry →
        (drainLoop limit rounds middle).queue.length < state.queue.length := by
      intro middle soundMiddle isQueue
      have shorter := (drainLoop_drained rounds soundMiddle (by rw [isQueue]; omega)).shorter
      rw [isQueue] at shorter
      omega
    rw [isRound]
    cases state.abortReason entry.signal with
    | some reason => exact onward _ (sound.takeOut queued _) rfl
    | none => exact onward _ (sound.grant queued free) rfl

/-- One freed permit goes to the first of the requests that are not aborted. -/
structure GrantsFirst (state next : RpcRequestQueue) (chosen : Option QueuedRpcRequest) : Prop where
  granted : next.granted = state.granted ++ (chosen.map QueuedRpcRequest.request).toList
  first : ∀ entry ∈ chosen, state.IsFirst entry
  none : chosen = none → ∀ entry ∈ state.queue, state.abortReason entry.signal ≠ none

theorem drainLoop_grantsFirst (rounds : Nat) (sound : Sound limit state)
    (enough : state.queue.length ≤ rounds)
    (free : state.queue ≠ [] → state.activeCount + 1 = limit) :
    ∃ chosen, GrantsFirst state (drainLoop limit rounds state) chosen := by
  induction rounds generalizing state with
  | zero =>
    have empty : state.queue = [] := List.eq_nil_of_length_eq_zero (Nat.le_zero.mp enough)
    exact ⟨none, (List.append_nil _).symm, by simp, by simp [empty]⟩
  | succ rounds ih =>
    by_cases empty : state.queue = []
    · rw [drainLoop_stop (Or.inr empty)]
      exact ⟨none, (List.append_nil _).symm, by simp, by simp [empty]⟩
    · have free := free empty
      obtain ⟨entry, queued, best, isRound⟩ := drainLoop_succ sound (by omega) empty rounds
      have size := length_erase_lt queued
      rw [isRound]
      cases isReason : state.abortReason entry.signal with
      | some reason =>
        have soundNext := sound.takeOut queued (createAbortError reason)
        obtain ⟨chosen, isGranted, first, none⟩ := ih soundNext
          (by change (state.queue.erase entry).length ≤ rounds; omega) fun _ => free
        rw [granted_settle, if_neg (by simp), List.append_nil] at isGranted
        have stays : ∀ other ∈ state.queue, state.abortReason other.signal = .none →
            other ∈ state.queue.erase entry := by
          intro other member live
          refine (List.mem_erase_of_ne fun same => ?_).mpr member
          rw [same, isReason] at live
          exact absurd live (by simp)
        refine ⟨chosen, isGranted, fun found isChosen => ?_, fun isNone other member live =>
          none isNone other (stays other member live) live⟩
        obtain ⟨isQueued, live, beatsAll⟩ := first found isChosen
        exact ⟨List.mem_of_mem_erase isQueued, live, fun other member isLive =>
          beatsAll other (stays other member isLive) isLive⟩
      | none =>
        dsimp only
        rw [drainLoop_stop (Or.inl (by change ¬state.activeCount + 1 < limit; omega))]
        refine ⟨some entry, ?_, fun found isChosen => ?_, by simp⟩
        · rw [granted_settle, if_pos rfl]
          rfl
        · obtain rfl := Option.some.inj isChosen
          refine ⟨queued, isReason, fun other member _ => ?_⟩
          have lower := best other member
          simp only [beats, Bool.or_eq_false_iff, Bool.and_eq_false_iff,
            decide_eq_false_iff_not] at lower
          rcases Nat.lt_or_ge other.priority.rank entry.priority.rank with below | above
          · exact Or.inl below
          · have rank : other.priority.rank = entry.priority.rank := by omega
            exact Or.inr ⟨rank, sound.request_le queued member (by omega)⟩

structure Steady (limit : Nat) (state : RpcRequestQueue) : Prop where
  sound : Sound limit state
  full : state.queue ≠ [] → state.activeCount = limit

theorem Sound.known (sound : Sound limit state) : ∀ entry ∈ state.queue,
    entry.request < state.requests := fun _ member =>
  List.mem_range.mp (sound.once.mem_iff.mp (List.mem_append_right _ (List.mem_map_of_mem member)))

theorem Sound.settled_or_queued (sound : Sound limit state) {request : Nat}
    (made : request < state.requests) :
    state.Settled request ∨ request ∈ state.queue.map QueuedRpcRequest.request :=
  List.mem_append.mp (sound.once.mem_iff.mpr (List.mem_range.mpr made))

theorem Sound.not_settled (sound : Sound limit state) (queued : entry ∈ state.queue) :
    ¬state.Settled entry.request := fun settled =>
  (List.nodup_append.mp sound.settled_once).2.2 _ settled _ (List.mem_map_of_mem queued) rfl

theorem Sound.settle_new (sound : Sound limit state) (settlement : Settlement)
    (bounded : state.activeCount + (if settlement = Settlement.granted then 1 else 0) ≤ limit) :
    Sound limit ({ state with
      requests := state.requests + 1
      activeCount := state.activeCount + if settlement = Settlement.granted then 1 else 0 }.settle
        state.requests settlement) := by
  refine
    { bounded
      counted := ?_
      ofGranted := ?_
      releasedOnce := sound.releasedOnce
      once := ?_
      ordered := sound.ordered
      next := sound.next
      listening := sound.listening }
  · have counted := sound.counted
    rw [granted_settle, List.length_append]
    cases settlement with
    | granted =>
      change state.activeCount + 1 + state.released.length = state.granted.length + 1
      omega
    | rejected error => exact counted
  · intro request member
    rw [granted_settle]
    exact List.mem_append_left _ (sound.ofGranted request member)
  · simp only [settle, List.map_append, List.map_singleton, List.append_assoc]
    rw [List.range_succ]
    refine List.Perm.trans ?_ (sound.once.append_right [state.requests])
    rw [List.append_assoc]
    exact List.Perm.append_left _ List.perm_append_comm

theorem Sound.enqueue (sound : Sound limit state) (priority : RpcRequestPriority)
    (signal : Option Nat) (isEntry : entry =
      { request := state.requests, sequence := state.nextSequence, priority, signal }) :
    Sound limit { state with
      requests := state.requests + 1
      nextSequence := state.nextSequence + 1
      queue := state.queue ++ [entry]
      listeners := if signal.isSome then state.listeners ++ [entry] else state.listeners } := by
  subst isEntry
  refine
    { bounded := sound.bounded
      counted := sound.counted
      ofGranted := sound.ofGranted
      releasedOnce := sound.releasedOnce
      once := ?_
      ordered := ?_
      next := ?_
      listening := ?_ }
  · simp only [List.map_append, List.map_singleton]
    rw [List.range_succ, ← List.append_assoc]
    exact sound.once.append_right _
  · refine List.pairwise_append.mpr ⟨sound.ordered, List.pairwise_singleton _ _, ?_⟩
    intro earlier member later isLast
    rw [List.mem_singleton.mp isLast]
    exact ⟨sound.known earlier member, sound.next earlier member⟩
  · intro other member
    rcases List.mem_append.mp member with earlier | isLast
    · exact Nat.lt_succ_of_lt (sound.next other earlier)
    · rw [List.mem_singleton.mp isLast]
      exact Nat.lt_succ_self _
  · rw [List.filter_append, sound.listening]
    cases signal <;> simp

theorem acquire_steady (steady : Steady limit state) (priority : RpcRequestPriority)
    (signal : Option Nat) : Steady limit (state.acquire limit priority signal) := by
  unfold acquire
  dsimp only
  split
  · rename_i reason _
    exact ⟨steady.sound.settle_new (.rejected (createAbortError reason)) steady.sound.bounded,
      steady.full⟩
  · split
    · rename_i free
      refine ⟨steady.sound.settle_new .granted free, fun waiting => ?_⟩
      have full := steady.full waiting
      change state.activeCount < limit at free
      omega
    · rename_i busy
      refine ⟨steady.sound.enqueue priority signal rfl, fun _ => ?_⟩
      exact Nat.le_antisymm steady.sound.bounded (Nat.le_of_not_lt busy)

theorem Sound.free (sound : Sound limit state) {request : Nat}
    (isGranted : request ∈ state.granted) (unreleased : request ∉ state.released) :
    0 < state.activeCount ∧ Sound limit { state with
      released := request :: state.released
      activeCount := state.activeCount - 1 } := by
  have counted := sound.counted
  have releasedOnce : (request :: state.released).Nodup :=
    List.nodup_cons.mpr ⟨unreleased, sound.releasedOnce⟩
  have ofGranted : ∀ other ∈ request :: state.released, other ∈ state.granted := by
    intro other member
    rcases List.mem_cons.mp member with rfl | member
    · exact isGranted
    · exact sound.ofGranted other member
  have fewer := (List.subperm_of_subset releasedOnce ofGranted).length_le
  rw [List.length_cons] at fewer
  refine ⟨by omega, ?_⟩
  exact
    { bounded := Nat.le_trans (Nat.sub_le _ _) sound.bounded
      counted := by
        change state.activeCount - 1 + (state.released.length + 1) = state.granted.length
        omega
      ofGranted
      releasedOnce
      once := sound.once
      ordered := sound.ordered
      next := sound.next
      listening := sound.listening }

theorem release_drained (sound : Sound limit state) {request : Nat}
    (isGranted : request ∈ state.granted) (unreleased : request ∉ state.released) :
    DrainedTo limit { state with
      released := request :: state.released
      activeCount := state.activeCount - 1 } (state.release limit request) := by
  rw [release, if_neg unreleased, drain]
  exact drainLoop_drained _ (sound.free isGranted unreleased).2 (Nat.le_refl _)

theorem mem_granted_iff {request : Nat} :
    request ∈ state.granted ↔ (request, .granted) ∈ state.settlements := by
  simp only [granted, List.mem_map, List.mem_filter, decide_eq_true_eq]
  constructor
  · rintro ⟨⟨_, _⟩, ⟨member, rfl⟩, rfl⟩
    exact member
  · exact fun member => ⟨_, ⟨member, rfl⟩, rfl⟩

inductive Moves (limit : Nat) (state next : RpcRequestQueue) : Prop
  | same (isSame : next = state)
  | acquired (priority : RpcRequestPriority) (signal : Option Nat)
      (isNext : next = state.acquire limit priority signal)
  | released (request : Nat) (isGranted : request ∈ state.granted)
      (unreleased : request ∉ state.released) (isNext : next = state.release limit request)
  | aborted (signal : Nat) (reason : AbortReason) (fresh : state.aborted.lookup signal = none)
      (isNext : next = { state with aborted := (signal, reason) :: state.aborted })
  | notified (entry : QueuedRpcRequest) (reason : AbortReason) (listens : entry ∈ state.listeners)
      (isReason : state.abortReason entry.signal = some reason)
      (isNext : next = state.handleAbort entry reason)

theorem step_moves {event : Event} (stepped : step limit state event = some next) :
    Moves limit state next := by
  cases event with
  | acquire priority signal => exact .acquired priority signal (Option.some.inj stepped).symm
  | release request =>
    rw [step] at stepped
    split at stepped
    · rename_i isGranted
      have isNext := (Option.some.inj stepped).symm
      by_cases repeated : request ∈ state.released
      · rw [release, if_pos repeated] at isNext
        exact .same isNext
      · exact .released request (mem_granted_iff.mpr isGranted) repeated isNext
    · exact absurd stepped (by simp)
  | abort signal reason =>
    rw [step] at stepped
    split at stepped
    · exact .same (Option.some.inj stepped).symm
    · rename_i fresh
      exact .aborted signal reason (by simpa only [Option.not_isSome_iff_eq_none] using fresh)
        (Option.some.inj stepped).symm
  | notify entry =>
    rw [step] at stepped
    split at stepped
    · rename_i listens
      obtain ⟨reason, isReason, isNext⟩ := Option.map_eq_some_iff.mp stepped
      exact .notified entry reason listens isReason isNext.symm
    · exact absurd stepped (by simp)

theorem Sound.listener (sound : Sound limit state) :
    entry ∈ state.listeners ↔ entry ∈ state.queue ∧ entry.signal.isSome = true := by
  rw [sound.listening, List.mem_filter]

theorem Moves.steady (moves : Moves limit state next) (steady : Steady limit state) :
    Steady limit next := by
  cases moves with
  | same isSame => exact isSame ▸ steady
  | acquired priority signal isNext => exact isNext ▸ acquire_steady steady priority signal
  | released request isGranted unreleased isNext =>
    rw [isNext]
    have drained := release_drained steady.sound isGranted unreleased
    exact ⟨drained.sound, fun waiting => drained.full.resolve_left waiting⟩
  | aborted signal reason fresh isNext =>
    rw [isNext]
    obtain ⟨bounded, counted, ofGranted, releasedOnce, once, ordered, later, listening⟩ :=
      steady.sound
    exact ⟨⟨bounded, counted, ofGranted, releasedOnce, once, ordered, later, listening⟩,
      steady.full⟩
  | notified entry reason listens isReason isNext =>
    rw [isNext]
    have queued := (steady.sound.listener.mp listens).1
    exact ⟨steady.sound.takeOut queued _, fun _ => steady.full (List.ne_nil_of_mem queued)⟩

theorem release_grantsFirst (steady : Steady limit state) {request : Nat}
    (isGranted : request ∈ state.granted) (unreleased : request ∉ state.released) :
    ∃ chosen, GrantsFirst state (state.release limit request) chosen := by
  obtain ⟨some, sound⟩ := steady.sound.free isGranted unreleased
  rw [release, if_neg unreleased, drain]
  have onePermit : state.queue ≠ [] → state.activeCount - 1 + 1 = limit := fun waiting => by
    have full := steady.full waiting
    omega
  obtain ⟨chosen, isGranted, first, none⟩ :=
    drainLoop_grantsFirst _ sound (Nat.le_refl _) onePermit
  refine ⟨chosen, isGranted, fun entry isChosen => ?_, none⟩
  obtain ⟨queued, live, best⟩ := first entry isChosen
  exact ⟨queued, live, best⟩

structure Kept (state next : RpcRequestQueue) : Prop where
  settlements : state.settlements <+: next.settlements
  requests : state.requests ≤ next.requests
  released : state.released.length ≤ next.released.length
  abortReason : ∀ signal, state.abortReason signal ≠ none → next.abortReason signal ≠ none
  shorter : state.queue ≠ [] → next.released.length + next.queue.length + state.requests ≤
    state.released.length + state.queue.length + next.requests
  queued : ∀ entry ∈ next.queue, entry ∈ state.queue ∨ entry.request = state.requests
  granted : ∀ request ∈ next.granted, request ∈ state.granted ∨ request = state.requests ∨
    ∃ entry, state.IsFirst entry ∧ entry.request = request

theorem Moves.kept (moves : Moves limit state next) (steady : Steady limit state) :
    Kept state next := by
  cases moves with
  | same isSame =>
    subst isSame
    exact ⟨List.prefix_refl _, Nat.le_refl _, Nat.le_refl _, fun _ => id, fun _ => Nat.le_refl _,
      fun _ => Or.inl, fun _ => Or.inl⟩
  | acquired priority signal isNext =>
    subst isNext
    unfold acquire
    dsimp only
    split
    · refine ⟨List.prefix_append _ _, Nat.le_succ _, Nat.le_refl _, fun _ => id, fun _ => ?_,
        fun _ => Or.inl, fun request isGranted => ?_⟩
      · simp only [settle]
        omega
      · rw [granted_settle, if_neg (by simp), List.append_nil] at isGranted
        exact Or.inl isGranted
    · split
      · refine ⟨List.prefix_append _ _, Nat.le_succ _, Nat.le_refl _, fun _ => id, fun _ => ?_,
          fun _ => Or.inl, fun request isGranted => ?_⟩
        · simp only [settle]
          omega
        · rw [granted_settle, if_pos rfl] at isGranted
          rcases List.mem_append.mp isGranted with earlier | isNew
          · exact Or.inl earlier
          · exact Or.inr (Or.inl (List.mem_singleton.mp isNew))
      · refine ⟨List.prefix_refl _, Nat.le_succ _, Nat.le_refl _, fun _ => id, fun _ => ?_,
          fun entry member => ?_, fun _ => Or.inl⟩
        · simp only [List.length_append, List.length_singleton]
          omega
        · rcases List.mem_append.mp member with earlier | isNew
          · exact Or.inl earlier
          · exact Or.inr (by rw [List.mem_singleton.mp isNew])
  | released request isGranted unreleased isNext =>
    have drained := release_drained steady.sound isGranted unreleased
    rw [← isNext] at drained
    refine ⟨drained.settlements, Nat.le_of_eq drained.requests.symm, ?_, fun signal => ?_,
      fun waiting => ?_, fun entry member => Or.inl (drained.queued entry member), ?_⟩
    · rw [drained.released]
      exact Nat.le_succ _
    · rw [abortReason, abortReason, drained.aborted]
      exact id
    · obtain ⟨some, sound⟩ := steady.sound.free isGranted unreleased
      have full := steady.full waiting
      have shorter := drainLoop_shorter sound (by change state.activeCount - 1 < limit; omega)
        waiting (Nat.le_refl _)
      rw [drained.released, drained.requests, isNext, release, if_neg unreleased, drain,
        List.length_cons]
      change (drainLoop limit _ _).queue.length < state.queue.length at shorter
      change state.released.length + 1 + (drainLoop limit _ _).queue.length + state.requests ≤
        state.released.length + state.queue.length + state.requests
      omega
    · obtain ⟨chosen, grants⟩ := release_grantsFirst steady isGranted unreleased
      intro other isOther
      rw [isNext, grants.granted] at isOther
      rcases List.mem_append.mp isOther with earlier | isNew
      · exact Or.inl earlier
      · obtain ⟨entry, isChosen, same⟩ := Option.map_eq_some_iff.mp (Option.mem_toList.mp isNew)
        exact Or.inr (Or.inr ⟨entry, grants.first entry isChosen, same⟩)
  | aborted signal reason fresh isNext =>
    subst isNext
    refine ⟨List.prefix_refl _, Nat.le_refl _, Nat.le_refl _, fun other isAborted => ?_,
      fun _ => Nat.le_refl _, fun _ => Or.inl, fun _ => Or.inl⟩
    cases other with
    | none => exact isAborted
    | some other =>
      by_cases same : other = signal
      · simp [RpcRequestQueue.abortReason, same]
      · rw [RpcRequestQueue.abortReason, Option.bind_some, List.lookup_cons, beq_false_of_ne same]
        exact isAborted
  | notified entry reason listens isReason isNext =>
    subst isNext
    have size := length_erase_lt (steady.sound.listener.mp listens).1
    refine ⟨List.prefix_append _ _, Nat.le_refl _, Nat.le_refl _, fun _ => id, fun _ => ?_,
      fun other member => Or.inl (List.mem_of_mem_erase member), fun request isGranted => ?_⟩
    · change state.released.length + (state.queue.erase entry).length + state.requests ≤
        state.released.length + state.queue.length + state.requests
      omega
    · rw [handleAbort, granted_settle, if_neg (by simp), List.append_nil] at isGranted
      exact Or.inl isGranted

open Transition

theorem steady_of_reaches (reached : Reaches (step limit) Unrestricted initial state) :
    Steady limit state :=
  reached.invariant (Steady limit)
    ⟨sound_initial limit, fun waiting => absurd rfl waiting⟩
    fun _ _ _ steady _ stepped => (step_moves stepped).steady steady

theorem kept_of_reaches (steady : Steady limit state)
    (reached : Reaches (step limit) Unrestricted state next) :
    Steady limit next ∧ state.settlements <+: next.settlements ∧
      state.requests ≤ next.requests ∧ state.released.length ≤ next.released.length ∧
      ∀ signal, state.abortReason signal ≠ none → next.abortReason signal ≠ none := by
  refine reached.invariant (fun later => Steady limit later ∧
    state.settlements <+: later.settlements ∧ state.requests ≤ later.requests ∧
      state.released.length ≤ later.released.length ∧
      ∀ signal, state.abortReason signal ≠ none → later.abortReason signal ≠ none)
    ⟨steady, List.prefix_refl _, Nat.le_refl _, Nat.le_refl _, fun _ => id⟩ ?_
  rintro before event after ⟨steadyBefore, settlements, requests, released, aborted⟩ _ stepped
  have kept := (step_moves stepped).kept steadyBefore
  exact ⟨(step_moves stepped).steady steadyBefore, settlements.trans kept.settlements,
    Nat.le_trans requests kept.requests, Nat.le_trans released kept.released,
    fun signal isAborted => kept.abortReason signal (aborted signal isAborted)⟩

theorem queued_before (steady : Steady limit state) (later : Steady limit next)
    (settlements : state.settlements <+: next.settlements) {request : Nat}
    (made : request < state.requests)
    (queued : request ∈ next.queue.map QueuedRpcRequest.request) :
    request ∈ state.queue.map QueuedRpcRequest.request := by
  refine (steady.sound.settled_or_queued made).resolve_left fun settled => ?_
  obtain ⟨entry, isEntry, rfl⟩ := List.mem_map.mp queued
  exact later.sound.not_settled isEntry ((settlements.map Prod.fst).subset settled)

theorem released_while_queued (steady : Steady limit state)
    (reached : Reaches (step limit) Unrestricted state next) {request : Nat}
    (made : request < state.requests)
    (queued : request ∈ next.queue.map QueuedRpcRequest.request) :
    next.released.length + next.queue.length + state.requests ≤
      state.released.length + state.queue.length + next.requests := by
  induction reached with
  | refl => exact Nat.le_refl _
  | @tail middle next before stepped ih =>
    obtain ⟨event, _, isNext⟩ := stepped
    obtain ⟨steadyMiddle, _, requests, _⟩ := kept_of_reaches steady before
    have moves := step_moves isNext
    have kept := moves.kept steadyMiddle
    have waits := queued_before steadyMiddle (moves.steady steadyMiddle) kept.settlements
      (Nat.lt_of_lt_of_le made requests) queued
    have earlier := ih waits
    obtain ⟨entry, member, _⟩ := List.mem_map.mp waits
    have shorter := kept.shorter (List.ne_nil_of_mem member)
    omega

theorem Sound.length_held (sound : Sound limit state) : state.held.length = state.activeCount := by
  have released : (state.granted.filter fun request => request ∈ state.released).Perm
      state.released := by
    refine (List.perm_ext_iff_of_nodup (sound.granted_nodup.filter _) sound.releasedOnce).mpr ?_
    intro request
    simp only [List.mem_filter, decide_eq_true_eq]
    exact ⟨fun both => both.2, fun member => ⟨sound.ofGranted request member, member⟩⟩
  have parts := (List.filter_append_perm (fun request => decide (request ∈ state.released))
    state.granted).length_eq
  rw [List.length_append, released.length_eq] at parts
  have counted := sound.counted
  have isHeld : state.held =
      state.granted.filter fun request => !decide (request ∈ state.released) :=
    List.filter_congr fun request _ => decide_not
  rw [isHeld]
  omega

theorem not_granted_of_rejected (steady : Steady limit state) {request : Nat}
    (rejected : state.Rejected request) : request ∉ state.granted := by
  intro isGranted
  obtain ⟨error, isRejected⟩ := rejected
  have isGranted := mem_granted_iff.mp isGranted
  have once := (List.nodup_append.mp steady.sound.settled_once).1
  have same := List.inj_on_of_nodup_map once isRejected isGranted rfl
  exact absurd (Prod.mk.inj same).2 (by simp)

theorem Settled.cases {request : Nat} (settled : state.Settled request) :
    request ∈ state.granted ∨ state.Rejected request := by
  obtain ⟨⟨found, settlement⟩, member, rfl⟩ := List.mem_map.mp settled
  cases settlement with
  | granted => exact Or.inl (mem_granted_iff.mpr member)
  | rejected error => exact Or.inr ⟨error, member⟩

theorem Sound.entry_unique (sound : Sound limit state) {other : QueuedRpcRequest}
    (queued : entry ∈ state.queue) (isOther : other ∈ state.queue)
    (same : other.request = entry.request) : other = entry :=
  List.inj_on_of_nodup_map (List.nodup_append.mp sound.settled_once).2.1 isOther queued same

/-- A request whose signal is aborted while it is queued is rejected by its listener or by `drain`,
whichever comes first, and waits in the queue until then. -/
theorem aborted_rejected (steady : Steady limit state) (queued : entry ∈ state.queue)
    (isAborted : state.abortReason entry.signal ≠ none)
    (reached : Reaches (step limit) Unrestricted state next) :
    next.Rejected entry.request ∨ entry ∈ next.queue := by
  induction reached with
  | refl => exact Or.inr queued
  | @tail middle next before stepped ih =>
    obtain ⟨event, _, isNext⟩ := stepped
    obtain ⟨steadyMiddle, _, _, _, aborted⟩ := kept_of_reaches steady before
    have moves := step_moves isNext
    have steadyNext := moves.steady steadyMiddle
    have kept := moves.kept steadyMiddle
    rcases ih with ⟨error, rejected⟩ | waits
    · exact Or.inl ⟨error, kept.settlements.subset rejected⟩
    · have made := steadyMiddle.sound.known entry waits
      rcases steadyNext.sound.settled_or_queued (Nat.lt_of_lt_of_le made kept.requests) with
        settled | still
      · refine Or.inl (settled.cases.resolve_left fun isGranted => ?_)
        rcases kept.granted _ isGranted with earlier | isNew | ⟨chosen, isFirst, same⟩
        · refine steadyMiddle.sound.not_settled waits ?_
          exact List.mem_map_of_mem (mem_granted_iff.mp earlier)
        · omega
        · have isEntry := steadyMiddle.sound.entry_unique waits isFirst.queued same
          exact aborted _ isAborted (isEntry ▸ isFirst.live)
      · obtain ⟨other, isOther, same⟩ := List.mem_map.mp still
        rcases kept.queued other isOther with earlier | isNew
        · exact Or.inr (steadyMiddle.sound.entry_unique waits earlier same ▸ isOther)
        · omega

structure Correct (limit : Nat) (state : RpcRequestQueue) : Prop where
  counts : state.activeCount = state.held.length
  bounded : state.activeCount ≤ limit
  noneWaits : state.activeCount < limit → state.queue = []
  releases : ∀ request ∈ state.held, ∃ next chosen,
    step limit state (.release request) = some next ∧ GrantsFirst state next chosen
  repeated : ∀ request ∈ state.released, step limit state (.release request) = some state
  aborts : ∀ entry ∈ state.queue, state.abortReason entry.signal ≠ none →
    ∀ later, Reaches (step limit) Unrestricted state later → entry.request ∉ later.granted ∧
      (later.Rejected entry.request ∨
        ∃ next, step limit later (.notify entry) = some next ∧ next.Rejected entry.request)
  settlesOnce : ∀ request < state.requests,
    (state.settlements.map Prod.fst).count request +
      (state.queue.map QueuedRpcRequest.request).count request = 1
  settles : ∀ later, Reaches (step limit) Unrestricted state later →
    state.queue.length + (later.requests - state.requests) ≤
        later.released.length - state.released.length →
      ∀ request < state.requests, (later.settlements.map Prod.fst).count request = 1
  goesOn : state.queue ≠ [] → state.held ≠ []

/-- In every run, `settles` among it: requests that are made by some moment are settled as soon as so
many permits are released that those queued then and submitted since could all have had one. -/
theorem rpcRequestQueue_correct (limit : Nat) (positive : 1 ≤ limit) {state : RpcRequestQueue}
    (reached : Reaches (step limit) Unrestricted initial state) : Correct limit state := by
  have steady := steady_of_reaches reached
  have sound := steady.sound
  have heldLength := sound.length_held
  have count {later : RpcRequestQueue} (soundLater : Sound limit later) {request : Nat}
      (made : request < later.requests) :
      (later.settlements.map Prod.fst).count request +
        (later.queue.map QueuedRpcRequest.request).count request = 1 := by
    rw [← List.count_append, soundLater.once.count_eq]
    exact List.count_eq_one_of_mem List.nodup_range (List.mem_range.mpr made)
  refine
    { counts := heldLength.symm
      bounded := sound.bounded
      noneWaits := fun free => ?_
      releases := fun request isHeld => ?_
      repeated := fun request again => ?_
      aborts := fun entry queued isAborted later onward => ?_
      settlesOnce := fun request made => count sound made
      settles := fun later onward enough request made => ?_
      goesOn := fun waiting empty => ?_ }
  · by_contra waiting
    have full := steady.full waiting
    omega
  · obtain ⟨isGranted, unreleased⟩ := List.mem_filter.mp isHeld
    obtain ⟨chosen, grants⟩ := release_grantsFirst steady isGranted (by simpa using unreleased)
    exact ⟨_, chosen, by rw [step, if_pos (mem_granted_iff.mp isGranted)], grants⟩
  · rw [step, if_pos (mem_granted_iff.mp (sound.ofGranted request again)), release, if_pos again]
  · obtain ⟨steadyLater, _, _, _, aborted⟩ := kept_of_reaches steady onward
    rcases aborted_rejected steady queued isAborted onward with rejected | waits
    · exact ⟨not_granted_of_rejected steadyLater rejected, Or.inl rejected⟩
    · obtain ⟨reason, isReason⟩ := Option.ne_none_iff_exists'.mp (aborted _ isAborted)
      have signal : entry.signal.isSome = true := by
        cases isSignal : entry.signal with
        | none => exact absurd isReason (by simp [RpcRequestQueue.abortReason, isSignal])
        | some signal => rfl
      refine ⟨fun isGranted => ?_, Or.inr ⟨later.handleAbort entry reason, ?_, ?_⟩⟩
      · exact steadyLater.sound.not_settled waits
          (List.mem_map_of_mem (mem_granted_iff.mp isGranted))
      · rw [step, if_pos (steadyLater.sound.listener.mpr ⟨waits, signal⟩), isReason]
        rfl
      · exact ⟨_, List.mem_append_right _ (List.mem_singleton_self _)⟩
  · obtain ⟨steadyLater, settlements, requests, released, _⟩ := kept_of_reaches steady onward
    have one := count steadyLater.sound (Nat.lt_of_lt_of_le made requests)
    suffices gone : (later.queue.map QueuedRpcRequest.request).count request = 0 by omega
    refine List.count_eq_zero.mpr fun queued => ?_
    have bound := released_while_queued steady onward made queued
    obtain ⟨entry, member, _⟩ := List.mem_map.mp queued
    have some := List.length_pos_of_mem member
    omega
  · have full := steady.full waiting
    rw [empty] at heldLength
    simp only [List.length_nil] at heldLength
    omega

def abortedRun : List Event :=
  [.acquire .default none, .acquire .foreground (some 0), .abort 0 .other, .acquire .background none]

theorem rpcRequestQueue_correct_aborted :
    ∃ state, run (step 1) (fun _ _ => true) initial abortedRun = some state ∧
      state.queue.length = 2 ∧ Correct 1 state :=
  ⟨_, rfl, rfl, rpcRequestQueue_correct 1 (Nat.le_refl 1)
    (reaches_of_run (rfl : run (step 1) (fun _ _ => true) initial abortedRun = some _)).unrestricted⟩

end RpcRequestQueue

end Metidos.Client.RequestQueue
