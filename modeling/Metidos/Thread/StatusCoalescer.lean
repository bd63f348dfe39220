import Metidos.Client.ThreadPolling
import Metidos.Client.ThreadStoreSpec
import Metidos.Library.Transition

/-!
`src/bun/thread-status-coalescer.ts`: the statuses of a thread within a window are sent as one, the
latest of them; and what that comes to in the thread store of a client.
-/

namespace Metidos.Thread

open Transition

structure PendingThreadStatus (α : Type) where
  thread : α
  timer : Nat

structure SentStatus (α : Type) where
  thread : α
  time : Nat
  byTimer : Bool

/-- `timers` has the armed timers with their threads and times; `enqueued` and `sent` are the
history. -/
structure ThreadStatusCoalescer (α : Type) where
  windowMs : Nat
  pending : OrderedMap Nat (PendingThreadStatus α)
  timers : OrderedMap Nat (Nat × Nat)
  created : Nat
  now : Nat
  enqueued : List α
  sent : List (SentStatus α)

namespace ThreadStatusCoalescer

variable {α : Type} (idOf : α → Nat)

def initial (windowMs : Nat) : ThreadStatusCoalescer α where
  windowMs
  pending := .empty
  timers := .empty
  created := 0
  now := 0
  enqueued := []
  sent := []

def enqueue (state : ThreadStatusCoalescer α) (thread : α) : ThreadStatusCoalescer α :=
  let state := { state with enqueued := state.enqueued ++ [thread] }
  match state.pending.get? (idOf thread) with
  | some existing =>
    { state with pending := state.pending.set (idOf thread) { existing with thread } }
  | none =>
    { state with
      timers := state.timers.set state.created (idOf thread, state.now + state.windowMs)
      created := state.created + 1
      pending := state.pending.set (idOf thread) { thread, timer := state.created } }

def flush (byTimer : Bool) (state : ThreadStatusCoalescer α) (threadId : Nat) :
    ThreadStatusCoalescer α :=
  match state.pending.get? threadId with
  | none => state
  | some pending =>
    { state with
      pending := state.pending.delete threadId
      timers := state.timers.delete pending.timer
      sent := state.sent ++ [{ thread := pending.thread, time := state.now, byTimer }] }

def flushAll (state : ThreadStatusCoalescer α) : ThreadStatusCoalescer α :=
  state.pending.keys.foldl (flush false) state

inductive Event (α : Type)
  | wait (ms : Nat)
  | enqueue (thread : α)
  | timerFires (timer : Nat)
  | flush (threadId : Nat)
  | flushAll

/-- A timer fires once, and not before its time. -/
def step (state : ThreadStatusCoalescer α) : Event α → Option (ThreadStatusCoalescer α)
  | .wait ms => some { state with now := state.now + ms }
  | .enqueue thread => some (state.enqueue idOf thread)
  | .timerFires timer =>
    match state.timers.get? timer with
    | none => none
    | some (threadId, due) =>
      if state.now < due then none
      else some (flush true { state with timers := state.timers.delete timer } threadId)
  | .flush threadId => some (state.flush false threadId)
  | .flushAll => some state.flushAll

/-- What was taken of a sequence, with what waits, is in its order and ends as it does. -/
def KeepsLatest (taken : List α) (waiting : Option α) (given : List α) : Prop :=
  (taken ++ waiting.toList).Sublist given ∧ (taken ++ waiting.toList).getLast? = given.getLast?

theorem KeepsLatest.give {taken given : List α} {waiting : Option α}
    (keeps : KeepsLatest taken waiting given) (item : α) :
    KeepsLatest taken (some item) (given ++ [item]) :=
  ⟨((List.sublist_append_left _ _).trans keeps.1).append_right [item], by simp⟩

theorem KeepsLatest.take {taken given : List α} {item : α}
    (keeps : KeepsLatest taken (some item) given) : KeepsLatest (taken ++ [item]) none given := by
  simpa [KeepsLatest] using keeps

def enqueuedOf (state : ThreadStatusCoalescer α) (threadId : Nat) : List α :=
  state.enqueued.filter fun thread => idOf thread = threadId

def sentOf (state : ThreadStatusCoalescer α) (threadId : Nat) : List α :=
  (state.sent.map SentStatus.thread).filter fun thread => idOf thread = threadId

/-- The statuses of a thread are sent in their order and with the latest, which waits for an armed
timer until then; and the timers send them a window apart. -/
structure Coalesced (state : ThreadStatusCoalescer α) : Prop where
  latest : ∀ threadId, KeepsLatest (state.sentOf idOf threadId)
    ((state.pending.get? threadId).map PendingThreadStatus.thread) (state.enqueuedOf idOf threadId)
  armed : ∀ threadId pending, state.pending.get? threadId = some pending →
    ∃ due ≤ state.now + state.windowMs, state.timers.get? pending.timer = some (threadId, due)
  apart : state.sent.Pairwise fun earlier later =>
    idOf earlier.thread = idOf later.thread → later.byTimer = true →
      earlier.time + state.windowMs ≤ later.time

structure Sound (state : ThreadStatusCoalescer α) : Prop extends Coalesced idOf state where
  keyed : ∀ threadId pending, state.pending.get? threadId = some pending →
    idOf pending.thread = threadId
  owned : ∀ timer threadId due, state.timers.get? timer = some (threadId, due) →
    timer < state.created ∧
      (∃ pending, state.pending.get? threadId = some pending ∧ pending.timer = timer) ∧
      ∀ status ∈ state.sent, idOf status.thread = threadId → status.time + state.windowMs ≤ due
  past : ∀ status ∈ state.sent, status.time ≤ state.now

variable {idOf} {state next : ThreadStatusCoalescer α}

theorem initial_sound (windowMs : Nat) : Sound idOf (initial (α := α) windowMs) where
  latest := fun _ => ⟨List.Sublist.refl _, rfl⟩
  armed := fun _ _ present => by cases present
  apart := List.Pairwise.nil
  keyed := fun _ _ present => by cases present
  owned := fun _ _ _ present => by cases present
  past := fun _ member => by cases member

theorem Sound.give (sound : Sound idOf state) (thread : α) (timer threadId : Nat) :
    KeepsLatest (state.sentOf idOf threadId)
      (((state.pending.set (idOf thread) ⟨thread, timer⟩).get? threadId).map
        PendingThreadStatus.thread)
      ((state.enqueued ++ [thread]).filter fun other => idOf other = threadId) := by
  have keeps := sound.latest threadId
  rw [List.filter_append, OrderedMap.get?_set]
  by_cases same : threadId = idOf thread
  · simpa [same, enqueuedOf] using keeps.give thread
  · simpa [same, Ne.symm same, enqueuedOf] using keeps

theorem Sound.enqueue (sound : Sound idOf state) (thread : α) :
    Sound idOf (state.enqueue idOf thread) := by
  have gets (timer threadId : Nat) (pending : PendingThreadStatus α) :
      (state.pending.set (idOf thread) ⟨thread, timer⟩).get? threadId = some pending ↔
        threadId = idOf thread ∧ pending = ⟨thread, timer⟩ ∨
          threadId ≠ idOf thread ∧ state.pending.get? threadId = some pending := by
    rw [OrderedMap.get?_set]
    split
    · rename_i same
      simp [same, eq_comm]
    · rename_i different
      simp [different]
  unfold ThreadStatusCoalescer.enqueue
  dsimp only
  split
  · rename_i existing present
    obtain ⟨due, soon, armed⟩ := sound.armed _ _ present
    refine ⟨⟨sound.give thread existing.timer, fun threadId pending isPending => ?_, sound.apart⟩,
      fun threadId pending isPending => ?_, fun timer threadId due isArmed => ?_, sound.past⟩
    · rcases (gets _ _ _).mp isPending with ⟨rfl, rfl⟩ | ⟨_, before⟩
      · exact ⟨due, soon, armed⟩
      · exact sound.armed _ _ before
    · rcases (gets _ _ _).mp isPending with ⟨rfl, rfl⟩ | ⟨_, before⟩
      · rfl
      · exact sound.keyed _ _ before
    · obtain ⟨old, ⟨pending, before, own⟩, after⟩ := sound.owned _ _ _ isArmed
      refine ⟨old, ?_, after⟩
      by_cases same : threadId = idOf thread
      · subst same
        obtain rfl := Option.some.inj (present.symm.trans before)
        exact ⟨_, (gets _ _ _).mpr (.inl ⟨rfl, rfl⟩), own⟩
      · exact ⟨pending, (gets _ _ _).mpr (.inr ⟨same, before⟩), own⟩
  · rename_i absent
    refine ⟨⟨sound.give thread state.created, fun threadId pending isPending => ?_, sound.apart⟩,
      fun threadId pending isPending => ?_, fun timer threadId due isArmed => ?_, sound.past⟩
    · rcases (gets _ _ _).mp isPending with ⟨rfl, rfl⟩ | ⟨_, before⟩
      · exact ⟨_, Nat.le_refl _, by rw [OrderedMap.get?_set, if_pos rfl]⟩
      · obtain ⟨due, soon, armed⟩ := sound.armed _ _ before
        refine ⟨due, soon, ?_⟩
        rw [OrderedMap.get?_set, if_neg (Nat.ne_of_lt (sound.owned _ _ _ armed).1), armed]
    · rcases (gets _ _ _).mp isPending with ⟨rfl, rfl⟩ | ⟨_, before⟩
      · rfl
      · exact sound.keyed _ _ before
    · rw [OrderedMap.get?_set] at isArmed
      split at isArmed
      · rename_i isNew
        subst isNew
        obtain ⟨rfl, rfl⟩ := Prod.mk.inj (Option.some.inj isArmed)
        exact ⟨Nat.lt_succ_self _, ⟨_, (gets _ _ _).mpr (.inl ⟨rfl, rfl⟩), rfl⟩,
          fun status member _ => Nat.add_le_add_right (sound.past status member) _⟩
      · obtain ⟨old, ⟨pending, before, own⟩, after⟩ := sound.owned _ _ _ isArmed
        have different : threadId ≠ idOf thread := fun same => by
          rw [same, absent] at before
          cases before
        exact ⟨Nat.lt_succ_of_lt old,
          ⟨pending, (gets _ _ _).mpr (.inr ⟨different, before⟩), own⟩, after⟩

theorem Sound.send (sound : Sound idOf state) (byTimer : Bool) {threadId : Nat}
    {pending : PendingThreadStatus α} (present : state.pending.get? threadId = some pending)
    (inTime : byTimer = true → ∀ due, state.timers.get? pending.timer = some (threadId, due) →
      due ≤ state.now)
    (same : ∀ timer, next.timers.get? timer =
      if timer = pending.timer then none else state.timers.get? timer)
    (result : next = { state with
      pending := state.pending.delete threadId
      timers := next.timers
      sent := state.sent ++ [{ thread := pending.thread, time := state.now, byTimer }] }) :
    Sound idOf next := by
  have isOf := sound.keyed _ _ present
  obtain ⟨due, soon, armed⟩ := sound.armed _ _ present
  generalize next.timers = timers at same result
  subst result
  refine ⟨⟨fun other => ?_, fun other found isPending => ?_, ?_⟩, fun other found isPending => ?_,
    fun timer other time isArmed => ?_, fun status member => ?_⟩
  · have keeps := sound.latest other
    simp only [sentOf, List.map_append, List.filter_append, OrderedMap.get?_delete]
    by_cases isThis : other = threadId
    · subst isThis
      rw [present] at keeps
      simpa [isOf, sentOf, enqueuedOf] using keeps.take
    · simpa [isThis, isOf, Ne.symm isThis, sentOf, enqueuedOf] using keeps
  · dsimp only at isPending ⊢
    rw [OrderedMap.get?_delete] at isPending
    split at isPending
    · cases isPending
    · rename_i different
      obtain ⟨time, before, isArmed⟩ := sound.armed _ _ isPending
      refine ⟨time, before, ?_⟩
      rw [same, if_neg, isArmed]
      intro equal
      rw [equal, armed] at isArmed
      exact different (Prod.mk.inj (Option.some.inj isArmed)).1.symm
  · refine List.pairwise_append.mpr ⟨sound.apart, List.pairwise_singleton _ _, ?_⟩
    intro earlier before later isLater ofSame isTimer
    obtain rfl := List.mem_singleton.mp isLater
    exact Nat.le_trans ((sound.owned _ _ _ armed).2.2 earlier before (ofSame.trans isOf))
      (inTime isTimer due armed)
  · dsimp only at isPending
    rw [OrderedMap.get?_delete] at isPending
    split at isPending
    · cases isPending
    · exact sound.keyed _ _ isPending
  · dsimp only at isArmed ⊢
    rw [same] at isArmed
    split at isArmed
    · cases isArmed
    · rename_i different
      obtain ⟨old, ⟨found, before, own⟩, after⟩ := sound.owned _ _ _ isArmed
      have isOther : other ≠ threadId := fun equal => by
        rw [equal, present] at before
        exact different (own ▸ (Option.some.inj before ▸ rfl))
      refine ⟨old, ⟨found, by rw [OrderedMap.get?_delete, if_neg isOther, before], own⟩, ?_⟩
      intro status member ofOther
      rcases List.mem_append.mp member with sent | isNew
      · exact after status sent ofOther
      · obtain rfl := List.mem_singleton.mp isNew
        exact absurd (ofOther.symm.trans isOf) isOther
  · rcases List.mem_append.mp member with sent | isNew
    · exact sound.past status sent
    · obtain rfl := List.mem_singleton.mp isNew
      exact Nat.le_refl _

theorem Sound.flush (sound : Sound idOf state) (threadId : Nat) :
    Sound idOf (state.flush false threadId) := by
  unfold ThreadStatusCoalescer.flush
  split
  · exact sound
  · rename_i pending present
    exact sound.send false present (fun isTimer => by cases isTimer)
      (fun timer => OrderedMap.get?_delete _ _ _) rfl

theorem Sound.flushAll (sound : Sound idOf state) : Sound idOf state.flushAll := by
  unfold ThreadStatusCoalescer.flushAll
  generalize state.pending.keys = threadIds
  induction threadIds generalizing state with
  | nil => exact sound
  | cons threadId rest ih => exact ih (sound.flush threadId)

theorem Sound.step (sound : Sound idOf state) {event : Event α}
    (stepped : step idOf state event = some next) : Sound idOf next := by
  cases event with
  | wait ms =>
    obtain rfl := Option.some.inj stepped
    refine ⟨⟨sound.latest, fun threadId pending present => ?_, sound.apart⟩, sound.keyed,
      sound.owned, fun status member => Nat.le_add_right_of_le (sound.past status member)⟩
    obtain ⟨due, soon, armed⟩ := sound.armed threadId pending present
    exact ⟨due, by dsimp only; omega, armed⟩
  | enqueue thread =>
    obtain rfl := Option.some.inj stepped
    exact sound.enqueue thread
  | timerFires timer =>
    simp only [ThreadStatusCoalescer.step] at stepped
    split at stepped
    · cases stepped
    · rename_i threadId due armed
      split at stepped
      · cases stepped
      · rename_i isDue
        obtain rfl := Option.some.inj stepped
        obtain ⟨_, ⟨pending, present, rfl⟩, _⟩ := sound.owned _ _ _ armed
        have fires : state.pending.get? threadId = some pending := present
        unfold ThreadStatusCoalescer.flush
        rw [show ({ state with timers := state.timers.delete pending.timer } :
          ThreadStatusCoalescer α).pending.get? threadId = some pending from fires]
        refine sound.send true present (fun _ time isArmed => ?_) (fun timer => ?_) rfl
        · rw [armed] at isArmed
          obtain rfl := (Prod.mk.inj (Option.some.inj isArmed)).2
          exact Nat.le_of_not_lt isDue
        · dsimp only
          rw [OrderedMap.get?_delete, OrderedMap.get?_delete]
          split <;> rfl
  | flush threadId =>
    obtain rfl := Option.some.inj stepped
    exact sound.flush threadId
  | flushAll =>
    obtain rfl := Option.some.inj stepped
    exact sound.flushAll

theorem reaches_sound {windowMs : Nat}
    (reached : Reaches (step idOf) Unrestricted (initial windowMs) state) : Sound idOf state :=
  reached.invariant (Sound idOf) (initial_sound windowMs)
    fun _ _ _ sound _ stepped => sound.step stepped

theorem flush_pending (byTimer : Bool) (threadId other : Nat) :
    (state.flush byTimer threadId).pending.get? other =
      if other = threadId then none else state.pending.get? other := by
  unfold ThreadStatusCoalescer.flush
  split
  · rename_i absent
    split
    · rename_i same
      rw [same, absent]
    · rfl
  · exact OrderedMap.get?_delete _ _ _

theorem flushAll_pending (threadId : Nat) : state.flushAll.pending.get? threadId = none := by
  have general (threadIds : List Nat) : ∀ state : ThreadStatusCoalescer α,
      (threadIds.foldl (ThreadStatusCoalescer.flush false) state).pending.get? threadId =
        if threadId ∈ threadIds then none else state.pending.get? threadId := by
    induction threadIds with
    | nil => exact fun _ => rfl
    | cons first rest ih =>
      intro state
      rw [List.foldl_cons, ih, flush_pending]
      by_cases isFirst : threadId = first <;> simp [isFirst]
  rw [ThreadStatusCoalescer.flushAll, general]
  split
  · rfl
  · rename_i absent
    exact (OrderedMap.get?_eq_none_iff _ _).mpr absent

/-- In every run the statuses are coalesced, and `flushAll` leaves the latest status of each thread
sent. -/
theorem statuses_coalesced (idOf : α → Nat) (windowMs : Nat) (state : ThreadStatusCoalescer α)
    (reached : Reaches (step idOf) Unrestricted (initial windowMs) state) :
    Coalesced idOf state ∧ ∀ threadId,
      (state.flushAll.sentOf idOf threadId).Sublist (state.flushAll.enqueuedOf idOf threadId) ∧
        (state.flushAll.sentOf idOf threadId).getLast? =
          (state.flushAll.enqueuedOf idOf threadId).getLast? := by
  have sound := reaches_sound reached
  refine ⟨sound.toCoalesced, fun threadId => ?_⟩
  have keeps := sound.flushAll.latest threadId
  rw [flushAll_pending] at keeps
  simpa [KeepsLatest] using keeps

theorem statuses_coalesced_window : ∃ state : ThreadStatusCoalescer (Nat × Nat),
    Coalesced Prod.fst state ∧ state.sent.map SentStatus.thread = [(1, 1), (1, 2)] ∧
      state.enqueued = [(1, 0), (1, 1), (2, 0), (1, 2)] ∧ state.pending.keys = [2] := by
  have ran : run (step Prod.fst) (fun _ _ => true) (initial 50)
      [.enqueue (1, 0), .wait 20, .enqueue (1, 1), .enqueue (2, 0), .wait 30, .timerFires 0,
        .enqueue (1, 2), .flush 1] = some _ := rfl
  exact ⟨_, (statuses_coalesced Prod.fst 50 _ (reaches_of_run ran).unrestricted).1, by decide,
    by decide, by decide⟩

end ThreadStatusCoalescer

end Metidos.Thread

/-! The statuses as a client merges them into its store. -/

namespace Metidos.Client

open Thread.ThreadStatusCoalescer Transition

variable {context : StoreContext} {projectIds : List Nat} {store : ThreadStore}

/-- The client lists the thread or its project. -/
def Accepts (projectIds : List Nat) (store : ThreadStore) (thread : RpcThread) : Prop :=
  thread.projectId ∈ projectIds ∨ store.byId.has thread.id = true

theorem upserted_fresh (existing : Option RpcThread) (thread : RpcThread) :
    lessFresh context (upserted context existing thread) thread = false := by
  cases existing with
  | none => exact lessFresh_self thread
  | some found =>
    rw [upserted]
    split
    · rename_i kept
      rcases kept with same | older
      · obtain ⟨_, updated, _, status⟩ := threadsEquivalent_fresh same
        have alike : lessFresh context found thread = lessFresh context thread thread := by
          rw [Bool.eq_iff_iff, lessFresh_iff, lessFresh_iff, snapshotTime, snapshotTime, statusTime,
            statusTime, updated, status]
        rw [alike, lessFresh_self]
      · exact lessFresh_asymm older
    · exact lessFresh_self thread

theorem statusEvents_spec (context : StoreContext) (projectIds : List Nat) (listed : Listed store)
    (threads : List RpcThread) :
    KeepsUp context store (threads.foldl (applyThreadStatusEvent context projectIds) store) ∧
      (∀ thread ∈ threads, Accepts projectIds store thread → ∃ new,
        (threads.foldl (applyThreadStatusEvent context projectIds) store).byId.get? thread.id =
          some new ∧ lessFresh context new thread = false) ∧
      ∀ id new,
        (threads.foldl (applyThreadStatusEvent context projectIds) store).byId.get? id = some new →
          store.byId.get? id = some new ∨ new ∈ threads ∧ new.id = id := by
  induction threads generalizing store with
  | nil =>
    exact ⟨KeepsUp.refl context store, fun _ member => (List.not_mem_nil member).elim,
      fun _ _ => .inl⟩
  | cons thread rest ih =>
    rw [List.foldl_cons, applyThreadStatusEvent]
    split
    · have keeps : KeepsUp context store (upsertThreadStore context store thread) :=
        keepsUp_upsert listed thread
      obtain ⟨later, shown, origin⟩ := ih (upsertThreadStore_listed listed thread)
      refine ⟨keeps.trans later, fun other member accepted => ?_, fun id new present => ?_⟩
      · rcases List.mem_cons.mp member with rfl | isLater
        · obtain ⟨new, isNew, fresher⟩ := later other.id _
            ((upsertThreadStore_get? listed other other.id).trans (if_pos rfl))
          exact ⟨new, isNew, lessFresh_negTrans (upserted_fresh _ other) fresher⟩
        · refine shown other isLater (accepted.imp_right fun has => ?_)
          obtain ⟨old, isOld⟩ := Option.isSome_iff_exists.mp has
          obtain ⟨new, isNew, _⟩ := keeps other.id old isOld
          rw [OrderedMap.has, isNew]
          rfl
      · rcases origin id new present with before | ⟨isLater, isId⟩
        · rw [upsertThreadStore_get? listed] at before
          split at before
          · rename_i same
            obtain rfl := Option.some.inj before
            cases found : store.byId.get? id with
            | none => exact .inr ⟨List.mem_cons_self, same.symm⟩
            | some old =>
              rw [upserted]
              split
              · exact .inl rfl
              · exact .inr ⟨List.mem_cons_self, same.symm⟩
          · exact .inl before
        · exact .inr ⟨List.mem_cons_of_mem _ isLater, isId⟩
    · rename_i refused
      obtain ⟨later, shown, origin⟩ := ih listed
      refine ⟨later, fun other member accepted => ?_, fun id new present => ?_⟩
      · rcases List.mem_cons.mp member with rfl | isLater
        · exact absurd accepted refused
        · exact shown other isLater accepted
      · exact (origin id new present).imp_right fun its =>
          ⟨List.mem_cons_of_mem _ its.1, its.2⟩

/-- Once no status of a thread waits, a client that was sent the coalesced statuses has the thread
as fresh as one that was sent all of them, provided that they come with rising freshness. -/
theorem coalesced_statuses_converge {windowMs : Nat}
    {state : Thread.ThreadStatusCoalescer RpcThread}
    (reached : Reaches (step RpcThread.id) Unrestricted (initial windowMs) state)
    (context : StoreContext) (projectIds : List Nat) (listed : Listed store) (threadId : Nat)
    (idle : state.pending.get? threadId = none)
    (rising : (state.enqueuedOf RpcThread.id threadId).Pairwise fun earlier later =>
      lessFresh context later earlier = false)
    (accepted : ∀ thread ∈ state.enqueuedOf RpcThread.id threadId,
      Accepts projectIds store thread) :
    let merged (threads : List RpcThread) :=
      (threads.foldl (applyThreadStatusEvent context projectIds) store).byId.get? threadId
    merged (state.sent.map Thread.SentStatus.thread) = merged state.enqueued ∨
      ∃ new other, merged (state.sent.map Thread.SentStatus.thread) = some new ∧
        merged state.enqueued = some other ∧ lessFresh context new other = false ∧
          lessFresh context other new = false := by
  intro merged
  obtain ⟨inOrder, ends⟩ := (reaches_sound reached).latest threadId
  rw [idle] at inOrder ends
  simp only [Option.map_none, Option.toList_none, List.append_nil] at inOrder ends
  have isOf (threads : List RpcThread) (thread : RpcThread) (member : thread ∈ threads)
      (isId : thread.id = threadId) : thread ∈ threads.filter fun other => other.id = threadId :=
    List.mem_filter.mpr ⟨member, decide_eq_true isId⟩
  rcases List.eq_nil_or_concat (state.enqueuedOf RpcThread.id threadId) with
    nothing | ⟨front, last, all⟩
  · rw [nothing] at inOrder
    have untouched (threads : List RpcThread)
        (noneOf : (threads.filter fun other => other.id = threadId) = []) :
        merged threads = store.byId.get? threadId := by
      obtain ⟨keeps, _, origin⟩ := statusEvents_spec context projectIds listed threads
      have stored (new : RpcThread) (present : merged threads = some new) :
          store.byId.get? threadId = some new :=
        (origin threadId new present).resolve_right fun its =>
          List.not_mem_nil (noneOf ▸ isOf threads new its.1 its.2)
      cases found : merged threads with
      | some new => exact (stored new found).symm
      | none =>
        cases before : store.byId.get? threadId with
        | none => rfl
        | some old =>
          obtain ⟨new, isNew, _⟩ := keeps threadId old before
          exact absurd (found.symm.trans isNew) (by simp)
    exact .inl ((untouched _ (List.eq_nil_of_sublist_nil inOrder)).trans (untouched _ nothing).symm)
  · rw [List.concat_eq_append] at all
    have isLast : last ∈ state.enqueuedOf RpcThread.id threadId := by simp [all]
    have freshest : ∀ thread ∈ state.enqueuedOf RpcThread.id threadId,
        lessFresh context last thread = false := by
      rw [all] at rising ⊢
      intro thread member
      rcases List.mem_append.mp member with earlier | same
      · exact (List.pairwise_append.mp rising).2.2 thread earlier last List.mem_cons_self
      · rw [List.mem_singleton.mp same]
        exact lessFresh_self last
    have isId : last.id = threadId := of_decide_eq_true (List.mem_filter.mp isLast).2
    -- Whatever is merged with the last status among it is as fresh as all there is.
    have merges (threads : List RpcThread) (member : last ∈ threads)
        (within : ∀ thread ∈ threads, thread.id = threadId →
          thread ∈ state.enqueuedOf RpcThread.id threadId) :
        ∃ new, merged threads = some new ∧
          (store.byId.get? threadId = some new ∨ new ∈ state.enqueuedOf RpcThread.id threadId) ∧
          ∀ other, store.byId.get? threadId = some other ∨
            other ∈ state.enqueuedOf RpcThread.id threadId →
              lessFresh context new other = false := by
      obtain ⟨keeps, shown, origin⟩ := statusEvents_spec context projectIds listed threads
      obtain ⟨new, isNew, fresh⟩ := shown last member (accepted last isLast)
      rw [isId] at isNew
      refine ⟨new, isNew, (origin threadId new isNew).imp_right fun its =>
        within new its.1 its.2, ?_⟩
      rintro other (stored | isEnqueued)
      · obtain ⟨found, isFound, fresher⟩ := keeps threadId other stored
        rwa [Option.some.inj (isNew.symm.trans isFound)]
      · exact lessFresh_negTrans (freshest other isEnqueued) fresh
    have isSent : last ∈ state.sentOf RpcThread.id threadId := by
      refine List.mem_of_getLast? ?_
      rw [ends, all, List.getLast?_concat]
    obtain ⟨new, isNew, newOrigin, newFresh⟩ := merges _ (List.mem_filter.mp isSent).1
      fun thread member ofId => inOrder.subset (isOf _ thread member ofId)
    obtain ⟨other, isOther, otherOrigin, otherFresh⟩ := merges _ (List.mem_filter.mp isLast).1
      fun thread member ofId => isOf _ thread member ofId
    exact .inr ⟨new, other, isNew, isOther, newFresh other otherOrigin, otherFresh new newOrigin⟩

theorem coalesced_statuses_converge_window :
    let working := Sample.thread 1 .working "1970-01-01T00:00:01.000Z"
    let stopped := Sample.thread 1 .stopped "1970-01-01T00:00:02.000Z"
    let merged (threads : List RpcThread) :=
      (threads.foldl (applyThreadStatusEvent Sample.twoDates [1])
        (createThreadStore Sample.twoDates [])).byId.get? 1
    merged [stopped] = merged [working, stopped] ∨
      ∃ new other, merged [stopped] = some new ∧ merged [working, stopped] = some other ∧
        lessFresh Sample.twoDates new other = false ∧
          lessFresh Sample.twoDates other new = false := by
  intro working stopped
  have ran : run (step RpcThread.id) (fun _ _ => true) (initial 50)
      [.enqueue working, .wait 50, .enqueue stopped, .timerFires 0] = some _ := rfl
  refine coalesced_statuses_converge (reaches_of_run ran).unrestricted Sample.twoDates [1]
    (createThreadStore_listed _ _) 1 rfl ?_ ?_
  · decide +kernel
  · have inProject : ∀ thread ∈ [working, stopped], thread.projectId ∈ [1] := by decide +kernel
    exact fun thread member => .inl (inProject thread member)

end Metidos.Client
