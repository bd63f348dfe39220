import Metidos.Sidecar.FrameDispatch

/-!
What becomes of a cancel: it waits in the queue behind the request that it names, so it neither
stops the callback nor aborts it, and its entry stays behind.
-/

namespace Metidos.Sidecar

open Transition

variable {pluginId : Text} {state next : DispatchState} {id : Text} {frame : HostFrame}

/-- A cancelled request is never started, a cancel of the running request aborts it before it
settles, and none is remembered of a request that has settled. -/
structure CancelsTakeEffect (state : DispatchState) : Prop where
  neverStarts : ∀ id reason,
    ¬[.received (.cancel id reason), .started id].Sublist state.history
  aborts : ∀ before id during aborted after,
    state.history = before ++ .started id :: during ++ .settled id aborted :: after →
    (∀ aborted, .settled id aborted ∉ during) →
    ∀ reason, .received (.cancel id reason) ∈ during → aborted = true
  forgotten : ∀ id aborted, .settled id aborted ∈ state.history →
    id ∉ state.cancelledHostRequestIds

def NoRequestCancelled (history : List Moment) : Prop :=
  ∀ id reason, .received (.cancel id reason) ∈ history → .received (.request id) ∉ history

/-- What the history says of the state: every frame waits in the queue or has been handled, and
what is remembered of a cancel that came before the request is remembered until that ends. -/
structure Recorded (state : DispatchState) : Prop where
  startedReceived : ∀ id, .started id ∈ state.history → .received (.request id) ∈ state.history
  settledStarted : ∀ id aborted, .settled id aborted ∈ state.history →
    .started id ∈ state.history
  cancelledReceived : ∀ id ∈ state.cancelledHostRequestIds,
    ∃ reason, .received (.cancel id reason) ∈ state.history
  queued : ∀ frame ∈ state.queue, .received frame ∈ state.history
  requests : ∀ id, .received (.request id) ∈ state.history →
    .request id ∈ state.queue ∨ .started id ∈ state.history
  running : ∀ id, .started id ∈ state.history →
    (∃ aborted, .settled id aborted ∈ state.history) ∨
      ∃ previous, state.current = some (.request id previous)
  active : ∀ id previous, state.current = some (.request id previous) →
    .started id ∈ state.history ∧ (id ∈ state.cancelledHostRequestIds →
      ∃ reason, [.received (.cancel id reason), .started id].Sublist state.history)
  cancels : ∀ id reason, .received (.cancel id reason) ∈ state.history →
    .cancel id reason ∈ state.queue ∨ id ∈ state.cancelledHostRequestIds ∨
      ∃ reason, [.received (.cancel id reason), .started id].Sublist state.history

theorem recorded_initial : Recorded .initial where
  startedReceived := by simp [DispatchState.initial]
  settledStarted := by simp [DispatchState.initial]
  cancelledReceived := by simp [DispatchState.initial]
  queued := by simp [DispatchState.initial]
  requests := by simp [DispatchState.initial]
  running := by simp [DispatchState.initial]
  active := by simp [DispatchState.initial]
  cancels := by simp [DispatchState.initial]

theorem Recorded.same (recorded : Recorded state) (history : next.history = state.history)
    (queue : next.queue = state.queue)
    (cancelled : next.cancelledHostRequestIds = state.cancelledHostRequestIds)
    (kept : ∀ id previous, next.current = some (.request id previous) ↔
      state.current = some (.request id previous)) : Recorded next where
  startedReceived := by simpa only [history] using recorded.startedReceived
  settledStarted := by simpa only [history] using recorded.settledStarted
  cancelledReceived := by simpa only [history, cancelled] using recorded.cancelledReceived
  queued := by simpa only [history, queue] using recorded.queued
  requests := by simpa only [history, queue] using recorded.requests
  running := by simpa only [history, kept] using recorded.running
  active := by simpa only [history, cancelled, kept] using recorded.active
  cancels := by simpa only [history, queue, cancelled] using recorded.cancels

theorem sublist_append_left {pair history : List Moment} (moments : List Moment)
    (within : pair.Sublist history) : pair.Sublist (history ++ moments) :=
  within.trans (List.sublist_append_left history moments)

theorem Recorded.receive (recorded : Recorded state) (frame : HostFrame) (queue : List HostFrame)
    (kept : ∀ other ∈ state.queue, other ∈ queue)
    (new : ∀ other ∈ queue, other ∈ state.queue ∨ other = frame)
    (waits : isPluginSidecarHostSettlementFrame frame = false → frame ∈ queue) :
    Recorded { state.note (.received frame) with queue } where
  startedReceived := by
    intro id started
    rcases List.mem_append.mp started with started | last
    · exact List.mem_append_left _ (recorded.startedReceived id started)
    · exact absurd (List.mem_singleton.mp last) (by simp)
  settledStarted := by
    intro id aborted settled
    rcases List.mem_append.mp settled with settled | last
    · exact List.mem_append_left _ (recorded.settledStarted id aborted settled)
    · exact absurd (List.mem_singleton.mp last) (by simp)
  cancelledReceived := by
    intro id member
    obtain ⟨reason, received⟩ := recorded.cancelledReceived id member
    exact ⟨reason, List.mem_append_left _ received⟩
  queued := by
    intro other member
    rcases new other member with old | same
    · exact List.mem_append_left _ (recorded.queued other old)
    · exact same ▸ List.mem_append_right _ (List.mem_singleton.mpr rfl)
  requests := by
    intro id received
    rcases List.mem_append.mp received with received | last
    · rcases recorded.requests id received with waiting | started
      · exact Or.inl (kept _ waiting)
      · exact Or.inr (List.mem_append_left _ started)
    · rw [List.mem_singleton, Moment.received.injEq] at last
      subst last
      exact Or.inl (waits rfl)
  running := by
    intro id started
    rcases List.mem_append.mp started with started | last
    · rcases recorded.running id started with ⟨aborted, settled⟩ | active
      · exact Or.inl ⟨aborted, List.mem_append_left _ settled⟩
      · exact Or.inr active
    · exact absurd (List.mem_singleton.mp last) (by simp)
  active := by
    intro id previous isCurrent
    obtain ⟨started, before⟩ := recorded.active id previous isCurrent
    refine ⟨List.mem_append_left _ started, fun cancelled => ?_⟩
    obtain ⟨reason, within⟩ := before cancelled
    exact ⟨reason, sublist_append_left _ within⟩
  cancels := by
    intro id reason received
    rcases List.mem_append.mp received with received | last
    · rcases recorded.cancels id reason received with waiting | cancelled | ⟨reason, within⟩
      · exact Or.inl (kept _ waiting)
      · exact Or.inr (Or.inl cancelled)
      · exact Or.inr (Or.inr ⟨reason, sublist_append_left _ within⟩)
    · rw [List.mem_singleton, Moment.received.injEq] at last
      subst last
      exact Or.inl (waits rfl)

theorem Recorded.drop {rest : List HostFrame} (recorded : Recorded state)
    (isQueue : state.queue = frame :: rest) (noRequest : ∀ id, frame ≠ .request id)
    (noCancel : ∀ id reason, frame ≠ .cancel id reason) :
    Recorded { state with queue := rest } :=
  { recorded with
    queued := fun other member => recorded.queued other (isQueue ▸ List.mem_cons_of_mem _ member)
    requests := by
      intro id received
      refine (recorded.requests id received).imp_left fun waiting => ?_
      rw [isQueue] at waiting
      exact (List.mem_cons.mp waiting).resolve_left fun same => noRequest id same.symm
    cancels := by
      intro id reason received
      refine (recorded.cancels id reason received).imp_left fun waiting => ?_
      rw [isQueue] at waiting
      exact (List.mem_cons.mp waiting).resolve_left fun same => noCancel id reason same.symm }

theorem Recorded.handleHostCancel {rest : List HostFrame} {reason : Option Text}
    (recorded : Recorded state) (isQueue : state.queue = .cancel id reason :: rest)
    (idle : state.current = none) :
    Recorded ({ state with queue := rest }.handleHostCancel id reason) :=
  { recorded with
    cancelledReceived := by
      intro other member
      rcases (OrderedSet.mem_add _ _ _).mp member with rfl | member
      · refine ⟨reason, recorded.queued _ ?_⟩
        rw [isQueue]
        exact List.mem_cons_self
      · exact recorded.cancelledReceived other member
    queued := fun other member => recorded.queued other (isQueue ▸ List.mem_cons_of_mem _ member)
    requests := by
      intro other received
      refine (recorded.requests other received).imp_left fun waiting => ?_
      rw [isQueue] at waiting
      exact (List.mem_cons.mp waiting).resolve_left (by simp)
    active := by
      intro other previous isCurrent
      exact absurd (idle.symm.trans isCurrent) (by simp)
    cancels := by
      intro other why received
      rcases recorded.cancels other why received with waiting | cancelled | before
      · rw [isQueue, List.mem_cons, HostFrame.cancel.injEq] at waiting
        rcases waiting with ⟨same, -⟩ | waiting
        · exact Or.inr (Or.inl ((OrderedSet.mem_add _ _ _).mpr (Or.inl same)))
        · exact Or.inl waiting
      · exact Or.inr (Or.inl ((OrderedSet.mem_add _ _ _).mpr (Or.inr cancelled)))
      · exact Or.inr (Or.inr before) }

theorem Recorded.startRequest {rest : List HostFrame} (recorded : Recorded state)
    (isQueue : state.queue = .request id :: rest) (idle : state.current = none) :
    Recorded ({ state with queue := rest }.startRequest id) where
  startedReceived := by
    intro other started
    rcases List.mem_append.mp started with started | last
    · exact List.mem_append_left _ (recorded.startedReceived other started)
    · rw [List.mem_singleton, Moment.started.injEq] at last
      subst last
      refine List.mem_append_left _ (recorded.queued _ ?_)
      rw [isQueue]
      exact List.mem_cons_self
  settledStarted := by
    intro other aborted settled
    rcases List.mem_append.mp settled with settled | last
    · exact List.mem_append_left _ (recorded.settledStarted other aborted settled)
    · exact absurd (List.mem_singleton.mp last) (by simp)
  cancelledReceived := by
    intro other member
    obtain ⟨reason, received⟩ := recorded.cancelledReceived other member
    exact ⟨reason, List.mem_append_left _ received⟩
  queued := fun other member =>
    List.mem_append_left _ (recorded.queued other (isQueue ▸ List.mem_cons_of_mem _ member))
  requests := by
    intro other received
    rcases List.mem_append.mp received with received | last
    · rcases recorded.requests other received with waiting | started
      · rw [isQueue, List.mem_cons, HostFrame.request.injEq] at waiting
        rcases waiting with same | waiting
        · exact Or.inr (same ▸ List.mem_append_right _ (List.mem_singleton.mpr rfl))
        · exact Or.inl waiting
      · exact Or.inr (List.mem_append_left _ started)
    · exact absurd (List.mem_singleton.mp last) (by simp)
  running := by
    intro other started
    rcases List.mem_append.mp started with started | last
    · rcases recorded.running other started with ⟨aborted, settled⟩ | ⟨previous, isCurrent⟩
      · exact Or.inl ⟨aborted, List.mem_append_left _ settled⟩
      · exact absurd (idle.symm.trans isCurrent) (by simp)
    · rw [List.mem_singleton, Moment.started.injEq] at last
      exact Or.inr ⟨state.activeHostRequestId, last ▸ rfl⟩
  active := by
    intro other previous isCurrent
    obtain ⟨same, -⟩ := Handling.request.inj (Option.some.inj isCurrent)
    subst same
    refine ⟨List.mem_append_right _ (List.mem_singleton.mpr rfl), fun cancelled => ?_⟩
    obtain ⟨reason, received⟩ := recorded.cancelledReceived id cancelled
    refine ⟨reason, ?_⟩
    exact (List.singleton_sublist.mpr received).append (List.Sublist.refl [Moment.started id])
  cancels := by
    intro other reason received
    rcases List.mem_append.mp received with received | last
    · rcases recorded.cancels other reason received with waiting | cancelled | ⟨why, within⟩
      · rw [isQueue] at waiting
        exact Or.inl ((List.mem_cons.mp waiting).resolve_left (by simp))
      · exact Or.inr (Or.inl cancelled)
      · exact Or.inr (Or.inr ⟨why, sublist_append_left _ within⟩)
    · exact absurd (List.mem_singleton.mp last) (by simp)

theorem Recorded.finishRequest {previous : Option Text} (recorded : Recorded state)
    (isCurrent : state.current = some (.request id previous)) (aborted : Bool) :
    Recorded (state.finishRequest id previous aborted) where
  startedReceived := by
    intro other started
    rcases List.mem_append.mp started with started | last
    · exact List.mem_append_left _ (recorded.startedReceived other started)
    · exact absurd (List.mem_singleton.mp last) (by simp)
  settledStarted := by
    intro other abort settled
    rcases List.mem_append.mp settled with settled | last
    · exact List.mem_append_left _ (recorded.settledStarted other abort settled)
    · rw [List.mem_singleton, Moment.settled.injEq] at last
      obtain ⟨rfl, -⟩ := last
      exact List.mem_append_left _ (recorded.active other previous isCurrent).1
  cancelledReceived := by
    intro other member
    obtain ⟨-, member⟩ := (OrderedSet.mem_delete _ _ _).mp member
    obtain ⟨reason, received⟩ := recorded.cancelledReceived other member
    exact ⟨reason, List.mem_append_left _ received⟩
  queued := fun other member => List.mem_append_left _ (recorded.queued other member)
  requests := by
    intro other received
    rcases List.mem_append.mp received with received | last
    · exact (recorded.requests other received).imp_right fun started =>
        List.mem_append_left _ started
    · exact absurd (List.mem_singleton.mp last) (by simp)
  running := by
    intro other started
    rcases List.mem_append.mp started with started | last
    · rcases recorded.running other started with ⟨abort, settled⟩ | ⟨before, isOther⟩
      · exact Or.inl ⟨abort, List.mem_append_left _ settled⟩
      · obtain ⟨same, -⟩ := Handling.request.inj (Option.some.inj (isCurrent.symm.trans isOther))
        exact Or.inl ⟨aborted, same ▸ List.mem_append_right _ (List.mem_singleton.mpr rfl)⟩
    · exact absurd (List.mem_singleton.mp last) (by simp)
  active := by
    intro other before none
    exact absurd none (by simp [DispatchState.finishRequest, DispatchState.note])
  cancels := by
    intro other reason received
    rcases List.mem_append.mp received with received | last
    · rcases recorded.cancels other reason received with waiting | cancelled | ⟨why, within⟩
      · exact Or.inl waiting
      · by_cases same : other = id
        · subst same
          obtain ⟨why, within⟩ := (recorded.active other previous isCurrent).2 cancelled
          exact Or.inr (Or.inr ⟨why, sublist_append_left _ within⟩)
        · exact Or.inr (Or.inl ((OrderedSet.mem_delete _ _ _).mpr ⟨same, cancelled⟩))
      · exact Or.inr (Or.inr ⟨why, sublist_append_left _ within⟩)
    · exact absurd (List.mem_singleton.mp last) (by simp)

theorem Recorded.write (recorded : Recorded state) (frame : SidecarFrame) :
    Recorded (state.write frame) :=
  recorded.same rfl rfl rfl fun _ _ => Iff.rfl

theorem Recorded.callbackWrites (recorded : Recorded state) (id : Text) (ending : CallbackEnd) :
    Recorded (state.callbackWrites id ending) := by
  cases ending with
  | responded result =>
    rw [DispatchState.callbackWrites]
    split
    · exact recorded
    · exact recorded.write _
  | failed code message => exact recorded.write _
  | threw name message => exact recorded

theorem callbackWrites_current (id : Text) (ending : CallbackEnd) :
    (state.callbackWrites id ending).current = state.current := by
  cases ending with
  | responded result =>
    rw [DispatchState.callbackWrites]
    split
    · rfl
    · rfl
  | failed code message => rfl
  | threw name message => rfl

theorem Recorded.callbackEnded {previous : Option Text} (recorded : Recorded state)
    (isCurrent : state.current = some (.request id previous)) (ending : CallbackEnd) :
    Recorded (state.callbackEnded id previous ending) := by
  have answered := recorded.callbackWrites id ending
  have still := (callbackWrites_current id ending).trans isCurrent
  unfold DispatchState.callbackEnded
  dsimp only
  split
  · exact (answered.write _).finishRequest still true
  · split
    · exact (answered.write _).finishRequest still false
    · exact (answered.finishRequest still false).same rfl rfl rfl fun _ _ => Iff.rfl
  · exact answered.finishRequest still false

theorem Recorded.dispatchFrame (recorded : Recorded state) (frame : HostFrame) :
    Recorded (state.dispatchFrame frame) := by
  unfold DispatchState.dispatchFrame
  dsimp only
  split
  · rename_i settles
    have read : Recorded (state.note (.received frame)) :=
      recorded.receive frame state.queue (fun _ member => member) (fun _ member => Or.inl member)
        fun waits => absurd (settles.symm.trans waits) (by simp)
    cases frame with
    | response requestId => exact read.same rfl rfl rfl fun _ _ => Iff.rfl
    | error requestId => exact read.same rfl rfl rfl fun _ _ => Iff.rfl
    | refused settlement code message requestId => exact read.write _
    | startup => exact absurd settles (by simp [isPluginSidecarHostSettlementFrame])
    | shutdown => exact absurd settles (by simp [isPluginSidecarHostSettlementFrame])
    | cancel targetId reason =>
      exact absurd settles (by simp [isPluginSidecarHostSettlementFrame])
    | request id => exact absurd settles (by simp [isPluginSidecarHostSettlementFrame])
  · refine recorded.receive frame (state.queue ++ [frame]) ?_ ?_ ?_
    · exact fun _ member => List.mem_append_left _ member
    · exact fun _ member => (List.mem_append.mp member).imp_right List.mem_singleton.mp
    · exact fun _ => List.mem_append_right _ (List.mem_singleton.mpr rfl)

theorem Recorded.advance {rest : List HostFrame} (recorded : Recorded state)
    (isQueue : state.queue = frame :: rest) (idle : state.current = none) :
    Recorded ({ state with queue := rest }.handleFrame frame) := by
  cases frame with
  | startup =>
    refine (recorded.drop isQueue nofun nofun).same rfl rfl rfl ?_
    intro id previous
    simp [DispatchState.handleFrame, idle]
  | shutdown =>
    refine (recorded.drop isQueue nofun nofun).same rfl rfl rfl ?_
    intro id previous
    simp [DispatchState.handleFrame, idle]
  | cancel targetId reason => exact recorded.handleHostCancel isQueue idle
  | response requestId =>
    exact (recorded.drop isQueue nofun nofun).same rfl rfl rfl fun _ _ => Iff.rfl
  | error requestId =>
    exact (recorded.drop isQueue nofun nofun).same rfl rfl rfl fun _ _ => Iff.rfl
  | request id => exact recorded.startRequest isQueue idle
  | refused settlement code message requestId =>
    exact (recorded.drop isQueue nofun nofun).write _

theorem Recorded.requestHostOperation (recorded : Recorded state) :
    Recorded (state.requestHostOperation pluginId) := by
  rw [DispatchState.requestHostOperation]
  split
  · exact recorded
  · exact recorded.same rfl rfl rfl fun _ _ => Iff.rfl

theorem Recorded.step {event : DispatchEvent} (recorded : Recorded state)
    (stepped : dispatchStep pluginId state event = some next) : Recorded next := by
  cases event with
  | frame frame =>
    simp only [dispatchStep] at stepped
    split at stepped
    · exact Option.some.inj stepped ▸ recorded.dispatchFrame frame
    · exact absurd stepped (by simp)
  | advance =>
    simp only [dispatchStep] at stepped
    split at stepped
    · rename_i idle isQueue
      exact Option.some.inj stepped ▸ recorded.advance isQueue idle
    · exact absurd stepped (by simp)
  | startupEnded reply =>
    simp only [dispatchStep] at stepped
    split at stepped
    · rename_i isCurrent
      refine Option.some.inj stepped ▸ recorded.same rfl rfl rfl ?_
      intro id previous
      simp [DispatchState.write, isCurrent]
    · exact absurd stepped (by simp)
  | shutdownFlushed =>
    simp only [dispatchStep] at stepped
    split at stepped
    · rename_i isCurrent
      refine Option.some.inj stepped ▸ recorded.same rfl rfl rfl ?_
      intro id previous
      simp [DispatchState.shutDown, isCurrent]
    · exact absurd stepped (by simp)
  | callbackEnded ending =>
    simp only [dispatchStep] at stepped
    split at stepped
    · rename_i id previous isCurrent
      exact Option.some.inj stepped ▸ recorded.callbackEnded isCurrent ending
    · exact absurd stepped (by simp)
  | raceAborted =>
    simp only [dispatchStep] at stepped
    split at stepped
    · rename_i id previous isCurrent
      split at stepped
      · rename_i reason _
        have finished := (recorded.write (.error "host_request_cancelled".toList reason
          (some id))).finishRequest isCurrent true
        exact Option.some.inj stepped ▸ finished.same rfl rfl rfl fun _ _ => Iff.rfl
      · exact absurd stepped (by simp)
    · exact absurd stepped (by simp)
  | abandonedEnded id ending =>
    simp only [dispatchStep] at stepped
    split at stepped
    · have erased : Recorded { state with abandoned := state.abandoned.erase id } :=
        recorded.same rfl rfl rfl fun _ _ => Iff.rfl
      exact Option.some.inj stepped ▸ erased.callbackWrites id ending
    · exact absurd stepped (by simp)
  | hostOperation => exact Option.some.inj stepped ▸ recorded.requestHostOperation
  | hostRequestTimedOut requestId =>
    exact Option.some.inj stepped ▸ recorded.same rfl rfl rfl fun _ _ => Iff.rfl

theorem recorded_reached
    (reached : Reaches (dispatchStep pluginId) Unrestricted .initial state) : Recorded state :=
  reached.invariant Recorded recorded_initial fun _ _ _ recorded _ stepped => recorded.step stepped

/-- Where no cancel names a received request, cancels take effect; and once the queue is empty
and nothing is handled, they do so only there. -/
theorem cancels_take_effect_iff (pluginId : Text) (state : DispatchState)
    (reached : Reaches (dispatchStep pluginId) Unrestricted .initial state) :
    (NoRequestCancelled state.history → CancelsTakeEffect state) ∧
      (state.queue = [] → state.current = none → CancelsTakeEffect state →
        NoRequestCancelled state.history) := by
  have recorded := recorded_reached reached
  constructor
  · intro apart
    refine ⟨?_, ?_, ?_⟩
    · intro id reason within
      have received := within.subset List.mem_cons_self
      have started := within.subset (List.mem_cons_of_mem _ (List.mem_singleton.mpr rfl))
      exact apart id reason received (recorded.startedReceived id started)
    · intro before id during aborted after isHistory _ reason member
      have received : Moment.received (.cancel id reason) ∈ state.history := by
        simp [isHistory, member]
      have started : Moment.started id ∈ state.history := by simp [isHistory]
      exact absurd (recorded.startedReceived id started) (apart id reason received)
    · intro id aborted settled member
      obtain ⟨reason, received⟩ := recorded.cancelledReceived id member
      have started := recorded.settledStarted id aborted settled
      exact apart id reason received (recorded.startedReceived id started)
  · intro emptied idle effective id reason cancelled requested
    rcases recorded.requests id requested with waiting | started
    · simp [emptied] at waiting
    rcases recorded.running id started with ⟨aborted, settled⟩ | ⟨previous, isCurrent⟩
    · rcases recorded.cancels id reason cancelled with waiting | remembered | ⟨why, within⟩
      · simp [emptied] at waiting
      · exact effective.forgotten id aborted settled remembered
      · exact effective.neverStarts id why within
    · exact absurd (idle.symm.trans isCurrent) (by simp)

def cancelledEvents : List DispatchEvent :=
  [.frame (.request "y".toList), .advance, .frame (.request "x".toList),
    .frame (.cancel "x".toList none), .frame (.cancel "y".toList (some "timeout".toList)),
    .callbackEnded (.responded "1".toList), .advance, .callbackEnded (.responded "2".toList),
    .advance, .advance]

def undisturbedEvents : List DispatchEvent :=
  [.frame (.request "y".toList), .advance, .frame (.cancel "z".toList none),
    .callbackEnded (.responded "1".toList), .advance]

def everyDispatch (_ : DispatchState) (_ : DispatchEvent) : Bool := true

theorem cancels_take_effect_unknown : ∃ state : DispatchState,
    .received (.cancel "z".toList none) ∈ state.history ∧ CancelsTakeEffect state := by
  have ran : (Transition.run (dispatchStep []) everyDispatch .initial undisturbedEvents).any
      (fun state => state.history = [.received (.request "y".toList), .started "y".toList,
        .received (.cancel "z".toList none), .settled "y".toList false]) = true := by
    decide +kernel
  obtain ⟨state, ran, isHistory⟩ := (Option.any_eq_true _ _).mp ran
  rw [decide_eq_true_eq] at isHistory
  have effective := cancels_take_effect_iff [] state (reaches_of_run ran).unrestricted
  refine ⟨state, by simp [isHistory], effective.1 ?_⟩
  intro id reason cancelled requested
  simp only [isHistory, List.mem_cons, List.not_mem_nil, or_false, reduceCtorEq, false_or,
    Moment.received.injEq, HostFrame.cancel.injEq, HostFrame.request.injEq] at cancelled requested
  exact absurd (cancelled.1.symm.trans requested) (by decide)

/-- Both callbacks run to their end and are answered, and both cancels stay behind. -/
theorem cancels_without_effect : ∃ state : DispatchState,
    Reaches (dispatchStep []) Unrestricted .initial state ∧
      [.received (.cancel "x".toList none), .started "x".toList].Sublist state.history ∧
      (∃ before during after, state.history =
          before ++ .started "y".toList :: during ++ .settled "y".toList false :: after ∧
        (∀ aborted, .settled "y".toList aborted ∉ during) ∧
        .received (.cancel "y".toList (some "timeout".toList)) ∈ during) ∧
      (∀ id ∈ ["x".toList, "y".toList], .settled id false ∈ state.history ∧
        id ∈ state.cancelledHostRequestIds) ∧
      ¬CancelsTakeEffect state := by
  have ran : (Transition.run (dispatchStep []) everyDispatch .initial cancelledEvents).any
      (fun state => state.history = [.received (.request "y".toList), .started "y".toList,
          .received (.request "x".toList), .received (.cancel "x".toList none),
          .received (.cancel "y".toList (some "timeout".toList)), .settled "y".toList false,
          .started "x".toList, .settled "x".toList false] &&
        state.cancelledHostRequestIds.elements = ["x".toList, "y".toList]) = true := by
    decide +kernel
  obtain ⟨state, ran, facts⟩ := (Option.any_eq_true _ _).mp ran
  simp only [Bool.and_eq_true, decide_eq_true_eq] at facts
  obtain ⟨isHistory, remembered⟩ := facts
  have within : [.received (.cancel "x".toList none), .started "x".toList].Sublist
      state.history := by
    rw [isHistory]
    decide +kernel
  refine ⟨state, (reaches_of_run ran).unrestricted, within,
    ⟨[.received (.request "y".toList)], [.received (.request "x".toList),
      .received (.cancel "x".toList none),
      .received (.cancel "y".toList (some "timeout".toList))],
      [.started "x".toList, .settled "x".toList false], isHistory, by simp, by simp⟩, ?_, ?_⟩
  · intro id member
    rw [isHistory, OrderedSet.mem_def, remembered]
    refine ⟨?_, member⟩
    rcases List.mem_cons.mp member with rfl | member
    · simp
    · rw [List.mem_singleton.mp member]
      simp
  · exact fun effective => effective.neverStarts _ _ within

end Metidos.Sidecar
