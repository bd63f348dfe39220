import Metidos.Client.SocketMessages

/-!
In which runs of the socket its messages keep their order, and none comes from a socket that has
been replaced or after the transport was turned off.
-/

namespace Metidos.Client

open Transition

variable {host : SocketHost} {state next : SocketState} {event : SocketEvent} {frame : SocketFrame}

def SocketHost.isEvent (host : SocketHost) (data : SocketData) : Bool :=
  (host.message data).any RpcSocketMessage.isEvent

def SocketState.applies (state : SocketState) (host : SocketHost) (data : SocketData) : Bool :=
  match host.message data with
  | none => false
  | some (.event _ _) => true
  | some (.response payload) => (state.pendingRequest payload).isSome

def deferred : SocketData → Bool
  | .text _ => false
  | .binary bytes => isRpcBinaryFrame bytes && inflates bytes

structure MessagesInOrder (state : SocketState) : Prop where
  ordered : state.applied.Pairwise fun later earlier =>
    later.message.isEvent = true → earlier.message.isEvent = true →
      later.generation = earlier.generation → earlier.arrival < later.arrival
  current : ∀ applied ∈ state.applied, applied.current = true

def NoneOvertaken (host : SocketHost) (state : SocketState) (generation arrival : Nat)
    (data : SocketData) : Prop :=
  host.isEvent data = true → ∀ earlier ∈ state.inflating, earlier.generation = generation →
    earlier.arrival < arrival → host.isEvent earlier.data = false

/-- A ticket comes while the transport is on, and a frame that has an effect is inflated while its
socket is that of the transport; no event overtakes another one. -/
def InTurn (host : SocketHost) (state : SocketState) : SocketEvent → Prop
  | .ticketIssued => state.rpcTransportEnabled = true
  | .messageReceived generation data =>
    state.socket = some generation →
      deferred data = true ∨ NoneOvertaken host state generation state.framesReceived data
  | .inflated arrival => ∀ frame ∈ state.inflating, frame.arrival = arrival →
      (state.applies host frame.data = false ∨
          frame.generation = state.activeSocketGeneration) ∧
        NoneOvertaken host state frame.generation arrival frame.data
  | _ => True

instance (host : SocketHost) (state : SocketState) (generation arrival : Nat)
    (data : SocketData) : Decidable (NoneOvertaken host state generation arrival data) :=
  inferInstanceAs (Decidable (host.isEvent data = true → ∀ earlier ∈ state.inflating,
    earlier.generation = generation → earlier.arrival < arrival →
      host.isEvent earlier.data = false))

instance (host : SocketHost) (state : SocketState) (event : SocketEvent) :
    Decidable (InTurn host state event) :=
  match event with
  | .ticketIssued => inferInstanceAs (Decidable (state.rpcTransportEnabled = true))
  | .messageReceived generation data =>
    inferInstanceAs (Decidable (state.socket = some generation →
      deferred data = true ∨ NoneOvertaken host state generation state.framesReceived data))
  | .inflated arrival =>
    inferInstanceAs (Decidable (∀ frame ∈ state.inflating, frame.arrival = arrival →
      (state.applies host frame.data = false ∨
          frame.generation = state.activeSocketGeneration) ∧
        NoneOvertaken host state frame.generation arrival frame.data))
  | .enabled => .isTrue trivial
  | .disabled => .isTrue trivial
  | .connects => .isTrue trivial
  | .ticketFailed _ => .isTrue trivial
  | .socketClosing => .isTrue trivial
  | .socketClosed _ => .isTrue trivial
  | .requestSent _ => .isTrue trivial
  | .requestFinished _ => .isTrue trivial
  | .pageUnloads => .isTrue trivial
  | .decoded => .isTrue trivial

structure Ready (host : SocketHost) (state : SocketState) (frame : SocketFrame) : Prop where
  current : state.applies host frame.data = false ∨
    frame.generation = state.activeSocketGeneration ∧ state.rpcTransportEnabled = true
  after : host.isEvent frame.data = true → ∀ applied ∈ state.applied,
    applied.message.isEvent = true → applied.generation = frame.generation →
      applied.arrival < frame.arrival
  first : host.isEvent frame.data = true → ∀ other ∈ state.inflating,
    other.generation = frame.generation → host.isEvent other.data = true →
      frame.arrival < other.arrival

structure Inflating (host : SocketHost) (state : SocketState) (frame : SocketFrame) : Prop where
  received : frame.arrival < state.framesReceived
  known : frame.generation ≤ state.activeSocketGeneration
  enabled : frame.generation = state.activeSocketGeneration → state.rpcTransportEnabled = true
  after : host.isEvent frame.data = true → ∀ applied ∈ state.applied,
    applied.message.isEvent = true → applied.generation = frame.generation →
      applied.arrival < frame.arrival

structure SocketInvariant (host : SocketHost) (state : SocketState) : Prop where
  inOrder : MessagesInOrder state
  socket : ∀ generation, state.socket = some generation →
    generation = state.activeSocketGeneration ∧ state.rpcTransportEnabled = true
  inflating : ∀ frame ∈ state.inflating, Inflating host state frame
  arrivals : state.inflating.Pairwise fun earlier later => earlier.arrival < later.arrival
  applied : ∀ applied ∈ state.applied, applied.arrival < state.framesReceived
  decoding : ∀ frame, state.decoding = some frame →
    frame.arrival < state.framesReceived ∧ Ready host state frame

theorem socketInvariant_initial : SocketInvariant host SocketState.initial where
  inOrder := ⟨List.Pairwise.nil, fun _ member => (by cases member)⟩
  socket := fun _ isSocket => (by cases isSocket)
  inflating := fun _ member => (by cases member)
  arrivals := List.Pairwise.nil
  applied := fun _ member => (by cases member)
  decoding := fun _ isFrame => (by cases isFrame)

/-- A change of the transport alone: the frames and the history stay, and the generation of the
socket comes to be another one before the transport is turned off. -/
structure TransportChange (before after : SocketState) : Prop where
  framesReceived : after.framesReceived = before.framesReceived
  decoding : after.decoding = before.decoding
  inflating : after.inflating = before.inflating
  applied : after.applied = before.applied
  grows : before.activeSocketGeneration ≤ after.activeSocketGeneration
  same : after.activeSocketGeneration = before.activeSocketGeneration →
    before.rpcTransportEnabled = true → after.rpcTransportEnabled = true
  socket : ∀ generation, after.socket = some generation →
    before.socket = some generation ∧
        after.activeSocketGeneration = before.activeSocketGeneration ∨
      generation = after.activeSocketGeneration ∧ after.rpcTransportEnabled = true

theorem TransportChange.refl (state : SocketState) : TransportChange state state :=
  ⟨rfl, rfl, rfl, rfl, Nat.le_refl _, fun _ enabled => enabled,
    fun _ isSocket => Or.inl ⟨isSocket, rfl⟩⟩

theorem TransportChange.trans {before between after : SocketState}
    (first : TransportChange before between) (second : TransportChange between after) :
    TransportChange before after := by
  refine ⟨second.framesReceived.trans first.framesReceived,
    second.decoding.trans first.decoding, second.inflating.trans first.inflating,
    second.applied.trans first.applied, Nat.le_trans first.grows second.grows, ?_, ?_⟩
  · intro same enabled
    have firstGrows := first.grows
    have secondGrows := second.grows
    exact second.same (by omega) (first.same (by omega) enabled)
  · intro generation isSocket
    rcases second.socket generation isSocket with ⟨isSocket, same⟩ | fresh
    · rcases first.socket generation isSocket with ⟨wasSocket, before⟩ | ⟨isActive, enabled⟩
      · exact Or.inl ⟨wasSocket, same.trans before⟩
      · exact Or.inr ⟨isActive.trans same.symm, second.same same enabled⟩
    · exact Or.inr fresh

theorem disableRpcTransport_change (state : SocketState) :
    TransportChange state state.disableRpcTransport where
  framesReceived := rfl
  decoding := rfl
  inflating := rfl
  applied := rfl
  grows := Nat.le_succ _
  same := fun same => absurd same (Nat.succ_ne_self _)
  socket := fun _ isSocket => (by cases isSocket)

theorem connectRpcSocket_change (state : SocketState) :
    TransportChange state state.connectRpcSocket := by
  rw [SocketState.connectRpcSocket]
  split
  · exact TransportChange.refl state
  · split
    · exact TransportChange.refl state
    · exact ⟨rfl, rfl, rfl, rfl, Nat.le_refl _, fun _ enabled => enabled,
        fun _ isSocket => Or.inl ⟨isSocket, rfl⟩⟩

theorem enableRpcTransport_change (state : SocketState) :
    TransportChange state state.enableRpcTransport := by
  have turnedOn : TransportChange state { state with rpcTransportEnabled := true } :=
    ⟨rfl, rfl, rfl, rfl, Nat.le_refl _, fun _ _ => rfl, fun _ isSocket => Or.inl ⟨isSocket, rfl⟩⟩
  rw [SocketState.enableRpcTransport]
  split
  · exact turnedOn
  · exact turnedOn.trans (connectRpcSocket_change _)

theorem ticketIssued_change (state : SocketState) (enabled : state.rpcTransportEnabled = true) :
    TransportChange state state.ticketIssued where
  framesReceived := rfl
  decoding := rfl
  inflating := rfl
  applied := rfl
  grows := Nat.le_succ _
  same := fun _ isEnabled => isEnabled
  socket := fun _ isSocket => Or.inr ⟨(Option.some.inj isSocket).symm, enabled⟩

theorem ticketFailed_change (state : SocketState) (authRequired : Bool) :
    TransportChange state (state.ticketFailed authRequired) := by
  have failed : TransportChange state
      { state with ticketsAwaited := state.ticketsAwaited - 1, rpcSocketConnectPromise := false } :=
    ⟨rfl, rfl, rfl, rfl, Nat.le_refl _, fun _ enabled => enabled,
      fun _ isSocket => Or.inl ⟨isSocket, rfl⟩⟩
  rw [SocketState.ticketFailed]
  split
  · exact failed.trans (disableRpcTransport_change _)
  · exact failed

theorem socketClosed_change (state : SocketState) (generation : Nat) :
    TransportChange state (state.socketClosed generation) := by
  rw [SocketState.socketClosed]
  split
  · exact ⟨rfl, rfl, rfl, rfl, Nat.le_refl _, fun _ enabled => enabled,
      fun _ isSocket => (by cases isSocket)⟩
  · exact TransportChange.refl state

theorem SocketInvariant.change (holds : SocketInvariant host state) (idle : state.decoding = none)
    (change : TransportChange state next) : SocketInvariant host next where
  inOrder := ⟨change.applied ▸ holds.inOrder.ordered, change.applied ▸ holds.inOrder.current⟩
  socket := by
    intro generation isSocket
    rcases change.socket generation isSocket with ⟨wasSocket, same⟩ | fresh
    · obtain ⟨isActive, enabled⟩ := holds.socket generation wasSocket
      exact ⟨isActive.trans same.symm, change.same same enabled⟩
    · exact fresh
  inflating := by
    rw [change.inflating]
    intro frame member
    have facts := holds.inflating frame member
    refine ⟨change.framesReceived ▸ facts.received, Nat.le_trans facts.known change.grows, ?_, ?_⟩
    · intro isActive
      have known := facts.known
      have grows := change.grows
      have same : next.activeSocketGeneration = state.activeSocketGeneration := by omega
      exact change.same same (facts.enabled (isActive.trans same))
    · rw [change.applied]
      exact facts.after
  arrivals := change.inflating ▸ holds.arrivals
  applied := by
    rw [change.applied, change.framesReceived]
    exact holds.applied
  decoding := by
    intro frame isFrame
    rw [change.decoding, idle] at isFrame
    cases isFrame

theorem isEvent_of_message {message : RpcSocketMessage} {data : SocketData}
    (isMessage : host.message data = some message) : host.isEvent data = message.isEvent := by
  rw [SocketHost.isEvent, isMessage]
  rfl

theorem SocketInvariant.record {message : RpcSocketMessage} (holds : SocketInvariant host state)
    (idle : state.decoding = none) (received : frame.arrival < state.framesReceived)
    (ready : Ready host state frame) (isMessage : host.message frame.data = some message)
    (current : frame.generation = state.activeSocketGeneration ∧
      state.rpcTransportEnabled = true) : SocketInvariant host (state.record frame message) where
  inOrder := by
    refine ⟨List.pairwise_cons.mpr ⟨?_, holds.inOrder.ordered⟩, ?_⟩
    · intro earlier member isEvent wasEvent sameSocket
      have framesEvent := (isEvent_of_message isMessage).trans isEvent
      exact ready.after framesEvent earlier member wasEvent sameSocket.symm
    · intro applied member
      rcases List.mem_cons.mp member with rfl | before
      · simp [current.1, current.2]
      · exact holds.inOrder.current applied before
  socket := holds.socket
  inflating := by
    intro other member
    have facts := holds.inflating other member
    refine ⟨facts.received, facts.known, facts.enabled, ?_⟩
    intro othersEvent applied isApplied wasEvent sameSocket
    rcases List.mem_cons.mp isApplied with rfl | before
    · have framesEvent := (isEvent_of_message isMessage).trans wasEvent
      exact ready.first framesEvent other member sameSocket.symm othersEvent
    · exact facts.after othersEvent applied before wasEvent sameSocket
  arrivals := holds.arrivals
  applied := by
    intro applied member
    rcases List.mem_cons.mp member with rfl | before
    · exact received
    · exact holds.applied applied before
  decoding := by
    intro other isOther
    rw [SocketState.record, idle] at isOther
    cases isOther

theorem reloadWindow_change (state : SocketState) :
    TransportChange state (state.reloadWindow host) := by
  rw [SocketState.reloadWindow]
  split
  · exact TransportChange.refl state
  · exact ⟨rfl, rfl, rfl, rfl, Nat.le_refl _, fun _ enabled => enabled,
      fun _ isSocket => Or.inl ⟨isSocket, rfl⟩⟩

theorem requests_change (state : SocketState) (requests : List Rpc.JsNumber) :
    TransportChange state { state with pendingRequests := requests } :=
  ⟨rfl, rfl, rfl, rfl, Nat.le_refl _, fun _ enabled => enabled,
    fun _ isSocket => Or.inl ⟨isSocket, rfl⟩⟩

theorem SocketInvariant.handleMessage (holds : SocketInvariant host state)
    (idle : state.decoding = none) (received : frame.arrival < state.framesReceived)
    (ready : Ready host state frame) : SocketInvariant host (state.handleMessage host frame) := by
  rw [SocketState.handleMessage]
  split
  · exact holds
  · rename_i type payload isMessage
    have applies : state.applies host frame.data = true := by
      rw [SocketState.applies, isMessage]
    have current := ready.current.resolve_left (Bool.not_eq_false _ ▸ applies)
    have recorded := holds.record idle received ready isMessage current
    dsimp only
    split
    · exact recorded.change idle (reloadWindow_change _)
    · exact recorded
  · rename_i payload isMessage
    split
    · exact holds
    · rename_i id isRequest
      have applies : state.applies host frame.data = true := by
        rw [SocketState.applies, isMessage]
        exact Option.isSome_iff_exists.mpr ⟨id, isRequest⟩
      have current := ready.current.resolve_left (Bool.not_eq_false _ ▸ applies)
      have settled := (holds.change idle (requests_change state
        (state.pendingRequests.filter (· ≠ id)))).record idle received
          ⟨Or.inr current, ready.after, ready.first⟩ isMessage current
      dsimp only
      split
      · exact settled
      · split
        · exact settled.change idle (disableRpcTransport_change _)
        · exact settled

theorem SocketInvariant.arrived (holds : SocketInvariant host state) (idle : state.decoding = none) :
    SocketInvariant host { state with framesReceived := state.framesReceived + 1 } where
  inOrder := ⟨holds.inOrder.ordered, holds.inOrder.current⟩
  socket := holds.socket
  inflating := fun frame member =>
    let facts := holds.inflating frame member
    ⟨Nat.lt_succ_of_lt facts.received, facts.known, facts.enabled, facts.after⟩
  arrivals := holds.arrivals
  applied := fun applied member => Nat.lt_succ_of_lt (holds.applied applied member)
  decoding := by
    intro frame isFrame
    rw [idle] at isFrame
    cases isFrame

theorem SocketInvariant.ready {data : SocketData} {generation : Nat}
    (holds : SocketInvariant host state) (isSocket : state.socket = some generation)
    (alone : NoneOvertaken host state generation state.framesReceived data) :
    Ready host state ⟨generation, state.framesReceived, data⟩ where
  current := Or.inr (holds.socket generation isSocket)
  after := fun _ applied member _ _ => holds.applied applied member
  first := by
    intro isEvent other member sameSocket othersEvent
    have none := alone isEvent other member sameSocket (holds.inflating other member).received
    rw [none] at othersEvent
    cases othersEvent

theorem SocketInvariant.inflate {data : SocketData} {generation : Nat}
    (holds : SocketInvariant host state) (idle : state.decoding = none)
    (isSocket : state.socket = some generation) :
    SocketInvariant host { state with
      framesReceived := state.framesReceived + 1
      inflating := state.inflating ++ [⟨generation, state.framesReceived, data⟩] } where
  inOrder := ⟨holds.inOrder.ordered, holds.inOrder.current⟩
  socket := holds.socket
  inflating := by
    intro frame member
    rcases List.mem_append.mp member with before | isNew
    · have facts := holds.inflating frame before
      exact ⟨Nat.lt_succ_of_lt facts.received, facts.known, facts.enabled, facts.after⟩
    · obtain ⟨isActive, enabled⟩ := holds.socket generation isSocket
      rw [List.mem_singleton.mp isNew]
      exact ⟨Nat.lt_succ_self _, Nat.le_of_eq isActive, fun _ => enabled,
        fun _ applied member _ _ => holds.applied applied member⟩
  arrivals := by
    rw [List.pairwise_append]
    refine ⟨holds.arrivals, List.pairwise_singleton _ _, ?_⟩
    intro earlier before later isNew
    rw [List.mem_singleton.mp isNew]
    exact (holds.inflating earlier before).received
  applied := fun applied member => Nat.lt_succ_of_lt (holds.applied applied member)
  decoding := by
    intro frame isFrame
    rw [idle] at isFrame
    cases isFrame

theorem SocketInvariant.messageReceived {data : SocketData} {generation : Nat}
    (holds : SocketInvariant host state) (idle : state.decoding = none)
    (inTurn : InTurn host state (.messageReceived generation data)) :
    SocketInvariant host (state.messageReceived host generation data) := by
  have arrived := holds.arrived idle
  have inTime : state.socket = some generation → deferred data = true ∨
      NoneOvertaken host state generation state.framesReceived data := inTurn
  unfold SocketState.messageReceived
  dsimp only
  split
  · exact arrived
  · rename_i current
    have isSocket : state.socket = some generation := not_not.mp fun other => current (Or.inr other)
    have ready : NoneOvertaken host state generation state.framesReceived data →
        Ready host state ⟨generation, state.framesReceived, data⟩ := holds.ready isSocket
    -- The frame is handled in the state in which it has been counted.
    have handled : deferred data = false →
        SocketInvariant host (SocketState.handleMessage host
          { state with framesReceived := state.framesReceived + 1 }
          ⟨generation, state.framesReceived, data⟩) := by
      intro atOnce
      obtain ⟨current, after, first⟩ :=
        ready ((inTime isSocket).resolve_left (Bool.eq_false_iff.mp atOnce))
      exact arrived.handleMessage idle (Nat.lt_succ_self _) ⟨current, after, first⟩
    cases data with
    | text value => exact handled rfl
    | binary bytes =>
      dsimp only
      split
      · rename_i other
        refine handled ?_
        rw [deferred, Bool.eq_false_iff.mpr other]
        rfl
      · split
        · exact holds.inflate idle isSocket
        · rename_i notInflated
          have atOnce : deferred (.binary bytes) ≠ true := by
            rw [deferred, Bool.eq_false_iff.mpr notInflated, Bool.and_false]
            exact Bool.false_ne_true
          obtain ⟨current, after, first⟩ := ready ((inTime isSocket).resolve_left atOnce)
          refine ⟨⟨arrived.inOrder.ordered, arrived.inOrder.current⟩, arrived.socket,
            fun other member => ?_, arrived.arrivals, arrived.applied, fun frame isFrame => ?_⟩
          · obtain ⟨received, known, enabled, after⟩ := arrived.inflating other member
            exact ⟨received, known, enabled, after⟩
          · cases isFrame
            exact ⟨Nat.lt_succ_self _, current, after, first⟩

theorem SocketInvariant.inflated {arrival : Nat} (holds : SocketInvariant host state)
    (idle : state.decoding = none) (inTurn : InTurn host state (.inflated arrival))
    (isFrame : state.inflating.find? (fun frame => frame.arrival = arrival) = some frame) :
    SocketInvariant host (SocketState.handleMessage host { state with
      inflating := state.inflating.filter fun other => other.arrival ≠ arrival } frame) := by
  have member := List.mem_of_find?_eq_some isFrame
  have isArrival : frame.arrival = arrival := by
    simpa using List.find?_some isFrame
  have facts := holds.inflating frame member
  obtain ⟨current, alone⟩ := inTurn frame member isArrival
  have remaining : SocketInvariant host { state with
      inflating := state.inflating.filter fun other => other.arrival ≠ arrival } := by
    refine ⟨⟨holds.inOrder.ordered, holds.inOrder.current⟩, holds.socket, fun other kept => ?_,
      holds.arrivals.filter _, holds.applied, fun other isOther => ?_⟩
    · obtain ⟨received, known, enabled, after⟩ := holds.inflating other (List.mem_filter.mp kept).1
      exact ⟨received, known, enabled, after⟩
    · rw [idle] at isOther
      cases isOther
  refine remaining.handleMessage idle facts.received ⟨?_, facts.after, ?_⟩
  · exact current.imp_right fun isActive => ⟨isActive, facts.enabled isActive⟩
  · intro isEvent other kept sameSocket othersEvent
    obtain ⟨inflating, different⟩ := List.mem_filter.mp kept
    by_contra notLater
    have differs : other.arrival ≠ arrival := of_decide_eq_true different
    have none := alone isEvent other inflating sameSocket (by omega)
    rw [none] at othersEvent
    cases othersEvent

theorem socketStep_invariant (holds : SocketInvariant host state)
    (inTurn : InTurn host state event) (stepped : socketStep host state event = some next) :
    SocketInvariant host next := by
  unfold socketStep at stepped
  split at stepped
  · rename_i frame isFrame
    split at stepped
    · cases stepped
      obtain ⟨received, current, after, first⟩ := holds.decoding frame isFrame
      have decoded : SocketInvariant host { state with decoding := none } := by
        refine ⟨⟨holds.inOrder.ordered, holds.inOrder.current⟩, holds.socket,
          fun other member => ?_, holds.arrivals, holds.applied, fun other isOther => ?_⟩
        · obtain ⟨received, known, enabled, after⟩ := holds.inflating other member
          exact ⟨received, known, enabled, after⟩
        · cases isOther
      exact decoded.handleMessage rfl received ⟨current, after, first⟩
    · cases stepped
  · rename_i idle
    cases event with
    | enabled =>
      cases stepped
      exact holds.change idle (enableRpcTransport_change state)
    | disabled =>
      cases stepped
      exact holds.change idle (disableRpcTransport_change state)
    | connects =>
      cases stepped
      exact holds.change idle (connectRpcSocket_change state)
    | ticketIssued =>
      dsimp only at stepped
      split at stepped
      · cases stepped
        exact holds.change idle (ticketIssued_change state inTurn)
      · cases stepped
    | ticketFailed authRequired =>
      dsimp only at stepped
      split at stepped
      · cases stepped
        exact holds.change idle (ticketFailed_change state authRequired)
      · cases stepped
    | socketClosing =>
      cases stepped
      exact holds.change idle ⟨rfl, rfl, rfl, rfl, Nat.le_refl _, fun _ enabled => enabled,
        fun _ isSocket => Or.inl ⟨isSocket, rfl⟩⟩
    | socketClosed generation =>
      cases stepped
      exact holds.change idle (socketClosed_change state generation)
    | requestSent id =>
      cases stepped
      exact holds.change idle (requests_change state _)
    | requestFinished id =>
      cases stepped
      exact holds.change idle (requests_change state _)
    | pageUnloads =>
      cases stepped
      exact holds.change idle ⟨rfl, rfl, rfl, rfl, Nat.le_refl _, fun _ enabled => enabled,
        fun _ isSocket => Or.inl ⟨isSocket, rfl⟩⟩
    | messageReceived generation data =>
      cases stepped
      exact holds.messageReceived idle inTurn
    | decoded => cases stepped
    | inflated arrival =>
      dsimp only at stepped
      split at stepped
      · cases stepped
      · rename_i frame isFrame
        cases stepped
        exact holds.inflated idle inTurn isFrame

theorem messages_in_order
    (reached : Reaches (socketStep host) (InTurn host) SocketState.initial state) :
    MessagesInOrder state :=
  (reached.invariant (SocketInvariant host) socketInvariant_initial
    fun _ _ _ holds inTurn stepped => socketStep_invariant holds inTurn stepped).inOrder

namespace Sample

def typed (type : String) : Text := ("\x7b\"type\":\"" ++ type ++ "\"\x7d").toList

def zipped : List UInt8 :=
  [31, 139, 8, 0, 0, 0, 0, 0, 2, 3, 99, 99, 100, 41, 169, 44, 72, 101, 17, 76, 46, 202, 207, 211,
    205, 202, 79, 42, 214, 77, 206, 72, 204, 75, 79, 77, 1, 0, 153, 238, 171, 135, 26, 0, 0, 0]

def unzipped : List UInt8 :=
  Rpc.writeValue (.object [("type".toList, .string "cron-jobs-changed".toList)])

def socketHost : SocketHost where
  devServer := false
  parseJson := fun text =>
    if text = typed "calendar-changed" then
      some (.object [("type".toList, .string "calendar-changed".toList)])
    else none
  gunzipBytes := fun bytes => if bytes = zipped then .ok unzipped else .error (.thrown "Not gzip.")

def cronJobs : SocketData := .binary (Rpc.frame Rpc.FLAG_COMPRESSED zipped)

def calendar : SocketData := .text (typed "calendar-changed")

def inTurnFrames : List SocketEvent :=
  [.enabled, .ticketIssued, .messageReceived 1 cronJobs, .inflated 0, .messageReceived 1 calendar]

def overtakenFrames : List SocketEvent :=
  [.enabled, .ticketIssued, .messageReceived 1 cronJobs, .messageReceived 1 calendar, .inflated 0]

def overtaken (state : SocketState) : Bool :=
  match state.applied with
  | later :: earlier :: _ =>
    later.message.isEvent && earlier.message.isEvent &&
      later.generation = earlier.generation && later.arrival < earlier.arrival
  | _ => false

theorem overtaken_not_inOrder (isOvertaken : overtaken state = true) : ¬MessagesInOrder state := by
  intro inOrder
  have ordered := inOrder.ordered
  rw [overtaken] at isOvertaken
  split at isOvertaken
  · rename_i later earlier rest isApplied
    simp only [Bool.and_eq_true, decide_eq_true_eq] at isOvertaken
    obtain ⟨⟨⟨isEvent, wasEvent⟩, sameSocket⟩, before⟩ := isOvertaken
    rw [isApplied] at ordered
    have after := List.rel_of_pairwise_cons ordered (List.mem_cons_self) isEvent wasEvent sameSocket
    omega
  · cases isOvertaken

end Sample

theorem messages_in_order_inflated :
    ∃ state : SocketState, state.applied.length = 2 ∧ MessagesInOrder state := by
  have ran : ((run (socketStep Sample.socketHost)
      (fun state event => decide (InTurn Sample.socketHost state event)) SocketState.initial
        Sample.inTurnFrames).any fun state => state.applied.length = 2) = true := by
    decide +kernel
  obtain ⟨state, isRun, both⟩ := (Option.any_eq_true _ _).mp ran
  exact ⟨state, of_decide_eq_true both, messages_in_order
    ((reaches_of_run isRun).weaken fun _ _ inTurn => of_decide_eq_true inTurn)⟩

theorem compressed_event_overtaken : ¬ ∀ (host : SocketHost) (state : SocketState),
    Reaches (socketStep host) Unrestricted SocketState.initial state → MessagesInOrder state := by
  have ran : ((run (socketStep Sample.socketHost) (fun _ _ => true) SocketState.initial
      Sample.overtakenFrames).any Sample.overtaken) = true := by
    decide +kernel
  obtain ⟨state, isRun, isOvertaken⟩ := (Option.any_eq_true _ _).mp ran
  intro always
  exact Sample.overtaken_not_inOrder isOvertaken
    (always Sample.socketHost state (reaches_of_run isRun).unrestricted)

end Metidos.Client
