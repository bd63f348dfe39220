import Metidos.Library.Transition
import Metidos.Terminal.TerminalDelivery

/-!
Runs of the terminal manager, with an observer that notes for each socket what was retained when it
connected, what its session has appended since and what it has been sent.
-/

namespace Metidos.Terminal

open TerminalSession

inductive ConnectionState
  | connected
  | disconnected
  | removed
  deriving DecidableEq

structure Connection where
  socket : Nat
  terminalId : Nat
  replay : Units
  appended : Units
  received : Units
  state : ConnectionState
  deriving DecidableEq

structure TerminalTrace where
  manager : TerminalManager
  connections : List Connection

def TerminalManager.registered (manager : TerminalManager) (terminalId socket : Nat) : Bool :=
  (manager.sessions.get? terminalId).any fun session => socket ∈ session.sockets

namespace TerminalTrace

def initial : TerminalTrace where
  manager := .initial
  connections := []

def observe (terminalId : Nat) (operation : SessionOperation) (after : TerminalManager)
    (sent : Sends) (connection : Connection) : Connection :=
  if connection.state = .connected then
    { connection with
      appended :=
        if connection.terminalId = terminalId then connection.appended ++ operation.appended
        else connection.appended
      received := connection.received ++ received connection.socket sent
      state :=
        if closedNormally connection.socket sent then .removed
        else if after.registered connection.terminalId connection.socket then .connected
        else .disconnected }
  else { connection with received := connection.received ++ received connection.socket sent }

/-- The connection of a socket that the operation lets in. -/
@[grind =]
def joined (terminalId : Nat) (operation : SessionOperation) (before after : TerminalManager)
    (sent : Sends) : List Connection :=
  match operation with
  | .connectSocket socket _ =>
    if after.registered terminalId socket then
      [{ socket, terminalId
         replay := ((before.sessions.get? terminalId).map retainedRawOutput).getD []
         appended := []
         received := received socket sent
         state := .connected }]
    else []
  | _ => []

def apply (trace : TerminalTrace) (step : Nat × SessionOperation) : TerminalTrace :=
  let (after, sent) := trace.manager.apply step.1 step.2
  { manager := after
    connections := trace.connections.map (observe step.1 step.2 after sent) ++
      joined step.1 step.2 trace.manager after sent }

def enter (trace : TerminalTrace) (event : TerminalEvent) : TerminalTrace :=
  { trace with manager := trace.manager.enter event }

end TerminalTrace

def terminalStep (trace : TerminalTrace) (event : TerminalEvent) : Option TerminalTrace :=
  some ((trace.manager.operations event).foldl TerminalTrace.apply (trace.enter event))

namespace TerminalTrace

/-- A connected socket has got the replay and all that was appended since, but for what waits for
its timer, and all of it once that timer has fired; one whose session was removed has got all of
it, and one that left a first part. -/
structure Delivered (trace : TerminalTrace) : Prop where
  connected : ∀ connection ∈ trace.connections, connection.state = .connected →
    ∃ session, trace.manager.sessions.get? connection.terminalId = some session ∧
      connection.socket ∈ session.sockets ∧
      connection.replay ++ connection.appended =
        connection.received ++ session.pendingSocketOutput ∧
      (session.pendingSocketOutput ≠ [] → session.socketFlushTimer = true)
  removed : ∀ connection ∈ trace.connections, connection.state = .removed →
    connection.received = connection.replay ++ connection.appended
  disconnected : ∀ connection ∈ trace.connections, connection.state = .disconnected →
    connection.received <+: connection.replay ++ connection.appended
  registered : ∀ terminalId session, trace.manager.sessions.get? terminalId = some session →
    ∀ socket ∈ session.sockets, ∃ connection ∈ trace.connections,
      connection.socket = socket ∧ connection.terminalId = terminalId ∧
        connection.state = .connected
  flushed : ∀ next connection,
    terminalStep trace (.flushTimerFires connection.terminalId) = some next →
    connection ∈ next.connections → connection.state = .connected →
      connection.received = connection.replay ++ connection.appended

structure Settled (manager : TerminalManager) (connection : Connection) : Prop where
  connected : connection.state = .connected →
    ∃ session, manager.sessions.get? connection.terminalId = some session ∧
      connection.socket ∈ session.sockets ∧
      connection.replay ++ connection.appended =
        connection.received ++ session.pendingSocketOutput
  removed : connection.state = .removed →
    connection.received = connection.replay ++ connection.appended
  disconnected : connection.state = .disconnected →
    connection.received <+: connection.replay ++ connection.appended
  ended : connection.state ≠ .connected →
    ∀ terminalId session, manager.sessions.get? terminalId = some session →
      connection.socket ∉ session.sockets
  known : connection.socket < manager.opened.length

structure Sound (trace : TerminalTrace) : Prop where
  settled : ∀ connection ∈ trace.connections, Settled trace.manager connection
  opened : ∀ terminalId session, trace.manager.sessions.get? terminalId = some session →
    ∀ socket ∈ session.sockets, ∃ data, trace.manager.opened[socket]? = some data ∧
      data.terminalId = terminalId
  armed : ∀ terminalId session, trace.manager.sessions.get? terminalId = some session →
    session.Armed
  created : ∀ terminalId session, trace.manager.sessions.get? terminalId = some session →
    terminalId < trace.manager.created
  registered : ∀ terminalId session, trace.manager.sessions.get? terminalId = some session →
    ∀ socket ∈ session.sockets, ∃ connection ∈ trace.connections,
      connection.socket = socket ∧ connection.terminalId = terminalId ∧
        connection.state = .connected

variable {trace : TerminalTrace} {terminalId : Nat} {operation : SessionOperation}

def Joins (trace : TerminalTrace) (terminalId : Nat) (operation : SessionOperation) : Prop :=
  ∀ socket data, operation = .connectSocket socket data →
    trace.manager.opened[socket]? = some data ∧ data.terminalId = terminalId ∧
      ∀ connection ∈ trace.connections, connection.socket ≠ socket

theorem Sound.one_session (sound : trace.Sound) {other : Nat} {session otherSession : TerminalSession}
    {socket : Nat} (present : trace.manager.sessions.get? terminalId = some session)
    (isOther : trace.manager.sessions.get? other = some otherSession)
    (member : socket ∈ session.sockets) (otherMember : socket ∈ otherSession.sockets) :
    terminalId = other := by
  obtain ⟨data, isData, isTerminal⟩ := sound.opened terminalId session present socket member
  obtain ⟨otherData, isOtherData, isOtherTerminal⟩ :=
    sound.opened other otherSession isOther socket otherMember
  cases isData.symm.trans isOtherData
  exact isTerminal.symm.trans isOtherTerminal

theorem apply_manager (step : Nat × SessionOperation) :
    (trace.apply step).manager = (trace.manager.apply step.1 step.2).1 := rfl

theorem apply_absent (absent : trace.manager.sessions.get? terminalId = none) :
    (trace.manager.apply terminalId operation).1 = trace.manager ∧
      ∀ socket, received socket (trace.manager.apply terminalId operation).2 = [] ∧
        closedNormally socket (trace.manager.apply terminalId operation).2 = false := by
  rw [TerminalManager.apply, absent]
  refine ⟨rfl, fun other => ?_⟩
  have silent : ∀ message ∈ operation.refused,
      message.2.data = [] ∧ message.2.closesNormally = false := by
    intro message member
    cases operation with
    | connectSocket socket data =>
      cases List.mem_singleton.mp member
      exact ⟨rfl, rfl⟩
    | _ => cases member
  exact ⟨received_nothing fun message member _ => (silent message member).1,
    not_closedNormally fun message member _ => (silent message member).2⟩

theorem apply_present {session : TerminalSession}
    (present : trace.manager.sessions.get? terminalId = some session) :
    (trace.manager.apply terminalId operation).2 = (operation.run session).2 ∧
      (trace.manager.apply terminalId operation).1.opened = trace.manager.opened ∧
      (trace.manager.apply terminalId operation).1.created = trace.manager.created ∧
      ∀ other, (trace.manager.apply terminalId operation).1.sessions.get? other =
        if other = terminalId then (operation.run session).1
        else trace.manager.sessions.get? other := by
  rw [TerminalManager.apply, present]
  cases result : operation.run session with
  | mk after sent =>
    cases after with
    | none =>
      refine ⟨by simp only [result], by simp only [result], by simp only [result], fun other => ?_⟩
      simp only [result, OrderedMap.get?_delete]
    | some after =>
      refine ⟨by simp only [result], by simp only [result], by simp only [result], fun other => ?_⟩
      simp only [result, OrderedMap.get?_set]

theorem registered_iff {manager : TerminalManager} {socket : Nat} :
    manager.registered terminalId socket = true ↔
      ∃ session, manager.sessions.get? terminalId = some session ∧ socket ∈ session.sockets := by
  rw [TerminalManager.registered, Option.any_eq_true]
  simp only [decide_eq_true_eq]

theorem observe_untouched {after : TerminalManager} {sent : Sends} {connection : Connection}
    (nothing : received connection.socket sent = [])
    (opens : closedNormally connection.socket sent = false)
    (elsewhere : connection.state = .connected → connection.terminalId ≠ terminalId ∧
      after.registered connection.terminalId connection.socket = true) :
    observe terminalId operation after sent connection = connection := by
  rw [observe]
  split
  · rename_i isConnected
    obtain ⟨differs, isRegistered⟩ := elsewhere isConnected
    rw [if_neg differs, nothing, opens, isRegistered, List.append_nil]
    cases connection
    cases isConnected
    rfl
  · rw [nothing, List.append_nil]

theorem Sound.apply_absent (sound : trace.Sound)
    (absent : trace.manager.sessions.get? terminalId = none) :
    trace.apply (terminalId, operation) = trace := by
  obtain ⟨same, silent⟩ := @TerminalTrace.apply_absent _ _ operation absent
  have nothingJoins : joined terminalId operation trace.manager
      (trace.manager.apply terminalId operation).1
      (trace.manager.apply terminalId operation).2 = [] := by
    cases operation with
    | connectSocket socket data =>
      rw [joined, if_neg]
      rw [same, TerminalManager.registered, absent]
      exact Bool.false_ne_true
    | _ => rfl
  have unchanged : trace.connections.map (observe terminalId operation
      (trace.manager.apply terminalId operation).1
      (trace.manager.apply terminalId operation).2) = trace.connections := by
    refine (List.map_congr_left fun connection member => ?_).trans (List.map_id _)
    refine observe_untouched (silent connection.socket).1 (silent connection.socket).2 ?_
    intro isConnected
    obtain ⟨session, present, isRegistered, _⟩ :=
      (sound.settled connection member).connected isConnected
    refine ⟨fun isHere => ?_, ?_⟩
    · rw [isHere, absent] at present
      cases present
    · rw [same]
      exact registered_iff.mpr ⟨session, present, isRegistered⟩
  rw [TerminalTrace.apply]
  dsimp only
  rw [nothingJoins, unchanged, same, List.append_nil]

section Present

variable {session : TerminalSession}

theorem not_target (delivers : Delivers session operation (operation.run session).1
      (operation.run session).2) (joins : trace.Joins terminalId operation)
    {connection : Connection} (member : connection ∈ trace.connections)
    (elsewhere : connection.socket ∉ session.sockets) :
    ∀ message ∈ (operation.run session).2, message.1 ≠ connection.socket := by
  intro message isMessage same
  rcases delivers.targets message isMessage with isRegistered | ⟨data, isJoin⟩
  · exact elsewhere (same ▸ isRegistered)
  · exact (joins _ data isJoin).2.2 connection member same.symm

theorem not_member (delivers : Delivers session operation (operation.run session).1
      (operation.run session).2) (joins : trace.Joins terminalId operation)
    {connection : Connection} (member : connection ∈ trace.connections)
    (elsewhere : connection.socket ∉ session.sockets) :
    ∀ after, (operation.run session).1 = some after → connection.socket ∉ after.sockets := by
  intro after isAfter stays
  rcases delivers.members after isAfter _ stays with isRegistered | ⟨data, isJoin⟩
  · exact elsewhere isRegistered
  · exact (joins _ data isJoin).2.2 connection member rfl

variable {manager : TerminalManager} {connection : Connection}

theorem settled_elsewhere (sound : trace.Sound)
    (present : trace.manager.sessions.get? terminalId = some session)
    (delivers : Delivers session operation (operation.run session).1 (operation.run session).2)
    (joins : trace.Joins terminalId operation)
    (opened : manager.opened = trace.manager.opened)
    (sessions : ∀ other, manager.sessions.get? other =
      if other = terminalId then (operation.run session).1
      else trace.manager.sessions.get? other)
    (member : connection ∈ trace.connections)
    (elsewhere : connection.state = .connected → connection.terminalId ≠ terminalId) :
    observe terminalId operation manager (operation.run session).2 connection = connection ∧
      Settled manager connection := by
  have settled := sound.settled connection member
  have notHere : connection.socket ∉ session.sockets := by
    by_cases isConnected : connection.state = .connected
    · obtain ⟨otherSession, isOther, isRegistered, _⟩ := settled.connected isConnected
      intro isHere
      exact elsewhere isConnected (sound.one_session isOther present isRegistered isHere)
    · exact settled.ended isConnected terminalId session present
  have notTarget := not_target delivers joins member notHere
  have kept : connection.state = .connected →
      manager.sessions.get? connection.terminalId =
        trace.manager.sessions.get? connection.terminalId := by
    intro isConnected
    rw [sessions, if_neg (elsewhere isConnected)]
  constructor
  · refine observe_untouched (received_nothing fun message isMessage same =>
        absurd same (notTarget message isMessage))
      (not_closedNormally fun message isMessage same =>
        absurd same (notTarget message isMessage)) ?_
    intro isConnected
    obtain ⟨otherSession, isOther, isRegistered, _⟩ := settled.connected isConnected
    exact ⟨elsewhere isConnected,
      registered_iff.mpr ⟨otherSession, (kept isConnected).trans isOther, isRegistered⟩⟩
  · refine ⟨?_, settled.removed, settled.disconnected, ?_, ?_⟩
    · intro isConnected
      rw [kept isConnected]
      exact settled.connected isConnected
    · intro hasEnded other otherSession isOther
      rw [sessions] at isOther
      split at isOther
      · exact not_member delivers joins member notHere otherSession isOther
      · exact settled.ended hasEnded other otherSession isOther
    · rw [opened]
      exact settled.known

theorem settled_here (sound : trace.Sound)
    (present : trace.manager.sessions.get? terminalId = some session)
    (delivers : Delivers session operation (operation.run session).1 (operation.run session).2)
    (opened : manager.opened = trace.manager.opened)
    (sessions : ∀ other, manager.sessions.get? other =
      if other = terminalId then (operation.run session).1
      else trace.manager.sessions.get? other)
    (member : connection ∈ trace.connections) (isConnected : connection.state = .connected)
    (isHere : connection.terminalId = terminalId) :
    Settled manager (observe terminalId operation manager (operation.run session).2
      connection) := by
  have settled := sound.settled connection member
  obtain ⟨itsSession, isIts, isRegistered, same⟩ := settled.connected isConnected
  rw [isHere] at isIts
  cases isIts.symm.trans present
  have atTerminal : manager.sessions.get? terminalId = (operation.run session).1 := by
    rw [sessions, if_pos rfl]
  have notElsewhere : ∀ other otherSession, other ≠ terminalId →
      manager.sessions.get? other = some otherSession →
        connection.socket ∉ otherSession.sockets := by
    intro other otherSession differs isOther isThere
    rw [sessions, if_neg differs] at isOther
    exact differs (sound.one_session isOther present isThere isRegistered)
  have appended : connection.replay ++ (connection.appended ++ operation.appended) =
      connection.received ++ (session.pendingSocketOutput ++ operation.appended) := by
    rw [← List.append_assoc, same, List.append_assoc]
  have known : connection.socket < manager.opened.length := opened ▸ settled.known
  rw [observe, if_pos isConnected, if_pos isHere]
  split
  · rename_i closes
    obtain ⟨all, gone⟩ := delivers.closed connection.socket isRegistered closes
    refine ⟨(fun contrary => by cases contrary), fun _ => ?_, (fun contrary => by cases contrary),
      fun _ other otherSession isOther => ?_, known⟩
    · dsimp only
      rw [appended, all]
    · by_cases differs : other = terminalId
      · rw [differs, atTerminal] at isOther
        exact gone otherSession isOther
      · exact notElsewhere other otherSession differs isOther
  · split
    · rename_i stays
      refine ⟨fun _ => ?_, (fun contrary => by cases contrary), (fun contrary => by cases contrary),
        fun contrary => absurd rfl contrary, known⟩
      obtain ⟨after, isAfter, isMember⟩ := registered_iff.mp stays
      refine ⟨after, isAfter, isMember, ?_⟩
      rw [isHere, atTerminal] at isAfter
      dsimp only
      rw [appended, delivers.waits _ isRegistered after isAfter isMember, List.append_assoc]
    · rename_i leaves
      refine ⟨(fun contrary => by cases contrary), (fun contrary => by cases contrary), fun _ => ?_,
        fun _ other otherSession isOther => ?_, known⟩
      · dsimp only
        rw [appended]
        exact (List.prefix_append_right_inj _).mpr (delivers.sends _ isRegistered)
      · by_cases differs : other = terminalId
        · intro isThere
          rw [differs] at isOther
          exact leaves (registered_iff.mpr ⟨otherSession, isHere ▸ isOther, isThere⟩)
        · exact notElsewhere other otherSession differs isOther

end Present

theorem mem_joined {before after : TerminalManager} {sent : Sends} {connection : Connection}
    (member : connection ∈ joined terminalId operation before after sent) :
    ∃ data, operation = .connectSocket connection.socket data ∧
      after.registered terminalId connection.socket = true ∧
      connection = { socket := connection.socket, terminalId
                     replay := ((before.sessions.get? terminalId).map retainedRawOutput).getD []
                     appended := []
                     received := received connection.socket sent
                     state := .connected } := by
  cases operation with
  | connectSocket socket data =>
    rw [joined] at member
    split at member
    · rename_i isRegistered
      cases List.mem_singleton.mp member
      exact ⟨data, rfl, isRegistered, rfl⟩
    · cases member
  | _ => cases member

theorem Sound.apply (sound : trace.Sound) (joins : trace.Joins terminalId operation) :
    (trace.apply (terminalId, operation)).Sound := by
  cases present : trace.manager.sessions.get? terminalId with
  | none =>
    rw [sound.apply_absent present]
    exact sound
  | some session =>
    obtain ⟨isSent, opened, created, sessions⟩ := @apply_present _ _ operation _ present
    have isNew : ∀ socket data, operation = .connectSocket socket data →
        socket ∉ session.sockets := by
      intro socket data isJoin isRegistered
      obtain ⟨connection, member, isSocket, _⟩ :=
        sound.registered terminalId session present socket isRegistered
      exact (joins socket data isJoin).2.2 connection member isSocket
    have delivers := run_delivers isNew
    have connections : (trace.apply (terminalId, operation)).connections =
        trace.connections.map (observe terminalId operation
          (trace.manager.apply terminalId operation).1 (operation.run session).2) ++
        joined terminalId operation trace.manager
          (trace.manager.apply terminalId operation).1 (operation.run session).2 := by
      rw [TerminalTrace.apply]
      dsimp only
      rw [isSent]
    have isManager : (trace.apply (terminalId, operation)).manager =
        (trace.manager.apply terminalId operation).1 := rfl
    rw [← isManager] at connections opened created sessions
    generalize trace.apply (terminalId, operation) = next at connections opened created sessions ⊢
    have keeps : ∀ connection ∈ trace.connections,
        (connection.state = .connected → connection.terminalId ≠ terminalId) →
        connection ∈ next.connections := by
      intro connection member elsewhere
      rw [connections]
      refine List.mem_append_left _ (List.mem_map.mpr ⟨connection, member, ?_⟩)
      exact (settled_elsewhere sound present delivers joins opened sessions member elsewhere).1
    refine ⟨?_, ?_, ?_, ?_, ?_⟩
    · intro connection member
      rw [connections] at member
      rcases List.mem_append.mp member with isObserved | isJoined
      · obtain ⟨old, isOld, rfl⟩ := List.mem_map.mp isObserved
        by_cases isHere : old.state = .connected ∧ old.terminalId = terminalId
        · exact settled_here sound present delivers opened sessions isOld isHere.1 isHere.2
        · obtain ⟨same, settled⟩ := settled_elsewhere sound present delivers joins opened
            sessions isOld fun isConnected isTerminal => isHere ⟨isConnected, isTerminal⟩
          exact same.symm ▸ settled
      · obtain ⟨data, isJoin, isRegistered, isConnection⟩ := mem_joined isJoined
        obtain ⟨after, isAfter, isMember⟩ := registered_iff.mp isRegistered
        have isResult : (operation.run session).1 = some after := by
          rw [sessions, if_pos rfl] at isAfter
          exact isAfter
        obtain ⟨nothing, replayed⟩ := delivers.joins _ data isJoin after isResult isMember
        have known := (List.getElem?_eq_some_iff.mp (joins _ data isJoin).1).1
        rw [isConnection]
        refine ⟨fun _ => ⟨after, isAfter, isMember, ?_⟩, (fun contrary => by cases contrary),
          (fun contrary => by cases contrary), fun contrary => absurd rfl contrary, ?_⟩
        · dsimp only
          rw [nothing, replayed, present, List.append_nil, List.append_nil]
          rfl
        · rw [opened]
          exact known
    · intro other otherSession isOther socket isMember
      rw [opened]
      rw [sessions] at isOther
      split at isOther
      · rename_i isHere
        rcases delivers.members otherSession isOther socket isMember with stays | ⟨data, isJoin⟩
        · exact isHere ▸ sound.opened terminalId session present socket stays
        · obtain ⟨isData, isTerminal, _⟩ := joins socket data isJoin
          exact ⟨data, isData, isTerminal.trans isHere.symm⟩
      · exact sound.opened other otherSession isOther socket isMember
    · intro other otherSession isOther
      rw [sessions] at isOther
      split at isOther
      · exact delivers.armed (sound.armed terminalId session present) otherSession isOther
      · exact sound.armed other otherSession isOther
    · intro other otherSession isOther
      rw [created]
      rw [sessions] at isOther
      split at isOther
      · rename_i isHere
        exact isHere ▸ sound.created terminalId session present
      · exact sound.created other otherSession isOther
    · intro other otherSession isOther socket isMember
      have isRegistered : next.manager.registered other socket = true :=
        registered_iff.mpr ⟨otherSession, isOther, isMember⟩
      rw [sessions] at isOther
      split at isOther
      · rename_i isHere
        subst isHere
        rcases delivers.members otherSession isOther socket isMember with stays | ⟨data, isJoin⟩
        · obtain ⟨old, isOld, rfl, isTerminal, isConnected⟩ :=
            sound.registered _ session present socket stays
          refine ⟨observe other operation next.manager (operation.run session).2 old, ?_, ?_⟩
          · rw [connections]
            exact List.mem_append_left _ (List.mem_map_of_mem isOld)
          · have opens : closedNormally old.socket (operation.run session).2 = false := by
              refine Bool.eq_false_iff.mpr fun closes => ?_
              exact (delivers.closed _ stays closes).2 otherSession isOther isMember
            rw [observe, if_pos isConnected, opens, isTerminal, isRegistered]
            exact ⟨rfl, rfl, rfl⟩
        · rw [connections, isJoin, joined, if_pos isRegistered]
          exact ⟨_, List.mem_append_right _ (List.mem_singleton_self _), rfl, rfl, rfl⟩
      · rename_i elsewhere
        obtain ⟨old, isOld, isSocket, isTerminal, isConnected⟩ :=
          sound.registered other otherSession isOther socket isMember
        exact ⟨old, keeps old isOld fun _ isHere => elsewhere (isTerminal.symm.trans isHere),
          isSocket, isTerminal, isConnected⟩

theorem Sound.enter (sound : trace.Sound) (event : TerminalEvent) : (trace.enter event).Sound := by
  cases event with
  | createTerminal ownerSessionId replayBufferBytes startupError =>
    have fresh : trace.manager.sessions.get? trace.manager.created = none := by
      refine Option.eq_none_iff_forall_ne_some.mpr fun session present => ?_
      exact Nat.lt_irrefl _ (sound.created _ session present)
    let newSession : TerminalSession :=
      { TerminalSession.new ownerSessionId replayBufferBytes with status := .running }
    have sessions : ∀ terminalId session,
        (trace.manager.sessions.set trace.manager.created newSession).get? terminalId =
          some session →
        terminalId = trace.manager.created ∧ session = newSession ∨
          trace.manager.sessions.get? terminalId = some session := by
      intro terminalId session present
      rw [OrderedMap.get?_set] at present
      split at present
      · rename_i isNew
        exact Or.inl ⟨isNew, (Option.some.inj present).symm⟩
      · exact Or.inr present
    refine ⟨?_, ?_, ?_, ?_, ?_⟩
    · intro connection member
      have settled := sound.settled connection member
      refine ⟨?_, settled.removed, settled.disconnected, ?_, settled.known⟩
      · intro isConnected
        obtain ⟨session, present, rest⟩ := settled.connected isConnected
        have differs : connection.terminalId ≠ trace.manager.created := by
          intro same
          rw [same, fresh] at present
          cases present
        exact ⟨session, (OrderedMap.get?_set_other _ _ differs).trans present, rest⟩
      · intro hasEnded terminalId session present
        rcases sessions terminalId session present with ⟨_, rfl⟩ | earlier
        · exact OrderedSet.not_mem_empty _
        · exact settled.ended hasEnded terminalId session earlier
    · intro terminalId session present socket isMember
      rcases sessions terminalId session present with ⟨_, rfl⟩ | earlier
      · exact absurd isMember (OrderedSet.not_mem_empty _)
      · exact sound.opened terminalId session earlier socket isMember
    · intro terminalId session present
      rcases sessions terminalId session present with ⟨_, rfl⟩ | earlier
      · exact armed_of_empty rfl
      · exact sound.armed terminalId session earlier
    · intro terminalId session present
      rcases sessions terminalId session present with ⟨rfl, _⟩ | earlier
      · exact Nat.lt_succ_self _
      · exact Nat.lt_succ_of_lt (sound.created terminalId session earlier)
    · intro terminalId session present socket isMember
      rcases sessions terminalId session present with ⟨_, rfl⟩ | earlier
      · exact absurd isMember (OrderedSet.not_mem_empty _)
      · exact sound.registered terminalId session earlier socket isMember
  | openSocket data =>
    refine ⟨?_, ?_, sound.armed, sound.created, sound.registered⟩
    · intro connection member
      have settled := sound.settled connection member
      refine ⟨settled.connected, settled.removed, settled.disconnected, settled.ended, ?_⟩
      change _ < (trace.manager.opened ++ [data]).length
      rw [List.length_append]
      exact Nat.lt_add_right 1 settled.known
    · intro terminalId session present socket isMember
      obtain ⟨socketData, isData, isTerminal⟩ :=
        sound.opened terminalId session present socket isMember
      refine ⟨socketData, ?_, isTerminal⟩
      change (trace.manager.opened ++ [data])[socket]? = _
      rw [List.getElem?_append_left (List.getElem?_eq_some_iff.mp isData).1]
      exact isData
  | _ => exact sound

theorem operations_join {event : TerminalEvent} {step : Nat × SessionOperation}
    (member : step ∈ trace.manager.operations event) {socket : Nat} {data : TerminalSocketData}
    (isJoin : step.2 = .connectSocket socket data) : event = .openSocket data := by
  have notGuarded : ∀ terminalId allows operation,
      step ∈ trace.manager.guarded terminalId allows operation → step.2 = operation := by
    intro terminalId allows operation isGuarded
    rw [TerminalManager.guarded] at isGuarded
    split at isGuarded
    · split at isGuarded
      · cases List.mem_singleton.mp isGuarded
        rfl
      · cases isGuarded
    · cases isGuarded
  have notClosing : ∀ allows reason terminatePtys,
      step ∈ trace.manager.closeMatchingSockets allows reason terminatePtys → False := by
    intro allows reason terminatePtys isClosing
    rw [TerminalManager.closeMatchingSockets] at isClosing
    rcases List.mem_append.mp isClosing with isFirst | isSecond
    · obtain ⟨terminalId, _, rfl⟩ := List.mem_map.mp isFirst
      cases isJoin
    · obtain ⟨entry, _, rfl⟩ := List.mem_map.mp isSecond
      cases isJoin
  cases event with
  | openSocket socketData =>
    cases List.mem_singleton.mp member
    cases isJoin
    rfl
  | createTerminal ownerSessionId replayBufferBytes startupError =>
    cases startupError with
    | none => cases member
    | some message =>
      cases List.mem_singleton.mp member
      cases isJoin
  | ptyData terminalId data =>
    cases List.mem_singleton.mp member
    cases isJoin
  | ptyExit terminalId exitCode =>
    cases List.mem_singleton.mp member
    cases isJoin
  | flushTimerFires terminalId => cases (notGuarded _ _ _ member).symm.trans isJoin
  | closeTimerFires terminalId => cases (notGuarded _ _ _ member).symm.trans isJoin
  | exitedCleanupFires terminalId => cases (notGuarded _ _ _ member).symm.trans isJoin
  | closeTerminal terminalId =>
    cases List.mem_singleton.mp member
    cases isJoin
  | closeSocket closed =>
    rw [TerminalManager.operations] at member
    split at member
    · cases List.mem_singleton.mp member
      cases isJoin
    · cases member
  | keypress pressed =>
    rw [TerminalManager.operations] at member
    split at member
    · cases (notGuarded _ _ _ member).symm.trans isJoin
    · cases member
  | closeSocketsForSession sessionId reason terminatePtys =>
    exact (notClosing _ _ _ member).elim
  | closeSocketsForUser userId reason terminatePtys => exact (notClosing _ _ _ member).elim

theorem Sound.applyAll (sound : trace.Sound) {steps : List (Nat × SessionOperation)}
    (noJoin : ∀ step ∈ steps, ∀ socket data, step.2 ≠ .connectSocket socket data) :
    (steps.foldl TerminalTrace.apply trace).Sound := by
  induction steps generalizing trace with
  | nil => exact sound
  | cons step rest ih =>
    refine ih (sound.apply ?_) fun other member => noJoin other (List.mem_cons_of_mem _ member)
    exact fun socket data isJoin => absurd isJoin (noJoin step List.mem_cons_self socket data)

theorem Sound.step (sound : trace.Sound) {event : TerminalEvent} {next : TerminalTrace}
    (stepped : terminalStep trace event = some next) : next.Sound := by
  cases stepped
  by_cases opens : ∃ data, event = .openSocket data
  · obtain ⟨data, rfl⟩ := opens
    refine (sound.enter (.openSocket data)).apply ?_
    intro socket socketData isJoin
    cases isJoin
    refine ⟨List.getElem?_concat_length, rfl, fun connection member same => ?_⟩
    exact Nat.ne_of_lt (sound.settled connection member).known same
  · refine (sound.enter event).applyAll fun step member socket data isJoin => opens ?_
    exact ⟨data, operations_join member isJoin⟩

theorem flushTimer_pending (sound : trace.Sound) {next : TerminalTrace} {session : TerminalSession}
    (stepped : terminalStep trace (.flushTimerFires terminalId) = some next)
    (present : next.manager.sessions.get? terminalId = some session) :
    session.pendingSocketOutput = [] := by
  cases stepped
  rw [TerminalManager.operations, TerminalManager.guarded] at present
  cases isBefore : trace.manager.sessions.get? terminalId with
  | none =>
    rw [isBefore] at present
    cases isBefore.symm.trans present
  | some before =>
    rw [isBefore] at present
    dsimp only at present
    split at present
    · rw [List.foldl_cons, List.foldl_nil] at present
      have atTerminal := (@apply_present trace _ .flushSocketOutput _ isBefore).2.2.2 terminalId
      rw [if_pos rfl] at atTerminal
      cases atTerminal.symm.trans present
      exact flush_pending
    · rename_i noTimer
      cases isBefore.symm.trans present
      exact Classical.not_not.mp fun waits => noTimer (sound.armed _ session isBefore waits)

theorem Sound.delivered (sound : trace.Sound) : trace.Delivered where
  connected := by
    intro connection member isConnected
    obtain ⟨session, present, isRegistered, same⟩ :=
      (sound.settled connection member).connected isConnected
    exact ⟨session, present, isRegistered, same, sound.armed _ session present⟩
  removed := fun connection member => (sound.settled connection member).removed
  disconnected := fun connection member => (sound.settled connection member).disconnected
  registered := sound.registered
  flushed := by
    intro next connection stepped member isConnected
    obtain ⟨session, present, _, same⟩ :=
      ((sound.step stepped).settled connection member).connected isConnected
    rw [same, flushTimer_pending sound stepped present, List.append_nil]

end TerminalTrace

open Transition TerminalTrace

namespace Sample

def owner : Units := units "session"

def terminalSocket : TerminalSocketData where
  terminalId := 0
  sessionId := some owner
  userId := none

def terminalEvents : List TerminalEvent :=
  [.createTerminal (some owner) 1024 none, .openSocket terminalSocket, .ptyData 0 (units "a"),
    .openSocket terminalSocket, .ptyData 0 (units "b"), .closeSocket 1, .flushTimerFires 0,
    .openSocket terminalSocket, .ptyData 0 (units "c")]

end Sample

end Metidos.Terminal
