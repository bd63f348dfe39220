import Metidos.Library.Transition
import Metidos.Terminal.TerminalCore

/-!
What a terminal socket is sent from its connection on: the replay, then the output that its session
appends, each part once and in order.
-/

namespace Metidos.Terminal

def TerminalMessage.data : TerminalMessage → Units
  | .replay data => data
  | .output data => data
  | _ => []

def TerminalMessage.closesNormally : TerminalMessage → Bool
  | .close code _ => code = TERMINAL_SOCKET_CLOSE_NORMAL
  | _ => false

@[grind =] def received (socket : Nat) : Sends → Units
  | [] => []
  | (target, message) :: rest =>
    if target = socket then message.data ++ received socket rest else received socket rest

def closedNormally (socket : Nat) (sent : Sends) : Bool :=
  sent.any fun message => message.1 = socket && message.2.closesNormally

theorem received_append (socket : Nat) (first second : Sends) :
    received socket (first ++ second) = received socket first ++ received socket second := by
  induction first with
  | nil => rfl
  | cons message rest ih =>
    obtain ⟨target, message⟩ := message
    simp only [List.cons_append, received]
    split
    · rw [ih, List.append_assoc]
    · exact ih

theorem received_nothing {socket : Nat} {sent : Sends}
    (nothing : ∀ message ∈ sent, message.1 = socket → message.2.data = []) :
    received socket sent = [] := by
  induction sent with
  | nil => rfl
  | cons message rest ih =>
    obtain ⟨target, message⟩ := message
    have later := ih fun other member => nothing other (List.mem_cons_of_mem _ member)
    rw [received]
    split
    · rename_i same
      rw [nothing _ List.mem_cons_self same, later, List.nil_append]
    · exact later

theorem received_broadcast {socket : Nat} {sockets : List Nat} (data : Units)
    (distinct : sockets.Nodup) (member : socket ∈ sockets) :
    received socket (sockets.map fun socket => (socket, .output data)) = data := by
  induction sockets with
  | nil => cases member
  | cons first rest ih =>
    obtain ⟨notLater, distinctRest⟩ := List.nodup_cons.mp distinct
    rw [List.map_cons, received]
    rcases List.mem_cons.mp member with rfl | later
    · rw [if_pos rfl, received_nothing]
      · exact List.append_nil _
      · intro message isLater same
        obtain ⟨other, isOther, rfl⟩ := List.mem_map.mp isLater
        exact absurd (same ▸ isOther) notLater
    · rw [if_neg fun same : first = socket => notLater (same ▸ later)]
      exact ih distinctRest later

theorem not_closedNormally {socket : Nat} {sent : Sends}
    (opens : ∀ message ∈ sent, message.1 = socket → message.2.closesNormally = false) :
    closedNormally socket sent = false := by
  refine List.any_eq_false.mpr fun message member closes => ?_
  obtain ⟨same, closes⟩ := Bool.and_eq_true_iff.mp closes
  rw [opens message member (of_decide_eq_true same)] at closes
  cases closes

namespace TerminalSession

variable (session : TerminalSession)

def Armed : Prop := session.pendingSocketOutput ≠ [] → session.socketFlushTimer = true

variable {session} {socket : Nat}

theorem sockets_size (member : socket ∈ session.sockets) : session.sockets.size ≠ 0 :=
  Nat.ne_of_gt (List.length_pos_of_mem member)

theorem appendOutput_pending (data : Units) (member : socket ∈ session.sockets) :
    (session.appendOutput data).pendingSocketOutput = session.pendingSocketOutput ++ data := by
  rw [appendOutput, if_neg (sockets_size member)]

theorem appendOutput_sockets (data : Units) :
    (session.appendOutput data).sockets = session.sockets := by
  rw [appendOutput]
  split
  · rfl
  · rfl

theorem appendOutput_armed (data : Units) (armed : session.Armed) :
    (session.appendOutput data).Armed := by
  rw [appendOutput]
  split
  · exact armed
  · exact fun _ => rfl

theorem flush_pending : session.flushSocketOutput.1.pendingSocketOutput = [] := by
  rw [flushSocketOutput]
  split
  · rename_i nothing
    exact nothing
  · rfl

theorem flush_sockets : session.flushSocketOutput.1.sockets = session.sockets := by
  rw [flushSocketOutput]
  split
  · rfl
  · rfl

theorem flush_buffer : session.flushSocketOutput.1.outputBuffer = session.outputBuffer := by
  rw [flushSocketOutput]
  split
  · rfl
  · rfl

theorem flush_sent {message : Nat × TerminalMessage}
    (member : message ∈ session.flushSocketOutput.2) :
    message.1 ∈ session.sockets ∧ message.2.closesNormally = false := by
  rw [flushSocketOutput] at member
  split at member
  · cases member
  · obtain ⟨socket, isSocket, rfl⟩ := List.mem_map.mp member
    exact ⟨isSocket, rfl⟩

theorem flush_received (member : socket ∈ session.sockets) :
    received socket session.flushSocketOutput.2 = session.pendingSocketOutput := by
  rw [flushSocketOutput]
  split
  · rename_i nothing
    exact nothing.symm
  · exact received_broadcast _ session.sockets.distinct member

theorem armed_of_empty (nothing : session.pendingSocketOutput = []) : session.Armed :=
  fun something => absurd nothing something

end TerminalSession

open TerminalSession

structure Delivers (before : TerminalSession) (operation : SessionOperation)
    (result : Option TerminalSession) (sent : Sends) : Prop where
  waits : ∀ socket ∈ before.sockets, ∀ after, result = some after → socket ∈ after.sockets →
    before.pendingSocketOutput ++ operation.appended =
      received socket sent ++ after.pendingSocketOutput
  closed : ∀ socket ∈ before.sockets, closedNormally socket sent = true →
    before.pendingSocketOutput ++ operation.appended = received socket sent ∧
      ∀ after, result = some after → socket ∉ after.sockets
  sends : ∀ socket ∈ before.sockets,
    received socket sent <+: before.pendingSocketOutput ++ operation.appended
  targets : ∀ message ∈ sent, message.1 ∈ before.sockets ∨
    ∃ data, operation = .connectSocket message.1 data
  members : ∀ after, result = some after → ∀ socket ∈ after.sockets,
    socket ∈ before.sockets ∨ ∃ data, operation = .connectSocket socket data
  armed : before.Armed → ∀ after, result = some after → after.Armed
  joins : ∀ socket data, operation = .connectSocket socket data →
    ∀ after, result = some after → socket ∈ after.sockets →
      after.pendingSocketOutput = [] ∧ received socket sent = before.retainedRawOutput

variable {before : TerminalSession} {operation : SessionOperation}

theorem Delivers.silent {after : TerminalSession} {sent : Sends}
    (silent : ∀ message ∈ sent, message.1 ∈ before.sockets ∧ message.2.data = [] ∧
      message.2.closesNormally = false)
    (waits : ∀ socket ∈ before.sockets, socket ∈ after.sockets →
      after.pendingSocketOutput = before.pendingSocketOutput ++ operation.appended)
    (members : ∀ socket ∈ after.sockets, socket ∈ before.sockets)
    (armed : before.Armed → after.Armed)
    (notJoin : ∀ socket data, operation ≠ .connectSocket socket data) :
    Delivers before operation (some after) sent where
  waits := by
    intro socket member _ isSome isAfter
    cases isSome
    rw [received_nothing fun message isMessage _ => (silent message isMessage).2.1,
      List.nil_append]
    exact (waits socket member isAfter).symm
  closed := by
    intro socket _ closes
    have opens := @not_closedNormally socket _
      fun message isMessage _ => (silent message isMessage).2.2
    cases opens.symm.trans closes
  sends := by
    intro socket _
    rw [received_nothing fun message isMessage _ => (silent message isMessage).2.1]
    exact List.nil_prefix
  targets := fun message member => Or.inl (silent message member).1
  members := by
    intro _ isSome socket isAfter
    cases isSome
    exact Or.inl (members socket isAfter)
  armed := by
    intro isArmed _ isSome
    cases isSome
    exact armed isArmed
  joins := fun socket data isJoin => absurd isJoin (notJoin socket data)

theorem removeSession_delivers (nothing : operation.appended = []) :
    Delivers before operation before.removeSession.1 before.removeSession.2 := by
  have receivedAll : ∀ socket ∈ before.sockets,
      received socket before.removeSession.2 = before.pendingSocketOutput := by
    intro socket member
    rw [removeSession]
    dsimp only
    rw [received_append, flush_received member, received_nothing, List.append_nil]
    intro message isMessage _
    obtain ⟨target, _, rfl⟩ := List.mem_map.mp isMessage
    rfl
  refine ⟨?_, ?_, ?_, ?_, ?_, ?_, ?_⟩
  · intro socket _ after isAfter
    cases isAfter
  · intro socket member _
    refine ⟨?_, fun after isAfter => by cases isAfter⟩
    rw [nothing, List.append_nil, receivedAll socket member]
  · intro socket member
    rw [receivedAll socket member]
    exact List.prefix_append _ _
  · intro message member
    rw [removeSession] at member
    rcases List.mem_append.mp member with isFlushed | isClose
    · exact Or.inl (flush_sent isFlushed).1
    · obtain ⟨target, isTarget, rfl⟩ := List.mem_map.mp isClose
      exact Or.inl isTarget
  · intro after isAfter
    cases isAfter
  · intro _ after isAfter
    cases isAfter
  · intro socket data _ after isAfter
    cases isAfter

theorem flush_delivers : Delivers before .flushSocketOutput
    (some before.flushSocketOutput.1) before.flushSocketOutput.2 := by
  refine ⟨?_, ?_, ?_, ?_, ?_, ?_, ?_⟩
  · intro socket member _ isAfter _
    cases isAfter
    rw [flush_received member, flush_pending]
    rfl
  · intro socket _ closes
    have opens := @not_closedNormally socket before.flushSocketOutput.2
      fun message isMessage _ => (flush_sent isMessage).2
    cases opens.symm.trans closes
  · intro socket member
    rw [flush_received member]
    exact List.prefix_append _ _
  · exact fun message member => Or.inl (flush_sent member).1
  · intro _ isAfter socket member
    cases isAfter
    rw [flush_sockets] at member
    exact Or.inl member
  · intro _ _ isAfter
    cases isAfter
    exact armed_of_empty flush_pending
  · intro socket data isJoin
    cases isJoin

theorem append_delivers {data : Units} {after : TerminalSession}
    (isData : operation.appended = data)
    (notJoin : ∀ socket data, operation ≠ .connectSocket socket data)
    (sockets : after.sockets = before.sockets)
    (pending : after.pendingSocketOutput = (before.appendOutput data).pendingSocketOutput)
    (timer : after.socketFlushTimer = (before.appendOutput data).socketFlushTimer) :
    Delivers before operation (some after) [] := by
  refine Delivers.silent (fun message member => by cases member) ?_ ?_ ?_ notJoin
  · intro socket member _
    rw [pending, appendOutput_pending data member, isData]
  · intro socket member
    exact sockets ▸ member
  · intro armed
    rw [Armed, pending, timer]
    exact appendOutput_armed data armed

theorem clearPending_armed : before.clearPendingSocketOutput.Armed := armed_of_empty rfl

theorem disconnectSocket_delivers (socket : Nat) (data : TerminalSocketData) :
    Delivers before (.disconnectSocket socket data) (some (before.disconnectSocket socket data))
      [] := by
  refine Delivers.silent (fun message member => by cases member) ?_ ?_ ?_
    (fun _ _ isJoin => by cases isJoin)
  · intro other _ stays
    rw [disconnectSocket] at stays ⊢
    split at stays
    · rename_i access
      rw [if_pos access]
      dsimp only at stays ⊢
      split at stays
      · rename_i isEmpty
        exact absurd isEmpty (sockets_size stays)
      · rename_i notEmpty
        rw [if_neg notEmpty]
        exact (List.append_nil _).symm
    · rename_i noAccess
      rw [if_neg noAccess]
      exact (List.append_nil _).symm
  · intro other stays
    rw [disconnectSocket] at stays
    split at stays
    · dsimp only at stays
      split at stays
      · exact ((OrderedSet.mem_delete _ _ _).mp stays).2
      · exact ((OrderedSet.mem_delete _ _ _).mp stays).2
    · exact stays
  · intro armed
    rw [disconnectSocket]
    split
    · dsimp only
      split
      · exact clearPending_armed
      · exact armed
    · exact armed

theorem mem_foldl_delete {closed : List Nat} {sockets : OrderedSet Nat} {socket : Nat}
    (stays : socket ∈ closed.foldl OrderedSet.delete sockets) : socket ∈ sockets := by
  induction closed generalizing sockets with
  | nil => exact stays
  | cons first rest ih => exact ((OrderedSet.mem_delete _ _ _).mp (ih stays)).2

theorem closeMatchingSockets_delivers (matched : Nat → Bool) (reason : Units)
    (terminatePtys : Bool) :
    Delivers before (.closeMatchingSockets matched reason terminatePtys)
      (some (before.closeMatchingSockets matched reason terminatePtys).1)
      (before.closeMatchingSockets matched reason terminatePtys).2 := by
  refine Delivers.silent ?_ ?_ ?_ ?_ (fun _ _ isJoin => by cases isJoin)
  · intro message member
    rw [closeMatchingSockets] at member
    dsimp only at member
    split at member
    · cases member
    · have isClose : message ∈ (before.sockets.elements.filter matched).map fun socket =>
          (socket, TerminalMessage.close TERMINAL_SOCKET_CLOSE_POLICY_VIOLATION reason) := by
        split at member
        · exact member
        · exact member
      obtain ⟨socket, isSocket, rfl⟩ := List.mem_map.mp isClose
      exact ⟨List.mem_of_mem_filter isSocket, rfl, rfl⟩
  · intro socket _ stays
    rw [closeMatchingSockets] at stays ⊢
    dsimp only at stays ⊢
    split at stays
    · rename_i nothing
      rw [if_pos nothing]
      exact (List.append_nil _).symm
    · rename_i something
      rw [if_neg something]
      split at stays
      · rename_i isEmpty
        rw [Bool.and_eq_true, decide_eq_true_eq] at isEmpty
        exact absurd isEmpty.2 (sockets_size stays)
      · rename_i notEmpty
        rw [if_neg notEmpty]
        exact (List.append_nil _).symm
  · intro socket stays
    rw [closeMatchingSockets] at stays
    dsimp only at stays
    split at stays
    · exact stays
    · split at stays
      · exact mem_foldl_delete stays
      · exact mem_foldl_delete stays
  · intro armed
    rw [closeMatchingSockets]
    dsimp only
    split
    · exact armed
    · split
      · exact clearPending_armed
      · exact armed

theorem closeSession_delivers (fromKeypress : Bool) :
    Delivers before (.closeSession fromKeypress) (before.closeSession fromKeypress).1
      (before.closeSession fromKeypress).2 := by
  rw [closeSession]
  split
  · exact removeSession_delivers rfl
  · exact Delivers.silent (fun message member => by cases member)
      (fun _ _ _ => (List.append_nil _).symm) (fun _ stays => stays) (fun armed => armed)
      (fun _ _ isJoin => by cases isJoin)

theorem connectSocket_delivers {socket : Nat} (data : TerminalSocketData)
    (isNew : socket ∉ before.sockets) :
    Delivers before (.connectSocket socket data) (some (before.connectSocket socket data).1)
      (before.connectSocket socket data).2 := by
  rw [connectSocket]
  split
  · dsimp only
    let replay : Sends := if before.retainedRawOutput = [] then []
      else [(socket, .replay before.retainedRawOutput)]
    have sameBuffer : { before.flushSocketOutput.1 with
        sockets := before.flushSocketOutput.1.sockets.add socket }.retainedRawOutput =
          before.retainedRawOutput := by
      rw [retainedRawOutput, flush_buffer, retainedRawOutput]
    rw [sameBuffer]
    change Delivers before _ _ (before.flushSocketOutput.2 ++ (socket, .ready) :: replay)
    have toSocket : ∀ message ∈ (socket, TerminalMessage.ready) :: replay,
        message.1 = socket ∧ message.2.closesNormally = false := by
      intro message member
      rcases List.mem_cons.mp member with rfl | isReplay
      · exact ⟨rfl, rfl⟩
      · dsimp only [replay] at isReplay
        split at isReplay
        · cases isReplay
        · cases List.mem_singleton.mp isReplay
          exact ⟨rfl, rfl⟩
    have others : ∀ other ∈ before.sockets,
        received other (before.flushSocketOutput.2 ++ (socket, .ready) :: replay) =
          before.pendingSocketOutput := by
      intro other member
      rw [received_append, flush_received member, received_nothing, List.append_nil]
      intro message isMessage same
      rw [(toSocket message isMessage).1] at same
      exact absurd (same ▸ member) isNew
    have opens : ∀ other, closedNormally other
        (before.flushSocketOutput.2 ++ (socket, .ready) :: replay) = false := by
      intro other
      refine not_closedNormally fun message isMessage _ => ?_
      rcases List.mem_append.mp isMessage with isFlushed | isNewMessage
      · exact (flush_sent isFlushed).2
      · exact (toSocket message isNewMessage).2
    refine ⟨?_, ?_, ?_, ?_, ?_, ?_, ?_⟩
    · intro other member _ isAfter _
      cases isAfter
      rw [others other member]
      dsimp only
      rw [flush_pending]
      rfl
    · intro other _ closes
      cases (opens other).symm.trans closes
    · intro other member
      rw [others other member]
      exact List.prefix_append _ _
    · intro message isMessage
      rcases List.mem_append.mp isMessage with isFlushed | isNewMessage
      · exact Or.inl (flush_sent isFlushed).1
      · exact Or.inr ⟨data, by rw [(toSocket message isNewMessage).1]⟩
    · intro _ isAfter other stays
      cases isAfter
      rcases (OrderedSet.mem_add _ _ _).mp stays with rfl | earlier
      · exact Or.inr ⟨data, rfl⟩
      · rw [flush_sockets] at earlier
        exact Or.inl earlier
    · intro _ _ isAfter
      cases isAfter
      exact armed_of_empty flush_pending
    · intro other otherData isJoin _ isAfter _
      cases isJoin
      cases isAfter
      refine ⟨flush_pending, ?_⟩
      rw [received_append, received_nothing, List.nil_append, received, if_pos rfl]
      · dsimp only [replay]
        split
        · rename_i nothing
          exact nothing.symm
        · rw [received, if_pos rfl]
          exact List.append_nil _
      · intro message isFlushed same
        exact absurd (same ▸ (flush_sent isFlushed).1) isNew
  · have silent : ∀ message ∈ refusal socket,
        message.1 = socket ∧ message.2.data = [] ∧ message.2.closesNormally = false := by
      intro message member
      cases List.mem_singleton.mp member
      exact ⟨rfl, rfl, rfl⟩
    refine ⟨?_, ?_, ?_, ?_, ?_, ?_, ?_⟩
    · intro other _ _ isAfter _
      cases isAfter
      rw [received_nothing fun message isMessage _ => (silent message isMessage).2.1]
      exact List.append_nil _
    · intro other _ closes
      have opens := @not_closedNormally other _ fun message isMessage _ =>
        (silent message isMessage).2.2
      cases opens.symm.trans closes
    · intro other _
      rw [received_nothing fun message isMessage _ => (silent message isMessage).2.1]
      exact List.nil_prefix
    · intro message isMessage
      exact Or.inr ⟨data, by rw [(silent message isMessage).1]⟩
    · intro _ isAfter other stays
      cases isAfter
      exact Or.inl stays
    · intro armed _ isAfter
      cases isAfter
      exact armed
    · intro other otherData isJoin _ isAfter stays
      cases isJoin
      cases isAfter
      exact absurd stays isNew

theorem run_delivers (isNew : ∀ socket data, operation = .connectSocket socket data →
    socket ∉ before.sockets) :
    Delivers before operation (operation.run before).1 (operation.run before).2 := by
  cases operation with
  | appendOutput data =>
    exact append_delivers rfl (fun _ _ isJoin => by cases isJoin) (appendOutput_sockets data)
      rfl rfl
  | failToStart data =>
    refine @append_delivers _ _ data _ rfl (fun _ _ isJoin => by cases isJoin) ?_ ?_ ?_
    · exact @appendOutput_sockets { before with status := .error } data
    · rw [appendOutput, appendOutput]
      split
      · rfl
      · rfl
    · rw [appendOutput, appendOutput]
      split
      · rfl
      · rfl
  | handleExit exitCode =>
    refine @append_delivers _ _ (exitLabel exitCode) _ rfl (fun _ _ isJoin => by cases isJoin)
      ?_ ?_ ?_
    · exact @appendOutput_sockets { before with
        closeTimer := false, status := .exited, waitingForKeyToClose := true } _
    · rw [handleExit, appendOutput, appendOutput]
      split
      · rfl
      · rfl
    · rw [handleExit, appendOutput, appendOutput]
      split
      · rfl
      · rfl
  | flushSocketOutput => exact flush_delivers
  | connectSocket socket data => exact connectSocket_delivers data (isNew socket data rfl)
  | disconnectSocket socket data => exact disconnectSocket_delivers socket data
  | closeMatchingSockets matched reason terminatePtys =>
    exact closeMatchingSockets_delivers matched reason terminatePtys
  | closeSession fromKeypress => exact closeSession_delivers fromKeypress
  | removeSession => exact removeSession_delivers rfl

end Metidos.Terminal
