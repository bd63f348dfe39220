import Metidos.Plugin.WebSocketRegistry

/-!
Runs of the registry of WebSocket connections: the limits on connections and queues, the order of
delivery and the records of failed connects, where no step meets a condition under which the code
breaks them.
-/

namespace Metidos.Plugin

open Transition

variable {context : PluginWebSocketContext}

abbrev isMessage (event : PluginWebSocketEvent) : Bool := !event.isTerminal

namespace WebSocketRecord

structure QueueBounded (context : PluginWebSocketContext) (record : WebSocketRecord) : Prop where
  messages : record.queue.countP isMessage ≤ context.queuedMessages
  terminals : record.queue.countP PluginWebSocketEvent.isTerminal ≤ 1

theorem queueBounded_nil {record : WebSocketRecord} (empty : record.queue = []) : QueueBounded context record := by
  constructor
  · rw [empty]
    exact Nat.zero_le _
  · rw [empty]
    exact Nat.zero_le _

def InOrder (record : WebSocketRecord) : Prop :=
  ∃ taken rest, record.kept = taken ++ rest ∧
    (record.delivered = taken ∨
      rest = [] ∧ ∃ event, event.isTerminal = true ∧ record.delivered = taken ++ [event])

def NothingLost (record : WebSocketRecord) : Prop :=
  record.delivered ++ record.queue.takeWhile isMessage = record.kept

def Failed (record : WebSocketRecord) : Prop := ∃ error, record.outcome = some (.error error)

structure Good (context : PluginWebSocketContext) (record : WebSocketRecord) : Prop where
  bounded : QueueBounded context record
  inOrder : record.InOrder
  nothingLost : record.registered = true → record.NothingLost
  oneTerminal : record.delivered.countP PluginWebSocketEvent.isTerminal ≤ 1
  failed : record.Failed → record.registered = false

structure Sound (context : PluginWebSocketContext) (record : WebSocketRecord) : Prop where
  bounded : QueueBounded context record
  inOrder : record.InOrder
  nothingLost : record.registered = true → record.NothingLost
  failed : record.Failed → record.registered = false
  messagesKept : ∀ event ∈ record.kept, event.isTerminal = false
  waiting : record.receive = true → record.queue = [] ∧ record.finalEvent = none ∧
    (record.registered = true ∨ record.dropped = true)
  unfinished : record.finalEvent = none →
    ∀ event ∈ record.queue ++ record.delivered, event.isTerminal = false
  finished : record.registered = true → record.finalEvent ≠ none →
    ∃ event ∈ record.queue, event.isTerminal = true

/-- The queue of the record takes the event: no terminal entry is there when one is added, by the
event or by an overflow. -/
def Admits (context : PluginWebSocketContext) (record : WebSocketRecord) (terminal : Bool) : Prop :=
  record.dropped = false → record.receive = false →
    terminal = true ∨ context.queuedMessages ≤ record.queue.length →
      ∀ event ∈ record.queue, event.isTerminal = false

variable {record : WebSocketRecord} {event : PluginWebSocketEvent}

theorem takeWhile_messages {queue : List PluginWebSocketEvent}
    (messages : ∀ event ∈ queue, event.isTerminal = false) (event : PluginWebSocketEvent) :
    (queue ++ [event]).takeWhile isMessage = queue ++ [event].takeWhile isMessage :=
  List.takeWhile_append_of_pos fun event member => by simp [messages event member]

theorem takeWhile_all {queue : List PluginWebSocketEvent}
    (messages : ∀ event ∈ queue, event.isTerminal = false) : queue.takeWhile isMessage = queue :=
  List.takeWhile_eq_self_iff.mpr fun event member => by simp [messages event member]

theorem takeWhile_append_of_terminal {queue : List PluginWebSocketEvent}
    (found : ∃ event ∈ queue, event.isTerminal = true) (event : PluginWebSocketEvent) :
    (queue ++ [event]).takeWhile isMessage = queue.takeWhile isMessage := by
  obtain ⟨terminal, member, isTerminal⟩ := found
  induction queue with
  | nil => exact absurd member List.not_mem_nil
  | cons first rest ih =>
    rw [List.cons_append, List.takeWhile_cons, List.takeWhile_cons]
    split
    · rename_i isFirst
      have later : terminal ∈ rest := by
        rcases List.mem_cons.mp member with rfl | later
        · simp [isTerminal] at isFirst
        · exact later
      rw [ih later]
    · rfl

theorem Sound.oneTerminal (sound : Sound context record) :
    record.delivered.countP PluginWebSocketEvent.isTerminal ≤ 1 := by
  obtain ⟨taken, rest, kept, delivered⟩ := sound.inOrder
  have none' : taken.countP PluginWebSocketEvent.isTerminal = 0 := by
    rw [List.countP_eq_zero]
    intro event member
    simp [sound.messagesKept event (kept ▸ List.mem_append_left rest member)]
  rcases delivered with isTaken | ⟨-, event, -, isTaken⟩
  · rw [isTaken, none']
    exact Nat.zero_le 1
  · rw [isTaken, List.countP_append, none', Nat.zero_add]
    exact List.countP_le_length

theorem Sound.good (sound : Sound context record) : Good context record :=
  ⟨sound.bounded, sound.inOrder, sound.nothingLost, sound.oneTerminal, sound.failed⟩

theorem newRecord_sound (id : Nat) (url : Url) (timeoutMs : Nat) :
    Sound context (Registry.newRecord id url timeoutMs) where
  bounded := ⟨Nat.zero_le _, Nat.zero_le _⟩
  inOrder := ⟨[], [], rfl, Or.inl rfl⟩
  nothingLost := fun _ => rfl
  failed := nofun
  messagesKept := nofun
  waiting := nofun
  unfinished := fun _ => nofun
  finished := fun _ some' => absurd rfl some'

theorem Sound.frame {changed : WebSocketRecord} (sound : Sound context record)
    (queue : changed.queue = record.queue) (finalEvent : changed.finalEvent = record.finalEvent)
    (delivered : changed.delivered = record.delivered) (kept : changed.kept = record.kept)
    (registered : changed.registered = true → record.registered = true)
    (receive : changed.receive = true → record.receive = true ∧
      (changed.registered = true ∨ changed.dropped = true))
    (failed : changed.Failed → changed.registered = false) : Sound context changed where
  bounded := ⟨queue ▸ sound.bounded.messages, queue ▸ sound.bounded.terminals⟩
  inOrder := by
    rw [InOrder, delivered, kept]
    exact sound.inOrder
  nothingLost := by
    intro isRegistered
    rw [NothingLost, delivered, kept, queue]
    exact sound.nothingLost (registered isRegistered)
  failed := failed
  messagesKept := kept ▸ sound.messagesKept
  waiting := by
    intro isWaiting
    obtain ⟨was, owner⟩ := receive isWaiting
    rw [queue, finalEvent]
    exact ⟨(sound.waiting was).1, (sound.waiting was).2.1, owner⟩
  unfinished := by
    rw [queue, finalEvent, delivered]
    exact sound.unfinished
  finished := by
    intro isRegistered
    rw [queue, finalEvent]
    exact sound.finished (registered isRegistered)

theorem keptWith_terminal (terminal : event.isTerminal = true) :
    record.keptWith event = record.kept := by
  simp [keptWith, terminal]

theorem keptWith_unfinished (message : event.isTerminal = false)
    (unfinished : record.finalEvent = none) :
    record.keptWith event = record.kept ++ [event] := by
  simp [keptWith, message, unfinished]

theorem keptWith_finished (finished : record.finalEvent ≠ none) :
    record.keptWith event = record.kept := by
  simp [keptWith, Option.isSome_iff_ne_none.mpr finished]

theorem Sound.pushTerminal (sound : Sound context record) (terminal : event.isTerminal = true)
    (notWaiting : record.receive = false)
    (messages : ∀ event ∈ record.queue, event.isTerminal = false) :
    Sound context
      { record with finalEvent := some event, queue := record.queue ++ [event] } where
  bounded := by
    have none' : record.queue.countP PluginWebSocketEvent.isTerminal = 0 :=
      List.countP_eq_zero.mpr fun event member => by simp [messages event member]
    constructor
    · rw [List.countP_append, List.countP_singleton, isMessage, terminal]
      exact sound.bounded.messages
    · rw [List.countP_append, none', Nat.zero_add]
      exact List.countP_le_length
  inOrder := sound.inOrder
  nothingLost := by
    intro isRegistered
    have before := sound.nothingLost isRegistered
    rw [NothingLost, takeWhile_all messages] at before
    rw [NothingLost]
    simp only [takeWhile_messages messages, List.takeWhile_cons, isMessage, terminal,
      Bool.not_true, Bool.false_eq_true, if_false, List.append_nil]
    exact before
  failed := sound.failed
  messagesKept := sound.messagesKept
  waiting := fun isWaiting => absurd (notWaiting.symm.trans isWaiting) Bool.false_ne_true
  unfinished := nofun
  finished := fun _ _ => ⟨event, List.mem_append_right _ (List.mem_singleton_self event), terminal⟩

theorem Sound.pushMessage (sound : Sound context record) (message : event.isTerminal = false)
    (notWaiting : record.receive = false) (room : record.queue.length < context.queuedMessages) :
    Sound context
      { record with queue := record.queue ++ [event], kept := record.keptWith event } where
  bounded := by
    have fewer : record.queue.countP isMessage ≤ record.queue.length := List.countP_le_length
    constructor
    · rw [List.countP_append, List.countP_singleton, isMessage, message]
      simp only [Bool.not_false, if_true]
      omega
    · rw [List.countP_append, List.countP_singleton, message]
      exact sound.bounded.terminals
  inOrder := by
    obtain ⟨taken, rest, kept, delivered⟩ := sound.inOrder
    by_cases unfinished : record.finalEvent = none
    · refine ⟨taken, rest ++ [event], ?_, Or.inl ?_⟩
      · rw [keptWith_unfinished message unfinished, kept, List.append_assoc]
      · rcases delivered with isTaken | ⟨-, last, terminal, isTaken⟩
        · exact isTaken
        · have inDelivered : last ∈ record.queue ++ record.delivered := by simp [isTaken]
          exact absurd (sound.unfinished unfinished last inDelivered) (by simp [terminal])
    · exact ⟨taken, rest, (keptWith_finished unfinished).trans kept, delivered⟩
  nothingLost := by
    intro isRegistered
    have before := sound.nothingLost isRegistered
    rw [NothingLost] at before ⊢
    by_cases unfinished : record.finalEvent = none
    · have messages : ∀ event ∈ record.queue, event.isTerminal = false := fun event member =>
        sound.unfinished unfinished event (List.mem_append_left _ member)
      rw [takeWhile_all messages] at before
      simp only [takeWhile_messages messages, keptWith_unfinished message unfinished, ← before,
        List.takeWhile_cons, isMessage, message, Bool.not_false, if_true, List.takeWhile_nil,
        List.append_assoc]
    · simp only [takeWhile_append_of_terminal (sound.finished isRegistered unfinished),
        keptWith_finished unfinished]
      exact before
  failed := sound.failed
  messagesKept := by
    intro other member
    dsimp only [keptWith] at member
    split at member
    · exact sound.messagesKept other member
    · rcases List.mem_append.mp member with older | isEvent
      · exact sound.messagesKept other older
      · exact List.mem_singleton.mp isEvent ▸ message
  waiting := fun isWaiting => absurd (notWaiting.symm.trans isWaiting) Bool.false_ne_true
  unfinished := by
    intro unfinished other member
    simp only [List.append_assoc, List.mem_append, List.mem_singleton] at member
    rcases member with inQueue | rfl | inDelivered
    · exact sound.unfinished unfinished other (List.mem_append_left _ inQueue)
    · exact message
    · exact sound.unfinished unfinished other (List.mem_append_right _ inDelivered)
  finished := by
    intro isRegistered finished
    obtain ⟨other, member, terminal⟩ := sound.finished isRegistered finished
    exact ⟨other, List.mem_append_left _ member, terminal⟩

theorem Sound.hand (sound : Sound context record) (isWaiting : record.receive = true)
    (live : record.dropped = false) (final : Option PluginWebSocketEvent)
    (isFinal : event.isTerminal = true → final ≠ none)
    (unchanged : event.isTerminal = false → final = none) :
    Sound context
      { record with
        finalEvent := final
        receive := false
        delivered := record.delivered ++ [event]
        kept := record.keptWith event
        registered := record.registered && !event.isTerminal } := by
  obtain ⟨empty, unfinished, owner⟩ := sound.waiting isWaiting
  have isRegistered : record.registered = true :=
    owner.resolve_right fun dropped => absurd (live.symm.trans dropped) Bool.false_ne_true
  have before : record.delivered = record.kept := by
    simpa [NothingLost, empty] using sound.nothingLost isRegistered
  have kept : record.keptWith event = record.kept ++ (if event.isTerminal then [] else [event]) := by
    split
    · rename_i terminal
      rw [keptWith_terminal terminal, List.append_nil]
    · rename_i message
      exact keptWith_unfinished (Bool.eq_false_iff.mpr message) unfinished
  have messages : ∀ other ∈ record.keptWith event, other.isTerminal = false := by
    intro other member
    rw [kept] at member
    rcases List.mem_append.mp member with older | isEvent
    · exact sound.messagesKept other older
    · split at isEvent
      · exact absurd isEvent List.not_mem_nil
      · rename_i message
        exact List.mem_singleton.mp isEvent ▸ Bool.eq_false_iff.mpr message
  exact
    { bounded := queueBounded_nil empty
      inOrder := by
        cases terminal : event.isTerminal with
        | true =>
          refine ⟨record.kept, [], ?_, Or.inr ⟨rfl, event, terminal, ?_⟩⟩
          · simp [kept, terminal]
          · simp [before]
        | false =>
          refine ⟨record.kept ++ [event], [], ?_, Or.inl ?_⟩
          · simp [kept, terminal]
          · simp [before]
      nothingLost := by
        intro still
        have message : event.isTerminal = false := by
          simpa [isRegistered] using still
        simp [NothingLost, empty, before, kept, message]
      failed := by
        intro failed
        simp [sound.failed failed]
      messagesKept := messages
      waiting := nofun
      unfinished := by
        intro unfinished other member
        have message : event.isTerminal = false := by
          by_contra terminal
          exact isFinal (Bool.eq_true_of_not_eq_false terminal) unfinished
        simp only [empty, List.nil_append, before, List.mem_append, List.mem_singleton] at member
        rcases member with older | rfl
        · exact sound.messagesKept other older
        · exact message
      finished := by
        intro still finished
        have message : event.isTerminal = false := by
          simpa [isRegistered] using still
        exact absurd (unchanged message) finished }

theorem Sound.enqueue (sound : Sound context record) (message : event.isTerminal = false)
    (live : record.dropped = false) (admits : Admits context record false) :
    Sound context (record.enqueue context event) := by
  rw [WebSocketRecord.enqueue]
  split
  · rename_i isWaiting
    have unfinished := (sound.waiting isWaiting).2.1
    exact sound.hand isWaiting live _ (fun terminal => absurd (message.symm.trans terminal)
      Bool.false_ne_true) fun _ => unfinished
  · rename_i notWaiting
    have idle := Bool.eq_false_iff.mpr notWaiting
    split
    · rename_i full
      exact sound.pushTerminal rfl idle (admits live idle (Or.inr full))
    · rename_i room
      exact sound.pushMessage message idle (Nat.lt_of_not_le room)

theorem Sound.finish (sound : Sound context record) (terminal : event.isTerminal = true)
    (live : record.dropped = false) (admits : Admits context record true) :
    Sound context (record.finish context event) := by
  rw [WebSocketRecord.finish, WebSocketRecord.enqueue, keptWith_terminal terminal]
  dsimp only
  split
  · rename_i isWaiting
    have handed := sound.hand isWaiting live (some event)
      (fun _ => Option.some_ne_none event) fun message =>
        absurd (terminal.symm.trans message) (by decide)
    rw [keptWith_terminal terminal] at handed
    exact handed
  · rename_i notWaiting
    have idle := Bool.eq_false_iff.mpr notWaiting
    have messages := admits live idle (Or.inl rfl)
    split
    · exact sound.pushTerminal rfl idle messages
    · exact sound.pushTerminal terminal idle messages

theorem Sound.onOpen (sound : Sound context record) : Sound context record.onOpen := by
  rw [WebSocketRecord.onOpen]
  split
  · exact sound
  · exact sound.frame rfl rfl rfl rfl (fun same => same) (fun isWaiting => ⟨isWaiting, (sound.waiting isWaiting).2.2⟩)
      nofun

theorem Sound.onMessage (sound : Sound context record) {text : String}
    (admits : Admits context record
      (decide (context.messageBytes < text.utf8ByteSize))) :
    Sound context (record.onMessage context text) := by
  rw [WebSocketRecord.onMessage]
  split
  · exact sound
  · rename_i dropped
    have live := Bool.eq_false_iff.mpr dropped
    rw [messageEventFromData]
    split
    · rename_i event isMessage
      split at isMessage
      · exact absurd isMessage nofun
      · rename_i small
        rw [decide_eq_false small] at admits
        exact Except.ok.inj isMessage ▸ sound.enqueue rfl live admits
    · rename_i message isError
      split at isError
      · rename_i large
        rw [decide_eq_true large] at admits
        exact sound.finish rfl live admits
      · exact absurd isError nofun

theorem Sound.onClose (sound : Sound context record) {code : Nat} {reason : String}
    (admits : Admits context record true) :
    Sound context (record.onClose context code reason) := by
  rw [WebSocketRecord.onClose]
  split
  · exact sound
  · rename_i dropped
    have closed : Sound context { record with state := .closed } :=
      sound.frame rfl rfl rfl rfl (fun same => same) (fun isWaiting =>
        ⟨isWaiting, (sound.waiting isWaiting).2.2⟩) sound.failed
    exact closed.finish rfl (Bool.eq_false_iff.mpr dropped) admits

theorem Sound.onError (sound : Sound context record) {text : Option String}
    (admits : record.outcome ≠ none → Admits context record true) :
    Sound context (record.onError context text) := by
  rw [WebSocketRecord.onError]
  split
  · exact sound.frame rfl rfl rfl rfl nofun (fun isWaiting => ⟨isWaiting, Or.inr rfl⟩) fun _ => rfl
  · rename_i settled
    split
    · exact sound
    · rename_i dropped
      exact sound.finish rfl (Bool.eq_false_iff.mpr dropped)
        (admits fun isNone => settled (Option.isNone_iff_eq_none.mpr isNone))

theorem Sound.onConnectTimeout (sound : Sound context record)
    (gone : record.outcome = none → record.registered = false) :
    Sound context (record.onConnectTimeout context) := by
  rw [WebSocketRecord.onConnectTimeout]
  split
  · exact sound
  · rename_i unsettled
    have isNone : record.outcome = none := by simpa using unsettled
    exact sound.frame rfl rfl rfl rfl (fun same => same) (fun isWaiting =>
      ⟨isWaiting, (sound.waiting isWaiting).2.2⟩) fun _ => gone isNone

theorem Sound.consume (sound : Sound context record) (isRegistered : record.registered = true)
    {rest : List PluginWebSocketEvent} (queue : record.queue = event :: rest) :
    Sound context ({ record with queue := rest }.consumeEvent event) := by
  have before := sound.nothingLost isRegistered
  rw [NothingLost, queue, List.takeWhile_cons] at before
  have idle : record.receive = false := by
    by_contra isWaiting
    have empty := (sound.waiting (Bool.eq_true_of_not_eq_false isWaiting)).1
    exact absurd (queue.symm.trans empty) (List.cons_ne_nil event rest)
  exact
    { bounded := by
        have messages := sound.bounded.messages
        have terminals := sound.bounded.terminals
        rw [queue, List.countP_cons] at messages terminals
        exact ⟨Nat.le_trans (Nat.le_add_right _ _) messages,
          Nat.le_trans (Nat.le_add_right _ _) terminals⟩
      inOrder := by
        cases terminal : event.isTerminal with
        | true =>
          simp only [isMessage, terminal, Bool.not_true, Bool.false_eq_true, if_false,
            List.append_nil] at before
          exact ⟨record.delivered, [], by simp [consumeEvent, before],
            Or.inr ⟨rfl, event, terminal, rfl⟩⟩
        | false =>
          simp only [isMessage, terminal, Bool.not_false, if_true] at before
          exact ⟨record.delivered ++ [event], rest.takeWhile isMessage,
            by simp [consumeEvent, ← before], Or.inl rfl⟩
      nothingLost := by
        intro still
        have message : event.isTerminal = false := by
          simpa [consumeEvent, isRegistered] using still
        simp only [isMessage, message, Bool.not_false, if_true] at before
        simpa [NothingLost, consumeEvent] using before
      failed := by
        intro failed
        simp [consumeEvent, sound.failed failed]
      messagesKept := sound.messagesKept
      waiting := fun isWaiting => absurd (idle.symm.trans isWaiting) Bool.false_ne_true
      unfinished := by
        intro unfinished other member
        have within : other ∈ record.queue ++ record.delivered := by
          simp only [consumeEvent, List.mem_append, List.mem_singleton] at member
          simp only [queue, List.mem_append, List.mem_cons]
          tauto
        exact sound.unfinished unfinished other within
      finished := by
        intro still finished
        have message : event.isTerminal = false := by
          simpa [consumeEvent, isRegistered] using still
        obtain ⟨other, member, terminal⟩ := sound.finished isRegistered finished
        rw [queue] at member
        rcases List.mem_cons.mp member with rfl | later
        · exact absurd (message.symm.trans terminal) Bool.false_ne_true
        · exact ⟨other, later, terminal⟩ }

theorem Sound.receiveCall (sound : Sound context record) (isRegistered : record.registered = true) :
    Sound context record.receiveCall.2 := by
  rw [WebSocketRecord.receiveCall]
  split
  · rename_i queue
    exact sound.consume isRegistered queue
  · rename_i event empty isFinal
    have finished : record.finalEvent ≠ none := by simp [isFinal]
    obtain ⟨other, member, -⟩ := sound.finished isRegistered finished
    exact absurd (empty ▸ member) List.not_mem_nil
  · rename_i empty unfinished
    split
    · exact sound
    · exact
        { bounded := ⟨sound.bounded.messages, sound.bounded.terminals⟩
          inOrder := sound.inOrder
          nothingLost := sound.nothingLost
          failed := sound.failed
          messagesKept := sound.messagesKept
          waiting := fun _ => ⟨empty, unfinished, Or.inl isRegistered⟩
          unfinished := sound.unfinished
          finished := sound.finished }

theorem Sound.onReceiveTimeout (sound : Sound context record) :
    Sound context record.onReceiveTimeout :=
  sound.frame rfl rfl rfl rfl (fun same => same) nofun sound.failed

theorem Sound.closeCall (sound : Sound context record) : Sound context record.closeCall :=
  sound.frame rfl rfl rfl rfl (fun same => same) (fun isWaiting => ⟨isWaiting, (sound.waiting isWaiting).2.2⟩)
    sound.failed

theorem Sound.shutDown (sound : Sound context record) : Sound context record.shutDown := by
  rw [WebSocketRecord.shutDown]
  split
  · exact sound.frame rfl rfl rfl rfl nofun nofun fun _ => rfl
  · exact sound

end WebSocketRecord

namespace WebSocketRecord

variable {record : WebSocketRecord}

theorem isActive_iff (record : WebSocketRecord) :
    record.isActive = true ↔ record.registered = true ∧ record.state ≠ .closed := by
  simp [isActive]

theorem enqueue_isActive {event : PluginWebSocketEvent}
    (active : (record.enqueue context event).isActive = true) : record.isActive = true := by
  rw [isActive_iff] at active ⊢
  rw [enqueue] at active
  split at active
  · exact ⟨(Bool.and_eq_true_iff.mp active.1).1, active.2⟩
  · split at active
    · exact active
    · exact active

theorem finish_isActive {event : PluginWebSocketEvent}
    (active : (record.finish context event).isActive = true) : record.isActive = true := by
  have noted := @enqueue_isActive context { record with finalEvent := some event } event active
  exact noted

theorem onMessage_isActive {text : String}
    (active : (record.onMessage context text).isActive = true) : record.isActive = true := by
  rw [onMessage] at active
  split at active
  · exact active
  · split at active
    · exact enqueue_isActive active
    · exact finish_isActive active

theorem onClose_isActive {code : Nat} {reason : String}
    (active : (record.onClose context code reason).isActive = true) : record.isActive = true := by
  rw [onClose] at active
  split at active
  · exact active
  · have closed := (isActive_iff _).mp (finish_isActive active)
    exact absurd rfl closed.2

theorem onError_isActive {text : Option String}
    (active : (record.onError context text).isActive = true) : record.isActive = true := by
  rw [onError] at active
  split at active
  · exact absurd ((isActive_iff _).mp active).1 Bool.false_ne_true
  · split at active
    · exact active
    · exact finish_isActive active

theorem onOpen_isActive (open' : record.state ≠ .closed)
    (active : record.onOpen.isActive = true) : record.isActive = true := by
  rw [onOpen] at active
  split at active
  · exact active
  · exact (isActive_iff record).mpr ⟨((isActive_iff _).mp active).1, open'⟩

theorem onConnectTimeout_isActive
    (active : (record.onConnectTimeout context).isActive = true) : record.isActive = true := by
  rw [onConnectTimeout] at active
  split at active <;> exact active

theorem receiveCall_isActive (active : record.receiveCall.2.isActive = true) :
    record.isActive = true := by
  rw [isActive_iff] at active ⊢
  rw [receiveCall] at active
  split at active
  · exact ⟨(Bool.and_eq_true_iff.mp active.1).1, active.2⟩
  · exact ⟨(Bool.and_eq_true_iff.mp active.1).1, active.2⟩
  · split at active <;> exact active

theorem closeCall_isActive (active : record.closeCall.isActive = true) :
    record.isActive = true := by
  rw [isActive_iff] at active ⊢
  refine ⟨active.1, fun closed => active.2 ?_⟩
  simp [closeCall, closed]

theorem shutDown_isActive (active : record.shutDown.isActive = true) : record.isActive = true := by
  rw [shutDown] at active
  split at active
  · exact absurd ((isActive_iff _).mp active).1 Bool.false_ne_true
  · exact active

end WebSocketRecord

namespace Registry

variable {registry next : Registry}

structure Good (context : PluginWebSocketContext) (registry : Registry) : Prop where
  connections : registry.activeConnectionCount ≤ context.connectionLimit
  records : ∀ record ∈ registry.records, record.Good context

structure Sound (context : PluginWebSocketContext) (registry : Registry) : Prop where
  connections : registry.activeConnectionCount ≤ context.connectionLimit
  records : ∀ record ∈ registry.records, record.Sound context

/-- A step under which the limits hold: a socket is dialed while there is room for it, no connect
call times out while its record is in the map, and no second terminal entry is queued. -/
def Clean (context : PluginWebSocketContext) (registry : Registry) : Event → Prop
  | .dial _ (.dialed _) => registry.activeConnectionCount < context.connectionLimit
  | .connectTimeout id => ∀ record ∈ registry.records, record.id = id → record.outcome = none →
      record.registered = false
  | .message id text => ∀ record ∈ registry.records, record.id = id →
      record.Admits context (decide (context.messageBytes < text.utf8ByteSize))
  | .closed id _ _ => ∀ record ∈ registry.records, record.id = id → record.Admits context true
  | .errored id _ => ∀ record ∈ registry.records, record.id = id → record.outcome ≠ none →
      record.Admits context true
  | _ => True

theorem initial_sound (context : PluginWebSocketContext) : Sound context initial :=
  ⟨Nat.zero_le _, fun _ member => absurd member List.not_mem_nil⟩

theorem Sound.mapRecords (sound : Sound context registry) (change : WebSocketRecord → WebSocketRecord)
    (keeps : ∀ record ∈ registry.records, record.Sound context → (change record).Sound context)
    (quiet : ∀ record, (change record).isActive = true → record.isActive = true) :
    Sound context { registry with records := registry.records.map change } where
  connections := by
    refine Nat.le_trans ?_ sound.connections
    rw [activeConnectionCount, List.countP_map]
    exact List.countP_mono_left fun record _ active => quiet record active
  records := by
    intro changed member
    obtain ⟨record, inRecords, rfl⟩ := List.mem_map.mp member
    exact keeps record inRecords (sound.records record inRecords)

theorem Sound.update (sound : Sound context registry) {id : Nat}
    {change : WebSocketRecord → WebSocketRecord}
    (keeps : ∀ record ∈ registry.records, record.id = id → record.Sound context →
      (change record).Sound context)
    (quiet : ∀ record, (change record).isActive = true → record.isActive = true) :
    Sound context (registry.update id change) := by
  refine sound.mapRecords _ (fun record member isSound => ?_) fun record active => ?_
  · split
    · rename_i same
      exact keeps record member same isSound
    · exact isSound
  · split at active
    · exact quiet record active
    · exact active

theorem Sound.updateConnection (sound : Sound context registry) {id : Nat}
    {change : WebSocketRecord → WebSocketRecord}
    (keeps : ∀ record : WebSocketRecord, record.registered = true → record.Sound context →
      (change record).Sound context)
    (quiet : ∀ record, (change record).isActive = true → record.isActive = true) :
    Sound context (registry.updateConnection id change) := by
  refine sound.update (fun record _ _ isSound => ?_) fun record active => ?_
  · split
    · rename_i isRegistered
      exact keeps record isRegistered isSound
    · exact isSound
  · split at active
    · exact quiet record active
    · exact active

theorem Sound.dial (sound : Sound context registry) {url : Url} {timeoutMs : Nat}
    {dialing : List Url} (room : registry.activeConnectionCount < context.connectionLimit) :
    Sound context
      { nextId := registry.nextId + 1
        dialing
        records := registry.records ++ [newRecord registry.nextId url timeoutMs] } where
  connections := by
    rw [activeConnectionCount, List.countP_append, List.countP_singleton]
    simp only [activeConnectionCount] at room
    split <;> omega
  records := by
    intro record member
    rcases List.mem_append.mp member with older | isNew
    · exact sound.records record older
    · exact List.mem_singleton.mp isNew ▸ WebSocketRecord.newRecord_sound _ _ _

theorem Sound.step {event : Event} (sound : Sound context registry)
    (clean : Clean context registry event) (stepped : step context registry event = some next) :
    Sound context next := by
  cases event with
  | connect url =>
    simp only [Registry.step] at stepped
    split at stepped
    · exact Option.some.inj stepped ▸ ⟨sound.connections, sound.records⟩
    · exact Option.some.inj stepped ▸ sound
  | dial index outcome =>
    obtain ⟨url, -, rfl⟩ := Option.map_eq_some_iff.mp stepped
    cases outcome with
    | refused => exact ⟨sound.connections, sound.records⟩
    | threw => exact ⟨sound.connections, sound.records⟩
    | dialed timeoutMs => exact sound.dial clean
  | connectTimeout id =>
    obtain ⟨-, -, rfl⟩ := Option.map_eq_some_iff.mp stepped
    exact sound.update (fun record member same isSound =>
      isSound.onConnectTimeout (clean record member same)) fun _ => WebSocketRecord.onConnectTimeout_isActive
  | opened id =>
    obtain ⟨-, -, rfl⟩ := Option.map_eq_some_iff.mp stepped
    refine sound.update (fun record _ _ isSound => ?_) fun record active => ?_
    · split
      · exact isSound
      · exact isSound.onOpen
    · split at active
      · exact active
      · rename_i open'
        exact WebSocketRecord.onOpen_isActive open' active
  | message id text =>
    obtain ⟨-, -, rfl⟩ := Option.map_eq_some_iff.mp stepped
    exact sound.update (fun record member same isSound =>
      isSound.onMessage (clean record member same)) fun _ => WebSocketRecord.onMessage_isActive
  | closed id code reason =>
    obtain ⟨-, -, rfl⟩ := Option.map_eq_some_iff.mp stepped
    exact sound.update (fun record member same isSound =>
      isSound.onClose (clean record member same)) fun _ => WebSocketRecord.onClose_isActive
  | errored id text =>
    obtain ⟨-, -, rfl⟩ := Option.map_eq_some_iff.mp stepped
    exact sound.update (fun record member same isSound =>
      isSound.onError (clean record member same)) fun _ => WebSocketRecord.onError_isActive
  | receive id =>
    obtain rfl := Option.some.inj stepped
    exact sound.updateConnection (fun record isRegistered isSound =>
      isSound.receiveCall isRegistered) fun _ => WebSocketRecord.receiveCall_isActive
  | receiveTimeout id =>
    obtain ⟨record, -, stepped⟩ := Option.bind_eq_some_iff.mp stepped
    split at stepped
    · obtain rfl := Option.some.inj stepped
      exact sound.update (fun record _ _ isSound => isSound.onReceiveTimeout) fun _ active => active
    · exact absurd stepped nofun
  | close id =>
    obtain rfl := Option.some.inj stepped
    exact sound.updateConnection (fun record _ isSound => isSound.closeCall)
      fun _ => WebSocketRecord.closeCall_isActive
  | closeAll =>
    obtain rfl := Option.some.inj stepped
    exact sound.mapRecords _ (fun record _ isSound => isSound.shutDown) fun _ => WebSocketRecord.shutDown_isActive

theorem Sound.good (sound : Sound context registry) : Good context registry :=
  ⟨sound.connections, fun record member => (sound.records record member).good⟩

/-- In every run of clean steps the connections stay within their limits, the messages are delivered
in their order, and failed connects leave nothing behind. -/
theorem clean_runs_good {context : PluginWebSocketContext} {registry : Registry}
    (reached : Reaches (step context) (Clean context) initial registry) :
    Good context registry := by
  have sound := reached.invariant (Sound context) (initial_sound context)
    fun before event after sound clean stepped => sound.step clean stepped
  exact sound.good

instance decidableAdmits (context : PluginWebSocketContext) (record : WebSocketRecord)
    (terminal : Bool) : Decidable (record.Admits context terminal) :=
  inferInstanceAs (Decidable (_ → _ → _ → _))

instance decidableClean (context : PluginWebSocketContext) (registry : Registry) :
    (event : Event) → Decidable (Clean context registry event)
  | .dial _ (.dialed _) => inferInstanceAs (Decidable (_ < _))
  | .dial _ .refused | .dial _ .threw | .connect _ | .opened _ | .receive _ | .receiveTimeout _
  | .close _ | .closeAll => inferInstanceAs (Decidable True)
  | .connectTimeout id => inferInstanceAs (Decidable (∀ record ∈ registry.records,
      record.id = id → record.outcome = none → record.registered = false))
  | .message id text => inferInstanceAs (Decidable (∀ record ∈ registry.records, record.id = id →
      record.Admits context (decide (context.messageBytes < text.utf8ByteSize))))
  | .closed id _ _ => inferInstanceAs (Decidable (∀ record ∈ registry.records, record.id = id →
      record.Admits context true))
  | .errored id _ => inferInstanceAs (Decidable (∀ record ∈ registry.records, record.id = id →
      record.outcome ≠ none → record.Admits context true))

namespace Sample

def socketPattern : Url where
  protocol := .wss
  username := []
  password := []
  hostname := units "10.0.0.1"
  writtenPort := none
  pathname := units "/**"
  bracketed := Or.inl (by decide)
  hosted := by decide
  rooted := by decide

def socketContext : PluginWebSocketContext where
  maxConnections := some 1
  maxMessageBytes := none
  maxQueuedMessages := none
  network := some { webSocketAllow := [units "wss://10.0.0.1/**"], enforceHttps := none }
  permissions := ["network:websocket"]
  parseUrl := fun text =>
    if text = units "wss://10.0.0.1/**" then some socketPattern
    else if text = units "wss://10.0.0.1/a" then
      some { socketPattern with pathname := units "/a", rooted := by decide }
    else none
  diagnosticUrl := fun _ => "wss://10.0.0.1/a"

def deliveredEvents : List Event :=
  [.connect (units "wss://10.0.0.1/a"), .dial 0 (.dialed 1000), .opened 1, .receive 1,
    .message 1 "a", .closed 1 1000 "", .receive 1]

def timedOutEvents : List Event :=
  [.connect (units "wss://10.0.0.1/a"), .dial 0 (.dialed 1000), .connectTimeout 1]

end Sample

theorem clean_runs_good_delivered : ∃ registry : Registry,
    (registry.records.any fun record => record.delivered = [.message "a", .close 1000 ""]) = true ∧
      Good Sample.socketContext registry := by
  have ran : ((run (step Sample.socketContext)
      (fun registry event => decide (Clean Sample.socketContext registry event)) initial
      Sample.deliveredEvents).any fun registry => registry.records.any fun record =>
        record.delivered = [.message "a", .close 1000 ""]) = true := by decide +kernel
  obtain ⟨registry, isRun, delivered⟩ := (Option.any_eq_true _ _).mp ran
  have clean := (reaches_of_run isRun).weaken fun _ _ => of_decide_eq_true
  exact ⟨registry, delivered, clean_runs_good clean⟩

theorem timed_out_connect_left : ¬ ∀ registry : Registry,
    Reaches (step Sample.socketContext) Unrestricted initial registry → Good Sample.socketContext registry := by
  have ran : ((run (step Sample.socketContext) (fun _ _ => true) initial Sample.timedOutEvents).any
      fun registry => registry.records.any fun record =>
        record.registered && record.outcome.any fun outcome => !outcome.isOk) = true := by
    decide +kernel
  obtain ⟨registry, isRun, left⟩ := (Option.any_eq_true _ _).mp ran
  obtain ⟨record, member, isLeft⟩ := List.any_eq_true.mp left
  rw [Bool.and_eq_true] at isLeft
  obtain ⟨outcome, isOutcome, failed⟩ := (Option.any_eq_true _ _).mp isLeft.2
  intro always
  have good := (always registry (reaches_of_run isRun).unrestricted).records record member
  cases outcome with
  | ok value => exact absurd failed Bool.false_ne_true
  | error error =>
    exact absurd (isLeft.1.symm.trans (good.failed ⟨error, isOutcome⟩)) (by decide)

end Registry

end Metidos.Plugin
