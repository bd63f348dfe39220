import Metidos.Library.OrderedMap
import Metidos.Library.Transition

/-!
The buffered writer of thread activities, `src/bun/project-procedures/thread-activity-persistence.ts`,
and the batch upsert of `src/bun/db.ts` that it ends in.  Flushes run one after the other on one
promise chain; each waits for its input builders between the choice of the due entries and the
write.
-/

namespace Metidos.Thread

abbrev Text := List Char

inductive MessageRole
  | assistant
  | user
  deriving DecidableEq

structure ThreadActivityInput where
  threadId : Nat
  itemId : Text
  role : Option MessageRole
  kind : Text
  text : Text
  state : Option Text
  payloadJson : Option Text
  deriving DecidableEq

abbrev ActivityKey := Nat × Text

def ThreadActivityInput.key (input : ThreadActivityInput) : ActivityKey :=
  (input.threadId, input.itemId)

structure ThreadMessage where
  id : Nat
  threadId : Nat
  role : MessageRole
  kind : Text
  itemId : Option Text
  text : Text
  state : Option Text
  payloadJson : Option Text
  deriving DecidableEq

structure ThreadMessages where
  rows : List ThreadMessage
  sequence : Nat
  deriving DecidableEq

namespace ThreadMessage

def hasKey (row : ThreadMessage) (key : ActivityKey) : Bool :=
  row.threadId = key.1 && row.itemId = some key.2

def put (row : ThreadMessage) (input : ThreadActivityInput) : ThreadMessage :=
  { row with
    role := input.role.getD .assistant
    kind := input.kind
    text := input.text
    state := input.state
    payloadJson := input.payloadJson }

end ThreadMessage

namespace ThreadMessages

variable (messages : ThreadMessages)

def findThreadActivityMessageId (key : ActivityKey) : Option Nat :=
  ((messages.rows.filter (·.hasKey key)).map ThreadMessage.id).max?

def updateThreadActivityById (messageId : Nat) (input : ThreadActivityInput) :
    ThreadMessages × Bool :=
  ({ messages with
      rows := messages.rows.map fun row => if row.id = messageId then row.put input else row },
    messages.rows.any fun row => row.id = messageId)

def insertThreadActivity (input : ThreadActivityInput) : ThreadMessages × Nat :=
  ({ rows := messages.rows ++ [{
        id := messages.sequence
        threadId := input.threadId
        role := input.role.getD .assistant
        kind := input.kind
        itemId := some input.itemId
        text := input.text
        state := input.state
        payloadJson := input.payloadJson }]
     sequence := messages.sequence + 1 },
    messages.sequence)

end ThreadMessages

structure ThreadActivityPersistInput where
  input : ThreadActivityInput
  messageId : Option Nat
  deriving DecidableEq

structure UpsertState where
  messages : ThreadMessages
  resolvedMessageIds : List Nat
  messageIdByActivity : Option (OrderedMap ActivityKey Nat)

def UpsertState.knownMessageId (state : UpsertState) (persist : ThreadActivityPersistInput) :
    Option Nat :=
  match persist.messageId with
  | some messageId => some messageId
  | none => state.messageIdByActivity.bind fun known => known.get? persist.input.key

def upsertThreadActivity (state : UpsertState) (persist : ThreadActivityPersistInput) :
    ThreadMessages × Nat :=
  match state.knownMessageId persist with
  | some messageId =>
    match state.messages.updateThreadActivityById messageId persist.input with
    | (updated, true) => (updated, messageId)
    | (_, false) => state.messages.insertThreadActivity persist.input
  | none =>
    match state.messages.findThreadActivityMessageId persist.input.key with
    | some messageId =>
      ((state.messages.updateThreadActivityById messageId persist.input).1, messageId)
    | none => state.messages.insertThreadActivity persist.input

def upsertStep (state : UpsertState) (persist : ThreadActivityPersistInput) : UpsertState :=
  let (messages, messageId) := upsertThreadActivity state persist
  { messages
    resolvedMessageIds := state.resolvedMessageIds ++ [messageId]
    messageIdByActivity :=
      match persist.messageId, state.messageIdByActivity with
      | none, none => some (OrderedMap.empty.set persist.input.key messageId)
      | _, some known => some (known.set persist.input.key messageId)
      | some _, none => none }

def upsertThreadActivities (messages : ThreadMessages)
    (inputs : List ThreadActivityPersistInput) : ThreadMessages × List Nat :=
  let finish := inputs.foldl upsertStep
    { messages, resolvedMessageIds := [], messageIdByActivity := none }
  (finish.messages, finish.resolvedMessageIds)

/-- An entry of the buffer, with the inputs that its builder resolves to. -/
structure BufferedThreadActivityWrite where
  buildInputs : List ThreadActivityInput
  lastPersistedAt : Int
  lastPersistedSignature : Option Text
  messageIds : List (Option Nat)
  persisted : Bool
  signature : Text
  terminal : Bool
  deriving DecidableEq

def BufferedThreadActivityWrite.signatureChanged (entry : BufferedThreadActivityWrite) : Bool :=
  !entry.persisted || entry.lastPersistedSignature ≠ some entry.signature

structure DueEntry where
  activityId : Text
  signatureChanged : Bool
  inputs : List ThreadActivityInput
  deriving DecidableEq

structure QueuedWrite where
  activityId : Text
  signature : Text
  inputs : List ThreadActivityInput
  deriving DecidableEq

/-- A flush on the chain, with its number and the number of writes queued when it was put there. -/
structure FlushLink where
  number : Nat
  force : Bool
  flushAll : Bool
  queuedBefore : Nat
  deriving DecidableEq

inductive FlushOutcome
  | flushed
  | failed (due : List Text)
  | skipped
  deriving DecidableEq

/-- The writer and the table, with all writes queued so far, the newest first, the flushes that have
settled and the calls of `flushAll` that have returned or thrown. -/
structure WriterState where
  entries : OrderedMap Text BufferedThreadActivityWrite
  flushTimer : Bool
  enqueued : Nat
  pending : List FlushLink
  running : Option (FlushLink × List DueEntry)
  rejected : Bool
  messages : ThreadMessages
  queued : List QueuedWrite
  settled : List (FlushLink × FlushOutcome)
  returned : List (FlushLink × FlushOutcome)
  deriving DecidableEq

def WriterState.initial (messages : ThreadMessages) : WriterState where
  entries := .empty
  flushTimer := false
  enqueued := 0
  pending := []
  running := none
  rejected := false
  messages := messages
  queued := []
  settled := []
  returned := []

namespace WriterState

variable (state : WriterState)

def scheduleFlush : WriterState :=
  if state.flushTimer || state.entries.size = 0 then state else { state with flushTimer := true }

def clearFlushTimer : WriterState := { state with flushTimer := false }

def enqueueFlush (force flushAll : Bool) : WriterState :=
  { state with
    enqueued := state.enqueued + 1
    pending := state.pending ++
      [{ number := state.enqueued, force, flushAll, queuedBefore := state.queued.length }] }

def freshEntry (signature : Text) (inputs : List ThreadActivityInput) :
    BufferedThreadActivityWrite where
  buildInputs := inputs
  lastPersistedAt := 0
  lastPersistedSignature := none
  messageIds := []
  persisted := false
  signature := signature
  terminal := false

def queue (activityId signature : Text) (inputs : List ThreadActivityInput)
    (force terminal : Bool) : WriterState :=
  let entry := (state.entries.get? activityId).getD (freshEntry signature inputs)
  let queued := { state with
    entries := state.entries.set activityId
      { entry with buildInputs := inputs, signature := signature, terminal := terminal }
    queued := { activityId, signature, inputs } :: state.queued }
  if force || terminal then queued.clearFlushTimer.enqueueFlush true false
  else queued.scheduleFlush

def isDue (flushIntervalMs timestamp : Int) (force : Bool)
    (entry : BufferedThreadActivityWrite) : Bool :=
  force || !entry.persisted || entry.terminal ||
    timestamp - entry.lastPersistedAt ≥ flushIntervalMs

def dueEntries (flushIntervalMs timestamp : Int) (force : Bool) : List DueEntry :=
  state.entries.entries.filterMap fun (activityId, entry) =>
    if isDue flushIntervalMs timestamp force entry then
      some { activityId, signatureChanged := entry.signatureChanged, inputs := entry.buildInputs }
    else none

def flattenedInputs (due : List DueEntry) : List ThreadActivityPersistInput :=
  (due.filter DueEntry.signatureChanged).flatMap fun dueEntry =>
    let messageIds := ((state.entries.get? dueEntry.activityId).map
      BufferedThreadActivityWrite.messageIds).getD []
    dueEntry.inputs.mapIdx fun index input =>
      { input, messageId := (messageIds[index]?).join }

def putMessageIds (entries : OrderedMap Text BufferedThreadActivityWrite) :
    List DueEntry → List Nat → OrderedMap Text BufferedThreadActivityWrite
  | [], _ => entries
  | dueEntry :: rest, messageIds =>
    putMessageIds
      (entries.modify dueEntry.activityId fun entry =>
        { entry with
          messageIds := dueEntry.inputs.mapIdx fun index _ => messageIds[index]? })
      rest (messageIds.drop dueEntry.inputs.length)

/-- The marks of a flush that has written: the signature that the entry has by now counts as
persisted, and an entry that is terminal by now is dropped. -/
def markPersisted (persistedAt : Int) (entries : OrderedMap Text BufferedThreadActivityWrite)
    (dueEntry : DueEntry) : OrderedMap Text BufferedThreadActivityWrite :=
  match entries.get? dueEntry.activityId with
  | none => entries
  | some entry =>
    if entry.terminal then entries.delete dueEntry.activityId
    else
      entries.set dueEntry.activityId
        { entry with
          lastPersistedSignature :=
            if dueEntry.signatureChanged then some entry.signature
            else entry.lastPersistedSignature
          lastPersistedAt := persistedAt
          persisted := true }

def finishFlush (persistedAt : Int) (due : List DueEntry) : WriterState :=
  let inputs := state.flattenedInputs due
  let written :=
    if inputs = [] then state
    else
      let (messages, messageIds) := upsertThreadActivities state.messages inputs
      { state with
        messages := messages
        entries := putMessageIds state.entries (due.filter DueEntry.signatureChanged) messageIds }
  let marked := { written with entries := due.foldl (markPersisted persistedAt) written.entries }
  marked.scheduleFlush

def settle (link : FlushLink) (outcome : FlushOutcome) : WriterState :=
  { state with settled := (link, outcome) :: state.settled }

end WriterState

inductive WriterEvent
  | queue (activityId signature : Text) (inputs : List ThreadActivityInput) (force terminal : Bool)
  | flushAll
  | timerFires
  | flushStarts (timestamp : Int)
  | flushFinishes (persistedAt : Int)
  | flushFails
  | flushSkipped
  | flushAllReturns
  deriving DecidableEq

/-- One step of the writer.  A flush fails when a builder rejects or the transaction throws, which
leaves the table as it was; a chain that has failed runs no flush any more. -/
@[grind =]
def writerStep (flushIntervalMs : Int) (state : WriterState) : WriterEvent → Option WriterState
  | .queue activityId signature inputs force terminal =>
    some (state.queue activityId signature inputs force terminal)
  | .flushAll => some (state.clearFlushTimer.enqueueFlush true true)
  | .timerFires =>
    if state.flushTimer then some (state.clearFlushTimer.enqueueFlush false false) else none
  | .flushStarts timestamp =>
    match state.rejected, state.running, state.pending with
    | false, none, link :: rest =>
      some { state with
        pending := rest
        running := some (link, state.dueEntries flushIntervalMs timestamp link.force) }
    | _, _, _ => none
  | .flushFinishes persistedAt =>
    state.running.map fun (link, due) =>
      ({ state with running := none }.finishFlush persistedAt due).settle link .flushed
  | .flushFails =>
    state.running.map fun (link, due) =>
      { state with running := none, rejected := true }.settle link
        (.failed (due.map DueEntry.activityId))
  | .flushSkipped =>
    match state.rejected, state.running, state.pending with
    | true, none, link :: rest => some ({ state with pending := rest }.settle link .skipped)
    | _, _, _ => none
  | .flushAllReturns =>
    match state.settled.find? (fun entry => entry.1.flushAll && entry ∉ state.returned) with
    | some entry => some { state with flushTimer := false, returned := entry :: state.returned }
    | none => none

end Metidos.Thread
