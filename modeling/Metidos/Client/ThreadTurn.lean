import Metidos.Client.ThreadStoreSpec

/-!
Sending a message and stopping a run, up to the answer of the server: `sendThreadTurn` of
`src/mainview/thread-send.ts` and `stopSelectedThreadTurn` of
`src/mainview/app/use-thread-turn-controller.ts`. `upsertThread` is one upsert of the store, and
the draft and the images are those under the key of the composer.
-/

namespace Metidos.Client

open JsText

structure ChatImage where
  id : Text
  data : Text
  mimeType : Text
  deriving DecidableEq

structure SentImage where
  data : Text
  mimeType : Text
  deriving DecidableEq

structure TranscriptMessage where
  id : Int
  threadId : Nat
  text : Text
  images : List SentImage
  createdAt : Text
  deriving DecidableEq

/-- `draft` is `none` until the draft is initialised. -/
structure TurnState where
  store : ThreadStore
  threadMessages : List TranscriptMessage
  draft : Option Text
  images : List ChatImage
  selectedThreadId : Option Nat
  selectedThreadRunState : RunState
  chatError : Text
  isSending : Bool
  isStoppingThread : Bool
  optimisticThreadMessageId : Int
  deriving DecidableEq

namespace TurnState

def readChatComposerDraft (state : TurnState) (fallback : Text) : Text :=
  state.draft.getD fallback

def setChatComposerDraft (state : TurnState) (draft : Text) : TurnState :=
  { state with draft := some draft }

def setChatComposerImageAttachments (state : TurnState) (images : List ChatImage) : TurnState :=
  { state with images }

def upsertThread (context : StoreContext) (state : TurnState) (thread : RpcThread) : TurnState :=
  { state with store := upsertThreadStore context state.store thread }

end TurnState

def defaultPromptForChatImages (count : Nat) : Text :=
  if count = 1 then "Describe this image.".toList else "Describe these images.".toList

def resolveChatPromptText (text : Text) (imageCount : Nat) : Text :=
  let trimmed := trim text
  if trimmed ≠ [] then trimmed
  else if 0 < imageCount then defaultPromptForChatImages imageCount
  else []

/-- What a turn is started with, `startedAt` being the time of the client. -/
structure SendOptions where
  initialChatInput : Text
  selectedThreadIsWorking : Bool
  canCreateThread : Bool
  modelSupportsImages : Bool
  pendingImageReads : Nat
  startedAt : Text
  deriving DecidableEq

structure SendAttempt where
  text : Text
  optimisticStartedAt : Text
  optimisticMessageId : Int
  previousThread : Option RpcThread
  sendingThreadId : Option Nat
  targetThread : Option RpcThread
  pendingImages : List ChatImage
  deriving DecidableEq

def CREATE_OR_SELECT_MESSAGE : Text :=
  "Create or select a thread before sending a message.".toList

/-- Up to the wait for the images that are still being read. The thread of the last render is the
one in the store. -/
def sendThreadTurn (state : TurnState) (options : SendOptions) : TurnState × Option SendAttempt :=
  let text := trim (state.readChatComposerDraft options.initialChatInput)
  if state.isSending ∨ options.selectedThreadIsWorking then (state, none)
  else if text = [] ∧ options.pendingImageReads = 0 ∧ state.images = [] then (state, none)
  else
    let initialThreadId := state.selectedThreadId.filter (0 < ·)
    if initialThreadId = none ∧ ¬options.canCreateThread then
      ({ state with chatError := CREATE_OR_SELECT_MESSAGE }, none)
    else
      let previousThread := initialThreadId.bind state.store.byId.get?
      ({ state with
          optimisticThreadMessageId := state.optimisticThreadMessageId - 1
          isSending := true
          chatError := [] },
        some
          { text, optimisticStartedAt := options.startedAt,
            optimisticMessageId := state.optimisticThreadMessageId, previousThread,
            sendingThreadId := initialThreadId, targetThread := previousThread,
            pendingImages := state.images })

def composeTurn (state : TurnState) (options : SendOptions) (attempt : SendAttempt) :
    TurnState × Option SendAttempt :=
  let pendingImages := state.images
  if resolveChatPromptText attempt.text pendingImages.length = [] then
    ({ state with isSending := false }, none)
  else if pendingImages ≠ [] ∧ ¬options.modelSupportsImages then
    ({ state with
        isSending := false
        chatError := "Current model does not support images.".toList }, none)
  else
    ((state.setChatComposerDraft []).setChatComposerImageAttachments [],
      some { attempt with pendingImages })

def threadCreated (context : StoreContext) (state : TurnState) (attempt : SendAttempt)
    (created : RpcThread) : TurnState × SendAttempt :=
  (state.upsertThread context created,
    { attempt with sendingThreadId := some created.id, targetThread := some created })

def sendingThread (thread : RpcThread) (startedAt : Text) : RpcThread :=
  { thread with
    updatedAt := startedAt
    runStatus :=
      { thread.runStatus with
        state := .working
        startedAt := some startedAt
        updatedAt := some startedAt
        error := none
        hasUnreadError := false } }

def applyOptimisticSend (context : StoreContext) (state : TurnState) (attempt : SendAttempt)
    (requestThreadId : Nat) : TurnState :=
  let shouldApply := state.selectedThreadId = some requestThreadId
  let shown :=
    if shouldApply then
      { state with
        threadMessages := state.threadMessages ++
          [{ id := attempt.optimisticMessageId, threadId := requestThreadId,
             text := resolveChatPromptText attempt.text attempt.pendingImages.length,
             images := attempt.pendingImages.map fun image => ⟨image.data, image.mimeType⟩,
             createdAt := attempt.optimisticStartedAt }] }
    else state
  match attempt.targetThread with
  | none => shown
  | some targetThread =>
    { shown with
      selectedThreadRunState :=
        if shouldApply then .working else shown.selectedThreadRunState }.upsertThread context
      (sendingThread targetThread attempt.optimisticStartedAt)

def removeOptimisticThreadMessageById (messages : List TranscriptMessage) (messageId : Int) :
    List TranscriptMessage :=
  messages.filter fun message => message.id ≠ messageId

def restoreComposer (state : TurnState) (attempt : SendAttempt) : TurnState :=
  let withDraft :=
    if state.readChatComposerDraft [] = [] then state.setChatComposerDraft attempt.text else state
  if withDraft.images = [] then withDraft.setChatComposerImageAttachments attempt.pendingImages
  else withDraft

def failsInSelection (state : TurnState) (attempt : SendAttempt) : Bool :=
  match attempt.sendingThreadId with
  | none => true
  | some requestedThreadId => state.selectedThreadId = some requestedThreadId

def rollBackSelection (context : StoreContext) (state : TurnState) (attempt : SendAttempt)
    (error : Text) : TurnState :=
  let removed :=
    { state with
      threadMessages :=
        removeOptimisticThreadMessageById state.threadMessages attempt.optimisticMessageId
      chatError := error }
  match attempt.previousThread with
  | none => removed
  | some previousThread =>
    { removed with
      selectedThreadRunState := previousThread.runStatus.state }.upsertThread context
      previousThread

def failSend (context : StoreContext) (state : TurnState) (attempt : SendAttempt) (error : Text) :
    TurnState :=
  let failed :=
    if failsInSelection state attempt then rollBackSelection context state attempt error else state
  { restoreComposer failed attempt with isSending := false }

def STOPPED_MESSAGE : Text := "Thread run was stopped by the user.".toList

def stoppedThread (thread : RpcThread) (stoppedAt : Text) : RpcThread :=
  { thread with
    updatedAt := stoppedAt
    runStatus :=
      { thread.runStatus with
        state := .stopped
        updatedAt := some stoppedAt
        error := some STOPPED_MESSAGE
        hasUnreadError := false } }

structure StopAttempt where
  threadId : Nat
  previousThread : Option RpcThread
  deriving DecidableEq

def stopSelectedThreadTurn (context : StoreContext) (state : TurnState)
    (selectedThreadIsWorking : Bool) (stoppedAt : Text) : TurnState × Option StopAttempt :=
  match state.selectedThreadId.filter (0 < ·) with
  | none => (state, none)
  | some threadId =>
    if ¬selectedThreadIsWorking ∨ state.isStoppingThread then (state, none)
    else
      let stopping := { state with isStoppingThread := true, chatError := [] }
      match state.store.byId.get? threadId with
      | none => (stopping, some ⟨threadId, none⟩)
      | some previousThread =>
        ({ stopping with selectedThreadRunState := .stopped }.upsertThread context
            (stoppedThread previousThread stoppedAt),
          some ⟨threadId, some previousThread⟩)

def failStop (context : StoreContext) (state : TurnState) (attempt : StopAttempt) (error : Text) :
    TurnState :=
  let rolledBack :=
    match attempt.previousThread with
    | none => state
    | some previousThread =>
      let restored := state.upsertThread context previousThread
      if state.selectedThreadId = some previousThread.id then
        { restored with selectedThreadRunState := previousThread.runStatus.state }
      else restored
  { rolledBack with
    isStoppingThread := false
    chatError :=
      if rolledBack.selectedThreadId = some attempt.threadId then error else rolledBack.chatError }

/-- What may change while a request is under way, other than the thread and the composer: the
selection, and with it the transcript that is shown. -/
structure Meanwhile where
  selectedThreadId : Option Nat
  selectedThreadRunState : RunState
  threadMessages : List TranscriptMessage
  deriving DecidableEq

def TurnState.meanwhile (state : TurnState) (change : Meanwhile) : TurnState :=
  { state with
    selectedThreadId := change.selectedThreadId
    selectedThreadRunState := change.selectedThreadRunState
    threadMessages := change.threadMessages }

inductive FailedTurn
  | creation (options : SendOptions) (creating : Meanwhile) (error : Text)
  | createdSend (options : SendOptions) (creating : Meanwhile) (created : RpcThread)
      (sending : Meanwhile) (error : Text)
  | send (options : SendOptions) (sending : Meanwhile) (error : Text)
  | stop (selectedThreadIsWorking : Bool) (stoppedAt : Text) (stopping : Meanwhile) (error : Text)
  deriving DecidableEq

def composedTurn (state : TurnState) (options : SendOptions) : Option (TurnState × SendAttempt) :=
  match sendThreadTurn state options with
  | (_, none) => none
  | (started, some attempt) =>
    match composeTurn started options attempt with
    | (_, none) => none
    | (composed, some ready) => some (composed, ready)

def failTurn (context : StoreContext) (before : TurnState) : FailedTurn → Option TurnState
  | .creation options creating error =>
    match composedTurn before options with
    | none => none
    | some (composed, attempt) =>
      if attempt.sendingThreadId = none then
        some (failSend context (composed.meanwhile creating) attempt error)
      else none
  | .createdSend options creating created sending error =>
    match composedTurn before options with
    | none => none
    | some (composed, attempt) =>
      if attempt.sendingThreadId = none then
        let target := threadCreated context (composed.meanwhile creating) attempt created
        let shown := applyOptimisticSend context target.1 target.2 created.id
        some (failSend context (shown.meanwhile sending) target.2 error)
      else none
  | .send options sending error =>
    match composedTurn before options with
    | none => none
    | some (composed, attempt) =>
      match attempt.sendingThreadId with
      | none => none
      | some threadId =>
        let shown := applyOptimisticSend context composed attempt threadId
        some (failSend context (shown.meanwhile sending) attempt error)
  | .stop selectedThreadIsWorking stoppedAt stopping error =>
    match stopSelectedThreadTurn context before selectedThreadIsWorking stoppedAt with
    | (_, none) => none
    | (stopped, some attempt) =>
      some (failStop context (stopped.meanwhile stopping) attempt error)

end Metidos.Client
