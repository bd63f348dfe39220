import Mathlib.Data.List.Basic
import Mathlib.Data.List.Chain
import Mathlib.Data.List.Forall2
import Mathlib.Data.List.Induction

/-!
The grouping of visible messages of `src/mainview/app/transcript-pipeline.ts`, from scratch and from
the result of the previous call.
-/

namespace Metidos.Client.Grouping

abbrev Text := List Char

inductive Speaker
  | assistant
  | user
  deriving DecidableEq

inductive VisibleKind
  | chat (speaker : Speaker)
  | reasoning
  | command
  | fileChange
  | toolCall
  | webSearch
  | error
  deriving DecidableEq

structure VisibleMessage where
  key : Text
  kind : VisibleKind
  deriving DecidableEq

/-- An array of messages; `===` compares references. -/
structure MessageArray where
  reference : Nat
  messages : List VisibleMessage
  deriving DecidableEq

def isTranscriptAssistantVisibleMessage (message : VisibleMessage) : Bool :=
  message.kind ≠ .chat .user

inductive TranscriptPipelineGroup
  | assistant (key : Text) (startIndex endIndex : Nat)
  | user (key : Text) (messageIndex : Nat)
  deriving DecidableEq

def appendGroup (groups : List TranscriptPipelineGroup) (message : VisibleMessage) (index : Nat) :
    List TranscriptPipelineGroup :=
  if isTranscriptAssistantVisibleMessage message then
    match groups.getLast? with
    | some (.assistant key startIndex endIndex) =>
      if endIndex = index then groups.dropLast ++ [.assistant key startIndex (index + 1)]
      else groups ++ [.assistant message.key index (index + 1)]
    | _ => groups ++ [.assistant message.key index (index + 1)]
  else groups ++ [.user message.key index]

def appendGroupedVisibleMessages (groups : List TranscriptPipelineGroup)
    (messages : List VisibleMessage) (startIndex : Nat) : List TranscriptPipelineGroup :=
  ((messages.drop startIndex).zipIdx startIndex).foldl
    (fun groups row => appendGroup groups row.1 row.2) groups

def groupVisibleMessages (messages : List VisibleMessage) : List TranscriptPipelineGroup :=
  appendGroupedVisibleMessages [] messages 0

structure GroupedVisibleMessagesCache where
  activeThreadId : Option Int
  firstMessageKey : Option Text
  groups : List TranscriptPipelineGroup
  lastMessageKey : Option Text
  messages : MessageArray
  deriving DecidableEq

def firstKey (messages : List VisibleMessage) : Option Text := messages.head?.map VisibleMessage.key

def lastKey (messages : List VisibleMessage) : Option Text :=
  messages.getLast?.map VisibleMessage.key

def deriveGroupedVisibleMessages (activeThreadId : Option Int) (array : MessageArray)
    (previousCache : Option GroupedVisibleMessagesCache) : GroupedVisibleMessagesCache :=
  let messages := array.messages
  let firstMessageKey := firstKey messages
  let lastMessageKey := lastKey messages
  let scratch : GroupedVisibleMessagesCache :=
    { activeThreadId, firstMessageKey, groups := groupVisibleMessages messages, lastMessageKey,
      messages := array }
  match previousCache with
  | none => scratch
  | some previous =>
    let size := previous.messages.messages.length
    if previous.activeThreadId = activeThreadId ∧
        previous.messages.reference = array.reference then previous
    else if previous.activeThreadId = activeThreadId ∧ size = messages.length ∧
        previous.firstMessageKey = firstMessageKey ∧ previous.lastMessageKey = lastMessageKey then
      { previous with messages := array }
    else if previous.activeThreadId = activeThreadId ∧ 0 < size ∧ size < messages.length ∧
        previous.firstMessageKey = firstMessageKey ∧
        (messages[size - 1]?).map VisibleMessage.key = previous.lastMessageKey then
      { activeThreadId
        firstMessageKey
        groups := appendGroupedVisibleMessages previous.groups messages size
        lastMessageKey
        messages := array }
    else scratch

def cachesAlong (activeThreadId : Option Int) (previousCache : Option GroupedVisibleMessagesCache) :
    List MessageArray → List GroupedVisibleMessagesCache
  | [] => []
  | array :: arrays =>
    let cache := deriveGroupedVisibleMessages activeThreadId array previousCache
    cache :: cachesAlong activeThreadId (some cache) arrays

inductive Row
  | user (key : Text)
  | first (key : Text)
  | further
  deriving DecidableEq

def rowsAfter (continues : Bool) : List VisibleMessage → List Row
  | [] => []
  | message :: messages =>
    if isTranscriptAssistantVisibleMessage message then
      (if continues then .further else .first message.key) :: rowsAfter true messages
    else .user message.key :: rowsAfter false messages

/-- What the lists of two calls have to share where the second call takes over the groups of the
first: as many rows as the first list has are alike. -/
def KeepsRows (previous next : List VisibleMessage) : Prop :=
  (previous.length = next.length ∧ firstKey previous = firstKey next ∧
      lastKey previous = lastKey next ∨
    0 < previous.length ∧ previous.length < next.length ∧ firstKey previous = firstKey next ∧
      (next[previous.length - 1]?).map VisibleMessage.key = lastKey previous) →
    rowsAfter false (next.take previous.length) = rowsAfter false previous

def TranscriptPipelineGroup.indices : TranscriptPipelineGroup → List Nat
  | .assistant _ startIndex endIndex => List.range' startIndex (endIndex - startIndex)
  | .user _ messageIndex => [messageIndex]

def TranscriptPipelineGroup.isAssistant : TranscriptPipelineGroup → Bool
  | .assistant .. => true
  | .user .. => false

/-- The rows of a group are of its kind, and its key is that of the first. -/
def TranscriptPipelineGroup.Fits (messages : List VisibleMessage) (group : TranscriptPipelineGroup) :
    Prop :=
  group.indices ≠ [] ∧ ∀ index ∈ group.indices, ∃ message, messages[index]? = some message ∧
    isTranscriptAssistantVisibleMessage message = group.isAssistant ∧
    match group with
    | .assistant key startIndex _ => index = startIndex → message.key = key
    | .user key _ => message.key = key

/-- The groups partition the rows in order into single user rows and maximal runs of assistant
rows. -/
structure Partitions (messages : List VisibleMessage) (groups : List TranscriptPipelineGroup) :
    Prop where
  indices : groups.flatMap TranscriptPipelineGroup.indices = List.range messages.length
  fits : ∀ group ∈ groups, group.Fits messages
  maximal : groups.IsChain fun group next => ¬(group.isAssistant = true ∧ next.isAssistant = true)

def endsAt (groups : List TranscriptPipelineGroup) (index : Nat) : Bool :=
  match groups.getLast? with
  | some (.assistant _ _ endIndex) => endIndex = index
  | _ => false

def appendRow (groups : List TranscriptPipelineGroup) (row : Row) (index : Nat) :
    List TranscriptPipelineGroup :=
  match row, groups.getLast? with
  | .further, some (.assistant key startIndex _) =>
    groups.dropLast ++ [.assistant key startIndex (index + 1)]
  | .further, _ => groups
  | .first key, _ => groups ++ [.assistant key index (index + 1)]
  | .user key, _ => groups ++ [.user key index]

theorem foldl_appendGroup (messages : List VisibleMessage) (groups : List TranscriptPipelineGroup)
    (index : Nat) :
    (messages.zipIdx index).foldl (fun groups row => appendGroup groups row.1 row.2) groups =
      ((rowsAfter (endsAt groups index) messages).zipIdx index).foldl
        (fun groups row => appendRow groups row.1 row.2) groups := by
  induction messages generalizing groups index with
  | nil => rfl
  | cons message messages ih =>
    rw [List.zipIdx_cons, List.foldl_cons, ih, rowsAfter]
    by_cases isAssistant : isTranscriptAssistantVisibleMessage message = true
    · have ends : endsAt (appendGroup groups message index) (index + 1) = true := by
        rw [appendGroup, if_pos isAssistant]
        split
        · split <;> simp [endsAt]
        · simp [endsAt]
      rw [if_pos isAssistant, ends, List.zipIdx_cons, List.foldl_cons]
      congr 1
      rw [appendGroup, if_pos isAssistant, endsAt]
      split
      · rename_i key startIndex endIndex last
        by_cases here : endIndex = index
        · simp [here, appendRow, last]
        · simp [here, appendRow]
      · simp [appendRow]
    · have ends : endsAt (appendGroup groups message index) (index + 1) = false := by
        simp [appendGroup, isAssistant, endsAt]
      rw [if_neg isAssistant, ends, List.zipIdx_cons, List.foldl_cons]
      congr 1
      simp [appendGroup, isAssistant, appendRow]

theorem groupVisibleMessages_of_rows {previous next : List VisibleMessage}
    (same : rowsAfter false next = rowsAfter false previous) :
    groupVisibleMessages next = groupVisibleMessages previous := by
  have read : ∀ messages, groupVisibleMessages messages = ((rowsAfter false messages).zipIdx).foldl
      (fun groups row => appendRow groups row.1 row.2) [] := fun messages =>
    foldl_appendGroup messages [] 0
  rw [read, read, same]

theorem appendGroupedVisibleMessages_take (messages : List VisibleMessage) {size : Nat}
    (inside : size ≤ messages.length) :
    appendGroupedVisibleMessages (groupVisibleMessages (messages.take size)) messages size =
      groupVisibleMessages messages := by
  have whole := congrArg (fun rows => rows.foldl (fun groups row => appendGroup groups row.1 row.2) [])
    (@List.zipIdx_append _ (messages.take size) (messages.drop size) 0)
  rw [List.take_append_drop, List.length_take, Nat.min_eq_left inside, Nat.zero_add,
    List.foldl_append] at whole
  exact whole.symm

theorem groupVisibleMessages_concat (messages : List VisibleMessage) (message : VisibleMessage) :
    groupVisibleMessages (messages ++ [message]) =
      appendGroup (groupVisibleMessages messages) message messages.length := by
  have step := @appendGroupedVisibleMessages_take (messages ++ [message]) messages.length
    (by simp)
  rw [List.take_left] at step
  rw [← step, appendGroupedVisibleMessages, List.drop_left]
  rfl

structure Right (activeThreadId : Option Int) (array : MessageArray)
    (cache : GroupedVisibleMessagesCache) : Prop where
  thread : cache.activeThreadId = activeThreadId
  messages : cache.messages.messages = array.messages
  reference : cache.messages.reference = array.reference
  first : cache.firstMessageKey = firstKey array.messages
  last : cache.lastMessageKey = lastKey array.messages
  groups : cache.groups = groupVisibleMessages array.messages

theorem Right.derive {activeThreadId : Option Int} {previous array : MessageArray}
    {cache : GroupedVisibleMessagesCache} (right : Right activeThreadId previous cache)
    (shared : previous.reference = array.reference → previous.messages = array.messages)
    (kept : KeepsRows previous.messages array.messages) :
    Right activeThreadId array (deriveGroupedVisibleMessages activeThreadId array (some cache)) := by
  rw [deriveGroupedVisibleMessages]
  simp only [right.messages, right.reference, right.first, right.last, right.thread, true_and]
  split
  · rename_i same
    have alike := shared same
    exact ⟨right.thread, right.messages.trans alike, right.reference.trans same, alike ▸ right.first,
      alike ▸ right.last, alike ▸ right.groups⟩
  · split
    · rename_i ends
      obtain ⟨size, first, last⟩ := ends
      refine ⟨rfl, rfl, rfl, first, last, ?_⟩
      have rows := kept (Or.inl ⟨size, first, last⟩)
      rw [size, List.take_length] at rows
      exact right.groups.trans (groupVisibleMessages_of_rows rows).symm
    · split
      · rename_i longer
        have rows := kept (Or.inr longer)
        refine ⟨rfl, rfl, rfl, rfl, rfl, ?_⟩
        change appendGroupedVisibleMessages cache.groups _ _ = _
        rw [right.groups, ← groupVisibleMessages_of_rows rows]
        exact appendGroupedVisibleMessages_take _ (Nat.le_of_lt longer.2.1)
      · exact ⟨rfl, rfl, rfl, rfl, rfl, rfl⟩

theorem Fits.append {messages : List VisibleMessage} {group : TranscriptPipelineGroup}
    (fits : group.Fits messages) (message : VisibleMessage) : group.Fits (messages ++ [message]) := by
  refine ⟨fits.1, fun index member => ?_⟩
  obtain ⟨other, found, rest⟩ := fits.2 index member
  have inside := (List.getElem?_eq_some_iff.mp found).1
  exact ⟨other, by rw [List.getElem?_append_left inside, found], rest⟩

theorem groupVisibleMessages_partitions (messages : List VisibleMessage) :
    Partitions messages (groupVisibleMessages messages) ∧
      ∀ key startIndex endIndex, (groupVisibleMessages messages).getLast? =
        some (.assistant key startIndex endIndex) → endIndex = messages.length := by
  induction messages using List.reverseRecOn with
  | nil => exact ⟨⟨rfl, by simp [groupVisibleMessages, appendGroupedVisibleMessages],
      List.IsChain.nil⟩, by simp [groupVisibleMessages, appendGroupedVisibleMessages]⟩
  | append_singleton messages message ih =>
    obtain ⟨⟨indices, fits, maximal⟩, ends⟩ := ih
    rw [groupVisibleMessages_concat]
    generalize groupVisibleMessages messages = groups at *
    have alone : ∀ group : TranscriptPipelineGroup, group.indices = [messages.length] →
        group.Fits (messages ++ [message]) →
        (∀ last ∈ groups.getLast?, ¬(last.isAssistant = true ∧ group.isAssistant = true)) →
        Partitions (messages ++ [message]) (groups ++ [group]) := by
      intro group own fitsOwn apart
      refine ⟨?_, ?_, ?_⟩
      · rw [List.flatMap_append, indices, List.flatMap_singleton, own, List.length_append,
          List.length_singleton, List.range_succ]
      · intro other member
        rcases List.mem_append.mp member with old | new
        · exact Fits.append (fits other old) message
        · exact List.mem_singleton.mp new ▸ fitsOwn
      · refine List.isChain_append.mpr ⟨maximal, List.isChain_singleton _, ?_⟩
        intro last isLast next isNext
        obtain rfl : group = next := Option.some.inj isNext
        exact apart last isLast
    have isMessage : (messages ++ [message])[messages.length]? = some message :=
      List.getElem?_concat_length
    rw [appendGroup]
    split
    · rename_i isAssistant
      have single : (TranscriptPipelineGroup.assistant message.key messages.length
          (messages.length + 1)).Fits (messages ++ [message]) := by
        refine ⟨by simp [TranscriptPipelineGroup.indices], fun index member => ?_⟩
        obtain rfl : index = messages.length := by
          simpa [TranscriptPipelineGroup.indices] using member
        exact ⟨message, isMessage, isAssistant, fun _ => rfl⟩
      have own : (TranscriptPipelineGroup.assistant message.key messages.length
          (messages.length + 1)).indices = [messages.length] := by
        simp [TranscriptPipelineGroup.indices]
      split
      · rename_i key startIndex endIndex last
        obtain rfl := ends key startIndex endIndex last
        rw [if_pos rfl]
        obtain ⟨before, rfl⟩ := List.getLast?_eq_some_iff.mp last
        rw [List.dropLast_concat]
        have old := fits _ (List.mem_append_right before (List.mem_singleton.mpr rfl))
        have some : startIndex < messages.length := by
          have filled := old.1
          simp only [TranscriptPipelineGroup.indices, ne_eq, List.range'_eq_nil_iff] at filled
          omega
        have grown : (TranscriptPipelineGroup.assistant key startIndex
            (messages.length + 1)).indices =
            List.range' startIndex (messages.length - startIndex) ++ [messages.length] := by
          have size : messages.length + 1 - startIndex = (messages.length - startIndex) + 1 := by
            omega
          have stop : startIndex + (messages.length - startIndex) = messages.length := by omega
          rw [TranscriptPipelineGroup.indices, size, List.range'_1_concat, stop]
        refine ⟨⟨?_, ?_, ?_⟩, by simp⟩
        · rw [List.flatMap_append, List.flatMap_singleton] at indices ⊢
          rw [grown, ← List.append_assoc, List.length_append, List.length_singleton,
            List.range_succ, ← indices]
          rfl
        · intro group member
          rcases List.mem_append.mp member with earlier | last
          · exact Fits.append (fits group (List.mem_append_left _ earlier)) message
          · rw [List.mem_singleton.mp last]
            refine ⟨by rw [grown]; simp, fun index member => ?_⟩
            rw [grown] at member
            rcases List.mem_append.mp member with inside | final
            · exact (Fits.append old message).2 index inside
            · rw [List.mem_singleton.mp final]
              exact ⟨message, isMessage, isAssistant, fun start => absurd start (by omega)⟩
        · obtain ⟨chain, -, apart⟩ := List.isChain_append.mp maximal
          refine List.isChain_append.mpr ⟨chain, List.isChain_singleton _, ?_⟩
          intro last isLast next isNext
          obtain rfl := Option.some.inj isNext
          exact apart last isLast (.assistant key startIndex messages.length) rfl
      · rename_i other
        refine ⟨alone _ own single fun last isLast => ?_, by simp⟩
        cases last with
        | assistant key startIndex endIndex => exact absurd isLast (other _ _ _)
        | user key index => simp [TranscriptPipelineGroup.isAssistant]
    · rename_i isUser
      refine ⟨alone _ rfl ⟨by simp [TranscriptPipelineGroup.indices], fun index member => ?_⟩
        (by simp [TranscriptPipelineGroup.isAssistant]), by simp⟩
      obtain rfl : index = messages.length := List.mem_singleton.mp member
      exact ⟨message, isMessage, by simpa [TranscriptPipelineGroup.isAssistant] using isUser, rfl⟩

/-- Every result has the groups that its messages have from scratch, which partition the rows. -/
def ResultsRight (arrays : List MessageArray) (caches : List GroupedVisibleMessagesCache) : Prop :=
  List.Forall₂ (fun array cache => cache.groups = groupVisibleMessages array.messages ∧
    Partitions array.messages cache.groups) arrays caches

/-- A chain of calls that keep the rows they take over has the right results. -/
theorem groups_along_chain (activeThreadId : Option Int) (arrays : List MessageArray)
    (shared : ∀ array ∈ arrays, ∀ other ∈ arrays, array.reference = other.reference →
      array.messages = other.messages)
    (kept : arrays.IsChain fun previous next => KeepsRows previous.messages next.messages) :
    ResultsRight arrays (cachesAlong activeThreadId none arrays) := by
  have shows : ∀ {array cache}, Right activeThreadId array cache →
      cache.groups = groupVisibleMessages array.messages ∧
        Partitions array.messages cache.groups := by
    intro array cache right
    exact ⟨right.groups, right.groups ▸ (groupVisibleMessages_partitions array.messages).1⟩
  have onward : ∀ (arrays : List MessageArray) (previous : MessageArray) (cache),
      Right activeThreadId previous cache →
      (∀ array ∈ previous :: arrays, ∀ other ∈ previous :: arrays,
        array.reference = other.reference → array.messages = other.messages) →
      (previous :: arrays).IsChain (fun previous next =>
        KeepsRows previous.messages next.messages) →
      ResultsRight arrays (cachesAlong activeThreadId (some cache) arrays) := by
    intro arrays
    induction arrays with
    | nil => exact fun _ _ _ _ _ => List.Forall₂.nil
    | cons array arrays ih =>
      intro previous cache right shared kept
      rw [List.isChain_cons_cons] at kept
      have next := right.derive
        (shared previous (by simp) array (by simp)) kept.1
      refine List.Forall₂.cons (shows next) (ih array _ next ?_ kept.2)
      exact fun first isFirst second isSecond =>
        shared first (List.mem_cons_of_mem _ isFirst) second (List.mem_cons_of_mem _ isSecond)
  cases arrays with
  | nil => exact List.Forall₂.nil
  | cons array arrays =>
    have scratch : Right activeThreadId array
        (deriveGroupedVisibleMessages activeThreadId array none) := ⟨rfl, rfl, rfl, rfl, rfl, rfl⟩
    exact List.Forall₂.cons (shows scratch) (onward arrays array _ scratch shared kept)

def row (key : String) (speaker : Speaker) : VisibleMessage := ⟨key.toList, .chat speaker⟩

def changedLists : List MessageArray :=
  [⟨0, [row "a" .user, row "b" .assistant, row "c" .user]⟩,
    ⟨1, [row "a" .user, row "d" .user, row "c" .user]⟩]

def grownLists : List MessageArray :=
  [⟨0, [row "a" .user]⟩, ⟨1, [row "a" .user, row "b" .assistant]⟩]

theorem groups_along_growth : ResultsRight grownLists (cachesAlong (some 7) none grownLists) :=
  groups_along_chain (some 7) grownLists (by decide)
    (List.isChain_cons_cons.mpr ⟨fun _ => by decide, List.isChain_singleton _⟩)

theorem groups_stale_after_change :
    ¬ResultsRight changedLists (cachesAlong (some 7) none changedLists) := by
  intro all
  obtain ⟨-, rest⟩ := List.forall₂_cons.mp all
  exact absurd (List.forall₂_cons.mp rest).1.1 (by decide +kernel)

end Metidos.Client.Grouping
