import Mathlib.Data.List.Induction
import Metidos.Library.SortedMerge

/-!
Merging message histories, from `src/mainview/app/transcript-state.ts`: two lists of messages, and
any pages of one history in any order.
-/

namespace Metidos.Client.History

open SortedMerge

abbrev Text := List Char

inductive MessageState
  | inProgress
  | completed
  | failed
  | stopped
  deriving DecidableEq

structure ChatImage where
  data : Text
  mimeType : Text
  byteSize : Option Nat
  dataLoaded : Option Bool
  previewByteSize : Option Nat
  previewMimeType : Option Text
  deriving DecidableEq

/-- The kind of a message, with the content that a page may defer. -/
inductive Content
  | chat (images : Option (List ChatImage))
  | reasoning
  | command (output : Text) (outputLoaded : Option Bool)
  | fileChange (diffText : Text) (diffLoaded : Option Bool)
  | toolCall (output : Text) (outputLoaded : Option Bool) (outputImages : Option (List ChatImage))
  | webSearch
  | error
  deriving DecidableEq

structure ThreadMessage (Fields : Type) where
  id : Int
  state : Option MessageState
  content : Content
  fields : Fields
  deriving DecidableEq

variable {Fields : Type}

/-- `none` stands for `Number.NEGATIVE_INFINITY`. -/
def isStrictlyIncreasingMessageRange : List (ThreadMessage Fields) → Option Int → Bool
  | [], _ => true
  | message :: messages, previousMessageId =>
    if previousMessageId.any (message.id ≤ ·) then false
    else isStrictlyIncreasingMessageRange messages (some message.id)

def sortMessagesByIdIfNeeded (messages : List (ThreadMessage Fields)) :
    List (ThreadMessage Fields) :=
  if isStrictlyIncreasingMessageRange messages none then messages
  else messages.mergeSort fun left right => left.id ≤ right.id

def mergeThreadMessageContent (current incoming : ThreadMessage Fields) : ThreadMessage Fields :=
  match current.content, incoming.content with
  | .command output outputLoaded, .command _ deferred =>
    if current.state ≠ some .inProgress ∧ outputLoaded ≠ some false ∧ deferred = some false then
      { incoming with content := .command output (some true) }
    else incoming
  | .toolCall output outputLoaded outputImages, .toolCall _ deferred others =>
    if current.state ≠ some .inProgress ∧ outputLoaded ≠ some false ∧ deferred = some false then
      { incoming with content := .toolCall output (some true) (outputImages.or others) }
    else incoming
  | .fileChange diffText diffLoaded, .fileChange _ deferred =>
    if diffLoaded ≠ some false ∧ deferred = some false then
      { incoming with content := .fileChange diffText (some true) }
    else incoming
  | _, _ => incoming

def mergeThreadMessageHistory (current incoming : List (ThreadMessage Fields)) :
    List (ThreadMessage Fields) :=
  if incoming.isEmpty then current
  else if current.isEmpty then sortMessagesByIdIfNeeded incoming
  else
    let sortedCurrent := sortMessagesByIdIfNeeded current
    let sortedIncoming := sortMessagesByIdIfNeeded incoming
    let currentFirstMessageId := (sortedCurrent.head?.map ThreadMessage.id).getD 0
    let currentLastMessageId := (sortedCurrent.getLast?.map ThreadMessage.id).getD 0
    let incomingFirstMessageId := (sortedIncoming.head?.map ThreadMessage.id).getD 0
    let incomingLastMessageId := (sortedIncoming.getLast?.map ThreadMessage.id).getD 0
    if currentLastMessageId < incomingFirstMessageId ∧
        isStrictlyIncreasingMessageRange sortedIncoming (some currentLastMessageId) then
      sortedCurrent ++ sortedIncoming
    else if incomingLastMessageId < currentFirstMessageId ∧
        isStrictlyIncreasingMessageRange sortedIncoming none then
      sortedIncoming ++ sortedCurrent
    else merge ThreadMessage.id mergeThreadMessageContent sortedCurrent sortedIncoming

def Content.loaded : Content → Bool
  | .chat (some images) => !images.isEmpty && images.all fun image => image.dataLoaded ≠ some false
  | .command _ outputLoaded => outputLoaded ≠ some false
  | .fileChange _ diffLoaded => diffLoaded ≠ some false
  | .toolCall _ outputLoaded _ => outputLoaded ≠ some false
  | _ => false

/-- The message leaves its heavy content to a later request. -/
def Content.deferred : Content → Bool
  | .chat (some images) => images.any fun image => image.dataLoaded = some false
  | .command _ outputLoaded => outputLoaded = some false
  | .fileChange _ diffLoaded => diffLoaded = some false
  | .toolCall _ outputLoaded _ => outputLoaded = some false
  | _ => false

def Content.withHeavyOf : Content → Content → Content
  | .chat _, .chat images => .chat images
  | .command _ _, .command output _ => .command output (some true)
  | .fileChange _ _, .fileChange diffText _ => .fileChange diffText (some true)
  | .toolCall _ _ others, .toolCall output _ images => .toolCall output (some true) (images.or others)
  | incoming, _ => incoming

/-- What merging two versions of a message is for: the incoming version, with the heavy content
that is already loaded, but none from a version that was still in progress. -/
def retained (current incoming : ThreadMessage Fields) : ThreadMessage Fields :=
  if current.state ≠ some .inProgress ∧ current.content.loaded ∧ incoming.content.deferred then
    { incoming with content := incoming.content.withHeavyOf current.content }
  else incoming

/-- The diff of an unfinished change would be kept, or loaded images of a chat message are not. -/
def Unretained (current incoming : ThreadMessage Fields) : Prop :=
  match current.content, incoming.content with
  | .fileChange _ diffLoaded, .fileChange _ deferred =>
    current.state = some .inProgress ∧ diffLoaded ≠ some false ∧ deferred = some false
  | .chat images, .chat others =>
    current.state ≠ some .inProgress ∧ (Content.chat images).loaded = true ∧
      (Content.chat others).deferred = true
  | _, _ => False

/-- The merge of two lists is in order, has the messages of both sides, and of two versions of a
message the one to retain. -/
structure MergedRight (current incoming merged : List (ThreadMessage Fields)) : Prop where
  increasing : Increasing ThreadMessage.id merged
  union : ∀ id, (∃ message ∈ merged, message.id = id) ↔
    (∃ message ∈ current, message.id = id) ∨ ∃ message ∈ incoming, message.id = id
  old : ∀ message ∈ current, (∀ other ∈ incoming, other.id ≠ message.id) → message ∈ merged
  new : ∀ message ∈ incoming, (∀ other ∈ current, other.id ≠ message.id) → message ∈ merged
  both : ∀ message ∈ current, ∀ other ∈ incoming, message.id = other.id →
    retained message other ∈ merged

def mergePages (pages : List (List (ThreadMessage Fields))) : List (ThreadMessage Fields) :=
  pages.foldl mergeThreadMessageHistory []

inductive Defers : ThreadMessage Fields → ThreadMessage Fields → Prop
  | command {id state fields output outputLoaded} (stub : Text) (loaded : outputLoaded ≠ some false) :
      Defers ⟨id, state, .command output outputLoaded, fields⟩
        ⟨id, state, .command stub (some false), fields⟩
  | fileChange {id state fields diffText diffLoaded} (stub : Text) (loaded : diffLoaded ≠ some false) :
      Defers ⟨id, state, .fileChange diffText diffLoaded, fields⟩
        ⟨id, state, .fileChange stub (some false), fields⟩
  | toolCall {id state fields output outputLoaded} {images stubs : Option (List ChatImage)}
      (stub : Text) (loaded : outputLoaded ≠ some false) (present : images.isSome = stubs.isSome) :
      Defers ⟨id, state, .toolCall output outputLoaded images, fields⟩
        ⟨id, state, .toolCall stub (some false) stubs, fields⟩
  | chat {id state fields} {images stubs : List ChatImage}
      (loaded : (Content.chat (some images)).loaded = true)
      (deferred : (Content.chat (some stubs)).deferred = true) :
      Defers ⟨id, state, .chat (some images), fields⟩ ⟨id, state, .chat (some stubs), fields⟩

/-- Every page shows of each message its one terminal version, whole or with its heavy content
deferred. -/
structure ShowsVersions (whole stub : Int → ThreadMessage Fields)
    (pages : List (List (ThreadMessage Fields))) : Prop where
  ids : ∀ id, (whole id).id = id
  terminal : ∀ id, (whole id).state ≠ some .inProgress
  stubs : ∀ id, stub id = whole id ∨ Defers (whole id) (stub id)
  distinct : ∀ page ∈ pages, Distinct ThreadMessage.id page
  shown : ∀ page ∈ pages, ∀ message ∈ page, message = whole message.id ∨ message = stub message.id

/-- A whole message is what comes back from its stub: not so for images of chat messages, and not
where the flag of loaded content is left out. -/
def Content.Restored : Content → Prop
  | .command _ outputLoaded => outputLoaded = some true
  | .fileChange _ diffLoaded => diffLoaded = some true
  | .toolCall _ outputLoaded _ => outputLoaded = some true
  | _ => False

theorem isStrictlyIncreasing_iff {messages : List (ThreadMessage Fields)} {minimum : Option Int} :
    isStrictlyIncreasingMessageRange messages minimum = true ↔
      (∀ message ∈ messages, ∀ bound ∈ minimum, bound < message.id) ∧
        Increasing ThreadMessage.id messages := by
  induction messages generalizing minimum with
  | nil => simp [isStrictlyIncreasingMessageRange]
  | cons message messages ih =>
    have split : (∀ bound ∈ minimum, bound < message.id) ↔
        ¬minimum.any (fun bound => message.id ≤ bound) = true := by
      cases minimum <;> simp
    rw [isStrictlyIncreasingMessageRange, List.forall_mem_cons, Increasing, List.pairwise_cons, split]
    by_cases above : minimum.any (fun bound => message.id ≤ bound) = true
    · simp [above]
    · rw [if_neg above, ih]
      simp only [above, Bool.false_eq_true, not_false_eq_true, true_and, Option.mem_some_iff,
        forall_eq']
      refine ⟨fun both => ⟨?_, both⟩, fun both => both.2⟩
      intro other member bound isBound
      have first := split.mpr above bound isBound
      exact first.trans (both.1 other member)

theorem sortMessagesByIdIfNeeded_spec {messages : List (ThreadMessage Fields)}
    (distinct : Distinct ThreadMessage.id messages) :
    Increasing ThreadMessage.id (sortMessagesByIdIfNeeded messages) ∧
      (sortMessagesByIdIfNeeded messages).Perm messages := by
  rw [sortMessagesByIdIfNeeded]
  split
  · rename_i increasing
    exact ⟨(isStrictlyIncreasing_iff.mp increasing).2, List.Perm.refl _⟩
  · have perm := List.mergeSort_perm messages fun left right => decide (left.id ≤ right.id)
    refine ⟨?_, perm⟩
    have ordered := @List.pairwise_mergeSort _ (fun left right => decide (left.id ≤ right.id))
      (by simp only [decide_eq_true_eq]; omega) (by simp; omega) messages
    have apart : ((messages.mergeSort fun left right => decide (left.id ≤ right.id)).map
        ThreadMessage.id).Nodup := (perm.map _).nodup_iff.mpr distinct
    rw [List.Nodup, List.pairwise_map] at apart
    refine (ordered.and apart).imp fun both => ?_
    have le : _ ≤ _ := of_decide_eq_true both.1
    have ne := both.2
    omega

theorem mergeThreadMessageContent_id (current incoming : ThreadMessage Fields) :
    (mergeThreadMessageContent current incoming).id = incoming.id := by
  unfold mergeThreadMessageContent
  split
  · split <;> rfl
  · split <;> rfl
  · split <;> rfl
  · rfl

theorem Increasing.bounds {messages : List (ThreadMessage Fields)} (some : messages ≠ [])
    (increasing : Increasing ThreadMessage.id messages) :
    ∀ message ∈ messages, (messages.head?.map ThreadMessage.id).getD 0 ≤ message.id ∧
      message.id ≤ (messages.getLast?.map ThreadMessage.id).getD 0 := by
  intro message member
  constructor
  · cases messages with
    | nil => exact absurd rfl some
    | cons first messages =>
      rcases List.mem_cons.mp member with rfl | later
      · exact Int.le_refl _
      · exact Int.le_of_lt ((List.pairwise_cons.mp increasing).1 message later)
  · cases messages using List.reverseRecOn with
    | nil => exact absurd rfl some
    | append_singleton messages last =>
      rw [List.getLast?_concat]
      rcases List.mem_append.mp member with earlier | final
      · exact Int.le_of_lt ((List.pairwise_append.mp increasing).2.2 message earlier last (by simp))
      · rw [List.mem_singleton.mp final]
        exact Int.le_refl _

theorem append_spec {first second : List (ThreadMessage Fields)}
    (sorted : Increasing ThreadMessage.id first) (alike : Increasing ThreadMessage.id second)
    (before : ∀ message ∈ first, ∀ other ∈ second, message.id < other.id) (id : Int) :
    Increasing ThreadMessage.id (first ++ second) ∧
      lookup ThreadMessage.id id (first ++ second) = join mergeThreadMessageContent
        (lookup ThreadMessage.id id first) (lookup ThreadMessage.id id second) ∧
      lookup ThreadMessage.id id (first ++ second) = join mergeThreadMessageContent
        (lookup ThreadMessage.id id second) (lookup ThreadMessage.id id first) := by
  refine ⟨List.pairwise_append.mpr ⟨sorted, alike, before⟩, ?_⟩
  rw [lookup_append]
  cases found : lookup ThreadMessage.id id first with
  | none => exact ⟨(none_join _).symm, (join_none _).symm⟩
  | some message =>
    have isMessage := (lookup_eq_some_iff sorted.distinct).mp found
    have absent : lookup ThreadMessage.id id second = none := by
      refine lookup_eq_none_iff.mpr fun other member same => ?_
      have less := before message isMessage.1 other member
      omega
    rw [absent]
    exact ⟨rfl, rfl⟩

/-- A merge is in order and has under each id what both sides have there, except that a list that
is out of order stays so when nothing comes in. -/
theorem mergeThreadMessageHistory_spec {current incoming : List (ThreadMessage Fields)}
    (distinct : Distinct ThreadMessage.id current) (apart : Distinct ThreadMessage.id incoming)
    (ordered : incoming = [] → Increasing ThreadMessage.id current) :
    Increasing ThreadMessage.id (mergeThreadMessageHistory current incoming) ∧
      ∀ id, lookup ThreadMessage.id id (mergeThreadMessageHistory current incoming) =
        join mergeThreadMessageContent (lookup ThreadMessage.id id current)
          (lookup ThreadMessage.id id incoming) := by
  obtain ⟨sorted, perm⟩ := sortMessagesByIdIfNeeded_spec distinct
  obtain ⟨alike, similar⟩ := sortMessagesByIdIfNeeded_spec apart
  have sameCurrent := fun id => @lookup_perm _ _ _ id _ distinct perm
  have sameIncoming := fun id => @lookup_perm _ _ _ id _ apart similar
  unfold mergeThreadMessageHistory
  split
  · rename_i empty
    rw [List.isEmpty_iff] at empty
    subst empty
    exact ⟨ordered rfl, fun id => (join_none _).symm⟩
  · rename_i some
    have filled : sortMessagesByIdIfNeeded incoming ≠ [] := fun empty =>
      some (List.isEmpty_iff.mpr (empty ▸ similar).nil_eq.symm)
    split
    · rename_i empty
      rw [List.isEmpty_iff] at empty
      subst empty
      exact ⟨alike, fun id => (sameIncoming id).trans (none_join _).symm⟩
    · rename_i some
      have present : sortMessagesByIdIfNeeded current ≠ [] := fun empty =>
        some (List.isEmpty_iff.mpr (empty ▸ perm).nil_eq.symm)
      simp only [← sameCurrent, ← sameIncoming]
      generalize sortMessagesByIdIfNeeded current = first at sorted present
      generalize sortMessagesByIdIfNeeded incoming = second at alike filled
      have lower := Increasing.bounds present sorted
      have upper := Increasing.bounds filled alike
      split
      · rename_i newer
        have before : ∀ message ∈ first, ∀ other ∈ second, message.id < other.id := by
          intro message member other isOther
          have below := (lower message member).2
          have above := (isStrictlyIncreasing_iff.mp newer.2).1 other isOther _ rfl
          omega
        exact ⟨(append_spec sorted alike before 0).1, fun id => (append_spec sorted alike before id).2.1⟩
      · split
        · rename_i older
          have before : ∀ message ∈ second, ∀ other ∈ first, message.id < other.id := by
            intro message member other isOther
            have below := (upper message member).2
            have above := (lower other isOther).1
            have between := older.1
            omega
          exact ⟨(append_spec alike sorted before 0).1,
            fun id => (append_spec alike sorted before id).2.2⟩
        · exact ⟨increasing_merge mergeThreadMessageContent_id sorted alike,
            fun id => lookup_merge mergeThreadMessageContent_id sorted alike⟩

theorem Content.not_deferred_of_loaded {images : List ChatImage}
    (loaded : (Content.chat (some images)).loaded = true) :
    (Content.chat (some images)).deferred = false := by
  simp only [Content.loaded, Bool.and_eq_true, List.all_eq_true] at loaded
  simpa [Content.deferred] using loaded.2

/-- Two versions of a message are merged as they should be, but for the two cases. -/
theorem mergeThreadMessageContent_eq_retained_iff (current incoming : ThreadMessage Fields) :
    mergeThreadMessageContent current incoming = retained current incoming ↔
      ¬Unretained current incoming := by
  obtain ⟨currentId, state, content, fields⟩ := current
  obtain ⟨id, other, incomingContent, others⟩ := incoming
  cases content with
  | chat images =>
    cases incomingContent with
    | chat stubs =>
      rw [mergeThreadMessageContent, retained, Unretained]
      dsimp only
      split
      · rename_i both
        refine iff_of_false (fun same => ?_) (not_not.mpr both)
        obtain ⟨-, loaded, deferred⟩ := both
        have sameImages : stubs = images := by simpa [Content.withHeavyOf] using same
        subst sameImages
        cases stubs with
        | none => exact absurd deferred (by decide)
        | some images =>
          rw [Content.not_deferred_of_loaded loaded] at deferred
          exact absurd deferred (by simp)
      · rename_i other
        exact iff_of_true rfl other
    | _ => simp [mergeThreadMessageContent, retained, Unretained, Content.withHeavyOf]
  | command output loaded =>
    cases incomingContent with
    | command stub deferred =>
      simp [mergeThreadMessageContent, retained, Unretained, Content.withHeavyOf,
        Content.loaded, Content.deferred]
    | _ => simp [mergeThreadMessageContent, retained, Unretained, Content.withHeavyOf]
  | toolCall output loaded images =>
    cases incomingContent with
    | toolCall stub deferred stubs =>
      simp [mergeThreadMessageContent, retained, Unretained, Content.withHeavyOf,
        Content.loaded, Content.deferred]
    | _ => simp [mergeThreadMessageContent, retained, Unretained, Content.withHeavyOf]
  | fileChange diffText loaded =>
    cases incomingContent with
    | fileChange stub deferred =>
      by_cases finished : state = some .inProgress
      · have wrong : (¬loaded = some false → deferred = some false →
            diffText = stub ∧ some true = deferred) ↔
            (¬loaded = some false → ¬deferred = some false) := by
          refine ⟨fun same isLoaded isDeferred => ?_, fun never isLoaded isDeferred =>
            absurd isDeferred (never isLoaded)⟩
          exact absurd (isDeferred ▸ (same isLoaded isDeferred).2) (by simp)
        simpa [mergeThreadMessageContent, retained, Unretained, finished] using wrong
      · simp [mergeThreadMessageContent, retained, Unretained, Content.withHeavyOf,
          Content.loaded, Content.deferred, finished]
    | _ => simp [mergeThreadMessageContent, retained, Unretained, Content.withHeavyOf]
  | _ => simp [mergeThreadMessageContent, retained, Unretained, Content.loaded]

theorem retained_id (current incoming : ThreadMessage Fields) :
    (retained current incoming).id = incoming.id := by
  rw [retained]
  split <;> rfl

/-- The merge of two lists is right exactly when it has to sort no list by itself and meets
neither of the two cases. -/
theorem mergedRight_iff {current incoming : List (ThreadMessage Fields)}
    (distinct : Distinct ThreadMessage.id current) (apart : Distinct ThreadMessage.id incoming) :
    MergedRight current incoming (mergeThreadMessageHistory current incoming) ↔
      (incoming = [] → Increasing ThreadMessage.id current) ∧
        ∀ message ∈ current, ∀ other ∈ incoming, message.id = other.id →
          ¬Unretained message other := by
  have at_current : ∀ {message}, message ∈ current →
      lookup ThreadMessage.id message.id current = some message := fun member =>
    (lookup_eq_some_iff distinct).mpr ⟨member, rfl⟩
  have at_incoming : ∀ {message}, message ∈ incoming →
      lookup ThreadMessage.id message.id incoming = some message := fun member =>
    (lookup_eq_some_iff apart).mpr ⟨member, rfl⟩
  constructor
  · intro right
    have ordered : incoming = [] → Increasing ThreadMessage.id current := by
      rintro rfl
      exact right.increasing
    refine ⟨ordered, fun message member other isOther same => ?_⟩
    obtain ⟨sorted, found⟩ := mergeThreadMessageHistory_spec distinct apart ordered
    have kept := (lookup_eq_some_iff sorted.distinct).mpr
      ⟨right.both message member other isOther same, retained_id message other⟩
    rw [found, ← same, at_current member, same, at_incoming isOther] at kept
    exact (mergeThreadMessageContent_eq_retained_iff message other).mp (Option.some.inj kept)
  · rintro ⟨ordered, plain⟩
    obtain ⟨sorted, found⟩ := mergeThreadMessageHistory_spec distinct apart ordered
    have member_iff : ∀ {message}, message ∈ mergeThreadMessageHistory current incoming ↔
        join mergeThreadMessageContent (lookup ThreadMessage.id message.id current)
          (lookup ThreadMessage.id message.id incoming) = some message := by
      intro message
      rw [← found, lookup_eq_some_iff sorted.distinct]
      simp
    refine ⟨sorted, fun id => ?_, ?_, ?_, ?_⟩
    · have present : ∀ messages : List (ThreadMessage Fields),
          (∃ message ∈ messages, message.id = id) ↔ lookup ThreadMessage.id id messages ≠ none := by
        intro messages
        rw [ne_eq, lookup_eq_none_iff]
        simp
      rw [present, present, present, found]
      cases lookup ThreadMessage.id id current <;> cases lookup ThreadMessage.id id incoming <;>
        simp [join]
    · intro message member absent
      rw [member_iff, at_current member, lookup_eq_none_iff.mpr absent]
      rfl
    · intro message member absent
      rw [member_iff, at_incoming member, lookup_eq_none_iff.mpr absent]
      rfl
    · intro message member other isOther same
      rw [member_iff, retained_id, at_incoming isOther, ← same, at_current member]
      exact congrArg some ((mergeThreadMessageContent_eq_retained_iff message other).mpr
        (plain message member other isOther same))

theorem mergeThreadMessageContent_whole {incoming : ThreadMessage Fields}
    (whole : incoming.content.deferred = false) (current : ThreadMessage Fields) :
    mergeThreadMessageContent current incoming = incoming := by
  unfold mergeThreadMessageContent
  split
  all_goals
    rename_i _ isIncoming
    first
      | rfl
      | rw [isIncoming] at whole
        simp [Content.deferred] at whole
        simp [whole]

theorem Defers.whole {whole stub : ThreadMessage Fields} (defers : Defers whole stub) :
    whole.content.deferred = false := by
  cases defers with
  | command stub loaded => simpa [Content.deferred] using loaded
  | fileChange stub loaded => simpa [Content.deferred] using loaded
  | toolCall stub loaded present => simpa [Content.deferred] using loaded
  | chat loaded deferred => exact Content.not_deferred_of_loaded loaded

/-- A stub gives the whole message back if that can be restored, and never else. -/
theorem Defers.merge {whole stub : ThreadMessage Fields} (defers : Defers whole stub)
    (terminal : whole.state ≠ some .inProgress) :
    (whole.content.Restored → mergeThreadMessageContent whole stub = whole) ∧
      (¬whole.content.Restored → ∀ current, mergeThreadMessageContent current stub ≠ whole) ∧
      mergeThreadMessageContent stub stub = stub := by
  cases defers with
  | command stub loaded =>
    refine ⟨?_, fun fresh current same => ?_, by simp [mergeThreadMessageContent]⟩
    · rintro rfl
      simpa [mergeThreadMessageContent] using terminal
    · unfold mergeThreadMessageContent at same
      grind [Content.Restored]
  | fileChange stub loaded =>
    refine ⟨?_, fun fresh current same => ?_, by simp [mergeThreadMessageContent]⟩
    · rintro rfl
      simp [mergeThreadMessageContent]
    · unfold mergeThreadMessageContent at same
      grind [Content.Restored]
  | @toolCall _ _ _ _ _ images stubs stub loaded present =>
    refine ⟨?_, fun fresh current same => ?_, by simp [mergeThreadMessageContent]⟩
    · rintro rfl
      cases images <;> cases stubs <;> simp_all [mergeThreadMessageContent]
    · unfold mergeThreadMessageContent at same
      grind [Content.Restored]
  | @chat _ _ _ images stubs loaded deferred =>
    have kept : ∀ current : ThreadMessage Fields, ∀ id state fields,
        mergeThreadMessageContent current ⟨id, state, .chat (some stubs), fields⟩ =
          ⟨id, state, .chat (some stubs), fields⟩ := by
      intro current id state fields
      unfold mergeThreadMessageContent
      grind
    refine ⟨False.elim, fun _ current same => ?_, kept _ _ _ _⟩
    rw [kept] at same
    have equal : stubs = images := by simpa using same
    rw [equal, Content.not_deferred_of_loaded loaded] at deferred
    exact absurd deferred (by simp)

variable {whole stub : Int → ThreadMessage Fields} {pages : List (List (ThreadMessage Fields))}

def foldId (pages : List (List (ThreadMessage Fields))) (id : Int) : Option (ThreadMessage Fields) :=
  pages.foldl (fun found page => join mergeThreadMessageContent found
    (lookup ThreadMessage.id id page)) none

theorem foldId_concat (pages : List (List (ThreadMessage Fields)))
    (page : List (ThreadMessage Fields)) (id : Int) : foldId (pages ++ [page]) id =
      join mergeThreadMessageContent (foldId pages id) (lookup ThreadMessage.id id page) := by
  rw [foldId, List.foldl_append]
  rfl

theorem mergePages_spec (distinct : ∀ page ∈ pages, Distinct ThreadMessage.id page) :
    Increasing ThreadMessage.id (mergePages pages) ∧
      ∀ id, lookup ThreadMessage.id id (mergePages pages) = foldId pages id := by
  induction pages using List.reverseRecOn with
  | nil => exact ⟨List.Pairwise.nil, fun _ => rfl⟩
  | append_singleton pages page ih =>
    obtain ⟨increasing, found⟩ := ih fun other member =>
      distinct other (List.mem_append_left _ member)
    have step := mergeThreadMessageHistory_spec increasing.distinct
      (distinct page (by simp)) fun _ => increasing
    rw [mergePages, List.foldl_append]
    refine ⟨step.1, fun id => (step.2 id).trans ?_⟩
    rw [foldId_concat, ← found]

/-- No message is shown both whole and as a stub that does not restore it. -/
def Restorable (whole stub : Int → ThreadMessage Fields)
    (pages : List (List (ThreadMessage Fields))) : Prop :=
  ∀ id, (∃ page ∈ pages, whole id ∈ page) → (∃ page ∈ pages, stub id ∈ page) →
    stub id = whole id ∨ (whole id).content.Restored

theorem mergeThreadMessageContent_self (message : ThreadMessage Fields) :
    mergeThreadMessageContent message message = message := by
  unfold mergeThreadMessageContent
  grind

theorem Defers.id {whole stub : ThreadMessage Fields} (defers : Defers whole stub) :
    stub.id = whole.id := by
  cases defers <;> rfl

theorem ShowsVersions.stub_id (shows : ShowsVersions whole stub pages) (id : Int) :
    (stub id).id = id := by
  rcases shows.stubs id with same | defers
  · rw [same, shows.ids]
  · rw [defers.id, shows.ids]

theorem ShowsVersions.lookup_page (shows : ShowsVersions whole stub pages)
    {page : List (ThreadMessage Fields)} (member : page ∈ pages) (id : Int) :
    (lookup ThreadMessage.id id page = none ∧ whole id ∉ page ∧ stub id ∉ page) ∨
      (lookup ThreadMessage.id id page = some (whole id) ∧ whole id ∈ page) ∨
      (lookup ThreadMessage.id id page = some (stub id) ∧ whole id ∉ page ∧ stub id ∈ page) := by
  have distinct := shows.distinct page member
  by_cases isWhole : whole id ∈ page
  · exact Or.inr (Or.inl ⟨(lookup_eq_some_iff distinct).mpr ⟨isWhole, shows.ids id⟩, isWhole⟩)
  by_cases isStub : stub id ∈ page
  · exact Or.inr (Or.inr
      ⟨(lookup_eq_some_iff distinct).mpr ⟨isStub, shows.stub_id id⟩, isWhole, isStub⟩)
  refine Or.inl ⟨lookup_eq_none_iff.mpr fun message isMessage same => ?_, isWhole, isStub⟩
  subst same
  rcases shows.shown page member message isMessage with equal | equal
  · exact isWhole (equal ▸ isMessage)
  · exact isStub (equal ▸ isMessage)

theorem ShowsVersions.merge_whole (shows : ShowsVersions whole stub pages) {id : Int}
    {message : ThreadMessage Fields} (version : message = whole id ∨ message = stub id) :
    mergeThreadMessageContent message (whole id) = whole id := by
  rcases shows.stubs id with same | defers
  · rw [same, or_self] at version
    rw [version, mergeThreadMessageContent_self]
  · exact mergeThreadMessageContent_whole defers.whole message

theorem ShowsVersions.of_append {first second : List (List (ThreadMessage Fields))}
    (shows : ShowsVersions whole stub (first ++ second)) : ShowsVersions whole stub first where
  ids := shows.ids
  terminal := shows.terminal
  stubs := shows.stubs
  distinct := fun page member => shows.distinct page (List.mem_append_left _ member)
  shown := fun page member => shows.shown page (List.mem_append_left _ member)

theorem foldId_eq (shows : ShowsVersions whole stub pages) (restorable : Restorable whole stub pages)
    (id : Int) :
    ((∃ page ∈ pages, whole id ∈ page) → foldId pages id = some (whole id)) ∧
      ((¬∃ page ∈ pages, whole id ∈ page) →
        ((∃ page ∈ pages, stub id ∈ page) → foldId pages id = some (stub id)) ∧
        ((¬∃ page ∈ pages, stub id ∈ page) → foldId pages id = none)) := by
  induction pages using List.reverseRecOn with
  | nil => exact ⟨by simp, fun _ => ⟨by simp, fun _ => rfl⟩⟩
  | append_singleton pages page ih =>
    have fewer : Restorable whole stub pages := fun id isWhole isStub => restorable id
      (isWhole.imp fun _ both => ⟨List.mem_append_left _ both.1, both.2⟩)
      (isStub.imp fun _ both => ⟨List.mem_append_left _ both.1, both.2⟩)
    obtain ⟨isWhole, others⟩ := ih shows.of_append fewer
    have known : foldId pages id = none ∨ foldId pages id = some (whole id) ∨
        foldId pages id = some (stub id) := by
      by_cases some : ∃ page ∈ pages, whole id ∈ page
      · exact Or.inr (Or.inl (isWhole some))
      · by_cases stubs : ∃ page ∈ pages, stub id ∈ page
        · exact Or.inr (Or.inr ((others some).1 stubs))
        · exact Or.inl ((others some).2 stubs)
    have without : ∀ message, message ∉ page →
        ((∃ other ∈ pages ++ [page], message ∈ other) ↔ ∃ other ∈ pages, message ∈ other) := by
      intro message absent
      simp [or_and_right, exists_or, absent]
    rw [foldId_concat]
    rcases shows.lookup_page (by simp : page ∈ pages ++ [page]) id with
      ⟨found, noWhole, noStub⟩ | ⟨found, here⟩ | ⟨found, noWhole, here⟩
    · rw [found, join_none, without _ noWhole, without _ noStub]
      exact ⟨isWhole, others⟩
    · have result : join mergeThreadMessageContent (foldId pages id)
          (lookup ThreadMessage.id id page) = some (whole id) := by
        rw [found]
        rcases known with absent | isWhole | isStub
        · rw [absent]
          rfl
        · rw [isWhole]
          exact congrArg some (shows.merge_whole (Or.inl rfl))
        · rw [isStub]
          exact congrArg some (shows.merge_whole (Or.inr rfl))
      exact ⟨fun _ => result, fun absent => absurd ⟨page, by simp, here⟩ absent⟩
    · rw [found, without _ noWhole]
      by_cases some : ∃ page ∈ pages, whole id ∈ page
      · have both := restorable id
          (some.imp fun _ both => ⟨List.mem_append_left _ both.1, both.2⟩)
          ⟨page, by simp, here⟩
        have result : mergeThreadMessageContent (whole id) (stub id) = whole id := by
          rcases shows.stubs id with same | defers
          · rw [same, mergeThreadMessageContent_self]
          · rcases both with same | restored
            · rw [same, mergeThreadMessageContent_self]
            · exact (defers.merge (shows.terminal id)).1 restored
        rw [isWhole some]
        exact ⟨fun _ => congrArg Option.some result, fun absent => absurd some absent⟩
      · have result : join mergeThreadMessageContent (foldId pages id) (Option.some (stub id)) =
            Option.some (stub id) := by
          by_cases stubs : ∃ page ∈ pages, stub id ∈ page
          · rw [(others some).1 stubs]
            exact congrArg Option.some (mergeThreadMessageContent_self _)
          · rw [(others some).2 stubs]
            rfl
        exact ⟨fun present => absurd present some,
          fun _ => ⟨fun _ => result, fun none => absurd ⟨page, by simp, here⟩ none⟩⟩

theorem exists_order_last {page : List (ThreadMessage Fields)} (member : page ∈ pages) (id : Int) :
    ∃ order, order.Perm pages ∧ ∃ found, foldId order id =
      join mergeThreadMessageContent found (lookup ThreadMessage.id id page) := by
  obtain ⟨before, after, rfl⟩ := List.append_of_mem member
  refine ⟨before ++ after ++ [page], ?_, _, foldId_concat _ _ _⟩
  rw [List.append_assoc]
  exact (List.perm_append_comm.trans (List.Perm.refl (page :: after))).append_left before

/-- Pages of one history merge to the same list in every order exactly when no message is shown
both whole and as a stub that does not restore it. -/
theorem mergePages_order_iff (shows : ShowsVersions whole stub pages) :
    (∀ order, order.Perm pages → mergePages order = mergePages pages) ↔
      Restorable whole stub pages := by
  obtain ⟨increasing, found⟩ := mergePages_spec shows.distinct
  have distinct : ∀ {order : List (List (ThreadMessage Fields))}, order.Perm pages →
      ∀ page ∈ order, Distinct ThreadMessage.id page := fun perm page member =>
    shows.distinct page (perm.mem_iff.mp member)
  constructor
  · intro same id ⟨first, isFirst, isWhole⟩ ⟨second, isSecond, isStub⟩
    by_contra lost
    obtain ⟨other, fresh⟩ := not_or.mp lost
    have defers := (shows.stubs id).resolve_left other
    obtain ⟨order, perm, before, foldsWhole⟩ := exists_order_last isFirst id
    obtain ⟨another, permutes, earlier, foldsStub⟩ := exists_order_last isSecond id
    rw [← (mergePages_spec (distinct perm)).2, same order perm, found,
      (lookup_eq_some_iff (shows.distinct first isFirst)).mpr ⟨isWhole, shows.ids id⟩] at foldsWhole
    rw [← (mergePages_spec (distinct permutes)).2, same another permutes, found, foldsWhole,
      (lookup_eq_some_iff (shows.distinct second isSecond)).mpr ⟨isStub, shows.stub_id id⟩]
      at foldsStub
    have whole_last : join mergeThreadMessageContent before (some (whole id)) = some (whole id) := by
      cases before with
      | none => rfl
      | some message => exact congrArg some (mergeThreadMessageContent_whole defers.whole message)
    rw [whole_last] at foldsStub
    cases earlier with
    | none => exact other (Option.some.inj foldsStub).symm
    | some message =>
      exact (defers.merge (shows.terminal id)).2.1 fresh message (Option.some.inj foldsStub).symm
  · intro restorable order perm
    obtain ⟨sorted, foundOrder⟩ := mergePages_spec (distinct perm)
    have moved : ShowsVersions whole stub order :=
      { shows with
        distinct := distinct perm
        shown := fun page member => shows.shown page (perm.mem_iff.mp member) }
    have still : Restorable whole stub order := by
      simpa only [Restorable, perm.mem_iff] using restorable
    refine eq_of_lookup sorted increasing fun id => ?_
    rw [found, foundOrder]
    have here := foldId_eq shows restorable id
    have there := foldId_eq moved still id
    simp only [perm.mem_iff] at there
    by_cases isWhole : ∃ page ∈ pages, whole id ∈ page
    · rw [here.1 isWhole, there.1 isWhole]
    · by_cases isStub : ∃ page ∈ pages, stub id ∈ page
      · rw [(here.2 isWhole).1 isStub, (there.2 isWhole).1 isStub]
      · rw [(here.2 isWhole).2 isStub, (there.2 isWhole).2 isStub]

/-- Merging histories: two lists, and the pages of one history in any order. -/
theorem messageHistory_iff (Fields : Type) :
    (∀ current incoming : List (ThreadMessage Fields), Distinct ThreadMessage.id current →
      Distinct ThreadMessage.id incoming →
        (MergedRight current incoming (mergeThreadMessageHistory current incoming) ↔
          (incoming = [] → Increasing ThreadMessage.id current) ∧
            ∀ message ∈ current, ∀ other ∈ incoming, message.id = other.id →
              ¬Unretained message other)) ∧
      ∀ (whole stub : Int → ThreadMessage Fields) (pages : List (List (ThreadMessage Fields))),
        ShowsVersions whole stub pages →
          ((∀ order, order.Perm pages → mergePages order = mergePages pages) ↔
            Restorable whole stub pages) :=
  ⟨fun _ _ distinct apart => mergedRight_iff distinct apart,
    fun _ _ _ shows => mergePages_order_iff shows⟩

def fileChange (state : MessageState) (diffText : String) (diffLoaded : Bool) : ThreadMessage Unit :=
  ⟨1, some state, .fileChange diffText.toList (some diffLoaded), ()⟩

theorem messageHistory_loaded : MergedRight [fileChange .completed "diff" true]
    [fileChange .completed "" false]
    (mergeThreadMessageHistory [fileChange .completed "diff" true] [fileChange .completed "" false]) := by
  refine ((messageHistory_iff Unit).1 _ _ (by decide) (by decide)).mpr ⟨by simp, ?_⟩
  intro message isMessage other isOther _
  rw [List.mem_singleton.mp isMessage, List.mem_singleton.mp isOther]
  exact fun unretained => absurd unretained.1 (by decide)

/-- The diff of an unfinished change stays, as the loaded diff of the finished one. -/
theorem messageHistory_unfinished : ¬MergedRight [fileChange .inProgress "half" true]
    [fileChange .completed "" false]
    (mergeThreadMessageHistory [fileChange .inProgress "half" true]
      [fileChange .completed "" false]) := by
  intro right
  have kept := right.both _ (List.mem_singleton.mpr rfl) _ (List.mem_singleton.mpr rfl) rfl
  exact absurd kept (by decide +kernel)

end Metidos.Client.History
