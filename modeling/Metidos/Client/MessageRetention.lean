import Metidos.Client.MessageHistory
import Metidos.Ingress.IngressMessages
import Metidos.Library.LongestSuffix

/-!
`src/mainview/app/thread-message-retention.ts`: what of a transcript the browser keeps.
-/

namespace Metidos.Client.Retention

open Ingress (estimateBase64ByteLength)

abbrev Units := List Nat

inductive Content
  | chat (text : Units) (images : Option (List History.ChatImage))
  | reasoning (text : Units)
  | command (command output : Units) (outputLoaded : Option Bool)
  | toolCall (argumentsText output : Units) (outputLoaded : Option Bool)
      (outputImages : Option (List History.ChatImage))
  | fileChange (diffText : Units) (diffLoaded : Option Bool)
  | webSearch (query : Units)
  | error (text : Units)

/-- A message; `fields` are the others. -/
structure RpcThreadMessage (Fields : Type) where
  content : Content
  fields : Fields

def maxRetainedThreadMessages : Nat := 500

def maxRetainedThreadMessageTextBytes : Nat := 4 * 1024 * 1024

def maxRetainedThreadMessageBodyBytes : Nat := 256 * 1024

def truncatedMessageSuffix : Units :=
  JsText.utf16 "\n\n… [older transcript content was truncated from browser memory]".toList

def stringByteLength (value : Units) : Nat := value.length * 2

/-- `changed` and `value`. -/
def truncateStringForRetention (value : Units) : Bool × Units :=
  if stringByteLength value ≤ maxRetainedThreadMessageBodyBytes then (false, value)
  else
    let maxCharacters := maxRetainedThreadMessageBodyBytes / 2 - truncatedMessageSuffix.length
    (true, value.take maxCharacters ++ truncatedMessageSuffix)

def stripImagePayload (image : History.ChatImage) : History.ChatImage :=
  if image.data = [] then image
  else
    { image with
      byteSize := image.byteSize.or (some (estimateBase64ByteLength image.data))
      data := []
      dataLoaded := some false }

def stripImages (images : Option (List History.ChatImage)) :
    Bool × Option (List History.ChatImage) :=
  (images.any fun images => images.any fun image => stripImagePayload image ≠ image,
    images.map fun images => images.map stripImagePayload)

/-- Whether the message is another one, and its content. -/
def compactContent : Content → Bool × Content
  | .chat text images =>
    let (textChanged, text) := truncateStringForRetention text
    let (imagesChanged, images) := stripImages images
    (textChanged || imagesChanged, .chat text images)
  | .reasoning text =>
    let (changed, text) := truncateStringForRetention text
    (changed, .reasoning text)
  | .command command output outputLoaded =>
    let (commandChanged, command) := truncateStringForRetention command
    let (outputChanged, output) := truncateStringForRetention output
    (commandChanged || outputChanged,
      .command command output (if outputChanged then some false else outputLoaded))
  | .toolCall argumentsText output outputLoaded outputImages =>
    let (argumentsChanged, argumentsText) := truncateStringForRetention argumentsText
    let (outputChanged, output) := truncateStringForRetention output
    let (imagesChanged, outputImages) := stripImages outputImages
    (argumentsChanged || outputChanged || imagesChanged,
      .toolCall argumentsText output (if outputChanged then some false else outputLoaded)
        outputImages)
  | .fileChange diffText diffLoaded =>
    let (changed, diffText) := truncateStringForRetention diffText
    (changed, .fileChange diffText (if changed then some false else diffLoaded))
  | .webSearch query =>
    let (changed, query) := truncateStringForRetention query
    (changed, .webSearch query)
  | .error text =>
    let (changed, text) := truncateStringForRetention text
    (changed, .error text)

def imagesBytes (images : Option (List History.ChatImage)) : Nat :=
  ((images.getD []).map fun image => estimateBase64ByteLength image.data).sum

def contentBytes : Content → Nat
  | .chat text images => stringByteLength text + imagesBytes images
  | .reasoning text => stringByteLength text
  | .command command output _ => stringByteLength command + stringByteLength output
  | .toolCall argumentsText output _ outputImages =>
    stringByteLength argumentsText + stringByteLength output + imagesBytes outputImages
  | .fileChange diffText _ => stringByteLength diffText
  | .webSearch query => stringByteLength query
  | .error text => stringByteLength text

variable {Fields : Type}

def compactThreadMessageForRetention (message : RpcThreadMessage Fields) :
    RpcThreadMessage Fields :=
  { message with content := (compactContent message.content).2 }

def estimateThreadMessageRetainedBytes (message : RpcThreadMessage Fields) : Nat :=
  contentBytes message.content

def estimateThreadMessagesRetainedBytes (messages : List (RpcThreadMessage Fields)) : Nat :=
  (messages.map estimateThreadMessageRetainedBytes).sum

/-- The loop of `retainRecentThreadMessages`. -/
def dropOldest : Nat → List (RpcThreadMessage Fields) → List (RpcThreadMessage Fields)
  | totalBytes, removedMessage :: next :: rest =>
    if maxRetainedThreadMessageTextBytes < totalBytes then
      dropOldest (totalBytes - estimateThreadMessageRetainedBytes removedMessage) (next :: rest)
    else removedMessage :: next :: rest
  | _, messages => messages

def retainRecentThreadMessages (messages : List (RpcThreadMessage Fields)) :
    List (RpcThreadMessage Fields) :=
  let tooMany := maxRetainedThreadMessages < messages.length
  let retainedMessages :=
    if tooMany then messages.drop (messages.length - maxRetainedThreadMessages) else messages
  let compactedMessages := retainedMessages.map compactThreadMessageForRetention
  let kept := dropOldest (estimateThreadMessagesRetainedBytes compactedMessages) compactedMessages
  if tooMany ∨ (retainedMessages.any fun message => (compactContent message.content).1) ∨
      kept.length < compactedMessages.length then kept
  else messages

theorem truncate_length (value : Units) : (truncateStringForRetention value).2.length ≤ 131072 := by
  have suffixLength : truncatedMessageSuffix.length ≤ 131072 := by decide +kernel
  rw [truncateStringForRetention]
  split
  · rename_i short
    simp only [stringByteLength, maxRetainedThreadMessageBodyBytes] at short
    dsimp only
    omega
  · simp only [List.length_append, List.length_take, maxRetainedThreadMessageBodyBytes]
    omega

theorem truncate_settled (value : Units) :
    truncateStringForRetention (truncateStringForRetention value).2 =
      (false, (truncateStringForRetention value).2) := by
  have short := truncate_length value
  rw [truncateStringForRetention, if_pos]
  simp only [stringByteLength, maxRetainedThreadMessageBodyBytes]
  omega

theorem truncate_unchanged {value : Units} (same : (truncateStringForRetention value).1 = false) :
    (truncateStringForRetention value).2 = value := by
  rw [truncateStringForRetention] at same ⊢
  split at same
  · rename_i short
    rw [if_pos short]
  · cases same

theorem stripImagePayload_data (image : History.ChatImage) :
    (stripImagePayload image).data = [] := by
  rw [stripImagePayload]
  split
  · assumption
  · rfl

theorem stripImages_settled (images : Option (List History.ChatImage)) :
    stripImages (stripImages images).2 = (false, (stripImages images).2) := by
  have once (image : History.ChatImage) :
      stripImagePayload (stripImagePayload image) = stripImagePayload image := by
    rw [stripImagePayload, if_pos (stripImagePayload_data image)]
  cases images <;> simp [stripImages, once, Function.comp_def]

theorem stripImages_unchanged {images : Option (List History.ChatImage)}
    (same : (stripImages images).1 = false) : (stripImages images).2 = images := by
  cases images with
  | none => rfl
  | some images =>
    simp only [stripImages, Option.any_some, List.any_eq_false, decide_eq_true_eq, not_not] at same
    simp only [stripImages, Option.map_some, Option.some.injEq]
    exact (List.map_congr_left same).trans (List.map_id _)

theorem imagesBytes_strip (images : Option (List History.ChatImage)) :
    imagesBytes (stripImages images).2 = 0 := by
  have nothing : estimateBase64ByteLength [] = 0 := by decide
  cases images <;>
    simp [stripImages, imagesBytes, stripImagePayload_data, nothing, Function.comp_def]

theorem compactContent_settled (content : Content) :
    compactContent (compactContent content).2 = (false, (compactContent content).2) := by
  cases content <;> simp [compactContent, truncate_settled, stripImages_settled]

theorem compactContent_unchanged {content : Content} (same : (compactContent content).1 = false) :
    (compactContent content).2 = content := by
  cases content <;> simp only [compactContent, Bool.or_eq_false_iff] at same <;>
    simp [compactContent, truncate_unchanged, stripImages_unchanged, same]

theorem contentBytes_compact (content : Content) :
    contentBytes (compactContent content).2 ≤ 524288 := by
  cases content <;>
    simp only [compactContent, contentBytes, stringByteLength, imagesBytes_strip] <;>
    grind [truncate_length]

/-- What the browser may hold of a transcript. -/
def Fits (messages : List (RpcThreadMessage Fields)) : Prop :=
  messages.length ≤ maxRetainedThreadMessages ∧
    estimateThreadMessagesRetainedBytes messages ≤ maxRetainedThreadMessageTextBytes

theorem dropOldest_longest (messages : List (RpcThreadMessage Fields))
    (few : messages.length ≤ maxRetainedThreadMessages)
    (small : ∀ message ∈ messages,
      estimateThreadMessageRetainedBytes message ≤ maxRetainedThreadMessageTextBytes) :
    LongestSuffix Fits messages
      (dropOldest (estimateThreadMessagesRetainedBytes messages) messages) := by
  induction messages with
  | nil => exact ⟨List.suffix_rfl, ⟨few, Nat.zero_le _⟩, fun _ suffix _ => suffix⟩
  | cons first rest ih =>
    have total : estimateThreadMessagesRetainedBytes (first :: rest) =
        estimateThreadMessageRetainedBytes first + estimateThreadMessagesRetainedBytes rest :=
      List.sum_cons
    by_cases fits : estimateThreadMessagesRetainedBytes (first :: rest) ≤
        maxRetainedThreadMessageTextBytes
    · have whole : dropOldest (estimateThreadMessagesRetainedBytes (first :: rest))
          (first :: rest) = first :: rest := by
        cases rest with
        | nil => rfl
        | cons next others => rw [dropOldest, if_neg (Nat.not_lt.mpr fits)]
      rw [whole]
      exact ⟨List.suffix_rfl, ⟨few, fits⟩, fun _ suffix _ => suffix⟩
    · cases rest with
      | nil =>
        have alone := small first List.mem_cons_self
        rw [total] at fits
        exact absurd alone (by simpa [estimateThreadMessagesRetainedBytes] using fits)
      | cons next others =>
        have later := ih (Nat.le_of_succ_le few) fun message member =>
          small message (List.mem_cons_of_mem _ member)
        rw [dropOldest, if_pos (Nat.lt_of_not_le fits), total, Nat.add_sub_cancel_left]
        refine ⟨later.suffix.trans (List.suffix_cons _ _), later.holds,
          fun other suffix fitting => ?_⟩
        rcases List.suffix_cons_iff.mp suffix with rfl | shorter
        · exact absurd fitting.2 fits
        · exact later.longest other shorter fitting

theorem retainRecentThreadMessages_longest (messages : List (RpcThreadMessage Fields)) :
    LongestSuffix Fits (messages.map compactThreadMessageForRetention)
      (retainRecentThreadMessages messages) := by
  rw [retainRecentThreadMessages]
  generalize isRecent : (if maxRetainedThreadMessages < messages.length then
    messages.drop (messages.length - maxRetainedThreadMessages) else messages) = recent
  have ends : recent <:+ messages := by
    rw [← isRecent]
    split
    · exact List.drop_suffix _ _
    · exact List.suffix_rfl
  have few : recent.length ≤ maxRetainedThreadMessages ∧
      (recent.length < maxRetainedThreadMessages → recent = messages) := by
    subst isRecent
    split
    · rw [List.length_drop]
      omega
    · exact ⟨by omega, fun _ => rfl⟩
  have kept := dropOldest_longest (recent.map compactThreadMessageForRetention)
    (by rw [List.length_map]; exact few.1) fun message member => by
      obtain ⟨whole, _, rfl⟩ := List.mem_map.mp member
      exact (contentBytes_compact whole.content).trans (by decide)
  have mapped : recent.map compactThreadMessageForRetention <:+
      messages.map compactThreadMessageForRetention := ends.map _
  have longest : LongestSuffix Fits (messages.map compactThreadMessageForRetention)
      (dropOldest (estimateThreadMessagesRetainedBytes
        (recent.map compactThreadMessageForRetention))
        (recent.map compactThreadMessageForRetention)) := by
    refine ⟨kept.suffix.trans mapped, kept.holds, fun other suffix fits => ?_⟩
    refine kept.longest other ?_ fits
    by_cases full : recent.length < maxRetainedThreadMessages
    · rwa [few.2 full]
    · refine List.suffix_of_suffix_length_le suffix mapped ?_
      rw [List.length_map]
      exact fits.1.trans (Nat.le_of_not_lt full)
  split
  · exact longest
  · rename_i same
    simp only [not_or, List.any_eq_true, not_exists, not_and, Bool.not_eq_true] at same
    obtain ⟨notMany, unchanged, all⟩ := same
    rw [if_neg notMany] at isRecent
    subst isRecent
    have settled : messages.map compactThreadMessageForRetention = messages :=
      (List.map_congr_left fun message member => by
        rw [compactThreadMessageForRetention,
          compactContent_unchanged (unchanged message member)]; rfl).trans (List.map_id _)
    have whole := kept.suffix.eq_of_length_le (Nat.le_of_not_lt all)
    rw [whole, settled] at longest
    rwa [settled]

/-- Messages that come in batches are retained as if they had come at once: the longest end of the
compacted transcript that the browser may hold. -/
theorem retained_along_batches (batches : List (List (RpcThreadMessage Fields))) :
    let shown := batches.foldl (fun shown batch => retainRecentThreadMessages (shown ++ batch)) []
    shown = retainRecentThreadMessages batches.flatten ∧
      LongestSuffix Fits (batches.flatten.map compactThreadMessageForRetention) shown := by
  intro shown
  have longest : LongestSuffix Fits (batches.flatten.map compactThreadMessageForRetention)
      shown := by
    refine LongestSuffix.foldl (fun front back => ?_) (fun message => ?_)
      retainRecentThreadMessages_longest ⟨Nat.zero_le _, Nat.zero_le _⟩ batches
    · simp only [Fits, estimateThreadMessagesRetainedBytes, List.length_append, List.map_append,
        List.sum_append]
      omega
    · simp only [compactThreadMessageForRetention, compactContent_settled]
  exact ⟨longest.unique (retainRecentThreadMessages_longest _), longest⟩

end Metidos.Client.Retention
