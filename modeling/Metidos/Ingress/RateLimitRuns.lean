import Metidos.Ingress.MessageRows
import Metidos.Library.Tally

/-!
What the ingress store keeps of unverified senders against what they sent: the messages it
stores in any ten minutes and any day, and the markers of the messages it turned away.
-/

namespace Metidos.Ingress

open IngressDatabase Tally Transition

structure Sender where
  pluginId : Text
  sourceId : Text
  externalUserId : Text
  conversationId : Option Text
  deriving DecidableEq

def PluginIngressMessageRecord.sender (record : PluginIngressMessageRecord) : Sender :=
  ⟨record.pluginId, record.sourceId, record.externalUserId, record.conversationId⟩

def PersistPluginIngressMessageInput.sender (input : PersistPluginIngressMessageInput) : Sender :=
  ⟨input.pluginId, input.sourceId, input.externalUserId, input.conversationId⟩

def isUnverifiedWithin (sender : Sender) (first last : Int)
    (record : PluginIngressMessageRecord) : Bool :=
  record.sender = sender ∧ record.status = .unverified ∧ first ≤ record.receivedAt ∧
    record.receivedAt ≤ last

def unverifiedWithin (database : IngressDatabase) (sender : Sender) (first last : Int) : Nat :=
  database.messages.countP (isUnverifiedWithin sender first last)

def NoMoreUnverified (before after : IngressDatabase) : Prop :=
  ∀ sender first last,
    unverifiedWithin after sender first last ≤ unverifiedWithin before sender first last

variable {before middle after database : IngressDatabase} {host : StoreHost}

theorem NoMoreUnverified.trans (first : NoMoreUnverified before middle)
    (second : NoMoreUnverified middle after) : NoMoreUnverified before after :=
  fun sender start finish => (second sender start finish).trans (first sender start finish)

theorem NoMoreUnverified.same (messages : after.messages = before.messages) :
    NoMoreUnverified before after := by
  intro sender first last
  rw [unverifiedWithin, messages, unverifiedWithin]

theorem NoMoreUnverified.update (update : PluginIngressMessageRecord → PluginIngressMessageRecord)
    (counted : ∀ sender first last row, isUnverifiedWithin sender first last (update row) = true →
      isUnverifiedWithin sender first last row = true)
    (messages : after.messages = before.messages.map update) : NoMoreUnverified before after := by
  intro sender first last
  rw [unverifiedWithin, messages, List.countP_map, unverifiedWithin]
  exact List.countP_mono_left fun row _ => counted sender first last row

theorem redactOld_counted (now : Int) (sender : Sender) (first last : Int)
    (row : PluginIngressMessageRecord) :
    isUnverifiedWithin sender first last (redactOld now row) =
      isUnverifiedWithin sender first last row := by
  rw [redactOld]
  split
  · rfl
  · rfl

theorem cleanup_noMore (database : IngressDatabase) (now : Int) :
    NoMoreUnverified database (database.cleanupPluginIngressMessages now) := by
  intro sender first last
  have kept := (List.filter_sublist (l := database.messages)
    (p := fun record => !((record.status = .unverified ∨ record.status = .ignored) ∧
      record.receivedAt < now - pluginIngressUnverifiedRetentionMs))).countP_le
    (p := isUnverifiedWithin sender first last)
  refine le_trans List.filter_sublist.countP_le (le_trans ?_ kept)
  rw [List.countP_map]
  refine List.countP_mono_left ?_
  intro row _ counts
  exact (redactOld_counted now sender first last row).symm.trans counts

theorem cleaned_noMore (database : IngressDatabase) (now : Int) :
    NoMoreUnverified database (database.cleaned now) := by
  have initialized : NoMoreUnverified database database.initSchema := .same rfl
  rw [cleaned, maybeCleanupPluginIngressMessages]
  split
  · exact initialized
  · exact initialized.trans ((cleanup_noMore _ now).trans (.same rfl))

theorem updateMessage_noMore {update : PluginIngressMessageRecord → PluginIngressMessageRecord}
    (verified : ∀ row, (update row).status ≠ .unverified) (database : IngressDatabase)
    (pluginId sourceId externalMessageId : Text) :
    NoMoreUnverified database
      (database.updateMessage pluginId sourceId externalMessageId update) := by
  refine .update _ ?_ rfl
  intro sender first last row counts
  split at counts
  · simp [isUnverifiedWithin, verified row] at counts
  · exact counts

theorem markProcessed_noMore (database : IngressDatabase)
    (pluginId sourceId externalMessageId : Text) (threadId : Nat) (metadata : Metadata)
    (now : Int) :
    NoMoreUnverified database (database.markPluginIngressMessageProcessed pluginId sourceId
      externalMessageId threadId metadata now).2 := by
  rw [markPluginIngressMessageProcessed]
  generalize changed : updateMessage _ _ _ _ _ = updated
  have fewer : NoMoreUnverified database updated := by
    rw [← changed]
    refine NoMoreUnverified.trans (.same rfl) (updateMessage_noMore ?_ _ _ _ _)
    intro row
    simp
  have read : NoMoreUnverified database updated.initSchema := fewer.trans (.same rfl)
  split
  · rename_i later found
    exact congrArg Prod.snd found ▸ read
  · rename_i later found
    exact congrArg Prod.snd found ▸ read

theorem markFailed_noMore (database : IngressDatabase)
    (pluginId sourceId externalMessageId reason : Text) (threadId : Option Nat)
    (metadata : Metadata) (now : Int) :
    NoMoreUnverified database (database.markPluginIngressMessageFailed pluginId sourceId
      externalMessageId reason threadId metadata now).2 := by
  have initialized : NoMoreUnverified database database.initSchema := .same rfl
  refine (initialized.trans (updateMessage_noMore ?_ _ _ _ _)).trans (.same rfl)
  intro row
  simp

def Limited (database : IngressDatabase) (length : Int) (limit : Nat) : Prop :=
  ∀ sender start, unverifiedWithin database sender start (start + length) ≤ limit

theorem Limited.noMore {length : Int} {limit : Nat} (limited : Limited before length limit)
    (fewer : NoMoreUnverified before after) : Limited after length limit :=
  fun sender start => (fewer sender start (start + length)).trans (limited sender start)

theorem unverifiedWithin_le_since (database : IngressDatabase)
    (input : PersistPluginIngressMessageInput) {since first : Int} (later : since ≤ first)
    (last : Int) :
    unverifiedWithin database input.sender first last ≤ database.unverifiedSince input since := by
  refine List.countP_mono_left ?_
  intro row _ counts
  simp only [isUnverifiedWithin, decide_eq_true_eq, PluginIngressMessageRecord.sender,
    PersistPluginIngressMessageInput.sender, Sender.mk.injEq] at counts
  obtain ⟨⟨plugin, source, user, conversation⟩, unverified, lower, -⟩ := counts
  exact decide_eq_true ⟨plugin, source, user, conversation, unverified, later.trans lower⟩

theorem insertMessage_limited {input : PersistPluginIngressMessageInput} {now length : Int}
    {limit : Nat} (limited : Limited database length limit)
    (stamped : input.status = .unverified → now ≤ input.receivedAt.getD now)
    (below : input.status = .unverified →
      database.unverifiedSince input (now - length) < limit) :
    Limited (database.insertMessage input now) length limit := by
  rw [insertMessage]
  split
  · rename_i existing found
    refine limited.noMore (.update
      (fun row => if row.id = existing.id then { row with updatedAt := now } else row) ?_ rfl)
    intro sender first last row counts
    split at counts
    · exact counts
    · exact counts
  · intro sender start
    have before := limited sender start
    simp only [unverifiedWithin, List.countP_append, List.countP_singleton] at before ⊢
    split
    · rename_i counts
      obtain ⟨isSender, unverified, -, upper⟩ := of_decide_eq_true counts
      subst isSender
      have last : input.receivedAt.getD now ≤ start + length := upper
      have atClock := stamped unverified
      have since := unverifiedWithin_le_since database input
        (show now - length ≤ start by omega) (start + length)
      exact Nat.succ_le_of_lt (since.trans_lt (below unverified))
    · exact before

def cleanupDue (database : IngressDatabase) (now : Int) : Bool :=
  database.lastCleanupAtMs = 0 ∨
    pluginIngressCleanupIntervalMs ≤ now - database.lastCleanupAtMs

def markersAfterCleanup (database : IngressDatabase) (now : Int) :
    List PluginIngressRateLimitMarkerRecord :=
  database.rateLimitMarkers.filter fun record =>
    !(record.lastSeenAt < now - pluginIngressResponseAuditRetentionMs)

theorem cleaned_markers (database : IngressDatabase) (now : Int) :
    (database.cleaned now).rateLimitMarkers =
      if cleanupDue database now then markersAfterCleanup database now
      else database.rateLimitMarkers := by
  have last : database.initSchema.lastCleanupAtMs = database.lastCleanupAtMs := rfl
  rw [cleaned, maybeCleanupPluginIngressMessages]
  split
  · rename_i recent
    rw [last] at recent
    have notDue : ¬cleanupDue database now = true := by
      simp only [cleanupDue, decide_eq_true_eq]
      omega
    rw [if_neg notDue]
    rfl
  · rename_i due
    rw [last] at due
    have isDue : cleanupDue database now = true := by
      simp only [cleanupDue, decide_eq_true_eq]
      omega
    rw [if_pos isDue]
    rfl

theorem insertMessage_markers (database : IngressDatabase)
    (input : PersistPluginIngressMessageInput) (now : Int) :
    (database.insertMessage input now).rateLimitMarkers = database.rateLimitMarkers := by
  rw [insertMessage]
  split
  · rfl
  · rfl

theorem insertMessage_found (database : IngressDatabase)
    (input : PersistPluginIngressMessageInput) (now : Int) :
    ((database.insertMessage input now).findMessage input.pluginId input.sourceId
      input.externalMessageId).isSome = true := by
  rw [insertMessage]
  split
  · rename_i existing found
    rw [findMessage] at found
    have isKey := List.find?_some found
    simp only [decide_eq_true_eq] at isKey
    rw [findMessage, List.find?_isSome]
    refine ⟨{ existing with updatedAt := now }, ?_, decide_eq_true isKey⟩
    exact List.mem_map.mpr ⟨existing, List.mem_of_find?_eq_some found, if_pos rfl⟩
  · rw [findMessage, List.find?_isSome]
    exact ⟨_, List.mem_append_right _ (List.mem_singleton.mpr rfl), by simp⟩

def markOverLimit (database : IngressDatabase) (input : PersistPluginIngressMessageInput)
    (now : Int) : IngressDatabase :=
  (database.upsertRateLimitMarker input .tenMinute (floorDate now tenMinutesMs)
    now).upsertRateLimitMarker input .day (floorDate now dayMs) now

theorem persist_cases (database : IngressDatabase) (input : PersistPluginIngressMessageInput)
    (now : Int) :
    (∃ message, validateInput input = .error message ∧
      database.persistPluginIngressMessage input now = (.error message, database)) ∨
    (validateInput input = .ok () ∧ input.status = .unverified ∧
      (database.cleaned now).isUnverifiedOverLimit input now = true ∧
      database.persistPluginIngressMessage input now =
        (.ok none, markOverLimit (database.cleaned now) input now)) ∨
    (validateInput input = .ok () ∧
      (input.status = .unverified →
        (database.cleaned now).isUnverifiedOverLimit input now = false) ∧
      ∃ record, database.persistPluginIngressMessage input now =
        (.ok (some record), ((database.cleaned now).insertMessage input now).initSchema)) := by
  rw [persistPluginIngressMessage]
  cases valid : validateInput input with
  | error message => exact Or.inl ⟨message, rfl, rfl⟩
  | ok _ =>
    by_cases full : input.status = .unverified ∧
        (database.cleaned now).isUnverifiedOverLimit input now = true
    · exact Or.inr (Or.inl ⟨rfl, full.1, full.2, if_pos full⟩)
    · obtain ⟨record, found⟩ := Option.isSome_iff_exists.mp
        (insertMessage_found (database.cleaned now) input now)
      refine Or.inr (Or.inr ⟨rfl, ?_, record, ?_⟩)
      · intro unverified
        exact Bool.eq_false_iff.mpr fun reached => full ⟨unverified, reached⟩
      · refine (if_neg full).trans ?_
        exact congrArg (fun read => (Except.ok read, _)) found

theorem persist_limited {input : PersistPluginIngressMessageInput} {now : Int}
    (stamped : validateInput input = .ok () → input.status = .unverified →
      now ≤ input.receivedAt.getD now)
    (window : Limited database tenMinutesMs pluginIngressUnverifiedWindowLimit)
    (day : Limited database dayMs pluginIngressUnverifiedDailyLimit) :
    Limited (database.persistPluginIngressMessage input now).2 tenMinutesMs
        pluginIngressUnverifiedWindowLimit ∧
      Limited (database.persistPluginIngressMessage input now).2 dayMs
        pluginIngressUnverifiedDailyLimit := by
  have cleaned := cleaned_noMore database now
  rcases persist_cases database input now with
    ⟨message, -, result⟩ | ⟨-, -, -, result⟩ | ⟨valid, room, record, result⟩
  · rw [result]
    exact ⟨window, day⟩
  · rw [result]
    have marked : NoMoreUnverified database (markOverLimit (database.cleaned now) input now) :=
      cleaned.trans (.same rfl)
    exact ⟨window.noMore marked, day.noMore marked⟩
  · rw [result]
    have below : input.status = .unverified →
        (database.cleaned now).unverifiedSince input (now - tenMinutesMs) <
            pluginIngressUnverifiedWindowLimit ∧
          (database.cleaned now).unverifiedSince input (now - dayMs) <
            pluginIngressUnverifiedDailyLimit := by
      intro unverified
      have free := room unverified
      simp only [isUnverifiedOverLimit, Bool.or_eq_false_iff, decide_eq_false_iff_not,
        Nat.not_le] at free
      exact free
    have read : NoMoreUnverified ((database.cleaned now).insertMessage input now)
        ((database.cleaned now).insertMessage input now).initSchema := .same rfl
    exact ⟨(insertMessage_limited (window.noMore cleaned) (stamped valid)
        fun unverified => (below unverified).1).noMore read,
      (insertMessage_limited (day.noMore cleaned) (stamped valid)
        fun unverified => (below unverified).2).noMore read⟩

end Metidos.Ingress

/-!
Runs of the store with the messages that the limit turned away.  A message without a conversation
gets a marker of its own, as its key never conflicts, so the markers are right as long as no
such message is turned away twice in a window.
-/

namespace Metidos.Ingress

open IngressDatabase Tally Transition

structure MarkerKey where
  sender : Sender
  windowKind : WindowKind
  windowStart : Int
  deriving DecidableEq

namespace PluginIngressRateLimitMarkerRecord

def key (record : PluginIngressRateLimitMarkerRecord) : MarkerKey :=
  ⟨⟨record.pluginId, record.sourceId, record.externalUserId, record.conversationId⟩,
    record.windowKind, record.windowStart⟩

def shown (record : PluginIngressRateLimitMarkerRecord) : Nat × Int :=
  (record.count, record.lastSeenAt)

end PluginIngressRateLimitMarkerRecord

open PluginIngressRateLimitMarkerRecord

def tenMinuteKey (input : PersistPluginIngressMessageInput) (now : Int) : MarkerKey :=
  ⟨input.sender, .tenMinute, floorDate now tenMinutesMs⟩

def dayKey (input : PersistPluginIngressMessageInput) (now : Int) : MarkerKey :=
  ⟨input.sender, .day, floorDate now dayMs⟩

theorem upsert_tallies {database : IngressDatabase} {turnedAway : List (MarkerKey × Int)}
    (tallies : Tallies key shown database.rateLimitMarkers turnedAway)
    {input : PersistPluginIngressMessageInput} {kind : WindowKind} {start : Int} (now : Int)
    (distinct : input.conversationId = none →
      ∀ record ∈ database.rateLimitMarkers, record.key ≠ ⟨input.sender, kind, start⟩) :
    Tallies key shown (database.upsertRateLimitMarker input kind start now).rateLimitMarkers
      ((⟨input.sender, kind, start⟩, now) :: turnedAway) := by
  have isKey : ∀ record : PluginIngressRateLimitMarkerRecord,
      (record.pluginId = input.pluginId ∧ record.sourceId = input.sourceId ∧
        record.externalUserId = input.externalUserId ∧ input.conversationId.isSome = true ∧
        record.conversationId = input.conversationId ∧ record.windowKind = kind ∧
        record.windowStart = start) ↔
      input.conversationId.isSome = true ∧ record.key = ⟨input.sender, kind, start⟩ := by
    intro record
    simp only [key, PersistPluginIngressMessageInput.sender, MarkerKey.mk.injEq, Sender.mk.injEq]
    tauto
  simp only [upsertRateLimitMarker, isKey]
  by_cases present : ∃ record ∈ database.rateLimitMarkers,
      record.key = ⟨input.sender, kind, start⟩
  · obtain ⟨record, member, same⟩ := present
    have conversation : input.conversationId.isSome = true := by
      cases given : input.conversationId with
      | none => exact absurd same (distinct given record member)
      | some conversation => rfl
    have found : (database.rateLimitMarkers.any fun record => decide
        (input.conversationId.isSome = true ∧ record.key = ⟨input.sender, kind, start⟩)) =
          true := List.any_eq_true.mpr ⟨record, member, decide_eq_true ⟨conversation, same⟩⟩
    rw [if_pos found]
    simp only [conversation, true_and, decide_eq_true_eq]
    exact tallies.again (fun record =>
      { record with lastSeenAt := now, count := record.count + 1 }) (fun _ => rfl)
      (fun _ => rfl) ⟨record, member, same⟩
  · have absent : ∀ record ∈ database.rateLimitMarkers,
        record.key ≠ ⟨input.sender, kind, start⟩ :=
      fun record member same => present ⟨record, member, same⟩
    have missing : ¬(database.rateLimitMarkers.any fun record => decide
        (input.conversationId.isSome = true ∧ record.key = ⟨input.sender, kind, start⟩)) =
          true := by
      intro found
      obtain ⟨record, member, matching⟩ := List.any_eq_true.mp found
      exact absent record member (of_decide_eq_true matching).2
    rw [if_neg missing]
    exact tallies.first absent rfl

theorem upsert_keys (database : IngressDatabase) (input : PersistPluginIngressMessageInput)
    (kind : WindowKind) (start now : Int) :
    ∀ record ∈ (database.upsertRateLimitMarker input kind start now).rateLimitMarkers,
      record.key = ⟨input.sender, kind, start⟩ ∨
        ∃ old ∈ database.rateLimitMarkers, old.key = record.key := by
  intro record member
  simp only [upsertRateLimitMarker] at member
  split at member
  · obtain ⟨old, isOld, rfl⟩ := List.mem_map.mp member
    refine Or.inr ⟨old, isOld, ?_⟩
    split
    · rfl
    · rfl
  · rcases List.mem_append.mp member with isOld | isNew
    · exact Or.inr ⟨record, isOld, rfl⟩
    · exact Or.inl (List.mem_singleton.mp isNew ▸ rfl)

structure RateLimitHistory where
  database : IngressDatabase
  turnedAway : List (MarkerKey × Int)

def RateLimitHistory.initial : RateLimitHistory := ⟨.empty, []⟩

def isOldMarker (now seen : Int) : Bool := seen < now - pluginIngressResponseAuditRetentionMs

def isTurnedAway : Except String (Option PluginIngressMessageRecord) → Bool
  | .ok none => true
  | _ => false

def turnedAwayAfter (history : RateLimitHistory) : StoreEvent → List (MarkerKey × Int)
  | .cleanup now => forget (isOldMarker now) history.turnedAway
  | .persistMessage input now =>
    let kept :=
      if (validateInput input).isOk && cleanupDue history.database now then
        forget (isOldMarker now) history.turnedAway
      else history.turnedAway
    if isTurnedAway (history.database.persistPluginIngressMessage input now).1 then
      (dayKey input now, now) :: (tenMinuteKey input now, now) :: kept
    else kept
  | _ => history.turnedAway

def rateLimitStep (host : StoreHost) (history : RateLimitHistory) (event : StoreEvent) :
    Option RateLimitHistory :=
  (storeStep host history.database event).map fun database =>
    { database, turnedAway := turnedAwayAfter history event }

def isUnmarked (database : IngressDatabase) (input : PersistPluginIngressMessageInput)
    (now : Int) : Bool :=
  database.rateLimitMarkers.all fun record =>
    record.key ≠ tenMinuteKey input now && record.key ≠ dayKey input now

/-- A valid unverified message was not received before the clock's time, as the callers leave
that to the store; and where it has no conversation and is over the limit, it is the first such
message of its windows. -/
def isAccountable (history : RateLimitHistory) : StoreEvent → Bool
  | .persistMessage input now =>
    !(validateInput input).isOk || input.status ≠ .unverified ||
      decide (now ≤ input.receivedAt.getD now) &&
        (input.conversationId.isSome ||
          !(history.database.cleaned now).isUnverifiedOverLimit input now ||
          isUnmarked (history.database.cleaned now) input now)
  | _ => true

def Accountable (history : RateLimitHistory) (event : StoreEvent) : Prop :=
  isAccountable history event = true

structure Accounted (history : RateLimitHistory) : Prop where
  window : Limited history.database tenMinutesMs pluginIngressUnverifiedWindowLimit
  day : Limited history.database dayMs pluginIngressUnverifiedDailyLimit
  markers : Tallies key shown history.database.rateLimitMarkers history.turnedAway

theorem initial_accounted : Accounted .initial where
  window := fun _ _ => Nat.zero_le _
  day := fun _ _ => Nat.zero_le _
  markers := tallies_nil key shown

variable {before after history : RateLimitHistory} {host : StoreHost}

theorem cleaned_tallies (tallies : Tallies key shown before.database.rateLimitMarkers
    before.turnedAway) (now : Int) :
    Tallies key shown (before.database.cleaned now).rateLimitMarkers
      (if cleanupDue before.database now then forget (isOldMarker now) before.turnedAway
        else before.turnedAway) := by
  rw [cleaned_markers]
  split
  · exact tallies.forget (isOldMarker now)
  · exact tallies

theorem markOverLimit_tallies {database : IngressDatabase}
    {turnedAway : List (MarkerKey × Int)}
    (tallies : Tallies key shown database.rateLimitMarkers turnedAway)
    {input : PersistPluginIngressMessageInput} {now : Int}
    (unmarked : input.conversationId = none → isUnmarked database input now = true) :
    Tallies key shown (markOverLimit database input now).rateLimitMarkers
      ((dayKey input now, now) :: (tenMinuteKey input now, now) :: turnedAway) := by
  have absent : input.conversationId = none → ∀ record ∈ database.rateLimitMarkers,
      record.key ≠ tenMinuteKey input now ∧ record.key ≠ dayKey input now := by
    intro without record member
    have checked := List.all_eq_true.mp (unmarked without) record member
    simpa only [ne_eq, Bool.and_eq_true, decide_eq_true_eq] using checked
  have window := upsert_tallies tallies now fun without record member =>
    (absent without record member).1
  refine upsert_tallies window now ?_
  intro without record member
  rcases upsert_keys database input _ _ now record member with isNew | ⟨old, isOld, sameKey⟩
  · rw [isNew]
    simp
  · rw [← sameKey]
    exact (absent without old isOld).2

theorem persist_accounted (accounted : Accounted before)
    {input : PersistPluginIngressMessageInput} {now : Int}
    (may : Accountable before (.persistMessage input now)) :
    Accounted ⟨(before.database.persistPluginIngressMessage input now).2,
      turnedAwayAfter before (.persistMessage input now)⟩ := by
  have stamped : validateInput input = .ok () → input.status = .unverified →
      now ≤ input.receivedAt.getD now := by
    intro valid unverified
    simp only [Accountable, isAccountable, valid, unverified] at may
    exact of_decide_eq_true (Bool.and_eq_true_iff.mp may).1
  have limits := persist_limited stamped accounted.window accounted.day
  refine ⟨limits.1, limits.2, ?_⟩
  have cleaned := cleaned_tallies accounted.markers now
  rcases persist_cases before.database input now with
    ⟨message, valid, result⟩ | ⟨valid, unverified, full, result⟩ | ⟨valid, room, record, result⟩
  · simp only [turnedAwayAfter, result, valid]
    exact accounted.markers
  · simp only [turnedAwayAfter, result, valid]
    refine markOverLimit_tallies cleaned ?_
    intro without
    simp only [Accountable, isAccountable, valid, unverified, full, without] at may
    exact (Bool.and_eq_true_iff.mp may).2
  · simp only [turnedAwayAfter, result, valid, initSchema, insertMessage_markers]
    exact cleaned

theorem markProcessed_markers (database : IngressDatabase)
    (pluginId sourceId externalMessageId : Text) (threadId : Nat) (metadata : Metadata)
    (now : Int) :
    (database.markPluginIngressMessageProcessed pluginId sourceId externalMessageId threadId
      metadata now).2.rateLimitMarkers = database.rateLimitMarkers := by
  rw [markPluginIngressMessageProcessed]
  generalize changed : updateMessage _ _ _ _ _ = updated
  have read : updated.initSchema.rateLimitMarkers = database.rateLimitMarkers :=
    changed ▸ rfl
  split
  · rename_i later found
    exact congrArg Prod.snd found ▸ read
  · rename_i later found
    exact congrArg Prod.snd found ▸ read

theorem rateLimitStep_accounted {event : StoreEvent} (accounted : Accounted before)
    (may : Accountable before event) (step : rateLimitStep host before event = some after) :
    Accounted after := by
  obtain ⟨database, stepped, rfl⟩ := Option.map_eq_some_iff.mp step
  cases event with
  | persistMessage input now =>
    cases stepped
    exact persist_accounted accounted may
  | markProcessed pluginId sourceId externalMessageId threadId routingMetadata now =>
    cases stepped
    have fewer := markProcessed_noMore before.database pluginId sourceId externalMessageId
      threadId routingMetadata now
    refine ⟨accounted.window.noMore fewer, accounted.day.noMore fewer, ?_⟩
    rw [markProcessed_markers]
    exact accounted.markers
  | markFailed pluginId sourceId externalMessageId reason threadId errorMetadata now =>
    cases stepped
    have fewer := markFailed_noMore before.database pluginId sourceId externalMessageId reason
      threadId errorMetadata now
    exact ⟨accounted.window.noMore fewer, accounted.day.noMore fewer, accounted.markers⟩
  | cleanup now =>
    cases stepped
    have fewer := cleanup_noMore before.database now
    exact ⟨accounted.window.noMore fewer, accounted.day.noMore fewer,
      accounted.markers.forget (isOldMarker now)⟩
  | read | createAuditEvent | createLinkCode | consumeLinkCode | consumeLinkCodeForExternalUser
  | setExternalBindingEnabled | deleteExternalBinding | upsertRouteConfig =>
    have leaves := storeStep_leaves rfl stepped
    have fewer : NoMoreUnverified before.database database := .same leaves.messages
    refine ⟨accounted.window.noMore fewer, accounted.day.noMore fewer, ?_⟩
    rw [leaves.markers]
    exact accounted.markers

theorem reaches_accounted
    (reached : Reaches (rateLimitStep host) Accountable .initial history) : Accounted history :=
  reached.invariant Accounted initial_accounted fun _ _ _ accounted may step =>
    rateLimitStep_accounted accounted may step

def markersOf (database : IngressDatabase) (key : MarkerKey) :
    List PluginIngressRateLimitMarkerRecord :=
  database.rateLimitMarkers.filter fun record => record.key = key

/-- In every run the limits hold for what is stored, and a window has a marker exactly when
messages were turned away in it, one that shows how many. -/
theorem rate_limit_accounts (host : StoreHost) (history : RateLimitHistory)
    (reached : Reaches (rateLimitStep host) Accountable .initial history) :
    (∀ sender start,
      unverifiedWithin history.database sender start (start + tenMinutesMs) ≤
        pluginIngressUnverifiedWindowLimit) ∧
    (∀ sender start,
      unverifiedWithin history.database sender start (start + dayMs) ≤
        pluginIngressUnverifiedDailyLimit) ∧
    ∀ key,
      (times key history.turnedAway = [] → markersOf history.database key = []) ∧
      (times key history.turnedAway ≠ [] → ∃ marker,
        markersOf history.database key = [marker] ∧
          marker.count = (times key history.turnedAway).length) := by
  have accounted := reaches_accounted reached
  refine ⟨accounted.window, accounted.day, fun key => ⟨?_, accounted.markers.count⟩⟩
  intro none
  have sums := accounted.markers key
  rw [none] at sums
  exact List.map_eq_nil_iff.mp sums

namespace Sample

def anyHost : StoreHost := ⟨id, fun _ _ => true⟩

def fromStranger (conversationId : Option Text) (number : Nat) :
    PersistPluginIngressMessageInput where
  pluginId := "chat".toList
  sourceId := "inbox".toList
  externalMessageId := List.replicate number 'm'
  externalUserId := "mallory".toList
  conversationId := conversationId
  messageText := "hello".toList
  status := .unverified
  responseHandle := none
  routingMetadata := none
  errorMetadata := none
  receivedAt := none

def twelveMessages (conversationId : Option Text) : List StoreEvent :=
  (List.range 12).map fun number =>
    .persistMessage (fromStranger conversationId (number + 1)) (1000 + number)

def firstWindow (conversationId : Option Text) : MarkerKey :=
  tenMinuteKey (fromStranger conversationId 1) 1000

end Sample

open Sample

theorem rate_limit_accounts_conversation :
    ∃ (history : RateLimitHistory) (marker : PluginIngressRateLimitMarkerRecord),
      times (firstWindow (some ['c'])) history.turnedAway = [1011, 1010] ∧
      markersOf history.database (firstWindow (some ['c'])) = [marker] ∧ marker.count = 2 := by
  have ran : (Transition.run (rateLimitStep anyHost) isAccountable .initial
      (twelveMessages (some ['c']))).any (fun history => decide
        (times (firstWindow (some ['c'])) history.turnedAway = [1011, 1010])) = true := by
    decide +kernel
  obtain ⟨history, isRun, turned⟩ := (Option.any_eq_true _ _).mp ran
  have logged := of_decide_eq_true turned
  obtain ⟨marker, isOnly, counts⟩ := ((rate_limit_accounts anyHost history
    (reaches_of_run isRun)).2.2 _).2 (by rw [logged]; exact List.cons_ne_nil _ _)
  exact ⟨history, marker, logged, isOnly, by rw [counts, logged]; rfl⟩

theorem rate_limit_accounts_none :
    ∃ history, Reaches (rateLimitStep anyHost) Unrestricted .initial history ∧
      ∃ key, times key history.turnedAway ≠ [] ∧
        ¬∃ marker, markersOf history.database key = [marker] := by
  have ran : (Transition.run (rateLimitStep anyHost) (fun _ _ => true) .initial
      (twelveMessages none)).any (fun history => decide
        (times (firstWindow none) history.turnedAway = [1011, 1010] ∧
          (markersOf history.database (firstWindow none)).length = 2)) = true := by
    decide +kernel
  obtain ⟨history, isRun, facts⟩ := (Option.any_eq_true _ _).mp ran
  obtain ⟨logged, two⟩ := of_decide_eq_true facts
  refine ⟨history, (reaches_of_run isRun).unrestricted, firstWindow none, ?_, ?_⟩
  · exact logged ▸ List.cons_ne_nil _ _
  · rintro ⟨marker, isOnly⟩
    rw [isOnly, List.length_singleton] at two
    omega

end Metidos.Ingress
