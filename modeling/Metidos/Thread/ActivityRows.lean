import Metidos.Thread.ActivityWriter

/-!
What a batch upsert leaves in the table: every input of the batch is shown by the one row of its
item, and the rows of other items are as before.
-/

namespace Metidos.Thread

namespace ThreadMessages

structure Sound (messages : ThreadMessages) : Prop where
  below : ∀ row ∈ messages.rows, row.id < messages.sequence
  identified : ∀ row ∈ messages.rows, ∀ other ∈ messages.rows, row.id = other.id → row = other
  keyed : ∀ row ∈ messages.rows, ∀ other ∈ messages.rows, ∀ key,
    row.hasKey key = true → other.hasKey key = true → row = other
  distinct : messages.rows.Nodup

def Shows (messages : ThreadMessages) (input : ThreadActivityInput) : Prop :=
  ∃ row ∈ messages.rows, row.hasKey input.key = true ∧ row.put input = row

def Names (messages : ThreadMessages) (messageId : Nat) (key : ActivityKey) : Prop :=
  ∃ row ∈ messages.rows, row.id = messageId ∧ row.hasKey key = true

structure Wrote (before after : ThreadMessages) (input : ThreadActivityInput)
    (messageId : Nat) : Prop where
  sound : after.Sound
  shows' : after.Shows input
  names : after.Names messageId input.key
  others : ∀ row : ThreadMessage, row.hasKey input.key = false →
    (row ∈ after.rows ↔ row ∈ before.rows)
  named : ∀ messageId, before.Names messageId input.key → after.Names messageId input.key

end ThreadMessages

open ThreadMessages

variable {messages : ThreadMessages} {input : ThreadActivityInput} {key : ActivityKey}
  {messageId : Nat}

theorem key_of_hasKey {row : ThreadMessage} {other : ActivityKey} (first : row.hasKey key = true)
    (second : row.hasKey other = true) : key = other := by
  simp only [ThreadMessage.hasKey, Bool.and_eq_true, decide_eq_true_eq] at first second
  refine Prod.ext (first.1.symm.trans second.1) ?_
  exact Option.some.inj (first.2.symm.trans second.2)

theorem update_any (names : messages.Names messageId key) :
    (messages.rows.any fun row => decide (row.id = messageId)) = true := by
  obtain ⟨row, member, same, _⟩ := names
  exact List.any_eq_true.mpr ⟨row, member, decide_eq_true same⟩

theorem update_wrote (sound : messages.Sound) (names : messages.Names messageId input.key) :
    Wrote messages (messages.updateThreadActivityById messageId input).1 input messageId := by
  obtain ⟨row, member, isRow, hasKey⟩ := names
  have changed : ∀ other ∈ messages.rows, other.id = messageId → other = row :=
    fun other inside same => sound.identified other inside row member (same.trans isRow.symm)
  have memberAfter : ∀ other,
      other ∈ (messages.updateThreadActivityById messageId input).1.rows ↔
        other = row.put input ∨ other ∈ messages.rows ∧ other.id ≠ messageId := by
    intro other
    simp only [updateThreadActivityById, List.mem_map]
    constructor
    · rintro ⟨before, inside, rfl⟩
      split
      · rename_i same
        exact Or.inl (by rw [changed before inside same])
      · rename_i differs
        exact Or.inr ⟨inside, differs⟩
    · rintro (rfl | ⟨inside, differs⟩)
      · exact ⟨row, member, by rw [if_pos isRow]⟩
      · exact ⟨other, inside, by rw [if_neg differs]⟩
  have keyAfter : ∀ other ∈ messages.rows, other.id ≠ messageId →
      other.hasKey input.key = false := by
    intro other inside differs
    refine Bool.eq_false_iff.mpr fun same => differs ?_
    rw [sound.keyed other inside row member input.key same hasKey]
    exact isRow
  refine ⟨⟨?_, ?_, ?_, ?_⟩, ?_, ?_, ?_, ?_⟩
  · intro other inside
    rcases (memberAfter other).mp inside with rfl | ⟨old, _⟩
    · exact sound.below row member
    · exact sound.below other old
  · intro first insideFirst second insideSecond same
    rcases (memberAfter first).mp insideFirst with rfl | ⟨oldFirst, differsFirst⟩
    · rcases (memberAfter second).mp insideSecond with rfl | ⟨_, differs⟩
      · rfl
      · exact absurd (same.symm.trans isRow) differs
    · rcases (memberAfter second).mp insideSecond with rfl | ⟨oldSecond, _⟩
      · exact absurd (same.trans isRow) differsFirst
      · exact sound.identified first oldFirst second oldSecond same
  · intro first insideFirst second insideSecond other hasFirst hasSecond
    rcases (memberAfter first).mp insideFirst with rfl | ⟨oldFirst, differsFirst⟩
    · rcases (memberAfter second).mp insideSecond with rfl | ⟨oldSecond, differs⟩
      · rfl
      · have isKey := key_of_hasKey hasKey (hasFirst : row.hasKey other = true)
        rw [← isKey, keyAfter second oldSecond differs] at hasSecond
        cases hasSecond
    · rcases (memberAfter second).mp insideSecond with rfl | ⟨oldSecond, _⟩
      · have isKey := key_of_hasKey hasKey (hasSecond : row.hasKey other = true)
        rw [← isKey, keyAfter first oldFirst differsFirst] at hasFirst
        cases hasFirst
      · exact sound.keyed first oldFirst second oldSecond other hasFirst hasSecond
  · simp only [updateThreadActivityById]
    refine List.Nodup.map_on ?_ sound.distinct
    intro first insideFirst second insideSecond same
    have sameId : first.id = second.id := by
      have ids := congrArg ThreadMessage.id same
      split at ids <;> split at ids <;> exact ids
    exact sound.identified first insideFirst second insideSecond sameId
  · exact ⟨row.put input, (memberAfter _).mpr (Or.inl rfl), hasKey, rfl⟩
  · exact ⟨row.put input, (memberAfter _).mpr (Or.inl rfl), isRow, hasKey⟩
  · intro other otherKey
    rw [memberAfter]
    constructor
    · rintro (rfl | ⟨old, _⟩)
      · exact absurd (hasKey.symm.trans otherKey) (by simp)
      · exact old
    · intro old
      refine Or.inr ⟨old, fun same => ?_⟩
      rw [changed other old same, hasKey] at otherKey
      cases otherKey
  · rintro otherId ⟨other, inside, isOther, otherHasKey⟩
    have same : other = row := sound.keyed other inside row member input.key otherHasKey hasKey
    exact ⟨row.put input, (memberAfter _).mpr (Or.inl rfl), same ▸ isOther, hasKey⟩

theorem insert_wrote (sound : messages.Sound)
    (absent : ∀ row ∈ messages.rows, row.hasKey input.key = false) :
    Wrote messages (messages.insertThreadActivity input).1 input messages.sequence := by
  obtain ⟨inserted, isInserted⟩ : ∃ row : ThreadMessage,
      (messages.insertThreadActivity input).1.rows = messages.rows ++ [row] ∧
        row.id = messages.sequence ∧ row.hasKey input.key = true ∧ row.put input = row :=
    ⟨_, rfl, rfl, by simp [ThreadMessage.hasKey, ThreadActivityInput.key], rfl⟩
  obtain ⟨rows, isRow, hasKey, shown⟩ := isInserted
  have memberAfter : ∀ other, other ∈ (messages.insertThreadActivity input).1.rows ↔
      other ∈ messages.rows ∨ other = inserted := by
    intro other
    rw [rows, List.mem_append, List.mem_singleton]
  have sequence : (messages.insertThreadActivity input).1.sequence = messages.sequence + 1 := rfl
  have fresh : ∀ other ∈ messages.rows, other.id ≠ inserted.id := by
    intro other inside
    have below := sound.below other inside
    omega
  refine ⟨⟨?_, ?_, ?_, ?_⟩, ?_, ?_, ?_, ?_⟩
  · intro other inside
    rw [sequence]
    rcases (memberAfter other).mp inside with old | rfl
    · have below := sound.below other old
      omega
    · omega
  · intro first insideFirst second insideSecond same
    rcases (memberAfter first).mp insideFirst with oldFirst | rfl
    · rcases (memberAfter second).mp insideSecond with oldSecond | rfl
      · exact sound.identified first oldFirst second oldSecond same
      · exact absurd same (fresh first oldFirst)
    · rcases (memberAfter second).mp insideSecond with oldSecond | rfl
      · exact absurd same.symm (fresh second oldSecond)
      · rfl
  · intro first insideFirst second insideSecond other hasFirst hasSecond
    rcases (memberAfter first).mp insideFirst with oldFirst | rfl
    · rcases (memberAfter second).mp insideSecond with oldSecond | rfl
      · exact sound.keyed first oldFirst second oldSecond other hasFirst hasSecond
      · rw [← key_of_hasKey hasKey hasSecond, absent first oldFirst] at hasFirst
        cases hasFirst
    · rcases (memberAfter second).mp insideSecond with oldSecond | rfl
      · rw [← key_of_hasKey hasKey hasFirst, absent second oldSecond] at hasSecond
        cases hasSecond
      · rfl
  · rw [rows]
    refine List.Nodup.append sound.distinct (List.nodup_singleton _) ?_
    intro other inside isInserted
    rw [List.mem_singleton.mp isInserted] at inside
    exact fresh inserted inside rfl
  · exact ⟨inserted, (memberAfter _).mpr (Or.inr rfl), hasKey, shown⟩
  · exact ⟨inserted, (memberAfter _).mpr (Or.inr rfl), isRow, hasKey⟩
  · intro other otherKey
    rw [memberAfter]
    refine ⟨fun inside => inside.resolve_right ?_, Or.inl⟩
    rintro rfl
    rw [hasKey] at otherKey
    cases otherKey
  · rintro otherId ⟨other, inside, isOther, otherHasKey⟩
    exact ⟨other, (memberAfter _).mpr (Or.inl inside), isOther, otherHasKey⟩

theorem find_names (found : messages.findThreadActivityMessageId key = some messageId) :
    messages.Names messageId key := by
  have member := List.max?_mem found
  obtain ⟨row, inside, isRow⟩ := List.mem_map.mp member
  obtain ⟨inRows, hasKey⟩ := List.mem_filter.mp inside
  exact ⟨row, inRows, isRow, hasKey⟩

theorem absent_of_find (missing : messages.findThreadActivityMessageId key = none) :
    ∀ row ∈ messages.rows, row.hasKey key = false := by
  rw [findThreadActivityMessageId, List.max?_eq_none_iff, List.map_eq_nil_iff,
    List.filter_eq_nil_iff] at missing
  exact fun row member => by simpa using missing row member

theorem upsertThreadActivity_wrote {state : UpsertState} {persist : ThreadActivityPersistInput}
    (sound : state.messages.Sound)
    (known : ∀ messageId, state.knownMessageId persist = some messageId →
      state.messages.Names messageId persist.input.key) :
    Wrote state.messages (upsertThreadActivity state persist).1 persist.input
      (upsertThreadActivity state persist).2 := by
  rw [upsertThreadActivity]
  split
  · rename_i messageId isKnown
    have names := known messageId isKnown
    have changes : (state.messages.updateThreadActivityById messageId persist.input).2 = true :=
      update_any names
    split
    · rename_i updated same
      have wrote := update_wrote sound names
      rw [same] at wrote
      exact wrote
    · rename_i updated same
      rw [same] at changes
      cases changes
  · split
    · rename_i messageId found
      exact update_wrote sound (find_names found)
    · rename_i missing
      exact insert_wrote sound (absent_of_find missing)

structure BatchSound (start : ThreadMessages) (processed : List ThreadActivityPersistInput)
    (state : UpsertState) : Prop where
  sound : state.messages.Sound
  shows' : ∀ persist ∈ processed, state.messages.Shows persist.input
  resolved : List.Forall₂ (fun persist messageId =>
    state.messages.Names messageId persist.input.key) processed state.resolvedMessageIds
  others : ∀ row : ThreadMessage, (∀ persist ∈ processed, row.hasKey persist.input.key = false) →
    (row ∈ state.messages.rows ↔ row ∈ start.rows)
  named : ∀ messageId key, start.Names messageId key → state.messages.Names messageId key
  known : ∀ map, state.messageIdByActivity = some map → ∀ key messageId,
    map.get? key = some messageId → ∃ persist ∈ processed, persist.input.key = key

namespace ThreadMessages.Wrote

variable {before after : ThreadMessages}

theorem shows_other (wrote : Wrote before after input messageId) {other : ThreadActivityInput}
    (differs : other.key ≠ input.key) (shown : before.Shows other) : after.Shows other := by
  obtain ⟨row, inside, hasKey, same⟩ := shown
  have notWritten : row.hasKey input.key = false :=
    Bool.eq_false_iff.mpr fun has => differs (key_of_hasKey hasKey has)
  exact ⟨row, (wrote.others row notWritten).mpr inside, hasKey, same⟩

theorem names_all (wrote : Wrote before after input messageId) {otherId : Nat}
    {key : ActivityKey} (names : before.Names otherId key) : after.Names otherId key := by
  by_cases same : key = input.key
  · subst same
    exact wrote.named otherId names
  · obtain ⟨row, inside, isRow, hasKey⟩ := names
    have notWritten : row.hasKey input.key = false :=
      Bool.eq_false_iff.mpr fun has => same (key_of_hasKey hasKey has)
    exact ⟨row, (wrote.others row notWritten).mpr inside, isRow, hasKey⟩

end ThreadMessages.Wrote

theorem BatchSound.step {start : ThreadMessages} {processed : List ThreadActivityPersistInput}
    {state : UpsertState} {persist : ThreadActivityPersistInput}
    (batch : BatchSound start processed state)
    (fresh : ∀ other ∈ processed, other.input.key ≠ persist.input.key)
    (named : ∀ messageId, persist.messageId = some messageId →
      start.Names messageId persist.input.key) :
    BatchSound start (processed ++ [persist]) (upsertStep state persist) := by
  have known : ∀ messageId, state.knownMessageId persist = some messageId →
      state.messages.Names messageId persist.input.key := by
    intro messageId isKnown
    rw [UpsertState.knownMessageId] at isKnown
    split at isKnown
    · rename_i given isGiven
      cases isKnown
      exact batch.named messageId _ (named messageId isGiven)
    · obtain ⟨map, isMap, inMap⟩ := Option.bind_eq_some_iff.mp isKnown
      obtain ⟨other, inside, same⟩ := batch.known map isMap _ _ inMap
      exact absurd same (fresh other inside)
  have wrote := upsertThreadActivity_wrote batch.sound known
  refine ⟨wrote.sound, ?_, ?_, ?_, ?_, ?_⟩
  · intro other member
    rcases List.mem_append.mp member with earlier | isLast
    · exact wrote.shows_other (fresh other earlier) (batch.shows' other earlier)
    · rw [List.mem_singleton.mp isLast]
      exact wrote.shows'
  · exact List.rel_append (batch.resolved.imp fun _ _ names => wrote.names_all names)
      (List.Forall₂.cons wrote.names List.Forall₂.nil)
  · intro row notWritten
    rw [← batch.others row fun other member => notWritten other (List.mem_append_left _ member)]
    exact wrote.others row (notWritten persist (by simp))
  · exact fun messageId key names => wrote.names_all (batch.named messageId key names)
  · intro map isMap key messageId inMap
    simp only [upsertStep] at isMap
    split at isMap
    · cases isMap
      rw [OrderedMap.get?_set] at inMap
      split at inMap
      · rename_i same
        exact ⟨persist, by simp, same.symm⟩
      · simp at inMap
    · rename_i earlier isEarlier
      cases isMap
      rw [OrderedMap.get?_set] at inMap
      split at inMap
      · rename_i same
        exact ⟨persist, by simp, same.symm⟩
      · obtain ⟨other, inside, same⟩ := batch.known earlier isEarlier _ _ inMap
        exact ⟨other, List.mem_append_left _ inside, same⟩
    · cases isMap

theorem upsertThreadActivities_batch {inputs : List ThreadActivityPersistInput}
    (sound : messages.Sound)
    (distinct : (inputs.map fun persist => persist.input.key).Nodup)
    (named : ∀ persist ∈ inputs, ∀ messageId, persist.messageId = some messageId →
      messages.Names messageId persist.input.key) :
    ∃ finish, upsertThreadActivities messages inputs =
        (finish.messages, finish.resolvedMessageIds) ∧ BatchSound messages inputs finish := by
  have general : ∀ (rest processed : List ThreadActivityPersistInput) (state : UpsertState),
      processed ++ rest = inputs → BatchSound messages processed state →
      BatchSound messages inputs (rest.foldl upsertStep state) := by
    intro rest
    induction rest with
    | nil =>
      intro processed state split batch
      rw [List.append_nil] at split
      exact split ▸ batch
    | cons persist rest ih =>
      intro processed state split batch
      have member : persist ∈ inputs := by rw [← split]; simp
      refine ih (processed ++ [persist]) _ (by rw [← split]; simp) ?_
      refine batch.step ?_ (named persist member)
      intro other earlier same
      rw [← split, List.map_append, List.nodup_append] at distinct
      exact distinct.2.2 _ (List.mem_map.mpr ⟨other, earlier, rfl⟩) _
        (List.mem_map.mpr ⟨persist, by simp, rfl⟩) same
  refine ⟨_, rfl, general inputs [] _ rfl ⟨sound, by simp, List.Forall₂.nil, ?_, ?_, ?_⟩⟩
  · exact fun row _ => Iff.rfl
  · exact fun messageId key names => names
  · exact fun map isMap => by cases isMap

end Metidos.Thread
