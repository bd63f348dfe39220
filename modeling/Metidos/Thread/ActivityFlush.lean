import Metidos.Thread.ActivityRows

/-!
What one flush of the buffered writer leaves, in the table and in the buffer, when its due entries
are still as it has built them.
-/

namespace Metidos.Thread

open ThreadMessages WriterState

abbrev BufferedEntries := OrderedMap Text BufferedThreadActivityWrite

variable {entries : BufferedEntries} {messages : ThreadMessages} {activityId : Text}

def marked (persistedAt : Int) (dueEntry : DueEntry) (entry : BufferedThreadActivityWrite) :
    Option BufferedThreadActivityWrite :=
  if entry.terminal then none
  else some { entry with
    lastPersistedSignature :=
      if dueEntry.signatureChanged then some entry.signature else entry.lastPersistedSignature
    lastPersistedAt := persistedAt
    persisted := true }

theorem get?_markPersisted (persistedAt : Int) (dueEntry : DueEntry) (activityId : Text) :
    (markPersisted persistedAt entries dueEntry).get? activityId =
      if activityId = dueEntry.activityId then
        (entries.get? activityId).bind (marked persistedAt dueEntry)
      else entries.get? activityId := by
  rw [markPersisted]
  split
  · rename_i absent
    split
    · rename_i same
      rw [same, absent, Option.bind_none]
    · rfl
  · rename_i entry present
    by_cases same : activityId = dueEntry.activityId
    · subst same
      rw [if_pos rfl, present, Option.bind_some, marked]
      split
      · rw [OrderedMap.get?_delete, if_pos rfl]
      · rw [OrderedMap.get?_set_self]
    · rw [if_neg same]
      split
      · rw [OrderedMap.get?_delete, if_neg same]
      · rw [OrderedMap.get?_set_other _ _ same]

theorem get?_marks_other {persistedAt : Int} {due : List DueEntry}
    (notDue : ∀ dueEntry ∈ due, dueEntry.activityId ≠ activityId) :
    (due.foldl (markPersisted persistedAt) entries).get? activityId =
      entries.get? activityId := by
  induction due generalizing entries with
  | nil => rfl
  | cons dueEntry rest ih =>
    rw [List.foldl_cons, ih fun other member => notDue other (by simp [member]),
      get?_markPersisted, if_neg (notDue dueEntry (by simp)).symm]

theorem get?_marks {persistedAt : Int} {due : List DueEntry} {dueEntry : DueEntry}
    (distinct : (due.map DueEntry.activityId).Nodup) (isDue : dueEntry ∈ due) :
    (due.foldl (markPersisted persistedAt) entries).get? dueEntry.activityId =
      (entries.get? dueEntry.activityId).bind (marked persistedAt dueEntry) := by
  induction due generalizing entries with
  | nil => cases isDue
  | cons first rest ih =>
    obtain ⟨notLater, distinctRest⟩ := List.nodup_cons.mp distinct
    rw [List.foldl_cons]
    rcases List.mem_cons.mp isDue with rfl | later
    · rw [get?_marks_other fun other member same =>
        notLater (List.mem_map.mpr ⟨other, member, same⟩), get?_markPersisted, if_pos rfl]
    · rw [ih distinctRest later, get?_markPersisted, if_neg fun same =>
        notLater (List.mem_map.mpr ⟨dueEntry, later, same⟩)]

def IdsName (messages : ThreadMessages) (inputs : List ThreadActivityInput)
    (messageIds : List (Option Nat)) : Prop :=
  ∀ index messageId : Nat, messageIds[index]? = some (some messageId) →
    ∃ input : ThreadActivityInput, inputs[index]? = some input ∧
      messages.Names messageId input.key

theorem get?_putMessageIds_other {due : List DueEntry} {messageIds : List Nat}
    (notDue : ∀ dueEntry ∈ due, dueEntry.activityId ≠ activityId) :
    (putMessageIds entries due messageIds).get? activityId = entries.get? activityId := by
  induction due generalizing entries messageIds with
  | nil => rfl
  | cons dueEntry rest ih =>
    rw [putMessageIds, ih fun other member => notDue other (by simp [member]),
      OrderedMap.get?_modify, if_neg (notDue dueEntry (by simp)).symm]

theorem get?_putMessageIds {due : List DueEntry} {messageIds : List Nat} {dueEntry : DueEntry}
    {entry : BufferedThreadActivityWrite}
    (distinct : (due.map DueEntry.activityId).Nodup) (isDue : dueEntry ∈ due)
    (resolved : List.Forall₂ (fun input messageId => messages.Names messageId input.key)
      (due.flatMap DueEntry.inputs) messageIds)
    (present : entries.get? dueEntry.activityId = some entry) :
    ∃ ids, (putMessageIds entries due messageIds).get? dueEntry.activityId =
        some { entry with messageIds := ids } ∧ IdsName messages dueEntry.inputs ids := by
  induction due generalizing entries messageIds with
  | nil => cases isDue
  | cons first rest ih =>
    obtain ⟨notLater, distinctRest⟩ := List.nodup_cons.mp distinct
    rw [List.flatMap_cons] at resolved
    rw [putMessageIds]
    rcases List.mem_cons.mp isDue with rfl | later
    · refine ⟨dueEntry.inputs.mapIdx fun index _ => messageIds[index]?, ?_, ?_⟩
      · rw [get?_putMessageIds_other fun other member same =>
          notLater (List.mem_map.mpr ⟨other, member, same⟩), OrderedMap.get?_modify,
          if_pos rfl, present, Option.map_some]
      · intro index messageId atIndex
        rw [List.getElem?_mapIdx, Option.map_eq_some_iff] at atIndex
        obtain ⟨input, isInput, isId⟩ := atIndex
        refine ⟨input, isInput, ?_⟩
        have bound := (List.getElem?_eq_some_iff.mp isInput).1
        have isAppended : (dueEntry.inputs ++ rest.flatMap DueEntry.inputs)[index]? =
            some input := by
          rw [List.getElem?_append_left bound]
          exact isInput
        obtain ⟨inputBound, inputIs⟩ := List.getElem?_eq_some_iff.mp isAppended
        obtain ⟨idBound, idIs⟩ := List.getElem?_eq_some_iff.mp isId
        have named := (List.forall₂_iff_get.mp resolved).2 index inputBound idBound
        rw [List.get_eq_getElem, List.get_eq_getElem, inputIs, idIs] at named
        exact named
    · have presentAfter : (entries.modify first.activityId fun entry =>
          { entry with messageIds := first.inputs.mapIdx fun index _ => messageIds[index]? }).get?
            dueEntry.activityId = some entry := by
        rw [OrderedMap.get?_modify, if_neg fun same =>
          notLater (List.mem_map.mpr ⟨dueEntry, later, same⟩)]
        exact present
      refine ih distinctRest later ?_ presentAfter
      have dropped := List.forall₂_drop first.inputs.length resolved
      rwa [List.drop_left] at dropped

/-- The items of activities, as their projection makes them: each activity has its own, each once,
and its signature says what they show. -/
structure ItemScheme where
  keys : Text → List ActivityKey
  inputs : Text → Text → List ThreadActivityInput
  keyed : ∀ activityId signature,
    (inputs activityId signature).map ThreadActivityInput.key = keys activityId
  distinct : ∀ activityId, (keys activityId).Nodup
  apart : ∀ activityId other key, key ∈ keys activityId → key ∈ keys other → activityId = other

variable {scheme : ItemScheme}

def ItemScheme.Stored (scheme : ItemScheme) (messages : ThreadMessages)
    (activityId signature : Text) : Prop :=
  ∀ input ∈ scheme.inputs activityId signature, messages.Shows input

structure EntrySound (scheme : ItemScheme) (messages : ThreadMessages) (activityId : Text)
    (entry : BufferedThreadActivityWrite) : Prop where
  built : entry.buildInputs = scheme.inputs activityId entry.signature
  named : ∀ signature, IdsName messages (scheme.inputs activityId signature) entry.messageIds
  persisted : entry.persisted = true → ∃ signature,
    entry.lastPersistedSignature = some signature ∧
      scheme.Stored messages activityId signature

def EntriesSound (scheme : ItemScheme) (messages : ThreadMessages)
    (entries : BufferedEntries) : Prop :=
  ∀ activityId entry, entries.get? activityId = some entry →
    EntrySound scheme messages activityId entry

structure DueSound (entries : BufferedEntries) (due : List DueEntry) : Prop where
  distinct : (due.map DueEntry.activityId).Nodup
  present : ∀ dueEntry ∈ due, ∃ entry, entries.get? dueEntry.activityId = some entry
  built : ∀ dueEntry ∈ due, dueEntry.signatureChanged = true → ∀ entry,
    entries.get? dueEntry.activityId = some entry → dueEntry.inputs = entry.buildInputs
  dropped : ∀ dueEntry ∈ due, dueEntry.signatureChanged = false → ∀ entry,
    entries.get? dueEntry.activityId = some entry → entry.persisted = true ∧
      (entry.terminal = true → entry.lastPersistedSignature = some entry.signature)

theorem IdsName.of_keys {inputs others : List ThreadActivityInput} {ids : List (Option Nat)}
    (named : IdsName messages inputs ids)
    (sameKeys : inputs.map ThreadActivityInput.key = others.map ThreadActivityInput.key) :
    IdsName messages others ids := by
  intro index messageId atIndex
  obtain ⟨input, isInput, names⟩ := named index messageId atIndex
  have atKeys : (others.map ThreadActivityInput.key)[index]? = some input.key := by
    rw [← sameKeys, List.getElem?_map, isInput, Option.map_some]
  rw [List.getElem?_map, Option.map_eq_some_iff] at atKeys
  obtain ⟨other, isOther, sameKey⟩ := atKeys
  exact ⟨other, isOther, sameKey ▸ names⟩

structure Written (scheme : ItemScheme) (before after : ThreadMessages)
    (entries written : BufferedEntries) (due : List DueEntry) : Prop where
  sound : after.Sound
  shown : ∀ dueEntry ∈ due, dueEntry.signatureChanged = true →
    ∀ input ∈ dueEntry.inputs, after.Shows input
  kept : ∀ activityId signature,
    (∀ dueEntry ∈ due, dueEntry.signatureChanged = true → dueEntry.activityId ≠ activityId) →
    scheme.Stored before activityId signature → scheme.Stored after activityId signature
  names : ∀ messageId key, before.Names messageId key → after.Names messageId key
  same : ∀ activityId, (∀ dueEntry ∈ due, dueEntry.activityId ≠ activityId) →
    written.get? activityId = entries.get? activityId
  ids : ∀ dueEntry ∈ due, ∀ entry, entries.get? dueEntry.activityId = some entry →
    ∃ ids, written.get? dueEntry.activityId = some { entry with messageIds := ids } ∧
      (ids = entry.messageIds ∨
        dueEntry.signatureChanged = true ∧ IdsName after dueEntry.inputs ids)

theorem flattened_inputs (state : WriterState) (due : List DueEntry) :
    (state.flattenedInputs due).map ThreadActivityPersistInput.input =
      (due.filter DueEntry.signatureChanged).flatMap DueEntry.inputs := by
  rw [flattenedInputs, List.map_flatMap]
  refine congrArg (fun inputs => List.flatMap inputs _) (funext fun dueEntry => ?_)
  refine List.ext_getElem? fun index => ?_
  rw [List.getElem?_map, List.getElem?_mapIdx, Option.map_map]
  exact Option.map_id'

section Flush

variable {state : WriterState} {due : List DueEntry} {dueEntry : DueEntry}

theorem due_keys (sound : EntriesSound scheme messages entries) (current : DueSound entries due)
    (isDue : dueEntry ∈ due) (isChanged : dueEntry.signatureChanged = true) :
    dueEntry.inputs.map ThreadActivityInput.key = scheme.keys dueEntry.activityId := by
  obtain ⟨entry, present⟩ := current.present dueEntry isDue
  rw [current.built dueEntry isDue isChanged entry present, (sound _ _ present).built,
    scheme.keyed]

section Batch

variable (sound : EntriesSound scheme messages state.entries) (current : DueSound state.entries due)

include sound current

theorem flattened_distinct :
    ((state.flattenedInputs due).map fun persist => persist.input.key).Nodup := by
  have split : (state.flattenedInputs due).map (fun persist => persist.input.key) =
      ((due.filter DueEntry.signatureChanged).flatMap DueEntry.inputs).map
        ThreadActivityInput.key := by
    rw [← flattened_inputs, List.map_map]
    rfl
  rw [split, List.map_flatMap, List.nodup_flatMap]
  constructor
  · intro dueEntry member
    obtain ⟨isDue, isChanged⟩ := List.mem_filter.mp member
    rw [due_keys sound current isDue isChanged]
    exact scheme.distinct _
  · have differ : due.Pairwise fun one other => one.activityId ≠ other.activityId :=
      List.pairwise_map.mp current.distinct
    refine (differ.filter _).imp_of_mem ?_
    intro one other insideOne insideOther differs key inOne inOther
    obtain ⟨oneDue, oneChanged⟩ := List.mem_filter.mp insideOne
    obtain ⟨otherDue, otherChanged⟩ := List.mem_filter.mp insideOther
    dsimp only at inOne inOther
    rw [due_keys sound current oneDue oneChanged] at inOne
    rw [due_keys sound current otherDue otherChanged] at inOther
    exact differs (scheme.apart _ _ key inOne inOther)

theorem flattened_named :
    ∀ persist ∈ state.flattenedInputs due, ∀ messageId, persist.messageId = some messageId →
      messages.Names messageId persist.input.key := by
  intro persist member messageId isId
  obtain ⟨dueEntry, inDue, inInputs⟩ := List.mem_flatMap.mp member
  obtain ⟨isDue, isChanged⟩ := List.mem_filter.mp inDue
  obtain ⟨entry, present⟩ := current.present dueEntry isDue
  have built := current.built dueEntry isDue isChanged entry present
  obtain ⟨index, bound, rfl⟩ := List.mem_mapIdx.mp inInputs
  rw [present] at isId
  have atIndex : entry.messageIds[index]? = some (some messageId) :=
    Option.join_eq_some_iff.mp isId
  obtain ⟨input, isInput, names⟩ := (sound _ _ present).named entry.signature index messageId atIndex
  rw [← (sound _ _ present).built, ← built, List.getElem?_eq_getElem bound] at isInput
  cases isInput
  exact names

end Batch

theorem finishFlush_written (tableSound : state.messages.Sound)
    (sound : EntriesSound scheme state.messages state.entries)
    (current : DueSound state.entries due) (persistedAt : Int) :
    ∃ messages written flushTimer,
      state.finishFlush persistedAt due =
        { state with
          messages := messages
          entries := due.foldl (markPersisted persistedAt) written
          flushTimer := flushTimer } ∧
      Written scheme state.messages messages state.entries written due := by
  have schedule : ∀ before : WriterState, ∃ flushTimer,
      before.scheduleFlush = { before with flushTimer := flushTimer } := by
    intro before
    rw [scheduleFlush]
    split
    · exact ⟨before.flushTimer, rfl⟩
    · exact ⟨true, rfl⟩
  have inputs := flattened_inputs state due
  rw [finishFlush]
  by_cases nothing : state.flattenedInputs due = []
  · obtain ⟨flushTimer, scheduled⟩ := schedule
      { state with entries := due.foldl (markPersisted persistedAt) state.entries }
    rw [if_pos nothing]
    refine ⟨state.messages, state.entries, flushTimer, scheduled, tableSound, ?_,
      fun _ _ _ stored => stored, fun _ _ names => names, fun _ _ => rfl,
      fun dueEntry isDue entry present => ⟨entry.messageIds, present, Or.inl rfl⟩⟩
    intro dueEntry isDue isChanged input member
    rw [nothing, List.map_nil] at inputs
    have inside : input ∈ (due.filter DueEntry.signatureChanged).flatMap DueEntry.inputs :=
      List.mem_flatMap.mpr ⟨dueEntry, List.mem_filter.mpr ⟨isDue, isChanged⟩, member⟩
    rw [← inputs] at inside
    cases inside
  · obtain ⟨finish, upserted, batch⟩ := upsertThreadActivities_batch tableSound
      (flattened_distinct sound current) (flattened_named sound current)
    rw [if_neg nothing, upserted]
    obtain ⟨flushTimer, scheduled⟩ := schedule
      { state with
        messages := finish.messages
        entries := due.foldl (markPersisted persistedAt)
          (putMessageIds state.entries (due.filter DueEntry.signatureChanged)
            finish.resolvedMessageIds) }
    have resolved : List.Forall₂ (fun input messageId => finish.messages.Names messageId input.key)
        ((due.filter DueEntry.signatureChanged).flatMap DueEntry.inputs)
        finish.resolvedMessageIds := by
      rw [← inputs, List.forall₂_map_left_iff]
      exact batch.resolved
    have distinctChanged : ((due.filter DueEntry.signatureChanged).map
        DueEntry.activityId).Nodup :=
      current.distinct.sublist (List.filter_sublist.map _)
    refine ⟨finish.messages, _, flushTimer, scheduled, batch.sound, ?_, ?_, batch.named, ?_, ?_⟩
    · intro dueEntry isDue isChanged input member
      have inside : input ∈ (due.filter DueEntry.signatureChanged).flatMap DueEntry.inputs :=
        List.mem_flatMap.mpr ⟨dueEntry, List.mem_filter.mpr ⟨isDue, isChanged⟩, member⟩
      rw [← inputs] at inside
      obtain ⟨persist, persistIn, rfl⟩ := List.mem_map.mp inside
      exact batch.shows' persist persistIn
    · intro activityId signature apart stored input member
      obtain ⟨row, inside, hasKey, same⟩ := stored input member
      refine ⟨row, (batch.others row ?_).mpr inside, hasKey, same⟩
      intro persist persistIn
      refine Bool.eq_false_iff.mpr fun hasOther => ?_
      obtain ⟨dueEntry, inDue, inInputs⟩ := List.mem_flatMap.mp
        (inputs ▸ List.mem_map.mpr ⟨persist, persistIn, rfl⟩)
      obtain ⟨isDue, isChanged⟩ := List.mem_filter.mp inDue
      have dueKey : persist.input.key ∈ scheme.keys dueEntry.activityId := by
        rw [← due_keys sound current isDue isChanged]
        exact List.mem_map.mpr ⟨_, inInputs, rfl⟩
      have itsKey : persist.input.key ∈ scheme.keys activityId := by
        rw [← scheme.keyed activityId signature, ← key_of_hasKey hasKey hasOther]
        exact List.mem_map.mpr ⟨input, member, rfl⟩
      exact apart dueEntry isDue isChanged (scheme.apart _ _ _ dueKey itsKey)
    · intro activityId notDue
      exact get?_putMessageIds_other fun dueEntry inDue =>
        notDue dueEntry (List.mem_of_mem_filter inDue)
    · intro dueEntry isDue entry present
      cases isChanged : dueEntry.signatureChanged with
      | true =>
        obtain ⟨ids, isAfter, named⟩ := get?_putMessageIds distinctChanged
          (List.mem_filter.mpr ⟨isDue, isChanged⟩) resolved present
        exact ⟨ids, isAfter, Or.inr ⟨rfl, named⟩⟩
      | false =>
        refine ⟨entry.messageIds, ?_, Or.inl rfl⟩
        rw [get?_putMessageIds_other, present]
        intro other inDue same
        obtain ⟨otherDue, otherChanged⟩ := List.mem_filter.mp inDue
        have isSame := List.inj_on_of_nodup_map current.distinct otherDue isDue same
        rw [isSame, isChanged] at otherChanged
        cases otherChanged

section Marks

variable {before after : ThreadMessages} {written : BufferedEntries}
  {entry : BufferedThreadActivityWrite} {signature : Text}

theorem stored_changed (sound : EntriesSound scheme before entries) (current : DueSound entries due)
    (wrote : Written scheme before after entries written due) (isDue : dueEntry ∈ due)
    (isChanged : dueEntry.signatureChanged = true)
    (present : entries.get? dueEntry.activityId = some entry) :
    scheme.Stored after dueEntry.activityId entry.signature := by
  intro input member
  refine wrote.shown dueEntry isDue isChanged input ?_
  rw [current.built dueEntry isDue isChanged entry present, (sound _ _ present).built]
  exact member

theorem stored_unchanged (current : DueSound entries due)
    (wrote : Written scheme before after entries written due) (isDue : dueEntry ∈ due)
    (isUnchanged : dueEntry.signatureChanged = false)
    (stored : scheme.Stored before dueEntry.activityId signature) :
    scheme.Stored after dueEntry.activityId signature := by
  refine wrote.kept _ _ ?_ stored
  intro other otherDue otherChanged same
  rw [List.inj_on_of_nodup_map current.distinct otherDue isDue same, isUnchanged] at otherChanged
  cases otherChanged

theorem stored_present (sound : EntriesSound scheme before entries) (current : DueSound entries due)
    (wrote : Written scheme before after entries written due)
    (present : entries.get? activityId = some entry)
    (stored : scheme.Stored before activityId entry.signature) :
    scheme.Stored after activityId entry.signature := by
  by_cases isDue : ∃ dueEntry ∈ due, dueEntry.activityId = activityId
  · obtain ⟨dueEntry, isDue, rfl⟩ := isDue
    cases isChanged : dueEntry.signatureChanged with
    | true => exact stored_changed sound current wrote isDue isChanged present
    | false => exact stored_unchanged current wrote isDue isChanged stored
  · exact wrote.kept _ _ (fun dueEntry member _ same => isDue ⟨dueEntry, member, same⟩) stored

theorem not_due_of_absent (current : DueSound entries due)
    (absent : entries.get? activityId = none) :
    ∀ dueEntry ∈ due, dueEntry.activityId ≠ activityId := by
  intro dueEntry isDue same
  obtain ⟨entry, present⟩ := current.present dueEntry isDue
  rw [same, absent] at present
  cases present

theorem finished_entry (current : DueSound entries due)
    (wrote : Written scheme before after entries written due) (persistedAt : Int)
    (present : entries.get? activityId = some entry) :
    ((∀ dueEntry ∈ due, dueEntry.activityId ≠ activityId) ∧
      (due.foldl (markPersisted persistedAt) written).get? activityId = some entry) ∨
    ∃ dueEntry ∈ due, dueEntry.activityId = activityId ∧ ∃ ids,
      (due.foldl (markPersisted persistedAt) written).get? activityId =
        marked persistedAt dueEntry { entry with messageIds := ids } ∧
      (ids = entry.messageIds ∨
        dueEntry.signatureChanged = true ∧ IdsName after dueEntry.inputs ids) := by
  by_cases isDue : ∃ dueEntry ∈ due, dueEntry.activityId = activityId
  · obtain ⟨dueEntry, isDue, rfl⟩ := isDue
    obtain ⟨ids, isWritten, named⟩ := wrote.ids dueEntry isDue entry present
    refine Or.inr ⟨dueEntry, isDue, rfl, ids, ?_, named⟩
    rw [get?_marks current.distinct isDue, isWritten, Option.bind_some]
  · have notDue : ∀ dueEntry ∈ due, dueEntry.activityId ≠ activityId :=
      fun dueEntry member same => isDue ⟨dueEntry, member, same⟩
    refine Or.inl ⟨notDue, ?_⟩
    rw [get?_marks_other notDue, wrote.same activityId notDue, present]

theorem finished_absent (current : DueSound entries due)
    (wrote : Written scheme before after entries written due) (persistedAt : Int)
    (absent : entries.get? activityId = none) :
    (due.foldl (markPersisted persistedAt) written).get? activityId = none := by
  have notDue := not_due_of_absent current absent
  rw [get?_marks_other notDue, wrote.same activityId notDue, absent]

theorem IdsName.mono {inputs : List ThreadActivityInput} {ids : List (Option Nat)}
    (named : IdsName before inputs ids)
    (names : ∀ messageId key, before.Names messageId key → after.Names messageId key) :
    IdsName after inputs ids := by
  intro index messageId atIndex
  obtain ⟨input, isInput, isNamed⟩ := named index messageId atIndex
  exact ⟨input, isInput, names _ _ isNamed⟩

theorem EntrySound.after_flush (sound : EntrySound scheme before activityId entry)
    (wrote : Written scheme before after entries written due)
    (stored : ∀ signature, scheme.Stored before activityId signature →
      scheme.Stored after activityId signature) :
    EntrySound scheme after activityId entry where
  built := sound.built
  named := fun signature => (sound.named signature).mono wrote.names
  persisted := fun isPersisted => by
    obtain ⟨signature, isSignature, isStored⟩ := sound.persisted isPersisted
    exact ⟨signature, isSignature, stored _ isStored⟩

theorem entries_after_flush (sound : EntriesSound scheme before entries)
    (current : DueSound entries due)
    (wrote : Written scheme before after entries written due) (persistedAt : Int) :
    EntriesSound scheme after (due.foldl (markPersisted persistedAt) written) := by
  intro activityId entryAfter isAfter
  cases present : entries.get? activityId with
  | none =>
    rw [finished_absent current wrote persistedAt present] at isAfter
    cases isAfter
  | some entry =>
    have entrySound := sound _ _ present
    rcases finished_entry current wrote persistedAt present with
      ⟨notDue, same⟩ | ⟨dueEntry, isDue, rfl, ids, isMarked, named⟩
    · rw [same] at isAfter
      cases isAfter
      exact entrySound.after_flush wrote fun signature =>
        wrote.kept _ _ fun dueEntry isDue _ => notDue dueEntry isDue
    · rw [isMarked, marked] at isAfter
      split at isAfter
      · cases isAfter
      · cases isAfter
        refine ⟨entrySound.built, ?_, ?_⟩
        · intro signature
          rcases named with rfl | ⟨isChanged, named⟩
          · exact (entrySound.named signature).mono wrote.names
          · refine named.of_keys ?_
            rw [due_keys sound current isDue isChanged, scheme.keyed]
        · intro _
          cases isChanged : dueEntry.signatureChanged with
          | true =>
            exact ⟨entry.signature, by simp only [if_true],
              stored_changed sound current wrote isDue isChanged present⟩
          | false =>
            obtain ⟨persisted, _⟩ := current.dropped dueEntry isDue isChanged entry present
            obtain ⟨signature, isSignature, stored⟩ := entrySound.persisted persisted
            exact ⟨signature, by simpa using isSignature,
              stored_unchanged current wrote isDue isChanged stored⟩

theorem kept_or_stored (sound : EntriesSound scheme before entries)
    (current : DueSound entries due)
    (wrote : Written scheme before after entries written due) (persistedAt : Int)
    (present : entries.get? activityId = some entry) :
    (∃ entryAfter, (due.foldl (markPersisted persistedAt) written).get? activityId =
        some entryAfter ∧ entryAfter.signature = entry.signature) ∨
    (due.foldl (markPersisted persistedAt) written).get? activityId = none ∧
      scheme.Stored after activityId entry.signature := by
  rcases finished_entry current wrote persistedAt present with
    ⟨_, same⟩ | ⟨dueEntry, isDue, rfl, ids, isMarked, _⟩
  · exact Or.inl ⟨entry, same, rfl⟩
  · rw [isMarked, marked]
    split
    · rename_i isTerminal
      refine Or.inr ⟨rfl, ?_⟩
      cases isChanged : dueEntry.signatureChanged with
      | true => exact stored_changed sound current wrote isDue isChanged present
      | false =>
        obtain ⟨persisted, isLast⟩ := current.dropped dueEntry isDue isChanged entry present
        obtain ⟨signature, isSignature, stored⟩ := (sound _ _ present).persisted persisted
        rw [isLast isTerminal] at isSignature
        cases isSignature
        exact stored_unchanged current wrote isDue isChanged stored
    · exact Or.inl ⟨_, rfl, rfl⟩

end Marks

end Flush

end Metidos.Thread
