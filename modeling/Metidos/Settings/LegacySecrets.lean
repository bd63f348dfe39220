import Metidos.Settings.SettingsKept

/-!
Secrets of earlier versions of the settings file, under reads and updates one after the other:
what a stored secret opens to, when rewriting the file keeps that, and which keys of the user
buckets a normalised record has.
-/

namespace Metidos.Settings

open Transition

variable {host : SettingsHost} {directoryName key : Text} {value : PluginSettingValue}
  {stateFile : PluginSettingsStateFile} {file : SettingsFile} {nonces : Text → Nat}
  {record : StoredPluginSettingsRecord} {stored : StoredPluginSettingValue}
  {legacyUserId : Option Nat}

inductive SettingsOperation
  | read (kind : ReadKind) (directoryName : Text) (nonces : Text → Nat)
  | update (directoryName : Text) (pluginId : Option Text)
      (patch : Option (OrderedMap Text (Option PluginSettingValue))) (nonces : Text → Nat)

def operationFile (host : SettingsHost) (file : SettingsFile) (operation : SettingsOperation) :
    SettingsFile :=
  match readPluginSettingsStateFile host file with
  | none => file
  | some stateFile =>
    match operation with
    | .read kind directoryName nonces =>
      match readSettings host kind directoryName nonces stateFile with
      | none => file
      | some reading =>
        match reading.written with
        | none => file
        | some written => serializePluginSettingsStateFile written
    | .update directoryName pluginId patch nonces =>
      match normalizeSettingPatch host directoryName patch with
      | .error _ => file
      | .ok patch =>
        serializePluginSettingsStateFile
          (updateSettings host directoryName pluginId patch nonces stateFile)

def operationStep (host : SettingsHost) (file : SettingsFile) (operation : SettingsOperation) :
    Option SettingsFile :=
  some (operationFile host file operation)

def SettingsOperation.overwrites (host : SettingsHost) (directoryName key : Text) :
    SettingsOperation → Bool
  | .read _ _ _ => false
  | .update updated _ patch _ =>
    updated = directoryName &&
      match normalizeSettingPatch host updated patch with
      | .error _ => false
      | .ok patch => patch.has key

def firstOpened (host : SettingsHost) (ciphertext : Text) : List Text → Option PluginSettingValue
  | [] => none
  | additionalData :: rest =>
    match host.codec.decrypt additionalData ciphertext with
    | .opened value => some value
    | .accessError => firstOpened host ciphertext rest
    | _ => none

def openedSecret (host : SettingsHost) (directoryName key : Text) (legacyUserId : Option Nat) :
    StoredPluginSettingValue → Option PluginSettingValue
  | .setting value => some value
  | .encrypted ciphertext =>
    firstOpened host ciphertext (pluginSecretAdditionalData directoryName key ::
      legacySecretAdditionalDataCandidates directoryName key legacyUserId)

def secretValue (host : SettingsHost) (file : SettingsFile) (directoryName key : Text) :
    Option PluginSettingValue :=
  if isSecret host directoryName key then
    (readPluginSettingsStateFile host file).bind fun stateFile =>
      (stateFile.plugins.get? directoryName).bind fun record =>
        (record.values.get? key).bind
          (openedSecret host directoryName key (record.legacySecretUserIds.get? key))
  else none

def hasKey (host : SettingsHost) (file : SettingsFile) (directoryName key : Text) : Prop :=
  ∃ stateFile record stored, readPluginSettingsStateFile host file = some stateFile ∧
    stateFile.plugins.get? directoryName = some record ∧ record.values.get? key = some stored

/-- The secrets of a record that open at all also open without the users they come from, apart
from some keys. -/
def opensWithoutUsers (host : SettingsHost) (directoryName : Text) (apart : Text → Bool)
    (record : StoredPluginSettingsRecord) : Bool :=
  record.values.entries.all fun entry =>
    apart entry.1 || !isSecret host directoryName entry.1 ||
      (openedSecret host directoryName entry.1 (record.legacySecretUserIds.get? entry.1)
        entry.2).all fun value => openedSecret host directoryName entry.1 none entry.2 = some value

def needsMigration (host : SettingsHost) (directoryName : Text)
    (record : StoredPluginSettingsRecord) : Bool :=
  record.legacySecretUserIds ≠ .empty ||
    record.values.entries.any fun entry =>
      isSecret host directoryName entry.1 &&
        (decryptStoredSecretValue host directoryName entry.1
          (record.legacySecretUserIds.get? entry.1) entry.2).any DecryptedSecret.migrated

/-- An operation that rewrites the file finds no secret, outside the plugin that it reads and the
keys that it overwrites, that opens only with the user it comes from. -/
def keepsProvenance (host : SettingsHost) (file : SettingsFile) (operation : SettingsOperation) :
    Bool :=
  (readPluginSettingsStateFile host file).all fun stateFile =>
    match operation with
    | .read kind directoryName _ =>
      !((stateFile.plugins.get? directoryName).any fun record =>
          kind = .runtime || needsMigration host directoryName record) ||
        stateFile.plugins.entries.all fun entry =>
          entry.1 = directoryName || opensWithoutUsers host entry.1 (fun _ => false) entry.2
    | .update _ _ _ _ =>
      stateFile.plugins.entries.all fun entry =>
        opensWithoutUsers host entry.1 (operation.overwrites host entry.1) entry.2

theorem tryAdditionalData_opened {ciphertext : Text} {candidates : List Text}
    (opened : firstOpened host ciphertext candidates = some value) :
    tryAdditionalData host ciphertext candidates = some { migrated := true, value } := by
  induction candidates with
  | nil => exact absurd opened (by simp [firstOpened])
  | cons additionalData rest ih =>
    rw [firstOpened] at opened
    rw [tryAdditionalData]
    split at opened
    · rename_i found isFound
      obtain rfl := Option.some.inj opened
      rw [isFound]
    · rename_i refused
      rw [refused]
      exact ih opened
    · exact absurd opened (by simp)

theorem decryptStoredSecretValue_opened
    (opened : openedSecret host directoryName key legacyUserId stored = some value) :
    ∃ migrated, decryptStoredSecretValue host directoryName key legacyUserId stored =
        some { migrated, value } ∧
      (migrated = false → openedSecret host directoryName key none stored = some value) := by
  cases stored with
  | setting found =>
    obtain rfl := Option.some.inj opened
    exact ⟨true, rfl, by simp⟩
  | encrypted ciphertext =>
    rw [openedSecret, firstOpened] at opened
    rw [decryptStoredSecretValue, openedSecret, firstOpened]
    split at opened
    · rename_i found isFound
      obtain rfl := Option.some.inj opened
      rw [isFound]
      exact ⟨false, rfl, fun _ => rfl⟩
    · rename_i refused
      rw [refused]
      exact ⟨true, tryAdditionalData_opened opened, by simp⟩
    · exact absurd opened (by simp)

theorem openedSecret_encryptStored (nonce : Nat) (value : PluginSettingValue) :
    openedSecret host directoryName key legacyUserId
      (encryptStoredSecretValue host directoryName key nonce value) = some value := by
  rw [encryptStoredSecretValue]
  split
  · rename_i scalar
    rw [openedSecret, firstOpened, host.codec.decrypt_encrypt _ _ _ scalar]
  · rfl

theorem materializeEntry_opened (secret : isSecret host directoryName key = true) (nonce : Nat)
    (opened : openedSecret host directoryName key legacyUserId stored = some value) :
    ∃ entry, materializeEntry host directoryName key legacyUserId nonce stored = some entry ∧
      entry.value = some value ∧
      openedSecret host directoryName key none entry.stored = some value := by
  obtain ⟨migrated, decrypted, unmigrated⟩ := decryptStoredSecretValue_opened opened
  unfold materializeEntry
  rw [if_pos secret, decrypted]
  refine ⟨_, rfl, rfl, ?_⟩
  dsimp only
  cases migrated with
  | true => exact openedSecret_encryptStored nonce value
  | false => exact unmigrated rfl

def Storable (stored : StoredPluginSettingValue) : Prop := storedValue stored.raw = some stored

theorem storable_of_storedValue {raw : RawSettingValue} (isStored : storedValue raw = some stored) :
    Storable stored := by
  cases raw with
  | setting value =>
    obtain rfl := Option.some.inj isStored
    rfl
  | encrypted ciphertext =>
    simp only [storedValue] at isStored
    split at isStored
    · exact absurd isStored (by simp)
    · rename_i nonempty
      obtain rfl := Option.some.inj isStored
      exact if_neg nonempty
  | other => exact absurd isStored (by simp [storedValue])

def AllStorable (values : OrderedMap Text StoredPluginSettingValue) : Prop :=
  ∀ key stored, values.get? key = some stored → Storable stored

theorem allStorable_normalizeStoredValues (bucket : RawBucket) :
    AllStorable (normalizeStoredValues bucket) := by
  intro key stored isStored
  rw [normalizeStoredValues, OrderedMap.get?_filterMapValues, Option.bind_eq_some_iff] at isStored
  obtain ⟨raw, _, isStored⟩ := isStored
  exact storable_of_storedValue isStored

theorem get?_foldl_addLegacyValue (legacyUserId : Nat) (collected : LegacyValues)
    (entries : List (Text × StoredPluginSettingValue)) (key : Text) :
    (entries.foldl (addLegacyValue legacyUserId) collected).1.get? key =
      (collected.1.get? key).or (OrderedMap.lookup key entries) := by
  induction entries generalizing collected with
  | nil => simp [OrderedMap.lookup]
  | cons entry rest ih =>
    obtain ⟨found, stored⟩ := entry
    rw [List.foldl_cons, ih, OrderedMap.lookup, addLegacyValue]
    by_cases taken : collected.1.has found = true
    · rw [if_pos taken]
      by_cases same : found = key
      · subst same
        obtain ⟨old, isOld⟩ := Option.isSome_iff_exists.mp taken
        simp [isOld]
      · rw [if_neg same]
    · rw [if_neg taken]
      dsimp only
      rw [OrderedMap.get?_set]
      by_cases same : found = key
      · subst same
        have absent : collected.1.get? found = none := by
          simpa [OrderedMap.has] using taken
        simp [absent]
      · rw [if_neg same, if_neg (Ne.symm same)]

theorem get?_foldl_addLegacyUser (collected : LegacyValues)
    (users : List (Nat × OrderedMap Text StoredPluginSettingValue)) (key : Text) :
    (users.foldl addLegacyUser collected).1.get? key =
      (collected.1.get? key).or (users.findSome? fun user => user.2.get? key) := by
  induction users generalizing collected with
  | nil => simp
  | cons user rest ih =>
    rw [List.foldl_cons, ih, addLegacyUser, get?_foldl_addLegacyValue, Option.or_assoc,
      List.findSome?_cons]
    congr 1
    rw [← OrderedMap.get?]
    cases user.2.get? key with
    | none => rfl
    | some stored => rfl

theorem mem_sortedLegacyUserEntries {users : OrderedMap Text (OrderedMap Text
      StoredPluginSettingValue)} {user : Nat × OrderedMap Text StoredPluginSettingValue} :
    user ∈ sortedLegacyUserEntries host users ↔
      ∃ name, users.get? name = some user.2 ∧ host.positiveInteger name = some user.1 := by
  rw [sortedLegacyUserEntries, (List.mergeSort_perm _ _).mem_iff, List.mem_filterMap]
  constructor
  · rintro ⟨entry, member, isUser⟩
    obtain ⟨userId, isId, rfl⟩ := Option.map_eq_some_iff.mp isUser
    exact ⟨entry.1, (users.get?_eq_some_iff _ _).mpr member, isId⟩
  · rintro ⟨name, isBucket, isId⟩
    refine ⟨(name, user.2), (users.get?_eq_some_iff _ _).mp isBucket, ?_⟩
    simp [isId]

def legacyBucket (users legacyUsers : OrderedMap Text RawBucket) (name : Text) :
    Option RawBucket :=
  (legacyUsers.get? name).or (users.get? name)

def storedIn (bucket : RawBucket) (key : Text) : Option StoredPluginSettingValue :=
  (bucket.get? key).bind storedValue

theorem get?_normalizeStoredValues (bucket : RawBucket) (key : Text) :
    (normalizeStoredValues bucket).get? key = storedIn bucket key :=
  OrderedMap.get?_filterMapValues _ _ _

theorem get?_legacyUsers (users legacyUsers : OrderedMap Text RawBucket) (name : Text) :
    ((normalizeLegacyUsers users).merge (normalizeLegacyUsers legacyUsers)).get? name =
      (legacyBucket users legacyUsers name).map normalizeStoredValues := by
  rw [OrderedMap.get?_merge, normalizeLegacyUsers, normalizeLegacyUsers,
    OrderedMap.get?_filterMapValues, OrderedMap.get?_filterMapValues, legacyBucket]
  cases legacyUsers.get? name with
  | none =>
    cases users.get? name with
    | none => rfl
    | some bucket => rfl
  | some bucket => rfl

theorem get?_normalizeLegacyStoredRecord (pluginId : Option Text) (globals locals : RawBucket)
    (users legacyUsers : OrderedMap Text RawBucket) (key : Text) :
    (normalizeLegacyStoredRecord host pluginId globals locals users legacyUsers).values.get? key =
      ((storedIn locals key).or (storedIn globals key)).or
        ((sortedLegacyUserEntries host ((normalizeLegacyUsers users).merge
          (normalizeLegacyUsers legacyUsers))).findSome? fun user => user.2.get? key) := by
  rw [normalizeLegacyStoredRecord]
  dsimp only
  rw [get?_foldl_addLegacyUser, OrderedMap.get?_merge, get?_normalizeStoredValues,
    get?_normalizeStoredValues]

/-- A key of a legacy record that has a value to be stored, in the global or local bucket or in
the bucket of a user whose name is a positive integer. -/
def LegacyKey (host : SettingsHost) (globals locals : RawBucket)
    (users legacyUsers : OrderedMap Text RawBucket) (key : Text) : Prop :=
  (storedIn globals key).isSome ∨ (storedIn locals key).isSome ∨
    ∃ name bucket, (host.positiveInteger name).isSome ∧
      legacyBucket users legacyUsers name = some bucket ∧ (storedIn bucket key).isSome

theorem normalizeLegacyStoredRecord_has (pluginId : Option Text) (globals locals : RawBucket)
    (users legacyUsers : OrderedMap Text RawBucket) (key : Text) :
    (normalizeLegacyStoredRecord host pluginId globals locals users legacyUsers).values.has key =
        true ↔ LegacyKey host globals locals users legacyUsers key := by
  rw [OrderedMap.has, get?_normalizeLegacyStoredRecord, Option.isSome_or, Option.isSome_or,
    Bool.or_eq_true, Bool.or_eq_true, LegacyKey, List.findSome?_isSome_iff]
  have fromUsers : (∃ user ∈ sortedLegacyUserEntries host ((normalizeLegacyUsers users).merge
      (normalizeLegacyUsers legacyUsers)), (user.2.get? key).isSome) ↔
      ∃ name bucket, (host.positiveInteger name).isSome ∧
        legacyBucket users legacyUsers name = some bucket ∧ (storedIn bucket key).isSome := by
    constructor
    · rintro ⟨user, member, isStored⟩
      obtain ⟨name, isUser, isId⟩ := mem_sortedLegacyUserEntries.mp member
      rw [get?_legacyUsers, Option.map_eq_some_iff] at isUser
      obtain ⟨bucket, isBucket, isValues⟩ := isUser
      rw [← isValues, get?_normalizeStoredValues] at isStored
      exact ⟨name, bucket, by simp [isId], isBucket, isStored⟩
    · rintro ⟨name, bucket, isId, isBucket, isStored⟩
      obtain ⟨userId, isId⟩ := Option.isSome_iff_exists.mp isId
      refine ⟨(userId, normalizeStoredValues bucket),
        mem_sortedLegacyUserEntries.mpr ⟨name, ?_, isId⟩, ?_⟩
      · rw [get?_legacyUsers, isBucket]
        rfl
      · dsimp only
        rwa [get?_normalizeStoredValues]
  rw [fromUsers]
  tauto

theorem allStorable_normalizeStoredRecord {raw : RawSettingsRecord}
    (normalized : normalizeStoredRecord host raw = some record) : AllStorable record.values := by
  cases raw with
  | other => exact absurd normalized (by simp [normalizeStoredRecord])
  | current pluginId values =>
    obtain rfl := Option.some.inj normalized
    exact allStorable_normalizeStoredValues values
  | legacy pluginId globals locals users legacyUsers =>
    obtain rfl := Option.some.inj normalized
    intro key stored isStored
    have ofBucket : ∀ bucket, storedIn bucket key = some stored → Storable stored := by
      intro bucket isStored
      obtain ⟨raw, _, isStored⟩ := Option.bind_eq_some_iff.mp isStored
      exact storable_of_storedValue isStored
    rw [get?_normalizeLegacyStoredRecord, Option.or_eq_some_iff] at isStored
    rcases isStored with isStored | ⟨_, isStored⟩
    · rcases Option.or_eq_some_iff.mp isStored with isStored | ⟨_, isStored⟩
      · exact ofBucket locals isStored
      · exact ofBucket globals isStored
    · obtain ⟨user, member, isStored⟩ := List.exists_of_findSome?_eq_some isStored
      obtain ⟨name, isUser, _⟩ := mem_sortedLegacyUserEntries.mp member
      rw [get?_legacyUsers, Option.map_eq_some_iff] at isUser
      obtain ⟨bucket, _, isValues⟩ := isUser
      rw [← isValues, get?_normalizeStoredValues] at isStored
      exact ofBucket bucket isStored

theorem allStorable_read (isRead : readPluginSettingsStateFile host file = some stateFile)
    (isRecord : stateFile.plugins.get? directoryName = some record) :
    AllStorable record.values := by
  cases file with
  | missing =>
    obtain rfl := Option.some.inj isRead
    exact absurd isRecord (by simp)
  | malformed => exact absurd isRead (by simp [readPluginSettingsStateFile])
  | otherValue =>
    obtain rfl := Option.some.inj isRead
    exact absurd isRecord (by simp)
  | plugins plugins =>
    obtain rfl := Option.some.inj isRead
    dsimp only at isRecord
    rw [OrderedMap.get?_filterMapValues, Option.bind_eq_some_iff] at isRecord
    obtain ⟨raw, _, normalized⟩ := isRecord
    exact allStorable_normalizeStoredRecord normalized

theorem reread_stored (isStored : record.values.get? key = some stored)
    (storable : Storable stored) : record.reread.values.get? key = some stored := by
  rw [get?_reread, isStored]
  exact storable

theorem secretValue_eq_some_iff (secret : isSecret host directoryName key = true) :
    secretValue host file directoryName key = some value ↔
      ∃ stateFile record stored, readPluginSettingsStateFile host file = some stateFile ∧
        stateFile.plugins.get? directoryName = some record ∧
        record.values.get? key = some stored ∧
        openedSecret host directoryName key (record.legacySecretUserIds.get? key) stored =
          some value := by
  rw [secretValue, if_pos secret]
  simp only [Option.bind_eq_some_iff]
  constructor
  · rintro ⟨stateFile, isRead, record, isRecord, stored, isStored, opened⟩
    exact ⟨stateFile, record, stored, isRead, isRecord, isStored, opened⟩
  · rintro ⟨stateFile, record, stored, isRead, isRecord, isStored, opened⟩
    exact ⟨stateFile, isRead, record, isRecord, stored, isStored, opened⟩

theorem secretValue_serialized (secret : isSecret host directoryName key = true)
    (isRecord : stateFile.plugins.get? directoryName = some record)
    (isStored : record.values.get? key = some stored) (storable : Storable stored)
    (opened : openedSecret host directoryName key none stored = some value) :
    secretValue host (serializePluginSettingsStateFile stateFile) directoryName key =
      some value := by
  obtain ⟨read, isRead, records⟩ := read_serialized host stateFile
  refine (secretValue_eq_some_iff secret).mpr ⟨read, record.reread, stored, isRead, ?_,
    reread_stored isStored storable, opened⟩
  rw [records, isRecord, Option.map_some]

theorem hasKey_serialized (isRecord : stateFile.plugins.get? directoryName = some record)
    (isStored : record.values.get? key = some stored) (storable : Storable stored) :
    hasKey host (serializePluginSettingsStateFile stateFile) directoryName key := by
  obtain ⟨read, isRead, records⟩ := read_serialized host stateFile
  refine ⟨read, record.reread, stored, isRead, ?_, reread_stored isStored storable⟩
  rw [records, isRecord, Option.map_some]

theorem materializeStoredValues_stored {materialized : MaterializedStoredValues}
    (isMaterialized : materializeStoredValues host directoryName nonces record =
      some materialized) (isStored : record.values.get? key = some stored) :
    ∃ entry, materializeEntry host directoryName key (record.legacySecretUserIds.get? key)
        (nonces key) stored = some entry ∧
      materialized.values.get? key = entry.value ∧
      materialized.record.values.get? key = some entry.stored := by
  obtain ⟨read, kept⟩ := materializeStoredValues_get? isMaterialized key
  rw [materializeStoredValues] at isMaterialized
  split at isMaterialized
  · exact absurd isMaterialized (by simp)
  · rename_i noneThrows
    cases isEntry : materializeEntry host directoryName key
        (record.legacySecretUserIds.get? key) (nonces key) stored with
    | none =>
      refine absurd (List.any_eq_true.mpr ⟨(key, stored), ?_, ?_⟩) noneThrows
      · exact (record.values.get?_eq_some_iff _ _).mp isStored
      · simp [isEntry]
    | some entry =>
      rw [isStored, Option.bind_some, isEntry] at read kept
      exact ⟨entry, rfl, read, kept⟩

theorem storable_materializeEntry {nonce : Nat} {entry : MaterializedEntry}
    (storable : Storable stored)
    (isEntry : materializeEntry host directoryName key legacyUserId nonce stored = some entry) :
    Storable entry.stored := by
  unfold materializeEntry at isEntry
  split at isEntry
  · obtain ⟨decrypted, _, rfl⟩ := Option.map_eq_some_iff.mp isEntry
    dsimp only
    split
    · rw [encryptStoredSecretValue]
      split
      · exact if_neg (host.codec.encrypt_ne_nil _ _ _)
      · exact rfl
    · exact storable
  · split at isEntry
    · obtain rfl := Option.some.inj isEntry
      exact storable
    · obtain rfl := Option.some.inj isEntry
      exact storable

theorem migrated_eq {materialized : MaterializedStoredValues}
    (isMaterialized : materializeStoredValues host directoryName nonces record =
      some materialized) :
    materialized.migrated = needsMigration host directoryName record := by
  have entries : ∀ entry : Text × StoredPluginSettingValue,
      (materializeEntry host directoryName entry.1 (record.legacySecretUserIds.get? entry.1)
        (nonces entry.1) entry.2).any MaterializedEntry.migrated =
        (isSecret host directoryName entry.1 &&
          (decryptStoredSecretValue host directoryName entry.1
            (record.legacySecretUserIds.get? entry.1) entry.2).any DecryptedSecret.migrated) := by
    intro entry
    unfold materializeEntry
    by_cases secret : isSecret host directoryName entry.1 = true
    · rw [if_pos secret, secret, Bool.true_and, Option.any_map]
    · rw [if_neg secret, Bool.eq_false_iff.mpr secret, Bool.false_and]
      cases entry.2 with
      | setting value => rfl
      | encrypted ciphertext => rfl
  rw [materializeStoredValues] at isMaterialized
  split at isMaterialized
  · exact absurd isMaterialized (by simp)
  · obtain rfl := Option.some.inj isMaterialized
    dsimp only
    rw [needsMigration]
    simp only [entries]

theorem opensWithoutUsers_opened {apart : Text → Bool}
    (passes : opensWithoutUsers host directoryName apart record = true)
    (together : apart key = false) (secret : isSecret host directoryName key = true)
    (isStored : record.values.get? key = some stored)
    (opened : openedSecret host directoryName key (record.legacySecretUserIds.get? key) stored =
      some value) : openedSecret host directoryName key none stored = some value := by
  have entry := List.all_eq_true.mp passes (key, stored)
    ((record.values.get?_eq_some_iff _ _).mp isStored)
  simpa [together, secret, opened] using entry

theorem readSettings_written {kind : ReadKind} {reading : SettingsReading}
    {written : PluginSettingsStateFile}
    (isReading : readSettings host kind directoryName nonces stateFile = some reading)
    (isWritten : reading.written = some written) :
    ∃ record materialized, stateFile.plugins.get? directoryName = some record ∧
      materializeStoredValues host directoryName nonces record = some materialized ∧
      (decide (kind = .runtime) || needsMigration host directoryName record) = true ∧
      written = { plugins := stateFile.plugins.set directoryName materialized.record } := by
  rw [readSettings] at isReading
  split at isReading
  · obtain rfl := Option.some.inj isReading
    exact absurd isWritten (by simp)
  · rename_i record isRecord
    obtain ⟨materialized, isMaterialized, rfl⟩ := Option.map_eq_some_iff.mp isReading
    dsimp only at isWritten
    split at isWritten
    · rename_i rewrites
      rw [migrated_eq isMaterialized] at rewrites
      refine ⟨record, materialized, isRecord, isMaterialized, ?_, (Option.some.inj isWritten).symm⟩
      simpa [or_comm] using rewrites
    · exact absurd isWritten (by simp)

theorem updateSettings_stored {updated : Text} (pluginId : Option Text) {patch : SettingPatch}
    (nonces : Text → Nat) (absent : updated = directoryName → patch.get? key = none)
    (isRecord : stateFile.plugins.get? directoryName = some record)
    (isStored : record.values.get? key = some stored) :
    ∃ after, (updateSettings host updated pluginId patch nonces stateFile).plugins.get?
        directoryName = some after ∧ after.values.get? key = some stored := by
  by_cases own : updated = directoryName
  · obtain ⟨after, isAfter, values⟩ :=
      updateSettings_record host updated pluginId patch nonces stateFile
    have kept := values key
    rw [absent own, own, isRecord] at kept
    exact ⟨after, own ▸ isAfter, kept.trans isStored⟩
  · refine ⟨record, ?_, isStored⟩
    rw [updateSettings_other pluginId patch (Ne.symm own), isRecord]

theorem absent_of_stays {updated : Text} {pluginId : Option Text}
    {given : Option (OrderedMap Text (Option PluginSettingValue))} {patch : SettingPatch}
    (stays : (SettingsOperation.update updated pluginId given nonces).overwrites host
      directoryName key = false)
    (accepted : normalizeSettingPatch host updated given = .ok patch) :
    updated = directoryName → patch.get? key = none := by
  intro own
  simpa [SettingsOperation.overwrites, own, own ▸ accepted, OrderedMap.has] using stays

theorem secretValue_step {operation : SettingsOperation}
    (secret : isSecret host directoryName key = true)
    (stays : operation.overwrites host directoryName key = false)
    (provenance : keepsProvenance host file operation = true)
    (isValue : secretValue host file directoryName key = some value) :
    secretValue host (operationFile host file operation) directoryName key = some value := by
  obtain ⟨stateFile, record, stored, isRead, isRecord, isStored, opened⟩ :=
    (secretValue_eq_some_iff secret).mp isValue
  have storable := allStorable_read isRead isRecord key stored isStored
  have member := (stateFile.plugins.get?_eq_some_iff _ _).mp isRecord
  simp only [keepsProvenance, isRead, Option.all_some] at provenance
  simp only [operationFile, isRead]
  cases operation with
  | read kind readName nonces =>
    dsimp only at provenance ⊢
    split
    · exact isValue
    · rename_i reading isReading
      split
      · exact isValue
      · rename_i written isWritten
        obtain ⟨readRecord, materialized, isReadRecord, isMaterialized, rewrites, rfl⟩ :=
          readSettings_written isReading isWritten
        by_cases own : directoryName = readName
        · subst own
          obtain rfl := Option.some.inj (isReadRecord.symm.trans isRecord)
          obtain ⟨entry, isEntry, _, kept⟩ := materializeStoredValues_stored isMaterialized isStored
          obtain ⟨there, isThere, _, still⟩ := materializeEntry_opened secret (nonces key) opened
          obtain rfl := Option.some.inj (isEntry.symm.trans isThere)
          exact secretValue_serialized secret (OrderedMap.get?_set_self _ _ _) kept
            (storable_materializeEntry storable isEntry) still
        · rw [isReadRecord, Option.any_some, rewrites, Bool.not_true, Bool.false_or] at provenance
          have passes := List.all_eq_true.mp provenance _ member
          simp only [own, decide_false, Bool.false_or] at passes
          exact secretValue_serialized secret
            ((OrderedMap.get?_set_other _ _ own).trans isRecord) isStored storable
            (opensWithoutUsers_opened passes rfl secret isStored opened)
  | update updated pluginId given nonces =>
    dsimp only at provenance ⊢
    split
    · exact isValue
    · rename_i patch accepted
      obtain ⟨after, isAfter, kept⟩ := updateSettings_stored pluginId nonces
        (absent_of_stays stays accepted) isRecord isStored
      have passes := List.all_eq_true.mp provenance _ member
      exact secretValue_serialized secret isAfter kept storable
        (opensWithoutUsers_opened passes stays secret isStored opened)

theorem hasKey_step {operation : SettingsOperation}
    (stays : operation.overwrites host directoryName key = false)
    (there : hasKey host file directoryName key) :
    hasKey host (operationFile host file operation) directoryName key := by
  obtain ⟨stateFile, record, stored, isRead, isRecord, isStored⟩ := there
  have unchanged : hasKey host file directoryName key :=
    ⟨stateFile, record, stored, isRead, isRecord, isStored⟩
  have storable := allStorable_read isRead isRecord key stored isStored
  simp only [operationFile, isRead]
  cases operation with
  | read kind readName nonces =>
    dsimp only
    split
    · exact unchanged
    · rename_i reading isReading
      split
      · exact unchanged
      · rename_i written isWritten
        obtain ⟨readRecord, materialized, isReadRecord, isMaterialized, _, rfl⟩ :=
          readSettings_written isReading isWritten
        by_cases own : directoryName = readName
        · subst own
          obtain rfl := Option.some.inj (isReadRecord.symm.trans isRecord)
          obtain ⟨entry, isEntry, _, kept⟩ := materializeStoredValues_stored isMaterialized isStored
          exact hasKey_serialized (OrderedMap.get?_set_self _ _ _) kept
            (storable_materializeEntry storable isEntry)
        · exact hasKey_serialized ((OrderedMap.get?_set_other _ _ own).trans isRecord) isStored
            storable
  | update updated pluginId given nonces =>
    dsimp only
    split
    · exact unchanged
    · rename_i patch accepted
      obtain ⟨after, isAfter, kept⟩ := updateSettings_stored pluginId nonces
        (absent_of_stays stays accepted) isRecord isStored
      exact hasKey_serialized isAfter kept storable

theorem readSettings_secretValue {kind : ReadKind} {reading : SettingsReading}
    (secret : isSecret host directoryName key = true)
    (isValue : secretValue host file directoryName key = some value)
    (isRead : readPluginSettingsStateFile host file = some stateFile)
    (isReading : readSettings host kind directoryName nonces stateFile = some reading) :
    reading.values.get? key = some value := by
  obtain ⟨there, record, stored, isThere, isRecord, isStored, opened⟩ :=
    (secretValue_eq_some_iff secret).mp isValue
  obtain rfl := Option.some.inj (isThere.symm.trans isRead)
  rw [readSettings, isRecord] at isReading
  obtain ⟨materialized, isMaterialized, rfl⟩ := Option.map_eq_some_iff.mp isReading
  obtain ⟨entry, isEntry, read, _⟩ := materializeStoredValues_stored isMaterialized isStored
  obtain ⟨again, isAgain, returned, _⟩ := materializeEntry_opened secret (nonces key) opened
  obtain rfl := Option.some.inj (isEntry.symm.trans isAgain)
  exact read.trans returned

/-- The key stands in a bucket of `users` or `legacyUsers`. -/
def InUserBucket (users legacyUsers : OrderedMap Text RawBucket) (key : Text) : Prop :=
  ∃ name bucket, (users.get? name = some bucket ∨ legacyUsers.get? name = some bucket) ∧
    bucket.has key = true

def tokenSetting : Declaration where
  key := some "token".toList
  kind := .secret
  options := []
  itemKind := none
  hasDefault := false
  defaultValue := .null
  required := false

def mailHost : SettingsHost where
  codec := labelledCodec
  declarations := fun _ => [tokenSetting]
  isValidUrl := fun _ => false
  positiveInteger := fun text => if text = "3".toList then some 3 else none

def userToken : RawSettingValue :=
  .encrypted (labelledCodec.encrypt "metidos.plugin-setting:mail:token:user:3".toList
    (.text "s".toList) 0)

def mailFile : SettingsFile :=
  .plugins ((OrderedMap.empty.set "notes".toList (.current none .empty)).set "mail".toList
    (.legacy none .empty .empty
      (OrderedMap.empty.set "3".toList (OrderedMap.empty.set "token".toList userToken)) .empty))

def runtimeRead (directoryName : String) : SettingsOperation :=
  .read .runtime directoryName.toList noNonces

end Metidos.Settings
