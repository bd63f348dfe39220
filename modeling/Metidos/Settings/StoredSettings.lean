import Metidos.Library.Transition
import Metidos.Settings.SettingsValues

/-!
Executable model of concurrent settings operations: `readPluginSettingsSnapshot`,
`readPluginSettingsForRuntime` and `updatePluginSettings`.  A step carries one operation from one
`await` to the next, and `writeFile` first empties the file.
-/

namespace Metidos.Settings

inductive OperationKind
  | snapshot (readableSecrets : Bool)
  | runtime
  | update (patch : Option (OrderedMap Text (Option PluginSettingValue)))
  deriving DecidableEq

structure OperationCall where
  kind : OperationKind
  directoryName : Text
  pluginId : Option Text
  deriving DecidableEq

inductive SettingsResult
  | snapshot (directoryName : Text) (pluginId : Option Text)
      (settings : List RpcPluginSettingValueSummary)
  | runtime (settings : PluginRuntimeSettings)
  | updated (values : OrderedMap Text PluginSettingValue)
  deriving DecidableEq

def readResult (host : SettingsHost) (call : OperationCall) (stateFile : PluginSettingsStateFile)
    (values : OrderedMap Text PluginSettingValue) : SettingsResult :=
  let declarations := host.declarations call.directoryName
  match call.kind with
  | .snapshot readableSecrets =>
    let stored := (stateFile.plugins.get? call.directoryName).bind
      StoredPluginSettingsRecord.pluginId
    .snapshot call.directoryName (stored.or call.pluginId)
      (settingSummaries declarations readableSecrets values)
  | .runtime => .runtime (runtimeSettings declarations values)
  | .update _ => .updated values

def OperationKind.readKind : OperationKind → ReadKind
  | .snapshot _ => .snapshot
  | .runtime => .runtime
  | .update _ => .snapshot

/-- What is left to do after a write: a read returns its result, an update reads the values of
its record. -/
inductive AfterWrite
  | result (result : SettingsResult)
  | confirm (patch : SettingPatch)
  deriving DecidableEq

/-- What an operation awaits.  An update reads the file with its patch and the random part of its
encryption. -/
inductive SettingsPhase
  | encrypting (patch : SettingPatch)
  | reading (update : Option (SettingPatch × (Text → Nat)))
  | materializing (stateFile : PluginSettingsStateFile)
  | opening (stateFile : PluginSettingsStateFile) (after : AfterWrite)
  | writing (stateFile : PluginSettingsStateFile) (after : AfterWrite)
  | confirming (stateFile : PluginSettingsStateFile)
  | returned (result : SettingsResult)
  | threw

abbrev Updates := List (Text × SettingPatch)

/-- A call with the number of writes to the file and the updates written when it read the file; a
write counts as its own. -/
structure SettingsRun where
  call : OperationCall
  phase : SettingsPhase
  seen : Nat
  known : Updates

/-- The file, the operations, the number of times that the file was emptied or written, and the
updates that have been written. -/
structure SettingsSystem where
  file : SettingsFile
  runs : List SettingsRun
  writes : Nat
  updates : Updates

namespace SettingsSystem

def initial (file : SettingsFile) : SettingsSystem where
  file := file
  runs := []
  writes := 0
  updates := []

def updateRun (system : SettingsSystem) (run : Nat) (update : SettingsRun → SettingsRun) :
    SettingsSystem :=
  { system with runs := system.runs.modify run update }

def setPhase (system : SettingsSystem) (run : Nat) (phase : SettingsPhase) : SettingsSystem :=
  system.updateRun run fun current => { current with phase }

def call (host : SettingsHost) (system : SettingsSystem) (operation : OperationCall) :
    SettingsSystem :=
  { system with
    runs := system.runs ++
      [{ call := operation
         phase :=
           match operation.kind with
           | .update patch =>
             match normalizeSettingPatch host operation.directoryName patch with
             | .error _ => .threw
             | .ok patch => .encrypting patch
           | _ => .reading none
         seen := system.writes
         known := system.updates }] }

/-- The file is read; an update goes on to write it. -/
@[grind =]
def read (host : SettingsHost) (system : SettingsSystem) (run : Nat) (operation : OperationCall)
    (update : Option (SettingPatch × (Text → Nat))) : SettingsSystem :=
  match readPluginSettingsStateFile host system.file with
  | none => system.setPhase run .threw
  | some stateFile =>
    system.updateRun run fun current =>
      { current with
        phase :=
          match update with
          | none => .materializing stateFile
          | some (patch, nonces) =>
            .opening (updateSettings host operation.directoryName operation.pluginId patch
              nonces stateFile) (.confirm patch)
        seen := system.writes
        known := system.updates }

def materialize (host : SettingsHost) (system : SettingsSystem) (run : Nat)
    (operation : OperationCall) (stateFile : PluginSettingsStateFile) (nonces : Text → Nat) :
    SettingsSystem :=
  match readSettings host operation.kind.readKind operation.directoryName nonces stateFile with
  | none => system.setPhase run .threw
  | some reading =>
    let result := readResult host operation stateFile reading.values
    match reading.written with
    | none => system.setPhase run (.returned result)
    | some written => system.setPhase run (.opening written (.result result))

/-- `writeFile` has opened the file, which empties it. -/
def openFile (system : SettingsSystem) (run : Nat) (stateFile : PluginSettingsStateFile)
    (after : AfterWrite) : SettingsSystem :=
  { system with file := .malformed, writes := system.writes + 1 }.updateRun run fun current =>
    { current with phase := .writing stateFile after, seen := system.writes + 1 }

def write (system : SettingsSystem) (run : Nat) (operation : OperationCall)
    (stateFile : PluginSettingsStateFile) (after : AfterWrite) : SettingsSystem :=
  let written : SettingsSystem :=
    { system with
      file := serializePluginSettingsStateFile stateFile
      writes := system.writes + 1 }
  match after with
  | .result result => written.setPhase run (.returned result)
  | .confirm patch =>
    { written with updates := (operation.directoryName, patch) :: system.updates }.setPhase run
      (.confirming stateFile)

def confirm (host : SettingsHost) (system : SettingsSystem) (run : Nat)
    (operation : OperationCall) (stateFile : PluginSettingsStateFile) (nonces : Text → Nat) :
    SettingsSystem :=
  match readSettings host operation.kind.readKind operation.directoryName nonces stateFile with
  | none => system.setPhase run .threw
  | some reading =>
    system.setPhase run (.returned (readResult host operation stateFile reading.values))

end SettingsSystem

inductive SettingsEvent
  | call (operation : OperationCall)
  | encrypted (run : Nat) (nonces : Text → Nat)
  | read (run : Nat)
  | materialized (run : Nat) (nonces : Text → Nat)
  | opened (run : Nat)
  | written (run : Nat)
  | threw (run : Nat)

@[grind =] def resumeRun (host : SettingsHost) (system : SettingsSystem) (run : Nat)
    (operation : OperationCall) : SettingsPhase → SettingsEvent → Option SettingsSystem
  | .encrypting patch, .encrypted _ nonces =>
    some (system.setPhase run (.reading (some (patch, nonces))))
  | .reading update, .read _ => some (system.read host run operation update)
  | .materializing stateFile, .materialized _ nonces =>
    some (system.materialize host run operation stateFile nonces)
  | .opening stateFile after, .opened _ => some (system.openFile run stateFile after)
  | .writing stateFile after, .written _ => some (system.write run operation stateFile after)
  | .confirming stateFile, .materialized _ nonces =>
    some (system.confirm host run operation stateFile nonces)
  | .returned _, _ => none
  | .threw, _ => none
  | _, .threw _ => some (system.setPhase run .threw)
  | _, _ => none

def SettingsEvent.run? : SettingsEvent → Option Nat
  | .call _ => none
  | .encrypted run _ => some run
  | .read run => some run
  | .materialized run _ => some run
  | .opened run => some run
  | .written run => some run
  | .threw run => some run

def settingsStep (host : SettingsHost) (system : SettingsSystem) (event : SettingsEvent) :
    Option SettingsSystem :=
  match event with
  | .call operation => some (system.call host operation)
  | event =>
    event.run?.bind fun run =>
      system.runs[run]?.bind fun found => resumeRun host system run found.call found.phase event

end Metidos.Settings

/-!
What reading, writing and updating a settings file keep of the values of the updates before: the
values that a state file holds for them, and the results that show them.
-/

namespace Metidos.Settings

variable {host : SettingsHost} {directoryName key : Text} {value : PluginSettingValue}
  {updates : Updates} {stateFile : PluginSettingsStateFile} {nonces : Text → Nat}

def patchedValue (updates : Updates) (directoryName key : Text) : Option PluginSettingValue :=
  updates.findSome? fun update =>
    if update.1 = directoryName then update.2.get? key else none

def Declared (host : SettingsHost) (directoryName key : Text) : Prop :=
  ∃ declaration, declarationFor (host.declarations directoryName) key = some declaration

inductive Stores (host : SettingsHost) (directoryName key : Text) :
    PluginSettingValue → Option StoredPluginSettingValue → Prop
  | plain {value : PluginSettingValue} (plain : isSecret host directoryName key = false) :
      Stores host directoryName key value (some (.setting value))
  | cleared (secret : isSecret host directoryName key = true) :
      Stores host directoryName key .null none
  | encrypted {value : PluginSettingValue} {ciphertext : Text}
      (secret : isSecret host directoryName key = true) (unclear : value ≠ .null)
      (nonempty : ciphertext ≠ [])
      (opens : host.codec.decrypt (pluginSecretAdditionalData directoryName key) ciphertext =
        .opened value) :
      Stores host directoryName key value (some (.encrypted ciphertext))

def Keeps (host : SettingsHost) (updates : Updates) (stateFile : PluginSettingsStateFile) : Prop :=
  ∀ directoryName key value, patchedValue updates directoryName key = some value →
    Declared host directoryName key ∧
      ∃ record, stateFile.plugins.get? directoryName = some record ∧
        Stores host directoryName key value (record.values.get? key)

def PatchSound (host : SettingsHost) (directoryName : Text) (patch : SettingPatch) : Prop :=
  ∀ key value, patch.get? key = some value → Declared host directoryName key ∧
    (isSecret host directoryName key = true → value = .null ∨ value.scalar = true)

def shownValue (host : SettingsHost) (directoryName key : Text)
    (value defaultValue : PluginSettingValue) : PluginSettingValue :=
  if isSecret host directoryName key && value = .null then defaultValue else value

def Shows (host : SettingsHost) (directoryName : Text) (updates : Updates) :
    SettingsResult → Prop
  | .snapshot _ _ settings =>
    ∀ key value, patchedValue updates directoryName key = some value →
      ∀ summary ∈ settings, summary.key = some key → summary.readable = true →
        summary.value = shownValue host directoryName key value summary.defaultValue
  | .runtime settings =>
    ∀ key value, patchedValue updates directoryName key = some value →
      ∃ declaration, declarationFor (host.declarations directoryName) key = some declaration ∧
        settings.values.get? key =
          some (shownValue host directoryName key value declaration.defaultValue)
  | .updated _ => True

theorem patchedValue_cons (update : Text × SettingPatch) (updates : Updates)
    (directoryName key : Text) :
    patchedValue (update :: updates) directoryName key =
      (if update.1 = directoryName then update.2.get? key else none).or
        (patchedValue updates directoryName key) := by
  rw [patchedValue, List.findSome?_cons]
  split
  · rename_i found
    rw [found]
    rfl
  · rename_i absent
    rw [absent]
    rfl

theorem key_ne_nil (declared : Declared host directoryName key) : key ≠ [] := by
  rintro rfl
  obtain ⟨declaration, isDeclaration⟩ := declared
  simp [declarationFor] at isDeclaration

theorem matchesDeclaration_secret {declaration : Declaration}
    (secret : declaration.kind = .secret)
    (accepted : matchesDeclaration host declaration value = true) :
    value = .null ∨ value.scalar = true := by
  cases value with
  | null => exact Or.inl rfl
  | text text => exact Or.inr rfl
  | number text => exact Or.inr rfl
  | boolean flag => exact Or.inr rfl
  | list items => simp [matchesDeclaration, secret] at accepted

theorem patchEntryError_none {key : Text} {value : Option PluginSettingValue}
    (passes : patchEntryError host directoryName key value = none) :
    ∃ declaration found, declarationFor (host.declarations directoryName) key = some declaration ∧
      value = some found ∧ matchesDeclaration host declaration found = true := by
  rw [patchEntryError] at passes
  split at passes
  · exact absurd passes (by simp)
  · rename_i declaration isDeclaration
    split at passes
    · exact absurd passes (by simp)
    · rename_i found
      split at passes
      · rename_i accepted
        exact ⟨declaration, found, isDeclaration, rfl, accepted⟩
      · exact absurd passes (by simp)

theorem normalizeSettingPatch_sound
    {patch : Option (OrderedMap Text (Option PluginSettingValue))} {normalized : SettingPatch}
    (accepted : normalizeSettingPatch host directoryName patch = .ok normalized) :
    PatchSound host directoryName normalized := by
  rw [normalizeSettingPatch.eq_def] at accepted
  split at accepted
  · exact absurd accepted (by simp)
  · rename_i patch
    split at accepted
    · exact absurd accepted (by simp)
    · rename_i noError
      obtain rfl := Except.ok.inj accepted
      intro key value isValue
      rw [OrderedMap.get?_filterMapValues, Option.bind_eq_some_iff] at isValue
      obtain ⟨raw, isRaw, rfl⟩ := isValue
      have passes := List.findSome?_eq_none_iff.mp noError (key, some value)
        ((patch.get?_eq_some_iff key _).mp isRaw)
      obtain ⟨declaration, found, isDeclaration, same, matching⟩ := patchEntryError_none passes
      obtain rfl := Option.some.inj same
      refine ⟨⟨declaration, isDeclaration⟩, ?_⟩
      intro secret
      simp only [isSecret, isDeclaration, Option.any_some, decide_eq_true_eq] at secret
      exact matchesDeclaration_secret secret matching

theorem get?_encryptSecretSettingsInPatch (patch : SettingPatch) (key : Text) :
    (encryptSecretSettingsInPatch host directoryName nonces patch).get? key =
      (patch.get? key).map fun value =>
        if isSecret host directoryName key then
          encryptStoredSecretValue host directoryName key (nonces key) value
        else .setting value := by
  rw [encryptSecretSettingsInPatch, OrderedMap.get?_filterMapValues, Option.map_eq_bind]
  rfl

def appliedValue (host : SettingsHost) (directoryName : Text) (patch : SettingPatch) (key : Text)
    (stored : StoredPluginSettingValue) : Option StoredPluginSettingValue :=
  if isSecret host directoryName key && patch.get? key = some .null then none else some stored

theorem get?_applySettingsPatch (patch : SettingPatch)
    (encryptedPatch storedValues : OrderedMap Text StoredPluginSettingValue) (key : Text) :
    (applySettingsPatchToStoredValues host directoryName patch encryptedPatch storedValues).get?
        key =
      (encryptedPatch.get? key).elim (storedValues.get? key)
        (appliedValue host directoryName patch key) := by
  have own : ∀ (stored : OrderedMap Text StoredPluginSettingValue)
      (entry : Text × StoredPluginSettingValue),
      (if isSecret host directoryName entry.1 && patch.get? entry.1 = some .null then
        stored.delete entry.1
      else stored.set entry.1 entry.2).get? entry.1 =
        appliedValue host directoryName patch entry.1 entry.2 := by
    intro stored entry
    rw [appliedValue]
    split
    · simp
    · simp
  refine OrderedMap.get?_foldl_entries (appliedValue host directoryName patch) own ?_ storedValues encryptedPatch key
  intro map entry key apart
  split
  · simp [apart]
  · simp [apart]

theorem updateSettings_record (host : SettingsHost) (directoryName : Text)
    (pluginId : Option Text) (patch : SettingPatch) (nonces : Text → Nat)
    (stateFile : PluginSettingsStateFile) :
    ∃ record, (updateSettings host directoryName pluginId patch nonces stateFile).plugins.get?
        directoryName = some record ∧
      ∀ key, record.values.get? key =
        match patch.get? key with
        | none => ((stateFile.plugins.get? directoryName).bind fun record =>
          record.values.get? key)
        | some value =>
          if isSecret host directoryName key then
            if value = .null then none
            else some (encryptStoredSecretValue host directoryName key (nonces key) value)
          else some (.setting value) := by
  refine ⟨_, OrderedMap.get?_set_self _ _ _, fun key => ?_⟩
  have before : (ensurePluginSettingsRecord pluginId
      (stateFile.plugins.get? directoryName)).values.get? key =
        (stateFile.plugins.get? directoryName).bind fun record => record.values.get? key := by
    rw [ensurePluginSettingsRecord.eq_def]
    split
    · rename_i found
      rw [found]
      rfl
    · rename_i absent
      rw [absent]
      rfl
  rw [get?_applySettingsPatch, get?_encryptSecretSettingsInPatch, before]
  cases inPatch : patch.get? key with
  | none => rfl
  | some value =>
    by_cases secret : isSecret host directoryName key = true
    · simp [appliedValue, inPatch, secret]
    · simp [appliedValue, secret]

theorem updateSettings_other {other : Text} (pluginId : Option Text) (patch : SettingPatch)
    (apart : other ≠ directoryName) :
    (updateSettings host directoryName pluginId patch nonces stateFile).plugins.get? other =
      stateFile.plugins.get? other :=
  OrderedMap.get?_set_other _ _ apart

theorem stores_encrypted {nonce : Nat} (secret : isSecret host directoryName key = true)
    (unclear : value ≠ .null) (scalar : value.scalar = true) :
    Stores host directoryName key value
      (some (encryptStoredSecretValue host directoryName key nonce value)) := by
  rw [encryptStoredSecretValue, if_pos scalar]
  exact .encrypted secret unclear (host.codec.encrypt_ne_nil _ _ _)
    (host.codec.decrypt_encrypt _ _ _ scalar)

theorem keeps_updateSettings {patch : SettingPatch} (pluginId : Option Text)
    (keeps : Keeps host updates stateFile) (sound : PatchSound host directoryName patch) :
    Keeps host ((directoryName, patch) :: updates)
      (updateSettings host directoryName pluginId patch nonces stateFile) := by
  intro other key value isPatched
  rw [patchedValue_cons] at isPatched
  dsimp only at isPatched
  by_cases own : directoryName = other
  · subst own
    obtain ⟨record, isRecord, values⟩ :=
      updateSettings_record host directoryName pluginId patch nonces stateFile
    have stored := values key
    rw [if_pos rfl] at isPatched
    cases inPatch : patch.get? key with
    | none =>
      rw [inPatch] at stored isPatched
      obtain ⟨declared, before, isBefore, stores⟩ := keeps _ _ _ isPatched
      rw [isBefore] at stored
      exact ⟨declared, record, isRecord, stored ▸ stores⟩
    | some given =>
      rw [inPatch] at stored isPatched
      obtain rfl := Option.some.inj isPatched
      obtain ⟨declared, secretSound⟩ := sound key given inPatch
      refine ⟨declared, record, isRecord, ?_⟩
      rw [stored]
      dsimp only
      by_cases secret : isSecret host directoryName key = true
      · rw [if_pos secret]
        by_cases clear : given = .null
        · rw [if_pos clear, clear]
          exact .cleared secret
        · rw [if_neg clear]
          exact stores_encrypted secret clear ((secretSound secret).resolve_left clear)
      · rw [if_neg secret]
        exact .plain (Bool.eq_false_iff.mpr secret)
  · rw [if_neg own, Option.none_or] at isPatched
    obtain ⟨declared, record, isRecord, stores⟩ := keeps _ _ _ isPatched
    refine ⟨declared, record, ?_, stores⟩
    rw [updateSettings_other pluginId patch (Ne.symm own), isRecord]

theorem materializeEntry_stores {stored : StoredPluginSettingValue} (legacyUserId : Option Nat)
    (nonce : Nat) (stores : Stores host directoryName key value (some stored)) :
    materializeEntry host directoryName key legacyUserId nonce stored =
      some { value := some value, migrated := false, stored } := by
  cases stores with
  | plain plain => simp [materializeEntry, plain]
  | encrypted secret unclear nonempty opens =>
    simp [materializeEntry, secret, decryptStoredSecretValue, opens]

theorem materializeStoredValues_get? {record : StoredPluginSettingsRecord}
    {materialized : MaterializedStoredValues}
    (isMaterialized : materializeStoredValues host directoryName nonces record =
      some materialized) (key : Text) :
    materialized.values.get? key = ((record.values.get? key).bind fun stored =>
        (materializeEntry host directoryName key (record.legacySecretUserIds.get? key)
          (nonces key) stored).bind MaterializedEntry.value) ∧
      materialized.record.values.get? key = (record.values.get? key).bind fun stored =>
        (materializeEntry host directoryName key (record.legacySecretUserIds.get? key)
          (nonces key) stored).map MaterializedEntry.stored := by
  rw [materializeStoredValues] at isMaterialized
  split at isMaterialized
  · exact absurd isMaterialized (by simp)
  · obtain rfl := Option.some.inj isMaterialized
    exact ⟨OrderedMap.get?_filterMapValues _ _ _, OrderedMap.get?_filterMapValues _ _ _⟩

theorem materializeStoredValues_stores {record : StoredPluginSettingsRecord}
    {materialized : MaterializedStoredValues}
    (isMaterialized : materializeStoredValues host directoryName nonces record =
      some materialized)
    (stores : Stores host directoryName key value (record.values.get? key)) :
    Stores host directoryName key value (materialized.record.values.get? key) ∧
      materialized.values.get? key =
        (if isSecret host directoryName key && value = .null then none else some value) := by
  obtain ⟨read, kept⟩ := materializeStoredValues_get? isMaterialized key
  cases found : record.values.get? key with
  | none =>
    rw [found] at read kept stores
    rw [read, kept]
    cases stores with
    | cleared secret => exact ⟨.cleared secret, by simp [secret]⟩
  | some stored =>
    rw [found] at read kept stores
    simp only [Option.bind_some, materializeEntry_stores _ _ stores, Option.map_some] at read kept
    rw [read, kept]
    refine ⟨stores, ?_⟩
    cases stores with
    | plain plain => simp [plain]
    | encrypted secret unclear nonempty opens => simp [unclear]

theorem readSettings_keeps {kind : ReadKind} {reading : SettingsReading}
    (keeps : Keeps host updates stateFile)
    (isReading : readSettings host kind directoryName nonces stateFile = some reading) :
    (∀ written, reading.written = some written → Keeps host updates written) ∧
      ∀ key value, patchedValue updates directoryName key = some value →
        reading.values.get? key =
          if isSecret host directoryName key && value = .null then none else some value := by
  rw [readSettings] at isReading
  split at isReading
  · rename_i absent
    obtain rfl := Option.some.inj isReading
    refine ⟨(fun _ isWritten => by cases isWritten), ?_⟩
    intro key value isPatched
    obtain ⟨_, record, isRecord, _⟩ := keeps _ _ _ isPatched
    exact absurd (isRecord.symm.trans absent) (by simp)
  · rename_i record isRecord
    obtain ⟨materialized, isMaterialized, rfl⟩ := Option.map_eq_some_iff.mp isReading
    constructor
    · intro written isWritten
      dsimp only at isWritten
      split at isWritten
      · obtain rfl := Option.some.inj isWritten
        intro other key value isPatched
        obtain ⟨declared, before, isBefore, stores⟩ := keeps _ _ _ isPatched
        by_cases own : other = directoryName
        · subst own
          obtain rfl := Option.some.inj (isBefore.symm.trans isRecord)
          exact ⟨declared, materialized.record, OrderedMap.get?_set_self _ _ _,
            (materializeStoredValues_stores isMaterialized stores).1⟩
        · exact ⟨declared, before, (OrderedMap.get?_set_other _ _ own).trans isBefore, stores⟩
      · exact absurd isWritten (by simp)
    · intro key value isPatched
      obtain ⟨_, before, isBefore, stores⟩ := keeps _ _ _ isPatched
      obtain rfl := Option.some.inj (isBefore.symm.trans isRecord)
      exact (materializeStoredValues_stores isMaterialized stores).2

theorem storedValue_raw {stored : StoredPluginSettingValue}
    (stores : Stores host directoryName key value (some stored)) :
    storedValue stored.raw = some stored := by
  cases stores with
  | plain plain => rfl
  | encrypted secret unclear nonempty opens => exact if_neg nonempty

def StoredPluginSettingsRecord.reread (record : StoredPluginSettingsRecord) :
    StoredPluginSettingsRecord where
  pluginId := record.pluginId
  values := normalizeStoredValues (record.values.filterMapValues fun _ value => some value.raw)
  legacySecretUserIds := .empty

theorem get?_reread (record : StoredPluginSettingsRecord) (key : Text) :
    record.reread.values.get? key =
      (record.values.get? key).bind fun stored => storedValue stored.raw := by
  rw [StoredPluginSettingsRecord.reread, normalizeStoredValues, OrderedMap.get?_filterMapValues,
    OrderedMap.get?_filterMapValues, Option.bind_assoc]
  rfl

theorem read_serialized (host : SettingsHost) (stateFile : PluginSettingsStateFile) :
    ∃ read, readPluginSettingsStateFile host (serializePluginSettingsStateFile stateFile) =
        some read ∧
      ∀ directoryName, read.plugins.get? directoryName =
        (stateFile.plugins.get? directoryName).map StoredPluginSettingsRecord.reread := by
  refine ⟨_, rfl, fun directoryName => ?_⟩
  rw [OrderedMap.get?_filterMapValues, OrderedMap.get?_filterMapValues, Option.bind_assoc,
    Option.map_eq_bind]
  rfl

theorem keeps_serialized {read : PluginSettingsStateFile} (keeps : Keeps host updates stateFile)
    (isRead : readPluginSettingsStateFile host (serializePluginSettingsStateFile stateFile) =
      some read) : Keeps host updates read := by
  obtain ⟨there, isThere, records⟩ := read_serialized host stateFile
  obtain rfl := Option.some.inj (isThere.symm.trans isRead)
  intro other key value isPatched
  obtain ⟨declared, record, isRecord, stores⟩ := keeps _ _ _ isPatched
  refine ⟨declared, record.reread, ?_, ?_⟩
  · rw [records, isRecord, Option.map_some]
  · rw [get?_reread]
    cases found : record.values.get? key with
    | none =>
      rw [found] at stores
      exact stores
    | some stored =>
      rw [found] at stores
      rw [Option.bind_some, storedValue_raw stores]
      exact stores

theorem storedSetting_eq (storedValues : OrderedMap Text PluginSettingValue)
    {declaration : Declaration} (isKey : declaration.key = some key) (nonempty : key ≠ []) :
    storedSetting storedValues declaration = storedValues.get? key := by
  simp [storedSetting, isKey, nonempty, Option.filter]

theorem runtimeEntries_filter (declarations : List Declaration)
    (storedValues : OrderedMap Text PluginSettingValue) (nonempty : key ≠ []) :
    (runtimeEntries declarations storedValues).filter (fun entry => entry.2.1 = key) =
      (declarations.filter fun declaration => declaration.key = some key).map fun declaration =>
        (declaration, key, (storedValues.get? key).getD declaration.defaultValue) := by
  induction declarations with
  | nil => rfl
  | cons declaration rest ih =>
    rw [runtimeEntries] at ih
    rw [runtimeEntries, List.filterMap_cons]
    cases isKey : declaration.key with
    | none => simpa [isKey] using ih
    | some found =>
      by_cases blank : found = []
      · subst blank
        simpa [isKey, Ne.symm nonempty, Option.filter] using ih
      · by_cases same : found = key
        · subst same
          simpa [isKey, blank, Option.filter] using ih
        · simpa [isKey, blank, same, Option.filter] using ih

theorem runtimeSettings_get? (declarations : List Declaration)
    (storedValues : OrderedMap Text PluginSettingValue) (nonempty : key ≠ []) :
    (runtimeSettings declarations storedValues).values.get? key =
      (declarationFor declarations key).map fun declaration =>
        (storedValues.get? key).getD declaration.defaultValue := by
  rw [runtimeSettings]
  dsimp only
  rw [OrderedMap.get?_foldl_set_last, runtimeEntries_filter declarations storedValues nonempty,
    declarationFor, if_neg nonempty, List.getLast?_map, Option.map_map, OrderedMap.get?_empty,
    Option.or_none]
  rfl

theorem getD_shown (value defaultValue : PluginSettingValue) :
    (if isSecret host directoryName key && value = .null then none else some value).getD
        defaultValue = shownValue host directoryName key value defaultValue := by
  rw [shownValue]
  split
  · rfl
  · rfl

theorem readResult_shows {call : OperationCall} {values : OrderedMap Text PluginSettingValue}
    (declared : ∀ key value, patchedValue updates call.directoryName key = some value →
      Declared host call.directoryName key)
    (shown : ∀ key value, patchedValue updates call.directoryName key = some value →
      values.get? key =
        if isSecret host call.directoryName key && value = .null then none else some value) :
    Shows host call.directoryName updates (readResult host call stateFile values) := by
  rw [readResult]
  cases call.kind with
  | snapshot readableSecrets =>
    intro key value isPatched summary isSummary isKey readable
    obtain ⟨declaration, _, rfl⟩ := List.mem_map.mp isSummary
    have nonempty := key_ne_nil (declared key value isPatched)
    have stored := @storedSetting_eq key values declaration isKey nonempty
    simp only [settingSummary] at readable ⊢
    rw [if_pos readable, if_pos readable, stored, shown key value isPatched, getD_shown]
  | runtime =>
    intro key value isPatched
    obtain ⟨declaration, isDeclaration⟩ := declared key value isPatched
    refine ⟨declaration, isDeclaration, ?_⟩
    rw [runtimeSettings_get? _ _ (key_ne_nil ⟨declaration, isDeclaration⟩), isDeclaration,
      shown key value isPatched, Option.map_some, getD_shown]
  | update patch => exact trivial

end Metidos.Settings
