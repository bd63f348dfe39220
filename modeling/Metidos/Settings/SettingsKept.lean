import Metidos.Settings.StoredSettings

/-!
Settings updates over whole runs: where every write replaces the file that was read for it, each
read shows the values of the updates that were written before it read the file.
-/

namespace Metidos.Settings

open Transition

variable {host : SettingsHost} {system next : SettingsSystem} {updates : Updates} {writes : Nat}
  {found : SettingsRun} {run : Nat}

def upToDate (system : SettingsSystem) : SettingsEvent → Bool
  | .opened run => system.runs[run]?.all fun found => found.seen = system.writes
  | .written run => system.runs[run]?.all fun found => found.seen = system.writes
  | _ => true

def SettingsRun.IsRead (found : SettingsRun) : Prop := ∀ given, found.call.kind ≠ .update given

def SettingsRun.Submitted (host : SettingsHost) (found : SettingsRun) (patch : SettingPatch) :
    Prop :=
  ∃ given, found.call.kind = .update given ∧
    normalizeSettingPatch host found.call.directoryName given = .ok patch

def SettingsRun.Written (host : SettingsHost) (updates : Updates) (found : SettingsRun) : Prop :=
  ∃ patch, found.Submitted host patch ∧ (found.call.directoryName, patch) ∈ updates

def WriteSound (host : SettingsHost) (updates : Updates) (found : SettingsRun)
    (stateFile : PluginSettingsStateFile) : AfterWrite → Prop
  | .result _ => Keeps host updates stateFile
  | .confirm patch => Keeps host ((found.call.directoryName, patch) :: updates) stateFile

def AfterSound (host : SettingsHost) (found : SettingsRun) : AfterWrite → Prop
  | .result result => found.IsRead ∧ Shows host found.call.directoryName found.known result
  | .confirm patch => found.Submitted host patch

@[grind =]
def PhaseSound (host : SettingsHost) (writes : Nat) (updates : Updates) (found : SettingsRun) :
    Prop :=
  match found.phase with
  | .encrypting patch => found.Submitted host patch
  | .reading none => found.IsRead
  | .reading (some (patch, _)) => found.Submitted host patch
  | .materializing stateFile =>
    found.IsRead ∧ Keeps host found.known stateFile ∧
      (found.seen = writes → found.known = updates)
  | .opening stateFile after =>
    AfterSound host found after ∧
      (found.seen = writes → WriteSound host updates found stateFile after)
  | .writing stateFile after =>
    AfterSound host found after ∧
      (found.seen = writes → WriteSound host updates found stateFile after)
  | .confirming _ => found.Written host updates
  | .returned result =>
    Shows host found.call.directoryName found.known result ∧
      (found.IsRead ∨ found.Written host updates)
  | .threw => True

structure RunSound (host : SettingsHost) (writes : Nat) (updates : Updates)
    (found : SettingsRun) : Prop where
  bound : found.seen ≤ writes
  phase : PhaseSound host writes updates found

structure SettingsSound (host : SettingsHost) (system : SettingsSystem) : Prop where
  file : ∀ stateFile, readPluginSettingsStateFile host system.file = some stateFile →
    Keeps host system.updates stateFile
  runs : ∀ found ∈ system.runs, RunSound host system.writes system.updates found

theorem SettingsRun.Written.mono {after : Updates} (written : found.Written host updates)
    (grows : updates ⊆ after) : found.Written host after := by
  obtain ⟨patch, submitted, member⟩ := written
  exact ⟨patch, submitted, grows member⟩

theorem RunSound.later {later : Nat} {after : Updates}
    (sound : RunSound host writes updates found) (isLater : writes < later)
    (grows : updates ⊆ after) : RunSound host later after found := by
  have bound := sound.bound
  have stale : ¬found.seen = later := by omega
  refine ⟨by omega, ?_⟩
  have phase := sound.phase
  unfold PhaseSound at phase ⊢
  split at phase
  · exact phase
  · exact phase
  · exact phase
  · exact ⟨phase.1, phase.2.1, fun current => absurd current stale⟩
  · exact ⟨phase.1, fun current => absurd current stale⟩
  · exact ⟨phase.1, fun current => absurd current stale⟩
  · exact phase.mono grows
  · exact ⟨phase.1, phase.2.imp_right fun written => written.mono grows⟩
  · exact phase

theorem SettingsSound.changeRun {file : SettingsFile} {later : Nat} {after : Updates}
    {update : SettingsRun → SettingsRun} (sound : SettingsSound host system)
    (isFile : ∀ stateFile, readPluginSettingsStateFile host file = some stateFile →
      Keeps host after stateFile)
    (isLater : later = system.writes ∧ after = system.updates ∨
      system.writes < later ∧ system.updates ⊆ after)
    (running : system.runs[run]? = some found)
    (isSound : RunSound host later after (update found)) :
    SettingsSound host
      { file, runs := system.runs.modify run update, writes := later, updates := after } := by
  refine ⟨isFile, ?_⟩
  intro other member
  obtain ⟨index, isOther⟩ := List.mem_iff_getElem?.mp member
  rw [List.getElem?_modify] at isOther
  obtain ⟨before, isBefore, rfl⟩ := Option.map_eq_some_iff.mp isOther
  by_cases own : run = index
  · subst own
    obtain rfl := Option.some.inj (running.symm.trans isBefore)
    rwa [if_pos rfl]
  · rw [if_neg own]
    have there := sound.runs before (List.mem_of_getElem? isBefore)
    rcases isLater with ⟨rfl, rfl⟩ | ⟨isLater, grows⟩
    · exact there
    · exact there.later isLater grows

theorem SettingsSound.setPhase {phase : SettingsPhase} (sound : SettingsSound host system)
    (running : system.runs[run]? = some found)
    (isSound : PhaseSound host system.writes system.updates { found with phase }) :
    SettingsSound host (system.setPhase run phase) :=
  sound.changeRun sound.file (Or.inl ⟨rfl, rfl⟩) running
    ⟨(sound.runs found (List.mem_of_getElem? running)).bound, isSound⟩

theorem settingsSound_call (sound : SettingsSound host system) (operation : OperationCall) :
    SettingsSound host (system.call host operation) := by
  refine ⟨sound.file, ?_⟩
  intro found member
  rcases List.mem_append.mp member with earlier | isNew
  · exact sound.runs found earlier
  · obtain rfl := List.mem_singleton.mp isNew
    refine ⟨le_refl _, ?_⟩
    cases kind : operation.kind with
    | snapshot readableSecrets => simp [PhaseSound, SettingsRun.IsRead, kind]
    | runtime => simp [PhaseSound, SettingsRun.IsRead, kind]
    | update given =>
      cases accepted : normalizeSettingPatch host operation.directoryName given with
      | error error => simp only [PhaseSound, accepted]
      | ok patch =>
        simp only [PhaseSound, accepted]
        exact ⟨given, kind, accepted⟩

theorem settingsSound_read {update : Option (SettingPatch × (Text → Nat))}
    (sound : SettingsSound host system) (running : system.runs[run]? = some found)
    (isPhase : found.phase = .reading update) :
    SettingsSound host (system.read host run found.call update) := by
  rw [SettingsSystem.read]
  split
  · exact sound.setPhase running trivial
  · rename_i stateFile isRead
    have keeps := sound.file stateFile isRead
    refine sound.changeRun sound.file (Or.inl ⟨rfl, rfl⟩) running ⟨le_refl _, ?_⟩
    have phase := (sound.runs found (List.mem_of_getElem? running)).phase
    cases update with
    | none =>
      simp only [PhaseSound, isPhase] at phase
      exact ⟨phase, keeps, fun _ => rfl⟩
    | some update =>
      obtain ⟨patch, nonces⟩ := update
      simp only [PhaseSound, isPhase] at phase
      have submitted := phase
      obtain ⟨given, _, accepted⟩ := phase
      exact ⟨submitted, fun _ =>
        keeps_updateSettings _ keeps (normalizeSettingPatch_sound accepted)⟩

theorem settingsSound_materialize {stateFile : PluginSettingsStateFile} {nonces : Text → Nat}
    (sound : SettingsSound host system) (running : system.runs[run]? = some found)
    (isPhase : found.phase = .materializing stateFile) :
    SettingsSound host (system.materialize host run found.call stateFile nonces) := by
  have phase := (sound.runs found (List.mem_of_getElem? running)).phase
  simp only [PhaseSound, isPhase] at phase
  obtain ⟨isRead, keeps, current⟩ := phase
  rw [SettingsSystem.materialize]
  split
  · exact sound.setPhase running trivial
  · rename_i reading isReading
    obtain ⟨written, values⟩ := readSettings_keeps keeps isReading
    have shows : Shows host found.call.directoryName found.known
        (readResult host found.call stateFile reading.values) :=
      readResult_shows (fun key value isPatched => (keeps _ key value isPatched).1) values
    dsimp only
    split
    · exact sound.setPhase running ⟨shows, Or.inl isRead⟩
    · rename_i toWrite isWritten
      refine sound.setPhase running ⟨⟨isRead, shows⟩, ?_⟩
      intro isCurrent
      exact current isCurrent ▸ written toWrite isWritten

theorem settingsSound_openFile {stateFile : PluginSettingsStateFile} {after : AfterWrite}
    (sound : SettingsSound host system) (running : system.runs[run]? = some found)
    (isPhase : found.phase = .opening stateFile after) (isCurrent : found.seen = system.writes) :
    SettingsSound host (system.openFile run stateFile after) := by
  have phase := (sound.runs found (List.mem_of_getElem? running)).phase
  simp only [PhaseSound, isPhase] at phase
  refine sound.changeRun nofun (Or.inr ⟨Nat.lt_succ_self _, List.Subset.refl _⟩) running
    ⟨le_refl _, ?_⟩
  refine ⟨?_, fun _ => ?_⟩
  · cases after with
    | result result => exact phase.1
    | confirm patch => exact phase.1
  · cases after with
    | result result => exact phase.2 isCurrent
    | confirm patch => exact phase.2 isCurrent

theorem settingsSound_write {stateFile : PluginSettingsStateFile} {after : AfterWrite}
    (sound : SettingsSound host system) (running : system.runs[run]? = some found)
    (isPhase : found.phase = .writing stateFile after) (isCurrent : found.seen = system.writes) :
    SettingsSound host (system.write run found.call stateFile after) := by
  have there := sound.runs found (List.mem_of_getElem? running)
  have phase := there.phase
  have bound := there.bound
  simp only [PhaseSound, isPhase] at phase
  cases after with
  | result result =>
    refine sound.changeRun ?_ (Or.inr ⟨Nat.lt_succ_self _, List.Subset.refl _⟩) running
      ⟨?_, phase.1.2, Or.inl phase.1.1⟩
    · intro read isRead
      exact keeps_serialized (phase.2 isCurrent) isRead
    · exact Nat.le_succ_of_le bound
  | confirm patch =>
    refine sound.changeRun ?_ (Or.inr ⟨Nat.lt_succ_self _, List.subset_cons_self _ _⟩) running
      ⟨?_, patch, phase.1, List.mem_cons_self⟩
    · intro read isRead
      exact keeps_serialized (phase.2 isCurrent) isRead
    · exact Nat.le_succ_of_le bound

theorem settingsSound_confirm {stateFile : PluginSettingsStateFile} {nonces : Text → Nat}
    (sound : SettingsSound host system) (running : system.runs[run]? = some found)
    (isPhase : found.phase = .confirming stateFile) :
    SettingsSound host (system.confirm host run found.call stateFile nonces) := by
  have phase := (sound.runs found (List.mem_of_getElem? running)).phase
  simp only [PhaseSound, isPhase] at phase
  have written := phase
  obtain ⟨patch, ⟨given, isUpdate, accepted⟩, member⟩ := phase
  rw [SettingsSystem.confirm]
  split
  · exact sound.setPhase running trivial
  · refine sound.setPhase running ⟨?_, Or.inr written⟩
    simp only [readResult, isUpdate]
    exact trivial

theorem settingsSound_resume {event : SettingsEvent} (sound : SettingsSound host system)
    (current : upToDate system event = true) (isRun : event.run? = some run)
    (running : system.runs[run]? = some found)
    (resumed : resumeRun host system run found.call found.phase event = some next) :
    SettingsSound host next := by
  have phase := (sound.runs found (List.mem_of_getElem? running)).phase
  unfold resumeRun at resumed
  split at resumed
  · rename_i patch other nonces isPhase
    obtain rfl := Option.some.inj resumed
    simp only [PhaseSound, isPhase] at phase
    exact sound.setPhase running phase
  · rename_i update other isPhase
    obtain rfl := Option.some.inj resumed
    exact settingsSound_read sound running isPhase
  · rename_i stateFile other nonces isPhase
    obtain rfl := Option.some.inj resumed
    exact settingsSound_materialize sound running isPhase
  · rename_i stateFile after other isPhase
    obtain rfl := Option.some.inj resumed
    obtain rfl := Option.some.inj isRun
    simp only [upToDate, running, Option.all_some, decide_eq_true_eq] at current
    exact settingsSound_openFile sound running isPhase current
  · rename_i stateFile after other isPhase
    obtain rfl := Option.some.inj resumed
    obtain rfl := Option.some.inj isRun
    simp only [upToDate, running, Option.all_some, decide_eq_true_eq] at current
    exact settingsSound_write sound running isPhase current
  · rename_i stateFile other nonces isPhase
    obtain rfl := Option.some.inj resumed
    exact settingsSound_confirm sound running isPhase
  · exact absurd resumed (by simp)
  · exact absurd resumed (by simp)
  · obtain rfl := Option.some.inj resumed
    exact sound.setPhase running trivial
  · exact absurd resumed (by simp)

theorem settingsSound_step {event : SettingsEvent} (sound : SettingsSound host system)
    (current : upToDate system event = true)
    (stepped : settingsStep host system event = some next) : SettingsSound host next := by
  unfold settingsStep at stepped
  split at stepped
  · obtain rfl := Option.some.inj stepped
    exact settingsSound_call sound _
  · obtain ⟨run, isRun, stepped⟩ := Option.bind_eq_some_iff.mp stepped
    obtain ⟨found, running, resumed⟩ := Option.bind_eq_some_iff.mp stepped
    exact settingsSound_resume sound current isRun running resumed

structure Follows (middle system : SettingsSystem) : Prop where
  updates : middle.updates <:+ system.updates
  later : ∀ index found, middle.runs.length ≤ index → system.runs[index]? = some found →
    middle.updates <:+ found.known

theorem Follows.changeRun {middle : SettingsSystem} {file : SettingsFile} {after : Updates}
    {update : SettingsRun → SettingsRun} (follows : Follows middle system)
    (grows : system.updates <:+ after)
    (known : ∀ found, (update found).known = found.known ∨
      (update found).known = system.updates) :
    Follows middle { file, runs := system.runs.modify run update, writes, updates := after } := by
  refine ⟨follows.updates.trans grows, ?_⟩
  intro index found isLater isFound
  rw [List.getElem?_modify] at isFound
  obtain ⟨before, isBefore, rfl⟩ := Option.map_eq_some_iff.mp isFound
  have there := follows.later index before isLater isBefore
  split
  · rcases known before with same | isNew
    · exact same ▸ there
    · exact isNew ▸ follows.updates
  · exact there

theorem follows_resume {middle : SettingsSystem} {event : SettingsEvent} {call : OperationCall}
    {phase : SettingsPhase} (follows : Follows middle system)
    (resumed : resumeRun host system run call phase event = some next) :
    Follows middle next := by
  have setPhase : ∀ phase, Follows middle (system.setPhase run phase) := fun phase =>
    follows.changeRun (List.suffix_refl _) fun _ => Or.inl rfl
  unfold resumeRun at resumed
  split at resumed
  · obtain rfl := Option.some.inj resumed
    exact setPhase _
  · obtain rfl := Option.some.inj resumed
    rw [SettingsSystem.read]
    split
    · exact setPhase _
    · exact follows.changeRun (List.suffix_refl _) fun _ => Or.inr rfl
  · obtain rfl := Option.some.inj resumed
    rw [SettingsSystem.materialize]
    split
    · exact setPhase _
    · dsimp only
      split
      · exact setPhase _
      · exact setPhase _
  · obtain rfl := Option.some.inj resumed
    exact follows.changeRun (List.suffix_refl _) fun _ => Or.inl rfl
  · rename_i after _
    obtain rfl := Option.some.inj resumed
    cases after with
    | result result => exact follows.changeRun (List.suffix_refl _) fun _ => Or.inl rfl
    | confirm patch => exact follows.changeRun (List.suffix_cons _ _) fun _ => Or.inl rfl
  · obtain rfl := Option.some.inj resumed
    rw [SettingsSystem.confirm]
    split
    · exact setPhase _
    · exact setPhase _
  · exact absurd resumed (by simp)
  · exact absurd resumed (by simp)
  · obtain rfl := Option.some.inj resumed
    exact setPhase _
  · exact absurd resumed (by simp)

theorem follows_step {middle : SettingsSystem} {event : SettingsEvent}
    (follows : Follows middle system) (stepped : settingsStep host system event = some next) :
    Follows middle next := by
  unfold settingsStep at stepped
  split at stepped
  · obtain rfl := Option.some.inj stepped
    refine ⟨follows.updates, ?_⟩
    intro index found isLater isFound
    rw [SettingsSystem.call, List.getElem?_append] at isFound
    split at isFound
    · exact follows.later index found isLater isFound
    · obtain rfl := List.mem_singleton.mp (List.mem_of_getElem? isFound)
      exact follows.updates
  · obtain ⟨run, _, stepped⟩ := Option.bind_eq_some_iff.mp stepped
    obtain ⟨found, _, resumed⟩ := Option.bind_eq_some_iff.mp stepped
    exact follows_resume follows resumed

def valueTag : PluginSettingValue → Char
  | .number _ => 'n'
  | .boolean true => 'y'
  | .boolean false => 'f'
  | _ => 't'

def valueText : PluginSettingValue → Text
  | .text text => text
  | .number text => text
  | _ => []

def taggedValue (tag : Char) (text : Text) : PluginSettingValue :=
  if tag = 'n' then .number text
  else if tag = 'y' then .boolean true
  else if tag = 'f' then .boolean false
  else .text text

def openLabelled (additionalData : Text) : Text → Decryption
  | [] => .otherError
  | tag :: rest =>
    if additionalData.isPrefixOf rest then
      match rest.drop additionalData.length with
      | ';' :: text => .opened (taggedValue tag text)
      | _ => .accessError
    else .accessError

def labelledCodec : SecretCodec where
  encrypt := fun additionalData value _ =>
    valueTag value :: (additionalData ++ ';' :: valueText value)
  decrypt := openLabelled
  encrypt_ne_nil := by simp
  decrypt_encrypt := by
    intro additionalData value nonce scalar
    have opened : openLabelled additionalData
        (valueTag value :: (additionalData ++ ';' :: valueText value)) =
          .opened (taggedValue (valueTag value) (valueText value)) := by
      simp [openLabelled]
    rw [opened]
    cases value with
    | null => simp [PluginSettingValue.scalar] at scalar
    | text text => rfl
    | number text => rfl
    | boolean flag => cases flag <;> rfl
    | list items => simp [PluginSettingValue.scalar] at scalar

def folderSetting : Declaration where
  key := some "folder".toList
  kind := .string
  options := []
  itemKind := none
  hasDefault := false
  defaultValue := .null
  required := false

def notesHost : SettingsHost where
  codec := labelledCodec
  declarations := fun _ => [folderSetting]
  isValidUrl := fun _ => false
  positiveInteger := fun _ => none

def emptyRecord : RawSettingsRecord := .current none .empty

def notesFile : SettingsFile :=
  .plugins ((OrderedMap.empty.set "notes".toList emptyRecord).set "tasks".toList emptyRecord)

def noNonces (_ : Text) : Nat := 0

def folderPatch : SettingPatch := OrderedMap.empty.set "folder".toList (.text "inbox".toList)

def updateCall : OperationCall where
  kind := .update (some (OrderedMap.empty.set "folder".toList (some (.text "inbox".toList))))
  directoryName := "notes".toList
  pluginId := none

def runtimeCall (directoryName : String) : OperationCall where
  kind := .runtime
  directoryName := directoryName.toList
  pluginId := none

def updateEvents (run : Nat) : List SettingsEvent :=
  [.call updateCall, .encrypted run noNonces, .read run, .opened run, .written run,
    .materialized run noNonces]

def runtimeEvents (run : Nat) (directoryName : String) : List SettingsEvent :=
  [.call (runtimeCall directoryName), .read run, .materialized run noNonces, .opened run,
    .written run]

@[grind =] def SettingsPhase.result : SettingsPhase → Option SettingsResult
  | .returned result => some result
  | _ => none

theorem SettingsPhase.eq_returned {phase : SettingsPhase} {result : SettingsResult}
    (isResult : phase.result = some result) : phase = .returned result := by
  cases phase with
  | returned returned => exact congrArg SettingsPhase.returned (Option.some.inj isResult)
  | _ => exact absurd isResult (by simp [SettingsPhase.result])

def SettingsResult.runtimeValue (key : Text) : SettingsResult → Option PluginSettingValue
  | .runtime settings => settings.values.get? key
  | _ => none

def everyStep (_ : SettingsSystem) (_ : SettingsEvent) : Bool := true

end Metidos.Settings
