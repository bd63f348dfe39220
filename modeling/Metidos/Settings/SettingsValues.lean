import Mathlib.Data.Char
import Mathlib.Data.List.Lex
import Metidos.Library.JsText
import Metidos.Library.OrderedMap

/-!
The values of `src/bun/plugin/settings.ts`: how a settings file is normalised and serialised,
how a patch is checked and applied, and how stored secrets are read and migrated.  The file is
modelled as the value of its JSON text; encryption, URL parsing, `Number` of a bucket name and the
declarations of the plugins belong to the host.
-/

namespace Metidos.Settings

open JsText

abbrev Text := List Char

/-- An item of a list; a number is its JSON text. -/
inductive ListItem
  | text (text : Text)
  | number (text : Text)
  deriving DecidableEq

inductive PluginSettingValue
  | null
  | text (text : Text)
  | number (text : Text)
  | boolean (value : Bool)
  | list (items : List ListItem)
  deriving DecidableEq

/-- Of an encrypted value only the ciphertext is ever read. -/
inductive StoredPluginSettingValue
  | setting (value : PluginSettingValue)
  | encrypted (ciphertext : Text)
  deriving DecidableEq

/-- A value of the JSON text; `other` is neither a setting nor an encrypted value. -/
inductive RawSettingValue
  | setting (value : PluginSettingValue)
  | encrypted (ciphertext : Text)
  | other
  deriving DecidableEq

abbrev RawBucket := OrderedMap Text RawSettingValue

/-- A record of the JSON text: with an object of `values`, or in the shape of earlier versions, or
no object.  A bucket of another type is empty. -/
inductive RawSettingsRecord
  | current (pluginId : Option Text) (values : RawBucket)
  | legacy (pluginId : Option Text) (globals locals : RawBucket)
      (users legacyUsers : OrderedMap Text RawBucket)
  | other
  deriving DecidableEq

/-- An empty map stands for absent `legacySecretUserIds`. -/
structure StoredPluginSettingsRecord where
  pluginId : Option Text
  values : OrderedMap Text StoredPluginSettingValue
  legacySecretUserIds : OrderedMap Text Nat
  deriving DecidableEq

inductive SettingsFile
  | missing
  | malformed
  | otherValue
  | plugins (plugins : OrderedMap Text RawSettingsRecord)
  deriving DecidableEq

structure PluginSettingsStateFile where
  plugins : OrderedMap Text StoredPluginSettingsRecord
  deriving DecidableEq

inductive SettingKind
  | string
  | number
  | boolean
  | enum
  | secret
  | url
  | date
  | list
  deriving DecidableEq

structure Declaration where
  key : Option Text
  kind : SettingKind
  options : List Text
  itemKind : Option Text
  hasDefault : Bool
  defaultValue : PluginSettingValue
  required : Bool
  deriving DecidableEq

/-- What `decryptWithAdditionalData` comes to: a value, an `AuthSecretAccessError`, a plaintext
that is no JSON, or another error. -/
inductive Decryption
  | opened (value : PluginSettingValue)
  | accessError
  | syntaxError
  | otherError
  deriving DecidableEq

def PluginSettingValue.scalar : PluginSettingValue → Bool
  | .null => false
  | .list _ => false
  | _ => true

/-- Encryption and decryption of the JSON text of a value with a key that does not change: what
was encrypted under additional data is opened under the same. -/
structure SecretCodec where
  encrypt : Text → PluginSettingValue → Nat → Text
  decrypt : Text → Text → Decryption
  encrypt_ne_nil : ∀ additionalData value nonce, encrypt additionalData value nonce ≠ []
  decrypt_encrypt : ∀ additionalData value nonce, value.scalar = true →
    decrypt additionalData (encrypt additionalData value nonce) = .opened value

structure SettingsHost where
  codec : SecretCodec
  declarations : Text → List Declaration
  isValidUrl : Text → Bool
  /-- `Number` of a text where that is a positive integer. -/
  positiveInteger : Text → Option Nat

def storedValue : RawSettingValue → Option StoredPluginSettingValue
  | .setting value => some (.setting value)
  | .encrypted ciphertext => if ciphertext = [] then none else some (.encrypted ciphertext)
  | .other => none

def normalizeStoredValues (bucket : RawBucket) : OrderedMap Text StoredPluginSettingValue :=
  bucket.filterMapValues fun _ => storedValue

def normalizeLegacyUsers (users : OrderedMap Text RawBucket) :
    OrderedMap Text (OrderedMap Text StoredPluginSettingValue) :=
  users.filterMapValues fun _ bucket => some (normalizeStoredValues bucket)

def sortedLegacyUserEntries (host : SettingsHost)
    (users : OrderedMap Text (OrderedMap Text StoredPluginSettingValue)) :
    List (Nat × OrderedMap Text StoredPluginSettingValue) :=
  (users.entries.filterMap fun entry =>
    (host.positiveInteger entry.1).map fun userId => (userId, entry.2)).mergeSort
      fun left right => left.1 ≤ right.1

abbrev LegacyValues := OrderedMap Text StoredPluginSettingValue × OrderedMap Text Nat

def addLegacyValue (legacyUserId : Nat) (collected : LegacyValues)
    (entry : Text × StoredPluginSettingValue) : LegacyValues :=
  if collected.1.has entry.1 then collected
  else
    (collected.1.set entry.1 entry.2,
      match entry.2 with
      | .encrypted _ => collected.2.set entry.1 legacyUserId
      | .setting _ => collected.2)

def addLegacyUser (collected : LegacyValues)
    (user : Nat × OrderedMap Text StoredPluginSettingValue) : LegacyValues :=
  user.2.entries.foldl (addLegacyValue user.1) collected

def normalizeLegacyStoredRecord (host : SettingsHost) (pluginId : Option Text)
    (globals locals : RawBucket) (users legacyUsers : OrderedMap Text RawBucket) :
    StoredPluginSettingsRecord :=
  let values := (normalizeStoredValues globals).merge (normalizeStoredValues locals)
  let users := (normalizeLegacyUsers users).merge (normalizeLegacyUsers legacyUsers)
  let collected := (sortedLegacyUserEntries host users).foldl addLegacyUser (values, .empty)
  { pluginId, values := collected.1, legacySecretUserIds := collected.2 }

def normalizeStoredRecord (host : SettingsHost) :
    RawSettingsRecord → Option StoredPluginSettingsRecord
  | .current pluginId values =>
    some
      { pluginId
        values := normalizeStoredValues values
        legacySecretUserIds := .empty }
  | .legacy pluginId globals locals users legacyUsers =>
    some (normalizeLegacyStoredRecord host pluginId globals locals users legacyUsers)
  | .other => none

def readPluginSettingsStateFile (host : SettingsHost) :
    SettingsFile → Option PluginSettingsStateFile
  | .missing => some { plugins := .empty }
  | .malformed => none
  | .otherValue => some { plugins := .empty }
  | .plugins plugins =>
    some { plugins := plugins.filterMapValues fun _ => normalizeStoredRecord host }

def StoredPluginSettingValue.raw : StoredPluginSettingValue → RawSettingValue
  | .setting value => .setting value
  | .encrypted ciphertext => .encrypted ciphertext

def StoredPluginSettingsRecord.serialized (record : StoredPluginSettingsRecord) :
    RawSettingsRecord :=
  .current record.pluginId (record.values.filterMapValues fun _ value => some value.raw)

def serializePluginSettingsStateFile (stateFile : PluginSettingsStateFile) : SettingsFile :=
  .plugins (stateFile.plugins.filterMapValues fun _ record => some record.serialized)

def declarationFor (declarations : List Declaration) (key : Text) : Option Declaration :=
  if key = [] then none
  else (declarations.filter fun declaration => declaration.key = some key).getLast?

def isSecret (host : SettingsHost) (directoryName key : Text) : Bool :=
  (declarationFor (host.declarations directoryName) key).any fun declaration =>
    declaration.kind = .secret

def isDateText (text : Text) : Bool :=
  text.length = 10 && (text.zipIdx.all fun entry =>
    if entry.2 = 4 ∨ entry.2 = 7 then entry.1 = '-' else entry.1.isDigit)

/-- The pattern `^[^\s@]+@[^\s@]+\.[^\s@]+$`. -/
def isEmailText (text : Text) : Bool :=
  text.all (fun char => !isWhiteSpace char) &&
    match text.splitOn '@' with
    | [user, domain] => user ≠ [] && ((domain.drop 1).dropLast.contains '.')
    | _ => false

def isValidListItem (host : SettingsHost) (kind : Option Text) : ListItem → Bool
  | .text text =>
    if kind = some "email".toList then isEmailText text
    else if kind = some "number".toList then false
    else if kind = some "url".toList then host.isValidUrl text
    else true
  | .number _ => kind = some "number".toList

def matchesDeclaration (host : SettingsHost) (declaration : Declaration) :
    PluginSettingValue → Bool
  | .null => true
  | value =>
    match declaration.kind, value with
    | .string, .text _ => true
    | .number, .number _ => true
    | .boolean, .boolean _ => true
    | .enum, .text text => declaration.options = [] || declaration.options.contains text
    | .secret, .text _ => true
    | .secret, .number _ => true
    | .secret, .boolean _ => true
    | .url, .text text => host.isValidUrl text
    | .date, .text text => isDateText text
    | .list, .list items => items.all (isValidListItem host declaration.itemKind)
    | _, _ => false

def SettingKind.name : SettingKind → String
  | .string => "string"
  | .number => "number"
  | .boolean => "boolean"
  | .enum => "enum"
  | .secret => "secret"
  | .url => "url"
  | .date => "date"
  | .list => "list"

structure PluginSettingsError where
  code : String
  message : Text
  deriving DecidableEq

/-- What the loop of `normalizeSettingPatch` throws at an entry; a value of another type is
`none`. -/
def patchEntryError (host : SettingsHost) (directoryName key : Text) :
    Option PluginSettingValue → Option PluginSettingsError
  | value =>
    match declarationFor (host.declarations directoryName) key with
    | none =>
      some
        { code := "invalid_setting_key"
          message := "Plugin setting ".toList ++ key ++ " is not declared.".toList }
    | some declaration =>
      match value with
      | none =>
        some
          { code := "invalid_setting_value"
            message := "Plugin setting ".toList ++ key ++
              " has an unsupported value type.".toList }
      | some value =>
        if matchesDeclaration host declaration value then none
        else
          some
            { code := "invalid_setting_value"
              message := "Plugin setting ".toList ++ key ++
                " does not match declared ".toList ++ declaration.kind.name.toList ++
                " type.".toList }

abbrev SettingPatch := OrderedMap Text PluginSettingValue

/-- A patch that is no object is `none`. -/
def normalizeSettingPatch (host : SettingsHost) (directoryName : Text) :
    Option (OrderedMap Text (Option PluginSettingValue)) →
      Except PluginSettingsError SettingPatch
  | none =>
    .error
      { code := "invalid_settings_patch"
        message := "Plugin settings patch must be an object.".toList }
  | some patch =>
    match patch.entries.findSome? fun entry =>
        patchEntryError host directoryName entry.1 entry.2 with
    | some error => .error error
    | none => .ok (patch.filterMapValues fun _ value => value)

def pluginSecretAdditionalData (directoryName key : Text) : Text :=
  "metidos.plugin-setting:".toList ++ directoryName ++ ":".toList ++ key

def legacySecretAdditionalDataCandidates (directoryName key : Text) (legacyUserId : Option Nat) :
    List Text :=
  ["metidos.plugin-setting:".toList ++ directoryName ++ ":local:".toList ++ key ++
      ":local-operator".toList,
    "metidos.plugin-setting:".toList ++ directoryName ++ ":global:".toList ++ key] ++
    (legacyUserId.map fun userId => pluginSecretAdditionalData directoryName key ++
      ":user:".toList ++ stringOfNumber userId).toList

def encryptStoredSecretValue (host : SettingsHost) (directoryName key : Text) (nonce : Nat)
    (value : PluginSettingValue) : StoredPluginSettingValue :=
  if value.scalar then
    .encrypted (host.codec.encrypt (pluginSecretAdditionalData directoryName key) value nonce)
  else .setting value

structure DecryptedSecret where
  migrated : Bool
  value : PluginSettingValue
  deriving DecidableEq

/-- The loop over the additional data; `none` throws, and the last failure is a warning. -/
def tryAdditionalData (host : SettingsHost) (ciphertext : Text) :
    List Text → Option DecryptedSecret
  | [] => some { migrated := false, value := .null }
  | additionalData :: rest =>
    match host.codec.decrypt additionalData ciphertext with
    | .opened value => some { migrated := true, value }
    | .accessError => tryAdditionalData host ciphertext rest
    | .syntaxError => some { migrated := false, value := .null }
    | .otherError => none

def decryptStoredSecretValue (host : SettingsHost) (directoryName key : Text)
    (legacyUserId : Option Nat) : StoredPluginSettingValue → Option DecryptedSecret
  | .setting value => some { migrated := true, value }
  | .encrypted ciphertext =>
    match host.codec.decrypt (pluginSecretAdditionalData directoryName key) ciphertext with
    | .opened value => some { migrated := false, value }
    | .accessError =>
      tryAdditionalData host ciphertext
        (legacySecretAdditionalDataCandidates directoryName key legacyUserId)
    | .syntaxError => some { migrated := false, value := .null }
    | .otherError => none

structure MaterializedEntry where
  value : Option PluginSettingValue
  migrated : Bool
  stored : StoredPluginSettingValue
  deriving DecidableEq

def materializeEntry (host : SettingsHost) (directoryName key : Text)
    (legacyUserId : Option Nat) (nonce : Nat) (stored : StoredPluginSettingValue) :
    Option MaterializedEntry :=
  if isSecret host directoryName key then
    (decryptStoredSecretValue host directoryName key legacyUserId stored).map fun decrypted =>
      { value := some decrypted.value
        migrated := decrypted.migrated
        stored :=
          if decrypted.migrated then
            encryptStoredSecretValue host directoryName key nonce decrypted.value
          else stored }
  else
    match stored with
    | .setting value => some { value := some value, migrated := false, stored }
    | .encrypted _ => some { value := none, migrated := false, stored }

structure MaterializedStoredValues where
  migrated : Bool
  values : OrderedMap Text PluginSettingValue
  record : StoredPluginSettingsRecord
  deriving DecidableEq

def materializeStoredValues (host : SettingsHost) (directoryName : Text) (nonces : Text → Nat)
    (record : StoredPluginSettingsRecord) : Option MaterializedStoredValues :=
  let materialize := fun key stored => materializeEntry host directoryName key
    (record.legacySecretUserIds.get? key) (nonces key) stored
  if record.values.entries.any fun entry => (materialize entry.1 entry.2).isNone then none
  else
    some
      { migrated := record.legacySecretUserIds ≠ .empty ||
          record.values.entries.any fun entry =>
            (materialize entry.1 entry.2).any MaterializedEntry.migrated
        values := record.values.filterMapValues fun key stored =>
          (materialize key stored).bind MaterializedEntry.value
        record :=
          { record with
            values := record.values.filterMapValues fun key stored =>
              (materialize key stored).map MaterializedEntry.stored
            legacySecretUserIds := .empty } }

/-- `readPluginSettingsSnapshot` writes after a migration, `readPluginSettingsForRuntime` whenever
there is a record. -/
inductive ReadKind
  | snapshot
  | runtime
  deriving DecidableEq

structure SettingsReading where
  values : OrderedMap Text PluginSettingValue
  written : Option PluginSettingsStateFile
  deriving DecidableEq

def readSettings (host : SettingsHost) (kind : ReadKind) (directoryName : Text)
    (nonces : Text → Nat) (stateFile : PluginSettingsStateFile) : Option SettingsReading :=
  match stateFile.plugins.get? directoryName with
  | none => some { values := .empty, written := none }
  | some record =>
    (materializeStoredValues host directoryName nonces record).map fun materialized =>
      { values := materialized.values
        written :=
          if materialized.migrated || kind = .runtime then
            some { plugins := stateFile.plugins.set directoryName materialized.record }
          else none }

def encryptSecretSettingsInPatch (host : SettingsHost) (directoryName : Text)
    (nonces : Text → Nat) (normalizedPatch : SettingPatch) :
    OrderedMap Text StoredPluginSettingValue :=
  normalizedPatch.filterMapValues fun key value =>
    some (if isSecret host directoryName key then
        encryptStoredSecretValue host directoryName key (nonces key) value
      else .setting value)

def applySettingsPatchToStoredValues (host : SettingsHost) (directoryName : Text)
    (normalizedPatch : SettingPatch)
    (encryptedPatch storedValues : OrderedMap Text StoredPluginSettingValue) :
    OrderedMap Text StoredPluginSettingValue :=
  encryptedPatch.entries.foldl (fun stored entry =>
    if isSecret host directoryName entry.1 && normalizedPatch.get? entry.1 = some .null then
      stored.delete entry.1
    else stored.set entry.1 entry.2) storedValues

def ensurePluginSettingsRecord (pluginId : Option Text)
    (existing : Option StoredPluginSettingsRecord) : StoredPluginSettingsRecord :=
  match existing with
  | some existing => { existing with pluginId }
  | none => { pluginId, values := .empty, legacySecretUserIds := .empty }

/-- The state file that `updatePluginSettings` writes. -/
def updateSettings (host : SettingsHost) (directoryName : Text) (pluginId : Option Text)
    (normalizedPatch : SettingPatch) (nonces : Text → Nat)
    (stateFile : PluginSettingsStateFile) : PluginSettingsStateFile :=
  let record := ensurePluginSettingsRecord pluginId (stateFile.plugins.get? directoryName)
  let encryptedPatch := encryptSecretSettingsInPatch host directoryName nonces normalizedPatch
  { plugins := stateFile.plugins.set directoryName
      { record with
        values := applySettingsPatchToStoredValues host directoryName normalizedPatch
          encryptedPatch record.values } }

structure RpcPluginSettingValueSummary where
  defaultValue : PluginSettingValue
  hasDefault : Bool
  hasStoredValue : Bool
  key : Option Text
  kind : SettingKind
  readable : Bool
  secret : Bool
  value : PluginSettingValue
  deriving DecidableEq

def storedSetting (storedValues : OrderedMap Text PluginSettingValue)
    (declaration : Declaration) : Option PluginSettingValue :=
  (declaration.key.filter (· ≠ [])).bind storedValues.get?

def settingSummary (readableSecrets : Bool) (storedValues : OrderedMap Text PluginSettingValue)
    (declaration : Declaration) : RpcPluginSettingValueSummary :=
  let secret := declaration.kind = .secret
  let readable := !secret || readableSecrets
  let stored := storedSetting storedValues declaration
  { defaultValue := if readable then declaration.defaultValue else .null
    hasDefault := declaration.hasDefault
    hasStoredValue := stored.isSome
    key := declaration.key
    kind := declaration.kind
    readable
    secret
    value := if readable then stored.getD declaration.defaultValue else .null }

def settingSummaries (declarations : List Declaration) (readableSecrets : Bool)
    (storedValues : OrderedMap Text PluginSettingValue) : List RpcPluginSettingValueSummary :=
  declarations.map (settingSummary readableSecrets storedValues)

structure PluginRuntimeSettings where
  missingRequiredKeys : List Text
  values : OrderedMap Text PluginSettingValue
  deriving DecidableEq

def runtimeEntries (declarations : List Declaration)
    (storedValues : OrderedMap Text PluginSettingValue) :
    List (Declaration × Text × PluginSettingValue) :=
  declarations.filterMap fun declaration =>
    (declaration.key.filter (· ≠ [])).map fun key =>
      (declaration, key, (storedValues.get? key).getD declaration.defaultValue)

def runtimeSettings (declarations : List Declaration)
    (storedValues : OrderedMap Text PluginSettingValue) : PluginRuntimeSettings :=
  let entries := runtimeEntries declarations storedValues
  { missingRequiredKeys :=
      ((entries.filter fun entry => entry.1.required && entry.2.2 = .null).map
        fun entry => entry.2.1).mergeSort fun left right => utf16 left ≤ utf16 right
    values := entries.foldl (fun values entry => values.set entry.2.1 entry.2.2) .empty }

end Metidos.Settings
