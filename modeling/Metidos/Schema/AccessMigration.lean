import Metidos.Library.JsonText
import Metidos.Library.OrderedMap
import Metidos.Library.SqlTables
import Metidos.Library.StatementScript

/-!
The projection of legacy access flags to permission ids: `resolveInputThreadPermissions` of
`src/bun/db.ts` with the parsing of plugin access groups of `src/bun/plugin/tool-access.ts`.
-/

namespace Metidos.Schema

open SqlTables (SqlValue)

abbrev Text := List Char

def isLowerLetter (char : Char) : Bool := 'a' ≤ char && char ≤ 'z'

def isIdentifierChar (char : Char) : Bool := isLowerLetter char || char.isDigit || char = '_'

/-- `[a-z][a-z0-9_]{1,63}`. -/
def isProviderId : Text → Bool
  | [] => false
  | first :: rest =>
    isLowerLetter first && rest.all isIdentifierChar && 1 ≤ rest.length && rest.length ≤ 63

/-- `[a-z][a-z0-9_-]{0,63}`. -/
def isAccessId : Text → Bool
  | [] => false
  | first :: rest =>
    isLowerLetter first && (rest.all fun char => isIdentifierChar char || char = '-') &&
      rest.length ≤ 63

def splitFirst (separator : Char) (text : Text) : Option (Text × Text) :=
  match text.dropWhile (· ≠ separator) with
  | [] => none
  | _ :: rest => some (text.takeWhile (· ≠ separator), rest)

/-- `STORED_THREAD_PERMISSION_PATTERN`. -/
def isStoredThreadPermission (text : Text) : Bool :=
  (splitFirst ':' text).any fun parts => isProviderId parts.1 && isAccessId parts.2

/-- `[a-z0-9_]*(?:[.-]?[a-z0-9_]+)*` behind the first letter; `afterMark` says that the character
before is a mark. -/
def isGroupTail (afterMark : Bool) : Text → Bool
  | [] => !afterMark
  | char :: rest =>
    if isIdentifierChar char then isGroupTail false rest
    else (char = '.' || char = '-') && !afterMark && isGroupTail true rest

def isGroupPart : Text → Bool
  | [] => false
  | first :: rest => isLowerLetter first && isGroupTail false rest

/-- `THREAD_PLUGIN_ACCESS_GROUP_KEY_PATTERN`. -/
def isPluginAccessGroupKey (text : Text) : Bool :=
  (splitFirst '/' text).any fun parts => isGroupPart parts.1 && isGroupPart parts.2

def isReservedPluginId (pluginId : Text) : Bool :=
  (JsText.trim pluginId).map Char.toLower = "metidos".toList

def textOfUnits (units : JsonText.Units) : Text := units.map fun unit => Char.ofNat unit.toNat

def threadPluginAccessGroupLimit : Nat := 100

section Sorting

variable (localeLe : Text → Text → Bool)

def normalizeGroup (normalized : OrderedSet Text) (item : JsonText.JsonValue) :
    Option (OrderedSet Text) :=
  match item with
  | .string units =>
    let key := JsText.trim (textOfUnits units)
    if key = [] then some normalized
    else if isPluginAccessGroupKey key &&
        !(splitFirst '/' key).any fun parts => isReservedPluginId parts.1 then
      some (normalized.add key)
    else none
  | _ => none

/-- `none` where the source throws. -/
def normalizeThreadPluginAccessGroups (value : JsonText.JsonValue) : Option (List Text) :=
  match value with
  | .null => some []
  | .array items =>
    if threadPluginAccessGroupLimit < items.length then none
    else
      (items.foldlM normalizeGroup OrderedSet.empty).map fun normalized =>
        normalized.elements.mergeSort localeLe
  | _ => none

def parseThreadPluginAccessGroups (value : SqlValue) : List Text :=
  match value with
  | .text text =>
    if JsText.trim text = [] then []
    else ((JsonText.parse text).bind (normalizeThreadPluginAccessGroups localeLe)).getD []
  | _ => []

def nativePermissionInputs : List (Text × Bool) :=
  [("web-search".toList, true), ("webserver".toList, false), ("github".toList, false),
    ("git".toList, false), ("sqlite".toList, false), ("lancedb".toList, false),
    ("memory".toList, false), ("agents".toList, false), ("calendar".toList, false),
    ("notifications".toList, false), ("threads".toList, true), ("crons".toList, true),
    ("unsafe".toList, false)]

def nativePermission (accessId : Text) : Text := "metidos:".toList ++ accessId

def defaultThreadPermissions : List Text :=
  ((nativePermissionInputs.filter Prod.snd).map fun input =>
    nativePermission input.1).mergeSort localeLe

def normalizeStoredThreadPermissions (value : List Text) : List Text :=
  (OrderedSet.ofList ((value.map JsText.trim).filter isStoredThreadPermission)).elements.mergeSort
    localeLe

def serializeStoredThreadPermissions (value : List Text) : Text :=
  '[' :: ([','].intercalate ((normalizeStoredThreadPermissions localeLe value).map
    JsText.jsonStringify) ++ [']'])

/-- The flags of a row; a column that is null gives no flag. -/
structure LegacyAccessInput where
  webSearchAccess : SqlValue
  webServerAccess : SqlValue
  githubAccess : SqlValue
  gitAccess : SqlValue
  sqliteAccess : SqlValue
  agentsAccess : SqlValue
  calendarAccess : SqlValue
  notificationsAccess : SqlValue
  metidosAccess : SqlValue
  threadsAccess : SqlValue
  cronsAccess : SqlValue
  unsafeMode : SqlValue
  pluginAccessGroups : List Text
  deriving DecidableEq

def legacyPluginAccessGroupToPermission (group : Text) : Option Text :=
  (splitFirst '/' group).bind fun parts =>
    if isProviderId parts.1 && isAccessId parts.2 then some (parts.1 ++ ':' :: parts.2) else none

def setNative (permissions : OrderedSet Text) (accessId : Text) (enabled : SqlValue) :
    OrderedSet Text :=
  if enabled = .integer 1 then permissions.add (nativePermission accessId)
  else if enabled = .integer 0 then permissions.delete (nativePermission accessId)
  else permissions

def orMetidosAccess (flag metidosAccess : SqlValue) : SqlValue :=
  if flag = .null then if metidosAccess = .integer 0 then .integer 0 else .integer 1 else flag

def resolveInputThreadPermissions (input : LegacyAccessInput) : List Text :=
  let permissions := OrderedSet.ofList (defaultThreadPermissions localeLe)
  let permissions := setNative permissions "web-search".toList input.webSearchAccess
  let permissions := setNative permissions "webserver".toList input.webServerAccess
  let permissions := setNative permissions "github".toList input.githubAccess
  let permissions := setNative permissions "git".toList input.gitAccess
  let permissions := setNative permissions "sqlite".toList input.sqliteAccess
  let permissions := setNative permissions "agents".toList input.agentsAccess
  let permissions := setNative permissions "calendar".toList input.calendarAccess
  let permissions := setNative permissions "notifications".toList input.notificationsAccess
  let permissions := setNative permissions "threads".toList
    (orMetidosAccess input.threadsAccess input.metidosAccess)
  let permissions := setNative permissions "crons".toList
    (orMetidosAccess input.cronsAccess input.metidosAccess)
  let permissions := setNative permissions "unsafe".toList input.unsafeMode
  let permissions := permissions.addAll
    (input.pluginAccessGroups.filterMap legacyPluginAccessGroupToPermission)
  normalizeStoredThreadPermissions localeLe permissions.elements

end Sorting

end Metidos.Schema

/-!
The statements of `migrateAppSchema` of `src/bun/app-schema-migration.ts` on the columns of
`threads` and `cron_jobs`, with the permission backfills of `src/bun/db.ts`.
-/

namespace Metidos.Schema

open SqlTables StatementScript

abbrev Slot := Option RowTable

def onTable (change : RowTable → Option RowTable) (slot : Slot) : Option Slot :=
  slot.bind fun table => (change table).map some

def tableHasColumn (slot : Slot) (column : String) : Bool := slot.any (·.has column)

def createTableIfNotExists (columns : List String) : StatementScript Slot :=
  statement fun slot => some (some (slot.getD (RowTable.create columns)))

def ensureAppSchemaColumn (column : String × SqlValue) : StatementScript Slot :=
  issueUnless (tableHasColumn · column.1) (onTable fun table =>
    if table.has column.1 then none else some (table.addColumn column.1 column.2))

def updateRows (change : Row → Row) : StatementScript Slot :=
  statement (onTable fun table => some (table.update change))

def integer (value : Int) : SqlValue := .integer value

def text (value : String) : SqlValue := .text value.toList

def sqlTrim (value : List Char) : List Char :=
  ((value.dropWhile (· = ' ')).reverse.dropWhile (· = ' ')).reverse

def coalesce (value other : SqlValue) : SqlValue := if value = .null then other else value

/-- `value IS NULL OR TRIM(value) = ''`. -/
def isBlankValue : SqlValue → Bool
  | .null => true
  | .text value => sqlTrim value = []
  | .integer _ => false

/-- `permissions IS NULL OR permissions = '[]' OR TRIM(permissions) = ''`. -/
def isEmptyPermissions (value : SqlValue) : Bool := isBlankValue value || value = text "[]"

def setWhere (condition : Row → Bool) (column : String) (value : Row → SqlValue) (row : Row) : Row :=
  if condition row then Function.update row column (value row) else row

def legacyAccessColumnNames : List String :=
  ["web_search_access", "webview_access", "github_access", "git_access", "sqlite_access",
    "web_server_access", "agents_access", "calendar_access", "notifications_access",
    "weather_access", "threads_access", "crons_access", "metidos_access", "unsafe_mode"]

def accessColumns : List (String × SqlValue) :=
  [("web_search_access", integer 1), ("github_access", integer 0), ("git_access", integer 0),
    ("sqlite_access", integer 0), ("web_server_access", integer 0), ("agents_access", integer 0),
    ("calendar_access", integer 0), ("notifications_access", integer 0),
    ("weather_access", integer 0), ("metidos_access", integer 1), ("threads_access", integer 1),
    ("crons_access", integer 1)]

def storedColumns : List (String × SqlValue) :=
  [("plugin_access_groups", text "[]"), ("permissions", text "[]")]

structure AccessTable where
  createColumns : List String
  firstColumns : List (String × SqlValue)
  laterColumns : List (String × SqlValue)
  normalizations : List (Row → Row)

def metidosAccessOf (row : Row) : SqlValue := coalesce (row "metidos_access") (integer 1)

def ensureAccessColumns (table : AccessTable) : StatementScript Slot :=
  read fun slot =>
    sequence
      [each (table.firstColumns ++ accessColumns) ensureAppSchemaColumn,
        if tableHasColumn slot "threads_access" then done
        else updateRows (setWhere (fun _ => true) "threads_access" metidosAccessOf),
        if tableHasColumn slot "crons_access" then done
        else updateRows (setWhere (fun _ => true) "crons_access" metidosAccessOf),
        each storedColumns ensureAppSchemaColumn]

section Sorting

variable (localeLe : Text → Text → Bool)

def accessInput (row : Row) : LegacyAccessInput where
  webSearchAccess := row "web_search_access"
  webServerAccess := row "web_server_access"
  githubAccess := row "github_access"
  gitAccess := row "git_access"
  sqliteAccess := row "sqlite_access"
  agentsAccess := row "agents_access"
  calendarAccess := row "calendar_access"
  notificationsAccess := row "notifications_access"
  metidosAccess := row "metidos_access"
  threadsAccess := row "threads_access"
  cronsAccess := row "crons_access"
  unsafeMode := row "unsafe_mode"
  pluginAccessGroups := parseThreadPluginAccessGroups localeLe (row "plugin_access_groups")

def projectedPermissions (row : Row) : SqlValue :=
  .text (serializeStoredThreadPermissions localeLe
    (resolveInputThreadPermissions localeLe (accessInput localeLe row)))

/-- `backfillThreadPermissions` and `backfillCronJobPermissions`. -/
def backfillPermissions : StatementScript Slot :=
  read fun slot =>
    if tableHasColumn slot "web_search_access" && tableHasColumn slot "unsafe_mode" then
      each ((slot.toList.flatMap fun table => table.rows.entries).filter fun entry =>
          isEmptyPermissions (entry.2 "permissions")) fun entry =>
        statement (onTable fun table => some (table.updateRow entry.1 fun row =>
          Function.update row "permissions" (projectedPermissions localeLe entry.2)))
    else done

def dropLegacyAccessColumns : StatementScript Slot :=
  read fun slot =>
    each (legacyAccessColumnNames.filter (tableHasColumn slot)) fun column =>
      statement (onTable fun table =>
        if table.has column then some (table.dropColumn column) else none)

def migrateAccess (table : AccessTable) : StatementScript Slot :=
  sequence
    [createTableIfNotExists table.createColumns, ensureAccessColumns table,
      backfillPermissions localeLe, each table.laterColumns ensureAppSchemaColumn,
      each table.normalizations updateRows, dropLegacyAccessColumns]

end Sorting

structure AppSchemaMigrationOptions where
  defaultThreadModel : List Char
  defaultThreadReasoningEffort : List Char
  deriving DecidableEq

/-- `SET column = value WHERE column IS NULL OR TRIM(column) = ''`. -/
def whereBlank (column : String) (value : Row → SqlValue) : Row → Row :=
  setWhere (fun row => isBlankValue (row column)) column value

/-- `SET column = value WHERE column IS NULL`. -/
def whereNull (column : String) (value : Row → SqlValue) : Row → Row :=
  setWhere (fun row => row column = .null) column value

def metidosNormalizations : List (Row → Row) :=
  [whereNull "metidos_access" fun _ => integer 1, whereNull "threads_access" metidosAccessOf,
    whereNull "crons_access" metidosAccessOf,
    setWhere (fun _ => true) "metidos_access" fun row =>
      if row "threads_access" = integer 1 ∨ row "crons_access" = integer 1 then integer 1
      else integer 0]

def threadsTable (options : AppSchemaMigrationOptions) : AccessTable where
  createColumns :=
    ["id", "project_id", "worktree_path", "cron_job_id", "title", "summary", "model",
      "reasoning_effort", "plugin_access_groups", "permissions", "pi_session_id",
      "pi_session_file", "pi_leaf_entry_id", "pinned_at", "created_at", "updated_at", "deleted_at",
      "last_run_at", "last_input_tokens", "last_cached_input_tokens", "last_output_tokens",
      "max_input_tokens", "estimated_compaction_trigger_tokens", "compaction_count",
      "last_compaction_at", "last_compaction_before_input_tokens",
      "last_compaction_after_input_tokens", "active_turn_started_at", "last_error_at",
      "last_error_seen_at", "last_error_message"]
  firstColumns :=
    [("deleted_at", .null), ("last_input_tokens", .null), ("last_cached_input_tokens", .null),
      ("last_output_tokens", .null), ("max_input_tokens", .null),
      ("estimated_compaction_trigger_tokens", .null), ("compaction_count", integer 0),
      ("last_compaction_at", .null), ("last_compaction_before_input_tokens", .null),
      ("last_compaction_after_input_tokens", .null), ("active_turn_started_at", .null),
      ("last_error_at", .null), ("last_error_seen_at", .null), ("last_error_message", .null),
      ("pinned_at", .null), ("summary", .null), ("model", .null),
      ("reasoning_effort", text "medium")]
  laterColumns :=
    [("unsafe_mode", integer 0), ("cron_job_id", .null), ("pi_session_id", .null),
      ("pi_session_file", .null), ("pi_leaf_entry_id", .null)]
  normalizations :=
    [whereBlank "model" fun _ => .text options.defaultThreadModel,
      whereBlank "reasoning_effort" fun _ => .text options.defaultThreadReasoningEffort,
      whereNull "unsafe_mode" fun _ => integer 0, whereNull "web_search_access" fun _ => integer 1,
      whereNull "github_access" fun _ => integer 0, whereNull "sqlite_access" fun _ => integer 0,
      whereNull "web_server_access" fun _ => integer 0,
      whereNull "agents_access" fun _ => integer 0, whereNull "calendar_access" fun _ => integer 0,
      whereNull "notifications_access" fun _ => integer 0,
      whereNull "weather_access" fun _ => integer 0] ++ metidosNormalizations

def trimmedOrNull : SqlValue → SqlValue
  | .text value => if sqlTrim value = [] then .null else .text (sqlTrim value)
  | .integer value => .text (toString value).toList
  | .null => .null

def firstChars (count : Nat) : SqlValue → SqlValue
  | .text value => .text (value.take count)
  | .integer value => .text ((toString value).toList.take count)
  | .null => .null

def concatenate (start : List Char) : SqlValue → SqlValue
  | .text value => .text (start ++ value)
  | .integer value => .text (start ++ (toString value).toList)
  | .null => .null

def cronJobsTable (options : AppSchemaMigrationOptions) : AccessTable where
  createColumns :=
    ["id", "project_id", "worktree_path", "schedule", "prompt", "title", "description", "model",
      "reasoning_effort", "plugin_access_groups", "permissions", "last_run_date",
      "last_run_status", "enabled", "deleted_at", "created_at", "updated_at"]
  firstColumns :=
    [("title", text "Cron job"), ("description", text ""), ("model", text "gpt-5.4"),
      ("reasoning_effort", text "medium")]
  laterColumns := [("unsafe_mode", integer 0)]
  normalizations :=
    [whereBlank "title" fun row => coalesce (trimmedOrNull (firstChars 72 (row "prompt")))
        (concatenate "Cron job ".toList (row "id")),
      whereBlank "description" fun row => coalesce (trimmedOrNull (row "prompt")) (row "schedule"),
      whereBlank "model" fun _ => .text options.defaultThreadModel,
      whereBlank "reasoning_effort" fun _ => .text options.defaultThreadReasoningEffort,
      whereNull "unsafe_mode" fun _ => integer 0, whereNull "web_search_access" fun _ => integer 1,
      whereNull "github_access" fun _ => integer 0, whereNull "sqlite_access" fun _ => integer 0,
      whereNull "web_server_access" fun _ => integer 0,
      whereNull "agents_access" fun _ => integer 0,
      whereNull "notifications_access" fun _ => integer 0,
      whereNull "weather_access" fun _ => integer 0] ++ metidosNormalizations

end Metidos.Schema
