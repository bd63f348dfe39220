import Metidos.Ingress.IngressMessages
import Metidos.Library.SqlTables

/-!
Executable model of `initPluginIngressMessageSchema` of `src/bun/plugin/ingress-store.ts`, and
what it does to a database that is at the current schema already.
-/

namespace Metidos.Ingress

open SqlTables SqlDatabase SqlTable

def messageColumns : List String :=
  ["id", "plugin_id", "source_id", "external_message_id", "external_user_id", "conversation_id",
    "message_text", "message_text_redacted_at", "status", "response_handle", "routing_metadata",
    "error_metadata", "received_at", "created_at", "updated_at"]

def rateLimitMarkerColumns : List String :=
  ["plugin_id", "source_id", "external_user_id", "conversation_id", "window_kind", "window_start",
    "first_seen_at", "last_seen_at", "count"]

def auditEventColumns : List String :=
  ["id", "plugin_id", "source_id", "decision", "external_message_id", "external_user_id",
    "conversation_id", "thread_id", "success", "reason", "text_preview", "text_sha256", "metadata",
    "created_at"]

def linkCodeColumns : List String :=
  ["id", "plugin_id", "source_id", "code_sha256", "expires_at", "consumed_at",
    "consumed_external_user_id", "created_at"]

def externalBindingColumns : List String :=
  ["id", "plugin_id", "source_id", "external_user_id", "enabled", "created_at", "updated_at"]

def routeConfigColumns : List String :=
  ["id", "plugin_id", "source_id", "project_id", "worktree_path", "model", "permissions_json",
    "enabled", "created_at", "updated_at"]

def messageTable : String := "plugin_ingress_messages"

def rateLimitMarkerTable : String := "plugin_ingress_rate_limit_markers"

def auditEventTable : String := "plugin_ingress_audit_events"

def linkCodeTable : String := "plugin_ingress_link_codes"

def externalBindingTable : String := "plugin_ingress_external_bindings"

def routeConfigTable : String := "plugin_ingress_route_configs"

def userColumn : String := "metidos_user_id"

def migrationName (tableName : String) : String := "__" ++ tableName ++ "_migration"

def ensurePluginIngressColumn (database : SqlDatabase) (tableName columnName : String) :
    SqlDatabase :=
  if (database.tableInfo tableName).contains columnName then database
  else database.addColumn tableName columnName

def putAside (database : SqlDatabase) (createColumns : List String) (tableName : String) :
    SqlDatabase :=
  let migration := migrationName tableName
  ((database.dropTable migration).renameTable tableName migration).createTable tableName
    createColumns

/-- The transaction of `rebuildPluginIngressTableIfPresent`. -/
def rebuildTable (database : SqlDatabase) (createColumns : List String) (tableName : String) :
    SqlDatabase :=
  let migration := migrationName tableName
  let created := putAside database createColumns tableName
  let migratedColumns := created.tableInfo migration
  let currentColumns := created.tableInfo tableName
  let copiedColumns := currentColumns.filter (migratedColumns.contains ·)
  let copied :=
    if copiedColumns.isEmpty then created
    else created.insertSelect tableName migration copiedColumns
  copied.dropTable migration

def rebuildPluginIngressTableIfPresent (database : SqlDatabase) (createColumns : List String)
    (legacyColumns : List String) (tableName : String) : SqlDatabase :=
  if (database.tableInfo tableName).any (legacyColumns.contains ·) then
    rebuildTable database createColumns tableName
  else database.createTable tableName createColumns

def initPluginIngressMessageSchema (database : SqlDatabase) : SqlDatabase :=
  let messages := rebuildPluginIngressTableIfPresent database messageColumns [userColumn]
    messageTable
  let markers := messages.createTable rateLimitMarkerTable rateLimitMarkerColumns
  let audits := rebuildPluginIngressTableIfPresent markers auditEventColumns [userColumn]
    auditEventTable
  let codes := rebuildPluginIngressTableIfPresent audits linkCodeColumns [userColumn] linkCodeTable
  let userCodes := ensurePluginIngressColumn codes linkCodeTable userColumn
  let bindings := rebuildPluginIngressTableIfPresent userCodes externalBindingColumns [userColumn]
    externalBindingTable
  let userBindings := ensurePluginIngressColumn bindings externalBindingTable userColumn
  let routes := rebuildPluginIngressTableIfPresent userBindings routeConfigColumns [userColumn]
    routeConfigTable
  ensurePluginIngressColumn routes routeConfigTable "model"

def Kept (database : SqlDatabase) (tableName : String) : Prop :=
  ∃ table, database.table tableName = some table ∧ userColumn ∉ table.columns

def WithUsers (database : SqlDatabase) (createColumns : List String) (tableName : String) : Prop :=
  ∃ table, database.table tableName = some table ∧ table.columns = createColumns ++ [userColumn] ∧
    ∀ row ∈ table.rows, row.length = createColumns.length + 1

structure AtCurrentSchema (database : SqlDatabase) : Prop where
  messages : Kept database messageTable
  markers : ∃ table, database.table rateLimitMarkerTable = some table
  auditEvents : Kept database auditEventTable
  linkCodes : WithUsers database linkCodeColumns linkCodeTable
  externalBindings : WithUsers database externalBindingColumns externalBindingTable
  routeConfigs : ∃ table, database.table routeConfigTable = some table ∧
    userColumn ∉ table.columns ∧ "model" ∈ table.columns

def forgetUser (row : List SqlValue) : List SqlValue := row.dropLast ++ [.null]

def forgetUsers (table : SqlTable) : SqlTable := { table with rows := table.rows.map forgetUser }

variable {database : SqlDatabase} {tableName : String} {createColumns : List String}
  {table : SqlTable}

theorem migrationName_ne (tableName : String) : migrationName tableName ≠ tableName := by
  intro same
  have lengths := congrArg String.length same
  simp only [migrationName, String.length_append] at lengths
  have prefixed : "__".length = 2 := rfl
  omega

theorem rebuild_of_kept (kept : Kept database tableName) :
    rebuildPluginIngressTableIfPresent database createColumns [userColumn] tableName =
      database := by
  obtain ⟨table, found, absent⟩ := kept
  have none : (database.tableInfo tableName).any ([userColumn].contains ·) = false := by
    rw [tableInfo_of_some found, List.any_eq_false]
    intro column member same
    simp only [List.contains_cons, List.contains_nil, Bool.or_false, beq_iff_eq] at same
    exact absent (same ▸ member)
  rw [rebuildPluginIngressTableIfPresent, none, if_neg Bool.false_ne_true,
    createTable_of_some found]

theorem ensure_of_present (found : database.table tableName = some table) {columnName : String}
    (present : columnName ∈ table.columns) :
    ensurePluginIngressColumn database tableName columnName = database := by
  rw [ensurePluginIngressColumn, tableInfo_of_some found, if_pos]
  exact List.contains_iff_mem.mpr present

theorem place_project (columns : table.columns = createColumns ++ [userColumn])
    (distinct : createColumns.Nodup) {row : List SqlValue}
    (width : row.length = createColumns.length + 1) :
    (SqlTable.empty createColumns).place createColumns (table.project createColumns row) =
      row.dropLast := by
  have nonempty : row ≠ [] := by
    intro empty
    simp [empty] at width
  have short : createColumns.length = row.dropLast.length := by
    rw [List.length_dropLast]
    omega
  have read : table.project createColumns row = row.dropLast := by
    have parts := map_valueOf_append distinct short [userColumn] [row.getLast nonempty]
    rw [List.dropLast_append_getLast nonempty] at parts
    rw [project, columns]
    exact parts
  rw [place, read]
  exact map_valueOf_self distinct short

theorem table_putAside (found : database.table tableName = some table) (other : String) :
    (putAside database createColumns tableName).table other =
      if other = tableName then some (SqlTable.empty createColumns)
      else if other = migrationName tableName then some table
      else database.table other := by
  have differs := migrationName_ne tableName
  have emptied : ((database.dropTable (migrationName tableName)).renameTable tableName
      (migrationName tableName)).table tableName = none := by
    simp [renameTable]
  rw [putAside, createTable, emptied]
  simp only [table_set, renameTable, dropTable]
  by_cases own : other = tableName
  · simp [own]
  · by_cases migration : other = migrationName tableName
    · simp [migration, differs, Ne.symm differs, found]
    · simp [own, migration]

theorem table_rebuildTable (found : database.table tableName = some table)
    (columns : table.columns = createColumns ++ [userColumn])
    (widths : ∀ row ∈ table.rows, row.length = createColumns.length + 1)
    (distinct : createColumns.Nodup) (nonempty : createColumns ≠ []) (other : String) :
    (rebuildTable database createColumns tableName).table other =
      if other = migrationName tableName then none
      else if other = tableName then
        some { columns := createColumns, rows := table.rows.map List.dropLast }
      else database.table other := by
  have differs := migrationName_ne tableName
  have aside : ∀ index, (putAside database createColumns tableName).table index = _ :=
    table_putAside found
  have own := (aside tableName).trans (if_pos rfl)
  have moved := (aside (migrationName tableName)).trans ((if_neg differs).trans (if_pos rfl))
  have copied : (SqlTable.empty createColumns).columns.filter (table.columns.contains ·) =
      createColumns := by
    rw [columns]
    apply List.filter_eq_self.mpr
    intro column member
    simp only [List.contains_eq_mem, List.mem_append, decide_eq_true_eq]
    exact Or.inl member
  have copies : createColumns.isEmpty = false := by
    rw [List.isEmpty_eq_false_iff]
    exact nonempty
  have rows : table.rows.map (fun row => (SqlTable.empty createColumns).place createColumns
      (table.project createColumns row)) = table.rows.map List.dropLast :=
    List.map_congr_left fun row member => place_project columns distinct (widths row member)
  simp only [rebuildTable, tableInfo_of_some own, tableInfo_of_some moved, copied, copies,
    Bool.false_eq_true, if_false, insertSelect, own, moved, dropTable, table_set, aside, rows]
  by_cases migration : other = migrationName tableName
  · rw [if_pos migration, if_pos migration]
  · rw [if_neg migration, if_neg migration]
    by_cases same : other = tableName
    · simp [same, Ne.symm differs, SqlTable.empty]
    · simp [same, migration]

theorem table_rebuilt (found : database.table tableName = some table)
    (columns : table.columns = createColumns ++ [userColumn])
    (widths : ∀ row ∈ table.rows, row.length = createColumns.length + 1)
    (distinct : (createColumns ++ [userColumn]).Nodup) (nonempty : createColumns ≠ [])
    (other : String) :
    (ensurePluginIngressColumn
      (rebuildPluginIngressTableIfPresent database createColumns [userColumn] tableName)
      tableName userColumn).table other =
      if other = migrationName tableName then none
      else if other = tableName then some (forgetUsers table)
      else database.table other := by
  have differs := migrationName_ne tableName
  have legacy : (database.tableInfo tableName).any ([userColumn].contains ·) = true := by
    rw [tableInfo_of_some found, columns, List.any_append]
    simp
  have apart := List.nodup_append.mp distinct
  have absent : createColumns.contains userColumn = false := by
    rw [List.contains_eq_mem, decide_eq_false_iff_not]
    intro member
    exact apart.2.2 userColumn member userColumn (List.mem_singleton.mpr rfl) rfl
  have rebuilt := table_rebuildTable found columns widths apart.1 nonempty
  have own := (rebuilt tableName).trans ((if_neg (Ne.symm differs)).trans (if_pos rfl))
  rw [rebuildPluginIngressTableIfPresent, if_pos legacy, ensurePluginIngressColumn,
    tableInfo_of_some own, absent, if_neg Bool.false_ne_true, addColumn, own]
  simp only [table_set, rebuilt]
  by_cases same : other = tableName
  · subst same
    rw [if_pos rfl, if_neg (Ne.symm differs), if_pos rfl, forgetUsers, columns, List.map_map]
    rfl
  · simp only [same, if_false]

theorem table_initPluginIngressMessageSchema (current : AtCurrentSchema database) (name : String) :
    (initPluginIngressMessageSchema database).table name =
      if name = migrationName linkCodeTable ∨ name = migrationName externalBindingTable then none
      else if name = linkCodeTable ∨ name = externalBindingTable then
        (database.table name).map forgetUsers
      else database.table name := by
  obtain ⟨markers, foundMarkers⟩ := current.markers
  obtain ⟨codes, foundCodes, codeColumns, codeWidths⟩ := current.linkCodes
  obtain ⟨bindings, foundBindings, bindingColumns, bindingWidths⟩ := current.externalBindings
  obtain ⟨routes, foundRoutes, routeKept, modelPresent⟩ := current.routeConfigs
  have rebuiltCodes := table_rebuilt foundCodes codeColumns codeWidths (by decide) (by decide)
  rw [initPluginIngressMessageSchema, rebuild_of_kept current.messages,
    createTable_of_some foundMarkers, rebuild_of_kept current.auditEvents]
  generalize ensurePluginIngressColumn
    (rebuildPluginIngressTableIfPresent database linkCodeColumns [userColumn] linkCodeTable)
    linkCodeTable userColumn = withCodes at rebuiltCodes
  have stillBindings : withCodes.table externalBindingTable = some bindings := by
    rw [rebuiltCodes, if_neg (by decide), if_neg (by decide), foundBindings]
  have rebuilt := table_rebuilt stillBindings bindingColumns bindingWidths (by decide) (by decide)
  generalize ensurePluginIngressColumn
    (rebuildPluginIngressTableIfPresent withCodes externalBindingColumns [userColumn]
      externalBindingTable)
    externalBindingTable userColumn = withBindings at rebuilt
  have stillRoutes : withBindings.table routeConfigTable = some routes := by
    rw [rebuilt, if_neg (by decide), if_neg (by decide), rebuiltCodes, if_neg (by decide),
      if_neg (by decide), foundRoutes]
  rw [rebuild_of_kept ⟨routes, stillRoutes, routeKept⟩, ensure_of_present stillRoutes modelPresent,
    rebuilt, rebuiltCodes]
  by_cases movedBindings : name = migrationName externalBindingTable
  · simp [movedBindings]
  · by_cases isBindings : name = externalBindingTable
    · subst isBindings
      rw [if_neg movedBindings, if_pos rfl, if_neg (by decide), if_pos (Or.inr rfl), foundBindings,
        Option.map_some]
    · by_cases isCodes : name = linkCodeTable
      · subst isCodes
        rw [if_neg movedBindings, if_neg isBindings, if_neg (by decide), if_pos rfl,
          if_neg (by decide), if_pos (Or.inl rfl), foundCodes, Option.map_some]
      · simp [movedBindings, isBindings, isCodes]

def UserFree (database : SqlDatabase) : Prop :=
  ∀ name ∈ [linkCodeTable, externalBindingTable], ∀ table, database.table name = some table →
    ∀ row ∈ table.rows, row.getLast? = some .null

def ingressTables : List String :=
  [messageTable, rateLimitMarkerTable, auditEventTable, linkCodeTable, externalBindingTable,
    routeConfigTable]

theorem forgetUser_eq_self_iff {row : List SqlValue} (nonempty : row ≠ []) :
    forgetUser row = row ↔ row.getLast? = some .null := by
  rw [forgetUser, List.getLast?_eq_some_getLast nonempty, Option.some.injEq]
  constructor
  · intro same
    have last := congrArg List.getLast? same
    rw [List.getLast?_append, List.getLast?_eq_some_getLast nonempty] at last
    simpa using last.symm
  · intro last
    conv => rhs; rw [← List.dropLast_append_getLast nonempty, last]

theorem forgetUsers_eq_self_iff (widths : ∀ row ∈ table.rows, row ≠ []) :
    forgetUsers table = table ↔ ∀ row ∈ table.rows, row.getLast? = some .null := by
  have rows : forgetUsers table = table ↔ table.rows.map forgetUser = table.rows.map id := by
    rw [List.map_id]
    constructor
    · exact congrArg SqlTable.rows
    · intro same
      cases table
      exact congrArg (SqlTable.mk _) same
  rw [rows, List.map_inj_left]
  constructor
  · intro same row member
    exact (forgetUser_eq_self_iff (widths row member)).mp (same row member)
  · intro free row member
    exact (forgetUser_eq_self_iff (widths row member)).mpr (free row member)

/-- The initialiser leaves the tables as they are exactly when no row records a user. -/
theorem init_preserves_iff (current : AtCurrentSchema database) :
    (∀ name ∈ ingressTables,
      (initPluginIngressMessageSchema database).table name = database.table name) ↔
      UserFree database := by
  have users : ∀ {name : String} {columns : List String}, WithUsers database columns name →
      ((database.table name).map forgetUsers = database.table name ↔
        ∀ table, database.table name = some table →
          ∀ row ∈ table.rows, row.getLast? = some .null) := by
    rintro name columns ⟨table, found, -, widths⟩
    have filled : ∀ row ∈ table.rows, row ≠ [] := by
      intro row member empty
      have width := widths row member
      rw [empty] at width
      simp at width
    simp only [found, Option.map_some, Option.some.injEq, forgetUsers_eq_self_iff filled,
      forall_eq']
  have codes := users current.linkCodes
  have bindings := users current.externalBindings
  have changed := table_initPluginIngressMessageSchema current
  simp only [UserFree, List.mem_cons, List.not_mem_nil, or_false, forall_eq_or_imp, forall_eq,
    ← codes, ← bindings]
  constructor
  · intro same
    have sameCodes := same linkCodeTable (by decide)
    have sameBindings := same externalBindingTable (by decide)
    rw [changed, if_neg (by decide), if_pos (Or.inl rfl)] at sameCodes
    rw [changed, if_neg (by decide), if_pos (Or.inr rfl)] at sameBindings
    exact ⟨sameCodes, sameBindings⟩
  · rintro ⟨sameCodes, sameBindings⟩ name member
    have stays : ¬(name = migrationName linkCodeTable ∨
        name = migrationName externalBindingTable) := by
      rintro (same | same) <;> rw [same] at member <;> exact absurd member (by decide)
    rw [changed, if_neg stays]
    split
    · rename_i isUsers
      rcases isUsers with rfl | rfl
      · exact sameCodes
      · exact sameBindings
    · rfl

end Metidos.Ingress

/-!
Executable model of `src/bun/plugin/ingress-store.ts` on typed rows.  Every operation runs
`initPluginIngressMessageSchema` first, here as `initSchema`, which `init_encode` ties to the
statements of the initialiser; instants are milliseconds.
-/

namespace Metidos.Ingress

open JsText SqlTables

def pluginIngressExternalIdMaxLength : Nat := 256

def pluginIngressMessageMaxLength : Nat := 16000

def pluginIngressSourceIdMaxLength : Nat := 64

def tenMinutesMs : Int := 10 * 60 * 1000

def dayMs : Int := 24 * 60 * 60 * 1000

def pluginIngressUnverifiedRetentionMs : Int := dayMs

def pluginIngressTextRetentionMs : Int := 30 * dayMs

def pluginIngressDedupeRetentionMs : Int := 180 * dayMs

def pluginIngressResponseAuditRetentionMs : Int := 90 * dayMs

def pluginIngressAuditPreviewMaxLength : Nat := 160

def pluginIngressUnverifiedWindowLimit : Nat := 10

def pluginIngressUnverifiedDailyLimit : Nat := 100

def pluginIngressLinkCodeTtlMs : Int := tenMinutesMs

def pluginIngressCleanupIntervalMs : Int := 60 * 60 * 1000

/-- The hash and the order of strings that the store takes from its platform. -/
structure StoreHost where
  sha256 : Text → Text
  localeLe : Text → Text → Bool

inductive PluginIngressMessageStatus
  | unverified
  | ignored
  | verified
  | processed
  | failed
  deriving DecidableEq

inductive PluginIngressAuditDecision
  | linkCodeCreated
  | linkCodeUsed
  | bindingChanged
  | unverifiedRejected
  | routingFailed
  | messageRouted
  | replyAttempted
  | replySucceeded
  | replyFailed
  deriving DecidableEq

inductive WindowKind
  | tenMinute
  | day
  deriving DecidableEq

structure PluginIngressMessageRecord where
  id : Nat
  pluginId : Text
  sourceId : Text
  externalMessageId : Text
  externalUserId : Text
  conversationId : Option Text
  messageText : Option Text
  messageTextRedactedAt : Option Int
  status : PluginIngressMessageStatus
  responseHandle : Option Text
  routingMetadata : Option Text
  errorMetadata : Option Text
  receivedAt : Int
  createdAt : Int
  updatedAt : Int
  deriving DecidableEq

structure PluginIngressRateLimitMarkerRecord where
  pluginId : Text
  sourceId : Text
  externalUserId : Text
  conversationId : Option Text
  windowKind : WindowKind
  windowStart : Int
  firstSeenAt : Int
  lastSeenAt : Int
  count : Nat
  deriving DecidableEq

structure PluginIngressAuditEventRecord where
  id : Nat
  pluginId : Text
  sourceId : Text
  decision : PluginIngressAuditDecision
  externalMessageId : Option Text
  externalUserId : Option Text
  conversationId : Option Text
  threadId : Option Nat
  success : Bool
  reason : Option Text
  textPreview : Option Text
  textSha256 : Option Text
  metadata : Option Text
  createdAt : Int
  deriving DecidableEq

structure PluginIngressLinkCodeRecord where
  id : Nat
  pluginId : Text
  sourceId : Text
  codeSha256 : Text
  expiresAt : Int
  consumedAt : Option Int
  consumedExternalUserId : Option Text
  createdAt : Int
  metidosUserId : Option Int
  deriving DecidableEq

structure PluginIngressExternalBindingRecord where
  id : Nat
  pluginId : Text
  sourceId : Text
  externalUserId : Text
  enabled : Bool
  createdAt : Int
  updatedAt : Int
  metidosUserId : Option Int
  deriving DecidableEq

structure PluginIngressRouteConfigRecord where
  id : Nat
  pluginId : Text
  sourceId : Text
  projectId : Nat
  worktreePath : Text
  model : Option Text
  permissions : List Text
  enabled : Bool
  createdAt : Int
  updatedAt : Int
  deriving DecidableEq

/-- The rows of the tables, the `AUTOINCREMENT` counters of those that are never rebuilt, and the
module's note of the last cleanup. -/
structure IngressDatabase where
  messages : List PluginIngressMessageRecord
  nextMessageId : Nat
  rateLimitMarkers : List PluginIngressRateLimitMarkerRecord
  auditEvents : List PluginIngressAuditEventRecord
  nextAuditEventId : Nat
  linkCodes : List PluginIngressLinkCodeRecord
  externalBindings : List PluginIngressExternalBindingRecord
  routeConfigs : List PluginIngressRouteConfigRecord
  nextRouteConfigId : Nat
  lastCleanupAtMs : Int
  deriving DecidableEq

def PluginIngressMessageStatus.text : PluginIngressMessageStatus → Text
  | .unverified => "unverified".toList
  | .ignored => "ignored".toList
  | .verified => "verified".toList
  | .processed => "processed".toList
  | .failed => "failed".toList

def PluginIngressAuditDecision.text : PluginIngressAuditDecision → Text
  | .linkCodeCreated => "link_code_created".toList
  | .linkCodeUsed => "link_code_used".toList
  | .bindingChanged => "binding_changed".toList
  | .unverifiedRejected => "unverified_rejected".toList
  | .routingFailed => "routing_failed".toList
  | .messageRouted => "message_routed".toList
  | .replyAttempted => "reply_attempted".toList
  | .replySucceeded => "reply_succeeded".toList
  | .replyFailed => "reply_failed".toList

def WindowKind.text : WindowKind → Text
  | .tenMinute => "ten_minute".toList
  | .day => "day".toList

def textOrNull : Option Text → SqlValue
  | none => .null
  | some text => .text text

def integerOrNull : Option Int → SqlValue
  | none => .null
  | some value => .integer value

def flagValue (flag : Bool) : SqlValue := .integer (if flag then 1 else 0)

def stringifyTexts (texts : List Text) : Text :=
  '[' :: (List.intercalate [','] (texts.map jsonStringify) ++ [']'])

def messageRow (record : PluginIngressMessageRecord) : List SqlValue :=
  [.integer record.id, .text record.pluginId, .text record.sourceId,
    .text record.externalMessageId, .text record.externalUserId, textOrNull record.conversationId,
    textOrNull record.messageText, integerOrNull record.messageTextRedactedAt,
    .text record.status.text, textOrNull record.responseHandle, textOrNull record.routingMetadata,
    textOrNull record.errorMetadata, .integer record.receivedAt, .integer record.createdAt,
    .integer record.updatedAt]

def rateLimitMarkerRow (record : PluginIngressRateLimitMarkerRecord) : List SqlValue :=
  [.text record.pluginId, .text record.sourceId, .text record.externalUserId,
    textOrNull record.conversationId, .text record.windowKind.text, .integer record.windowStart,
    .integer record.firstSeenAt, .integer record.lastSeenAt, .integer record.count]

def auditEventRow (record : PluginIngressAuditEventRecord) : List SqlValue :=
  [.integer record.id, .text record.pluginId, .text record.sourceId, .text record.decision.text,
    textOrNull record.externalMessageId, textOrNull record.externalUserId,
    textOrNull record.conversationId, integerOrNull (record.threadId.map Int.ofNat),
    flagValue record.success, textOrNull record.reason, textOrNull record.textPreview,
    textOrNull record.textSha256, textOrNull record.metadata, .integer record.createdAt]

def linkCodeRow (record : PluginIngressLinkCodeRecord) : List SqlValue :=
  [.integer record.id, .text record.pluginId, .text record.sourceId, .text record.codeSha256,
    .integer record.expiresAt, integerOrNull record.consumedAt,
    textOrNull record.consumedExternalUserId, .integer record.createdAt,
    integerOrNull record.metidosUserId]

def externalBindingRow (record : PluginIngressExternalBindingRecord) : List SqlValue :=
  [.integer record.id, .text record.pluginId, .text record.sourceId, .text record.externalUserId,
    flagValue record.enabled, .integer record.createdAt, .integer record.updatedAt,
    integerOrNull record.metidosUserId]

def routeConfigRow (record : PluginIngressRouteConfigRecord) : List SqlValue :=
  [.integer record.id, .text record.pluginId, .text record.sourceId, .integer record.projectId,
    .text record.worktreePath, textOrNull record.model, .text (stringifyTexts record.permissions),
    flagValue record.enabled, .integer record.createdAt, .integer record.updatedAt]

namespace IngressDatabase

def empty : IngressDatabase where
  messages := []
  nextMessageId := 1
  rateLimitMarkers := []
  auditEvents := []
  nextAuditEventId := 1
  linkCodes := []
  externalBindings := []
  routeConfigs := []
  nextRouteConfigId := 1
  lastCleanupAtMs := 0

def encode (database : IngressDatabase) : SqlDatabase where
  table name :=
    if name = messageTable then some ⟨messageColumns, database.messages.map messageRow⟩
    else if name = rateLimitMarkerTable then
      some ⟨rateLimitMarkerColumns, database.rateLimitMarkers.map rateLimitMarkerRow⟩
    else if name = auditEventTable then
      some ⟨auditEventColumns, database.auditEvents.map auditEventRow⟩
    else if name = linkCodeTable then
      some ⟨linkCodeColumns ++ [userColumn], database.linkCodes.map linkCodeRow⟩
    else if name = externalBindingTable then
      some ⟨externalBindingColumns ++ [userColumn],
        database.externalBindings.map externalBindingRow⟩
    else if name = routeConfigTable then
      some ⟨routeConfigColumns, database.routeConfigs.map routeConfigRow⟩
    else none

def initSchema (database : IngressDatabase) : IngressDatabase :=
  { database with
    linkCodes := database.linkCodes.map fun record => { record with metidosUserId := none }
    externalBindings := database.externalBindings.map fun record =>
      { record with metidosUserId := none } }

theorem encode_atCurrentSchema (database : IngressDatabase) :
    AtCurrentSchema database.encode := by
  have messages : userColumn ∉ messageColumns := by decide
  have audits : userColumn ∉ auditEventColumns := by decide
  have routes : userColumn ∉ routeConfigColumns := by decide
  have model : "model" ∈ routeConfigColumns := by decide
  refine ⟨⟨_, rfl, messages⟩, ⟨_, rfl⟩, ⟨_, rfl, audits⟩, ⟨_, rfl, rfl, ?_⟩, ⟨_, rfl, rfl, ?_⟩,
    ⟨_, rfl, routes, model⟩⟩
  · intro row member
    obtain ⟨record, -, rfl⟩ := List.mem_map.mp member
    rfl
  · intro row member
    obtain ⟨record, -, rfl⟩ := List.mem_map.mp member
    rfl

theorem forgetUsers_linkCodes (records : List PluginIngressLinkCodeRecord) :
    (records.map linkCodeRow).map forgetUser =
      (records.map fun record => { record with metidosUserId := none }).map linkCodeRow := by
  rw [List.map_map, List.map_map]
  rfl

theorem forgetUsers_externalBindings (records : List PluginIngressExternalBindingRecord) :
    (records.map externalBindingRow).map forgetUser =
      (records.map fun record => { record with metidosUserId := none }).map
        externalBindingRow := by
  rw [List.map_map, List.map_map]
  rfl

theorem init_encode (database : IngressDatabase) :
    initPluginIngressMessageSchema database.encode = database.initSchema.encode := by
  apply SqlDatabase.ext
  intro name
  rw [table_initPluginIngressMessageSchema database.encode_atCurrentSchema]
  by_cases codes : name = linkCodeTable
  · subst codes
    rw [if_neg (by decide), if_pos (Or.inl rfl)]
    exact congrArg (fun rows => some (SqlTable.mk (linkCodeColumns ++ [userColumn]) rows))
      (forgetUsers_linkCodes database.linkCodes)
  · by_cases bindings : name = externalBindingTable
    · subst bindings
      rw [if_neg (by decide), if_pos (Or.inr rfl)]
      exact congrArg (fun rows => some (SqlTable.mk (externalBindingColumns ++ [userColumn]) rows))
        (forgetUsers_externalBindings database.externalBindings)
    · split
      · rename_i migration
        rcases migration with rfl | rfl <;> rfl
      · simp [encode, initSchema, codes, bindings]

end IngressDatabase

end Metidos.Ingress
