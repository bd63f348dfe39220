import Metidos.Ingress.IngressStore
import Metidos.Library.Transition

/-!
The operations of `src/bun/plugin/ingress-store.ts`.  Each returns its result or the text of the
error it throws, with the database it leaves; `now` is the clock it reads or is given.
-/

namespace Metidos.Ingress

open JsText

def validateExternalId (name : String) (value : Text) : Except String Unit :=
  if value = [] ∨ pluginIngressExternalIdMaxLength < (utf16 value).length ∨
      value.any fun char => char.toNat ≤ 0x1f then
    .error ("Invalid " ++ name ++ ".")
  else .ok ()

def isSourceIdChar (char : Char) : Bool :=
  ('a' ≤ char ∧ char ≤ 'z') || char.isDigit || char = '_' || char = '-'

/-- `PLUGIN_INGRESS_SOURCE_ID_PATTERN`. -/
def isPluginIngressSourceId : Text → Bool
  | [] => false
  | char :: rest =>
    decide ('a' ≤ char ∧ char ≤ 'z') && rest.length < pluginIngressSourceIdMaxLength &&
      rest.all isSourceIdChar

def validatePluginSourceScope (pluginId sourceId : Text) : Except String Unit := do
  validateExternalId "pluginId" pluginId
  if isPluginIngressSourceId sourceId then .ok ()
  else .error "Invalid plugin ingress source id."

def validateOptionalId (name : String) (value : Option Text) : Except String Unit :=
  if value.getD [] = [] then .ok () else validateExternalId name (value.getD [])

structure PersistPluginIngressMessageInput where
  pluginId : Text
  sourceId : Text
  externalMessageId : Text
  externalUserId : Text
  conversationId : Option Text
  messageText : Text
  status : PluginIngressMessageStatus
  responseHandle : Option Text
  routingMetadata : Option Text
  errorMetadata : Option Text
  receivedAt : Option Int
  deriving DecidableEq

def validateInput (input : PersistPluginIngressMessageInput) : Except String Unit := do
  validatePluginSourceScope input.pluginId input.sourceId
  validateExternalId "externalMessageId" input.externalMessageId
  validateExternalId "externalUserId" input.externalUserId
  validateOptionalId "conversationId" input.conversationId
  if input.messageText = [] ∨ pluginIngressMessageMaxLength < (utf16 input.messageText).length then
    .error "Invalid ingress message text length."
  else .ok ()

structure CreatePluginIngressLinkCodeInput where
  pluginId : Text
  sourceId : Text
  metidosUserId : Option Int
  code : Text
  ttlMs : Option Int
  deriving DecidableEq

structure UpsertPluginIngressRouteConfigInput where
  pluginId : Text
  sourceId : Text
  projectId : Int
  worktreePath : Text
  model : Option Text
  permissions : List Text
  enabled : Bool
  deriving DecidableEq

def isLinkCodeChar (char : Char) : Bool := ('A' ≤ char ∧ char ≤ 'Z') || char.isDigit

/-- `PLUGIN_INGRESS_LINK_CODE_PATTERN`. -/
def isPluginIngressLinkCode (code : Text) : Bool := code.length = 8 && code.all isLinkCodeChar

inductive MetadataValue
  | null
  | text (value : Text)
  | number (value : Int)
  | flag (value : Bool)
  | texts (values : List Text)
  deriving DecidableEq

abbrev Metadata := List (String × MetadataValue)

def MetadataValue.stringify : MetadataValue → Text
  | .null => "null".toList
  | .text value => jsonStringify value
  | .number value => stringOfInteger value
  | .flag value => if value then "true".toList else "false".toList
  | .texts values => stringifyTexts values

def openBrace : Char := Char.ofNat 123

def closeBrace : Char := Char.ofNat 125

def stringifyMetadata (metadata : Metadata) : Text :=
  openBrace :: (List.intercalate [','] (metadata.map fun entry =>
    jsonStringify entry.1.toList ++ ':' :: entry.2.stringify) ++ [closeBrace])

structure CreatePluginIngressAuditEventInput where
  pluginId : Text
  sourceId : Text
  decision : PluginIngressAuditDecision
  externalMessageId : Option Text
  externalUserId : Option Text
  conversationId : Option Text
  threadId : Option Nat
  success : Bool
  reason : Option Text
  text : Option Text
  metadata : Option Metadata
  deriving DecidableEq

def auditInput (pluginId sourceId : Text) (decision : PluginIngressAuditDecision)
    (success : Bool) : CreatePluginIngressAuditEventInput where
  pluginId := pluginId
  sourceId := sourceId
  decision := decision
  externalMessageId := none
  externalUserId := none
  conversationId := none
  threadId := none
  success := success
  reason := none
  text := none
  metadata := none

def validateAuditInput (input : CreatePluginIngressAuditEventInput) : Except String Unit := do
  validatePluginSourceScope input.pluginId input.sourceId
  validateOptionalId "externalMessageId" input.externalMessageId
  validateOptionalId "externalUserId" input.externalUserId
  validateOptionalId "conversationId" input.conversationId
  if 512 < (utf16 (input.reason.getD [])).length then
    .error "Invalid ingress audit reason length."
  else .ok ()

def sliceUnits : Nat → Text → Text
  | _, [] => []
  | limit, char :: rest =>
    if (codeUnits char).length ≤ limit then
      char :: sliceUnits (limit - (codeUnits char).length) rest
    else if limit = 0 then [] else [Char.ofNat 0xFFFD]

def normalizeAuditText (host : StoreHost) (text : Text) : Text × Text :=
  let collapsed := trim (List.intercalate [' '] (splitWhiteSpace text))
  (sliceUnits pluginIngressAuditPreviewMaxLength collapsed, host.sha256 text)

def floorDate (instant interval : Int) : Int := instant / interval * interval

namespace IngressDatabase

def findMessage (database : IngressDatabase) (pluginId sourceId externalMessageId : Text) :
    Option PluginIngressMessageRecord :=
  database.messages.find? fun record =>
    record.pluginId = pluginId ∧ record.sourceId = sourceId ∧
      record.externalMessageId = externalMessageId

def getPluginIngressMessage (database : IngressDatabase)
    (pluginId sourceId externalMessageId : Text) :
    Option PluginIngressMessageRecord × IngressDatabase :=
  let initialized := database.initSchema
  (initialized.findMessage pluginId sourceId externalMessageId, initialized)

def cleanupPluginIngressMessages (database : IngressDatabase) (now : Int) : IngressDatabase :=
  let initialized := database.initSchema
  let kept := initialized.messages.filter fun record =>
    !((record.status = .unverified ∨ record.status = .ignored) ∧
      record.receivedAt < now - pluginIngressUnverifiedRetentionMs)
  let redacted := kept.map fun record =>
    if record.messageText.isSome ∧ record.receivedAt < now - pluginIngressTextRetentionMs then
      { record with messageText := none, messageTextRedactedAt := some now }
    else record
  { initialized with
    messages := redacted.filter fun record =>
      !(record.receivedAt < now - pluginIngressDedupeRetentionMs)
    rateLimitMarkers := initialized.rateLimitMarkers.filter fun record =>
      !(record.lastSeenAt < now - pluginIngressResponseAuditRetentionMs)
    auditEvents := initialized.auditEvents.filter fun record =>
      !(record.createdAt < now - pluginIngressResponseAuditRetentionMs) }

def maybeCleanupPluginIngressMessages (database : IngressDatabase) (now : Int) :
    IngressDatabase :=
  if database.lastCleanupAtMs ≠ 0 ∧
      now - database.lastCleanupAtMs < pluginIngressCleanupIntervalMs then database
  else { database.cleanupPluginIngressMessages now with lastCleanupAtMs := now }

def unverifiedSince (database : IngressDatabase) (input : PersistPluginIngressMessageInput)
    (since : Int) : Nat :=
  database.messages.countP fun record =>
    record.pluginId = input.pluginId ∧ record.sourceId = input.sourceId ∧
      record.externalUserId = input.externalUserId ∧
      record.conversationId = input.conversationId ∧ record.status = .unverified ∧
      since ≤ record.receivedAt

def isUnverifiedOverLimit (database : IngressDatabase)
    (input : PersistPluginIngressMessageInput) (now : Int) : Bool :=
  pluginIngressUnverifiedWindowLimit ≤ database.unverifiedSince input (now - tenMinutesMs) ||
    pluginIngressUnverifiedDailyLimit ≤ database.unverifiedSince input (now - dayMs)

def upsertRateLimitMarker (database : IngressDatabase)
    (input : PersistPluginIngressMessageInput) (windowKind : WindowKind) (windowStart now : Int) :
    IngressDatabase :=
  let isMarker := fun (record : PluginIngressRateLimitMarkerRecord) =>
    decide (record.pluginId = input.pluginId ∧ record.sourceId = input.sourceId ∧
      record.externalUserId = input.externalUserId ∧ input.conversationId.isSome = true ∧
      record.conversationId = input.conversationId ∧ record.windowKind = windowKind ∧
      record.windowStart = windowStart)
  { database with
    rateLimitMarkers :=
      if database.rateLimitMarkers.any isMarker then
        database.rateLimitMarkers.map fun record =>
          if isMarker record then { record with lastSeenAt := now, count := record.count + 1 }
          else record
      else database.rateLimitMarkers ++
        [{ pluginId := input.pluginId
           sourceId := input.sourceId
           externalUserId := input.externalUserId
           conversationId := input.conversationId
           windowKind
           windowStart
           firstSeenAt := now
           lastSeenAt := now
           count := 1 }] }

def insertMessage (database : IngressDatabase) (input : PersistPluginIngressMessageInput)
    (now : Int) : IngressDatabase :=
  match database.findMessage input.pluginId input.sourceId input.externalMessageId with
  | some existing =>
    { database with
      messages := database.messages.map fun record =>
        if record.id = existing.id then { record with updatedAt := now } else record }
  | none =>
    { database with
      messages := database.messages ++
        [{ id := database.nextMessageId
           pluginId := input.pluginId
           sourceId := input.sourceId
           externalMessageId := input.externalMessageId
           externalUserId := input.externalUserId
           conversationId := input.conversationId
           messageText := some input.messageText
           messageTextRedactedAt := none
           status := input.status
           responseHandle := input.responseHandle
           routingMetadata := input.routingMetadata
           errorMetadata := input.errorMetadata
           receivedAt := input.receivedAt.getD now
           createdAt := now
           updatedAt := now }]
      nextMessageId := database.nextMessageId + 1 }

def persistPluginIngressMessage (database : IngressDatabase)
    (input : PersistPluginIngressMessageInput) (now : Int) :
    Except String (Option PluginIngressMessageRecord) × IngressDatabase :=
  match validateInput input with
  | .error message => (.error message, database)
  | .ok _ =>
    let cleaned := database.initSchema.maybeCleanupPluginIngressMessages now
    if input.status = .unverified ∧ cleaned.isUnverifiedOverLimit input now then
      (.ok none,
        (cleaned.upsertRateLimitMarker input .tenMinute (floorDate now tenMinutesMs)
          now).upsertRateLimitMarker input .day (floorDate now dayMs) now)
    else
      let found := (cleaned.insertMessage input now).getPluginIngressMessage input.pluginId
        input.sourceId input.externalMessageId
      (.ok found.1, found.2)

def updateMessage (database : IngressDatabase) (pluginId sourceId externalMessageId : Text)
    (update : PluginIngressMessageRecord → PluginIngressMessageRecord) : IngressDatabase :=
  { database with
    messages := database.messages.map fun record =>
      if record.pluginId = pluginId ∧ record.sourceId = sourceId ∧
          record.externalMessageId = externalMessageId then update record
      else record }

def markPluginIngressMessageProcessed (database : IngressDatabase)
    (pluginId sourceId externalMessageId : Text) (threadId : Nat) (routingMetadata : Metadata)
    (now : Int) : Except String PluginIngressMessageRecord × IngressDatabase :=
  let updated := database.initSchema.updateMessage pluginId sourceId externalMessageId
    fun record =>
      { record with
        status := .processed
        routingMetadata := some (stringifyMetadata
          (routingMetadata ++ [("threadId", .number threadId)]))
        errorMetadata := none
        updatedAt := now }
  match updated.getPluginIngressMessage pluginId sourceId externalMessageId with
  | (none, later) => (.error "Plugin ingress message was not found.", later)
  | (some record, later) => (.ok record, later)

def markPluginIngressMessageFailed (database : IngressDatabase)
    (pluginId sourceId externalMessageId reason : Text) (threadId : Option Nat)
    (errorMetadata : Metadata) (now : Int) :
    Option PluginIngressMessageRecord × IngressDatabase :=
  let thread : Metadata :=
    match threadId with
    | none => []
    | some threadId => [("threadId", .number threadId)]
  (database.initSchema.updateMessage pluginId sourceId externalMessageId fun record =>
    { record with
      status := .failed
      errorMetadata := some (stringifyMetadata
        (("reason", .text reason) :: (thread ++ errorMetadata)))
      updatedAt := now }).getPluginIngressMessage pluginId sourceId externalMessageId

@[grind =] def createPluginIngressAuditEvent (host : StoreHost) (database : IngressDatabase)
    (input : CreatePluginIngressAuditEventInput) (now : Int) :
    Except String PluginIngressAuditEventRecord × IngressDatabase :=
  match validateAuditInput input with
  | .error message => (.error message, database)
  | .ok _ =>
    let initialized := database.initSchema
    let normalizedText := input.text.map (normalizeAuditText host)
    let record : PluginIngressAuditEventRecord :=
      { id := initialized.nextAuditEventId
        pluginId := input.pluginId
        sourceId := input.sourceId
        decision := input.decision
        externalMessageId := input.externalMessageId
        externalUserId := input.externalUserId
        conversationId := input.conversationId
        threadId := input.threadId
        success := input.success
        reason := input.reason
        textPreview := normalizedText.map Prod.fst
        textSha256 := normalizedText.map Prod.snd
        metadata := input.metadata.map stringifyMetadata
        createdAt := now }
    (.ok record,
      { initialized with
        auditEvents := initialized.auditEvents ++ [record]
        nextAuditEventId := initialized.nextAuditEventId + 1 })

def nextRowId (ids : List Nat) : Nat := ids.foldl max 0 + 1

/-- `code` is the code given or drawn at random. -/
def createPluginIngressLinkCode (host : StoreHost) (database : IngressDatabase)
    (input : CreatePluginIngressLinkCodeInput) (now : Int) :
    Except String (Text × PluginIngressLinkCodeRecord) × IngressDatabase :=
  match validatePluginSourceScope input.pluginId input.sourceId with
  | .error message => (.error message, database)
  | .ok _ =>
    let initialized := database.initSchema
    if !isPluginIngressLinkCode input.code then
      (.error "Invalid plugin ingress link code.", initialized)
    else if initialized.linkCodes.any fun record =>
        record.codeSha256 = host.sha256 input.code then
      (.error "UNIQUE constraint failed: plugin_ingress_link_codes.code_sha256", initialized)
    else
      let id := nextRowId (initialized.linkCodes.map PluginIngressLinkCodeRecord.id)
      let inserted : IngressDatabase :=
        { initialized with
          linkCodes := initialized.linkCodes ++
            [{ id
               pluginId := input.pluginId
               sourceId := input.sourceId
               codeSha256 := host.sha256 input.code
               expiresAt := now + input.ttlMs.getD pluginIngressLinkCodeTtlMs
               consumedAt := none
               consumedExternalUserId := none
               createdAt := now
               metidosUserId := input.metidosUserId }] }
      match inserted.createPluginIngressAuditEvent host
          (auditInput input.pluginId input.sourceId .linkCodeCreated true) now with
      | (.error message, later) => (.error message, later)
      | (.ok _, later) =>
        match later.linkCodes.find? fun record => record.id = id with
        | none => (.error "Failed to persist plugin ingress link code.", later)
        | some record => (.ok (input.code, record), later)

def findExternalBinding (database : IngressDatabase) (pluginId sourceId externalUserId : Text) :
    Option PluginIngressExternalBindingRecord :=
  database.externalBindings.find? fun record =>
    record.pluginId = pluginId ∧ record.sourceId = sourceId ∧
      record.externalUserId = externalUserId

def getPluginIngressExternalBinding (database : IngressDatabase)
    (pluginId sourceId externalUserId : Text) :
    Option PluginIngressExternalBindingRecord × IngressDatabase :=
  let initialized := database.initSchema
  (initialized.findExternalBinding pluginId sourceId externalUserId, initialized)

/-- `INSERT INTO plugin_ingress_external_bindings … ON CONFLICT DO UPDATE`. -/
def upsertExternalBinding (database : IngressDatabase) (pluginId sourceId externalUserId : Text)
    (metidosUserId : Option Int) (now : Int) : IngressDatabase :=
  { database with
    externalBindings :=
      match database.findExternalBinding pluginId sourceId externalUserId with
      | some existing =>
        database.externalBindings.map fun record =>
          if record.id = existing.id then
            { record with metidosUserId, enabled := true, updatedAt := now }
          else record
      | none => database.externalBindings ++
          [{ id := nextRowId (database.externalBindings.map PluginIngressExternalBindingRecord.id)
             pluginId
             sourceId
             externalUserId
             enabled := true
             createdAt := now
             updatedAt := now
             metidosUserId }] }

inductive LinkCodeRefusal
  | malformed
  | notFound
  | expired
  | consumed
  | ambiguous
  deriving DecidableEq

abbrev ConsumeResult := Except LinkCodeRefusal PluginIngressExternalBindingRecord

def consumePluginIngressLinkCodeRecord (host : StoreHost) (database : IngressDatabase)
    (externalUserId : Text) (record : PluginIngressLinkCodeRecord) (now : Int) :
    Except String ConsumeResult × IngressDatabase :=
  if record.consumedAt.isSome then (.ok (.error .consumed), database)
  else if record.expiresAt ≤ now then (.ok (.error .expired), database)
  else
    let marked : IngressDatabase :=
      { database with
        linkCodes := database.linkCodes.map fun row =>
          if row.id = record.id ∧ row.consumedAt = none then
            { row with consumedAt := some now, consumedExternalUserId := some externalUserId }
          else row }
    let bound := marked.upsertExternalBinding record.pluginId record.sourceId externalUserId
      record.metidosUserId now
    match bound.createPluginIngressAuditEvent host
        { auditInput record.pluginId record.sourceId .linkCodeUsed true with
          externalUserId := some externalUserId } now with
    | (.error message, _) => (.error message, database)
    | (.ok _, audited) =>
      match audited.getPluginIngressExternalBinding record.pluginId record.sourceId
          externalUserId with
      | (none, later) => (.error "Failed to create plugin ingress binding.", later)
      | (some binding, later) => (.ok (.ok binding), later)

def validateConsumer (pluginId sourceId externalUserId : Text) : Except String Unit := do
  validatePluginSourceScope pluginId sourceId
  validateExternalId "externalUserId" externalUserId

def linkCodesOf (database : IngressDatabase) (pluginId sourceId codeSha256 : Text) :
    List PluginIngressLinkCodeRecord :=
  database.linkCodes.filter fun record =>
    record.pluginId = pluginId ∧ record.sourceId = sourceId ∧ record.codeSha256 = codeSha256

def consumePluginIngressLinkCode (host : StoreHost) (database : IngressDatabase)
    (pluginId sourceId externalUserId code : Text) (now : Int) :
    Except String ConsumeResult × IngressDatabase :=
  match validateConsumer pluginId sourceId externalUserId with
  | .error message => (.error message, database)
  | .ok _ =>
    let initialized := database.initSchema
    if !isPluginIngressLinkCode code then (.ok (.error .malformed), initialized)
    else
      match initialized.linkCodesOf pluginId sourceId (host.sha256 code) with
      | [] => (.ok (.error .notFound), initialized)
      | record :: _ =>
        initialized.consumePluginIngressLinkCodeRecord host externalUserId record now

def consumePluginIngressLinkCodeForExternalUser (host : StoreHost) (database : IngressDatabase)
    (pluginId sourceId externalUserId code : Text) (now : Int) :
    Except String ConsumeResult × IngressDatabase :=
  match validateConsumer pluginId sourceId externalUserId with
  | .error message => (.error message, database)
  | .ok _ =>
    let initialized := database.initSchema
    let normalizedCode := toUpperCase (trim code)
    if !isPluginIngressLinkCode normalizedCode then (.ok (.error .malformed), initialized)
    else
      let rows := initialized.linkCodesOf pluginId sourceId (host.sha256 normalizedCode)
      match rows, rows.filter fun row => row.consumedAt.isNone && decide (now < row.expiresAt) with
      | [], _ => (.ok (.error .notFound), initialized)
      | _, [] =>
        (.ok (.error (if rows.all fun row => row.consumedAt.isSome then .consumed
          else .expired)), initialized)
      | _, [record] =>
        initialized.consumePluginIngressLinkCodeRecord host externalUserId record now
      | _, _ => (.ok (.error .ambiguous), initialized)

def maxSafeInteger : Int := 2 ^ 53 - 1

def getPluginIngressExternalBindingById (database : IngressDatabase) (id : Int) :
    Except String (Option PluginIngressExternalBindingRecord) × IngressDatabase :=
  let initialized := database.initSchema
  if id ≤ 0 ∨ maxSafeInteger < id then
    (.error "Invalid plugin ingress binding id.", initialized)
  else (.ok (initialized.externalBindings.find? fun record => record.id = id), initialized)

def changeExternalBinding (host : StoreHost) (database : IngressDatabase) (id : Int)
    (change : List PluginIngressExternalBindingRecord → List PluginIngressExternalBindingRecord)
    (reason : String) (now : Int) :
    Except String (Option PluginIngressExternalBindingRecord) × IngressDatabase :=
  match database.getPluginIngressExternalBindingById id with
  | (.error message, later) => (.error message, later)
  | (.ok none, later) => (.ok none, later)
  | (.ok (some binding), later) =>
    match createPluginIngressAuditEvent host
        { later with externalBindings := change later.externalBindings }
        { auditInput binding.pluginId binding.sourceId .bindingChanged true with
          externalUserId := some binding.externalUserId
          reason := some reason.toList } now with
    | (.error message, audited) => (.error message, audited)
    | (.ok _, audited) => (.ok (some binding), audited)

def setPluginIngressExternalBindingEnabled (host : StoreHost) (database : IngressDatabase)
    (id : Int) (enabled : Bool) (now : Int) :
    Except String (Option PluginIngressExternalBindingRecord) × IngressDatabase :=
  match database.changeExternalBinding host id
      (fun records => records.map fun record =>
        if (record.id : Int) = id then { record with enabled, updatedAt := now } else record)
      (if enabled then "enabled" else "disabled") now with
  | (.ok (some _), later) => later.getPluginIngressExternalBindingById id
  | unchanged => unchanged

def deletePluginIngressExternalBinding (host : StoreHost) (database : IngressDatabase) (id : Int)
    (now : Int) :
    Except String (Option PluginIngressExternalBindingRecord) × IngressDatabase :=
  database.changeExternalBinding host id
    (fun records => records.filter fun record => (record.id : Int) ≠ id) "removed" now

def findRouteConfig (database : IngressDatabase) (pluginId sourceId : Text) :
    Option PluginIngressRouteConfigRecord :=
  database.routeConfigs.find? fun record =>
    record.pluginId = pluginId ∧ record.sourceId = sourceId

def validateRouteInput (input : UpsertPluginIngressRouteConfigInput) : Except String Unit := do
  validatePluginSourceScope input.pluginId input.sourceId
  if input.projectId ≤ 0 ∨ maxSafeInteger < input.projectId then
    .error "Invalid ingress route project id."
  else if trim input.worktreePath = [] then
    .error "Ingress route worktree path is required."
  else .ok ()

def normalizePermissions (host : StoreHost) (permissions : List Text) : List Text :=
  ((permissions.map trim).reverse.dedup.reverse.filter (· ≠ [])).mergeSort host.localeLe

def normalizeModel (model : Option Text) : Option Text := (model.map trim).filter (· ≠ [])

def insertRouteConfig (host : StoreHost) (database : IngressDatabase)
    (input : UpsertPluginIngressRouteConfigInput) (now : Int) : IngressDatabase :=
  match database.findRouteConfig input.pluginId input.sourceId with
  | some existing =>
    { database with
      routeConfigs := database.routeConfigs.map fun record =>
        if record.id = existing.id then
          { record with
            projectId := input.projectId.toNat
            worktreePath := trim input.worktreePath
            model := normalizeModel input.model
            permissions := normalizePermissions host input.permissions
            enabled := input.enabled
            updatedAt := now }
        else record }
  | none =>
    { database with
      routeConfigs := database.routeConfigs ++
        [{ id := database.nextRouteConfigId
           pluginId := input.pluginId
           sourceId := input.sourceId
           projectId := input.projectId.toNat
           worktreePath := trim input.worktreePath
           model := normalizeModel input.model
           permissions := normalizePermissions host input.permissions
           enabled := input.enabled
           createdAt := now
           updatedAt := now }]
      nextRouteConfigId := database.nextRouteConfigId + 1 }

def upsertPluginIngressRouteConfig (host : StoreHost) (database : IngressDatabase)
    (input : UpsertPluginIngressRouteConfigInput) (now : Int) :
    Except String PluginIngressRouteConfigRecord × IngressDatabase :=
  match validateRouteInput input with
  | .error message => (.error message, database)
  | .ok _ =>
    let read := (database.initSchema.insertRouteConfig host input now).initSchema
    match read.findRouteConfig input.pluginId input.sourceId with
    | none => (.error "Failed to persist plugin ingress route config.", read)
    | some route =>
      match read.createPluginIngressAuditEvent host
          { auditInput input.pluginId input.sourceId .bindingChanged true with
            reason := some "route_config_updated".toList
            metadata := some
              [("projectId", .number input.projectId),
                ("worktreePath", .text (trim input.worktreePath)),
                ("model", (normalizeModel input.model).elim .null .text),
                ("permissions", .texts (normalizePermissions host input.permissions))] }
          now with
      | (.error message, later) => (.error message, later)
      | (.ok _, later) => (.ok route, later)

end IngressDatabase

/-- The exported operations; those that only read the tables run the initialiser too. -/
inductive StoreEvent
  | read
  | persistMessage (input : PersistPluginIngressMessageInput) (now : Int)
  | markProcessed (pluginId sourceId externalMessageId : Text) (threadId : Nat)
      (routingMetadata : Metadata) (now : Int)
  | markFailed (pluginId sourceId externalMessageId reason : Text) (threadId : Option Nat)
      (errorMetadata : Metadata) (now : Int)
  | createAuditEvent (input : CreatePluginIngressAuditEventInput) (now : Int)
  | createLinkCode (input : CreatePluginIngressLinkCodeInput) (now : Int)
  | consumeLinkCode (pluginId sourceId externalUserId code : Text) (now : Int)
  | consumeLinkCodeForExternalUser (pluginId sourceId externalUserId code : Text) (now : Int)
  | setExternalBindingEnabled (id : Int) (enabled : Bool) (now : Int)
  | deleteExternalBinding (id : Int) (now : Int)
  | upsertRouteConfig (input : UpsertPluginIngressRouteConfigInput) (now : Int)
  | cleanup (now : Int)
  deriving DecidableEq

open IngressDatabase in
def storeStep (host : StoreHost) (database : IngressDatabase) : StoreEvent → Option IngressDatabase
  | .read => some database.initSchema
  | .persistMessage input now => some (database.persistPluginIngressMessage input now).2
  | .markProcessed pluginId sourceId externalMessageId threadId routingMetadata now =>
    some (database.markPluginIngressMessageProcessed pluginId sourceId externalMessageId threadId
      routingMetadata now).2
  | .markFailed pluginId sourceId externalMessageId reason threadId errorMetadata now =>
    some (database.markPluginIngressMessageFailed pluginId sourceId externalMessageId reason
      threadId errorMetadata now).2
  | .createAuditEvent input now => some (database.createPluginIngressAuditEvent host input now).2
  | .createLinkCode input now => some (database.createPluginIngressLinkCode host input now).2
  | .consumeLinkCode pluginId sourceId externalUserId code now =>
    some (database.consumePluginIngressLinkCode host pluginId sourceId externalUserId code now).2
  | .consumeLinkCodeForExternalUser pluginId sourceId externalUserId code now =>
    some (database.consumePluginIngressLinkCodeForExternalUser host pluginId sourceId
      externalUserId code now).2
  | .setExternalBindingEnabled id enabled now =>
    some (database.setPluginIngressExternalBindingEnabled host id enabled now).2
  | .deleteExternalBinding id now =>
    some (database.deletePluginIngressExternalBinding host id now).2
  | .upsertRouteConfig input now =>
    some (database.upsertPluginIngressRouteConfig host input now).2
  | .cleanup now => some (database.cleanupPluginIngressMessages now)

end Metidos.Ingress
