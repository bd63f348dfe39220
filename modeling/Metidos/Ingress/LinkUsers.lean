import Metidos.Ingress.IngressOperations

/-!
The initialiser leaves the ingress tables as they are exactly when no row records a user, and a
link code keeps its user exactly when it has none.
-/

namespace Metidos.Ingress

open IngressDatabase SqlTables Transition

structure NoUsers (database : IngressDatabase) : Prop where
  linkCodes : ∀ record ∈ database.linkCodes, record.metidosUserId = none
  externalBindings : ∀ record ∈ database.externalBindings, record.metidosUserId = none

variable {database later : IngressDatabase} {host : StoreHost}

theorem initSchema_noUsers (database : IngressDatabase) : NoUsers database.initSchema := by
  refine ⟨?_, ?_⟩
  · intro record member
    obtain ⟨before, -, rfl⟩ := List.mem_map.mp member
    rfl
  · intro record member
    obtain ⟨before, -, rfl⟩ := List.mem_map.mp member
    rfl

theorem NoUsers.same (free : NoUsers database) (codes : later.linkCodes = database.linkCodes)
    (bindings : later.externalBindings = database.externalBindings) : NoUsers later :=
  ⟨fun record member => free.linkCodes record (codes ▸ member),
    fun record member => free.externalBindings record (bindings ▸ member)⟩

theorem auditEvent_noUsers (free : NoUsers database)
    (input : CreatePluginIngressAuditEventInput) (now : Int) :
    NoUsers (database.createPluginIngressAuditEvent host input now).2 := by
  rw [createPluginIngressAuditEvent]
  split
  · exact free
  · exact (initSchema_noUsers database).same rfl rfl

theorem auditEvent_initializes {input : CreatePluginIngressAuditEventInput} {now : Int}
    {record : PluginIngressAuditEventRecord}
    (written : (database.createPluginIngressAuditEvent host input now).1 = .ok record) :
    NoUsers (database.createPluginIngressAuditEvent host input now).2 := by
  rw [createPluginIngressAuditEvent] at written ⊢
  split
  · rename_i refused
    simp [refused] at written
  · exact (initSchema_noUsers database).same rfl rfl

theorem cleanup_noUsers (database : IngressDatabase) (now : Int) :
    NoUsers (database.cleanupPluginIngressMessages now) :=
  (initSchema_noUsers database).same rfl rfl

theorem maybeCleanup_noUsers (free : NoUsers database) (now : Int) :
    NoUsers (database.maybeCleanupPluginIngressMessages now) := by
  rw [maybeCleanupPluginIngressMessages]
  split
  · exact free
  · exact (cleanup_noUsers database now).same rfl rfl

theorem persistMessage_noUsers (free : NoUsers database)
    (input : PersistPluginIngressMessageInput) (now : Int) :
    NoUsers (database.persistPluginIngressMessage input now).2 := by
  rw [persistPluginIngressMessage]
  split
  · exact free
  · have cleaned := maybeCleanup_noUsers (initSchema_noUsers database) now
    simp only
    split
    · exact cleaned.same rfl rfl
    · exact initSchema_noUsers _

theorem markProcessed_noUsers (database : IngressDatabase)
    (pluginId sourceId externalMessageId : Text) (threadId : Nat) (metadata : Metadata)
    (now : Int) :
    NoUsers (database.markPluginIngressMessageProcessed pluginId sourceId externalMessageId
      threadId metadata now).2 := by
  rw [markPluginIngressMessageProcessed]
  split
  · rename_i after found
    have same : _ = after := congrArg Prod.snd found
    exact same ▸ initSchema_noUsers _
  · rename_i after found
    have same : _ = after := congrArg Prod.snd found
    exact same ▸ initSchema_noUsers _

theorem markFailed_noUsers (database : IngressDatabase)
    (pluginId sourceId externalMessageId reason : Text) (threadId : Option Nat)
    (metadata : Metadata) (now : Int) :
    NoUsers (database.markPluginIngressMessageFailed pluginId sourceId externalMessageId reason
      threadId metadata now).2 :=
  initSchema_noUsers _

theorem validateAuditInput_of_scope {pluginId sourceId : Text}
    (valid : validatePluginSourceScope pluginId sourceId = .ok ())
    (decision : PluginIngressAuditDecision) (success : Bool) :
    validateAuditInput (auditInput pluginId sourceId decision success) = .ok () := by
  simp only [validateAuditInput, auditInput, valid, validateOptionalId]
  rfl

theorem createLinkCode_audits {input : CreatePluginIngressLinkCodeInput} {now : Int}
    (valid : validatePluginSourceScope input.pluginId input.sourceId = .ok ())
    (inserted : IngressDatabase) :
    ∃ record, (inserted.createPluginIngressAuditEvent host
      (auditInput input.pluginId input.sourceId .linkCodeCreated true) now).1 = .ok record := by
  rw [createPluginIngressAuditEvent, validateAuditInput_of_scope valid]
  exact ⟨_, rfl⟩

theorem createLinkCode_noUsers (free : NoUsers database) (input : CreatePluginIngressLinkCodeInput)
    (now : Int) : NoUsers (database.createPluginIngressLinkCode host input now).2 := by
  rw [createPluginIngressLinkCode]
  split
  · exact free
  · rename_i valid
    simp only
    split
    · exact initSchema_noUsers database
    · split
      · exact initSchema_noUsers database
      · generalize IngressDatabase.mk _ _ _ _ _ _ _ _ _ _ = inserted
        obtain ⟨record, written⟩ := @createLinkCode_audits host input now valid inserted
        have audited := auditEvent_initializes written
        split
        · rename_i refused
          rw [refused] at written
          exact absurd written (by simp)
        · rename_i later found
          have same : _ = later := congrArg Prod.snd found
          rw [same] at audited
          split
          · exact audited
          · exact audited

theorem consumeRecord_noUsers (free : NoUsers database) (externalUserId : Text)
    (record : PluginIngressLinkCodeRecord) (now : Int) :
    NoUsers (database.consumePluginIngressLinkCodeRecord host externalUserId record now).2 := by
  rw [consumePluginIngressLinkCodeRecord]
  split
  · exact free
  · split
    · exact free
    · simp only
      split
      · exact free
      · rename_i audit audited found
        split
        · rename_i later read
          have same : _ = later := congrArg Prod.snd read
          exact same ▸ initSchema_noUsers _
        · rename_i binding later read
          have same : _ = later := congrArg Prod.snd read
          exact same ▸ initSchema_noUsers _

theorem consumeLinkCode_noUsers (free : NoUsers database)
    (pluginId sourceId externalUserId code : Text) (now : Int) :
    NoUsers (database.consumePluginIngressLinkCode host pluginId sourceId externalUserId code
      now).2 := by
  rw [consumePluginIngressLinkCode]
  split
  · exact free
  · simp only
    split
    · exact initSchema_noUsers database
    · split
      · exact initSchema_noUsers database
      · exact consumeRecord_noUsers (initSchema_noUsers database) ..

theorem consumeForExternalUser_noUsers (free : NoUsers database)
    (pluginId sourceId externalUserId code : Text) (now : Int) :
    NoUsers (database.consumePluginIngressLinkCodeForExternalUser host pluginId sourceId
      externalUserId code now).2 := by
  rw [consumePluginIngressLinkCodeForExternalUser]
  split
  · exact free
  · simp only
    split
    · exact initSchema_noUsers database
    · split
      · exact initSchema_noUsers database
      · exact initSchema_noUsers database
      · exact consumeRecord_noUsers (initSchema_noUsers database) ..
      · exact initSchema_noUsers database

theorem getBindingById_noUsers (database : IngressDatabase) (id : Int) :
    NoUsers (database.getPluginIngressExternalBindingById id).2 := by
  rw [getPluginIngressExternalBindingById]
  split
  · exact initSchema_noUsers database
  · exact initSchema_noUsers database

theorem changeBinding_noUsers
    {change : List PluginIngressExternalBindingRecord → List PluginIngressExternalBindingRecord}
    (keeps : ∀ records, (∀ record ∈ records, record.metidosUserId = none) →
      ∀ record ∈ change records, record.metidosUserId = none)
    (database : IngressDatabase) (id : Int) (reason : String) (now : Int) :
    NoUsers (database.changeExternalBinding host id change reason now).2 := by
  have read := getBindingById_noUsers database id
  rw [changeExternalBinding]
  split
  · rename_i later found
    exact congrArg Prod.snd found ▸ read
  · rename_i later found
    exact congrArg Prod.snd found ▸ read
  · rename_i binding later found
    have same : _ = later := congrArg Prod.snd found
    rw [same] at read
    have changed : NoUsers { later with externalBindings := change later.externalBindings } :=
      ⟨read.linkCodes, keeps later.externalBindings read.externalBindings⟩
    split
    · rename_i audited written
      exact congrArg Prod.snd written ▸ auditEvent_noUsers changed ..
    · rename_i audited written
      exact congrArg Prod.snd written ▸ auditEvent_noUsers changed ..

theorem setBindingEnabled_noUsers (database : IngressDatabase) (id : Int) (enabled : Bool)
    (now : Int) :
    NoUsers (database.setPluginIngressExternalBindingEnabled host id enabled now).2 := by
  rw [setPluginIngressExternalBindingEnabled]
  split
  · exact getBindingById_noUsers ..
  · apply changeBinding_noUsers
    intro records free record member
    obtain ⟨before, isBefore, rfl⟩ := List.mem_map.mp member
    split
    · exact free before isBefore
    · exact free before isBefore

theorem deleteBinding_noUsers (database : IngressDatabase) (id now : Int) :
    NoUsers (database.deletePluginIngressExternalBinding host id now).2 := by
  rw [deletePluginIngressExternalBinding]
  apply changeBinding_noUsers
  intro records free record member
  exact free record (List.mem_of_mem_filter member)

theorem upsertRouteConfig_noUsers (free : NoUsers database)
    (input : UpsertPluginIngressRouteConfigInput) (now : Int) :
    NoUsers (database.upsertPluginIngressRouteConfig host input now).2 := by
  rw [upsertPluginIngressRouteConfig]
  split
  · exact free
  · simp only
    split
    · exact initSchema_noUsers _
    · split
      · rename_i later written
        exact congrArg Prod.snd written ▸ auditEvent_noUsers (initSchema_noUsers _) ..
      · rename_i later written
        exact congrArg Prod.snd written ▸ auditEvent_noUsers (initSchema_noUsers _) ..

theorem storeStep_noUsers {event : StoreEvent} (free : NoUsers database)
    (step : storeStep host database event = some later) : NoUsers later := by
  cases event with
  | read =>
    cases step
    exact initSchema_noUsers database
  | persistMessage input now =>
    cases step
    exact persistMessage_noUsers free input now
  | markProcessed pluginId sourceId externalMessageId threadId routingMetadata now =>
    cases step
    exact markProcessed_noUsers ..
  | markFailed pluginId sourceId externalMessageId reason threadId errorMetadata now =>
    cases step
    exact markFailed_noUsers ..
  | createAuditEvent input now =>
    cases step
    exact auditEvent_noUsers free input now
  | createLinkCode input now =>
    cases step
    exact createLinkCode_noUsers free input now
  | consumeLinkCode pluginId sourceId externalUserId code now =>
    cases step
    exact consumeLinkCode_noUsers free ..
  | consumeLinkCodeForExternalUser pluginId sourceId externalUserId code now =>
    cases step
    exact consumeForExternalUser_noUsers free ..
  | setExternalBindingEnabled id enabled now =>
    cases step
    exact setBindingEnabled_noUsers ..
  | deleteExternalBinding id now =>
    cases step
    exact deleteBinding_noUsers ..
  | upsertRouteConfig input now =>
    cases step
    exact upsertRouteConfig_noUsers free input now
  | cleanup now =>
    cases step
    exact cleanup_noUsers database now

theorem reaches_noUsers (free : NoUsers database)
    (reached : Reaches (storeStep host) Unrestricted database later) : NoUsers later :=
  reached.invariant NoUsers free fun _ _ _ still _ step => storeStep_noUsers still step

theorem createLinkCode_record {input : CreatePluginIngressLinkCodeInput} {now : Int} {code : Text}
    {record : PluginIngressLinkCodeRecord}
    (created : database.createPluginIngressLinkCode host input now = (.ok (code, record), later)) :
    NoUsers later ∧ record ∈ later.linkCodes := by
  rw [createPluginIngressLinkCode] at created
  split at created
  · simp at created
  · rename_i valid
    simp only at created
    split at created
    · simp at created
    · split at created
      · simp at created
      · generalize IngressDatabase.mk _ _ _ _ _ _ _ _ _ _ = inserted at created
        obtain ⟨audit, written⟩ := @createLinkCode_audits host input now valid inserted
        have audited := auditEvent_initializes written
        split at created
        · simp at created
        · rename_i after found
          have same : _ = after := congrArg Prod.snd found
          rw [same] at audited
          split at created
          · simp at created
          · rename_i row read
            simp only [Prod.mk.injEq, Except.ok.injEq] at created
            obtain ⟨⟨-, rfl⟩, rfl⟩ := created
            exact ⟨audited, List.mem_of_find?_eq_some read⟩

/-- Another run of the initialiser at the current schema leaves all tables as they are exactly
when no row records a user, and a new link code carries its user, now and after any operations,
exactly when it has none. -/
theorem ingressSchema_preserves_iff (host : StoreHost) :
    (∀ database : SqlDatabase, AtCurrentSchema database →
      ((∀ name ∈ ingressTables,
        (initPluginIngressMessageSchema database).table name = database.table name) ↔
        UserFree database)) ∧
    ∀ (database after : IngressDatabase) (input : CreatePluginIngressLinkCodeInput) (now : Int)
      (code : Text) (record : PluginIngressLinkCodeRecord),
      database.createPluginIngressLinkCode host input now = (.ok (code, record), after) →
      ((record.metidosUserId = input.metidosUserId ∧
        ∀ later, Reaches (storeStep host) Unrestricted after later →
          ∀ row ∈ later.linkCodes, row.id = record.id →
            row.metidosUserId = input.metidosUserId) ↔
        input.metidosUserId = none) := by
  constructor
  · intro database current
    exact init_preserves_iff current
  · intro database after input now code record created
    obtain ⟨free, stored⟩ := createLinkCode_record created
    have emptied := free.linkCodes record stored
    constructor
    · rintro ⟨carried, -⟩
      exact carried.symm.trans emptied
    · intro none
      refine ⟨emptied.trans none.symm, ?_⟩
      intro later reached row member _
      exact ((reaches_noUsers free reached).linkCodes row member).trans none.symm

def plainHost : StoreHost where
  sha256 := id
  localeLe _ _ := true

def codeOfSeven : CreatePluginIngressLinkCodeInput where
  pluginId := "chat".toList
  sourceId := "inbox".toList
  metidosUserId := some 7
  code := "ABCD1234".toList
  ttlMs := none

def withSeven : IngressDatabase :=
  { empty with
    linkCodes :=
      [{ id := 1
         pluginId := "chat".toList
         sourceId := "inbox".toList
         codeSha256 := "ABCD1234".toList
         expiresAt := 600000
         consumedAt := none
         consumedExternalUserId := none
         createdAt := 0
         metidosUserId := some 7 }] }

theorem ingressSchema_preserves_iff_seven :
    ((∀ name ∈ ingressTables,
      (initPluginIngressMessageSchema withSeven.encode).table name =
        withSeven.encode.table name) ↔ UserFree withSeven.encode) ∧
    ∃ code record after,
      createPluginIngressLinkCode plainHost empty codeOfSeven 0 = (.ok (code, record), after) ∧
      ((record.metidosUserId = some 7 ∧
        ∀ later, Reaches (storeStep plainHost) Unrestricted after later →
          ∀ row ∈ later.linkCodes, row.id = record.id → row.metidosUserId = some 7) ↔
        (some 7 : Option Int) = none) := by
  constructor
  · exact (ingressSchema_preserves_iff plainHost).1 withSeven.encode withSeven.encode_atCurrentSchema
  · refine ⟨_, _, _, rfl, ?_⟩
    exact (ingressSchema_preserves_iff plainHost).2 empty _ codeOfSeven 0 _ _ rfl

/-- The initialiser changes the link code that records user 7, and creating such a code returns
and stores one without a user. -/
theorem linkCode_loses_user :
    (initPluginIngressMessageSchema withSeven.encode).table linkCodeTable ≠
      withSeven.encode.table linkCodeTable ∧
    ∃ code record after,
      createPluginIngressLinkCode plainHost empty codeOfSeven 0 = (.ok (code, record), after) ∧
        record ∈ after.linkCodes ∧ codeOfSeven.metidosUserId = some 7 ∧
        record.metidosUserId = none := by
  constructor
  · rw [init_encode]
    decide
  · refine ⟨_, _, _, rfl, ?_⟩
    decide

end Metidos.Ingress
