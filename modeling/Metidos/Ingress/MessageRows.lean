import Metidos.Ingress.IngressOperations
import Metidos.Library.OrderedMap
import Metidos.Library.Transition

/-!
The store operations that concern other tables than the messages and the rate-limit markers.
-/

namespace Metidos.Ingress

open IngressDatabase

structure LeavesMessages (before after : IngressDatabase) : Prop where
  messages : after.messages = before.messages
  next : after.nextMessageId = before.nextMessageId
  markers : after.rateLimitMarkers = before.rateLimitMarkers

variable {before middle after database : IngressDatabase} {host : StoreHost}

theorem LeavesMessages.refl (database : IngressDatabase) : LeavesMessages database database :=
  ⟨rfl, rfl, rfl⟩

theorem LeavesMessages.trans (first : LeavesMessages before middle)
    (second : LeavesMessages middle after) : LeavesMessages before after :=
  ⟨second.messages.trans first.messages, second.next.trans first.next,
    second.markers.trans first.markers⟩

theorem initSchema_leaves (database : IngressDatabase) :
    LeavesMessages database database.initSchema := ⟨rfl, rfl, rfl⟩

theorem auditEvent_leaves (database : IngressDatabase)
    (input : CreatePluginIngressAuditEventInput) (now : Int) :
    LeavesMessages database (database.createPluginIngressAuditEvent host input now).2 := by
  rw [createPluginIngressAuditEvent]
  split
  · exact .refl database
  · exact ⟨rfl, rfl, rfl⟩

theorem createLinkCode_leaves (database : IngressDatabase)
    (input : CreatePluginIngressLinkCodeInput) (now : Int) :
    LeavesMessages database (database.createPluginIngressLinkCode host input now).2 := by
  rw [createPluginIngressLinkCode]
  split
  · exact .refl database
  · simp only
    split
    · exact initSchema_leaves database
    · split
      · exact initSchema_leaves database
      · generalize making : IngressDatabase.mk _ _ _ _ _ _ _ _ _ _ = inserted
        have leaves : LeavesMessages database inserted := making ▸ ⟨rfl, rfl, rfl⟩
        have audited := leaves.trans (@auditEvent_leaves host inserted
          (auditInput input.pluginId input.sourceId .linkCodeCreated true) now)
        split
        · rename_i later found
          exact congrArg Prod.snd found ▸ audited
        · rename_i later found
          have same : _ = later := congrArg Prod.snd found
          split
          · exact same ▸ audited
          · exact same ▸ audited

theorem consumeRecord_leaves (database : IngressDatabase) (externalUserId : Text)
    (record : PluginIngressLinkCodeRecord) (now : Int) :
    LeavesMessages database
      (database.consumePluginIngressLinkCodeRecord host externalUserId record now).2 := by
  rw [consumePluginIngressLinkCodeRecord]
  split
  · exact .refl database
  · split
    · exact .refl database
    · simp only
      generalize making : upsertExternalBinding _ _ _ _ _ _ = bound
      have leaves : LeavesMessages database bound := making ▸ ⟨rfl, rfl, rfl⟩
      split
      · exact .refl database
      · rename_i audit audited found
        have same : _ = audited := congrArg Prod.snd found
        have written := same ▸ leaves.trans (auditEvent_leaves bound _ now)
        have read := written.trans (initSchema_leaves audited)
        split
        · rename_i later found
          exact congrArg Prod.snd found ▸ read
        · rename_i later found
          exact congrArg Prod.snd found ▸ read

theorem consumeLinkCode_leaves (database : IngressDatabase)
    (pluginId sourceId externalUserId code : Text) (now : Int) :
    LeavesMessages database (database.consumePluginIngressLinkCode host pluginId sourceId
      externalUserId code now).2 := by
  rw [consumePluginIngressLinkCode]
  split
  · exact .refl database
  · simp only
    split
    · exact initSchema_leaves database
    · split
      · exact initSchema_leaves database
      · exact (initSchema_leaves database).trans (consumeRecord_leaves _ _ _ now)

theorem consumeForExternalUser_leaves (database : IngressDatabase)
    (pluginId sourceId externalUserId code : Text) (now : Int) :
    LeavesMessages database (database.consumePluginIngressLinkCodeForExternalUser host pluginId
      sourceId externalUserId code now).2 := by
  rw [consumePluginIngressLinkCodeForExternalUser]
  split
  · exact .refl database
  · simp only
    split
    · exact initSchema_leaves database
    · split
      · exact initSchema_leaves database
      · exact initSchema_leaves database
      · exact (initSchema_leaves database).trans (consumeRecord_leaves _ _ _ now)
      · exact initSchema_leaves database

theorem getBindingById_leaves (database : IngressDatabase) (id : Int) :
    LeavesMessages database (database.getPluginIngressExternalBindingById id).2 := by
  rw [getPluginIngressExternalBindingById]
  split
  · exact initSchema_leaves database
  · exact initSchema_leaves database

theorem changeBinding_leaves (database : IngressDatabase) (id : Int)
    (change : List PluginIngressExternalBindingRecord → List PluginIngressExternalBindingRecord)
    (reason : String) (now : Int) :
    LeavesMessages database (database.changeExternalBinding host id change reason now).2 := by
  have read := getBindingById_leaves database id
  rw [changeExternalBinding]
  split
  · rename_i later found
    exact congrArg Prod.snd found ▸ read
  · rename_i later found
    exact congrArg Prod.snd found ▸ read
  · rename_i binding later found
    have same : _ = later := congrArg Prod.snd found
    rw [same] at read
    have changed : LeavesMessages database
        { later with externalBindings := change later.externalBindings } :=
      read.trans ⟨rfl, rfl, rfl⟩
    split
    · rename_i audited written
      exact congrArg Prod.snd written ▸ changed.trans (auditEvent_leaves _ _ now)
    · rename_i audited written
      exact congrArg Prod.snd written ▸ changed.trans (auditEvent_leaves _ _ now)

theorem setBindingEnabled_leaves (database : IngressDatabase) (id : Int) (enabled : Bool)
    (now : Int) :
    LeavesMessages database
      (database.setPluginIngressExternalBindingEnabled host id enabled now).2 := by
  have changed : ∀ change reason,
      LeavesMessages database (database.changeExternalBinding host id change reason now).2 :=
    fun change reason => changeBinding_leaves database id change reason now
  rw [setPluginIngressExternalBindingEnabled]
  split
  · rename_i binding later found
    have same : _ = later := congrArg Prod.snd found
    exact (same ▸ changed _ _).trans (getBindingById_leaves later id)
  · exact changed _ _

theorem upsertRouteConfig_leaves (database : IngressDatabase)
    (input : UpsertPluginIngressRouteConfigInput) (now : Int) :
    LeavesMessages database (database.upsertPluginIngressRouteConfig host input now).2 := by
  rw [upsertPluginIngressRouteConfig]
  split
  · exact .refl database
  · simp only
    generalize making : initSchema (insertRouteConfig _ _ _ _) = read
    have inserted : LeavesMessages database read := by
      rw [← making, insertRouteConfig]
      split
      · exact ⟨rfl, rfl, rfl⟩
      · exact ⟨rfl, rfl, rfl⟩
    split
    · exact inserted
    · split
      · rename_i later written
        exact congrArg Prod.snd written ▸ inserted.trans (auditEvent_leaves _ _ now)
      · rename_i later written
        exact congrArg Prod.snd written ▸ inserted.trans (auditEvent_leaves _ _ now)

def StoreEvent.isQuiet : StoreEvent → Bool
  | .persistMessage _ _ | .markProcessed _ _ _ _ _ _ | .markFailed _ _ _ _ _ _ _ | .cleanup _ =>
    false
  | _ => true

theorem storeStep_leaves {event : StoreEvent} (quiet : event.isQuiet = true)
    (step : storeStep host before event = some after) : LeavesMessages before after := by
  cases event with
  | read =>
    cases step
    exact initSchema_leaves before
  | createAuditEvent input now =>
    cases step
    exact auditEvent_leaves before input now
  | createLinkCode input now =>
    cases step
    exact createLinkCode_leaves before input now
  | consumeLinkCode pluginId sourceId externalUserId code now =>
    cases step
    exact consumeLinkCode_leaves ..
  | consumeLinkCodeForExternalUser pluginId sourceId externalUserId code now =>
    cases step
    exact consumeForExternalUser_leaves ..
  | setExternalBindingEnabled id enabled now =>
    cases step
    exact setBindingEnabled_leaves ..
  | deleteExternalBinding id now =>
    cases step
    exact changeBinding_leaves ..
  | upsertRouteConfig input now =>
    cases step
    exact upsertRouteConfig_leaves before input now
  | persistMessage | markProcessed | markFailed | cleanup =>
    exact absurd quiet Bool.false_ne_true

def redactOld (now : Int) (row : PluginIngressMessageRecord) : PluginIngressMessageRecord :=
  if row.messageText.isSome ∧ row.receivedAt < now - pluginIngressTextRetentionMs then
    { row with messageText := none, messageTextRedactedAt := some now }
  else row

def IngressDatabase.cleaned (database : IngressDatabase) (now : Int) : IngressDatabase :=
  database.initSchema.maybeCleanupPluginIngressMessages now

end Metidos.Ingress
