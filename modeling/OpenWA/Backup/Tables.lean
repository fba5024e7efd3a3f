import OpenWA.Sqlite.Table

/-!
This module contains the tables of the data database: their names, the columns and constraints the
migrations give them on SQLite, and the columns TypeORM binds as a `datetime` there.
-/

namespace OpenWA.Backup

open Sqlite

/-- The keys of `MigrationTables`. -/
inductive TableKey where
  | sessions
  | webhooks
  | messages
  | messageBatches
  | templates
  | baileysStoredMessages
  | lidMappings
  | chatStates
  | pluginInstances
  | conversationMappings
  | ingressEvents
  | webhookDeliveryFailures
  | webhookOutboxEvents
  | integrationDeliveryFailures
  | statusUpdates
  | automationRules
deriving DecidableEq

def TableKey.all : List TableKey :=
  [.sessions, .webhooks, .messages, .messageBatches, .templates, .baileysStoredMessages,
    .lidMappings, .chatStates, .pluginInstances, .conversationMappings, .ingressEvents,
    .webhookDeliveryFailures, .webhookOutboxEvents, .integrationDeliveryFailures, .statusUpdates,
    .automationRules]

theorem TableKey.mem_all (key : TableKey) : key ∈ TableKey.all := by
  cases key <;> decide

theorem TableKey.nodup_all : TableKey.all.Nodup := by
  decide

section Columns

/-- `varchar` and `text`. -/
def text (name : String) : Column := ⟨name, .text, false, .literal .null⟩

/-- `integer`, `bigint`, `boolean` and `datetime`. -/
def numeric (name : String) : Column := ⟨name, .numeric, false, .literal .null⟩

def required (column : Column) : Column := { column with notNull := true }

/-- A `NOT NULL` column with a `DEFAULT`. -/
def withDefault (column : Column) (cell : Cell) : Column :=
  { column with notNull := true, default := .literal cell }

/-- `"…" datetime NOT NULL DEFAULT (datetime('now'))` -/
def stamp (name : String) : Column := ⟨name, .numeric, true, .datetimeNow⟩

end Columns

/-- `REFERENCES "sessions" ("id") ON DELETE CASCADE` -/
def ofSession : Reference TableKey := ⟨"sessionId", .sessions, "id"⟩

def schema (key : TableKey) : Schema TableKey :=
  match key with
  | .sessions =>
    ⟨"sessions",
      [required (text "id"), required (text "name"), withDefault (text "status") (.text "created"),
        text "phone", text "pushName", withDefault (text "config") (.text "\x7b\x7d"),
        text "proxyUrl", text "proxyType", numeric "connectedAt", numeric "lastActiveAt",
        stamp "createdAt", stamp "updatedAt", text "nodeId", numeric "claimedAt",
        numeric "leaseExpiresAt", text "nodeUrl"],
      [["id"], ["name"]], []⟩
  | .webhooks =>
    ⟨"webhooks",
      [required (text "id"), required (text "sessionId"), required (text "url"),
        withDefault (text "events") (.text "[\"message.received\"]"), text "secret",
        withDefault (text "headers") (.text "\x7b\x7d"), withDefault (numeric "active") (.number 1),
        withDefault (numeric "retryCount") (.number 3), numeric "lastTriggeredAt",
        stamp "createdAt", stamp "updatedAt", text "filters"],
      [["id"]], [ofSession]⟩
  | .messages =>
    ⟨"messages",
      [required (text "id"), required (text "sessionId"), text "waMessageId",
        required (text "chatId"), required (text "from"), required (text "to"), text "body",
        withDefault (text "type") (.text "text"),
        withDefault (text "direction") (.text "outgoing"), numeric "timestamp", text "metadata",
        withDefault (text "status") (.text "sent"), stamp "createdAt", text "chatName",
        text "author", text "mediaPath", text "mediaMimetype"],
      [["id"], ["sessionId", "waMessageId"]], []⟩
  | .messageBatches =>
    ⟨"message_batches",
      [required (text "id"), required (text "batch_id"), required (text "session_id"),
        withDefault (text "status") (.text "pending"), required (text "messages"), text "options",
        text "progress", text "results", withDefault (numeric "current_index") (.number 0),
        stamp "created_at", stamp "updated_at", numeric "started_at", numeric "completed_at"],
      [["id"], ["session_id", "batch_id"]], []⟩
  | .templates =>
    ⟨"templates",
      [required (text "id"), required (text "sessionId"), required (text "name"),
        required (text "body"), text "header", text "footer", stamp "createdAt",
        stamp "updatedAt"],
      [["id"], ["sessionId", "name"]], [ofSession]⟩
  | .baileysStoredMessages =>
    ⟨"baileys_stored_messages",
      [required (text "id"), required (text "sessionId"), required (text "waMessageId"),
        required (text "serializedMessage"), stamp "createdAt"],
      [["id"], ["sessionId", "waMessageId"]], [ofSession]⟩
  | .lidMappings =>
    ⟨"lid_mappings",
      [required (text "lid"), text "phone", text "sessionId", stamp "updatedAt"],
      [["lid"]], []⟩
  | .chatStates =>
    ⟨"chat_states",
      [required (text "sessionId"), required (text "chatId"), numeric "muteEndTime",
        withDefault (numeric "archived") (.number 0), withDefault (numeric "pinned") (.number 0),
        stamp "updatedAt"],
      [["sessionId", "chatId"]], []⟩
  | .pluginInstances =>
    ⟨"plugin_instances",
      [required (text "id"), required (text "pluginId"), required (text "instanceId"),
        text "sessionScope", required (text "secret"), text "verifyToken", text "config",
        withDefault (numeric "enabled") (.number 1), stamp "createdAt", stamp "updatedAt"],
      [["id"], ["pluginId", "instanceId"]], []⟩
  | .conversationMappings =>
    ⟨"conversation_mappings",
      [required (text "id"), required (text "sessionId"), required (text "chatId"),
        required (text "pluginId"), required (text "instanceId"),
        required (text "providerConversationId"), withDefault (text "handoverState") (.text "bot"),
        text "metadata", stamp "updatedAt"],
      [["id"], ["sessionId", "chatId", "pluginId", "instanceId"],
        ["pluginId", "instanceId", "providerConversationId"]], []⟩
  | .ingressEvents =>
    ⟨"ingress_events",
      [required (text "id"), required (text "instanceId"), required (text "pluginId"),
        required (text "providerDeliveryId"), required (text "route"), text "payload",
        text "payloadHash", text "sessionId", text "dispatchState",
        withDefault (numeric "dispatchAttempts") (.number 0), numeric "lastDispatchAt",
        stamp "createdAt"],
      [["id"], ["pluginId", "instanceId", "providerDeliveryId"]], []⟩
  | .webhookDeliveryFailures =>
    ⟨"webhook_delivery_failures",
      [required (text "id"), required (text "webhookId"), required (text "sessionId"),
        required (text "event"), required (text "url"), text "idempotencyKey", text "deliveryId",
        required (numeric "attempts"), numeric "lastStatusCode", required (text "lastError"),
        stamp "createdAt"],
      [["id"]], []⟩
  | .webhookOutboxEvents =>
    ⟨"webhook_outbox_events",
      [required (text "id"), required (text "webhookId"), required (text "sessionId"),
        required (text "event"), required (text "idempotencyKey"), required (text "deliveryId"),
        text "payload", text "state", withDefault (numeric "attempts") (.number 0),
        text "lastAttemptAt", stamp "createdAt"],
      [["id"], ["webhookId", "idempotencyKey"]], []⟩
  | .integrationDeliveryFailures =>
    ⟨"integration_delivery_failures",
      [required (text "id"), required (text "direction"), required (text "pluginId"),
        required (text "instanceId"), text "sessionId", text "deliveryId",
        required (numeric "attempts"), required (text "lastError"), text "payload",
        withDefault (numeric "redriven") (.number 0), stamp "createdAt"],
      [["id"]], []⟩
  | .statusUpdates =>
    ⟨"status_updates",
      [required (text "id"), required (text "sessionId"), required (text "contactJid"),
        text "contactName", text "contactPushName", required (text "waStatusId"),
        required (text "type"), text "caption", text "mediaPath", text "mediaMimetype",
        withDefault (numeric "mediaOmitted") (.number 0), text "omitReason",
        text "backgroundColor", numeric "font", required (numeric "postedAt"),
        required (numeric "expiresAt")],
      [["id"], ["sessionId", "waStatusId"]], []⟩
  | .automationRules =>
    ⟨"automation_rules",
      [required (text "id"), required (text "sessionId"), required (text "name"),
        withDefault (numeric "enabled") (.number 1), text "conditions",
        required (text "replyText"), withDefault (numeric "cooldownSeconds") (.number 60),
        stamp "createdAt", stamp "updatedAt"],
      [["id"]], [ofSession]⟩

/-- `sqliteDatetimeColumns`: the create and update dates. The other dates are `text` in the entities,
whatever the migrations call them. -/
def sqliteDatetimeColumns (key : TableKey) : List String :=
  match key with
  | .sessions | .webhooks | .templates | .pluginInstances | .automationRules =>
    ["createdAt", "updatedAt"]
  | .messages | .baileysStoredMessages | .ingressEvents | .webhookDeliveryFailures
  | .webhookOutboxEvents | .integrationDeliveryFailures => ["createdAt"]
  | .messageBatches => ["created_at", "updated_at"]
  | .lidMappings | .chatStates | .conversationMappings => ["updatedAt"]
  | .statusUpdates => []

theorem schema_nodup (key : TableKey) : ((schema key).columns.map Column.name).Nodup := by
  cases key <;> decide +kernel

end OpenWA.Backup
