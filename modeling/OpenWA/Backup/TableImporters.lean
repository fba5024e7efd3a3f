import OpenWA.AuthDir.Migration
import OpenWA.Backup.ExportTables

/-!
This module contains the restore step of every table: the columns its `INSERT` names, the parameters
it makes of an archived row, and the rows it skips.
-/

namespace OpenWA.Backup

open Sqlite Js

/-- One entry of a `map`, by the column of the archived row it reads. -/
inductive Param where
  /-- `row.column` -/
  | get (column : String)
  /-- `row.column ?? fallback` -/
  | orElse (column : String) (fallback : Json)
  /-- `typeof row.column === 'string' ? row.column : JSON.stringify(row.column || fallback)` -/
  | jsonOr (column : String) (fallback : Json)
  /-- `typeof row.column === 'string' ? row.column : JSON.stringify(row.column ?? fallback)` -/
  | jsonOrElse (column : String) (fallback : Json)
  /-- `row.column == null ? null : typeof row.column === 'string' ? row.column :
  JSON.stringify(row.column)` -/
  | jsonOrNull (column : String)

def isTruthy (value : Json) : Bool :=
  match value with
  | .null => false
  | .bool b => b
  | .number n => n ≠ 0
  | .string s => s ≠ ""
  | .array _ | .object _ => true

def nullish (value : Option Json) (fallback : Json) : Json :=
  match value with
  | none | some .null => fallback
  | some value => value

structure TableImporter where
  key : TableKey
  label : String
  columns : List String
  /-- The numbers of the `$N` placeholders, in the order of the text. -/
  placeholders : List Nat
  /-- The columns the warning about a row names it by. -/
  id : List String
  map : List Param
  skip : Row → Option String

section Importers

variable (host : Host)

def Param.eval (row : Row) (param : Param) : Option Json :=
  match param with
  | .get column => row.lookup column
  | .orElse column fallback => some (nullish (row.lookup column) fallback)
  | .jsonOr column fallback =>
    match row.lookup column with
    | some (.string s) => some (.string s)
    | some value => some (.string (host.stringify (if isTruthy value then value else fallback)))
    | none => some (.string (host.stringify fallback))
  | .jsonOrElse column fallback =>
    match row.lookup column with
    | some (.string s) => some (.string s)
    | value => some (.string (host.stringify (nullish value fallback)))
  | .jsonOrNull column =>
    match row.lookup column with
    | none | some .null => some .null
    | some (.string s) => some (.string s)
    | some value => some (.string (host.stringify value))

def isSafe (value : Option Json) : Bool :=
  match value with
  | some (.string s) => AuthDir.isSafeSessionName s
  | _ => false

/-- `JSON.stringify` in a template string, where `undefined` stays `undefined`. -/
def quoted (value : Option Json) : String :=
  match value with
  | some value => host.stringify value
  | none => "undefined"

def skipSession (row : Row) : Option String :=
  if !isSafe (row.lookup "id") then
    some ("Skipped session " ++ quoted host (row.lookup "id") ++ ": unsafe id")
  else if isSafe (row.lookup "name") then none
  else
    some ("Skipped session " ++ host.interpolate (row.lookup "id") ++ ": unsafe name " ++
      quoted host (row.lookup "name"))

def orNull (column : String) : Param := .orElse column .null

def upTo (n : Nat) : List Nat := (List.range n).map (· + 1)

def importer (key : TableKey) : TableImporter :=
  match key with
  | .sessions =>
    { key := .sessions, label := "session", placeholders := upTo 12, id := ["id"]
      columns :=
        ["id", "name", "status", "phone", "pushName", "config", "proxyUrl", "proxyType",
          "connectedAt", "lastActiveAt", "createdAt", "updatedAt"]
      skip := skipSession host
      map :=
        [.get "id", .get "name", .get "status", .get "phone", .get "pushName",
          .jsonOr "config" (.object .nil), .get "proxyUrl", .get "proxyType", .get "connectedAt",
          .get "lastActiveAt", .get "createdAt", .get "updatedAt"] }
  | .webhooks =>
    { key := .webhooks, label := "webhook", placeholders := upTo 12, id := ["id"]
      columns :=
        ["id", "sessionId", "url", "events", "secret", "headers", "filters", "active",
          "retryCount", "lastTriggeredAt", "createdAt", "updatedAt"]
      skip := fun _ => none
      map :=
        [.get "id", .get "sessionId", .get "url", .jsonOr "events" (.array .nil), orNull "secret",
          .jsonOr "headers" (.object .nil), .jsonOrNull "filters", .get "active",
          .get "retryCount", .get "lastTriggeredAt", .get "createdAt", .get "updatedAt"] }
  | .messages =>
    { key := .messages, label := "message", placeholders := upTo 17, id := ["id"]
      columns :=
        ["id", "sessionId", "waMessageId", "chatId", "chatName", "author", "from", "to", "body",
          "type", "direction", "timestamp", "metadata", "status", "createdAt", "mediaPath",
          "mediaMimetype"]
      skip := fun _ => none
      map :=
        [.get "id", .get "sessionId", orNull "waMessageId", .get "chatId", orNull "chatName",
          orNull "author", .get "from", .get "to", orNull "body", .get "type", .get "direction",
          orNull "timestamp", .jsonOrNull "metadata", .get "status", .get "createdAt",
          orNull "mediaPath", orNull "mediaMimetype"] }
  | .messageBatches =>
    { key := .messageBatches, label := "message batch", placeholders := upTo 13, id := ["id"]
      columns :=
        ["id", "batch_id", "session_id", "status", "messages", "options", "progress", "results",
          "current_index", "created_at", "updated_at", "started_at", "completed_at"]
      skip := fun _ => none
      map :=
        [.get "id", .get "batch_id", .get "session_id", .get "status",
          .jsonOrElse "messages" (.array .nil), .jsonOrNull "options", .jsonOrNull "progress",
          .jsonOrNull "results", .get "current_index", .get "created_at", .get "updated_at",
          .get "started_at", .get "completed_at"] }
  | .templates =>
    { key := .templates, label := "template", placeholders := upTo 8, id := ["id"]
      columns := ["id", "sessionId", "name", "body", "header", "footer", "createdAt", "updatedAt"]
      skip := fun _ => none
      map :=
        [.get "id", .get "sessionId", .get "name", .get "body", orNull "header", orNull "footer",
          .get "createdAt", .get "updatedAt"] }
  | .baileysStoredMessages =>
    { key := .baileysStoredMessages, label := "baileys stored message", placeholders := upTo 5
      id := ["id"]
      columns := ["id", "sessionId", "waMessageId", "serializedMessage", "createdAt"]
      skip := fun _ => none
      map :=
        [.get "id", .get "sessionId", .get "waMessageId", .get "serializedMessage",
          .get "createdAt"] }
  | .lidMappings =>
    { key := .lidMappings, label := "lid mapping", placeholders := upTo 4, id := ["lid"]
      columns := ["lid", "phone", "sessionId", "updatedAt"]
      skip := fun _ => none
      map := [.get "lid", orNull "phone", orNull "sessionId", .get "updatedAt"] }
  | .chatStates =>
    { key := .chatStates, label := "chat state", placeholders := upTo 6
      id := ["sessionId", "chatId"]
      columns := ["sessionId", "chatId", "muteEndTime", "archived", "pinned", "updatedAt"]
      skip := fun _ => none
      map :=
        [.get "sessionId", .get "chatId", orNull "muteEndTime", .get "archived", .get "pinned",
          .get "updatedAt"] }
  | .pluginInstances =>
    { key := .pluginInstances, label := "plugin instance", placeholders := upTo 10, id := ["id"]
      columns :=
        ["id", "pluginId", "instanceId", "sessionScope", "secret", "verifyToken", "config",
          "enabled", "createdAt", "updatedAt"]
      skip := fun _ => none
      map :=
        [.get "id", .get "pluginId", .get "instanceId", .get "sessionScope", .get "secret",
          .get "verifyToken", .jsonOrNull "config", .get "enabled", .get "createdAt",
          .get "updatedAt"] }
  | .conversationMappings =>
    { key := .conversationMappings, label := "conversation mapping", placeholders := upTo 9
      id := ["id"]
      columns :=
        ["id", "sessionId", "chatId", "pluginId", "instanceId", "providerConversationId",
          "handoverState", "metadata", "updatedAt"]
      skip := fun _ => none
      map :=
        [.get "id", .get "sessionId", .get "chatId", .get "pluginId", .get "instanceId",
          .get "providerConversationId", .get "handoverState", .jsonOrNull "metadata",
          .get "updatedAt"] }
  | .ingressEvents =>
    { key := .ingressEvents, label := "ingress event", placeholders := upTo 12, id := ["id"]
      columns :=
        ["id", "instanceId", "pluginId", "providerDeliveryId", "route", "payload", "payloadHash",
          "sessionId", "dispatchState", "dispatchAttempts", "lastDispatchAt", "createdAt"]
      skip := fun _ => none
      map :=
        [.get "id", .get "instanceId", .get "pluginId", .get "providerDeliveryId", .get "route",
          .jsonOrNull "payload", orNull "payloadHash", .get "sessionId", orNull "dispatchState",
          .orElse "dispatchAttempts" (.number 0), orNull "lastDispatchAt", .get "createdAt"] }
  | .webhookDeliveryFailures =>
    { key := .webhookDeliveryFailures, label := "webhook delivery failure"
      placeholders := upTo 11, id := ["id"]
      columns :=
        ["id", "webhookId", "sessionId", "event", "url", "idempotencyKey", "deliveryId",
          "attempts", "lastStatusCode", "lastError", "createdAt"]
      skip := fun _ => none
      map :=
        [.get "id", .get "webhookId", .get "sessionId", .get "event", .get "url",
          .get "idempotencyKey", .get "deliveryId", .get "attempts", .get "lastStatusCode",
          .get "lastError", .get "createdAt"] }
  | .webhookOutboxEvents =>
    { key := .webhookOutboxEvents, label := "webhook outbox event", placeholders := upTo 11
      id := ["id"]
      columns :=
        ["id", "webhookId", "sessionId", "event", "idempotencyKey", "deliveryId", "payload",
          "state", "attempts", "lastAttemptAt", "createdAt"]
      skip := fun _ => none
      map :=
        [.get "id", .get "webhookId", .get "sessionId", .get "event", .get "idempotencyKey",
          .get "deliveryId", .get "payload", .get "state", .get "attempts", .get "lastAttemptAt",
          .get "createdAt"] }
  | .integrationDeliveryFailures =>
    { key := .integrationDeliveryFailures, label := "integration delivery failure"
      placeholders := upTo 11, id := ["id"]
      columns :=
        ["id", "direction", "pluginId", "instanceId", "sessionId", "deliveryId", "attempts",
          "lastError", "payload", "redriven", "createdAt"]
      skip := fun _ => none
      map :=
        [.get "id", .get "direction", .get "pluginId", .get "instanceId", .get "sessionId",
          .get "deliveryId", .get "attempts", .get "lastError", .jsonOrNull "payload",
          .get "redriven", .get "createdAt"] }
  | .statusUpdates =>
    { key := .statusUpdates, label := "status update", placeholders := upTo 16, id := ["id"]
      columns :=
        ["id", "sessionId", "contactJid", "contactName", "contactPushName", "waStatusId", "type",
          "caption", "mediaPath", "mediaMimetype", "mediaOmitted", "omitReason",
          "backgroundColor", "font", "postedAt", "expiresAt"]
      skip := fun _ => none
      map :=
        [.get "id", .get "sessionId", .get "contactJid", orNull "contactName",
          orNull "contactPushName", .get "waStatusId", .get "type", orNull "caption",
          orNull "mediaPath", orNull "mediaMimetype", .orElse "mediaOmitted" (.bool false),
          orNull "omitReason", orNull "backgroundColor", orNull "font", .get "postedAt",
          .get "expiresAt"] }
  | .automationRules =>
    { key := .automationRules, label := "automation rule", placeholders := upTo 9, id := ["id"]
      columns :=
        ["id", "sessionId", "name", "enabled", "conditions", "replyText", "cooldownSeconds",
          "createdAt", "updatedAt"]
      skip := fun _ => none
      map :=
        [.get "id", .get "sessionId", .get "name", .orElse "enabled" (.bool true),
          orNull "conditions", .get "replyText", .orElse "cooldownSeconds" (.number 60),
          .get "createdAt", .get "updatedAt"] }

/-- `insert` on SQLite: the `$N` become `?`, which bind the parameters by position, and booleans and
`undefined` become what the driver can bind. -/
def bind (value : Option Json) : Except String Cell :=
  match value with
  | none | some .null => .ok .null
  | some (.bool b) => .ok (.number (if b then 1 else 0))
  | some (.number n) => .ok (.number n)
  | some (.string s) => .ok (.text s)
  | some (.array _) | some (.object _) =>
    .error "SQLite3 can only bind numbers, strings, bigints, buffers, and null"

def insertRow (now : String) (tables : Tables TableKey) (importer : TableImporter) (row : Row) :
    Except String (Tables TableKey) := do
  let cells ← (importer.map.map fun param => param.eval host row).mapM bind
  if importer.placeholders.length ≠ importer.columns.length then
    throw (toString importer.placeholders.length ++ " values for " ++
      toString importer.columns.length ++ " columns")
  if cells.length < importer.placeholders.length then
    throw "Too few parameter values were provided"
  if importer.placeholders.length < cells.length then
    throw "Too many parameter values were provided"
  insert host.numerals schema now tables importer.key (importer.columns.zip cells)

end Importers
end OpenWA.Backup
