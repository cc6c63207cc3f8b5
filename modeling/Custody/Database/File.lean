import Custody.Database

/-!
The bytes of a database file: a mark that no text begins with, and one JSON object with the rows of
each table.
-/
namespace Custody

open Json

namespace Store

def dateText (i : Time.Instant) : Json.Value := .text (i.text "Z")

namespace PlatformRow

def shape : Shape PlatformRow :=
  PlatformRow.mk <$> .required "id" Decode.text <*> .required "name" Decode.text
    <*> .required "category" Choice.decode <*> .required "type" Choice.decode
    <*> .required "charset" Choice.decode <*> .required "domain_enabled" Decode.bool
    <*> .required "su_enabled" Decode.bool <*> .optional "su_method" Choice.decode
    <*> .required "automation" Automation.decode
    <*> .optional "ansible_config" Decode.text
    <*> .required "custom_fields" (Decode.list CustomField.decode)
    <*> .required "comment" Decode.text <*> .required "date_created" Decode.instant

def toJson (r : PlatformRow) : Json.Value :=
  .object [("id", .text r.id), ("name", .text r.name), ("category", Choice.toJson r.category),
    ("type", Choice.toJson r.type), ("charset", Choice.toJson r.charset),
    ("domain_enabled", .bool r.domainEnabled), ("su_enabled", .bool r.suEnabled),
    ("su_method", .ofOption Choice.toJson r.suMethod),
    ("automation", r.automation.toJson),
    ("ansible_config", .ofOption .text r.ansibleConfig),
    ("custom_fields", .list (r.customFields.map CustomField.toJson)), ("comment", .text r.comment),
    ("date_created", dateText r.dateCreated)]

end PlatformRow

namespace PlatformProtocolRow

def shape : Shape PlatformProtocolRow :=
  PlatformProtocolRow.mk <$> .required "platform" Decode.text
    <*> .required "protocol" Protocol.decode

def toJson (r : PlatformProtocolRow) : Json.Value :=
  .object [("platform", .text r.platformId), ("protocol", r.protocol.toJson)]

end PlatformProtocolRow

namespace AssetRow

def shape : Shape AssetRow :=
  AssetRow.mk <$> .required "id" Decode.text <*> .required "name" Decode.text
    <*> .required "address" Decode.text <*> .required "platform" Decode.text
    <*> .required "category" Choice.decode <*> .required "type" Choice.decode
    <*> .optional "domain" Decode.text <*> .required "is_active" Decode.bool
    <*> .required "comment" Decode.text <*> .required "date_created" Decode.instant

def toJson (r : AssetRow) : Json.Value :=
  .object [("id", .text r.id), ("name", .text r.name), ("address", .text r.address),
    ("platform", .text r.platformId), ("category", Choice.toJson r.category),
    ("type", Choice.toJson r.type), ("domain", .ofOption .text r.domain),
    ("is_active", .bool r.isActive), ("comment", .text r.comment),
    ("date_created", dateText r.dateCreated)]

end AssetRow

namespace AssetProtocolRow

def shape : Shape AssetProtocolRow :=
  AssetProtocolRow.mk <$> .required "asset" Decode.text <*> .required "name" Decode.text
    <*> .required "port" Decode.uint16 <*> .required "primary" Decode.bool

def toJson (r : AssetProtocolRow) : Json.Value :=
  .object [("asset", .text r.assetId), ("name", .text r.name), ("port", .int r.port.toNat),
    ("primary", .bool r.primary)]

end AssetProtocolRow

def decodeNumber : Decoder Nat := fun v => (Decode.int64 v).map Int.toNat

namespace LabelRow

def shape : Shape LabelRow :=
  LabelRow.mk <$> .required "id" decodeNumber <*> .required "label" Label.decode

def toJson (r : LabelRow) : Json.Value := .object [("id", .int r.id), ("label", r.label.toJson)]

end LabelRow

namespace AssetLabelRow

def shape : Shape AssetLabelRow :=
  AssetLabelRow.mk <$> .required "asset" Decode.text <*> .required "label" decodeNumber

def toJson (r : AssetLabelRow) : Json.Value :=
  .object [("asset", .text r.assetId), ("label", .int r.labelId)]

end AssetLabelRow

namespace AssetNodeRow

def shape : Shape AssetNodeRow :=
  AssetNodeRow.mk <$> .required "asset" Decode.text <*> .required "node" Decode.text

def toJson (r : AssetNodeRow) : Json.Value :=
  .object [("asset", .text r.assetId), ("node", .text r.nodeId)]

end AssetNodeRow

namespace PushRow

def shape : Shape PushRow :=
  PushRow.mk <$> .required "id" decodeNumber
    <*> .required "accounts" (Decode.list Decode.text) <*> .optional "params" Decode.text
    <*> .required "created_at" Decode.instant

def toJson (r : PushRow) : Json.Value :=
  .object [("id", .int r.id), ("accounts", .texts r.accountIds),
    ("params", .ofOption .text r.params), ("created_at", dateText r.createdAt)]

end PushRow

namespace Tables

def rowsOf (s : Shape ρ) : Decoder (List ρ) := Decode.list (s.decode "row")

def shape : Shape Tables :=
  Tables.mk <$> .required "platforms" (rowsOf PlatformRow.shape)
    <*> .required "platform_protocols" (rowsOf PlatformProtocolRow.shape)
    <*> .required "assets" (rowsOf AssetRow.shape)
    <*> .required "asset_protocols" (rowsOf AssetProtocolRow.shape)
    <*> .required "labels" (rowsOf LabelRow.shape)
    <*> .required "asset_labels" (rowsOf AssetLabelRow.shape)
    <*> .required "nodes" (rowsOf Node.shape)
    <*> .required "asset_nodes" (rowsOf AssetNodeRow.shape)
    <*> .required "account_templates" (rowsOf Template.shape)
    <*> .required "accounts" (rowsOf Account.shape)
    <*> .required "push_tasks" (rowsOf PushRow.shape)

def toJson (t : Tables) : Json.Value :=
  .object [("platforms", .list (t.platforms.map PlatformRow.toJson)),
    ("platform_protocols", .list (t.platformProtocols.map PlatformProtocolRow.toJson)),
    ("assets", .list (t.assets.map AssetRow.toJson)),
    ("asset_protocols", .list (t.assetProtocols.map AssetProtocolRow.toJson)),
    ("labels", .list (t.labels.map LabelRow.toJson)),
    ("asset_labels", .list (t.assetLabels.map AssetLabelRow.toJson)),
    ("nodes", .list (t.nodes.map Node.toJson)),
    ("asset_nodes", .list (t.assetNodes.map AssetNodeRow.toJson)),
    ("account_templates", .list (t.templates.map Template.toJson)),
    ("accounts", .list (t.accounts.map Account.toJson)),
    ("push_tasks", .list (t.pushTasks.map PushRow.toJson))]

end Tables

end Store

namespace Database

namespace TableIndex

def shape : Shape TableIndex :=
  TableIndex.mk <$> .required "name" Decode.text <*> .required "table" Decode.text

def toJson (i : TableIndex) : Json.Value :=
  .object [("name", .text i.name), ("table", .text i.table)]

end TableIndex

def shape : Shape Database :=
  Database.mk <$> .required "version" Decode.int64 <*> .required "tables" (Decode.list Decode.text)
    <*> .required "indexes" (Decode.list (TableIndex.shape.decode "index"))
    <*> .required "rows" (Store.Tables.shape.decode "rows")

def toJson (d : Database) : Json.Value :=
  .object [("version", .int d.version), ("tables", .texts d.tables),
    ("indexes", .list (d.indexes.map TableIndex.toJson)), ("rows", d.rows.toJson)]

def mark : UInt8 := 0xFF

def print (d : Database) : ByteArray := ⟨#[mark]⟩ ++ d.toJson.compact.toUTF8

/-- Whether a file holds anything: one of no more than one byte counts as empty. -/
def isPresent (bytes : ByteArray) : Bool := 1 < bytes.size

def read (bytes : ByteArray) : Except Error (Option Database) :=
  if !isPresent bytes then .ok none
  else
    let text :=
      if bytes[0]? = some mark then String.fromUTF8? (bytes.extract 1 bytes.size) else none
    match text.map (Json.decodeText (shape.decode "database")) with
    | some (.ok d) => .ok (some d)
    | _ => .error (.storage .notDatabase)

end Database

end Custody
