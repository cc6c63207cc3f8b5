import Custody.Choice.Registry
import Custody.Error

/-!
Accounts, each bound to one asset, and the templates that hold defaults for new ones.
-/
namespace Custody

structure Account where
  id : String
  assetId : String
  name : String
  username : String
  secret : Option String
  secretType : SecretType
  source : Source
  /-- The template that the account came from; it is not looked up again. -/
  sourceId : Option String
  version : Int32
  privileged : Bool
  isActive : Bool
  comment : String
  suFrom : Option String
  dateCreated : Time.Instant
  dateUpdated : Time.Instant
deriving DecidableEq

/-- Replaces the secret; the version counts the changes, not the calls. -/
def Account.setSecret (a : Account) (secret : String) : Account :=
  if a.secret = some secret then a
  else { a with secret := some secret, version := a.version + 1 }

def Account.hasSlot (a : Account) (asset username : String) (secretType : SecretType) : Bool :=
  a.assetId == asset && a.username == username && a.secretType == secretType

def Account.hasName (a : Account) (asset name : String) : Bool :=
  a.assetId == asset && a.name == name

namespace Account

open Json in
def shape : Shape Account :=
  Account.mk <$> .required "id" Decode.text <*> .required "asset" Decode.text
    <*> .required "name" Decode.text <*> .required "username" Decode.text
    <*> .optional "secret" Decode.text <*> .required "secret_type" Choice.decode
    <*> .required "source" Choice.decode <*> .optional "source_id" Decode.text
    <*> .required "version" Decode.int32 <*> .required "privileged" Decode.bool
    <*> .required "is_active" Decode.bool <*> .required "comment" Decode.text
    <*> .optional "su_from" Decode.text <*> .required "date_created" Decode.instant
    <*> .required "date_updated" Decode.instant

def decode : Json.Decoder Account := shape.decode "Account"

def toJson (a : Account) : Json.Value :=
  .object [("id", .text a.id), ("asset", .text a.assetId), ("name", .text a.name),
    ("username", .text a.username), ("secret", .ofOption .text a.secret),
    ("secret_type", Choice.toJson a.secretType), ("source", Choice.toJson a.source),
    ("source_id", .ofOption .text a.sourceId), ("version", .int a.version.toInt),
    ("privileged", .bool a.privileged), ("is_active", .bool a.isActive),
    ("comment", .text a.comment), ("su_from", .ofOption .text a.suFrom),
    ("date_created", .text (a.dateCreated.text "Z")),
    ("date_updated", .text (a.dateUpdated.text "Z"))]

end Account

/-- An account as shown. The secret is withheld unless `reveal` asks for it. -/
def Account.view (a : Account) (labels : Registry) (reveal : Bool) : Json.Value :=
  let secret : Json.Object := match reveal, a.secret with
    | true, some s => [("secret", .text s)]
    | _, _ => []
  .object ([("id", .text a.id), ("asset", .text a.assetId), ("name", .text a.name),
    ("username", .text a.username), ("secret_type", (labels.labeledChoice a.secretType).toJson),
    ("source", (labels.labeledChoice a.source).toJson),
    ("source_id", .ofOption .text a.sourceId), ("version", .int a.version.toInt),
    ("privileged", .bool a.privileged), ("is_active", .bool a.isActive),
    ("comment", .text a.comment), ("su_from", .ofOption .text a.suFrom),
    ("has_secret", .bool a.secret.isSome)] ++ secret ++
    [("date_created", .text (a.dateCreated.text "Z")),
      ("date_updated", .text (a.dateUpdated.text "Z"))])

structure Template where
  id : String
  orgId : String
  name : String
  username : String
  secret : Option String
  secretType : SecretType
  privileged : Bool
  isActive : Bool
  comment : Option String
  dateCreated : Time.Instant
  dateUpdated : Time.Instant
deriving DecidableEq

namespace Template

open Json in
def shape : Shape Template :=
  Template.mk <$> .required "id" Decode.text <*> .required "org_id" Decode.text
    <*> .required "name" Decode.text <*> .required "username" Decode.text
    <*> .optional "secret" Decode.text <*> .required "secret_type" Choice.decode
    <*> .required "privileged" Decode.bool <*> .required "is_active" Decode.bool
    <*> .optional "comment" Decode.text <*> .required "date_created" Decode.instant
    <*> .required "date_updated" Decode.instant

def decode : Json.Decoder Template := shape.decode "Template"

def toJson (t : Template) : Json.Value :=
  .object [("id", .text t.id), ("org_id", .text t.orgId), ("name", .text t.name),
    ("username", .text t.username), ("secret", .ofOption .text t.secret),
    ("secret_type", Choice.toJson t.secretType), ("privileged", .bool t.privileged),
    ("is_active", .bool t.isActive), ("comment", .ofOption .text t.comment),
    ("date_created", .text (t.dateCreated.text "Z")),
    ("date_updated", .text (t.dateUpdated.text "Z"))]

end Template

def Template.field (t : Template) (name : String) : Json.Value :=
  match name with
  | "id" => .text t.id
  | "org_id" => .text t.orgId
  | "name" => .text t.name
  | "username" => .text t.username
  | "secret" => .ofOption .text t.secret
  | "secret_type" => .text (Choice.wire t.secretType)
  | "privileged" => .bool t.privileged
  | "is_active" => .bool t.isActive
  | "comment" => .ofOption .text t.comment
  | "date_created" => .text (t.dateCreated.text "+00:00")
  | "date_updated" => .text (t.dateUpdated.text "+00:00")
  | _ => .null

def Template.view (t : Template) (labels : Registry) : Json.Value :=
  .object [("id", .text t.id), ("org_id", .text t.orgId), ("name", .text t.name),
    ("username", .text t.username), ("secret_type", (labels.labeledChoice t.secretType).toJson),
    ("privileged", .bool t.privileged), ("is_active", .bool t.isActive),
    ("comment", .ofOption .text t.comment), ("has_secret", .bool t.secret.isSome),
    ("date_created", .text (t.dateCreated.text "Z"))]

end Custody
