import Custody.Choice.Registry
import Custody.Platform

/-!
Assets, the nodes that group them, and what is submitted to create one. A stored asset lists its
protocols by name, its labels and node ids in order and without repeats.
-/
namespace Custody

structure Label where
  name : String
  value : String
deriving DecidableEq, Repr

namespace Label

open Json in
def shape : Shape Label :=
  Label.mk <$> .required "name" Decode.text <*> .required "value" Decode.text

def decode : Json.Decoder Label := shape.decode "Label"

def toJson (l : Label) : Json.Value := .object [("name", .text l.name), ("value", .text l.value)]

def le (a b : Label) : Bool := a.name < b.name || (a.name == b.name && a.value ≤ b.value)

def read (s : String) : Except Error Label :=
  match Text.cutFirst ':' s.toList with
  | none => .error (.invalid (.labelText s))
  | some (name, value) =>
    .ok ⟨.ofList (Text.trimChars name), .ofList (Text.trimChars value)⟩

end Label

structure Node where
  id : String
  fullValue : String
  parentId : Option String
deriving DecidableEq, Repr

namespace Node

open Json in
def shape : Shape Node :=
  Node.mk <$> .required "id" Decode.text <*> .required "full_value" Decode.text
    <*> .optional "parent_id" Decode.text

def decode : Json.Decoder Node := shape.decode "Node"

def toJson (n : Node) : Json.Value :=
  .object [("id", .text n.id), ("full_value", .text n.fullValue),
    ("parent_id", .ofOption .text n.parentId)]

end Node

structure Asset where
  id : String
  name : String
  address : String
  platformId : String
  category : Category
  type : AssetType
  domain : Option String
  isActive : Bool
  comment : String
  protocols : List Protocol
  labels : List Label
  nodeIds : List String
  dateCreated : Time.Instant
deriving DecidableEq, Repr

def dropRepeats [BEq α] : List α → List α
  | [] => []
  | [a] => [a]
  | a :: b :: rest => if a == b then dropRepeats (b :: rest) else a :: dropRepeats (b :: rest)

namespace Asset

open Json in
def shape : Shape Asset :=
  Asset.mk <$> .required "id" Decode.text <*> .required "name" Decode.text
    <*> .required "address" Decode.text <*> .required "platform_id" Decode.text
    <*> .required "category" Choice.decode <*> .required "type" Choice.decode
    <*> .optional "domain" Decode.text <*> .required "is_active" Decode.bool
    <*> .required "comment" Decode.text <*> .required "protocols" (Decode.list Protocol.decode)
    <*> .required "labels" (Decode.list Label.decode)
    <*> .required "node_ids" (Decode.list Decode.text)
    <*> .required "date_created" Decode.instant

def decode : Json.Decoder Asset := shape.decode "Asset"

def toJson (a : Asset) : Json.Value :=
  .object [("id", .text a.id), ("name", .text a.name), ("address", .text a.address),
    ("platform_id", .text a.platformId), ("category", Choice.toJson a.category),
    ("type", Choice.toJson a.type), ("domain", .ofOption .text a.domain),
    ("is_active", .bool a.isActive), ("comment", .text a.comment),
    ("protocols", .list (a.protocols.map Protocol.toJson)),
    ("labels", .list (a.labels.map Label.toJson)), ("node_ids", .texts a.nodeIds),
    ("date_created", .text (a.dateCreated.text "Z"))]

def sortProtocols (ps : List Protocol) : List Protocol := ps.mergeSort fun a b => a.name ≤ b.name

def sortLabels (ls : List Label) : List Label := dropRepeats (ls.mergeSort Label.le)

def sortNodeIds (ids : List String) : List String := dropRepeats (ids.mergeSort fun a b => a ≤ b)

def arranged (a : Asset) : Asset :=
  { a with
    protocols := sortProtocols a.protocols, labels := sortLabels a.labels
    nodeIds := sortNodeIds a.nodeIds }

/-- A protocol given as an entry or as `name/port`. -/
inductive ProtocolInput where
  | text (s : String)
  | entry (e : Protocol.Entry)

def ProtocolInput.decode : Json.Decoder ProtocolInput :=
  Json.Decode.either "ProtocolInput" (fun v => (Json.Decode.text v).map .text)
    fun v => (Protocol.Entry.decode v).map .entry

def ProtocolInput.toEntry : ProtocolInput → Except Error Protocol.Entry
  | .text s => Protocol.Entry.read s
  | .entry e => .ok e

inductive LabelInput where
  | text (s : String)
  | pair (l : Label)

def LabelInput.decode : Json.Decoder LabelInput :=
  Json.Decode.either "LabelInput" (fun v => (Json.Decode.text v).map .text)
    fun v => (Label.decode v).map .pair

def LabelInput.toLabel : LabelInput → Except Error Label
  | .text s => Label.read s
  | .pair l => .ok l

/-- An asset as submitted. Without a protocol list the platform's own protocols are used; `nodes`
are paths, and `accounts` are account payloads whose `id` names an account to take the secret
from. -/
structure Draft where
  name : String
  address : String
  platform : String
  domain : Option String
  isActive : Bool
  comment : String
  protocols : Option (List ProtocolInput)
  labels : List LabelInput
  nodes : List String
  accounts : List Json.Object

open Json in
def Draft.shape : Shape Draft :=
  Draft.mk <$> .required "name" Decode.text <*> .required "address" Decode.text
    <*> .required "platform" Decode.text <*> .defaulted "domain" (Decode.option Decode.text) none
    <*> .defaulted "is_active" Decode.bool true <*> .defaulted "comment" Decode.text ""
    <*> .defaulted "protocols" (Decode.option (Decode.list ProtocolInput.decode)) none
    <*> .defaulted "labels" (Decode.list LabelInput.decode) []
    <*> .defaulted "nodes_display" (Decode.list Decode.text) []
    <*> .defaulted "accounts" (Decode.list Decode.object) []

def Draft.decode : Json.Decoder Draft := Draft.shape.decode "AssetPayload"

def view (a : Asset) (labels : Registry) : Json.Value :=
  .object [("id", .text a.id), ("name", .text a.name), ("address", .text a.address),
    ("platform", .text a.platformId), ("category", (labels.labeledChoice a.category).toJson),
    ("type", (labels.labeledChoice a.type).toJson), ("domain", .ofOption .text a.domain),
    ("is_active", .bool a.isActive), ("comment", .text a.comment),
    ("protocols", .list (a.protocols.map fun p => (Protocol.Entry.ofProtocol p).toJson)),
    ("labels", .list (a.labels.map Label.toJson)), ("nodes", .texts a.nodeIds),
    ("date_created", .text (a.dateCreated.text "Z"))]

end Asset

end Custody
