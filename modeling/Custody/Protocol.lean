import Custody.Decimal
import Custody.Error
import Custody.Text.Blank

/-!
Protocols: the configuration that a platform or asset stores, and the entry in which an asset
names one. An entry's port is wider than a port, so that a bad one reaches validation.
-/
namespace Custody

structure Protocol where
  name : String
  port : UInt16
  primary : Bool
  required : Bool
  isDefault : Bool
  secretTypes : SecretTypes
deriving DecidableEq, Repr

namespace Protocol

open Json in
def shape : Shape Protocol :=
  Protocol.mk <$> .required "name" Decode.text <*> .required "port" Decode.uint16
    <*> .defaulted "primary" Decode.bool false <*> .defaulted "required" Decode.bool false
    <*> .defaulted "default" Decode.bool false
    <*> .defaulted "secret_types" (fun v => (Decode.list Choice.decode v).map SecretTypes.ofList)
      .empty

def decode : Json.Decoder Protocol := shape.decode "Protocol"

def toJson (p : Protocol) : Json.Value :=
  .object [("name", .text p.name), ("port", .int p.port.toNat), ("primary", .bool p.primary),
    ("required", .bool p.required), ("default", .bool p.isDefault),
    ("secret_types", .list (p.secretTypes.toList.map Choice.toJson))]

structure Entry where
  name : String
  port : Int
  primary : Bool
deriving DecidableEq, Repr

namespace Entry

open Json in
def shape : Shape Entry :=
  Entry.mk <$> .required "name" Decode.text <*> .defaulted "port" Decode.int64 0
    <*> .defaulted "primary" Decode.bool false

def decode : Json.Decoder Entry := shape.decode "ProtocolEntry"

def toJson (e : Entry) : Json.Value :=
  .object [("name", .text e.name), ("port", .int e.port), ("primary", .bool e.primary)]

def ofProtocol (p : Protocol) : Entry := ⟨p.name, p.port.toNat, p.primary⟩

def portInRange (e : Entry) : Bool := 1 ≤ e.port && e.port ≤ 65535

def outOfRange (e : Entry) : Error := .range (.port e.name)

/-- The stored form of an entry: only name, port and the primary mark. -/
def toProtocol (e : Entry) : Except Error Protocol :=
  if e.portInRange then .ok ⟨e.name, .ofNat e.port.toNat, e.primary, false, false, .empty⟩
  else .error e.outOfRange

def print (e : Entry) : String := .ofList (e.name.toList ++ '/' :: Decimal.printInt e.port)

def read (s : String) : Except Error Entry :=
  match Text.cutFirst '/' s.toList with
  | none => .error (.invalid (.protocolText s))
  | some (name, port) =>
    match Decimal.readInt64? (Text.trimChars port) with
    | none => .error (.invalid (.protocolPort s))
    | some n => .ok ⟨.ofList (Text.trimChars name), n, false⟩

end Entry

structure Demands where
  required : List String
  suggested : List Entry
deriving DecidableEq, Repr

def Entry.replace (e : Entry) : List Entry → List Entry
  | [] => [e]
  | f :: rest => if f.name = e.name then e :: rest else f :: replace e rest

/-- Entries by name: the last of a name, in the place of the first. The first port out of range
ends it. -/
def Entry.gather (entries : List Entry) : Except Error (List Entry) :=
  entries.foldlM
    (fun acc e => if e.portInRange then .ok (e.replace acc) else .error e.outOfRange) []

def Entry.promote : List Entry → List Entry
  | [] => []
  | e :: rest =>
    if (e :: rest).any (·.primary) then e :: rest else { e with primary := true } :: rest

/-- An asset's protocol list under its platform's demands. Missing names are reported together. -/
def Demands.validate (d : Demands) (entries : List Entry) : Except Error (List Entry) := do
  let gathered ← Entry.gather entries
  let missing := d.required.filter fun name => !gathered.any (·.name == name)
  if missing ≠ [] then .error (.missingProtocols missing)
  else .ok (Entry.promote gathered)

end Protocol

end Custody
