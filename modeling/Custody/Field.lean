import Custody.Decimal
import Custody.Json.Value

/-!
Declared payload fields. A schema lists them in order; defaults are laid underneath a request for
declared fields only, and a declared field has to hold its kind of value.
-/
namespace Custody.Field

inductive Kind where
  | text | secret | bool | int | choice | reference | timestamp
deriving DecidableEq, Repr

def Kind.name : Kind → String
  | text => "Text"
  | secret => "Secret"
  | bool => "Bool"
  | int => "Int"
  | choice => "Choice"
  | reference => "Reference"
  | timestamp => "Timestamp"

/-- Null is accepted by every kind and means that the field was not supplied. -/
def Kind.accepts : Kind → Json.Value → Bool
  | _, .null => true
  | bool, .bool _ => true
  | int, .int n => Decimal.fitsInt64 n
  | text, .text _ => true
  | secret, .text _ => true
  | choice, .text _ => true
  | reference, .text _ => true
  | timestamp, .text _ => true
  | _, _ => false

structure Spec where
  name : String
  kind : Kind
deriving DecidableEq, Repr

abbrev Schema := List Spec

def bulkSchema : Schema := [
  ⟨"name", .text⟩, ⟨"username", .text⟩, ⟨"secret", .secret⟩, ⟨"secret_type", .choice⟩,
  ⟨"privileged", .bool⟩, ⟨"is_active", .bool⟩, ⟨"comment", .text⟩]

def accountSchema : Schema := bulkSchema ++ [⟨"su_from", .reference⟩, ⟨"asset", .reference⟩]

def templateSchema : Schema := [
  ⟨"id", .reference⟩, ⟨"name", .text⟩, ⟨"username", .text⟩, ⟨"secret", .secret⟩,
  ⟨"secret_type", .choice⟩, ⟨"privileged", .bool⟩, ⟨"is_active", .bool⟩, ⟨"comment", .text⟩,
  ⟨"date_created", .timestamp⟩, ⟨"date_updated", .timestamp⟩, ⟨"org_id", .reference⟩]

def auditFields : List String := ["id", "date_created", "date_updated", "org_id"]

def declares (schema : Schema) (name : String) : Bool := schema.any (·.name == name)

/-- The request over the defaults: a member of the request wins even if it is null, and a default
that is not null fills a declared field that the request leaves out. -/
def merge (schema : Schema) (defaults request : Json.Object) : Json.Object :=
  schema.foldl (fun merged spec =>
    if Keyed.contains merged spec.name then merged
    else match Keyed.get? defaults spec.name with
      | none => merged
      | some .null => merged
      | some v => Keyed.place merged spec.name v) request

def mismatch? (schema : Schema) (values : Json.Object) : Option (Spec × Json.Value) :=
  schema.findSome? fun spec =>
    match Keyed.get? values spec.name with
    | some v => if spec.kind.accepts v then none else some (spec, v)
    | none => none

end Custody.Field
