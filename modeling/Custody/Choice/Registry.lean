import Custody.Choice
import Custody.Json.Value

/-!
Display labels beside the built-in ones. They are looked up when a value is shown and never when
one is checked.
-/
namespace Custody

structure Labeled where
  value : String
  label : String
deriving DecidableEq, Repr

def Labeled.toJson (l : Labeled) : Json.Value :=
  .object [("value", .text l.value), ("label", .text l.label)]

structure Registry where
  labels : Keyed String

namespace Registry

def empty : Registry := ⟨[]⟩

/-- A later label for the same value takes the place of the earlier one. -/
def register (r : Registry) (value label : String) : Registry := ⟨r.labels.place value label⟩

def ofList (labels : List (String × String)) : Registry :=
  labels.foldl (fun r (value, label) => r.register value label) empty

def labeled (r : Registry) (value builtin : String) : Labeled :=
  ⟨value, (r.labels.get? value).getD builtin⟩

def labeledChoice [Choice α] (r : Registry) (a : α) : Labeled :=
  r.labeled (Choice.wire a) (Choice.label a)

/-- The asset types of a category; without one, all of them and the registered values that are no
built-in type. -/
def typeChoices (r : Registry) (category : Option Category) : List Labeled :=
  let wanted (t : AssetType) : Bool :=
    match category with
    | none => true
    | some c => t.category = c
  let builtin := ((Choice.all (α := AssetType)).filter wanted).map r.labeledChoice
  match category with
  | some _ => builtin
  | none =>
    let extra := r.labels.filter fun (value, _) => (Choice.ofWire? (α := AssetType) value).isNone
    builtin ++ extra.map fun (value, label) => ⟨value, label⟩

end Registry

end Custody
