import Custody.Json.Printer
import Custody.Json.Reader
import Custody.Text.Unseen
import Custody.Time.Rfc3339

/-!
Decoding values into records. A record's shape lists its fields in declaration order; members are
visited in the order of the object, the first bad one is reported, and only then are missing ones,
in declaration order.
-/
namespace Custody.Json

inductive DecodeError where
  | unreadable (cause : ReadError)
  | wrongType (found : Value) (wanted : String)
  | wrongValue (found : Value) (wanted : String)
  | wrongLength (length : Nat) (wanted : String)
  | unknownChoice (given : String) (known : List String)
  | missing (field : String)
  | noAlternative (union : String)
  | badInstant (fault : Time.Fault)
deriving Repr

def Value.described : Value → String
  | null => "null"
  | bool true => "boolean `true`"
  | bool false => "boolean `false`"
  | int n => "integer `" ++ toString n ++ "`"
  | float x => "floating point `" ++ floatLayout.print x ++ "`"
  | text s => "string " ++ Text.shown s
  | list _ => "sequence"
  | object _ => "map"

def inTicks (s : String) : String := "`" ++ s ++ "`"

def alternatives : List String → String
  | [] => "there are no variants"
  | [a] => "expected " ++ inTicks a
  | [a, b] => "expected " ++ inTicks a ++ " or " ++ inTicks b
  | known => "expected one of " ++ ", ".intercalate (known.map inTicks)

def DecodeError.message : DecodeError → String
  | unreadable cause => cause.message
  | wrongType found wanted => "invalid type: " ++ found.described ++ ", expected " ++ wanted
  | wrongValue found wanted => "invalid value: " ++ found.described ++ ", expected " ++ wanted
  | wrongLength length wanted => "invalid length " ++ toString length ++ ", expected " ++ wanted
  | unknownChoice given [] => "unknown variant " ++ inTicks given ++ ", there are no variants"
  | unknownChoice given known => "unknown variant " ++ inTicks given ++ ", " ++ alternatives known
  | missing field => "missing field " ++ inTicks field
  | noAlternative union => "data did not match any variant of untagged enum " ++ union
  | badInstant fault => fault.message

abbrev Decoder (α : Type) := Value → Except DecodeError α

namespace Decode

def text : Decoder String
  | .text s => .ok s
  | v => .error (.wrongType v "a string")

def bool : Decoder Bool
  | .bool b => .ok b
  | v => .error (.wrongType v "a boolean")

def integer (low high : Int) (wanted : String) : Decoder Int
  | .int n => if low ≤ n ∧ n ≤ high then .ok n else .error (.wrongValue (.int n) wanted)
  | v => .error (.wrongType v wanted)

def int64 : Decoder Int := integer (-0x8000000000000000) 0x7FFFFFFFFFFFFFFF "i64"

def int32 : Decoder Int32 := fun v => (integer (-0x80000000) 0x7FFFFFFF "i32" v).map Int32.ofInt

def uint16 : Decoder UInt16
  | .int n =>
    if 0 ≤ n ∧ n < 65536 then .ok (.ofNat n.toNat) else .error (.wrongValue (.int n) "u16")
  | v => .error (.wrongType v "u16")

def items (d : Decoder α) : List Value → Except DecodeError (List α)
  | [] => .ok []
  | v :: rest => do
    let a ← d v
    let as ← items d rest
    return a :: as

def list (d : Decoder α) : Decoder (List α)
  | .list vs => items d vs
  | v => .error (.wrongType v "a sequence")

def object : Decoder Object
  | .object o => .ok o
  | v => .error (.wrongType v "a map")

def option (d : Decoder α) : Decoder (Option α)
  | .null => .ok none
  | v => (d v).map some

def any : Decoder Value := .ok

def instant : Decoder Time.Instant
  | .text s => (Time.Instant.read s).mapError .badInstant
  | v => .error (.wrongType v "an RFC 3339 formatted date and time string")

/-- One of the named alternatives: a text, or an object with that text as its only key and null as
its value. -/
def choice (known : List String) (ofText? : String → Option α) : Decoder α
  | .text s => find s
  | .object [(key, payload)] => do
    let a ← find key
    match payload with
    | .null => return a
    | v => .error (.wrongType v "unit")
  | .object members => .error (.wrongValue (.object members) "map with a single key")
  | v => .error (.wrongType v "string or map")
where
  find (s : String) : Except DecodeError α :=
    match ofText? s with
    | some a => .ok a
    | none => .error (.unknownChoice s known)

def either (union : String) (first : Decoder α) (second : Decoder α) : Decoder α := fun v =>
  match first v with
  | .ok a => .ok a
  | .error _ =>
    match second v with
    | .ok a => .ok a
    | .error _ => .error (.noAlternative union)

end Decode

/-- A declared field: how its value is checked and whether an array may end before it. -/
structure Slot where
  name : String
  check : Value → Except DecodeError Unit
  defaulted : Bool

structure Shape (α : Type) where
  slots : List Slot
  read : Object → Except DecodeError α

namespace Shape

instance : Functor Shape where
  map f s := ⟨s.slots, fun o => (s.read o).map f⟩

instance : Seq Shape where
  seq f s :=
    ⟨f.slots ++ (s ()).slots, fun o => do
      let g ← f.read o
      let a ← (s ()).read o
      return g a⟩

def slot (name : String) (d : Decoder α) (defaulted : Bool) : Slot :=
  ⟨name, fun v => (d v).map fun _ => (), defaulted⟩

def required (name : String) (d : Decoder α) : Shape α :=
  ⟨[slot name d false], fun o =>
    match Keyed.get? o name with
    | some v => d v
    | none => .error (.missing name)⟩

def defaulted (name : String) (d : Decoder α) (default : α) : Shape α :=
  ⟨[slot name d true], fun o =>
    match Keyed.get? o name with
    | some v => d v
    | none => .ok default⟩

/-- A field that null or an absent member leaves unset; an array has to name it. -/
def optional (name : String) (d : Decoder α) : Shape (Option α) :=
  ⟨[slot name (Decode.option d) false], fun o =>
    match Keyed.get? o name with
    | some v => Decode.option d v
    | none => .ok none⟩

def checkMembers (slots : List Slot) (o : Object) : Except DecodeError Unit :=
  o.forM fun (key, v) =>
    match slots.find? (·.name = key) with
    | some s => s.check v
    | none => .ok ()

/-- The members that an array stands for; it may stop before defaulted fields. -/
def membersOfItems (wanted : String) : Nat → List Slot → List Value → Except DecodeError Object
  | index, s :: slots, v :: items => do
    s.check v
    let rest ← membersOfItems wanted (index + 1) slots items
    return (s.name, v) :: rest
  | index, s :: slots, [] =>
    if s.defaulted then membersOfItems wanted (index + 1) slots []
    else .error (.wrongLength index wanted)
  | _, [], _ => .ok []

def arity (slots : List Slot) : String :=
  match slots.length with
  | 1 => "1 element"
  | n => toString n ++ " elements"

def decode (shape : Shape α) (name : String) : Decoder α
  | .object o => do
    checkMembers shape.slots o
    shape.read o
  | .list items => do
    let o ← membersOfItems ("struct " ++ name ++ " with " ++ arity shape.slots) 0 shape.slots items
    if shape.slots.length < items.length then
      .error (.wrongLength items.length "fewer elements in array")
    shape.read o
  | v => .error (.wrongType v ("struct " ++ name))

end Shape

def decodeText (d : Decoder α) (s : String) : Except DecodeError α :=
  match read s with
  | .ok v => d v
  | .error e => .error (.unreadable e)

end Custody.Json
