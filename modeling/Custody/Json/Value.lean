import Custody.Keyed

/-!
JSON values. An object is a keyed list of its members; the reader places them in the order of their
keys and keeps the last of equal keys.
-/
namespace Custody.Json

/-- Whole numbers that fit a signed or unsigned 64-bit word are `int`, all others `float`. -/
inductive Value where
  | null
  | bool (b : Bool)
  | int (n : Int)
  | float (x : Float)
  | text (s : String)
  | list (items : List Value)
  | object (members : List (String × Value))
deriving Inhabited, Repr

abbrev Object := Keyed Value

namespace Value

def asText? : Value → Option String
  | text s => some s
  | _ => none

def asBool? : Value → Option Bool
  | bool b => some b
  | _ => none

def ofOption (f : α → Value) : Option α → Value
  | none => null
  | some a => f a

def texts (items : List String) : Value := list (items.map text)

mutual

def canonical : Value → Value
  | list items => list (canonicalItems items)
  | object members => object (canonicalMembers members [])
  | v => v

def canonicalItems : List Value → List Value
  | [] => []
  | v :: rest => canonical v :: canonicalItems rest

def canonicalMembers : List (String × Value) → Object → Object
  | [], acc => acc
  | (k, v) :: rest, acc => canonicalMembers rest (Keyed.place acc k (canonical v))

end

end Value

end Custody.Json
