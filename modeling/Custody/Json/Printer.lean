import Custody.Decimal
import Custody.Json.Value

/-!
JSON text of a value. Members are printed in the order in which the object lists them; two layouts
share one printing of scalars.
-/
namespace Custody.Json

def hexPair (n : Nat) : List Char := [Nat.digitChar (n / 16 % 16), Nat.digitChar (n % 16)]

/-- Only the quote, the backslash and the controls below U+0020 are escaped. -/
def escapeChar (c : Char) : List Char :=
  if c = '"' then ['\\', '"']
  else if c = '\\' then ['\\', '\\']
  else if c.toNat = 0x08 then ['\\', 'b']
  else if c.toNat = 0x0C then ['\\', 'f']
  else if c = '\n' then ['\\', 'n']
  else if c = '\r' then ['\\', 'r']
  else if c = '\t' then ['\\', 't']
  else if c.toNat < 0x20 then ['\\', 'u', '0', '0'] ++ hexPair c.toNat
  else [c]

def quoteChars (s : List Char) : List Char := '"' :: (s.flatMap escapeChar ++ ['"'])

def quote (s : String) : String := .ofList (quoteChars s.toList)

/-- How doubles are written: the powers of ten printed without an exponent. Outside of
`fixedFrom ≤ |x| < 10 ^ fixedBelow` one digit stands before the point and the exponent is signed. -/
structure FloatLayout where
  fixedFrom : Int
  fixedBelow : Int

def floatLayout : FloatLayout := ⟨-5, 16⟩

def fixedPoint (digits : List Char) (whole : Int) : List Char :=
  if whole ≤ 0 then ['0', '.'] ++ List.replicate (-whole).toNat '0' ++ digits
  else
    let n := whole.toNat
    if digits.length ≤ n then digits ++ List.replicate (n - digits.length) '0' ++ ['.', '0']
    else digits.take n ++ ['.'] ++ digits.drop n

def withExponent (digits : List Char) (exponent : Int) : List Char :=
  let head := match digits with
    | d :: e :: rest => d :: '.' :: e :: rest
    | ds => ds
  head ++ ['e', if exponent < 0 then '-' else '+'] ++ (toString exponent.natAbs).toList

def FloatLayout.print (layout : FloatLayout) (x : Float) : String :=
  let (negative, magnitude, lowerGapHalved) := Decimal.ofBits x.toBits
  let body :=
    if magnitude.mantissa = 0 then ['0', '.', '0']
    else
      let s := Decimal.shortest magnitude lowerGapHalved
      let digits := (toString s.digits).toList
      let whole := (digits.length : Int) + s.exponent
      if layout.fixedFrom < whole ∧ whole ≤ layout.fixedBelow then fixedPoint digits whole
      else withExponent digits (whole - 1)
  .ofList (if negative then '-' :: body else body)

namespace Value

def scalarText : Value → String
  | bool true => "true"
  | bool false => "false"
  | int n => toString n
  | float x => floatLayout.print x
  | text s => quote s
  | _ => "null"

mutual

def compact : Value → String
  | list items => "[" ++ compactItems items ++ "]"
  | object members => "\x7b" ++ compactMembers members ++ "\x7d"
  | v => scalarText v

def compactItems : List Value → String
  | [] => ""
  | [v] => compact v
  | v :: rest => compact v ++ "," ++ compactItems rest

def compactMembers : List (String × Value) → String
  | [] => ""
  | [(k, v)] => quote k ++ ":" ++ compact v
  | (k, v) :: rest => quote k ++ ":" ++ compact v ++ "," ++ compactMembers rest

end

def indent (depth : Nat) : String := .ofList ('\n' :: List.replicate (2 * depth) ' ')

mutual

/-- One item or member on a line, two blanks a level; empty lists and objects stay closed up. -/
def pretty (depth : Nat) : Value → String
  | list [] => "[]"
  | list (v :: rest) => "[" ++ prettyItems (depth + 1) (v :: rest) ++ indent depth ++ "]"
  | object [] => "\x7b\x7d"
  | object (m :: rest) =>
    "\x7b" ++ prettyMembers (depth + 1) (m :: rest) ++ indent depth ++ "\x7d"
  | v => scalarText v

def prettyItems (depth : Nat) : List Value → String
  | [] => ""
  | [v] => indent depth ++ pretty depth v
  | v :: rest => indent depth ++ pretty depth v ++ "," ++ prettyItems depth rest

def prettyMembers (depth : Nat) : List (String × Value) → String
  | [] => ""
  | [(k, v)] => indent depth ++ quote k ++ ": " ++ pretty depth v
  | (k, v) :: rest =>
    indent depth ++ quote k ++ ": " ++ pretty depth v ++ "," ++ prettyMembers depth rest

end

end Value

end Custody.Json
