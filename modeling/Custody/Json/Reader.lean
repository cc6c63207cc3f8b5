import Custody.Json.Value

/-!
Reading JSON text. Every step takes the characters that are left and returns the shorter rest, or
stops with a fault and the number of bytes left, from which line and column follow.
-/
namespace Custody.Json

inductive Fault where
  | endInList | endInObject | endInText | endInValue
  | colon | listCommaOrEnd | objectCommaOrEnd | ident | value | escape | number | numberRange
  | control | keyNotText | loneSurrogate | trailingComma | trailing | hexEscapeEnd | depth
deriving DecidableEq, Repr

def Fault.message : Fault → String
  | endInList => "EOF while parsing a list"
  | endInObject => "EOF while parsing an object"
  | endInText => "EOF while parsing a string"
  | endInValue => "EOF while parsing a value"
  | colon => "expected `:`"
  | listCommaOrEnd => "expected `,` or `]`"
  | objectCommaOrEnd => "expected `,` or `\x7d`"
  | ident => "expected ident"
  | value => "expected value"
  | escape => "invalid escape"
  | number => "invalid number"
  | numberRange => "number out of range"
  | control => "control character (\\u0000-\\u001F) found while parsing a string"
  | keyNotText => "key must be a string"
  | loneSurrogate => "lone leading surrogate in hex escape"
  | trailingComma => "trailing comma"
  | trailing => "trailing characters"
  | hexEscapeEnd => "unexpected end of hex escape"
  | depth => "recursion limit exceeded"

namespace Reader

def byteLength (cs : List Char) : Nat := cs.foldr (fun c n => c.utf8Size + n) 0

structure Stop where
  fault : Fault
  left : Nat
deriving DecidableEq, Repr

def behind (fault : Fault) (rest : List Char) : Except Stop α := .error ⟨fault, byteLength rest⟩

def atNext (fault : Fault) (rest : List Char) : Except Stop α :=
  .error ⟨fault, byteLength rest - 1⟩

def skipBlanks (cs : List Char) : List Char :=
  cs.dropWhile fun c => c = ' ' || c = '\n' || c = '\t' || c = '\r'

def keyword (result : Value) : List Char → List Char → Except Stop (Value × List Char)
  | [], rest => .ok (result, rest)
  | _ :: _, [] => behind .endInValue []
  | k :: ks, c :: rest => if c = k then keyword result ks rest else atNext .ident (c :: rest)

def wordMax : Nat := 0xFFFFFFFFFFFFFFFF

def digitOf (c : Char) : Nat := c.toNat - '0'.toNat

def tenTo (n : Nat) : Float := Float.ofScientific 1 false n

/-- The value `x · 10 ^ exponent` by one rounded multiplication or division, after steps of 10^308
down for very small exponents; `none` where the product is infinite. -/
def scale (x : Float) (exponent : Int) : Nat → Option Float
  | 0 => some 0.0
  | fuel + 1 =>
    if exponent.natAbs ≤ 308 then
      if 0 ≤ exponent then
        let y := x * tenTo exponent.natAbs
        if y.isInf then none else some y
      else some (x / tenTo exponent.natAbs)
    else if x == 0.0 then some x
    else if 0 ≤ exponent then none
    else scale (x / tenTo 308) (exponent + 308) fuel

def floatOf (positive : Bool) (significand : Nat) (exponent : Int) (rest : List Char) :
    Except Stop (Value × List Char) :=
  match scale (Float.ofNat significand) exponent 8 with
  | none => behind .numberRange rest
  | some x => .ok (.float (if positive then x else -x), rest)

def exponentDigits (value : Nat) : List Char → Option Nat × List Char
  | [] => (some value, [])
  | c :: rest =>
    if c.isDigit then
      let next := value * 10 + digitOf c
      if 0x7FFFFFFF < next then (none, rest) else exponentDigits next rest
    else (some value, c :: rest)

def exponentPart (positive : Bool) (significand : Nat) (start : Int) (cs : List Char) :
    Except Stop (Value × List Char) :=
  let (up, cs) := match cs with
    | '+' :: rest => (true, rest)
    | '-' :: rest => (false, rest)
    | cs => (true, cs)
  match cs with
  | [] => behind .endInValue []
  | c :: rest =>
    if c.isDigit then
      match exponentDigits (digitOf c) rest with
      | (some e, rest) =>
        floatOf positive significand (if up then start + (e : Int) else start - (e : Int)) rest
      | (none, rest) =>
        if significand ≠ 0 && up then behind .numberRange rest
        else .ok (.float (if positive then 0.0 else -0.0), rest.dropWhile Char.isDigit)
    else atNext .number (c :: rest)

def afterDigits (positive : Bool) (significand : Nat) (exponent : Int) :
    List Char → Except Stop (Value × List Char)
  | 'e' :: rest => exponentPart positive significand exponent rest
  | 'E' :: rest => exponentPart positive significand exponent rest
  | rest => floatOf positive significand exponent rest

/-- Digits behind the point; those that no longer fit the significand are passed over. -/
def fractionDigits (significand count : Nat) : List Char → Nat × Nat × List Char
  | [] => (significand, count, [])
  | c :: rest =>
    if c.isDigit then
      let next := significand * 10 + digitOf c
      if wordMax < next then (significand, count, rest.dropWhile Char.isDigit)
      else fractionDigits next (count + 1) rest
    else (significand, count, c :: rest)

def fractionPart (positive : Bool) (significand : Nat) (before : Nat) (cs : List Char) :
    Except Stop (Value × List Char) :=
  match cs with
  | [] => atNext .endInValue []
  | c :: _ =>
    if c.isDigit then
      let (significand, count, rest) := fractionDigits significand 0 cs
      afterDigits positive significand ((before : Int) - (count : Int)) rest
    else atNext .number cs

/-- What follows the whole digits: a fraction, an exponent, or the end of an integer. A negative
integer below the signed range and a negative zero are doubles. -/
def numberTail (positive : Bool) (significand : Nat) :
    List Char → Except Stop (Value × List Char)
  | '.' :: rest => fractionPart positive significand 0 rest
  | 'e' :: rest => exponentPart positive significand 0 rest
  | 'E' :: rest => exponentPart positive significand 0 rest
  | rest =>
    if positive then .ok (.int significand, rest)
    else if significand = 0 || 0x8000000000000000 < significand then
      .ok (.float (-(Float.ofNat significand)), rest)
    else .ok (.int (-(significand : Int)), rest)

/-- An integer too long for a word: each further digit only raises the exponent. -/
def longInteger (positive : Bool) (significand : Nat) (cs : List Char) :
    Except Stop (Value × List Char) :=
  let extra := (cs.takeWhile Char.isDigit).length
  match cs.dropWhile Char.isDigit with
  | '.' :: rest => fractionPart positive significand extra rest
  | rest => afterDigits positive significand extra rest

def wholeDigits (positive : Bool) (significand : Nat) :
    List Char → Except Stop (Value × List Char)
  | [] => numberTail positive significand []
  | c :: rest =>
    if c.isDigit then
      let next := significand * 10 + digitOf c
      if wordMax < next then longInteger positive significand (c :: rest)
      else wholeDigits positive next rest
    else numberTail positive significand (c :: rest)

def number (positive : Bool) : List Char → Except Stop (Value × List Char)
  | [] => behind .endInValue []
  | '0' :: rest =>
    match rest with
    | c :: _ => if c.isDigit then atNext .number rest else numberTail positive 0 rest
    | [] => numberTail positive 0 []
  | c :: rest =>
    if c.isDigit then wholeDigits positive (digitOf c) rest else atNext .number (c :: rest)

def hexDigit? (c : Char) : Option Nat :=
  if '0' ≤ c ∧ c ≤ '9' then some (c.toNat - '0'.toNat)
  else if 'a' ≤ c ∧ c ≤ 'f' then some (c.toNat - 'a'.toNat + 10)
  else if 'A' ≤ c ∧ c ≤ 'F' then some (c.toNat - 'A'.toNat + 10)
  else none

def hexWord (cs : List Char) : Except Stop (Nat × List Char) :=
  match cs with
  | a :: b :: c :: d :: rest =>
    match hexDigit? a, hexDigit? b, hexDigit? c, hexDigit? d with
    | some a, some b, some c, some d => .ok (((a * 16 + b) * 16 + c) * 16 + d, rest)
    | _, _, _, _ => .error ⟨.escape, byteLength cs - 4⟩
  | _ => if 4 ≤ byteLength cs then .error ⟨.escape, byteLength cs - 4⟩ else behind .endInText []

def isHighSurrogate (n : Nat) : Bool := 0xD800 ≤ n && n ≤ 0xDBFF

def isLowSurrogate (n : Nat) : Bool := 0xDC00 ≤ n && n ≤ 0xDFFF

def unicodeEscape (cs : List Char) : Except Stop (Char × List Char) := do
  let (high, rest) ← hexWord cs
  if isLowSurrogate high then behind .loneSurrogate rest
  else if isHighSurrogate high then
    match rest with
    | [] => behind .endInText []
    | '\\' :: [] => behind .endInText []
    | '\\' :: 'u' :: rest =>
      let (low, rest) ← hexWord rest
      if isLowSurrogate low then
        .ok (.ofNat (0x10000 + (high - 0xD800) * 0x400 + (low - 0xDC00)), rest)
      else behind .loneSurrogate rest
    | '\\' :: rest => atNext .hexEscapeEnd rest
    | rest => atNext .hexEscapeEnd rest
  else .ok (.ofNat high, rest)

def simpleEscape? : Char → Option Char
  | '"' => some '"'
  | '\\' => some '\\'
  | '/' => some '/'
  | 'b' => some '\x08'
  | 'f' => some '\x0c'
  | 'n' => some '\n'
  | 'r' => some '\r'
  | 't' => some '\t'
  | _ => none

def textTail (acc : List Char) : Nat → List Char → Except Stop (String × List Char)
  | 0, rest => behind .endInText rest
  | _ + 1, [] => behind .endInText []
  | fuel + 1, c :: rest =>
    if c = '"' then .ok (.ofList acc.reverse, rest)
    else if c = '\\' then
      match rest with
      | [] => behind .endInText []
      | 'u' :: rest => do
        let (d, rest) ← unicodeEscape rest
        textTail (d :: acc) fuel rest
      | e :: rest =>
        match simpleEscape? e with
        | some d => textTail (d :: acc) fuel rest
        | none => atNext .escape (e :: rest)
    else if c.toNat < 0x20 then behind .control rest
    else textTail (c :: acc) fuel rest

def text (cs : List Char) : Except Stop (String × List Char) := textTail [] (cs.length + 1) cs

mutual

def value (depth : Nat) : Nat → List Char → Except Stop (Value × List Char)
  | 0, rest => behind .endInValue rest
  | fuel + 1, cs =>
    match skipBlanks cs with
    | [] => atNext .endInValue []
    | 'n' :: rest => keyword .null "ull".toList rest
    | 't' :: rest => keyword (.bool true) "rue".toList rest
    | 'f' :: rest => keyword (.bool false) "alse".toList rest
    | '-' :: rest => number false rest
    | '"' :: rest => (text rest).map fun (s, rest) => (.text s, rest)
    | '[' :: rest =>
      if depth ≤ 1 then atNext .depth ('[' :: rest)
      else (items (depth - 1) true [] fuel rest).map fun (vs, rest) => (.list vs, rest)
    | '\x7b' :: rest =>
      if depth ≤ 1 then atNext .depth ('\x7b' :: rest)
      else (members (depth - 1) true [] fuel rest).map fun (o, rest) => (.object o, rest)
    | c :: rest => if c.isDigit then number true (c :: rest) else atNext .value (c :: rest)
termination_by structural fuel => fuel

def items (depth : Nat) (first : Bool) (acc : List Value) :
    Nat → List Char → Except Stop (List Value × List Char)
  | 0, rest => behind .endInList rest
  | fuel + 1, cs =>
    match skipBlanks cs with
    | [] => atNext .endInList []
    | ']' :: rest => .ok (acc.reverse, rest)
    | c :: rest => do
      if first then
        let (v, rest) ← value depth fuel (c :: rest)
        items depth false (v :: acc) fuel rest
      else if c = ',' then
        match skipBlanks rest with
        | [] => atNext .endInValue []
        | ']' :: rest => atNext .trailingComma (']' :: rest)
        | rest =>
          let (v, rest) ← value depth fuel rest
          items depth false (v :: acc) fuel rest
      else atNext .listCommaOrEnd (c :: rest)
termination_by structural fuel => fuel

def members (depth : Nat) (first : Bool) (acc : Object) :
    Nat → List Char → Except Stop (Object × List Char)
  | 0, rest => behind .endInObject rest
  | fuel + 1, cs =>
    match skipBlanks cs with
    | [] => atNext .endInObject []
    | '\x7d' :: rest => .ok (acc, rest)
    | c :: rest =>
      if first then
        if c = '"' then member depth acc fuel rest else atNext .keyNotText (c :: rest)
      else if c = ',' then
        match skipBlanks rest with
        | [] => atNext .endInValue []
        | '"' :: rest => member depth acc fuel rest
        | '\x7d' :: rest => atNext .trailingComma ('\x7d' :: rest)
        | rest => atNext .keyNotText rest
      else atNext .objectCommaOrEnd (c :: rest)
termination_by structural fuel => fuel

def member (depth : Nat) (acc : Object) : Nat → List Char → Except Stop (Object × List Char)
  | 0, rest => behind .endInObject rest
  | fuel + 1, cs => do
    let (key, rest) ← text cs
    match skipBlanks rest with
    | ':' :: rest =>
      let (v, rest) ← value depth fuel rest
      members depth false (Keyed.place acc key v) fuel rest
    | [] => atNext .endInObject []
    | rest => atNext .colon rest
termination_by structural fuel => fuel

end

end Reader

/-- Where a fault was met: lines and, within the line, bytes, both counted from one. -/
structure Position where
  line : Nat
  column : Nat
deriving DecidableEq, Repr

def Position.after (bytes : List UInt8) (index : Nat) : Position :=
  let seen := bytes.take index
  ⟨1 + seen.count 10, (seen.reverse.takeWhile (· ≠ 10)).length⟩

structure ReadError where
  fault : Fault
  position : Position
deriving DecidableEq, Repr

def ReadError.message (e : ReadError) : String :=
  e.fault.message ++ " at line " ++ toString e.position.line ++ " column " ++
    toString e.position.column

/-- The number of lists and objects that may be open at once, plus one. -/
def depthLimit : Nat := 128

def read (s : String) : Except ReadError Value :=
  let cs := s.toList
  let outcome : Except Reader.Stop Value := do
    let (v, rest) ← Reader.value depthLimit (2 * cs.length + 2) cs
    match Reader.skipBlanks rest with
    | [] => return v
    | rest => Reader.atNext .trailing rest
  match outcome with
  | .ok v => .ok v
  | .error stop =>
    let bytes := s.toUTF8.toList
    .error ⟨stop.fault, .after bytes (bytes.length - stop.left)⟩

end Custody.Json
