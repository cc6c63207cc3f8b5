import Custody.Keyed

/-!
Documents of the KDL configuration language, nodes with arguments, properties and children, and the
reading of its version 1. A rule reads at the front of the text and gives the rest; of alternatives
the first that reads wins, and a repetition takes all it can. Each step of a recursion reads at
least one character, so the length of the text bounds its fuel.
-/
namespace Custody.Kdl

inductive Literal where
  | text (s : String)
  | number (written : String)
  | bool (b : Bool)
  | null
deriving DecidableEq, Repr

structure Value where
  typeName : Option String
  literal : Literal
deriving DecidableEq, Repr

structure Node where
  typeName : Option String
  name : String
  arguments : List Value
  properties : Keyed Value
  children : List Node
deriving Repr

/-- Line breaks; a carriage return and the line feed after it are one. -/
def isBreak (c : Char) : Bool :=
  c == '\n' || c == '\r' || c == '\x0C' || c == '\u0085' || c == '\u2028' || c == '\u2029'

def isSpace (c : Char) : Bool :=
  c == '\t' || c == ' ' || c == '\u00A0' || c == '\u1680' || ('\u2000' ≤ c && c ≤ '\u200A') ||
    c == '\u202F' || c == '\u205F' || c == '\u3000' || c == '\uFEFF'

def reserved : List Char :=
  ['\\', '/', '(', ')', '\x7b', '\x7d', '<', '>', ';', '[', ']', '=', ',', '"']

/-- Characters inside a bare name; the byte order mark is one of them, though it is a blank too. -/
def isNameChar (c : Char) : Bool :=
  '!' < c && !reserved.contains c && !isBreak c && (!isSpace c || c == '\uFEFF')

def isNameStart (c : Char) : Bool := c == '!' || (isNameChar c && !c.isDigit)

def isSign (c : Char) : Bool := c == '+' || c == '-'

/-! ### Blanks -/

def newline? : List Char → Option (List Char)
  | '\r' :: '\n' :: r => some r
  | c :: r => if isBreak c then some r else none
  | [] => none

def dropLine : List Char → List Char
  | '\r' :: '\n' :: r => r
  | c :: r => if isBreak c then r else dropLine r
  | [] => []

def lineEnd? : List Char → Option (List Char)
  | '/' :: '/' :: r => some (dropLine r)
  | cs => newline? cs

/-- What follows a block comment, given what follows its opening. Comments nest; an opening that
nothing closes is text of the comment around it. -/
def closeComment : Nat → List Char → Option (List Char)
  | fuel + 1, '/' :: '*' :: r =>
    match closeComment fuel r with
    | some rest => closeComment fuel rest
    | none =>
      match r with
      | '/' :: rest => some rest
      | _ => none
  | _ + 1, '*' :: '/' :: r => some r
  | fuel + 1, _ :: r => closeComment fuel r
  | _, _ => none
termination_by structural fuel => fuel

def blank? : List Char → Option (List Char)
  | '/' :: '*' :: r => closeComment (r.length + 1) r
  | c :: r => if isSpace c then some (r.dropWhile isSpace) else none
  | [] => none

def skipUpTo (rule : List Char → Option (List Char)) : Nat → List Char → List Char
  | fuel + 1, cs =>
    match rule cs with
    | some rest => skipUpTo rule fuel rest
    | none => cs
  | 0, cs => cs

def skip (rule : List Char → Option (List Char)) (cs : List Char) : List Char :=
  skipUpTo rule cs.length cs

/-- Blanks inside a node; a backslash lets it go on in the next line. -/
def nodeSpace? (cs : List Char) : Option (List Char) :=
  match blank? cs with
  | some rest => some rest
  | none =>
    match cs with
    | '\\' :: r => lineEnd? (skip blank? r)
    | _ => none

def lineSpace? (cs : List Char) : Option (List Char) :=
  match lineEnd? cs with
  | some rest => some rest
  | none => blank? cs

def terminator? : List Char → Option (List Char)
  | [] => some []
  | ';' :: r => some r
  | cs => lineEnd? cs

/-- The mark before an entry, a block of children or a node that is to be passed over, with the
blanks behind it. -/
def mute? : List Char → Option (List Char)
  | '/' :: '-' :: r => some (skip nodeSpace? r)
  | _ => none

/-! ### Strings, names, numbers -/

def hexValue? (c : Char) : Option Nat :=
  if c.isDigit then some (c.toNat - '0'.toNat)
  else if 'a' ≤ c ∧ c ≤ 'f' then some (c.toNat - 'a'.toNat + 10)
  else if 'A' ≤ c ∧ c ≤ 'F' then some (c.toNat - 'A'.toNat + 10)
  else none

def escaped? (c : Char) : Option Char :=
  match c with
  | '"' => some '"'
  | '\\' => some '\\'
  | '/' => some '/'
  | 'b' => some '\x08'
  | 'f' => some '\x0C'
  | 'n' => some '\n'
  | 'r' => some '\r'
  | 't' => some '\t'
  | _ => none

def coded? (digits : List Nat) : Option Char :=
  let n := digits.foldl (fun n d => 16 * n + d) 0
  if 1 ≤ digits.length ∧ digits.length ≤ 6 ∧ n.isValidChar then some (.ofNat n) else none

mutual

def quoted : List Char → Option (List Char × List Char)
  | [] => none
  | '"' :: r => some ([], r)
  | '\\' :: 'u' :: '\x7b' :: r => coded [] r
  | '\\' :: e :: r =>
    match escaped? e with
    | some c => (quoted r).map fun (s, rest) => (c :: s, rest)
    | none => none
  | c :: r => (quoted r).map fun (s, rest) => (c :: s, rest)

def coded (digits : List Nat) : List Char → Option (List Char × List Char)
  | [] => none
  | '\x7d' :: r =>
    match coded? digits with
    | some c => (quoted r).map fun (s, rest) => (c :: s, rest)
    | none => none
  | d :: r =>
    match hexValue? d with
    | some n => coded (digits ++ [n]) r
    | none => none

end

def rawText (signs : Nat) : List Char → Option (List Char × List Char)
  | [] => none
  | c :: r =>
    if c = '"' ∧ r.take signs = List.replicate signs '#' then some ([], r.drop signs)
    else (rawText signs r).map fun (s, rest) => (c :: s, rest)

def string? : List Char → Option (String × List Char)
  | '"' :: r => (quoted r).map fun (s, rest) => (.ofList s, rest)
  | 'r' :: r =>
    let signs := r.takeWhile (· = '#')
    match r.drop signs.length with
    | '"' :: r => (rawText signs.length r).map fun (s, rest) => (.ofList s, rest)
    | _ => none
  | _ => none

def keywords : List String := ["null", "true", "false"]

/-- A name without quotes: a sign alone, or a start with more behind it; no keyword. -/
def bareName? (cs : List Char) : Option (String × List Char) :=
  let (name, rest) :=
    match cs with
    | [] => ([], [])
    | c :: r =>
      if isSign c then
        match r with
        | d :: ds =>
          if isNameStart d then
            (c :: d :: ds.takeWhile isNameChar, ds.dropWhile isNameChar)
          else ([c], r)
        | [] => ([c], [])
      else if isNameStart c then (c :: r.takeWhile isNameChar, r.dropWhile isNameChar)
      else ([], cs)
  let s := String.ofList name
  if name = [] ∨ s ∈ keywords then none else some (s, rest)

/-- Digits of a base, with underscores between and behind them; the first is a digit. -/
def digits? (base : Nat) : List Char → Option (List Char × List Char)
  | [] => none
  | c :: r =>
    let isDigit (d : Char) : Bool := (hexValue? d).any (· < base)
    if isDigit c then
      let more (d : Char) : Bool := d == '_' || isDigit d
      some (c :: r.takeWhile more, r.dropWhile more)
    else none

def sign : List Char → List Char × List Char
  | c :: r => if isSign c then ([c], r) else ([], c :: r)
  | [] => ([], [])

def radixDigits? : List Char → Option (List Char × List Char)
  | '0' :: 'b' :: r => (digits? 2 r).map fun (ds, rest) => ('0' :: 'b' :: ds, rest)
  | '0' :: 'o' :: r => (digits? 8 r).map fun (ds, rest) => ('0' :: 'o' :: ds, rest)
  | '0' :: 'x' :: r => (digits? 16 r).map fun (ds, rest) => ('0' :: 'x' :: ds, rest)
  | _ => none

def fractionDigits : List Char → List Char × List Char
  | '.' :: r =>
    match digits? 10 r with
    | some (ds, rest) => ('.' :: ds, rest)
    | none => ([], '.' :: r)
  | cs => ([], cs)

def exponentDigits : List Char → List Char × List Char
  | [] => ([], [])
  | c :: r =>
    if c = 'e' ∨ c = 'E' then
      let (s, r) := sign r
      let more (d : Char) : Bool := d == '_' || d.isDigit
      (c :: s ++ r.takeWhile more, r.dropWhile more)
    else ([], c :: r)

def number? (cs : List Char) : Option (String × List Char) :=
  let (s, r) := sign cs
  match radixDigits? r with
  | some (ds, rest) => some (.ofList (s ++ ds), rest)
  | none =>
    match digits? 10 r with
    | none => none
    | some (whole, rest) =>
      let (fraction, rest) := fractionDigits rest
      let (exponent, rest) := exponentDigits rest
      some (.ofList (s ++ whole ++ fraction ++ exponent), rest)

/-- The name of a node or type; where a number can be read there is none. -/
def name? (cs : List Char) : Option (String × List Char) :=
  match number? cs with
  | some _ => none
  | none =>
    match bareName? cs with
    | some r => some r
    | none => string? cs

/-! ### Values and nodes -/

def keyword? : List Char → Option (Literal × List Char)
  | 'n' :: 'u' :: 'l' :: 'l' :: r => some (.null, r)
  | 't' :: 'r' :: 'u' :: 'e' :: r => some (.bool true, r)
  | 'f' :: 'a' :: 'l' :: 's' :: 'e' :: r => some (.bool false, r)
  | _ => none

def literal? (cs : List Char) : Option (Literal × List Char) :=
  match string? cs with
  | some (s, rest) => some (.text s, rest)
  | none =>
    match keyword? cs with
    | some r => some r
    | none => (number? cs).map fun (n, rest) => (.number n, rest)

def typeName? : List Char → Option (String × List Char)
  | '(' :: r =>
    match name? r with
    | some (name, ')' :: rest) => some (name, rest)
    | _ => none
  | _ => none

def typedValue? (cs : List Char) : Option (Value × List Char) :=
  match typeName? cs with
  | some (a, rest) => (literal? rest).map fun (l, rest) => (⟨some a, l⟩, rest)
  | none => none

def value? (cs : List Char) : Option (Value × List Char) :=
  match typedValue? cs with
  | some r => some r
  | none => (literal? cs).map fun (l, rest) => (⟨none, l⟩, rest)

def assigned? : List Char → Option (Value × List Char)
  | '=' :: r => value? r
  | _ => none

inductive Entry where
  | argument (v : Value)
  | property (name : String) (v : Value)
deriving DecidableEq, Repr

def bareProperty? (cs : List Char) : Option (Entry × List Char) :=
  match bareName? cs with
  | none => none
  | some (name, rest) => (assigned? rest).map fun (v, rest) => (.property name v, rest)

/-- A property under a quoted or bare name, or an argument. Only strings are names of properties,
and a bare name is no argument. -/
def item? (cs : List Char) : Option (Entry × List Char) :=
  match literal? cs with
  | some (l, rest) =>
    match l, assigned? rest with
    | .text name, some (v, rest) => some (.property name v, rest)
    | l, none => some (.argument ⟨none, l⟩, rest)
    | _, some _ => bareProperty? cs
  | none =>
    match bareProperty? cs with
    | some r => some r
    | none => (typedValue? cs).map fun (v, rest) => (.argument v, rest)

def heardItem? (cs : List Char) : Option (Option Entry × List Char) :=
  match mute? cs with
  | some r => (item? r).map fun (_, rest) => (none, rest)
  | none => (item? cs).map fun (e, rest) => (some e, rest)

def entries : Nat → List Char → List Entry × List Char
  | fuel + 1, cs =>
    match nodeSpace? cs with
    | none => ([], cs)
    | some r =>
      match heardItem? (skip nodeSpace? r) with
      | none => ([], cs)
      | some (e, rest) =>
        let (es, rest) := entries fuel rest
        (e.toList ++ es, rest)
  | 0, cs => ([], cs)

def Node.ofEntries (typeName : Option String) (name : String) (es : List Entry)
    (children : List Node) : Node where
  typeName := typeName
  name := name
  arguments := es.filterMap fun
    | .argument v => some v
    | .property .. => none
  properties := es.foldl (fun ps e => match e with
    | .argument _ => ps
    | .property key v => Keyed.place ps key v) []
  children := children

mutual

def nodes : Nat → List Char → List Node × List Char
  | 0, cs => ([], cs)
  | fuel + 1, cs =>
    let cs := skip lineSpace? cs
    let (muted, start) :=
      match mute? cs with
      | some r => (true, r)
      | none => (false, cs)
    match node fuel start with
    | none => ([], cs)
    | some (n, rest) =>
      let (ns, rest) := nodes fuel rest
      (if muted then ns else n :: ns, rest)
termination_by structural fuel => fuel

def node : Nat → List Char → Option (Node × List Char)
  | 0, _ => none
  | fuel + 1, cs =>
    let (typeName, cs) :=
      match typeName? cs with
      | some (a, rest) => (some a, rest)
      | none => (none, cs)
    match name? cs with
    | none => none
    | some (name, cs) =>
      let (es, cs) := entries cs.length cs
      let (ns, cs) := (children? fuel (skip nodeSpace? cs)).getD ([], cs)
      (terminator? (skip nodeSpace? cs)).map fun rest =>
        (Node.ofEntries typeName name es ns, rest)
termination_by structural fuel => fuel

def children? : Nat → List Char → Option (List Node × List Char)
  | 0, _ => none
  | fuel + 1, cs =>
    let (muted, cs) :=
      match mute? cs with
      | some r => (true, r)
      | none => (false, cs)
    match cs with
    | '\x7b' :: r =>
      match nodes fuel r with
      | (ns, '\x7d' :: rest) => some (if muted then [] else ns, rest)
      | _ => none
    | _ => none
termination_by structural fuel => fuel

end

def read (s : String) : Option (List Node) :=
  let cs := s.toList
  match nodes (3 * cs.length + 3) cs with
  | (ns, []) => some ns
  | _ => none

end Custody.Kdl
