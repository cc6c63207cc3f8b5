import Custody.Error
import Custody.Text.Blank

/-!
What the name of a database stands for. A name is the path of a file, `:memory:`, or a URI of the
scheme `file` whose parameters say how the file is used; of a parameter given twice the last counts,
and each may only narrow what the ones before it allow.
-/
namespace Custody.Database

inductive Access where
  | read | write | create
deriving DecidableEq, Repr

inductive Place where
  | memory
  | file (path : String) (access : Access)
deriving DecidableEq, Repr

structure Target where
  place : Place
  writable : Bool
deriving DecidableEq, Repr

namespace Target

/-! ### Percent signs -/

def hexValue? (c : Char) : Option Nat :=
  if c.isDigit then some (c.toNat - '0'.toNat)
  else if 'a' ≤ c ∧ c ≤ 'f' then some (c.toNat - 'a'.toNat + 10)
  else if 'A' ≤ c ∧ c ≤ 'F' then some (c.toNat - 'A'.toNat + 10)
  else none

/-- The bytes of a text, in which a percent sign before two hexadecimal digits stands for a byte.
The byte zero ends the text. -/
def bytesOf : List Char → List UInt8
  | [] => []
  | '%' :: a :: b :: rest =>
    match hexValue? a, hexValue? b with
    | some high, some low =>
      if 16 * high + low = 0 then [] else .ofNat (16 * high + low) :: bytesOf rest
    | _, _ => 0x25 :: bytesOf (a :: b :: rest)
  | c :: rest => String.utf8EncodeChar c ++ bytesOf rest

def textOf (bytes : List UInt8) : String :=
  (String.fromUTF8? ⟨bytes.toArray⟩).getD
    (.ofList (bytes.map fun b => if b < 0x80 then .ofNat b.toNat else '\uFFFD'))

def decoded (cs : List Char) : String := textOf (bytesOf cs)

example : decoded "x%2edb".toList = "x.db" ∧ decoded "a%00b".toList = "a" ∧
    decoded "100%".toList = "100%" := by decide +kernel

/-! ### URIs -/

/-- A parameter; one without a name is passed over. -/
def parameter? (cs : List Char) : Option (String × String) :=
  let (name, value) := (Text.cutFirst '=' cs).getD (cs, [])
  let name := decoded name
  if name = "" then none else some (name, decoded value)

def split (cs : List Char) : String × List (String × String) :=
  let cs := cs.takeWhile (· ≠ '#')
  let (path, query) := (Text.cutFirst '?' cs).getD (cs, [])
  (decoded path, (Text.splitOn '&' query).filterMap parameter?)

def dropAuthority : List Char → Except StorageFault (List Char)
  | '/' :: '/' :: cs =>
    let authority := String.ofList (cs.takeWhile (· ≠ '/'))
    if authority = "" ∨ authority = "localhost" then .ok (cs.dropWhile (· ≠ '/'))
    else .error (.authority authority)
  | cs => .ok cs

/-! ### Parameters -/

inductive Mode where
  | readOnly | readWrite | create | memory
deriving DecidableEq, Repr

namespace Mode

def ofText? : String → Option Mode
  | "ro" => some readOnly
  | "rw" => some readWrite
  | "rwc" => some create
  | "memory" => some memory
  | _ => none

/-- The access that a mode grants; `memory` is beyond all others. -/
def rank : Mode → Nat
  | readOnly => 1
  | readWrite => 2
  | create => 3
  | memory => 4

def follows (m before : Mode) : Bool := m = memory || m.rank ≤ before.rank

end Mode

structure Use where
  mode : Mode
  system : String

def Use.start : Use := ⟨.create, "unix"⟩

def memorySystem : String := "memdb"

def systems : List String := ["unix", "unix-none", "unix-dotfile", "unix-excl", memorySystem]

def Use.apply (u : Use) : String × String → Except StorageFault Use
  | ("vfs", system) => .ok { u with system }
  | ("cache", cache) =>
    if cache = "shared" ∨ cache = "private" then .ok u else .error (.noMode "cache" cache)
  | ("mode", text) =>
    match Mode.ofText? text with
    | none => .error (.noMode "access" text)
    | some mode =>
      if mode.follows u.mode then .ok { u with mode } else .error (.modeNotAllowed text)
  | _ => .ok u

/-- A number is true unless its last eight bits are zero. -/
def isTrue (s : String) : Bool :=
  match s.toList.takeWhile Char.isDigit with
  | [] => ["on", "yes", "true"].contains (s.map Char.toLower)
  | digits =>
    let n := digits.foldl (fun n d => 10 * n + (d.toNat - '0'.toNat)) 0
    n < 0x80000000 && n % 256 != 0

def ofUse (path : String) (u : Use) (fixed : Bool) : Target :=
  let writes := u.mode ≠ .readOnly
  if path = "" ∨ path = ":memory:" ∨ u.mode = .memory then ⟨.memory, writes⟩
  else if u.system = memorySystem then ⟨.memory, writes && !fixed⟩
  else match u.mode with
    | .readOnly => ⟨.file path .read, false⟩
    | .readWrite => ⟨.file path .write, !fixed⟩
    | _ => ⟨.file path .create, !fixed⟩

def ofUri (cs : List Char) : Except StorageFault Target := do
  let (path, parameters) := split (← dropAuthority cs)
  let u ← parameters.foldlM Use.apply .start
  if u.system ∉ systems then .error (.noSystem u.system)
  return ofUse path u ((parameters.lookup "immutable").any isTrue)

end Target

def Target.read (name : String) : Except StorageFault Target :=
  match name.toList with
  | 'f' :: 'i' :: 'l' :: 'e' :: ':' :: cs => ofUri cs
  | _ => .ok (ofUse name .start false)

end Custody.Database
