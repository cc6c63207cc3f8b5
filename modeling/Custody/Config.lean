import Custody.Choice.Registry
import Custody.Error
import Custody.Kdl.Reader
import Custody.Text.Blank

/-!
The configuration: a section of settings and display labels, kept as a KDL document. Settings are
read with a default for each that is unset, and checked when they are set. Paths of files are texts
with `/` between their parts.
-/
namespace Custody

namespace Path

def join (base rest : String) : String :=
  match rest.toList with
  | '/' :: _ => rest
  | _ =>
    if base.isEmpty || base.toList.getLast? = some '/' then base ++ rest
    else base ++ "/" ++ rest

def expandHome (home path : String) : String :=
  match path.toList with
  | ['~'] => home
  | '~' :: '/' :: rest => join home (.ofList rest)
  | _ => path

def isAbsolute (path : String) : Bool := path.toList.head? = some '/'

def pieces (path : String) : List String := (Text.splitOn '/' path.toList).map .ofList

def parts (path : String) : List String := (pieces path).filter fun p => p ≠ "" && p ≠ "."

def ofParts (absolute : Bool) (parts : List String) : String :=
  (if absolute then "/" else "") ++ "/".intercalate parts

example : parts "./a//b/." = ["a", "b"] ∧ ofParts true ["a", ".."] = "/a/.." := by decide +kernel

end Path

inductive Config.Key where
  | dataPath | policy | logLevel | logFormat | org
deriving DecidableEq, Repr

namespace Config.Key

def name : Key → String
  | dataPath => "data_path"
  | policy => "on_invalid"
  | logLevel => "log_level"
  | logFormat => "log_format"
  | org => "org"

def all : List Key := [dataPath, policy, logLevel, logFormat, org]

def ofName? (s : String) : Option Key := all.find? (·.name == s)

@[simp] theorem ofName?_name (k : Key) : ofName? k.name = some k := by cases k <;> decide

end Config.Key

namespace Config

structure Settings where
  dataPath : Option String
  policy : Option String
  logLevel : Option String
  logFormat : Option String
  org : Option String
deriving DecidableEq, Repr

namespace Settings

def empty : Settings := ⟨none, none, none, none, none⟩

def get (s : Settings) : Key → Option String
  | .dataPath => s.dataPath
  | .policy => s.policy
  | .logLevel => s.logLevel
  | .logFormat => s.logFormat
  | .org => s.org

def set (s : Settings) (k : Key) (value : Option String) : Settings :=
  match k with
  | .dataPath => { s with dataPath := value }
  | .policy => { s with policy := value }
  | .logLevel => { s with logLevel := value }
  | .logFormat => { s with logFormat := value }
  | .org => { s with org := value }

@[simp] theorem get_set_self (s : Settings) (k : Key) (v : Option String) :
    (s.set k v).get k = v := by
  cases k <;> rfl

theorem get_set_of_ne (s : Settings) {k l : Key} (v : Option String) (h : l ≠ k) :
    (s.set k v).get l = s.get l := by
  cases k <;> cases l <;> first | rfl | exact absurd rfl h

theorem ext {s t : Settings} (h : ∀ k, s.get k = t.get k) : s = t := by
  cases s
  cases t
  simpa [get] using ⟨h .dataPath, h .policy, h .logLevel, h .logFormat, h .org⟩

def toList (s : Settings) : List (Key × String) :=
  Key.all.filterMap fun k => (s.get k).map fun v => (k, v)

end Settings

end Config

structure Config where
  defaults : Option Config.Settings
  labels : List Labeled
deriving DecidableEq, Repr

namespace Config

def empty : Config := ⟨none, []⟩

def get (c : Config) (k : Key) : Option String := c.defaults.bind (·.get k)

/-! ### Settings with their defaults -/

def dataPath (c : Config) (home : String) : String :=
  match c.get .dataPath with
  | some path => Path.expandHome home path
  | none => Path.join (Path.join home ".local/share") "warden"

def databasePath (c : Config) (home : String) : String := Path.join (c.dataPath home) "warden.db"

def policy (c : Config) : Except Error Policy :=
  match c.get .policy with
  | none => .ok .error
  | some s =>
    match Choice.ofWire? s with
    | some p => .ok p
    | none => .error (.config (.policy (.choice "OnInvalid" s (Choice.wires Policy))))

def logLevel (c : Config) : String := (c.get .logLevel).getD "info"

/-- Whether logs are JSON lines; the format's name is read in any case of letters. -/
def logsJson (c : Config) : Bool := (c.get .logFormat).any fun s => s.map Char.toLower == "json"

def org (c : Config) : String := (c.get .org).getD "Default"

def unknownKey (key : String) : Error := .config (.unknown key (Key.all.map (·.name)))

def valueOf (c : Config) (home : String) : Key → Except Error String
  | .dataPath => .ok (c.dataPath home)
  | .policy => c.policy.map Choice.wire
  | .logLevel => .ok c.logLevel
  | .logFormat => .ok (if c.logsJson then "json" else "pretty")
  | .org => .ok c.org

def value (c : Config) (home key : String) : Except Error String :=
  match Key.ofName? key with
  | some k => c.valueOf home k
  | none => .error (unknownKey key)

/-! ### Changes -/

def check (k : Key) (value : String) : Except Error Unit :=
  match k with
  | .policy => (Choice.parse (α := Policy) value).map fun _ => ()
  | .logFormat =>
    if value = "pretty" ∨ value = "json" then .ok () else .error (.config (.logFormat value))
  | _ => .ok ()

/-- Sets a setting. The section of settings is there afterwards, even if the value is refused. -/
def set (key value : String) (c : Config) : Except Error Unit × Config :=
  let settings := c.defaults.getD .empty
  match Key.ofName? key with
  | none => (.error (unknownKey key), { c with defaults := some settings })
  | some k =>
    match check k value with
    | .error e => (.error e, { c with defaults := some settings })
    | .ok () => (.ok (), { c with defaults := some (settings.set k (some value)) })

/-- Puts a label at the end; an earlier one for the same value goes. -/
def setLabel (value label : String) (c : Config) : Config :=
  { c with labels := c.labels.filter (·.value ≠ value) ++ [⟨value, label⟩] }

def registry (c : Config) : Registry := .ofList (c.labels.map fun l => (l.value, l.label))

/-! ### Text -/

def textOf? : Kdl.Value → Option (Option String)
  | ⟨none, .text s⟩ => some (some s)
  | ⟨none, .null⟩ => some none
  | _ => none

def settingsOf? (n : Kdl.Node) : Option Settings :=
  if n.typeName.isNone && n.arguments.isEmpty && n.children.isEmpty then
    n.properties.foldlM (fun s (name, v) => do
      return s.set (← Key.ofName? name) (← textOf? v)) .empty
  else none

def labelOf? (n : Kdl.Node) : Option Labeled :=
  match n.typeName, n.arguments, n.properties, n.children with
  | none, [⟨none, .text value⟩, ⟨none, .text label⟩], [], [] => some ⟨value, label⟩
  | _, _, _, _ => none

def addNode (c : Config) (n : Kdl.Node) : Option Config :=
  match n.name with
  | "defaults" =>
    if c.defaults.isSome then none
    else (settingsOf? n).map fun s => { c with defaults := some s }
  | "label" => (labelOf? n).map fun l => { c with labels := c.labels ++ [l] }
  | _ => none

def ofNodes? (ns : List Kdl.Node) : Option Config := ns.foldlM addNode empty

def read (s : String) : Except Error Config :=
  match (Kdl.read s).bind ofNodes? with
  | some c => .ok c
  | none => .error (.config .unreadable)

def inQuotes (s : String) : String := "\"" ++ s ++ "\""

def Settings.print (s : Settings) : String :=
  String.join (s.toList.map fun (k, v) => " " ++ k.name ++ "=" ++ inQuotes v)

def printLabel (l : Labeled) : String :=
  "label " ++ inQuotes l.value ++ " " ++ inQuotes l.label ++ "\n"

def header : String := "// warden configuration file\n\n"

def print (c : Config) : String :=
  header ++ "defaults" ++ (c.defaults.map (·.print)).getD "" ++ "\n" ++
    (if c.labels.isEmpty then "" else "\n") ++ String.join (c.labels.map printLabel)

def template : String := String.join [
  "// Global defaults\n",
  "// on_invalid is the conflict policy when a payload does not name one: error, skip or update\n",
  "// log_format is \"pretty\" or \"json\"; RUST_LOG overrides log_level\n",
  "defaults data_path=\"~/.local/share/warden\" on_invalid=\"error\" log_level=\"info\"",
  " log_format=\"pretty\" org=\"Default\"\n",
  "\n",
  "// Extra display labels for choice values\n",
  "// label \"linux\" \"Linux server\"\n"]

def candidates (home : String) : List String :=
  ["warden.kdl", Path.join home ".config/warden/warden.kdl",
    Path.join (Path.join home ".local/share") "warden/warden.kdl",
    Path.join home "warden/warden.kdl"]

def homePath (home : String) : String := Path.join home ".config/warden/warden.kdl"

end Config

end Custody
