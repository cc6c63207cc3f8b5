import Custody.Choice
import Custody.Text.Blank

/-!
Arguments of the command line. The words name a command and the options are read at the level at
which they stand; what follows `--` are operands. A value may stand behind its option or be joined
to it.
-/
namespace Custody.CommandLine

inductive RecordCommand where
  | addPlatform (file : String)
  | listPlatforms
  | listTypes (category : Option Category)
  | addAsset (file : String)
  | listAssets
  | showAsset (id : String)
  | deleteAsset (id : String)
  | addTemplate (file : String)
  | listTemplates (protocols : Option String)
  | deleteTemplate (id : String)
  | addAccount (file : String)
  | updateAccount (id file : String)
  | addAccounts (file : String)
  | listAccounts (asset : Option String)
  | showAccount (id : String) (reveal : Bool)
  | listPushes (limit : Option Nat)
deriving DecidableEq, Repr

inductive ConfigCommand where
  | generate (path : Option String) (overwrite : Bool)
  | list
  | get (key : String)
  | set (key value : String)
deriving DecidableEq, Repr

inductive Command where
  | records (c : RecordCommand)
  | config (c : ConfigCommand)
deriving DecidableEq, Repr

structure Invocation where
  database : Option String
  config : Option String
  command : Command
deriving DecidableEq, Repr

inductive Refusal where
  | help | misuse
deriving DecidableEq, Repr

inductive Token where
  | escape
  | long (name : String) (value : Option String)
  | short (name : Char) (rest : List Char)
  | word
deriving DecidableEq, Repr

def Token.of (s : String) : Token :=
  match s.toList with
  | ['-', '-'] => escape
  | '-' :: '-' :: cs =>
    match Text.cutFirst '=' cs with
    | some (name, value) => long (.ofList name) (some (.ofList value))
    | none => long (.ofList cs) none
  | '-' :: c :: cs => short c cs
  | _ => word

structure Flag where
  long : String
  short : Option Char
  accepts : Option (String → Bool)

structure Given where
  options : List (String × String)
  operands : List String

namespace Given

def empty : Given := ⟨[], []⟩

def value? (g : Given) (name : String) : Option String := g.options.lookup name

def has (g : Given) (name : String) : Bool := (g.value? name).isSome

def add (g : Given) (f : Flag) (value : String) : Except Refusal Given :=
  if g.has f.long || !f.accepts.all (· value) then .error .misuse
  else .ok { g with options := g.options ++ [(f.long, value)] }

end Given

def namedFlag (flags : List Flag) : Token → Except Refusal (Flag × Option String)
  | .long "help" none => .error .help
  | .long name value =>
    match flags.find? (·.long = name) with
    | some f => .ok (f, value)
    | none => .error .misuse
  | .short 'h' _ => .error .help
  | .short c joined =>
    match flags.find? (·.short = some c) with
    | none => .error .misuse
    | some f =>
      match joined with
      | [] => .ok (f, none)
      | '=' :: value => .ok (f, some (.ofList value))
      | value => .ok (f, some (.ofList value))
  | _ => .error .misuse

/-- Reads a level up to its end: options and so many operands. Without a number of operands the
first word is a command, and the level ends before it. -/
def scan (flags : List Flag) (operands : Option Nat) :
    List String → Given → Except Refusal (Given × List String)
  | [], g => .ok (g, [])
  | s :: rest, g =>
    match Token.of s with
    | .word =>
      match operands with
      | none => .ok (g, s :: rest)
      | some n =>
        if g.operands.length < n then
          scan flags operands rest { g with operands := g.operands ++ [s] }
        else .error .misuse
    | .escape =>
      if operands.isNone then .error .misuse
      else .ok ({ g with operands := g.operands ++ rest }, [])
    | token =>
      match namedFlag flags token with
      | .error e => .error e
      | .ok (f, joined) =>
        match f.accepts, joined with
        | none, some _ => .error .misuse
        | none, none =>
          match g.add f "" with
          | .error e => .error e
          | .ok g => scan flags operands rest g
        | some _, some value =>
          match g.add f value with
          | .error e => .error e
          | .ok g => scan flags operands rest g
        | some _, none =>
          match rest with
          | [] => .error .misuse
          | value :: rest =>
            if Token.of value ≠ .word then .error .misuse
            else match g.add f value with
              | .error e => .error e
              | .ok g => scan flags operands rest g
termination_by words => words.length

/-! ### The commands and their options -/

def isPath (s : String) : Bool := !s.isEmpty

def count? (s : String) : Option Nat :=
  let digits : List Char := match s.toList with
    | '+' :: cs => cs
    | cs => cs
  let n := digits.foldl (fun n c => 10 * n + (c.toNat - '0'.toNat)) 0
  if digits ≠ [] ∧ digits.all Char.isDigit ∧ n < 0x10000000000000000 then some n else none

def databaseFlag : Flag := ⟨"db", none, some isPath⟩

def configFlag : Flag := ⟨"config", none, some isPath⟩

/-- Options that every level takes; the innermost wins. -/
def commonFlags : List Flag := [databaseFlag, configFlag]

def fileFlag : Flag := ⟨"file", some 'f', some isPath⟩

def categoryFlag : Flag :=
  ⟨"category", some 'c', some fun s => (Choice.ofWire? (α := Category) s).isSome⟩

def protocolsFlag : Flag := ⟨"protocols", some 'p', some fun _ => true⟩

def assetFlag : Flag := ⟨"asset", some 'a', some fun _ => true⟩

def limitFlag : Flag := ⟨"limit", some 'n', some fun s => (count? s).isSome⟩

def pathFlag : Flag := ⟨"path", none, some isPath⟩

def revealFlag : Flag := ⟨"reveal", none, none⟩

def overwriteFlag : Flag := ⟨"overwrite", none, none⟩

/-- A command: its options, how many operands it takes at most, and the command that operands and
options make, if they do. -/
structure Form where
  flags : List Flag
  operands : Nat
  command? : Given → Option Command

def bare (c : Command) : Form := ⟨[], 0, fun g => if g.operands = [] then some c else none⟩

def onFile (f : String → RecordCommand) : Form :=
  ⟨[fileFlag], 0, fun g =>
    if g.operands = [] then (g.value? "file").map (.records ∘ f) else none⟩

def onOperand (f : String → Command) : Form :=
  ⟨[], 1, fun g => match g.operands with
    | [operand] => some (f operand)
    | _ => none⟩

def filtered (flag : Flag) (f : Option String → RecordCommand) : Form :=
  ⟨[flag], 0, fun g => if g.operands = [] then some (.records (f (g.value? flag.long))) else none⟩

def platformForms : List (String × Form) := [
  ("add", onFile .addPlatform),
  ("list", bare (.records .listPlatforms)),
  ("types", filtered categoryFlag fun c => .listTypes (c.bind Choice.ofWire?))]

def assetForms : List (String × Form) := [
  ("add", onFile .addAsset),
  ("list", bare (.records .listAssets)),
  ("show", onOperand fun id => .records (.showAsset id)),
  ("delete", onOperand fun id => .records (.deleteAsset id))]

def templateForms : List (String × Form) := [
  ("add", onFile .addTemplate),
  ("list", filtered protocolsFlag .listTemplates),
  ("delete", onOperand fun id => .records (.deleteTemplate id))]

def accountForms : List (String × Form) := [
  ("add", onFile .addAccount),
  ("update", ⟨[fileFlag], 1, fun g => match g.operands, g.value? "file" with
    | [id], some file => some (.records (.updateAccount id file))
    | _, _ => none⟩),
  ("bulk", onFile .addAccounts),
  ("list", filtered assetFlag .listAccounts),
  ("show", ⟨[revealFlag], 1, fun g => match g.operands with
    | [id] => some (.records (.showAccount id (g.has "reveal")))
    | _ => none⟩)]

def configForms : List (String × Form) := [
  ("generate", ⟨[pathFlag, overwriteFlag], 0, fun g =>
    if g.operands = [] then some (.config (.generate (g.value? "path") (g.has "overwrite")))
    else none⟩),
  ("list", bare (.config .list)),
  ("get", onOperand fun key => .config (.get key)),
  ("set", ⟨[], 2, fun g => match g.operands with
    | [key, value] => some (.config (.set key value))
    | _ => none⟩)]

def groups : List (String × List (String × Form)) := [
  ("platform", platformForms), ("asset", assetForms), ("template", templateForms),
  ("account", accountForms), ("config", configForms)]

def pushForm : Form := filtered limitFlag fun n => .listPushes (n.bind count?)

def innermost (name : String) (levels : List Given) : Option String :=
  levels.reverse.findSome? (·.value? name)

def finish (levels : List Given) (form : Form) (words : List String) :
    Except Refusal Invocation := do
  let (g, _) ← scan (form.flags ++ commonFlags) (some form.operands) words .empty
  match form.command? g with
  | some command =>
    let levels := levels ++ [g]
    return ⟨innermost "db" levels, innermost "config" levels, command⟩
  | none => .error .misuse

def helpOn (named : Bool) : Refusal := if named then .help else .misuse

def namesForm (forms : List (String × Form)) : List String → Bool
  | [] => true
  | [word] => word = "help" || (forms.lookup word).isSome
  | _ => false

def namesCommand : List String → Bool
  | [] => true
  | word :: rest =>
    match groups.lookup word with
    | some forms => namesForm forms rest
    | none => (word = "help" || word = "push-log") && rest.isEmpty

def choose (forms : List (String × Form)) (levels : List Given) (words : List String) :
    Except Refusal Invocation := do
  match ← scan commonFlags none words .empty with
  | (_, []) => .error .misuse
  | (g, word :: rest) =>
    if word = "help" then .error (helpOn (namesForm forms rest))
    else match forms.lookup word with
      | some form => finish (levels ++ [g]) form rest
      | none => .error .misuse

def Invocation.read (words : List String) : Except Refusal Invocation := do
  match ← scan commonFlags none words .empty with
  | (_, []) => .error .misuse
  | (g, word :: rest) =>
    if word = "help" then .error (helpOn (namesCommand rest))
    else if word = "push-log" then finish [g] pushForm rest
    else match groups.lookup word with
      | some forms => choose forms [g] rest
      | none => .error .misuse

end Custody.CommandLine
