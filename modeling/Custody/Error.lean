import Custody.Field
import Custody.Outcome

/-!
What can go wrong, by cause. The wording is in `message` and nowhere else; each cause that a caller
may also state in words of its own has a constructor for that.
-/
namespace Custody

inductive Invalid where
  | choice (title given : String) (known : List String)
  | fieldKind (name : String) (kind : Field.Kind) (given : Json.Value)
  | control (name wanted : String) (given : Json.Value)
  | required (name : String)
  | payload (found : String)
  | assetIds (given : Json.Value)
  | category (type : AssetType) (given : Category)
  | noProtocols
  | repeatedProtocol (name : String)
  | fieldName (name : String)
  | fieldLabel (name : String)
  | fieldTexts (name : String)
  | fieldType (name given : String) (known : List String)
  | fieldChoices (name : String)
  | suMethod (method : SuMethod) (type : AssetType)
  | protocolText (given : String)
  | protocolPort (given : String)
  | labelText (given : String)
  | suFromItself
  | suFromElsewhere
  | stated (text : String)

inductive Missing where
  | platform (id : String)
  | asset (id : String)
  | template (id : String)
  | account (id : String)
  | stated (text : String)
deriving DecidableEq, Repr

inductive Clash where
  | account
  | platformName (name : String)
  | templateName (name : String)
  | stated (text : String)
deriving DecidableEq, Repr

inductive Beyond where
  | port (protocol : String)
  | stated (text : String)
deriving DecidableEq, Repr

inductive Setting where
  | unreadable
  | unknown (key : String) (known : List String)
  | logFormat (given : String)
  | policy (cause : Invalid)
  | noFile
  | fileExists (path : String)
  | stated (text : String)

inductive StorageFault where
  | reference
  | unopenable (path : String)
  | noJournal
  | unreadable
  | notDatabase
  | readOnly
  | authority (given : String)
  | noMode (kind given : String)
  | modeNotAllowed (given : String)
  | noSystem (given : String)
  | zeroByte (position : Nat)
  | tableExists (table script : String) (offset : Nat)
  | beyondColumn (value : Int) (column : Nat)
deriving DecidableEq, Repr

inductive Error where
  | io (text : String)
  | storage (fault : StorageFault)
  | duplicate (constraint : String)
  | json (cause : Json.DecodeError)
  | config (cause : Setting)
  | notFound (what : Missing)
  | conflict (what : Clash)
  | bulkFailed (entries : List Bulk.Entry)
  | range (what : Beyond)
  | missingProtocols (names : List String)
  | invalid (cause : Invalid)
  | other (text : String)

def Invalid.message : Invalid → String
  | choice title given known =>
    "Invalid " ++ title ++ " '" ++ given ++ "'. Valid values: " ++ ", ".intercalate known
  | fieldKind name kind given =>
    name ++ ": expected " ++ kind.name ++ " value, got " ++ given.compact
  | control name wanted given => name ++ ": expected " ++ wanted ++ ", got " ++ given.compact
  | required name => name ++ ": This field is required."
  | payload found => "Expected a JSON object, got " ++ found
  | assetIds given => "assets: expected asset ids, got " ++ given.compact
  | category type given =>
    "type '" ++ Choice.wire type ++ "' does not belong to category '" ++ Choice.wire given ++ "'"
  | noProtocols => "Protocols is required"
  | repeatedProtocol name => "Duplicate protocol: " ++ name
  | fieldName name => "custom_fields: invalid name '" ++ name ++ "'"
  | fieldLabel name => "custom_fields." ++ name ++ ": label must be 1-128 characters"
  | fieldTexts name =>
    "custom_fields." ++ name ++ ": default and help_text are limited to 1024 characters"
  | fieldType name given known =>
    "custom_fields." ++ name ++ ": invalid type '" ++ given ++ "'. Valid values: " ++
      ", ".intercalate known
  | fieldChoices name => "custom_fields." ++ name ++ ": choice fields need choices"
  | suMethod method type =>
    "su_method '" ++ Choice.wire method ++ "' is not available for type '" ++ Choice.wire type ++
      "'"
  | protocolText given => "Invalid protocol '" ++ given ++ "'. Expected name/port"
  | protocolPort given => "Invalid port in protocol '" ++ given ++ "'"
  | labelText given => "Invalid label '" ++ given ++ "'. Expected name:value"
  | suFromItself => "su_from: an account cannot switch from itself"
  | suFromElsewhere => "su_from: account must belong to the same asset"
  | stated text => text

def Missing.message : Missing → String
  | platform id => "Platform not found: " ++ id
  | asset id => "Asset not found: " ++ id
  | template id => "Template not found: " ++ id
  | account id => "Account not found: " ++ id
  | stated text => text

def Clash.message : Clash → String
  | account => "Account already exists"
  | platformName name => "Platform name already exists: " ++ name
  | templateName name => "Template name already exists: " ++ name
  | stated text => text

def Beyond.message : Beyond → String
  | port protocol => protocol ++ ": port out of range (1-65535)"
  | stated text => text

def Setting.message : Setting → String
  | unreadable => "error parsing KDL"
  | unknown key known =>
    "Unknown setting: " ++ key ++ ". Valid settings: " ++ ", ".intercalate known
  | logFormat given => "Invalid log_format '" ++ given ++ "'. Valid values: pretty, json"
  | policy cause => cause.message
  | noFile => "Config file not found. Run 'warden config generate' first."
  | fileExists path =>
    "Config file already exists at: " ++ path ++ ". Use --overwrite to replace it."
  | stated text => text

def StorageFault.message : StorageFault → String
  | reference => "FOREIGN KEY constraint failed"
  | unopenable path => "unable to open database file: " ++ path
  | noJournal => "unable to open database file"
  | unreadable => "disk I/O error"
  | notDatabase => "file is not a database"
  | readOnly => "attempt to write a readonly database"
  | authority given => "invalid uri authority: " ++ given
  | noMode kind given => "no such " ++ kind ++ " mode: " ++ given
  | modeNotAllowed given => "access mode not allowed: " ++ given
  | noSystem given => "no such vfs: " ++ given
  | zeroByte position => "nul byte found in provided data at position: " ++ toString position
  | tableExists table script offset =>
    "table " ++ table ++ " already exists in " ++ script ++ " at offset " ++ toString offset
  | beyondColumn value column =>
    "Integer " ++ toString value ++ " out of range at index " ++ toString column

namespace Error

def message : Error → String
  | io text => text
  | storage fault => "database error: " ++ fault.message
  | duplicate constraint => "uniqueness violation: " ++ constraint
  | json cause => "JSON error: " ++ cause.message
  | config cause => "config error: " ++ cause.message
  | notFound what => what.message
  | conflict what => what.message
  | bulkFailed entries => "bulk creation failed for " ++ toString entries.length ++ " asset(s)"
  | range what => what.message
  | missingProtocols names => "Protocol is required: " ++ ", ".intercalate names
  | invalid cause => cause.message
  | other text => text

/-- A write that a uniqueness constraint refused; the caller may retry under another name. -/
def isDuplicate : Error → Bool
  | duplicate _ => true
  | _ => false

end Error

namespace Choice

def parse [Choice α] (s : String) : Except Error α :=
  match ofWire? s with
  | some a => .ok a
  | none => .error (.invalid (.choice (title α) s (wires α)))

def decode [Choice α] : Json.Decoder α := Json.Decode.choice (wires α) ofWire?

def toJson [Choice α] (a : α) : Json.Value := .text (wire a)

end Choice

def Field.check (schema : Field.Schema) (values : Json.Object) : Except Error Unit :=
  match Field.mismatch? schema values with
  | some (spec, v) => .error (.invalid (.fieldKind spec.name spec.kind v))
  | none => .ok ()

def Json.Value.kindText : Json.Value → String
  | .null => "null"
  | .bool _ => "a boolean"
  | .int _ => "a number"
  | .float _ => "a number"
  | .text _ => "a string"
  | .list _ => "an array"
  | .object _ => "an object"

def payloadOf : Json.Value → Except Error Json.Object
  | .object members => .ok members
  | v => .error (.invalid (.payload v.kindText))

end Custody
