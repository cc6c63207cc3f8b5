import Custody.Protocol

/-!
Platforms: the operating profile that assets of a kind share. A draft is checked and normalised
into a platform; switches that the type does not allow are turned off, not refused.
-/
namespace Custody

structure Automation where
  ansibleEnabled : Bool
  ansibleConfig : Option Json.Value
  pingEnabled : Bool
  pushAccountEnabled : Bool
  gatherFactsEnabled : Bool
  changeSecretEnabled : Bool
  verifyAccountEnabled : Bool
  gatherAccountsEnabled : Bool

namespace Automation

def off : Automation := ⟨false, none, false, false, false, false, false, false⟩

open Json in
def shape : Shape Automation :=
  Automation.mk <$> .defaulted "ansible_enabled" Decode.bool false
    <*> .defaulted "ansible_config" (Decode.option Decode.any) none
    <*> .defaulted "ping_enabled" Decode.bool false
    <*> .defaulted "push_account_enabled" Decode.bool false
    <*> .defaulted "gather_facts_enabled" Decode.bool false
    <*> .defaulted "change_secret_enabled" Decode.bool false
    <*> .defaulted "verify_account_enabled" Decode.bool false
    <*> .defaulted "gather_accounts_enabled" Decode.bool false

def decode : Json.Decoder Automation := shape.decode "Automation"

def toJson (a : Automation) : Json.Value :=
  .object [("ansible_enabled", .bool a.ansibleEnabled),
    ("ansible_config", a.ansibleConfig.getD .null), ("ping_enabled", .bool a.pingEnabled),
    ("push_account_enabled", .bool a.pushAccountEnabled),
    ("gather_facts_enabled", .bool a.gatherFactsEnabled),
    ("change_secret_enabled", .bool a.changeSecretEnabled),
    ("verify_account_enabled", .bool a.verifyAccountEnabled),
    ("gather_accounts_enabled", .bool a.gatherAccountsEnabled)]

end Automation

structure CustomField where
  name : String
  label : String
  type : String
  default : String
  helpText : String
  choices : List String
deriving DecidableEq, Repr

namespace CustomField

open Json in
def shape : Shape CustomField :=
  CustomField.mk <$> .required "name" Decode.text <*> .required "label" Decode.text
    <*> .defaulted "type" Decode.text "str" <*> .defaulted "default" Decode.text ""
    <*> .defaulted "help_text" Decode.text ""
    <*> .defaulted "choices" (Decode.list Decode.text) []

def decode : Json.Decoder CustomField := shape.decode "CustomField"

def toJson (f : CustomField) : Json.Value :=
  .object [("name", .text f.name), ("label", .text f.label), ("type", .text f.type),
    ("default", .text f.default), ("help_text", .text f.helpText), ("choices", .texts f.choices)]

def types : List String := ["str", "text", "int", "float", "bool", "choice"]

def isIdentifier (s : String) : Bool :=
  match s.toList with
  | [] => false
  | c :: rest => (c.isAlpha || c == '_') && rest.all fun d => d.isAlphanum || d == '_'

/-- Lengths count bytes. -/
def check (f : CustomField) : Except Error Unit :=
  if !isIdentifier f.name || 128 < f.name.utf8ByteSize then .error (.invalid (.fieldName f.name))
  else if f.label.isEmpty || 128 < f.label.utf8ByteSize then .error (.invalid (.fieldLabel f.name))
  else if 1024 < f.default.utf8ByteSize || 1024 < f.helpText.utf8ByteSize then
    .error (.invalid (.fieldTexts f.name))
  else if !types.contains f.type then .error (.invalid (.fieldType f.name f.type types))
  else if f.type == "choice" && f.choices.isEmpty then .error (.invalid (.fieldChoices f.name))
  else .ok ()

end CustomField

structure Platform where
  id : String
  name : String
  category : Category
  type : AssetType
  charset : Charset
  domainEnabled : Bool
  suEnabled : Bool
  suMethod : Option SuMethod
  automation : Automation
  protocols : List Protocol
  customFields : List CustomField
  comment : String
  dateCreated : Time.Instant

structure Platform.Draft where
  name : String
  category : Category
  type : AssetType
  charset : Charset
  domainEnabled : Bool
  suEnabled : Bool
  suMethod : Option SuMethod
  automation : Automation
  protocols : List Protocol
  customFields : List CustomField
  comment : String

structure AssetType.Features where
  domain : Bool
  su : Bool
  ansible : Bool
  suMethods : List SuMethod
deriving DecidableEq, Repr

def AssetType.features : AssetType → AssetType.Features
  | linux | unix => ⟨true, true, true, [.sudo, .su]⟩
  | windows => ⟨true, false, true, []⟩
  | other => ⟨true, false, false, []⟩
  | general | switch | router | firewall => ⟨true, true, false, [.enable, .super, .superLevel]⟩
  | mysql | mariadb | postgresql | oracle | sqlserver | mongodb | redis =>
    ⟨true, false, false, []⟩
  | publicCloud | privateCloud | k8s => ⟨false, false, false, []⟩
  | website => ⟨false, false, false, []⟩

namespace Platform

namespace Draft

open Json in
def shape : Shape Draft :=
  Draft.mk <$> .required "name" Decode.text <*> .required "category" Choice.decode
    <*> .required "type" Choice.decode <*> .defaulted "charset" Choice.decode .utf8
    <*> .defaulted "domain_enabled" Decode.bool false
    <*> .defaulted "su_enabled" Decode.bool false
    <*> .defaulted "su_method" (Decode.option Choice.decode) none
    <*> .defaulted "automation" Automation.decode .off
    <*> .defaulted "protocols" (Decode.list Protocol.decode) []
    <*> .defaulted "custom_fields" (Decode.list CustomField.decode) []
    <*> .defaulted "comment" Decode.text ""

def decode : Json.Decoder Draft := shape.decode "PlatformPayload"

end Draft

open Json in
def shape : Shape Platform :=
  Platform.mk <$> .required "id" Decode.text <*> .required "name" Decode.text
    <*> .required "category" Choice.decode <*> .required "type" Choice.decode
    <*> .required "charset" Choice.decode <*> .required "domain_enabled" Decode.bool
    <*> .required "su_enabled" Decode.bool <*> .optional "su_method" Choice.decode
    <*> .required "automation" Automation.decode
    <*> .required "protocols" (Decode.list Protocol.decode)
    <*> .required "custom_fields" (Decode.list CustomField.decode)
    <*> .required "comment" Decode.text <*> .required "date_created" Decode.instant

def decode : Json.Decoder Platform := shape.decode "Platform"

def toJson (p : Platform) : Json.Value :=
  .object [("id", .text p.id), ("name", .text p.name), ("category", Choice.toJson p.category),
    ("type", Choice.toJson p.type), ("charset", Choice.toJson p.charset),
    ("domain_enabled", .bool p.domainEnabled), ("su_enabled", .bool p.suEnabled),
    ("su_method", .ofOption Choice.toJson p.suMethod), ("automation", p.automation.toJson),
    ("protocols", .list (p.protocols.map Protocol.toJson)),
    ("custom_fields", .list (p.customFields.map CustomField.toJson)),
    ("comment", .text p.comment), ("date_created", .text (p.dateCreated.text "Z"))]

/-- Names have to differ and ports may not be zero; whichever fault comes first is reported. -/
def checkProtocols (seen : List String) : List Protocol → Except Error Unit
  | [] => .ok ()
  | p :: rest =>
    if p.port = 0 then .error (.range (.port p.name))
    else if seen.contains p.name then .error (.invalid (.repeatedProtocol p.name))
    else checkProtocols (p.name :: seen) rest

/-- Secret types from the protocol's name where none are given. -/
def withSecretTypes (p : Protocol) : Protocol :=
  if p.secretTypes.isEmpty then
    { p with secretTypes := .ofList (protocolSecretTypes p.name) }
  else p

def promoteFirst : List Protocol → List Protocol
  | [] => []
  | p :: rest =>
    if (p :: rest).any (·.primary) then p :: rest else { p with primary := true } :: rest

def normalizeProtocols (ps : List Protocol) : Except Error (List Protocol) := do
  if ps.isEmpty then .error (.invalid .noProtocols)
  checkProtocols [] ps
  return promoteFirst (ps.map withSecretTypes)

/-- The method asked for, else the type's first; none while switching is off. -/
def chooseSuMethod (type : AssetType) (enabled : Bool) (asked : Option SuMethod) :
    Except Error (Option SuMethod) :=
  if !enabled then .ok none
  else match asked.or type.features.suMethods.head? with
    | none => .ok none
    | some m =>
      if type.features.suMethods.contains m then .ok (some m)
      else .error (.invalid (.suMethod m type))

def build (draft : Draft) (id : String) (now : Time.Instant) : Except Error Platform := do
  if draft.type.category ≠ draft.category then
    .error (.invalid (.category draft.type draft.category))
  let features := draft.type.features
  let protocols ← normalizeProtocols draft.protocols
  draft.customFields.forM CustomField.check
  let suEnabled := draft.suEnabled && features.su
  let suMethod ← chooseSuMethod draft.type suEnabled draft.suMethod
  return {
    id, name := draft.name, category := draft.category, type := draft.type
    charset := draft.charset
    domainEnabled := draft.domainEnabled && features.domain
    suEnabled, suMethod
    automation := { draft.automation with
      ansibleEnabled := draft.automation.ansibleEnabled && features.ansible }
    protocols, customFields := draft.customFields, comment := draft.comment, dateCreated := now }

def secretTypesFor (p : Platform) (exposed : List String) : SecretTypes :=
  .ofList ((p.protocols.filter fun q => exposed.contains q.name).flatMap (·.secretTypes.toList))

/-- Primary protocols count as required. -/
def demands (p : Platform) : Protocol.Demands where
  required := (p.protocols.filter fun q => q.required || q.primary).map (·.name)
  suggested := (p.protocols.filter (·.isDefault)).map fun q => ⟨q.name, q.port.toNat, false⟩

end Platform

/-- Entries for an asset that names none: required protocols first, then suggested ones, each name
once. -/
def Protocol.Demands.entriesFor (d : Protocol.Demands) (p : Platform) : List Protocol.Entry :=
  let required := (p.protocols.filter fun q => d.required.contains q.name).map fun q =>
    (⟨q.name, q.port.toNat, false⟩ : Protocol.Entry)
  (required ++ d.suggested).foldl
    (fun acc e => if acc.any (·.name == e.name) then acc else acc ++ [e]) []

end Custody
