import Custody.Account.Candidate
import Custody.Asset.Tree
import Custody.Bulk

/-!
The write pipelines over payloads: take the controls out, lay template defaults underneath, check
the kinds of the fields, parse, choose a name, reconcile, push. Which of two faults is reported
follows from the order of the steps.
-/
namespace Custody.Service

/-- Payload members that steer a write and describe no field. -/
structure Controls where
  template : Option String
  policy : Option Policy
  pushNow : Bool
  params : Option Json.Value

def control (payload : Json.Object) (name wanted : String) (absent : α)
    (parse : Json.Value → Option (Except Error α)) : Except Error α :=
  match payload.get? name with
  | none => .ok absent
  | some .null => .ok absent
  | some v => (parse v).getD (.error (.invalid (.control name wanted v)))

def controlNames : List String := ["template", "on_invalid", "push_now", "params"]

def Controls.take (payload : Json.Object) : Except Error (Controls × Json.Object) := do
  let template ← control payload "template" "an id" none fun v =>
    v.asText?.map fun s => .ok (if s = "" then none else some s)
  let policy ← control payload "on_invalid" "a string" none fun v =>
    v.asText?.map fun s => (Choice.parse s).map some
  let pushNow ← control payload "push_now" "a boolean" false fun v => v.asBool?.map .ok
  let params ← control payload "params" "an object" none fun v =>
    match v with
    | .object _ => some (.ok (some v))
    | _ => none
  return (⟨template, policy, pushNow, params⟩, controlNames.foldl Keyed.erase payload)

def text? (values : Json.Object) (key : String) : Option String :=
  (values.get? key).bind Json.Value.asText?

def flag? (values : Json.Object) (key : String) : Option Bool :=
  (values.get? key).bind Json.Value.asBool?

def secretType? (values : Json.Object) : Except Error (Option SecretType) :=
  match text? values "secret_type" with
  | none => .ok none
  | some s => (Choice.parse s).map some

def requiredText (values : Json.Object) (key : String) : Except Error String :=
  match (text? values key).filter (· ≠ "") with
  | some s => .ok s
  | none => .error (.invalid (.required key))

variable {σ : Type} [Store σ]

def withTemplate (template : Option String) (schema : Field.Schema) (payload : Json.Object) :
    Run σ (Json.Object × Option String) :=
  match template with
  | none => pure (payload, none)
  | some id => do
    let resolved ← Template.resolveStored id schema
    return (Field.merge schema resolved.values payload, some resolved.templateId)

def checkSuFrom (suFrom assetId : String) (self : Option String) : Run σ Unit := do
  if self = some suFrom then throw (.invalid .suFromItself)
  let a ← Run.require (.account suFrom) (← Run.ask fun s : σ => Store.account? s suFrom)
  if a.assetId ≠ assetId then throw (.invalid .suFromElsewhere)

def pushIfAsked (c : Controls) (ids : List String) (now : Time.Instant) : Run σ Unit :=
  if c.pushNow && !ids.isEmpty then
    Run.lift fun s => ((), Store.enqueue ⟨ids, c.params⟩ now s)
  else pure ()

def sourceOf (templateId : Option String) : Source :=
  if templateId.isSome then .template else .manual

def candidateOf (values : Json.Object) (assetId name username : String)
    (suFrom templateId : Option String) : Except Error Candidate := do
  let secretType ← secretType? values
  return {
    assetId, name, username
    secretType := secretType.getD .password
    secret := text? values "secret"
    privileged := flag? values "privileged"
    isActive := flag? values "is_active"
    comment := text? values "comment"
    suFrom, source := sourceOf templateId, sourceId := templateId }

/-- Creates one account. Where it collides with one of the same asset, the payload's policy or else
the given one decides. -/
def createAccount (payload : Json.Object) (policy : Policy) : Run σ (Account × Outcome) := do
  let (controls, payload) ← Run.of (Controls.take payload)
  let (values, templateId) ← withTemplate controls.template Field.accountSchema payload
  Run.of (Field.check Field.accountSchema values)
  let assetId ← Run.of (requiredText values "asset")
  let username ← Run.of (requiredText values "username")
  let _ ← Run.require (.asset assetId) (← Run.ask fun s : σ => Store.asset? s assetId)
  let suFrom := text? values "su_from"
  if let some other := suFrom then checkSuFrom other assetId none
  let d ← Run.draw
  let name ← Run.ask (Naming.choose (text? values "name") username assetId none d.token)
  let candidate ← Run.of (candidateOf values assetId name username suFrom templateId)
  let (account, outcome) ← Run.transaction
    (candidate.reconcile .nameOrSlot (controls.policy.getD policy) d.id d.now)
  if outcome.changed then pushIfAsked controls [account.id] d.now
  return (account, outcome)

def applyValues (values : Json.Object) (secretType : Option SecretType) (a : Account) : Account :=
  let a := { a with secretType := secretType.getD a.secretType }
  let a := match text? values "secret" with
    | some s => a.setSecret s
    | none => a
  { a with
    privileged := (flag? values "privileged").getD a.privileged
    isActive := (flag? values "is_active").getD a.isActive
    comment := (text? values "comment").getD a.comment
    suFrom := if values.contains "su_from" then text? values "su_from" else a.suFrom }

/-- Updates an account. Its username and asset stay as they are whatever the payload says, and it
no longer refers to a template. -/
def updateAccount (id : String) (payload : Json.Object) : Run σ Account := do
  let (controls, payload) ← Run.of (Controls.take payload)
  let payload := (payload.erase "username").erase "asset"
  let (values, _) ← withTemplate controls.template Field.accountSchema payload
  Run.of (Field.check Field.accountSchema values)
  let old ← Run.require (.account id) (← Run.ask fun s : σ => Store.account? s id)
  let d ← Run.draw
  let name ← Run.ask
    (Naming.choose (text? values "name") old.name old.assetId (some old) d.token)
  let secretType ← Run.of (secretType? values)
  let new := applyValues values secretType old
  if values.contains "su_from" then
    if let some other := new.suFrom then checkSuFrom other old.assetId (some old.id)
  let new := { new with name, sourceId := none, dateUpdated := d.now }
  Run.transaction (Run.write (Store.updateAccount new))
  pushIfAsked controls [new.id] d.now
  return new

def assetIds (payload : Json.Object) : Except Error (List String) := do
  let ids ← match payload.get? "assets" with
    | some (.list items) => items.mapM fun v =>
      match v with
      | .text s => .ok s
      | v => .error (.invalid (.assetIds v))
    | _ => .ok []
  if ids.isEmpty then .error (.invalid (.required "assets")) else .ok ids

/-- Creates the same account on every listed asset. An unknown asset fails the call before anything
is written. -/
def bulkCreateAccounts (payload : Json.Object) (policy : Policy) : Run σ (List Bulk.Entry) := do
  let (controls, payload) ← Run.of (Controls.take payload)
  let ids ← Run.of (assetIds payload)
  let (values, templateId) ←
    withTemplate controls.template Field.bulkSchema (payload.erase "assets")
  Run.of (Field.check Field.bulkSchema values)
  let username ← Run.of (requiredText values "username")
  let name := ((text? values "name").filter (· ≠ "")).getD username
  let candidate ← Run.of (candidateOf values "" name username none templateId)
  let targets ← ids.mapM Bulk.Target.load
  let d ← Run.draw
  let entries ← Bulk.createDrawing candidate targets (controls.policy.getD policy)
  let changed := (entries.filter (·.changed)).filterMap (·.account)
  pushIfAsked controls changed d.now
  return entries

def createTemplate (payload : Json.Object) (org : String) : Run σ Template := do
  Run.of (Field.check Field.templateSchema payload)
  let d ← Run.draw
  let name ← Run.of (requiredText payload "name")
  let username ← Run.of (requiredText payload "username")
  let secretType ← Run.of (secretType? payload)
  let template : Template := {
    id := d.id, orgId := org, name, username
    secret := text? payload "secret"
    secretType := secretType.getD .password
    privileged := (flag? payload "privileged").getD false
    isActive := (flag? payload "is_active").getD true
    comment := text? payload "comment"
    dateCreated := d.now, dateUpdated := d.now }
  Run.rewording (fun e => if e.isDuplicate then .conflict (.templateName name) else e)
    (Run.write (Store.insertTemplate template))
  return template

/-- The templates that fit any of the protocols; password templates if none is named. -/
def templatesFor (protocols : List String) (s : σ) : List Template :=
  let types := SecretTypes.ofList (protocols.flatMap protocolSecretTypes)
  Store.templates s (if types.isEmpty then [.password] else types.toList)

/-- Deletes a template; accounts made from it keep their reference. -/
def deleteTemplate (id : String) : Run σ Unit := do
  if !(← Run.write (Store.deleteTemplate id)) then throw (.notFound (.template id))

def createPlatform (draft : Platform.Draft) : Run σ Platform := do
  if (Text.trim draft.name).isEmpty then throw (.invalid (.required "name"))
  let d ← Run.draw
  let platform ← Run.of (Platform.build draft d.id d.now)
  Run.rewording (fun e => if e.isDuplicate then .conflict (.platformName platform.name) else e)
    (Run.write (Store.insertPlatform platform))
  return platform

/-- An account payload nested in an asset's: a copied account hands on its secret only. -/
def nestedPayload (assetId : String) (payload : Json.Object) : Run σ Json.Object :=
  match payload.get? "id" with
  | none => pure (payload.place "asset" (.text assetId))
  | some v => do
    let id := v.asText?.getD ""
    let a ← Run.require (.account id) (← Run.ask fun s : σ => Store.account? s id)
    return ((payload.erase "id").place "secret" (.ofOption .text a.secret)).place "asset"
      (.text assetId)

/-- Creates an asset with its nodes and accounts as one unit; returns it as stored. -/
def createAsset (draft : Asset.Draft) (org : String) (policy : Policy) :
    Run σ (Asset × List Account) := do
  if (Text.trim draft.name).isEmpty then throw (.invalid (.required "name"))
  let platform ← Run.require (.platform draft.platform)
    (← Run.ask fun s : σ => Store.platform? s draft.platform)
  let demands := platform.demands
  let entries ← Run.of (match draft.protocols with
    | some inputs => inputs.mapM Asset.ProtocolInput.toEntry
    | none => .ok (demands.entriesFor platform))
  let validated ← Run.of (demands.validate entries)
  let protocols ← Run.of (validated.mapM Protocol.Entry.toProtocol)
  let labels ← Run.of (draft.labels.mapM Asset.LabelInput.toLabel)
  let paths := if draft.nodes.isEmpty then ["/" ++ org] else draft.nodes.map (Node.pathUnder org)
  let d ← Run.draw
  Run.transaction do
    let nodes ← paths.mapM Node.ensure
    let asset : Asset := {
      id := d.id, name := draft.name, address := draft.address, platformId := platform.id
      category := platform.category, type := platform.type
      domain := if platform.domainEnabled then draft.domain else none
      isActive := draft.isActive, comment := draft.comment, protocols, labels
      nodeIds := nodes.map (·.id), dateCreated := d.now }
    Run.write (Store.insertAsset asset)
    let accounts ← draft.accounts.mapM fun payload => do
      let (account, _) ← createAccount (← nestedPayload asset.id payload) policy
      return account
    let stored ← Run.require (.asset asset.id) (← Run.ask fun s : σ => Store.asset? s asset.id)
    return (stored, accounts)

def deleteAsset (id : String) : Run σ Unit := do
  if !(← Run.write (Store.deleteAsset id)) then throw (.notFound (.asset id))

inductive Operation where
  | createPlatform (draft : Platform.Draft)
  | createAsset (draft : Asset.Draft) (org : String) (policy : Policy)
  | deleteAsset (id : String)
  | createAccount (payload : Json.Object) (policy : Policy)
  | updateAccount (id : String) (payload : Json.Object)
  | bulkCreateAccounts (payload : Json.Object) (policy : Policy)
  | createTemplate (payload : Json.Object) (org : String)
  | deleteTemplate (id : String)

inductive Reply where
  | platform (p : Platform)
  | asset (a : Asset) (accounts : List Account)
  | account (a : Account) (outcome : Outcome)
  | updated (a : Account)
  | report (entries : List Bulk.Entry)
  | template (t : Template)
  | done

def Operation.run : Operation → Run σ Reply
  | .createPlatform draft => do return .platform (← Service.createPlatform draft)
  | .createAsset draft org policy => do
    let (asset, accounts) ← Service.createAsset draft org policy
    return .asset asset accounts
  | .deleteAsset id => do
    Service.deleteAsset id
    return .done
  | .createAccount payload policy => do
    let (account, outcome) ← Service.createAccount payload policy
    return .account account outcome
  | .updateAccount id payload => do return .updated (← Service.updateAccount id payload)
  | .bulkCreateAccounts payload policy => do
    return .report (← Service.bulkCreateAccounts payload policy)
  | .createTemplate payload org => do return .template (← Service.createTemplate payload org)
  | .deleteTemplate id => do
    Service.deleteTemplate id
    return .done

end Custody.Service
