import Custody.Store

/-!
How an account comes about: the defaults that a template hands on, the name, and the account to be
with its reconciliation with the accounts that its asset holds. Unset fields were not supplied: a
new account takes defaults for them, a stored one keeps its own.
-/
namespace Custody

namespace Template

structure Resolved where
  templateId : String
  values : Json.Object

def handedOn (target : Field.Schema) : List String :=
  (Field.templateSchema.map (·.name)).filter fun name =>
    !Field.auditFields.contains name && Field.declares target name

def valuesFor (t : Template) (target : Field.Schema) : Json.Object :=
  (handedOn target).foldl (fun values name =>
    match t.field name with
    | .null => values
    | v => values.place name v) []

def resolve (t : Template) (target : Field.Schema) : Resolved := ⟨t.id, t.valuesFor target⟩

def resolveStored [Store σ] (id : String) (target : Field.Schema) : Run σ Resolved := do
  let t ← Run.require (.template id) (← Run.ask fun s : σ => Store.template? s id)
  return t.resolve target

end Template

namespace Naming

def suffixed (name token : String) : String := name ++ "_" ++ token

theorem suffixed_eq (name token : String) : suffixed name token = name ++ "_" ++ token := rfl

/-- An explicit name is taken as it is; a clash then shows when it is stored. Without one the
fallback is used, with a token behind it if the asset has an account of that name. An account whose
name is the fallback keeps it. -/
def choose [Store σ] (explicit : Option String) (fallback asset : String)
    (current : Option Account) (token : String) (s : σ) : String :=
  match explicit.filter (· ≠ "") with
  | some name => name
  | none =>
    if current.any (·.name == fallback) then fallback
    else if (Store.accountByName? s asset fallback).isSome then suffixed fallback token
    else fallback

end Naming

structure Candidate where
  assetId : String
  name : String
  username : String
  secretType : SecretType
  secret : Option String
  privileged : Option Bool
  isActive : Option Bool
  comment : Option String
  suFrom : Option String
  source : Source
  sourceId : Option String
deriving DecidableEq

/-- How to look for the account that a candidate collides with: by slot alone, or by slot and, if
the slot is free, by name. -/
inductive Lookup where
  | slot | nameOrSlot
deriving DecidableEq, Repr

namespace Candidate

def forAsset (c : Candidate) (assetId : String) : Candidate := { c with assetId := assetId }

def toAccount (c : Candidate) (id : String) (now : Time.Instant) : Account where
  id := id
  assetId := c.assetId
  name := c.name
  username := c.username
  secret := c.secret
  secretType := c.secretType
  source := c.source
  sourceId := c.sourceId
  version := 1
  privileged := c.privileged.getD false
  isActive := c.isActive.getD true
  comment := c.comment.getD ""
  suFrom := c.suFrom
  dateCreated := now
  dateUpdated := now

def applyTo (c : Candidate) (a : Account) (now : Time.Instant) : Account :=
  let a := match c.secret with
    | some s => a.setSecret s
    | none => a
  { a with
    name := c.name, username := c.username, secretType := c.secretType
    source := c.source, sourceId := c.sourceId
    privileged := c.privileged.getD a.privileged, isActive := c.isActive.getD a.isActive
    comment := c.comment.getD a.comment, suFrom := c.suFrom.or a.suFrom
    dateUpdated := now }

variable {σ : Type} [Store σ]

/-- The account that the candidate collides with; the holder of its slot goes first. -/
def existing? (c : Candidate) (lookup : Lookup) (s : σ) : Option Account :=
  match Store.accountBySlot? s c.assetId c.username c.secretType with
  | some a => some a
  | none =>
    match lookup with
    | .slot => none
    | .nameOrSlot => Store.accountByName? s c.assetId c.name

def reconcile (c : Candidate) (lookup : Lookup) (policy : Policy) (id : String)
    (now : Time.Instant) : Run σ (Account × Outcome) := do
  match ← Run.ask (c.existing? lookup) with
  | none =>
    let a := c.toAccount id now
    Run.write (Store.insertAccount a)
    return (a, .created)
  | some a =>
    match policy with
    | .skip => return (a, .skipped)
    | .update =>
      let a := c.applyTo a now
      Run.write (Store.updateAccount a)
      return (a, .updated)
    | .error => throw (.conflict .account)

end Candidate

end Custody
