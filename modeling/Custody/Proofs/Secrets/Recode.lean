import Mathlib.Logic.Function.Defs
import Custody.Proofs.Keyed
import Custody.Service

/-!
Secrets recoded by a function on texts, in records and in what callers submit. Whatever is computed
from these commutes with the recoding; only where a new secret is compared with the stored one does
the function have to be injective.
-/
namespace Custody

variable (f : String → String)

/-- A given secret recoded. A value that is no text is left for the checks to refuse. -/
def Json.Value.recode : Json.Value → Json.Value
  | .text s => .text (f s)
  | v => v

def Json.Value.recodeAt (key : String) (v : Json.Value) : Json.Value :=
  if key = "secret" then v.recode f else v

def Keyed.recode (o : Json.Object) : Json.Object := o.mapWith (Json.Value.recodeAt f)

def Account.recode (a : Account) : Account := { a with secret := a.secret.map f }

def Template.recode (t : Template) : Template := { t with secret := t.secret.map f }

def Candidate.recode (c : Candidate) : Candidate := { c with secret := c.secret.map f }

def Asset.Draft.recode (d : Asset.Draft) : Asset.Draft :=
  { d with accounts := d.accounts.map (Keyed.recode f) }

namespace Service

def Operation.recode : Operation → Operation
  | .createAsset draft org policy => .createAsset (draft.recode f) org policy
  | .createAccount payload policy => .createAccount (payload.recode f) policy
  | .updateAccount id payload => .updateAccount id (payload.recode f)
  | .bulkCreateAccounts payload policy => .bulkCreateAccounts (payload.recode f) policy
  | .createTemplate payload org => .createTemplate (payload.recode f) org
  | op => op

def Reply.recode : Reply → Reply
  | .asset a accounts => .asset a (accounts.map (Account.recode f))
  | .account a outcome => .account (a.recode f) outcome
  | .updated a => .updated (a.recode f)
  | .template t => .template (t.recode f)
  | r => r

/-- The records of a reply as callers see them, with no secret revealed. -/
def Reply.views (labels : Registry) : Reply → List Json.Value
  | .platform _ => []
  | .asset a accounts => a.view labels :: accounts.map (·.view labels false)
  | .account a _ => [a.view labels false]
  | .updated a => [a.view labels false]
  | .report _ => []
  | .template t => [t.view labels]
  | .done => []

end Service

variable {f}

namespace Json.Value

theorem recodeAt_of_ne {key : String} (h : key ≠ "secret") (v : Value) : v.recodeAt f key = v :=
  if_neg h

@[simp] theorem recodeAt_null (key : String) : recodeAt f key .null = .null := by
  unfold recodeAt
  split <;> rfl

theorem recodeAt_ne_null {v : Value} (h : v ≠ .null) (key : String) : v.recodeAt f key ≠ .null := by
  unfold recodeAt
  split
  · cases v <;> simp_all [recode]
  · exact h

@[simp] theorem asBool?_recodeAt (key : String) (v : Value) :
    (v.recodeAt f key).asBool? = v.asBool? := by
  unfold recodeAt
  split
  · cases v <;> rfl
  · rfl

@[simp] theorem recode_ofOption (s : Option String) :
    (ofOption text s).recode f = ofOption text (s.map f) := by cases s <;> rfl

theorem asText?_recode (v : Value) : (v.recode f).asText? = v.asText?.map f := by cases v <;> rfl

end Json.Value

namespace Keyed

variable (o : Json.Object) (key : String)

@[simp] theorem get?_recode : (o.recode f).get? key = (o.get? key).map (·.recodeAt f key) :=
  get?_mapWith _ key o

theorem get?_recode_of_ne {key : String} (h : key ≠ "secret") :
    (o.recode f).get? key = o.get? key := by
  rw [get?_recode]
  cases o.get? key with
  | none => rfl
  | some v => exact congrArg some (v.recodeAt_of_ne h)

@[simp] theorem contains_recode : (o.recode f).contains key = o.contains key :=
  contains_mapWith _ key o

@[simp] theorem erase_recode : (o.recode f).erase key = (o.erase key).recode f :=
  erase_mapWith _ key o

theorem place_recode (v : Json.Value) :
    (o.recode f).place key (v.recodeAt f key) = (o.place key v).recode f :=
  place_mapWith _ key o v

end Keyed

namespace Field

/-- A schema that takes a secret only as one. -/
def Discreet (schema : Schema) : Prop :=
  ∀ spec ∈ schema, spec.name = "secret" → spec.kind = .secret

instance (schema : Schema) : Decidable (Discreet schema) :=
  inferInstanceAs (Decidable (∀ spec ∈ schema, _))

theorem merge_recode (schema : Schema) (defaults request : Json.Object) :
    merge schema (defaults.recode f) (request.recode f) =
      (merge schema defaults request).recode f := by
  refine List.foldl_hom (Keyed.recode f) fun merged spec => ?_
  rw [merged.contains_recode, defaults.get?_recode]
  split
  · rfl
  · match defaults.get? spec.name with
    | none => rfl
    | some v =>
      by_cases hnull : v = .null
      · simp [hnull]
      · have hnull' := Json.Value.recodeAt_ne_null (f := f) hnull spec.name
        simp only [Option.map_some, merged.place_recode]

theorem accepts_recodeAt {spec : Spec} (h : spec.name = "secret" → spec.kind = .secret)
    (v : Json.Value) : spec.kind.accepts (v.recodeAt f spec.name) = spec.kind.accepts v := by
  unfold Json.Value.recodeAt
  split
  · next hname =>
    rw [h hname]
    cases v <;> rfl
  · rfl

theorem recodeAt_of_refused {spec : Spec} (h : spec.name = "secret" → spec.kind = .secret)
    {v : Json.Value} (hv : ¬ spec.kind.accepts v) : v.recodeAt f spec.name = v := by
  unfold Json.Value.recodeAt
  split
  · next hname =>
    rw [h hname] at hv
    cases v <;> simp_all [Kind.accepts, Json.Value.recode]
  · rfl

theorem mismatch?_recode {schema : Schema} (h : Discreet schema) (values : Json.Object) :
    mismatch? schema (values.recode f) = mismatch? schema values := by
  -- What a check refuses it refuses with the same words: a refused secret is no text.
  unfold mismatch?
  induction schema with
  | nil => rfl
  | cons spec rest ih =>
    obtain ⟨hspec, hrest⟩ := List.forall_mem_cons.mp h
    rw [List.findSome?_cons, List.findSome?_cons, ih hrest, values.get?_recode]
    cases values.get? spec.name with
    | none => rfl
    | some v =>
      simp only [Option.map_some, accepts_recodeAt hspec]
      by_cases hv : spec.kind.accepts v
      · simp only [hv, if_true]
      · simp only [hv, recodeAt_of_refused hspec hv]

theorem check_recode {schema : Schema} (h : Discreet schema) (values : Json.Object) :
    check schema (values.recode f) = check schema values := by
  rw [check, check, mismatch?_recode h]

end Field

namespace Template

theorem field_recode (t : Template) (name : String) :
    (t.recode f).field name = (t.field name).recodeAt f name := by
  fun_cases field t name
  case case5 => exact (Json.Value.recode_ofOption t.secret).symm
  all_goals simp_all [field, recode, Json.Value.recodeAt]

theorem valuesFor_recode (t : Template) (target : Field.Schema) :
    (t.recode f).valuesFor target = (t.valuesFor target).recode f := by
  change (handedOn target).foldl _ (Keyed.recode f []) = _
  refine List.foldl_hom (Keyed.recode f) fun values name => ?_
  rw [t.field_recode]
  by_cases hnull : t.field name = .null
  · simp [hnull]
  · have hnull' := Json.Value.recodeAt_ne_null (f := f) hnull name
    simp only [values.place_recode]

end Template

namespace Service

variable {o : Json.Object} {key : String}

@[simp] theorem text?_recode_secret : text? (o.recode f) "secret" = (text? o "secret").map f := by
  rw [text?, text?, o.get?_recode]
  cases o.get? "secret" with
  | none => rfl
  | some v => exact v.asText?_recode

@[simp] theorem text?_recode_of_ne (h : key ≠ "secret") : text? (o.recode f) key = text? o key := by
  rw [text?, text?, o.get?_recode_of_ne h]

@[simp] theorem flag?_recode : flag? (o.recode f) key = flag? o key := by
  rw [flag?, flag?, o.get?_recode]
  cases o.get? key with
  | none => rfl
  | some v => exact v.asBool?_recodeAt key

@[simp] theorem secretType?_recode : secretType? (o.recode f) = secretType? o := by
  rw [secretType?, secretType?, text?_recode_of_ne (by decide)]

@[simp] theorem requiredText_recode (h : key ≠ "secret") :
    requiredText (o.recode f) key = requiredText o key := by
  rw [requiredText, requiredText, text?_recode_of_ne h]

theorem control_recode {α : Type} {name wanted : String} {absent : α}
    {parse : Json.Value → Option (Except Error α)} (h : name ≠ "secret") :
    control (o.recode f) name wanted absent parse = control o name wanted absent parse := by
  rw [control, control, o.get?_recode_of_ne h]

theorem take_recode :
    Controls.take (o.recode f) = (Controls.take o).map (Prod.map id (Keyed.recode f)) := by
  have herase : controlNames.foldl Keyed.erase (o.recode f) =
      (controlNames.foldl Keyed.erase o).recode f :=
    List.foldl_hom (Keyed.recode f) fun o name => o.erase_recode name
  unfold Controls.take
  rw [herase, control_recode (by decide), control_recode (by decide), control_recode (by decide),
    control_recode (by decide)]
  change _ = Prod.map id (Keyed.recode f) <$> _
  simp only [map_bind, map_pure]
  rfl

theorem candidateOf_recode (assetId name username : String) (suFrom templateId : Option String) :
    candidateOf (o.recode f) assetId name username suFrom templateId =
      (candidateOf o assetId name username suFrom templateId).map (Candidate.recode f) := by
  unfold candidateOf
  rw [secretType?_recode]
  cases secretType? o with
  | error e => rfl
  | ok secretType => simp [Candidate.recode, bind, Except.bind, pure, Except.pure, Except.map]

theorem assetIds_recode : assetIds (o.recode f) = assetIds o := by
  rw [assetIds, assetIds, o.get?_recode_of_ne (by decide)]

end Service

section Records

variable (a : Account) (t : Template) (c : Candidate) (labels : Registry)

theorem Account.view_recode : (a.recode f).view labels false = a.view labels false := by
  simp [Account.view, Account.recode]

theorem Template.view_recode : (t.recode f).view labels = t.view labels := by
  simp [Template.view, Template.recode]

theorem Account.setSecret_recode (hf : f.Injective) (secret : String) :
    (a.recode f).setSecret (f secret) = (a.setSecret secret).recode f := by
  have hsame : (a.recode f).secret = some (f secret) ↔ a.secret = some secret := by
    rw [Account.recode]
    cases a.secret <;> simp [hf.eq_iff]
  unfold Account.setSecret
  by_cases h : a.secret = some secret
  · rw [if_pos h, if_pos (hsame.mpr h)]
  · rw [if_neg h, if_neg (mt hsame.mp h)]
    rfl

theorem Candidate.applyTo_recode (hf : f.Injective) (now : Time.Instant) :
    (c.recode f).applyTo (a.recode f) now = (c.applyTo a now).recode f := by
  unfold Candidate.applyTo
  cases hc : c.secret with
  | none => simp [Candidate.recode, hc, Account.recode]
  | some secret =>
    have hset := a.setSecret_recode hf secret
    simp only [Candidate.recode, hc, Option.map_some, hset]
    rfl

theorem Service.applyValues_recode (hf : f.Injective) (values : Json.Object)
    (secretType : Option SecretType) :
    applyValues (values.recode f) secretType (a.recode f) =
      (applyValues values secretType a).recode f := by
  unfold applyValues
  rw [text?_recode_secret]
  cases text? values "secret" with
  | none => simp [Account.recode]
  | some secret =>
    have hset := ({ a with secretType := secretType.getD a.secretType } : Account).setSecret_recode
      hf secret
    simp only [Option.map_some]
    unfold Account.recode at hset ⊢
    dsimp only at hset ⊢
    rw [hset]
    simp

end Records

theorem Service.Reply.views_recode (labels : Registry) (r : Reply) :
    (r.recode f).views labels = r.views labels := by
  cases r <;> simp [recode, views, Account.view_recode, Template.view_recode]

end Custody
