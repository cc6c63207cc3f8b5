import Custody.Proofs.Service.Agreement
import Custody.Proofs.Service.Layers

/-!
What an account is when it is created. Every field of it is one of the payload over the template
that the payload names, or its default; of the store only the names on the asset count, and of the
template no more than the columns that it hands on. What else the payload holds is not read at all.
-/
namespace Custody

open Run Store

namespace Service

/-- What an account is called for which this stands under its name: a text that is not empty, or
else the fallback, with the token behind it if that is taken. -/
inductive Named (v : Json.Value) (fallback : String) (taken : Prop) (token : String) : String → Prop
  | given {name : String} : v = .text name → name ≠ "" → Named v fallback taken token name
  | fallback : Blank v → ¬ taken → Named v fallback taken token fallback
  | suffixed : Blank v → taken → Named v fallback taken token (fallback ++ "_" ++ token)

def originOf : Option Template → Source × Option String
  | none => (.manual, none)
  | some t => (.template, some t.id)

/-- The new account that a payload over a template describes, where `held` tells of an asset and a
name whether an account of the asset has the name. -/
structure Composed (payload : Json.Object) (t : Option Template) (held : String → String → Prop)
    (d : Draw) (a : Account) : Prop where
  id : a.id = d.id
  asset : layered payload none "asset" = .text a.assetId ∧ a.assetId ≠ ""
  username : layered payload t "username" = .text a.username ∧ a.username ≠ ""
  name : Named (layered payload t "name") a.username (held a.assetId a.username) d.token a.name
  secret : layered payload t "secret" = .ofOption .text a.secret
  secretType : Says Choice.toJson (layered payload t "secret_type") .password a.secretType
  privileged : Says .bool (layered payload t "privileged") false a.privileged
  isActive : Says .bool (layered payload t "is_active") true a.isActive
  comment : Says .text (layered payload t "comment") "" a.comment
  suFrom : layered payload none "su_from" = .ofOption .text a.suFrom
  origin : (a.source, a.sourceId) = originOf t
  version : a.version = 1
  dates : a.dateCreated = d.now ∧ a.dateUpdated = d.now

section Composed

variable {payload : Json.Object} {t : Option Template} {held : String → String → Prop} {d : Draw}
  {a b : Account}

theorem Named.unique {v : Json.Value} {fallback token name name' : String} {taken : Prop}
    (h : Named v fallback taken token name) (h' : Named v fallback taken token name') :
    name = name' := by
  cases h with
  | given hv hne =>
    cases h' with
    | given hv' => exact Json.Value.text.inj (hv.symm.trans hv')
    | fallback hblank | suffixed hblank => exact absurd hblank (not_blank hv hne)
  | fallback hblank hfree =>
    cases h' with
    | given hv hne => exact absurd hblank (not_blank hv hne)
    | fallback => rfl
    | suffixed _ htaken => exact absurd htaken hfree
  | suffixed hblank htaken =>
    cases h' with
    | given hv hne => exact absurd hblank (not_blank hv hne)
    | fallback _ hfree => exact absurd htaken hfree
    | suffixed => rfl

theorem Composed.unique (ha : Composed payload t held d a) (hb : Composed payload t held d b) :
    a = b := by
  have hasset : a.assetId = b.assetId :=
    Json.Value.text.inj (ha.asset.1.symm.trans hb.asset.1)
  have husername : a.username = b.username :=
    Json.Value.text.inj (ha.username.1.symm.trans hb.username.1)
  have hname : a.name = b.name := by
    have hnamed := hb.name
    rw [← hasset, ← husername] at hnamed
    exact ha.name.unique hnamed
  have horigin := ha.origin.trans hb.origin.symm
  cases a
  cases b
  simp only [Account.mk.injEq, Prod.mk.injEq] at *
  exact ⟨ha.id.trans hb.id.symm, hasset, hname, husername,
    legible_text.ofOption_injective (ha.secret.symm.trans hb.secret),
    ha.secretType.unique legible_choice hb.secretType, horigin.1, horigin.2,
    ha.version.trans hb.version.symm, ha.privileged.unique legible_bool hb.privileged,
    ha.isActive.unique legible_bool hb.isActive, ha.comment.unique legible_text hb.comment,
    legible_text.ofOption_injective (ha.suFrom.symm.trans hb.suFrom),
    ha.dates.1.trans hb.dates.1.symm, ha.dates.2.trans hb.dates.2.symm⟩

end Composed

section Stores

variable {σ : Type} [Store σ]

def Holds (s : σ) (asset name : String) : Prop :=
  ∃ b ∈ Store.accounts s none, b.assetId = asset ∧ b.name = name

variable {dated : σ → Time.Instant → Time.Instant} {queue : σ → List Push} {kept : Push → Push}

end Stores

end Service

end Custody
