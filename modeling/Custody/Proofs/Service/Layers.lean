import Custody.Proofs.Service.Counterparts
import Custody.Proofs.Service.Names

/-!
Payloads over templates. Under a key stands what the payload has there, even a null, or else the
column of the template; a null says nothing and leaves a field to its default. Values that have
passed their checks say just that.
-/
namespace Custody

open Run Store

theorem Template.field_of_plain {key : String} (hdeclared : Field.declares Field.accountSchema key)
    (hkey : key ∉ handedOn Field.accountSchema) (t : Template) : t.field key = .null := by
  have hplain : ∀ spec ∈ Field.accountSchema,
      spec.name ∈ handedOn Field.accountSchema ∨ spec.name = "su_from" ∨
        spec.name = "asset" := by decide
  obtain ⟨spec, hspec, heq⟩ := List.any_eq_true.mp hdeclared
  obtain rfl := eq_of_beq heq
  rcases hplain spec hspec with h | h | h
  · exact absurd h hkey
  · rw [h]; rfl
  · rw [h]; rfl

namespace Field.Kind

theorem eq_of_accepts_text {kind : Kind} (hkind : kind ∉ [.bool, .int]) {v : Json.Value}
    (h : kind.accepts v = true) : v = .ofOption .text v.asText? := by
  cases kind with
  | bool | int => simp at hkind
  | _ => cases v <;> first | rfl | cases h

theorem eq_of_accepts_bool {v : Json.Value} (h : bool.accepts v = true) :
    v = .ofOption .bool v.asBool? := by
  cases v <;> first | rfl | cases h

end Field.Kind

namespace Service

structure Legible {α : Type} (write : α → Json.Value) : Prop where
  injective : Function.Injective write
  ne_null : ∀ a, write a ≠ .null

theorem legible_text : Legible Json.Value.text := ⟨fun _ _ => Json.Value.text.inj, nofun⟩

theorem legible_bool : Legible Json.Value.bool := ⟨fun _ _ => Json.Value.bool.inj, nofun⟩

theorem legible_choice {α : Type} [Choice α] : Legible (Choice.toJson : α → Json.Value) :=
  ⟨fun _ _ h => Choice.wire_inj (Json.Value.text.inj h), nofun⟩

theorem Legible.ofOption_injective {α : Type} {write : α → Json.Value} (h : Legible write) :
    Function.Injective (Json.Value.ofOption write) := by
  rintro (_ | a) (_ | b) heq
  · rfl
  · exact absurd heq.symm (h.ne_null b)
  · exact absurd heq (h.ne_null a)
  · exact congrArg some (h.injective heq)

/-- What stands there says the field, and a null says its default. -/
def Says {α : Type} (write : α → Json.Value) (v : Json.Value) (default a : α) : Prop :=
  v = write a ∨ v = .null ∧ a = default

section Says

variable {α : Type} {write : α → Json.Value} {v : Json.Value} {default a b : α}

theorem says_of_ofOption {o : Option α} (h : v = .ofOption write o) (default : α) :
    Says write v default (o.getD default) := by
  cases o with
  | none => exact .inr ⟨h, rfl⟩
  | some a => exact .inl h

theorem Says.unique (hwrite : Legible write) (ha : Says write v default a)
    (hb : Says write v default b) : a = b := by
  rcases ha with rfl | ⟨rfl, rfl⟩
  · rcases hb with hb | ⟨hnull, -⟩
    · exact hwrite.injective hb
    · exact absurd hnull (hwrite.ne_null a)
  · rcases hb with hb | ⟨-, rfl⟩
    · exact absurd hb.symm (hwrite.ne_null b)
    · rfl

end Says

def Blank (v : Json.Value) : Prop := v = .null ∨ v = .text ""

theorem not_blank {v : Json.Value} {name : String} (hv : v = .text name) (hne : name ≠ "") :
    ¬ Blank v := by
  rintro (hnull | hempty)
  · cases hv.symm.trans hnull
  · exact hne (Json.Value.text.inj (hv.symm.trans hempty))

theorem blank_or_name {v : Json.Value} {o : Option String} (h : v = .ofOption .text o) :
    (Blank v ∧ o.filter (· ≠ "") = none) ∨
      ∃ name, v = .text name ∧ name ≠ "" ∧ o.filter (· ≠ "") = some name := by
  cases o with
  | none => exact .inl ⟨.inl h, rfl⟩
  | some name =>
    by_cases hempty : name = ""
    · subst hempty
      exact .inl ⟨.inr h, rfl⟩
    · exact .inr ⟨name, h, hempty, by simp [hempty]⟩

/-- What stands under a key of a payload over a template; null is nothing. -/
def layered (payload : Json.Object) (t : Option Template) (key : String) : Json.Value :=
  (payload.get? key).getD ((t.map (·.field key)).getD .null)

theorem layered_congr {payload payload' : Json.Object} {key : String}
    (h : payload'.get? key = payload.get? key) (t : Option Template) :
    layered payload' t key = layered payload t key := by
  rw [layered, h, layered]

def laid (request : Json.Object) : Option Template → Json.Object
  | none => request
  | some t => Field.merge Field.accountSchema (t.valuesFor Field.accountSchema) request

section Laid

variable {request : Json.Object} {t : Option Template} {key : String} {kind : Field.Kind}

theorem get?_laid_of_plain (hkey : key ∉ Template.handedOn Field.accountSchema) :
    (laid request t).get? key = request.get? key := by
  cases t with
  | none => rfl
  | some t =>
    exact Field.get?_merge_of_none ((t.get?_valuesFor _ key).trans (if_neg hkey)) _ _

theorem getD_laid (hkey : Field.declares Field.accountSchema key) :
    ((laid request t).get? key).getD .null = layered request t key := by
  cases t with
  | none => rfl
  | some t =>
    rw [laid, layered, Field.get?_merge, if_pos hkey, Template.get?_valuesFor]
    cases request.get? key with
    | some v => rfl
    | none =>
      rw [Option.none_or, Option.getD_none, Option.map_some, Option.getD_some]
      split
      · cases t.field key <;> rfl
      · next hplain => exact (t.field_of_plain hkey hplain).symm

theorem declares_of_mem (hspec : ⟨key, kind⟩ ∈ Field.accountSchema) :
    Field.declares Field.accountSchema key :=
  List.any_eq_true.mpr ⟨_, hspec, beq_self_eq_true _⟩

theorem check_laid_iff : Field.check Field.accountSchema (laid request t) = .ok () ↔
    ∀ spec ∈ Field.accountSchema, spec.kind.accepts (layered request t spec.name) := by
  rw [Field.check_eq_ok_iff]
  refine forall₂_congr fun spec hspec => ?_
  rw [← getD_laid (declares_of_mem hspec)]
  cases (laid request t).get? spec.name with
  | none => cases spec.kind <;> simp [Field.Kind.accepts]
  | some v => simp

theorem layered_text (hkinds : Field.check Field.accountSchema (laid request t) = .ok ())
    (key : String) (kind : Field.Kind) (hspec : ⟨key, kind⟩ ∈ Field.accountSchema)
    (hkind : kind ∉ [.bool, .int]) :
    layered request t key = .ofOption .text (text? (laid request t) key) := by
  have haccepts := check_laid_iff.mp hkinds _ hspec
  rw [← getD_laid (declares_of_mem hspec)] at haccepts ⊢
  unfold text?
  cases hget : (laid request t).get? key with
  | none => rfl
  | some v =>
    rw [hget] at haccepts
    exact Field.Kind.eq_of_accepts_text hkind haccepts

theorem layered_flag (hkinds : Field.check Field.accountSchema (laid request t) = .ok ())
    (key : String) (hspec : ⟨key, .bool⟩ ∈ Field.accountSchema) :
    layered request t key = .ofOption .bool (flag? (laid request t) key) := by
  have haccepts := check_laid_iff.mp hkinds _ hspec
  rw [← getD_laid (declares_of_mem hspec)] at haccepts ⊢
  unfold flag?
  cases hget : (laid request t).get? key with
  | none => rfl
  | some v =>
    rw [hget] at haccepts
    exact Field.Kind.eq_of_accepts_bool haccepts

theorem layered_secretType (hkinds : Field.check Field.accountSchema (laid request t) = .ok ())
    {o : Option SecretType} (h : secretType? (laid request t) = .ok o) :
    layered request t "secret_type" = .ofOption Choice.toJson o := by
  rw [layered_text hkinds _ .choice (by decide) (by decide)]
  unfold secretType? at h
  split at h
  · next hnone =>
    cases h
    rw [hnone]
    rfl
  · next s hs =>
    rw [hs]
    unfold Choice.parse at h
    cases hfound : Choice.ofWire? (α := SecretType) s with
    | none => rw [hfound] at h; cases h
    | some type =>
      rw [hfound] at h
      cases h
      exact congrArg Json.Value.text (Choice.wire_of_ofWire? hfound).symm

theorem secretType?_of_layered
    (hkinds : Field.check Field.accountSchema (laid request t) = .ok ()) {o : Option SecretType}
    (h : layered request t "secret_type" = .ofOption Choice.toJson o) :
    secretType? (laid request t) = .ok o := by
  have htext : text? (laid request t) "secret_type" = o.map Choice.wire := by
    have hread := layered_text hkinds "secret_type" .choice (by decide) (by decide)
    refine legible_text.ofOption_injective (hread.symm.trans (h.trans ?_))
    cases o <;> rfl
  unfold secretType? Choice.parse
  rw [htext]
  cases o with
  | none => rfl
  | some type => simp [Except.map]

end Laid

/-- The template that is laid underneath a payload: the stored one of the id that it names, if it
names any. -/
inductive Underlies {σ : Type} [Store σ] (s : σ) (payload : Json.Object) : Option Template → Prop
  | none : Unset payload "template" → Underlies s payload none
  | some {id : String} {t : Template} : payload.get? "template" = some (.text id) → id ≠ "" →
    template? s id = some t → Underlies s payload (some t)

section Underlies

variable {σ : Type} [Store σ] {w : World σ} {payload rest : Json.Object} {controls : Controls}
  {t : Option Template}

theorem Underlies.unique {s : σ} {t' : Option Template} (h : Underlies s payload t)
    (h' : Underlies s payload t') : t = t' := by
  cases h with
  | none hunset =>
    cases h' with
    | none => rfl
    | some hnamed hid => exact absurd hunset (not_unset hnamed hid)
  | some hnamed hid hfound =>
    cases h' with
    | none hunset => exact absurd hunset (not_unset hnamed hid)
    | some hnamed' _ hfound' =>
      obtain rfl := Json.Value.text.inj (Option.some.inj (hnamed.symm.trans hnamed'))
      exact hfound.symm.trans hfound'

theorem withTemplate_laid (htake : Controls.take payload = .ok (controls, rest))
    (request : Json.Object) {value : Json.Object × Option String → World σ → Prop}
    {error : Error → World σ → Prop}
    (hv : ∀ t, Underlies w.store payload t → value (laid request t, t.map (·.id)) w)
    (he : ∀ e, (∀ t, ¬ Underlies w.store payload t) → error e w) :
    Ends (withTemplate controls.template Field.accountSchema request) w value error := by
  rcases template_of_take htake with ⟨hunset, htemplate⟩ | ⟨id, hnamed, hid, htemplate⟩
  · rw [htemplate]
    exact .pure (hv none (.none hunset))
  · rw [htemplate]
    cases hfound : template? w.store id with
    | some t => exact .ok (withTemplate_of_found hfound _ _) (hv _ (.some hnamed hid hfound))
    | none =>
      refine .failed (withTemplate_of_missing hfound _ _) (he _ fun t ht => ?_)
      cases ht with
      | none hunset => exact not_unset hnamed hid hunset
      | some hnamed' _ hfound' =>
        obtain rfl := Json.Value.text.inj (Option.some.inj (hnamed.symm.trans hnamed'))
        cases hfound.symm.trans hfound'

end Underlies

end Service

end Custody
