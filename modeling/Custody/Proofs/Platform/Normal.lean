import Custody.Proofs.Protocol

/-!
Platforms in normal form. Whatever draft is accepted becomes one; and a platform in normal form,
submitted again, passes every check and is changed by none.
-/
namespace Custody

theorem ite_error_eq_ok_iff {ε α : Type} {c : Prop} [Decidable c] {e : ε} {x : Except ε α}
    {a : α} : (if c then .error e else x) = .ok a ↔ ¬ c ∧ x = .ok a := by
  by_cases h : c <;> simp [h]

structure CustomField.WellFormed (f : CustomField) : Prop where
  name : ∃ c rest, f.name.toList = c :: rest ∧ (c.isAlpha = true ∨ c = '_') ∧
    ∀ d ∈ rest, d.isAlphanum = true ∨ d = '_'
  nameSize : f.name.utf8ByteSize ≤ 128
  label : f.label ≠ ""
  labelSize : f.label.utf8ByteSize ≤ 128
  defaultSize : f.default.utf8ByteSize ≤ 1024
  helpTextSize : f.helpText.utf8ByteSize ≤ 1024
  type : f.type ∈ types
  choices : f.type = "choice" → f.choices ≠ []

namespace CustomField

theorem isIdentifier_iff {s : String} : isIdentifier s = true ↔
    ∃ c rest, s.toList = c :: rest ∧ (c.isAlpha = true ∨ c = '_') ∧
      ∀ d ∈ rest, d.isAlphanum = true ∨ d = '_' := by
  unfold isIdentifier
  cases s.toList with
  | nil => simp
  | cons c rest => simp

theorem check_eq_ok_iff {f : CustomField} : f.check = .ok () ↔ f.WellFormed := by
  simp only [check, ite_error_eq_ok_iff, Bool.or_eq_true, Bool.not_eq_true', decide_eq_true_eq,
    Bool.and_eq_true, not_or, not_and, Nat.not_lt, Bool.not_eq_false, isIdentifier_iff]
  simp only [String.isEmpty_iff, beq_iff_eq, List.isEmpty_iff, List.contains_iff_mem]
  constructor
  · rintro ⟨⟨hname, hnameSize⟩, ⟨hlabel, hlabelSize⟩, ⟨hdefault, hhelp⟩, htype, hchoices, -⟩
    exact ⟨hname, hnameSize, hlabel, hlabelSize, hdefault, hhelp, htype, hchoices⟩
  · rintro ⟨hname, hnameSize, hlabel, hlabelSize, hdefault, hhelp, htype, hchoices⟩
    exact ⟨⟨hname, hnameSize⟩, ⟨hlabel, hlabelSize⟩, ⟨hdefault, hhelp⟩, htype, hchoices, trivial⟩

end CustomField

theorem protocolSecretTypes_ne_nil (name : String) : protocolSecretTypes name ≠ [] := by
  unfold protocolSecretTypes
  split <;> exact List.cons_ne_nil _ _

theorem SecretTypes.isEmpty_ofList {ts : List SecretType} (h : ts ≠ []) :
    (SecretTypes.ofList ts).isEmpty = false := by
  obtain ⟨t, rest, rfl⟩ := List.exists_cons_of_ne_nil h
  have hmem : t ∈ (SecretTypes.ofList (t :: rest)).toList := SecretTypes.mem_ofList.mpr (.head rest)
  exact List.isEmpty_eq_false_iff.mpr (List.ne_nil_of_mem hmem)

theorem AssetType.suMethods_ne_nil {type : AssetType} (h : type.features.su = true) :
    type.features.suMethods ≠ [] := by
  cases type <;> first | exact List.cons_ne_nil _ _ | cases h

namespace Platform

/-- A platform as it comes out of the checks. -/
structure Normal (p : Platform) : Prop where
  category : p.type.category = p.category
  domain : p.domainEnabled = true → p.type.features.domain = true
  su : p.suEnabled = true → p.type.features.su = true
  ansible : p.automation.ansibleEnabled = true → p.type.features.ansible = true
  suMethod : p.suEnabled = true → ∃ m ∈ p.type.features.suMethods, p.suMethod = some m
  noSuMethod : p.suEnabled = false → p.suMethod = none
  protocols : Normalized p.protocols
  secretTypes : ∀ q ∈ p.protocols, q.secretTypes.isEmpty = false
  customFields : ∀ f ∈ p.customFields, f.WellFormed

def resubmitted (p : Platform) : Draft :=
  ⟨p.name, p.category, p.type, p.charset, p.domainEnabled, p.suEnabled, p.suMethod, p.automation,
    p.protocols, p.customFields, p.comment⟩

theorem build_eq_ok_iff {draft : Draft} {id : String} {now : Time.Instant} {p : Platform} :
    build draft id now = .ok p ↔ draft.type.category = draft.category ∧
      (∀ f ∈ draft.customFields, f.WellFormed) ∧
      ∃ protocols suMethod, normalizeProtocols draft.protocols = .ok protocols ∧
        chooseSuMethod draft.type (draft.suEnabled && draft.type.features.su) draft.suMethod =
          .ok suMethod ∧
        p = ⟨id, draft.name, draft.category, draft.type, draft.charset,
          draft.domainEnabled && draft.type.features.domain,
          draft.suEnabled && draft.type.features.su, suMethod,
          { draft.automation with ansibleEnabled :=
              draft.automation.ansibleEnabled && draft.type.features.ansible },
          protocols, draft.customFields, draft.comment, now⟩ := by
  have hfields : draft.customFields.forM CustomField.check = .ok () ↔
      ∀ f ∈ draft.customFields, f.WellFormed :=
    forM_eq_ok_iff.trans (forall₂_congr fun _ _ => CustomField.check_eq_ok_iff)
  unfold build
  constructor
  · intro h
    split at h
    · cases h
    · next hcategory =>
      obtain ⟨protocols, hprotocols, h⟩ := exists_of_bind_eq_ok h
      obtain ⟨_, hcheck, h⟩ := exists_of_bind_eq_ok h
      obtain ⟨suMethod, hsu, h⟩ := exists_of_bind_eq_ok h
      cases h
      exact ⟨not_not.mp hcategory, hfields.mp hcheck, protocols, suMethod, hprotocols, hsu, rfl⟩
  · rintro ⟨hcategory, hcheck, protocols, suMethod, hprotocols, hsu, rfl⟩
    rw [if_neg (not_not.mpr hcategory), hprotocols]
    change (draft.customFields.forM CustomField.check >>= _) = _
    rw [hfields.mpr hcheck]
    change (chooseSuMethod _ _ _ >>= _) = _
    rw [hsu]
    rfl

theorem chooseSuMethod_eq_ok {type : AssetType} {enabled : Bool} {asked su : Option SuMethod}
    (henabled : enabled = true → type.features.su = true)
    (h : chooseSuMethod type enabled asked = .ok su) :
    (enabled = true → ∃ m ∈ type.features.suMethods, su = some m) ∧
      (enabled = false → su = none) := by
  cases enabled with
  | false => exact ⟨nofun, fun _ => (Except.ok.inj h).symm⟩
  | true =>
    refine ⟨fun _ => ?_, nofun⟩
    obtain ⟨first, rest, hmethods⟩ :=
      List.exists_cons_of_ne_nil (AssetType.suMethods_ne_nil (henabled rfl))
    obtain ⟨m, hm⟩ : ∃ m, asked.or type.features.suMethods.head? = some m := by
      rw [hmethods]
      cases asked <;> exact ⟨_, rfl⟩
    simp only [chooseSuMethod, Bool.not_true, Bool.false_eq_true, if_false, hm] at h
    split at h
    · next hmem =>
      exact ⟨m, List.contains_iff_mem.mp hmem, (Except.ok.inj h).symm⟩
    · cases h

theorem chooseSuMethod_of_normal {p : Platform} (h : p.Normal) :
    chooseSuMethod p.type p.suEnabled p.suMethod = .ok p.suMethod := by
  unfold chooseSuMethod
  cases hsu : p.suEnabled with
  | false => rw [h.noSuMethod hsu]; rfl
  | true =>
    obtain ⟨m, hm, heq⟩ := h.suMethod hsu
    rw [heq]
    exact if_pos (List.contains_iff_mem.mpr hm)

/-! The protocol list, and what leaves it alone. -/

theorem withSecretTypes_nonempty (q : Protocol) :
    (withSecretTypes q).secretTypes.isEmpty = false := by
  fun_cases withSecretTypes q with
  | case1 => exact SecretTypes.isEmpty_ofList (protocolSecretTypes_ne_nil q.name)
  | case2 hempty => exact Bool.not_eq_true _ ▸ hempty

theorem secretTypes_of_normalizeProtocols {ps ps' : List Protocol}
    (h : normalizeProtocols ps = .ok ps') : ∀ q ∈ ps', q.secretTypes.isEmpty = false := by
  unfold normalizeProtocols at h
  split at h
  · cases h
  · obtain ⟨_, _, h⟩ := exists_of_bind_eq_ok h
    cases h
    intro q hq
    have hmem := List.mem_map_of_mem (f := (·.secretTypes)) hq
    rw [map_promoteFirst (fun _ => rfl)] at hmem
    obtain ⟨r, hr, heq⟩ := List.mem_map.mp hmem
    obtain ⟨u, _, rfl⟩ := List.mem_map.mp hr
    exact heq ▸ withSecretTypes_nonempty u

theorem checkProtocols_eq_ok {seen : List String} {ps : List Protocol}
    (hnames : (ps.map (·.name)).Nodup) (hall : ∀ q ∈ ps, q.name ∉ seen ∧ q.port ≠ 0) :
    checkProtocols seen ps = .ok () := by
  induction ps generalizing seen with
  | nil => rfl
  | cons p rest ih =>
    obtain ⟨hp, hrest⟩ := List.nodup_cons.mp hnames
    obtain ⟨⟨hnew, hport⟩, hall⟩ := List.forall_mem_cons.mp hall
    rw [checkProtocols, if_neg hport, if_neg fun h => hnew (List.contains_iff_mem.mp h)]
    refine ih hrest fun q hq => ⟨fun hmem => ?_, (hall q hq).2⟩
    rcases List.mem_cons.mp hmem with heq | hseen
    · exact hp (List.mem_map.mpr ⟨q, hq, heq⟩)
    · exact (hall q hq).1 hseen

theorem promoteFirst_of_primary {ps : List Protocol} (h : ∃ q ∈ ps, q.primary = true) :
    promoteFirst ps = ps := by
  fun_cases promoteFirst ps with
  | case1 => rfl
  | case2 => rfl
  | case3 q rest hnone => exact absurd (List.any_eq_true.mpr h) hnone

theorem normalizeProtocols_of_normalized {ps : List Protocol} (h : Normalized ps)
    (htypes : ∀ q ∈ ps, q.secretTypes.isEmpty = false) : normalizeProtocols ps = .ok ps := by
  obtain ⟨r, hr, -⟩ := h.primary
  have hne : ps.isEmpty = false := List.isEmpty_eq_false_iff.mpr (List.ne_nil_of_mem hr)
  have hchecked : checkProtocols [] ps = .ok () :=
    checkProtocols_eq_ok h.names fun q hq => ⟨List.not_mem_nil, h.ports q hq⟩
  have hsame : ps.map withSecretTypes = ps := by
    refine (List.map_congr_left fun q hq => ?_).trans (List.map_id ps)
    rw [withSecretTypes, htypes q hq]
    rfl
  unfold normalizeProtocols
  rw [hne, hchecked]
  change Except.ok (promoteFirst (ps.map withSecretTypes)) = _
  rw [hsame, promoteFirst_of_primary h.primary]

theorem normal_of_build {draft : Draft} {id : String} {now : Time.Instant} {p : Platform}
    (h : build draft id now = .ok p) : p.Normal := by
  obtain ⟨hcategory, hfields, protocols, suMethod, hprotocols, hsu, rfl⟩ := build_eq_ok_iff.mp h
  obtain ⟨hmethod, hnone⟩ := chooseSuMethod_eq_ok (fun h => (Bool.and_eq_true_iff.mp h).2) hsu
  exact {
    category := hcategory
    domain := fun h => (Bool.and_eq_true_iff.mp h).2
    su := fun h => (Bool.and_eq_true_iff.mp h).2
    ansible := fun h => (Bool.and_eq_true_iff.mp h).2
    suMethod := hmethod
    noSuMethod := hnone
    protocols := normalized_of_normalizeProtocols hprotocols
    secretTypes := secretTypes_of_normalizeProtocols hprotocols
    customFields := hfields }

/-- A platform in normal form is its own normal form, but for a new id and date. -/
theorem build_resubmitted {p : Platform} (h : p.Normal) (id : String) (now : Time.Instant) :
    build p.resubmitted id now = .ok { p with id := id, dateCreated := now } := by
  refine build_eq_ok_iff.mpr ⟨h.category, h.customFields, p.protocols, p.suMethod,
    normalizeProtocols_of_normalized h.protocols h.secretTypes, ?_, ?_⟩
  · change chooseSuMethod p.type (p.suEnabled && p.type.features.su) p.suMethod = _
    rw [Bool.and_eq_left_iff_imp.mpr h.su, chooseSuMethod_of_normal h]
  · simp only [resubmitted, Bool.and_eq_left_iff_imp.mpr h.domain,
      Bool.and_eq_left_iff_imp.mpr h.su, Bool.and_eq_left_iff_imp.mpr h.ansible]

end Platform

end Custody
