import Custody.Proofs.Service.Renames

/-!
One account as a payload says it for one asset and for a bulk of this asset. The schema of an
account has two fields more than that of a bulk, and no template fills either. So what both read is
the same, whatever template is laid underneath, and a payload that is good for the one is good for
the other.
-/
namespace Custody

open Run Store

namespace Field

theorem check_eq_ok_iff {schema : Schema} {values : Json.Object} : check schema values = .ok () ↔
    ∀ spec ∈ schema, ∀ v, values.get? spec.name = some v → spec.kind.accepts v := by
  have hnone : check schema values = .ok () ↔ mismatch? schema values = none := by
    unfold check
    cases mismatch? schema values <;> simp
  rw [hnone, mismatch?, List.findSome?_eq_none_iff]
  refine forall₂_congr fun spec _ => ?_
  cases values.get? spec.name with
  | none => simp
  | some v => simp

theorem declares_account {key : String} (h : declares bulkSchema key) :
    declares accountSchema key := by
  rw [declares, accountSchema, List.any_append, Bool.or_eq_true]
  exact .inl h

end Field

namespace Service

theorem not_mem_of_declares {key : String} (h : Field.declares Field.bulkSchema key) :
    key ∉ ["asset", "assets"] ∧ key ∉ controlNames := by
  have hnames : ∀ spec ∈ Field.bulkSchema, spec.name ∉ ["asset", "assets"] ∧
      spec.name ∉ controlNames := by decide
  obtain ⟨spec, hspec, hkey⟩ := List.any_eq_true.mp h
  exact eq_of_beq hkey ▸ hnames spec hspec

def SameFields (values values' : Json.Object) : Prop :=
  ∀ key, Field.declares Field.bulkSchema key → values'.get? key = values.get? key

namespace SameFields

variable {values values' : Json.Object} (h : SameFields values values')

include h

theorem text? {key : String} (hkey : Field.declares Field.bulkSchema key) :
    text? values' key = text? values key := by
  rw [Service.text?, Service.text?, h key hkey]

theorem flag? {key : String} (hkey : Field.declares Field.bulkSchema key) :
    flag? values' key = flag? values key := by
  rw [Service.flag?, Service.flag?, h key hkey]

theorem requiredText {key : String} (hkey : Field.declares Field.bulkSchema key) :
    requiredText values' key = requiredText values key := by
  rw [Service.requiredText, Service.requiredText, h.text? hkey]

theorem check (hcheck : Field.check Field.accountSchema values = .ok ()) :
    Field.check Field.bulkSchema values' = .ok () := by
  rw [Field.check_eq_ok_iff] at hcheck ⊢
  intro spec hspec v hv
  have hkey : Field.declares Field.bulkSchema spec.name :=
    List.any_eq_true.mpr ⟨spec, hspec, beq_self_eq_true _⟩
  exact hcheck spec (List.mem_append_left _ hspec) v ((h _ hkey).symm.trans hv)

theorem candidateOf {assetId name username : String} {templateId : Option String} {c : Candidate}
    (hc : candidateOf values assetId name username none templateId = .ok c) :
    candidateOf values' "" name username none templateId = .ok (c.forAsset "") := by
  obtain ⟨secretType, htype, hc⟩ := exists_of_bind_eq_ok hc
  cases hc
  have htype' : secretType? values' = .ok secretType := by
    rw [← htype, secretType?, secretType?, h.text? (by decide)]
  unfold Service.candidateOf
  simp only [htype', h.text? (show Field.declares Field.bulkSchema "secret" by decide),
    h.flag? (show Field.declares Field.bulkSchema "privileged" by decide),
    h.flag? (show Field.declares Field.bulkSchema "is_active" by decide),
    h.text? (show Field.declares Field.bulkSchema "comment" by decide)]
  rfl

theorem merge (defaults : Json.Object) :
    SameFields (Field.merge Field.accountSchema defaults values)
      (Field.merge Field.bulkSchema defaults values') := by
  intro key hkey
  rw [Field.get?_merge, Field.get?_merge, h key hkey, if_pos hkey,
    if_pos (Field.declares_account hkey)]

end SameFields

variable {σ : Type} [Store σ]

theorem withTemplate_of_found {id : String} {t : Template} {w : World σ}
    (h : template? w.store id = some t) (schema : Field.Schema) (payload : Json.Object) :
    withTemplate (some id) schema payload w =
      (.ok (Field.merge schema (t.valuesFor schema) payload, some t.id), w) := by
  unfold withTemplate Template.resolveStored
  simp only [bind_assoc, Run.ask_bind, h]
  rfl

theorem withTemplate_of_missing {id : String} {w : World σ} (h : template? w.store id = none)
    (schema : Field.Schema) (payload : Json.Object) :
    withTemplate (some id) schema payload w = (.error (.notFound (.template id)), w) := by
  unfold withTemplate Template.resolveStored
  simp only [bind_assoc, Run.ask_bind, h]
  rfl

theorem withTemplate_sameFields {template templateId : Option String}
    {rest rest' values : Json.Object} {w v : World σ} (hsame : SameFields rest rest')
    (h : withTemplate template Field.accountSchema rest w = (.ok (values, templateId), w))
    (hstore : v.store = w.store) :
    ∃ values', withTemplate template Field.bulkSchema rest' v = (.ok (values', templateId), v) ∧
      SameFields values values' := by
  cases template with
  | none =>
    cases h
    exact ⟨rest', rfl, hsame⟩
  | some id =>
    cases ht : template? w.store id with
    | none => cases (withTemplate_of_missing ht Field.accountSchema rest).symm.trans h
    | some t =>
      have hfound := (withTemplate_of_found ht Field.accountSchema rest).symm.trans h
      obtain ⟨rfl, rfl⟩ := Prod.mk.inj (Except.ok.inj (congrArg Prod.fst hfound))
      exact ⟨_, withTemplate_of_found (hstore ▸ ht) Field.bulkSchema rest',
        hsame.merge (t.valuesFor Field.accountSchema)⟩

/-- The payload passes the checks of a creation, names the account and none to switch from, and
describes this candidate. -/
structure Passes (payload : Json.Object) (w : World σ) (controls : Controls)
    (rest values : Json.Object) (templateId : Option String) (c : Candidate) : Prop where
  take : Controls.take payload = .ok (controls, rest)
  merge : withTemplate controls.template Field.accountSchema rest w = (.ok (values, templateId), w)
  kinds : Field.check Field.accountSchema values = .ok ()
  asset : requiredText values "asset" = .ok c.assetId
  username : requiredText values "username" = .ok c.username
  name : requiredText values "name" = .ok c.name
  suFrom : text? values "su_from" = none
  candidate : candidateOf values c.assetId c.name c.username none templateId = .ok c

/-- The second payload is for a bulk of this one asset, and otherwise says what the first says. -/
structure Counterparts (single bulk : Json.Object) (assetId : String) : Prop where
  assets : bulk.get? "assets" = some (.list [.text assetId])
  same : ∀ key ∉ ["asset", "assets"], bulk.get? key = single.get? key

theorem counterparts_place (payload : Json.Object) (assetId : String) :
    Counterparts (payload.place "asset" (.text assetId))
      (payload.place "assets" (.list [.text assetId])) assetId where
  assets := Keyed.get?_place_self ..
  same key hkey := by
    simp only [List.mem_cons, List.not_mem_nil, or_false, not_or] at hkey
    rw [Keyed.get?_place_of_ne _ _ hkey.1, Keyed.get?_place_of_ne _ _ hkey.2]

/-- The asset is there, and one of its protocols can use a secret of the type. -/
def Supports (s : σ) (assetId : String) (type : SecretType) : Prop :=
  ∃ asset ∈ asset? s assetId, ∃ platform ∈ platform? s asset.platformId,
    type ∈ platform.secretTypesFor (asset.protocols.map (·.name))

theorem Supports.load {w : World σ} {assetId : String} {type : SecretType}
    (h : Supports w.store assetId type)
    (hown : ∀ asset, asset? w.store assetId = some asset → asset.id = assetId) :
    ∃ types, type ∈ types ∧ Bulk.Target.load assetId w = (.ok ⟨assetId, types⟩, w) := by
  obtain ⟨asset, hasset, platform, hplatform, htype⟩ := h
  refine ⟨_, htype, ?_⟩
  unfold Bulk.Target.load
  rw [Run.ask_bind, hasset]
  change (Run.require (.platform asset.platformId) (platform? w.store asset.platformId) >>=
    fun _ => _) w = _
  rw [hplatform, ← hown asset hasset]
  rfl

namespace Passes

variable {single bulk rest values : Json.Object} {w v : World σ} {controls : Controls}
  {templateId : Option String} {c : Candidate}

theorem filter_name (h : Passes single w controls rest values templateId c) :
    (text? values "name").filter (· ≠ "") = some c.name := by
  have hname := h.name
  unfold requiredText at hname
  split at hname
  · next hs => cases hname; exact hs
  · cases hname

theorem createAccount_eq (h : Passes single w controls rest values templateId c)
    (hasset : (asset? w.store c.assetId).isSome) (policy : Policy) :
    createAccount single policy w = storeCandidate controls c (w.supply.draws w.supply.used) policy
      { w with supply := { w.supply with used := w.supply.used + 1 } } := by
  -- The name is given, so no token plays a part, and up to its last stage a creation only reads.
  have hname (token : String) :
      Naming.choose (text? values "name") c.username c.assetId none token w.store = c.name := by
    rw [Naming.choose, h.filter_name]
  obtain ⟨asset, hasset⟩ := Option.isSome_iff_exists.mp hasset
  unfold createAccount
  rw [h.take]
  refine (Run.bind_of_ok h.merge _).trans ?_
  simp only [h.kinds, h.asset, h.username, h.suFrom]
  change (Run.require (.asset c.assetId) (asset? w.store c.assetId) >>= fun _ => _) w = _
  rw [hasset]
  change (Run.of (candidateOf values c.assetId (Naming.choose (text? values "name") c.username
    c.assetId none _ w.store) c.username none templateId) >>= _) _ = _
  rw [hname, h.candidate]
  rfl

theorem readBulk_eq (h : Passes single w controls rest values templateId c)
    (hcounter : Counterparts single bulk c.assetId) (hstore : v.store = w.store)
    {target : Bulk.Target} (hload : Bulk.Target.load c.assetId v = (.ok target, v)) :
    readBulk bulk v = (.ok (controls, c.forAsset "", [target]), v) := by
  -- The two differ in the assets alone, which are neither a control nor a field of a bulk.
  have hcontrols : ∀ key ∈ controlNames, key ∉ ["asset", "assets"] := by decide
  have hcontrolled : ∀ key ∈ controlNames, bulk.get? key = single.get? key :=
    fun key hkey => hcounter.same key (hcontrols key hkey)
  obtain ⟨rest', htake⟩ := take_congr hcontrolled h.take
  have hids : assetIds rest' = .ok [c.assetId] := by
    rw [assetIds, get?_take htake (by decide), hcounter.assets]
    rfl
  have hsame : SameFields rest (rest'.erase "assets") := by
    intro key hkey
    obtain ⟨hassets, hkey⟩ := not_mem_of_declares hkey
    have hne : key ≠ "assets" := fun heq => hassets (by simp [heq])
    rw [Keyed.get?_erase_of_ne _ hne, get?_take htake hkey, get?_take h.take hkey,
      hcounter.same key hassets]
  obtain ⟨values', hmerge, hvalues⟩ := withTemplate_sameFields hsame h.merge hstore
  have husername := (hvalues.requiredText (by decide)).trans h.username
  have hname : ((text? values' "name").filter (· ≠ "")).getD c.username = c.name := by
    rw [hvalues.text? (by decide), h.filter_name]
    rfl
  unfold readBulk
  rw [htake]
  change (Run.of (assetIds rest') >>= _) v = _
  rw [hids]
  refine (Run.bind_of_ok hmerge _).trans ?_
  simp only [hvalues.check h.kinds, husername]
  change (Run.of (candidateOf values' ""
    (((text? values' "name").filter (· ≠ "")).getD c.username) c.username none templateId) >>=
      _) v = _
  rw [hname, hvalues.candidateOf h.candidate]
  change ([c.assetId].mapM Bulk.Target.load >>= _) v = _
  rw [List.mapM_cons, List.mapM_nil, bind_assoc]
  refine (Run.bind_of_ok hload _).trans ?_
  rfl

end Passes

end Service

end Custody
