import Custody.Proofs.Protocol.Defaults
import Custody.Proofs.Service.Faults
import Custody.Proofs.Service.Protocols
import Custody.Proofs.Store.Frame

/-!
Assets whose drafts name no protocols. Their creation never fails over protocols, whatever platform
was stored; and of the protocols that they get one is primary, the first that the platform insists
on, whether the platform has marked this one or not.
-/
namespace Custody

open Run Store

section Storing

variable {σ : Type} [Store σ] {good : σ → Prop} {nodes : σ → List Node}
  {apart : Node → String → Prop} {w : World σ}

theorem Service.storeAsset_stored (L : Catalog good) (E : Enlarging good nodes apart)
    (hgood : good w.store) (draft : Asset.Draft) (platform : Platform) {protocols : List Protocol}
    (hblank : ∀ q ∈ protocols, q.Blank) (labels : List Label) (paths : List String)
    (policy : Policy) (d : Draw) :
    Returns (storeAsset draft platform protocols labels paths policy d) w fun r w' =>
      good w'.store ∧ asset? w'.store r.1.id = some r.1 ∧
        r.1.protocols = Asset.sortProtocols protocols := by
  have hT := L.enclosing
  have hensure : Within (Curbed good) (paths.mapM Node.ensure) :=
    .mapM hT.toPreorder (Node.ensure_allowing hT.toAllowing fun _ => trivial) paths
  refine (hensure.ends w).returns.followed fun ns w' hkept => ?_
  refine .bind (.write fun _ s' hins => ?_)
  obtain ⟨hstored, -, b, -, hprotocols, hjoined⟩ := L.insertAsset (hkept hgood).1 hblank hins
  have hfresh := E.fresh hins
  have hnested : Within (Curbed good) (draft.accounts.mapM (createNested d.id policy)) := by
    refine .mapM hT.toPreorder (fun payload => ?_) _
    refine .bind hT.toPreorder (nestedPayload_within hT.toPreorder _ payload) fun nested => ?_
    exact .bind hT.toPreorder (createAccount_enclosing hT (fun _ => Call.OnAccounts.uncatalogued)
      nested policy) fun _ => .pure hT.toPreorder _
  refine (hnested.ends ⟨s', w'.supply⟩).returns.followed fun accounts w'' hshrinks => ?_
  obtain ⟨hgood'', hshrinks⟩ := hshrinks hstored
  refine .find fun stored hfound => .pure ?_
  have hid : stored.id = d.id := E.own hgood'' hfound
  have hb : asset? s' d.id = some b := by
    rw [hjoined, hfresh, Option.none_or]
    exact if_pos rfl
  obtain rfl : stored = b := Option.some.inj ((hshrinks.assets _ _ hfound).symm.trans hb)
  refine ⟨hgood'', ?_, hprotocols⟩
  rwa [hid]

end Storing

namespace Asset

/-- The protocols of an asset of this platform: the primary one is the first that the platform
insists on. It is one that the platform has marked only if this one is. -/
structure LedBy (p : Platform) (ps : List Protocol) (first : Protocol) : Prop where
  leading : p.protocols.find? (fun q => q.required || q.primary) = some first
  primary : (ps.filter (·.primary)).map Protocol.Entry.ofProtocol =
    [⟨first.name, first.port.toNat, true⟩]
  marked : (∀ q ∈ ps, q.primary = true → ∃ r ∈ p.protocols, r.name = q.name ∧ r.primary = true) ↔
    first.primary = true

theorem LedBy.of_primary {p : Platform} (hp : Platform.Normalized p.protocols) {ps : List Protocol}
    {first : Protocol} (hfirst : p.protocols.find? (fun q => q.required || q.primary) = some first)
    (hprimary : (ps.filter (·.primary)).map Protocol.Entry.ofProtocol =
      [⟨first.name, first.port.toNat, true⟩]) : LedBy p ps first where
  leading := hfirst
  primary := hprimary
  marked := by
    have hmem : first ∈ p.protocols := List.mem_of_find?_eq_some hfirst
    constructor
    · intro hall
      obtain ⟨q, hq, heq⟩ : ∃ q ∈ ps.filter (·.primary),
          Protocol.Entry.ofProtocol q = ⟨first.name, first.port.toNat, true⟩ := by
        rw [← List.mem_map, hprimary]
        exact .head _
      obtain ⟨hq, hmarked⟩ := List.mem_filter.mp hq
      obtain ⟨r, hr, hname, hr'⟩ := hall q hq hmarked
      have hsame : r.name = first.name := hname.trans (congrArg Protocol.Entry.name heq)
      rwa [Rows.eq_of_key_eq hp.names hr hmem hsame] at hr'
    · intro hmarked q hq hprim
      have hentry := List.mem_map_of_mem (f := Protocol.Entry.ofProtocol)
        (List.mem_filter.mpr ⟨hq, hprim⟩)
      rw [hprimary, List.mem_singleton] at hentry
      exact ⟨first, hmem, (congrArg Protocol.Entry.name hentry).symm, hmarked⟩

theorem primary_of_first {e : Protocol.Entry} {rest : List Protocol.Entry} (he : e.primary = true)
    (hrest : ∀ f ∈ rest, f.primary = false) {ps : List Protocol}
    (hps : (e :: rest).mapM Protocol.Entry.toProtocol = .ok ps) :
    ((sortProtocols ps).filter (·.primary)).map Protocol.Entry.ofProtocol = [e] := by
  -- Sorting moves the first entry, but the others are not primary.
  obtain ⟨hentries, -⟩ := Protocol.Entry.mapM_toProtocol hps
  have hsorted : ((sortProtocols ps).map Protocol.Entry.ofProtocol).Perm (e :: rest) :=
    hentries ▸ (sortProtocols_perm ps).map _
  have hnone : rest.filter (·.primary) = [] := by
    apply List.filter_eq_nil_iff.mpr
    intro f hf
    simp [hrest f hf]
  have hfilter : ((sortProtocols ps).filter (·.primary)).map Protocol.Entry.ofProtocol =
      ((sortProtocols ps).map Protocol.Entry.ofProtocol).filter (·.primary) := by
    rw [List.filter_map]
    rfl
  have hperm := hsorted.filter (·.primary)
  rw [List.filter_cons_of_pos he, hnone] at hperm
  rw [hfilter]
  exact List.perm_singleton.mp hperm

end Asset

namespace Service

variable {σ : Type} [Store σ] {good : σ → Prop} {w : World σ} {draft : Asset.Draft}

/-- Whether the creation of the asset fails over a list of protocols. -/
def SparesProtocols (draft : Asset.Draft) (org : String) (policy : Policy) (w : World σ) : Prop :=
  ∀ e w', createAsset draft org policy w = (.error e, w') →
    (∀ what, e ≠ .range what) ∧ ∀ names, e ≠ .missingProtocols names

theorem createAsset_spares (hσ : Tempered σ) (h : Accepted good none w.store)
    (hnone : draft.protocols = none) (org : String) (policy : Policy) :
    SparesProtocols draft org policy w := by
  have hends : Ends (createAsset draft org policy) w (fun _ _ => True) fun e _ => e.Ordinary := by
    unfold createAsset
    refine .refusing trivial fun _ => .find trivial fun platform hfound => ?_
    have hnormal := h.platforms _ _ hfound
    have hstands := Platform.standsIn hnormal
    rw [hnone]
    refine .bind (.of (fun entries hentries => ?_) nofun)
    cases hentries
    rw [hstands.valid]
    refine .bind (.of (fun validated hvalidated => ?_) nofun)
    cases hvalidated
    have hstored : Errs Error.Ordinary
        ((Protocol.Entry.promote (platform.offered.map Protocol.Entry.standIn)).mapM
          Protocol.Entry.toProtocol) := by
      refine .mapM fun e he => ?_
      obtain ⟨q, hq⟩ := hstands.stored e he
      rw [hq]
      exact .ok
    have hlabels : Errs Error.Ordinary (draft.labels.mapM Asset.LabelInput.toLabel) :=
      .mapM fun l _ => errs_toLabel l
    refine .bind (.of (fun protocols _ => ?_) hstored)
    refine .bind (.of (fun labels _ => .drawing fun d w' _ => ?_) hlabels)
    have hraises := fun paths =>
      raises_storeAsset hσ draft platform protocols labels paths policy d
    exact (Raises.transaction (hraises _)).ends w'
  intro e w' hrun
  have hordinary := hends.of_error hrun
  exact ⟨hordinary.not_range, hordinary.not_missingProtocols⟩

/-- Whether the asset that is created is stored, with one primary protocol, after its platform. -/
def LedByPlatform (draft : Asset.Draft) (org : String) (policy : Policy) (w : World σ) : Prop :=
  ∀ r w', createAsset draft org policy w = (.ok r, w') →
    asset? w'.store r.1.id = some r.1 ∧
      ∃ p first, platform? w.store draft.platform = some p ∧ Asset.LedBy p r.1.protocols first

theorem createAsset_led (L : Catalog good) {nodes : σ → List Node} {apart : Node → String → Prop}
    (E : Enlarging good nodes apart) (h : Accepted good none w.store)
    (hnone : draft.protocols = none) (org : String) (policy : Policy) :
    LedByPlatform draft org policy w := by
  suffices hreturns : Returns (createAsset draft org policy) w fun r w' =>
      asset? w'.store r.1.id = some r.1 ∧
        ∃ p first, platform? w.store draft.platform = some p ∧
          Asset.LedBy p r.1.protocols first from
    fun r w' hrun => hreturns.of_value hrun
  unfold createAsset
  refine .refusing (.find fun platform hfound => ?_)
  have hnormal := h.platforms _ _ hfound
  obtain ⟨first, rest, hfirst, hoffered⟩ := Platform.offered_eq_cons hnormal
  rw [hnone]
  refine .bind (.of fun entries hentries => ?_)
  cases hentries
  rw [Platform.validate_entriesFor hnormal, Platform.promote_standIn hoffered]
  refine .bind (.of fun validated hvalidated => ?_)
  cases hvalidated
  refine .bind (.of fun protocols hprotocols => .bind (.of fun labels _ => ?_))
  refine .drawing fun d w₁ hsame => .transaction ?_
  have hentered := (L.enter (hsame ▸ h.good : good w₁.store)).1
  obtain ⟨-, hback⟩ := Protocol.Entry.mapM_toProtocol hprotocols
  have hblank (q : Protocol) (hq : q ∈ protocols) : q.Blank :=
    (Protocol.Entry.toProtocol_eq_ok_iff.mp (hback q hq)).2.1
  have hstored := storeAsset_stored L E (w := ⟨Store.enter w₁.store, w₁.supply⟩) hentered draft
    platform hblank labels
  refine (hstored _ policy d).mono ?_
  rintro ⟨asset, accounts⟩ w₂ ⟨hgood, hasset, hsorted⟩
  have hcommitted : Enlarged good nodes ⟨none, fun _ => True, fun _ => True⟩ w₂.store
      (Store.commit w₂.store) := E.commit hgood
  refine ⟨(hcommitted.assets _ nofun).trans hasset, platform, first, hfound, ?_⟩
  apply Asset.LedBy.of_primary hnormal hfirst
  rw [hsorted]
  refine Asset.primary_of_first rfl (fun f hf => ?_) hprotocols
  obtain ⟨q, -, rfl⟩ := List.mem_map.mp hf
  rfl

/-- Every platform that can be built accepts the entries that stand in on it; so without protocols
in its draft no asset fails over protocols, whatever operations have run from an empty store. -/
theorem stand_ins_accepted :
    (∀ draft id now p, Platform.build draft id now = .ok p → ∃ entries, p.StandsIn entries) ∧
    ∀ supply clock ops (draft : Asset.Draft) org policy, draft.protocols = none →
      SparesProtocols draft org policy (after ops (⟨Memory.empty, supply⟩ : World Memory)) ∧
        SparesProtocols draft org policy
          (after ops (⟨Relational.empty clock, supply⟩ : World Relational)) := by
  constructor
  · intro draft id now p hbuilt
    exact ⟨_, Platform.standsIn (Platform.normalized_of_build hbuilt)⟩
  · intro supply clock ops draft org policy hnone
    constructor
    · exact createAsset_spares Memory.tempered (accepted_memory supply ops) hnone org policy
    · exact createAsset_spares Relational.tempered (accepted_relational supply clock ops) hnone org
        policy

def mixedPlatform : Platform.Draft :=
  ⟨"Mixed", .host, .linux, .utf8, false, false, none, .off,
    [⟨"ssh", 22, false, true, false, .empty⟩, ⟨"rdp", 3389, true, false, false, .empty⟩,
      ⟨"vnc", 5900, false, false, true, .empty⟩], [], ""⟩

def deskDraft (accounts : List Json.Object) : Asset.Draft :=
  ⟨"desk", "10.0.0.3", "i", none, true, "", none, [], [], accounts⟩

theorem stand_ins_accepted_mixed :
    (∃ p, Platform.build mixedPlatform "i" ⟨0, 0⟩ = .ok p ∧
      p.offered.map (·.name) = ["ssh", "rdp", "vnc"] ∧ ∃ entries, p.StandsIn entries) ∧
    let w : World Memory := after [.createPlatform mixedPlatform] ⟨Memory.empty, countedDraws, 0⟩
    let v : World Relational :=
      after [.createPlatform mixedPlatform] ⟨Relational.empty ⟨0, 0⟩, countedDraws, 0⟩
    let desk := deskDraft [[("username", .text "root")], [("username", .text "root")]]
    desk.protocols = none ∧ (createAsset desk "org" .error w).1.isOk = false ∧
      SparesProtocols desk "org" .error w ∧ (createAsset desk "org" .error v).1.isOk = false ∧
      SparesProtocols desk "org" .error v := by
  refine ⟨⟨_, rfl, by decide +kernel, stand_ins_accepted.1 mixedPlatform "i" ⟨0, 0⟩ _ rfl⟩, ?_⟩
  intro w v desk
  obtain ⟨hm, hs⟩ := stand_ins_accepted.2 ⟨countedDraws, 0⟩ ⟨0, 0⟩ [.createPlatform mixedPlatform]
    desk "org" .error rfl
  exact ⟨rfl, by decide +kernel, hm, by decide +kernel, hs⟩

/-- Whatever operations have run from an empty store, an asset without protocols in its draft is
stored with one primary protocol, that of the name which the platform insists on first. -/
theorem default_primary (supply : Supply) (clock : Time.Instant) (ops : List Operation)
    (draft : Asset.Draft) (org : String) (policy : Policy) (hnone : draft.protocols = none) :
    LedByPlatform draft org policy (after ops (⟨Memory.empty, supply⟩ : World Memory)) ∧
      LedByPlatform draft org policy
        (after ops (⟨Relational.empty clock, supply⟩ : World Relational)) := by
  constructor
  · exact createAsset_led Memory.catalog Memory.enlarging (accepted_memory supply ops) hnone org
      policy
  · exact createAsset_led Relational.catalog Relational.enlarging
      (accepted_relational supply clock ops) hnone org policy

theorem LedByPlatform.names {w : World σ} {org : String} {policy : Policy}
    (h : LedByPlatform draft org policy w) (hok : (createAsset draft org policy w).1.isOk = true)
    {name : String} (hname : ((platform? w.store draft.platform).bind fun p =>
      p.protocols.find? fun q => q.required || q.primary).map (·.name) = some name) :
    ∃ r w', createAsset draft org policy w = (.ok r, w') ∧
      (r.1.protocols.filter (·.primary)).map (·.name) = [name] := by
  obtain ⟨r, w', hrun⟩ := exists_of_isOk hok
  obtain ⟨-, p, first, hp, hled⟩ := h r w' hrun
  rw [hp, Option.bind_some, hled.leading] at hname
  have hnames := congrArg (List.map (·.name)) hled.primary
  rw [Protocol.Entry.map_name_ofProtocol] at hnames
  refine ⟨r, w', hrun, hnames.trans ?_⟩
  exact congrArg (fun n => [n]) (Option.some.inj hname)

/-- The platform has marked one protocol, and the primary protocol of the asset is another. -/
theorem marked_passed_over :
    let w : World Memory := after [.createPlatform mixedPlatform] ⟨Memory.empty, countedDraws, 0⟩
    let v : World Relational :=
      after [.createPlatform mixedPlatform] ⟨Relational.empty ⟨0, 0⟩, countedDraws, 0⟩
    let marked (p : Platform) : List String := (p.protocols.filter (·.primary)).map (·.name)
    ((platform? w.store "i").map marked = some ["rdp"] ∧
      ∃ r w', createAsset (deskDraft []) "org" .error w = (.ok r, w') ∧
        (r.1.protocols.filter (·.primary)).map (·.name) = ["ssh"]) ∧
    (platform? v.store "i").map marked = some ["rdp"] ∧
      ∃ r v', createAsset (deskDraft []) "org" .error v = (.ok r, v') ∧
        (r.1.protocols.filter (·.primary)).map (·.name) = ["ssh"] := by
  intro w v marked
  have hw : LedByPlatform (deskDraft []) "org" .error w :=
    createAsset_led Memory.catalog Memory.enlarging (accepted_memory _ _) rfl "org" .error
  have hv : LedByPlatform (deskDraft []) "org" .error v :=
    createAsset_led Relational.catalog Relational.enlarging (accepted_relational _ _ _) rfl "org"
      .error
  refine ⟨⟨by decide +kernel, ?_⟩, by decide +kernel, ?_⟩
  · exact hw.names (by decide +kernel) (by decide +kernel)
  · exact hv.names (by decide +kernel) (by decide +kernel)

theorem default_primary_mixed :
    let w : World Memory := after [.createPlatform mixedPlatform] ⟨Memory.empty, countedDraws, 0⟩
    let v : World Relational :=
      after [.createPlatform mixedPlatform] ⟨Relational.empty ⟨0, 0⟩, countedDraws, 0⟩
    (deskDraft []).protocols = none ∧
      (createAsset (deskDraft []) "org" .error w).1.isOk = true ∧
      LedByPlatform (deskDraft []) "org" .error w ∧
      (createAsset (deskDraft []) "org" .error v).1.isOk = true ∧
      LedByPlatform (deskDraft []) "org" .error v := by
  intro w v
  obtain ⟨hm, hs⟩ := default_primary ⟨countedDraws, 0⟩ ⟨0, 0⟩ [.createPlatform mixedPlatform]
    (deskDraft []) "org" .error rfl
  exact ⟨rfl, by decide +kernel, hm, by decide +kernel, hs⟩

end Service

end Custody
