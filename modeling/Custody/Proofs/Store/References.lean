import Custody.Proofs.Store.Uniqueness

/-!
Every reference from one row to another leads to a row that is there. A deletion takes the rows
that refer to the deleted asset along and unsets the references of other accounts to its accounts.
-/
namespace Custody.Store.Tables

variable {t t' : Tables}

structure References (t : Tables) : Prop where
  platformProtocols : ∀ q ∈ t.platformProtocols, ∃ p ∈ t.platforms, p.id = q.platformId
  assets : ∀ a ∈ t.assets, ∃ p ∈ t.platforms, p.id = a.platformId
  assetProtocols : ∀ q ∈ t.assetProtocols, ∃ a ∈ t.assets, a.id = q.assetId
  assetLabels : ∀ l ∈ t.assetLabels, ∃ a ∈ t.assets, a.id = l.assetId
  labels : ∀ l ∈ t.assetLabels, ∃ r ∈ t.labels, r.id = l.labelId
  assetNodes : ∀ l ∈ t.assetNodes, ∃ a ∈ t.assets, a.id = l.assetId
  nodes : ∀ l ∈ t.assetNodes, ∃ n ∈ t.nodes, n.id = l.nodeId
  parents : ∀ n ∈ t.nodes, ∀ p, n.parentId = some p → ∃ m ∈ t.nodes, m.id = p
  accounts : ∀ b ∈ t.accounts, ∃ a ∈ t.assets, a.id = b.assetId
  suFrom : ∀ b ∈ t.accounts, ∀ s, b.suFrom = some s → ∃ a ∈ t.accounts, a.id = s

theorem References.empty : Tables.empty.References := by constructor <;> simp [Tables.empty]

theorem exists_mem_append {ρ : Type} {rows : List ρ} {p : ρ → Prop} (h : ∃ r ∈ rows, p r)
    (more : List ρ) : ∃ r ∈ rows ++ more, p r := by
  obtain ⟨r, hr, hp⟩ := h
  exact ⟨r, List.mem_append_left more hr, hp⟩

theorem forall_mem_concat {ρ : Type} {rows : List ρ} {row : ρ} {p : ρ → Prop}
    (h : ∀ r ∈ rows, p r) (hrow : p row) : ∀ r ∈ rows ++ [row], p r := by
  intro r hr
  rcases List.mem_append.mp hr with hr | hr
  · exact h r hr
  · rw [List.mem_singleton.mp hr]
    exact hrow

theorem References.deleteAsset (h : t.References) (id : String) :
    (t.deleteAsset id).2.References := by
  unfold Tables.deleteAsset
  split
  case isFalse => exact h
  have kept {assetId : String} (ha : ∃ a ∈ t.assets, a.id = assetId) (hne : assetId ≠ id) :
      ∃ a ∈ t.assets.filter (·.id != id), a.id = assetId := by
    obtain ⟨a, ha, rfl⟩ := ha
    exact ⟨a, List.mem_filter.mpr ⟨ha, bne_iff_ne.mpr hne⟩, rfl⟩
  refine { h with
    assets := fun a ha => h.assets a (List.mem_filter.mp ha).1
    assetProtocols := fun q hq => ?_
    assetLabels := fun l hl => ?_
    labels := fun l hl => h.labels l (List.mem_filter.mp hl).1
    assetNodes := fun l hl => ?_
    nodes := fun l hl => h.nodes l (List.mem_filter.mp hl).1
    accounts := fun b hb => ?_
    suFrom := fun b hb s hs => ?_ }
  · obtain ⟨hq, hne⟩ := List.mem_filter.mp hq
    exact kept (h.assetProtocols q hq) (bne_iff_ne.mp hne)
  · obtain ⟨hl, hne⟩ := List.mem_filter.mp hl
    exact kept (h.assetLabels l hl) (bne_iff_ne.mp hne)
  · obtain ⟨hl, hne⟩ := List.mem_filter.mp hl
    exact kept (h.assetNodes l hl) (bne_iff_ne.mp hne)
  · obtain ⟨a, ha, rfl⟩ := List.mem_map.mp hb
    obtain ⟨ha, hne⟩ := List.mem_filter.mp ha
    exact kept (h.accounts a ha) (bne_iff_ne.mp hne)
  · obtain ⟨a, ha, rfl⟩ := List.mem_map.mp hb
    obtain ⟨hs, hkept⟩ := Option.filter_eq_some_iff.mp hs
    obtain ⟨c, hc, rfl⟩ := h.suFrom a (List.mem_filter.mp ha).1 s hs
    -- An account that is still referred to is none of those that went with the asset.
    have hne : (c.assetId != id) = true := by
      refine bne_iff_ne.mpr fun heq => ?_
      have hgone : c.id ∈ (t.accounts.filter (·.assetId == id)).map (·.id) :=
        List.mem_map_of_mem (List.mem_filter.mpr ⟨hc, beq_iff_eq.mpr heq⟩)
      rw [List.contains_iff_mem.mpr hgone] at hkept
      cases hkept
    exact ⟨_, List.mem_map_of_mem (List.mem_filter.mpr ⟨hc, hne⟩), rfl⟩

theorem References.step (h : t.References) (ht : Step t t') : t'.References := by
  have more {ρ : Type} {rows : List ρ} {p : ρ → Prop} {row : ρ} :
      (∃ r ∈ rows, p r) → ∃ r ∈ rows ++ [row], p r := fun hr => exists_mem_append hr [row]
  cases ht with
  | insertPlatformRow row _ =>
    exact { h with
      platformProtocols := fun q hq => more (h.platformProtocols q hq)
      assets := fun a ha => more (h.assets a ha) }
  | insertPlatformProtocol row _ hplatform =>
    exact { h with
      platformProtocols := forall_mem_concat h.platformProtocols (hasPlatform_iff.mp hplatform) }
  | insertAssetRow row _ hplatform =>
    exact { h with
      assets := forall_mem_concat h.assets (hasPlatform_iff.mp hplatform)
      assetProtocols := fun q hq => more (h.assetProtocols q hq)
      assetLabels := fun l hl => more (h.assetLabels l hl)
      assetNodes := fun l hl => more (h.assetNodes l hl)
      accounts := fun b hb => more (h.accounts b hb) }
  | insertAssetProtocol row _ hasset =>
    exact { h with
      assetProtocols := forall_mem_concat h.assetProtocols (hasAsset_iff.mp hasset) }
  | insertLabel l _ => exact { h with labels := fun l hl => more (h.labels l hl) }
  | linkLabel link _ hasset hlabel =>
    exact { h with
      assetLabels := forall_mem_concat h.assetLabels (hasAsset_iff.mp hasset)
      labels := forall_mem_concat h.labels hlabel }
  | linkNode link _ hasset hnode =>
    exact { h with
      assetNodes := forall_mem_concat h.assetNodes (hasAsset_iff.mp hasset)
      nodes := forall_mem_concat h.nodes (hasNode_iff.mp hnode) }
  | deleteAsset id => exact h.deleteAsset id
  | insertNode n _ hparent =>
    refine { h with
      nodes := fun l hl => more (h.nodes l hl)
      parents := forall_mem_concat (fun m hm p hp => more (h.parents m hm p hp)) fun p hp => ?_ }
    rcases hparent p hp with rfl | hfound
    · exact ⟨n, List.mem_append_right _ (List.mem_singleton_self n), rfl⟩
    · exact more (hasNode_iff.mp hfound)
  | insertTemplate u _ => exact { h with }
  | deleteTemplate id => exact { h with }
  | insertAccount a _ _ _ hasset hsu =>
    refine { h with
      accounts := forall_mem_concat h.accounts (hasAsset_iff.mp hasset)
      suFrom := forall_mem_concat (fun b hb s hs => more (h.suFrom b hb s hs)) fun s hs => ?_ }
    rcases hsu s hs with rfl | hfound
    · exact ⟨a, List.mem_append_right _ (List.mem_singleton_self a), rfl⟩
    · exact more (hasAccount_iff.mp hfound)
  | updateAccount old new hold hid hasset _ _ _ hsu =>
    have ids {s : String} (hs : ∃ a ∈ t.accounts, a.id = s) :
        ∃ a ∈ t.accounts.map fun b => if b.id == new.id then new else b, a.id = s := by
      obtain ⟨a, ha, rfl⟩ := hs
      refine ⟨_, List.mem_map_of_mem ha, ?_⟩
      split
      · next heq => exact (eq_of_beq heq).symm
      · rfl
    refine { h with accounts := fun b hb => ?_, suFrom := fun b hb s hs => ?_ }
    · obtain ⟨c, hc, rfl⟩ := List.mem_map.mp hb
      split
      · exact hasset ▸ h.accounts old hold
      · exact h.accounts c hc
    · obtain ⟨c, hc, rfl⟩ := List.mem_map.mp hb
      split at hs
      · exact ids (hasAccount_iff.mp (hsu s hs))
      · exact ids (h.suFrom c hc s hs)
  | insertPushTask row => exact { h with }

structure Valid (t : Tables) : Prop where
  keys : t.Keys
  references : t.References

theorem Valid.empty : Tables.empty.Valid := ⟨.empty, .empty⟩

theorem Valid.step (h : t.Valid) (ht : Step t t') : t'.Valid :=
  ⟨h.keys.step ht, h.references.step ht⟩

theorem Valid.statement (h : t.Valid) {f : Statement} (hf : f.Sound) (ht : f t = .ok t') :
    t'.Valid := by
  rcases hf t t' ht with rfl | hs
  · exact h
  · exact h.step hs

theorem Valid.together (h : t.Valid) {fs : List Statement} (hfs : ∀ f ∈ fs, f.Sound)
    (ht : Tables.together fs t = .ok t') : t'.Valid :=
  together_invariant (fun _ _ => Valid.step) hfs h ht

theorem valid_of_reachable {clock : Time.Instant} {entries : List Relational} {s : Relational}
    (h : Reachable (Relational.empty clock) entries s) : s.tables.Valid :=
  Relational.reachable_invariant .empty (fun _ _ => .step) h

end Custody.Store.Tables
