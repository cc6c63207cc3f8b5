import Custody.Proofs.Store.Memory
import Custody.Proofs.Store.Tables

/-!
What no two records share: the name of a platform, the path of a node, the name of a template in
its organisation, the name and the slot of an account on its asset. Both stores keep this through
every call, and so through every run of calls and nested blocks, however the blocks end.
-/
namespace Custody.Store

structure Unique (platformNames nodePaths : List String) (templates : List Template)
    (accounts : List Account) : Prop where
  platformNames : platformNames.Nodup
  nodePaths : nodePaths.Nodup
  templateNames : (templates.map fun t => (t.orgId, t.name)).Nodup
  accountNames : (accounts.map fun a => (a.assetId, a.name)).Nodup
  accountSlots : (accounts.map fun a => (a.assetId, a.username, a.secretType)).Nodup

namespace Records

variable {r r' : Records}

def Unique (r : Records) : Prop :=
  Store.Unique (r.platforms.values.map (·.name)) (r.nodes.values.map (·.fullValue))
    r.templates.values r.accounts.values

theorem nodup_place {α κ : Type} {ident : α → String} {key : α → κ} {o : Keyed α}
    (hfiled : o.Filed ident) (h : (o.values.map key).Nodup) {a : α}
    (hfree : ∀ b ∈ o.values, ident b ≠ ident a → key a ≠ key b) :
    ((o.place (ident a) a).values.map key).Nodup := by
  refine ((hfiled.values_place a).map key).nodup_iff.mpr (Rows.nodup_cons_filter h ?_)
  exact fun b hb hne => hfree b hb (bne_iff_ne.mp hne)

theorem nodup_erase {α κ : Type} {ident : α → String} {key : α → κ} {o : Keyed α}
    (hfiled : o.Filed ident) (h : (o.values.map key).Nodup) (id : String) :
    ((o.erase id).values.map key).Nodup := by
  rw [hfiled.values_erase]
  exact Rows.nodup_filter h _

theorem clashesWith_eq_false_iff {a b : Account} : clashesWith a b = false ↔
    (b.id ≠ a.id → (a.assetId, a.name) ≠ (b.assetId, b.name)) ∧
    (b.id ≠ a.id →
      (a.assetId, a.username, a.secretType) ≠ (b.assetId, b.username, b.secretType)) := by
  simp only [clashesWith, ne_eq, Prod.mk.injEq, Bool.and_eq_false_iff, Bool.or_eq_false_iff,
    bne_eq_false_iff_eq, beq_eq_false_iff_ne]
  grind

theorem checkAccount_eq_ok_iff_keys {a : Account} : checkAccount a r = .ok () ↔
    (∀ b ∈ r.accounts.values, b.id ≠ a.id → (a.assetId, a.name) ≠ (b.assetId, b.name)) ∧
    ∀ b ∈ r.accounts.values, b.id ≠ a.id →
      (a.assetId, a.username, a.secretType) ≠ (b.assetId, b.username, b.secretType) := by
  simp only [checkAccount_eq_ok_iff, clashesWith_eq_false_iff, forall_and]

theorem Unique.placeAccount (h : r.Unique) (hfiled : r.Filed) {a : Account}
    (hcheck : checkAccount a r = .ok ()) :
    Unique { r with accounts := r.accounts.place a.id a } := by
  obtain ⟨hname, hslot⟩ := checkAccount_eq_ok_iff_keys.mp hcheck
  exact { h with
    accountNames := nodup_place hfiled.accounts h.accountNames hname
    accountSlots := nodup_place hfiled.accounts h.accountSlots hslot }

theorem Unique.step (h : r.Unique) (hfiled : r.Filed) (hr : Step r r') : r'.Unique := by
  cases hr with
  | unchanged => exact h
  | insertPlatform p _ hname =>
    have hfree : ∀ q ∈ r.platforms.values, q.id ≠ p.id → p.name ≠ q.name :=
      fun q hq _ => (hname q hq).symm
    exact { h with platformNames := nodup_place hfiled.platforms h.platformNames hfree }
  | insertAsset a => exact h
  | deleteAsset id =>
    have hvalues := Keyed.values_filter r.accounts fun a => decide (a.assetId ≠ id)
    refine { h with accountNames := ?_, accountSlots := ?_ }
    · rw [hvalues]; exact Rows.nodup_filter h.accountNames _
    · rw [hvalues]; exact Rows.nodup_filter h.accountSlots _
  | insertNode n hfree =>
    have hpath := Rows.find?_key_eq_none_iff.mp hfree
    exact { h with
      nodePaths := nodup_place hfiled.nodes h.nodePaths fun m hm _ => (hpath m hm).symm }
  | insertTemplate t hfree =>
    refine { h with templateNames := nodup_place hfiled.templates h.templateNames ?_ }
    intro u hu _ heq
    obtain ⟨horg, hname⟩ := Prod.mk.inj heq
    exact hfree u hu horg.symm hname.symm
  | deleteTemplate id =>
    exact { h with templateNames := nodup_erase hfiled.templates h.templateNames id }
  | insertAccount a _ _ hcheck => exact h.placeAccount hfiled hcheck
  | updateAccount a _ hcheck => exact h.placeAccount hfiled hcheck

end Records

namespace Tables

variable {t t' : Tables}

structure Keys (t : Tables) : Prop where
  platformIds : (t.platforms.map (·.id)).Nodup
  platformNames : (t.platforms.map (·.name)).Nodup
  platformProtocols : (t.platformProtocols.map fun r => (r.platformId, r.protocol.name)).Nodup
  assetIds : (t.assets.map (·.id)).Nodup
  assetProtocols : (t.assetProtocols.map fun r => (r.assetId, r.name)).Nodup
  labelIds : (t.labels.map (·.id)).Nodup
  labels : (t.labels.map (·.label)).Nodup
  assetLabels : (t.assetLabels.map id).Nodup
  assetNodes : (t.assetNodes.map id).Nodup
  nodeIds : (t.nodes.map (·.id)).Nodup
  nodePaths : (t.nodes.map (·.fullValue)).Nodup
  templateIds : (t.templates.map (·.id)).Nodup
  templateNames : (t.templates.map fun u => (u.orgId, u.name)).Nodup
  accountIds : (t.accounts.map (·.id)).Nodup
  accountNames : (t.accounts.map fun a => (a.assetId, a.name)).Nodup
  accountSlots : (t.accounts.map fun a => (a.assetId, a.username, a.secretType)).Nodup

theorem Keys.empty : Tables.empty.Keys := by constructor <;> exact .nil

theorem lt_nextId {ids : List Nat} {i : Nat} (h : i ∈ ids) : i < nextId ids := by
  suffices ∀ start, i ∈ ids ∨ i ≤ start → i ≤ ids.foldl max start from
    Nat.lt_succ_of_le (this 0 (.inl h))
  clear h
  induction ids with
  | nil => intro start h; simpa using h
  | cons j rest ih =>
    intro start h
    refine ih _ ?_
    rcases h with h | h
    · rcases List.mem_cons.mp h with rfl | h
      · exact .inr (Nat.le_max_right _ _)
      · exact .inl h
    · exact .inr (Nat.le_trans h (Nat.le_max_left _ _))

theorem Keys.deleteAsset (h : t.Keys) (id : String) : (t.deleteAsset id).2.Keys := by
  have rows {κ : Type} {key : Account → κ} {f : Account → Account} (hf : key ∘ f = key)
      (hkey : (t.accounts.map key).Nodup) (p : Account → Bool) :
      (((t.accounts.filter p).map f).map key).Nodup := by
    rw [List.map_map, hf]
    exact Rows.nodup_filter hkey p
  unfold Tables.deleteAsset
  split
  · refine { h with
      assetIds := Rows.nodup_filter h.assetIds _
      assetProtocols := Rows.nodup_filter h.assetProtocols _
      assetLabels := Rows.nodup_filter h.assetLabels _
      assetNodes := Rows.nodup_filter h.assetNodes _
      accountIds := ?_, accountNames := ?_, accountSlots := ?_ }
    · exact rows (by rfl) h.accountIds _
    · exact rows (by rfl) h.accountNames _
    · exact rows (by rfl) h.accountSlots _
  · exact h

theorem nodup_replace {κ : Type} {key : Account → κ} (h : t.Keys)
    (hkey : (t.accounts.map key).Nodup) {old new : Account} (hold : old ∈ t.accounts)
    (hid : new.id = old.id) (hfree : ∀ b ∈ t.accounts, b.id ≠ new.id → key new ≠ key b) :
    ((t.accounts.map fun b => if b.id == new.id then new else b).map key).Nodup := by
  have hperm := Rows.replace_perm new h.accountIds ⟨old, hold, hid.symm⟩
  refine (hperm.map key).nodup_iff.mpr (Rows.nodup_cons_filter hkey ?_)
  exact fun b hb hne => hfree b hb (bne_iff_ne.mp hne)

theorem Keys.step (h : t.Keys) (ht : Step t t') : t'.Keys := by
  cases ht with
  | insertPlatformRow row hkey =>
    exact { h with
      platformIds := Rows.nodup_append_singleton h.platformIds fun r hr => (hkey r hr).2
      platformNames := Rows.nodup_append_singleton h.platformNames fun r hr => (hkey r hr).1 }
  | insertPlatformProtocol row hkey =>
    exact { h with platformProtocols := Rows.nodup_append_singleton h.platformProtocols hkey }
  | insertAssetRow row hkey =>
    exact { h with assetIds := Rows.nodup_append_singleton h.assetIds hkey }
  | insertAssetProtocol row hkey =>
    exact { h with assetProtocols := Rows.nodup_append_singleton h.assetProtocols hkey }
  | insertLabel l hfree =>
    exact { h with
      labelIds := Rows.nodup_append_singleton h.labelIds fun r hr =>
        Nat.ne_of_gt (lt_nextId (List.mem_map_of_mem hr))
      labels := Rows.nodup_append_singleton h.labels fun r hr => (hfree r hr).symm }
  | linkLabel link hfree =>
    exact { h with assetLabels :=
      Rows.nodup_append_singleton h.assetLabels fun r hr (heq : link = r) => hfree (heq ▸ hr) }
  | linkNode link hfree =>
    exact { h with assetNodes :=
      Rows.nodup_append_singleton h.assetNodes fun r hr (heq : link = r) => hfree (heq ▸ hr) }
  | deleteAsset id => exact h.deleteAsset id
  | insertNode n hkey =>
    exact { h with
      nodeIds := Rows.nodup_append_singleton h.nodeIds fun m hm => (hkey m hm).2
      nodePaths := Rows.nodup_append_singleton h.nodePaths fun m hm => (hkey m hm).1 }
  | insertTemplate u hkey =>
    exact { h with
      templateIds := Rows.nodup_append_singleton h.templateIds fun v hv => (hkey v hv).2
      templateNames := Rows.nodup_append_singleton h.templateNames fun v hv => (hkey v hv).1 }
  | deleteTemplate id =>
    exact { h with
      templateIds := Rows.nodup_filter h.templateIds _
      templateNames := Rows.nodup_filter h.templateNames _ }
  | insertAccount a hid hname hslot =>
    exact { h with
      accountIds := Rows.nodup_append_singleton h.accountIds hid
      accountNames := Rows.nodup_append_singleton h.accountNames hname
      accountSlots := Rows.nodup_append_singleton h.accountSlots hslot }
  | updateAccount old new hold hid _ _ hname hslot =>
    exact { h with
      accountIds := nodup_replace h h.accountIds hold hid fun b _ hne => hne.symm
      accountNames := nodup_replace h h.accountNames hold hid hname
      accountSlots := nodup_replace h h.accountSlots hold hid hslot }
  | insertPushTask row => exact { h with }

def Unique (t : Tables) : Prop :=
  Store.Unique (t.platforms.map (·.name)) (t.nodes.map (·.fullValue)) t.templates t.accounts

theorem Keys.unique (h : t.Keys) : t.Unique where
  platformNames := h.platformNames
  nodePaths := h.nodePaths
  templateNames := h.templateNames
  accountNames := h.accountNames
  accountSlots := h.accountSlots

end Tables

theorem sound_of_reachable {entries : List Memory} {m : Memory}
    (h : Reachable Memory.empty entries m) : m.records.Filed ∧ m.records.Unique :=
  Memory.reachable_invariant (fun r => r.Filed ∧ r.Unique) ⟨.empty, by constructor <;> exact .nil⟩
    (fun _ _ hr hs => ⟨hr.1.step hs, hr.2.step hr.1 hs⟩) h

theorem filed_of_reachable {entries : List Memory} {m : Memory}
    (h : Reachable Memory.empty entries m) : m.records.Filed := (sound_of_reachable h).1

theorem keys_of_reachable {clock : Time.Instant} {entries : List Relational} {s : Relational}
    (h : Reachable (Relational.empty clock) entries s) : s.tables.Keys :=
  Relational.reachable_invariant .empty (fun _ _ => .step) h

/-- Whatever calls were made, with whatever records, inside blocks that were committed or reverted
or are still open: no two records of either store share a key. -/
theorem reachable_unique :
    (∀ (entries : List Memory) (m : Memory),
      Reachable Memory.empty entries m → m.records.Unique) ∧
    ∀ (clock : Time.Instant) (entries : List Relational) (s : Relational),
      Reachable (Relational.empty clock) entries s → s.tables.Unique :=
  ⟨fun _ _ h => (sound_of_reachable h).2, fun _ _ _ h => (keys_of_reachable h).unique⟩

/-- A store in the middle of a block: an account has been renamed there, and its old name and its
username have gone to a new account of another secret type. -/
def renamedCalls : List Call :=
  let account (id name : String) (secretType : SecretType) : Account :=
    ⟨id, "asset", name, "root", none, secretType, .manual, none, 1, false, true, "", none, ⟨0, 0⟩,
      ⟨0, 0⟩⟩
  [.insertPlatform ⟨"platform", "Linux", .host, .linux, .utf8, false, false, none, .off, [], [], "",
      ⟨0, 0⟩⟩,
    .insertAsset ⟨"asset", "web", "10.0.0.1", "platform", .host, .linux, none, true, "", [], [], [],
      ⟨0, 0⟩⟩,
    .insertAccount (account "first" "root" .password),
    .updateAccount (account "first" "old" .password),
    .insertAccount (account "second" "root" .token),
    .insertAccount (account "third" "new" .token)]

theorem reachable_unique_renamed :
    let m : Memory := renamedCalls.foldl (fun m c => (c.run m).2) (Store.enter Memory.empty)
    let s : Relational := renamedCalls.foldl (fun s c => (c.run s).2)
      (Store.enter (Relational.empty ⟨0, 0⟩))
    (Reachable Memory.empty [Memory.empty] m ∧
      m.records.accounts.values.map (·.name) = ["old", "root"] ∧ m.records.Unique) ∧
    Reachable (Relational.empty ⟨0, 0⟩) [Relational.empty ⟨0, 0⟩] s ∧
      s.tables.accounts.map (·.name) = ["old", "root"] ∧ s.tables.Unique := by
  have hm := (Reachable.start : Reachable Memory.empty [] _).enter.calls renamedCalls
  have hs := (Reachable.start : Reachable (Relational.empty ⟨0, 0⟩) [] _).enter.calls renamedCalls
  exact ⟨⟨hm, by rfl, reachable_unique.1 _ _ hm⟩, hs, by rfl, reachable_unique.2 _ _ _ hs⟩

end Custody.Store
