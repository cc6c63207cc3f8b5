import Custody.Proofs.Store.Blocks
import Custody.Proofs.Store.Listing

/-!
Which writes are refused as duplicates, in memory and on tables that hold the same. Memory overlooks
an id that is taken, on a new node or template, and a protocol that is named twice; and it checks an
update on the asset that the update names, where the tables check it on that of the stored account.
-/
namespace Custody.Store

namespace Call

def Duplicate {σ : Type} [Store σ] (c : Call) (s : σ) : Prop :=
  ∃ columns, (c.run s).1 = .error (.duplicate columns)

def Refers (t : Tables) : Call → Prop
  | insertAsset a => t.hasPlatform a.platformId = true ∧ ∀ n ∈ a.nodeIds, t.hasNode n = true
  | insertNode n => ∀ p, n.parentId = some p → p = n.id ∨ t.hasNode p = true
  | insertAccount a => t.hasAsset a.assetId = true ∧
    ∀ s, a.suFrom = some s → s = a.id ∨ t.hasAccount s = true
  | updateAccount a => ∀ s, a.suFrom = some s → t.hasAccount s = true
  | _ => True

def Inserts : Call → Prop
  | insertPlatform _ | insertAsset _ | insertNode _ | insertTemplate _ | insertAccount _ => True
  | _ => False

/-- A key of the tables is taken or named twice, and memory does not look at this key. -/
def Overlooked (t : Tables) : Call → Prop
  | insertPlatform p => ¬ (p.protocols.map (·.name)).Nodup
  | insertAsset a => ¬ (a.protocols.map (·.name)).Nodup
  | insertNode n => t.hasNode n.id = true
  | insertTemplate u => ∃ v ∈ t.templates, v.id = u.id
  | _ => False

def inPlace (t : Tables) : Call → Call
  | updateAccount a =>
    match t.accounts.find? (·.id == a.id) with
    | some old => updateAccount { a with assetId := old.assetId }
    | none => updateAccount a
  | c => c

end Call

/-- Where only a duplicate can be refused, that is what every refusal is. -/
theorem refused_iff {κ : Type} {x : Except Error κ}
    (hx : ∀ e, x = .error e → ∃ c, e = .duplicate c) :
    (∃ c, x = .error (.duplicate c)) ↔ ¬ ∃ k, x = .ok k := by
  cases x with
  | ok k => simp
  | error e =>
    obtain ⟨c, rfl⟩ := hx e rfl
    simp

theorem guarded_eq_error_iff {κ : Type} {f : κ → Except Error κ} {k : κ} {e : Error} :
    (guarded f k).1 = .error e ↔ f k = .error e := by
  unfold guarded
  split <;> simp_all

namespace Tables

variable {t : Tables}

/-- Where `I` holds, the statement goes through and keeps it, or is refused as a duplicate. -/
def Statement.Unhindered (I : Tables → Prop) (f : Statement) : Prop :=
  ∀ t, I t → (∃ t', f t = .ok t' ∧ I t') ∨ ∃ c, f t = .error (.duplicate c)

theorem unhindered_together {I : Tables → Prop} {fs : List Statement}
    (h : ∀ f ∈ fs, f.Unhindered I) : Statement.Unhindered I (together fs) := by
  induction fs with
  | nil => exact fun t ht => .inl ⟨t, rfl, ht⟩
  | cons f rest ih =>
    intro t ht
    rw [together]
    rcases h f (.head rest) t ht with ⟨t', hf, ht'⟩ | ⟨c, hf⟩
    · rw [hf]
      exact ih (fun g hg => h g (.tail f hg)) t' ht'
    · rw [hf]
      exact .inr ⟨c, rfl⟩

theorem unhindered_checked {I : Tables → Prop} {ρ : Type} {indexes : List (Index ρ)}
    {rows : Tables → List ρ} {row : ρ} {holds : Tables → Bool} {put : Tables → Tables}
    (hholds : ∀ t, I t → holds t = true) (hput : ∀ t, I t → I (put t)) :
    Statement.Unhindered I fun t => do
      checkUnique indexes (rows t) row
      checkReference (holds t)
      return put t := by
  intro t ht
  cases hunique : checkUnique indexes (rows t) row with
  | ok _ => exact .inl ⟨put t, checked_eq_ok_iff.mpr ⟨hunique, hholds t ht, rfl⟩, hput t ht⟩
  | error e =>
    obtain ⟨c, rfl⟩ := checkUnique_eq_error hunique
    exact .inr ⟨c, by simp only [hunique]; rfl⟩

theorem refused_of_together_cons {I : Tables → Prop} {f : Statement} {rest : List Statement}
    (hok : ∀ u, f t = .ok u → I u) (herror : ∀ e, f t = .error e → ∃ c, e = .duplicate c)
    (hrest : ∀ g ∈ rest, g.Unhindered I) {e : Error} (h : together (f :: rest) t = .error e) :
    ∃ c, e = .duplicate c := by
  rw [together] at h
  split at h
  · next u hu =>
    rcases unhindered_together hrest u (hok u hu) with ⟨u', hu', -⟩ | ⟨c, hc⟩
    · rw [hu'] at h
      cases h
    · exact ⟨c, Except.error.inj (h.symm.trans hc)⟩
  · next e' he =>
    cases h
    exact herror e he

theorem platformStatements_refused {p : Platform} {e : Error}
    (h : together (platformStatements p) t = .error e) : ∃ c, e = .duplicate c := by
  rw [platformStatements_eq] at h
  refine refused_of_together_cons (I := fun u => u.hasPlatform p.id = true) (fun u hu => ?_)
    (fun _ he => unique_eq_error he) (fun f hf => ?_) h
  · obtain ⟨-, rfl⟩ := insertPlatformRow_eq_ok_iff.mp hu
    simp [hasPlatform, platformRow]
  · obtain ⟨row, hmem, rfl⟩ := List.mem_map.mp hf
    obtain ⟨q, -, rfl⟩ := List.mem_map.mp hmem
    exact unhindered_checked (fun _ h => h) fun _ h => h

theorem assetStatements_refused {a : Asset} {e : Error}
    (hplatform : t.hasPlatform a.platformId = true) (hnodes : ∀ n ∈ a.nodeIds, t.hasNode n = true)
    (h : together (assetStatements a) t = .error e) : ∃ c, e = .duplicate c := by
  rw [assetStatements_eq] at h
  refine refused_of_together_cons
    (I := fun u => u.hasAsset a.id = true ∧ ∀ n ∈ a.nodeIds, u.hasNode n = true) (fun u hu => ?_)
    (fun _ he => checked_eq_error hplatform he) (fun f hf => ?_) h
  · obtain ⟨-, -, rfl⟩ := insertAssetRow_eq_ok_iff.mp hu
    exact ⟨by simp [hasAsset, assetRow], hnodes⟩
  simp only [List.mem_append, List.mem_map, List.mem_flatMap, List.mem_cons] at hf
  rcases hf with ⟨row, hmem, rfl⟩ | ⟨l, -, rfl | rfl | hf⟩ | ⟨n, hn, rfl⟩
  · obtain ⟨q, -, rfl⟩ := List.mem_map.mp hmem
    exact unhindered_checked (fun _ h => h.1) fun _ h => h
  · intro u hu
    unfold ensureLabel
    split
    · exact .inl ⟨_, rfl, hu⟩
    · exact .inl ⟨_, rfl, hu⟩
  · intro u hu
    cases hlabel : u.labelRow? l with
    | none => exact .inl ⟨u, by rw [linkLabel, hlabel], hu⟩
    | some row =>
      by_cases hlink : (⟨a.id, row.id⟩ : AssetLabelRow) ∈ u.assetLabels
      · exact .inl ⟨u, (linkLabel_eq_ok_iff hlabel).mpr (.inl ⟨hlink, rfl⟩), hu⟩
      · exact .inl ⟨_, (linkLabel_eq_ok_iff hlabel).mpr (.inr ⟨hlink, hu.1, rfl⟩), hu⟩
  · cases hf
  · intro u hu
    by_cases hlink : (⟨a.id, n⟩ : AssetNodeRow) ∈ u.assetNodes
    · exact .inl ⟨u, linkNode_eq_ok_iff.mpr (.inl ⟨hlink, rfl⟩), hu⟩
    · exact .inl ⟨_, linkNode_eq_ok_iff.mpr (.inr ⟨hlink, hu.1, hu.2 n hn, rfl⟩), hu⟩

end Tables

theorem any_eq_false_iff {ρ : Type} {rows : List ρ} {key : ρ → String} {k : String} :
    rows.any (key · == k) = false ↔ ∀ row ∈ rows, k ≠ key row := by
  rw [List.any_eq_false]
  exact forall₂_congr fun row _ => (not_congr beq_iff_eq).trans ne_comm

theorem Records.insertNode_eq_error {r : Records} {n : Node} {e : Error}
    (h : r.insertNode n = .error e) : ∃ c, e = .duplicate c := by
  unfold Records.insertNode at h
  split at h <;> cases h
  exact ⟨_, rfl⟩

theorem Records.insertPlatform_eq_error {r : Records} {p : Platform} {e : Error}
    (h : r.insertPlatform p = .error e) : ∃ c, e = .duplicate c := by
  unfold Records.insertPlatform at h
  split at h <;> cases h
  exact ⟨_, rfl⟩

theorem Records.insertAsset_eq_error {r : Records} {a : Asset} {e : Error}
    (hplatform : r.platforms.contains a.platformId = true) (h : r.insertAsset a = .error e) :
    ∃ c, e = .duplicate c := by
  unfold Records.insertAsset at h
  rw [hplatform] at h
  split at h <;> cases h
  exact ⟨_, rfl⟩

namespace Same

variable {m : Memory} {s : Relational} (h : Same m s)

include h

theorem contains_platform (id : String) :
    m.records.platforms.contains id = s.tables.hasPlatform id := by
  have hget : m.records.platforms.get? id = _ := h.platform? id
  rw [Keyed.contains, hget]
  exact (Option.isSome_map ..).trans (List.isSome_find? ..)

theorem contains_asset (id : String) : m.records.assets.contains id = s.tables.hasAsset id := by
  have hget : m.records.assets.get? id = _ := h.asset? id
  rw [Keyed.contains, hget]
  exact (Option.isSome_map ..).trans (List.isSome_find? ..)

theorem contains_template (id : String) :
    m.records.templates.contains id = s.tables.templates.any (·.id == id) := by
  have hget : m.records.templates.get? id = _ := h.template? id
  rw [Keyed.contains, hget]
  exact (Option.isSome_map ..).trans (List.isSome_find? ..)

theorem contains_account (id : String) :
    m.records.accounts.contains id = s.tables.hasAccount id := by
  have hget : m.records.accounts.get? id = _ := h.account? id
  rw [Keyed.contains, hget]
  exact (Option.isSome_map ..).trans (List.isSome_find? ..)

theorem mem_platforms {p : Platform} : p ∈ m.records.platforms.values ↔
    ∃ row ∈ s.tables.platforms, Tables.readPlatform s.clock s.tables row = p := by
  have hmem : p ∈ Store.platforms m ↔ p ∈ Store.platforms s := by rw [h.platforms]
  simpa [Store.platforms] using hmem

theorem mem_templates {u : Template} : u ∈ m.records.templates.values ↔
    ∃ v ∈ s.tables.templates, Tables.readTemplate s.clock v = u := by
  have hmem := (h.templates []).mem_iff (a := u)
  simpa [Store.templates, Records.templatesOf] using hmem

theorem mem_accounts {a : Account} : a ∈ m.records.accounts.values ↔
    ∃ b ∈ s.tables.accounts, Tables.readAccount s.clock b = a := by
  have hmem : a ∈ Store.accounts m none ↔ a ∈ Store.accounts s none := by rw [h.accounts]
  simpa [Store.accounts, Records.accountsOf] using hmem

theorem forall_accounts {P : Account → Prop}
    (hP : ∀ b, P (Tables.readAccount s.clock b) ↔ P b) :
    (∀ b ∈ m.records.accounts.values, P b) ↔ ∀ b ∈ s.tables.accounts, P b := by
  simp only [h.mem_accounts, forall_exists_index, and_imp, forall_apply_eq_imp_iff₂, hP]

theorem checkAccount_eq_ok_iff (a : Account) : Records.checkAccount a m.records = .ok () ↔
    checkUnique Tables.accountIndexes (s.tables.accounts.filter (·.id != a.id)) a = .ok () := by
  rw [Records.checkAccount_eq_ok_iff_keys, Tables.checkUnique_accountIndexes_eq_ok_iff,
    h.forall_accounts fun b => .rfl, h.forall_accounts fun b => .rfl]
  simp only [List.mem_filter, bne_iff_ne, and_imp]

theorem insertPlatform_isOk_iff (p : Platform) :
    (∃ r, m.records.insertPlatform p = .ok r) ↔
      ∀ q ∈ s.tables.platforms, p.name ≠ q.name ∧ p.id ≠ q.id := by
  have hid : m.records.platforms.contains p.id = false ↔
      ∀ q ∈ s.tables.platforms, p.id ≠ q.id := by
    rw [h.contains_platform]
    exact any_eq_false_iff
  have hname : (∀ q ∈ m.records.platforms.values, q.name ≠ p.name) ↔
      ∀ q ∈ s.tables.platforms, p.name ≠ q.name := by
    simp only [h.mem_platforms, forall_exists_index, and_imp, forall_apply_eq_imp_iff₂]
    exact forall₂_congr fun q _ => ne_comm
  simp only [Records.insertPlatform_eq_ok_iff, hid, hname, exists_and_left, exists_eq, and_true,
    forall₂_and]
  exact and_comm

theorem insertAsset_isOk_iff (a : Asset) (hplatform : s.tables.hasPlatform a.platformId = true) :
    (∃ r, m.records.insertAsset a = .ok r) ↔ ∀ b ∈ s.tables.assets, a.id ≠ b.id := by
  have hid : m.records.assets.contains a.id = false ↔ ∀ b ∈ s.tables.assets, a.id ≠ b.id := by
    rw [h.contains_asset]
    exact any_eq_false_iff
  simp only [Records.insertAsset_eq_ok_iff, hid, h.contains_platform, hplatform, exists_and_left,
    exists_eq, and_true]

theorem insertNode_isOk_iff (n : Node) : (∃ r, m.records.insertNode n = .ok r) ↔
    ∀ o ∈ s.tables.nodes, n.fullValue ≠ o.fullValue := by
  have hnode : m.records.node? n.fullValue = _ := h.node? n.fullValue
  have hpath : m.records.node? n.fullValue = none ↔
      ∀ o ∈ s.tables.nodes, n.fullValue ≠ o.fullValue := by
    rw [hnode]
    exact Rows.find?_key_eq_none_iff.trans (forall₂_congr fun o _ => ne_comm)
  simp only [Records.insertNode_eq_ok_iff, hpath, exists_and_left, exists_eq, and_true]

theorem insertTemplate_isOk_iff (u : Template) : (∃ r, m.records.insertTemplate u = .ok r) ↔
    ∀ v ∈ s.tables.templates, (u.orgId, u.name) ≠ (v.orgId, v.name) := by
  have hname : (∀ v ∈ m.records.templates.values, v.orgId = u.orgId → v.name ≠ u.name) ↔
      ∀ v ∈ s.tables.templates, (u.orgId, u.name) ≠ (v.orgId, v.name) := by
    simp only [h.mem_templates, forall_exists_index, and_imp, forall_apply_eq_imp_iff₂]
    refine forall₂_congr fun v _ => ?_
    simp [Tables.readTemplate, eq_comm]
  simp only [Records.insertTemplate_eq_ok_iff, hname, exists_and_left, exists_eq, and_true]

theorem insertAccount_isOk_iff (a : Account) (hasset : s.tables.hasAsset a.assetId = true) :
    (∃ r, m.records.insertAccount a = .ok r) ↔ (∀ b ∈ s.tables.accounts, a.id ≠ b.id) ∧
      checkUnique Tables.accountIndexes s.tables.accounts a = .ok () := by
  have hid : m.records.accounts.contains a.id = false ↔
      ∀ b ∈ s.tables.accounts, a.id ≠ b.id := by
    rw [h.contains_account]
    exact any_eq_false_iff
  simp only [Records.insertAccount_eq_ok_iff, hid, h.contains_asset, hasset, exists_and_left,
    exists_eq, and_true, true_and, h.checkAccount_eq_ok_iff]
  refine and_congr_right fun hfree => ?_
  have hall : s.tables.accounts.filter (·.id != a.id) = s.tables.accounts :=
    List.filter_eq_self.mpr fun b hb => bne_iff_ne.mpr (hfree b hb).symm
  rw [hall]

end Same

theorem Memory.duplicate_iff {c : Call} {f : Records → Except Error Records} {m : Memory}
    (hc : c.run m = guarded f m) (hf : ∀ e, f m.records = .error e → ∃ d, e = .duplicate d) :
    c.Duplicate m ↔ ¬ ∃ r, f m.records = .ok r := by
  unfold Call.Duplicate
  rw [hc, (guarded_onRecords f m).1]
  simp only [guarded_eq_error_iff]
  exact refused_iff hf

theorem Relational.duplicate_iff {c : Call} {f : Tables.Statement} {s : Relational}
    (hc : c.run s = guarded f s) (hf : ∀ e, f s.tables = .error e → ∃ d, e = .duplicate d) :
    c.Duplicate s ↔ ¬ ∃ t, f s.tables = .ok t := by
  unfold Call.Duplicate
  rw [hc, guarded_onTables f s]
  simp only [guarded_eq_error_iff]
  exact refused_iff hf

namespace Same

variable {m : Memory} {s : Relational} (h : Same m s)

include h

theorem duplicate_insertPlatform (hs : s.tables.Valid) (p : Platform) :
    (Call.insertPlatform p).Duplicate s ↔
      (Call.insertPlatform p).Duplicate m ∨ ¬ (p.protocols.map (·.name)).Nodup := by
  have hboth : (∃ t', Tables.together (Tables.platformStatements p) s.tables = .ok t') ↔
      (∃ r, m.records.insertPlatform p = .ok r) ∧ (p.protocols.map (·.name)).Nodup := by
    rw [Tables.together_platformStatements_isOk_iff hs, h.insertPlatform_isOk_iff]
  have hmemory : (Call.insertPlatform p).Duplicate m ↔ _ :=
    Memory.duplicate_iff rfl fun _ => Records.insertPlatform_eq_error
  have htables : (Call.insertPlatform p).Duplicate s ↔ _ :=
    Relational.duplicate_iff (Relational.performAll_eq _ s) fun _ =>
      Tables.platformStatements_refused
  rw [htables, hmemory, hboth, not_and_or]

theorem duplicate_insertAsset (hs : s.tables.Valid) {a : Asset}
    (hplatform : s.tables.hasPlatform a.platformId = true)
    (hnodes : ∀ n ∈ a.nodeIds, s.tables.hasNode n = true) :
    (Call.insertAsset a).Duplicate s ↔
      (Call.insertAsset a).Duplicate m ∨ ¬ (a.protocols.map (·.name)).Nodup := by
  have hboth : (∃ t', Tables.together (Tables.assetStatements a) s.tables = .ok t') ↔
      (∃ r, m.records.insertAsset a = .ok r) ∧ (a.protocols.map (·.name)).Nodup := by
    rw [h.insertAsset_isOk_iff a hplatform]
    constructor
    · rintro ⟨t', ht⟩
      have hfits := Tables.fits_of_together hs ht
      exact ⟨hfits.newId, hfits.names⟩
    · rintro ⟨hid, hnames⟩
      obtain ⟨_, _, _, t', ht, -⟩ :=
        Tables.together_assetStatements hs hid hplatform hnames hnodes
      exact ⟨t', ht⟩
  have hmemory : (Call.insertAsset a).Duplicate m ↔ _ := Memory.duplicate_iff rfl fun _ =>
    Records.insertAsset_eq_error ((h.contains_platform _).trans hplatform)
  have htables : (Call.insertAsset a).Duplicate s ↔ _ :=
    Relational.duplicate_iff (Relational.performAll_eq _ s) fun _ =>
      Tables.assetStatements_refused hplatform hnodes
  rw [htables, hmemory, hboth, not_and_or]

theorem duplicate_insertNode {n : Node}
    (hparent : ∀ p, n.parentId = some p → p = n.id ∨ s.tables.hasNode p = true) :
    (Call.insertNode n).Duplicate s ↔
      (Call.insertNode n).Duplicate m ∨ s.tables.hasNode n.id = true := by
  have hholds : (n.parentId.all fun p => p == n.id || s.tables.hasNode p) = true := by
    cases hp : n.parentId with
    | none => rfl
    | some p => simpa using hparent p hp
  have hid : (∀ o ∈ s.tables.nodes, n.id ≠ o.id) ↔ ¬ s.tables.hasNode n.id = true := by
    rw [Bool.not_eq_true]
    exact any_eq_false_iff.symm
  have hboth : (∃ t', s.tables.insertNode n = .ok t') ↔
      (∃ r, m.records.insertNode n = .ok r) ∧ ¬ s.tables.hasNode n.id = true := by
    rw [h.insertNode_isOk_iff, ← hid]
    simp only [Tables.insertNode_eq_ok_iff, exists_and_left, exists_eq, and_true, forall₂_and]
    exact and_iff_left hparent
  have hmemory : (Call.insertNode n).Duplicate m ↔ _ :=
    Memory.duplicate_iff rfl fun _ => Records.insertNode_eq_error
  have htables : (Call.insertNode n).Duplicate s ↔ _ :=
    Relational.duplicate_iff rfl fun _ => checked_eq_error hholds
  rw [htables, hmemory, hboth, not_and_or, not_not]

theorem duplicate_insertTemplate (u : Template) :
    (Call.insertTemplate u).Duplicate s ↔
      (Call.insertTemplate u).Duplicate m ∨ ∃ v ∈ s.tables.templates, v.id = u.id := by
  have hid : (∀ v ∈ s.tables.templates, u.id ≠ v.id) ↔ ¬ ∃ v ∈ s.tables.templates, v.id = u.id := by
    simp only [not_exists, not_and]
    exact forall₂_congr fun v _ => ne_comm
  have hboth : (∃ t', s.tables.insertTemplate u = .ok t') ↔
      (∃ r, m.records.insertTemplate u = .ok r) ∧ ¬ ∃ v ∈ s.tables.templates, v.id = u.id := by
    rw [h.insertTemplate_isOk_iff, ← hid]
    simp only [Tables.insertTemplate_eq_ok_iff, exists_and_left, exists_eq, and_true, forall₂_and]
  have hmemory : (Call.insertTemplate u).Duplicate m ↔ _ :=
    Memory.duplicate_iff rfl fun _ => Records.insertTemplate_eq_error
  have htables : (Call.insertTemplate u).Duplicate s ↔ _ :=
    Relational.duplicate_iff rfl fun _ => unique_eq_error
  rw [htables, hmemory, hboth, not_and_or, not_not]

theorem duplicate_insertAccount {a : Account} (hasset : s.tables.hasAsset a.assetId = true)
    (hsu : ∀ b, a.suFrom = some b → b = a.id ∨ s.tables.hasAccount b = true) :
    (Call.insertAccount a).Duplicate s ↔ (Call.insertAccount a).Duplicate m := by
  have hholds : (s.tables.hasAsset a.assetId &&
      a.suFrom.all fun b => b == a.id || s.tables.hasAccount b) = true := by
    rw [hasset, Bool.true_and]
    cases hb : a.suFrom with
    | none => rfl
    | some b => simpa using hsu b hb
  have hboth : (∃ t', s.tables.insertAccount a = .ok t') ↔
      ∃ r, m.records.insertAccount a = .ok r := by
    rw [h.insertAccount_isOk_iff a hasset]
    simp only [Tables.insertAccount_eq_ok_iff, exists_and_left, exists_eq, and_true]
    exact ⟨fun ⟨hid, hkey, _⟩ => ⟨hid, hkey⟩, fun ⟨hid, hkey⟩ => ⟨hid, hkey, hasset, hsu⟩⟩
  have hmemory : (Call.insertAccount a).Duplicate m ↔ _ := Memory.duplicate_iff rfl fun _ =>
    Records.insertAccount_eq_error ((h.contains_asset _).trans hasset)
  have htables : (Call.insertAccount a).Duplicate s ↔ _ :=
    Relational.duplicate_iff rfl fun _ => checked_eq_error hholds
  rw [htables, hmemory, hboth]

theorem duplicate_updateAccount {a : Account}
    (hsu : ∀ b, a.suFrom = some b → s.tables.hasAccount b = true) :
    (Call.updateAccount a).Duplicate s ↔
      ((Call.updateAccount a).inPlace s.tables).Duplicate m := by
  have hstored : m.records.accounts.contains a.id = s.tables.hasAccount a.id :=
    h.contains_account a.id
  rw [Tables.hasAccount, ← List.isSome_find?] at hstored
  cases hrow : s.tables.accounts.find? (·.id == a.id) with
  | none =>
    rw [hrow] at hstored
    have hs : s.tables.updateAccount a = .error (.notFound (.account a.id)) := by
      rw [Tables.updateAccount, hrow]
    have hm : m.records.updateAccount a = .error (.notFound (.account a.id)) := by
      rw [Records.updateAccount, hstored]
      rfl
    have hplace : (Call.updateAccount a).inPlace s.tables = .updateAccount a := by
      rw [Call.inPlace, hrow]
    rw [hplace]
    unfold Call.Duplicate
    change (∃ d, (Relational.guarded _ s).1 = _) ↔ ∃ d, (Memory.guarded _ m).1 = _
    rw [Relational.guarded_of_error hs, Memory.guarded_of_error hm]
  | some old =>
    rw [hrow] at hstored
    have hplace : (Call.updateAccount a).inPlace s.tables =
        .updateAccount { a with assetId := old.assetId } := by
      rw [Call.inPlace, hrow]
    have hholds : (a.suFrom.all s.tables.hasAccount) = true := by
      cases hb : a.suFrom with
      | none => rfl
      | some b => exact hsu b hb
    have hkey (d : Time.Instant) :
        checkUnique Tables.accountIndexes (s.tables.accounts.filter (·.id != a.id))
          { a with assetId := old.assetId, dateCreated := d } = .ok () ↔
        Records.checkAccount { a with assetId := old.assetId } m.records = .ok () := by
      rw [h.checkAccount_eq_ok_iff]
      simp only [Tables.checkUnique_accountIndexes_eq_ok_iff]
    have hboth : (∃ t', s.tables.updateAccount a = .ok t') ↔
        ∃ r, m.records.updateAccount { a with assetId := old.assetId } = .ok r := by
      simp only [Tables.updateAccount_eq_ok_iff, Records.updateAccount_eq_ok_iff, hrow,
        ← hkey old.dateCreated]
      constructor
      · rintro ⟨_, row, hold, hfree, -, rfl⟩
        obtain rfl := Option.some.inj hold
        exact ⟨_, hstored, hfree, rfl⟩
      · rintro ⟨_, -, hfree, rfl⟩
        exact ⟨_, old, rfl, hfree, hsu, rfl⟩
    have hmemory : (Call.updateAccount { a with assetId := old.assetId }).Duplicate m ↔ _ :=
      Memory.duplicate_iff rfl fun _ => Records.updateAccount_eq_error hstored
    have htables : (Call.updateAccount a).Duplicate s ↔
        ¬ ∃ t, s.tables.updateAccount a = .ok t := by
      refine Relational.duplicate_iff rfl fun e he => ?_
      rw [Tables.updateAccount, hrow] at he
      exact checked_eq_error hholds he
    rw [hplace, htables, hmemory, hboth]

/-- What the tables refuse as a duplicate is what memory refuses, and what it overlooks. -/
theorem duplicate_iff (hs : s.tables.Valid) {c : Call} (hrefs : c.Refers s.tables) :
    c.Duplicate s ↔ (c.inPlace s.tables).Duplicate m ∨ c.Overlooked s.tables := by
  have never {σ : Type} [Store σ] {c : Call} {s : σ} (hok : (c.run s).1 = .ok ()) :
      ¬ c.Duplicate s := by
    rintro ⟨d, hd⟩
    cases hok.symm.trans hd
  have harmless {c : Call} (hs : (c.run s).1 = .ok ()) (hm : (c.run m).1 = .ok ()) :
      c.Duplicate s ↔ c.Duplicate m ∨ False :=
    iff_of_false (never hs) fun hd => hd.elim (never hm) False.elim
  cases c with
  | insertPlatform p => exact h.duplicate_insertPlatform hs p
  | insertAsset a => exact h.duplicate_insertAsset hs hrefs.1 hrefs.2
  | insertNode n => exact h.duplicate_insertNode hrefs
  | insertTemplate u => exact h.duplicate_insertTemplate u
  | insertAccount a =>
    exact (h.duplicate_insertAccount hrefs.1 hrefs.2).trans (iff_of_eq (or_false _)).symm
  | updateAccount a => exact (h.duplicate_updateAccount hrefs).trans (iff_of_eq (or_false _)).symm
  | deleteAsset id => exact harmless rfl rfl
  | deleteTemplate id => exact harmless rfl rfl
  | enqueue p now => exact harmless rfl rfl

end Same

/-- Every record that was found is found again, as it was. -/
structure Standing {σ : Type} [Store σ] (s s' : σ) : Prop where
  platform? : ∀ id p, Store.platform? s id = some p → Store.platform? s' id = some p
  asset? : ∀ id a, Store.asset? s id = some a → Store.asset? s' id = some a
  node? : ∀ path n, Store.node? s path = some n → Store.node? s' path = some n
  template? : ∀ id u, Store.template? s id = some u → Store.template? s' id = some u
  account? : ∀ id a, Store.account? s id = some a → Store.account? s' id = some a

theorem Standing.refl {σ : Type} [Store σ] (s : σ) : Standing s s :=
  ⟨fun _ _ h => h, fun _ _ h => h, fun _ _ h => h, fun _ _ h => h, fun _ _ h => h⟩

theorem Keyed.get?_place_of_found {α : Type} {o : Keyed α} {key k : String} {value a : α}
    (hnew : o.contains key = false) (h : o.get? k = some a) :
    (o.place key value).get? k = some a := by
  rw [Keyed.get?_place_of_ne, h]
  rintro rfl
  rw [Keyed.contains, h] at hnew
  cases hnew

theorem Memory.standing_of_free {m : Memory} {c : Call} (hc : c.Inserts)
    (hnode : ∀ n, c = .insertNode n → m.records.nodes.contains n.id = false)
    (htemplate : ∀ u, c = .insertTemplate u → m.records.templates.contains u.id = false) :
    Standing m (c.run m).2 := by
  have guarded {f : Records → Except Error Records}
      (hf : ∀ r, f m.records = .ok r → Standing m { m with records := r }) :
      Standing m (Memory.guarded f m).2 := by
    cases hr : f m.records with
    | ok r => rw [guarded_of_ok hr]; exact hf r hr
    | error e => rw [guarded_of_error hr]; exact .refl m
  cases c with
  | insertPlatform p =>
    refine guarded fun r hr => ?_
    obtain ⟨hid, -, rfl⟩ := Records.insertPlatform_eq_ok_iff.mp hr
    exact { Standing.refl m with platform? := fun _ _ h => Keyed.get?_place_of_found hid h }
  | insertAsset a =>
    refine guarded fun r hr => ?_
    obtain ⟨hid, -, rfl⟩ := Records.insertAsset_eq_ok_iff.mp hr
    exact { Standing.refl m with asset? := fun _ _ h => Keyed.get?_place_of_found hid h }
  | insertNode n =>
    refine guarded fun r hr => ?_
    obtain ⟨hpath, rfl⟩ := Records.insertNode_eq_ok_iff.mp hr
    refine { Standing.refl m with node? := fun path o h => ?_ }
    have hne : (n.fullValue == path) = false := by
      refine beq_eq_false_iff_ne.mpr fun heq => ?_
      cases hpath.symm.trans (heq ▸ h)
    refine (Keyed.find?_place (p := fun o : Node => o.fullValue == path) hne fun o ho => ?_).trans h
    have hfree := hnode n rfl
    rw [Keyed.contains, ho] at hfree
    cases hfree
  | insertTemplate u =>
    refine guarded fun r hr => ?_
    obtain ⟨-, rfl⟩ := Records.insertTemplate_eq_ok_iff.mp hr
    exact { Standing.refl m with
      template? := fun _ _ h => Keyed.get?_place_of_found (htemplate u rfl) h }
  | insertAccount a =>
    refine guarded fun r hr => ?_
    obtain ⟨hid, -, -, rfl⟩ := Records.insertAccount_eq_ok_iff.mp hr
    exact { Standing.refl m with account? := fun _ _ h => Keyed.get?_place_of_found hid h }
  | deleteAsset _ | deleteTemplate _ | updateAccount _ | enqueue _ _ => exact hc.elim

structure Tables.Extends (clock : Time.Instant) (t t' : Tables) : Prop where
  platforms : t.platforms <+: t'.platforms
  assets : t.assets <+: t'.assets
  nodes : t.nodes <+: t'.nodes
  templates : t.templates <+: t'.templates
  accounts : t.accounts <+: t'.accounts
  readPlatform : ∀ row ∈ t.platforms,
    Tables.readPlatform clock t' row = Tables.readPlatform clock t row
  readAsset : ∀ row ∈ t.assets, Tables.readAsset clock t' row = Tables.readAsset clock t row

theorem Tables.Extends.refl (clock : Time.Instant) (t : Tables) : t.Extends clock t :=
  ⟨List.prefix_rfl, List.prefix_rfl, List.prefix_rfl, List.prefix_rfl, List.prefix_rfl,
    fun _ _ => rfl, fun _ _ => rfl⟩

theorem Tables.Extends.standing {s : Relational} {t : Tables} (h : s.tables.Extends s.clock t) :
    Standing s { s with tables := t } where
  platform? id p hp := by
    obtain ⟨row, hrow, rfl⟩ := Option.map_eq_some_iff.mp hp
    exact Option.map_eq_some_iff.mpr ⟨row, h.platforms.find?_eq_some hrow,
      h.readPlatform row (List.mem_of_find?_eq_some hrow)⟩
  asset? id a ha := by
    obtain ⟨row, hrow, rfl⟩ := Option.map_eq_some_iff.mp ha
    exact Option.map_eq_some_iff.mpr ⟨row, h.assets.find?_eq_some hrow,
      h.readAsset row (List.mem_of_find?_eq_some hrow)⟩
  node? path n hn := h.nodes.find?_eq_some hn
  template? id u hu := by
    obtain ⟨v, hv, rfl⟩ := Option.map_eq_some_iff.mp hu
    exact Option.map_eq_some_iff.mpr ⟨v, h.templates.find?_eq_some hv, rfl⟩
  account? id a ha := by
    obtain ⟨b, hb, rfl⟩ := Option.map_eq_some_iff.mp ha
    exact Option.map_eq_some_iff.mpr ⟨b, h.accounts.find?_eq_some hb, rfl⟩

theorem Relational.standing {s : Relational} (hs : s.tables.Valid) {c : Call} (hc : c.Inserts) :
    Standing s (c.run s).2 := by
  have guarded {f : Tables.Statement}
      (hf : ∀ t, f s.tables = .ok t → s.tables.Extends s.clock t) :
      Standing s (Relational.guarded f s).2 := by
    cases ht : f s.tables with
    | ok t => rw [guarded_of_ok ht]; exact (hf t ht).standing
    | error e => rw [guarded_of_error ht]; exact .refl s
  have same := Tables.Extends.refl s.clock s.tables
  cases c with
  | insertPlatform p =>
    change Standing s (performAll _ s).2
    rw [performAll_eq]
    refine guarded fun t ht => ?_
    obtain ⟨rfl, hread, -⟩ := Tables.insertPlatform_reads hs s.clock ht
    exact { same with platforms := List.prefix_append _ _, readPlatform := hread }
  | insertAsset a =>
    change Standing s (performAll _ s).2
    rw [performAll_eq]
    refine guarded fun t ht => ?_
    have hread := Tables.insertAsset_keeps hs s.clock ht
    obtain ⟨hid, hplatform, hnames, hnodes⟩ := Tables.fits_of_together hs ht
    obtain ⟨_, _, _, t', ht', heq, -⟩ :=
      Tables.together_assetStatements hs hid hplatform hnames hnodes
    obtain rfl := Except.ok.inj (ht'.symm.trans ht)
    subst heq
    exact { same with assets := List.prefix_append _ _, readAsset := hread }
  | insertNode n =>
    refine guarded fun t ht => ?_
    obtain ⟨-, -, rfl⟩ := Tables.insertNode_eq_ok_iff.mp ht
    exact { same with nodes := List.prefix_append _ _ }
  | insertTemplate u =>
    refine guarded fun t ht => ?_
    obtain ⟨-, rfl⟩ := Tables.insertTemplate_eq_ok_iff.mp ht
    exact { same with templates := List.prefix_append _ _ }
  | insertAccount a =>
    refine guarded fun t ht => ?_
    obtain ⟨-, -, -, -, rfl⟩ := Tables.insertAccount_eq_ok_iff.mp ht
    exact { same with accounts := List.prefix_append _ _ }
  | deleteAsset _ | deleteTemplate _ | updateAccount _ | enqueue _ _ => exact hc.elim

/-- Of stores that hold the same, the tables refuse as duplicates what memory refuses and what it
overlooks. No insert takes a record's place, but for one that memory overlooks. -/
theorem duplicates_refused {m : Memory} {s : Relational} (h : Same m s) (hm : m.records.Filed)
    (hs : s.tables.Valid) (c : Call) (hrefs : c.Refers s.tables) :
    (c.Duplicate s ↔ (c.inPlace s.tables).Duplicate m ∨ c.Overlooked s.tables) ∧
    (c.Inserts → Standing s (c.run s).2 ∧ (¬ c.Overlooked s.tables → Standing m (c.run m).2)) := by
  refine ⟨h.duplicate_iff hs hrefs, fun hc => ⟨Relational.standing hs hc, fun hnot => ?_⟩⟩
  refine Memory.standing_of_free hc (fun n hn => ?_) fun u hu => ?_
  · subst hn
    have hfree : s.tables.nodes.any (·.id == n.id) = false := Bool.not_eq_true _ ▸ hnot
    rw [Mirror.contains_eq_any id hm.nodes (by simpa using h.nodes) fun _ => rfl]
    exact hfree
  · subst hu
    rw [h.contains_template]
    exact any_eq_false_iff.mpr fun v hv heq => hnot ⟨v, hv, heq.symm⟩

def rootRecords : Memory := ⟨{ Records.empty with nodes := [("n1", rootNode)] }, []⟩

def rootTables : Relational := ⟨{ Tables.empty with nodes := [rootNode] }, [], ⟨0, 0⟩⟩

theorem same_root : Same rootRecords rootTables := by
  have hplatforms : Store.platforms rootRecords = Store.platforms rootTables := by
    simp [Store.platforms, rootRecords, rootTables, Records.empty, Tables.empty, Keyed.values]
  have hassets : Store.assets rootRecords = Store.assets rootTables := by
    simp [Store.assets, rootRecords, rootTables, Records.empty, Tables.empty, Keyed.values]
  have htemplates (types : List SecretType) :
      Store.templates rootRecords types = Store.templates rootTables types := by
    simp [Store.templates, Records.templatesOf, rootRecords, rootTables, Records.empty,
      Tables.empty, Keyed.values]
  have haccounts (asset : Option String) :
      Store.accounts rootRecords asset = Store.accounts rootTables asset := by
    simp [Store.accounts, Records.accountsOf, rootRecords, rootTables, Records.empty, Tables.empty,
      Keyed.values]
  exact {
    platforms := hplatforms
    assets := hassets ▸ .refl _
    assetNames := by rw [hassets]
    nodes := .refl _
    templates := fun types => htemplates types ▸ .refl _
    templateNames := fun types => by rw [htemplates]
    accounts := haccounts
    platform? := fun _ => rfl
    asset? := fun _ => rfl
    node? := fun _ => rfl
    template? := fun _ => rfl
    account? := fun _ => rfl
    accountByName? := fun _ _ => rfl
    accountBySlot? := fun _ _ _ => rfl }

theorem filed_root : rootRecords.records.Filed :=
  { Records.Filed.empty with nodes := Keyed.Filed.nil.place rootNode }

theorem valid_root : rootTables.tables.Valid :=
  Tables.Valid.empty.statement (Tables.sound_insertNode rootNode) rfl

theorem duplicates_refused_root :
    let twin : Node := ⟨"n2", "/Default", none⟩
    (Same rootRecords rootTables ∧ rootRecords.records.Filed ∧ rootTables.tables.Valid) ∧
    ((Call.insertNode twin).Refers rootTables.tables ∧
      (Call.insertNode twin).Duplicate rootRecords ∧
      (Call.insertNode twin).Duplicate rootTables) ∧
    (Call.insertNode childNode).Refers rootTables.tables ∧
    ¬ (Call.insertNode childNode).Overlooked rootTables.tables ∧
    Standing rootTables ((Call.insertNode childNode).run rootTables).2 ∧
    Standing rootRecords ((Call.insertNode childNode).run rootRecords).2 := by
  intro twin
  have htwin : (Call.insertNode twin).Refers rootTables.tables := nofun
  have hchild : (Call.insertNode childNode).Refers rootTables.tables := by
    intro p hp
    cases hp
    exact .inr rfl
  have hnot : ¬ (Call.insertNode childNode).Overlooked rootTables.tables := Bool.false_ne_true
  have hrefused : (Call.insertNode twin).Duplicate rootRecords := ⟨"nodes.full_value", rfl⟩
  have hboth := (duplicates_refused same_root filed_root valid_root _ htwin).1
  have hstanding := (duplicates_refused same_root filed_root valid_root _ hchild).2 trivial
  exact ⟨⟨same_root, filed_root, valid_root⟩, ⟨htwin, hrefused, hboth.mpr (.inl hrefused)⟩,
    hchild, hnot, hstanding.1, hstanding.2 hnot⟩

/-- The id of the root on another node: the tables refuse it, in memory the root is gone. -/
theorem root_replaced :
    let other : Node := ⟨"n1", "/Default/web", none⟩
    Same rootRecords rootTables ∧ (Call.insertNode other).Refers rootTables.tables ∧
    (Call.insertNode other).Duplicate rootTables ∧
    ¬ (Call.insertNode other).Duplicate rootRecords ∧
    Store.node? rootRecords "/Default" = some rootNode ∧
    Store.node? ((Call.insertNode other).run rootRecords).2 "/Default" = none := by
  intro other
  have hok : ((Call.insertNode other).run rootRecords).1 = .ok () := rfl
  refine ⟨same_root, nofun, ⟨"UNIQUE constraint failed: nodes.id", rfl⟩, ?_, rfl, rfl⟩
  rintro ⟨columns, h⟩
  cases hok.symm.trans h

end Custody.Store
