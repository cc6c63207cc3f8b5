import Custody.Proofs.Rows
import Custody.Proofs.Store.Reachable
import Custody.Store.Relational

/-!
The statements on tables, each opened once: when it succeeds and which rows it then adds or takes
away. A call runs some of them, so what every statement keeps holds of every reachable database.
-/
namespace Custody.Store

theorem checkUnique_eq_ok_iff {ρ : Type} {indexes : List (Index ρ)} {rows : List ρ} {row : ρ} :
    checkUnique indexes rows row = .ok () ↔
      ∀ i ∈ indexes, ∀ r ∈ rows, i.agree row r = false := by
  unfold checkUnique
  cases h : indexes.find? fun i => rows.any (i.agree row) with
  | none => simpa using h
  | some i =>
    refine iff_of_false nofun fun hall => ?_
    have hany : rows.any (i.agree row) = true := by simpa using List.find?_some h
    obtain ⟨r, hr, hagree⟩ := List.any_eq_true.mp hany
    rw [hall i (List.mem_of_find?_eq_some h) r hr] at hagree
    cases hagree

theorem checkUnique_eq_error {ρ : Type} {indexes : List (Index ρ)} {rows : List ρ} {row : ρ}
    {e : Error} (h : checkUnique indexes rows row = .error e) : ∃ c, e = .duplicate c := by
  unfold checkUnique at h
  split at h <;> cases h
  exact ⟨_, rfl⟩

theorem checked_eq_ok_iff {ρ : Type} {indexes : List (Index ρ)} {rows : List ρ} {row : ρ}
    {holds : Bool} {t t' : Tables} :
    (do
      checkUnique indexes rows row
      checkReference holds
      return t : Except Error Tables) = .ok t' ↔
      checkUnique indexes rows row = .ok () ∧ holds = true ∧ t' = t := by
  cases checkUnique indexes rows row <;> cases holds <;>
    simp [checkReference_eq, bind, Except.bind, pure, Except.pure, eq_comm]

theorem unique_eq_error {ρ : Type} {indexes : List (Index ρ)} {rows : List ρ} {row : ρ}
    {t : Tables} {e : Error}
    (h : (do
      checkUnique indexes rows row
      return t : Except Error Tables) = .error e) : ∃ c, e = .duplicate c := by
  cases hu : checkUnique indexes rows row with
  | ok _ => rw [hu] at h; cases h
  | error e' =>
    rw [hu] at h
    cases h
    exact checkUnique_eq_error hu

theorem checked_eq_error {ρ : Type} {indexes : List (Index ρ)} {rows : List ρ} {row : ρ}
    {holds : Bool} {t : Tables} {e : Error} (hholds : holds = true)
    (h : (do
      checkUnique indexes rows row
      checkReference holds
      return t : Except Error Tables) = .error e) : ∃ c, e = .duplicate c := by
  subst hholds
  exact unique_eq_error h

namespace Tables

variable {t t' : Tables}

theorem hasPlatform_iff {id : String} : t.hasPlatform id = true ↔ ∃ p ∈ t.platforms, p.id = id := by
  simp [hasPlatform]

theorem hasAsset_iff {id : String} : t.hasAsset id = true ↔ ∃ a ∈ t.assets, a.id = id := by
  simp [hasAsset]

theorem hasNode_iff {id : String} : t.hasNode id = true ↔ ∃ n ∈ t.nodes, n.id = id := by
  simp [hasNode]

theorem hasAccount_iff {id : String} : t.hasAccount id = true ↔ ∃ a ∈ t.accounts, a.id = id := by
  simp [hasAccount]

theorem deleteAsset_of_missed {id : String} (h : (t.deleteAsset id).1 = false) :
    (t.deleteAsset id).2 = t := by
  unfold deleteAsset at h ⊢
  split
  · next hfound => rw [if_pos hfound] at h; cases h
  · rfl

inductive Step (t : Tables) : Tables → Prop
  | insertPlatformRow (row : PlatformRow) :
    (∀ r ∈ t.platforms, row.name ≠ r.name ∧ row.id ≠ r.id) →
    Step t { t with platforms := t.platforms ++ [row] }
  | insertPlatformProtocol (row : PlatformProtocolRow) :
    (∀ r ∈ t.platformProtocols,
      (row.platformId, row.protocol.name) ≠ (r.platformId, r.protocol.name)) →
    t.hasPlatform row.platformId = true →
    Step t { t with platformProtocols := t.platformProtocols ++ [row] }
  | insertAssetRow (row : AssetRow) : (∀ r ∈ t.assets, row.id ≠ r.id) →
    t.hasPlatform row.platformId = true → Step t { t with assets := t.assets ++ [row] }
  | insertAssetProtocol (row : AssetProtocolRow) :
    (∀ r ∈ t.assetProtocols, (row.assetId, row.name) ≠ (r.assetId, r.name)) →
    t.hasAsset row.assetId = true →
    Step t { t with assetProtocols := t.assetProtocols ++ [row] }
  | insertLabel (l : Label) : (∀ r ∈ t.labels, r.label ≠ l) →
    Step t { t with labels := t.labels ++ [⟨nextId (t.labels.map (·.id)), l⟩] }
  | linkLabel (link : AssetLabelRow) : link ∉ t.assetLabels → t.hasAsset link.assetId = true →
    (∃ r ∈ t.labels, r.id = link.labelId) →
    Step t { t with assetLabels := t.assetLabels ++ [link] }
  | linkNode (link : AssetNodeRow) : link ∉ t.assetNodes → t.hasAsset link.assetId = true →
    t.hasNode link.nodeId = true → Step t { t with assetNodes := t.assetNodes ++ [link] }
  | deleteAsset (id : String) : Step t (t.deleteAsset id).2
  | insertNode (n : Node) : (∀ m ∈ t.nodes, n.fullValue ≠ m.fullValue ∧ n.id ≠ m.id) →
    (∀ p, n.parentId = some p → p = n.id ∨ t.hasNode p = true) →
    Step t { t with nodes := t.nodes ++ [n] }
  | insertTemplate (u : Template) :
    (∀ v ∈ t.templates, (u.orgId, u.name) ≠ (v.orgId, v.name) ∧ u.id ≠ v.id) →
    Step t { t with templates := t.templates ++ [u] }
  | deleteTemplate (id : String) : Step t { t with templates := t.templates.filter (·.id != id) }
  | insertAccount (a : Account) : (∀ b ∈ t.accounts, a.id ≠ b.id) →
    (∀ b ∈ t.accounts, (a.assetId, a.name) ≠ (b.assetId, b.name)) →
    (∀ b ∈ t.accounts,
      (a.assetId, a.username, a.secretType) ≠ (b.assetId, b.username, b.secretType)) →
    t.hasAsset a.assetId = true →
    (∀ s, a.suFrom = some s → s = a.id ∨ t.hasAccount s = true) →
    Step t { t with accounts := t.accounts ++ [a] }
  | updateAccount (old new : Account) : old ∈ t.accounts → new.id = old.id →
    new.assetId = old.assetId → new.dateCreated = old.dateCreated →
    (∀ b ∈ t.accounts, b.id ≠ new.id → (new.assetId, new.name) ≠ (b.assetId, b.name)) →
    (∀ b ∈ t.accounts, b.id ≠ new.id →
      (new.assetId, new.username, new.secretType) ≠ (b.assetId, b.username, b.secretType)) →
    (∀ s, new.suFrom = some s → t.hasAccount s = true) →
    Step t { t with accounts := t.accounts.map fun b => if b.id == new.id then new else b }
  | insertPushTask (row : PushRow) : row.id = nextId (t.pushTasks.map (·.id)) →
    Step t { t with pushTasks := t.pushTasks ++ [row] }

theorem insertPlatformRow_eq_ok_iff {row : PlatformRow} : t.insertPlatformRow row = .ok t' ↔
    (∀ r ∈ t.platforms, row.name ≠ r.name ∧ row.id ≠ r.id) ∧
      t' = { t with platforms := t.platforms ++ [row] } := by
  have hkey : checkUnique platformIndexes t.platforms row = .ok () ↔
      ∀ r ∈ t.platforms, row.name ≠ r.name ∧ row.id ≠ r.id := by
    rw [checkUnique_eq_ok_iff]
    simp [platformIndexes, forall_and]
  rw [← hkey, insertPlatformRow]
  cases checkUnique platformIndexes t.platforms row <;>
    simp [bind, Except.bind, pure, Except.pure, eq_comm]

theorem insertPlatformProtocol_eq_ok_iff {row : PlatformProtocolRow} :
    t.insertPlatformProtocol row = .ok t' ↔
      (∀ r ∈ t.platformProtocols,
        (row.platformId, row.protocol.name) ≠ (r.platformId, r.protocol.name)) ∧
      t.hasPlatform row.platformId = true ∧
      t' = { t with platformProtocols := t.platformProtocols ++ [row] } := by
  have hkey : checkUnique platformProtocolIndexes t.platformProtocols row = .ok () ↔
      ∀ r ∈ t.platformProtocols,
        (row.platformId, row.protocol.name) ≠ (r.platformId, r.protocol.name) := by
    rw [checkUnique_eq_ok_iff]
    simp [platformProtocolIndexes]
  rw [← hkey, insertPlatformProtocol, checked_eq_ok_iff]

theorem insertAssetRow_eq_ok_iff {row : AssetRow} : t.insertAssetRow row = .ok t' ↔
    (∀ r ∈ t.assets, row.id ≠ r.id) ∧ t.hasPlatform row.platformId = true ∧
      t' = { t with assets := t.assets ++ [row] } := by
  have hkey : checkUnique assetIndexes t.assets row = .ok () ↔ ∀ r ∈ t.assets, row.id ≠ r.id := by
    rw [checkUnique_eq_ok_iff]
    simp [assetIndexes]
  rw [← hkey, insertAssetRow, checked_eq_ok_iff]

theorem insertAssetProtocol_eq_ok_iff {row : AssetProtocolRow} :
    t.insertAssetProtocol row = .ok t' ↔
      (∀ r ∈ t.assetProtocols, (row.assetId, row.name) ≠ (r.assetId, r.name)) ∧
      t.hasAsset row.assetId = true ∧
      t' = { t with assetProtocols := t.assetProtocols ++ [row] } := by
  have hkey : checkUnique assetProtocolIndexes t.assetProtocols row = .ok () ↔
      ∀ r ∈ t.assetProtocols, (row.assetId, row.name) ≠ (r.assetId, r.name) := by
    rw [checkUnique_eq_ok_iff]
    simp [assetProtocolIndexes]
  rw [← hkey, insertAssetProtocol, checked_eq_ok_iff]

theorem insertNode_eq_ok_iff {n : Node} : t.insertNode n = .ok t' ↔
    (∀ m ∈ t.nodes, n.fullValue ≠ m.fullValue ∧ n.id ≠ m.id) ∧
      (∀ p, n.parentId = some p → p = n.id ∨ t.hasNode p = true) ∧
      t' = { t with nodes := t.nodes ++ [n] } := by
  have hkey : checkUnique nodeIndexes t.nodes n = .ok () ↔
      ∀ m ∈ t.nodes, n.fullValue ≠ m.fullValue ∧ n.id ≠ m.id := by
    rw [checkUnique_eq_ok_iff]
    simp [nodeIndexes, forall_and]
  have hparent : (n.parentId.all fun p => p == n.id || t.hasNode p) = true ↔
      ∀ p, n.parentId = some p → p = n.id ∨ t.hasNode p = true := by
    cases n.parentId <;> simp
  rw [← hkey, ← hparent, insertNode, checked_eq_ok_iff]

theorem insertTemplate_eq_ok_iff {u : Template} : t.insertTemplate u = .ok t' ↔
    (∀ v ∈ t.templates, (u.orgId, u.name) ≠ (v.orgId, v.name) ∧ u.id ≠ v.id) ∧
      t' = { t with templates := t.templates ++ [u] } := by
  have hkey : checkUnique templateIndexes t.templates u = .ok () ↔
      ∀ v ∈ t.templates, (u.orgId, u.name) ≠ (v.orgId, v.name) ∧ u.id ≠ v.id := by
    rw [checkUnique_eq_ok_iff]
    simp [templateIndexes, forall_and]
  rw [← hkey, insertTemplate]
  cases checkUnique templateIndexes t.templates u <;>
    simp [bind, Except.bind, pure, Except.pure, eq_comm]

theorem checkUnique_accountIndexes_eq_ok_iff {rows : List Account} {a : Account} :
    checkUnique accountIndexes rows a = .ok () ↔
      (∀ b ∈ rows, (a.assetId, a.name) ≠ (b.assetId, b.name)) ∧
      ∀ b ∈ rows,
        (a.assetId, a.username, a.secretType) ≠ (b.assetId, b.username, b.secretType) := by
  rw [checkUnique_eq_ok_iff]
  simp [accountIndexes, and_comm]

theorem insertAccount_eq_ok_iff {a : Account} : t.insertAccount a = .ok t' ↔
    (∀ b ∈ t.accounts, a.id ≠ b.id) ∧ checkUnique accountIndexes t.accounts a = .ok () ∧
      t.hasAsset a.assetId = true ∧
      (∀ s, a.suFrom = some s → s = a.id ∨ t.hasAccount s = true) ∧
      t' = { t with accounts := t.accounts ++ [a] } := by
  have hkey : checkUnique (accountIndexes ++ [accountIdIndex]) t.accounts a = .ok () ↔
      (∀ b ∈ t.accounts, a.id ≠ b.id) ∧ checkUnique accountIndexes t.accounts a = .ok () := by
    rw [checkUnique_eq_ok_iff, checkUnique_eq_ok_iff, List.forall_mem_append, and_comm]
    simp [accountIdIndex]
  have hsu : (a.suFrom.all fun s => s == a.id || t.hasAccount s) = true ↔
      ∀ s, a.suFrom = some s → s = a.id ∨ t.hasAccount s = true := by
    cases a.suFrom <;> simp
  rw [insertAccount, checked_eq_ok_iff, hkey, Bool.and_eq_true, hsu]
  simp only [and_assoc]

theorem updateAccount_eq_ok_iff {a : Account} : t.updateAccount a = .ok t' ↔
    ∃ row, t.accounts.find? (·.id == a.id) = some row ∧
      checkUnique accountIndexes (t.accounts.filter (·.id != a.id))
        { a with assetId := row.assetId, dateCreated := row.dateCreated } = .ok () ∧
      (∀ s, a.suFrom = some s → t.hasAccount s = true) ∧
      t' = { t with accounts := t.accounts.map fun b => if b.id == a.id then
        { a with assetId := row.assetId, dateCreated := row.dateCreated } else b } := by
  have hsu : (a.suFrom.all t.hasAccount) = true ↔
      ∀ s, a.suFrom = some s → t.hasAccount s = true := by
    cases a.suFrom <;> simp
  unfold updateAccount
  cases t.accounts.find? (·.id == a.id) with
  | none => simp
  | some row =>
    rw [checked_eq_ok_iff, hsu]
    simp

theorem labelRow?_eq_none_iff {l : Label} : t.labelRow? l = none ↔ ∀ r ∈ t.labels, r.label ≠ l := by
  simp [labelRow?]

theorem mem_of_labelRow? {l : Label} {row : LabelRow} (h : t.labelRow? l = some row) :
    row ∈ t.labels ∧ row.label = l :=
  ⟨List.mem_of_find?_eq_some h, by simpa using List.find?_some h⟩

theorem linkLabel_eq_ok_iff {assetId : String} {l : Label} {row : LabelRow}
    (hrow : t.labelRow? l = some row) : t.linkLabel assetId l = .ok t' ↔
      (⟨assetId, row.id⟩ ∈ t.assetLabels ∧ t' = t) ∨
      (⟨assetId, row.id⟩ ∉ t.assetLabels ∧ t.hasAsset assetId = true ∧
        t' = { t with assetLabels := t.assetLabels ++ [⟨assetId, row.id⟩] }) := by
  unfold linkLabel
  rw [hrow]
  by_cases hlink : (⟨assetId, row.id⟩ : AssetLabelRow) ∈ t.assetLabels <;>
    cases t.hasAsset assetId <;>
      simp [hlink, checkReference_eq, bind, Except.bind, pure, Except.pure, eq_comm]

theorem linkNode_eq_ok_iff {assetId nodeId : String} : t.linkNode assetId nodeId = .ok t' ↔
    (⟨assetId, nodeId⟩ ∈ t.assetNodes ∧ t' = t) ∨
    (⟨assetId, nodeId⟩ ∉ t.assetNodes ∧ t.hasAsset assetId = true ∧ t.hasNode nodeId = true ∧
      t' = { t with assetNodes := t.assetNodes ++ [⟨assetId, nodeId⟩] }) := by
  unfold linkNode
  by_cases hlink : (⟨assetId, nodeId⟩ : AssetNodeRow) ∈ t.assetNodes <;>
    cases t.hasAsset assetId <;> cases t.hasNode nodeId <;>
      simp [hlink, checkReference_eq, bind, Except.bind, pure, Except.pure, eq_comm]

def Statement.Sound (f : Statement) : Prop := ∀ t t', f t = .ok t' → t' = t ∨ Step t t'

theorem sound_insertPlatformRow (row : PlatformRow) : Statement.Sound (insertPlatformRow row) := by
  intro t t' h
  obtain ⟨hkey, rfl⟩ := insertPlatformRow_eq_ok_iff.mp h
  exact .inr (.insertPlatformRow row hkey)

theorem sound_insertPlatformProtocol (row : PlatformProtocolRow) :
    Statement.Sound (insertPlatformProtocol row) := by
  intro t t' h
  obtain ⟨hkey, hplatform, rfl⟩ := insertPlatformProtocol_eq_ok_iff.mp h
  exact .inr (.insertPlatformProtocol row hkey hplatform)

theorem sound_insertAssetRow (row : AssetRow) : Statement.Sound (insertAssetRow row) := by
  intro t t' h
  obtain ⟨hkey, hplatform, rfl⟩ := insertAssetRow_eq_ok_iff.mp h
  exact .inr (.insertAssetRow row hkey hplatform)

theorem sound_insertAssetProtocol (row : AssetProtocolRow) :
    Statement.Sound (insertAssetProtocol row) := by
  intro t t' h
  obtain ⟨hkey, hasset, rfl⟩ := insertAssetProtocol_eq_ok_iff.mp h
  exact .inr (.insertAssetProtocol row hkey hasset)

theorem sound_ensureLabel (l : Label) : Statement.Sound (ensureLabel l) := by
  intro t t' h
  unfold ensureLabel at h
  split at h
  · exact .inl (Except.ok.inj h).symm
  · next hnone =>
    cases h
    exact .inr (.insertLabel l (labelRow?_eq_none_iff.mp hnone))

theorem sound_linkLabel (assetId : String) (l : Label) :
    Statement.Sound (linkLabel assetId l) := by
  intro t t' h
  cases hrow : t.labelRow? l with
  | none =>
    rw [linkLabel, hrow] at h
    exact .inl (Except.ok.inj h).symm
  | some row =>
    rcases (linkLabel_eq_ok_iff hrow).mp h with ⟨_, rfl⟩ | ⟨hlink, hasset, rfl⟩
    · exact .inl rfl
    · exact .inr (.linkLabel _ hlink hasset ⟨row, (mem_of_labelRow? hrow).1, rfl⟩)

theorem sound_linkNode (assetId nodeId : String) : Statement.Sound (linkNode assetId nodeId) := by
  intro t t' h
  rcases linkNode_eq_ok_iff.mp h with ⟨_, rfl⟩ | ⟨hlink, hasset, hnode, rfl⟩
  · exact .inl rfl
  · exact .inr (.linkNode _ hlink hasset hnode)

theorem sound_insertNode (n : Node) : Statement.Sound (insertNode n) := by
  intro t t' h
  obtain ⟨hkey, hparent, rfl⟩ := insertNode_eq_ok_iff.mp h
  exact .inr (.insertNode n hkey hparent)

theorem sound_insertTemplate (u : Template) : Statement.Sound (insertTemplate u) := by
  intro t t' h
  obtain ⟨hkey, rfl⟩ := insertTemplate_eq_ok_iff.mp h
  exact .inr (.insertTemplate u hkey)

theorem sound_insertAccount (a : Account) : Statement.Sound (insertAccount a) := by
  intro t t' h
  obtain ⟨hid, hkey, hasset, hsu, rfl⟩ := insertAccount_eq_ok_iff.mp h
  obtain ⟨hname, hslot⟩ := checkUnique_accountIndexes_eq_ok_iff.mp hkey
  exact .inr (.insertAccount a hid hname hslot hasset hsu)

theorem sound_updateAccount (a : Account) : Statement.Sound (updateAccount a) := by
  intro t t' h
  obtain ⟨row, hrow, hkey, hsu, rfl⟩ := updateAccount_eq_ok_iff.mp h
  obtain ⟨hname, hslot⟩ := checkUnique_accountIndexes_eq_ok_iff.mp hkey
  have hid : row.id = a.id := by simpa using List.find?_some hrow
  have others {b : Account} (hb : b ∈ t.accounts) (hne : b.id ≠ a.id) :
      b ∈ t.accounts.filter (·.id != a.id) :=
    List.mem_filter.mpr ⟨hb, bne_iff_ne.mpr hne⟩
  exact .inr (.updateAccount row { a with assetId := row.assetId, dateCreated := row.dateCreated }
    (List.mem_of_find?_eq_some hrow) hid.symm rfl rfl
    (fun b hb hne => hname b (others hb hne)) (fun b hb hne => hslot b (others hb hne)) hsu)

theorem sound_platformStatements (p : Platform) : ∀ f ∈ platformStatements p, f.Sound := by
  intro f hf
  rcases List.mem_cons.mp hf with rfl | hf
  · exact sound_insertPlatformRow _
  · obtain ⟨q, _, rfl⟩ := List.mem_map.mp hf
    exact sound_insertPlatformProtocol _

theorem sound_assetStatements (a : Asset) : ∀ f ∈ assetStatements a, f.Sound := by
  intro f hf
  simp only [assetStatements, List.cons_append, List.mem_cons, List.mem_append, List.mem_map,
    List.mem_flatMap] at hf
  rcases hf with rfl | (⟨q, _, rfl⟩ | ⟨l, _, rfl | rfl | hf⟩) | ⟨n, _, rfl⟩
  · exact sound_insertAssetRow _
  · exact sound_insertAssetProtocol _
  · exact sound_ensureLabel l
  · exact sound_linkLabel a.id l
  · cases hf
  · exact sound_linkNode a.id n

def Statement.Keeps {α : Type} (part : Tables → α) (f : Statement) : Prop :=
  ∀ t t', f t = .ok t' → part t' = part t

theorem keeps_together {α : Type} {part : Tables → α} {statements : List Statement}
    (h : ∀ f ∈ statements, f.Keeps part) : Statement.Keeps part (together statements) := by
  induction statements with
  | nil => exact fun t t' ht => congrArg part (Except.ok.inj ht).symm
  | cons f rest ih =>
    intro t t' ht
    unfold together at ht
    split at ht
    · next u hu =>
      exact (ih (fun g hg => h g (.tail f hg)) u t' ht).trans (h f (.head rest) t u hu)
    · cases ht

def accountsAndPushes (t : Tables) : List Account × List PushRow := (t.accounts, t.pushTasks)

def uncatalogued (t : Tables) : List Node × List Template × List Account × List PushRow :=
  (t.nodes, t.templates, t.accounts, t.pushTasks)

theorem uncatalogued_platformStatements (p : Platform) :
    Statement.Keeps uncatalogued (together (platformStatements p)) := by
  refine keeps_together fun f hf t t' h => ?_
  rcases List.mem_cons.mp hf with rfl | hf
  · obtain ⟨_, rfl⟩ := insertPlatformRow_eq_ok_iff.mp h
    rfl
  · obtain ⟨q, _, rfl⟩ := List.mem_map.mp hf
    obtain ⟨_, _, rfl⟩ := insertPlatformProtocol_eq_ok_iff.mp h
    rfl

theorem uncatalogued_assetStatements (a : Asset) :
    Statement.Keeps uncatalogued (together (assetStatements a)) := by
  refine keeps_together fun f hf t t' h => ?_
  simp only [assetStatements, List.cons_append, List.mem_cons, List.mem_append, List.mem_map,
    List.mem_flatMap] at hf
  rcases hf with rfl | (⟨q, _, rfl⟩ | ⟨l, _, rfl | rfl | hf⟩) | ⟨n, _, rfl⟩
  · obtain ⟨_, _, rfl⟩ := insertAssetRow_eq_ok_iff.mp h
    rfl
  · obtain ⟨_, _, rfl⟩ := insertAssetProtocol_eq_ok_iff.mp h
    rfl
  · unfold ensureLabel at h
    split at h <;> cases h <;> rfl
  · cases hrow : t.labelRow? l with
    | none =>
      rw [linkLabel, hrow] at h
      exact congrArg uncatalogued (Except.ok.inj h).symm
    | some row =>
      rcases (linkLabel_eq_ok_iff hrow).mp h with ⟨_, rfl⟩ | ⟨_, _, rfl⟩ <;> rfl
  · cases hf
  · rcases linkNode_eq_ok_iff.mp h with ⟨_, rfl⟩ | ⟨_, _, _, rfl⟩ <;> rfl

theorem keeps_platformStatements (p : Platform) :
    Statement.Keeps accountsAndPushes (together (platformStatements p)) := fun t t' h =>
  congrArg (·.2.2) (uncatalogued_platformStatements p t t' h)

theorem keeps_assetStatements (a : Asset) :
    Statement.Keeps accountsAndPushes (together (assetStatements a)) := fun t t' h =>
  congrArg (·.2.2) (uncatalogued_assetStatements a t t' h)

theorem keeps_insertNode (n : Node) : Statement.Keeps accountsAndPushes (insertNode n) := by
  intro t t' h
  obtain ⟨_, _, rfl⟩ := insertNode_eq_ok_iff.mp h
  rfl

theorem keeps_insertTemplate (u : Template) :
    Statement.Keeps accountsAndPushes (insertTemplate u) := by
  intro t t' h
  obtain ⟨_, rfl⟩ := insertTemplate_eq_ok_iff.mp h
  rfl

theorem keeps_insertAccount {α : Type} {part : Tables → α}
    (hpart : ∀ (t : Tables) rows, part { t with accounts := rows } = part t) (a : Account) :
    Statement.Keeps part (insertAccount a) := by
  intro t t' h
  obtain ⟨_, _, _, _, rfl⟩ := insertAccount_eq_ok_iff.mp h
  exact hpart t _

theorem keeps_updateAccount {α : Type} {part : Tables → α}
    (hpart : ∀ (t : Tables) rows, part { t with accounts := rows } = part t) (a : Account) :
    Statement.Keeps part (updateAccount a) := by
  intro t t' h
  obtain ⟨_, _, _, _, rfl⟩ := updateAccount_eq_ok_iff.mp h
  exact hpart t _

theorem together_invariant {I : Tables → Prop} (hstep : ∀ t t', I t → Step t t' → I t')
    {statements : List Statement} (hsound : ∀ f ∈ statements, f.Sound) (h : I t)
    (ht : together statements t = .ok t') : I t' := by
  induction statements generalizing t with
  | nil => exact Except.ok.inj ht ▸ h
  | cons f rest ih =>
    unfold together at ht
    split at ht
    · next u hu =>
      refine ih (fun g hg => hsound g (.tail f hg)) ?_ ht
      rcases hsound f (.head rest) t u hu with rfl | hs
      · exact h
      · exact hstep _ _ h hs
    · cases ht

end Tables

namespace Relational

theorem guarded_of_ok {f : Tables.Statement} {s : Relational} {t' : Tables}
    (h : f s.tables = .ok t') : guarded f s = (.ok (), { s with tables := t' }) := by
  simp [guarded, Store.guarded, h, Except.map]

theorem guarded_of_error {f : Tables.Statement} {s : Relational} {e : Error}
    (h : f s.tables = .error e) : guarded f s = (.error e, s) := by
  simp [guarded, Store.guarded, h, Except.map]

theorem eq_ok_of_guarded {f : Tables.Statement} {s s' : Relational}
    (h : guarded f s = (.ok (), s')) : ∃ t, f s.tables = .ok t ∧ s' = { s with tables := t } := by
  cases hf : f s.tables with
  | ok t => rw [guarded_of_ok hf] at h; exact ⟨t, rfl, (Prod.mk.inj h).2.symm⟩
  | error e => rw [guarded_of_error hf] at h; cases h

theorem guarded_invariant {I : Tables → Prop} {f : Tables.Statement} {s : Relational}
    (h : I s.tables) (hf : ∀ t', f s.tables = .ok t' → I t') : I (guarded f s).2.tables := by
  cases ht : f s.tables with
  | ok t' => rw [guarded_of_ok ht]; exact hf t' ht
  | error e => rw [guarded_of_error ht]; exact h

theorem call_invariant {I : Tables → Prop} (hstep : ∀ t t', I t → Tables.Step t t' → I t')
    (c : Call) (s : Relational) (h : I s.tables) : I (c.run s).2.tables := by
  have sound {f : Tables.Statement} (hf : f.Sound) : I (guarded f s).2.tables := by
    refine guarded_invariant h fun t' ht => ?_
    rcases hf _ _ ht with rfl | hs
    · exact h
    · exact hstep _ _ h hs
  have all {fs : List Tables.Statement} (hfs : ∀ f ∈ fs, f.Sound) :
      I (performAll fs s).2.tables := by
    rw [performAll_eq]
    exact guarded_invariant h fun t' ht => Tables.together_invariant hstep hfs h ht
  cases c with
  | insertPlatform p => exact all (Tables.sound_platformStatements p)
  | insertAsset a => exact all (Tables.sound_assetStatements a)
  | deleteAsset id => exact hstep _ _ h (.deleteAsset id)
  | insertNode n => exact sound (Tables.sound_insertNode n)
  | insertTemplate u => exact sound (Tables.sound_insertTemplate u)
  | deleteTemplate id => exact hstep _ _ h (.deleteTemplate id)
  | insertAccount a => exact sound (Tables.sound_insertAccount a)
  | updateAccount a => exact sound (Tables.sound_updateAccount a)
  | enqueue p now => exact hstep _ _ h (.insertPushTask _ rfl)

theorem guarded_keeps {α : Type} {part : Tables → α} {f : Tables.Statement} (h : f.Keeps part)
    (s : Relational) : part (guarded f s).2.tables = part s.tables := by
  cases hf : f s.tables with
  | ok t => rw [guarded_of_ok hf]; exact h _ _ hf
  | error e => rw [guarded_of_error hf]

theorem performAll_keeps {α : Type} {part : Tables → α} {statements : List Tables.Statement}
    (h : Tables.Statement.Keeps part (Tables.together statements)) (s : Relational) :
    part (performAll statements s).2.tables = part s.tables := by
  rw [performAll_eq]
  exact guarded_keeps h s

theorem guarded_frame (f : Tables.Statement) (s : Relational) :
    ∃ t, (guarded f s).2 = { s with tables := t } := by
  cases h : f s.tables with
  | ok t => exact ⟨t, by rw [guarded_of_ok h]⟩
  | error e => exact ⟨s.tables, by rw [guarded_of_error h]⟩

theorem call_frame (c : Call) (s : Relational) : ∃ t, (c.run s).2 = { s with tables := t } := by
  cases c with
  | insertPlatform p =>
    obtain ⟨t, h⟩ := guarded_frame (Tables.together (Tables.platformStatements p)) s
    exact ⟨t, by rw [← h, ← performAll_eq]; rfl⟩
  | insertAsset a =>
    obtain ⟨t, h⟩ := guarded_frame (Tables.together (Tables.assetStatements a)) s
    exact ⟨t, by rw [← h, ← performAll_eq]; rfl⟩
  | deleteAsset id => exact ⟨_, rfl⟩
  | insertNode n => exact guarded_frame _ s
  | insertTemplate u => exact guarded_frame _ s
  | deleteTemplate id => exact ⟨_, rfl⟩
  | insertAccount a => exact guarded_frame _ s
  | updateAccount a => exact guarded_frame _ s
  | enqueue p now => exact ⟨_, rfl⟩

theorem mem_of_mem_fromName {name : String} {p : String × Tables}
    {stack : List (String × Tables)} (h : p ∈ fromName name stack) : p ∈ stack := by
  induction stack with
  | nil => cases h
  | cons q rest ih =>
    obtain ⟨n, t⟩ := q
    unfold fromName at h
    split at h
    · exact h
    · exact .tail _ (ih h)

theorem mem_savepoints_release {s : Relational} {p : String × Tables}
    (h : p ∈ (release blockName s).savepoints) : p ∈ s.savepoints :=
  mem_of_mem_fromName (List.mem_of_mem_tail h)

theorem rollbackTo_cases (name : String) (s : Relational) :
    (rollbackTo name s = s) ∨ ∃ p ∈ s.savepoints, (rollbackTo name s).tables = p.2 ∧
      ∀ q ∈ (rollbackTo name s).savepoints, q ∈ s.savepoints := by
  unfold rollbackTo
  split
  · exact .inl rfl
  · next n t rest h =>
    have hsub : ∀ q ∈ (n, t) :: rest, q ∈ s.savepoints := fun q hq =>
      mem_of_mem_fromName (h ▸ hq)
    exact .inr ⟨(n, t), hsub _ (.head rest), rfl, hsub⟩

/-- What every step on the tables keeps holds of the tables of every reachable store, and of those
at its savepoints. -/
theorem reachable_invariant {I : Tables → Prop} (hempty : I .empty)
    (hstep : ∀ t t', I t → Tables.Step t t' → I t') {clock : Time.Instant}
    {entries : List Relational} {s : Relational}
    (h : Reachable (Relational.empty clock) entries s) : I s.tables := by
  suffices I s.tables ∧ ∀ p ∈ s.savepoints, I p.2 from this.1
  refine h.invariant (fun s => I s.tables ∧ ∀ p ∈ s.savepoints, I p.2)
    ⟨hempty, nofun⟩ ?_ ?_ ?_ ?_
  · intro c s hs
    refine ⟨call_invariant hstep c s hs.1, ?_⟩
    obtain ⟨t, ht⟩ := call_frame c s
    rw [ht]
    exact hs.2
  · intro s hs
    exact ⟨hs.1, List.forall_mem_cons.mpr hs⟩
  · intro s hs
    exact ⟨hs.1, fun p hp => hs.2 p (mem_savepoints_release hp)⟩
  · intro _ s _ hs
    change I (rollbackTo blockName s).tables ∧
      ∀ p ∈ (release blockName (rollbackTo blockName s)).savepoints, I p.2
    rcases rollbackTo_cases blockName s with heq | ⟨p, hp, ht, hsub⟩
    · rw [heq]
      exact ⟨hs.1, fun p hp => hs.2 p (mem_savepoints_release hp)⟩
    · exact ⟨ht ▸ hs.2 p hp, fun q hq => hs.2 q (hsub q (mem_savepoints_release hq))⟩

end Relational

end Custody.Store
