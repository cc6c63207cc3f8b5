import Mathlib.Data.List.Find
import Custody.Proofs.Secrets.Recode
import Custody.Store.Memory
import Custody.Store.Relational

/-!
Stores with their secrets recoded. No call looks at a secret, so each does to a recoded store what
it does to the store itself.
-/
namespace Custody.Store

variable {f : String → String}

/-- What a store with recoded secrets does and answers, given records with recoded secrets. -/
structure Recoding (f : String → String) {σ : Type} [Store σ] (recode : σ → σ) : Prop where
  enter : ∀ s : σ, Store.enter (recode s) = recode (Store.enter s)
  commit : ∀ s : σ, Store.commit (recode s) = recode (Store.commit s)
  revert : ∀ entry s : σ, Store.revert (recode entry) (recode s) = recode (Store.revert entry s)
  insertPlatform : ∀ p (s : σ),
    Store.insertPlatform p (recode s) = (Store.insertPlatform p s).map id recode
  platform? : ∀ (s : σ) id, Store.platform? (recode s) id = Store.platform? s id
  insertAsset : ∀ a (s : σ), Store.insertAsset a (recode s) = (Store.insertAsset a s).map id recode
  asset? : ∀ (s : σ) id, Store.asset? (recode s) id = Store.asset? s id
  deleteAsset : ∀ key (s : σ),
    Store.deleteAsset key (recode s) = (Store.deleteAsset key s).map id recode
  node? : ∀ (s : σ) path, Store.node? (recode s) path = Store.node? s path
  insertNode : ∀ n (s : σ), Store.insertNode n (recode s) = (Store.insertNode n s).map id recode
  insertTemplate : ∀ t (s : σ),
    Store.insertTemplate (t.recode f) (recode s) = (Store.insertTemplate t s).map id recode
  template? : ∀ (s : σ) id,
    Store.template? (recode s) id = (Store.template? s id).map (Template.recode f)
  templates : ∀ (s : σ) types,
    Store.templates (recode s) types = (Store.templates s types).map (Template.recode f)
  deleteTemplate : ∀ key (s : σ),
    Store.deleteTemplate key (recode s) = (Store.deleteTemplate key s).map id recode
  insertAccount : ∀ a (s : σ),
    Store.insertAccount (a.recode f) (recode s) = (Store.insertAccount a s).map id recode
  updateAccount : ∀ a (s : σ),
    Store.updateAccount (a.recode f) (recode s) = (Store.updateAccount a s).map id recode
  account? : ∀ (s : σ) id,
    Store.account? (recode s) id = (Store.account? s id).map (Account.recode f)
  accounts : ∀ (s : σ) asset,
    Store.accounts (recode s) asset = (Store.accounts s asset).map (Account.recode f)
  accountByName? : ∀ (s : σ) asset name,
    Store.accountByName? (recode s) asset name =
      (Store.accountByName? s asset name).map (Account.recode f)
  accountBySlot? : ∀ (s : σ) asset username type,
    Store.accountBySlot? (recode s) asset username type =
      (Store.accountBySlot? s asset username type).map (Account.recode f)
  enqueue : ∀ p now (s : σ), Store.enqueue p now (recode s) = recode (Store.enqueue p now s)

namespace Records

def recode (f : String → String) (r : Records) : Records :=
  { r with
    templates := r.templates.mapWith fun _ => Template.recode f
    accounts := r.accounts.mapWith fun _ => Account.recode f }

@[simp] theorem templates_recode (r : Records) :
    (r.recode f).templates.values = r.templates.values.map (Template.recode f) :=
  Keyed.values_mapWith _ r.templates

@[simp] theorem accounts_recode (r : Records) :
    (r.recode f).accounts.values = r.accounts.values.map (Account.recode f) :=
  Keyed.values_mapWith _ r.accounts

theorem contains_recode (r : Records) (id : String) :
    (r.recode f).accounts.contains id = r.accounts.contains id :=
  Keyed.contains_mapWith (fun _ => Account.recode f) id r.accounts

theorem insertPlatform_recode (p : Platform) (r : Records) :
    insertPlatform p (r.recode f) = (insertPlatform p r).map (recode f) := by
  unfold insertPlatform
  rw [apply_ite (Except.map (recode f))]
  rfl

theorem insertAsset_recode (a : Asset) (r : Records) :
    insertAsset a (r.recode f) = (insertAsset a r).map (recode f) := by
  unfold insertAsset
  rw [apply_ite (Except.map (recode f)), apply_ite (Except.map (recode f))]
  rfl

theorem deleteAsset_recode (key : String) (r : Records) :
    deleteAsset key (r.recode f) = (deleteAsset key r).map id (recode f) := by
  have haccounts : (r.recode f).accounts.filter (fun p => p.2.assetId ≠ key) =
      Keyed.mapWith (fun _ => Account.recode f) (r.accounts.filter fun p => p.2.assetId ≠ key) :=
    List.filter_map
  unfold deleteAsset
  rw [haccounts, apply_ite (Prod.map _ (recode f))]
  rfl

theorem insertNode_recode (n : Node) (r : Records) :
    insertNode n (r.recode f) = (insertNode n r).map (recode f) := by
  unfold insertNode
  rw [apply_ite (Except.map (recode f))]
  rfl

theorem insertTemplate_recode (t : Template) (r : Records) :
    insertTemplate (t.recode f) (r.recode f) = (insertTemplate t r).map (recode f) := by
  have hplace := Keyed.place_mapWith (fun _ => Template.recode f) t.id r.templates t
  unfold insertTemplate
  rw [apply_ite (Except.map (recode f))]
  simp only [templates_recode, List.any_map]
  congr 1
  exact congrArg (fun ts => Except.ok { r.recode f with templates := ts }) hplace

theorem templatesOf_recode (r : Records) (types : List SecretType) :
    (r.recode f).templatesOf types = (r.templatesOf types).map (Template.recode f) := by
  unfold templatesOf
  rw [templates_recode, List.filter_map]
  refine (List.map_mergeSort ?_).symm
  exact fun _ _ _ _ => rfl

theorem checkAccount_recode (a : Account) (r : Records) :
    checkAccount (a.recode f) (r.recode f) = checkAccount a r := by
  have hclash : clashesWith (a.recode f) ∘ Account.recode f = clashesWith a := rfl
  unfold checkAccount
  rw [accounts_recode, List.find?_map, hclash]
  cases r.accounts.values.find? (clashesWith a) <;> rfl

theorem place_recode (a : Account) (r : Records) :
    { r.recode f with accounts := (r.recode f).accounts.place a.id (a.recode f) } =
      recode f { r with accounts := r.accounts.place a.id a } :=
  congrArg (fun as => { r.recode f with accounts := as })
    (Keyed.place_mapWith (fun _ => Account.recode f) a.id r.accounts a)

theorem insertAccount_recode (a : Account) (r : Records) :
    insertAccount (a.recode f) (r.recode f) = (insertAccount a r).map (recode f) := by
  have hid : (a.recode f).id = a.id := rfl
  have hasset : (r.recode f).assets.contains (a.recode f).assetId = r.assets.contains a.assetId :=
    rfl
  unfold insertAccount
  rw [checkAccount_recode, hid, contains_recode, hasset, place_recode]
  cases r.accounts.contains a.id <;> cases r.assets.contains a.assetId <;>
    cases checkAccount a r <;> rfl

theorem updateAccount_recode (a : Account) (r : Records) :
    updateAccount (a.recode f) (r.recode f) = (updateAccount a r).map (recode f) := by
  have hid : (a.recode f).id = a.id := rfl
  unfold updateAccount
  rw [checkAccount_recode, hid, contains_recode, place_recode]
  cases r.accounts.contains a.id <;> cases checkAccount a r <;> rfl

theorem accountsOf_recode (r : Records) (asset : Option String) :
    (r.recode f).accountsOf asset = (r.accountsOf asset).map (Account.recode f) := by
  unfold accountsOf
  rw [accounts_recode, List.filter_map]
  refine (List.map_mergeSort ?_).symm
  exact fun _ _ _ _ => rfl

end Records

theorem guarded_recode {σ : Type} {view : σ → σ} {g h : σ → Except Error σ}
    (hg : ∀ s, h (view s) = (g s).map view) (s : σ) :
    Store.guarded h (view s) = (Store.guarded g s).map id view := by
  unfold Store.guarded
  rw [hg]
  cases g s <;> rfl

namespace Memory

def recode (f : String → String) (m : Memory) : Memory := { m with records := m.records.recode f }

theorem guarded_recode {g h : Records → Except Error Records}
    (hg : ∀ r, h (r.recode f) = (g r).map (Records.recode f)) (m : Memory) :
    guarded h (m.recode f) = (guarded g m).map id (recode f) := by
  refine Store.guarded_recode (fun m => ?_) m
  change (h (m.records.recode f)).map _ = _
  rw [hg]
  cases g m.records <;> rfl

theorem recoding : Recoding f (recode f) where
  enter _ := rfl
  commit _ := rfl
  revert _ _ := rfl
  insertPlatform p := guarded_recode (Records.insertPlatform_recode p)
  platform? _ _ := rfl
  insertAsset a := guarded_recode (Records.insertAsset_recode a)
  asset? _ _ := rfl
  deleteAsset key m := congrArg
    (fun r : Bool × Records => ((Except.ok r.1 : Except Error Bool), { m with records := r.2 }))
    (Records.deleteAsset_recode key m.records)
  node? _ _ := rfl
  insertNode n := guarded_recode (Records.insertNode_recode n)
  insertTemplate t := guarded_recode (Records.insertTemplate_recode t)
  template? m id := Keyed.get?_mapWith (fun _ => Template.recode f) id m.records.templates
  templates m := m.records.templatesOf_recode
  deleteTemplate key m := by
    have hfound := Keyed.contains_mapWith (fun _ => Template.recode f) key m.records.templates
    have herase := Keyed.erase_mapWith (fun _ => Template.recode f) key m.records.templates
    refine Prod.ext (congrArg Except.ok hfound) ?_
    exact congrArg (fun ts => { recode f m with
      records := { (recode f m).records with templates := ts } }) herase
  insertAccount a := guarded_recode (Records.insertAccount_recode a)
  updateAccount a := guarded_recode (Records.updateAccount_recode a)
  account? m id := Keyed.get?_mapWith (fun _ => Account.recode f) id m.records.accounts
  accounts m := m.records.accountsOf_recode
  accountByName? m asset name := by
    change (m.records.recode f).accounts.values.find? _ = _
    rw [Records.accounts_recode, List.find?_map]
    rfl
  accountBySlot? m asset username type := by
    change (m.records.recode f).accounts.values.find? _ = _
    rw [Records.accounts_recode, List.find?_map]
    rfl
  enqueue _ _ _ := rfl

end Memory

theorem checkUnique_map {ρ : Type} {g : ρ → ρ} {indexes : List (Index ρ)}
    (h : ∀ i ∈ indexes, ∀ a b, i.agree (g a) (g b) = i.agree a b) (rows : List ρ) (row : ρ) :
    checkUnique indexes (rows.map g) (g row) = checkUnique indexes rows row := by
  unfold checkUnique
  rw [List.find?_congr fun i hi => ?_]
  rw [List.any_map]
  exact congrArg rows.any (funext (h i hi row))

namespace Tables

def recode (f : String → String) (t : Tables) : Tables :=
  { t with templates := t.templates.map (·.recode f), accounts := t.accounts.map (·.recode f) }

theorem hasAccount_recode (t : Tables) (id : String) :
    (t.recode f).hasAccount id = t.hasAccount id := by
  unfold hasAccount
  dsimp only [recode]
  rw [List.any_map]
  rfl

def Statement.Blind (f : String → String) (statement : Statement) : Prop :=
  ∀ t, statement (t.recode f) = (statement t).map (recode f)

theorem checked_recode {check check' : Except Error Unit} {rest rest' : Except Error Tables}
    (hcheck : check' = check) (h : rest' = rest.map (recode f)) :
    (check' >>= fun _ => rest') = (check >>= fun _ => rest).map (recode f) := by
  subst hcheck
  cases check' with
  | ok _ => exact h
  | error e => rfl

theorem blind_together {statements : List Statement} (h : ∀ g ∈ statements, g.Blind f) :
    Statement.Blind f (together statements) := by
  induction statements with
  | nil => exact fun t => rfl
  | cons g rest ih =>
    obtain ⟨hg, hrest⟩ := List.forall_mem_cons.mp h
    intro t
    unfold together
    rw [hg]
    cases g t with
    | error e => rfl
    | ok t' => exact ih hrest t'

theorem blind_platformStatements (p : Platform) : ∀ g ∈ platformStatements p, g.Blind f := by
  intro g hg
  rcases List.mem_cons.mp hg with rfl | hg
  · exact fun t => checked_recode rfl rfl
  · obtain ⟨q, _, rfl⟩ := List.mem_map.mp hg
    exact fun t => checked_recode rfl (checked_recode rfl rfl)

theorem blind_assetStatements (a : Asset) : ∀ g ∈ assetStatements a, g.Blind f := by
  intro g hg
  simp only [assetStatements, List.cons_append, List.mem_cons, List.mem_append, List.mem_map,
    List.mem_flatMap] at hg
  rcases hg with rfl | (⟨q, _, rfl⟩ | ⟨l, _, rfl | rfl | hg⟩) | ⟨n, _, rfl⟩
  · exact fun t => checked_recode rfl (checked_recode rfl rfl)
  · exact fun t => checked_recode rfl (checked_recode rfl rfl)
  · intro t
    have hrow : (t.recode f).labelRow? l = t.labelRow? l := rfl
    unfold ensureLabel
    rw [hrow]
    split <;> rfl
  · intro t
    have hrow : (t.recode f).labelRow? l = t.labelRow? l := rfl
    unfold linkLabel
    rw [hrow]
    split
    · rfl
    · dsimp only
      rw [apply_ite (Except.map (recode f))]
      exact congrArg _ (checked_recode rfl rfl)
  · cases hg
  · intro t
    unfold linkNode
    dsimp only
    rw [apply_ite (Except.map (recode f))]
    exact congrArg _ (checked_recode rfl rfl)

theorem blind_insertNode (n : Node) : Statement.Blind f (insertNode n) :=
  fun _ => checked_recode rfl (checked_recode rfl rfl)

theorem insertTemplate_recode (u : Template) (t : Tables) :
    insertTemplate (u.recode f) (t.recode f) = (insertTemplate u t).map (recode f) := by
  have hagree : ∀ i ∈ templateIndexes, ∀ a b : Template,
      i.agree (a.recode f) (b.recode f) = i.agree a b := by
    simp [templateIndexes, Template.recode]
  refine checked_recode (checkUnique_map hagree t.templates u) (congrArg Except.ok ?_)
  simp [recode]

theorem agree_recode : ∀ i ∈ accountIndexes ++ [accountIdIndex], ∀ a b : Account,
    i.agree (a.recode f) (b.recode f) = i.agree a b := by
  simp [accountIndexes, accountIdIndex, Account.recode]

theorem insertAccount_recode (a : Account) (t : Tables) :
    insertAccount (a.recode f) (t.recode f) = (insertAccount a t).map (recode f) := by
  unfold insertAccount
  simp only [hasAccount_recode]
  refine checked_recode (checkUnique_map agree_recode t.accounts a) ?_
  refine checked_recode rfl (congrArg Except.ok ?_)
  simp [recode]

theorem updateAccount_recode (a : Account) (t : Tables) :
    updateAccount (a.recode f) (t.recode f) = (updateAccount a t).map (recode f) := by
  have hfind : (t.recode f).accounts.find? (·.id == (a.recode f).id) =
      (t.accounts.find? (·.id == a.id)).map (Account.recode f) := List.find?_map
  have hothers : (t.recode f).accounts.filter (·.id != (a.recode f).id) =
      (t.accounts.filter (·.id != a.id)).map (Account.recode f) := List.filter_map
  unfold updateAccount
  rw [hfind, hothers, funext (hasAccount_recode t)]
  cases t.accounts.find? (·.id == a.id) with
  | none => rfl
  | some row =>
    have hagree := fun i hi => agree_recode (f := f) i (List.mem_append_left _ hi)
    let row' : Account := { a with assetId := row.assetId, dateCreated := row.dateCreated }
    refine checked_recode (checkUnique_map hagree _ row') ?_
    have hrows : ((t.accounts.map (·.recode f)).map fun b =>
          if b.id == a.id then row'.recode f else b) =
        (t.accounts.map fun b => if b.id == a.id then row' else b).map (·.recode f) := by
      rw [List.map_map, List.map_map]
      exact List.map_congr_left fun b _ => (apply_ite (Account.recode f) _ row' b).symm
    exact checked_recode rfl (congrArg
      (fun rows => (.ok { t.recode f with accounts := rows } : Except Error Tables)) hrows)

theorem deleteAsset_recode (key : String) (t : Tables) :
    deleteAsset key (t.recode f) = (deleteAsset key t).map id (recode f) := by
  unfold deleteAsset
  rw [apply_ite (Prod.map id (recode f))]
  simp only [Prod.map, recode, List.filter_map, List.map_map]
  rfl

end Tables

namespace Relational

/-- What an open block would take back is recoded as well. -/
def recode (f : String → String) (s : Relational) : Relational :=
  { s with
    tables := s.tables.recode f
    savepoints := s.savepoints.map fun (name, t) => (name, t.recode f) }

theorem guarded_recode {g h : Tables.Statement}
    (hg : ∀ t, h (t.recode f) = (g t).map (Tables.recode f)) (s : Relational) :
    guarded h (s.recode f) = (guarded g s).map id (recode f) := by
  refine Store.guarded_recode (fun s => ?_) s
  change (h (s.tables.recode f)).map _ = _
  rw [hg]
  cases g s.tables <;> rfl

theorem performAll_recode {statements : List Tables.Statement}
    (h : ∀ g ∈ statements, g.Blind f) (s : Relational) :
    performAll statements (s.recode f) = (performAll statements s).map id (recode f) := by
  rw [performAll_eq, performAll_eq]
  exact guarded_recode (Tables.blind_together h) s

theorem fromName_map (name : String) (stack : List (String × Tables)) :
    fromName name (stack.map fun (n, t) => (n, t.recode f)) =
      (fromName name stack).map fun (n, t) => (n, t.recode f) := by
  induction stack with
  | nil => rfl
  | cons p rest ih =>
    obtain ⟨n, t⟩ := p
    rw [List.map_cons]
    unfold fromName
    rw [ih]
    split <;> rfl

theorem release_recode (name : String) (s : Relational) :
    (s.recode f).release name = (s.release name).recode f := by
  unfold release recode
  dsimp only
  rw [fromName_map, List.map_tail]

theorem rollbackTo_recode (name : String) (s : Relational) :
    (s.recode f).rollbackTo name = (s.rollbackTo name).recode f := by
  unfold rollbackTo
  have hstack : fromName name (s.recode f).savepoints = _ := fromName_map name s.savepoints
  rw [hstack]
  cases fromName name s.savepoints <;> rfl

section Rows

variable {ρ : Type} {read : ρ → ρ} {p : ρ → Bool} {le : ρ → ρ → Bool} (recode : ρ → ρ)

theorem found_map (hp : p ∘ recode = p) (hread : read ∘ recode = recode ∘ read) (rows : List ρ) :
    ((rows.map recode).find? p).map read = ((rows.find? p).map read).map recode := by
  rw [List.find?_map, hp, Option.map_map, Option.map_map, hread]

theorem listed_map (hp : p ∘ recode = p) (hread : read ∘ recode = recode ∘ read)
    (hle : ∀ a b, le a b = le (recode a) (recode b)) (rows : List ρ) :
    (((rows.map recode).filter p).mergeSort le).map read =
      (((rows.filter p).mergeSort le).map read).map recode := by
  have hsort : ((rows.filter p).map recode).mergeSort le =
      ((rows.filter p).mergeSort le).map recode :=
    (List.map_mergeSort fun a _ b _ => hle a b).symm
  rw [List.filter_map, hp, hsort, List.map_map, List.map_map, hread]

end Rows

theorem recoding : Recoding f (recode f) where
  enter _ := rfl
  commit s := release_recode blockName s
  revert _ s := by
    change ((s.recode f).rollbackTo blockName).release blockName = _
    rw [rollbackTo_recode, release_recode]
    rfl
  insertPlatform p := performAll_recode (Tables.blind_platformStatements p)
  platform? _ _ := rfl
  insertAsset a := performAll_recode (Tables.blind_assetStatements a)
  asset? _ _ := rfl
  deleteAsset key s := congrArg
    (fun r : Bool × Tables =>
      ((Except.ok r.1 : Except Error Bool), { s.recode f with tables := r.2 }))
    (Tables.deleteAsset_recode key s.tables)
  node? _ _ := rfl
  insertNode n := guarded_recode (Tables.blind_insertNode n)
  insertTemplate t := guarded_recode (Tables.insertTemplate_recode t)
  template? s id := found_map _ (by rfl) (by rfl) s.tables.templates
  templates s types := listed_map _ (by rfl) (by rfl) (by intros; rfl) s.tables.templates
  deleteTemplate key s := by
    have hany : (s.tables.templates.map (·.recode f)).any (·.id == key) =
        s.tables.templates.any (·.id == key) := List.any_map
    have hfilter : (s.tables.templates.map (·.recode f)).filter (·.id != key) =
        (s.tables.templates.filter (·.id != key)).map (·.recode f) := List.filter_map
    refine Prod.ext (congrArg Except.ok hany) ?_
    exact congrArg (fun ts : List Template => { s.recode f with
      tables := { (s.recode f).tables with templates := ts } }) hfilter
  insertAccount a := guarded_recode (Tables.insertAccount_recode a)
  updateAccount a := guarded_recode (Tables.updateAccount_recode a)
  account? s id := found_map _ (by rfl) (by rfl) s.tables.accounts
  accounts s asset := listed_map _ (by rfl) (by rfl) (by intros; rfl) s.tables.accounts
  accountByName? s asset name := found_map _ (by rfl) (by rfl) s.tables.accounts
  accountBySlot? s asset username type := found_map _ (by rfl) (by rfl) s.tables.accounts
  enqueue _ _ _ := rfl

end Relational

end Custody.Store
