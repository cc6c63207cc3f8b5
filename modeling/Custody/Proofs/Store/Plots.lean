import Custody.Proofs.Store.Ledger
import Custody.Proofs.Store.Listing

/-!
The accounts of one asset as a plot of the store. What account calls for one asset look up and write
stays on its plot, so it is not changed by what calls for other assets have put on theirs, and
accounts put on different plots may be put in any order.
-/
namespace Custody.Store

/-- An asset and the ids that may be spent on it. -/
structure Plot where
  asset : String
  ids : List String

namespace Plot

structure Apart (p q : Plot) : Prop where
  asset : p.asset ≠ q.asset
  ids : ∀ id ∈ p.ids, id ∉ q.ids

theorem Apart.symm {p q : Plot} (h : p.Apart q) : q.Apart p :=
  ⟨h.asset.symm, fun id hq hp => h.ids id hp hq⟩

variable {σ : Type} [Store σ] {p q : Plot} {suFrom : Option String} {s s' s'' : σ} {a b : Account}

structure Takes (p : Plot) (s : σ) (a : Account) : Prop where
  asset : a.assetId = p.asset
  id : (a.id ∈ p.ids ∧ account? s a.id = none) ∨
    ∃ old, account? s a.id = some old ∧ old.assetId = p.asset

theorem Takes.id_ne (ha : p.Takes s a) (hb : q.Takes s b) (h : p.Apart q) : a.id ≠ b.id := by
  intro heq
  have hids := hb.id
  rw [← heq] at hids
  rcases ha.id with ⟨hid, hnone⟩ | ⟨old, hold, hasset⟩
  · rcases hids with ⟨hid', -⟩ | ⟨old', hold', -⟩
    · exact h.ids _ hid hid'
    · exact nomatch hnone.symm.trans hold'
  · rcases hids with ⟨-, hnone⟩ | ⟨old', hold', hasset'⟩
    · exact nomatch hnone.symm.trans hold
    · obtain rfl := Option.some.inj (hold.symm.trans hold')
      exact h.asset (hasset.symm.trans hasset')

/-- For the creation or update of accounts that may switch from this one, the second store looks
from the plot as the first. -/
structure Alike (p : Plot) (suFrom : Option String) (s s' : σ) : Prop where
  slot : ∀ username type,
    accountBySlot? s' p.asset username type = accountBySlot? s p.asset username type
  insert : ∀ a : Account, a.assetId = p.asset → a.id ∈ p.ids → a.suFrom = suFrom →
    (insertAccount a s').1 = (insertAccount a s).1
  update : ∀ (username : String) (type : SecretType) (old new : Account),
    accountBySlot? s p.asset username type = some old → new.id = old.id →
    new.assetId = p.asset → new.suFrom = old.suFrom ∨ new.suFrom = suFrom →
    (updateAccount new s').1 = (updateAccount new s).1

theorem Alike.refl (p : Plot) (suFrom : Option String) (s : σ) : p.Alike suFrom s s :=
  ⟨fun _ _ => rfl, fun _ _ _ _ => rfl, fun _ _ _ _ _ _ _ _ => rfl⟩

theorem Alike.trans (h : p.Alike suFrom s s') (h' : p.Alike suFrom s' s'') :
    p.Alike suFrom s s'' where
  slot username type := (h'.slot username type).trans (h.slot username type)
  insert a hasset hid hsu := (h'.insert a hasset hid hsu).trans (h.insert a hasset hid hsu)
  update username type old new hold hid hasset hsu :=
    (h'.update username type old new ((h.slot _ _).trans hold) hid hasset hsu).trans
      (h.update username type old new hold hid hasset hsu)

end Plot

/-- A store whose account calls put one account, and a putting is seen from its own plot only. -/
structure Plotted {σ : Type} [Store σ] (good : σ → Prop) (dated : Time.Instant → Time.Instant)
    (put : Account → σ → σ) : Prop where
  seamless : Seamless σ
  bookkeeping : Bookkeeping good dated
  insert : ∀ {s s' : σ} {a : Account}, insertAccount a s = (.ok (), s') → s' = put a s
  update : ∀ {s s' : σ} {a : Account}, good s → updateAccount a s = (.ok (), s') → s' = put a s
  elsewhere : ∀ {s : σ} {p q : Plot} {suFrom : Option String} {a : Account}, good s →
    p.Takes s a → p.Apart q → (∀ id ∈ p.ids, suFrom ≠ some id) → q.Alike suFrom s (put a s)

namespace Plotted

variable {σ : Type} [Store σ] {good : σ → Prop} {dated : Time.Instant → Time.Instant}
  {put : Account → σ → σ} {s : σ} {a : Account} {e : Error}

theorem insert_of_ok (h : Plotted good dated put) (hins : (insertAccount a s).1 = .ok ()) :
    insertAccount a s = (.ok (), put a s) := by
  have hrun : insertAccount a s = (.ok (), (insertAccount a s).2) := Prod.ext hins rfl
  exact Prod.ext hins (h.insert hrun)

theorem insert_of_error (h : Plotted good dated put) (hins : (insertAccount a s).1 = .error e) :
    insertAccount a s = (.error e, s) := by
  have hrun : insertAccount a s = (.error e, (insertAccount a s).2) := Prod.ext hins rfl
  exact Prod.ext hins (h.bookkeeping.insert_error hrun)

theorem update_of_ok (h : Plotted good dated put) (hs : good s)
    (hupd : (updateAccount a s).1 = .ok ()) : updateAccount a s = (.ok (), put a s) := by
  have hrun : updateAccount a s = (.ok (), (updateAccount a s).2) := Prod.ext hupd rfl
  exact Prod.ext hupd (h.update hs hrun)

theorem update_of_error (h : Plotted good dated put) (hupd : (updateAccount a s).1 = .error e) :
    updateAccount a s = (.error e, s) := by
  have hrun : updateAccount a s = (.error e, (updateAccount a s).2) := Prod.ext hupd rfl
  exact Prod.ext hupd (h.bookkeeping.update_error hrun)

end Plotted

/-- Puttings of accounts under different ids, of which the order cannot be told afterwards. -/
structure Exchange {σ : Type} (same : σ → σ → Prop) (put : Account → σ → σ) : Prop where
  refl : ∀ s, same s s
  trans : ∀ {s s' s'' : σ}, same s s' → same s' s'' → same s s''
  congr : ∀ (a : Account) {s s' : σ}, same s s' → same (put a s) (put a s')
  swap : ∀ {a b : Account} (s : σ), a.id ≠ b.id → same (put a (put b s)) (put b (put a s))

def putAll {σ : Type} (put : Account → σ → σ) (accounts : List Account) (s : σ) : σ :=
  accounts.foldl (fun s a => put a s) s

theorem Exchange.putAll {σ : Type} {same : σ → σ → Prop} {put : Account → σ → σ}
    (h : Exchange same put) {s s' : σ} (hs : same s s') (accounts : List Account) :
    same (putAll put accounts s) (putAll put accounts s') := by
  induction accounts generalizing s s' with
  | nil => exact hs
  | cons a rest ih => exact ih (h.congr a hs)

theorem Exchange.putAll_perm {σ : Type} {same : σ → σ → Prop} {put : Account → σ → σ}
    (h : Exchange same put) {accounts accounts' : List Account} (hperm : accounts.Perm accounts')
    (hids : ∀ a ∈ accounts, ∀ b ∈ accounts, a.id = b.id → a = b) (s : σ) :
    same (Store.putAll put accounts s) (Store.putAll put accounts' s) := by
  induction hperm generalizing s with
  | nil => exact h.refl s
  | cons a _ ih => exact ih (fun b hb c hc => hids b (.tail a hb) c (.tail a hc)) (put a s)
  | swap a b rest =>
    refine h.putAll ?_ rest
    by_cases hid : a.id = b.id
    · rw [hids a (.tail b (.head rest)) b (.head _) hid]
      exact h.refl _
    · exact h.swap s hid
  | trans hperm _ ih ih' =>
    refine h.trans (ih hids s) (ih' ?_ s)
    simpa only [hperm.mem_iff] using hids

namespace Records

variable {r : Records}

theorem insertAccount_told (a : Account) (r : Records) :
    (r.insertAccount a).map (fun _ => ()) =
      if r.accounts.contains a.id then .error (.duplicate "accounts.id")
      else if !r.assets.contains a.assetId then .error (.notFound (.asset a.assetId))
      else checkAccount a r := by
  unfold insertAccount
  cases r.accounts.contains a.id <;> cases r.assets.contains a.assetId <;>
    cases checkAccount a r <;> rfl

theorem updateAccount_told (a : Account) (r : Records) :
    (r.updateAccount a).map (fun _ => ()) =
      if !r.accounts.contains a.id then .error (.notFound (.account a.id))
      else checkAccount a r := by
  unfold updateAccount
  cases r.accounts.contains a.id <;> cases checkAccount a r <;> rfl

end Records

namespace Memory

def put (a : Account) (m : Memory) : Memory :=
  { m with records := { m.records with accounts := m.records.accounts.place a.id a } }

theorem put_comm {a b : Account} (h : a.id ≠ b.id) (m : Memory) :
    put a (put b m) = put b (put a m) := by
  unfold put
  simp only [Keyed.place_comm m.records.accounts h.symm b a]

theorem exchange : Exchange Eq put where
  refl _ := rfl
  trans := Eq.trans
  congr a _ _ h := congrArg (put a) h
  swap m h := put_comm h m

theorem guarded_told (f : Records → Except Error Records) (m : Memory) :
    (guarded f m).1 = (f m.records).map fun _ => () := by
  cases h : f m.records with
  | ok r => rw [guarded_of_ok h]; rfl
  | error e => rw [guarded_of_error h]; rfl

section Elsewhere

variable {p q : Plot} {m : Memory} {a : Account} (ha : p.Takes m a) (hpq : p.Apart q)

include ha hpq

theorem find?_put {f : Account → Bool} (hf : ∀ b : Account, b.assetId ≠ q.asset → f b = false) :
    (put a m).records.accounts.values.find? f = m.records.accounts.values.find? f := by
  refine Keyed.find?_place (hf a (ha.asset ▸ hpq.asset)) fun old hold => hf old ?_
  rcases ha.id with ⟨-, hnone⟩ | ⟨old', hold', hasset⟩
  · exact nomatch hnone.symm.trans hold
  · obtain rfl := Option.some.inj (hold'.symm.trans hold)
    exact hasset ▸ hpq.asset

theorem checkAccount_put {b : Account} (hb : b.assetId = q.asset) :
    Records.checkAccount b (put a m).records = Records.checkAccount b m.records := by
  unfold Records.checkAccount
  rw [find?_put ha hpq fun c hc => ?_]
  have hne : (c.assetId == b.assetId) = false := beq_eq_false_iff_ne.mpr (hb ▸ hc)
  rw [Records.clashesWith, hne, Bool.and_false, Bool.false_and]

theorem contains_put {id : String} (hid : id ∈ q.ids ∨
    ∃ old, account? m id = some old ∧ old.assetId = q.asset) :
    (put a m).records.accounts.contains id = m.records.accounts.contains id := by
  change ((m.records.accounts.place a.id a).get? id).isSome = (m.records.accounts.get? id).isSome
  rw [Keyed.get?_place]
  split
  · next heq =>
    subst heq
    rcases ha.id with ⟨hnew, hnone⟩ | ⟨old, hold, hasset⟩
    · rcases hid with hid | ⟨old', hold', -⟩
      · exact absurd hid (hpq.ids _ hnew)
      · exact nomatch hnone.symm.trans hold'
    · rw [show m.records.accounts.get? a.id = some old from hold]
      rfl
  · rfl

theorem alike_put {suFrom : Option String} (hm : m.records.Filed) :
    q.Alike suFrom m (put a m) where
  slot username type := find?_put ha hpq fun b hb => by simp [Account.hasSlot, hb]
  insert b hb hid _ := by
    have htold := Records.insertAccount_told b
    change (guarded _ (put a m)).1 = (guarded _ m).1
    rw [guarded_told, guarded_told, htold, htold, contains_put ha hpq (.inl hid),
      checkAccount_put ha hpq hb]
    rfl
  update username type old new hold hid hasset _ := by
    have htold := Records.updateAccount_told new
    obtain ⟨hslot, hstored⟩ := bookkeeping.slot hm hold
    have hfound := contains_put ha hpq (.inr ⟨old, hstored, (Account.hasSlot_iff.mp hslot).1⟩)
    change (guarded _ (put a m)).1 = (guarded _ m).1
    rw [guarded_told, guarded_told, htold, htold, hid, hfound, checkAccount_put ha hpq hasset]

end Elsewhere

theorem plotted : Plotted (fun m : Memory => m.records.Filed) id put where
  seamless := seamless
  bookkeeping := bookkeeping
  insert {m m' a} h := by
    obtain ⟨r, hr, rfl⟩ := eq_ok_of_guarded h
    obtain ⟨_, _, _, rfl⟩ := Records.insertAccount_eq_ok_iff.mp hr
    rfl
  update {m m' a} _ h := by
    obtain ⟨r, hr, rfl⟩ := eq_ok_of_guarded h
    obtain ⟨_, _, rfl⟩ := Records.updateAccount_eq_ok_iff.mp hr
    rfl
  elsewhere hm ha hpq _ := alike_put ha hpq hm

end Memory

namespace Tables

def overwrite (a row : Account) : Account :=
  if row.id == a.id then { a with assetId := row.assetId, dateCreated := row.dateCreated } else row

def putRow (a : Account) (rows : List Account) : List Account :=
  if rows.any (·.id == a.id) then rows.map (overwrite a) else rows ++ [a]

variable {a b : Account} {rows rows' : List Account}

@[simp] theorem overwrite_id (a row : Account) : (overwrite a row).id = row.id := by
  unfold overwrite
  split
  · next h => exact (eq_of_beq h).symm
  · rfl

@[simp] theorem overwrite_assetId (a row : Account) : (overwrite a row).assetId = row.assetId := by
  unfold overwrite
  split <;> rfl

theorem overwrite_of_ne {row : Account} (h : row.id ≠ a.id) : overwrite a row = row :=
  if_neg (by simpa using h)

theorem overwrite_comm (h : a.id ≠ b.id) (row : Account) :
    overwrite a (overwrite b row) = overwrite b (overwrite a row) := by
  by_cases ha : row.id = a.id
  · have hb : row.id ≠ b.id := ha ▸ h
    have hb' : (overwrite a row).id ≠ b.id := by rwa [overwrite_id]
    rw [overwrite_of_ne hb, overwrite_of_ne hb']
  · have ha' : (overwrite b row).id ≠ a.id := by rwa [overwrite_id]
    rw [overwrite_of_ne ha, overwrite_of_ne ha']

theorem any_putRow (a : Account) (rows : List Account) (id : String) :
    (putRow a rows).any (·.id == id) = (rows.any (·.id == id) || id == a.id) := by
  unfold putRow
  split
  · next h =>
    rw [List.any_map]
    simp only [Function.comp_def, overwrite_id]
    by_cases hid : id = a.id
    · rw [hid, h, Bool.true_or]
    · rw [beq_eq_false_iff_ne.mpr hid, Bool.or_false]
  · rw [List.any_append, List.any_cons, List.any_nil, Bool.or_false, Bool.beq_comm]

theorem putRow_perm (a : Account) (h : rows.Perm rows') :
    (putRow a rows).Perm (putRow a rows') := by
  unfold putRow
  rw [h.any_eq]
  split
  · exact h.map _
  · exact h.append_right _

theorem putRow_comm (h : a.id ≠ b.id) (rows : List Account) :
    (putRow a (putRow b rows)).Perm (putRow b (putRow a rows)) := by
  have hother {a b : Account} (h : a.id ≠ b.id) (rows : List Account) :
      (putRow b rows).any (·.id == a.id) = rows.any (·.id == a.id) := by
    rw [any_putRow, beq_eq_false_iff_ne.mpr h, Bool.or_false]
  have ha := hother h rows
  have hb := hother h.symm rows
  unfold putRow at ha hb ⊢
  rw [ha, hb]
  cases hina : rows.any (·.id == a.id) <;> cases hinb : rows.any (·.id == b.id)
  · simp only [Bool.false_eq_true, if_false, List.append_assoc]
    exact (List.Perm.swap a b []).append_left rows
  · simp [overwrite_of_ne h]
  · simp [overwrite_of_ne h.symm]
  · simp only [if_true, List.map_map]
    exact .of_eq (List.map_congr_left fun row _ => overwrite_comm h row)

theorem find?_putRow {f : Account → Bool} (hf : f a = false)
    (hold : ∀ row ∈ rows, row.id = a.id → f row = false ∧ f (overwrite a row) = false) :
    (putRow a rows).find? f = rows.find? f := by
  unfold putRow
  split
  · refine Rows.find?_map_of_passed fun row hrow => ?_
    by_cases hid : row.id = a.id
    · exact .inr (hold row hrow hid)
    · exact .inl (overwrite_of_ne hid)
  · rw [List.find?_append, List.find?_cons, hf, List.find?_nil, Option.or_none]

variable {t : Tables}

def put (a : Account) (t : Tables) : Tables := { t with accounts := putRow a t.accounts }

theorem checkUnique_congr {indexes : List (Index Account)} {row : Account}
    (h : ∀ i ∈ indexes, rows.any (i.agree row) = rows'.any (i.agree row)) :
    checkUnique indexes rows row = checkUnique indexes rows' row := by
  unfold checkUnique
  have hfind : (indexes.find? fun i => rows.any (i.agree row)) =
      indexes.find? fun i => rows'.any (i.agree row) := by
    induction indexes with
    | nil => rfl
    | cons i rest ih =>
      rw [List.find?_cons, List.find?_cons, h i (.head rest),
        ih fun j hj => h j (.tail i hj)]
  rw [hfind]

theorem agree_elsewhere {i : Index Account} (hi : i ∈ accountIndexes)
    (h : b.assetId ≠ a.assetId) : i.agree a b = false := by
  have hne : (a.assetId == b.assetId) = false := beq_eq_false_iff_ne.mpr h.symm
  rcases List.mem_cons.mp hi with rfl | hi
  · simp [hne]
  · rw [List.mem_singleton.mp hi]
    simp [hne]

theorem insertAccount_told (a : Account) (t : Tables) : (t.insertAccount a).map (fun _ => ()) =
    (do
      checkUnique (accountIndexes ++ [accountIdIndex]) t.accounts a
      checkReference
        (t.hasAsset a.assetId && a.suFrom.all fun s => s == a.id || t.hasAccount s)) := by
  unfold insertAccount
  cases checkUnique (accountIndexes ++ [accountIdIndex]) t.accounts a with
  | error e => rfl
  | ok _ =>
    change Except.map _ (checkReference _ >>= fun _ => _) = checkReference _
    cases checkReference (t.hasAsset a.assetId &&
      a.suFrom.all fun s => s == a.id || t.hasAccount s) <;> rfl

theorem updateAccount_told (a : Account) (t : Tables) : (t.updateAccount a).map (fun _ => ()) =
    (match t.accounts.find? (·.id == a.id) with
    | none => .error (.notFound (.account a.id))
    | some row => do
      checkUnique accountIndexes (t.accounts.filter (·.id != a.id))
        { a with assetId := row.assetId, dateCreated := row.dateCreated }
      checkReference (a.suFrom.all t.hasAccount)) := by
  unfold updateAccount
  cases t.accounts.find? (·.id == a.id) with
  | none => rfl
  | some row =>
    dsimp only
    cases checkUnique accountIndexes (t.accounts.filter (·.id != a.id))
        { a with assetId := row.assetId, dateCreated := row.dateCreated } with
    | error e => rfl
    | ok _ =>
      change Except.map _ (checkReference _ >>= fun _ => _) = checkReference _
      cases checkReference (a.suFrom.all t.hasAccount) <;> rfl

end Tables

namespace Relational

def put (a : Account) (s : Relational) : Relational := { s with tables := s.tables.put a }

/-- The stores differ in the order of the accounts' rows at most. -/
def Reordered (s s' : Relational) : Prop :=
  ∃ rows, s.tables.accounts.Perm rows ∧ s' = { s with tables := { s.tables with accounts := rows } }

theorem exchange : Exchange Reordered put where
  refl s := ⟨s.tables.accounts, .rfl, rfl⟩
  trans := by
    rintro s _ _ ⟨rows, hperm, rfl⟩ ⟨rows', hperm', rfl⟩
    exact ⟨rows', hperm.trans hperm', rfl⟩
  congr a := by
    rintro s _ ⟨rows, hperm, rfl⟩
    exact ⟨Tables.putRow a rows, Tables.putRow_perm a hperm, rfl⟩
  swap {a b} s h := ⟨_, Tables.putRow_comm h s.tables.accounts, rfl⟩

/-- No look-up and no listing tells such stores apart. -/
structure Indistinct (s s' : Relational) : Prop where
  platforms : Store.platforms s' = Store.platforms s
  assets : Store.assets s' = Store.assets s
  templates : Store.templates s' = Store.templates s
  accounts : Store.accounts s' = Store.accounts s
  platform? : Store.platform? s' = Store.platform? s
  asset? : Store.asset? s' = Store.asset? s
  node? : Store.node? s' = Store.node? s
  template? : Store.template? s' = Store.template? s
  account? : Store.account? s' = Store.account? s
  accountByName? : Store.accountByName? s' = Store.accountByName? s
  accountBySlot? : Store.accountBySlot? s' = Store.accountBySlot? s
  pushTasks : ∀ limit, s'.tables.listPushTasks limit = s.tables.listPushTasks limit

theorem Reordered.indistinct {s s' : Relational} (h : Reordered s s') (hs : s.tables.Keys) :
    Indistinct s s' := by
  obtain ⟨rows, hperm, rfl⟩ := h
  have hlisted (asset : Option String) :
      (rows.filter fun a => asset.all (a.assetId == ·)).mergeSort
          (fun a b => a.assetId < b.assetId || (a.assetId == b.assetId && a.name ≤ b.name)) =
        (s.tables.accounts.filter fun a => asset.all (a.assetId == ·)).mergeSort
          fun a b => a.assetId < b.assetId || (a.assetId == b.assetId && a.name ≤ b.name) := by
    have hfilter := hperm.symm.filter fun a => asset.all (a.assetId == ·)
    rw [← List.map_id (List.filter _ s.tables.accounts)] at hfilter
    have hlist := linear_label.listing_eq (fun a : Account => Label.mk a.assetId a.name)
      (fun _ => rfl) hfilter (Rows.nodup_filter hs.accountLabels _)
    exact hlist.trans (List.map_id _)
  exact {
    platforms := rfl
    assets := rfl
    templates := rfl
    accounts := funext fun asset =>
      congrArg (List.map (Tables.readAccount s.clock)) (hlisted asset)
    platform? := rfl
    asset? := rfl
    node? := rfl
    template? := rfl
    account? := funext fun id => congrArg (Option.map (Tables.readAccount s.clock))
      (Rows.find?_key_perm hs.accountIds hperm id).symm
    accountByName? := funext fun asset => funext fun name =>
      congrArg (Option.map (Tables.readAccount s.clock)) (hs.find?_name hperm.symm asset name)
    accountBySlot? := funext fun asset => funext fun username => funext fun type =>
      congrArg (Option.map (Tables.readAccount s.clock))
        (hs.find?_slot hperm.symm asset username type)
    pushTasks := fun _ => rfl }


theorem guarded_told (f : Tables.Statement) (s : Relational) :
    (guarded f s).1 = (f s.tables).map fun _ => () := by
  cases h : f s.tables with
  | ok t => rw [guarded_of_ok h]; rfl
  | error e => rw [guarded_of_error h]; rfl

theorem hasAccount_put (a : Account) (s : Relational) (id : String) :
    (put a s).tables.hasAccount id = (s.tables.hasAccount id || id == a.id) :=
  Tables.any_putRow a s.tables.accounts id

theorem row_of_slot {clock : Time.Instant} {s : Relational} (hs : Kept clock s)
    {asset username : String} {type : SecretType} {a : Account}
    (h : accountBySlot? s asset username type = some a) :
    ∃ row ∈ s.tables.accounts, s.tables.accounts.find? (·.id == a.id) = some row ∧
      row.id = a.id ∧ row.assetId = asset ∧ row.suFrom = a.suFrom := by
  obtain ⟨row, hfound, rfl⟩ := Option.map_eq_some_iff.mp h
  have hrow := List.mem_of_find?_eq_some hfound
  have hslot := List.find?_some (p := fun b : Account => b.hasSlot asset username type) hfound
  refine ⟨row, hrow, ?_, rfl, (Account.hasSlot_iff.mp hslot).1, rfl⟩
  exact (Rows.find?_key_eq_some_iff hs.1.1.accountIds).mpr ⟨hrow, rfl⟩

section Elsewhere

variable {clock : Time.Instant} {p q : Plot} {s : Relational} {a : Account}
  (hs : Kept clock s) (ha : p.Takes s a) (hpq : p.Apart q)

include hs ha

theorem row_of_takes {row : Account} (hrow : row ∈ s.tables.accounts) (hid : row.id = a.id) :
    row.assetId = p.asset := by
  have hfound : account? s a.id = some (Tables.readAccount s.clock row) :=
    hid ▸ account?_of_mem hs.1.1 hrow
  rcases ha.id with ⟨-, hnone⟩ | ⟨old, hold, hasset⟩
  · exact nomatch hnone.symm.trans hfound
  · obtain rfl := Option.some.inj (hold.symm.trans hfound)
    exact hasset

omit hs in
theorem hasAccount_elsewhere {id : String} (hid : id ∉ p.ids) :
    (put a s).tables.hasAccount id = s.tables.hasAccount id := by
  rw [hasAccount_put]
  by_cases h : id = a.id
  · subst h
    obtain ⟨old, hold, -⟩ := ha.id.resolve_left fun hnew => hid hnew.1
    obtain ⟨row, hrow, -⟩ := Option.map_eq_some_iff.mp hold
    have hpresent : s.tables.hasAccount a.id = true := by
      rw [Tables.hasAccount, ← List.isSome_find?, hrow]
      rfl
    rw [hpresent, Bool.true_or]
  · rw [beq_eq_false_iff_ne.mpr h, Bool.or_false]

include hpq

theorem find?_put {f : Account → Bool} (hf : ∀ b : Account, b.assetId ≠ q.asset → f b = false) :
    (put a s).tables.accounts.find? f = s.tables.accounts.find? f := by
  refine Tables.find?_putRow (hf a (ha.asset ▸ hpq.asset)) fun row hrow hid => ?_
  have hasset : row.assetId ≠ q.asset := row_of_takes hs ha hrow hid ▸ hpq.asset
  exact ⟨hf row hasset, hf _ (by rwa [Tables.overwrite_assetId])⟩

theorem any_put {f : Account → Bool} (hf : ∀ b : Account, b.assetId ≠ q.asset → f b = false) :
    (put a s).tables.accounts.any f = s.tables.accounts.any f := by
  rw [← List.isSome_find?, find?_put hs ha hpq hf, List.isSome_find?]

theorem insert_put {suFrom : Option String} (hfresh : ∀ id ∈ p.ids, suFrom ≠ some id)
    {b : Account} (hb : b.assetId = q.asset) (hid : b.id ∈ q.ids) (hsu : b.suFrom = suFrom) :
    (Tables.insertAccount b (put a s).tables).map (fun _ => ()) =
      (Tables.insertAccount b s.tables).map fun _ => () := by
  have hunique : checkUnique (Tables.accountIndexes ++ [Tables.accountIdIndex])
      (put a s).tables.accounts b =
        checkUnique (Tables.accountIndexes ++ [Tables.accountIdIndex]) s.tables.accounts b := by
    refine Tables.checkUnique_congr fun i hi => ?_
    rcases List.mem_append.mp hi with hi | hi
    · exact any_put hs ha hpq fun c hc => Tables.agree_elsewhere hi (hb ▸ hc)
    · have hown := hasAccount_elsewhere ha fun hmem => hpq.ids _ hmem hid
      rw [List.mem_singleton.mp hi]
      simpa only [Tables.hasAccount, Tables.accountIdIndex, Bool.beq_comm] using hown
  have hreference : (b.suFrom.all fun i => i == b.id || (put a s).tables.hasAccount i) =
      b.suFrom.all fun i => i == b.id || s.tables.hasAccount i := by
    cases hfrom : b.suFrom with
    | none => rfl
    | some i =>
      have hnew : i ∉ p.ids := fun hmem => hfresh i hmem (hsu.symm.trans hfrom)
      have hkept := hasAccount_elsewhere ha hnew
      simp only [Option.all_some, hkept]
  rw [Tables.insertAccount_told, Tables.insertAccount_told, hunique, hreference]
  rfl

theorem update_put {suFrom : Option String} (hfresh : ∀ id ∈ p.ids, suFrom ≠ some id)
    {username : String} {type : SecretType} {old new : Account}
    (hold : accountBySlot? s q.asset username type = some old) (hid : new.id = old.id)
    (hsu : new.suFrom = old.suFrom ∨ new.suFrom = suFrom) :
    (Tables.updateAccount new (put a s).tables).map (fun _ => ()) =
      (Tables.updateAccount new s.tables).map fun _ => () := by
  obtain ⟨row, hrow, hfound, hrowid, hasset, hfrom⟩ := row_of_slot hs hold
  rw [← hid] at hfound hrowid
  have hother : row.id ≠ a.id := fun heq =>
    hpq.asset ((row_of_takes hs ha hrow heq).symm.trans hasset)
  have hfound' : (put a s).tables.accounts.find? (·.id == new.id) = some row := by
    refine (Tables.find?_putRow ?_ fun b _ hb => ?_).trans hfound
    · exact beq_eq_false_iff_ne.mpr fun heq => hother (hrowid.trans heq.symm)
    · have hne : (b.id == new.id) = false :=
        beq_eq_false_iff_ne.mpr fun heq => hother (hrowid.trans (heq.symm.trans hb))
      exact ⟨hne, by rwa [Tables.overwrite_id]⟩
  have hunique (r : Account) (hr : r.assetId = row.assetId) :
      checkUnique Tables.accountIndexes ((put a s).tables.accounts.filter (·.id != new.id)) r =
        checkUnique Tables.accountIndexes (s.tables.accounts.filter (·.id != new.id)) r := by
    refine Tables.checkUnique_congr fun i hi => ?_
    rw [List.any_filter, List.any_filter]
    refine any_put hs ha hpq fun c hc => ?_
    rw [Tables.agree_elsewhere hi (hr.trans hasset ▸ hc), Bool.and_false]
  -- A reference that the account keeps leads to a row, and rows stay.
  have hreference : new.suFrom.all (put a s).tables.hasAccount =
      new.suFrom.all s.tables.hasAccount := by
    cases hnew : new.suFrom with
    | none => rfl
    | some i =>
      rcases hsu with hkept | hgiven
      · have hrefers := hfrom.trans (hkept.symm.trans hnew)
        have hstays := Tables.hasAccount_iff.mpr (hs.2.suFrom row hrow i hrefers)
        simp only [Option.all_some, hasAccount_put, hstays, Bool.true_or]
      · exact hasAccount_elsewhere ha fun hmem => hfresh i hmem (hgiven.symm.trans hnew)
  rw [Tables.updateAccount_told, Tables.updateAccount_told, hfound', hfound]
  dsimp only
  rw [hunique { new with assetId := row.assetId, dateCreated := row.dateCreated } rfl, hreference]

theorem alike_put {suFrom : Option String} (hfresh : ∀ id ∈ p.ids, suFrom ≠ some id) :
    q.Alike suFrom s (put a s) where
  slot username type :=
    congrArg (Option.map (Tables.readAccount s.clock)) <|
      find?_put hs ha hpq fun b hb => by simp [Account.hasSlot, hb]
  insert b hb hid hsu := by
    change (guarded _ (put a s)).1 = (guarded _ s).1
    rw [guarded_told, guarded_told, insert_put hs ha hpq hfresh hb hid hsu]
  update username type old new hold hid _ hsu := by
    change (guarded _ (put a s)).1 = (guarded _ s).1
    rw [guarded_told, guarded_told, update_put hs ha hpq hfresh hold hid hsu]

end Elsewhere

theorem plotted (clock : Time.Instant) :
    Plotted (Kept clock) (Tables.readDate clock) put where
  seamless := seamless
  bookkeeping := bookkeeping_references clock
  insert {s s' a} h := by
    obtain ⟨t, ht, rfl⟩ := eq_ok_of_guarded h
    obtain ⟨hid, -, -, -, rfl⟩ := Tables.insertAccount_eq_ok_iff.mp ht
    have habsent : ¬ s.tables.accounts.any (·.id == a.id) = true := fun hany => by
      obtain ⟨b, hb, heq⟩ := List.any_eq_true.mp hany
      exact hid b hb (eq_of_beq heq).symm
    simp only [put, Tables.put, Tables.putRow, if_neg habsent]
  update {s s' a} hs h := by
    obtain ⟨t, ht, rfl⟩ := eq_ok_of_guarded h
    obtain ⟨row, hrow, -, -, rfl⟩ := Tables.updateAccount_eq_ok_iff.mp ht
    have hpresent : s.tables.accounts.any (·.id == a.id) = true := by
      rw [← List.isSome_find?, hrow]
      rfl
    simp only [put, Tables.put, Tables.putRow, if_pos hpresent]
    congr 2
    refine List.map_congr_left fun b hb => ?_
    unfold Tables.overwrite
    split
    · next heq =>
      have hsame : s.tables.accounts.find? (·.id == a.id) = some b :=
        (Rows.find?_key_eq_some_iff hs.1.1.accountIds).mpr ⟨hb, eq_of_beq heq⟩
      rw [Option.some.inj (hrow.symm.trans hsame)]
    · rfl
  elsewhere hs ha hpq hfresh := alike_put hs ha hpq hfresh

end Relational

end Custody.Store
