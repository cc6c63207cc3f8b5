import Custody.Proofs.Store.Ledger

/-!
What becomes of a candidate, in full. Where names and slots are unique, the look-up of a candidate
sees every account that could stand in its way: a free candidate is created, a met account is left
alone, reported or rewritten, and only the rewriting of a slot's holder can still find the name
taken.
-/
namespace Custody

namespace Account

theorem hasName_iff {a : Account} {asset name : String} :
    a.hasName asset name ↔ a.assetId = asset ∧ a.name = name := by
  simp [hasName]

/-- Another account with the name or the slot of this one on its asset. -/
def Rivals (a b : Account) : Prop :=
  b.id ≠ a.id ∧ (b.hasName a.assetId a.name ∨ b.hasSlot a.assetId a.username a.secretType)

theorem not_rivals_iff {a b : Account} : ¬ a.Rivals b ↔
    (b.id ≠ a.id → (a.assetId, a.name) ≠ (b.assetId, b.name)) ∧
    (b.id ≠ a.id →
      (a.assetId, a.username, a.secretType) ≠ (b.assetId, b.username, b.secretType)) := by
  simp only [Rivals, hasName_iff, hasSlot_iff, ne_eq, Prod.mk.injEq]
  grind

end Account

namespace Store

def Stored {σ : Type} [Store σ] (s : σ) (a : Account) : Prop := account? s a.id = some a

def Supplied {σ : Type} [Store σ] (s : σ) (suFrom : Option String) : Prop :=
  ∀ b, suFrom = some b → (account? s b).isSome

def NameTaken {σ : Type} [Store σ] (s : σ) (asset name : String) : Prop :=
  ∃ b, Stored s b ∧ b.hasName asset name

/-- The stores that insert an account, given that what it refers to is there, unless another one has
its name or its slot, and then refuse it as a duplicate. -/
structure Admitting {σ : Type} [Store σ] (good : σ → Prop) (refers : σ → Option String → Prop) :
    Prop where
  admits : ∀ {s : σ} {a : Account}, good s → (asset? s a.assetId).isSome → refers s a.suFrom →
    account? s a.id = none → (∀ b, Stored s b → ¬ a.Rivals b) → (insertAccount a s).1 = .ok ()
  refuses : ∀ {s : σ} {a b : Account}, good s → (asset? s a.assetId).isSome → Stored s b →
    a.Rivals b → ∃ d, (insertAccount a s).1 = .error (.duplicate d)

/-- The stores on which nothing but other accounts decides what becomes of an account call, given
that what it refers to is there. -/
structure Decided {σ : Type} [Store σ] (good : σ → Prop) (dated : Time.Instant → Time.Instant) :
    Prop where
  bookkeeping : Bookkeeping good dated
  slot : ∀ {s : σ} {asset username : String} {type : SecretType} {a : Account}, good s →
    (accountBySlot? s asset username type = some a ↔
      Stored s a ∧ a.hasSlot asset username type)
  name : ∀ {s : σ} {asset name : String} {a : Account}, good s →
    (accountByName? s asset name = some a ↔ Stored s a ∧ a.hasName asset name)
  insert : ∀ {s : σ} {a : Account}, good s → (asset? s a.assetId).isSome → Supplied s a.suFrom →
    account? s a.id = none → (∀ b, Stored s b → ¬ a.Rivals b) → (insertAccount a s).1 = .ok ()
  update : ∀ {s : σ} {a old : Account}, good s → account? s a.id = some old →
    a.assetId = old.assetId → (a.suFrom = old.suFrom ∨ Supplied s a.suFrom) →
    ((updateAccount a s).1 = .ok () ↔ ∀ b, Stored s b → ¬ a.Rivals b) ∧
      ∀ e, (updateAccount a s).1 = .error e → ∃ d, e = .duplicate d

end Store

open Store

namespace Candidate

variable {σ : Type} [Store σ] {good : σ → Prop} {dated : Time.Instant → Time.Instant}
  {c : Candidate} {policy : Policy} {id : String} {now : Time.Instant} {s : σ} {e : Account}

def Fills (c : Candidate) (a : Account) : Prop := a.hasSlot c.assetId c.username c.secretType

def Names (c : Candidate) (a : Account) : Prop := a.hasName c.assetId c.name

/-- The account that the candidate meets: the holder of its slot or, if there is none, of its
name. -/
def Meets (c : Candidate) (s : σ) (e : Account) : Prop :=
  Stored s e ∧ (c.Fills e ∨ (c.Names e ∧ ∀ b, Stored s b → ¬ c.Fills b))

def Free (c : Candidate) (s : σ) : Prop := ∀ b, Stored s b → ¬ c.Fills b ∧ ¬ c.Names b

/-- The references of the candidate lead somewhere, and the id it may spend is new. -/
structure Ready (c : Candidate) (id : String) (s : σ) : Prop where
  asset : (asset? s c.assetId).isSome
  suFrom : Supplied s c.suFrom
  fresh : account? s id = none

/-- Another account has the name that the holder of the candidate's slot would take. -/
def Blocked (c : Candidate) (s : σ) (e : Account) : Prop :=
  c.Fills e ∧ ∃ b, Stored s b ∧ b.id ≠ e.id ∧ c.Names b

structure Resolved (dated : Time.Instant → Time.Instant) (c : Candidate) (policy : Policy)
    (id : String) (now : Time.Instant) (s : σ) : Prop where
  created : c.Free s → ∃ s',
    (∀ supply, (c.reconcile .nameOrSlot policy id now : Run σ _) ⟨s, supply⟩ =
      (.ok (c.toAccount id now, .created), ⟨s', supply⟩)) ∧
    account? s' = Function.update (account? s) id (some ((c.toAccount id now).redated dated))
  skipped : ∀ e, c.Meets s e → policy = .skip → ∀ supply,
    (c.reconcile .nameOrSlot policy id now : Run σ _) ⟨s, supply⟩ =
      (.ok (e, .skipped), ⟨s, supply⟩)
  conflict : ∀ e, c.Meets s e → policy = .error → ∀ supply,
    (c.reconcile .nameOrSlot policy id now : Run σ _) ⟨s, supply⟩ =
      (.error (.conflict .account), ⟨s, supply⟩)
  blocked : ∀ e, c.Meets s e → policy = .update → c.Blocked s e → ∃ d, ∀ supply,
    (c.reconcile .nameOrSlot policy id now : Run σ _) ⟨s, supply⟩ =
      (.error (.duplicate d), ⟨s, supply⟩)
  updated : ∀ e, c.Meets s e → policy = .update → ¬ c.Blocked s e → ∃ s',
    (∀ supply, (c.reconcile .nameOrSlot policy id now : Run σ _) ⟨s, supply⟩ =
      (.ok (c.applyTo e now, .updated), ⟨s', supply⟩)) ∧
    account? s' = Function.update (account? s) e.id (some (c.applyTo e (dated now)))

theorem free_or_meets (c : Candidate) (s : σ) : c.Free s ∨ ∃ e, c.Meets s e := by
  by_cases hslot : ∃ b, Stored s b ∧ c.Fills b
  · obtain ⟨b, hb, hfills⟩ := hslot
    exact .inr ⟨b, hb, .inl hfills⟩
  · have hnone : ∀ b, Stored s b → ¬ c.Fills b := fun b hb hfills => hslot ⟨b, hb, hfills⟩
    by_cases hname : ∃ b, Stored s b ∧ c.Names b
    · obtain ⟨b, hb, hnames⟩ := hname
      exact .inr ⟨b, hb, .inr ⟨hnames, hnone⟩⟩
    · exact .inl fun b hb => ⟨hnone b hb, fun hnames => hname ⟨b, hb, hnames⟩⟩

theorem Resolved.not_duplicate (h : c.Resolved dated policy id now s) (hpolicy : policy ≠ .update)
    (d : String) (supply : Supply) :
    ((c.reconcile .nameOrSlot policy id now : Run σ _) ⟨s, supply⟩).1 ≠ .error (.duplicate d) := by
  rcases c.free_or_meets s with hfree | ⟨e, he⟩
  · obtain ⟨s', hrun, -⟩ := h.created hfree
    simp [hrun supply]
  · cases policy with
    | skip => simp [h.skipped e he rfl supply]
    | error => simp [h.conflict e he rfl supply]
    | update => exact absurd rfl hpolicy

theorem slot_eq_none (hd : Decided good dated) (hs : good s)
    (h : ∀ b, Stored s b → ¬ c.Fills b) :
    accountBySlot? s c.assetId c.username c.secretType = none :=
  Option.eq_none_iff_forall_ne_some.mpr fun b hb =>
    let ⟨hstored, hfills⟩ := (hd.slot hs).mp hb
    h b hstored hfills

theorem existing?_eq_none_of_free (hd : Decided good dated) (hs : good s) (h : c.Free s) :
    c.existing? .nameOrSlot s = none := by
  have hname : accountByName? s c.assetId c.name = none :=
    Option.eq_none_iff_forall_ne_some.mpr fun b hb =>
      let ⟨hstored, hnames⟩ := (hd.name hs).mp hb
      (h b hstored).2 hnames
  rw [existing?, slot_eq_none hd hs fun b hb => (h b hb).1]
  exact hname

theorem existing?_eq_some_of_meets (hd : Decided good dated) (hs : good s) (h : c.Meets s e) :
    c.existing? .nameOrSlot s = some e := by
  obtain ⟨hstored, hfills | ⟨hnames, hnone⟩⟩ := h
  · rw [existing?, (hd.slot hs).mpr ⟨hstored, hfills⟩]
  · rw [existing?, slot_eq_none hd hs hnone]
    exact (hd.name hs).mpr ⟨hstored, hnames⟩

theorem eq_of_fills (hd : Decided good dated) (hs : good s) {a b : Account} (ha : Stored s a)
    (hb : Stored s b) (hfa : c.Fills a) (hfb : c.Fills b) : a = b :=
  Option.some.inj (((hd.slot hs).mpr ⟨ha, hfa⟩).symm.trans ((hd.slot hs).mpr ⟨hb, hfb⟩))

theorem eq_of_names (hd : Decided good dated) (hs : good s) {a b : Account} (ha : Stored s a)
    (hb : Stored s b) (hna : c.Names a) (hnb : c.Names b) : a = b :=
  Option.some.inj (((hd.name hs).mpr ⟨ha, hna⟩).symm.trans ((hd.name hs).mpr ⟨hb, hnb⟩))

theorem Meets.assetId (h : c.Meets s e) : e.assetId = c.assetId := by
  obtain ⟨-, hfills | ⟨hnames, -⟩⟩ := h
  · exact (Account.hasSlot_iff.mp hfills).1
  · exact (Account.hasName_iff.mp hnames).1

theorem rivals_applyTo_iff (hasset : e.assetId = c.assetId) {b : Account} :
    (c.applyTo e now).Rivals b ↔ b.id ≠ e.id ∧ (c.Names b ∨ c.Fills b) := by
  have h := c.applyTo_rewritten e now
  unfold Account.Rivals
  rw [h.id, h.assetId, hasset]
  rfl

/-- The account that the candidate meets is the only one that it could collide with, but for
another holder of the name. -/
theorem exists_rival_iff_blocked (now : Time.Instant) (hd : Decided good dated) (hs : good s)
    (h : c.Meets s e) : (∃ b, Stored s b ∧ (c.applyTo e now).Rivals b) ↔ c.Blocked s e := by
  simp only [rivals_applyTo_iff h.assetId]
  constructor
  · rintro ⟨b, hb, hne, hclash⟩
    obtain ⟨hstored, hfills | ⟨hnames, hnone⟩⟩ := h
    · rcases hclash with hnames | hfills'
      · exact ⟨hfills, b, hb, hne, hnames⟩
      · exact absurd (congrArg Account.id (eq_of_fills hd hs hb hstored hfills' hfills)) hne
    · rcases hclash with hnames' | hfills
      · exact absurd (congrArg Account.id (eq_of_names hd hs hb hstored hnames' hnames)) hne
      · exact absurd hfills (hnone b hb)
  · rintro ⟨-, b, hb, hne, hnames⟩
    exact ⟨b, hb, hne, .inl hnames⟩

theorem update_applyTo (now : Time.Instant) (hd : Decided good dated) (hs : good s)
    (h : c.Meets s e) (hsu : Supplied s c.suFrom) :
    ((updateAccount (c.applyTo e now) s).1 = .ok () ↔ ¬ c.Blocked s e) ∧
      ∀ err, (updateAccount (c.applyTo e now) s).1 = .error err → ∃ d, err = .duplicate d := by
  have hnew := c.applyTo_rewritten e now
  have hsuFrom := hnew.suFrom.imp_right fun hsupplied => hsupplied ▸ hsu
  obtain ⟨hok, herror⟩ := hd.update hs (hnew.id ▸ h.1) hnew.assetId hsuFrom
  refine ⟨hok.trans ?_, herror⟩
  rw [← exists_rival_iff_blocked now hd hs h]
  simp only [not_exists, not_and]

theorem account?_of_update (hd : Decided good dated) (hs : good s) (h : Stored s e) {s' : σ}
    (hupd : updateAccount (c.applyTo e now) s = (.ok (), s')) :
    account? s' = Function.update (account? s) e.id (some (c.applyTo e (dated now))) := by
  have hnew := c.applyTo_rewritten e now
  have hafter := (hd.bookkeeping.update hs (hnew.id ▸ h) hnew.assetId hnew.dateCreated hupd).2
  rw [hnew.id, c.applyTo_redated, hd.bookkeeping.reread h hs] at hafter
  exact Accounts.eq_update hafter

theorem resolved (policy : Policy) (now : Time.Instant) (hd : Decided good dated) (hs : good s)
    (hready : c.Ready id s) :
    c.Resolved dated policy id now s where
  created hfree := by
    have hrivals (b : Account) (hb : Stored s b) : ¬ (c.toAccount id now).Rivals b := fun h =>
      h.2.elim (hfree b hb).2 (hfree b hb).1
    have hok := hd.insert hs hready.asset hready.suFrom hready.fresh hrivals
    cases hins : insertAccount (c.toAccount id now) s with
    | mk r s' =>
      obtain rfl : r = .ok () := (congrArg Prod.fst hins).symm.trans hok
      refine ⟨s', reconcile_of_none (existing?_eq_none_of_free hd hs hfree) hins, ?_⟩
      exact Accounts.eq_update (hd.bookkeeping.insert hs hins).2.2
  skipped e he hpolicy supply := by
    rw [reconcile_of_some policy id now (existing?_eq_some_of_meets hd hs he), hpolicy]
  conflict e he hpolicy supply := by
    rw [reconcile_of_some policy id now (existing?_eq_some_of_meets hd hs he), hpolicy]
  blocked e he hpolicy hblocked := by
    obtain ⟨hok, herror⟩ := update_applyTo now hd hs he hready.suFrom
    have hrun := reconcile_of_some policy id now (existing?_eq_some_of_meets hd hs he)
    cases hupd : updateAccount (c.applyTo e now) s with
    | mk r s' =>
      rw [hupd] at hok herror
      cases r with
      | ok _ => exact absurd hblocked (hok.mp rfl)
      | error err =>
        obtain ⟨d, rfl⟩ := herror err rfl
        obtain rfl := hd.bookkeeping.update_error hupd
        refine ⟨d, fun supply => ?_⟩
        rw [hrun, hpolicy, hupd]
        rfl
  updated e he hpolicy hfree := by
    have hok := (update_applyTo now hd hs he hready.suFrom).1.mpr hfree
    have hrun := reconcile_of_some policy id now (existing?_eq_some_of_meets hd hs he)
    cases hupd : updateAccount (c.applyTo e now) s with
    | mk r s' =>
      rw [hupd] at hok
      cases hok
      refine ⟨s', fun supply => ?_, account?_of_update hd hs he.1 hupd⟩
      rw [hrun, hpolicy, hupd]
      rfl

end Candidate

namespace Store

theorem find?_eq_some_iff_of_key {rows : List Account} {κ : Type} {key : Account → κ}
    (h : (rows.map key).Nodup) {p : Account → Bool} (hp : ∀ a b, p a → p b → key a = key b)
    {a : Account} : rows.find? p = some a ↔ a ∈ rows ∧ p a :=
  Rows.find?_eq_some_iff fun a ha b hb hpa hpb => Rows.eq_of_key_eq h ha hb (hp a b hpa hpb)

namespace Memory

theorem stored_iff {m : Memory} (hm : m.records.Filed) {a : Account} :
    Stored m a ↔ a ∈ m.records.accounts.values :=
  hm.accounts.get?_eq_some_iff.trans (and_iff_left rfl)

theorem checkAccount_eq_ok_iff_rivals {m : Memory} (hm : m.records.Filed) {a : Account} :
    Records.checkAccount a m.records = .ok () ↔ ∀ b, Stored m b → ¬ a.Rivals b := by
  simp only [Records.checkAccount_eq_ok_iff_keys, stored_iff hm, Account.not_rivals_iff,
    forall_and]

theorem guarded_isOk_iff {f : Records → Except Error Records} {m : Memory} :
    (guarded f m).1 = .ok () ↔ ∃ r, f m.records = .ok r := by
  cases hf : f m.records with
  | ok r => simp [guarded_of_ok hf]
  | error e => simp [guarded_of_error hf]

theorem admitting : Admitting (fun m : Memory => m.records.Filed) fun _ _ => True where
  admits {m a} hm hasset _ hfresh hrivals := by
    refine guarded_isOk_iff.mpr ⟨_, Records.insertAccount_eq_ok_iff.mpr ⟨?_, hasset, ?_, rfl⟩⟩
    · exact congrArg Option.isSome hfresh
    · exact (checkAccount_eq_ok_iff_rivals hm).mpr hrivals
  refuses {m a b} hm hasset hb hrivals := by
    change ∃ d, (guarded (Records.insertAccount a) m).1 = _
    cases hins : m.records.insertAccount a with
    | ok r =>
      obtain ⟨-, -, hcheck, -⟩ := Records.insertAccount_eq_ok_iff.mp hins
      exact absurd hrivals ((checkAccount_eq_ok_iff_rivals hm).mp hcheck b hb)
    | error e =>
      obtain ⟨d, rfl⟩ := Records.insertAccount_eq_error hasset hins
      exact ⟨d, congrArg Prod.fst (guarded_of_error hins)⟩

theorem decided : Decided (fun m : Memory => m.records.Filed ∧ m.records.Unique) id where
  bookkeeping := by
    refine bookkeeping.and ?_ ?_
    · intro m m' a hm hunique h
      obtain ⟨r, hr, rfl⟩ := eq_ok_of_guarded h
      obtain ⟨-, -, hcheck, rfl⟩ := Records.insertAccount_eq_ok_iff.mp hr
      exact hunique.placeAccount hm hcheck
    · intro m m' a old hm hunique _ _ h
      obtain ⟨r, hr, rfl⟩ := eq_ok_of_guarded h
      obtain ⟨-, hcheck, rfl⟩ := Records.updateAccount_eq_ok_iff.mp hr
      exact hunique.placeAccount hm hcheck
  slot {m asset username type a} hm := by
    rw [stored_iff hm.1]
    refine find?_eq_some_iff_of_key hm.2.accountSlots fun a b ha hb => ?_
    simp only [Account.hasSlot_iff] at ha hb
    grind
  name {m asset name a} hm := by
    rw [stored_iff hm.1]
    refine find?_eq_some_iff_of_key hm.2.accountNames fun a b ha hb => ?_
    simp only [Account.hasName_iff] at ha hb
    grind
  insert hm hasset _ hfresh hrivals := admitting.admits hm.1 hasset trivial hfresh hrivals
  update {m a old} hm hold _ _ := by
    have hfound : m.records.accounts.contains a.id = true := congrArg Option.isSome hold
    constructor
    · rw [← checkAccount_eq_ok_iff_rivals hm.1]
      refine guarded_isOk_iff.trans ?_
      simp [Records.updateAccount_eq_ok_iff, hfound]
    · intro e he
      change (guarded (Records.updateAccount a) m).1 = _ at he
      cases hupd : m.records.updateAccount a with
      | ok r => rw [guarded_of_ok hupd] at he; cases he
      | error e' =>
        rw [guarded_of_error hupd] at he
        cases he
        exact Records.updateAccount_eq_error hfound hupd

end Memory

namespace Relational

variable {s : Relational}

theorem stored_iff (hs : s.tables.Keys) {a : Account} :
    Stored s a ↔ ∃ row ∈ s.tables.accounts, Tables.readAccount s.clock row = a :=
  account?_eq_some_iff hs

theorem forall_stored (hs : s.tables.Keys) {P : Account → Prop} :
    (∀ b, Stored s b → P b) ↔
      ∀ row ∈ s.tables.accounts, P (Tables.readAccount s.clock row) := by
  simp only [stored_iff hs, forall_exists_index, and_imp, forall_apply_eq_imp_iff₂]

theorem account?_isSome (s : Relational) (id : String) :
    (account? s id).isSome = s.tables.hasAccount id := by
  change ((s.tables.accounts.find? (·.id == id)).map _).isSome = _
  rw [Option.isSome_map, List.isSome_find?]
  rfl

theorem guarded_isOk_iff {f : Tables.Statement} :
    (guarded f s).1 = .ok () ↔ ∃ t, f s.tables = .ok t := by
  cases hf : f s.tables with
  | ok t => simp [guarded_of_ok hf]
  | error e => simp [guarded_of_error hf]

theorem find?_row_iff (hs : s.tables.Keys) {κ : Type} {key : Account → κ}
    (hkey : (s.tables.accounts.map key).Nodup) {p : Account → Bool}
    (hp : ∀ a b, p a → p b → key a = key b)
    (hread : ∀ row, p (Tables.readAccount s.clock row) = p row) {a : Account} :
    (s.tables.accounts.find? p).map (Tables.readAccount s.clock) = some a ↔ Stored s a ∧ p a := by
  rw [stored_iff hs, Option.map_eq_some_iff]
  simp only [find?_eq_some_iff_of_key hkey hp]
  constructor
  · rintro ⟨row, ⟨hrow, hprow⟩, rfl⟩
    exact ⟨⟨row, hrow, rfl⟩, (hread row).trans hprow⟩
  · rintro ⟨⟨row, hrow, rfl⟩, hprow⟩
    exact ⟨row, ⟨hrow, (hread row).symm.trans hprow⟩, rfl⟩

theorem checkUnique_eq_ok_iff_rivals (hs : s.tables.Keys) {a : Account} :
    checkUnique Tables.accountIndexes (s.tables.accounts.filter (·.id != a.id)) a = .ok () ↔
      ∀ b, Stored s b → ¬ a.Rivals b := by
  rw [forall_stored hs, Tables.checkUnique_accountIndexes_eq_ok_iff]
  simp only [List.mem_filter, bne_iff_ne, and_imp, Account.not_rivals_iff, ← forall_and]
  rfl

theorem admitting (clock : Time.Instant) :
    Admitting (fun s : Relational => s.tables.Keys ∧ s.clock = clock) Supplied where
  admits {s a} hs hasset hsu hfresh hrivals := by
    have hnew : ∀ b ∈ s.tables.accounts, b.id ≠ a.id :=
      Rows.find?_key_eq_none_iff.mp (Option.map_eq_none_iff.mp hfresh)
    have hall : s.tables.accounts.filter (·.id != a.id) = s.tables.accounts :=
      List.filter_eq_self.mpr fun b hb => bne_iff_ne.mpr (hnew b hb)
    have hunique := (checkUnique_eq_ok_iff_rivals hs.1).mpr hrivals
    rw [hall] at hunique
    refine guarded_isOk_iff.mpr ⟨_, Tables.insertAccount_eq_ok_iff.mpr
      ⟨fun b hb => (hnew b hb).symm, hunique, ?_, fun b hb => .inr ?_, rfl⟩⟩
    · exact Tables.hasAsset_iff.mpr ((asset?_isSome_iff s _).mp hasset)
    · exact (account?_isSome s b).symm.trans (hsu b hb)
  refuses {s a b} hs _ hb hrivals := by
    change ∃ d, (guarded (Tables.insertAccount a) s).1 = _
    have hclash : checkUnique (Tables.accountIndexes ++ [Tables.accountIdIndex]) s.tables.accounts a
        ≠ .ok () := by
      rw [ne_eq, checkUnique_eq_ok_iff, List.forall_mem_append]
      rintro ⟨hfree, -⟩
      refine (checkUnique_eq_ok_iff_rivals hs.1).mp ?_ b hb hrivals
      exact checkUnique_eq_ok_iff.mpr fun i hi r hr => hfree i hi r (List.mem_filter.mp hr).1
    cases hcheck : checkUnique (Tables.accountIndexes ++ [Tables.accountIdIndex])
        s.tables.accounts a with
    | ok _ => exact absurd hcheck hclash
    | error e =>
      obtain ⟨d, rfl⟩ := checkUnique_eq_error hcheck
      have hins : s.tables.insertAccount a = .error (.duplicate d) := by
        rw [Tables.insertAccount, hcheck]
        rfl
      exact ⟨d, congrArg Prod.fst (guarded_of_error hins)⟩

theorem decided (clock : Time.Instant) : Decided (Kept clock) (Tables.readDate clock) where
  bookkeeping := bookkeeping_references clock
  slot {s asset username type a} hs := by
    refine find?_row_iff hs.1.1 hs.1.1.accountSlots (fun a b ha hb => ?_) fun _ => rfl
    simp only [Account.hasSlot_iff] at ha hb
    grind
  name {s asset name a} hs := by
    refine find?_row_iff hs.1.1 hs.1.1.accountNames (fun a b ha hb => ?_) fun _ => rfl
    simp only [Account.hasName_iff] at ha hb
    grind
  insert hs hasset hsu hfresh hrivals := (admitting clock).admits hs.1 hasset hsu hfresh hrivals
  update {s a old} hs hold hasset hsu := by
    obtain ⟨row, hrow, rfl⟩ := Option.map_eq_some_iff.mp hold
    have hholds : ∀ b, a.suFrom = some b → s.tables.hasAccount b = true := by
      intro b hb
      rcases hsu with hkept | hsupplied
      · exact Tables.hasAccount_iff.mpr
          (hs.2.suFrom row (List.mem_of_find?_eq_some hrow) b (hkept.symm.trans hb))
      · exact (account?_isSome s b).symm.trans (hsupplied b hb)
    have hkey : checkUnique Tables.accountIndexes (s.tables.accounts.filter (·.id != a.id))
        { a with assetId := row.assetId, dateCreated := row.dateCreated } = .ok () ↔
        checkUnique Tables.accountIndexes (s.tables.accounts.filter (·.id != a.id)) a = .ok () := by
      simp only [Tables.checkUnique_accountIndexes_eq_ok_iff, hasset]
      rfl
    constructor
    · rw [← checkUnique_eq_ok_iff_rivals hs.1.1, ← hkey]
      refine guarded_isOk_iff.trans ⟨?_, fun hfree => ?_⟩
      · rintro ⟨t, ht⟩
        obtain ⟨row', hrow', hfree, -, -⟩ := Tables.updateAccount_eq_ok_iff.mp ht
        obtain rfl := Option.some.inj (hrow.symm.trans hrow')
        exact hfree
      · exact ⟨_, Tables.updateAccount_eq_ok_iff.mpr ⟨row, hrow, hfree, hholds, rfl⟩⟩
    · intro e he
      change (guarded (Tables.updateAccount a) s).1 = _ at he
      cases hupd : s.tables.updateAccount a with
      | ok t => rw [guarded_of_ok hupd] at he; cases he
      | error e' =>
        rw [guarded_of_error hupd] at he
        cases he
        rw [Tables.updateAccount, hrow] at hupd
        refine checked_eq_error ?_ hupd
        cases hb : a.suFrom with
        | none => rfl
        | some b => exact hholds b hb

end Relational

/-- On every store that holds its constraints a candidate with a new id to spend becomes exactly
what the accounts that meet it and the policy make of it. -/
theorem reconcile_resolved :
    (∀ m : Memory, m.records.Filed → m.records.Unique →
      ∀ (c : Candidate) (policy : Policy) (id : String) (now : Time.Instant), c.Ready id m →
        c.Resolved (fun date => date) policy id now m ∧
        (policy ≠ .update → ∀ d supply,
          ((c.reconcile .nameOrSlot policy id now : Run Memory _) ⟨m, supply⟩).1 ≠
            .error (.duplicate d))) ∧
    ∀ s : Relational, s.tables.Valid →
      ∀ (c : Candidate) (policy : Policy) (id : String) (now : Time.Instant), c.Ready id s →
        c.Resolved (Tables.readDate s.clock) policy id now s ∧
        (policy ≠ .update → ∀ d supply,
          ((c.reconcile .nameOrSlot policy id now : Run Relational _) ⟨s, supply⟩).1 ≠
            .error (.duplicate d)) := by
  refine ⟨fun m hfiled hunique c policy id now hready => ?_, fun s hs c policy id now hready => ?_⟩
  · have h := Candidate.resolved policy now Memory.decided ⟨hfiled, hunique⟩ hready
    exact ⟨h, h.not_duplicate⟩
  · have h := Candidate.resolved policy now (Relational.decided s.clock)
      (Relational.kept_of_valid hs) hready
    exact ⟨h, h.not_duplicate⟩

def slotHolder : Account :=
  ⟨"first", "asset", "old", "root", none, .password, .manual, none, 1, false, true, "", none,
    ⟨0, 0⟩, ⟨0, 0⟩⟩

def nameHolder : Account := { slotHolder with id := "second", name := "root", secretType := .token }

def squeezedCandidate : Candidate :=
  ⟨"asset", "root", "root", .password, some "secret", none, none, none, none, .manual, none⟩

theorem reconcile_resolved_squeezed :
    let m : Memory := renamedCalls.foldl (fun m c => (c.run m).2) (Store.enter Memory.empty)
    let s : Relational := renamedCalls.foldl (fun s c => (c.run s).2)
      (Store.enter (Relational.empty ⟨0, 0⟩))
    (squeezedCandidate.Ready "third" m ∧ squeezedCandidate.Blocked m slotHolder ∧
      ∃ d, ∀ supply, (squeezedCandidate.reconcile .nameOrSlot .update "third" ⟨0, 0⟩ :
        Run Memory _) ⟨m, supply⟩ = (.error (.duplicate d), ⟨m, supply⟩)) ∧
    squeezedCandidate.Ready "third" s ∧ squeezedCandidate.Blocked s slotHolder ∧
      ∀ supply, (squeezedCandidate.reconcile .nameOrSlot .skip "third" ⟨0, 0⟩ :
        Run Relational _) ⟨s, supply⟩ = (.ok (slotHolder, .skipped), ⟨s, supply⟩) := by
  intro m s
  have hm := (Reachable.start : Reachable Memory.empty [] _).enter.calls renamedCalls
  have hs := (Reachable.start : Reachable (Relational.empty ⟨0, 0⟩) [] _).enter.calls renamedCalls
  have hready : squeezedCandidate.Ready "third" m := ⟨rfl, nofun, rfl⟩
  have hready' : squeezedCandidate.Ready "third" s := ⟨rfl, nofun, rfl⟩
  have hfills : squeezedCandidate.Fills slotHolder := rfl
  have hblocked : squeezedCandidate.Blocked m slotHolder :=
    ⟨hfills, nameHolder, rfl, by decide, rfl⟩
  have hblocked' : squeezedCandidate.Blocked s slotHolder :=
    ⟨hfills, nameHolder, rfl, by decide, rfl⟩
  have h := (reconcile_resolved.1 m (filed_of_reachable hm) (sound_of_reachable hm).2
    squeezedCandidate .update "third" ⟨0, 0⟩ hready).1
  have h' := (reconcile_resolved.2 s (Tables.valid_of_reachable hs) squeezedCandidate .skip "third"
    ⟨0, 0⟩ hready').1
  refine ⟨⟨hready, hblocked, ?_⟩, hready', hblocked', ?_⟩
  · exact h.blocked slotHolder ⟨rfl, .inl hfills⟩ rfl hblocked
  · exact h'.skipped slotHolder ⟨rfl, .inl hfills⟩ rfl

end Store

end Custody
