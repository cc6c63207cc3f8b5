import Custody.Proofs.Store.Plots
import Custody.Proofs.Store.Reconcile

/-!
An account that a call has stored has its name and its slot for itself, because the call looked at
all others. So the look-up of a candidate that was reconciled meets the account that came of it, by
its slot even where the first look-up went by a name, and a second rewriting finds nothing to do but
the date.
-/
namespace Custody

theorem Account.hasSlot_elsewhere {a : Account} {asset username : String} {type : SecretType}
    (h : a.assetId ≠ asset) : a.hasSlot asset username type = false :=
  Bool.eq_false_iff.mpr fun hslot => h (Account.hasSlot_iff.mp hslot).1

def Account.updatedAt (a : Account) (now : Time.Instant) : Account := { a with dateUpdated := now }

/-- Of these accounts this one is stored, and no other has its id, its name or its slot. -/
structure Account.Sole (a : Account) (rows : List Account) : Prop where
  mem : a ∈ rows
  alone : ∀ b ∈ rows, b = a ∨ b.id ≠ a.id ∧ ¬ a.Rivals b

namespace Account.Sole

variable {a : Account} {rows : List Account} (h : a.Sole rows)

include h

theorem eq_of_id {b : Account} (hb : b ∈ rows) (hid : b.id = a.id) : b = a :=
  (h.alone b hb).resolve_right fun hother => hother.1 hid

theorem find?_id : rows.find? (·.id == a.id) = some a :=
  (Rows.find?_eq_some_iff fun _ hb _ hc hbid hcid => (h.eq_of_id hb (eq_of_beq hbid)).trans
    (h.eq_of_id hc (eq_of_beq hcid)).symm).mpr ⟨h.mem, beq_self_eq_true a.id⟩

theorem find?_slot :
    rows.find? (·.hasSlot a.assetId a.username a.secretType) = some a := by
  have sole : ∀ b ∈ rows, b.hasSlot a.assetId a.username a.secretType → b = a := by
    intro b hb hslot
    exact (h.alone b hb).resolve_right fun hother => hother.2 ⟨hother.1, .inr hslot⟩
  refine (Rows.find?_eq_some_iff fun b hb c hc hbslot hcslot => ?_).mpr ⟨h.mem, ?_⟩
  · exact (sole b hb hbslot).trans (sole c hc hcslot).symm
  · exact Account.hasSlot_iff.mpr ⟨rfl, rfl, rfl⟩

theorem keys {b : Account} (hb : b ∈ rows) (hid : b.id ≠ a.id) :
    (a.assetId, a.name) ≠ (b.assetId, b.name) ∧
      (a.assetId, a.username, a.secretType) ≠ (b.assetId, b.username, b.secretType) := by
  obtain ⟨-, hrivals⟩ := (h.alone b hb).resolve_left fun heq => hid (congrArg Account.id heq)
  obtain ⟨hname, hslot⟩ := Account.not_rivals_iff.mp hrivals
  exact ⟨hname hid, hslot hid⟩

end Account.Sole

namespace Store

/-- What a successful account call leaves: the account holds its slot and may be written there with
another date, and on other assets every slot has the holder that it had. -/
structure Holder {σ : Type} [Store σ] (dated : Time.Instant → Time.Instant) (s s' : σ)
    (a : Account) : Prop where
  slot : accountBySlot? s' a.assetId a.username a.secretType = some (a.redated dated)
  again : ∀ now, (updateAccount ((a.redated dated).updatedAt now) s').1 = .ok ()
  elsewhere : ∀ asset username type, asset ≠ a.assetId →
    accountBySlot? s' asset username type = accountBySlot? s asset username type

structure Holding {σ : Type} [Store σ] (good : σ → Prop) (dated : Time.Instant → Time.Instant) :
    Prop where
  bookkeeping : Bookkeeping good dated
  name : ∀ {s : σ} {asset name : String} {a : Account}, good s →
    accountByName? s asset name = some a → a.assetId = asset ∧ account? s a.id = some a
  insert : ∀ {s s' : σ} {a : Account}, good s → insertAccount a s = (.ok (), s') →
    Holder dated s s' a
  update : ∀ {s s' : σ} {a old : Account}, good s → account? s a.id = some old →
    a.assetId = old.assetId → a.dateCreated = old.dateCreated →
    updateAccount a s = (.ok (), s') → Holder dated s s' a

namespace Memory

variable {m : Memory} {a : Account}

theorem sole_put (hm : m.records.Filed) (hcheck : Records.checkAccount a m.records = .ok ()) :
    a.Sole (put a m).records.accounts.values := by
  have hmem (b : Account) : b ∈ (put a m).records.accounts.values ↔
      b = a ∨ b ∈ m.records.accounts.values ∧ b.id ≠ a.id := by
    rw [put, (hm.accounts.values_place a).mem_iff, List.mem_cons, List.mem_filter, bne_iff_ne]
  obtain ⟨hname, hslot⟩ := Records.checkAccount_eq_ok_iff_keys.mp hcheck
  refine ⟨(hmem a).mpr (.inl rfl), fun b hb => ((hmem b).mp hb).imp_right fun ⟨hb, hid⟩ => ?_⟩
  exact ⟨hid, Account.not_rivals_iff.mpr ⟨hname b hb, hslot b hb⟩⟩

theorem holder_put (hm : m.records.Filed) (hcheck : Records.checkAccount a m.records = .ok ())
    (hold : ∀ old, account? m a.id = some old → old.assetId = a.assetId) :
    Holder id m (put a m) a where
  slot := (sole_put hm hcheck).find?_slot
  again now := by
    have hsole := sole_put hm hcheck
    have hfound : (put a m).records.accounts.contains a.id = true := by
      rw [Keyed.contains, put, Keyed.get?_place_self]
      rfl
    refine guarded_isOk_iff.mpr ⟨_, Records.updateAccount_eq_ok_iff.mpr ⟨hfound, ?_, rfl⟩⟩
    rw [Records.checkAccount_eq_ok_iff_keys, ← forall₂_and]
    exact fun b hb => ⟨fun hid => (hsole.keys hb hid).1, fun hid => (hsole.keys hb hid).2⟩
  elsewhere asset username type hne :=
    Keyed.find?_place (Account.hasSlot_elsewhere hne.symm) fun old h =>
      Account.hasSlot_elsewhere (hold old h ▸ hne.symm)

theorem holding : Holding (fun m : Memory => m.records.Filed) id where
  bookkeeping := bookkeeping
  name := stored_of_name
  insert {m m' a} hm h := by
    obtain ⟨r, hr, rfl⟩ := eq_ok_of_guarded h
    obtain ⟨hfree, -, hcheck, rfl⟩ := Records.insertAccount_eq_ok_iff.mp hr
    have hnone : account? m a.id = none :=
      Option.isNone_iff_eq_none.mp (Option.isSome_eq_false_iff.mp hfree)
    exact holder_put hm hcheck fun old hold => nomatch hnone.symm.trans hold
  update {m m' a old} hm hold hasset _ h := by
    obtain ⟨r, hr, rfl⟩ := eq_ok_of_guarded h
    obtain ⟨-, hcheck, rfl⟩ := Records.updateAccount_eq_ok_iff.mp hr
    refine holder_put hm hcheck fun old' hold' => ?_
    rw [Option.some.inj (hold'.symm.trans hold), hasset]

end Memory

namespace Tables

variable {t t' : Tables} {a row : Account}

theorem sole_of_insert (h : t.insertAccount a = .ok t') : a.Sole t'.accounts := by
  obtain ⟨hid, hfree, -, -, rfl⟩ := insertAccount_eq_ok_iff.mp h
  obtain ⟨hname, hslot⟩ := checkUnique_accountIndexes_eq_ok_iff.mp hfree
  refine ⟨by simp, fun b hb => ?_⟩
  rcases List.mem_append.mp hb with hb | hb
  · exact .inr ⟨(hid b hb).symm,
      Account.not_rivals_iff.mpr ⟨fun _ => hname b hb, fun _ => hslot b hb⟩⟩
  · exact .inl (List.mem_singleton.mp hb)

theorem sole_of_update (hrow : t.accounts.find? (·.id == a.id) = some row)
    (h : t.updateAccount a = .ok t') :
    { a with assetId := row.assetId, dateCreated := row.dateCreated }.Sole t'.accounts := by
  obtain ⟨row', hrow', hfree, -, rfl⟩ := updateAccount_eq_ok_iff.mp h
  obtain rfl := Option.some.inj (hrow.symm.trans hrow')
  obtain ⟨hname, hslot⟩ := checkUnique_accountIndexes_eq_ok_iff.mp hfree
  have hrowid := List.find?_some (p := fun b : Account => b.id == a.id) hrow
  refine ⟨List.mem_map.mpr ⟨row, List.mem_of_find?_eq_some hrow, if_pos hrowid⟩, fun b hb => ?_⟩
  obtain ⟨c, hc, rfl⟩ := List.mem_map.mp hb
  split
  · exact .inl rfl
  · next hne =>
    have hother : c.id ≠ a.id := fun heq => hne (beq_iff_eq.mpr heq)
    have hmem : c ∈ t.accounts.filter (·.id != a.id) :=
      List.mem_filter.mpr ⟨hc, bne_iff_ne.mpr hother⟩
    exact .inr ⟨hother,
      Account.not_rivals_iff.mpr ⟨fun _ => hname c hmem, fun _ => hslot c hmem⟩⟩

theorem suFrom_of_insert (h : t.insertAccount a = .ok t') {i : String} (hi : a.suFrom = some i) :
    t'.hasAccount i = true := by
  obtain ⟨-, -, -, hsu, rfl⟩ := insertAccount_eq_ok_iff.mp h
  refine hasAccount_iff.mpr ?_
  rcases hsu i hi with rfl | hi
  · exact ⟨a, by simp, rfl⟩
  · obtain ⟨b, hb, hbi⟩ := hasAccount_iff.mp hi
    exact ⟨b, List.mem_append_left _ hb, hbi⟩

theorem suFrom_of_update (h : t.updateAccount a = .ok t') {i : String} (hi : a.suFrom = some i) :
    t'.hasAccount i = true := by
  obtain ⟨row, -, -, hsu, rfl⟩ := updateAccount_eq_ok_iff.mp h
  obtain ⟨b, hb, hbi⟩ := hasAccount_iff.mp (hsu i hi)
  refine hasAccount_iff.mpr ⟨_, List.mem_map_of_mem hb, ?_⟩
  split
  · next heq => exact (eq_of_beq heq).symm.trans hbi
  · exact hbi

end Tables

namespace Relational

variable {s : Relational} {t : Tables} {clock : Time.Instant} {a row : Account}

theorem holder_of_sole (hsole : row.Sole t.accounts)
    (hread : Tables.readAccount s.clock row = a.redated (Tables.readDate clock))
    (hsu : ∀ i, a.suFrom = some i → t.hasAccount i = true)
    (helsewhere : ∀ asset username type, asset ≠ a.assetId →
      t.accounts.find? (·.hasSlot asset username type) =
        s.tables.accounts.find? (·.hasSlot asset username type)) :
    Holder (Tables.readDate clock) s { s with tables := t } a := by
  have hid : row.id = a.id := (congrArg Account.id hread :)
  have hasset : row.assetId = a.assetId := (congrArg Account.assetId hread :)
  have hname : row.name = a.name := (congrArg Account.name hread :)
  have husername : row.username = a.username := (congrArg Account.username hread :)
  have htype : row.secretType = a.secretType := (congrArg Account.secretType hread :)
  constructor
  case slot =>
    have hslot := hsole.find?_slot
    rw [hasset, husername, htype] at hslot
    exact (congrArg (Option.map (Tables.readAccount s.clock)) hslot).trans (congrArg some hread)
  case again =>
    intro now
    have hfound := hsole.find?_id
    rw [hid] at hfound
    refine guarded_isOk_iff.mpr ⟨_, Tables.updateAccount_eq_ok_iff.mpr
      ⟨row, hfound, Tables.checkUnique_accountIndexes_eq_ok_iff.mpr ?_, hsu, rfl⟩⟩
    rw [← forall₂_and]
    intro b hb
    obtain ⟨hb, hne⟩ := List.mem_filter.mp hb
    have hfree := hsole.keys hb (hid ▸ bne_iff_ne.mp hne)
    rwa [hname, husername, htype] at hfree
  case elsewhere =>
    intro asset username type hne
    exact congrArg (Option.map (Tables.readAccount s.clock)) (helsewhere asset username type hne)

theorem holding (clock : Time.Instant) :
    Holding (fun s : Relational => s.tables.Keys ∧ s.clock = clock) (Tables.readDate clock) where
  bookkeeping := bookkeeping clock
  name hs := stored_of_name hs.1
  insert {s s' a} hs h := by
    obtain ⟨t, ht, rfl⟩ := eq_ok_of_guarded h
    refine holder_of_sole (Tables.sole_of_insert ht) (hs.2 ▸ rfl)
      (fun i hi => Tables.suFrom_of_insert ht hi) fun asset username type hne => ?_
    obtain ⟨-, -, -, -, rfl⟩ := Tables.insertAccount_eq_ok_iff.mp ht
    rw [List.find?_append, List.find?_cons, Account.hasSlot_elsewhere hne.symm, List.find?_nil,
      Option.or_none]
  update {s s' a old} hs hold hasset hdate h := by
    obtain ⟨t, ht, rfl⟩ := eq_ok_of_guarded h
    obtain ⟨row, hrow, rfl⟩ := Option.map_eq_some_iff.mp hold
    have hasset : row.assetId = a.assetId := hasset.symm
    have hread : Tables.readDate s.clock row.dateCreated = a.dateCreated := hdate.symm
    refine holder_of_sole (Tables.sole_of_update hrow ht) ?_
      (fun i hi => Tables.suFrom_of_update ht hi) fun asset username type hne => ?_
    · simp only [Tables.readAccount, Account.redated, hasset, ← hread, hs.2,
        Tables.readDate_readDate]
    · obtain ⟨row', hrow', -, -, rfl⟩ := Tables.updateAccount_eq_ok_iff.mp ht
      obtain rfl := Option.some.inj (hrow.symm.trans hrow')
      refine Rows.find?_map_of_passed fun b hb => ?_
      split
      · next hid =>
        obtain rfl : row = b := Option.some.inj (hrow.symm.trans
          ((Rows.find?_key_eq_some_iff hs.1.accountIds).mpr ⟨hb, eq_of_beq hid⟩))
        have hother : row.assetId ≠ asset := hasset ▸ hne.symm
        exact .inr ⟨Account.hasSlot_elsewhere hother, Account.hasSlot_elsewhere hother⟩
      · exact .inl rfl

end Relational

end Store

end Custody
