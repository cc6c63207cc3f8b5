import Custody.Account.Candidate
import Custody.Proofs.Both
import Custody.Proofs.Store.Writes

/-!
Two worlds that differ only in how their stores are built. Every look-up gives the same in both.
Draws that were made and not yet used are reserved: their ids are still free.
-/
namespace Custody

/-- Draws whose ids never come twice and whose times survive being stored, as those of the years 0
to 9999 do. -/
structure Genuine (draws : Nat → Draw) (clock : Time.Instant) : Prop where
  id_inj : ∀ m n, (draws m).id = (draws n).id → m = n
  spare_inj : ∀ m n, (draws m).spare = (draws n).spare → m = n
  id_ne_spare : ∀ m n, (draws m).id ≠ (draws n).spare
  now : ∀ n, Store.Tables.readDate clock (draws n).now = (draws n).now

def Draw.Gives (d : Draw) (id : String) : Prop := id = d.id ∨ id = d.spare

theorem Genuine.eq_of_gives {draws : Nat → Draw} {clock : Time.Instant} (h : Genuine draws clock)
    {m n : Nat} {id : String} (hm : (draws m).Gives id) (hn : (draws n).Gives id) : m = n := by
  rcases hm with rfl | rfl
  · exact hn.elim (h.id_inj m n) fun heq => absurd heq (h.id_ne_spare m n)
  · exact hn.elim (fun heq => absurd heq.symm (h.id_ne_spare n m)) (h.spare_inj m n)

namespace Store

def Spent (draws : Nat → Draw) (used : Nat) (reserved : List Nat) (id : String) : Prop :=
  ∃ n < used, n ∉ reserved ∧ (draws n).Gives id

structure Related (draws : Nat → Draw) (clock : Time.Instant) (reserved : List Nat)
    (w : World Memory) (v : World Relational) : Prop where
  genuine : Genuine draws clock
  supply : w.supply = v.supply
  source : w.supply.draws = draws
  reading : v.store.clock = clock
  nodup : reserved.Nodup
  below : ∀ n ∈ reserved, n < w.supply.used
  mirror : Mirror (Spent draws w.supply.used reserved) clock w.store.records v.store.tables

variable {draws : Nat → Draw} {clock : Time.Instant} {reserved : List Nat} {n : Nat}
  {w : World Memory} {v : World Relational}

theorem Related.empty {supply : Supply} (h : Genuine supply.draws clock) :
    Related supply.draws clock [] ⟨Memory.empty, supply⟩ ⟨Relational.empty clock, supply⟩ where
  genuine := h
  supply := rfl
  source := rfl
  reading := rfl
  nodup := .nil
  below := nofun
  mirror := .empty

theorem Relational.hasPlatform_of_platform? {s : Relational} {id : String} {p : Platform}
    (hp : Store.platform? s id = some p) : s.tables.hasPlatform p.id = true := by
  obtain ⟨row, hrow, rfl⟩ := Option.map_eq_some_iff.mp hp
  exact Tables.hasPlatform_iff.mpr ⟨row, List.mem_of_find?_eq_some hrow, rfl⟩

theorem Relational.hasAsset_of_asset? {s : Relational} {id : String} {a : Asset}
    (ha : Store.asset? s id = some a) : s.tables.hasAsset a.id = true ∧ a.id = id := by
  obtain ⟨row, hrow, rfl⟩ := Option.map_eq_some_iff.mp ha
  have hid := List.find?_some (p := fun b : AssetRow => b.id == id) hrow
  exact ⟨Tables.hasAsset_iff.mpr ⟨row, List.mem_of_find?_eq_some hrow, rfl⟩, eq_of_beq hid⟩

namespace Related

section Lookups

variable (h : Related draws clock reserved w v)

include h

theorem platform? (id : String) : Store.platform? w.store id = Store.platform? v.store id := by
  have hid := h.mirror.platform? id
  rw [← h.reading] at hid
  exact hid

theorem asset? (id : String) : Store.asset? w.store id = Store.asset? v.store id := by
  have hid := h.mirror.asset? id
  rw [← h.reading] at hid
  exact hid

theorem node? (path : String) : Store.node? w.store path = Store.node? v.store path :=
  h.mirror.node? path

theorem template? (id : String) : Store.template? w.store id = Store.template? v.store id := by
  have hid := h.mirror.template? id
  rw [← h.reading] at hid
  exact hid

theorem account? (id : String) : Store.account? w.store id = Store.account? v.store id := by
  have hid := h.mirror.account? id
  rw [← h.reading] at hid
  exact hid

theorem accountByName? (asset name : String) :
    Store.accountByName? w.store asset name = Store.accountByName? v.store asset name := by
  have hname := h.mirror.accountByName? asset name
  rw [← h.reading] at hname
  exact hname

theorem accountBySlot? (asset username : String) (type : SecretType) :
    Store.accountBySlot? w.store asset username type =
      Store.accountBySlot? v.store asset username type := by
  have hslot := h.mirror.accountBySlot? asset username type
  rw [← h.reading] at hslot
  exact hslot

theorem choose (explicit : Option String) (fallback asset : String) (current : Option Account)
    (token : String) : Naming.choose explicit fallback asset current token w.store =
      Naming.choose explicit fallback asset current token v.store := by
  unfold Naming.choose
  rw [h.accountByName?]

theorem existing? (c : Candidate) (lookup : Lookup) :
    c.existing? lookup w.store = c.existing? lookup v.store := by
  unfold Candidate.existing?
  rw [h.accountBySlot?]
  cases lookup with
  | slot => rfl
  | nameOrSlot => rw [h.accountByName?]

theorem mem_of_find?_account {p : Account → Bool} {a : Account}
    (ha : (v.store.tables.accounts.find? p).map (Tables.readAccount v.store.clock) = some a) :
    a ∈ v.store.tables.accounts ∧ p a = true := by
  obtain ⟨row, hrow, rfl⟩ := Option.map_eq_some_iff.mp ha
  have hmem := List.mem_of_find?_eq_some hrow
  rw [h.reading, h.mirror.accountDates row hmem]
  exact ⟨hmem, List.find?_some hrow⟩

theorem mem_of_existing? {c : Candidate} {lookup : Lookup} {a : Account}
    (ha : c.existing? lookup v.store = some a) :
    a ∈ v.store.tables.accounts ∧ a.assetId = c.assetId := by
  unfold Candidate.existing? at ha
  split at ha
  · next hslot =>
    cases ha
    obtain ⟨hmem, hslot⟩ := h.mem_of_find?_account hslot
    exact ⟨hmem, (Account.hasSlot_iff.mp hslot).1⟩
  · cases lookup with
    | slot => cases ha
    | nameOrSlot =>
      obtain ⟨hmem, hname⟩ := h.mem_of_find?_account ha
      exact ⟨hmem, eq_of_beq ((Bool.and_eq_true _ _).mp hname).1⟩

end Lookups

theorem sublist {kept : List Nat} (h : Related draws clock reserved w v)
    (hkept : kept.Sublist reserved) : Related draws clock kept w v :=
  { h with
    nodup := h.nodup.sublist hkept
    below := fun n hn => h.below n (hkept.mem hn)
    mirror := h.mirror.mono fun _ ⟨n, hn, hfree, hid⟩ =>
      ⟨n, hn, fun hmem => hfree (hkept.mem hmem), hid⟩ }

theorem settled (h : Related draws clock reserved w v) : Related draws clock [] w v :=
  h.sublist (List.nil_sublist _)

theorem draw (h : Related draws clock reserved w v) :
    Related draws clock (w.supply.used :: reserved)
      { w with supply := { w.supply with used := w.supply.used + 1 } }
      { v with supply := { v.supply with used := v.supply.used + 1 } } where
  genuine := h.genuine
  supply := by simp only [h.supply]
  source := h.source
  reading := h.reading
  nodup := List.nodup_cons.mpr ⟨fun hmem => Nat.lt_irrefl _ (h.below _ hmem), h.nodup⟩
  below := List.forall_mem_cons.mpr
    ⟨Nat.lt_succ_self _, fun n hn => Nat.lt_succ_of_lt (h.below n hn)⟩
  mirror := h.mirror.mono fun _ ⟨n, hn, hfree, hid⟩ =>
    ⟨n, Nat.lt_succ_of_lt hn, by simp [hfree, Nat.ne_of_lt hn], hid⟩

theorem drawAhead (h : Related draws clock [] w v) (k : Nat) :
    Related draws clock (List.range' w.supply.used k)
      { w with supply := { w.supply with used := w.supply.used + k } }
      { v with supply := { v.supply with used := v.supply.used + k } } where
  genuine := h.genuine
  supply := by simp only [h.supply]
  source := h.source
  reading := h.reading
  nodup := List.nodup_range'
  below n hn := by
    have := List.mem_range'_1.mp hn
    dsimp only
    omega
  mirror := h.mirror.mono fun _ ⟨n, hn, _, hid⟩ => by
    refine ⟨n, by dsimp only; omega, fun hmem => ?_, hid⟩
    have := List.mem_range'_1.mp hmem
    omega

theorem not_spent (h : Related draws clock reserved w v) (hn : n ∈ reserved) {id : String}
    (hid : (draws n).Gives id) : ¬ Spent draws w.supply.used reserved id := by
  rintro ⟨m, _, hfree, hm⟩
  exact hfree (h.genuine.eq_of_gives hm hid ▸ hn)

theorem spend (h : Related draws clock (n :: reserved) w v) {id : String}
    (hid : (draws n).Gives id) {r : Records} {t : Tables}
    (hm : Mirror (fun i => Spent draws w.supply.used (n :: reserved) i ∨ i = id) clock r t) :
    Related draws clock reserved { w with store := { w.store with records := r } }
      { v with store := { v.store with tables := t } } :=
  { h.sublist (List.sublist_cons_self n reserved) with
    mirror := hm.mono fun i hi => by
      rcases hi with ⟨m, hlt, hfree, hm⟩ | rfl
      · exact ⟨m, hlt, fun hmem => hfree (.tail n hmem), hm⟩
      · exact ⟨n, h.below n (.head _), (List.nodup_cons.mp h.nodup).1, hid⟩ }

theorem keep (h : Related draws clock reserved w v) {r : Records} {t : Tables}
    (hm : Mirror (Spent draws w.supply.used reserved) clock r t) :
    Related draws clock reserved { w with store := { w.store with records := r } }
      { v with store := { v.store with tables := t } } :=
  { h with mirror := hm }

end Related

end Store

end Custody
