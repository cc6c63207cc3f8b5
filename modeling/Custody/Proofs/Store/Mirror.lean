import Custody.Proofs.Store.Accounts
import Custody.Proofs.Store.Reading

/-!
Records in memory and tables that hold the same. Every look-up finds the same in both, and every
call that does to one what it does to the other, or is refused by both, keeps them alike. Ids that
were given out before are spent; a new record comes with one that is not.
-/
namespace Custody.Store

namespace Tables

def ids (t : Tables) : List String :=
  t.platforms.map (·.id) ++ t.assets.map (·.id) ++ t.nodes.map (·.id) ++ t.templates.map (·.id) ++
    t.accounts.map (·.id)

theorem mem_ids {t : Tables} {id : String} : id ∈ t.ids ↔
    (∃ p ∈ t.platforms, p.id = id) ∨ (∃ a ∈ t.assets, a.id = id) ∨ (∃ n ∈ t.nodes, n.id = id) ∨
      (∃ u ∈ t.templates, u.id = id) ∨ ∃ a ∈ t.accounts, a.id = id := by
  simp only [ids, List.mem_append, List.mem_map, or_assoc]

theorem Keys.find?_name {t : Tables} (h : t.Keys) {rows : List Account}
    (hperm : rows.Perm t.accounts) (asset name : String) :
    rows.find? (·.hasName asset name) = t.accounts.find? (·.hasName asset name) := by
  refine (Rows.find?_perm hperm.symm fun a ha b hb hna hnb => ?_).symm
  simp only [Account.hasName, Bool.and_eq_true, beq_iff_eq] at hna hnb
  exact Rows.eq_of_key_eq h.accountNames ha hb (by rw [hna.1, hna.2, hnb.1, hnb.2])

theorem Keys.find?_slot {t : Tables} (h : t.Keys) {rows : List Account}
    (hperm : rows.Perm t.accounts) (asset username : String) (type : SecretType) :
    rows.find? (·.hasSlot asset username type) =
      t.accounts.find? (·.hasSlot asset username type) := by
  refine (Rows.find?_perm hperm.symm fun a ha b hb hsa hsb => ?_).symm
  obtain ⟨hasset, huser, htype⟩ := Account.hasSlot_iff.mp hsa
  obtain ⟨hasset', huser', htype'⟩ := Account.hasSlot_iff.mp hsb
  refine Rows.eq_of_key_eq h.accountSlots ha hb ?_
  rw [hasset, huser, htype, hasset', huser', htype']

end Tables

/-- The records are those of the tables, whose dates survive being read; an account switches only
from another one of its asset. -/
structure Mirror (spent : String → Prop) (clock : Time.Instant) (r : Records) (t : Tables) :
    Prop where
  filed : r.Filed
  valid : t.Valid
  platforms : r.platforms.values.Perm (t.platforms.map (Tables.readPlatform clock t))
  assets : r.assets.values.Perm (t.assets.map (Tables.readAsset clock t))
  nodes : r.nodes.values.Perm t.nodes
  templates : r.templates.values.Perm t.templates
  accounts : r.accounts.values.Perm t.accounts
  templateDates : ∀ u ∈ t.templates, Tables.readTemplate clock u = u
  accountDates : ∀ a ∈ t.accounts, Tables.readAccount clock a = a
  suFrom : ∀ a ∈ t.accounts, ∀ s, a.suFrom = some s →
    ∃ b ∈ t.accounts, b.id = s ∧ b.assetId = a.assetId
  spent : ∀ id ∈ t.ids, spent id

namespace Mirror

variable {spent spent' : String → Prop} {clock : Time.Instant} {r : Records} {t : Tables}

theorem empty : Mirror spent clock .empty .empty where
  filed := .empty
  valid := .empty
  platforms := .refl _
  assets := .refl _
  nodes := .refl _
  templates := .refl _
  accounts := .refl _
  templateDates := by simp [Tables.empty]
  accountDates := by simp [Tables.empty]
  suFrom := by simp [Tables.empty]
  spent := by simp [Tables.empty, Tables.ids]

theorem mono (h : Mirror spent clock r t) (hs : ∀ id, spent id → spent' id) :
    Mirror spent' clock r t :=
  { h with spent := fun id hid => hs id (h.spent id hid) }

section Lookups

theorem get?_eq_find? {α ρ : Type} {ident : α → String} {key : ρ → String} {o : Keyed α}
    {rows : List ρ} {read : ρ → α} (ho : o.Filed ident) (hperm : o.values.Perm (rows.map read))
    (hread : ∀ row, ident (read row) = key row) (k : String) :
    o.get? k = (rows.find? (key · == k)).map read := by
  rw [ho.get?_eq_find?, Rows.find?_key_perm ho.nodup hperm, List.find?_map]
  simp only [Function.comp_def, hread]

theorem contains_eq_any {α ρ : Type} {ident : α → String} {key : ρ → String} {o : Keyed α}
    {rows : List ρ} (read : ρ → α) (ho : o.Filed ident) (hperm : o.values.Perm (rows.map read))
    (hread : ∀ row, ident (read row) = key row) (k : String) :
    o.contains k = rows.any (key · == k) := by
  rw [Keyed.contains, get?_eq_find? ho hperm hread, Option.isSome_map, List.isSome_find?]

theorem map_read_eq {ρ : Type} {rows : List ρ} {read : ρ → ρ} (h : ∀ a ∈ rows, read a = a) :
    rows.map read = rows :=
  (List.map_congr_left h).trans (List.map_id rows)

theorem find?_map_read {ρ : Type} {rows : List ρ} {read : ρ → ρ} (h : ∀ a ∈ rows, read a = a)
    (p : ρ → Bool) : (rows.find? p).map read = rows.find? p := by
  cases hf : rows.find? p with
  | none => rfl
  | some a => exact congrArg some (h a (List.mem_of_find?_eq_some hf))

variable (h : Mirror spent clock r t)

include h

theorem platform? (id : String) : r.platforms.get? id =
    (t.platforms.find? (·.id == id)).map (Tables.readPlatform clock t) :=
  get?_eq_find? h.filed.platforms h.platforms (fun _ => rfl) id

theorem asset? (id : String) : r.assets.get? id =
    (t.assets.find? (·.id == id)).map (Tables.readAsset clock t) :=
  get?_eq_find? h.filed.assets h.assets (fun _ => rfl) id

theorem node? (fullValue : String) : r.node? fullValue =
    t.nodes.find? (·.fullValue == fullValue) :=
  (Rows.find?_key_perm h.valid.keys.nodePaths h.nodes.symm fullValue).symm

theorem template? (id : String) : r.templates.get? id =
    (t.templates.find? (·.id == id)).map (Tables.readTemplate clock) :=
  get?_eq_find? h.filed.templates (by rw [map_read_eq h.templateDates]; exact h.templates)
    (fun _ => rfl) id

theorem account? (id : String) : r.accounts.get? id =
    (t.accounts.find? (·.id == id)).map (Tables.readAccount clock) :=
  get?_eq_find? h.filed.accounts (by rw [map_read_eq h.accountDates]; exact h.accounts)
    (fun _ => rfl) id

theorem accountByName? (asset name : String) : r.accounts.values.find? (·.hasName asset name) =
    (t.accounts.find? (·.hasName asset name)).map (Tables.readAccount clock) := by
  rw [find?_map_read h.accountDates]
  exact h.valid.keys.find?_name h.accounts asset name

theorem accountBySlot? (asset username : String) (type : SecretType) :
    r.accounts.values.find? (·.hasSlot asset username type) =
      (t.accounts.find? (·.hasSlot asset username type)).map (Tables.readAccount clock) := by
  rw [find?_map_read h.accountDates]
  exact h.valid.keys.find?_slot h.accounts asset username type

theorem contains_platform (id : String) : r.platforms.contains id = t.hasPlatform id :=
  contains_eq_any _ h.filed.platforms h.platforms (fun _ => rfl) id

theorem contains_asset (id : String) : r.assets.contains id = t.hasAsset id :=
  contains_eq_any _ h.filed.assets h.assets (fun _ => rfl) id

theorem contains_template (id : String) :
    r.templates.contains id = t.templates.any (·.id == id) :=
  contains_eq_any (Tables.readTemplate clock) h.filed.templates
    (by rw [map_read_eq h.templateDates]; exact h.templates) (fun _ => rfl) id

theorem contains_account (id : String) : r.accounts.contains id = t.hasAccount id :=
  contains_eq_any (Tables.readAccount clock) h.filed.accounts
    (by rw [map_read_eq h.accountDates]; exact h.accounts) (fun _ => rfl) id

end Lookups

end Mirror

end Custody.Store
