import Custody.Asset
import Custody.Proofs.Rows

/-!
Lists in the order of a comparison. A sorted list without repeats is known by its members, so it
does not matter in which way it was sorted and freed of repeats.
-/
namespace Custody

variable {α : Type}

structure LinearLe (le : α → α → Bool) : Prop where
  trans : ∀ a b c, le a b = true → le b c = true → le a c = true
  total : ∀ a b, (le a b || le b a) = true
  antisymm : ∀ a b, le a b = true → le b a = true → a = b

theorem linear_text : LinearLe fun a b : String => decide (a ≤ b) where
  trans a b c hab hbc := by
    rw [decide_eq_true_iff] at hab hbc ⊢
    exact String.le_trans hab hbc
  total a b := by
    rw [Bool.or_eq_true, decide_eq_true_iff, decide_eq_true_iff]
    exact String.le_total a b
  antisymm a b hab hba :=
    String.le_antisymm (of_decide_eq_true hab) (of_decide_eq_true hba)

theorem Label.le_iff (a b : Label) :
    a.le b = true ↔ a.name < b.name ∨ a.name = b.name ∧ a.value ≤ b.value := by
  simp [Label.le]

theorem linear_label : LinearLe Label.le where
  trans a b c hab hbc := by
    rw [Label.le_iff] at hab hbc ⊢
    rcases hab with hab | ⟨hab, hab'⟩
    · rcases hbc with hbc | ⟨hbc, _⟩
      · exact .inl (String.lt_trans hab hbc)
      · exact .inl (hbc ▸ hab)
    · rcases hbc with hbc | ⟨hbc, hbc'⟩
      · exact .inl (hab ▸ hbc)
      · exact .inr ⟨hab.trans hbc, String.le_trans hab' hbc'⟩
  total a b := by
    rw [Bool.or_eq_true, Label.le_iff, Label.le_iff]
    by_cases h : a.name = b.name
    · rcases String.le_total a.value b.value with hv | hv
      · exact .inl (.inr ⟨h, hv⟩)
      · exact .inr (.inr ⟨h.symm, hv⟩)
    · rcases String.le_total a.name b.name with hn | hn
      · exact .inl (.inl (Std.lt_of_le_of_ne hn h))
      · exact .inr (.inl (Std.lt_of_le_of_ne hn (Ne.symm h)))
  antisymm a b hab hba := by
    obtain ⟨name, value⟩ := a
    obtain ⟨name', value'⟩ := b
    rw [Label.le_iff] at hab hba
    rcases hab with hab | ⟨hab, hab'⟩
    · rcases hba with hba | ⟨hba, _⟩
      · exact absurd (String.lt_trans hab hba) (String.lt_irrefl _)
      · exact absurd (hba ▸ hab) (String.lt_irrefl _)
    · rcases hba with hba | ⟨_, hba'⟩
      · exact absurd (hab ▸ hba) (String.lt_irrefl _)
      · obtain rfl : name = name' := hab
        obtain rfl : value = value' := String.le_antisymm hab' hba'
        rfl

theorem dropRepeats_sublist [BEq α] (l : List α) : (dropRepeats l).Sublist l := by
  fun_induction dropRepeats l with
  | case1 => exact .slnil
  | case2 a => exact .refl _
  | case3 a b rest _ ih => exact .cons a ih
  | case4 a b rest _ ih => exact .cons_cons a ih

theorem mem_dropRepeats [BEq α] [LawfulBEq α] {l : List α} {x : α} :
    x ∈ dropRepeats l ↔ x ∈ l := by
  fun_induction dropRepeats l with
  | case1 => rfl
  | case2 a => rfl
  | case3 a b rest hab ih =>
    rw [ih, eq_of_beq hab]
    simp
  | case4 a b rest _ ih => rw [List.mem_cons, ih, ← List.mem_cons]

namespace LinearLe

variable {le : α → α → Bool} {l l' : List α}

theorem eq_of_mem_iff (h : LinearLe le) (hs : l.Pairwise fun a b => le a b = true)
    (hs' : l'.Pairwise fun a b => le a b = true) (hn : l.Nodup) (hn' : l'.Nodup)
    (hm : ∀ a, a ∈ l ↔ a ∈ l') : l = l' :=
  List.Perm.eq_of_pairwise (fun a b _ _ => h.antisymm a b) hs hs'
    ((List.perm_ext_iff_of_nodup hn hn').mpr hm)

theorem nodup_dropRepeats [BEq α] [LawfulBEq α] (h : LinearLe le)
    (hs : l.Pairwise fun a b => le a b = true) : (dropRepeats l).Nodup := by
  fun_induction dropRepeats l with
  | case1 => exact .nil
  | case2 a => simp
  | case3 a b rest _ ih => exact ih hs.tail
  | case4 a b rest hab ih =>
    refine List.nodup_cons.mpr ⟨fun hmem => hab ?_, ih hs.tail⟩
    obtain ⟨ha, hrest⟩ := List.pairwise_cons.mp hs
    rcases List.mem_cons.mp (mem_dropRepeats.mp hmem) with rfl | hmem
    · exact beq_self_eq_true a
    · have hba := (List.pairwise_cons.mp hrest).1 a hmem
      exact beq_iff_eq.mpr (h.antisymm a b (ha b (.head rest)) hba)

theorem eq_dropRepeats_mergeSort [BEq α] [LawfulBEq α] (h : LinearLe le)
    (hs : l.Pairwise fun a b => le a b = true) (hn : l.Nodup) (hm : ∀ a, a ∈ l ↔ a ∈ l') :
    l = dropRepeats (l'.mergeSort le) := by
  have hs' := List.pairwise_mergeSort h.trans h.total l'
  refine h.eq_of_mem_iff hs (hs'.sublist (dropRepeats_sublist _)) hn (h.nodup_dropRepeats hs') ?_
  intro a
  rw [hm, mem_dropRepeats, List.mem_mergeSort]

theorem pairwise_dropRepeats [BEq α] [LawfulBEq α] (h : LinearLe le) (l : List α) :
    (dropRepeats (l.mergeSort le)).Pairwise fun a b => le a b = true ∧ a ≠ b :=
  have hs := List.pairwise_mergeSort h.trans h.total l
  (hs.sublist (dropRepeats_sublist _)).and (h.nodup_dropRepeats hs)

/-! Values read from rows, both listed in the order of a key. -/
section Listing

variable {ρ κ : Type} {le : κ → κ → Bool} {name : α → κ} {key : ρ → κ} {read : ρ → α}
  {values : List α} {rows : List ρ}

theorem sorted (h : LinearLe le) (name : α → κ) (values : List α) :
    (values.mergeSort fun a b => le (name a) (name b)).Pairwise
      fun a b => le (name a) (name b) = true :=
  List.pairwise_mergeSort (fun a b c => h.trans (name a) (name b) (name c))
    (fun a b => h.total (name a) (name b)) values

theorem sorted_rows (h : LinearLe le) (hread : ∀ row, name (read row) = key row)
    (rows : List ρ) : ((rows.mergeSort fun a b => le (key a) (key b)).map read).Pairwise
      fun a b => le (name a) (name b) = true := by
  refine List.pairwise_map.mpr ((h.sorted key rows).imp fun {a b} hab => ?_)
  rw [hread, hread]
  exact hab

theorem listing_perm (hperm : values.Perm (rows.map read)) (le : α → α → Bool)
    (le' : ρ → ρ → Bool) : (values.mergeSort le).Perm ((rows.mergeSort le').map read) :=
  (List.mergeSort_perm values le).trans
    (hperm.trans ((List.mergeSort_perm rows le').map read).symm)

theorem listing_keys (h : LinearLe le) (hread : ∀ row, name (read row) = key row)
    (hperm : values.Perm (rows.map read)) :
    (values.mergeSort fun a b => le (name a) (name b)).map name =
      ((rows.mergeSort fun a b => le (key a) (key b)).map read).map name :=
  List.Perm.eq_of_pairwise (fun a b _ _ => h.antisymm a b)
    (List.pairwise_map.mpr (h.sorted name values))
    (List.pairwise_map.mpr (h.sorted_rows hread rows)) ((listing_perm hperm _ _).map name)

theorem listing_eq (h : LinearLe le) (name : α → κ) (hread : ∀ row, name (read row) = key row)
    (hperm : values.Perm (rows.map read)) (hnodup : (rows.map key).Nodup) :
    (values.mergeSort fun a b => le (name a) (name b)) =
      (rows.mergeSort fun a b => le (key a) (key b)).map read := by
  have hnames : (values.map name).Nodup := by
    rw [(hperm.map name).nodup_iff, List.map_map]
    simpa only [Function.comp_def, hread] using hnodup
  have hlist := listing_perm hperm (fun a b => le (name a) (name b)) fun a b => le (key a) (key b)
  refine List.Perm.eq_of_pairwise (fun a b ha hb hab hba => ?_) (h.sorted name values)
    (h.sorted_rows hread rows) hlist
  have hb := hlist.mem_iff.mpr hb
  exact Rows.eq_of_key_eq hnames (List.mem_mergeSort.mp ha) (List.mem_mergeSort.mp hb)
    (h.antisymm _ _ hab hba)

end Listing

end LinearLe

end Custody
