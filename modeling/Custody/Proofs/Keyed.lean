import Custody.Keyed
import Custody.Proofs.Rows

/-!
Keyed lists as maps. In a filed list the keys rise and every value stands under its own id; there
placing and looking up are facts about the values alone.
-/
namespace Custody.Keyed

variable {α : Type} {ident : α → String} {o : Keyed α}

structure Filed (ident : α → String) (o : Keyed α) : Prop where
  sorted : o.Pairwise fun m n => m.1 < n.1
  own : ∀ m ∈ o, m.1 = ident m.2

theorem Filed.nil : Filed ident [] := ⟨.nil, nofun⟩

theorem Filed.tail {m : String × α} (h : Filed ident (m :: o)) : Filed ident o :=
  ⟨h.sorted.tail, fun n hn => h.own n (.tail m hn)⟩

theorem Filed.filter (h : Filed ident o) (p : String × α → Bool) : Filed ident (o.filter p) :=
  ⟨h.sorted.filter p, fun m hm => h.own m (List.mem_filter.mp hm).1⟩

theorem mem_place {m : String × α} {key : String} {value : α} (h : m ∈ place o key value) :
    m = (key, value) ∨ m ∈ o := by
  induction o with
  | nil => exact .inl (List.mem_singleton.mp h)
  | cons n rest ih =>
    unfold place at h
    split at h
    · exact (List.mem_cons.mp h).imp_right (.tail n)
    · split at h
      · exact List.mem_cons.mp h
      · rcases List.mem_cons.mp h with rfl | h
        · exact .inr (.head rest)
        · exact (ih h).imp_right (.tail n)

theorem sorted_place (ho : o.Pairwise fun m n => m.1 < n.1) (key : String) (value : α) :
    (o.place key value).Pairwise fun m n => m.1 < n.1 := by
  induction o with
  | nil => exact List.pairwise_singleton _ _
  | cons n rest ih =>
    obtain ⟨hn, hrest⟩ := List.pairwise_cons.mp ho
    unfold Keyed.place
    split
    · next hk => exact List.pairwise_cons.mpr ⟨hk ▸ hn, hrest⟩
    · split
      · next hlt =>
        refine List.pairwise_cons.mpr ⟨fun m hm => ?_, ho⟩
        rcases List.mem_cons.mp hm with rfl | hm
        · exact hlt
        · exact String.lt_trans hlt (hn m hm)
      · next hne hnlt =>
        refine List.pairwise_cons.mpr ⟨fun m hm => ?_, ih hrest⟩
        rcases mem_place hm with rfl | hm
        · exact Std.lt_of_le_of_ne (String.not_lt.mp hnlt) hne
        · exact hn m hm

theorem mem_of_get? {key : String} {a : α} (h : o.get? key = some a) : (key, a) ∈ o := by
  induction o with
  | nil => cases h
  | cons m rest ih =>
    rw [get?_cons] at h
    split at h
    · next hkey =>
      cases h
      exact hkey ▸ .head rest
    · exact .tail m (ih h)

theorem get?_of_mem {key : String} {a : α} (hkeys : (o.map (·.1)).Nodup) (h : (key, a) ∈ o) :
    o.get? key = some a := by
  induction o with
  | nil => cases h
  | cons m rest ih =>
    obtain ⟨hm, hrest⟩ := List.nodup_cons.mp hkeys
    obtain ⟨k, v⟩ := m
    rw [get?_cons]
    split
    · next hk =>
      rcases List.mem_cons.mp h with heq | hmem
      · rw [(Prod.mk.inj heq).2]
      · exact absurd (List.mem_map_of_mem (f := (·.1)) hmem) (hk ▸ hm)
    · next hk =>
      exact ih hrest ((List.mem_cons.mp h).resolve_left fun heq => hk (Prod.mk.inj heq).1)

theorem Filed.place (h : Filed ident o) (a : α) : Filed ident (o.place (ident a) a) := by
  refine ⟨sorted_place h.sorted _ _, fun m hm => ?_⟩
  rcases mem_place hm with rfl | hm
  · rfl
  · exact h.own m hm

theorem Filed.erase (h : Filed ident o) (key : String) : Filed ident (o.erase key) := h.filter _

theorem erase_of_contains_eq_false {key : String} (h : o.contains key = false) :
    o.erase key = o := by
  induction o with
  | nil => rfl
  | cons m rest ih =>
    obtain ⟨k, a⟩ := m
    rw [contains, get?_cons] at h
    split at h
    · cases h
    · next hk =>
      have hkeep : decide (k ≠ key) = true := decide_eq_true (Ne.symm hk)
      rw [Keyed.erase, List.filter_cons, if_pos hkeep]
      exact congrArg _ (ih h)

theorem Filed.map_ident_values (h : Filed ident o) : o.values.map ident = o.map (·.1) := by
  rw [values, List.map_map]
  exact List.map_congr_left fun m hm => (h.own m hm).symm

theorem Filed.nodup (h : Filed ident o) : (o.values.map ident).Nodup := by
  rw [h.map_ident_values, List.nodup_iff_pairwise_ne, List.pairwise_map]
  exact h.sorted.imp Std.ne_of_lt

theorem values_filter (o : Keyed α) (p : α → Bool) :
    values (o.filter fun m => p m.2) = o.values.filter p := by
  rw [values, values, List.filter_map]
  rfl

theorem decide_ne (k l : String) : decide (k ≠ l) = (k != l) := by
  by_cases h : k = l <;> simp [h]

theorem Filed.values_erase (h : Filed ident o) (key : String) :
    (o.erase key).values = o.values.filter (ident · != key) := by
  rw [← values_filter, Keyed.erase]
  congr 1
  exact List.filter_congr fun m hm => by rw [h.own m hm, decide_ne]

theorem get?_place (o : Keyed α) (key other : String) (value : α) :
    (o.place key value).get? other = if other = key then some value else o.get? other := by
  split
  · next h => rw [h, get?_place_self]
  · next h => exact get?_place_of_ne o value h

theorem Filed.get?_eq_find? (h : Filed ident o) (key : String) :
    o.get? key = o.values.find? (ident · == key) := by
  induction o with
  | nil => rfl
  | cons m rest ih =>
    obtain ⟨k, a⟩ := m
    have hk : k = ident a := h.own (k, a) (.head rest)
    rw [get?_cons, ih h.tail, hk]
    change _ = List.find? _ (a :: values rest)
    rw [List.find?_cons]
    by_cases hkey : key = ident a
    · rw [if_pos hkey, hkey, beq_self_eq_true]
    · rw [if_neg hkey, beq_eq_false_iff_ne.mpr (Ne.symm hkey)]

theorem Filed.values_place (h : Filed ident o) (a : α) :
    (o.place (ident a) a).values.Perm (a :: o.values.filter (ident · != ident a)) := by
  induction o with
  | nil => exact .refl _
  | cons n rest ih =>
    obtain ⟨hn, hrest⟩ := List.pairwise_cons.mp h.sorted
    have hown : n.1 = ident n.2 := h.own n (.head rest)
    have above {key : String} (hkey : key ≤ n.1) :
        (values rest).filter (ident · != key) = values rest := by
      rw [← values_filter]
      congr 1
      refine List.filter_eq_self.mpr fun m hm => ?_
      rw [← h.own m (.tail n hm)]
      exact bne_iff_ne.mpr (Std.ne_of_lt (Std.lt_of_le_of_lt hkey (hn m hm))).symm
    have hvalues : values (n :: rest) = n.2 :: values rest := rfl
    unfold Keyed.place
    split
    · next hk =>
      have hdrop : (ident n.2 != ident a) = false := by rw [← hown, hk]; simp
      rw [hvalues, List.filter_cons, hdrop, above (Std.le_of_eq hk.symm)]
      exact .refl _
    · next hne =>
      have hkeep : (ident n.2 != ident a) = true := bne_iff_ne.mpr (hown ▸ hne)
      rw [hvalues, List.filter_cons, if_pos hkeep]
      split
      · next hlt =>
        rw [above (Std.le_of_lt hlt)]
        exact .refl _
      · exact ((ih h.tail).cons n.2).trans (.swap _ _ _)

theorem Filed.values_place_new (h : Filed ident o) {a : α}
    (hnew : ∀ b ∈ o.values, ident b ≠ ident a) :
    (o.place (ident a) a).values.Perm (a :: o.values) := by
  have hall : o.values.filter (ident · != ident a) = o.values :=
    List.filter_eq_self.mpr fun b hb => bne_iff_ne.mpr (hnew b hb)
  exact hall ▸ h.values_place a

theorem Filed.get?_eq_some_iff (h : Filed ident o) {key : String} {a : α} :
    o.get? key = some a ↔ a ∈ o.values ∧ ident a = key := by
  rw [h.get?_eq_find?, Rows.find?_key_eq_some_iff h.nodup]

theorem find?_place {o : Keyed α} {key : String} {value : α} {p : α → Bool}
    (hvalue : p value = false) (hold : ∀ a, o.get? key = some a → p a = false) :
    (o.place key value).values.find? p = o.values.find? p := by
  induction o with
  | nil => simp [Keyed.place, values, hvalue]
  | cons m rest ih =>
    obtain ⟨k, a⟩ := m
    have hcons (o : Keyed α) : values ((k, a) :: o) = a :: values o := rfl
    unfold Keyed.place
    split
    · next hk =>
      have ha : p a = false := hold a (by rw [get?_cons, if_pos hk.symm])
      change List.find? p (value :: values rest) = _
      rw [hcons, List.find?_cons, hvalue, List.find?_cons, ha]
    · next hk =>
      split
      · change List.find? p (value :: values ((k, a) :: rest)) = _
        rw [List.find?_cons, hvalue]
      · have hrest := ih fun b hb => hold b (by rwa [get?_cons, if_neg (Ne.symm hk)])
        rw [hcons, hcons, List.find?_cons, List.find?_cons, hrest]

theorem place_comm (o : Keyed α) {k l : String} (h : k ≠ l) (a b : α) :
    (o.place k a).place l b = (o.place l b).place k a := by
  induction o with
  | nil =>
    simp only [Keyed.place]
    grind [String.lt_irrefl, String.lt_asymm]
  | cons m rest ih =>
    simp only [Keyed.place]
    grind [Keyed.place, String.lt_trans, String.lt_asymm]

section Map

variable {β : Type} (g : String → α → β) (key : String)

def mapWith (o : Keyed α) : Keyed β := o.map fun m => (m.1, g m.1 m.2)

theorem get?_mapWith (o : Keyed α) : (mapWith g o).get? key = (o.get? key).map (g key) := by
  induction o with
  | nil => rfl
  | cons m rest ih =>
    change get? ((m.1, g m.1 m.2) :: mapWith g rest) key = _
    rw [get?_cons, get?_cons, ih]
    split
    · next h => rw [h]; rfl
    · rfl

theorem contains_mapWith (o : Keyed α) : (mapWith g o).contains key = o.contains key := by
  rw [contains, contains, get?_mapWith, Option.isSome_map]

theorem place_mapWith (o : Keyed α) (value : α) :
    (mapWith g o).place key (g key value) = mapWith g (o.place key value) := by
  induction o with
  | nil => rfl
  | cons m rest ih =>
    change place ((m.1, g m.1 m.2) :: mapWith g rest) key _ = _
    unfold place
    rw [ih]
    split
    · rfl
    · split <;> rfl

theorem erase_mapWith (o : Keyed α) : (mapWith g o).erase key = mapWith g (o.erase key) :=
  List.filter_map

theorem values_mapWith (h : α → β) (o : Keyed α) :
    (mapWith (fun _ => h) o).values = o.values.map h := by
  rw [values, values, mapWith, List.map_map, List.map_map]
  rfl

end Map

end Custody.Keyed
