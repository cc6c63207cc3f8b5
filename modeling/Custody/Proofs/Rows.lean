import Custody.Store
import Mathlib.Data.List.Nodup

/-!
Lists of rows that a key tells apart: a look-up by the key finds the one row that has it, in
whatever order the rows stand.
-/
namespace Custody.Rows

variable {ρ κ : Type} {key : ρ → κ} {rows rows' : List ρ}

theorem eq_of_key_eq (h : (rows.map key).Nodup) {a b : ρ} (ha : a ∈ rows) (hb : b ∈ rows)
    (hab : key a = key b) : a = b := by
  induction rows with
  | nil => cases ha
  | cons c rest ih =>
    obtain ⟨hc, hrest⟩ := List.nodup_cons.mp h
    rcases List.mem_cons.mp ha with rfl | ha'
    · rcases List.mem_cons.mp hb with rfl | hb'
      · rfl
      · exact absurd (List.mem_map.mpr ⟨b, hb', hab.symm⟩) hc
    · rcases List.mem_cons.mp hb with rfl | hb'
      · exact absurd (List.mem_map.mpr ⟨a, ha', hab⟩) hc
      · exact ih hrest ha' hb'

theorem find?_eq_some_iff {p : ρ → Bool} (h : ∀ a ∈ rows, ∀ b ∈ rows, p a → p b → a = b)
    {a : ρ} : rows.find? p = some a ↔ a ∈ rows ∧ p a := by
  refine ⟨fun hf => ⟨List.mem_of_find?_eq_some hf, List.find?_some hf⟩, fun ⟨ha, hp⟩ => ?_⟩
  cases hf : rows.find? p with
  | none => exact absurd hp (List.find?_eq_none.mp hf a ha)
  | some b => rw [h a ha b (List.mem_of_find?_eq_some hf) hp (List.find?_some hf)]

theorem find?_perm {p : ρ → Bool} (hp : rows.Perm rows')
    (h : ∀ a ∈ rows, ∀ b ∈ rows, p a → p b → a = b) : rows.find? p = rows'.find? p := by
  have h' : ∀ a ∈ rows', ∀ b ∈ rows', p a → p b → a = b := fun a ha b hb =>
    h a (hp.mem_iff.mpr ha) b (hp.mem_iff.mpr hb)
  ext a
  rw [find?_eq_some_iff h, find?_eq_some_iff h', hp.mem_iff]

theorem find?_map_of_passed {p : ρ → Bool} {f : ρ → ρ}
    (h : ∀ a ∈ rows, f a = a ∨ p a = false ∧ p (f a) = false) :
    (rows.map f).find? p = rows.find? p := by
  induction rows with
  | nil => rfl
  | cons a rest ih =>
    rw [List.map_cons, List.find?_cons, List.find?_cons, ih fun b hb => h b (.tail a hb)]
    rcases h a (.head rest) with hsame | ⟨hold, hnew⟩
    · rw [hsame]
    · rw [hold, hnew]

/-- Of the rows with its key, this one stands last. -/
def LastBy (key : ρ → κ) (a : ρ) (rows : List ρ) : Prop :=
  ∃ before after, rows = before ++ a :: after ∧ ∀ b ∈ after, key b ≠ key a

theorem LastBy.mem {a : ρ} (h : LastBy key a rows) : a ∈ rows := by
  obtain ⟨before, after, rfl, -⟩ := h
  simp

theorem lastBy_cons {a b : ρ} :
    LastBy key a (b :: rows) ↔ LastBy key a rows ∨ a = b ∧ ∀ c ∈ rows, key c ≠ key a := by
  constructor
  · rintro ⟨before, after, hsplit, hafter⟩
    cases before with
    | nil =>
      obtain ⟨rfl, rfl⟩ := List.cons.inj hsplit
      exact .inr ⟨rfl, hafter⟩
    | cons c before =>
      obtain ⟨rfl, rfl⟩ := List.cons.inj hsplit
      exact .inl ⟨before, after, rfl, hafter⟩
  · rintro (⟨before, after, rfl, hafter⟩ | ⟨rfl, hafter⟩)
    · exact ⟨b :: before, after, rfl, hafter⟩
    · exact ⟨[], rows, rfl, hafter⟩

variable (key) in
theorem exists_lastBy {a : ρ} (ha : a ∈ rows) : ∃ b, LastBy key b rows ∧ key b = key a := by
  induction rows generalizing a with
  | nil => cases ha
  | cons c rest ih =>
    by_cases hkey : ∃ b ∈ rest, key b = key a
    · obtain ⟨b, hb, hba⟩ := hkey
      obtain ⟨d, hd, hdb⟩ := ih hb
      exact ⟨d, lastBy_cons.mpr (.inl hd), hdb.trans hba⟩
    · rcases List.mem_cons.mp ha with rfl | ha
      · exact ⟨a, lastBy_cons.mpr (.inr ⟨rfl, fun b hb heq => hkey ⟨b, hb, heq⟩⟩), rfl⟩
      · exact absurd ⟨a, ha, rfl⟩ hkey

theorem lastBy_iff_mem (h : (rows.map key).Nodup) {a : ρ} : LastBy key a rows ↔ a ∈ rows := by
  refine ⟨LastBy.mem, fun ha => ?_⟩
  obtain ⟨b, hb, hba⟩ := exists_lastBy key ha
  rwa [eq_of_key_eq h hb.mem ha hba] at hb

theorem lastBy_append_singleton {a b : ρ} :
    LastBy key a (rows ++ [b]) ↔ a = b ∨ LastBy key a rows ∧ key b ≠ key a := by
  constructor
  · rintro ⟨before, after, hsplit, hafter⟩
    rcases List.eq_nil_or_concat after with rfl | ⟨front, c, rfl⟩
    · left
      simpa using (List.append_inj' hsplit rfl).2.symm
    · right
      rw [List.concat_eq_append, ← List.cons_append, ← List.append_assoc] at hsplit
      obtain ⟨rfl, hlast⟩ := List.append_inj' hsplit rfl
      obtain rfl : b = c := by simpa using hlast
      exact ⟨⟨before, front, rfl, fun d hd => hafter d (by simp [hd])⟩, hafter b (by simp)⟩
  · rintro (rfl | ⟨⟨before, after, rfl, hafter⟩, hb⟩)
    · exact ⟨rows, [], rfl, by simp⟩
    · refine ⟨before, after ++ [b], by simp, fun c hc => ?_⟩
      rcases List.mem_append.mp hc with hc | hc
      · exact hafter c hc
      · obtain rfl := List.mem_singleton.mp hc
        exact hb

/-- Where of each key the last row is stored, all rows are stored as they are, each once, exactly if
no key comes twice. -/
theorem perm_iff_nodup {stored : List ρ} {f : ρ → ρ} (hkey : ∀ a, key (f a) = key a)
    (hstored : (stored.map key).Nodup)
    (hlast : ∀ b, b ∈ stored ↔ ∃ a, LastBy key a rows ∧ f a = b) :
    (rows.map f).Perm stored ↔ (rows.map key).Nodup := by
  have hkeys : (rows.map f).map key = rows.map key := by
    rw [List.map_map]
    exact List.map_congr_left fun a _ => hkey a
  constructor
  · intro hperm
    rw [← hkeys]
    exact (hperm.map key).nodup_iff.mpr hstored
  · intro hnodup
    apply (List.perm_ext_iff_of_nodup (.of_map key (hkeys ▸ hnodup)) (.of_map key hstored)).mpr
    intro b
    simp only [hlast, lastBy_iff_mem hnodup, List.mem_map]

section Key

variable [BEq κ] [LawfulBEq κ]

theorem find?_key_eq_some_iff (h : (rows.map key).Nodup) {k : κ} {a : ρ} :
    rows.find? (key · == k) = some a ↔ a ∈ rows ∧ key a = k := by
  rw [find?_eq_some_iff, beq_iff_eq]
  intro a ha b hb hak hbk
  exact eq_of_key_eq h ha hb ((eq_of_beq hak).trans (eq_of_beq hbk).symm)

theorem find?_key_eq_none_iff {k : κ} :
    rows.find? (key · == k) = none ↔ ∀ a ∈ rows, key a ≠ k := by
  simp

theorem find?_key_perm (h : (rows.map key).Nodup) (hp : rows.Perm rows') (k : κ) :
    rows.find? (key · == k) = rows'.find? (key · == k) :=
  find?_perm hp fun _ ha _ hb hak hbk =>
    eq_of_key_eq h ha hb ((eq_of_beq hak).trans (eq_of_beq hbk).symm)

end Key

theorem nodup_append_singleton {row : ρ} (h : (rows.map key).Nodup)
    (hrow : ∀ a ∈ rows, key row ≠ key a) : ((rows ++ [row]).map key).Nodup := by
  rw [List.map_append, List.nodup_append]
  refine ⟨h, by simp, ?_⟩
  intro k hk l hl
  obtain ⟨a, ha, rfl⟩ := List.mem_map.mp hk
  rw [List.mem_map] at hl
  simp only [List.mem_singleton] at hl
  obtain ⟨_, rfl, rfl⟩ := hl
  exact (hrow a ha).symm

theorem ne_of_nodup_append {before after : List ρ} {row : ρ}
    (h : ((before ++ row :: after).map key).Nodup) : ∀ a ∈ before, key row ≠ key a := by
  intro a ha heq
  rw [List.map_append, List.nodup_append] at h
  exact h.2.2 _ (List.mem_map_of_mem ha) _ (List.mem_map_of_mem List.mem_cons_self) heq.symm

theorem nodup_filter (h : (rows.map key).Nodup) (p : ρ → Bool) :
    ((rows.filter p).map key).Nodup :=
  h.sublist ((List.filter_sublist).map key)

theorem nodup_cons_filter {row : ρ} {p : ρ → Bool} (h : (rows.map key).Nodup)
    (hrow : ∀ a ∈ rows, p a → key row ≠ key a) : ((row :: rows.filter p).map key).Nodup := by
  rw [List.map_cons, List.nodup_cons]
  refine ⟨fun hmem => ?_, nodup_filter h p⟩
  obtain ⟨a, ha, hak⟩ := List.mem_map.mp hmem
  obtain ⟨ha, hp⟩ := List.mem_filter.mp ha
  exact hrow a ha hp hak.symm

theorem replace_perm [BEq κ] [LawfulBEq κ] (new : ρ) (h : (rows.map key).Nodup)
    (hnew : ∃ old ∈ rows, key old = key new) :
    (rows.map fun b => if key b == key new then new else b).Perm
      (new :: rows.filter (key · != key new)) := by
  induction rows with
  | nil => simp at hnew
  | cons c rest ih =>
    obtain ⟨hc, hrest⟩ := List.nodup_cons.mp h
    by_cases hkey : key c = key new
    · have hne : ∀ b ∈ rest, key b ≠ key new := fun b hb hb' =>
        hc (List.mem_map.mpr ⟨b, hb, hb'.trans hkey.symm⟩)
      have hmap : (rest.map fun b => if key b == key new then new else b) = rest := by
        refine (List.map_congr_left fun b hb => ?_).trans (List.map_id rest)
        exact if_neg (by simpa using hne b hb)
      have hfilter : rest.filter (key · != key new) = rest :=
        List.filter_eq_self.mpr fun b hb => bne_iff_ne.mpr (hne b hb)
      simp [hkey, hmap, hfilter]
    · have hnew' : ∃ old ∈ rest, key old = key new := by
        obtain ⟨old, hmem, hold⟩ := hnew
        rcases List.mem_cons.mp hmem with rfl | hmem
        · exact absurd hold hkey
        · exact ⟨old, hmem, hold⟩
      have hbne : (key c != key new) = true := bne_iff_ne.mpr hkey
      simp only [List.map_cons, List.filter_cons, hbne, beq_eq_false_iff_ne.mpr hkey]
      exact ((ih hrest hnew').cons c).trans (.swap _ _ _)

end Custody.Rows
