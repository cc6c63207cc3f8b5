import Custody.Asset.Tree

/-!
Paths and the nodes on them. What stands before the last slash of a path names its parent; nodes
form a forest when each is linked to the node of its parent's path, and no two share a path.
-/
namespace Custody

theorem Text.cutLast_append {sep : Char} {a b : List Char} (h : sep ∉ b) :
    cutLast sep (a ++ sep :: b) = some (a, b) := by
  have hreverse : (a ++ sep :: b).reverse = b.reverse ++ sep :: a.reverse := by simp
  rw [cutLast, hreverse, cutFirst_append (by simpa using h)]
  simp

namespace Node

/-- The one path stands before the last slash of the other, and is not empty. -/
def ParentOf (parent path : String) : Prop :=
  parent ≠ "" ∧ ∃ last, path.toList = parent.toList ++ '/' :: last ∧ '/' ∉ last

theorem parentChars_eq_some_iff {path parent : List Char} : parentChars path = some parent ↔
    parent ≠ [] ∧ ∃ last, path = parent ++ '/' :: last ∧ '/' ∉ last := by
  constructor
  · intro h
    unfold parentChars at h
    split at h
    · next p ps last hcut =>
      cases h
      exact ⟨List.cons_ne_nil p ps, last, Text.eq_of_cutLast hcut⟩
    · cases h
  · rintro ⟨hne, last, rfl, hlast⟩
    obtain ⟨p, ps, rfl⟩ := List.exists_cons_of_ne_nil hne
    rw [parentChars, Text.cutLast_append hlast]

theorem parentOf_iff {parent path : String} :
    ParentOf parent path ↔ parentChars path.toList = some parent.toList := by
  rw [parentChars_eq_some_iff, ParentOf, ne_eq, ne_eq, String.toList_eq_nil_iff]

theorem ancestors_of_none {path : List Char} (h : parentChars path = none) :
    ancestors path = [] := by
  rw [ancestors]
  split
  · rfl
  · next heq => rw [h] at heq; cases heq

theorem ancestors_of_some {path parent : List Char} (h : parentChars path = some parent) :
    ancestors path = parent :: ancestors parent := by
  rw [ancestors]
  split
  · next heq => rw [h] at heq; cases heq
  · next heq =>
    rw [h] at heq
    cases heq
    rfl

theorem parentChars_of_ancestors_nil {path : List Char} (h : ancestors path = []) :
    parentChars path = none := by
  cases hparent : parentChars path with
  | none => rfl
  | some parent =>
    rw [ancestors_of_some hparent] at h
    cases h

theorem parentChars_of_ancestors_cons {path parent : List Char} {rest : List (List Char)}
    (h : ancestors path = parent :: rest) :
    parentChars path = some parent ∧ ancestors parent = rest := by
  cases hparent : parentChars path with
  | none =>
    rw [ancestors_of_none hparent] at h
    cases h
  | some p =>
    rw [ancestors_of_some hparent] at h
    cases h
    exact ⟨rfl, rfl⟩

theorem length_lt_of_mem_ancestors {path q : List Char} (h : q ∈ ancestors path) :
    q.length < path.length := by
  induction hall : ancestors path generalizing path with
  | nil =>
    rw [hall] at h
    cases h
  | cons parent rest ih =>
    obtain ⟨hparent, hrest⟩ := parentChars_of_ancestors_cons hall
    have hlt := length_lt_of_parentChars hparent
    rw [hall] at h
    rcases List.mem_cons.mp h with rfl | h
    · exact hlt
    · exact Nat.lt_trans (ih (hrest ▸ h) hrest) hlt

/-- The one path stands before some slash of the other, and is not empty. -/
def AncestorOf (q path : String) : Prop := q ≠ "" ∧ ∃ rest, path.toList = q.toList ++ '/' :: rest

theorem parentChars_of_slash {q : List Char} (hne : q ≠ []) (rest : List Char) :
    ∃ parent, parentChars (q ++ '/' :: rest) = some parent ∧
      (parent = q ∨ ∃ rest, parent = q ++ '/' :: rest) := by
  -- The parent reaches to the last slash, and so no less far than to any other.
  by_cases hslash : '/' ∈ rest
  · obtain ⟨last, before, hreverse, hlast⟩ :=
      List.eq_append_cons_of_mem (List.mem_reverse.mpr hslash)
    have hrest : rest = before.reverse ++ '/' :: last.reverse := by
      rw [← List.reverse_reverse rest, hreverse]
      simp
    refine ⟨q ++ '/' :: before.reverse, parentChars_eq_some_iff.mpr ⟨?_, last.reverse, ?_, ?_⟩,
      .inr ⟨_, rfl⟩⟩
    · simp [hne]
    · simp [hrest]
    · simpa using hlast
  · exact ⟨q, parentChars_eq_some_iff.mpr ⟨hne, rest, rfl, hslash⟩, .inl rfl⟩

theorem mem_ancestors_iff {path q : List Char} :
    q ∈ ancestors path ↔ q ≠ [] ∧ ∃ rest, path = q ++ '/' :: rest := by
  induction hall : ancestors path generalizing path with
  | nil =>
    refine iff_of_false List.not_mem_nil ?_
    rintro ⟨hne, rest, rfl⟩
    obtain ⟨parent, hparent, -⟩ := parentChars_of_slash hne rest
    rw [parentChars_of_ancestors_nil hall] at hparent
    cases hparent
  | cons parent above ih =>
    obtain ⟨hparent, habove⟩ := parentChars_of_ancestors_cons hall
    obtain ⟨hne, last, hpath, -⟩ := parentChars_eq_some_iff.mp hparent
    rw [List.mem_cons, ih habove]
    constructor
    · rintro (rfl | ⟨hq, rest, rfl⟩)
      · exact ⟨hne, last, hpath⟩
      · exact ⟨hq, rest ++ '/' :: last, by rw [hpath, List.append_assoc, List.cons_append]⟩
    · rintro ⟨hq, rest, rfl⟩
      obtain ⟨p, hp, hreaches⟩ := parentChars_of_slash hq rest
      obtain rfl := Option.some.inj (hp.symm.trans hparent)
      exact hreaches.imp Eq.symm fun hreaches => ⟨hq, hreaches⟩

theorem ancestorOf_iff {q path : String} :
    AncestorOf q path ↔ q.toList ∈ ancestors path.toList := by
  rw [mem_ancestors_iff, AncestorOf, ne_eq, ne_eq, String.toList_eq_nil_iff]

variable {nodes nodes' : List Node} {path : String} {parentId : Option String}

/-- Among these nodes, this is the parent of a node at this path: the node at its parent's path if
it has one, and no node otherwise. -/
structure Fits (nodes : List Node) (path : String) (parentId : Option String) : Prop where
  child : ∀ p, ParentOf p path → ∃ m ∈ nodes, m.fullValue = p ∧ parentId = some m.id
  root : (∀ p, ¬ ParentOf p path) → parentId = none

theorem fits_none (h : parentChars path.toList = none) : Fits nodes path none where
  child p hp := by
    rw [parentOf_iff, h] at hp
    cases hp
  root _ := rfl

theorem fits_some {m : Node} (hm : m ∈ nodes)
    (h : parentChars path.toList = some m.fullValue.toList) : Fits nodes path (some m.id) where
  child p hp := by
    rw [parentOf_iff, h] at hp
    exact ⟨m, hm, String.toList_inj.mp (Option.some.inj hp), rfl⟩
  root hnone := absurd (parentOf_iff.mpr h) (hnone _)

theorem Fits.mono (h : Fits nodes path parentId) (hsub : ∀ m ∈ nodes, m ∈ nodes') :
    Fits nodes' path parentId where
  child p hp := by
    obtain ⟨m, hm, heq⟩ := h.child p hp
    exact ⟨m, hsub m hm, heq⟩
  root := h.root

theorem Fits.exists_mem (h : Fits nodes path parentId) {p : String} (hp : parentId = some p) :
    ∃ m ∈ nodes, m.id = p := by
  by_cases hparent : ∃ q, ParentOf q path
  · obtain ⟨q, hq⟩ := hparent
    obtain ⟨m, hm, -, heq⟩ := h.child q hq
    exact ⟨m, hm, Option.some.inj (heq.symm.trans hp)⟩
  · rw [h.root (not_exists.mp hparent)] at hp
    cases hp

/-- No two nodes share a path, and each has the parent that fits its path. -/
structure Forest (nodes : List Node) : Prop where
  distinct : (nodes.map (·.fullValue)).Nodup
  linked : ∀ n ∈ nodes, Fits nodes n.fullValue n.parentId

theorem Forest.nil : Forest [] := ⟨.nil, fun _ hn => absurd hn List.not_mem_nil⟩

theorem Forest.insert (h : Forest nodes) {n : Node} (hperm : nodes'.Perm (n :: nodes))
    (hfree : ∀ m ∈ nodes, m.fullValue ≠ n.fullValue) (hfits : Fits nodes n.fullValue n.parentId) :
    Forest nodes' where
  distinct := by
    rw [(hperm.map (·.fullValue)).nodup_iff, List.map_cons, List.nodup_cons]
    refine ⟨fun hmem => ?_, h.distinct⟩
    obtain ⟨m, hm, heq⟩ := List.mem_map.mp hmem
    exact hfree m hm heq
  linked m hm := by
    have hsub (k : Node) (hk : k ∈ nodes) : k ∈ nodes' := hperm.mem_iff.mpr (.tail n hk)
    rcases List.mem_cons.mp (hperm.mem_iff.mp hm) with rfl | hm
    · exact hfits.mono hsub
    · exact (h.linked m hm).mono hsub

end Node

end Custody
