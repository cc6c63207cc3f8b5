import Custody.Config
import Custody.Proofs.Keyed
import Mathlib.Data.List.Forall2

/-!
What a document says of the configuration. A setting has the value of its last property, and each
node behind the settings is a label.
-/
namespace Custody

namespace Kdl

theorem read_eq_some_iff {s : String} {ns : List Node} :
    read s = some ns ↔ nodes (3 * s.toList.length + 3) s.toList = (ns, []) := by
  unfold read
  dsimp only
  rcases nodes (3 * s.toList.length + 3) s.toList with ⟨ms, _ | ⟨c, rest⟩⟩ <;> simp

/-! ### Properties -/

def Entry.property? : Entry → Option (String × Value)
  | .argument _ => none
  | .property key v => some (key, v)

def placeAll (ps : List (String × Value)) (o : Keyed Value) : Keyed Value :=
  ps.foldl (fun o p => o.place p.1 p.2) o

theorem properties_ofEntries (typeName : Option String) (name : String) (es : List Entry)
    (ns : List Node) : (Node.ofEntries typeName name es ns).properties =
      placeAll (es.filterMap Entry.property?) [] := by
  rw [placeAll, List.foldl_filterMap]
  change List.foldl _ _ _ = _
  congr 1
  funext o e
  cases e <;> rfl

variable {ps : List (String × Value)} {o : Keyed Value} {key : String}

theorem mem_placeAll {p : String × Value} (h : p ∈ placeAll ps o) : p ∈ ps ∨ p ∈ o := by
  induction ps generalizing o with
  | nil => exact .inr h
  | cons q rest ih =>
    rcases ih h with hmem | hmem
    · exact .inl (.tail q hmem)
    · rcases Keyed.mem_place hmem with rfl | hmem
      · exact .inl (.head rest)
      · exact .inr hmem

theorem isSome_get?_placeAll (h : key ∈ ps.map (·.1) ∨ (o.get? key).isSome) :
    ((placeAll ps o).get? key).isSome := by
  induction ps generalizing o with
  | nil => exact h.resolve_left List.not_mem_nil
  | cons p rest ih =>
    refine ih ?_
    rw [Keyed.get?_place]
    split
    · exact .inr rfl
    · next hkey => exact h.imp_left fun hmem => (List.mem_cons.mp hmem).resolve_left hkey

theorem sorted_placeAll (ho : o.Pairwise fun m n => m.1 < n.1) :
    (placeAll ps o).Pairwise fun m n => m.1 < n.1 := by
  induction ps generalizing o with
  | nil => exact ho
  | cons p rest ih => exact ih (Keyed.sorted_place ho p.1 p.2)

end Kdl

namespace Config

open Kdl

/-! ### Settings -/

theorem Key.name_of_ofName? {s : String} {k : Key} (h : Key.ofName? s = some k) : k.name = s := by
  unfold Key.ofName? at h
  simpa using List.find?_some h

theorem Key.name_injective {k l : Key} (h : k.name = l.name) : k = l := by
  have hk := Key.ofName?_name k
  rw [h, Key.ofName?_name] at hk
  exact (Option.some.inj hk).symm

theorem textOf?_eq_some_some_iff {v : Value} {s : String} :
    textOf? v = some (some s) ↔ v = ⟨none, .text s⟩ := by
  unfold textOf?
  split <;> simp_all

namespace Settings

def put (s : Settings) (p : String × Value) : Option Settings := do
  return s.set (← Key.ofName? p.1) (← textOf? p.2)

theorem put_eq_some_iff {s t : Settings} {p : String × Value} :
    s.put p = some t ↔ ∃ k v, k.name = p.1 ∧ textOf? p.2 = some v ∧ s.set k v = t := by
  constructor
  · intro h
    obtain ⟨k, hk, h⟩ := Option.bind_eq_some_iff.mp h
    obtain ⟨v, hv, h⟩ := Option.bind_eq_some_iff.mp h
    exact ⟨k, v, Key.name_of_ofName? hk, hv, Option.some.inj h⟩
  · rintro ⟨k, v, hk, hv, rfl⟩
    unfold put
    rw [← hk, Key.ofName?_name, hv]
    rfl

theorem get_foldlM_put {o : Keyed Value} (ho : o.Pairwise fun m n => m.1 < n.1) {s t : Settings}
    (h : o.foldlM put s = some t) (k : Key) :
    t.get k = match o.get? k.name with
      | none => s.get k
      | some v => (textOf? v).join := by
  induction o generalizing s with
  | nil =>
    cases h
    rfl
  | cons p rest ih =>
    obtain ⟨hp, hrest⟩ := List.pairwise_cons.mp ho
    rw [List.foldlM_cons] at h
    obtain ⟨u, hu, h⟩ := Option.bind_eq_some_iff.mp h
    obtain ⟨j, v, hj, hv, rfl⟩ := put_eq_some_iff.mp hu
    have habsent : Keyed.get? rest p.1 = none :=
      List.lookup_eq_none_iff.mpr fun q hq => bne_iff_ne.mpr (Std.ne_of_lt (hp q hq))
    rw [ih hrest h, Keyed.get?_cons]
    by_cases hkey : k.name = p.1
    · obtain rfl := Key.name_injective (hkey.trans hj.symm)
      rw [if_pos hkey, hkey, habsent]
      dsimp only
      rw [get_set_self, hv]
      rfl
    · rw [if_neg hkey, get_set_of_ne]
      rintro rfl
      exact hkey hj

theorem exists_foldlM_put {o : Keyed Value}
    (h : ∀ p ∈ o, ∃ k v, Key.name k = p.1 ∧ textOf? p.2 = some v) (s : Settings) :
    ∃ t, o.foldlM put s = some t := by
  induction o generalizing s with
  | nil => exact ⟨s, rfl⟩
  | cons p rest ih =>
    obtain ⟨⟨k, v, hk, hv⟩, hrest⟩ := List.forall_mem_cons.mp h
    rw [List.foldlM_cons, put_eq_some_iff.mpr ⟨k, v, hk, hv, rfl⟩]
    exact ih hrest _

end Settings

variable {typeName : Option String} {name : String} {es : List Kdl.Entry} {ns : List Kdl.Node}

theorem get?_properties {key : String} {v : Value}
    (h : (Kdl.Node.ofEntries typeName name es ns).properties.get? key = some v) :
    .property key v ∈ es := by
  rw [properties_ofEntries] at h
  obtain ⟨e, he, hp⟩ := List.mem_filterMap.mp
    ((mem_placeAll (Keyed.mem_of_get? h)).resolve_right List.not_mem_nil)
  cases e with
  | argument => cases hp
  | property =>
    cases hp
    exact he

theorem get_settingsOf? {t : Settings}
    (h : settingsOf? (.ofEntries typeName name es ns) = some t) {k : Key} {v : String} :
    t.get k = some v ↔ (Kdl.Node.ofEntries typeName name es ns).properties.get? k.name =
      some ⟨none, .text v⟩ := by
  unfold settingsOf? at h
  split at h
  · have hsorted : (Kdl.Node.ofEntries typeName name es ns).properties.Pairwise
        fun m n => m.1 < n.1 := by
      rw [properties_ofEntries]
      exact sorted_placeAll .nil
    rw [Settings.get_foldlM_put hsorted h]
    split
    · next hget =>
      rw [hget]
      cases k <;> simp [Settings.empty, Settings.get]
    · next hget =>
      rw [hget, Option.join_eq_some_iff, textOf?_eq_some_some_iff, Option.some_inj]
  · cases h

/-! ### Labels -/

theorem eq_arguments_of_properties
    (h : (Kdl.Node.ofEntries typeName name es ns).properties = []) :
    es = (Kdl.Node.ofEntries typeName name es ns).arguments.map .argument := by
  have hargument : ∀ e ∈ es, e.property? = none := by
    intro e he
    cases hp : e.property? with
    | none => rfl
    | some p =>
      have hmem : p.1 ∈ (es.filterMap Entry.property?).map (·.1) :=
        List.mem_map.mpr ⟨p, List.mem_filterMap.mpr ⟨e, he, hp⟩, rfl⟩
      have hget := isSome_get?_placeAll (o := []) (.inl hmem)
      rw [← properties_ofEntries typeName name es ns, h] at hget
      cases hget
  clear h
  induction es with
  | nil => rfl
  | cons e rest ih =>
    obtain ⟨he, hrest⟩ := List.forall_mem_cons.mp hargument
    cases e with
    | argument v => exact congrArg (.argument v :: ·) (ih hrest)
    | property => cases he

def Labels (n : Kdl.Node) (l : Labeled) : Prop := n.name = "label" ∧ labelOf? n = some l

theorem addNode_eq_some_iff {c c' : Config} {n : Kdl.Node} (hc : c.defaults.isSome) :
    addNode c n = some c' ↔ ∃ l, Labels n l ∧ c' = { c with labels := c.labels ++ [l] } := by
  unfold addNode Labels
  split
  · next hname =>
    rw [if_pos hc, hname]
    simp
  · next hname =>
    rw [Option.map_eq_some_iff]
    exact exists_congr fun l => ⟨fun h => ⟨⟨hname, h.1⟩, h.2.symm⟩, fun h => ⟨h.1.2, h.2.symm⟩⟩
  · next hlabel => simp [show n.name ≠ "label" from hlabel]

theorem foldlM_addNode_eq_some_iff {c c' : Config} {ns : List Kdl.Node} (hc : c.defaults.isSome) :
    ns.foldlM addNode c = some c' ↔
      ∃ ls, List.Forall₂ Labels ns ls ∧ c' = { c with labels := c.labels ++ ls } := by
  induction ns generalizing c with
  | nil => simp [eq_comm]
  | cons n rest ih =>
    rw [List.foldlM_cons]
    constructor
    · intro h
      obtain ⟨d, hd, h⟩ := Option.bind_eq_some_iff.mp h
      obtain ⟨l, hl, rfl⟩ := (addNode_eq_some_iff hc).mp hd
      obtain ⟨ls, hls, rfl⟩ := (ih (c := { c with labels := c.labels ++ [l] }) hc).mp h
      exact ⟨l :: ls, .cons hl hls, by rw [List.append_assoc]; rfl⟩
    · rintro ⟨_, hls, rfl⟩
      obtain _ | @⟨_, l, _, ls, hl, hls⟩ := hls
      rw [(addNode_eq_some_iff hc).mpr ⟨l, hl, rfl⟩]
      refine (ih (c := { c with labels := c.labels ++ [l] }) hc).mpr ⟨ls, hls, ?_⟩
      rw [List.append_assoc]
      rfl

theorem ofNodes?_eq_some_iff {c : Config} {n : Kdl.Node} {ns : List Kdl.Node}
    (hn : n.name = "defaults") : ofNodes? (n :: ns) = some c ↔
      ∃ s ls, settingsOf? n = some s ∧ List.Forall₂ Labels ns ls ∧ c = ⟨some s, ls⟩ := by
  have hadd : addNode .empty n = (settingsOf? n).map fun s => ⟨some s, []⟩ := by
    unfold addNode
    rw [hn]
    rfl
  unfold ofNodes?
  rw [List.foldlM_cons, hadd]
  cases settingsOf? n with
  | none => simp
  | some s =>
    change ns.foldlM addNode ⟨some s, []⟩ = some c ↔ _
    rw [foldlM_addNode_eq_some_iff rfl]
    simp

theorem read_eq_ok_iff {s : String} {c : Config} :
    read s = .ok c ↔ ∃ ns, nodes (3 * s.toList.length + 3) s.toList = (ns, []) ∧
      ofNodes? ns = some c := by
  have hread : read s = .ok c ↔ (Kdl.read s).bind ofNodes? = some c := by
    unfold read
    cases (Kdl.read s).bind ofNodes? <;> simp
  rw [hread, Option.bind_eq_some_iff]
  exact exists_congr fun ns => and_congr_left fun _ => read_eq_some_iff

end Config

end Custody
