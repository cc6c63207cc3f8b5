import Custody.Proofs.Rows
import Custody.Protocol
import Mathlib.Data.List.Induction

/-!
Entries gathered by name. A name stays where it is met first and has what is said of it last; this
can be told from the list as a whole, without the order in which entries replace one another.
-/
namespace Custody.Protocol.Entry

theorem map_name_replace (e : Entry) (entries : List Entry) :
    (e.replace entries).map (·.name) =
      if e.name ∈ entries.map (·.name) then entries.map (·.name)
      else entries.map (·.name) ++ [e.name] := by
  induction entries with
  | nil => rfl
  | cons f rest ih =>
    unfold replace
    by_cases h : f.name = e.name
    · simp [h]
    · rw [if_neg h, List.map_cons, ih]
      simp only [List.map_cons, List.mem_cons, Ne.symm h, false_or]
      split <;> rfl

theorem nodup_replace (e : Entry) {entries : List Entry} (h : (entries.map (·.name)).Nodup) :
    ((e.replace entries).map (·.name)).Nodup := by
  rw [map_name_replace]
  split
  · exact h
  · next hnew => exact List.nodup_append.mpr ⟨h, by simp, by grind⟩

theorem mem_replace_iff {e f : Entry} {entries : List Entry} (h : (entries.map (·.name)).Nodup) :
    f ∈ e.replace entries ↔ f = e ∨ f ∈ entries ∧ e.name ≠ f.name := by
  induction entries with
  | nil => simp [replace]
  | cons g rest ih =>
    obtain ⟨hg, hrest⟩ := List.nodup_cons.mp h
    unfold replace
    split
    · next heq =>
      have hothers : f ∈ rest → e.name ≠ f.name := by
        intro hf hname
        apply hg
        exact List.mem_map.mpr ⟨f, hf, hname.symm.trans heq.symm⟩
      simp only [List.mem_cons]
      grind
    · next hne =>
      simp only [List.mem_cons, ih hrest]
      grind

theorem replace_of_new {e : Entry} {entries : List Entry} (h : e.name ∉ entries.map (·.name)) :
    e.replace entries = entries ++ [e] := by
  induction entries with
  | nil => rfl
  | cons f rest ih =>
    obtain ⟨hf, hrest⟩ := List.ne_and_not_mem_of_not_mem_cons h
    rw [replace, if_neg (Ne.symm hf), ih hrest, List.cons_append]

def collect (entries : List Entry) : List Entry := entries.foldl (fun acc e => e.replace acc) []

theorem collect_append_singleton (entries : List Entry) (e : Entry) :
    collect (entries ++ [e]) = e.replace (collect entries) := by
  simp [collect]

theorem nodup_collect (entries : List Entry) : ((collect entries).map (·.name)).Nodup := by
  induction entries using List.reverseRecOn with
  | nil => exact .nil
  | append_singleton before e ih =>
    rw [collect_append_singleton]
    exact nodup_replace e ih

theorem map_name_collect (entries : List Entry) :
    (collect entries).map (·.name) = (entries.map (·.name)).eraseDups := by
  induction entries using List.reverseRecOn with
  | nil => rfl
  | append_singleton before e ih =>
    rw [collect_append_singleton, map_name_replace, ih, List.map_append, List.eraseDups_append]
    generalize before.map (·.name) = names
    by_cases h : e.name ∈ names
    · simp [List.removeAll, h]
    · simp [List.removeAll, h, List.eraseDups_cons]

theorem mem_collect_iff {entries : List Entry} {e : Entry} :
    e ∈ collect entries ↔ Rows.LastBy (·.name) e entries := by
  induction entries using List.reverseRecOn with
  | nil => simp [collect, Rows.LastBy]
  | append_singleton before f ih =>
    rw [collect_append_singleton, mem_replace_iff (nodup_collect before), ih,
      Rows.lastBy_append_singleton]

theorem collect_eq_self {entries : List Entry} (h : (entries.map (·.name)).Nodup) :
    collect entries = entries := by
  induction entries using List.reverseRecOn with
  | nil => rfl
  | append_singleton before e ih =>
    rw [List.map_append, List.nodup_append] at h
    obtain ⟨hbefore, -, hapart⟩ := h
    rw [collect_append_singleton, ih hbefore]
    apply replace_of_new
    intro hmem
    exact hapart _ hmem _ (.head _) rfl

theorem portInRange_iff {e : Entry} : e.portInRange = true ↔ 1 ≤ e.port ∧ e.port ≤ 65535 := by
  simp [portInRange]

section Gather

private def put (acc : List Entry) (e : Entry) : Except Error (List Entry) :=
  if e.portInRange then .ok (e.replace acc) else .error e.outOfRange

private theorem foldlM_put {entries : List Entry} (h : ∀ e ∈ entries, e.portInRange = true)
    (acc : List Entry) :
    entries.foldlM put acc = .ok (entries.foldl (fun acc e => e.replace acc) acc) := by
  induction entries generalizing acc with
  | nil => rfl
  | cons e rest ih =>
    obtain ⟨he, hrest⟩ := List.forall_mem_cons.mp h
    have hput : put acc e = .ok (e.replace acc) := if_pos he
    rw [List.foldlM_cons, hput]
    exact ih hrest _

theorem gather_eq_collect {entries : List Entry} (h : ∀ e ∈ entries, e.portInRange = true) :
    gather entries = .ok (collect entries) := foldlM_put h []

theorem gather_outOfRange {before : List Entry} (hbefore : ∀ e ∈ before, e.portInRange = true)
    {e : Entry} (he : e.portInRange = false) (after : List Entry) :
    gather (before ++ e :: after) = .error e.outOfRange := by
  change (before ++ e :: after).foldlM put [] = _
  have hput (acc : List Entry) : put acc e = .error e.outOfRange := if_neg (by simp [he])
  rw [List.foldlM_append, foldlM_put hbefore]
  change (e :: after).foldlM put _ = _
  rw [List.foldlM_cons, hput]
  rfl

theorem inRange_or_split (entries : List Entry) :
    (∀ e ∈ entries, e.portInRange = true) ∨
      ∃ before e after, entries = before ++ e :: after ∧
        (∀ f ∈ before, f.portInRange = true) ∧ e.portInRange = false := by
  cases hfind : entries.find? (fun e => !e.portInRange) with
  | none => exact .inl (by simpa using hfind)
  | some e =>
    obtain ⟨he, before, after, hsplit, hbefore⟩ := List.find?_eq_some_iff_append.mp hfind
    exact .inr ⟨before, e, after, hsplit, by simpa using hbefore, by simpa using he⟩

end Gather

section Promote

theorem map_promote {β : Type} {f : Entry → β} (hf : ∀ e, f { e with primary := true } = f e)
    (entries : List Entry) : (promote entries).map f = entries.map f := by
  fun_cases promote entries with
  | case1 => rfl
  | case2 => rfl
  | case3 e rest => rw [List.map_cons, List.map_cons, hf]

theorem map_name_promote (entries : List Entry) :
    (promote entries).map (·.name) = entries.map (·.name) := map_promote (fun _ => rfl) entries

theorem promote_eq (entries : List Entry) :
    promote entries = if entries.any (·.primary) then entries
      else entries.modifyHead ({ · with primary := true }) := by
  cases entries <;> rfl

theorem promote_eq_self {entries : List Entry} (h : entries.any (·.primary) = true) :
    promote entries = entries := by
  fun_cases promote entries with
  | case1 => rfl
  | case2 => rfl
  | case3 _ _ hnone => exact absurd h hnone

theorem any_primary_promote {entries : List Entry} (h : entries ≠ []) :
    (promote entries).any (·.primary) = true := by
  fun_cases promote entries with
  | case1 => exact absurd rfl h
  | case2 _ _ hany => exact hany
  | case3 => rfl

theorem promote_promote (entries : List Entry) : promote (promote entries) = promote entries := by
  cases entries with
  | nil => rfl
  | cons e rest => exact promote_eq_self (any_primary_promote (by simp))

end Promote

end Custody.Protocol.Entry
