import Custody.Proofs.Protocol.Validation

/-!
The entries that stand in where an asset names no protocols. They are the platform's required and
suggested protocols, each once, and every platform that was built accepts them.
-/
namespace Custody

namespace Protocol.Entry

/-- The entry for a protocol of the platform; no such entry is primary. -/
def standIn (q : Protocol) : Entry := ⟨q.name, q.port.toNat, false⟩

theorem map_name_standIn (qs : List Protocol) :
    (qs.map standIn).map (·.name) = qs.map (·.name) := by
  rw [List.map_map]
  rfl

theorem portInRange_standIn {q : Protocol} (h : q.port ≠ 0) : (standIn q).portInRange = true := by
  have hpos : 0 < q.port.toNat := by
    apply Nat.pos_of_ne_zero
    intro hzero
    exact h (UInt16.toNat_inj.mp hzero)
  have hbound : q.port.toNat < 65536 := q.port.toNat_lt
  rw [portInRange_iff]
  simp only [standIn]
  omega

theorem foldl_unless_named {entries : List Entry} (h : (entries.map (·.name)).Nodup)
    (acc : List Entry) :
    entries.foldl (fun acc e => if acc.any (·.name == e.name) then acc else acc ++ [e]) acc =
      acc ++ entries.filter fun e => !acc.any (·.name == e.name) := by
  induction entries generalizing acc with
  | nil => simp
  | cons e rest ih =>
    obtain ⟨hnew, hrest⟩ := List.nodup_cons.mp h
    rw [List.foldl_cons, ih hrest]
    cases hnamed : acc.any (·.name == e.name) with
    | true => simp [hnamed]
    | false =>
      have hothers : (rest.filter fun f => !(acc ++ [e]).any (·.name == f.name)) =
          rest.filter fun f => !acc.any (·.name == f.name) := by
        apply List.filter_congr
        intro f hf
        have hne : e.name ≠ f.name := fun heq =>
          hnew (List.mem_map.mpr ⟨f, hf, heq.symm⟩)
        simp [hne]
      rw [if_neg (by simp), hothers, List.filter_cons, hnamed, List.append_assoc]
      rfl

end Protocol.Entry

namespace Platform

open Protocol (Entry)

variable {p : Platform}

/-- The protocols that the platform insists on, then those that it only suggests. -/
def offered (p : Platform) : List Protocol :=
  p.protocols.filter (fun q => q.required || q.primary) ++
    p.protocols.filter fun q => q.isDefault && !(q.required || q.primary)

theorem mem_offered {q : Protocol} :
    q ∈ p.offered ↔ q ∈ p.protocols ∧ (q.required ∨ q.primary ∨ q.isDefault) := by
  simp only [offered, List.mem_append, List.mem_filter]
  cases q.required <;> cases q.primary <;> cases q.isDefault <;> simp

theorem nodup_offered (h : Normalized p.protocols) : (p.offered.map (·.name)).Nodup := by
  rw [offered, List.map_append, List.nodup_append]
  refine ⟨Rows.nodup_filter h.names _, Rows.nodup_filter h.names _, ?_⟩
  intro name hfirst name' hlast heq
  simp only [List.mem_map, List.mem_filter] at hfirst hlast
  obtain ⟨q, ⟨hq, hinsisted⟩, rfl⟩ := hfirst
  obtain ⟨r, ⟨hr, hsuggested⟩, rfl⟩ := hlast
  obtain rfl := Rows.eq_of_key_eq h.names hq hr heq
  simp [hinsisted] at hsuggested

theorem contains_demands (h : Normalized p.protocols) {q : Protocol} (hq : q ∈ p.protocols) :
    p.demands.required.contains q.name = (q.required || q.primary) := by
  rw [Bool.eq_iff_iff, List.contains_iff_mem, mem_demands_required]
  constructor
  · rintro ⟨r, hr, hflags, hname⟩
    rwa [Rows.eq_of_key_eq h.names hr hq hname] at hflags
  · exact fun hflags => ⟨q, hq, hflags, rfl⟩

theorem any_name_insisted (h : Normalized p.protocols) {q : Protocol} (hq : q ∈ p.protocols) :
    ((p.protocols.filter fun q => q.required || q.primary).map Entry.standIn).any
      (·.name == q.name) = (q.required || q.primary) := by
  rw [← contains_demands h hq, Bool.eq_iff_iff, List.contains_iff_mem, mem_demands_required]
  simp [Entry.standIn]

theorem entriesFor_eq (h : Normalized p.protocols) :
    p.demands.entriesFor p = p.offered.map Entry.standIn := by
  have hinsisted : (p.protocols.filter fun q => p.demands.required.contains q.name) =
      p.protocols.filter fun q => q.required || q.primary :=
    List.filter_congr fun q hq => contains_demands h hq
  have hnames (f : Protocol → Bool) :
      (((p.protocols.filter f).map Entry.standIn).map (·.name)).Nodup := by
    rw [Entry.map_name_standIn]
    exact Rows.nodup_filter h.names f
  have hfirst (qs : List Entry) : (qs.filter fun e => !([] : List Entry).any (·.name == e.name)) =
      qs := List.filter_eq_self.mpr fun _ _ => rfl
  change ((p.protocols.filter fun q => p.demands.required.contains q.name).map Entry.standIn ++
    (p.protocols.filter (·.isDefault)).map Entry.standIn).foldl _ [] = _
  rw [hinsisted, List.foldl_append, Entry.foldl_unless_named (hnames _),
    Entry.foldl_unless_named (hnames _), hfirst, List.nil_append, offered, List.map_append,
    List.filter_map, List.filter_filter]
  congr 2
  apply List.filter_congr
  intro q hq
  rw [Function.comp_apply, show (Entry.standIn q).name = q.name from rfl, any_name_insisted h hq,
    Bool.and_comm]

structure StandsIn (p : Platform) (entries : List Entry) : Prop where
  valid : p.demands.validate (p.demands.entriesFor p) = .ok entries
  order : entries.map (fun e => (e.name, e.port)) =
    p.offered.map fun q => (q.name, (q.port.toNat : Int))
  names : ∀ name, name ∈ entries.map (·.name) ↔
    ∃ q ∈ p.protocols, (q.required ∨ q.primary ∨ q.isDefault) ∧ q.name = name
  once : (entries.map (·.name)).Nodup
  primary : ∃ first rest, entries = first :: rest ∧ first.primary = true ∧
    ∀ e ∈ rest, e.primary = false
  stored : ∀ e ∈ entries, ∃ q, e.toProtocol = .ok q

/-- There is a first protocol that the platform insists on, and it comes first. -/
theorem offered_eq_cons (h : Normalized p.protocols) :
    ∃ first rest, p.protocols.find? (fun q => q.required || q.primary) = some first ∧
      p.offered = first :: rest := by
  obtain ⟨q, hq, hprimary⟩ := h.primary
  have hinsisted : q ∈ p.protocols.filter fun q => q.required || q.primary :=
    List.mem_filter.mpr ⟨hq, by simp [hprimary]⟩
  obtain ⟨first, rest, hfilter⟩ := List.exists_cons_of_ne_nil (List.ne_nil_of_mem hinsisted)
  refine ⟨first, rest ++ p.protocols.filter fun q => q.isDefault && !(q.required || q.primary),
    ?_, ?_⟩
  · rw [← List.head?_filter, hfilter, List.head?_cons]
  · rw [offered, hfilter, List.cons_append]

theorem promote_standIn {first : Protocol} {rest : List Protocol}
    (h : p.offered = first :: rest) :
    Entry.promote (p.offered.map Entry.standIn) =
      { Entry.standIn first with primary := true } :: rest.map Entry.standIn := by
  have hnone : (p.offered.map Entry.standIn).any (·.primary) = false := by
    simp [Entry.standIn]
  rw [Entry.promote_eq, hnone, h]
  rfl

/-- No stand-in entry is primary, so the first one becomes it. -/
theorem validate_entriesFor (h : Normalized p.protocols) :
    p.demands.validate (p.demands.entriesFor p) =
      .ok (Entry.promote (p.offered.map Entry.standIn)) := by
  rw [entriesFor_eq h]
  apply Protocol.Demands.validate_eq_ok_iff.mpr
  refine ⟨?_, ?_, ?_⟩
  · intro e he
    obtain ⟨q, hq, rfl⟩ := List.mem_map.mp he
    exact Entry.portInRange_standIn (h.ports q (mem_offered.mp hq).1)
  · intro name hname
    obtain ⟨q, hq, hflags, rfl⟩ := mem_demands_required.mp hname
    rw [Entry.map_name_standIn]
    apply List.mem_map_of_mem
    rw [Bool.or_eq_true] at hflags
    exact mem_offered.mpr ⟨hq, hflags.imp_right .inl⟩
  · rw [Entry.collect_eq_self]
    rw [Entry.map_name_standIn]
    exact nodup_offered h

theorem standsIn (h : Normalized p.protocols) :
    p.StandsIn (Entry.promote (p.offered.map Entry.standIn)) where
  valid := validate_entriesFor h
  order := by
    rw [Entry.map_promote fun _ => rfl, List.map_map]
    rfl
  names name := by
    rw [Entry.map_name_promote, Entry.map_name_standIn]
    simp [mem_offered, and_assoc]
  once := by
    rw [Entry.map_name_promote, Entry.map_name_standIn]
    exact nodup_offered h
  primary := by
    obtain ⟨first, rest, -, hoffered⟩ := offered_eq_cons h
    rw [promote_standIn hoffered]
    refine ⟨_, rest.map Entry.standIn, rfl, rfl, fun e he => ?_⟩
    obtain ⟨r, -, rfl⟩ := List.mem_map.mp he
    rfl
  stored e he := by
    have hport := Protocol.Demands.portInRange_of_validate (validate_entriesFor h) e he
    exact ⟨_, if_pos hport⟩

end Platform

end Custody
