import Custody.Proofs.Protocol

/-!
The validation of an asset's protocols. Its answer is told from the list as it was given: the first
port out of range counts before all absent names, these before a list, and a list that validation
gives comes back from another one as it is.
-/
namespace Custody.Protocol.Demands

variable {d : Demands} {entries validated : List Entry}

def absent (d : Demands) (entries : List Entry) : List String :=
  d.required.filter fun name => name ∉ entries.map (·.name)

theorem absent_eq_nil_iff :
    d.absent entries = [] ↔ ∀ name ∈ d.required, name ∈ entries.map (·.name) := by
  simp [absent, List.filter_eq_nil_iff]

theorem absent_collect (d : Demands) (entries : List Entry) :
    (d.required.filter fun name => !(Entry.collect entries).any (·.name == name)) =
      d.absent entries := by
  apply List.filter_congr
  intro name _
  have hnames : name ∈ (Entry.collect entries).map (·.name) ↔ name ∈ entries.map (·.name) := by
    rw [Entry.map_name_collect, List.mem_eraseDups]
  rw [Bool.eq_iff_iff, decide_eq_true_iff, ← hnames]
  simp

theorem validate_of_inRange (h : ∀ e ∈ entries, e.portInRange = true) :
    d.validate entries =
      if d.absent entries ≠ [] then .error (.missingProtocols (d.absent entries))
      else .ok (Entry.promote (Entry.collect entries)) := by
  unfold validate
  rw [Entry.gather_eq_collect h, ← absent_collect]
  rfl

theorem validate_outOfRange {before : List Entry} (hbefore : ∀ e ∈ before, e.portInRange = true)
    {e : Entry} (he : e.portInRange = false) (after : List Entry) :
    d.validate (before ++ e :: after) = .error e.outOfRange := by
  unfold validate
  rw [Entry.gather_outOfRange hbefore he]
  rfl

theorem validate_eq_ok_iff : d.validate entries = .ok validated ↔
    (∀ e ∈ entries, e.portInRange = true) ∧
      (∀ name ∈ d.required, name ∈ entries.map (·.name)) ∧
      Entry.promote (Entry.collect entries) = validated := by
  rcases Entry.inRange_or_split entries with hall | ⟨before, e, after, rfl, hbefore, he⟩
  · rw [validate_of_inRange hall, ← absent_eq_nil_iff]
    split
    · next hsome => simp [hsome]
    · next hnone => simpa [Decidable.not_not.mp hnone] using fun _ => hall
  · have hsome : ¬ ∀ f ∈ before ++ e :: after, f.portInRange = true := fun hall =>
      absurd (hall e (by simp)) (by simp [he])
    rw [validate_outOfRange hbefore he]
    exact ⟨nofun, fun h => absurd h.1 hsome⟩

theorem nodup_of_validate (h : d.validate entries = .ok validated) :
    (validated.map (·.name)).Nodup := by
  obtain ⟨-, -, rfl⟩ := validate_eq_ok_iff.mp h
  rw [Entry.map_name_promote]
  exact Entry.nodup_collect entries

theorem portInRange_of_validate (h : d.validate entries = .ok validated) :
    ∀ e ∈ validated, e.portInRange = true := by
  obtain ⟨hports, -, rfl⟩ := validate_eq_ok_iff.mp h
  intro e he
  have hmem := List.mem_map_of_mem (f := fun e : Entry => e.portInRange) he
  rw [Entry.map_promote fun _ => rfl] at hmem
  obtain ⟨f, hf, heq⟩ := List.mem_map.mp hmem
  rw [← heq]
  exact hports f (Entry.mem_collect_iff.mp hf).mem

theorem required_of_validate (h : d.validate entries = .ok validated) :
    ∀ name ∈ d.required, name ∈ validated.map (·.name) := by
  obtain ⟨-, hrequired, rfl⟩ := validate_eq_ok_iff.mp h
  intro name hname
  rw [Entry.map_name_promote, Entry.map_name_collect, List.mem_eraseDups]
  exact hrequired name hname

theorem validate_validated (h : d.validate entries = .ok validated) :
    d.validate validated = .ok validated := by
  apply validate_eq_ok_iff.mpr
  refine ⟨portInRange_of_validate h, required_of_validate h, ?_⟩
  rw [Entry.collect_eq_self (nodup_of_validate h)]
  obtain ⟨-, -, rfl⟩ := validate_eq_ok_iff.mp h
  exact Entry.promote_promote _

/-- The answer to a list of entries, in terms of this list. -/
structure Judged (d : Demands) (entries : List Entry) : Prop where
  /-- The first entry whose port is out of range is named. -/
  range : ∀ before e after, entries = before ++ e :: after →
    (∀ f ∈ before, 1 ≤ f.port ∧ f.port ≤ 65535) → ¬ (1 ≤ e.port ∧ e.port ≤ 65535) →
    d.validate entries = .error (.range (.port e.name))
  /-- All required names that are absent are named, in the order of the demands. -/
  missing : (∀ e ∈ entries, 1 ≤ e.port ∧ e.port ≤ 65535) →
    d.absent entries ≠ [] → d.validate entries = .error (.missingProtocols (d.absent entries))
  /-- Else each name keeps its first place and its last entry, and one of them is primary. -/
  valid : (∀ e ∈ entries, 1 ≤ e.port ∧ e.port ≤ 65535) → d.absent entries = [] →
    ∃ latest, latest.map (·.name) = (entries.map (·.name)).eraseDups ∧
      (∀ e ∈ latest, Rows.LastBy (·.name) e entries) ∧
      d.validate entries = .ok (if latest.any (·.primary) then latest
        else latest.modifyHead ({ · with primary := true }))
  again : ∀ validated, d.validate entries = .ok validated → d.validate validated = .ok validated

theorem judged (d : Demands) (entries : List Entry) : d.Judged entries where
  range := by
    rintro before e after rfl hbefore he
    apply validate_outOfRange
    · exact fun f hf => Entry.portInRange_iff.mpr (hbefore f hf)
    · rwa [← Bool.not_eq_true, Entry.portInRange_iff]
  missing hports hsome := by
    rw [validate_of_inRange fun e he => Entry.portInRange_iff.mpr (hports e he), if_pos hsome]
  valid hports hnone := by
    refine ⟨Entry.collect entries, Entry.map_name_collect entries, ?_, ?_⟩
    · exact fun e he => Entry.mem_collect_iff.mp he
    · rw [validate_of_inRange fun e he => Entry.portInRange_iff.mpr (hports e he)]
      rw [if_neg (not_not.mpr hnone), Entry.promote_eq]
  again _ := validate_validated

/-- The last port given for a name counts, and the only entry becomes primary. -/
example : Demands.validate ⟨["ssh"], []⟩ [⟨"ssh", 22, false⟩, ⟨"ssh", 2222, false⟩] =
    .ok [⟨"ssh", 2222, true⟩] := rfl

structure Met (d : Demands) (entries : List Entry) : Prop where
  names : (entries.map (·.name)).Nodup
  ports : ∀ e ∈ entries, e.portInRange = true
  required : ∀ name ∈ d.required, name ∈ entries.map (·.name)
  primary : entries.any (·.primary) = true

theorem Met.validate (h : d.Met entries) : d.validate entries = .ok entries := by
  apply validate_eq_ok_iff.mpr
  refine ⟨h.ports, h.required, ?_⟩
  rw [Entry.collect_eq_self h.names]
  exact Entry.promote_eq_self h.primary

theorem met_of_validate (hrequired : d.required ≠ []) (h : d.validate entries = .ok validated) :
    d.Met validated where
  names := nodup_of_validate h
  ports := portInRange_of_validate h
  required := required_of_validate h
  primary := by
    -- A required name is there, so there is an entry to make primary.
    obtain ⟨-, hall, rfl⟩ := validate_eq_ok_iff.mp h
    obtain ⟨name, hname⟩ := List.exists_mem_of_ne_nil _ hrequired
    apply Entry.any_primary_promote
    intro hnil
    have hmem := List.mem_eraseDups.mpr (hall name hname)
    rw [← Entry.map_name_collect, hnil] at hmem
    cases hmem

theorem Met.perm {entries' : List Entry} (h : d.Met entries) (hperm : entries.Perm entries') :
    d.Met entries' where
  names := ((hperm.map _).nodup_iff).mp h.names
  ports e he := h.ports e (hperm.mem_iff.mpr he)
  required name hname := (hperm.map _).mem_iff.mp (h.required name hname)
  primary := by
    obtain ⟨e, he, hprimary⟩ := List.any_eq_true.mp h.primary
    exact List.any_eq_true.mpr ⟨e, hperm.mem_iff.mp he, hprimary⟩

end Custody.Protocol.Demands
