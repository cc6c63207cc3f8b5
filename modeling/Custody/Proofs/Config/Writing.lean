import Custody.Proofs.Config.Reading
import Custody.Proofs.Kdl.Spelling
import Mathlib.Data.List.Nodup

/-!
The document of a configuration, line by line, and how far it is read as it is written.
-/
namespace Custody

def Labeled.Plain (l : Labeled) : Prop := Kdl.Plain l.value ∧ Kdl.Plain l.label

namespace Config

open Kdl

/-! ### What is written -/

namespace Settings

def entries (s : Settings) : List Kdl.Entry :=
  s.toList.map fun (k, v) => .property k.name ⟨none, .text v⟩

theorem print_toList (s : Settings) : s.print.toList = s.entries.flatMap Entry.spell := by
  unfold print entries
  rw [String.toList_join, List.flatMap_map, List.flatMap_map]
  congr 1
  funext ⟨k, v⟩
  simp [Entry.spell, Literal.spell, inQuotes]

end Settings

def settings (c : Config) : Settings := c.defaults.getD .empty

theorem get_settings (c : Config) (k : Key) : c.settings.get k = c.get k := by
  unfold settings get
  cases c.defaults with
  | none => cases k <;> rfl
  | some s => rfl

def settingsLine (c : Config) : Line := ⟨"defaults", c.settings.entries⟩

def labelLine (l : Labeled) : Line :=
  ⟨"label", [.argument ⟨none, .text l.value⟩, .argument ⟨none, .text l.label⟩]⟩

theorem printLabel_toList (l : Labeled) : (printLabel l).toList = (labelLine l).spell := by
  simp [printLabel, labelLine, Line.spell, Entry.spell, Literal.spell, inQuotes]

def gap (c : Config) : List Char := if c.labels.isEmpty then [] else ['\n']

theorem print_toList (c : Config) : c.print.toList = header.toList ++
    (c.settingsLine.spell ++ (c.gap ++ (c.labels.map labelLine).flatMap Line.spell)) := by
  have hlabels : (String.join (c.labels.map printLabel)).toList =
      (c.labels.map labelLine).flatMap Line.spell := by
    rw [String.toList_join, List.flatMap_map, List.flatMap_map]
    exact congrArg (c.labels.flatMap ·) (funext printLabel_toList)
  have hsettings : ((c.defaults.map (·.print)).getD "").toList =
      c.settings.entries.flatMap Entry.spell := by
    unfold settings
    cases c.defaults with
    | none => rfl
    | some s => exact s.print_toList
  have hgap : (if c.labels.isEmpty then "" else "\n").toList = c.gap := by
    unfold gap
    split <;> rfl
  unfold print
  rw [String.toList_append, hlabels, String.toList_append, hgap, String.toList_append,
    String.toList_append, hsettings, String.toList_append]
  simp [settingsLine, Line.spell]

theorem bare_name (k : Key) : Bare k.name := by
  cases k <;> exact ⟨_, _, rfl, ⟨rfl, rfl, rfl, by decide⟩, List.all_eq_true.mp rfl⟩

theorem bare_defaults : Bare "defaults" :=
  ⟨_, _, rfl, ⟨rfl, rfl, rfl, by decide⟩, List.all_eq_true.mp rfl⟩

theorem bare_label : Bare "label" :=
  ⟨_, _, rfl, ⟨rfl, rfl, rfl, by decide⟩, List.all_eq_true.mp rfl⟩

/-! ### What is read -/

namespace Settings

theorem mem_toList {s : Settings} {k : Key} {v : String} :
    (k, v) ∈ s.toList ↔ s.get k = some v := by
  unfold toList
  rw [List.mem_filterMap]
  constructor
  · rintro ⟨l, -, h⟩
    obtain ⟨w, hw, heq⟩ := Option.map_eq_some_iff.mp h
    cases heq
    exact hw
  · exact fun h => ⟨k, by cases k <;> decide, by rw [h]; rfl⟩

theorem mem_entries {s : Settings} {e : Kdl.Entry} :
    e ∈ s.entries ↔ ∃ k v, s.get k = some v ∧ e = .property k.name ⟨none, .text v⟩ := by
  simp [entries, mem_toList, eq_comm]

theorem get_of_mem_entries {s : Settings} {k : Key} {v : Value}
    (h : .property k.name v ∈ s.entries) : ∃ w, s.get k = some w ∧ v = ⟨none, .text w⟩ := by
  obtain ⟨l, w, hw, heq⟩ := mem_entries.mp h
  injection heq with hname hv
  exact ⟨w, Key.name_injective hname ▸ hw, hv⟩

theorem eq_of_mem_entries {s : Settings} {k : Key} {v w : Value}
    (hv : .property k.name v ∈ s.entries) (hw : .property k.name w ∈ s.entries) : v = w := by
  obtain ⟨t, ht, rfl⟩ := get_of_mem_entries hv
  obtain ⟨u, hu, rfl⟩ := get_of_mem_entries hw
  rw [Option.some.inj (ht.symm.trans hu)]

theorem nodup_entries (s : Settings) : s.entries.Nodup := by
  unfold entries toList
  rw [List.map_filterMap]
  refine List.Nodup.filterMap (fun k l e hk hl => ?_) (by decide)
  simp only [Option.map_map, Option.mem_def, Option.map_eq_some_iff] at hk hl
  obtain ⟨v, -, rfl⟩ := hk
  obtain ⟨w, -, heq⟩ := hl
  injection heq with hname
  exact Key.name_injective hname.symm

theorem settingsOf?_entries (s : Settings) (name : String) :
    settingsOf? (.ofEntries none name s.entries []) = some s := by
  obtain ⟨t, ht⟩ : ∃ t, settingsOf? (.ofEntries none name s.entries []) = some t := by
    have harguments : (Kdl.Node.ofEntries none name s.entries []).arguments = [] := by
      refine List.filterMap_eq_nil_iff.mpr fun e he => ?_
      obtain ⟨k, v, -, rfl⟩ := mem_entries.mp he
      rfl
    unfold settingsOf?
    rw [harguments]
    refine exists_foldlM_put (fun p hp => ?_) .empty
    rw [properties_ofEntries] at hp
    obtain ⟨e, he, hproperty⟩ :=
      List.mem_filterMap.mp ((mem_placeAll hp).resolve_right List.not_mem_nil)
    obtain ⟨k, v, -, rfl⟩ := mem_entries.mp he
    cases hproperty
    exact ⟨k, some v, rfl, rfl⟩
  rw [ht]
  refine congrArg some (ext fun k => Option.ext fun v => ?_)
  rw [get_settingsOf? ht]
  constructor
  · intro h
    obtain ⟨w, hw, heq⟩ := get_of_mem_entries (get?_properties h)
    cases heq
    exact hw
  · intro h
    have hmem : k.name ∈ (s.entries.filterMap Entry.property?).map (·.1) :=
      List.mem_map.mpr ⟨_, List.mem_filterMap.mpr ⟨_, mem_entries.mpr ⟨k, v, h, rfl⟩, rfl⟩, rfl⟩
    obtain ⟨w, hw⟩ := Option.isSome_iff_exists.mp (isSome_get?_placeAll (o := []) (.inl hmem))
    rw [← properties_ofEntries none name s.entries []] at hw
    obtain ⟨u, hu, rfl⟩ := get_of_mem_entries (get?_properties hw)
    rw [h] at hu
    cases hu
    exact hw

end Settings

theorem skip_header {name : String} (hname : Bare name) (r : List Char) :
    skip lineSpace? (header.toList ++ (name.toList ++ r)) = name.toList ++ r :=
  skipUpTo_of_none (hname.lineSpace? r) _

theorem nodes_gap (c : Config) (fuel : Nat) :
    nodes (fuel + 1) (c.gap ++ (c.labels.map labelLine).flatMap Line.spell) =
      nodes (fuel + 1) ((c.labels.map labelLine).flatMap Line.spell) := by
  unfold gap
  cases c.labels with
  | nil => rfl
  | cons l rest =>
    obtain ⟨r, hr⟩ : ∃ r, ((l :: rest).map labelLine).flatMap Line.spell = "label".toList ++ r :=
      ⟨_, Line.spell_append _ _⟩
    have hspace := bare_label.lineSpace? r
    have hskip : skip lineSpace? ('\n' :: ("label".toList ++ r)) = "label".toList ++ r :=
      skipUpTo_of_none hspace _
    rw [hr]
    change nodes (fuel + 1) ('\n' :: ("label".toList ++ r)) = _
    rw [nodes_name bare_label hskip, nodes_name bare_label (skip_of_none hspace)]

theorem spelt_settingsLine {c : Config} (h : ∀ k v, c.get k = some v → Kdl.Plain v) :
    c.settingsLine.Spelt where
  name := bare_defaults
  entries e he := by
    obtain ⟨k, v, hv, rfl⟩ := Settings.mem_entries.mp he
    exact .property (bare_name k) (h k v (c.get_settings k ▸ hv))

theorem spelt_labelLine {l : Labeled} (h : l.Plain) :
    (labelLine l).Spelt where
  name := bare_label
  entries e he := by
    simp only [labelLine, List.mem_cons, List.not_mem_nil, or_false] at he
    rcases he with rfl | rfl
    · exact .argument h.1
    · exact .argument h.2

theorem nodes_print {c : Config} (h : ∀ k v, c.get k = some v → Kdl.Plain v) (fuel : Nat) :
    nodes (fuel + 2) c.print.toList =
      let labels := nodes (fuel + 1) ((c.labels.map labelLine).flatMap Line.spell)
      (c.settingsLine.node :: labels.1, labels.2) := by
  have hskip : ∀ r, skip lineSpace? (header.toList ++ (c.settingsLine.spell ++ r)) =
      c.settingsLine.spell ++ r := by
    intro r
    rw [Line.spell_append]
    exact skip_header bare_defaults _
  rw [print_toList, nodes_spell (spelt_settingsLine h) (hskip _), nodes_gap]

end Config

end Custody
