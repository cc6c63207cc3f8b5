import Custody.Proofs.Config.Setting
import Custody.Proofs.Kdl.Extent
import Mathlib.Data.List.Flatten
import Mathlib.Data.List.Perm.Subperm

/-!
Saving a configuration and reading it back. Nothing is escaped when it is written, so a text comes
back only if it needs no escapes.
-/
namespace Custody.Config

open Kdl

/-- All texts of the configuration may stand between quotes as they are. -/
structure Plain (c : Config) : Prop where
  settings : ∀ k v, c.get k = some v → Kdl.Plain v
  labels : ∀ l ∈ c.labels, l.Plain

/-- A configuration that reading gives back from what was written. -/
def Survives (c : Config) : Prop :=
  ∃ c', read c.print = .ok c' ∧ (∀ k, c'.get k = c.get k) ∧ c'.labels = c.labels

theorem Plain.survives {c : Config} (h : c.Plain) : c.Survives := by
  refine ⟨⟨some c.settings, c.labels⟩, read_eq_ok_iff.mpr
    ⟨c.settingsLine.node :: (c.labels.map labelLine).map Line.node, ?_, ?_⟩, c.get_settings, rfl⟩
  · have hlines : ∀ line ∈ c.labels.map labelLine, line.Spelt := by
      intro line hline
      obtain ⟨l, hl, rfl⟩ := List.mem_map.mp hline
      exact spelt_labelLine (h.labels l hl)
    have hlength := length_le_flatMap fun line hline => (hlines line hline).spell_ne_nil
    have hfuel : (c.labels.map labelLine).length < 3 * c.print.toList.length + 2 := by
      rw [print_toList]
      simp only [List.length_append]
      omega
    rw [nodes_print h.settings, nodes_lines hlines hfuel]
  · refine (ofNodes?_eq_some_iff rfl).mpr
      ⟨c.settings, c.labels, c.settings.settingsOf?_entries _, ?_, rfl⟩
    rw [List.map_map, List.forall₂_map_left_iff]
    exact List.forall₂_same.mpr fun l _ => ⟨rfl, rfl⟩

/-! ### Labels that are read back -/

theorem entries_of_labelOf? {name : String} {es : List Kdl.Entry} {ns : List Kdl.Node} {l : Labeled}
    (h : labelOf? (.ofEntries none name es ns) = some l) : es = (labelLine l).entries := by
  unfold labelOf? at h
  split at h
  · next value label _ harguments hproperties _ =>
    cases h
    rw [eq_arguments_of_properties hproperties, harguments]
    rfl
  · cases h

theorem Labels.spell {n : Kdl.Node} {l : Labeled} (h : Labels n l) :
    n.spell = (labelLine l).spell := by
  obtain ⟨hname, hlabel⟩ := h
  unfold labelOf? at hlabel
  split at hlabel
  · next harguments _ _ =>
    cases hlabel
    unfold Kdl.Node.spell
    rw [hname, harguments]
    rfl
  · cases hlabel

theorem spell_of_labels {ns : List Kdl.Node} {ls : List Labeled} (h : List.Forall₂ Labels ns ls) :
    ns.flatMap Kdl.Node.spell = (ls.map labelLine).flatMap Line.spell := by
  induction h with
  | nil => rfl
  | cons hn _ ih =>
    rw [List.flatMap_cons, List.map_cons, List.flatMap_cons, ih, hn.spell]

theorem plain_of_node {l : Labeled} {fuel : Nat} {r rest : List Char} {n : Kdl.Node}
    (h : node (fuel + 1) ((labelLine l).spell ++ r) = some (n, rest)) (hn : labelOf? n = some l) :
    l.Plain := by
  have hspell : (labelLine l).spell ++ r = "label".toList ++ (' ' :: '"' :: (l.value.toList ++
      '"' :: ' ' :: '"' :: (l.label.toList ++ '"' :: '\n' :: r))) := by
    simp [Line.spell, labelLine, Entry.spell, Literal.spell]
  rw [hspell, node_name bare_label (.blank _)] at h
  obtain ⟨⟨ns, rest'⟩, -, heq⟩ := Option.map_eq_some_iff.mp h
  obtain ⟨rfl, -⟩ := Prod.mk.inj heq
  obtain ⟨hvalue, hlabel⟩ := plain_of_entries (entries_of_labelOf? hn)
  exact ⟨hvalue, (plain_of_entries hlabel).1⟩

theorem plain_of_nodes {ls : List Labeled} {fuel : Nat} {ns : List Kdl.Node} {rest : List Char}
    (h : nodes fuel ((ls.map labelLine).flatMap Line.spell) = (ns, rest))
    (hns : List.Forall₂ Labels ns ls) : ∀ l ∈ ls, l.Plain := by
  induction ls generalizing fuel ns with
  | nil => exact nofun
  | cons l ls ih =>
    obtain _ | @⟨n, _, ns, _, ⟨hname, hlabel⟩, hns⟩ := hns
    obtain ⟨r, hr⟩ : ∃ r, (labelLine l).spell ++ (ls.map labelLine).flatMap Line.spell =
      "label".toList ++ r := ⟨_, Line.spell_append _ _⟩
    cases fuel with
    | zero => cases h
    | succ fuel =>
      rw [List.map_cons, List.flatMap_cons, hr,
        nodes_name bare_label (skip_of_none (bare_label.lineSpace? r)), ← hr] at h
      split at h
      · cases h
      · next m rest' hnode =>
        cases h
        cases fuel with
        | zero => cases hnode
        | succ fuel =>
          have hl := plain_of_node hnode hlabel
          rw [Line.node_spell (spelt_labelLine hl)] at hnode
          cases hnode
          exact List.forall_mem_cons.mpr ⟨hl, ih rfl hns⟩

/-! ### Settings that are read back -/

theorem entries_of_survives {c : Config} (h : c.Survives) {r : List Char} (hr : Stops r)
    (hprint : c.print.toList = header.toList ++ ("defaults".toList ++ r)) :
    c.settings.entries ⊆ (entries r.length r).1 ∧
      ((c.labels.map labelLine).flatMap Line.spell).length ≤ (entries r.length r).2.length := by
  obtain ⟨c', hread, hget, hlabels⟩ := h
  obtain ⟨ns, hns, hc'⟩ := read_eq_ok_iff.mp hread
  obtain ⟨fuel, hfuel⟩ : ∃ fuel, 3 * c.print.toList.length + 3 = fuel + 2 := ⟨_, rfl⟩
  rw [hfuel, hprint, nodes_name bare_defaults (skip_header bare_defaults r),
    node_name bare_defaults hr] at hns
  cases hclose : close? fuel (entries r.length r).2 with
  | none =>
    rw [hclose] at hns
    cases hns
  | some p =>
    obtain ⟨inner, rest⟩ := p
    rw [hclose] at hns
    obtain ⟨rfl, hrest⟩ := Prod.mk.inj hns
    obtain ⟨t, ls, ht, hls, rfl⟩ := (ofNodes?_eq_some_iff rfl).mp hc'
    obtain rfl : ls = c.labels := hlabels
    constructor
    · intro e he
      obtain ⟨k, v, hv, rfl⟩ := Settings.mem_entries.mp he
      refine get?_properties ((get_settingsOf? ht).mp ?_)
      rw [← hv, get_settings]
      exact hget k
    · have hnodes := (bounded (fuel + 1)).nodes rest
      rw [spell_of_labels hls, hrest] at hnodes
      exact Nat.le_trans hnodes ((bounded fuel).close? hclose)

def behind (c : Config) (es : List Kdl.Entry) : List Char :=
  es.flatMap Entry.spell ++ '\n' :: (c.gap ++ (c.labels.map labelLine).flatMap Line.spell)

theorem behind_length (c : Config) (es : List Kdl.Entry) :
    (c.behind es).length ≤ (es.flatMap Entry.spell).length + 2 +
      ((c.labels.map labelLine).flatMap Line.spell).length := by
  have hgap : c.gap.length ≤ 1 := by
    unfold gap
    split <;> simp
  simp only [behind, List.length_append, List.length_cons]
  omega

theorem length_flatMap_spell_le {es fs : List Kdl.Entry} (hes : es.Nodup) (h : es ⊆ fs) :
    (es.flatMap Entry.spell).length ≤ (fs.flatMap Entry.spell).length := by
  obtain ⟨gs, hperm, hsub⟩ := List.subperm_of_subset hes h
  rw [← (hperm.flatMap_right Entry.spell).length_eq]
  exact (hsub.flatMap Entry.spell).length_le

theorem eq_of_entries {c : Config} {pre post : List Kdl.Entry} {k : Key} {v : String}
    (hentries : c.settings.entries = pre ++ .property k.name ⟨none, .text v⟩ :: post)
    {s rest : List Char} (hquoted : quoted (v.toList ++ '"' :: c.behind post) = some (s, rest))
    {fuel : Nat} (hsettings : .property k.name ⟨none, .text v⟩ :: post ⊆
      .property k.name ⟨none, .text (.ofList s)⟩ :: (entries fuel rest).1)
    (hlabels : ((c.labels.map labelLine).flatMap Line.spell).length ≤
      (entries fuel rest).2.length) : s = v.toList := by
  -- A text that was read as another would have to come once more in what is left, for which that is
  -- too short.
  refine Decidable.byContradiction fun hne => ?_
  have hmem {e} (he : e ∈ .property k.name ⟨none, .text v⟩ :: post) : e ∈ c.settings.entries :=
    hentries ▸ List.mem_append_right pre he
  have hagain : .property k.name ⟨none, .text v⟩ :: post ⊆ (entries fuel rest).1 := by
    refine fun e he => (List.mem_cons.mp (hsettings he)).resolve_left ?_
    rintro rfl
    injection Settings.eq_of_mem_entries (hmem he) (hmem (.head post)) with _ hliteral
    injection hliteral with htext
    exact hne (by rw [← htext, String.toList_ofList])
  have hnodup := (List.nodup_append.mp (hentries ▸ c.settings.nodup_entries)).2.1
  have hneeded := length_flatMap_spell_le hnodup hagain
  have hleft := entries_length fuel rest
  have hread := quoted_length hquoted
  have hbehind := c.behind_length post
  simp only [List.flatMap_cons, List.length_append, List.length_cons, Entry.spell,
    length_spell_text] at hneeded hread
  omega

theorem plain_of_survives {c : Config} (h : c.Survives) {pre post : List Kdl.Entry} {k : Key}
    {v : String} (hentries : c.settings.entries = pre ++ .property k.name ⟨none, .text v⟩ :: post)
    (hpre : ∀ e ∈ pre, e.Spelt) : Kdl.Plain v := by
  let cs := v.toList ++ '"' :: c.behind post
  let r := pre.flatMap Entry.spell ++ ' ' :: (k.name.toList ++ '=' :: '"' :: cs)
  have hstops : Stops (' ' :: (k.name.toList ++ '=' :: '"' :: cs)) := .blank _
  have hprint : c.print.toList = header.toList ++ ("defaults".toList ++ r) := by
    rw [print_toList, settingsLine, Line.spell_append]
    simp [hentries, r, cs, behind, Entry.spell, Literal.spell]
  obtain ⟨spare, hspare⟩ : ∃ spare, r.length = spare + 1 + pre.length := by
    have hlength := length_le_flatMap fun e he => (hpre e he).spell_ne_nil
    refine ⟨r.length - pre.length - 1, ?_⟩
    simp only [r, List.length_append, List.length_cons]
    omega
  obtain ⟨hsettings, hlabels⟩ := entries_of_survives h (hstops.flatMap hpre) hprint
  rw [hspare, entries_spell hpre hstops] at hsettings hlabels
  have hbehind : .property k.name ⟨none, .text v⟩ :: post ⊆
      (entries (spare + 1) (' ' :: (k.name.toList ++ '=' :: '"' :: cs))).1 := by
    have hapart := (List.nodup_append.mp (hentries ▸ c.settings.nodup_entries)).2.2
    refine fun e he => (List.mem_append.mp (hsettings ?_)).resolve_left fun hin =>
      hapart e hin e he rfl
    exact hentries ▸ List.mem_append_right pre he
  rw [entries_name (bare_name k)] at hbehind hlabels
  cases hquoted : quoted cs with
  | none =>
    rw [hquoted] at hbehind
    cases hbehind (.head post)
  | some p =>
    obtain ⟨s, rest⟩ := p
    rw [hquoted] at hbehind hlabels
    obtain rfl := eq_of_entries hentries hquoted hbehind hlabels
    exact (quoted_eq_self_iff.mp hquoted).1

theorem spelt_of_survives {c : Config} (h : c.Survives) {pre post : List Kdl.Entry}
    (hentries : c.settings.entries = pre ++ post) (hpre : ∀ e ∈ pre, e.Spelt) :
    ∀ e ∈ post, e.Spelt := by
  induction post generalizing pre with
  | nil => exact nofun
  | cons e post ih =>
    have he : e.Spelt := by
      obtain ⟨k, v, -, rfl⟩ := Settings.mem_entries.mp
        (hentries ▸ List.mem_append_right pre (.head post))
      exact .property (bare_name k) (plain_of_survives h hentries hpre)
    have hmore : ∀ f ∈ pre ++ [e], f.Spelt :=
      List.forall_mem_append.mpr ⟨hpre, List.forall_mem_singleton.mpr he⟩
    exact List.forall_mem_cons.mpr ⟨he, ih (by simp [hentries]) hmore⟩

/-! ### What survives -/

theorem survives_iff_plain (c : Config) : c.Survives ↔ c.Plain := by
  refine ⟨fun h => ?_, Plain.survives⟩
  have hsettings : ∀ k v, c.get k = some v → Kdl.Plain v := by
    intro k v hv
    have hmem := Settings.mem_entries.mpr ⟨k, v, c.get_settings k ▸ hv, rfl⟩
    cases spelt_of_survives h (List.nil_append _).symm (by simp) _ hmem with
    | property _ hplain => exact hplain
  refine ⟨hsettings, ?_⟩
  obtain ⟨c', hread, -, hlabels⟩ := h
  obtain ⟨ns, hns, hc'⟩ := read_eq_ok_iff.mp hread
  rw [nodes_print hsettings] at hns
  obtain ⟨rfl, hrest⟩ := Prod.mk.inj hns
  obtain ⟨t, ls, -, hls, rfl⟩ := (ofNodes?_eq_some_iff rfl).mp hc'
  obtain rfl : ls = c.labels := hlabels
  exact plain_of_nodes rfl hls

theorem set_of_ok {c : Config} {key value : String} (h : (c.set key value).1 = .ok ()) :
    ∃ k, k.name = key ∧
      (c.set key value).2 = { c with defaults := some (c.settings.set k (some value)) } := by
  rcases set_cases c key value with ⟨k, hname, -, hset⟩ | ⟨-, e, hset⟩
  · exact ⟨k, hname, congrArg Prod.snd hset⟩
  · rw [hset] at h
    cases h

theorem plain_set_iff {c : Config} {k : Key} {value : String} :
    Plain { c with defaults := some (c.settings.set k (some value)) } ↔ Kdl.Plain value ∧
      (∀ l v, l.name ≠ k.name → c.get l = some v → Kdl.Plain v) ∧
      ∀ l ∈ c.labels, l.Plain := by
  have hother {l : Key} (hl : l.name ≠ k.name) :
      (c.settings.set k (some value)).get l = c.get l := by
    rw [Settings.get_set_of_ne _ _ (fun heq => hl (congrArg Key.name heq)), get_settings]
  constructor
  · rintro ⟨hsettings, hlabels⟩
    exact ⟨hsettings k value (Settings.get_set_self ..),
      fun l v hl hv => hsettings l v ((hother hl).trans hv), hlabels⟩
  · rintro ⟨hvalue, hothers, hlabels⟩
    refine ⟨fun l v hv => ?_, hlabels⟩
    change (c.settings.set k (some value)).get l = some v at hv
    by_cases hl : l.name = k.name
    · rw [Key.name_injective hl, Settings.get_set_self] at hv
      cases hv
      exact hvalue
    · exact hothers l v hl (hother hl ▸ hv)

theorem plain_setLabel_iff {c : Config} {value label : String} :
    (c.setLabel value label).Plain ↔ (Kdl.Plain value ∧ Kdl.Plain label) ∧
      (∀ k v, c.get k = some v → Kdl.Plain v) ∧
      ∀ l ∈ c.labels, l.value ≠ value → l.Plain := by
  have hlabels : (∀ l ∈ (c.setLabel value label).labels, l.Plain) ↔
      (∀ l ∈ c.labels, l.value ≠ value → l.Plain) ∧
        Kdl.Plain value ∧ Kdl.Plain label := by
    unfold setLabel
    rw [List.forall_mem_append, List.forall_mem_singleton]
    simp only [List.mem_filter, decide_eq_true_eq, and_imp]
    rfl
  constructor
  · rintro ⟨hsettings, h⟩
    exact ⟨(hlabels.mp h).2, hsettings, (hlabels.mp h).1⟩
  · rintro ⟨hown, hsettings, hothers⟩
    exact ⟨hsettings, hlabels.mpr ⟨hothers, hown⟩⟩

/-- A change survives a reload exactly if neither its texts nor those that it leaves hold a quote or
a backslash. -/
theorem change_survives_iff (c : Config) :
    (∀ key value, (c.set key value).1 = .ok () →
      ((c.set key value).2.Survives ↔ Kdl.Plain value ∧
        (∀ k v, k.name ≠ key → c.get k = some v → Kdl.Plain v) ∧
        ∀ l ∈ c.labels, l.Plain)) ∧
    ∀ value label, (c.setLabel value label).Survives ↔ (Kdl.Plain value ∧ Kdl.Plain label) ∧
      (∀ k v, c.get k = some v → Kdl.Plain v) ∧
      ∀ l ∈ c.labels, l.value ≠ value → l.Plain := by
  refine ⟨fun key value hok => ?_, fun value label => ?_⟩
  · obtain ⟨k, rfl, hset⟩ := set_of_ok hok
    rw [survives_iff_plain, hset, plain_set_iff]
  · rw [survives_iff_plain, plain_setLabel_iff]

theorem change_survives_iff_acme : (Config.empty.set "org" "Acme").1 = .ok () ∧
    (Config.empty.set "org" "Acme").2.Survives :=
  ⟨rfl, ((change_survives_iff .empty).1 "org" "Acme" rfl).mpr
    ⟨by decide, fun _ _ _ h => (nomatch h), nofun⟩⟩

/-- A quote in a text makes the document unreadable. -/
theorem quotes_do_not_survive :
    (Config.empty.set "org" "Acme \"Labs\"").1 = .ok () ∧
      ¬(Config.empty.set "org" "Acme \"Labs\"").2.Survives := by
  refine ⟨rfl, fun h => ?_⟩
  have hplain := ((survives_iff_plain _).mp h).settings .org _ rfl
  revert hplain
  decide

end Custody.Config
