import Custody.Proofs.Kdl.Quoted

/-!
Documents that are read as they are written: lines of bare names, each with texts between quotes
behind it. No character of such a text may mean anything to the reader but itself.
-/
namespace Custody.Kdl

/-! ### Names -/

structure Opens (c : Char) : Prop where
  start : isNameStart c = true
  sign : isSign c = false
  space : isSpace c = false
  keyword : c ∉ ['f', 'n', 'r', 't']

def Bare (name : String) : Prop :=
  ∃ c cs, name.toList = c :: cs ∧ Opens c ∧ ∀ d ∈ cs, isNameChar d = true

namespace Opens

variable {c : Char} (h : Opens c)

include h

theorem not_mem_reserved : c ∉ reserved := by
  have hstart := h.start
  intro hmem
  simp only [reserved, List.mem_cons, List.not_mem_nil, or_false] at hmem
  rcases hmem with rfl | rfl | rfl | rfl | rfl | rfl | rfl | rfl | rfl | rfl | rfl | rfl | rfl |
    rfl <;> cases hstart

theorem not_break : isBreak c = false := by
  have hstart := h.start
  refine Bool.eq_false_iff.mpr fun hbreak => ?_
  simp only [isBreak, Bool.or_eq_true, beq_iff_eq] at hbreak
  rcases hbreak with ((((rfl | rfl) | rfl) | rfl) | rfl) | rfl <;> cases hstart

theorem not_digit : c.isDigit = false := by
  have hstart := h.start
  refine Bool.eq_false_iff.mpr fun hdigit => ?_
  simp only [isNameStart, hdigit, Bool.not_true, Bool.and_false, Bool.or_false, beq_iff_eq]
    at hstart
  subst hstart
  cases hdigit

theorem ne {d : Char} (hd : d ∈ reserved) : c ≠ d := fun heq => h.not_mem_reserved (heq ▸ hd)

variable (r : List Char)

theorem blank? : blank? (c :: r) = none := by
  have hslash := h.ne (d := '/') (by decide)
  unfold Kdl.blank?
  split
  · next heq => exact absurd (List.cons.inj heq).1 hslash
  · next heq =>
    obtain ⟨rfl, rfl⟩ := List.cons.inj heq
    rw [h.space]
    rfl
  · rfl

theorem nodeSpace? : nodeSpace? (c :: r) = none := by
  have hslash := h.ne (d := '\\') (by decide)
  unfold Kdl.nodeSpace?
  rw [h.blank?]
  dsimp only
  split
  · next heq => exact absurd (List.cons.inj heq).1 hslash
  · rfl

theorem lineEnd? : lineEnd? (c :: r) = none := by
  have hslash := h.ne (d := '/') (by decide)
  have hbreak := h.not_break
  unfold Kdl.lineEnd?
  split
  · next heq => exact absurd (List.cons.inj heq).1 hslash
  · unfold Kdl.newline?
    split
    · next heq =>
      obtain ⟨rfl, rfl⟩ := List.cons.inj heq
      cases hbreak
    · next heq =>
      obtain ⟨rfl, rfl⟩ := List.cons.inj heq
      rw [hbreak]
      rfl
    · rfl

theorem lineSpace? : lineSpace? (c :: r) = none := by
  unfold Kdl.lineSpace?
  rw [h.lineEnd?, h.blank?]

theorem mute? : mute? (c :: r) = none := by
  have hslash := h.ne (d := '/') (by decide)
  unfold Kdl.mute?
  split
  · next heq => exact absurd (List.cons.inj heq).1 hslash
  · rfl

theorem typeName? : typeName? (c :: r) = none := by
  have hparen := h.ne (d := '(') (by decide)
  unfold Kdl.typeName?
  split
  · next heq => exact absurd (List.cons.inj heq).1 hparen
  · rfl

theorem digits? : digits? 10 (c :: r) = none := by
  have hvalue : (hexValue? c).any (· < 10) = false := by
    unfold hexValue?
    rw [h.not_digit]
    split
    · contradiction
    · split
      · simp only [Option.any_some, decide_eq_false_iff_not]
        omega
      · split
        · simp only [Option.any_some, decide_eq_false_iff_not]
          omega
        · rfl
  unfold Kdl.digits?
  exact if_neg (Bool.eq_false_iff.mp hvalue)

theorem radixDigits? : radixDigits? (c :: r) = none := by
  have hzero : c ≠ '0' := by
    rintro rfl
    exact nomatch h.not_digit
  unfold Kdl.radixDigits?
  split
  · next heq => exact absurd (List.cons.inj heq).1 hzero
  · next heq => exact absurd (List.cons.inj heq).1 hzero
  · next heq => exact absurd (List.cons.inj heq).1 hzero
  · rfl

theorem number? : number? (c :: r) = none := by
  have hsign : Kdl.sign (c :: r) = ([], c :: r) := if_neg (Bool.eq_false_iff.mp h.sign)
  unfold Kdl.number?
  rw [hsign]
  dsimp only
  rw [h.radixDigits?, h.digits?]

theorem string? : string? (c :: r) = none := by
  have hquote := h.ne (d := '"') (by decide)
  unfold Kdl.string?
  split
  · next heq => exact absurd (List.cons.inj heq).1 hquote
  · next heq => exact absurd (by rw [(List.cons.inj heq).1]; decide) h.keyword
  · rfl

theorem keyword? : keyword? (c :: r) = none := by
  unfold Kdl.keyword?
  split
  · next heq => exact absurd (by rw [(List.cons.inj heq).1]; decide) h.keyword
  · next heq => exact absurd (by rw [(List.cons.inj heq).1]; decide) h.keyword
  · next heq => exact absurd (by rw [(List.cons.inj heq).1]; decide) h.keyword
  · rfl

theorem literal? : literal? (c :: r) = none := by
  unfold Kdl.literal?
  rw [h.string?, h.keyword?, h.number?]
  rfl

end Opens

def Ends (r : List Char) : Prop := ∀ c ∈ r.head?, isNameChar c = false

theorem takeWhile_of_ends {r : List Char} (h : Ends r) (cs : List Char)
    (hcs : ∀ d ∈ cs, isNameChar d = true) :
    (cs ++ r).takeWhile isNameChar = cs ∧ (cs ++ r).dropWhile isNameChar = r := by
  rw [List.takeWhile_append_of_pos hcs, List.dropWhile_append_of_pos hcs]
  cases r with
  | nil => simp
  | cons c r =>
    have hc : isNameChar c = false := h c rfl
    simp [hc]

theorem Bare.name? {name : String} (h : Bare name) {r : List Char} (hr : Ends r) :
    bareName? (name.toList ++ r) = some (name, r) ∧ name? (name.toList ++ r) = some (name, r) := by
  obtain ⟨c, cs, hname, hc, hcs⟩ := h
  obtain ⟨htake, hdrop⟩ := takeWhile_of_ends hr cs hcs
  have hkeyword : name ∉ keywords := by
    intro hmem
    simp only [keywords, List.mem_cons, List.not_mem_nil, or_false] at hmem
    refine hc.keyword ?_
    rcases hmem with rfl | rfl | rfl <;> cases hname <;> decide
  have hbare : bareName? (name.toList ++ r) = some (name, r) := by
    have hlist : String.ofList (c :: cs) = name := by rw [← hname, String.ofList_toList]
    rw [hname, List.cons_append]
    unfold bareName?
    simp [hc.sign, hc.start, htake, hdrop, hlist, hkeyword]
  refine ⟨hbare, ?_⟩
  unfold Kdl.name?
  rw [hbare, hname, List.cons_append, hc.number?]

/-! ### Entries -/

def Literal.spell : Literal → List Char
  | .text s => '"' :: (s.toList ++ ['"'])
  | _ => []

namespace Entry

def spell : Entry → List Char
  | .argument v => ' ' :: v.literal.spell
  | .property name v => ' ' :: (name.toList ++ '=' :: v.literal.spell)

/-- An entry that is read as it is written. -/
inductive Spelt : Entry → Prop
  | argument {s : String} : Plain s → Spelt (.argument ⟨none, .text s⟩)
  | property {name s : String} : Bare name → Plain s → Spelt (.property name ⟨none, .text s⟩)

end Entry

inductive Begins : List Char → Prop
  | name {c : Char} (h : Opens c) (r : List Char) : Begins (c :: r)
  | quote (r : List Char) : Begins ('"' :: r)

namespace Begins

variable {cs : List Char} (h : Begins cs)

include h

theorem dropWhile_isSpace : cs.dropWhile isSpace = cs := by
  cases h with
  | name h r => exact List.dropWhile_cons_of_neg (Bool.eq_false_iff.mp h.space)
  | quote r => rfl

theorem nodeSpace? : nodeSpace? cs = none := by
  cases h with
  | name h r => exact h.nodeSpace? r
  | quote r => rfl

theorem mute? : mute? cs = none := by
  cases h with
  | name h r => exact h.mute? r
  | quote r => rfl

end Begins

theorem Bare.lineSpace? {name : String} (hname : Bare name) (r : List Char) :
    lineSpace? (name.toList ++ r) = none := by
  obtain ⟨c, cs, hlist, hc, -⟩ := hname
  rw [hlist]
  exact hc.lineSpace? _

theorem Bare.begins {name : String} (hname : Bare name) (r : List Char) :
    Begins (name.toList ++ r) := by
  obtain ⟨c, cs, hlist, hc, -⟩ := hname
  rw [hlist]
  exact .name hc _

inductive Stops : List Char → Prop
  | blank (r : List Char) : Stops (' ' :: r)
  | line (r : List Char) : Stops ('\n' :: r)

theorem Stops.ends {r : List Char} (h : Stops r) : Ends r := by
  intro c hc
  cases h <;> cases hc <;> decide

theorem Stops.flatMap {es : List Entry} (hes : ∀ e ∈ es, e.Spelt) {r : List Char} (hr : Stops r) :
    Stops (es.flatMap Entry.spell ++ r) := by
  cases es with
  | nil => exact hr
  | cons e rest => cases hes e (.head rest) <;> exact .blank _

theorem literal?_quote (cs : List Char) :
    literal? ('"' :: cs) = (quoted cs).map fun (s, rest) => (.text (.ofList s), rest) := by
  have hstring : string? ('"' :: cs) = (quoted cs).map fun (s, rest) => (String.ofList s, rest) :=
    rfl
  unfold literal?
  rw [hstring]
  cases quoted cs <;> rfl

theorem item?_quote (cs : List Char) :
    item? ('"' :: cs) = (quoted cs).map fun (s, rest) =>
      match assigned? rest with
      | some (v, rest) => (.property (.ofList s) v, rest)
      | none => (.argument ⟨none, .text (.ofList s)⟩, rest) := by
  unfold item?
  rw [literal?_quote]
  cases quoted cs with
  | none => rfl
  | some p =>
    dsimp only [Option.map_some]
    cases assigned? p.2 <;> rfl

theorem item?_name {name : String} (hname : Bare name) (cs : List Char) :
    item? (name.toList ++ '=' :: '"' :: cs) = (quoted cs).map fun (s, rest) =>
      (.property name ⟨none, .text (.ofList s)⟩, rest) := by
  have hends : Ends ('=' :: '"' :: cs) := by
    rintro c hc
    cases hc
    decide
  have hproperty : bareProperty? (name.toList ++ '=' :: '"' :: cs) = (quoted cs).map
      fun (s, rest) => (.property name ⟨none, .text (.ofList s)⟩, rest) := by
    have hvalue : assigned? ('=' :: '"' :: cs) = (quoted cs).map fun (s, rest) =>
        (⟨none, .text (.ofList s)⟩, rest) := by
      change (literal? ('"' :: cs)).map _ = _
      rw [literal?_quote, Option.map_map]
      rfl
    unfold bareProperty?
    rw [(hname.name? hends).1]
    dsimp only
    rw [hvalue, Option.map_map]
    rfl
  obtain ⟨c, ds, hlist, hc, -⟩ := hname
  have htyped : typedValue? (name.toList ++ '=' :: '"' :: cs) = none := by
    unfold typedValue?
    rw [hlist, List.cons_append, hc.typeName?]
  unfold item?
  rw [htyped, hproperty, hlist, List.cons_append, hc.literal?]
  cases quoted cs <;> rfl

theorem Entry.Spelt.item? {e : Entry} (he : e.Spelt) {r : List Char} (hr : Stops r) :
    ∃ cs, e.spell ++ r = ' ' :: cs ∧ Begins cs ∧ item? cs = some (e, r) := by
  cases he with
  | @argument s hs =>
    refine ⟨'"' :: (s.toList ++ '"' :: r), by simp [Entry.spell, Literal.spell], .quote _, ?_⟩
    have hassigned : assigned? r = none := by cases hr <;> rfl
    rw [item?_quote, quoted_of_plain hs, Option.map_some]
    dsimp only
    rw [hassigned, String.ofList_toList]
  | @property name s hname hs =>
    refine ⟨name.toList ++ '=' :: '"' :: (s.toList ++ '"' :: r),
      by simp [Entry.spell, Literal.spell], hname.begins _, ?_⟩
    rw [item?_name hname, quoted_of_plain hs, Option.map_some]
    dsimp only
    rw [String.ofList_toList]

theorem skipUpTo_of_none {rule : List Char → Option (List Char)} {cs : List Char}
    (h : rule cs = none) (fuel : Nat) : skipUpTo rule fuel cs = cs := by
  cases fuel with
  | zero => rfl
  | succ n => rw [skipUpTo, h]

theorem skip_of_none {rule : List Char → Option (List Char)} {cs : List Char}
    (h : rule cs = none) : skip rule cs = cs := skipUpTo_of_none h _

theorem entries_step {cs : List Char} (h : Begins cs) (fuel : Nat) :
    entries (fuel + 1) (' ' :: cs) =
      match item? cs with
      | none => ([], ' ' :: cs)
      | some (e, rest) => (e :: (entries fuel rest).1, (entries fuel rest).2) := by
  have hspace : nodeSpace? (' ' :: cs) = some cs := by
    change some (cs.dropWhile isSpace) = _
    rw [h.dropWhile_isSpace]
  rw [entries, hspace]
  dsimp only
  rw [skip_of_none h.nodeSpace?, heardItem?, h.mute?]
  cases item? cs <;> rfl

theorem entries_name {name : String} (hname : Bare name) (fuel : Nat) (cs : List Char) :
    entries (fuel + 1) (' ' :: (name.toList ++ '=' :: '"' :: cs)) =
      match quoted cs with
      | none => ([], ' ' :: (name.toList ++ '=' :: '"' :: cs))
      | some (s, rest) => (.property name ⟨none, .text (.ofList s)⟩ :: (entries fuel rest).1,
          (entries fuel rest).2) := by
  rw [entries_step (hname.begins _), item?_name hname]
  cases quoted cs <;> rfl

theorem plain_of_entries {s : String} {fuel : Nat} {r : List Char} {es : List Entry}
    (h : (entries (fuel + 1) (' ' :: '"' :: (s.toList ++ '"' :: r))).1 =
      .argument ⟨none, .text s⟩ :: es) : Plain s ∧ (entries fuel r).1 = es := by
  rw [entries_step (.quote _), item?_quote] at h
  cases hquoted : quoted (s.toList ++ '"' :: r) with
  | none =>
    rw [hquoted] at h
    cases h
  | some p =>
    obtain ⟨t, rest⟩ := p
    rw [hquoted, Option.map_some] at h
    dsimp only at h
    cases hassigned : assigned? rest with
    | some v =>
      rw [hassigned] at h
      cases h
    | none =>
      rw [hassigned] at h
      obtain ⟨heq, rfl⟩ := List.cons.inj h
      obtain rfl : t = s.toList := by
        injection heq with hvalue
        injection hvalue with _ hliteral
        injection hliteral with hs
        rw [← hs, String.toList_ofList]
      obtain ⟨hplain, rfl⟩ := quoted_eq_self_iff.mp hquoted
      exact ⟨hplain, rfl⟩

theorem entries_spell {es : List Entry} (hes : ∀ e ∈ es, e.Spelt) {r : List Char} (hr : Stops r)
    (fuel : Nat) : entries (fuel + es.length) (es.flatMap Entry.spell ++ r) =
      (es ++ (entries fuel r).1, (entries fuel r).2) := by
  induction es with
  | nil => rfl
  | cons e rest ih =>
    obtain ⟨he, hrest⟩ := List.forall_mem_cons.mp hes
    obtain ⟨cs, hspell, hbegins, hitem⟩ := he.item? (hr.flatMap hrest)
    rw [List.flatMap_cons, List.append_assoc, hspell, List.length_cons, ← Nat.add_assoc,
      entries_step hbegins, hitem]
    dsimp only
    rw [ih hrest]
    rfl

theorem entries_line (fuel : Nat) (r : List Char) : entries fuel ('\n' :: r) = ([], '\n' :: r) := by
  cases fuel <;> rfl

theorem length_le_flatMap {α : Type} {f : α → List Char} {l : List α} (h : ∀ a ∈ l, f a ≠ []) :
    l.length ≤ (l.flatMap f).length := by
  induction l with
  | nil => exact Nat.le_refl _
  | cons a rest ih =>
    obtain ⟨ha, hrest⟩ := List.forall_mem_cons.mp h
    have hpositive := List.length_pos_iff.mpr ha
    have htail := ih hrest
    simp only [List.flatMap_cons, List.length_append, List.length_cons]
    omega

theorem Entry.Spelt.spell_ne_nil {e : Entry} (he : e.Spelt) : e.spell ≠ [] := by
  cases he <;> exact List.cons_ne_nil _ _

/-! ### Lines -/

/-- What follows the entries of a node: its children if it has any, and the end of its line. -/
def close? (fuel : Nat) (cs : List Char) : Option (List Node × List Char) :=
  let (ns, cs) := (children? fuel (skip nodeSpace? cs)).getD ([], cs)
  (terminator? (skip nodeSpace? cs)).map fun rest => (ns, rest)

theorem node_name {name : String} (hname : Bare name) {r : List Char} (hr : Stops r) (fuel : Nat) :
    node (fuel + 1) (name.toList ++ r) = (close? fuel (entries r.length r).2).map
      fun (ns, rest) => (.ofEntries none name (entries r.length r).1 ns, rest) := by
  have htype : typeName? (name.toList ++ r) = none := by
    obtain ⟨c, cs, hlist, hc, -⟩ := hname
    rw [hlist]
    exact hc.typeName? _
  unfold node close?
  rw [htype]
  dsimp only
  rw [(hname.name? hr.ends).2]
  dsimp only
  rw [Option.map_map]
  rfl

theorem close?_line (fuel : Nat) (r : List Char) : close? fuel ('\n' :: r) = some ([], r) := by
  have hskip : skip nodeSpace? ('\n' :: r) = '\n' :: r := skip_of_none rfl
  have hchildren : children? fuel ('\n' :: r) = none := by cases fuel <;> rfl
  unfold close?
  rw [hskip, hchildren]
  dsimp only [Option.getD]
  rw [hskip]
  rfl

structure Line where
  name : String
  entries : List Entry

namespace Line

def spell (l : Line) : List Char := l.name.toList ++ (l.entries.flatMap Entry.spell ++ ['\n'])

def node (l : Line) : Node := .ofEntries none l.name l.entries []

structure Spelt (l : Line) : Prop where
  name : Bare l.name
  entries : ∀ e ∈ l.entries, e.Spelt

variable {l : Line}

theorem spell_append (l : Line) (r : List Char) :
    l.spell ++ r = l.name.toList ++ (l.entries.flatMap Entry.spell ++ '\n' :: r) := by
  simp [spell]

theorem Spelt.spell_ne_nil (hl : l.Spelt) : l.spell ≠ [] := by
  obtain ⟨c, cs, hlist, -⟩ := hl.name
  rw [spell, hlist]
  exact List.cons_ne_nil _ _

theorem node_spell (hl : l.Spelt) (fuel : Nat) (r : List Char) :
    Kdl.node (fuel + 1) (l.spell ++ r) = some (l.node, r) := by
  have hline : Stops ('\n' :: r) := .line r
  have hlength := length_le_flatMap fun e he => (hl.entries e he).spell_ne_nil
  obtain ⟨spare, hspare⟩ : ∃ spare,
      (l.entries.flatMap Entry.spell ++ '\n' :: r).length = spare + l.entries.length :=
    ⟨_, (Nat.sub_add_cancel (by simp only [List.length_append]; omega)).symm⟩
  rw [spell_append, node_name hl.name (hline.flatMap hl.entries), hspare,
    entries_spell hl.entries hline, entries_line, close?_line, List.append_nil]
  rfl

end Line

theorem nodes_name {name : String} (hname : Bare name) {cs r : List Char}
    (hcs : skip lineSpace? cs = name.toList ++ r) (fuel : Nat) :
    nodes (fuel + 1) cs =
      match node fuel (name.toList ++ r) with
      | none => ([], name.toList ++ r)
      | some (n, rest) => (n :: (nodes fuel rest).1, (nodes fuel rest).2) := by
  rw [nodes]
  dsimp only
  rw [hcs, (hname.begins r).mute?]
  cases node fuel (name.toList ++ r) <;> rfl

theorem nodes_spell {l : Line} (hl : l.Spelt) {cs r : List Char}
    (hcs : skip lineSpace? cs = l.spell ++ r) (fuel : Nat) :
    nodes (fuel + 2) cs = (l.node :: (nodes (fuel + 1) r).1, (nodes (fuel + 1) r).2) := by
  have hnode := Line.node_spell hl fuel r
  rw [Line.spell_append] at hcs hnode
  rw [nodes_name hl.name hcs, hnode]

theorem nodes_lines {ls : List Line} (hls : ∀ l ∈ ls, l.Spelt) {fuel : Nat}
    (hfuel : ls.length < fuel) : nodes fuel (ls.flatMap Line.spell) = (ls.map Line.node, []) := by
  induction ls generalizing fuel with
  | nil =>
    cases fuel with
    | zero => cases hfuel
    | succ n => cases n <;> rfl
  | cons l rest ih =>
    obtain ⟨hl, hrest⟩ := List.forall_mem_cons.mp hls
    obtain ⟨n, rfl⟩ : ∃ n, fuel = n + 2 := ⟨fuel - 2, by simp at hfuel; omega⟩
    have hskip : skip lineSpace? (l.spell ++ rest.flatMap Line.spell) =
        l.spell ++ rest.flatMap Line.spell := by
      rw [Line.spell_append]
      exact skip_of_none (hl.name.lineSpace? _)
    rw [List.flatMap_cons, nodes_spell hl hskip, ih hrest (by simp at hfuel ⊢; omega)]
    rfl

end Custody.Kdl
