import Custody.Proofs.Kdl.Spelling

/-!
How much a reader takes. What it makes of a text, written out without escapes, is no longer than the
text that it took.
-/
namespace Custody.Kdl

variable {cs rest : List Char}

/-! ### Blanks -/

theorem dropLine_length (cs : List Char) : (dropLine cs).length ≤ cs.length := by
  fun_induction dropLine cs with
  | case1 r =>
    simp only [List.length_cons]
    omega
  | case2 c r => exact Nat.le_succ _
  | case3 c r _ _ ih => exact Nat.le_succ_of_le ih
  | case4 => exact Nat.le_refl _

def Shortens (rule : List Char → Option (List Char)) : Prop :=
  ∀ ⦃cs rest⦄, rule cs = some rest → rest.length < cs.length

theorem shortens_newline? : Shortens newline? := by
  intro cs rest h
  unfold newline? at h
  split at h
  · cases h
    simp only [List.length_cons]
    omega
  · split at h
    · cases h
      exact Nat.lt_succ_self _
    · cases h
  · cases h

theorem shortens_lineEnd? : Shortens lineEnd? := by
  intro cs rest h
  unfold lineEnd? at h
  split at h
  · next r =>
    cases h
    have hdrop := dropLine_length r
    simp only [List.length_cons]
    omega
  · exact shortens_newline? h

theorem closeComment_length {fuel : Nat} : ∀ {rest}, closeComment fuel cs = some rest →
    rest.length ≤ cs.length := by
  fun_induction closeComment fuel cs with
  | case1 fuel r inner hinner ihinner ih =>
    intro rest h
    have hle := ihinner hinner
    have hrest := ih h
    simp only [List.length_cons]
    omega
  | case2 | case4 =>
    intro rest h
    cases h
    simp only [List.length_cons]
    omega
  | case3 | case6 => exact nofun
  | case5 fuel c r _ _ ih => exact fun h => Nat.le_succ_of_le (ih h)

theorem length_dropWhile_le (p : Char → Bool) (cs : List Char) :
    (cs.dropWhile p).length ≤ cs.length := (List.dropWhile_suffix p).length_le

theorem shortens_blank? : Shortens blank? := by
  intro cs rest h
  unfold blank? at h
  split at h
  · have hclose := closeComment_length h
    simp only [List.length_cons]
    omega
  · next c r _ =>
    split at h
    · cases h
      exact Nat.lt_succ_of_le (length_dropWhile_le isSpace r)
    · cases h
  · cases h

theorem skipUpTo_length {rule : List Char → Option (List Char)} (hrule : Shortens rule)
    (fuel : Nat) (cs : List Char) : (skipUpTo rule fuel cs).length ≤ cs.length := by
  fun_induction skipUpTo rule fuel cs with
  | case1 fuel cs rest hrest ih => exact Nat.le_trans ih (Nat.le_of_lt (hrule hrest))
  | case2 | case3 => exact Nat.le_refl _

theorem skip_length {rule : List Char → Option (List Char)} (hrule : Shortens rule)
    (cs : List Char) : (skip rule cs).length ≤ cs.length := skipUpTo_length hrule _ _

theorem shortens_nodeSpace? : Shortens nodeSpace? := by
  intro cs rest h
  unfold nodeSpace? at h
  split at h
  · next hblank =>
    cases h
    exact shortens_blank? hblank
  · split at h
    · next r _ =>
      have hskip := skip_length shortens_blank? r
      have hend := shortens_lineEnd? h
      simp only [List.length_cons]
      omega
    · cases h

theorem shortens_lineSpace? : Shortens lineSpace? := by
  intro cs rest h
  unfold lineSpace? at h
  split at h
  · next hend =>
    cases h
    exact shortens_lineEnd? hend
  · exact shortens_blank? h

theorem terminator?_length (h : terminator? cs = some rest) :
    rest.length < cs.length ∨ rest = [] := by
  unfold terminator? at h
  split at h
  · cases h
    exact .inr rfl
  · cases h
    exact .inl (Nat.lt_succ_self _)
  · exact .inl (shortens_lineEnd? h)

theorem shortens_mute? : Shortens mute? := by
  intro cs rest h
  unfold mute? at h
  split at h
  · next r =>
    cases h
    have hskip := skip_length shortens_nodeSpace? r
    simp only [List.length_cons]
    omega
  · cases h

/-! ### Strings, names, numbers -/

theorem quoted_length {s : List Char} (h : quoted cs = some (s, rest)) :
    s.length + rest.length < cs.length := by
  obtain ⟨body, rfl, hbody⟩ := reads_of_quoted h
  have hlength := hbody.length
  simp only [List.length_append, List.length_cons]
  omega

theorem rawText_length {signs : Nat} {s : List Char} (h : rawText signs cs = some (s, rest)) :
    s.length + rest.length < cs.length := by
  induction cs generalizing s with
  | nil => cases h
  | cons c r ih =>
    unfold rawText at h
    split at h
    · cases h
      simp only [List.length_nil, List.length_cons, List.length_drop]
      omega
    · obtain ⟨⟨s', rest'⟩, hs, heq⟩ := Option.map_eq_some_iff.mp h
      cases heq
      have hr := ih hs
      simp only [List.length_cons]
      omega

theorem string?_length {s : String} (h : string? cs = some (s, rest)) :
    s.toList.length + rest.length + 2 ≤ cs.length := by
  unfold string? at h
  split at h
  · obtain ⟨⟨s', rest'⟩, hs, heq⟩ := Option.map_eq_some_iff.mp h
    cases heq
    have hquoted := quoted_length hs
    simp only [String.toList_ofList, List.length_cons]
    omega
  · next r =>
    dsimp only at h
    split at h
    · next hdrop =>
      obtain ⟨⟨s', rest'⟩, hs, heq⟩ := Option.map_eq_some_iff.mp h
      cases heq
      have hraw := rawText_length hs
      have hlength := congrArg List.length hdrop
      simp only [String.toList_ofList, List.length_cons, List.length_drop] at hlength ⊢
      omega
    · cases h
  · cases h

theorem takeWhile_add_dropWhile (p : Char → Bool) (cs : List Char) :
    (cs.takeWhile p).length + (cs.dropWhile p).length = cs.length := by
  rw [← List.length_append, List.takeWhile_append_dropWhile]

theorem bareName?_length {s : String} (h : bareName? cs = some (s, rest)) :
    s.toList.length + rest.length ≤ cs.length := by
  unfold bareName? at h
  split at h
  next name r hname =>
  have hlength : name.length + r.length = cs.length := by
    split at hname
    · cases hname
      rfl
    · next c r =>
      have htail := takeWhile_add_dropWhile isNameChar r
      split at hname
      · split at hname
        · next d ds =>
          have hmore := takeWhile_add_dropWhile isNameChar ds
          split at hname
          · cases hname
            simp only [List.length_cons]
            omega
          · cases hname
            simp only [List.length_cons, List.length_nil]
            omega
        · cases hname
          rfl
      · split at hname
        · cases hname
          simp only [List.length_cons]
          omega
        · cases hname
          exact Nat.zero_add _
  dsimp only at h
  split at h
  · cases h
  · cases h
    simpa using Nat.le_of_eq hlength

theorem digits?_length {base : Nat} {ds : List Char} (h : digits? base cs = some (ds, rest)) :
    rest.length ≤ cs.length := by
  unfold digits? at h
  split at h
  · cases h
  · dsimp only at h
    split at h
    · cases h
      exact Nat.le_succ_of_le (length_dropWhile_le _ _)
    · cases h

theorem sign_length (cs : List Char) : (sign cs).2.length ≤ cs.length := by
  unfold sign
  split
  · split
    · exact Nat.le_succ _
    · exact Nat.le_refl _
  · exact Nat.le_refl _

theorem radixDigits?_length {ds : List Char} (h : radixDigits? cs = some (ds, rest)) :
    rest.length ≤ cs.length := by
  unfold radixDigits? at h
  split at h
  iterate 3
    · obtain ⟨⟨ds', rest'⟩, hs, heq⟩ := Option.map_eq_some_iff.mp h
      cases heq
      have hdigits := digits?_length hs
      simp only [List.length_cons]
      omega
  · cases h

theorem fractionDigits_length (cs : List Char) : (fractionDigits cs).2.length ≤ cs.length := by
  unfold fractionDigits
  split
  · split
    · next hdigits => exact Nat.le_succ_of_le (digits?_length hdigits)
    · exact Nat.le_refl _
  · exact Nat.le_refl _

theorem exponentDigits_length (cs : List Char) : (exponentDigits cs).2.length ≤ cs.length := by
  unfold exponentDigits
  split
  · exact Nat.le_refl _
  · next c r =>
    split
    · have hsign := sign_length r
      have hdrop := length_dropWhile_le (fun d => d == '_' || d.isDigit) (sign r).2
      simp only [List.length_cons]
      omega
    · exact Nat.le_refl _

theorem number?_length {s : String} (h : number? cs = some (s, rest)) :
    rest.length ≤ cs.length := by
  have hsign := sign_length cs
  unfold number? at h
  dsimp only at h
  split at h
  · next hradix =>
    cases h
    exact Nat.le_trans (radixDigits?_length hradix) hsign
  · split at h
    · cases h
    · next whole r hdigits =>
      cases h
      exact Nat.le_trans (exponentDigits_length _) (Nat.le_trans (fractionDigits_length _)
        (Nat.le_trans (digits?_length hdigits) hsign))

theorem name?_length {s : String} (h : name? cs = some (s, rest)) :
    s.toList.length + rest.length ≤ cs.length := by
  unfold name? at h
  split at h
  · cases h
  · split at h
    · next hbare =>
      cases h
      exact bareName?_length hbare
    · have hstring := string?_length h
      omega

/-! ### Values and entries -/

theorem keyword?_length {l : Literal} (h : keyword? cs = some (l, rest)) :
    l.spell.length + rest.length ≤ cs.length := by
  unfold keyword? at h
  split at h
  iterate 3
    · cases h
      simp only [Literal.spell, List.length_nil, List.length_cons]
      omega
  · cases h

theorem length_spell_text (s : String) :
    (Literal.text s).spell.length = s.toList.length + 2 := by
  simp [Literal.spell]

theorem literal?_length {l : Literal} (h : literal? cs = some (l, rest)) :
    l.spell.length + rest.length ≤ cs.length := by
  unfold literal? at h
  split at h
  · next hstring =>
    cases h
    have hlength := string?_length hstring
    rw [length_spell_text]
    omega
  · split at h
    · next hkeyword =>
      cases h
      exact keyword?_length hkeyword
    · obtain ⟨⟨n, rest'⟩, hnumber, heq⟩ := Option.map_eq_some_iff.mp h
      cases heq
      have hlength := number?_length hnumber
      simp only [Literal.spell, List.length_nil]
      omega

theorem typeName?_length {s : String} (h : typeName? cs = some (s, rest)) :
    rest.length < cs.length := by
  unfold typeName? at h
  split at h
  · split at h
    · next hname =>
      cases h
      have hlength := name?_length hname
      simp only [List.length_cons] at hlength ⊢
      omega
    · cases h
  · cases h

theorem typedValue?_length {v : Value} (h : typedValue? cs = some (v, rest)) :
    v.literal.spell.length + rest.length < cs.length := by
  unfold typedValue? at h
  split at h
  · next htype =>
    obtain ⟨⟨l, rest'⟩, hliteral, heq⟩ := Option.map_eq_some_iff.mp h
    cases heq
    have hstart := typeName?_length htype
    have hlength := literal?_length hliteral
    simp only
    omega
  · cases h

theorem assigned?_length {v : Value} (h : assigned? cs = some (v, rest)) :
    v.literal.spell.length + rest.length < cs.length := by
  unfold assigned? at h
  split at h
  · unfold value? at h
    split at h
    · next htyped =>
      cases h
      exact Nat.lt_succ_of_lt (typedValue?_length htyped)
    · obtain ⟨⟨l, rest'⟩, hliteral, heq⟩ := Option.map_eq_some_iff.mp h
      cases heq
      exact Nat.lt_succ_of_le (literal?_length hliteral)
  · cases h

theorem bareProperty?_length {e : Entry} (h : bareProperty? cs = some (e, rest)) :
    e.spell.length + rest.length ≤ cs.length + 1 := by
  unfold bareProperty? at h
  split at h
  · cases h
  · next hname =>
    obtain ⟨⟨v, rest'⟩, hvalue, heq⟩ := Option.map_eq_some_iff.mp h
    cases heq
    have hstart := bareName?_length hname
    have hlength := assigned?_length hvalue
    simp only [Entry.spell, List.length_cons, List.length_append]
    omega

theorem item?_length {e : Entry} (h : item? cs = some (e, rest)) :
    e.spell.length + rest.length ≤ cs.length + 1 := by
  unfold item? at h
  split at h
  · next hliteral =>
    have hstart := literal?_length hliteral
    split at h
    · next hvalue =>
      cases h
      have hlength := assigned?_length hvalue
      simp only [length_spell_text, Entry.spell, List.length_cons, List.length_append] at hstart ⊢
      omega
    · cases h
      simp only [Entry.spell, List.length_cons]
      omega
    · exact bareProperty?_length h
  · split at h
    · next hproperty =>
      cases h
      exact bareProperty?_length hproperty
    · obtain ⟨⟨v, rest'⟩, htyped, heq⟩ := Option.map_eq_some_iff.mp h
      cases heq
      have hlength := typedValue?_length htyped
      simp only [Entry.spell, List.length_cons]
      omega

theorem heardItem?_length {e : Option Entry} (h : heardItem? cs = some (e, rest)) :
    (e.toList.flatMap Entry.spell).length + rest.length ≤ cs.length + 1 := by
  unfold heardItem? at h
  split at h
  · next hmute =>
    obtain ⟨⟨e', rest'⟩, hitem, heq⟩ := Option.map_eq_some_iff.mp h
    cases heq
    have hstart := shortens_mute? hmute
    have hlength := item?_length hitem
    simp only [Option.toList_none, List.flatMap_nil, List.length_nil]
    omega
  · obtain ⟨⟨e', rest'⟩, hitem, heq⟩ := Option.map_eq_some_iff.mp h
    cases heq
    simpa using item?_length hitem

/-- The entries of a node are no longer when they are written than the text that was read. -/
theorem entries_length (fuel : Nat) (cs : List Char) :
    ((entries fuel cs).1.flatMap Entry.spell).length + (entries fuel cs).2.length ≤ cs.length := by
  induction fuel generalizing cs with
  | zero => simp [entries]
  | succ n ih =>
    rw [entries]
    split
    · simp
    · next r hspace =>
      split
      · simp
      · next e rest hitem =>
        have hstart := shortens_nodeSpace? hspace
        have hskip := skip_length shortens_nodeSpace? r
        have hlength := heardItem?_length hitem
        have hrest := ih rest
        simp only [List.flatMap_append, List.length_append]
        omega

/-! ### Nodes -/

def Node.spell (n : Node) : List Char :=
  n.name.toList ++ (n.arguments.flatMap (fun v => (Entry.argument v).spell) ++ ['\n'])

theorem ofEntries_length (typeName : Option String) (name : String) (es : List Entry)
    (ns : List Node) : (Node.ofEntries typeName name es ns).spell.length ≤
      name.toList.length + (es.flatMap Entry.spell).length + 1 := by
  have harguments : ((Node.ofEntries typeName name es ns).arguments.flatMap fun v =>
      (Entry.argument v).spell).length ≤ (es.flatMap Entry.spell).length := by
    induction es with
    | nil => exact Nat.le_refl _
    | cons e rest ih =>
      rw [List.flatMap_cons, List.length_append]
      cases e with
      | argument v =>
        change (((Entry.argument v).spell ++ _ : List Char)).length ≤ _
        rw [List.length_append]
        exact Nat.add_le_add_left ih _
      | property => exact Nat.le_add_left_of_le ih
  simp only [Node.spell, List.length_append, List.length_cons, List.length_nil]
  change name.toList.length + _ ≤ _
  omega

theorem unmuted_length {start : Bool × List Char} (h : (match mute? cs with
      | some r => (true, r)
      | none => (false, cs)) = start) : start.2.length ≤ cs.length := by
  subst h
  split
  · next hmute => exact Nat.le_of_lt (shortens_mute? hmute)
  · exact Nat.le_refl _

def room : List Char → Nat
  | [] => 0
  | _ :: r => r.length + 2

theorem room_of_pos (h : 0 < cs.length) : room cs = cs.length + 1 := by
  cases cs with
  | nil => cases h
  | cons => rfl

theorem room_le (h : rest.length ≤ cs.length) : room rest ≤ room cs := by
  cases rest with
  | nil => exact Nat.zero_le _
  | cons c r =>
    cases cs with
    | nil => cases h
    | cons d ds => exact Nat.add_le_add_right h 1

theorem room_lt (h : rest.length < cs.length ∨ rest = []) : room rest ≤ cs.length := by
  rcases h with h | rfl
  · cases rest with
    | nil => exact Nat.zero_le _
    | cons c r => exact h
  · exact Nat.zero_le _

structure Bounded (fuel : Nat) : Prop where
  nodes : ∀ cs, ((nodes fuel cs).1.flatMap Node.spell).length + room (nodes fuel cs).2 ≤ room cs
  node : ∀ {cs n rest}, node fuel cs = some (n, rest) → n.spell.length + room rest ≤ room cs
  children : ∀ {cs ns rest}, children? fuel cs = some (ns, rest) → rest.length ≤ cs.length

theorem bounded_zero : Bounded 0 := ⟨fun cs => by simp [nodes], nofun, nofun⟩

namespace Bounded

variable {fuel : Nat} (h : Bounded fuel)

include h

theorem close? {ns : List Node} (hclose : close? fuel cs = some (ns, rest)) :
    room rest ≤ cs.length := by
  have hspace := skip_length shortens_nodeSpace?
  unfold Kdl.close? at hclose
  split at hclose
  next ns' inner hinner =>
  have hle : inner.length ≤ cs.length := by
    cases hchildren : children? fuel (skip nodeSpace? cs) with
    | none =>
      rw [hchildren] at hinner
      cases hinner
      exact Nat.le_refl _
    | some p =>
      rw [hchildren] at hinner
      cases hinner
      exact Nat.le_trans (h.children hchildren) (hspace cs)
  obtain ⟨rest', hend, heq⟩ := Option.map_eq_some_iff.mp hclose
  cases heq
  exact Nat.le_trans (room_lt (terminator?_length hend)) (Nat.le_trans (hspace inner) hle)

theorem node_succ {n : Node} (hnode : Kdl.node (fuel + 1) cs = some (n, rest)) :
    n.spell.length + room rest ≤ room cs := by
  rw [Kdl.node] at hnode
  split at hnode
  next typeName start hstart =>
  have hle : start.length ≤ cs.length := by
    split at hstart
    · next htype =>
      cases hstart
      exact Nat.le_of_lt (typeName?_length htype)
    · cases hstart
      exact Nat.le_refl _
  split at hnode
  · cases hnode
  · next name r hname =>
    obtain ⟨⟨ns, rest'⟩, hclose, heq⟩ : ∃ p, Kdl.close? fuel (entries r.length r).2 = some p ∧
        (Node.ofEntries typeName name (entries r.length r).1 p.1, p.2) = (n, rest) := by
      rw [← Option.map_eq_some_iff]
      unfold Kdl.close?
      rw [Option.map_map]
      exact hnode
    obtain ⟨rfl, rfl⟩ := Prod.mk.inj heq
    have hlength := name?_length hname
    have hentries := entries_length r.length r
    have hspell := ofEntries_length typeName name (entries r.length r).1 ns
    have hrest := h.close? hclose
    have hpositive : 0 < start.length := by
      cases start with
      | nil => cases hname
      | cons => exact Nat.succ_pos _
    dsimp only
    rw [room_of_pos (Nat.lt_of_lt_of_le hpositive hle)]
    omega

theorem nodes_succ (cs : List Char) :
    ((Kdl.nodes (fuel + 1) cs).1.flatMap Node.spell).length + room (Kdl.nodes (fuel + 1) cs).2 ≤
      room cs := by
  have hspace := skip_length shortens_lineSpace? cs
  rw [Kdl.nodes]
  split
  next muted start hstart =>
  have hroom := room_le (Nat.le_trans (unmuted_length hstart) hspace)
  split
  · rw [List.flatMap_nil, List.length_nil, Nat.zero_add]
    exact room_le hspace
  · next n rest hnode =>
    have hn := h.node hnode
    have hnodes := h.nodes rest
    dsimp only at hroom ⊢
    cases muted
    · simp only [Bool.false_eq_true, if_false, List.flatMap_cons, List.length_append]
      omega
    · simp only [if_true]
      omega

theorem children_succ {ns : List Node} (hchildren : children? (fuel + 1) cs = some (ns, rest)) :
    rest.length ≤ cs.length := by
  rw [children?] at hchildren
  split at hchildren
  next muted start hstart =>
  have hle := unmuted_length hstart
  split at hchildren
  · next r =>
    split at hchildren
    · next inner hinner =>
      cases hchildren
      have hnodes := h.nodes r
      rw [hinner] at hnodes
      have hroom : room r ≤ r.length + 1 := by cases r <;> simp [room]
      simp only [room, List.length_cons] at hnodes hroom hle
      omega
    · cases hchildren
  · cases hchildren

end Bounded

theorem bounded (fuel : Nat) : Bounded fuel := by
  induction fuel with
  | zero => exact bounded_zero
  | succ n ih => exact ⟨ih.nodes_succ, ih.node_succ, ih.children_succ⟩

end Custody.Kdl
