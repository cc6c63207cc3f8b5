import Custody.Kdl.Reader

/-!
Texts between quotes. A reader takes a text for itself only if it holds no quote and no backslash.
-/
namespace Custody.Kdl

/-- A text that may stand between quotes as it is. -/
def Plain (s : String) : Prop := ∀ c ∈ s.toList, c ≠ '"' ∧ c ≠ '\\'

instance (s : String) : Decidable (Plain s) :=
  List.decidableBAll (fun c => c ≠ '"' ∧ c ≠ '\\') s.toList

theorem quoted_cons {c : Char} (h : c ≠ '"' ∧ c ≠ '\\') (r : List Char) :
    quoted (c :: r) = (quoted r).map fun (s, rest) => (c :: s, rest) := by
  rw [quoted]
  · exact h.1
  · exact fun _ hc => absurd hc h.2
  · exact fun _ _ hc => absurd hc h.2

theorem quoted_of_plain {cs : List Char} (h : ∀ c ∈ cs, c ≠ '"' ∧ c ≠ '\\') (r : List Char) :
    quoted (cs ++ '"' :: r) = some (cs, r) := by
  induction cs with
  | nil => rfl
  | cons c rest ih =>
    obtain ⟨hc, hrest⟩ := List.forall_mem_cons.mp h
    rw [List.cons_append, quoted_cons hc, ih hrest]
    rfl

/-- How a text that was read relates to what stands between its quotes. Escapes only shorten it, and
every quote that is not the last was escaped. -/
structure Reads (body s : List Char) : Prop where
  quotes : body.count '"' ≤ s.count '"'
  length : s.length ≤ body.length
  same : s.length = body.length → body = s ∧ ∀ c ∈ s, c ≠ '"' ∧ c ≠ '\\'

namespace Reads

variable {body s : List Char}

theorem nil : Reads [] [] := ⟨Nat.le_refl _, Nat.le_refl _, fun _ => ⟨rfl, nofun⟩⟩

theorem of_lt (hquotes : body.count '"' ≤ s.count '"') (hlength : s.length < body.length) :
    Reads body s := ⟨hquotes, Nat.le_of_lt hlength, fun h => absurd h (Nat.ne_of_lt hlength)⟩

theorem cons (h : Reads body s) {c : Char} (hc : c ≠ '"' ∧ c ≠ '\\') :
    Reads (c :: body) (c :: s) where
  quotes := by
    rw [List.count_cons, List.count_cons]
    exact Nat.add_le_add_right h.quotes _
  length := Nat.succ_le_succ h.length
  same heq := by
    obtain ⟨rfl, hs⟩ := h.same (Nat.succ.inj heq)
    exact ⟨rfl, List.forall_mem_cons.mpr ⟨hc, hs⟩⟩

theorem escape (h : Reads body s) {e c : Char} (he : escaped? e = some c) :
    Reads ('\\' :: e :: body) (c :: s) := by
  refine of_lt ?_ (Nat.succ_lt_succ (Nat.lt_succ_of_le h.length))
  have hquote : e = '"' → c = '"' := by
    rintro rfl
    exact (Option.some.inj he).symm
  have hquotes := h.quotes
  simp only [List.count_cons, beq_iff_eq, Char.reduceEq, if_false, Nat.add_zero]
  by_cases heq : e = '"'
  · simp only [heq, hquote heq, if_true]
    omega
  · simp only [heq, if_false]
    omega

end Reads

theorem reads_of_coded {digits : List Nat} {cs s rest : List Char}
    (ih : ∀ r, r.length < cs.length → ∀ s rest, quoted r = some (s, rest) →
      ∃ body, r = body ++ '"' :: rest ∧ Reads body s)
    (h : coded digits cs = some (s, rest)) :
    ∃ body, cs = body ++ '"' :: rest ∧ body.count '"' ≤ s.count '"' ∧ s.length ≤ body.length := by
  induction cs generalizing digits with
  | nil => cases h
  | cons d r ihr =>
    by_cases hd : d = '\x7d'
    · subst hd
      rw [coded] at h
      split at h
      · obtain ⟨⟨s', _⟩, hs, heq⟩ := Option.map_eq_some_iff.mp h
        cases heq
        obtain ⟨body, rfl, hbody⟩ := ih r (Nat.lt_succ_self _) _ _ hs
        refine ⟨'\x7d' :: body, rfl, ?_, Nat.succ_le_succ hbody.length⟩
        simp only [List.count_cons, beq_iff_eq, Char.reduceEq, if_false, Nat.add_zero]
        exact Nat.le_add_right_of_le hbody.quotes
      · cases h
    · rw [coded] at h
      · split at h
        · next n hn =>
          have hquote : d ≠ '"' := by
            rintro rfl
            cases hn
          obtain ⟨body, rfl, hquotes, hlength⟩ :=
            ihr (fun r' hr' => ih r' (Nat.lt_succ_of_lt hr')) h
          refine ⟨d :: body, rfl, ?_, Nat.le_succ_of_le hlength⟩
          simpa [List.count_cons, hquote] using hquotes
        · cases h
      · exact hd

theorem reads_of_quoted {cs s rest : List Char} (h : quoted cs = some (s, rest)) :
    ∃ body, cs = body ++ '"' :: rest ∧ Reads body s := by
  induction hn : cs.length using Nat.strongRecOn generalizing cs s rest with
  | _ n ih =>
    subst hn
    fun_cases quoted cs with
    | case1 => cases h
    | case2 r =>
      cases h
      exact ⟨[], rfl, .nil⟩
    | case3 r =>
      rw [quoted] at h
      obtain ⟨body, rfl, hquotes, hlength⟩ := reads_of_coded
        (fun r' hr' s' rest' h' => ih r'.length (by simp only [List.length_cons]; omega) h' rfl) h
      refine ⟨'\\' :: 'u' :: '\x7b' :: body, rfl, .of_lt ?_ ?_⟩
      · simpa [List.count_cons] using hquotes
      · simp only [List.length_cons]
        omega
    | case4 e r hcode c hescaped =>
      rw [quoted.eq_4 e r hcode, hescaped] at h
      obtain ⟨⟨s', _⟩, hs, heq⟩ := Option.map_eq_some_iff.mp h
      cases heq
      obtain ⟨body, rfl, hbody⟩ := ih r.length (by simp only [List.length_cons]; omega) hs rfl
      exact ⟨'\\' :: e :: body, rfl, hbody.escape hescaped⟩
    | case5 e r hcode hescaped =>
      rw [quoted.eq_4 e r hcode, hescaped] at h
      cases h
    | case6 c r hquote hcode hescape =>
      have hslash : c ≠ '\\' := by
        rintro rfl
        cases r with
        | nil => cases h
        | cons e r => exact hescape e r rfl rfl
      rw [quoted_cons ⟨hquote, hslash⟩] at h
      obtain ⟨⟨s', _⟩, hs, heq⟩ := Option.map_eq_some_iff.mp h
      cases heq
      obtain ⟨body, rfl, hbody⟩ := ih r.length (Nat.lt_succ_self _) hs rfl
      exact ⟨c :: body, rfl, hbody.cons ⟨hquote, hslash⟩⟩

/-- Between quotes only plain texts come to themselves. -/
theorem quoted_eq_self_iff {s r rest : List Char} :
    quoted (s ++ '"' :: r) = some (s, rest) ↔ (∀ c ∈ s, c ≠ '"' ∧ c ≠ '\\') ∧ rest = r := by
  constructor
  · intro h
    obtain ⟨body, heq, hbody⟩ := reads_of_quoted h
    rcases Nat.eq_or_lt_of_le hbody.length with hlength | hlt
    · obtain ⟨rfl, hplain⟩ := hbody.same hlength
      obtain ⟨-, hrest⟩ := List.append_inj heq rfl
      exact ⟨hplain, (List.cons.inj hrest).2.symm⟩
    · -- Otherwise the quote behind the text is one of those that were escaped.
      have hlonger : (s ++ ['"']).length ≤ body.length := by
        rw [List.length_append]
        exact hlt
      have htext : s ++ ['"'] <+: s ++ '"' :: r := ⟨r, by simp⟩
      have hprefix := List.prefix_of_prefix_length_le htext ⟨'"' :: rest, heq.symm⟩ hlonger
      have hcount := hprefix.sublist.count_le '"'
      rw [List.count_append, List.count_singleton_self] at hcount
      exact absurd hbody.quotes (Nat.not_le_of_lt hcount)
  · rintro ⟨hplain, rfl⟩
    exact quoted_of_plain hplain rest

end Custody.Kdl
