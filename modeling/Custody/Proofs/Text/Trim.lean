import Mathlib.Data.List.DropRight
import Custody.Text.Blank

/-!
Runs at the ends of a text. What is dropped there is nothing but such characters, and what is left
has none of them at that end; so a text is trimmed exactly if it starts and ends with no blank.
-/
namespace Custody.Text

variable {p : Char → Bool} {cs lead tail : List Char}

theorem dropWhile_eq_self_iff : cs.dropWhile p = cs ↔ ∀ c ∈ cs.head?, ¬ p c := by
  rw [List.dropWhile_eq_self_iff]
  cases cs <;> simp

theorem dropEndWhile_eq_self_iff : dropEndWhile p cs = cs ↔ ∀ c ∈ cs.getLast?, ¬ p c := by
  rw [dropEndWhile, List.reverse_eq_iff, dropWhile_eq_self_iff, List.head?_reverse]

theorem dropEndWhile_append (h : ∀ c ∈ tail, p c) :
    dropEndWhile p (cs ++ tail) = dropEndWhile p cs := by
  have hreverse : ∀ c ∈ tail.reverse, p c := fun c hc => h c (List.mem_reverse.mp hc)
  rw [dropEndWhile, List.reverse_append, List.dropWhile_append_of_pos hreverse, dropEndWhile]

theorem exists_dropEndWhile_append (p : Char → Bool) (cs : List Char) :
    ∃ tail, cs = dropEndWhile p cs ++ tail ∧ ∀ c ∈ tail, p c :=
  ⟨cs.rtakeWhile p, List.rdropWhile_append_rtakeWhile.symm, fun _ => List.mem_rtakeWhile_imp⟩

theorem not_of_mem_getLast?_dropEndWhile {c : Char} (h : c ∈ (dropEndWhile p cs).getLast?) :
    ¬ p c :=
  dropEndWhile_eq_self_iff.mp (List.rdropWhile_idempotent p cs) c h

theorem getLast?_append_of_ne_nil (h : cs ≠ []) : (lead ++ cs).getLast? = cs.getLast? := by
  rw [List.getLast?_append, List.getLast?_eq_some_getLast h]
  rfl

theorem head?_dropEndWhile (h : dropEndWhile p cs ≠ []) :
    (dropEndWhile p cs).head? = cs.head? := by
  obtain ⟨tail, hcs, -⟩ := exists_dropEndWhile_append p cs
  conv_rhs => rw [hcs]
  exact (List.head?_append_of_ne_nil _ h).symm

theorem trimChars_eq (hlead : ∀ c ∈ lead, isBlank c) (htail : ∀ c ∈ tail, isBlank c)
    (hhead : ∀ c ∈ cs.head?, ¬ isBlank c) (hlast : ∀ c ∈ cs.getLast?, ¬ isBlank c) :
    trimChars (lead ++ cs ++ tail) = cs := by
  unfold trimChars
  rw [List.append_assoc, List.dropWhile_append_of_pos hlead]
  cases cs with
  | nil => simp [List.dropWhile_eq_nil_iff.mpr htail, dropEndWhile]
  | cons c rest =>
    have hkept : (c :: rest ++ tail).dropWhile isBlank = c :: rest ++ tail :=
      dropWhile_eq_self_iff.mpr hhead
    rw [hkept, dropEndWhile_append htail]
    exact dropEndWhile_eq_self_iff.mpr hlast

theorem exists_trimChars_append (cs : List Char) :
    ∃ lead tail, cs = lead ++ trimChars cs ++ tail ∧ (∀ c ∈ lead, isBlank c) ∧
      ∀ c ∈ tail, isBlank c := by
  obtain ⟨tail, hrest, htail⟩ := exists_dropEndWhile_append isBlank (cs.dropWhile isBlank)
  refine ⟨cs.takeWhile isBlank, tail, ?_, fun c => List.mem_takeWhile_imp, htail⟩
  rw [List.append_assoc, trimChars, ← hrest, List.takeWhile_append_dropWhile]

theorem not_blank_of_mem_head?_trimChars {c : Char} (h : c ∈ (trimChars cs).head?) :
    ¬ isBlank c := by
  rw [trimChars, head?_dropEndWhile (List.ne_nil_of_mem (List.mem_of_mem_head? h))] at h
  exact dropWhile_eq_self_iff.mp (List.dropWhile_idempotent isBlank cs) c h

theorem trimChars_eq_self_iff : trimChars cs = cs ↔
    (∀ c ∈ cs.head?, ¬ isBlank c) ∧ ∀ c ∈ cs.getLast?, ¬ isBlank c := by
  constructor
  · intro h
    exact ⟨fun c hc => not_blank_of_mem_head?_trimChars (h.symm ▸ hc),
      fun c hc => not_of_mem_getLast?_dropEndWhile (p := isBlank) (h.symm ▸ hc)⟩
  · rintro ⟨hhead, hlast⟩
    have h : trimChars ([] ++ cs ++ []) = cs := trimChars_eq (by simp) (by simp) hhead hlast
    rwa [List.nil_append, List.append_nil] at h

end Custody.Text
