import Custody.Protocol
import Custody.Proofs.Decimal

/-!
The text of a protocol entry. Reading and writing are inverse on the entries whose text says all of
them, and reading gives no other entry.
-/
namespace Custody.Protocol.Entry

open Decimal Text

/-- The text of the entry tells all of it: there is no mark to lose, the first slash is the one
behind the name, no blank is taken for one around the name, and the port is a signed 64-bit word. -/
structure Told (e : Entry) : Prop where
  unmarked : e.primary = false
  slashless : '/' ∉ e.name.toList
  head : ∀ c ∈ e.name.toList.head?, ¬ isBlank c
  last : ∀ c ∈ e.name.toList.getLast?, ¬ isBlank c
  word : ∃ w : Int64, w.toInt = e.port

theorem read_eq_ok_iff {s : String} {e : Entry} : read s = .ok e ↔
    ∃ name port, s.toList = name ++ '/' :: port ∧ '/' ∉ name ∧
      e.name.toList = trimChars name ∧ readInt64? (trimChars port) = some e.port ∧
      e.primary = false := by
  constructor
  · intro h
    unfold read at h
    split at h
    · cases h
    · next name port hcut =>
      obtain ⟨hs, hslash⟩ := eq_of_cutFirst hcut
      split at h
      · cases h
      · next n hport =>
        cases h
        exact ⟨name, port, hs, hslash, by simp, hport, rfl⟩
  · rintro ⟨name, port, hs, hslash, hname, hport, hprimary⟩
    cases e
    simp only at hname hport hprimary
    simp [read, hs, cutFirst_append hslash, hport, hprimary, ← hname]

theorem told_of_read {s : String} {e : Entry} (h : read s = .ok e) : e.Told := by
  obtain ⟨name, port, -, hslash, hname, hport, hprimary⟩ := read_eq_ok_iff.mp h
  have hslashless : '/' ∉ e.name.toList := by
    intro hmem
    obtain ⟨lead, tail, hparts, -, -⟩ := exists_trimChars_append name
    apply hslash
    rw [hparts, ← hname]
    simp [hmem]
  have hhead : ∀ c ∈ e.name.toList.head?, ¬ isBlank c := by
    intro c hc
    exact not_blank_of_mem_head?_trimChars (hname ▸ hc)
  have hlast : ∀ c ∈ e.name.toList.getLast?, ¬ isBlank c := by
    intro c hc
    exact not_of_mem_getLast?_dropEndWhile (p := isBlank) (hname ▸ hc)
  exact ⟨hprimary, hslashless, hhead, hlast, fitsInt64_iff.mp (fitsInt64_of_readInt64? hport)⟩

theorem Told.read_print {e : Entry} (h : e.Told) : read e.print = .ok e := by
  have hname : e.name.toList = trimChars e.name.toList :=
    (trimChars_eq_self_iff.mpr ⟨h.head, h.last⟩).symm
  have hport : readInt64? (trimChars (printInt e.port)) = some e.port := by
    rw [trimChars_printInt]
    exact readInt64?_printInt (fitsInt64_iff.mpr h.word)
  apply read_eq_ok_iff.mpr
  exact ⟨e.name.toList, printInt e.port, by simp [print], h.slashless, hname, hport, h.unmarked⟩

/-- Whatever is read is read again from what is written of it, and an entry is read back from its
text exactly if the text tells all of it. -/
theorem read_print_inverse :
    (∀ s e, read s = .ok e → e.Told ∧ read e.print = .ok e) ∧
      ∀ e : Entry, e.Told ↔ read e.print = .ok e := by
  constructor
  · intro s e h
    have htold := told_of_read h
    exact ⟨htold, htold.read_print⟩
  · intro e
    exact ⟨Told.read_print, told_of_read⟩

theorem read_print_inverse_spaced :
    read "ssh\u3000/ +022 " = .ok ⟨"ssh", 22, false⟩ ∧
      read (print ⟨"ssh", 22, false⟩) = .ok ⟨"ssh", 22, false⟩ ∧
      (⟨"s s", Int64.minValue.toInt, false⟩ : Entry).Told ∧
      read (print ⟨"s s", Int64.minValue.toInt, false⟩) =
        .ok ⟨"s s", Int64.minValue.toInt, false⟩ := by
  have hread : read "ssh\u3000/ +022 " = .ok ⟨"ssh", 22, false⟩ := rfl
  have hends : ∀ c ∈ some 's', ¬ isBlank c := by
    intro c hc
    obtain rfl := Option.some.inj hc
    decide
  have hleast : (⟨"s s", Int64.minValue.toInt, false⟩ : Entry).Told :=
    ⟨rfl, by decide, hends, hends, Int64.minValue, rfl⟩
  obtain ⟨-, hagain⟩ := read_print_inverse.1 _ _ hread
  exact ⟨hread, hagain, hleast, (read_print_inverse.2 _).mp hleast⟩

end Custody.Protocol.Entry
