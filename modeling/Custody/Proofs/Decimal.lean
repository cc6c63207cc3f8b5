import Custody.Decimal
import Custody.Proofs.Text.Trim

/-!
Integers in decimal, written and read. What is written of a 64-bit word is read back as the same
word, and no other number is ever read.
-/
namespace Custody.Decimal

open Text

/-! ### Digits -/

theorem digitsValue_toDigits (n : Nat) : digitsValue (Nat.toDigits 10 n) = n := by
  have hvalue : digitsValue = fun ds => Nat.ofDigitChars 10 ds 0 := by
    funext ds
    simp only [digitsValue, Nat.ofDigitChars, Nat.mul_comm]
  simp [hvalue, Nat.ofDigitChars_ten_toDigits]

theorem isDigit_of_mem_toDigits {n : Nat} {c : Char} (h : c ∈ Nat.toDigits 10 n) : c.isDigit :=
  Nat.isDigit_of_mem_toDigits (by decide) (by decide) h

@[simp] theorem readNat?_toDigits (n : Nat) : readNat? (Nat.toDigits 10 n) = some n := by
  have hdigits : (Nat.toDigits 10 n).all Char.isDigit :=
    List.all_eq_true.mpr fun _ hc => isDigit_of_mem_toDigits hc
  simp [readNat?, Nat.toDigits_ne_nil, hdigits, digitsValue_toDigits]

/-! ### Signed words -/

theorem readInt64?_minus (n : Nat) :
    readInt64? ('-' :: Nat.toDigits 10 n) = (some (-(n : Int))).filter fitsInt64 := by
  simp [readInt64?]

theorem readInt64?_toDigits (n : Nat) :
    readInt64? (Nat.toDigits 10 n) = (some (n : Int)).filter fitsInt64 := by
  -- No digit is a sign, so digits alone are read as what they are.
  obtain ⟨c, ds, hcons⟩ := List.exists_cons_of_ne_nil (Nat.toDigits_ne_nil (n := n) (b := 10))
  have hdigit : c.isDigit := isDigit_of_mem_toDigits (hcons ▸ List.mem_cons_self)
  have hminus : c ≠ '-' := by rintro rfl; simp at hdigit
  have hplus : c ≠ '+' := by rintro rfl; simp at hdigit
  have hread : readNat? (c :: ds) = some n := hcons ▸ readNat?_toDigits n
  simp [hcons, readInt64?, hminus, hplus, hread]

theorem readInt64?_printInt {n : Int} (h : fitsInt64 n) : readInt64? (printInt n) = some n := by
  unfold printInt
  split
  · have hn : -(n.natAbs : Int) = n := by omega
    rw [readInt64?_minus, hn, Option.filter_some_pos h]
  · have hn : (n.natAbs : Int) = n := by omega
    rw [readInt64?_toDigits, hn, Option.filter_some_pos h]

theorem fitsInt64_of_readInt64? {cs : List Char} {n : Int} (h : readInt64? cs = some n) :
    fitsInt64 n :=
  (Option.filter_eq_some_iff.mp h).2

theorem fitsInt64_iff {n : Int} : fitsInt64 n ↔ ∃ w : Int64, w.toInt = n := by
  simp only [fitsInt64, Bool.and_eq_true, decide_eq_true_eq]
  constructor
  · intro h
    exact ⟨.ofInt n, Int64.toInt_ofInt_of_le (by omega) (by omega)⟩
  · rintro ⟨w, rfl⟩
    have hlower := w.le_toInt
    have hupper := w.toInt_lt
    omega

/-! ### Beside blanks -/

theorem not_blank_of_mem_printInt {n : Int} {c : Char} (h : c ∈ printInt n) : ¬ isBlank c := by
  have hdigit : c = '-' ∨ c.isDigit := by
    unfold printInt at h
    split at h
    · exact (List.mem_cons.mp h).imp_right isDigit_of_mem_toDigits
    · exact .inr (isDigit_of_mem_toDigits h)
  rcases hdigit with rfl | hdigit
  · decide
  · simp only [Char.isDigit, Bool.and_eq_true, decide_eq_true_eq, ge_iff_le,
      UInt32.le_iff_toNat_le] at hdigit
    change 48 ≤ c.toNat ∧ c.toNat ≤ 57 at hdigit
    simp [isBlank]
    omega

theorem trimChars_printInt (n : Int) : trimChars (printInt n) = printInt n := by
  apply trimChars_eq_self_iff.mpr
  constructor
  · intro c hc
    exact not_blank_of_mem_printInt (List.mem_of_mem_head? hc)
  · intro c hc
    exact not_blank_of_mem_printInt (List.mem_of_mem_getLast? hc)

end Custody.Decimal
