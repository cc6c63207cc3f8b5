/-!
Blanks are the characters with the Unicode property White_Space. Texts are trimmed and cut as
lists of characters, where every law is a law of `dropWhile`; the `String` versions wrap those.
-/
namespace Custody.Text

/-- The 25 code points with White_Space; U+001C to U+001F and U+200B are not among them. -/
def isBlank (c : Char) : Bool :=
  let n := c.toNat
  (0x09 ≤ n && n ≤ 0x0D) || n == 0x20 || n == 0x85 || n == 0xA0 || n == 0x1680 ||
    (0x2000 ≤ n && n ≤ 0x200A) || n == 0x2028 || n == 0x2029 || n == 0x202F || n == 0x205F ||
    n == 0x3000

def dropEndWhile (p : Char → Bool) (cs : List Char) : List Char :=
  (cs.reverse.dropWhile p).reverse

def trimChars (cs : List Char) : List Char :=
  dropEndWhile isBlank (cs.dropWhile isBlank)

def trim (s : String) : String := .ofList (trimChars s.toList)

def cutFirst (sep : Char) : List Char → Option (List Char × List Char)
  | [] => none
  | c :: cs => if c = sep then some ([], cs) else (cutFirst sep cs).map fun (a, b) => (c :: a, b)

theorem cutFirst_append {sep : Char} {a b : List Char} (h : sep ∉ a) :
    cutFirst sep (a ++ sep :: b) = some (a, b) := by
  induction a with
  | nil => simp [cutFirst]
  | cons c a ih =>
    have hc : c ≠ sep := fun e => h (by simp [e])
    simp [cutFirst, hc, ih (fun m => h (by simp [m]))]

theorem eq_of_cutFirst {sep : Char} {cs a b : List Char} (h : cutFirst sep cs = some (a, b)) :
    cs = a ++ sep :: b ∧ sep ∉ a := by
  induction cs generalizing a with
  | nil => simp [cutFirst] at h
  | cons c cs ih =>
    by_cases hc : c = sep
    · simp only [cutFirst, hc, if_true, Option.some.injEq, Prod.mk.injEq] at h
      obtain ⟨rfl, rfl⟩ := h
      simp [hc]
    · simp only [cutFirst, hc, if_false, Option.map_eq_some_iff, Prod.exists, Prod.mk.injEq] at h
      obtain ⟨a', _, hcut, rfl, rfl⟩ := h
      obtain ⟨rfl, hn⟩ := ih hcut
      simp [hn, Ne.symm hc]

def cutLast (sep : Char) (cs : List Char) : Option (List Char × List Char) :=
  (cutFirst sep cs.reverse).map fun (b, a) => (a.reverse, b.reverse)

theorem eq_of_cutLast {sep : Char} {cs a b : List Char} (h : cutLast sep cs = some (a, b)) :
    cs = a ++ sep :: b ∧ sep ∉ b := by
  simp only [cutLast, Option.map_eq_some_iff, Prod.exists, Prod.mk.injEq] at h
  obtain ⟨b', a', hcut, rfl, rfl⟩ := h
  obtain ⟨he, hn⟩ := eq_of_cutFirst hcut
  refine ⟨?_, by simpa using hn⟩
  rw [← List.reverse_reverse cs, he]
  simp

theorem length_lt_of_cutLast {sep : Char} {cs a b : List Char}
    (h : cutLast sep cs = some (a, b)) : a.length < cs.length := by
  rw [(eq_of_cutLast h).1]
  simp

def splitOn (sep : Char) : List Char → List (List Char)
  | [] => [[]]
  | c :: cs =>
    if c = sep then [] :: splitOn sep cs
    else match splitOn sep cs with
      | [] => [[c]]
      | piece :: rest => (c :: piece) :: rest

def splitList (s : String) : List String :=
  (((splitOn ',' s.toList).map trimChars).filter (· ≠ [])).map .ofList

end Custody.Text
