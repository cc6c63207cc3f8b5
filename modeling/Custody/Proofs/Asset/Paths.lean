import Custody.Asset.Tree
import Custody.Proofs.Text.Trim

/-!
What is made of a submitted path. Blanks around it go before the slashes at its end do, and nobody
looks again: a path of which nothing is left, or of which a blank is left at the end, does not come
into the form in which it would stay.
-/
namespace Custody.Node

open Text

variable {path core org : List Char}

/-- The path names this: before it stand only blanks, and behind it only slashes and then blanks. It
starts and ends with no blank and does not end with a slash. -/
structure Names (path core : List Char) : Prop where
  around : ∃ lead slashes tail, path = lead ++ (core ++ slashes) ++ tail ∧
    (∀ c ∈ lead, isBlank c) ∧ (∀ c ∈ slashes, c = '/') ∧ ∀ c ∈ tail, isBlank c
  first : ∃ c ∈ core.head?, ¬ isBlank c
  last : ∃ c ∈ core.getLast?, ¬ isBlank c ∧ c ≠ '/'

def stripped (path : List Char) : List Char := dropEndWhile (· = '/') (trimChars path)

theorem Names.ne_nil (h : Names path core) : core ≠ [] := by
  obtain ⟨c, hc, -⟩ := h.first
  exact List.ne_nil_of_mem (List.mem_of_mem_head? hc)

theorem Names.stripped_eq (h : Names path core) : stripped path = core := by
  obtain ⟨lead, slashes, tail, rfl, hlead, hslashes, htail⟩ := h.around
  obtain ⟨first, hfirst, hclear⟩ := h.first
  obtain ⟨last, hlast, hblank, hslash⟩ := h.last
  have hhead : ∀ c ∈ (core ++ slashes).head?, ¬ isBlank c := by
    intro c hc
    rw [List.head?_append_of_ne_nil _ h.ne_nil] at hc
    cases Option.mem_unique hc hfirst
    exact hclear
  have hend : ∀ c ∈ (core ++ slashes).getLast?, ¬ isBlank c := by
    intro c hc
    by_cases hne : slashes = []
    · rw [hne, List.append_nil] at hc
      cases Option.mem_unique hc hlast
      exact hblank
    · rw [getLast?_append_of_ne_nil hne] at hc
      rw [hslashes c (List.mem_of_getLast? hc)]
      decide
  rw [stripped, trimChars_eq hlead htail hhead hend,
    dropEndWhile_append fun c hc => decide_eq_true (hslashes c hc)]
  refine dropEndWhile_eq_self_iff.mpr fun c hc => ?_
  cases Option.mem_unique hc hlast
  simpa using hslash

theorem names_stripped (h : ∃ c ∈ (stripped path).getLast?, ¬ isBlank c) :
    Names path (stripped path) := by
  obtain ⟨last, hlast, hblank⟩ := h
  have hne : stripped path ≠ [] := List.ne_nil_of_mem (List.mem_of_getLast? hlast)
  obtain ⟨lead, tail, hpath, hlead, htail⟩ := exists_trimChars_append path
  obtain ⟨slashes, htrimmed, hslashes⟩ :=
    exists_dropEndWhile_append (· = '/') (trimChars path)
  refine ⟨⟨lead, slashes, tail, ?_, hlead, fun c hc => of_decide_eq_true (hslashes c hc), htail⟩,
    ?_, last, hlast, hblank, ?_⟩
  · exact htrimmed ▸ hpath
  · have hfirst := List.head?_eq_some_head hne
    have htrim : (trimChars path).head? = some ((stripped path).head hne) :=
      (head?_dropEndWhile hne).symm.trans hfirst
    exact ⟨_, hfirst, not_blank_of_mem_head?_trimChars htrim⟩
  · simpa using not_of_mem_getLast?_dropEndWhile hlast

theorem pathChars_eq (path org : List Char) : pathChars path org =
    if (stripped path).head? = some '/' then stripped path
    else '/' :: org ++ '/' :: stripped path := by
  unfold pathChars
  extract_lets trimmed
  rw [show stripped path = trimmed from rfl]
  clear_value trimmed
  split
  · exact (if_pos rfl).symm
  · next hne =>
    rw [if_neg]
    intro hhead
    obtain ⟨rest, hrest⟩ := List.head?_eq_some_iff.mp hhead
    exact hne rest hrest

theorem head?_pathChars (path org : List Char) : (pathChars path org).head? = some '/' := by
  rw [pathChars_eq]
  split
  · assumption
  · rfl

theorem getLast?_pathChars (org : List Char) (h : stripped path ≠ []) :
    (pathChars path org).getLast? = (stripped path).getLast? := by
  rw [pathChars_eq]
  split
  · rfl
  · rw [List.append_cons]
    exact getLast?_append_of_ne_nil h

theorem getLast?_pathChars_of_nil (org : List Char) (h : stripped path = []) :
    (pathChars path org).getLast? = some '/' := by
  rw [pathChars_eq, h, if_neg (by simp)]
  exact List.getLast?_concat

theorem stripped_of_fixed (hhead : path.head? = some '/') (hlast : path.getLast? ≠ some '/')
    (h : pathChars path org = path) : stripped path = path := by
  have hne : stripped path ≠ [] := fun hnil => hlast (h ▸ getLast?_pathChars_of_nil org hnil)
  have hslash : (stripped path).head? = some '/' := by
    obtain ⟨rest, rfl⟩ := List.head?_eq_some_iff.mp hhead
    have htrimmed : trimChars ('/' :: rest) = dropEndWhile isBlank ('/' :: rest) := by
      rw [trimChars, dropWhile_eq_self_iff.mpr]
      rintro c ⟨⟩
      decide
    have hkept : trimChars ('/' :: rest) ≠ [] := fun hnil => hne (by rw [stripped, hnil]; rfl)
    rw [stripped, head?_dropEndWhile hne, htrimmed, head?_dropEndWhile (htrimmed ▸ hkept)]
    rfl
  rwa [pathChars_eq, if_pos hslash] at h

/-- A path in the form that it is to be brought into: from the root, without a slash at its end, and
not changed any more. -/
structure Canonical (org path : String) : Prop where
  rooted : path.toList.head? = some '/'
  closed : path.toList.getLast? ≠ some '/'
  settled : pathUnder org path = path

theorem toList_pathUnder (org path : String) :
    (pathUnder org path).toList = pathChars path.toList org.toList := by
  rw [pathUnder, String.toList_ofList]

theorem pathUnder_eq_iff {org path made : String} :
    pathUnder org path = made ↔ pathChars path.toList org.toList = made.toList := by
  rw [← String.toList_inj, toList_pathUnder]

/-- What a name becomes names itself, so that it stays. -/
theorem canonical_pathUnder (org : String) {path : String} {core : List Char}
    (h : Names path.toList core) : Canonical org (pathUnder org path) := by
  set made := pathChars path.toList org.toList with hmade
  have hne : stripped path.toList ≠ [] := h.stripped_eq ▸ h.ne_nil
  have hhead : made.head? = some '/' := head?_pathChars path.toList org.toList
  have hlast : made.getLast? = core.getLast? := h.stripped_eq ▸ getLast?_pathChars org.toList hne
  have hself : Names made made :=
    ⟨⟨[], [], [], by simp⟩, ⟨'/', hhead, by decide⟩, hlast ▸ h.last⟩
  obtain ⟨last, hmem, -, hslash⟩ := hself.last
  refine ⟨toList_pathUnder org path ▸ hhead, ?_, ?_⟩
  · rw [toList_pathUnder, ← hmade, hmem]
    exact fun hends => hslash (Option.some.inj hends)
  · rw [pathUnder_eq_iff, toList_pathUnder, ← hmade, pathChars_eq, hself.stripped_eq, if_pos hhead]

theorem not_blank_of_stripped (h : stripped path = path) :
    ∀ c ∈ path.getLast?, ¬ isBlank c := by
  obtain ⟨slashes, htrimmed, -⟩ := exists_dropEndWhile_append (· = '/') (trimChars path)
  obtain ⟨lead, tail, hpath, -, -⟩ := exists_trimChars_append path
  have hgrows : trimChars path = path ++ slashes := by
    rw [stripped] at h
    rwa [h] at htrimmed
  have hlength : path.length = (lead ++ trimChars path ++ tail).length := congrArg _ hpath
  have hsettled : trimChars path = path := by
    have hnil : slashes = [] := by
      rw [hgrows] at hlength
      simp only [List.length_append] at hlength
      exact List.length_eq_zero_iff.mp (by omega)
    rw [hgrows, hnil, List.append_nil]
  exact (trimChars_eq_self_iff.mp hsettled).2

/-- Whatever the organisation is called, a path becomes canonical exactly if it names something. -/
theorem pathUnder_canonical_iff (org path : String) :
    Canonical org (pathUnder org path) ↔ ∃ core, Names path.toList core := by
  constructor
  · rintro ⟨hrooted, hclosed, hsettled⟩
    rw [pathUnder_eq_iff] at hsettled
    rw [toList_pathUnder] at hrooted hclosed hsettled
    have hne : stripped path.toList ≠ [] :=
      fun hnil => hclosed (getLast?_pathChars_of_nil org.toList hnil)
    have hlast := getLast?_pathChars org.toList hne
    have hstays := stripped_of_fixed hrooted hclosed hsettled
    have hmem := List.getLast?_eq_some_getLast hne
    exact ⟨_, names_stripped ⟨_, hmem, not_blank_of_stripped hstays _ (hlast.trans hmem)⟩⟩
  · rintro ⟨core, hcore⟩
    exact canonical_pathUnder org hcore

/-- A path of nothing becomes one that ends with a slash, and of one with a blank before the slashes
at its end the blank is left, which would go the next time. -/
theorem not_canonical_pathUnder :
    (pathUnder "Default" "" = "/Default/" ∧ ¬ Canonical "Default" (pathUnder "Default" "")) ∧
    pathUnder "Default" "/dev /" = "/dev " ∧
    ¬ Canonical "Default" (pathUnder "Default" "/dev /") := by
  have hempty : pathUnder "Default" "" = "/Default/" := by decide
  have hblank : pathUnder "Default" "/dev /" = "/dev " := by decide
  refine ⟨⟨hempty, fun h => ?_⟩, hblank, fun h => ?_⟩
  · exact absurd h.closed (by rw [hempty]; decide)
  · exact absurd h.settled (by rw [hblank]; decide)

end Custody.Node
