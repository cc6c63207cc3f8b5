import Custody.Database

/-!
What scripts leave of a database. Creating what is missing keeps every part and every row, and an
older database is brought up to date by the steps from each version to the next.
-/
namespace Custody.Database

variable {d d' : Database} {ps : List Part} {p q : Part}

/-! ### Parts -/

@[simp] theorem has_version (v : Int) : { d with version := v }.has p = d.has p := by
  cases p <;> rfl

@[simp] theorem has_add : (d.add p).has q ↔ d.has q ∨ q = p := by
  cases p <;> cases q <;> simp [add, has]

@[simp] theorem has_ensure : (d.ensure p).has q ↔ d.has q ∨ q = p := by
  unfold ensure
  split
  · next hp =>
    simp only [iff_self_or]
    rintro rfl
    exact hp
  · exact has_add

theorem has_foldl_ensure : (ps.foldl ensure d).has q ↔ d.has q ∨ q ∈ ps := by
  induction ps generalizing d with
  | nil => simp
  | cons p ps ih => rw [List.foldl_cons, ih, has_ensure, List.mem_cons, or_assoc]

theorem has_of_build (h : build ps d = (true, d')) : ∀ p, d'.has p ↔ d.has p ∨ p ∈ ps := by
  induction ps generalizing d with
  | nil =>
    cases h
    simp
  | cons p ps ih =>
    unfold build at h
    split at h
    · cases h
    · intro q
      rw [ih h, has_add, List.mem_cons, or_assoc]

/-! ### Rows -/

/-- A table that does not exist has no rows. -/
def Founded (d : Database) : Prop :=
  ∀ name, ¬ d.has (.table name) → d.rows.clear name = d.rows

theorem Founded.rows_ensure (h : d.Founded) (p : Part) : (d.ensure p).rows = d.rows := by
  unfold ensure
  split
  · rfl
  · next hp =>
    cases p with
    | table name => exact h name hp
    | index => rfl

theorem Founded.ensure (h : d.Founded) (p : Part) : (d.ensure p).Founded := by
  intro name habsent
  rw [h.rows_ensure]
  apply h
  intro hhas
  exact habsent (has_ensure.mpr (.inl hhas))

theorem Founded.rows_foldl_ensure (h : d.Founded) (ps : List Part) :
    (ps.foldl Database.ensure d).rows = d.rows := by
  induction ps generalizing d with
  | nil => rfl
  | cons p ps ih => rw [List.foldl_cons, ih (h.ensure p), h.rows_ensure]

/-! ### Versions -/

def lacking (version : Int) : List Part := if version = 1 then pushParts else []

def steps : Nat → Int → Database → Database
  | 0, _, d => d
  | n + 1, version, d => steps n (version + 1) ((lacking version).foldl ensure d)

/-- Only the step from version 1 does anything, wherever the others begin or end. -/
theorem steps_eq (n : Nat) (v : Int) (d : Database) :
    steps n v d = if v ≤ 1 ∧ 1 < v + n then pushParts.foldl ensure d else d := by
  induction n generalizing v d with
  | zero =>
    rw [if_neg (by omega)]
    rfl
  | succ n ih =>
    rw [steps, ih, lacking]
    by_cases hv : v = 1
    · rw [if_neg (by omega), if_pos hv, if_pos (by omega)]
    · rw [if_neg hv]
      have hrange : v + 1 ≤ 1 ∧ 1 < v + 1 + (n : Int) ↔ v ≤ 1 ∧ 1 < v + (n + 1 : Nat) := by omega
      simp only [hrange, List.foldl_nil]

/-- The database after every step from its own version to the current one. -/
def advance (d : Database) : Database :=
  { steps (currentVersion - d.version).toNat d.version d with version := currentVersion }

theorem advance_eq (h : d.version < currentVersion) :
    d.advance = { pushParts.foldl ensure d with version := currentVersion } := by
  have hpassed : d.version ≤ 1 ∧ 1 < d.version + ((currentVersion - d.version).toNat : Int) := by
    unfold currentVersion at *
    omega
  rw [advance, steps_eq, if_pos hpassed]

end Custody.Database
