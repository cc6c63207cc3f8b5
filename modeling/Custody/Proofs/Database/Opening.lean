import Custody.Proofs.Database.Upgrade

/-!
Opening a database again. Only version 0 is refused, and nothing is lost: an older database gets the
table of pushes if it lacks it, and one that has been opened is not changed by the next opening.
-/
namespace Custody.Database

variable {d d' : Database}

/-! ### What opening comes to -/

theorem prepare_blank : blank.prepare =
    (.ok (), ⟨currentVersion, firstTables ++ [pushTable], firstIndexes ++ [pushIndex], .empty⟩) :=
  rfl

theorem storedVersion_of_has (h : d.has (.table versionTable)) : d.storedVersion = d.version := by
  simp [storedVersion, h]

theorem prepare_of_zero (h : d.has (.table versionTable)) (hzero : d.version = 0) :
    d.prepare =
      (.error (.storage (.tableExists versionTable script firstTableOffset)), d) := by
  -- The script stops at its first statement.
  have hbuild : build parts d = (false, d) := by
    change (if d.has (.table versionTable) then (false, d) else _) = (false, d)
    rw [if_pos h]
  simp [prepare, storedVersion_of_has h, hzero, versionFits, hbuild]

theorem prepare_of_current (h : d.has (.table versionTable)) (hfits : versionFits d.version)
    (hcurrent : currentVersion ≤ d.version) : d.prepare = (.ok (), d) := by
  have hzero : d.version ≠ 0 := by
    unfold currentVersion at hcurrent
    omega
  simp [prepare, isOutdated, storedVersion_of_has h, hfits, hzero, Int.not_lt.mpr hcurrent]

theorem prepare_of_outdated (h : d.has (.table versionTable)) (hfits : versionFits d.version)
    (hzero : d.version ≠ 0) (houtdated : d.version < currentVersion) :
    d.prepare = (.ok (), d.advance) := by
  have hmigrate : d.migrate = d.advance := (advance_eq houtdated).symm
  simp [prepare, isOutdated, storedVersion_of_has h, hfits, hzero, houtdated, hmigrate]

theorem current_of_prepare (h : d.prepare = (.ok (), d')) :
    d'.has (.table versionTable) ∧ versionFits d'.version ∧ currentVersion ≤ d'.version := by
  unfold prepare at h
  split at h
  · cases h
  · next hfits =>
    split at h
    · -- The script has created the table of versions.
      split at h
      · next hbuild =>
        cases h
        have hcreated := (has_of_build hbuild (.table versionTable)).mpr (.inr (by decide))
        exact ⟨hcreated, rfl, Int.le_refl _⟩
      · cases h
    · next hzero =>
      -- A version that is not 0 was read from the table that holds it.
      have hhas : d.has (.table versionTable) := by
        apply Decidable.byContradiction
        intro habsent
        exact hzero (by simp [storedVersion, habsent])
      rw [storedVersion_of_has hhas] at hfits
      split at h
      · cases h
        have hkept : d.migrate.has (.table versionTable) := by
          simp [migrate, has_foldl_ensure, hhas]
        exact ⟨hkept, rfl, Int.le_refl _⟩
      · next hcurrent =>
        cases h
        simp only [isOutdated, storedVersion_of_has hhas, decide_eq_true_eq, Int.not_lt] at hcurrent
        exact ⟨hhas, by simpa using hfits, hcurrent⟩

/-- Whatever the database, a second opening changes nothing. -/
theorem prepare_again (h : d.prepare = (.ok (), d')) : d'.prepare = (.ok (), d') := by
  obtain ⟨hversion, hfits, hcurrent⟩ := current_of_prepare h
  exact prepare_of_current hversion hfits hcurrent

/-! ### Databases that were created by opening -/

/-- What opening an empty file left, with any rows and any version since, and with or without its
table of pushes. -/
def since (rows : Store.Tables) (version : Int32) (pushes : Bool) : Database :=
  let d := { blank.prepare.2 with version := version.toInt, rows }
  if pushes then d else d.drop pushTable

theorem since_version (rows : Store.Tables) (v : Int32) (pushes : Bool) :
    (since rows v pushes).version = v.toInt := by
  cases pushes <;> rfl

theorem since_has (rows : Store.Tables) (v : Int32) (pushes : Bool) :
    (since rows v pushes).has (.table versionTable) := by
  cases pushes <;> rfl

theorem versionFits_toInt (v : Int32) : versionFits v.toInt := by
  have hlower := v.le_toInt
  have hupper := v.toInt_lt
  simp only [versionFits, Bool.and_eq_true, decide_eq_true_eq]
  omega

theorem clear_of_not_mem {rows : Store.Tables} {name : String}
    (h : name ∉ firstTables ++ [pushTable]) : rows.clear name = rows := by
  unfold Store.Tables.clear
  split <;> first | rfl | exact absurd (by decide) h

theorem founded_since (rows : Store.Tables) (v : Int32) (pushes : Bool) :
    (since rows v pushes).Founded := by
  intro name habsent
  by_cases hname : name = pushTable
  · -- The rows of the pushes went with their table.
    subst hname
    cases pushes with
    | true => exact absurd rfl habsent
    | false => rfl
  · apply clear_of_not_mem
    intro hmem
    apply habsent
    cases pushes <;> simpa [since, has, drop, prepare_blank, hname] using hmem

/-- The table of pushes and its index are there, and nothing else has changed but the version. -/
structure Upgraded (d d' : Database) : Prop where
  version : d'.version = 2
  has_iff : ∀ p, d'.has p ↔ d.has p ∨ p = .table "push_tasks" ∨
    p = .index ⟨"idx_push_tasks_created", "push_tasks"⟩
  rows : d'.rows = d.rows

theorem Founded.upgraded (h : d.Founded) (houtdated : d.version < currentVersion) :
    Upgraded d d.advance := by
  rw [advance_eq houtdated]
  constructor
  case version => rfl
  case has_iff =>
    intro p
    rw [has_version, has_foldl_ensure]
    simp [pushParts, pushTable, pushIndex]
  case rows => exact h.rows_foldl_ensure pushParts

/-- A database that opening has created is refused at version 0 alone, and left as it is. From any
other older version it is brought up to date with all its rows, a newer one stays as it is, and what
has been opened once is not changed again. -/
theorem reopened (rows : Store.Tables) (v : Int32) (pushes : Bool) :
    let d := since rows v pushes
    (d.prepare.1 = .ok () ↔ v ≠ 0) ∧
      (v = 0 → d.prepare.2 = d) ∧
      (v ≠ 0 → v < 2 → Upgraded d d.prepare.2) ∧
      (2 ≤ v → d.prepare.2 = d) ∧
      (d.prepare.1 = .ok () → d.prepare.2.prepare = (.ok (), d.prepare.2)) := by
  intro d
  have hzero_iff : v = 0 ↔ d.version = 0 := by
    rw [since_version, ← Int32.toInt_inj]
    rfl
  have hlt_iff : v < 2 ↔ d.version < currentVersion := by
    rw [since_version]
    exact Int32.lt_iff_toInt_lt
  have hle_iff : 2 ≤ v ↔ currentVersion ≤ d.version := by
    rw [since_version]
    exact Int32.le_iff_toInt_le
  rw [ne_eq, hzero_iff, hlt_iff, hle_iff]
  have hhas : d.has (.table versionTable) := since_has rows v pushes
  have hfits : versionFits d.version := since_version rows v pushes ▸ versionFits_toInt v
  by_cases hzero : d.version = 0
  · rw [prepare_of_zero hhas hzero]
    simp [hzero]
  · by_cases houtdated : d.version < currentVersion
    · have hopened := prepare_of_outdated hhas hfits hzero houtdated
      have hupgraded : Upgraded d d.advance := (founded_since rows v pushes).upgraded houtdated
      have hagain := prepare_again hopened
      rw [hopened]
      simp [hzero, hupgraded, hagain, Int.not_le.mpr houtdated]
    · have hopened := prepare_of_current hhas hfits (Int.not_lt.mp houtdated)
      simp [hopened, hzero, houtdated]

theorem reopened_older :
    let root : Node := ⟨"n1", "/Default", none⟩
    let d := since { Store.Tables.empty with nodes := [root] } (-7) false
    ¬ d.has (.table "push_tasks") ∧ d.prepare.1 = .ok () ∧
      d.prepare.2.has (.table "push_tasks") ∧ d.prepare.2.rows.nodes = [root] ∧
      d.prepare.2.prepare = (.ok (), d.prepare.2) := by
  intro root d
  obtain ⟨hok, -, hupgraded, -, hagain⟩ :=
    reopened { Store.Tables.empty with nodes := [root] } (-7) false
  have hopened : d.prepare.1 = .ok () := hok.mpr (by decide)
  have hnew : Upgraded d d.prepare.2 := hupgraded (by decide) (by decide)
  have hpushes : d.prepare.2.has (.table "push_tasks") := (hnew.has_iff _).mpr (.inr (.inl rfl))
  exact ⟨by decide, hopened, hpushes, congrArg (·.nodes) hnew.rows, hagain hopened⟩

end Custody.Database
