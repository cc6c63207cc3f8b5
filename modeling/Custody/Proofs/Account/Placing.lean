import Custody.Proofs.Rows
import Custody.Proofs.Store.Accounts

/-!
Accounts put on one asset, one after the other. Each of them is reported as it is put there, new or
in the place of one that stands on the asset already; a later one may change what was reported
before. So of each account the last report is the one that is true in the end.
-/
namespace Custody.Accounts

variable {dated : Time.Instant → Time.Instant} {asset : String} {m m' : Accounts}
  {made : List (Account × Outcome)}

def Holds (m : Accounts) (asset id : String) : Prop :=
  ∃ b, m id = some b ∧ b.assetId = asset

/-- The account that is reported is on the asset in the end, under an id that no account of another
asset had before. -/
structure Placed (dated : Time.Instant → Time.Instant) (asset : String) (m : Accounts)
    (r : Account × Outcome) (m' : Accounts) : Prop where
  assetId : r.1.assetId = asset
  before : ∀ b, m r.1.id = some b → b.assetId = asset
  created : r.2 = .created ↔ m r.1.id = none
  after : m' = Function.update m r.1.id (some (r.1.redated dated))

namespace Placed

variable {r : Account × Outcome}

theorem created_iff (h : Placed dated asset m r m') :
    r.2 = .created ↔ ¬ m.Holds asset r.1.id := by
  rw [h.created]
  cases hfound : m r.1.id with
  | none => simp [Holds, hfound]
  | some b => simp [Holds, hfound, h.before b hfound]

theorem holds_iff (h : Placed dated asset m r m') {id : String} :
    m'.Holds asset id ↔ id = r.1.id ∨ m.Holds asset id := by
  unfold Holds
  rw [h.after]
  by_cases hid : id = r.1.id
  · subst hid
    simp [Account.redated, h.assetId]
  · simp [hid]

end Placed

/-- Reports in the order in which the accounts are put on the asset. -/
inductive Placing (dated : Time.Instant → Time.Instant) (asset : String) :
    Accounts → List (Account × Outcome) → Accounts → Prop
  | nil (m : Accounts) : Placing dated asset m [] m
  | cons {m m' m'' : Accounts} {r : Account × Outcome} {rest : List (Account × Outcome)} :
    Placed dated asset m r m' → Placing dated asset m' rest m'' →
    Placing dated asset m (r :: rest) m''

namespace Placing

theorem assetId (h : Placing dated asset m made m') : ∀ r ∈ made, r.1.assetId = asset := by
  induction h with
  | nil => simp
  | cons hplaced _ ih => exact List.forall_mem_cons.mpr ⟨hplaced.assetId, ih⟩

theorem untouched (h : Placing dated asset m made m') {id : String}
    (hid : ∀ r ∈ made, r.1.id ≠ id) : m' id = m id := by
  induction h with
  | nil => rfl
  | cons hplaced _ ih =>
    obtain ⟨hfirst, hrest⟩ := List.forall_mem_cons.mp hid
    rw [ih hrest, hplaced.after, Function.update_of_ne hfirst.symm]

theorem stored (h : Placing dated asset m made m') {a : Account}
    (ha : Rows.LastBy (·.id) a (made.map (·.1))) : m' a.id = some (a.redated dated) := by
  induction h with
  | nil => cases ha.mem
  | cons hplaced hrest ih =>
    rcases Rows.lastBy_cons.mp ha with ha | ⟨rfl, hlater⟩
    · exact ih ha
    · rw [hrest.untouched, hplaced.after, Function.update_self]
      exact fun r hr => hlater r.1 (List.mem_map_of_mem hr)

theorem found (h : Placing dated asset m made m') {id : String} {b : Account}
    (hb : m' id = some b) :
    m id = some b ∨ ∃ a, Rows.LastBy (·.id) a (made.map (·.1)) ∧ a.redated dated = b := by
  by_cases hid : ∃ r ∈ made, r.1.id = id
  · obtain ⟨r, hr, rfl⟩ := hid
    obtain ⟨a, ha, haid⟩ := Rows.exists_lastBy Account.id (List.mem_map_of_mem (f := Prod.fst) hr)
    rw [← haid, h.stored ha] at hb
    exact .inr ⟨a, ha, Option.some.inj hb⟩
  · rw [h.untouched fun r hr heq => hid ⟨r, hr, heq⟩] at hb
    exact .inl hb

theorem created_iff (h : Placing dated asset m made m') :
    (∀ r ∈ made, r.2 = .created) ↔
      (made.map (·.1.id)).Nodup ∧ ∀ r ∈ made, ¬ m.Holds asset r.1.id := by
  induction h with
  | nil => simp
  | cons hplaced _ ih =>
    rw [List.forall_mem_cons, List.forall_mem_cons, List.map_cons, List.nodup_cons,
      hplaced.created_iff, ih]
    -- What the first report leaves on the asset is what was there and its own account.
    simp only [hplaced.holds_iff, List.mem_map]
    grind

end Placing

end Custody.Accounts
