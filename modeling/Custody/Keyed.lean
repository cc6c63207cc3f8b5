/-!
Lists of values under text keys. `place` keeps them in the order of the keys and each key once;
looking up, placing and erasing obey their laws for lists in any order.
-/
namespace Custody

abbrev Keyed (α : Type) := List (String × α)

namespace Keyed

variable {α : Type}

def get? (o : Keyed α) (key : String) : Option α := o.lookup key

def contains (o : Keyed α) (key : String) : Bool := (get? o key).isSome

def place (o : Keyed α) (key : String) (value : α) : Keyed α :=
  match o with
  | [] => [(key, value)]
  | (k, v) :: rest =>
    if k = key then (key, value) :: rest
    else if key < k then (key, value) :: (k, v) :: rest
    else (k, v) :: place rest key value

def erase (o : Keyed α) (key : String) : Keyed α := o.filter (·.1 ≠ key)

def values (o : Keyed α) : List α := o.map (·.2)

@[simp] theorem get?_nil (key : String) : get? ([] : Keyed α) key = none := rfl

theorem get?_cons (k : String) (v : α) (rest : Keyed α) (key : String) :
    get? ((k, v) :: rest) key = if key = k then some v else get? rest key := by
  by_cases h : key = k
  · simp [get?, h]
  · simp [get?, List.lookup_cons, h, beq_eq_false_iff_ne.mpr h]

theorem get?_place_self (o : Keyed α) (key : String) (value : α) :
    get? (place o key value) key = some value := by
  induction o with
  | nil => simp [place, get?_cons]
  | cons m rest ih =>
    obtain ⟨k, v⟩ := m
    unfold place
    split
    · simp [get?_cons]
    · split
      · simp [get?_cons]
      · next h _ => simp [get?_cons, Ne.symm h, ih]

theorem get?_place_of_ne (o : Keyed α) {key other : String} (value : α) (h : other ≠ key) :
    get? (place o key value) other = get? o other := by
  induction o with
  | nil => simp [place, get?_cons, h]
  | cons m rest ih =>
    obtain ⟨k, v⟩ := m
    unfold place
    split
    · next hk => simp [get?_cons, h, hk]
    · split
      · simp [get?_cons, h]
      · simp [get?_cons, ih]

theorem get?_erase_self (o : Keyed α) (key : String) : get? (erase o key) key = none := by
  induction o with
  | nil => rfl
  | cons m rest ih =>
    obtain ⟨k, v⟩ := m
    by_cases h : k = key
    · simpa [erase, h] using ih
    · have : erase ((k, v) :: rest) key = (k, v) :: erase rest key := by simp [erase, h]
      rw [this, get?_cons, if_neg (Ne.symm h), ih]

theorem get?_erase_of_ne (o : Keyed α) {key other : String} (h : other ≠ key) :
    get? (erase o key) other = get? o other := by
  induction o with
  | nil => rfl
  | cons m rest ih =>
    obtain ⟨k, v⟩ := m
    by_cases hk : k = key
    · have : erase ((k, v) :: rest) key = erase rest key := by simp [erase, hk]
      rw [this, ih, get?_cons, if_neg (hk ▸ h)]
    · have : erase ((k, v) :: rest) key = (k, v) :: erase rest key := by simp [erase, hk]
      rw [this, get?_cons, get?_cons, ih]

end Keyed

end Custody
