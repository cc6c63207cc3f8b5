import Custody.Proofs.Keyed
import Custody.Proofs.Protocol

/-!
Objects from which a shape reads a value. A record is put together field by field, so what its shape
reads follows from what stands under the name of each field.
-/
namespace Custody.Json

variable {α β : Type} {o : Object}

namespace Shape

/-- The shape reads this value, and every member that it declares passes. -/
structure Reads (s : Shape α) (o : Object) (a : α) : Prop where
  read : s.read o = .ok a
  checks : ∀ slot ∈ s.slots, ∀ v, Keyed.get? o slot.name = some v → slot.check v = .ok ()

namespace Reads

theorem map (f : α → β) {s : Shape α} {a : α} (h : s.Reads o a) : (f <$> s).Reads o (f a) where
  read := by
    change (s.read o).map f = .ok (f a)
    rw [h.read]
    rfl
  checks := h.checks

theorem seq {s : Shape (α → β)} {t : Shape α} {f : α → β} {a : α} (hf : s.Reads o f)
    (ha : t.Reads o a) : (s <*> t).Reads o (f a) where
  read := by
    change (do let g ← s.read o; let a ← t.read o; return g a) = Except.ok (f a)
    rw [hf.read, ha.read]
    rfl
  checks := List.forall_mem_append.mpr ⟨hf.checks, ha.checks⟩

theorem of_slot {s : Shape α} {name : String} {d : Decoder β} {b : β} {v : Value}
    {defaulted : Bool} {a : α} (hslots : s.slots = [slot name d defaulted])
    (hv : Keyed.get? o name = some v) (hd : d v = .ok b) (hread : s.read o = .ok a) :
    s.Reads o a where
  read := hread
  checks := by
    rw [hslots, List.forall_mem_singleton]
    intro w hw
    obtain rfl := Option.some.inj (hv.symm.trans hw)
    change (d v).map (fun _ => ()) = .ok ()
    rw [hd]
    rfl

theorem required {name : String} {d : Decoder α} {v : Value} {a : α}
    (hv : Keyed.get? o name = some v) (hd : d v = .ok a) : (Shape.required name d).Reads o a :=
  of_slot rfl hv hd (by simp [Shape.required, hv, hd])

theorem defaulted {name : String} {d : Decoder α} {default a : α} {v : Value}
    (hv : Keyed.get? o name = some v) (hd : d v = .ok a) :
    (Shape.defaulted name d default).Reads o a :=
  of_slot rfl hv hd (by simp [Shape.defaulted, hv, hd])

theorem checkMembers_eq_ok {s : Shape α} {a : α} (hkeys : (o.map (·.1)).Nodup)
    (h : s.Reads o a) : checkMembers s.slots o = .ok () := by
  refine forM_eq_ok_iff.mpr fun ⟨key, v⟩ hm => ?_
  dsimp only
  split
  · next slot hslot =>
    have hname : slot.name = key := by simpa using List.find?_some hslot
    exact h.checks slot (List.mem_of_find?_eq_some hslot) v (hname ▸ Keyed.get?_of_mem hkeys hm)
  · rfl

theorem decode {s : Shape α} {a : α} (name : String) (hkeys : (o.map (·.1)).Nodup)
    (h : s.Reads o a) : s.decode name (.object o) = .ok a := by
  change (checkMembers s.slots o >>= fun _ => s.read o) = _
  rw [h.checkMembers_eq_ok hkeys]
  exact h.read

end Reads

def Gives (s : Shape α) (P : α → Prop) : Prop := ∀ o a, s.read o = .ok a → P a

namespace Gives

theorem map {f : α → β} {s : Shape α} {P : β → Prop} (h : ∀ a, P (f a)) : (f <$> s).Gives P := by
  intro o b hb
  change (s.read o).map f = .ok b at hb
  cases hread : s.read o with
  | ok a =>
    rw [hread] at hb
    exact Except.ok.inj hb ▸ h a
  | error e =>
    rw [hread] at hb
    cases hb

theorem seq {s : Shape (α → β)} {t : Shape α} {P : β → Prop} (Q : α → Prop)
    (hs : s.Gives fun f => ∀ a, Q a → P (f a)) (ht : t.Gives Q) : (s <*> t).Gives P := by
  intro o b hb
  obtain ⟨f, hf, hb⟩ := exists_of_bind_eq_ok hb
  obtain ⟨a, ha, hb⟩ := exists_of_bind_eq_ok hb
  cases hb
  exact hs o f hf a (ht o a ha)

theorem seq_any {s : Shape (α → β)} {t : Shape α} {P : β → Prop}
    (hs : s.Gives fun f => ∀ a, P (f a)) : (s <*> t).Gives P :=
  .seq (fun _ => True) (fun o f hf a _ => hs o f hf a) fun _ _ _ => trivial

theorem of_decode {s : Shape α} {P : α → Prop} {name : String} {v : Value} {a : α}
    (hs : s.Gives P) (h : s.decode name v = .ok a) : P a := by
  unfold Shape.decode at h
  split at h
  · obtain ⟨_, _, h⟩ := exists_of_bind_eq_ok h
    exact hs _ a h
  · obtain ⟨o, _, h⟩ := exists_of_bind_eq_ok h
    split at h
    · cases h
    · exact hs o a h
  · cases h

theorem defaulted {name : String} {d : Decoder α} {default : α} {P : α → Prop}
    (hd : ∀ v a, d v = .ok a → P a) (hdefault : P default) :
    (Shape.defaulted name d default).Gives P := by
  intro o a h
  unfold Shape.defaulted at h
  dsimp only at h
  split at h
  · exact hd _ a h
  · exact Except.ok.inj h ▸ hdefault

end Gives

end Shape

namespace Decode

theorem option_any_ne_null {v : Value} {a : Option Value} (h : option any v = .ok a) :
    a ≠ some .null := by
  unfold option at h
  split at h
  · cases h
    exact nofun
  · next hv =>
    cases h
    exact fun heq => hv (Option.some.inj heq)

theorem option_of_ok {d : Decoder α} {v : Value} {a : α} (hv : v ≠ .null) (h : d v = .ok a) :
    option d v = .ok (some a) := by
  rw [option, h]
  · rfl
  · exact hv

theorem option_ofOption {d : Decoder α} {f : α → Value} {a : Option α}
    (h : ∀ b ∈ a, f b ≠ .null ∧ d (f b) = .ok b) : option d (.ofOption f a) = .ok a := by
  cases a with
  | none => rfl
  | some b => exact option_of_ok (h b rfl).1 (h b rfl).2

theorem list_map {d : Decoder α} {f : α → Value} {as : List α}
    (h : ∀ a ∈ as, d (f a) = .ok a) : list d (.list (as.map f)) = .ok as := by
  change items d (as.map f) = _
  induction as with
  | nil => rfl
  | cons a rest ih =>
    obtain ⟨ha, hrest⟩ := List.forall_mem_cons.mp h
    rw [List.map_cons, items, ha, ih hrest]
    rfl

end Decode

end Custody.Json
