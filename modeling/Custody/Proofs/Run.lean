import Custody.Store

/-!
Reasoning about steps. `Ends` says what a step reaches from one world, separately for its value and
its error. `Within` lifts a relation between the worlds before and behind the primitive steps to all
steps built from them.
-/
namespace Custody.Run

variable {σ α β : Type}

theorem bind_apply (f : Run σ α) (g : α → Run σ β) (w : World σ) :
    (f >>= g) w = match f w with
      | (.ok a, w') => g a w'
      | (.error e, w') => (.error e, w') := by
  change ExceptT.bindCont g (f w).1 (f w).2 = _
  cases f w with
  | mk r w' => cases r <;> rfl

theorem bind_of_ok {f : Run σ α} {w w' : World σ} {a : α} (h : f w = (.ok a, w'))
    (g : α → Run σ β) : (f >>= g) w = g a w' := by
  rw [bind_apply, h]

theorem bind_of_error {f : Run σ α} {w w' : World σ} {e : Error} (h : f w = (.error e, w'))
    (g : α → Run σ β) : (f >>= g) w = (.error e, w') := by
  rw [bind_apply, h]

theorem exists_of_isOk {f : Run σ α} {w : World σ} (h : (f w).1.isOk = true) :
    ∃ a w', f w = (.ok a, w') := by
  match hrun : f w with
  | (.ok a, w') => exact ⟨a, w', rfl⟩
  | (.error e, w') =>
    rw [hrun] at h
    cases h

theorem exists_of_toOption {f : Run σ α} {w : World σ} {a : α}
    (h : (f w).1.toOption = some a) : ∃ w', f w = (.ok a, w') := by
  match hrun : f w with
  | (.ok b, w') =>
    rw [hrun] at h
    cases h
    exact ⟨w', rfl⟩
  | (.error e, w') =>
    rw [hrun] at h
    cases h

theorem ask_bind (f : σ → α) (g : α → Run σ β) (w : World σ) :
    (Run.ask f >>= g) w = g (f w.store) w := rfl

theorem write_of_eq {f : σ → Except Error α × σ} {w : World σ} {r : Except Error α} {s : σ}
    (h : f w.store = (r, s)) : Run.write f w = (r, { w with store := s }) := by
  rw [Run.write, h]

/-- From this world the step comes to a value and a world with the first property, or to an error
and a world with the second. -/
@[irreducible] def Ends (f : Run σ α) (w : World σ) (value : α → World σ → Prop)
    (error : Error → World σ → Prop) : Prop :=
  match f w with
  | (.ok a, w') => value a w'
  | (.error e, w') => error e w'

/-- If the step comes to a value, it comes to one as described. -/
abbrev Returns (f : Run σ α) (w : World σ) (value : α → World σ → Prop) : Prop :=
  Ends f w value fun _ _ => True

section Ends

variable {w : World σ} {value value' : α → World σ → Prop} {error error' : Error → World σ → Prop}

theorem Ends.ok {f : Run σ α} {a : α} {w' : World σ} (hf : f w = (.ok a, w')) (h : value a w') :
    Ends f w value error := by
  rwa [Ends, hf]

theorem Ends.failed {f : Run σ α} {e : Error} {w' : World σ} (hf : f w = (.error e, w'))
    (h : error e w') : Ends f w value error := by
  rwa [Ends, hf]

theorem Ends.mono {f : Run σ α} (h : Ends f w value error)
    (hv : ∀ a w', value a w' → value' a w') (he : ∀ e w', error e w' → error' e w') :
    Ends f w value' error' := by
  unfold Ends at h ⊢
  split at h
  · exact hv _ _ h
  · exact he _ _ h

theorem Ends.of_error {f : Run σ α} {e : Error} {w' : World σ} (h : Ends f w value error)
    (hf : f w = (.error e, w')) : error e w' := by
  rwa [Ends, hf] at h

theorem Ends.of_value {f : Run σ α} {a : α} {w' : World σ} (h : Ends f w value error)
    (hf : f w = (.ok a, w')) : value a w' := by
  rwa [Ends, hf] at h

theorem Ends.total {f : Run σ α} {P : Except Error α → World σ → Prop}
    (h : Ends f w (fun a => P (.ok a)) fun e => P (.error e)) : P (f w).1 (f w).2 := by
  unfold Ends at h
  split at h <;> next heq => rwa [heq]

theorem Ends.reached {f : Run σ α} {P : World σ → Prop} (h : Ends f w (fun _ => P) fun _ => P) :
    P (f w).2 := h.total (P := fun _ => P)

theorem Ends.exists_value {f : Run σ α} (h : Ends f w value fun _ _ => False) :
    ∃ a w', f w = (.ok a, w') ∧ value a w' := by
  cases hf : f w with
  | mk r w' =>
    cases r with
    | ok a => exact ⟨a, w', rfl, h.of_value hf⟩
    | error e => exact (h.of_error hf).elim

theorem Ends.of_returns {f : Run σ α} (hv : Returns f w value)
    (he : Ends f w (fun _ _ => True) error) : Ends f w value error := by
  unfold Returns at hv
  unfold Ends at hv he ⊢
  split
  · next heq => rwa [heq] at hv
  · next heq => rwa [heq] at he

theorem Ends.and {f : Run σ α} (h : Ends f w value error) (h' : Ends f w value' error') :
    Ends f w (fun a w' => value a w' ∧ value' a w') fun e w' => error e w' ∧ error' e w' := by
  unfold Ends at h h' ⊢
  split
  · next heq => rw [heq] at h h'; exact ⟨h, h'⟩
  · next heq => rw [heq] at h h'; exact ⟨h, h'⟩

theorem Ends.bind {f : Run σ α} {g : α → Run σ β} {value : β → World σ → Prop}
    (h : Ends f w (fun a w' => Ends (g a) w' value error) error) :
    Ends (f >>= g) w value error := by
  unfold Ends at h ⊢
  rw [bind_apply]
  split at h
  · exact h
  · exact h

theorem Ends.pure {a : α} (h : value a w) : Ends (pure a : Run σ α) w value error := .ok rfl h

theorem Ends.throw {e : Error} (h : error e w) : Ends (throw e : Run σ α) w value error :=
  .failed rfl h

theorem Ends.ask {f : σ → α} (h : value (f w.store) w) : Ends (Run.ask f) w value error :=
  .ok rfl h

theorem Ends.draw {value : Draw → World σ → Prop}
    (h : value (w.supply.draws w.supply.used)
      { w with supply := { w.supply with used := w.supply.used + 1 } }) :
    Ends Run.draw w value error := .ok rfl h

theorem Ends.drawing {k : Draw → Run σ α}
    (h : ∀ d w', w'.store = w.store → Ends (k d) w' value error) :
    Ends (Run.draw >>= k) w value error := .bind (.draw (h _ _ rfl))

theorem Ends.of {r : Except Error α} (hv : ∀ a, r = .ok a → value a w)
    (he : ∀ e, r = .error e → error e w) : Ends (Run.of r) w value error := by
  cases r with
  | ok a => exact .ok rfl (hv a rfl)
  | error e => exact .failed rfl (he e rfl)

theorem Ends.write {f : σ → Except Error α × σ}
    (hv : ∀ a s, f w.store = (.ok a, s) → value a { w with store := s })
    (he : ∀ e s, f w.store = (.error e, s) → error e { w with store := s }) :
    Ends (Run.write f) w value error := by
  cases h : f w.store with
  | mk r s =>
    cases r with
    | ok a => exact .ok (write_of_eq h) (hv a s h)
    | error e => exact .failed (write_of_eq h) (he e s h)

theorem Ends.rewording {f : Run σ α} {g : Error → Error}
    (h : Ends f w value (fun e => error (g e))) : Ends (Run.rewording g f) w value error := by
  unfold Ends at h ⊢
  unfold Run.rewording
  revert h
  cases f w with
  | mk r w' => cases r <;> exact id

theorem Ends.caught {f : Run σ α} {value : Except Error α → World σ → Prop}
    (h : Ends f w (fun a => value (.ok a)) fun e => value (.error e)) :
    Ends (Run.caught f) w value error := by
  unfold Ends at h ⊢
  unfold Run.caught
  revert h
  cases f w with
  | mk r w' => cases r <;> exact id

theorem Ends.refusing {c : Prop} [Decidable c] {e : Error} {rest : PUnit → Run σ α}
    (he : error e w) (h : ¬ c → Ends (rest ()) w value error) :
    Ends (if c then MonadExcept.throw e >>= rest else rest ()) w value error := by
  split
  · exact .bind (.throw he)
  · next hc => exact h hc

theorem Ends.find {look : σ → Option β} {what : Missing} {k : β → Run σ α}
    (he : error (.notFound what) w)
    (h : ∀ b, look w.store = some b → Ends (k b) w value error) :
    Ends (Run.ask look >>= fun o => Run.require what o >>= k) w value error := by
  refine .bind (.ask (.bind ?_))
  cases hlook : look w.store with
  | some b => exact .pure (h b hlook)
  | none => exact .throw he

theorem Ends.transaction [Store σ] {f : Run σ α}
    (h : Ends f { w with store := Store.enter w.store }
      (fun a w' => value a { w' with store := Store.commit w'.store })
      fun e w' => error e { w' with store := Store.revert w.store w'.store }) :
    Ends (Run.transaction f) w value error := by
  unfold Ends at h ⊢
  unfold Run.transaction
  cases hf : f { w with store := Store.enter w.store } with
  | mk r w' =>
    rw [hf] at h
    cases r <;> exact h

end Ends

section Returns

variable {w : World σ} {value : α → World σ → Prop}

theorem Ends.returns {f : Run σ α} {error : Error → World σ → Prop} (h : Ends f w value error) :
    Returns f w value := h.mono (fun _ _ h => h) fun _ _ _ => trivial

theorem Returns.mono {f : Run σ α} {value' : α → World σ → Prop} (h : Returns f w value)
    (hv : ∀ a w', value a w' → value' a w') : Returns f w value' := Ends.mono h hv fun _ _ h => h

theorem Returns.bind {f : Run σ α} {g : α → Run σ β} {value : β → World σ → Prop}
    (h : Returns f w fun a w' => Returns (g a) w' value) : Returns (f >>= g) w value := Ends.bind h

theorem Returns.followed {f : Run σ α} {g : α → Run σ β} {value' : β → World σ → Prop}
    (h : Returns f w value) (hg : ∀ a w', value a w' → Returns (g a) w' value') :
    Returns (f >>= g) w value' := .bind (h.mono hg)

theorem Returns.of {r : Except Error α} (h : ∀ a, r = .ok a → value a w) :
    Returns (Run.of r) w value := Ends.of h fun _ _ => trivial

theorem Returns.throw {e : Error} : Returns (throw e : Run σ α) w value := Ends.throw trivial

theorem Returns.write {f : σ → Except Error α × σ}
    (h : ∀ a s, f w.store = (.ok a, s) → value a { w with store := s }) :
    Returns (Run.write f) w value := Ends.write h fun _ _ _ => trivial

theorem Returns.rewording {f : Run σ α} {g : Error → Error} (h : Returns f w value) :
    Returns (Run.rewording g f) w value := Ends.rewording h

theorem Returns.refusing {c : Prop} [Decidable c] {e : Error} {rest : PUnit → Run σ α}
    (h : Returns (rest ()) w value) :
    Returns (if c then MonadExcept.throw e >>= rest else rest ()) w value :=
  Ends.refusing trivial fun _ => h

theorem Returns.find {look : σ → Option β} {what : Missing} {k : β → Run σ α}
    (h : ∀ b, look w.store = some b → Returns (k b) w value) :
    Returns (Run.ask look >>= fun o => Run.require what o >>= k) w value := Ends.find trivial h

theorem Returns.drawing {k : Draw → Run σ α}
    (h : ∀ d w', w'.store = w.store → Returns (k d) w' value) :
    Returns (Run.draw >>= k) w value := Ends.drawing h

end Returns

/-- Every run of the step relates the worlds before and behind it. -/
def Within (T : World σ → World σ → Prop) (f : Run σ α) : Prop := ∀ w, T w (f w).2

theorem Within.ends {T : World σ → World σ → Prop} {f : Run σ α} (h : Within T f) (w : World σ) :
    Ends f w (fun _ w' => T w w') fun _ w' => T w w' := by
  have hw := h w
  cases hf : f w with
  | mk r w' =>
    rw [hf] at hw
    cases r with
    | ok a => exact .ok hf hw
    | error e => exact .failed hf hw

structure Preorder (T : World σ → World σ → Prop) : Prop where
  refl : ∀ w, T w w
  trans : ∀ {a b c}, T a b → T b c → T a c

section Within

variable {T : World σ → World σ → Prop}

theorem Within.bind (hT : Preorder T) {f : Run σ α} {g : α → Run σ β} (hf : Within T f)
    (hg : ∀ a, Within T (g a)) : Within T (f >>= g) := by
  intro w
  have h := hf w
  rw [bind_apply]
  split
  · next a w' hw =>
    rw [hw] at h
    exact hT.trans h (hg a w')
  · next e w' hw =>
    rw [hw] at h
    exact h

theorem Within.pure (hT : Preorder T) (a : α) : Within T (pure a : Run σ α) := hT.refl

theorem Within.throw (hT : Preorder T) (e : Error) : Within T (throw e : Run σ α) := hT.refl

theorem Within.of (hT : Preorder T) (r : Except Error α) : Within T (Run.of r : Run σ α) := hT.refl

theorem Within.of_bind (hT : Preorder T) {r : Except Error α} {g : α → Run σ β}
    (hg : ∀ a, r = .ok a → Within T (g a)) : Within T (Run.of r >>= g) := by
  cases r with
  | ok a => exact hg a rfl
  | error e => exact hT.refl

theorem Within.ask (hT : Preorder T) (f : σ → α) : Within T (Run.ask f) := hT.refl

theorem Within.require (hT : Preorder T) (what : Missing) (o : Option α) :
    Within T (Run.require what o : Run σ α) := by
  cases o with
  | some a => exact Within.pure hT a
  | none => exact Within.throw hT _

theorem Within.refusing (hT : Preorder T) {c : Prop} [Decidable c] {e : Error}
    {rest : PUnit → Run σ α} (h : Within T (rest ())) :
    Within T (if c then MonadExcept.throw e >>= rest else rest ()) := by
  split
  · exact .bind hT (.throw hT e) fun _ => h
  · exact h

theorem Within.caught {f : Run σ α} (hf : Within T f) : Within T (Run.caught f) := hf

theorem Within.rewording {f : Run σ α} (g : Error → Error) (hf : Within T f) :
    Within T (Run.rewording g f) := hf

theorem Within.mapM_of_mem (hT : Preorder T) {f : β → Run σ α} {bs : List β}
    (hf : ∀ b ∈ bs, Within T (f b)) : Within T (bs.mapM f) := by
  induction bs with
  | nil => exact Within.pure hT []
  | cons b rest ih =>
    obtain ⟨hb, hrest⟩ := List.forall_mem_cons.mp hf
    rw [List.mapM_cons]
    exact Within.bind hT hb fun a => Within.bind hT (ih hrest) fun as => Within.pure hT _

theorem Within.mapM (hT : Preorder T) {f : β → Run σ α} (hf : ∀ b, Within T (f b)) (bs : List β) :
    Within T (bs.mapM f) := mapM_of_mem hT fun b _ => hf b

end Within

end Custody.Run
