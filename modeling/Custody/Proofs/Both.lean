import Custody.Proofs.Run

/-!
Two runs side by side. `Both` says that two steps, each from a world of its own, come both to a
value or both to an error, with a rule for every way of building them alike.
-/
namespace Custody.Run

variable {σ τ α β γ δ : Type}

/-- Both steps come to values and worlds with the first property, or both to errors and worlds with
the second. -/
inductive Both (f : Run σ α) (g : Run τ β) (w : World σ) (v : World τ)
    (value : α → β → World σ → World τ → Prop)
    (error : Error → Error → World σ → World τ → Prop) : Prop
  | ok {a : α} {b : β} {w' : World σ} {v' : World τ} :
    f w = (.ok a, w') → g v = (.ok b, v') → value a b w' v' → Both f g w v value error
  | error {e e' : Error} {w' : World σ} {v' : World τ} :
    f w = (.error e, w') → g v = (.error e', v') → error e e' w' v' → Both f g w v value error

section Both

variable {w : World σ} {v : World τ} {value value' : α → β → World σ → World τ → Prop}
  {error error' : Error → Error → World σ → World τ → Prop}

theorem Both.mono {f : Run σ α} {g : Run τ β} (h : Both f g w v value error)
    (hv : ∀ a b w' v', value a b w' v' → value' a b w' v')
    (he : ∀ e e' w' v', error e e' w' v' → error' e e' w' v') :
    Both f g w v value' error' := by
  cases h with
  | ok hf hg h => exact .ok hf hg (hv _ _ _ _ h)
  | error hf hg h => exact .error hf hg (he _ _ _ _ h)

theorem Both.bind {f : Run σ α} {g : Run τ β} {k : α → Run σ γ} {l : β → Run τ δ}
    {value : γ → δ → World σ → World τ → Prop}
    (h : Both f g w v (fun a b w' v' => Both (k a) (l b) w' v' value error) error) :
    Both (f >>= k) (g >>= l) w v value error := by
  cases h with
  | ok hf hg h =>
    cases h with
    | ok hk hl h => exact .ok ((bind_of_ok hf k).trans hk) ((bind_of_ok hg l).trans hl) h
    | error hk hl h => exact .error ((bind_of_ok hf k).trans hk) ((bind_of_ok hg l).trans hl) h
  | error hf hg h => exact .error (bind_of_error hf k) (bind_of_error hg l) h

theorem Both.pure {a : α} {b : β} (h : value a b w v) :
    Both (pure a : Run σ α) (pure b : Run τ β) w v value error := .ok rfl rfl h

theorem Both.throw {e e' : Error} (h : error e e' w v) :
    Both (throw e : Run σ α) (throw e' : Run τ β) w v value error := .error rfl rfl h

theorem Both.of {r : Except Error α} {value : α → α → World σ → World τ → Prop}
    (hv : ∀ a, r = .ok a → value a a w v) (he : ∀ e, error e e w v) :
    Both (Run.of r) (Run.of r) w v value error := by
  cases r with
  | ok a => exact .ok rfl rfl (hv a rfl)
  | error e => exact .error rfl rfl (he e)

theorem Both.ask {f : σ → α} {g : τ → β} (h : value (f w.store) (g v.store) w v) :
    Both (Run.ask f) (Run.ask g) w v value error := .ok rfl rfl h

theorem Both.require {what : Missing} {o : Option α} {value : α → α → World σ → World τ → Prop}
    (hv : ∀ a, o = some a → value a a w v) (he : ∀ e, error e e w v) :
    Both (Run.require what o) (Run.require what o) w v value error := by
  cases o with
  | some a => exact .pure (hv a rfl)
  | none => exact .throw (he _)

theorem Both.refusing {c : Prop} [Decidable c] {e : Error} {k : PUnit → Run σ α}
    {l : PUnit → Run τ β} (he : ∀ e, error e e w v)
    (h : ¬ c → Both (k ()) (l ()) w v value error) :
    Both (if c then MonadExcept.throw e >>= k else k ())
      (if c then MonadExcept.throw e >>= l else l ()) w v value error := by
  split
  · exact .bind (.throw (he e))
  · next hc => exact h hc

theorem Both.draw {value : Draw → Draw → World σ → World τ → Prop}
    (h : value (w.supply.draws w.supply.used) (v.supply.draws v.supply.used)
      { w with supply := { w.supply with used := w.supply.used + 1 } }
      { v with supply := { v.supply with used := v.supply.used + 1 } }) :
    Both Run.draw Run.draw w v value error := .ok rfl rfl h

theorem Both.caught {f : Run σ α} {g : Run τ β}
    {value : Except Error α → Except Error β → World σ → World τ → Prop}
    (h : Both f g w v (fun a b => value (.ok a) (.ok b)) fun e e' => value (.error e) (.error e')) :
    Both (Run.caught f) (Run.caught g) w v value error := by
  cases h with
  | ok hf hg h => exact .ok (by rw [Run.caught, hf]) (by rw [Run.caught, hg]) h
  | error hf hg h => exact .ok (by rw [Run.caught, hf]) (by rw [Run.caught, hg]) h

theorem Both.rewording {f : Run σ α} {g : Run τ β} {r : Error → Error}
    (h : Both f g w v value fun e e' => error (r e) (r e')) :
    Both (Run.rewording r f) (Run.rewording r g) w v value error := by
  cases h with
  | ok hf hg h => exact .ok (by rw [Run.rewording, hf]; rfl) (by rw [Run.rewording, hg]; rfl) h
  | error hf hg h =>
    exact .error (by rw [Run.rewording, hf]; rfl) (by rw [Run.rewording, hg]; rfl) h

theorem Both.transaction [Store σ] [Store τ] {f : Run σ α} {g : Run τ β}
    (h : Both f g { w with store := Store.enter w.store } { v with store := Store.enter v.store }
      (fun a b w' v' => value a b { w' with store := Store.commit w'.store }
        { v' with store := Store.commit v'.store })
      fun e e' w' v' => error e e' { w' with store := Store.revert w.store w'.store }
        { v' with store := Store.revert v.store v'.store }) :
    Both (Run.transaction f) (Run.transaction g) w v value error := by
  cases h with
  | ok hf hg h => exact .ok (by rw [Run.transaction, hf]) (by rw [Run.transaction, hg]) h
  | error hf hg h => exact .error (by rw [Run.transaction, hf]) (by rw [Run.transaction, hg]) h

theorem Both.find {f : σ → Option γ} {g : τ → Option γ} {what : Missing} {k : γ → Run σ α}
    {l : γ → Run τ β} (h : f w.store = g v.store)
    (hk : ∀ a, g v.store = some a → Both (k a) (l a) w v value error) (he : ∀ e, error e e w v) :
    Both (Run.ask f >>= fun o => Run.require what o >>= k)
      (Run.ask g >>= fun o => Run.require what o >>= l) w v value error := by
  refine .bind (.ask ?_)
  rw [h]
  exact .bind (.require hk he)

end Both

end Custody.Run
