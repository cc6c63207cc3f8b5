import Custody.Proofs.Run

/-!
A step on a store and its image on the image of that store. `Follows` says that what the second step
comes to, from any world, is the image of what the first comes to, errors being their own images;
there is a rule for every way of building steps.
-/
namespace Custody

variable {σ τ α β γ δ : Type}

def World.through (view : σ → τ) (w : World σ) : World τ := ⟨view w.store, w.supply⟩

namespace Run

def Follows (view : σ → τ) (φ : α → β) (f : Run σ α) (g : Run τ β) : Prop :=
  ∀ w, g (w.through view) = ((f w).1.map φ, (f w).2.through view)

namespace Follows

variable {view : σ → τ} {φ : α → β} {ψ : γ → δ} {f : Run σ α} {g : Run τ β}

theorem bind {k : α → Run σ γ} {l : β → Run τ δ} (h : Follows view φ f g)
    (hk : ∀ a, Follows view ψ (k a) (l (φ a))) : Follows view ψ (f >>= k) (g >>= l) := by
  intro w
  rw [bind_apply, bind_apply, h w]
  match f w with
  | (.ok a, w') => exact hk a w'
  | (.error e, w') => rfl

theorem bind_eq {f : Run σ α} {g : Run τ α} {k : α → Run σ γ} {l : α → Run τ δ}
    (h : Follows view id f g) (hk : ∀ a, Follows view ψ (k a) (l a)) :
    Follows view ψ (f >>= k) (g >>= l) := bind h hk

theorem pure {a : α} {b : β} (h : b = φ a) : Follows view φ (pure a) (pure b) := by
  subst h
  exact fun _ => rfl

theorem throw (e : Error) : Follows view φ (throw e) (throw e) := fun _ => rfl

theorem of {r : Except Error α} {r' : Except Error β} (h : r' = r.map φ) :
    Follows view φ (Run.of r) (Run.of r') := fun _ => congrArg (·, _) h

theorem of_eq {r r' : Except Error α} (h : r' = r) : Follows view id (Run.of r) (Run.of r') :=
  of (h.trans (id_map r).symm)

theorem ask {f : σ → α} {g : τ → β} (h : ∀ s, g (view s) = φ (f s)) :
    Follows view φ (Run.ask f) (Run.ask g) := fun w => congrArg (Except.ok ·, _) (h w.store)

theorem ask_eq {f : σ → α} {g : τ → α} (h : ∀ s, g (view s) = f s) :
    Follows view id (Run.ask f) (Run.ask g) := ask h

theorem write {f : σ → Except Error α × σ} {g : τ → Except Error α × τ}
    (h : ∀ s, g (view s) = (f s).map id view) : Follows view id (Run.write f) (Run.write g) := by
  intro w
  have hstore : (w.through view).store = view w.store := rfl
  rw [Run.write, Run.write, hstore, h w.store]
  exact congrArg (·, _) (id_map _).symm

theorem draw : Follows view id Run.draw Run.draw := fun _ => rfl

theorem require (what : Missing) (o : Option α) :
    Follows view φ (Run.require what o) (Run.require what (o.map φ)) := by
  cases o with
  | some a => exact pure rfl
  | none => exact throw _

theorem find {look : σ → Option α} {look' : τ → Option β} {what : Missing} {k : α → Run σ γ}
    {l : β → Run τ δ} (h : ∀ s, look' (view s) = (look s).map φ)
    (hk : ∀ a, Follows view ψ (k a) (l (φ a))) :
    Follows view ψ (Run.ask look >>= fun o => Run.require what o >>= k)
      (Run.ask look' >>= fun o => Run.require what o >>= l) :=
  bind (ask h) fun o => bind (require what o) hk

theorem find_eq {look : σ → Option α} {look' : τ → Option α} {what : Missing} {k : α → Run σ γ}
    {l : α → Run τ δ} (h : ∀ s, look' (view s) = look s) (hk : ∀ a, Follows view ψ (k a) (l a)) :
    Follows view ψ (Run.ask look >>= fun o => Run.require what o >>= k)
      (Run.ask look' >>= fun o => Run.require what o >>= l) :=
  find (φ := id) (fun s => (h s).trans (id_map _).symm) hk

theorem refusing {c : Prop} [Decidable c] {e : Error} {k : PUnit → Run σ α} {l : PUnit → Run τ β}
    (h : Follows view φ (k ()) (l ())) :
    Follows view φ (if c then MonadExcept.throw e >>= k else k ())
      (if c then MonadExcept.throw e >>= l else l ()) := by
  split
  · exact bind (φ := id) (throw e) fun _ => h
  · exact h

theorem ite {c c' : Prop} [Decidable c] [Decidable c'] (hc : c' ↔ c) {f' : Run σ α}
    {g' : Run τ β} (h : Follows view φ f g) (h' : Follows view φ f' g') :
    Follows view φ (if c then f else f') (if c' then g else g') := by
  by_cases hfirst : c
  · rw [if_pos hfirst, if_pos (hc.mpr hfirst)]
    exact h
  · rw [if_neg hfirst, if_neg (mt hc.mp hfirst)]
    exact h'

theorem caught (h : Follows view φ f g) :
    Follows view (Except.map φ) (Run.caught f) (Run.caught g) := by
  intro w
  unfold Run.caught
  rw [h w]
  rfl

theorem rewording (reword : Error → Error) (h : Follows view φ f g) :
    Follows view φ (Run.rewording reword f) (Run.rewording reword g) := by
  intro w
  unfold Run.rewording
  rw [h w]
  match f w with
  | (.ok a, w') => rfl
  | (.error e, w') => rfl

theorem transaction [Store σ] [Store τ]
    (henter : ∀ s : σ, Store.enter (view s) = view (Store.enter s))
    (hcommit : ∀ s : σ, Store.commit (view s) = view (Store.commit s))
    (hrevert : ∀ entry s : σ, Store.revert (view entry) (view s) = view (Store.revert entry s))
    (h : Follows view φ f g) : Follows view φ (Run.transaction f) (Run.transaction g) := by
  intro w
  have hin := h { w with store := Store.enter w.store }
  unfold Run.transaction
  dsimp only [World.through] at hin ⊢
  rw [henter, hin]
  match f { w with store := Store.enter w.store } with
  | (.ok a, w') => simp [Except.map, hcommit]
  | (.error e, w') => simp [Except.map, hrevert]

theorem mapM {ι κ : Type} {ω : ι → κ} {f : ι → Run σ α} {g : κ → Run τ β}
    (h : ∀ i, Follows view φ (f i) (g (ω i))) (is : List ι) :
    Follows view (List.map φ) (is.mapM f) ((is.map ω).mapM g) := by
  induction is with
  | nil => exact pure rfl
  | cons i rest ih =>
    rw [List.map_cons, List.mapM_cons, List.mapM_cons]
    exact bind (h i) fun a => bind ih fun as => pure rfl

theorem mapM_eq {ι : Type} {f : ι → Run σ α} {g : ι → Run τ α}
    (h : ∀ i, Follows view id (f i) (g i)) (is : List ι) :
    Follows view id (is.mapM f) (is.mapM g) := by
  have hmap := mapM (ω := id) h is
  rwa [List.map_id, funext List.map_id] at hmap

end Follows

end Run

end Custody
