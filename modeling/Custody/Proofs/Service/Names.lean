import Custody.Proofs.Service.Pushes
import Custody.Proofs.Store.Reconcile

/-!
What an account is called once it has been created again without a name. The name is chosen before
the account of the slot is known, and for this choice a name that the account itself has is taken.
-/
namespace Custody

open Run Store

namespace Naming

variable {σ : Type} [Store σ] {good : σ → Prop} {dated : Time.Instant → Time.Instant} {s : σ}
  {explicit : Option String} {fallback asset token : String}

theorem choose_of_taken (hd : Decided good dated) (hs : good s)
    (hunset : explicit.filter (· ≠ "") = none) (h : NameTaken s asset fallback) :
    choose explicit fallback asset none token s = fallback ++ "_" ++ token := by
  obtain ⟨b, hb⟩ := h
  rw [choose, hunset, (hd.name hs).mpr hb, suffixed_eq]
  rfl

theorem choose_of_free (hd : Decided good dated) (hs : good s)
    (hunset : explicit.filter (· ≠ "") = none) (h : ¬ NameTaken s asset fallback) :
    choose explicit fallback asset none token s = fallback := by
  have hnone : accountByName? s asset fallback = none :=
    Option.eq_none_iff_forall_ne_some.mpr fun b hb => h ⟨b, (hd.name hs).mp hb⟩
  rw [choose, hunset, hnone]
  rfl

end Naming

namespace Service

def Unset (payload : Json.Object) (key : String) : Prop :=
  payload.get? key = none ∨ payload.get? key = some .null ∨ payload.get? key = some (.text "")

theorem Unset.text? {payload : Json.Object} {key : String} (h : Unset payload key) :
    (text? payload key).filter (· ≠ "") = none := by
  unfold Service.text?
  rcases h with h | h | h <;> rw [h] <;> rfl

theorem not_unset {payload : Json.Object} {key s : String}
    (h : payload.get? key = some (.text s)) (hs : s ≠ "") : ¬ Unset payload key := by
  simp [Unset, h, hs]

theorem template_of_take {payload rest : Json.Object} {controls : Controls}
    (h : Controls.take payload = .ok (controls, rest)) :
    Unset payload "template" ∧ controls.template = none ∨
      ∃ id, payload.get? "template" = some (.text id) ∧ id ≠ "" ∧ controls.template = some id := by
  obtain ⟨template, htemplate, h⟩ := exists_of_bind_eq_ok h
  obtain ⟨policy, _, h⟩ := exists_of_bind_eq_ok h
  obtain ⟨pushNow, _, h⟩ := exists_of_bind_eq_ok h
  obtain ⟨params, _, h⟩ := exists_of_bind_eq_ok h
  cases h
  rcases control_eq_ok htemplate with ⟨v, hv, hparse⟩ | ⟨hnone | hnull, rfl⟩
  · cases v with
    | text id =>
      cases hparse
      split
      · next hempty => exact .inl ⟨.inr (.inr (hempty ▸ hv)), rfl⟩
      · next hid => exact .inr ⟨id, hv, hid, rfl⟩
    | _ => cases hparse
  · exact .inl ⟨.inl hnone, rfl⟩
  · exact .inl ⟨.inr (.inl hnull), rfl⟩

theorem template_eq_none_of_take {payload rest : Json.Object} {controls : Controls}
    (h : Controls.take payload = .ok (controls, rest)) (hunset : Unset payload "template") :
    controls.template = none := by
  rcases template_of_take h with ⟨-, hnone⟩ | ⟨id, hid, hne, -⟩
  · exact hnone
  · exact absurd hunset (not_unset hid hne)

structure HoldsSlot (payload : Json.Object) (e : Account) : Prop where
  asset : text? payload "asset" = some e.assetId
  username : text? payload "username" = some e.username
  secretType : (secretType? payload).map (·.getD .password) = .ok e.secretType

/-- A payload for the slot of this account that gives no name, under a policy that has what is
there updated. -/
structure Renews (payload : Json.Object) (policy : Policy) (e : Account) : Prop where
  name : Unset payload "name"
  template : Unset payload "template"
  asset : text? payload "asset" = some e.assetId
  username : text? payload "username" = some e.username
  secretType : (secretType? payload).map (·.getD .password) = .ok e.secretType
  policy : (Controls.take payload).map (·.1.policy.getD policy) = .ok .update

/-- The account was updated and has come by its username as a name, or by that with the token if
some account had it already. -/
structure Renewed {σ : Type} [Store σ] (s : σ) (e : Account) (token : String)
    (r : Account × Outcome) (s' : σ) : Prop where
  updated : r.2 = .updated ∧ r.1.id = e.id
  stored : ∃ e', account? s' e.id = some e' ∧ e'.name = r.1.name
  taken : NameTaken s e.assetId e.username → r.1.name = e.username ++ "_" ++ token
  free : ¬ NameTaken s e.assetId e.username → r.1.name = e.username
  others : ∀ id, id ≠ e.id → account? s' id = account? s id

variable {σ : Type} [Store σ] {good : σ → Prop} {dated : Time.Instant → Time.Instant}
  {queue : σ → List Push} {kept : Push → Push} {s : σ} {e : Account}

theorem Describes.fills_iff {payload values : Json.Object} {token : String} {c : Candidate}
    (hc : Describes values s token c)
    (htext : ∀ key ∉ controlNames, text? values key = text? payload key) :
    c.Fills e ↔ HoldsSlot payload e := by
  have hasset := (htext "asset" (by decide)).symm.trans hc.asset
  have husername := (htext "username" (by decide)).symm.trans hc.username
  have htype : (secretType? payload).map (·.getD .password) = .ok c.secretType := by
    rw [← hc.secretType, secretType?, secretType?, htext "secret_type" (by decide)]
  constructor
  · intro h
    obtain ⟨h₁, h₂, h₃⟩ := Account.hasSlot_iff.mp h
    exact ⟨h₁ ▸ hasset, h₂ ▸ husername, h₃ ▸ htype⟩
  · rintro ⟨h₁, h₂, h₃⟩
    exact Account.hasSlot_iff.mpr ⟨Option.some.inj (h₁.symm.trans hasset),
      Option.some.inj (h₂.symm.trans husername), Except.ok.inj (h₃.symm.trans htype)⟩

theorem createAccount_unnamed {w : World σ} {payload : Json.Object} {policy : Policy}
    {value : Account × Outcome → World σ → Prop} (hname : Unset payload "name")
    (htemplate : Unset payload "template")
    (hstore : ∀ controls rest values c w', Controls.take payload = .ok (controls, rest) →
      (∀ key ∉ controlNames, text? values key = text? payload key) →
      (text? values "name").filter (· ≠ "") = none →
      Describes values w'.store (w.supply.draws w.supply.used).token c → w'.store = w.store →
      Returns (storeCandidate controls c (w.supply.draws w.supply.used) policy) w' value) :
    Returns (createAccount payload policy) w value := by
  refine createAccount_describes fun controls rest values c w' htake hvalues hc hsame => ?_
  rw [← hsame] at hc
  have htext (key : String) (hkey : key ∉ controlNames) : text? values key = text? payload key :=
    hvalues key hkey (.inl (template_eq_none_of_take htake htemplate))
  have hunset : (text? values "name").filter (· ≠ "") = none := by
    rw [htext "name" (by decide)]
    exact hname.text?
  exact hstore controls rest values c w' htake htext hunset hc hsame

/-- The account is called already as a creation with this token would call it. -/
def Anticipated (s : σ) (e : Account) (token : String) : Prop :=
  NameTaken s e.assetId e.username ∧ e.name = e.username ++ "_" ++ token

theorem Renewed.kept_iff {token : String} {r : Account × Outcome} {s' : σ}
    (h : Renewed s e token r s') (he : Stored s e) :
    r.1.name = e.name ↔ Anticipated s e token := by
  by_cases htaken : NameTaken s e.assetId e.username
  · rw [h.taken htaken, eq_comm]
    exact (and_iff_right htaken).symm
  · rw [h.free htaken]
    refine iff_of_false (fun hname => htaken ⟨e, he, ?_⟩) fun h => htaken h.1
    exact Account.hasName_iff.mpr ⟨rfl, hname.symm⟩

theorem storeCandidate_updates (hd : Decided good dated) (hq : Queueing queue kept)
    {w : World σ} (hs : good w.store) (he : Stored w.store e) {c : Candidate} (hfills : c.Fills e)
    {payload rest : Json.Object} {controls : Controls}
    (htake : Controls.take payload = .ok (controls, rest)) {policy : Policy}
    (hpolicy : controls.policy.getD policy = .update) (d : Draw) :
    Returns (storeCandidate controls c d policy) w fun r w' =>
      r = (c.applyTo e d.now, .updated) ∧
      account? w'.store =
        Function.update (account? w.store) e.id (some (c.applyTo e (dated d.now))) := by
  have hrun := reconcile_of_some .update d.id d.now
    (Candidate.existing?_eq_some_of_meets hd hs ⟨he, .inl hfills⟩) w.supply
  unfold storeCandidate
  rw [hq.seamless.reconcile, hpolicy]
  cases hupd : Store.updateAccount (c.applyTo e d.now) w.store with
  | mk result s' =>
    rw [hupd] at hrun
    cases result with
    | error err => exact .bind (.failed hrun trivial)
    | ok _ =>
      have hafter := Candidate.account?_of_update hd hs he hupd
      refine .bind (.ok hrun (.bind (pushIfAsked_queues hq htake _ _ fun w' _ hsame => ?_)))
      exact .pure ⟨rfl, hsame.trans hafter⟩

theorem createAccount_renews (hd : Decided good dated) (hq : Queueing queue kept) {w : World σ}
    (hs : good w.store) (he : Stored w.store e) {payload : Json.Object} {policy : Policy}
    (h : Renews payload policy e) :
    Returns (createAccount payload policy) w fun r w' =>
      Renewed w.store e (w.supply.draws w.supply.used).token r w'.store := by
  refine createAccount_unnamed h.name h.template fun controls rest values c w' htake htext hunset hc
    hsame => ?_
  generalize w.supply.draws w.supply.used = d at hc ⊢
  rw [← hsame] at hs he ⊢
  have hfills : c.Fills e := (hc.fills_iff htext).mpr ⟨h.asset, h.username, h.secretType⟩
  obtain ⟨hasset, husername, -⟩ := Account.hasSlot_iff.mp hfills
  have hpolicy : controls.policy.getD policy = .update := by
    have hpolicy := h.policy
    rw [htake] at hpolicy
    exact Except.ok.inj hpolicy
  have hname := hc.name
  rw [← husername, ← hasset] at hname
  refine (storeCandidate_updates hd hq hs he hfills htake hpolicy d).mono ?_
  rintro _ w'' ⟨rfl, hafter⟩
  exact {
    updated := ⟨rfl, (c.applyTo_rewritten e d.now).id⟩
    stored := ⟨_, (congrFun hafter e.id).trans (Function.update_self ..), rfl⟩
    taken := fun htaken => hname.trans (Naming.choose_of_taken hd hs hunset htaken)
    free := fun hfree => hname.trans (Naming.choose_of_free hd hs hunset hfree)
    others := fun id hne => (congrFun hafter id).trans (Function.update_of_ne hne ..) }

/-- Whatever calls a store has seen: an account that is created again without a name and updated is
afterwards called by its username, with the token if that was taken, even by itself. So it keeps its
name only if the token is the one that it was given before. -/
theorem renewed_names {payload : Json.Object} {policy : Policy} {e : Account}
    (h : Renews payload policy e) (supply : Supply) (r : Account × Outcome) :
    let token := (supply.draws supply.used).token
    (∀ entries m w', Reachable Memory.empty entries m → Stored m e →
      createAccount payload policy ⟨m, supply⟩ = (.ok r, w') →
      Renewed m e token r w'.store ∧ (r.1.name = e.name ↔ Anticipated m e token)) ∧
    ∀ clock entries s w', Reachable (Relational.empty clock) entries s → Stored s e →
      createAccount payload policy ⟨s, supply⟩ = (.ok r, w') →
      Renewed s e token r w'.store ∧ (r.1.name = e.name ↔ Anticipated s e token) := by
  intro token
  constructor
  · intro entries m w' hm he hrun
    have hrenewed := (createAccount_renews Memory.decided Memory.queueing
      (sound_of_reachable hm) he h).of_value hrun
    exact ⟨hrenewed, hrenewed.kept_iff he⟩
  · intro clock entries s w' hs he hrun
    have hrenewed := (createAccount_renews (Relational.decided s.clock) Relational.queueing
      (Relational.kept_of_reachable hs) he h).of_value hrun
    exact ⟨hrenewed, hrenewed.kept_iff he⟩

theorem renewed_names_renamed :
    let m : Memory := renamedCalls.foldl (fun m c => (c.run m).2) (Store.enter Memory.empty)
    let s : Relational := renamedCalls.foldl (fun s c => (c.run s).2)
      (Store.enter (Relational.empty ⟨0, 0⟩))
    let payload : Json.Object := [("asset", .text "asset"), ("username", .text "root")]
    Renews payload .update slotHolder ∧
    (∃ r w', createAccount payload .update ⟨m, countedDraws, 0⟩ = (.ok r, w') ∧
      Renewed m slotHolder "token" r w'.store ∧ r.1.name = "root_token") ∧
    ∃ r w', createAccount payload .update ⟨s, countedDraws, 0⟩ = (.ok r, w') ∧
      Renewed s slotHolder "token" r w'.store ∧ r.1.name = "root_token" := by
  intro m s payload
  have hm := (Reachable.start : Reachable Memory.empty [] _).enter.calls renamedCalls
  have hs := (Reachable.start : Reachable (Relational.empty ⟨0, 0⟩) [] _).enter.calls renamedCalls
  have h : Renews payload .update slotHolder := ⟨.inl rfl, .inl rfl, rfl, rfl, rfl, rfl⟩
  obtain ⟨r, w', hrun⟩ : ∃ r w',
    createAccount payload .update ⟨m, countedDraws, 0⟩ = (.ok r, w') := ⟨_, _, rfl⟩
  obtain ⟨r', v', hrun'⟩ : ∃ r w',
    createAccount payload .update ⟨s, countedDraws, 0⟩ = (.ok r, w') := ⟨_, _, rfl⟩
  have hnames := ((renewed_names h _ r).1 _ m w' hm rfl hrun).1
  have hnames' := ((renewed_names h _ r').2 _ _ s v' hs rfl hrun').1
  exact ⟨h, ⟨r, w', hrun, hnames, hnames.taken ⟨nameHolder, rfl, rfl⟩⟩, r', v', hrun', hnames',
    hnames'.taken ⟨nameHolder, rfl, rfl⟩⟩

def hostAccount : Account :=
  ⟨"iiii", "ii", "root", "root", none, .password, .manual, none, 1, false, true, "", none, ⟨0, 0⟩,
    ⟨0, 0⟩⟩

/-- An account that is only given its secret loses its name to itself. -/
theorem name_lost_to_itself :
    let payload : Json.Object :=
      [("asset", .text "ii"), ("secret", .text "s3cret"), ("username", .text "root")]
    let w : World Memory := after hostOperations ⟨Memory.empty, countedDraws, 0⟩
    let v : World Relational := after hostOperations ⟨Relational.empty ⟨0, 0⟩, countedDraws, 0⟩
    let again := createAccount payload .update w
    let again' := createAccount payload .update v
    Renews payload .update hostAccount ∧
    (Stored w.store hostAccount ∧ again.1.isOk ∧
      (account? again.2.store "iiii").map (·.name) = some "root_token") ∧
    Stored v.store hostAccount ∧ again'.1.isOk ∧
      (account? again'.2.store "iiii").map (·.name) = some "root_token" := by
  intro payload w v again again'
  have h : Renews payload .update hostAccount := ⟨.inl rfl, .inl rfl, rfl, rfl, rfl, rfl⟩
  unfold Stored
  exact ⟨h, by decide +kernel, by decide +kernel⟩

end Service

end Custody
