import Custody.Proofs.Service.Failure
import Custody.Proofs.Service.Values
import Custody.Proofs.Store.Ledger

/-!
What the account pipelines do to the accounts of a store. Whatever they look up and choose, in the
end each of them stores new accounts and rewrites stored ones, with one secret for all and with an
account to switch from that stands on the same asset.
-/
namespace Custody

open Run Store

variable {σ : Type} [Store σ] {good : σ → Prop} {dated : Time.Instant → Time.Instant}
  {hasNode : σ → String → Prop}

/-- A good store whose accounts have come from those of another by such steps. -/
structure Store.Moved (good : σ → Prop) (may : Account → Account → Prop) (s s' : σ) : Prop where
  good : good s'
  steps : Accounts.Steps may (account? s) (account? s')

namespace Store.Moved

variable {may may' : Account → Account → Prop} {s s' s'' : σ}

theorem of_same (h : good s' ∧ account? s' = account? s) : Moved good may s s' :=
  ⟨h.1, h.2 ▸ .refl⟩

theorem trans (h : Moved good may s s') (h' : Moved good may s' s'') : Moved good may s s'' :=
  ⟨h'.good, h.steps.trans h'.steps⟩

theorem mono (hmay : ∀ old new, may old new → may' old new) (h : Moved good may s s') :
    Moved good may' s s' := ⟨h.good, h.steps.mono hmay⟩

theorem preorder : Run.Preorder fun w w' : World σ =>
    good w.store → Moved good may w.store w'.store where
  refl _ hgood := of_same ⟨hgood, rfl⟩
  trans h h' hgood := (h hgood).trans (h' (h hgood).good)

end Store.Moved

namespace Store.Ledger

variable {secret suFrom : Option String} {s s' : σ}

theorem moved_insert (L : Ledger good dated hasNode) {may : Account → Account → Prop} {a : Account}
    (hgood : good s) (hsu : Accounts.Switches (account? s) a)
    (hins : Store.insertAccount a s = (.ok (), s')) : Moved good may s s' := by
  obtain ⟨hgood', hfree, hafter⟩ := L.bookkeeping.insert hgood hins
  refine ⟨hgood', .single ?_⟩
  rw [Accounts.eq_update hafter]
  exact .insert (a.redated dated) hfree hsu

theorem moved_update (L : Ledger good dated hasNode) {old new : Account} (hgood : good s)
    (hold : account? s old.id = some old) (hnew : Account.Rewritten secret suFrom old new)
    (hsu : new.suFrom = old.suFrom ∨ Accounts.Switches (account? s) new)
    (hupd : Store.updateAccount new s = (.ok (), s')) :
    Moved good (fun a b => a = old ∧ b = new.redated dated ∧ Account.Rewritten secret suFrom a b)
      s s' := by
  obtain ⟨hgood', hafter⟩ := L.bookkeeping.update hgood (hnew.id ▸ hold) hnew.assetId
    hnew.dateCreated hupd
  rw [hnew.id] at hafter
  have hread : dated new.dateCreated = old.dateCreated := by
    rw [hnew.dateCreated]
    exact congrArg Account.dateCreated (L.bookkeeping.reread hold hgood)
  refine ⟨hgood', .single ?_⟩
  rw [Accounts.eq_update hafter]
  exact .rewrite old _ hold ⟨rfl, rfl, { hnew with dateCreated := hread }⟩ hnew.id hnew.assetId hsu

end Store.Ledger

namespace Candidate

theorem existing?_eq_some (L : Ledger good dated hasNode) {c : Candidate} {lookup : Lookup}
    {s : σ} {a : Account} (hs : good s) (h : c.existing? lookup s = some a) :
    a.assetId = c.assetId ∧ account? s a.id = some a :=
  L.bookkeeping.existing? hs (L.name hs) h

structure Overwritten (dated : Time.Instant → Time.Instant) (c : Candidate) (r : Account × Outcome)
    (old new : Account) : Prop where
  asset : old.assetId = c.assetId
  outcome : r.2 = .updated
  rewritten : Account.Rewritten c.secret c.suFrom old new
  returned : new = r.1.redated dated

theorem reconcile_ends (c : Candidate) (L : Ledger good dated hasNode) (lookup : Lookup)
    (policy : Policy) (id : String) (now : Time.Instant) {w : World σ} (hgood : good w.store)
    (hsu : Accounts.Switches (account? w.store) (c.toAccount id now)) :
    Ends (Run.transaction (c.reconcile lookup policy id now)) w
      (fun r w' => Moved good (c.Overwritten dated r) w.store w'.store)
      fun _ w' => w'.store = w.store := by
  rw [L.seamless.reconcile]
  refine .bind (.ask ?_)
  cases hfound : c.existing? lookup w.store with
  | none =>
    refine .bind (.write (fun _ s' hins => .pure ?_) fun _ _ hins =>
      L.bookkeeping.insert_error hins)
    exact L.moved_insert hgood hsu hins
  | some old =>
    obtain ⟨hasset, hold⟩ := existing?_eq_some L hgood hfound
    cases policy with
    | skip => exact .pure (.of_same ⟨hgood, rfl⟩)
    | error => exact .throw rfl
    | update =>
      have hnew := c.applyTo_rewritten old now
      have hswitches : (c.applyTo old now).suFrom = old.suFrom ∨
          Accounts.Switches (account? w.store) (c.applyTo old now) := by
        refine hnew.suFrom.imp_right fun hsupplied s hs => ?_
        rw [hnew.assetId, hasset]
        exact hsu s (hsupplied.symm.trans hs)
      refine .bind (.write (fun _ s' hupd => .pure ?_) fun _ _ hupd =>
        L.bookkeeping.update_error hupd)
      refine (L.moved_update hgood hold hnew hswitches hupd).mono ?_
      rintro _ _ ⟨rfl, rfl, hrewritten⟩
      exact ⟨hasset, rfl, hrewritten, rfl⟩

end Candidate

namespace Service

theorem withTemplate_ends {w : World σ} (template : Option String) (schema : Field.Schema)
    (payload : Json.Object) {value : Json.Object × Option String → World σ → Prop}
    {error : Error → World σ → Prop}
    (hv : ∀ values templateId, (∀ key, template = none ∨ key ∉ Template.handedOn schema →
      text? values key = text? payload key) → value (values, templateId) w)
    (he : ∀ e, error e w) : Ends (withTemplate template schema payload) w value error := by
  cases template with
  | none => exact .pure (hv _ _ fun _ _ => rfl)
  | some id =>
    refine .bind (.find (he _) fun t _ => .pure (.pure (hv _ _ fun key hkey => ?_)))
    have hkey := hkey.resolve_left (Option.some_ne_none id)
    have hnone := (t.get?_valuesFor schema key).trans (if_neg hkey)
    have hget := Field.get?_merge_of_none hnone schema payload
    exact congrArg (Option.bind · Json.Value.asText?) hget

theorem checkSuFrom_ends {w : World σ} (suFrom assetId : String) (self : Option String)
    {value : Unit → World σ → Prop} {error : Error → World σ → Prop}
    (hv : self ≠ some suFrom → (∃ a, account? w.store suFrom = some a ∧ a.assetId = assetId) →
      value () w)
    (he : ∀ e, ¬ (self ≠ some suFrom ∧
      ∃ a, account? w.store suFrom = some a ∧ a.assetId = assetId) → error e w) :
    Ends (checkSuFrom suFrom assetId self) w value error := by
  unfold checkSuFrom
  by_cases hself : self = some suFrom
  · rw [if_pos hself]
    exact .bind (.throw (he _ fun h => h.1 hself))
  · rw [if_neg hself]
    refine .bind (.ask (.bind ?_))
    cases hfound : account? w.store suFrom with
    | none => exact .throw (he _ (by simp [hfound]))
    | some a =>
      by_cases hsame : a.assetId = assetId
      · exact .pure (by simpa [hsame] using .pure (hv hself ⟨a, hfound, hsame⟩))
      · exact .pure (by simpa [hsame] using .throw (he _ (by simp [hfound, hsame])))

theorem pushIfAsked_ends (L : Ledger good dated hasNode) {w : World σ} (c : Controls)
    (ids : List String) (now : Time.Instant) (hgood : good w.store)
    {value : Unit → World σ → Prop} {error : Error → World σ → Prop}
    (hv : ∀ w', good w'.store ∧ account? w'.store = account? w.store → value () w') :
    Ends (pushIfAsked c ids now) w value error := by
  unfold pushIfAsked
  split
  · exact .ok rfl (hv _ (L.aside (c := .enqueue ⟨ids, c.params⟩ now) trivial hgood))
  · exact .pure (hv w ⟨hgood, rfl⟩)

/-- The candidate of these values, on a store and with a token to go behind its name. -/
structure Describes (values : Json.Object) (s : σ) (token : String) (c : Candidate) : Prop where
  asset : text? values "asset" = some c.assetId
  username : text? values "username" = some c.username
  secretType : (secretType? values).map (·.getD .password) = .ok c.secretType
  name : c.name = Naming.choose (text? values "name") c.username c.assetId none token s
  suFrom : c.suFrom = text? values "su_from"
  switches : ∀ b, c.suFrom = some b → ∃ a, account? s b = some a ∧ a.assetId = c.assetId

/-- Up to its last stage a creation makes a candidate of the payload. -/
theorem createAccount_describes {w : World σ} {payload : Json.Object} {policy : Policy}
    {value : Account × Outcome → World σ → Prop}
    (hstore : ∀ controls rest values c w', Controls.take payload = .ok (controls, rest) →
      (∀ key ∉ controlNames,
        controls.template = none ∨ key ∉ Template.handedOn Field.accountSchema →
        text? values key = text? payload key) →
      Describes values w.store (w.supply.draws w.supply.used).token c → w'.store = w.store →
      Returns (storeCandidate controls c (w.supply.draws w.supply.used) policy) w' value) :
    Returns (createAccount payload policy) w value := by
  refine .bind (.of fun ⟨controls, rest⟩ htake => ?_)
  refine .bind (withTemplate_ends _ _ _ (fun values templateId hvalues => ?_) fun _ => trivial)
  refine .bind (.of fun _ _ => .bind (.of fun assetId hid => ?_))
  refine .bind (.of fun username husername => .find fun asset _ => ?_)
  extract_lets suFrom store
  have hlast (hsu : ∀ b, suFrom = some b →
      ∃ a, account? w.store b = some a ∧ a.assetId = assetId) : Returns (store ()) w value := by
    refine .bind (.draw (.bind (.ask (.bind (.of fun c hc => ?_)))))
    obtain ⟨rfl, hname, rfl, htype, hfrom⟩ := candidateOf_eq_ok hc
    refine hstore controls rest values c _ htake (fun key hkey hplain => ?_) ?_ rfl
    · exact (hvalues key hplain).trans (text?_take htake hkey)
    · exact ⟨requiredText_eq_ok hid, requiredText_eq_ok husername, htype, hname, hfrom, hfrom ▸ hsu⟩
  cases hother : suFrom with
  | none => exact hlast (by simp [hother])
  | some other =>
    refine .bind (checkSuFrom_ends _ _ _ (fun _ hfound => hlast ?_) fun _ _ => trivial)
    rintro b hb
    cases hother.symm.trans hb
    exact hfound

structure Adopted (dated : Time.Instant → Time.Instant) (payload : Json.Object)
    (secret : Option String) (r : Account × Outcome) (old new : Account) : Prop where
  asset : text? payload "asset" = some old.assetId
  outcome : r.2 = .updated
  rewritten : Account.Rewritten secret (text? payload "su_from") old new
  returned : new = r.1.redated dated

theorem Adopted.selfSwitching {payload : Json.Object} {secret : Option String}
    {r : Account × Outcome} {old new : Account} (h : Adopted dated payload secret r old new)
    (hself : new.SelfSwitching) :
    old.SelfSwitching ∨ r.2 = .updated ∧ text? payload "su_from" = some r.1.id := by
  refine (h.rewritten.selfSwitching hself).imp_right fun hnamed => ⟨h.outcome, ?_⟩
  rw [hnamed, h.returned]
  rfl

theorem storeCandidate_moved (L : Ledger good dated hasNode) {w : World σ} (hgood : good w.store)
    (c : Candidate) (hsu : ∀ s, c.suFrom = some s →
      ∃ b, account? w.store s = some b ∧ b.assetId = c.assetId)
    (controls : Controls) (policy : Policy) (d : Draw) :
    Returns (do
      let (account, outcome) ← Run.transaction (c.reconcile .nameOrSlot policy d.id d.now)
      if outcome.changed then pushIfAsked controls [account.id] d.now
      return (account, outcome)) w fun r w' =>
        Moved good (c.Overwritten dated r) w.store w'.store := by
  refine (c.reconcile_ends L _ _ _ _ hgood hsu).returns.followed ?_
  rintro ⟨a, o⟩ w' hmoved
  dsimp only
  split
  · exact .bind (pushIfAsked_ends L _ _ _ hmoved.good fun _ hsame => .pure
      (hmoved.trans (.of_same hsame)))
  · exact .pure hmoved

theorem createAccount_moved (L : Ledger good dated hasNode) {w : World σ} (hgood : good w.store)
    (payload : Json.Object) (policy : Policy) :
    Returns (createAccount payload policy) w fun r w' =>
      ∃ secret, Moved good (Adopted dated payload secret r) w.store w'.store := by
  refine createAccount_describes fun controls rest values c w' _ hvalues hc hsame => ?_
  rw [← hsame] at hgood hc ⊢
  refine (storeCandidate_moved L hgood c hc.switches controls _ _).mono fun r w'' hmoved => ?_
  refine ⟨c.secret, hmoved.mono fun old new hnew => ⟨?_, hnew.outcome, ?_, hnew.returned⟩⟩
  · rw [← hvalues "asset" (by decide) (.inr (by decide)), hc.asset, hnew.asset]
  · rw [← hvalues "su_from" (by decide) (.inr (by decide)), ← hc.suFrom]
    exact hnew.rewritten

structure Edited (secret suFrom : Option String) (old new : Account) : Prop extends
    Account.Rewritten secret suFrom old new where
  selfSwitching : new.SelfSwitching → old.SelfSwitching

theorem storeUpdate_moved (L : Ledger good dated hasNode) {w : World σ} (hgood : good w.store)
    (old new : Account) {secret suFrom : Option String}
    (hold : account? w.store old.id = some old)
    (hnew : Account.Rewritten secret suFrom old new)
    (hsu : new.suFrom = old.suFrom ∨
      Accounts.Switches (account? w.store) new ∧ ¬ new.SelfSwitching)
    (controls : Controls) (now : Time.Instant) :
    Returns (do
      Run.transaction (Run.write (Store.updateAccount new))
      pushIfAsked controls [new.id] now
      return new) w fun _ w' => Moved good (Edited secret suFrom) w.store w'.store := by
  rw [L.seamless.update]
  refine .bind (.write fun _ s' hupd => ?_)
  have hmoved : Moved good (Edited secret suFrom) w.store s' := by
    refine (L.moved_update hgood hold hnew (hsu.imp_right And.left) hupd).mono ?_
    rintro _ _ ⟨rfl, rfl, hrewritten⟩
    refine ⟨hrewritten, fun hself => ?_⟩
    rcases hsu with hkept | ⟨-, hother⟩
    · exact hkept.symm.trans (hself.trans (congrArg some hnew.id))
    · exact absurd hself hother
  exact .bind (pushIfAsked_ends L _ _ _ hmoved.good fun _ hsame => .pure
    (hmoved.trans (.of_same hsame)))

theorem updateAccount_moved (L : Ledger good dated hasNode) {w : World σ} (hgood : good w.store)
    (id : String) (payload : Json.Object) :
    Returns (updateAccount id payload) w fun _ w' =>
      ∃ secret suFrom, Moved good (Edited secret suFrom) w.store w'.store := by
  refine .bind (.of fun ⟨controls, rest⟩ _ => ?_)
  refine .bind (withTemplate_ends _ _ _ (fun values _ _ => ?_) fun _ => trivial)
  refine .bind (.of fun _ _ => .find fun old hold => ?_)
  refine .drawing fun d w' hsame => .bind (.ask ?_)
  rw [← hsame] at hgood hold ⊢
  refine .bind (.of fun secretType _ => ?_)
  extract_lets new stored store
  obtain rfl := L.own hgood hold
  have hnew : Account.Rewritten (text? values "secret") (text? values "su_from") old new :=
    applyValues_rewritten values secretType old
  have hstore (hsu : new.suFrom = old.suFrom ∨
      Accounts.Switches (account? w'.store) new ∧ ¬ new.SelfSwitching) :
      Returns (store ()) w' fun _ w'' =>
        ∃ secret suFrom, Moved good (Edited secret suFrom) w'.store w''.store :=
    (storeUpdate_moved L hgood old stored hold { hnew with } hsu controls d.now).mono
      fun _ _ hmoved => ⟨_, _, hmoved⟩
  split
  · cases hother : new.suFrom with
    | none =>
      have hswitches : Accounts.Switches (account? w'.store) new := by
        simp [Accounts.Switches, hother]
      exact hstore (.inr ⟨hswitches, by simp [Account.SelfSwitching, hother]⟩)
    | some other =>
      refine .bind (checkSuFrom_ends _ _ _ (fun hself hfound => hstore (.inr ⟨?_, ?_⟩))
        fun _ _ => trivial)
      · rintro s hs
        cases hother.symm.trans hs
        rw [hnew.assetId]
        exact hfound
      · intro hitself
        exact hself ((congrArg some hnew.id).symm.trans (hitself.symm.trans hother))
  · next habsent =>
    exact hstore (.inl (applyValues_suFrom (Bool.eq_false_iff.mpr habsent) secretType old))

theorem createDrawing_within (L : Ledger good dated hasNode) (c : Candidate)
    (hsu : c.suFrom = none) (targets : List Bulk.Target) (policy : Policy) :
    Within (fun w w' : World σ => good w.store →
      Moved good (Account.Rewritten c.secret none) w.store w'.store)
      (Bulk.createDrawing c targets policy) := by
  have hP : Preorder fun w w' : World σ =>
      good w.store → Moved good (Account.Rewritten c.secret none) w.store w'.store := Moved.preorder
  refine Bulk.createDrawing_within hP (fun w => hP.refl w) c targets policy ?_
  intro asset name id now w hgood
  let c' : Candidate := { c.forAsset asset with name := name }
  have hsu' : Accounts.Switches (account? w.store) (c'.toAccount id now) := fun s hs =>
    nomatch hsu.symm.trans hs
  have hends : Ends (Run.transaction (c'.reconcile .slot policy id now)) w
      (fun _ w' => Moved good (Account.Rewritten c.secret none) w.store w'.store)
      fun _ w' => Moved good (Account.Rewritten c.secret none) w.store w'.store := by
    refine (c'.reconcile_ends L .slot policy id now hgood hsu').mono ?_ ?_
    · exact fun r w' hmoved => hmoved.mono fun old new hnew => hsu ▸ hnew.rewritten
    · intro e w' hsame
      rw [hsame]
      exact .of_same ⟨hgood, rfl⟩
  exact hends.reached

theorem bulkCreateAccounts_moved (L : Ledger good dated hasNode) {w : World σ}
    (hgood : good w.store) (payload : Json.Object) (policy : Policy) :
    Ends (bulkCreateAccounts payload policy) w
      (fun _ w' => ∃ secret, Moved good (Account.Rewritten secret none) w.store w'.store)
      fun _ w' => ∃ secret, Moved good (Account.Rewritten secret none) w.store w'.store := by
  have hstop (_ : Error) : ∃ secret, Moved good (Account.Rewritten secret none) w.store w.store :=
    ⟨none, .of_same ⟨hgood, rfl⟩⟩
  refine .bind (.of (fun ⟨controls, rest⟩ _ => ?_) fun e _ => hstop e)
  refine .bind (.of (fun ids _ => ?_) fun e _ => hstop e)
  refine .bind (withTemplate_ends _ _ _ (fun values templateId _ => ?_) hstop)
  refine .bind (.of (fun _ _ => ?_) fun e _ => hstop e)
  refine .bind (.of (fun username _ => ?_) fun e _ => hstop e)
  refine .bind (.of (fun candidate hcandidate => ?_) fun e _ => hstop e)
  have hload := Within.mapM preorder_store (Bulk.Target.load_within (σ := σ) preorder_store) ids
  refine .bind ((hload.ends w).mono ?_ ?_)
  · intro targets w' hsame
    refine .drawing fun d w'' hsame' => ?_
    rw [hsame] at hsame'
    rw [← hsame'] at hgood ⊢
    obtain ⟨-, -, -, -, hfrom⟩ := candidateOf_eq_ok hcandidate
    have hbulk := createDrawing_within L candidate hfrom targets (controls.policy.getD policy)
    refine .bind ((hbulk.ends w'').mono (fun entries w₃ hmoved => ?_) fun e w₃ hmoved => ?_)
    · have hmoved := hmoved hgood
      exact .bind (pushIfAsked_ends L _ _ _ hmoved.good fun _ hsame => .pure
        ⟨_, hmoved.trans (.of_same hsame)⟩)
    · exact ⟨_, hmoved hgood⟩
  · exact fun e w' hsame => hsame ▸ hstop e

end Service

end Custody
