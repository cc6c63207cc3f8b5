import Custody.Proofs.Service.Lockstep
import Custody.Proofs.Service.Writes

/-!
What one operation does to the accounts. The accounts of a new asset leave all others as they are,
and a deletion takes the accounts of one asset, which no other account may switch from.
-/
namespace Custody

open Run Store

variable {σ : Type} [Store σ] {good : σ → Prop} {dated : Time.Instant → Time.Instant}
  {hasNode : σ → String → Prop}

namespace Node

structure Kept (good : σ → Prop) (hasNode : σ → String → Prop) (s s' : σ) : Prop where
  good : good s'
  accounts : account? s' = account? s
  nodes : ∀ id, hasNode s id → hasNode s' id

theorem Kept.refl {s : σ} (h : good s) : Kept good hasNode s s := ⟨h, rfl, fun _ h => h⟩

theorem Kept.trans {s s' s'' : σ} (h : Kept good hasNode s s') (h' : Kept good hasNode s' s'') :
    Kept good hasNode s s'' :=
  ⟨h'.good, h'.accounts.trans h.accounts, fun id hid => h'.nodes id (h.nodes id hid)⟩

variable {w : World σ}

theorem make_kept (L : Ledger good dated hasNode) (hgood : good w.store) (path : String)
    (parentId : Option String) :
    Returns (make path parentId) w fun n w' =>
      Kept good hasNode w.store w'.store ∧ hasNode w'.store n.id := by
  refine .drawing fun d w' hsame => ?_
  rw [← hsame] at hgood ⊢
  refine .bind (.write fun _ s' hins => ?_)
  have hkept := L.aside (c := .insertNode ⟨d.id, path, parentId⟩) trivial hgood
  rw [show (Call.insertNode _).run w'.store = _ from hins] at hkept
  obtain ⟨hmade, hnodes⟩ := L.insertNode hins
  exact .pure ⟨⟨hkept.1, hkept.2, hnodes⟩, hmade⟩

theorem ensureBelow_kept (L : Ledger good dated hasNode) (hgood : good w.store)
    (above : List (List Char)) (path : List Char) :
    Returns (ensureBelow above path) w fun n w' =>
      Kept good hasNode w.store w'.store ∧ hasNode w'.store n.id := by
  induction above generalizing path w with
  | nil =>
    unfold ensureBelow
    refine .bind (.ask ?_)
    cases hfound : Store.node? w.store (String.ofList path) with
    | some n => exact .pure ⟨.refl hgood, L.node? hgood hfound⟩
    | none => exact .bind (.pure (make_kept L hgood _ _))
  | cons parent rest ih =>
    unfold ensureBelow
    refine .bind (.ask ?_)
    cases hfound : Store.node? w.store (String.ofList path) with
    | some n => exact .pure ⟨.refl hgood, L.node? hgood hfound⟩
    | none =>
      dsimp only
      rw [map_eq_pure_bind]
      refine .bind ((ih hgood parent).followed fun n w' h => .pure ?_)
      refine (make_kept L h.1.good _ _).mono fun made w'' h' => ?_
      exact ⟨h.1.trans h'.1, h'.2⟩

theorem mapM_ensure_kept (L : Ledger good dated hasNode) (hgood : good w.store)
    (paths : List String) :
    Returns (paths.mapM ensure) w fun ns w' =>
      Kept good hasNode w.store w'.store ∧ ∀ n ∈ ns, hasNode w'.store n.id := by
  induction paths generalizing w with
  | nil => exact .pure ⟨.refl hgood, nofun⟩
  | cons path rest ih =>
    rw [List.mapM_cons]
    refine (ensureBelow_kept L hgood _ _).followed fun n w' h => ?_
    refine (ih h.1.good).followed fun ns w'' h' => ?_
    exact .pure ⟨h.1.trans h'.1, List.forall_mem_cons.mpr ⟨h'.1.nodes _ h.2, h'.2⟩⟩

end Node

namespace Service

variable {w : World σ}

/-- One of these payloads names the account that was made of it as the one to switch from. -/
def namesItself (payloads : List Json.Object) (accounts : List Account) : Bool :=
  (payloads.zip accounts).any fun p => text? p.1 "su_from" == some p.2.id

def Nested (asset : String) (blamed : Prop) (old new : Account) : Prop :=
  old.assetId = asset ∧ (new.SelfSwitching → old.SelfSwitching ∨ blamed)

theorem mapM_createNested_moved (L : Ledger good dated hasNode) (hgood : good w.store)
    (asset : String) (policy : Policy) (payloads : List Json.Object) :
    Returns (payloads.mapM (createNested asset policy)) w fun accounts w' =>
      Moved good (Nested asset (namesItself payloads accounts = true)) w.store w'.store := by
  induction payloads generalizing w with
  | nil => exact .pure (.of_same ⟨hgood, rfl⟩)
  | cons payload rest ih =>
    rw [List.mapM_cons]
    refine .bind (.bind (nestedPayload_ends _ _ (fun nested hasset hkept => ?_) fun _ => trivial))
    have hsu : text? nested "su_from" = text? payload "su_from" :=
      congrArg (Option.bind · Json.Value.asText?) (hkept _ (by decide))
    refine (createAccount_moved L hgood nested policy).followed ?_
    rintro ⟨a, o⟩ w' ⟨secret, hmoved⟩
    refine .pure ((ih hmoved.good).followed fun accounts w'' hrest => ?_)
    refine .pure ((hmoved.mono ?_).trans (hrest.mono ?_))
    · intro old new hnew
      refine ⟨Option.some.inj (hnew.asset.symm.trans hasset), fun hself => ?_⟩
      refine (hnew.selfSwitching hself).imp_right fun h => ?_
      have hnamed : text? payload "su_from" = some a.id := hsu.symm.trans h.2
      simp [namesItself, hnamed]
    · intro old new hnew
      refine ⟨hnew.1, fun hself => (hnew.2 hself).imp_right fun h => ?_⟩
      have hany : (rest.zip accounts).any (fun p => text? p.1 "su_from" == some p.2.id) = true := h
      simp only [namesItself, List.zip_cons_cons, List.any_cons, hany, Bool.or_true]

theorem storeAsset_moved (L : Ledger good dated hasNode) (hgood : good w.store)
    (draft : Asset.Draft) (platform : Platform) (protocols : List Protocol) (labels : List Label)
    (paths : List String) (policy : Policy) (d : Draw) :
    Returns (storeAsset draft platform protocols labels paths policy d) w fun r w' =>
      Moved good (Nested d.id (namesItself draft.accounts r.2 = true)) w.store w'.store ∧
        ∀ id a, account? w.store id = some a → a.assetId ≠ d.id := by
  refine (Node.mapM_ensure_kept L hgood paths).followed ?_
  rintro nodes w' ⟨hkept, hnodes⟩
  refine .bind (.write fun _ s' hins => ?_)
  obtain ⟨hgood', haccounts, hfresh⟩ := L.insertAsset hkept.good
    (List.forall_mem_map.mpr hnodes) hins
  rw [hkept.accounts] at haccounts hfresh
  refine (mapM_createNested_moved L hgood' _ policy draft.accounts).followed ?_
  intro accounts w'' hmoved
  refine .find fun stored _ => .pure ⟨?_, hfresh⟩
  exact .trans (.of_same ⟨hgood', haccounts⟩) hmoved

theorem createAsset_moved (L : Ledger good dated hasNode) (hgood : good w.store)
    (draft : Asset.Draft) (org : String) (policy : Policy) :
    Returns (createAsset draft org policy) w fun r w' =>
      ∃ asset, Moved good (Nested asset (namesItself draft.accounts r.2 = true)) w.store w'.store ∧
        ∀ id a, account? w.store id = some a → a.assetId ≠ asset := by
  unfold createAsset
  refine .refusing (.find fun platform _ => ?_)
  refine .bind (.of fun entries _ => .bind (.of fun validated _ => ?_))
  refine .bind (.of fun protocols _ => .bind (.of fun labels _ => ?_))
  refine .drawing fun d w' hsame => .transaction ?_
  rw [← hsame] at hgood ⊢
  obtain ⟨hentered, haccounts⟩ := L.enter hgood
  have hstored := storeAsset_moved (w := { w' with store := Store.enter w'.store }) L hentered draft
    platform protocols labels
    (if draft.nodes.isEmpty then ["/" ++ org] else draft.nodes.map (Node.pathUnder org)) policy d
  refine hstored.mono ?_
  rintro r w'' ⟨hmoved, hfresh⟩
  rw [show account? (Store.enter w'.store) = _ from haccounts] at hfresh
  refine ⟨d.id, .trans (.of_same ⟨hentered, haccounts⟩) (.trans hmoved ?_), hfresh⟩
  exact .of_same (L.commit hmoved.good)

def Operation.switchesItself : Operation → Except Error Reply → Bool
  | .createAccount payload _, .ok (.account a outcome) =>
    outcome = .updated && text? payload "su_from" == some a.id
  | .createAsset draft _ _, .ok (.asset _ accounts) => namesItself draft.accounts accounts
  | _, _ => false

/-- What an operation with this result does to the accounts. -/
structure Effect (op : Operation) (r : Except Error Reply) (m m' : Accounts) : Prop where
  kept : ∀ id a, m id = some a → op = .deleteAsset a.assetId ∨ ∃ b, m' id = some b ∧ a.Succeeds b
  linked : m'.Linked
  selfSwitching : ∀ id b, m' id = some b → b.SelfSwitching →
    (∃ a, m id = some a ∧ a.SelfSwitching) ∨ op.switchesItself r = true

namespace Effect

variable {op : Operation} {r : Except Error Reply} {m m' : Accounts}

theorem of_same (hlinked : m.Linked) (h : m' = m) : Effect op r m m' where
  kept _ a ha := .inr ⟨a, h ▸ ha, .refl a⟩
  linked := h ▸ hlinked
  selfSwitching _ b hb hself := .inl ⟨b, h ▸ hb, hself⟩

/-- An operation that supplies one secret at most. -/
theorem of_rewriting {may : Account → Account → Prop} {secret suFrom : Option String}
    (hlinked : m.Linked) (h : Accounts.Steps may m m')
    (hrewritten : ∀ old new, may old new → Account.Rewritten secret suFrom old new)
    (hself : ∀ old new, may old new → new.SelfSwitching →
      old.SelfSwitching ∨ op.switchesItself r = true) : Effect op r m m' where
  kept id a ha := by
    obtain ⟨b, hb, rfl | hab⟩ := h.rewritten hrewritten ha
    · exact .inr ⟨b, hb, .refl b⟩
    · exact .inr ⟨b, hb, hab.succeeds⟩
  linked := h.linked hlinked
  selfSwitching _ _ hb := h.selfSwitching hself hb

theorem of_nested {asset : String} (hlinked : m.Linked)
    (h : Accounts.Steps (Nested asset (op.switchesItself r = true)) m m')
    (hfresh : ∀ id a, m id = some a → a.assetId ≠ asset) : Effect op r m m' where
  kept id a ha := .inr ⟨a, h.untouched (fun _ _ => And.left) ha (hfresh id a ha), .refl a⟩
  linked := h.linked hlinked
  selfSwitching _ _ hb := h.selfSwitching (fun _ _ => And.right) hb

theorem of_deletion {asset : String} (hlinked : m.Linked) (h : m' = m.without asset) :
    Effect (.deleteAsset asset) r m m' where
  kept id a ha := by
    by_cases hasset : a.assetId = asset
    · exact .inl (hasset ▸ rfl)
    · exact .inr ⟨a, h ▸ Accounts.without_eq_some_iff.mpr ⟨ha, hasset⟩, .refl a⟩
  linked := h ▸ hlinked.without asset
  selfSwitching id b hb hself := .inl ⟨b, (Accounts.without_eq_some_iff.mp (h ▸ hb)).1, hself⟩

end Effect

theorem createPlatform_aside (L : Ledger good dated hasNode) (hgood : good w.store)
    (draft : Platform.Draft) :
    Returns (createPlatform draft) w fun _ w' =>
      good w'.store ∧ account? w'.store = account? w.store := by
  unfold createPlatform
  refine .refusing (.drawing fun d w' hsame => ?_)
  rw [← hsame] at hgood ⊢
  refine .bind (.of fun p _ => .bind (.rewording (.write fun _ s' hins => .pure ?_)))
  have hkept := L.aside (c := .insertPlatform p) trivial hgood
  rwa [show (Call.insertPlatform p).run w'.store = _ from hins] at hkept

theorem createTemplate_aside (L : Ledger good dated hasNode) (hgood : good w.store)
    (payload : Json.Object) (org : String) :
    Returns (createTemplate payload org) w fun _ w' =>
      good w'.store ∧ account? w'.store = account? w.store := by
  refine .bind (.of fun _ _ => .drawing fun d w' hsame => ?_)
  rw [← hsame] at hgood ⊢
  refine .bind (.of fun name _ => .bind (.of fun username _ => .bind (.of fun secretType _ => ?_)))
  extract_lets template
  refine .bind (.rewording (.write fun _ s' hins => .pure ?_))
  have hkept := L.aside (c := .insertTemplate template) trivial hgood
  rwa [show (Call.insertTemplate template).run w'.store = _ from hins] at hkept

theorem deleteTemplate_aside (L : Ledger good dated hasNode) (hgood : good w.store) (id : String) :
    Returns (deleteTemplate id) w fun _ w' =>
      good w'.store ∧ account? w'.store = account? w.store := by
  refine .bind (.write fun found s' hdel => ?_)
  have hkept := L.aside (c := .deleteTemplate id) trivial hgood
  simp only [Call.run, hdel] at hkept
  split
  · exact .throw
  · exact .pure hkept

theorem deleteAsset_returns (L : Ledger good dated hasNode) (hgood : good w.store)
    (hlinked : Accounts.Linked (account? w.store)) (id : String) :
    Returns (deleteAsset id) w fun _ w' =>
      good w'.store ∧ account? w'.store = Accounts.without (account? w.store) id := by
  refine .bind (.write fun found s' hdel => ?_)
  have hdeleted := L.deleteAsset id hgood hlinked
  rw [hdel] at hdeleted
  split
  · exact .throw
  · exact .pure hdeleted

def Operation.Leaves (good : σ → Prop) (op : Operation) (s : σ) (r : Except Error Reply)
    (w' : World σ) : Prop :=
  good w'.store ∧ Effect op r (account? s) (account? w'.store)

theorem Operation.leaves_of_same {op : Operation} {s : σ} {r : Except Error Reply}
    (hlinked : Accounts.Linked (account? s))
    (h : good w'.store ∧ account? w'.store = account? s) : op.Leaves good s r w' :=
  ⟨h.1, .of_same hlinked h.2⟩

theorem Operation.leaves_of_returns (op : Operation) (L : Ledger good dated hasNode)
    (hgood : good w.store) (hlinked : Accounts.Linked (account? w.store))
    (hop : ∀ e, ¬ op.Reports e)
    (h : Returns op.run w fun r w' => op.Leaves good w.store (.ok r) w') :
    Ends op.run w (fun r w' => op.Leaves good w.store (.ok r) w')
      fun e w' => op.Leaves good w.store (.error e) w' :=
  .of_returns h <| (op.run_undone L.reverting w).mono (fun _ _ h => h) fun e _ hundone =>
    leaves_of_same hlinked ((hundone.resolve_left (hop e)) hgood)

/-- A good store in which accounts switch from accounts that are there becomes such a store again,
whether the operation fails or not. -/
theorem Operation.run_effect (L : Ledger good dated hasNode) (hgood : good w.store)
    (hlinked : Accounts.Linked (account? w.store)) (op : Operation) :
    good (op.run w).2.store ∧
      Effect op (op.run w).1 (account? w.store) (account? (op.run w).2.store) := by
  suffices Ends op.run w (fun r w' => op.Leaves good w.store (.ok r) w')
      fun e w' => op.Leaves good w.store (.error e) w' from
    Ends.total (P := op.Leaves good w.store) this
  have returns := op.leaves_of_returns L hgood hlinked
  cases op with
  | createPlatform draft =>
    refine returns (fun _ h => h) ?_
    exact (createPlatform_aside L hgood draft).followed fun _ _ h =>
      .pure (leaves_of_same hlinked h)
  | createAsset draft org policy =>
    refine returns (fun _ h => h) ((createAsset_moved L hgood draft org policy).followed ?_)
    rintro ⟨stored, accounts⟩ w' ⟨asset, hmoved, hfresh⟩
    exact .pure ⟨hmoved.good, .of_nested hlinked hmoved.steps hfresh⟩
  | deleteAsset id =>
    refine returns (fun _ h => h) ((deleteAsset_returns L hgood hlinked id).followed ?_)
    exact fun _ _ h => .pure ⟨h.1, .of_deletion hlinked h.2⟩
  | createAccount payload policy =>
    refine returns (fun _ h => h) ((createAccount_moved L hgood payload policy).followed ?_)
    rintro ⟨a, outcome⟩ w' ⟨secret, hmoved⟩
    refine .pure ⟨hmoved.good, .of_rewriting hlinked hmoved.steps (fun _ _ h => h.rewritten) ?_⟩
    intro old new hnew hself
    refine (hnew.selfSwitching hself).imp_right fun h => ?_
    simp [switchesItself, h.2, show outcome = .updated from h.1]
  | updateAccount id payload =>
    refine returns (fun _ h => h) ((updateAccount_moved L hgood id payload).followed ?_)
    rintro a w' ⟨secret, suFrom, hmoved⟩
    exact .pure ⟨hmoved.good, .of_rewriting hlinked hmoved.steps (fun _ _ h => h.toRewritten)
      fun _ _ h hself => .inl (h.selfSwitching hself)⟩
  | bulkCreateAccounts payload policy =>
    have rewritten {r : Except Error Reply} {w' : World σ}
        (h : ∃ secret, Moved good (Account.Rewritten secret none) w.store w'.store) :
        (bulkCreateAccounts payload policy).Leaves good w.store r w' := by
      obtain ⟨secret, hmoved⟩ := h
      exact ⟨hmoved.good, .of_rewriting hlinked hmoved.steps (fun _ _ h => h)
        fun _ _ h hself => (h.selfSwitching hself).imp_right nofun⟩
    exact .bind ((bulkCreateAccounts_moved L hgood payload policy).mono
      (fun _ _ h => .pure (rewritten h)) fun _ _ h => rewritten h)
  | createTemplate payload org =>
    refine returns (fun _ h => h) ?_
    exact (createTemplate_aside L hgood payload org).followed fun _ _ h =>
      .pure (leaves_of_same hlinked h)
  | deleteTemplate id =>
    refine returns (fun _ h => h) ?_
    exact (deleteTemplate_aside L hgood id).followed fun _ _ h => .pure (leaves_of_same hlinked h)

end Service

end Custody
