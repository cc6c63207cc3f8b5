import Custody.Bulk
import Custody.Proofs.Store.Accounts

/-!
The report of a bulk is complete and true. Each target has its entry, each entry tells what the step
of its target did to the store that the steps before it had left, and the order of the report is a
stable one.
-/
namespace Custody.Bulk

open Store

/-- Created, updated, skipped and failed entries, each in the order of the targets. -/
def ordered (entries : List Entry) : List Entry :=
  [State.created, .updated, .skipped, .error].flatMap fun s => entries.filter (·.state = s)

theorem ordered_cons {e : Entry} {rest : List Entry}
    (h : ∀ b ∈ rest, b.state.rank ≤ e.state.rank) : ordered (e :: rest) = e :: ordered rest := by
  have above (s : State) (hs : e.state.rank < s.rank) : rest.filter (·.state = s) = [] := by
    refine List.filter_eq_nil_iff.mpr fun b hb heq => ?_
    have hle := h b hb
    rw [of_decide_eq_true heq] at hle
    omega
  unfold ordered
  cases he : e.state <;> rw [he] at above
  case created => simp [he]
  case updated => simp [he, above .created (by decide)]
  case skipped => simp [he, above .created (by decide), above .updated (by decide)]
  case error =>
    simp [he, above .created (by decide), above .updated (by decide), above .skipped (by decide)]

theorem ordered_of_pairwise {entries : List Entry}
    (h : entries.Pairwise fun a b => b.state.rank ≤ a.state.rank) : ordered entries = entries := by
  induction entries with
  | nil => rfl
  | cons e rest ih =>
    obtain ⟨he, hrest⟩ := List.pairwise_cons.mp h
    rw [ordered_cons he, ih hrest]

theorem filter_arrange (entries : List Entry) (s : State) :
    (arrange entries).filter (·.state = s) = entries.filter (·.state = s) := by
  have hsorted : (entries.filter (·.state = s)).Pairwise
      fun a b => decide (b.state.rank ≤ a.state.rank) = true := by
    refine List.pairwise_of_forall_mem_list fun a ha b hb => ?_
    have ha := (List.mem_filter.mp ha).2
    have hb := (List.mem_filter.mp hb).2
    simp_all
  have hsub : (entries.filter (·.state = s)).Sublist (arrange entries) :=
    List.sublist_mergeSort (by simp; omega) (by simp; omega) hsorted List.filter_sublist
  have hsub' := hsub.filter (·.state = s)
  rw [List.filter_filter] at hsub'
  simp only [Bool.and_self] at hsub'
  refine (hsub'.eq_of_length ?_).symm
  exact (((List.mergeSort_perm entries _).filter _).length_eq).symm

theorem arrange_eq (entries : List Entry) : arrange entries = ordered entries := by
  have hsorted : (arrange entries).Pairwise fun a b => b.state.rank ≤ a.state.rank := by
    refine (List.pairwise_mergeSort ?_ ?_ entries).imp of_decide_eq_true
    · simp; omega
    · simp; omega
  rw [← ordered_of_pairwise hsorted]
  unfold ordered
  simp only [filter_arrange]

theorem conclude_eq (policy : Policy) (entries : List Entry) : conclude policy entries =
    if policy = .error ∧ entries.filter (·.state = .error) ≠ [] then
      .error (.bulkFailed (entries.filter (·.state = .error)))
    else .ok (ordered entries) := by
  unfold conclude
  dsimp only
  rw [filter_arrange, arrange_eq]

def upcoming (supply : Supply) (n : Nat) : List Draw :=
  (List.range' supply.used n).map supply.draws

theorem mapM_draw {σ : Type} (targets : List Target) (w : World σ) :
    (targets.mapM fun t => do return (t, ← Run.draw) : Run σ _) w =
      (.ok (targets.zip (upcoming w.supply targets.length)),
        { w with supply := { w.supply with used := w.supply.used + targets.length } }) := by
  induction targets generalizing w with
  | nil => rfl
  | cons t rest ih =>
    rw [List.mapM_cons]
    refine (Run.bind_of_ok (a := (t, w.supply.draws w.supply.used)) rfl _).trans ?_
    refine (Run.bind_of_ok (ih _) _).trans ?_
    simp only [upcoming, List.length_cons, List.range'_succ, List.map_cons, List.zip_cons_cons,
      Nat.add_assoc, Nat.add_comm 1]
    rfl

variable {σ : Type} [Store σ]

/-- What an entry tells of the step on its target, from the store before it to the store after.
Dates are stored as `dated` has them. -/
structure Entry.Truthful (dated : Time.Instant → Time.Instant) (c : Candidate) (target : Target)
    (d : Draw) (s s' : σ) (e : Entry) : Prop where
  asset : e.asset = target.assetId
  changed : e.changed = true ↔ e.state = .created ∨ e.state = .updated
  created : e.state = .created → ∃ id a, e.account = some id ∧ account? s id = none ∧
    account? s' id = some a ∧ a.hasSlot target.assetId c.username c.secretType
  updated : e.state = .updated → ∃ id old new name, e.account = some id ∧
    account? s id = some old ∧ old.hasSlot target.assetId c.username c.secretType ∧
    account? s' id = some new ∧ (name = c.name ∨ name = c.name ++ "_" ++ d.token) ∧
    { c with name := name }.Overwrites (dated d.now) old new
  skipped : e.state = .skipped → s' = s ∧ ∃ id a, e.account = some id ∧
    account? s id = some a ∧ a.hasSlot target.assetId c.username c.secretType
  failed : e.state = .error → s' = s ∧ e.account = none
  unsupported : c.secretType ∉ target.secretTypes → e.state = .error
  frame : ∀ id, e.account ≠ some id → account? s' id = account? s id
  others : ∀ id a, a.assetId ≠ target.assetId →
    (account? s' id = some a ↔ account? s id = some a)

/-- The steps of a bulk, each from the store that the one before has left. -/
inductive Course (dated : Time.Instant → Time.Instant) (c : Candidate) (policy : Policy) :
    σ → List (Target × Draw) → List Entry → σ → Prop
  | done (s : σ) : Course dated c policy s [] [] s
  | step {s s' s'' : σ} {target : Target} {d : Draw} {e : Entry} {rest : List (Target × Draw)}
    {entries : List Entry} :
    (∀ supply, Bulk.step c policy target d ⟨s, supply⟩ = (.ok e, ⟨s', supply⟩)) →
    e.Truthful dated c target d s s' → Course dated c policy s' rest entries s'' →
    Course dated c policy s ((target, d) :: rest) (e :: entries) s''

theorem others_of_frame {s s' : σ} {id asset : String}
    (hframe : ∀ i, i ≠ id → account? s' i = account? s i)
    (hbefore : ∀ a, account? s id = some a → a.assetId = asset)
    (hafter : ∀ a, account? s' id = some a → a.assetId = asset) (i : String) (a : Account)
    (ha : a.assetId ≠ asset) : account? s' i = some a ↔ account? s i = some a := by
  by_cases hi : i = id
  · subst hi
    exact iff_of_false (fun h => ha (hafter a h)) fun h => ha (hbefore a h)
  · rw [hframe i hi]

theorem failed_truthful (dated : Time.Instant → Time.Instant) (c : Candidate) (target : Target)
    (d : Draw) (s : σ) (message : String) :
    (Entry.failed target.assetId message).Truthful dated c target d s s where
  asset := rfl
  changed := by simp [Entry.failed]
  created := nofun
  updated := nofun
  skipped := nofun
  failed _ := ⟨rfl, rfl⟩
  unsupported _ := rfl
  frame _ _ := rfl
  others _ _ _ := .rfl

def told (asset : String) : Except Error (Account × Outcome) → Entry
  | .ok (a, o) => .done asset o a.id
  | .error e => .failed asset e.message

theorem told_asset (asset : String) (r : Except Error (Account × Outcome)) :
    (told asset r).asset = asset := by
  cases r <;> rfl

/-- A refused name is tried once more, and the last attempt at the asset is what is told. -/
theorem createFor_eq (c : Candidate) (policy : Policy) (d : Draw) :
    (createFor c policy d : Run σ Entry) = attempt c policy d.id d.now >>= fun first =>
      (match first with
        | .error e =>
          if e.isDuplicate then
            attempt { c with name := c.name ++ "_" ++ d.token } policy d.spare d.now
          else pure first
        | .ok _ => pure first) >>= fun last => pure (told c.assetId last) := by
  simp only [← Naming.suffixed_eq]
  refine bind_congr fun first => ?_
  cases first with
  | ok done => rfl
  | error e =>
    dsimp only
    split
    · exact bind_congr fun last => by cases last <;> rfl
    · rfl

theorem told_truthful {c : Candidate} {target : Target} {d : Draw}
    {dated : Time.Instant → Time.Instant} {name id : String} {s s' : σ}
    {r : Except Error (Account × Outcome)} (htype : c.secretType ∈ target.secretTypes)
    (hname : name = c.name ∨ name = c.name ++ "_" ++ d.token)
    (h : Reconciled dated ({ c with name := name }.forAsset target.assetId) id d.now s s' r) :
    (told target.assetId r).Truthful dated c target d s s' := by
  cases h with
  | created hfree hafter =>
    have hnew := hafter id
    rw [if_pos rfl] at hnew
    have hframe (i : String) (hi : i ≠ id) : account? s' i = account? s i := by
      rw [hafter, if_neg hi]
    exact {
      asset := rfl
      changed := iff_of_true rfl (.inl rfl)
      created := fun _ => ⟨id, _, rfl, hfree, hnew, Account.hasSlot_iff.mpr ⟨rfl, rfl, rfl⟩⟩
      updated := nofun
      skipped := nofun
      failed := nofun
      unsupported := fun h => absurd htype h
      frame := fun i hi => hframe i fun heq => hi (congrArg some heq.symm)
      others := others_of_frame hframe (fun a ha => nomatch hfree.symm.trans ha) fun a ha => by
        obtain rfl := Option.some.inj (hnew.symm.trans ha)
        rfl }
  | updated old hold hslot hafter =>
    have hwrites := ({ c with name := name }.forAsset target.assetId).applyTo_overwrites old
    have hnew := hafter old.id
    rw [if_pos rfl] at hnew
    have hframe (i : String) (hi : i ≠ old.id) : account? s' i = account? s i := by
      rw [hafter, if_neg hi]
    have hasset := (Account.hasSlot_iff.mp hslot).1
    exact {
      asset := rfl
      changed := iff_of_true rfl (.inr rfl)
      created := nofun
      updated := fun _ => ⟨old.id, old, _, name, congrArg some (hwrites d.now).id, hold, hslot,
        hnew, hname, { hwrites (dated d.now) with }⟩
      skipped := nofun
      failed := nofun
      unsupported := fun h => absurd htype h
      frame := fun i hi => hframe i fun heq =>
        hi (congrArg some ((hwrites d.now).id.trans heq.symm))
      others := others_of_frame hframe
        (fun a ha => by rwa [← Option.some.inj (hold.symm.trans ha)]) fun a ha => by
          rw [← Option.some.inj (hnew.symm.trans ha)]
          exact (hwrites (dated d.now)).assetId.trans hasset }
  | skipped old hold hslot =>
    exact {
      asset := rfl
      changed := by simp [told, Entry.done, Outcome.changed, State.ofOutcome]
      created := nofun
      updated := nofun
      skipped := fun _ => ⟨rfl, old.id, old, rfl, hold, hslot⟩
      failed := nofun
      unsupported := fun h => absurd htype h
      frame := fun _ _ => rfl
      others := fun _ _ _ => .rfl }
  | failed e => exact failed_truthful dated c target d s e.message

section Steps

variable {good : σ → Prop} {dated : Time.Instant → Time.Instant}

theorem attempt_of_reconcile (hs : Seamless σ) {c : Candidate} {policy : Policy} {id : String}
    {now : Time.Instant} {w w' : World σ} {r : Except Error (Account × Outcome)}
    (h : c.reconcile .slot policy id now w = (r, w')) :
    attempt c policy id now w = (.ok r, w') := by
  rw [attempt, hs.reconcile, Run.caught, h]

theorem attempt_reconciled (hs : Seamless σ) (hb : Bookkeeping good dated) (c : Candidate)
    (policy : Policy) (id : String) (now : Time.Instant) {s : σ} (hgood : good s) :
    ∃ r s', good s' ∧ Reconciled dated c id now s s' r ∧
      ∀ supply, attempt c policy id now ⟨s, supply⟩ = (.ok r, ⟨s', supply⟩) := by
  obtain ⟨r, s', hgood', hr, hrun⟩ := hb.reconcile c policy id now hgood
  exact ⟨r, s', hgood', hr, fun supply => attempt_of_reconcile hs (hrun supply)⟩

theorem createFor_truthful (hs : Seamless σ) (hb : Bookkeeping good dated) (c : Candidate)
    (policy : Policy) {target : Target} (d : Draw) {s : σ} (hgood : good s)
    (htype : c.secretType ∈ target.secretTypes) :
    ∃ e s', good s' ∧ e.Truthful dated c target d s s' ∧ ∀ supply,
      createFor (c.forAsset target.assetId) policy d ⟨s, supply⟩ = (.ok e, ⟨s', supply⟩) := by
  -- A first attempt that was refused has left nothing, so the second starts from the same store.
  obtain ⟨r, s', hgood', hr, hrun⟩ :=
    attempt_reconciled hs hb (c.forAsset target.assetId) policy d.id d.now hgood
  simp only [createFor_eq]
  cases r with
  | ok done =>
    refine ⟨_, s', hgood', told_truthful htype (.inl rfl) hr, fun supply => ?_⟩
    exact Run.bind_of_ok (hrun supply) _
  | error e =>
    by_cases hdup : e.isDuplicate
    · cases hr
      obtain ⟨r, s', hgood', hr, hrun'⟩ := attempt_reconciled hs hb
        ({ c with name := c.name ++ "_" ++ d.token }.forAsset target.assetId) policy d.spare
        d.now hgood
      refine ⟨_, s', hgood', told_truthful htype (.inr rfl) hr, fun supply => ?_⟩
      refine (Run.bind_of_ok (hrun supply) _).trans ?_
      dsimp only
      rw [if_pos hdup]
      exact Run.bind_of_ok (hrun' supply) _
    · refine ⟨_, s', hgood', told_truthful htype (.inl rfl) hr, fun supply => ?_⟩
      refine (Run.bind_of_ok (hrun supply) _).trans ?_
      dsimp only
      rw [if_neg hdup]
      rfl

theorem step_truthful (hs : Seamless σ) (hb : Bookkeeping good dated) (c : Candidate)
    (policy : Policy) (target : Target) (d : Draw) {s : σ} (hgood : good s) :
    ∃ e s', good s' ∧ e.Truthful dated c target d s s' ∧
      ∀ supply, step c policy target d ⟨s, supply⟩ = (.ok e, ⟨s', supply⟩) := by
  unfold step
  by_cases htype : c.secretType ∈ target.secretTypes
  · simp only [if_pos htype]
    exact createFor_truthful hs hb c policy d hgood htype
  · simp only [if_neg htype]
    exact ⟨_, s, hgood, failed_truthful dated c target d s _, fun supply => rfl⟩

theorem mapM_step_course (hs : Seamless σ) (hb : Bookkeeping good dated) (c : Candidate)
    (policy : Policy) (targets : List (Target × Draw)) {s : σ} (hgood : good s) :
    ∃ entries s', Course dated c policy s targets entries s' ∧ ∀ supply,
      (targets.mapM fun (target, d) => step c policy target d) ⟨s, supply⟩ =
        (.ok entries, ⟨s', supply⟩) := by
  induction targets generalizing s with
  | nil => exact ⟨[], s, .done s, fun _ => rfl⟩
  | cons td rest ih =>
    obtain ⟨e, s', hgood', htrue, hrun⟩ := step_truthful hs hb c policy td.1 td.2 hgood
    obtain ⟨entries, s'', hcourse, hrest⟩ := ih hgood'
    refine ⟨e :: entries, s'', .step hrun htrue hcourse, fun supply => ?_⟩
    rw [List.mapM_cons]
    refine (Run.bind_of_ok (hrun supply) _).trans ?_
    exact Run.bind_of_ok (hrest supply) _

end Steps

section Course

variable {dated : Time.Instant → Time.Instant} {c : Candidate} {policy : Policy}
  {targets : List (Target × Draw)} {entries : List Entry} {s s' : σ}

theorem Course.length_eq (h : Course dated c policy s targets entries s') :
    entries.length = targets.length := by
  induction h with
  | done s => rfl
  | step _ _ _ ih => exact congrArg (· + 1) ih

theorem Entry.Truthful.keeps_slot {target : Target} {d : Draw} {e : Entry}
    (h : e.Truthful dated c target d s s') {id asset : String} {a : Account}
    (ha : account? s id = some a) (hslot : a.hasSlot asset c.username c.secretType) :
    ∃ b, account? s' id = some b ∧ b.hasSlot asset c.username c.secretType := by
  by_cases hid : e.account = some id
  · cases he : e.state with
    | created =>
      obtain ⟨i, _, hi, hfree, _⟩ := h.created he
      obtain rfl := Option.some.inj (hi.symm.trans hid)
      exact nomatch hfree.symm.trans ha
    | updated =>
      obtain ⟨i, old, new, name, hi, hold, _, hnew, _, hwrites⟩ := h.updated he
      obtain rfl := Option.some.inj (hi.symm.trans hid)
      obtain rfl := Option.some.inj (hold.symm.trans ha)
      have hasset := (Account.hasSlot_iff.mp hslot).1
      exact ⟨new, hnew, Account.hasSlot_iff.mpr
        ⟨hwrites.assetId.trans hasset, hwrites.username, hwrites.secretType⟩⟩
    | skipped => exact ⟨a, (h.skipped he).1 ▸ ha, hslot⟩
    | error => exact nomatch (h.failed he).2.symm.trans hid
  · exact ⟨a, (h.frame id hid).trans ha, hslot⟩

theorem Course.keeps_slot (h : Course dated c policy s targets entries s') {id asset : String}
    {a : Account} (ha : account? s id = some a)
    (hslot : a.hasSlot asset c.username c.secretType) :
    ∃ b, account? s' id = some b ∧ b.hasSlot asset c.username c.secretType := by
  induction h generalizing a with
  | done s => exact ⟨a, ha, hslot⟩
  | step _ htrue _ ih =>
    obtain ⟨b, hb, hslot⟩ := htrue.keeps_slot ha hslot
    exact ih hb hslot

theorem Course.committed (h : Course dated c policy s targets entries s') {e : Entry}
    (he : e ∈ entries) (hstate : e.state ≠ .error) : ∃ id a, e.account = some id ∧
      account? s' id = some a ∧ a.hasSlot e.asset c.username c.secretType := by
  induction h with
  | done s => cases he
  | @step s s' s'' target d e' rest entries _ htrue hrest ih =>
    rcases List.mem_cons.mp he with rfl | he
    · have hstored : ∃ id a, e.account = some id ∧ account? s' id = some a ∧
          a.hasSlot e.asset c.username c.secretType := by
        rw [htrue.asset]
        cases hs : e.state with
        | created =>
          obtain ⟨id, a, hid, _, ha, hslot⟩ := htrue.created hs
          exact ⟨id, a, hid, ha, hslot⟩
        | updated =>
          obtain ⟨id, old, _, _, hid, hold, hslot, -⟩ := htrue.updated hs
          obtain ⟨b, hb, hslot⟩ := htrue.keeps_slot hold hslot
          exact ⟨id, b, hid, hb, hslot⟩
        | skipped =>
          obtain ⟨rfl, id, a, hid, ha, hslot⟩ := htrue.skipped hs
          exact ⟨id, a, hid, ha, hslot⟩
        | error => exact absurd hs hstate
      obtain ⟨id, a, hid, ha, hslot⟩ := hstored
      obtain ⟨b, hb, hslot⟩ := hrest.keeps_slot ha hslot
      exact ⟨id, b, hid, hb, hslot⟩
    · exact ih he

theorem Entry.Truthful.listed {target : Target} {d : Draw} {e : Entry}
    (h : e.Truthful dated c target d s s') {id : String} (hid : account? s' id ≠ account? s id) :
    e.changed = true ∧ e.account = some id := by
  have haccount : e.account = some id := not_not.mp fun hne => hid (h.frame id hne)
  refine ⟨h.changed.mpr ?_, haccount⟩
  cases hs : e.state with
  | created => exact .inl rfl
  | updated => exact .inr rfl
  | skipped => exact absurd (by rw [(h.skipped hs).1]) hid
  | error => exact absurd (by rw [(h.failed hs).1]) hid

theorem Course.listed (h : Course dated c policy s targets entries s') {id : String}
    (hid : account? s' id ≠ account? s id) :
    ∃ e ∈ entries, e.changed = true ∧ e.account = some id := by
  induction h with
  | done s => exact absurd rfl hid
  | @step s s' s'' target d e rest entries _ htrue _ ih =>
    by_cases hstep : account? s' id = account? s id
    · obtain ⟨e', he', hlisted⟩ := ih (hstep ▸ hid)
      exact ⟨e', .tail _ he', hlisted⟩
    · exact ⟨e, .head _, htrue.listed hstep⟩

theorem Course.changed_iff (h : Course dated c policy s targets entries s') {e : Entry}
    (he : e ∈ entries) : e.changed = true ↔ e.state = .created ∨ e.state = .updated := by
  induction h with
  | done s => cases he
  | step _ htrue _ ih =>
    rcases List.mem_cons.mp he with rfl | he
    · exact htrue.changed
    · exact ih he

theorem mem_ordered {e : Entry} : e ∈ ordered entries ↔ e ∈ entries := by
  simp only [ordered, List.mem_flatMap, List.mem_filter, decide_eq_true_iff]
  constructor
  · rintro ⟨_, _, he, _⟩
    exact he
  · intro he
    refine ⟨e.state, ?_, he, rfl⟩
    cases e.state <;> simp

end Course

/-- A bulk runs its course over the targets, one entry for each, and reports all of it in order, or
under the error policy what failed in it, if anything did. The accounts of the entries that did not
fail are stored in either case. -/
def Reported (dated : Time.Instant → Time.Instant) (c : Candidate) (targets : List Target)
    (policy : Policy) (w : World σ) : Prop :=
  ∃ entries s',
    Course dated c policy w.store (targets.zip (upcoming w.supply targets.length)) entries s' ∧
    entries.length = targets.length ∧
    (∀ e ∈ entries, e.state ≠ .error → ∃ id a, e.account = some id ∧
      account? s' id = some a ∧ a.hasSlot e.asset c.username c.secretType) ∧
    createDrawing c targets policy w =
      (if policy = .error ∧ entries.filter (·.state = .error) ≠ [] then
        .error (.bulkFailed (entries.filter (·.state = .error)))
      else .ok (ordered entries),
      ⟨s', { w.supply with used := w.supply.used + targets.length }⟩)

theorem reported_of_bookkeeping {good : σ → Prop} {dated : Time.Instant → Time.Instant}
    (hs : Seamless σ) (hb : Bookkeeping good dated) (c : Candidate) (targets : List Target)
    (policy : Policy) (w : World σ) (hgood : good w.store) :
    Reported dated c targets policy w := by
  let drawn := targets.zip (upcoming w.supply targets.length)
  obtain ⟨entries, s', hcourse, hrun⟩ := mapM_step_course hs hb c policy drawn hgood
  have hlength : drawn.length = targets.length := by simp [drawn, upcoming]
  refine ⟨entries, s', hcourse, hcourse.length_eq.trans hlength, fun e => hcourse.committed, ?_⟩
  rw [createDrawing, Run.bind_of_ok (mapM_draw targets w), create, ← conclude_eq]
  exact Run.bind_of_ok (hrun _) _

/-- The report of a bulk is complete and true on every store that keeps its records apart by their
ids, as all reachable stores do. -/
theorem createDrawing_reported (c : Candidate) (targets : List Target) (policy : Policy) :
    (∀ w : World Memory, w.store.records.Filed → Reported id c targets policy w) ∧
      ∀ w : World Relational, w.store.tables.Keys →
        Reported (Tables.readDate w.store.clock) c targets policy w :=
  ⟨reported_of_bookkeeping Memory.seamless Memory.bookkeeping c targets policy, fun w h =>
    reported_of_bookkeeping Relational.seamless (Relational.bookkeeping w.store.clock) c targets
      policy w ⟨h, rfl⟩⟩

def hostCalls : List Call :=
  [.insertPlatform ⟨"linux", "Linux", .host, .linux, .utf8, false, false, none, .off, [], [], "",
      ⟨0, 0⟩⟩,
    .insertAsset ⟨"web", "web", "10.0.0.1", "linux", .host, .linux, none, true, "", [], [], [],
      ⟨0, 0⟩⟩]

def rootCandidate : Candidate :=
  ⟨"", "root", "root", .password, some "secret", none, none, none, none, .manual, none⟩

/-- The asset of `hostCalls` with an account that the candidate fits, under an earlier secret. -/
def heldCalls : List Call :=
  hostCalls ++
    [.insertAccount ⟨"held", "web", "root", "root", some "earlier", .password, .manual, none, 1,
      false, true, "", none, ⟨0, 0⟩, ⟨0, 0⟩⟩]

def repeatedTargets : List Target :=
  [⟨"web", .ofList [.password]⟩, ⟨"web", .ofList [.password]⟩, ⟨"web", .ofList [.token]⟩]

def countingSupply : Supply :=
  ⟨fun n => ⟨.ofList (List.replicate (n + 1) 'i'), .ofList (List.replicate (n + 1) 's'), "token",
    ⟨0, 0⟩⟩, 0⟩

/-- On a store without accounts the first target gets one, the second meets it and the third has no
place for it. Where an account with another secret is stored, both targets rewrite it, and its
version counts the new secret once. -/
theorem createDrawing_reported_repeated :
    let start (calls : List Call) : World Memory :=
      ⟨calls.foldl (fun m c => (c.run m).2) Memory.empty, countingSupply⟩
    let opened (calls : List Call) : World Relational :=
      ⟨calls.foldl (fun s c => (c.run s).2) (Relational.empty ⟨0, 0⟩), countingSupply⟩
    let written (accounts : List Account) := accounts.map fun a => (a.id, a.secret, a.version)
    (Reported id rootCandidate repeatedTargets .error (start hostCalls) ∧
      written (createDrawing rootCandidate repeatedTargets .error
        (start hostCalls)).2.store.records.accounts.values = [("i", some "secret", 1)]) ∧
    (Reported id rootCandidate repeatedTargets .update (start heldCalls) ∧
      written (createDrawing rootCandidate repeatedTargets .update
        (start heldCalls)).2.store.records.accounts.values = [("held", some "secret", 2)]) ∧
    (Reported (Tables.readDate (opened hostCalls).store.clock) rootCandidate repeatedTargets .error
        (opened hostCalls) ∧
      written (createDrawing rootCandidate repeatedTargets .error
        (opened hostCalls)).2.store.tables.accounts = [("i", some "secret", 1)]) ∧
    Reported (Tables.readDate (opened heldCalls).store.clock) rootCandidate repeatedTargets .update
        (opened heldCalls) ∧
      written (createDrawing rootCandidate repeatedTargets .update
        (opened heldCalls)).2.store.tables.accounts = [("held", some "secret", 2)] := by
  have hm (calls : List Call) := (Reachable.start : Reachable Memory.empty [] _).calls calls
  have hs (calls : List Call) :=
    (Reachable.start : Reachable (Relational.empty ⟨0, 0⟩) [] _).calls calls
  have creates := createDrawing_reported rootCandidate repeatedTargets .error
  have updates := createDrawing_reported rootCandidate repeatedTargets .update
  exact ⟨⟨creates.1 _ (filed_of_reachable (hm _)), by decide +kernel⟩,
    ⟨updates.1 _ (filed_of_reachable (hm _)), by decide +kernel⟩,
    ⟨creates.2 _ (keys_of_reachable (hs _)), by decide +kernel⟩,
    updates.2 _ (keys_of_reachable (hs _)), by decide +kernel⟩

end Custody.Bulk
