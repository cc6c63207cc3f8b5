import Custody.Proofs.Service.Agreement
import Custody.Proofs.Service.Layers

/-!
What an update makes of an account. Its fields are those of the payload over the template, or stay
as they were; what identifies it stays whatever either says. A payload that passes the checks fails
only over another account of the asset, and nothing but the one account is another one afterwards.
-/
namespace Custody

open Run Store

theorem Naming.choose_own {σ : Type} [Store σ] (explicit : Option String) (a : Account)
    (token : String) (s : σ) : choose explicit a.name a.assetId (some a) token s =
      (explicit.filter (· ≠ "")).getD a.name := by
  unfold choose
  cases explicit.filter (· ≠ "") with
  | some name => rfl
  | none => simp

namespace Service

/-- The members of a payload that an update does not heed. -/
def unheeded : List String := ["username", "asset"]

/-- The account that an update at this time makes of another by a payload over a template. -/
structure Edits (payload : Json.Object) (t : Option Template) (now : Time.Instant)
    (old new : Account) : Prop where
  id : new.id = old.id
  assetId : new.assetId = old.assetId
  username : new.username = old.username
  source : new.source = old.source
  dateCreated : new.dateCreated = old.dateCreated
  sourceId : new.sourceId = none
  name : Blank (layered payload t "name") ∧ new.name = old.name ∨
    layered payload t "name" = .text new.name ∧ new.name ≠ ""
  secret : ∃ given, layered payload t "secret" = .ofOption .text given ∧
    new.secret = given.or old.secret
  version : new.version = if new.secret = old.secret then old.version else old.version + 1
  secretType : Says Choice.toJson (layered payload t "secret_type") old.secretType new.secretType
  privileged : Says .bool (layered payload t "privileged") old.privileged new.privileged
  isActive : Says .bool (layered payload t "is_active") old.isActive new.isActive
  comment : Says .text (layered payload t "comment") old.comment new.comment
  suFrom : payload.get? "su_from" = none ∧ new.suFrom = old.suFrom ∨
    payload.get? "su_from" = some (.ofOption .text new.suFrom)
  dateUpdated : new.dateUpdated = now

section Edits

variable {payload : Json.Object} {t : Option Template} {now : Time.Instant} {old new new' : Account}

theorem Edits.unique (h : Edits payload t now old new) (h' : Edits payload t now old new') :
    new = new' := by
  have hname : new.name = new'.name := by
    rcases h.name with ⟨hblank, hkept⟩ | ⟨hgiven, hne⟩
    · rcases h'.name with ⟨-, hkept'⟩ | ⟨hgiven', hne'⟩
      · exact hkept.trans hkept'.symm
      · exact absurd hblank (not_blank hgiven' hne')
    · rcases h'.name with ⟨hblank, -⟩ | ⟨hgiven', -⟩
      · exact absurd hblank (not_blank hgiven hne)
      · exact Json.Value.text.inj (hgiven.symm.trans hgiven')
  have hsecret : new.secret = new'.secret := by
    obtain ⟨given, hgiven, hnew⟩ := h.secret
    obtain ⟨given', hgiven', hnew'⟩ := h'.secret
    rw [hnew, hnew', legible_text.ofOption_injective (hgiven.symm.trans hgiven')]
  have hsuFrom : new.suFrom = new'.suFrom := by
    rcases h.suFrom with ⟨hnone, hkept⟩ | hgiven
    · rcases h'.suFrom with ⟨-, hkept'⟩ | hgiven'
      · exact hkept.trans hkept'.symm
      · cases hnone.symm.trans hgiven'
    · rcases h'.suFrom with ⟨hnone, -⟩ | hgiven'
      · cases hnone.symm.trans hgiven
      · exact legible_text.ofOption_injective (Option.some.inj (hgiven.symm.trans hgiven'))
  have hversion : new.version = new'.version := by rw [h.version, h'.version, hsecret]
  have hid := h.id.trans h'.id.symm
  have hassetId := h.assetId.trans h'.assetId.symm
  have husername := h.username.trans h'.username.symm
  have hsource := h.source.trans h'.source.symm
  have hsourceId := h.sourceId.trans h'.sourceId.symm
  have hcreated := h.dateCreated.trans h'.dateCreated.symm
  have hupdated := h.dateUpdated.trans h'.dateUpdated.symm
  have htype := h.secretType.unique legible_choice h'.secretType
  have hprivileged := h.privileged.unique legible_bool h'.privileged
  have hactive := h.isActive.unique legible_bool h'.isActive
  have hcomment := h.comment.unique legible_text h'.comment
  cases new
  cases new'
  simp only [Account.mk.injEq]
  exact ⟨hid, hassetId, hname, husername, hsecret, htype, hsource, hsourceId, hversion,
    hprivileged, hactive, hcomment, hsuFrom, hcreated, hupdated⟩

end Edits

structure Remains (payload request : Json.Object) : Prop where
  same : ∀ key ∉ controlNames, key ∉ unheeded → request.get? key = payload.get? key
  none : ∀ key ∈ unheeded, request.get? key = none

theorem remains_of_take {payload rest : Json.Object} {controls : Controls}
    (htake : Controls.take payload = .ok (controls, rest)) :
    Remains payload ((rest.erase "username").erase "asset") where
  same key hkey hheeded := by
    simp only [unheeded, List.mem_cons, List.not_mem_nil, or_false, not_or] at hheeded
    rw [Keyed.get?_erase_of_ne _ hheeded.2, Keyed.get?_erase_of_ne _ hheeded.1,
      get?_take htake hkey]
  none key hkey := by
    simp only [unheeded, List.mem_cons, List.not_mem_nil, or_false] at hkey
    rcases hkey with rfl | rfl
    · rw [Keyed.get?_erase_of_ne _ (by decide), Keyed.get?_erase_self]
    · exact Keyed.get?_erase_self _ _

section Remains

variable {payload request : Json.Object} {t : Option Template}

theorem Remains.layered (h : Remains payload request) {key : String} (hkey : key ∉ controlNames)
    (hheeded : key ∉ unheeded) : layered request t key = Service.layered payload t key :=
  layered_congr (h.same key hkey hheeded) t

theorem Remains.check_iff (h : Remains payload request) :
    Field.check Field.accountSchema (laid request t) = .ok () ↔
      ∀ spec ∈ Field.accountSchema, spec.name ∉ unheeded →
        spec.kind.accepts (Service.layered payload t spec.name) := by
  -- What an update does not heed is of its kind, since only a template can say it.
  have hcontrols : ∀ spec ∈ Field.accountSchema, spec.name ∉ controlNames := by decide
  rw [check_laid_iff]
  refine forall₂_congr fun spec hspec => ?_
  by_cases hheeded : spec.name ∈ unheeded
  · have hunheeded : ∀ spec ∈ Field.accountSchema, spec.name ∈ unheeded →
        spec = ⟨"username", .text⟩ ∨ spec = ⟨"asset", .reference⟩ := by decide
    have hnone := h.none spec.name hheeded
    refine iff_of_true ?_ fun hnot => absurd hheeded hnot
    unfold Service.layered
    rw [hnone]
    rcases hunheeded spec hspec hheeded with rfl | rfl <;> cases t <;> rfl
  · rw [h.layered (hcontrols spec hspec) hheeded]
    exact (imp_iff_right hheeded).symm

end Remains

def edited (values : Json.Object) (type : Option SecretType) (now : Time.Instant) (old : Account) :
    Account :=
  { applyValues values type old with
    name := ((text? values "name").filter (· ≠ "")).getD old.name
    sourceId := none, dateUpdated := now }

section Edited

variable {payload request : Json.Object} {t : Option Template} {type : Option SecretType}

theorem edited_suFrom (h : Remains payload request)
    (hkinds : Field.check Field.accountSchema (laid request t) = .ok ())
    (type : Option SecretType) (now : Time.Instant) (old : Account) :
    (laid request t).contains "su_from" = false ∧ payload.get? "su_from" = none ∧
        (edited (laid request t) type now old).suFrom = old.suFrom ∨
      (laid request t).contains "su_from" = true ∧ payload.get? "su_from" =
        some (.ofOption .text (edited (laid request t) type now old).suFrom) := by
  have hread : (laid request t).get? "su_from" = payload.get? "su_from" :=
    (get?_laid_of_plain (by decide)).trans (h.same _ (by decide) (by decide))
  have hgiven : (edited (laid request t) type now old).suFrom =
      if (laid request t).contains "su_from" then text? (laid request t) "su_from"
      else old.suFrom := by
    rw [edited, applyValues_eq]
  rw [hgiven, Keyed.contains, hread]
  cases hget : payload.get? "su_from" with
  | none => exact .inl ⟨rfl, rfl, rfl⟩
  | some v =>
    have hsaid := layered_text hkinds "su_from" .reference (by decide) (by decide)
    rw [h.layered (by decide) (by decide), Service.layered, hget] at hsaid
    exact .inr ⟨rfl, congrArg some hsaid⟩

theorem edited_suFrom_iff (h : Remains payload request)
    (hkinds : Field.check Field.accountSchema (laid request t) = .ok ())
    (type : Option SecretType) (now : Time.Instant) (old : Account) {other : String} :
    (laid request t).contains "su_from" = true ∧
        (edited (laid request t) type now old).suFrom = some other ↔
      payload.get? "su_from" = some (.text other) := by
  rcases edited_suFrom h hkinds type now old with ⟨habsent, hnone, -⟩ | ⟨hpresent, hgiven⟩
  · simp [habsent, hnone]
  · rw [hgiven, and_iff_right hpresent]
    cases (edited (laid request t) type now old).suFrom <;> simp [Json.Value.ofOption]

theorem edits_edited (h : Remains payload request)
    (hkinds : Field.check Field.accountSchema (laid request t) = .ok ())
    (htype : secretType? (laid request t) = .ok type) (now : Time.Instant) (old : Account) :
    Edits payload t now old (edited (laid request t) type now old) := by
  have text (key : String) (hspec : ⟨key, .text⟩ ∈ Field.accountSchema)
      (hkey : key ∉ controlNames ∧ key ∉ unheeded) :
      Service.layered payload t key = .ofOption .text (text? (laid request t) key) :=
    (h.layered hkey.1 hkey.2).symm.trans (layered_text hkinds key .text hspec (by decide))
  have flag (key : String) (hspec : ⟨key, .bool⟩ ∈ Field.accountSchema)
      (hkey : key ∉ controlNames ∧ key ∉ unheeded) :
      Service.layered payload t key = .ofOption .bool (flag? (laid request t) key) :=
    (h.layered hkey.1 hkey.2).symm.trans (layered_flag hkinds key hspec)
  have hsecret : Service.layered payload t "secret" =
      .ofOption .text (text? (laid request t) "secret") :=
    (h.layered (by decide) (by decide)).symm.trans
      (layered_text hkinds "secret" .secret (by decide) (by decide))
  have hchoice : Service.layered payload t "secret_type" = .ofOption Choice.toJson type :=
    (h.layered (by decide) (by decide)).symm.trans (layered_secretType hkinds htype)
  have hsuFrom := (edited_suFrom h hkinds type now old).imp And.right And.right
  unfold edited at hsuFrom ⊢
  rw [applyValues_eq] at hsuFrom ⊢
  refine {
    id := rfl, assetId := rfl, username := rfl, source := rfl, dateCreated := rfl, sourceId := rfl
    name := ?_, secret := ⟨_, hsecret, rfl⟩, version := rfl
    secretType := says_of_ofOption hchoice _
    privileged := says_of_ofOption (flag "privileged" (by decide) (by decide)) _
    isActive := says_of_ofOption (flag "is_active" (by decide) (by decide)) _
    comment := says_of_ofOption (text "comment" (by decide) (by decide)) _
    suFrom := hsuFrom, dateUpdated := rfl }
  dsimp only
  rcases blank_or_name (text "name" (by decide) (by decide)) with
    ⟨hblank, hnone⟩ | ⟨name, hgiven, hne, hname⟩
  · rw [hnone]
    exact .inl ⟨hblank, rfl⟩
  · rw [hname]
    exact .inr ⟨hgiven, hne⟩

end Edited

variable {σ : Type} [Store σ]

/-- The account that the payload names to switch from, if any, is another one of the asset. -/
def MaySwitch (s : σ) (payload : Json.Object) (old : Account) : Prop :=
  ∀ other, payload.get? "su_from" = some (.text other) →
    other ≠ old.id ∧ ∃ b, account? s other = some b ∧ b.assetId = old.assetId

/-- The payload passes the checks of an update of this account: its controls, the template that it
names, the kinds of its fields over that, the secret type, and the account to switch from. -/
structure Acceptable (s : σ) (payload : Json.Object) (old : Account) (t : Option Template) :
    Prop where
  controls : ∃ read, Controls.take payload = .ok read
  template : Underlies s payload t
  kinds : ∀ spec ∈ Field.accountSchema, spec.name ∉ unheeded →
    spec.kind.accepts (layered payload t spec.name)
  secretType : ∃ type : Option SecretType,
    layered payload t "secret_type" = .ofOption Choice.toJson type
  suFrom : MaySwitch s payload old

section Pipeline

variable {w : World σ} {payload : Json.Object} {old : Account}

theorem switching_ends {α : Type} {given : Bool} {suFrom self : Option String} {assetId : String}
    {rest : PUnit → Run σ α} {value : α → World σ → Prop} {error : Error → World σ → Prop}
    (hv : (∀ other, given = true ∧ suFrom = some other → self ≠ some other ∧
      ∃ a, account? w.store other = some a ∧ a.assetId = assetId) → Ends (rest ()) w value error)
    (he : ∀ e other, given = true ∧ suFrom = some other → ¬ (self ≠ some other ∧
      ∃ a, account? w.store other = some a ∧ a.assetId = assetId) → error e w) :
    Ends (if given = true then
      match suFrom with
      | some other => checkSuFrom other assetId self >>= rest
      | _ => rest ()
      else rest ()) w value error := by
  split
  · next hgiven =>
    cases suFrom with
    | none => exact hv (by simp)
    | some other =>
      refine .bind (checkSuFrom_ends _ _ _ (fun hself hfound => hv ?_) fun e hnot =>
        he e other ⟨hgiven, rfl⟩ hnot)
      rintro _ ⟨-, hother⟩
      cases hother
      exact ⟨hself, hfound⟩
  · next hgiven => exact hv fun _ h => absurd h.1 hgiven

theorem updateAccount_ends (hold : Stored w.store old)
    {value : Account → World σ → Prop} {error : Error → World σ → Prop}
    (hstop : ∀ e w', (∀ t, ¬ Acceptable w.store payload old t) → w'.store = w.store → error e w')
    (hstore : ∀ controls rest t new w', Controls.take payload = .ok (controls, rest) →
      Acceptable w.store payload old t →
      Edits payload t (w.supply.draws w.supply.used).now old new → w'.store = w.store →
      Ends (storeUpdate controls new (w.supply.draws w.supply.used).now) w' value error) :
    Ends (updateAccount old.id payload) w value error := by
  refine .bind (.of (fun ⟨controls, rest⟩ htake => ?taken) fun e hfailed =>
    hstop e w (fun t h => ?unread) rfl)
  case unread =>
    obtain ⟨read, hread⟩ := h.controls
    cases hread.symm.trans hfailed
  have hremains := remains_of_take htake
  refine .bind (withTemplate_laid htake _ (fun t ht => ?_) fun e hnone =>
    hstop e w (fun t h => hnone t h.template) rfl)
  have only {t' : Option Template} (h : Acceptable w.store payload old t') : t' = t :=
    h.template.unique ht
  refine .bind (.of (fun _ hkinds => ?checked) fun e hfailed =>
    hstop e w (fun t' h => ?mistyped) rfl)
  case mistyped =>
    obtain rfl := only h
    cases (hremains.check_iff.mpr h.kinds).symm.trans hfailed
  refine .bind (.ask (.bind ?_))
  rw [hold]
  refine .pure (.bind (.draw (.bind (.ask (.bind (.of (fun type htype => ?parsed) fun e hfailed =>
    hstop e _ (fun t' h => ?unparsed) rfl))))))
  case unparsed =>
    obtain rfl := only h
    obtain ⟨type, hsaid⟩ := h.secretType
    have hsaid := (hremains.layered (by decide) (by decide)).trans hsaid
    cases (secretType?_of_layered hkinds hsaid).symm.trans hfailed
  rw [Naming.choose_own]
  extract_lets given stored store supply
  have hsaid := (hremains.layered (by decide) (by decide)).symm.trans
    (layered_secretType hkinds htype)
  have hnamed (other : String) : _ ∧ given.suFrom = some other ↔ _ :=
    edited_suFrom_iff hremains hkinds type (w.supply.draws w.supply.used).now old
  apply switching_ends
  · intro hfound
    refine hstore controls rest t _ _ htake ?_ (edits_edited hremains hkinds htype _ old) rfl
    refine ⟨⟨_, htake⟩, ht, hremains.check_iff.mp hkinds, ⟨type, hsaid⟩, fun other hother => ?_⟩
    obtain ⟨hself, hfound⟩ := hfound other ((hnamed other).mpr hother)
    exact ⟨fun heq => hself (congrArg some heq.symm), hfound⟩
  · refine fun e other hgiven hnot => hstop e _ (fun t' h => hnot ?_) rfl
    obtain ⟨hne, hfound⟩ := h.suFrom other ((hnamed other).mp hgiven)
    exact ⟨fun heq => hne (Option.some.inj heq).symm, hfound⟩

end Pipeline

section Stores

variable {good : σ → Prop} {dated : Time.Instant → Time.Instant} {queue : σ → List Push}
  {kept : Push → Push} {s : σ} {w : World σ} {payload rest : Json.Object} {controls : Controls}
  {t : Option Template} {now : Time.Instant} {old new : Account}

theorem Acceptable.supplied (h : Acceptable s payload old t) (hnew : Edits payload t now old new) :
    new.suFrom = old.suFrom ∨ Supplied s new.suFrom := by
  refine hnew.suFrom.imp And.right fun hgiven other hother => ?_
  rw [hother] at hgiven
  obtain ⟨-, b, hb, -⟩ := h.suFrom other hgiven
  exact Option.isSome_of_eq_some hb

/-- The last stage of an update is decided by the rivals of the account that it stores. -/
theorem storeUpdate_ends (hd : Decided good dated) (hq : Queueing queue kept) (hs : good w.store)
    (hold : Stored w.store old) (htake : Controls.take payload = .ok (controls, rest))
    (h : Acceptable w.store payload old t) (hnew : Edits payload t now old new) :
    Ends (storeUpdate controls new now) w
      (fun a w' => a = new ∧ (∀ b, Stored w.store b → ¬ new.Rivals b) ∧
        account? w'.store = Function.update (account? w.store) old.id
          (some { new with dateUpdated := dated now }))
      fun e _ => (∃ b, Stored w.store b ∧ new.Rivals b) ∧ ∃ d, e = .duplicate d := by
  have hfound : account? w.store new.id = some old := hnew.id ▸ hold
  obtain ⟨hok, herror⟩ := hd.update hs hfound hnew.assetId (h.supplied hnew)
  unfold storeUpdate
  rw [hq.seamless.update]
  refine .bind (.write (fun _ s' hupd => ?_) fun e s' hupd => ?_)
  · have hfree := hok.mp (congrArg Prod.fst hupd)
    have hafter := hd.bookkeeping.update hs hfound hnew.assetId hnew.dateCreated hupd
    have hreread : dated old.dateCreated = old.dateCreated :=
      congrArg Account.dateCreated (hd.bookkeeping.reread hold hs)
    have hread : new.redated dated = { new with dateUpdated := dated now } := by
      rw [Account.redated, hnew.dateCreated, hreread, hnew.dateUpdated, ← hnew.dateCreated]
    refine .bind (pushIfAsked_queues hq htake _ _ fun w' _ hsame => .pure ⟨rfl, hfree, ?_⟩)
    rw [hsame, Accounts.eq_update hafter.2, ← hnew.id, hread]
  · refine ⟨?_, herror e (congrArg Prod.fst hupd)⟩
    by_contra hnone
    have hstored := hok.mpr fun b hb hrival => hnone ⟨b, hb, hrival⟩
    cases (congrArg Prod.fst hupd).symm.trans hstored

/-- The store is the same as before but for this account, and for a push at the end of the queue if
the payload asks for one. -/
structure Replaced (dated : Time.Instant → Time.Instant) (queue : σ → List Push)
    (kept : Push → Push) (payload : Json.Object) (now : Time.Instant) (new : Account) (s s' : σ) :
    Prop extends SameElsewhere s s' where
  account : account? s' =
    Function.update (account? s) new.id (some { new with dateUpdated := dated now })
  pushed : queue s' = queue s ++ (pushesFor payload [new.id]).map kept

structure Updated (dated : Time.Instant → Time.Instant) (queue : σ → List Push)
    (kept : Push → Push) (payload : Json.Object) (now : Time.Instant) (old : Account) (s : σ)
    (r : Except Error Account) (s' : σ) : Prop where
  done : ∀ new, r = .ok new → ∃ t, Acceptable s payload old t ∧ Edits payload t now old new ∧
    Replaced dated queue kept payload now new s s'
  decided : ∀ t, Acceptable s payload old t → ∃ new, Edits payload t now old new ∧
    ((∃ d, r = .error (.duplicate d)) ↔ ∃ b, Stored s b ∧ new.Rivals b) ∧
    ((∀ b, Stored s b → ¬ new.Rivals b) → r = .ok new)

theorem updateAccount_updated (hd : Decided good dated) (hq : Queueing queue kept)
    (hsame : Enclosing Call.OnAccounts fun w w' : World σ => SameElsewhere w.store w'.store)
    (hs : good w.store) (hold : Stored w.store old) {r : Except Error Account} {w' : World σ}
    (hrun : updateAccount old.id payload w = (r, w')) :
    Updated dated queue kept payload (w.supply.draws w.supply.used).now old w.store r w'.store := by
  generalize hnow : (w.supply.draws w.supply.used).now = now
  have hends : Ends (updateAccount old.id payload) w
      (fun new w' => (∀ b, Stored w.store b → ¬ new.Rivals b) ∧
        account? w'.store = Function.update (account? w.store) old.id
          (some { new with dateUpdated := dated now }) ∧
        ∃ t, Acceptable w.store payload old t ∧ Edits payload t now old new)
      fun e _ => ∀ t, Acceptable w.store payload old t → ∃ new, Edits payload t now old new ∧
        (∃ b, Stored w.store b ∧ new.Rivals b) ∧ ∃ d, e = .duplicate d := by
    refine updateAccount_ends hold (fun e w' hnone _ t h => absurd h (hnone t)) ?_
    rintro controls rest t new w' htake h hnew hsame
    rw [hnow] at hnew ⊢
    rw [← hsame] at hs hold h ⊢
    refine (storeUpdate_ends hd hq hs hold htake h hnew).mono ?_ ?_
    · rintro _ w'' ⟨rfl, hfree, hafter⟩
      exact ⟨hfree, hafter, t, h, hnew⟩
    · rintro e w'' hrefused t' h'
      obtain rfl := h.template.unique h'.template
      exact ⟨new, hnew, hrefused⟩
  cases r with
  | ok new =>
    obtain ⟨hfree, hafter, t, h, hnew⟩ := hends.of_value hrun
    have hpushed := (updateAccount_queues hq old.id payload w rfl).of_value hrun
    have helsewhere := (updateAccount_enclosing hsame (fun _ hc => hc) old.id payload).ends w
    refine ⟨fun _ hr => ?_, fun t' h' => ?_⟩
    · cases hr
      exact ⟨t, h, hnew,
        { helsewhere.of_value hrun with account := hnew.id ▸ hafter, pushed := hpushed }⟩
    · obtain rfl := h.template.unique h'.template
      exact ⟨new, hnew, iff_of_false (by simp) fun ⟨b, hb, hrival⟩ => hfree b hb hrival,
        fun _ => rfl⟩
  | error e =>
    refine ⟨fun _ hr => (by cases hr), fun t h => ?_⟩
    obtain ⟨new, hnew, hrival, d, rfl⟩ := hends.of_error hrun t h
    refine ⟨new, hnew, iff_of_true ⟨d, rfl⟩ hrival, fun hfree => ?_⟩
    obtain ⟨b, hb, hb'⟩ := hrival
    exact absurd hb' (hfree b hb)

end Stores

/-- Whatever calls a store has seen: an update writes its own account and no other record, and
leaves the account where it was. Once its payload has passed the checks, it fails as a duplicate if
and only if another account of the asset has the name or the slot that the account would take. -/
theorem updates_in_place :
    (∀ entries (w w' : World Memory) (payload : Json.Object) (old : Account)
      (r : Except Error Account), Reachable Memory.empty entries w.store → Stored w.store old →
      updateAccount old.id payload w = (r, w') →
      Updated id Memory.pushes id payload (w.supply.draws w.supply.used).now old w.store r
        w'.store) ∧
    (∀ clock entries (w w' : World Relational) (payload : Json.Object) (old : Account)
      (r : Except Error Account), Reachable (Relational.empty clock) entries w.store →
      Stored w.store old → updateAccount old.id payload w = (r, w') →
      Updated (Tables.readDate w.store.clock) Relational.queue Push.reread payload
        (w.supply.draws w.supply.used).now old w.store r w'.store) ∧
    ∀ payload t now old new new', Edits payload t now old new → Edits payload t now old new' →
      new = new' := by
  refine ⟨fun entries w w' payload old r hw hold hrun => ?_,
    fun clock entries w w' payload old r hw hold hrun => ?_, fun _ _ _ _ _ _ h h' => h.unique h'⟩
  · exact updateAccount_updated Memory.decided Memory.queueing Memory.enclosing_onAccounts
      (sound_of_reachable hw) hold hrun
  · exact updateAccount_updated (Relational.decided w.store.clock) Relational.queueing
      Relational.enclosing_onAccounts (Relational.kept_of_reachable hw) hold hrun

def withKey : List Operation := templated ++ [
  .createAccount [("asset", .text "ii"), ("name", .text "deploy"), ("secret_type", .text "ssh_key"),
    ("username", .text "root")] .error]

def keyMemory : World Memory := after withKey ⟨Memory.empty, countedDraws, 0⟩

def keyTables : World Relational := after withKey ⟨Relational.empty ⟨0, 0⟩, countedDraws, 0⟩

def keyHolder : Account :=
  { hostAccount with id := "iiiiii", name := "deploy", secretType := .sshKey }

def heedless : Json.Object :=
  [("asset", .text "elsewhere"), ("name", .text ""), ("push_now", .bool true),
    ("secret", .text "s3cret"), ("template", .text "iiiii"), ("username", .text "other")]

def heedlessAccount : Account :=
  { hostAccount with secret := some "s3cret", version := 2, privileged := true }

def toKey : Json.Object := [("secret_type", .text "ssh_key")]

theorem acceptable_toKey {σ : Type} [Store σ] (s : σ) : Acceptable s toKey hostAccount none where
  controls := ⟨_, rfl⟩
  template := .none (.inl rfl)
  kinds := by decide
  secretType := ⟨some .sshKey, rfl⟩
  suFrom := nofun

section Stores

variable {σ : Type} [Store σ] {dated : Time.Instant → Time.Instant} {queue : σ → List Push}
  {kept : Push → Push} {now : Time.Instant} {s s' : σ}

theorem Updated.heedless
    (h : Updated dated queue kept heedless now hostAccount s (.ok heedlessAccount) s')
    (htemplate : template? s "iiiii" = some baseTemplate) :
    Edits heedless (some baseTemplate) now hostAccount heedlessAccount ∧
      Replaced dated queue kept Service.heedless now heedlessAccount s s' := by
  obtain ⟨t, haccepted, hdone⟩ := h.done _ rfl
  obtain rfl := haccepted.template.unique (.some rfl (by decide) htemplate)
  exact hdone

theorem Updated.toKey {r : Except Error Account}
    (h : Updated dated queue kept toKey now hostAccount s r s') (hkey : Stored s keyHolder) :
    ∃ new, Edits toKey none now hostAccount new ∧ (∃ b, Stored s b ∧ new.Rivals b) ∧
      ∃ d, r = .error (.duplicate d) := by
  obtain ⟨new, hnew, hrefused, -⟩ := h.decided none (acceptable_toKey s)
  have htype : new.secretType = .sshKey := hnew.secretType.unique legible_choice (.inl rfl)
  have hslot : keyHolder.hasSlot new.assetId new.username new.secretType :=
    Account.hasSlot_iff.mpr ⟨hnew.assetId.symm, hnew.username.symm, htype.symm⟩
  have hother : keyHolder.id ≠ new.id := by
    rw [hnew.id]
    decide
  have hrival : ∃ b, Stored s b ∧ new.Rivals b := ⟨keyHolder, hkey, hother, .inr hslot⟩
  exact ⟨new, hnew, hrival, hrefused.mpr hrival⟩

end Stores

theorem updates_in_place_host :
    let m : World Memory := ⟨keyMemory.store, countedDraws, 6⟩
    let s : World Relational := ⟨keyTables.store, countedDraws, 6⟩
    (∃ w', updateAccount "iiii" heedless m = (.ok heedlessAccount, w') ∧
      Edits heedless (some baseTemplate) ⟨0, 0⟩ hostAccount heedlessAccount ∧
      Replaced id Memory.pushes id heedless ⟨0, 0⟩ heedlessAccount m.store w'.store) ∧
    (∃ w', updateAccount "iiii" heedless s = (.ok heedlessAccount, w') ∧
      Edits heedless (some baseTemplate) ⟨0, 0⟩ hostAccount heedlessAccount ∧
      Replaced (Tables.readDate s.store.clock) Relational.queue Push.reread heedless ⟨0, 0⟩
        heedlessAccount s.store w'.store) ∧
    (∀ a, Edits heedless (some baseTemplate) ⟨0, 0⟩ hostAccount a → a = heedlessAccount) ∧
    (∃ new, Edits toKey none ⟨0, 0⟩ hostAccount new ∧
      (∃ b, Stored m.store b ∧ new.Rivals b) ∧
      ∃ d, (updateAccount "iiii" toKey m).1 = .error (.duplicate d)) ∧
    ∃ new, Edits toKey none ⟨0, 0⟩ hostAccount new ∧
      (∃ b, Stored s.store b ∧ new.Rivals b) ∧
      ∃ d, (updateAccount "iiii" toKey s).1 = .error (.duplicate d) := by
  intro m s
  obtain ⟨hmemory, htables, hunique⟩ := updates_in_place
  have hm : Reachable Memory.empty [] keyMemory.store := after_reachable withKey .start
  have hs : Reachable (Relational.empty ⟨0, 0⟩) [] keyTables.store :=
    after_reachable withKey .start
  have hhost : Stored m.store hostAccount ∧ Stored s.store hostAccount := by
    unfold Stored
    decide +kernel
  have hkey : Stored m.store keyHolder ∧ Stored s.store keyHolder := by
    unfold Stored
    decide +kernel
  have htemplate : template? m.store "iiiii" = some baseTemplate ∧
      template? s.store "iiiii" = some baseTemplate := by decide +kernel
  have hok : (updateAccount "iiii" heedless m).1.toOption = some heedlessAccount ∧
      (updateAccount "iiii" heedless s).1.toOption = some heedlessAccount := by decide +kernel
  obtain ⟨w', hrun⟩ := exists_of_toOption hok.1
  obtain ⟨hnew, hreplaced⟩ := (hmemory _ m w' heedless _ _ hm hhost.1 hrun).heedless htemplate.1
  obtain ⟨v', hrun'⟩ := exists_of_toOption hok.2
  obtain ⟨hnew', hreplaced'⟩ := (htables _ _ s v' heedless _ _ hs hhost.2 hrun').heedless
    htemplate.2
  exact ⟨⟨w', hrun, hnew, hreplaced⟩, ⟨v', hrun', hnew', hreplaced'⟩,
    fun a ha => hunique _ _ _ _ _ _ ha hnew,
    (hmemory _ m _ toKey _ _ hm hhost.1 rfl).toKey hkey.1,
    (htables _ _ s _ toKey _ _ hs hhost.2 rfl).toKey hkey.2⟩

end Service

end Custody
