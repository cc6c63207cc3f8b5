import Mathlib.Logic.Function.Basic
import Mathlib.Logic.Relation
import Custody.Account.Candidate

/-!
What can become of the accounts of a store: new ones come, stored ones are rewritten, and those of a
deleted asset go. An account that may switch from another finds it on its own asset, and what a
rewriting keeps of one account is kept by any number of them.
-/
namespace Custody

abbrev Accounts := String → Option Account

namespace Account

variable {secret suFrom : Option String} {a b c : Account}

/-- What a write makes of an account that supplies this secret and this account to switch from, if
any. The version counts the changes of the secret. -/
structure Rewritten (secret suFrom : Option String) (a b : Account) : Prop where
  id : b.id = a.id
  assetId : b.assetId = a.assetId
  dateCreated : b.dateCreated = a.dateCreated
  secret : b.secret = secret.or a.secret
  version : b.version = if b.secret = a.secret then a.version else a.version + 1
  suFrom : b.suFrom = a.suFrom ∨ b.suFrom = suFrom

theorem Rewritten.trans (h : Rewritten secret suFrom a b) (h' : Rewritten secret suFrom b c) :
    Rewritten secret suFrom a c := by
  have hsecret : c.secret = b.secret := by
    rw [h'.secret, h.secret]
    cases secret <;> rfl
  have hversion := h'.version
  rw [if_pos hsecret] at hversion
  exact {
    id := h'.id.trans h.id
    assetId := h'.assetId.trans h.assetId
    dateCreated := h'.dateCreated.trans h.dateCreated
    secret := hsecret.trans h.secret
    version := by rw [hversion, hsecret]; exact h.version
    suFrom := h'.suFrom.elim (fun hkept => hkept ▸ h.suFrom) .inr }

def SelfSwitching (a : Account) : Prop := a.suFrom = some a.id

theorem Rewritten.selfSwitching (h : Rewritten secret suFrom a b) (hself : b.SelfSwitching) :
    a.SelfSwitching ∨ suFrom = some b.id := by
  rcases h.suFrom with hkept | hsupplied
  · exact .inl (hkept.symm.trans (hself.trans (congrArg some h.id)))
  · exact .inr (hsupplied.symm.trans hself)

/-- What an operation leaves of an account that it does not delete. -/
structure Succeeds (a b : Account) : Prop where
  id : b.id = a.id
  assetId : b.assetId = a.assetId
  dateCreated : b.dateCreated = a.dateCreated
  secret : a.secret.isSome → b.secret.isSome
  version : b.version = if b.secret = a.secret then a.version else a.version + 1

theorem Succeeds.refl (a : Account) : Succeeds a a := ⟨rfl, rfl, rfl, fun h => h, (if_pos rfl).symm⟩

theorem Rewritten.succeeds (h : Rewritten secret suFrom a b) : Succeeds a b where
  id := h.id
  assetId := h.assetId
  dateCreated := h.dateCreated
  secret hset := by
    rw [h.secret]
    cases secret with
    | some s => rfl
    | none => exact hset
  version := h.version

theorem setSecret_eq (a : Account) (s : String) : a.setSecret s = { a with
    secret := some s
    version := if some s = a.secret then a.version else a.version + 1 } := by
  unfold setSecret
  by_cases h : a.secret = some s
  · rw [if_pos h, if_pos h.symm, ← h]
  · rw [if_neg h, if_neg (Ne.symm h)]

end Account

namespace Candidate

/-- What a candidate makes of an account: each field that it carries is written, and each that it
leaves open stays. -/
structure Overwrites (c : Candidate) (now : Time.Instant) (old new : Account) : Prop where
  id : new.id = old.id
  assetId : new.assetId = old.assetId
  name : new.name = c.name
  username : new.username = c.username
  secretType : new.secretType = c.secretType
  source : new.source = c.source
  sourceId : new.sourceId = c.sourceId
  secret : new.secret = c.secret.or old.secret
  version : new.version = if new.secret = old.secret then old.version else old.version + 1
  privileged : new.privileged = c.privileged.getD old.privileged
  isActive : new.isActive = c.isActive.getD old.isActive
  comment : new.comment = c.comment.getD old.comment
  suFrom : new.suFrom = c.suFrom.or old.suFrom
  dateCreated : new.dateCreated = old.dateCreated
  dateUpdated : new.dateUpdated = now

theorem applyTo_overwrites (c : Candidate) (a : Account) (now : Time.Instant) :
    c.Overwrites now a (c.applyTo a now) := by
  cases hs : c.secret with
  | none => constructor <;> simp [applyTo, hs]
  | some s => constructor <;> simp [applyTo, hs, Account.setSecret_eq]

namespace Overwrites

variable {c : Candidate} {now : Time.Instant} {a b b' : Account}

theorem rewritten (h : c.Overwrites now a b) : Account.Rewritten c.secret c.suFrom a b where
  id := h.id
  assetId := h.assetId
  dateCreated := h.dateCreated
  secret := h.secret
  version := h.version
  suFrom := by
    rw [h.suFrom]
    cases c.suFrom with
    | none => exact .inl rfl
    | some s => exact .inr rfl

theorem unique (h : c.Overwrites now a b) (h' : c.Overwrites now a b') : b = b' := by
  have hversion : b.version = b'.version := by rw [h.version, h'.version, h.secret, h'.secret]
  cases b
  cases b'
  simp only [Account.mk.injEq]
  exact ⟨h.id.trans h'.id.symm, h.assetId.trans h'.assetId.symm, h.name.trans h'.name.symm,
    h.username.trans h'.username.symm, h.secret.trans h'.secret.symm,
    h.secretType.trans h'.secretType.symm, h.source.trans h'.source.symm,
    h.sourceId.trans h'.sourceId.symm, hversion, h.privileged.trans h'.privileged.symm,
    h.isActive.trans h'.isActive.symm, h.comment.trans h'.comment.symm,
    h.suFrom.trans h'.suFrom.symm, h.dateCreated.trans h'.dateCreated.symm,
    h.dateUpdated.trans h'.dateUpdated.symm⟩

theorem eq_applyTo (h : c.Overwrites now a b) : b = c.applyTo a now :=
  h.unique (c.applyTo_overwrites a now)

end Overwrites

theorem applyTo_rewritten (c : Candidate) (a : Account) (now : Time.Instant) :
    Account.Rewritten c.secret c.suFrom a (c.applyTo a now) :=
  (c.applyTo_overwrites a now).rewritten

end Candidate

namespace Accounts

variable {may may' : Account → Account → Prop} {m m' : Accounts}

def Switches (m : Accounts) (a : Account) : Prop :=
  ∀ s, a.suFrom = some s → ∃ b, m s = some b ∧ b.assetId = a.assetId

theorem eq_update {id : String} {a : Account}
    (h : ∀ i, m' i = if i = id then some a else m i) : m' = Function.update m id (some a) :=
  funext fun i => (h i).trans (Function.update_apply ..).symm

inductive Step (may : Account → Account → Prop) (m : Accounts) : Accounts → Prop
  | insert (a : Account) : m a.id = none → m.Switches a →
    Step may m (Function.update m a.id (some a))
  | rewrite (old new : Account) : m old.id = some old → may old new → new.id = old.id →
    new.assetId = old.assetId → (new.suFrom = old.suFrom ∨ m.Switches new) →
    Step may m (Function.update m old.id (some new))

abbrev Steps (may : Account → Account → Prop) : Accounts → Accounts → Prop :=
  Relation.ReflTransGen (Step may)

theorem Step.mono (h : ∀ old new, may old new → may' old new) (hs : Step may m m') :
    Step may' m m' := by
  cases hs with
  | insert a hnew hsu => exact .insert a hnew hsu
  | rewrite old new hold hmay hid hasset hsu =>
    exact .rewrite old new hold (h old new hmay) hid hasset hsu

theorem Steps.mono (h : ∀ old new, may old new → may' old new) (hs : Steps may m m') :
    Steps may' m m' := Relation.ReflTransGen.mono (fun _ _ => Step.mono h) _ _ hs

theorem Step.follow (h : Step may m m') {id : String} {a : Account} (ha : m id = some a) :
    m' id = some a ∨ ∃ b, m' id = some b ∧ b.assetId = a.assetId ∧ may a b := by
  cases h with
  | insert b hnew _ =>
    have hne : id ≠ b.id := fun heq => nomatch (heq ▸ ha).symm.trans hnew
    exact .inl ((Function.update_of_ne hne _ _).trans ha)
  | rewrite old new hold hmay _ hasset =>
    by_cases hid : id = old.id
    · subst hid
      obtain rfl := Option.some.inj (hold.symm.trans ha)
      exact .inr ⟨new, Function.update_self _ _ _, hasset, hmay⟩
    · exact .inl ((Function.update_of_ne hid _ _).trans ha)

theorem Steps.rewritten {secret suFrom : Option String} (h : Steps may m m')
    (hmay : ∀ old new, may old new → Account.Rewritten secret suFrom old new) {id : String}
    {a : Account} (ha : m id = some a) :
    ∃ b, m' id = some b ∧ (b = a ∨ Account.Rewritten secret suFrom a b) := by
  induction h with
  | refl => exact ⟨a, ha, .inl rfl⟩
  | tail _ hstep ih =>
    obtain ⟨b, hb, hab⟩ := ih
    rcases hstep.follow hb with hb' | ⟨c, hc, -, hbc⟩
    · exact ⟨b, hb', hab⟩
    · refine ⟨c, hc, .inr ?_⟩
      rcases hab with rfl | hab
      · exact hmay _ _ hbc
      · exact hab.trans (hmay _ _ hbc)

theorem Steps.untouched {asset : String} (h : Steps may m m')
    (hmay : ∀ old new, may old new → old.assetId = asset) {id : String} {a : Account}
    (ha : m id = some a) (hother : a.assetId ≠ asset) : m' id = some a := by
  induction h with
  | refl => exact ha
  | tail _ hstep ih =>
    rcases hstep.follow ih with hb | ⟨b, -, -, hab⟩
    · exact hb
    · exact absurd (hmay _ _ hab) hother

def Linked (m : Accounts) : Prop := ∀ id a, m id = some a → m.Switches a

theorem Step.switches (h : Step may m m') {a : Account} (ha : m.Switches a) : m'.Switches a := by
  intro s hs
  obtain ⟨b, hb, hasset⟩ := ha s hs
  rcases h.follow hb with hb' | ⟨c, hc, hkept, -⟩
  · exact ⟨b, hb', hasset⟩
  · exact ⟨c, hc, hkept.trans hasset⟩

theorem Step.linked (h : Step may m m') (hm : m.Linked) : m'.Linked := by
  intro id a ha
  refine h.switches ?_
  cases h with
  | insert b hnew hsu =>
    by_cases hid : id = b.id
    · rw [hid, Function.update_self] at ha
      exact Option.some.inj ha ▸ hsu
    · rw [Function.update_of_ne hid] at ha
      exact hm id a ha
  | rewrite old new hold _ _ hasset hsu =>
    by_cases hid : id = old.id
    · rw [hid, Function.update_self] at ha
      obtain rfl := Option.some.inj ha
      rcases hsu with hkept | hsu
      · intro s hs
        rw [hasset]
        exact hm _ _ hold s (hkept ▸ hs)
      · exact hsu
    · rw [Function.update_of_ne hid] at ha
      exact hm id a ha

theorem Steps.linked (h : Steps may m m') (hm : m.Linked) : m'.Linked := by
  induction h with
  | refl => exact hm
  | tail _ hstep ih => exact hstep.linked ih

theorem Step.selfSwitching {blamed : Prop} (h : Step may m m')
    (hmay : ∀ old new, may old new → new.SelfSwitching → old.SelfSwitching ∨ blamed) {id : String}
    {b : Account} (hb : m' id = some b) (hself : b.SelfSwitching) :
    (∃ a, m id = some a ∧ a.SelfSwitching) ∨ blamed := by
  -- A new account is not there to switch from, so only a rewriting can make an account switch from
  -- itself.
  cases h with
  | insert c hnew hsu =>
    by_cases hid : id = c.id
    · rw [hid, Function.update_self] at hb
      obtain rfl := Option.some.inj hb
      obtain ⟨d, hd, -⟩ := hsu _ hself
      exact nomatch hnew.symm.trans hd
    · rw [Function.update_of_ne hid] at hb
      exact .inl ⟨b, hb, hself⟩
  | rewrite old new hold hallowed =>
    by_cases hid : id = old.id
    · rw [hid, Function.update_self] at hb
      obtain rfl := Option.some.inj hb
      exact (hmay _ _ hallowed hself).imp_left fun h => ⟨old, hid ▸ hold, h⟩
    · rw [Function.update_of_ne hid] at hb
      exact .inl ⟨b, hb, hself⟩

theorem Steps.selfSwitching {blamed : Prop} (h : Steps may m m')
    (hmay : ∀ old new, may old new → new.SelfSwitching → old.SelfSwitching ∨ blamed) {id : String}
    {b : Account} (hb : m' id = some b) (hself : b.SelfSwitching) :
    (∃ a, m id = some a ∧ a.SelfSwitching) ∨ blamed := by
  induction h generalizing b with
  | refl => exact .inl ⟨b, hb, hself⟩
  | tail _ hstep ih =>
    rcases hstep.selfSwitching hmay hb hself with ⟨a, ha, hself⟩ | hblamed
    · exact ih ha hself
    · exact .inr hblamed

def without (m : Accounts) (asset : String) : Accounts := fun id =>
  (m id).filter (·.assetId ≠ asset)

theorem without_eq_some_iff {asset id : String} {a : Account} :
    m.without asset id = some a ↔ m id = some a ∧ a.assetId ≠ asset := by
  simp [without, Option.filter_eq_some_iff]

theorem without_eq_self {asset : String} (h : ∀ id a, m id = some a → a.assetId ≠ asset) :
    m.without asset = m := by
  funext id
  ext a
  rw [without_eq_some_iff]
  exact and_iff_left_of_imp (h id a)

theorem Linked.without (hm : m.Linked) (asset : String) : (m.without asset).Linked := by
  intro id a ha s hs
  obtain ⟨ha, hstays⟩ := without_eq_some_iff.mp ha
  obtain ⟨b, hb, hsame⟩ := hm id a ha s hs
  exact ⟨b, without_eq_some_iff.mpr ⟨hb, hsame ▸ hstays⟩, hsame⟩

end Accounts

end Custody
