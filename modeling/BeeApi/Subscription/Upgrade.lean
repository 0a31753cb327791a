import BeeApi.Subscription.Effect
import BeeApi.Subscription.GroupEffect

/-!
# The upgrade group and its undoing

Calls that create, end, delete and reactivate subscriptions, each at its own time.  The group a user
came from is stored only in the subscription whose purchase moved it, and an end consults only the one
that ended last.  When upgrade subscriptions do not overlap, that is enough.
-/

namespace BeeApi.Subscription.Upgrade

open Strings List Option Table

/-! ## Calls -/

/-- The database and the time of the last call. -/
structure World where
  db : Db
  now : ℤ

inductive Op
  /-- `CreateUserSubscriptionFromPlanTx`. -/
  | create (userId planId : ℤ) (plan : SubscriptionPlan)
  /-- `ExpireDueSubscriptions`. -/
  | expire (limit : ℤ)
  /-- `AdminInvalidateUserSubscription`. -/
  | invalidate (id : ℤ)
  /-- `AdminDeleteUserSubscription`. -/
  | delete (id : ℤ)
  /-- `AdminUpdateUserSubscriptionExpiry`. -/
  | updateExpiry (id newEndTime : ℤ)

structure Call where
  now : ℤ
  op : Op

/-- The database after a call; a call that fails changes nothing.  `zone` is the offset of the local
time of the process. -/
def exec (zone : ℤ) (db : Db) (now : ℤ) : Op → Except String Db
  | .create userId planId plan =>
    (createUserSubscriptionFromPlanTx zone db now userId planId plan).map Prod.fst
  | .expire limit => .ok (expireDueSubscriptions db now limit)
  | .invalidate id => (adminInvalidateUserSubscription db now id).map Prod.fst
  | .delete id => (adminDeleteUserSubscription db now id).map Prod.fst
  | .updateExpiry id newEndTime => adminUpdateUserSubscriptionExpiry db now id newEndTime

/-- Calls come in the order of their times. -/
def step (zone : ℤ) (w : World) (c : Call) : Option World :=
  if c.now < w.now then none
  else some { db := ((exec zone w.db c.now c.op).toOption).getD w.db, now := c.now }

/-! ## The condition -/

def Upgrades (userId : ℤ) (s : UserSubscription) : Prop := s.userId = userId ∧ s.upgradeGroup ≠ ""

def ActiveUpgrade (userId : ℤ) (s : UserSubscription) : Prop :=
  Upgrades userId s ∧ s.status = .active

def NoneActive (userId : ℤ) (db : Db) : Prop :=
  ∀ id s, db.userSubscriptions.get? id = some s → ¬ ActiveUpgrade userId s

def NoneOverdue (userId : ℤ) (db : Db) (now : ℤ) : Prop :=
  ∀ id s, db.userSubscriptions.get? id = some s → ActiveUpgrade userId s → now < s.endTime

/-- The calls that keep the upgrade subscriptions of a user apart: what has ended is processed before
the next call, and an upgrade subscription is bought or reactivated only when none is active. -/
def Apart (zone userId : ℤ) (w : World) (c : Call) : Prop :=
  match c.op with
  | .create buyer _ plan =>
    NoneOverdue userId w.db c.now ∧ (buyer = userId → trimSpace plan.upgradeGroup ≠ "" →
      NoneActive userId w.db ∧ ∀ endTime, calcPlanEndTime zone c.now plan = .ok endTime →
        c.now < endTime)
  | .expire limit => NoneOverdue userId w.db c.now ∨ userId ∈ dueUsers w.db c.now limit
  | .invalidate _ => NoneOverdue userId w.db c.now
  | .delete _ => NoneOverdue userId w.db c.now
  | .updateExpiry id newEndTime =>
    NoneOverdue userId w.db c.now ∧ ∀ s, w.db.userSubscriptions.get? id = some s →
      Upgrades userId s → s.status ≠ .active → c.now < newEndTime → NoneActive userId w.db

instance (userId : ℤ) (s : UserSubscription) : Decidable (Upgrades userId s) :=
  inferInstanceAs (Decidable (_ ∧ _))

instance (userId : ℤ) (s : UserSubscription) : Decidable (ActiveUpgrade userId s) :=
  inferInstanceAs (Decidable (_ ∧ _))

instance (userId : ℤ) (db : Db) : Decidable (NoneActive userId db) :=
  Table.decidableForallGet? db.userSubscriptions fun _ s => ¬ ActiveUpgrade userId s

instance (userId : ℤ) (db : Db) (now : ℤ) : Decidable (NoneOverdue userId db now) :=
  Table.decidableForallGet? db.userSubscriptions fun _ s => ActiveUpgrade userId s → now < s.endTime

/-- Whether every value a computation returns has a property. -/
instance decidableForallOk {α : Type} (x : Except String α) (p : α → Prop) [DecidablePred p] :
    Decidable (∀ a, x = .ok a → p a) :=
  match x with
  | .error _ => isTrue nofun
  | .ok a => decidable_of_iff (p a) ⟨fun h _ ha => Except.ok.inj ha ▸ h, fun h => h a rfl⟩

instance (zone userId : ℤ) (w : World) (c : Call) : Decidable (Apart zone userId w c) :=
  match c with
  | ⟨now, .create buyer _ _⟩ =>
    inferInstanceAs (Decidable (NoneOverdue userId w.db now ∧ (buyer = userId → _ → _ ∧ _)))
  | ⟨_, .expire _⟩ => inferInstanceAs (Decidable (_ ∨ _))
  | ⟨now, .invalidate _⟩ => inferInstanceAs (Decidable (NoneOverdue userId w.db now))
  | ⟨now, .delete _⟩ => inferInstanceAs (Decidable (NoneOverdue userId w.db now))
  | ⟨now, .updateExpiry id newEndTime⟩ =>
    have : Decidable (∀ s, w.db.userSubscriptions.get? id = some s → Upgrades userId s →
        s.status ≠ .active → now < newEndTime → NoneActive userId w.db) :=
      inferInstanceAs (Decidable (∀ s ∈ w.db.userSubscriptions.get? id, _))
    inferInstanceAs (Decidable (_ ∧ _))

/-- The subscription knows the group to return to, unless it did not change the group. -/
structure RowOk (original : String) (now : ℤ) (s : UserSubscription) : Prop where
  trimmed : trimSpace s.upgradeGroup = s.upgradeGroup
  prev : s.prevUserGroup = if s.upgradeGroup = original then "" else original
  notExhausted : s.status ≠ .exhausted
  expired : s.status = .expired → s.endTime ≤ now
  active : s.status = .active → now < s.endTime

def GroupFits (userId : ℤ) (original : String) (db : Db) (group : String) : Prop :=
  (∀ id s, db.userSubscriptions.get? id = some s → ActiveUpgrade userId s →
    group = s.upgradeGroup) ∧ (NoneActive userId db → group = original)

structure Inv (userId : ℤ) (original : String) (db : Db) (now : ℤ) : Prop where
  now_nonneg : 0 ≤ now
  rows : ∀ id s, db.userSubscriptions.get? id = some s → Upgrades userId s → RowOk original now s
  unique : ∀ id id' s s', db.userSubscriptions.get? id = some s → ActiveUpgrade userId s →
    db.userSubscriptions.get? id' = some s' → ActiveUpgrade userId s' → id = id'
  group : ∃ group, UserIn userId db group ∧ GroupFits userId original db group

/-! ## Other users -/

structure SameView (userId : ℤ) (db db' : Db) : Prop where
  rows : ∀ id s, s.userId = userId →
    (db'.userSubscriptions.get? id = some s ↔ db.userSubscriptions.get? id = some s)
  user : db'.users.get? userId = db.users.get? userId

theorem SameView.refl (userId : ℤ) (db : Db) : SameView userId db db := ⟨fun _ _ _ => Iff.rfl, rfl⟩

variable {userId now now' id : ℤ} {db db₂ db' : Db} {original target group : String}
  {sub : UserSubscription} {prev : Option String}

theorem SameView.trans {db₁ : Db} (h : SameView userId db db₁) (h' : SameView userId db₁ db₂) :
    SameView userId db db₂ :=
  ⟨fun id s hs => (h'.rows id s hs).trans (h.rows id s hs), h'.user.trans h.user⟩

theorem SameView.noneActive (h : SameView userId db db') (hn : NoneActive userId db') :
    NoneActive userId db :=
  fun id s hs ha => hn id s ((h.rows id s ha.1.1).2 hs) ha

/-- The invariant is about the view, and time may pass as long as nothing comes to its end. -/
theorem Inv.of_view (h : Inv userId original db now) (hview : SameView userId db db')
    (hnow : now ≤ now') (hdue : NoneOverdue userId db now') : Inv userId original db' now' := by
  refine ⟨h.now_nonneg.trans hnow, fun id s hs hu => ?_, fun id id' s s' hs ha hs' ha' => ?_, ?_⟩
  · have hget := (hview.rows id s hu.1).1 hs
    have hrow := h.rows id s hget hu
    exact ⟨hrow.trimmed, hrow.prev, hrow.notExhausted, fun he => (hrow.expired he).trans hnow,
      fun he => hdue id s hget ⟨hu, he⟩⟩
  · exact h.unique id id' s s' ((hview.rows id s ha.1.1).1 hs) ha
      ((hview.rows id' s' ha'.1.1).1 hs') ha'
  · obtain ⟨group, ⟨u, hu, hlive, hgroup⟩, hfits⟩ := h.group
    refine ⟨group, ⟨u, hview.user.trans hu, hlive, hgroup⟩, fun id s hs ha => ?_,
      fun hn => hfits.2 (hview.noneActive hn)⟩
    exact hfits.1 id s ((hview.rows id s ha.1.1).1 hs) ha

theorem Inv.noneOverdue (h : Inv userId original db now) : NoneOverdue userId db now :=
  fun id s hs ha => (h.rows id s hs ha.1).active ha.2

theorem Inv.congr (h : Inv userId original db now) (hview : SameView userId db db') :
    Inv userId original db' now :=
  h.of_view hview le_rfl h.noneOverdue

theorem sameView_modify {f : UserSubscription → UserSubscription}
    (hrow : ∀ s, db.userSubscriptions.get? id = some s →
      s.userId ≠ userId ∧ (f s).userId ≠ userId) :
    SameView userId db { db with userSubscriptions := db.userSubscriptions.modify id f } := by
  refine ⟨fun id' s hs => ?_, rfl⟩
  rw [get?_modify]
  split_ifs with hid
  · subst hid
    cases hget : db.userSubscriptions.get? id' with
    | none => simp
    | some s₀ =>
      obtain ⟨hne, hne'⟩ := hrow s₀ hget
      rw [map_some, some.injEq, some.injEq]
      constructor
      · rintro rfl
        exact absurd hs hne'
      · rintro rfl
        exact absurd hs hne
  · rfl

/-! ## Downgrades -/

theorem downgrade_subscriptions
    (h : downgradeUserGroupForSubscriptionTx db id sub now = .ok (db', target)) :
    db'.userSubscriptions = db.userSubscriptions ∧
      ∀ userId, sub.userId ≠ userId → db'.users.get? userId = db.users.get? userId := by
  unfold downgradeUserGroupForSubscriptionTx at h
  dsimp only at h
  split at h
  · cases h
    exact ⟨rfl, fun _ _ => rfl⟩
  obtain ⟨currentGroup, -, h⟩ := Except.bind_eq_ok_iff.1 h
  split_ifs at h
  · cases h
    exact ⟨rfl, fun _ _ => rfl⟩
  · cases h
    exact ⟨rfl, fun _ _ => rfl⟩
  · cases h
    exact ⟨rfl, fun _ _ => rfl⟩
  · cases h
    exact ⟨rfl, fun _ hne => get?_setUserGroup_of_ne hne⟩

/-- The end of a subscription of the user.  `db₂` are the subscriptions without the one that ends;
before the downgrade the group fits these, or is still that of the ending subscription. -/
theorem groupFits_downgrade (horiginal : original ≠ "" ∧ trimSpace original = original)
    (h : downgradeUserGroupForSubscriptionTx db id sub now = .ok (db', target))
    (huser : UserIn userId db group) (hsub : sub.userId = userId) (hothers : ∀ id', id' ≠ id →
      db₂.userSubscriptions.get? id' = db.userSubscriptions.get? id')
    (hended : ∀ s, db₂.userSubscriptions.get? id = some s → ¬ ActiveUpgrade userId s)
    (hdue : NoneOverdue userId db₂ now)
    (hrow : sub.upgradeGroup ≠ "" → trimSpace sub.upgradeGroup = sub.upgradeGroup ∧
      sub.prevUserGroup = if sub.upgradeGroup = original then "" else original)
    (hgroup : GroupFits userId original db₂ group ∨
      sub.upgradeGroup ≠ "" ∧ group = sub.upgradeGroup ∧ NoneActive userId db₂) :
    ∃ group', UserIn userId db' group' ∧ GroupFits userId original db₂ group' := by
  unfold downgradeUserGroupForSubscriptionTx at h
  have hblank : trimSpace "" = "" := by decide
  by_cases hup : sub.upgradeGroup = ""
  · rw [hup, if_pos hblank] at h
    cases h
    exact ⟨group, huser, hgroup.resolve_right fun hr => hr.1 hup⟩
  obtain ⟨htrim, hprev⟩ := hrow hup
  rw [htrim, if_neg hup, hsub] at h
  obtain ⟨currentGroup, hcurrent, h⟩ := Except.bind_eq_ok_iff.1 h
  obtain rfl := getUserGroup_of_userIn huser hcurrent
  -- a group that is not that of the subscription fits the others
  split at h
  · rename_i hne
    cases h
    exact ⟨currentGroup, huser, hgroup.resolve_right fun hr => hne hr.2.1⟩
  rename_i hne
  rw [not_not] at hne
  split at h
  · rename_i hany
    cases h
    refine ⟨currentGroup, huser, hgroup.resolve_right fun hr => ?_⟩
    obtain ⟨e, he, hp⟩ := any_eq_true.1 hany
    simp only [isActiveUpgrade, Bool.and_eq_true, decide_eq_true_eq] at hp
    obtain ⟨hid, ⟨⟨hu, hs⟩, -⟩, hg⟩ := hp
    refine hr.2.2 e.1 e.2 ?_ ⟨⟨hu, hg⟩, hs⟩
    rw [hothers e.1 hid]
    exact (get?_eq_some_iff _ _ _).2 he
  rename_i hany
  have hnone : NoneActive userId db₂ := by
    intro id' s hs ha
    by_cases hid : id' = id
    · rw [hid] at hs
      exact hended s hs ha
    · refine hany (any_eq_true.2 ⟨(id', s), ?_, ?_⟩)
      · exact (get?_eq_some_iff _ _ _).1 ((hothers id' hid).symm.trans hs)
      · simp [hid, isActiveUpgrade, ha.1.1, ha.1.2, ha.2, hdue id' s hs ha]
  have hfits : GroupFits userId original db₂ original :=
    ⟨fun id' s hs ha => absurd ha (hnone id' s hs), fun _ => rfl⟩
  rw [hprev] at h
  by_cases horig : sub.upgradeGroup = original
  · rw [if_pos horig, hblank, if_pos (Or.inl rfl)] at h
    cases h
    exact ⟨original, horig ▸ hne ▸ huser, hfits⟩
  · have hkeep : ¬ (original = "" ∨ original = currentGroup) := by
      rintro (h | h)
      · exact horiginal.1 h
      · exact horig (hne ▸ h.symm)
    rw [if_neg horig, horiginal.2, if_neg hkeep] at h
    cases h
    exact ⟨original, userIn_setUserGroup huser, hfits⟩

/-! ## Creation -/

theorem inv_setRow (id : ℤ) (hw : Inv userId original db now) (hget : ∀ id', db'.userSubscriptions.get? id' =
      if id' = id then some sub else db.userSubscriptions.get? id')
    (hkept : ∀ s, db.userSubscriptions.get? id = some s → Upgrades userId s → Upgrades userId sub)
    (halone : Upgrades userId sub → ∀ id' s, db.userSubscriptions.get? id' = some s →
      ActiveUpgrade userId s → id' = id)
    (hrow : Upgrades userId sub → sub.status = .active ∧ RowOk original now sub)
    (huser : UserIn userId db' group) (hgroup : Upgrades userId sub → group = sub.upgradeGroup)
    (hfits : ¬ Upgrades userId sub → GroupFits userId original db group) :
    Inv userId original db' now := by
  have hcases : ∀ id' s, db'.userSubscriptions.get? id' = some s →
      (id' = id ∧ s = sub) ∨ (id' ≠ id ∧ db.userSubscriptions.get? id' = some s) := by
    intro id' s hs
    rw [hget] at hs
    split_ifs at hs with hid
    · exact .inl ⟨hid, (some.inj hs).symm⟩
    · exact .inr ⟨hid, hs⟩
  refine ⟨hw.now_nonneg, fun id' s hs hu => ?_, fun id₁ id₂ s₁ s₂ hs₁ ha₁ hs₂ ha₂ => ?_, group, huser,
    fun id' s hs ha => ?_, fun hn => ?_⟩
  · obtain ⟨-, rfl⟩ | ⟨-, hs⟩ := hcases id' s hs
    · exact (hrow hu).2
    · exact hw.rows id' s hs hu
  · obtain ⟨hid₁, hsub₁⟩ | ⟨hne₁, hold₁⟩ := hcases id₁ s₁ hs₁
    · obtain ⟨hid₂, -⟩ | ⟨hne₂, hold₂⟩ := hcases id₂ s₂ hs₂
      · rw [hid₁, hid₂]
      · exact absurd (halone (hsub₁ ▸ ha₁.1) id₂ s₂ hold₂ ha₂) hne₂
    · obtain ⟨-, hsub₂⟩ | ⟨-, hold₂⟩ := hcases id₂ s₂ hs₂
      · exact absurd (halone (hsub₂ ▸ ha₂.1) id₁ s₁ hold₁ ha₁) hne₁
      · exact hw.unique id₁ id₂ s₁ s₂ hold₁ ha₁ hold₂ ha₂
  · obtain ⟨-, rfl⟩ | ⟨hne, hold⟩ := hcases id' s hs
    · exact hgroup ha.1
    · by_cases hu : Upgrades userId sub
      · exact absurd (halone hu id' s hold ha) hne
      · exact (hfits hu).1 id' s hold ha
  · by_cases hu : Upgrades userId sub
    · exact absurd ⟨hu, (hrow hu).1⟩ (hn id sub ((hget id).trans (if_pos rfl)))
    · refine (hfits hu).2 fun id' s hs ha => ?_
      by_cases hid : id' = id
      · rw [hid] at hs
        exact hu (hkept s hs ha.1)
      · exact hn id' s ((hget id').trans (by rw [if_neg hid]; exact hs)) ha

theorem userIn_upgradeUserGroup {upgradeGroup prevGroup : String}
    (h : upgradeUserGroup db userId upgradeGroup = .ok (db', prevGroup)) (hup : upgradeGroup ≠ "")
    (huser : UserIn userId db group) :
    UserIn userId db' upgradeGroup ∧ prevGroup = if upgradeGroup = group then "" else group := by
  unfold upgradeUserGroup at h
  rw [if_neg hup] at h
  obtain ⟨currentGroup, hcurrent, h⟩ := Except.bind_eq_ok_iff.1 h
  obtain rfl := getUserGroup_of_userIn huser hcurrent
  split_ifs at h with hne
  · cases h
    exact ⟨userIn_setUserGroup huser, by rw [if_neg (Ne.symm hne)]⟩
  · rw [not_not] at hne
    cases h
    exact ⟨hne ▸ huser, by rw [if_pos hne.symm]⟩

theorem inv_create {zone buyer planId : ℤ} {plan : SubscriptionPlan}
    (hw : Inv userId original db now)
    (hnone : buyer = userId → trimSpace plan.upgradeGroup ≠ "" → NoneActive userId db ∧
      ∀ endTime, calcPlanEndTime zone now plan = .ok endTime → now < endTime)
    (h : createUserSubscriptionFromPlanTx zone db now buyer planId plan = .ok (db', id)) :
    Inv userId original db' now := by
  obtain ⟨db₁, prevGroup, endTime, sub, hend, hup, rfl, rfl, hbuyer, hstatus, hendTime, hgroup,
    hprev, -⟩ := create_of_ok h
  obtain ⟨hdb₁, -, hothers⟩ := upgradeUserGroup_of_ok hup
  have hsubs : db₁.userSubscriptions = db.userSubscriptions := by rw [hdb₁]
  obtain ⟨group, huser, hfits⟩ := hw.group
  have hfresh : db.userSubscriptions.get? db₁.userSubscriptions.nextKey = none := by
    rw [hsubs]
    exact get?_nextKey _
  rw [hdb₁] at hfresh ⊢
  by_cases hu : Upgrades userId sub
  · obtain ⟨hme, hne⟩ := hu
    rw [hgroup] at hne
    rw [hbuyer] at hme
    obtain ⟨hn, hlater⟩ := hnone hme hne
    obtain rfl := hfits.2 hn
    subst hme
    obtain ⟨huser', hprev'⟩ := userIn_upgradeUserGroup hup hne huser
    refine inv_setRow _ hw (fun id' => get?_put _ _ id' _)
      (fun s hs => nomatch hfresh.symm.trans hs) (fun _ id' s hs ha => absurd ha (hn id' s hs))
      (fun _ => ⟨hstatus, ?_⟩) ?_ (fun _ => rfl)
      fun hnot => absurd ⟨hbuyer, by rw [hgroup]; exact hne⟩ hnot
    · refine ⟨by rw [hgroup, trimSpace_trimSpace], by rw [hprev, hprev', hgroup], ?_, ?_, ?_⟩
      · rw [hstatus]
        decide
      · rw [hstatus]
        intro he
        cases he
      · intro _
        rw [hendTime]
        exact hlater endTime hend
    · rw [hgroup]
      exact huser'
  · refine inv_setRow _ hw (fun id' => get?_put _ _ id' _)
      (fun s hs => nomatch hfresh.symm.trans hs) (fun h => absurd h hu) (fun h => absurd h hu) ?_
      (fun h => absurd h hu) fun _ => hfits
    by_cases hme : buyer = userId
    · -- a plan without an upgrade group
      have hblank : trimSpace plan.upgradeGroup = "" := by
        by_contra hne
        exact hu ⟨hbuyer.trans hme, by rw [hgroup]; exact hne⟩
      rw [hblank] at hup
      cases hup
      exact huser
    · obtain ⟨u, hget, hlive, hg⟩ := huser
      exact ⟨u, (hothers userId hme).trans hget, hlive, hg⟩

/-! ## Ends -/

/-- The subscriptions of `db₂` are those of `db`, but that `id` is not an active upgrade any more. -/
structure Ends (userId : ℤ) (original : String) (now id : ℤ) (db db₂ : Db) : Prop where
  others : ∀ id', id' ≠ id → db₂.userSubscriptions.get? id' = db.userSubscriptions.get? id'
  row : ∀ s, db₂.userSubscriptions.get? id = some s →
    ¬ ActiveUpgrade userId s ∧ (Upgrades userId s → RowOk original now s)

theorem Ends.get? {id' : ℤ} {s : UserSubscription} (h : Ends userId original now id db db₂)
    (hs : db₂.userSubscriptions.get? id' = some s) (ha : ActiveUpgrade userId s) :
    id' ≠ id ∧ db.userSubscriptions.get? id' = some s := by
  by_cases hid : id' = id
  · rw [hid] at hs
    exact absurd ha (h.row s hs).1
  · exact ⟨hid, (h.others id' hid).symm.trans hs⟩

section
variable (hw : Inv userId original db now) (h : Ends userId original now id db db₂)
include hw h

theorem Inv.of_ends
    (hgroup : ∃ group, UserIn userId db₂ group ∧ GroupFits userId original db₂ group) :
    Inv userId original db₂ now := by
  refine ⟨hw.now_nonneg, fun id' s hs hu => ?_, fun id₁ id₂ s₁ s₂ hs₁ ha₁ hs₂ ha₂ => ?_, hgroup⟩
  · by_cases hid : id' = id
    · rw [hid] at hs
      exact (h.row s hs).2 hu
    · exact hw.rows id' s ((h.others id' hid).symm.trans hs) hu
  · exact hw.unique id₁ id₂ s₁ s₂ (h.get? hs₁ ha₁).2 ha₁ (h.get? hs₂ ha₂).2 ha₂

theorem fits_or_alone
    (hsub : db.userSubscriptions.get? id = some sub) (hfits : GroupFits userId original db group) :
    GroupFits userId original db₂ group ∨
      sub.upgradeGroup ≠ "" ∧ group = sub.upgradeGroup ∧ NoneActive userId db₂ := by
  by_cases ha : ActiveUpgrade userId sub
  · refine .inr ⟨ha.1.2, hfits.1 id sub hsub ha, fun id' s hs ha' => ?_⟩
    obtain ⟨hne, hs'⟩ := h.get? hs ha'
    exact hne (hw.unique id' id s sub hs' ha' hsub ha)
  · refine .inl ⟨fun id' s hs ha' => hfits.1 id' s (h.get? hs ha').2 ha', fun hn => hfits.2 ?_⟩
    intro id' s hs ha'
    by_cases hid : id' = id
    · rw [hid, hsub] at hs
      cases hs
      exact ha ha'
    · exact hn id' s ((h.others id' hid).trans hs) ha'

theorem noneOverdue_of_ends : NoneOverdue userId db₂ now := by
  intro id' s hs ha
  exact (hw.rows id' s (h.get? hs ha).2 ha.1).active ha.2

end

/-- What ends a row keeps: who it belongs to and its groups. -/
structure SameGroups (s s' : UserSubscription) : Prop where
  userId : s'.userId = s.userId
  upgradeGroup : s'.upgradeGroup = s.upgradeGroup
  prevUserGroup : s'.prevUserGroup = s.prevUserGroup

section
variable (horiginal : original ≠ "" ∧ trimSpace original = original) (hw : Inv userId original db now)
include horiginal hw

theorem inv_endRow {sub' : UserSubscription} {f : UserSubscription → UserSubscription}
    (hsub : db.userSubscriptions.get? id = some sub) (h : downgradeUserGroupForSubscriptionTx
      { db with userSubscriptions := db.userSubscriptions.modify id f } id sub' now =
        .ok (db', target)) (hf : ∀ s, SameGroups s (f s)) (hsub' : SameGroups sub sub')
    (hstatus : ∀ s, (f s).status = .cancelled ∨ (f s).status = .expired ∧ (f s).endTime ≤ now) :
    Inv userId original db' now := by
  obtain ⟨hsubs, husers⟩ := downgrade_subscriptions h
  by_cases hme : sub.userId = userId
  · have hends : Ends userId original now id db db' := by
      refine ⟨fun id' hid => by rw [hsubs, get?_modify_of_ne _ _ hid], fun s hs => ?_⟩
      rw [hsubs, get?_modify_self, hsub, map_some] at hs
      cases hs
      have hnot : (f sub).status ≠ .active := by
        rcases hstatus sub with he | ⟨he, -⟩ <;> rw [he] <;> decide
      refine ⟨fun ha => hnot ha.2, fun hu => ?_⟩
      have hrow := hw.rows id sub hsub ⟨hme, (hf sub).upgradeGroup ▸ hu.2⟩
      refine ⟨by rw [(hf sub).upgradeGroup]; exact hrow.trimmed,
        by rw [(hf sub).prevUserGroup, (hf sub).upgradeGroup]; exact hrow.prev, ?_, ?_,
        fun he => absurd he hnot⟩
      · rcases hstatus sub with he | ⟨he, -⟩ <;> rw [he] <;> decide
      · intro he
        rcases hstatus sub with he' | ⟨-, hle⟩
        · rw [he] at he'
          cases he'
        · exact hle
    obtain ⟨group, ⟨u, hget, hlive, hg⟩, hfits⟩ := hw.group
    refine hw.of_ends hends (groupFits_downgrade horiginal h ⟨u, hget, hlive, hg⟩
      (hsub'.userId.trans hme) (fun id' _ => by rw [hsubs]) (fun s hs => (hends.row s hs).1)
      (noneOverdue_of_ends hw hends) (fun hup => ?_) ?_)
    · rw [hsub'.upgradeGroup] at hup ⊢
      have hrow := hw.rows id sub hsub ⟨hme, hup⟩
      exact ⟨hrow.trimmed, by rw [hsub'.prevUserGroup]; exact hrow.prev⟩
    · rw [hsub'.upgradeGroup]
      exact fits_or_alone hw hends hsub hfits
  · -- a subscription of another user
    have hview : SameView userId db
        { db with userSubscriptions := db.userSubscriptions.modify id f } := by
      refine sameView_modify fun s hs => ?_
      cases hsub.symm.trans hs
      exact ⟨hme, by rw [(hf sub).userId]; exact hme⟩
    exact hw.congr (hview.trans ⟨fun _ _ _ => by rw [hsubs], husers userId (by rwa [hsub'.userId])⟩)

theorem inv_invalidate (h : adminInvalidateUserSubscription db now id = .ok (db', target)) :
    Inv userId original db' now := by
  unfold adminInvalidateUserSubscription at h
  split_ifs at h
  split at h
  · cases h
  · rename_i sub hsub
    obtain ⟨db₁, hcas, h⟩ := Except.bind_eq_ok_iff.1 h
    obtain ⟨-, -, -, -, rfl⟩ := casUserSubscriptionTx_of_ok hcas
    exact inv_endRow horiginal hw hsub h (fun _ => ⟨rfl, rfl, rfl⟩) ⟨rfl, rfl, rfl⟩
      fun _ => .inl rfl

theorem inv_delete (h : adminDeleteUserSubscription db now id = .ok (db', target)) :
    Inv userId original db' now := by
  unfold adminDeleteUserSubscription at h
  split_ifs at h
  split at h
  · cases h
  rename_i sub hsub
  obtain ⟨⟨db₁, target'⟩, hdown, h⟩ := Except.bind_eq_ok_iff.1 h
  obtain ⟨db₂, hdelete, h⟩ := Except.bind_eq_ok_iff.1 h
  obtain ⟨rfl, rfl⟩ := Prod.mk.inj (Except.ok.inj h)
  obtain ⟨hsubs, husers⟩ := downgrade_subscriptions hdown
  have hdb₂ : db₂ = { db₁ with userSubscriptions := db₁.userSubscriptions.erase id } := by
    unfold casDeleteUserSubscriptionTx at hdelete
    split_ifs at hdelete
    split at hdelete
    · split_ifs at hdelete
      exact (Except.ok.inj hdelete).symm
    · cases hdelete
  have hget : ∀ id', db₂.userSubscriptions.get? id' =
      if id' = id then none else db.userSubscriptions.get? id' := by
    intro id'
    rw [hdb₂, ← hsubs]
    exact get?_erase _ _ _
  by_cases hme : sub.userId = userId
  · have hends : Ends userId original now id db db₂ := by
      refine ⟨fun id' hid => by rw [hget, if_neg hid], fun s hs => ?_⟩
      rw [hget, if_pos rfl] at hs
      cases hs
    obtain ⟨group, huser, hfits⟩ := hw.group
    obtain ⟨group', huser', hfits'⟩ := groupFits_downgrade horiginal hdown huser hme
      (fun id' hid => hends.others id' hid) (fun s hs => (hends.row s hs).1)
      (noneOverdue_of_ends hw hends)
      (fun hup => ⟨(hw.rows id sub hsub ⟨hme, hup⟩).trimmed, (hw.rows id sub hsub ⟨hme, hup⟩).prev⟩)
      (fits_or_alone hw hends hsub hfits)
    refine hw.of_ends hends ⟨group', ?_, hfits'⟩
    rw [hdb₂]
    exact huser'
  · refine hw.congr ⟨fun id' s hs => ?_, ?_⟩
    · rw [hget]
      split_ifs with hid
      · rw [hid, hsub]
        constructor
        · intro h
          cases h
        · intro h
          cases h
          exact absurd hs hme
      · rfl
    · rw [hdb₂]
      exact husers userId hme

end

/-! ## Reactivation -/

section
variable (h : reactivateUserGroup db sub = .ok (db', prev))
include h

theorem reactivateUserGroup_of_ok :
    db'.userSubscriptions = db.userSubscriptions ∧
      ∀ userId, sub.userId ≠ userId → db'.users.get? userId = db.users.get? userId := by
  unfold reactivateUserGroup at h
  by_cases hskip : sub.status = .active ∨ trimSpace sub.upgradeGroup = ""
  · rw [if_pos hskip] at h
    cases h
    exact ⟨rfl, fun _ _ => rfl⟩
  rw [if_neg hskip] at h
  obtain ⟨currentGroup, -, h⟩ := Except.bind_eq_ok_iff.1 h
  split_ifs at h
  · cases h
    exact ⟨rfl, fun _ hne => get?_setUserGroup_of_ne hne⟩
  · cases h
    exact ⟨rfl, fun _ _ => rfl⟩

theorem userIn_reactivateUserGroup (hactive : sub.status ≠ .active) (hup : sub.upgradeGroup ≠ "")
    (htrim : trimSpace sub.upgradeGroup = sub.upgradeGroup) (huser : UserIn sub.userId db group) :
    UserIn sub.userId db' sub.upgradeGroup ∧
      prev = if sub.upgradeGroup = group then none else some group := by
  unfold reactivateUserGroup at h
  rw [htrim, if_neg (not_or.2 ⟨hactive, hup⟩)] at h
  obtain ⟨currentGroup, hcurrent, h⟩ := Except.bind_eq_ok_iff.1 h
  obtain rfl := getUserGroup_of_userIn huser hcurrent
  split_ifs at h with hne
  · cases h
    exact ⟨userIn_setUserGroup huser, by rw [if_neg (Ne.symm hne)]⟩
  · rw [not_not] at hne
    cases h
    exact ⟨hne ▸ huser, by rw [if_pos hne.symm]⟩

theorem reactivateUserGroup_of_skip
    (hskip : sub.status = .active ∨ sub.upgradeGroup = "") : db' = db ∧ prev = none := by
  unfold reactivateUserGroup at h
  have hskip' : sub.status = .active ∨ trimSpace sub.upgradeGroup = "" := by
    refine hskip.imp_right fun he => ?_
    rw [he]
    decide
  rw [if_pos hskip'] at h
  cases h
  exact ⟨rfl, rfl⟩

end

theorem inv_updateExpiry {newEndTime : ℤ}
    (horiginal : original ≠ "" ∧ trimSpace original = original) (hw : Inv userId original db now)
    (hnone : ∀ s, db.userSubscriptions.get? id = some s → Upgrades userId s →
      s.status ≠ .active → now < newEndTime → NoneActive userId db)
    (h : adminUpdateUserSubscriptionExpiry db now id newEndTime = .ok db') :
    Inv userId original db' now := by
  unfold adminUpdateUserSubscriptionExpiry at h
  split at h
  · cases h
  split at h
  · cases h
  split at h
  · cases h
  rename_i sub hsub
  split at h
  · cases h
  split at h
  · rename_i hpast
    obtain ⟨db₁, hcas, h⟩ := Except.bind_eq_ok_iff.1 h
    obtain ⟨-, -, -, -, rfl⟩ := casUserSubscriptionTx_of_ok hcas
    obtain ⟨⟨db₂, target⟩, hdown, h⟩ := Except.bind_eq_ok_iff.1 h
    cases h
    exact inv_endRow horiginal hw hsub hdown (fun _ => ⟨rfl, rfl, rfl⟩) ⟨rfl, rfl, rfl⟩
      fun _ => .inr ⟨rfl, hpast⟩
  rename_i hpast
  obtain ⟨⟨db₁, prev⟩, hreact, h⟩ := Except.bind_eq_ok_iff.1 h
  obtain ⟨-, row, hrow, -, rfl⟩ := casUserSubscriptionTx_of_ok h
  obtain ⟨hsubs, husers⟩ := reactivateUserGroup_of_ok hreact
  rw [hsubs] at hrow
  cases hsub.symm.trans hrow
  by_cases hme : sub.userId = userId
  · obtain ⟨group, huser, hfits⟩ := hw.group
    -- the group and the stored group after the reactivation
    have hcase : ∃ group', UserIn userId db₁ group' ∧
        (Upgrades userId sub → group' = sub.upgradeGroup ∧
          prev.getD sub.prevUserGroup = if sub.upgradeGroup = original then "" else original) ∧
        (¬ Upgrades userId sub → group' = group) := by
      by_cases hu : Upgrades userId sub
      · have hok := hw.rows id sub hsub hu
        by_cases ha : sub.status = .active
        · obtain ⟨rfl, rfl⟩ := reactivateUserGroup_of_skip hreact (.inl ha)
          exact ⟨group, huser, fun _ => ⟨hfits.1 id sub hsub ⟨hu, ha⟩, hok.prev⟩,
            fun hnot => absurd hu hnot⟩
        · obtain rfl := hfits.2 (hnone sub hsub hu ha (by omega))
          obtain ⟨huser', hprev⟩ := userIn_reactivateUserGroup hreact ha hu.2 hok.trimmed
            (hme.symm ▸ huser)
          refine ⟨sub.upgradeGroup, hme ▸ huser', fun _ => ⟨rfl, ?_⟩, fun hnot => absurd hu hnot⟩
          rw [hprev, hok.prev]
          split_ifs <;> rfl
      · have hblank : sub.upgradeGroup = "" := by
          by_contra hne
          exact hu ⟨hme, hne⟩
        obtain ⟨rfl, rfl⟩ := reactivateUserGroup_of_skip hreact (.inr hblank)
        exact ⟨group, huser, fun h => absurd h hu, fun _ => rfl⟩
    obtain ⟨group', huser', hgroup', hkeep⟩ := hcase
    have hup : Upgrades userId (extendedColumns (getSubscriptionPlanByIdTx db₁ sub.planId) now
        newEndTime prev sub) ↔ Upgrades userId sub := Iff.rfl
    refine inv_setRow id hw (fun id' => ?_) (fun s hs hu => ?_) (fun hu id' s hs ha => ?_)
      (fun hu => ⟨rfl, ?_⟩) huser' (fun hu => (hgroup' (hup.1 hu)).1)
      (fun hu => by rw [hkeep hu]; exact hfits)
    · dsimp only
      rw [hsubs, get?_modify]
      split_ifs with hid'
      · rw [hid', hsub, map_some]
      · rfl
    · cases hsub.symm.trans hs
      exact hup.2 hu
    · by_cases ha' : sub.status = .active
      · exact hw.unique id' id s sub hs ha hsub ⟨hup.1 hu, ha'⟩
      · exact absurd ha (hnone sub hsub (hup.1 hu) ha' (by omega) id' s hs)
    · exact ⟨(hw.rows id sub hsub (hup.1 hu)).trimmed, (hgroup' (hup.1 hu)).2, nofun, nofun,
        fun _ => not_le.1 hpast⟩
  · have hview : SameView userId db db₁ := ⟨fun _ _ _ => by rw [hsubs], husers userId hme⟩
    refine hw.congr (hview.trans (sameView_modify fun s hs => ?_))
    cases hsub.symm.trans (hsubs ▸ hs)
    exact ⟨hme, hme⟩

/-! ## Expiry -/

theorem lastByEndTime_eq_some {rows : List (ℤ × UserSubscription)} {e : ℤ × UserSubscription}
    (h : lastByEndTime rows = some e) : e ∈ rows ∧ ∀ e' ∈ rows, e'.2.endTime ≤ e.2.endTime := by
  let r : ℤ × UserSubscription → ℤ × UserSubscription → Prop := fun a b =>
    b.2.endTime < a.2.endTime ∨ b.2.endTime = a.2.endTime ∧ b.1 ≤ a.1
  have htotal : Std.Total r := ⟨fun a b => by simp only [r]; omega⟩
  have htrans : IsTrans _ r := ⟨fun a b c hab hbc => by simp only [r] at *; omega⟩
  have hsorted := pairwise_insertionSort r rows
  have hmem : ∀ e', e' ∈ rows.insertionSort r ↔ e' ∈ rows := fun e' => mem_insertionSort r
  unfold lastByEndTime at h
  cases hl : rows.insertionSort r with
  | nil =>
    rw [show List.insertionSort _ rows = [] from hl] at h
    cases h
  | cons a l =>
    rw [show List.insertionSort _ rows = a :: l from hl] at h
    obtain rfl := some.inj h
    rw [hl, pairwise_cons] at hsorted
    refine ⟨(hmem a).1 (by rw [hl]; exact mem_cons_self), fun e' he' => ?_⟩
    rcases mem_cons.1 (hl ▸ (hmem e').2 he') with rfl | hin
    · exact le_rfl
    · have := hsorted.1 e' hin
      simp only [r] at this
      omega

theorem lastByEndTime_eq_none {rows : List (ℤ × UserSubscription)} (h : lastByEndTime rows = none) :
    rows = [] := by
  unfold lastByEndTime at h
  rw [head?_eq_none_iff] at h
  have := congrArg List.length h
  rw [length_insertionSort, length_nil] at this
  exact length_eq_zero_iff.1 this

theorem get?_expired {s' : UserSubscription}
    (h : (db.userSubscriptions.updateWhere (fun _ s => s.userId = userId && isDue now s)
      fun s => { s with status := .expired, updatedAt := now }).get? id = some s') :
    ∃ s, db.userSubscriptions.get? id = some s ∧ ((s.userId = userId ∧ isDue now s = true ∧
        s' = { s with status := .expired, updatedAt := now }) ∨
      (¬ (s.userId = userId ∧ isDue now s = true) ∧ s' = s)) := by
  rw [get?_updateWhere, map_eq_some_iff] at h
  obtain ⟨s, hs, rfl⟩ := h
  refine ⟨s, hs, ?_⟩
  split_ifs with hp
  · rw [Bool.and_eq_true, decide_eq_true_eq] at hp
    exact .inl ⟨hp.1, hp.2, rfl⟩
  · rw [Bool.and_eq_true, decide_eq_true_eq] at hp
    exact .inr ⟨hp, rfl⟩

theorem sameView_expireUser {other : ℤ} (hne : other ≠ userId)
    (h : expireUserSubscriptions db now other = .ok db') : SameView userId db db' := by
  have hrows : ∀ id s, s.userId = userId →
      ((db.userSubscriptions.updateWhere (fun _ s => s.userId = other && isDue now s)
        fun s => { s with status := .expired, updatedAt := now }).get? id = some s ↔
        db.userSubscriptions.get? id = some s) := by
    intro id s hs
    constructor
    · intro hget
      obtain ⟨s₀, hs₀, ⟨hu, -, rfl⟩ | ⟨-, rfl⟩⟩ := get?_expired hget
      · exact absurd (hu.symm.trans hs) hne
      · exact hs₀
    · intro hget
      rw [get?_updateWhere, hget, map_some, if_neg]
      simp only [Bool.and_eq_true, decide_eq_true_eq]
      exact fun hp => hne (hp.1.symm.trans hs)
  unfold expireUserSubscriptions at h
  dsimp only at h
  split_ifs at h
  · cases h
    exact ⟨hrows, rfl⟩
  split at h
  · cases h
    exact ⟨hrows, rfl⟩
  split_ifs at h
  · cases h
    exact ⟨hrows, rfl⟩
  obtain ⟨currentGroup, -, h⟩ := Except.bind_eq_ok_iff.1 h
  split_ifs at h
  · cases h
    exact ⟨hrows, rfl⟩
  · cases h
    exact ⟨hrows, get?_setUserGroup_of_ne hne⟩

def expireRows (db : Db) (now userId : ℤ) : Table ℤ UserSubscription :=
  db.userSubscriptions.updateWhere (fun _ s => s.userId = userId && isDue now s)
    fun s => { s with status := .expired, updatedAt := now }

theorem active_of_expireRows {s : UserSubscription} (hw : Inv userId original db now)
    (hs : (expireRows db now' userId).get? id = some s) (ha : ActiveUpgrade userId s) :
    db.userSubscriptions.get? id = some s ∧ now' < s.endTime := by
  obtain ⟨s₀, hs₀, ⟨-, -, rfl⟩ | ⟨hnot, rfl⟩⟩ := get?_expired hs
  · cases ha.2
  · refine ⟨hs₀, ?_⟩
    have hlater := (hw.rows id s hs₀ ha.1).active ha.2
    have hpos := hw.now_nonneg
    by_contra hle
    refine hnot ⟨ha.1.1, ?_⟩
    simp only [isDue, ha.2, decide_true, Bool.true_or, Bool.true_and, Bool.and_eq_true,
      decide_eq_true_eq]
    omega

theorem inv_expired (hw : Inv userId original db now) (hnow : now ≤ now')
    (hrows : db'.userSubscriptions = expireRows db now' userId)
    (hgroup : ∃ group, UserIn userId db' group ∧ GroupFits userId original db' group) :
    Inv userId original db' now' := by
  refine ⟨hw.now_nonneg.trans hnow, fun id s hs hu => ?_, fun id₁ id₂ s₁ s₂ hs₁ ha₁ hs₂ ha₂ => ?_,
    hgroup⟩
  · rw [hrows] at hs
    obtain ⟨s₀, hs₀, ⟨-, hdue, rfl⟩ | ⟨-, rfl⟩⟩ := get?_expired hs
    · have hrow := hw.rows id s₀ hs₀ hu
      refine ⟨hrow.trimmed, hrow.prev, nofun, fun _ => ?_, nofun⟩
      simp only [isDue, Bool.and_eq_true, decide_eq_true_eq] at hdue
      exact hdue.2
    · have hrow := hw.rows id s hs₀ hu
      exact ⟨hrow.trimmed, hrow.prev, hrow.notExhausted, fun he => (hrow.expired he).trans hnow,
        fun he => (active_of_expireRows hw hs ⟨hu, he⟩).2⟩
  · rw [hrows] at hs₁ hs₂
    exact hw.unique id₁ id₂ s₁ s₂ (active_of_expireRows hw hs₁ ha₁).1 ha₁
      (active_of_expireRows hw hs₂ ha₂).1 ha₂

/-- When nothing is active after the expiry, the group is that of the subscription that ended last,
or it is the original one already. -/
theorem group_of_lastExpired (hw : Inv userId original db now)
    (hfits : GroupFits userId original db group)
    (hnone : ∀ id s, (expireRows db now' userId).get? id = some s → ¬ ActiveUpgrade userId s)
    {last : Option (ℤ × UserSubscription)}
    (hlast : lastByEndTime ((expireRows db now' userId).rows.filter fun e =>
      e.2.userId = userId && e.2.status = .expired && e.2.upgradeGroup ≠ "") = last) :
    group = original ∨ ∃ e, last = some e ∧ group = e.2.upgradeGroup := by
  by_cases hn : NoneActive userId db
  · exact .inl (hfits.2 hn)
  simp only [NoneActive, not_forall, not_not] at hn
  obtain ⟨id, s, hs, ha⟩ := hn
  -- the active subscription has just expired
  have hexp : (expireRows db now' userId).get? id =
      some { s with status := .expired, updatedAt := now' } := by
    have hget : (expireRows db now' userId).get? id = some
        (if decide (s.userId = userId) && isDue now' s then
          { s with status := .expired, updatedAt := now' } else s) := by
      unfold expireRows
      rw [get?_updateWhere, hs, map_some]
    split_ifs at hget
    · exact hget
    · exact absurd ha (hnone id s hget)
  have hmem : (id, { s with status := .expired, updatedAt := now' }) ∈
      (expireRows db now' userId).rows.filter fun e =>
        e.2.userId = userId && e.2.status = .expired && e.2.upgradeGroup ≠ "" := by
    refine mem_filter.2 ⟨(get?_eq_some_iff _ _ _).1 hexp, ?_⟩
    simp [ha.1.1, ha.1.2]
  cases last with
  | none =>
    rw [lastByEndTime_eq_none hlast] at hmem
    cases hmem
  | some e =>
    refine .inr ⟨e, rfl, ?_⟩
    obtain ⟨he, hmax⟩ := lastByEndTime_eq_some hlast
    obtain ⟨hrow, hp⟩ := mem_filter.1 he
    simp only [Bool.and_eq_true, decide_eq_true_eq] at hp
    obtain ⟨s₀, hs₀, hcase⟩ := get?_expired ((get?_eq_some_iff _ e.1 e.2).2 hrow)
    have hlater := (hw.rows id s hs ha.1).active ha.2
    have hle := hmax _ hmem
    dsimp only at hle
    obtain ⟨hu, hdue, heq⟩ | ⟨-, heq⟩ := hcase
    · -- it has just expired too, so it is the same one
      have hup : Upgrades userId s₀ := ⟨hu, by rw [heq] at hp; exact hp.2⟩
      have hactive : s₀.status = .active := by
        have hnot := (hw.rows e.1 s₀ hs₀ hup).notExhausted
        simp only [isDue, Bool.and_eq_true, Bool.or_eq_true, decide_eq_true_eq] at hdue
        exact hdue.1.1.resolve_right hnot
      have hid := hw.unique id e.1 s s₀ hs ha hs₀ ⟨hup, hactive⟩
      rw [← hid, hs] at hs₀
      cases hs₀
      rw [heq]
      exact hfits.1 id s hs ha
    · -- it expired earlier, before the end of the active one
      have hended := (hw.rows e.1 s₀ hs₀ ⟨heq ▸ hp.1.1, heq ▸ hp.2⟩).expired (heq ▸ hp.1.2)
      rw [heq] at hle
      omega

theorem inv_expireUser (horiginal : original ≠ "" ∧ trimSpace original = original)
    (hw : Inv userId original db now) (hnow : now ≤ now')
    (h : expireUserSubscriptions db now' userId = .ok db') : Inv userId original db' now' := by
  obtain ⟨group, huser, hfits⟩ := hw.group
  unfold expireUserSubscriptions at h
  rw [← expireRows] at h
  by_cases hany : (expireRows db now' userId).rows.any fun e => isActiveUpgrade userId now' e.2
  · rw [if_pos hany] at h
    cases h
    refine inv_expired hw hnow rfl ⟨group, huser, fun id s hs ha => ?_, fun hn => ?_⟩
    · exact hfits.1 id s (active_of_expireRows hw hs ha).1 ha
    · obtain ⟨e, he, hp⟩ := any_eq_true.1 hany
      simp only [isActiveUpgrade, Bool.and_eq_true, decide_eq_true_eq] at hp
      exact absurd ⟨⟨hp.1.1.1, hp.2⟩, hp.1.1.2⟩ (hn e.1 e.2 ((get?_eq_some_iff _ _ _).2 he))
  rw [if_neg hany] at h
  have hnone : ∀ id s, (expireRows db now' userId).get? id = some s → ¬ ActiveUpgrade userId s := by
    intro id s hs ha
    refine hany (any_eq_true.2 ⟨(id, s), (get?_eq_some_iff _ _ _).1 hs, ?_⟩)
    simp [isActiveUpgrade, ha.1.1, ha.1.2, ha.2, (active_of_expireRows hw hs ha).2]
  have hdone : ∀ db' : Db, db'.userSubscriptions = expireRows db now' userId →
      UserIn userId db' original → Inv userId original db' now' := by
    intro db' hrows huser'
    refine inv_expired hw hnow hrows ⟨original, huser', fun id s hs ha => ?_, fun _ => rfl⟩
    rw [hrows] at hs
    exact absurd ha (hnone id s hs)
  have hgroup := group_of_lastExpired hw hfits hnone rfl
  split at h
  · rename_i hlast
    rw [hlast] at hgroup
    cases h
    obtain rfl : group = original := by
      rcases hgroup with h | ⟨e, he, -⟩
      · exact h
      · cases he
    exact hdone _ rfl huser
  · rename_i id last hlast
    rw [hlast] at hgroup
    have hgroup' : group = original ∨ group = last.upgradeGroup := by
      rcases hgroup with h | ⟨e, he, hg⟩
      · exact .inl h
      · cases he
        exact .inr hg
    -- the stored group of the subscription that ended last
    obtain ⟨he, -⟩ := lastByEndTime_eq_some hlast
    obtain ⟨hrow, hp⟩ := mem_filter.1 he
    simp only [Bool.and_eq_true, decide_eq_true_eq] at hp
    obtain ⟨s₀, hs₀, hcase⟩ := get?_expired ((get?_eq_some_iff _ id last).2 hrow)
    have hsame : last.upgradeGroup = s₀.upgradeGroup ∧ last.prevUserGroup = s₀.prevUserGroup ∧
        last.userId = s₀.userId := by
      obtain ⟨-, -, rfl⟩ | ⟨-, rfl⟩ := hcase <;> exact ⟨rfl, rfl, rfl⟩
    have hok := hw.rows id s₀ hs₀ ⟨hsame.2.2 ▸ hp.1.1, hsame.1 ▸ hp.2⟩
    rw [hsame.1] at hgroup' hp h
    rw [hsame.2.1, hok.trimmed, hok.prev] at h
    by_cases horig : s₀.upgradeGroup = original
    · rw [if_pos horig, if_pos (Or.inr (by decide))] at h
      cases h
      obtain rfl : group = original := by
        rcases hgroup' with h | h
        · exact h
        · exact h.trans horig
      exact hdone _ rfl huser
    · have hkeep : ¬ (s₀.upgradeGroup = "" ∨ original = "") := not_or.2 ⟨hp.2, horiginal.1⟩
      rw [if_neg horig, horiginal.2, if_neg hkeep] at h
      obtain ⟨currentGroup, hcurrent, h⟩ := Except.bind_eq_ok_iff.1 h
      obtain rfl := getUserGroup_of_userIn (show UserIn userId _ group from huser) hcurrent
      rcases hgroup' with rfl | rfl
      · rw [if_pos (Or.inl (Ne.symm horig))] at h
        cases h
        exact hdone _ rfl huser
      · rw [if_neg (not_or.2 ⟨not_not.2 rfl, horig⟩)] at h
        cases h
        refine hdone _ ?_ (userIn_setUserGroup huser)
        rfl

theorem sameView_expireUsers {users : List ℤ} (hnot : userId ∉ users) (now : ℤ) (db : Db) :
    SameView userId db (users.foldl (fun db userId =>
      ((expireUserSubscriptions db now userId).toOption).getD db) db) := by
  induction users generalizing db with
  | nil => exact SameView.refl userId db
  | cons other users ih =>
    rw [mem_cons, not_or] at hnot
    rw [foldl_cons]
    refine SameView.trans ?_ (ih hnot.2 _)
    cases h : expireUserSubscriptions db now other with
    | ok db' => exact sameView_expireUser (Ne.symm hnot.1) h
    | error e => exact SameView.refl userId db

theorem getUserGroupByIdTx_of_pos (hpos : 0 < userId) (db : Db) :
    ∃ group, getUserGroupByIdTx db userId = .ok group := by
  unfold getUserGroupByIdTx
  rw [if_neg (by omega)]
  split
  · exact ⟨_, rfl⟩
  · exact ⟨_, rfl⟩

theorem expireUserSubscriptions_of_pos (hpos : 0 < userId) (db : Db) (now : ℤ) :
    ∃ db', expireUserSubscriptions db now userId = .ok db' := by
  cases h : expireUserSubscriptions db now userId with
  | ok db' => exact ⟨db', rfl⟩
  | error e =>
    unfold expireUserSubscriptions at h
    dsimp only at h
    split_ifs at h
    split at h
    · cases h
    split_ifs at h
    obtain ⟨group, hgroup⟩ := getUserGroupByIdTx_of_pos hpos
      { db with
        userSubscriptions := db.userSubscriptions.updateWhere
          (fun _ s => s.userId = userId && isDue now s)
          fun s => { s with status := .expired, updatedAt := now } }
    rw [hgroup] at h
    simp only [bind, Except.bind] at h
    split_ifs at h

theorem inv_expire {limit : ℤ} (horiginal : original ≠ "" ∧ trimSpace original = original)
    (hw : Inv userId original db now) (hnow : now ≤ now')
    (hdue : NoneOverdue userId db now' ∨ userId ∈ dueUsers db now' limit) :
    Inv userId original (expireDueSubscriptions db now' limit) now' := by
  unfold expireDueSubscriptions
  by_cases hmem : userId ∈ dueUsers db now' limit
  · -- the user is processed once, and the others before and after it
    have hnodup : (dueUsers db now' limit).Nodup := (nodup_dedup _).filter _
    have hpos : 0 < userId := of_decide_eq_true (mem_filter.1 hmem).2
    obtain ⟨l, l', hl⟩ := append_of_mem hmem
    rw [hl, nodup_append, nodup_cons] at hnodup
    obtain ⟨-, ⟨hnot', -⟩, hdisj⟩ := hnodup
    have hnot : userId ∉ l := fun hin => hdisj userId hin userId mem_cons_self rfl
    rw [hl, foldl_append, foldl_cons]
    have hview := sameView_expireUsers hnot now' db
    have hw₁ := hw.congr hview
    obtain ⟨db₂, hdb₂⟩ := expireUserSubscriptions_of_pos hpos (l.foldl (fun db userId =>
      ((expireUserSubscriptions db now' userId).toOption).getD db) db) now'
    rw [hdb₂]
    have hw₂ := inv_expireUser horiginal hw₁ hnow hdb₂
    exact hw₂.congr (sameView_expireUsers hnot' now' db₂)
  · exact hw.of_view (sameView_expireUsers hmem now' db) hnow (hdue.resolve_right hmem)

/-! ## Every run -/

/-- The states in which a run starts: the user has no upgrade subscription yet. -/
structure Start (userId : ℤ) (original : String) (w : World) : Prop where
  now_nonneg : 0 ≤ w.now
  rows : ∀ id s, w.db.userSubscriptions.get? id = some s → ¬ Upgrades userId s
  user : UserIn userId w.db original

theorem inv_of_start {w : World} (h : Start userId original w) : Inv userId original w.db w.now :=
  ⟨h.now_nonneg, fun id s hs hu => absurd hu (h.rows id s hs),
    fun id _ s _ hs ha _ _ => absurd ha.1 (h.rows id s hs),
    original, h.user, fun id s hs ha => absurd ha.1 (h.rows id s hs), fun _ => rfl⟩

theorem Inv.advance (hw : Inv userId original db now) (hnow : now ≤ now')
    (hdue : NoneOverdue userId db now') : Inv userId original db now' :=
  hw.of_view (SameView.refl userId db) hnow hdue

theorem step_inv {zone : ℤ} {w w' : World} {c : Call}
    (horiginal : original ≠ "" ∧ trimSpace original = original)
    (hw : Inv userId original w.db w.now) (hapart : Apart zone userId w c)
    (h : step zone w c = some w') : Inv userId original w'.db w'.now := by
  obtain ⟨now, op⟩ := c
  unfold step at h
  split_ifs at h with hback
  cases h
  have hnow : w.now ≤ now := not_lt.1 hback
  -- a call other than an expiry finds nothing overdue
  have hfail : NoneOverdue userId w.db now → ∀ res : Except String Db,
      (∀ db, res = .ok db → Inv userId original db now) →
      Inv userId original (res.toOption.getD w.db) now := by
    intro hdue res hres
    cases res with
    | error e => exact hw.advance hnow hdue
    | ok db => exact hres db rfl
  cases op with
  | create buyer planId plan =>
    obtain ⟨hdue, hnone⟩ := hapart
    refine hfail hdue _ fun db hdb => ?_
    obtain ⟨id, hok⟩ := Except.map_fst_eq_ok hdb
    exact inv_create (hw.advance hnow hdue) hnone hok
  | expire limit => exact inv_expire horiginal hw hnow hapart
  | invalidate id =>
    refine hfail hapart _ fun db hdb => ?_
    obtain ⟨target, hok⟩ := Except.map_fst_eq_ok hdb
    exact inv_invalidate horiginal (hw.advance hnow hapart) hok
  | delete id =>
    refine hfail hapart _ fun db hdb => ?_
    obtain ⟨target, hok⟩ := Except.map_fst_eq_ok hdb
    exact inv_delete horiginal (hw.advance hnow hapart) hok
  | updateExpiry id newEndTime =>
    obtain ⟨hdue, hnone⟩ := hapart
    exact hfail hdue _ fun db hdb =>
      inv_updateExpiry horiginal (hw.advance hnow hdue) hnone hdb

/-- In every run that keeps the upgrade subscriptions of a user apart, the user is in its original
group whenever none of them is active and unexpired. -/
theorem group_restored_of_run {zone userId : ℤ} {original : String} {w w' : World} {l : List Call}
    (horiginal : original ≠ "" ∧ trimSpace original = original) (hstart : Start userId original w)
    (hapart : Run.Along (step zone) (Apart zone userId) w l) (h : Run.run (step zone) w l = some w')
    (hnone : ∀ id s, w'.db.userSubscriptions.get? id = some s → Upgrades userId s →
      ¬ (s.status = .active ∧ w'.now < s.endTime)) :
    UserIn userId w'.db original := by
  have hw' : (fun w : World => Inv userId original w.db w.now) w' :=
    Run.invariant_along (fun _ _ _ hi ha hs => step_inv horiginal hi ha hs)
      (inv_of_start hstart) hapart h
  obtain ⟨group, huser, hfits⟩ := hw'.group
  rwa [hfits.2 fun id s hs ha => hnone id s hs ha.1 ⟨ha.2, (hw'.rows id s hs ha.1).active ha.2⟩]
    at huser

/-! ## Subscriptions apart and overlapping -/

/-- A user in the group `default`, without subscriptions. -/
def defaultWorld : World where
  db := { users := Table.empty.put 1 { quota := 0, group := "default" } }
  now := 0

theorem start_defaultWorld : Start 1 "default" defaultWorld :=
  ⟨le_rfl, (fun _ _ hs => by cases hs), { quota := 0, group := "default" }, rfl, rfl, rfl⟩

def vipPlan (seconds : ℤ) : SubscriptionPlan :=
  { durationUnit := "custom", customSeconds := seconds, upgradeGroup := "vip" }

/-- The second purchase comes before the first subscription has ended. -/
def overlappingPurchases : List Call :=
  [⟨10, .create 1 1 (vipPlan 100)⟩, ⟨20, .create 1 2 (vipPlan 200)⟩, ⟨110, .expire 200⟩,
    ⟨220, .expire 200⟩]

/-- The second purchase stores no previous group, and it ends last: the user stays in `vip` with no active
subscription. -/
theorem group_kept_after_overlap :
    ∃ w', Start 1 "default" defaultWorld ∧
      Run.run (step 0) defaultWorld overlappingPurchases = some w' ∧
      (∀ id s, w'.db.userSubscriptions.get? id = some s → s.status = .expired) ∧
      UserIn 1 w'.db "vip" ∧ ¬ UserIn 1 w'.db "default" := by
  simp only [start_defaultWorld, true_and]
  decide

/-- The second purchase comes after the end of the first subscription. -/
def purchasesApart : List Call :=
  [⟨10, .create 1 1 (vipPlan 100)⟩, ⟨110, .expire 200⟩, ⟨120, .create 1 2 (vipPlan 200)⟩,
    ⟨320, .expire 200⟩]

theorem group_restored_of_purchasesApart :
    ∃ w', Run.run (step 0) defaultWorld purchasesApart = some w' ∧ UserIn 1 w'.db "default" := by
  refine exists_some_imp (p := fun w => ∀ id s, w.db.userSubscriptions.get? id = some s →
    s.status = .expired) (by decide) fun w' h hexpired => ?_
  refine group_restored_of_run (by decide) start_defaultWorld (by decide) h fun id s hs _ ha => ?_
  cases (hexpired id s hs).symm.trans ha.1

end BeeApi.Subscription.Upgrade
