import BeeApi.Subscription.Effect
import BeeApi.Subscription.GroupEffect

/-!
# The downgrade at exhaustion and its undoing

A subscription that has used up its quota is marked `exhausted`, and the last one of an upgrade group moves
its user into its fallback group.  A reset makes it active again and moves the user back, but only from its
own fallback group (or from `auto`); a refund lowers the usage and leaves the status alone.
-/

namespace BeeApi.Subscription.Exhaustion

open Strings List Option Table Except

/-! ## Calls -/

inductive Op
  /-- `PreConsumeUserSubscription` and `PreConsumeUserSubscriptionToken`. -/
  | preConsume (req : PreConsumeRequest)
  /-- `ReserveSubscriptionPreConsumeTokenQuota`. -/
  | reserve (requestId : String) (userId userSubscriptionId tokenId delta : ℤ)
  /-- `PostConsumeUserSubscriptionDelta`. -/
  | postConsume (id delta : ℤ)
  /-- `AdjustSubscriptionTokenQuota`. -/
  | adjust (userID userSubscriptionID tokenID delta : ℤ)
  /-- `RefundSubscriptionPreConsume`. -/
  | refund (requestId : String)
  /-- `UpdateFailureWithRefund`. -/
  | taskRefund (id : ℤ) (t : Task) (fromStatus : TaskStatus)
  /-- The transaction of `ProcessExhaustedSubscriptions` for a subscription that it has read. -/
  | processExhausted (id : ℤ)
  /-- The transaction of `ResetDueSubscriptions` for a subscription that it has read. -/
  | resetDue (id : ℤ)
  /-- `AdminResetPlanSubscriptions` and `AdminResetUserSubscriptionsByPlan`. -/
  | adminReset (planId : ℤ) (userId : Option ℤ) (advanceResetTime : Bool)

structure Call where
  now : ℤ
  op : Op

def exec (strict : Bool) (db : Db) (now : ℤ) : Op → Except String Db
  | .preConsume req => (preConsumeUserSubscription strict db now req).map Prod.fst
  | .reserve requestId userId userSubscriptionId tokenId delta =>
    reserveSubscriptionPreConsumeTokenQuota db now requestId userId userSubscriptionId tokenId delta
  | .postConsume id delta => postConsumeUserSubscriptionDelta db now id delta
  | .adjust userID userSubscriptionID tokenID delta =>
    adjustSubscriptionTokenQuota db now userID userSubscriptionID tokenID delta
  | .refund requestId => refundSubscriptionPreConsume db now requestId
  | .taskRefund id t fromStatus => (updateFailureWithRefund db now id t fromStatus).map Prod.fst
  | .processExhausted id => (processExhaustedSubscription db now id).map Prod.fst
  | .resetDue id => (resetDueSubscriptionById db now id).map Prod.fst
  | .adminReset planId userId advanceResetTime =>
    (adminResetSubscriptions db now planId userId advanceResetTime).map Prod.fst

/-- The database after a call; a call that fails changes nothing. -/
def step (strict : Bool) (db : Db) (c : Call) : Option Db :=
  some ((exec strict db c.now c.op).toOption.getD db)

/-- A subscription of the user with quota left moves the user into the group, and none with quota left
is exhausted. -/
def Undone (userId : ℤ) (group : String) (db : Db) : Prop :=
  (∀ id s, db.userSubscriptions.get? id = some s → s.userId = userId → s.status = .active →
    s.amountUsed < s.amountTotal → UserIn userId db group) ∧
  ∀ id s, db.userSubscriptions.get? id = some s → s.userId = userId → s.status = .exhausted →
    ¬ s.amountUsed < s.amountTotal

def Unexpired (userId : ℤ) (db : Db) (c : Call) : Prop :=
  ∀ id s, db.userSubscriptions.get? id = some s → s.userId = userId → s.status = .active →
    c.now < s.endTime

/-! ## The condition -/

/-- A reset of the subscription makes it active again. -/
def Revived (userId : ℤ) (e : ℤ × UserSubscription) : Prop :=
  e.2.userId = userId ∧ e.2.status = .exhausted

/-- A reset that revives subscriptions of the user finds it in the group, or in one from which one of
them restores it. -/
def Restores (userId : ℤ) (group : String) (db : Db) (subs : List (ℤ × UserSubscription)) : Prop :=
  (∃ e ∈ subs, Revived userId e) → ∀ u ∈ db.users.get? userId,
    u.group = group ∨ ∃ e ∈ subs, Revived userId e ∧ u.group ∈ restoreFrom e.2

def StaysFull (userId : ℤ) (db : Db) (id delta : ℤ) : Prop :=
  ∀ s ∈ db.userSubscriptions.get? id, s.userId = userId → s.status = .exhausted →
    s.amountTotal ≤ s.amountUsed + delta

/-- The reset time has been passed, so that a reset happens. -/
def resetAdvances (now : ℤ) (plan : SubscriptionPlan) (s : UserSubscription) : Bool :=
  normalizeResetPeriod plan.quotaResetPeriod ≠ .never &&
    (rollForwardFrom plan s.endTime now
      (if s.lastResetTime ≤ 0 then s.startTime else s.lastResetTime)).any fun r => r.1

/-- The calls that undo what they should: when one commits, a reset restores the group, and a refund
does not lower an exhausted subscription below its total. -/
def Undoes (strict : Bool) (userId : ℤ) (group : String) (db : Db) (c : Call) : Prop :=
  (exec strict db c.now c.op).toOption ≠ none → match c.op with
    | .preConsume _ => True
    | .reserve _ _ _ _ _ => True
    | .processExhausted _ => True
    | .postConsume id delta =>
      StaysFull userId db id delta ∧
        ∀ s ∈ db.userSubscriptions.get? id, s.userId = userId → s.status = .exhausted →
          s.amountUsed + delta < 2 ^ 63
    | .adjust _ id _ delta => StaysFull userId db id delta
    | .refund requestId =>
      ∀ r ∈ db.subscriptionPreConsumeRecords.get? requestId, r.status = .consumed →
        StaysFull userId db r.userSubscriptionId (-r.preConsumed)
    | .taskRefund id t fromStatus =>
      (updateFailureWithRefund db c.now id t fromStatus).toOption.any Prod.snd →
        normalizeAsyncTaskBillingSource t.billingSource t.subscriptionId = "subscription" →
          StaysFull userId db t.subscriptionId (-t.quota)
    | .resetDue id =>
      ∀ s ∈ db.userSubscriptions.get? id, isResetDue c.now s →
        ∀ plan ∈ (getSubscriptionPlanByIdTx db s.planId).toOption, resetAdvances c.now plan s →
          Restores userId group db [(id, s)]
    | .adminReset planId user _ =>
      Restores userId group db (subscriptionsWhere db (resettable c.now planId user))

instance (userId : ℤ) (e : ℤ × UserSubscription) : Decidable (Revived userId e) :=
  inferInstanceAs (Decidable (_ ∧ _))

instance (userId : ℤ) (group : String) (db : Db) (subs : List (ℤ × UserSubscription)) :
    Decidable (Restores userId group db subs) :=
  inferInstanceAs (Decidable (_ → ∀ u ∈ db.users.get? userId, _))

instance (userId : ℤ) (db : Db) (id delta : ℤ) : Decidable (StaysFull userId db id delta) :=
  inferInstanceAs (Decidable (∀ s ∈ db.userSubscriptions.get? id, _))

instance (strict : Bool) (userId : ℤ) (group : String) (db : Db) (c : Call) :
    Decidable (Undoes strict userId group db c) := by
  obtain ⟨now, op⟩ := c
  cases op <;> exact inferInstanceAs (Decidable (_ → _))

instance (userId : ℤ) (db : Db) (c : Call) : Decidable (Unexpired userId db c) :=
  Table.decidableForallGet? db.userSubscriptions fun _ s =>
    s.userId = userId → s.status = .active → c.now < s.endTime

/-- A subscription of the user: it belongs to the group and has a fallback group, it is not marked
while it is active, and it is full while it is exhausted. -/
structure RowOk (group : String) (s : UserSubscription) : Prop where
  upgradeGroup : s.upgradeGroup = group
  fallbackGroup : trimSpace s.fallbackGroup ≠ ""
  active : s.status = .active → s.exhaustNotifiedAt = 0
  exhausted : s.status = .exhausted → s.amountTotal ≤ s.amountUsed

def RowsOk (userId : ℤ) (group : String) (db : Db) : Prop :=
  ∀ id s, db.userSubscriptions.get? id = some s → s.userId = userId → RowOk group s

def NoneActive (userId : ℤ) (db : Db) : Prop :=
  ∀ id s, db.userSubscriptions.get? id = some s → s.userId = userId → s.status ≠ .active

/-- While a subscription of the user is active, the user is in the group. -/
structure Inv (userId : ℤ) (group : String) (db : Db) : Prop where
  rows : RowsOk userId group db
  user : ∃ g, UserIn userId db g ∧ (g = group ∨ NoneActive userId db)

variable {db db₁ db' : Db} {userId id now delta tokenId : ℤ} {group g : String}
  {s sub : UserSubscription} {f : UserSubscription → UserSubscription} {plan : SubscriptionPlan}
  {advanced strict advanceResetTime : Bool} {req : PreConsumeRequest}
  {result : SubscriptionPreConsumeResult} {e : ℤ × UserSubscription}

theorem Inv.undone (h : Inv userId group db) : Undone userId group db := by
  refine ⟨fun id s hs hu ha _ => ?_, fun id s hs hu he => ?_⟩
  · obtain ⟨g, hg, rfl | hnone⟩ := h.user
    · exact hg
    · exact absurd ha (hnone id s hs hu)
  · exact not_lt.2 ((h.rows id s hs hu).exhausted he)

/-! ## Charges and refunds -/

/-- What a charge or a refund does to a row: no status changes, and an exhausted row stays full. -/
structure Charges (s s' : UserSubscription) : Prop where
  userId : s'.userId = s.userId
  upgradeGroup : s'.upgradeGroup = s.upgradeGroup
  fallbackGroup : s'.fallbackGroup = s.fallbackGroup
  status : s'.status = s.status
  notified : s.exhaustNotifiedAt = 0 → s'.exhaustNotifiedAt = 0
  full : s.status = .exhausted → s.amountTotal ≤ s.amountUsed → s'.amountTotal ≤ s'.amountUsed

theorem Charges.refl (s : UserSubscription) : Charges s s :=
  ⟨rfl, rfl, rfl, rfl, id, fun _ => id⟩

theorem Charges.trans {s' s'' : UserSubscription} (h : Charges s s') (h' : Charges s' s'') :
    Charges s s'' :=
  ⟨h'.userId.trans h.userId, h'.upgradeGroup.trans h.upgradeGroup,
    h'.fallbackGroup.trans h.fallbackGroup, h'.status.trans h.status,
    fun hn => h'.notified (h.notified hn), fun hs hf => h'.full (h.status.trans hs) (h.full hs hf)⟩

theorem Charges.rowOk {s' : UserSubscription} (h : Charges s s') (hs : RowOk group s) :
    RowOk group s' :=
  ⟨h.upgradeGroup.trans hs.upgradeGroup, by rw [h.fallbackGroup]; exact hs.fallbackGroup,
    fun ha => h.notified (hs.active (h.status.symm.trans ha)),
    fun he => h.full (h.status.symm.trans he) (hs.exhausted (h.status.symm.trans he))⟩

/-- Nothing happened to a user and to the subscriptions of any user but charges and refunds. -/
structure Quiet (userId : ℤ) (db db' : Db) : Prop where
  rows : Table.Rel (fun _ s s' => s'.userId = s.userId ∧ (s.userId = userId → Charges s s'))
    db.userSubscriptions db'.userSubscriptions
  user : ∀ g, UserIn userId db g → UserIn userId db' g

theorem Quiet.refl (userId : ℤ) (db : Db) : Quiet userId db db :=
  ⟨Table.Rel.refl fun _ s _ => ⟨rfl, fun _ => Charges.refl s⟩, fun _ => id⟩

theorem Quiet.trans {db₂ : Db} (h : Quiet userId db db₁) (h' : Quiet userId db₁ db₂) :
    Quiet userId db db₂ := by
  refine ⟨h.rows.trans h'.rows ?_, fun g hg => h'.user g (h.user g hg)⟩
  rintro _ s s₁ s₂ ⟨hu, hc⟩ ⟨hu', hc'⟩
  exact ⟨hu'.trans hu, fun hs => (hc hs).trans (hc' (hu.trans hs))⟩

theorem RowsOk.of_quiet (h : RowsOk userId group db) (hq : Quiet userId db db') :
    RowsOk userId group db' := by
  intro id s' hs' hu
  obtain ⟨s, hs, huser, hc⟩ := hq.rows.get?_after hs'
  exact (hc (huser.symm.trans hu)).rowOk (h id s hs (huser.symm.trans hu))

theorem NoneActive.of_quiet (h : NoneActive userId db) (hq : Quiet userId db db') :
    NoneActive userId db' := by
  intro id s' hs' hu
  obtain ⟨s, hs, huser, hc⟩ := hq.rows.get?_after hs'
  rw [(hc (huser.symm.trans hu)).status]
  exact h id s hs (huser.symm.trans hu)

theorem Inv.of_quiet (h : Inv userId group db) (hq : Quiet userId db db') :
    Inv userId group db' := by
  obtain ⟨g, hg, hgroup⟩ := h.user
  exact ⟨h.rows.of_quiet hq, g, hq.user g hg, hgroup.imp_right fun hn => hn.of_quiet hq⟩

theorem quiet_of_eq (hs : db'.userSubscriptions = db.userSubscriptions) (hu : db'.users = db.users)
    : Quiet userId db db' := by
  refine ⟨?_, fun g hg => ?_⟩
  · rw [hs]
    exact (Quiet.refl userId db).rows
  · simpa only [UserIn, hu] using hg

theorem quiet_modify (hs : db'.userSubscriptions = db.userSubscriptions.modify id f)
    (hu : db'.users = db.users) (hf : ∀ s, db.userSubscriptions.get? id = some s →
      (f s).userId = s.userId ∧ (s.userId = userId → Charges s (f s))) : Quiet userId db db' := by
  refine ⟨?_, fun g hg => ?_⟩
  · rw [hs]
    exact rel_modify hf fun _ s _ => ⟨rfl, fun _ => Charges.refl s⟩
  · simpa only [UserIn, hu] using hg

theorem quiet_moved (hfull : StaysFull userId db id delta)
    (hs : db₁.userSubscriptions = db.userSubscriptions) (hu : db₁.users = db.users) :
    Quiet userId db (moved db₁ now id tokenId delta) := by
  refine quiet_modify (f := usageUpdates now delta) (by rw [← hs]; rfl) hu fun s hget =>
    ⟨rfl, fun hu => ⟨rfl, rfl, rfl, rfl, fun hn => hn, fun he _ => hfull s hget hu he⟩⟩

theorem staysFull_of_nonneg (hrows : RowsOk userId group db) (hdelta : 0 ≤ delta) :
    StaysFull userId db id delta := by
  intro s hs hu he
  have := (hrows id s hs hu).exhausted he
  omega

theorem status_of_casMatches {snapshot : UserSubscription} (h : casMatches snapshot s = true) :
    s.status = snapshot.status := by
  simp only [casMatches, Bool.and_eq_true, decide_eq_true_eq] at h
  exact h.1.1.1.1.1.1.1

/-- What `maybeResetUserSubscriptionWithPlanTx` does to a row: the owner, the groups, the status and
the total stay, and so do the usage and the mark unless the reset time was passed. -/
structure ResetRow (advanced : Bool) (f : UserSubscription → UserSubscription) : Prop where
  same : ∀ s, (f s).userId = s.userId ∧ (f s).upgradeGroup = s.upgradeGroup ∧
    (f s).fallbackGroup = s.fallbackGroup ∧ (f s).status = s.status ∧
    (f s).amountTotal = s.amountTotal
  kept : advanced = false → ∀ s,
    (f s).exhaustNotifiedAt = s.exhaustNotifiedAt ∧ (f s).amountUsed = s.amountUsed
  unmarked : advanced = true → ∀ s, (f s).exhaustNotifiedAt = 0

theorem maybeReset_modify {sub' : UserSubscription}
    (h : maybeResetUserSubscriptionWithPlanTx db id sub plan now = .ok (db', sub', advanced)) :
    ∃ f, ResetRow advanced f ∧
      db' = { db with userSubscriptions := db.userSubscriptions.modify id f } ∧
      (advanced = true → resetAdvances now plan sub = true ∧
        ∀ s, db.userSubscriptions.get? id = some s → s.status = sub.status) := by
  have hkept : ∀ {db' : Db} {sub' : UserSubscription} {advanced : Bool},
      Except.ok (ε := String) (db, sub, false) = .ok (db', sub', advanced) →
      ∃ f, ResetRow advanced f ∧
        db' = { db with userSubscriptions := db.userSubscriptions.modify id f } ∧
        (advanced = true → resetAdvances now plan sub = true ∧
          ∀ s, db.userSubscriptions.get? id = some s → s.status = sub.status) := by
    intro db' sub' advanced h
    cases h
    refine ⟨fun s => s, ⟨by simp, by simp, by simp⟩, ?_, by simp⟩
    rw [modify_eq_self (f := fun s => s) fun _ _ => rfl]
  unfold maybeResetUserSubscriptionWithPlanTx at h
  split at h
  · exact hkept h
  split at h
  · exact hkept h
  rename_i hnever
  split at h
  · cases h
  · -- the reset times of a row that has none yet
    split_ifs at h with hinit
    · obtain ⟨db₁, hcas, hok⟩ := bind_eq_ok_iff.1 h
      obtain ⟨-, s, hs, -, rfl⟩ := casUserSubscriptionTx_of_ok hcas
      cases hok
      exact ⟨_, ⟨by simp, by simp, by simp⟩, rfl, by simp⟩
    · exact hkept h
  · rename_i base next hroll
    obtain ⟨db₁, hcas, hok⟩ := bind_eq_ok_iff.1 h
    obtain ⟨-, s, hs, hm, rfl⟩ := casUserSubscriptionTx_of_ok hcas
    cases hok
    refine ⟨_, ⟨by simp [resetColumns], by simp, by simp [resetColumns]⟩, rfl, fun _ => ⟨?_, ?_⟩⟩
    · simp [resetAdvances, hnever, hroll]
    · intro s' hs'
      cases hs.symm.trans hs'
      exact status_of_casMatches hm

theorem quiet_maybeReset {sub' : UserSubscription}
    (hstatus : advanced = true → sub.status ≠ .exhausted)
    (h : maybeResetUserSubscriptionWithPlanTx db id sub plan now = .ok (db', sub', advanced)) :
    Quiet userId db db' := by
  obtain ⟨f, hf, rfl, hadv⟩ := maybeReset_modify h
  refine quiet_modify rfl rfl fun s hs => ?_
  obtain ⟨hu, hup, hfall, hst, htotal⟩ := hf.same s
  refine ⟨hu, fun _ => ⟨hu, hup, hfall, hst, ?_, ?_⟩⟩
  · cases advanced with
    | false => exact fun hn => (hf.kept rfl s).1.trans hn
    | true => exact fun _ => hf.unmarked rfl s
  · intro he hfull
    cases advanced with
    | false => rwa [htotal, (hf.kept rfl s).2]
    | true => exact absurd (((hadv rfl).2 s hs).symm.trans he) (hstatus rfl)

/-! ### Pre-consumption -/

theorem quiet_chargeCandidate (hamount : 0 < req.amount)
    (h : chargeCandidate db req now id sub = .ok (db', result)) : Quiet userId db db' := by
  obtain ⟨db₁, hcas, h⟩ := bind_eq_ok_iff.1 h
  obtain ⟨db₂, htoken, h⟩ := bind_eq_ok_iff.1 h
  obtain ⟨-, s, hs, hm, rfl⟩ := casUserSubscriptionTx_of_ok hcas
  obtain ⟨-, rfl⟩ := (adjustRequestToken_eq_ok_iff (by omega)).1 htoken
  cases h
  refine quiet_modify (f := fun s => { s with
      amountUsed := sub.amountUsed + req.amount, updatedAt := now }) rfl rfl fun s' hs' =>
    ⟨rfl, fun _ => ⟨rfl, rfl, rfl, rfl, fun hn => hn, ?_⟩⟩
  cases hs.symm.trans hs'
  have hused := amountUsed_of_casMatches hm
  intro _ hfull
  dsimp only
  omega

theorem quiet_preConsumeLoop {resets resets' : List ℤ} {candidates : List Candidate}
    (hamount : 0 < req.amount) (hactive : ∀ c ∈ candidates, c.sub.status = .active)
    (h : preConsumeLoop db req now resets candidates = .ok (db', result, resets')) :
    Quiet userId db db' := by
  induction candidates generalizing db resets with
  | nil => cases h
  | cons c candidates ih =>
    rw [preConsumeLoop] at h
    obtain ⟨⟨db₁, sub, advanced⟩, hreset, h⟩ := bind_eq_ok_iff.1 h
    have hq : Quiet userId db db₁ :=
      quiet_maybeReset (fun _ => by rw [hactive c mem_cons_self]; decide) hreset
    dsimp only at h
    split at h
    · exact hq.trans (ih (fun c' hc' => hactive c' (mem_cons_of_mem c hc')) h)
    split at h
    · rename_i records hinsert
      obtain ⟨⟨db₂, result'⟩, hcharge, h⟩ := bind_eq_ok_iff.1 h
      cases h
      have hrecord : Quiet userId db₁ { db₁ with subscriptionPreConsumeRecords := records } :=
        quiet_of_eq rfl rfl
      exact (hq.trans hrecord).trans (quiet_chargeCandidate hamount hcharge)
    · split at h
      · cases h
      · obtain ⟨result', -, h⟩ := bind_eq_ok_iff.1 h
        cases h
        exact hq

theorem quiet_preConsume {resets : List ℤ}
    (h : preConsumeUserSubscription strict db now req = .ok (db', result, resets)) :
    Quiet userId db db' := by
  unfold preConsumeUserSubscription at h
  obtain ⟨_, hcheck, h⟩ := bind_eq_ok_iff.1 h
  split at h
  · obtain ⟨result', -, h⟩ := bind_eq_ok_iff.1 h
    cases h
    exact Quiet.refl userId db
  · obtain ⟨candidates, hfind, h⟩ := bind_eq_ok_iff.1 h
    unfold consumeCandidates at h
    split_ifs at h
    refine quiet_preConsumeLoop (check_of_ok hcheck).2.2 (fun c hc => ?_) h
    simpa using (findEligible_mem hfind hc).2.2

/-! ### Settlement and refund -/

theorem quiet_refund {requestId : String}
    (hfull : ∀ r ∈ db.subscriptionPreConsumeRecords.get? requestId, r.status = .consumed →
      StaysFull userId db r.userSubscriptionId (-r.preConsumed))
    (h : refundSubscriptionPreConsume db now requestId = .ok db') : Quiet userId db db' := by
  unfold refundSubscriptionPreConsume at h
  split_ifs at h
  split at h
  · cases h
  · rename_i record hrecord
    cases hstatus : record.status with
    | refunded =>
      rw [refundPreConsumeRecord, if_pos hstatus] at h
      rw [← Except.ok.inj h]
      exact Quiet.refl userId db
    | consumed =>
      obtain heq | ⟨-, -, db₁, hdb₁, heq | ⟨-, -, heq⟩⟩ := refundPreConsumeRecord_of_ok h
      · rw [heq]
        exact Quiet.refl userId db
      · rw [heq, hdb₁]
        exact quiet_of_eq rfl rfl
      · rw [heq]
        exact quiet_moved (hfull record hrecord hstatus) (by rw [hdb₁]) (by rw [hdb₁])

theorem quiet_reserve {requestId : String} {owner : ℤ} (hrows : RowsOk userId group db)
    (h : reserveSubscriptionPreConsumeTokenQuota db now requestId owner id tokenId delta = .ok db')
    : Quiet userId db db' := by
  obtain ⟨hdelta, -, -, -, rfl⟩ := reserve_of_ok h
  exact quiet_moved (staysFull_of_nonneg hrows (by omega)) rfl rfl

theorem quiet_adjust {owner : ℤ} (hfull : StaysFull userId db id delta)
    (h : adjustSubscriptionTokenQuota db now owner id tokenId delta = .ok db') :
    Quiet userId db db' := by
  by_cases hdelta : delta = 0
  · subst hdelta
    rw [eq_of_adjustSubscriptionTokenQuota_zero h]
    exact Quiet.refl userId db
  · obtain ⟨-, -, rfl⟩ := (adjustSubscriptionTokenQuota_eq_ok_iff hdelta).1 h
    exact quiet_moved hfull rfl rfl

theorem wrapInt64_of_bounds {x : ℤ} (hlow : -2 ^ 63 ≤ x) (hhigh : x < 2 ^ 63) : wrapInt64 x = x := by
  unfold wrapInt64
  omega

theorem quiet_postConsume (hfull : StaysFull userId db id delta)
    (hrange : ∀ s ∈ db.userSubscriptions.get? id, s.userId = userId → s.status = .exhausted →
      s.amountUsed + delta < 2 ^ 63)
    (h : postConsumeUserSubscriptionDelta db now id delta = .ok db') : Quiet userId db db' := by
  unfold postConsumeUserSubscriptionDelta at h
  split_ifs at h with hid hdelta
  · cases h
    exact Quiet.refl userId db
  split at h
  · cases h
  · rename_i sub hsub
    obtain heq | ⟨newUsed, s, hnew, -, -, rfl⟩ := postConsumeSubscription_of_ok h
    · rw [heq]
      exact Quiet.refl userId db
    refine quiet_modify (f := fun s => { s with amountUsed := newUsed, updatedAt := now }) rfl rfl
      fun s' hs' => ⟨rfl, fun hu => ⟨rfl, rfl, rfl, rfl, fun hn => hn, fun he _ => ?_⟩⟩
    cases hsub.symm.trans hs'
    have hstays := hfull sub hsub hu he
    have hlt := hrange sub hsub hu he
    dsimp only
    by_cases hpos : 0 < sub.amountTotal
    · rw [hnew, wrapInt64_of_bounds (by omega) hlt]
      omega
    · rw [hnew]
      exact (not_lt.1 hpos).trans (le_max_right _ _)

theorem quiet_walletRefunded (record : AsyncTaskRefundRecord)
    (hs : db₁.userSubscriptions = db.userSubscriptions) (hu : db₁.users = db.users) :
    Quiet userId db (walletRefunded db₁ now record) := by
  refine ⟨?_, ?_⟩
  · rw [walletRefunded, hs]
    exact (Quiet.refl userId db).rows
  rintro g ⟨u, hget, hlive, hgroup⟩
  simp only [UserIn, walletRefunded, get?_modify, hu]
  by_cases hid : userId = record.userId
  · exact ⟨{ u with quota := u.quota + record.quota }, by simp [hid ▸ hget, hid], hlive, hgroup⟩
  · exact ⟨u, by rw [if_neg hid, hget], hlive, hgroup⟩

theorem quiet_taskRefund {t : Task} {fromStatus : TaskStatus} {won : Bool} (hfull : won = true →
      normalizeAsyncTaskBillingSource t.billingSource t.subscriptionId = "subscription" →
        StaysFull userId db t.subscriptionId (-t.quota))
    (h : updateFailureWithRefund db now id t fromStatus = .ok (db', won)) :
    Quiet userId db db' := by
  obtain ⟨rfl, -⟩ | ⟨hwon, -, -, -, -, -, -, record, refunds, -, hquota, ⟨hid, hbilling⟩, -,
    happly⟩ := updateFailureWithRefund_of_ok h
  · exact Quiet.refl userId _
  obtain ⟨hsource, -, rfl⟩ | ⟨-, -, rfl⟩ := applyAsyncTaskRefundFundingTx_of_ok happly
  · rw [hid, hquota]
    exact quiet_moved (hfull hwon (hbilling.symm.trans hsource)) rfl rfl
  · exact quiet_walletRefunded record rfl rfl

/-! ## Exhaustion -/

/-- The owner stays where it is, or it leaves the group because no other active subscription holds it
there. -/
theorem downgradeToFallback_of_ok {locked : UserSubscription} {fallbackGroup target : String}
    (h : downgradeToFallback db now id locked fallbackGroup = .ok (db', target)) :
    db' = db ∨ (db' = setUserGroup db locked.userId fallbackGroup ∧
      ∀ id' s, db.userSubscriptions.get? id' = some s → id' ≠ id → s.userId = locked.userId →
        s.status = .active → now < s.endTime → s.upgradeGroup = trimSpace locked.upgradeGroup →
          s.exhaustNotifiedAt ≠ 0) := by
  unfold downgradeToFallback at h
  by_cases hup : trimSpace locked.upgradeGroup = ""
  · rw [if_pos hup] at h
    cases h
    exact .inl rfl
  rw [if_neg hup] at h
  obtain ⟨currentGroup, -, h⟩ := bind_eq_ok_iff.1 h
  split_ifs at h with hcurrent hother
  · cases h
    exact .inl rfl
  · cases h
    refine .inr ⟨rfl, fun id' s hs hne hu ha hend hgroup hmark => hother ?_⟩
    refine any_eq_true.2 ⟨(id', s), (get?_eq_some_iff _ _ _).1 hs, ?_⟩
    simp [hne, hu, ha, hend, hgroup, hmark]
  · cases h
    exact .inl rfl

theorem userIn_of_get? (h : db'.users.get? userId = db.users.get? userId) (hg : UserIn userId db g)
    : UserIn userId db' g := by
  simpa only [UserIn, h] using hg

theorem quiet_other (hs : db.userSubscriptions.get? id = some s) (hother : s.userId ≠ userId)
    (hf : (f s).userId = s.userId) (hsubs : db₁.userSubscriptions = db.userSubscriptions)
    (huser : db₁.users.get? userId = db.users.get? userId)
    (hdb' : db' = { db₁ with userSubscriptions := db₁.userSubscriptions.modify id f }) :
    Quiet userId db db' := by
  rw [hdb', hsubs]
  refine ⟨rel_modify (fun s' hs' => ?_) (fun _ s _ => ⟨rfl, fun _ => Charges.refl s⟩),
    fun g hg => userIn_of_get? huser hg⟩
  cases hs.symm.trans hs'
  exact ⟨hf, fun hu => absurd hu hother⟩

theorem inv_processExhausted {event : Option SubscriptionExhaustedEvent}
    (hgroup : trimSpace group = group) (hi : Inv userId group db)
    (hend : ∀ id s, db.userSubscriptions.get? id = some s → s.userId = userId →
      s.status = .active → now < s.endTime)
    (h : processExhaustedSubscription db now id = .ok (db', event)) : Inv userId group db' := by
  unfold processExhaustedSubscription at h
  split at h
  · cases h
  rename_i locked hlocked
  split at h
  · cases h
    exact hi
  rename_i hskip
  simp only [not_or, not_not, not_le, not_lt] at hskip
  obtain ⟨hactive, -, -, hfull⟩ := hskip
  obtain ⟨g, hg, hheld⟩ := hi.user
  by_cases howner : locked.userId = userId
  · -- a subscription of the user, which is in the group because of it
    subst howner
    have hrow := hi.rows id locked hlocked rfl
    obtain rfl : g = group := hheld.resolve_right fun hnone => hnone id locked hlocked rfl hactive
    have hlive : (db.users.get? locked.userId).any (fun u => u.deletedAt.isNone) = true := by
      obtain ⟨u, hu, hlive, -⟩ := hg
      simp [hu, hlive]
    rw [if_neg (by simp [hlive])] at h
    obtain ⟨plan, -, h⟩ := bind_eq_ok_iff.1 h
    dsimp only at h
    rw [if_pos hrow.fallbackGroup] at h
    obtain ⟨⟨db₁, target⟩, hdown, h⟩ := bind_eq_ok_iff.1 h
    obtain ⟨db₂, hcas, h⟩ := bind_eq_ok_iff.1 h
    cases h
    obtain ⟨-, s, hs, -, rfl⟩ := casUserSubscriptionTx_of_ok hcas
    simp only [hrow.fallbackGroup, ne_eq, not_false_eq_true, if_true]
    have hsubs : db₁.userSubscriptions = db.userSubscriptions := by
      obtain rfl | ⟨rfl, -⟩ := downgradeToFallback_of_ok hdown <;> rfl
    have hget : ∀ {id' : ℤ} {s' : UserSubscription}, (db₁.userSubscriptions.modify id fun s =>
          { s with status := .exhausted, exhaustNotifiedAt := now, updatedAt := now }).get? id' =
            some s' →
        s'.status = .exhausted ∧ RowOk g s' ∨ id' ≠ id ∧ db.userSubscriptions.get? id' = some s' := by
      intro id' s' hs'
      rw [hsubs, get?_modify] at hs'
      split_ifs at hs' with hid
      · rw [hid, hlocked, map_some, some.injEq] at hs'
        subst hs'
        exact .inl ⟨rfl, hrow.upgradeGroup, hrow.fallbackGroup, nofun, fun _ => hfull⟩
      · exact .inr ⟨hid, hs'⟩
    refine ⟨fun id' s' hs' hu => ?_, ?_⟩
    · obtain ⟨-, hok⟩ | ⟨-, hs'⟩ := hget hs'
      · exact hok
      · exact hi.rows id' s' hs' hu
    · obtain rfl | ⟨rfl, hnone⟩ := downgradeToFallback_of_ok hdown
      · exact ⟨g, hg, .inl rfl⟩
      · refine ⟨_, userIn_of_get? rfl (userIn_setUserGroup hg), .inr fun id' s' hs' hu ha => ?_⟩
        obtain ⟨hexhausted, -⟩ | ⟨hid, hs'⟩ := hget hs'
        · rw [hexhausted] at ha
          cases ha
        · have hrow' := hi.rows id' s' hs' hu
          refine hnone id' s' hs' hid hu ha (hend id' s' hs' hu ha) ?_
            (hrow'.active ha)
          rw [hrow.upgradeGroup, hgroup, hrow'.upgradeGroup]
  · -- a subscription of another user
    refine hi.of_quiet ?_
    split_ifs at h with hlive
    · obtain ⟨db₁, hcas, h⟩ := bind_eq_ok_iff.1 h
      cases h
      obtain ⟨-, s, hs, -, rfl⟩ := casUserSubscriptionTx_of_ok hcas
      exact quiet_other hlocked howner rfl rfl rfl rfl
    · obtain ⟨plan, -, h⟩ := bind_eq_ok_iff.1 h
      obtain ⟨⟨db₁, target⟩, hdown, h⟩ := bind_eq_ok_iff.1 h
      obtain ⟨db₂, hcas, h⟩ := bind_eq_ok_iff.1 h
      cases h
      obtain ⟨-, s, hs, -, rfl⟩ := casUserSubscriptionTx_of_ok hcas
      have hsame : db₁.userSubscriptions = db.userSubscriptions ∧
          db₁.users.get? userId = db.users.get? userId := by
        split_ifs at hdown with hfallback
        · obtain rfl | ⟨rfl, -⟩ := downgradeToFallback_of_ok hdown
          · exact ⟨rfl, rfl⟩
          · exact ⟨rfl, get?_setUserGroup_of_ne howner⟩
        · cases hdown
          exact ⟨rfl, rfl⟩
      exact quiet_other hlocked howner rfl hsame.1 hsame.2 rfl

/-! ## Resets -/

theorem restoreUpgradeGroup_subscriptions (db : Db) (sub : UserSubscription) :
    (restoreUpgradeGroup db sub).userSubscriptions = db.userSubscriptions := by
  unfold restoreUpgradeGroup
  dsimp only
  split_ifs <;> rfl

theorem restoreUpgradeGroup_other (hother : sub.userId ≠ userId) :
    (restoreUpgradeGroup db sub).users.get? userId = db.users.get? userId := by
  unfold restoreUpgradeGroup
  dsimp only
  split_ifs
  · rfl
  · cases hrow : db.users.updateRow sub.userId
        (fun u => u.deletedAt.isNone && decide (u.group ∈ restoreFrom sub))
        fun u => { u with group := trimSpace sub.upgradeGroup } with
    | none => rfl
    | some users =>
      obtain ⟨u, -, -, rfl⟩ := (updateRow_eq_some_iff _ _ _ _ _).1 hrow
      rw [getD_some]
      exact get?_modify_of_ne _ _ (Ne.symm hother)

theorem userIn_restoreUpgradeGroup (howner : sub.userId = userId)
    (hup : trimSpace sub.upgradeGroup ≠ "") (hg : UserIn userId db g) :
    UserIn userId (restoreUpgradeGroup db sub)
      (if g ∈ restoreFrom sub then trimSpace sub.upgradeGroup else g) := by
  obtain ⟨u, hu, hlive, rfl⟩ := hg
  unfold restoreUpgradeGroup
  rw [if_neg hup, howner]
  split_ifs with hmem
  · refine ⟨{ u with group := trimSpace sub.upgradeGroup }, ?_, hlive, rfl⟩
    rw [(updateRow_eq_some_iff _ _ _ _ _).2 ⟨u, hu, by simp [hlive, hmem], rfl⟩,
      getD_some, get?_modify_self, hu, map_some]
  · refine ⟨u, ?_, hlive, rfl⟩
    rw [(updateRow_eq_none_iff _ _ _ _).2, getD_none, hu]
    intro u' hu'
    cases hu.symm.trans hu'
    simp [hmem]

/-- A transaction that resets the subscriptions `rest`, with the user in the group `g` so far: it is in
the group, or one of the resets still to come moves it there, or no subscription is or becomes
active. -/
structure Resetting (userId : ℤ) (group : String) (rest : List (ℤ × UserSubscription)) (db : Db)
    (g : String) : Prop where
  rows : RowsOk userId group db
  user : UserIn userId db g
  held : g = group ∨ (∃ e ∈ rest, Revived userId e ∧ g ∈ restoreFrom e.2) ∨
    (NoneActive userId db ∧ ∀ e ∈ rest, ¬ Revived userId e)
  owner : ∀ e ∈ rest, ∀ s, db.userSubscriptions.get? e.1 = some s → s.userId = e.2.userId
  upgradeGroup : ∀ e ∈ rest, e.2.userId = userId → e.2.upgradeGroup = group

/-- What a reset does to the row of a subscription that it has read as `sub`. -/
structure ResetsRow (sub : UserSubscription) (f : UserSubscription → UserSubscription) : Prop where
  same : ∀ s, (f s).userId = s.userId ∧ (f s).upgradeGroup = s.upgradeGroup ∧
    (f s).fallbackGroup = s.fallbackGroup
  unmarked : ∀ s, (f s).exhaustNotifiedAt = 0
  status : ∀ s, (f s).status = if sub.status = .exhausted then .active else s.status

theorem Resetting.step {rest : List (ℤ × UserSubscription)}
    (h : Resetting userId group (e :: rest) db g) (hf : ResetsRow e.2 f)
    (hstatus : ∀ s, db.userSubscriptions.get? e.1 = some s → s.status = e.2.status)
    (hsubs : db'.userSubscriptions = db.userSubscriptions.modify e.1 f)
    (huser : ∀ g, UserIn userId db g → UserIn userId db'
      (if Revived userId e ∧ g ∈ restoreFrom e.2 then group else g)) :
    ∃ g', Resetting userId group rest db' g' := by
  have hget : ∀ {id : ℤ} {s' : UserSubscription}, db'.userSubscriptions.get? id = some s' →
      (∃ s, id = e.1 ∧ s' = f s ∧ db.userSubscriptions.get? e.1 = some s) ∨
        db.userSubscriptions.get? id = some s' := by
    intro id s' hs'
    rw [hsubs, get?_modify] at hs'
    split_ifs at hs' with hid
    · rw [hid] at hs'
      obtain ⟨s, hs, rfl⟩ := map_eq_some_iff.1 hs'
      exact .inl ⟨s, hid, rfl, hs⟩
    · exact .inr hs'
  refine ⟨_, ⟨fun id s' hs' hu => ?_, huser g h.user, ?_, fun e' he' s' hs' => ?_,
    fun e' he' => h.upgradeGroup e' (mem_cons_of_mem e he')⟩⟩
  · obtain ⟨s, -, rfl, hs⟩ | hs := hget hs'
    · obtain ⟨hu', hup, hfall⟩ := hf.same s
      have hrow := h.rows e.1 s hs (hu'.symm.trans hu)
      refine ⟨hup.trans hrow.upgradeGroup, by rw [hfall]; exact hrow.fallbackGroup,
        fun _ => hf.unmarked s, fun he => ?_⟩
      rw [hf.status] at he
      split_ifs at he with hex
      exact absurd ((hstatus s hs).symm.trans he) hex
    · exact h.rows id s' hs hu
  · split_ifs with hmoved
    · exact .inl rfl
    obtain hin | ⟨e', he', hrevived, hmem⟩ | ⟨hnone, hnever⟩ := h.held
    · exact .inl hin
    · obtain rfl | he' := mem_cons.1 he'
      · exact absurd ⟨hrevived, hmem⟩ hmoved
      · exact .inr (.inl ⟨e', he', hrevived, hmem⟩)
    · refine .inr (.inr ⟨fun id s' hs' hu ha => ?_,
        fun e' he' => hnever e' (mem_cons_of_mem e he')⟩)
      obtain ⟨s, -, rfl, hs⟩ | hs := hget hs'
      · have howner := (hf.same s).1.symm.trans hu
        have hnot : e.2.status ≠ .exhausted := fun hex => hnever e mem_cons_self
          ⟨(h.owner e mem_cons_self s hs).symm.trans howner, hex⟩
        rw [hf.status, if_neg hnot] at ha
        exact hnone e.1 s hs howner ha
      · exact hnone id s' hs hu ha
  · obtain ⟨s, hid, rfl, hs⟩ | hs := hget hs'
    · rw [(hf.same s).1]
      exact h.owner e' (mem_cons_of_mem e he') s (hid ▸ hs)
    · exact h.owner e' (mem_cons_of_mem e he') s' hs

theorem Resetting.inv (h : Resetting userId group [] db g) : Inv userId group db := by
  refine ⟨h.rows, g, h.user, ?_⟩
  obtain hin | ⟨e, he, -⟩ | ⟨hnone, -⟩ := h.held
  · exact .inl hin
  · cases he
  · exact .inr hnone

theorem Inv.resetting {subs : List (ℤ × UserSubscription)} (hi : Inv userId group db)
    (hrestores : Restores userId group db subs)
    (hsubs : ∀ e ∈ subs, db.userSubscriptions.get? e.1 = some e.2) :
    ∃ g, Resetting userId group subs db g := by
  obtain ⟨g, hg, hheld⟩ := hi.user
  refine ⟨g, hi.rows, hg, ?_, fun e he s hs => ?_,
    fun e he hu => (hi.rows e.1 e.2 (hsubs e he) hu).upgradeGroup⟩
  · obtain rfl | hnone := hheld
    · exact .inl rfl
    · by_cases hrevived : ∃ e ∈ subs, Revived userId e
      · obtain ⟨u, hu, -, rfl⟩ := hg
        exact (hrestores hrevived u hu).imp_right .inl
      · exact .inr (.inr ⟨hnone, fun e he hr => hrevived ⟨e, he, hr⟩⟩)
  · rw [some.inj (hs.symm.trans (hsubs e he))]

theorem restored_subscriptions (e : ℤ × UserSubscription) (db : Db) :
    (if e.2.status = .exhausted then restoreUpgradeGroup db e.2 else db).userSubscriptions =
      db.userSubscriptions := by
  split_ifs
  · exact restoreUpgradeGroup_subscriptions db e.2
  · rfl

section
variable (hgroup : group ≠ "" ∧ trimSpace group = group)
include hgroup

theorem userIn_restored
    (hup : e.2.userId = userId → e.2.upgradeGroup = group) (hg : UserIn userId db g) :
    UserIn userId (if e.2.status = .exhausted then restoreUpgradeGroup db e.2 else db)
      (if Revived userId e ∧ g ∈ restoreFrom e.2 then group else g) := by
  by_cases howner : e.2.userId = userId
  · have htrim : trimSpace e.2.upgradeGroup = group := by rw [hup howner, hgroup.2]
    by_cases hex : e.2.status = .exhausted
    · rw [if_pos hex]
      have := userIn_restoreUpgradeGroup howner (by rw [htrim]; exact hgroup.1) hg
      rw [htrim] at this
      simpa only [Revived, howner, hex, true_and] using this
    · simpa only [Revived, howner, hex, and_false, false_and, if_false] using hg
  · simp only [Revived, howner, false_and, if_false]
    split_ifs
    · exact userIn_of_get? (restoreUpgradeGroup_other howner) hg
    · exact hg

theorem Resetting.resetUserSubscriptionTx {rest : List (ℤ × UserSubscription)} (h : Resetting userId group (e :: rest) db g)
    (hreset : resetUserSubscriptionTx db e.1 e.2 plan now advanceResetTime = .ok db') :
    ∃ g', Resetting userId group rest db' g' := by
  unfold Subscription.resetUserSubscriptionTx at hreset
  obtain ⟨db₁, hcas, hreset⟩ := bind_eq_ok_iff.1 hreset
  cases hreset
  obtain ⟨-, s, hs, hm, rfl⟩ := casUserSubscriptionTx_of_ok hcas
  let nextReset := calcNextResetTime now plan e.2.endTime
  refine h.step (f := fun row =>
      { row with
        amountUsed := 0
        exhaustNotifiedAt := 0
        status := if e.2.status = .exhausted then .active else row.status
        lastResetTime :=
          if advanceResetTime then if 0 < nextReset then now else 0 else row.lastResetTime
        nextResetTime := if advanceResetTime then nextReset else row.nextResetTime
        updatedAt := now })
    ⟨fun _ => ⟨rfl, rfl, rfl⟩, fun _ => rfl, fun _ => rfl⟩ (fun s' hs' => ?_) ?_ fun g hg => ?_
  · cases hs.symm.trans hs'
    exact status_of_casMatches hm
  · exact restored_subscriptions e _
  · exact userIn_restored hgroup (h.upgradeGroup e mem_cons_self) (userIn_of_get? rfl hg)

theorem Resetting.resetSubscriptionsTx {subs : List (ℤ × UserSubscription)} (h : Resetting userId group subs db g)
    (hreset : resetSubscriptionsTx db subs plan now advanceResetTime = .ok db') :
    Inv userId group db' := by
  unfold Subscription.resetSubscriptionsTx at hreset
  induction subs generalizing db g with
  | nil =>
    cases hreset
    exact h.inv
  | cons e subs ih =>
    rw [foldlM_cons] at hreset
    obtain ⟨db₁, h₁, h₂⟩ := bind_eq_ok_iff.1 hreset
    obtain ⟨g', h'⟩ := h.resetUserSubscriptionTx hgroup h₁
    exact ih h' h₂

theorem inv_adminReset {planId : ℤ} {user : Option ℤ} {ids : List ℤ} (hi : Inv userId group db)
    (hrestores : Restores userId group db (subscriptionsWhere db (resettable now planId user)))
    (h : adminResetSubscriptions db now planId user advanceResetTime = .ok (db', ids)) :
    Inv userId group db' := by
  unfold adminResetSubscriptions at h
  split at h
  · cases h
  split at h
  · cases h
  · dsimp only at h
    split_ifs at h
    obtain ⟨db₁, hreset, h⟩ := bind_eq_ok_iff.1 h
    cases h
    obtain ⟨g, hresetting⟩ := hi.resetting hrestores fun e he => by
      have hrow := (mem_filter.1 ((mem_insertionSort _).1 he)).1
      exact (get?_eq_some_iff _ _ _).2 hrow
    exact hresetting.resetSubscriptionsTx hgroup hreset

theorem inv_resetDue (hi : Inv userId group db)
    (hrestores : ∀ s ∈ db.userSubscriptions.get? id, isResetDue now s →
      ∀ plan ∈ (getSubscriptionPlanByIdTx db s.planId).toOption, resetAdvances now plan s →
        Restores userId group db [(id, s)])
    (h : resetDueSubscriptionById db now id = .ok (db', advanced)) : Inv userId group db' := by
  unfold resetDueSubscriptionById at h
  split at h
  · cases h
    exact hi
  rename_i locked hlocked
  split_ifs at h with hdue
  swap
  · cases h
    exact hi
  cases hplan : getSubscriptionPlanByIdTx db locked.planId with
  | error e =>
    rw [hplan] at h
    cases h
    exact hi
  | ok plan =>
    rw [hplan] at h
    unfold resetDueSubscription at h
    obtain ⟨⟨db₁, sub', advanced₁⟩, hreset, h⟩ := bind_eq_ok_iff.1 h
    dsimp only at h
    split at h
    · rename_i hdone
      cases h
      refine hi.of_quiet (quiet_maybeReset (fun hadv => ?_) hreset)
      exact hdone.resolve_right fun hno => by rw [hadv] at hno; cases hno
    rename_i hdone
    simp only [not_or, not_not, Bool.not_eq_false] at hdone
    obtain ⟨hex, rfl⟩ := hdone
    obtain ⟨f, hf, rfl, hadv⟩ := maybeReset_modify hreset
    split at h
    · cases h
    rename_i subs hsubs
    split_ifs at h with huser
    cases h
    obtain ⟨s, hs, hstatus, rfl⟩ := Db.exists_of_affected hsubs
    obtain ⟨g, hresetting⟩ : ∃ g, Resetting userId group [(id, locked)] db g :=
      hi.resetting (hrestores locked hlocked hdue plan (by rw [hplan]; rfl) (hadv rfl).1)
        (by simpa using hlocked)
    -- the reset and the change of the status are one update of the row
    let activate := fun s : UserSubscription => { s with status := .active, updatedAt := now }
    let db₂ : Db :=
      { db with userSubscriptions := (db.userSubscriptions.modify id f).modify id activate }
    obtain ⟨g', h'⟩ : ∃ g', Resetting userId group [] (restoreUpgradeGroup db₂ locked) g' := by
      refine hresetting.step (f := fun s => activate (f s))
        ⟨fun s => ⟨(hf.same s).1, (hf.same s).2.1, (hf.same s).2.2.1⟩, hf.unmarked rfl,
          fun _ => by rw [if_pos hex]⟩ (hadv rfl).2 ?_ fun g hg => ?_
      · rw [restoreUpgradeGroup_subscriptions]
        exact modify_modify db.userSubscriptions id f activate
      · have hin : UserIn userId db₂ g := userIn_of_get? rfl hg
        have := userIn_restored hgroup (hresetting.upgradeGroup _ mem_cons_self) hin
        rwa [if_pos hex] at this
    exact h'.inv

end

/-! ## Runs -/

/-- The state after the purchases: the user is in the group, and every subscription belongs to it, has
a fallback group of its own and is not exhausted yet. -/
structure Start (userId : ℤ) (group : String) (db : Db) : Prop where
  user : UserIn userId db group
  rows : ∀ id s, db.userSubscriptions.get? id = some s → s.userId = userId →
    s.upgradeGroup = group ∧ trimSpace s.fallbackGroup ≠ "" ∧ trimSpace s.fallbackGroup ≠ group ∧
      s.status ≠ .exhausted ∧ s.exhaustNotifiedAt = 0

theorem inv_of_start (h : Start userId group db) : Inv userId group db := by
  refine ⟨fun id s hs hu => ?_, group, h.user, .inl rfl⟩
  obtain ⟨hup, hfall, -, hstatus, hmark⟩ := h.rows id s hs hu
  exact ⟨hup, hfall, fun _ => hmark, fun he => absurd he hstatus⟩

theorem exec_inv {c : Call} (hgroup : group ≠ "" ∧ trimSpace group = group)
    (hi : Inv userId group db) (hend : Unexpired userId db c)
    (hundoes : Undoes strict userId group db c) (h : exec strict db c.now c.op = .ok db') :
    Inv userId group db' := by
  obtain ⟨now, op⟩ := c
  have hcond := hundoes (by rw [h]; simp [Except.toOption])
  cases op with
  | preConsume req =>
    obtain ⟨_, h⟩ := map_fst_eq_ok h
    exact hi.of_quiet (quiet_preConsume h)
  | reserve requestId owner id tokenId delta => exact hi.of_quiet (quiet_reserve hi.rows h)
  | postConsume id delta => exact hi.of_quiet (quiet_postConsume hcond.1 hcond.2 h)
  | adjust owner id tokenId delta => exact hi.of_quiet (quiet_adjust hcond h)
  | refund requestId => exact hi.of_quiet (quiet_refund hcond h)
  | taskRefund id t fromStatus =>
    obtain ⟨won, h⟩ := map_fst_eq_ok h
    exact hi.of_quiet (quiet_taskRefund (fun hwon => hcond (by simp [h, Except.toOption, hwon])) h)
  | processExhausted id =>
    obtain ⟨_, h⟩ := map_fst_eq_ok h
    exact inv_processExhausted hgroup.2 hi hend h
  | resetDue id =>
    obtain ⟨_, h⟩ := map_fst_eq_ok h
    exact inv_resetDue hgroup hi hcond h
  | adminReset planId user advanceResetTime =>
    obtain ⟨_, h⟩ := map_fst_eq_ok h
    exact inv_adminReset hgroup hi hcond h

theorem step_inv {c : Call} (hgroup : group ≠ "" ∧ trimSpace group = group)
    (hi : Inv userId group db) (hok : Unexpired userId db c ∧ Undoes strict userId group db c)
    (h : step strict db c = some db') : Inv userId group db' := by
  cases h
  cases hexec : exec strict db c.now c.op with
  | error e => exact hi
  | ok db₁ => exact exec_inv hgroup hi hok.1 hok.2 hexec

/-- In every run in which the resets restore the group and the refunds leave exhausted subscriptions
full, a subscription with quota left is not exhausted, and while it is active the user is in its
group. -/
theorem undone_of_run {strict : Bool} {userId : ℤ} {group : String} {db db' : Db} {l : List Call}
    (hgroup : group ≠ "" ∧ trimSpace group = group) (hstart : Start userId group db)
    (hend : Run.Along (step strict) (Unexpired userId) db l)
    (hundoes : Run.Along (step strict) (Undoes strict userId group) db l)
    (h : Run.run (step strict) db l = some db') : Undone userId group db' :=
  (Run.invariant_along (fun _ _ _ hi hok hs => step_inv hgroup hi hok hs) (inv_of_start hstart)
    (Run.along_and hend hundoes) h).undone

/-! ## Two subscriptions of one group -/

instance (userId : ℤ) (group : String) (db : Db) : Decidable (Undone userId group db) :=
  have : Decidable (∀ id s, db.userSubscriptions.get? id = some s → s.userId = userId →
      s.status = .active → s.amountUsed < s.amountTotal → UserIn userId db group) :=
    Table.decidableForallGet? db.userSubscriptions fun _ s =>
      s.userId = userId → s.status = .active → s.amountUsed < s.amountTotal → UserIn userId db group
  have : Decidable (∀ id s, db.userSubscriptions.get? id = some s → s.userId = userId →
      s.status = .exhausted → ¬ s.amountUsed < s.amountTotal) :=
    Table.decidableForallGet? db.userSubscriptions fun _ s =>
      s.userId = userId → s.status = .exhausted → ¬ s.amountUsed < s.amountTotal
  inferInstanceAs (Decidable (_ ∧ _))

/-- A user in `vip` with two subscriptions, whose fallback groups differ. -/
def twoFallbacks : Db where
  users := Table.empty.put 1 { quota := 0, group := "vip" }
  subscriptionPlans :=
    (Table.empty.put 1 { upgradeGroup := "vip", fallbackGroup := "basic", totalAmount := 100 }).put 2
      { upgradeGroup := "vip", fallbackGroup := "free", totalAmount := 100 }
  userSubscriptions :=
    (Table.empty.put 1
      { userId := 1, planId := 1, amountTotal := 100, endTime := 1000, upgradeGroup := "vip",
        fallbackGroup := "basic" }).put 2
      { userId := 1, planId := 2, amountTotal := 100, endTime := 2000, upgradeGroup := "vip",
        fallbackGroup := "free" }

theorem start_twoFallbacks : Start 1 "vip" twoFallbacks where
  user := ⟨_, rfl, rfl, rfl⟩
  rows := by decide

/-- Both subscriptions are used up, and the second is the last to be processed. -/
def bothExhausted : List Call :=
  [⟨10, .postConsume 1 100⟩, ⟨11, .postConsume 2 100⟩, ⟨20, .processExhausted 1⟩,
    ⟨20, .processExhausted 2⟩]

/-- A reset of the second subscription finds the user in its fallback group. -/
theorem undone_of_lastProcessed :
    ∃ db', Run.run (step false) twoFallbacks (bothExhausted ++ [⟨30, .adminReset 2 (some 1) false⟩]) =
      some db' ∧ Undone 1 "vip" db' := by
  exact exists_some_imp (p := fun _ => True) (by decide) fun db' h _ =>
    undone_of_run (by decide) start_twoFallbacks (by decide) (by decide) h

/-- The pre-consumption of the whole quota of the first subscription. -/
def wholeQuota : PreConsumeRequest :=
  { requestId := "request", userId := 1, tokenId := 0, amount := 100, usingGroup := "vip" }

/-- A reset of the first subscription finds the user in the fallback group of the second and does not
restore the group; a late refund leaves an exhausted subscription with all its quota. -/
theorem downgrade_not_undone :
    (∃ db', Start 1 "vip" twoFallbacks ∧ Run.Along (step false) (Unexpired 1) twoFallbacks
        (bothExhausted ++ [⟨30, .adminReset 1 (some 1) false⟩]) ∧
      Run.run (step false) twoFallbacks
        (bothExhausted ++ [⟨30, .adminReset 1 (some 1) false⟩]) = some db' ∧
      ¬ Undone 1 "vip" db') ∧
    ∃ db', Start 1 "vip" twoFallbacks ∧ Run.Along (step false) (Unexpired 1) twoFallbacks
        [⟨10, .preConsume wholeQuota⟩, ⟨20, .processExhausted 1⟩, ⟨30, .refund "request"⟩] ∧
      Run.run (step false) twoFallbacks
        [⟨10, .preConsume wholeQuota⟩, ⟨20, .processExhausted 1⟩, ⟨30, .refund "request"⟩] =
          some db' ∧
      ¬ Undone 1 "vip" db' := by
  simp only [start_twoFallbacks, true_and, exists_and_left]
  decide

end BeeApi.Subscription.Exhaustion
