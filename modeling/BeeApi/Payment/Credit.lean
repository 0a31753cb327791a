import BeeApi.Payment.TopUp

/-!
# A top-up is credited once, and by which amount

Every completion goes through `transitionPendingTopUpTx`, so an order credits its user only in the step
from `pending` to `success`.  The amounts of the callback and of the administrator's completion agree
for every provider but Creem, whose orders hold the quota itself, and up to the fraction of a Stripe
order.
-/

namespace BeeApi.Payment.Credit

open Option Table Except

/-! ## Calls -/

inductive Op
  | recharge (tradeNo customerId : String)
  | rechargeCreem (tradeNo customerEmail : String)
  | rechargeWaffo (tradeNo : String)
  | rechargeAgou (tradeNo callbackPaidFee callbackCurrency : String)
  | rechargeEpay (tradeNo callbackPaymentMethod : String)
  | rechargeCryptomus (tradeNo : String)
  | rechargeBepusdt (tradeNo : String)
  | rechargeWaffoPancake (tradeNo : String)
  | manualComplete (tradeNo : String)
  | updatePendingStatus (tradeNo expectedPaymentProvider : String) (targetStatus : TopUpStatus)

def Op.tradeNo : Op → String
  | .recharge tradeNo _ => tradeNo
  | .rechargeCreem tradeNo _ => tradeNo
  | .rechargeWaffo tradeNo => tradeNo
  | .rechargeAgou tradeNo _ _ => tradeNo
  | .rechargeEpay tradeNo _ => tradeNo
  | .rechargeCryptomus tradeNo => tradeNo
  | .rechargeBepusdt tradeNo => tradeNo
  | .rechargeWaffoPancake tradeNo => tradeNo
  | .manualComplete tradeNo => tradeNo
  | .updatePendingStatus tradeNo _ _ => tradeNo

/-- A call, its time, and whether the database rolls it back. -/
structure Call where
  now : ℤ
  rollsBack : Bool := false
  op : Op

def exec (cfg : TopUpConfig) (db : Db) (c : Call) : Except String Db :=
  if c.rollsBack then .error "transaction failed"
  else
    match c.op with
    | .recharge tradeNo customerId => recharge cfg db c.now tradeNo customerId
    | .rechargeCreem tradeNo customerEmail => Payment.rechargeCreem db c.now tradeNo customerEmail
    | .rechargeWaffo tradeNo => rechargeWaffo cfg db c.now tradeNo
    | .rechargeAgou tradeNo callbackPaidFee callbackCurrency =>
      rechargeAgou cfg db c.now tradeNo callbackPaidFee callbackCurrency
    | .rechargeEpay tradeNo callbackPaymentMethod =>
      rechargeEpay cfg db c.now tradeNo callbackPaymentMethod
    | .rechargeCryptomus tradeNo => rechargeCryptomus cfg db c.now tradeNo
    | .rechargeBepusdt tradeNo => rechargeBepusdt cfg db c.now tradeNo
    | .rechargeWaffoPancake tradeNo => rechargeWaffoPancake cfg db c.now tradeNo
    | .manualComplete tradeNo => manualCompleteTopUp cfg db c.now tradeNo
    | .updatePendingStatus tradeNo expectedPaymentProvider targetStatus =>
      updatePendingTopUpStatus db tradeNo expectedPaymentProvider targetStatus

/-- The database after a call; what fails is rolled back. -/
def step (cfg : TopUpConfig) (db : Db) (c : Call) : Option Db :=
  some (((exec cfg db c).toOption).getD db)

/-! ## Parts of the transactions -/

variable {db db' : Db} {tradeNo : String} {topUp : TopUp} {cfg : TopUpConfig} {now : ℤ} {op : Op}
  {c : Call} {f : User → User} {x : ℚ} {u : User}

theorem transitionPendingTopUpTx_of_ok {updates : TopUp → TopUp}
    (h : transitionPendingTopUpTx db tradeNo updates = .ok db') :
    db' = { db with topUps := db.topUps.modify tradeNo updates } := by
  unfold transitionPendingTopUpTx at h
  split at h
  · rename_i topUps htopUps
    cases h
    obtain ⟨_, -, -, rfl⟩ := Db.exists_of_affected htopUps
    rfl
  · cases h

/-- The order leaves `pending` for `success`, and its user is updated. -/
structure Credits (db db' : Db) (tradeNo : String) (topUp : TopUp) (userUpdates : User → User) :
    Prop where
  pending : db.topUps.get? tradeNo = some topUp ∧ topUp.status = .pending
  topUps : ∃ updates : TopUp → TopUp, (∀ t, (updates t).status = .success) ∧
    db'.topUps = db.topUps.modify tradeNo updates
  user : ∃ u, db.users.get? topUp.userId = some u ∧ u.deletedAt = none
  users : db'.users = db.users.modify topUp.userId userUpdates

theorem completeTopUp_of_ok {orderUpdates : TopUp → TopUp} {userUpdates : User → User}
    (h : completeTopUp db tradeNo topUp.userId orderUpdates userUpdates = .ok db')
    (hget : db.topUps.get? tradeNo = some topUp) (hpending : topUp.status = .pending)
    (hsuccess : ∀ t, (orderUpdates t).status = .success) :
    Credits db db' tradeNo topUp userUpdates := by
  obtain ⟨db₁, h₁, h⟩ := bind_eq_ok_iff.1 h
  obtain rfl := transitionPendingTopUpTx_of_ok h₁
  unfold updateTopUpUser at h
  split at h
  · rename_i users husers
    cases h
    obtain ⟨u, hu, hlive, rfl⟩ := Db.exists_of_affected husers
    exact ⟨⟨hget, hpending⟩, ⟨orderUpdates, hsuccess, rfl⟩, ⟨u, hu, isNone_iff_eq_none.1 hlive⟩,
      rfl⟩
  · cases h

theorem withTopUp_of_ok {notFound : String} {body : TopUp → Except String Db}
    (h : withTopUp db tradeNo notFound body = .ok db') :
    ∃ topUp, db.topUps.get? tradeNo = some topUp ∧ body topUp = .ok db' := by
  unfold withTopUp at h
  split at h
  · cases h
  · exact ⟨_, by assumption, h⟩

theorem hideError_of_ok {res : Except String Db} (h : hideError res = .ok db) : res = .ok db := by
  cases res with
  | ok db' => exact h
  | error e => cases h

/-! ## What a call does -/

theorem recharge_of_ok {customerId : String} (h : recharge cfg db now tradeNo customerId = .ok db')
    : ∃ topUp, topUp.paymentProvider = paymentProviderStripe ∧
      0 < topUp.money * cfg.quotaPerUnit ∧ Credits db db' tradeNo topUp fun u =>
        { u with
          stripeCustomer := customerId
          quota := cfg.store (u.quota + topUp.money * cfg.quotaPerUnit) } := by
  obtain ⟨-, h⟩ := ite_error_eq_ok_iff.1 h
  obtain ⟨topUp, hget, h⟩ := withTopUp_of_ok (hideError_of_ok h)
  obtain ⟨hprovider, h⟩ := ite_error_eq_ok_iff.1 h
  obtain ⟨hstatus, h⟩ := ite_error_eq_ok_iff.1 h
  obtain ⟨hquota, h⟩ := ite_error_eq_ok_iff.1 h
  exact ⟨topUp, not_not.1 hprovider, not_le.1 hquota,
    completeTopUp_of_ok h hget (not_not.1 hstatus) fun _ => rfl⟩

theorem rechargeCreem_of_ok {customerEmail : String}
    (h : Payment.rechargeCreem db now tradeNo customerEmail = .ok db') :
    ∃ topUp, topUp.paymentProvider = paymentProviderCreem ∧ 0 < topUp.amount ∧
      Credits db db' tradeNo topUp fun u =>
        { u with
          quota := u.quota + topUp.amount
          email := if customerEmail ≠ "" ∧ u.email = "" then customerEmail else u.email } := by
  obtain ⟨-, h⟩ := ite_error_eq_ok_iff.1 h
  obtain ⟨topUp, hget, h⟩ := withTopUp_of_ok (hideError_of_ok h)
  obtain ⟨hprovider, h⟩ := ite_error_eq_ok_iff.1 h
  obtain ⟨hstatus, h⟩ := ite_error_eq_ok_iff.1 h
  obtain ⟨hquota, h⟩ := ite_error_eq_ok_iff.1 h
  exact ⟨topUp, not_not.1 hprovider, not_le.1 hquota,
    completeTopUp_of_ok h hget (not_not.1 hstatus) fun _ => rfl⟩

def Done (db : Db) (tradeNo : String) : Prop :=
  ∃ topUp, db.topUps.get? tradeNo = some topUp ∧ topUp.status = .success

theorem rechargeUnits_of_ok {paymentProvider : String} {check : TopUp → Except String Unit}
    (h : rechargeUnits cfg paymentProvider check db now tradeNo = .ok db') :
    db' = db ∧ Done db tradeNo ∨ ∃ topUp, topUp.paymentProvider = paymentProvider ∧ 0 < unitQuota cfg topUp ∧
      Credits db db' tradeNo topUp (addQuota (unitQuota cfg topUp)) := by
  obtain ⟨-, h⟩ := ite_error_eq_ok_iff.1 h
  obtain ⟨topUp, hget, h⟩ := withTopUp_of_ok (hideError_of_ok h)
  obtain ⟨hprovider, h⟩ := ite_error_eq_ok_iff.1 h
  split at h
  · rename_i hdone
    exact .inl ⟨(Except.ok.inj h).symm, topUp, hget, hdone⟩
  obtain ⟨hstatus, h⟩ := ite_error_eq_ok_iff.1 h
  obtain ⟨_, -, h⟩ := bind_eq_ok_iff.1 h
  obtain ⟨hquota, h⟩ := ite_error_eq_ok_iff.1 h
  exact .inr ⟨topUp, not_not.1 hprovider, not_le.1 hquota,
    completeTopUp_of_ok h hget (not_not.1 hstatus) fun _ => rfl⟩

theorem rechargeEpay_of_ok {method : String} (h : rechargeEpay cfg db now tradeNo method = .ok db')
    : ∃ topUp, topUp.paymentProvider = paymentProviderEpay ∧ 0 < unitQuota cfg topUp ∧
      Credits db db' tradeNo topUp (addQuota (unitQuota cfg topUp)) := by
  obtain ⟨-, h⟩ := ite_error_eq_ok_iff.1 h
  obtain ⟨topUp, hget, h⟩ := withTopUp_of_ok h
  obtain ⟨hprovider, h⟩ := ite_error_eq_ok_iff.1 h
  obtain ⟨hstatus, h⟩ := ite_error_eq_ok_iff.1 h
  obtain ⟨hquota, h⟩ := ite_error_eq_ok_iff.1 h
  exact ⟨topUp, not_not.1 hprovider, not_le.1 hquota,
    completeTopUp_of_ok h hget (not_not.1 hstatus) fun _ => rfl⟩

theorem manualCompleteTopUp_of_ok (h : manualCompleteTopUp cfg db now tradeNo = .ok db') :
    db' = db ∧ Done db tradeNo ∨ ∃ topUp, 0 < manualQuota cfg topUp ∧
      Credits db db' tradeNo topUp (addQuota (manualQuota cfg topUp)) := by
  obtain ⟨-, h⟩ := ite_error_eq_ok_iff.1 h
  obtain ⟨topUp, hget, h⟩ := withTopUp_of_ok h
  split at h
  · rename_i hdone
    exact .inl ⟨(Except.ok.inj h).symm, topUp, hget, hdone⟩
  obtain ⟨hstatus, h⟩ := ite_error_eq_ok_iff.1 h
  obtain ⟨hquota, h⟩ := ite_error_eq_ok_iff.1 h
  exact .inr ⟨topUp, not_le.1 hquota, completeTopUp_of_ok h hget (not_not.1 hstatus) fun _ => rfl⟩

/-- A pending order gets another status, and nothing else changes. -/
def Marks (db db' : Db) (tradeNo : String) (targetStatus : TopUpStatus) : Prop :=
  (∃ topUp, db.topUps.get? tradeNo = some topUp ∧ topUp.status = .pending) ∧ db' = { db with
      topUps := db.topUps.modify tradeNo fun t => { t with status := targetStatus } }

theorem updatePendingTopUpStatus_of_ok {expected : String} {targetStatus : TopUpStatus}
    (h : updatePendingTopUpStatus db tradeNo expected targetStatus = .ok db') :
    Marks db db' tradeNo targetStatus := by
  obtain ⟨-, h⟩ := ite_error_eq_ok_iff.1 h
  obtain ⟨topUp, hget, h⟩ := withTopUp_of_ok h
  obtain ⟨-, h⟩ := ite_error_eq_ok_iff.1 h
  obtain ⟨hstatus, h⟩ := ite_error_eq_ok_iff.1 h
  exact ⟨⟨topUp, hget, not_not.1 hstatus⟩, transitionPendingTopUpTx_of_ok h⟩

def userUpdates (cfg : TopUpConfig) (topUp : TopUp) : Op → User → User
  | .recharge _ customerId => fun u =>
    { u with
      stripeCustomer := customerId
      quota := cfg.store (u.quota + topUp.money * cfg.quotaPerUnit) }
  | .rechargeCreem _ customerEmail => fun u =>
    { u with
      quota := u.quota + topUp.amount
      email := if customerEmail ≠ "" ∧ u.email = "" then customerEmail else u.email }
  | .manualComplete _ => addQuota (manualQuota cfg topUp)
  | _ => addQuota (unitQuota cfg topUp)

/-- The provider of a callback; the other two calls are not callbacks. -/
def Op.provider : Op → Option String
  | .recharge _ _ => some paymentProviderStripe
  | .rechargeCreem _ _ => some paymentProviderCreem
  | .rechargeWaffo _ => some paymentProviderWaffo
  | .rechargeAgou _ _ _ => some paymentProviderAgou
  | .rechargeEpay _ _ => some paymentProviderEpay
  | .rechargeCryptomus _ => some paymentProviderCryptomus
  | .rechargeBepusdt _ => some paymentProviderBepusdt
  | .rechargeWaffoPancake _ => some paymentProviderWaffoPancake
  | .manualComplete _ => none
  | .updatePendingStatus _ _ _ => none

theorem exists_recharge_of_provider (h : op.provider = some paymentProviderStripe) :
    ∃ tradeNo customerId, op = .recharge tradeNo customerId := by
  cases op with
  | recharge tradeNo customerId => exact ⟨tradeNo, customerId, rfl⟩
  | manualComplete _ => cases h
  | updatePendingStatus _ _ _ => cases h
  | _ => exact absurd (some.inj h) (by decide)

theorem exists_rechargeCreem_of_provider (h : op.provider = some paymentProviderCreem) :
    ∃ tradeNo customerEmail, op = .rechargeCreem tradeNo customerEmail := by
  cases op with
  | rechargeCreem tradeNo customerEmail => exact ⟨tradeNo, customerEmail, rfl⟩
  | manualComplete _ => cases h
  | updatePendingStatus _ _ _ => cases h
  | _ => exact absurd (some.inj h) (by decide)

/-- What has been checked before the order is completed: its provider, and that the quota is
positive. -/
structure Checked (cfg : TopUpConfig) (topUp : TopUp) (op : Op) : Prop where
  provider : ∀ provider, op.provider = some provider → topUp.paymentProvider = provider
  stripe : op.provider = some paymentProviderStripe → 0 < topUp.money * cfg.quotaPerUnit
  creem : op.provider = some paymentProviderCreem → 0 < topUp.amount
  units : ∀ provider, op.provider = some provider → provider ≠ paymentProviderStripe →
    provider ≠ paymentProviderCreem → 0 < unitQuota cfg topUp

theorem checked_units {provider : String} (hop : op.provider = some provider)
    (hprovider : topUp.paymentProvider = provider) (hstripe : provider ≠ paymentProviderStripe)
    (hcreem : provider ≠ paymentProviderCreem) (hunits : 0 < unitQuota cfg topUp) :
    Checked cfg topUp op := by
  have hsame : ∀ p, op.provider = some p → provider = p := fun p hp =>
    some.inj (hop.symm.trans hp)
  exact ⟨fun p hp => hprovider.trans (hsame p hp), fun hp => absurd (hsame _ hp) hstripe,
    fun hp => absurd (hsame _ hp) hcreem, fun _ _ _ _ => hunits⟩

/-- A call that succeeds changes nothing, or gives a pending order another status, or completes it. -/
theorem exec_cases (h : exec cfg db c = .ok db') :
    db' = db ∧ Done db c.op.tradeNo ∨
      (c.op.provider = none ∧ ∃ targetStatus, Marks db db' c.op.tradeNo targetStatus) ∨
      ∃ topUp, Checked cfg topUp c.op ∧
        Credits db db' c.op.tradeNo topUp (userUpdates cfg topUp c.op) := by
  obtain ⟨now, rollsBack, op⟩ := c
  obtain ⟨-, h⟩ := ite_error_eq_ok_iff.1 h
  -- the five callbacks with an amount in units
  have hunits : ∀ {provider : String} {check : TopUp → Except String Unit},
      rechargeUnits cfg provider check db now op.tradeNo = .ok db' → op.provider = some provider →
      provider ≠ paymentProviderStripe → provider ≠ paymentProviderCreem →
      (∀ topUp, userUpdates cfg topUp op = addQuota (unitQuota cfg topUp)) →
      db' = db ∧ Done db op.tradeNo ∨
        (op.provider = none ∧ ∃ targetStatus, Marks db db' op.tradeNo targetStatus) ∨
        ∃ topUp, Checked cfg topUp op ∧
          Credits db db' op.tradeNo topUp (userUpdates cfg topUp op) := by
    intro provider check hok hop hstripe hcreem hupdates
    obtain heq | ⟨topUp, hprovider, hpos, hcredits⟩ := rechargeUnits_of_ok hok
    · exact .inl heq
    · rw [← hupdates topUp] at hcredits
      exact .inr (.inr ⟨topUp, checked_units hop hprovider hstripe hcreem hpos, hcredits⟩)
  cases op with
  | recharge tradeNo customerId =>
    obtain ⟨topUp, hprovider, hpos, hcredits⟩ := recharge_of_ok h
    refine .inr (.inr ⟨topUp, ⟨fun p hp => hprovider.trans (some.inj hp), fun _ => hpos,
      fun hp => absurd (some.inj hp) (by decide), fun p hp hne => ?_⟩, hcredits⟩)
    exact absurd (some.inj hp).symm hne
  | rechargeCreem tradeNo customerEmail =>
    obtain ⟨topUp, hprovider, hpos, hcredits⟩ := rechargeCreem_of_ok h
    refine .inr (.inr ⟨topUp, ⟨fun p hp => hprovider.trans (some.inj hp),
      fun hp => absurd (some.inj hp) (by decide), fun _ => hpos, fun p hp _ hne => ?_⟩, hcredits⟩)
    exact absurd (some.inj hp).symm hne
  | rechargeWaffo | rechargeAgou | rechargeCryptomus | rechargeBepusdt | rechargeWaffoPancake =>
    exact hunits h rfl (by decide) (by decide) fun _ => rfl
  | rechargeEpay tradeNo method =>
    obtain ⟨topUp, hprovider, hpos, hcredits⟩ := rechargeEpay_of_ok h
    exact .inr (.inr ⟨topUp, checked_units rfl hprovider (by decide) (by decide) hpos, hcredits⟩)
  | manualComplete tradeNo =>
    obtain heq | ⟨topUp, hpos, hcredits⟩ := manualCompleteTopUp_of_ok h
    · exact .inl heq
    · refine .inr (.inr ⟨topUp, ⟨nofun, nofun, nofun, nofun⟩, hcredits⟩)
  | updatePendingStatus tradeNo expected targetStatus =>
    exact .inr (.inl ⟨rfl, targetStatus, updatePendingTopUpStatus_of_ok h⟩)

theorem step_cases (h : step cfg db c = some db') :
    db' = db ∨ (∃ targetStatus, Marks db db' c.op.tradeNo targetStatus) ∨
      ∃ topUp, Checked cfg topUp c.op ∧
        Credits db db' c.op.tradeNo topUp (userUpdates cfg topUp c.op) := by
  cases h
  cases hexec : exec cfg db c with
  | error e => exact .inl rfl
  | ok db' =>
    obtain ⟨rfl, -⟩ | ⟨-, hmarks⟩ | hcredits := exec_cases hexec
    · exact .inl rfl
    · exact .inr (.inl hmarks)
    · exact .inr (.inr hcredits)

/-! ## Once -/

/-- One when a call for the trade number changes a user. -/
def credits (tradeNo : String) (db : Db) (c : Call) (db' : Db) : ℤ :=
  if c.op.tradeNo = tradeNo ∧ db'.users ≠ db.users then 1 else 0

theorem topUp_of_step (hget : db.topUps.get? tradeNo = some topUp)
    (hclosed : topUp.status ≠ .pending) (h : step cfg db c = some db') :
    db'.topUps.get? tradeNo = some topUp := by
  have hmodify : ∀ updates : TopUp → TopUp,
      (∃ t, db.topUps.get? c.op.tradeNo = some t ∧ t.status = .pending) →
      (db.topUps.modify c.op.tradeNo updates).get? tradeNo = some topUp := by
    rintro updates ⟨t, ht, hpending⟩
    rw [get?_modify_of_ne _ _ ?_, hget]
    rintro rfl
    rw [hget] at ht
    cases ht
    exact hclosed hpending
  obtain rfl | ⟨_, hpending, rfl⟩ | ⟨t, -, hcredits⟩ := step_cases h
  · exact hget
  · exact hmodify _ hpending
  · obtain ⟨updates, -, htopUps⟩ := hcredits.topUps
    rw [htopUps]
    exact hmodify updates ⟨t, hcredits.pending⟩

def Closed (tradeNo : String) (db : Db) : Prop :=
  ∃ topUp, db.topUps.get? tradeNo = some topUp ∧ topUp.status ≠ .pending

theorem closed_of_credits (h : Credits db db' tradeNo topUp f) :
    Closed tradeNo db' ∧ ¬ Closed tradeNo db := by
  obtain ⟨updates, hsuccess, htopUps⟩ := h.topUps
  refine ⟨⟨updates topUp, ?_, ?_⟩, ?_⟩
  · rw [htopUps, get?_modify_self, h.pending.1, map_some]
  · rw [hsuccess]
    decide
  · rintro ⟨t, ht, hstatus⟩
    rw [h.pending.1] at ht
    cases ht
    exact hstatus h.pending.2

theorem closed_of_step (hclosed : Closed tradeNo db) (h : step cfg db c = some db') :
    Closed tradeNo db' := by
  obtain ⟨topUp, hget, hstatus⟩ := hclosed
  exact ⟨topUp, topUp_of_step hget hstatus h, hstatus⟩

theorem credits_cases (tradeNo : String) (h : step cfg db c = some db') :
    credits tradeNo db c db' = 0 ∨
      credits tradeNo db c db' = 1 ∧ ¬ Closed tradeNo db ∧ Closed tradeNo db' := by
  by_cases hcredit : c.op.tradeNo = tradeNo ∧ db'.users ≠ db.users
  · obtain ⟨rfl, hne⟩ := hcredit
    obtain rfl | ⟨_, -, rfl⟩ | ⟨topUp, -, hcredits⟩ := step_cases h
    · exact absurd rfl hne
    · exact absurd rfl hne
    · obtain ⟨hafter, hbefore⟩ := closed_of_credits hcredits
      exact .inr ⟨if_pos ⟨rfl, hne⟩, hbefore, hafter⟩
  · exact .inl (if_neg hcredit)

/-! ## One amount -/

theorem intPart_eq_floor (h : 0 ≤ x) : intPart x = ⌊x⌋ := by
  rw [intPart, Int.tdiv_eq_ediv_of_nonneg (Rat.num_nonneg.2 h), Rat.floor_def']

theorem one_le_of_intPart_pos (h : 0 < intPart x) : 1 ≤ x := by
  have hx : 0 ≤ x := by
    by_contra hneg
    have hnum : 0 ≤ -x.num := neg_nonneg.2 (Rat.num_neg.2 (not_le.1 hneg)).le
    have hdiv := Int.tdiv_nonneg hnum (Int.natCast_nonneg x.den)
    rw [Int.neg_tdiv] at hdiv
    unfold intPart at h
    omega
  rw [intPart_eq_floor hx] at h
  exact_mod_cast Int.le_floor.1 h

theorem intPart_pos_iff : 0 < intPart x ↔ 1 ≤ x := by
  refine ⟨one_le_of_intPart_pos, fun h => ?_⟩
  rw [intPart_eq_floor (zero_le_one.trans h)]
  exact Int.floor_pos.2 h

def quotaOf (db : Db) (userId : ℤ) : Option ℤ := (db.users.get? userId).map User.quota

/-- What the call leaves is what the administrator's completion leaves in its place. -/
def SameCredit (cfg : TopUpConfig) (db : Db) (c : Call) (db' : Db) : Prop :=
  ∃ db'', exec cfg db { now := c.now, op := .manualComplete c.op.tradeNo } = .ok db'' ∧
    ∀ userId, quotaOf db'' userId = quotaOf db' userId

/-- The amounts of a pending order: the amount of a Creem order is its number of units, and the
fraction of a Stripe order is cut off. -/
def AmountsAgree (cfg : TopUpConfig) (db : Db) (tradeNo : String) : Prop :=
  ∀ topUp u, db.topUps.get? tradeNo = some topUp → topUp.status = .pending →
    db.users.get? topUp.userId = some u →
    (topUp.paymentProvider = paymentProviderCreem →
      1 ≤ cfg.quotaPerUnit ∧ topUp.amount * cfg.quotaPerUnit < topUp.amount + 1) ∧
    (topUp.paymentProvider = paymentProviderStripe → 1 ≤ topUp.money * cfg.quotaPerUnit ∧
        cfg.store (u.quota + topUp.money * cfg.quotaPerUnit) =
          u.quota + intPart (topUp.money * cfg.quotaPerUnit))

/-- An amount in units is the amount itself when a unit is one and a bit. -/
theorem unitQuota_eq_amount_iff (cfg : TopUpConfig) (hpos : 0 < topUp.amount) :
    0 < unitQuota cfg topUp ∧ unitQuota cfg topUp = topUp.amount ↔
      1 ≤ cfg.quotaPerUnit ∧ topUp.amount * cfg.quotaPerUnit < topUp.amount + 1 := by
  have hamount : (0 : ℚ) < topUp.amount := by exact_mod_cast hpos
  have hle : (topUp.amount : ℚ) ≤ topUp.amount * cfg.quotaPerUnit ↔ 1 ≤ cfg.quotaPerUnit :=
    le_mul_iff_one_le_right hamount
  constructor
  · rintro ⟨hunits, heq⟩
    have hnonneg := zero_le_one.trans (one_le_of_intPart_pos hunits)
    rw [unitQuota, intPart_eq_floor hnonneg, Int.floor_eq_iff] at heq
    exact ⟨hle.1 heq.1, heq.2⟩
  · rintro ⟨hone, hlt⟩
    have hunits := hle.2 hone
    have heq : unitQuota cfg topUp = topUp.amount := by
      rw [unitQuota, intPart_eq_floor (hamount.le.trans hunits)]
      exact Int.floor_eq_iff.2 ⟨hunits, hlt⟩
    exact ⟨heq ▸ hpos, heq⟩

theorem manualComplete_of_pending (now : ℤ) (hname : tradeNo ≠ "")
    (hget : db.topUps.get? tradeNo = some topUp) (hpending : topUp.status = .pending)
    (hu : db.users.get? topUp.userId = some u) (hlive : u.deletedAt = none)
    (hpos : 0 < manualQuota cfg topUp) :
    manualCompleteTopUp cfg db now tradeNo = .ok { db with
      topUps := db.topUps.modify tradeNo (completedColumns now)
      users := db.users.modify topUp.userId (addQuota (manualQuota cfg topUp)) } := by
  have hstatus : ∀ t : TopUp, decide (t.status = .pending) = true → completedColumns now t ≠ t := by
    intro t ht heq
    have := congrArg TopUp.status heq
    rw [of_decide_eq_true ht] at this
    cases this
  have hquota : ∀ u : User, u.deletedAt.isNone = true → addQuota (manualQuota cfg topUp) u ≠ u := by
    intro u _ heq
    have := congrArg User.quota heq
    simp only [addQuota] at this
    omega
  have htransition : transitionPendingTopUpTx db tradeNo (completedColumns now) =
      .ok { db with topUps := db.topUps.modify tradeNo (completedColumns now) } := by
    unfold transitionPendingTopUpTx
    rw [(Db.affected_updateRow_eq_some_iff hstatus).2
      ⟨topUp, hget, decide_eq_true hpending, rfl⟩]
  unfold manualCompleteTopUp withTopUp
  rw [if_neg hname, hget]
  dsimp only
  rw [if_neg (by rw [hpending]; decide), if_neg (not_not.2 hpending), if_neg (not_le.2 hpos)]
  unfold completeTopUp
  rw [htransition]
  show updateTopUpUser _ _ _ = _
  unfold updateTopUpUser
  rw [(Db.affected_updateRow_eq_some_iff hquota).2 ⟨u, hu, by rw [hlive]; rfl, rfl⟩]

theorem tradeNo_ne_of_exec (h : exec cfg db c = .ok db') : c.op.tradeNo ≠ "" := by
  obtain ⟨now, rollsBack, op⟩ := c
  obtain ⟨-, h⟩ := ite_error_eq_ok_iff.1 h
  cases op <;> exact (ite_error_eq_ok_iff.1 h).1

theorem quotaOf_of_credits (h : Credits db db' tradeNo topUp f)
    (hu : db.users.get? topUp.userId = some u) (userId : ℤ) :
    quotaOf db' userId = if userId = topUp.userId then some (f u).quota else quotaOf db userId := by
  rw [quotaOf, h.users, get?_modify]
  split_ifs with hid
  · rw [hid, hu]
    rfl
  · rfl

theorem sameCredit_iff_of_credits (hname : c.op.tradeNo ≠ "")
    (hcredits : Credits db db' c.op.tradeNo topUp f) (hu : db.users.get? topUp.userId = some u)
    (hlive : u.deletedAt = none) :
    SameCredit cfg db c db' ↔
      0 < manualQuota cfg topUp ∧ (f u).quota = u.quota + manualQuota cfg topUp := by
  obtain ⟨hget, hpending⟩ := hcredits.pending
  constructor
  · rintro ⟨db'', hmanual, hsame⟩
    obtain ⟨-, topUp', hget', hdone⟩ | ⟨topUp', hpos, hmanual⟩ := manualCompleteTopUp_of_ok hmanual
    · rw [hget] at hget'
      cases hget'
      rw [hpending] at hdone
      cases hdone
    · have hget' := hmanual.pending.1
      rw [hget] at hget'
      cases hget'
      have hquota := hsame topUp.userId
      rw [quotaOf_of_credits hmanual hu, quotaOf_of_credits hcredits hu, if_pos rfl,
        if_pos rfl] at hquota
      exact ⟨hpos, (some.inj hquota).symm⟩
  · rintro ⟨hpos, hquota⟩
    have hmanual := manualComplete_of_pending c.now hname hget hpending hu hlive hpos
    refine ⟨_, hmanual, fun userId => ?_⟩
    obtain ⟨-, _, hget', hdone⟩ | ⟨topUp', -, hcredits'⟩ := manualCompleteTopUp_of_ok hmanual
    · rw [hget] at hget'
      cases hget'
      rw [hpending] at hdone
      cases hdone
    · have hget' := hcredits'.pending.1
      rw [hget] at hget'
      cases hget'
      rw [quotaOf_of_credits hcredits' hu, quotaOf_of_credits hcredits hu, hquota]
      rfl

/-- The callback of a provider credits what the administrator's completion credits, exactly when the
amounts of the order agree. -/
theorem sameCredit_iff {provider : String} (hcallback : c.op.provider = some provider)
    (h : exec cfg db c = .ok db') : SameCredit cfg db c db' ↔ AmountsAgree cfg db c.op.tradeNo := by
  have hname := tradeNo_ne_of_exec h
  obtain ⟨rfl, topUp, hget, hdone⟩ | ⟨hnone, -⟩ | ⟨topUp, hchecked, hcredits⟩ := exec_cases h
  · -- both calls find the order completed
    refine iff_of_true ⟨db', ?_, fun _ => rfl⟩ fun topUp' u hget' hpending => ?_
    · show manualCompleteTopUp cfg db' c.now c.op.tradeNo = _
      unfold manualCompleteTopUp withTopUp
      rw [if_neg hname, hget]
      dsimp only
      rw [if_pos hdone]
    · rw [hget] at hget'
      cases hget'
      rw [hdone] at hpending
      cases hpending
  · rw [hcallback] at hnone
    cases hnone
  obtain ⟨u, hu, hlive⟩ := hcredits.user
  rw [sameCredit_iff_of_credits hname hcredits hu hlive]
  have hprovider := hchecked.provider provider hcallback
  -- the condition is about this order and this user
  have hagree : AmountsAgree cfg db c.op.tradeNo ↔ (provider = paymentProviderCreem →
        1 ≤ cfg.quotaPerUnit ∧ topUp.amount * cfg.quotaPerUnit < topUp.amount + 1) ∧
      (provider = paymentProviderStripe → 1 ≤ topUp.money * cfg.quotaPerUnit ∧
        cfg.store (u.quota + topUp.money * cfg.quotaPerUnit) =
          u.quota + intPart (topUp.money * cfg.quotaPerUnit)) := by
    rw [← hprovider]
    refine ⟨fun ha => ha topUp u hcredits.pending.1 hcredits.pending.2 hu,
      fun ha topUp' u' hget' _ hu' => ?_⟩
    rw [hcredits.pending.1] at hget'
    cases hget'
    rw [hu] at hu'
    cases hu'
    exact ha
  rw [hagree]
  obtain ⟨now, rollsBack, op⟩ := c
  by_cases hstripe : provider = paymentProviderStripe
  · subst hstripe
    have hmanual : manualQuota cfg topUp = intPart (topUp.money * cfg.quotaPerUnit) := by
      rw [manualQuota, if_pos hprovider]
    rw [hmanual, intPart_pos_iff]
    obtain ⟨tradeNo, customerId, rfl⟩ := exists_recharge_of_provider hcallback
    exact ⟨fun hq => ⟨fun hne => absurd hne (by decide), fun _ => hq⟩, fun hq => hq.2 rfl⟩
  have hmanual : manualQuota cfg topUp = unitQuota cfg topUp := by
    rw [manualQuota, if_neg (hprovider ▸ hstripe)]
  rw [hmanual]
  by_cases hcreem : provider = paymentProviderCreem
  · subst hcreem
    obtain ⟨tradeNo, email, rfl⟩ := exists_rechargeCreem_of_provider hcallback
    have hunit := unitQuota_eq_amount_iff cfg (hchecked.creem rfl)
    constructor
    · rintro ⟨hpos, hquota⟩
      refine ⟨fun _ => hunit.1 ⟨hpos, ?_⟩, fun hs => absurd hs hstripe⟩
      exact (add_left_cancel hquota).symm
    · rintro ⟨hq, -⟩
      obtain ⟨hpos, heq⟩ := hunit.2 (hq rfl)
      exact ⟨hpos, by rw [heq]; rfl⟩
  · have hpos := hchecked.units provider hcallback hstripe hcreem
    refine iff_of_true ⟨hpos, ?_⟩ ⟨fun hc => absurd hc hcreem, fun hs => absurd hs hstripe⟩
    cases op with
    | recharge _ _ => exact absurd (some.inj hcallback).symm hstripe
    | rechargeCreem _ _ => exact absurd (some.inj hcallback).symm hcreem
    | manualComplete _ => cases hcallback
    | _ => rfl

theorem credits_of_users_ne (h : step cfg db c = some db') (hne : db'.users ≠ db.users) :
    ∃ topUp, Credits db db' c.op.tradeNo topUp (userUpdates cfg topUp c.op) := by
  obtain rfl | ⟨_, -, rfl⟩ | ⟨topUp, -, hcredits⟩ := step_cases h
  · exact absurd rfl hne
  · exact absurd rfl hne
  · exact ⟨topUp, hcredits⟩

theorem eq_of_error {e : String} (h : step cfg db c = some db') (he : exec cfg db c = .error e) :
    db' = db := by
  unfold step at h
  rw [he] at h
  exact (some.inj h).symm

/-- An order changes a user at most once, in the step that takes it from `pending` to `success`; a call
that fails changes nothing; a callback credits what the administrator's completion would have credited
exactly when the amounts of the order agree; an order that is not pending keeps its row. -/
theorem credited_once_of_run (cfg : TopUpConfig) {db db' : Db} {l : List Call}
    (h : Run.run (step cfg) db l = some db') :
    (∀ tradeNo, Run.total (step cfg) (credits tradeNo) db l ≤ 1) ∧
    (∀ l₁ c l₂ db₁ db₂, l = l₁ ++ c :: l₂ → Run.run (step cfg) db l₁ = some db₁ →
      step cfg db₁ c = some db₂ →
      (∀ e, exec cfg db₁ c = .error e → db₂ = db₁) ∧ (db₂.users ≠ db₁.users →
          ∃ topUp, Credits db₁ db₂ c.op.tradeNo topUp (userUpdates cfg topUp c.op)) ∧
        ∀ provider, c.op.provider = some provider → exec cfg db₁ c = .ok db₂ →
          (SameCredit cfg db₁ c db₂ ↔ AmountsAgree cfg db₁ c.op.tradeNo)) ∧
    (∀ tradeNo topUp, db.topUps.get? tradeNo = some topUp → topUp.status ≠ .pending →
      db'.topUps.get? tradeNo = some topUp) := by
  refine ⟨fun tradeNo => ?_, fun _ c _ db₁ db₂ _ _ hstep => ⟨fun e he => eq_of_error hstep he,
    credits_of_users_ne hstep, fun provider hop hok => sameCredit_iff hop hok⟩,
    fun tradeNo topUp hget hclosed => ?_⟩
  · exact Run.total_le_one (fun _ _ _ hc hs => closed_of_step hc hs)
      (fun _ _ _ hs => credits_cases tradeNo hs) h
  · have hrow : (fun db : Db => db.topUps.get? tradeNo = some topUp) db' :=
      Run.invariant (fun _ _ _ hi hs => topUp_of_step hi hclosed hs) hget h
    exact hrow

/-! ## A Creem order and a Waffo order -/

def unitConfig : TopUpConfig where
  quotaPerUnit := 500000
  store := fun x => ⌊x⌋

def orderedDb (paymentProvider : String) : Db where
  users := Table.empty.put 1 { quota := 0 }
  topUps := Table.empty.put "a"
    { userId := 1
      amount := 10
      money := 1
      paymentMethod := paymentProvider
      paymentProvider
      createTime := 1
      status := .pending }

/-- The callback of a Creem order of 10 credits 10; the administrator's completion credits 5000000. -/
theorem creem_credit_differs :
    ∃ db', exec unitConfig (orderedDb "creem") { now := 5, op := .rechargeCreem "a" "" } = .ok db' ∧
      quotaOf db' 1 = some 10 ∧
      ¬ SameCredit unitConfig (orderedDb "creem") { now := 5, op := .rechargeCreem "a" "" } db' := by
  refine ⟨_, rfl, by decide, ?_⟩
  rintro ⟨db'', hmanual, hsame⟩
  replace hmanual : exec unitConfig (orderedDb "creem")
    { now := 5, op := .manualComplete "a" } = .ok db'' := hmanual
  have hquota : ((exec unitConfig (orderedDb "creem")
      { now := 5, op := .manualComplete "a" }).toOption.bind (quotaOf · 1)) = some 5000000 := by
    decide +kernel
  rw [hmanual] at hquota
  have h10 : quotaOf db'' 1 = some 10 := (hsame 1).trans (by decide)
  rw [show quotaOf db'' 1 = some 5000000 from hquota] at h10
  exact absurd h10 (by decide)

/-- A Waffo order that is called back twice. -/
theorem waffo_credit_agrees :
    ∃ db', Run.run (step unitConfig) (orderedDb "waffo")
        [{ now := 5, op := .rechargeWaffo "a" }, { now := 6, op := .manualComplete "a" }] = some db' ∧
      Run.total (step unitConfig) (credits "a") (orderedDb "waffo")
        [{ now := 5, op := .rechargeWaffo "a" }, { now := 6, op := .manualComplete "a" }] ≤ 1 ∧
      ∃ db₁, SameCredit unitConfig (orderedDb "waffo") { now := 5, op := .rechargeWaffo "a" } db₁ := by
  have hsome : (exec unitConfig (orderedDb "waffo")
      { now := 5, op := .rechargeWaffo "a" }).toOption.isSome = true := by decide +kernel
  obtain ⟨db₁, hok⟩ : ∃ db₁, exec unitConfig (orderedDb "waffo")
      { now := 5, op := .rechargeWaffo "a" } = .ok db₁ := by
    cases hexec : exec unitConfig (orderedDb "waffo") { now := 5, op := .rechargeWaffo "a" } with
    | ok db₁ => exact ⟨db₁, rfl⟩
    | error e =>
      rw [hexec] at hsome
      cases hsome
  have hstep : step unitConfig (orderedDb "waffo") { now := 5, op := .rechargeWaffo "a" } =
      some db₁ := by
    unfold step
    rw [hok]
    rfl
  have hrun := credited_once_of_run unitConfig (show Run.run (step unitConfig) (orderedDb "waffo")
    [{ now := 5, op := .rechargeWaffo "a" }, { now := 6, op := .manualComplete "a" }] = some _ from rfl)
  refine ⟨_, rfl, hrun.1 "a", db₁,
    ((hrun.2.1 [] _ _ _ _ rfl rfl hstep).2.2 "waffo" rfl hok).2 fun topUp u hget _ _ => ?_⟩
  cases hget
  exact ⟨fun hp => absurd hp (by decide), fun hp => absurd hp (by decide)⟩

end BeeApi.Payment.Credit
