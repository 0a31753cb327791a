import BeeApi.Polling.Midjourney

/-!
# What a Midjourney task takes and returns

A charge and its refund are one relative update with opposite signs.  The counters of an unlimited
token do not move, so what a payment costs depends on the kind of the token; no writer changes it.
-/

namespace BeeApi.Polling

open Subscription Transaction Option

/-! ## Accounts -/

/-- What a payment can move: a wallet, the usage of a subscription, and the counters of a token. -/
inductive Account
  | wallet (userId : ℤ)
  | subscription (id : ℤ)
  | token (id : ℤ)
  | tokenUsage (id : ℤ)

/-- What is left of an account; usage counts against it. -/
def balance (db : Db) : Account → ℤ
  | .wallet id => (db.users.get? id).elim 0 fun u => u.quota
  | .subscription id => (db.userSubscriptions.get? id).elim 0 fun s => -s.amountUsed
  | .token id => (db.tokens.get? id).elim 0 fun t => t.remainQuota
  | .tokenUsage id => (db.tokens.get? id).elim 0 fun t => -t.usedQuota

/-- The counters of the token move. -/
def isLimited (db : Db) (id : ℤ) : Bool := (db.tokens.get? id).any fun t => !t.unlimitedQuota

def cost (db : Db) (userId tokenId subscriptionId quota : ℤ) : Account → ℤ
  | .wallet id => if subscriptionId ≤ 0 ∧ id = userId then quota else 0
  | .subscription id => if 0 < subscriptionId ∧ id = subscriptionId then quota else 0
  | .token id | .tokenUsage id =>
    if 0 < tokenId ∧ id = tokenId ∧ isLimited db tokenId = true then quota else 0

theorem cost_zero (db : Db) (userId tokenId subscriptionId : ℤ) (account : Account) :
    cost db userId tokenId subscriptionId 0 account = 0 := by
  cases account <;> exact ite_self 0

theorem cost_neg (db : Db) (userId tokenId subscriptionId quota : ℤ) (account : Account) :
    cost db userId tokenId subscriptionId (-quota) account =
      -cost db userId tokenId subscriptionId quota account := by
  cases account <;>
    · dsimp only [cost]
      split_ifs
      · rfl
      · exact neg_zero.symm

/-- Tokens stay, and so does the kind of each. -/
def KeepsTokens (db db' : Db) : Prop :=
  ∀ id t, db.tokens.get? id = some t →
    ∃ t', db'.tokens.get? id = some t' ∧ t'.unlimitedQuota = t.unlimitedQuota

theorem KeepsTokens.refl (db : Db) : KeepsTokens db db := fun _ t h => ⟨t, h, rfl⟩

variable {subscriptionId quota id now : ℤ} {db : MjDb} {t : Midjourney}

theorem KeepsTokens.cost_eq {db db' : Db} (h : KeepsTokens db db') {userId tokenId : ℤ}
    (htoken : 0 < tokenId → ∃ t, db.tokens.get? tokenId = some t) (account : Account) :
    cost db' userId tokenId subscriptionId quota account =
      cost db userId tokenId subscriptionId quota account := by
  have hlimited : 0 < tokenId → isLimited db' tokenId = isLimited db tokenId := by
    intro hpos
    obtain ⟨t, ht⟩ := htoken hpos
    obtain ⟨t', ht', hkind⟩ := h tokenId t ht
    rw [isLimited, isLimited, ht, ht', any_some, any_some, hkind]
  cases account with
  | wallet | subscription => rfl
  | token | tokenUsage =>
    dsimp only [cost]
    by_cases hpos : 0 < tokenId
    · rw [hlimited hpos]
    · rw [if_neg fun h => hpos h.1, if_neg fun h => hpos h.1]

/-! ## Payments -/

/-- A payment of `quota`, or the return of `-quota`. -/
structure Paid (db db' : Db) (userId tokenId subscriptionId quota : ℤ) : Prop where
  balance : ∀ account,
    balance db' account = balance db account - cost db userId tokenId subscriptionId quota account
  keepsTokens : KeepsTokens db db'

section Paid

variable {db : Db} {now userId tokenId subscriptionId quota : ℤ}

def paidTokens (db : Db) (now tokenId quota : ℤ) : Table ℤ Token :=
  if 0 < tokenId then db.tokens.modify tokenId (tokenQuotaUpdates now quota) else db.tokens

theorem get?_paidTokens (id : ℤ) :
    (paidTokens db now tokenId quota).get? id = (db.tokens.get? id).map fun t =>
        if 0 < tokenId ∧ id = tokenId then tokenQuotaUpdates now quota t else t := by
  unfold paidTokens
  by_cases hpos : 0 < tokenId
  · rw [if_pos hpos, Table.get?_modify]
    by_cases hid : id = tokenId
    · simp [hpos, hid]
    · simp [hid]
  · simp [hpos]

theorem keepsTokens_of_paidTokens {db' : Db} (h : db'.tokens = paidTokens db now tokenId quota) :
    KeepsTokens db db' := by
  intro id t ht
  rw [h, get?_paidTokens, ht]
  refine ⟨_, rfl, ?_⟩
  split_ifs
  · exact tokenQuotaUpdates_unlimitedQuota now quota t
  · rfl

theorem balance_token_of_paidTokens {db' : Db}
    (h : db'.tokens = paidTokens db now tokenId quota) (id : ℤ) :
    balance db' (.token id) =
      balance db (.token id) - cost db userId tokenId subscriptionId quota (.token id) ∧
    balance db' (.tokenUsage id) =
      balance db (.tokenUsage id) - cost db userId tokenId subscriptionId quota (.tokenUsage id) := by
  dsimp only [balance, cost]
  rw [h, get?_paidTokens]
  by_cases hpaid : 0 < tokenId ∧ id = tokenId
  · obtain ⟨hpos, rfl⟩ := hpaid
    cases ht : db.tokens.get? id with
    | none => simp [isLimited, ht]
    | some t =>
      simp only [isLimited, ht, hpos, tokenQuotaUpdates_remainQuota, tokenQuotaUpdates_usedQuota,
        map_some, elim_some, any_some, and_self, true_and, if_true]
      cases t.unlimitedQuota with
      | true => exact ⟨(sub_zero _).symm, (sub_zero _).symm⟩
      | false => exact ⟨rfl, neg_add' t.usedQuota quota⟩
  · have hskip : ¬ (0 < tokenId ∧ id = tokenId ∧ isLimited db tokenId = true) :=
      fun h => hpaid ⟨h.1, h.2.1⟩
    simp [hpaid, hskip]

theorem paid_of_moved (hpos : 0 < subscriptionId)
    (hmovable : Movable db subscriptionId userId tokenId quota) :
    Paid db (moved db now subscriptionId tokenId quota) userId tokenId subscriptionId quota := by
  obtain ⟨⟨s, hs, -⟩, -⟩ := hmovable
  refine ⟨fun account => ?_, keepsTokens_of_paidTokens rfl⟩
  cases account with
  | wallet id =>
    have hskip : ¬ (subscriptionId ≤ 0 ∧ id = userId) := fun h => by omega
    dsimp only [balance, cost, moved]
    rw [if_neg hskip, sub_zero]
  | subscription id =>
    dsimp only [balance, cost, moved]
    rw [Table.get?_modify]
    split
    · rename_i hid
      rw [if_pos ⟨hpos, hid⟩, hid, hs]
      exact neg_add' s.amountUsed quota
    · rename_i hid
      rw [if_neg fun h => hid h.2, sub_zero]
  | token id => exact (balance_token_of_paidTokens rfl id).1
  | tokenUsage id => exact (balance_token_of_paidTokens rfl id).2

theorem paid_of_wallet {db' : Db} {user : User} (hpos : subscriptionId ≤ 0)
    (huser : db.users.get? userId = some user)
    (husers : db'.users = db.users.modify userId fun u => { u with quota := u.quota - quota })
    (hsubscriptions : db'.userSubscriptions = db.userSubscriptions)
    (htokens : db'.tokens = paidTokens db now tokenId quota) :
    Paid db db' userId tokenId subscriptionId quota := by
  refine ⟨fun account => ?_, keepsTokens_of_paidTokens htokens⟩
  cases account with
  | wallet id =>
    dsimp only [balance, cost]
    rw [husers, Table.get?_modify]
    by_cases hid : id = userId
    · rw [if_pos hid, if_pos ⟨hpos, hid⟩, hid, huser]
      rfl
    · rw [if_neg hid, if_neg fun h => hid h.2, sub_zero]
  | subscription id =>
    have hskip : ¬ (0 < subscriptionId ∧ id = subscriptionId) := fun h => by omega
    dsimp only [balance, cost]
    rw [hsubscriptions, if_neg hskip, sub_zero]
  | token id => exact (balance_token_of_paidTokens htokens id).1
  | tokenUsage id => exact (balance_token_of_paidTokens htokens id).2

end Paid

/-! ## The charge -/

/-- The payer has what a charge takes. -/
def funded (db : Db) (info : RelayInfo) (quota : ℤ) : Bool :=
  0 < info.userId && 0 < quota &&
    (if info.billingSource = "subscription" then
      0 < info.subscriptionId &&
        (db.userSubscriptions.get? info.subscriptionId).any fun s =>
          s.userId = info.userId && usageGuard quota s
    else (db.users.get? info.userId).any fun u => u.deletedAt.isNone && quota ≤ u.quota) &&
    (info.payingToken ≤ 0 ||
      (db.tokens.get? info.payingToken).any fun t =>
        tokenSelected info.userId quota t && tokenQuotaGuard quota t)

def chargedRow (info : RelayInfo) (quota : ℤ) (row : Midjourney) : Midjourney :=
  { row with
    quota
    tokenId := info.payingToken
    subscriptionId := info.payingSubscription
    billingSource := if 0 < info.payingSubscription then "subscription" else "wallet" }

theorem tokenMovable_iff (db : Db) (userId tokenId quota : ℤ) :
    TokenMovable db userId tokenId quota ↔ (tokenId ≤ 0 ∨ (db.tokens.get? tokenId).any fun t =>
        tokenSelected userId quota t && tokenQuotaGuard quota t) := by
  unfold TokenMovable
  rw [any_eq_true]
  constructor
  · intro h
    by_cases hpos : 0 < tokenId
    · obtain ⟨t, ht, hs, hg⟩ := h hpos
      exact .inr ⟨t, ht, by rw [hs, hg]; rfl⟩
    · exact .inl (not_lt.1 hpos)
  · rintro (hpos | ⟨t, ht, hguard⟩) hlt
    · omega
    · rw [Bool.and_eq_true] at hguard
      exact ⟨t, ht, hguard.1, hguard.2⟩

theorem consumeMidjourneyQuota_of_ok {db' : MjDb} {info : RelayInfo}
    (h : consumeMidjourneyQuota db now id info quota = .ok db') :
    ∃ row, db.midjourneys.get? id = some row ∧ row.userId = info.userId ∧ row.quota = 0 ∧
      0 < quota ∧ funded db.main info quota = true ∧
      db'.midjourneys = db.midjourneys.modify id (chargedRow info quota) ∧
      db'.refunds = db.refunds ∧
      Paid db.main db'.main info.userId info.payingToken info.payingSubscription quota := by
  unfold consumeMidjourneyQuota at h
  obtain ⟨hsource, h⟩ := Except.ite_error_eq_ok_iff.1 h
  unfold consumeQuota at h
  obtain ⟨hpositive, h⟩ := Except.ite_error_eq_ok_iff.1 h
  dsimp only at h
  split at h
  · cases h
  rename_i midjourneys hrecorded
  obtain ⟨row, hrow, hguard, rfl⟩ := Db.exists_of_affected hrecorded
  simp only [Bool.and_eq_true, decide_eq_true_eq] at hguard
  obtain ⟨main, hpaid, h⟩ := Except.bind_eq_ok_iff.1 h
  obtain ⟨main', htoken, h⟩ := Except.bind_eq_ok_iff.1 h
  cases h
  refine ⟨row, hrow, hguard.1, hguard.2, by omega, ?_⟩
  by_cases hsub : info.billingSource = "subscription"
  · have hpaying : info.payingSubscription = info.subscriptionId := if_pos hsub
    have hpos : 0 < info.subscriptionId := by
      by_contra hle
      exact hsource ⟨hsub, not_lt.1 hle⟩
    rw [hpaying, if_pos hpos] at hpaid
    have hmove := (move_eq_ok_iff (by omega)).1 (Except.bind_eq_ok_iff.2 ⟨main, hpaid, htoken⟩)
    obtain ⟨hmovable, rfl⟩ := hmove
    obtain ⟨⟨s, hs, hu, hg⟩, ht⟩ := hmovable
    refine ⟨?_, rfl, rfl, ?_⟩
    · have htoken' := (tokenMovable_iff _ _ _ _).1 ht
      simp only [funded, hsub, if_true, hs, any_some, hu, hg, Bool.and_eq_true,
        decide_eq_true_eq, Bool.or_eq_true]
      exact ⟨⟨⟨by omega, by omega⟩, hpos, trivial, trivial⟩, htoken'⟩
    · rw [hpaying]
      exact paid_of_moved hpos ⟨⟨s, hs, hu, hg⟩, ht⟩
  · have hpaying : info.payingSubscription = 0 := if_neg hsub
    rw [hpaying, if_neg (by omega)] at hpaid
    split at hpaid
    · rename_i users husers
      obtain ⟨user, huser, henough, rfl⟩ := Db.exists_of_affected husers
      cases hpaid
      obtain ⟨ht, rfl⟩ := (adjustRequestToken_eq_ok_iff (by omega)).1 htoken
      refine ⟨?_, rfl, rfl, ?_⟩
      · have htoken' := (tokenMovable_iff _ _ _ _).1 ht
        simp only [funded, hsub, if_false, huser, any_some, henough, Bool.and_eq_true,
          decide_eq_true_eq, Bool.or_eq_true]
        exact ⟨⟨⟨by omega, by omega⟩, trivial⟩, htoken'⟩
      · rw [hpaying]
        exact paid_of_wallet le_rfl huser rfl rfl rfl
    · cases hpaid

theorem exists_token_of_funded {db : Db} {info : RelayInfo} (h : funded db info quota = true)
    (hpos : 0 < info.payingToken) : ∃ t, db.tokens.get? info.payingToken = some t := by
  simp only [funded, Bool.and_eq_true, Bool.or_eq_true, decide_eq_true_eq] at h
  obtain hle | hsome := h.2
  · omega
  · obtain ⟨t, ht, -⟩ := any_eq_true _ _ |>.1 hsome
    exact ⟨t, ht⟩

theorem pos_of_normalize_eq_subscription {source : String}
    (h : normalizeAsyncTaskBillingSource source subscriptionId = "subscription") :
    0 < subscriptionId := by
  unfold normalizeAsyncTaskBillingSource at h
  split_ifs at h with hsub hwallet
  · exact hsub.2
  · exact absurd h (by decide)
  · exact absurd h (by decide)

theorem eq_zero_of_normalize_eq_wallet {source : String}
    (h : normalizeAsyncTaskBillingSource source subscriptionId = "wallet") :
    subscriptionId = 0 := by
  unfold normalizeAsyncTaskBillingSource at h
  split_ifs at h with hsub hwallet
  · exact absurd h (by decide)
  · exact hwallet.2
  · exact absurd h (by decide)

theorem paid_of_refundRecord {db db' : Db}
    (h : applyAsyncTaskRefundFundingTx db now t.refundRecord = .ok db') :
    Paid db db' t.userId t.tokenId t.subscriptionId (-t.quota) := by
  obtain ⟨hsource, hmovable, rfl⟩ | ⟨hsource, ⟨user, huser⟩, rfl⟩ :=
    applyAsyncTaskRefundFundingTx_of_ok h
  · dsimp only [Midjourney.refundRecord] at hsource
    exact paid_of_moved (pos_of_normalize_eq_subscription hsource) hmovable
  · dsimp only [Midjourney.refundRecord] at hsource
    refine paid_of_wallet (eq_zero_of_normalize_eq_wallet hsource).le huser ?_ rfl rfl
    show db.users.modify t.userId (fun u => { u with quota := u.quota + t.quota }) =
      db.users.modify t.userId fun u => { u with quota := u.quota - -t.quota }
    simp only [sub_neg_eq_add]

/-! ## The writes of an item -/

def SameCharge (t t' : Midjourney) : Prop :=
  t'.quota = t.quota ∧ t'.tokenId = t.tokenId ∧ t'.subscriptionId = t.subscriptionId ∧
    t'.billingSource = t.billingSource

instance (t t' : Midjourney) : Decidable (SameCharge t t') := inferInstanceAs (Decidable (_ ∧ _))

def Midjourney.Failed (t : Midjourney) : Prop := t.status = "FAILURE" ∧ t.progress = "100%"

instance (t : Midjourney) : Decidable t.Failed := inferInstanceAs (Decidable (_ ∧ _))

/-- What an item leaves in the database when it is applied with the copy `t` of the row `id`. -/
inductive MjWrites (db : MjDb) (id : ℤ) (t : Midjourney) : MjDb → Prop
  | nothing : MjWrites db id t db
  | row (row t' : Midjourney) (hrow : db.midjourneys.get? id = some row)
      (hstatus : row.status = t.status) (huser : t'.userId = t.userId) (hcharge : SameCharge t t')
      (hopen : 0 < t.quota → ¬ t'.Failed) :
      MjWrites db id t { db with midjourneys := db.midjourneys.modify id fun _ => t' }
  | refund (row t' : Midjourney) (record : AsyncTaskRefundRecord)
      (refunds : Table ℤ AsyncTaskRefundRecord) (main : Db)
      (hrow : db.midjourneys.get? id = some row) (hstatus : row.status = t.status)
      (huser : t'.userId = t.userId) (hcharge : SameCharge t t') (hquota : 0 < t.quota)
      (hinsert : db.refunds.insert? id record = some refunds)
      (hpaid : Paid db.main main t.userId t.tokenId t.subscriptionId (-t.quota)) :
      MjWrites db id t
        { main, refunds, midjourneys := db.midjourneys.modify id fun _ => t' }

theorem mjWrites_updateWithStatus (db : MjDb) (id : ℤ) {t' : Midjourney}
    (huser : t'.userId = t.userId) (hcharge : SameCharge t t') (hopen : 0 < t.quota → ¬ t'.Failed) :
    MjWrites db id t (t'.updateWithStatus db id t.status).1 := by
  unfold Midjourney.updateWithStatus
  cases h : db.main.affected db.midjourneys
      (db.midjourneys.updateRow id (fun row => row.status = t.status) fun _ => t') with
  | none => exact .nothing
  | some midjourneys =>
    obtain ⟨row, hrow, hstatus, rfl⟩ := Db.exists_of_affected h
    exact .row row t' hrow (of_decide_eq_true hstatus) huser hcharge hopen

theorem mjWrites_updateWithStatusAndRefund {db' : MjDb} {t' : Midjourney} {won : Bool}
    (huser : t'.userId = t.userId) (hcharge : SameCharge t t')
    (h : t'.updateWithStatusAndRefund db now id t.status = .ok (db', won)) :
    MjWrites db id t db' := by
  unfold Midjourney.updateWithStatusAndRefund at h
  obtain ⟨-, h⟩ := Except.ite_error_eq_ok_iff.1 h
  split at h
  · rename_i hquota
    have hwrites := mjWrites_updateWithStatus db id huser hcharge
      fun hpos => by rw [hcharge.1] at hquota; omega
    rw [Except.ok.inj h] at hwrites
    exact hwrites
  split at h
  · cases h
    exact .nothing
  rename_i midjourneys hwon
  obtain ⟨row, hrow, hstatus, rfl⟩ := Db.exists_of_affected hwon
  obtain ⟨-, h⟩ := Except.ite_error_eq_ok_iff.1 h
  split at h
  · cases h
  rename_i refunds hinsert
  obtain ⟨main, happly, h⟩ := Except.bind_eq_ok_iff.1 h
  cases h
  have hpaid := paid_of_refundRecord happly
  rw [huser, hcharge.1, hcharge.2.1, hcharge.2.2.1] at hpaid
  exact .refund row t' _ refunds main hrow (of_decide_eq_true hstatus) huser hcharge
    (by rw [← hcharge.1]; omega) hinsert hpaid

theorem not_failed_of_not_hasFailed (h : hasFailed t = false) : ¬ t.Failed := by
  rintro ⟨hstatus, hprogress⟩
  simp [hasFailed, hstatus, hprogress] at h

theorem mjWrites_withOutcome {o : Outcome} {res : Except String (MjDb × Bool)}
    (h : ∀ db' won, res = .ok (db', won) → MjWrites db id t db') :
    MjWrites db id t (withOutcome o db res).1 ∧ ((withOutcome o db res).1 ≠ db → o ≠ .rolledBack) := by
  cases res with
  | error e => exact ⟨.nothing, fun hne => absurd rfl hne⟩
  | ok r =>
    cases o with
    | reported | unreported => exact ⟨h r.1 r.2 rfl, fun _ => by decide⟩
    | rolledBack => exact ⟨.nothing, fun hne => absurd rfl hne⟩

theorem forall_ok_of_mjWrites {r : MjDb × Bool} (h : MjWrites db id t r.1) (db' : MjDb) (won : Bool)
    (hres : (.ok r : Except String (MjDb × Bool)) = .ok (db', won)) : MjWrites db id t db' := by
  cases hres
  exact h

/-- An item writes only when the copy needs an update and the transaction is not rolled back.  A
charged copy is written as failed by the refund only. -/
theorem mjWrites_updateMidjourneyTask (o : Outcome) (db : MjDb) (nowMs now id : ℤ) (t : Midjourney)
    (responseItem : MidjourneyDto) :
    MjWrites db id t (updateMidjourneyTask o db nowMs now id t responseItem).1 ∧
      (updateMidjourneyTask o db nowMs now id t responseItem).2.userId = t.userId ∧
      ((updateMidjourneyTask o db nowMs now id t responseItem).1 ≠ db → o ≠ .rolledBack ∧
        checkMjTaskNeedUpdate t (withTimeout nowMs t responseItem) = true) := by
  unfold updateMidjourneyTask
  dsimp only
  cases hneed : checkMjTaskNeedUpdate t (withTimeout nowMs t responseItem) with
  | false => exact ⟨.nothing, rfl, fun h => absurd rfl h⟩
  | true =>
    simp only [Bool.not_true, Bool.false_eq_true, if_false, and_true]
    generalize htask : reportedColumns (withTimeout nowMs t responseItem) t = task
    have huser : task.userId = t.userId := by rw [← htask]; rfl
    have hcharge : SameCharge t task := by
      rw [← htask]
      exact ⟨rfl, rfl, rfl, rfl⟩
    cases hfailed : hasFailed task with
    | false =>
      simp only [Bool.false_eq_true, if_false, Bool.false_and]
      have hwrites := mjWrites_updateWithStatus db id huser hcharge
        fun _ => not_failed_of_not_hasFailed hfailed
      obtain ⟨hw, hout⟩ := mjWrites_withOutcome (o := o) (forall_ok_of_mjWrites hwrites)
      exact ⟨hw, huser, hout⟩
    | true =>
      simp only [if_true, Bool.true_and]
      have hdone : ({ task with progress := progressDone } : Midjourney).userId = t.userId := huser
      by_cases hquota : task.quota ≠ 0
      · rw [if_pos (decide_eq_true hquota)]
        obtain ⟨hw, hout⟩ := mjWrites_withOutcome (o := o) fun db' won hres =>
          mjWrites_updateWithStatusAndRefund hdone hcharge hres
        exact ⟨hw, huser, hout⟩
      · rw [if_neg fun h => hquota (of_decide_eq_true h)]
        have hfree : t.quota = 0 := hcharge.1.symm.trans (not_not.1 hquota)
        have hwrites := mjWrites_updateWithStatus db id hdone hcharge
          fun hpos => absurd hfree hpos.ne'
        obtain ⟨hw, hout⟩ := mjWrites_withOutcome (o := o) (forall_ok_of_mjWrites hwrites)
        exact ⟨hw, huser, hout⟩

end BeeApi.Polling
