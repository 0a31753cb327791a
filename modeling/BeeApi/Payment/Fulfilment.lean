import BeeApi.Subscription.GroupEffect
import BeeApi.Payment.Order

/-!
# An order is fulfilled once

Calls of the two payments and of the expiry, in any order and any number of times.  The order row is
the guard: a call creates something only when it moves the row from `pending` to `success`, and no
call changes a row that is not `pending`.
-/

namespace BeeApi.Payment

open Subscription Option Table Except

/-! ## Calls -/

inductive Op
  /-- `CompleteSubscriptionOrder`. -/
  | complete (tradeNo providerPayload expectedPaymentProvider actualPaymentMethod : String)
  /-- `CompleteSubscriptionOrderByBalance`. -/
  | completeByBalance (tradeNo : String)
  /-- `ExpireSubscriptionOrder`. -/
  | expire (tradeNo expectedPaymentProvider : String)

def Op.tradeNo : Op → String
  | .complete tradeNo .. => tradeNo
  | .completeByBalance tradeNo => tradeNo
  | .expire tradeNo _ => tradeNo

/-- A call, its time, what the plan cache holds for it, and whether the database rolls it back. -/
structure Call where
  now : ℤ
  cached : Option SubscriptionPlan := none
  rollsBack : Bool := false
  op : Op

def exec (cfg : Config) (db : Db) (c : Call) : Except String Db :=
  if c.rollsBack then .error "transaction failed"
  else
    match c.op with
    | .complete tradeNo providerPayload expectedPaymentProvider actualPaymentMethod =>
      completeSubscriptionOrder cfg c.cached db c.now tradeNo providerPayload
        expectedPaymentProvider actualPaymentMethod
    | .completeByBalance tradeNo =>
      completeSubscriptionOrderByBalance cfg c.cached db c.now tradeNo
    | .expire tradeNo expectedPaymentProvider =>
      expireSubscriptionOrder db c.now tradeNo expectedPaymentProvider

/-- The database after a call; what fails is rolled back. -/
def step (cfg : Config) (db : Db) (c : Call) : Option Db :=
  some (((exec cfg db c).toOption).getD db)

/-! ## Parts of the transactions -/

variable {db db' : Db} {tradeNo : String} {order : SubscriptionOrder} {now cost : ℤ} {cfg : Config}
  {c : Call}

theorem incrementSubscriptionPlanSoldTx_of_ok {planId : ℤ}
    (h : incrementSubscriptionPlanSoldTx db planId = .ok db') :
    ∃ plan, db.subscriptionPlans.get? planId = some plan ∧
      (plan.stockTotal < 0 ∨ plan.stockSold < plan.stockTotal) ∧
      db' = { db with
        subscriptionPlans := db.subscriptionPlans.modify planId fun p =>
          { p with stockSold := p.stockSold + 1 } } := by
  unfold incrementSubscriptionPlanSoldTx at h
  split_ifs at h
  split at h
  · rename_i plans hplans
    cases h
    obtain ⟨plan, hget, hstock, rfl⟩ := Db.exists_of_affected hplans
    exact ⟨plan, hget, by simpa using hstock, rfl⟩
  · cases h

theorem transitionPendingSubscriptionOrderTx_of_ok {updates : SubscriptionOrder → SubscriptionOrder}
    (h : transitionPendingSubscriptionOrderTx db tradeNo updates = .ok db') :
    db' = { db with subscriptionOrders := db.subscriptionOrders.modify tradeNo updates } := by
  unfold transitionPendingSubscriptionOrderTx at h
  split at h
  · rename_i orders horders
    cases h
    obtain ⟨_, -, -, rfl⟩ := Db.exists_of_affected horders
    rfl
  · cases h

theorem upsertSubscriptionTopUpTx_of_ok
    (h : upsertSubscriptionTopUpTx db now tradeNo order = .ok db') :
    db' = { db with topUps := db'.topUps } := by
  unfold upsertSubscriptionTopUpTx at h
  split at h
  · cases h
    rfl
  · rename_i topup _
    split at h
    · cases h
    · cases h
      rfl

theorem deductUserQuota_of_ok {userId quotaCost : ℤ}
    (h : deductUserQuota db userId quotaCost = .ok db') :
    ∃ u, db.users.get? userId = some u ∧ quotaCost ≤ u.quota ∧ db' = { db with
        users := db.users.modify userId fun u => { u with quota := u.quota - quotaCost } } := by
  unfold deductUserQuota at h
  split at h
  · rename_i users husers
    cases h
    obtain ⟨u, hget, hguard, rfl⟩ := Db.exists_of_affected husers
    rw [Bool.and_eq_true, decide_eq_true_eq] at hguard
    exact ⟨u, hget, hguard.2, rfl⟩
  · cases h

/-! ## What a call does -/

/-- The order is paid: its row leaves `pending`, one subscription of its user and plan is created, one
more of the plan is sold, and `cost` is taken from the quota of the user. -/
structure Fulfils (db db' : Db) (tradeNo : String) (order : SubscriptionOrder) (cost : ℤ) :
    Prop where
  pending : db.subscriptionOrders.get? tradeNo = some order ∧ order.status = .pending
  orders : ∃ updates : SubscriptionOrder → SubscriptionOrder, (∀ o, (updates o).status = .success) ∧
      db'.subscriptionOrders = db.subscriptionOrders.modify tradeNo updates
  subscription : ∃ id sub, db.userSubscriptions.get? id = none ∧ sub.userId = order.userId ∧
    sub.planId = order.planId ∧ db'.userSubscriptions = db.userSubscriptions.put id sub
  stock : ∃ plan, db.subscriptionPlans.get? order.planId = some plan ∧
    (plan.stockTotal < 0 ∨ plan.stockSold < plan.stockTotal) ∧
    db'.subscriptionPlans = db.subscriptionPlans.modify order.planId fun p =>
      { p with stockSold := p.stockSold + 1 }
  users : Table.Rel (fun id u u' => u' = { u with
    group := u'.group, quota := u.quota - if id = order.userId then cost else 0 }) db.users db'.users
  covered : cost ≠ 0 → ∃ u, db.users.get? order.userId = some u ∧ cost ≤ u.quota

/-- What a call takes for an order: the price of its plan when it is paid from the balance. -/
def Charges (cfg : Config) (db : Db) (c : Call) (order : SubscriptionOrder) (cost : ℤ) : Prop :=
  match c.op with
  | .completeByBalance _ => 0 < cost ∧ ∃ plan,
      getCachedSubscriptionPlan c.cached db order.planId = .ok plan ∧ cost = quotaCost cfg plan
  | _ => cost = 0

/-- The order expires, and nothing else changes. -/
def Expires (db db' : Db) (tradeNo : String) (now : ℤ) : Prop :=
  (∃ order, db.subscriptionOrders.get? tradeNo = some order ∧ order.status = .pending) ∧
    db' = { db with
      subscriptionOrders := db.subscriptionOrders.modify tradeNo fun o =>
        { o with status := .expired, completeTime := now } }

theorem completeSubscriptionOrder_of_ok {cached : Option SubscriptionPlan}
    {payload expected actual : String}
    (h : completeSubscriptionOrder cfg cached db now tradeNo payload expected actual = .ok db') :
    db' = db ∨ ∃ order, Fulfils db db' tradeNo order 0 := by
  unfold completeSubscriptionOrder at h
  split_ifs at h
  split at h
  · cases h
  rename_i order horder
  split_ifs at h with _ _ hpending
  · exact .inl (Except.ok.inj h).symm
  obtain ⟨db₁, h₁, h⟩ := bind_eq_ok_iff.1 h
  obtain ⟨plan, -, h⟩ := bind_eq_ok_iff.1 h
  obtain ⟨db₂, h₂, h⟩ := bind_eq_ok_iff.1 h
  obtain ⟨⟨db₃, id⟩, h₃, h⟩ := bind_eq_ok_iff.1 h
  have hdb₁ := upsertSubscriptionTopUpTx_of_ok h₁
  obtain ⟨sold, hsold, hstock, hdb₂⟩ := incrementSubscriptionPlanSoldTx_of_ok h₂
  obtain ⟨sub, hfresh, huser, hplan, hdb₃, hgroup⟩ := createUserSubscriptionFromPlanTx_of_ok h₃
  have hdb' := transitionPendingSubscriptionOrderTx_of_ok h
  rw [hdb₁] at hdb₂ hsold
  rw [hdb₂] at hdb₃ hfresh hgroup
  rw [hdb₃] at hdb'
  refine .inr ⟨order, ⟨horder, not_not.1 hpending⟩,
    ⟨paidColumns now payload actual, fun _ => rfl, ?_⟩,
    ⟨id, sub, hfresh, huser, hplan, ?_⟩, ⟨sold, hsold, hstock, ?_⟩, ?_, fun hne => absurd rfl hne⟩
  · rw [hdb']
  · rw [hdb']
  · rw [hdb']
  · rw [hdb']
    refine hgroup.mono fun id u u' hu => ?_
    rw [ite_self, sub_zero]
    exact hu

theorem completeSubscriptionOrderByBalance_of_ok {cached : Option SubscriptionPlan}
    (h : completeSubscriptionOrderByBalance cfg cached db now tradeNo = .ok db') :
    db' = db ∨ ∃ order plan, getCachedSubscriptionPlan cached db order.planId = .ok plan ∧
      0 < quotaCost cfg plan ∧ Fulfils db db' tradeNo order (quotaCost cfg plan) := by
  unfold completeSubscriptionOrderByBalance at h
  split_ifs at h
  split at h
  · cases h
  rename_i order horder
  split_ifs at h with _ _ hpending
  · exact .inl (Except.ok.inj h).symm
  obtain ⟨plan, hget, h⟩ := bind_eq_ok_iff.1 h
  split at h
  · cases h
  obtain ⟨db₁, h₁, h⟩ := bind_eq_ok_iff.1 h
  split_ifs at h with hcost
  obtain ⟨db₂, h₂, h⟩ := bind_eq_ok_iff.1 h
  obtain ⟨⟨db₃, id⟩, h₃, h⟩ := bind_eq_ok_iff.1 h
  obtain ⟨sold, hsold, hstock, hdb₁⟩ := incrementSubscriptionPlanSoldTx_of_ok h₁
  obtain ⟨u, hu, hcovered, hdb₂⟩ := deductUserQuota_of_ok h₂
  obtain ⟨sub, hfresh, huser, hplan, hdb₃, hgroup⟩ := createUserSubscriptionFromPlanTx_of_ok h₃
  have hdb' := transitionPendingSubscriptionOrderTx_of_ok h
  rw [hdb₁] at hdb₂ hu
  rw [hdb₂] at hdb₃ hfresh hgroup
  rw [hdb₃] at hdb'
  refine .inr ⟨order, plan, hget, not_le.1 hcost, ⟨horder, not_not.1 hpending⟩,
    ⟨fun o => { o with status := .success, completeTime := now }, fun _ => rfl, ?_⟩,
    ⟨id, sub, hfresh, huser, hplan, ?_⟩, ⟨sold, hsold, hstock, ?_⟩, ?_, fun _ => ⟨u, hu, hcovered⟩⟩
  · rw [hdb']
  · rw [hdb']
  · rw [hdb']
  · rw [hdb']
    -- first the quota, then the group
    have hquota : Table.Rel (fun id u u' => u' = { u with
        quota := u.quota - if id = order.userId then quotaCost cfg plan else 0 }) db.users
        (db.users.modify order.userId fun u => { u with quota := u.quota - quotaCost cfg plan }) :=
      rel_modify (fun _ _ => by rw [if_pos rfl])
        fun _ _ hne => by rw [if_neg hne, sub_zero]
    exact hquota.trans hgroup fun _ u u' u'' h h' => by rw [h', h]

theorem expireSubscriptionOrder_of_ok {expected : String}
    (h : expireSubscriptionOrder db now tradeNo expected = .ok db') :
    db' = db ∨ Expires db db' tradeNo now := by
  unfold expireSubscriptionOrder at h
  split_ifs at h
  split at h
  · cases h
  rename_i order horder
  split_ifs at h with _ hpending
  · exact .inl (Except.ok.inj h).symm
  · exact .inr ⟨⟨order, horder, not_not.1 hpending⟩, transitionPendingSubscriptionOrderTx_of_ok h⟩

theorem step_cases (h : step cfg db c = some db') :
    db' = db ∨ Expires db db' c.op.tradeNo c.now ∨
      ∃ order cost, Fulfils db db' c.op.tradeNo order cost ∧ Charges cfg db c order cost := by
  unfold step at h
  cases h
  cases hexec : exec cfg db c with
  | error e => exact .inl rfl
  | ok db' =>
    obtain ⟨now, cached, rollsBack, op⟩ := c
    unfold exec at hexec
    split_ifs at hexec
    cases op with
    | complete tradeNo payload expected actual =>
      obtain rfl | ⟨order, hful⟩ := completeSubscriptionOrder_of_ok hexec
      · exact .inl rfl
      · exact .inr (.inr ⟨order, 0, hful, rfl⟩)
    | completeByBalance tradeNo =>
      obtain rfl | ⟨order, plan, hplan, hcost, hful⟩ :=
        completeSubscriptionOrderByBalance_of_ok hexec
      · exact .inl rfl
      · exact .inr (.inr ⟨order, _, hful, hcost, plan, hplan, rfl⟩)
    | expire tradeNo expected =>
      obtain rfl | hexp := expireSubscriptionOrder_of_ok hexec
      · exact .inl rfl
      · exact .inr (.inl hexp)

/-- The subscriptions that a call for the trade number creates. -/
def created (tradeNo : String) (db : Db) (c : Call) (db' : Db) : ℤ :=
  if c.op.tradeNo = tradeNo then
    (db'.userSubscriptions.rows.length : ℤ) - db.userSubscriptions.rows.length
  else 0

def quotas (db : Db) : ℤ := db.users.sum fun _ u => u.quota

/-- One when a call for the trade number takes quota from a user. -/
def deductions (tradeNo : String) (db : Db) (c : Call) (db' : Db) : ℤ :=
  if c.op.tradeNo = tradeNo ∧ quotas db' < quotas db then 1 else 0

def subscriptionsOf (planId : ℤ) (db : Db) : ℤ :=
  db.userSubscriptions.sum fun _ s => if s.planId = planId then 1 else 0

theorem created_of_fulfils (h : Fulfils db db' c.op.tradeNo order cost) :
    created c.op.tradeNo db c db' = 1 := by
  obtain ⟨id, sub, hfresh, -, -, hsubs⟩ := h.subscription
  rw [created, if_pos rfl, hsubs, length_put_of_none hfresh]
  push_cast
  ring

theorem created_of_same (tradeNo : String) (c : Call)
    (h : db'.userSubscriptions = db.userSubscriptions) : created tradeNo db c db' = 0 := by
  rw [created, h, sub_self, ite_self]

theorem created_of_ne (db db' : Db) (h : c.op.tradeNo ≠ tradeNo) :
    created tradeNo db c db' = 0 := if_neg h

theorem deductions_of_same (tradeNo : String) (c : Call) (h : db'.users = db.users) :
    deductions tradeNo db c db' = 0 := by
  rw [deductions, quotas, quotas, h, if_neg fun hlt => lt_irrefl _ hlt.2]

theorem deductions_le_created (tradeNo : String) (h : step cfg db c = some db') :
    deductions tradeNo db c db' ≤ created tradeNo db c db' := by
  by_cases hop : c.op.tradeNo = tradeNo
  · obtain rfl | ⟨-, rfl⟩ | ⟨order, cost, hful, -⟩ := step_cases h
    · rw [created_of_same tradeNo c rfl, deductions_of_same tradeNo c rfl]
    · exact (deductions_of_same tradeNo c rfl).trans_le (created_of_same tradeNo c rfl).ge
    · rw [← hop, created_of_fulfils hful, deductions]
      split_ifs
      · exact le_rfl
      · exact zero_le_one
  · rw [created_of_ne _ _ hop, deductions, if_neg fun hlt => hop hlt.1]

/-! ## Invariants of a step -/

theorem order_of_step (hget : db.subscriptionOrders.get? tradeNo = some order)
    (hclosed : order.status ≠ .pending) (h : step cfg db c = some db') :
    db'.subscriptionOrders.get? tradeNo = some order := by
  have hmodify : ∀ updates : SubscriptionOrder → SubscriptionOrder,
      (∃ o, db.subscriptionOrders.get? c.op.tradeNo = some o ∧ o.status = .pending) →
      (db.subscriptionOrders.modify c.op.tradeNo updates).get? tradeNo = some order := by
    rintro updates ⟨o, ho, hpending⟩
    rw [get?_modify_of_ne _ _ ?_, hget]
    rintro rfl
    rw [hget] at ho
    cases ho
    exact hclosed hpending
  obtain rfl | ⟨hpending, rfl⟩ | ⟨o, cost, hful, -⟩ := step_cases h
  · exact hget
  · exact hmodify _ hpending
  · obtain ⟨updates, -, horders⟩ := hful.orders
    rw [horders]
    exact hmodify updates ⟨o, hful.pending⟩

def Closed (tradeNo : String) (db : Db) : Prop :=
  ∃ order, db.subscriptionOrders.get? tradeNo = some order ∧ order.status ≠ .pending

theorem closed_of_step (hclosed : Closed tradeNo db) (h : step cfg db c = some db') :
    Closed tradeNo db' := by
  obtain ⟨order, hget, hstatus⟩ := hclosed
  exact ⟨order, order_of_step hget hstatus h, hstatus⟩

theorem closed_of_fulfils (h : Fulfils db db' tradeNo order cost) :
    Closed tradeNo db' ∧ ¬ Closed tradeNo db := by
  obtain ⟨updates, hsuccess, horders⟩ := h.orders
  refine ⟨⟨updates order, ?_, ?_⟩, ?_⟩
  · rw [horders, get?_modify_self, h.pending.1, map_some]
  · rw [hsuccess]
    decide
  · rintro ⟨o, ho, hstatus⟩
    rw [h.pending.1] at ho
    cases ho
    exact hstatus h.pending.2

theorem created_cases (tradeNo : String) (h : step cfg db c = some db') :
    created tradeNo db c db' = 0 ∨
      created tradeNo db c db' = 1 ∧ ¬ Closed tradeNo db ∧ Closed tradeNo db' := by
  by_cases hop : c.op.tradeNo = tradeNo
  · subst hop
    obtain rfl | ⟨-, rfl⟩ | ⟨order, cost, hful, -⟩ := step_cases h
    · exact .inl (created_of_same _ _ rfl)
    · exact .inl (created_of_same _ _ rfl)
    · obtain ⟨hafter, hbefore⟩ := closed_of_fulfils hful
      exact .inr ⟨created_of_fulfils hful, hbefore, hafter⟩
  · exact .inl (created_of_ne _ _ hop)

structure StockFits (planId : ℤ) (plan : SubscriptionPlan) (before db : Db) : Prop where
  row : ∃ plan', db.subscriptionPlans.get? planId = some plan' ∧
    plan'.stockTotal = plan.stockTotal ∧
    plan'.stockSold - plan.stockSold = subscriptionsOf planId db - subscriptionsOf planId before ∧
    (0 ≤ plan.stockTotal → plan.stockSold ≤ plan.stockTotal → plan'.stockSold ≤ plan'.stockTotal)

theorem stockFits_of_step {before : Db} {planId : ℤ} {plan : SubscriptionPlan}
    (hfits : StockFits planId plan before db) (h : step cfg db c = some db') :
    StockFits planId plan before db' := by
  obtain rfl | ⟨-, rfl⟩ | ⟨order, cost, hful, -⟩ := step_cases h
  · exact hfits
  · exact ⟨hfits.row⟩
  · obtain ⟨plan', hget, htotal, hsold, hbound⟩ := hfits.row
    obtain ⟨id, sub, hfresh, -, hplan, hsubs⟩ := hful.subscription
    obtain ⟨row, hrow, hstock, hplans⟩ := hful.stock
    have hcount : subscriptionsOf planId db' =
        subscriptionsOf planId db + if order.planId = planId then 1 else 0 := by
      rw [subscriptionsOf, hsubs, sum_put_of_none hfresh, hplan, subscriptionsOf]
    by_cases hid : order.planId = planId
    · subst hid
      rw [hget] at hrow
      cases hrow
      refine ⟨{ plan' with stockSold := plan'.stockSold + 1 }, ?_, htotal, ?_, fun hpos _ => ?_⟩
      · rw [hplans, get?_modify_self, hget, map_some]
      · rw [hcount, if_pos rfl]
        linarith
      · dsimp only
        omega
    · refine ⟨plan', ?_, htotal, ?_, hbound⟩
      · rw [hplans, get?_modify_of_ne _ _ (Ne.symm hid), hget]
      · rw [hcount, if_neg hid, add_zero]
        exact hsold

/-- The quota of a user never grows, and never falls below zero. -/
structure QuotaFits (userId : ℤ) (user : User) (db : Db) : Prop where
  row : ∃ user', db.users.get? userId = some user' ∧ user'.quota ≤ user.quota ∧
    (0 ≤ user.quota → 0 ≤ user'.quota)

theorem nonneg_of_charges (h : Charges cfg db c order cost) : 0 ≤ cost := by
  unfold Charges at h
  split at h
  · exact h.1.le
  · exact h.ge

theorem quotaFits_of_step {userId : ℤ} {user : User} (hfits : QuotaFits userId user db)
    (h : step cfg db c = some db') : QuotaFits userId user db' := by
  obtain rfl | ⟨-, rfl⟩ | ⟨order, cost, hful, hcharge⟩ := step_cases h
  · exact hfits
  · exact ⟨hfits.row⟩
  · obtain ⟨u, hu, hle, hnonneg⟩ := hfits.row
    obtain ⟨u', hu', hrel⟩ := hful.users.get? hu
    have hquota : u'.quota = u.quota - if userId = order.userId then cost else 0 := by rw [hrel]
    have hcost := nonneg_of_charges hcharge
    refine ⟨u', hu', ?_, fun hpos => ?_⟩
    · rw [hquota]
      split_ifs <;> omega
    · rw [hquota]
      split_ifs with hid
      · by_cases hzero : cost = 0
        · rw [hzero, sub_zero]
          exact hnonneg hpos
        · obtain ⟨row, hrow, hcovered⟩ := hful.covered hzero
          rw [← hid, hu] at hrow
          cases hrow
          omega
      · rw [sub_zero]
        exact hnonneg hpos

/-- A call that fails leaves everything alone; one that creates no subscription leaves the quotas,
groups and stocks alone; any other creates one and takes at most the price of its plan. -/
theorem fulfils_iff_created (h : step cfg db c = some db') :
    ((∃ e, exec cfg db c = .error e) → db' = db) ∧
      (created c.op.tradeNo db c db' = 0 ∧ db'.userSubscriptions = db.userSubscriptions ∧
          db'.users = db.users ∧ db'.subscriptionPlans = db.subscriptionPlans ∨
        created c.op.tradeNo db c db' = 1 ∧
          ∃ order cost, Fulfils db db' c.op.tradeNo order cost ∧ Charges cfg db c order cost) := by
  constructor
  · rintro ⟨e, he⟩
    unfold step at h
    rw [he] at h
    exact (some.inj h).symm
  · obtain rfl | ⟨-, rfl⟩ | ⟨order, cost, hful, hcharge⟩ := step_cases h
    · exact .inl ⟨created_of_same _ _ rfl, rfl, rfl, rfl⟩
    · exact .inl ⟨created_of_same _ _ rfl, rfl, rfl, rfl⟩
    · exact .inr ⟨created_of_fulfils hful, order, cost, hful, hcharge⟩

/-! ## Every run -/

/-- A trade number creates at most one subscription and takes quota at most once, only with that
subscription; the stock counts the subscriptions and keeps its bound; no quota falls below zero; a closed
order keeps its row. -/
theorem fulfilled_once_of_run (cfg : Config) {db db' : Db} {l : List Call}
    (h : Run.run (step cfg) db l = some db') :
    (∀ tradeNo, Run.total (step cfg) (created tradeNo) db l ≤ 1 ∧
      Run.total (step cfg) (deductions tradeNo) db l ≤
        Run.total (step cfg) (created tradeNo) db l) ∧
    (∀ l₁ c l₂ db₁ db₂, l = l₁ ++ c :: l₂ → Run.run (step cfg) db l₁ = some db₁ →
      step cfg db₁ c = some db₂ → ((∃ e, exec cfg db₁ c = .error e) → db₂ = db₁) ∧
        (created c.op.tradeNo db₁ c db₂ = 0 ∧ db₂.userSubscriptions = db₁.userSubscriptions ∧
            db₂.users = db₁.users ∧ db₂.subscriptionPlans = db₁.subscriptionPlans ∨
          created c.op.tradeNo db₁ c db₂ = 1 ∧
            ∃ order cost, Fulfils db₁ db₂ c.op.tradeNo order cost ∧ Charges cfg db₁ c order cost)) ∧
    (∀ planId plan, db.subscriptionPlans.get? planId = some plan → StockFits planId plan db db') ∧
    (∀ userId user, db.users.get? userId = some user → QuotaFits userId user db') ∧
    (∀ tradeNo order, db.subscriptionOrders.get? tradeNo = some order → order.status ≠ .pending →
      db'.subscriptionOrders.get? tradeNo = some order) := by
  refine ⟨fun tradeNo => ⟨?_, ?_⟩, fun _ _ _ _ _ _ _ hstep => fulfils_iff_created hstep,
    fun planId plan hget => ?_, fun userId user hget => ?_, fun tradeNo order hget hclosed => ?_⟩
  · exact Run.total_le_one (fun _ _ _ hc hs => closed_of_step hc hs)
      (fun _ _ _ hs => created_cases tradeNo hs) h
  · have hstep : ∀ db c db', step cfg db c = some db' →
        deductions tradeNo db c db' ≤ created tradeNo db c db' :=
      fun _ _ _ hs => deductions_le_created tradeNo hs
    exact Run.total_le_total hstep
  · refine Run.invariant (fun _ _ _ hi hs => stockFits_of_step hi hs) ⟨plan, hget, rfl, ?_, ?_⟩ h
    · rw [sub_self, sub_self]
    · exact fun _ hle => hle
  · exact Run.invariant (fun _ _ _ hi hs => quotaFits_of_step hi hs)
      ⟨user, hget, le_rfl, fun hpos => hpos⟩ h
  · have hrow : (fun db : Db => db.subscriptionOrders.get? tradeNo = some order) db' :=
      Run.invariant (fun _ _ _ hi hs => order_of_step hi hclosed hs) hget h
    exact hrow

def pendingOrder (paymentProvider : String) : SubscriptionOrder :=
  { userId := 1
    planId := 3
    money := 5
    paymentMethod := paymentProvider
    paymentProvider
    status := .pending
    createTime := 1 }

/-- A plan with one left in stock, a user who can pay for it, and two of its orders. -/
def stockDb : Db where
  users := Table.empty.put 1 { quota := 900, group := "default" }
  subscriptionPlans := Table.empty.put 3 { priceAmount := 5, stockTotal := 1, upgradeGroup := "vip" }
  subscriptionOrders :=
    (Table.empty.put "a" (pendingOrder "balance")).put "b" (pendingOrder "stripe")

/-- The order from the balance is completed twice; then the other one finds the plan sold out. -/
def racedOrders : List Call :=
  [{ now := 10, op := .completeByBalance "a" }, { now := 11, op := .completeByBalance "a" },
    { now := 12, op := .complete "b" "" "stripe" "" }, { now := 13, op := .expire "a" "" }]

theorem fulfilled_once_of_racedOrders :
    ∃ db', Run.run (step { quotaPerUnit := 100, round := id }) stockDb racedOrders = some db' ∧
      StockFits 3 { priceAmount := 5, stockTotal := 1, upgradeGroup := "vip" } stockDb db' ∧
      (db'.users.get? 1).map User.quota = some 400 ∧
      db'.userSubscriptions.rows.length = 1 := by
  exact exists_some_imp (by decide +kernel) fun db' h hval =>
    ⟨(fulfilled_once_of_run _ h).2.2.1 3 _ rfl, hval⟩

end BeeApi.Payment
