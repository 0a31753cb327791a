import BeeApi.Subscription.Group
import BeeApi.Payment.TopUp

/-!
# Subscription orders

An order is paid through a gateway or from the balance of its user, or it expires.  Both payments
create the subscription and count it in the stock of its plan, in one transaction.  The columns that
are only written (`provider_order_id`, `updated_at` of a plan), the logs and the cache of the group of
a user are left out.
-/

namespace BeeApi.Payment

open Subscription

/-- The configuration of a process: the offset of its local time, `common.QuotaPerUnit`, and the
rounding of a `float64` operation. -/
structure Config where
  zone : ℤ := 0
  quotaPerUnit : ℚ
  round : ℚ → ℚ

def quotaCost (cfg : Config) (plan : SubscriptionPlan) : ℤ :=
  intPart (cfg.round (plan.priceAmount * cfg.quotaPerUnit))

def errSubscriptionOrderNotFound : String := "subscription order not found"

def errSubscriptionOrderStatusInvalid : String := "subscription order status invalid"

def errSubscriptionPlanSoldOut : String := "套餐已售罄"

def errSubscriptionPlanInactive : String := "套餐未启用"

def errSubscriptionPlanPriceInvalid : String := "套餐金额异常"

def errSubscriptionInsufficientQuota : String := "账户余额不足"

def paymentProviderBalance : String := "balance"

/-- `getSubscriptionPlanByIdTx` with what the cache of the plans holds for the id, which may be older
than the row. -/
def getCachedSubscriptionPlan (cached : Option SubscriptionPlan) (db : Db) (id : ℤ) :
    Except String SubscriptionPlan :=
  match cached with
  | some plan => if id ≤ 0 then .error "invalid plan id" else .ok plan
  | none => getSubscriptionPlanByIdTx db id

/-- `IncrementSubscriptionPlanSoldTx`: one more is sold, unless the stock is limited and sold out. -/
def incrementSubscriptionPlanSoldTx (db : Db) (planId : ℤ) : Except String Db :=
  if planId ≤ 0 then .error "invalid plan id"
  else
    match db.affected db.subscriptionPlans (db.subscriptionPlans.updateRow planId
        (fun p => p.stockTotal < 0 || p.stockSold < p.stockTotal)
        fun p => { p with stockSold := p.stockSold + 1 }) with
    | some subscriptionPlans => .ok { db with subscriptionPlans }
    | none => .error errSubscriptionPlanSoldOut

def transitionPendingSubscriptionOrderTx (db : Db) (tradeNo : String)
    (updates : SubscriptionOrder → SubscriptionOrder) : Except String Db :=
  match db.affected db.subscriptionOrders (db.subscriptionOrders.updateRow tradeNo
      (fun o => o.status = .pending) updates) with
  | some subscriptionOrders => .ok { db with subscriptionOrders }
  | none => .error errSubscriptionOrderStatusInvalid

/-- `upsertSubscriptionTopUpTx`: the row of the order among the top-ups. -/
def upsertSubscriptionTopUpTx (db : Db) (now : ℤ) (tradeNo : String) (order : SubscriptionOrder) :
    Except String Db :=
  match db.topUps.get? tradeNo with
  | none =>
    let topup : TopUp :=
      { userId := order.userId
        amount := 0
        money := order.money
        paymentMethod := order.paymentMethod
        createTime := order.createTime
        completeTime := now
        status := .success }
    .ok { db with topUps := db.topUps.put tradeNo topup }
  | some topup =>
    if topup.paymentMethod ≠ "" ∧ topup.paymentMethod ≠ order.paymentMethod then
      .error errPaymentMethodMismatch
    else
      let topup : TopUp :=
        { topup with
          money := order.money
          paymentMethod := order.paymentMethod
          createTime := if topup.createTime = 0 then order.createTime else topup.createTime
          completeTime := now
          status := .success }
      .ok { db with topUps := db.topUps.put tradeNo topup }

/-- The quota of a purchase from the balance. -/
def deductUserQuota (db : Db) (userId quotaCost : ℤ) : Except String Db :=
  match db.affected db.users (db.users.updateRow userId
      (fun u => u.deletedAt.isNone && quotaCost ≤ u.quota)
      fun u => { u with quota := u.quota - quotaCost }) with
  | some users => .ok { db with users }
  | none => .error errSubscriptionInsufficientQuota

/-- The columns of an order that a gateway has paid; an empty payload or method is not written. -/
def paidColumns (now : ℤ) (providerPayload actualPaymentMethod : String) (o : SubscriptionOrder) :
    SubscriptionOrder :=
  { o with
    status := .success
    completeTime := now
    providerPayload := if providerPayload ≠ "" then providerPayload else o.providerPayload
    paymentMethod := if actualPaymentMethod ≠ "" then actualPaymentMethod else o.paymentMethod }

/-- `CompleteSubscriptionOrder`; an empty `expectedPaymentProvider` skips its check. -/
def completeSubscriptionOrder (cfg : Config) (cached : Option SubscriptionPlan) (db : Db) (now : ℤ)
    (tradeNo providerPayload expectedPaymentProvider actualPaymentMethod : String) :
    Except String Db :=
  if tradeNo = "" then .error "tradeNo is empty"
  else
    match db.subscriptionOrders.get? tradeNo with
    | none => .error errSubscriptionOrderNotFound
    | some order =>
      if expectedPaymentProvider ≠ "" ∧ order.paymentProvider ≠ expectedPaymentProvider then
        .error errPaymentMethodMismatch
      else if order.status = .success then .ok db
      else if order.status ≠ .pending then .error errSubscriptionOrderStatusInvalid
      else
        upsertSubscriptionTopUpTx db now tradeNo order >>= fun db =>
        getCachedSubscriptionPlan cached db order.planId >>= fun plan =>
        incrementSubscriptionPlanSoldTx db order.planId >>= fun db =>
        createUserSubscriptionFromPlanTx cfg.zone db now order.userId order.planId plan >>=
          fun (db, _) =>
        transitionPendingSubscriptionOrderTx db tradeNo
          (paidColumns now providerPayload actualPaymentMethod)

def completeSubscriptionOrderByBalance (cfg : Config) (cached : Option SubscriptionPlan) (db : Db)
    (now : ℤ) (tradeNo : String) : Except String Db :=
  if tradeNo = "" then .error "tradeNo is empty"
  else
    match db.subscriptionOrders.get? tradeNo with
    | none => .error errSubscriptionOrderNotFound
    | some order =>
      if order.paymentProvider ≠ paymentProviderBalance then .error errPaymentMethodMismatch
      else if order.status = .success then .ok db
      else if order.status ≠ .pending then .error errSubscriptionOrderStatusInvalid
      else
        getCachedSubscriptionPlan cached db order.planId >>= fun plan =>
        if ¬ plan.enabled then .error errSubscriptionPlanInactive
        else
          incrementSubscriptionPlanSoldTx db order.planId >>= fun db =>
          if quotaCost cfg plan ≤ 0 then .error errSubscriptionPlanPriceInvalid
          else
            deductUserQuota db order.userId (quotaCost cfg plan) >>= fun db =>
            createUserSubscriptionFromPlanTx cfg.zone db now order.userId order.planId plan >>=
              fun (db, _) =>
            transitionPendingSubscriptionOrderTx db tradeNo
              fun o => { o with status := .success, completeTime := now }

/-- `ExpireSubscriptionOrder`; an order that is not pending is left alone. -/
def expireSubscriptionOrder (db : Db) (now : ℤ) (tradeNo expectedPaymentProvider : String) :
    Except String Db :=
  if tradeNo = "" then .error "tradeNo is empty"
  else
    match db.subscriptionOrders.get? tradeNo with
    | none => .error errSubscriptionOrderNotFound
    | some order =>
      if expectedPaymentProvider ≠ "" ∧ order.paymentProvider ≠ expectedPaymentProvider then
        .error errPaymentMethodMismatch
      else if order.status ≠ .pending then .ok db
      else
        transitionPendingSubscriptionOrderTx db tradeNo
          fun o => { o with status := .expired, completeTime := now }

end BeeApi.Payment
