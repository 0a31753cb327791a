import Mathlib.Data.Rat.Floor
import BeeApi.Model.Db

/-!
# Top-up orders

Eight callbacks of payment providers, the administrator's completion and the change of a pending
status.  Each finds the order by its trade number, checks it and moves it out of `pending` in the
transaction that adds to the quota of its user.  `float64` values are rationals; logs are left out.
-/

namespace BeeApi.Payment

/-- `int(x)` and `decimal.IntPart`: the fraction is cut off. -/
def intPart (x : ℚ) : ℤ := x.num.tdiv x.den

/-- `decimal.Round(0)`: to the nearest integer, halves away from zero. -/
def roundDecimal (x : ℚ) : ℤ := if 0 ≤ x then ⌊x + 1 / 2⌋ else ⌈x - 1 / 2⌉

/-- `common.QuotaPerUnit`, the parser of decimals, and the integer that the database stores for a
value with a fraction. -/
structure TopUpConfig where
  quotaPerUnit : ℚ
  newFromString : String → Option ℚ := fun _ => none
  store : ℚ → ℤ

def errPaymentMethodMismatch : String := "payment method mismatch"

def errTopUpNotFound : String := "topup not found"

def errTopUpStatusInvalid : String := "topup status invalid"

def paymentProviderEpay : String := "epay"

def paymentProviderStripe : String := "stripe"

def paymentProviderCreem : String := "creem"

def paymentProviderWaffo : String := "waffo"

def paymentProviderWaffoPancake : String := "waffo_pancake"

def paymentProviderCryptomus : String := "cryptomus"

def paymentProviderBepusdt : String := "bepusdt"

def paymentProviderAgou : String := "sfpay"

def transitionPendingTopUpTx (db : Db) (tradeNo : String) (updates : TopUp → TopUp) :
    Except String Db :=
  match db.affected db.topUps (db.topUps.updateRow tradeNo (fun t => t.status = .pending) updates) with
  | some topUps => .ok { db with topUps }
  | none => .error errTopUpStatusInvalid

def completedColumns (now : ℤ) (t : TopUp) : TopUp := { t with completeTime := now, status := .success }

/-- The update of the user of an order, which must hit one row. -/
def updateTopUpUser (db : Db) (userId : ℤ) (updates : User → User) : Except String Db :=
  match db.affected db.users (db.users.updateRow userId (fun u => u.deletedAt.isNone) updates) with
  | some users => .ok { db with users }
  | none => .error "充值用户不存在"

/-- The end of every completion: the order leaves `pending` and the user is updated. -/
def completeTopUp (db : Db) (tradeNo : String) (userId : ℤ) (orderUpdates : TopUp → TopUp)
    (userUpdates : User → User) : Except String Db :=
  transitionPendingTopUpTx db tradeNo orderUpdates >>= fun db =>
    updateTopUpUser db userId userUpdates

def addQuota (quota : ℤ) (u : User) : User := { u with quota := u.quota + quota }

/-- The quota of an order whose amount is in units: `amount * QuotaPerUnit`. -/
def unitQuota (cfg : TopUpConfig) (topUp : TopUp) : ℤ := intPart (topUp.amount * cfg.quotaPerUnit)

/-- The texts that most callbacks return for every error of their transaction. -/
def hideError (res : Except String Db) : Except String Db :=
  match res with
  | .ok db => .ok db
  | .error _ => .error "充值失败，请稍后重试"

/-- The order of a trade number, and what a call does with it. -/
def withTopUp (db : Db) (tradeNo notFound : String) (body : TopUp → Except String Db) :
    Except String Db :=
  match db.topUps.get? tradeNo with
  | none => .error notFound
  | some topUp => body topUp

/-- `Recharge`, the callback of Stripe: the quota is `money * QuotaPerUnit`, with its fraction. -/
def recharge (cfg : TopUpConfig) (db : Db) (now : ℤ) (referenceId customerId : String) :
    Except String Db :=
  if referenceId = "" then .error "未提供支付单号"
  else hideError (withTopUp db referenceId "充值订单不存在" fun topUp =>
    if topUp.paymentProvider ≠ paymentProviderStripe then .error errPaymentMethodMismatch
    else if topUp.status ≠ .pending then .error "充值订单状态错误"
    else
      let quota := topUp.money * cfg.quotaPerUnit
      if quota ≤ 0 then .error "无效的充值额度"
      else
        completeTopUp db referenceId topUp.userId (completedColumns now) fun u =>
          { u with stripeCustomer := customerId, quota := cfg.store (u.quota + quota) })

/-- `RechargeCreem`: the quota is the amount itself.  An email is stored when the user has none. -/
def rechargeCreem (db : Db) (now : ℤ) (referenceId customerEmail : String) : Except String Db :=
  if referenceId = "" then .error "未提供支付单号"
  else hideError (withTopUp db referenceId "充值订单不存在" fun topUp =>
    if topUp.paymentProvider ≠ paymentProviderCreem then .error errPaymentMethodMismatch
    else if topUp.status ≠ .pending then .error "充值订单状态错误"
    else
      let quota := topUp.amount
      if quota ≤ 0 then .error "无效的充值额度"
      else
        completeTopUp db referenceId topUp.userId (completedColumns now) fun u =>
          { u with
            quota := u.quota + quota
            email := if customerEmail ≠ "" ∧ u.email = "" then customerEmail else u.email })

/-- The callbacks that accept an order that is completed already and take its amount in units.
`check` is what a provider checks besides. -/
def rechargeUnits (cfg : TopUpConfig) (paymentProvider : String) (check : TopUp → Except String Unit)
    (db : Db) (now : ℤ) (tradeNo : String) : Except String Db :=
  if tradeNo = "" then .error "未提供支付单号"
  else hideError (withTopUp db tradeNo "充值订单不存在" fun topUp =>
    if topUp.paymentProvider ≠ paymentProvider then .error errPaymentMethodMismatch
    else if topUp.status = .success then .ok db
    else if topUp.status ≠ .pending then .error "充值订单状态错误"
    else
      check topUp >>= fun _ =>
        let quotaToAdd := unitQuota cfg topUp
        if quotaToAdd ≤ 0 then .error "无效的充值额度"
        else completeTopUp db tradeNo topUp.userId (completedColumns now) (addQuota quotaToAdd))

def rechargeWaffo (cfg : TopUpConfig) (db : Db) (now : ℤ) (tradeNo : String) : Except String Db :=
  rechargeUnits cfg paymentProviderWaffo (fun _ => .ok ()) db now tradeNo

/-- The check of `RechargeAgou`: the currency and the fee of the callback, when they are given. -/
def checkAgou (cfg : TopUpConfig) (callbackPaidFee callbackCurrency : String) (topUp : TopUp) :
    Except String Unit :=
  if callbackCurrency ≠ "" ∧ callbackCurrency ≠ "CNY" then
    .error ("sfpay 回调币种与订单不符: got=" ++ callbackCurrency)
  else if callbackPaidFee ≠ "" ∧
      cfg.newFromString callbackPaidFee ≠ some (roundDecimal (topUp.money * 100) : ℚ) then
    .error ("sfpay 回调金额与订单不符: expected=" ++ toString (roundDecimal (topUp.money * 100)) ++
      " got=" ++ callbackPaidFee)
  else .ok ()

def rechargeAgou (cfg : TopUpConfig) (db : Db) (now : ℤ)
    (tradeNo callbackPaidFee callbackCurrency : String) : Except String Db :=
  rechargeUnits cfg paymentProviderAgou (checkAgou cfg callbackPaidFee callbackCurrency) db now tradeNo

def rechargeCryptomus (cfg : TopUpConfig) (db : Db) (now : ℤ) (tradeNo : String) :
    Except String Db :=
  rechargeUnits cfg paymentProviderCryptomus (fun _ => .ok ()) db now tradeNo

def rechargeBepusdt (cfg : TopUpConfig) (db : Db) (now : ℤ) (tradeNo : String) : Except String Db :=
  rechargeUnits cfg paymentProviderBepusdt (fun _ => .ok ()) db now tradeNo

def rechargeWaffoPancake (cfg : TopUpConfig) (db : Db) (now : ℤ) (tradeNo : String) :
    Except String Db :=
  rechargeUnits cfg paymentProviderWaffoPancake (fun _ => .ok ()) db now tradeNo

/-- `RechargeEpay`: its errors are returned as they are, and a completed order is an error.  The
payment method of the callback is stored when it is given. -/
def rechargeEpay (cfg : TopUpConfig) (db : Db) (now : ℤ) (tradeNo callbackPaymentMethod : String) :
    Except String Db :=
  if tradeNo = "" then .error "未提供支付单号"
  else withTopUp db tradeNo errTopUpNotFound fun topUp =>
    if topUp.paymentProvider ≠ paymentProviderEpay then .error errPaymentMethodMismatch
    else if topUp.status ≠ .pending then .error errTopUpStatusInvalid
    else
      let quotaToAdd := unitQuota cfg topUp
      if quotaToAdd ≤ 0 then .error "无效的充值额度"
      else
        completeTopUp db tradeNo topUp.userId
          (fun t =>
            { completedColumns now t with
              paymentMethod :=
                if callbackPaymentMethod ≠ "" then callbackPaymentMethod else t.paymentMethod })
          (addQuota quotaToAdd)

/-- The quota of `ManualCompleteTopUp`: from the money of a Stripe order, and from the amount of any
other. -/
def manualQuota (cfg : TopUpConfig) (topUp : TopUp) : ℤ :=
  if topUp.paymentProvider = paymentProviderStripe then intPart (topUp.money * cfg.quotaPerUnit)
  else unitQuota cfg topUp

def manualCompleteTopUp (cfg : TopUpConfig) (db : Db) (now : ℤ) (tradeNo : String) :
    Except String Db :=
  if tradeNo = "" then .error "未提供订单号"
  else withTopUp db tradeNo "充值订单不存在" fun topUp =>
    if topUp.status = .success then .ok db
    else if topUp.status ≠ .pending then .error "订单状态不是待支付，无法补单"
    else
      let quotaToAdd := manualQuota cfg topUp
      if quotaToAdd ≤ 0 then .error "无效的充值额度"
      else completeTopUp db tradeNo topUp.userId (completedColumns now) (addQuota quotaToAdd)

def updatePendingTopUpStatus (db : Db) (tradeNo expectedPaymentProvider : String)
    (targetStatus : TopUpStatus) : Except String Db :=
  if tradeNo = "" then .error "未提供支付单号"
  else withTopUp db tradeNo errTopUpNotFound fun topUp =>
    if expectedPaymentProvider ≠ "" ∧ topUp.paymentProvider ≠ expectedPaymentProvider then
      .error errPaymentMethodMismatch
    else if topUp.status ≠ .pending then .error errTopUpStatusInvalid
    else transitionPendingTopUpTx db tradeNo fun t => { t with status := targetStatus }

end BeeApi.Payment
