import BeeApi.Lib.Table
import BeeApi.Lib.Run
import BeeApi.Lib.Strings

/-!
# The main database

The rows of `model/` that the money paths read and write, and the database as a record of tables.  A
function that runs inside `DB.Transaction` is a function `Db → Except String Db`, so that an error is the
rollback.  `gorm` hides rows with a `deleted_at` from every query that is not `Unscoped`, and refreshes
`updated_at` on every update.  Timestamps are passed in.
-/

namespace BeeApi

open Option Table

/-- `model.User`, the columns the money and group paths use. -/
structure User where
  quota : ℤ
  usedQuota : ℤ := 0
  requestCount : ℤ := 0
  group : String := "♻️ default"
  email : String := ""
  stripeCustomer : String := ""
  deletedAt : Option ℤ := none
deriving DecidableEq

/-- `model.Token`, the columns the quota paths use. -/
structure Token where
  userId : ℤ
  remainQuota : ℤ := 0
  unlimitedQuota : Bool := false
  usedQuota : ℤ := 0
  accessedTime : ℤ := 0
  deletedAt : Option ℤ := none
deriving DecidableEq

inductive WalletPreConsumeStatus
  | reserved
  | settled
  | refunded
deriving DecidableEq

/-- `model.WalletPreConsumeRecord`; the primary key is the key of its table. -/
structure WalletPreConsumeRecord where
  requestId : String
  userId : ℤ
  tokenId : ℤ
  preConsumed : ℤ
  status : WalletPreConsumeStatus
  createdAt : ℤ
  updatedAt : ℤ
deriving DecidableEq

/-- `model.Channel`, the column the batch updater writes. -/
structure Channel where
  usedQuota : ℤ := 0
deriving DecidableEq

/-- The `BatchUpdateType*` constants, in their order. -/
inductive BatchUpdateType
  | userQuota
  | tokenQuota
  | usedQuota
  | channelUsedQuota
  | requestCount
deriving DecidableEq

/-- The integer value of a kind. -/
def BatchUpdateType.code : BatchUpdateType → ℤ
  | .userQuota => 0
  | .tokenQuota => 1
  | .usedQuota => 2
  | .channelUsedQuota => 3
  | .requestCount => 4

/-- `model.BatchUpdateDeleteLedger`; the primary key is the pair of kind and entity id. -/
structure BatchUpdateDeleteLedger where
  deletedAt : ℤ
  discardedDelta : ℤ := 0
  discardedCount : ℤ := 0
deriving DecidableEq

/-- `model.FlushOperationLedger`; the primary key is the operation id. -/
structure FlushOperationLedger where
  scope : String
  payloadHash : String
  resultCode : String := ""
  appliedAt : ℤ
deriving DecidableEq

/-- The values of `user_subscriptions.status`. -/
inductive SubscriptionStatus
  | active
  | exhausted
  | expired
  | cancelled
deriving DecidableEq

/-- `model.SubscriptionPlan`, the columns the quota and group paths use.  `allowedUserGroups` is the
list that `GetAllowedUserGroups` parses from the column. -/
structure SubscriptionPlan where
  priceAmount : ℚ := 0
  durationUnit : String := "month"
  durationValue : ℤ := 1
  customSeconds : ℤ := 0
  enabled : Bool := true
  maxPurchasePerUser : ℤ := 0
  stockTotal : ℤ := -1
  stockSold : ℤ := 0
  upgradeGroup : String := ""
  boundGroup : String := ""
  fallbackGroup : String := ""
  allowedUserGroups : List String := []
  totalAmount : ℤ := 0
  quotaResetPeriod : String := "never"
  quotaResetCustomSeconds : ℤ := 0
deriving DecidableEq

structure UserSubscription where
  userId : ℤ
  planId : ℤ
  amountTotal : ℤ := 0
  amountUsed : ℤ := 0
  startTime : ℤ := 0
  endTime : ℤ
  status : SubscriptionStatus := .active
  lastResetTime : ℤ := 0
  nextResetTime : ℤ := 0
  exhaustNotifiedAt : ℤ := 0
  upgradeGroup : String := ""
  prevUserGroup : String := ""
  fallbackGroup : String := ""
  isHidden : Bool := false
  updatedAt : ℤ := 0
deriving DecidableEq

/-- The values of `subscription_pre_consume_records.status`. -/
inductive SubscriptionPreConsumeStatus
  | consumed
  | refunded
deriving DecidableEq

/-- `model.SubscriptionPreConsumeRecord`; `request_id` is unique and is the key of its table. -/
structure SubscriptionPreConsumeRecord where
  userId : ℤ
  tokenId : ℤ
  userSubscriptionId : ℤ
  preConsumed : ℤ
  status : SubscriptionPreConsumeStatus := .consumed
  updatedAt : ℤ := 0
deriving DecidableEq

/-- `model.TaskStatus`: the `TaskStatus*` constants, and any other text that an upstream reports. -/
inductive TaskStatus
  | notStart
  | submitted
  | queued
  | inProgress
  | failure
  | success
  | unknown
  | other (status : String)
deriving DecidableEq

/-- `model.Task`, the columns of the polling and the refund; the last five are in `private_data`. -/
structure Task where
  userId : ℤ
  quota : ℤ
  status : TaskStatus
  taskID : String := ""
  failReason : String := ""
  submitTime : ℤ := 0
  startTime : ℤ := 0
  finishTime : ℤ := 0
  progress : String := ""
  data : String := ""
  upstreamTaskID : String := ""
  resultURL : String := ""
  billingSource : String := ""
  subscriptionId : ℤ := 0
  tokenId : ℤ := 0
deriving DecidableEq

/-- `model.AsyncTaskRefundRecord` of a task; the unique index on kind and task id is the key of its
table. -/
structure AsyncTaskRefundRecord where
  userId : ℤ
  tokenId : ℤ
  userSubscriptionId : ℤ
  billingSource : String
  quota : ℤ
deriving DecidableEq

inductive TopUpStatus
  | pending
  | success
  | failed
  | expired
deriving DecidableEq

/-- `model.TopUp`; `trade_no` is unique and is the key of its table. -/
structure TopUp where
  userId : ℤ
  amount : ℤ
  money : ℚ
  paymentMethod : String
  paymentProvider : String := ""
  createTime : ℤ
  completeTime : ℤ := 0
  status : TopUpStatus
deriving DecidableEq

/-- `model.SubscriptionOrder`; `trade_no` is unique and is the key of its table. -/
structure SubscriptionOrder where
  userId : ℤ
  planId : ℤ
  money : ℚ
  paymentMethod : String
  paymentProvider : String := ""
  status : TopUpStatus
  createTime : ℤ
  completeTime : ℤ := 0
  providerPayload : String := ""
deriving DecidableEq

/-- `model.QuotaData`, one bar of the dashboard. -/
structure QuotaData where
  userID : ℤ
  username : String
  modelName : String
  group : String
  billingSource : String
  createdAt : ℤ
  tokenUsed : ℤ := 0
  count : ℤ := 0
  quota : ℤ := 0
deriving DecidableEq

/-- The main database.  `changedRowsOnly` tells whether the driver reports changed rows rather
than matched rows in `RowsAffected`, as MySQL does by default. -/
structure Db where
  changedRowsOnly : Bool := false
  users : Table ℤ User := ∅
  tokens : Table ℤ Token := ∅
  channels : Table ℤ Channel := ∅
  walletPreConsumeRecords : Table ℤ WalletPreConsumeRecord := ∅
  batchUpdateDeleteLedgers : Table (BatchUpdateType × ℤ) BatchUpdateDeleteLedger := ∅
  flushOperationLedgers : Table String FlushOperationLedger := ∅
  subscriptionPlans : Table ℤ SubscriptionPlan := ∅
  userSubscriptions : Table ℤ UserSubscription := ∅
  subscriptionPreConsumeRecords : Table String SubscriptionPreConsumeRecord := ∅
  tasks : Table ℤ Task := ∅
  asyncTaskRefundRecords : Table ℤ AsyncTaskRefundRecord := ∅
  topUps : Table String TopUp := ∅
  subscriptionOrders : Table String SubscriptionOrder := ∅
  quotaData : Table ℤ QuotaData := ∅
deriving DecidableEq

/-- The table after an update of one row; `none` when `RowsAffected` is zero. -/
def Db.affected {κ ρ : Type} [DecidableEq κ] [DecidableEq ρ] (db : Db) (before : Table κ ρ)
    (after : Option (Table κ ρ)) : Option (Table κ ρ) :=
  after.filter fun t => !(db.changedRowsOnly && decide (t = before))

section Affected

variable {κ ρ : Type} [DecidableEq κ] [DecidableEq ρ] {db : Db} {t t' : Table κ ρ} {k : κ}
  {p : ρ → Bool} {f : ρ → ρ}

theorem Db.exists_of_affected (h : db.affected t (t.updateRow k p f) = some t') :
    ∃ r, t.get? k = some r ∧ p r = true ∧ t' = t.modify k f :=
  (updateRow_eq_some_iff t t' k p f).1 (filter_eq_some_iff.1 h).1

theorem Db.affected_updateRow_eq_some_iff (hf : ∀ r, p r = true → f r ≠ r) :
    db.affected t (t.updateRow k p f) = some t' ↔
      ∃ r, t.get? k = some r ∧ p r = true ∧ t' = t.modify k f := by
  refine ⟨Db.exists_of_affected, ?_⟩
  rintro ⟨r, hr, hp, rfl⟩
  refine filter_eq_some_iff.2
    ⟨(updateRow_eq_some_iff t _ k p f).2 ⟨r, hr, hp, rfl⟩, ?_⟩
  have hne : t.modify k f ≠ t := by
    intro he
    have hget := congrArg (fun x => x.get? k) he
    simp only [get?_modify_self, hr, map_some, some.injEq] at hget
    exact hf r hp hget
  simp [hne]

end Affected

end BeeApi
