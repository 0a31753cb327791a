import BeeApi.Model.Db
import BeeApi.Lib.Calendar
import Mathlib.Data.List.Sort

/-!
# Subscription rows and their resets

The writers of `user_subscriptions` come in two kinds: full-row compare-and-swap against a snapshot
(`casUserSubscriptionTx`), and guarded relative updates (in `Subscription/Consume.lean`).  The
resets are of the first kind.  The clock of the database and the clock of the process are one here.
-/

namespace BeeApi.Subscription

open Strings Calendar

inductive ResetPeriod
  | never
  | daily
  | weekly
  | monthly
  | custom
deriving DecidableEq

def normalizeResetPeriod (period : String) : ResetPeriod :=
  if trimSpace period = "daily" then .daily
  else if trimSpace period = "weekly" then .weekly
  else if trimSpace period = "monthly" then .monthly
  else if trimSpace period = "custom" then .custom
  else .never

/-- The value of an `int64` after an overflow. -/
def wrapInt64 (x : ℤ) : ℤ := (x + 2 ^ 63) % 2 ^ 64 - 2 ^ 63

/-- `t.Add(time.Duration(seconds) * time.Second).Unix()`. -/
def addSeconds (t seconds : ℤ) : ℤ := t + wrapInt64 (seconds * 10 ^ 9) / 10 ^ 9

/-- The offset of Beijing time, to which the resets are aligned. -/
def beijingOffset : ℤ := 8 * 3600

def beijingMidnight (days : ℤ) : ℤ := days * secondsPerDay - beijingOffset

/-- `calcNextResetTime`; zero means that there is no further reset. -/
def calcNextResetTime (base : ℤ) (plan : SubscriptionPlan) (endUnix : ℤ) : ℤ :=
  let day := (base + beijingOffset) / secondsPerDay
  let next :=
    match normalizeResetPeriod plan.quotaResetPeriod with
    | .never => none
    | .daily => some (beijingMidnight (day + 1))
    | .weekly =>
      let weekday := if weekday day = 0 then 7 else weekday day
      some (beijingMidnight (day + (8 - weekday)))
    | .monthly => some (beijingMidnight (firstOfNextMonth day))
    | .custom =>
      if plan.quotaResetCustomSeconds ≤ 0 then none
      else some (addSeconds base plan.quotaResetCustomSeconds)
  match next with
  | none => 0
  | some next => if 0 < endUnix ∧ endUnix < next then 0 else next

def errFinancialStateConflict : String := "financial state changed concurrently"

/-- The columns that `casUserSubscriptionTx` compares with its snapshot. -/
def casMatches (snapshot row : UserSubscription) : Bool :=
  row.status = snapshot.status && row.amountUsed = snapshot.amountUsed &&
    row.endTime = snapshot.endTime && row.lastResetTime = snapshot.lastResetTime &&
    row.nextResetTime = snapshot.nextResetTime &&
    row.exhaustNotifiedAt = snapshot.exhaustNotifiedAt && row.isHidden = snapshot.isHidden &&
    row.updatedAt = snapshot.updatedAt

def casUserSubscriptionTx (db : Db) (id : ℤ) (snapshot : UserSubscription)
    (updates : UserSubscription → UserSubscription) : Except String Db :=
  if id ≤ 0 then .error errFinancialStateConflict
  else
    match db.affected db.userSubscriptions
        (db.userSubscriptions.updateRow id (casMatches snapshot) updates) with
    | some userSubscriptions => .ok { db with userSubscriptions }
    | none => .error errFinancialStateConflict

def getSubscriptionPlanByIdTx (db : Db) (id : ℤ) : Except String SubscriptionPlan :=
  if id ≤ 0 then .error "invalid plan id"
  else
    match db.subscriptionPlans.get? id with
    | some plan => .ok plan
    | none => .error "record not found"

/-- The rows that satisfy a condition, `ORDER BY end_time ASC, id ASC`. -/
def subscriptionsWhere (db : Db) (p : UserSubscription → Bool) : List (ℤ × UserSubscription) :=
  (db.userSubscriptions.rows.filter fun e => p e.2).insertionSort fun a b =>
    a.2.endTime < b.2.endTime ∨ a.2.endTime = b.2.endTime ∧ a.1 ≤ b.1

/-- The loop that rolls the reset time forward: whether it moved, the last and the next reset. -/
def rollForward (plan : SubscriptionPlan) (endTime now : ℤ) :
    ℕ → ℤ → ℤ → Bool → Option (Bool × ℤ × ℤ)
  | 0, _, _, _ => none
  | fuel + 1, base, next, advanced =>
    if 0 < next ∧ next ≤ now then
      rollForward plan endTime now fuel next (calcNextResetTime next plan endTime) true
    else some (advanced, base, next)

/-- The loop started from a base.  Every round moves by the same nonzero number of seconds or to a
later calendar day, so that a loop that ends does so within this many rounds. -/
def rollForwardFrom (plan : SubscriptionPlan) (endTime now base : ℤ) : Option (Bool × ℤ × ℤ) :=
  rollForward plan endTime now ((now - base).natAbs + base.natAbs + 2) base
    (calcNextResetTime base plan endTime) false

def resetColumns (now lastReset nextReset : ℤ) (sub : UserSubscription) : UserSubscription :=
  { sub with
    amountUsed := 0
    exhaustNotifiedAt := 0
    lastResetTime := lastReset
    nextResetTime := nextReset
    updatedAt := now }

/-- `maybeResetUserSubscriptionWithPlanTx`: the database and the snapshot afterwards, and whether a
reset happened.  A loop that does not end is a transaction that does not commit. -/
def maybeResetUserSubscriptionWithPlanTx (db : Db) (id : ℤ) (sub : UserSubscription)
    (plan : SubscriptionPlan) (now : ℤ) : Except String (Db × UserSubscription × Bool) :=
  if 0 < sub.nextResetTime ∧ now < sub.nextResetTime then .ok (db, sub, false)
  else if normalizeResetPeriod plan.quotaResetPeriod = .never then .ok (db, sub, false)
  else
    match rollForwardFrom plan sub.endTime now
        (if sub.lastResetTime ≤ 0 then sub.startTime else sub.lastResetTime) with
    | none => .error "reset does not return"
    | some (false, base, next) =>
      if sub.nextResetTime = 0 ∧ 0 < next then
        let updates := fun row : UserSubscription =>
          { row with nextResetTime := next, lastResetTime := base, updatedAt := now }
        casUserSubscriptionTx db id sub updates >>= fun db => .ok (db, updates sub, false)
      else .ok (db, sub, false)
    | some (true, base, next) =>
      casUserSubscriptionTx db id sub (resetColumns now base next) >>= fun db =>
        .ok (db, resetColumns now base next sub, true)

/-- The groups from which a reset restores the upgrade group: the fallback group of an exhausted
subscription, and `auto` for older rows. -/
def restoreFrom (sub : UserSubscription) : List String :=
  let fallbackGroup := trimSpace sub.fallbackGroup
  if fallbackGroup ≠ "" ∧ fallbackGroup ≠ "auto" then ["auto", fallbackGroup] else ["auto"]

def restoreUpgradeGroup (db : Db) (sub : UserSubscription) : Db :=
  let upgradeGroup := trimSpace sub.upgradeGroup
  if upgradeGroup = "" then db
  else
    { db with
      users := (db.users.updateRow sub.userId
        (fun u => u.deletedAt.isNone && decide (u.group ∈ restoreFrom sub))
        fun u => { u with group := upgradeGroup }).getD db.users }

def resetUserSubscriptionTx (db : Db) (id : ℤ) (sub : UserSubscription) (plan : SubscriptionPlan)
    (now : ℤ) (advanceResetTime : Bool) : Except String Db :=
  let nextReset := calcNextResetTime now plan sub.endTime
  let updates := fun row : UserSubscription =>
    { row with
      amountUsed := 0
      exhaustNotifiedAt := 0
      status := if sub.status = .exhausted then .active else row.status
      lastResetTime :=
        if advanceResetTime then if 0 < nextReset then now else 0 else row.lastResetTime
      nextResetTime := if advanceResetTime then nextReset else row.nextResetTime
      updatedAt := now }
  casUserSubscriptionTx db id sub updates >>= fun db =>
    .ok (if sub.status = .exhausted then restoreUpgradeGroup db sub else db)

def resetSubscriptionsTx (db : Db) (subs : List (ℤ × UserSubscription)) (plan : SubscriptionPlan)
    (now : ℤ) (advanceResetTime : Bool) : Except String Db :=
  subs.foldlM (fun db e => resetUserSubscriptionTx db e.1 e.2 plan now advanceResetTime) db

/-- The transaction of `ResetDueSubscriptions` for one subscription, after `locked` was read: the
database afterwards and whether a reset happened. -/
def resetDueSubscription (db : Db) (id : ℤ) (locked : UserSubscription) (plan : SubscriptionPlan)
    (now : ℤ) : Except String (Db × Bool) :=
  maybeResetUserSubscriptionWithPlanTx db id locked plan now >>= fun (db, _, advanced) =>
    if locked.status ≠ .exhausted ∨ advanced = false then .ok (db, advanced)
    else
      match db.affected db.userSubscriptions
          (db.userSubscriptions.updateRow id (fun s => s.status = .exhausted) fun s =>
            { s with status := .active, updatedAt := now }) with
      | none => .error errFinancialStateConflict
      | some userSubscriptions =>
        if trimSpace locked.upgradeGroup ≠ "" ∧ locked.userId ≤ 0 then .error "invalid userId"
        else .ok (restoreUpgradeGroup { db with userSubscriptions } locked, advanced)

/-- The row that `ResetDueSubscriptions` locks. -/
def isResetDue (now : ℤ) (s : UserSubscription) : Bool :=
  0 < s.nextResetTime && s.nextResetTime ≤ now

/-- `ResetDueSubscriptions` for one subscription; it skips what it cannot read. -/
def resetDueSubscriptionById (db : Db) (now id : ℤ) : Except String (Db × Bool) :=
  match db.userSubscriptions.get? id with
  | none => .ok (db, false)
  | some locked =>
    if isResetDue now locked then
      match getSubscriptionPlanByIdTx db locked.planId with
      | .error _ => .ok (db, false)
      | .ok plan => resetDueSubscription db id locked plan now
    else .ok (db, false)

/-- The rows that an administrator's reset selects. -/
def resettable (now planId : ℤ) (userId : Option ℤ) (s : UserSubscription) : Bool :=
  s.planId = planId && (userId.all fun u => s.userId = u) &&
    (s.status = .active || s.status = .exhausted) && now < s.endTime && !s.isHidden

/-- `AdminResetPlanSubscriptions`, and with a user `AdminResetUserSubscriptionsByPlan`: the database and
the subscriptions that were reset.  The order of the rows changes nothing. -/
def adminResetSubscriptions (db : Db) (now planId : ℤ) (userId : Option ℤ)
    (advanceResetTime : Bool) : Except String (Db × List ℤ) :=
  if planId ≤ 0 ∨ (userId.any fun u => u ≤ 0) then
    .error (if userId.isSome then "invalid userId or planId" else "invalid planId")
  else
    match db.subscriptionPlans.get? planId with
    | none => .error "record not found"
    | some plan =>
      let subs := subscriptionsWhere db (resettable now planId userId)
      if userId.isSome ∧ subs = [] then .error "该用户没有有效的此套餐订阅"
      else
        resetSubscriptionsTx db subs plan now advanceResetTime >>= fun db =>
          .ok (db, subs.map Prod.fst)

end BeeApi.Subscription
