import BeeApi.Subscription.Reset

/-!
# Subscriptions and the group of their user

A subscription of a plan with an upgrade group moves its user into that group when it is created or
reactivated, and back when it ends.  A subscription that runs out of quota moves its user into its
fallback group.  `UpdateUserGroupCache` and the texts that the administrator is shown are left out.
-/

namespace BeeApi.Subscription

open Strings Calendar

def getUserGroupByIdTx (db : Db) (userId : ℤ) : Except String String :=
  if userId ≤ 0 then .error "invalid userId"
  else
    match db.users.get? userId with
    | some u => .ok (if u.deletedAt.isNone then u.group else "")
    | none => .ok ""

/-- `Update("group", group)` of one user; a missing row is no error. -/
def setUserGroup (db : Db) (userId : ℤ) (group : String) : Db :=
  { db with
    users := (db.users.updateRow userId (fun u => u.deletedAt.isNone) fun u => { u with group }).getD
      db.users }

def isActiveUpgrade (userId now : ℤ) (s : UserSubscription) : Bool :=
  s.userId = userId && s.status = .active && now < s.endTime && s.upgradeGroup ≠ ""

/-- `downgradeUserGroupForSubscriptionTx`: the database afterwards and the group the user is moved
into, empty when it stays where it is. -/
def downgradeUserGroupForSubscriptionTx (db : Db) (id : ℤ) (sub : UserSubscription) (now : ℤ) :
    Except String (Db × String) :=
  let upgradeGroup := trimSpace sub.upgradeGroup
  if upgradeGroup = "" then .ok (db, "")
  else
    getUserGroupByIdTx db sub.userId >>= fun currentGroup =>
      if currentGroup ≠ upgradeGroup then .ok (db, "")
      else if db.userSubscriptions.rows.any fun e =>
          e.1 ≠ id && isActiveUpgrade sub.userId now e.2 then .ok (db, "")
      else
        let prevGroup := trimSpace sub.prevUserGroup
        if prevGroup = "" ∨ prevGroup = currentGroup then .ok (db, "")
        else .ok (setUserGroup db sub.userId prevGroup, prevGroup)

/-- `calcPlanEndTime`; `zone` is the offset of the local time of the process. -/
def calcPlanEndTime (zone start : ℤ) (plan : SubscriptionPlan) : Except String ℤ :=
  let addDate := fun years months : ℤ =>
    let day := (start + zone) / secondsPerDay
    Calendar.addDate day years months * secondsPerDay + (start + zone) % secondsPerDay - zone
  if plan.durationValue ≤ 0 ∧ plan.durationUnit ≠ "custom" then
    .error "duration_value must be > 0"
  else if plan.durationUnit = "year" then .ok (addDate plan.durationValue 0)
  else if plan.durationUnit = "month" then .ok (addDate 0 plan.durationValue)
  else if plan.durationUnit = "day" then .ok (addSeconds start (plan.durationValue * 86400))
  else if plan.durationUnit = "hour" then .ok (addSeconds start (plan.durationValue * 3600))
  else if plan.durationUnit = "custom" then
    if plan.customSeconds ≤ 0 then .error "custom_seconds must be > 0"
    else .ok (addSeconds start plan.customSeconds)
  else .error ("invalid duration_unit: " ++ plan.durationUnit)

def isPurchaseAllowedForGroup (plan : SubscriptionPlan) (userGroup : String) : Bool :=
  plan.allowedUserGroups = [] || plan.allowedUserGroups.contains (trimSpace userGroup)

/-- The purchases of a plan that count against its limit for each user. -/
def purchases (db : Db) (userId planId : ℤ) : ℤ :=
  (db.userSubscriptions.rows.filter fun e =>
    e.2.userId = userId && e.2.planId = planId && !e.2.isHidden).length

/-- The group part of a purchase: the group to return to, and the database with the user in the
upgrade group. -/
def upgradeUserGroup (db : Db) (userId : ℤ) (upgradeGroup : String) : Except String (Db × String) :=
  if upgradeGroup = "" then .ok (db, "")
  else
    getUserGroupByIdTx db userId >>= fun currentGroup =>
      if currentGroup ≠ upgradeGroup then .ok (setUserGroup db userId upgradeGroup, currentGroup)
      else .ok (db, "")

/-- `CreateUserSubscriptionFromPlanTx`: the database afterwards and the key of the new row. -/
def createUserSubscriptionFromPlanTx (zone : ℤ) (db : Db) (now userId planId : ℤ)
    (plan : SubscriptionPlan) : Except String (Db × ℤ) :=
  if planId = 0 then .error "invalid plan"
  else if userId ≤ 0 then .error "invalid user id"
  else if 0 < plan.maxPurchasePerUser ∧ plan.maxPurchasePerUser ≤ purchases db userId planId then
    .error "已达到该套餐购买上限"
  else
    (if plan.allowedUserGroups = [] then .ok ()
    else getUserGroupByIdTx db userId >>= fun currentGroup =>
      if isPurchaseAllowedForGroup plan currentGroup then .ok ()
      else .error "该套餐仅限指定用户分组购买") >>= fun _ =>
    calcPlanEndTime zone now plan >>= fun endUnix =>
    upgradeUserGroup db userId (trimSpace plan.upgradeGroup) >>= fun (db, prevGroup) =>
      let nextReset := calcNextResetTime now plan endUnix
      let sub : UserSubscription :=
        { userId
          planId
          amountTotal := plan.totalAmount
          startTime := now
          endTime := endUnix
          lastResetTime := if 0 < nextReset then now else 0
          nextResetTime := nextReset
          upgradeGroup := trimSpace plan.upgradeGroup
          prevUserGroup := prevGroup
          fallbackGroup := trimSpace plan.fallbackGroup
          updatedAt := now }
      let id := db.userSubscriptions.nextKey
      .ok ({ db with userSubscriptions := db.userSubscriptions.put id sub }, id)

def isDue (now : ℤ) (s : UserSubscription) : Bool :=
  (s.status = .active || s.status = .exhausted) && 0 < s.endTime && s.endTime ≤ now

def lastByEndTime (rows : List (ℤ × UserSubscription)) : Option (ℤ × UserSubscription) :=
  (rows.insertionSort fun a b =>
    b.2.endTime < a.2.endTime ∨ b.2.endTime = a.2.endTime ∧ b.1 ≤ a.1).head?

/-- The transaction of `ExpireDueSubscriptions` for one user. -/
def expireUserSubscriptions (db : Db) (now userId : ℤ) : Except String Db :=
  let db :=
    { db with
      userSubscriptions := db.userSubscriptions.updateWhere
        (fun _ s => s.userId = userId && isDue now s)
        fun s => { s with status := .expired, updatedAt := now } }
  if db.userSubscriptions.rows.any fun e => isActiveUpgrade userId now e.2 then .ok db
  else
    match lastByEndTime (db.userSubscriptions.rows.filter fun e =>
        e.2.userId = userId && e.2.status = .expired && e.2.upgradeGroup ≠ "") with
    | none => .ok db
    | some (_, lastExpired) =>
      let upgradeGroup := trimSpace lastExpired.upgradeGroup
      let prevGroup := trimSpace lastExpired.prevUserGroup
      if upgradeGroup = "" ∨ prevGroup = "" then .ok db
      else
        getUserGroupByIdTx db userId >>= fun currentGroup =>
          if currentGroup ≠ upgradeGroup ∨ currentGroup = prevGroup then .ok db
          else .ok (setUserGroup db userId prevGroup)

/-- The users of the first `limit` due subscriptions. -/
def dueUsers (db : Db) (now : ℤ) (limit : ℤ) : List ℤ :=
  (((subscriptionsWhere db (isDue now)).take (if limit ≤ 0 then 200 else limit.toNat)).map
    (fun e => e.2.userId)).dedup.filter fun userId => 0 < userId

/-- `ExpireDueSubscriptions`: one transaction for each user.  None of them fails, since the ids of the
users are positive. -/
def expireDueSubscriptions (db : Db) (now limit : ℤ) : Db :=
  (dueUsers db now limit).foldl
    (fun db userId => ((expireUserSubscriptions db now userId).toOption).getD db) db

def adminInvalidateUserSubscription (db : Db) (now id : ℤ) : Except String (Db × String) :=
  if id ≤ 0 then .error "invalid userSubscriptionId"
  else
    match db.userSubscriptions.get? id with
    | none => .error "record not found"
    | some sub =>
      casUserSubscriptionTx db id sub (fun s =>
          { s with status := .cancelled, endTime := now, updatedAt := now }) >>= fun db =>
        downgradeUserGroupForSubscriptionTx db id sub now

def casDeleteUserSubscriptionTx (db : Db) (id : ℤ) (snapshot : UserSubscription) :
    Except String Db :=
  if id ≤ 0 then .error errFinancialStateConflict
  else
    match db.userSubscriptions.get? id with
    | some row =>
      if casMatches snapshot row then
        .ok { db with userSubscriptions := db.userSubscriptions.erase id }
      else .error errFinancialStateConflict
    | none => .error errFinancialStateConflict

def adminDeleteUserSubscription (db : Db) (now id : ℤ) : Except String (Db × String) :=
  if id ≤ 0 then .error "invalid userSubscriptionId"
  else
    match db.userSubscriptions.get? id with
    | none => .error "record not found"
    | some sub =>
      downgradeUserGroupForSubscriptionTx db id sub now >>= fun (db, target) =>
        casDeleteUserSubscriptionTx db id sub >>= fun db => .ok (db, target)

/-- The group part of a reactivation: the database with the user in the upgrade group, and the group
that `prev_user_group` is set to when it is written. -/
def reactivateUserGroup (db : Db) (sub : UserSubscription) : Except String (Db × Option String) :=
  let upgradeGroup := trimSpace sub.upgradeGroup
  if sub.status = .active ∨ upgradeGroup = "" then .ok (db, none)
  else
    getUserGroupByIdTx db sub.userId >>= fun currentGroup =>
      if currentGroup ≠ upgradeGroup then
        .ok (setUserGroup db sub.userId upgradeGroup, some currentGroup)
      else .ok (db, none)

/-- The columns of a subscription that is extended or reactivated; a plan that cannot be read leaves
the reset time alone. -/
def extendedColumns (plan : Except String SubscriptionPlan) (now newEndTime : ℤ)
    (prevUserGroup : Option String) (s : UserSubscription) : UserSubscription :=
  { s with
    endTime := newEndTime
    status := .active
    nextResetTime :=
      match plan with
      | .ok plan => calcNextResetTime now plan newEndTime
      | .error _ => s.nextResetTime
    prevUserGroup := prevUserGroup.getD s.prevUserGroup
    updatedAt := now }

def adminUpdateUserSubscriptionExpiry (db : Db) (now id newEndTime : ℤ) : Except String Db :=
  if id ≤ 0 then .error "invalid userSubscriptionId"
  else if newEndTime ≤ 0 then .error "invalid end_time"
  else
    match db.userSubscriptions.get? id with
    | none => .error "record not found"
    | some sub =>
      if 0 < sub.startTime ∧ newEndTime ≤ sub.startTime then .error "end_time 不能早于 start_time"
      else if newEndTime ≤ now then
        let updates := fun s : UserSubscription =>
          { s with
            endTime := newEndTime, status := .expired, nextResetTime := 0, updatedAt := now }
        casUserSubscriptionTx db id sub updates >>= fun db =>
          downgradeUserGroupForSubscriptionTx db id
              { sub with endTime := newEndTime, status := .expired } now >>= fun (db, _) =>
            .ok db
      else
        reactivateUserGroup db sub >>= fun (db, prevUserGroup) =>
          casUserSubscriptionTx db id sub
            (extendedColumns (getSubscriptionPlanByIdTx db sub.planId) now newEndTime prevUserGroup)

/-- What `ProcessExhaustedSubscriptions` reports for a subscription. -/
structure SubscriptionExhaustedEvent where
  userId : ℤ
  downgradedToGroup : String
  groupExhausted : Bool

/-- Whether no other subscription of the user is left for the bound group. -/
def groupExhausted (db : Db) (now id : ℤ) (locked : UserSubscription) (plan : SubscriptionPlan) :
    Bool :=
  !db.userSubscriptions.rows.any fun e =>
    e.2.userId = locked.userId && e.2.status = .active && e.2.exhaustNotifiedAt = 0 &&
      now < e.2.endTime && !e.2.isHidden && e.1 ≠ id &&
      (db.subscriptionPlans.get? e.2.planId).any fun p => p.boundGroup = plan.boundGroup

/-- The downgrade into the fallback group, unless another subscription of the same upgrade group is
there to take it over: the database afterwards and the group. -/
def downgradeToFallback (db : Db) (now id : ℤ) (locked : UserSubscription)
    (fallbackGroup : String) : Except String (Db × String) :=
  let upgradeGroup := trimSpace locked.upgradeGroup
  if upgradeGroup = "" then .ok (db, "")
  else
    getUserGroupByIdTx db locked.userId >>= fun currentGroup =>
      if currentGroup = upgradeGroup ∧ currentGroup ≠ fallbackGroup then
        if db.userSubscriptions.rows.any fun e =>
            e.2.userId = locked.userId && e.2.status = .active && now < e.2.endTime && e.1 ≠ id &&
              e.2.upgradeGroup = upgradeGroup && e.2.exhaustNotifiedAt = 0 then .ok (db, "")
        else .ok (setUserGroup db locked.userId fallbackGroup, fallbackGroup)
      else .ok (db, "")

def processExhaustedSubscription (db : Db) (now id : ℤ) :
    Except String (Db × Option SubscriptionExhaustedEvent) :=
  match db.userSubscriptions.get? id with
  | none => .error "record not found"
  | some locked =>
    if locked.status ≠ .active ∨ locked.exhaustNotifiedAt ≠ 0 ∨ locked.amountTotal ≤ 0 ∨
        locked.amountUsed < locked.amountTotal then .ok (db, none)
    else if !(db.users.get? locked.userId).any fun u => u.deletedAt.isNone then
      casUserSubscriptionTx db id locked (fun s =>
        { s with exhaustNotifiedAt := now, updatedAt := now }) >>= fun db => .ok (db, none)
    else
      getSubscriptionPlanByIdTx db locked.planId >>= fun plan =>
        let fallbackGroup := trimSpace locked.fallbackGroup
        let groupExhausted := groupExhausted db now id locked plan
        (if fallbackGroup ≠ "" then downgradeToFallback db now id locked fallbackGroup
        else .ok (db, "")) >>= fun (db, downgradedToGroup) =>
          casUserSubscriptionTx db id locked (fun s =>
            { s with
              exhaustNotifiedAt := now
              updatedAt := now
              status := if fallbackGroup ≠ "" then .exhausted else s.status }) >>= fun db =>
            .ok (db, some { userId := locked.userId, downgradedToGroup, groupExhausted })

end BeeApi.Subscription
