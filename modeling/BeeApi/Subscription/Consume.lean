import BeeApi.Subscription.Reset
import BeeApi.Model.Token

/-!
# Consumption of a subscription

Pre-consumption, its refund and its extension, the settlement of a task, and the refund of a failed
task.  Pre-consumption is cut where it reads: the early lookup of the request id, the selection of
the candidates, and the loop that writes.  `int` and `int64` are the same type on the platforms the
server runs on, so the range checks between the two never fire and are left out.
-/

namespace BeeApi.Subscription

open Strings

/-- The guard of a relative update of `amount_used`. -/
def usageGuard (delta : ℤ) (sub : UserSubscription) : Bool :=
  if 0 < delta then
    decide (sub.amountTotal ≤ 0) || decide (sub.amountUsed + delta ≤ sub.amountTotal)
  else decide (-delta ≤ sub.amountUsed)

def usageUpdates (now delta : ℤ) (sub : UserSubscription) : UserSubscription :=
  { sub with amountUsed := sub.amountUsed + delta, updatedAt := now }

/-- `amount_used = amount_used + delta` for one subscription of a user, with the error text of the
caller for a row that does not match. -/
def moveUsage (db : Db) (now id userId delta : ℤ) (rejected : String) : Except String Db :=
  match db.affected db.userSubscriptions
      (db.userSubscriptions.updateRow id (fun s => s.userId = userId && usageGuard delta s)
        (usageUpdates now delta)) with
  | some userSubscriptions => .ok { db with userSubscriptions }
  | none => .error rejected

/-- `matchBoundGroup`; `strict` is the setting `SubscriptionStrictGroupIsolation`. -/
def matchBoundGroup (strict : Bool) (boundGroup usingGroup : String) : Bool :=
  if usingGroup = "" then false
  else if boundGroup = "" then !strict
  else boundGroup = usingGroup

/-- A subscription as a transaction has read it, with its plan. -/
structure Candidate where
  id : ℤ
  sub : UserSubscription
  plan : SubscriptionPlan

def findEligibleSubscriptionsTx (strict : Bool) (db : Db) (userId : ℤ) (usingGroup : String)
    (now : ℤ) (statuses : List SubscriptionStatus) : Except String (List Candidate) :=
  if usingGroup = "" then .ok []
  else
    let subs := subscriptionsWhere db fun s =>
      s.userId = userId && statuses.contains s.status && now < s.endTime && !s.isHidden
    subs.mapM (fun e => (getSubscriptionPlanByIdTx db e.2.planId).map fun plan =>
        (⟨e.1, e.2, plan⟩ : Candidate)) >>= fun candidates =>
      .ok (candidates.filter fun c => matchBoundGroup strict c.plan.boundGroup usingGroup)

/-- The arguments of `preConsumeUserSubscription` that it uses. -/
structure PreConsumeRequest where
  requestId : String
  userId : ℤ
  tokenId : ℤ
  amount : ℤ
  usingGroup : String

structure SubscriptionPreConsumeResult where
  userSubscriptionId : ℤ
  preConsumed : ℤ
  amountTotal : ℤ
  amountUsedBefore : ℤ
  amountUsedAfter : ℤ

def errNoEligibleSubscription : String := "no eligible subscription for current group"

def PreConsumeRequest.check (req : PreConsumeRequest) : Except String Unit :=
  if req.userId ≤ 0 then .error "invalid userId"
  else if trimSpace req.requestId = "" then .error "requestId is empty"
  else if req.amount ≤ 0 then .error "amount must be > 0"
  else .ok ()

/-- The answer to a request whose record exists: both the early lookup and the insert conflict end
here. -/
def replayPreConsume (db : Db) (req : PreConsumeRequest)
    (existing : SubscriptionPreConsumeRecord) : Except String SubscriptionPreConsumeResult :=
  if existing.status = .refunded then .error "subscription pre-consume already refunded"
  else if existing.userId ≠ req.userId ∨ existing.tokenId ≠ req.tokenId then
    .error "subscription pre-consume identity mismatch"
  else
    match db.userSubscriptions.get? existing.userSubscriptionId with
    | none => .error "record not found"
    | some sub =>
      .ok
        { userSubscriptionId := existing.userSubscriptionId
          preConsumed := existing.preConsumed
          amountTotal := sub.amountTotal
          amountUsedBefore := sub.amountUsed
          amountUsedAfter := sub.amountUsed }

/-- The token part of a charge or of a return; requests without a token have none. -/
def adjustRequestToken (db : Db) (now tokenId userId delta : ℤ) : Except String Db :=
  if 0 < tokenId then adjustTokenQuotaTx db now tokenId userId delta else .ok db

def chargeCandidate (db : Db) (req : PreConsumeRequest) (now id : ℤ) (sub : UserSubscription) :
    Except String (Db × SubscriptionPreConsumeResult) :=
  let newUsed := sub.amountUsed + req.amount
  casUserSubscriptionTx db id sub (fun s => { s with amountUsed := newUsed, updatedAt := now }) >>=
    fun db => adjustRequestToken db now req.tokenId req.userId req.amount >>= fun db =>
      .ok (db,
        { userSubscriptionId := id
          preConsumed := req.amount
          amountTotal := sub.amountTotal
          amountUsedBefore := sub.amountUsed
          amountUsedAfter := newUsed })

def PreConsumeRequest.record (req : PreConsumeRequest) (now id : ℤ) :
    SubscriptionPreConsumeRecord :=
  { userId := req.userId
    tokenId := req.tokenId
    userSubscriptionId := id
    preConsumed := req.amount
    updatedAt := now }

/-- The loop over the candidates.  Besides what the source returns it lists the subscriptions that
the transaction has reset on its way. -/
def preConsumeLoop (db : Db) (req : PreConsumeRequest) (now : ℤ) (resets : List ℤ) :
    List Candidate → Except String (Db × SubscriptionPreConsumeResult × List ℤ)
  | [] => .error ("subscription quota insufficient, need=" ++ toString req.amount)
  | c :: candidates =>
    maybeResetUserSubscriptionWithPlanTx db c.id c.sub c.plan now >>= fun (db, sub, advanced) =>
      let resets := if advanced then c.id :: resets else resets
      if 0 < sub.amountTotal ∧ sub.amountTotal - sub.amountUsed < req.amount then
        preConsumeLoop db req now resets candidates
      else
        match db.subscriptionPreConsumeRecords.insert? req.requestId (req.record now c.id) with
        | some subscriptionPreConsumeRecords =>
          chargeCandidate { db with subscriptionPreConsumeRecords } req now c.id sub >>=
            fun (db, result) => .ok (db, result, resets)
        | none =>
          match db.subscriptionPreConsumeRecords.get? req.requestId with
          | none => .error "record not found"
          | some dup => replayPreConsume db req dup >>= fun result => .ok (db, result, resets)

/-- The part of the transaction after the candidates were read. -/
def consumeCandidates (db : Db) (req : PreConsumeRequest) (now : ℤ) (subs : List Candidate) :
    Except String (Db × SubscriptionPreConsumeResult × List ℤ) :=
  if subs = [] then .error errNoEligibleSubscription else preConsumeLoop db req now [] subs

def preConsumeUserSubscription (strict : Bool) (db : Db) (now : ℤ) (req : PreConsumeRequest) :
    Except String (Db × SubscriptionPreConsumeResult × List ℤ) :=
  req.check >>= fun _ =>
    match db.subscriptionPreConsumeRecords.get? req.requestId with
    | some existing => replayPreConsume db req existing >>= fun result => .ok (db, result, [])
    | none =>
      findEligibleSubscriptionsTx strict db req.userId req.usingGroup now [.active] >>=
        consumeCandidates db req now

/-- The transaction of `RefundSubscriptionPreConsume` after `record` was read. -/
def refundPreConsumeRecord (db : Db) (now : ℤ) (requestId : String)
    (record : SubscriptionPreConsumeRecord) : Except String Db :=
  if record.status = .refunded then .ok db
  else
    match db.affected db.subscriptionPreConsumeRecords
        (db.subscriptionPreConsumeRecords.updateRow requestId (fun r => r.status = .consumed)
          fun r => { r with status := .refunded, updatedAt := now }) with
    | none =>
      match db.subscriptionPreConsumeRecords.get? requestId with
      | none => .error "record not found"
      | some current =>
        if current.status = .refunded then .ok db else .error errFinancialStateConflict
    | some subscriptionPreConsumeRecords =>
      if record.preConsumed ≤ 0 then .ok { db with subscriptionPreConsumeRecords }
      else
        moveUsage { db with subscriptionPreConsumeRecords } now record.userSubscriptionId
            record.userId (-record.preConsumed) "subscription pre-consume refund rejected" >>=
          fun db => adjustRequestToken db now record.tokenId record.userId (-record.preConsumed)

def refundSubscriptionPreConsume (db : Db) (now : ℤ) (requestId : String) : Except String Db :=
  if trimSpace requestId = "" then .error "requestId is empty"
  else
    match db.subscriptionPreConsumeRecords.get? requestId with
    | none => .error "record not found"
    | some record => refundPreConsumeRecord db now requestId record

def reserveSubscriptionPreConsumeTokenQuota (db : Db) (now : ℤ) (requestId : String)
    (userId userSubscriptionId tokenId delta : ℤ) : Except String Db :=
  if trimSpace requestId = "" then .error "requestId is empty"
  else if userId ≤ 0 ∨ userSubscriptionId ≤ 0 ∨ tokenId ≤ 0 then
    .error "user, subscription and token ids must be positive"
  else if delta ≤ 0 then .error "reservation delta must be positive"
  else
    match db.affected db.subscriptionPreConsumeRecords
        (db.subscriptionPreConsumeRecords.updateRow requestId
          (fun r => r.userId = userId && r.userSubscriptionId = userSubscriptionId &&
            r.tokenId = tokenId && r.status = .consumed)
          fun r => { r with preConsumed := r.preConsumed + delta, updatedAt := now }) with
    | none => .error "subscription pre-consume reservation not found"
    | some subscriptionPreConsumeRecords =>
      moveUsage { db with subscriptionPreConsumeRecords } now userSubscriptionId userId delta
          "subscription quota adjustment rejected" >>=
        fun db => adjustTokenQuotaTx db now tokenId userId delta

/-- The transaction of `PostConsumeUserSubscriptionDelta` after `sub` was read.  Nothing bounds the
delta before the sum, which is one of `int64`. -/
def postConsumeSubscription (db : Db) (now id : ℤ) (sub : UserSubscription) (delta : ℤ) :
    Except String Db :=
  let newUsed := max (wrapInt64 (sub.amountUsed + delta)) 0
  if 0 < sub.amountTotal ∧ sub.amountTotal < newUsed then
    .error ("subscription used exceeds total, used=" ++ toString newUsed ++ " total=" ++
      toString sub.amountTotal)
  else if newUsed = sub.amountUsed then .ok db
  else
    casUserSubscriptionTx db id sub fun s => { s with amountUsed := newUsed, updatedAt := now }

def postConsumeUserSubscriptionDelta (db : Db) (now id delta : ℤ) : Except String Db :=
  if id ≤ 0 then .error "invalid userSubscriptionId"
  else if delta = 0 then .ok db
  else
    match db.userSubscriptions.get? id with
    | none => .error "record not found"
    | some sub => postConsumeSubscription db now id sub delta

def adjustSubscriptionTokenQuota (db : Db) (now userID userSubscriptionID tokenID delta : ℤ) :
    Except String Db :=
  if userID ≤ 0 ∨ userSubscriptionID ≤ 0 ∨ tokenID ≤ 0 then
    .error "user, subscription and token ids must be positive"
  else if delta = 0 then .ok db
  else
    moveUsage db now userSubscriptionID userID delta "subscription quota adjustment rejected" >>=
      fun db => adjustTokenQuotaTx db now tokenID userID delta

def normalizeAsyncTaskBillingSource (source : String) (subscriptionId : ℤ) : String :=
  if trimSpace source = "subscription" ∧ 0 < subscriptionId then "subscription"
  else if trimSpace source = "wallet" ∧ subscriptionId = 0 then "wallet"
  else "unknown"

def applyAsyncTaskRefundFundingTx (db : Db) (now : ℤ) (record : AsyncTaskRefundRecord) :
    Except String Db :=
  if record.userId ≤ 0 ∨ record.quota ≤ 0 then .error "invalid async task refund"
  else
    (if record.billingSource = "subscription" then
      if record.userSubscriptionId ≤ 0 then
        .error "async task subscription refund source is invalid"
      else
        moveUsage db now record.userSubscriptionId record.userId (-record.quota)
          "async task subscription refund rejected"
    else if record.billingSource = "wallet" then
      if record.userSubscriptionId ≠ 0 then .error "async task wallet refund source is invalid"
      else
        match db.affected db.users
            (db.users.updateRow record.userId (fun _ => true) fun u =>
              { u with quota := u.quota + record.quota }) with
        | some users => .ok { db with users }
        | none => .error ("refund async task user quota: user " ++ toString record.userId ++
            " not found")
    else .error "async task refund billing source is unknown") >>=
      fun db => adjustRequestToken db now record.tokenId record.userId (-record.quota)

/-- `UpdateFailureWithRefund` of the task `t` with the primary key `id`: the database afterwards and
whether the transition was won. -/
def updateFailureWithRefund (db : Db) (now id : ℤ) (t : Task) (fromStatus : TaskStatus) :
    Except String (Db × Bool) :=
  if id ≤ 0 ∨ t.userId ≤ 0 then .error "invalid task refund target"
  else if t.status ≠ .failure then .error "task refund requires FAILURE terminal"
  else if fromStatus = .failure ∨ fromStatus = .success then .ok (db, false)
  else if t.quota ≤ 0 then .error "task refund quota must be positive"
  else
    let refundRecord : AsyncTaskRefundRecord :=
      { userId := t.userId
        tokenId := t.tokenId
        userSubscriptionId := t.subscriptionId
        billingSource := normalizeAsyncTaskBillingSource t.billingSource t.subscriptionId
        quota := t.quota }
    match db.affected db.tasks
        (db.tasks.updateRow id (fun row => row.status = fromStatus) fun _ => t) with
    | none => .ok (db, false)
    | some tasks =>
      match db.asyncTaskRefundRecords.insert? id refundRecord with
      | none => .error "duplicate key"
      | some asyncTaskRefundRecords =>
        applyAsyncTaskRefundFundingTx { db with tasks, asyncTaskRefundRecords } now refundRecord >>=
          fun db => .ok (db, true)

end BeeApi.Subscription
