import BeeApi.Lib.Transaction
import BeeApi.Subscription.Effect

/-!
# Midjourney tasks

A submission inserts the row of its task with a quota of zero, answers the client, and charges the task
when it returns.  `UpdateMidjourneyTaskOnce` reads the rows whose progress is not complete and writes them
back whole, under a compare-and-swap on the status alone.  The request to the upstream and the decoding of
its response come before the functions below.
-/

namespace BeeApi.Polling

open Subscription Transaction

/-- `model.Midjourney`, the columns that the submission and the pollers use. -/
structure Midjourney where
  userId : ℤ
  mjId : String
  code : ℤ := 0
  tokenId : ℤ := 0
  subscriptionId : ℤ := 0
  billingSource : String := ""
  promptEn : String := ""
  state : String := ""
  submitTime : ℤ := 0
  startTime : ℤ := 0
  finishTime : ℤ := 0
  imageUrl : String := ""
  videoUrl : String := ""
  videoUrls : String := ""
  status : String := ""
  progress : String := "0%"
  failReason : String := ""
  channelId : ℤ := 0
  quota : ℤ := 0
  buttons : String := ""
  properties : String := ""
deriving DecidableEq

/-- The main database with the rows of the Midjourney tasks and their refunds.  The unique index on
kind and task id is the key of the second table. -/
structure MjDb where
  main : Db
  midjourneys : Table ℤ Midjourney := ∅
  refunds : Table ℤ AsyncTaskRefundRecord := ∅
deriving DecidableEq

/-- `relaycommon.RelayInfo`, what names the payer of a request. -/
structure RelayInfo where
  userId : ℤ
  tokenId : ℤ
  isPlayground : Bool := false
  billingSource : String := "wallet"
  subscriptionId : ℤ := 0

/-- `dto.MidjourneyResponse`; the properties are the `imageUrl` and the `status` among them, when both
are texts. -/
structure MidjourneyResponse where
  code : ℤ
  description : String := ""
  result : String := ""
  properties : Option (String × String) := none

/-- What `RelayMidjourneySubmit` holds when the upstream has answered. -/
structure Submission where
  info : RelayInfo
  action : String := "IMAGINE"
  channelId : ℤ := 0
  quota : ℤ
  statusCode : ℤ := 200
  response : MidjourneyResponse

/-- `consumeQuota` and the other conditions of the deferred charge. -/
def Submission.consumesQuota (s : Submission) : Bool :=
  s.action ≠ "INPAINT" && s.action ≠ "CUSTOM_ZOOM" &&
    (s.response.code = 1 || s.response.code = 21 || s.response.code = 22) && s.statusCode = 200

/-- The row that `RelayMidjourneySubmit` inserts. -/
def Submission.midjourneyTask (s : Submission) (nowMs : ℤ) : Midjourney :=
  let task : Midjourney :=
    { userId := s.info.userId
      tokenId := s.info.tokenId
      code := s.response.code
      mjId := s.response.result
      submitTime := nowMs
      channelId := s.channelId
      failReason :=
        if s.response.code = 1 ∨ s.response.code = 21 ∨ s.response.code = 22 then ""
        else s.response.description }
  let finished := s.response.code = 21 ∧ s.response.properties.any fun p => p.2 = "SUCCESS"
  let task : Midjourney :=
    if s.response.code = 21 then
      match s.response.properties with
      | some (imageUrl, status) =>
        if status = "SUCCESS" then
          { task with imageUrl, status, progress := "100%", startTime := nowMs, finishTime := nowMs }
        else { task with imageUrl, status }
      | none => task
    else task
  if (s.response.code = 1 ∨ finished) ∧ s.action = "UPLOAD" then
    { task with progress := "100%", status := "SUCCESS" }
  else task

/-- `ConsumeQuota` of the task with the primary key `id`. -/
def consumeQuota (db : MjDb) (now id userId tokenId userSubscriptionId quota : ℤ) :
    Except String MjDb :=
  if id ≤ 0 ∨ userId ≤ 0 ∨ quota ≤ 0 then
    .error "midjourney task, user and charged quota must be positive"
  else
    let billingSource := if 0 < userSubscriptionId then "subscription" else "wallet"
    match db.main.affected db.midjourneys
        (db.midjourneys.updateRow id (fun row => row.userId = userId && row.quota = 0) fun row =>
          { row with quota, tokenId, subscriptionId := userSubscriptionId, billingSource }) with
    | none => .error "midjourney charged quota was not recorded"
    | some midjourneys =>
      (if 0 < userSubscriptionId then
        moveUsage db.main now userSubscriptionId userId quota
          "midjourney subscription quota adjustment rejected"
      else
        match db.main.affected db.main.users
            (db.main.users.updateRow userId (fun u => u.deletedAt.isNone && quota ≤ u.quota)
              fun u => { u with quota := u.quota - quota }) with
        | some users => .ok { db.main with users }
        | none => .error errInsufficientUserQuota) >>= fun main =>
          adjustRequestToken main now tokenId userId quota >>= fun main =>
            .ok { db with main, midjourneys }

/-- The token that `ConsumeMidjourneyQuota` charges. -/
def RelayInfo.payingToken (info : RelayInfo) : ℤ := if info.isPlayground then 0 else info.tokenId

/-- The subscription that `ConsumeMidjourneyQuota` charges. -/
def RelayInfo.payingSubscription (info : RelayInfo) : ℤ :=
  if info.billingSource = "subscription" then info.subscriptionId else 0

def consumeMidjourneyQuota (db : MjDb) (now id : ℤ) (info : RelayInfo) (quota : ℤ) :
    Except String MjDb :=
  if info.billingSource = "subscription" ∧ info.subscriptionId ≤ 0 then
    .error "subscription id is missing"
  else consumeQuota db now id info.userId info.payingToken info.payingSubscription quota

namespace Midjourney

/-- `UpdateWithStatus` of the copy `t` with the primary key `id`. -/
def updateWithStatus (db : MjDb) (id : ℤ) (t : Midjourney) (fromStatus : String) : MjDb × Bool :=
  match db.main.affected db.midjourneys
      (db.midjourneys.updateRow id (fun row => row.status = fromStatus) fun _ => t) with
  | some midjourneys => ({ db with midjourneys }, true)
  | none => (db, false)

def refundRecord (t : Midjourney) : AsyncTaskRefundRecord :=
  { userId := t.userId
    tokenId := t.tokenId
    userSubscriptionId := t.subscriptionId
    billingSource := normalizeAsyncTaskBillingSource t.billingSource t.subscriptionId
    quota := t.quota }

def updateWithStatusAndRefund (db : MjDb) (now id : ℤ) (t : Midjourney) (fromStatus : String) :
    Except String (MjDb × Bool) :=
  if t.userId ≤ 0 then .error "midjourney user id must be positive"
  else if t.quota ≤ 0 then .ok (updateWithStatus db id t fromStatus)
  else
    match db.main.affected db.midjourneys
        (db.midjourneys.updateRow id (fun row => row.status = fromStatus) fun _ => t) with
    | none => .ok (db, false)
    | some midjourneys =>
      if id ≤ 0 then .error "invalid async task refund record"
      else
        match db.refunds.insert? id t.refundRecord with
        | none => .error "duplicate key"
        | some refunds =>
          applyAsyncTaskRefundFundingTx db.main now t.refundRecord >>= fun main =>
            .ok ({ main, midjourneys, refunds }, true)

end Midjourney

def progressDone : String := "100%"

/-- `MjBulkUpdateByTaskIds` as the poller calls it for tasks without an upstream id. -/
def mjBulkUpdateByTaskIds (db : MjDb) (taskIDs : List ℤ) : MjDb :=
  { db with
    midjourneys := db.midjourneys.updateWhere (fun id _ => id ∈ taskIDs) fun row =>
      { row with status := "FAILURE", progress := progressDone } }

/-- `MjBulkUpdate` as the poller calls it for the tasks of a channel that it does not find. -/
def mjBulkUpdate (db : MjDb) (mjIds : List String) (channelId : ℤ) : MjDb :=
  { db with
    midjourneys := db.midjourneys.updateWhere (fun _ row => row.mjId ∈ mjIds) fun row =>
      { row with
        failReason := "获取渠道信息失败，请联系管理员，渠道ID：" ++ toString channelId
        status := "FAILURE"
        progress := progressDone } }

/-- `dto.MidjourneyDto`, the fields that the poller reads; `videoUrls` is `none` for an empty list. -/
structure MidjourneyDto where
  mjId : String
  promptEn : String := ""
  state : String := ""
  submitTime : ℤ := 0
  startTime : ℤ := 0
  finishTime : ℤ := 0
  imageUrl : String := ""
  videoUrl : String := ""
  videoUrls : Option String := none
  status : String := ""
  progress : String := ""
  failReason : String := ""
  buttons : Option String := none
  properties : Option String := none

/-- A task that is not complete after an hour has failed, whatever the upstream says. -/
def withTimeout (nowMs : ℤ) (task : Midjourney) (responseItem : MidjourneyDto) : MidjourneyDto :=
  if 3600000 < nowMs - task.submitTime ∧ task.progress ≠ "100%" then
    { responseItem with failReason := "上游任务超时（超过1小时）", status := "FAILURE" }
  else responseItem

def checkMjTaskNeedUpdate (oldTask : Midjourney) (newTask : MidjourneyDto) : Bool :=
  oldTask.code ≠ 1 || oldTask.progress ≠ newTask.progress ||
    oldTask.promptEn ≠ newTask.promptEn || oldTask.state ≠ newTask.state ||
    oldTask.submitTime ≠ newTask.submitTime || oldTask.startTime ≠ newTask.startTime ||
    oldTask.finishTime ≠ newTask.finishTime || oldTask.imageUrl ≠ newTask.imageUrl ||
    oldTask.status ≠ newTask.status || oldTask.failReason ≠ newTask.failReason ||
    (oldTask.progress ≠ "100%" && newTask.failReason ≠ "") ||
    oldTask.videoUrl ≠ newTask.videoUrl || oldTask.videoUrls ≠ newTask.videoUrls.getD ""

def reportedColumns (responseItem : MidjourneyDto) (task : Midjourney) : Midjourney :=
  { task with
    code := 1
    progress := responseItem.progress
    promptEn := responseItem.promptEn
    state := responseItem.state
    submitTime := responseItem.submitTime
    startTime := responseItem.startTime
    finishTime := responseItem.finishTime
    imageUrl := responseItem.imageUrl
    status := responseItem.status
    failReason := responseItem.failReason
    properties := responseItem.properties.getD task.properties
    buttons := responseItem.buttons.getD task.buttons
    videoUrl := responseItem.videoUrl
    videoUrls := responseItem.videoUrls.getD "" }

def hasFailed (task : Midjourney) : Bool :=
  (task.progress ≠ "100%" && task.failReason ≠ "") ||
    (task.progress = "100%" && task.status = "FAILURE")

/-- One item of the response in `UpdateMidjourneyTaskOnce`: the database and the copy afterwards. -/
def updateMidjourneyTask (o : Outcome) (db : MjDb) (nowMs now id : ℤ) (task : Midjourney)
    (responseItem : MidjourneyDto) : MjDb × Midjourney :=
  let responseItem := withTimeout nowMs task responseItem
  if !checkMjTaskNeedUpdate task responseItem then (db, task)
  else
    let preStatus := task.status
    let task := reportedColumns responseItem task
    let failed := hasFailed task
    let task := if failed then { task with progress := progressDone } else task
    let shouldReturnQuota := failed && task.quota ≠ 0
    ((withOutcome o db
      (if shouldReturnQuota then task.updateWithStatusAndRefund db now id preStatus
      else .ok (task.updateWithStatus db id preStatus))).1, task)

end BeeApi.Polling
