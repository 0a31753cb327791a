import BeeApi.Subscription.Consume
import BeeApi.Lib.Transaction

/-!
# Polling of asynchronous tasks

The pollers, the timeout sweeper and the fixer of tasks without an upstream id read unfinished rows and
write them back with a compare-and-swap on the status.  A call writes the new status into its copy before
it tries the row, and the copy may be handed to a further call.  The channel lookup, the request to the
upstream and the decoding of its response come before the calls.
-/

namespace BeeApi.Polling

open Subscription Transaction

/-- `UpdateWithStatus` of the copy `t` with the primary key `id`. -/
def updateWithStatus (db : Db) (id : ℤ) (t : Task) (fromStatus : TaskStatus) : Db × Bool :=
  match db.affected db.tasks
      (db.tasks.updateRow id (fun row => row.status = fromStatus) fun _ => t) with
  | some tasks => ({ db with tasks }, true)
  | none => (db, false)

/-- The rows that the queries for unfinished tasks return. -/
def isUnfinished (t : Task) : Bool :=
  t.progress ≠ "100%" && t.status ≠ .failure && t.status ≠ .success

/-- What is left of a call: the database, the copy, and whether `settleTaskBillingOnComplete` ran. -/
structure PollResult where
  db : Db
  task : Task
  settled : Bool := false

def progressComplete : String := "100%"

def transitionTaskToFailure (o : Outcome) (db : Db) (now id : ℤ) (task : Task)
    (reason : String) (finishTime : ℤ) : PollResult :=
  let oldStatus := task.status
  let task : Task :=
    { task with
      status := .failure
      progress := progressComplete
      failReason := reason
      finishTime := if task.finishTime = 0 then finishTime else task.finishTime }
  if task.quota ≤ 0 then
    { db := (withOutcome o db (.ok (updateWithStatus db id task oldStatus))).1, task }
  else
    { db := (withOutcome o db (updateFailureWithRefund db now id task oldStatus)).1, task }

def legacyTaskCutoff : ℤ := 1740182400

/-- `sweepTimedOutTasks` for one task: a task of the old system is not refunded. -/
def sweepTimedOutTask (o : Outcome) (db : Db) (now id : ℤ) (task : Task)
    (reason legacyReason : String) : PollResult :=
  if 0 < task.submitTime ∧ task.submitTime < legacyTaskCutoff then
    let oldStatus := task.status
    let task : Task :=
      { task with
        status := .failure
        progress := progressComplete
        finishTime := now
        failReason := legacyReason }
    { db := (withOutcome o db (.ok (updateWithStatus db id task oldStatus))).1, task }
  else transitionTaskToFailure o db now id task reason now

/-- `relaycommon.TaskInfo`, as it stands after an empty status was turned into a failure. -/
structure TaskInfo where
  status : TaskStatus
  url : String := ""
  progress : String := ""
  reason : String := ""
deriving DecidableEq

def buildProxyURL (serverAddress taskID : String) : String :=
  serverAddress ++ "/v1/videos/" ++ taskID ++ "/content"

/-- The columns that a snapshot compares. -/
def snapshotEqual (s t : Task) : Bool :=
  s.status = t.status && s.progress = t.progress && s.startTime = t.startTime &&
    s.finishTime = t.finishTime && s.failReason = t.failReason && s.resultURL = t.resultURL &&
    s.data = t.data

/-- The copy after the `switch` on the reported status; `none` for a status it does not know. -/
def videoColumns (serverAddress : String) (now : ℤ) (taskResult : TaskInfo) (task : Task) :
    Option Task :=
  match taskResult.status with
  | .submitted => some { task with progress := "10%" }
  | .queued => some { task with progress := "20%" }
  | .inProgress =>
    some { task with
      progress := "30%", startTime := if task.startTime = 0 then now else task.startTime }
  | .success =>
    some { task with
      progress := progressComplete
      finishTime := if task.finishTime = 0 then now else task.finishTime
      resultURL :=
        if taskResult.url.startsWith "data:" ∨ taskResult.url = "" then
          buildProxyURL serverAddress task.taskID
        else taskResult.url }
  | .failure =>
    some { task with
      progress := progressComplete
      finishTime := if task.finishTime = 0 then now else task.finishTime
      failReason := taskResult.reason }
  | _ => none

/-- The progress that the response reports, if any; that of a failure is overwritten before. -/
def withReportedProgress (taskResult : TaskInfo) (task : Task) : Task :=
  let progress := if taskResult.status = .failure then progressComplete else taskResult.progress
  { task with progress := if progress ≠ "" then progress else task.progress }

/-- `updateVideoSingleTask` from the decoded response on.  `actualQuota` is what a settlement leaves
in the quota of the copy. -/
def updateVideoSingleTask (serverAddress : String) (o : Outcome) (db : Db) (now id : ℤ)
    (task : Task) (data : String) (taskResult : TaskInfo) (actualQuota : ℤ) : PollResult :=
  let snap := task
  let task : Task := { task with data, status := taskResult.status }
  match videoColumns serverAddress now taskResult task with
  | none => { db, task }
  | some task =>
    let task := withReportedProgress taskResult task
    let shouldRefund := taskResult.status = .failure ∧ snap.quota ≠ 0
    let shouldSettle := decide (taskResult.status = .success)
    let settle := fun (db : Db) (settled : Bool) =>
      { db, settled, task := if settled then { task with quota := actualQuota } else task }
    if (task.status = .success ∨ task.status = .failure) ∧ snap.status ≠ task.status then
      let (db, res) := withOutcome o db
        (if shouldRefund then updateFailureWithRefund db now id task snap.status
        else .ok (updateWithStatus db id task snap.status))
      match res with
      | .ok true => settle db shouldSettle
      | _ => { db, task }
    else if !snapshotEqual snap task then
      settle (withOutcome o db (.ok (updateWithStatus db id task snap.status))).1 shouldSettle
    else settle db shouldSettle

/-- `dto.SunoDataResponse`; `.other ""` is an empty status. -/
structure SunoDataResponse where
  status : TaskStatus
  failReason : String := ""
  submitTime : ℤ := 0
  startTime : ℤ := 0
  finishTime : ℤ := 0
  data : String := ""
deriving DecidableEq

/-- `taskNeedsUpdate`; the data are compared as multisets of bytes. -/
def taskNeedsUpdate (oldTask : Task) (newTask : SunoDataResponse) : Bool :=
  oldTask.submitTime ≠ newTask.submitTime || oldTask.startTime ≠ newTask.startTime ||
    oldTask.finishTime ≠ newTask.finishTime || oldTask.status ≠ newTask.status ||
    oldTask.failReason ≠ newTask.failReason ||
    ((oldTask.status = .failure || oldTask.status = .success) && oldTask.progress ≠ "100%") ||
    !(oldTask.data.toUTF8.toList.isPerm newTask.data.toUTF8.toList)

/-- The copy of `updateSunoTasks` before it is written. -/
def sunoColumns (responseItem : SunoDataResponse) (task : Task) : Task :=
  let status := if responseItem.status ≠ .other "" then responseItem.status else task.status
  let failed := responseItem.failReason ≠ "" ∨ status = .failure
  { task with
    status := if failed then .failure else status
    failReason := if responseItem.failReason ≠ "" then responseItem.failReason else task.failReason
    submitTime := if responseItem.submitTime ≠ 0 then responseItem.submitTime else task.submitTime
    startTime := if responseItem.startTime ≠ 0 then responseItem.startTime else task.startTime
    finishTime := if responseItem.finishTime ≠ 0 then responseItem.finishTime else task.finishTime
    progress := if failed ∨ responseItem.status = .success then "100%" else task.progress
    data := responseItem.data }

def updateSunoTask (o : Outcome) (db : Db) (now id : ℤ) (task : Task)
    (responseItem : SunoDataResponse) : PollResult :=
  if !taskNeedsUpdate task responseItem then { db, task }
  else
    let oldStatus := task.status
    let task := sunoColumns responseItem task
    if task.status = .failure ∧ 0 < task.quota ∧ oldStatus ≠ task.status then
      { db := (withOutcome o db (updateFailureWithRefund db now id task oldStatus)).1, task }
    else { db := (withOutcome o db (.ok (updateWithStatus db id task oldStatus))).1, task }

def getUpstreamTaskID (t : Task) : String :=
  if t.upstreamTaskID ≠ "" then t.upstreamTaskID else t.taskID

/-- The copies that a round of `RunTaskPollingOnce` polls, in the order of its list of upstream ids.
`taskM` keeps the last copy of an upstream id, and every entry of the list is looked up in it. -/
def polledCopies (tasks : List (ℤ × Task)) : List (ℤ × Task) :=
  tasks.filterMap fun e =>
    tasks.reverse.find? fun e' => getUpstreamTaskID e'.2 = getUpstreamTaskID e.2

end BeeApi.Polling
