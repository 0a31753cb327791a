import Mathlib.Data.List.Sort
import BeeApi.Lib.Calendar
import BeeApi.Lib.Table
import BeeApi.Lib.Transaction

/-!
# The content backup store

The jobs, the daily stats and the stat deltas of `model/content_backup_store.go`.  A job is claimed under a
lease, uploaded, and cleaned up.  A transaction locks the job row it reads, so that it is one step.
Instants are Unix seconds of the clock of the caller, and a UUID is a parameter.  The re-read that settles
a lost answer is taken right after the commit.
-/

namespace BeeApi.ContentBackup

open Transaction

/-! ## Tables -/

/-- The `ContentBackupStatus*` constants. -/
inductive Status
  | pending
  | processing
  | failed
  | uploaded
deriving DecidableEq

/-- The `ContentBackupCleanup*` constants. -/
inductive CleanupState
  | notApplicable
  | pending
  | done
deriving DecidableEq

/-- `model.ContentBackupJob`, without the columns that describe the captured request; site and job id
are unique together and are the key of the table. -/
structure ContentBackupJob where
  storageNodeID : String
  createdAt : ℤ
  frameSHA256 : String := ""
  compressedSHA256 : String := ""
  compressedBytes : ℤ := 0
  status : Status := .pending
  attempts : ℤ := 0
  retryRound : ℤ := 0
  totalAttempts : ℤ := 0
  lastErrorCode : String := ""
  lastErrorMessage : String := ""
  availableAt : ℤ := 0
  leaseOwner : String := ""
  leaseToken : String := ""
  leaseUntil : ℤ := 0
  leaseGeneration : ℤ := 0
  updatedAt : ℤ := 0
  uploadedAt : ℤ := 0
  cleanupState : CleanupState := .notApplicable
  cleanupAttempts : ℤ := 0
  cleanupAvailableAt : ℤ := 0
  cleanupError : String := ""
  cleanedAt : ℤ := 0

/-- `model.ContentBackupDailyStat`; site, day and storage node are the key of the table. -/
structure ContentBackupDailyStat where
  uploadedCount : ℤ := 0
  uploadedBytes : ℤ := 0
  cleanedCount : ℤ := 0
  freedBytes : ℤ := 0
  createdAt : ℤ
  updatedAt : ℤ

structure ContentBackupStatDelta where
  siteID : String
  storageNodeID : String
  statDate : String
  uploadedBytes : ℤ
  createdAt : ℤ

/-- The tables of the feature; `statDeltaSeq` is the counter of the auto-increment key of the deltas. -/
structure ContentBackupDb where
  jobs : Table (String × String) ContentBackupJob := ∅
  dailyStats : Table (String × String × String) ContentBackupDailyStat := ∅
  statDeltas : Table ℤ ContentBackupStatDelta := ∅
  statDeltaSeq : ℤ := 0

structure ContentBackupLease where
  siteID : String
  jobID : String
  storageNodeID : String
  owner : String
  token : String
  generation : ℤ
  leaseUntil : ℤ
deriving DecidableEq

def errLeaseLost : String := "content backup job lease is no longer held"

def errCleanupConflict : String := "content backup cleanup guard did not match"

def errRecordNotFound : String := "record not found"

/-- Decimal digits, at least `width` of them. -/
def padded (width : ℕ) (n : ℤ) : String :=
  let digits := toString n.toNat
  String.ofList (List.replicate (width - digits.length) '0') ++ digits

/-- `contentBackupDayFromUnix`: the day in Beijing. -/
def contentBackupDayFromUnix (unixSeconds : ℤ) : String :=
  if unixSeconds ≤ 0 then ""
  else
    let day := (unixSeconds + 8 * 3600) / Calendar.secondsPerDay
    let (year, month) := Calendar.monthOfDays day
    padded 4 year ++ "-" ++ padded 2 month ++ "-" ++
      padded 2 (day - Calendar.daysFromCivil year month 1 + 1)

example : contentBackupDayFromUnix 1709251199 = "2024-03-01" := by decide

/-- The columns of a job that `buildJob` sets; the other ones it leaves at their zero values. -/
def buildJob (storageNodeID : String) (createdAt compressedBytes : ℤ) : ContentBackupJob :=
  { storageNodeID, createdAt, compressedBytes }

/-- The defaults that `EnsurePending` fills in.  A job always has a status and a cleanup state here. -/
def admitted (job : ContentBackupJob) : ContentBackupJob :=
  { job with
    availableAt := if job.availableAt = 0 then job.createdAt else job.availableAt
    updatedAt := if job.updatedAt = 0 then job.createdAt else job.updatedAt }

def ensurePendingTx (db : ContentBackupDb) (siteID jobID : String) (job : ContentBackupJob) :
    Except String (ContentBackupDb × Unit) :=
  match db.jobs.insert? (siteID, jobID) (admitted job) with
  | some jobs => .ok ({ db with jobs }, ())
  | none => .error "duplicate key"

def ensurePending (o : Outcome) (db : ContentBackupDb) (siteID jobID : String)
    (job : ContentBackupJob) : ContentBackupDb × Except String Unit :=
  if jobID = "" ∨ job.storageNodeID = "" then
    (db, .error "content backup job identity is incomplete")
  else if job.createdAt ≤ 0 then
    (db, .error "content backup job created_at must be the request start instant")
  else
    let r := withOutcome o db (ensurePendingTx db siteID jobID job)
    (r.1, match r.2, r.1.jobs.get? (siteID, jobID) with
      | .ok (), _ => .ok ()
      | .error _, some _ => .ok ()
      | .error err, none => .error ("ensure content backup job " ++ jobID ++ ": " ++ err))

/-! ## Leases -/

/-- The rows that a claim may take: pending ones that are due, and lapsed ones. -/
def isClaimable (storageNodeID : String) (now : ℤ) (row : ContentBackupJob) : Bool :=
  row.storageNodeID = storageNodeID &&
    (row.status = .pending && row.availableAt ≤ now ||
      row.status = .processing && row.leaseUntil ≤ now)

def claimUpdates (owner token : String) (now untilUnix generation : ℤ) (row : ContentBackupJob) :
    ContentBackupJob :=
  { row with
    status := .processing
    leaseOwner := owner
    leaseToken := token
    leaseUntil := untilUnix
    leaseGeneration := generation
    attempts := row.attempts + 1
    totalAttempts := row.totalAttempts + 1
    updatedAt := now }

/-- The transaction of `Claim`: the generation of the lease, if it was won. -/
def claimTx (db : ContentBackupDb) (siteID jobID storageNodeID owner token : String)
    (now untilUnix : ℤ) : Except String (ContentBackupDb × Option ℤ) :=
  match db.jobs.get? (siteID, jobID) with
  | none => .ok (db, none)
  | some row =>
    if isClaimable storageNodeID now row then
      let generation := row.leaseGeneration + 1
      match db.jobs.updateRow (siteID, jobID) (fun r => r.leaseGeneration = row.leaseGeneration)
          (claimUpdates owner token now untilUnix generation) with
      | some jobs => .ok ({ db with jobs }, some generation)
      | none => .ok (db, none)
    else .ok (db, none)

/-- `Claim` with the UUID it draws: the lease, if it was won. -/
def claim (o : Outcome) (db : ContentBackupDb) (siteID jobID storageNodeID owner token : String)
    (now untilUnix : ℤ) : ContentBackupDb × Except String (Option ContentBackupLease) :=
  if jobID = "" ∨ storageNodeID = "" ∨ owner = "" then
    (db, .error "content backup claim identity is incomplete")
  else if untilUnix ≤ now then
    (db, .error "content backup lease must expire after the claim instant")
  else
    let r := withOutcome o db (claimTx db siteID jobID storageNodeID owner token now untilUnix)
    (r.1, r.2.map fun won => won.map fun generation =>
      { siteID, jobID, storageNodeID, owner, token, generation, leaseUntil := untilUnix })

def validateLeaseIdentity (siteID : String) (lease : ContentBackupLease) : Except String Unit :=
  if lease.jobID = "" ∨ lease.storageNodeID = "" ∨ lease.owner = "" ∨ lease.token = "" then
    .error "content backup lease identity is incomplete"
  else if lease.siteID ≠ "" ∧ lease.siteID ≠ siteID then .error errLeaseLost
  else .ok ()

/-- `contentBackupLeaseGuard`: the row is held under the lease. -/
def isHeld (lease : ContentBackupLease) (row : ContentBackupJob) : Bool :=
  row.storageNodeID = lease.storageNodeID && row.leaseOwner = lease.owner &&
    row.leaseToken = lease.token && row.status = .processing

def leaseTx (db : ContentBackupDb) (siteID : String) (lease : ContentBackupLease)
    (guard : ContentBackupJob → Bool) (updates : ContentBackupJob → ContentBackupJob) :
    Except String (ContentBackupDb × Unit) :=
  match db.jobs.updateRow (siteID, lease.jobID) (fun row => isHeld lease row && guard row)
      updates with
  | some jobs => .ok ({ db with jobs }, ())
  | none => .error errLeaseLost

def renew (o : Outcome) (db : ContentBackupDb) (siteID : String) (lease : ContentBackupLease)
    (now untilUnix : ℤ) : ContentBackupDb × Except String ContentBackupLease :=
  match validateLeaseIdentity siteID lease with
  | .error e => (db, .error e)
  | .ok () =>
    if untilUnix ≤ now then
      (db, .error "content backup lease must expire after the renewal instant")
    else
      let r := withOutcome o db
        (leaseTx db siteID lease (fun row => now < row.leaseUntil) fun row =>
          { row with leaseUntil := untilUnix, updatedAt := now })
      (r.1, r.2.map fun _ => { lease with siteID, leaseUntil := untilUnix })

/-- `settleJobError`: an answer that was lost is looked up in the row. -/
def settleJobError (db : ContentBackupDb) (siteID jobID : String) (terminalStatus : Status)
    (res : Except String Unit) : Except String Unit :=
  match res with
  | .ok () => .ok ()
  | .error e =>
    if e = errLeaseLost ∨ e = errCleanupConflict ∨ e = errRecordNotFound then .error e
    else
      match db.jobs.get? (siteID, jobID) with
      | some current => if current.status = terminalStatus then .ok () else .error e
      | none => .error e

def uploadedUpdates (now : ℤ) (row : ContentBackupJob) : ContentBackupJob :=
  { row with
    status := .uploaded
    cleanupState := .pending
    uploadedAt := now
    cleanupAvailableAt := now
    leaseOwner := ""
    leaseToken := ""
    leaseUntil := 0
    lastErrorCode := ""
    lastErrorMessage := ""
    updatedAt := now }

/-- A row of `content_backup_stat_deltas` under the id after the counter. -/
def createStatDelta (db : ContentBackupDb) (delta : ContentBackupStatDelta) : ContentBackupDb :=
  { db with
    statDeltas := db.statDeltas.put (db.statDeltaSeq + 1) delta
    statDeltaSeq := db.statDeltaSeq + 1 }

def markUploadedTx (db : ContentBackupDb) (siteID : String) (lease : ContentBackupLease) (now : ℤ)
    (day : String) : Except String (ContentBackupDb × Unit) :=
  match db.jobs.get? (siteID, lease.jobID) with
  | none => .error errRecordNotFound
  | some job =>
    if job.status = .uploaded then .ok (db, ())
    else if job.status ≠ .processing ∨ job.leaseToken ≠ lease.token ∨ job.leaseOwner ≠ lease.owner ∨
        job.storageNodeID ≠ lease.storageNodeID then .error errLeaseLost
    else
      match db.jobs.updateRow (siteID, lease.jobID)
          (fun row => row.status = .processing && row.leaseToken = lease.token)
          (uploadedUpdates now) with
      | none => .error errLeaseLost
      | some jobs =>
        .ok (createStatDelta { db with jobs }
          { siteID
            storageNodeID := lease.storageNodeID
            statDate := day
            uploadedBytes := job.compressedBytes
            createdAt := now }, ())

def markUploaded (o : Outcome) (db : ContentBackupDb) (siteID : String) (lease : ContentBackupLease)
    (now : ℤ) : ContentBackupDb × Except String Unit :=
  match validateLeaseIdentity siteID lease with
  | .error e => (db, .error e)
  | .ok () =>
    let day := contentBackupDayFromUnix now
    if day = "" then (db, .error "content backup upload instant is required")
    else
      let r := withOutcome o db (markUploadedTx db siteID lease now day)
      (r.1, settleJobError r.1 siteID lease.jobID .uploaded r.2)

/-- The columns of a job whose lease ends without an upload. -/
def unleasedUpdates (status : Status) (availableAt : ℤ) (code message : String) (now : ℤ)
    (row : ContentBackupJob) : ContentBackupJob :=
  { row with
    status
    availableAt
    leaseOwner := ""
    leaseToken := ""
    leaseUntil := 0
    lastErrorCode := code
    lastErrorMessage := message
    updatedAt := now }

def scheduleRetry (o : Outcome) (db : ContentBackupDb) (siteID : String) (lease : ContentBackupLease)
    (code message : String) (now next : ℤ) : ContentBackupDb × Except String Unit :=
  match validateLeaseIdentity siteID lease with
  | .error e => (db, .error e)
  | .ok () =>
    if next ≤ now then (db, .error "content backup retry must be scheduled in the future")
    else
      let r := withOutcome o db
        (leaseTx db siteID lease (fun _ => true) (unleasedUpdates .pending next code message now))
      (r.1, settleJobError r.1 siteID lease.jobID .pending r.2)

def markFailed (o : Outcome) (db : ContentBackupDb) (siteID : String) (lease : ContentBackupLease)
    (code message : String) (now : ℤ) : ContentBackupDb × Except String Unit :=
  match validateLeaseIdentity siteID lease with
  | .error e => (db, .error e)
  | .ok () =>
    let r := withOutcome o db
      (leaseTx db siteID lease (fun _ => true) (unleasedUpdates .failed 0 code message now))
    (r.1, settleJobError r.1 siteID lease.jobID .failed r.2)

/-- An upsert of a daily row: the values of a new one, or the increments of the one that is there. -/
def upsertDailyStat (db : ContentBackupDb) (key : String × String × String)
    (row : ContentBackupDailyStat) (updates : ContentBackupDailyStat → ContentBackupDailyStat) :
    ContentBackupDb :=
  { db with
    dailyStats :=
      db.dailyStats.put key
        (match db.dailyStats.get? key with
        | some current => updates current
        | none => row) }

def addDailyUploads (db : ContentBackupDb) (siteID day storageNodeID : String)
    (count bytes now : ℤ) : ContentBackupDb :=
  upsertDailyStat db (siteID, day, storageNodeID)
    { uploadedCount := count, uploadedBytes := bytes, createdAt := now, updatedAt := now }
    fun row =>
      { row with
        uploadedCount := row.uploadedCount + count
        uploadedBytes := row.uploadedBytes + bytes
        updatedAt := now }

def addDailyCleanup (db : ContentBackupDb) (siteID day storageNodeID : String) (bytes now : ℤ) :
    ContentBackupDb :=
  upsertDailyStat db (siteID, day, storageNodeID)
    { cleanedCount := 1, freedBytes := bytes, createdAt := now, updatedAt := now }
    fun row =>
      { row with
        cleanedCount := row.cleanedCount + 1
        freedBytes := row.freedBytes + bytes
        updatedAt := now }

/-! ## Cleanup -/

def isCleanupPending (row : ContentBackupJob) : Bool :=
  row.status = .uploaded && row.cleanupState = .pending

def cleanedUpdates (now : ℤ) (row : ContentBackupJob) : ContentBackupJob :=
  { row with
    cleanupState := .done
    cleanedAt := now
    cleanupAvailableAt := 0
    cleanupError := ""
    updatedAt := now }

def markCleanedTx (db : ContentBackupDb) (siteID jobID storageNodeID : String) (now : ℤ) :
    Except String (ContentBackupDb × Unit) :=
  match db.jobs.get? (siteID, jobID) with
  | none => .error errRecordNotFound
  | some job =>
    if job.storageNodeID ≠ storageNodeID then .error errRecordNotFound
    else if job.cleanupState = .done then .ok (db, ())
    else if job.status ≠ .uploaded ∨ job.cleanupState ≠ .pending then .error errCleanupConflict
    else
      match db.jobs.updateRow (siteID, jobID) isCleanupPending (cleanedUpdates now) with
      | none => .error errCleanupConflict
      | some jobs =>
        let day := contentBackupDayFromUnix now
        if day = "" then .ok ({ db with jobs }, ())
        else
          .ok (addDailyCleanup { db with jobs } siteID day storageNodeID job.compressedBytes now, ())

/-- What `MarkCleaned` makes of an error: an answer that was lost is looked up in the row. -/
def settleCleanupError (db : ContentBackupDb) (siteID jobID storageNodeID : String)
    (res : Except String Unit) : Except String Unit :=
  match res with
  | .ok () => .ok ()
  | .error e =>
    if e = errCleanupConflict then .error e
    else if e = errRecordNotFound then .error errCleanupConflict
    else
      match db.jobs.get? (siteID, jobID) with
      | some job =>
        if job.storageNodeID = storageNodeID ∧ job.cleanupState = .done then .ok () else .error e
      | none => .error e

def markCleaned (o : Outcome) (db : ContentBackupDb) (siteID jobID storageNodeID : String)
    (now : ℤ) : ContentBackupDb × Except String Unit :=
  if jobID = "" ∨ storageNodeID = "" then
    (db, .error "content backup cleanup identity is incomplete")
  else
    let r := withOutcome o db (markCleanedTx db siteID jobID storageNodeID now)
    (r.1, settleCleanupError r.1 siteID jobID storageNodeID r.2)

def scheduleCleanupTx (db : ContentBackupDb) (siteID jobID storageNodeID message : String)
    (now next : ℤ) : Except String (ContentBackupDb × Unit) :=
  match db.jobs.updateRow (siteID, jobID)
      (fun row => row.storageNodeID = storageNodeID && isCleanupPending row) (fun row =>
        { row with
          cleanupAttempts := row.cleanupAttempts + 1
          cleanupAvailableAt := next
          cleanupError := message
          updatedAt := now }) with
  | some jobs => .ok ({ db with jobs }, ())
  | none => .error errCleanupConflict

def scheduleCleanup (o : Outcome) (db : ContentBackupDb) (siteID jobID storageNodeID message : String)
    (now next : ℤ) : ContentBackupDb × Except String Unit :=
  if jobID = "" ∨ storageNodeID = "" then
    (db, .error "content backup cleanup identity is incomplete")
  else withOutcome o db (scheduleCleanupTx db siteID jobID storageNodeID message now next)

/-! ## Retries -/

def contentBackupErrorIsUnrecoverable (code : String) : Bool :=
  code = "local_missing" || code = "hash_error" || code = "incomplete_spool"

/-- `ContentBackupRetryResult`, without the job id. -/
structure ContentBackupRetryResult where
  result : String
  reason : String

/-- The part of `RetryFailed` before its write: an answer, or nothing when the job is to be queued. -/
def retryFailedCheck (db : ContentBackupDb) (siteID jobID : String) :
    Option ContentBackupRetryResult :=
  if jobID = "" then some ⟨"failed", "job_id_required"⟩
  else
    match db.jobs.get? (siteID, jobID) with
    | none => some ⟨"failed", "not_found"⟩
    | some job =>
      match job.status with
      | .uploaded => some ⟨"skipped", "already_uploaded"⟩
      | .processing => some ⟨"skipped", "processing"⟩
      | .pending => some ⟨"skipped", "already_queued"⟩
      | .failed =>
        if contentBackupErrorIsUnrecoverable job.lastErrorCode then
          some ⟨"skipped", "not_retryable:" ++ job.lastErrorCode⟩
        else none

/-- The columns of a job that is queued again. -/
def retryUpdates (now : ℤ) (row : ContentBackupJob) : ContentBackupJob :=
  { row with
    status := .pending
    attempts := 0
    retryRound := row.retryRound + 1
    availableAt := now
    leaseOwner := ""
    leaseToken := ""
    leaseUntil := 0
    lastErrorCode := ""
    lastErrorMessage := ""
    updatedAt := now }

def retryFailedTx (db : ContentBackupDb) (siteID jobID : String) (now : ℤ) :
    Except String (ContentBackupDb × ContentBackupRetryResult) :=
  match db.jobs.updateRow (siteID, jobID) (fun row => row.status = .failed) (retryUpdates now) with
  | some jobs => .ok ({ db with jobs }, ⟨"queued", "queued"⟩)
  | none => .ok (db, ⟨"skipped", "state_changed"⟩)

def retryFailedWrite (o : Outcome) (db : ContentBackupDb) (siteID jobID : String) (now : ℤ) :
    ContentBackupDb × Except String ContentBackupRetryResult :=
  withOutcome o db (retryFailedTx db siteID jobID now)

/-! ## Folds -/

def contentBackupIDChunk : ℤ := 500

def errContentBackupFoldRaced : String :=
  "content backup stat deltas were folded by another process"

/-- The deltas that a fold reads: the first ones of the node by their id. -/
def foldBatch (db : ContentBackupDb) (siteID storageNodeID : String) (limit : ℤ) :
    List (ℤ × ContentBackupStatDelta) :=
  let limit := if limit ≤ 0 ∨ contentBackupIDChunk < limit then contentBackupIDChunk else limit
  ((db.statDeltas.rows.filter fun e =>
    e.2.siteID = siteID && e.2.storageNodeID = storageNodeID).insertionSort
      fun a b => a.1 ≤ b.1).take limit.toNat

/-- The days of a batch in the order in which they first occur. -/
def batchDays (batch : List (ℤ × ContentBackupStatDelta)) : List String :=
  (batch.map fun e => e.2.statDate).reverse.dedup.reverse

def perDay (batch : List (ℤ × ContentBackupStatDelta)) (day : String) :
    List (ℤ × ContentBackupStatDelta) :=
  batch.filter fun e => e.2.statDate = day

/-- The transaction of `FoldStatDeltas` for a batch that was read before. -/
def foldTx (db : ContentBackupDb) (siteID storageNodeID : String)
    (batch : List (ℤ × ContentBackupStatDelta)) (now : ℤ) : Except String (ContentBackupDb × Unit) :=
  let deleted := fun (id : ℤ) (delta : ContentBackupStatDelta) =>
    decide (delta.siteID = siteID ∧ id ∈ batch.map Prod.fst)
  if (db.statDeltas.rows.filter fun e => deleted e.1 e.2).length ≠ batch.length then
    .error errContentBackupFoldRaced
  else
    .ok ((batchDays batch).foldl
      (fun db day => addDailyUploads db siteID day storageNodeID (perDay batch day).length
        ((perDay batch day).map fun e => e.2.uploadedBytes).sum now)
      { db with statDeltas := db.statDeltas.eraseWhere deleted }, ())

/-- `FoldStatDeltas` after its read: the number of deltas that were folded. -/
def foldStatDeltas (o : Outcome) (db : ContentBackupDb) (siteID storageNodeID : String)
    (batch : List (ℤ × ContentBackupStatDelta)) (now : ℤ) : ContentBackupDb × Except String ℤ :=
  if storageNodeID = "" then
    (db, .error "content backup stat fold requires a storage node id")
  else if batch = [] then (db, .ok 0)
  else
    let r := withOutcome o db (foldTx db siteID storageNodeID batch now)
    (r.1, match r.2 with
      | .ok () => .ok batch.length
      | .error e => if e = errContentBackupFoldRaced then .ok 0 else .error e)

/-- `CurrentLeaseTokens`: the token of every given job that is processing. -/
def currentLeaseTokens (db : ContentBackupDb) (siteID : String) (jobIDs : List String) :
    String → Option String := fun jobID =>
  if jobID ∈ jobIDs then
    (db.jobs.get? (siteID, jobID)).bind fun job =>
      if job.status = .processing then some job.leaseToken else none
  else none

end BeeApi.ContentBackup
