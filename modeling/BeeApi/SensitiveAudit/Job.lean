import BeeApi.Lib.Run
import BeeApi.Lib.Table
import BeeApi.Lib.Transaction

/-!
# Sensitive audit jobs

The durable jobs of `model/sensitive_audit_job.go`: a job is admitted once, claimed under a lease token,
and completed together with its hit records, the counters of its rules and the state of the token; its
dump is claimed and deleted afterwards.  Every transaction is one step with an outcome; a read that
follows a lost answer is a step of its own.
-/

namespace BeeApi.SensitiveAudit

open Transaction

/-! ## Tables -/

/-- The `SensitiveAuditJob*` constants. -/
inductive JobStatus
  | pending
  | processing
  | succeeded
  | dead
deriving DecidableEq

/-- The `SensitiveAuditDump*` constants. -/
inductive DumpState
  | ready
  | deleting
  | deleted
deriving DecidableEq

def sensitiveAuditMaxAttempts : ℤ := 5

/-- `model.SensitiveAuditJobRecord`, without the columns that describe the request; the job id is the
key of the table. -/
structure SensitiveAuditJobRecord where
  storageNode : String
  status : JobStatus := .pending
  availableAt : ℤ := 0
  leaseOwner : String := ""
  leaseToken : String := ""
  leaseUntil : ℤ := 0
  leaseGeneration : ℤ := 0
  attempts : ℤ := 0
  lastError : String := ""
  completedAt : ℤ := 0
  dumpPath : String
  bodySHA256 : String
  bodySize : ℤ
  dumpState : DumpState := .ready
  dumpLeaseOwner : String := ""
  dumpLeaseToken : String := ""
  dumpLeaseUntil : ℤ := 0
  dumpDeletedAt : ℤ := 0
  createdAt : ℤ := 0
  updatedAt : ℤ := 0

inductive SensitiveAction
  | block
  | monitor
deriving DecidableEq

/-- `model.SensitiveBlockLog`, the columns that a completion reads or writes. -/
structure SensitiveBlockLog where
  auditJobId : Option String
  matchedWordId : ℤ
  matchedPattern : String := ""
  action : SensitiveAction := .block
  matchedSnippet : String := ""
  dumpExists : Bool := true
  tokenDisabled : Bool := false

structure SensitiveWord where
  pattern : String
  isRegex : Bool := false
  enabled : Bool := true
  action : SensitiveAction := .block
  hitCount : ℤ := 0
  lastHitAt : ℤ := 0
  updatedAt : ℤ := 0

inductive TokenStatus
  | enabled
  | disabled
  | expired
  | exhausted
deriving DecidableEq

/-- `model.Token`, the columns that a completion reads or writes. -/
structure AuditedToken where
  status : TokenStatus := .enabled
  deletedAt : Option ℤ := none

structure AuditDb where
  jobs : Table String SensitiveAuditJobRecord := ∅
  blockLogs : Table ℤ SensitiveBlockLog := ∅
  words : Table ℤ SensitiveWord := ∅
  tokens : Table ℤ AuditedToken := ∅

/-! ## Admission and claims -/

/-- What a caller of `InsertSensitiveAuditJob` fills in. -/
structure NewJob where
  jobID : String
  storageNode : String
  dumpPath : String
  bodySHA256 : String
  bodySize : ℤ
  createdAt : ℤ

/-- `BeforeCreate`: the defaults of a new row. -/
def NewJob.record (job : NewJob) (now : ℤ) : SensitiveAuditJobRecord :=
  let createdAt := if job.createdAt = 0 then now else job.createdAt
  { storageNode := job.storageNode
    dumpPath := job.dumpPath
    bodySHA256 := job.bodySHA256
    bodySize := job.bodySize
    availableAt := createdAt
    createdAt := createdAt
    updatedAt := createdAt }

def NewJob.isComplete (job : NewJob) : Bool :=
  job.jobID ≠ "" && job.storageNode ≠ "" && job.dumpPath ≠ "" && job.bodySHA256 ≠ ""

def insertTx (db : AuditDb) (job : NewJob) (now : ℤ) : Except String (AuditDb × Unit) :=
  if !job.isComplete then .error "sensitive audit job identity is incomplete"
  else
    match db.jobs.insert? job.jobID (job.record now) with
    | none => .error "duplicate key"
    | some jobs => .ok ({ db with jobs }, ())

structure ClaimRequest where
  jobID : String
  storageNode : String
  leaseOwner : String
  leaseToken : String
  now : ℤ
  leaseUntil : ℤ

/-- The rows that a claim may take. -/
def ClaimRequest.takes (c : ClaimRequest) (job : SensitiveAuditJobRecord) : Bool :=
  job.storageNode = c.storageNode &&
    (job.status = .pending && job.availableAt ≤ c.now ||
      job.status = .processing && job.leaseUntil ≤ c.now)

def ClaimRequest.apply (c : ClaimRequest) (job : SensitiveAuditJobRecord) : SensitiveAuditJobRecord :=
  { job with
    status := .processing
    leaseOwner := c.leaseOwner
    leaseToken := c.leaseToken
    leaseUntil := c.leaseUntil
    leaseGeneration := job.leaseGeneration + 1
    attempts := job.attempts + 1
    updatedAt := c.now }

/-- `TryClaimSensitiveAuditJob`: whether a row was taken. -/
def tryClaimTx (db : AuditDb) (c : ClaimRequest) : Except String (AuditDb × Bool) :=
  if c.jobID = "" ∨ c.storageNode = "" ∨ c.leaseOwner = "" ∨ c.leaseToken = "" then
    .error "sensitive audit claim identity is incomplete"
  else if c.leaseUntil ≤ c.now then .error "sensitive audit lease must expire after claim time"
  else
    match db.jobs.updateRow c.jobID c.takes c.apply with
    | some jobs => .ok ({ db with jobs }, true)
    | none => .ok (db, false)

/-! ## Completion -/

structure RuleVersion where
  id : ℤ
  pattern : String
  isRegex : Bool
  action : SensitiveAction
  updatedAt : ℤ

structure Completion where
  jobID : String
  leaseToken : String
  tokenID : ℤ
  hits : List SensitiveBlockLog
  rules : List RuleVersion
  now : ℤ

def holds (leaseToken : String) (job : SensitiveAuditJobRecord) : Bool :=
  job.status = .processing && job.leaseToken = leaseToken

def RuleVersion.current (rule : RuleVersion) (word : SensitiveWord) : Bool :=
  word.enabled && word.updatedAt = rule.updatedAt && word.pattern = rule.pattern &&
    word.isRegex = rule.isRegex && word.action = rule.action

/-- The hits note whether their token was there to be disabled. -/
def noteToken (tokenDisabled : Bool) (hits : List SensitiveBlockLog) : List SensitiveBlockLog :=
  hits.map fun hit => if hit.action = .block then { hit with tokenDisabled := tokenDisabled } else hit

/-- A hit that blocks disables the token of the request, if it still exists. -/
def disableToken (db : AuditDb) (c : Completion) : AuditDb × List SensitiveBlockLog :=
  if c.hits.any (·.action = .block) ∧ 0 < c.tokenID then
    match (db.tokens.get? c.tokenID).filter (·.deletedAt.isNone) with
    | none => (db, noteToken false c.hits)
    | some token =>
      (if token.status ≠ .disabled then
        { db with tokens := db.tokens.modify c.tokenID fun t => { t with status := .disabled } }
      else db, noteToken true c.hits)
  else (db, c.hits)

/-- The unique index on the job and the rule of a hit. -/
def isLogged (db : AuditDb) (hit : SensitiveBlockLog) : Bool :=
  hit.auditJobId.isSome && db.blockLogs.rows.any fun e =>
    e.2.auditJobId = hit.auditJobId && e.2.matchedWordId = hit.matchedWordId

def recordHit (c : Completion) (db : AuditDb) (hr : SensitiveBlockLog × RuleVersion) :
    Except String AuditDb :=
  let (hit, rule) := hr
  if hit.auditJobId ≠ some c.jobID ∨ hit.matchedWordId ≠ rule.id then
    .error "sensitive audit hit identity is invalid"
  else if !(db.words.get? rule.id).any rule.current then
    .error ("sensitive audit rule " ++ toString rule.id ++ " changed before completion")
  else if isLogged db hit then .error "duplicate key"
  else
    .ok { db with
      blockLogs := db.blockLogs.put db.blockLogs.nextKey hit
      words := db.words.modify rule.id fun word =>
        { word with hitCount := word.hitCount + 1, lastHitAt := c.now } }

def succeed (now : ℤ) (job : SensitiveAuditJobRecord) : SensitiveAuditJobRecord :=
  { job with status := .succeeded, completedAt := now, leaseUntil := 0, updatedAt := now, lastError := "" }

def Completion.isComplete (c : Completion) : Bool :=
  c.jobID ≠ "" && c.leaseToken ≠ "" && c.hits.length = c.rules.length

/-- The checks before the transaction of `CompleteSensitiveAuditJob`. -/
def Completion.check (c : Completion) : Except String Unit :=
  if c.jobID = "" ∨ c.leaseToken = "" then .error "sensitive audit completion identity is incomplete"
  else if c.hits.length ≠ c.rules.length then .error "sensitive audit hits and rule versions differ"
  else .ok ()

/-- The transaction of `CompleteSensitiveAuditJob`. -/
def completeTx (db : AuditDb) (c : Completion) : Except String (AuditDb × Unit) :=
  if !(db.jobs.get? c.jobID).any (holds c.leaseToken) then .error "record not found"
  else
    let (db, hits) := disableToken db c
    match (hits.zip c.rules).foldlM (recordHit c) db with
    | .error e => .error e
    | .ok db =>
      match db.jobs.updateRow c.jobID (holds c.leaseToken) (succeed c.now) with
      | none => .error "sensitive audit completion lost its lease"
      | some jobs => .ok ({ db with jobs }, ())

def isSucceeded (db : AuditDb) (jobID : String) : Bool :=
  (db.jobs.get? jobID).any (·.status = .succeeded)

/-- What `CompleteSensitiveAuditJob` returns when its transaction has failed. -/
def completeLookup (db : AuditDb) (jobID err : String) : Except String Unit :=
  if isSucceeded db jobID then .ok () else .error err

structure Retry where
  jobID : String
  leaseToken : String
  nextAttemptAt : ℤ
  lastError : String
  now : ℤ

def Retry.apply (r : Retry) (job : SensitiveAuditJobRecord) : SensitiveAuditJobRecord :=
  { job with
    status := if sensitiveAuditMaxAttempts ≤ job.attempts then .dead else .pending
    availableAt := r.nextAttemptAt
    leaseOwner := ""
    leaseToken := ""
    leaseUntil := 0
    lastError := r.lastError
    updatedAt := r.now }

/-- `RetrySensitiveAuditJob`. -/
def retryTx (db : AuditDb) (r : Retry) : Except String (AuditDb × Unit) :=
  match db.jobs.updateRow r.jobID (holds r.leaseToken) r.apply with
  | some jobs => .ok ({ db with jobs }, ())
  | none => if isSucceeded db r.jobID then .ok (db, ()) else .error "record not found"

/-! ## Dumps -/

structure DumpClaim where
  jobID : String
  storageNode : String
  leaseOwner : String
  leaseToken : String
  cutoff : ℤ
  now : ℤ
  leaseUntil : ℤ

def DumpClaim.takes (c : DumpClaim) (job : SensitiveAuditJobRecord) : Bool :=
  job.storageNode = c.storageNode && job.status = .succeeded && job.createdAt ≤ c.cutoff &&
    (job.dumpState = .ready || job.dumpState = .deleting && job.dumpLeaseUntil ≤ c.now)

def DumpClaim.apply (c : DumpClaim) (job : SensitiveAuditJobRecord) : SensitiveAuditJobRecord :=
  { job with
    dumpState := .deleting
    dumpLeaseOwner := c.leaseOwner
    dumpLeaseToken := c.leaseToken
    dumpLeaseUntil := c.leaseUntil
    updatedAt := c.now }

/-- `TryClaimSensitiveAuditDump`: whether a row was taken. -/
def tryClaimDumpTx (db : AuditDb) (c : DumpClaim) : Except String (AuditDb × Bool) :=
  if c.jobID = "" ∨ c.storageNode = "" ∨ c.leaseOwner = "" ∨ c.leaseToken = "" then
    .error "sensitive audit dump claim identity is incomplete"
  else
    match db.jobs.updateRow c.jobID c.takes c.apply with
    | some jobs => .ok ({ db with jobs }, true)
    | none => .ok (db, false)

def deleteDump (now : ℤ) (job : SensitiveAuditJobRecord) : SensitiveAuditJobRecord :=
  { job with
    dumpState := .deleted
    dumpDeletedAt := now
    dumpLeaseOwner := ""
    dumpLeaseToken := ""
    dumpLeaseUntil := 0
    updatedAt := now }

def completeDumpDeletionTx (db : AuditDb) (jobID leaseToken : String) (now : ℤ) :
    Except String (AuditDb × Unit) :=
  match db.jobs.updateRow jobID
    (fun job => job.dumpState = .deleting && job.dumpLeaseToken = leaseToken) (deleteDump now) with
  | none => .error "sensitive audit dump deletion lost its lease"
  | some jobs =>
    .ok ({ db with
      jobs
      blockLogs := db.blockLogs.updateWhere (fun _ log => log.auditJobId = some jobID)
        fun log => { log with dumpExists := false } }, ())

end BeeApi.SensitiveAudit
