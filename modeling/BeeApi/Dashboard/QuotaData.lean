import BeeApi.Batch.Flush

/-!
# Dashboard quota data

`LogQuotaData` adds a request to `CacheQuotaData` of its process, and `saveQuotaDataCache` moves the
entries to `quotaDataInFlight`, each under an operation id of its own, and writes them to the table that
all processes share, until each operation is known to be committed.  A save is a sequence of steps, and a
transaction reads the id of an existing row in one step and commits in another.
-/

namespace BeeApi.Dashboard

open Batch

/-- The columns that tell one bar of the dashboard from another. -/
structure QuotaKey where
  userID : ℤ
  username : String
  modelName : String
  group : String
  billingSource : String
  createdAt : ℤ
deriving DecidableEq

def key (quotaData : QuotaData) : QuotaKey where
  userID := quotaData.userID
  username := quotaData.username
  modelName := quotaData.modelName
  group := quotaData.group
  billingSource := quotaData.billingSource
  createdAt := quotaData.createdAt

def quotaDataCacheKey (k : QuotaKey) : String :=
  toString k.userID ++ "\x00" ++ k.username ++ "\x00" ++ k.modelName ++ "\x00" ++ k.group ++ "\x00" ++
    k.billingSource ++ "\x00" ++ toString k.createdAt

structure QuotaDataFlushEntry where
  operationID : String
  data : QuotaData

/-- Where a save stands with the first of its keys.  `queried` is inside the transaction, after the
query for an existing row. -/
inductive Stage
  | next
  | queried (entry : QuotaDataFlushEntry) (existing : Option ℤ)
  | saved (operationID : String) (err : Option String)

/-- The local variables of `saveQuotaDataCache`; `keys` are the keys that are left. -/
structure Save where
  keys : List String
  size : ℕ
  stage : Stage := .next
  failedCount : ℕ := 0
  firstFlushError : Option String := none
  confirmedOperationIDs : List String := []

/-- One process: its maps, the save that holds `quotaDataFlushLock`, and the result of the last. -/
structure Process where
  cacheQuotaData : Table String QuotaData := ∅
  quotaDataInFlight : Table String QuotaDataFlushEntry := ∅
  save : Option Save := none
  result : Option String := none

def mergeQuotaDataCacheEntry (cache : Table String QuotaData) (key : String)
    (incoming : QuotaData) : Table String QuotaData :=
  match cache.get? key with
  | some _ =>
    cache.modify key fun quotaData =>
      { quotaData with
        count := quotaData.count + incoming.count
        quota := quotaData.quota + incoming.quota
        tokenUsed := quotaData.tokenUsed + incoming.tokenUsed }
  | none => cache.put key incoming

/-- The arguments of `LogQuotaData`. -/
structure LogCall where
  userId : ℤ
  username : String
  modelName : String
  group : String
  billingSource : String
  quota : ℤ
  createdAt : ℤ
  tokenUsed : ℤ

/-- The entry of one call.  The time is cut to the hour. -/
def LogCall.entry (call : LogCall) : QuotaData where
  userID := call.userId
  username := call.username
  modelName := call.modelName
  group := call.group
  billingSource := call.billingSource
  createdAt := call.createdAt - call.createdAt.tmod 3600
  count := 1
  quota := call.quota
  tokenUsed := call.tokenUsed

def logQuotaData (p : Process) (call : LogCall) : Process :=
  { p with
    cacheQuotaData :=
      mergeQuotaDataCacheEntry p.cacheQuotaData (quotaDataCacheKey (key call.entry)) call.entry }

/-- The query of `saveQuotaData`: the first row with the key of the entry. -/
def findQuotaData (db : Db) (quotaData : QuotaData) : Option ℤ :=
  ((db.quotaData.rows.filter fun row => key row.2 = key quotaData).map Prod.fst).min?

def increaseQuotaData (db : Db) (id count quota tokenUsed : ℤ) : Except String Db :=
  match db.affected db.quotaData
      (db.quotaData.updateRow id (fun _ => true) fun row =>
        { row with
          count := row.count + count
          quota := row.quota + quota
          tokenUsed := row.tokenUsed + tokenUsed }) with
  | some quotaData => .ok { db with quotaData }
  | none => .error s!"update quota data id {id} affected 0 rows, want 1"

/-- `Create`, with the next id of the table. -/
def createQuotaData (db : Db) (quotaData : QuotaData) : Db :=
  { db with quotaData := db.quotaData.put db.quotaData.nextKey quotaData }

def flushOperationResultQuotaDataWritten : String := "quota-data-written"

/-- The mutation of `saveQuotaData`, for the id that its query found. -/
def writeQuotaData (existing : Option ℤ) (quotaData : QuotaData) (db : Db) :
    Except String (Db × String) :=
  if 0 < existing.getD 0 then
    match increaseQuotaData db (existing.getD 0) quotaData.count quotaData.quota
        quotaData.tokenUsed with
    | .ok db => .ok (db, flushOperationResultQuotaDataWritten)
    | .error e => .error ("increase existing quota data: " ++ e)
  else .ok (createQuotaData db quotaData, flushOperationResultQuotaDataWritten)

/-- `saveQuotaData`: the database afterwards, and the error.  `payloadHash` is
`flushOperationPayloadHash`. -/
def saveQuotaData (payloadHash : QuotaData → String) (db : Db) (now : ℤ) (operationID : String)
    (quotaData : QuotaData) (existing : Option ℤ) (commit : Commit) (lookupFails : Bool) :
    Db × Option String :=
  match applyFlushOperation db now operationID "quota-data" (payloadHash quotaData)
      (writeQuotaData existing quotaData) commit lookupFails with
  | (db, .ok _) => (db, none)
  | (db, .error e) => (db, some e)

/-- `newFlushOperationID("quota")` for the `n`-th draw. -/
def newQuotaOperationID (uuid : ℕ → String) (n : ℕ) : String := "quota-" ++ uuid n

/-- One round of the loop over `CacheQuotaData`: the process, and the draws so far. -/
def moveToInFlight (uuid : ℕ → String) (s : Process × ℕ) (row : String × QuotaData) : Process × ℕ :=
  match s.1.quotaDataInFlight.get? row.1 with
  | some _ => s
  | none =>
    ({ s.1 with
        cacheQuotaData := s.1.cacheQuotaData.erase row.1
        quotaDataInFlight := s.1.quotaDataInFlight.put row.1
          { operationID := newQuotaOperationID uuid s.2, data := row.2 } }, s.2 + 1)

/-- The first section of `saveQuotaDataCache`, under both locks. -/
def Process.begin (uuid : ℕ → String) (p : Process) (drawn : ℕ) : Process × ℕ :=
  let moved := p.cacheQuotaData.rows.foldl (moveToInFlight uuid) (p, drawn)
  let keys := moved.1.quotaDataInFlight.keys.insertionSort (· ≤ ·)
  ({ moved.1 with save := some { keys, size := keys.length } }, moved.2)

def Save.fail (save : Save) (err : String) : Save :=
  { save with
    keys := save.keys.tail
    stage := .next
    failedCount := save.failedCount + 1
    firstFlushError := some (save.firstFlushError.getD err) }

/-- The transaction of the next key starts, up to its query. -/
def Process.query (p : Process) (db : Db) (save : Save) : Option Process :=
  match save.stage, save.keys with
  | .next, key :: _ =>
    match p.quotaDataInFlight.get? key with
    | none =>
      some { p with save := some (save.fail "quota data in-flight entry disappeared") }
    | some entry =>
      some { p with
        save := some { save with stage := .queried entry (findQuotaData db entry.data) } }
  | _, _ => none

/-- The section after the saver of a key has returned. -/
def Process.confirm (p : Process) (save : Save) : Option Process :=
  match save.stage, save.keys with
  | .saved _ (some err), _ => some { p with save := some (save.fail err) }
  | .saved operationID none, key :: _ =>
    if (p.quotaDataInFlight.get? key).map QuotaDataFlushEntry.operationID = some operationID then
      some { p with
        quotaDataInFlight := p.quotaDataInFlight.erase key
        save := some { save with
          keys := save.keys.tail
          stage := .next
          confirmedOperationIDs := save.confirmedOperationIDs ++ [operationID] } }
    else
      some { p with
        save := some (save.fail "quota data operation identity changed during flush") }
  | _, _ => none

/-- What `saveQuotaDataCache` returns. -/
def Save.result (save : Save) : Option String :=
  if 0 < save.failedCount then
    some (s!"failed to save {save.failedCount} of {save.size} quota cache entries; " ++
      "first error: " ++ save.firstFlushError.getD "")
  else none

section System

variable {ι : Type} [DecidableEq ι]

/-- The database, the clock, the ids drawn so far, and the processes. -/
structure World (ι : Type) where
  db : Db := {}
  now : ℤ := 0
  drawn : ℕ := 0
  processes : ι → Process := fun _ => {}

inductive Label (ι : Type)
  | logQuotaData (i : ι) (call : LogCall)
  | begin (i : ι)
  | query (i : ι)
  | save (i : ι) (commit : Commit) (lookupFails : Bool)
  | confirm (i : ι)
  | cleanup (i : ι) (commit : Commit)
  | finish (i : ι)
  | tick (seconds : ℕ)

def World.setProcess (w : World ι) (i : ι) (p : Process) : World ι :=
  { w with processes := Function.update w.processes i p }

/-- One statement of `deleteFlushOperationLedgers`; an error ends the loop over the chunks. -/
def World.cleanup (w : World ι) (i : ι) (save : Save) (commit : Commit) : World ι :=
  let chunk := save.confirmedOperationIDs.take 200
  let deleted := deleteFlushOperationLedgers w.db chunk
  match commit with
  | .committed =>
    { w with db := deleted }.setProcess i { w.processes i with
      save := some { save with confirmedOperationIDs := save.confirmedOperationIDs.drop 200 } }
  | .committedUnreported _ =>
    { w with db := deleted }.setProcess i { w.processes i with
      save := some { save with confirmedOperationIDs := [] } }
  | .rolledBack _ =>
    w.setProcess i { w.processes i with save := some { save with confirmedOperationIDs := [] } }

def step (uuid : ℕ → String) (payloadHash : QuotaData → String) (w : World ι) :
    Label ι → Option (World ι)
  | .logQuotaData i call => some (w.setProcess i (logQuotaData (w.processes i) call))
  | .begin i =>
    match (w.processes i).save with
    | some _ => none
    | none =>
      let begun := (w.processes i).begin uuid w.drawn
      some ({ w with drawn := begun.2 }.setProcess i begun.1)
  | .query i =>
    match (w.processes i).save with
    | some save => ((w.processes i).query w.db save).map (w.setProcess i)
    | none => none
  | .save i commit lookupFails =>
    match (w.processes i).save with
    | some save =>
      match save.stage with
      | .queried entry existing =>
        let saved := saveQuotaData payloadHash w.db w.now entry.operationID entry.data existing
          commit lookupFails
        some ({ w with db := saved.1 }.setProcess i { w.processes i with
          save := some { save with stage := .saved entry.operationID saved.2 } })
      | _ => none
    | none => none
  | .confirm i =>
    match (w.processes i).save with
    | some save => ((w.processes i).confirm save).map (w.setProcess i)
    | none => none
  | .cleanup i commit =>
    match (w.processes i).save with
    | some save =>
      if save.keys = [] ∧ save.confirmedOperationIDs ≠ [] then some (w.cleanup i save commit)
      else none
    | none => none
  | .finish i =>
    match (w.processes i).save with
    | some save =>
      if save.keys = [] ∧ save.confirmedOperationIDs = [] then
        some (w.setProcess i { w.processes i with save := none, result := save.result })
      else none
    | none => none
  | .tick seconds => some { w with now := w.now + seconds }

end System

end BeeApi.Dashboard
