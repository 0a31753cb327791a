import Mathlib.Data.List.Sort
import Mathlib.Data.Prod.Lex
import BeeApi.Lib.Strings
import BeeApi.LogMigration.Backfill

/-!
# Restore of logs from ClickHouse

`RestoreClickHouseRows` copies the events of the ClickHouse table into the relational database, batch
by batch in the order of `(created_at, event_id)`.  A batch is one transaction; it inserts the ledger row
of an event first, and skips an event that has one.  Any number of processes work on the database, each
may die anywhere, and nobody sees what an open transaction has written, except that the insert of a
ledger row waits for every transaction that has inserted the same event.
-/

namespace BeeApi.LogMigration

structure EventCursor where
  createdAt : ℤ := 0
  eventID : String := ""
deriving DecidableEq

def compareEventCursor (left right : EventCursor) : ℤ :=
  if left.createdAt < right.createdAt then -1
  else if left.createdAt > right.createdAt then 1
  -- `strings.Compare`
  else if left.eventID = right.eventID then 0
  else if left.eventID < right.eventID then -1 else 1

/-- The part of `RestoreState` that the loop reads and writes. -/
structure RestoreState where
  highWater : EventCursor := {}
  cursor : EventCursor := {}
  rowsRestored : ℤ := 0
deriving DecidableEq

def RestoreState.complete (state : RestoreState) : Bool :=
  compareEventCursor state.cursor state.highWater ≥ 0

/-- `event_id LIKE 'legacy-%'`. -/
def isLegacy (row : LogRow) : Bool := Strings.hasPrefix row.eventID "legacy-"

def clickHouseEventWindow (clickHouse : List LogRow) (after highWater : EventCursor) :
    List LogRow :=
  clickHouse.filter fun row =>
    !isLegacy row &&
    (row.createdAt > after.createdAt ||
      (row.createdAt = after.createdAt && row.eventID > after.eventID)) &&
    (row.createdAt < highWater.createdAt ||
      (row.createdAt = highWater.createdAt && row.eventID ≤ highWater.eventID))

def eventOrder (row row' : LogRow) : Bool :=
  row.createdAt < row'.createdAt || (row.createdAt = row'.createdAt && row.eventID ≤ row'.eventID)

def loadClickHouseEventBatch (clickHouse : List LogRow) (after highWater : EventCursor)
    (limit : ℤ) : List LogRow :=
  ((clickHouseEventWindow clickHouse after highWater).insertionSort
    fun row row' => eventOrder row row').take limit.toNat

/-- The columns of `logs` besides its primary key. -/
structure RelationalLogRow where
  userID : ℤ := 0
  createdAt : ℤ := 0
  type : ℤ := 0
  content : String := ""
  username : String := ""
  tokenName : String := ""
  modelName : String := ""
  quota : ℤ := 0
  promptTokens : ℤ := 0
  completionTokens : ℤ := 0
  useTime : ℤ := 0
  isStream : Bool := false
  channelID : ℤ := 0
  tokenID : ℤ := 0
  group : String := ""
  ip : String := ""
  requestID : String := ""
  upstreamRequestID : String := ""
  other : String := ""
deriving DecidableEq

def toRelationalLogRow (row : LogRow) : RelationalLogRow where
  userID := row.userID
  createdAt := row.createdAt
  type := row.type
  content := row.content
  username := row.username
  tokenName := row.tokenName
  modelName := row.modelName
  quota := row.quota
  promptTokens := row.promptTokens
  completionTokens := row.completionTokens
  useTime := row.useTime
  isStream := row.isStream
  channelID := row.channelID
  tokenID := row.tokenID
  group := row.group
  ip := row.ip
  requestID := row.requestID
  upstreamRequestID := row.upstreamRequestID
  other := row.other

/-- A row of `log_clickhouse_restore_events`. -/
structure LedgerRow where
  logID : ℤ := 0
  sourceCreatedAt : ℤ
  restoredAt : ℤ := 0
deriving DecidableEq

/-- The ledger by event id and the logs by primary key; also what an open transaction has written. -/
structure RestoreDb where
  ledger : Table String LedgerRow := ∅
  logs : Table ℤ RelationalLogRow := ∅
deriving DecidableEq

/-- The insert that does nothing on a conflict, and whether it affected a row. -/
def reserveRestoreEvent (db written : RestoreDb) (row : LogRow) : RestoreDb × Bool :=
  if (db.ledger.get? row.eventID).isSome then (written, false)
  else
    match written.ledger.insert? row.eventID { sourceCreatedAt := row.createdAt } with
    | some ledger => ({ written with ledger }, true)
    | none => (written, false)

/-- One round of the loop of `restoreBatch`: what the transaction has written, and by how much
`restored` grows.  `id` is the primary key that the database gives to a new log. -/
def restoreRow (db written : RestoreDb) (row : LogRow) (id : ℤ) : Except String (RestoreDb × ℤ) :=
  if row.eventID = "" then .error "ClickHouse row has empty event_id"
  else
    match reserveRestoreEvent db written row with
    | (written, false) => .ok (written, 0)
    | (written, true) =>
      .ok
        ({ logs := written.logs.put id (toRelationalLogRow row)
           ledger := written.ledger.modify row.eventID fun ledgerRow =>
            { ledgerRow with logID := id, restoredAt := row.createdAt } }, 1)

def RestoreDb.commit (db written : RestoreDb) : RestoreDb where
  ledger := db.ledger.overlay written.ledger
  logs := db.logs.overlay written.logs

inductive RestoreProcess
  /-- At the head of the loop of `RestoreClickHouseRows`. -/
  | looping (batchSize : ℤ) (state : RestoreState)
  /-- In the transaction of `restoreBatch`, before the rows of `todo`. -/
  | restoring (batchSize : ℤ) (state : RestoreState) (rows todo : List LogRow)
      (written : RestoreDb) (restored : ℤ)
  /-- Before `OnCommit`. -/
  | committed (batchSize : ℤ) (state : RestoreState)
  | returned (result : Except String RestoreState)
deriving DecidableEq

def RestoreProcess.written : RestoreProcess → RestoreDb
  | .restoring _ _ _ _ written _ => written
  | _ => {}

structure RestoreWorld where
  db : RestoreDb := {}
  processes : Table ℕ RestoreProcess := ∅
  /-- All states that a state file has held. -/
  saved : List RestoreState := []
  /-- The primary keys of the logs that others have written. -/
  others : List ℤ := []

/-- The checks of `RestoreClickHouseRows` before its loop; that of a complete state is the head of the
loop. -/
def restoreClickHouseRows (batchSize : ℤ) (state : RestoreState) : RestoreProcess :=
  if batchSize ≤ 0 then .returned (.error "batch size must be positive")
  else if compareEventCursor state.cursor state.highWater > 0 then
    .returned (.error "restore cursor is beyond high-water mark")
  else .looping batchSize state

/-- The state after a batch; the loop goes on only with a batch that has a last row. -/
def RestoreState.after (state : RestoreState) (rows : List LogRow) (restored : ℤ) : RestoreState :=
  match rows.getLast? with
  | some last =>
    { state with
      cursor := { createdAt := last.createdAt, eventID := last.eventID }
      rowsRestored := state.rowsRestored + restored }
  | none => state

inductive RestoreLabel
  /-- A process begins with a new state, whatever its high-water mark. -/
  | startNew (p : ℕ) (batchSize : ℤ) (highWater : EventCursor)
  /-- A process goes on with a state that was saved. -/
  | resume (p : ℕ) (batchSize : ℤ) (state : RestoreState)
  /-- The next call of a process; `id` is the next primary key of the logs. -/
  | proceed (p : ℕ) (id : ℤ)
  | crash (p : ℕ)
  /-- The application writes a log of its own. -/
  | log (id : ℤ) (row : RelationalLogRow)

/-- Keys that the database may give to a new log: no log has them, committed or not. -/
def RestoreWorld.IsFresh (w : RestoreWorld) (id : ℤ) : Prop :=
  w.db.logs.get? id = none ∧
    ∀ q process, w.processes.get? q = some process → process.written.logs.get? id = none

instance (w : RestoreWorld) (id : ℤ) : Decidable (w.IsFresh id) :=
  inferInstanceAs (Decidable (_ ∧ _))

/-- Another transaction holds the event. -/
def RestoreWorld.IsHeld (w : RestoreWorld) (p : ℕ) (eventID : String) : Prop :=
  ¬ ∀ q process, w.processes.get? q = some process →
    q = p ∨ process.written.ledger.get? eventID = none

instance (w : RestoreWorld) (p : ℕ) (eventID : String) : Decidable (w.IsHeld p eventID) :=
  inferInstanceAs (Decidable (¬ _))

def RestoreWorld.start (w : RestoreWorld) (p : ℕ) (batchSize : ℤ) (state : RestoreState) :
    Option RestoreWorld :=
  match w.processes.get? p with
  | none => some { w with processes := w.processes.put p (restoreClickHouseRows batchSize state) }
  | some _ => none

/-- The next call of the process `p`. -/
def RestoreWorld.proceed (clickHouse : List LogRow) (w : RestoreWorld) (p : ℕ) (id : ℤ) :
    Option RestoreWorld :=
  match w.processes.get? p with
  | some (.looping batchSize state) =>
    let process : RestoreProcess :=
      if state.complete then .returned (.ok state)
      else
        match loadClickHouseEventBatch clickHouse state.cursor state.highWater batchSize with
        | [] => .returned
            (.error "ClickHouse source ended before the captured restore high-water mark")
        | rows => .restoring batchSize state rows rows {} 0
    some { w with processes := w.processes.put p process }
  | some (.restoring batchSize state rows (row :: todo) written restored) =>
    if w.IsFresh id ∧ ¬ w.IsHeld p row.eventID then
      match restoreRow w.db written row id with
      | .error e => some { w with processes := w.processes.put p (.returned (.error e)) }
      | .ok (written, n) =>
        some
          { w with
            processes := w.processes.put p
              (.restoring batchSize state rows todo written (restored + n)) }
    else none
  | some (.restoring batchSize state rows [] written restored) =>
    some
      { w with
        db := w.db.commit written
        processes := w.processes.put p (.committed batchSize (state.after rows restored)) }
  | some (.committed batchSize state) =>
    some
      { w with
        saved := state :: w.saved
        processes := w.processes.put p (.looping batchSize state) }
  | some (.returned _) | none => none

def restoreStep (clickHouse : List LogRow) (w : RestoreWorld) : RestoreLabel → Option RestoreWorld
  | .startNew p batchSize highWater => w.start p batchSize { highWater }
  | .resume p batchSize state => if state ∈ w.saved then w.start p batchSize state else none
  | .proceed p id => w.proceed clickHouse p id
  | .crash p => some { w with processes := w.processes.erase p }
  | .log id row =>
    if w.IsFresh id then
      some
        { w with
          db := { w.db with logs := w.db.logs.put id row }
          others := id :: w.others }
    else none

end BeeApi.LogMigration
