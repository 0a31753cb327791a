import BeeApi.Lib.Run
import BeeApi.Lib.Table
import BeeApi.Lib.Window

/-!
# Backfill of historical logs

`Backfill` copies the rows of the source table up to a high-water mark into the ClickHouse table, batch
by batch in the order of the ids, and `log-migrate` runs it with a state file, saved before the copy and
after each batch.  Between two calls that leave the program new rows may appear in the source, and at each
of them the process may die; a call that fails ends the process.
-/

namespace BeeApi.LogMigration

/-- The columns of `logs`. -/
structure LogRow where
  id : ℤ := 0
  userID : ℤ := 0
  createdAt : ℤ := 0
  type : ℤ := 0
  content : String := ""
  username : String := ""
  tokenName : String := ""
  modelName : String := ""
  quota : ℤ := 0
  promptTokens : ℤ := 0
  completionTokens : ℤ := 0
  useTime : ℤ := 0
  isStream : Bool := false
  channelID : ℤ := 0
  tokenID : ℤ := 0
  group : String := ""
  ip : String := ""
  requestID : String := ""
  eventID : String := ""
  upstreamRequestID : String := ""
  other : String := ""
deriving DecidableEq

structure Cursor where
  createdAt : ℤ := 0
  id : ℤ := 0

def compareCursor (left right : Cursor) : ℤ :=
  if left.id < right.id then -1 else if left.id > right.id then 1 else 0

/-- The part of `State` that the copy reads and writes. -/
structure State where
  highWater : Cursor := {}
  cursor : Cursor := {}
  rowsCopied : ℤ := 0

def State.complete (state : State) : Bool := compareCursor state.cursor state.highWater ≥ 0

inductive Error
  | batchSize
  | beyondHighWater
  | sourceEnded
  | duplicate (eventID : String)
  | differentPayload (eventID : String)
  | incompleteWindow
  | movedBackwards

/-! ## The source

A table is the list of its visible rows in the order of their primary key. -/

def captureHighWater (source : List LogRow) : Cursor :=
  match source.getLast? with
  | some row => { createdAt := row.createdAt, id := row.id }
  | none => {}

def sourceWindow (source : List LogRow) (after highWater : Cursor) : List LogRow :=
  source.filter fun row => after.id < row.id ∧ row.id ≤ highWater.id

def loadSourceBatch (source : List LogRow) (after highWater : Cursor) (limit : ℤ) : List LogRow :=
  (sourceWindow source after highWater).take limit.toNat

/-- The verb `%020d`; a sign counts towards the width. -/
def sprintf020d (n : ℤ) : List Char :=
  if n < 0 then '-' :: (Nat.toDigits 10 n.natAbs).leftpad 19 '0'
  else (Nat.toDigits 10 n.natAbs).leftpad 20 '0'

def legacyEventID (createdAt id : ℤ) : String :=
  String.ofList ("legacy-".toList ++ sprintf020d createdAt ++ '-' :: sprintf020d id)

def normalizeMigrationRow (row : LogRow) : LogRow :=
  let eventID := legacyEventID row.createdAt row.id
  { row with
    eventID
    requestID := if row.requestID = "" then "legacy-request-" ++ eventID else row.requestID }

/-! ## The target -/

/-- The map that `filterExistingTargetRows` builds from the rows it finds. -/
def existingByEventID : List LogRow → Table String LogRow → Except Error (Table String LogRow)
  | [], found => .ok found
  | row :: rows, found =>
    match found.insert? row.eventID row with
    | none => .error (.duplicate row.eventID)
    | some found => existingByEventID rows found

def pendingRows (existing : Table String LogRow) : List LogRow → Except Error (List LogRow)
  | [] => .ok []
  | row :: rows =>
    match existing.get? row.eventID with
    | some current =>
      if current ≠ row then .error (.differentPayload row.eventID) else pendingRows existing rows
    | none => (pendingRows existing rows).map (row :: ·)

def filterExistingTargetRows (target rows : List LogRow) : Except Error (List LogRow) := do
  let eventIDs := rows.map LogRow.eventID
  let existing ← existingByEventID (target.filter fun row => row.eventID ∈ eventIDs) ∅
  pendingRows existing rows

/-- The state after a batch; the loop goes on only with a batch that has a last row. -/
def State.after (state : State) (sourceRows pending : List LogRow) : State :=
  match sourceRows.getLast? with
  | some last =>
    { state with
      cursor := { createdAt := last.createdAt, id := last.id }
      rowsCopied := state.rowsCopied + pending.length }
  | none => state

def advanceHighWater (source : List LogRow) (state : State) : Except Error State :=
  if !state.complete then .error .incompleteWindow
  else
    let highWater := captureHighWater source
    if compareCursor highWater state.highWater < 0 then .error .movedBackwards
    else .ok { state with highWater }

/-! ## A run of `log-migrate` -/

inductive Process
  | idle
  /-- Before `LoadState`. -/
  | started (advance : Bool) (batchSize : ℤ)
  /-- Before `SaveState` of the initial state. -/
  | captured (advance : Bool) (batchSize : ℤ) (state : State)
  /-- Before `AdvanceHighWater`, if it was asked for. -/
  | ready (advance : Bool) (batchSize : ℤ) (state : State)
  /-- Before `SaveState` of the advanced state. -/
  | advanced (batchSize : ℤ) (state : State)
  /-- At the head of the loop of `Backfill`. -/
  | looping (batchSize : ℤ) (state : State)
  /-- Before `filterExistingTargetRows`. -/
  | loaded (batchSize : ℤ) (state : State) (sourceRows : List LogRow)
  /-- Before the insert. -/
  | filtered (batchSize : ℤ) (state : State) (sourceRows pending : List LogRow)
  /-- Before `OnCommit`. -/
  | inserted (batchSize : ℤ) (state : State)
  /-- The copy is over, or a call has reported an error of its own. -/
  | returned (result : Except Error State)

structure World where
  source : List LogRow
  target : List LogRow := []
  saved : Option State := none
  process : Process := .idle

/-- The checks of `Backfill` before its loop; that of a complete state is the head of the loop. -/
def backfill (batchSize : ℤ) (state : State) : Process :=
  if batchSize ≤ 0 then .returned (.error .batchSize)
  else if compareCursor state.cursor state.highWater > 0 then .returned (.error .beyondHighWater)
  else .looping batchSize state

def World.proceed (w : World) : Option World :=
  match w.process with
  | .idle => none
  | .started advance batchSize =>
    match w.saved with
    | none =>
      let highWater := captureHighWater w.source
      some { w with process := .captured advance batchSize { highWater } }
    | some state => some { w with process := .ready advance batchSize state }
  | .captured advance batchSize state =>
    some { w with saved := some state, process := .ready advance batchSize state }
  | .ready true batchSize state =>
    match advanceHighWater w.source state with
    | .error e => some { w with process := .returned (.error e) }
    | .ok state => some { w with process := .advanced batchSize state }
  | .ready false batchSize state => some { w with process := backfill batchSize state }
  | .advanced batchSize state =>
    some { w with saved := some state, process := backfill batchSize state }
  | .looping batchSize state =>
    if state.complete then some { w with process := .returned (.ok state) }
    else
      match loadSourceBatch w.source state.cursor state.highWater batchSize with
      | [] => some { w with process := .returned (.error .sourceEnded) }
      | sourceRows => some { w with process := .loaded batchSize state sourceRows }
  | .loaded batchSize state sourceRows =>
    match filterExistingTargetRows w.target (sourceRows.map normalizeMigrationRow) with
    | .error e => some { w with process := .returned (.error e) }
    | .ok pending => some { w with process := .filtered batchSize state sourceRows pending }
  | .filtered batchSize state sourceRows pending =>
    some
      { w with
        target := w.target ++ pending
        process := .inserted batchSize (state.after sourceRows pending) }
  | .inserted batchSize state =>
    some { w with saved := some state, process := .looping batchSize state }
  | .returned _ => none

inductive Label
  /-- A row becomes visible in the source. -/
  | grow (row : LogRow)
  /-- The program is started; the lock of the state file admits one process. -/
  | start (advance : Bool) (batchSize : ℤ)
  | proceed
  | crash

def step (w : World) : Label → Option World
  | .grow row =>
    if ∀ r ∈ w.source, r.id < row.id then some { w with source := w.source ++ [row] } else none
  | .start advance batchSize =>
    match w.process with
    | .idle | .returned _ => some { w with process := .started advance batchSize }
    | _ => none
  | .proceed => w.proceed
  | .crash => some { w with process := .idle }

end BeeApi.LogMigration
