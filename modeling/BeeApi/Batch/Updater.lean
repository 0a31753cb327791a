import BeeApi.Model.DeleteLedger

/-!
# The batch updater

`model/batch_updater.go`: deltas of quota and usage counters are collected in memory and written in
groups.  `stores` holds the live deltas, `inFlight` those of groups that a flush has taken and not yet
confirmed, and `operationIDs` the identity of each group in flight; the slice of maps of the source is one
table.  A method that takes the mutex is a function on the state, and `Flush` is a process (`FlushRun`).
-/

namespace BeeApi.Batch

/-! ## Data -/

def kindOfCode (code : ℤ) : Option BatchUpdateType :=
  [BatchUpdateType.userQuota, .tokenQuota, .usedQuota, .channelUsedQuota, .requestCount].find?
    fun kind => kind.code = code

def maxInt : ℤ := 2 ^ 63 - 1

def minInt : ℤ := -maxInt - 1

/-- The value of a Go `int`. -/
def Fits (x : ℤ) : Prop := minInt ≤ x ∧ x ≤ maxInt

/-- `BatchUpdate` as a caller of `AddMany` passes it. -/
structure RawBatchUpdate where
  kind : ℤ
  id : ℤ
  delta : ℤ
deriving DecidableEq

/-- `BatchUpdate` with a validated kind. -/
structure BatchUpdate where
  kind : BatchUpdateType
  id : ℤ
  delta : ℤ
deriving DecidableEq

def BatchUpdate.slot (u : BatchUpdate) : BatchUpdateType × ℤ := (u.kind, u.id)

abbrev Stores := Table (BatchUpdateType × ℤ) ℤ

inductive GroupKey
  | user (id : ℤ)
  | token (id : ℤ)
  | channel (id : ℤ)
deriving DecidableEq

def GroupKey.scope : GroupKey → String
  | .user _ => "user"
  | .token _ => "token"
  | .channel _ => "channel"

def GroupKey.id : GroupKey → ℤ
  | .user id => id
  | .token id => id
  | .channel id => id

def GroupKey.text (key : GroupKey) : String := s!"{key.scope}:{key.id}"

inductive BatchUpdaterState
  | new
  | running
  | stopping
  | stopped
deriving DecidableEq

def BatchUpdaterState.text : BatchUpdaterState → String
  | .new => "new"
  | .running => "running"
  | .stopping => "stopping"
  | .stopped => "stopped"

/-- The errors of the updater; `applier` carries the text of an error of the applier. -/
inductive BatchUpdaterError
  | alreadyStarted (state : BatchUpdaterState)
  | notRunning
  | notAccepting (state : BatchUpdaterState)
  | invalidKind (kind : ℤ)
  | invalidID (id : ℤ)
  | overflow (kind id : ℤ)
  | overflowInFlight (kind id : ℤ)
  | groupEmpty
  | groupMultipleIDs
  | groupInvalidUserKind (kind : ℤ)
  | groupTokenSize
  | groupChannelSize
  | identityMissing (key : GroupKey)
  | identityMismatch (key : GroupKey)
  | inFlightMismatch (kind id : ℤ)
  | applier (text : String)
deriving DecidableEq

def BatchUpdaterError.text : BatchUpdaterError → String
  | .alreadyStarted state => s!"batch updater already started: state={state.text}"
  | .notRunning => "batch updater is not running"
  | .notAccepting state => s!"batch updater is not accepting updates: state={state.text}"
  | .invalidKind kind => s!"invalid batch update kind {kind}"
  | .invalidID id => s!"invalid batch update id {id}"
  | .overflow kind id => s!"batch update overflow for kind={kind} id={id}"
  | .overflowInFlight kind id =>
    s!"batch update overflow with in-flight delta for kind={kind} id={id}"
  | .groupEmpty => "batch update group is empty"
  | .groupMultipleIDs => "batch update group contains multiple ids"
  | .groupInvalidUserKind kind => s!"invalid user batch update kind {kind}"
  | .groupTokenSize => "token batch update group must contain one delta"
  | .groupChannelSize => "channel batch update group must contain one delta"
  | .identityMissing key => s!"batch updater operation identity missing for group={key.text}"
  | .identityMismatch key => s!"batch updater operation identity mismatch for group={key.text}"
  | .inFlightMismatch kind id =>
    s!"batch updater in-flight state mismatch for kind={kind} id={id}"
  | .applier text => text

/-- `BatchUpdater`.  `drawn` counts the operation ids handed out so far. -/
structure BatchUpdater where
  state : BatchUpdaterState := .new
  stores : Stores := ∅
  inFlight : Stores := ∅
  operationIDs : Table GroupKey String := ∅
  drawn : ℕ := 0
deriving DecidableEq

/-- The delta at a slot of a Go map, zero when absent. -/
def Stores.delta (stores : Stores) (slot : BatchUpdateType × ℤ) : ℤ := (stores.get? slot).getD 0

/-- `checkedAddInt`; `none` on overflow. -/
def checkedAddInt (left right : ℤ) : Option ℤ :=
  if 0 < right ∧ maxInt - right < left then none
  else if right < 0 ∧ left < minInt - right then none
  else some (left + right)

/-- One round of the validating loop of `AddMany`. -/
def addProspective (u : BatchUpdater) (prospective : Stores) (update : RawBatchUpdate) :
    Except BatchUpdaterError Stores :=
  match kindOfCode update.kind with
  | none => .error (.invalidKind update.kind)
  | some kind =>
    if update.id ≤ 0 then .error (.invalidID update.id)
    else
      let slot := (kind, update.id)
      let live := (prospective.get? slot).getD (u.stores.delta slot)
      match checkedAddInt live update.delta with
      | none => .error (.overflow update.kind update.id)
      | some nextLive =>
        match checkedAddInt (u.inFlight.delta slot) nextLive with
        | none => .error (.overflowInFlight update.kind update.id)
        | some _ => .ok (prospective.put slot nextLive)

/-- The writing loop of `AddMany`. -/
def storeProspective (stores : Stores) (entry : (BatchUpdateType × ℤ) × ℤ) : Stores :=
  if entry.2 = 0 then stores.erase entry.1 else stores.put entry.1 entry.2

/-- `AddMany`: the updater afterwards and the error it returns. -/
def addMany (u : BatchUpdater) (updates : List RawBatchUpdate) :
    BatchUpdater × Option BatchUpdaterError :=
  if updates = [] then (u, none)
  else if u.state ≠ .running then (u, some (.notAccepting u.state))
  else
    match updates.foldlM (addProspective u) ∅ with
    | .error e => (u, some e)
    | .ok prospective => ({ u with stores := prospective.rows.foldl storeProspective u.stores }, none)

def sortedBatchIDs (ids : List ℤ) : List ℤ := ids.dedup.insertionSort (· ≤ ·)

def batchIDs (snapshot : Stores) (kinds : List BatchUpdateType) : List ℤ :=
  (snapshot.keys.filter fun slot => slot.1 ∈ kinds).map Prod.snd

/-- The deltas of one entity, in the order of `kinds`. -/
def batchGroup (snapshot : Stores) (kinds : List BatchUpdateType) (id : ℤ) : List BatchUpdate :=
  kinds.filterMap fun kind => (snapshot.get? (kind, id)).map fun delta => ⟨kind, id, delta⟩

def batchGroups (snapshot : Stores) (kinds : List BatchUpdateType) : List (List BatchUpdate) :=
  (sortedBatchIDs (batchIDs snapshot kinds)).map (batchGroup snapshot kinds)

/-- `buildBatchUpdateGroups`: users first, then tokens and channels. -/
def buildBatchUpdateGroups (snapshot : Stores) : List (List BatchUpdate) :=
  batchGroups snapshot userDeleteKinds ++ batchGroups snapshot [.tokenQuota] ++
    batchGroups snapshot [.channelUsedQuota]

def batchUpdateGroupKey : List BatchUpdate → Except BatchUpdaterError GroupKey
  | [] => .error .groupEmpty
  | first :: rest =>
    let group := first :: rest
    if group.any fun update => update.id != first.id then .error .groupMultipleIDs
    else
      match first.kind with
      | .userQuota | .usedQuota | .requestCount =>
        match group.find? fun update => update.kind ∉ userDeleteKinds with
        | some update => .error (.groupInvalidUserKind update.kind.code)
        | none => .ok (.user first.id)
      | .tokenQuota => if rest ≠ [] then .error .groupTokenSize else .ok (.token first.id)
      | .channelUsedQuota => if rest ≠ [] then .error .groupChannelSize else .ok (.channel first.id)

/-! ## Flushing -/

structure BatchUpdateOperation where
  key : GroupKey
  operationID : String
  updates : List BatchUpdate
deriving DecidableEq

section Flush

-- the values that `common.GetUUID` returns, in the order they are drawn
variable (uuid : ℕ → String)

/-- `newFlushOperationID("batch")` for the `n`-th draw. -/
def newFlushOperationID (n : ℕ) : String := "batch-" ++ uuid n

/-- One round of the loop of `prepareInFlightLocked`. -/
def prepareGroup (u : BatchUpdater) (group : List BatchUpdate) :
    Except BatchUpdaterError BatchUpdater :=
  match batchUpdateGroupKey group with
  | .error e => .error e
  | .ok key =>
    if (u.operationIDs.get? key).getD "" ≠ "" then .ok u
    else
      .ok
        { u with
          inFlight := group.foldl (fun stores update => stores.put update.slot update.delta) u.inFlight
          stores := group.foldl (fun stores update => stores.erase update.slot) u.stores
          operationIDs := u.operationIDs.put key (newFlushOperationID uuid u.drawn)
          drawn := u.drawn + 1 }

def prepareInFlightLocked (u : BatchUpdater) : Except BatchUpdaterError BatchUpdater :=
  (buildBatchUpdateGroups u.stores).foldlM (prepareGroup uuid) u

def batchOperation (u : BatchUpdater) (group : List BatchUpdate) :
    Except BatchUpdaterError BatchUpdateOperation :=
  match batchUpdateGroupKey group with
  | .error e => .error e
  | .ok key =>
    let operationID := (u.operationIDs.get? key).getD ""
    if operationID = "" then .error (.identityMissing key)
    else .ok { key, operationID, updates := group }

/-- The part of `Flush` under the first lock: the updater afterwards and the operations to apply,
or the error it returns. -/
def beginFlush (u : BatchUpdater) : BatchUpdater × Except BatchUpdaterError (List BatchUpdateOperation) :=
  match u.state with
  | .new => (u, .error .notRunning)
  | .stopped => (u, .ok [])
  | _ =>
    match prepareInFlightLocked uuid u with
    | .error e => (u, .error e)
    | .ok u => (u, (buildBatchUpdateGroups u.inFlight).mapM (batchOperation u))

/-- `finalizeGroup`: the updater afterwards and the error it returns. -/
def finalizeGroup (u : BatchUpdater) (operation : BatchUpdateOperation) (failed : Bool) :
    BatchUpdater × Option BatchUpdaterError :=
  if (u.operationIDs.get? operation.key).getD "" ≠ operation.operationID then
    (u, some (.identityMismatch operation.key))
  else
    match operation.updates.find? fun update => u.inFlight.get? update.slot ≠ some update.delta with
    | some update => (u, some (.inFlightMismatch update.kind.code update.id))
    | none =>
      if failed then (u, none)
      else
        ({ u with
            inFlight := operation.updates.foldl (fun stores update => stores.erase update.slot)
              u.inFlight
            operationIDs := u.operationIDs.erase operation.key }, none)

/-! ## The system of the updater -/

/-- A `Flush` that holds the gate: the operations still to apply, and the confirmed operation ids
whose ledger rows are still to be deleted. -/
structure FlushRun where
  operations : List BatchUpdateOperation
  confirmed : List String := []
deriving DecidableEq

/-- The updater, the flush that holds the gate, and every error returned so far. -/
structure System where
  updater : BatchUpdater := {}
  flush : Option FlushRun := none
  errors : List BatchUpdaterError := []
deriving DecidableEq

/-- The steps of the callers.  `apply` carries what the applier returns for the next operation, or
the error of the cancelled context; `cleanup` says whether the deletion of a chunk succeeded. -/
inductive Event
  | start
  | addMany (updates : List RawBatchUpdate)
  | flush
  | apply (result : Option String)
  | cleanup (succeeded : Bool)
  | release
  | stop
  | stopped
deriving DecidableEq

def flushOperationCleanupChunkSize : ℕ := 200

/-- The errors of a step join the history. -/
def System.log (s : System) (error : Option BatchUpdaterError) : System :=
  { s with errors := error.toList ++ s.errors }

/-- `Flush` takes the gate and prepares its operations; it gives the gate back at once when there
is nothing to do. -/
def System.beginFlush (s : System) : System :=
  match Batch.beginFlush uuid s.updater with
  | (updater, .error e) => { s with updater }.log (some e)
  | (updater, .ok operations) =>
    { s with updater, flush := if operations = [] then none else some { operations } }

/-- One round of the loop of `Flush` over its operations. -/
def System.apply (s : System) (run : FlushRun) (operation : BatchUpdateOperation)
    (rest : List BatchUpdateOperation) (result : Option String) : System :=
  let (updater, finalizeError) := finalizeGroup s.updater operation result.isSome
  let error := (result.map BatchUpdaterError.applier).or finalizeError
  let confirmed := if error.isSome then run.confirmed else run.confirmed ++ [operation.operationID]
  { s with updater, flush := some { operations := rest, confirmed } }.log error

def System.step (s : System) : Event → Option System
  | .start =>
    if s.updater.state ≠ .new then some (s.log (some (.alreadyStarted s.updater.state)))
    else some { s with updater := { s.updater with state := .running } }
  | .addMany updates =>
    let (updater, error) := addMany s.updater updates
    some ({ s with updater }.log error)
  | .flush => if s.flush.isSome then none else some (s.beginFlush uuid)
  | .apply result =>
    match s.flush with
    | some run =>
      match run.operations with
      | operation :: rest => some (s.apply run operation rest result)
      | [] => none
    | none => none
  | .cleanup succeeded =>
    match s.flush with
    | some ⟨[], id :: ids⟩ =>
      let confirmed :=
        if succeeded then (id :: ids).drop flushOperationCleanupChunkSize else []
      some { s with flush := some ⟨[], confirmed⟩ }
    | _ => none
  | .release => if s.flush = some ⟨[], []⟩ then some { s with flush := none } else none
  | .stop =>
    match s.updater.state with
    | .new => some (s.log (some .notRunning))
    | .running => some { s with updater := { s.updater with state := .stopping } }
    | _ => some s
  | .stopped =>
    if s.updater.state = .stopping ∧ s.updater.stores.rows = [] ∧ s.updater.inFlight.rows = [] then
      some { s with updater := { s.updater with state := .stopped } }
    else none

end Flush

end BeeApi.Batch
