import BeeApi.Batch.Updater

/-!
# The default applier

`applyDefaultBatchUpdates` writes one group in one transaction, which also inserts the
`FlushOperationLedger` row of the operation, so that a replay after an ambiguous commit finds the row.  A
group whose target is gone goes to the delete ledger.  How the database treats a body that succeeds is an
input (`Commit`), and so is whether the lookup after a failed transaction works.
-/

namespace BeeApi.Batch

open Strings

/-! ## Discarding the deltas of a deleted target -/

/-- `incrementDiscardedBatchUpdate`; `none` when no ledger row matched. -/
def incrementDiscardedBatchUpdate (db : Db) (update : BatchUpdate) : Option Db :=
  match db.affected db.batchUpdateDeleteLedgers
      (db.batchUpdateDeleteLedgers.updateRow update.slot (fun _ => true) fun ledger =>
        { ledger with
          discardedDelta := ledger.discardedDelta + update.delta
          discardedCount := ledger.discardedCount + 1 }) with
  | some ledgers => some { db with batchUpdateDeleteLedgers := ledgers }
  | none => none

/-- The time at which the target of an update was soft-deleted; `none` for a target that is active
or gone.  Channels have no soft delete. -/
def softDeletedAt (db : Db) (update : BatchUpdate) : Option ℤ :=
  match update.kind with
  | .userQuota | .usedQuota | .requestCount => (db.users.get? update.id).bind User.deletedAt
  | .tokenQuota => (db.tokens.get? update.id).bind Token.deletedAt
  | .channelUsedQuota => none

/-- `createLegacySoftDeleteLedger`: the ledger row of a target that was soft-deleted before
deletions wrote ledger rows; `none` when there is no such target. -/
def createLegacySoftDeleteLedger (db : Db) (update : BatchUpdate) : Except String (Option Db) :=
  match softDeletedAt db update with
  | none => .ok none
  | some deletedAt =>
    createBatchUpdateDeleteLedgersAt db update.id deletedAt [update.kind] >>= fun db =>
      .ok (some db)

def discardDeletedBatchUpdate (entity : String) (entityId : ℤ) (db : Db) (update : BatchUpdate) :
    Except String Db :=
  match incrementDiscardedBatchUpdate db update with
  | some db => .ok db
  | none =>
    createLegacySoftDeleteLedger db update >>= fun created =>
      match created with
      | none => .error s!"update {entity} id {entityId} affected 0 rows, want 1"
      | some db =>
        match incrementDiscardedBatchUpdate db update with
        | some db => .ok db
        | none =>
          .error ("batch update delete ledger disappeared for " ++
            s!"kind={update.kind.code} entity_id={update.id}")

def discardDeletedBatchUpdates (db : Db) (entity : String) (entityId : ℤ)
    (updates : List BatchUpdate) : Except String Db :=
  updates.foldlM (discardDeletedBatchUpdate entity entityId) db

/-! ## Writing a group -/

def flushOperationResultBatchUpdated : String := "batch-updated"

def flushOperationResultBatchDiscarded : String := "batch-discarded"

/-- One entry of the `values` map of the user branch: the column is set from the row before the
update. -/
def userValue (user row : User) (update : BatchUpdate) : User :=
  match update.kind with
  | .userQuota => { row with quota := user.quota + update.delta }
  | .usedQuota => { row with usedQuota := user.usedQuota + update.delta }
  | .requestCount => { row with requestCount := user.requestCount + update.delta }
  | _ => row

def userValues (updates : List BatchUpdate) (user : User) : User :=
  updates.foldl (userValue user) user

/-- The switch on `RowsAffected`, which is the same for the three entities: the updated database,
or the discarded group. -/
def writtenOrDiscarded (db : Db) (entity : String) (id : ℤ) (updates : List BatchUpdate) :
    Option Db → Except String (Db × String)
  | some db => .ok (db, flushOperationResultBatchUpdated)
  | none =>
    discardDeletedBatchUpdates db entity id updates >>= fun db =>
      .ok (db, flushOperationResultBatchDiscarded)

def applyUserUpdates (db : Db) (id : ℤ) (updates : List BatchUpdate) :
    Except String (Db × String) :=
  match updates.find? fun update => update.kind ∉ userDeleteKinds with
  | some update => .error s!"invalid user batch update kind {update.kind.code}"
  | none =>
    writtenOrDiscarded db "user" id updates
      ((db.affected db.users
        (db.users.updateRow id (fun u => u.deletedAt.isNone) (userValues updates))).map
          fun users => { db with users })

def applyTokenUpdates (db : Db) (now id : ℤ) : List BatchUpdate → Except String (Db × String)
  | [update] =>
    writtenOrDiscarded db "token" id [update]
      ((db.affected db.tokens
        (db.tokens.updateRow id (fun t => t.deletedAt.isNone) fun t => { t with
            remainQuota := t.remainQuota + update.delta
            usedQuota := t.usedQuota - update.delta
            accessedTime := now })).map
          fun tokens => { db with tokens })
  | _ => .error "token batch update group must contain one delta"

def applyChannelUpdates (db : Db) (id : ℤ) : List BatchUpdate → Except String (Db × String)
  | [update] =>
    writtenOrDiscarded db "channel" id [update]
      ((db.affected db.channels
        (db.channels.updateRow id (fun _ => true) fun c =>
          { c with usedQuota := c.usedQuota + update.delta })).map
          fun channels => { db with channels })
  | _ => .error "channel batch update group must contain one delta"

/-- The function that `applyDefaultBatchUpdates` runs inside the transaction. -/
def applyGroup (db : Db) (now : ℤ) (updates : List BatchUpdate) : Except String (Db × String) :=
  match updates with
  | [] => .error "batch update group is empty"
  | first :: _ =>
    match first.kind with
    | .userQuota | .usedQuota | .requestCount => applyUserUpdates db first.id updates
    | .tokenQuota => applyTokenUpdates db now first.id updates
    | .channelUsedQuota => applyChannelUpdates db first.id updates

/-! ## The flush operation -/

/-- What happens to a transaction whose body succeeds. -/
inductive Commit
  | committed
  | rolledBack (error : String)
  | committedUnreported (error : String)
deriving DecidableEq

def flushOperationIdentityMismatchError (operationID : String) (ledger : FlushOperationLedger)
    (scope payloadHash : String) : String :=
  s!"flush operation {operationID} identity mismatch: stored scope=\"{ledger.scope}\" " ++
    s!"payload_hash=\"{ledger.payloadHash}\", replay scope=\"{scope}\" " ++
    s!"payload_hash=\"{payloadHash}\""

/-- `Create` with `OnConflict{DoNothing}`. -/
def insertFlushOperationLedger (db : Db) (operationID : String) (ledger : FlushOperationLedger) :
    Db :=
  match db.flushOperationLedgers.insert? operationID ledger with
  | some ledgers => { db with flushOperationLedgers := ledgers }
  | none => db

/-- The update of `result_code`, which has to affect the row. -/
def persistFlushOperationResult (db : Db) (operationID appliedResult : String) :
    Except String (Db × String) :=
  match db.affected db.flushOperationLedgers
      (db.flushOperationLedgers.updateRow operationID (fun _ => true) fun ledger =>
        { ledger with resultCode := appliedResult }) with
  | some ledgers => .ok ({ db with flushOperationLedgers := ledgers }, appliedResult)
  | none => .error s!"persist flush operation {operationID} result affected 0 rows, want 1"

/-- The body of the transaction of `applyFlushOperation`. -/
def flushOperationTx (db : Db) (now : ℤ) (operationID scope payloadHash : String)
    (apply : Db → Except String (Db × String)) : Except String (Db × String) :=
  let db := insertFlushOperationLedger db operationID { scope, payloadHash, appliedAt := now }
  match db.flushOperationLedgers.get? operationID with
  | none => .error "record not found"
  | some existing =>
    if existing.scope ≠ scope ∨ existing.payloadHash ≠ payloadHash then
      .error (flushOperationIdentityMismatchError operationID existing scope payloadHash)
    else if trimSpace existing.resultCode ≠ "" then .ok (db, existing.resultCode)
    else
      apply db >>= fun applied =>
        if trimSpace applied.2 = "" then
          .error s!"flush operation {operationID} returned an empty result code"
        else persistFlushOperationResult applied.1 operationID applied.2

def validateFlushOperationLedger (operationID : String) (ledger : FlushOperationLedger)
    (scope payloadHash : String) : Except String Unit :=
  if ledger.scope ≠ scope ∨ ledger.payloadHash ≠ payloadHash then
    .error (flushOperationIdentityMismatchError operationID ledger scope payloadHash)
  else if trimSpace ledger.resultCode = "" then
    .error s!"flush operation {operationID} has no committed result"
  else .ok ()

/-- A commit error can be ambiguous: the durable identity decides whether the caller should retry
the business mutation. -/
def lookupFlushOperation (db : Db) (operationID scope payloadHash transactionErr : String)
    (lookupFails : Bool) : Except String String :=
  match if lookupFails then none else db.flushOperationLedgers.get? operationID with
  | none => .error transactionErr
  | some existing =>
    validateFlushOperationLedger operationID existing scope payloadHash >>= fun _ =>
      .ok existing.resultCode

/-- `applyFlushOperation`: the database afterwards, and the result code or the error. -/
def applyFlushOperation (db : Db) (now : ℤ) (operationID scope payloadHash : String)
    (apply : Db → Except String (Db × String)) (commit : Commit) (lookupFails : Bool) :
    Db × Except String String :=
  if trimSpace operationID = "" then (db, .error "flush operation id is empty")
  else if trimSpace scope = "" then (db, .error "flush operation scope is empty")
  else if payloadHash.length ≠ 64 then
    (db, .error s!"flush operation payload hash has length {payloadHash.length}, want 64")
  else
    match flushOperationTx db now operationID scope payloadHash apply, commit with
    | .error e, _ => (db, lookupFlushOperation db operationID scope payloadHash e lookupFails)
    | .ok (db', resultCode), .committed => (db', .ok resultCode)
    | .ok _, .rolledBack e =>
      (db, lookupFlushOperation db operationID scope payloadHash e lookupFails)
    | .ok (db', _), .committedUnreported e =>
      (db', lookupFlushOperation db' operationID scope payloadHash e lookupFails)

def HasResult (db : Db) (op : String) : Prop :=
  ∀ ledger, db.flushOperationLedgers.get? op = some ledger → trimSpace ledger.resultCode ≠ ""

/-- What a flush operation can do to the database: nothing, or run its mutation for the first time
and leave its ledger row behind. -/
inductive Flushed (db : Db) (op : String) (apply : Db → Except String (Db × String)) (db' : Db) :
    Prop
  | same (h : db' = db)
  | applied (ledger : FlushOperationLedger) (ledgers ledgers' : Table String FlushOperationLedger)
      (db₁ : Db) (code : String) (hnone : db.flushOperationLedgers.get? op = none)
      (hresult : trimSpace ledger.resultCode ≠ "")
      (happlied : apply { db with flushOperationLedgers := ledgers } = .ok (db₁, code))
      (hdb : db' = { db₁ with flushOperationLedgers := ledgers' })
      (hrows : ∀ op', ledgers'.get? op' =
        if op' = op then some ledger else db.flushOperationLedgers.get? op')

theorem affected_eq_some {κ ρ : Type} [DecidableEq κ] [DecidableEq ρ] {db : Db}
    {before t : Table κ ρ} {after : Option (Table κ ρ)} (h : db.affected before after = some t) :
    after = some t := by
  exact (Option.filter_eq_some_iff.1 h).1

theorem flushOperationTx_spec {db db' : Db} {now : ℤ} {op scope payloadHash code : String}
    {apply : Db → Except String (Db × String)}
    (happly : ∀ db₁ db₂ code, apply db₁ = .ok (db₂, code) →
      db₂.flushOperationLedgers = db₁.flushOperationLedgers)
    (hresult : HasResult db op)
    (h : flushOperationTx db now op scope payloadHash apply = .ok (db', code)) :
    Flushed db op apply db' ∧ db'.flushOperationLedgers.get? op ≠ none := by
  unfold flushOperationTx insertFlushOperationLedger at h
  cases hinsert : db.flushOperationLedgers.insert? op
      { scope, payloadHash, appliedAt := now } with
  | none =>
    rw [hinsert] at h
    dsimp only at h
    cases hget : db.flushOperationLedgers.get? op with
    | none =>
      rw [hget] at h
      cases h
    | some existing =>
      rw [hget] at h
      dsimp only at h
      split_ifs at h with hmismatch hblank
      · cases h
        exact ⟨.same rfl, by simp [hget]⟩
      · exact absurd (not_not.1 hblank) (hresult existing hget)
  | some ledgers =>
    rw [hinsert] at h
    dsimp only at h
    have hnone := ((Table.insert?_eq_some_iff _ _ _ _).1 hinsert).1
    have hnew := Table.get?_of_insert? hinsert
    rw [hnew, if_pos rfl] at h
    dsimp only at h
    rw [if_neg (by simp), if_neg (not_not.2 (by decide))] at h
    obtain ⟨⟨db₁, appliedResult⟩, h₁, h₂⟩ := Except.bind_eq_ok_iff.1 h
    have hflush := happly _ _ _ h₁
    split_ifs at h₂ with hempty
    unfold persistFlushOperationResult at h₂
    split at h₂
    · rename_i ledgers' hledgers'
      obtain ⟨rfl, rfl⟩ := Prod.mk.inj (Except.ok.inj h₂)
      obtain ⟨ledger, hget, -, rfl⟩ :=
        (Table.updateRow_eq_some_iff _ _ _ _ _).1 (affected_eq_some hledgers')
      have hrow : ∀ op', (db₁.flushOperationLedgers.modify op fun ledger =>
          { ledger with resultCode := appliedResult }).get? op' =
          if op' = op then some { ledger with resultCode := appliedResult }
          else db.flushOperationLedgers.get? op' := by
        intro op'
        rw [Table.get?_modify]
        split_ifs with hop
        · rw [hop, hget]
          rfl
        · rw [hflush, hnew, if_neg hop]
      refine ⟨.applied { ledger with resultCode := appliedResult } ledgers _ db₁ appliedResult
        hnone hempty h₁ rfl hrow, ?_⟩
      rw [show _ = _ from hrow op, if_pos rfl]
      simp
    · cases h₂

theorem lookupFlushOperation_spec {db : Db} {op scope payloadHash e code : String}
    {lookupFails : Bool}
    (h : lookupFlushOperation db op scope payloadHash e lookupFails = .ok code) :
    db.flushOperationLedgers.get? op ≠ none := by
  unfold lookupFlushOperation at h
  split at h
  · cases h
  · rename_i existing hexisting
    split_ifs at hexisting
    simp [hexisting]

/-- A flush operation applies its mutation at most once, and reports success only when its ledger
row is there. -/
theorem applyFlushOperation_spec {db : Db} {op : String}
    {apply : Db → Except String (Db × String)} (now : ℤ) (scope payloadHash : String)
    (commit : Commit) (lookupFails : Bool) (happly : ∀ db₁ db₂ code, apply db₁ = .ok (db₂, code) →
      db₂.flushOperationLedgers = db₁.flushOperationLedgers)
    (hresult : HasResult db op) :
    Flushed db op apply
      (applyFlushOperation db now op scope payloadHash apply commit lookupFails).1 ∧
    ∀ code, (applyFlushOperation db now op scope payloadHash apply commit lookupFails).2 =
        .ok code →
      (applyFlushOperation db now op scope payloadHash apply commit
        lookupFails).1.flushOperationLedgers.get? op ≠ none := by
  unfold applyFlushOperation
  split_ifs with h₁ h₂ h₃
  · exact ⟨.same rfl, by simp⟩
  · exact ⟨.same rfl, by simp⟩
  · exact ⟨.same rfl, by simp⟩
  · cases htx : flushOperationTx db now op scope payloadHash apply with
    | error e => exact ⟨.same rfl, fun _ h => lookupFlushOperation_spec h⟩
    | ok result =>
      obtain ⟨db', code⟩ := result
      obtain ⟨hflushed, hrow⟩ := flushOperationTx_spec happly hresult htx
      cases commit with
      | committed | committedUnreported => exact ⟨hflushed, fun _ _ => hrow⟩
      | rolledBack e => exact ⟨.same rfl, fun _ h => lookupFlushOperation_spec h⟩

/-- One call of the applier by `Flush`.  It is `refused` before any transaction when the context is
cancelled or when the ticket of the inviter reward cannot be reserved. -/
inductive Attempt
  | refused (error : String)
  | transaction (commit : Commit) (lookupFails : Bool)

def batchUpdateOperationScope (updates : List BatchUpdate) : Except BatchUpdaterError String :=
  match batchUpdateGroupKey updates with
  | .error e => .error e
  | .ok key => .ok ("batch-" ++ key.scope)

/-- `applyDefaultBatchUpdates` under the context of an operation: the database afterwards and the
error it returns.  `payloadHash` is `flushOperationPayloadHash`, the hex digest of the group. -/
def applyDefaultBatchUpdates (payloadHash : List BatchUpdate → String) (db : Db) (now : ℤ)
    (operationID : String) (updates : List BatchUpdate) (attempt : Attempt) :
    Db × Option String :=
  match updates with
  | [] => (db, none)
  | first :: _ =>
    if updates.any fun update => update.id != first.id then
      (db, some "default batch update group contains multiple ids")
    else
      match batchUpdateOperationScope updates, attempt with
      | .error e, _ => (db, some e.text)
      | .ok _, .refused e => (db, some e)
      | .ok scope, .transaction commit lookupFails =>
        match applyFlushOperation db now operationID scope (payloadHash updates)
            (fun db => applyGroup db now updates) commit lookupFails with
        | (db, .ok _) => (db, none)
        | (db, .error e) => (db, some e)

/-- `deleteFlushOperationLedgers` for one chunk of ids. -/
def deleteFlushOperationLedgers (db : Db) (operationIDs : List String) : Db :=
  { db with flushOperationLedgers := operationIDs.foldl Table.erase db.flushOperationLedgers }

end BeeApi.Batch
