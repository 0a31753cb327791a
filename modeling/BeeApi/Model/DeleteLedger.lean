import BeeApi.Model.Db
import Mathlib.Data.List.Sort

/-!
# Deletion with a ledger

Users, tokens and channels are deleted together with a `BatchUpdateDeleteLedger` row for every
kind of batch update that targets them.  The row proves that a missing update target was deleted
on purpose, and collects the deltas that arrive after the deletion.
-/

namespace BeeApi

open Except

def userDeleteKinds : List BatchUpdateType := [.userQuota, .usedQuota, .requestCount]

/-- `createBatchUpdateDeleteLedgersAt`: one row per kind, rejected by the primary key when one is
already there. -/
def createBatchUpdateDeleteLedgersAt (db : Db) (entityId deletedAt : ℤ) :
    List BatchUpdateType → Except String Db
  | [] => .ok db
  | kind :: kinds =>
    match db.batchUpdateDeleteLedgers.insert? (kind, entityId) { deletedAt } with
    | some ledgers =>
      createBatchUpdateDeleteLedgersAt { db with batchUpdateDeleteLedgers := ledgers } entityId
        deletedAt kinds
    | none =>
      .error s!"batch update delete ledger invariant violated for kind={kind.code} entity_id={entityId}"

/-- `ensureBatchUpdateDeleteLedgers`: only the missing rows are created. -/
def ensureBatchUpdateDeleteLedgers (db : Db) (entityId deletedAt : ℤ) :
    List BatchUpdateType → Except String Db
  | [] => .ok db
  | kind :: kinds =>
    match db.batchUpdateDeleteLedgers.get? (kind, entityId) with
    | some _ => ensureBatchUpdateDeleteLedgers db entityId deletedAt kinds
    | none =>
      createBatchUpdateDeleteLedgersAt db entityId deletedAt [kind] >>= fun db =>
        ensureBatchUpdateDeleteLedgers db entityId deletedAt kinds

/-- `deleteTokenWithLedger`; `userId = 0` skips the owner check. -/
def deleteTokenWithLedger (db : Db) (now id userId : ℤ) : Except String Db :=
  match db.tokens.get? id with
  | some token =>
    if token.deletedAt.isNone && (userId == 0 || token.userId == userId) then
      createBatchUpdateDeleteLedgersAt db id now [.tokenQuota] >>= fun db =>
        .ok { db with tokens := db.tokens.modify id fun t => { t with deletedAt := some now } }
    else .error "record not found"
  | none => .error "record not found"

/-- The token part of `deleteUserAuthenticationData`: every token, also a soft-deleted one, is removed
after its ledger row is ensured. -/
def deleteUserTokens (db : Db) (now userId : ℤ) : Except String Db :=
  (db.tokens.rows.filter fun e => e.2.userId = userId).foldlM
    (fun db e =>
      ensureBatchUpdateDeleteLedgers db e.1 (e.2.deletedAt.getD now) [.tokenQuota] >>= fun db =>
        .ok { db with tokens := db.tokens.erase e.1 })
    db

/-- The wallet part of `settleUserPendingWorkloads`: the balance disappears with the user row, so
open reservations are closed without a refund. -/
def settleUserPendingReservations (db : Db) (now userId : ℤ) : Db :=
  { db with
    walletPreConsumeRecords := db.walletPreConsumeRecords.updateWhere
      (fun _ r => r.userId = userId && r.status = .reserved)
      fun r => { r with status := .refunded, updatedAt := now } }

/-- `deleteUserWithLedger`.  A soft delete hides the row and a hard delete removes it. -/
def deleteUserWithLedger (db : Db) (now id : ℤ) (hardDelete : Bool) : Except String Db :=
  match db.users.get? id with
  | some user =>
    if hardDelete then
      (match user.deletedAt with
        | some deletedAt => ensureBatchUpdateDeleteLedgers db id deletedAt userDeleteKinds
        | none => createBatchUpdateDeleteLedgersAt db id now userDeleteKinds) >>= fun db =>
      deleteUserTokens db now id >>= fun db =>
      let db := settleUserPendingReservations db now id
      .ok { db with users := db.users.erase id }
    else if user.deletedAt.isNone then
      createBatchUpdateDeleteLedgersAt db id now userDeleteKinds >>= fun db =>
        .ok { db with users := db.users.modify id fun u => { u with deletedAt := some now } }
    else .error "record not found"
  | none => .error "record not found"

/-- `BatchDeleteTokens`: the requested tokens of the user that are not deleted yet. -/
def batchDeleteTokens (db : Db) (now : ℤ) (ids : List ℤ) (userId : ℤ) : Except String Db :=
  if ids = [] then .error "ids 不能为空！"
  else
    let selected := (ids.dedup.insertionSort (· ≤ ·)).filter fun id =>
      match db.tokens.get? id with
      | some token => token.userId == userId && token.deletedAt.isNone
      | none => false
    selected.foldlM (fun db id => createBatchUpdateDeleteLedgersAt db id now [.tokenQuota]) db >>=
      fun db =>
        .ok
          { db with
            tokens := selected.foldl
              (fun tokens id => tokens.modify id fun t => { t with deletedAt := some now })
              db.tokens }

/-- `deleteChannelsWithLedger`: the channels among `ids`; a channel has no soft delete. -/
def deleteChannelsWithLedger (db : Db) (now : ℤ) (ids : List ℤ) (requireOne : Bool) :
    Except String Db :=
  let selected := ids.filter fun id => (db.channels.get? id).isSome
  if requireOne && selected.isEmpty then .error "record not found"
  else if requireOne && selected.length != 1 then
    .error s!"delete channel selected {selected.length} rows, want 1"
  else
    selected.foldlM (fun db id => createBatchUpdateDeleteLedgersAt db id now [.channelUsedQuota])
        db >>=
      fun db => .ok { db with channels := selected.foldl Table.erase db.channels }

variable {db db' : Db} {entityId deletedAt now id userId : ℤ} {kinds : List BatchUpdateType}

theorem createBatchUpdateDeleteLedgersAt_frame
    (h : createBatchUpdateDeleteLedgersAt db entityId deletedAt kinds = .ok db') :
    db' = { db with batchUpdateDeleteLedgers := db'.batchUpdateDeleteLedgers } := by
  induction kinds generalizing db with
  | nil =>
    cases h
    rfl
  | cons kind kinds ih =>
    rw [createBatchUpdateDeleteLedgersAt] at h
    split at h
    · have := ih h
      rw [this]
    · cases h

theorem deleteTokenWithLedger_eq_ok (h : deleteTokenWithLedger db now id userId = .ok db') :
    db' = { db with
      tokens := db.tokens.modify id fun t => { t with deletedAt := some now }
      batchUpdateDeleteLedgers := db'.batchUpdateDeleteLedgers } := by
  unfold deleteTokenWithLedger at h
  split at h
  · split_ifs at h
    obtain ⟨db₁, h₁, h₂⟩ := bind_eq_ok_iff.1 h
    cases h₂
    rw [createBatchUpdateDeleteLedgersAt_frame h₁]
  · cases h

theorem deleteUserWithLedger_soft_eq_ok (h : deleteUserWithLedger db now id false = .ok db') :
    db' = { db with
      users := db.users.modify id fun u => { u with deletedAt := some now }
      batchUpdateDeleteLedgers := db'.batchUpdateDeleteLedgers } := by
  unfold deleteUserWithLedger at h
  split at h
  · simp only [Bool.false_eq_true, if_false] at h
    split_ifs at h
    obtain ⟨db₁, h₁, h₂⟩ := bind_eq_ok_iff.1 h
    cases h₂
    rw [createBatchUpdateDeleteLedgersAt_frame h₁]
  · cases h

/-- The deltas that the delete ledger has collected for a slot. -/
def Db.discarded (db : Db) (slot : BatchUpdateType × ℤ) : ℤ :=
  ((db.batchUpdateDeleteLedgers.get? slot).map BatchUpdateDeleteLedger.discardedDelta).getD 0

structure LedgersKept (db db' : Db) : Prop where
  flush : db'.flushOperationLedgers = db.flushOperationLedgers
  discarded : ∀ slot, db'.discarded slot = db.discarded slot

theorem LedgersKept.refl (db : Db) : LedgersKept db db := ⟨rfl, fun _ => rfl⟩

theorem LedgersKept.trans {db₁ db₂ db₃ : Db} (h₁ : LedgersKept db₁ db₂)
    (h₂ : LedgersKept db₂ db₃) : LedgersKept db₁ db₃ :=
  ⟨h₂.flush.trans h₁.flush, fun slot => (h₂.discarded slot).trans (h₁.discarded slot)⟩

theorem ledgersKept_createBatchUpdateDeleteLedgersAt
    (h : createBatchUpdateDeleteLedgersAt db entityId deletedAt kinds = .ok db') :
    LedgersKept db db' := by
  induction kinds generalizing db with
  | nil =>
    obtain rfl := Except.ok.inj h
    exact .refl db
  | cons kind kinds ih =>
    rw [createBatchUpdateDeleteLedgersAt] at h
    split at h
    · rename_i ledgers hinsert
      refine LedgersKept.trans ?_ (ih h)
      refine ⟨rfl, fun slot => ?_⟩
      -- a new row has discarded nothing
      have hnone := ((Table.insert?_eq_some_iff _ _ _ _).1 hinsert).1
      unfold Db.discarded
      rw [Table.get?_of_insert? hinsert]
      split_ifs with hs
      · rw [hs, hnone]
        rfl
      · rfl
    · cases h

theorem ledgersKept_ensureBatchUpdateDeleteLedgers
    (h : ensureBatchUpdateDeleteLedgers db entityId deletedAt kinds = .ok db') :
    LedgersKept db db' := by
  induction kinds generalizing db with
  | nil =>
    obtain rfl := Except.ok.inj h
    exact .refl db
  | cons kind kinds ih =>
    rw [ensureBatchUpdateDeleteLedgers] at h
    split at h
    · exact ih h
    · obtain ⟨db₁, h₁, h₂⟩ := bind_eq_ok_iff.1 h
      exact (ledgersKept_createBatchUpdateDeleteLedgersAt h₁).trans (ih h₂)

theorem ledgersKept_foldlM {α : Type} {f : Db → α → Except String Db}
    (hf : ∀ db a db', f db a = .ok db' → LedgersKept db db') {l : List α}
    (h : l.foldlM f db = .ok db') : LedgersKept db db' :=
  List.foldlM_invariant (fun _ _ _ hb h' => hb.trans (hf _ _ _ h')) (.refl db) h

theorem ledgersKept_deleteUserWithLedger {hardDelete : Bool}
    (h : deleteUserWithLedger db now id hardDelete = .ok db') : LedgersKept db db' := by
  unfold deleteUserWithLedger at h
  split at h
  · rename_i user _
    cases hardDelete with
    | false =>
      simp only [Bool.false_eq_true, if_false] at h
      split_ifs at h
      obtain ⟨db₁, h₁, h₂⟩ := bind_eq_ok_iff.1 h
      cases h₂
      exact (ledgersKept_createBatchUpdateDeleteLedgersAt h₁).trans ⟨rfl, fun _ => rfl⟩
    | true =>
      simp only [if_true] at h
      obtain ⟨db₁, h₁, h₂⟩ := bind_eq_ok_iff.1 h
      obtain ⟨db₂, h₃, h₄⟩ := bind_eq_ok_iff.1 h₂
      cases h₄
      have hrows : LedgersKept db db₁ := by
        cases hdel : user.deletedAt with
        | some deletedAt =>
          rw [hdel] at h₁
          exact ledgersKept_ensureBatchUpdateDeleteLedgers h₁
        | none =>
          rw [hdel] at h₁
          exact ledgersKept_createBatchUpdateDeleteLedgersAt h₁
      have htokens : LedgersKept db₁ db₂ := by
        refine ledgersKept_foldlM (fun db e db' he => ?_) h₃
        obtain ⟨db₃, h₅, h₆⟩ := bind_eq_ok_iff.1 he
        cases h₆
        exact (ledgersKept_ensureBatchUpdateDeleteLedgers h₅).trans ⟨rfl, fun _ => rfl⟩
      exact (hrows.trans htokens).trans ⟨rfl, fun _ => rfl⟩
  · cases h

theorem ledgersKept_deleteTokenWithLedger (h : deleteTokenWithLedger db now id userId = .ok db') :
    LedgersKept db db' := by
  unfold deleteTokenWithLedger at h
  split at h
  · split_ifs at h
    obtain ⟨db₁, h₁, h₂⟩ := bind_eq_ok_iff.1 h
    cases h₂
    exact (ledgersKept_createBatchUpdateDeleteLedgersAt h₁).trans ⟨rfl, fun _ => rfl⟩
  · cases h

theorem ledgersKept_batchDeleteTokens {ids : List ℤ}
    (h : batchDeleteTokens db now ids userId = .ok db') : LedgersKept db db' := by
  unfold batchDeleteTokens at h
  split_ifs at h
  obtain ⟨db₁, h₁, h₂⟩ := bind_eq_ok_iff.1 h
  cases h₂
  have hrows := ledgersKept_foldlM
    (fun _ _ _ he => ledgersKept_createBatchUpdateDeleteLedgersAt he) h₁
  exact hrows.trans ⟨rfl, fun _ => rfl⟩

theorem ledgersKept_deleteChannelsWithLedger {ids : List ℤ} {requireOne : Bool}
    (h : deleteChannelsWithLedger db now ids requireOne = .ok db') : LedgersKept db db' := by
  unfold deleteChannelsWithLedger at h
  dsimp only at h
  split_ifs at h
  obtain ⟨db₁, h₁, h₂⟩ := bind_eq_ok_iff.1 h
  cases h₂
  have hrows := ledgersKept_foldlM
    (fun _ _ _ he => ledgersKept_createBatchUpdateDeleteLedgersAt he) h₁
  exact hrows.trans ⟨rfl, fun _ => rfl⟩

end BeeApi
