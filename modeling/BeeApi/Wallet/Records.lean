import BeeApi.Model.Token
import Mathlib.Data.List.Sort

/-!
# Wallet reservations

The transactions of `model/wallet_preconsume_record.go` and the wallet part of `model/user.go`.  A
reservation takes quota from the user and the token and writes a `WalletPreConsumeRecord`; settlement,
refund and sweeper first claim the record with a compare-and-swap on its status and only then move
money.  One lemma for each transaction says when it commits and what it writes.
-/

namespace BeeApi

open Strings List Table Except

/-! ## The transactions -/

/-- The lookup through the unique index on `request_id`. -/
def Db.walletRecordOf (db : Db) (requestId : String) : Option (ℤ × WalletPreConsumeRecord) :=
  db.walletPreConsumeRecords.find? fun r => decide (r.requestId = requestId)

def createWalletPreConsumeRecordTx (db : Db) (now : ℤ) (requestId : String)
    (userID tokenID delta : ℤ) : Except String Db :=
  let failed := s!"create wallet pre-consume record for request {requestId}"
  match db.walletRecordOf requestId with
  | some _ => .error failed
  | none =>
    match db.walletPreConsumeRecords.insert? db.walletPreConsumeRecords.nextKey
        { requestId, userId := userID, tokenId := tokenID, preConsumed := delta
          status := .reserved, createdAt := now, updatedAt := now } with
    | some records => .ok { db with walletPreConsumeRecords := records }
    | none => .error failed

def addWalletPreConsumeTx (db : Db) (now : ℤ) (requestId : String) (userID tokenID delta : ℤ) :
    Except String Db :=
  let notFound := s!"wallet pre-consume record not found for request {requestId}"
  match db.walletRecordOf requestId with
  | none => .error notFound
  | some (id, _) =>
    match db.walletPreConsumeRecords.updateRow id
        (fun r => r.userId == userID && r.tokenId == tokenID && decide (r.status = .reserved))
        (fun r => { r with preConsumed := r.preConsumed + delta, updatedAt := now }) with
    | some records => .ok { db with walletPreConsumeRecords := records }
    | none => .error notFound

/-- `claimWalletPreConsumeTx`: whether the caller owns the reservation, and the database with the
record advanced to `status` if it does. -/
def claimWalletPreConsumeTx (db : Db) (now : ℤ) (requestId : String)
    (status : WalletPreConsumeStatus) : Bool × Db :=
  if trimSpace requestId = "" then (true, db)
  else
    match db.walletRecordOf requestId with
    | none => (true, db)
    | some (id, existing) =>
      if existing.status ≠ .reserved then (false, db)
      else
        match db.walletPreConsumeRecords.updateRow id (fun r => decide (r.status = .reserved))
            (fun r => { r with status, updatedAt := now }) with
        | some records => (true, { db with walletPreConsumeRecords := records })
        | none => (false, db)

/-- The guarded decrement of `users.quota`, which a soft-deleted user does not pass. -/
def reserveUserQuotaTx (db : Db) (userID quota : ℤ) : Except String Db :=
  match db.users.updateRow userID (fun u => u.deletedAt.isNone && decide (quota ≤ u.quota))
      (fun u => { u with quota := u.quota - quota }) with
  | some users => .ok { db with users }
  | none => .error errInsufficientUserQuota

/-- The `Unscoped` increment of `users.quota`. -/
def returnUserQuotaTx (db : Db) (userID refund : ℤ) : Except String Db :=
  match db.users.updateRow userID (fun _ => true) (fun u => { u with quota := u.quota + refund }) with
  | some users => .ok { db with users }
  | none => .error s!"return user quota: user {userID} not found"

def adjustUserTokenQuotaTx (db : Db) (now userID tokenID delta : ℤ) : Except String Db :=
  if 0 < delta then do
    let db ← reserveUserQuotaTx db userID delta
    adjustTokenQuotaTx db now tokenID userID delta
  else do
    let refund := -delta
    let db ← returnUserQuotaTx db userID refund
    adjustTokenQuotaTx db now tokenID userID delta

def reserveUserTokenQuotaWithRecord (db : Db) (now : ℤ) (requestId : String)
    (userID tokenID quota : ℤ) : Except String Db :=
  if userID ≤ 0 ∨ tokenID ≤ 0 then .error "user id and token id must be positive"
  else if quota ≤ 0 then .error "reservation quota must be positive"
  else
    (if trimSpace requestId ≠ "" then
        createWalletPreConsumeRecordTx db now requestId userID tokenID quota
      else .ok db) >>= fun db => do
    let db ← reserveUserQuotaTx db userID quota
    adjustTokenQuotaTx db now tokenID userID quota

def extendUserTokenReservation (db : Db) (now : ℤ) (requestId : String)
    (userID tokenID quota : ℤ) : Except String Db :=
  if userID ≤ 0 ∨ tokenID ≤ 0 then .error "user id and token id must be positive"
  else if quota ≤ 0 then .error "reservation quota must be positive"
  else
    (if trimSpace requestId ≠ "" then
        addWalletPreConsumeTx db now requestId userID tokenID quota
      else .ok db) >>= fun db => do
    let db ← reserveUserQuotaTx db userID quota
    adjustTokenQuotaTx db now tokenID userID quota

/-- `FinalizeUserTokenQuota`: claim first, then move money. -/
def finalizeUserTokenQuota (db : Db) (now : ℤ) (requestId : String) (userID tokenID delta : ℤ)
    (status : WalletPreConsumeStatus) : Except String Db :=
  if userID ≤ 0 ∨ tokenID ≤ 0 then .error "user id and token id must be positive"
  else
    match claimWalletPreConsumeTx db now requestId status with
    | (false, _) => .ok db
    | (true, db) => if delta ≠ 0 then adjustUserTokenQuotaTx db now userID tokenID delta else .ok db

/-- `FindStaleReservedWalletPreConsumes`: the oldest reservations not touched for a while. -/
def findStaleReservedWalletPreConsumes (db : Db) (now olderThanSeconds limit : ℤ) :
    List (ℤ × WalletPreConsumeRecord) :=
  let limit := if limit ≤ 0 then 200 else limit
  let cutoff := now - olderThanSeconds
  let stale := db.walletPreConsumeRecords.rows.filter fun e =>
    decide (e.2.status = .reserved) && decide (e.2.updatedAt < cutoff)
  (stale.insertionSort fun a b => a.2.updatedAt ≤ b.2.updatedAt).take limit.toNat

/-- `RefundStaleWalletPreConsume`, applied to a record that was read earlier. -/
def refundStaleWalletPreConsume (db : Db) (now : ℤ) (record : ℤ × WalletPreConsumeRecord) :
    Except String Db :=
  let (id, record) := record
  if record.preConsumed ≤ 0 then
    .ok (claimWalletPreConsumeTx db now record.requestId .refunded).2
  else
    match db.walletPreConsumeRecords.updateRow id (fun r => decide (r.status = .reserved))
        (fun r => { r with status := .refunded, updatedAt := now }) with
    | none => .ok db
    | some records => do
      let db := { db with walletPreConsumeRecords := records }
      let db ← returnUserQuotaTx db record.userId record.preConsumed
      if 0 < record.tokenId then
        adjustTokenQuotaTx db now record.tokenId record.userId (-record.preConsumed)
      else .ok db

/-! ## What the transactions write -/

/-- Take `delta` from a user and one of its tokens; a negative amount is given back. -/
def moveQuota (db : Db) (now userID tokenID delta : ℤ) : Db :=
  { db with
    users := db.users.modify userID fun u => { u with quota := u.quota - delta }
    tokens := db.tokens.modify tokenID (tokenQuotaUpdates now delta) }

/-- The guards on the two rows that `moveQuota` rewrites. -/
def MoveAccepted (db : Db) (userID tokenID delta : ℤ) : Prop :=
  ∃ u t, db.users.get? userID = some u ∧ (0 < delta → u.deletedAt = none ∧ delta ≤ u.quota) ∧
    db.tokens.get? tokenID = some t ∧ tokenSelected userID delta t = true ∧
    tokenQuotaGuard delta t = true

def closeRecord (db : Db) (now id : ℤ) (status : WalletPreConsumeStatus) : Db :=
  { db with
    walletPreConsumeRecords :=
      db.walletPreConsumeRecords.modify id fun r => { r with status, updatedAt := now } }

variable {db db' : Db} {now userID tokenID delta quota k : ℤ} {status : WalletPreConsumeStatus}
  {r : WalletPreConsumeRecord} {requestId : String}

theorem moveAccepted_closeRecord {id : ℤ} :
    MoveAccepted (closeRecord db now id status) userID tokenID delta ↔
      MoveAccepted db userID tokenID delta := Iff.rfl

theorem reserveUserQuotaTx_eq_ok_iff :
    reserveUserQuotaTx db userID quota = .ok db' ↔
      ∃ u, db.users.get? userID = some u ∧ u.deletedAt = none ∧ quota ≤ u.quota ∧
        db' = { db with users := db.users.modify userID fun u => { u with quota := u.quota - quota } } := by
  unfold reserveUserQuotaTx
  cases hu : db.users.updateRow userID (fun u => u.deletedAt.isNone && decide (quota ≤ u.quota))
      (fun u => { u with quota := u.quota - quota }) with
  | some users =>
    obtain ⟨u, hget, hp, rfl⟩ := (updateRow_eq_some_iff _ _ _ _ _).1 hu
    simp only [Bool.and_eq_true, Option.isNone_iff_eq_none, decide_eq_true_eq] at hp
    simp [hget, hp.1, hp.2, eq_comm]
  | none =>
    have hn := (updateRow_eq_none_iff _ _ _ _).1 hu
    refine iff_of_false (by simp) ?_
    rintro ⟨u, hget, hd, hq, -⟩
    have := hn u hget
    simp [hd, hq] at this

theorem returnUserQuotaTx_eq_ok_iff {refund : ℤ} :
    returnUserQuotaTx db userID refund = .ok db' ↔ ∃ u, db.users.get? userID = some u ∧
        db' = { db with users := db.users.modify userID fun u => { u with quota := u.quota + refund } } := by
  unfold returnUserQuotaTx
  cases hu : db.users.updateRow userID (fun _ => true)
      (fun u => { u with quota := u.quota + refund }) with
  | some users =>
    obtain ⟨u, hget, -, rfl⟩ := (updateRow_eq_some_iff _ _ _ _ _).1 hu
    simp [hget, eq_comm]
  | none =>
    have hn := (updateRow_eq_none_iff _ _ _ _).1 hu
    refine iff_of_false (by simp) ?_
    rintro ⟨u, hget, -⟩
    have := hn u hget
    simp at this

theorem takeQuota_eq_ok_iff (htok : 0 < tokenID) (hquota : 0 < quota) :
    (do
      let db ← reserveUserQuotaTx db userID quota
      adjustTokenQuotaTx db now tokenID userID quota) = .ok db' ↔
      MoveAccepted db userID tokenID quota ∧ db' = moveQuota db now userID tokenID quota := by
  rw [bind_eq_ok_iff]
  constructor
  · rintro ⟨db₁, h₁, h₂⟩
    obtain ⟨u, hu, hd, hq, rfl⟩ := reserveUserQuotaTx_eq_ok_iff.1 h₁
    obtain ⟨t, ht, hs, hg, rfl⟩ := (adjustTokenQuotaTx_eq_ok_iff htok hquota.ne').1 h₂
    exact ⟨⟨u, t, hu, fun _ => ⟨hd, hq⟩, ht, hs, hg⟩, rfl⟩
  · rintro ⟨⟨u, t, hu, hc, ht, hs, hg⟩, rfl⟩
    obtain ⟨hd, hq⟩ := hc hquota
    exact ⟨_, reserveUserQuotaTx_eq_ok_iff.2 ⟨u, hu, hd, hq, rfl⟩,
      (adjustTokenQuotaTx_eq_ok_iff htok hquota.ne').2 ⟨t, ht, hs, hg, rfl⟩⟩

theorem giveQuota_eq_ok_iff {db db' : Db} {now userID tokenID refund : ℤ} (htok : 0 < tokenID)
    (hrefund : 0 < refund) :
    (do
      let db ← returnUserQuotaTx db userID refund
      adjustTokenQuotaTx db now tokenID userID (-refund)) = .ok db' ↔
      MoveAccepted db userID tokenID (-refund) ∧
        db' = moveQuota db now userID tokenID (-refund) := by
  have hne : -refund ≠ 0 := by omega
  have hmove : ∀ u : User, ({ u with quota := u.quota + refund } : User) =
      { u with quota := u.quota - -refund } := fun u => by rw [sub_neg_eq_add]
  rw [bind_eq_ok_iff]
  constructor
  · rintro ⟨db₁, h₁, h₂⟩
    obtain ⟨u, hu, rfl⟩ := returnUserQuotaTx_eq_ok_iff.1 h₁
    obtain ⟨t, ht, hs, hg, rfl⟩ := (adjustTokenQuotaTx_eq_ok_iff htok hne).1 h₂
    refine ⟨⟨u, t, hu, fun h => absurd h (by omega), ht, hs, hg⟩, ?_⟩
    simp only [moveQuota, hmove]
  · rintro ⟨⟨u, t, hu, -, ht, hs, hg⟩, rfl⟩
    refine ⟨_, returnUserQuotaTx_eq_ok_iff.2 ⟨u, hu, rfl⟩,
      (adjustTokenQuotaTx_eq_ok_iff htok hne).2 ⟨t, ht, hs, hg, ?_⟩⟩
    simp only [moveQuota, hmove]

theorem adjustUserTokenQuotaTx_eq_ok_iff (htok : 0 < tokenID) (hdelta : delta ≠ 0) :
    adjustUserTokenQuotaTx db now userID tokenID delta = .ok db' ↔
      MoveAccepted db userID tokenID delta ∧ db' = moveQuota db now userID tokenID delta := by
  unfold adjustUserTokenQuotaTx
  split_ifs with hpos
  · exact takeQuota_eq_ok_iff htok hpos
  · have h := @giveQuota_eq_ok_iff db db' now userID tokenID (-delta) htok (by omega)
    rw [neg_neg] at h
    exact h

/-! ## Reserving -/

/-- At most one record carries a given request id. -/
def UniqueRequestIds (db : Db) : Prop :=
  ∀ k k' r r', db.walletPreConsumeRecords.get? k = some r →
    db.walletPreConsumeRecords.get? k' = some r' → r.requestId = r'.requestId → k = k'

theorem walletRecordOf_eq_some (hu : UniqueRequestIds db)
    (hr : db.walletPreConsumeRecords.get? k = some r) :
    db.walletRecordOf r.requestId = some (k, r) := by
  refine find?_eq_some_of_unique hr (by simp) ?_
  intro k' r' hr' hp
  exact hu k' k r' r hr' hr (by simpa using hp)

theorem get?_of_walletRecordOf (h : db.walletRecordOf requestId = some (k, r)) :
    db.walletPreConsumeRecords.get? k = some r ∧ r.requestId = requestId := by
  obtain ⟨hr, hp⟩ := get?_of_find? h
  exact ⟨hr, by simpa using hp⟩

theorem walletRecordOf_eq_none_iff :
    db.walletRecordOf requestId = none ↔
      ∀ k r, db.walletPreConsumeRecords.get? k = some r → r.requestId ≠ requestId := by
  simp [Db.walletRecordOf, find?_eq_none_iff]

def reservedRecord (now : ℤ) (requestId : String) (userID tokenID quota : ℤ) :
    WalletPreConsumeRecord :=
  { requestId, userId := userID, tokenId := tokenID, preConsumed := quota, status := .reserved
    createdAt := now, updatedAt := now }

theorem reserve_of_ok (hid : trimSpace requestId ≠ "")
    (h : reserveUserTokenQuotaWithRecord db now requestId userID tokenID quota = .ok db') :
    0 < userID ∧ 0 < tokenID ∧ 0 < quota ∧ MoveAccepted db userID tokenID quota ∧
      db.walletRecordOf requestId = none ∧
      ∃ k records, db.walletPreConsumeRecords.insert? k
          (reservedRecord now requestId userID tokenID quota) = some records ∧
        db' = { moveQuota db now userID tokenID quota with walletPreConsumeRecords := records } := by
  unfold reserveUserTokenQuotaWithRecord at h
  split_ifs at h with hpos hq
  obtain ⟨db₁, h₁, h₂⟩ := bind_eq_ok_iff.1 h
  unfold createWalletPreConsumeRecordTx at h₁
  cases hn : db.walletRecordOf requestId with
  | some e => simp [hn] at h₁
  | none =>
    simp only [hn] at h₁
    cases hi : db.walletPreConsumeRecords.insert? db.walletPreConsumeRecords.nextKey
        { requestId, userId := userID, tokenId := tokenID, preConsumed := quota
          status := .reserved, createdAt := now, updatedAt := now } with
    | none => simp [hi] at h₁
    | some records =>
      simp only [hi, Except.ok.injEq] at h₁
      subst h₁
      have htok : 0 < tokenID := by omega
      obtain ⟨hacc, rfl⟩ := (takeQuota_eq_ok_iff htok (by omega)).1 h₂
      exact ⟨by omega, htok, by omega, hacc, rfl, _, records, hi, rfl⟩

theorem reserve_of_ok_of_blank (hid : trimSpace requestId = "")
    (h : reserveUserTokenQuotaWithRecord db now requestId userID tokenID quota = .ok db') :
    0 < userID ∧ 0 < tokenID ∧ 0 < quota ∧ MoveAccepted db userID tokenID quota ∧
      db' = moveQuota db now userID tokenID quota := by
  unfold reserveUserTokenQuotaWithRecord at h
  simp only [hid, ne_eq, not_true_eq_false, if_false] at h
  split_ifs at h with hpos hq
  obtain ⟨db₁, h₁, h₂⟩ := bind_eq_ok_iff.1 h
  cases h₁
  have htok : 0 < tokenID := by omega
  obtain ⟨hacc, rfl⟩ := (takeQuota_eq_ok_iff htok (by omega)).1 h₂
  exact ⟨by omega, htok, by omega, hacc, rfl⟩

theorem extend_of_ok (hid : trimSpace requestId ≠ "")
    (h : extendUserTokenReservation db now requestId userID tokenID quota = .ok db') :
    0 < quota ∧ MoveAccepted db userID tokenID quota ∧
      ∃ k r, db.walletRecordOf requestId = some (k, r) ∧ r.userId = userID ∧
        r.tokenId = tokenID ∧ r.status = .reserved ∧
        db' = { moveQuota db now userID tokenID quota with
          walletPreConsumeRecords := db.walletPreConsumeRecords.modify k fun r =>
            { r with preConsumed := r.preConsumed + quota, updatedAt := now } } := by
  unfold extendUserTokenReservation at h
  split_ifs at h with hpos hq
  obtain ⟨db₁, h₁, h₂⟩ := bind_eq_ok_iff.1 h
  unfold addWalletPreConsumeTx at h₁
  cases hf : db.walletRecordOf requestId with
  | none => simp [hf] at h₁
  | some e =>
    obtain ⟨k, r⟩ := e
    simp only [hf] at h₁
    cases hu : db.walletPreConsumeRecords.updateRow k
        (fun r => r.userId == userID && r.tokenId == tokenID && decide (r.status = .reserved))
        (fun r => { r with preConsumed := r.preConsumed + quota, updatedAt := now }) with
    | none => simp [hu] at h₁
    | some records =>
      simp only [hu, Except.ok.injEq] at h₁
      subst h₁
      obtain ⟨r', hr', hp, rfl⟩ := (updateRow_eq_some_iff _ _ _ _ _).1 hu
      rw [(get?_of_walletRecordOf hf).1] at hr'
      cases hr'
      simp only [Bool.and_eq_true, beq_iff_eq, decide_eq_true_eq] at hp
      obtain ⟨hacc, rfl⟩ := (takeQuota_eq_ok_iff (by omega) (by omega)).1 h₂
      exact ⟨by omega, hacc, k, r, rfl, hp.1.1, hp.1.2, hp.2, rfl⟩

theorem extend_of_ok_of_blank (hid : trimSpace requestId = "")
    (h : extendUserTokenReservation db now requestId userID tokenID quota = .ok db') :
    0 < quota ∧ MoveAccepted db userID tokenID quota ∧
      db' = moveQuota db now userID tokenID quota := by
  unfold extendUserTokenReservation at h
  simp only [hid, ne_eq, not_true_eq_false, if_false] at h
  split_ifs at h with hpos hq
  obtain ⟨db₁, h₁, h₂⟩ := bind_eq_ok_iff.1 h
  cases h₁
  obtain ⟨hacc, rfl⟩ := (takeQuota_eq_ok_iff (by omega) (by omega)).1 h₂
  exact ⟨by omega, hacc, rfl⟩

/-! ## Settling, refunding, sweeping -/

/-- The quota a closing transaction moves; nothing is touched when the amount is zero. -/
def closeQuota (db : Db) (now userID tokenID delta : ℤ) : Db :=
  if delta = 0 then db else moveQuota db now userID tokenID delta

theorem closeQuota_records (db : Db) (now userID tokenID delta : ℤ) :
    (closeQuota db now userID tokenID delta).walletPreConsumeRecords =
      db.walletPreConsumeRecords := by
  unfold closeQuota
  split_ifs <;> rfl

theorem closeQuota_closeRecord (db : Db) (now id userID tokenID delta : ℤ)
    (status : WalletPreConsumeStatus) :
    closeQuota (closeRecord db now id status) now userID tokenID delta =
      closeRecord (closeQuota db now userID tokenID delta) now id status := by
  unfold closeQuota
  split_ifs <;> rfl

theorem claim_of_reserved (status : WalletPreConsumeStatus) (hid : trimSpace requestId ≠ "")
    (hf : db.walletRecordOf requestId = some (k, r)) (hr : r.status = .reserved) :
    claimWalletPreConsumeTx db now requestId status = (true, closeRecord db now k status) := by
  have hget := (get?_of_walletRecordOf hf).1
  have hu : db.walletPreConsumeRecords.updateRow k (fun r => decide (r.status = .reserved))
      (fun r => { r with status, updatedAt := now }) =
      some (db.walletPreConsumeRecords.modify k fun r => { r with status, updatedAt := now }) :=
    (updateRow_eq_some_iff _ _ _ _ _).2 ⟨r, hget, by simpa using hr, rfl⟩
  unfold claimWalletPreConsumeTx
  rw [if_neg hid]
  simp only [hf, hr, ne_eq, not_true_eq_false, if_false, hu]
  rfl

theorem claim_of_closed (status : WalletPreConsumeStatus) (hid : trimSpace requestId ≠ "")
    (hf : db.walletRecordOf requestId = some (k, r)) (hr : r.status ≠ .reserved) :
    claimWalletPreConsumeTx db now requestId status = (false, db) := by
  unfold claimWalletPreConsumeTx
  rw [if_neg hid]
  simp only [hf, hr, ne_eq, not_false_eq_true, if_true]

theorem claim_of_absent (status : WalletPreConsumeStatus)
    (hf : trimSpace requestId = "" ∨ db.walletRecordOf requestId = none) :
    claimWalletPreConsumeTx db now requestId status = (true, db) := by
  unfold claimWalletPreConsumeTx
  split_ifs with hid
  · rfl
  · rw [hf.resolve_left hid]

theorem finalize_pos
    (h : finalizeUserTokenQuota db now requestId userID tokenID delta status = .ok db') :
    0 < userID ∧ 0 < tokenID := by
  by_cases hpos : userID ≤ 0 ∨ tokenID ≤ 0
  · rw [finalizeUserTokenQuota, if_pos hpos] at h
    cases h
  · omega

theorem finalize_of_reserved (hid : trimSpace requestId ≠ "") (huser : 0 < userID)
    (htok : 0 < tokenID) (hf : db.walletRecordOf requestId = some (k, r))
    (hr : r.status = .reserved) :
    finalizeUserTokenQuota db now requestId userID tokenID delta status = .ok db' ↔
      (delta ≠ 0 → MoveAccepted db userID tokenID delta) ∧
        db' = closeQuota (closeRecord db now k status) now userID tokenID delta := by
  unfold finalizeUserTokenQuota closeQuota
  rw [if_neg (by omega), claim_of_reserved status hid hf hr]
  dsimp only
  by_cases hd : delta = 0
  · simp [hd, eq_comm]
  · rw [if_pos hd, if_neg hd, adjustUserTokenQuotaTx_eq_ok_iff htok hd, moveAccepted_closeRecord]
    simp [hd]

theorem finalize_of_closed (hid : trimSpace requestId ≠ "") (huser : 0 < userID)
    (htok : 0 < tokenID) (hf : db.walletRecordOf requestId = some (k, r))
    (hr : r.status ≠ .reserved) :
    finalizeUserTokenQuota db now requestId userID tokenID delta status = .ok db := by
  unfold finalizeUserTokenQuota
  rw [if_neg (by omega), claim_of_closed status hid hf hr]

theorem finalize_of_absent (huser : 0 < userID) (htok : 0 < tokenID)
    (hf : trimSpace requestId = "" ∨ db.walletRecordOf requestId = none) :
    finalizeUserTokenQuota db now requestId userID tokenID delta status = .ok db' ↔
      (delta ≠ 0 → MoveAccepted db userID tokenID delta) ∧
        db' = closeQuota db now userID tokenID delta := by
  unfold finalizeUserTokenQuota closeQuota
  rw [if_neg (by omega), claim_of_absent status hf]
  dsimp only
  by_cases hd : delta = 0
  · simp [hd, eq_comm]
  · rw [if_pos hd, if_neg hd, adjustUserTokenQuotaTx_eq_ok_iff htok hd]
    simp [hd]

/-- The sweeper closes the record of its snapshot and returns the amount of the snapshot. -/
theorem refundStale_of_reserved {s : WalletPreConsumeRecord} (hpos : 0 < s.preConsumed)
    (htok : 0 < s.tokenId) (hget : db.walletPreConsumeRecords.get? k = some r)
    (hr : r.status = .reserved) :
    refundStaleWalletPreConsume db now (k, s) = .ok db' ↔
      MoveAccepted db s.userId s.tokenId (-s.preConsumed) ∧
        db' = moveQuota (closeRecord db now k .refunded) now s.userId s.tokenId
          (-s.preConsumed) := by
  have hu : db.walletPreConsumeRecords.updateRow k (fun r => decide (r.status = .reserved))
      (fun r => { r with status := .refunded, updatedAt := now }) =
      some (db.walletPreConsumeRecords.modify k fun r =>
        { r with status := .refunded, updatedAt := now }) :=
    (updateRow_eq_some_iff _ _ _ _ _).2 ⟨r, hget, by simpa using hr, rfl⟩
  unfold refundStaleWalletPreConsume
  dsimp only
  rw [if_neg (by omega), hu]
  simp only [if_pos htok]
  exact giveQuota_eq_ok_iff htok hpos

theorem refundStale_of_closed {s : WalletPreConsumeRecord} (hpos : 0 < s.preConsumed)
    (hget : db.walletPreConsumeRecords.get? k = some r) (hr : r.status ≠ .reserved) :
    refundStaleWalletPreConsume db now (k, s) = .ok db := by
  have hu : db.walletPreConsumeRecords.updateRow k (fun r => decide (r.status = .reserved))
      (fun r => { r with status := .refunded, updatedAt := now }) = none := by
    rw [updateRow_eq_none_iff]
    intro r' hr'
    rw [hget] at hr'
    cases hr'
    simpa using hr
  unfold refundStaleWalletPreConsume
  dsimp only
  rw [if_neg (by omega), hu]

/-- A reservation that is old enough is found by a sweep without a binding limit. -/
theorem mem_findStale_of_stale {olderThanSeconds limit : ℤ}
    (hget : db.walletPreConsumeRecords.get? k = some r) (hr : r.status = .reserved)
    (hold : r.updatedAt < now - olderThanSeconds)
    (hlimit : (db.walletPreConsumeRecords.rows.length : ℤ) < limit) :
    (k, r) ∈ findStaleReservedWalletPreConsumes db now olderThanSeconds limit := by
  unfold findStaleReservedWalletPreConsumes
  rw [if_neg (by omega), take_of_length_le]
  · rw [mem_insertionSort, mem_filter]
    exact ⟨(get?_eq_some_iff _ _ _).1 hget, by simp [hr, hold]⟩
  · rw [length_insertionSort]
    refine (length_filter_le _ _).trans ?_
    omega

theorem mem_findStale {olderThanSeconds limit : ℤ} {e : ℤ × WalletPreConsumeRecord}
    (h : e ∈ findStaleReservedWalletPreConsumes db now olderThanSeconds limit) :
    db.walletPreConsumeRecords.get? e.1 = some e.2 ∧ e.2.status = .reserved := by
  have h' := mem_of_mem_take h
  rw [mem_insertionSort, mem_filter] at h'
  simp only [Bool.and_eq_true, decide_eq_true_eq] at h'
  exact ⟨(get?_eq_some_iff _ _ _).2 h'.1, h'.2.1⟩

end BeeApi
