import BeeApi.Model.Db

/-!
# Redemption codes

`Redeem`, the edit of a code by `UpdateRedemption`, and the deletions.  `Redeem` is one transaction; an
edit reads the row and writes it back later, so that other calls come in between.  Timestamps are those
of the caller's clock.
-/

namespace BeeApi.Payment

open List Option Table

/-! ## Rows -/

/-- The `RedemptionCodeStatus*` constants, and any other number. -/
inductive RedemptionStatus
  | enabled
  | disabled
  | used
  | other (code : ℤ)
deriving DecidableEq

/-- `model.Redemption`; its id is the key of the table. -/
structure Redemption where
  key : String
  status : RedemptionStatus := .enabled
  name : String := ""
  quota : ℤ := 100
  createdTime : ℤ := 0
  redeemedTime : ℤ := 0
  usedUserId : ℤ := 0
  deletedAt : Option ℤ := none
  expiredTime : ℤ := 0
deriving DecidableEq

structure RedemptionDb where
  db : Db := {}
  redemptions : Table ℤ Redemption := ∅

def errRedeemFailed : String := "redeem.failed"

def Redemption.expired (r : Redemption) (now : ℤ) : Bool := r.expiredTime ≠ 0 && r.expiredTime < now

def usedColumns (redeemedTime userId : ℤ) (r : Redemption) : Redemption :=
  { r with redeemedTime := redeemedTime, status := .used, usedUserId := userId }

/-- The transaction of `Redeem`: the id of the code and its quota. -/
def redeemTx (d : RedemptionDb) (key : String) (userId now redeemedTime : ℤ) :
    Except String (RedemptionDb × ℤ × ℤ) :=
  match d.redemptions.rows.find? fun e => e.2.key = key && e.2.deletedAt.isNone with
  | none => .error "无效的兑换码"
  | some (id, r) =>
    if r.status ≠ .enabled then .error "该兑换码已被使用"
    else if r.expired now then .error "该兑换码已过期"
    else
      match d.db.affected d.redemptions (d.redemptions.updateRow id
        (fun r => r.deletedAt.isNone && r.status = .enabled &&
          (r.expiredTime = 0 || redeemedTime ≤ r.expiredTime))
        (usedColumns redeemedTime userId)) with
      | none => .error "该兑换码已被使用"
      | some redemptions =>
        match d.db.affected d.db.users (d.db.users.updateRow userId (fun u => u.deletedAt.isNone)
          fun u => { u with quota := u.quota + r.quota }) with
        | none => .error "无效的 user id"
        | some users => .ok ({ db := { d.db with users }, redemptions }, id, r.quota)

def redeem (d : RedemptionDb) (key : String) (userId now redeemedTime : ℤ) :
    Except String (RedemptionDb × ℤ × ℤ) :=
  if key = "" then .error "未提供兑换码"
  else if userId = 0 then .error "无效的 user id"
  else
    match redeemTx d key userId now redeemedTime with
    | .ok res => .ok res
    | .error _ => .error errRedeemFailed

structure RedemptionEdit where
  id : ℤ
  name : String
  quota : ℤ
  expiredTime : ℤ

/-- The first half of `UpdateRedemption` without `status_only`: the row as it will be written. -/
def readForEdit (d : RedemptionDb) (now : ℤ) (edit : RedemptionEdit) : Except String Redemption :=
  if edit.id = 0 then .error "id 为空！"
  else
    match d.redemptions.get? edit.id with
    | none => .error "record not found"
    | some r =>
      if r.deletedAt ≠ none then .error "record not found"
      else if edit.expiredTime ≠ 0 ∧ edit.expiredTime < now then .error "redemption.expire_time_invalid"
      else .ok { r with name := edit.name, quota := edit.quota, expiredTime := edit.expiredTime }

/-- `Redemption.Update`: five columns of the row that was read are written. -/
def updateRedemption (d : RedemptionDb) (id : ℤ) (read : Redemption) : RedemptionDb :=
  { d with
    redemptions := d.redemptions.modify id fun r =>
      if r.deletedAt.isNone then
        { r with
          name := read.name
          status := read.status
          quota := read.quota
          redeemedTime := read.redeemedTime
          expiredTime := read.expiredTime }
      else r }

def deleteRedemptionById (d : RedemptionDb) (id now : ℤ) : RedemptionDb :=
  { d with
    redemptions := d.redemptions.modify id fun r =>
      if r.deletedAt.isNone then { r with deletedAt := some now } else r }

def Redemption.invalid (r : Redemption) (now : ℤ) : Bool :=
  r.status = .used || r.status = .disabled || (r.status = .enabled && r.expired now)

def deleteInvalidRedemptions (d : RedemptionDb) (now : ℤ) : RedemptionDb :=
  { d with
    redemptions := d.redemptions.updateWhere (fun _ r => r.deletedAt.isNone && r.invalid now)
      fun r => { r with deletedAt := some now } }

/-! ## Interleavings -/

/-- A payment of a code, as `RecordLog` notes it. -/
structure RedemptionPayment where
  redemptionId : ℤ
  userId : ℤ
  quota : ℤ
deriving DecidableEq

/-- The tables, the edits that have read their row, and the payments. -/
structure RedemptionSystem where
  store : RedemptionDb := {}
  edits : Table ℕ (ℤ × Redemption) := ∅
  paid : List RedemptionPayment := []

inductive RedemptionAction
  | redeem (key : String) (userId now redeemedTime : ℤ)
  | readForEdit (call : ℕ) (now : ℤ) (edit : RedemptionEdit)
  | writeEdit (call : ℕ)
  | deleteById (id now : ℤ)
  | deleteInvalid (now : ℤ)

namespace RedemptionSystem

def step (s : RedemptionSystem) : RedemptionAction → Option RedemptionSystem
  | .redeem key userId now redeemedTime =>
    match Payment.redeem s.store key userId now redeemedTime with
    | .ok (store, id, quota) =>
      some { s with
        store
        paid := s.paid ++ [{ redemptionId := id, userId := userId, quota := quota }] }
    | .error _ => some s
  | .readForEdit call now edit =>
    match Payment.readForEdit s.store now edit with
    | .ok read => some { s with edits := s.edits.put call (edit.id, read) }
    | .error _ => some s
  | .writeEdit call =>
    (s.edits.get? call).map fun (id, read) =>
      { s with store := updateRedemption s.store id read, edits := s.edits.erase call }
  | .deleteById id now => some { s with store := deleteRedemptionById s.store id now }
  | .deleteInvalid now => some { s with store := deleteInvalidRedemptions s.store now }

def paymentsOf (s : RedemptionSystem) (id : ℤ) : List RedemptionPayment :=
  s.paid.filter (·.redemptionId = id)

/-- An edit is written while the code has the status that the edit has read. -/
def editIsFresh (s : RedemptionSystem) : RedemptionAction → Bool
  | .writeEdit call => (s.edits.get? call).all fun (id, read) =>
      (s.store.redemptions.get? id).all fun r => r.deletedAt.isSome || r.status = read.status
  | _ => true

structure PaidOnce (s : RedemptionSystem) (id : ℤ) : Prop where
  once : (s.paymentsOf id).length ≤ 1
  spent : s.paymentsOf id ≠ [] →
    ∃ r, s.store.redemptions.get? id = some r ∧ (r.deletedAt = none → r.status ≠ .enabled)

/-! ## One step -/

variable {id : ℤ} {s s' : RedemptionSystem} {a : RedemptionAction}

theorem redeem_spec {d d' : RedemptionDb} {key : String} {userId now redeemedTime quota : ℤ}
    (h : Payment.redeem d key userId now redeemedTime = .ok (d', id, quota)) :
    ∃ r, d.redemptions.get? id = some r ∧ r.deletedAt = none ∧ r.status = .enabled ∧
      r.quota = quota ∧ d'.redemptions = d.redemptions.modify id (usedColumns redeemedTime userId) ∧
      ∃ u, d.db.users.get? userId = some u ∧ d'.db = { d.db with
          users := d.db.users.modify userId fun u => { u with quota := u.quota + quota } } := by
  have htx : redeemTx d key userId now redeemedTime = .ok (d', id, quota) := by
    unfold Payment.redeem at h
    split_ifs at h
    cases hres : redeemTx d key userId now redeemedTime with
    | error e =>
      rw [hres] at h
      cases h
    | ok res =>
      rw [hres] at h
      exact h
  unfold redeemTx at htx
  split at htx
  · cases htx
  · rename_i id' r hfind
    have hmem := mem_of_find?_eq_some hfind
    have hkey := find?_some (p := fun e : ℤ × Redemption => e.2.key = key && e.2.deletedAt.isNone)
      hfind
    have hget := (get?_eq_some_iff d.redemptions id' r).2 hmem
    rw [Bool.and_eq_true, isNone_iff_eq_none] at hkey
    split_ifs at htx with hstatus hexpired
    split at htx
    · cases htx
    · rename_i redemptions hred
      split at htx
      · cases htx
      · rename_i users husers
        cases htx
        obtain ⟨r₁, -, -, hredemptions⟩ := Db.exists_of_affected hred
        obtain ⟨u, hu, -, husers⟩ := Db.exists_of_affected husers
        exact ⟨r, hget, hkey.2, not_not.1 hstatus, rfl, hredemptions, u, hu, by rw [husers]⟩

theorem step_paid (h : s.step a = some s') :
    s'.paid = s.paid ∧ s'.store.db = s.store.db ∨ ∃ key userId now redeemedTime id quota,
        a = .redeem key userId now redeemedTime ∧
        Payment.redeem s.store key userId now redeemedTime = .ok (s'.store, id, quota) ∧
        s'.edits = s.edits ∧
        s'.paid = s.paid ++ [{ redemptionId := id, userId := userId, quota := quota }] := by
  cases a with
  | redeem key userId now redeemedTime =>
    unfold step at h
    dsimp only at h
    split at h
    · rename_i store id quota hredeem
      cases h
      exact .inr ⟨key, userId, now, redeemedTime, id, quota, rfl, hredeem, rfl, rfl⟩
    · cases h
      exact .inl ⟨rfl, rfl⟩
  | readForEdit call now edit =>
    unfold step at h
    dsimp only at h
    split at h <;> cases h <;> exact .inl ⟨rfl, rfl⟩
  | writeEdit call =>
    obtain ⟨⟨id, read⟩, -, rfl⟩ := map_eq_some_iff.1 h
    exact .inl ⟨rfl, rfl⟩
  | deleteById | deleteInvalid =>
    cases h
    exact .inl ⟨rfl, rfl⟩

theorem step_spent (h : s.step a = some s') (hok : editIsFresh s a = true) {r : Redemption}
    (hr : s.store.redemptions.get? id = some r) (hspent : r.deletedAt = none → r.status ≠ .enabled)
    : ∃ r', s'.store.redemptions.get? id = some r' ∧
      (r'.deletedAt = none → r'.status ≠ .enabled) := by
  cases a with
  | redeem key userId now redeemedTime =>
    unfold step at h
    dsimp only at h
    split at h
    · rename_i store id' quota hred
      cases h
      obtain ⟨r₁, hr₁, -, -, -, hredemptions, -⟩ := redeem_spec hred
      rw [hredemptions, get?_modify]
      split_ifs with hid
      · exact ⟨_, by rw [hr]; rfl, fun _ => by simp [usedColumns]⟩
      · exact ⟨r, hr, hspent⟩
    · cases h
      exact ⟨r, hr, hspent⟩
  | readForEdit call now edit =>
    unfold step at h
    dsimp only at h
    split at h <;> cases h <;> exact ⟨r, hr, hspent⟩
  | writeEdit call =>
    obtain ⟨⟨id', read⟩, hget, rfl⟩ := map_eq_some_iff.1 h
    dsimp only [updateRedemption]
    rw [get?_modify]
    split_ifs with hid
    · subst hid
      rw [hr]
      refine ⟨_, rfl, fun hdeleted => ?_⟩
      by_cases hlive : r.deletedAt = none
      · have hfresh : r.status = read.status := by
          simpa [editIsFresh, hget, hr, hlive] using hok
        simp only [hlive, isNone_none, if_true, ← hfresh]
        exact hspent hlive
      · simp [hlive] at hdeleted
    · exact ⟨r, hr, hspent⟩
  | deleteById id' now =>
    cases h
    dsimp only [deleteRedemptionById]
    rw [get?_modify]
    split_ifs with hid
    · rw [hr]
      refine ⟨_, rfl, fun hdeleted => ?_⟩
      dsimp only at hdeleted ⊢
      split_ifs at hdeleted ⊢
      exact hspent hdeleted
    · exact ⟨r, hr, hspent⟩
  | deleteInvalid now =>
    cases h
    dsimp only [deleteInvalidRedemptions]
    rw [get?_updateWhere, hr]
    refine ⟨_, rfl, fun hdeleted => ?_⟩
    dsimp only at hdeleted ⊢
    split_ifs at hdeleted ⊢
    exact hspent hdeleted

/-! ## Runs -/

theorem step_paidOnce (hs : s.PaidOnce id) (hok : editIsFresh s a = true) (h : s.step a = some s') :
    s'.PaidOnce id := by
  rcases step_paid h with ⟨hpaid, -⟩ | ⟨key, userId, now, redeemedTime, id', quota, rfl, hred, -, hpaid⟩
  · have hsame : s'.paymentsOf id = s.paymentsOf id := by rw [paymentsOf, paymentsOf, hpaid]
    refine ⟨hsame ▸ hs.once, fun hne => ?_⟩
    obtain ⟨r, hr, hspent⟩ := hs.spent (hsame ▸ hne)
    exact step_spent h hok hr hspent
  · obtain ⟨r, hr, hlive, henabled, -, hredemptions, -⟩ := redeem_spec hred
    by_cases hid : id' = id
    · subst hid
      -- an enabled code has not paid
      have hnone : s.paymentsOf id' = [] := by
        by_contra hne
        obtain ⟨r', hr', hspent⟩ := hs.spent hne
        cases hr.symm.trans hr'
        exact hspent hlive henabled
      have hone : s'.paymentsOf id' =
          [{ redemptionId := id', userId := userId, quota := quota }] := by
        rw [paymentsOf, hpaid, filter_append]
        rw [paymentsOf] at hnone
        simp [hnone]
      refine ⟨by rw [hone]; rfl, fun _ => ⟨usedColumns redeemedTime userId r, ?_, fun _ => ?_⟩⟩
      · rw [hredemptions, get?_modify_self, hr, map_some]
      · simp [usedColumns]
    · have hsame : s'.paymentsOf id = s.paymentsOf id := by
        rw [paymentsOf, paymentsOf, hpaid, filter_append]
        simp [hid]
      refine ⟨hsame ▸ hs.once, fun hne => ?_⟩
      obtain ⟨r', hr', hspent⟩ := hs.spent (hsame ▸ hne)
      exact step_spent h hok hr' hspent

/-- What the users hold, less what the codes have paid. -/
def unpaid (s : RedemptionSystem) : ℤ :=
  s.store.db.users.sum (fun _ u => u.quota) - (s.paid.map (·.quota)).sum

theorem step_unpaid (h : s.step a = some s') : s'.unpaid = s.unpaid := by
  unfold unpaid
  rcases step_paid h with ⟨hpaid, hdb⟩ | ⟨key, userId, now, redeemedTime, id, quota, rfl, hred, -, hpaid⟩
  · rw [hpaid, hdb]
  · obtain ⟨r, -, -, -, -, -, u, hu, hdb⟩ := redeem_spec hred
    rw [hdb, hpaid, sum_modify hu]
    simp only [map_append, sum_append, map_singleton, sum_singleton]
    ring

/-- A code pays at most once, and the users receive what the codes pay, as long as every edit is
written while the code has the status that the edit has read. -/
theorem pays_at_most_once {s s' : RedemptionSystem} {l : List RedemptionAction} (hpaid : s.paid = [])
    (h : Run.run step s l = some s') (hok : Run.Along step (fun s a => editIsFresh s a = true) s l) :
    (∀ id, (s'.paymentsOf id).length ≤ 1) ∧ s'.store.db.users.sum (fun _ u => u.quota) =
        s.store.db.users.sum (fun _ u => u.quota) + (s'.paid.map (·.quota)).sum := by
  constructor
  · intro id
    have hstart : s.PaidOnce id := by
      refine ⟨?_, fun hne => ?_⟩
      · simp [paymentsOf, hpaid]
      · simp [paymentsOf, hpaid] at hne
    have hstep : ∀ s a s', PaidOnce s id → editIsFresh s a = true → step s a = some s' →
        PaidOnce s' id :=
      fun s a s' hs ha hstep => step_paidOnce hs ha hstep
    exact (Run.invariant_along hstep hstart hok h).once
  · have hstep : ∀ t a t', t.unpaid = s.unpaid → step t a = some t' → t'.unpaid = s.unpaid :=
      fun t a t' ht hstep => (step_unpaid hstep).trans ht
    have hsame : s'.unpaid = s.unpaid := Run.invariant hstep rfl h
    unfold unpaid at hsame
    rw [hpaid, map_nil, sum_nil] at hsame
    linarith

def twoUsers : RedemptionSystem where
  store :=
    { db := { users := ⟨[(1, { quota := 0 }), (2, { quota := 0 })], by decide⟩ }
      redemptions := ⟨[(7, { key := "code", quota := 500 })], by decide⟩ }

/-- The edit begins before the first redemption and is written behind it. -/
theorem pays_twice :
    ∃ s', Run.run step twoUsers
        [.readForEdit 1 10 { id := 7, name := "renamed", quota := 500, expiredTime := 0 },
          .redeem "code" 1 11 11, .writeEdit 1, .redeem "code" 2 12 12] = some s' ∧
      s'.paymentsOf 7 = [{ redemptionId := 7, userId := 1, quota := 500 },
        { redemptionId := 7, userId := 2, quota := 500 }] := by
  exact ⟨_, rfl, by decide +kernel⟩

def editThenRedeem : List RedemptionAction :=
  [.readForEdit 1 10 { id := 7, name := "renamed", quota := 500, expiredTime := 0 }, .writeEdit 1,
    .redeem "code" 1 11 11, .redeem "code" 2 12 12]

theorem pays_at_most_once_edited :
    ∃ s', Run.run step twoUsers editThenRedeem = some s' ∧ (∀ id, (s'.paymentsOf id).length ≤ 1) ∧
      s'.store.db.users.sum (fun _ u => u.quota) =
        twoUsers.store.db.users.sum (fun _ u => u.quota) + (s'.paid.map (·.quota)).sum := by
  exact exists_some_imp (p := fun _ => True) (by decide +kernel) fun s' h _ =>
    pays_at_most_once rfl h (by decide +kernel)

end RedemptionSystem

end BeeApi.Payment
