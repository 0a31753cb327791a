import BeeApi.Model.Db

/-!
# Token quota

`adjustTokenQuotaTx` moves quota between the two counters of a limited token and leaves those of
an unlimited one alone.  `adjustTokenQuotaTx_eq_ok_iff` is its only specification: later modules
never unfold it.
-/

namespace BeeApi

open Strings Bool

def errInsufficientUserQuota : String := "insufficient user quota"

def errInsufficientTokenQuota : String := "insufficient token quota"

/-- The scope and owner part of the `WHERE` clause.  A refund is `Unscoped`: a soft-deleted token
blocks new consumption but not the rollback of what was charged before the deletion. -/
def tokenSelected (userID delta : ℤ) (t : Token) : Bool :=
  (decide (delta < 0) || t.deletedAt.isNone) && (decide (userID ≤ 0) || t.userId == userID)

/-- The quota part of the `WHERE` clause of `adjustTokenQuotaTx`. -/
def tokenQuotaGuard (delta : ℤ) (t : Token) : Bool :=
  if 0 < delta then t.unlimitedQuota || decide (delta ≤ t.remainQuota)
  else t.unlimitedQuota || decide (-delta ≤ t.usedQuota)

/-- The `CASE WHEN unlimited_quota` updates of `adjustTokenQuotaTx`. -/
def tokenQuotaUpdates (now delta : ℤ) (t : Token) : Token :=
  if 0 < delta then
    { t with
      remainQuota := if t.unlimitedQuota then t.remainQuota else t.remainQuota - delta
      usedQuota := if t.unlimitedQuota then t.usedQuota else t.usedQuota + delta
      accessedTime := now }
  else
    let refund := -delta
    { t with
      remainQuota := if t.unlimitedQuota then t.remainQuota else t.remainQuota + refund
      usedQuota := if t.unlimitedQuota then t.usedQuota else t.usedQuota - refund
      accessedTime := now }

/-- The re-read that tells an unchanged unlimited token from a missing or exhausted one. -/
def resolveZeroAffectedTokenQuotaUpdate (db : Db) (id userID delta : ℤ) : Except String Db :=
  match db.tokens.get? id with
  | some t =>
    if tokenSelected userID delta t && t.unlimitedQuota then .ok db
    else .error errInsufficientTokenQuota
  | none => .error errInsufficientTokenQuota

def adjustTokenQuotaTx (db : Db) (now id userID delta : ℤ) : Except String Db :=
  if id ≤ 0 then .error "token id must be positive"
  else if delta = 0 then .ok db
  else
    match db.tokens.updateRow id (fun t => tokenSelected userID delta t && tokenQuotaGuard delta t)
        (tokenQuotaUpdates now delta) with
    | some tokens =>
      -- the driver counts no row when every column already holds its new value
      if db.changedRowsOnly && decide (tokens = db.tokens) then
        resolveZeroAffectedTokenQuotaUpdate db id userID delta
      else .ok { db with tokens }
    | none => resolveZeroAffectedTokenQuotaUpdate db id userID delta

/-- An adjustment by a nonzero amount succeeds exactly when the row is selected and its guard
holds, and then rewrites that row only. -/
theorem adjustTokenQuotaTx_eq_ok_iff {db db' : Db} {now id userID delta : ℤ} (hid : 0 < id)
    (hdelta : delta ≠ 0) :
    adjustTokenQuotaTx db now id userID delta = .ok db' ↔
      ∃ t, db.tokens.get? id = some t ∧ tokenSelected userID delta t = true ∧
        tokenQuotaGuard delta t = true ∧
        db' = { db with tokens := db.tokens.modify id (tokenQuotaUpdates now delta) } := by
  unfold adjustTokenQuotaTx
  rw [if_neg (by omega), if_neg hdelta]
  cases hu : db.tokens.updateRow id
      (fun t => tokenSelected userID delta t && tokenQuotaGuard delta t)
      (tokenQuotaUpdates now delta) with
  | some tokens =>
    obtain ⟨t, ht, hp, rfl⟩ := (Table.updateRow_eq_some_iff _ _ _ _ _).1 hu
    rw [and_eq_true] at hp
    have hgoal : (∃ t, db.tokens.get? id = some t ∧ tokenSelected userID delta t = true ∧
        tokenQuotaGuard delta t = true ∧
        db' = { db with tokens := db.tokens.modify id (tokenQuotaUpdates now delta) }) ↔
        db' = { db with tokens := db.tokens.modify id (tokenQuotaUpdates now delta) } := by
      constructor
      · rintro ⟨_, _, _, _, h⟩
        exact h
      · exact fun h => ⟨t, ht, hp.1, hp.2, h⟩
    rw [hgoal]
    dsimp only
    split_ifs with hz
    · -- nothing changed, so the re-read has to find the token unlimited
      simp only [and_eq_true, decide_eq_true_eq] at hz
      have hself : tokenQuotaUpdates now delta t = t := by
        have hget := congrArg (fun x => x.get? id) hz.2
        simpa [ht] using hget
      have hunl : t.unlimitedQuota = true := by
        by_contra hl
        have hr := congrArg Token.remainQuota hself
        simp only [tokenQuotaUpdates, not_eq_true] at hr hl
        split_ifs at hr <;> simp_all
      unfold resolveZeroAffectedTokenQuotaUpdate
      rw [ht]
      simp only [hp.1, hunl, Bool.and_self, if_true, Except.ok.injEq, hz.2]
      exact eq_comm
    · rw [Except.ok.injEq]
      exact eq_comm
  | none =>
    have hn := (Table.updateRow_eq_none_iff _ _ _ _).1 hu
    unfold resolveZeroAffectedTokenQuotaUpdate
    constructor
    · intro h
      exfalso
      cases ht : db.tokens.get? id with
      | none =>
        rw [ht] at h
        cases h
      | some t =>
        rw [ht] at h
        dsimp only at h
        split_ifs at h with hs
        rw [and_eq_true] at hs
        have := hn t ht
        simp [hs.1, hs.2, tokenQuotaGuard] at this
    · rintro ⟨t, ht, hs, hg, -⟩
      have := hn t ht
      simp [hs, hg] at this

theorem tokenQuotaUpdates_userId (now delta : ℤ) (t : Token) :
    (tokenQuotaUpdates now delta t).userId = t.userId := by
  unfold tokenQuotaUpdates
  split_ifs <;> rfl

theorem tokenQuotaUpdates_unlimitedQuota (now delta : ℤ) (t : Token) :
    (tokenQuotaUpdates now delta t).unlimitedQuota = t.unlimitedQuota := by
  unfold tokenQuotaUpdates
  split_ifs <;> rfl

theorem tokenQuotaUpdates_usedQuota (now delta : ℤ) (t : Token) :
    (tokenQuotaUpdates now delta t).usedQuota =
      if t.unlimitedQuota then t.usedQuota else t.usedQuota + delta := by
  unfold tokenQuotaUpdates
  split_ifs <;> simp_all

theorem tokenQuotaUpdates_remainQuota (now delta : ℤ) (t : Token) :
    (tokenQuotaUpdates now delta t).remainQuota =
      if t.unlimitedQuota then t.remainQuota else t.remainQuota - delta := by
  unfold tokenQuotaUpdates
  split_ifs <;> simp_all [sub_eq_add_neg]

/-- `Token.Update`: the selected columns of the row are overwritten, `used_quota` is not one of
them.  A soft-deleted row is not found, and the update then changes nothing. -/
def Token.update (db : Db) (id remainQuota : ℤ) (unlimitedQuota : Bool) : Db :=
  match db.tokens.updateRow id (fun t => t.deletedAt.isNone)
      (fun t => { t with remainQuota, unlimitedQuota }) with
  | some tokens => { db with tokens }
  | none => db

end BeeApi
