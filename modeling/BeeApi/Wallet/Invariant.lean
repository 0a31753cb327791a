import BeeApi.Wallet.Session

/-!
# The invariant of the wallet system

What ties the in-memory session, its refund job, the durable record and the sweeper's snapshots of
one request together is `RequestInv`.  A step acts for at most one request, and `Inv.of_local`
reduces the preservation of the invariant to that request.  `Effect` lists everything a step can
do to the database.
-/

namespace BeeApi.Wallet

open Strings Option Table

def quotaOf (db : Db) (userId : ℤ) : ℤ := (db.users.get? userId).elim 0 User.quota

theorem quotaOf_moveQuota {db : Db} {now userID tokenID delta : ℤ}
    (h : MoveAccepted db userID tokenID delta) (u : ℤ) :
    quotaOf (moveQuota db now userID tokenID delta) u =
      quotaOf db u - if u = userID then delta else 0 := by
  obtain ⟨row, -, hrow, -⟩ := h
  unfold quotaOf moveQuota
  rw [get?_modify]
  split_ifs with hu
  · subst hu
    simp [hrow]
  · simp

theorem quotaOf_closeQuota {db : Db} {now userID tokenID delta : ℤ}
    (h : delta ≠ 0 → MoveAccepted db userID tokenID delta) (u : ℤ) :
    quotaOf (closeQuota db now userID tokenID delta) u =
      quotaOf db u - if u = userID then delta else 0 := by
  unfold closeQuota
  by_cases hd : delta = 0
  · simp [hd]
  · rw [if_neg hd]
    exact quotaOf_moveQuota (h hd) u

/-- Every row that was there is still there, and tokens keep their owner. -/
def KeepsRows (db db' : Db) : Prop :=
  (∀ u, (db.users.get? u).isSome → (db'.users.get? u).isSome) ∧
    ∀ id t, db.tokens.get? id = some t → ∃ t', db'.tokens.get? id = some t' ∧ t'.userId = t.userId

theorem KeepsRows.refl (db : Db) : KeepsRows db db :=
  ⟨fun _ h => h, fun _ t h => ⟨t, h, rfl⟩⟩

theorem KeepsRows.modify_token {db db' : Db} (id : ℤ) (f : Token → Token)
    (husers : ∀ u, (db.users.get? u).isSome → (db'.users.get? u).isSome)
    (htokens : db'.tokens = db.tokens.modify id f) (hf : ∀ t, (f t).userId = t.userId) :
    KeepsRows db db' := by
  refine ⟨husers, fun id' t h => ?_⟩
  rw [htokens, get?_modify]
  split_ifs
  · exact ⟨f t, by rw [h]; rfl, hf t⟩
  · exact ⟨t, h, rfl⟩

theorem keepsRows_moveQuota (db : Db) (now userID tokenID delta : ℤ) :
    KeepsRows db (moveQuota db now userID tokenID delta) := by
  refine KeepsRows.modify_token tokenID _ (fun u h => ?_) rfl (tokenQuotaUpdates_userId now delta)
  unfold moveQuota
  rw [get?_modify]
  split_ifs <;> simpa using h

theorem keepsRows_closeQuota (db : Db) (now userID tokenID delta : ℤ) :
    KeepsRows db (closeQuota db now userID tokenID delta) := by
  unfold closeQuota
  split_ifs
  · exact KeepsRows.refl db
  · exact keepsRows_moveQuota db now userID tokenID delta

/-- A record agrees with the session that wrote it.  While it is `reserved` the session is open and
knows the whole amount. -/
structure RecordInv (w : World) (r : WalletPreConsumeRecord) : Prop where
  userId_pos : 0 < r.userId
  tokenId_pos : 0 < r.tokenId
  preConsumed_pos : 0 < r.preConsumed
  session : ∃ s, w.sessions.get? r.requestId = some s ∧ s.userId = r.userId ∧
    s.tokenId = r.tokenId ∧ (r.status = .reserved →
      s.settled = false ∧ s.consumed = r.preConsumed ∧ s.preConsumedQuota = r.preConsumed)
  user : (w.db.users.get? r.userId).isSome
  token : ∃ t, w.db.tokens.get? r.tokenId = some t ∧ t.userId = r.userId

/-- A snapshot is an earlier version of its record, which can only have been extended since. -/
structure SnapshotInv (w : World) (e : ℤ × WalletPreConsumeRecord) : Prop where
  preConsumed_pos : 0 < e.2.preConsumed
  current : ∃ r, w.db.walletPreConsumeRecords.get? e.1 = some r ∧ r.requestId = e.2.requestId ∧
    r.userId = e.2.userId ∧ r.tokenId = e.2.tokenId ∧ e.2.preConsumed ≤ r.preConsumed

/-- While a refund job is alive its session cannot be extended, so the amount it read is still the
amount of the record. -/
structure JobInv (w : World) (job : RefundJob) : Prop where
  session : ∃ s, w.sessions.get? job.requestId = some s ∧ s.refunded = true
  record : ∃ k r, w.db.walletPreConsumeRecords.get? k = some r ∧ r.requestId = job.requestId ∧
    ∀ amount, job.phase = .loaded amount → r.status = .reserved → amount = r.preConsumed

structure RequestInv (w : World) (rid : String) : Prop where
  unique : ∀ k k' r r', w.db.walletPreConsumeRecords.get? k = some r →
    w.db.walletPreConsumeRecords.get? k' = some r' → r.requestId = rid → r'.requestId = rid → k = k'
  session : ∀ s, w.sessions.get? rid = some s → s.requestId = rid ∧ trimSpace rid ≠ ""
  /-- A session without a record has reserved nothing. -/
  bare : ∀ s, w.sessions.get? rid = some s → s.settled = false →
    (∀ k r, w.db.walletPreConsumeRecords.get? k = some r → r.requestId ≠ rid) →
    s.preConsumedQuota ≤ 0 ∧ s.tokenConsumed = 0
  record : ∀ k r, w.db.walletPreConsumeRecords.get? k = some r → r.requestId = rid → RecordInv w r
  snapshot : ∀ e ∈ w.snapshots, e.2.requestId = rid → SnapshotInv w e
  job : ∀ t j, w.jobs.get? t = some j → j.requestId = rid → JobInv w j
  job_unique : ∀ t t' j j', w.jobs.get? t = some j → w.jobs.get? t' = some j' →
    j.requestId = rid → j'.requestId = rid → t = t'

def Inv (w : World) : Prop := ∀ rid, RequestInv w rid

theorem Inv.uniqueRequestIds {w : World} (hi : Inv w) : UniqueRequestIds w.db := by
  intro k k' r r' hr hr' he
  exact (hi r'.requestId).unique k k' r r' hr hr' he rfl

theorem Inv.of_initial {w : World} (h : Initial w) : Inv w := by
  intro rid
  constructor <;> simp [h.records, h.sessions, h.jobs, h.snapshots]

/-- The two worlds differ, as far as the invariant can see, only in the request `rid`. -/
structure AgreeExcept (rid : String) (w w' : World) : Prop where
  rows : KeepsRows w.db w'.db
  sessions : ∀ rid', rid' ≠ rid → w'.sessions.get? rid' = w.sessions.get? rid'
  records : ∀ k r, r.requestId ≠ rid →
    (w'.db.walletPreConsumeRecords.get? k = some r ↔ w.db.walletPreConsumeRecords.get? k = some r)
  jobs : ∀ t j, j.requestId ≠ rid → (w'.jobs.get? t = some j ↔ w.jobs.get? t = some j)
  snapshots : w'.snapshots = w.snapshots

theorem RecordInv.of_rows {w w' : World} {r : WalletPreConsumeRecord} (h : RecordInv w r)
    (hrows : KeepsRows w.db w'.db)
    (hs : w'.sessions.get? r.requestId = w.sessions.get? r.requestId) : RecordInv w' r where
  userId_pos := h.userId_pos
  tokenId_pos := h.tokenId_pos
  preConsumed_pos := h.preConsumed_pos
  session := by
    rw [hs]
    exact h.session
  user := hrows.1 _ h.user
  token := by
    obtain ⟨t, ht, howner⟩ := h.token
    obtain ⟨t', ht', he⟩ := hrows.2 _ t ht
    exact ⟨t', ht', he.trans howner⟩

theorem RequestInv.of_agreeExcept {w w' : World} {rid rid' : String} (h : AgreeExcept rid w w')
    (hne : rid' ≠ rid) (hi : RequestInv w rid') : RequestInv w' rid' where
  unique := by
    intro k k' r r' hr hr' he he'
    have hr := (h.records k r (he ▸ hne)).1 hr
    have hr' := (h.records k' r' (he' ▸ hne)).1 hr'
    exact hi.unique k k' r r' hr hr' he he'
  session := by
    intro s hs
    rw [h.sessions rid' hne] at hs
    exact hi.session s hs
  bare := by
    intro s hs hsettled hnone
    rw [h.sessions rid' hne] at hs
    refine hi.bare s hs hsettled fun k r hr he => ?_
    exact hnone k r ((h.records k r (he ▸ hne)).2 hr) he
  record := by
    intro k r hr he
    have hr := (h.records k r (he ▸ hne)).1 hr
    exact (hi.record k r hr he).of_rows h.rows (h.sessions _ (he ▸ hne))
  snapshot := by
    intro e hmem he
    rw [h.snapshots] at hmem
    obtain ⟨hpos, r, hr, hid, hrest⟩ := hi.snapshot e hmem he
    have hne' : r.requestId ≠ rid := by
      rw [hid, he]
      exact hne
    exact ⟨hpos, r, (h.records e.1 r hne').2 hr, hid, hrest⟩
  job := by
    intro t j hj he
    have hj := (h.jobs t j (he ▸ hne)).1 hj
    obtain ⟨hs, k, r, hr, hid, hload⟩ := hi.job t j hj he
    have hne' : r.requestId ≠ rid := by
      rw [hid, he]
      exact hne
    refine ⟨?_, k, r, (h.records k r hne').2 hr, hid, hload⟩
    rw [h.sessions _ (he ▸ hne)]
    exact hs
  job_unique := by
    intro t t' j j' hj hj' he he'
    have hj := (h.jobs t j (he ▸ hne)).1 hj
    have hj' := (h.jobs t' j' (he' ▸ hne)).1 hj'
    exact hi.job_unique t t' j j' hj hj' he he'

theorem Inv.of_local {w w' : World} (hi : Inv w) (rid : String) (h : AgreeExcept rid w w')
    (hrid : RequestInv w' rid) : Inv w' := by
  intro rid'
  by_cases hne : rid' = rid
  · rw [hne]
    exact hrid
  · exact (hi rid').of_agreeExcept h hne

theorem Inv.of_keepsRows {w w' : World} (hi : Inv w) (hrows : KeepsRows w.db w'.db)
    (hrec : w'.db.walletPreConsumeRecords = w.db.walletPreConsumeRecords)
    (hs : w'.sessions = w.sessions) (hj : w'.jobs = w.jobs) (hsn : w'.snapshots = w.snapshots) :
    Inv w' := by
  intro rid
  -- any other request id will do as the exception
  refine @RequestInv.of_agreeExcept w w' (rid ++ "'") rid ⟨hrows, ?_, ?_, ?_, hsn⟩ ?_ (hi rid)
  · intro rid' _
    rw [hs]
  · intro k r _
    rw [hrec]
  · intro t j _
    rw [hj]
  · intro h
    have := congrArg String.length h
    simp at this

theorem records_modify_other {t : Table ℤ WalletPreConsumeRecord} {k : ℤ} {rid : String}
    {r : WalletPreConsumeRecord} {f : WalletPreConsumeRecord → WalletPreConsumeRecord}
    (hget : t.get? k = some r) (hr : r.requestId = rid) (hf : (f r).requestId = rid) (k' : ℤ)
    (r' : WalletPreConsumeRecord) (hne : r'.requestId ≠ rid) :
    (t.modify k f).get? k' = some r' ↔ t.get? k' = some r' := by
  rw [get?_modify]
  split_ifs with hk
  · subst hk
    rw [hget, map_some, some.injEq, some.injEq]
    constructor
    · rintro rfl
      exact absurd hf hne
    · rintro rfl
      exact absurd hr hne
  · rfl

end BeeApi.Wallet
