import BeeApi.Wallet.Invariant

/-!
# What one step does

`step_spec` says, for every step from a state that satisfies the invariant, that the invariant
still holds and that the step did one of the things `Effect` lists.  Every result about runs is
derived from it.
-/

namespace BeeApi.Wallet

open Strings

/-- The request a step acts for. -/
def subject (w : World) : Label → Option String
  | .preConsume requestId _ _ _ _ => some requestId
  | .reserve requestId _ _ => some requestId
  | .settle requestId _ _ => some requestId
  | .refund requestId _ => some requestId
  | .jobLoad ticket => (w.jobs.get? ticket).map RefundJob.requestId
  | .jobRun ticket _ => (w.jobs.get? ticket).map RefundJob.requestId
  | .jobClear ticket => (w.jobs.get? ticket).map RefundJob.requestId
  | .sweep snapshot _ => w.snapshots[snapshot]?.map fun e => e.2.requestId
  | _ => none

/-- A row of `tokens` after a step that is not about a wallet reservation. -/
inductive TokenEdited (now : ℤ) (a : Label) (id : ℤ) (t : Token) : Token → Prop
  | same : TokenEdited now a id t t
  | updated (remainQuota : ℤ) (unlimitedQuota : Bool)
      (ha : a = .updateToken id remainQuota unlimitedQuota) (hlive : t.deletedAt = none) :
      TokenEdited now a id t { t with remainQuota, unlimitedQuota }
  | deleted : TokenEdited now a id t { t with deletedAt := some now }
  | adjusted (userID delta : ℤ) (ha : a = .adjustToken id userID delta false)
      (hsel : tokenSelected userID delta t = true) (hguard : tokenQuotaGuard delta t = true) :
      TokenEdited now a id t (tokenQuotaUpdates now delta t)

/-- The database after `delta` was taken from a user and a token. -/
structure Moved (db : Db) (now userId tokenId delta : ℤ) (db' : Db) : Prop where
  accepted : delta ≠ 0 → MoveAccepted db userId tokenId delta
  quota : ∀ u, quotaOf db' u = quotaOf db u - if u = userId then delta else 0
  tokens : db'.tokens =
    if delta = 0 then db.tokens else db.tokens.modify tokenId (tokenQuotaUpdates now delta)

theorem Moved.of_closeQuota {db db' : Db} {now userId tokenId delta : ℤ}
    (hacc : delta ≠ 0 → MoveAccepted db userId tokenId delta)
    (husers : db'.users = (closeQuota db now userId tokenId delta).users)
    (htokens : db'.tokens = (closeQuota db now userId tokenId delta).tokens) :
    Moved db now userId tokenId delta db' where
  accepted := hacc
  quota := by
    intro u
    rw [← @quotaOf_closeQuota db now userId tokenId delta hacc u]
    unfold quotaOf
    rw [husers]
  tokens := by
    rw [htokens, closeQuota]
    split_ifs <;> rfl

theorem Moved.of_moveQuota {db db' : Db} {now userId tokenId delta : ℤ} (hne : delta ≠ 0)
    (hacc : MoveAccepted db userId tokenId delta)
    (husers : db'.users = (moveQuota db now userId tokenId delta).users)
    (htokens : db'.tokens = (moveQuota db now userId tokenId delta).tokens) :
    Moved db now userId tokenId delta db' := by
  have hclose : closeQuota db now userId tokenId delta = moveQuota db now userId tokenId delta :=
    if_neg hne
  rw [← hclose] at husers htokens
  exact Moved.of_closeQuota (fun _ => hacc) husers htokens

/-- Everything a step can do to the database. -/
inductive Effect (w : World) (a : Label) (w' : World) : Prop
  | quiet (hdb : w'.db = w.db) (hd : w'.settleDelta = w.settleDelta)
  | edited (hsub : subject w a = none) (hd : w'.settleDelta = w.settleDelta)
      (hrec : w'.db.walletPreConsumeRecords = w.db.walletPreConsumeRecords)
      (husers : ∀ u, quotaOf w'.db u = quotaOf w.db u)
      (htok : ∀ id t', w'.db.tokens.get? id = some t' →
        ∃ t, w.db.tokens.get? id = some t ∧ TokenEdited w.now a id t t')
  | opened (k : ℤ) (r : WalletPreConsumeRecord)
      (ha : a = .preConsume r.requestId r.userId r.tokenId r.preConsumed false)
      (hd : w'.settleDelta = w.settleDelta)
      (hnew : w.sessions.get? r.requestId = none)
      (hfresh : w.db.walletRecordOf r.requestId = none) (hst : r.status = .reserved)
      (hpos : 0 < r.preConsumed)
      (hins : w.db.walletPreConsumeRecords.insert? k r = some w'.db.walletPreConsumeRecords)
      (hmove : Moved w.db w.now r.userId r.tokenId r.preConsumed w'.db)
  | extended (k : ℤ) (r : WalletPreConsumeRecord) (target delta : ℤ)
      (ha : a = .reserve r.requestId target false) (hd : w'.settleDelta = w.settleDelta)
      (hget : w.db.walletPreConsumeRecords.get? k = some r) (hst : r.status = .reserved)
      (hpos : 0 < delta)
      (hrec : w'.db.walletPreConsumeRecords = w.db.walletPreConsumeRecords.modify k fun r =>
        { r with preConsumed := r.preConsumed + delta, updatedAt := w.now })
      (hmove : Moved w.db w.now r.userId r.tokenId delta w'.db)
  | settled (k : ℤ) (r : WalletPreConsumeRecord) (actual : ℤ)
      (ha : a = .settle r.requestId actual false)
      (hd : w'.settleDelta = Function.update w.settleDelta r.requestId (actual - r.preConsumed))
      (hget : w.db.walletPreConsumeRecords.get? k = some r) (hst : r.status = .reserved)
      (hrec : w'.db.walletPreConsumeRecords = w.db.walletPreConsumeRecords.modify k fun r =>
        { r with status := .settled, updatedAt := w.now })
      (hmove : Moved w.db w.now r.userId r.tokenId (actual - r.preConsumed) w'.db)
  | refunded (k : ℤ) (r : WalletPreConsumeRecord) (amount : ℤ)
      (hsub : subject w a = some r.requestId) (hd : w'.settleDelta = w.settleDelta)
      (hget : w.db.walletPreConsumeRecords.get? k = some r) (hst : r.status = .reserved)
      (hpos : 0 < amount) (hle : amount ≤ r.preConsumed)
      (hwho : (∃ t, a = .jobRun t false ∧ amount = r.preConsumed) ∨
        ∃ i s, a = .sweep i false ∧ w.snapshots[i]? = some (k, s) ∧ amount = s.preConsumed)
      (hrec : w'.db.walletPreConsumeRecords = w.db.walletPreConsumeRecords.modify k fun r =>
        { r with status := .refunded, updatedAt := w.now })
      (hmove : Moved w.db w.now r.userId r.tokenId (-amount) w'.db)
  | unrecorded (s : BillingSession) (actual : ℤ)
      (ha : a = .settle s.requestId actual false) (hd : w'.settleDelta = w.settleDelta)
      (hs : w.sessions.get? s.requestId = some s)
      (hnone : w.db.walletRecordOf s.requestId = none) (hbare : s.preConsumedQuota ≤ 0)
      (hrec : w'.db.walletPreConsumeRecords = w.db.walletPreConsumeRecords)
      (hmove : Moved w.db w.now s.userId s.tokenId (actual - s.preConsumedQuota) w'.db)

theorem attempt_eq_ok {fault : Bool} {tx : Except String Db} {db : Db}
    (h : attempt fault tx = .ok db) : fault = false ∧ tx = .ok db := by
  unfold attempt at h
  split_ifs at h with hf
  exact ⟨by simpa using hf, h⟩

theorem RequestInv.of_record {w w' : World} {k : ℤ} {r : WalletPreConsumeRecord}
    {f : WalletPreConsumeRecord → WalletPreConsumeRecord} (hi : RequestInv w r.requestId)
    (hget : w.db.walletPreConsumeRecords.get? k = some r)
    (hrec : w'.db.walletPreConsumeRecords = w.db.walletPreConsumeRecords.modify k f)
    (hid : (f r).requestId = r.requestId) (hsnap : w'.snapshots = w.snapshots)
    (hids : (f r).userId = r.userId ∧ (f r).tokenId = r.tokenId)
    (hle : r.preConsumed ≤ (f r).preConsumed) (hrows : KeepsRows w.db w'.db)
    (hsession : ∃ s, w'.sessions.get? r.requestId = some s ∧ s.requestId = r.requestId ∧
      s.userId = r.userId ∧ s.tokenId = r.tokenId ∧ ((f r).status = .reserved →
        s.settled = false ∧ s.consumed = (f r).preConsumed ∧
          s.preConsumedQuota = (f r).preConsumed))
    (hjobs : ∀ t j, w'.jobs.get? t = some j → j.requestId = r.requestId →
      (f r).status ≠ .reserved ∧ (∃ s, w'.sessions.get? r.requestId = some s ∧ s.refunded = true) ∧
        ∃ j', w.jobs.get? t = some j' ∧ j'.requestId = r.requestId) :
    RequestInv w' r.requestId := by
  have hget' : w'.db.walletPreConsumeRecords.get? k = some (f r) := by
    rw [hrec, Table.get?_modify_self, hget]
    rfl
  -- the rewritten record is the only one of the request
  have honly : ∀ k' r', w'.db.walletPreConsumeRecords.get? k' = some r' →
      r'.requestId = r.requestId → k' = k ∧ r' = f r := by
    intro k' r' hr' he
    by_cases hk : k' = k
    · subst hk
      rw [hget'] at hr'
      exact ⟨rfl, (Option.some.inj hr').symm⟩
    · rw [hrec, Table.get?_modify_of_ne _ _ hk] at hr'
      exact absurd (hi.unique k' k r' r hr' hget he rfl) hk
  obtain ⟨s, hs, hsid, hsu, hst, hopen⟩ := hsession
  have hold := hi.record k r hget rfl
  obtain ⟨s₀, hs₀, -⟩ := hold.session
  constructor
  · intro k₁ k₂ r₁ r₂ h₁ h₂ he₁ he₂
    rw [(honly k₁ r₁ h₁ he₁).1, (honly k₂ r₂ h₂ he₂).1]
  · intro s' hs'
    rw [hs] at hs'
    cases hs'
    exact ⟨hsid, (hi.session s₀ hs₀).2⟩
  · intro _ _ _ hnone
    exact absurd hid (hnone k (f r) hget')
  · intro k' r' hr' he
    obtain ⟨-, rfl⟩ := honly k' r' hr' he
    obtain ⟨t, ht, howner⟩ := hold.token
    obtain ⟨t', ht', he'⟩ := hrows.2 _ t ht
    refine ⟨?_, ?_, ?_, ⟨s, ?_, ?_, ?_, hopen⟩, ?_, t', ?_, ?_⟩
    · exact hids.1 ▸ hold.userId_pos
    · exact hids.2 ▸ hold.tokenId_pos
    · exact hold.preConsumed_pos.trans_le hle
    · rw [hid]
      exact hs
    · rw [hsu, hids.1]
    · rw [hst, hids.2]
    · rw [hids.1]
      exact hrows.1 _ hold.user
    · rw [hids.2]
      exact ht'
    · rw [he', howner, hids.1]
  · intro e hmem he
    rw [hsnap] at hmem
    obtain ⟨hpos, r₀, hr₀, hid₀, hu₀, ht₀, hle₀⟩ := hi.snapshot e hmem he
    have hk : e.1 = k := hi.unique e.1 k r₀ r hr₀ hget (hid₀.trans he) rfl
    rw [hk, hget] at hr₀
    cases hr₀
    refine ⟨hpos, f r, ?_, hid.trans hid₀, hids.1.trans hu₀, hids.2.trans ht₀, hle₀.trans hle⟩
    rw [hk]
    exact hget'
  · intro t j hj he
    obtain ⟨hclosed, hses, -⟩ := hjobs t j hj he
    refine ⟨?_, k, f r, hget', hid.trans he.symm, fun _ _ h => absurd h hclosed⟩
    rw [he]
    exact hses
  · intro t t' j j' hj hj' he he'
    obtain ⟨-, -, j₁, hj₁, he₁⟩ := hjobs t j hj he
    obtain ⟨-, -, j₂, hj₂, he₂⟩ := hjobs t' j' hj' he'
    exact hi.job_unique t t' j₁ j₂ hj₁ hj₂ he₁ he₂

end BeeApi.Wallet
