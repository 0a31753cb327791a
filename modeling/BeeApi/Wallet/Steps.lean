import BeeApi.Wallet.Effect

/-!
# The steps, one by one

Each label gets a lemma that it keeps the invariant and has one of the effects; `step_spec` puts
them together.
-/

namespace BeeApi.Wallet

open Strings Option Table KeepsRows

def Meets (w : World) (a : Label) (w' : World) : Prop := Inv w' ∧ Effect w a w'

variable {w w' : World} {rid requestId : String} {s s' : BillingSession} {userId ticket id : ℤ}
  {fault : Bool}

theorem Meets.same {a : Label} (hi : Inv w) : Meets w a w :=
  ⟨hi, .quiet rfl rfl⟩

/-! ## Opening a session -/

theorem RequestInv.fresh (hi : RequestInv w rid) (hs : w.sessions.get? rid = none) :
    (∀ k r, w.db.walletPreConsumeRecords.get? k = some r → r.requestId ≠ rid) ∧
      (∀ e ∈ w.snapshots, e.2.requestId ≠ rid) ∧
      ∀ t j, w.jobs.get? t = some j → j.requestId ≠ rid := by
  have hrec : ∀ k r, w.db.walletPreConsumeRecords.get? k = some r → r.requestId ≠ rid := by
    intro k r hr he
    obtain ⟨s, hses, -⟩ := (hi.record k r hr he).session
    rw [he, hs] at hses
    cases hses
  refine ⟨hrec, ?_, ?_⟩
  · intro e hmem he
    obtain ⟨-, r, hr, hid, -⟩ := hi.snapshot e hmem he
    exact hrec e.1 r hr (hid.trans he)
  · intro t j hj he
    obtain ⟨⟨s, hses, -⟩, -⟩ := hi.job t j hj he
    rw [he, hs] at hses
    cases hses

theorem RequestInv.of_opened (hi : RequestInv w rid) (hnone : w.sessions.get? rid = none)
    (hblank : trimSpace rid ≠ "") (hs : w'.sessions.get? rid = some s) (hid : s.requestId = rid)
    (hsnap : w'.snapshots = w.snapshots) (hjobs : w'.jobs = w.jobs)
    (hunique : ∀ k k' r r', w'.db.walletPreConsumeRecords.get? k = some r →
      w'.db.walletPreConsumeRecords.get? k' = some r' → r.requestId = rid → r'.requestId = rid →
      k = k') (hbare : (∀ k r, w'.db.walletPreConsumeRecords.get? k = some r → r.requestId ≠ rid) →
      s.preConsumedQuota ≤ 0 ∧ s.tokenConsumed = 0)
    (hrecord : ∀ k r, w'.db.walletPreConsumeRecords.get? k = some r → r.requestId = rid →
      RecordInv w' r) : RequestInv w' rid := by
  obtain ⟨-, hsn, hj⟩ := hi.fresh hnone
  have hget : ∀ s', w'.sessions.get? rid = some s' → s' = s := by
    intro s' hs'
    rw [hs] at hs'
    exact (some.inj hs').symm
  refine ⟨hunique, ?_, ?_, hrecord, ?_, ?_, ?_⟩
  · intro s' hs'
    obtain rfl := hget s' hs'
    exact ⟨hid, hblank⟩
  · intro s' hs' _ hno
    obtain rfl := hget s' hs'
    exact hbare hno
  · intro e hmem he
    rw [hsnap] at hmem
    exact absurd he (hsn e hmem)
  · intro t j hjob he
    rw [hjobs] at hjob
    exact absurd he (hj t j hjob)
  · intro t _ j _ hjob _ he _
    rw [hjobs] at hjob
    exact absurd he (hj t j hjob)

theorem preConsume_bare (hi : Inv w) (hblank : trimSpace requestId ≠ "")
    (hnone : w.sessions.get? requestId = none) (hid : s.requestId = requestId)
    (hpre : s.preConsumedQuota ≤ 0) (htok : s.tokenConsumed = 0) :
    Inv { w with sessions := w.sessions.put requestId s } := by
  obtain ⟨hrec, -, -⟩ := (hi requestId).fresh hnone
  refine hi.of_local requestId
    ⟨refl w.db, ?_, fun _ _ _ => Iff.rfl, fun _ _ _ => Iff.rfl, rfl⟩ ?_
  · intro rid' hne
    exact (get?_put _ _ _ _).trans (if_neg hne)
  · refine (hi requestId).of_opened hnone hblank ((get?_put _ _ _ _).trans (if_pos rfl)) hid
      rfl rfl ?_ (fun _ => ⟨hpre, htok⟩) ?_
    · intro k _ r _ hr _ he _
      exact absurd he (hrec k r hr)
    · intro k r hr he
      exact absurd he (hrec k r hr)

theorem preConsume_reserved {db : Db} {tokenId quota : ℤ} (hi : Inv w)
    (hblank : trimSpace requestId ≠ "") (hnone : w.sessions.get? requestId = none)
    (h : reserveUserTokenQuotaWithRecord w.db w.now requestId userId tokenId quota = .ok db)
    (hs : s = ⟨requestId, userId, tokenId, quota, quota, quota, 0, false, false, false⟩) :
    Inv { w with db, sessions := w.sessions.put requestId s } := by
  obtain ⟨hu, ht, hq, ⟨row, t, hrow, -, htok, hsel, -⟩, hfresh, k, records, hins, hdb⟩ :=
    reserve_of_ok hblank h
  have hrows : KeepsRows w.db db := by
    rw [hdb]
    exact keepsRows_moveQuota w.db w.now userId tokenId quota
  have hrecords : db.walletPreConsumeRecords = records := by rw [hdb]
  have hget := get?_of_insert? hins
  rw [← hrecords] at hget
  -- the inserted row is the only one of the request
  have honly : ∀ k' r, db.walletPreConsumeRecords.get? k' = some r → r.requestId = requestId →
      k' = k ∧ r = reservedRecord w.now requestId userId tokenId quota := by
    intro k' r hr he
    rw [hget] at hr
    split_ifs at hr with hk
    · exact ⟨hk, (some.inj hr).symm⟩
    · exact absurd he (walletRecordOf_eq_none_iff.1 hfresh k' r hr)
  have huser : (w.db.users.get? userId).isSome := by simp [hrow]
  have howner : t.userId = userId := by
    simp only [tokenSelected, Bool.and_eq_true, Bool.or_eq_true, decide_eq_true_eq, beq_iff_eq]
      at hsel
    exact hsel.2.resolve_left (by omega)
  refine hi.of_local requestId ⟨hrows, ?_, ?_, fun _ _ _ => Iff.rfl, rfl⟩ ?_
  · intro rid' hne
    exact (get?_put _ _ _ _).trans (if_neg hne)
  · intro k' r hne
    show db.walletPreConsumeRecords.get? k' = some r ↔ _
    rw [hget]
    split_ifs with hk
    · subst hk
      rw [((insert?_eq_some_iff _ _ _ _).1 hins).1, some.injEq]
      refine iff_of_false ?_ (by simp)
      rintro rfl
      exact hne rfl
    · rfl
  · have hses : (w.sessions.put requestId s).get? requestId = some s :=
      (get?_put _ _ _ _).trans (if_pos rfl)
    refine (hi requestId).of_opened hnone hblank hses (by rw [hs]) rfl rfl ?_ ?_ ?_
    · intro k₁ k₂ r₁ r₂ h₁ h₂ he₁ he₂
      rw [(honly k₁ r₁ h₁ he₁).1, (honly k₂ r₂ h₂ he₂).1]
    · intro hno
      have hk : db.walletPreConsumeRecords.get? k =
          some (reservedRecord w.now requestId userId tokenId quota) := by
        rw [hget, if_pos rfl]
      exact absurd rfl (hno k _ hk)
    · intro k' r hr he
      obtain ⟨-, rfl⟩ := honly k' r hr he
      obtain ⟨t', ht', he'⟩ := hrows.2 _ t htok
      refine ⟨hu, ht, hq, ⟨s, hses, ?_⟩, hrows.1 _ huser, t', ht', he'.trans howner⟩
      subst hs
      exact ⟨rfl, rfl, fun _ => ⟨rfl, rfl, rfl⟩⟩

theorem preConsume_spec {tokenId quota : ℤ} (hi : Inv w)
    (h : step w (.preConsume requestId userId tokenId quota fault) = some w') :
    Meets w (.preConsume requestId userId tokenId quota fault) w' := by
  rw [step] at h
  split_ifs at h with hen
  have hblank : trimSpace requestId ≠ "" := fun he => hen (.inl he)
  have hnone : w.sessions.get? requestId = none := by
    cases hg : w.sessions.get? requestId with
    | none => rfl
    | some s => exact absurd (.inr (by simp [hg])) hen
  unfold BillingSession.preConsume at h
  by_cases hq : 0 < quota
  · rw [if_pos hq] at h
    cases htx : attempt fault
        (reserveUserTokenQuotaWithRecord w.db w.now requestId userId tokenId quota) with
    | error e =>
      simp only [htx, bind, Except.bind, some.injEq] at h
      subst h
      exact Meets.same hi
    | ok db =>
      simp only [htx, bind, Except.bind, some.injEq] at h
      subst h
      obtain ⟨rfl, htx'⟩ := attempt_eq_ok htx
      obtain ⟨-, -, hpos, hacc, hfresh, k, records, hins, hdb⟩ := reserve_of_ok hblank htx'
      refine ⟨preConsume_reserved hi hblank hnone htx' rfl,
        .opened k (reservedRecord w.now requestId userId tokenId quota) rfl rfl hnone hfresh rfl
          hpos ?_ ?_⟩
      · rw [hdb]
        exact hins
      · rw [hdb]
        exact Moved.of_moveQuota hpos.ne' hacc rfl rfl
  · rw [if_neg hq] at h
    simp only [some.injEq] at h
    subst h
    exact ⟨preConsume_bare hi hblank hnone rfl (by dsimp only; omega) rfl, .quiet rfl rfl⟩

/-! ## Extending -/

theorem reserve_spec {targetQuota : ℤ} (hi : Inv w)
    (h : step w (.reserve requestId targetQuota fault) = some w') :
    Meets w (.reserve requestId targetQuota fault) w' := by
  rw [step, map_eq_some_iff] at h
  obtain ⟨s, hs, h⟩ := h
  have hself := put_eq_self hs
  unfold BillingSession.reserve at h
  split_ifs at h with hskip
  · simp only [hself] at h
    subst h
    exact Meets.same hi
  simp only [Bool.or_eq_true, decide_eq_true_eq, not_or, Bool.not_eq_true, not_le] at hskip
  obtain ⟨⟨hsettled, hrefunded⟩, htarget⟩ := hskip
  cases htx : attempt fault (extendUserTokenReservation w.db w.now s.requestId s.userId s.tokenId
      (targetQuota - s.preConsumedQuota)) with
  | error e =>
    simp only [htx, hself] at h
    subst h
    exact Meets.same hi
  | ok db =>
    simp only [htx] at h
    subst h
    obtain ⟨hsid, hblank⟩ := (hi requestId).session s hs
    rw [hsid] at htx
    obtain ⟨hpos, hacc, k, r, hf, hu, ht, hst, hdb⟩ := extend_of_ok hblank (attempt_eq_ok htx).2
    obtain ⟨rfl, -⟩ := attempt_eq_ok htx
    obtain ⟨hget, hid⟩ := get?_of_walletRecordOf hf
    subst hid
    generalize hdelta : targetQuota - s.preConsumedQuota = delta at *
    obtain ⟨s₀, hs₀, -, -, hopen⟩ := ((hi r.requestId).record k r hget rfl).session
    rw [hs] at hs₀
    cases hs₀
    obtain ⟨-, hconsumed, hpre⟩ := hopen hst
    have hrows : KeepsRows w.db db := by
      rw [hdb]
      exact keepsRows_moveQuota w.db w.now s.userId s.tokenId delta
    have hrec : db.walletPreConsumeRecords = w.db.walletPreConsumeRecords.modify k fun r =>
        { r with preConsumed := r.preConsumed + delta, updatedAt := w.now } := by rw [hdb]
    have hmove : Moved w.db w.now r.userId r.tokenId delta db := by
      rw [hu, ht, hdb]
      exact Moved.of_moveQuota hpos.ne' hacc rfl rfl
    refine ⟨hi.of_local r.requestId ⟨hrows, ?_, ?_, fun _ _ _ => Iff.rfl, rfl⟩ ?_,
      .extended k r targetQuota delta rfl rfl hget hst hpos hrec hmove⟩
    · intro rid' hne
      exact (get?_put _ _ _ _).trans (if_neg hne)
    · intro k' r' hne
      show db.walletPreConsumeRecords.get? k' = some r' ↔ _
      rw [hrec]
      exact records_modify_other hget rfl rfl k' r' hne
    · refine (hi r.requestId).of_record hget hrec rfl rfl ⟨rfl, rfl⟩ ?_ hrows ?_ ?_
      · dsimp only
        omega
      · refine ⟨_, (get?_put _ _ _ _).trans (if_pos rfl), hsid, hu.symm, ht.symm, fun _ => ?_⟩
        rw [hconsumed, hpre]
        exact ⟨hsettled, rfl, rfl⟩
      · -- a refund job would have set the flag that stops the extension
        intro t j hj he
        obtain ⟨⟨s₁, hs₁, hflag⟩, -⟩ := (hi r.requestId).job t j hj he
        rw [he, hs] at hs₁
        cases hs₁
        rw [hrefunded] at hflag
        cases hflag

/-! ## Closing -/

/-- The record of a request leaves `reserved`; its session and its jobs may go on. -/
theorem Inv.of_closed {k : ℤ} {r : WalletPreConsumeRecord} {status : WalletPreConsumeStatus}
    (hi : Inv w) (hget : w.db.walletPreConsumeRecords.get? k = some r)
    (hstatus : status ≠ .reserved)
    (hrec : w'.db.walletPreConsumeRecords = w.db.walletPreConsumeRecords.modify k fun r =>
      { r with status, updatedAt := w.now }) (hrows : KeepsRows w.db w'.db)
    (hsnap : w'.snapshots = w.snapshots)
    (hother : ∀ rid, rid ≠ r.requestId → w'.sessions.get? rid = w.sessions.get? rid)
    (hsession : ∀ s, w.sessions.get? r.requestId = some s →
      ∃ s', w'.sessions.get? r.requestId = some s' ∧ s'.requestId = s.requestId ∧
        s'.userId = s.userId ∧ s'.tokenId = s.tokenId ∧ s'.refunded = s.refunded)
    (hjobs : ∀ t j, w'.jobs.get? t = some j → w.jobs.get? t = some j)
    (hkeep : ∀ t j, j.requestId ≠ r.requestId → w.jobs.get? t = some j → w'.jobs.get? t = some j) :
    Inv w' := by
  obtain ⟨s, hs, hu, ht, -⟩ := ((hi r.requestId).record k r hget rfl).session
  obtain ⟨s', hs', hid', hu', ht', hflag⟩ := hsession s hs
  refine hi.of_local r.requestId ⟨hrows, hother, ?_, ?_, hsnap⟩ ?_
  · intro k' r' hne
    rw [hrec]
    exact records_modify_other hget rfl rfl k' r' hne
  · intro t j hne
    exact ⟨hjobs t j, hkeep t j hne⟩
  · refine (hi r.requestId).of_record hget hrec rfl hsnap ⟨rfl, rfl⟩ le_rfl hrows ?_ ?_
    · refine ⟨s', hs', hid'.trans ((hi r.requestId).session s hs).1, hu'.trans hu, ht'.trans ht, ?_⟩
      exact fun h => absurd h hstatus
    · intro t j hj he
      obtain ⟨⟨s₁, hs₁, hflag₁⟩, -⟩ := (hi r.requestId).job t j (hjobs t j hj) he
      rw [he, hs] at hs₁
      cases hs₁
      exact ⟨hstatus, ⟨s', hs', hflag.trans hflag₁⟩, j, hjobs t j hj, he⟩

theorem Inv.of_session (hi : Inv w) (hs : w.sessions.get? rid = some s)
    (hs' : w'.sessions.get? rid = some s')
    (hother : ∀ rid', rid' ≠ rid → w'.sessions.get? rid' = w.sessions.get? rid')
    (hids : s'.requestId = s.requestId ∧ s'.userId = s.userId ∧ s'.tokenId = s.tokenId)
    (hopen : ∀ k r, w.db.walletPreConsumeRecords.get? k = some r → r.requestId = rid →
      r.status = .reserved → s'.settled = s.settled ∧ s'.consumed = s.consumed ∧
        s'.preConsumedQuota = s.preConsumedQuota)
    (hbare : s'.settled = false → s.settled = false ∧ s'.preConsumedQuota = s.preConsumedQuota ∧
      s'.tokenConsumed = s.tokenConsumed)
    (hrec : w'.db.walletPreConsumeRecords = w.db.walletPreConsumeRecords)
    (hrows : KeepsRows w.db w'.db) (hsnap : w'.snapshots = w.snapshots)
    (hkeep : ∀ t j, j.requestId ≠ rid → (w'.jobs.get? t = some j ↔ w.jobs.get? t = some j))
    (hjob : ∀ t j, w'.jobs.get? t = some j → j.requestId = rid → JobInv w' j)
    (hjob_unique : ∀ t t' j j', w'.jobs.get? t = some j → w'.jobs.get? t' = some j' →
      j.requestId = rid → j'.requestId = rid → t = t') : Inv w' := by
  have hq := hi rid
  have hget : ∀ x, w'.sessions.get? rid = some x → x = s' := by
    intro x hx
    rw [hs'] at hx
    exact (some.inj hx).symm
  refine hi.of_local rid ⟨hrows, hother, fun _ _ _ => by rw [hrec], hkeep, hsnap⟩ ?_
  refine ⟨by rw [hrec]; exact hq.unique, ?_, ?_, ?_, ?_, hjob, hjob_unique⟩
  · intro x hx
    obtain rfl := hget x hx
    exact ⟨hids.1.trans (hq.session s hs).1, (hq.session s hs).2⟩
  · intro x hx hsettled hno
    obtain rfl := hget x hx
    rw [hrec] at hno
    obtain ⟨hsettled', hpre, htok⟩ := hbare hsettled
    rw [hpre, htok]
    exact hq.bare s hs hsettled' hno
  · intro k r hr he
    rw [hrec] at hr
    have hold := hq.record k r hr he
    obtain ⟨s₁, hs₁, hu₁, ht₁, hopen₁⟩ := hold.session
    rw [he, hs] at hs₁
    cases hs₁
    obtain ⟨t, ht, howner⟩ := hold.token
    obtain ⟨t', ht', he'⟩ := hrows.2 _ t ht
    refine ⟨hold.userId_pos, hold.tokenId_pos, hold.preConsumed_pos, ⟨s', ?_, ?_, ?_, ?_⟩,
      hrows.1 _ hold.user, t', ht', he'.trans howner⟩
    · rw [he]
      exact hs'
    · exact hids.2.1.trans hu₁
    · exact hids.2.2.trans ht₁
    · intro hst
      obtain ⟨h₁, h₂, h₃⟩ := hopen k r hr he hst
      rw [h₁, h₂, h₃]
      exact hopen₁ hst
  · intro e hmem he
    rw [hsnap] at hmem
    obtain ⟨hpos, hcur⟩ := hq.snapshot e hmem he
    refine ⟨hpos, ?_⟩
    rw [hrec]
    exact hcur

theorem Inv.jobs_of_flag (hi : Inv w) (hs : w.sessions.get? rid = some s)
    (hs' : w'.sessions.get? rid = some s') (hflag : s'.refunded = s.refunded)
    (hrec : w'.db.walletPreConsumeRecords = w.db.walletPreConsumeRecords) (hjobs : w'.jobs = w.jobs)
    : ∀ t j, w'.jobs.get? t = some j → j.requestId = rid → JobInv w' j := by
  intro t j hj he
  rw [hjobs] at hj
  obtain ⟨⟨s₁, hs₁, hflag₁⟩, hrecord⟩ := (hi rid).job t j hj he
  rw [he, hs] at hs₁
  cases hs₁
  refine ⟨⟨s', ?_, hflag.trans hflag₁⟩, ?_⟩
  · rw [he]
    exact hs'
  · rw [hrec]
    exact hrecord

/-! ## Settling -/

/-- What `Settle` leaves in the session when its transaction commits. -/
theorem settle_cases (s : BillingSession) (db : Db) (now actualQuota : ℤ) (fault : Bool) :
    s.settle db now actualQuota fault = (s, db) ∨
      ∃ s' db', s.settle db now actualQuota fault = (s', db') ∧ fault = false ∧
        s.settled = false ∧ s'.settled = true ∧ s'.refunded = s.refunded ∧
        (s'.requestId = s.requestId ∧ s'.userId = s.userId ∧ s'.tokenId = s.tokenId) ∧
        finalizeUserTokenQuota db now s.requestId s.userId s.tokenId
          (actualQuota - s.preConsumedQuota) .settled = .ok db' := by
  unfold BillingSession.settle
  by_cases hsettled : s.settled = true
  · exact .inl (if_pos hsettled)
  · rw [if_neg hsettled]
    dsimp only
    cases htx : attempt fault (finalizeUserTokenQuota db now s.requestId s.userId s.tokenId
        (actualQuota - s.preConsumedQuota) .settled) with
    | error e => exact .inl rfl
    | ok db' =>
      obtain ⟨hfault, hfin⟩ := attempt_eq_ok htx
      right
      split_ifs <;>
        exact ⟨_, db', rfl, hfault, by simpa using hsettled, rfl, rfl, ⟨rfl, rfl, rfl⟩, hfin⟩

theorem statusOf_eq {db : Db} (hu : UniqueRequestIds db) {k : ℤ} {r : WalletPreConsumeRecord}
    (hr : db.walletPreConsumeRecords.get? k = some r) : statusOf db r.requestId = some r.status := by
  rw [statusOf, walletRecordOf_eq_some hu hr]
  rfl

theorem not_reserved_and_settled (db : Db) (requestId : String) :
    ¬(statusOf db requestId = some .reserved ∧ statusOf db requestId = some .settled) := by
  rintro ⟨h₁, h₂⟩
  rw [h₁] at h₂
  cases h₂

theorem Inv.of_marked (hi : Inv w) (hs : w.sessions.get? requestId = some s)
    (hids : s'.requestId = s.requestId ∧ s'.userId = s.userId ∧ s'.tokenId = s.tokenId)
    (hsettled : s'.settled = true) (hflag : s'.refunded = s.refunded)
    (hsessions : w'.sessions = w.sessions.put requestId s')
    (hrec : w'.db.walletPreConsumeRecords = w.db.walletPreConsumeRecords)
    (hrows : KeepsRows w.db w'.db) (hjobs : w'.jobs = w.jobs) (hsnap : w'.snapshots = w.snapshots)
    (hclosed : ∀ k r, w.db.walletPreConsumeRecords.get? k = some r → r.requestId = requestId →
      r.status ≠ .reserved) : Inv w' := by
  have hself : w'.sessions.get? requestId = some s' := by
    rw [hsessions, get?_put, if_pos rfl]
  have hother : ∀ rid', rid' ≠ requestId → w'.sessions.get? rid' = w.sessions.get? rid' := by
    intro rid' hne
    rw [hsessions, get?_put, if_neg hne]
  refine hi.of_session hs hself hother hids (fun k r hr he h => absurd h (hclosed k r hr he)) ?_ hrec
    hrows hsnap (fun _ _ _ => by rw [hjobs]) (hi.jobs_of_flag hs hself hflag hrec hjobs) ?_
  · intro hf
    rw [hsettled] at hf
    cases hf
  · rw [hjobs]
    exact (hi requestId).job_unique

theorem settle_spec {actualQuota : ℤ} (hi : Inv w)
    (h : step w (.settle requestId actualQuota fault) = some w') :
    Meets w (.settle requestId actualQuota fault) w' := by
  rw [step, map_eq_some_iff] at h
  obtain ⟨s, hs, h⟩ := h
  obtain ⟨hsid, hblank⟩ := (hi requestId).session s hs
  rcases settle_cases s w.db w.now actualQuota fault with
    hno | ⟨s', db, hok, rfl, hopen, hsettled, hflag, hids, hfin⟩
  · simp only [hno, if_neg (not_reserved_and_settled w.db requestId), put_eq_self hs] at h
    subst h
    exact Meets.same hi
  simp only [hok] at h
  obtain ⟨huser, htoken⟩ := finalize_pos hfin
  rw [hsid] at hfin
  have hput : ∀ rid', rid' ≠ requestId →
      (w.sessions.put requestId s').get? rid' = w.sessions.get? rid' := fun rid' hne =>
    (get?_put _ _ _ _).trans (if_neg hne)
  have hself : (w.sessions.put requestId s').get? requestId = some s' :=
    (get?_put _ _ _ _).trans (if_pos rfl)
  cases hf : w.db.walletRecordOf requestId with
  | none =>
    obtain ⟨hacc, hdb⟩ := (finalize_of_absent huser htoken (.inr hf)).1 hfin
    have hnone := walletRecordOf_eq_none_iff.1 hf
    have hbare := ((hi requestId).bare s hs hopen hnone).1
    have hrec : db.walletPreConsumeRecords = w.db.walletPreConsumeRecords := by
      rw [hdb]
      exact closeQuota_records _ _ _ _ _
    have hrows : KeepsRows w.db db := by
      rw [hdb]
      exact keepsRows_closeQuota _ _ _ _ _
    have hlost : ¬(statusOf w.db requestId = some .reserved ∧
        statusOf db requestId = some .settled) := by
      rintro ⟨h₁, -⟩
      rw [statusOf, hf] at h₁
      cases h₁
    rw [if_neg hlost] at h
    subst h
    refine ⟨hi.of_marked hs hids hsettled hflag rfl hrec hrows rfl rfl fun k r hr he =>
      absurd he (hnone k r hr), ?_⟩
    subst hsid
    exact .unrecorded s actualQuota rfl rfl hs hf hbare hrec
      (Moved.of_closeQuota hacc (by rw [hdb]) (by rw [hdb]))
  | some e =>
    obtain ⟨k, r⟩ := e
    obtain ⟨hget, hrid⟩ := get?_of_walletRecordOf hf
    by_cases hst : r.status = .reserved
    · obtain ⟨s₁, hs₁, hu₁, ht₁, hopen₁⟩ := ((hi requestId).record k r hget hrid).session
      rw [hrid, hs] at hs₁
      cases hs₁
      obtain ⟨-, -, hpre⟩ := hopen₁ hst
      obtain ⟨hacc, hdb⟩ := (finalize_of_reserved hblank huser htoken hf hst).1 hfin
      have hrec : db.walletPreConsumeRecords = w.db.walletPreConsumeRecords.modify k fun r =>
          { r with status := .settled, updatedAt := w.now } := by
        rw [hdb, closeQuota_records]
        rfl
      have hrows : KeepsRows w.db db := by
        rw [hdb]
        exact keepsRows_closeQuota (closeRecord w.db w.now k .settled) _ _ _ _
      have hinv : ∀ d, Inv { w with db, sessions := w.sessions.put requestId s', settleDelta := d } := by
        intro d
        subst hrid
        refine hi.of_closed hget (by simp) hrec hrows rfl hput ?_ (fun _ _ h => h) fun _ _ _ h => h
        intro x hx
        rw [hs] at hx
        cases hx
        exact ⟨s', hself, hids.1, hids.2.1, hids.2.2, hflag⟩
      have hwon : statusOf w.db requestId = some .reserved ∧
          statusOf db requestId = some .settled := by
        subst hrid
        have hget' : db.walletPreConsumeRecords.get? k =
            some { r with status := .settled, updatedAt := w.now } := by
          rw [hrec, get?_modify_self, hget]
          rfl
        exact ⟨(statusOf_eq hi.uniqueRequestIds hget).trans (by rw [hst]),
          statusOf_eq (hinv w.settleDelta).uniqueRequestIds hget'⟩
      rw [if_pos hwon] at h
      subst h
      refine ⟨hinv _, ?_⟩
      subst hrid
      rw [hpre, hu₁, ht₁] at hacc hdb
      refine .settled k r actualQuota rfl (by rw [hpre]) hget hst hrec ?_
      rw [closeQuota_closeRecord] at hdb
      rw [hdb]
      exact Moved.of_closeQuota hacc rfl rfl
    · -- somebody else closed the record before
      rw [finalize_of_closed hblank huser htoken hf hst, Except.ok.injEq] at hfin
      subst hfin
      rw [if_neg (not_reserved_and_settled w.db requestId)] at h
      subst h
      refine ⟨hi.of_marked hs hids hsettled hflag rfl rfl (refl w.db) rfl rfl ?_,
        .quiet rfl rfl⟩
      intro k' r' hr' he
      obtain rfl := (hi requestId).unique k' k r' r hr' hget he hrid
      rw [hget] at hr'
      cases hr'
      exact hst

/-! ## Refunding -/

/-- An open session that needs a refund has a record and no job yet. -/
theorem refund_spec {ticket : TicketOutcome} (hi : Inv w)
    (h : step w (.refund requestId ticket) = some w') : Meets w (.refund requestId ticket) w' := by
  rw [step, bind_eq_some_iff] at h
  obtain ⟨s, hs, h⟩ := h
  unfold refundStep at h
  by_cases hneed : (s.needsRefundLocked && decide (ticket ≠ .refused)) = true
  swap
  · rw [if_neg hneed] at h
    cases h
    exact Meets.same hi
  rw [if_pos hneed] at h
  obtain ⟨jobs, hins, rfl⟩ := map_eq_some_iff.1 h
  refine ⟨?_, .quiet rfl rfl⟩
  have hphase : ∀ amount, (if ticket = .submitted then RefundPhase.submitted else .rejected) ≠
      .loaded amount := by
    intro amount
    split_ifs <;> simp
  generalize (if ticket = .submitted then RefundPhase.submitted else .rejected) = phase at hins hphase
  simp only [BillingSession.needsRefundLocked, Bool.and_eq_true, Bool.not_eq_true',
    Bool.or_eq_false_iff, decide_eq_true_eq] at hneed
  obtain ⟨⟨⟨⟨hsettled, hrefunded⟩, -⟩, htok⟩, -⟩ := hneed
  obtain ⟨hsid, -⟩ := (hi requestId).session s hs
  subst hsid
  have hself : (w.sessions.put s.requestId { s with refunded := true }).get? s.requestId =
      some { s with refunded := true } := (get?_put _ _ _ _).trans (if_pos rfl)
  have hget := get?_of_insert? hins
  have hnojob : ∀ t j, w.jobs.get? t = some j → j.requestId ≠ s.requestId := by
    intro t j hj he
    obtain ⟨⟨s₁, hs₁, hflag⟩, -⟩ := (hi s.requestId).job t j hj he
    rw [he, hs] at hs₁
    cases hs₁
    rw [hrefunded] at hflag
    cases hflag
  have hrecord : ∃ k r, w.db.walletPreConsumeRecords.get? k = some r ∧
      r.requestId = s.requestId := by
    by_contra hno
    push Not at hno
    have := ((hi s.requestId).bare s hs hsettled hno).2
    omega
  refine hi.of_session hs hself ?_ ⟨rfl, rfl, rfl⟩
    (fun _ _ _ _ _ => ⟨rfl, rfl, rfl⟩) (fun h => ⟨h, rfl, rfl⟩) rfl (refl w.db) rfl
    ?_ ?_ ?_
  · intro rid' hne
    exact (get?_put _ _ _ _).trans (if_neg hne)
  · intro t j hne
    show jobs.get? t = some j ↔ _
    rw [hget]
    split_ifs with ht
    · rw [ht, ((insert?_eq_some_iff _ _ _ _).1 hins).1, some.injEq]
      refine iff_of_false ?_ (by simp)
      rintro rfl
      exact hne rfl
    · rfl
  · intro t j hj he
    rw [show _ = _ from hget t] at hj
    split_ifs at hj with ht
    · cases hj
      obtain ⟨k, r, hr, hrid⟩ := hrecord
      exact ⟨⟨_, hself, rfl⟩, k, r, hr, hrid, fun amount h => absurd h (hphase amount)⟩
    · exact absurd he (hnojob t j hj)
  · intro t t' j j' hj hj' he he'
    rw [show _ = _ from hget t] at hj
    rw [show _ = _ from hget t'] at hj'
    split_ifs at hj with ht
    · split_ifs at hj' with ht'
      · rw [ht, ht']
      · exact absurd he' (hnojob t' j' hj')
    · exact absurd he (hnojob t j hj)

theorem Inv.of_phase {job : RefundJob} {phase : RefundPhase} (hi : Inv w)
    (hjob : w.jobs.get? ticket = some job) (hload : ∀ amount, phase = .loaded amount → ∀ k r,
      w.db.walletPreConsumeRecords.get? k = some r → r.requestId = job.requestId →
      r.status = .reserved → amount = r.preConsumed) :
    Inv { w with jobs := w.jobs.modify ticket fun j => { j with phase } } := by
  obtain ⟨⟨s, hs, hflag⟩, k, r, hr, hrid, -⟩ := (hi job.requestId).job ticket job hjob rfl
  -- a job of the new table comes from one of the same request
  have hback : ∀ t j, (w.jobs.modify ticket fun j => { j with phase }).get? t = some j →
      ∃ j', w.jobs.get? t = some j' ∧ j'.requestId = j.requestId ∧
        (t = ticket ∧ j.phase = phase ∨ j' = j) := by
    intro t j hj
    rw [get?_modify] at hj
    split_ifs at hj with ht
    · obtain ⟨j', hj', rfl⟩ := map_eq_some_iff.1 hj
      exact ⟨j', hj', rfl, .inl ⟨ht, rfl⟩⟩
    · exact ⟨j, hj, rfl, .inr rfl⟩
  refine hi.of_session hs hs (fun _ _ => rfl) ⟨rfl, rfl, rfl⟩
    (fun _ _ _ _ _ => ⟨rfl, rfl, rfl⟩) (fun h => ⟨h, rfl, rfl⟩) rfl (refl w.db) rfl
    ?_ ?_ ?_
  · intro t j hne
    show (w.jobs.modify ticket _).get? t = some j ↔ _
    rw [get?_modify]
    split_ifs with ht
    · rw [ht, hjob, map_some, some.injEq, some.injEq]
      constructor
      all_goals
        rintro rfl
        exact absurd rfl hne
    · rfl
  · intro t j hj he
    obtain ⟨j', hj', hid', hcase⟩ := hback t j hj
    rcases hcase with ⟨-, hphase⟩ | rfl
    · refine ⟨⟨s, by rw [he]; exact hs, hflag⟩, k, r, hr, hrid.trans he.symm, ?_⟩
      intro amount hj hst
      exact hload amount (hphase.symm.trans hj) k r hr hrid hst
    · obtain ⟨hsession, hrecord⟩ := (hi job.requestId).job t j' hj' he
      exact ⟨hsession, hrecord⟩
  · intro t t' j j' hj hj' he he'
    obtain ⟨j₁, hj₁, hid₁, -⟩ := hback t j hj
    obtain ⟨j₂, hj₂, hid₂, -⟩ := hback t' j' hj'
    exact (hi job.requestId).job_unique t t' j₁ j₂ hj₁ hj₂ (hid₁.trans he) (hid₂.trans he')

theorem jobLoad_spec (hi : Inv w) (h : step w (.jobLoad ticket) = some w') :
    Meets w (.jobLoad ticket) w' := by
  rw [step, bind_eq_some_iff] at h
  obtain ⟨job, hjob, h⟩ := h
  obtain ⟨s, hs, h⟩ := bind_eq_some_iff.1 h
  cases hphase : job.phase with
  | submitted =>
    simp only [hphase, some.injEq] at h
    subst h
    refine ⟨hi.of_phase hjob ?_, .quiet rfl rfl⟩
    intro amount hamount k r hr hrid hst
    obtain ⟨s₁, hs₁, -, -, hopen⟩ := ((hi job.requestId).record k r hr hrid).session
    rw [hrid, hs] at hs₁
    cases hs₁
    rw [← (hopen hst).2.1]
    exact (RefundPhase.loaded.inj hamount).symm
  | loaded amount => simp [hphase] at h
  | failed => simp [hphase] at h
  | rejected => simp [hphase] at h

theorem Inv.of_erase {job : RefundJob} {sessions : Table String BillingSession} (hi : Inv w)
    (hjob : w.jobs.get? ticket = some job) (hs : w.sessions.get? job.requestId = some s)
    (hs' : sessions.get? job.requestId = some s')
    (hother : ∀ rid', rid' ≠ job.requestId → sessions.get? rid' = w.sessions.get? rid')
    (hsame : s' = { s with refunded := s'.refunded }) :
    Inv { w with sessions, jobs := w.jobs.erase ticket } := by
  have honly : ∀ t j, (w.jobs.erase ticket).get? t = some j → j.requestId ≠ job.requestId := by
    intro t j hj he
    rw [get?_erase] at hj
    split_ifs at hj with ht
    exact ht ((hi job.requestId).job_unique t ticket j job hj hjob he rfl)
  refine hi.of_session hs hs' hother ?_ ?_ ?_ rfl (refl w.db) rfl ?_ ?_ ?_
  · rw [hsame]
    exact ⟨rfl, rfl, rfl⟩
  · intro _ _ _ _ _
    rw [hsame]
    exact ⟨rfl, rfl, rfl⟩
  · rw [hsame]
    exact fun h => ⟨h, rfl, rfl⟩
  · intro t j hne
    show (w.jobs.erase ticket).get? t = some j ↔ _
    rw [get?_erase]
    split_ifs with ht
    · rw [ht, hjob, some.injEq]
      refine iff_of_false (by simp) ?_
      rintro rfl
      exact hne rfl
    · rfl
  · intro t j hj he
    exact absurd he (honly t j hj)
  · intro t _ j _ hj _ he _
    exact absurd he (honly t j hj)

theorem jobClear_spec (hi : Inv w) (h : step w (.jobClear ticket) = some w') :
    Meets w (.jobClear ticket) w' := by
  rw [step, bind_eq_some_iff] at h
  obtain ⟨job, hjob, h⟩ := h
  split_ifs at h
  cases h
  obtain ⟨⟨s, hs, -⟩, -⟩ := (hi job.requestId).job ticket job hjob rfl
  have hs' : (w.sessions.modify job.requestId (clearRefunded job.phase)).get? job.requestId =
      some (clearRefunded job.phase s) := by
    rw [get?_modify_self, hs]
    rfl
  refine ⟨hi.of_erase hjob hs hs' ?_ ?_, .quiet rfl rfl⟩
  · intro rid' hne
    exact get?_modify_of_ne _ _ hne
  · unfold clearRefunded
    split_ifs <;> rfl

theorem closed_of_moveQuota {db db' : Db} {now userID tokenID delta : ℤ}
    (h : db' = moveQuota (closeRecord db now k .refunded) now userID tokenID delta) :
    KeepsRows db db' ∧ db'.walletPreConsumeRecords = db.walletPreConsumeRecords.modify k fun r =>
      { r with status := .refunded, updatedAt := now } := by
  rw [h]
  exact ⟨keepsRows_moveQuota _ _ _ _ _, rfl⟩

theorem jobRun_spec (hi : Inv w) (h : step w (.jobRun ticket fault) = some w') :
    Meets w (.jobRun ticket fault) w' := by
  rw [step, bind_eq_some_iff] at h
  obtain ⟨job, hjob, h⟩ := h
  obtain ⟨s, hs, h⟩ := bind_eq_some_iff.1 h
  cases hphase : job.phase with
  | submitted => simp [hphase] at h
  | failed => simp [hphase] at h
  | rejected => simp [hphase] at h
  | loaded amount =>
    simp only [hphase, some.injEq] at h
    subst h
    obtain ⟨hsid, hblank⟩ := (hi job.requestId).session s hs
    obtain ⟨-, k, r, hget, hrid, hload⟩ := (hi job.requestId).job ticket job hjob rfl
    unfold jobRunStep
    cases htx : attempt fault (finalizeUserTokenQuota w.db w.now s.requestId s.userId s.tokenId
        (-amount) .refunded) with
    | error e =>
      refine ⟨hi.of_phase hjob ?_, .quiet rfl rfl⟩
      intro amount hfailed
      cases hfailed
    | ok db =>
      obtain ⟨rfl, hfin⟩ := attempt_eq_ok htx
      obtain ⟨huser, htoken⟩ := finalize_pos hfin
      rw [hsid] at hfin
      have hf : w.db.walletRecordOf job.requestId = some (k, r) := by
        rw [← hrid]
        exact walletRecordOf_eq_some hi.uniqueRequestIds hget
      by_cases hst : r.status = .reserved
      · have hrecord := (hi job.requestId).record k r hget hrid
        obtain ⟨s₁, hs₁, hu₁, ht₁, -⟩ := hrecord.session
        rw [hrid, hs] at hs₁
        cases hs₁
        obtain ⟨hacc, hdb⟩ := (finalize_of_reserved hblank huser htoken hf hst).1 hfin
        obtain rfl := hload amount hphase hst
        have hpos := hrecord.preConsumed_pos
        have hne : -r.preConsumed ≠ 0 := by omega
        rw [closeQuota, if_neg hne] at hdb
        obtain ⟨hrows, hrec⟩ := closed_of_moveQuota hdb
        rw [hu₁, ht₁] at hacc hdb
        have hmove : Moved w.db w.now r.userId r.tokenId (-r.preConsumed) db := by
          rw [hdb]
          exact Moved.of_moveQuota hne (hacc hne) rfl rfl
        refine ⟨?_, .refunded k r r.preConsumed ?_ rfl hget hst hpos le_rfl (.inl ⟨ticket, rfl, rfl⟩) hrec
          hmove⟩
        · refine hi.of_closed hget (by simp) hrec hrows rfl (fun _ _ => rfl)
            (fun x hx => ⟨x, hx, rfl, rfl, rfl, rfl⟩) ?_ ?_
          · intro t j hj
            have hj : (w.jobs.erase ticket).get? t = some j := hj
            rw [get?_erase] at hj
            split_ifs at hj
            exact hj
          · intro t j hne hj
            show (w.jobs.erase ticket).get? t = some j
            rw [get?_erase, if_neg, hj]
            rintro rfl
            rw [hjob] at hj
            cases hj
            exact hne hrid.symm
        · show (w.jobs.get? ticket).map RefundJob.requestId = some r.requestId
          rw [hjob, hrid]
          rfl
      · rw [finalize_of_closed hblank huser htoken hf hst, Except.ok.injEq] at hfin
        subst hfin
        exact ⟨hi.of_erase hjob hs hs (fun _ _ => rfl) rfl, .quiet rfl rfl⟩

/-! ## The sweeper -/

theorem findStale_spec {olderThanSeconds limit : ℤ} (hi : Inv w)
    (h : step w (.findStale olderThanSeconds limit) = some w') :
    Meets w (.findStale olderThanSeconds limit) w' := by
  cases h
  refine ⟨fun rid => ?_, .quiet rfl rfl⟩
  have hq := hi rid
  refine ⟨hq.unique, hq.session, hq.bare, ?_, ?_, ?_, hq.job_unique⟩
  · intro k r hr he
    exact (hq.record k r hr he).of_rows (refl w.db) rfl
  · intro e hmem he
    rcases List.mem_append.1 hmem with hold | hnew
    · obtain ⟨hpos, hcur⟩ := hq.snapshot e hold he
      exact ⟨hpos, hcur⟩
    · obtain ⟨hget, -⟩ := mem_findStale hnew
      exact ⟨(hq.record e.1 e.2 hget he).preConsumed_pos, e.2, hget, rfl, rfl, rfl, le_rfl⟩
  · intro t j hj he
    obtain ⟨hsession, hrecord⟩ := hq.job t j hj he
    exact ⟨hsession, hrecord⟩

theorem sweep_spec {snapshot : ℕ} (hi : Inv w) (h : step w (.sweep snapshot fault) = some w') :
    Meets w (.sweep snapshot fault) w' := by
  rw [step, map_eq_some_iff] at h
  obtain ⟨⟨k, s⟩, hsnap, h⟩ := h
  cases htx : attempt fault (refundStaleWalletPreConsume w.db w.now (k, s)) with
  | error e =>
    simp only [htx] at h
    subst h
    exact Meets.same hi
  | ok db =>
    simp only [htx] at h
    subst h
    obtain ⟨hfault, hrefund⟩ := attempt_eq_ok htx
    obtain ⟨hpos, r, hget, hrid, hu, ht, hle⟩ :=
      (hi s.requestId).snapshot (k, s) (List.mem_of_getElem? hsnap) rfl
    dsimp only at hpos hget hrid hu ht hle
    have htok : 0 < s.tokenId := ht ▸ ((hi s.requestId).record k r hget hrid).tokenId_pos
    by_cases hst : r.status = .reserved
    · obtain ⟨hacc, hdb⟩ := (refundStale_of_reserved hpos htok hget hst).1 hrefund
      obtain ⟨hrows, hrec⟩ := closed_of_moveQuota hdb
      rw [← hu, ← ht] at hacc hdb
      have hmove : Moved w.db w.now r.userId r.tokenId (-s.preConsumed) db := by
        rw [hdb]
        exact Moved.of_moveQuota (by omega) hacc rfl rfl
      refine ⟨?_, .refunded k r s.preConsumed ?_ rfl hget hst hpos hle (.inr ⟨snapshot, s, ?_, ?_, ?_⟩)
        hrec hmove⟩
      · exact hi.of_closed hget (by simp) hrec hrows rfl (fun _ _ => rfl)
          (fun x hx => ⟨x, hx, rfl, rfl, rfl, rfl⟩) (fun _ _ hj => hj) fun _ _ _ hj => hj
      · rw [subject, hsnap, hrid]
        rfl
      · rw [hfault]
      · exact hsnap
      · rfl
    · rw [refundStale_of_closed hpos hget hst, Except.ok.injEq] at hrefund
      subst hrefund
      exact Meets.same hi

/-! ## Edits and deletions -/

theorem updateToken_spec {remainQuota : ℤ} {unlimitedQuota : Bool} (hi : Inv w)
    (h : step w (.updateToken id remainQuota unlimitedQuota) = some w') :
    Meets w (.updateToken id remainQuota unlimitedQuota) w' := by
  cases h
  unfold Token.update
  cases hu : w.db.tokens.updateRow id (fun t => t.deletedAt.isNone)
      (fun t => { t with remainQuota, unlimitedQuota }) with
  | none => exact Meets.same hi
  | some tokens =>
    obtain ⟨t, ht, hlive, rfl⟩ := (updateRow_eq_some_iff _ _ _ _ _).1 hu
    have hget := fun id' => get?_modify w.db.tokens id id'
      (fun t => { t with remainQuota, unlimitedQuota })
    constructor
    · exact hi.of_keepsRows (modify_token id (fun t => { t with remainQuota, unlimitedQuota })
        (fun _ h => h) rfl fun _ => rfl) rfl rfl rfl rfl
    · refine .edited rfl rfl rfl (fun _ => rfl) fun id' t' h' => ?_
      rw [hget] at h'
      split_ifs at h' with hid
      · rw [hid] at h' ⊢
        rw [ht, map_some, some.injEq] at h'
        subst h'
        exact ⟨t, ht, .updated remainQuota unlimitedQuota rfl (by simpa using hlive)⟩
      · exact ⟨t', h', .same⟩

theorem deleteToken_spec (hi : Inv w) (h : step w (.deleteToken id userId) = some w') :
    Meets w (.deleteToken id userId) w' := by
  rw [step] at h
  cases htx : deleteTokenWithLedger w.db w.now id userId with
  | error e =>
    simp only [htx, some.injEq] at h
    subst h
    exact Meets.same hi
  | ok db =>
    simp only [htx, some.injEq] at h
    subst h
    have hdb := deleteTokenWithLedger_eq_ok htx
    have hget := fun id' => get?_modify w.db.tokens id id'
      (fun t => { t with deletedAt := some w.now })
    constructor
    · refine hi.of_keepsRows ?_ (by rw [hdb]) rfl rfl rfl
      rw [hdb]
      exact modify_token id (fun t => { t with deletedAt := some w.now }) (fun _ h => h)
        rfl fun _ => rfl
    · refine .edited rfl rfl (by rw [hdb]) (fun _ => ?_) fun id' t' h' => ?_
      · unfold quotaOf
        rw [hdb]
      · rw [hdb] at h'
        rw [hget] at h'
        split_ifs at h'
        · obtain ⟨t, ht, rfl⟩ := map_eq_some_iff.1 h'
          exact ⟨t, ht, .deleted⟩
        · exact ⟨t', h', .same⟩

theorem deleteUser_spec (hi : Inv w) (h : step w (.deleteUser id) = some w') :
    Meets w (.deleteUser id) w' := by
  rw [step] at h
  cases htx : deleteUserWithLedger w.db w.now id false with
  | error e =>
    simp only [htx, some.injEq] at h
    subst h
    exact Meets.same hi
  | ok db =>
    simp only [htx, some.injEq] at h
    subst h
    have hdb := deleteUserWithLedger_soft_eq_ok htx
    have hget := fun id' => get?_modify w.db.users id id'
      (fun u => { u with deletedAt := some w.now })
    constructor
    · refine hi.of_keepsRows ?_ (by rw [hdb]) rfl rfl rfl
      rw [hdb]
      refine ⟨fun u h => ?_, fun _ t h => ⟨t, h, rfl⟩⟩
      rw [hget]
      split_ifs <;> simpa using h
    · refine .edited rfl rfl (by rw [hdb]) (fun u => ?_) fun id' t h => ?_
      · unfold quotaOf
        rw [hdb]
        rw [hget]
        split_ifs
        · cases w.db.users.get? u <;> rfl
        · rfl
      · rw [hdb] at h
        exact ⟨t, h, .same⟩

theorem adjustToken_spec {delta : ℤ} (hi : Inv w)
    (h : step w (.adjustToken id userId delta fault) = some w') :
    Meets w (.adjustToken id userId delta fault) w' := by
  rw [step] at h
  cases htx : attempt fault (adjustTokenQuotaTx w.db w.now id userId delta) with
  | error e =>
    simp only [htx, some.injEq] at h
    subst h
    exact Meets.same hi
  | ok db =>
    simp only [htx, some.injEq] at h
    subst h
    obtain ⟨rfl, hadjust⟩ := attempt_eq_ok htx
    have hid : 0 < id := by
      by_contra hid
      rw [adjustTokenQuotaTx, if_pos (by omega)] at hadjust
      cases hadjust
    by_cases hzero : delta = 0
    · rw [adjustTokenQuotaTx, if_neg (by omega), if_pos hzero, Except.ok.injEq] at hadjust
      rw [← hadjust]
      exact Meets.same hi
    obtain ⟨t, ht, hsel, hguard, rfl⟩ := (adjustTokenQuotaTx_eq_ok_iff hid hzero).1 hadjust
    constructor
    · exact hi.of_keepsRows (modify_token id (tokenQuotaUpdates w.now delta) (fun _ h => h) rfl
        (tokenQuotaUpdates_userId w.now delta)) rfl rfl rfl rfl
    · refine .edited rfl rfl rfl (fun _ => rfl) fun id' t' h' => ?_
      rw [get?_modify] at h'
      split_ifs at h' with hid'
      · rw [hid'] at h' ⊢
        rw [ht, map_some, some.injEq] at h'
        subst h'
        exact ⟨t, ht, .adjusted userId delta rfl hsel hguard⟩
      · exact ⟨t', h', .same⟩

theorem step_spec {a : Label} (hi : Inv w) (h : step w a = some w') : Meets w a w' := by
  cases a with
  | tick seconds =>
    cases h
    exact ⟨hi.of_keepsRows (refl w.db) rfl rfl rfl rfl, .quiet rfl rfl⟩
  | preConsume => exact preConsume_spec hi h
  | reserve => exact reserve_spec hi h
  | settle => exact settle_spec hi h
  | refund => exact refund_spec hi h
  | jobLoad => exact jobLoad_spec hi h
  | jobRun => exact jobRun_spec hi h
  | jobClear => exact jobClear_spec hi h
  | findStale => exact findStale_spec hi h
  | sweep => exact sweep_spec hi h
  | updateToken => exact updateToken_spec hi h
  | deleteToken => exact deleteToken_spec hi h
  | deleteUser => exact deleteUser_spec hi h
  | adjustToken => exact adjustToken_spec hi h

theorem inv_of_run {l : List Label} (h₀ : Initial w) (h : Run.run step w l = some w') : Inv w' :=
  Run.invariant (fun _ _ _ hi hs => (step_spec hi hs).1) (Inv.of_initial h₀) h

end BeeApi.Wallet
