import BeeApi.Wallet.Disposition

/-!
# Delivered requests and the sweeper

`PostTextConsumeQuota` only logs an error of `SettleBilling`.  A settlement that is rejected leaves the
record `reserved`, and two hours later the sweeper gives everything back.  `delivered_charged_iff` says
when a delivered request stays charged, whatever happens later.
-/

namespace BeeApi.Wallet

open Strings List Option Table Run Bool

def SettleAccepted (db : Db) (r : WalletPreConsumeRecord) (actual : ℤ) : Prop :=
  actual = r.preConsumed ∨ MoveAccepted db r.userId r.tokenId (actual - r.preConsumed)

/-- A limited token that has used less than the reservation rejects its return. -/
def RefundBlocked (db : Db) (r : WalletPreConsumeRecord) : Prop :=
  ∃ t, db.tokens.get? r.tokenId = some t ∧ t.unlimitedQuota = false ∧ t.usedQuota < r.preConsumed

/-- A deleted token can neither be edited nor charged, so it rejects the return for good. -/
def StaysBlocked (db : Db) (r : WalletPreConsumeRecord) : Prop :=
  ∃ t, db.tokens.get? r.tokenId = some t ∧ t.deletedAt.isSome ∧ t.unlimitedQuota = false ∧
    t.usedQuota < r.preConsumed

/-- What may follow when a request is over and `n` snapshots have been taken: the calls of the request
do not come again, and a run of the sweeper reads its own snapshots. -/
def afterRequest (rid : String) (n : ℕ) : Label → Bool
  | .reserve requestId _ _ => decide (requestId ≠ rid)
  | .settle requestId _ _ => decide (requestId ≠ rid)
  | .refund requestId _ => decide (requestId ≠ rid)
  | .sweep snapshot _ => decide (n ≤ snapshot)
  | _ => true

/-! ## The settlement -/

variable {w w' : World} {k actual : ℤ} {r : WalletPreConsumeRecord} {rid : String} {a : Label}

theorem settle_of_accepted (hi : Inv w) (hf : w.db.walletRecordOf rid = some (k, r))
    (hres : r.status = .reserved) (h : step w (.settle rid actual false) = some w')
    (hacc : SettleAccepted w.db r actual) : statusOf w'.db rid = some .settled := by
  obtain ⟨hget, hrid⟩ := hi.walletRecordOf_iff.1 hf
  have hrecord := (hi rid).record k r hget hrid
  obtain ⟨s, hs, hu, ht, hopen⟩ := hrecord.session
  obtain ⟨hsettled, -, hpre⟩ := hopen hres
  rw [hrid] at hs
  obtain ⟨hsid, hblank⟩ := (hi rid).session s hs
  have hfin : finalizeUserTokenQuota w.db w.now rid s.userId s.tokenId
      (actual - s.preConsumedQuota) .settled =
      .ok (closeQuota (closeRecord w.db w.now k .settled) w.now s.userId s.tokenId
        (actual - s.preConsumedQuota)) := by
    rw [finalize_of_reserved hblank (hu ▸ hrecord.userId_pos) (ht ▸ hrecord.tokenId_pos) hf hres]
    refine ⟨fun hne => ?_, rfl⟩
    rw [hu, ht, hpre]
    rw [hpre] at hne
    exact hacc.resolve_left (by omega)
  have hdb : w'.db = closeQuota (closeRecord w.db w.now k .settled) w.now s.userId s.tokenId
      (actual - s.preConsumedQuota) := by
    rw [step, map_eq_some_iff] at h
    obtain ⟨s', hs', rfl⟩ := h
    rw [hs] at hs'
    cases hs'
    unfold BillingSession.settle
    simp only [hsettled, false_eq_true, if_false, hsid, attempt, hfin]
    split_ifs <;> rfl
  have hget' : w'.db.walletPreConsumeRecords.get? k =
      some { r with status := .settled, updatedAt := w.now } := by
    rw [hdb, closeQuota_records]
    show (w.db.walletPreConsumeRecords.modify k _).get? k = _
    rw [get?_modify_self, hget]
    rfl
  have hstatus := statusOf_eq (step_spec hi h).1.uniqueRequestIds hget'
  rw [← hrid]
  exact hstatus

theorem settle_of_rejected {fault : Bool} (hi : Inv w) (hf : w.db.walletRecordOf rid = some (k, r))
    (h : step w (.settle rid actual fault) = some w')
    (hrej : ¬(fault = false ∧ SettleAccepted w.db r actual)) : w'.db = w.db := by
  obtain ⟨hget, hrid⟩ := hi.walletRecordOf_iff.1 hf
  cases (step_spec hi h).2 with
  | quiet hdb _ => exact hdb
  | edited hsub _ _ _ _ => cases hsub
  | opened _ _ ha _ _ _ _ _ _ _ => cases ha
  | extended _ _ _ _ ha _ _ _ _ _ _ => cases ha
  | settled k' r' actual' ha hd hget' hst hrec hmove =>
    cases ha
    obtain rfl := hi.uniqueRequestIds k' k r' r hget' hget hrid.symm
    rw [hget] at hget'
    cases hget'
    refine absurd ⟨rfl, ?_⟩ hrej
    by_cases he : actual = r.preConsumed
    · exact .inl he
    · exact .inr (hmove.accepted (by omega))
  | refunded _ _ _ _ _ _ _ _ _ hwho _ _ =>
    rcases hwho with ⟨t, ha, -⟩ | ⟨i, s, ha, -⟩ <;> cases ha
  | unrecorded s _ ha _ _ hnone _ _ _ =>
    cases ha
    rw [hf] at hnone
    cases hnone

/-- Only `FindStale` takes snapshots, and only `Refund` submits jobs. -/
theorem step_frame (hi : Inv w) (h : step w a = some w') :
    (w'.snapshots = w.snapshots ∨ ∃ olderThanSeconds limit, a = .findStale olderThanSeconds limit ∧
      w'.snapshots = w.snapshots ++
        findStaleReservedWalletPreConsumes w.db w.now olderThanSeconds limit) ∧
    ∀ t j, w'.jobs.get? t = some j → (∃ j', w.jobs.get? t = some j' ∧ j'.requestId = j.requestId) ∨
      ∃ ticket, a = .refund j.requestId ticket := by
  have hmodify : ∀ {ticket t j phase},
      (w.jobs.modify ticket fun j => { j with phase }).get? t = some j →
      ∃ j', w.jobs.get? t = some j' ∧ j'.requestId = j.requestId := by
    intro ticket t j phase hj
    rw [get?_modify] at hj
    split_ifs at hj
    · obtain ⟨j', hj', rfl⟩ := map_eq_some_iff.1 hj
      exact ⟨j', hj', rfl⟩
    · exact ⟨j, hj, rfl⟩
  have herase : ∀ {ticket t j}, (w.jobs.erase ticket).get? t = some j →
      ∃ j', w.jobs.get? t = some j' ∧ j'.requestId = j.requestId := by
    intro ticket t j hj
    rw [get?_erase] at hj
    split_ifs at hj
    exact ⟨j, hj, rfl⟩
  cases a with
  | preConsume =>
    rw [step] at h
    split_ifs at h
    split at h <;> obtain rfl := some.inj h <;>
      exact ⟨.inl rfl, fun _ j hj => .inl ⟨j, hj, rfl⟩⟩
  | deleteToken | deleteUser | adjustToken =>
    rw [step] at h
    split at h <;> obtain rfl := some.inj h <;>
      exact ⟨.inl rfl, fun _ j hj => .inl ⟨j, hj, rfl⟩⟩
  | reserve | settle =>
    obtain ⟨s, -, rfl⟩ := map_eq_some_iff.1 h
    exact ⟨.inl rfl, fun _ j hj => .inl ⟨j, hj, rfl⟩⟩
  | refund requestId ticket =>
    obtain ⟨s, hs, h⟩ := bind_eq_some_iff.1 h
    unfold refundStep at h
    split at h
    · obtain ⟨jobs, hins, rfl⟩ := map_eq_some_iff.1 h
      refine ⟨.inl rfl, fun t j hj => ?_⟩
      have hget := get?_of_insert? hins t
      rw [show jobs.get? t = some j from hj] at hget
      by_cases ht : t = w.jobs.nextKey
      · rw [if_pos ht] at hget
        refine .inr ⟨ticket, ?_⟩
        rw [some.inj hget]
        exact congrArg (Label.refund · ticket) ((hi requestId).session s hs).1.symm
      · rw [if_neg ht] at hget
        exact .inl ⟨j, hget.symm, rfl⟩
    · cases h
      exact ⟨.inl rfl, fun _ j hj => .inl ⟨j, hj, rfl⟩⟩
  | jobLoad ticket =>
    obtain ⟨job, -, h⟩ := bind_eq_some_iff.1 h
    obtain ⟨s, -, h⟩ := bind_eq_some_iff.1 h
    split at h
    · cases h
      exact ⟨.inl rfl, fun _ _ hj => .inl (hmodify hj)⟩
    · cases h
  | jobRun ticket fault =>
    obtain ⟨job, -, h⟩ := bind_eq_some_iff.1 h
    obtain ⟨s, -, h⟩ := bind_eq_some_iff.1 h
    split at h
    · cases h
      unfold jobRunStep
      split
      · exact ⟨.inl rfl, fun _ _ hj => .inl (herase hj)⟩
      · exact ⟨.inl rfl, fun _ _ hj => .inl (hmodify hj)⟩
    · cases h
  | jobClear ticket =>
    obtain ⟨job, -, h⟩ := bind_eq_some_iff.1 h
    split_ifs at h
    cases h
    exact ⟨.inl rfl, fun _ _ hj => .inl (herase hj)⟩
  | sweep snapshot fault =>
    obtain ⟨e, -, rfl⟩ := map_eq_some_iff.1 h
    split <;> exact ⟨.inl rfl, fun _ j hj => .inl ⟨j, hj, rfl⟩⟩
  | findStale olderThanSeconds limit =>
    cases h
    exact ⟨.inr ⟨_, _, rfl, rfl⟩, fun _ j hj => .inl ⟨j, hj, rfl⟩⟩
  | tick | updateToken =>
    cases h
    exact ⟨.inl rfl, fun _ j hj => .inl ⟨j, hj, rfl⟩⟩

theorem settle_snapshots {fault : Bool} (h : step w (.settle rid actual fault) = some w') :
    w'.snapshots = w.snapshots ∧ w'.jobs = w.jobs := by
  obtain ⟨s, -, rfl⟩ := map_eq_some_iff.1 h
  exact ⟨rfl, rfl⟩

/-! ## A blocked refund stays blocked -/

/-- The reservation is open and blocked for good, every later snapshot of it is current, and nobody
refunds it. -/
structure Blocked (n : ℕ) (k : ℤ) (r : WalletPreConsumeRecord) (w : World) : Prop where
  inv : Inv w
  record : w.db.walletPreConsumeRecords.get? k = some r
  reserved : r.status = .reserved
  blocked : StaysBlocked w.db r
  taken : n ≤ w.snapshots.length
  current : ∀ i e, n ≤ i → w.snapshots[i]? = some e → e.1 = k → e.2.preConsumed = r.preConsumed
  idle : ∀ t j, w.jobs.get? t = some j → j.requestId ≠ r.requestId

theorem neg_of_tokenSelected {userID delta : ℤ} {t : Token} (hdeleted : t.deletedAt.isSome)
    (h : tokenSelected userID delta t = true) : delta < 0 := by
  simp only [tokenSelected, Bool.and_eq_true, Bool.or_eq_true, decide_eq_true_eq] at h
  refine h.1.resolve_right fun hnone => ?_
  rw [Option.isNone_iff_eq_none.1 hnone] at hdeleted
  cases hdeleted

/-- What is done to a deleted token only takes from its used quota. -/
theorem staysBlocked_updates {now delta : ℤ} {t : Token} (hdeleted : t.deletedAt.isSome)
    (hlim : t.unlimitedQuota = false) (hused : t.usedQuota < r.preConsumed) (hneg : delta < 0) :
    (tokenQuotaUpdates now delta t).deletedAt.isSome ∧
      (tokenQuotaUpdates now delta t).unlimitedQuota = false ∧
      (tokenQuotaUpdates now delta t).usedQuota < r.preConsumed := by
  rw [tokenQuotaUpdates_unlimitedQuota, tokenQuotaUpdates_usedQuota, hlim,
    if_neg Bool.false_ne_true, tokenQuotaUpdates, if_neg (by omega)]
  exact ⟨hdeleted, rfl, by omega⟩

theorem StaysBlocked.of_moved {db db' : Db} {now userId tokenId delta : ℤ}
    (hb : StaysBlocked db r) (hmove : Moved db now userId tokenId delta db') :
    StaysBlocked db' r := by
  obtain ⟨t, ht, hdeleted, hlim, hused⟩ := hb
  rw [StaysBlocked, hmove.tokens]
  by_cases hzero : delta = 0
  · rw [if_pos hzero]
    exact ⟨t, ht, hdeleted, hlim, hused⟩
  · rw [if_neg hzero, get?_modify]
    split_ifs with hid
    · obtain ⟨-, t', -, -, ht', hsel, -⟩ := hmove.accepted hzero
      rw [← hid, ht] at ht'
      cases ht'
      rw [ht, map_some]
      exact ⟨_, rfl, staysBlocked_updates hdeleted hlim hused (neg_of_tokenSelected hdeleted hsel)⟩
    · exact ⟨t, ht, hdeleted, hlim, hused⟩

theorem staysBlocked_step (hi : Inv w) (h : step w a = some w')
    (hget : w.db.walletPreConsumeRecords.get? k = some r) (hb : StaysBlocked w.db r) :
    StaysBlocked w'.db r := by
  obtain ⟨hi', heffect⟩ := step_spec hi h
  cases heffect with
  | quiet hdb _ =>
    rw [hdb]
    exact hb
  | edited _ _ hrec _ htok =>
    obtain ⟨t, ht, hdeleted, hlim, hused⟩ := hb
    obtain ⟨t', ht', -⟩ := ((hi' r.requestId).record k r (by rw [hrec]; exact hget) rfl).token
    obtain ⟨t₀, ht₀, hedit⟩ := htok _ t' ht'
    rw [ht] at ht₀
    cases ht₀
    refine ⟨t', ht', ?_⟩
    cases hedit with
    | same => exact ⟨hdeleted, hlim, hused⟩
    | updated _ _ _ hlive =>
      rw [hlive] at hdeleted
      cases hdeleted
    | deleted => exact ⟨rfl, hlim, hused⟩
    | adjusted _ _ _ hsel =>
      exact staysBlocked_updates hdeleted hlim hused (neg_of_tokenSelected hdeleted hsel)
  | opened _ _ _ _ _ _ _ _ _ hmove | extended _ _ _ _ _ _ _ _ _ _ hmove
  | settled _ _ _ _ _ _ _ _ hmove | refunded _ _ _ _ _ _ _ _ _ _ _ hmove
  | unrecorded _ _ _ _ _ _ _ _ hmove => exact hb.of_moved hmove

theorem Blocked.record_step {n : ℕ} (hb : Blocked n k r w)
    (hafter : afterRequest r.requestId n a = true) (h : step w a = some w') :
    w'.db.walletPreConsumeRecords.get? k = some r := by
  have hother : ∀ {k' : ℤ} {r' : WalletPreConsumeRecord},
      w.db.walletPreConsumeRecords.get? k' = some r' → r'.requestId ≠ r.requestId → k ≠ k' := by
    rintro k' r' hget' hne rfl
    rw [hb.record] at hget'
    cases hget'
    exact hne rfl
  cases (step_spec hb.inv h).2 with
  | quiet hdb | edited _ _ hdb | unrecorded _ _ _ _ _ _ _ hdb =>
    rw [hdb]
    exact hb.record
  | opened k' r' _ _ _ _ _ _ hins _ =>
    rw [get?_of_insert? hins k, if_neg]
    · exact hb.record
    · rintro rfl
      have hrecord := hb.record
      rw [((insert?_eq_some_iff _ _ _ _).1 hins).1] at hrecord
      cases hrecord
  | extended k' r' _ _ ha _ hget' _ _ hrec | settled k' r' _ ha _ hget' _ hrec =>
    subst ha
    rw [hrec, get?_modify_of_ne _ _ (hother hget' (by simpa [afterRequest] using hafter))]
    exact hb.record
  | refunded k' r' amount hsub _ hget' _ hpos _ hwho hrec hmove =>
    by_cases hk : k = k'
    · -- a refund of this reservation does not pass the token guard
      exfalso
      subst hk
      rw [hb.record] at hget'
      cases hget'
      obtain ⟨t, ht, -, hlim, hused⟩ := hb.blocked
      obtain ⟨-, t', -, -, ht', -, hguard⟩ := hmove.accepted (by omega)
      rw [ht] at ht'
      cases ht'
      have hfull : amount = r.preConsumed := by
        rcases hwho with ⟨t, ha, -⟩ | ⟨i, s, ha, hs, hamount⟩
        · subst ha
          obtain ⟨j, hj, hrid⟩ := map_eq_some_iff.1 hsub
          exact absurd hrid (hb.idle t j hj)
        · subst ha
          rw [hamount]
          exact hb.current i (k, s) (by simpa [afterRequest] using hafter) hs rfl
      rw [tokenQuotaGuard, if_neg (by omega), hlim, neg_neg] at hguard
      simp only [Bool.false_or, decide_eq_true_eq] at hguard
      omega
    · rw [hrec, get?_modify_of_ne _ _ hk]
      exact hb.record

theorem blocked_step {n : ℕ} (hb : Blocked n k r w) (hafter : afterRequest r.requestId n a = true)
    (h : step w a = some w') : Blocked n k r w' := by
  obtain ⟨hsnap, hjobs⟩ := step_frame hb.inv h
  refine ⟨(step_spec hb.inv h).1, hb.record_step hafter h, hb.reserved,
    staysBlocked_step hb.inv h hb.record hb.blocked, ?_, ?_, ?_⟩
  · rcases hsnap with hsame | ⟨_, _, -, happend⟩
    · rw [hsame]
      exact hb.taken
    · rw [happend, length_append]
      exact hb.taken.trans (Nat.le_add_right _ _)
  · intro i e hn he hk
    rcases hsnap with hsame | ⟨_, _, -, happend⟩
    · rw [hsame] at he
      exact hb.current i e hn he hk
    · rw [happend] at he
      rcases lt_or_ge i w.snapshots.length with hlt | hge
      · rw [getElem?_append_left hlt] at he
        exact hb.current i e hn he hk
      · rw [getElem?_append_right hge] at he
        have hget := (mem_findStale (mem_of_getElem? he)).1
        rw [hk, hb.record] at hget
        rw [some.inj hget]
  · intro t j hj he
    rcases hjobs t j hj with ⟨j', hj', he'⟩ | ⟨ticket, ha⟩
    · exact hb.idle t j' hj' (he'.trans he)
    · subst ha
      exact absurd he (by simpa [afterRequest] using hafter)

/-! ## A reservation that is not blocked is given back -/

theorem moveAccepted_of_not_blocked (hi : Inv w)
    (hget : w.db.walletPreConsumeRecords.get? k = some r) (hb : ¬RefundBlocked w.db r) :
    MoveAccepted w.db r.userId r.tokenId (-r.preConsumed) := by
  have hrecord := (hi r.requestId).record k r hget rfl
  have hpos := hrecord.preConsumed_pos
  obtain ⟨u, hu⟩ := Option.isSome_iff_exists.1 hrecord.user
  obtain ⟨t, ht, howner⟩ := hrecord.token
  refine ⟨u, t, hu, fun h => absurd h (by omega), ht, ?_, ?_⟩
  · simp only [tokenSelected, howner, BEq.rfl, Bool.or_true, Bool.and_true, Bool.or_eq_true,
      decide_eq_true_eq]
    exact .inl (by omega)
  · rw [tokenQuotaGuard, if_neg (by omega), neg_neg]
    cases hlim : t.unlimitedQuota with
    | true => rfl
    | false =>
      have : ¬t.usedQuota < r.preConsumed := fun hused => hb ⟨t, ht, hlim, hused⟩
      simpa using this

theorem sweeper_returns (hi : Inv w) (hget : w.db.walletPreConsumeRecords.get? k = some r)
    (hres : r.status = .reserved) (hb : ¬RefundBlocked w.db r) :
    ∃ l w', (∀ a ∈ l, afterRequest r.requestId w.snapshots.length a = true) ∧
      Run.run step w l = some w' ∧
        Run.total step (requestChange r.requestId r.userId) w l = r.preConsumed := by
  have hrecord := (hi r.requestId).record k r hget rfl
  have hpos := hrecord.preConsumed_pos
  let seconds : ℕ := (r.updatedAt + walletReservationStaleAfter + 1 - w.now).toNat
  let limit : ℤ := w.db.walletPreConsumeRecords.rows.length + 1
  let w₁ : World := { w with now := w.now + seconds }
  let stale := findStaleReservedWalletPreConsumes w.db w₁.now walletReservationStaleAfter limit
  let w₂ : World := { w₁ with snapshots := w.snapshots ++ stale }
  have hmem : (k, r) ∈ stale := by
    refine mem_findStale_of_stale hget hres ?_ (by omega)
    show r.updatedAt < w.now + seconds - walletReservationStaleAfter
    omega
  obtain ⟨j, hj⟩ := mem_iff_getElem?.1 hmem
  have hsnap : w₂.snapshots[w.snapshots.length + j]? = some (k, r) := by
    show (w.snapshots ++ stale)[w.snapshots.length + j]? = _
    rw [getElem?_append_right (Nat.le_add_right _ _), Nat.add_sub_cancel_left]
    exact hj
  have hacc := moveAccepted_of_not_blocked hi hget hb
  let db := moveQuota (closeRecord w.db w₁.now k .refunded) w₁.now r.userId r.tokenId
    (-r.preConsumed)
  have hrefund : refundStaleWalletPreConsume w.db w₁.now (k, r) = .ok db :=
    (refundStale_of_reserved hpos hrecord.tokenId_pos hget hres).2 ⟨hacc, rfl⟩
  have hstep : step w₂ (.sweep (w.snapshots.length + j) false) = some { w₂ with db } := by
    rw [step, hsnap]
    simp only [map_some, some.injEq]
    rw [show attempt false (refundStaleWalletPreConsume w₂.db w₂.now (k, r)) = .ok db from hrefund]
  have hchange : requestChange r.requestId r.userId w₂ (.sweep (w.snapshots.length + j) false)
      { w₂ with db } = r.preConsumed := by
    have hquota : quotaOf db r.userId = quotaOf w.db r.userId - -r.preConsumed := by
      have := @quotaOf_moveQuota (closeRecord w.db w₁.now k .refunded) w₁.now r.userId r.tokenId
        (-r.preConsumed) hacc r.userId
      rwa [if_pos rfl] at this
    rw [requestChange, if_pos (by rw [subject, hsnap]; rfl)]
    show quotaOf db r.userId - quotaOf w.db r.userId = r.preConsumed
    rw [hquota]
    ring
  refine ⟨[.tick seconds, .findStale walletReservationStaleAfter limit,
    .sweep (w.snapshots.length + j) false], { w₂ with db }, ?_, ?_, ?_⟩
  · simp [afterRequest]
  · exact run_cons_eq_some_iff.2 ⟨w₁, rfl, run_cons_eq_some_iff.2
      ⟨w₂, rfl, run_cons_eq_some_iff.2 ⟨_, hstep, rfl⟩⟩⟩
  · have h₁ : step w (.tick seconds) = some w₁ := rfl
    have h₂ : step w₁ (.findStale walletReservationStaleAfter limit) = some w₂ := rfl
    simp only [Run.total, h₁, h₂, hstep, hchange]
    simp [requestChange, subject]

/-! ## Exactly when a delivered request stays charged -/

/-- An edit of a live token makes way for the sweeper. -/
theorem sweeper_returns_after_edit (hi : Inv w)
    (hget : w.db.walletPreConsumeRecords.get? k = some r) (hres : r.status = .reserved)
    (hfree : ¬StaysBlocked w.db r) :
    ∃ l w', (∀ a ∈ l, afterRequest r.requestId w.snapshots.length a = true) ∧
      Run.run step w l = some w' ∧
        Run.total step (requestChange r.requestId r.userId) w l = r.preConsumed := by
  by_cases hb : RefundBlocked w.db r
  · obtain ⟨t, ht, hlim, hused⟩ := hb
    have hlive : t.deletedAt.isNone := by
      cases hdeleted : t.deletedAt with
      | none => rfl
      | some time =>
        exact absurd ⟨t, ht, by rw [hdeleted]; rfl, hlim, hused⟩ hfree
    let edit : Label := .updateToken r.tokenId t.remainQuota true
    let w₁ : World := { w with db := Token.update w.db r.tokenId t.remainQuota true }
    have hstep : step w edit = some w₁ := rfl
    have hdb : w₁.db = { w.db with tokens := w.db.tokens.modify r.tokenId fun t' =>
        { t' with remainQuota := t.remainQuota, unlimitedQuota := true } } := by
      show Token.update w.db r.tokenId t.remainQuota true = _
      rw [Token.update, (updateRow_eq_some_iff _ _ _ _ _).2 ⟨t, ht, hlive, rfl⟩]
    have hfree' : ¬RefundBlocked w₁.db r := by
      rintro ⟨t', ht', hlim', -⟩
      rw [hdb, get?_modify_self, ht] at ht'
      cases ht'
      cases hlim'
    obtain ⟨l, w', hl, hrun, htotal⟩ :=
      sweeper_returns (step_spec hi hstep).1 (by rw [hdb]; exact hget) hres hfree'
    refine ⟨edit :: l, w', ?_, run_cons_eq_some_iff.2 ⟨w₁, hstep, hrun⟩, ?_⟩
    · intro a ha
      rcases List.mem_cons.1 ha with rfl | ha
      · rfl
      · exact hl a ha
    · rw [Run.total, hstep]
      simpa [requestChange, subject, edit] using htotal
  · exact sweeper_returns hi hget hres hb

/-- The charge stays at least the smaller of the actual and the reserved quota, whatever the sweeper,
other requests and edits of the token do later, exactly when the settlement was accepted or a deleted
token blocks the refund. -/
theorem delivered_charged_iff {w₀ w w₁ : World} {l : List Label} {rid : String} {k actual : ℤ}
    {r : WalletPreConsumeRecord} {fault : Bool} (h₀ : Initial w₀)
    (hrun : Run.run step w₀ l = some w) (hf : w.db.walletRecordOf rid = some (k, r))
    (hres : r.status = .reserved)
    (hrefund : ∀ ticket job, w.jobs.get? ticket = some job → job.requestId ≠ rid)
    (hactual : 0 < actual) (hstep : step w (.settle rid actual fault) = some w₁) :
    (∀ l' w', (∀ a ∈ l', afterRequest rid w.snapshots.length a = true) →
      Run.run step w₁ l' = some w' → min actual r.preConsumed ≤
        -Run.total step (requestChange rid r.userId) w₀ (l ++ .settle rid actual fault :: l')) ↔
      fault = false ∧ SettleAccepted w.db r actual ∨ StaysBlocked w.db r := by
  have hi := inv_of_run h₀ hrun
  have hi₁ := (step_spec hi hstep).1
  obtain ⟨hget, hrid⟩ := hi.walletRecordOf_iff.1 hf
  obtain ⟨hsnap, hjobs⟩ := settle_snapshots hstep
  constructor
  · intro hcharged
    by_contra hno
    obtain ⟨hrej, hfree⟩ := not_or.1 hno
    have hdb := settle_of_rejected hi hf hstep hrej
    obtain ⟨l', w', hafter, hrun', htotal⟩ := sweeper_returns_after_edit hi₁
      (by rw [hdb]; exact hget) hres (by rw [hdb]; exact hfree)
    rw [hsnap, hrid] at hafter
    have hle := hcharged l' w' hafter hrun'
    have hpaid := (account_of_run h₀ hrun rid r.userId).charged k r hf (by rw [hres]; simp)
    have hzero : requestChange rid r.userId w (.settle rid actual fault) w₁ = 0 := by
      rw [requestChange, hdb]
      simp
    have hpos := ((hi rid).record k r hget hrid).preConsumed_pos
    rw [total_append hrun, hpaid, Run.total, hstep] at hle
    dsimp only at hle
    rw [hzero, ← hrid, htotal] at hle
    simp only [chargeOf, hres, if_true] at hle
    omega
  · intro hkeep l' w' hafter hrun'
    have hfull : Run.run step w₀ (l ++ .settle rid actual fault :: l') = some w' :=
      run_append_eq_some_iff.2 ⟨w, hrun, run_cons_eq_some_iff.2 ⟨w₁, hstep, hrun'⟩⟩
    have hacc := account_of_run h₀ hfull rid r.userId
    by_cases hleft : statusOf w₁.db rid = some .reserved
    · -- the settlement was rejected, so the refund is blocked, and stays so
      have hrej : ¬(fault = false ∧ SettleAccepted w.db r actual) := by
        rintro ⟨rfl, haccepted⟩
        rw [settle_of_accepted hi hf hres hstep haccepted] at hleft
        cases hleft
      have hblocked := hkeep.resolve_left hrej
      have hdb := settle_of_rejected hi hf hstep hrej
      have hstart : Blocked w.snapshots.length k r w₁ := by
        refine ⟨hi₁, by rw [hdb]; exact hget, hres, by rw [hdb]; exact hblocked, ?_, ?_, ?_⟩
        · rw [hsnap]
        · intro i e hi he
          rw [hsnap, getElem?_eq_none hi] at he
          cases he
        · rw [hjobs, hrid]
          exact hrefund
      rw [← hrid] at hafter
      have hend := @invariant_along World Label step
        (fun _ a => afterRequest r.requestId w.snapshots.length a = true)
        (Blocked w.snapshots.length k r) (fun _ _ _ hb hok h => blocked_step hb hok h) w₁ w' l'
        hstart (along_of_forall hafter) hrun'
      have hpaid := hacc.charged k r (hend.inv.walletRecordOf_iff.2 ⟨hend.record, hrid⟩)
        (by rw [hres]; simp)
      rw [hpaid, if_pos rfl, neg_neg]
      simp only [chargeOf, hres]
      exact min_le_right _ _
    · -- the settlement was accepted, and a settled record is never touched again
      have hopen : statusOf w.db rid = some .reserved := by
        rw [statusOf, hf, map_some, hres]
      obtain ⟨k₁, r₁, r', hf₁, hf', hr', hcharge⟩ := settle_wins hi hstep hopen hleft
      rw [hf] at hf₁
      cases hf₁
      have hst : r'.status = .settled := by rw [hr']
      obtain ⟨hlast, hd⟩ := closed_of_run hi₁ hrun' hf' (by rw [hst]; simp)
      have hpaid := hacc.charged k r' hlast (by rw [hst]; simp)
      have hsame : chargeOf w' r' = chargeOf w₁ r' := by
        unfold chargeOf
        rw [(get?_of_walletRecordOf hf').2, hd]
      rw [hpaid, if_pos (by rw [hr']), neg_neg, hsame, hcharge]
      exact min_le_left _ _

/-- A user who has just enough for the reservation. -/
def poorWorld : World :=
  { db :=
      { users := ⟨[(1, { quota := 10 })], by decide⟩
        tokens := ⟨[(1, { userId := 1, remainQuota := 100 })], List.nodup_singleton 1⟩ }
    now := 1000 }

def sweepAfterTwoHours : List Label :=
  [.tick 7201, .findStale walletReservationStaleAfter walletReservationSweepBatch, .sweep 0 false]

/-- The reservation takes the whole balance, the request costs 15, the settlement is rejected, and
the sweeper makes the request free. -/
theorem delivered_request_free :
    ¬∀ (w₀ w w₁ w' : World) (l l' : List Label) (rid : String) (k actual : ℤ)
      (r : WalletPreConsumeRecord), Initial w₀ → Run.run step w₀ l = some w →
      w.db.walletRecordOf rid = some (k, r) → r.status = .reserved → 0 < actual →
      step w (.settle rid actual false) = some w₁ →
      (∀ a ∈ l', afterRequest rid w.snapshots.length a = true) → Run.run step w₁ l' = some w' →
      min actual r.preConsumed ≤
        -Run.total step (requestChange rid r.userId) w₀ (l ++ .settle rid actual false :: l') := by
  intro hclaim
  obtain ⟨w, hw, hrecord, hlen, w₁, hstep, hsome⟩ :
      ∃ w, Run.run step poorWorld [.preConsume "req-1" 1 1 10 false] = some w ∧
        w.db.walletRecordOf "req-1" = some (1, reservedRecord 1000 "req-1" 1 1 10) ∧
        w.snapshots.length = 0 ∧ ∃ w₁, step w (.settle "req-1" 15 false) = some w₁ ∧
          (Run.run step w₁ sweepAfterTwoHours).isSome := by
    decide
  obtain ⟨w', hrun'⟩ := isSome_iff_exists.1 hsome
  have htotal : Run.total step (requestChange "req-1" 1) poorWorld
      ([.preConsume "req-1" 1 1 10 false] ++ .settle "req-1" 15 false :: sweepAfterTwoHours) = 0 := by
    decide
  have hle := hclaim poorWorld w w₁ w' _ sweepAfterTwoHours "req-1" 1 15
    (reservedRecord 1000 "req-1" 1 1 10) ⟨rfl, rfl, rfl, rfl⟩ hw hrecord rfl (by omega) hstep
    (by rw [hlen]; decide) hrun'
  rw [show (reservedRecord 1000 "req-1" 1 1 10).userId = 1 from rfl, htotal] at hle
  exact absurd hle (by decide)

/-- The same settlement with a balance that covers it. -/
theorem delivered_charged_of_covered :
    ∃ w w₁, Run.run step exampleWorld [.preConsume "req-1" 1 1 10 false] = some w ∧
      step w (.settle "req-1" 15 false) = some w₁ ∧
      ∀ l' w', (∀ a ∈ l', afterRequest "req-1" w.snapshots.length a = true) → Run.run step w₁ l' = some w' →
        10 ≤ -Run.total step (requestChange "req-1" 1) exampleWorld
          ([.preConsume "req-1" 1 1 10 false] ++ .settle "req-1" 15 false :: l') := by
  obtain ⟨w, hw, hrecord, hjobs, huser, htoken, hsome⟩ :
      ∃ w, Run.run step exampleWorld [.preConsume "req-1" 1 1 10 false] = some w ∧
        w.db.walletRecordOf "req-1" = some (1, reservedRecord 1000 "req-1" 1 1 10) ∧
        w.jobs = ∅ ∧ w.db.users.get? 1 = some { quota := 90 } ∧ w.db.tokens.get? 1 =
          some { userId := 1, remainQuota := 90, usedQuota := 10, accessedTime := 1000 } ∧
        (step w (.settle "req-1" 15 false)).isSome := by
    decide
  obtain ⟨w₁, hstep⟩ := isSome_iff_exists.1 hsome
  have haccepted : SettleAccepted w.db (reservedRecord 1000 "req-1" 1 1 10) 15 :=
    .inr ⟨_, _, huser, by decide, htoken, by decide, by decide⟩
  exact ⟨w, w₁, hw, hstep, (delivered_charged_iff ⟨rfl, rfl, rfl, rfl⟩ hw hrecord rfl
    (by simp [hjobs]) (by omega) hstep).2 (.inl ⟨rfl, haccepted⟩)⟩

end BeeApi.Wallet
