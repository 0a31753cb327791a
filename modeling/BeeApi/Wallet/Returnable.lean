import BeeApi.Wallet.Delivered

/-!
# A reservation can be given back

The guard `used_quota >= n` of a refund holds as long as `used_quota` covers the open reservations of
the token.  All transactions keep that for limited tokens, but an unlimited token does not count its
use: when `Token.Update` makes it limited, the refunds of its open reservations are rejected.
-/

namespace BeeApi.Wallet

open Strings

/-- The open reservations of a token. -/
def outstanding (db : Db) (tokenId : ℤ) : ℤ :=
  db.walletPreConsumeRecords.sum fun _ r =>
    if r.tokenId = tokenId ∧ r.status = .reserved then r.preConsumed else 0

/-- The used quota of every limited token covers its open reservations. -/
def Covered (db : Db) : Prop :=
  ∀ id t, db.tokens.get? id = some t → t.unlimitedQuota = false → outstanding db id ≤ t.usedQuota

/-- No settlement asks for a negative quota, and an unlimited token is made limited only when its
used quota covers its open reservations, and what is given back to a limited token outside of them
leaves them covered. -/
def keepsCover (w : World) : Label → Bool
  | .settle _ actualQuota _ => decide (0 ≤ actualQuota)
  | .adjustToken id _ delta _ =>
    decide (0 ≤ delta) || (w.db.tokens.get? id).all fun t =>
      t.unlimitedQuota || decide (outstanding w.db id ≤ t.usedQuota + delta)
  | .updateToken id _ unlimitedQuota =>
    (w.db.tokens.get? id).all fun t =>
      unlimitedQuota || t.deletedAt.isSome || !t.unlimitedQuota ||
        decide (outstanding w.db id ≤ t.usedQuota)
  | _ => true

variable {db db' : Db} {k : ℤ} {r : WalletPreConsumeRecord} {w : World}

theorem outstanding_modify {f : WalletPreConsumeRecord → WalletPreConsumeRecord}
    (hget : db.walletPreConsumeRecords.get? k = some r) (hst : r.status = .reserved)
    (hrec : db'.walletPreConsumeRecords = db.walletPreConsumeRecords.modify k f)
    (htok : (f r).tokenId = r.tokenId) (id : ℤ) :
    outstanding db' id = outstanding db id + if id = r.tokenId then
      (if (f r).status = .reserved then (f r).preConsumed else 0) - r.preConsumed else 0 := by
  unfold outstanding
  rw [hrec, Table.sum_modify hget]
  by_cases hid : id = r.tokenId
  · simp [hid, htok, hst]
  · simp [hid, htok, Ne.symm hid]

theorem Moved.token {now userId tokenId delta : ℤ} (h : Moved db now userId tokenId delta db')
    {id : ℤ} {t' : Token} (ht' : db'.tokens.get? id = some t') :
    ∃ t, db.tokens.get? id = some t ∧ t'.unlimitedQuota = t.unlimitedQuota ∧
      (t.unlimitedQuota = false → t'.usedQuota = t.usedQuota + if id = tokenId then delta else 0) := by
  rw [h.tokens] at ht'
  split_ifs at ht' with hd
  · exact ⟨t', ht', rfl, fun _ => by simp [hd]⟩
  · rw [Table.get?_modify] at ht'
    split_ifs at ht' with hid
    · obtain ⟨t, ht, rfl⟩ := Option.map_eq_some_iff.1 ht'
      refine ⟨t, ht, tokenQuotaUpdates_unlimitedQuota _ _ _, fun hlim => ?_⟩
      rw [tokenQuotaUpdates_usedQuota, hlim, if_pos hid]
      simp
    · exact ⟨t', ht', rfl, fun _ => by simp [hid]⟩

/-- A move that takes at least as much as it adds to the open reservations keeps the cover. -/
theorem Covered.of_moved {now userId tokenId delta : ℤ} (hc : Covered db) (change : ℤ)
    (hmove : Moved db now userId tokenId delta db')
    (hout : ∀ id, outstanding db' id = outstanding db id + if id = tokenId then change else 0)
    (hle : change ≤ delta) : Covered db' := by
  intro id t' ht' hlim'
  obtain ⟨t, ht, hsame, hused⟩ := hmove.token ht'
  have hlim : t.unlimitedQuota = false := hsame ▸ hlim'
  have hcover := hc id t ht hlim
  rw [hout, hused hlim]
  split_ifs <;> omega

theorem covered_step {w' : World} {a : Label} (hi : Inv w) (hc : Covered w.db)
    (hok : keepsCover w a = true) (h : step w a = some w') : Covered w'.db := by
  cases (step_spec hi h).2 with
  | quiet hdb _ =>
    rw [hdb]
    exact hc
  | edited _ _ hrec _ htok =>
    intro id t' ht' hlim'
    obtain ⟨t, ht, hedit⟩ := htok id t' ht'
    have hout : outstanding w'.db id = outstanding w.db id := by
      unfold outstanding
      rw [hrec]
    rw [hout]
    cases hedit with
    | same => exact hc id _ ht hlim'
    | deleted => exact hc id t ht hlim'
    | updated remainQuota unlimitedQuota ha hlive =>
      by_cases hlim : t.unlimitedQuota = false
      · exact hc id t ht hlim
      · have hedited : unlimitedQuota = false := hlim'
        subst ha hedited
        simpa [keepsCover, ht, hlive, hlim] using hok
    | adjusted userID delta ha =>
      have hlim : t.unlimitedQuota = false := by
        rwa [tokenQuotaUpdates_unlimitedQuota] at hlim'
      have hcover := hc id t ht hlim
      subst ha
      have hkept : 0 ≤ delta ∨ outstanding w.db id ≤ t.usedQuota + delta := by
        simpa [keepsCover, ht, hlim] using hok
      rw [tokenQuotaUpdates_usedQuota, hlim, if_neg Bool.false_ne_true]
      omega
  | opened k r ha _ _ _ hst _ hins hmove =>
    refine hc.of_moved r.preConsumed hmove (fun id => ?_) le_rfl
    unfold outstanding
    rw [Table.sum_of_insert? hins]
    simp only [hst, and_true, @eq_comm ℤ r.tokenId id]
  | extended k r target delta ha _ hget hst hpos hrec hmove =>
    refine hc.of_moved delta hmove (fun id => ?_) le_rfl
    rw [outstanding_modify hget hst hrec rfl]
    simp [hst]
  | settled k r actual ha _ hget hst hrec hmove =>
    subst ha
    have hnonneg : 0 ≤ actual := by simpa [keepsCover] using hok
    refine hc.of_moved (-r.preConsumed) hmove (fun id => ?_) (by omega)
    rw [outstanding_modify hget hst hrec rfl]
    simp
  | refunded k r amount _ _ hget hst hpos hle _ hrec hmove =>
    refine hc.of_moved (-r.preConsumed) hmove (fun id => ?_) (by omega)
    rw [outstanding_modify hget hst hrec rfl]
    simp
  | unrecorded s actual ha _ _ _ hbare hrec hmove =>
    subst ha
    have hnonneg : 0 ≤ actual := by simpa [keepsCover] using hok
    refine hc.of_moved 0 hmove (fun id => ?_) (by omega)
    unfold outstanding
    rw [hrec]
    simp

theorem Covered.not_blocked (hi : Inv w) (hc : Covered w.db)
    (hget : w.db.walletPreConsumeRecords.get? k = some r) (hres : r.status = .reserved) :
    ¬RefundBlocked w.db r := by
  rintro ⟨t, ht, hlim, hused⟩
  have hcover := hc r.tokenId t ht hlim
  have hle := Table.le_sum (g := fun _ r' =>
    if r'.tokenId = r.tokenId ∧ r'.status = .reserved then r'.preConsumed else 0) hget
    fun k' r' hr' => by
      split_ifs
      · exact ((hi r'.requestId).record k' r' hr' rfl).preConsumed_pos.le
      · exact le_rfl
  simp only [hres, and_self, if_true] at hle
  unfold outstanding at hcover
  omega

/-- Both ways to give a reservation back commit and return its whole amount to the user. -/
def Returnable (db : Db) (k : ℤ) (r : WalletPreConsumeRecord) : Prop :=
  ∀ now, (∃ db', refundStaleWalletPreConsume db now (k, r) = .ok db' ∧
      quotaOf db' r.userId = quotaOf db r.userId + r.preConsumed) ∧
    ∃ db', finalizeUserTokenQuota db now r.requestId r.userId r.tokenId (-r.preConsumed) .refunded =
        .ok db' ∧ quotaOf db' r.userId = quotaOf db r.userId + r.preConsumed

theorem returnable_of_not_blocked (hi : Inv w) (hget : w.db.walletPreConsumeRecords.get? k = some r)
    (hres : r.status = .reserved) (hb : ¬RefundBlocked w.db r) : Returnable w.db k r := by
  intro now
  have hrecord := (hi r.requestId).record k r hget rfl
  have hpos := hrecord.preConsumed_pos
  have hacc := moveAccepted_of_not_blocked hi hget hb
  obtain ⟨s, hs, -⟩ := hrecord.session
  have hblank := ((hi r.requestId).session s hs).2
  have hquota : quotaOf (moveQuota (closeRecord w.db now k .refunded) now r.userId r.tokenId
      (-r.preConsumed)) r.userId = quotaOf w.db r.userId + r.preConsumed := by
    have := @quotaOf_moveQuota (closeRecord w.db now k .refunded) now r.userId r.tokenId
      (-r.preConsumed) hacc r.userId
    rw [this, if_pos rfl, sub_neg_eq_add]
    rfl
  have hclose : closeQuota (closeRecord w.db now k .refunded) now r.userId r.tokenId
      (-r.preConsumed) = moveQuota (closeRecord w.db now k .refunded) now r.userId r.tokenId
        (-r.preConsumed) := if_neg (by omega)
  refine ⟨⟨_, (refundStale_of_reserved hpos hrecord.tokenId_pos hget hres).2 ⟨hacc, rfl⟩, hquota⟩,
    _, (finalize_of_reserved hblank hrecord.userId_pos hrecord.tokenId_pos
      (walletRecordOf_eq_some hi.uniqueRequestIds hget) hres).2 ⟨fun _ => hacc, rfl⟩, ?_⟩
  rw [hclose]
  exact hquota

/-- In every run that keeps the cover, every open reservation of every state reached can be given
back. -/
theorem reservation_returnable {w₀ w : World} {l : List Label} (h₀ : Initial w₀)
    (hused : ∀ id t, w₀.db.tokens.get? id = some t → 0 ≤ t.usedQuota)
    (hok : Run.Along step (fun w a => keepsCover w a = true) w₀ l)
    (hrun : Run.run step w₀ l = some w) (k : ℤ) (r : WalletPreConsumeRecord)
    (hget : w.db.walletPreConsumeRecords.get? k = some r) (hres : r.status = .reserved) :
    Returnable w.db k r := by
  have hstart : Covered w₀.db := by
    intro id t ht _
    unfold outstanding
    rw [h₀.records]
    exact hused id t ht
  have hend := @Run.invariant_along World Label step _ (fun w => Inv w ∧ Covered w.db)
    (fun _ _ _ hs hok h => ⟨(step_spec hs.1 h).1, covered_step hs.1 hs.2 hok h⟩) w₀ w l
    ⟨Inv.of_initial h₀, hstart⟩ hok hrun
  exact returnable_of_not_blocked hend.1 hget hres (hend.2.not_blocked hend.1 hget hres)

def unlimitedWorld : World :=
  { db :=
      { users := ⟨[(1, { quota := 100 })], List.pairwise_singleton _ 1⟩
        tokens := ⟨[(1, { userId := 1, unlimitedQuota := true })], by decide⟩ }
    now := 1000 }

/-- A reservation on an unlimited token that is then made limited cannot be returned. -/
theorem reservation_not_returnable :
    ¬∀ (w₀ w : World) (l : List Label) (k : ℤ) (r : WalletPreConsumeRecord), Initial w₀ →
      (∀ id t, w₀.db.tokens.get? id = some t → 0 ≤ t.usedQuota) → Run.run step w₀ l = some w →
      w.db.walletPreConsumeRecords.get? k = some r → r.status = .reserved →
      Returnable w.db k r := by
  intro hclaim
  obtain ⟨w, hw, hget, hfail⟩ : ∃ w, Run.run step unlimitedWorld
      [.preConsume "req-1" 1 1 10 false, .updateToken 1 50 false] = some w ∧
      w.db.walletPreConsumeRecords.get? 1 = some (reservedRecord 1000 "req-1" 1 1 10) ∧
      (refundStaleWalletPreConsume w.db 9000 (1, reservedRecord 1000 "req-1" 1 1 10)).isOk =
        false := by
    decide
  obtain ⟨⟨db', hok, -⟩, -⟩ :=
    hclaim unlimitedWorld w _ 1 _ ⟨rfl, rfl, rfl, rfl⟩ (by decide) hw hget rfl 9000
  rw [hok] at hfail
  cases hfail

/-- A reservation on a limited token whose limits are edited while a request that a subscription pays
comes and goes. -/
theorem reservation_returnable_of_edit :
    ∃ w, Run.run step exampleWorld
        [.preConsume "req-1" 1 1 10 false, .adjustToken 1 1 5 false, .updateToken 1 0 false,
          .adjustToken 1 1 (-5) false, .deleteToken 1 1] = some w ∧
      Returnable w.db 1 (reservedRecord 1000 "req-1" 1 1 10) := by
  exact Option.exists_some_imp (p := fun w => w.db.walletPreConsumeRecords.get? 1 =
    some (reservedRecord 1000 "req-1" 1 1 10)) (by decide) fun w hw hget =>
      reservation_returnable ⟨rfl, rfl, rfl, rfl⟩ (by decide) (by decide) hw 1 _ hget rfl

end BeeApi.Wallet
