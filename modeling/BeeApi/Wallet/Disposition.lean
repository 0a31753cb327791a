import BeeApi.Wallet.Conservation

/-!
# A reservation is disposed of once

`Settle`, the refund job and the sweeper race for the record of a request, and `Settle` does not look at
the refund flag.  The record decides: it leaves `reserved` at most once, no later step for the request
moves money, and a settlement that wins charges exactly the actual quota.
-/

namespace BeeApi.Wallet

open Strings Option Table Run

/-- What a step does to the balance of `userId` on behalf of the request `rid`. -/
def requestChange (rid : String) (userId : ℤ) (w : World) (a : Label) (w' : World) : ℤ :=
  if subject w a = some rid then quotaOf w'.db userId - quotaOf w.db userId else 0

/-- Counts the transitions of the record of `rid` out of `reserved`. -/
def leavesReserved (rid : String) (w : World) (_ : Label) (w' : World) : ℤ :=
  if statusOf w.db rid = some .reserved ∧ statusOf w'.db rid ≠ some .reserved then 1 else 0

/-! ## The record of a request -/

variable {w w' : World} {rid : String} {k u : ℤ} {r : WalletPreConsumeRecord} {a : Label}

theorem Inv.walletRecordOf_iff (hi : Inv w) : w.db.walletRecordOf rid = some (k, r) ↔
      w.db.walletPreConsumeRecords.get? k = some r ∧ r.requestId = rid := by
  constructor
  · exact get?_of_walletRecordOf
  · rintro ⟨hr, rfl⟩
    exact walletRecordOf_eq_some hi.uniqueRequestIds hr

theorem walletRecordOf_congr (hi : Inv w) (hi' : Inv w')
    (h : ∀ k r, r.requestId = rid → (w'.db.walletPreConsumeRecords.get? k = some r ↔
      w.db.walletPreConsumeRecords.get? k = some r)) :
    w'.db.walletRecordOf rid = w.db.walletRecordOf rid := by
  ext ⟨k, r⟩
  rw [hi.walletRecordOf_iff, hi'.walletRecordOf_iff]
  constructor
  · rintro ⟨hr, he⟩
    exact ⟨(h k r he).1 hr, he⟩
  · rintro ⟨hr, he⟩
    exact ⟨(h k r he).2 hr, he⟩

theorem step_of_other (hi : Inv w) (h : step w a = some w') (hsub : subject w a ≠ some rid) :
    w'.db.walletRecordOf rid = w.db.walletRecordOf rid ∧ w'.settleDelta rid = w.settleDelta rid := by
  obtain ⟨hi', heffect⟩ := step_spec hi h
  have hmodify : ∀ {k r f}, subject w a = some r.requestId → (f r).requestId = r.requestId →
      w.db.walletPreConsumeRecords.get? k = some r →
      w'.db.walletPreConsumeRecords = w.db.walletPreConsumeRecords.modify k f →
      w'.db.walletRecordOf rid = w.db.walletRecordOf rid := by
    intro k r f hs hf hget hrec
    have hne : r.requestId ≠ rid := by
      rintro rfl
      exact hsub hs
    refine walletRecordOf_congr hi hi' fun k' r' he => ?_
    rw [hrec]
    exact records_modify_other hget rfl hf k' r' (he ▸ hne.symm)
  cases heffect with
  | quiet hdb hd => exact ⟨by rw [hdb], by rw [hd]⟩
  | edited _ hd hrec | unrecorded s actual ha hd hs hnone hbare hrec =>
    exact ⟨walletRecordOf_congr hi hi' fun _ _ _ => by rw [hrec], by rw [hd]⟩
  | opened k r ha hd hnew hfresh hst hpos hins hmove =>
    subst ha
    have hne : rid ≠ r.requestId := by
      rintro rfl
      exact hsub rfl
    refine ⟨walletRecordOf_congr hi hi' fun k' r' he => ?_, by rw [hd]⟩
    rw [get?_of_insert? hins]
    split_ifs with hk
    · rw [hk, ((insert?_eq_some_iff _ _ _ _).1 hins).1, some.injEq]
      refine iff_of_false ?_ (by simp)
      rintro rfl
      exact hne he.symm
    · rfl
  | extended k r target delta ha hd hget hst hpos hrec hmove =>
    subst ha
    exact ⟨hmodify rfl (by rfl) hget hrec, by rw [hd]⟩
  | settled k r actual ha hd hget hst hrec hmove =>
    subst ha
    refine ⟨hmodify rfl (by rfl) hget hrec, ?_⟩
    rw [hd, Function.update_of_ne]
    rintro rfl
    exact hsub rfl
  | refunded k r amount hs hd hget hst hpos hle hwho hrec hmove =>
    exact ⟨hmodify hs (by rfl) hget hrec, by rw [hd]⟩

theorem step_of_closed (hi : Inv w) (h : step w a = some w')
    (hf : w.db.walletRecordOf rid = some (k, r)) (hst : r.status ≠ .reserved) :
    w'.db.walletRecordOf rid = some (k, r) ∧ w'.settleDelta rid = w.settleDelta rid ∧
      (subject w a = some rid → w'.db = w.db) := by
  by_cases hsub : subject w a = some rid
  · obtain ⟨hget, hrid⟩ := hi.walletRecordOf_iff.1 hf
    -- the only record of the request is closed, so no other effect can act for it
    have hopen : ∀ k' r', w.db.walletPreConsumeRecords.get? k' = some r' →
        subject w a = some r'.requestId → r'.status ≠ .reserved := by
      intro k' r' hget' hs
      rw [hsub] at hs
      have he : r'.requestId = r.requestId := by rw [hrid, some.inj hs]
      obtain rfl := hi.uniqueRequestIds k' k r' r hget' hget he
      rw [hget] at hget'
      cases hget'
      exact hst
    have hquiet : w'.db = w.db ∧ w'.settleDelta = w.settleDelta := by
      cases (step_spec hi h).2 with
      | quiet hdb hd => exact ⟨hdb, hd⟩
      | edited hs _ _ _ _ =>
        rw [hsub] at hs
        cases hs
      | opened _ _ ha _ _ hfresh | unrecorded _ _ ha _ _ hfresh =>
        subst ha
        rw [some.inj hsub, hf] at hfresh
        cases hfresh
      | extended k' r' _ _ ha _ hget' hst' | settled k' r' _ ha _ hget' hst' =>
        subst ha
        exact absurd hst' (hopen k' r' hget' rfl)
      | refunded k' r' _ hs _ hget' hst' _ _ _ _ _ => exact absurd hst' (hopen k' r' hget' hs)
    refine ⟨?_, by rw [hquiet.2], fun _ => hquiet.1⟩
    rw [hquiet.1]
    exact hf
  · obtain ⟨hrec, hd⟩ := step_of_other hi h hsub
    exact ⟨hrec.trans hf, hd, fun hs => absurd hs hsub⟩

/-! ## Sessions stay -/

theorem isSome_get?_put {sessions : Table String BillingSession} {rid' : String}
    {s : BillingSession} (h : (sessions.get? rid').isSome) :
    ((sessions.put rid s).get? rid').isSome := by
  rw [get?_put]
  split_ifs
  · rfl
  · exact h

theorem session_persists (h : step w a = some w') (hs : (w.sessions.get? rid).isSome) :
    (w'.sessions.get? rid).isSome := by
  cases a with
  | preConsume requestId userId tokenId quota fault =>
    rw [step] at h
    split_ifs at h
    split at h
    · cases h
      exact hs
    · cases h
      exact isSome_get?_put hs
  | reserve | settle =>
    obtain ⟨s, -, rfl⟩ := map_eq_some_iff.1 h
    exact isSome_get?_put hs
  | refund requestId ticket =>
    obtain ⟨s, -, h⟩ := bind_eq_some_iff.1 h
    unfold refundStep at h
    split at h
    · obtain ⟨jobs, -, rfl⟩ := map_eq_some_iff.1 h
      exact isSome_get?_put hs
    · cases h
      exact hs
  | jobLoad ticket =>
    obtain ⟨job, -, h⟩ := bind_eq_some_iff.1 h
    obtain ⟨s, -, h⟩ := bind_eq_some_iff.1 h
    split at h
    · cases h
      exact hs
    · cases h
  | jobRun ticket fault =>
    obtain ⟨job, -, h⟩ := bind_eq_some_iff.1 h
    obtain ⟨s, -, h⟩ := bind_eq_some_iff.1 h
    split at h
    · cases h
      unfold jobRunStep
      split <;> exact hs
    · cases h
  | jobClear ticket =>
    obtain ⟨job, -, h⟩ := bind_eq_some_iff.1 h
    split_ifs at h
    cases h
    rw [get?_modify]
    split_ifs
    · simpa using hs
    · exact hs
  | sweep snapshot fault =>
    obtain ⟨e, -, rfl⟩ := map_eq_some_iff.1 h
    split <;> exact hs
  | deleteToken | deleteUser | adjustToken =>
    rw [step] at h
    split at h <;> obtain rfl := some.inj h <;> exact hs
  | tick | findStale | updateToken =>
    cases h
    exact hs

/-! ## The account of a request -/

/-- The balance change `t` collected for the request so far is what its record charges. -/
structure Account (rid : String) (u : ℤ) (w : World) (t : ℤ) : Prop where
  inv : Inv w
  unopened : w.sessions.get? rid = none → t = 0
  charged : ∀ k r, w.db.walletRecordOf rid = some (k, r) → r.status ≠ .refunded →
    t = -if u = r.userId then chargeOf w r else 0

theorem walletRecordOf_modify (hi' : Inv w') {k' : ℤ} {r' : WalletPreConsumeRecord}
    {f : WalletPreConsumeRecord → WalletPreConsumeRecord}
    (hget : w.db.walletPreConsumeRecords.get? k = some r) (hid : (f r).requestId = r.requestId)
    (hrec : w'.db.walletPreConsumeRecords = w.db.walletPreConsumeRecords.modify k f)
    (hf : w'.db.walletRecordOf r.requestId = some (k', r')) : r' = f r := by
  have hget' : w'.db.walletPreConsumeRecords.get? k = some (f r) := by
    rw [hrec, get?_modify_self, hget]
    rfl
  have hf' := hi'.walletRecordOf_iff.2 ⟨hget', hid⟩
  rw [hf] at hf'
  exact (Prod.mk.inj (some.inj hf')).2

theorem requestChange_of_moved {v tokenId delta : ℤ} (hsub : subject w a = some rid)
    (hmove : Moved w.db w.now v tokenId delta w'.db) :
    requestChange rid u w a w' = -if u = v then delta else 0 := by
  rw [requestChange, if_pos hsub, hmove.quota]
  ring

theorem unopened_before (h : step w a = some w') (hs : w'.sessions.get? rid = none) :
    w.sessions.get? rid = none := by
  cases hg : w.sessions.get? rid with
  | none => rfl
  | some s =>
    have := session_persists h (show (w.sessions.get? rid).isSome by simp [hg])
    simp [hs] at this

theorem requestChange_of_unopened (hi : Inv w) (h : step w a = some w')
    (hs : w'.sessions.get? rid = none) : requestChange rid u w a w' = 0 := by
  by_cases hsub : subject w a = some rid
  swap
  · exact if_neg hsub
  obtain ⟨hi', heffect⟩ := step_spec hi h
  have hs₀ := unopened_before h hs
  have hfresh := ((hi rid).fresh hs₀).1
  cases heffect with
  | quiet hdb hd =>
    rw [requestChange, hdb]
    simp
  | edited hnone _ _ _ _ =>
    rw [hsub] at hnone
    cases hnone
  | opened k r ha _ _ _ _ _ hins _ =>
    subst ha
    have hk := get?_of_insert? hins k
    rw [if_pos rfl] at hk
    exact absurd (some.inj hsub) (((hi' rid).fresh hs).1 k r hk)
  | extended k r _ _ ha _ hget | settled k r _ ha _ hget =>
    subst ha
    exact absurd (some.inj hsub) (hfresh k r hget)
  | refunded k r _ hr _ hget _ _ _ _ _ _ =>
    exact absurd (some.inj (hr.symm.trans hsub)) (hfresh k r hget)
  | unrecorded s _ ha _ hget _ _ _ _ =>
    subst ha
    rw [some.inj hsub, hs₀] at hget
    cases hget

theorem account_step {t : ℤ} (hacc : Account rid u w t) (h : step w a = some w') :
    Account rid u w' (t + requestChange rid u w a w') := by
  have hi := hacc.inv
  obtain ⟨hi', heffect⟩ := step_spec hi h
  refine ⟨hi', ?_, ?_⟩
  · intro hs
    rw [hacc.unopened (unopened_before h hs), requestChange_of_unopened hi h hs, add_zero]
  intro k₁ r₁ hf₁ hst₁
  by_cases hsub : subject w a = some rid
  swap
  · obtain ⟨hrec, hd⟩ := step_of_other hi h hsub
    rw [hrec] at hf₁
    have hcharge : chargeOf w' r₁ = chargeOf w r₁ := by
      unfold chargeOf
      rw [(get?_of_walletRecordOf hf₁).2, hd]
    rw [requestChange, if_neg hsub, add_zero, hcharge]
    exact hacc.charged k₁ r₁ hf₁ hst₁
  cases heffect with
  | quiet hdb hd =>
    rw [hdb] at hf₁
    have hcharge : chargeOf w' r₁ = chargeOf w r₁ := by
      unfold chargeOf
      rw [hd]
    rw [requestChange, hdb, sub_self, ite_self, add_zero, hcharge]
    exact hacc.charged k₁ r₁ hf₁ hst₁
  | edited hnone _ _ _ _ =>
    rw [hsub] at hnone
    cases hnone
  | opened k r ha hd hnew _ hst _ hins hmove =>
    subst ha
    obtain rfl := some.inj hsub
    have hget' := get?_of_insert? hins k
    rw [if_pos rfl] at hget'
    have hf := hi'.walletRecordOf_iff.2 ⟨hget', rfl⟩
    rw [hf] at hf₁
    obtain ⟨rfl, rfl⟩ := Prod.mk.inj (some.inj hf₁)
    rw [requestChange_of_moved hsub hmove, hacc.unopened hnew, zero_add, chargeOf, hst]
  | extended k r target delta ha hd hget hst _ hrec hmove =>
    subst ha
    obtain rfl := some.inj hsub
    obtain rfl := walletRecordOf_modify hi' hget (by rfl) hrec hf₁
    have hold := hacc.charged k r (hi.walletRecordOf_iff.2 ⟨hget, rfl⟩) (by simp [hst])
    rw [requestChange_of_moved hsub hmove, hold]
    simp only [chargeOf, hst]
    split_ifs <;> ring
  | settled k r actual ha hd hget hst hrec hmove =>
    subst ha
    obtain rfl := some.inj hsub
    obtain rfl := walletRecordOf_modify hi' hget (by rfl) hrec hf₁
    have hold := hacc.charged k r (hi.walletRecordOf_iff.2 ⟨hget, rfl⟩) (by simp [hst])
    rw [requestChange_of_moved hsub hmove, hold]
    simp only [chargeOf, hst, hd, Function.update_self]
    split_ifs <;> ring
  | refunded k r amount hs hd hget hst _ _ _ hrec hmove =>
    cases hs.symm.trans hsub
    obtain rfl := walletRecordOf_modify hi' hget (by rfl) hrec hf₁
    exact absurd rfl hst₁
  | unrecorded s actual ha hd hs hnone _ hrec hmove =>
    subst ha
    cases hsub
    rw [walletRecordOf_congr hi hi' fun _ _ _ => by rw [hrec], hnone] at hf₁
    cases hf₁

theorem account_of_run {w₀ : World} {l : List Label} (h₀ : Initial w₀)
    (hrun : Run.run step w₀ l = some w) (rid : String) (u : ℤ) :
    Account rid u w (Run.total step (requestChange rid u) w₀ l) := by
  have hstart : Account rid u w₀ 0 := by
    refine ⟨Inv.of_initial h₀, fun _ => rfl, fun k r hf => ?_⟩
    have hget := (get?_of_walletRecordOf hf).1
    simp [h₀.records] at hget
  have hend := @total_invariant World Label step (requestChange rid u) (Account rid u)
    (fun _ _ _ _ hs h => account_step hs h) w₀ w 0 l hstart hrun
  rwa [zero_add] at hend

/-! ## Exactly once -/

theorem statusOf_eq_some {status : WalletPreConsumeStatus} (h : statusOf w.db rid = some status) :
    ∃ k r, w.db.walletRecordOf rid = some (k, r) ∧ r.status = status := by
  rw [statusOf, map_eq_some_iff] at h
  obtain ⟨⟨k, r⟩, hf, hst⟩ := h
  exact ⟨k, r, hf, hst⟩

theorem Effect.record_persists (heffect : Effect w a w')
    (hget : w.db.walletPreConsumeRecords.get? k = some r) :
    ∃ r', w'.db.walletPreConsumeRecords.get? k = some r' ∧ r'.requestId = r.requestId := by
  have hmodify : ∀ {k' : ℤ} {f : WalletPreConsumeRecord → WalletPreConsumeRecord},
      (f r).requestId = r.requestId →
      w'.db.walletPreConsumeRecords = w.db.walletPreConsumeRecords.modify k' f →
      ∃ r', w'.db.walletPreConsumeRecords.get? k = some r' ∧ r'.requestId = r.requestId := by
    intro k' f hf hrec
    rw [hrec, get?_modify, hget]
    split_ifs
    · exact ⟨f r, rfl, hf⟩
    · exact ⟨r, rfl, rfl⟩
  cases heffect with
  | quiet hdb hd =>
    rw [hdb]
    exact ⟨r, hget, rfl⟩
  | edited _ _ hrec | unrecorded _ _ _ _ _ _ _ hrec =>
    rw [hrec]
    exact ⟨r, hget, rfl⟩
  | opened k' r' _ _ _ _ _ _ hins _ =>
    rw [get?_of_insert? hins, if_neg, hget]
    · exact ⟨r, rfl, rfl⟩
    · rintro rfl
      rw [((insert?_eq_some_iff _ _ _ _).1 hins).1] at hget
      cases hget
  | extended _ _ _ _ _ _ _ _ _ hrec | settled _ _ _ _ _ _ _ hrec
  | refunded _ _ _ _ _ _ _ _ _ _ hrec => exact hmodify (by rfl) hrec

/-- The record has left `reserved` at most once so far, and not at all while it is reserved. -/
def LeftAtMostOnce (rid : String) (w : World) (t : ℤ) : Prop :=
  Inv w ∧ t ≤ 1 ∧ (statusOf w.db rid = none ∨ statusOf w.db rid = some .reserved → t = 0)

theorem leftAtMostOnce_step {t : ℤ} (hs : LeftAtMostOnce rid w t) (h : step w a = some w') :
    LeftAtMostOnce rid w' (t + leavesReserved rid w a w') := by
  obtain ⟨hi, hle, hzero⟩ := hs
  obtain ⟨hi', heffect⟩ := step_spec hi h
  unfold leavesReserved
  split_ifs with hleave
  · rw [hzero (.inr hleave.1)]
    refine ⟨hi', le_rfl, ?_⟩
    rintro (hnone | hres)
    · obtain ⟨k, r, hf, -⟩ := statusOf_eq_some hleave.1
      obtain ⟨hget, hrid⟩ := hi.walletRecordOf_iff.1 hf
      obtain ⟨r', hget', hrid'⟩ := heffect.record_persists hget
      rw [statusOf, hi'.walletRecordOf_iff.2 ⟨hget', hrid'.trans hrid⟩] at hnone
      cases hnone
    · exact absurd hres hleave.2
  · rw [add_zero]
    refine ⟨hi', hle, fun hopen => hzero ?_⟩
    -- a record that is closed before the step is closed after it
    by_contra hclosed
    push Not at hclosed
    cases hst : statusOf w.db rid with
    | none => exact hclosed.1 hst
    | some status =>
      obtain ⟨k, r, hf, hr⟩ := statusOf_eq_some hst
      have hne : r.status ≠ .reserved := by
        rintro he
        exact hclosed.2 (by rw [hst, ← hr, he])
      have hf' := (step_of_closed hi h hf hne).1
      rw [statusOf, hf'] at hopen
      rcases hopen with hopen | hopen
      · cases hopen
      · exact hne (some.inj hopen)

theorem closed_of_run {l : List Label} (hi : Inv w) (hrun : Run.run step w l = some w')
    (hf : w.db.walletRecordOf rid = some (k, r)) (hst : r.status ≠ .reserved) :
    w'.db.walletRecordOf rid = some (k, r) ∧ w'.settleDelta rid = w.settleDelta rid := by
  have hend := @Run.invariant World Label step
    (fun x => Inv x ∧ x.db.walletRecordOf rid = some (k, r) ∧ x.settleDelta rid = w.settleDelta rid)
    (fun x a x' hx h => by
      obtain ⟨hrec, hd, -⟩ := step_of_closed hx.1 h hx.2.1 hst
      exact ⟨(step_spec hx.1 h).1, hrec, hd.trans hx.2.2⟩) w w' l ⟨hi, hf, rfl⟩ hrun
  exact hend.2

theorem settle_wins {actual : ℤ} {fault : Bool} (hi : Inv w)
    (h : step w (.settle rid actual fault) = some w') (hres : statusOf w.db rid = some .reserved)
    (hleft : statusOf w'.db rid ≠ some .reserved) :
    ∃ k r r', w.db.walletRecordOf rid = some (k, r) ∧ w'.db.walletRecordOf rid = some (k, r') ∧
      r' = { r with status := .settled, updatedAt := w.now } ∧ chargeOf w' r' = actual := by
  obtain ⟨hi', heffect⟩ := step_spec hi h
  cases heffect with
  | quiet hdb _ =>
    rw [hdb] at hleft
    exact absurd hres hleft
  | edited hsub _ _ _ _ => cases hsub
  | opened _ _ ha _ _ _ _ _ _ _ => cases ha
  | extended _ _ _ _ ha _ _ _ _ _ _ => cases ha
  | settled k r actual' ha hd hget hst hrec _ =>
    cases ha
    have hget' : w'.db.walletPreConsumeRecords.get? k =
        some { r with status := .settled, updatedAt := w.now } := by
      rw [hrec, get?_modify_self, hget]
      rfl
    refine ⟨k, r, _, hi.walletRecordOf_iff.2 ⟨hget, rfl⟩, hi'.walletRecordOf_iff.2 ⟨hget', rfl⟩,
      rfl, ?_⟩
    simp only [chargeOf, hd, Function.update_self]
    ring
  | refunded _ _ _ _ _ _ _ _ _ hwho _ _ =>
    rcases hwho with ⟨t, ha, -⟩ | ⟨i, s, ha, -⟩ <;> cases ha
  | unrecorded s _ ha _ _ hnone _ _ _ =>
    cases ha
    rw [statusOf, hnone] at hres
    cases hres

/-- A record leaves `reserved` at most once; after that no step for the request changes a balance or a
token; if a settlement took it out, the user's total change for the request is minus the actual quota. -/
theorem disposition_exactly_once {w₀ w : World} {l : List Label} (rid : String) (h₀ : Initial w₀)
    (hrun : Run.run step w₀ l = some w) :
    Run.total step (leavesReserved rid) w₀ l ≤ 1 ∧
      (statusOf w.db rid = some .settled ∨ statusOf w.db rid = some .refunded →
        ∀ a w', step w a = some w' → subject w a = some rid →
          w'.db.users = w.db.users ∧ w'.db.tokens = w.db.tokens) ∧
      ∀ l₁ l₂ actual fault w₁ w₂, l = l₁ ++ .settle rid actual fault :: l₂ →
        Run.run step w₀ l₁ = some w₁ → step w₁ (.settle rid actual fault) = some w₂ →
        statusOf w₁.db rid = some .reserved → statusOf w₂.db rid ≠ some .reserved →
        ∃ s, w.sessions.get? rid = some s ∧
          Run.total step (requestChange rid s.userId) w₀ l = -actual := by
  refine ⟨?_, ?_, ?_⟩
  · have hstart : LeftAtMostOnce rid w₀ 0 := ⟨Inv.of_initial h₀, by omega, fun _ => rfl⟩
    have hend := @total_invariant World Label step (leavesReserved rid) (LeftAtMostOnce rid)
      (fun _ _ _ _ hs h => leftAtMostOnce_step hs h) w₀ w 0 l hstart hrun
    rw [zero_add] at hend
    exact hend.2.1
  · intro hclosed a w' h hsub
    obtain ⟨k, r, hf, hst⟩ : ∃ k r, w.db.walletRecordOf rid = some (k, r) ∧
        r.status ≠ .reserved := by
      rcases hclosed with hst | hst
      all_goals
        obtain ⟨k, r, hf, hr⟩ := statusOf_eq_some hst
        exact ⟨k, r, hf, by rw [hr]; simp⟩
    have hdb := (step_of_closed (inv_of_run h₀ hrun) h hf hst).2.2 hsub
    rw [hdb]
    exact ⟨rfl, rfl⟩
  · intro l₁ l₂ actual fault w₁ w₂ hl hrun₁ hstep hres hleft
    have hi₁ := inv_of_run h₀ hrun₁
    obtain ⟨k, r₁, r, -, hf, hr, hcharge⟩ := settle_wins hi₁ hstep hres hleft
    have hst : r.status = .settled := by rw [hr]
    have hi₂ := (step_spec hi₁ hstep).1
    have hrun₂ : Run.run step w₂ l₂ = some w := by
      rw [hl, run_append_eq_some_iff] at hrun
      obtain ⟨x, hx, hrest⟩ := hrun
      rw [hrun₁] at hx
      cases hx
      obtain ⟨y, hy, hrest⟩ := run_cons_eq_some_iff.1 hrest
      rw [hstep] at hy
      cases hy
      exact hrest
    -- the closed record keeps the charge until the end of the run
    obtain ⟨hf', hd⟩ := closed_of_run hi₂ hrun₂ hf (by rw [hst]; simp)
    have hi := inv_of_run h₀ hrun
    obtain ⟨hget, hrid⟩ := hi.walletRecordOf_iff.1 hf'
    obtain ⟨s, hs, huser, -⟩ := ((hi rid).record k r hget hrid).session
    rw [hrid] at hs
    refine ⟨s, hs, ?_⟩
    have hcharged := (account_of_run h₀ hrun rid s.userId).charged k r hf' (by rw [hst]; simp)
    have hsame : chargeOf w r = chargeOf w₂ r := by
      unfold chargeOf
      rw [hrid, hd]
    rw [hcharged, if_pos huser, hsame, hcharge]

/-- A refund job and a settlement race for the record; the settlement wins. -/
def settleBeatsRefund : List Label :=
  [.preConsume "req-1" 1 1 10 false, .refund "req-1" .submitted, .jobLoad 1,
    .settle "req-1" 12 false, .jobRun 1 false, .settle "req-1" 7 false]

theorem disposition_of_settleBeatsRefund :
    ∃ w, Run.run step exampleWorld settleBeatsRefund = some w ∧ quotaOf w.db 1 = 88 ∧
      Run.total step (leavesReserved "req-1") exampleWorld settleBeatsRefund ≤ 1 := by
  exact exists_some_imp (by decide) fun w hw hquota =>
    ⟨hquota, (disposition_exactly_once "req-1" ⟨rfl, rfl, rfl, rfl⟩ hw).1⟩

end BeeApi.Wallet
