import BeeApi.Wallet.Steps

/-!
# Conservation of wallet quota

What a user has paid is what the records say: the whole amount while it is reserved, nothing after a
refund, the settled amount after a settlement.  The sweeper breaks this when it refunds a snapshot that
was extended in the meantime: it closes the record but returns only the amount it read.
-/

namespace BeeApi.Wallet

open Strings

/-- What a record costs its user. -/
def chargeOf (w : World) (r : WalletPreConsumeRecord) : ℤ :=
  match r.status with
  | .reserved => r.preConsumed
  | .refunded => 0
  | .settled => r.preConsumed + w.settleDelta r.requestId

def chargesOf (w : World) (userId : ℤ) : ℤ :=
  w.db.walletPreConsumeRecords.sum fun _ r => if r.userId = userId then chargeOf w r else 0

/-- The snapshot, if it is about to be refunded, still has the amount of its record. -/
def snapshotCurrent (w : World) (e : ℤ × WalletPreConsumeRecord) : Bool :=
  match w.db.walletPreConsumeRecords.get? e.1 with
  | some r => decide (r.status = .reserved → e.2.preConsumed = r.preConsumed)
  | none => true

def settlesReserved (w : World) : Label → Bool
  | .settle requestId _ _ => (w.sessions.get? requestId).all fun s => decide (0 < s.preConsumedQuota)
  | _ => true

/-- No reservation is extended between the moment the sweeper reads it and the moment it refunds
it. -/
def sweepsCurrent (w : World) : Label → Bool
  | .sweep snapshot _ => w.snapshots[snapshot]?.all (snapshotCurrent w)
  | _ => true

theorem chargesOf_modify {w w' : World} {k : ℤ} {r : WalletPreConsumeRecord}
    {f : WalletPreConsumeRecord → WalletPreConsumeRecord} (hi : Inv w)
    (hget : w.db.walletPreConsumeRecords.get? k = some r)
    (hrec : w'.db.walletPreConsumeRecords = w.db.walletPreConsumeRecords.modify k f)
    (huser : (f r).userId = r.userId)
    (hdelta : ∀ rid, rid ≠ r.requestId → w'.settleDelta rid = w.settleDelta rid) (u : ℤ) :
    chargesOf w' u = chargesOf w u +
      if u = r.userId then chargeOf w' (f r) - chargeOf w r else 0 := by
  unfold chargesOf
  rw [hrec, Table.sum_modify hget]
  -- the history variable differs only at the request of the record
  have hother : ∀ k' r', w.db.walletPreConsumeRecords.get? k' = some r' → k' ≠ k →
      chargeOf w' r' = chargeOf w r' := by
    intro k' r' hr' hk
    have hne : r'.requestId ≠ r.requestId := fun he =>
      hk (hi.uniqueRequestIds k' k r' r hr' hget he)
    unfold chargeOf
    rw [hdelta _ hne]
  have hsum := Table.sum_eq_add_of_get? hget
    (fun k' r' => if k' = k then if r'.userId = u then chargeOf w' r' else 0
      else if r'.userId = u then chargeOf w r' else 0)
    (fun _ r' => if r'.userId = u then chargeOf w r' else 0) (fun k' r' hk => if_neg hk)
  have hcongr : (w.db.walletPreConsumeRecords.sum fun _ r' =>
      if r'.userId = u then chargeOf w' r' else 0) =
      w.db.walletPreConsumeRecords.sum fun k' r' =>
        if k' = k then if r'.userId = u then chargeOf w' r' else 0
        else if r'.userId = u then chargeOf w r' else 0 := by
    refine Table.sum_congr fun k' r' hr' => ?_
    split_ifs with h₁ h₂
    · rfl
    · exact hother k' r' hr' h₂
    · rfl
    · rfl
  rw [hcongr, hsum, huser]
  by_cases hu : u = r.userId
  · simp only [hu, if_true]
    ring
  · simp only [hu, Ne.symm hu, if_false]
    simp

/-- What a user loses by a step: the sweeper closes the whole record, and returns the amount of its
snapshot. -/
def lostBySweep (u : ℤ) (w : World) (a : Label) (w' : World) : ℤ :=
  match a with
  | .sweep snapshot _ =>
    match w.snapshots[snapshot]? with
    | some (k, s) =>
      match w.db.walletPreConsumeRecords.get? k, w'.db.walletPreConsumeRecords.get? k with
      | some r, some r' =>
        if r.userId = u ∧ r.status = .reserved ∧ r'.status = .refunded then
          r.preConsumed - s.preConsumed
        else 0
      | _, _ => 0
    | none => 0
  | _ => 0

theorem lostBySweep_cases (u : ℤ) (w : World) (a : Label) (w' : World) :
    lostBySweep u w a w' = 0 ∨ ∃ i fault k s r r', a = .sweep i fault ∧
      w.snapshots[i]? = some (k, s) ∧ w.db.walletPreConsumeRecords.get? k = some r ∧
      w'.db.walletPreConsumeRecords.get? k = some r' ∧ r.status = .reserved ∧
      r'.status = .refunded ∧ lostBySweep u w a w' = r.preConsumed - s.preConsumed := by
  cases a with
  | sweep i fault =>
    simp only [lostBySweep]
    split
    · split
      · rename_i hs _ _ _ _ hr hr'
        split_ifs with h
        · exact .inr ⟨i, fault, _, _, _, _, rfl, hs, hr, hr', h.2.1, h.2.2, rfl⟩
        · exact .inl rfl
      · exact .inl rfl
    · exact .inl rfl
  | _ => exact .inl rfl

theorem lostBySweep_eq_zero {w w' : World} {a : Label} {u : ℤ}
    (hrec : w'.db.walletPreConsumeRecords = w.db.walletPreConsumeRecords) :
    lostBySweep u w a w' = 0 := by
  obtain hzero | ⟨i, fault, k, s, r, r', -, -, hr, hr', hst, hst', -⟩ := lostBySweep_cases u w a w'
  · exact hzero
  · rw [hrec, hr] at hr'
    cases hr'
    cases hst.symm.trans hst'

/-- A step moves quota between the balance of a user and the records, but for what a sweep loses. -/
theorem quota_step {w w' : World} {a : Label} (hi : Inv w) (hdom : settlesReserved w a = true)
    (h : step w a = some w') (u : ℤ) :
    quotaOf w'.db u + chargesOf w' u + lostBySweep u w a w' =
      quotaOf w.db u + chargesOf w u := by
  cases (step_spec hi h).2 with
  | quiet hdb hd =>
    have hcharges : chargesOf w' u = chargesOf w u := by
      unfold chargesOf chargeOf
      rw [hdb, hd]
    rw [hcharges, hdb, lostBySweep_eq_zero (by rw [hdb]), add_zero]
  | edited hsub hd hrec husers htok =>
    have hcharges : chargesOf w' u = chargesOf w u := by
      unfold chargesOf chargeOf
      rw [hrec, hd]
    rw [hcharges, husers, lostBySweep_eq_zero hrec, add_zero]
  | opened k r ha hd hnew hfresh hst hpos hins hmove =>
    have hcharge : chargeOf w' = chargeOf w := by
      funext r'
      unfold chargeOf
      rw [hd]
    have hcharges : chargesOf w' u = chargesOf w u + if u = r.userId then r.preConsumed else 0 := by
      unfold chargesOf
      rw [Table.sum_of_insert? hins, hcharge]
      simp only [chargeOf, hst, @eq_comm ℤ r.userId u]
    have hlost : lostBySweep u w a w' = 0 := by rw [ha]; rfl
    rw [hcharges, hmove.quota, hlost]
    ring
  | extended k r target delta ha hd hget hst hpos hrec hmove =>
    have hcharges := chargesOf_modify hi hget hrec rfl (fun rid _ => by rw [hd]) u
    simp only [chargeOf, hst, add_sub_cancel_left] at hcharges
    have hlost : lostBySweep u w a w' = 0 := by rw [ha]; rfl
    rw [hcharges, hmove.quota, hlost]
    ring
  | settled k r actual ha hd hget hst hrec hmove =>
    have hcharges := chargesOf_modify hi hget hrec rfl
      (fun rid hne => by rw [hd, Function.update_of_ne hne]) u
    simp only [chargeOf, hst, hd, Function.update_self, add_sub_cancel_left] at hcharges
    have hlost : lostBySweep u w a w' = 0 := by rw [ha]; rfl
    rw [hcharges, hmove.quota, hlost]
    ring
  | refunded k r amount hsub hd hget hst hpos hle hwho hrec hmove =>
    have hlost : lostBySweep u w a w' = if u = r.userId then r.preConsumed - amount else 0 := by
      rcases hwho with ⟨t, rfl, hall⟩ | ⟨i, s, rfl, hs, rfl⟩
      · simp [lostBySweep, hall]
      · simp [lostBySweep, hs, hget, hrec, hst, @eq_comm ℤ r.userId u]
    have hcharges := chargesOf_modify hi hget hrec rfl (fun rid _ => by rw [hd]) u
    simp only [chargeOf, hst, zero_sub] at hcharges
    rw [hcharges, hmove.quota, hlost]
    split_ifs <;> ring
  | unrecorded s actual ha hd hs hnone hbare hrec hmove =>
    subst ha
    have hpos : 0 < s.preConsumedQuota := by simpa [settlesReserved, hs] using hdom
    omega

theorem lostBySweep_nonneg {w : World} (hi : Inv w) (u : ℤ) (a : Label) (w' : World) :
    0 ≤ lostBySweep u w a w' := by
  obtain hzero | ⟨i, fault, k, s, r, r', -, hs, hr, -, -, -, heq⟩ := lostBySweep_cases u w a w'
  · exact hzero.ge
  · obtain ⟨-, r₀, hr₀, -, -, -, hle⟩ :=
      (hi s.requestId).snapshot (k, s) (List.mem_of_getElem? hs) rfl
    cases hr.symm.trans hr₀
    rw [heq]
    exact sub_nonneg.2 hle

theorem lostBySweep_of_current {w w' : World} {a : Label} (u : ℤ)
    (hok : sweepsCurrent w a = true) : lostBySweep u w a w' = 0 := by
  obtain hzero | ⟨i, fault, k, s, r, r', rfl, hs, hr, -, hst, -, heq⟩ := lostBySweep_cases u w a w'
  · exact hzero
  · have hsame : s.preConsumed = r.preConsumed := by
      simpa [sweepsCurrent, hs, snapshotCurrent, hr, hst] using hok
    rw [heq, hsame, sub_self]

def Conserved (w₀ w : World) : Prop := ∀ u, quotaOf w.db u = quotaOf w₀.db u - chargesOf w u

theorem conserved_step {w₀ w w' : World} {a : Label} (hi : Inv w) (hc : Conserved w₀ w)
    (hdom : settlesReserved w a = true) (hok : sweepsCurrent w a = true)
    (h : step w a = some w') : Conserved w₀ w' := by
  intro u
  have hstep := quota_step hi hdom h u
  rw [lostBySweep_of_current u hok] at hstep
  have := hc u
  omega

/-- As long as the sweeper refunds current amounts, each user's balance is the initial balance
minus what the records say. -/
theorem quota_eq_of_run {w₀ w : World} {l : List Label} (h₀ : Initial w₀)
    (hdom : Run.Along step (fun w a => settlesReserved w a = true) w₀ l)
    (hok : Run.Along step (fun w a => sweepsCurrent w a = true) w₀ l)
    (hrun : Run.run step w₀ l = some w) (u : ℤ) :
    quotaOf w.db u = quotaOf w₀.db u - w.db.walletPreConsumeRecords.sum fun _ r =>
      if r.userId = u then chargeOf w r else 0 := by
  have hboth := Run.along_and hdom hok
  have hinv := @Run.invariant_along World Label step _ (fun w => Inv w ∧ Conserved w₀ w)
    (fun _ _ _ hs hok h =>
      ⟨(step_spec hs.1 h).1, conserved_step hs.1 hs.2 hok.1 hok.2 h⟩) w₀ w l
    ⟨Inv.of_initial h₀, fun u => ?_⟩ hboth hrun
  · exact hinv.2 u
  · unfold chargesOf
    rw [h₀.records]
    simp

/-- Without that condition a user still pays for nothing but the records and what stale sweeps
lose, and no sweep gives anything away. -/
theorem quota_eq_sub_lost_of_run {w₀ w : World} {l : List Label} (h₀ : Initial w₀)
    (hdom : Run.Along step (fun w a => settlesReserved w a = true) w₀ l)
    (hrun : Run.run step w₀ l = some w) (u : ℤ) :
    quotaOf w.db u = quotaOf w₀.db u - chargesOf w u - Run.total step (lostBySweep u) w₀ l ∧
      0 ≤ Run.total step (lostBySweep u) w₀ l := by
  have hstep : ∀ w' t a w'',
      (Inv w' ∧ quotaOf w'.db u + chargesOf w' u + t = quotaOf w₀.db u ∧ 0 ≤ t) →
      settlesReserved w' a = true → step w' a = some w'' →
      Inv w'' ∧ quotaOf w''.db u + chargesOf w'' u + (t + lostBySweep u w' a w'') =
        quotaOf w₀.db u ∧ 0 ≤ t + lostBySweep u w' a w'' := by
    intro w' t a w'' ⟨hi, hsum, ht⟩ hd h
    have hmoved := quota_step hi hd h u
    exact ⟨(step_spec hi h).1, by omega, add_nonneg ht (lostBySweep_nonneg hi u a w'')⟩
  have hstart : quotaOf w₀.db u + chargesOf w₀ u + 0 = quotaOf w₀.db u := by
    unfold chargesOf
    rw [h₀.records]
    simp
  have hend := Run.total_invariant_along hstep ⟨Inv.of_initial h₀, hstart, le_rfl⟩ hdom hrun
  rw [zero_add] at hend
  exact ⟨by omega, hend.2.2⟩

/-- One user with one limited token, and no request yet. -/
def exampleWorld : World :=
  { db :=
      { users := ⟨[(1, { quota := 100 })], by decide⟩
        tokens := ⟨[(1, { userId := 1, remainQuota := 100 })], by decide⟩ }
    now := 1000 }

/-- A reservation is read by the sweeper, extended, and then refunded by the sweeper. -/
def staleSweep : List Label :=
  [.preConsume "req-1" 1 1 10 false, .tick 7201,
    .findStale walletReservationStaleAfter walletReservationSweepBatch, .reserve "req-1" 15 false,
    .sweep 0 false]

/-- The user loses what was added after the snapshot, although the record is refunded. -/
theorem quota_ne_of_stale_sweep :
    ¬∀ (w₀ w : World) (l : List Label) (u : ℤ), Initial w₀ →
      Run.Along step (fun w a => settlesReserved w a = true) w₀ l →
      Run.run step w₀ l = some w →
      quotaOf w.db u = quotaOf w₀.db u - w.db.walletPreConsumeRecords.sum fun _ r =>
        if r.userId = u then chargeOf w r else 0 := by
  intro hclaim
  obtain ⟨w, hw, hne⟩ : ∃ w, Run.run step exampleWorld staleSweep = some w ∧
      quotaOf w.db 1 ≠ quotaOf exampleWorld.db 1 - chargesOf w 1 := by decide
  exact hne (hclaim exampleWorld w staleSweep 1 ⟨rfl, rfl, rfl, rfl⟩ (by decide) hw)

/-- What that sweep leaves out is what the balance lacks. -/
theorem quota_lost_by_stale_sweep :
    ∃ w, Run.run step exampleWorld staleSweep = some w ∧
      Run.total step (lostBySweep 1) exampleWorld staleSweep = 5 ∧
      quotaOf w.db 1 = quotaOf exampleWorld.db 1 - chargesOf w 1 -
        Run.total step (lostBySweep 1) exampleWorld staleSweep := by
  exact Option.exists_some_imp (by decide) fun w hw hlost =>
    ⟨hlost, (quota_eq_sub_lost_of_run ⟨rfl, rfl, rfl, rfl⟩ (by decide) hw 1).1⟩

/-- A reservation that is extended, read by the sweeper and then settled. -/
def settledBeforeSweep : List Label :=
  [.preConsume "req-1" 1 1 10 false, .reserve "req-1" 15 false, .tick 7201,
    .findStale walletReservationStaleAfter walletReservationSweepBatch, .settle "req-1" 12 false,
    .sweep 0 false]

theorem quota_eq_of_settledBeforeSweep :
    ∃ w, Run.run step exampleWorld settledBeforeSweep = some w ∧ quotaOf w.db 1 = 88 ∧
      quotaOf w.db 1 = quotaOf exampleWorld.db 1 - w.db.walletPreConsumeRecords.sum fun _ r =>
        if r.userId = 1 then chargeOf w r else 0 := by
  exact Option.exists_some_imp (by decide) fun w hw hquota =>
    ⟨hquota, quota_eq_of_run ⟨rfl, rfl, rfl, rfl⟩ (by decide) (by decide) hw 1⟩

/-! ## No debt -/

theorem Moved.quota_nonneg {db db' : Db} {now userId tokenId delta u : ℤ}
    (h : Moved db now userId tokenId delta db') (hu : 0 ≤ quotaOf db u) : 0 ≤ quotaOf db' u := by
  rw [h.quota]
  by_cases hdelta : u = userId ∧ 0 < delta
  · -- a charge has passed the guard on the balance
    obtain ⟨rfl, hpos⟩ := hdelta
    obtain ⟨row, -, hrow, hguard, -⟩ := h.accepted hpos.ne'
    have hle : delta ≤ quotaOf db u := by simpa [quotaOf, hrow] using (hguard hpos).2
    simpa using hle
  · split_ifs <;> omega

theorem quota_nonneg_step {w w' : World} {a : Label} {u : ℤ} (hi : Inv w)
    (hu : 0 ≤ quotaOf w.db u) (h : step w a = some w') : 0 ≤ quotaOf w'.db u := by
  cases (step_spec hi h).2 with
  | quiet hdb => rwa [hdb]
  | edited _ _ _ husers => rwa [husers]
  | opened | extended | settled | refunded | unrecorded =>
    rename_i hmove
    exact hmove.quota_nonneg hu

end BeeApi.Wallet
