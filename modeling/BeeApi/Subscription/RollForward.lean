import BeeApi.Subscription.Reset

/-!
# Reset times go forward

Go counts the custom period in nanoseconds of 64 bits.  When they overflow to something below a
second, the next reset is not after its base and the loop may never end.
-/

namespace BeeApi.Subscription

open Calendar Option

/-! ## The property -/

/-- The plans that `AdminCreateSubscriptionPlan` accepts. -/
def Accepted (plan : SubscriptionPlan) : Prop :=
  normalizeResetPeriod plan.quotaResetPeriod = .custom → 0 < plan.quotaResetCustomSeconds

/-- The time from which the resets of a row are counted. -/
def resetBase (sub : UserSubscription) : ℤ :=
  if sub.lastResetTime ≤ 0 then sub.startTime else sub.lastResetTime

/-- A row whose next reset is not set yet, or is the one that the plan gives. -/
def OfPlan (plan : SubscriptionPlan) (sub : UserSubscription) : Prop :=
  sub.nextResetTime = 0 ∨ 0 < sub.nextResetTime ∧
    sub.nextResetTime = calcNextResetTime (resetBase sub) plan sub.endTime

/-- A call of `maybeResetUserSubscriptionWithPlanTx` on some database leaves this row. -/
def Leaves (plan : SubscriptionPlan) (now : ℤ) (sub sub' : UserSubscription) : Prop :=
  ∃ db id db' advanced,
    maybeResetUserSubscriptionWithPlanTx db id sub plan now = .ok (db', sub', advanced)

structure RollsForward (plan : SubscriptionPlan) : Prop where
  later : ∀ base endTime, calcNextResetTime base plan endTime ≠ 0 →
    base < calcNextResetTime base plan endTime
  ends : ∀ base endTime now, ∃ fuel,
    (rollForward plan endTime now fuel base (calcNextResetTime base plan endTime) false).isSome
  returns : ∀ db id sub now e, maybeResetUserSubscriptionWithPlanTx db id sub plan now = .error e →
      e = errFinancialStateConflict
  passed : ∀ now sub sub', sub.startTime ≤ now → sub.lastResetTime ≤ now →
    Leaves plan now sub sub' → sub'.lastResetTime ≤ now
  ahead : ∀ now sub sub', OfPlan plan sub → Leaves plan now sub sub' →
    sub'.nextResetTime = 0 ∨ now < sub'.nextResetTime
  idempotent : ∀ now sub sub' sub'', Leaves plan now sub sub' → Leaves plan now sub' sub'' →
    sub'' = sub'
  composes : ∀ t₁ t₂ sub sub₁ sub₁₂ sub₂, t₁ ≤ t₂ → Leaves plan t₁ sub sub₁ →
    Leaves plan t₂ sub₁ sub₁₂ → Leaves plan t₂ sub sub₂ →
      sub₁₂.lastResetTime = sub₂.lastResetTime ∧ sub₁₂.nextResetTime = sub₂.nextResetTime

/-! ## The loop -/

section Loop

variable {plan : SubscriptionPlan} {endTime now : ℤ}

variable {fuel : ℕ} {base next : ℤ} {advanced : Bool} {r : Bool × ℤ × ℤ}

theorem rollForward_mono (h : rollForward plan endTime now fuel base next advanced = some r)
    (more : ℕ) : rollForward plan endTime now (fuel + more) base next advanced = some r := by
  induction fuel generalizing base next advanced with
  | zero => exact (nomatch h)
  | succ fuel ih =>
    rw [Nat.succ_add]
    unfold rollForward at h ⊢
    split_ifs at h ⊢
    · exact ih h
    · exact h

theorem rollForward_spec {advanced' : Bool} {base' next' : ℤ}
    (h : rollForward plan endTime now fuel base (calcNextResetTime base plan endTime) advanced =
      some (advanced', base', next')) :
    next' = calcNextResetTime base' plan endTime ∧ ¬ (0 < next' ∧ next' ≤ now) ∧
      (advanced' = advanced ∧ base' = base ∨ advanced' = true ∧ 0 < base' ∧ base' ≤ now) := by
  induction fuel generalizing base advanced with
  | zero => exact (nomatch h)
  | succ fuel ih =>
    unfold rollForward at h
    split_ifs at h with hdue
    · obtain ⟨hnext, hend, ⟨hadvanced, rfl⟩ | hpast⟩ := ih h
      · exact ⟨hnext, hend, .inr ⟨hadvanced, hdue⟩⟩
      · exact ⟨hnext, hend, .inr hpast⟩
    · cases h
      exact ⟨rfl, hdue, .inl ⟨rfl, rfl⟩⟩

theorem rollForward_resume {now' : ℤ} (hnow : now ≤ now') {fuel' : ℕ} {base₁ next₁ : ℤ}
    {advanced₁ : Bool}
    (h : rollForward plan endTime now fuel base next advanced = some (advanced₁, base₁, next₁))
    (h' : rollForward plan endTime now' fuel' base₁ next₁ advanced₁ = some r) :
    rollForward plan endTime now' (fuel' + fuel) base next advanced = some r := by
  induction fuel generalizing base next advanced with
  | zero => exact (nomatch h)
  | succ fuel ih =>
    unfold rollForward at h
    split_ifs at h with hdue
    · have hdue' : 0 < next ∧ next ≤ now' := ⟨hdue.1, hdue.2.trans hnow⟩
      rw [← add_assoc]
      unfold rollForward
      rw [if_pos hdue']
      exact ih h
    · cases h
      exact rollForward_mono h' (fuel + 1)

theorem rollForward_advanced (h : rollForward plan endTime now fuel base next advanced = some r) :
    rollForward plan endTime now fuel base next true = some (true, r.2) := by
  induction fuel generalizing base next advanced with
  | zero => exact (nomatch h)
  | succ fuel ih =>
    unfold rollForward at h ⊢
    split_ifs at h ⊢ with hdue
    · have htrue := ih h
      rw [h] at htrue
      rw [h]
      exact htrue
    · cases h
      rfl

section
variable (hlater : ∀ base, calcNextResetTime base plan endTime ≠ 0 → base < calcNextResetTime base plan endTime)
include hlater

theorem rollForward_isSome (advanced : Bool) (hnext : next ≠ 0 → base < next)
    (hfuel : (now - base).toNat < fuel) :
    (rollForward plan endTime now fuel base next advanced).isSome := by
  induction fuel generalizing base next advanced with
  | zero => exact absurd hfuel (Nat.not_lt_zero _)
  | succ fuel ih =>
    unfold rollForward
    split_ifs with hdue
    · have := hnext (by omega)
      exact ih true (hlater next) (by omega)
    · rfl

theorem rollForwardFrom_of_fuel
    (h : rollForward plan endTime now fuel base (calcNextResetTime base plan endTime) false =
      some r) : rollForwardFrom plan endTime now base = some r := by
  have hfuel : (now - base).toNat < (now - base).natAbs + base.natAbs + 2 := by omega
  obtain ⟨r', hr'⟩ := isSome_iff_exists.1
    (rollForward_isSome hlater false (hlater base) hfuel)
  have hsame := rollForward_mono hr' fuel
  rw [add_comm, rollForward_mono h] at hsame
  unfold rollForwardFrom
  rw [hr', hsame]

end

end Loop

/-! ## The call -/

def rolledRow (now : ℤ) (sub : UserSubscription) : Bool × ℤ × ℤ → UserSubscription
  | (true, base, next) => resetColumns now base next sub
  | (false, base, next) =>
    if sub.nextResetTime = 0 ∧ 0 < next then
      { sub with nextResetTime := next, lastResetTime := base, updatedAt := now }
    else sub

/-- The row that a call leaves, none when the loop does not end. -/
def leftRow (plan : SubscriptionPlan) (now : ℤ) (sub : UserSubscription) : Option UserSubscription :=
  if 0 < sub.nextResetTime ∧ now < sub.nextResetTime then some sub
  else (rollForwardFrom plan sub.endTime now (resetBase sub)).map (rolledRow now sub)

section Call

variable {plan : SubscriptionPlan} {now : ℤ} {sub sub' : UserSubscription}

theorem rollForwardFrom_stop {endTime base : ℤ}
    (h : ¬ (0 < calcNextResetTime base plan endTime ∧ calcNextResetTime base plan endTime ≤ now)) :
    rollForwardFrom plan endTime now base =
      some (false, base, calcNextResetTime base plan endTime) := by
  unfold rollForwardFrom rollForward
  rw [if_neg h]

theorem calcNextResetTime_never (h : normalizeResetPeriod plan.quotaResetPeriod = .never)
    (base endTime : ℤ) : calcNextResetTime base plan endTime = 0 := by
  unfold calcNextResetTime
  rw [h]

theorem rolledRow_zero (now base : ℤ) (sub : UserSubscription) :
    rolledRow now sub (false, base, 0) = sub := if_neg fun h => lt_irrefl 0 h.2

theorem leftRow_never (h : normalizeResetPeriod plan.quotaResetPeriod = .never) :
    leftRow plan now sub = some sub := by
  have hnext := calcNextResetTime_never h (resetBase sub) sub.endTime
  have hstop : ¬ (0 < calcNextResetTime (resetBase sub) plan sub.endTime ∧
      calcNextResetTime (resetBase sub) plan sub.endTime ≤ now) := by omega
  unfold leftRow
  rw [rollForwardFrom_stop hstop, hnext]
  split_ifs
  · rfl
  · exact congrArg some (rolledRow_zero now _ sub)

variable (plan now sub) in
/-- A call whose loop ends returns the row, after a compare and swap when the row is another. -/
theorem maybeReset_eq (db : Db) (id : ℤ) : (leftRow plan now sub = none ∧
    maybeResetUserSubscriptionWithPlanTx db id sub plan now = .error "reset does not return") ∨
    ∃ sub' advanced, leftRow plan now sub = some sub' ∧
      (maybeResetUserSubscriptionWithPlanTx db id sub plan now = .ok (db, sub', advanced) ∨
        ∃ updates, maybeResetUserSubscriptionWithPlanTx db id sub plan now =
          (casUserSubscriptionTx db id sub updates >>= fun db => .ok (db, sub', advanced))) := by
  by_cases hdue : 0 < sub.nextResetTime ∧ now < sub.nextResetTime
  · refine .inr ⟨sub, false, if_pos hdue, .inl ?_⟩
    unfold maybeResetUserSubscriptionWithPlanTx
    rw [if_pos hdue]
  by_cases hnever : normalizeResetPeriod plan.quotaResetPeriod = .never
  · refine .inr ⟨sub, false, leftRow_never hnever, .inl ?_⟩
    unfold maybeResetUserSubscriptionWithPlanTx
    rw [if_neg hdue, if_pos hnever]
  unfold maybeResetUserSubscriptionWithPlanTx leftRow
  rw [if_neg hdue, if_neg hdue, if_neg hnever]
  unfold resetBase
  cases rollForwardFrom plan sub.endTime now _ with
  | none => exact .inl ⟨rfl, rfl⟩
  | some r =>
    obtain ⟨advanced, base, next⟩ := r
    refine .inr ⟨_, advanced, rfl, ?_⟩
    unfold rolledRow
    cases advanced with
    | true => exact .inr ⟨_, rfl⟩
    | false =>
      dsimp only
      split_ifs
      · exact .inr ⟨_, rfl⟩
      · exact .inl rfl

theorem leftRow_of_leaves (h : Leaves plan now sub sub') : leftRow plan now sub = some sub' := by
  obtain ⟨db, id, db', advanced, h⟩ := h
  rcases maybeReset_eq plan now sub db id with ⟨-, heq⟩ |
    ⟨left, advanced', hleft, heq | ⟨updates, heq⟩⟩
  · rw [heq] at h
    cases h
  · rw [heq] at h
    cases h
    exact hleft
  · rw [heq] at h
    obtain ⟨db₁, -, h⟩ := Except.bind_eq_ok_iff.1 h
    cases h
    exact hleft

theorem error_of_leftRow {db : Db} {id : ℤ} {e : String}
    (h : maybeResetUserSubscriptionWithPlanTx db id sub plan now = .error e)
    (hleft : (leftRow plan now sub).isSome) : e = errFinancialStateConflict := by
  rcases maybeReset_eq plan now sub db id with ⟨hnone, -⟩ |
    ⟨left, advanced, -, heq | ⟨updates, heq⟩⟩
  · rw [hnone] at hleft
    exact (nomatch hleft)
  · rw [heq] at h
    cases h
  · rw [heq] at h
    unfold casUserSubscriptionTx at h
    split_ifs at h
    · cases h
      rfl
    · split at h <;> cases h
      rfl

theorem leftRow_cases (h : leftRow plan now sub = some sub') :
    (0 < sub.nextResetTime ∧ now < sub.nextResetTime ∧ sub' = sub) ∨
    ¬ (0 < sub.nextResetTime ∧ now < sub.nextResetTime) ∧ ∃ advanced base next,
      rollForwardFrom plan sub.endTime now (resetBase sub) = some (advanced, base, next) ∧
      sub' = rolledRow now sub (advanced, base, next) ∧
      next = calcNextResetTime base plan sub.endTime ∧ ¬ (0 < next ∧ next ≤ now) ∧
      (advanced = false ∧ base = resetBase sub ∨ advanced = true ∧ 0 < base ∧ base ≤ now) := by
  unfold leftRow at h
  split_ifs at h with hdue
  · cases h
    exact .inl ⟨hdue.1, hdue.2, rfl⟩
  · obtain ⟨⟨advanced, base, next⟩, hroll, rfl⟩ := map_eq_some_iff.1 h
    exact .inr ⟨hdue, advanced, base, next, hroll, rfl, rollForward_spec hroll⟩

theorem times_after_start {t₂ updated : ℤ} {sub sub₁₂ sub₂ : UserSubscription}
    (hunset : sub.nextResetTime = 0) (hpos : 0 < calcNextResetTime (resetBase sub) plan sub.endTime)
    (h₁₂ : leftRow plan t₂ { sub with
        nextResetTime := calcNextResetTime (resetBase sub) plan sub.endTime
        lastResetTime := resetBase sub
        updatedAt := updated } = some sub₁₂)
    (h₂ : leftRow plan t₂ sub = some sub₂) :
    sub₁₂.lastResetTime = sub₂.lastResetTime ∧ sub₁₂.nextResetTime = sub₂.nextResetTime := by
  have hbase : resetBase { sub with
      nextResetTime := calcNextResetTime (resetBase sub) plan sub.endTime
      lastResetTime := resetBase sub
      updatedAt := updated } = resetBase sub := by
    unfold resetBase
    split_ifs <;> rfl
  rcases leftRow_cases h₂ with ⟨hahead, -, -⟩ |
    ⟨-, advanced, base, next, hroll, rfl, rfl, hend, hcase⟩
  · omega
  rcases leftRow_cases h₁₂ with ⟨-, hahead, rfl⟩ | ⟨hdue, advanced', base', next', hroll', rfl, -⟩
  · -- the next reset is still ahead
    rw [rollForwardFrom_stop (by dsimp only at hahead; omega)] at hroll
    cases hroll
    unfold rolledRow
    dsimp only
    rw [if_pos ⟨hunset, hpos⟩]
    exact ⟨rfl, rfl⟩
  · rw [hbase] at hroll'
    obtain ⟨rfl, rfl, rfl⟩ := some.inj (hroll.symm.trans hroll')
    dsimp only at hdue
    rcases hcase with ⟨rfl, rfl⟩ | ⟨rfl, -, -⟩
    · omega
    · exact ⟨rfl, rfl⟩

theorem passed_of_leftRow (hstart : sub.startTime ≤ now) (hlast : sub.lastResetTime ≤ now)
    (h : leftRow plan now sub = some sub') : sub'.lastResetTime ≤ now := by
  rcases leftRow_cases h with ⟨-, -, rfl⟩ |
    ⟨-, advanced, base, next, -, rfl, -, -, ⟨rfl, rfl⟩ | ⟨rfl, -, hpast⟩⟩
  · exact hlast
  · unfold rolledRow resetBase
    dsimp only
    split_ifs <;> assumption
  · exact hpast

theorem leftRow_of_ahead {now : ℤ} {sub : UserSubscription} (hpos : 0 < sub.nextResetTime)
    (h : now < sub.nextResetTime) : leftRow plan now sub = some sub := if_pos ⟨hpos, h⟩

end Call

section Later

attribute [local irreducible] calcNextResetTime

variable {plan : SubscriptionPlan} (hlater : ∀ base endTime,
  calcNextResetTime base plan endTime ≠ 0 → base < calcNextResetTime base plan endTime)

include hlater

theorem leftRow_isSome (now : ℤ) (sub : UserSubscription) : (leftRow plan now sub).isSome := by
  have hfuel : (now - resetBase sub).toNat <
      (now - resetBase sub).natAbs + (resetBase sub).natAbs + 2 := by omega
  obtain ⟨r, hr⟩ := isSome_iff_exists.1 (rollForward_isSome (hlater · sub.endTime) false
    (hlater (resetBase sub) sub.endTime) hfuel)
  have hroll : rollForwardFrom plan sub.endTime now (resetBase sub) = some r := hr
  unfold leftRow
  rw [hroll]
  split_ifs <;> rfl

theorem ahead_of_leftRow {now : ℤ} {sub sub' : UserSubscription} (hplan : OfPlan plan sub)
    (h : leftRow plan now sub = some sub') :
    sub'.nextResetTime = 0 ∨ now < sub'.nextResetTime := by
  rcases leftRow_cases h with ⟨-, hahead, rfl⟩ |
    ⟨hdue, advanced, base, next, -, rfl, hnext, hend, ⟨rfl, rfl⟩ | ⟨rfl, hbase, -⟩⟩
  · exact .inr hahead
  · unfold rolledRow
    dsimp only
    split_ifs with hunset
    · exact .inr (by dsimp only; omega)
    · rcases hplan with hzero | ⟨hpos, hcalc⟩
      · exact .inl hzero
      · exact absurd ⟨by omega, by omega⟩ hend
  · have hpast := hlater base sub.endTime
    show next = 0 ∨ now < next
    omega

theorem leftRow_resetColumns {t now base : ℤ} {sub : UserSubscription} (hbase : 0 < base)
    (hend : ¬ (0 < calcNextResetTime base plan sub.endTime ∧
      calcNextResetTime base plan sub.endTime ≤ now)) :
    leftRow plan now (resetColumns t base (calcNextResetTime base plan sub.endTime) sub) =
      some (resetColumns t base (calcNextResetTime base plan sub.endTime) sub) := by
  have hnext := hlater base sub.endTime
  by_cases hpos : 0 < calcNextResetTime base plan sub.endTime
  · exact leftRow_of_ahead hpos (show now < calcNextResetTime base plan sub.endTime by omega)
  · have hzero : calcNextResetTime base plan sub.endTime = 0 := by omega
    rw [hzero]
    have hresetBase : resetBase (resetColumns t base 0 sub) = base := if_neg (by
      show ¬ base ≤ 0
      omega)
    unfold leftRow
    rw [if_neg fun h => lt_irrefl 0 h.1, hresetBase]
    show (rollForwardFrom plan sub.endTime now base).map _ = _
    rw [rollForwardFrom_stop hend, hzero]
    exact congrArg some (rolledRow_zero now base _)

theorem leftRow_twice {now : ℤ} {sub sub' : UserSubscription}
    (h : leftRow plan now sub = some sub') : leftRow plan now sub' = some sub' := by
  rcases leftRow_cases h with ⟨-, -, rfl⟩ |
    ⟨hdue, advanced, base, next, -, rfl, rfl, hend, ⟨rfl, rfl⟩ | ⟨rfl, hbase, -⟩⟩
  · exact h
  · unfold rolledRow at h ⊢
    dsimp only at h ⊢
    split_ifs at h ⊢ with hunset
    · exact leftRow_of_ahead hunset.2 (by dsimp only; omega)
    · exact h
  · exact leftRow_resetColumns hlater hbase hend

/-- A call that has reset a row leaves a later one the rest of the loop. -/
theorem times_after_reset {t₁ t₂ base : ℤ} (hle : t₁ ≤ t₂) {sub sub₁₂ sub₂ : UserSubscription}
    (hbase : 0 < base) (hdue : ¬ (0 < sub.nextResetTime ∧ t₁ < sub.nextResetTime))
    (hroll : rollForwardFrom plan sub.endTime t₁ (resetBase sub) =
      some (true, base, calcNextResetTime base plan sub.endTime))
    (h₁₂ : leftRow plan t₂
      (resetColumns t₁ base (calcNextResetTime base plan sub.endTime) sub) = some sub₁₂)
    (h₂ : leftRow plan t₂ sub = some sub₂) :
    sub₁₂.lastResetTime = sub₂.lastResetTime ∧ sub₁₂.nextResetTime = sub₂.nextResetTime := by
  have hresetBase : resetBase
      (resetColumns t₁ base (calcNextResetTime base plan sub.endTime) sub) = base :=
    if_neg (by
      show ¬ base ≤ 0
      omega)
  obtain ⟨⟨advanced', base', next'⟩, hrest⟩ := isSome_iff_exists.1
    (rollForward_isSome (hlater · sub.endTime) false (hlater base sub.endTime)
      (Nat.lt_succ_self (t₂ - base).toNat))
  have hsub₂ : sub₂ = resetColumns t₂ base' next' sub := by
    have hwhole := rollForwardFrom_of_fuel (hlater · sub.endTime)
      (rollForward_resume hle hroll (rollForward_advanced hrest))
    have hleft : leftRow plan t₂ sub = some (resetColumns t₂ base' next' sub) := by
      unfold leftRow
      rw [if_neg (by omega), hwhole]
      rfl
    exact some.inj (h₂.symm.trans hleft)
  obtain ⟨hnext', hend', hcase⟩ := rollForward_spec hrest
  rw [hsub₂]
  rcases hcase with ⟨rfl, rfl⟩ | ⟨rfl, -, -⟩
  · -- nothing is left of the loop
    subst hnext'
    rw [leftRow_resetColumns hlater hbase hend'] at h₁₂
    cases h₁₂
    exact ⟨rfl, rfl⟩
  · have hroll₂ := rollForwardFrom_of_fuel (hlater · sub.endTime) hrest
    rcases leftRow_cases h₁₂ with ⟨-, hahead, -⟩ | ⟨-, advanced, base₂, next₂, hroll', rfl, -⟩
    · rw [rollForwardFrom_stop fun h => absurd hahead (not_lt.2 h.2)] at hroll₂
      cases hroll₂
    · rw [hresetBase] at hroll'
      obtain ⟨rfl, rfl, rfl⟩ := some.inj (hroll₂.symm.trans hroll')
      exact ⟨rfl, rfl⟩

theorem leftRow_trans {t₁ t₂ : ℤ} (hle : t₁ ≤ t₂) {sub sub₁ sub₁₂ sub₂ : UserSubscription}
    (h₁ : leftRow plan t₁ sub = some sub₁) (h₁₂ : leftRow plan t₂ sub₁ = some sub₁₂)
    (h₂ : leftRow plan t₂ sub = some sub₂) :
    sub₁₂.lastResetTime = sub₂.lastResetTime ∧ sub₁₂.nextResetTime = sub₂.nextResetTime := by
  have hsame : sub₁ = sub →
      sub₁₂.lastResetTime = sub₂.lastResetTime ∧ sub₁₂.nextResetTime = sub₂.nextResetTime := by
    rintro rfl
    cases h₁₂.symm.trans h₂
    exact ⟨rfl, rfl⟩
  rcases leftRow_cases h₁ with ⟨-, -, hsub⟩ |
    ⟨hdue, advanced, base, next, hroll, hsub, rfl, hend, ⟨rfl, rfl⟩ | ⟨rfl, hbase, -⟩⟩
  · exact hsame hsub
  · unfold rolledRow at hsub
    dsimp only at hsub
    split_ifs at hsub with hunset
    · subst hsub
      exact times_after_start hunset.1 hunset.2 h₁₂ h₂
    · exact hsame hsub
  · subst hsub
    exact times_after_reset hlater hle hbase hdue hroll h₁₂ h₂

end Later

/-! ## The plans -/

/-- The seconds that Go adds for a custom period, which are at least one unless they overflow. -/
def StepsForward (plan : SubscriptionPlan) : Prop :=
  normalizeResetPeriod plan.quotaResetPeriod = .custom →
    1 ≤ wrapInt64 (plan.quotaResetCustomSeconds * 10 ^ 9) / 10 ^ 9

theorem lt_beijingMidnight {base days : ℤ}
    (h : (base + beijingOffset) / secondsPerDay < days) : base < beijingMidnight days := by
  unfold beijingMidnight
  unfold secondsPerDay at *
  omega

theorem lt_calcNextResetTime {plan : SubscriptionPlan} (h : StepsForward plan) (base endTime : ℤ)
    (hnext : calcNextResetTime base plan endTime ≠ 0) :
    base < calcNextResetTime base plan endTime := by
  unfold calcNextResetTime at hnext ⊢
  dsimp only at hnext ⊢
  split at hnext
  · exact absurd rfl hnext
  rename_i next hperiod
  have hlater : base < next := by
    cases hp : normalizeResetPeriod plan.quotaResetPeriod with
    | never =>
      rw [hp] at hperiod
      cases hperiod
    | daily =>
      rw [hp] at hperiod
      cases hperiod
      exact lt_beijingMidnight (lt_add_one _)
    | weekly =>
      rw [hp] at hperiod
      cases hperiod
      refine lt_beijingMidnight ?_
      unfold weekday
      split_ifs <;> omega
    | monthly =>
      rw [hp] at hperiod
      cases hperiod
      exact lt_beijingMidnight (lt_firstOfNextMonth _)
    | custom =>
      have hstep := h hp
      rw [hp] at hperiod
      dsimp only at hperiod
      split_ifs at hperiod
      cases hperiod
      unfold addSeconds
      omega
  split_ifs at hnext ⊢
  · exact absurd rfl hnext
  · exact hlater

/-- The resets of an accepted plan go forward exactly when its period, counted in nanoseconds, does
not overflow to less than a second. -/
theorem rollsForward_iff {plan : SubscriptionPlan} (haccepted : Accepted plan) :
    RollsForward plan ↔ StepsForward plan := by
  constructor
  · intro h hcustom
    -- a base from which the next reset is not the zero that means none
    have hnext : ∀ base, calcNextResetTime base plan 0 =
        base + wrapInt64 (plan.quotaResetCustomSeconds * 10 ^ 9) / 10 ^ 9 := by
      intro base
      unfold calcNextResetTime addSeconds
      rw [hcustom]
      rw [if_neg (not_le.2 (haccepted hcustom))]
      exact if_neg fun h => lt_irrefl 0 h.1
    have hlater := h.later
      (1 - wrapInt64 (plan.quotaResetCustomSeconds * 10 ^ 9) / 10 ^ 9) 0
    rw [hnext] at hlater
    omega
  · intro h
    have hlater := lt_calcNextResetTime h
    refine ⟨hlater, fun base endTime now => ⟨_, rollForward_isSome (hlater · endTime) false
        (hlater base endTime) (Nat.lt_succ_self _)⟩,
      fun db id sub now e he => error_of_leftRow he (leftRow_isSome hlater now sub),
      fun now sub sub' hstart hlast hleft =>
        passed_of_leftRow hstart hlast (leftRow_of_leaves hleft),
      fun now sub sub' hplan hleft => ahead_of_leftRow hlater hplan (leftRow_of_leaves hleft), ?_,
      fun t₁ t₂ sub sub₁ sub₁₂ sub₂ hle h₁ h₁₂ h₂ => leftRow_trans hlater hle
        (leftRow_of_leaves h₁) (leftRow_of_leaves h₁₂) (leftRow_of_leaves h₂)⟩
    intro now sub sub' sub'' h₁ h₂
    have htwice := leftRow_twice hlater (leftRow_of_leaves h₁)
    exact some.inj ((leftRow_of_leaves h₂).symm.trans htwice)

def hourlyPlan : SubscriptionPlan where
  quotaResetPeriod := "custom"
  quotaResetCustomSeconds := 3600

theorem rollsForward_hourlyPlan : RollsForward hourlyPlan :=
  (rollsForward_iff fun _ => by decide).2 fun _ => by decide

/-- The nanoseconds of this period are a multiple of `2 ^ 64`. -/
def endlessPlan : SubscriptionPlan where
  quotaResetPeriod := "custom"
  quotaResetCustomSeconds := 2 ^ 55

/-- The loop of this plan never ends. -/
theorem endlessPlan_loops : Accepted endlessPlan ∧ ¬ RollsForward endlessPlan ∧
    ∀ fuel, rollForward endlessPlan 0 100 fuel 50 (calcNextResetTime 50 endlessPlan 0) false =
      none := by
  have hnext : calcNextResetTime 50 endlessPlan 0 = 50 := by decide +kernel
  have hloop : ∀ fuel advanced, rollForward endlessPlan 0 100 fuel 50 50 advanced = none := by
    intro fuel
    induction fuel with
    | zero => exact fun _ => rfl
    | succ fuel ih =>
      intro advanced
      unfold rollForward
      rw [if_pos (by decide), hnext]
      exact ih true
  refine ⟨fun _ => by decide, fun h => ?_, fun fuel => by rw [hnext]; exact hloop fuel false⟩
  have hlater := h.later 50 0
  rw [hnext] at hlater
  exact absurd (hlater (by decide)) (lt_irrefl 50)

end BeeApi.Subscription
