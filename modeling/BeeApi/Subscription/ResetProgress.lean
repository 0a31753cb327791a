import BeeApi.Subscription.Effect
import BeeApi.Subscription.RollForward

/-!
# The batches of due resets

`ResetDueSubscriptions` counts every row whose transaction commits, also one that the current plan
does not move, and passes over a row whose plan it cannot read.  The task takes another batch as long
as full ones come back.
-/

namespace BeeApi.Subscription

open List

/-! ## The task -/

/-- The rows that `ResetDueSubscriptions` selects. -/
def isSelected (now : ℤ) (s : UserSubscription) : Bool :=
  isResetDue now s && (s.status = .active || s.status = .exhausted)

/-- The selected rows, `ORDER BY next_reset_time ASC`. -/
def selectedRows (db : Db) (now : ℤ) : List (ℤ × UserSubscription) :=
  (db.userSubscriptions.rows.filter fun e => isSelected now e.2).insertionSort fun a b =>
    a.2.nextResetTime ≤ b.2.nextResetTime

def resetBatch (db : Db) (now limit : ℤ) : List (ℤ × UserSubscription) :=
  (selectedRows db now).take (if limit ≤ 0 then 200 else limit.toNat)

/-- One row of a batch: the database and the rows that are counted so far. -/
def resetSelected (now : ℤ) (acc : Db × List ℤ) (e : ℤ × UserSubscription) :
    Except String (Db × List ℤ) :=
  match getSubscriptionPlanByIdTx acc.1 e.2.planId, acc.1.userSubscriptions.get? e.1 with
  | .ok plan, some locked =>
    if isResetDue now locked then
      resetDueSubscription acc.1 e.1 locked plan now >>= fun r => .ok (r.1, acc.2 ++ [e.1])
    else .ok acc
  | _, _ => .ok acc

/-- `ResetDueSubscriptions`, with the rows that it counts. -/
def resetDueSubscriptions (db : Db) (now limit : ℤ) : Except String (Db × List ℤ) :=
  (resetBatch db now limit).foldlM (resetSelected now) (db, [])

/-- The loop of `runSubscriptionQuotaResetOnce`, at one time. -/
def runResets (now : ℤ) (batchSize : ℕ) : ℕ → Db → Option (Except String Db)
  | 0, _ => none
  | fuel + 1, db =>
    match resetDueSubscriptions db now batchSize with
    | .error e => some (.error e)
    | .ok (db', counted) =>
      if counted.length = 0 ∨ counted.length < batchSize then some (.ok db')
      else runResets now batchSize fuel db'

def planOf (db : Db) (s : UserSubscription) : Option SubscriptionPlan :=
  (getSubscriptionPlanByIdTx db s.planId).toOption

/-- The plan puts the next reset from the last one at or before now. -/
def Passes (plan : SubscriptionPlan) (now : ℤ) (s : UserSubscription) : Prop :=
  0 < calcNextResetTime (resetBase s) plan s.endTime ∧
    calcNextResetTime (resetBase s) plan s.endTime ≤ now

def Moves (db : Db) (now : ℤ) (s : UserSubscription) : Prop :=
  ∃ plan, planOf db s = some plan ∧ Passes plan now s

def NoneDue (db : Db) (now : ℤ) : Prop :=
  ∀ id s, db.userSubscriptions.get? id = some s → isSelected now s = false

/-! ## One row -/

section Row

variable {db db' : Db} {id now : ℤ} {s s' : UserSubscription} {plan : SubscriptionPlan}
  {advanced : Bool}

theorem isResetDue_iff : isResetDue now s = true ↔ 0 < s.nextResetTime ∧ s.nextResetTime ≤ now := by
  simp [isResetDue]

theorem isSelected_eq_false (h : isResetDue now s = false) : isSelected now s = false := by
  unfold isSelected
  rw [h, Bool.false_and]

structure WritesRow (id : ℤ) (s' : UserSubscription) (db db' : Db) : Prop where
  plans : db'.subscriptionPlans = db.subscriptionPlans
  row : db'.userSubscriptions.get? id = some s'
  others : ∀ k, k ≠ id → db'.userSubscriptions.get? k = db.userSubscriptions.get? k

theorem WritesRow.refl (hrow : db.userSubscriptions.get? id = some s) : WritesRow id s db db :=
  ⟨rfl, hrow, fun _ _ => rfl⟩

theorem WritesRow.trans {db₁ : Db} {s₁ : UserSubscription} (h : WritesRow id s₁ db db₁)
    (h' : WritesRow id s' db₁ db') : WritesRow id s' db db' :=
  ⟨h'.plans.trans h.plans, h'.row, fun k hk => (h'.others k hk).trans (h.others k hk)⟩

theorem writesRow_modify (hrow : db.userSubscriptions.get? id = some s)
    (f : UserSubscription → UserSubscription) :
    WritesRow id (f s) db { db with userSubscriptions := db.userSubscriptions.modify id f } := by
  refine ⟨rfl, ?_, fun k hk => Table.get?_modify_of_ne _ _ hk⟩
  rw [Table.get?_modify_self, hrow]
  rfl

theorem writesRow_restoreUpgradeGroup (sub : UserSubscription)
    (hrow : db.userSubscriptions.get? id = some s) :
    WritesRow id s db (restoreUpgradeGroup db sub) := by
  unfold restoreUpgradeGroup
  dsimp only
  split_ifs
  · exact .refl hrow
  · exact ⟨rfl, hrow, fun _ _ => rfl⟩

theorem maybeReset_due (hdue : isResetDue now s = true)
    (hrow : db.userSubscriptions.get? id = some s)
    (h : maybeResetUserSubscriptionWithPlanTx db id s plan now = .ok (db', s', advanced)) :
    WritesRow id s' db db' ∧
      (Passes plan now s → advanced = true ∧ isResetDue now s' = false ∧ s'.status = s.status) ∧
      (¬ Passes plan now s → advanced = false ∧ s' = s) := by
  rw [isResetDue_iff] at hdue
  unfold maybeResetUserSubscriptionWithPlanTx at h
  rw [if_neg (by omega)] at h
  split at h
  · rename_i hnever
    cases h
    refine ⟨.refl hrow, fun hpass => ?_, fun _ => ⟨rfl, rfl⟩⟩
    unfold Passes at hpass
    rw [calcNextResetTime_never hnever] at hpass
    exact absurd hpass.1 (lt_irrefl 0)
  have hbase : (if s.lastResetTime ≤ 0 then s.startTime else s.lastResetTime) = resetBase s := rfl
  rw [hbase] at h
  split at h
  · cases h
  · rename_i base next hroll
    obtain ⟨rfl, hend, ⟨-, rfl⟩ | ⟨hfalse, -⟩⟩ := rollForward_spec hroll
    · rw [if_neg (by omega)] at h
      cases h
      exact ⟨.refl hrow, fun hpass => absurd hpass hend, fun _ => ⟨rfl, rfl⟩⟩
    · cases hfalse
  · rename_i base next hroll
    obtain ⟨-, hend, -⟩ := rollForward_spec hroll
    have hpass : Passes plan now s := by
      by_contra hstop
      rw [rollForwardFrom_stop hstop] at hroll
      cases hroll
    obtain ⟨db₁, hcas, hok⟩ := Except.bind_eq_ok_iff.1 h
    obtain ⟨-, -, -, -, rfl⟩ := casUserSubscriptionTx_of_ok hcas
    cases hok
    refine ⟨writesRow_modify hrow _, fun _ => ⟨rfl, ?_, rfl⟩, fun hn => absurd hpass hn⟩
    rw [Bool.eq_false_iff, ne_eq, isResetDue_iff]
    exact hend

theorem resetDueSubscription_due (hselected : isSelected now s = true)
    (hrow : db.userSubscriptions.get? id = some s)
    (h : resetDueSubscription db id s plan now = .ok (db', advanced)) :
    ∃ s', WritesRow id s' db db' ∧ (Passes plan now s → isSelected now s' = false) ∧
      (¬ Passes plan now s → s' = s) := by
  have hdue : isResetDue now s = true := (Bool.and_eq_true_iff.1 hselected).1
  unfold resetDueSubscription at h
  obtain ⟨⟨db₁, s₁, advanced₁⟩, h₁, h₂⟩ := Except.bind_eq_ok_iff.1 h
  obtain ⟨hwrites, hpass, hstay⟩ := maybeReset_due hdue hrow h₁
  dsimp only at h₂
  split at h₂
  · cases h₂
    exact ⟨s₁, hwrites, fun hp => isSelected_eq_false (hpass hp).2.1, fun hn => (hstay hn).2⟩
  · rename_i hdone
    split at h₂
    · cases h₂
    · rename_i subs hu
      split_ifs at h₂ with huser
      cases h₂
      obtain ⟨-, -, -, rfl⟩ := Db.exists_of_affected hu
      have hpassed : Passes plan now s := by
        by_contra hn
        exact hdone (.inr (hstay hn).1)
      have hactive := writesRow_modify hwrites.row
        fun s : UserSubscription => { s with status := .active, updatedAt := now }
      refine ⟨_, (hwrites.trans hactive).trans (writesRow_restoreUpgradeGroup s hactive.row),
        fun _ => isSelected_eq_false ?_, fun hn => absurd hpassed hn⟩
      exact (hpass hpassed).2.1

end Row

/-! ## A batch -/

section Batch

variable {db db' : Db} {now : ℤ} {ids ids' : List ℤ}

theorem planOf_congr (h : db'.subscriptionPlans = db.subscriptionPlans) (s : UserSubscription) :
    planOf db' s = planOf db s := by
  unfold planOf getSubscriptionPlanByIdTx
  rw [h]

theorem moves_congr (h : db'.subscriptionPlans = db.subscriptionPlans) (s : UserSubscription) :
    Moves db' now s ↔ Moves db now s := by
  unfold Moves
  rw [planOf_congr h]

theorem resetSelected_of_ok {e : ℤ × UserSubscription}
    (hrow : db.userSubscriptions.get? e.1 = some e.2) (hselected : isSelected now e.2 = true)
    (h : resetSelected now (db, ids) e = .ok (db', ids')) :
    ids' = ids ++ (if (planOf db e.2).isSome then [e.1] else []) ∧ ∃ s', WritesRow e.1 s' db db' ∧
      (Moves db now e.2 → isSelected now s' = false) ∧ (¬ Moves db now e.2 → s' = e.2) := by
  have hdue : isResetDue now e.2 = true := (Bool.and_eq_true_iff.1 hselected).1
  unfold resetSelected at h
  unfold Moves planOf
  rw [hrow] at h
  cases hplan : getSubscriptionPlanByIdTx db e.2.planId with
  | error msg =>
    rw [hplan] at h
    cases h
    refine ⟨(append_nil _).symm, e.2, .refl hrow, ?_, fun _ => rfl⟩
    rintro ⟨plan, hnone, -⟩
    cases hnone
  | ok plan =>
    rw [hplan] at h
    dsimp only at h
    rw [if_pos hdue] at h
    obtain ⟨⟨db₁, advanced⟩, hreset, hok⟩ := Except.bind_eq_ok_iff.1 h
    cases hok
    obtain ⟨s', hwrites, hpass, hstay⟩ := resetDueSubscription_due hselected hrow hreset
    refine ⟨rfl, s', hwrites, ?_, fun hn => hstay fun hp => hn ⟨plan, rfl, hp⟩⟩
    rintro ⟨_, hsome, hp⟩
    cases hsome
    exact hpass hp

/-- What a batch does: the rows that their plans move are due no more, the others stay. -/
structure Sweeps (now : ℤ) (l : List (ℤ × UserSubscription)) (db db' : Db) : Prop where
  plans : db'.subscriptionPlans = db.subscriptionPlans
  others : ∀ k, k ∉ l.map Prod.fst → db'.userSubscriptions.get? k = db.userSubscriptions.get? k
  moved : ∀ e ∈ l, Moves db now e.2 → ∃ s', db'.userSubscriptions.get? e.1 = some s' ∧
    isSelected now s' = false
  stays : ∀ e ∈ l, ¬ Moves db now e.2 → db'.userSubscriptions.get? e.1 = some e.2

theorem sweeps_of_foldlM (l : List (ℤ × UserSubscription)) (hnodup : (l.map Prod.fst).Nodup)
    (hrows : ∀ e ∈ l, db.userSubscriptions.get? e.1 = some e.2 ∧ isSelected now e.2 = true)
    (h : l.foldlM (resetSelected now) (db, ids) = .ok (db', ids')) :
    ids' = ids ++ (l.filter fun e => (planOf db e.2).isSome).map Prod.fst ∧ Sweeps now l db db' := by
  induction l generalizing db ids with
  | nil =>
    cases h
    exact ⟨(append_nil _).symm, rfl, fun _ _ => rfl, by simp, by simp⟩
  | cons e l ih =>
    rw [foldlM_cons] at h
    obtain ⟨⟨db₁, ids₁⟩, h₁, h₂⟩ := Except.bind_eq_ok_iff.1 h
    obtain ⟨hrow, hselected⟩ := hrows e (mem_cons_self ..)
    obtain ⟨hids₁, s', hwrites, hmoved, hstays⟩ := resetSelected_of_ok hrow hselected h₁
    rw [map_cons, nodup_cons] at hnodup
    have hne : ∀ e' ∈ l, e'.1 ≠ e.1 := fun e' he' heq =>
      hnodup.1 (heq ▸ mem_map_of_mem (f := Prod.fst) he')
    obtain ⟨hids, hsweeps⟩ := ih hnodup.2 (fun e' he' => ⟨(hwrites.others _ (hne e' he')).trans
      (hrows e' (mem_cons_of_mem e he')).1, (hrows e' (mem_cons_of_mem e he')).2⟩) h₂
    have hlast : db'.userSubscriptions.get? e.1 = some s' :=
      (hsweeps.others e.1 hnodup.1).trans hwrites.row
    refine ⟨?_, hsweeps.plans.trans hwrites.plans, fun k hk => ?_, fun e' he' hm => ?_,
      fun e' he' hn => ?_⟩
    · rw [hids, hids₁, append_assoc, filter_cons]
      simp only [planOf_congr hwrites.plans]
      split_ifs <;> rfl
    · rw [map_cons, mem_cons, not_or] at hk
      exact (hsweeps.others k hk.2).trans (hwrites.others k hk.1)
    · rcases mem_cons.1 he' with rfl | he'
      · exact ⟨s', hlast, hmoved hm⟩
      · exact hsweeps.moved e' he' ((moves_congr hwrites.plans e'.2).2 hm)
    · rcases mem_cons.1 he' with rfl | he'
      · rw [hlast, hstays hn]
      · exact hsweeps.stays e' he' fun hm => hn ((moves_congr hwrites.plans e'.2).1 hm)

theorem mem_selectedRows {e : ℤ × UserSubscription} : e ∈ selectedRows db now ↔
    db.userSubscriptions.get? e.1 = some e.2 ∧ isSelected now e.2 = true := by
  unfold selectedRows
  rw [mem_insertionSort, mem_filter, ← Table.get?_eq_some_iff]

theorem nodup_selectedRows : ((selectedRows db now).map Prod.fst).Nodup := by
  unfold selectedRows
  refine ((perm_insertionSort _ _).map Prod.fst).nodup_iff.2 ?_
  exact db.userSubscriptions.nodup.sublist (filter_sublist.map _)

theorem sweeps_of_ok {limit : ℤ} (h : resetDueSubscriptions db now limit = .ok (db', ids)) :
    ids = ((resetBatch db now limit).filter fun e => (planOf db e.2).isSome).map Prod.fst ∧
      Sweeps now (resetBatch db now limit) db db' :=
  sweeps_of_foldlM (resetBatch db now limit)
    (nodup_selectedRows.sublist ((take_sublist _ _).map _))
    (fun _ he => mem_selectedRows.1 (mem_of_mem_take he)) h

end Batch

/-! ## The loop -/

section Loop

variable {db db' : Db} {now : ℤ} {batchSize : ℕ}

theorem get?_of_runResets {fuel : ℕ} (h : runResets now batchSize fuel db = some (.ok db'))
    {id : ℤ} {s : UserSubscription} (hrow : db.userSubscriptions.get? id = some s)
    (hn : ¬ Moves db now s) : db'.userSubscriptions.get? id = some s := by
  induction fuel generalizing db with
  | zero => exact (nomatch h)
  | succ fuel ih =>
    unfold runResets at h
    split at h
    · cases h
    · rename_i db₁ counted hcall
      obtain ⟨-, hsweeps⟩ := sweeps_of_ok hcall
      have hrow₁ : db₁.userSubscriptions.get? id = some s := by
        by_cases hmem : id ∈ (resetBatch db now batchSize).map Prod.fst
        · obtain ⟨e, he, rfl⟩ := mem_map.1 hmem
          have hsame := (mem_selectedRows.1 (mem_of_mem_take he)).1
          cases hrow.symm.trans hsame
          exact hsweeps.stays e he hn
        · exact (hsweeps.others id hmem).trans hrow
      split_ifs at h
      · cases h
        exact hrow₁
      · exact ih h hrow₁ fun hm => hn ((moves_congr hsweeps.plans s).1 hm)

theorem selectedRows_subset {limit : ℕ} (hlimit : 0 < limit) {counted : List ℤ}
    (hmoves : ∀ e ∈ selectedRows db now, Moves db now e.2)
    (h : resetDueSubscriptions db now limit = .ok (db', counted)) :
    counted.length = min limit (selectedRows db now).length ∧
      selectedRows db' now ⊆ (selectedRows db now).drop limit := by
  obtain ⟨hcounted, hsweeps⟩ := sweeps_of_ok h
  have hbatch : resetBatch db now limit = (selectedRows db now).take limit := by
    unfold resetBatch
    rw [if_neg (by omega), Int.toNat_natCast]
  rw [hbatch] at hcounted hsweeps
  constructor
  · have hreadable : ∀ e ∈ (selectedRows db now).take limit, (planOf db e.2).isSome = true := by
      intro e he
      obtain ⟨plan, hplan, -⟩ := hmoves e (mem_of_mem_take he)
      rw [hplan]
      rfl
    rw [hcounted, filter_eq_self.2 hreadable, length_map, length_take]
  · intro e he
    obtain ⟨hrow, hselected⟩ := mem_selectedRows.1 he
    have hout : e.1 ∉ ((selectedRows db now).take limit).map Prod.fst := by
      intro hin
      obtain ⟨e₀, he₀, heq⟩ := mem_map.1 hin
      obtain ⟨s', hs', hdone⟩ := hsweeps.moved e₀ he₀ (hmoves e₀ (mem_of_mem_take he₀))
      rw [heq, hrow] at hs'
      cases hs'
      rw [hselected] at hdone
      cases hdone
    rw [hsweeps.others e.1 hout] at hrow
    have hmem : e ∈ selectedRows db now := mem_selectedRows.2 ⟨hrow, hselected⟩
    rw [← take_append_drop limit (selectedRows db now), mem_append] at hmem
    exact hmem.resolve_left fun htake => hout (mem_map_of_mem htake)

/-- When the plans of all selected rows move them, every batch is smaller than the one before. -/
theorem runResets_ends (hsize : 0 < batchSize)
    (hmoves : ∀ e ∈ selectedRows db now, Moves db now e.2)
    (hok : ∀ fuel e, runResets now batchSize fuel db ≠ some (.error e)) :
    ∃ fuel db', runResets now batchSize fuel db = some (.ok db') ∧ NoneDue db' now := by
  induction hlen : (selectedRows db now).length using Nat.strong_induction_on generalizing db with
  | _ n ih =>
    subst hlen
    cases hcall : resetDueSubscriptions db now batchSize with
    | error e =>
      refine absurd ?_ (hok 1 e)
      unfold runResets
      rw [hcall]
    | ok r =>
      obtain ⟨db₁, counted⟩ := r
      obtain ⟨hcount, hsubset⟩ := selectedRows_subset hsize hmoves hcall
      have hle : (selectedRows db₁ now).length ≤ ((selectedRows db now).drop batchSize).length :=
        (subperm_of_subset (nodup_selectedRows.of_map _) hsubset).length_le
      rw [length_drop] at hle
      have hstep : ∀ fuel, runResets now batchSize (fuel + 1) db =
          if counted.length = 0 ∨ counted.length < batchSize then some (.ok db₁)
          else runResets now batchSize fuel db₁ := by
        intro fuel
        conv_lhs => unfold runResets
        rw [hcall]
      by_cases hlast : counted.length = 0 ∨ counted.length < batchSize
      · refine ⟨1, db₁, (hstep 0).trans (if_pos hlast), fun id s hrow => ?_⟩
        by_contra hselected
        have hmem : (id, s) ∈ selectedRows db₁ now :=
          mem_selectedRows.2 ⟨hrow, Bool.eq_true_of_not_eq_false hselected⟩
        have := length_pos_of_mem hmem
        omega
      · have hmoves₁ : ∀ e ∈ selectedRows db₁ now, Moves db₁ now e.2 := fun e he =>
          (moves_congr (sweeps_of_ok hcall).2.plans e.2).2
            (hmoves e (mem_of_mem_drop (hsubset he)))
        obtain ⟨fuel, db₂, hrun, hnone⟩ := ih _ (by omega) hmoves₁
          (fun fuel e he => hok (fuel + 1) e ((hstep fuel).trans ((if_neg hlast).trans he))) rfl
        exact ⟨fuel + 1, db₂, (hstep fuel).trans ((if_neg hlast).trans hrun), hnone⟩

end Loop

/-- The counted rows of a call are due no more exactly when the current plan of each moves it, and
the loop ends without a due row exactly when all due rows have a readable plan that moves them. -/
theorem resetDueSubscriptions_progress (db : Db) (now : ℤ) :
    (∀ limit db' counted, resetDueSubscriptions db now limit = .ok (db', counted) →
      ((∀ id ∈ counted, ∀ s, db'.userSubscriptions.get? id = some s → isSelected now s = false) ↔
        ∀ e ∈ resetBatch db now limit, (planOf db e.2).isSome → Moves db now e.2)) ∧
    ∀ batchSize : ℕ, 0 < batchSize → (∀ fuel e, runResets now batchSize fuel db ≠ some (.error e)) →
      ((∃ fuel db', runResets now batchSize fuel db = some (.ok db') ∧ NoneDue db' now) ↔
        ∀ e ∈ selectedRows db now, Moves db now e.2) := by
  constructor
  · intro limit db' counted hcall
    obtain ⟨rfl, hsweeps⟩ := sweeps_of_ok hcall
    constructor
    · intro hdone e he hreadable
      by_contra hn
      have hcounted : e ∈ (resetBatch db now limit).filter fun e => (planOf db e.2).isSome :=
        mem_filter.2 ⟨he, hreadable⟩
      have hfalse := hdone e.1 (mem_map_of_mem hcounted) e.2 (hsweeps.stays e he hn)
      rw [(mem_selectedRows.1 (mem_of_mem_take he)).2] at hfalse
      cases hfalse
    · intro hmoves id hid s hrow
      obtain ⟨e, he, rfl⟩ := mem_map.1 hid
      obtain ⟨he, hreadable⟩ := mem_filter.1 he
      obtain ⟨s', hs', hdone⟩ := hsweeps.moved e he (hmoves e he hreadable)
      rw [hrow] at hs'
      cases hs'
      exact hdone
  · intro batchSize hsize hok
    refine ⟨?_, fun hmoves => runResets_ends hsize hmoves hok⟩
    rintro ⟨fuel, db', hrun, hnone⟩ e he
    obtain ⟨hrow, hselected⟩ := mem_selectedRows.1 he
    by_contra hn
    have hfalse := hnone e.1 e.2 (get?_of_runResets hrun hrow hn)
    rw [hselected] at hfalse
    cases hfalse

def dueDb (period : String) : Db where
  subscriptionPlans :=
    Table.empty.put 1 { quotaResetPeriod := period, quotaResetCustomSeconds := 3600 }
  userSubscriptions := Table.empty.put 1
    { userId := 1, planId := 1, endTime := 100000, lastResetTime := 100, nextResetTime := 3700 }

theorem dueDb_ends : ∃ fuel db', runResets 5000 300 fuel (dueDb "custom") = some (.ok db') ∧
    NoneDue db' 5000 := by
  refine ((resetDueSubscriptions_progress (dueDb "custom") 5000).2 300 (by decide) ?_).2 ?_
  · intro fuel e
    cases fuel with
    | zero => exact nofun
    | succ fuel =>
      have hcall : (resetDueSubscriptions (dueDb "custom") 5000 300).toOption.map
          (fun r => r.2.length) = some 1 := by decide +kernel
      unfold runResets
      push_cast
      revert hcall
      cases resetDueSubscriptions (dueDb "custom") 5000 300 with
      | error e => exact nofun
      | ok r =>
        intro hcall
        have hlength : r.2.length = 1 := Option.some.inj hcall
        simp [hlength]
  · intro e he
    have hrows : selectedRows (dueDb "custom") 5000 = (dueDb "custom").userSubscriptions.rows := by
      decide +kernel
    rw [hrows] at he
    obtain rfl := mem_singleton.1 he
    exact ⟨{ quotaResetPeriod := "custom", quotaResetCustomSeconds := 3600 }, by decide +kernel,
      by decide +kernel, by decide +kernel⟩

/-- After the purchase the plan was edited to have no resets: the row is counted and stays due, and the
loop never ends. -/
theorem dueDb_never : resetDueSubscriptions (dueDb "never") 5000 1 = .ok (dueDb "never", [1]) ∧
    ¬ NoneDue (dueDb "never") 5000 ∧ ∀ fuel, runResets 5000 1 fuel (dueDb "never") = none := by
  have hcall : resetDueSubscriptions (dueDb "never") 5000 1 = .ok (dueDb "never", [1]) := by
    decide +kernel
  refine ⟨hcall, fun h => ?_, fun fuel => ?_⟩
  · have hfalse := h 1
      { userId := 1, planId := 1, endTime := 100000, lastResetTime := 100, nextResetTime := 3700 } rfl
    revert hfalse
    decide
  · induction fuel with
    | zero => rfl
    | succ fuel ih =>
      unfold runResets
      rw [Nat.cast_one, hcall]
      exact ih

end BeeApi.Subscription
