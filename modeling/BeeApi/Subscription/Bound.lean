import BeeApi.Subscription.Effect

/-!
# The quota bound

Any number of transactions run against the subscriptions.  One that reads before it writes does so in two
steps, so that every snapshot may be stale when it is used; pre-consumption looks its request id up, reads
its candidates and writes in three.  The bound rests on one fact about the snapshots: `amount_total`, which
the compare and swap does not compare, is never written.
-/

namespace BeeApi.Subscription.Bound

open Strings Option Table

/-! ## Transactions -/

inductive Pending
  | lookedUp (now : ℤ) (req : PreConsumeRequest)
  | selected (now : ℤ) (req : PreConsumeRequest) (candidates : List Candidate)
  | refund (requestId : String) (record : SubscriptionPreConsumeRecord)
  | postConsume (id : ℤ) (sub : UserSubscription) (delta : ℤ)
  | resetDue (now id : ℤ) (locked : UserSubscription) (plan : SubscriptionPlan)
  | adminReset (now : ℤ) (subs : List (ℤ × UserSubscription)) (plan : SubscriptionPlan)
      (advanceResetTime : Bool)

/-- The database and the transactions that have read and not yet written. -/
structure World where
  db : Db
  pending : Table ℕ Pending := ∅

inductive Label
  /-- The checks and the early lookup of `preConsumeUserSubscription`. -/
  | lookup (tx : ℕ) (now : ℤ) (req : PreConsumeRequest)
  /-- The candidates of a pre-consumption whose request id had no record. -/
  | select (tx : ℕ)
  /-- The record that `RefundSubscriptionPreConsume` reads. -/
  | readRefund (tx : ℕ) (requestId : String)
  /-- The row that `PostConsumeUserSubscriptionDelta` reads. -/
  | readPostConsume (tx : ℕ) (id delta : ℤ)
  /-- The row that `ResetDueSubscriptions` reads. -/
  | readResetDue (tx : ℕ) (now id : ℤ)
  /-- The rows that an administrator resets: those of a plan, or of a plan and a user. -/
  | readAdminReset (tx : ℕ) (now planId : ℤ) (userId : Option ℤ) (advanceResetTime : Bool)
  /-- The writes of a transaction that has read all it needs. -/
  | commit (tx : ℕ) (now : ℤ)
  | rollback (tx : ℕ)
  /-- `ReserveSubscriptionPreConsumeTokenQuota`. -/
  | reserve (now : ℤ) (requestId : String) (userId userSubscriptionId tokenId delta : ℤ)
  /-- `AdjustSubscriptionTokenQuota`. -/
  | settle (now userID userSubscriptionID tokenID delta : ℤ)
  /-- `UpdateFailureWithRefund`. -/
  | taskRefund (now id : ℤ) (t : Task) (fromStatus : TaskStatus)

/-- The writes of a transaction; a pre-consumption that has not selected cannot write. -/
def Pending.write (db : Db) (now : ℤ) : Pending → Option (Except String Db)
  | .lookedUp _ _ => none
  | .selected start req candidates =>
    some ((consumeCandidates db req start candidates).map Prod.fst)
  | .refund requestId record => some (refundPreConsumeRecord db now requestId record)
  | .postConsume id sub delta => some (postConsumeSubscription db now id sub delta)
  | .resetDue start id locked plan =>
    some ((resetDueSubscription db id locked plan start).map Prod.fst)
  | .adminReset start subs plan advanceResetTime =>
    some (resetSubscriptionsTx db subs plan start advanceResetTime)

def World.begin (w : World) (tx : ℕ) (p : Pending) : Option World :=
  (w.pending.insert? tx p).map fun pending => { w with pending }

/-- The database after a statement that either applies or is rejected. -/
def World.apply (w : World) : Except String Db → World
  | .ok db => { w with db }
  | .error _ => w

/-- One step; `strict` is the setting `SubscriptionStrictGroupIsolation`. -/
def step (strict : Bool) (w : World) : Label → Option World
  | .lookup tx now req =>
    match req.check with
    | .error _ => some w
    | .ok () =>
      match w.db.subscriptionPreConsumeRecords.get? req.requestId with
      | some _ => some w
      | none => w.begin tx (.lookedUp now req)
  | .select tx =>
    match w.pending.get? tx with
    | some (.lookedUp now req) =>
      match findEligibleSubscriptionsTx strict w.db req.userId req.usingGroup now [.active] with
      | .error _ => some { w with pending := w.pending.erase tx }
      | .ok candidates =>
        some { w with pending := w.pending.put tx (.selected now req candidates) }
    | _ => none
  | .readRefund tx requestId =>
    if trimSpace requestId = "" then some w
    else
      match w.db.subscriptionPreConsumeRecords.get? requestId with
      | none => some w
      | some record => w.begin tx (.refund requestId record)
  | .readPostConsume tx id delta =>
    match w.db.userSubscriptions.get? id with
    | none => some w
    | some sub => if delta = 0 then some w else w.begin tx (.postConsume id sub delta)
  | .readResetDue tx now id =>
    match w.db.userSubscriptions.get? id with
    | none => some w
    | some locked =>
      if isResetDue now locked then
        match getSubscriptionPlanByIdTx w.db locked.planId with
        | .error _ => some w
        | .ok plan => w.begin tx (.resetDue now id locked plan)
      else some w
  | .readAdminReset tx now planId userId advanceResetTime =>
    match w.db.subscriptionPlans.get? planId with
    | none => some w
    | some plan =>
      w.begin tx
        (.adminReset now (subscriptionsWhere w.db (resettable now planId userId)) plan
          advanceResetTime)
  | .commit tx now =>
    match w.pending.get? tx with
    | none => none
    | some p =>
      (p.write w.db now).map fun res => { w.apply res with pending := w.pending.erase tx }
  | .rollback tx => some { w with pending := w.pending.erase tx }
  | .reserve now requestId userId userSubscriptionId tokenId delta =>
    some (w.apply (reserveSubscriptionPreConsumeTokenQuota w.db now requestId userId
      userSubscriptionId tokenId delta))
  | .settle now userID userSubscriptionID tokenID delta =>
    some (w.apply (adjustSubscriptionTokenQuota w.db now userID userSubscriptionID tokenID delta))
  | .taskRefund now id t fromStatus =>
    some (w.apply ((updateFailureWithRefund w.db now id t fromStatus).map Prod.fst))

/-- Any sign of a charge: the result reports one, a token changes, or a usage grows. -/
def charged (db db' : Db) (result : SubscriptionPreConsumeResult) : Bool :=
  result.amountUsedAfter ≠ result.amountUsedBefore || db'.tokens ≠ db.tokens ||
    db'.userSubscriptions.rows.any fun e =>
      (db.userSubscriptions.get? e.1).any fun s => s.amountUsed < e.2.amountUsed

def Pending.charges (requestId : String) (db : Db) : Pending → Bool
  | .selected start req candidates =>
    match consumeCandidates db req start candidates with
    | .ok (db', result, _) => req.requestId = requestId && charged db db' result
    | .error _ => false
  | _ => false

def charges (requestId : String) (w : World) (a : Label) (_ : World) : ℤ :=
  match a with
  | .commit tx _ => if (w.pending.get? tx).any (Pending.charges requestId w.db) then 1 else 0
  | _ => 0

/-! ## What every transaction keeps -/

/-- The usage of a subscription is within its quota; a quota that is not positive is no limit. -/
def InBound (s : UserSubscription) : Prop :=
  0 ≤ s.amountUsed ∧ (0 < s.amountTotal → s.amountUsed ≤ s.amountTotal)

def Bounded (db : Db) : Prop := ∀ id s, db.userSubscriptions.get? id = some s → InBound s

/-- The quotas stay what they are, the bound is kept, and no record of a request goes away. -/
structure Keeps (db db' : Db) : Prop where
  rows : Table.Rel (fun _ s s' => s'.amountTotal = s.amountTotal ∧ (InBound s → InBound s'))
    db.userSubscriptions db'.userSubscriptions
  records : ∀ requestId, db'.subscriptionPreConsumeRecords.get? requestId = none →
    db.subscriptionPreConsumeRecords.get? requestId = none

variable {db db' : Db} {id now delta tokenId : ℤ} {requestId : String}
  {record : SubscriptionPreConsumeRecord} {req : PreConsumeRequest} {candidates : List Candidate}
  {result : SubscriptionPreConsumeResult} {resets : List ℤ} {p : Pending} {w w' : World}

theorem Keeps.of_eq (hs : db'.userSubscriptions = db.userSubscriptions)
    (hr : db'.subscriptionPreConsumeRecords = db.subscriptionPreConsumeRecords) : Keeps db db' := by
  refine ⟨?_, by rw [hr]; exact fun _ h => h⟩
  rw [hs]
  exact Table.Rel.refl fun _ _ _ => ⟨rfl, id⟩

theorem Keeps.refl (db : Db) : Keeps db db := Keeps.of_eq rfl rfl

theorem Keeps.trans {db₁ db₂ : Db} (h : Keeps db db₁) (h' : Keeps db₁ db₂) : Keeps db db₂ := by
  refine ⟨h.rows.trans h'.rows ?_, fun rid hr => h.records rid (h'.records rid hr)⟩
  rintro _ s s₁ s₂ ⟨ht, hb⟩ ⟨ht', hb'⟩
  exact ⟨ht'.trans ht, fun hs => hb' (hb hs)⟩

theorem Keeps.bounded (h : Keeps db db') (hb : Bounded db) : Bounded db' := by
  intro id s' hs'
  obtain ⟨s, hs, -, hkeep⟩ := h.rows.get?_after hs'
  exact hkeep (hb id s hs)

theorem keeps_of_resets {ids : List ℤ} (h : Resets ids db db') : Keeps db db' := by
  refine ⟨h.rows.mono ?_, by rw [h.records]; exact fun _ h => h⟩
  rintro id s s' ⟨-, ht, ha⟩
  refine ⟨ht, fun hs => ?_⟩
  unfold InBound at hs ⊢
  rw [ht, ha]
  split_ifs
  · exact ⟨le_rfl, fun hpos => hpos.le⟩
  · exact hs

theorem keeps_modify_subscription (db : Db) {f : UserSubscription → UserSubscription}
    (hf : ∀ s, db.userSubscriptions.get? id = some s →
      (f s).amountTotal = s.amountTotal ∧ (InBound s → InBound (f s))) :
    Keeps db { db with userSubscriptions := db.userSubscriptions.modify id f } :=
  ⟨rel_modify hf fun _ _ _ => ⟨rfl, fun h => h⟩, fun _ h => h⟩

theorem keeps_moved (db : Db) (hf : ∀ s, db.userSubscriptions.get? id = some s →
      InBound s → InBound (usageUpdates now delta s)) : Keeps db (moved db now id tokenId delta) :=
  ⟨rel_modify (fun s hs => ⟨rfl, hf s hs⟩) fun _ _ _ => ⟨rfl, fun h => h⟩, fun _ h => h⟩

theorem inBound_usageUpdates {s : UserSubscription} (hg : usageGuard delta s = true)
    (hs : InBound s) : InBound (usageUpdates now delta s) := by
  unfold usageGuard at hg
  unfold InBound usageUpdates at *
  dsimp only at *
  split_ifs at hg with hpos
  · simp only [Bool.or_eq_true, decide_eq_true_eq] at hg
    omega
  · simp only [decide_eq_true_eq] at hg
    omega

theorem keeps_moved_of_movable {userId : ℤ} (h : Movable db id userId tokenId delta) :
    Keeps db (moved db now id tokenId delta) := by
  obtain ⟨⟨s, hs, -, hg⟩, -⟩ := h
  refine keeps_moved db fun s' hs' => ?_
  cases hs.symm.trans hs'
  exact inBound_usageUpdates hg

theorem keeps_modify_record (db : Db) (requestId : String)
    (f : SubscriptionPreConsumeRecord → SubscriptionPreConsumeRecord) :
    Keeps db { db with
      subscriptionPreConsumeRecords := db.subscriptionPreConsumeRecords.modify requestId f } := by
  refine ⟨Table.Rel.refl fun _ _ _ => ⟨rfl, id⟩, fun rid h => ?_⟩
  rw [get?_modify] at h
  split_ifs at h
  · exact map_eq_none_iff.1 h
  · exact h

theorem keeps_insert_record {records : Table String SubscriptionPreConsumeRecord}
    (h : db.subscriptionPreConsumeRecords.insert? requestId record = some records) :
    Keeps db { db with subscriptionPreConsumeRecords := records } := by
  refine ⟨Table.Rel.refl fun _ _ _ => ⟨rfl, id⟩, fun rid hr => ?_⟩
  rw [get?_of_insert? h] at hr
  split_ifs at hr
  exact hr

/-! ## One lemma for each writer -/

/-- The snapshot has the quota of the row. -/
def SnapshotOf (db : Db) (id : ℤ) (sub : UserSubscription) : Prop :=
  ∃ s, db.userSubscriptions.get? id = some s ∧ s.amountTotal = sub.amountTotal

theorem SnapshotOf.keeps {sub : UserSubscription} (h : SnapshotOf db id sub) (hk : Keeps db db') :
    SnapshotOf db' id sub := by
  obtain ⟨s, hs, ht⟩ := h
  obtain ⟨s', hs', ht', -⟩ := hk.rows.get? hs
  exact ⟨s', hs', ht'.trans ht⟩

theorem keeps_consumeCandidates (hamount : 0 < req.amount)
    (hsnap : ∀ c ∈ candidates, SnapshotOf db c.id c.sub)
    (h : consumeCandidates db req now candidates = .ok (db', result, resets)) : Keeps db db' := by
  obtain ⟨db₁, hreset, ⟨rfl, -, -⟩ | ⟨c, hc, hcharged, hfits⟩⟩ := consumeCandidates_of_ok hamount h
  · exact keeps_of_resets hreset
  have hkeep := keeps_of_resets hreset
  obtain ⟨records, hinsert, rfl⟩ := hcharged.record
  refine (hkeep.trans (keeps_insert_record hinsert)).trans (keeps_moved _ fun s hs hbound => ?_)
  -- the row has the quota of the candidate, for which the request fits
  obtain ⟨s', hs', ht⟩ := (hsnap c hc).keeps hkeep
  cases hs'.symm.trans hs
  obtain ⟨s'', hs'', -, hafter⟩ := hcharged.row
  cases hs''.symm.trans hs'
  unfold InBound usageUpdates at *
  dsimp only at *
  omega

theorem keeps_refund (h : refundPreConsumeRecord db now requestId record = .ok db') :
    Keeps db db' := by
  obtain rfl | ⟨r, hr, db₁, rfl, hcases⟩ := refundPreConsumeRecord_of_ok h
  · exact Keeps.refl _
  have hrecord := keeps_modify_record db requestId fun r =>
    { r with status := .refunded, updatedAt := now }
  obtain rfl | ⟨hpos, hm, rfl⟩ := hcases
  · exact hrecord
  · exact hrecord.trans (keeps_moved_of_movable hm)

theorem keeps_postConsume {sub : UserSubscription} (hsnap : SnapshotOf db id sub)
    (h : postConsumeSubscription db now id sub delta = .ok db') : Keeps db db' := by
  obtain rfl | ⟨newUsed, s, hnew, hle, hs, rfl⟩ := postConsumeSubscription_of_ok h
  · exact Keeps.refl _
  have hnonneg : 0 ≤ newUsed := by
    rw [hnew]
    exact le_max_right _ _
  refine keeps_modify_subscription db fun s' hs' => ⟨rfl, fun _ => ⟨hnonneg, ?_⟩⟩
  obtain ⟨s'', hs'', ht⟩ := hsnap
  cases hs''.symm.trans hs'
  rw [ht]
  exact hle

theorem keeps_reserve {userId userSubscriptionId : ℤ}
    (h : reserveSubscriptionPreConsumeTokenQuota db now requestId userId userSubscriptionId tokenId
      delta = .ok db') : Keeps db db' := by
  obtain ⟨hpos, -, -, hm, rfl⟩ := reserve_of_ok h
  exact (keeps_modify_record db requestId _).trans (keeps_moved_of_movable hm)

theorem keeps_settle {userID userSubscriptionID tokenID : ℤ}
    (h : adjustSubscriptionTokenQuota db now userID userSubscriptionID tokenID delta = .ok db') :
    Keeps db db' := by
  by_cases hdelta : delta = 0
  · subst hdelta
    rw [eq_of_adjustSubscriptionTokenQuota_zero h]
    exact Keeps.refl _
  · obtain ⟨-, hm, rfl⟩ := (adjustSubscriptionTokenQuota_eq_ok_iff hdelta).1 h
    exact keeps_moved_of_movable hm

theorem keeps_taskRefund {t : Task} {fromStatus : TaskStatus} {won : Bool}
    (h : updateFailureWithRefund db now id t fromStatus = .ok (db', won)) : Keeps db db' := by
  obtain ⟨rfl, -⟩ | ⟨-, -, -, -, -, -, -, record, refunds, -, -, -, -, happly⟩ :=
    updateFailureWithRefund_of_ok h
  · exact Keeps.refl _
  obtain ⟨-, hm, rfl⟩ | ⟨-, -, rfl⟩ := applyAsyncTaskRefundFundingTx_of_ok happly
  · refine Keeps.trans ?_ (keeps_moved_of_movable hm)
    exact Keeps.of_eq rfl rfl
  · exact Keeps.of_eq rfl rfl

/-! ## Every reachable state -/

/-- What a transaction has read still agrees with the database as far as the bound needs it. -/
def Pending.Valid (db : Db) : Pending → Prop
  | .lookedUp _ req => 0 < req.amount
  | .selected _ req candidates =>
    0 < req.amount ∧ ∀ c ∈ candidates, SnapshotOf db c.id c.sub
  | .postConsume id sub _ => SnapshotOf db id sub
  | _ => True

theorem Pending.Valid.keeps (h : p.Valid db) (hk : Keeps db db') : p.Valid db' := by
  cases p with
  | lookedUp now req => exact h
  | selected now req candidates => exact ⟨h.1, fun c hc => (h.2 c hc).keeps hk⟩
  | postConsume id sub delta => exact SnapshotOf.keeps h hk
  | refund _ _ => trivial
  | resetDue _ _ _ _ => trivial
  | adminReset _ _ _ _ => trivial

theorem keeps_write (hp : p.Valid db) (h : p.write db now = some (.ok db')) : Keeps db db' := by
  have hmap : ∀ {α : Type} {x : Except String (Db × α)}, x.map Prod.fst = .ok db' →
      ∃ a, x = .ok (db', a) := by
    intro α x hx
    cases x with
    | error e => cases hx
    | ok r =>
      obtain ⟨db₁, a⟩ := r
      cases hx
      exact ⟨a, rfl⟩
  cases p with
  | lookedUp start req => cases h
  | selected start req candidates =>
    obtain ⟨⟨result, resets⟩, hr⟩ := hmap (some.inj h)
    exact keeps_consumeCandidates hp.1 hp.2 hr
  | refund requestId record => exact keeps_refund (some.inj h)
  | postConsume id sub delta => exact keeps_postConsume hp (some.inj h)
  | resetDue start id locked plan =>
    obtain ⟨advanced, hr⟩ := hmap (some.inj h)
    exact keeps_of_resets (resetDueSubscription_of_ok hr)
  | adminReset start subs plan advanceResetTime =>
    exact keeps_of_resets (resetSubscriptionsTx_of_ok (some.inj h))

structure Inv (w : World) : Prop where
  bounded : Bounded w.db
  pending : ∀ tx p, w.pending.get? tx = some p → p.Valid w.db

theorem inv_begin {tx : ℕ} (hw : Inv w) (h : w.begin tx p = some w') (hp : p.Valid w.db) :
    Inv w' ∧ w'.db = w.db := by
  unfold World.begin at h
  obtain ⟨pending, hi, rfl⟩ := map_eq_some_iff.1 h
  refine ⟨⟨hw.bounded, fun tx' p' hp' => ?_⟩, rfl⟩
  rw [show World.pending _ = pending from rfl, get?_of_insert? hi] at hp'
  split_ifs at hp' with htx
  · cases hp'
    exact hp
  · exact hw.pending tx' p' hp'

theorem inv_erase (hw : Inv w) (tx : ℕ) : Inv { w with pending := w.pending.erase tx } := by
  refine ⟨hw.bounded, fun tx' p hp => ?_⟩
  rw [get?_erase] at hp
  split_ifs at hp
  exact hw.pending tx' p hp

theorem inv_of_keeps (hw : Inv w) (hk : Keeps w.db db) : Inv { w with db } :=
  ⟨hk.bounded hw.bounded, fun tx p hp => (hw.pending tx p hp).keeps hk⟩

theorem inv_apply {res : Except String Db} (hw : Inv w) (hk : ∀ db, res = .ok db → Keeps w.db db) :
    Inv (w.apply res) ∧ Keeps w.db (w.apply res).db := by
  cases res with
  | error e => exact ⟨hw, Keeps.refl _⟩
  | ok db => exact ⟨inv_of_keeps hw (hk db rfl), hk db rfl⟩

theorem step_inv {strict : Bool} {a : Label} (hw : Inv w) (h : step strict w a = some w') :
    Inv w' ∧ Keeps w.db w'.db := by
  have hread : ∀ {w' : World}, Inv w' ∧ w'.db = w.db → Inv w' ∧ Keeps w.db w'.db := by
    rintro w' ⟨hi, he⟩
    rw [he]
    exact ⟨hi, Keeps.refl _⟩
  have hsame : ∀ {w' : World}, some w = some w' → Inv w' ∧ Keeps w.db w'.db := by
    rintro w' he
    cases he
    exact ⟨hw, Keeps.refl _⟩
  cases a with
  | lookup tx now req =>
    rw [step] at h
    split at h
    · exact hsame h
    · rename_i hcheck
      split at h
      · exact hsame h
      · exact hread (inv_begin hw h (check_of_ok hcheck).2.2)
  | select tx =>
    rw [step] at h
    split at h
    · rename_i now req hp
      have hvalid : 0 < req.amount := hw.pending tx _ hp
      split at h
      · cases h
        exact hread ⟨inv_erase hw tx, rfl⟩
      · rename_i candidates hfind
        cases h
        refine hread ⟨⟨hw.bounded, fun tx' p hp' => ?_⟩, rfl⟩
        rw [get?_put] at hp'
        split_ifs at hp'
        · cases hp'
          exact ⟨hvalid, fun c hc => ⟨c.sub, (findEligible_mem hfind hc).1, rfl⟩⟩
        · exact hw.pending tx' p hp'
    · cases h
  | readRefund tx requestId =>
    rw [step] at h
    split_ifs at h
    · exact hsame h
    · split at h
      · exact hsame h
      · exact hread (inv_begin hw h trivial)
  | readPostConsume tx id delta =>
    rw [step] at h
    split at h
    · exact hsame h
    · rename_i sub hsub
      split_ifs at h
      · exact hsame h
      · exact hread (inv_begin hw h ⟨sub, hsub, rfl⟩)
  | readResetDue tx now id =>
    rw [step] at h
    split at h
    · exact hsame h
    · split_ifs at h
      · split at h
        · exact hsame h
        · exact hread (inv_begin hw h trivial)
      · exact hsame h
  | readAdminReset tx now planId userId advanceResetTime =>
    rw [step] at h
    split at h
    · exact hsame h
    · exact hread (inv_begin hw h trivial)
  | commit tx now =>
    rw [step] at h
    split at h
    · cases h
    · rename_i p hp
      obtain ⟨res, hres, rfl⟩ := map_eq_some_iff.1 h
      obtain ⟨hi, hk⟩ := inv_apply hw fun db he =>
        keeps_write (hw.pending tx p hp) (hres.trans (congrArg some he))
      exact ⟨inv_erase (w := { w.apply res with pending := w.pending })
        ⟨hi.bounded, fun tx' p' hp' => (hw.pending tx' p' hp').keeps hk⟩ tx, hk⟩
  | rollback tx =>
    cases h
    exact hread ⟨inv_erase hw tx, rfl⟩
  | reserve now requestId userId userSubscriptionId tokenId delta =>
    cases h
    exact inv_apply hw fun db he => keeps_reserve he
  | settle now userID userSubscriptionID tokenID delta =>
    cases h
    exact inv_apply hw fun db he => keeps_settle he
  | taskRefund now id t fromStatus =>
    cases h
    refine inv_apply hw fun db he => ?_
    cases hr : updateFailureWithRefund w.db now id t fromStatus with
    | error e => rw [hr] at he; cases he
    | ok r =>
      rw [hr] at he
      cases he
      exact keeps_taskRefund hr

/-! ## At most one charge -/

theorem charged_eq_false (hb : Bounded db) (hamount : 0 < req.amount)
    (hrecord : db.subscriptionPreConsumeRecords.get? req.requestId = some record)
    (h : consumeCandidates db req now candidates = .ok (db', result, resets)) :
    charged db db' result = false := by
  obtain ⟨db₁, hreset, ⟨rfl, hsame, -⟩ | ⟨c, -, hcharged, -⟩⟩ := consumeCandidates_of_ok hamount h
  · have hrows : (db'.userSubscriptions.rows.any fun e =>
        (db.userSubscriptions.get? e.1).any fun s => s.amountUsed < e.2.amountUsed) = false := by
      rw [List.any_eq_false]
      intro e he
      obtain ⟨s, hs, -, -, ha⟩ := hreset.rows.get?_after ((get?_eq_some_iff _ e.1 e.2).2 he)
      have hnonneg := (hb e.1 s hs).1
      rw [hs, ha]
      split_ifs <;> simp [hnonneg]
    unfold charged
    rw [hrows, hsame, hreset.tokens]
    simp
  · -- the loop inserts the record, which cannot be there
    obtain ⟨records, hinsert, -⟩ := hcharged.record
    have hnone := ((insert?_eq_some_iff _ _ _ _).1 hinsert).1
    rw [hreset.records, hrecord] at hnone
    cases hnone

theorem record_of_consumeCandidates (hamount : 0 < req.amount)
    (h : consumeCandidates db req now candidates = .ok (db', result, resets)) :
    ∃ record, db'.subscriptionPreConsumeRecords.get? req.requestId = some record := by
  obtain ⟨db₁, hreset, ⟨rfl, -, dup, hdup⟩ | ⟨c, -, hcharged, -⟩⟩ :=
    consumeCandidates_of_ok hamount h
  · exact ⟨dup, by rw [hreset.records, hdup]⟩
  · obtain ⟨records, hinsert, rfl⟩ := hcharged.record
    refine ⟨_, (get?_of_insert? hinsert _).trans (if_pos rfl)⟩

theorem write_of_charges (hb : Bounded db) (hp : p.Valid db)
    (hcharge : p.charges requestId db = true) :
    db.subscriptionPreConsumeRecords.get? requestId = none ∧
      ∃ db', p.write db now = some (.ok db') ∧
        db'.subscriptionPreConsumeRecords.get? requestId ≠ none := by
  cases p with
  | selected start req candidates =>
    rw [Pending.charges] at hcharge
    split at hcharge
    · rename_i db' result resets hok
      rw [Bool.and_eq_true, decide_eq_true_eq] at hcharge
      obtain ⟨rfl, hcharged⟩ := hcharge
      constructor
      · cases hr : db.subscriptionPreConsumeRecords.get? req.requestId with
        | none => rfl
        | some record =>
          rw [charged_eq_false hb hp.1 hr hok] at hcharged
          cases hcharged
      · obtain ⟨record, hr⟩ := record_of_consumeCandidates hp.1 hok
        refine ⟨db', by rw [Pending.write, hok]; rfl, ?_⟩
        rw [hr]
        exact some_ne_none record
    · cases hcharge
  | lookedUp _ _ => cases hcharge
  | refund _ _ => cases hcharge
  | postConsume _ _ _ => cases hcharge
  | resetDue _ _ _ _ => cases hcharge
  | adminReset _ _ _ _ => cases hcharge

theorem charges_of_step {strict : Bool} {a : Label} (hw : Inv w) (h : step strict w a = some w')
    (requestId : String) :
    charges requestId w a w' = 0 ∨ charges requestId w a w' = 1 ∧
        w.db.subscriptionPreConsumeRecords.get? requestId = none ∧
        w'.db.subscriptionPreConsumeRecords.get? requestId ≠ none := by
  cases a with
  | commit tx now =>
    rw [step] at h
    split at h
    · cases h
    · rename_i p hp
      by_cases hcharge : p.charges requestId w.db = true
      · obtain ⟨hnone, db', hwrite, hsome⟩ := write_of_charges hw.bounded (hw.pending tx p hp) hcharge
        rw [hwrite] at h
        cases h
        refine .inr ⟨?_, hnone, hsome⟩
        simp [charges, hp, hcharge]
      · refine .inl ?_
        simp [charges, hp, hcharge]
  | lookup _ _ _ => exact .inl rfl
  | select _ => exact .inl rfl
  | readRefund _ _ => exact .inl rfl
  | readPostConsume _ _ _ => exact .inl rfl
  | readResetDue _ _ _ => exact .inl rfl
  | readAdminReset _ _ _ _ _ => exact .inl rfl
  | rollback _ => exact .inl rfl
  | reserve _ _ _ _ _ _ => exact .inl rfl
  | settle _ _ _ _ _ => exact .inl rfl
  | taskRefund _ _ _ _ => exact .inl rfl

/-- In every run that starts with usages within their quotas and no transaction under way, usages
stay within their quotas, and every request id is charged at most once. -/
theorem quota_bound_of_run {strict : Bool} {w w' : World} {l : List Label}
    (hbounded : Bounded w.db) (hpending : w.pending = ∅) (h : Run.run (step strict) w l = some w') :
    (∀ id s, w'.db.userSubscriptions.get? id = some s → 0 < s.amountTotal →
      0 ≤ s.amountUsed ∧ s.amountUsed ≤ s.amountTotal) ∧
    ∀ requestId, Run.total (step strict) (charges requestId) w l ≤ 1 := by
  have hw : Inv w := by
    refine ⟨hbounded, fun tx p hp => ?_⟩
    rw [hpending] at hp
    cases hp
  constructor
  · have hw' : Inv w' := Run.invariant (fun _ _ _ hi hs => (step_inv hi hs).1) hw h
    intro id s hs hpos
    obtain ⟨hnonneg, hle⟩ := hw'.bounded id s hs
    exact ⟨hnonneg, hle hpos⟩
  · intro requestId
    -- the number of charges is at most one, and zero as long as there is no record
    let inv : World → ℤ → Prop := fun w n => Inv w ∧ n ≤ 1 ∧
      (w.db.subscriptionPreConsumeRecords.get? requestId = none → n ≤ 0)
    have hrun : inv w' (0 + Run.total (step strict) (charges requestId) w l) := by
      refine Run.total_invariant ?_ ⟨hw, by omega, fun _ => le_rfl⟩ h
      rintro w n a w' ⟨hi, hone, hzero⟩ hs
      obtain ⟨hi', hk⟩ := step_inv hi hs
      refine ⟨hi', ?_⟩
      obtain hc | ⟨hc, hnone, hsome⟩ := charges_of_step hi hs requestId
      · rw [hc, add_zero]
        exact ⟨hone, fun hr => hzero (hk.records requestId hr)⟩
      · rw [hc]
        have := hzero hnone
        exact ⟨by omega, fun hr => absurd hr hsome⟩
    have hone := hrun.2.1
    omega

def raceWorld : World where
  db :=
    { tokens := Table.empty.put 7 { userId := 1, remainQuota := 500 }
      subscriptionPlans := Table.empty.put 3 { boundGroup := "codex", totalAmount := 100 }
      userSubscriptions :=
        Table.empty.put 5
          { userId := 1, planId := 3, amountTotal := 100, amountUsed := 30, endTime := 9000 } }

/-- A pre-consumption is sent twice and both find no record; the second meets the record of the first.  A
stale settlement loses its compare and swap; the request is refunded twice. -/
def raceLabels : List Label :=
  let req : PreConsumeRequest :=
    { requestId := "r", userId := 1, tokenId := 7, amount := 60, usingGroup := "codex" }
  [.lookup 1 10 req, .lookup 2 10 req, .select 1, .select 2, .readPostConsume 3 5 20, .commit 1 11,
    .commit 2 11, .commit 3 12, .lookup 4 13 req, .reserve 13 "r" 1 5 7 20, .reserve 13 "r" 1 5 7 10,
    .settle 14 1 5 7 (-5), .settle 14 1 5 7 5, .readRefund 5 "r", .readRefund 6 "r", .commit 5 15,
    .commit 6 15]

theorem quota_bound_of_race :
    ∃ w', Run.run (step true) raceWorld raceLabels = some w' ∧
      Run.total (step true) (charges "r") raceWorld raceLabels = 1 ∧
      (∀ id s, w'.db.userSubscriptions.get? id = some s → 0 < s.amountTotal →
        0 ≤ s.amountUsed ∧ s.amountUsed ≤ s.amountTotal) ∧
      ∀ requestId, Run.total (step true) (charges requestId) raceWorld raceLabels ≤ 1 := by
  refine exists_some_imp (p := fun _ => True) (by decide) fun w' h _ =>
    ⟨by decide, quota_bound_of_run ?_ rfl h⟩
  intro id s hs
  have hrow := (get?_eq_some_iff _ _ _).1 hs
  obtain rfl : s = _ := (Prod.mk.inj (List.mem_singleton.1 hrow)).2
  exact ⟨by decide, fun _ => by decide⟩

end BeeApi.Subscription.Bound
