import BeeApi.Subscription.Consume

/-!
# What the subscription transactions write

One lemma for each writer.  `moveUsage_eq_ok_iff` and `casUserSubscriptionTx_of_ok` are about the two
kinds of update; `Resets ids db db'` says that a transaction, or a part of one, did nothing but reset
the subscriptions `ids`.  Later modules use these and never unfold a writer.
-/

namespace BeeApi.Subscription

open Strings List

/-! ## The two kinds of update -/

variable {db db' : Db} {id now delta userId tokenId : ℤ} {snapshot sub : UserSubscription}
  {updates : UserSubscription → UserSubscription} {ids resets : List ℤ} {plan : SubscriptionPlan}
  {advanced advanceResetTime : Bool} {req : PreConsumeRequest}
  {result : SubscriptionPreConsumeResult} {candidates : List Candidate} {requestId : String}

theorem casUserSubscriptionTx_of_ok (h : casUserSubscriptionTx db id snapshot updates = .ok db') :
    0 < id ∧ ∃ s, db.userSubscriptions.get? id = some s ∧ casMatches snapshot s = true ∧
      db' = { db with userSubscriptions := db.userSubscriptions.modify id updates } := by
  unfold casUserSubscriptionTx at h
  split_ifs at h with hid
  refine ⟨by omega, ?_⟩
  split at h
  case h_1 subs hu =>
    obtain ⟨s, hs, hm, rfl⟩ := Db.exists_of_affected hu
    exact ⟨s, hs, hm, (Except.ok.inj h).symm⟩
  case h_2 => cases h

theorem amountUsed_of_casMatches {s : UserSubscription} (h : casMatches snapshot s = true) :
    s.amountUsed = snapshot.amountUsed := by
  simp only [casMatches, Bool.and_eq_true, decide_eq_true_eq] at h
  exact h.1.1.1.1.1.1.2

theorem moveUsage_eq_ok_iff {rejected : String} (hdelta : delta ≠ 0) :
    moveUsage db now id userId delta rejected = .ok db' ↔
      ∃ s, db.userSubscriptions.get? id = some s ∧ s.userId = userId ∧ usageGuard delta s = true ∧
        db' = { db with
          userSubscriptions := db.userSubscriptions.modify id (usageUpdates now delta) } := by
  have hchange : ∀ s : UserSubscription,
      (decide (s.userId = userId) && usageGuard delta s) = true → usageUpdates now delta s ≠ s := by
    intro s _ he
    have := congrArg UserSubscription.amountUsed he
    simp only [usageUpdates] at this
    omega
  unfold moveUsage
  constructor
  · intro h
    split at h
    case h_1 subs hu =>
      obtain ⟨s, hs, hp, rfl⟩ := Db.exists_of_affected hu
      rw [Bool.and_eq_true, decide_eq_true_eq] at hp
      exact ⟨s, hs, hp.1, hp.2, (Except.ok.inj h).symm⟩
    case h_2 => cases h
  · rintro ⟨s, hs, hu, hg, rfl⟩
    rw [(Db.affected_updateRow_eq_some_iff hchange).2 ⟨s, hs, by simp [hu, hg], rfl⟩]

def moved (db : Db) (now id tokenId delta : ℤ) : Db :=
  { db with
    userSubscriptions := db.userSubscriptions.modify id (usageUpdates now delta)
    tokens := if 0 < tokenId then db.tokens.modify tokenId (tokenQuotaUpdates now delta)
      else db.tokens }

/-- The token guard of a move; a request without a token has none. -/
def TokenMovable (db : Db) (userId tokenId delta : ℤ) : Prop :=
  0 < tokenId → ∃ t, db.tokens.get? tokenId = some t ∧ tokenSelected userId delta t = true ∧
    tokenQuotaGuard delta t = true

def Movable (db : Db) (id userId tokenId delta : ℤ) : Prop :=
  (∃ s, db.userSubscriptions.get? id = some s ∧ s.userId = userId ∧ usageGuard delta s = true) ∧
    TokenMovable db userId tokenId delta

theorem adjustRequestToken_eq_ok_iff (hdelta : delta ≠ 0) :
    adjustRequestToken db now tokenId userId delta = .ok db' ↔
      TokenMovable db userId tokenId delta ∧ db' = { db with
          tokens := if 0 < tokenId then db.tokens.modify tokenId (tokenQuotaUpdates now delta)
            else db.tokens } := by
  unfold adjustRequestToken TokenMovable
  split_ifs with hid
  · rw [adjustTokenQuotaTx_eq_ok_iff hid hdelta]
    constructor
    · rintro ⟨t, ht, hs, hg, h⟩
      exact ⟨fun _ => ⟨t, ht, hs, hg⟩, h⟩
    · rintro ⟨hg, h⟩
      obtain ⟨t, ht, hs, hg⟩ := hg hid
      exact ⟨t, ht, hs, hg, h⟩
  · rw [Except.ok.injEq]
    exact ⟨fun h => ⟨fun hlt => absurd hlt hid, h.symm⟩, fun h => h.2.symm⟩

theorem move_eq_ok_iff {rejected : String} (hdelta : delta ≠ 0) :
    (moveUsage db now id userId delta rejected >>= fun db =>
        adjustRequestToken db now tokenId userId delta) = .ok db' ↔
      Movable db id userId tokenId delta ∧ db' = moved db now id tokenId delta := by
  rw [Except.bind_eq_ok_iff]
  constructor
  · rintro ⟨db₁, h₁, h₂⟩
    obtain ⟨s, hs, hu, hg, rfl⟩ := (moveUsage_eq_ok_iff hdelta).1 h₁
    obtain ⟨ht, rfl⟩ := (adjustRequestToken_eq_ok_iff hdelta).1 h₂
    exact ⟨⟨⟨s, hs, hu, hg⟩, ht⟩, rfl⟩
  · rintro ⟨⟨⟨s, hs, hu, hg⟩, ht⟩, rfl⟩
    exact ⟨_, (moveUsage_eq_ok_iff hdelta).2 ⟨s, hs, hu, hg, rfl⟩,
      (adjustRequestToken_eq_ok_iff hdelta).2 ⟨ht, rfl⟩⟩

theorem adjustRequestToken_of_pos (h : 0 < tokenId) :
    adjustRequestToken db now tokenId userId delta =
      adjustTokenQuotaTx db now tokenId userId delta :=
  if_pos h

/-! ## Resets -/

/-- Nothing happened but resets of the subscriptions `ids`, and changes of user rows. -/
structure Resets (ids : List ℤ) (db db' : Db) : Prop where
  rows : Table.Rel (fun id s s' => s'.userId = s.userId ∧ s'.amountTotal = s.amountTotal ∧
    s'.amountUsed = if id ∈ ids then 0 else s.amountUsed) db.userSubscriptions db'.userSubscriptions
  tokens : db'.tokens = db.tokens
  records : db'.subscriptionPreConsumeRecords = db.subscriptionPreConsumeRecords
  tasks : db'.tasks = db.tasks
  refunds : db'.asyncTaskRefundRecords = db.asyncTaskRefundRecords

theorem Resets.refl (db : Db) : Resets [] db db :=
  ⟨Table.Rel.refl fun _ _ _ => ⟨rfl, rfl, by simp⟩, rfl, rfl, rfl, rfl⟩

theorem Resets.trans {ids' ids'' : List ℤ} {db₁ db₂ : Db} (h : Resets ids db db₁)
    (h' : Resets ids' db₁ db₂) (hmem : ∀ id, id ∈ ids'' ↔ id ∈ ids ∨ id ∈ ids') :
    Resets ids'' db db₂ := by
  refine ⟨h.rows.trans h'.rows ?_, h'.tokens.trans h.tokens, h'.records.trans h.records,
    h'.tasks.trans h.tasks, h'.refunds.trans h.refunds⟩
  rintro id s s₁ s₂ ⟨hu, ht, ha⟩ ⟨hu', ht', ha'⟩
  refine ⟨hu'.trans hu, ht'.trans ht, ?_⟩
  rw [ha', ha]
  by_cases h₁ : id ∈ ids <;> by_cases h₂ : id ∈ ids' <;> simp [hmem, h₁, h₂]

theorem Resets.trans_nil {db₁ db₂ : Db} (h : Resets ids db db₁) (h' : Resets [] db₁ db₂) :
    Resets ids db db₂ :=
  h.trans h' (by simp)

theorem resets_modify (db : Db) (hids : ∀ k ∈ ids, k = id) (hu : ∀ s, (updates s).userId = s.userId)
    (ht : ∀ s, (updates s).amountTotal = s.amountTotal)
    (ha : ∀ s, (updates s).amountUsed = if id ∈ ids then 0 else s.amountUsed) :
    Resets ids db { db with userSubscriptions := db.userSubscriptions.modify id updates } := by
  refine ⟨Table.rel_modify (fun r _ => ⟨hu r, ht r, ha r⟩) ?_, rfl, rfl, rfl, rfl⟩
  intro k r hne
  exact ⟨rfl, rfl, by rw [if_neg fun hk => hne (hids k hk)]⟩

theorem resets_of_cas (h : casUserSubscriptionTx db id snapshot updates = .ok db')
    (hids : ∀ k ∈ ids, k = id) (hu : ∀ s, (updates s).userId = s.userId)
    (ht : ∀ s, (updates s).amountTotal = s.amountTotal)
    (ha : ∀ s, (updates s).amountUsed = if id ∈ ids then 0 else s.amountUsed) :
    Resets ids db db' := by
  obtain ⟨-, s, hs, -, rfl⟩ := casUserSubscriptionTx_of_ok h
  exact resets_modify db hids hu ht ha

theorem maybeReset_of_ok {sub' : UserSubscription}
    (h : maybeResetUserSubscriptionWithPlanTx db id sub plan now = .ok (db', sub', advanced)) :
    Resets (if advanced then [id] else []) db db' ∧ sub'.amountTotal = sub.amountTotal := by
  unfold maybeResetUserSubscriptionWithPlanTx at h
  have hkept : ∀ {db' : Db} {sub' : UserSubscription} {advanced : Bool},
      Except.ok (ε := String) (db, sub, false) = .ok (db', sub', advanced) →
      Resets (if advanced then [id] else []) db db' ∧ sub'.amountTotal = sub.amountTotal := by
    intro db' sub' advanced h
    cases h
    exact ⟨Resets.refl db, rfl⟩
  split at h
  · exact hkept h
  split at h
  · exact hkept h
  split at h
  · cases h
  · -- the reset times of a row that has none yet
    split_ifs at h with hinit
    · obtain ⟨db₁, hcas, hok⟩ := Except.bind_eq_ok_iff.1 h
      cases hok
      exact ⟨resets_of_cas hcas (by simp) (fun _ => rfl) (fun _ => rfl) (by simp), rfl⟩
    · exact hkept h
  · obtain ⟨db₁, hcas, hok⟩ := Except.bind_eq_ok_iff.1 h
    cases hok
    exact ⟨resets_of_cas hcas (by simp) (fun _ => rfl) (fun _ => rfl) (by simp [resetColumns]), rfl⟩

theorem resets_restoreUpgradeGroup (db : Db) (sub : UserSubscription) :
    Resets [] db (restoreUpgradeGroup db sub) := by
  unfold restoreUpgradeGroup
  dsimp only
  split_ifs
  · exact Resets.refl db
  · exact ⟨Table.Rel.refl fun _ _ _ => ⟨rfl, rfl, by simp⟩, rfl, rfl, rfl, rfl⟩

theorem resetUserSubscriptionTx_of_ok
    (h : resetUserSubscriptionTx db id sub plan now advanceResetTime = .ok db') :
    Resets [id] db db' := by
  unfold resetUserSubscriptionTx at h
  obtain ⟨db₁, hcas, hok⟩ := Except.bind_eq_ok_iff.1 h
  have hreset : Resets [id] db db₁ :=
    resets_of_cas hcas (by simp) (fun _ => rfl) (fun _ => rfl) (by simp)
  cases hok
  split_ifs
  · exact hreset.trans_nil (resets_restoreUpgradeGroup db₁ sub)
  · exact hreset

theorem resetSubscriptionsTx_of_ok {subs : List (ℤ × UserSubscription)}
    (h : resetSubscriptionsTx db subs plan now advanceResetTime = .ok db') :
    Resets (subs.map Prod.fst) db db' := by
  unfold resetSubscriptionsTx at h
  induction subs generalizing db with
  | nil =>
    cases h
    exact Resets.refl _
  | cons e subs ih =>
    rw [foldlM_cons] at h
    obtain ⟨db₁, h₁, h₂⟩ := Except.bind_eq_ok_iff.1 h
    exact (resetUserSubscriptionTx_of_ok h₁).trans (ih h₂) (by simp)

theorem resetDueSubscription_of_ok {locked : UserSubscription}
    (h : resetDueSubscription db id locked plan now = .ok (db', advanced)) :
    Resets (if advanced then [id] else []) db db' := by
  unfold resetDueSubscription at h
  obtain ⟨⟨db₁, sub', advanced₁⟩, h₁, h₂⟩ := Except.bind_eq_ok_iff.1 h
  have hreset := (maybeReset_of_ok h₁).1
  dsimp only at h₂
  split at h₂
  · cases h₂
    exact hreset
  · split at h₂
    · cases h₂
    · rename_i subs hu
      split_ifs at h₂ with huser
      cases h₂
      obtain ⟨s, hs, -, rfl⟩ := Db.exists_of_affected hu
      refine (hreset.trans_nil (resets_modify db₁ (forall_mem_nil _) ?_ ?_ ?_)).trans_nil
        (resets_restoreUpgradeGroup _ locked)
      all_goals simp

theorem resetDueSubscriptionById_of_ok
    (h : resetDueSubscriptionById db now id = .ok (db', advanced)) :
    Resets (if advanced then [id] else []) db db' := by
  have hskip : ∀ {db' : Db} {advanced : Bool},
      Except.ok (ε := String) (db, false) = .ok (db', advanced) →
      Resets (if advanced then [id] else []) db db' := by
    intro db' advanced h
    cases h
    exact Resets.refl db
  unfold resetDueSubscriptionById at h
  split at h
  · exact hskip h
  · split_ifs at h
    · split at h
      · exact hskip h
      · exact resetDueSubscription_of_ok h
    · exact hskip h

theorem adminResetSubscriptions_of_ok {planId : ℤ} {userId : Option ℤ}
    (h : adminResetSubscriptions db now planId userId advanceResetTime = .ok (db', ids)) :
    Resets ids db db' := by
  unfold adminResetSubscriptions at h
  split at h
  · cases h
  split at h
  · cases h
  · dsimp only at h
    split_ifs at h
    obtain ⟨db₁, hreset, h⟩ := Except.bind_eq_ok_iff.1 h
    cases h
    exact resetSubscriptionsTx_of_ok hreset

/-! ## Pre-consumption -/

theorem replayPreConsume_of_ok {existing : SubscriptionPreConsumeRecord}
    (h : replayPreConsume db req existing = .ok result) :
    result.amountUsedAfter = result.amountUsedBefore := by
  unfold replayPreConsume at h
  split_ifs at h
  split at h
  · cases h
  · cases h
    rfl

/-- A charge of the subscription `id` for a request that had no record. -/
structure Charged (db : Db) (req : PreConsumeRequest) (now id : ℤ)
    (result : SubscriptionPreConsumeResult) (db' : Db) : Prop where
  id_pos : 0 < id
  result_id : result.userSubscriptionId = id
  row : ∃ s, db.userSubscriptions.get? id = some s ∧ result.amountUsedBefore = s.amountUsed ∧
    result.amountUsedAfter = s.amountUsed + req.amount
  token : TokenMovable db req.userId req.tokenId req.amount
  record : ∃ records,
    db.subscriptionPreConsumeRecords.insert? req.requestId (req.record now id) = some records ∧
      db' = moved { db with subscriptionPreConsumeRecords := records } now id req.tokenId req.amount

theorem chargeCandidate_of_ok {records : Table String SubscriptionPreConsumeRecord}
    (hamount : req.amount ≠ 0)
    (hrecords : db.subscriptionPreConsumeRecords.insert? req.requestId (req.record now id) =
      some records)
    (h : chargeCandidate { db with subscriptionPreConsumeRecords := records } req now id sub =
      .ok (db', result)) : Charged db req now id result db' := by
  obtain ⟨db₁, hcas, h₁⟩ := Except.bind_eq_ok_iff.1 h
  obtain ⟨db₂, htoken, h₂⟩ := Except.bind_eq_ok_iff.1 h₁
  obtain ⟨hid, s, hs, hm, rfl⟩ := casUserSubscriptionTx_of_ok hcas
  obtain ⟨ht, rfl⟩ := (adjustRequestToken_eq_ok_iff hamount).1 htoken
  cases h₂
  have hused := amountUsed_of_casMatches hm
  refine ⟨hid, rfl, ⟨s, hs, hused.symm, by rw [hused]⟩, ht, records, hrecords, ?_⟩
  -- the written value is the relative one, because the snapshot has the current usage
  have hrow : db.userSubscriptions.modify id
      (fun s => { s with amountUsed := sub.amountUsed + req.amount, updatedAt := now }) =
      db.userSubscriptions.modify id (usageUpdates now req.amount) :=
    Table.modify_congr hs (by simp [usageUpdates, hused])
  unfold moved
  rw [← hrow]

/-- What the loop does: resets, and then either the charge of one candidate for which the request
fits, or the answer to a request that has a record. -/
theorem preConsumeLoop_of_ok {db₀ : Db} {resets' : List ℤ} (hamount : req.amount ≠ 0)
    (hdb : Resets resets db₀ db)
    (h : preConsumeLoop db req now resets candidates = .ok (db', result, resets')) :
    ∃ db₁, Resets resets' db₀ db₁ ∧ ((db' = db₁ ∧ result.amountUsedAfter = result.amountUsedBefore ∧
        ∃ dup, db₀.subscriptionPreConsumeRecords.get? req.requestId = some dup) ∨
      ∃ c ∈ candidates, Charged db₁ req now c.id result db' ∧
        (0 < c.sub.amountTotal → result.amountUsedAfter ≤ c.sub.amountTotal)) := by
  induction candidates generalizing db resets with
  | nil => cases h
  | cons c candidates ih =>
    rw [preConsumeLoop] at h
    obtain ⟨⟨db₁, sub, advanced⟩, hreset, h⟩ := Except.bind_eq_ok_iff.1 h
    obtain ⟨hr, htotal⟩ := maybeReset_of_ok hreset
    have hdb₁ : Resets (if advanced then c.id :: resets else resets) db₀ db₁ :=
      hdb.trans hr (by intro id; cases advanced <;> simp [or_comm])
    dsimp only at h
    split at h
    · obtain ⟨db₂, hdb₂, hcases⟩ := ih hdb₁ h
      refine ⟨db₂, hdb₂, hcases.imp_right ?_⟩
      rintro ⟨c', hc', hcharged⟩
      exact ⟨c', mem_cons_of_mem c hc', hcharged⟩
    split at h
    · rename_i records hinsert
      obtain ⟨⟨db₂, result'⟩, hcharge, h⟩ := Except.bind_eq_ok_iff.1 h
      obtain ⟨rfl, rfl, rfl⟩ : db₂ = db' ∧ result' = result ∧ _ = resets' := by
        simpa using Except.ok.inj h
      refine ⟨db₁, hdb₁, .inr ⟨c, mem_cons_self, chargeCandidate_of_ok hamount hinsert hcharge,
        fun hpos => ?_⟩⟩
      obtain ⟨db₃, -, h₁⟩ := Except.bind_eq_ok_iff.1 hcharge
      obtain ⟨db₄, -, h₂⟩ := Except.bind_eq_ok_iff.1 h₁
      cases h₂
      rw [← htotal] at hpos ⊢
      dsimp only
      omega
    · rename_i hconflict
      split at h
      · cases h
      · rename_i dup hdup
        obtain ⟨result', hreplay, h⟩ := Except.bind_eq_ok_iff.1 h
        obtain ⟨rfl, rfl, rfl⟩ : db₁ = db' ∧ result' = result ∧ _ = resets' := by
          simpa using Except.ok.inj h
        exact ⟨db₁, hdb₁, .inl ⟨rfl, replayPreConsume_of_ok hreplay, dup, hdb₁.records ▸ hdup⟩⟩

theorem consumeCandidates_of_ok (hamount : 0 < req.amount)
    (h : consumeCandidates db req now candidates = .ok (db', result, resets)) :
    ∃ db₁, Resets resets db db₁ ∧ ((db' = db₁ ∧ result.amountUsedAfter = result.amountUsedBefore ∧
        ∃ dup, db.subscriptionPreConsumeRecords.get? req.requestId = some dup) ∨
      ∃ c ∈ candidates, Charged db₁ req now c.id result db' ∧
        (0 < c.sub.amountTotal → result.amountUsedAfter ≤ c.sub.amountTotal)) := by
  unfold consumeCandidates at h
  split_ifs at h
  exact preConsumeLoop_of_ok (by omega) (Resets.refl db) h

theorem findEligible_mem {strict : Bool} {usingGroup : String} {statuses : List SubscriptionStatus}
    (h : findEligibleSubscriptionsTx strict db userId usingGroup now statuses = .ok candidates)
    {c : Candidate} (hc : c ∈ candidates) :
    db.userSubscriptions.get? c.id = some c.sub ∧ c.sub.userId = userId ∧
      c.sub.status ∈ statuses := by
  unfold findEligibleSubscriptionsTx at h
  split_ifs at h
  · cases h
    cases hc
  · obtain ⟨read, hread, h⟩ := Except.bind_eq_ok_iff.1 h
    cases h
    obtain ⟨e, he, hplan⟩ := exists_of_mem_mapM hread (mem_filter.1 hc).1
    have hrow : e ∈ db.userSubscriptions.rows ∧ e.2.userId = userId ∧ e.2.status ∈ statuses := by
      have := mem_filter.1 ((mem_insertionSort _).1 he)
      simp only [Bool.and_eq_true, decide_eq_true_eq, contains_iff_mem] at this
      exact ⟨this.1, this.2.1.1⟩
    cases hp : getSubscriptionPlanByIdTx db e.2.planId with
    | error err => rw [hp] at hplan; cases hplan
    | ok plan =>
      rw [hp] at hplan
      cases hplan
      exact ⟨(Table.get?_eq_some_iff _ _ _).2 hrow.1, hrow.2⟩

theorem check_of_ok (h : req.check = .ok ()) :
    0 < req.userId ∧ trimSpace req.requestId ≠ "" ∧ 0 < req.amount := by
  unfold PreConsumeRequest.check at h
  split_ifs at h with huser hblank hamount
  exact ⟨by omega, hblank, by omega⟩

theorem preConsumeUserSubscription_of_ok {strict : Bool}
    (h : preConsumeUserSubscription strict db now req = .ok (db', result, resets)) :
    (0 < req.userId ∧ trimSpace req.requestId ≠ "" ∧ 0 < req.amount) ∧
      ((∃ record, db.subscriptionPreConsumeRecords.get? req.requestId = some record ∧
        db' = db ∧ resets = []) ∨
      (db.subscriptionPreConsumeRecords.get? req.requestId = none ∧
        ∃ db₁ id s, Resets resets db db₁ ∧ db.userSubscriptions.get? id = some s ∧
          s.userId = req.userId ∧ Charged db₁ req now id result db')) := by
  unfold preConsumeUserSubscription at h
  obtain ⟨_, hcheck, h⟩ := Except.bind_eq_ok_iff.1 h
  have hreq := check_of_ok hcheck
  refine ⟨hreq, ?_⟩
  split at h
  · rename_i record hrecord
    obtain ⟨result', -, h⟩ := Except.bind_eq_ok_iff.1 h
    obtain ⟨rfl, -, rfl⟩ : db = db' ∧ result' = result ∧ [] = resets := by
      simpa using Except.ok.inj h
    exact .inl ⟨record, hrecord, rfl, rfl⟩
  · rename_i hnone
    obtain ⟨candidates, hfind, h⟩ := Except.bind_eq_ok_iff.1 h
    obtain ⟨db₁, hreset, ⟨-, -, dup, hdup⟩ | ⟨c, hc, hcharged, -⟩⟩ :=
      consumeCandidates_of_ok hreq.2.2 h
    · rw [hnone] at hdup
      cases hdup
    · obtain ⟨hrow, huser, -⟩ := findEligible_mem hfind hc
      exact .inr ⟨hnone, db₁, c.id, c.sub, hreset, hrow, huser, hcharged⟩

/-! ## Refund, extension and settlement -/

theorem refundPreConsumeRecord_of_ok {record : SubscriptionPreConsumeRecord}
    (h : refundPreConsumeRecord db now requestId record = .ok db') :
    db' = db ∨ ∃ r, db.subscriptionPreConsumeRecords.get? requestId = some r ∧
      ∃ db₁, db₁ = { db with
          subscriptionPreConsumeRecords := db.subscriptionPreConsumeRecords.modify requestId
            fun r => { r with status := .refunded, updatedAt := now } } ∧
        (db' = db₁ ∨ 0 < record.preConsumed ∧
          Movable db record.userSubscriptionId record.userId record.tokenId (-record.preConsumed) ∧
          db' = moved db₁ now record.userSubscriptionId record.tokenId (-record.preConsumed)) := by
  unfold refundPreConsumeRecord at h
  split at h
  · exact .inl (Except.ok.inj h).symm
  split at h
  · -- the record was refunded in the meantime
    split at h
    · cases h
    · split_ifs at h
      exact .inl (Except.ok.inj h).symm
  · rename_i records hu
    obtain ⟨r, hr, -, rfl⟩ := Db.exists_of_affected hu
    refine .inr ⟨r, hr, _, rfl, ?_⟩
    split_ifs at h with hpos
    · exact .inl (Except.ok.inj h).symm
    · obtain ⟨hm, rfl⟩ := (move_eq_ok_iff (by omega)).1 h
      exact .inr ⟨by omega, hm, rfl⟩

theorem refund_eq_ok_iff {record : SubscriptionPreConsumeRecord}
    (hrecord : db.subscriptionPreConsumeRecords.get? requestId = some record)
    (hstatus : record.status = .consumed) (hpos : 0 < record.preConsumed) :
    refundPreConsumeRecord db now requestId record = .ok db' ↔
      Movable db record.userSubscriptionId record.userId record.tokenId (-record.preConsumed) ∧
      db' = moved { db with
          subscriptionPreConsumeRecords := db.subscriptionPreConsumeRecords.modify requestId
            fun r => { r with status := .refunded, updatedAt := now } }
        now record.userSubscriptionId record.tokenId (-record.preConsumed) := by
  have hchange : ∀ r : SubscriptionPreConsumeRecord, decide (r.status = .consumed) = true →
      ({ r with status := .refunded, updatedAt := now } : SubscriptionPreConsumeRecord) ≠ r := by
    intro r hr he
    have := congrArg SubscriptionPreConsumeRecord.status he
    simp only [decide_eq_true_eq] at this hr
    rw [hr] at this
    cases this
  unfold refundPreConsumeRecord
  rw [if_neg (by rw [hstatus]; decide), (Db.affected_updateRow_eq_some_iff hchange).2
    ⟨record, hrecord, by simp [hstatus], rfl⟩]
  dsimp only
  rw [if_neg (by omega), move_eq_ok_iff (by omega)]
  rfl

theorem reserve_of_ok {userSubscriptionId : ℤ}
    (h : reserveSubscriptionPreConsumeTokenQuota db now requestId userId userSubscriptionId tokenId
      delta = .ok db') :
    0 < delta ∧ 0 < tokenId ∧ (∃ r, db.subscriptionPreConsumeRecords.get? requestId = some r ∧
        r.userId = userId ∧ r.userSubscriptionId = userSubscriptionId ∧ r.tokenId = tokenId) ∧
      Movable db userSubscriptionId userId tokenId delta ∧
      db' = moved { db with
          subscriptionPreConsumeRecords := db.subscriptionPreConsumeRecords.modify requestId
            fun r => { r with preConsumed := r.preConsumed + delta, updatedAt := now } }
        now userSubscriptionId tokenId delta := by
  unfold reserveSubscriptionPreConsumeTokenQuota at h
  split at h
  · cases h
  split at h
  · cases h
  split at h
  · cases h
  split at h
  · cases h
  · rename_i records hu
    obtain ⟨r, hr, hp, rfl⟩ := Db.exists_of_affected hu
    simp only [Bool.and_eq_true, decide_eq_true_eq] at hp
    simp only [← adjustRequestToken_of_pos (show 0 < tokenId by omega)] at h
    obtain ⟨hm, rfl⟩ := (move_eq_ok_iff (by omega)).1 h
    exact ⟨by omega, by omega, ⟨r, hr, hp.1.1.1, hp.1.1.2, hp.1.2⟩, hm, rfl⟩

theorem adjustSubscriptionTokenQuota_eq_ok_iff {userID userSubscriptionID tokenID : ℤ}
    (hdelta : delta ≠ 0) :
    adjustSubscriptionTokenQuota db now userID userSubscriptionID tokenID delta = .ok db' ↔
      (0 < userID ∧ 0 < userSubscriptionID ∧ 0 < tokenID) ∧
        Movable db userSubscriptionID userID tokenID delta ∧
        db' = moved db now userSubscriptionID tokenID delta := by
  unfold adjustSubscriptionTokenQuota
  by_cases hids : userID ≤ 0 ∨ userSubscriptionID ≤ 0 ∨ tokenID ≤ 0
  · rw [if_pos hids]
    constructor
    · intro h
      cases h
    · rintro ⟨hpos, -⟩
      omega
  · rw [if_neg hids, if_neg hdelta]
    simp only [← adjustRequestToken_of_pos (show 0 < tokenID by omega)]
    rw [move_eq_ok_iff hdelta]
    exact ⟨fun h => ⟨by omega, h⟩, fun h => h.2⟩

theorem eq_of_adjustSubscriptionTokenQuota_zero {userID userSubscriptionID tokenID : ℤ}
    (h : adjustSubscriptionTokenQuota db now userID userSubscriptionID tokenID 0 = .ok db') :
    db' = db := by
  unfold adjustSubscriptionTokenQuota at h
  split at h
  · cases h
  · rw [if_pos rfl] at h
    exact (Except.ok.inj h).symm

theorem postConsumeSubscription_of_ok (h : postConsumeSubscription db now id sub delta = .ok db') :
    db' = db ∨ ∃ newUsed s, newUsed = max (wrapInt64 (sub.amountUsed + delta)) 0 ∧
      (0 < sub.amountTotal → newUsed ≤ sub.amountTotal) ∧
      db.userSubscriptions.get? id = some s ∧
      db' = { db with
        userSubscriptions := db.userSubscriptions.modify id fun s =>
          { s with amountUsed := newUsed, updatedAt := now } } := by
  unfold postConsumeSubscription at h
  dsimp only at h
  split_ifs at h with htotal hsame
  · exact .inl (Except.ok.inj h).symm
  · obtain ⟨-, s, hs, -, rfl⟩ := casUserSubscriptionTx_of_ok h
    exact .inr ⟨_, s, rfl, by omega, hs, rfl⟩

/-! ## Refund of a failed task -/

def walletRefunded (db : Db) (now : ℤ) (record : AsyncTaskRefundRecord) : Db :=
  { db with
    users := db.users.modify record.userId fun u => { u with quota := u.quota + record.quota }
    tokens :=
      if 0 < record.tokenId then
        db.tokens.modify record.tokenId (tokenQuotaUpdates now (-record.quota))
      else db.tokens }

theorem applyAsyncTaskRefundFundingTx_of_ok {record : AsyncTaskRefundRecord}
    (h : applyAsyncTaskRefundFundingTx db now record = .ok db') :
    (record.billingSource = "subscription" ∧
      Movable db record.userSubscriptionId record.userId record.tokenId (-record.quota) ∧
      db' = moved db now record.userSubscriptionId record.tokenId (-record.quota)) ∨
    (record.billingSource = "wallet" ∧ (∃ u, db.users.get? record.userId = some u) ∧
      db' = walletRefunded db now record) := by
  unfold applyAsyncTaskRefundFundingTx at h
  split at h
  · cases h
  split at h
  · rename_i hsub
    split at h
    · cases h
    exact .inl ⟨hsub, (move_eq_ok_iff (by omega)).1 h⟩
  obtain ⟨db₁, h₁, h₂⟩ := Except.bind_eq_ok_iff.1 h
  obtain ⟨-, rfl⟩ := (adjustRequestToken_eq_ok_iff (by omega)).1 h₂
  split at h₁
  · rename_i hwallet
    split at h₁
    · cases h₁
    split at h₁
    · rename_i users husers
      cases h₁
      obtain ⟨u, hu, -, rfl⟩ := Db.exists_of_affected husers
      exact .inr ⟨hwallet, ⟨u, hu⟩, rfl⟩
    · cases h₁
  · cases h₁

/-- A transition that is not won changes nothing; one that is won was made from the status of the
row, and funds the refund in a database in which only the task and its refund differ. -/
theorem updateFailureWithRefund_of_ok {t : Task} {fromStatus : TaskStatus} {won : Bool}
    (h : updateFailureWithRefund db now id t fromStatus = .ok (db', won)) :
    (db' = db ∧ won = false) ∨
      (won = true ∧ 0 < id ∧ 0 < t.quota ∧ fromStatus ≠ .failure ∧ fromStatus ≠ .success ∧
        t.status = .failure ∧
        (∃ row, db.tasks.get? id = some row ∧ row.status = fromStatus) ∧
        ∃ record refunds, record.userId = t.userId ∧ record.quota = t.quota ∧
          (record.userSubscriptionId = t.subscriptionId ∧ record.billingSource =
            normalizeAsyncTaskBillingSource t.billingSource t.subscriptionId) ∧
          db.asyncTaskRefundRecords.insert? id record = some refunds ∧
          applyAsyncTaskRefundFundingTx
            { db with
              tasks := db.tasks.modify id fun _ => t
              asyncTaskRefundRecords := refunds } now record = .ok db') := by
  unfold updateFailureWithRefund at h
  dsimp only at h
  split at h
  · cases h
  split at h
  · cases h
  rename_i hterminal
  split at h
  · cases h
    exact .inl ⟨rfl, rfl⟩
  rename_i hfrom
  split at h
  · cases h
  split at h
  · cases h
    exact .inl ⟨rfl, rfl⟩
  · rename_i tasks htasks
    obtain ⟨row, hrow, hstatus, rfl⟩ := Db.exists_of_affected htasks
    rw [decide_eq_true_eq] at hstatus
    rw [not_or] at hfrom
    split at h
    · cases h
    · rename_i refunds hinsert
      obtain ⟨db₂, happly, h⟩ := Except.bind_eq_ok_iff.1 h
      cases h
      exact .inr ⟨rfl, by omega, by omega, hfrom.1, hfrom.2, not_not.1 hterminal,
        ⟨row, hrow, hstatus⟩, _, refunds, rfl, rfl, ⟨rfl, rfl⟩, hinsert, happly⟩

theorem updateFailureWithRefund_eq_ok_iff {db db' : Db} {now id : ℤ} {t row : Task}
    {fromStatus : TaskStatus} {won : Bool} {refunds : Table ℤ AsyncTaskRefundRecord}
    (hid : 0 < id) (huser : 0 < t.userId) (hquota : 0 < t.quota) (hstatus : t.status = .failure)
    (hsource : t.billingSource = "subscription") (hsub : 0 < t.subscriptionId)
    (hfrom : fromStatus ≠ .failure ∧ fromStatus ≠ .success)
    (hrow : db.tasks.get? id = some row) (hrowStatus : row.status = fromStatus)
    (hrefunds : db.asyncTaskRefundRecords.insert? id
      { userId := t.userId
        tokenId := t.tokenId
        userSubscriptionId := t.subscriptionId
        billingSource := "subscription"
        quota := t.quota } = some refunds) :
    updateFailureWithRefund db now id t fromStatus = .ok (db', won) ↔
      Movable db t.subscriptionId t.userId t.tokenId (-t.quota) ∧ db' = moved { db with
            tasks := db.tasks.modify id fun _ => t
            asyncTaskRefundRecords := refunds }
          now t.subscriptionId t.tokenId (-t.quota) ∧ won = true := by
  have hchange : ∀ row : Task, decide (row.status = fromStatus) = true → t ≠ row := by
    rintro row hr rfl
    rw [decide_eq_true_eq] at hr
    exact hfrom.1 (hr.symm.trans hstatus)
  have hbilling : normalizeAsyncTaskBillingSource t.billingSource t.subscriptionId =
      "subscription" := by
    unfold normalizeAsyncTaskBillingSource
    rw [hsource]
    exact if_pos ⟨by decide, hsub⟩
  unfold updateFailureWithRefund
  rw [if_neg (by omega), if_neg (by simp [hstatus]), if_neg (by simp [hfrom]), if_neg (by omega)]
  dsimp only
  rw [(Db.affected_updateRow_eq_some_iff hchange).2 ⟨row, hrow, by simp [hrowStatus], rfl⟩, hbilling,
    hrefunds]
  rw [Except.bind_eq_ok_iff]
  unfold applyAsyncTaskRefundFundingTx
  rw [if_neg (by dsimp only; omega), if_pos rfl, if_neg (by dsimp only; omega)]
  constructor
  · rintro ⟨db₁, h₁, h₂⟩
    obtain ⟨hm, rfl⟩ := (move_eq_ok_iff (by dsimp only; omega)).1 h₁
    cases h₂
    exact ⟨hm, rfl, rfl⟩
  · rintro ⟨hm, rfl, rfl⟩
    exact ⟨_, (move_eq_ok_iff (by dsimp only; omega)).2 ⟨hm, rfl⟩, rfl⟩

end BeeApi.Subscription
