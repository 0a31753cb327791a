import BeeApi.Subscription.Effect

/-!
# Refunds and resets

The transactions that charge a subscription and its tokens, those that return what was charged, and the
quota resets, in any order.  The world also carries how much of its charges each request still holds,
and how much of that lies after the last reset, which forgets the usage that a return takes its amount
from.
-/

namespace BeeApi.Subscription.Refund

open Option Table Except

/-! ## The world -/

/-- What a request has charged and not returned, and the part of it that the usage of its
subscription still contains. -/
structure Request where
  userId : ℤ
  subscriptionId : ℤ
  tokenId : ℤ
  charged : ℤ
  sinceReset : ℤ

/-- The database, the requests of the run, and the usage of each subscription since its last reset
that is due to requests before the run. -/
structure World where
  db : Db
  requests : Table String Request := ∅
  earlier : ℤ → ℤ

inductive Label
  /-- `preConsumeUserSubscription`. -/
  | preConsume (now : ℤ) (req : PreConsumeRequest)
  /-- `ReserveSubscriptionPreConsumeTokenQuota`. -/
  | reserve (now : ℤ) (requestId : String) (userId userSubscriptionId tokenId delta : ℤ)
  /-- `AdjustSubscriptionTokenQuota` for a request. -/
  | settle (now : ℤ) (requestId : String) (delta : ℤ)
  /-- `RefundSubscriptionPreConsume`. -/
  | refund (now : ℤ) (requestId : String)
  /-- `UpdateFailureWithRefund` of a task that a request has paid for from its subscription. -/
  | taskRefund (now : ℤ) (requestId : String) (id quota : ℤ) (fromStatus : TaskStatus)
  /-- `ResetDueSubscriptions` for one subscription. -/
  | resetDue (now id : ℤ)
  /-- `AdminResetPlanSubscriptions` and `AdminResetUserSubscriptionsByPlan`. -/
  | adminReset (now planId : ℤ) (userId : Option ℤ) (advanceResetTime : Bool)

/-- The usage of the subscriptions `ids` starts at zero. -/
def World.reset (w : World) (ids : List ℤ) : World :=
  { w with
    requests := w.requests.updateWhere (fun _ r => decide (r.subscriptionId ∈ ids)) fun r =>
      { r with sinceReset := 0 }
    earlier := fun id => if id ∈ ids then 0 else w.earlier id }

/-- The account of a request after it has moved by `delta`. -/
def Request.move (delta : ℤ) (r : Request) : Request :=
  { r with charged := r.charged + delta, sinceReset := r.sinceReset + delta }

def World.move (w : World) (db : Db) (requestId : String) (delta : ℤ) : World :=
  { w with db, requests := w.requests.modify requestId (Request.move delta) }

/-- The task of a request, as the poller passes it to the refund. -/
def Request.task (r : Request) (quota : ℤ) : Task :=
  { userId := r.userId
    quota
    status := .failure
    billingSource := "subscription"
    subscriptionId := r.subscriptionId
    tokenId := r.tokenId }

/-- The amount of a record that a refund returns: nothing when it is refunded already. -/
def refundable (db : Db) (requestId : String) : Option ℤ :=
  match db.subscriptionPreConsumeRecords.get? requestId with
  | some record => if record.status = .consumed then some record.preConsumed else none
  | none => none

/-- A transaction; an error is a rejection, which changes nothing.  `strict` is the setting
`SubscriptionStrictGroupIsolation`. -/
def exec (strict : Bool) (w : World) : Label → Except String World
  | .preConsume now req =>
    preConsumeUserSubscription strict w.db now req >>= fun (db, result, resets) =>
      match w.db.subscriptionPreConsumeRecords.get? req.requestId with
      | some _ => .ok { w.reset resets with db }
      | none =>
        .ok
          { w.reset resets with
            db
            requests := (w.reset resets).requests.put req.requestId
              { userId := req.userId
                subscriptionId := result.userSubscriptionId
                tokenId := req.tokenId
                charged := req.amount
                sinceReset := req.amount } }
  | .reserve now requestId userId userSubscriptionId tokenId delta =>
    reserveSubscriptionPreConsumeTokenQuota w.db now requestId userId userSubscriptionId tokenId
      delta >>= fun db => .ok (w.move db requestId delta)
  | .settle now requestId delta =>
    match w.requests.get? requestId with
    | none => .error "unknown request"
    | some r =>
      adjustSubscriptionTokenQuota w.db now r.userId r.subscriptionId r.tokenId delta >>= fun db =>
        .ok (w.move db requestId delta)
  | .refund now requestId =>
    refundSubscriptionPreConsume w.db now requestId >>= fun db =>
      .ok (w.move db requestId (-((refundable w.db requestId).getD 0)))
  | .taskRefund now requestId id quota fromStatus =>
    match w.requests.get? requestId with
    | none => .error "unknown request"
    | some r =>
      updateFailureWithRefund w.db now id (r.task quota) fromStatus >>= fun (db, won) =>
        .ok (if won then w.move db requestId (-quota) else w)
  | .resetDue now id =>
    resetDueSubscriptionById w.db now id >>= fun (db, advanced) =>
      .ok { w.reset (if advanced then [id] else []) with db }
  | .adminReset now planId userId advanceResetTime =>
    adminResetSubscriptions w.db now planId userId advanceResetTime >>= fun (db, ids) =>
      .ok { w.reset ids with db }

def step (strict : Bool) (w : World) (a : Label) : Option World :=
  match exec strict w a with
  | .ok w' => some w'
  | .error _ => some w

/-! ## Returns -/

/-- The request and the amount that a transaction sets out to return: a negative settlement of a
request with a token, the refund of a record that is not refunded, and the refund of a task whose
transition is won. -/
def returned (w : World) : Label → Option (String × ℤ)
  | .settle _ requestId delta =>
    if delta < 0 ∧ ((w.requests.get? requestId).any fun r => 0 < r.tokenId) then
      some (requestId, -delta)
    else none
  | .refund _ requestId => (refundable w.db requestId).map fun n => (requestId, n)
  | .taskRefund _ requestId id quota fromStatus =>
    if 0 < id ∧ 0 < quota ∧ fromStatus ≠ .failure ∧ fromStatus ≠ .success ∧
        ((w.db.tasks.get? id).any fun row => row.status = fromStatus) ∧
        (w.requests.get? requestId).isSome then
      some (requestId, quota)
    else none
  | _ => none

/-- The usage of a subscription since its last reset that is not due to the request. -/
def usageOfOthers (w : World) (id : ℤ) (requestId : String) : ℤ :=
  w.earlier id + w.requests.sum fun k r =>
    if k = requestId then 0 else if r.subscriptionId = id then r.sinceReset else 0

/-- The return of `n` of a request is accepted, gives all of it back to the token, whose counters
only move when it is limited, and leaves the usage of the other requests alone. -/
def Returns (strict : Bool) (w : World) (a : Label) (requestId : String) (n : ℤ) : Prop :=
  ∃ w' r s s', exec strict w a = .ok w' ∧ w.requests.get? requestId = some r ∧
    w.db.userSubscriptions.get? r.subscriptionId = some s ∧
    w'.db.userSubscriptions.get? r.subscriptionId = some s' ∧
    usageOfOthers w r.subscriptionId requestId ≤ s'.amountUsed ∧
    s'.amountUsed = s.amountUsed - n ∧
    (0 < r.tokenId → ∃ t t', w.db.tokens.get? r.tokenId = some t ∧
      w'.db.tokens.get? r.tokenId = some t' ∧
      t'.usedQuota = (if t.unlimitedQuota then t.usedQuota else t.usedQuota - n) ∧
      t'.remainQuota = if t.unlimitedQuota then t.remainQuota else t.remainQuota + n)

/-- A return takes no more than its request has charged since the last reset. -/
def Covered (w : World) (a : Label) : Prop :=
  ∀ requestId n, returned w a = some (requestId, n) →
    ∃ r, w.requests.get? requestId = some r ∧ n ≤ r.sinceReset

instance (w : World) (a : Label) : Decidable (Covered w a) :=
  decidable_of_iff
    (((returned w a).all fun p => (w.requests.get? p.1).any fun r => p.2 ≤ r.sinceReset) = true)
    (by simp [Covered, all_eq_true, any_eq_true])

/-- The states in which a run starts: no request has been charged yet, the usages and the counters
of limited tokens are not negative, and the tasks with a refund have failed. -/
structure Start (w : World) : Prop where
  requests : w.requests = ∅
  records : w.db.subscriptionPreConsumeRecords = ∅
  usage : ∀ id s, w.db.userSubscriptions.get? id = some s → s.amountUsed = w.earlier id
  earlier : ∀ id, 0 ≤ w.earlier id
  tokens : ∀ id t, w.db.tokens.get? id = some t → t.unlimitedQuota = false → 0 ≤ t.usedQuota
  refunds : ∀ id, w.db.asyncTaskRefundRecords.get? id ≠ none →
    ∃ task, w.db.tasks.get? id = some task ∧ task.status = .failure

/-! ## The invariant -/

/-- The part of the usage of subscription `id` that is due to a request. -/
def usageShare (id : ℤ) (_ : String) (r : Request) : ℤ :=
  if r.subscriptionId = id then r.sinceReset else 0

/-- The part of the used quota of token `id` that is due to a request. -/
def tokenShare (id : ℤ) (_ : String) (r : Request) : ℤ := if r.tokenId = id then r.charged else 0

/-- The rows of a request exist and belong to its user, and the part of its charges since the last
reset is not negative. -/
structure Request.Ok (db : Db) (r : Request) : Prop where
  user_pos : 0 < r.userId
  subscription_pos : 0 < r.subscriptionId
  subscription : ∃ s, db.userSubscriptions.get? r.subscriptionId = some s ∧ s.userId = r.userId
  token : 0 < r.tokenId → ∃ t, db.tokens.get? r.tokenId = some t ∧ t.userId = r.userId
  nonneg : 0 ≤ r.sinceReset
  le_charged : r.sinceReset ≤ r.charged

structure RecordOf (requestId : String) (record : SubscriptionPreConsumeRecord) (r : Request) :
    Prop where
  notBlank : Strings.trimSpace requestId ≠ ""
  userId : record.userId = r.userId
  subscriptionId : record.userSubscriptionId = r.subscriptionId
  tokenId : record.tokenId = r.tokenId
  preConsumed : 0 < record.preConsumed

structure Inv (w : World) : Prop where
  usage : ∀ id s, w.db.userSubscriptions.get? id = some s →
    s.amountUsed = w.earlier id + w.requests.sum (usageShare id)
  earlier : ∀ id, 0 ≤ w.earlier id
  request : ∀ requestId r, w.requests.get? requestId = some r → r.Ok w.db
  records : ∀ requestId record, w.db.subscriptionPreConsumeRecords.get? requestId = some record →
      ∃ r, w.requests.get? requestId = some r ∧ RecordOf requestId record r
  fresh : ∀ requestId, w.db.subscriptionPreConsumeRecords.get? requestId = none →
    w.requests.get? requestId = none
  tokens : ∀ id t, 0 < id → w.db.tokens.get? id = some t → t.unlimitedQuota = false →
    w.requests.sum (tokenShare id) ≤ t.usedQuota
  refunds : ∀ id, w.db.asyncTaskRefundRecords.get? id ≠ none →
    ∃ task, w.db.tasks.get? id = some task ∧ task.status = .failure

variable {w w' : World} {db : Db} {r : Request} {now delta id tokenId n : ℤ}
  {requestId rid : String} {strict : Bool} {a : Label}

theorem inv_of_start (h : Start w) : Inv w := by
  have hnone : ∀ requestId, w.requests.get? requestId = none := fun _ => by rw [h.requests]; rfl
  refine ⟨fun id s hs => ?_, h.earlier, fun rid r hr => ?_, fun rid record hr => ?_,
    fun rid _ => hnone rid, fun id t _ ht hl => ?_, h.refunds⟩
  · rw [h.usage id s hs, h.requests, sum_empty, add_zero]
  · rw [hnone] at hr
    cases hr
  · rw [h.records] at hr
    cases hr
  · rw [h.requests, sum_empty]
    exact h.tokens id t ht hl

theorem Request.Ok.of_rows {db' : Db} {r' : Request} (h : r.Ok db)
    (hs : Table.Rel (fun _ s s' => s'.userId = s.userId) db.userSubscriptions db'.userSubscriptions)
    (ht : Table.Rel (fun _ t t' => t'.userId = t.userId) db.tokens db'.tokens)
    (hids : r'.userId = r.userId ∧ r'.subscriptionId = r.subscriptionId ∧ r'.tokenId = r.tokenId)
    (hnonneg : 0 ≤ r'.sinceReset) (hle : r'.sinceReset ≤ r'.charged) : r'.Ok db' := by
  obtain ⟨hu, hsub, htok⟩ := hids
  refine ⟨hu ▸ h.user_pos, hsub ▸ h.subscription_pos, ?_, fun hpos => ?_, hnonneg, hle⟩
  · obtain ⟨s, hget, huser⟩ := h.subscription
    obtain ⟨s', hget', heq⟩ := hs.get? hget
    exact ⟨s', hsub ▸ hget', by rw [heq, huser, hu]⟩
  · obtain ⟨t, hget, huser⟩ := h.token (htok ▸ hpos)
    obtain ⟨t', hget', heq⟩ := ht.get? hget
    exact ⟨t', htok ▸ hget', by rw [heq, huser, hu]⟩

/-! ## Resets -/

theorem inv_reset {ids : List ℤ} (hw : Inv w) (h : Resets ids w.db db) :
    Inv { w.reset ids with db } := by
  have hget : ∀ requestId, (w.reset ids).requests.get? requestId =
      (w.requests.get? requestId).map fun r =>
        if decide (r.subscriptionId ∈ ids) then { r with sinceReset := 0 } else r :=
    fun requestId => get?_updateWhere _ _ _ _
  have husers : Table.Rel (fun _ s s' => s'.userId = s.userId) w.db.userSubscriptions
      db.userSubscriptions := h.rows.mono fun _ _ _ hr => hr.1
  have htokens : Table.Rel (fun _ t t' => t'.userId = t.userId) w.db.tokens db.tokens := by
    rw [h.tokens]
    exact Table.Rel.refl fun _ _ _ => rfl
  refine ⟨fun id s' hs' => ?_, fun id => ?_, fun rid r' hr' => ?_, fun rid record hr => ?_,
    fun rid hr => ?_, fun id t hpos ht hl => ?_, ?_⟩
  · obtain ⟨s, hs, -, -, ha⟩ := h.rows.get?_after hs'
    rw [ha]
    show _ = (if id ∈ ids then 0 else w.earlier id) + (w.requests.updateWhere _ _).sum _
    rw [sum_updateWhere]
    by_cases hid : id ∈ ids
    · rw [if_pos hid, if_pos hid, zero_add]
      symm
      calc (w.requests.sum fun k r => if decide (r.subscriptionId ∈ ids) then
              usageShare id k { r with sinceReset := 0 } else usageShare id k r)
          = w.requests.sum fun _ _ => 0 := by
            refine sum_congr fun rid r _ => ?_
            by_cases hr : r.subscriptionId = id <;> simp [usageShare, hr, hid]
        _ = 0 := by simp [Table.sum]
    · rw [if_neg hid, if_neg hid, hw.usage id s hs]
      congr 1
      refine sum_congr fun rid r _ => ?_
      by_cases hr : r.subscriptionId = id
      · simp [usageShare, hr, hid]
      · simp [usageShare, hr]
  · show 0 ≤ if id ∈ ids then 0 else w.earlier id
    split_ifs
    · exact le_rfl
    · exact hw.earlier id
  · rw [show World.requests _ = (w.reset ids).requests from rfl, hget, map_eq_some_iff] at hr'
    obtain ⟨r, hr, rfl⟩ := hr'
    have hok := hw.request rid r hr
    split_ifs
    · exact hok.of_rows husers htokens ⟨rfl, rfl, rfl⟩ le_rfl (hok.nonneg.trans hok.le_charged)
    · exact hok.of_rows husers htokens ⟨rfl, rfl, rfl⟩ hok.nonneg hok.le_charged
  · rw [show World.db _ = db from rfl, h.records] at hr
    obtain ⟨r, hr', hof⟩ := hw.records rid record hr
    refine ⟨_, (hget rid).trans (by rw [hr', map_some]), ?_⟩
    split_ifs <;> exact ⟨hof.notBlank, hof.userId, hof.subscriptionId, hof.tokenId, hof.preConsumed⟩
  · rw [show World.db _ = db from rfl, h.records] at hr
    exact (hget rid).trans (by rw [hw.fresh rid hr, map_none])
  · rw [show World.db _ = db from rfl, h.tokens] at ht
    refine le_of_eq_of_le ?_ (hw.tokens id t hpos ht hl)
    show (w.requests.updateWhere _ _).sum _ = _
    rw [sum_updateWhere]
    refine sum_congr fun rid r _ => ?_
    split_ifs <;> rfl
  · rw [show World.db _ = db from rfl, h.refunds, h.tasks]
    exact hw.refunds

/-! ## Charges and returns -/

/-- The usages and the counters of `db` are those of `db₀`, and so are the records as far as the
identity of the requests goes. -/
structure SameQuota (db₀ db : Db) : Prop where
  subscriptions : db.userSubscriptions = db₀.userSubscriptions
  tokens : db.tokens = db₀.tokens
  records : Table.Rel (fun _ r r' => r'.userId = r.userId ∧
    r'.userSubscriptionId = r.userSubscriptionId ∧ r'.tokenId = r.tokenId ∧
    (0 < r.preConsumed → 0 < r'.preConsumed)) db₀.subscriptionPreConsumeRecords
    db.subscriptionPreConsumeRecords

theorem SameQuota.refl (db : Db) : SameQuota db db :=
  ⟨rfl, rfl, Table.Rel.refl fun _ _ _ => ⟨rfl, rfl, rfl, id⟩⟩

theorem users_moved (db : Db) (now id tokenId delta : ℤ) :
    Table.Rel (fun _ s s' => s'.userId = s.userId) db.userSubscriptions
        (moved db now id tokenId delta).userSubscriptions ∧
      Table.Rel (fun _ t t' => t'.userId = t.userId) db.tokens
        (moved db now id tokenId delta).tokens := by
  refine ⟨rel_modify (fun _ _ => rfl) fun _ _ _ => rfl, ?_⟩
  unfold moved
  split_ifs
  · exact rel_modify (fun t _ => tokenQuotaUpdates_userId now delta t) fun _ _ _ => rfl
  · exact Table.Rel.refl fun _ _ _ => rfl

theorem usage_moved {k : ℤ} {s' : UserSubscription}
    (h : (moved db now id tokenId delta).userSubscriptions.get? k = some s') :
    ∃ s, db.userSubscriptions.get? k = some s ∧
      s'.amountUsed = s.amountUsed + if k = id then delta else 0 := by
  rw [show Db.userSubscriptions (moved db now id tokenId delta) =
    db.userSubscriptions.modify id (usageUpdates now delta) from rfl, get?_modify] at h
  split_ifs at h with hk
  · obtain ⟨s, hs, rfl⟩ := map_eq_some_iff.1 h
    exact ⟨s, hs, by rw [if_pos hk]; rfl⟩
  · exact ⟨s', h, by rw [if_neg hk, add_zero]⟩

theorem tokens_moved {k : ℤ} {t' : Token} (hk : 0 < k)
    (h : (moved db now id tokenId delta).tokens.get? k = some t') :
    ∃ t, db.tokens.get? k = some t ∧ t'.unlimitedQuota = t.unlimitedQuota ∧
      (t.unlimitedQuota = false → t'.usedQuota = t.usedQuota + if k = tokenId then delta else 0) := by
  have hsame : db.tokens.get? k = some t' → k ≠ tokenId →
      ∃ t, db.tokens.get? k = some t ∧ t'.unlimitedQuota = t.unlimitedQuota ∧
        (t.unlimitedQuota = false →
          t'.usedQuota = t.usedQuota + if k = tokenId then delta else 0) :=
    fun ht hne => ⟨t', ht, rfl, fun _ => by rw [if_neg hne, add_zero]⟩
  unfold moved at h
  split_ifs at h with htoken
  · rw [get?_modify] at h
    split_ifs at h with hkt
    · obtain ⟨t, ht, rfl⟩ := map_eq_some_iff.1 h
      refine ⟨t, ht, tokenQuotaUpdates_unlimitedQuota now delta t, fun hl => ?_⟩
      rw [tokenQuotaUpdates_usedQuota, hl, if_pos hkt]
      rfl
    · exact hsame h hkt
  · exact hsame h (by omega)

/-- A charge of a request, or a return that its charges since the last reset cover. -/
theorem inv_move (hw : Inv w) (hr : w.requests.get? requestId = some r) (hdb : SameQuota w.db db)
    (hrefunds : ∀ id, db.asyncTaskRefundRecords.get? id ≠ none →
      ∃ task, db.tasks.get? id = some task ∧ task.status = .failure)
    (hdelta : 0 ≤ r.sinceReset + delta) :
    Inv (w.move (moved db now r.subscriptionId r.tokenId delta) requestId delta) := by
  obtain ⟨husers, htokens⟩ := users_moved db now r.subscriptionId r.tokenId delta
  rw [hdb.subscriptions] at husers
  rw [hdb.tokens] at htokens
  have hget : ∀ k, (w.requests.modify requestId (Request.move delta)).get? k =
      if k = requestId then (w.requests.get? k).map (Request.move delta) else w.requests.get? k :=
    fun k => get?_modify _ _ _ _
  have hok := hw.request requestId r hr
  refine ⟨fun id s' hs' => ?_, hw.earlier, fun rid r' hr' => ?_, fun rid record hrec => ?_,
    fun rid hrec => ?_, fun id t' hpos ht' hl => ?_, hrefunds⟩
  · obtain ⟨s, hs, ha⟩ := usage_moved hs'
    rw [hdb.subscriptions] at hs
    show _ = w.earlier id + (w.requests.modify requestId _).sum _
    rw [ha, hw.usage id s hs, sum_modify hr]
    by_cases hid : id = r.subscriptionId
    · simp only [usageShare, Request.move, hid, if_true]
      ring
    · simp only [usageShare, Request.move, Ne.symm hid, hid, if_false]
      ring
  · rw [show World.requests _ = w.requests.modify requestId (Request.move delta) from rfl,
      hget] at hr'
    split_ifs at hr' with hrid
    · rw [hrid, hr, map_some] at hr'
      cases hr'
      exact hok.of_rows husers htokens ⟨rfl, rfl, rfl⟩ hdelta
        (by simp only [Request.move]; linarith [hok.le_charged])
    · have hok' := hw.request rid r' hr'
      exact hok'.of_rows husers htokens ⟨rfl, rfl, rfl⟩ hok'.nonneg hok'.le_charged
  · obtain ⟨record₀, hrec₀, hu, hs, ht, hpre⟩ := hdb.records.get?_after hrec
    obtain ⟨r₀, hr₀, hof⟩ := hw.records rid record₀ hrec₀
    by_cases hrid : rid = requestId
    · refine ⟨r₀.move delta, (hget rid).trans (by rw [if_pos hrid, hr₀, map_some]), ?_⟩
      exact ⟨hof.notBlank, hu.trans hof.userId, hs.trans hof.subscriptionId, ht.trans hof.tokenId,
        hpre hof.preConsumed⟩
    · refine ⟨r₀, (hget rid).trans (by rw [if_neg hrid, hr₀]), ?_⟩
      exact ⟨hof.notBlank, hu.trans hof.userId, hs.trans hof.subscriptionId, ht.trans hof.tokenId,
        hpre hof.preConsumed⟩
  · have hnone : w.requests.get? rid = none := by
      refine hw.fresh rid ?_
      cases h₀ : w.db.subscriptionPreConsumeRecords.get? rid with
      | none => rfl
      | some record₀ =>
        obtain ⟨record, hrec', -⟩ := hdb.records.get? h₀
        exact absurd (hrec.symm.trans hrec') (some_ne_none record).symm
    refine (hget rid).trans ?_
    rw [hnone, map_none, ite_self]
  · obtain ⟨t, ht, hunl, hused⟩ := tokens_moved hpos ht'
    rw [hdb.tokens] at ht
    rw [hunl] at hl
    have hle := hw.tokens id t hpos ht hl
    show (w.requests.modify requestId _).sum _ ≤ _
    rw [hused hl, sum_modify hr]
    by_cases hid : id = r.tokenId
    · simp only [tokenShare, Request.move, hid, if_true] at hle ⊢
      linarith
    · simp only [tokenShare, Request.move, Ne.symm hid, hid, if_false] at hle ⊢
      linarith

theorem inv_charged {req : PreConsumeRequest} {result : SubscriptionPreConsumeResult}
    {s : UserSubscription} (hw : Inv w)
    (hreq : 0 < req.userId ∧ Strings.trimSpace req.requestId ≠ "" ∧ 0 < req.amount)
    (hs : w.db.userSubscriptions.get? id = some s) (huser : s.userId = req.userId)
    (h : Charged w.db req now id result db) :
    Inv { w with
      db
      requests := w.requests.put req.requestId
        { userId := req.userId
          subscriptionId := result.userSubscriptionId
          tokenId := req.tokenId
          charged := req.amount
          sinceReset := req.amount } } := by
  obtain ⟨huserPos, hblank, hamount⟩ := hreq
  obtain ⟨records, hinsert, rfl⟩ := h.record
  rw [h.result_id]
  obtain ⟨husers, htokens⟩ := users_moved { w.db with subscriptionPreConsumeRecords := records }
    now id req.tokenId req.amount
  have hfresh := hw.fresh req.requestId ((insert?_eq_some_iff _ _ _ _).1 hinsert).1
  have hget := get?_put w.requests req.requestId
  refine ⟨fun k s' hs' => ?_, hw.earlier, fun rid r' hr' => ?_, fun rid record hrec => ?_,
    fun rid hrec => ?_, fun k t' hpos ht' hl => ?_, hw.refunds⟩
  · obtain ⟨s₀, hs₀, ha⟩ := usage_moved hs'
    rw [ha, hw.usage k s₀ hs₀, sum_put_of_none hfresh]
    simp only [usageShare, eq_comm (a := k)]
    ring
  · dsimp only at hr'
    rw [hget] at hr'
    split_ifs at hr'
    · cases hr'
      refine ⟨huserPos, h.id_pos, ?_, fun hpos => ?_, hamount.le, le_rfl⟩
      · obtain ⟨s', hs', heq⟩ := husers.get? hs
        exact ⟨s', hs', heq.trans huser⟩
      · obtain ⟨t, ht, hsel, -⟩ := h.token hpos
        obtain ⟨t', ht', heq⟩ := htokens.get? ht
        refine ⟨t', ht', heq.trans ?_⟩
        simp only [tokenSelected, Bool.and_eq_true, Bool.or_eq_true, decide_eq_true_eq,
          beq_iff_eq] at hsel
        exact hsel.2.resolve_left (by omega)
    · have hok := hw.request rid r' hr'
      exact hok.of_rows husers htokens ⟨rfl, rfl, rfl⟩ hok.nonneg hok.le_charged
  · have hrec' := (get?_of_insert? hinsert rid).symm.trans hrec
    rw [hget]
    split_ifs at hrec' ⊢ with hrid
    · cases hrec'
      exact ⟨_, rfl, hrid ▸ hblank, rfl, rfl, rfl, hamount⟩
    · exact hw.records rid record hrec'
  · have hrec' := (get?_of_insert? hinsert rid).symm.trans hrec
    rw [hget]
    split_ifs at hrec' ⊢ with hrid
    exact hw.fresh rid hrec'
  · obtain ⟨t, ht, hunl, hused⟩ := tokens_moved hpos ht'
    rw [hunl] at hl
    have hle := hw.tokens k t hpos ht hl
    rw [hused hl, sum_put_of_none hfresh]
    simp only [tokenShare, eq_comm (a := k)]
    linarith

/-! ## Returns are moves -/

/-- What a return does: it is accepted exactly when its guards hold, and then it is a move. -/
structure ReturnSpec (strict : Bool) (w : World) (a : Label) (requestId : String) (n : ℤ)
    (r : Request) (db : Db) (now : ℤ) : Prop where
  request : w.requests.get? requestId = some r
  pos : 0 < n
  same : SameQuota w.db db
  refunds : ∀ id, db.asyncTaskRefundRecords.get? id ≠ none →
    ∃ task, db.tasks.get? id = some task ∧ task.status = .failure
  exec_iff : ∀ w', exec strict w a = .ok w' ↔
    Movable w.db r.subscriptionId r.userId r.tokenId (-n) ∧
      w' = w.move (moved db now r.subscriptionId r.tokenId (-n)) requestId (-n)

theorem bind_move_eq_ok_iff {x : Except String Db} {p : Prop} {db₁ : Db}
    (hx : ∀ db, x = .ok db ↔ p ∧ db = db₁) :
    (x >>= fun db => .ok (w.move db requestId delta)) = .ok w' ↔
      p ∧ w' = w.move db₁ requestId delta := by
  rw [bind_eq_ok_iff]
  constructor
  · rintro ⟨db, hdb, h⟩
    obtain ⟨hp, rfl⟩ := (hx db).1 hdb
    exact ⟨hp, (Except.ok.inj h).symm⟩
  · rintro ⟨hp, rfl⟩
    exact ⟨db₁, (hx db₁).2 ⟨hp, rfl⟩, rfl⟩

theorem returnSpec_settle (hw : Inv w)
    (h : returned w (.settle now rid delta) = some (requestId, n)) :
    ∃ r db, ReturnSpec strict w (.settle now rid delta) requestId n r db now := by
  rw [returned] at h
  split_ifs at h with hret
  obtain ⟨rfl, rfl⟩ := Prod.mk.inj (some.inj h)
  obtain ⟨hneg, htoken⟩ := hret
  obtain ⟨r, hr, hpos⟩ := (any_eq_true _ _).1 htoken
  rw [decide_eq_true_eq] at hpos
  have hok := hw.request rid r hr
  refine ⟨r, w.db, hr, by omega, SameQuota.refl _, hw.refunds, fun w' => ?_⟩
  rw [exec, hr, neg_neg]
  refine bind_move_eq_ok_iff fun db => ?_
  rw [adjustSubscriptionTokenQuota_eq_ok_iff (by omega)]
  exact ⟨fun h => h.2, fun h => ⟨⟨hok.user_pos, hok.subscription_pos, hpos⟩, h⟩⟩

theorem returnSpec_refund (hw : Inv w) (h : returned w (.refund now rid) = some (requestId, n)) :
    ∃ r db, ReturnSpec strict w (.refund now rid) requestId n r db now := by
  rw [returned] at h
  obtain ⟨m, hm, he⟩ := map_eq_some_iff.1 h
  obtain ⟨rfl, rfl⟩ := Prod.mk.inj he
  have hrefundable := hm
  unfold refundable at hm
  split at hm
  · rename_i record hrecord
    split_ifs at hm with hstatus
    obtain rfl := some.inj hm
    obtain ⟨r, hr, hof⟩ := hw.records rid record hrecord
    have hsame : SameQuota w.db { w.db with
        subscriptionPreConsumeRecords := w.db.subscriptionPreConsumeRecords.modify rid
          fun r => { r with status := .refunded, updatedAt := now } } :=
      ⟨rfl, rfl, rel_modify (fun _ _ => ⟨rfl, rfl, rfl, fun h => h⟩)
        fun _ _ _ => ⟨rfl, rfl, rfl, fun h => h⟩⟩
    refine ⟨r, _, hr, hof.preConsumed, hsame, hw.refunds, fun w' => ?_⟩
    rw [exec, hrefundable, getD_some]
    refine bind_move_eq_ok_iff fun db => ?_
    unfold refundSubscriptionPreConsume
    rw [if_neg hof.notBlank, hrecord]
    rw [refund_eq_ok_iff hrecord hstatus hof.preConsumed, hof.userId, hof.subscriptionId,
      hof.tokenId]
  · cases hm

theorem returnSpec_taskRefund {quota : ℤ} {fromStatus : TaskStatus} (hw : Inv w)
    (h : returned w (.taskRefund now rid id quota fromStatus) = some (requestId, n)) :
    ∃ r db, ReturnSpec strict w (.taskRefund now rid id quota fromStatus) requestId n r db now := by
  rw [returned] at h
  split_ifs at h with hret
  obtain ⟨rfl, rfl⟩ := Prod.mk.inj (some.inj h)
  obtain ⟨hid, hquota, hfail, hsucc, hrow, hreq⟩ := hret
  obtain ⟨row, hrow, hrowStatus⟩ := (any_eq_true _ _).1 hrow
  rw [decide_eq_true_eq] at hrowStatus
  obtain ⟨r, hr⟩ := isSome_iff_exists.1 hreq
  have hok := hw.request rid r hr
  -- a task with a refund has failed, and this one has not
  have hnone : w.db.asyncTaskRefundRecords.get? id = none := by
    by_contra hsome
    obtain ⟨task, htask, hstatus⟩ := hw.refunds id hsome
    obtain rfl := some.inj (hrow.symm.trans htask)
    exact hfail (hrowStatus.symm.trans hstatus)
  obtain ⟨refunds, hrefunds⟩ : ∃ refunds, w.db.asyncTaskRefundRecords.insert? id
      { userId := r.userId
        tokenId := r.tokenId
        userSubscriptionId := r.subscriptionId
        billingSource := "subscription"
        quota } = some refunds := by
    refine ne_none_iff_exists'.1 fun hi => ?_
    exact (get?_eq_none_iff _ _).1 hnone ((insert?_eq_none_iff _ _ _).1 hi)
  refine ⟨r, { w.db with
      tasks := w.db.tasks.modify id fun _ => r.task quota
      asyncTaskRefundRecords := refunds }, hr, hquota,
    ⟨rfl, rfl, Table.Rel.refl fun _ _ _ => ⟨rfl, rfl, rfl, fun h => h⟩⟩, fun k hk => ?_,
    fun w' => ?_⟩
  · dsimp only at hk ⊢
    rw [get?_of_insert? hrefunds] at hk
    rw [get?_modify]
    split_ifs at hk ⊢ with hkid
    · exact ⟨r.task quota, by rw [hkid, hrow, map_some], rfl⟩
    · exact hw.refunds k hk
  · rw [exec]
    rw [hr]
    rw [bind_eq_ok_iff]
    have hspec := fun db won => @updateFailureWithRefund_eq_ok_iff w.db db now id (r.task quota) row
      fromStatus won refunds hid hok.user_pos hquota rfl rfl hok.subscription_pos ⟨hfail, hsucc⟩ hrow
      hrowStatus hrefunds
    constructor
    · rintro ⟨⟨db, won⟩, h₁, h₂⟩
      obtain ⟨hm, rfl, rfl⟩ := (hspec db won).1 h₁
      exact ⟨hm, (Except.ok.inj h₂).symm⟩
    · rintro ⟨hm, rfl⟩
      exact ⟨⟨_, true⟩, (hspec _ true).2 ⟨hm, rfl, rfl⟩, rfl⟩

theorem returnSpec_of_returned (strict : Bool) (hw : Inv w) (h : returned w a = some (requestId, n))
    : ∃ r db now, ReturnSpec strict w a requestId n r db now := by
  cases a with
  | settle now rid delta =>
    obtain ⟨r, db, hspec⟩ := returnSpec_settle hw h
    exact ⟨r, db, now, hspec⟩
  | refund now rid =>
    obtain ⟨r, db, hspec⟩ := returnSpec_refund hw h
    exact ⟨r, db, now, hspec⟩
  | taskRefund now rid id quota fromStatus =>
    obtain ⟨r, db, hspec⟩ := returnSpec_taskRefund hw h
    exact ⟨r, db, now, hspec⟩
  | preConsume _ _ => cases h
  | reserve _ _ _ _ _ _ => cases h
  | resetDue _ _ => cases h
  | adminReset _ _ _ _ => cases h

/-! ## Every run -/

theorem World.move_zero (w : World) (requestId : String) : w.move w.db requestId 0 = w := by
  have hself : w.requests.modify requestId (Request.move 0) = w.requests :=
    modify_eq_self fun r _ => by simp [Request.move]
  unfold World.move
  rw [hself]

section
variable (hw : Inv w)
include hw

theorem inv_preConsume {req : PreConsumeRequest}
    (h : exec strict w (.preConsume now req) = .ok w') : Inv w' := by
  rw [exec] at h
  obtain ⟨⟨db, result, resets⟩, hpre, h⟩ := bind_eq_ok_iff.1 h
  obtain ⟨hreq, ⟨record, hrecord, rfl, rfl⟩ | ⟨hnone, db₁, id, s, hreset, hs, huser, hcharged⟩⟩ :=
    preConsumeUserSubscription_of_ok hpre
  · dsimp only at h
    rw [hrecord] at h
    cases h
    exact inv_reset hw (Resets.refl w.db)
  · dsimp only at h
    rw [hnone] at h
    cases h
    obtain ⟨s₁, hs₁, hu₁, -⟩ := hreset.rows.get? hs
    exact inv_charged (w := { w.reset resets with db := db₁ }) (inv_reset hw hreset) hreq hs₁
      (hu₁.trans huser) hcharged

theorem inv_reserve {userId userSubscriptionId : ℤ}
    (h : exec strict w (.reserve now requestId userId userSubscriptionId tokenId delta) = .ok w') :
    Inv w' := by
  rw [exec] at h
  obtain ⟨db, hreserve, h⟩ := bind_eq_ok_iff.1 h
  obtain ⟨hpos, -, ⟨record, hrecord, rfl, rfl, rfl⟩, -, rfl⟩ := reserve_of_ok hreserve
  cases h
  obtain ⟨r, hr, hof⟩ := hw.records requestId record hrecord
  rw [hof.subscriptionId, hof.tokenId]
  refine inv_move hw hr ⟨rfl, rfl, rel_modify (fun _ _ => ⟨rfl, rfl, rfl, fun h => ?_⟩)
    fun _ _ _ => ⟨rfl, rfl, rfl, fun h => h⟩⟩ hw.refunds ?_
  · dsimp only
    omega
  · have := (hw.request requestId r hr).nonneg
    omega

theorem inv_settle (hret : returned w (.settle now requestId delta) = none)
    (h : exec strict w (.settle now requestId delta) = .ok w') : Inv w' := by
  rw [exec] at h
  split at h
  · cases h
  rename_i r hr
  obtain ⟨db, hadjust, h⟩ := bind_eq_ok_iff.1 h
  cases h
  by_cases hdelta : delta = 0
  · subst hdelta
    obtain rfl := eq_of_adjustSubscriptionTokenQuota_zero hadjust
    rw [World.move_zero]
    exact hw
  · obtain ⟨⟨-, -, htoken⟩, -, rfl⟩ := (adjustSubscriptionTokenQuota_eq_ok_iff hdelta).1 hadjust
    have hpos : ¬ delta < 0 := by
      intro hneg
      rw [returned, if_pos ⟨hneg, by simp [hr, htoken]⟩] at hret
      cases hret
    have := (hw.request requestId r hr).nonneg
    exact inv_move hw hr (SameQuota.refl _) hw.refunds (by omega)

theorem inv_refund (hret : returned w (.refund now requestId) = none)
    (h : exec strict w (.refund now requestId) = .ok w') : Inv w' := by
  rw [returned, map_eq_none_iff] at hret
  rw [exec, hret] at h
  obtain ⟨db, hrefund, h⟩ := bind_eq_ok_iff.1 h
  cases h
  unfold refundSubscriptionPreConsume at hrefund
  split_ifs at hrefund
  split at hrefund
  · cases hrefund
  · rename_i record hrecord
    have hstatus : record.status = .refunded := by
      rw [refundable, hrecord] at hret
      cases hs : record.status with
      | refunded => rfl
      | consumed => simp [hs] at hret
    rw [refundPreConsumeRecord, if_pos hstatus] at hrefund
    cases hrefund
    rw [getD_none, neg_zero, World.move_zero]
    exact hw

theorem inv_taskRefund {quota : ℤ} {fromStatus : TaskStatus}
    (hret : returned w (.taskRefund now requestId id quota fromStatus) = none)
    (h : exec strict w (.taskRefund now requestId id quota fromStatus) = .ok w') : Inv w' := by
  rw [exec] at h
  split at h
  · cases h
  rename_i r hr
  obtain ⟨⟨db, won⟩, hupdate, h⟩ := bind_eq_ok_iff.1 h
  cases h
  obtain ⟨-, rfl⟩ | ⟨-, hid, hquota, hfail, hsucc, -, ⟨row, hrow, hstatus⟩, -⟩ :=
    updateFailureWithRefund_of_ok hupdate
  · exact hw
  · rw [returned, if_pos ⟨hid, hquota, hfail, hsucc, by simp [hrow, hstatus], by simp [hr]⟩] at hret
    cases hret

theorem exec_inv (hcovered : Covered w a) (h : exec strict w a = .ok w') : Inv w' := by
  cases hret : returned w a with
  | some p =>
    obtain ⟨requestId, n⟩ := p
    obtain ⟨r, db, now, hspec⟩ := returnSpec_of_returned strict hw hret
    obtain ⟨r', hr', hle⟩ := hcovered requestId n hret
    cases hspec.request.symm.trans hr'
    obtain ⟨-, rfl⟩ := (hspec.exec_iff w').1 h
    exact inv_move hw hspec.request hspec.same hspec.refunds (by omega)
  | none =>
    cases a with
    | preConsume now req => exact inv_preConsume hw h
    | reserve now requestId userId userSubscriptionId tokenId delta => exact inv_reserve hw h
    | settle now requestId delta => exact inv_settle hw hret h
    | refund now requestId => exact inv_refund hw hret h
    | taskRefund now requestId id quota fromStatus => exact inv_taskRefund hw hret h
    | resetDue now id =>
      rw [exec] at h
      obtain ⟨⟨db, advanced⟩, hreset, h⟩ := bind_eq_ok_iff.1 h
      cases h
      exact inv_reset hw (resetDueSubscriptionById_of_ok hreset)
    | adminReset now planId userId advanceResetTime =>
      rw [exec] at h
      obtain ⟨⟨db, ids⟩, hreset, h⟩ := bind_eq_ok_iff.1 h
      cases h
      exact inv_reset hw (adminResetSubscriptions_of_ok hreset)

theorem step_inv (hcovered : Covered w a) (h : step strict w a = some w') :
    Inv w' := by
  unfold step at h
  cases he : exec strict w a with
  | ok w₁ =>
    rw [he] at h
    cases h
    exact exec_inv hw hcovered he
  | error e =>
    rw [he] at h
    cases h
    exact hw

/-! ## When a return survives -/

theorem usageOfOthers_eq {s : UserSubscription} (hr : w.requests.get? requestId = some r)
    (hs : w.db.userSubscriptions.get? r.subscriptionId = some s) :
    usageOfOthers w r.subscriptionId requestId = s.amountUsed - r.sinceReset := by
  unfold usageOfOthers
  rw [hw.usage _ s hs, sum_eq_add_of_get? hr (usageShare r.subscriptionId)
    (fun k r' => if k = requestId then 0 else usageShare r.subscriptionId k r')
    fun k r' hk => by simp [hk]]
  simp only [usageShare, if_true]
  ring

theorem movable_of_covered (hr : w.requests.get? requestId = some r) (hpos : 0 < n)
    (hle : n ≤ r.sinceReset) : Movable w.db r.subscriptionId r.userId r.tokenId (-n) := by
  have hok := hw.request requestId r hr
  constructor
  · obtain ⟨s, hs, huser⟩ := hok.subscription
    have hshare : r.sinceReset ≤ w.requests.sum (usageShare r.subscriptionId) := by
      have := le_sum (g := usageShare r.subscriptionId) hr fun k r' hr' => by
        unfold usageShare
        split_ifs
        · exact (hw.request k r' hr').nonneg
        · exact le_rfl
      simpa [usageShare] using this
    have hused := hw.usage _ s hs
    have hearlier := hw.earlier r.subscriptionId
    refine ⟨s, hs, huser, ?_⟩
    unfold usageGuard
    rw [if_neg (by omega), decide_eq_true_eq]
    omega
  · intro htoken
    obtain ⟨t, ht, huser⟩ := hok.token htoken
    refine ⟨t, ht, by simp [tokenSelected, huser, hpos], ?_⟩
    unfold tokenQuotaGuard
    rw [if_neg (by omega)]
    cases hl : t.unlimitedQuota with
    | true => rfl
    | false =>
      have hshare : r.charged ≤ w.requests.sum (tokenShare r.tokenId) := by
        have := le_sum (g := tokenShare r.tokenId) hr fun k r' hr' => by
          have hok' := hw.request k r' hr'
          unfold tokenShare
          split_ifs
          · exact hok'.nonneg.trans hok'.le_charged
          · exact le_rfl
        simpa [tokenShare] using this
      have hused := hw.tokens r.tokenId t htoken ht hl
      have hcharged := hok.le_charged
      rw [Bool.false_or, decide_eq_true_eq]
      omega

theorem returns_iff (hret : returned w a = some (requestId, n)) :
    Returns strict w a requestId n ↔ Covered w a := by
  obtain ⟨r, db, now, hspec⟩ := returnSpec_of_returned strict hw hret
  have hok := hw.request requestId r hspec.request
  constructor
  · rintro ⟨w', r', s, s', -, hr', hs, -, hothers, hused, -⟩
    intro requestId' n' hret'
    obtain ⟨rfl, rfl⟩ := Prod.mk.inj (some.inj (hret.symm.trans hret'))
    refine ⟨r', hr', ?_⟩
    rw [usageOfOthers_eq hw hr' hs] at hothers
    omega
  · intro hcovered
    obtain ⟨r', hr', hle⟩ := hcovered requestId n hret
    cases hspec.request.symm.trans hr'
    have hm := movable_of_covered hw hspec.request hspec.pos hle
    obtain ⟨s, hs, -⟩ := hok.subscription
    have hs' : (moved db now r.subscriptionId r.tokenId (-n)).userSubscriptions.get?
        r.subscriptionId = some (usageUpdates now (-n) s) := by
      show (db.userSubscriptions.modify _ _).get? _ = _
      rw [hspec.same.subscriptions, get?_modify_self, hs, map_some]
    refine ⟨_, r, s, _, (hspec.exec_iff _).2 ⟨hm, rfl⟩, hspec.request, hs, hs', ?_, ?_, fun htoken => ?_⟩
    · rw [usageOfOthers_eq hw hspec.request hs]
      simp only [usageUpdates]
      omega
    · simp only [usageUpdates]
      ring
    · obtain ⟨t, ht, -⟩ := hm.2 htoken
      refine ⟨t, tokenQuotaUpdates now (-n) t, ht, ?_, ?_, ?_⟩
      · show (if 0 < r.tokenId then db.tokens.modify r.tokenId _ else db.tokens).get? _ = _
        rw [if_pos htoken, hspec.same.tokens, get?_modify_self, ht, map_some]
      · rw [tokenQuotaUpdates_usedQuota, sub_eq_add_neg]
      · rw [tokenQuotaUpdates_remainQuota, sub_neg_eq_add]

end

/-- While returns are covered by the charges since the last reset, the next return is accepted, gives all
of it back and leaves the usage of the other requests alone exactly when it is covered too. -/
theorem returns_iff_of_run {strict : Bool} {w w' : World} {l : List Label} (hstart : Start w)
    (hcovered : Run.Along (step strict) Covered w l) (h : Run.run (step strict) w l = some w')
    {a : Label} {requestId : String} {n : ℤ} (hret : returned w' a = some (requestId, n)) :
    Returns strict w' a requestId n ↔ Covered w' a :=
  returns_iff (Run.invariant_along (fun _ _ _ hi hc hs => step_inv hi hc hs) (inv_of_start hstart)
    hcovered h) hret

/-! ## A reset between the charge and its return -/

def resetWorld : World where
  db :=
    { tokens := Table.empty.put 7 { userId := 1, remainQuota := 500 }
      subscriptionPlans := Table.empty.put 3 { boundGroup := "codex", totalAmount := 100 }
      userSubscriptions :=
        Table.empty.put 5 { userId := 1, planId := 3, amountTotal := 100, endTime := 9000 } }
  earlier := fun _ => 0

theorem start_resetWorld : Start resetWorld := by
  refine ⟨rfl, rfl, fun id s hs => ?_, fun _ => le_rfl, fun id t ht _ => ?_, fun id hid => ?_⟩
  · obtain rfl : s = _ := (Prod.mk.inj (List.mem_singleton.1 ((get?_eq_some_iff _ _ _).1 hs))).2
    rfl
  · obtain rfl : t = _ := (Prod.mk.inj (List.mem_singleton.1 ((get?_eq_some_iff _ _ _).1 ht))).2
    exact le_rfl
  · exact absurd rfl hid

/-- A request is charged 60 of 100, and the quota of its plan is reset. -/
def chargeThenReset : List Label :=
  [.preConsume 10 { requestId := "a", userId := 1, tokenId := 7, amount := 60, usingGroup := "codex" },
    .adminReset 20 3 none false]

theorem refund_rejected_after_reset :
    ∃ w', Start resetWorld ∧ Run.run (step true) resetWorld chargeThenReset = some w' ∧
      returned w' (.refund 30 "a") = some ("a", 60) ∧
      (w'.requests.get? "a").map Request.charged = some 60 ∧
      ¬ Returns true w' (.refund 30 "a") "a" 60 := by
  obtain ⟨w', h, hreturned, hcharged, hexec⟩ : ∃ w',
      Run.run (step true) resetWorld chargeThenReset = some w' ∧
      returned w' (.refund 30 "a") = some ("a", 60) ∧
      (w'.requests.get? "a").map Request.charged = some 60 ∧
      (exec true w' (.refund 30 "a")).toOption.isNone := by
    decide
  refine ⟨w', start_resetWorld, h, hreturned, hcharged, ?_⟩
  rintro ⟨w'', -, -, -, hok, -⟩
  rw [hok] at hexec
  cases hexec

/-- A request that is charged after the reset is refunded in full. -/
theorem returns_of_chargeAfterReset :
    ∃ w', Run.run (step true) resetWorld (chargeThenReset ++ [.preConsume 25
          { requestId := "b", userId := 1, tokenId := 7, amount := 30, usingGroup := "codex" }]) =
          some w' ∧
      Returns true w' (.refund 30 "b") "b" 30 := by
  exact exists_some_imp (p := fun w => returned w (.refund 30 "b") = some ("b", 30) ∧
    Covered w (.refund 30 "b")) (by decide) fun w' h ⟨hreturned, hcovered⟩ =>
      (returns_iff_of_run start_resetWorld (by decide) h hreturned).2 hcovered

end BeeApi.Subscription.Refund
