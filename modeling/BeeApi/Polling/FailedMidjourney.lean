import BeeApi.Polling.MidjourneyCharge

/-!
# A failed Midjourney task has cost nothing

What a task still owes is a function of the state: the cost of the charge in its row, until its refund
is there.  Every step takes from each account what it adds to that debt, so a run has taken what its
last state owes.
-/

namespace BeeApi.Polling

open Subscription Transaction Option Table Run

/-! ## The system -/

/-- The database, the submissions that have not returned, by the key of the row they inserted, and the
copies that the pollers hold. -/
structure MjWorld where
  db : MjDb
  submissions : Table ℤ Submission := ∅
  copies : Table ℤ (ℤ × Midjourney) := ∅

inductive MjLabel
  /-- `RelayMidjourneySubmit` inserts the row; keys are never used again. -/
  | insert (id nowMs : ℤ) (s : Submission)
  /-- `RelayMidjourneySubmit` returns. -/
  | finish (id now : ℤ) (o : Outcome)
  /-- `GetAllUnFinishTasks` returns the row. -/
  | load (copy id : ℤ)
  | item (copy nowMs now : ℤ) (o : Outcome) (responseItem : MidjourneyDto)
  /-- The tasks without an upstream id. -/
  | failNull (copies : List ℤ)
  /-- The tasks of a channel that is not found. -/
  | failChannel (copies : List ℤ) (channelId : ℤ)
  /-- Any other writer; it leaves the rows of the tasks, their refunds and the kinds of the tokens
  alone. -/
  | other (main : Db)

instance (db db' : Db) : Decidable (KeepsTokens db db') :=
  decidable_of_iff
    (∀ id ∈ db.tokens.keys, ∀ t ∈ db.tokens.get? id,
      ((db'.tokens.get? id).any fun t' => t'.unlimitedQuota = t.unlimitedQuota) = true)
    (by
      simp only [any_eq_true, decide_eq_true_eq]
      exact ⟨fun h id t ht => h id ((mem_keys_iff _ _).2 ⟨t, ht⟩) t ht,
        fun h id _ t ht => h id t ht⟩)

def MjWorld.held (w : MjWorld) (copies : List ℤ) : List (ℤ × Midjourney) :=
  copies.filterMap w.copies.get?

def finishSubmission (o : Outcome) (db : MjDb) (now id : ℤ) (s : Submission) : MjDb :=
  if s.consumesQuota then
    (withOutcome o db ((consumeMidjourneyQuota db now id s.info s.quota).map fun db => (db, ()))).1
  else db

def mjStep (w : MjWorld) : MjLabel → Option MjWorld
  | .insert id nowMs s =>
    if 0 < id ∧ w.db.midjourneys.get? id = none ∧ w.db.refunds.get? id = none then
      some { w with
        db := { w.db with midjourneys := w.db.midjourneys.put id (s.midjourneyTask nowMs) }
        submissions := w.submissions.put id s }
    else none
  | .finish id now o =>
    match w.submissions.get? id with
    | some s =>
      some { w with
        db := finishSubmission o w.db now id s
        submissions := w.submissions.erase id }
    | none => none
  | .load copy id =>
    match w.db.midjourneys.get? id with
    | some row =>
      if row.progress ≠ "100%" then some { w with copies := w.copies.put copy (id, row) } else none
    | none => none
  | .item copy nowMs now o responseItem =>
    match w.copies.get? copy with
    | some (id, t) =>
      if t.mjId ≠ "" ∧ responseItem.mjId = t.mjId then
        let (db, t) := updateMidjourneyTask o w.db nowMs now id t responseItem
        some { w with db, copies := w.copies.put copy (id, t) }
      else none
    | none => none
  | .failNull copies =>
    let tasks := w.held copies
    if ∀ e ∈ tasks, e.2.mjId = "" then
      some { w with db := mjBulkUpdateByTaskIds w.db (tasks.map Prod.fst) }
    else none
  | .failChannel copies channelId =>
    let tasks := w.held copies
    if ∀ e ∈ tasks, e.2.mjId ≠ "" ∧ e.2.channelId = channelId then
      some { w with db := mjBulkUpdate w.db (tasks.map fun e => e.2.mjId) channelId }
    else none
  | .other main =>
    if KeepsTokens w.db.main main then some { w with db := { w.db with main } } else none

/-! ## What is claimed of a task -/

/-- The task whose money a step can move. -/
def payingTask (w : MjWorld) : MjLabel → Option ℤ
  | .finish id _ _ => some id
  | .item copy _ _ _ _ => (w.copies.get? copy).map Prod.fst
  | _ => none

/-- What a step takes from an account for the task `id`. -/
def taken (id : ℤ) (account : Account) (w : MjWorld) (a : MjLabel) (w' : MjWorld) : ℤ :=
  if payingTask w a = some id then balance w.db.main account - balance w'.db.main account else 0

/-- One when the step writes the refund record of the task. -/
def refunded (id : ℤ) (w : MjWorld) (_ : MjLabel) (w' : MjWorld) : ℤ :=
  if w.db.refunds.get? id = none ∧ w'.db.refunds.get? id ≠ none then 1 else 0

def MjLabel.IsPoller : MjLabel → Prop
  | .load _ _ | .item _ _ _ _ _ | .failNull _ | .failChannel _ _ => True
  | _ => False

/-- In a run from `w` to `w'` the task is refunded at most once, which returns to every account what was
taken; no other step of a poller moves money or writes the columns of the charge.  When the submission has
returned and the row is a failure at 100%, nothing is taken from any account. -/
structure CostsNothing (id : ℤ) (w : MjWorld) (l : List MjLabel) (w' : MjWorld) : Prop where
  once : Run.total mjStep (refunded id) w l ≤ 1
  returned : ∀ l₁ a l₂ w₁ w₂, l = l₁ ++ a :: l₂ → Run.run mjStep w l₁ = some w₁ →
    mjStep w₁ a = some w₂ → a.IsPoller → ∀ account, taken id account w₁ a w₂ =
        if refunded id w₁ a w₂ = 1 then -Run.total mjStep (taken id account) w l₁ else 0
  kept : ∀ l₁ a l₂ w₁ w₂, l = l₁ ++ a :: l₂ → Run.run mjStep w l₁ = some w₁ →
    mjStep w₁ a = some w₂ → a.IsPoller → ∀ row row', w₁.db.midjourneys.get? id = some row →
      w₂.db.midjourneys.get? id = some row' → SameCharge row row'
  nothing : w'.submissions.get? id = none →
    (∃ row, w'.db.midjourneys.get? id = some row ∧ row.Failed) →
      ∀ account, Run.total mjStep (taken id account) w l = 0

/-- The states in which a run starts: the task is not there yet. -/
structure MjStart (id : ℤ) (w : MjWorld) : Prop where
  row : w.db.midjourneys.get? id = none
  refund : w.db.refunds.get? id = none
  copies : ∀ copy t, w.copies.get? copy ≠ some (id, t)

def ChargeReturned (id : ℤ) (w : MjWorld) (row : Midjourney) : Prop :=
  row.quota = 0 ∨ w.db.refunds.get? id ≠ none

/-- The step does not lose the charge of the task: a failed row is not charged, a copy with the status of
the row carries its charge, and a bulk failure finds a row whose charge is returned. -/
def Safe (id : ℤ) (w : MjWorld) : MjLabel → Prop
  | .finish id' _ o => id' = id → ∀ s ∈ w.submissions.get? id, ∀ row ∈ w.db.midjourneys.get? id,
      s.consumesQuota = true → o ≠ .rolledBack → funded w.db.main s.info s.quota = true →
        ¬ row.Failed
  | .item copy nowMs _ o responseItem => ∀ e ∈ w.copies.get? copy, e.1 = id →
      ∀ row ∈ w.db.midjourneys.get? id, o ≠ .rolledBack →
        checkMjTaskNeedUpdate e.2 (withTimeout nowMs e.2 responseItem) = true →
          row.status = e.2.status → SameCharge row e.2
  | .failNull copies => ∀ row ∈ w.db.midjourneys.get? id,
      id ∈ (w.held copies).map Prod.fst → ChargeReturned id w row
  | .failChannel copies _ => ∀ row ∈ w.db.midjourneys.get? id,
      row.mjId ∈ ((w.held copies).map fun e => e.2.mjId) → ChargeReturned id w row
  | _ => True

instance (id : ℤ) (w : MjWorld) (row : Midjourney) : Decidable (ChargeReturned id w row) :=
  inferInstanceAs (Decidable (_ ∨ _))

instance (id : ℤ) (w : MjWorld) (a : MjLabel) : Decidable (Safe id w a) :=
  match a with
  | .finish _ _ _ => inferInstanceAs (Decidable (_ → _))
  | .item _ _ _ _ _ => inferInstanceAs (Decidable (∀ e ∈ _, _))
  | .failNull _ => inferInstanceAs (Decidable (∀ row ∈ _, _))
  | .failChannel _ _ => inferInstanceAs (Decidable (∀ row ∈ _, _))
  | .insert _ _ _ | .load _ _ | .other _ => isTrue trivial

/-! ## The debt -/

/-- What has been taken for the task and not returned. -/
def owed (id : ℤ) (db : MjDb) (account : Account) : ℤ :=
  match db.midjourneys.get? id, db.refunds.get? id with
  | some row, none => cost db.main row.userId row.tokenId row.subscriptionId row.quota account
  | _, _ => 0

variable {id now id' copy : ℤ} {db db' : MjDb} {row row' t : Midjourney} {w w' : MjWorld}
  {s : Submission} {a : MjLabel}

theorem owed_of_refund (h : db.refunds.get? id ≠ none) (account : Account) :
    owed id db account = 0 := by
  unfold owed
  cases hr : db.refunds.get? id with
  | none => exact absurd hr h
  | some record => cases db.midjourneys.get? id <;> rfl

theorem owed_of_none (h : db.midjourneys.get? id = none) (account : Account) :
    owed id db account = 0 := by
  unfold owed
  rw [h]

theorem owed_of_row (hrow : db.midjourneys.get? id = some row) (hrefund : db.refunds.get? id = none)
    (account : Account) :
    owed id db account =
      cost db.main row.userId row.tokenId row.subscriptionId row.quota account := by
  unfold owed
  rw [hrow, hrefund]

theorem owed_of_uncharged (hrow : db.midjourneys.get? id = some row) (hquota : row.quota = 0)
    (account : Account) : owed id db account = 0 := by
  cases hr : db.refunds.get? id with
  | none => rw [owed_of_row hrow hr, hquota, cost_zero]
  | some record => exact owed_of_refund (by rw [hr]; exact some_ne_none record) account

/-- The row of a charged task names a token that exists; a refund has a charge, and so has a charged
row that has failed a refund. -/
structure RowOk (id : ℤ) (db : MjDb) (row : Midjourney) : Prop where
  nonneg : 0 ≤ row.quota
  token : 0 < row.quota → 0 < row.tokenId → ∃ t, db.main.tokens.get? row.tokenId = some t
  refund : db.refunds.get? id ≠ none → 0 < row.quota
  failed : row.Failed → 0 < row.quota → db.refunds.get? id ≠ none

structure MjInv (id : ℤ) (w : MjWorld) : Prop where
  row : ∀ row, w.db.midjourneys.get? id = some row → RowOk id w.db row
  refund : w.db.midjourneys.get? id = none → w.db.refunds.get? id = none
  copies : ∀ copy t, w.copies.get? copy = some (id, t) →
    ∃ row, w.db.midjourneys.get? id = some row ∧ t.userId = row.userId

theorem mjInv_of_start (h : MjStart id w) : MjInv id w := by
  refine ⟨fun row hrow => ?_, fun _ => h.refund, fun copy t ht => absurd ht (h.copies copy t)⟩
  rw [h.row] at hrow
  cases hrow

/-! ## What a step does to the task -/

structure Unrelated (id : ℤ) (db db' : MjDb) : Prop where
  row : db'.midjourneys.get? id = db.midjourneys.get? id
  refund : db'.refunds.get? id = db.refunds.get? id
  tokens : KeepsTokens db.main db'.main

theorem Unrelated.refl (id : ℤ) (db : MjDb) : Unrelated id db db :=
  ⟨rfl, rfl, KeepsTokens.refl db.main⟩

theorem RowOk.of_unrelated (h : RowOk id db row) (hun : Unrelated id db db') :
    RowOk id db' row := by
  refine ⟨h.nonneg, fun hquota hpos => ?_, fun hr => h.refund (hun.refund ▸ hr),
    fun hfailed hquota => hun.refund ▸ h.failed hfailed hquota⟩
  obtain ⟨t, ht⟩ := h.token hquota hpos
  obtain ⟨t', ht', -⟩ := hun.tokens _ t ht
  exact ⟨t', ht'⟩

theorem Unrelated.owed_eq (hun : Unrelated id db db')
    (hinv : ∀ row, db.midjourneys.get? id = some row → RowOk id db row) (account : Account) :
    owed id db' account = owed id db account := by
  cases hrow : db.midjourneys.get? id with
  | none => rw [owed_of_none hrow, owed_of_none (hun.row.trans hrow)]
  | some row =>
    have hok := hinv row hrow
    obtain hzero | hquota := hok.nonneg.eq_or_lt'
    · rw [owed_of_uncharged hrow hzero, owed_of_uncharged (hun.row.trans hrow) hzero]
    · cases hr : db.refunds.get? id with
      | none =>
        rw [owed_of_row hrow hr, owed_of_row (hun.row.trans hrow) (hun.refund.trans hr)]
        exact hun.tokens.cost_eq (hok.token hquota) account
      | some record =>
        have hne : db.refunds.get? id ≠ none := by rw [hr]; exact some_ne_none record
        rw [owed_of_refund hne, owed_of_refund (hun.refund ▸ hne)]

theorem MjInv.of_unrelated (h : MjInv id w) (hun : Unrelated id w.db w'.db)
    (hcopies : ∀ copy t, w'.copies.get? copy = some (id, t) →
      ∃ row, w.db.midjourneys.get? id = some row ∧ t.userId = row.userId) : MjInv id w' := by
  refine ⟨fun row hrow => ?_, fun hnone => ?_, fun copy t ht => ?_⟩
  · exact (h.row row (hun.row ▸ hrow)).of_unrelated hun
  · rw [hun.refund]
    exact h.refund (hun.row ▸ hnone)
  · rw [hun.row]
    exact hcopies copy t ht

/-- The row is rewritten with the same user and the same charge, and nothing else changes. -/
structure Rewritten (id : ℤ) (row row' : Midjourney) (db db' : MjDb) : Prop where
  after : db'.midjourneys.get? id = some row'
  refund : db'.refunds.get? id = db.refunds.get? id
  main : db'.main = db.main
  user : row'.userId = row.userId
  charge : SameCharge row row'
  failed : row'.Failed → 0 < row.quota → db.refunds.get? id ≠ none

theorem Rewritten.rowOk (h : Rewritten id row row' db db') (hok : RowOk id db row) :
    RowOk id db' row' := by
  obtain ⟨hquota, htoken, -, -⟩ := h.charge
  refine ⟨hquota ▸ hok.nonneg, fun hq hpos => ?_, fun hr => ?_, fun hf hq => ?_⟩
  · rw [h.main, htoken]
    exact hok.token (hquota ▸ hq) (htoken ▸ hpos)
  · rw [hquota]
    exact hok.refund (h.refund ▸ hr)
  · rw [h.refund]
    exact h.failed hf (hquota ▸ hq)

theorem Rewritten.owed_eq (h : Rewritten id row row' db db')
    (hrow : db.midjourneys.get? id = some row) (account : Account) :
    owed id db' account = owed id db account := by
  obtain ⟨hquota, htoken, hsubscription, -⟩ := h.charge
  cases hr : db.refunds.get? id with
  | none =>
    rw [owed_of_row hrow hr, owed_of_row h.after (h.refund.trans hr), h.main, h.user, hquota, htoken,
      hsubscription]
  | some record =>
    have hne : db.refunds.get? id ≠ none := by rw [hr]; exact some_ne_none record
    rw [owed_of_refund hne, owed_of_refund (h.refund ▸ hne)]

theorem charged_of_ok (hrow : db.midjourneys.get? id = some row) (hok : RowOk id db row)
    (h : consumeMidjourneyQuota db now id s.info s.quota = .ok db')
    (hsafe : funded db.main s.info s.quota = true → ¬ row.Failed) :
    (∃ row', db'.midjourneys.get? id = some row' ∧ row'.userId = row.userId ∧ RowOk id db' row') ∧
      db'.refunds = db.refunds ∧
      ∀ account, balance db.main account - balance db'.main account =
        owed id db' account - owed id db account := by
  obtain ⟨row₀, hrow₀, huser, hfree, hpos, hfunded, hrows, hrefunds, hpaid⟩ :=
    consumeMidjourneyQuota_of_ok h
  rw [hrow] at hrow₀
  cases hrow₀
  have hrow' : db'.midjourneys.get? id = some (chargedRow s.info s.quota row) := by
    rw [hrows, get?_modify_self, hrow, map_some]
  have hnone : db.refunds.get? id = none := by
    by_contra hr
    exact absurd (hok.refund hr) (by omega)
  refine ⟨⟨_, hrow', rfl, hpos.le, fun _ htoken => ?_, fun hr => absurd hnone (hrefunds ▸ hr),
    fun hfailed _ => absurd hfailed (hsafe hfunded)⟩, hrefunds, fun account => ?_⟩
  · obtain ⟨t, ht⟩ := exists_token_of_funded hfunded htoken
    obtain ⟨t', ht', -⟩ := hpaid.keepsTokens _ t ht
    exact ⟨t', ht'⟩
  · rw [owed_of_uncharged hrow hfree, owed_of_row hrow' (by rw [hrefunds]; exact hnone),
      hpaid.balance account]
    dsimp only [chargedRow]
    rw [hpaid.keepsTokens.cost_eq (exists_token_of_funded hfunded), huser]
    ring

theorem unrelated_of_charge (h : consumeMidjourneyQuota db now id' s.info s.quota = .ok db')
    (hne : id ≠ id') : Unrelated id db db' := by
  obtain ⟨-, -, -, -, -, -, hrows, hrefunds, hpaid⟩ := consumeMidjourneyQuota_of_ok h
  refine ⟨?_, by rw [hrefunds], hpaid.keepsTokens⟩
  rw [hrows, get?_modify_of_ne _ _ hne]

theorem MjWrites.unrelated (h : MjWrites db id' t db') (hne : id ≠ id') : Unrelated id db db' := by
  cases h with
  | nothing => exact .refl id db
  | row => exact ⟨get?_modify_of_ne _ _ hne, rfl, KeepsTokens.refl db.main⟩
  | refund row t' record refunds main _ _ _ _ _ hinsert hpaid =>
    refine ⟨get?_modify_of_ne _ _ hne, ?_, hpaid.keepsTokens⟩
    exact (get?_of_insert? hinsert id).trans (if_neg hne)

theorem MjWrites.cases_of_safe (h : MjWrites db id t db') (hrow : db.midjourneys.get? id = some row)
    (huser : t.userId = row.userId) (hok : RowOk id db row)
    (hsafe : db' ≠ db → row.status = t.status → SameCharge row t) :
    (∃ row', Rewritten id row row' db db') ∨
      ∃ row' record, db'.midjourneys.get? id = some row' ∧ row'.userId = row.userId ∧
        SameCharge row row' ∧ db.refunds.get? id = none ∧ db'.refunds.get? id = some record ∧
        RowOk id db' row' ∧
        ∀ account, balance db.main account - balance db'.main account = -owed id db account := by
  by_cases hsame : db' = db
  · subst hsame
    exact .inl ⟨row, hrow, rfl, rfl, rfl, ⟨rfl, rfl, rfl, rfl⟩, hok.failed⟩
  cases h with
  | nothing => exact absurd rfl hsame
  | row row₀ t' hrow₀ hstatus htuser hcharge hopen =>
    rw [hrow] at hrow₀
    cases hrow₀
    obtain ⟨hq, ht, hs, hb⟩ := hsafe hsame hstatus
    obtain ⟨hq', ht', hs', hb'⟩ := hcharge
    refine .inl ⟨t', ?_, rfl, rfl, htuser.trans huser,
      ⟨hq'.trans hq, ht'.trans ht, hs'.trans hs, hb'.trans hb⟩,
      fun hfailed hpos => absurd hfailed (hopen (by omega))⟩
    rw [get?_modify_self, hrow, map_some]
  | refund row₀ t' record refunds main hrow₀ hstatus htuser hcharge hpos hinsert hpaid =>
    rw [hrow] at hrow₀
    cases hrow₀
    obtain ⟨hq, ht, hs, hb⟩ := hsafe hsame hstatus
    obtain ⟨hq', ht', hs', hb'⟩ := hcharge
    have hnone : db.refunds.get? id = none := by
      cases hr : db.refunds.get? id with
      | none => rfl
      | some r =>
        rw [(insert?_eq_none_iff _ _ _).2 ((mem_keys_iff _ _).2 ⟨r, hr⟩)] at hinsert
        cases hinsert
    have hrecord : refunds.get? id = some record := (get?_of_insert? hinsert id).trans (if_pos rfl)
    refine .inr ⟨t', record, ?_, htuser.trans huser,
      ⟨hq'.trans hq, ht'.trans ht, hs'.trans hs, hb'.trans hb⟩, hnone, hrecord,
      ⟨by omega, fun _ htoken => ?_, fun _ => by omega, fun _ _ => ?_⟩, fun account => ?_⟩
    · dsimp only
      rw [get?_modify_self, hrow, map_some]
    · have htoken' : 0 < row.tokenId := by omega
      obtain ⟨token, htok⟩ := hok.token (by omega) htoken'
      obtain ⟨token', htok', -⟩ := hpaid.keepsTokens _ token htok
      exact ⟨token', by rw [ht', ht]; exact htok'⟩
    · dsimp only
      rw [hrecord]
      exact some_ne_none record
    · rw [owed_of_row hrow hnone, hpaid.balance account, cost_neg, huser, hq, ht, hs]
      ring

/-! ## Every step -/

/-- What a step does to the money and the row of the task. -/
structure MjEffect (id : ℤ) (w : MjWorld) (a : MjLabel) (w' : MjWorld) : Prop where
  inv : MjInv id w'
  taken : ∀ account, taken id account w a w' = owed id w'.db account - owed id w.db account
  refund : ∀ record, w.db.refunds.get? id = some record → w'.db.refunds.get? id = some record
  kept : a.IsPoller → ∀ row row', w.db.midjourneys.get? id = some row →
    w'.db.midjourneys.get? id = some row' → SameCharge row row'
  unrefunded : a.IsPoller → w'.db.refunds.get? id = w.db.refunds.get? id →
    ∀ account, Polling.taken id account w a w' = 0

theorem MjEffect.of_unrelated (hinv : MjInv id w) (hun : Unrelated id w.db w'.db)
    (hpaying : payingTask w a ≠ some id) (hcopies : ∀ copy t, w'.copies.get? copy = some (id, t) →
      ∃ row, w.db.midjourneys.get? id = some row ∧ t.userId = row.userId) : MjEffect id w a w' := by
  have hzero : ∀ account, Polling.taken id account w a w' = 0 := fun _ => if_neg hpaying
  refine ⟨hinv.of_unrelated hun hcopies, fun account => ?_, fun record hr => hun.refund.trans hr,
    fun _ row row' hrow hrow' => ?_, fun _ _ => hzero⟩
  · rw [hzero, hun.owed_eq hinv.row, sub_self]
  · rw [hun.row, hrow] at hrow'
    cases hrow'
    exact ⟨rfl, rfl, rfl, rfl⟩

theorem MjEffect.of_rewritten (hinv : MjInv id w) (hrow : w.db.midjourneys.get? id = some row)
    (h : Rewritten id row row' w.db w'.db)
    (hcopies : ∀ copy t, w'.copies.get? copy = some (id, t) → t.userId = row.userId) :
    MjEffect id w a w' := by
  have hzero : ∀ account, Polling.taken id account w a w' = 0 := by
    intro account
    rw [Polling.taken, h.main, sub_self, ite_self]
  refine ⟨⟨fun row₁ hrow₁ => ?_, fun hnone => ?_, fun copy t ht => ?_⟩, fun account => ?_,
    fun record hr => h.refund.trans hr, fun _ row₁ row₂ hrow₁ hrow₂ => ?_, fun _ _ => hzero⟩
  · rw [h.after] at hrow₁
    cases hrow₁
    exact h.rowOk (hinv.row row hrow)
  · rw [h.after] at hnone
    cases hnone
  · exact ⟨row', h.after, (hcopies copy t ht).trans h.user.symm⟩
  · rw [hzero, h.owed_eq hrow, sub_self]
  · rw [hrow] at hrow₁
    rw [h.after] at hrow₂
    cases hrow₁
    cases hrow₂
    exact h.charge

theorem Submission.midjourneyTask_quota (s : Submission) (nowMs : ℤ) :
    (s.midjourneyTask nowMs).quota = 0 := by
  unfold Submission.midjourneyTask
  dsimp only
  cases s.response.properties with
  | none => split_ifs <;> rfl
  | some p =>
    dsimp only
    split_ifs <;> rfl

theorem mjEffect_insert {nowMs : ℤ} (hinv : MjInv id w)
    (h : mjStep w (.insert id' nowMs s) = some w') : MjEffect id w (.insert id' nowMs s) w' := by
  rw [mjStep] at h
  split_ifs at h with hfresh
  cases h
  obtain ⟨-, hnone, hrefund⟩ := hfresh
  by_cases hid : id = id'
  · subst hid
    have hrow : (w.db.midjourneys.put id (s.midjourneyTask nowMs)).get? id =
        some (s.midjourneyTask nowMs) := by rw [get?_put, if_pos rfl]
    have hquota := s.midjourneyTask_quota nowMs
    refine ⟨⟨fun row hrow' => ?_, fun hnone' => ?_, fun copy t ht => ?_⟩, fun account => ?_,
      fun _ hr => hr, fun hpoller => hpoller.elim, fun hpoller => hpoller.elim⟩
    · rw [hrow] at hrow'
      cases hrow'
      exact ⟨hquota.ge, fun hpos => by omega, fun hr => absurd hrefund hr, fun _ hpos => by omega⟩
    · rw [hrow] at hnone'
      cases hnone'
    · -- nobody holds a copy of a row that was not there
      obtain ⟨row, hrow', -⟩ := hinv.copies copy t ht
      rw [hnone] at hrow'
      cases hrow'
    · rw [owed_of_uncharged hrow hquota, owed_of_none hnone]
      exact if_neg (some_ne_none id).symm
  · refine .of_unrelated hinv ⟨?_, rfl, KeepsTokens.refl w.db.main⟩
      (some_ne_none id).symm hinv.copies
    rw [get?_put, if_neg hid]

theorem finishSubmission_cases (o : Outcome) (db : MjDb) (now id : ℤ) (s : Submission) :
    finishSubmission o db now id s = db ∨ s.consumesQuota = true ∧ o ≠ .rolledBack ∧
        consumeMidjourneyQuota db now id s.info s.quota = .ok (finishSubmission o db now id s) := by
  unfold finishSubmission
  split
  · rename_i hconsumes
    cases hres : consumeMidjourneyQuota db now id s.info s.quota with
    | error e => exact .inl rfl
    | ok db' =>
      cases o with
      | reported | unreported => exact .inr ⟨hconsumes, by decide, rfl⟩
      | rolledBack => exact .inl rfl
  · exact .inl rfl

theorem mjEffect_finish {o : Outcome} (hinv : MjInv id w) (hsafe : Safe id w (.finish id' now o))
    (h : mjStep w (.finish id' now o) = some w') : MjEffect id w (.finish id' now o) w' := by
  rw [mjStep] at h
  split at h
  case h_2 => cases h
  rename_i s hs
  cases h
  by_cases hid : id' = id
  · subst hid
    have htaken : ∀ account, Polling.taken id' account w (.finish id' now o)
        { w with
          db := finishSubmission o w.db now id' s
          submissions := w.submissions.erase id' } =
        balance w.db.main account - balance (finishSubmission o w.db now id' s).main account :=
      fun _ => if_pos rfl
    obtain hsame | ⟨hconsumes, hout, hok⟩ := finishSubmission_cases o w.db now id' s
    · refine ⟨?_, fun account => ?_, ?_, fun hpoller => hpoller.elim, fun hpoller => hpoller.elim⟩
      · rw [hsame]
        exact ⟨hinv.row, hinv.refund, hinv.copies⟩
      · rw [htaken]
        rw [hsame, sub_self, sub_self]
      · dsimp only
        rw [hsame]
        exact fun _ hr => hr
    · obtain ⟨row, hrow, -⟩ := consumeMidjourneyQuota_of_ok hok
      obtain ⟨⟨row', hrow', huser, hrowOk⟩, hrefunds, hmoved⟩ :=
        charged_of_ok hrow (hinv.row row hrow) hok
          fun hfunded => hsafe rfl s hs row hrow hconsumes hout hfunded
      refine ⟨⟨fun row₁ hrow₁ => ?_, fun hnone => ?_, fun copy t ht => ?_⟩,
        fun account => (htaken account).trans (hmoved account), fun record hr => ?_,
        fun hpoller => hpoller.elim, fun hpoller => hpoller.elim⟩
      · dsimp only at hrow₁
        rw [hrow'] at hrow₁
        cases hrow₁
        exact hrowOk
      · dsimp only at hnone
        rw [hrow'] at hnone
        cases hnone
      · obtain ⟨row₁, hrow₁, ht'⟩ := hinv.copies copy t ht
        rw [hrow] at hrow₁
        cases hrow₁
        exact ⟨row', hrow', ht'.trans huser.symm⟩
      · dsimp only
        rw [hrefunds]
        exact hr
  · refine .of_unrelated hinv ?_ (fun he => hid (some.inj he)) hinv.copies
    obtain hsame | ⟨-, -, hok⟩ := finishSubmission_cases o w.db now id' s
    · dsimp only
      rw [hsame]
      exact .refl id w.db
    · exact unrelated_of_charge hok (Ne.symm hid)

theorem get?_put_mjCopy {copies : Table ℤ (ℤ × Midjourney)} {copy' : ℤ} {t' : Midjourney}
    (h : (copies.put copy (id', t')).get? copy' = some (id, t)) :
    (id' = id ∧ t' = t) ∨ copies.get? copy' = some (id, t) := by
  rw [get?_put] at h
  split_ifs at h
  · exact .inl (Prod.mk.inj (some.inj h))
  · exact .inr h

theorem mjEffect_load (hinv : MjInv id w) (h : mjStep w (.load copy id') = some w') :
    MjEffect id w (.load copy id') w' := by
  rw [mjStep] at h
  split at h
  case h_2 => cases h
  rename_i row hrow
  split_ifs at h with hopen
  cases h
  refine .of_unrelated hinv (.refl id w.db) (some_ne_none id).symm fun copy' t ht => ?_
  obtain ⟨rfl, rfl⟩ | hold := get?_put_mjCopy ht
  · exact ⟨row, hrow, rfl⟩
  · exact hinv.copies copy' t hold

theorem mjEffect_item {nowMs : ℤ} {o : Outcome} {responseItem : MidjourneyDto} (hinv : MjInv id w)
    (hsafe : Safe id w (.item copy nowMs now o responseItem))
    (h : mjStep w (.item copy nowMs now o responseItem) = some w') :
    MjEffect id w (.item copy nowMs now o responseItem) w' := by
  rw [mjStep] at h
  split at h
  case h_2 => cases h
  rename_i id' t hcopy
  split_ifs at h with hitem
  obtain ⟨hwrites, huser, hneeds⟩ :=
    mjWrites_updateMidjourneyTask o w.db nowMs now id' t responseItem
  generalize updateMidjourneyTask o w.db nowMs now id' t responseItem = res at h hwrites huser hneeds
  obtain ⟨db', t'⟩ := res
  cases h
  by_cases hid : id' = id
  · subst hid
    obtain ⟨row, hrow, htuser⟩ := hinv.copies copy t hcopy
    have hcopies : ∀ copy' t₁, (w.copies.put copy (id', t')).get? copy' = some (id', t₁) →
        t₁.userId = row.userId := by
      intro copy' t₁ ht₁
      obtain ⟨-, rfl⟩ | hold := get?_put_mjCopy ht₁
      · exact huser.trans htuser
      · obtain ⟨row₁, hrow₁, ht₁⟩ := hinv.copies copy' t₁ hold
        rw [hrow] at hrow₁
        rw [ht₁, some.inj hrow₁]
    obtain ⟨row', hrewritten⟩ | ⟨row', record, hrow', hruser, hcharge, hnone, hrecord, hrowOk, hmoved⟩
        := hwrites.cases_of_safe hrow htuser (hinv.row row hrow) fun hne hstatus =>
          hsafe (id', t) hcopy rfl row hrow (hneeds hne).1 (hneeds hne).2 hstatus
    · exact .of_rewritten hinv hrow hrewritten hcopies
    · have hpaying : payingTask w (.item copy nowMs now o responseItem) = some id' := by
        rw [payingTask, hcopy, map_some]
      have hsome : db'.refunds.get? id' ≠ none := by
        rw [hrecord]
        exact some_ne_none record
      refine ⟨⟨fun row₁ hrow₁ => ?_, fun hnone' => ?_, fun copy' t₁ ht₁ => ?_⟩, fun account => ?_,
        fun r hr => ?_, fun _ row₁ row₂ hrow₁ hrow₂ => ?_, fun _ hr => ?_⟩
      · dsimp only at hrow₁
        rw [hrow'] at hrow₁
        cases hrow₁
        exact hrowOk
      · dsimp only at hnone'
        rw [hrow'] at hnone'
        cases hnone'
      · exact ⟨row', hrow', (hcopies copy' t₁ ht₁).trans hruser.symm⟩
      · rw [Polling.taken, if_pos hpaying, owed_of_refund hsome, zero_sub]
        exact hmoved account
      · rw [hnone] at hr
        cases hr
      · dsimp only at hrow₂
        rw [hrow] at hrow₁
        rw [hrow'] at hrow₂
        cases hrow₁
        cases hrow₂
        exact hcharge
      · exact absurd (hr.trans hnone) hsome
  · refine .of_unrelated hinv (hwrites.unrelated (Ne.symm hid)) ?_ fun copy' t₁ ht₁ => ?_
    · rw [payingTask, hcopy, map_some]
      exact fun he => hid (some.inj he)
    · obtain ⟨he, -⟩ | hold := get?_put_mjCopy ht₁
      · exact absurd he hid
      · exact hinv.copies copy' t₁ hold

theorem mjEffect_bulk {p : ℤ → Midjourney → Bool} {f : Midjourney → Midjourney} (hinv : MjInv id w)
    (hpaying : payingTask w a ≠ some id)
    (hf : ∀ row, (f row).userId = row.userId ∧ SameCharge row (f row))
    (hreturned : ∀ row, w.db.midjourneys.get? id = some row → p id row = true →
      ChargeReturned id w row) :
    MjEffect id w a
      { w with db := { w.db with midjourneys := w.db.midjourneys.updateWhere p f } } := by
  cases hrow : w.db.midjourneys.get? id with
  | none =>
    refine .of_unrelated hinv ⟨?_, rfl, KeepsTokens.refl w.db.main⟩ hpaying hinv.copies
    rw [get?_updateWhere, hrow, map_none]
  | some row =>
    have hafter : (w.db.midjourneys.updateWhere p f).get? id =
        some (if p id row then f row else row) := by
      rw [get?_updateWhere, hrow, map_some]
    have hcopies : ∀ copy t, w.copies.get? copy = some (id, t) → t.userId = row.userId := by
      intro copy t ht
      obtain ⟨row₁, hrow₁, ht'⟩ := hinv.copies copy t ht
      rw [hrow] at hrow₁
      rw [ht', some.inj hrow₁]
    cases hp : p id row with
    | false =>
      rw [hp] at hafter
      exact .of_rewritten hinv hrow
        ⟨hafter, rfl, rfl, rfl, ⟨rfl, rfl, rfl, rfl⟩, (hinv.row row hrow).failed⟩ hcopies
    | true =>
      rw [hp] at hafter
      refine .of_rewritten hinv hrow
        ⟨hafter, rfl, rfl, (hf row).1, (hf row).2, fun _ hpos => ?_⟩ hcopies
      obtain hzero | hrefund := hreturned row hrow hp
      · omega
      · exact hrefund

theorem mjStep_effect (hinv : MjInv id w) (hsafe : Safe id w a) (h : mjStep w a = some w') :
    MjEffect id w a w' := by
  cases a with
  | insert id' nowMs s => exact mjEffect_insert hinv h
  | finish id' now o => exact mjEffect_finish hinv hsafe h
  | load copy id' => exact mjEffect_load hinv h
  | item copy nowMs now o responseItem => exact mjEffect_item hinv hsafe h
  | failNull | failChannel =>
    dsimp only [mjStep] at h
    split_ifs at h
    cases h
    exact mjEffect_bulk hinv (some_ne_none id).symm (fun _ => ⟨rfl, rfl, rfl, rfl, rfl⟩)
      fun row hrow hp => hsafe row hrow (of_decide_eq_true hp)
  | other main =>
    rw [mjStep] at h
    split_ifs at h with htokens
    cases h
    exact .of_unrelated hinv ⟨rfl, rfl, htokens⟩ (some_ne_none id).symm hinv.copies

/-! ## Every run -/

theorem total_taken {l : List MjLabel} (hinv : MjInv id w) (hsafe : Run.Along mjStep (Safe id) w l)
    (h : Run.run mjStep w l = some w') (account : Account) :
    Run.total mjStep (taken id account) w l = owed id w'.db account - owed id w.db account := by
  have hstep : ∀ v n a v',
      (MjInv id v ∧ n = owed id v.db account - owed id w.db account) → Safe id v a →
        mjStep v a = some v' → MjInv id v' ∧
          n + taken id account v a v' = owed id v'.db account - owed id w.db account := by
    rintro v n a v' ⟨hv, hn⟩ ha hs
    have heffect := mjStep_effect hv ha hs
    exact ⟨heffect.inv, by rw [hn, heffect.taken account]; ring⟩
  have hend := total_invariant_along hstep ⟨hinv, (sub_self _).symm⟩ hsafe h
  rw [zero_add] at hend
  exact hend.2

/-- In every run whose steps do not lose the charge of the task, a failure has cost nothing. -/
theorem failed_costs_nothing {id : ℤ} {w w' : MjWorld} {l : List MjLabel} (hstart : MjStart id w)
    (hsafe : Run.Along mjStep (Safe id) w l) (h : Run.run mjStep w l = some w') :
    CostsNothing id w l w' := by
  have hinv := mjInv_of_start hstart
  have hstep : ∀ v a v', MjInv id v → Safe id v a → mjStep v a = some v' → MjInv id v' :=
    fun _ _ _ hv ha hs => (mjStep_effect hv ha hs).inv
  have hzero : ∀ account, owed id w.db account = 0 := owed_of_none hstart.row
  -- the effect of a step in the middle of the run, and what was taken before it
  have hmiddle : ∀ l₁ a l₂ w₁ w₂, l = l₁ ++ a :: l₂ → Run.run mjStep w l₁ = some w₁ →
      mjStep w₁ a = some w₂ → MjEffect id w₁ a w₂ ∧
        ∀ account, Run.total mjStep (taken id account) w l₁ = owed id w₁.db account := by
    intro l₁ a l₂ w₁ w₂ hl h₁ h₂
    rw [hl, along_append_iff h₁, along_cons h₂] at hsafe
    refine ⟨mjStep_effect (invariant_along hstep hinv hsafe.1 h₁) hsafe.2.1 h₂, fun account => ?_⟩
    rw [total_taken hinv hsafe.1 h₁, hzero, sub_zero]
  refine ⟨?_, fun l₁ a l₂ w₁ w₂ hl h₁ h₂ hpoller account => ?_,
    fun l₁ a l₂ w₁ w₂ hl h₁ h₂ hpoller => (hmiddle l₁ a l₂ w₁ w₂ hl h₁ h₂).1.kept hpoller,
    fun _ hfailed account => ?_⟩
  · -- the record of a refund stays, and a second one finds it
    have hstays : ∀ v a v', MjInv id v → Safe id v a → v.db.refunds.get? id ≠ none →
        mjStep v a = some v' → v'.db.refunds.get? id ≠ none := by
      intro v a v' hv ha hr hs
      obtain ⟨record, hrecord⟩ := ne_none_iff_exists'.1 hr
      rw [(mjStep_effect hv ha hs).refund record hrecord]
      exact some_ne_none record
    refine total_le_one_along hstep hstays (fun v a v' _ _ _ => ?_) hinv hsafe h
    unfold refunded
    split_ifs with hr
    · exact .inr ⟨rfl, not_not.2 hr.1, hr.2⟩
    · exact .inl rfl
  · obtain ⟨heffect, htotal⟩ := hmiddle l₁ a l₂ w₁ w₂ hl h₁ h₂
    rw [htotal]
    unfold refunded
    split
    · rename_i hr
      rw [if_pos rfl, heffect.taken, owed_of_refund hr.2, zero_sub]
    · rename_i hr
      rw [if_neg zero_ne_one]
      refine heffect.unrefunded hpoller ?_ account
      cases hr₁ : w₁.db.refunds.get? id with
      | none =>
        by_contra hne
        exact hr ⟨hr₁, hne⟩
      | some record => exact heffect.refund record hr₁
  · obtain ⟨row, hrow, hrest⟩ := hfailed
    have hok := (invariant_along hstep hinv hsafe h).row row hrow
    rw [total_taken hinv hsafe h, hzero, sub_zero]
    obtain hfree | hpos := hok.nonneg.eq_or_lt'
    · exact owed_of_uncharged hrow hfree account
    · exact owed_of_refund (hok.failed hrest hpos) account

/-! ## Two runs -/

def mjWorld : MjWorld where
  db :=
    { main :=
        { users := Table.empty.put 1 { quota := 100 }
          tokens := Table.empty.put 5 { userId := 1, remainQuota := 100 } } }

theorem mjStart_mjWorld : MjStart 3 mjWorld := ⟨rfl, rfl, fun _ _ h => by cases h⟩

def mjSubmission : Submission where
  info := { userId := 1, tokenId := 5 }
  quota := 60
  response := { code := 1, result := "mj" }

/-- The task was charged from the wallet and the token, and a poller finds it failed. -/
def polledAfterCharge : List MjLabel :=
  [.insert 3 0 mjSubmission, .finish 3 10 .reported, .load 7 3,
    .item 7 0 20 .reported { mjId := "mj", status := "FAILURE", progress := "100%" }]

theorem failed_costs_nothing_polledAfterCharge :
    ∃ w', Run.run mjStep mjWorld polledAfterCharge = some w' ∧
      CostsNothing 3 mjWorld polledAfterCharge w' ∧
      Run.total mjStep (refunded 3) mjWorld polledAfterCharge = 1 ∧
      (w'.db.midjourneys.get? 3).map Midjourney.status = some "FAILURE" := by
  exact exists_some_imp (by decide +kernel) fun w' h hval =>
    ⟨failed_costs_nothing mjStart_mjWorld (by decide +kernel) h, by decide +kernel, hval⟩

/-- A poller reads the row before the charge and finds the task failed after it. -/
def polledBeforeCharge : List MjLabel :=
  [.insert 3 0 mjSubmission, .load 7 3, .finish 3 10 .reported,
    .item 7 0 20 .reported { mjId := "mj", status := "FAILURE", progress := "100%" }]

/-- The write of the stale copy erases the charge from the row, and the user has lost 60. -/
theorem polledBeforeCharge_costs :
    ¬ ∀ id w l w', MjStart id w → Run.run mjStep w l = some w' → CostsNothing id w l w' := by
  intro hall
  obtain ⟨w', h, hfinished, row, hrow, hfailed⟩ : ∃ w',
      Run.run mjStep mjWorld polledBeforeCharge = some w' ∧ w'.submissions.get? 3 = none ∧
      ∃ row, w'.db.midjourneys.get? 3 = some row ∧ row.Failed := by
    decide +kernel
  have hnothing := (hall 3 mjWorld polledBeforeCharge w' mjStart_mjWorld h).nothing hfinished
    ⟨row, hrow, hfailed⟩ (.wallet 1)
  have htotal : Run.total mjStep (taken 3 (.wallet 1)) mjWorld polledBeforeCharge = 60 := by
    decide +kernel
  rw [htotal] at hnothing
  cases hnothing

end BeeApi.Polling
