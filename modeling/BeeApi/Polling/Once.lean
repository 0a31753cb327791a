import BeeApi.Subscription.Effect
import BeeApi.Polling.Task

/-!
# The money of a task moves once

Every write compares the status of the row with that of the copy, so a row whose status is terminal is
never written by a call whose copy is not.  A copy that a call has already moved to a terminal status
is the exception: a further call with the same copy compares with that status.
-/

namespace BeeApi.Polling

open Subscription Transaction Option Table Run

/-! ## Calls -/

inductive Action
  /-- `sweepTimedOutTasks`. -/
  | sweep (reason legacyReason : String)
  /-- `transitionTaskToFailure`, of a task without an upstream id or without a channel. -/
  | fail (reason : String)
  /-- `updateVideoSingleTask`. -/
  | video (data : String) (taskResult : TaskInfo) (actualQuota : ℤ)
  /-- `updateSunoTasks`. -/
  | suno (responseItem : SunoDataResponse)
deriving DecidableEq

def perform (serverAddress : String) (o : Outcome) (db : Db) (now id : ℤ) (t : Task) :
    Action → PollResult
  | .sweep reason legacyReason => sweepTimedOutTask o db now id t reason legacyReason
  | .fail reason => transitionTaskToFailure o db now id t reason now
  | .video data taskResult actualQuota =>
    updateVideoSingleTask serverAddress o db now id t data taskResult actualQuota
  | .suno responseItem => updateSunoTask o db now id t responseItem

/-- The main database and the copies that the processes hold, with the keys of their rows. -/
structure World where
  db : Db
  copies : Table ℤ (ℤ × Task) := ∅

inductive Label
  /-- A query for unfinished tasks returns the row. -/
  | load (copy id : ℤ)
  | act (copy now : ℤ) (o : Outcome) (action : Action)
  /-- Any other writer; it leaves the tasks and their refunds alone. -/
  | other (db : Db)

def step (serverAddress : String) (w : World) : Label → Option World
  | .load copy id =>
    match w.db.tasks.get? id with
    | some t => if isUnfinished t then some { w with copies := w.copies.put copy (id, t) } else none
    | none => none
  | .act copy now o action =>
    match w.copies.get? copy with
    | some (id, t) =>
      let r := perform serverAddress o w.db now id t action
      some { db := r.db, copies := w.copies.put copy (id, r.task) }
    | none => none
  | .other db =>
    if db.tasks = w.db.tasks ∧ db.asyncTaskRefundRecords = w.db.asyncTaskRefundRecords then
      some { w with db }
    else none

def Open (status : TaskStatus) : Prop := status ≠ .failure ∧ status ≠ .success

/-- One when the step runs `settleTaskBillingOnComplete` for the task. -/
def settlements (serverAddress : String) (id : ℤ) (w : World) (a : Label) (_ : World) : ℤ :=
  match a with
  | .act copy now o action =>
    match w.copies.get? copy with
    | some (id', t) =>
      if id' = id ∧ (perform serverAddress o w.db now id' t action).settled then 1 else 0
    | none => 0
  | _ => 0

/-- The copies of the task that are acted on have not been moved to a terminal status before. -/
def ActsOnOpen (id : ℤ) (w : World) (a : Label) : Prop :=
  match a with
  | .act copy _ _ _ => ∀ t, w.copies.get? copy = some (id, t) → Open t.status
  | _ => True

/-! ## What a call writes -/

def SameBilling (t t' : Task) : Prop := t'.quota = t.quota ∧ t'.userId = t.userId

/-- What a call with the copy `t` of the row `id` leaves in the database. -/
inductive Writes (db : Db) (now id : ℤ) (t : Task) : Db → Prop
  | nothing : Writes db now id t db
  | status (row t' : Task) (hrow : db.tasks.get? id = some row) (hstatus : row.status = t.status)
      (hbilling : SameBilling t t') :
      Writes db now id t { db with tasks := db.tasks.modify id fun _ => t' }
  | refund (db' : Db) (row t' : Task) (record : AsyncTaskRefundRecord)
      (refunds : Table ℤ AsyncTaskRefundRecord) (hrow : db.tasks.get? id = some row)
      (hstatus : row.status = t.status) (hopen : Open t.status) (hbilling : SameBilling t t')
      (hfailure : t'.status = .failure) (huser : record.userId = t.userId)
      (hquota : record.quota = t.quota)
      (hinsert : db.asyncTaskRefundRecords.insert? id record = some refunds)
      (happly : applyAsyncTaskRefundFundingTx
        { db with
          tasks := db.tasks.modify id fun _ => t'
          asyncTaskRefundRecords := refunds } now record = .ok db') :
      Writes db now id t db'

theorem updateWithStatus_cases (db : Db) (id : ℤ) (t : Task) (fromStatus : TaskStatus) :
    updateWithStatus db id t fromStatus = (db, false) ∨
      ∃ row, db.tasks.get? id = some row ∧ row.status = fromStatus ∧
        updateWithStatus db id t fromStatus =
          ({ db with tasks := db.tasks.modify id fun _ => t }, true) := by
  unfold updateWithStatus
  cases h : db.affected db.tasks
      (db.tasks.updateRow id (fun row => row.status = fromStatus) fun _ => t) with
  | none => exact .inl rfl
  | some tasks =>
    obtain ⟨row, hrow, hstatus, rfl⟩ := Db.exists_of_affected h
    exact .inr ⟨row, hrow, of_decide_eq_true hstatus, rfl⟩

variable {id now q userId id' : ℤ} {db db' : Db} {t t' : Task} {o : Outcome}
  {serverAddress : String} {w : World}

theorem writes_updateWithStatus (hbilling : SameBilling t t') :
    Writes db now id t (withOutcome o db (.ok (updateWithStatus db id t' t.status))).1 := by
  refine withOutcome_fst_cases _ _ _ .nothing fun db' won h => ?_
  obtain rfl := congrArg Prod.fst (Except.ok.inj h)
  obtain hsame | ⟨row, hrow, hstatus, hwon⟩ := updateWithStatus_cases db id t' t.status
  · rw [hsame]
    exact .nothing
  · rw [hwon]
    exact .status row t' hrow hstatus hbilling

theorem writes_updateFailureWithRefund (hbilling : SameBilling t t') :
    Writes db now id t (withOutcome o db (updateFailureWithRefund db now id t' t.status)).1 := by
  refine withOutcome_fst_cases _ _ _ .nothing fun db' won h => ?_
  obtain ⟨rfl, -⟩ | ⟨-, -, -, hfail, hsucc, hfailure, ⟨row, hrow, hstatus⟩, record, refunds, huser,
    hquota, -, hinsert, happly⟩ := updateFailureWithRefund_of_ok h
  · exact .nothing
  · exact .refund _ row t' record refunds hrow hstatus ⟨hfail, hsucc⟩ hbilling hfailure
      (huser.trans hbilling.2) (hquota.trans hbilling.1) hinsert happly

/-- What is known of a call with the copy `t` of the row `id`. -/
structure Performed (db : Db) (now id : ℤ) (t : Task) (r : PollResult) : Prop where
  writes : Writes db now id t r.db
  billing : r.settled = false → SameBilling t r.task
  done : r.settled = true → r.task.status = .success
  settles : Open t.status → r.settled = true →
    (∃ row, db.tasks.get? id = some row ∧ row.status = t.status) ∧
      ∃ t', r.db.tasks.get? id = some t' ∧ t'.status = .success

theorem Performed.of_writes (hwrites : Writes db now id t db') (hbilling : SameBilling t t') :
    Performed db now id t { db := db', task := t' } :=
  ⟨hwrites, fun _ => hbilling, nofun, nofun⟩

theorem performed_transitionTaskToFailure (o : Outcome) (db : Db) (now id : ℤ) (t : Task)
    (reason : String) (finishTime : ℤ) :
    Performed db now id t (transitionTaskToFailure o db now id t reason finishTime) := by
  unfold transitionTaskToFailure
  dsimp only
  split_ifs
  · exact .of_writes (writes_updateWithStatus ⟨rfl, rfl⟩) ⟨rfl, rfl⟩
  · exact .of_writes (writes_updateWithStatus ⟨rfl, rfl⟩) ⟨rfl, rfl⟩
  · exact .of_writes (writes_updateFailureWithRefund ⟨rfl, rfl⟩) ⟨rfl, rfl⟩
  · exact .of_writes (writes_updateFailureWithRefund ⟨rfl, rfl⟩) ⟨rfl, rfl⟩

theorem performed_sweepTimedOutTask (o : Outcome) (db : Db) (now id : ℤ) (t : Task)
    (reason legacyReason : String) :
    Performed db now id t (sweepTimedOutTask o db now id t reason legacyReason) := by
  unfold sweepTimedOutTask
  split_ifs
  · exact .of_writes (writes_updateWithStatus ⟨rfl, rfl⟩) ⟨rfl, rfl⟩
  · exact performed_transitionTaskToFailure o db now id t reason now

theorem performed_updateSunoTask (o : Outcome) (db : Db) (now id : ℤ) (t : Task)
    (responseItem : SunoDataResponse) :
    Performed db now id t (updateSunoTask o db now id t responseItem) := by
  unfold updateSunoTask
  split
  · exact .of_writes .nothing ⟨rfl, rfl⟩
  by_cases hrefund : (sunoColumns responseItem t).status = .failure ∧
      0 < (sunoColumns responseItem t).quota ∧ t.status ≠ (sunoColumns responseItem t).status
  · rw [if_pos hrefund]
    exact .of_writes (writes_updateFailureWithRefund ⟨rfl, rfl⟩) ⟨rfl, rfl⟩
  · rw [if_neg hrefund]
    exact .of_writes (writes_updateWithStatus ⟨rfl, rfl⟩) ⟨rfl, rfl⟩

theorem videoColumns_of_some {taskResult : TaskInfo}
    (h : videoColumns serverAddress now taskResult t = some t') :
    SameBilling t t' ∧ t'.status = t.status := by
  unfold videoColumns at h
  split at h
  · cases h
    exact ⟨⟨rfl, rfl⟩, rfl⟩
  · cases h
    exact ⟨⟨rfl, rfl⟩, rfl⟩
  · cases h
    exact ⟨⟨rfl, rfl⟩, rfl⟩
  · cases h
    exact ⟨⟨rfl, rfl⟩, rfl⟩
  · cases h
    exact ⟨⟨rfl, rfl⟩, rfl⟩
  · cases h

theorem exists_of_won {refund : Prop} [Decidable refund] (h : withOutcome o db
      (if refund then updateFailureWithRefund db now id t' t.status
      else .ok (updateWithStatus db id t' t.status)) = (db', .ok true)) (hrefund : ¬ refund) :
    (∃ row, db.tasks.get? id = some row ∧ row.status = t.status) ∧ db'.tasks.get? id = some t' := by
  rw [if_neg hrefund] at h
  have hres := Except.ok.inj (eq_ok_of_withOutcome h)
  obtain hlost | ⟨row, hrow, hstatus, hwon⟩ := updateWithStatus_cases db id t' t.status
  · rw [hlost] at hres
    cases (Prod.mk.inj hres).2
  · rw [hwon] at hres
    obtain ⟨rfl, -⟩ := Prod.mk.inj hres
    refine ⟨⟨row, hrow, hstatus⟩, ?_⟩
    rw [get?_modify_self, hrow, map_some]

theorem performed_updateVideoSingleTask (serverAddress : String) (o : Outcome) (db : Db)
    (now id : ℤ) (t : Task) (data : String) (taskResult : TaskInfo) (actualQuota : ℤ) :
    Performed db now id t
      (updateVideoSingleTask serverAddress o db now id t data taskResult actualQuota) := by
  unfold updateVideoSingleTask
  dsimp only
  cases hcolumns : videoColumns serverAddress now taskResult
      { t with data, status := taskResult.status } with
  | none => exact .of_writes .nothing ⟨rfl, rfl⟩
  | some task =>
    obtain ⟨hbilling, hstatus⟩ := videoColumns_of_some hcolumns
    dsimp only
    generalize ht' : withReportedProgress taskResult task = t'
    have hbilling' : SameBilling t t' := by
      rw [← ht']
      exact hbilling
    replace hstatus : t'.status = taskResult.status := by
      rw [← ht']
      exact hstatus
    split
    · have hwrites : Writes db now id t (withOutcome o db
          (if taskResult.status = .failure ∧ t.quota ≠ 0 then
            updateFailureWithRefund db now id t' t.status
          else .ok (updateWithStatus db id t' t.status))).1 := by
        split_ifs
        · exact writes_updateFailureWithRefund hbilling'
        · exact writes_updateWithStatus hbilling'
      generalize hcas : withOutcome o db
        (if taskResult.status = .failure ∧ t.quota ≠ 0 then
          updateFailureWithRefund db now id t' t.status
        else .ok (updateWithStatus db id t' t.status)) = cas at hwrites ⊢
      obtain ⟨db', res⟩ := cas
      dsimp only at hwrites ⊢
      split
      · -- the row was won
        by_cases hsettle : taskResult.status = .success
        · have hrefund : ¬ (taskResult.status = .failure ∧ t.quota ≠ 0) := by
            rw [hsettle]
            exact fun h => by cases h.1
          obtain ⟨hrow, hrow'⟩ := exists_of_won hcas hrefund
          rw [decide_eq_true hsettle]
          exact ⟨hwrites, nofun, fun _ => hstatus.trans hsettle,
            fun _ _ => ⟨hrow, t', hrow', hstatus.trans hsettle⟩⟩
        · rw [decide_eq_false hsettle]
          exact .of_writes hwrites hbilling'
      · exact .of_writes hwrites hbilling'
    · rename_i hdone
      -- the copy has the reported status already, or that is not a terminal one
      have hopen : taskResult.status = .success → ¬ Open t.status := by
        intro hsettle ho
        refine hdone ⟨.inl (hstatus.trans hsettle), ?_⟩
        rw [hstatus, hsettle]
        exact ho.2
      have hkeep : ∀ db', Writes db now id t db' → Performed db now id t
          { db := db', settled := decide (taskResult.status = .success), task :=
            if decide (taskResult.status = .success) = true then { t' with quota := actualQuota }
            else t' } := by
        intro db' hwrites
        by_cases hsettle : taskResult.status = .success
        · rw [decide_eq_true hsettle]
          exact ⟨hwrites, nofun, fun _ => hstatus.trans hsettle,
            fun ho _ => absurd ho (hopen hsettle)⟩
        · rw [decide_eq_false hsettle]
          exact .of_writes hwrites hbilling'
      split
      · exact hkeep _ (writes_updateWithStatus hbilling')
      · exact hkeep db .nothing

theorem performed_perform (serverAddress : String) (o : Outcome) (db : Db) (now id : ℤ) (t : Task)
    (action : Action) : Performed db now id t (perform serverAddress o db now id t action) := by
  cases action with
  | sweep reason legacyReason => exact performed_sweepTimedOutTask o db now id t reason legacyReason
  | fail reason => exact performed_transitionTaskToFailure o db now id t reason now
  | video data taskResult actualQuota =>
    exact performed_updateVideoSingleTask serverAddress o db now id t data taskResult actualQuota
  | suno responseItem => exact performed_updateSunoTask o db now id t responseItem

/-! ## What a step does to a task -/

/-- The funds of the record have been returned to where they came from. -/
def Returned (db db' : Db) (record : AsyncTaskRefundRecord) : Prop :=
  (record.billingSource = "wallet" ∧ ∃ u, db.users.get? record.userId = some u ∧
      db'.users.get? record.userId = some { u with quota := u.quota + record.quota }) ∨
    (record.billingSource = "subscription" ∧ ∃ s s',
      db.userSubscriptions.get? record.userSubscriptionId = some s ∧ s.userId = record.userId ∧
        db'.userSubscriptions.get? record.userSubscriptionId = some s' ∧
          s'.amountUsed = s.amountUsed - record.quota)

theorem returned_of_applied {record : AsyncTaskRefundRecord}
    (h : applyAsyncTaskRefundFundingTx db now record = .ok db') :
    db'.tasks = db.tasks ∧ db'.asyncTaskRefundRecords = db.asyncTaskRefundRecords ∧
      Returned db db' record := by
  obtain ⟨hsource, ⟨⟨s, hs, huser, -⟩, -⟩, rfl⟩ | ⟨hsource, ⟨u, hu⟩, rfl⟩ :=
    applyAsyncTaskRefundFundingTx_of_ok h
  · refine ⟨rfl, rfl, .inr ⟨hsource, s, usageUpdates now (-record.quota) s, hs, huser, ?_, ?_⟩⟩
    · rw [moved, get?_modify_self, hs, map_some]
    · rw [usageUpdates, ← sub_eq_add_neg]
  · refine ⟨rfl, rfl, .inl ⟨hsource, u, hu, ?_⟩⟩
    rw [walletRefunded, get?_modify_self, hu, map_some]

/-- The row of the task has its quota and its user, and is a failure when there is a refund. -/
structure RowInv (id q userId : ℤ) (db : Db) : Prop where
  row : ∃ t, db.tasks.get? id = some t ∧ t.quota = q ∧ t.userId = userId
  refund : ∀ record, db.asyncTaskRefundRecords.get? id = some record →
    ∃ t, db.tasks.get? id = some t ∧ t.status = .failure

/-- What a step may do to the task: a terminal status stays, and a refund appears only together with
the failure, of an open row, and returns the quota. -/
structure Moves (id q userId : ℤ) (db db' : Db) : Prop where
  terminal : ∀ t, db.tasks.get? id = some t → ¬ Open t.status →
    ∃ t', db'.tasks.get? id = some t' ∧ t'.status = t.status
  kept : ∀ record, db.asyncTaskRefundRecords.get? id = some record →
    db'.asyncTaskRefundRecords.get? id = some record
  created : ∀ record, db.asyncTaskRefundRecords.get? id = none →
    db'.asyncTaskRefundRecords.get? id = some record →
      (∃ t, db.tasks.get? id = some t ∧ Open t.status) ∧
        (∃ t', db'.tasks.get? id = some t' ∧ t'.status = .failure) ∧
          record.quota = q ∧ record.userId = userId ∧ Returned db db' record

theorem Moves.of_same (htasks : db'.tasks.get? id = db.tasks.get? id)
    (hrefunds : db'.asyncTaskRefundRecords.get? id = db.asyncTaskRefundRecords.get? id) :
    Moves id q userId db db' := by
  refine ⟨fun t ht _ => ⟨t, htasks.trans ht, rfl⟩, fun record hr => hrefunds.trans hr,
    fun record hnone hr => ?_⟩
  rw [hrefunds, hnone] at hr
  cases hr

theorem RowInv.of_same (hinv : RowInv id q userId db)
    (htasks : db'.tasks.get? id = db.tasks.get? id)
    (hrefunds : db'.asyncTaskRefundRecords.get? id = db.asyncTaskRefundRecords.get? id) :
    RowInv id q userId db' := by
  refine ⟨?_, fun record hr => ?_⟩
  · rw [htasks]
    exact hinv.row
  · rw [htasks]
    exact hinv.refund record (hrefunds.symm.trans hr)

theorem Writes.get?_of_ne (h : Writes db now id' t db') (hid : id' ≠ id) :
    db'.tasks.get? id = db.tasks.get? id ∧
      db'.asyncTaskRefundRecords.get? id = db.asyncTaskRefundRecords.get? id := by
  cases h with
  | nothing => exact ⟨rfl, rfl⟩
  | status row t' hrow hstatus hbilling =>
    exact ⟨get?_modify_of_ne _ _ (Ne.symm hid), rfl⟩
  | refund _ row t' record refunds _ _ _ _ _ _ _ hinsert happly =>
    obtain ⟨htasks, hrefunds, -⟩ := returned_of_applied happly
    rw [htasks, hrefunds]
    exact ⟨get?_modify_of_ne _ _ (Ne.symm hid),
      (get?_of_insert? hinsert id).trans (if_neg (Ne.symm hid))⟩

theorem moves_of_writes (hinv : RowInv id q userId db) (h : Writes db now id' t db')
    (hcopy : id' = id → Open t.status ∧ t.quota = q ∧ t.userId = userId) :
    RowInv id q userId db' ∧ Moves id q userId db db' := by
  by_cases hid : id' = id
  · subst hid
    obtain ⟨hopen, hquota, huser⟩ := hcopy rfl
    -- the row that is written is open, and keeps its quota
    have hopenRow : ∀ row, db.tasks.get? id' = some row → row.status = t.status →
        db.asyncTaskRefundRecords.get? id' = none ∧
          ∀ t₀, db.tasks.get? id' = some t₀ → Open t₀.status := by
      intro row hrow hstatus
      have hro : ∀ t₀, db.tasks.get? id' = some t₀ → Open t₀.status := by
        intro t₀ ht₀
        rw [hrow] at ht₀
        cases ht₀
        rw [hstatus]
        exact hopen
      refine ⟨?_, hro⟩
      cases hr : db.asyncTaskRefundRecords.get? id' with
      | none => rfl
      | some record =>
        obtain ⟨t₀, ht₀, hfail⟩ := hinv.refund record hr
        exact absurd hfail (hro t₀ ht₀).1
    cases h with
    | nothing => exact ⟨hinv, .of_same rfl rfl⟩
    | status row t' hrow hstatus hbilling =>
      obtain ⟨hnone, hro⟩ := hopenRow row hrow hstatus
      refine ⟨⟨⟨t', ?_, hbilling.1.trans hquota, hbilling.2.trans huser⟩, fun record hr => ?_⟩,
        fun t₀ ht₀ hclosed => absurd (hro t₀ ht₀) hclosed, fun _ hr => hr, fun record _ hr => ?_⟩
      · dsimp only
        rw [get?_modify_self, hrow, map_some]
      · rw [hnone] at hr
        cases hr
      · rw [hnone] at hr
        cases hr
    | refund _ row t' record refunds hrow hstatus _ hbilling hfailure hru hrq hinsert happly =>
      obtain ⟨hnone, hro⟩ := hopenRow row hrow hstatus
      obtain ⟨htasks, hrefunds, hreturned⟩ := returned_of_applied happly
      have hrow' : db'.tasks.get? id' = some t' := by
        rw [htasks]
        rw [get?_modify_self, hrow, map_some]
      have hrecord : db'.asyncTaskRefundRecords.get? id' = some record := by
        rw [hrefunds]
        exact (get?_of_insert? hinsert id').trans (if_pos rfl)
      refine ⟨⟨⟨t', hrow', hbilling.1.trans hquota, hbilling.2.trans huser⟩,
        fun _ _ => ⟨t', hrow', hfailure⟩⟩, fun t₀ ht₀ hclosed => absurd (hro t₀ ht₀) hclosed,
        fun record' hr => ?_, fun record' _ hr => ?_⟩
      · rw [hnone] at hr
        cases hr
      · rw [hrecord] at hr
        cases hr
        exact ⟨⟨row, hrow, hro row hrow⟩, ⟨t', hrow', hfailure⟩, hrq.trans hquota, hru.trans huser,
          hreturned⟩
  · have hsame := h.get?_of_ne hid
    exact ⟨hinv.of_same hsame.1 hsame.2, .of_same hsame.1 hsame.2⟩

/-! ## Every run -/

structure Inv (id q userId : ℤ) (w : World) : Prop where
  row : RowInv id q userId w.db
  copies : ∀ copy t, w.copies.get? copy = some (id, t) → Open t.status →
    t.quota = q ∧ t.userId = userId

theorem get?_put_copy {copies : Table ℤ (ℤ × Task)} {copy copy' : ℤ}
    (h : (copies.put copy (id', t')).get? copy' = some (id, t)) :
    (id' = id ∧ t' = t) ∨ copies.get? copy' = some (id, t) := by
  rw [get?_put] at h
  split_ifs at h
  · exact .inl (Prod.mk.inj (some.inj h))
  · exact .inr h

theorem step_inv {w' : World} {a : Label} (hinv : Inv id q userId w) (hopen : ActsOnOpen id w a)
    (h : step serverAddress w a = some w') : Inv id q userId w' ∧ Moves id q userId w.db w'.db := by
  cases a with
  | load copy id' =>
    rw [step] at h
    split at h
    · rename_i t ht
      split_ifs at h with hunfinished
      cases h
      refine ⟨⟨hinv.row, fun copy' t' hcopy ho => ?_⟩, .of_same rfl rfl⟩
      obtain ⟨rfl, rfl⟩ | hold := get?_put_copy hcopy
      · obtain ⟨t₀, ht₀, hquota⟩ := hinv.row.row
        rw [ht] at ht₀
        cases ht₀
        exact hquota
      · exact hinv.copies copy' t' hold ho
    · cases h
  | other db =>
    rw [step] at h
    split_ifs at h with hsame
    cases h
    refine ⟨⟨hinv.row.of_same ?_ ?_, hinv.copies⟩, .of_same ?_ ?_⟩
    · rw [hsame.1]
    · rw [hsame.2]
    · rw [hsame.1]
    · rw [hsame.2]
  | act copy now o action =>
    rw [step] at h
    split at h
    · rename_i id' t hcopy
      cases h
      have hperformed := performed_perform serverAddress o w.db now id' t action
      have hbilling : id' = id → Open t.status ∧ t.quota = q ∧ t.userId = userId := by
        rintro rfl
        exact ⟨hopen t hcopy, hinv.copies copy t hcopy (hopen t hcopy)⟩
      obtain ⟨hrow, hmoves⟩ := moves_of_writes hinv.row hperformed.writes hbilling
      refine ⟨⟨hrow, fun copy' t' hcopy' ho => ?_⟩, hmoves⟩
      obtain ⟨hid, rfl⟩ | hold := get?_put_copy hcopy'
      · -- a copy that is still open has not been settled
        obtain ⟨-, hquota, huser⟩ := hbilling hid
        have hunsettled : (perform serverAddress o w.db now id' t action).settled = false := by
          by_contra hsettled
          exact ho.2 (hperformed.done (by simpa using hsettled))
        obtain ⟨hq, hu⟩ := hperformed.billing hunsettled
        exact ⟨hq.trans hquota, hu.trans huser⟩
      · exact hinv.copies copy' t' hold ho
    · cases h

def Succeeded (id : ℤ) (w : World) : Prop :=
  ∃ t, w.db.tasks.get? id = some t ∧ t.status = .success

theorem settlements_cases {w' : World} {a : Label} (hopen : ActsOnOpen id w a)
    (h : step serverAddress w a = some w') :
    settlements serverAddress id w a w' = 0 ∨ settlements serverAddress id w a w' = 1 ∧
        (∃ t, w.db.tasks.get? id = some t ∧ Open t.status) ∧ Succeeded id w' := by
  cases a with
  | load copy id' => exact .inl rfl
  | other db => exact .inl rfl
  | act copy now o action =>
    rw [step] at h
    rw [settlements]
    split at h
    · rename_i id' t hcopy
      cases h
      split_ifs with hsettled
      · obtain ⟨rfl, hsettled⟩ := hsettled
        have ho := hopen t hcopy
        obtain ⟨⟨row, hrow, hstatus⟩, hrow'⟩ :=
          (performed_perform serverAddress o w.db now id' t action).settles ho hsettled
        exact .inr ⟨rfl, ⟨row, hrow, hstatus ▸ ho⟩, hrow'⟩
      · exact .inl rfl
    · cases h

/-- The states in which a run starts: nobody holds a copy of the task, and it has no refund. -/
structure Start (id q userId : ℤ) (w : World) : Prop where
  row : ∃ t, w.db.tasks.get? id = some t ∧ t.quota = q ∧ t.userId = userId
  refund : w.db.asyncTaskRefundRecords.get? id = none
  copies : ∀ copy t, w.copies.get? copy ≠ some (id, t)

theorem inv_of_start (h : Start id q userId w) : Inv id q userId w := by
  refine ⟨⟨h.row, fun record hr => ?_⟩, fun copy t hcopy => absurd hcopy (h.copies copy t)⟩
  rw [h.refund] at hr
  cases hr

/-- While only open copies of the task are acted on, a terminal status of its row stays; a refund appears
once, with the failure of an open row, and returns the quota; a settlement runs at most once, for the call
that moved an open row to success. -/
theorem moved_once_of_run {serverAddress : String} {id q userId : ℤ} {w w' : World} {l : List Label}
    (hstart : Start id q userId w) (hopen : Run.Along (step serverAddress) (ActsOnOpen id) w l)
    (h : Run.run (step serverAddress) w l = some w') :
    Run.total (step serverAddress) (settlements serverAddress id) w l ≤ 1 ∧
      (∀ l₁ a l₂ w₁ w₂, l = l₁ ++ a :: l₂ → Run.run (step serverAddress) w l₁ = some w₁ →
        step serverAddress w₁ a = some w₂ → Moves id q userId w₁.db w₂.db ∧
          (settlements serverAddress id w₁ a w₂ ≠ 0 →
            (∃ t, w₁.db.tasks.get? id = some t ∧ Open t.status) ∧ Succeeded id w₂)) ∧
      (Succeeded id w' → w'.db.asyncTaskRefundRecords.get? id = none) := by
  have hinv := inv_of_start hstart
  have hstep : ∀ w a w', Inv id q userId w → ActsOnOpen id w a → step serverAddress w a = some w' →
      Inv id q userId w' := fun _ _ _ hi ho hs => (step_inv hi ho hs).1
  -- a success is terminal
  have hsucceeded : ∀ w a w', Inv id q userId w → ActsOnOpen id w a → Succeeded id w →
      step serverAddress w a = some w' → Succeeded id w' := by
    rintro w a w' hi ho ⟨t, ht, hsuccess⟩ hs
    obtain ⟨t', ht', hstatus⟩ := (step_inv hi ho hs).2.terminal t ht fun hopen => hopen.2 hsuccess
    exact ⟨t', ht', hstatus.trans hsuccess⟩
  refine ⟨?_, fun l₁ a l₂ w₁ w₂ hl h₁ h₂ => ?_, fun hdone => ?_⟩
  · refine total_le_one_along hstep hsucceeded (fun w a w' _ ho hs => ?_) hinv hopen h
    obtain hzero | ⟨hone, ⟨t, ht, hopenRow⟩, hdone⟩ := settlements_cases ho hs
    · exact .inl hzero
    · refine .inr ⟨hone, ?_, hdone⟩
      rintro ⟨t', ht', hsuccess⟩
      rw [ht] at ht'
      cases ht'
      exact hopenRow.2 hsuccess
  · rw [hl, along_append_iff h₁, along_cons h₂] at hopen
    have hinv₁ := invariant_along hstep hinv hopen.1 h₁
    refine ⟨(step_inv hinv₁ hopen.2.1 h₂).2, fun hne => ?_⟩
    obtain hzero | ⟨-, hsettled⟩ := settlements_cases hopen.2.1 h₂
    · exact absurd hzero hne
    · exact hsettled
  · have hinv' := invariant_along hstep hinv hopen h
    obtain ⟨t, ht, hsuccess⟩ := hdone
    cases hr : w'.db.asyncTaskRefundRecords.get? id with
    | none => rfl
    | some record =>
      obtain ⟨t', ht', hfailure⟩ := hinv'.row.refund record hr
      rw [ht] at ht'
      cases ht'
      rw [hsuccess] at hfailure
      cases hfailure

/-! ## Copies that are handed out twice -/

instance (status : TaskStatus) : Decidable (Open status) := inferInstanceAs (Decidable (_ ∧ _))

instance (id : ℤ) (w : World) (a : Label) : Decidable (ActsOnOpen id w a) :=
  match a with
  | .act copy _ _ _ =>
    decidable_of_iff (∀ e ∈ w.copies.get? copy, e.1 = id → Open e.2.status)
      ⟨fun h t ht => h (id, t) ht rfl, fun h e he hid => h e.2 (by rw [← hid]; exact he)⟩
  | .load _ _ => isTrue trivial
  | .other _ => isTrue trivial

def videoTask : Task :=
  { userId := 1
    quota := 10
    status := .inProgress
    progress := "30%"
    upstreamTaskID := "u"
    billingSource := "wallet" }

/-- Two tasks with the same upstream id. -/
def twinWorld : World where
  db :=
    { users := Table.empty.put 1 { quota := 0 }
      tasks := (Table.empty.put 1 videoTask).put 2 videoTask }

theorem start_twinWorld : Start 2 10 1 twinWorld :=
  ⟨⟨videoTask, rfl, rfl, rfl⟩, rfl, fun _ _ h => by cases h⟩

/-- The copy of the second task is polled twice, and both responses are a success. -/
def polledTwice : List Label :=
  [.load 7 2, .act 7 100 .reported (.video "" { status := .success } 10),
    .act 7 101 .reported (.video "" { status := .success } 10)]

/-- A round with two tasks of one upstream id polls the copy of the second twice; the second call finds
its status unchanged, skips the compare-and-swap and settles again. -/
theorem settled_twice_of_twins :
    Start 2 10 1 twinWorld ∧
      polledCopies [(1, videoTask), (2, videoTask)] = [(2, videoTask), (2, videoTask)] ∧
      (Run.run (step "") twinWorld polledTwice).isSome ∧
      Run.total (step "") (settlements "" 2) twinWorld polledTwice = 2 :=
  ⟨start_twinWorld, by decide, by decide +kernel, by decide +kernel⟩

/-- Two processes hold a copy: one finds the task failed, the other finds it a success. -/
def polledByTwo : List Label :=
  [.load 7 2, .load 8 2, .act 7 100 .reported (.fail "timeout"),
    .act 8 101 .reported (.video "" { status := .success } 10)]

theorem moved_once_of_polledByTwo :
    ∃ w', Run.run (step "") twinWorld polledByTwo = some w' ∧
      Run.total (step "") (settlements "" 2) twinWorld polledByTwo ≤ 1 ∧
      (w'.db.users.get? 1).map User.quota = some 10 := by
  exact exists_some_imp (by decide +kernel) fun w' h hval =>
    ⟨(moved_once_of_run start_twinWorld (by decide +kernel) h).1, hval⟩

end BeeApi.Polling
