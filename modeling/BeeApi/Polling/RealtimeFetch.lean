import BeeApi.Polling.Once

/-!
# Failed tasks are refunded and unfinished ones stay visible

A user who asks for a task of Gemini or Vertex makes the process ask the upstream at once and write the
answer into the row, next to the pollers and the sweeper.  A failure of a task with a quota comes with a
refund record, a success with a settlement, and every other row is found by the queries, as long as each
step takes the branch that does so.
-/

namespace BeeApi.Polling

open Subscription Transaction Option Table Run

/-! ## A user fetch -/

/-- `tryRealtimeFetch` from the parsed answer on; `.other ""` is an answer without a status. -/
def tryRealtimeFetch (serverAddress : String) (o : Outcome) (db : Db) (id : ℤ) (task : Task)
    (ti : TaskInfo) : PollResult :=
  let snap := task
  let status := if ti.status ≠ .other "" then ti.status else task.status
  let task : Task :=
    { task with
      status
      progress := if ti.progress ≠ "" then ti.progress else task.progress
      resultURL :=
        if ti.url.startsWith "data:" then task.resultURL
        else if ti.url ≠ "" then ti.url
        else if status = .success then buildProxyURL serverAddress task.taskID
        else task.resultURL }
  if !snapshotEqual snap task then
    { db := (withOutcome o db (.ok (updateWithStatus db id task snap.status))).1, task }
  else { db, task }

/-- The rows that `GetTimedOutUnfinishedTasks` returns. -/
def isTimedOut (cutoffUnix : ℤ) (t : Task) : Bool :=
  t.progress ≠ "100%" && t.status ≠ .failure && t.status ≠ .success && t.submitTime < cutoffUnix

inductive FetchLabel
  /-- A step of the pollers or the sweeper, or of any other writer. -/
  | poll (a : Label)
  /-- `GetByTaskId`, of a row in any status. -/
  | read (copy id : ℤ)
  | fetch (copy : ℤ) (o : Outcome) (ti : TaskInfo)

def fetchStep (serverAddress : String) (w : World) : FetchLabel → Option World
  | .poll a => step serverAddress w a
  | .read copy id => (w.db.tasks.get? id).map fun t => { w with copies := w.copies.put copy (id, t) }
  | .fetch copy o ti =>
    match w.copies.get? copy with
    | some (id, t) =>
      let r := tryRealtimeFetch serverAddress o w.db id t ti
      some { db := r.db, copies := w.copies.put copy (id, r.task) }
    | none => none

def Refunded (id : ℤ) (db : Db) : Prop :=
  ∀ t, db.tasks.get? id = some t → t.status = .failure →
    (db.asyncTaskRefundRecords.get? id).isSome = true

/-- An unfinished task is found by both queries, by the second with every cutoff after `latest`. -/
def Visible (latest id : ℤ) (db : Db) : Prop :=
  ∀ t, db.tasks.get? id = some t → Open t.status →
    isUnfinished t = true ∧ ∀ cutoff, latest < cutoff → isTimedOut cutoff t = true

/-- The step runs `settleTaskBillingOnComplete` for the task. -/
def settledBy (serverAddress : String) (id : ℤ) (w : World) : FetchLabel → Bool
  | .poll (.act copy now o action) =>
    (w.copies.get? copy).any fun c =>
      c.1 = id && (perform serverAddress o w.db now id c.2 action).settled
  | _ => false

/-- The sweeper meets no legacy task; a status that is not terminal comes without a complete progress; a
success comes from the video poller and its write is answered; Suno reports no submission time after
`latest`. -/
def ActionFits (latest : ℤ) (o : Outcome) (t : Task) : Action → Prop
  | .sweep _ _ => ¬ (0 < t.submitTime ∧ t.submitTime < legacyTaskCutoff)
  | .fail _ => True
  | .video _ taskResult _ =>
    (Open taskResult.status → taskResult.progress ≠ "100%") ∧
      (taskResult.status = .success → o ≠ .unreported)
  | .suno responseItem =>
    (responseItem.status = .success → responseItem.failReason ≠ "") ∧ responseItem.submitTime ≤ latest

/-- A user fetch leaves a terminal status as it is and reports none. -/
def TaskInfo.Fits (ti : TaskInfo) (t : Task) : Prop :=
  (ti.status = .other "" ∨ ti.status = t.status ∨ Open t.status ∧ Open ti.status) ∧
    (Open t.status → ti.progress ≠ "100%")

def FetchFits (latest id : ℤ) (w : World) : FetchLabel → Prop
  | .poll (.act copy _ o action) => ∀ t, w.copies.get? copy = some (id, t) →
    Open t.status ∧ ActionFits latest o t action
  | .fetch copy _ ti => ∀ t, w.copies.get? copy = some (id, t) → ti.Fits t
  | _ => True

/-! ## What a call does to the row -/

/-- A row or a copy of an unfinished task. -/
structure Pending (latest q : ℤ) (t : Task) : Prop where
  quota : t.quota = q
  progress : t.progress ≠ "100%"
  submitTime : t.submitTime ≤ latest

/-- What a call leaves of the row `id`. -/
inductive Left (latest q id : ℤ) (db db' : Db) (settled : Bool) (status : TaskStatus) : Prop
  | same (h : db' = db)
  | open (row t' : Task) (hrow : db.tasks.get? id = some row) (hstatus : row.status = status)
      (hrow' : db'.tasks.get? id = some t') (hpending : Pending latest q t')
      (hrefunds : db'.asyncTaskRefundRecords = db.asyncTaskRefundRecords) (hopen : Open t'.status)
  | closed (row t' : Task) (hrow : db.tasks.get? id = some row) (hstatus : row.status = status)
      (hrow' : db'.tasks.get? id = some t') (hsame : t'.status = status)
      (hclosed : ¬ Open status)
      (hrefunds : db'.asyncTaskRefundRecords = db.asyncTaskRefundRecords)
  | success (t' : Task) (hrow' : db'.tasks.get? id = some t') (hsuccess : t'.status = .success)
      (hsettled : settled = true)
  | failure (t' : Task) (hrow' : db'.tasks.get? id = some t') (hfailure : t'.status = .failure)
      (hrefund : (db'.asyncTaskRefundRecords.get? id).isSome = true)

theorem updateWithStatus_row (o : Outcome) (db : Db) (id : ℤ) (t' : Task) (fromStatus : TaskStatus) :
    (withOutcome o db (.ok (updateWithStatus db id t' fromStatus))).1 = db ∨
      ∃ row, db.tasks.get? id = some row ∧ row.status = fromStatus ∧
        (withOutcome o db (.ok (updateWithStatus db id t' fromStatus))).1.tasks.get? id = some t' ∧
        (withOutcome o db (.ok (updateWithStatus db id t' fromStatus))).1.asyncTaskRefundRecords =
          db.asyncTaskRefundRecords := by
  refine withOutcome_fst_cases _ _ _ (.inl rfl) fun db' won h => ?_
  obtain rfl := congrArg Prod.fst (Except.ok.inj h)
  obtain hsame | ⟨row, hrow, hstatus, hwon⟩ := updateWithStatus_cases db id t' fromStatus
  · rw [hsame]
    exact .inl rfl
  · rw [hwon]
    refine .inr ⟨row, hrow, hstatus, ?_, rfl⟩
    rw [get?_modify_self, hrow, map_some]

theorem updateFailureWithRefund_row (o : Outcome) (db : Db) (now id : ℤ) (t' : Task)
    (fromStatus : TaskStatus) :
    (withOutcome o db (updateFailureWithRefund db now id t' fromStatus)).1 = db ∨
      (withOutcome o db (updateFailureWithRefund db now id t' fromStatus)).1.tasks.get? id = some t' ∧
        t'.status = .failure ∧
        ((withOutcome o db (updateFailureWithRefund db now id t' fromStatus)).1.asyncTaskRefundRecords.get?
          id).isSome = true := by
  refine withOutcome_fst_cases _ _ _ (.inl rfl) fun db' won h => ?_
  obtain ⟨hsame, -⟩ | ⟨-, -, -, -, -, hfailure, ⟨row, hrow, -⟩, record, refunds, -, -, -, hinsert,
    happly⟩ := updateFailureWithRefund_of_ok h
  · exact .inl hsame
  · obtain ⟨htasks, hrefunds, -⟩ := returned_of_applied happly
    refine .inr ⟨?_, hfailure, ?_⟩
    · rw [htasks, get?_modify_self, hrow, map_some]
    · rw [hrefunds, get?_of_insert? hinsert, if_pos rfl]
      rfl

variable {latest q id now : ℤ} {o : Outcome} {db : Db} {t t' : Task} {settled : Bool}

theorem left_updateFailureWithRefund : Left latest q id db
    (withOutcome o db (updateFailureWithRefund db now id t' t.status)).1 settled t.status := by
  obtain h | ⟨hrow, hfailure, hrefund⟩ := updateFailureWithRefund_row o db now id t' t.status
  · exact .same h
  · exact .failure t' hrow hfailure hrefund

theorem left_updateWithStatus (hpending : Pending latest q t') (hopen : Open t'.status) :
    Left latest q id db (withOutcome o db (.ok (updateWithStatus db id t' t.status))).1 settled
      t.status := by
  obtain h | ⟨row, hrow, hstatus, hrow', hrefunds⟩ := updateWithStatus_row o db id t' t.status
  · exact .same h
  · exact .open row t' hrow hstatus hrow' hpending hrefunds hopen

/-- What is left of a call: the row, and a copy that is pending as long as it is open. -/
structure Acted (latest q id : ℤ) (db : Db) (t : Task) (r : PollResult) : Prop where
  left : Left latest q id db r.db r.settled t.status
  copy : Open r.task.status → Pending latest q r.task

theorem acted_transitionTaskToFailure (hquota : t.quota = q) (hq : 0 < q) (reason : String)
    (finishTime : ℤ) :
    Acted latest q id db t (transitionTaskToFailure o db now id t reason finishTime) := by
  unfold transitionTaskToFailure
  dsimp only
  rw [if_neg (by omega)]
  exact ⟨left_updateFailureWithRefund, fun h => absurd rfl h.1⟩

theorem acted_sweepTimedOutTask (hquota : t.quota = q) (hq : 0 < q)
    (hlegacy : ¬ (0 < t.submitTime ∧ t.submitTime < legacyTaskCutoff)) (reason legacyReason : String) :
    Acted latest q id db t (sweepTimedOutTask o db now id t reason legacyReason) := by
  unfold sweepTimedOutTask
  rw [if_neg hlegacy]
  exact acted_transitionTaskToFailure hquota hq reason now

theorem acted_updateSunoTask {responseItem : SunoDataResponse} (ht : Pending latest q t) (hq : 0 < q)
    (hopen : Open t.status)
    (hsuccess : responseItem.status = .success → responseItem.failReason ≠ "")
    (hsubmit : responseItem.submitTime ≤ latest) :
    Acted latest q id db t (updateSunoTask o db now id t responseItem) := by
  unfold updateSunoTask
  split
  · exact ⟨.same rfl, fun _ => ht⟩
  generalize ht' : sunoColumns responseItem t = t'
  have hstatus : t'.status = if responseItem.failReason ≠ "" ∨
      (if responseItem.status ≠ .other "" then responseItem.status else t.status) = .failure then
        .failure
      else if responseItem.status ≠ .other "" then responseItem.status else t.status := by
    rw [← ht']
    rfl
  by_cases hfailed : responseItem.failReason ≠ "" ∨
      (if responseItem.status ≠ .other "" then responseItem.status else t.status) = .failure
  · rw [if_pos hfailed] at hstatus
    have hquota : t'.quota = q := by
      rw [← ht']
      exact ht.quota
    rw [if_pos ⟨hstatus, by omega, by rw [hstatus]; exact hopen.1⟩]
    exact ⟨left_updateFailureWithRefund, fun h => absurd hstatus h.1⟩
  · rw [if_neg hfailed] at hstatus
    obtain ⟨hreason, hne⟩ := not_or.1 hfailed
    have hunsettled : responseItem.status ≠ .success := fun h => hreason (hsuccess h)
    have hopen' : Open t'.status := by
      rw [hstatus]
      refine ⟨hne, ?_⟩
      split_ifs
      · exact hunsettled
      · exact hopen.2
    have hpending : Pending latest q t' := by
      rw [← ht']
      refine ⟨ht.quota, ?_, ?_⟩
      · show (if _ ∨ responseItem.status = .success then "100%" else t.progress) ≠ "100%"
        rw [if_neg (not_or.2 ⟨hfailed, hunsettled⟩)]
        exact ht.progress
      · show (if responseItem.submitTime ≠ 0 then responseItem.submitTime else t.submitTime) ≤ latest
        split_ifs
        · exact hsubmit
        · exact ht.submitTime
    rw [if_neg fun h => hopen'.1 h.1]
    exact ⟨left_updateWithStatus hpending hopen', fun _ => hpending⟩

theorem videoColumns_of_open {serverAddress : String} {taskResult : TaskInfo}
    (h : videoColumns serverAddress now taskResult t = some t') (hopen : Open taskResult.status) :
    t'.progress ≠ "100%" ∧ t'.submitTime = t.submitTime := by
  unfold videoColumns at h
  split at h
  · cases h
    exact ⟨show "10%" ≠ "100%" by decide, rfl⟩
  · cases h
    exact ⟨show "20%" ≠ "100%" by decide, rfl⟩
  · cases h
    exact ⟨show "30%" ≠ "100%" by decide, rfl⟩
  · rename_i hsuccess
    exact absurd hsuccess hopen.2
  · rename_i hfailure
    exact absurd hfailure hopen.1
  · cases h

theorem left_success {o : Outcome} {db' : Db} {res : Except String Bool} (ho : o ≠ .unreported)
    (hsuccess : t'.status = .success)
    (h : withOutcome o db (.ok (updateWithStatus db id t' t.status)) = (db', res)) (latest : ℤ) :
    Left latest q id db db' (match res with
      | .ok true => true
      | _ => false) t.status := by
  obtain hsame | ⟨row, hrow, hstatus, hwon⟩ := updateWithStatus_cases db id t' t.status
  · rw [hsame] at h
    have hdb : db' = db := by
      cases o <;> exact (Prod.mk.inj h).1.symm
    exact .same hdb
  · rw [hwon] at h
    cases o with
    | unreported => exact absurd rfl ho
    | rolledBack => exact .same (Prod.mk.inj h).1.symm
    | reported =>
      cases h
      refine .success t' ?_ hsuccess rfl
      rw [get?_modify_self, hrow, map_some]

theorem acted_updateVideoSingleTask (serverAddress : String) (data : String) {taskResult : TaskInfo}
    (actualQuota : ℤ) (ht : Pending latest q t) (hq : 0 < q) (hopen : Open t.status)
    (hprogress : Open taskResult.status → taskResult.progress ≠ "100%")
    (hanswered : taskResult.status = .success → o ≠ .unreported) :
    Acted latest q id db t
      (updateVideoSingleTask serverAddress o db now id t data taskResult actualQuota) := by
  unfold updateVideoSingleTask
  dsimp only
  cases hcolumns : videoColumns serverAddress now taskResult
      { t with data, status := taskResult.status } with
  | none => exact ⟨.same rfl, fun _ => ⟨ht.quota, ht.progress, ht.submitTime⟩⟩
  | some task =>
    obtain ⟨hbilling, hstatus⟩ := videoColumns_of_some hcolumns
    dsimp only at hstatus ⊢
    have hquota : task.quota = q := hbilling.1.trans ht.quota
    by_cases hfailure : taskResult.status = .failure
    · have hstatus' : (withReportedProgress taskResult task).status = .failure :=
        hstatus.trans hfailure
      have hdone : ((withReportedProgress taskResult task).status = .success ∨
          (withReportedProgress taskResult task).status = .failure) ∧
          t.status ≠ (withReportedProgress taskResult task).status :=
        ⟨.inr hstatus', by rw [hstatus']; exact hopen.1⟩
      rw [if_pos hdone, if_pos ⟨hfailure, by rw [ht.quota]; omega⟩]
      have hleft : Left latest q id db (withOutcome o db (updateFailureWithRefund db now id
          (withReportedProgress taskResult task) t.status)).1 false t.status :=
        left_updateFailureWithRefund
      have hunsettled : decide (taskResult.status = .success) = false := by
        rw [hfailure]
        rfl
      generalize withOutcome o db (updateFailureWithRefund db now id
        (withReportedProgress taskResult task) t.status) = cas at hleft ⊢
      obtain ⟨db', res⟩ := cas
      dsimp only at hleft ⊢
      rw [hunsettled]
      split <;> exact ⟨hleft, fun h => absurd hstatus' h.1⟩
    · by_cases hsuccess : taskResult.status = .success
      · have hstatus' : (withReportedProgress taskResult task).status = .success :=
          hstatus.trans hsuccess
        have hdone : ((withReportedProgress taskResult task).status = .success ∨
            (withReportedProgress taskResult task).status = .failure) ∧
            t.status ≠ (withReportedProgress taskResult task).status :=
          ⟨.inl hstatus', by rw [hstatus']; exact hopen.2⟩
        rw [if_pos hdone, if_neg fun h => hfailure h.1]
        cases hcas : withOutcome o db
          (.ok (updateWithStatus db id (withReportedProgress taskResult task) t.status)) with
        | mk db' res =>
          have hleft := left_success (q := q) (hanswered hsuccess) hstatus' hcas latest
          rw [decide_eq_true hsuccess]
          cases res with
          | error e => exact ⟨hleft, fun h => absurd hstatus' h.2⟩
          | ok won => cases won <;> exact ⟨hleft, fun h => absurd hstatus' h.2⟩
      · have hopen' : Open (withReportedProgress taskResult task).status := by
          rw [show (withReportedProgress taskResult task).status = taskResult.status from hstatus]
          exact ⟨hfailure, hsuccess⟩
        obtain ⟨hprogress', hsubmit⟩ := videoColumns_of_open hcolumns ⟨hfailure, hsuccess⟩
        have hpending : Pending latest q (withReportedProgress taskResult task) := by
          refine ⟨hquota, ?_, hsubmit.trans_le ht.submitTime⟩
          unfold withReportedProgress
          dsimp only
          rw [if_neg hfailure]
          split_ifs
          · exact hprogress ⟨hfailure, hsuccess⟩
          · exact hprogress'
        rw [if_neg fun h => h.1.elim hopen'.2 hopen'.1, decide_eq_false hsuccess]
        split
        · exact ⟨left_updateWithStatus hpending hopen', fun _ => hpending⟩
        · exact ⟨.same rfl, fun _ => hpending⟩

theorem acted_perform (serverAddress : String) {action : Action} (ht : Pending latest q t) (hq : 0 < q)
    (hopen : Open t.status) (h : ActionFits latest o t action) :
    Acted latest q id db t (perform serverAddress o db now id t action) := by
  cases action with
  | sweep reason legacyReason => exact acted_sweepTimedOutTask ht.quota hq h reason legacyReason
  | fail reason => exact acted_transitionTaskToFailure ht.quota hq reason now
  | video data taskResult actualQuota =>
    exact acted_updateVideoSingleTask serverAddress data actualQuota ht hq hopen h.1 h.2
  | suno responseItem => exact acted_updateSunoTask ht hq hopen h.1 h.2

theorem acted_tryRealtimeFetch (serverAddress : String) {ti : TaskInfo}
    (ht : Open t.status → Pending latest q t) (h : ti.Fits t) :
    Acted latest q id db t (tryRealtimeFetch serverAddress o db id t ti) := by
  obtain ⟨hstatus, hprogress⟩ := h
  unfold tryRealtimeFetch
  dsimp only
  generalize hstatus' : (if ti.status ≠ .other "" then ti.status else t.status) = status
  have hsame : status = t.status ∨ Open t.status ∧ Open status := by
    rw [← hstatus']
    split_ifs with hnone
    · exact hstatus.resolve_left hnone
    · exact .inl rfl
  generalize hresult : (if ti.url.startsWith "data:" then t.resultURL
    else if ti.url ≠ "" then ti.url
    else if status = .success then buildProxyURL serverAddress t.taskID else t.resultURL) = resultURL
  generalize hcolumn : (if ti.progress ≠ "" then ti.progress else t.progress) = progress
  have hpending : Open status → Pending latest q { t with status, progress, resultURL } := by
    intro ho
    have hopen : Open t.status := hsame.elim (fun heq => heq ▸ ho) And.left
    have hold := ht hopen
    refine ⟨hold.quota, ?_, hold.submitTime⟩
    rw [← hcolumn]
    split_ifs
    · exact hprogress hopen
    · exact hold.progress
  split
  · refine ⟨?_, hpending⟩
    by_cases ho : Open status
    · exact left_updateWithStatus (hpending ho) ho
    · have hclosed : status = t.status := hsame.resolve_right fun h => ho h.2
      obtain h | ⟨row, hrow, hrowStatus, hrow', hrefunds⟩ :=
        updateWithStatus_row o db id { t with status, progress, resultURL } t.status
      · exact .same h
      · exact .closed row _ hrow hrowStatus hrow' hclosed (hclosed ▸ ho) hrefunds
  · exact ⟨.same rfl, hpending⟩

/-! ## Every run -/

/-- The row of the task and the copies of it, as long as they are open, are pending; and a failed row
has a refund. -/
structure FetchInv (latest q id : ℤ) (w : World) : Prop where
  row : ∃ t, w.db.tasks.get? id = some t ∧ (Open t.status → Pending latest q t) ∧
    (t.status = .failure → (w.db.asyncTaskRefundRecords.get? id).isSome = true)
  copies : ∀ copy t, w.copies.get? copy = some (id, t) → Open t.status → Pending latest q t

theorem FetchInv.refunded {w : World} (h : FetchInv latest q id w) : Refunded id w.db := by
  intro t ht hfailure
  obtain ⟨t', ht', -, hrefund⟩ := h.row
  rw [ht] at ht'
  cases ht'
  exact hrefund hfailure

theorem FetchInv.visible {w : World} (h : FetchInv latest q id w) : Visible latest id w.db := by
  intro t ht hopen
  obtain ⟨t', ht', hpending, -⟩ := h.row
  rw [ht] at ht'
  cases ht'
  obtain ⟨-, hprogress, hsubmit⟩ := hpending hopen
  refine ⟨?_, fun cutoff hcutoff => ?_⟩
  · simp [isUnfinished, hprogress, hopen.1, hopen.2]
  · simp [isTimedOut, hprogress, hopen.1, hopen.2, hsubmit.trans_lt hcutoff]

def SettlesSuccess (id : ℤ) (db db' : Db) (settled : Bool) : Prop :=
  ∀ t t', db.tasks.get? id = some t → t.status ≠ .success → db'.tasks.get? id = some t' →
    t'.status = .success → settled = true

theorem SettlesSuccess.of_same {db' : Db} (h : db'.tasks.get? id = db.tasks.get? id) :
    SettlesSuccess id db db' settled := by
  intro t t' ht hne ht' hsuccess
  rw [h, ht] at ht'
  cases ht'
  exact absurd hsuccess hne

theorem FetchInv.act {w : World} (h : FetchInv latest q id w) {copy : ℤ} {r : PollResult}
    (hacted : Acted latest q id w.db t r) :
    FetchInv latest q id { db := r.db, copies := w.copies.put copy (id, r.task) } ∧
      SettlesSuccess id w.db r.db r.settled := by
  have hcopies : ∀ copy' t', (w.copies.put copy (id, r.task)).get? copy' = some (id, t') →
      Open t'.status → Pending latest q t' := by
    intro copy' t' hcopy hopen
    obtain ⟨-, rfl⟩ | hold := get?_put_copy hcopy
    · exact hacted.copy hopen
    · exact h.copies copy' t' hold hopen
  obtain ⟨t₀, ht₀, hpending₀, hrefund₀⟩ := h.row
  cases hacted.left with
  | same hdb =>
    refine ⟨⟨?_, hcopies⟩, .of_same (by rw [hdb])⟩
    rw [hdb]
    exact h.row
  | «open» row t' hrow hstatus hrow' hpending hrefunds hopen =>
    refine ⟨⟨⟨t', hrow', fun _ => hpending, fun hfailure => absurd hfailure hopen.1⟩, hcopies⟩, ?_⟩
    intro t₁ t₂ _ _ ht₂ hsuccess
    rw [hrow'] at ht₂
    cases ht₂
    exact absurd hsuccess hopen.2
  | closed row t' hrow hstatus hrow' hsame hclosed hrefunds =>
    rw [ht₀] at hrow
    cases hrow
    refine ⟨⟨⟨t', hrow', fun hopen => absurd (hsame ▸ hopen) hclosed, fun hfailure => ?_⟩, hcopies⟩, ?_⟩
    · dsimp only
      rw [hrefunds]
      exact hrefund₀ (hstatus.trans (hsame.symm.trans hfailure))
    · intro t₁ t₂ ht₁ hne ht₂ hsuccess
      rw [ht₀] at ht₁
      rw [hrow'] at ht₂
      cases ht₁
      cases ht₂
      exact absurd (hstatus.trans (hsame.symm.trans hsuccess)) hne
  | success t' hrow' hsuccess hsettled =>
    refine ⟨⟨⟨t', hrow', fun hopen => absurd hsuccess hopen.2, fun hfailure => ?_⟩, hcopies⟩,
      fun _ _ _ _ _ _ => hsettled⟩
    rw [hsuccess] at hfailure
    cases hfailure
  | failure t' hrow' hfailure hrefund =>
    refine ⟨⟨⟨t', hrow', fun hopen => absurd hfailure hopen.1, fun _ => hrefund⟩, hcopies⟩, ?_⟩
    intro t₁ t₂ _ _ ht₂ hsuccess
    rw [hrow'] at ht₂
    cases ht₂
    rw [hsuccess] at hfailure
    cases hfailure

theorem FetchInv.act_other {w : World} (h : FetchInv latest q id w) {copy id' : ℤ} (hid : id' ≠ id)
    {r : PollResult} (hwrites : Writes w.db now id' t r.db) :
    FetchInv latest q id { db := r.db, copies := w.copies.put copy (id', r.task) } ∧
      SettlesSuccess id w.db r.db settled := by
  obtain ⟨htasks, hrefunds⟩ := hwrites.get?_of_ne hid
  refine ⟨⟨?_, fun copy' t' hcopy hopen => ?_⟩, .of_same htasks⟩
  · dsimp only
    rw [htasks, hrefunds]
    exact h.row
  · obtain ⟨heq, -⟩ | hold := get?_put_copy hcopy
    · exact absurd heq hid
    · exact h.copies copy' t' hold hopen

theorem writes_tryRealtimeFetch (serverAddress : String) (o : Outcome) (db : Db) (now id : ℤ) (t : Task)
    (ti : TaskInfo) : Writes db now id t (tryRealtimeFetch serverAddress o db id t ti).db := by
  unfold tryRealtimeFetch
  dsimp only
  split_ifs
  all_goals first | exact writes_updateWithStatus ⟨rfl, rfl⟩ | exact .nothing

theorem settled_tryRealtimeFetch (serverAddress : String) (o : Outcome) (db : Db) (id : ℤ) (t : Task)
    (ti : TaskInfo) : (tryRealtimeFetch serverAddress o db id t ti).settled = false := by
  unfold tryRealtimeFetch
  dsimp only
  split_ifs
  all_goals rfl

theorem fetchStep_inv {serverAddress : String} {w w' : World} {a : FetchLabel} (hq : 0 < q)
    (hinv : FetchInv latest q id w) (hfits : FetchFits latest id w a)
    (h : fetchStep serverAddress w a = some w') :
    FetchInv latest q id w' ∧ SettlesSuccess id w.db w'.db (settledBy serverAddress id w a) := by
  -- a copy that is read from the row
  have hread : ∀ copy id' t, w.db.tasks.get? id' = some t →
      FetchInv latest q id { w with copies := w.copies.put copy (id', t) } := by
    intro copy id' t ht
    refine ⟨hinv.row, fun copy' t' hcopy hopen => ?_⟩
    obtain ⟨rfl, rfl⟩ | hold := get?_put_copy hcopy
    · obtain ⟨t₀, ht₀, hpending, -⟩ := hinv.row
      rw [ht] at ht₀
      cases ht₀
      exact hpending hopen
    · exact hinv.copies copy' t' hold hopen
  cases a with
  | read copy id' =>
    rw [fetchStep] at h
    obtain ⟨t, ht, rfl⟩ := map_eq_some_iff.1 h
    exact ⟨hread copy id' t ht, .of_same rfl⟩
  | fetch copy o ti =>
    rw [fetchStep] at h
    split at h
    · rename_i id' t hcopy
      cases h
      by_cases hid : id' = id
      · subst hid
        have hacted : Acted latest q id' w.db t (tryRealtimeFetch serverAddress o w.db id' t ti) :=
          acted_tryRealtimeFetch serverAddress (hinv.copies copy t hcopy) (hfits t hcopy)
        have hsettled : settledBy serverAddress id' w (.fetch copy o ti) =
            (tryRealtimeFetch serverAddress o w.db id' t ti).settled :=
          (settled_tryRealtimeFetch serverAddress o w.db id' t ti).symm
        rw [hsettled]
        exact hinv.act hacted
      · exact hinv.act_other hid (writes_tryRealtimeFetch serverAddress o w.db 0 id' t ti)
    · cases h
  | poll a =>
    cases a with
    | load copy id' =>
      rw [fetchStep, step] at h
      split at h
      · rename_i t ht
        split_ifs at h
        cases h
        exact ⟨hread copy id' t ht, .of_same rfl⟩
      · cases h
    | other db =>
      rw [fetchStep, step] at h
      split_ifs at h with hsame
      cases h
      refine ⟨⟨?_, hinv.copies⟩, .of_same ?_⟩
      · dsimp only
        rw [hsame.1, hsame.2]
        exact hinv.row
      · dsimp only
        rw [hsame.1]
    | act copy now o action =>
      rw [fetchStep, step] at h
      rw [settledBy]
      split at h
      · rename_i id' t hcopy
        cases h
        by_cases hid : id' = id
        · subst hid
          obtain ⟨hopen, haction⟩ := hfits t hcopy
          have hacted : Acted latest q id' w.db t (perform serverAddress o w.db now id' t action) :=
            acted_perform serverAddress (hinv.copies copy t hcopy hopen) hq hopen haction
          rw [hcopy, any_some, decide_eq_true rfl, Bool.true_and]
          exact hinv.act hacted
        · exact hinv.act_other hid
            (performed_perform serverAddress o w.db now id' t action).writes
      · cases h

/-- A task as it is inserted: unfinished, younger than the legacy ones, and nobody has a copy of it. -/
structure Inserted (latest q id : ℤ) (w : World) : Prop where
  row : ∃ t, w.db.tasks.get? id = some t ∧ Open t.status ∧ Pending latest q t ∧
    legacyTaskCutoff ≤ t.submitTime
  copies : ∀ copy t, w.copies.get? copy ≠ some (id, t)

theorem Inserted.inv {w : World} (h : Inserted latest q id w) : FetchInv latest q id w := by
  obtain ⟨t, ht, hopen, hpending, -⟩ := h.row
  exact ⟨⟨t, ht, fun _ => hpending, fun hfailure => absurd hfailure hopen.1⟩,
    fun copy t' hcopy => absurd hcopy (h.copies copy t')⟩

/-- In every run whose steps fit, a failed task has a refund record, an unfinished one is found by the
queries, and a step that makes it a success settles it. -/
theorem refunded_and_visible_of_run {serverAddress : String} {w w' : World} {l : List FetchLabel}
    (hq : 0 < q) (hinserted : Inserted latest q id w)
    (hfits : Run.Along (fetchStep serverAddress) (FetchFits latest id) w l)
    (h : Run.run (fetchStep serverAddress) w l = some w') :
    Refunded id w'.db ∧ Visible latest id w'.db ∧
      ∀ l₁ a l₂ w₁ w₂, l = l₁ ++ a :: l₂ → Run.run (fetchStep serverAddress) w l₁ = some w₁ →
        fetchStep serverAddress w₁ a = some w₂ →
          SettlesSuccess id w₁.db w₂.db (settledBy serverAddress id w₁ a) := by
  have hstep : ∀ w a w', FetchInv latest q id w → FetchFits latest id w a →
      fetchStep serverAddress w a = some w' → FetchInv latest q id w' :=
    fun _ _ _ hi hf hs => (fetchStep_inv hq hi hf hs).1
  have hinv := invariant_along hstep hinserted.inv hfits h
  refine ⟨hinv.refunded, hinv.visible, fun l₁ a l₂ w₁ w₂ hl h₁ h₂ => ?_⟩
  rw [hl, along_append_iff h₁, along_cons h₂] at hfits
  exact (fetchStep_inv hq (invariant_along hstep hinserted.inv hfits.1 h₁) hfits.2.1 h₂).2

/-! ## Branches without a refund -/

instance (latest : ℤ) (o : Outcome) (t : Task) (action : Action) :
    Decidable (ActionFits latest o t action) := by
  cases action <;> unfold ActionFits <;> infer_instance

instance (ti : TaskInfo) (t : Task) : Decidable (ti.Fits t) :=
  inferInstanceAs (Decidable (_ ∧ _))

instance (latest id : ℤ) (w : World) (a : FetchLabel) : Decidable (FetchFits latest id w a) :=
  match a with
  | .poll (.act copy _ o action) =>
    decidable_of_iff (∀ c ∈ w.copies.get? copy, c.1 = id → Open c.2.status ∧
      ActionFits latest o c.2 action)
      ⟨fun h t ht => h (id, t) ht rfl, fun h c hc hid => h c.2 (by rw [← hid]; exact hc)⟩
  | .fetch copy _ ti =>
    decidable_of_iff (∀ c ∈ w.copies.get? copy, c.1 = id → ti.Fits c.2)
      ⟨fun h t ht => h (id, t) ht rfl, fun h c hc hid => h c.2 (by rw [← hid]; exact hc)⟩
  | .poll (.load _ _) | .poll (.other _) | .read _ _ => isTrue trivial

def recentTask : Task := { videoTask with submitTime := 1750000000 }

def recentWorld : World where
  db :=
    { users := Table.empty.put 1 { quota := 0 }
      tasks := Table.empty.put 1 recentTask }

theorem inserted_recentWorld : Inserted 1750000000 10 1 recentWorld :=
  ⟨⟨recentTask, rfl, by decide, ⟨rfl, by decide, by decide⟩, by decide⟩, fun _ _ h => (nomatch h)⟩

def rowAfter (l : List FetchLabel) : Option (Option Task × Bool) :=
  (Run.run (fetchStep "") recentWorld l).map fun w =>
    (w.db.tasks.get? 1, (w.db.asyncTaskRefundRecords.get? 1).isSome)

/-- A user fetch writes a failure without a refund, and so does the sweeper after an old submission time
from Suno; Suno writes a success without a settlement; a progress of 100% hides a task. -/
theorem failed_without_refund :
    (rowAfter [.read 7 1, .fetch 7 .reported { status := .failure }]).map (fun r =>
      (r.1.map Task.status, r.2)) = some (some .failure, false) ∧
    (rowAfter [.poll (.load 7 1), .poll (.act 7 1750000100 .reported
        (.suno { status := .inProgress, submitTime := 1700000000 })),
      .poll (.load 8 1), .poll (.act 8 1750090000 .reported (.sweep "" ""))]).map (fun r =>
        (r.1.map Task.status, r.2)) = some (some .failure, false) ∧
    (rowAfter [.poll (.load 7 1), .poll (.act 7 1750000100 .reported
        (.suno { status := .success }))]).map (fun r => r.1.map Task.status) = some (some .success) ∧
    (rowAfter [.poll (.load 7 1), .poll (.act 7 1750000100 .reported
        (.video "" { status := .inProgress, progress := "100%" } 0))]).map (fun r =>
          r.1.map fun t => (t.status, isUnfinished t)) = some (some (.inProgress, false)) := by
  decide +kernel

/-- A user fetch finds the task in progress, and the poller finds it failed. -/
def fetchedThenFailed : List FetchLabel :=
  [.read 7 1, .fetch 7 .reported { status := .inProgress, progress := "60%" }, .poll (.load 8 1),
    .poll (.act 8 1750000100 .reported (.video "" { status := .failure, reason := "timeout" } 0))]

theorem refunded_of_fetchedThenFailed :
    (Run.run (fetchStep "") recentWorld fetchedThenFailed).any (fun w =>
      (w.db.asyncTaskRefundRecords.get? 1).isSome) = true := by
  obtain ⟨w', h, t, ht, hfailure⟩ : ∃ w',
      Run.run (fetchStep "") recentWorld fetchedThenFailed = some w' ∧
      ∃ t, w'.db.tasks.get? 1 = some t ∧ t.status = .failure := by
    decide +kernel
  rw [h]
  exact (refunded_and_visible_of_run (by decide) inserted_recentWorld (by decide +kernel) h).1
    t ht hfailure

end BeeApi.Polling
