import BeeApi.Polling.Once

/-!
# Whose answer acts on which task

A round of `RunTaskPollingOnce` over the unfinished tasks of one platform that has an adaptor.  The
upstream ids are grouped by channel in one map, and the copies are looked up in another that knows the
upstream id only: the task that is found has to be one of the channel that is asked.
-/

namespace BeeApi.Polling

open Subscription Transaction List Option

/-! ## The round -/

structure PendingTask where
  channelId : ℤ
  task : Task

def PendingTask.upstreamID (t : PendingTask) : String := getUpstreamTaskID t.task

inductive TaskPlatform
  | suno
  | video
deriving DecidableEq

/-- What the channels and their upstreams answer in a round: whether the channel is found, the response
for one id, with the quota a settlement would leave, and the items of the response for a list of ids. -/
structure Upstream where
  readable : ℤ → Bool
  videoAnswer : ℤ → String → Option (String × TaskInfo × ℤ)
  sunoAnswer : ℤ → List String → Option (List (String × SunoDataResponse))

inductive Cause
  | nullID
  | unreadable
  | answer
deriving DecidableEq

inductive Event
  /-- The upstream of the channel is asked for these ids. -/
  | ask (channelId : ℤ) (upstreamIDs : List String)
  /-- The copy of the row `id` is acted on, because of the channel and for the upstream id. -/
  | act (id channelId : ℤ) (upstreamID : String) (cause : Cause) (action : Action)
  /-- A missing task is dereferenced. -/
  | panic
deriving DecidableEq

/-- `taskM`: the last task with the upstream id. -/
def taskM (tasks : Table ℤ PendingTask) (upstreamID : String) : Option (ℤ × PendingTask) :=
  tasks.rows.reverse.find? fun e => e.2.upstreamID ≠ "" && e.2.upstreamID = upstreamID

def taskChannelM (tasks : Table ℤ PendingTask) (channelId : ℤ) : List String :=
  (tasks.rows.filter fun e => e.2.upstreamID ≠ "" && e.2.channelId = channelId).map fun e =>
    e.2.upstreamID

def nullTaskEvents (tasks : Table ℤ PendingTask) : List Event :=
  (tasks.rows.filter fun e => e.2.upstreamID = "").map fun e =>
    .act e.1 e.2.channelId "" .nullID (.fail "上游任务 ID 为空")

/-- The tasks that are found for the ids of a channel that cannot be read. -/
def unreadableEvents (tasks : Table ℤ PendingTask) (channelId : ℤ) (reason : String) : List Event :=
  (taskChannelM tasks channelId).filterMap fun upstreamID =>
    (taskM tasks upstreamID).map fun e => .act e.1 channelId upstreamID .unreadable (.fail reason)

/-- The items of a response, up to the first whose id `taskM` does not know. -/
def sunoItemEvents (tasks : Table ℤ PendingTask) (channelId : ℤ) :
    List (String × SunoDataResponse) → List Event
  | [] => []
  | (taskID, responseItem) :: rest =>
    match taskM tasks taskID with
    | none => [.panic]
    | some e => .act e.1 channelId taskID .answer (.suno responseItem) ::
        sunoItemEvents tasks channelId rest

def updateSunoTasks (up : Upstream) (tasks : Table ℤ PendingTask) (channelId : ℤ) : List Event :=
  if !up.readable channelId then
    unreadableEvents tasks channelId s!"获取渠道信息失败，请联系管理员，渠道ID：{channelId}"
  else
    .ask channelId (taskChannelM tasks channelId) ::
      ((up.sunoAnswer channelId (taskChannelM tasks channelId)).map
        (sunoItemEvents tasks channelId)).getD []

/-- `updateVideoSingleTask` with the copy that `taskM` has for the id. -/
def videoEvents (up : Upstream) (tasks : Table ℤ PendingTask) (channelId : ℤ) (taskId : String) :
    List Event :=
  match taskM tasks taskId with
  | none => []
  | some e =>
    .ask channelId [e.2.upstreamID] ::
      ((up.videoAnswer channelId e.2.upstreamID).map fun answer =>
        Event.act e.1 channelId taskId .answer (.video answer.1 answer.2.1 answer.2.2)).toList

def updateVideoTasks (up : Upstream) (tasks : Table ℤ PendingTask) (channelId : ℤ) : List Event :=
  if !up.readable channelId then
    unreadableEvents tasks channelId s!"Failed to get channel info, channel ID: {channelId}"
  else (taskChannelM tasks channelId).flatMap (videoEvents up tasks channelId)

def updateTasks (platform : TaskPlatform) (up : Upstream) (tasks : Table ℤ PendingTask)
    (channelId : ℤ) : List Event :=
  match platform with
  | .suno => updateSunoTasks up tasks channelId
  | .video => updateVideoTasks up tasks channelId

def untilPanic : List (List Event) → List Event
  | [] => []
  | events :: rest => if .panic ∈ events then events else events ++ untilPanic rest

/-- A round; the map of the channels is ranged over in some order. -/
def pollingRound (platform : TaskPlatform) (up : Upstream) (tasks : Table ℤ PendingTask)
    (channels : List ℤ) : List Event :=
  untilPanic (nullTaskEvents tasks :: channels.map (updateTasks platform up tasks))

def ChannelsOf (tasks : Table ℤ PendingTask) (channels : List ℤ) : Prop :=
  ∀ channelId, channelId ∈ channels ↔
    ∃ e ∈ tasks.rows, e.2.upstreamID ≠ "" ∧ e.2.channelId = channelId

/-- The time of a call and how its write ends. -/
abbrev Clock := ℕ → ℤ × Outcome

/-- The calls of a round, with the copies of the round under the keys of their rows. -/
def runEvents (serverAddress : String) (clock : Clock) : ℕ → World → List Event → World
  | _, w, [] => w
  | n, w, .act id _ _ _ action :: rest =>
    match w.copies.get? id with
    | some (_, t) =>
      let r := perform serverAddress (clock n).2 w.db (clock n).1 id t action
      runEvents serverAddress clock (n + 1) { db := r.db, copies := w.copies.put id (id, r.task) } rest
    | none => runEvents serverAddress clock (n + 1) w rest
  | n, w, _ :: rest => runEvents serverAddress clock (n + 1) w rest

theorem get?_runEvents {serverAddress : String} {clock : Clock} {id : ℤ} {events : List Event}
    (h : ∀ channelId upstreamID cause action, .act id channelId upstreamID cause action ∉ events)
    (n : ℕ) (w : World) :
    (runEvents serverAddress clock n w events).db.tasks.get? id = w.db.tasks.get? id ∧
      (runEvents serverAddress clock n w events).db.asyncTaskRefundRecords.get? id =
        w.db.asyncTaskRefundRecords.get? id := by
  induction events generalizing n w with
  | nil => exact ⟨rfl, rfl⟩
  | cons event rest ih =>
    have hrest : ∀ channelId upstreamID cause action,
        .act id channelId upstreamID cause action ∉ rest := fun channelId upstreamID cause action hmem =>
      h channelId upstreamID cause action (mem_cons_of_mem _ hmem)
    cases event with
    | ask | panic => exact ih hrest (n + 1) w
    | act id' channelId upstreamID cause action =>
      have hid : id' ≠ id := by
        rintro rfl
        exact h channelId upstreamID cause action mem_cons_self
      rw [runEvents]
      cases hcopy : w.copies.get? id' with
      | none => exact ih hrest (n + 1) w
      | some copy =>
        obtain ⟨htasks, hrefunds⟩ := (performed_perform serverAddress (clock n).2 w.db (clock n).1 id'
          copy.2 action).writes.get?_of_ne hid
        exact ⟨(ih hrest (n + 1) _).1.trans htasks, (ih hrest (n + 1) _).2.trans hrefunds⟩

/-! ## What is reported -/

/-- The status that an action brings from where it comes from. -/
def Action.Reports : Action → TaskStatus → Prop
  | .sweep _ _, status | .fail _, status => status = .failure
  | .video _ taskResult _, status => status = taskResult.status
  | .suno responseItem, status =>
    status = if responseItem.failReason ≠ "" then .failure else responseItem.status

/-- Some action on the row in the round reports the status. -/
def Told (events : List Event) (id : ℤ) (status : TaskStatus) : Prop :=
  ∃ channelId upstreamID cause action,
    .act id channelId upstreamID cause action ∈ events ∧ action.Reports status

/-- The row is as it was, or was in `fromStatus` and holds `t'`; a refund comes with a failure only. -/
structure Wrote (db db' : Db) (id : ℤ) (fromStatus : TaskStatus) (t' : Task) : Prop where
  row : db'.tasks.get? id = db.tasks.get? id ∨
    (∃ row, db.tasks.get? id = some row ∧ row.status = fromStatus) ∧ db'.tasks.get? id = some t'
  refund : db'.asyncTaskRefundRecords.get? id = db.asyncTaskRefundRecords.get? id ∨
    t'.status = .failure ∧ fromStatus ≠ .failure

section Wrote

variable {db : Db} {id now : ℤ} {t t' : Task} {o : Outcome} {fromStatus : TaskStatus}

theorem wrote_updateWithStatus :
    Wrote db (withOutcome o db (.ok (updateWithStatus db id t' fromStatus))).1 id fromStatus t' := by
  refine withOutcome_fst_cases _ _ _ ⟨.inl rfl, .inl rfl⟩ fun db' won h => ?_
  obtain rfl := congrArg Prod.fst (Except.ok.inj h)
  obtain hsame | ⟨row, hrow, hstatus, hwon⟩ := updateWithStatus_cases db id t' fromStatus
  · rw [hsame]
    exact ⟨.inl rfl, .inl rfl⟩
  · rw [hwon]
    refine ⟨.inr ⟨⟨row, hrow, hstatus⟩, ?_⟩, .inl rfl⟩
    rw [Table.get?_modify_self, hrow, map_some]

theorem wrote_updateFailureWithRefund :
    Wrote db (withOutcome o db (updateFailureWithRefund db now id t' fromStatus)).1 id fromStatus t' := by
  refine withOutcome_fst_cases _ _ _ ⟨.inl rfl, .inl rfl⟩ fun db' won h => ?_
  obtain ⟨rfl, -⟩ | ⟨-, -, -, hfail, -, hfailure, ⟨row, hrow, hstatus⟩, record, refunds, -, -, -, -,
    happly⟩ := updateFailureWithRefund_of_ok h
  · exact ⟨.inl rfl, .inl rfl⟩
  · refine ⟨.inr ⟨⟨row, hrow, hstatus⟩, ?_⟩, .inr ⟨hfailure, hfail⟩⟩
    rw [(returned_of_applied happly).1, Table.get?_modify_self, hrow, map_some]

variable (db now id t o) in
theorem wrote_transitionTaskToFailure (reason : String) (finishTime : ℤ) : ∃ t',
    Wrote db (transitionTaskToFailure o db now id t reason finishTime).db id t.status t' ∧
      t'.status = .failure := by
  unfold transitionTaskToFailure
  dsimp only
  by_cases hquota : t.quota ≤ 0
  · rw [if_pos hquota]
    exact ⟨_, wrote_updateWithStatus, rfl⟩
  · rw [if_neg hquota]
    exact ⟨_, wrote_updateFailureWithRefund, rfl⟩

theorem status_sunoColumns (responseItem : SunoDataResponse) (t : Task) :
    (sunoColumns responseItem t).status = t.status ∨
      (Action.suno responseItem).Reports (sunoColumns responseItem t).status := by
  unfold Action.Reports sunoColumns
  dsimp only
  by_cases hreason : responseItem.failReason ≠ ""
  · rw [if_pos (Or.inl hreason), if_pos hreason]
    exact .inr rfl
  · rw [if_neg hreason]
    by_cases hempty : responseItem.status ≠ .other ""
    · rw [if_pos hempty]
      split_ifs with hfailed
      · exact .inr (hfailed.resolve_left hreason).symm
      · exact .inr rfl
    · rw [if_neg hempty]
      split_ifs with hfailed
      · exact .inl (hfailed.resolve_left hreason).symm
      · exact .inl rfl

theorem wrote_updateVideoSingleTask (serverAddress data : String) (taskResult : TaskInfo)
    (actualQuota : ℤ) : ∃ t', Wrote db (updateVideoSingleTask serverAddress o db now id t data
        taskResult actualQuota).db id t.status t' ∧ t'.status = taskResult.status := by
  unfold updateVideoSingleTask
  dsimp only
  cases hcolumns : videoColumns serverAddress now taskResult
      { t with data, status := taskResult.status } with
  | none => exact ⟨{ t with status := taskResult.status }, ⟨.inl rfl, .inl rfl⟩, rfl⟩
  | some task =>
    dsimp only
    refine ⟨withReportedProgress taskResult task, ?_, (videoColumns_of_some hcolumns).2⟩
    generalize withReportedProgress taskResult task = t'
    split
    · have hwrote : Wrote db (withOutcome o db
          (if taskResult.status = .failure ∧ t.quota ≠ 0 then
            updateFailureWithRefund db now id t' t.status
          else .ok (updateWithStatus db id t' t.status))).1 id t.status t' := by
        split_ifs
        · exact wrote_updateFailureWithRefund
        · exact wrote_updateWithStatus
      generalize withOutcome o db (if taskResult.status = .failure ∧ t.quota ≠ 0 then
          updateFailureWithRefund db now id t' t.status
        else .ok (updateWithStatus db id t' t.status)) = cas at hwrote ⊢
      obtain ⟨db', res⟩ := cas
      dsimp only at hwrote ⊢
      split <;> exact hwrote
    · split
      · exact wrote_updateWithStatus
      · exact ⟨.inl rfl, .inl rfl⟩

/-- What a call writes to its row has the status of the copy or the one that the action reports. -/
theorem wrote_perform (serverAddress : String) (o : Outcome) (db : Db) (now id : ℤ) (t : Task)
    (action : Action) : ∃ t', Wrote db (perform serverAddress o db now id t action).db id t.status t' ∧
      (t'.status = t.status ∨ action.Reports t'.status) := by
  cases action with
  | sweep reason legacyReason =>
    show ∃ t', Wrote db (sweepTimedOutTask o db now id t reason legacyReason).db id t.status t' ∧ _
    unfold sweepTimedOutTask
    split_ifs
    · exact ⟨_, wrote_updateWithStatus, .inr rfl⟩
    · obtain ⟨t', hwrote, hfailure⟩ := wrote_transitionTaskToFailure db id now t o reason now
      exact ⟨t', hwrote, .inr hfailure⟩
  | fail reason =>
    obtain ⟨t', hwrote, hfailure⟩ := wrote_transitionTaskToFailure db id now t o reason now
    exact ⟨t', hwrote, .inr hfailure⟩
  | video data taskResult actualQuota =>
    obtain ⟨t', hwrote, hstatus⟩ := wrote_updateVideoSingleTask serverAddress data taskResult actualQuota
    exact ⟨t', hwrote, .inr hstatus⟩
  | suno responseItem =>
    refine ⟨sunoColumns responseItem t, ?_, status_sunoColumns responseItem t⟩
    show Wrote db (updateSunoTask o db now id t responseItem).db id t.status _
    unfold updateSunoTask
    split
    · exact ⟨.inl rfl, .inl rfl⟩
    · dsimp only
      split_ifs
      · exact wrote_updateFailureWithRefund
      · exact wrote_updateWithStatus

end Wrote

/-- A round leaves the status of a row, or gives it one that an action on it reports; a refund of the
row appears only when an action on it reports a failure. -/
theorem told_runEvents (serverAddress : String) (clock : Clock) (id : ℤ) (events : List Event) (n : ℕ)
    (w : World) :
    (∀ t', (runEvents serverAddress clock n w events).db.tasks.get? id = some t' →
      (∃ t, w.db.tasks.get? id = some t ∧ t'.status = t.status) ∨ Told events id t'.status) ∧
    ((runEvents serverAddress clock n w events).db.asyncTaskRefundRecords.get? id =
        w.db.asyncTaskRefundRecords.get? id ∨ Told events id .failure) := by
  induction events generalizing n w with
  | nil => exact ⟨fun t' ht' => .inl ⟨t', ht', rfl⟩, .inl rfl⟩
  | cons event rest ih =>
    have hlater : ∀ {status}, Told rest id status → Told (event :: rest) id status :=
      fun ⟨channelId, upstreamID, cause, action, hmem, hreports⟩ =>
        ⟨channelId, upstreamID, cause, action, mem_cons_of_mem _ hmem, hreports⟩
    cases event with
    | ask | panic =>
      obtain ⟨hrow, hrefund⟩ := ih (n + 1) w
      exact ⟨fun t' ht' => (hrow t' ht').imp_right hlater, hrefund.imp_right hlater⟩
    | act id' channelId upstreamID cause action =>
      rw [runEvents]
      cases hcopy : w.copies.get? id' with
      | none =>
        obtain ⟨hrow, hrefund⟩ := ih (n + 1) w
        exact ⟨fun t' ht' => (hrow t' ht').imp_right hlater, hrefund.imp_right hlater⟩
      | some copy =>
        dsimp only
        obtain ⟨hrow, hrefund⟩ := ih (n + 1)
          { db := (perform serverAddress (clock n).2 w.db (clock n).1 id' copy.2 action).db
            copies := w.copies.put id' (id',
              (perform serverAddress (clock n).2 w.db (clock n).1 id' copy.2 action).task) }
        by_cases hid : id' = id
        · subst hid
          obtain ⟨written, hwrote, hstatus⟩ := wrote_perform serverAddress (clock n).2 w.db (clock n).1
            id' copy.2 action
          have hnow : action.Reports written.status →
              Told (.act id' channelId upstreamID cause action :: rest) id' written.status :=
            fun hreports => ⟨channelId, upstreamID, cause, action, mem_cons_self, hreports⟩
          refine ⟨fun t' ht' => ?_, ?_⟩
          · obtain ⟨t, ht, hsame⟩ | htold := hrow t' ht'
            · obtain hkept | ⟨⟨row, hrow, hfrom⟩, hwritten⟩ := hwrote.row
              · exact .inl ⟨t, hkept.symm.trans ht, hsame⟩
              · obtain rfl := some.inj (hwritten.symm.trans ht)
                rw [hsame]
                exact hstatus.imp (fun h => ⟨row, hrow, h.trans hfrom.symm⟩) hnow
            · exact .inr (hlater htold)
          · obtain hsame | htold := hrefund
            · obtain hkept | ⟨hfailure, hfrom⟩ := hwrote.refund
              · exact .inl (hsame.trans hkept)
              · have hreports := hnow (hstatus.resolve_left fun h => hfrom (h.symm.trans hfailure))
                rw [hfailure] at hreports
                exact .inr hreports
            · exact .inr (hlater htold)
        · obtain ⟨htasks, hrefunds⟩ := (performed_perform serverAddress (clock n).2 w.db (clock n).1 id'
            copy.2 action).writes.get?_of_ne hid
          refine ⟨fun t' ht' => ?_, ?_⟩
          · obtain ⟨t, ht, hsame⟩ | htold := hrow t' ht'
            · exact .inl ⟨t, htasks.symm.trans ht, hsame⟩
            · exact .inr (hlater htold)
          · exact hrefund.imp (fun h => h.trans hrefunds) hlater

/-! ## Attribution -/

/-- The action is the answer of the channel for the upstream id, as it was given. -/
def Answered (platform : TaskPlatform) (up : Upstream) (tasks : Table ℤ PendingTask) (channelId : ℤ)
    (upstreamID : String) : Action → Prop
  | .video data taskResult actualQuota =>
    platform = .video ∧ up.videoAnswer channelId upstreamID = some (data, taskResult, actualQuota)
  | .suno responseItem => platform = .suno ∧
    ∃ items ∈ up.sunoAnswer channelId (taskChannelM tasks channelId), (upstreamID, responseItem) ∈ items
  | _ => False

/-- Every task of a channel that can be read is asked for where it belongs.  What is done because of an
answer is the answer of its channel for its upstream id; a task of an unreadable channel, or without an
upstream id, is failed.  Nothing panics. -/
structure Attributed (platform : TaskPlatform) (up : Upstream) (tasks : Table ℤ PendingTask)
    (events : List Event) : Prop where
  asked : ∀ e ∈ tasks.rows, e.2.upstreamID ≠ "" → up.readable e.2.channelId = true →
    ∃ upstreamIDs, .ask e.2.channelId upstreamIDs ∈ events ∧ e.2.upstreamID ∈ upstreamIDs
  answered : ∀ id channelId upstreamID action, .act id channelId upstreamID .answer action ∈ events →
    (∃ t, tasks.get? id = some t ∧ t.channelId = channelId ∧ t.upstreamID = upstreamID) ∧
      Answered platform up tasks channelId upstreamID action
  failed : ∀ id channelId upstreamID action, .act id channelId upstreamID .unreadable action ∈ events →
    (∃ t, tasks.get? id = some t ∧ t.channelId = channelId) ∧ up.readable channelId = false ∧
      ∃ reason, action = .fail reason
  nulled : ∀ id channelId upstreamID action, .act id channelId upstreamID .nullID action ∈ events →
    (∃ t, tasks.get? id = some t ∧ t.upstreamID = "") ∧ ∃ reason, action = .fail reason
  safe : .panic ∉ events

def answeredIDs (platform : TaskPlatform) (up : Upstream) (tasks : Table ℤ PendingTask)
    (channelId : ℤ) : List String :=
  if !up.readable channelId then taskChannelM tasks channelId
  else match platform with
    | .suno => ((up.sunoAnswer channelId (taskChannelM tasks channelId)).getD []).map Prod.fst
    | .video => (taskChannelM tasks channelId).filter fun upstreamID =>
        (up.videoAnswer channelId upstreamID).isSome

def OwnedBy (tasks : Table ℤ PendingTask) (channelId : ℤ) (upstreamID : String) : Prop :=
  ∃ e, taskM tasks upstreamID = some e ∧ e.2.channelId = channelId

section Lookup

variable {tasks : Table ℤ PendingTask} {channelId : ℤ} {upstreamID : String}

theorem taskM_of_some {e : ℤ × PendingTask} (h : taskM tasks upstreamID = some e) :
    e ∈ tasks.rows ∧ e.2.upstreamID ≠ "" ∧ e.2.upstreamID = upstreamID := by
  have hfound := find?_some h
  rw [Bool.and_eq_true_iff, decide_eq_true_iff, decide_eq_true_iff] at hfound
  exact ⟨mem_reverse.1 (mem_of_find?_eq_some h), hfound⟩

theorem mem_taskChannelM : upstreamID ∈ taskChannelM tasks channelId ↔
    ∃ e ∈ tasks.rows, e.2.upstreamID ≠ "" ∧ e.2.channelId = channelId ∧ e.2.upstreamID = upstreamID := by
  unfold taskChannelM
  rw [List.mem_map]
  constructor
  · rintro ⟨e, he, rfl⟩
    obtain ⟨hmem, hprop⟩ := mem_filter.1 he
    rw [Bool.and_eq_true_iff, decide_eq_true_iff, decide_eq_true_iff] at hprop
    exact ⟨e, hmem, hprop.1, hprop.2, rfl⟩
  · rintro ⟨e, hmem, hne, hchannel, rfl⟩
    exact ⟨e, mem_filter.2 ⟨hmem, by simp [hne, hchannel]⟩, rfl⟩

theorem exists_taskM (h : upstreamID ∈ taskChannelM tasks channelId) :
    ∃ e, taskM tasks upstreamID = some e := by
  obtain ⟨e, hmem, hne, -, rfl⟩ := mem_taskChannelM.1 h
  cases hfind : taskM tasks e.2.upstreamID with
  | some e' => exact ⟨e', rfl⟩
  | none =>
    have hnot := find?_eq_none.1 hfind e (mem_reverse.2 hmem)
    simp [hne] at hnot

theorem OwnedBy.get? {e : ℤ × PendingTask} (h : OwnedBy tasks channelId upstreamID)
    (he : taskM tasks upstreamID = some e) :
    tasks.get? e.1 = some e.2 ∧ e.2.channelId = channelId ∧ e.2.upstreamID = upstreamID := by
  obtain ⟨e', he', hchannel⟩ := h
  rw [he] at he'
  cases he'
  obtain ⟨hmem, -, hid⟩ := taskM_of_some he
  exact ⟨(Table.get?_eq_some_iff _ _ _).2 hmem, hchannel, hid⟩

theorem ownedBy_of_get? {e : ℤ × PendingTask} (he : taskM tasks upstreamID = some e)
    (h : ∃ t, tasks.get? e.1 = some t ∧ t.channelId = channelId) :
    OwnedBy tasks channelId upstreamID := by
  obtain ⟨t, ht, hchannel⟩ := h
  obtain ⟨hmem, -, -⟩ := taskM_of_some he
  rw [(Table.get?_eq_some_iff _ _ _).2 hmem] at ht
  cases ht
  exact ⟨e, he, hchannel⟩

end Lookup

theorem untilPanic_eq_flatten {blocks : List (List Event)} (h : ∀ events ∈ blocks, .panic ∉ events) :
    untilPanic blocks = blocks.flatten := by
  induction blocks with
  | nil => rfl
  | cons events rest ih =>
    rw [untilPanic, if_neg (h events mem_cons_self),
      ih fun events hmem => h events (mem_cons_of_mem _ hmem), flatten_cons]

theorem panic_notMem_of_untilPanic {blocks : List (List Event)} (h : .panic ∉ untilPanic blocks) :
    ∀ events ∈ blocks, .panic ∉ events := by
  induction blocks with
  | nil => exact fun events hmem => absurd hmem not_mem_nil
  | cons events rest ih =>
    rw [untilPanic] at h
    split_ifs at h with hpanic
    · exact absurd hpanic h
    · intro events' hmem
      rcases mem_cons.1 hmem with rfl | hrest
      · exact hpanic
      · exact ih (fun hin => h (mem_append_right _ hin)) events' hrest

/-! ## A channel -/

section Channel

variable {up : Upstream} {tasks : Table ℤ PendingTask} {channelId : ℤ}

theorem mem_unreadableEvents {reason : String} {event : Event} :
    event ∈ unreadableEvents tasks channelId reason ↔
      ∃ upstreamID ∈ taskChannelM tasks channelId, ∃ e, taskM tasks upstreamID = some e ∧
        event = .act e.1 channelId upstreamID .unreadable (.fail reason) := by
  unfold unreadableEvents
  rw [mem_filterMap]
  refine exists_congr fun upstreamID => and_congr_right fun _ => ?_
  rw [map_eq_some_iff]
  exact exists_congr fun e => and_congr_right fun _ => eq_comm

theorem mem_sunoItemEvents {items : List (String × SunoDataResponse)}
    (hknown : ∀ item ∈ items, ∃ e, taskM tasks item.1 = some e) {event : Event} :
    event ∈ sunoItemEvents tasks channelId items ↔
      ∃ item ∈ items, ∃ e, taskM tasks item.1 = some e ∧
        event = .act e.1 channelId item.1 .answer (.suno item.2) := by
  induction items with
  | nil => simp [sunoItemEvents]
  | cons item rest ih =>
    obtain ⟨taskID, responseItem⟩ := item
    obtain ⟨e, he⟩ := hknown _ mem_cons_self
    rw [sunoItemEvents]
    rw [he]
    rw [mem_cons, ih fun item hmem => hknown item (mem_cons_of_mem _ hmem)]
    constructor
    · rintro (rfl | ⟨item, hmem, e', he', rfl⟩)
      · exact ⟨_, mem_cons_self, e, he, rfl⟩
      · exact ⟨item, mem_cons_of_mem _ hmem, e', he', rfl⟩
    · rintro ⟨item, hmem, e', he', rfl⟩
      rcases mem_cons.1 hmem with rfl | hrest
      · rw [he] at he'
        cases he'
        exact .inl rfl
      · exact .inr ⟨item, hrest, e', he', rfl⟩

theorem known_of_safe {items : List (String × SunoDataResponse)}
    (h : .panic ∉ sunoItemEvents tasks channelId items) :
    ∀ item ∈ items, ∃ e, taskM tasks item.1 = some e := by
  induction items with
  | nil => exact fun item hmem => absurd hmem not_mem_nil
  | cons item rest ih =>
    obtain ⟨taskID, responseItem⟩ := item
    rw [sunoItemEvents] at h
    cases he : taskM tasks taskID with
    | none =>
      rw [he] at h
      exact absurd mem_cons_self h
    | some e =>
      rw [he] at h
      intro item' hmem
      rcases mem_cons.1 hmem with rfl | hrest
      · exact ⟨e, he⟩
      · exact ih (fun hin => h (mem_cons_of_mem _ hin)) item' hrest

theorem mem_videoEvents {taskId : String} {event : Event} :
    event ∈ videoEvents up tasks channelId taskId ↔
      ∃ e, taskM tasks taskId = some e ∧ (event = .ask channelId [e.2.upstreamID] ∨
        ∃ answer, up.videoAnswer channelId e.2.upstreamID = some answer ∧
          event = .act e.1 channelId taskId .answer (.video answer.1 answer.2.1 answer.2.2)) := by
  unfold videoEvents
  cases he : taskM tasks taskId with
  | none => simp
  | some e =>
    rw [mem_cons, mem_toList, map_eq_some_iff]
    constructor
    · rintro (h | ⟨answer, hanswer, rfl⟩)
      · exact ⟨e, rfl, .inl h⟩
      · exact ⟨e, rfl, .inr ⟨answer, hanswer, rfl⟩⟩
    · rintro ⟨e', he', h⟩
      cases he'
      refine h.imp id ?_
      rintro ⟨answer, hanswer, rfl⟩
      exact ⟨answer, hanswer, rfl⟩

variable {platform : TaskPlatform}

variable (platform tasks) in
theorem updateTasks_of_unreadable (h : up.readable channelId = false) : ∃ reason,
    updateTasks platform up tasks channelId = unreadableEvents tasks channelId reason := by
  cases platform with
  | suno =>
    rw [updateTasks, updateSunoTasks, h]
    exact ⟨_, rfl⟩
  | video =>
    rw [updateTasks, updateVideoTasks, h]
    exact ⟨_, rfl⟩

theorem answeredIDs_of_unreadable (h : up.readable channelId = false) :
    answeredIDs platform up tasks channelId = taskChannelM tasks channelId := by
  unfold answeredIDs
  rw [h]
  rfl

section
variable (h : up.readable channelId = true)
include h

theorem updateSunoTasks_of_readable :
    updateTasks .suno up tasks channelId = .ask channelId (taskChannelM tasks channelId) ::
      sunoItemEvents tasks channelId
        ((up.sunoAnswer channelId (taskChannelM tasks channelId)).getD []) := by
  rw [updateTasks, updateSunoTasks, h]
  cases up.sunoAnswer channelId (taskChannelM tasks channelId) <;> rfl

theorem answeredIDs_suno :
    answeredIDs .suno up tasks channelId =
      ((up.sunoAnswer channelId (taskChannelM tasks channelId)).getD []).map Prod.fst := by
  unfold answeredIDs
  rw [h]
  rfl

theorem mem_updateVideoTasks_of_readable {event : Event} :
    event ∈ updateTasks .video up tasks channelId ↔
      ∃ upstreamID ∈ taskChannelM tasks channelId, event ∈ videoEvents up tasks channelId upstreamID := by
  rw [updateTasks, updateVideoTasks, h]
  exact mem_flatMap

theorem mem_answeredIDs_video {upstreamID : String} :
    upstreamID ∈ answeredIDs .video up tasks channelId ↔ upstreamID ∈ taskChannelM tasks channelId ∧
        ∃ answer, up.videoAnswer channelId upstreamID = some answer := by
  unfold answeredIDs
  rw [h, ← isSome_iff_exists]
  exact mem_filter

end

/-- A channel panics when it answers for an id that `taskM` does not know. -/
theorem panic_notMem_updateTasks : .panic ∉ updateTasks platform up tasks channelId ↔
    ∀ upstreamID ∈ answeredIDs platform up tasks channelId, ∃ e, taskM tasks upstreamID = some e := by
  cases hreadable : up.readable channelId with
  | false =>
    obtain ⟨reason, hevents⟩ := updateTasks_of_unreadable tasks platform hreadable
    rw [hevents, answeredIDs_of_unreadable hreadable]
    refine iff_of_true (fun hin => ?_) fun upstreamID hmem => exists_taskM hmem
    obtain ⟨u, hu, e, he, heq⟩ := mem_unreadableEvents.1 hin
    cases heq
  | true =>
    cases platform with
    | suno =>
      rw [updateSunoTasks_of_readable hreadable, answeredIDs_suno hreadable]
      generalize (up.sunoAnswer channelId (taskChannelM tasks channelId)).getD [] = items
      constructor
      · intro hsafe upstreamID hmem
        obtain ⟨item, hitem, rfl⟩ := mem_map.1 hmem
        exact known_of_safe (fun hin => hsafe (mem_cons_of_mem _ hin)) item hitem
      · intro hknown hin
        rcases mem_cons.1 hin with heq | hitems
        · cases heq
        · obtain ⟨item, hitem, e, he, heq⟩ := (mem_sunoItemEvents fun item hitem =>
            hknown item.1 (mem_map_of_mem hitem)).1 hitems
          cases heq
    | video =>
      refine iff_of_true (fun hin => ?_) fun upstreamID hmem =>
        exists_taskM ((mem_answeredIDs_video hreadable).1 hmem).1
      obtain ⟨upstreamID, -, hmem⟩ := (mem_updateVideoTasks_of_readable hreadable).1 hin
      obtain ⟨e, he, heq | ⟨answer, hanswer, heq⟩⟩ := mem_videoEvents.1 hmem
      · cases heq
      · cases heq

def channelCause (up : Upstream) (channelId : ℤ) : Cause :=
  if up.readable channelId then .answer else .unreadable

theorem act_mem_updateTasks (hsafe : .panic ∉ updateTasks platform up tasks channelId)
    {id channelId' : ℤ} {upstreamID : String} {cause : Cause} :
    (∃ action, .act id channelId' upstreamID cause action ∈ updateTasks platform up tasks channelId) ↔
      channelId' = channelId ∧ cause = channelCause up channelId ∧
        upstreamID ∈ answeredIDs platform up tasks channelId ∧
          ∃ e, taskM tasks upstreamID = some e ∧ e.1 = id := by
  unfold channelCause
  cases hreadable : up.readable channelId with
  | false =>
    obtain ⟨reason, hevents⟩ := updateTasks_of_unreadable tasks platform hreadable
    rw [hevents, answeredIDs_of_unreadable hreadable]
    constructor
    · rintro ⟨action, hin⟩
      obtain ⟨u, hu, e, he, heq⟩ := mem_unreadableEvents.1 hin
      cases heq
      exact ⟨rfl, rfl, hu, e, he, rfl⟩
    · rintro ⟨rfl, rfl, hu, e, he, rfl⟩
      exact ⟨_, mem_unreadableEvents.2 ⟨upstreamID, hu, e, he, rfl⟩⟩
  | true =>
    have hknown := panic_notMem_updateTasks.1 hsafe
    cases platform with
    | suno =>
      rw [updateSunoTasks_of_readable hreadable]
      rw [answeredIDs_suno hreadable] at hknown ⊢
      generalize (up.sunoAnswer channelId (taskChannelM tasks channelId)).getD [] = items at hknown ⊢
      have hitems : ∀ item ∈ items, ∃ e, taskM tasks item.1 = some e := fun item hitem =>
        hknown item.1 (mem_map_of_mem hitem)
      constructor
      · rintro ⟨action, hin⟩
        rcases mem_cons.1 hin with heq | hin
        · cases heq
        · obtain ⟨item, hitem, e, he, heq⟩ := (mem_sunoItemEvents hitems).1 hin
          cases heq
          exact ⟨rfl, rfl, mem_map_of_mem hitem, e, he, rfl⟩
      · rintro ⟨rfl, rfl, hu, e, he, rfl⟩
        obtain ⟨item, hitem, rfl⟩ := mem_map.1 hu
        exact ⟨_, mem_cons_of_mem _ ((mem_sunoItemEvents hitems).2 ⟨item, hitem, e, he, rfl⟩)⟩
    | video =>
      rw [mem_answeredIDs_video hreadable]
      constructor
      · rintro ⟨action, hin⟩
        obtain ⟨u, hu, hmem⟩ := (mem_updateVideoTasks_of_readable hreadable).1 hin
        obtain ⟨e, he, heq | ⟨answer, hanswer, heq⟩⟩ := mem_videoEvents.1 hmem
        · cases heq
        · cases heq
          rw [(taskM_of_some he).2.2] at hanswer
          exact ⟨rfl, rfl, ⟨hu, answer, hanswer⟩, e, he, rfl⟩
      · rintro ⟨rfl, rfl, ⟨hu, answer, hanswer⟩, e, he, rfl⟩
        refine ⟨_, (mem_updateVideoTasks_of_readable hreadable).2 ⟨upstreamID, hu,
          mem_videoEvents.2 ⟨e, he, .inr ⟨answer, ?_, rfl⟩⟩⟩⟩
        rw [(taskM_of_some he).2.2]
        exact hanswer

/-- What a channel does to a task is its answer for the id, or the failure of an unreadable channel. -/
theorem answered_of_act (hsafe : .panic ∉ updateTasks platform up tasks channelId) {id channelId' : ℤ}
    {upstreamID : String} {cause : Cause} {action : Action}
    (h : .act id channelId' upstreamID cause action ∈ updateTasks platform up tasks channelId) :
    if up.readable channelId then Answered platform up tasks channelId upstreamID action
    else ∃ reason, action = .fail reason := by
  cases hreadable : up.readable channelId with
  | false =>
    rw [if_neg Bool.false_ne_true]
    obtain ⟨reason, hevents⟩ := updateTasks_of_unreadable tasks platform hreadable
    rw [hevents] at h
    obtain ⟨u, -, e, -, heq⟩ := mem_unreadableEvents.1 h
    cases heq
    exact ⟨reason, rfl⟩
  | true =>
    rw [if_pos rfl]
    have hknown := panic_notMem_updateTasks.1 hsafe
    cases platform with
    | suno =>
      rw [updateSunoTasks_of_readable hreadable] at h
      rw [answeredIDs_suno hreadable] at hknown
      cases hitems : up.sunoAnswer channelId (taskChannelM tasks channelId) with
      | none =>
        rw [hitems] at h
        cases mem_singleton.1 h
      | some items =>
        rw [hitems, getD_some] at h hknown
        rcases mem_cons.1 h with heq | h
        · cases heq
        · obtain ⟨item, hitem, e, -, heq⟩ := (mem_sunoItemEvents fun item hitem =>
            hknown item.1 (mem_map_of_mem hitem)).1 h
          cases heq
          exact ⟨rfl, items, hitems, hitem⟩
    | video =>
      obtain ⟨u, -, hmem⟩ := (mem_updateVideoTasks_of_readable hreadable).1 h
      obtain ⟨e, he, heq | ⟨answer, hanswer, heq⟩⟩ := mem_videoEvents.1 hmem
      · cases heq
      · cases heq
        rw [(taskM_of_some he).2.2] at hanswer
        exact ⟨rfl, hanswer⟩

variable (platform) in
theorem ask_mem_updateTasks (hreadable : up.readable channelId = true) {upstreamID : String}
    (h : upstreamID ∈ taskChannelM tasks channelId) : ∃ upstreamIDs,
      .ask channelId upstreamIDs ∈ updateTasks platform up tasks channelId ∧ upstreamID ∈ upstreamIDs := by
  cases platform with
  | suno =>
    rw [updateSunoTasks_of_readable hreadable]
    exact ⟨_, mem_cons_self, h⟩
  | video =>
    obtain ⟨e, he⟩ := exists_taskM h
    refine ⟨[e.2.upstreamID], (mem_updateVideoTasks_of_readable hreadable).2 ⟨upstreamID, h,
      mem_videoEvents.2 ⟨e, he, .inl rfl⟩⟩, ?_⟩
    rw [(taskM_of_some he).2.2]
    exact mem_singleton_self _

end Channel

/-! ## Every round -/

/-- A round attributes every answer to the right task if and only if the last task with an id that a
channel answers for, or fails, is one of that channel. -/
theorem attributed_iff {platform : TaskPlatform} {up : Upstream} {tasks : Table ℤ PendingTask}
    {channels : List ℤ} (hchannels : ChannelsOf tasks channels) :
    Attributed platform up tasks (pollingRound platform up tasks channels) ↔
      ∀ channelId ∈ channels, ∀ upstreamID ∈ answeredIDs platform up tasks channelId,
        OwnedBy tasks channelId upstreamID := by
  have hnull : .panic ∉ nullTaskEvents tasks := by
    intro hin
    obtain ⟨e, -, heq⟩ := mem_map.1 hin
    cases heq
  have hmem : (∀ channelId ∈ channels, .panic ∉ updateTasks platform up tasks channelId) →
      ∀ event, event ∈ pollingRound platform up tasks channels ↔ event ∈ nullTaskEvents tasks ∨
        ∃ channelId ∈ channels, event ∈ updateTasks platform up tasks channelId := by
    intro hsafe event
    rw [pollingRound, untilPanic_eq_flatten, flatten_cons, mem_append, ← flatMap_def, mem_flatMap]
    intro events hevents
    rcases mem_cons.1 hevents with rfl | hevents
    · exact hnull
    · obtain ⟨channelId, hchannel, rfl⟩ := mem_map.1 hevents
      exact hsafe channelId hchannel
  constructor
  · intro h channelId hchannel upstreamID hanswered
    have hsafe : ∀ channelId ∈ channels, .panic ∉ updateTasks platform up tasks channelId :=
      fun channelId hchannel => panic_notMem_of_untilPanic h.safe _
        (mem_cons_of_mem _ (mem_map_of_mem hchannel))
    obtain ⟨e, he⟩ := panic_notMem_updateTasks.1 (hsafe channelId hchannel) upstreamID hanswered
    obtain ⟨action, hact⟩ := (act_mem_updateTasks (hsafe channelId hchannel)).2
      ⟨rfl, rfl, hanswered, e, he, rfl⟩
    have hround := (hmem hsafe _).2 (.inr ⟨channelId, hchannel, hact⟩)
    refine ownedBy_of_get? he ?_
    unfold channelCause at hround
    split_ifs at hround
    · obtain ⟨⟨t, ht, hown, -⟩, -⟩ := h.answered _ _ _ _ hround
      exact ⟨t, ht, hown⟩
    · exact (h.failed _ _ _ _ hround).1
  · intro howned
    have hsafe : ∀ channelId ∈ channels, .panic ∉ updateTasks platform up tasks channelId := by
      intro channelId hchannel
      refine panic_notMem_updateTasks.2 fun upstreamID hanswered => ?_
      obtain ⟨e, he, -⟩ := howned channelId hchannel upstreamID hanswered
      exact ⟨e, he⟩
    -- a task that a channel acts on is its own, and the action is its answer
    have hown : ∀ id channelId upstreamID cause action, cause ≠ .nullID →
        .act id channelId upstreamID cause action ∈ pollingRound platform up tasks channels →
          (∃ t, tasks.get? id = some t ∧ t.channelId = channelId ∧ t.upstreamID = upstreamID) ∧
            cause = channelCause up channelId ∧
              if up.readable channelId then Answered platform up tasks channelId upstreamID action
              else ∃ reason, action = .fail reason := by
      intro id channelId upstreamID cause action hcause hin
      rcases (hmem hsafe _).1 hin with hin | ⟨channelId', hchannel, hin⟩
      · obtain ⟨e, -, heq⟩ := mem_map.1 hin
        cases heq
        exact absurd rfl hcause
      · obtain ⟨rfl, hwhy, hanswered, e, he, rfl⟩ :=
          (act_mem_updateTasks (hsafe channelId' hchannel)).1 ⟨action, hin⟩
        exact ⟨⟨e.2, (howned _ hchannel upstreamID hanswered).get? he⟩, hwhy,
          answered_of_act (hsafe _ hchannel) hin⟩
    refine ⟨fun e he hne hreadable => ?_, fun id channelId upstreamID action hin => ?_,
      fun id channelId upstreamID action hin => ?_, fun id channelId upstreamID action hin => ?_,
      fun hin => ?_⟩
    · obtain ⟨upstreamIDs, hin, hasked⟩ := ask_mem_updateTasks platform hreadable
        (mem_taskChannelM.2 ⟨e, he, hne, rfl, rfl⟩)
      exact ⟨upstreamIDs, (hmem hsafe _).2 (.inr ⟨_, (hchannels _).2 ⟨e, he, hne, rfl⟩, hin⟩), hasked⟩
    · obtain ⟨htask, hwhy, hanswer⟩ := hown id channelId upstreamID .answer action nofun hin
      unfold channelCause at hwhy
      split_ifs at hwhy hanswer
      exact ⟨htask, hanswer⟩
    · obtain ⟨⟨t, ht, hchannel, -⟩, hwhy, hfail⟩ := hown id channelId upstreamID .unreadable action
        nofun hin
      unfold channelCause at hwhy
      split_ifs at hwhy hfail with hreadable
      exact ⟨⟨t, ht, hchannel⟩, eq_false_of_ne_true hreadable, hfail⟩
    · rcases (hmem hsafe _).1 hin with hin | ⟨channelId', hchannel, hin⟩
      · obtain ⟨e, he, heq⟩ := mem_map.1 hin
        cases heq
        obtain ⟨hrow, hempty⟩ := mem_filter.1 he
        exact ⟨⟨e.2, (Table.get?_eq_some_iff _ _ _).2 hrow, of_decide_eq_true hempty⟩, _, rfl⟩
      · obtain ⟨-, hwhy, -⟩ := (act_mem_updateTasks (hsafe channelId' hchannel)).1 ⟨action, hin⟩
        unfold channelCause at hwhy
        split_ifs at hwhy
    · rcases (hmem hsafe _).1 hin with hin | ⟨channelId, hchannel, hin⟩
      · exact hnull hin
      · exact hsafe channelId hchannel hin

def taskOf (channelId : ℤ) (upstreamID : String) : PendingTask :=
  { channelId, task := { videoTask with upstreamTaskID := upstreamID } }

def twoTasks (upstreamID upstreamID' : String) : Table ℤ PendingTask :=
  (Table.empty.put 1 (taskOf 10 upstreamID)).put 2 (taskOf 20 upstreamID')

/-- The first channel reports a failure of every id it is asked for, and of one that nobody has. -/
def failingUpstream : Upstream where
  readable _ := true
  videoAnswer channelId _ := if channelId = 10 then some ("", { status := .failure }, 0) else none
  sunoAnswer channelId upstreamIDs :=
    if channelId = 10 then
      some ((upstreamIDs.map fun upstreamID => (upstreamID, { status := .failure })) ++
        [("unknown", { status := .failure })])
    else none

theorem channelsOf_twoTasks {upstreamID upstreamID' : String} (h : upstreamID ≠ "")
    (h' : upstreamID' ≠ "") : ChannelsOf (twoTasks upstreamID upstreamID') [10, 20] := by
  intro channelId
  have hrows : (twoTasks upstreamID upstreamID').rows =
      [(1, taskOf 10 upstreamID), (2, taskOf 20 upstreamID')] := rfl
  have hid : (taskOf 10 upstreamID).upstreamID = upstreamID := if_pos h
  have hid' : (taskOf 20 upstreamID').upstreamID = upstreamID' := if_pos h'
  rw [hrows]
  simp only [mem_cons, not_mem_nil, or_false, exists_eq_or_imp, exists_eq_left, hid, hid',
    ne_eq, h, h', not_false_eq_true, true_and]
  exact ⟨fun hc => hc.imp Eq.symm Eq.symm, fun hc => hc.imp Eq.symm Eq.symm⟩

end BeeApi.Polling
