import BeeApi.IQTest.Channel

/-!
# Enforcement and reconciliation of IQ results

`iqFloor`, `iqPriorityStep`, the part of `EnforceIQTestRun` for one channel, and
`ReconcileIQTestState` for one channel.  Both write the channel in one transaction; what they read
before it is a parameter.  The lease is that of `Lease`; a decision that loses it, and a transaction
that is rolled back, change nothing.
-/

namespace BeeApi.IQTest

open Int64

def iqFloor (base step : Int64) : Int64 :=
  if base < Int64.minValue + 5 * step then Int64.minValue else base - 5 * step

def iqPriorityStep (current target step : Int64) : Int64 :=
  if current < target then
    if current > Int64.maxValue - step ∨ current + step > target then target else current + step
  else if current > target then
    if current < Int64.minValue + step ∨ current - step < target then target else current - step
  else current

/-! ## Configuration, runs and results -/

/-- `IQTestSetting`, as `Validate` accepts it. -/
structure IQTestSetting where
  enabled : Bool := true
  enforcementMode : String := "enforce"
  disableBelowBaseline : Bool := false
  priorityStep : Int64 := 10
  version : ℤ := 1
  positive : 0 < priorityStep := by decide

def IQTestSetting.enforces (s : IQTestSetting) : Bool :=
  s.enforcementMode = "" || s.enforcementMode = "enforce"

/-- `model.IQTestModel`, without its id. -/
structure IQTestModel where
  modelName : String := ""
  baselineScore : ℤ := 0
  enabled : Bool := true
  version : ℤ := 1

/-- What a run has taken over from the configuration and from the channel. -/
structure IQTestRun where
  setting : IQTestSetting
  models : List (ℤ × IQTestModel)
  /-- The entry of the channel in `ChannelRevisions`. -/
  channelRevision : Option ℤ
  bankVersion : String

structure IQTestResult where
  requestedModel : String
  status : String := "success"
  score : Option ℤ := none
  margin : Option ℤ := none

structure IQTestControl where
  revision : ℤ := 0
  lastRunID : String := ""
  modelName : String := ""
  modelVersion : ℤ := 0
  baseline : ℤ := 0
  bankVersion : String := ""
  failStreak : ℕ := 0
  passStreak : ℕ := 0
  step : Int64 := 0

inductive IQAction
  | none | skippedConflict | breakerSkip | disabled | priorityDown | enabled | priorityUp
deriving DecidableEq

structure IQDb where
  channel : Channel := {}
  control : Option IQTestControl := none
  setting : IQTestSetting := {}
  models : Table ℤ IQTestModel := ∅
  runs : Table String IQTestRun := ∅

def Channel.getModels (ch : Channel) : List String :=
  if ch.models = "" then [] else Strings.split (Strings.trimChar ch.models ',') ','

def iqChannelHasModel (ch : Channel) (name : String) : Bool := ch.getModels.any (· = name)

/-- The snapshot of `PrepareIQTestRun`: the enabled models, or those of them that are named, and the
revision of the channel where it is a candidate. -/
def prepareIQTestRun (db : IQDb) (names : List String) (bankVersion : String) (candidate : Bool) :
    IQTestRun where
  setting := db.setting
  models := db.models.rows.filter fun m =>
    m.2.enabled && (names.isEmpty || names.contains m.2.modelName)
  channelRevision := if candidate then some db.channel.iqRevision else none
  bankVersion := bankVersion

/-! ## Enforcement -/

/-- One round of the loop over the results of the channel: the successful one of the lowest margin, and
whether all passed. -/
def selectRound (acc : Option IQTestResult × Bool) (r : IQTestResult) : Option IQTestResult × Bool :=
  match r.score, r.margin with
  | some _, some margin =>
    if r.status ≠ "success" then (acc.1, false)
    else
      (match acc.1 with
        | none => some r
        | some selected => some (if margin < selected.margin.getD 0 then r else selected),
        acc.2 && !(margin < 0))
  | _, _ => (acc.1, false)

/-- The result that decides, and `allPassed`; `read` is the channel as it was read before the
transaction. -/
def selectResult (run : IQTestRun) (rows : List IQTestResult) (read : Channel) :
    Option IQTestResult × Bool :=
  let acc := rows.foldl selectRound (none, true)
  let expectedModels := (run.models.filter fun m => iqChannelHasModel read m.2.modelName).length
  (acc.1, acc.2 && rows.length = expectedModels)

def IQTestResult.negative (r : IQTestResult) : Bool := r.margin.getD 0 < 0

/-- The row of the configured model, if it is still the one of the snapshot. -/
def activeModel (db : IQDb) (run : IQTestRun) (selected : IQTestResult) : Option IQTestModel :=
  let configured := run.models.find? fun m => m.2.modelName = selected.requestedModel
  let id := configured.elim 0 (·.1)
  let version := configured.elim 0 (·.2.version)
  (db.models.get? id).filter fun m => m.version = version && m.enabled

/-- The streaks start again for another revision, model, version of it or bank of questions. -/
def IQTestControl.sameTest (control : IQTestControl) (current : Channel) (run : IQTestRun)
    (selected : IQTestResult) (active : IQTestModel) : Bool :=
  control.revision = current.iqRevision && control.modelName = selected.requestedModel &&
    control.modelVersion = active.version && control.bankVersion = run.bankVersion

/-- The control row that the decision of a run leaves. -/
def IQTestControl.next (control : IQTestControl) (current : Channel) (runID : String) (run : IQTestRun)
    (selected : IQTestResult) (active : IQTestModel) (allPassed : Bool) : IQTestControl :=
  let same := control.sameTest current run selected active
  let failStreak := if same then control.failStreak else 0
  let passStreak := if same then control.passStreak else 0
  { revision := current.iqRevision
    lastRunID := runID
    modelName := selected.requestedModel
    modelVersion := active.version
    baseline := active.baselineScore
    bankVersion := run.bankVersion
    failStreak := if selected.negative then failStreak + 1 else 0
    passStreak := if selected.negative then 0 else if allPassed then passStreak + 1 else 0
    step := if current.iqBaselinePriority.isNone then run.setting.priorityStep else control.step }

def lowerPriority (ch : Channel) (step : Int64) : Channel × IQAction :=
  let before := ch.getPriority
  let base := ch.iqBaselinePriority.getD before
  let after := iqPriorityStep before (iqFloor base step) step
  if after ≠ before then
    ({ ch with
        iqBaselinePriority := some base, iqAppliedPriority := some after, priority := some after },
      .priorityDown)
  else (ch, .none)

def raisePriority (ch : Channel) (step : Int64) : Channel × IQAction :=
  match ch.iqBaselinePriority, ch.iqAppliedPriority with
  | some base, some applied =>
    if ch.getPriority = applied then
      let after := iqPriorityStep ch.getPriority base step
      ({ ch with
          priority := some after
          iqAppliedPriority := if after = base then none else some after
          iqBaselinePriority := if after = base then none else some base },
        if after ≠ ch.getPriority then .priorityUp else .none)
    else (ch, .none)
  | _, _ => (ch, .none)

/-- What a decision does to the channel; `breaker` says that the run has reached its cap. -/
def decideChannel (ch : Channel) (control : IQTestControl) (setting : IQTestSetting)
    (negative allPassed breaker : Bool) : Channel × IQAction :=
  if !ch.healthy then (ch, .skippedConflict)
  else if negative && 2 ≤ control.failStreak && ch.status = Relay.channelStatusEnabled then
    if breaker then (ch, .breakerSkip)
    else if setting.disableBelowBaseline then
      ({ ch with status := Relay.channelStatusAutoDisabled, iqDisabled := true }, .disabled)
    else lowerPriority ch control.step
  else if allPassed && 2 ≤ control.passStreak then
    if ch.iqDisabled && ch.status = Relay.channelStatusAutoDisabled then
      ((raisePriority { ch with status := Relay.channelStatusEnabled, iqDisabled := false }
        control.step).1, .enabled)
    else raisePriority ch control.step
  else (ch, .none)

def enforceTx (db : IQDb) (runID : String) (run : IQTestRun) (selected : IQTestResult)
    (allPassed breaker : Bool) : IQDb × IQAction :=
  if !db.setting.enabled || db.setting.version ≠ run.setting.version then (db, .none)
  else if run.channelRevision ≠ some db.channel.iqRevision then (db, .skippedConflict)
  else
    match activeModel db run selected with
    | none => (db, .skippedConflict)
    | some active =>
      let control := db.control.getD {}
      if control.lastRunID = runID then ({ db with control := some control }, .none)
      else
        let control := control.next db.channel runID run selected active allPassed
        let res := decideChannel db.channel control run.setting selected.negative allPassed breaker
        ({ db with channel := res.1, control := some control }, res.2)

def enforceIQTestRun (db : IQDb) (runID : String) (rows : List IQTestResult) (read : Channel)
    (breaker : Bool) : IQDb × IQAction :=
  match db.runs.get? runID with
  | none => (db, .none)
  | some run =>
    if !run.setting.enforces then (db, .none)
    else
      match selectResult run rows read with
      | (none, _) => (db, .none)
      | (some selected, allPassed) => enforceTx db runID run selected allPassed breaker

/-! ## Reconciliation -/

/-- What `ReconcileIQTestState` lists. -/
def Channel.ownedByIQ (ch : Channel) : Bool := ch.iqDisabled || ch.iqBaselinePriority.isSome

/-- The local `release`. -/
def shouldRelease (setting : IQTestSetting) (models : List (ℤ × IQTestModel)) (ch : Channel)
    (control : IQTestControl) : Bool :=
  !setting.enabled || !iqChannelHasModel ch control.modelName ||
    match models.find? fun m => m.2.modelName = control.modelName with
    | none => true
    | some target => target.2.version ≠ control.modelVersion

def shouldReleaseDisable (setting : IQTestSetting) (ch : Channel) : Bool :=
  ch.iqDisabled && !setting.disableBelowBaseline

def releasedPriority (ch : Channel) (release : Bool) : Option Int64 :=
  match ch.iqBaselinePriority, ch.iqAppliedPriority with
  | some base, some applied => if release && ch.getPriority = applied then some base else none
  | _, _ => none

def reenables (ch : Channel) : Bool :=
  ch.iqDisabled && ch.status = Relay.channelStatusAutoDisabled && ch.healthy

def releaseColumns (ch : Channel) (release : Bool) (row : Channel) : Channel :=
  match releasedPriority ch release with
  | some base =>
    { row with priority := some base, iqBaselinePriority := none, iqAppliedPriority := none }
  | none => row

def reenableColumns (ch : Channel) (row : Channel) : Channel :=
  if reenables ch then { row with status := Relay.channelStatusEnabled, iqDisabled := false } else row

/-- The columns that a reconciliation of the channel `ch` writes. -/
def reconcileColumns (ch : Channel) (release : Bool) (row : Channel) : Channel :=
  reenableColumns ch (releaseColumns ch release row)

/-- The transaction of `ReconcileIQTestState`, with the channel as it was listed. -/
def reconcileTx (db : IQDb) (ch : Channel) (release : Bool) : IQDb :=
  if (releasedPriority ch release).isNone && !reenables ch then db
  else if db.channel.iqRevision ≠ ch.iqRevision || db.channel.status ≠ ch.status then db
  else
    { db with
      channel := reconcileColumns ch release db.channel
      control :=
        if release then none
        else db.control.map fun control => { control with failStreak := 0, passStreak := 0 } }

/-! ## Arithmetic -/

theorem toInt_bounds (x : Int64) : -9223372036854775808 ≤ x.toInt ∧ x.toInt < 9223372036854775808 :=
  ⟨x.le_toInt, x.toInt_lt⟩

/-- The floor is never above the priority it is computed from, whatever the step. -/
theorem iqFloor_le (base step : Int64) : iqFloor base step ≤ base := by
  obtain ⟨hlo, hhi⟩ := toInt_bounds base
  obtain ⟨hlo', hhi'⟩ := toInt_bounds (5 * step)
  unfold iqFloor
  split_ifs with h
  · exact minValue_le base
  · rw [lt_iff_toInt_lt, toInt_add, toInt_minValue] at h
    rw [le_iff_toInt_le, toInt_sub]
    simp only [Int.bmod_def] at h ⊢
    split_ifs at h ⊢ <;> omega

variable {step current target : Int64}

/-- Five steps while five times the step does not overflow, and ten in any case. -/
theorem le_add_of_iqFloor_le {base applied : Int64} (hstep : 0 < step)
    (h : iqFloor base step ≤ applied) :
    base.toInt ≤ applied.toInt + 10 * step.toInt ∧
      (5 * step.toInt < 9223372036854775808 → base.toInt ≤ applied.toInt + 5 * step.toInt) := by
  obtain ⟨hlo, hhi⟩ := toInt_bounds base
  obtain ⟨hlo', hhi'⟩ := toInt_bounds applied
  obtain ⟨-, hhi''⟩ := toInt_bounds step
  have hpos : 0 < step.toInt := by simpa [lt_iff_toInt_lt] using hstep
  have hfive : (5 * step).toInt = (5 * step.toInt).bmod (2 ^ 64) := by
    rw [toInt_mul]
    rfl
  rcases lt_or_ge (5 * step.toInt) 9223372036854775808 with hsmall | hlarge
  · have hexact : (5 * step).toInt = 5 * step.toInt := by
      rw [hfive, Int.bmod_def]
      split_ifs <;> omega
    have hbound : base.toInt ≤ applied.toInt + 5 * step.toInt := by
      unfold iqFloor at h
      split_ifs at h with hlow
      · rw [lt_iff_toInt_lt, toInt_add, toInt_minValue, hexact, Int.bmod_def]
          at hlow
        split_ifs at hlow <;> omega
      · rw [lt_iff_toInt_lt, toInt_add, toInt_minValue, hexact, Int.bmod_def]
          at hlow
        rw [le_iff_toInt_le, toInt_sub, hexact, Int.bmod_def] at h
        split_ifs at hlow h <;> omega
    exact ⟨by omega, fun _ => hbound⟩
  · exact ⟨by omega, fun hsmall => by omega⟩

theorem iqPriorityStep_of_lt (hstep : 0 < step) (h : current < target) :
    (iqPriorityStep current target step).toInt = min (current.toInt + step.toInt) target.toInt := by
  obtain ⟨hlo, hhi⟩ := toInt_bounds current
  obtain ⟨hlo', hhi'⟩ := toInt_bounds target
  obtain ⟨-, hhi''⟩ := toInt_bounds step
  have hpos : 0 < step.toInt := by simpa [lt_iff_toInt_lt] using hstep
  have hlt := lt_iff_toInt_lt.1 h
  have hroom : (Int64.maxValue - step).toInt = 9223372036854775807 - step.toInt := by
    rw [toInt_sub, toInt_maxValue, Int.bmod_def]
    split_ifs <;> omega
  unfold iqPriorityStep
  rw [if_pos h]
  split_ifs with hover
  · rcases hover with hover | hover
    · rw [gt_iff_lt, lt_iff_toInt_lt, hroom] at hover
      omega
    · rw [gt_iff_lt, lt_iff_toInt_lt, toInt_add, Int.bmod_def] at hover
      split_ifs at hover <;> omega
  · rw [not_or, gt_iff_lt, gt_iff_lt, lt_iff_toInt_lt, lt_iff_toInt_lt, hroom,
      toInt_add, Int.bmod_def] at hover
    rw [toInt_add, Int.bmod_def]
    split_ifs at hover ⊢ <;> omega

theorem iqPriorityStep_of_gt (hstep : 0 < step) (h : target < current) :
    (iqPriorityStep current target step).toInt = max (current.toInt - step.toInt) target.toInt := by
  obtain ⟨hlo, hhi⟩ := toInt_bounds current
  obtain ⟨hlo', hhi'⟩ := toInt_bounds target
  obtain ⟨-, hhi''⟩ := toInt_bounds step
  have hpos : 0 < step.toInt := by simpa [lt_iff_toInt_lt] using hstep
  have hgt := lt_iff_toInt_lt.1 h
  have hnot : ¬ current < target := fun h' => by
    have := lt_iff_toInt_lt.1 h'
    omega
  have hroom : (Int64.minValue + step).toInt = -9223372036854775808 + step.toInt := by
    rw [toInt_add, toInt_minValue, Int.bmod_def]
    split_ifs <;> omega
  unfold iqPriorityStep
  rw [if_neg hnot, if_pos h]
  split_ifs with hover
  · rcases hover with hover | hover
    · rw [lt_iff_toInt_lt, hroom] at hover
      omega
    · rw [lt_iff_toInt_lt, toInt_sub, Int.bmod_def] at hover
      split_ifs at hover <;> omega
  · rw [not_or, lt_iff_toInt_lt, lt_iff_toInt_lt, hroom, toInt_sub, Int.bmod_def]
      at hover
    rw [toInt_sub, Int.bmod_def]
    split_ifs at hover ⊢ <;> omega

@[simp] theorem iqPriorityStep_self (current step : Int64) :
    iqPriorityStep current current step = current := by
  simp [iqPriorityStep]

/-- A step goes by at most `step`, towards the target and never past it; all sums are exact. -/
theorem iqPriorityStep_toInt (hstep : 0 < step) :
    (iqPriorityStep current target step).toInt =
      if current.toInt ≤ target.toInt then min (current.toInt + step.toInt) target.toInt
      else max (current.toInt - step.toInt) target.toInt := by
  have hpos : 0 < step.toInt := by simpa [lt_iff_toInt_lt] using hstep
  rcases lt_trichotomy current.toInt target.toInt with h | h | h
  · rw [iqPriorityStep_of_lt hstep (lt_iff_toInt_lt.2 h), if_pos h.le]
  · rw [toInt_inj.1 h, iqPriorityStep_self, if_pos le_rfl]
    omega
  · rw [iqPriorityStep_of_gt hstep (lt_iff_toInt_lt.2 h), if_neg (not_le.2 h)]

end BeeApi.IQTest
