import BeeApi.IQTest.Enforcer

/-!
# What IQ owns of a channel

Decisions of runs, reconciliations and edits of one channel in any order.  A reconciliation reads the
configuration, the channel and the control row one after the other and writes in a transaction later.
IQ changes only what it owns and gives it back (`keeps_ownership`).
-/

namespace BeeApi.IQTest

open List Option Table IQTest.Channel IQTestControl Run

/-! ## The system -/

/-- What a call of `ReconcileIQTestState` has read. -/
inductive ReconcileCall
  | configured (setting : IQTestSetting) (models : List (ℤ × IQTestModel))
  | listed (setting : IQTestSetting) (models : List (ℤ × IQTestModel)) (ch : Channel)
  | ready (release : Bool) (ch : Channel)

def ReconcileCall.channel? : ReconcileCall → Option Channel
  | .configured _ _ => none
  | .listed _ _ ch => some ch
  | .ready _ ch => some ch

/-- The rows and the calls, and since the last edit the priority that it left, the runs prepared before
it, and whether a decision has changed the channel; and the runs whose decisions the control row has
recorded. -/
structure IQSystem where
  db : IQDb := {}
  calls : Table ℕ ReconcileCall := ∅
  original : Int64 := 0
  stale : List String := []
  enforced : Bool := false
  decided : List String := []

inductive IQStep
  | edit (edit : Edit)
  | configure (setting : IQTestSetting) (models : Table ℤ IQTestModel)
  | prepare (runID : String) (names : List String) (bankVersion : String) (candidate : Bool)
  | enforce (runID : String) (rows : List IQTestResult) (read : Channel) (breaker : Bool)
  | reconcileConfig (call : ℕ)
  | reconcileList (call : ℕ)
  | reconcileControl (call : ℕ)
  | reconcileWrite (call : ℕ)

namespace IQSystem

/-- An edit; the record starts again if it writes a watched column. -/
def edit (s : IQSystem) (e : Edit) : IQSystem :=
  let channel := e.run s.db.channel
  let s' := { s with db := { s.db with channel } }
  if e.touches then
    { s' with original := channel.getPriority, stale := s.db.runs.keys, enforced := false }
  else s'

def step (s : IQSystem) : IQStep → Option IQSystem
  | .edit e => some (s.edit e)
  | .configure setting models => some { s with db := { s.db with setting, models } }
  | .prepare runID names bankVersion candidate =>
    (s.db.runs.insert? runID (prepareIQTestRun s.db names bankVersion candidate)).map fun runs =>
      { s with db := { s.db with runs } }
  | .enforce runID rows read breaker =>
    let db := (enforceIQTestRun s.db runID rows read breaker).1
    some { s with
      db
      enforced := s.enforced || db.channel ≠ s.db.channel
      decided := if db.control.any (·.lastRunID = runID) then runID :: s.decided else s.decided }
  | .reconcileConfig call =>
    if (s.calls.get? call).isSome then none
    else
      some { s with
        calls := s.calls.put call (.configured s.db.setting (s.db.models.rows.filter (·.2.enabled))) }
  | .reconcileList call =>
    match s.calls.get? call with
    | some (.configured setting models) =>
      if s.db.channel.ownedByIQ then
        some { s with calls := s.calls.put call (.listed setting models s.db.channel) }
      else some { s with calls := s.calls.erase call }
    | _ => none
  | .reconcileControl call =>
    match s.calls.get? call, s.db.control with
    | some (.listed setting models ch), some control =>
      let release := shouldRelease setting models ch control
      if release || shouldReleaseDisable setting ch then
        some { s with calls := s.calls.put call (.ready release ch) }
      else some { s with calls := s.calls.erase call }
    | some (.listed _ _ _), none => some { s with calls := s.calls.erase call }
    | _, _ => none
  | .reconcileWrite call =>
    match s.calls.get? call with
    | some (.ready release ch) =>
      some { s with db := reconcileTx s.db ch release, calls := s.calls.erase call }
    | _ => none

/-! ## What is asked of a step -/

/-- A decision is taken while no reconciliation has listed the channel, and not by a run between whose
decisions another has decided. -/
def inOrder (s : IQSystem) : IQStep → Bool
  | .enforce runID _ _ _ =>
    (!s.decided.contains runID || s.db.control.all (·.lastRunID = runID)) &&
      s.calls.rows.all fun e => e.2.channel?.isNone
  | _ => true

structure Consistent (db : IQDb) : Prop where
  both : db.channel.iqBaselinePriority.isSome = db.channel.iqAppliedPriority.isSome
  between : ∀ base applied, db.channel.iqBaselinePriority = some base →
    db.channel.iqAppliedPriority = some applied →
      db.channel.priority = some applied ∧ applied ≤ base ∧
        ∃ control, db.control = some control ∧ iqFloor base control.step ≤ applied
  disabled : db.channel.iqDisabled = true → db.channel.status = Relay.channelStatusAutoDisabled

structure Keeps (s : IQSystem) (a : IQStep) (s' : IQSystem) : Prop where
  consistent : Consistent s'.db
  /-- A decision of a run prepared before the last edit changes nothing. -/
  stale : ∀ runID rows read breaker, a = .enforce runID rows read breaker → runID ∈ s.stale →
    s'.db.channel = s.db.channel ∧ s'.db.control = s.db.control
  /-- A reconciliation changes the channel only when a decision has done so since the last edit. -/
  reconciled : ∀ call, a = .reconcileWrite call → s.enforced = false → s'.db.channel = s.db.channel
  /-- IQ gives the priority back. -/
  restored : (∀ e, a ≠ .edit e) → s.db.channel.iqBaselinePriority.isSome = true →
    s'.db.channel.iqBaselinePriority = none → s'.db.channel.getPriority = s.original

def changedBy (runID : String) (s : IQSystem) (a : IQStep) (s' : IQSystem) : ℤ :=
  match a with
  | .enforce id _ _ _ => if id = runID ∧ s'.db.channel ≠ s.db.channel then 1 else 0
  | _ => 0

/-- A decision of a run that passes about the model `model` in its version `version`, with the questions
of `bankVersion`. -/
def passes (model : String) (version : ℤ) (bankVersion : String) (s : IQSystem) : IQStep → Bool
  | .enforce runID rows read _ =>
    match s.db.runs.get? runID with
    | none => false
    | some run =>
      run.setting.enforces && s.db.setting.enabled && s.db.setting.version = run.setting.version &&
        run.channelRevision = some s.db.channel.iqRevision && run.bankVersion = bankVersion &&
        (s.db.control.getD {}).lastRunID ≠ runID &&
        match selectResult run rows read with
        | (some selected, true) =>
          selected.requestedModel = model &&
            (activeModel s.db run selected).any (·.version = version)
        | _ => false
  | _ => false

/-- A step that leaves the channel and the control row alone. -/
def quiet : IQStep → Bool
  | .edit e => !e.touches
  | .configure _ _ => true
  | .prepare _ _ _ _ => true
  | _ => false

/-- A step of consecutive passing runs. -/
def recovering (model : String) (version : ℤ) (bankVersion : String) (s : IQSystem) (a : IQStep) :
    Bool :=
  (passes model version bankVersion s a || quiet a) && s.inOrder a

def decisions (p : List IQStep) : ℕ :=
  p.countP fun
    | .enforce _ _ _ _ => true
    | _ => false

/-- A row of the channel, as it is or as it has been listed, against the priority that IQ has found. -/
structure Owned (ch : Channel) (original : Int64) : Prop where
  both : ch.iqBaselinePriority.isSome = ch.iqAppliedPriority.isSome
  base : ∀ b, ch.iqBaselinePriority = some b → b = original
  applied : ∀ a, ch.iqAppliedPriority = some a → ch.priority = some a
  free : ch.iqBaselinePriority = none → ch.getPriority = original
  disabled : ch.iqDisabled = true → ch.status = Relay.channelStatusAutoDisabled
  healthy : ch.ownedByIQ = true → ch.healthy = true

/-- The priority that IQ has applied, against its step. -/
def Between (ch : Channel) (step : Int64) : Prop :=
  ∀ base applied, ch.iqBaselinePriority = some base → ch.iqAppliedPriority = some applied →
    iqFloor base step ≤ applied ∧ applied < base

/-- A listed row whose revision is still the current one. -/
structure Listed (s : IQSystem) (ch : Channel) : Prop where
  owned : Owned ch s.original
  priority : s.db.channel.iqBaselinePriority = none ∨
    s.db.channel.iqBaselinePriority = ch.iqBaselinePriority
  disabled : s.db.channel.iqDisabled = true → ch.iqDisabled = true
  enforced : s.enforced = true

def CallListed (s : IQSystem) (c : ReconcileCall) : Prop :=
  ∀ ch, c.channel? = some ch → ch.iqRevision ≤ s.db.channel.iqRevision ∧
    (ch.iqRevision = s.db.channel.iqRevision → Listed s ch)

structure Inv (s : IQSystem) : Prop where
  owned : Owned s.db.channel s.original
  between : s.db.channel.iqBaselinePriority.isSome = true →
    ∃ c, s.db.control = some c ∧ 0 < c.step ∧ Between s.db.channel c.step
  control : s.db.channel.ownedByIQ = true → s.db.control.isSome = true
  enforced : s.enforced = false → s.db.channel.ownedByIQ = false
  listed : ∀ call c, s.calls.get? call = some c → CallListed s c
  runs : ∀ id run rev, s.db.runs.get? id = some run → run.channelRevision = some rev →
    rev ≤ s.db.channel.iqRevision ∧ (id ∈ s.stale → rev < s.db.channel.iqRevision)
  stale : ∀ id ∈ s.stale, id ∈ s.db.runs.keys

/-! ## What a decision does to the row -/

section Decision

variable {ch : Channel} {original step : Int64}

section
variable (h : Owned ch original)
include h

theorem Owned.applied_of_base {b : Int64} (hb : ch.iqBaselinePriority = some b) :
    ∃ a, ch.iqAppliedPriority = some a ∧ ch.priority = some a := by
  have hsome := h.both
  rw [hb, isSome_some] at hsome
  obtain ⟨a, ha⟩ := isSome_iff_exists.1 hsome.symm
  exact ⟨a, ha, h.applied a ha⟩

theorem Owned.disable (hhealthy : ch.healthy = true) :
    Owned { ch with status := Relay.channelStatusAutoDisabled, iqDisabled := true } original :=
  ⟨h.both, h.base, h.applied, h.free, fun _ => rfl, fun _ => hhealthy⟩

theorem Owned.reenable (hhealthy : ch.healthy = true) :
    Owned { ch with status := Relay.channelStatusEnabled, iqDisabled := false } original :=
  ⟨h.both, h.base, h.applied, h.free, nofun, fun _ => hhealthy⟩

/-- A step down stays between the floor and the priority that IQ has found. -/
theorem Owned.lower (hhealthy : ch.healthy = true) (hstep : 0 < step) (hbetween : Between ch step) :
    Owned (lowerPriority ch step).1 original ∧ Between (lowerPriority ch step).1 step := by
  -- the priority before lies between the floor and the base
  obtain ⟨base, hbase, horiginal, hfloor, hle⟩ : ∃ base,
      ch.iqBaselinePriority.getD ch.getPriority = base ∧ base = original ∧
        iqFloor base step ≤ ch.getPriority ∧ ch.getPriority ≤ base := by
    cases hb : ch.iqBaselinePriority with
    | none => exact ⟨ch.getPriority, rfl, h.free hb, iqFloor_le _ _, Int64.le_refl _⟩
    | some b =>
      obtain ⟨a, ha, hpriority⟩ := h.applied_of_base hb
      obtain ⟨hfloor, hlt⟩ := hbetween b a hb ha
      have hget : ch.getPriority = a := by rw [getPriority, hpriority, getD_some]
      rw [hget]
      exact ⟨b, rfl, h.base b hb, hfloor, Int64.le_of_lt hlt⟩
  unfold lowerPriority
  dsimp only
  rw [hbase]
  split_ifs with hchanged
  · have hlower : iqFloor base step ≤ iqPriorityStep ch.getPriority (iqFloor base step) step ∧
        iqPriorityStep ch.getPriority (iqFloor base step) step < base := by
      have hne : ch.getPriority ≠ iqFloor base step := by
        intro heq
        rw [heq, iqPriorityStep_self] at hchanged
        exact hchanged rfl
      have hlt : iqFloor base step < ch.getPriority := Int64.lt_of_le_of_ne hfloor (Ne.symm hne)
      have hvalue := iqPriorityStep_of_gt hstep hlt
      have hpos : 0 < step.toInt := by simpa [Int64.lt_iff_toInt_lt] using hstep
      rw [Int64.lt_iff_toInt_lt] at hlt
      rw [Int64.le_iff_toInt_le] at hle
      rw [Int64.le_iff_toInt_le, Int64.lt_iff_toInt_lt, hvalue]
      omega
    refine ⟨⟨rfl, ?_, ?_, ?_, h.disabled, fun _ => hhealthy⟩, ?_⟩
    · intro b hb
      rw [← some.inj hb]
      exact horiginal
    · intro a ha
      rw [← some.inj ha]
    · intro hb
      cases hb
    · intro b a hb ha
      cases hb
      cases ha
      exact hlower
  · exact ⟨h, hbetween⟩

/-- A step up stays below the priority that IQ has found, or gives it back. -/
theorem Owned.raise (hhealthy : ch.healthy = true) (hstep : 0 < step) (hbetween : Between ch step) :
    Owned (raisePriority ch step).1 original ∧ Between (raisePriority ch step).1 step := by
  cases hb : ch.iqBaselinePriority with
  | none =>
    have hself : (raisePriority ch step).1 = ch := by
      unfold raisePriority
      rw [hb]
    rw [hself]
    exact ⟨h, hbetween⟩
  | some b =>
    obtain ⟨a, ha, hpriority⟩ := h.applied_of_base hb
    obtain ⟨hfloor, hlt⟩ := hbetween b a hb ha
    have hget : ch.getPriority = a := by rw [getPriority, hpriority, getD_some]
    have hvalue := iqPriorityStep_of_lt hstep hlt
    have hpos : 0 < step.toInt := by simpa [Int64.lt_iff_toInt_lt] using hstep
    unfold raisePriority
    rw [hb, ha]
    dsimp only
    rw [if_pos hget, hget]
    by_cases hdone : iqPriorityStep a b step = b
    · rw [if_pos hdone, if_pos hdone, hdone]
      refine ⟨⟨rfl, nofun, nofun, fun _ => h.base b hb, h.disabled, fun _ => hhealthy⟩, nofun⟩
    · rw [if_neg hdone, if_neg hdone]
      refine ⟨⟨rfl, ?_, ?_, nofun, h.disabled, fun _ => hhealthy⟩, ?_⟩
      · intro b' hb'
        rw [← some.inj hb']
        exact h.base b hb
      · intro a' ha'
        rw [← some.inj ha']
      · intro b' a' hb' ha'
        cases hb'
        cases ha'
        have hne : (iqPriorityStep a b step).toInt ≠ b.toInt := fun heq =>
          hdone (Int64.toInt_inj.1 heq)
        rw [Int64.le_iff_toInt_le] at hfloor
        rw [Int64.lt_iff_toInt_lt] at hlt
        rw [Int64.le_iff_toInt_le, Int64.lt_iff_toInt_lt, hvalue] at *
        omega

end

/-- The row as a passing decision sees it. -/
def reenabled (ch : Channel) : Channel :=
  if ch.iqDisabled && ch.status = Relay.channelStatusAutoDisabled then
    { ch with status := Relay.channelStatusEnabled, iqDisabled := false }
  else ch

theorem decideChannel_cases (ch : Channel) (control : IQTestControl) (setting : IQTestSetting)
    (negative allPassed breaker : Bool) :
    (decideChannel ch control setting negative allPassed breaker).1 = ch ∨
    ch.healthy = true ∧ negative = true ∧ 2 ≤ control.failStreak ∧
      ((decideChannel ch control setting negative allPassed breaker).1 =
        { ch with status := Relay.channelStatusAutoDisabled, iqDisabled := true } ∨
      (decideChannel ch control setting negative allPassed breaker).1 =
        (lowerPriority ch control.step).1) ∨
    ch.healthy = true ∧ allPassed = true ∧ 2 ≤ control.passStreak ∧
      (decideChannel ch control setting negative allPassed breaker).1 =
        (raisePriority (reenabled ch) control.step).1 := by
  unfold decideChannel
  split_ifs with hhealthy hnegative hbreaker hdisable hpassed hreenable
  · exact .inl rfl
  · exact .inl rfl
  · simp only [Bool.and_eq_true, decide_eq_true_eq] at hnegative
    exact .inr (.inl ⟨by simpa using hhealthy, hnegative.1.1, hnegative.1.2, .inl rfl⟩)
  · simp only [Bool.and_eq_true, decide_eq_true_eq] at hnegative
    exact .inr (.inl ⟨by simpa using hhealthy, hnegative.1.1, hnegative.1.2, .inr rfl⟩)
  · simp only [Bool.and_eq_true, decide_eq_true_eq] at hpassed
    refine .inr (.inr ⟨by simpa using hhealthy, hpassed.1, hpassed.2, ?_⟩)
    rw [reenabled, if_pos hreenable]
  · simp only [Bool.and_eq_true, decide_eq_true_eq] at hpassed
    refine .inr (.inr ⟨by simpa using hhealthy, hpassed.1, hpassed.2, ?_⟩)
    rw [reenabled, if_neg hreenable]
  · exact .inl rfl

theorem Owned.reenabled (h : Owned ch original) (hhealthy : ch.healthy = true) :
    Owned (IQSystem.reenabled ch) original := by
  unfold IQSystem.reenabled
  split_ifs
  · exact h.reenable hhealthy
  · exact h

theorem Owned.decide (h : Owned ch original) {control : IQTestControl} (hstep : 0 < control.step)
    (hbetween : Between ch control.step) (setting : IQTestSetting) (negative allPassed breaker : Bool) :
    Owned (decideChannel ch control setting negative allPassed breaker).1 original ∧
      Between (decideChannel ch control setting negative allPassed breaker).1 control.step := by
  obtain hsame | ⟨hhealthy, -, -, hdisable | hlower⟩ | ⟨hhealthy, -, -, hraise⟩ :=
    decideChannel_cases ch control setting negative allPassed breaker
  · rw [hsame]
    exact ⟨h, hbetween⟩
  · rw [hdisable]
    exact ⟨h.disable hhealthy, hbetween⟩
  · rw [hlower]
    exact h.lower hhealthy hstep hbetween
  · rw [hraise]
    have hhealthy' : (IQSystem.reenabled ch).healthy = true := by
      unfold IQSystem.reenabled
      split_ifs <;> exact hhealthy
    have hbetween' : Between (IQSystem.reenabled ch) control.step := by
      unfold IQSystem.reenabled
      split_ifs <;> exact hbetween
    exact (h.reenabled hhealthy).raise hhealthy' hstep hbetween'

end Decision

/-! ## Decisions -/

section Enforce

variable {ch : Channel} {step : Int64}

theorem lowerPriority_revision (ch : Channel) (step : Int64) :
    (lowerPriority ch step).1.iqRevision = ch.iqRevision := by
  unfold lowerPriority
  dsimp only
  split_ifs <;> rfl

theorem raisePriority_revision (ch : Channel) (step : Int64) :
    (raisePriority ch step).1.iqRevision = ch.iqRevision := by
  unfold raisePriority
  split
  · split_ifs <;> rfl
  · rfl

theorem decideChannel_revision (ch : Channel) (control : IQTestControl) (setting : IQTestSetting)
    (negative allPassed breaker : Bool) :
    (decideChannel ch control setting negative allPassed breaker).1.iqRevision = ch.iqRevision := by
  obtain hsame | ⟨-, -, -, hdisable | hlower⟩ | ⟨-, -, -, hraise⟩ :=
    decideChannel_cases ch control setting negative allPassed breaker
  · rw [hsame]
  · rw [hdisable]
  · rw [hlower, lowerPriority_revision]
  · rw [hraise, raisePriority_revision]
    unfold reenabled
    split_ifs <;> rfl

structure Decides (db : IQDb) (runID : String) (rows : List IQTestResult) (read : Channel)
    (breaker : Bool) (db' : IQDb) (run : IQTestRun) (selected : IQTestResult) (allPassed : Bool)
    (active : IQTestModel) : Prop where
  found : db.runs.get? runID = some run
  revision : run.channelRevision = some db.channel.iqRevision
  chosen : selectResult run rows read = (some selected, allPassed)
  configured : activeModel db run selected = some active
  fresh : (db.control.getD {}).lastRunID ≠ runID
  result : db' = { db with
    channel := (decideChannel db.channel
      ((db.control.getD {}).next db.channel runID run selected active allPassed) run.setting
      selected.negative allPassed breaker).1
    control := some
      ((db.control.getD {}).next db.channel runID run selected active allPassed) }

theorem enforce_cases (db : IQDb) (runID : String) (rows : List IQTestResult) (read : Channel)
    (breaker : Bool) :
    (enforceIQTestRun db runID rows read breaker).1 = db ∨
    ((∃ run, db.runs.get? runID = some run ∧ run.channelRevision = some db.channel.iqRevision) ∧
      (db.control.getD {}).lastRunID = runID ∧
      (enforceIQTestRun db runID rows read breaker).1 =
        { db with control := some (db.control.getD {}) }) ∨
    ∃ run selected allPassed active, Decides db runID rows read breaker
      (enforceIQTestRun db runID rows read breaker).1 run selected allPassed active := by
  unfold enforceIQTestRun
  split
  · exact .inl rfl
  case h_2 run hrun =>
    split_ifs
    · exact .inl rfl
    split
    · exact .inl rfl
    case h_2 selected allPassed hselected =>
      unfold enforceTx
      split_ifs with hsetting hrevision
      · exact .inl rfl
      · exact .inl rfl
      rw [ne_eq, not_not] at hrevision
      split
      · exact .inl rfl
      case h_2 active hactive =>
        dsimp only
        split_ifs with hlast
        · exact .inr (.inl ⟨⟨run, hrun, hrevision⟩, hlast, rfl⟩)
        · exact .inr (.inr ⟨run, selected, allPassed, active,
            ⟨hrun, hrevision, hselected, hactive, hlast, rfl⟩⟩)

theorem enforce_frame (db : IQDb) (runID : String) (rows : List IQTestResult) (read : Channel)
    (breaker : Bool) :
    (enforceIQTestRun db runID rows read breaker).1.channel.iqRevision = db.channel.iqRevision ∧
      (enforceIQTestRun db runID rows read breaker).1.runs = db.runs := by
  obtain hsame | ⟨-, -, hsame⟩ | ⟨run, selected, allPassed, active, hdecides⟩ :=
    enforce_cases db runID rows read breaker
  · rw [hsame]
    exact ⟨rfl, rfl⟩
  · rw [hsame]
    exact ⟨rfl, rfl⟩
  · rw [hdecides.result]
    exact ⟨decideChannel_revision .., rfl⟩

end Enforce

/-! ## Steps -/

section Steps

variable {s s' : IQSystem}

variable {ch row : Channel} {runID : String} {original : Int64} {a : IQStep}

theorem Listed.of_unchanged {t : IQSystem} (h : Listed s ch)
    (hchannel : t.db.channel = s.db.channel) (horiginal : t.original = s.original)
    (henforced : t.enforced = s.enforced) : Listed t ch := by
  obtain ⟨howned, hpriority, hdisabled, hsince⟩ := h
  refine ⟨?_, ?_, ?_, ?_⟩
  · rwa [horiginal]
  · rwa [hchannel]
  · rwa [hchannel]
  · rwa [henforced]

theorem CallListed.of_unchanged {c : ReconcileCall} {t : IQSystem} (h : CallListed s c)
    (hchannel : t.db.channel = s.db.channel) (horiginal : t.original = s.original)
    (henforced : t.enforced = s.enforced) : CallListed t c := by
  intro ch hch
  obtain ⟨hle, hlisted⟩ := h ch hch
  rw [hchannel]
  exact ⟨hle, fun heq => (hlisted heq).of_unchanged hchannel horiginal henforced⟩

theorem Inv.calls (h : Inv s) {calls : Table ℕ ReconcileCall}
    (hcalls : ∀ call c, calls.get? call = some c → CallListed s c) : Inv { s with calls } :=
  ⟨h.owned, h.between, h.control, h.enforced,
    fun call c hc => (hcalls call c hc).of_unchanged rfl rfl rfl, h.runs, h.stale⟩

theorem Inv.edit (h : Inv s) (e : Edit) : Inv (s.edit e) := by
  unfold IQSystem.edit
  cases htouches : e.touches with
  | false =>
    rw [e.run_of_not_touches htouches, if_neg Bool.false_ne_true]
    exact h
  | true =>
    rw [if_pos rfl]
    obtain ⟨hrevision, hbase, happlied, hdisabled⟩ := e.run_of_touches htouches s.db.channel
    refine ⟨⟨?_, ?_, ?_, fun _ => rfl, ?_, ?_⟩, ?_, ?_, ?_, ?_, ?_, fun id hid => hid⟩
    · dsimp only
      rw [hbase, happlied]
    · dsimp only
      rw [hbase]
      exact nofun
    · dsimp only
      rw [happlied]
      exact nofun
    · dsimp only
      rw [hdisabled]
      exact nofun
    · dsimp only
      rw [ownedByIQ, hbase, hdisabled]
      exact nofun
    · dsimp only
      rw [hbase]
      exact nofun
    · dsimp only
      rw [ownedByIQ, hbase, hdisabled]
      exact nofun
    · intro _
      rw [ownedByIQ, hbase, hdisabled]
      rfl
    · intro call c hc ch hch
      obtain ⟨hle, -⟩ := h.listed call c hc ch hch
      rw [hrevision]
      exact ⟨by omega, fun heq => by omega⟩
    · intro id run rev hrun hrev
      obtain ⟨hle, -⟩ := h.runs id run rev hrun hrev
      rw [hrevision]
      exact ⟨by omega, fun _ => by omega⟩

theorem Inv.next (h : Inv s) (runID : String) (run : IQTestRun) (selected : IQTestResult)
    (active : IQTestModel) (allPassed : Bool) :
    0 < ((s.db.control.getD {}).next s.db.channel runID run selected active allPassed).step ∧
      Between s.db.channel
        ((s.db.control.getD {}).next s.db.channel runID run selected active allPassed).step := by
  unfold IQTestControl.next
  cases hb : s.db.channel.iqBaselinePriority with
  | none =>
    refine ⟨run.setting.positive, fun b a hb' _ => ?_⟩
    rw [hb] at hb'
    cases hb'
  | some b =>
    obtain ⟨c, hc, hpos, hbetween⟩ := h.between (by rw [hb, isSome_some])
    rw [hc]
    exact ⟨hpos, hbetween⟩

theorem Inv.enforce (h : Inv s) {rows : List IQTestResult} {read : Channel} {breaker : Bool}
    (hnone : s.calls.rows.all (fun e => e.2.channel?.isNone) = true)
    (hs : s.step (.enforce runID rows read breaker) = some s') : Inv s' := by
  cases hs
  obtain ⟨hrevision, hruns⟩ := enforce_frame s.db runID rows read breaker
  have hlisted : ∀ call c, s.calls.get? call = some c → ∀ ch, c.channel? = some ch → False := by
    intro call c hc ch hch
    have hmem := (get?_eq_some_iff s.calls call c).1 hc
    have hno := all_eq_true.1 hnone _ hmem
    rw [hch] at hno
    cases hno
  have hrows : ∀ id run rev, (enforceIQTestRun s.db runID rows read breaker).1.runs.get? id =
      some run → run.channelRevision = some rev →
      rev ≤ (enforceIQTestRun s.db runID rows read breaker).1.channel.iqRevision ∧ (id ∈ s.stale →
          rev < (enforceIQTestRun s.db runID rows read breaker).1.channel.iqRevision) := by
    intro id run rev hrun hrev
    rw [hruns] at hrun
    rw [hrevision]
    exact h.runs id run rev hrun hrev
  have hstale : ∀ id ∈ s.stale,
      id ∈ (enforceIQTestRun s.db runID rows read breaker).1.runs.keys := by
    rw [hruns]
    exact h.stale
  obtain hsame | ⟨-, -, hsame⟩ | ⟨run, selected, allPassed, active, hdecides⟩ :=
    enforce_cases s.db runID rows read breaker
  · rw [hsame] at hrows hstale ⊢
    refine ⟨h.owned, h.between, h.control, ?_, fun call c hc ch hch => (hlisted call c hc ch hch).elim,
      hrows, hstale⟩
    intro hfalse
    exact h.enforced (by simpa using hfalse)
  · rw [hsame] at hrows hstale ⊢
    refine ⟨h.owned, ?_, fun _ => rfl, ?_, fun call c hc ch hch => (hlisted call c hc ch hch).elim,
      hrows, hstale⟩
    · intro hb
      obtain ⟨c, hc, hrest⟩ := h.between hb
      rw [hc]
      exact ⟨c, rfl, hrest⟩
    · intro hfalse
      exact h.enforced (by simpa using hfalse)
  · obtain ⟨hpos, hbetween⟩ := h.next runID run selected active allPassed
    obtain ⟨howned, hbetween'⟩ :=
      h.owned.decide hpos hbetween run.setting selected.negative allPassed breaker
    rw [hdecides.result] at hrows hstale ⊢
    refine ⟨howned, fun _ => ⟨_, rfl, hpos, hbetween'⟩, fun _ => rfl, ?_,
      fun call c hc ch hch => (hlisted call c hc ch hch).elim, hrows, hstale⟩
    intro hfalse
    simp only [Bool.or_eq_false_iff, decide_eq_false_iff_not, ne_eq, not_not] at hfalse
    rw [hfalse.2]
    exact h.enforced hfalse.1

/-! ## Reconciliations -/

theorem releasedPriority_eq_some_iff {release : Bool} {b : Int64} :
    releasedPriority ch release = some b ↔ ch.iqBaselinePriority = some b ∧ release = true ∧
        ∃ a, ch.iqAppliedPriority = some a ∧ ch.getPriority = a := by
  unfold releasedPriority
  cases hb : ch.iqBaselinePriority with
  | none => simp
  | some base =>
    cases ha : ch.iqAppliedPriority with
    | none => simp
    | some applied =>
      dsimp only
      split_ifs with hcond
      · rw [Bool.and_eq_true, decide_eq_true_eq] at hcond
        constructor
        · intro heq
          exact ⟨heq, hcond.1, applied, rfl, hcond.2⟩
        · rintro ⟨heq, -⟩
          exact heq
      · constructor
        · intro heq
          cases heq
        · rintro ⟨-, hrelease, a, hsome, heq⟩
          cases hsome
          exact absurd (by rw [hrelease, heq]; simp) hcond

theorem Owned.releasedPriority_of_base {b : Int64} (h : Owned ch original)
    (hb : ch.iqBaselinePriority = some b) : releasedPriority ch true = some b := by
  obtain ⟨a, ha, hpriority⟩ := h.applied_of_base hb
  exact releasedPriority_eq_some_iff.2
    ⟨hb, rfl, a, ha, by rw [getPriority, hpriority, getD_some]⟩

theorem Owned.reenables_of_disabled (h : Owned ch original) (hd : ch.iqDisabled = true) :
    reenables ch = true := by
  have howned : ch.ownedByIQ = true := by rw [ownedByIQ, hd, Bool.true_or]
  rw [reenables, hd, h.disabled hd, h.healthy howned]
  rfl

theorem Owned.release (h : Owned row original) (hch : Owned ch original) (release : Bool) :
    Owned (releaseColumns ch release row) original := by
  unfold releaseColumns
  cases hreleased : releasedPriority ch release with
  | none => exact h
  | some base =>
    have hbase := hch.base base (releasedPriority_eq_some_iff.1 hreleased).1
    refine ⟨rfl, nofun, nofun, fun _ => hbase, h.disabled, fun howned => h.healthy ?_⟩
    rw [ownedByIQ] at howned ⊢
    simp only [isSome_none, Bool.or_false] at howned
    rw [howned, Bool.true_or]

theorem Owned.reenableColumns (h : Owned row original) (ch : Channel) :
    Owned (IQTest.reenableColumns ch row) original := by
  unfold IQTest.reenableColumns
  split_ifs
  · refine ⟨h.both, h.base, h.applied, h.free, nofun, fun howned => h.healthy ?_⟩
    rw [ownedByIQ] at howned ⊢
    simp only [Bool.false_or] at howned
    rw [howned, Bool.or_true]
  · exact h

theorem Owned.reconcile (h : Owned row original) (hch : Owned ch original) (release : Bool) :
    Owned (reconcileColumns ch release row) original :=
  (h.release hch release).reenableColumns ch

theorem reconcileColumns_frame (ch : Channel) (release : Bool) (row : Channel) :
    (reconcileColumns ch release row).iqRevision = row.iqRevision ∧
      ((reconcileColumns ch release row).iqBaselinePriority = none ∨
        (reconcileColumns ch release row).iqBaselinePriority = row.iqBaselinePriority ∧
        (reconcileColumns ch release row).iqAppliedPriority = row.iqAppliedPriority) ∧
      ((reconcileColumns ch release row).iqDisabled = true → row.iqDisabled = true) := by
  unfold reconcileColumns reenableColumns releaseColumns
  cases releasedPriority ch release <;> dsimp only <;> split_ifs
  · exact ⟨rfl, .inr ⟨rfl, rfl⟩, nofun⟩
  · exact ⟨rfl, .inr ⟨rfl, rfl⟩, id⟩
  · exact ⟨rfl, .inl rfl, nofun⟩
  · exact ⟨rfl, .inl rfl, id⟩

theorem Listed.released (h : Listed s ch) :
    (reconcileColumns ch true s.db.channel).ownedByIQ = false := by
  have hbase : (reconcileColumns ch true s.db.channel).iqBaselinePriority = none := by
    unfold reconcileColumns reenableColumns releaseColumns
    cases hreleased : releasedPriority ch true with
    | some base =>
      split_ifs <;> rfl
    | none =>
      have hnone : s.db.channel.iqBaselinePriority = none := by
        refine h.priority.elim id fun hsame => ?_
        rw [hsame]
        cases hb : ch.iqBaselinePriority with
        | none => rfl
        | some b =>
          rw [h.owned.releasedPriority_of_base hb] at hreleased
          cases hreleased
      split_ifs <;> exact hnone
  have hdisabled : (reconcileColumns ch true s.db.channel).iqDisabled = false := by
    cases hd : (reconcileColumns ch true s.db.channel).iqDisabled with
    | false => rfl
    | true =>
      have hrow := (reconcileColumns_frame ch true s.db.channel).2.2 hd
      have hreenables := h.owned.reenables_of_disabled (h.disabled hrow)
      unfold reconcileColumns reenableColumns at hd
      rw [if_pos hreenables] at hd
      cases hd
  rw [ownedByIQ, hbase, hdisabled]
  rfl

theorem reconcileTx_cases (db : IQDb) (ch : Channel) (release : Bool) :
    reconcileTx db ch release = db ∨
      ((releasedPriority ch release).isSome = true ∨ reenables ch = true) ∧
        db.channel.iqRevision = ch.iqRevision ∧ db.channel.status = ch.status ∧
        reconcileTx db ch release = { db with
          channel := reconcileColumns ch release db.channel
          control :=
            if release then none
            else db.control.map fun control => { control with failStreak := 0, passStreak := 0 } } := by
  unfold reconcileTx
  split
  · exact .inl rfl
  rename_i hnothing
  split
  · exact .inl rfl
  · rename_i hguard
    refine .inr ⟨?_, ?_, ?_, rfl⟩
    · cases hreleased : releasedPriority ch release with
      | some b => exact .inl rfl
      | none =>
        rw [hreleased] at hnothing
        exact .inr (by simpa using hnothing)
    · simp only [Bool.or_eq_true, decide_eq_true_eq, not_or, ne_eq, not_not] at hguard
      exact hguard.1
    · simp only [Bool.or_eq_true, decide_eq_true_eq, not_or, ne_eq, not_not] at hguard
      exact hguard.2

theorem Inv.erase (h : Inv s) (call : ℕ) : Inv { s with calls := s.calls.erase call } := by
  exact h.calls (forall_get?_erase h.listed)

theorem Inv.reconcileWrite (h : Inv s) {call : ℕ} {release : Bool}
    (hcall : s.calls.get? call = some (.ready release ch)) :
    Inv { s with db := reconcileTx s.db ch release, calls := s.calls.erase call } := by
  obtain hsame | ⟨hwrites, hrevision, -, hsame⟩ := reconcileTx_cases s.db ch release
  · rw [hsame]
    exact h.erase call
  · rw [hsame]
    obtain ⟨-, hlisted⟩ := h.listed call _ hcall ch rfl
    have hch := hlisted hrevision.symm
    obtain ⟨hrevision', hbase, hdisabled⟩ := reconcileColumns_frame ch release s.db.channel
    have howned := h.owned.reconcile hch.owned release
    refine ⟨howned, ?_, ?_, ?_, ?_, ?_, h.stale⟩
    · dsimp only
      intro hb
      cases release with
      | true =>
        have hnot := hch.released
        rw [ownedByIQ, hb, Bool.or_true] at hnot
        cases hnot
      | false =>
        obtain hnone | ⟨hb', ha'⟩ := hbase
        · rw [hnone] at hb
          cases hb
        · rw [hb'] at hb
          obtain ⟨c, hc, hpos, hbetween⟩ := h.between hb
          rw [hc]
          refine ⟨{ c with failStreak := 0, passStreak := 0 }, rfl, hpos, fun b a hb'' ha'' => ?_⟩
          rw [hb'] at hb''
          rw [ha'] at ha''
          exact hbetween b a hb'' ha''
    · dsimp only
      intro hown
      cases release with
      | true =>
        rw [hch.released] at hown
        cases hown
      | false =>
        have hown' : s.db.channel.ownedByIQ = true := by
          rw [ownedByIQ, Bool.or_eq_true] at hown ⊢
          refine hown.imp hdisabled fun hb => ?_
          obtain hnone | ⟨hb', -⟩ := hbase
          · rw [hnone] at hb
            cases hb
          · rwa [hb'] at hb
        rw [if_neg Bool.false_ne_true, isSome_map]
        exact h.control hown'
    · intro hfalse
      have hnot := h.enforced hfalse
      rw [ownedByIQ, Bool.or_eq_false_iff] at hnot ⊢
      constructor
      · cases hd : (reconcileColumns ch release s.db.channel).iqDisabled with
        | false => rfl
        | true =>
          rw [hdisabled hd] at hnot
          exact hnot.1
      · obtain hnone | ⟨hb', -⟩ := hbase
        · rw [hnone]
          rfl
        · rw [hb']
          exact hnot.2
    · refine forall_get?_erase fun call' c hc ch' hch' => ?_
      obtain ⟨hle, hlisted'⟩ := h.listed call' c hc ch' hch'
      rw [hrevision']
      refine ⟨hle, fun heq => ?_⟩
      obtain ⟨howned', hpriority', hdisabled', hsince⟩ := hlisted' heq
      refine ⟨howned', ?_, fun hd => hdisabled' (hdisabled hd), hsince⟩
      obtain hnone | ⟨hb', -⟩ := hbase
      · exact .inl hnone
      · rwa [← hb'] at hpriority'
    · intro id run rev hrun hrev
      rw [hrevision']
      exact h.runs id run rev hrun hrev

theorem Inv.listed_self (h : Inv s) (hown : s.db.channel.ownedByIQ = true) :
    Listed s s.db.channel := by
  refine ⟨h.owned, .inr rfl, id, ?_⟩
  cases hsince : s.enforced with
  | true => rfl
  | false =>
    rw [h.enforced hsince] at hown
    cases hown

theorem Inv.step (h : Inv s) (hok : s.inOrder a = true) (hs : s.step a = some s') : Inv s' := by
  cases a with
  | edit e =>
    cases hs
    exact h.edit e
  | configure setting models =>
    cases hs
    exact ⟨h.owned, h.between, h.control, h.enforced,
      fun call c hc => (h.listed call c hc).of_unchanged rfl rfl rfl, h.runs, h.stale⟩
  | prepare runID names bankVersion candidate =>
    obtain ⟨runs, hruns, rfl⟩ := map_eq_some_iff.1 hs
    obtain ⟨hnew, -⟩ := (insert?_eq_some_iff ..).1 hruns
    refine ⟨h.owned, h.between, h.control, h.enforced,
      fun call c hc => (h.listed call c hc).of_unchanged rfl rfl rfl, ?_, ?_⟩
    · intro id run rev hrun hrev
      rw [get?_of_insert? hruns] at hrun
      split_ifs at hrun with hid
      · cases hrun
        refine ⟨?_, fun hmem => ?_⟩
        · unfold prepareIQTestRun at hrev
          split_ifs at hrev
          exact (some.inj hrev).ge
        · rw [hid] at hmem
          exact absurd (h.stale _ hmem) ((get?_eq_none_iff ..).1 hnew)
      · exact h.runs id run rev hrun hrev
    · intro id hid
      obtain ⟨run, hrun⟩ := (mem_keys_iff ..).1 (h.stale id hid)
      refine (mem_keys_iff ..).2 ?_
      rw [get?_of_insert? hruns]
      split_ifs
      · exact ⟨_, rfl⟩
      · exact ⟨run, hrun⟩
  | enforce runID rows read breaker =>
    rw [inOrder, Bool.and_eq_true] at hok
    exact h.enforce hok.2 hs
  | reconcileConfig call =>
    simp only [IQSystem.step] at hs
    split_ifs at hs
    cases hs
    exact h.calls (forall_get?_put h.listed fun ch hch => by cases hch)
  | reconcileList call =>
    simp only [IQSystem.step] at hs
    split at hs
    case h_2 => cases hs
    case h_1 setting models hcall =>
      split_ifs at hs with hown
      · cases hs
        refine h.calls (forall_get?_put h.listed fun ch hch => ?_)
        cases hch
        exact ⟨le_rfl, fun _ => h.listed_self hown⟩
      · cases hs
        exact h.erase call
  | reconcileControl call =>
    simp only [IQSystem.step] at hs
    split at hs
    case h_1 setting models ch control hcall hcontrol =>
      split_ifs at hs
      · cases hs
        refine h.calls (forall_get?_put h.listed fun ch' hch => ?_)
        cases hch
        exact h.listed call _ hcall ch rfl
      · cases hs
        exact h.erase call
    case h_2 =>
      cases hs
      exact h.erase call
    case h_3 => cases hs
  | reconcileWrite call =>
    simp only [IQSystem.step] at hs
    split at hs
    case h_2 => cases hs
    case h_1 release ch hcall =>
      cases hs
      exact h.reconcileWrite hcall

/-! ## The parts of the result -/

theorem Inv.consistent (h : Inv s) : Consistent s.db := by
  refine ⟨h.owned.both, fun base applied hb ha => ?_, h.owned.disabled⟩
  obtain ⟨c, hc, -, hbetween⟩ := h.between (by rw [hb, isSome_some])
  obtain ⟨hfloor, hlt⟩ := hbetween base applied hb ha
  exact ⟨h.owned.applied applied ha, Int64.le_of_lt hlt, c, hc, hfloor⟩

theorem Inv.enforce_stale (h : Inv s) (hstale : runID ∈ s.stale) (rows : List IQTestResult)
    (read : Channel) (breaker : Bool) :
    (enforceIQTestRun s.db runID rows read breaker).1 = s.db := by
  have hno : ∀ run, s.db.runs.get? runID = some run →
      run.channelRevision ≠ some s.db.channel.iqRevision := by
    intro run hrun hrev
    obtain ⟨-, hlt⟩ := h.runs runID run _ hrun hrev
    exact absurd (hlt hstale) (lt_irrefl _)
  obtain hsame | ⟨⟨run, hrun, hrev⟩, -⟩ | ⟨run, selected, allPassed, active, hdecides⟩ :=
    enforce_cases s.db runID rows read breaker
  · exact hsame
  · exact absurd hrev (hno run hrun)
  · exact absurd hdecides.revision (hno run hdecides.found)

/-- A reconciliation changes only what a decision has done since the last edit. -/
theorem Inv.reconcile_unenforced (h : Inv s) {call : ℕ} {release : Bool}
    (hcall : s.calls.get? call = some (.ready release ch)) (hsince : s.enforced = false) :
    reconcileTx s.db ch release = s.db := by
  obtain hsame | ⟨-, hrevision, -⟩ := reconcileTx_cases s.db ch release
  · exact hsame
  · have hlisted := (h.listed call _ hcall ch rfl).2 hrevision.symm
    rw [hlisted.enforced] at hsince
    cases hsince

theorem record_of_step (hs : s.step a = some s') :
    ((∀ e, a ≠ .edit e) → s'.original = s.original) ∧ ∀ runID ∈ s.decided, runID ∈ s'.decided := by
  cases a with
  | edit e =>
    cases hs
    refine ⟨fun hedit => absurd rfl (hedit e), ?_⟩
    unfold IQSystem.edit
    split_ifs <;> exact fun _ => id
  | enforce =>
    cases hs
    refine ⟨fun _ => rfl, fun runID hmem => ?_⟩
    split_ifs
    · exact mem_cons_of_mem _ hmem
    · exact hmem
  | prepare =>
    obtain ⟨runs, -, rfl⟩ := map_eq_some_iff.1 hs
    exact ⟨fun _ => rfl, fun _ => id⟩
  | _ =>
    simp only [IQSystem.step] at hs
    repeat' split at hs
    all_goals
      cases hs
      try exact ⟨fun _ => rfl, fun _ => id⟩

theorem keeps (h : Inv s) (hok : s.inOrder a = true) (hs : s.step a = some s') : Keeps s a s' := by
  have hinv := h.step hok hs
  refine ⟨hinv.consistent, ?_, ?_, ?_⟩
  · rintro runID rows read breaker rfl hstale
    cases hs
    rw [h.enforce_stale hstale]
    exact ⟨rfl, rfl⟩
  · rintro call rfl hsince
    simp only [IQSystem.step] at hs
    split at hs
    case h_2 => cases hs
    case h_1 release ch hcall =>
      cases hs
      rw [h.reconcile_unenforced hcall hsince]
  · intro hedit _ hnone
    rw [← (record_of_step hs).1 hedit]
    exact hinv.owned.free hnone

theorem channel_eq_of_enforce {db db' : IQDb} {rows : List IQTestResult} {read : Channel}
    {breaker : Bool} (hlast : db.control.all (·.lastRunID = runID) = true)
    (h : (enforceIQTestRun db runID rows read breaker).1 = db') : db'.channel = db.channel := by
  obtain hsame | ⟨-, -, hsame⟩ | ⟨run, selected, allPassed, active, hdecides⟩ :=
    enforce_cases db runID rows read breaker
  · rw [← h, hsame]
  · rw [← h, hsame]
  · cases hcontrol : db.control with
    | some control =>
      rw [hcontrol, all_some, decide_eq_true_eq] at hlast
      have hfresh := hdecides.fresh
      rw [hcontrol, getD_some] at hfresh
      exact absurd hlast hfresh
    | none =>
      -- a new control row has no streak
      rw [← h, hdecides.result, hcontrol]
      obtain hsame | ⟨-, -, hstreak, -⟩ | ⟨-, -, hstreak, -⟩ :=
        decideChannel_cases db.channel
          ((Option.none.getD {} : IQTestControl).next db.channel runID run selected active allPassed)
          run.setting selected.negative allPassed breaker
      · exact hsame
      all_goals
        unfold IQTestControl.next at hstreak
        dsimp only [getD_none] at hstreak
        split_ifs at hstreak <;> omega

theorem changedBy_of_step (hok : s.inOrder a = true) (hs : s.step a = some s') (runID : String) :
    changedBy runID s a s' = 0 ∨
      changedBy runID s a s' = 1 ∧ runID ∉ s.decided ∧ runID ∈ s'.decided := by
  cases a with
  | enforce id rows read breaker =>
    simp only [changedBy]
    split_ifs with hchanged
    · refine .inr ⟨rfl, ?_⟩
      obtain ⟨rfl, hne⟩ := hchanged
      cases hs
      rw [inOrder, Bool.and_eq_true, Bool.or_eq_true] at hok
      have hlast : ¬ s.db.control.all (·.lastRunID = id) = true := fun hlast =>
        hne (channel_eq_of_enforce hlast rfl)
      refine ⟨by simpa using hok.1.resolve_right hlast, ?_⟩
      obtain hsame | ⟨-, -, hsame⟩ | ⟨run, selected, allPassed, active, hdecides⟩ :=
        enforce_cases s.db id rows read breaker
      · exact absurd (by dsimp only; rw [hsame]) hne
      · exact absurd (by dsimp only; rw [hsame]) hne
      · dsimp only
        rw [hdecides.result]
        simp [IQTestControl.next]
    · exact .inl rfl
  | _ => exact .inl rfl

end Steps

/-! ## Recovery -/

section Recovery

variable {s s' : IQSystem} {model bankVersion : String} {version : ℤ}

theorem negative_of_selectResult {run : IQTestRun} {rows : List IQTestResult} {read : Channel}
    {selected : IQTestResult} (h : selectResult run rows read = (some selected, true)) :
    selected.negative = false := by
  have hrounds : ∀ (l : List IQTestResult) (acc : Option IQTestResult × Bool),
      (acc.2 = true → ∀ r, acc.1 = some r → r.negative = false) →
      (l.foldl selectRound acc).2 = true → ∀ r, (l.foldl selectRound acc).1 = some r →
        r.negative = false := by
    intro l
    induction l with
    | nil => exact fun acc hacc => hacc
    | cons r l ih =>
      intro acc hacc
      refine ih (selectRound acc r) ?_
      unfold selectRound
      split
      · split_ifs
        · exact nofun
        · rename_i margin _ hmargin _
          intro hpassed t ht
          rw [Bool.and_eq_true] at hpassed
          have hr : r.negative = false := by
            rw [IQTestResult.negative, hmargin, getD_some]
            simpa using hpassed.2
          cases hfirst : acc.1 with
          | none =>
            rw [hfirst] at ht
            cases ht
            exact hr
          | some selected =>
            rw [hfirst] at ht
            cases ht
            split_ifs
            · exact hr
            · exact hacc hpassed.1 selected hfirst
      · exact nofun
  obtain ⟨hselected, hpassed⟩ := Prod.mk.inj h
  rw [Bool.and_eq_true] at hpassed
  exact hrounds rows (none, true) nofun hpassed.1 selected hselected

variable {a : IQStep} {ch : Channel} {p : List IQStep}

theorem decides_of_passes (hp : passes model version bankVersion s a = true)
    (hs : s.step a = some s') :
    ∃ runID rows read breaker run selected active,
      Decides s.db runID rows read breaker s'.db run selected true active ∧
        selected.requestedModel = model ∧ active.version = version ∧
        run.bankVersion = bankVersion ∧ s'.original = s.original := by
  cases a with
  | enforce runID rows read breaker =>
    simp only [passes] at hp
    split at hp
    · cases hp
    case h_2 run hrun =>
      simp only [Bool.and_eq_true, decide_eq_true_eq] at hp
      obtain ⟨⟨⟨⟨⟨⟨henforces, henabled⟩, hversion⟩, hrevision⟩, hbank⟩, hlast⟩, hselected⟩ := hp
      split at hselected
      case h_2 => cases hselected
      case h_1 selected hselect =>
        simp only [Bool.and_eq_true, decide_eq_true_eq] at hselected
        obtain ⟨hmodel, hactive⟩ := hselected
        obtain ⟨active, hactive', hactiveVersion⟩ := (any_eq_true _ _).1 hactive
        cases hs
        refine ⟨runID, rows, read, breaker, run, selected, active, ⟨hrun, hrevision, hselect, hactive',
          hlast, ?_⟩, hmodel, of_decide_eq_true hactiveVersion, hbank, rfl⟩
        unfold enforceIQTestRun
        rw [hrun]
        dsimp only
        rw [henforces, Bool.not_true, if_neg Bool.false_ne_true, hselect]
        dsimp only
        unfold enforceTx
        have hsetting : ¬ (!s.db.setting.enabled ||
            decide (s.db.setting.version ≠ run.setting.version)) = true := by
          simp [henabled, hversion]
        rw [if_neg hsetting, if_neg (not_not.2 hrevision), hactive']
        dsimp only
        rw [if_neg hlast]
  | _ => cases hp

theorem decideChannel_of_passed (ch : Channel) (control : IQTestControl) (setting : IQTestSetting)
    (breaker : Bool) :
    (decideChannel ch control setting false true breaker).1 =
      if ch.healthy = true ∧ 2 ≤ control.passStreak then
        (raisePriority (reenabled ch) control.step).1
      else ch := by
  unfold decideChannel reenabled
  cases ch.healthy with
  | false => simp
  | true =>
    by_cases hstreak : 2 ≤ control.passStreak
    · simp only [Bool.not_true, Bool.false_eq_true, if_false, Bool.false_and, Bool.true_and, hstreak,
        decide_true, if_true, and_self]
      split_ifs <;> rfl
    · simp [hstreak]

/-- The control row carries on a streak about the model. -/
def Warm (model : String) (version : ℤ) (bankVersion : String) (db : IQDb) : Prop :=
  ∃ c, db.control = some c ∧ c.revision = db.channel.iqRevision ∧ c.modelName = model ∧
    c.modelVersion = version ∧ c.bankVersion = bankVersion ∧ 1 ≤ c.passStreak

/-- At most `n` steps are missing. -/
def Within (n : ℕ) (db : IQDb) : Prop :=
  ∀ b a c, db.channel.iqBaselinePriority = some b → db.channel.iqAppliedPriority = some a →
    db.control = some c → b.toInt ≤ a.toInt + n * c.step.toInt

theorem passes_spec (hp : passes model version bankVersion s a = true) (hs : s.step a = some s') :
    ∃ c, s'.db.control = some c ∧
      c.revision = s'.db.channel.iqRevision ∧ c.modelName = model ∧ c.modelVersion = version ∧
      c.bankVersion = bankVersion ∧ 1 ≤ c.passStreak ∧
      (Warm model version bankVersion s.db → 2 ≤ c.passStreak) ∧
      (∀ c₀, s.db.control = some c₀ → s.db.channel.iqBaselinePriority.isSome = true →
        c.step = c₀.step) ∧
      s'.db.channel = if s.db.channel.healthy = true ∧ 2 ≤ c.passStreak then
          (raisePriority (reenabled s.db.channel) c.step).1
        else s.db.channel := by
  obtain ⟨runID, rows, read, breaker, run, selected, active, hdecides, rfl, rfl, rfl, -⟩ :=
    decides_of_passes hp hs
  have hnegative := negative_of_selectResult hdecides.chosen
  rw [hdecides.result]
  refine ⟨_, rfl, ?_, rfl, rfl, rfl, ?_, ?_, ?_, ?_⟩
  · exact (decideChannel_revision ..).symm
  · simp [IQTestControl.next, hnegative]
  · rintro ⟨c₀, hc₀, hrevision, hmodel, hversion, hbank, hstreak⟩
    have hsame : c₀.sameTest s.db.channel run selected active = true := by
      simp [sameTest, hrevision, hmodel, hversion, hbank]
    rw [hc₀, getD_some]
    simp only [IQTestControl.next, hnegative, hsame, if_true, Bool.false_eq_true, if_false]
    omega
  · intro c₀ hc₀ hbase
    rw [hc₀, getD_some]
    unfold IQTestControl.next
    rw [if_neg (by simpa using isSome_iff_ne_none.1 hbase)]
  · rw [hnegative]
    exact decideChannel_of_passed ..

theorem raisePriority_disabled (ch : Channel) (step : Int64) :
    (raisePriority ch step).1.iqDisabled = ch.iqDisabled := by
  unfold raisePriority
  split
  · split_ifs <;> rfl
  · rfl

theorem raisePriority_of_none (hb : ch.iqBaselinePriority = none) (step : Int64) :
    (raisePriority ch step).1 = ch := by
  unfold raisePriority
  rw [hb]

theorem Owned.raise_nearer {original step b a : Int64} (h : Owned ch original) (hstep : 0 < step)
    (hbetween : Between ch step) (hb : ch.iqBaselinePriority = some b)
    (ha : ch.iqAppliedPriority = some a) :
    (raisePriority ch step).1.iqBaselinePriority = none ∨
      (raisePriority ch step).1.iqBaselinePriority = some b ∧
        ∃ a', (raisePriority ch step).1.iqAppliedPriority = some a' ∧
          a'.toInt = a.toInt + step.toInt := by
  obtain ⟨-, hlt⟩ := hbetween b a hb ha
  have hget : ch.getPriority = a := by rw [getPriority, h.applied a ha, getD_some]
  have hvalue := iqPriorityStep_of_lt hstep hlt
  unfold raisePriority
  rw [hb, ha]
  dsimp only
  rw [if_pos hget, hget]
  by_cases hdone : iqPriorityStep a b step = b
  · rw [if_pos hdone]
    exact .inl rfl
  · rw [if_neg hdone, if_neg hdone]
    refine .inr ⟨rfl, _, rfl, ?_⟩
    have hne : (iqPriorityStep a b step).toInt ≠ b.toInt := fun heq => hdone (Int64.toInt_inj.1 heq)
    omega

theorem reenabled_disabled {original : Int64} (h : Owned ch original) :
    (reenabled ch).iqDisabled = false := by
  unfold reenabled
  split_ifs with hcond
  · rfl
  · cases hd : ch.iqDisabled with
    | false => rfl
    | true => exact absurd (by rw [hd, h.disabled hd]; rfl) hcond

theorem reenabled_priorities (ch : Channel) :
    (reenabled ch).iqBaselinePriority = ch.iqBaselinePriority ∧
      (reenabled ch).iqAppliedPriority = ch.iqAppliedPriority := by
  unfold reenabled
  split_ifs <;> exact ⟨rfl, rfl⟩

/-- A passing decision never goes further away; with a streak behind it, it comes nearer and takes back
the disabling. -/
theorem Inv.nearer (h : Inv s) (hp : passes model version bankVersion s a = true)
    (hs : s.step a = some s') :
    Warm model version bankVersion s'.db ∧ (∀ n, Within n s.db → Within n s'.db) ∧
      (s.db.channel.iqDisabled = false → s'.db.channel.iqDisabled = false) ∧
      (Warm model version bankVersion s.db →
        (∀ n, Within (n + 1) s.db → Within n s'.db) ∧ s'.db.channel.iqDisabled = false) := by
  obtain ⟨c, hc, hrevision, hmodel, hversion, hbank, hone, htwo, hkept, hrow⟩ := passes_spec hp hs
  -- what is known when a priority is applied
  have happlied : ∀ b, s.db.channel.iqBaselinePriority = some b → ∃ c₀ a₀,
      s.db.control = some c₀ ∧ s.db.channel.iqAppliedPriority = some a₀ ∧ 0 < c.step ∧
        c.step = c₀.step ∧ Between s.db.channel c.step ∧ s.db.channel.healthy = true := by
    intro b hb
    have hsome : s.db.channel.iqBaselinePriority.isSome = true := by rw [hb, isSome_some]
    obtain ⟨c₀, hc₀, hpos, hbetween⟩ := h.between hsome
    obtain ⟨a₀, ha₀, -⟩ := h.owned.applied_of_base hb
    have hstep := hkept c₀ hc₀ hsome
    refine ⟨c₀, a₀, hc₀, ha₀, by rwa [hstep], hstep, by rwa [hstep], h.owned.healthy ?_⟩
    rw [ownedByIQ, hsome, Bool.or_true]
  obtain ⟨hbaseSame, happliedSame⟩ := reenabled_priorities s.db.channel
  have hraised : ∀ b' a' : Int64,
      (raisePriority (reenabled s.db.channel) c.step).1.iqBaselinePriority = some b' →
      (raisePriority (reenabled s.db.channel) c.step).1.iqAppliedPriority = some a' →
      ∃ c₀ a₀, s.db.control = some c₀ ∧ s.db.channel.iqBaselinePriority = some b' ∧
        s.db.channel.iqAppliedPriority = some a₀ ∧ 0 < c.step.toInt ∧ c.step = c₀.step ∧
        a'.toInt = a₀.toInt + c.step.toInt := by
    intro b' a' hb' ha'
    cases hb : s.db.channel.iqBaselinePriority with
    | none =>
      rw [raisePriority_of_none (by rw [hbaseSame, hb]), hbaseSame, hb] at hb'
      cases hb'
    | some b =>
      obtain ⟨c₀, a₀, hc₀, ha₀, hpos, hstep, hbetween, hhealthy⟩ := happlied b hb
      have hbetween' : Between (reenabled s.db.channel) c.step := by
        intro b₁ a₁ hb₁ ha₁
        rw [hbaseSame] at hb₁
        rw [happliedSame] at ha₁
        exact hbetween b₁ a₁ hb₁ ha₁
      obtain hnone | ⟨hbase, a₁, ha₁, hnear⟩ := (h.owned.reenabled hhealthy).raise_nearer hpos
        hbetween' (by rw [hbaseSame, hb]) (by rw [happliedSame, ha₀])
      · rw [hnone] at hb'
        cases hb'
      · rw [hbase] at hb'
        rw [ha₁] at ha'
        obtain rfl := some.inj ha'
        exact ⟨c₀, a₀, hc₀, hb', ha₀, by simpa [Int64.lt_iff_toInt_lt] using hpos, hstep, hnear⟩
  refine ⟨⟨c, hc, hrevision, hmodel, hversion, hbank, hone⟩, ?_, ?_, ?_⟩
  · intro n hwithin b' a' c' hb' ha' hc'
    rw [hc] at hc'
    cases hc'
    rw [hrow] at hb' ha'
    split_ifs at hb' ha' with hraise
    · obtain ⟨c₀, a₀, hc₀, hb, ha₀, hpos, hstep, hnear⟩ := hraised b' a' hb' ha'
      have hold := hwithin b' a₀ c₀ hb ha₀ hc₀
      rw [hstep] at hnear hpos ⊢
      omega
    · obtain ⟨c₀, a₀, hc₀, ha₀, -, hstep, -⟩ := happlied b' hb'
      rw [hstep]
      exact hwithin b' a' c₀ hb' ha' hc₀
  · intro hfalse
    rw [hrow]
    split_ifs
    · rw [raisePriority_disabled]
      exact reenabled_disabled h.owned
    · exact hfalse
  · intro hwarm
    have hstreak := htwo hwarm
    constructor
    · intro n hwithin b' a' c' hb' ha' hc'
      rw [hc] at hc'
      cases hc'
      rw [hrow] at hb' ha'
      split_ifs at hb' ha' with hraise
      · obtain ⟨c₀, a₀, hc₀, hb, ha₀, -, hstep, hnear⟩ := hraised b' a' hb' ha'
        have hold := hwithin b' a₀ c₀ hb ha₀ hc₀
        rw [hstep] at hnear ⊢
        push_cast at hold
        linarith
      · obtain ⟨-, -, -, -, -, -, -, hhealthy⟩ := happlied b' hb'
        exact absurd ⟨hhealthy, hstreak⟩ hraise
    · rw [hrow]
      split_ifs with hraise
      · rw [raisePriority_disabled]
        exact reenabled_disabled h.owned
      · cases hd : s.db.channel.iqDisabled with
        | false => rfl
        | true =>
          have hown : s.db.channel.ownedByIQ = true := by rw [ownedByIQ, hd, Bool.true_or]
          exact absurd ⟨h.owned.healthy hown, hstreak⟩ hraise

theorem Inv.base_of_within (h : Inv s) (hwithin : Within 0 s.db) :
    s.db.channel.iqBaselinePriority = none := by
  cases hb : s.db.channel.iqBaselinePriority with
  | none => rfl
  | some b =>
    obtain ⟨c, hc, -, hbetween⟩ := h.between (by rw [hb, isSome_some])
    obtain ⟨a, ha, -⟩ := h.owned.applied_of_base hb
    have hlt := Int64.lt_iff_toInt_lt.1 (hbetween b a hb ha).2
    have hle := hwithin b a c hb ha hc
    omega

theorem frame_of_quiet (hq : quiet a = true) (hs : s.step a = some s') :
    s'.db.channel = s.db.channel ∧ s'.db.control = s.db.control ∧ s'.original = s.original := by
  cases a with
  | edit e =>
    cases hs
    have htouches : e.touches = false := by simpa [quiet] using hq
    unfold IQSystem.edit
    rw [e.run_of_not_touches htouches, htouches, if_neg Bool.false_ne_true]
    exact ⟨rfl, rfl, rfl⟩
  | configure =>
    cases hs
    exact ⟨rfl, rfl, rfl⟩
  | prepare =>
    obtain ⟨runs, -, rfl⟩ := map_eq_some_iff.1 hs
    exact ⟨rfl, rfl, rfl⟩
  | _ => cases hq

theorem recovering_cases (hr : recovering model version bankVersion s a = true) (p : List IQStep) :
    s.inOrder a = true ∧
      (passes model version bankVersion s a = true ∧ decisions (a :: p) = decisions p + 1 ∨
        quiet a = true ∧ decisions (a :: p) = decisions p) := by
  rw [recovering, Bool.and_eq_true, Bool.or_eq_true] at hr
  refine ⟨hr.2, hr.1.imp (fun hp => ⟨hp, ?_⟩) fun hq => ⟨hq, ?_⟩⟩
  · cases a with
    | enforce => exact countP_cons_of_pos rfl
    | _ => cases hp
  · cases a with
    | enforce => cases hq
    | _ => exact countP_cons_of_neg (by simp)

theorem Inv.recovers_warm {n : ℕ} (h : Inv s) (hwarm : Warm model version bankVersion s.db)
    (hwithin : Within n s.db) (hn : n ≤ decisions p)
    (hp : Run.Along IQSystem.step (fun s a => recovering model version bankVersion s a = true) s p)
    (hrun : run IQSystem.step s p = some s') :
    s'.db.channel.iqBaselinePriority = none ∧
      (s.db.channel.iqDisabled = false ∨ 1 ≤ decisions p → s'.db.channel.iqDisabled = false) := by
  induction p generalizing s n with
  | nil =>
    cases hrun
    obtain rfl : n = 0 := Nat.le_zero.1 hn
    refine ⟨h.base_of_within hwithin, fun hd => hd.elim id fun hone => ?_⟩
    simp [decisions] at hone
  | cons a p ih =>
    obtain ⟨s₁, hs₁, hrest⟩ := run_cons_eq_some_iff.1 hrun
    rw [along_cons hs₁] at hp
    obtain ⟨hok, ⟨hpasses, hcount⟩ | ⟨hquiet, hcount⟩⟩ := recovering_cases hp.1 p
    · obtain ⟨hwarm₁, hkeeps, -, hnearer⟩ := h.nearer hpasses hs₁
      obtain ⟨hnear, henabled⟩ := hnearer hwarm
      have hwithin₁ : Within (n - 1) s₁.db := by
        cases n with
        | zero => exact hkeeps 0 hwithin
        | succ n => exact hnear n hwithin
      obtain ⟨hnone, hdisabled⟩ := ih (h.step hok hs₁) hwarm₁ hwithin₁ (by omega) hp.2 hrest
      exact ⟨hnone, fun _ => hdisabled (.inl henabled)⟩
    · obtain ⟨hchannel, hcontrol, -⟩ := frame_of_quiet hquiet hs₁
      have hwarm₁ : Warm model version bankVersion s₁.db := by
        unfold Warm
        rwa [hchannel, hcontrol]
      have hwithin₁ : Within n s₁.db := by
        unfold Within
        rwa [hchannel, hcontrol]
      obtain ⟨hnone, hdisabled⟩ := ih (h.step hok hs₁) hwarm₁ hwithin₁ (by omega) hp.2 hrest
      rw [hcount, ← hchannel]
      exact ⟨hnone, hdisabled⟩

/-- One passing decision to begin a streak, and one for each step that is missing. -/
theorem Inv.recovers {n : ℕ} (h : Inv s) (hwithin : Within n s.db)
    (hp : Run.Along IQSystem.step (fun s a => recovering model version bankVersion s a = true) s p)
    (hrun : run IQSystem.step s p = some s') (hn : 1 ≤ n) (hlength : n + 1 ≤ decisions p) :
    s'.db.channel.iqBaselinePriority = none ∧ s'.db.channel.iqDisabled = false := by
  induction p generalizing s with
  | nil => simp [decisions] at hlength
  | cons a p ih =>
    obtain ⟨s₁, hs₁, hrest⟩ := run_cons_eq_some_iff.1 hrun
    rw [along_cons hs₁] at hp
    obtain ⟨hok, ⟨hpasses, hcount⟩ | ⟨hquiet, hcount⟩⟩ := recovering_cases hp.1 p
    · obtain ⟨hwarm₁, hkeeps, -⟩ := h.nearer hpasses hs₁
      obtain ⟨hnone, hdisabled⟩ := (h.step hok hs₁).recovers_warm hwarm₁ (hkeeps n hwithin)
        (by omega) hp.2 hrest
      exact ⟨hnone, hdisabled (.inr (by omega))⟩
    · obtain ⟨hchannel, hcontrol, -⟩ := frame_of_quiet hquiet hs₁
      have hwithin₁ : Within n s₁.db := by
        unfold Within
        rwa [hchannel, hcontrol]
      exact ih (h.step hok hs₁) hwithin₁ hp.2 hrest (by omega)

theorem Inv.passes_status (h : Inv s) (hp : passes model version bankVersion s a = true)
    (hs : s.step a = some s')
    (hbefore : s.db.channel.iqDisabled = true ∨ s.db.channel.status = Relay.channelStatusEnabled) :
    s'.db.channel.iqDisabled = true ∨ s'.db.channel.status = Relay.channelStatusEnabled := by
  obtain ⟨c, -, -, -, -, -, -, -, -, hrow⟩ := passes_spec hp hs
  rw [hrow]
  split_ifs
  · have hstatus : ∀ (ch : Channel) step, (raisePriority ch step).1.status = ch.status := by
      intro ch step
      unfold raisePriority
      split
      · split_ifs <;> rfl
      · rfl
    rw [hstatus]
    refine .inr ?_
    unfold reenabled
    split_ifs with hcond
    · rfl
    · refine hbefore.elim (fun hd => absurd ?_ hcond) id
      rw [hd, h.owned.disabled hd]
      rfl
  · exact hbefore

theorem passes_original (hp : passes model version bankVersion s a = true) (hs : s.step a = some s')
    : s'.original = s.original := by
  obtain ⟨-, -, -, -, -, -, -, -, -, -, -, horiginal⟩ := decides_of_passes hp hs
  exact horiginal

theorem Inv.within (h : Inv s) :
    Within 10 s.db ∧
      ((∀ c, s.db.control = some c → 5 * c.step.toInt < 9223372036854775808) → Within 5 s.db) := by
  constructor
  · intro b a c hb ha hc
    obtain ⟨c', hc', hpos, hbetween⟩ := h.between (by rw [hb, isSome_some])
    rw [hc] at hc'
    cases hc'
    exact (le_add_of_iqFloor_le hpos (hbetween b a hb ha).1).1
  · intro hsmall b a c hb ha hc
    obtain ⟨c', hc', hpos, hbetween⟩ := h.between (by rw [hb, isSome_some])
    rw [hc] at hc'
    cases hc'
    exact (le_add_of_iqFloor_le hpos (hbetween b a hb ha).1).2 (hsmall c hc)

theorem Inv.restored (h : Inv s)
    (hp : Run.Along IQSystem.step (fun s a => recovering model version bankVersion s a = true) s p)
    (hrun : run IQSystem.step s p = some s') (hlength : 11 ≤ decisions p ∨ 6 ≤ decisions p ∧
      ∀ c, s.db.control = some c → 5 * c.step.toInt < 9223372036854775808) :
    s'.db.channel.iqBaselinePriority = none ∧ s'.db.channel.getPriority = s.original ∧
      s'.db.channel.iqDisabled = false ∧
      (s.db.channel.iqDisabled = true → s'.db.channel.status = Relay.channelStatusEnabled) := by
  obtain ⟨hnone, henabled⟩ : s'.db.channel.iqBaselinePriority = none ∧
      s'.db.channel.iqDisabled = false := by
    obtain hlong | ⟨hshort, hsmall⟩ := hlength
    · exact h.recovers h.within.1 hp hrun (by omega) (by omega)
    · exact h.recovers (h.within.2 hsmall) hp hrun (by omega) (by omega)
  -- what a recovering step keeps
  have hstep : ∀ t a t', (Inv t ∧ t.original = s.original ∧
      (s.db.channel.iqDisabled = true → t.db.channel.iqDisabled = true ∨
        t.db.channel.status = Relay.channelStatusEnabled)) →
      recovering model version bankVersion t a = true → t.step a = some t' →
      Inv t' ∧ t'.original = s.original ∧
        (s.db.channel.iqDisabled = true → t'.db.channel.iqDisabled = true ∨
          t'.db.channel.status = Relay.channelStatusEnabled) := by
    rintro t a t' ⟨hinv, horiginal, hstatus⟩ hr hs
    obtain ⟨hok, ⟨hpasses, -⟩ | ⟨hquiet, -⟩⟩ := recovering_cases hr []
    · refine ⟨hinv.step hok hs, (passes_original hpasses hs).trans horiginal, fun hd => ?_⟩
      exact hinv.passes_status hpasses hs (hstatus hd)
    · obtain ⟨hchannel, -, hsame⟩ := frame_of_quiet hquiet hs
      refine ⟨hinv.step hok hs, hsame.trans horiginal, ?_⟩
      rwa [hchannel]
  obtain ⟨hinv, horiginal, hstatus⟩ := invariant_along hstep ⟨h, rfl, .inl⟩ hp hrun
  refine ⟨hnone, ?_, henabled, fun hd => (hstatus hd).resolve_left (by simp [henabled])⟩
  rw [← horiginal]
  exact hinv.owned.free hnone

end Recovery

/-- In every run in order a run changes the channel at most once, every step keeps what IQ owns, enough
consecutive passing runs give it back, and the steps of the priority are exact. -/
theorem keeps_ownership {s s' : IQSystem} {l : List IQStep} (hcalls : s.calls = ∅)
    (hruns : s.db.runs = ∅) (hstale : s.stale = []) (hown : s.db.channel.ownedByIQ = false)
    (happlied : s.db.channel.iqAppliedPriority = none) (horiginal : s.original = s.db.channel.getPriority)
    (h : run step s l = some s') (hok : Run.Along step (fun s a => s.inOrder a = true) s l) :
    (∀ runID, total step (changedBy runID) s l ≤ 1) ∧
      Run.Along step (fun s a => ∀ s', s.step a = some s' → Keeps s a s') s l ∧
      (∀ model version bankVersion p s'', run step s' p = some s'' →
        Run.Along step (fun s a => recovering model version bankVersion s a = true) s' p →
        (11 ≤ decisions p ∨ 6 ≤ decisions p ∧
          ∀ c, s'.db.control = some c → 5 * c.step.toInt < 9223372036854775808) →
        s''.db.channel.iqBaselinePriority = none ∧ s''.db.channel.getPriority = s'.original ∧
          s''.db.channel.iqDisabled = false ∧
          (s'.db.channel.iqDisabled = true → s''.db.channel.status = Relay.channelStatusEnabled)) ∧
      ∀ current target step : Int64, 0 < step → (iqPriorityStep current target step).toInt =
        if current.toInt ≤ target.toInt then min (current.toInt + step.toInt) target.toInt
        else max (current.toInt - step.toInt) target.toInt := by
  rw [ownedByIQ, Bool.or_eq_false_iff] at hown
  have hbase : s.db.channel.iqBaselinePriority = none := isNone_iff_eq_none.1 (by simpa using hown.2)
  have hstart : Inv s := by
    refine ⟨⟨?_, ?_, ?_, fun _ => horiginal.symm, ?_, ?_⟩, ?_, ?_, ?_, ?_, ?_, ?_⟩
    · rw [hbase, happlied]
    · simp [hbase]
    · simp [happlied]
    · simp [hown.1]
    · simp [ownedByIQ, hown.1, hbase]
    · simp [hbase]
    · simp [ownedByIQ, hown.1, hbase]
    · simp [ownedByIQ, hown.1, hbase]
    · simp [hcalls]
    · simp [hruns]
    · simp [hstale]
  have hinv : ∀ s a s', Inv s → s.inOrder a = true → s.step a = some s' → Inv s' :=
    fun s a s' hs ha hstep => hs.step ha hstep
  refine ⟨fun runID => ?_, ?_, ?_, fun current target step hstep => iqPriorityStep_toInt hstep⟩
  · have hclosed : ∀ s a s', Inv s → s.inOrder a = true → runID ∈ s.decided →
        s.step a = some s' → runID ∈ s'.decided :=
      fun s a s' _ _ hmem hstep => (record_of_step hstep).2 runID hmem
    exact total_le_one_along hinv hclosed
      (fun s a s' _ ha hstep => changedBy_of_step ha hstep runID) hstart hok h
  · exact along_of_invariant hinv (fun s a hs ha s' hstep => keeps hs ha hstep) hstart hok
  · intro model version bankVersion p s'' hrun hp hlength
    exact (invariant_along hinv hstart hok h).restored hp hrun hlength

/-! ### Two models -/

def twoModels : IQSystem where
  db :=
    { channel := { models := "a,b", priority := some 100 }
      models := ⟨[(1, { modelName := "a" }), (2, { modelName := "b" })], by decide⟩ }
  original := 100

def decision (runID : String) (a b : ℤ) : IQStep :=
  .enforce runID
    [{ requestedModel := "a", score := some 0, margin := some a },
      { requestedModel := "b", score := some 0, margin := some b }] { models := "a,b" } false

def runs (margins : List (String × ℤ × ℤ)) : List IQStep :=
  margins.flatMap fun m => [.prepare m.1 [] "bank" true, decision m.1 m.2.1 m.2.2]

/-- Three runs below the baseline of the first model. -/
def lowering : List IQStep := runs [("1", -10, 5), ("2", -10, 5), ("3", -10, 5)]

def passing : List IQStep :=
  runs [("4", 1, 5), ("5", 1, 5), ("6", 1, 5), ("7", 1, 5), ("8", 1, 5), ("9", 1, 5)]

theorem keeps_ownership_passing :
    ∃ s' s'', run step twoModels lowering = some s' ∧ run step s' passing = some s'' ∧
      (∀ runID, total step (changedBy runID) twoModels lowering ≤ 1) ∧
      s''.db.channel.getPriority = s'.original := by
  obtain ⟨s', hs', hpassing, ⟨c, hc, hsmall⟩, hsome⟩ :
      ∃ s', run step twoModels lowering = some s' ∧
        Run.Along step (fun s a => recovering "a" 1 "bank" s a = true) s' passing ∧
        (∃ c, s'.db.control = some c ∧ 5 * c.step.toInt < 9223372036854775808) ∧
        (run step s' passing).isSome := by
    decide +kernel
  obtain ⟨s'', hrun⟩ := isSome_iff_exists.1 hsome
  have hstep : ∀ c, s'.db.control = some c → 5 * c.step.toInt < 9223372036854775808 := by
    intro c' hc'
    cases hc.symm.trans hc'
    exact hsmall
  obtain ⟨honce, -, hrestores, -⟩ := keeps_ownership rfl rfl rfl rfl rfl rfl hs' (by decide +kernel)
  exact ⟨s', s'', hs', hrun, honce,
    (hrestores "a" 1 "bank" passing s'' hrun hpassing (.inr ⟨by decide, hstep⟩)).2.1⟩

def decidedAgain : List IQStep := lowering ++ [decision "2" (-10) 5]

/-- Runs that pass, with the lowest margin on one model and on the other in turn. -/
def alternating : List IQStep :=
  runs [("4", 1, 5), ("5", 5, 1), ("6", 1, 5), ("7", 5, 1), ("8", 1, 5), ("9", 5, 1), ("10", 1, 5),
    ("11", 5, 1), ("12", 1, 5), ("13", 5, 1), ("14", 1, 5), ("15", 5, 1)]

/-- A reconciliation that has listed a disabled channel writes after the channel has been enabled,
lowered and disabled again. -/
def listedBefore : List IQStep :=
  [.configure { disableBelowBaseline := true } twoModels.db.models] ++
  runs [("1", -10, 5), ("2", -10, 5)] ++
  [.configure { enabled := false, version := 2 } twoModels.db.models, .reconcileConfig 1,
    .reconcileList 1, .reconcileControl 1,
    .configure { disableBelowBaseline := true, version := 3 } twoModels.db.models] ++
  runs [("3", 1, 5), ("4", 1, 5)] ++ [.configure { version := 4 } twoModels.db.models] ++
  runs [("5", -10, 5), ("6", -10, 5)] ++
  [.configure { disableBelowBaseline := true, version := 5 } twoModels.db.models] ++
  runs [("7", -10, 5)] ++ [.reconcileWrite 1]

/-- Out of order, a run changes the channel twice and a reconciliation takes the control row of a lowered
channel; twelve passing runs about two models in turn give nothing back. -/
theorem ownership_lost :
    total step (changedBy "2") twoModels decidedAgain = 2 ∧
      (∃ s s', run step twoModels lowering = some s ∧ run step s alternating = some s' ∧
        Run.Along step (fun s a => recovering "a" 1 "bank" s a = true ∨
          recovering "b" 1 "bank" s a = true) s alternating ∧
        s'.db.channel.iqBaselinePriority = some 100) ∧
      ∃ s', run step twoModels listedBefore = some s' ∧ ¬ Consistent s'.db := by
  refine ⟨by decide +kernel, ?_, ?_⟩
  · simp only [exists_and_left]
    decide +kernel
  · refine exists_some_imp (p := fun s' => s'.db.control = none ∧
      s'.db.channel.iqBaselinePriority = some 100 ∧ s'.db.channel.iqAppliedPriority.isSome)
      (by decide +kernel) fun s' _ ⟨hcontrol, hbase, happlied⟩ hconsistent => ?_
    obtain ⟨a, ha⟩ := isSome_iff_exists.1 happlied
    obtain ⟨-, -, c, hc, -⟩ := hconsistent.between 100 a hbase ha
    cases hcontrol.symm.trans hc

end IQSystem

end BeeApi.IQTest
