import BeeApi.Lib.Run
import BeeApi.Model.Channel
import Mathlib.Data.Rat.Floor
import Mathlib.Tactic.Positivity

/-!
# Channel health

The degradation of a channel in `service/channel_health.go` and `service/channel.go`.  The first
demotion keeps a snapshot of the priority and the weight; every other level is computed from it, and the
last upgrade writes it back.  `preChannelEnableHook` has a formula of its own for the first level, which
halves the weight.  Weights are computed with exact numbers.
-/

namespace BeeApi.Relay

def healthLevelHealthy : ℤ := 0

def healthLevelL1 : ℤ := 1

/-- `ChannelHealthConfig`, the fields that demotions and upgrades read. -/
structure ChannelHealthConfig where
  enabled : Bool := true
  maxDegradeLevel : ℤ := 10
  minWeightFactor : ℚ := 1 / 20
  demoteCooldownSec : ℤ := 0

/-- What a call meets: the cooldown, the lock, the database and the time. -/
structure HealthCall where
  cooldownActive : Bool := false
  locked : Bool := false
  loadFails : Bool := false
  updateFails : Bool := false
  now : ℤ := 0

def degradeFactors (level maxLevel : ℤ) (minFactor : ℚ) : ℚ × ℤ :=
  if level ≤ 0 then (1, 0)
  else
    let factor := 1 - level * ((1 - minFactor) / maxLevel)
    (if factor < minFactor then minFactor else factor, -level)

def applyDegrade (cfg : ChannelHealthConfig) (originalP : ℤ) (originalW : ℕ) (level : ℤ) : ℤ × ℕ :=
  if level ≤ 0 then (originalP, originalW)
  else
    let (factor, offset) := degradeFactors level cfg.maxDegradeLevel cfg.minWeightFactor
    let newW :=
      if 0 < originalW then
        if cfg.minWeightFactor ≤ 0 then ⌊originalW * factor⌋.toNat
        else max 1 ⌊originalW * factor⌋.toNat
      else 0
    (originalP + offset, newW)

def truncateReason (s : String) (n : ℕ) : String := String.ofList (s.toList.take n)

/-! ## Transitions -/

/-- `demoteTo`; `none` leaves the row alone. -/
def demoteTo (cfg : ChannelHealthConfig) (call : HealthCall) (ch : Channel) (targetLevel : ℤ)
    (reason : String) : Option Channel :=
  if 0 < cfg.demoteCooldownSec ∧ call.cooldownActive then none
  else if call.locked then none
  else if call.loadFails then none
  else if ch.getAutoBan = false then none
  else if targetLevel ≤ ch.degradeLevel.getD 0 then none
  else if call.updateFails then none
  else
    let current := ch.degradeLevel.getD 0
    let originalP := if current = 0 then ch.priority.getD 0 else ch.originalPriority.getD 0
    let originalW := if current = 0 then ch.weight.getD 0 else ch.originalWeight.getD 0
    let (newP, newW) := applyDegrade cfg originalP originalW targetLevel
    some { ch with
      priority := some newP
      weight := some newW
      degradeLevel := some targetLevel
      lastDemoteAt := some call.now
      lastDemoteReason := some (truncateReason reason 1000)
      originalPriority := if current = 0 then some originalP else ch.originalPriority
      originalWeight := if current = 0 then some originalW else ch.originalWeight }

def upgradeOneLevel (cfg : ChannelHealthConfig) (call : HealthCall) (ch : Channel) : Option Channel :=
  if call.locked then none
  else if call.loadFails then none
  else if ch.degradeLevel.getD 0 ≤ 0 then none
  else if call.updateFails then none
  else
    let originalP := ch.originalPriority.getD (ch.priority.getD 0)
    let originalW := ch.originalWeight.getD (ch.weight.getD 0)
    let newLevel := ch.degradeLevel.getD 0 - 1
    if newLevel ≤ healthLevelHealthy then
      some { ch with
        priority := some originalP
        weight := some originalW
        degradeLevel := some 0
        originalPriority := some 0
        originalWeight := some 0
        lastUpgradeAt := some call.now
        lastDemoteReason := some "" }
    else
      let (newP, newW) := applyDegrade cfg originalP originalW newLevel
      some { ch with
        priority := some newP
        weight := some newW
        degradeLevel := some newLevel
        lastUpgradeAt := some call.now }

/-- The weight that `preChannelEnableHook` gives to a channel. -/
def enableHookWeight (originalW : ℕ) : ℕ :=
  if 0 < originalW then if originalW / 2 < 1 then 1 else originalW / 2 else 0

def preChannelEnableHook (cfg : ChannelHealthConfig) (call : HealthCall) (ch : Channel) :
    Option Channel :=
  if cfg.enabled = false then none
  else if call.loadFails then none
  else if healthLevelL1 ≤ ch.degradeLevel.getD 0 then none
  else if call.updateFails then none
  else
    let originalP := ch.priority.getD 0
    let originalW := ch.weight.getD 0
    some { ch with
      degradeLevel := some healthLevelL1
      originalPriority := some originalP
      originalWeight := some originalW
      priority := some (originalP - 1)
      weight := some (enableHookWeight originalW)
      lastDemoteAt := some call.now }

inductive HealthStep where
  | demoteTo (call : HealthCall) (targetLevel : ℤ) (reason : String)
  | upgradeOneLevel (call : HealthCall)
  | preChannelEnableHook (call : HealthCall)

def healthStep (cfg : ChannelHealthConfig) (ch : Channel) : HealthStep → Option Channel
  | .demoteTo call targetLevel reason => some ((demoteTo cfg call ch targetLevel reason).getD ch)
  | .upgradeOneLevel call => some ((upgradeOneLevel cfg call ch).getD ch)
  | .preChannelEnableHook call => some ((preChannelEnableHook cfg call ch).getD ch)

/-! ## Deeper levels have less -/

section Levels

variable {cfg : ChannelHealthConfig}

def factor (cfg : ChannelHealthConfig) (level : ℤ) : ℚ :=
  (degradeFactors level cfg.maxDegradeLevel cfg.minWeightFactor).1

theorem factor_of_pos {k : ℤ} (hk : 0 < k) :
    factor cfg k = max cfg.minWeightFactor
      (1 - k * ((1 - cfg.minWeightFactor) / cfg.maxDegradeLevel)) := by
  unfold factor degradeFactors
  rw [if_neg (by omega)]
  dsimp only
  split_ifs with hlt
  · exact (max_eq_left hlt.le).symm
  · exact (max_eq_right (not_lt.1 hlt)).symm

theorem factor_of_nonpos {k : ℤ} (hk : k ≤ 0) : factor cfg k = 1 := by
  unfold factor degradeFactors
  rw [if_pos hk]

theorem factor_antitone (hmax : 1 ≤ cfg.maxDegradeLevel) (hmin : cfg.minWeightFactor ≤ 1)
    {k k' : ℤ} (h : k ≤ k') : factor cfg k' ≤ factor cfg k := by
  have hmax' : (1 : ℚ) ≤ cfg.maxDegradeLevel := by exact_mod_cast hmax
  have hstep : 0 ≤ (1 - cfg.minWeightFactor) / cfg.maxDegradeLevel :=
    div_nonneg (by linarith) (by linarith)
  by_cases hk' : k' ≤ 0
  · rw [factor_of_nonpos hk', factor_of_nonpos (h.trans hk')]
  have hpos' : (0 : ℚ) ≤ k' := by exact_mod_cast (not_le.1 hk').le
  rw [factor_of_pos (not_le.1 hk')]
  by_cases hk : k ≤ 0
  · rw [factor_of_nonpos hk]
    refine max_le hmin ?_
    have := mul_nonneg hpos' hstep
    linarith
  · rw [factor_of_pos (not_le.1 hk)]
    have hcast : (k : ℚ) ≤ k' := by exact_mod_cast h
    have := mul_le_mul_of_nonneg_right hcast hstep
    exact max_le_max le_rfl (by linarith)

theorem applyDegrade_of_nonpos {k : ℤ} (hk : k ≤ 0) (p : ℤ) (w : ℕ) :
    applyDegrade cfg p w k = (p, w) :=
  if_pos hk

theorem applyDegrade_of_pos {k : ℤ} (hk : 0 < k) (p : ℤ) (w : ℕ) :
    applyDegrade cfg p w k = (p - k, if 0 < w then
        if cfg.minWeightFactor ≤ 0 then ⌊w * factor cfg k⌋.toNat else max 1 ⌊w * factor cfg k⌋.toNat
      else 0) := by
  have hk' : ¬ k ≤ 0 := by omega
  unfold applyDegrade factor
  rw [if_neg hk']
  have hoffset : (degradeFactors k cfg.maxDegradeLevel cfg.minWeightFactor).2 = -k := by
    unfold degradeFactors
    rw [if_neg hk']
  dsimp only
  rw [hoffset, ← sub_eq_add_neg]

theorem applyDegrade_weight_le (hmax : 1 ≤ cfg.maxDegradeLevel) (hmin : cfg.minWeightFactor ≤ 1)
    (p : ℤ) (w : ℕ) (k : ℤ) : (applyDegrade cfg p w k).2 ≤ w := by
  by_cases hk : k ≤ 0
  · rw [applyDegrade_of_nonpos hk]
  rw [applyDegrade_of_pos (not_le.1 hk)]
  have hone : factor cfg k ≤ 1 := by
    have := factor_antitone hmax hmin (not_le.1 hk).le
    rwa [factor_of_nonpos le_rfl] at this
  have hfloor : ⌊w * factor cfg k⌋.toNat ≤ w := by
    have hle : (w : ℚ) * factor cfg k ≤ w := mul_le_of_le_one_right (by positivity) hone
    have := Int.floor_le_floor hle
    rw [Int.floor_natCast] at this
    omega
  split_ifs <;> omega

theorem applyDegrade_antitone (hmax : 1 ≤ cfg.maxDegradeLevel) (hmin : cfg.minWeightFactor ≤ 1)
    (p : ℤ) (w : ℕ) {k k' : ℤ} (h : k ≤ k') :
    (applyDegrade cfg p w k').1 ≤ (applyDegrade cfg p w k).1 ∧
      (applyDegrade cfg p w k').2 ≤ (applyDegrade cfg p w k).2 := by
  by_cases hk : k ≤ 0
  · rw [applyDegrade_of_nonpos hk]
    refine ⟨?_, applyDegrade_weight_le hmax hmin p w k'⟩
    by_cases hk' : k' ≤ 0
    · rw [applyDegrade_of_nonpos hk']
    · rw [applyDegrade_of_pos (not_le.1 hk')]
      omega
  · have hk' : 0 < k' := by omega
    rw [applyDegrade_of_pos (not_le.1 hk), applyDegrade_of_pos hk']
    have hle : (w : ℚ) * factor cfg k' ≤ w * factor cfg k :=
      mul_le_mul_of_nonneg_left (factor_antitone hmax hmin h) (by positivity)
    have hfloor := Int.toNat_le_toNat (Int.floor_le_floor hle)
    refine ⟨by omega, ?_⟩
    split_ifs <;> omega

end Levels

/-! ## Transitions recompute from the snapshot -/

section Transitions

variable {cfg : ChannelHealthConfig} {p : ℤ} {w : ℕ} {ch ch' : Channel}

def Channel.level (ch : Channel) : ℤ := ch.degradeLevel.getD 0

/-- The snapshot of a degraded channel is the initial priority and weight, and a healthy channel has
them. -/
structure Restorable (p : ℤ) (w : ℕ) (ch : Channel) : Prop where
  nonneg : 0 ≤ ch.level
  snapshot : 0 < ch.level → ch.originalPriority = some p ∧ ch.originalWeight = some w
  healthy : ch.level = 0 → ch.priority.getD 0 = p ∧ ch.weight.getD 0 = w

def AtLevel (cfg : ChannelHealthConfig) (p : ℤ) (w : ℕ) (ch : Channel) : Prop :=
  0 < ch.level → (ch.priority.getD 0, ch.weight.getD 0) = applyDegrade cfg p w ch.level

theorem Restorable.original (h : Restorable p w ch) :
    (if ch.level = 0 then ch.priority.getD 0 else ch.originalPriority.getD 0) = p ∧
      (if ch.level = 0 then ch.weight.getD 0 else ch.originalWeight.getD 0) = w := by
  by_cases hlevel : ch.level = 0
  · rw [if_pos hlevel, if_pos hlevel]
    exact h.healthy hlevel
  · have hpos : 0 < ch.level := by
      have := h.nonneg
      omega
    obtain ⟨hp, hw⟩ := h.snapshot hpos
    rw [if_neg hlevel, if_neg hlevel, hp, hw]
    exact ⟨rfl, rfl⟩

variable {call : HealthCall}

theorem demoteTo_spec {targetLevel : ℤ} {reason : String} (hinv : Restorable p w ch)
    (h : demoteTo cfg call ch targetLevel reason = some ch') :
    Restorable p w ch' ∧ AtLevel cfg p w ch' := by
  obtain ⟨hp, hw⟩ := hinv.original
  have hnonneg := hinv.nonneg
  unfold Channel.level at hp hw hnonneg
  unfold demoteTo at h
  split_ifs at h with _ _ _ _ htarget
  dsimp only at h
  rw [hp, hw] at h
  cases h
  have hpos : 0 < targetLevel := by omega
  refine ⟨⟨hpos.le, fun _ => ?_, fun hzero => ?_⟩, fun _ => rfl⟩
  · dsimp only
    split_ifs with hzero
    · exact ⟨rfl, rfl⟩
    · exact hinv.snapshot (by unfold Channel.level; omega)
  · exact absurd hzero (ne_of_gt hpos)

theorem upgradeOneLevel_spec (hinv : Restorable p w ch) (h : upgradeOneLevel cfg call ch = some ch')
    : Restorable p w ch' ∧ AtLevel cfg p w ch' := by
  unfold upgradeOneLevel at h
  split_ifs at h with _ _ hlevel
  obtain ⟨hp, hw⟩ := hinv.snapshot (by unfold Channel.level; omega)
  rw [hp, hw] at h
  dsimp only [Option.getD_some] at h
  split at h
  · cases h
    refine ⟨⟨le_rfl, fun hpos => ?_, fun _ => ⟨rfl, rfl⟩⟩, fun hpos => ?_⟩ <;>
      exact absurd hpos (lt_irrefl 0)
  · rename_i hlast
    cases h
    have hpos : 0 < ch.degradeLevel.getD 0 - 1 := not_le.1 hlast
    refine ⟨⟨hpos.le, fun _ => ⟨rfl, rfl⟩, fun hzero => ?_⟩, fun _ => rfl⟩
    exact absurd hzero (ne_of_gt hpos)

def HookTakesEffect (cfg : ChannelHealthConfig) (call : HealthCall) (ch : Channel) : Prop :=
  cfg.enabled = true ∧ call.loadFails = false ∧ call.updateFails = false ∧ ch.level < healthLevelL1

/-- The hook keeps the snapshot, but its weight is that of the first level only by chance. -/
theorem preChannelEnableHook_spec (hinv : Restorable p w ch)
    (h : preChannelEnableHook cfg call ch = some ch') :
    Restorable p w ch' ∧ (AtLevel cfg p w ch' ↔ enableHookWeight w = (applyDegrade cfg p w 1).2) := by
  unfold preChannelEnableHook at h
  split_ifs at h with _ _ hlevel
  obtain ⟨hp, hw⟩ := hinv.healthy (by
    have := hinv.nonneg
    unfold Channel.level at this ⊢
    unfold healthLevelL1 at hlevel
    omega)
  rw [hp, hw] at h
  cases h
  have hone : (0 : ℤ) < 1 := Int.one_pos
  refine ⟨⟨hone.le, fun _ => ⟨rfl, rfl⟩, fun hzero => absurd hzero (ne_of_gt hone)⟩, ?_⟩
  have hpriority : (applyDegrade cfg p w 1).1 = p - 1 := by rw [applyDegrade_of_pos hone]
  constructor
  · exact fun hat => congrArg Prod.snd (hat hone)
  · intro heq _
    exact Prod.ext hpriority.symm heq

theorem preChannelEnableHook_eq_none_iff :
    preChannelEnableHook cfg call ch = none ↔ ¬ HookTakesEffect cfg call ch := by
  unfold preChannelEnableHook HookTakesEffect Channel.level
  split_ifs with henabled hload hlevel hupdate
  · simp [henabled]
  · simp [hload]
  · simp [not_lt.2 hlevel]
  · simp [hupdate]
  · simp [henabled, hload, hupdate, not_le.1 hlevel]

/-- The share of a weight that the formula leaves at the first level. -/
def firstLevelWeight (cfg : ChannelHealthConfig) (w : ℕ) : ℕ :=
  let weight :=
    ⌊w * max cfg.minWeightFactor (1 - (1 - cfg.minWeightFactor) / cfg.maxDegradeLevel)⌋.toNat
  if cfg.minWeightFactor ≤ 0 then weight else max 1 weight

/-- Where the hook takes effect, half of the weight is the share of the first level. -/
def HookAgrees (cfg : ChannelHealthConfig) (w : ℕ) (ch : Channel) : HealthStep → Prop
  | .preChannelEnableHook call =>
    HookTakesEffect cfg call ch → w = 0 ∨ max 1 (w / 2) = firstLevelWeight cfg w
  | _ => True

theorem enableHookWeight_eq_iff {w : ℕ} :
    enableHookWeight w = (applyDegrade cfg p w 1).2 ↔
      w = 0 ∨ max 1 (w / 2) = firstLevelWeight cfg w := by
  unfold enableHookWeight firstLevelWeight
  rw [applyDegrade_of_pos Int.one_pos, factor_of_pos Int.one_pos, Int.cast_one, one_mul]
  by_cases hw : 0 < w
  · have hhalf : (if w / 2 < 1 then 1 else w / 2) = max 1 (w / 2) := by
      split_ifs <;> omega
    simp only [if_pos hw, hhalf, hw.ne', false_or]
  · rw [if_neg hw, if_neg hw]
    exact iff_of_true rfl (.inl (Nat.eq_zero_of_not_pos hw))

theorem restorable_step {a : HealthStep} (hinv : Restorable p w ch)
    (h : healthStep cfg ch a = some ch') : Restorable p w ch' := by
  cases a with
  | demoteTo call targetLevel reason =>
    cases h
    cases hd : demoteTo cfg call ch targetLevel reason with
    | none => exact hinv
    | some ch' => exact (demoteTo_spec hinv hd).1
  | upgradeOneLevel call =>
    cases h
    cases hu : upgradeOneLevel cfg call ch with
    | none => exact hinv
    | some ch' => exact (upgradeOneLevel_spec hinv hu).1
  | preChannelEnableHook call =>
    cases h
    cases hh : preChannelEnableHook cfg call ch with
    | none => exact hinv
    | some ch' => exact (preChannelEnableHook_spec hinv hh).1

/-- A transition leads to the values of the level exactly when the hook agrees with the formula. -/
theorem atLevel_step_iff {a : HealthStep} (hinv : Restorable p w ch) (hat : AtLevel cfg p w ch)
    (h : healthStep cfg ch a = some ch') : AtLevel cfg p w ch' ↔ HookAgrees cfg w ch a := by
  cases a with
  | demoteTo call targetLevel reason =>
    cases h
    refine ⟨fun _ => trivial, fun _ => ?_⟩
    cases hd : demoteTo cfg call ch targetLevel reason with
    | none => exact hat
    | some ch' => exact (demoteTo_spec hinv hd).2
  | upgradeOneLevel call =>
    cases h
    refine ⟨fun _ => trivial, fun _ => ?_⟩
    cases hu : upgradeOneLevel cfg call ch with
    | none => exact hat
    | some ch' => exact (upgradeOneLevel_spec hinv hu).2
  | preChannelEnableHook call =>
    cases h
    cases hh : preChannelEnableHook cfg call ch with
    | none =>
      have hnot := preChannelEnableHook_eq_none_iff.1 hh
      exact ⟨fun _ heffect => absurd heffect hnot, fun _ => hat⟩
    | some ch' =>
      have heffect : HookTakesEffect cfg call ch := by
        by_contra hnot
        rw [preChannelEnableHook_eq_none_iff.2 hnot] at hh
        cases hh
      rw [Option.getD_some, (preChannelEnableHook_spec hinv hh).2, enableHookWeight_eq_iff]
      exact ⟨fun heq _ => heq, fun heq => heq heffect⟩

end Transitions

/-! ## Runs -/

/-- For every run of transitions of a healthy channel: the snapshot is the initial priority and weight and
a healthy channel has them; a degraded one has the values of its level exactly when the hook agrees with
the formula wherever it takes effect; and a deeper level has less. -/
theorem health_reversible_iff {cfg : ChannelHealthConfig} (hmax : 1 ≤ cfg.maxDegradeLevel)
    (hmin : cfg.minWeightFactor ≤ 1) {ch : Channel}
    (hlevel : ch.level = 0) (steps : List HealthStep) :
    (∀ ch', Run.run (healthStep cfg) ch steps = some ch' →
      Restorable (ch.priority.getD 0) (ch.weight.getD 0) ch') ∧
    (Run.Along (healthStep cfg)
        (fun s a => ∀ s', healthStep cfg s a = some s' →
          AtLevel cfg (ch.priority.getD 0) (ch.weight.getD 0) s') ch steps ↔
      Run.Along (healthStep cfg) (HookAgrees cfg (ch.weight.getD 0)) ch steps) ∧
    ∀ (p : ℤ) (w : ℕ) (k k' : ℤ), k ≤ k' →
      (applyDegrade cfg p w k').1 ≤ (applyDegrade cfg p w k).1 ∧
        (applyDegrade cfg p w k').2 ≤ (applyDegrade cfg p w k).2 := by
  have hstart : Restorable (ch.priority.getD 0) (ch.weight.getD 0) ch :=
    ⟨hlevel.ge, fun hpos => absurd hpos hlevel.not_gt, fun _ => ⟨rfl, rfl⟩⟩
  have hat : AtLevel cfg (ch.priority.getD 0) (ch.weight.getD 0) ch :=
    fun hpos => absurd hpos hlevel.not_gt
  refine ⟨fun ch' h => Run.invariant (fun _ _ _ hi hs => restorable_step hi hs) hstart h, ?_,
    fun p w k k' h => applyDegrade_antitone hmax hmin p w h⟩
  exact Run.along_post_iff (fun _ _ _ hi hs => restorable_step hi hs)
    (fun _ _ _ hi hP hs => atLevel_step_iff hi hP hs)
    (fun _ a hnone => by cases a <;> cases hnone) hstart hat

def weightedChannel : Channel := { priority := some 5, weight := some 100 }

/-- Two demotions and two upgrades give the initial weight back. -/
theorem restored_of_demoted :
    ∃ ch', Run.run (healthStep {}) weightedChannel
        [.demoteTo {} 1 "503", .demoteTo {} 2 "503", .upgradeOneLevel {}, .upgradeOneLevel {}] =
          some ch' ∧
      Restorable 5 100 ch' := by
  have hmax : 1 ≤ ({} : ChannelHealthConfig).maxDegradeLevel := by decide
  have hlevel : weightedChannel.level = 0 := by decide
  exact Option.exists_some_imp (p := fun _ => True) (by decide +kernel) fun ch' h _ =>
    (health_reversible_iff hmax (by decide +kernel) hlevel _).1 ch' h

/-- The hook gives a channel the weight fifty, where the first level has ninety. -/
theorem hook_weight_not_of_level :
    ∃ ch', Run.run (healthStep {}) weightedChannel [.preChannelEnableHook {}] = some ch' ∧
      ch'.level = 1 ∧ ¬ AtLevel {} 5 100 ch' := by
  refine ⟨_, rfl, rfl, fun hat => ?_⟩
  have hweight := congrArg Prod.snd (hat (by decide))
  exact absurd hweight (by decide +kernel)

end BeeApi.Relay
