import BeeApi.Lib.Draw
import BeeApi.Relay.Uncached

/-!
# The draw by weight

`weightedRandomBy` subtracts the scaled weights from a random number until it is negative, and so draws
every channel as often as its scaled weight says.  The loop of `GetChannelForRequest` stops at zero
already: its first row is drawn once too often, its last row once too seldom.
-/

namespace BeeApi.Relay

open List Draw

variable {weightOf : Channel → ℤ} {candidates : List Candidate} {rows : List AbilityRow}

/-! ## The channels of the cache -/

def sumWeight (weightOf : Channel → ℤ) (candidates : List Candidate) : ℤ :=
  (candidates.map fun c => max (weightOf c.2) 0).sum

def smoothingFactor (weightOf : Channel → ℤ) (candidates : List Candidate) : ℤ :=
  if sumWeight weightOf candidates ≠ 0 ∧ sumWeight weightOf candidates / candidates.length < 10
  then 100 else 1

def smoothingAdjustment (weightOf : Channel → ℤ) (candidates : List Candidate) : ℤ :=
  if sumWeight weightOf candidates = 0 then 100 else 0

/-- The bound that `rnd` is called with. -/
def totalWeight (weightOf : Channel → ℤ) (candidates : List Candidate) : ℤ :=
  (if sumWeight weightOf candidates = 0 then (candidates.length : ℤ) * 100
    else sumWeight weightOf candidates) * smoothingFactor weightOf candidates

/-- The loop of `weightedRandomBy` on a random number. -/
def pickOf (weightOf : Channel → ℤ) (candidates : List Candidate) (randomWeight : ℤ) :
    Option Candidate :=
  pickWeighted weightOf (smoothingFactor weightOf candidates)
    (smoothingAdjustment weightOf candidates) candidates randomWeight

structure DrawsByWeight (weightOf : Channel → ℤ) (candidates : List Candidate) : Prop where
  bound_pos : 0 < totalWeight weightOf candidates
  asked : ∀ rnd, weightedRandomBy rnd weightOf candidates =
    weightedRandomBy (fun _ => rnd (totalWeight weightOf candidates)) weightOf candidates
  no_fallback : ∀ r, 0 ≤ r → r < totalWeight weightOf candidates →
    (pickOf weightOf candidates r).isSome
  exact_share : ∀ c, ((totalWeight weightOf candidates).toNat.count fun r : ℕ =>
      weightedRandomBy (fun _ => r) weightOf candidates = .ok c : ℤ) =
    candidates.count c *
      (weightOf c.2 * smoothingFactor weightOf candidates + smoothingAdjustment weightOf candidates)
  proportional : (∃ c ∈ candidates, weightOf c.2 ≠ 0) → smoothingAdjustment weightOf candidates = 0
  uniform : (∀ c ∈ candidates, weightOf c.2 = 0) →
    smoothingFactor weightOf candidates = 1 ∧ smoothingAdjustment weightOf candidates = 100

theorem weightedRandomBy_eq (rnd : ℤ → ℤ) (hne : candidates ≠ []) :
    weightedRandomBy rnd weightOf candidates =
      .ok ((pickOf weightOf candidates (rnd (totalWeight weightOf candidates))).getD
        (candidates.getLast hne)) := by
  unfold weightedRandomBy
  rw [getLast?_eq_some_getLast hne]
  rfl

theorem smoothingFactor_pos : 0 < smoothingFactor weightOf candidates := by
  unfold smoothingFactor
  split <;> decide

theorem smoothingAdjustment_nonneg : 0 ≤ smoothingAdjustment weightOf candidates := by
  unfold smoothingAdjustment
  split <;> decide

theorem sumWeight_nonneg : 0 ≤ sumWeight weightOf candidates := by
  refine sum_nonneg fun x hx => ?_
  obtain ⟨c, -, rfl⟩ := mem_map.1 hx
  exact le_max_right _ _

/-- What the loop takes off for a channel. -/
def scaledWeight (weightOf : Channel → ℤ) (factor adjustment : ℤ) (c : Candidate) : ℕ :=
  (max (weightOf c.2) 0 * factor + adjustment).toNat

section
variable {factor adjustment : ℤ} (hf : 0 ≤ factor) (ha : 0 ≤ adjustment)
include hf ha

theorem cast_scaledWeight (c : Candidate) :
    (scaledWeight weightOf factor adjustment c : ℤ) = max (weightOf c.2) 0 * factor + adjustment :=
  Int.toNat_of_nonneg (add_nonneg (mul_nonneg (le_max_right _ _) hf) ha)

theorem pickWeighted_eq_draw (candidates : List Candidate) (r : ℕ) :
    pickWeighted weightOf factor adjustment candidates r =
      draw (scaledWeight weightOf factor adjustment) candidates r := by
  induction candidates generalizing r with
  | nil => rfl
  | cons c candidates ih =>
    rw [pickWeighted, draw, ← cast_scaledWeight hf ha c]
    by_cases h : r < scaledWeight weightOf factor adjustment c
    · rw [if_pos (by omega), if_pos h]
    · rw [if_neg (by omega), if_neg h, ← ih, Nat.cast_sub (Nat.not_lt.1 h)]

theorem sum_scaledWeight (candidates : List Candidate) :
    ((candidates.map (scaledWeight weightOf factor adjustment)).sum : ℤ) =
      sumWeight weightOf candidates * factor + candidates.length * adjustment := by
  induction candidates with
  | nil => simp [sumWeight]
  | cons c candidates ih =>
    unfold sumWeight at ih ⊢
    simp only [map_cons, sum_cons, length_cons, Nat.cast_add, ih, cast_scaledWeight hf ha]
    push_cast
    ring

end

def shareOf (weightOf : Channel → ℤ) (candidates : List Candidate) : Candidate → ℕ :=
  scaledWeight weightOf (smoothingFactor weightOf candidates) (smoothingAdjustment weightOf candidates)

theorem pickOf_eq_draw (r : ℕ) :
    pickOf weightOf candidates r = draw (shareOf weightOf candidates) candidates r :=
  pickWeighted_eq_draw smoothingFactor_pos.le smoothingAdjustment_nonneg candidates r

theorem sum_shareOf (weightOf : Channel → ℤ) (candidates : List Candidate) :
    ((candidates.map (shareOf weightOf candidates)).sum : ℤ) = totalWeight weightOf candidates := by
  refine (sum_scaledWeight smoothingFactor_pos.le smoothingAdjustment_nonneg candidates).trans ?_
  unfold totalWeight smoothingAdjustment
  split
  · next h => simp [h, smoothingFactor]
  · simp

theorem sumWeight_eq_zero_iff (hw : ∀ c ∈ candidates, 0 ≤ weightOf c.2) :
    sumWeight weightOf candidates = 0 ↔ ∀ c ∈ candidates, weightOf c.2 = 0 := by
  induction candidates with
  | nil => simp [sumWeight]
  | cons c l ih =>
    obtain ⟨hc, hl⟩ := forall_mem_cons.1 hw
    have hsum : 0 ≤ sumWeight weightOf l := sumWeight_nonneg
    rw [forall_mem_cons, ← ih hl, sumWeight, map_cons, sum_cons, ← sumWeight, max_eq_left hc]
    omega

theorem drawsByWeight (hne : candidates ≠ []) (hw : ∀ c ∈ candidates, 0 ≤ weightOf c.2) :
    DrawsByWeight weightOf candidates := by
  have hsum := sum_shareOf weightOf candidates
  have hpick : ∀ r : ℕ, (r : ℤ) < totalWeight weightOf candidates →
      ∃ c ∈ candidates, draw (shareOf weightOf candidates) candidates r = some c :=
    fun r hr => exists_draw (by omega)
  refine ⟨?_, fun rnd => ?_, fun r hr hlt => ?_, fun c => ?_, fun ⟨c, hc, hc0⟩ => ?_, fun h0 => ?_⟩
  · refine mul_pos ?_ smoothingFactor_pos
    split
    · have := length_pos_of_ne_nil hne
      omega
    · next h => exact lt_of_le_of_ne sumWeight_nonneg (Ne.symm h)
  · rw [weightedRandomBy_eq rnd hne, weightedRandomBy_eq _ hne]
  · lift r to ℕ using hr
    obtain ⟨c, -, h⟩ := hpick r hlt
    rw [pickOf_eq_draw, h]
    rfl
  · have hcount : (totalWeight weightOf candidates).toNat.count (fun r : ℕ =>
        weightedRandomBy (fun _ => r) weightOf candidates = .ok c) =
          candidates.count c * shareOf weightOf candidates c := by
      rw [← count_draw, ← hsum, Int.toNat_natCast]
      refine count_congr fun r hr => ?_
      obtain ⟨d, -, h⟩ := hpick r (by omega)
      rw [weightedRandomBy_eq _ hne, pickOf_eq_draw, h]
      simp
    rw [hcount, Nat.cast_mul, shareOf,
      cast_scaledWeight smoothingFactor_pos.le smoothingAdjustment_nonneg]
    by_cases hc : c ∈ candidates
    · rw [max_eq_left (hw c hc)]
    · rw [count_eq_zero_of_not_mem hc, Nat.cast_zero, zero_mul, zero_mul]
  · exact if_neg fun h => hc0 ((sumWeight_eq_zero_iff hw).1 h c hc)
  · have h := (sumWeight_eq_zero_iff hw).2 h0
    exact ⟨if_neg fun h' => h'.1 h, if_pos h⟩

/-! ## The rows of the database -/

/-- What `GetChannelForRequest` takes off for a row. -/
def rowShare (row : AbilityRow) : ℕ := row.2.weight + 10

/-- The bound that `GetRandomInt` is called with. -/
def weightSum (rows : List AbilityRow) : ℕ := (rows.map rowShare).sum

/-- Every row is drawn as often as its share says. -/
def DrawsRows (rows : List AbilityRow) : Prop :=
  ∀ row ∈ rows, (weightSum rows).count (fun r : ℕ => pickAbility rows r = row.1) = rowShare row

theorem pickAbility_succ (rows : List AbilityRow) (r : ℕ) :
    pickAbility rows (r + 1 : ℕ) = (draw rowShare rows r).elim 0 Prod.fst := by
  induction rows generalizing r with
  | nil => rfl
  | cons row rows ih =>
    rw [pickAbility, draw]
    by_cases h : r < rowShare row
    · rw [if_pos h, if_pos (by unfold rowShare at h; omega)]
      rfl
    · rw [if_neg h, if_neg (by unfold rowShare at h; omega), ← ih]
      congr 1
      unfold rowShare at h ⊢
      omega

theorem pickAbility_zero (row : AbilityRow) (rows : List AbilityRow) :
    pickAbility (row :: rows) 0 = row.1 := by
  rw [pickAbility, if_pos (by omega)]

/-- The draws of a row, its share and what the two ends of the line add and take away. -/
theorem count_pickAbility (hkeys : (rows.map Prod.fst).Nodup) (hne : rows ≠ []) {row : AbilityRow}
    (hrow : row ∈ rows) :
    (weightSum rows).count (fun r : ℕ => pickAbility rows r = row.1) +
        (if rows.getLast hne = row then 1 else 0) =
      rowShare row + if rows.head hne = row then 1 else 0 := by
  have hinj := inj_on_of_nodup_map hkeys
  obtain ⟨n, hn⟩ : ∃ n, weightSum rows = n + 1 := by
    obtain ⟨row, rest, rfl⟩ := exists_cons_of_ne_nil hne
    exact ⟨weightSum rest + row.2.weight + 9, by simp [weightSum, rowShare]; omega⟩
  have hlast : draw rowShare rows n = some (rows.getLast hne) := by
    have h := draw_last rowShare rows.dropLast (rows.getLast hne) (Nat.succ_pos _)
    rwa [dropLast_append_getLast, ← weightSum, hn] at h
  have hshare : (weightSum rows).count (fun r => draw rowShare rows r = some row) = rowShare row := by
    rw [weightSum, count_draw, count_eq_one_of_mem (hkeys.of_map _) hrow, one_mul]
  have hzero : pickAbility rows (0 : ℕ) = row.1 ↔ rows.head hne = row := by
    obtain ⟨first, rest, rfl⟩ := exists_cons_of_ne_nil hne
    exact ⟨fun h => hinj mem_cons_self hrow ((pickAbility_zero first rest).symm.trans h), fun h => by
      rw [← h]
      exact pickAbility_zero first rest⟩
  rw [hn, Nat.count_succ, if_congr (by rw [hlast, Option.some_inj]) rfl rfl] at hshare
  rw [hn, Nat.count_succ', if_congr hzero rfl rfl, ← hshare, Nat.add_right_comm]
  congr 2
  refine count_congr fun r hr => ?_
  obtain ⟨d, hd, h⟩ : ∃ d ∈ rows, draw rowShare rows r = some d :=
    exists_draw (by rw [← weightSum, hn]; omega)
  rw [pickAbility_succ, h, Option.some_inj]
  exact ⟨fun he => hinj hd hrow he, fun he => congrArg Prod.fst he⟩

theorem drawsRows_iff (hkeys : (rows.map Prod.fst).Nodup) (hne : rows ≠ []) :
    DrawsRows rows ↔ rows.length = 1 := by
  constructor
  · intro h
    have hcount := count_pickAbility hkeys hne (head_mem hne)
    rw [h _ (head_mem hne), if_pos rfl] at hcount
    have hends : rows.getLast hne = rows.head hne := by
      by_contra hends
      rw [if_neg hends] at hcount
      omega
    obtain ⟨row, rest, rfl⟩ := exists_cons_of_ne_nil hne
    cases rest with
    | nil => rfl
    | cons next rest =>
      rw [getLast_cons (cons_ne_nil next rest), head_cons] at hends
      exact absurd (hends ▸ getLast_mem _) (nodup_cons.1 (hkeys.of_map _)).1
  · intro h row hrow
    obtain ⟨only, rfl⟩ := length_eq_one_iff.1 h
    obtain rfl := mem_singleton.1 hrow
    exact Nat.add_right_cancel (count_pickAbility hkeys hne hrow)

theorem nodup_enabledAbilities (abilities : Table (String × String × ℤ) Ability)
    (group model : String) : ((enabledAbilities abilities group model).map Prod.fst).Nodup := by
  refine ((perm_insertionSort _ _).map _).nodup_iff.2 ?_
  rw [map_map]
  refine Nodup.map_on (fun x hx y hy h => ?_) ((abilities.nodup.of_map _).filter _)
  simp only [mem_filter, Bool.and_eq_true, decide_eq_true_eq] at hx hy
  refine inj_on_of_nodup_map abilities.nodup hx.1 hy.1 (Prod.ext ?_ (Prod.ext ?_ h))
  · rw [hx.2.1.1, hy.2.1.1]
  · rw [hx.2.1.2, hy.2.1.2]

theorem sublist_candidateAbilities {env : ChannelEnv} {channels : Table ℤ Channel}
    {abilities : Table (String × String × ℤ) Ability} {group model : String} {retry : ℕ}
    {excludedIDs : List ℤ} {cacheDomainFilter requestPath : String}
    (h : candidateAbilities env channels abilities group model retry excludedIDs cacheDomainFilter
      requestPath = .ok rows) : rows <+ enabledAbilities abilities group model := by
  obtain ⟨read, hread, hrows⟩ := Except.bind_eq_ok_iff.1 h
  have hsub : read <+ enabledAbilities abilities group model := by
    split at hread
    · unfold getChannelQuery at hread
      split at hread
      · cases hp : getPriority (enabledAbilities abilities group model) retry with
        | error e => rw [hp] at hread; cases hread
        | ok priority =>
          rw [hp] at hread
          cases hread
          exact filter_sublist
      · split at hread <;> cases hread
        · exact nil_sublist _
        · exact filter_sublist
    · cases hread
      exact Sublist.refl _
  refine Sublist.trans ?_ hsub
  cases hrows
  unfold excludeAbilities filterAbilitiesByCacheDomain filterAbilitiesByRequestPathAndModel
    filterAbilitiesByRetryPriority
  dsimp only
  split_ifs <;>
    repeat first
      | exact Sublist.refl _
      | exact nil_sublist _
      | refine filter_sublist.trans ?_

/-- Both draws are exact if and only if the database has one row to draw from. -/
theorem drawsByWeight_and_drawsRows_iff {env : ChannelEnv} {channels : Table ℤ Channel}
    {abilities : Table (String × String × ℤ) Ability} {group model : String} {retry : ℕ}
    {excludedIDs : List ℤ} {cacheDomainFilter requestPath : String} (hne : candidates ≠ [])
    (hw : ∀ c ∈ candidates, 0 ≤ weightOf c.2)
    (h : candidateAbilities env channels abilities group model retry excludedIDs cacheDomainFilter
      requestPath = .ok rows) (hrows : rows ≠ []) :
    DrawsByWeight weightOf candidates ∧ DrawsRows rows ↔ rows.length = 1 :=
  (and_iff_right (drawsByWeight hne hw)).trans (drawsRows_iff
    ((nodup_enabledAbilities abilities group model).sublist ((sublist_candidateAbilities h).map _))
    hrows)

def twoAbilities : Table (String × String × ℤ) Ability :=
  (Table.empty.put ("default", "gpt-4o", 1) ⟨true, none, 0, none⟩).put ("default", "gpt-4o", 2)
    ⟨true, none, 0, none⟩

theorem drawsByWeight_and_drawsRows_two :
    DrawsByWeight Channel.getWeight [((1 : ℤ), ({} : Channel))] ∧
      DrawsRows [((1 : ℤ), ⟨true, none, 0, none⟩), ((2 : ℤ), ⟨true, none, 0, none⟩)] ↔ (2 : ℕ) = 1 :=
  drawsByWeight_and_drawsRows_iff (by decide) (by decide)
    (show candidateAbilities {} ∅ twoAbilities "default" "gpt-4o" 0 [] "" "" = _ by decide +kernel)
    (by decide)

/-- Of the 20 numbers, 11 draw the first of two equal rows and 9 the second. -/
theorem drawsRows_two_skewed :
    candidateAbilities {} ∅ twoAbilities "default" "gpt-4o" 0 [] "" "" =
        .ok [(1, ⟨true, none, 0, none⟩), (2, ⟨true, none, 0, none⟩)] ∧
      ¬ DrawsRows [((1 : ℤ), ⟨true, none, 0, none⟩), ((2 : ℤ), ⟨true, none, 0, none⟩)] := by
  refine ⟨by decide +kernel, fun h => ?_⟩
  exact absurd (h _ mem_cons_self) (by decide +kernel)

end BeeApi.Relay
