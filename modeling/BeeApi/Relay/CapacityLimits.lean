import BeeApi.Relay.Channel

/-!
# Capacity limits

A channel of the capacity mode that is at its limit is chosen only when its whole layer is full, by a soft
strategy of its own.  A group with a single channel has a branch of its own.
-/

namespace BeeApi.Relay

open List

variable {available target capChans channels : List Candidate} {cfg : ChannelRoutingConfig} {c : Candidate}
  {rnd : ℤ → ℤ} {counts : ℤ → ℚ} {cache : ChannelCache}

/-! ## Room -/

def BelowLimit (counts : ℤ → ℚ) (c : Candidate) : Prop :=
  0 < c.2.getCapacityLimit ∧ counts c.1 < c.2.getCapacityLimit

def HasRoom (cfg : ChannelRoutingConfig) (counts : ℤ → ℚ) (c : Candidate) : Prop :=
  IsProbabilistic cfg c.2 ∨ BelowLimit counts c

def strategyOf (cfg : ChannelRoutingConfig) (c : Candidate) : String :=
  resolveFullStrategy c.2 cfg.fullStrategy

def IsSoft (cfg : ChannelRoutingConfig) (c : Candidate) : Prop :=
  strategyOf cfg c = "fallback" ∨ strategyOf cfg c = "degraded"

def usageRatio (counts : ℤ → ℚ) (c : Candidate) : ℚ := counts c.1 / c.2.getCapacityLimit

def IsSoftAlone (cfg : ChannelRoutingConfig) (c : Candidate) : Prop :=
  strategyOf cfg c ≠ "reject" ∧ strategyOf cfg c ≠ "queue"

/-- The limits are respected by a result for a layer, where `alone` is the branch for a single channel. -/
def Respects (cfg : ChannelRoutingConfig) (counts : ℤ → ℚ) (alone : Prop)
    (target available : List Candidate) : Except String (Option Candidate) → Prop
  | .ok none => True
  | .ok (some c) =>
    IsProbabilistic cfg c.2 ∨ BelowLimit counts c ∨
      (c ∈ target ∧ (IsSoft cfg c ∨ alone ∧ IsSoftAlone cfg c) ∧ 0 < c.2.getCapacityLimit ∧
        (∀ d ∈ target, IsSoft cfg d → 0 < d.2.getCapacityLimit → usageRatio counts c ≤ usageRatio counts d) ∧
        ∀ d ∈ target, ¬ HasRoom cfg counts d)
  | .error err =>
    err = errCapacityNeedQueue ∨ err = errAllChannelsCapacityFull →
      (∀ d ∈ target, ¬ HasRoom cfg counts d) ∧
      (∀ d ∈ target, IsSoft cfg d → d.2.getCapacityLimit ≤ 0) ∧
      (err = errCapacityNeedQueue → (∃ d ∈ target, strategyOf cfg d = "queue") ∧
        ∀ d ∈ available, (∀ t ∈ target, d.2.getPriority < t.2.getPriority) → ¬ HasRoom cfg counts d)

theorem resolveRoutingMode_ne_capacity_iff :
    resolveRoutingMode c.2 cfg.mode ≠ routingModeCapacity ↔ IsProbabilistic cfg c.2 := by
  unfold IsProbabilistic resolveRoutingMode
  split_ifs <;> simp [routingModeCapacity, routingModeProbabilistic]

theorem isProbabilistic_of_hasAny (h : hasAnyCapacityChannel channels cfg.mode = false)
    (hc : c ∈ channels) : IsProbabilistic cfg c.2 := by
  unfold hasAnyCapacityChannel at h
  unfold IsProbabilistic resolveRoutingMode
  split_ifs at h with hmode
  all_goals
    have hmem := any_eq_false.1 h c hc
    simp_all

theorem mem_filterCapacityChannels_iff :
    c ∈ (filterCapacityChannels counts channels cfg.mode).1 ↔ c ∈ channels ∧ HasRoom cfg counts c := by
  unfold filterCapacityChannels HasRoom BelowLimit
  have hmode := @resolveRoutingMode_ne_capacity_iff cfg c
  dsimp only
  split_ifs with hnone
  · rw [filter_eq_nil_iff] at hnone
    have hprob : c ∈ channels → IsProbabilistic cfg c.2 := fun hc => hmode.1 (by simpa using hnone c hc)
    simp_all
  · by_cases hprob : IsProbabilistic cfg c.2 <;> simp_all

theorem no_room_of_survivors_eq_nil (h : (filterCapacityChannels counts channels cfg.mode).1 = []) :
    ∀ d ∈ channels, ¬ HasRoom cfg counts d := by
  intro d hd hroom
  have hmem := mem_filterCapacityChannels_iff.2 ⟨hd, hroom⟩
  rw [h] at hmem
  cases hmem

theorem capChans_eq_of_survivors_eq_nil (h : (filterCapacityChannels counts channels cfg.mode).1 = []) :
    (filterCapacityChannels counts channels cfg.mode).2 = channels := by
  have hroom := no_room_of_survivors_eq_nil h
  have hall : channels.filter (fun c => resolveRoutingMode c.2 cfg.mode = routingModeCapacity) = channels := by
    apply filter_eq_self.2
    intro d hd
    by_contra hmode
    exact hroom d hd (.inl (resolveRoutingMode_ne_capacity_iff.1 (by simpa using hmode)))
  unfold filterCapacityChannels at h ⊢
  simp only [hall] at h ⊢
  split_ifs at h ⊢ with hnil
  · simp [hnil]
  · rfl

theorem pickLeastOverloadedChannel_eq_some (h : pickLeastOverloadedChannel counts capChans = some c) :
    0 < c.2.getCapacityLimit ∧
      ∀ d ∈ capChans, 0 < d.2.getCapacityLimit → usageRatio counts c ≤ usageRatio counts d := by
  rw [pickLeastOverloadedChannel_eq_argmin] at h
  refine ⟨by simpa using (mem_filter.1 (argmin_mem h)).2, fun d hd hlimit => ?_⟩
  exact le_of_mem_argmin (mem_filter.2 ⟨hd, by simpa using hlimit⟩) h

theorem pickLeastOverloadedChannel_eq_none (h : pickLeastOverloadedChannel counts capChans = none) :
    ∀ d ∈ capChans, d.2.getCapacityLimit ≤ 0 := by
  rw [pickLeastOverloadedChannel_eq_argmin, argmin_eq_none, filter_eq_nil_iff] at h
  intro d hd
  simpa using h d hd

theorem tryLowerPriorityLayers_spec (counts : ℤ → ℚ) (rnd : ℤ → ℤ) (cfg : ChannelRoutingConfig)
    (available : List Candidate) (priorities : List ℤ) :
    (∀ c, tryLowerPriorityLayers counts rnd available cfg.mode priorities = some c → HasRoom cfg counts c) ∧
      (tryLowerPriorityLayers counts rnd available cfg.mode priorities = none →
        ∀ d ∈ available, d.2.getPriority ∈ priorities → ¬ HasRoom cfg counts d) := by
  have hdraw : ∀ (weightOf : Channel → ℤ) {l : List Candidate}, l ≠ [] →
      ∃ c ∈ l, (weightedRandomBy rnd weightOf l).toOption = some c := by
    intro weightOf l hne
    obtain ⟨c, hc, hok⟩ := weightedRandomBy_spec rnd weightOf hne
    exact ⟨c, hc, by rw [hok]; rfl⟩
  induction priorities with
  | nil => simp [tryLowerPriorityLayers]
  | cons p priorities ih =>
    have hlayer : ∀ d ∈ available, d.2.getPriority = p →
        d ∈ available.filter fun c => c.2.getPriority = p := fun d hd hp => by simp [hd, hp]
    rw [tryLowerPriorityLayers]
    generalize available.filter (fun c => c.2.getPriority = p) = layer at hlayer
    split_ifs with hnil hany hsome
    · refine ⟨ih.1, fun hnone d hd hp => ?_⟩
      rcases mem_cons.1 hp with hp | hp
      · simpa [hnil] using hlayer d hd hp
      · exact ih.2 hnone d hd hp
    · obtain ⟨c, hc, hdrawn⟩ := hdraw Channel.getWeight hnil
      rw [weightedRandomFromChannels, hdrawn]
      simpa using .inl (isProbabilistic_of_hasAny hany hc)
    · obtain ⟨c, hc, hdrawn⟩ := hdraw Channel.getCapacityLimit hsome
      rw [weightedRandomByCapacity, hdrawn]
      simpa using (mem_filterCapacityChannels_iff.1 hc).2
    · refine ⟨ih.1, fun hnone d hd hp => ?_⟩
      rcases mem_cons.1 hp with hp | hp
      · exact no_room_of_survivors_eq_nil (not_not.1 hsome) d (hlayer d hd hp)
      · exact ih.2 hnone d hd hp

/-! ## One layer -/

theorem selectFromPriorityLayer_respects {priorities : List ℤ} {retry : ℕ} (alone : Prop)
    (hdry : cfg.dryRun = false) (hne : target ≠ [])
    (hbelow : ∀ d ∈ available, (∀ t ∈ target, d.2.getPriority < t.2.getPriority) →
      d.2.getPriority ∈ priorities.drop (retry + 1)) :
    Respects cfg counts alone target available
      ((selectFromPriorityLayer cfg counts rnd target available priorities retry).map some) := by
  unfold selectFromPriorityLayer
  by_cases hany : hasAnyCapacityChannel target cfg.mode = false
  · obtain ⟨c, hc, hok⟩ := weightedRandomBy_spec rnd Channel.getWeight hne
    rw [if_pos (.inr hany), weightedRandomFromChannels, hok]
    exact .inl (isProbabilistic_of_hasAny hany hc)
  rw [if_neg (by simp [hdry, hany])]
  dsimp only
  by_cases hsome : (filterCapacityChannels counts target cfg.mode).1 = []
  · have hroom := no_room_of_survivors_eq_nil hsome
    rw [capChans_eq_of_survivors_eq_nil hsome, if_neg (not_not.2 hsome)]
    obtain ⟨hfound, hnone⟩ :=
      tryLowerPriorityLayers_spec counts rnd cfg available (priorities.drop (retry + 1))
    split
    · rename_i c hc
      split_ifs at hc
      rcases hfound c hc with hroom | hroom
      · exact .inl hroom
      · exact .inr (.inl hroom)
    · rename_i c _ hc
      obtain ⟨hmem, hsoft⟩ := mem_filter.1 (pickLeastOverloadedChannel_mem hc)
      obtain ⟨hlimit, hleast⟩ := pickLeastOverloadedChannel_eq_some hc
      refine .inr (.inr ⟨hmem, .inl (by simpa [IsSoft, strategyOf] using hsoft), hlimit, ?_, hroom⟩)
      intro d hd hdsoft
      exact hleast d (mem_filter.2 ⟨hd, by simpa [IsSoft, strategyOf] using hdsoft⟩)
    · rename_i hlower hpick
      have hsoft : ∀ d ∈ target, IsSoft cfg d → d.2.getCapacityLimit ≤ 0 := fun d hd hdsoft =>
        pickLeastOverloadedChannel_eq_none hpick d
          (mem_filter.2 ⟨hd, by simpa [IsSoft, strategyOf] using hdsoft⟩)
      split_ifs with hqueue
      · refine fun _ => ⟨hroom, hsoft, fun _ => ⟨by simpa [strategyOf] using hqueue, ?_⟩⟩
        rw [hqueue, Bool.or_true, if_pos rfl] at hlower
        exact fun d hd hlow => hnone hlower d hd (hbelow d hd hlow)
      · refine fun _ => ⟨hroom, hsoft, fun hqueue => ?_⟩
        exact absurd hqueue (by decide)
  · obtain ⟨c, hc, hok⟩ := weightedRandomBy_spec rnd Channel.getCapacityLimit hsome
    rw [if_pos hsome, weightedRandomByCapacity, hok]
    rcases (mem_filterCapacityChannels_iff.1 hc).2 with hroom | hroom
    · exact .inl hroom
    · exact .inr (.inl hroom)

theorem mem_drop_of_lt {l : List ℤ} (hl : l.Pairwise (· > ·)) {p : ℤ} (hp : p ∈ l) {retry : ℕ}
    (hlt : p < l.getD retry 0) (hretry : retry < l.length) : p ∈ l.drop (retry + 1) := by
  obtain ⟨i, hi, rfl⟩ := mem_iff_getElem.1 hp
  rw [getD_eq_getElem?_getD, getElem?_eq_getElem hretry, Option.getD_some] at hlt
  have hbehind : retry < i := by
    by_contra hle
    rcases Nat.lt_or_eq_of_le (not_lt.1 hle) with hlt' | rfl
    · exact absurd hlt (not_lt.2 (pairwise_iff_getElem.1 hl i retry hi hretry hlt').le)
    · exact lt_irrefl _ hlt
  rw [mem_drop_iff_getElem]
  exact ⟨i - (retry + 1), by omega, by congr 1; omega⟩

theorem selectAvailable_respects {group model : String} (retry : ℕ) (alone : Prop)
    (hdry : cfg.dryRun = false) :
    Respects cfg counts alone (targetChannels available retry) available
      (selectAvailable cfg counts rnd group model available retry) := by
  by_cases hne : available = []
  · simp [selectAvailable, hne, Respects]
  have htarget := targetChannels_ne_nil hne retry
  unfold selectAvailable
  rw [if_neg hne]
  show Respects _ _ _ _ _ (if targetChannels available retry = [] then _ else
    (selectFromPriorityLayer cfg counts rnd (targetChannels available retry) _ _ _).map some)
  rw [if_neg htarget]
  refine selectFromPriorityLayer_respects alone hdry htarget fun d hd hlow => ?_
  have hmem : d.2.getPriority ∈ sortedUniquePriorities available :=
    mem_sortedUniquePriorities.2 ⟨d, hd, rfl⟩
  have hlength := length_pos_of_mem hmem
  apply mem_drop_of_lt (pairwise_sortedUniquePriorities available) hmem _ (by omega)
  obtain ⟨t, ht⟩ := exists_mem_of_ne_nil _ htarget
  rw [← of_decide_eq_true (mem_filter.1 ht).2]
  exact hlow t ht

/-! ## The choice -/

theorem targetChannels_singleton (c : Candidate) (retry : ℕ) : targetChannels [c] retry = [c] := by
  simp [targetChannels, sortedUniquePriorities]

theorem selectSingle_respects (counts : ℤ → ℚ) (cacheDomainFilter : String) {channel : Channel} {id : ℤ}
    {excludedIDs : List ℤ} {alone : Prop} (halone : alone) (hdry : cfg.dryRun = false)
    (hchannel : cache.channelsIDM.get? id = some channel) (hid : id ∉ excludedIDs) :
    Respects cfg counts alone [(id, channel)] [(id, channel)]
      (selectSingle cache cfg counts id excludedIDs cacheDomainFilter) := by
  simp only [selectSingle, hchannel, if_neg hid]
  split_ifs with hdomain hfull hreject hqueue
  · trivial
  · have hroom := no_room_of_survivors_eq_nil hfull.2.2
    refine fun _ => ⟨hroom, ?_, fun hqueue => absurd hqueue (by decide)⟩
    simp [IsSoft, strategyOf, hreject]
  · have hroom := no_room_of_survivors_eq_nil hfull.2.2
    refine fun _ => ⟨hroom, ?_, fun _ => ⟨⟨_, mem_singleton_self _, hqueue⟩, ?_⟩⟩
    · simp [IsSoft, strategyOf, hqueue]
    · simp
  · have hroom := no_room_of_survivors_eq_nil hfull.2.2
    rw [capChans_eq_of_survivors_eq_nil hfull.2.2]
    split
    · rename_i c hc
      have hmem := pickLeastOverloadedChannel_mem hc
      obtain ⟨hlimit, hleast⟩ := pickLeastOverloadedChannel_eq_some hc
      have hsoft : IsSoftAlone cfg c := by
        rw [mem_singleton.1 hmem]
        exact ⟨hreject, hqueue⟩
      exact .inr (.inr ⟨hmem, .inr ⟨halone, hsoft⟩, hlimit, fun d hd _ => hleast d hd, hroom⟩)
    · rename_i hnone
      refine fun _ => ⟨hroom, fun d hd _ => pickLeastOverloadedChannel_eq_none hnone d hd, ?_⟩
      exact fun hqueue => absurd hqueue (by decide)
  · by_cases hprob : IsProbabilistic cfg channel
    · exact .inl hprob
    have hmode : resolveRoutingMode channel cfg.mode = routingModeCapacity :=
      not_not.1 fun hne => hprob ((@resolveRoutingMode_ne_capacity_iff cfg (id, channel)).1 hne)
    obtain ⟨c, hc⟩ := exists_mem_of_ne_nil _ fun hnil => hfull ⟨hdry, hmode, hnil⟩
    obtain ⟨hmem, hroom⟩ := mem_filterCapacityChannels_iff.1 hc
    rw [mem_singleton.1 hmem] at hroom
    rcases hroom with hroom | hroom
    · exact .inl hroom
    · exact .inr (.inl hroom)

theorem availableChannels_singleton {channel : Channel} {id : ℤ} {excludedIDs : List ℤ}
    {cacheDomainFilter : String} (hchannel : cache.channelsIDM.get? id = some channel)
    (hid : id ∉ excludedIDs) :
    availableChannels cache [id] excludedIDs cacheDomainFilter =
      .ok ([(id, channel)].filter fun c =>
        cacheDomainFilter = "" || c.2.getCacheDomain c.1 = cacheDomainFilter) := by
  have hlookup : lookupChannels cache ([id].filter fun id => id ∉ excludedIDs) = .ok [(id, channel)] := by
    simp [hid, lookupChannels, hchannel, bind, Except.bind, pure, Except.pure]
  simp only [availableChannels, hlookup, bind, Except.bind]
  rw [if_neg]
  rintro ⟨hnil, -, hdomain⟩
  simp [hdomain] at hnil

/-- Outside of the retry of an only channel that has failed, the choice respects the limits of the layer
that the retry counter points at, among the channels that are left. -/
theorem capacity_routing_respects_limits (cache : ChannelCache) (cfg : ChannelRoutingConfig)
    (counts : ℤ → ℚ) (rnd : ℤ → ℤ) (group model : String) (retry : ℕ) (excludedIDs : List ℤ)
    (cacheDomainFilter requestPath : String) (hdry : cfg.dryRun = false)
    (hsingle : ∀ id, groupChannels cache group model requestPath = [id] → id ∉ excludedIDs) :
    match availableChannels cache (groupChannels cache group model requestPath) excludedIDs
        cacheDomainFilter with
    | .ok available =>
      Respects cfg counts ((groupChannels cache group model requestPath).length = 1)
        (targetChannels available retry) available
        (getRandomSatisfiedChannelForRequest cache cfg counts rnd group model retry excludedIDs
          cacheDomainFilter requestPath)
    | .error err =>
      getRandomSatisfiedChannelForRequest cache cfg counts rnd group model retry excludedIDs
        cacheDomainFilter requestPath = .error err := by
  unfold getRandomSatisfiedChannelForRequest
  generalize groupChannels cache group model requestPath = channels at hsingle
  match channels, hsingle with
  | [], _ => simp [availableChannels, lookupChannels, bind, Except.bind, pure, Except.pure, Respects]
  | [id], hsingle =>
    have hid := hsingle id rfl
    cases hchannel : cache.channelsIDM.get? id with
    | none => simp [availableChannels, lookupChannels, selectSingle, hid, hchannel, bind, Except.bind]
    | some channel =>
      have hselected := selectSingle_respects counts cacheDomainFilter (rfl : [id].length = 1) hdry
        hchannel hid
      rw [availableChannels_singleton hchannel hid]
      by_cases hdomain : cacheDomainFilter = "" ∨ channel.getCacheDomain id = cacheDomainFilter
      · simpa [hdomain, targetChannels_singleton] using hselected
      · rw [not_or] at hdomain
        simp [hdomain.1, hdomain.2, selectSingle, hchannel, Respects]
  | id :: id' :: ids, _ =>
    cases hlookup : availableChannels cache (id :: id' :: ids) excludedIDs cacheDomainFilter with
    | error err => simp [hlookup, bind, Except.bind]
    | ok available =>
      simp only [hlookup, bind, Except.bind]
      exact selectAvailable_respects retry _ hdry

/-- A channel of the capacity mode with room for one request. -/
def smallChannel : Channel where
  routingMode := some 2
  capacityLimit := some 1

def smallCache : ChannelCache where
  group2model2channels := Table.put ∅ ("default", "gpt-4o") [1]
  channelsIDM := Table.put ∅ 1 smallChannel

/-- The same channel behind one of a higher priority. -/
def layeredCache : ChannelCache where
  group2model2channels := Table.put ∅ ("default", "gpt-4o") [2, 1]
  channelsIDM := (Table.put ∅ 1 smallChannel).put 2 { smallChannel with priority := some 5 }

/-- An only channel, and the second of two layers of priorities. -/
theorem capacity_routing_respects_limits_of_small :
    Respects {} (fun _ => 2) True [(1, smallChannel)] [(1, smallChannel)]
        (getRandomSatisfiedChannelForRequest smallCache {} (fun _ => 2) (fun _ => 0) "default" "gpt-4o" 0
          [] "" "") ∧
      Respects {} (fun _ => 0) False [(1, smallChannel)]
        [(2, { smallChannel with priority := some 5 }), (1, smallChannel)]
        (getRandomSatisfiedChannelForRequest layeredCache {} (fun _ => 0) (fun _ => 0) "default" "gpt-4o" 1
          [] "" "") := by
  have hgroup : groupChannels smallCache "default" "gpt-4o" "" = [1] := by decide +kernel
  have hchannel : smallCache.channelsIDM.get? 1 = some smallChannel := by decide +kernel
  have h := capacity_routing_respects_limits smallCache {} (fun _ => 2) (fun _ => 0)
    "default" "gpt-4o" 0 [] "" "" rfl (by simp)
  rw [hgroup, availableChannels_singleton hchannel (by simp)] at h
  have hlayers : groupChannels layeredCache "default" "gpt-4o" "" = [2, 1] := by decide +kernel
  have hlayered := capacity_routing_respects_limits layeredCache {} (fun _ => 0) (fun _ => 0)
    "default" "gpt-4o" 1 [] "" "" rfl (by simp [hlayers])
  have havailable : availableChannels layeredCache [2, 1] [] "" =
      .ok [(2, { smallChannel with priority := some 5 }), (1, smallChannel)] := by decide +kernel
  have htarget : targetChannels [(2, { smallChannel with priority := some 5 }), (1, smallChannel)] 1 =
      [(1, smallChannel)] := by decide +kernel
  rw [hlayers, havailable] at hlayered
  dsimp only at hlayered
  rw [htarget] at hlayered
  exact ⟨by simpa [targetChannels_singleton] using h, by simpa using hlayered⟩

/-- With a global strategy that is none of the four, an only channel that is full is chosen, as if it had a
soft strategy. -/
theorem unknown_strategy_alone :
    ¬ ∀ (cfg : ChannelRoutingConfig), cfg.dryRun = false →
      Respects cfg (fun _ => 2) False [(1, smallChannel)] [(1, smallChannel)]
        (getRandomSatisfiedChannelForRequest smallCache cfg (fun _ => 2) (fun _ => 0) "default" "gpt-4o" 0
          [] "" "") := by
  intro h
  have hrespects := h { fullStrategy := "spill" } rfl
  have hchosen : getRandomSatisfiedChannelForRequest smallCache { fullStrategy := "spill" } (fun _ => 2)
      (fun _ => 0) "default" "gpt-4o" 0 [] "" "" = .ok (some (1, smallChannel)) := by decide +kernel
  rw [hchosen] at hrespects
  rcases hrespects with hprob | hbelow | ⟨-, hsoft | hsoft, -⟩
  · revert hprob
    decide
  · have hfull : ¬ ((2 : ℚ) < (smallChannel.getCapacityLimit : ℚ)) := by decide +kernel
    exact hfull hbelow.2
  · have hstrategy : strategyOf { fullStrategy := "spill" } (1, smallChannel) = "spill" := by decide +kernel
    simp [IsSoft, hstrategy] at hsoft
  · exact hsoft.1

end BeeApi.Relay
