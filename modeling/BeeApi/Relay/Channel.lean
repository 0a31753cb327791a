import BeeApi.Lib.Levels
import BeeApi.Lib.Run
import BeeApi.Model.Channel
import Mathlib.Data.List.MinMax

/-!
# The choice of a channel

`GetRandomSatisfiedChannelForRequest` of `model/channel_cache.go` with the memory cache, and what it
calls in `model/channel_routing.go`.  `rand.Intn` and the usage counters of the capacity mode are
parameters, the counters as exact numbers; the advanced config of a channel is what it says about a
path and a model.
-/

namespace BeeApi.Relay

open List Option Finset Levels

/-! ## Configuration and cache -/

def routingModeProbabilistic : ℤ := 1

def routingModeCapacity : ℤ := 2

def globalRoutingCapacity : String := "capacity"

/-- The parts of `ChannelRoutingConfig` that the choice reads. -/
structure ChannelRoutingConfig where
  mode : String := "probabilistic"
  fullStrategy : String := "fallback"
  dryRun : Bool := false

/-- The variables of the memory cache; `group2model2channels` is keyed by group and model. -/
structure ChannelCache where
  group2model2channels : Table (String × String) (List ℤ) := ∅
  channelsIDM : Table ℤ Channel := ∅
  channel2advancedCustomConfig : ℤ → Option (String → String → Bool) := fun _ => none

/-- `GetPriority` of a channel that is looked up. -/
def ChannelCache.priorityOf (cache : ChannelCache) (id : ℤ) : ℤ :=
  (cache.channelsIDM.get? id).elim 0 Channel.getPriority

def errAllChannelsCapacityFull : String := "all channels at capacity (reject strategy)"

def errCapacityNeedQueue : String :=
  "all channels at capacity (queue strategy, caller should wait and retry)"

def resolveRoutingMode (channel : Channel) (globalMode : String) : ℤ :=
  if channel.getRoutingMode = routingModeProbabilistic then routingModeProbabilistic
  else if channel.getRoutingMode = routingModeCapacity then routingModeCapacity
  else if globalMode = globalRoutingCapacity then routingModeCapacity
  else routingModeProbabilistic

def resolveFullStrategy (channel : Channel) (globalStrategy : String) : String :=
  if channel.getCapacityFullStrategy ∈ ["fallback", "reject", "degraded", "queue"] then
    channel.getCapacityFullStrategy
  else globalStrategy

def hasAnyCapacityChannel (channels : List Candidate) (globalMode : String) : Bool :=
  if globalMode = globalRoutingCapacity then
    channels.any fun c => c.2.getRoutingMode ≠ routingModeProbabilistic
  else channels.any fun c => c.2.getRoutingMode = routingModeCapacity

def filterCapacityChannels (counts : ℤ → ℚ) (channels : List Candidate) (globalMode : String) :
    List Candidate × List Candidate :=
  let capChans := channels.filter fun c => resolveRoutingMode c.2 globalMode = routingModeCapacity
  let probChans := channels.filter fun c => resolveRoutingMode c.2 globalMode ≠ routingModeCapacity
  if capChans = [] then (channels, [])
  else
    (probChans ++ capChans.filter fun c =>
      0 < c.2.getCapacityLimit && counts c.1 < c.2.getCapacityLimit, capChans)

/-- `pickLeastOverloadedChannel`: the first one of the least ratio. -/
def pickLeastOverloadedChannel (counts : ℤ → ℚ) (capChans : List Candidate) : Option Candidate :=
  (capChans.filter fun c => 0 < c.2.getCapacityLimit).foldl (fun best c =>
    match best with
    | none => some c
    | some b =>
      if counts c.1 / c.2.getCapacityLimit < counts b.1 / b.2.getCapacityLimit then some c
      else some b) none

/-- The loop of `weightedRandomBy`. -/
def pickWeighted (weightOf : Channel → ℤ) (smoothingFactor smoothingAdjustment : ℤ) :
    List Candidate → ℤ → Option Candidate
  | [], _ => none
  | c :: channels, randomWeight =>
    let rest := randomWeight - (max (weightOf c.2) 0 * smoothingFactor + smoothingAdjustment)
    if rest < 0 then some c
    else pickWeighted weightOf smoothingFactor smoothingAdjustment channels rest

def weightedRandomBy (rnd : ℤ → ℤ) (weightOf : Channel → ℤ) (channels : List Candidate) :
    Except String Candidate :=
  match channels.getLast? with
  | none => .error "no channel candidates"
  | some last =>
    let sumWeight := (channels.map fun c => max (weightOf c.2) 0).sum
    let smoothingAdjustment := if sumWeight = 0 then 100 else 0
    let smoothingFactor := if sumWeight ≠ 0 ∧ sumWeight / channels.length < 10 then 100 else 1
    let sumWeight := if sumWeight = 0 then (channels.length : ℤ) * 100 else sumWeight
    let randomWeight := rnd (sumWeight * smoothingFactor)
    .ok ((pickWeighted weightOf smoothingFactor smoothingAdjustment channels randomWeight).getD last)

def weightedRandomFromChannels (rnd : ℤ → ℤ) (channels : List Candidate) :
    Except String Candidate :=
  weightedRandomBy rnd Channel.getWeight channels

def weightedRandomByCapacity (rnd : ℤ → ℤ) (channels : List Candidate) : Except String Candidate :=
  weightedRandomBy rnd Channel.getCapacityLimit channels

def tryLowerPriorityLayers (counts : ℤ → ℚ) (rnd : ℤ → ℤ) (availableChannels : List Candidate)
    (globalMode : String) : List ℤ → Option Candidate
  | [] => none
  | nextPriority :: priorities =>
    let nextChannels := availableChannels.filter fun c => c.2.getPriority = nextPriority
    let nextSurvivors := (filterCapacityChannels counts nextChannels globalMode).1
    if nextChannels = [] then
      tryLowerPriorityLayers counts rnd availableChannels globalMode priorities
    else if hasAnyCapacityChannel nextChannels globalMode = false then
      (weightedRandomFromChannels rnd nextChannels).toOption
    else if nextSurvivors ≠ [] then (weightedRandomByCapacity rnd nextSurvivors).toOption
    else tryLowerPriorityLayers counts rnd availableChannels globalMode priorities

def selectFromPriorityLayer (cfg : ChannelRoutingConfig) (counts : ℤ → ℚ) (rnd : ℤ → ℤ)
    (targetChannels availableChannels : List Candidate) (sortedUniquePriorities : List ℤ)
    (currentRetryIdx : ℕ) : Except String Candidate :=
  if cfg.dryRun ∨ hasAnyCapacityChannel targetChannels cfg.mode = false then
    weightedRandomFromChannels rnd targetChannels
  else
    let (survivors, capChans) := filterCapacityChannels counts targetChannels cfg.mode
    if survivors ≠ [] then weightedRandomByCapacity rnd survivors
    else
      let strategyOf := fun c : Candidate => resolveFullStrategy c.2 cfg.fullStrategy
      let softChans := capChans.filter fun c =>
        strategyOf c = "fallback" || strategyOf c = "degraded"
      let hasFallback := capChans.any fun c => strategyOf c = "fallback"
      let hasQueue := capChans.any fun c => strategyOf c = "queue"
      let lower :=
        if hasFallback || hasQueue then
          tryLowerPriorityLayers counts rnd availableChannels cfg.mode
            (sortedUniquePriorities.drop (currentRetryIdx + 1))
        else none
      match lower, pickLeastOverloadedChannel counts softChans with
      | some c, _ => .ok c
      | none, some c => .ok c
      | none, none =>
        if hasQueue then .error errCapacityNeedQueue else .error errAllChannelsCapacityFull

/-! ## The choice -/

def handleThinkingBudgetModel (name pre wildcard : String) : String :=
  if Strings.hasPrefix name pre && Strings.contains name "-thinking-" then wildcard else name

def formatMatchingModelName (name : String) : String :=
  let name :=
    if Strings.hasPrefix name "gemini-2.5-flash-lite" then
      handleThinkingBudgetModel name "gemini-2.5-flash-lite" "gemini-2.5-flash-lite-thinking-*"
    else if Strings.hasPrefix name "gemini-2.5-flash" then
      handleThinkingBudgetModel name "gemini-2.5-flash" "gemini-2.5-flash-thinking-*"
    else if Strings.hasPrefix name "gemini-2.5-pro" then
      handleThinkingBudgetModel name "gemini-2.5-pro" "gemini-2.5-pro-thinking-*"
    else name
  let name := if Strings.hasPrefix name "gpt-4-gizmo" then "gpt-4-gizmo-*" else name
  if Strings.hasPrefix name "gpt-4o-gizmo" then "gpt-4o-gizmo-*" else name

/-- `filterChannelsByRequestPathAndModel`: only advanced custom channels are filtered. -/
def filterChannelsByRequestPathAndModel (cache : ChannelCache) (channels : List ℤ)
    (requestPath model : String) : List ℤ :=
  if requestPath = "" then channels
  else
    channels.filter fun id =>
      match cache.channelsIDM.get? id with
      | none => true
      | some channel =>
        channel.type ≠ channelTypeAdvancedCustom ||
          (cache.channel2advancedCustomConfig id).any fun supports => supports requestPath model

def groupChannels (cache : ChannelCache) (group model requestPath : String) : List ℤ :=
  let channelsOf := fun name => filterChannelsByRequestPathAndModel cache
    ((cache.group2model2channels.get? (group, name)).getD []) requestPath model
  if channelsOf model = [] then channelsOf (formatMatchingModelName model) else channelsOf model

def errInconsistent (id : ℤ) : String :=
  "数据库一致性错误，渠道# " ++ toString id ++ " 不存在，请联系管理员修复"

/-- Look channels up; one that is missing is an error. -/
def lookupChannels (cache : ChannelCache) (ids : List ℤ) : Except String (List Candidate) :=
  ids.mapM fun id =>
    match cache.channelsIDM.get? id with
    | some channel => .ok (id, channel)
    | none => .error (errInconsistent id)

def selectSingle (cache : ChannelCache) (cfg : ChannelRoutingConfig) (counts : ℤ → ℚ) (id : ℤ)
    (excludedIDs : List ℤ) (cacheDomainFilter : String) : Except String (Option Candidate) :=
  match cache.channelsIDM.get? id with
  | none => .error (errInconsistent id)
  | some channel =>
    if cacheDomainFilter ≠ "" ∧ channel.getCacheDomain id ≠ cacheDomainFilter then .ok none
    else if id ∈ excludedIDs then
      if cacheDomainFilter ≠ "" then .ok none else .ok (some (id, channel))
    else if cfg.dryRun = false ∧ resolveRoutingMode channel cfg.mode = routingModeCapacity ∧
        (filterCapacityChannels counts [(id, channel)] cfg.mode).1 = [] then
      if resolveFullStrategy channel cfg.fullStrategy = "reject" then
        .error errAllChannelsCapacityFull
      else if resolveFullStrategy channel cfg.fullStrategy = "queue" then .error errCapacityNeedQueue
      else
        match pickLeastOverloadedChannel counts
            (filterCapacityChannels counts [(id, channel)] cfg.mode).2 with
        | some c => .ok (some c)
        | none => .error errAllChannelsCapacityFull
    else .ok (some (id, channel))

/-- The channels that have not failed, in the cache domain; when all have failed, all of them. -/
def availableChannels (cache : ChannelCache) (channels excludedIDs : List ℤ)
    (cacheDomainFilter : String) : Except String (List Candidate) := do
  let found ← lookupChannels cache (channels.filter fun id => id ∉ excludedIDs)
  let available := found.filter fun c =>
    cacheDomainFilter = "" || c.2.getCacheDomain c.1 = cacheDomainFilter
  if available = [] ∧ excludedIDs ≠ [] ∧ cacheDomainFilter = "" then lookupChannels cache channels
  else .ok available

/-- The different priorities, the highest first. -/
def sortedUniquePriorities (channels : List Candidate) : List ℤ :=
  (channels.map fun c => c.2.getPriority).dedup.insertionSort fun a b => b ≤ a

/-- The branch for a group with several channels, once it is known which ones are available. -/
def selectAvailable (cfg : ChannelRoutingConfig) (counts : ℤ → ℚ) (rnd : ℤ → ℤ)
    (group model : String) (available : List Candidate) (retry : ℕ) :
    Except String (Option Candidate) :=
  if available = [] then .ok none
  else
    let priorities := sortedUniquePriorities available
    let retry := min retry (priorities.length - 1)
    let targetPriority := priorities.getD retry 0
    let targetChannels := available.filter fun c => c.2.getPriority = targetPriority
    if targetChannels = [] then
      .error ("no channel found, group: " ++ group ++ ", model: " ++ model ++ ", priority: " ++
        toString targetPriority)
    else
      (selectFromPriorityLayer cfg counts rnd targetChannels available priorities retry).map some

/-- `GetRandomSatisfiedChannelForRequest` with the memory cache. -/
def getRandomSatisfiedChannelForRequest (cache : ChannelCache) (cfg : ChannelRoutingConfig)
    (counts : ℤ → ℚ) (rnd : ℤ → ℤ) (group model : String) (retry : ℕ) (excludedIDs : List ℤ)
    (cacheDomainFilter requestPath : String) : Except String (Option Candidate) :=
  match groupChannels cache group model requestPath with
  | [] => .ok none
  | [id] => selectSingle cache cfg counts id excludedIDs cacheDomainFilter
  | channels => do
    let available ← availableChannels cache channels excludedIDs cacheDomainFilter
    selectAvailable cfg counts rnd group model available retry

def ChannelCache.domainOf (cache : ChannelCache) (id : ℤ) : String :=
  (cache.channelsIDM.get? id).elim "" (Channel.getCacheDomain id)

/-- The candidates that have not failed, in the cache domain; without a domain, all of them when all
have failed. -/
def leftOf (domainOf : ℤ → String) (s : Finset ℤ) (excludedIDs : List ℤ)
    (cacheDomainFilter : String) : Finset ℤ :=
  let left := s.filter fun id =>
    id ∉ excludedIDs ∧ (cacheDomainFilter = "" ∨ domainOf id = cacheDomainFilter)
  if left = ∅ ∧ cacheDomainFilter = "" then s else left

/-- The channels of the priority that the retry counter points at. -/
def targetChannels (available : List Candidate) (retry : ℕ) : List Candidate :=
  available.filter fun c => c.2.getPriority = (sortedUniquePriorities available).getD
      (min retry ((sortedUniquePriorities available).length - 1)) 0

theorem leftOf_eq_remaining (domainOf : ℤ → String) (s : Finset ℤ) (excludedIDs : List ℤ) :
    leftOf domainOf s excludedIDs "" = remaining s excludedIDs := by
  have hfilter : (s.filter fun id => id ∉ excludedIDs) = s \ excludedIDs.toFinset := by
    ext id
    simp
  unfold leftOf remaining
  simp only [true_or, and_true, hfilter]

theorem leftOf_nil (domainOf : ℤ → String) (s : Finset ℤ) : leftOf domainOf s [] "" = s := by
  unfold leftOf
  simp

variable {available channels : List Candidate} {cfg : ChannelRoutingConfig} {c : Candidate}
  {rnd : ℤ → ℤ} {counts : ℤ → ℚ} {retry : ℕ} {cache : ChannelCache}

theorem targetChannels_ne_nil (hne : available ≠ []) (retry : ℕ) :
    targetChannels available retry ≠ [] :=
  filter_getD_ne_nil hne (fun c => c.2.getPriority) 0 retry

/-! ## Probabilistic channels -/

def IsProbabilistic (cfg : ChannelRoutingConfig) (channel : Channel) : Prop :=
  resolveRoutingMode channel cfg.mode = routingModeProbabilistic

instance (cfg : ChannelRoutingConfig) (channel : Channel) :
    Decidable (IsProbabilistic cfg channel) :=
  inferInstanceAs (Decidable (_ = _))

theorem hasAnyCapacityChannel_of_probabilistic (h : ∀ c ∈ channels, IsProbabilistic cfg c.2) :
    hasAnyCapacityChannel channels cfg.mode = false := by
  unfold hasAnyCapacityChannel
  split_ifs with hmode
  · rw [List.any_eq_false]
    intro c hc
    have hres := h c hc
    unfold IsProbabilistic resolveRoutingMode at hres
    rw [hmode, if_pos rfl] at hres
    by_contra hne
    rw [decide_eq_true_eq] at hne
    rw [if_neg hne] at hres
    split_ifs at hres <;> exact absurd hres (by decide)
  · rw [List.any_eq_false]
    intro c hc
    have hres := h c hc
    unfold IsProbabilistic resolveRoutingMode at hres
    by_contra heq
    rw [decide_eq_true_eq] at heq
    rw [heq, if_neg (by decide), if_pos rfl] at hres
    exact absurd hres (by decide)

theorem pickWeighted_mem {weightOf : Channel → ℤ} {smoothingFactor smoothingAdjustment : ℤ}
    {randomWeight : ℤ}
    (h : pickWeighted weightOf smoothingFactor smoothingAdjustment channels randomWeight = some c) :
    c ∈ channels := by
  induction channels generalizing randomWeight with
  | nil => cases h
  | cons d channels ih =>
    rw [pickWeighted] at h
    split_ifs at h
    · rw [some.inj h]
      exact mem_cons_self
    · exact mem_cons_of_mem d (ih h)

theorem weightedRandomBy_spec (rnd : ℤ → ℤ) (weightOf : Channel → ℤ) (h : channels ≠ []) :
    ∃ c ∈ channels, weightedRandomBy rnd weightOf channels = .ok c := by
  unfold weightedRandomBy
  rw [getLast?_eq_some_getLast h]
  refine ⟨_, ?_, rfl⟩
  generalize hpick : pickWeighted weightOf _ _ channels _ = picked
  cases picked with
  | none => exact getLast_mem h
  | some c => exact pickWeighted_mem hpick

theorem sortedUniquePriorities_eq (channels : List Candidate) :
    sortedUniquePriorities channels = descending (channels.map fun c => c.2.getPriority) :=
  rfl

theorem pairwise_sortedUniquePriorities (channels : List Candidate) :
    (sortedUniquePriorities channels).Pairwise (· > ·) :=
  pairwise_descending _

theorem mem_sortedUniquePriorities {p : ℤ} :
    p ∈ sortedUniquePriorities channels ↔ ∃ c ∈ channels, c.2.getPriority = p := by
  rw [sortedUniquePriorities_eq, mem_descending, List.mem_map]

section Table

variable {cache : ChannelCache} {cfg : ChannelRoutingConfig}

def IsTable (cache : ChannelCache) (cfg : ChannelRoutingConfig) (ids : List ℤ) : Prop :=
  ∀ id ∈ ids, ∃ channel, cache.channelsIDM.get? id = some channel ∧ IsProbabilistic cfg channel

instance (ids : List ℤ) : Decidable (IsTable cache cfg ids) :=
  decidable_of_iff (∀ id ∈ ids, (cache.channelsIDM.get? id).any fun channel =>
    IsProbabilistic cfg channel) <| by simp [IsTable, Option.any_eq_true]

theorem lookupChannels_spec {ids : List ℤ} (h : IsTable cache cfg ids) :
    ∃ channels, lookupChannels cache ids = .ok channels ∧ channels.map Prod.fst = ids ∧
      ∀ c ∈ channels, cache.channelsIDM.get? c.1 = some c.2 ∧ IsProbabilistic cfg c.2 := by
  induction ids with
  | nil => exact ⟨[], rfl, rfl, by simp⟩
  | cons id ids ih =>
    obtain ⟨channel, hchannel, hprob⟩ := h id mem_cons_self
    obtain ⟨channels, hok, hids, hall⟩ := ih fun id' hid' => h id' (mem_cons_of_mem id hid')
    refine ⟨(id, channel) :: channels, ?_, by rw [List.map_cons, hids], ?_⟩
    · unfold lookupChannels at hok ⊢
      rw [mapM_cons, hok, hchannel]
      rfl
    · intro c hc
      obtain rfl | hc := mem_cons.1 hc
      · exact ⟨hchannel, hprob⟩
      · exact hall c hc

variable {available : List Candidate}

theorem selectAvailable_eq (counts : ℤ → ℚ) (rnd : ℤ → ℤ) (group model : String) (retry : ℕ)
    (hne : available ≠ []) (hprob : ∀ c ∈ available, IsProbabilistic cfg c.2) :
    selectAvailable cfg counts rnd group model available retry =
      (weightedRandomFromChannels rnd (targetChannels available retry)).map some := by
  have htarget : ∀ c ∈ targetChannels available retry, IsProbabilistic cfg c.2 :=
    fun c hc => hprob c (mem_filter.1 hc).1
  unfold selectAvailable
  rw [if_neg hne]
  show (if targetChannels available retry = [] then _ else
    (selectFromPriorityLayer cfg counts rnd (targetChannels available retry) _ _ _).map some) = _
  rw [if_neg (targetChannels_ne_nil hne retry)]
  unfold selectFromPriorityLayer
  rw [if_pos (.inr (hasAnyCapacityChannel_of_probabilistic htarget))]

theorem mem_targetChannels_iff (hall : ∀ c ∈ available, cache.channelsIDM.get? c.1 = some c.2)
    (retry : ℕ) (id : ℤ) :
    id ∈ (targetChannels available retry).map Prod.fst ↔ id ∈ (available.map Prod.fst).toFinset ∧
        Levels.IsLevel cache.priorityOf (available.map Prod.fst).toFinset retry
          (cache.priorityOf id) := by
  refine mem_filter_getD_iff (fun c hc => ?_) 0 retry id
  rw [ChannelCache.priorityOf, hall c hc, elim_some]

theorem selectAvailable_spec (counts : ℤ → ℚ) (rnd : ℤ → ℤ) (group model : String) (retry : ℕ)
    (hne : available ≠ [])
    (hall : ∀ c ∈ available, cache.channelsIDM.get? c.1 = some c.2 ∧ IsProbabilistic cfg c.2)
    {s : Finset ℤ} (hs : (available.map Prod.fst).toFinset = s) :
    ∃ c, selectAvailable cfg counts rnd group model available retry = .ok (some c) ∧ c.1 ∈ s ∧
      Levels.IsLevel cache.priorityOf s retry (cache.priorityOf c.1) := by
  obtain ⟨c, hc, hok⟩ :=
    weightedRandomBy_spec rnd Channel.getWeight (targetChannels_ne_nil hne retry)
  have hlayer := (mem_targetChannels_iff (fun c hc => (hall c hc).1) retry c.1).1
    (mem_map_of_mem hc)
  rw [hs] at hlayer
  refine ⟨c, ?_, hlayer⟩
  rw [selectAvailable_eq counts rnd group model retry hne fun c hc => (hall c hc).2,
    weightedRandomFromChannels, hok]
  rfl

theorem availableChannels_spec {channels : List ℤ} (excludedIDs : List ℤ)
    (cacheDomainFilter : String) (h : IsTable cache cfg channels) :
    ∃ available, availableChannels cache channels excludedIDs cacheDomainFilter = .ok available ∧
      (∀ c ∈ available, cache.channelsIDM.get? c.1 = some c.2 ∧ IsProbabilistic cfg c.2) ∧
      (available.map Prod.fst).toFinset =
        leftOf cache.domainOf channels.toFinset excludedIDs cacheDomainFilter := by
  have hkept : IsTable cache cfg (channels.filter fun id => id ∉ excludedIDs) :=
    fun id hid => h id (List.mem_filter.1 hid).1
  obtain ⟨found, hok, hids, hall⟩ := lookupChannels_spec hkept
  obtain ⟨every, hokAll, hidsAll, hallAll⟩ := lookupChannels_spec h
  have hset : ((found.filter fun c =>
      cacheDomainFilter = "" || c.2.getCacheDomain c.1 = cacheDomainFilter).map Prod.fst).toFinset =
      channels.toFinset.filter fun id => id ∉ excludedIDs ∧
        (cacheDomainFilter = "" ∨ cache.domainOf id = cacheDomainFilter) := by
    have hdomain : ∀ c ∈ found, cache.domainOf c.1 = c.2.getCacheDomain c.1 := by
      intro c hc
      rw [ChannelCache.domainOf, (hall c hc).1, Option.elim_some]
    have hmem : ∀ id, (∃ c ∈ found, c.1 = id) ↔ id ∈ channels ∧ id ∉ excludedIDs := by
      intro id
      rw [← List.mem_map, hids, List.mem_filter, decide_eq_true_eq]
    ext id
    simp only [List.mem_toFinset, List.mem_map, List.mem_filter, Finset.mem_filter,
      Bool.or_eq_true, decide_eq_true_eq]
    constructor
    · rintro ⟨c, ⟨hc, hc'⟩, rfl⟩
      obtain ⟨hin, hout⟩ := (hmem c.1).1 ⟨c, hc, rfl⟩
      rw [hdomain c hc]
      exact ⟨hin, hout, hc'⟩
    · rintro ⟨hin, hout, hdom⟩
      obtain ⟨c, hc, rfl⟩ := (hmem id).2 ⟨hin, hout⟩
      rw [hdomain c hc] at hdom
      exact ⟨c, ⟨hc, hdom⟩, rfl⟩
  have hvalue : availableChannels cache channels excludedIDs cacheDomainFilter =
      if (found.filter fun c => cacheDomainFilter = "" || c.2.getCacheDomain c.1 =
        cacheDomainFilter) = [] ∧ excludedIDs ≠ [] ∧ cacheDomainFilter = "" then .ok every
      else .ok (found.filter fun c =>
        cacheDomainFilter = "" || c.2.getCacheDomain c.1 = cacheDomainFilter) := by
    unfold availableChannels
    rw [hok]
    show (if found.filter _ = [] ∧ _ then _ else _) = _
    rw [hokAll]
  have hempty : (channels.toFinset.filter fun id => id ∉ excludedIDs ∧
      (cacheDomainFilter = "" ∨ cache.domainOf id = cacheDomainFilter)) = ∅ ↔
      (found.filter fun c =>
        cacheDomainFilter = "" || c.2.getCacheDomain c.1 = cacheDomainFilter) = [] := by
    rw [← hset, List.toFinset_eq_empty_iff, List.map_eq_nil_iff]
  rw [hvalue]
  unfold leftOf
  simp only [hempty]
  by_cases hnone : (found.filter fun c =>
      cacheDomainFilter = "" || c.2.getCacheDomain c.1 = cacheDomainFilter) = [] ∧
        cacheDomainFilter = ""
  · rw [if_pos hnone]
    by_cases hexcluded : excludedIDs = []
    · refine ⟨_, if_neg fun h => h.2.1 hexcluded, fun c hc => hall c (List.mem_filter.1 hc).1, ?_⟩
      rw [hset, hexcluded, hnone.2]
      simp
    · refine ⟨every, if_pos ⟨hnone.1, hexcluded, hnone.2⟩, hallAll, ?_⟩
      rw [hidsAll]
  · rw [if_neg hnone]
    exact ⟨_, if_neg fun h => hnone ⟨h.1, h.2.2⟩, fun c hc => hall c (List.mem_filter.1 hc).1, hset⟩

/-- The choice of a channel, with probabilistic channels and no cache domain: one that has not failed,
at the level of what is left that the retry counter points at. -/
theorem getRandomSatisfiedChannel_spec (counts : ℤ → ℚ) (rnd : ℤ → ℤ) {group model : String}
    (retry : ℕ) (excludedIDs : List ℤ) {requestPath : String}
    (hne : groupChannels cache group model requestPath ≠ [])
    (h : IsTable cache cfg (groupChannels cache group model requestPath)) :
    ∃ c, getRandomSatisfiedChannelForRequest cache cfg counts rnd group model retry excludedIDs ""
        requestPath = .ok (some c) ∧
      c.1 ∈ remaining (groupChannels cache group model requestPath).toFinset excludedIDs ∧
      Levels.IsLevel cache.priorityOf
        (remaining (groupChannels cache group model requestPath).toFinset excludedIDs) retry
        (cache.priorityOf c.1) := by
  unfold getRandomSatisfiedChannelForRequest
  generalize groupChannels cache group model requestPath = channels at hne h
  match channels, hne, h with
  | [id], _, h =>
    obtain ⟨channel, hchannel, hprob⟩ := h id mem_cons_self
    have hsingle : selectSingle cache cfg counts id excludedIDs "" = .ok (some (id, channel)) := by
      unfold selectSingle
      rw [hchannel]
      dsimp only
      unfold IsProbabilistic at hprob
      rw [hprob]
      have hmode : ¬ routingModeProbabilistic = routingModeCapacity := by decide
      simp [hmode]
    have hset : remaining [id].toFinset excludedIDs = {id} := by
      unfold remaining
      by_cases hid : id ∈ excludedIDs <;> simp [hid, sdiff_eq_empty_iff_subset]
    refine ⟨(id, channel), hsingle, ?_, ?_⟩
    · rw [hset]
      exact Finset.mem_singleton_self id
    · rw [hset]
      simp [Levels.IsLevel, rank]
  | id :: id' :: ids, hne, h =>
    obtain ⟨available, hok, hall, hset⟩ := availableChannels_spec excludedIDs "" h
    rw [leftOf_eq_remaining] at hset
    have hsome : available ≠ [] := by
      rintro rfl
      exact remaining_ne_empty (by simp) excludedIDs hset.symm
    obtain ⟨c, hc, hmem, hlevel⟩ := selectAvailable_spec counts rnd group model retry hsome hall hset
    refine ⟨c, ?_, hmem, hlevel⟩
    dsimp only
    rw [hok]
    exact hc

end Table

/-! ## Any mode -/

theorem weightedRandomBy_mem {weightOf : Channel → ℤ}
    (h : weightedRandomBy rnd weightOf channels = .ok c) : c ∈ channels := by
  by_cases hne : channels = []
  · subst hne
    cases h
  · obtain ⟨c', hc', hok⟩ := weightedRandomBy_spec rnd weightOf hne
    rw [hok] at h
    cases h
    exact hc'

theorem filterCapacityChannels_subset (counts : ℤ → ℚ) (channels : List Candidate)
    (globalMode : String) :
    (filterCapacityChannels counts channels globalMode).1 ⊆ channels ∧
      (filterCapacityChannels counts channels globalMode).2 ⊆ channels := by
  unfold filterCapacityChannels
  dsimp only
  split_ifs
  · simp
  · refine ⟨fun c hc => ?_, filter_subset_self _⟩
    rcases mem_append.1 hc with hc | hc
    · exact (mem_filter.1 hc).1
    · exact (mem_filter.1 (mem_filter.1 hc).1).1

theorem pickLeastOverloadedChannel_eq_argmin (counts : ℤ → ℚ) (capChans : List Candidate) :
    pickLeastOverloadedChannel counts capChans =
      (capChans.filter fun c => 0 < c.2.getCapacityLimit).argmin
        fun c => counts c.1 / c.2.getCapacityLimit := by
  unfold pickLeastOverloadedChannel List.argmin
  congr 1
  funext best d
  cases best <;> rfl

theorem pickLeastOverloadedChannel_mem {capChans : List Candidate}
    (h : pickLeastOverloadedChannel counts capChans = some c) : c ∈ capChans := by
  rw [pickLeastOverloadedChannel_eq_argmin] at h
  exact (mem_filter.1 (argmin_mem h)).1

theorem tryLowerPriorityLayers_mem {globalMode : String} {priorities : List ℤ}
    (h : tryLowerPriorityLayers counts rnd available globalMode priorities = some c) :
    c ∈ available := by
  have htoOption : ∀ {x : Except String Candidate}, x.toOption = some c → x = .ok c := by
    intro x hx
    cases x with
    | error e => cases hx
    | ok c' => exact congrArg _ (some.inj hx)
  induction priorities with
  | nil => cases h
  | cons p priorities ih =>
    rw [tryLowerPriorityLayers] at h
    split_ifs at h
    · exact ih h
    · exact (mem_filter.1 (weightedRandomBy_mem (htoOption h))).1
    · have hmem := weightedRandomBy_mem (htoOption h)
      exact (mem_filter.1 ((filterCapacityChannels_subset _ _ _).1 hmem)).1
    · exact ih h

theorem selectFromPriorityLayer_mem {targetChannels : List Candidate} {priorities : List ℤ}
    (hsub : targetChannels ⊆ available)
    (h : selectFromPriorityLayer cfg counts rnd targetChannels available priorities retry = .ok c) :
    c ∈ available := by
  unfold selectFromPriorityLayer at h
  obtain ⟨hsurvivors, hcap⟩ := filterCapacityChannels_subset counts targetChannels cfg.mode
  split_ifs at h with hprob
  · exact hsub (weightedRandomBy_mem h)
  dsimp only at h
  split at h
  · exact hsub (hsurvivors (weightedRandomBy_mem h))
  split at h
  · rename_i c' hc'
    cases h
    split_ifs at hc'
    exact tryLowerPriorityLayers_mem hc'
  · rename_i c' _ hc'
    cases h
    exact hsub (hcap (mem_filter.1 (pickLeastOverloadedChannel_mem hc')).1)
  · split_ifs at h

theorem lookupChannels_mem {ids : List ℤ} (h : lookupChannels cache ids = .ok channels)
    (hc : c ∈ channels) : c.1 ∈ ids ∧ cache.channelsIDM.get? c.1 = some c.2 := by
  obtain ⟨id, hid, hok⟩ := exists_of_mem_mapM h hc
  split at hok
  · rename_i channel hchannel
    cases hok
    exact ⟨hid, hchannel⟩
  · cases hok

theorem availableChannels_mem {channels excludedIDs : List ℤ} {cacheDomainFilter : String}
    (h : availableChannels cache channels excludedIDs cacheDomainFilter = .ok available)
    (hc : c ∈ available) : c.1 ∈ channels ∧ cache.channelsIDM.get? c.1 = some c.2 := by
  unfold availableChannels at h
  obtain ⟨found, hfound, h⟩ := Except.bind_eq_ok_iff.1 h
  dsimp only at h
  split_ifs at h
  · exact lookupChannels_mem h hc
  · cases h
    obtain ⟨hmem, hlookup⟩ := lookupChannels_mem hfound (mem_filter.1 hc).1
    exact ⟨(mem_filter.1 hmem).1, hlookup⟩

theorem selectAvailable_mem {group model : String}
    (h : selectAvailable cfg counts rnd group model available retry = .ok (some c)) :
    c ∈ available := by
  unfold selectAvailable at h
  split at h
  · cases h
  dsimp only at h
  split at h
  · cases h
  · generalize hlayer : selectFromPriorityLayer cfg counts rnd _ available _ _ = layer at h
    cases layer with
    | error e => cases h
    | ok c' =>
      cases h
      exact selectFromPriorityLayer_mem (filter_subset_self _) hlayer

theorem getRandomSatisfiedChannel_mem {group model : String} {excludedIDs : List ℤ}
    {cacheDomainFilter requestPath : String}
    (h : getRandomSatisfiedChannelForRequest cache cfg counts rnd group model retry excludedIDs
      cacheDomainFilter requestPath = .ok (some c)) :
    c.1 ∈ groupChannels cache group model requestPath ∧ cache.channelsIDM.get? c.1 = some c.2 := by
  unfold getRandomSatisfiedChannelForRequest at h
  generalize groupChannels cache group model requestPath = channels at h
  match channels, h with
  | [], h => cases h
  | [id], h =>
    dsimp only at h
    unfold selectSingle at h
    cases hchannel : cache.channelsIDM.get? id with
    | none =>
      rw [hchannel] at h
      cases h
    | some channel =>
      rw [hchannel] at h
      dsimp only at h
      have hself : c = (id, channel) := by
        split_ifs at h
        · cases h
        · cases h
        · exact (some.inj (Except.ok.inj h)).symm
        · split at h
          · rename_i c' hc'
            cases h
            have hmem := (filterCapacityChannels_subset _ _ _).2 (pickLeastOverloadedChannel_mem hc')
            exact List.mem_singleton.1 hmem
          · cases h
        · exact (some.inj (Except.ok.inj h)).symm
      subst hself
      exact ⟨List.mem_singleton_self id, hchannel⟩
  | id :: id' :: ids, h =>
    obtain ⟨available, hok, h⟩ := Except.bind_eq_ok_iff.1 h
    exact availableChannels_mem hok (selectAvailable_mem h)

end BeeApi.Relay
