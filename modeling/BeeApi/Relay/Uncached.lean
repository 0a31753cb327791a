import BeeApi.Relay.Abilities
import BeeApi.Relay.Cache

/-!
# The choice without the memory cache

`GetChannelForRequest` of `model/ability.go` reads the enabled rows of the group and the model, drops
those whose channel does not take the path, is outside the cache domain or has failed, and draws among
the rows of one priority.
-/

namespace BeeApi.Relay

open List Option Finset Bool

/-- A row of one group and one model: the id of the channel, and the columns. -/
abbrev AbilityRow := ℤ × Ability

def AbilityRow.getPriority (row : AbilityRow) : ℤ := row.2.priority.getD 0

/-- The different priorities, the highest first. -/
def rowPriorities (rows : List AbilityRow) : List ℤ :=
  (rows.map AbilityRow.getPriority).dedup.insertionSort fun a b => b ≤ a

/-- The rows that the query of a group and a model finds, the largest weight first. -/
def enabledAbilities (abilities : Table (String × String × ℤ) Ability) (group model : String) :
    List AbilityRow :=
  ((abilities.rows.filter fun row => row.1.1 = group && row.1.2.1 = model && row.2.enabled).map
    fun row => (row.1.2.2, row.2)).insertionSort fun a b => b.2.weight ≤ a.2.weight

def getPriority (rows : List AbilityRow) (retry : ℕ) : Except String ℤ :=
  let priorities := rowPriorities rows
  if priorities = [] then .error "数据库一致性被破坏"
  else .ok (priorities.getD (min retry (priorities.length - 1)) 0)

/-- `getChannelQuery`: the rows of the highest priority, or of the one for the retry counter. -/
def getChannelQuery (rows : List AbilityRow) (retry : ℕ) : Except String (List AbilityRow) :=
  if retry ≠ 0 then
    (getPriority rows retry).map fun priority =>
      rows.filter fun row => AbilityRow.getPriority row = priority
  else
    match (rows.map AbilityRow.getPriority).max? with
    | none => .ok []
    | some priority => .ok (rows.filter fun row => AbilityRow.getPriority row = priority)

/-- The channels whose settings do not decode have no advanced config. -/
def filterAbilitiesByRequestPathAndModel (env : ChannelEnv) (channels : Table ℤ Channel)
    (rows : List AbilityRow) (requestPath modelName : String) : List AbilityRow :=
  if requestPath = "" then rows
  else
    rows.filter fun row =>
      match channels.get? row.1 with
      | none => true
      | some channel =>
        channel.type ≠ channelTypeAdvancedCustom ||
          (env.settingsDecode channel.otherSettings &&
            (env.advancedCustom channel.otherSettings).any fun supports =>
              supports requestPath modelName)

def filterAbilitiesByCacheDomain (channels : Table ℤ Channel) (rows : List AbilityRow)
    (cacheDomainFilter : String) : List AbilityRow :=
  if cacheDomainFilter = "" then rows
  else
    rows.filter fun row =>
      (channels.get? row.1).elim "" (Channel.getCacheDomain row.1) = cacheDomainFilter

/-- The rows of the channels that have not failed; when all have failed, all of them, but none in a
cache domain. -/
def excludeAbilities (rows : List AbilityRow) (excludedIDs : List ℤ) (cacheDomainFilter : String) :
    List AbilityRow :=
  if excludedIDs = [] then rows
  else
    let filtered := rows.filter fun row => row.1 ∉ excludedIDs
    if filtered = [] then if cacheDomainFilter ≠ "" then [] else rows
    else filtered

def filterAbilitiesByRetryPriority (rows : List AbilityRow) (retry : ℕ) : List AbilityRow :=
  let priorities := rowPriorities rows
  let targetPriority := priorities.getD (min retry (priorities.length - 1)) 0
  rows.filter fun row => AbilityRow.getPriority row = targetPriority

/-- The rows that `GetChannelForRequest` draws among. -/
def candidateAbilities (env : ChannelEnv) (channels : Table ℤ Channel)
    (abilities : Table (String × String × ℤ) Ability) (group model : String) (retry : ℕ)
    (excludedIDs : List ℤ) (cacheDomainFilter requestPath : String) :
    Except String (List AbilityRow) :=
  let rows := enabledAbilities abilities group model
  (if requestPath = "" then getChannelQuery rows retry else .ok rows) >>= fun rows =>
    let rows := filterAbilitiesByRequestPathAndModel env channels rows requestPath model
    let rows := filterAbilitiesByCacheDomain channels rows cacheDomainFilter
    let rows := excludeAbilities rows excludedIDs cacheDomainFilter
    .ok (if requestPath = "" then rows else filterAbilitiesByRetryPriority rows retry)

/-- The loop of the draw; the id is 0 when no row is reached. -/
def pickAbility : List AbilityRow → ℤ → ℤ
  | [], _ => 0
  | row :: rows, weight =>
    let weight := weight - (row.2.weight + 10)
    if weight ≤ 0 then row.1 else pickAbility rows weight

def getChannelForRequest (env : ChannelEnv) (channels : Table ℤ Channel)
    (abilities : Table (String × String × ℤ) Ability) (rnd : ℤ → ℤ) (group model : String)
    (retry : ℕ) (excludedIDs : List ℤ) (cacheDomainFilter requestPath : String) :
    Except String (Option Candidate) :=
  candidateAbilities env channels abilities group model retry excludedIDs cacheDomainFilter
      requestPath >>= fun rows =>
    if rows = [] then .ok none
    else
      let id := pickAbility rows (rnd (rows.map fun row => (row.2.weight : ℤ) + 10).sum)
      match channels.get? id with
      | some channel => .ok (some (id, channel))
      | none => .error "record not found"

/-- A source of random numbers, as `rand.Intn` is one. -/
def IsIntn (rnd : ℤ → ℤ) : Prop := ∀ n, 0 < n → 0 ≤ rnd n ∧ rnd n < n

/-- What is chosen is in the layer, and nothing is chosen of an empty one. -/
def PicksFrom (layer : List ℤ) (choose : (ℤ → ℤ) → Except String (Option Candidate)) : Prop :=
  ∀ rnd, IsIntn rnd →
    if layer = [] then choose rnd = .ok none else ∃ c, choose rnd = .ok (some c) ∧ c.1 ∈ layer

def IsLayer (priorityOf : ℤ → ℤ) (domainOf : ℤ → String) (s : Finset ℤ) (retry : ℕ)
    (excludedIDs : List ℤ) (cacheDomainFilter : String) (layer : List ℤ) : Prop :=
  ∀ id, id ∈ layer ↔ id ∈ leftOf domainOf s excludedIDs cacheDomainFilter ∧
    Levels.IsLevel priorityOf (leftOf domainOf s excludedIDs cacheDomainFilter) retry (priorityOf id)

def storedPriority (channels : Table ℤ Channel) (id : ℤ) : ℤ :=
  (channels.get? id).elim 0 Channel.getPriority

def storedDomain (channels : Table ℤ Channel) (id : ℤ) : String :=
  (channels.get? id).elim "" (Channel.getCacheDomain id)

/-! ## The rows -/

section Rows

variable {env : ChannelEnv} {channels : Table ℤ Channel}
  {abilities : Table (String × String × ℤ) Ability}

def RowsOf (channels : Table ℤ Channel) (rows : List AbilityRow) : Prop :=
  ∀ row ∈ rows, ∃ channel, channels.get? row.1 = some channel ∧
    AbilityRow.getPriority row = channel.getPriority

variable {rows : List AbilityRow} {group model requestPath : String}

theorem pickAbility_mem {weight : ℤ} (hne : rows ≠ [])
    (h : weight < (rows.map fun row => (row.2.weight : ℤ) + 10).sum) :
    ∃ row ∈ rows, pickAbility rows weight = row.1 := by
  induction rows generalizing weight with
  | nil => exact absurd rfl hne
  | cons row rows ih =>
    rw [List.map_cons, List.sum_cons] at h
    rw [pickAbility]
    split_ifs with hstop
    · exact ⟨row, mem_cons_self, rfl⟩
    · have hrest : rows ≠ [] := by
        rintro rfl
        rw [map_nil, sum_nil] at h
        omega
      have hless : weight - (row.2.weight + 10) <
          (rows.map fun row => (row.2.weight : ℤ) + 10).sum := by
        omega
      obtain ⟨row', hrow', hpick⟩ := ih hrest hless
      exact ⟨row', mem_cons_of_mem row hrow', hpick⟩

theorem sum_weights_pos (hne : rows ≠ []) :
    0 < (rows.map fun row => (row.2.weight : ℤ) + 10).sum := by
  obtain ⟨row, hrow⟩ := exists_mem_of_ne_nil rows hne
  have hnonneg : ∀ x ∈ rows.map fun row => (row.2.weight : ℤ) + 10, 0 ≤ x := by
    intro x hx
    obtain ⟨row', -, rfl⟩ := mem_map.1 hx
    omega
  have hle := single_le_sum hnonneg _ (mem_map_of_mem hrow)
  omega

theorem ids_filter (rows : List AbilityRow) (p : ℤ → Prop) [DecidablePred p] :
    ((rows.filter fun row => p row.1).map Prod.fst).toFinset =
      (rows.map Prod.fst).toFinset.filter p := by
  ext id
  simp only [List.mem_toFinset, List.mem_map, List.mem_filter, Finset.mem_filter, decide_eq_true_eq]
  constructor
  · rintro ⟨row, ⟨hrow, hp⟩, rfl⟩
    exact ⟨⟨row, hrow, rfl⟩, hp⟩
  · rintro ⟨⟨row, hrow, rfl⟩, hp⟩
    exact ⟨row, ⟨hrow, hp⟩, rfl⟩

theorem ids_filterAbilitiesByCacheDomain (rows : List AbilityRow) (cacheDomainFilter : String) :
    ((filterAbilitiesByCacheDomain channels rows cacheDomainFilter).map Prod.fst).toFinset =
      (rows.map Prod.fst).toFinset.filter fun id =>
        cacheDomainFilter = "" ∨ storedDomain channels id = cacheDomainFilter := by
  unfold filterAbilitiesByCacheDomain
  split_ifs with hfilter
  · simp [hfilter]
  · refine (ids_filter rows fun id => storedDomain channels id = cacheDomainFilter).trans ?_
    simp [hfilter]

theorem ids_excludeAbilities (rows : List AbilityRow) (excludedIDs : List ℤ)
    (cacheDomainFilter : String) :
    ((excludeAbilities (filterAbilitiesByCacheDomain channels rows cacheDomainFilter) excludedIDs
      cacheDomainFilter).map Prod.fst).toFinset =
      leftOf (storedDomain channels) (rows.map Prod.fst).toFinset excludedIDs cacheDomainFilter := by
  have hdomain := @ids_filterAbilitiesByCacheDomain channels rows cacheDomainFilter
  have hleft : ((rows.map Prod.fst).toFinset.filter fun id => id ∉ excludedIDs ∧
      (cacheDomainFilter = "" ∨ storedDomain channels id = cacheDomainFilter)) =
      (((filterAbilitiesByCacheDomain channels rows cacheDomainFilter).filter fun row =>
        row.1 ∉ excludedIDs).map Prod.fst).toFinset := by
    rw [ids_filter _ fun id => id ∉ excludedIDs, hdomain, Finset.filter_filter]
    exact filter_congr fun id _ => and_comm
  have hempty : ∀ l : List AbilityRow, (l.map Prod.fst).toFinset = ∅ ↔ l = [] := by
    intro l
    rw [toFinset_eq_empty_iff, map_eq_nil_iff]
  unfold leftOf excludeAbilities
  simp only [hleft, hempty]
  by_cases hnone : excludedIDs = []
  · subst hnone
    have hall : (filterAbilitiesByCacheDomain channels rows cacheDomainFilter).filter
        (fun row => row.1 ∉ ([] : List ℤ)) =
        filterAbilitiesByCacheDomain channels rows cacheDomainFilter := by
      simp
    rw [if_pos rfl, hall]
    split_ifs with h
    · unfold filterAbilitiesByCacheDomain at h ⊢
      rw [if_pos h.2]
    · rfl
  · rw [if_neg hnone]
    split
    · rename_i hfiltered
      rw [hfiltered]
      by_cases hfilter : cacheDomainFilter = ""
      · rw [if_neg (not_not.2 hfilter), if_pos ⟨rfl, hfilter⟩]
        unfold filterAbilitiesByCacheDomain
        rw [if_pos hfilter]
      · rw [if_pos hfilter, if_neg fun h => hfilter h.2]
    · rename_i hfiltered
      rw [if_neg fun h => hfiltered h.1]

theorem ids_filterAbilitiesByRetryPriority (hrows : RowsOf channels rows) (retry : ℕ) (id : ℤ) :
    id ∈ (filterAbilitiesByRetryPriority rows retry).map Prod.fst ↔
      id ∈ (rows.map Prod.fst).toFinset ∧
        Levels.IsLevel (storedPriority channels) (rows.map Prod.fst).toFinset retry
          (storedPriority channels id) := by
  refine Levels.mem_filter_getD_iff (fun row hrow => ?_) 0 retry id
  obtain ⟨channel, hchannel, hpriority⟩ := hrows row hrow
  rw [storedPriority, hchannel, elim_some, hpriority]

theorem RowsOf.subset {rows' : List AbilityRow} (h : RowsOf channels rows) (hsub : rows' ⊆ rows) :
    RowsOf channels rows' := fun row hrow => h row (hsub hrow)

theorem excludeAbilities_subset (rows : List AbilityRow) (excludedIDs : List ℤ)
    (cacheDomainFilter : String) :
    excludeAbilities (filterAbilitiesByCacheDomain channels rows cacheDomainFilter) excludedIDs
      cacheDomainFilter ⊆ rows := by
  have hdomain : filterAbilitiesByCacheDomain channels rows cacheDomainFilter ⊆ rows := by
    unfold filterAbilitiesByCacheDomain
    split_ifs
    · exact List.Subset.refl _
    · exact filter_subset_self _
  unfold excludeAbilities
  dsimp only
  split_ifs
  · exact hdomain
  · exact nil_subset _
  · exact hdomain
  · exact fun row hrow => hdomain (mem_filter.1 hrow).1

/-! ## Which channels have a row -/

/-- The channel takes the path, as its settings are read without the cache. -/
def TakesPath (env : ChannelEnv) (channel : Channel) (requestPath model : String) : Prop :=
  channel.type ≠ channelTypeAdvancedCustom ∨
    (env.advancedCustom channel.otherSettings).any (fun supports => supports requestPath model) = true

def Offers (env : ChannelEnv) (group name requestPath model : String) (channel : Channel) : Prop :=
  channel.status = channelStatusEnabled ∧ (group, name) ∈ channelPairs channel ∧
    TakesPath env channel requestPath model

/-- Nothing keeps a channel that offers the model from being found in the database: the pair has a row,
and the settings of an advanced custom channel decode. -/
def IsFound (env : ChannelEnv) (group model : String) (channel : Channel) : Prop :=
  (group, model) ∈ abilityPairs channel ∧
    (channel.type = channelTypeAdvancedCustom → env.settingsDecode channel.otherSettings = true)

section
variable (habilities : ∀ key, abilities.get? key = (buildAbilities channels).get? key)
include habilities

theorem mem_enabledAbilities {row : AbilityRow} :
    row ∈ enabledAbilities abilities group model ↔
      ∃ channel, channels.get? row.1 = some channel ∧ channel.status = channelStatusEnabled ∧
        (group, model) ∈ abilityPairs channel ∧ row.2 = abilityOf channel := by
  have hget : row ∈ enabledAbilities abilities group model ↔
      abilities.get? (group, model, row.1) = some row.2 ∧ row.2.enabled = true := by
    unfold enabledAbilities
    rw [List.mem_insertionSort, List.mem_map, Table.get?_eq_some_iff]
    constructor
    · rintro ⟨⟨⟨group', model', id⟩, ability⟩, hrow, rfl⟩
      obtain ⟨hmem, hkey⟩ := mem_filter.1 hrow
      simp only [and_eq_true, decide_eq_true_eq] at hkey
      obtain ⟨⟨rfl, rfl⟩, henabled⟩ := hkey
      exact ⟨hmem, henabled⟩
    · rintro ⟨hmem, henabled⟩
      exact ⟨((group, model, row.1), row.2), mem_filter.2 ⟨hmem, by simp [henabled]⟩, rfl⟩
  rw [hget, habilities, get?_buildAbilities, bind_eq_some_iff]
  constructor
  · rintro ⟨⟨channel, hchannel, hpair⟩, henabled⟩
    split_ifs at hpair with hmem
    have hrow := some.inj hpair
    rw [← hrow] at henabled
    exact ⟨channel, hchannel, of_decide_eq_true henabled, hmem, hrow.symm⟩
  · rintro ⟨channel, hchannel, hstatus, hmem, hrow⟩
    refine ⟨⟨channel, hchannel, ?_⟩, ?_⟩
    · dsimp only
      rw [if_pos hmem, hrow]
    · rw [hrow]
      exact decide_eq_true hstatus

theorem mem_pathRows (hpath : requestPath ≠ "") {row : AbilityRow} :
    row ∈ filterAbilitiesByRequestPathAndModel env channels (enabledAbilities abilities group model)
        requestPath model ↔
      ∃ channel, channels.get? row.1 = some channel ∧
        Offers env group model requestPath model channel ∧ IsFound env group model channel ∧
        row.2 = abilityOf channel := by
  unfold filterAbilitiesByRequestPathAndModel
  rw [if_neg hpath, mem_filter, mem_enabledAbilities habilities]
  constructor
  · rintro ⟨⟨channel, hchannel, hstatus, hmem, hrow⟩, htakes⟩
    rw [hchannel] at htakes
    simp only [or_eq_true, and_eq_true, decide_eq_true_eq] at htakes
    refine ⟨channel, hchannel, ⟨hstatus, mem_channelPairs_of_mem_abilityPairs hmem,
      htakes.imp_right And.right⟩, ⟨hmem, fun htype => ?_⟩, hrow⟩
    exact (htakes.resolve_left (not_not.2 htype)).1
  · rintro ⟨channel, hchannel, ⟨hstatus, -, htakes⟩, ⟨hmem, hdecode⟩, hrow⟩
    refine ⟨⟨channel, hchannel, hstatus, hmem, hrow⟩, ?_⟩
    rw [hchannel]
    simp only [or_eq_true, and_eq_true, decide_eq_true_eq]
    by_cases htype : channel.type = channelTypeAdvancedCustom
    · exact .inr ⟨hdecode htype, htakes.resolve_left (not_not.2 htype)⟩
    · exact .inl htype

theorem mem_ids_pathRows (hpath : requestPath ≠ "") (id : ℤ) :
    id ∈ ((filterAbilitiesByRequestPathAndModel env channels
        (enabledAbilities abilities group model) requestPath model).map Prod.fst).toFinset ↔
      ∃ channel, channels.get? id = some channel ∧
        Offers env group model requestPath model channel ∧ IsFound env group model channel := by
  rw [List.mem_toFinset, List.mem_map]
  constructor
  · rintro ⟨row, hrow, rfl⟩
    obtain ⟨channel, hchannel, hoffers, hfound, -⟩ := (mem_pathRows habilities hpath).1 hrow
    exact ⟨channel, hchannel, hoffers, hfound⟩
  · rintro ⟨channel, hchannel, hoffers, hfound⟩
    exact ⟨(id, abilityOf channel),
      (mem_pathRows habilities hpath).2 ⟨channel, hchannel, hoffers, hfound, rfl⟩, rfl⟩

theorem storedLayer_spec (hpath : requestPath ≠ "") {s : Finset ℤ}
    (hs : ((filterAbilitiesByRequestPathAndModel env channels
      (enabledAbilities abilities group model) requestPath model).map Prod.fst).toFinset = s)
    (retry : ℕ) (excludedIDs : List ℤ) (cacheDomainFilter : String) :
    ∃ rows, candidateAbilities env channels abilities group model retry excludedIDs
        cacheDomainFilter requestPath = .ok rows ∧
      PicksFrom (rows.map Prod.fst) (fun rnd => getChannelForRequest env channels abilities rnd group
        model retry excludedIDs cacheDomainFilter requestPath) ∧
      IsLayer (storedPriority channels) (storedDomain channels) s retry excludedIDs
        cacheDomainFilter (rows.map Prod.fst) := by
  have hrows : RowsOf channels (filterAbilitiesByRequestPathAndModel env channels
      (enabledAbilities abilities group model) requestPath model) := by
    intro row hrow
    obtain ⟨channel, hchannel, -, -, hability⟩ := (mem_pathRows habilities hpath).1 hrow
    refine ⟨channel, hchannel, ?_⟩
    rw [AbilityRow.getPriority, hability]
    rfl
  have hvalue : candidateAbilities env channels abilities group model retry excludedIDs
      cacheDomainFilter requestPath = .ok (filterAbilitiesByRetryPriority (excludeAbilities
        (filterAbilitiesByCacheDomain channels (filterAbilitiesByRequestPathAndModel env channels
          (enabledAbilities abilities group model) requestPath model) cacheDomainFilter)
        excludedIDs cacheDomainFilter) retry) := by
    unfold candidateAbilities
    simp only [if_neg hpath]
    rfl
  generalize hpathRows : filterAbilitiesByRequestPathAndModel env channels
    (enabledAbilities abilities group model) requestPath model = pathRows at hrows hs hvalue
  have hleft := @ids_excludeAbilities channels pathRows excludedIDs cacheDomainFilter
  have hleftRows := hrows.subset
    (@excludeAbilities_subset channels pathRows excludedIDs cacheDomainFilter)
  generalize excludeAbilities (filterAbilitiesByCacheDomain channels pathRows cacheDomainFilter)
    excludedIDs cacheDomainFilter = left at hleft hleftRows hvalue
  refine ⟨_, hvalue, fun rnd hrnd => ?_, fun id => ?_⟩
  · have hlayer : RowsOf channels (filterAbilitiesByRetryPriority left retry) :=
      hleftRows.subset (filter_subset_self _)
    unfold getChannelForRequest
    rw [hvalue]
    generalize filterAbilitiesByRetryPriority left retry = rows at hlayer
    by_cases hempty : rows = []
    · subst hempty
      rfl
    · rw [if_neg fun h => hempty (map_eq_nil_iff.1 h)]
      obtain ⟨row, hrow, hpick⟩ := pickAbility_mem hempty (hrnd _ (sum_weights_pos hempty)).2
      obtain ⟨channel, hchannel, -⟩ := hlayer row hrow
      refine ⟨(row.1, channel), ?_, mem_map_of_mem hrow⟩
      show (if rows = [] then _ else _) = _
      rw [if_neg hempty, hpick, hchannel]
  · rw [ids_filterAbilitiesByRetryPriority hleftRows, hleft, hs]

end

end Rows

/-! ## The choice with the memory cache -/

/-- The channels that `GetRandomSatisfiedChannelForRequest` draws among; a single candidate is taken
without a draw. -/
def cachedLayer (cache : ChannelCache) (group model : String) (retry : ℕ) (excludedIDs : List ℤ)
    (cacheDomainFilter requestPath : String) : Except String (List Candidate) :=
  match groupChannels cache group model requestPath with
  | [] => .ok []
  | [id] =>
    match cache.channelsIDM.get? id with
    | none => .error (errInconsistent id)
    | some channel =>
      if cacheDomainFilter ≠ "" ∧ (channel.getCacheDomain id ≠ cacheDomainFilter ∨ id ∈ excludedIDs)
      then .ok []
      else .ok [(id, channel)]
  | channels =>
    (availableChannels cache channels excludedIDs cacheDomainFilter).map fun available =>
      targetChannels available retry

section Cached

variable {cache : ChannelCache} {cfg : ChannelRoutingConfig}

theorem picksFrom_weightedRandom {layer : List Candidate} {choose : (ℤ → ℤ) →
    Except String (Option Candidate)} (hempty : layer = [] → ∀ rnd, choose rnd = .ok none)
    (hsome : layer ≠ [] → ∀ rnd, choose rnd = (weightedRandomFromChannels rnd layer).map some) :
    PicksFrom (layer.map Prod.fst) choose := by
  intro rnd _
  by_cases hlayer : layer = []
  · rw [if_pos (by rw [hlayer]; rfl)]
    exact hempty hlayer rnd
  · rw [if_neg fun h => hlayer (map_eq_nil_iff.1 h), hsome hlayer]
    obtain ⟨c, hc, hok⟩ := weightedRandomBy_spec rnd Channel.getWeight hlayer
    refine ⟨c, ?_, mem_map_of_mem hc⟩
    rw [weightedRandomFromChannels, hok]
    rfl

theorem leftOf_singleton (domainOf : ℤ → String) (id : ℤ) (excludedIDs : List ℤ)
    (cacheDomainFilter : String) : leftOf domainOf {id} excludedIDs cacheDomainFilter =
      if cacheDomainFilter ≠ "" ∧ (domainOf id ≠ cacheDomainFilter ∨ id ∈ excludedIDs) then ∅
      else {id} := by
  unfold leftOf
  rw [Finset.filter_singleton]
  by_cases hfilter : cacheDomainFilter = ""
  · by_cases hid : id ∈ excludedIDs <;> simp [hfilter, hid]
  · by_cases hid : id ∈ excludedIDs <;> by_cases hdomain : domainOf id = cacheDomainFilter <;>
      simp [hfilter, hid, hdomain]

theorem selectSingle_eq (counts : ℤ → ℚ) {id : ℤ} {channel : Channel}
    (hchannel : cache.channelsIDM.get? id = some channel) (hprob : IsProbabilistic cfg channel)
    (excludedIDs : List ℤ) (cacheDomainFilter : String) :
    selectSingle cache cfg counts id excludedIDs cacheDomainFilter =
      .ok (if cacheDomainFilter ≠ "" ∧
          (channel.getCacheDomain id ≠ cacheDomainFilter ∨ id ∈ excludedIDs) then none
        else some (id, channel)) := by
  have hmode : ¬ resolveRoutingMode channel cfg.mode = routingModeCapacity := by
    rw [show resolveRoutingMode channel cfg.mode = _ from hprob]
    decide
  unfold selectSingle
  rw [hchannel]
  by_cases hfilter : cacheDomainFilter = ""
  · by_cases hid : id ∈ excludedIDs <;> simp [hfilter, hid, hmode]
  · by_cases hid : id ∈ excludedIDs <;>
      by_cases hdomain : channel.getCacheDomain id = cacheDomainFilter <;>
      simp [hfilter, hid, hdomain, hmode]

theorem cachedLayer_spec {group model requestPath : String} {s : Finset ℤ}
    (htable : IsTable cache cfg (groupChannels cache group model requestPath))
    (hs : (groupChannels cache group model requestPath).toFinset = s) (retry : ℕ)
    (excludedIDs : List ℤ) (cacheDomainFilter : String) (counts : ℤ → ℚ) :
    ∃ layer, cachedLayer cache group model retry excludedIDs cacheDomainFilter requestPath =
        .ok layer ∧
      PicksFrom (layer.map Prod.fst) (fun rnd => getRandomSatisfiedChannelForRequest cache cfg counts
        rnd group model retry excludedIDs cacheDomainFilter requestPath) ∧
      IsLayer cache.priorityOf cache.domainOf s retry excludedIDs cacheDomainFilter
        (layer.map Prod.fst) := by
  unfold cachedLayer getRandomSatisfiedChannelForRequest
  generalize groupChannels cache group model requestPath = channels at htable hs
  match channels, htable, hs with
  | [], _, hs =>
    refine ⟨[], rfl, fun rnd _ => rfl, fun id => ?_⟩
    subst hs
    simp [leftOf]
  | [id], htable, hs =>
    obtain ⟨channel, hchannel, hprob⟩ := htable id mem_cons_self
    have hlevel : Levels.IsLevel cache.priorityOf {id} retry (cache.priorityOf id) := by
      simp [Levels.IsLevel, Levels.rank]
    have hleft : leftOf cache.domainOf [id].toFinset excludedIDs cacheDomainFilter =
        if cacheDomainFilter ≠ "" ∧
          (channel.getCacheDomain id ≠ cacheDomainFilter ∨ id ∈ excludedIDs) then ∅ else {id} := by
      rw [toFinset_cons, toFinset_nil, insert_empty_eq, leftOf_singleton,
        ChannelCache.domainOf, hchannel, elim_some]
    dsimp only
    rw [hchannel]
    simp only [selectSingle_eq counts hchannel hprob]
    rw [← hs]
    unfold IsLayer
    rw [hleft]
    split_ifs
    · exact ⟨[], rfl, fun rnd _ => rfl, fun id' => by simp⟩
    · refine ⟨[(id, channel)], rfl, picksFrom_weightedRandom (fun hnil => by cases hnil)
        (fun _ rnd => ?_), fun id' => ?_⟩
      · obtain ⟨c, hc, hok⟩ := weightedRandomBy_spec rnd Channel.getWeight
          (cons_ne_nil (id, channel) [])
        rw [weightedRandomFromChannels, hok, List.mem_singleton.1 hc]
        rfl
      · rw [List.map_singleton, List.mem_singleton, Finset.mem_singleton]
        exact ⟨fun h => ⟨h, h ▸ hlevel⟩, fun h => h.1⟩
  | id :: id' :: ids, htable, hs =>
    obtain ⟨available, hok, hall, hset⟩ :=
      availableChannels_spec excludedIDs cacheDomainFilter htable
    rw [hs] at hset
    dsimp only
    rw [hok]
    refine ⟨targetChannels available retry, rfl, picksFrom_weightedRandom (fun hempty rnd => ?_)
      (fun hsome rnd => ?_), fun id => ?_⟩
    · have hnone : available = [] := by
        by_contra hne
        exact targetChannels_ne_nil hne retry hempty
      show selectAvailable cfg counts rnd group model available retry = .ok none
      unfold selectAvailable
      rw [if_pos hnone]
    · refine selectAvailable_eq counts rnd group model retry ?_ fun c hc => (hall c hc).2
      rintro rfl
      exact hsome rfl
    · rw [mem_targetChannels_iff (fun c hc => (hall c hc).1), hset]

end Cached

end BeeApi.Relay
