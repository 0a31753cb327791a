import BeeApi.Relay.Uncached

/-!
# The same candidates with and without the cache

A fresh cache and the table that `UpdateAbilities` builds offer the same channels for a group, a model
and a path, unless the cache finds a channel by the normalized name of the model, or the table misses
one that offers the model.  Then both choices draw among the channels of the same layer.
-/

namespace BeeApi.Relay

open List Option

/-! ## The rows of a fresh cache -/

theorem cachedRow_eq (env : ChannelEnv) (old : ChannelCache) (id : ℤ) (channel : Channel) :
    ∃ keys channelInfo, cachedRow env old id channel = { channel with keys, channelInfo } := by
  unfold cachedRow
  dsimp only
  split
  · split
    · split
      · exact ⟨_, _, rfl⟩
      · split <;> exact ⟨_, _, rfl⟩
    · exact ⟨_, _, rfl⟩
  · exact ⟨_, _, rfl⟩

section Fresh

variable {env : ChannelEnv} {old : ChannelCache} {channels : Table ℤ Channel}
  {group name model requestPath : String} {id : ℤ}

theorem get?_channelsIDM (env : ChannelEnv) (old : ChannelCache) (channels : Table ℤ Channel)
    (id : ℤ) : (initChannelCache env old channels).channelsIDM.get? id =
      (channels.get? id).map (cachedRow env old id) :=
  get?_mapRows channels _ id

theorem priorityOf_initChannelCache (id : ℤ) :
    (initChannelCache env old channels).priorityOf id = storedPriority channels id := by
  rw [ChannelCache.priorityOf, get?_channelsIDM, storedPriority]
  cases channels.get? id with
  | none => rfl
  | some channel =>
    obtain ⟨keys, info, heq⟩ := cachedRow_eq env old id channel
    rw [map_some, heq]
    rfl

theorem domainOf_initChannelCache (id : ℤ) :
    (initChannelCache env old channels).domainOf id = storedDomain channels id := by
  rw [ChannelCache.domainOf, get?_channelsIDM, storedDomain]
  cases channels.get? id with
  | none => rfl
  | some channel =>
    obtain ⟨keys, info, heq⟩ := cachedRow_eq env old id channel
    rw [map_some, heq]
    rfl

theorem mem_listKeys {channel : Channel} {key : String × String} :
    key ∈ listKeys channel ↔ key ∈ channelPairs channel := by
  rw [mem_channelPairs]
  unfold listKeys
  rw [mem_flatMap]
  constructor
  · rintro ⟨g, hg, hkey⟩
    obtain ⟨m, hm, rfl⟩ := mem_map.1 hkey
    exact ⟨hg, hm⟩
  · rintro ⟨hg, hm⟩
    exact ⟨key.1, hg, mem_map.2 ⟨key.2, hm, rfl⟩⟩

theorem mem_filterChannels_initChannelCache (hpath : requestPath ≠ "") :
    id ∈ filterChannelsByRequestPathAndModel (initChannelCache env old channels)
        (((initChannelCache env old channels).group2model2channels.get? (group, name)).getD [])
        requestPath model ↔
      ∃ channel, channels.get? id = some channel ∧
        Offers env group name requestPath model channel := by
  unfold filterChannelsByRequestPathAndModel
  rw [if_neg hpath, mem_filter]
  have hlist : id ∈ ((initChannelCache env old channels).group2model2channels.get?
      (group, name)).getD [] ↔ _ := mem_listOf_initChannelCache
  rw [hlist, get?_channelsIDM]
  have hconfig : ∀ channel, channels.get? id = some channel →
      (initChannelCache env old channels).channel2advancedCustomConfig id =
        if channel.type = channelTypeAdvancedCustom then env.advancedCustom channel.otherSettings
        else none := by
    intro channel hchannel
    unfold initChannelCache
    dsimp only
    rw [hchannel]
  have htype : ∀ channel, (cachedRow env old id channel).type = channel.type := by
    intro channel
    obtain ⟨keys, info, heq⟩ := cachedRow_eq env old id channel
    rw [heq]
  constructor
  · rintro ⟨⟨channel, hchannel, hstatus, hkey⟩, htakes⟩
    rw [hchannel, map_some] at htakes
    dsimp only at htakes
    rw [hconfig channel hchannel, htype] at htakes
    refine ⟨channel, hchannel, hstatus, mem_listKeys.1 hkey, ?_⟩
    by_cases hadvanced : channel.type = channelTypeAdvancedCustom
    · right
      simpa [hadvanced] using htakes
    · exact .inl hadvanced
  · rintro ⟨channel, hchannel, hstatus, hkey, htakes⟩
    refine ⟨⟨channel, hchannel, hstatus, mem_listKeys.2 hkey⟩, ?_⟩
    rw [hchannel, map_some]
    dsimp only
    rw [hconfig channel hchannel, htype]
    by_cases hadvanced : channel.type = channelTypeAdvancedCustom
    · simpa [hadvanced] using htakes.resolve_left (not_not.2 hadvanced)
    · simp [hadvanced]

/-- The candidates of a fresh cache: the channels that offer the model, or when there are none the
ones that offer its normalized name. -/
theorem mem_groupChannels_initChannelCache (hpath : requestPath ≠ "") :
    id ∈ groupChannels (initChannelCache env old channels) group model requestPath ↔
      (∃ channel, channels.get? id = some channel ∧
        Offers env group model requestPath model channel) ∨
      (∀ id' channel, channels.get? id' = some channel →
        ¬ Offers env group model requestPath model channel) ∧
      ∃ channel, channels.get? id = some channel ∧
        Offers env group (formatMatchingModelName model) requestPath model channel := by
  unfold groupChannels
  dsimp only
  split_ifs with hnone
  · have hnobody : ∀ id' channel, channels.get? id' = some channel →
        ¬ Offers env group model requestPath model channel := by
      intro id' channel hchannel hoffers
      have hmem : id' ∈ ([] : List ℤ) := by
        rw [← hnone]
        exact (mem_filterChannels_initChannelCache hpath).2 ⟨channel, hchannel, hoffers⟩
      cases hmem
    rw [mem_filterChannels_initChannelCache hpath]
    constructor
    · exact fun hmem => .inr ⟨hnobody, hmem⟩
    · rintro (⟨channel, hchannel, hoffers⟩ | ⟨-, hmem⟩)
      · exact absurd hoffers (hnobody id channel hchannel)
      · exact hmem
  · rw [mem_filterChannels_initChannelCache hpath]
    refine ⟨.inl, fun hmem => hmem.resolve_right fun hnobody => ?_⟩
    obtain ⟨id', hid'⟩ := exists_mem_of_ne_nil _ hnone
    obtain ⟨channel, hchannel, hoffers⟩ := (mem_filterChannels_initChannelCache hpath).1 hid'
    exact hnobody.1 id' channel hchannel hoffers

end Fresh

/-! ## When both agree -/

/-- The table has a row for every channel that offers the model, and when no channel does, none offers
its normalized name. -/
structure RoutedAlike (env : ChannelEnv) (channels : Table ℤ Channel)
    (group model requestPath : String) : Prop where
  found : ∀ id channel, channels.get? id = some channel →
    Offers env group model requestPath model channel → IsFound env group model channel
  named : (∃ id channel, channels.get? id = some channel ∧
      Offers env group model requestPath model channel) ∨
    ∀ id channel, channels.get? id = some channel →
      ¬ Offers env group (formatMatchingModelName model) requestPath model channel

/-- The two choices for a request draw among the same channels, and choose none together. -/
def DrawAlike (env : ChannelEnv) (cfg : ChannelRoutingConfig) (cache : ChannelCache)
    (channels : Table ℤ Channel) (abilities : Table (String × String × ℤ) Ability)
    (group model : String) (retry : ℕ) (excludedIDs : List ℤ)
    (cacheDomainFilter requestPath : String) : Prop :=
  ∃ layer rows,
    cachedLayer cache group model retry excludedIDs cacheDomainFilter requestPath = .ok layer ∧
    candidateAbilities env channels abilities group model retry excludedIDs cacheDomainFilter
      requestPath = .ok rows ∧
    (∀ id, id ∈ layer.map Prod.fst ↔ id ∈ rows.map Prod.fst) ∧
    ∀ counts rnd rnd', IsIntn rnd → IsIntn rnd' →
      (getRandomSatisfiedChannelForRequest cache cfg counts rnd group model retry excludedIDs
          cacheDomainFilter requestPath = .ok none ↔
        getChannelForRequest env channels abilities rnd' group model retry excludedIDs
          cacheDomainFilter requestPath = .ok none)

section Agreement

variable {env : ChannelEnv} {cfg : ChannelRoutingConfig} {old : ChannelCache}
  {channels : Table ℤ Channel} {abilities : Table (String × String × ℤ) Ability}
  {group model requestPath : String}

theorem same_groupChannels_iff (hpath : requestPath ≠ "") :
    (∀ id, id ∈ groupChannels (initChannelCache env old channels) group model requestPath ↔
      ∃ channel, channels.get? id = some channel ∧
        Offers env group model requestPath model channel ∧ IsFound env group model channel) ↔
      RoutedAlike env channels group model requestPath := by
  constructor
  · intro hall
    refine ⟨fun id channel hchannel hoffers => ?_, ?_⟩
    · have hmem : id ∈ groupChannels (initChannelCache env old channels) group model requestPath :=
        (mem_groupChannels_initChannelCache hpath).2 (.inl ⟨channel, hchannel, hoffers⟩)
      obtain ⟨channel', hchannel', -, hfound⟩ := (hall id).1 hmem
      rw [hchannel] at hchannel'
      exact some.inj hchannel' ▸ hfound
    · by_contra hnot
      rw [not_or] at hnot
      obtain ⟨hnobody, hsome⟩ := hnot
      push Not at hsome
      obtain ⟨id, channel, hchannel, hoffers⟩ := hsome
      have hnobody' : ∀ id' channel, channels.get? id' = some channel →
          ¬ Offers env group model requestPath model channel :=
        fun id' channel' hchannel' hoffers' => hnobody ⟨id', channel', hchannel', hoffers'⟩
      have hmem : id ∈ groupChannels (initChannelCache env old channels) group model requestPath :=
        (mem_groupChannels_initChannelCache hpath).2 (.inr ⟨hnobody', channel, hchannel, hoffers⟩)
      obtain ⟨channel', hchannel', hoffers', -⟩ := (hall id).1 hmem
      exact hnobody' id channel' hchannel' hoffers'
  · intro halike id
    rw [mem_groupChannels_initChannelCache hpath]
    constructor
    · rintro (⟨channel, hchannel, hoffers⟩ | ⟨hnobody, channel, hchannel, hoffers⟩)
      · exact ⟨channel, hchannel, hoffers, halike.found id channel hchannel hoffers⟩
      · obtain ⟨id', channel', hchannel', hoffers'⟩ | hnone := halike.named
        · exact absurd hoffers' (hnobody id' channel' hchannel')
        · exact absurd hoffers (hnone id channel hchannel)
    · rintro ⟨channel, hchannel, hoffers, -⟩
      exact .inl ⟨channel, hchannel, hoffers⟩

theorem PicksFrom.eq_none_iff {layer : List ℤ}
    {choose : (ℤ → ℤ) → Except String (Option Candidate)} (h : PicksFrom layer choose)
    {rnd : ℤ → ℤ} (hrnd : IsIntn rnd) : choose rnd = .ok none ↔ layer = [] := by
  have hpick := h rnd hrnd
  split_ifs at hpick with hlayer
  · exact ⟨fun _ => hlayer, fun _ => hpick⟩
  · obtain ⟨c, hc, -⟩ := hpick
    rw [hc]
    exact ⟨fun h => (by cases h), fun h => absurd h hlayer⟩

theorem isTable_groupChannels
    (hprob : ∀ id channel, channels.get? id = some channel → IsProbabilistic cfg channel)
    (hpath : requestPath ≠ "") : IsTable (initChannelCache env old channels) cfg
      (groupChannels (initChannelCache env old channels) group model requestPath) := by
  intro id hid
  obtain ⟨channel, hchannel⟩ : ∃ channel, channels.get? id = some channel := by
    rcases (mem_groupChannels_initChannelCache hpath).1 hid with ⟨channel, hchannel, -⟩ |
      ⟨-, channel, hchannel, -⟩ <;> exact ⟨channel, hchannel⟩
  refine ⟨cachedRow env old id channel, by rw [get?_channelsIDM, hchannel]; rfl, ?_⟩
  obtain ⟨keys, info, heq⟩ := cachedRow_eq env old id channel
  rw [heq]
  exact hprob id channel hchannel

/-- With the table that `UpdateAbilities` builds and probabilistic channels, the cache and the
database draw among the same channels and choose none together, exactly when the table has a row for
every channel that offers the model and, when no channel does, none offers its normalized name. -/
theorem same_candidates_iff
    (hprob : ∀ id channel, channels.get? id = some channel → IsProbabilistic cfg channel)
    (habilities : ∀ key, abilities.get? key = (buildAbilities channels).get? key)
    (hpath : requestPath ≠ "") :
    (∀ retry excludedIDs cacheDomainFilter, DrawAlike env cfg (initChannelCache env old channels)
      channels abilities group model retry excludedIDs cacheDomainFilter requestPath) ↔
      RoutedAlike env channels group model requestPath := by
  obtain ⟨s, hs⟩ : ∃ s, (groupChannels (initChannelCache env old channels) group model
      requestPath).toFinset = s := ⟨_, rfl⟩
  obtain ⟨s', hs'⟩ : ∃ s', ((filterAbilitiesByRequestPathAndModel env channels
      (enabledAbilities abilities group model) requestPath model).map Prod.fst).toFinset = s' :=
    ⟨_, rfl⟩
  have hsame : s = s' ↔ RoutedAlike env channels group model requestPath := by
    rw [← same_groupChannels_iff hpath, ← hs, ← hs', Finset.ext_iff]
    refine forall_congr' fun id => ?_
    rw [List.mem_toFinset, mem_ids_pathRows habilities hpath]
  have hpriority : (initChannelCache env old channels).priorityOf = storedPriority channels :=
    funext priorityOf_initChannelCache
  have hdomain : (initChannelCache env old channels).domainOf = storedDomain channels :=
    funext domainOf_initChannelCache
  have hcached := fun retry excludedIDs cacheDomainFilter counts =>
    cachedLayer_spec (isTable_groupChannels hprob hpath) hs retry excludedIDs cacheDomainFilter
      counts
  have hstored := fun retry excludedIDs cacheDomainFilter =>
    storedLayer_spec habilities hpath hs' retry excludedIDs cacheDomainFilter
  rw [hpriority, hdomain] at hcached
  rw [← hsame]
  constructor
  · -- every candidate is in the layer of its own priority
    intro hall
    have hlayers : ∀ retry id,
        id ∈ s ∧ Levels.IsLevel (storedPriority channels) s retry (storedPriority channels id) ↔
          id ∈ s' ∧ Levels.IsLevel (storedPriority channels) s' retry (storedPriority channels id) := by
      intro retry id
      obtain ⟨layer, rows, hok, hrows, hmem, -⟩ := hall retry [] ""
      obtain ⟨layer', hok', -, hlayer⟩ := hcached retry [] "" fun _ => 0
      obtain ⟨rows', hrows', -, hlayer'⟩ := hstored retry [] ""
      obtain rfl : layer' = layer := Except.ok.inj (hok'.symm.trans hok)
      obtain rfl : rows' = rows := Except.ok.inj (hrows'.symm.trans hrows)
      have hid := (hlayer id).symm.trans ((hmem id).trans (hlayer' id))
      rwa [leftOf_nil, leftOf_nil] at hid
    ext id
    constructor
    · intro hid
      exact ((hlayers _ id).1 ⟨hid, Levels.isLevel_rank hid⟩).1
    · intro hid
      exact ((hlayers _ id).2 ⟨hid, Levels.isLevel_rank hid⟩).1
  · rintro rfl retry excludedIDs cacheDomainFilter
    obtain ⟨rows, hrows, hpicks, hlayer⟩ := hstored retry excludedIDs cacheDomainFilter
    obtain ⟨layer, hok, -, hlayer'⟩ := hcached retry excludedIDs cacheDomainFilter fun _ => 0
    have hmem : ∀ id, id ∈ layer.map Prod.fst ↔ id ∈ rows.map Prod.fst := by
      intro id
      rw [hlayer' id, hlayer id]
    refine ⟨layer, rows, hok, hrows, hmem, fun counts rnd rnd' hrnd hrnd' => ?_⟩
    obtain ⟨layer₁, hok₁, hpicks₁, -⟩ := hcached retry excludedIDs cacheDomainFilter counts
    obtain rfl : layer₁ = layer := Except.ok.inj (hok₁.symm.trans hok)
    have hnil : layer₁.map Prod.fst = [] ↔ rows.map Prod.fst = [] := by
      simp only [eq_nil_iff_forall_not_mem, hmem]
    rw [hpicks₁.eq_none_iff hrnd, hpicks.eq_none_iff hrnd', hnil]

end Agreement

/-- A channel with a budget model under its normalized name. -/
def budgetChannels : Table ℤ Channel where
  rows := [(1, { models := "gemini-2.5-flash-thinking-*" })]
  nodup := by decide

def plainChannels : Table ℤ Channel where
  rows := [(1, { models := "gpt-4o", priority := some 5 }),
    (2, { models := "gpt-4o,o3", priority := some 3 })]
  nodup := by decide

/-- For a model that is named as it is, both draw channel 2 in the second attempt. -/
theorem same_candidates_of_plain :
    (candidateAbilities {} plainChannels (buildAbilities plainChannels) "default" "gpt-4o" 1 [] ""
      "/v1/chat/completions").map (fun rows => rows.map Prod.fst) = .ok [2] ∧
    DrawAlike {} {} (initChannelCache {} {} plainChannels) plainChannels
      (buildAbilities plainChannels) "default" "gpt-4o" 1 [] "" "/v1/chat/completions" := by
  have hrow : ∀ id channel, plainChannels.get? id = some channel →
      (id, channel) = (1, { models := "gpt-4o", priority := some 5 }) ∨
        (id, channel) = (2, { models := "gpt-4o,o3", priority := some 3 }) := by
    intro id channel hchannel
    have hmem := (Table.get?_eq_some_iff _ _ _).1 hchannel
    simpa only [plainChannels, mem_cons, not_mem_nil, or_false] using hmem
  have hprob : ∀ id channel, plainChannels.get? id = some channel → IsProbabilistic {} channel := by
    intro id channel hchannel
    rcases hrow id channel hchannel with h | h <;> obtain ⟨rfl, rfl⟩ := Prod.mk.inj h <;> decide
  have hplain : RoutedAlike {} plainChannels "default" "gpt-4o" "/v1/chat/completions" := by
    refine ⟨fun id channel hchannel _ => ?_, .inl ⟨1, _, rfl, rfl, ?_, .inl ?_⟩⟩
    · rcases hrow id channel hchannel with h | h <;> obtain ⟨rfl, rfl⟩ := Prod.mk.inj h <;>
        exact ⟨by decide +kernel, fun _ => rfl⟩
    · decide +kernel
    · decide
  exact ⟨by decide +kernel, (same_candidates_iff hprob (fun _ => rfl) (by decide)).2 hplain 1 [] ""⟩

theorem budget_model_not_found :
    getRandomSatisfiedChannelForRequest (initChannelCache {} {} budgetChannels) {} (fun _ => 0)
        (fun _ => 0) "default" "gemini-2.5-flash-thinking-128" 0 [] "" "/v1/chat/completions" =
      .ok (some (1, { models := "gemini-2.5-flash-thinking-*" })) ∧
    getChannelForRequest {} budgetChannels (buildAbilities budgetChannels) (fun _ => 0) "default"
        "gemini-2.5-flash-thinking-128" 0 [] "" "/v1/chat/completions" = .ok none := by
  constructor
  · decide +kernel
  · decide +kernel

end BeeApi.Relay
