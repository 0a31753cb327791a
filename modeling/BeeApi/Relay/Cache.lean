import BeeApi.Relay.Status

/-!
# The memory cache

`InitChannelCache` builds, for every group and every model that an enabled channel names, the list of
the channels that name them; `CacheUpdateChannelStatus` removes a channel that is disabled from the
lists in place.  A channel that names a group or a model twice is listed twice, and the removal takes
only the first entry.
-/

namespace BeeApi.Relay

open List Option Table Run

/-! ## Building the cache -/

/-- The lists that a channel is appended to: one entry for each group and each model. -/
def listKeys (channel : Channel) : List (String × String) :=
  (Strings.split channel.group ',').flatMap fun group =>
    (Strings.split channel.models ',').map fun model => (group, model)

def appendChannel (lists : Table (String × String) (List ℤ)) (key : String × String) (id : ℤ) :
    Table (String × String) (List ℤ) :=
  lists.put key ((lists.get? key).getD [] ++ [id])

def collectChannels (channels : List Candidate) : Table (String × String) (List ℤ) :=
  channels.foldl (fun lists c =>
    if c.2.status ≠ channelStatusEnabled then lists
    else (listKeys c.2).foldl (fun lists key => appendChannel lists key c.1) lists) ∅

/-- The row in the cache: a channel with several keys has its keys, and keeps the polling index of the
old cache when it polls. -/
def cachedRow (env : ChannelEnv) (old : ChannelCache) (id : ℤ) (channel : Channel) : Channel :=
  if channel.channelInfo.isMultiKey then
    let channel := { channel with keys := channel.getKeys env.rawArray }
    if channel.channelInfo.multiKeyMode = multiKeyModePolling then
      match old.channelsIDM.get? id with
      | none => channel
      | some oldChannel =>
        if oldChannel.channelInfo.isMultiKey ∧
            oldChannel.channelInfo.multiKeyMode = multiKeyModePolling then
          { channel with channelInfo := { channel.channelInfo with
              multiKeyPollingIndex := oldChannel.channelInfo.multiKeyPollingIndex } }
        else channel
    else channel
  else channel

def mapRows (channels : Table ℤ Channel) (f : ℤ → Channel → Channel) : Table ℤ Channel where
  rows := channels.rows.map fun c => (c.1, f c.1 c.2)
  nodup := by
    rw [List.map_map]
    exact channels.nodup

/-- `InitChannelCache`; the order of channels with the same priority is not specified. -/
def initChannelCache (env : ChannelEnv) (old : ChannelCache) (channels : Table ℤ Channel) :
    ChannelCache where
  group2model2channels :=
    (collectChannels channels.rows).updateWhere (fun _ _ => true) fun ids =>
      ids.insertionSort fun a b =>
        ((channels.get? b).elim 0 Channel.getPriority) ≤ (channels.get? a).elim 0 Channel.getPriority
  channelsIDM := mapRows channels (cachedRow env old)
  channel2advancedCustomConfig := fun id =>
    match channels.get? id with
    | none => none
    | some channel =>
      if channel.type = channelTypeAdvancedCustom then env.advancedCustom channel.otherSettings
      else none

def isChannelEnabledForGroupModel (cache : ChannelCache) (group modelName : String) (channelID : ℤ) :
    Bool :=
  if group = "" ∨ modelName = "" ∨ channelID ≤ 0 then false
  else if channelID ∈ (cache.group2model2channels.get? (group, modelName)).getD [] then true
  else
    let normalized := formatMatchingModelName modelName
    if normalized ≠ "" ∧ normalized ≠ modelName then
      channelID ∈ (cache.group2model2channels.get? (group, normalized)).getD []
    else false

def IsEnabled (cache : ChannelCache) (id : ℤ) : Prop :=
  ∃ channel, cache.channelsIDM.get? id = some channel ∧ channel.status = channelStatusEnabled

def OffersEnabled (cache : ChannelCache) : Prop :=
  ∀ key ids, cache.group2model2channels.get? key = some ids → ∀ id ∈ ids, IsEnabled cache id

def ListedOnce (cache : ChannelCache) (id : ℤ) : Prop :=
  ∀ key ids, cache.group2model2channels.get? key = some ids → ids.count id ≤ 1

theorem get?_mapRows (channels : Table ℤ Channel) (f : ℤ → Channel → Channel) (id : ℤ) :
    (mapRows channels f).get? id = (channels.get? id).map (f id) := by
  cases h : channels.get? id with
  | none =>
    rw [map_none, get?_eq_none_iff]
    rw [get?_eq_none_iff] at h
    intro hmem
    apply h
    simpa [mapRows, Table.keys] using hmem
  | some channel =>
    rw [map_some, get?_eq_some_iff]
    rw [get?_eq_some_iff] at h
    exact mem_map.2 ⟨(id, channel), h, rfl⟩

/-! ## What the cache lists -/

/-- The list of a group and a model; without a list there are no channels. -/
def listOf (lists : Table (String × String) (List ℤ)) (key : String × String) : List ℤ :=
  (lists.get? key).getD []

theorem listOf_appendChannel (lists : Table (String × String) (List ℤ)) (key key' : String × String)
    (id : ℤ) : listOf (appendChannel lists key id) key' =
      listOf lists key' ++ if key = key' then [id] else [] := by
  unfold listOf appendChannel
  rw [get?_put]
  split
  · rename_i hkey
    rw [if_pos hkey.symm, hkey]
    rfl
  · rename_i hkey
    rw [if_neg (Ne.symm hkey), append_nil]

theorem listOf_foldl_appendChannel (keys : List (String × String))
    (lists : Table (String × String) (List ℤ)) (key : String × String) (id : ℤ) :
    listOf (keys.foldl (fun lists key => appendChannel lists key id) lists) key =
      listOf lists key ++ List.replicate (keys.count key) id := by
  induction keys generalizing lists with
  | nil => simp
  | cons k keys ih =>
    rw [foldl_cons, ih, listOf_appendChannel, append_assoc, count_cons]
    by_cases hkey : k = key
    · simp [hkey, replicate_succ]
    · simp [hkey]

theorem listOf_collectChannels (channels : List Candidate) (key : String × String) :
    listOf (collectChannels channels) key = channels.flatMap fun c =>
      if c.2.status ≠ channelStatusEnabled then []
      else List.replicate ((listKeys c.2).count key) c.1 := by
  have hfold : ∀ lists : Table (String × String) (List ℤ), listOf (channels.foldl (fun lists c =>
        if c.2.status ≠ channelStatusEnabled then lists
        else (listKeys c.2).foldl (fun lists key => appendChannel lists key c.1) lists) lists) key =
      listOf lists key ++ channels.flatMap fun c =>
        if c.2.status ≠ channelStatusEnabled then []
        else List.replicate ((listKeys c.2).count key) c.1 := by
    induction channels with
    | nil => simp
    | cons c channels ih =>
      intro lists
      rw [foldl_cons, ih, flatMap_cons]
      split_ifs
      · rfl
      · rw [listOf_foldl_appendChannel, append_assoc]
  exact hfold ∅

theorem listOf_initChannelCache_perm (env : ChannelEnv) (old : ChannelCache)
    (channels : Table ℤ Channel) (key : String × String) :
    (listOf (initChannelCache env old channels).group2model2channels key).Perm
      (listOf (collectChannels channels.rows) key) := by
  unfold listOf initChannelCache
  rw [get?_updateWhere]
  cases (collectChannels channels.rows).get? key with
  | none => rfl
  | some ids => exact perm_insertionSort _ ids

variable {env : ChannelEnv} {id : ℤ} {key : String × String} {channel : Channel}
  {cache : ChannelCache} {call : StatusCall} {s : ChannelState}

theorem mem_listOf_initChannelCache {old : ChannelCache} {channels : Table ℤ Channel} :
    id ∈ listOf (initChannelCache env old channels).group2model2channels key ↔
      ∃ channel, channels.get? id = some channel ∧ channel.status = channelStatusEnabled ∧
        key ∈ listKeys channel := by
  rw [(listOf_initChannelCache_perm env old channels key).mem_iff, listOf_collectChannels,
    mem_flatMap]
  constructor
  · rintro ⟨c, hc, hid⟩
    split_ifs at hid with hstatus
    · cases hid
    · obtain ⟨hne, rfl⟩ := mem_replicate.1 hid
      refine ⟨c.2, (get?_eq_some_iff _ _ _).2 hc, not_not.1 hstatus, ?_⟩
      exact count_pos_iff.1 (Nat.pos_of_ne_zero hne)
  · rintro ⟨channel, hchannel, hstatus, hkey⟩
    refine ⟨(id, channel), (get?_eq_some_iff _ _ _).1 hchannel, ?_⟩
    rw [if_neg (not_not.2 hstatus)]
    exact mem_replicate.2 ⟨(count_pos_iff.2 hkey).ne', rfl⟩

@[simp] theorem cachedRow_status (env : ChannelEnv) (old : ChannelCache) (id : ℤ)
    (channel : Channel) : (cachedRow env old id channel).status = channel.status := by
  unfold cachedRow
  dsimp only
  split
  · split
    · split
      · rfl
      · split <;> rfl
    · rfl
  · rfl

theorem mem_listOf {lists : Table (String × String) (List ℤ)} :
    id ∈ listOf lists key ↔ ∃ ids, lists.get? key = some ids ∧ id ∈ ids := by
  unfold listOf
  cases h : lists.get? key <;> simp

theorem offersEnabled_iff :
    OffersEnabled cache ↔
      ∀ key, ∀ id ∈ listOf cache.group2model2channels key, IsEnabled cache id := by
  constructor
  · intro h key id hid
    obtain ⟨ids, hids, hmem⟩ := mem_listOf.1 hid
    exact h key ids hids id hmem
  · intro h key ids hids id hid
    exact h key id (mem_listOf.2 ⟨ids, hids, hid⟩)

/-! ## Steps of the cache -/

theorem offersEnabled_empty : OffersEnabled {} := by
  intro key ids hids
  cases hids

theorem offersEnabled_initChannelCache (env : ChannelEnv) (old : ChannelCache)
    (channels : Table ℤ Channel) : OffersEnabled (initChannelCache env old channels) := by
  rw [offersEnabled_iff]
  intro key id hid
  obtain ⟨channel, hchannel, hstatus, -⟩ := mem_listOf_initChannelCache.1 hid
  refine ⟨cachedRow env old id channel, ?_, by rw [cachedRow_status, hstatus]⟩
  exact (get?_mapRows _ _ _).trans (by rw [hchannel]; rfl)

theorem offersEnabled_modify {f : Channel → Channel}
    (hf : ∀ channel, cache.channelsIDM.get? id = some channel → (f channel).status = channel.status)
    : OffersEnabled { cache with channelsIDM := cache.channelsIDM.modify id f } ↔
      OffersEnabled cache := by
  have henabled : ∀ id', IsEnabled { cache with channelsIDM := cache.channelsIDM.modify id f } id' ↔
      IsEnabled cache id' := by
    intro id'
    unfold IsEnabled
    rw [get?_modify]
    split_ifs with hid
    · subst hid
      cases h : cache.channelsIDM.get? id' with
      | none => simp
      | some channel => simp [hf channel h]
    · rfl
  unfold OffersEnabled
  simp only [henabled]

theorem isEnabled_cacheUpdate {status id' : ℤ} :
    IsEnabled (cacheUpdateChannelStatus cache id status) id' ↔
      if id' = id then status = channelStatusEnabled ∧ id ∈ cache.channelsIDM.keys
      else IsEnabled cache id' := by
  unfold IsEnabled cacheUpdateChannelStatus
  rw [get?_modify]
  split_ifs with hid
  · rw [hid, mem_keys_iff]
    cases h : cache.channelsIDM.get? id with
    | none => simp
    | some channel => simp
  · rfl

theorem mem_listOf_cacheUpdate {status : ℤ} {id' : ℤ} (hstatus : status ≠ channelStatusEnabled) :
    id' ∈ listOf (cacheUpdateChannelStatus cache id status).group2model2channels key ↔
      id' ∈ (listOf cache.group2model2channels key).erase id := by
  unfold listOf cacheUpdateChannelStatus
  rw [if_neg hstatus, get?_updateWhere]
  cases cache.group2model2channels.get? key <;> simp

theorem offersEnabled_cacheUpdate (h : OffersEnabled cache) (id status : ℤ) :
    OffersEnabled (cacheUpdateChannelStatus cache id status) ↔
      status = channelStatusEnabled ∨ ListedOnce cache id := by
  rw [offersEnabled_iff]
  rw [offersEnabled_iff] at h
  by_cases hstatus : status = channelStatusEnabled
  · refine ⟨fun _ => .inl hstatus, fun _ key id' hid' => ?_⟩
    have hlist : (cacheUpdateChannelStatus cache id status).group2model2channels =
        cache.group2model2channels := if_pos hstatus
    rw [hlist] at hid'
    have henabled := h key id' hid'
    rw [isEnabled_cacheUpdate]
    split_ifs with hid
    · refine ⟨hstatus, (mem_keys_iff _ _).2 ?_⟩
      obtain ⟨channel, hchannel, -⟩ := henabled
      exact ⟨channel, hid ▸ hchannel⟩
    · exact henabled
  constructor
  · intro hoffers
    refine .inr fun key ids hids => ?_
    by_contra htwice
    -- one of the two entries is left, and the channel is disabled
    have hleft : id ∈ (listOf cache.group2model2channels key).erase id := by
      rw [← count_pos_iff, count_erase_self, listOf, hids, getD_some]
      omega
    have henabled := hoffers key id ((mem_listOf_cacheUpdate hstatus).2 hleft)
    rw [isEnabled_cacheUpdate, if_pos rfl] at henabled
    exact hstatus henabled.1
  · rintro (hen | honce) key id' hid'
    · exact absurd hen hstatus
    · rw [mem_listOf_cacheUpdate hstatus] at hid'
      have hne : id' ≠ id := by
        rintro rfl
        rw [← count_pos_iff, count_erase_self] at hid'
        cases hids : cache.group2model2channels.get? key with
        | none => simp [listOf, hids] at hid'
        | some ids =>
          have := honce key ids hids
          rw [listOf, hids, getD_some] at hid'
          omega
      rw [isEnabled_cacheUpdate, if_neg hne]
      exact h key id' (mem_of_mem_erase hid')

def calledStatus (env : ChannelEnv) (channel : Channel) (call : StatusCall) : ℤ :=
  if channel.channelInfo.isMultiKey then (handlerMultiKeyUpdate env channel call).status
  else call.status

def CallListedOnce (env : ChannelEnv) (cache : ChannelCache) (call : StatusCall) : Prop :=
  ∀ channel, cache.channelsIDM.get? call.channelId = some channel →
    calledStatus env channel call = channel.status ∨
      calledStatus env channel call = channelStatusEnabled ∨ ListedOnce cache call.channelId

theorem cacheUpdate_modify (cache : ChannelCache) (id : ℤ) (status : ℤ) (updated : Channel) :
    cacheUpdateChannelStatus
        { cache with channelsIDM := cache.channelsIDM.modify id fun _ => updated } id updated.status =
      cacheUpdateChannelStatus { cache with
        channelsIDM := cache.channelsIDM.modify id fun _ => { updated with status := status } } id
        updated.status := by
  unfold cacheUpdateChannelStatus
  rw [modify_modify, modify_modify]

theorem offersEnabled_updateCachedStatus {cache' : ChannelCache} (h : OffersEnabled cache)
    (hu : updateCachedStatus env cache call = some cache') :
    OffersEnabled cache' ↔ CallListedOnce env cache call := by
  unfold updateCachedStatus at hu
  unfold CallListedOnce calledStatus
  cases hchannel : cache.channelsIDM.get? call.channelId with
  | none =>
    rw [hchannel] at hu
    cases hu
  | some channel =>
    rw [hchannel] at hu
    dsimp only at hu
    simp only [some.injEq, forall_eq']
    by_cases hmulti : channel.channelInfo.isMultiKey = true
    · rw [if_pos hmulti] at hu ⊢
      generalize handlerMultiKeyUpdate env channel call = updated at hu ⊢
      by_cases hsame : channel.status = updated.status
      · rw [if_neg (not_not.2 hsame)] at hu
        cases hu
        refine ⟨fun _ => .inl hsame.symm, fun _ => (offersEnabled_modify fun c hc => ?_).2 h⟩
        rw [hchannel] at hc
        rw [← some.inj hc, hsame]
      · rw [if_pos hsame] at hu
        cases hu
        rw [cacheUpdate_modify cache call.channelId channel.status updated,
          offersEnabled_cacheUpdate ((offersEnabled_modify fun c hc => ?_).2 h), or_iff_right
          (Ne.symm hsame)]
        · rfl
        · rw [hchannel] at hc
          rw [← some.inj hc]
    · rw [if_neg hmulti] at hu ⊢
      split at hu
      · cases hu
      · rename_i hsame
        cases hu
        rw [offersEnabled_cacheUpdate h, or_iff_right (Ne.symm hsame)]

/-! ## Runs -/

/-- What happens to the memory cache: it is built, a status is written into it, `UpdateChannelStatus` is
called, or other code writes the channels of the database. -/
inductive CacheStep where
  | initChannelCache
  | cacheUpdateChannelStatus (id status : ℤ)
  | updateChannelStatus (call : StatusCall)
  | write (channels : Table ℤ Channel)

def cacheStep (env : ChannelEnv) (s : ChannelState) : CacheStep → Option ChannelState
  | .initChannelCache => some { s with cache := initChannelCache env s.cache s.channels }
  | .cacheUpdateChannelStatus id status =>
    some { s with cache := cacheUpdateChannelStatus s.cache id status }
  | .updateChannelStatus call => some (updateChannelStatus env s call).1
  | .write channels => some { s with channels := channels }

def DisabledListedOnce (env : ChannelEnv) (s : ChannelState) : CacheStep → Prop
  | .cacheUpdateChannelStatus id status => status = channelStatusEnabled ∨ ListedOnce s.cache id
  | .updateChannelStatus call => CallListedOnce env s.cache call
  | _ => True

def Enables (id : ℤ) : CacheStep → Prop
  | .initChannelCache => False
  | .cacheUpdateChannelStatus id' status => id' = id ∧ status = channelStatusEnabled
  | .updateChannelStatus call => call.channelId = id ∧ call.status = channelStatusEnabled
  | .write channels =>
    ∃ channel, channels.get? id = some channel ∧ channel.status = channelStatusEnabled

theorem updateStoredStatus_cache (env : ChannelEnv) (s : ChannelState) (call : StatusCall) :
    (updateStoredStatus env s call).1.cache = s.cache := by
  unfold updateStoredStatus
  cases s.channels.get? call.channelId with
  | none => rfl
  | some channel =>
    dsimp only
    cases updatedStatusRow env channel call <;> rfl

theorem updateChannelStatus_cache (henv : env.memoryCacheEnabled = true) (s : ChannelState)
    (call : StatusCall) :
    (updateChannelStatus env s call).1.cache =
      (updateCachedStatus env s.cache call).getD s.cache := by
  unfold updateChannelStatus
  rw [if_pos henv]
  cases updateCachedStatus env s.cache call with
  | none => rfl
  | some cache => exact updateStoredStatus_cache env _ call

theorem offersEnabled_step (henv : env.memoryCacheEnabled = true) {s' : ChannelState}
    {a : CacheStep} (h : OffersEnabled s.cache) (hs : cacheStep env s a = some s') :
    OffersEnabled s'.cache ↔ DisabledListedOnce env s a := by
  cases a with
  | initChannelCache =>
    cases hs
    exact ⟨fun _ => trivial, fun _ => offersEnabled_initChannelCache env s.cache s.channels⟩
  | cacheUpdateChannelStatus id status =>
    cases hs
    exact offersEnabled_cacheUpdate h id status
  | updateChannelStatus call =>
    cases hs
    rw [updateChannelStatus_cache henv]
    cases hu : updateCachedStatus env s.cache call with
    | some cache => exact offersEnabled_updateCachedStatus h hu
    | none =>
      -- the status is the one that the channel has, or there is no channel
      refine ⟨fun _ channel hchannel => .inl ?_, fun _ => h⟩
      unfold updateCachedStatus at hu
      rw [hchannel] at hu
      dsimp only at hu
      unfold calledStatus
      by_cases hmulti : channel.channelInfo.isMultiKey = true
      · rw [if_pos hmulti] at hu
        split at hu <;> cases hu
      · rw [if_neg hmulti] at hu ⊢
        by_contra hne
        rw [if_neg (Ne.symm hne)] at hu
        cases hu
  | write channels =>
    cases hs
    exact ⟨fun _ => trivial, fun _ => h⟩

def NeverYields (cache : ChannelCache) (id : ℤ) : Prop :=
  (∀ cfg counts rnd group model retry excludedIDs cacheDomainFilter requestPath channel,
    getRandomSatisfiedChannelForRequest cache cfg counts rnd group model retry excludedIDs
      cacheDomainFilter requestPath ≠ .ok (some (id, channel))) ∧
    ∀ group modelName, isChannelEnabledForGroupModel cache group modelName id = false

theorem mem_listOf_of_mem_groupChannels {group model requestPath : String}
    (h : id ∈ groupChannels cache group model requestPath) :
    ∃ name, id ∈ listOf cache.group2model2channels (group, name) := by
  have hfilter : ∀ name, id ∈ filterChannelsByRequestPathAndModel cache
      ((cache.group2model2channels.get? (group, name)).getD []) requestPath model →
      id ∈ listOf cache.group2model2channels (group, name) := by
    intro name hmem
    unfold filterChannelsByRequestPathAndModel at hmem
    split at hmem
    · exact hmem
    · exact (mem_filter.1 hmem).1
  unfold groupChannels at h
  dsimp only at h
  split at h
  · exact ⟨formatMatchingModelName model, hfilter _ h⟩
  · exact ⟨model, hfilter _ h⟩

theorem neverYields_of_not_enabled (h : OffersEnabled cache) (hid : ¬ IsEnabled cache id) :
    NeverYields cache id := by
  rw [offersEnabled_iff] at h
  refine ⟨fun cfg counts rnd group model retry excludedIDs filter path channel hok => ?_,
    fun group modelName => ?_⟩
  · obtain ⟨name, hname⟩ := mem_listOf_of_mem_groupChannels (getRandomSatisfiedChannel_mem hok).1
    exact hid (h _ id hname)
  · have hnot : ∀ name, id ∉ (cache.group2model2channels.get? (group, name)).getD [] :=
      fun name hname => hid (h (group, name) id hname)
    unfold isChannelEnabledForGroupModel
    simp [hnot]

/-! ## Disabled channels -/

structure IsDisabled (s : ChannelState) (id : ℤ) : Prop where
  cached : ¬ IsEnabled s.cache id
  stored : ∀ channel, s.channels.get? id = some channel → channel.status ≠ channelStatusEnabled

/-- The call is about the whole channel: one with several keys is named without a key. -/
def WholeChannel (s : ChannelState) (call : StatusCall) : Prop :=
  call.usingKey = "" ∨ (∀ channel, s.cache.channelsIDM.get? call.channelId = some channel →
      channel.channelInfo.isMultiKey = false) ∧
    ∀ channel, s.channels.get? call.channelId = some channel →
      channel.channelInfo.isMultiKey = false

theorem calledStatus_of_wholeChannel
    (h : call.usingKey = "" ∨ channel.channelInfo.isMultiKey = false) :
    calledStatus env channel call = call.status := by
  unfold calledStatus
  split_ifs with hmulti
  · have hkey : call.usingKey = "" := h.resolve_right (by simp [hmulti])
    unfold handlerMultiKeyUpdate
    dsimp only
    split_ifs <;> rfl
  · rfl

theorem calledStatus_ne_enabled (hcall : call.status ≠ channelStatusEnabled)
    (hchannel : channel.status ≠ channelStatusEnabled) :
    calledStatus env channel call ≠ channelStatusEnabled := by
  unfold calledStatus
  split_ifs
  · obtain h | h | h := handlerMultiKeyUpdate_status env channel call <;> rw [h]
    · exact hcall
    · exact hchannel
    · decide
  · exact hcall

theorem updatedStatusRow_status {updated : Channel} {b : Bool}
    (h : updatedStatusRow env channel call = some (updated, b)) :
    updated.status = calledStatus env channel call := by
  unfold updatedStatusRow at h
  unfold calledStatus
  split_ifs at h <;> dsimp only at h <;> cases h
  all_goals split_ifs <;> simp_all

theorem isEnabled_updateCachedStatus {cache' : ChannelCache}
    (h : updateCachedStatus env cache call = some cache') :
    IsEnabled cache' id ↔
      if id = call.channelId then ∃ channel, cache.channelsIDM.get? id = some channel ∧
        calledStatus env channel call = channelStatusEnabled
      else IsEnabled cache id := by
  unfold updateCachedStatus at h
  cases hchannel : cache.channelsIDM.get? call.channelId with
  | none =>
    rw [hchannel] at h
    cases h
  | some channel =>
    have hkey : call.channelId ∈ cache.channelsIDM.keys := (mem_keys_iff _ _).2 ⟨channel, hchannel⟩
    rw [hchannel] at h
    dsimp only at h
    have hmodify : ∀ updated : Channel,
        IsEnabled { cache with channelsIDM := cache.channelsIDM.modify call.channelId fun _ => updated }
            id ↔ if id = call.channelId then updated.status = channelStatusEnabled
          else IsEnabled cache id := by
      intro updated
      unfold IsEnabled
      rw [get?_modify]
      split_ifs with hid
      · rw [hid, hchannel]
        simp
      · rfl
    unfold calledStatus
    split at h
    · rename_i hmulti
      have hif : (if id = call.channelId then ∃ channel, cache.channelsIDM.get? id = some channel ∧
          (if channel.channelInfo.isMultiKey then (handlerMultiKeyUpdate env channel call).status
            else call.status) = channelStatusEnabled else IsEnabled cache id) ↔
          if id = call.channelId then
            (handlerMultiKeyUpdate env channel call).status = channelStatusEnabled
          else IsEnabled cache id := by
        split_ifs with hid
        · simp [hid, hchannel, hmulti]
        · rfl
      rw [hif]
      generalize handlerMultiKeyUpdate env channel call = updated at h
      by_cases hsame : channel.status = updated.status
      · rw [if_neg (not_not.2 hsame)] at h
        cases h
        exact hmodify updated
      · rw [if_pos hsame] at h
        cases h
        rw [isEnabled_cacheUpdate, hmodify updated]
        split_ifs
        · refine and_iff_left ((mem_keys_iff _ _).2 ⟨updated, ?_⟩)
          rw [get?_modify, if_pos rfl, hchannel]
          rfl
        · rfl
    · rename_i hmulti
      split_ifs at h
      cases h
      rw [isEnabled_cacheUpdate]
      split_ifs with hid
      · simp [hid, hchannel, hmulti, hkey]
      · rfl

theorem isDisabled_of_updateChannelStatus (henv : env.memoryCacheEnabled = true)
    (hstatus : call.status ≠ channelStatusEnabled) (hwhole : WholeChannel s call)
    (h : (updateChannelStatus env s call).2 = true) :
    IsDisabled (updateChannelStatus env s call).1 call.channelId := by
  unfold updateChannelStatus at h ⊢
  rw [if_pos henv] at h ⊢
  cases hu : updateCachedStatus env s.cache call with
  | none =>
    rw [hu] at h
    cases h
  | some cache =>
    rw [hu] at h
    dsimp only at h ⊢
    constructor
    · rw [updateStoredStatus_cache]
      rw [isEnabled_updateCachedStatus hu, if_pos rfl]
      rintro ⟨channel, hchannel, hcalled⟩
      rw [calledStatus_of_wholeChannel (hwhole.imp_right fun hw => hw.1 channel hchannel)] at hcalled
      exact hstatus hcalled
    · intro channel' hchannel'
      unfold updateStoredStatus at h hchannel'
      cases hchannel : s.channels.get? call.channelId with
      | none =>
        rw [hchannel] at h
        cases h
      | some channel =>
        rw [hchannel] at h hchannel'
        dsimp only at h hchannel'
        cases hrow : updatedStatusRow env channel call with
        | none =>
          rw [hrow] at h
          cases h
        | some r =>
          obtain ⟨updated, b⟩ := r
          rw [hrow] at h hchannel'
          dsimp only at h hchannel'
          rw [if_pos h, saveWithoutKey, get?_modify, if_pos rfl, hchannel, map_some,
            some.injEq] at hchannel'
          rw [← hchannel']
          rw [updatedStatusRow_status hrow,
            calledStatus_of_wholeChannel (hwhole.imp_right fun hw => hw.2 channel hchannel)]
          exact hstatus

theorem IsDisabled.step (henv : env.memoryCacheEnabled = true) {s' : ChannelState} {a : CacheStep}
    (h : IsDisabled s id) (ha : ¬ Enables id a) (hs : cacheStep env s a = some s') :
    IsDisabled s' id := by
  cases a with
  | initChannelCache =>
    cases hs
    refine ⟨?_, h.stored⟩
    rintro ⟨channel, hchannel, hstatus⟩
    rw [initChannelCache, get?_mapRows] at hchannel
    obtain ⟨row, hrow, rfl⟩ := map_eq_some_iff.1 hchannel
    rw [cachedRow_status] at hstatus
    exact h.stored row hrow hstatus
  | cacheUpdateChannelStatus id' status =>
    cases hs
    refine ⟨?_, h.stored⟩
    rw [isEnabled_cacheUpdate]
    split_ifs with hid
    · exact fun hen => ha ⟨hid.symm, hen.1⟩
    · exact h.cached
  | write channels =>
    cases hs
    exact ⟨h.cached, fun channel hchannel hstatus => ha ⟨channel, hchannel, hstatus⟩⟩
  | updateChannelStatus call =>
    cases hs
    have hcall : call.channelId = id → call.status ≠ channelStatusEnabled :=
      fun hid hstatus => ha ⟨hid, hstatus⟩
    constructor
    · rw [updateChannelStatus_cache henv]
      cases hu : updateCachedStatus env s.cache call with
      | none => exact h.cached
      | some cache =>
        rw [getD_some, isEnabled_updateCachedStatus hu]
        split_ifs with hid
        · rintro ⟨channel, hchannel, hcalled⟩
          exact calledStatus_ne_enabled (hcall hid.symm)
            (fun hstatus => h.cached ⟨channel, hchannel, hstatus⟩) hcalled
        · exact h.cached
    · have hstored : ∀ s₁ : ChannelState, s₁.channels = s.channels → ∀ channel,
          (updateStoredStatus env s₁ call).1.channels.get? id = some channel →
            channel.status ≠ channelStatusEnabled := by
        intro s₁ hs₁ channel hchannel
        unfold updateStoredStatus at hchannel
        rw [hs₁] at hchannel
        cases hrow : s.channels.get? call.channelId with
        | none =>
          rw [hrow] at hchannel
          exact h.stored channel (hs₁ ▸ hchannel)
        | some row =>
          rw [hrow] at hchannel
          dsimp only at hchannel
          cases hupdated : updatedStatusRow env row call with
          | none =>
            rw [hupdated] at hchannel
            exact h.stored channel (hs₁ ▸ hchannel)
          | some r =>
            rw [hupdated] at hchannel
            dsimp only at hchannel
            split_ifs at hchannel
            · rw [saveWithoutKey, get?_modify] at hchannel
              split_ifs at hchannel with hid
              · rw [hid, hrow, map_some, some.injEq] at hchannel
                rw [← hchannel]
                rw [updatedStatusRow_status hupdated]
                exact calledStatus_ne_enabled (hcall hid.symm) (h.stored row (hid ▸ hrow))
              · exact h.stored channel hchannel
            · exact h.stored channel hchannel
      unfold updateChannelStatus
      rw [if_pos henv]
      cases updateCachedStatus env s.cache call with
      | none => exact h.stored
      | some cache => exact hstored _ rfl

/-! ## The routing cache -/

/-- In every state of a run from the start of the process every listed channel is enabled exactly
when every channel that a step disables is listed once at most; then a channel that
`UpdateChannelStatus` has disabled is yielded by no function of the cache until it is enabled. -/
theorem cache_offers_enabled_iff {env : ChannelEnv} (henv : env.memoryCacheEnabled = true)
    (channels : Table ℤ Channel) (abilities : Table (String × String × ℤ) Ability)
    (steps : List CacheStep) :
    (Run.Along (cacheStep env)
        (fun s a => ∀ s', cacheStep env s a = some s' → OffersEnabled s'.cache)
        { channels, abilities } steps ↔
      Run.Along (cacheStep env) (DisabledListedOnce env) { channels, abilities } steps) ∧
    (Run.Along (cacheStep env) (DisabledListedOnce env) { channels, abilities } steps →
      ∀ before call after, steps = before ++ CacheStep.updateChannelStatus call :: after →
      ∀ s, Run.run (cacheStep env) { channels, abilities } before = some s →
      call.status ≠ channelStatusEnabled → WholeChannel s call →
      (updateChannelStatus env s call).2 = true →
      (∀ a ∈ after, ¬ Enables call.channelId a) →
      ∀ s', Run.run (cacheStep env) { channels, abilities } steps = some s' →
        NeverYields s'.cache call.channelId) := by
  have hempty : OffersEnabled ({ channels, abilities } : ChannelState).cache := offersEnabled_empty
  constructor
  · exact along_post_iff (I := fun _ => True) (fun _ _ _ _ _ => trivial)
      (fun _ _ _ _ hP hs => offersEnabled_step henv hP hs)
      (fun _ a hnone => by cases a <;> cases hnone) trivial hempty
  · rintro halong before call after rfl s hbefore hstatus hwhole hdone hnot s' hrun
    have hoffers : OffersEnabled s'.cache :=
      invariant_along (fun s a s' hs ha hstep => (offersEnabled_step henv hs hstep).2 ha) hempty
        halong hrun
    refine neverYields_of_not_enabled hoffers ?_
    obtain ⟨s₁, h₁, h₂⟩ := run_append_eq_some_iff.1 hrun
    cases hbefore.symm.trans h₁
    obtain ⟨s₂, h₃, h₄⟩ := run_cons_eq_some_iff.1 h₂
    cases h₃
    have hdisabled := isDisabled_of_updateChannelStatus henv hstatus hwhole hdone
    have hstep : ∀ s a s', IsDisabled s call.channelId → ¬ Enables call.channelId a →
        cacheStep env s a = some s' → IsDisabled s' call.channelId :=
      fun s a s' h ha hs => h.step henv ha hs
    exact (invariant_along hstep hdisabled (along_of_forall hnot) h₄).cached

def oneChannel (channel : Channel) : Table ℤ Channel := (∅ : Table ℤ Channel).put 1 channel

def disableCall : StatusCall where
  channelId := 1
  status := channelStatusAutoDisabled
  reason := "upstream error"

/-- A channel that names its model once is not offered after it was disabled. -/
theorem disabled_channel_never_yielded :
    ∃ s', Run.run (cacheStep {}) { channels := oneChannel { models := "gpt-4o" }, abilities := ∅ }
        [.initChannelCache, .updateChannelStatus disableCall, .initChannelCache] = some s' ∧
      NeverYields s'.cache 1 := by
  refine ⟨_, rfl, ?_⟩
  have henv : ({} : ChannelEnv).memoryCacheEnabled = true := rfl
  have hrow : (oneChannel { models := "gpt-4o" }).get? 1 = some { models := "gpt-4o" } := by
    decide +kernel
  refine (cache_offers_enabled_iff henv (oneChannel { models := "gpt-4o" }) ∅ _).2 ?_
    [.initChannelCache] disableCall [.initChannelCache] rfl _ rfl (by decide) ?_ (by decide +kernel)
    (by simp [Enables]) _ rfl
  · refine ⟨trivial, fun channel _ => .inr (.inr ?_), trivial, trivial⟩
    intro key ids hids
    have hlists : ∀ list ∈ (initChannelCache {} {}
        (oneChannel { models := "gpt-4o" })).group2model2channels.rows, list.2.count 1 ≤ 1 := by
      decide +kernel
    exact hlists (key, ids) ((get?_eq_some_iff _ _ _).1 hids)
  · refine .inr ⟨?_, ?_⟩ <;> decide +kernel

/-- A channel that names its model twice is offered after it was disabled. -/
theorem repeated_model_offered_after_disable :
    ∃ s s', Run.run (cacheStep {})
        { channels := oneChannel { models := "gpt-4o,gpt-4o" }, abilities := ∅ } [.initChannelCache] =
          some s ∧
      (updateChannelStatus {} s disableCall).2 = true ∧
      cacheStep {} s (.updateChannelStatus disableCall) = some s' ∧
      ¬ OffersEnabled s'.cache ∧ ¬ NeverYields s'.cache 1 := by
  refine ⟨_, _, rfl, by decide +kernel, rfl, fun hoffers => ?_, fun hnever => ?_⟩
  · obtain ⟨channel, hchannel, hstatus⟩ := hoffers ("default", "gpt-4o") [1] (by decide +kernel) 1
      mem_cons_self
    have hdisabled : ∀ id channel, (updateChannelStatus {} (ChannelState.mk
        (oneChannel { models := "gpt-4o,gpt-4o" }) ∅ (initChannelCache {} {} (oneChannel
          { models := "gpt-4o,gpt-4o" }))) disableCall).1.cache.channelsIDM.get? id = some channel →
        channel.status ≠ channelStatusEnabled := by
      decide +kernel
    exact hdisabled 1 channel hchannel hstatus
  · exact absurd (hnever.2 "default" "gpt-4o") (by decide +kernel)

end BeeApi.Relay
