import BeeApi.Relay.Channel

/-!
# Channel status

`UpdateChannelStatus` of `model/channel.go`, which changes the memory cache first and then the row of
the database, and what it calls.  For a channel with several keys it changes the status of one key, in
the copy of the cache and in the row alike, and the status of the channel follows from those of the
keys.
-/

namespace BeeApi.Relay

/-- How a JSON array is cut into its elements, what the advanced config in the settings of a channel says
about a path and a model, and whether the settings decode without an error. -/
structure ChannelEnv where
  rawArray : String → Option (List String) := fun _ => none
  advancedCustom : String → Option (String → String → Bool) := fun _ => none
  settingsDecode : String → Bool := fun _ => true
  memoryCacheEnabled : Bool := true

/-- A call of `UpdateChannelStatus`, with the time and whether the row can be saved. -/
structure StatusCall where
  channelId : ℤ
  usingKey : String := ""
  status : ℤ
  reason : String := ""
  now : ℤ := 0
  saves : Bool := true
deriving DecidableEq

/-- The database and the memory cache; abilities are keyed by group, model and channel id. -/
structure ChannelState where
  channels : Table ℤ Channel := ∅
  abilities : Table (String × String × ℤ) Ability := ∅
  cache : ChannelCache := {}

/-- A key is enabled unless the status list says otherwise. -/
def keyStatus (statusList : Table ℕ ℤ) (idx : ℕ) : ℤ :=
  (statusList.get? idx).getD channelStatusEnabled

def hasEnabledMultiKey (keys : List String) (statusList : Table ℕ ℤ) : Bool :=
  (List.range keys.length).any fun idx =>
    keyStatus statusList idx = channelStatusEnabled || keyStatus statusList idx = 0

/-- The entries of `other_info` for a status change. -/
def setStatusInfo (channel : Channel) (reason : String) (now : ℤ) : Channel :=
  { channel with
    otherInfo := (channel.otherInfo.put "status_reason" (.string reason)).put "status_time" (.number now) }

def setKeyStatus (info : ChannelInfo) (keyIndex : ℕ) (call : StatusCall) : ChannelInfo :=
  if call.status = channelStatusEnabled then
    { info with
      multiKeyStatusList := info.multiKeyStatusList.erase keyIndex
      multiKeyDisabledReason := info.multiKeyDisabledReason.erase keyIndex
      multiKeyDisabledTime := info.multiKeyDisabledTime.erase keyIndex }
  else
    { info with
      multiKeyStatusList := info.multiKeyStatusList.put keyIndex call.status
      multiKeyDisabledReason := info.multiKeyDisabledReason.put keyIndex call.reason
      multiKeyDisabledTime := info.multiKeyDisabledTime.put keyIndex call.now }

/-- `handlerMultiKeyUpdate`: the first key that is equal to the given one is changed. -/
def handlerMultiKeyUpdate (env : ChannelEnv) (channel : Channel) (call : StatusCall) : Channel :=
  let keys := channel.getKeys env.rawArray
  if keys = [] then { channel with status := call.status }
  else if call.usingKey = "" then { channel with status := call.status }
  else
    match keys.findIdx? (· = call.usingKey) with
    | none => channel
    | some keyIndex =>
      let channel := { channel with channelInfo := setKeyStatus channel.channelInfo keyIndex call }
      if hasEnabledMultiKey keys channel.channelInfo.multiKeyStatusList = false then
        setStatusInfo { channel with status := channelStatusAutoDisabled } "All keys are disabled" call.now
      else if call.status = channelStatusEnabled ∧ channel.status ≠ channelStatusManuallyDisabled then
        { channel with status := channelStatusEnabled }
      else channel

theorem handlerMultiKeyUpdate_status (env : ChannelEnv) (channel : Channel) (call : StatusCall) :
    (handlerMultiKeyUpdate env channel call).status = call.status ∨
      (handlerMultiKeyUpdate env channel call).status = channel.status ∨
      (handlerMultiKeyUpdate env channel call).status = channelStatusAutoDisabled := by
  unfold handlerMultiKeyUpdate
  dsimp only
  split
  · exact .inl rfl
  split
  · exact .inl rfl
  split
  · exact .inr (.inl rfl)
  split
  · exact .inr (.inr rfl)
  split
  · rename_i h
    exact .inl h.1.symm
  · exact .inr (.inl rfl)

/-- `CacheUpdateChannelStatus`: of every list of a group and a model, the first entry of the channel is
removed. -/
def cacheUpdateChannelStatus (cache : ChannelCache) (id status : ℤ) : ChannelCache :=
  { cache with
    channelsIDM := cache.channelsIDM.modify id fun channel => { channel with status := status }
    group2model2channels :=
      if status = channelStatusEnabled then cache.group2model2channels
      else cache.group2model2channels.updateWhere (fun _ _ => true) fun ids => ids.erase id }

/-- The first part of `UpdateChannelStatus`, in the memory cache; `none` is an early return. -/
def updateCachedStatus (env : ChannelEnv) (cache : ChannelCache) (call : StatusCall) :
    Option ChannelCache :=
  match cache.channelsIDM.get? call.channelId with
  | none => none
  | some channel =>
    if channel.channelInfo.isMultiKey then
      let updated := handlerMultiKeyUpdate env channel call
      let cache := { cache with
        channelsIDM := cache.channelsIDM.modify call.channelId fun _ => updated }
      if channel.status ≠ updated.status then
        some (cacheUpdateChannelStatus cache call.channelId updated.status)
      else some cache
    else if channel.status = call.status then none
    else some (cacheUpdateChannelStatus cache call.channelId call.status)

/-- The row that `UpdateChannelStatus` saves for the row that it has read, and whether the abilities
change; `none` is an early return. -/
def updatedStatusRow (env : ChannelEnv) (channel : Channel) (call : StatusCall) :
    Option (Channel × Bool) :=
  if channel.status = call.status then none
  else
    let updated :=
      if channel.channelInfo.isMultiKey then handlerMultiKeyUpdate env channel call
      else { setStatusInfo channel call.reason call.now with status := call.status }
    let shouldUpdateAbilities :=
      if channel.channelInfo.isMultiKey then decide (channel.status ≠ updated.status) else true
    -- a channel that is enabled again is no longer disabled by verification
    some
      (if updated.status = channelStatusEnabled then { updated with verifyDisabled := some 0 }
        else updated, shouldUpdateAbilities)

/-- `SaveWithoutKey`: every column but the key is written. -/
def saveWithoutKey (channels : Table ℤ Channel) (id : ℤ) (channel : Channel) : Table ℤ Channel :=
  channels.modify id fun row => { channel with key := row.key }

def updateAbilityStatus (abilities : Table (String × String × ℤ) Ability) (channelId : ℤ)
    (status : Bool) : Table (String × String × ℤ) Ability :=
  abilities.updateWhere (fun k _ => k.2.2 = channelId) fun ability => { ability with enabled := status }

/-- The second part of `UpdateChannelStatus`, in the database; the abilities are updated on every
return, also when the row cannot be saved. -/
def updateStoredStatus (env : ChannelEnv) (s : ChannelState) (call : StatusCall) :
    ChannelState × Bool :=
  match s.channels.get? call.channelId with
  | none => (s, false)
  | some channel =>
    match updatedStatusRow env channel call with
    | none => (s, false)
    | some (updated, shouldUpdateAbilities) =>
      ({ s with
          channels :=
            if call.saves then saveWithoutKey s.channels call.channelId updated else s.channels
          abilities :=
            if shouldUpdateAbilities then
              updateAbilityStatus s.abilities call.channelId (call.status = channelStatusEnabled)
            else s.abilities }, call.saves)

def updateChannelStatus (env : ChannelEnv) (s : ChannelState) (call : StatusCall) :
    ChannelState × Bool :=
  if env.memoryCacheEnabled then
    match updateCachedStatus env s.cache call with
    | none => (s, false)
    | some cache => updateStoredStatus env { s with cache := cache } call
  else updateStoredStatus env s call

end BeeApi.Relay
