import BeeApi.Relay.Status

/-!
# Channels with several keys

`GetNextEnabledKey` of `model/channel.go`, which chooses one of the keys of a channel that are not disabled,
and what a change of a key does to the status of the channel and to that of its keys.
-/

namespace BeeApi.Relay

open List Option

/-! ## The choice of a key -/

/-- An error of `GetNextEnabledKey`. -/
structure KeyError where
  errorCode : String
  message : String
deriving DecidableEq

def noKeysAvailable : KeyError := ⟨"channel:no_available_key", "no keys available"⟩

def noEnabledKeys : KeyError := ⟨"channel:no_available_key", "no enabled keys"⟩

def getChannelFailed : KeyError := ⟨"get_channel_failed", "record not found"⟩

def enabledIdx (keys : List String) (info : ChannelInfo) : List ℕ :=
  (List.range keys.length).filter fun idx =>
    keyStatus info.multiKeyStatusList idx = channelStatusEnabled

/-- The first part of `GetNextEnabledKey`: the index of the key, where the mode is not polling, or `none`
where the polling index decides. -/
def chooseKey (keys : List String) (info : ChannelInfo) (rnd : ℕ) : Except KeyError (Option ℕ) :=
  if keys = [] then .error noKeysAvailable
  else
    let enabled := enabledIdx keys info
    if enabled = [] then .error noEnabledKeys
    else if info.multiKeyMode = multiKeyModeRandom then
      .ok (some (enabled.getD (rnd % enabled.length) 0))
    else if info.multiKeyMode = multiKeyModePolling then .ok none
    else .ok (some (enabled.headD 0))

/-- The second part of `GetNextEnabledKey`: from the saved polling index on, the next enabled key is
taken, and the polling index moves behind it. -/
def pollKey (keys : List String) (info : ChannelInfo) (pollingIndex : ℤ) : ℕ × ChannelInfo :=
  let start := if pollingIndex < 0 ∨ (keys.length : ℤ) ≤ pollingIndex then 0 else pollingIndex.toNat
  let order := (List.range keys.length).map fun i => (start + i) % keys.length
  match order.find? fun idx => keyStatus info.multiKeyStatusList idx = channelStatusEnabled with
  | some idx => (idx, { info with multiKeyPollingIndex := ((idx + 1) % keys.length : ℕ) })
  | none => ((enabledIdx keys info).headD 0, info)

variable {keys : List String} {info : ChannelInfo} {idx rnd : ℕ} {channel : Channel}

theorem mem_enabledIdx :
    idx ∈ enabledIdx keys info ↔
      idx < keys.length ∧ keyStatus info.multiKeyStatusList idx = channelStatusEnabled := by
  simp [enabledIdx]

theorem chooseKey_mem (h : chooseKey keys info rnd = .ok (some idx)) :
    idx ∈ enabledIdx keys info := by
  unfold chooseKey at h
  dsimp only at h
  split at h
  · cases h
  split at h
  · cases h
  rename_i hne
  split at h
  · have hlt := Nat.mod_lt rnd (length_pos_iff.2 hne)
    rw [List.getD, getElem?_eq_getElem hlt] at h
    cases Except.ok.inj h
    exact getElem_mem hlt
  split at h
  · cases h
  · obtain ⟨idx', rest, hcons⟩ := exists_cons_of_ne_nil hne
    rw [hcons, headD_cons] at h
    cases Except.ok.inj h
    rw [hcons]
    exact mem_cons_self

theorem enabledIdx_ne_nil_of_chooseKey {choice : Option ℕ}
    (h : chooseKey keys info rnd = .ok choice) : enabledIdx keys info ≠ [] := by
  intro hnil
  unfold chooseKey at h
  rw [if_pos hnil] at h
  split at h <;> cases h

theorem chooseKey_some_mode (h : chooseKey keys info rnd = .ok (some idx)) :
    info.multiKeyMode ≠ multiKeyModePolling := by
  intro hmode
  have hrandom : info.multiKeyMode ≠ multiKeyModeRandom := by
    rw [hmode]
    decide
  unfold chooseKey at h
  dsimp only at h
  rw [if_neg hrandom, if_pos hmode] at h
  split at h
  · cases h
  · split at h <;> cases h

theorem pollKey_mem {keys : List String} {info : ChannelInfo} {pollingIndex : ℤ}
    (hne : enabledIdx keys info ≠ []) : (pollKey keys info pollingIndex).1 ∈ enabledIdx keys info := by
  have hhead : (enabledIdx keys info).headD 0 ∈ enabledIdx keys info := by
    obtain ⟨idx, rest, hcons⟩ := exists_cons_of_ne_nil hne
    rw [hcons, headD_cons]
    exact mem_cons_self
  unfold pollKey
  dsimp only
  split
  · rename_i idx hfind
    have hmem := mem_of_find?_eq_some hfind
    obtain ⟨i, hi, rfl⟩ := mem_map.1 hmem
    have hpos : 0 < keys.length := by
      have := mem_range.1 hi
      omega
    exact mem_enabledIdx.2 ⟨Nat.mod_lt _ hpos, by simpa using find?_some hfind⟩
  · exact hhead

theorem pollKey_info (keys : List String) (info : ChannelInfo) (pollingIndex : ℤ) :
    ∃ index, (pollKey keys info pollingIndex).2 = { info with multiKeyPollingIndex := index } := by
  unfold pollKey
  dsimp only
  split
  · exact ⟨_, rfl⟩
  · exact ⟨info.multiKeyPollingIndex, rfl⟩

/-! ## The keys of a channel -/

/-- What a channel says of its keys: its own status, and the status of each key. -/
@[ext] structure KeyView where
  status : ℤ
  statusOf : ℕ → Option ℤ

def Channel.keyView (channel : Channel) : KeyView where
  status := channel.status
  statusOf := channel.channelInfo.multiKeyStatusList.get?

namespace KeyView

/-- The key at the index is disabled: `GetNextEnabledKey` passes over it. -/
def IsOff (v : KeyView) (idx : ℕ) : Prop := (v.statusOf idx).getD channelStatusEnabled ≠ channelStatusEnabled

/-- The key is disabled wherever the list of keys has it. -/
def Off (keys : List String) (v : KeyView) (key : String) : Prop :=
  ∀ idx, keys[idx]? = some key → v.IsOff idx

def AllOff (keys : List String) (v : KeyView) : Prop := ∀ idx < keys.length, v.IsOff idx

instance (v : KeyView) (idx : ℕ) : Decidable (v.IsOff idx) := inferInstanceAs (Decidable (_ ≠ _))

instance (keys : List String) (v : KeyView) : Decidable (v.AllOff keys) :=
  inferInstanceAs (Decidable (∀ idx < keys.length, v.IsOff idx))

def entryOf (status : ℤ) : Option ℤ := if status = channelStatusEnabled then none else some status

def WholeChannel (keys : List String) (call : StatusCall) : Prop := keys = [] ∨ call.usingKey = ""

instance (keys : List String) (call : StatusCall) : Decidable (WholeChannel keys call) :=
  inferInstanceAs (Decidable (_ ∨ _))

def changedIdx (keys : List String) (call : StatusCall) : Option ℕ :=
  keys.findIdx? (· = call.usingKey)

def setKey (v : KeyView) (idx : ℕ) (status : ℤ) : KeyView :=
  { v with statusOf := Function.update v.statusOf idx (entryOf status) }

/-- The channel follows its keys: without an enabled one it is disabled, and an enabled key enables it
unless it was disabled by hand. -/
def follow (keys : List String) (v : KeyView) (status : ℤ) : KeyView :=
  if v.AllOff keys then { v with status := channelStatusAutoDisabled }
  else if status = channelStatusEnabled ∧ v.status ≠ channelStatusManuallyDisabled then
    { v with status := channelStatusEnabled }
  else v

def update (keys : List String) (v : KeyView) (call : StatusCall) : KeyView :=
  if WholeChannel keys call then { v with status := call.status }
  else
    match changedIdx keys call with
    | none => v
    | some idx => (v.setKey idx call.status).follow keys call.status

/-- The channel is disabled exactly when all its keys are, and no key has the status zero, which
`hasEnabledMultiKey` takes for enabled and `GetNextEnabledKey` does not. -/
structure Consistent (keys : List String) (v : KeyView) : Prop where
  status_iff : v.status = channelStatusAutoDisabled ↔ v.AllOff keys
  ne_zero : ∀ idx, v.statusOf idx ≠ some 0

/-! ## A call -/

/-- A call for the whole channel disables it exactly when its keys are disabled, no key gets the status
zero, and a disabled key is not enabled at another place of the list. -/
structure Sound (keys : List String) (v : KeyView) (call : StatusCall) : Prop where
  whole : WholeChannel keys call → (call.status = channelStatusAutoDisabled ↔ v.AllOff keys)
  ne_zero : ¬ WholeChannel keys call → call.status ≠ 0
  others : ¬ WholeChannel keys call → call.status ≠ channelStatusEnabled →
    ∀ idx, keys[idx]? = some call.usingKey → changedIdx keys call ≠ some idx → v.IsOff idx

/-- The call finds everything as it would leave it. -/
structure Unchanged (keys : List String) (v : KeyView) (call : StatusCall) : Prop where
  whole : WholeChannel keys call → v.status = call.status
  entry : ¬ WholeChannel keys call →
    ∀ idx, changedIdx keys call = some idx → v.statusOf idx = entryOf call.status
  status : ¬ WholeChannel keys call → (changedIdx keys call).isSome →
    call.status = channelStatusEnabled →
      v.status = channelStatusEnabled ∨ v.status = channelStatusManuallyDisabled

variable {keys : List String} {v : KeyView} {call : StatusCall}

theorem follow_statusOf (keys : List String) (v : KeyView) (status : ℤ) :
    (v.follow keys status).statusOf = v.statusOf := by
  unfold follow
  split
  · rfl
  · split <;> rfl

variable {idx : ℕ} {status : ℤ}

theorem isOff_congr {v w : KeyView} (h : v.statusOf idx = w.statusOf idx) :
    v.IsOff idx ↔ w.IsOff idx := by
  rw [IsOff, IsOff, h]

theorem allOff_congr {v w : KeyView} (h : v.statusOf = w.statusOf) : v.AllOff keys ↔ w.AllOff keys :=
  forall₂_congr fun idx _ => isOff_congr (congrFun h idx)

theorem isOff_setKey_self : (v.setKey idx status).IsOff idx ↔ status ≠ channelStatusEnabled := by
  rw [IsOff, setKey]
  dsimp only
  rw [Function.update_self, entryOf]
  split_ifs with h
  · simp [h]
  · simp [h]

theorem isOff_setKey_of_ne {idx' : ℕ} (h : idx' ≠ idx) :
    (v.setKey idx status).IsOff idx' ↔ v.IsOff idx' :=
  isOff_congr (Function.update_of_ne h _ _)

theorem setKey_ne_zero (h : ∀ idx, v.statusOf idx ≠ some 0) (hstatus : status ≠ 0) (idx idx' : ℕ) :
    (v.setKey idx status).statusOf idx' ≠ some 0 := by
  rw [setKey]
  dsimp only
  by_cases hne : idx' = idx
  · rw [hne, Function.update_self, entryOf]
    split_ifs with hen
    · exact some_ne_none 0 ∘ Eq.symm
    · exact fun hzero => hstatus (some.inj hzero)
  · rw [Function.update_of_ne hne]
    exact h idx'

theorem changedIdx_eq_some (h : changedIdx keys call = some idx) :
    keys[idx]? = some call.usingKey := by
  obtain ⟨hlt, hkey, -⟩ := findIdx?_eq_some_iff_getElem.1 h
  rw [getElem?_eq_getElem hlt]
  exact congrArg some (of_decide_eq_true hkey)

theorem changedIdx_eq_none (h : changedIdx keys call = none) : call.usingKey ∉ keys := by
  intro hmem
  have := findIdx?_eq_none_iff.1 h call.usingKey hmem
  simp at this

theorem status_follow (hs : status ≠ channelStatusEnabled → ¬ v.AllOff keys →
      v.status ≠ channelStatusAutoDisabled)
    (hv : status = channelStatusEnabled → v.status = channelStatusManuallyDisabled →
      v.status ≠ channelStatusAutoDisabled) :
    (v.follow keys status).status = channelStatusAutoDisabled ↔ v.AllOff keys := by
  unfold follow
  split_ifs with hoff hen
  · exact iff_of_true rfl hoff
  · refine iff_of_false ?_ hoff
    dsimp only
    decide
  · refine iff_of_false ?_ hoff
    by_cases hstatus : status = channelStatusEnabled
    · have hmanual : v.status = channelStatusManuallyDisabled := by
        by_contra hne
        exact hen ⟨hstatus, hne⟩
      exact hv hstatus hmanual
    · exact hs hstatus hoff

theorem Consistent.update (h : v.Consistent keys) (hcall : v.Sound keys call) :
    (v.update keys call).Consistent keys := by
  unfold KeyView.update
  split_ifs with hwhole
  · exact ⟨(hcall.whole hwhole), h.ne_zero⟩
  cases hidx : changedIdx keys call with
  | none => exact h
  | some idx =>
    have hmono : call.status ≠ channelStatusEnabled → v.AllOff keys →
        (v.setKey idx call.status).AllOff keys := by
      intro hstatus hoff idx' hlt
      by_cases hne : idx' = idx
      · rw [hne]
        exact isOff_setKey_self.2 hstatus
      · exact (isOff_setKey_of_ne hne).2 (hoff idx' hlt)
    refine ⟨?_, fun idx' => ?_⟩
    · rw [status_follow, allOff_congr (follow_statusOf keys _ _)]
      · intro hstatus hoff hauto
        exact hoff (hmono hstatus (h.status_iff.1 hauto))
      · intro _ hmanual
        rw [hmanual]
        decide
    · rw [follow_statusOf]
      exact setKey_ne_zero h.ne_zero (hcall.ne_zero hwhole) idx idx'

theorem Sound.off (hcall : v.Sound keys call) (hwhole : ¬ WholeChannel keys call)
    (hstatus : call.status ≠ channelStatusEnabled) : (v.update keys call).Off keys call.usingKey := by
  intro idx hidx
  unfold KeyView.update
  rw [if_neg hwhole]
  cases hchanged : changedIdx keys call with
  | none => exact absurd (mem_of_getElem? hidx) (changedIdx_eq_none hchanged)
  | some idx' =>
    rw [isOff_congr (congrFun (follow_statusOf keys _ _) idx)]
    by_cases hne : idx = idx'
    · rw [hne]
      exact isOff_setKey_self.2 hstatus
    · rw [isOff_setKey_of_ne hne]
      refine hcall.others hwhole hstatus idx hidx ?_
      rw [hchanged]
      exact fun h => hne (some.inj h).symm

theorem Off.update {key : String} (h : v.Off keys key)
    (hkey : call.status = channelStatusEnabled → call.usingKey ≠ key) :
    (v.update keys call).Off keys key := by
  intro idx hidx
  unfold KeyView.update
  split_ifs with hwhole
  · exact h idx hidx
  cases hchanged : changedIdx keys call with
  | none => exact h idx hidx
  | some idx' =>
    rw [isOff_congr (congrFun (follow_statusOf keys _ _) idx)]
    by_cases hne : idx = idx'
    · rw [hne, isOff_setKey_self]
      intro hen
      have hsame := changedIdx_eq_some hchanged
      rw [← hne, hidx] at hsame
      exact hkey hen (some.inj hsame).symm
    · rw [isOff_setKey_of_ne hne]
      exact h idx hidx

theorem Unchanged.update_eq (hcall : v.Unchanged keys call) (h : v.Consistent keys) :
    v.update keys call = v := by
  unfold KeyView.update
  split_ifs with hwhole
  · rw [← hcall.whole hwhole]
  cases hchanged : changedIdx keys call with
  | none => rfl
  | some idx =>
    have hset : v.setKey idx call.status = v := by
      rw [setKey, ← hcall.entry hwhole idx hchanged, Function.update_eq_self]
    dsimp only
    rw [hset]
    unfold follow
    split_ifs with hoff hen
    · rw [← h.status_iff.2 hoff]
    · obtain hstatus | hmanual := hcall.status hwhole (by rw [hchanged]; rfl) hen.1
      · rw [← hstatus]
      · exact absurd hmanual hen.2
    · rfl

end KeyView

/-! ## The code -/

theorem isOff_keyView :
    channel.keyView.IsOff idx ↔
      keyStatus channel.channelInfo.multiKeyStatusList idx ≠ channelStatusEnabled := Iff.rfl

theorem keyStatus_ne_zero (h : ∀ idx, channel.keyView.statusOf idx ≠ some 0) (idx : ℕ) :
    keyStatus channel.channelInfo.multiKeyStatusList idx ≠ 0 := by
  have hidx : channel.channelInfo.multiKeyStatusList.get? idx ≠ some 0 := h idx
  unfold keyStatus
  cases hget : channel.channelInfo.multiKeyStatusList.get? idx with
  | none => decide
  | some status =>
    rw [hget] at hidx
    exact fun hzero => hidx (congrArg some hzero)

theorem hasEnabledMultiKey_eq_false_iff (h : ∀ idx, channel.keyView.statusOf idx ≠ some 0) :
    hasEnabledMultiKey keys channel.channelInfo.multiKeyStatusList = false ↔
      channel.keyView.AllOff keys := by
  rw [hasEnabledMultiKey, List.any_eq_false]
  refine ⟨fun hall idx hlt => ?_, fun hall idx hmem => ?_⟩
  · have := hall idx (List.mem_range.2 hlt)
    rw [isOff_keyView]
    intro hen
    simp [hen] at this
  · have hoff := isOff_keyView.1 (hall idx (mem_range.1 hmem))
    have hzero := keyStatus_ne_zero h idx
    simp [hoff, hzero]

theorem keyView_setKeyStatus (channel : Channel) (keyIndex : ℕ) (call : StatusCall) :
    Channel.keyView { channel with channelInfo := setKeyStatus channel.channelInfo keyIndex call } =
      channel.keyView.setKey keyIndex call.status := by
  refine KeyView.ext rfl (funext fun idx => ?_)
  simp only [Channel.keyView, KeyView.setKey, setKeyStatus, KeyView.entryOf]
  by_cases hstatus : call.status = channelStatusEnabled
  · rw [if_pos hstatus, if_pos hstatus, Table.get?_erase]
    split
    · rename_i hidx
      rw [hidx, Function.update_self]
    · rename_i hidx
      rw [Function.update_of_ne hidx]
  · rw [if_neg hstatus, if_neg hstatus, Table.get?_put]
    split
    · rename_i hidx
      rw [hidx, Function.update_self]
    · rename_i hidx
      rw [Function.update_of_ne hidx]

theorem keyView_handlerMultiKeyUpdate {env : ChannelEnv} {call : StatusCall}
    (hkeys : channel.getKeys env.rawArray = keys)
    (hzero : ∀ idx, channel.keyView.statusOf idx ≠ some 0)
    (hcall : ¬ KeyView.WholeChannel keys call → call.status ≠ 0) :
    (handlerMultiKeyUpdate env channel call).keyView = channel.keyView.update keys call := by
  unfold handlerMultiKeyUpdate KeyView.update KeyView.changedIdx
  rw [hkeys]
  by_cases hnil : keys = []
  · rw [if_pos hnil, if_pos (.inl hnil)]
    rfl
  by_cases hblank : call.usingKey = ""
  · rw [if_neg hnil, if_pos hblank, if_pos (.inr hblank)]
    rfl
  have hwhole : ¬ KeyView.WholeChannel keys call := not_or.2 ⟨hnil, hblank⟩
  rw [if_neg hnil, if_neg hblank, if_neg hwhole]
  cases keys.findIdx? (· = call.usingKey) with
  | none => rfl
  | some keyIndex =>
    have hview := keyView_setKeyStatus channel keyIndex call
    have hset : ∀ idx, (channel.keyView.setKey keyIndex call.status).statusOf idx ≠ some 0 :=
      KeyView.setKey_ne_zero hzero (hcall hwhole) keyIndex
    have hoff_iff : hasEnabledMultiKey keys
        (setKeyStatus channel.channelInfo keyIndex call).multiKeyStatusList = false ↔ _ :=
      hasEnabledMultiKey_eq_false_iff (hview ▸ hset)
    rw [hview] at hoff_iff
    have hlist : (setKeyStatus channel.channelInfo keyIndex call).multiKeyStatusList.get? =
        (channel.keyView.setKey keyIndex call.status).statusOf := congrArg KeyView.statusOf hview
    have hstatus : (channel.keyView.setKey keyIndex call.status).status = channel.status := rfl
    dsimp only
    unfold KeyView.follow
    rw [hstatus]
    by_cases hoff : (channel.keyView.setKey keyIndex call.status).AllOff keys
    · rw [if_pos (hoff_iff.2 hoff), if_pos hoff]
      exact KeyView.ext rfl hlist
    rw [if_neg fun h => hoff (hoff_iff.1 h), if_neg hoff]
    by_cases hen : call.status = channelStatusEnabled ∧
        channel.status ≠ channelStatusManuallyDisabled
    · rw [if_pos hen, if_pos hen]
      exact KeyView.ext rfl hlist
    · rw [if_neg hen, if_neg hen]
      exact hview

end BeeApi.Relay
