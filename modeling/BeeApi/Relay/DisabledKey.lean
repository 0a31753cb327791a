import BeeApi.Relay.MultiKey

/-!
# Keys that are disabled while other requests take keys

Goroutines that call `UpdateChannelStatus` and `GetNextEnabledKey` for one channel with several keys.  The
row is read and saved in separate steps, and `channelStatusLock` and the polling lock are held where the
code holds them.  A disabled key stays disabled where no step saves or uses what another has changed since
its read.
-/

namespace BeeApi.Relay

open Option Table Finset

/-! ## The goroutines -/

/-- A status change before the cached channel is changed, the row is read, its copy is changed, and it is
saved; the choice of a key before the polling index is read, and before it is saved. -/
inductive KeyCall where
  | caching (call : StatusCall)
  | reading (call : StatusCall)
  | changing (call : StatusCall) (row : Channel)
  | saving (call : StatusCall) (row : Channel)
  | picking (copy : Option Channel)
  | polling (copy : Channel)
  | returning (copy : Channel) (key : String)

inductive KeyStep where
  | update (pid : ℕ) (call : StatusCall)
  | next (pid : ℕ)
  | go (pid rnd : ℕ)

inductive KeyOutcome where
  | running
  | updated (call : StatusCall) (changed : Bool)
  | key (key : String)
  | failed (err : KeyError)
deriving DecidableEq

/-- `disabled` is for the statement: the keys that a call has disabled and returned true, and no later call
has enabled. -/
structure KeyState where
  shared : ChannelState
  statusLock : Option ℕ := none
  pollingLock : Option ℕ := none
  calls : Table ℕ KeyCall := ∅
  disabled : Finset String := ∅

namespace KeyState

def goOn (s : KeyState) (pid : ℕ) (c : KeyCall) : KeyState := { s with calls := s.calls.put pid c }

def finish (s : KeyState) (pid : ℕ) : KeyState := { s with calls := s.calls.erase pid }

/-- The end of a status change releases `channelStatusLock`. -/
def finishUpdate (s : KeyState) (pid : ℕ) : KeyState := { s.finish pid with statusLock := none }

end KeyState

/-- `UpdateChannelStatus` after the row has been read. -/
def saveReadRow (env : ChannelEnv) (s : ChannelState) (call : StatusCall) (row : Channel) :
    ChannelState × Bool :=
  match updatedStatusRow env row call with
  | none => (s, false)
  | some (updated, shouldUpdateAbilities) =>
    ({ s with
        channels :=
          if call.saves then saveWithoutKey s.channels call.channelId updated else s.channels
        abilities :=
          if shouldUpdateAbilities then
            updateAbilityStatus s.abilities call.channelId (call.status = channelStatusEnabled)
          else s.abilities }, call.saves)

def disabledAfter (disabled : Finset String) (call : StatusCall) : Finset String :=
  if call.status = channelStatusEnabled then disabled.erase call.usingKey
  else if call.usingKey = "" then disabled
  else insert call.usingKey disabled

/-- The next step of a goroutine; `none` where it waits for a lock. -/
def advance (env : ChannelEnv) (id : ℤ) (s : KeyState) (pid rnd : ℕ) :
    KeyCall → Option (KeyState × KeyOutcome)
  | .caching call =>
    if s.pollingLock = none then
      match updateCachedStatus env s.shared.cache call with
      | none => some (s.finishUpdate pid, .updated call false)
      | some cache =>
        some ({ s.goOn pid (.reading call) with
          shared := { s.shared with cache := cache }
          disabled :=
            if call.status = channelStatusEnabled then s.disabled.erase call.usingKey
            else s.disabled }, .running)
    else none
  | .reading call =>
    match s.shared.channels.get? id with
    | none => some (s.finishUpdate pid, .updated call false)
    | some row =>
      if row.status = call.status then some (s.finishUpdate pid, .updated call false)
      else some (s.goOn pid (.changing call row), .running)
  | .changing call row =>
    if s.pollingLock = none then some (s.goOn pid (.saving call row), .running) else none
  | .saving call row =>
    let (shared, ok) := saveReadRow env s.shared call row
    some ({ s.finishUpdate pid with
      shared := shared
      disabled := if ok then disabledAfter s.disabled call else s.disabled }, .updated call ok)
  | .picking copy =>
    match copy <|> s.shared.cache.channelsIDM.get? id with
    | none => none
    | some channel =>
      let keys := channel.getKeys env.rawArray
      if channel.channelInfo.isMultiKey = false then some (s.finish pid, .key channel.key)
      else if keys ≠ [] ∧ s.pollingLock ≠ none then none
      else
        match chooseKey keys channel.channelInfo rnd with
        | .error err => some (s.finish pid, .failed err)
        | .ok (some idx) => some (s.finish pid, .key (keys.getD idx ""))
        | .ok none =>
          if env.memoryCacheEnabled then
            -- the lock is taken and released, and the polling index is that of the cached channel itself
            let (idx, info) := pollKey keys channel.channelInfo channel.channelInfo.multiKeyPollingIndex
            some ({ s.finish pid with
              shared := { s.shared with
                cache := { s.shared.cache with
                  channelsIDM := s.shared.cache.channelsIDM.modify id fun channel =>
                    { channel with channelInfo := info } } } }, .key (keys.getD idx ""))
          else some ({ s.goOn pid (.polling channel) with pollingLock := some pid }, .running)
  | .polling copy =>
    match s.shared.channels.get? id with
    | none => some ({ s.finish pid with pollingLock := none }, .failed getChannelFailed)
    | some row =>
      let keys := copy.getKeys env.rawArray
      let (idx, info) := pollKey keys copy.channelInfo row.channelInfo.multiKeyPollingIndex
      some (s.goOn pid (.returning { copy with channelInfo := info } (keys.getD idx "")), .running)
  | .returning copy key =>
    some ({ s.finish pid with
      pollingLock := none
      shared := { s.shared with
        channels := s.shared.channels.modify id fun row =>
          { row with channelInfo := copy.channelInfo } } }, .key key)

/-- A goroutine starts a call, or takes its next step. -/
def keyStep (env : ChannelEnv) (id : ℤ) (s : KeyState) : KeyStep → Option (KeyState × KeyOutcome)
  | .update pid call =>
    if call.channelId ≠ id then none
    else if env.memoryCacheEnabled then
      if s.statusLock = none then
        (s.calls.insert? pid (.caching call)).map fun calls =>
          ({ s with calls := calls, statusLock := some pid }, .running)
      else none
    else (s.calls.insert? pid (.reading call)).map fun calls => ({ s with calls := calls }, .running)
  | .next pid =>
    if env.memoryCacheEnabled then
      (s.calls.insert? pid (.picking none)).map fun calls => ({ s with calls := calls }, .running)
    else
      match s.shared.channels.get? id with
      | none => none
      | some row =>
        (s.calls.insert? pid (.picking (some row))).map fun calls =>
          ({ s with calls := calls }, .running)
  | .go pid rnd =>
    match s.calls.get? pid with
    | none => none
    | some c => advance env id s pid rnd c

def keyNext (env : ChannelEnv) (id : ℤ) (s : KeyState) (a : KeyStep) : Option KeyState :=
  (keyStep env id s a).map Prod.fst

variable {row a b cached copy row' : Channel} {call : StatusCall} {s s' : KeyState} {key : String}
  {idx rnd pid : ℕ} {c : KeyCall} {out : KeyOutcome}

/-! ## What is kept -/

/-- A key that is returned is not one that stays disabled; after a status change the cache and the
database agree about the keys, and the channel is disabled automatically exactly when all its keys are. -/
structure Kept (env : ChannelEnv) (id : ℤ) (keys : List String) (s : KeyState) (out : KeyOutcome)
    (s' : KeyState) : Prop where
  key : ∀ key, out = .key key → key ∉ s.disabled
  agree : ∀ call changed, out = .updated call changed → env.memoryCacheEnabled = true →
    ∀ row cached, s'.shared.channels.get? id = some row →
      s'.shared.cache.channelsIDM.get? id = some cached →
        cached.keyView.statusOf = row.keyView.statusOf
  row : ∀ call changed, out = .updated call changed → ∀ row, s'.shared.channels.get? id = some row →
      (row.status = channelStatusAutoDisabled ↔ row.keyView.AllOff keys)
  cached : ∀ call changed, out = .updated call changed → env.memoryCacheEnabled = true →
    ∀ cached, s'.shared.cache.channelsIDM.get? id = some cached →
      (cached.status = channelStatusAutoDisabled ↔ cached.keyView.AllOff keys)

structure HasKeys (env : ChannelEnv) (keys : List String) (channel : Channel) : Prop where
  multi : channel.channelInfo.isMultiKey = true
  keys : channel.getKeys env.rawArray = keys

/-- No call is under way, and the channel, its keys and its copy in the cache agree. -/
structure Settled (env : ChannelEnv) (id : ℤ) (keys : List String) (s : KeyState) : Prop where
  calls : s.calls = ∅
  statusLock : s.statusLock = none
  pollingLock : s.pollingLock = none
  disabled : s.disabled = ∅
  row : ∃ row, s.shared.channels.get? id = some row ∧ HasKeys env keys row ∧
    row.keyView.Consistent keys ∧
    (env.memoryCacheEnabled = true → ∃ cached, s.shared.cache.channelsIDM.get? id = some cached ∧
      HasKeys env keys cached ∧ cached.keyView = row.keyView)

/-- The row is not saved: its status is the one of the call already, or the save fails. -/
def Skips (v : KeyView) (call : StatusCall) : Prop := v.status = call.status ∨ call.saves = false

/-- With the memory cache, a call is sound, and where it does not save the row it finds the cached channel
as it would leave it.  Without it, a call is sound and saves the status and the status list that its read
has found; a key is chosen from a copy with the status list of the row, and the polling index is saved in
one. -/
def NotStale (env : ChannelEnv) (id : ℤ) (keys : List String) (s : KeyState) : KeyStep → Prop
  | .go pid _ =>
    match s.calls.get? pid with
    | some (.caching call) =>
      ∀ cached, s.shared.cache.channelsIDM.get? id = some cached → cached.keyView.Sound keys call ∧
          (Skips cached.keyView call → cached.keyView.Unchanged keys call)
    | some (.saving call copy) =>
      env.memoryCacheEnabled = false → call.saves = true →
        ∀ row, s.shared.channels.get? id = some row →
          copy.keyView = row.keyView ∧ row.keyView.Sound keys call
    | some (.picking (some copy)) =>
      copy.channelInfo.multiKeyMode ≠ multiKeyModePolling →
        ∀ row, s.shared.channels.get? id = some row → copy.keyView.statusOf = row.keyView.statusOf
    | some (.returning copy _) =>
      ∀ row, s.shared.channels.get? id = some row → copy.keyView.statusOf = row.keyView.statusOf
    | _ => True
  | _ => True

/-! ## One change -/

variable {env : ChannelEnv} {id : ℤ} {keys : List String}

structure SameKeys (a b : Channel) : Prop where
  key : a.key = b.key
  keys : a.keys = b.keys
  multi : a.channelInfo.isMultiKey = b.channelInfo.isMultiKey

theorem SameKeys.refl (a : Channel) : SameKeys a a := ⟨rfl, rfl, rfl⟩

theorem SameKeys.trans {c : Channel} (h : SameKeys a b) (h' : SameKeys b c) : SameKeys a c :=
  ⟨h.key.trans h'.key, h.keys.trans h'.keys, h.multi.trans h'.multi⟩

theorem SameKeys.symm (h : SameKeys a b) : SameKeys b a :=
  ⟨h.key.symm, h.keys.symm, h.multi.symm⟩

theorem HasKeys.of_same (h : HasKeys env keys b) (hsame : SameKeys a b) : HasKeys env keys a := by
  refine ⟨hsame.multi.trans h.multi, ?_⟩
  rw [← h.keys, Channel.getKeys, Channel.getKeys, hsame.key, hsame.keys]

theorem setKeyStatus_isMultiKey (info : ChannelInfo) (keyIndex : ℕ) (call : StatusCall) :
    (setKeyStatus info keyIndex call).isMultiKey = info.isMultiKey := by
  unfold setKeyStatus
  split <;> rfl

theorem sameKeys_handlerMultiKeyUpdate (env : ChannelEnv) (channel : Channel) (call : StatusCall) :
    SameKeys (handlerMultiKeyUpdate env channel call) channel := by
  unfold handlerMultiKeyUpdate
  dsimp only
  split
  · exact ⟨rfl, rfl, rfl⟩
  split
  · exact ⟨rfl, rfl, rfl⟩
  split
  · exact SameKeys.refl channel
  rename_i keyIndex _
  have hmulti := setKeyStatus_isMultiKey channel.channelInfo keyIndex call
  split
  · exact ⟨rfl, rfl, hmulti⟩
  split <;> exact ⟨rfl, rfl, hmulti⟩

theorem updateCachedStatus_spec {cache : ChannelCache}
    (hcached : cache.channelsIDM.get? call.channelId = some cached)
    (hkeys : HasKeys env keys cached) (hcons : cached.keyView.Consistent keys)
    (hsound : cached.keyView.Sound keys call) :
    ∃ cache' cached', updateCachedStatus env cache call = some cache' ∧
      cache'.channelsIDM.get? call.channelId = some cached' ∧ SameKeys cached' cached ∧
      cached'.keyView = cached.keyView.update keys call := by
  have hview := keyView_handlerMultiKeyUpdate hkeys.keys hcons.ne_zero hsound.ne_zero
  have hsame := sameKeys_handlerMultiKeyUpdate env cached call
  unfold updateCachedStatus
  rw [hcached]
  dsimp only
  rw [if_pos hkeys.multi]
  generalize handlerMultiKeyUpdate env cached call = updated at hview hsame
  by_cases hstatus : cached.status = updated.status
  · rw [if_neg (not_not.2 hstatus)]
    refine ⟨_, updated, rfl, ?_, hsame, hview⟩
    rw [get?_modify_self, hcached]
    rfl
  · rw [if_pos hstatus]
    refine ⟨_, updated, rfl, ?_, hsame, hview⟩
    unfold cacheUpdateChannelStatus
    rw [get?_modify_self, get?_modify_self, hcached]
    rfl

theorem updatedStatusRow_spec (hkeys : HasKeys env keys copy) (hne : copy.status ≠ call.status)
    (hcons : copy.keyView.Consistent keys)
    (hsound : ¬ KeyView.WholeChannel keys call → call.status ≠ 0) :
    ∃ updated b, updatedStatusRow env copy call = some (updated, b) ∧ SameKeys updated copy ∧
      updated.keyView = copy.keyView.update keys call := by
  have hview := keyView_handlerMultiKeyUpdate hkeys.keys hcons.ne_zero hsound
  have hsame := sameKeys_handlerMultiKeyUpdate env copy call
  unfold updatedStatusRow
  rw [if_neg hne, if_pos hkeys.multi]
  generalize handlerMultiKeyUpdate env copy call = updated at hview hsame
  refine ⟨_, _, rfl, ?_, ?_⟩
  · split_ifs
    · exact ⟨hsame.key, hsame.keys, hsame.multi⟩
    · exact hsame
  · split_ifs
    · exact hview
    · exact hview

theorem saveReadRow_spec {s : ChannelState} (hrow : s.channels.get? call.channelId = some row)
    (hkeys : HasKeys env keys copy) (hsame : SameKeys copy row) (hne : copy.status ≠ call.status)
    (hcons : copy.keyView.Consistent keys)
    (hsound : ¬ KeyView.WholeChannel keys call → call.status ≠ 0) (hsaves : call.saves = true) :
    (saveReadRow env s call copy).2 = true ∧ (saveReadRow env s call copy).1.cache = s.cache ∧
      ∃ row', (saveReadRow env s call copy).1.channels.get? call.channelId = some row' ∧
        SameKeys row' row ∧ row'.keyView = copy.keyView.update keys call := by
  obtain ⟨updated, b, hupdated, hsame', hview⟩ := updatedStatusRow_spec hkeys hne hcons hsound
  have hall := hsame'.trans hsame
  unfold saveReadRow
  rw [hupdated]
  refine ⟨hsaves, rfl, { updated with key := row.key }, ?_, ⟨rfl, hall.keys, hall.multi⟩, hview⟩
  dsimp only
  rw [if_pos hsaves, saveWithoutKey, get?_modify_self, hrow]
  rfl

theorem saveReadRow_of_not_saves (env : ChannelEnv) (s : ChannelState) (copy : Channel)
    (hsaves : call.saves = false) :
    (saveReadRow env s call copy).2 = false ∧ (saveReadRow env s call copy).1.cache = s.cache ∧
      (saveReadRow env s call copy).1.channels = s.channels := by
  unfold saveReadRow
  cases updatedStatusRow env copy call with
  | none => exact ⟨rfl, rfl, rfl⟩
  | some r =>
    refine ⟨hsaves, rfl, ?_⟩
    dsimp only
    rw [if_neg (ne_true_of_eq_false hsaves)]

theorem Kept.of_running : Kept env id keys s .running s' :=
  ⟨nofun, nofun, nofun, nofun⟩

theorem Kept.of_failed {err : KeyError} : Kept env id keys s (.failed err) s' :=
  ⟨nofun, nofun, nofun, nofun⟩

theorem Kept.of_key (h : key ∉ s.disabled) : Kept env id keys s (.key key) s' :=
  ⟨fun key' h' => by cases h'; exact h, nofun, nofun, nofun⟩

theorem notMem_of_enabled {disabled : Finset String} {v : KeyView}
    (hoff : ∀ key ∈ disabled, v.Off keys key) (hidx : keys[idx]? = some key) (hen : ¬ v.IsOff idx) :
    key ∉ disabled :=
  fun hmem => hen (hoff key hmem idx hidx)

theorem getElem?_of_mem_enabledIdx {info : ChannelInfo} (h : idx ∈ enabledIdx keys info) :
    keys[idx]? = some (keys.getD idx "") := by
  have hlt := (mem_enabledIdx.1 h).1
  rw [List.getD, List.getElem?_eq_getElem hlt]
  rfl

theorem not_isOff_of_mem_enabledIdx {channel : Channel}
    (h : idx ∈ enabledIdx keys channel.channelInfo) : ¬ channel.keyView.IsOff idx :=
  not_not.2 (mem_enabledIdx.1 h).2

theorem off_disabledAfter {disabled : Finset String} {v : KeyView}
    (hoff : ∀ key ∈ disabled, v.Off keys key) (hsound : v.Sound keys call) :
    ∀ key ∈ disabledAfter disabled call, (v.update keys call).Off keys key := by
  intro key hkey
  unfold disabledAfter at hkey
  split_ifs at hkey with hen hblank
  · obtain ⟨hne, hmem⟩ := mem_erase.1 hkey
    exact (hoff key hmem).update fun _ => hne.symm
  · exact (hoff key hkey).update fun h => absurd h hen
  · obtain rfl | hmem := mem_insert.1 hkey
    · by_cases hnil : keys = []
      · intro idx hidx
        rw [hnil] at hidx
        cases hidx
      · exact hsound.off (not_or.2 ⟨hnil, hblank⟩) hen
    · exact (hoff key hmem).update fun h => absurd h hen

/-! ## Without the memory cache -/

def CopyOk (id : ℤ) (keys : List String) (row : Channel) : KeyCall → Prop
  | .caching _ => False
  | .reading call => call.channelId = id
  | .changing call copy => call.channelId = id ∧ SameKeys copy row ∧ copy.status ≠ call.status
  | .saving call copy => call.channelId = id ∧ SameKeys copy row ∧ copy.status ≠ call.status
  | .picking copy => ∃ channel, copy = some channel ∧ SameKeys channel row
  | .polling copy => SameKeys copy row ∧ enabledIdx keys copy.channelInfo ≠ []
  | .returning copy key =>
    SameKeys copy row ∧ ∃ idx, keys[idx]? = some key ∧ ¬ copy.keyView.IsOff idx

theorem CopyOk.of_same (h : CopyOk id keys row c) (hsame : SameKeys row' row) :
    CopyOk id keys row' c := by
  cases c with
  | caching call => exact h
  | reading call => exact h
  | changing | saving => exact ⟨h.1, h.2.1.trans hsame.symm, h.2.2⟩
  | picking copy =>
    obtain ⟨channel, hcopy, hchannel⟩ := h
    exact ⟨channel, hcopy, hchannel.trans hsame.symm⟩
  | polling | returning => exact ⟨h.1.trans hsame.symm, h.2⟩

structure UncachedInv (env : ChannelEnv) (id : ℤ) (keys : List String) (s : KeyState) (row : Channel) :
    Prop where
  stored : s.shared.channels.get? id = some row
  hasKeys : HasKeys env keys row
  consistent : row.keyView.Consistent keys
  off : ∀ key ∈ s.disabled, row.keyView.Off keys key
  calls : ∀ pid c, s.calls.get? pid = some c → CopyOk id keys row c

theorem UncachedInv.of_calls (h : UncachedInv env id keys s row)
    (hrow : s'.shared.channels = s.shared.channels) (hdisabled : s'.disabled = s.disabled)
    (hcalls : ∀ pid c, s'.calls.get? pid = some c → CopyOk id keys row c) :
    UncachedInv env id keys s' row where
  stored := by rw [hrow, h.stored]
  hasKeys := h.hasKeys
  consistent := h.consistent
  off := by rw [hdisabled]; exact h.off
  calls := hcalls

theorem UncachedInv.goOn (h : UncachedInv env id keys s row) (pid : ℕ) (hc : CopyOk id keys row c) :
    ∀ pid' c', (s.goOn pid c).calls.get? pid' = some c' → CopyOk id keys row c' :=
  forall_get?_put h.calls hc

theorem UncachedInv.finish (h : UncachedInv env id keys s row) (pid : ℕ) :
    ∀ pid' c', (s.finish pid).calls.get? pid' = some c' → CopyOk id keys row c' :=
  forall_get?_erase h.calls

theorem Kept.of_uncached (henv : env.memoryCacheEnabled = false)
    (h : UncachedInv env id keys s' row) {changed : Bool} :
    Kept env id keys s (.updated call changed) s' where
  key _ hout := nomatch hout
  agree _ _ _ hon := by rw [henv] at hon; cases hon
  row _ _ _ row' hrow := by
    rw [h.stored] at hrow
    cases hrow
    exact h.consistent.status_iff
  cached _ _ _ hon := by rw [henv] at hon; cases hon

theorem uncached_saving (henv : env.memoryCacheEnabled = false) (pid : ℕ)
    (h : UncachedInv env id keys s row) (hcall : CopyOk id keys row (.saving call copy))
    (hstale : call.saves = true → copy.keyView = row.keyView ∧ row.keyView.Sound keys call)
    (hs : advance env id s pid rnd (.saving call copy) = some (s', out)) :
    (∃ row', UncachedInv env id keys s' row') ∧ Kept env id keys s out s' := by
  obtain ⟨rfl, hsame, hne⟩ := hcall
  rcases hsaved : saveReadRow env s.shared call copy with ⟨shared, ok⟩
  rw [advance, hsaved] at hs
  cases hs
  cases hsaves : call.saves with
  | false =>
    have hnot := saveReadRow_of_not_saves env s.shared copy hsaves
    rw [hsaved] at hnot
    obtain ⟨rfl, -, hchannels⟩ := hnot
    have hinv : UncachedInv env call.channelId keys { s.finishUpdate pid with shared := shared } row :=
      h.of_calls hchannels rfl (h.finish pid)
    exact ⟨⟨row, hinv⟩, Kept.of_uncached henv hinv⟩
  | true =>
    obtain ⟨hview, hsound⟩ := hstale hsaves
    have hspec := saveReadRow_spec h.stored (h.hasKeys.of_same hsame) hsame hne
      (hview ▸ h.consistent) hsound.ne_zero hsaves
    rw [hsaved, hview] at hspec
    obtain ⟨rfl, -, row', hrow', hsame', hview'⟩ := hspec
    have hinv : UncachedInv env call.channelId keys { s.finishUpdate pid with
        shared := shared
        disabled := disabledAfter s.disabled call } row' := by
      refine ⟨hrow', h.hasKeys.of_same hsame', ?_, ?_, ?_⟩
      · rw [hview']
        exact h.consistent.update hsound
      · rw [hview']
        exact off_disabledAfter h.off hsound
      · exact fun pid' c hc => (h.finish pid pid' c hc).of_same hsame'
    exact ⟨⟨row', hinv⟩, Kept.of_uncached henv hinv⟩

theorem uncached_picking (henv : env.memoryCacheEnabled = false) (pid : ℕ)
    (h : UncachedInv env id keys s row) (hsame : SameKeys copy row)
    (hstale : copy.channelInfo.multiKeyMode ≠ multiKeyModePolling →
      copy.keyView.statusOf = row.keyView.statusOf)
    (hs : advance env id s pid rnd (.picking (some copy)) = some (s', out)) :
    UncachedInv env id keys s' row ∧ Kept env id keys s out s' := by
  have hkeys := h.hasKeys.of_same hsame
  rw [advance] at hs
  change (if copy.channelInfo.isMultiKey = false then _ else _) = _ at hs
  rw [if_neg (ne_false_of_eq_true hkeys.multi), hkeys.keys] at hs
  split at hs
  · cases hs
  cases hchoice : chooseKey keys copy.channelInfo rnd with
  | error err =>
    rw [hchoice] at hs
    cases hs
    exact ⟨h.of_calls rfl rfl (h.finish pid), Kept.of_failed⟩
  | ok choice =>
    rw [hchoice] at hs
    cases choice with
    | some idx =>
      cases hs
      have hmem := chooseKey_mem hchoice
      refine ⟨h.of_calls rfl rfl (h.finish pid), Kept.of_key ?_⟩
      refine notMem_of_enabled h.off (getElem?_of_mem_enabledIdx hmem) ?_
      rw [← KeyView.isOff_congr (congrFun (hstale (chooseKey_some_mode hchoice)) idx)]
      exact not_isOff_of_mem_enabledIdx hmem
    | none =>
      rw [if_neg (ne_true_of_eq_false henv)] at hs
      cases hs
      refine ⟨h.of_calls rfl rfl (h.goOn pid ?_), Kept.of_running⟩
      exact ⟨hsame, enabledIdx_ne_nil_of_chooseKey hchoice⟩

theorem uncached_polling (pid : ℕ) (h : UncachedInv env id keys s row)
    (hcall : CopyOk id keys row (.polling copy))
    (hs : advance env id s pid rnd (.polling copy) = some (s', out)) :
    UncachedInv env id keys s' row ∧ Kept env id keys s out s' := by
  obtain ⟨hsame, hne⟩ := hcall
  have hkeys := h.hasKeys.of_same hsame
  have hmem := @pollKey_mem keys copy.channelInfo row.channelInfo.multiKeyPollingIndex hne
  obtain ⟨index, hinfo⟩ := pollKey_info keys copy.channelInfo row.channelInfo.multiKeyPollingIndex
  rw [advance, h.stored] at hs
  dsimp only at hs
  rw [hkeys.keys] at hs
  cases hs
  refine ⟨h.of_calls rfl rfl (h.goOn pid ⟨?_, _, getElem?_of_mem_enabledIdx hmem, ?_⟩), Kept.of_running⟩
  · rw [hinfo]
    exact ⟨hsame.key, hsame.keys, hsame.multi⟩
  · have hoff := not_isOff_of_mem_enabledIdx hmem
    rw [hinfo]
    exact hoff

theorem uncached_returning (pid : ℕ) (h : UncachedInv env id keys s row)
    (hcall : CopyOk id keys row (.returning copy key))
    (hstale : copy.keyView.statusOf = row.keyView.statusOf)
    (hs : advance env id s pid rnd (.returning copy key) = some (s', out)) :
    (∃ row', UncachedInv env id keys s' row') ∧ Kept env id keys s out s' := by
  obtain ⟨hsame, idx, hidx, hen⟩ := hcall
  cases hs
  have hview : Channel.keyView { row with channelInfo := copy.channelInfo } = row.keyView :=
    KeyView.ext rfl hstale
  have hsame' : SameKeys { row with channelInfo := copy.channelInfo } row := ⟨rfl, rfl, hsame.multi⟩
  refine ⟨⟨{ row with channelInfo := copy.channelInfo }, ?_, h.hasKeys.of_same hsame', ?_, ?_, ?_⟩,
    Kept.of_key ?_⟩
  · show (s.shared.channels.modify id _).get? id = _
    rw [get?_modify_self, h.stored]
    rfl
  · rw [hview]
    exact h.consistent
  · rw [hview]
    exact h.off
  · exact fun pid' c hc => (h.finish pid pid' c hc).of_same hsame'
  · refine notMem_of_enabled h.off hidx ?_
    rw [← KeyView.isOff_congr (congrFun hstale idx)]
    exact hen

theorem uncached_advance (henv : env.memoryCacheEnabled = false) (h : UncachedInv env id keys s row)
    (hc : s.calls.get? pid = some c) (hstale : NotStale env id keys s (.go pid rnd))
    (hs : advance env id s pid rnd c = some (s', out)) :
    (∃ row', UncachedInv env id keys s' row') ∧ Kept env id keys s out s' := by
  have hcall := h.calls pid c hc
  rw [NotStale, hc] at hstale
  cases c with
  | caching call => exact hcall.elim
  | reading call =>
    rw [advance, h.stored] at hs
    dsimp only at hs
    split at hs
    · cases hs
      have hinv : UncachedInv env id keys (s.finishUpdate pid) row :=
        h.of_calls rfl rfl (h.finish pid)
      exact ⟨⟨row, hinv⟩, Kept.of_uncached henv hinv⟩
    · rename_i hne
      cases hs
      exact ⟨⟨row, h.of_calls rfl rfl (h.goOn pid ⟨hcall, SameKeys.refl row, hne⟩)⟩, Kept.of_running⟩
  | changing call copy =>
    rw [advance] at hs
    split at hs
    · cases hs
      exact ⟨⟨row, h.of_calls rfl rfl (h.goOn pid hcall)⟩, Kept.of_running⟩
    · cases hs
  | saving call copy =>
    exact uncached_saving henv pid h hcall (fun hsaves => hstale henv hsaves row h.stored) hs
  | picking copy =>
    obtain ⟨channel, rfl, hsame⟩ := hcall
    obtain ⟨hinv, hkept⟩ := uncached_picking henv pid h hsame
      (fun hmode => hstale hmode row h.stored) hs
    exact ⟨⟨row, hinv⟩, hkept⟩
  | polling copy =>
    obtain ⟨hinv, hkept⟩ := uncached_polling pid h hcall hs
    exact ⟨⟨row, hinv⟩, hkept⟩
  | returning copy key => exact uncached_returning pid h hcall (hstale row h.stored) hs

theorem uncached_step (henv : env.memoryCacheEnabled = false) {a : KeyStep}
    (h : UncachedInv env id keys s row) (hstale : NotStale env id keys s a)
    (hs : keyStep env id s a = some (s', out)) :
    (∃ row', UncachedInv env id keys s' row') ∧ Kept env id keys s out s' := by
  cases a with
  | update pid call =>
    rw [keyStep] at hs
    split at hs
    · cases hs
    rename_i hid
    rw [if_neg (ne_true_of_eq_false henv)] at hs
    obtain ⟨calls, hcalls, heq⟩ := map_eq_some_iff.1 hs
    cases heq
    have hcall : CopyOk id keys row (.reading call) := not_not.1 hid
    exact ⟨⟨row, h.of_calls rfl rfl (forall_get?_insert h.calls hcall hcalls)⟩, Kept.of_running⟩
  | next pid =>
    rw [keyStep, if_neg (ne_true_of_eq_false henv), h.stored] at hs
    obtain ⟨calls, hcalls, heq⟩ := map_eq_some_iff.1 hs
    cases heq
    have hcall : CopyOk id keys row (.picking (some row)) := ⟨row, rfl, SameKeys.refl row⟩
    exact ⟨⟨row, h.of_calls rfl rfl (forall_get?_insert h.calls hcall hcalls)⟩, Kept.of_running⟩
  | go pid rnd =>
    rw [keyStep] at hs
    split at hs
    · cases hs
    · rename_i _ hc
      exact uncached_advance henv h hc hstale hs

/-! ## With the memory cache -/

/-- The cached channel is a call ahead of the row. -/
structure Ahead (keys : List String) (v w : KeyView) (call : StatusCall) : Prop where
  sound : v.Sound keys call
  update : w = v.update keys call
  skips : Skips v call → w = v

/-- A status change holds the lock, so that its copy is the row and the cached channel is not changed by
another. -/
def CallOk (id : ℤ) (keys : List String) (lock : Option ℕ) (row cached : Channel) (pid : ℕ) :
    KeyCall → Prop
  | .caching call => call.channelId = id ∧ lock = some pid ∧ cached.keyView = row.keyView
  | .reading call =>
    call.channelId = id ∧ lock = some pid ∧ Ahead keys row.keyView cached.keyView call
  | .changing call copy =>
    call.channelId = id ∧ lock = some pid ∧ Ahead keys row.keyView cached.keyView call ∧ copy = row ∧
      row.status ≠ call.status
  | .saving call copy =>
    call.channelId = id ∧ lock = some pid ∧ Ahead keys row.keyView cached.keyView call ∧ copy = row ∧
      row.status ≠ call.status
  | .picking copy => copy = none
  | .polling _ => False
  | .returning _ _ => False

theorem CallOk.eq_picking {lock : Option ℕ} (h : CallOk id keys lock row cached pid c)
    (hlock : lock ≠ some pid) : c = .picking none := by
  cases c with
  | caching | reading | changing | saving => exact absurd h.2.1 hlock
  | picking copy => exact congrArg KeyCall.picking h
  | polling copy => exact h.elim
  | returning copy key => exact h.elim

structure CachedInv (env : ChannelEnv) (id : ℤ) (keys : List String) (s : KeyState)
    (row cached : Channel) : Prop where
  stored : s.shared.channels.get? id = some row
  storedInCache : s.shared.cache.channelsIDM.get? id = some cached
  rowKeys : HasKeys env keys row
  cachedKeys : HasKeys env keys cached
  consistent : row.keyView.Consistent keys
  consistentCached : cached.keyView.Consistent keys
  off : ∀ key ∈ s.disabled, row.keyView.Off keys key
  offCached : ∀ key ∈ s.disabled, cached.keyView.Off keys key
  idle : s.statusLock = none → cached.keyView = row.keyView
  calls : ∀ pid c, s.calls.get? pid = some c → CallOk id keys s.statusLock row cached pid c

section
variable (h : CachedInv env id keys s row cached) (hlock : s.statusLock = some pid)
include h hlock

theorem CachedInv.others
    {pid' : ℕ} (hc : s.calls.get? pid' = some c) (hne : pid' ≠ pid) : c = .picking none := by
  refine (h.calls pid' c hc).eq_picking fun hlock' => hne ?_
  rw [hlock] at hlock'
  exact (some.inj hlock').symm

theorem CachedInv.calls_goOn {cached' : Channel} (hc : CallOk id keys s.statusLock row' cached' pid c) :
    ∀ pid' c', (s.goOn pid c).calls.get? pid' = some c' →
      CallOk id keys s.statusLock row' cached' pid' c' := by
  intro pid' c' hget
  rw [KeyState.goOn, get?_put] at hget
  split_ifs at hget with hpid
  · cases hget
    rw [hpid]
    exact hc
  · obtain rfl := h.others hlock hget hpid
    rfl

theorem CachedInv.calls_finish {cached' : Channel} (lock : Option ℕ) :
    ∀ pid' c', (s.finish pid).calls.get? pid' = some c' → CallOk id keys lock row' cached' pid' c' := by
  intro pid' c' hget
  rw [KeyState.finish, get?_erase] at hget
  split_ifs at hget with hpid
  obtain rfl := h.others hlock hget hpid
  rfl

end

theorem Kept.of_cached (h : CachedInv env id keys s' row cached) (hlock : s'.statusLock = none)
    {changed : Bool} : Kept env id keys s (.updated call changed) s' where
  key _ hout := nomatch hout
  agree _ _ _ _ row' cached' hrow' hcached' := by
    rw [h.stored] at hrow'
    rw [h.storedInCache] at hcached'
    cases hrow'
    cases hcached'
    rw [h.idle hlock]
  row _ _ _ row' hrow' := by
    rw [h.stored] at hrow'
    cases hrow'
    exact h.consistent.status_iff
  cached _ _ _ _ cached' hcached' := by
    rw [h.storedInCache] at hcached'
    cases hcached'
    exact h.consistentCached.status_iff

theorem CachedInv.finishUpdate (h : CachedInv env id keys s row cached)
    (hlock : s.statusLock = some pid) (hview : cached.keyView = row.keyView) :
    CachedInv env id keys (s.finishUpdate pid) row cached :=
  { h with
    idle := fun _ => hview
    calls := h.calls_finish hlock none }

theorem cached_caching (h : CachedInv env id keys s row cached)
    (hcall : CallOk id keys s.statusLock row cached pid (.caching call))
    (hsound : cached.keyView.Sound keys call)
    (hskips : Skips cached.keyView call → cached.keyView.Unchanged keys call)
    (hs : advance env id s pid rnd (.caching call) = some (s', out)) :
    (∃ row' cached', CachedInv env id keys s' row' cached') ∧ Kept env id keys s out s' := by
  obtain ⟨rfl, hlock, hview⟩ := hcall
  obtain ⟨cache', cached', hcache, hcached', hsame, hview'⟩ :=
    updateCachedStatus_spec h.storedInCache h.cachedKeys h.consistentCached hsound
  have hahead : Ahead keys row.keyView cached'.keyView call := by
    rw [hview', hview]
    rw [hview] at hsound hskips
    exact ⟨hsound, rfl, fun hskip => (hskips hskip).update_eq h.consistent⟩
  rw [advance, hcache] at hs
  split at hs
  · cases hs
    have hdisabled : ∀ key ∈ (if call.status = channelStatusEnabled
        then s.disabled.erase call.usingKey else s.disabled), key ∈ s.disabled ∧
          (call.status = channelStatusEnabled → call.usingKey ≠ key) := by
      intro key hkey
      split_ifs at hkey with hen
      · exact ⟨mem_of_mem_erase hkey, fun _ => (ne_of_mem_erase hkey).symm⟩
      · exact ⟨hkey, fun h => absurd h hen⟩
    refine ⟨⟨row, cached', { h with
      storedInCache := hcached'
      cachedKeys := h.cachedKeys.of_same hsame
      consistentCached := ?_
      off := fun key hkey => h.off key (hdisabled key hkey).1
      offCached := fun key hkey => ?_
      idle := fun hnone => ?_
      calls := h.calls_goOn hlock ⟨rfl, hlock, hahead⟩ }⟩, Kept.of_running⟩
    · rw [hview']
      exact h.consistentCached.update hsound
    · rw [hview']
      obtain ⟨hmem, hne⟩ := hdisabled key hkey
      exact (h.offCached key hmem).update hne
    · exact absurd (hlock.symm.trans hnone) (some_ne_none pid)
  · cases hs

theorem cached_saving (h : CachedInv env id keys s row cached)
    (hcall : CallOk id keys s.statusLock row cached pid (.saving call copy))
    (hs : advance env id s pid rnd (.saving call copy) = some (s', out)) :
    (∃ row' cached', CachedInv env id keys s' row' cached') ∧ Kept env id keys s out s' := by
  obtain ⟨rfl, hlock, hahead, rfl, hne⟩ := hcall
  rcases hsaved : saveReadRow env s.shared call copy with ⟨shared, ok⟩
  rw [advance, hsaved] at hs
  cases hs
  cases hsaves : call.saves with
  | false =>
    have hnot := saveReadRow_of_not_saves env s.shared copy hsaves
    rw [hsaved] at hnot
    obtain ⟨rfl, hcache, hchannels⟩ := hnot
    have hview := hahead.skips (.inr hsaves)
    have hinv : CachedInv env call.channelId keys { s.finishUpdate pid with shared := shared } copy
        cached :=
      { h with
        stored := (congrArg (Table.get? · call.channelId) hchannels).trans h.stored
        storedInCache := by
          show shared.cache.channelsIDM.get? call.channelId = _
          rw [show shared.cache = _ from hcache, h.storedInCache]
        idle := fun _ => hview
        calls := h.calls_finish hlock none }
    exact ⟨⟨copy, cached, hinv⟩, Kept.of_cached hinv rfl⟩
  | true =>
    have hspec := saveReadRow_spec h.stored h.rowKeys (SameKeys.refl copy) hne h.consistent
      hahead.sound.ne_zero hsaves
    rw [hsaved] at hspec
    obtain ⟨rfl, hcache, row', hrow', hsame', hview'⟩ := hspec
    have hlevel : cached.keyView = row'.keyView := hahead.update.trans hview'.symm
    have hoff := off_disabledAfter h.off hahead.sound
    have hinv : CachedInv env call.channelId keys { s.finishUpdate pid with
        shared := shared
        disabled := disabledAfter s.disabled call } row' cached :=
      { h with
        stored := hrow'
        storedInCache := by
          show shared.cache.channelsIDM.get? call.channelId = _
          rw [show shared.cache = _ from hcache, h.storedInCache]
        rowKeys := h.rowKeys.of_same hsame'
        consistent := hlevel ▸ h.consistentCached
        off := hview'.symm ▸ hoff
        offCached := hahead.update.symm ▸ hoff
        idle := fun _ => hlevel
        calls := h.calls_finish hlock none }
    exact ⟨⟨row', cached, hinv⟩, Kept.of_cached hinv rfl⟩

theorem cached_picking (henv : env.memoryCacheEnabled = true) (pid : ℕ)
    (h : CachedInv env id keys s row cached)
    (hs : advance env id s pid rnd (.picking none) = some (s', out)) :
    (∃ row' cached', CachedInv env id keys s' row' cached') ∧ Kept env id keys s out s' := by
  have hfinish : CachedInv env id keys (s.finish pid) row cached :=
    { h with calls := forall_get?_erase h.calls }
  have hkey : ∀ idx ∈ enabledIdx keys cached.channelInfo, keys.getD idx "" ∉ s.disabled :=
    fun idx hmem => notMem_of_enabled h.offCached (getElem?_of_mem_enabledIdx hmem)
      (not_isOff_of_mem_enabledIdx hmem)
  rw [advance] at hs
  change (match s.shared.cache.channelsIDM.get? id with | none => _ | some channel => _) = _ at hs
  rw [h.storedInCache] at hs
  dsimp only at hs
  rw [if_neg (ne_false_of_eq_true h.cachedKeys.multi), h.cachedKeys.keys] at hs
  split at hs
  · cases hs
  cases hchoice : chooseKey keys cached.channelInfo rnd with
  | error err =>
    rw [hchoice] at hs
    cases hs
    exact ⟨⟨row, cached, hfinish⟩, Kept.of_failed⟩
  | ok choice =>
    rw [hchoice] at hs
    cases choice with
    | some idx =>
      cases hs
      exact ⟨⟨row, cached, hfinish⟩, Kept.of_key (hkey idx (chooseKey_mem hchoice))⟩
    | none =>
      have hmem := @pollKey_mem keys cached.channelInfo cached.channelInfo.multiKeyPollingIndex
        (enabledIdx_ne_nil_of_chooseKey hchoice)
      obtain ⟨index, hinfo⟩ :=
        pollKey_info keys cached.channelInfo cached.channelInfo.multiKeyPollingIndex
      cases hs
      rw [hinfo]
      refine ⟨⟨row, { cached with
        channelInfo := { cached.channelInfo with multiKeyPollingIndex := index } }, { hfinish with
          storedInCache := ?_
          cachedKeys := h.cachedKeys.of_same ⟨rfl, rfl, rfl⟩
          calls := ?_ }⟩, Kept.of_key (hkey _ hmem)⟩
      · show (s.shared.cache.channelsIDM.modify id _).get? id = _
        rw [get?_modify_self, h.storedInCache]
        rfl
      · intro pid' c hc
        have hok := hfinish.calls pid' c hc
        cases c with
        | caching call => exact hok
        | reading call => exact hok
        | changing call copy => exact hok
        | saving call copy => exact hok
        | picking copy => exact hok
        | polling copy => exact hok
        | returning copy key => exact hok

theorem cached_advance (henv : env.memoryCacheEnabled = true)
    (h : CachedInv env id keys s row cached) (hc : s.calls.get? pid = some c)
    (hstale : NotStale env id keys s (.go pid rnd))
    (hs : advance env id s pid rnd c = some (s', out)) :
    (∃ row' cached', CachedInv env id keys s' row' cached') ∧ Kept env id keys s out s' := by
  have hcall := h.calls pid c hc
  rw [NotStale, hc] at hstale
  cases c with
  | caching call =>
    obtain ⟨hsound, hskips⟩ := hstale cached h.storedInCache
    exact cached_caching h hcall hsound hskips hs
  | reading call =>
    obtain ⟨hid, hlock, hahead⟩ := hcall
    rw [advance, h.stored] at hs
    dsimp only at hs
    split at hs
    · rename_i hstatus
      cases hs
      have hinv := h.finishUpdate hlock (hahead.skips (.inl hstatus))
      exact ⟨⟨row, cached, hinv⟩, Kept.of_cached hinv rfl⟩
    · rename_i hne
      cases hs
      exact ⟨⟨row, cached, { h with
        calls := h.calls_goOn hlock ⟨hid, hlock, hahead, rfl, hne⟩ }⟩, Kept.of_running⟩
  | changing call copy =>
    rw [advance] at hs
    split at hs
    · cases hs
      exact ⟨⟨row, cached, { h with calls := h.calls_goOn hcall.2.1 hcall }⟩, Kept.of_running⟩
    · cases hs
  | saving call copy => exact cached_saving h hcall hs
  | picking copy =>
    obtain rfl := hcall
    exact cached_picking henv pid h hs
  | polling copy => exact hcall.elim
  | returning copy key => exact hcall.elim

theorem cached_step (henv : env.memoryCacheEnabled = true) {a : KeyStep}
    (h : CachedInv env id keys s row cached) (hstale : NotStale env id keys s a)
    (hs : keyStep env id s a = some (s', out)) :
    (∃ row' cached', CachedInv env id keys s' row' cached') ∧ Kept env id keys s out s' := by
  cases a with
  | update pid call =>
    rw [keyStep] at hs
    split at hs
    · cases hs
    rename_i hid
    split at hs
    · rename_i hfree
      obtain ⟨calls, hcalls, heq⟩ := map_eq_some_iff.1 hs
      cases heq
      have hcall : CallOk id keys (some pid) row cached pid (.caching call) :=
        ⟨not_not.1 hid, rfl, h.idle hfree⟩
      refine ⟨⟨row, cached, { h with
        idle := fun _ => h.idle hfree
        calls := forall_get?_insert (fun pid' c hc => ?_) hcall hcalls }⟩, Kept.of_running⟩
      have hlock : s.statusLock ≠ some pid' := by
        rw [hfree]
        exact (some_ne_none pid').symm
      rw [(h.calls pid' c hc).eq_picking hlock]
      rfl
    · cases hs
  | next pid =>
    rw [keyStep, if_pos henv] at hs
    obtain ⟨calls, hcalls, heq⟩ := map_eq_some_iff.1 hs
    cases heq
    have hcall : CallOk id keys s.statusLock row cached pid (.picking none) := rfl
    exact ⟨⟨row, cached, { h with
      calls := forall_get?_insert h.calls hcall hcalls }⟩, Kept.of_running⟩
  | go pid rnd =>
    rw [keyStep] at hs
    split at hs
    · cases hs
    · rename_i _ hc
      exact cached_advance henv h hc hstale hs

/-! ## Runs -/

/-- What every step keeps, in either mode. -/
def KeysInv (env : ChannelEnv) (id : ℤ) (keys : List String) (s : KeyState) : Prop :=
  if env.memoryCacheEnabled then ∃ row cached, CachedInv env id keys s row cached
  else ∃ row, UncachedInv env id keys s row

theorem Settled.keysInv (h : Settled env id keys s) : KeysInv env id keys s := by
  obtain ⟨row, hrow, hkeys, hcons, hcached⟩ := h.row
  have hoff : ∀ (v : KeyView), ∀ key ∈ s.disabled, v.Off keys key := by
    rw [h.disabled]
    exact fun v key hkey => absurd hkey (notMem_empty key)
  have hcalls : ∀ pid c, s.calls.get? pid ≠ some c := by
    rw [h.calls]
    exact fun pid c hc => (nomatch hc)
  unfold KeysInv
  split_ifs with henv
  · obtain ⟨cached, hget, hkeys', hview⟩ := hcached henv
    exact ⟨row, cached, hrow, hget, hkeys, hkeys', hcons, hview ▸ hcons, hoff _, hoff _,
      fun _ => hview, fun pid c hc => absurd hc (hcalls pid c)⟩
  · exact ⟨row, hrow, hkeys, hcons, hoff _, fun pid c hc => absurd hc (hcalls pid c)⟩

theorem KeysInv.step {a : KeyStep} (h : KeysInv env id keys s) (hstale : NotStale env id keys s a)
    (hs : keyStep env id s a = some (s', out)) :
    KeysInv env id keys s' ∧ Kept env id keys s out s' := by
  unfold KeysInv at h ⊢
  split_ifs at h ⊢ with henv
  · obtain ⟨row, cached, hinv⟩ := h
    exact cached_step henv hinv hstale hs
  · obtain ⟨row, hinv⟩ := h
    exact uncached_step (eq_false_of_ne_true henv) hinv hstale hs

/-- In every interleaving from a settled state whose steps neither save nor use what is stale, a key that
a call has disabled is not returned until a later call enables it, the cache and the database agree after
every status change, and the channel is disabled automatically exactly when all its keys are. -/
theorem disabled_key_stays_disabled {s : KeyState} {l : List KeyStep} (h : Settled env id keys s)
    (hstale : Run.Along (keyNext env id) (NotStale env id keys) s l) :
    Run.Along (keyNext env id)
      (fun s a => ∀ s' out, keyStep env id s a = some (s', out) → Kept env id keys s out s') s l := by
  refine Run.along_of_invariant (I := KeysInv env id keys) ?_ ?_ h.keysInv hstale
  · intro s a s' hinv hok hs
    obtain ⟨⟨s₁, out⟩, hstep, rfl⟩ := map_eq_some_iff.1 hs
    exact (hinv.step hok hstep).1
  · intro s a hinv hok s' out hstep
    exact (hinv.step hok hstep).2

theorem other_key_taken_after_disable :
    Run.Along (keyNext {} 1)
      (fun s a => ∀ s' out, keyStep {} 1 s a = some (s', out) → Kept {} 1 ["a", "b"] s out s')
      { shared := {
          channels := ⟨[(1, { key := "a\nb", channelInfo := { isMultiKey := true } })], by decide⟩
          cache := { channelsIDM :=
            ⟨[(1, { key := "a\nb", channelInfo := { isMultiKey := true } })], by decide⟩ } } }
      [.update 7 { channelId := 1, usingKey := "a", status := 3 }, .go 7 0, .go 7 0, .go 7 0, .go 7 0,
        .next 8, .go 8 0] := by
  have hoff : ∀ v : KeyView, v = ⟨1, (∅ : Table ℕ ℤ).get?⟩ → ¬ v.AllOff ["a", "b"] := by
    rintro v rfl hall
    exact hall 0 (by decide) rfl
  refine disabled_key_stays_disabled ⟨rfl, rfl, rfl, rfl, ?_⟩ ?_
  · have hkeys : HasKeys {} ["a", "b"] { key := "a\nb", channelInfo := { isMultiKey := true } } :=
      ⟨rfl, by decide +kernel⟩
    exact ⟨_, rfl, hkeys, ⟨iff_of_false (by decide) (hoff _ rfl), nofun⟩,
      fun _ => ⟨_, rfl, hkeys, rfl⟩⟩
  · refine ⟨trivial, fun cached hcached => ?_, trivial, trivial, nofun, trivial, trivial, trivial⟩
    cases hcached
    have hpart : ¬ KeyView.WholeChannel ["a", "b"]
        { channelId := 1, usingKey := "a", status := 3 } := by
      decide
    refine ⟨⟨fun hwhole => absurd hwhole hpart, fun _ => by decide, fun _ _ idx hidx hne => ?_⟩, ?_⟩
    · match idx with
      | 0 => exact absurd (by decide +kernel) hne
      | 1 => exact absurd hidx (by decide)
      | idx + 2 => cases hidx
    · rintro (hstatus | hsaves)
      · exact absurd hstatus (by decide)
      · cases hsaves

/-- A request that polls writes back the status list it has read: a key disabled in between is returned to
the next request. -/
theorem disabled_key_returned_after_poll :
    ¬ ∀ (env : ChannelEnv) (id : ℤ) (keys : List String) (s : KeyState) (l : List KeyStep),
      Settled env id keys s →
      Run.Along (keyNext env id)
        (fun s a => ∀ s' out, keyStep env id s a = some (s', out) → Kept env id keys s out s') s l := by
  intro hall
  have hoff : ∀ v : KeyView, v = ⟨1, (∅ : Table ℕ ℤ).get?⟩ → ¬ v.AllOff ["a", "b"] := by
    rintro v rfl hall
    exact hall 0 (by decide) rfl
  have halong := hall { memoryCacheEnabled := false } 1 ["a", "b"]
    { shared := { channels := ⟨[(1, { key := "a\nb", channelInfo := {
      isMultiKey := true, multiKeyMode := "polling", multiKeyPollingIndex := 1 } })], by decide⟩ } }
    ([.next 1, .update 2 { channelId := 1, usingKey := "a", status := 3 }, .go 2 0, .go 2 0, .go 2 0,
      .go 1 0, .go 1 0, .go 1 0, .next 3, .go 3 0, .go 3 0] ++ [.go 3 0])
    ⟨rfl, rfl, rfl, rfl, _, rfl, ⟨rfl, by decide +kernel⟩,
      ⟨iff_of_false (by decide) (hoff _ rfl), nofun⟩, nofun⟩
  obtain ⟨s, hs, hdisabled, ⟨s', out⟩, hstep, rfl⟩ : ∃ s,
      Run.run (keyNext { memoryCacheEnabled := false } 1)
        { shared := { channels := ⟨[(1, { key := "a\nb", channelInfo := {
          isMultiKey := true, multiKeyMode := "polling", multiKeyPollingIndex := 1 } })], by decide⟩ } }
        [.next 1, .update 2 { channelId := 1, usingKey := "a", status := 3 }, .go 2 0, .go 2 0,
          .go 2 0, .go 1 0, .go 1 0, .go 1 0, .next 3, .go 3 0, .go 3 0] = some s ∧
        s.disabled = {"a"} ∧ ∃ r, keyStep { memoryCacheEnabled := false } 1 s (.go 3 0) = some r ∧
          r.2 = .key "a" := by
    decide +kernel
  rw [Run.along_append_iff hs] at halong
  refine (halong.2.1 s' (.key "a") hstep).key "a" rfl ?_
  rw [hdisabled]
  exact mem_singleton_self "a"

end BeeApi.Relay
