import BeeApi.Relay.Channel

/-!
# Retries

`service/channel_select.go` and the loop of `controller/relay.go`: an attempt chooses a channel, fails,
excludes the channel and increases the retry counter, an index into the priorities of the channels that
are left.  A priority whose only channel has failed shifts the index, and the next priority is skipped.
-/

namespace BeeApi.Relay

open List Option

/-! ## The scope of retries -/

def retryScopeUnconstrained : ℤ := -1

def retryScopeNoCrossChannel : ℤ := 0

def retryScopeSameDomain : ℤ := 1

def retryScopeCrossChannel : ℤ := 2

/-- The context keys that the choice reads and writes. -/
structure RelayCtx where
  originRetryStrategy : ℤ := 0
  tokenRelayRetryPolicy : String := "system"
  tokenCrossGroupRetry : Bool := false
  autoGroupIndex : Option ℕ := none

def channelStrategyToScope (s : ℤ) : ℤ :=
  if s = 1 then retryScopeNoCrossChannel
  else if s = 2 then retryScopeSameDomain
  else if s = 3 then retryScopeCrossChannel
  else retryScopeUnconstrained

def tokenPolicyToScope (policy : String) : ℤ :=
  let policy := Strings.trimSpace policy
  if policy = "disabled" then retryScopeNoCrossChannel
  else if policy = "cache_domain_only" then retryScopeSameDomain
  else if policy = "allow_cross_channel" then retryScopeCrossChannel
  else retryScopeUnconstrained

/-- `EffectiveRetryScope`: the more conservative of the two. -/
def effectiveRetryScope (ctx : RelayCtx) : ℤ :=
  let ch := channelStrategyToScope ctx.originRetryStrategy
  let tk := tokenPolicyToScope ctx.tokenRelayRetryPolicy
  if ch = retryScopeUnconstrained then tk
  else if tk = retryScopeUnconstrained then ch
  else if ch < tk then ch
  else tk

structure RetryParam where
  tokenGroup : String
  modelName : String
  requestPath : String := ""
  retry : ℕ := 0
  resetNextTry : Bool := false
  excludedChannelIDs : List ℤ := []
  originCacheDomain : String := ""

namespace RetryParam

def cacheDomainFilter (param : RetryParam) (ctx : RelayCtx) : String :=
  if effectiveRetryScope ctx = retryScopeSameDomain then param.originCacheDomain else ""

def excludeChannel (param : RetryParam) (channelID : ℤ) : RetryParam :=
  if channelID ∈ param.excludedChannelIDs then param
  else { param with excludedChannelIDs := param.excludedChannelIDs ++ [channelID] }

def increaseRetry (param : RetryParam) : RetryParam :=
  if param.resetNextTry then { param with resetNextTry := false }
  else { param with retry := param.retry + 1 }

def startOver (param : RetryParam) : RetryParam :=
  { param with retry := 0, excludedChannelIDs := [] }

end RetryParam

/-! ## The choice of a group and a channel -/

/-- What the choice depends on besides the request: the cache, the configuration, and the auto groups,
those of the setting and those the user may use. -/
structure RelayEnv where
  cache : ChannelCache
  cfg : ChannelRoutingConfig := {}
  counts : ℤ → ℚ := fun _ => 0
  retryTimes : ℕ := 0
  settingAutoGroups : List String := []
  userAutoGroups : List String := []

/-- What `CacheGetRandomSatisfiedChannel` leaves behind and returns. -/
structure Selection where
  ctx : RelayCtx
  param : RetryParam
  group : String
  channel : Except String (Option Candidate)

def selectIn (env : RelayEnv) (rnd : ℤ → ℤ) (ctx : RelayCtx) (param : RetryParam) (group : String) :
    Except String (Option Candidate) :=
  getRandomSatisfiedChannelForRequest env.cache env.cfg env.counts rnd group param.modelName
    param.retry param.excludedChannelIDs (param.cacheDomainFilter ctx) param.requestPath

/-- `errors.Is(selErr, model.ErrCapacityNeedQueue)`. -/
def isCapacityQueue (res : Except String (Option Candidate)) : Bool :=
  match res with
  | .error e => e = errCapacityNeedQueue
  | .ok _ => false

/-- The loop over the auto groups from the group with the index `i` on.  The counter starts over when
a group has no channel, so that it is the priority within the current group. -/
def selectAuto (env : RelayEnv) (rnd : ℤ → ℤ) (selectGroup : String) :
    List String → ℕ → RelayCtx → RetryParam → Bool → Selection
  | [], _, ctx, param, sawCapacityQueue =>
    { ctx, param, group := selectGroup
      channel := if sawCapacityQueue then .error errCapacityNeedQueue else .ok none }
  | autoGroup :: groups, i, ctx, param, sawCapacityQueue =>
    match selectIn env rnd ctx param autoGroup with
    | .ok (some channel) =>
      if ctx.tokenCrossGroupRetry ∧ env.retryTimes ≤ param.retry then
        { ctx := { ctx with autoGroupIndex := some (i + 1) }
          param := { param.startOver with resetNextTry := true }
          group := autoGroup
          channel := .ok (some channel) }
      else
        { ctx := { ctx with autoGroupIndex := some i }, param, group := autoGroup
          channel := .ok (some channel) }
    | res =>
      selectAuto env rnd selectGroup groups (i + 1) { ctx with autoGroupIndex := some (i + 1) }
        param.startOver (sawCapacityQueue || isCapacityQueue res)

def cacheGetRandomSatisfiedChannel (env : RelayEnv) (rnd : ℤ → ℤ) (ctx : RelayCtx)
    (param : RetryParam) : Selection :=
  if param.tokenGroup = "auto" then
    if env.settingAutoGroups = [] then
      { ctx, param, group := param.tokenGroup, channel := .error "auto groups is not enabled" }
    else
      let startGroupIndex := ctx.autoGroupIndex.getD 0
      selectAuto env rnd param.tokenGroup (env.userAutoGroups.drop startGroupIndex) startGroupIndex ctx
        param false
  else
    { ctx, param, group := param.tokenGroup, channel := selectIn env rnd ctx param param.tokenGroup }

/-- The loop of `Relay`, and the channels that its attempts have used. -/
structure RelayState where
  ctx : RelayCtx
  param : RetryParam
  tried : List ℤ := []

/-- A failed attempt in a group, made with the counter at the number of the attempt; the label is the
source of random numbers.  An attempt that finds no channel, or is made in another group, ends the
run. -/
def attempt (env : RelayEnv) (group : String) (w : RelayState) (rnd : ℤ → ℤ) : Option RelayState :=
  let r := cacheGetRandomSatisfiedChannel env rnd w.ctx w.param
  match r.channel with
  | .ok (some channel) =>
    if w.param.retry = w.tried.length ∧ r.group = group then
      some
        { ctx := r.ctx
          param := (r.param.excludeChannel channel.1).increaseRetry
          tried := w.tried ++ [channel.1] }
    else none
  | _ => none

/-! ## What an attempt leaves behind -/

def Stays (env : RelayEnv) (ctx : RelayCtx) (param : RetryParam) (r : Selection) : Prop :=
  r.param = param ∧ ∃ i, r.ctx = { ctx with autoGroupIndex := i } ∧
    (param.tokenGroup = "auto" → ∃ k, i = some k ∧ env.userAutoGroups[k]? = some r.group)

def StartsOver (ctx : RelayCtx) (param : RetryParam) (r : Selection) : Prop :=
  r.param = { param.startOver with resetNextTry := true } ∧
    ∃ i, r.ctx = { ctx with autoGroupIndex := i }

variable {env : RelayEnv} {rnd : ℤ → ℤ} {i : ℕ} {ctx : RelayCtx} {param : RetryParam}
  {group : String} {w w' : RelayState}

theorem selectAuto_cons_of_some {autoGroup : String} {c : Candidate}
    (hsel : selectIn env rnd ctx param autoGroup = .ok (some c))
    (hi : env.userAutoGroups[i]? = some autoGroup) (selectGroup : String) (groups : List String)
    (saw : Bool) : let r := selectAuto env rnd selectGroup (autoGroup :: groups) i ctx param saw
    r.channel = .ok (some c) ∧ r.group = autoGroup ∧
      (Stays env ctx param r ∨ StartsOver ctx param r) := by
  rw [selectAuto, hsel]
  split_ifs
  · exact ⟨rfl, rfl, .inr ⟨rfl, some (i + 1), rfl⟩⟩
  · exact ⟨rfl, rfl, .inl ⟨rfl, some i, rfl, fun _ => ⟨i, rfl, hi⟩⟩⟩

theorem selectAuto_cons_of_ne {autoGroup : String}
    (hsel : ∀ c, selectIn env rnd ctx param autoGroup ≠ .ok (some c)) (selectGroup : String)
    (groups : List String) (saw : Bool) :
    ∃ saw', selectAuto env rnd selectGroup (autoGroup :: groups) i ctx param saw =
      selectAuto env rnd selectGroup groups (i + 1) { ctx with autoGroupIndex := some (i + 1) }
        param.startOver saw' := by
  rw [selectAuto]
  split
  · rename_i c hc
    exact absurd hc (hsel c)
  · exact ⟨_, rfl⟩

/-- A loop with a fresh counter: the channel comes from a group that is asked with a fresh counter. -/
theorem selectAuto_of_fresh {selectGroup : String} {groups : List String} {saw : Bool}
    {c : Candidate} (hfresh : param.startOver = param)
    (hgroups : ∀ j, groups[j]? = env.userAutoGroups[i + j]?) {r : Selection}
    (hr : selectAuto env rnd selectGroup groups i ctx param saw = r) (h : r.channel = .ok (some c))
    : selectIn env rnd ctx param r.group = .ok (some c) ∧
      (Stays env ctx param r ∨ StartsOver ctx param r) := by
  induction groups generalizing i ctx saw with
  | nil =>
    rw [← hr, selectAuto] at h
    split_ifs at h
    cases h
  | cons autoGroup groups ih =>
    by_cases hsome : ∃ c', selectIn env rnd ctx param autoGroup = .ok (some c')
    · obtain ⟨c', hsel⟩ := hsome
      have hi : env.userAutoGroups[i]? = some autoGroup := (hgroups 0).symm
      obtain ⟨hchannel, hgroup, hleft⟩ := selectAuto_cons_of_some hsel hi selectGroup groups saw
      rw [hr] at hchannel hgroup hleft
      cases Except.ok.inj (h.symm.trans hchannel)
      exact ⟨hgroup ▸ hsel, hleft⟩
    · obtain ⟨saw', hnext⟩ := selectAuto_cons_of_ne (i := i)
        (fun c' hc' => hsome ⟨c', hc'⟩) selectGroup groups saw
      rw [hnext, hfresh] at hr
      have hshift : ∀ j, groups[j]? = env.userAutoGroups[i + 1 + j]? := by
        intro j
        rw [← getElem?_cons_succ (a := autoGroup), hgroups (j + 1)]
        congr 1
        omega
      obtain ⟨hsel, hleft⟩ := ih hshift hr
      refine ⟨hsel, hleft.imp ?_ ?_⟩
      · rintro ⟨hparam, k, hctx, hauto⟩
        exact ⟨hparam, k, hctx, hauto⟩
      · rintro ⟨hparam, k, hctx⟩
        exact ⟨hparam, k, hctx⟩

/-! ## One attempt -/

/-- As long as the counter is the number of the attempt, the channels that are excluded are the ones that
were tried, and the group index points at the group. -/
structure AttemptInv (env : RelayEnv) (group : String) (start w : RelayState) : Prop where
  sameGroup : w.param.tokenGroup = start.param.tokenGroup
  sameModel : w.param.modelName = start.param.modelName
  samePath : w.param.requestPath = start.param.requestPath
  noFilter : w.param.cacheDomainFilter w.ctx = ""
  counter : w.param.retry = w.tried.length → w.param.resetNextTry = false ∧
    (∀ id, id ∈ w.param.excludedChannelIDs ↔ id ∈ w.tried) ∧
    (w.param.tokenGroup = "auto" → w.tried ≠ [] →
      ∃ i, w.ctx.autoGroupIndex = some i ∧ env.userAutoGroups[i]? = some group)
  picks : Levels.Picks env.cache.priorityOf
    (groupChannels env.cache group start.param.modelName start.param.requestPath).toFinset w.tried

theorem mem_excludeChannel (param : RetryParam) (channelID id : ℤ) :
    id ∈ (param.excludeChannel channelID).excludedChannelIDs ↔
      id ∈ param.excludedChannelIDs ∨ id = channelID := by
  unfold RetryParam.excludeChannel
  split_ifs with hmem
  · constructor
    · exact .inl
    · rintro (hid | rfl)
      · exact hid
      · exact hmem
  · simp

theorem excludeChannel_eq (param : RetryParam) (channelID : ℤ) :
    ∃ ids, param.excludeChannel channelID = { param with excludedChannelIDs := ids } := by
  unfold RetryParam.excludeChannel
  split_ifs
  · exact ⟨param.excludedChannelIDs, rfl⟩
  · exact ⟨_, rfl⟩

theorem attempt_eq_some (h : attempt env group w rnd = some w') :
    ∃ r c, cacheGetRandomSatisfiedChannel env rnd w.ctx w.param = r ∧ r.channel = .ok (some c) ∧
      w.param.retry = w.tried.length ∧ r.group = group ∧
      w' = { ctx := r.ctx, param := (r.param.excludeChannel c.1).increaseRetry
             tried := w.tried ++ [c.1] } := by
  rw [attempt] at h
  split at h
  · rename_i c hc
    obtain ⟨hcond, heq⟩ := ite_none_right_eq_some.1 h
    exact ⟨_, c, rfl, hc, hcond.1, hcond.2, (some.inj heq).symm⟩
  · cases h

section Run

variable {env : RelayEnv} {group : String} {start w w' : RelayState} {rnd : ℤ → ℤ}

theorem AttemptInv.selectIn_spec (rnd : ℤ → ℤ) (h : AttemptInv env group start w)
    (hne : groupChannels env.cache group start.param.modelName start.param.requestPath ≠ [])
    (htable : IsTable env.cache env.cfg
      (groupChannels env.cache group start.param.modelName start.param.requestPath)) :
    ∃ c, selectIn env rnd w.ctx w.param group = .ok (some c) ∧
      c.1 ∈ Levels.remaining (groupChannels env.cache group start.param.modelName
        start.param.requestPath).toFinset w.param.excludedChannelIDs ∧
      Levels.IsLevel env.cache.priorityOf (Levels.remaining (groupChannels env.cache group
        start.param.modelName start.param.requestPath).toFinset w.param.excludedChannelIDs)
        w.param.retry (env.cache.priorityOf c.1) := by
  unfold selectIn
  rw [h.noFilter, h.sameModel, h.samePath]
  exact getRandomSatisfiedChannel_spec env.counts rnd w.param.retry w.param.excludedChannelIDs hne
    htable

theorem AttemptInv.selectIn_of_attempt (h : AttemptInv env group start w)
    (htable : IsTable env.cache env.cfg
      (groupChannels env.cache group start.param.modelName start.param.requestPath))
    {r : Selection} {c : Candidate} (hr : cacheGetRandomSatisfiedChannel env rnd w.ctx w.param = r)
    (hc : r.channel = .ok (some c)) (hretry : w.param.retry = w.tried.length)
    (hgroup : r.group = group) :
    selectIn env rnd w.ctx w.param group = .ok (some c) ∧
      (Stays env w.ctx w.param r ∨ StartsOver w.ctx w.param r) := by
  obtain ⟨-, hexcluded, hindex⟩ := h.counter hretry
  unfold cacheGetRandomSatisfiedChannel at hr
  split at hr
  · rename_i hauto
    split at hr
    · rw [← hr] at hc
      cases hc
    dsimp only at hr
    by_cases htried : w.tried = []
    · -- nothing has been tried, and the counter is fresh
      have hfresh : w.param.startOver = w.param := by
        rw [htried, length_nil] at hretry
        have hnone : w.param.excludedChannelIDs = [] :=
          eq_nil_iff_forall_not_mem.2 fun id hid => by simpa [htried] using (hexcluded id).1 hid
        rw [RetryParam.startOver, ← hretry, ← hnone]
      rw [← hgroup]
      exact selectAuto_of_fresh hfresh (fun j => getElem?_drop) hr hc
    · -- the group of the last attempt is asked first, and it has a channel
      obtain ⟨i, hi, hat⟩ := hindex hauto htried
      have hne : groupChannels env.cache group start.param.modelName start.param.requestPath ≠ [] := by
        intro hnil
        obtain ⟨id, hid⟩ := exists_mem_of_ne_nil _ htried
        have hmem := h.picks.mem hid
        rw [hnil] at hmem
        exact absurd hmem (by simp)
      obtain ⟨c', hsel, -, -⟩ := h.selectIn_spec rnd hne htable
      have hdrop : env.userAutoGroups.drop (w.ctx.autoGroupIndex.getD 0) =
          group :: env.userAutoGroups.drop (i + 1) := by
        obtain ⟨hlt, hget⟩ := List.getElem?_eq_some_iff.1 hat
        rw [hi, getD_some, drop_eq_getElem_cons hlt, hget]
      have hi' : w.ctx.autoGroupIndex.getD 0 = i := by rw [hi, getD_some]
      rw [hdrop, hi'] at hr
      obtain ⟨hchannel, -, hleft⟩ := selectAuto_cons_of_some hsel hat w.param.tokenGroup
        (env.userAutoGroups.drop (i + 1)) false
      rw [hr] at hchannel hleft
      cases Except.ok.inj (hc.symm.trans hchannel)
      exact ⟨hsel, hleft⟩
  · rename_i hauto
    subst hr
    rw [← hgroup]
    exact ⟨hc, .inl ⟨rfl, w.ctx.autoGroupIndex, rfl, fun h => absurd h hauto⟩⟩

theorem AttemptInv.step (htable : IsTable env.cache env.cfg
      (groupChannels env.cache group start.param.modelName start.param.requestPath))
    (h : AttemptInv env group start w) (hstep : attempt env group w rnd = some w') :
    AttemptInv env group start w' := by
  obtain ⟨r, c, hr, hc, hretry, hgroup, rfl⟩ := attempt_eq_some hstep
  obtain ⟨hreset, hexcluded, -⟩ := h.counter hretry
  obtain ⟨hsel, hleft⟩ := h.selectIn_of_attempt htable hr hc hretry hgroup
  have hne : groupChannels env.cache group start.param.modelName start.param.requestPath ≠ [] := by
    intro hnil
    rw [← h.sameModel, ← h.samePath] at hnil
    rw [selectIn, getRandomSatisfiedChannelForRequest, hnil] at hsel
    cases hsel
  obtain ⟨c', hsel', hmem, hlevel⟩ := h.selectIn_spec rnd hne htable
  cases Except.ok.inj (hsel.symm.trans hsel')
  rw [Levels.remaining_congr hexcluded] at hmem hlevel
  rw [hretry] at hlevel
  have hpicks := h.picks.concat hmem hlevel
  obtain ⟨ids, hids⟩ := excludeChannel_eq r.param c.1
  have hin := mem_excludeChannel r.param c.1
  rw [hids] at hin ⊢
  obtain ⟨hparam, i, hctx, hindex⟩ | ⟨hparam, i, hctx⟩ := hleft
  · -- the run stays in the group: the counter goes on
    have hnext : ({ r.param with excludedChannelIDs := ids } : RetryParam).increaseRetry =
        { w.param with excludedChannelIDs := ids, retry := w.param.retry + 1 } := by
      rw [hparam, RetryParam.increaseRetry, if_neg (by simp [hreset])]
    rw [hnext, hctx]
    refine ⟨h.sameGroup, h.sameModel, h.samePath, h.noFilter, fun _ => ⟨hreset, ?_, ?_⟩, hpicks⟩
    · intro id
      rw [mem_append, mem_singleton, ← hexcluded, ← hparam]
      exact hin id
    · intro hauto _
      obtain ⟨k, rfl, hk⟩ := hindex hauto
      exact ⟨k, rfl, hgroup ▸ hk⟩
  · -- the counter starts over, and is the number of an attempt no more
    have hnext : ({ r.param with excludedChannelIDs := ids } : RetryParam).increaseRetry =
        { w.param with excludedChannelIDs := ids, retry := 0, resetNextTry := false } := by
      rw [hparam, RetryParam.increaseRetry, if_pos rfl, RetryParam.startOver]
    rw [hnext, hctx]
    refine ⟨h.sameGroup, h.sameModel, h.samePath, h.noFilter, fun hzero => ?_, hpicks⟩
    rw [length_append, length_singleton] at hzero
    cases hzero

end Run

/-! ## Runs -/

/-- A request before its first attempt, with no cache domain filter. -/
structure Fresh (w : RelayState) : Prop where
  retry : w.param.retry = 0
  reset : w.param.resetNextTry = false
  excluded : w.param.excludedChannelIDs = []
  tried : w.tried = []
  filter : w.param.cacheDomainFilter w.ctx = ""

theorem Fresh.attemptInv {start : RelayState} (h : Fresh start) :
    AttemptInv env group start start where
  sameGroup := rfl
  sameModel := rfl
  samePath := rfl
  noFilter := h.filter
  counter _ := ⟨h.reset, by simp [h.excluded, h.tried], fun _ hne => absurd h.tried hne⟩
  picks := h.tried ▸ Levels.picks_nil _

theorem attempt_tried (h : attempt env group w rnd = some w') :
    w'.tried.length = w.tried.length + 1 := by
  obtain ⟨r, c, -, -, -, -, rfl⟩ := attempt_eq_some h
  simp

theorem length_tried_of_run {draws : List (ℤ → ℤ)}
    (h : Run.run (attempt env group) w draws = some w') :
    w'.tried.length = w.tried.length + draws.length := by
  induction draws generalizing w with
  | nil =>
    cases h
    rfl
  | cons rnd draws ih =>
    obtain ⟨w₁, h₁, h₂⟩ := Run.run_cons_eq_some_iff.1 h
    rw [ih h₂, attempt_tried h₁, length_cons]
    omega

/-- What the flow promises of the channels that are tried: attempt `k` is at the `k`-th highest
priority of the group, or at the lowest one, the priorities never increase, and none between two
attempts is skipped. -/
structure RetriesDescend (cache : ChannelCache) (channels : List ℤ) (tried : List ℤ) : Prop where
  level : ∀ k id, tried[k]? = some id →
    Levels.IsLevel cache.priorityOf channels.toFinset k (cache.priorityOf id)
  next : ∀ k id id', tried[k]? = some id → tried[k + 1]? = some id' →
    cache.priorityOf id' ≤ cache.priorityOf id ∧ ∀ b ∈ channels.toFinset.image cache.priorityOf,
        ¬ (cache.priorityOf id' < b ∧ b < cache.priorityOf id)

/-- The retries of a request in a group descend through its priorities exactly when every priority that
they leave has another channel, the two lowest ones apart, and the lowest priority has a channel for
every attempt that gets there, unless all channels are tried before. -/
theorem retries_descend_iff (env : RelayEnv) (group : String) {start w : RelayState}
    {draws : List (ℤ → ℤ)} (hstart : Fresh start) (htable : IsTable env.cache env.cfg
      (groupChannels env.cache group start.param.modelName start.param.requestPath))
    (h : Run.run (attempt env group) start draws = some w) :
    RetriesDescend env.cache
        (groupChannels env.cache group start.param.modelName start.param.requestPath) w.tried ↔
      Levels.Deep env.cache.priorityOf (groupChannels env.cache group start.param.modelName
        start.param.requestPath).toFinset draws.length := by
  have hinv : AttemptInv env group start w :=
    Run.invariant (fun _ _ _ hi hs => hi.step htable hs) hstart.attemptInv h
  have hlength : w.tried.length = draws.length := by
    rw [length_tried_of_run h, hstart.tried, length_nil, Nat.zero_add]
  rw [← hlength, ← Levels.descends_iff hinv.picks]
  constructor
  · exact fun hd => hd.level
  · exact fun hd => ⟨hd, fun k id id' hid hid' => hd.next hid hid'⟩

def prioritized (channels : List (ℤ × ℤ)) : RelayEnv where
  cache :=
    { group2model2channels := (∅ : Table _ _).put ("default", "gpt-4o") (channels.map Prod.fst)
      channelsIDM := channels.foldl (fun t c => t.put c.1 { priority := some c.2 }) ∅ }
  retryTimes := 3

def prioritizedRequest : RelayState where
  ctx := {}
  param := { tokenGroup := "default", modelName := "gpt-4o" }

theorem fresh_prioritizedRequest : Fresh prioritizedRequest :=
  ⟨rfl, rfl, rfl, rfl, by decide +kernel⟩

theorem retries_descend_of_twoEach :
    ∃ w, Run.run (attempt (prioritized [(1, 30), (2, 30), (3, 20), (4, 20)]) "default")
        prioritizedRequest [fun _ => 0, fun _ => 0] = some w ∧
      RetriesDescend (prioritized [(1, 30), (2, 30), (3, 20), (4, 20)]).cache
        (groupChannels (prioritized [(1, 30), (2, 30), (3, 20), (4, 20)]).cache "default" "gpt-4o" "")
        w.tried := by
  exact exists_some_imp (p := fun _ => True) (by decide +kernel) fun w hw _ =>
    (retries_descend_iff _ "default" fresh_prioritizedRequest (by decide +kernel) hw).2
      ⟨by decide +kernel, by decide +kernel⟩

/-- With one channel at each of three priorities the second attempt is at the third priority. -/
theorem retries_skip_singleChannel :
    IsTable (prioritized [(1, 30), (2, 20), (3, 10)]).cache {}
        (groupChannels (prioritized [(1, 30), (2, 20), (3, 10)]).cache "default" "gpt-4o" "") ∧
      Fresh prioritizedRequest ∧
      ∃ w, Run.run (attempt (prioritized [(1, 30), (2, 20), (3, 10)]) "default") prioritizedRequest
          [fun _ => 0, fun _ => 0] = some w ∧
        ¬ RetriesDescend (prioritized [(1, 30), (2, 20), (3, 10)]).cache
          (groupChannels (prioritized [(1, 30), (2, 20), (3, 10)]).cache "default" "gpt-4o" "")
          w.tried := by
  refine ⟨by decide +kernel, fresh_prioritizedRequest, ?_⟩
  refine exists_some_imp (p := fun w => w.tried = [1, 3]) (by decide +kernel)
    fun w _ htried hd => ?_
  rw [htried] at hd
  exact absurd (hd.level 1 3 rfl) (by decide +kernel)

end BeeApi.Relay
