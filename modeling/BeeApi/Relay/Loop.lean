import BeeApi.Relay.Retry

/-!
# The retry loop

The loop of `Relay` in `controller/relay.go`, with `getChannel` and `shouldRetry`.  Its counter is set back
to zero when a group is exhausted, and the increment that follows is suppressed; the auto group index only
grows.  The first rounds use the channel that the distributor has put into the context.
-/

namespace BeeApi.Relay

open List Option

/-! ## Retry decisions -/

/-- The parts of `types.NewAPIError` that decide about a retry. -/
structure NewAPIError where
  errorCode : String
  skipRetry : Bool := false
  statusCode : ℤ
deriving DecidableEq

def isChannelError (err : NewAPIError) : Bool := Strings.hasPrefix err.errorCode "channel:"

/-- What `shouldRetry` reads besides the error: the affinity rule of the request, whether the token
names a channel, and the status codes that are retried. -/
structure RetryRules where
  skipAfterAffinity : Bool := false
  specificChannel : Bool := false
  automaticRetryStatusCodeRanges : List (ℤ × ℤ) :=
    [(100, 199), (300, 399), (401, 407), (409, 499), (500, 503), (505, 523), (525, 599)]

/-- The loop of `shouldMatchStatusCodeRanges`; the ranges are in order. -/
def matchRanges (code : ℤ) : List (ℤ × ℤ) → Bool
  | [] => false
  | r :: ranges => if code < r.1 then false else if code ≤ r.2 then true else matchRanges code ranges

def shouldMatchStatusCodeRanges (ranges : List (ℤ × ℤ)) (code : ℤ) : Bool :=
  if code < 100 ∨ 599 < code then false else matchRanges code ranges

def shouldRetryByStatusCode (rules : RetryRules) (code : ℤ) : Bool :=
  if code = 504 ∨ code = 524 then false
  else shouldMatchStatusCodeRanges rules.automaticRetryStatusCodeRanges code

/-- `shouldRetry`: a channel error asks for a retry whatever the number of retries left. -/
def shouldRetry (rules : RetryRules) (ctx : RelayCtx) (err : NewAPIError) (retryTimes : ℤ) : Bool :=
  if rules.skipAfterAffinity then false
  else if effectiveRetryScope ctx = retryScopeNoCrossChannel then false
  else if isChannelError err then true
  else if err.skipRetry then false
  else if retryTimes ≤ 0 then false
  else if rules.specificChannel then false
  else if 200 ≤ err.statusCode ∧ err.statusCode < 300 then false
  else if err.statusCode < 100 ∨ 599 < err.statusCode then true
  else if err.errorCode = "bad_response_body" then false
  else shouldRetryByStatusCode rules err.statusCode

/-! ## Rounds -/

/-- The channel that the distributor has chosen, and the group that it was chosen in. -/
structure Origin where
  channelID : ℤ
  group : String

/-- What a round meets: the routing table at the time, the deadlines, whether the channel can be set up
and the body be read, and what the handler returns. -/
structure Round where
  cache : ChannelCache := {}
  counts : ℤ → ℚ := fun _ => 0
  rnd : ℤ → ℤ := fun _ => 0
  expired : Bool := false
  setupFails : Bool := false
  expiredWaiting : Bool := false
  bodyFails : Bool := false
  initChannelMeta : Bool := true
  result : Option NewAPIError := none

/-- The state of the loop, the groups of the channels used so far, and the group indices that the
choices have read. -/
structure RelayLoop where
  ctx : RelayCtx
  param : RetryParam
  channelMeta : Bool := false
  finished : Bool := false
  attempts : List String := []
  indices : List ℕ := []

namespace RelayLoop

def index (w : RelayLoop) : ℕ := w.ctx.autoGroupIndex.getD 0

def finish (w : RelayLoop) : RelayLoop := { w with finished := true }

end RelayLoop

/-- The configuration with the routing table of a round. -/
def RelayEnv.during (env : RelayEnv) (round : Round) : RelayEnv :=
  { env with cache := round.cache, counts := round.counts }

/-- `getChannel`: the channel of the context until a handler has set the channel meta, and then the
choice. -/
def getChannel (env : RelayEnv) (origin : Origin) (w : RelayLoop) (round : Round) :
    RelayLoop × Option Origin :=
  if w.channelMeta = false then (w, some origin)
  else
    let r := cacheGetRandomSatisfiedChannel (env.during round) round.rnd w.ctx w.param
    let w := { w with ctx := r.ctx, param := r.param, indices := w.indices ++ [w.index] }
    match r.channel with
    | .ok (some channel) =>
      if round.setupFails then (w, none) else (w, some ⟨channel.1, r.group⟩)
    | _ => (w, none)

/-- A round of the loop of `Relay`; `decision` is `shouldRetry`. -/
def relayRound (decision : RelayCtx → NewAPIError → ℤ → Bool) (env : RelayEnv) (origin : Origin)
    (w : RelayLoop) (round : Round) : Option RelayLoop :=
  if w.finished ∨ env.retryTimes < w.param.retry then none
  else if round.expired then some w.finish
  else
    match getChannel env origin w round with
    | (w, none) => some w.finish
    | (w, some channel) =>
      if 0 < w.param.retry ∧ round.expiredWaiting then some w.finish
      else
        let w := { w with attempts := w.attempts ++ [channel.group] }
        if round.bodyFails then some w.finish
        else
          match round.result with
          | none => some w.finish
          | some err =>
            let param := w.param.excludeChannel channel.channelID
            let w := { w with channelMeta := w.channelMeta || round.initChannelMeta }
            if decision w.ctx err (env.retryTimes - param.retry) then
              some { w with param := param.increaseRetry }
            else some { w with param := param, finished := true }

/-! ## The choice moves forward -/

/-- The choice of the auto group with the index `j`, asked with the counter `retry`: the next choice
starts at the same group, or at the next one with a fresh counter. -/
structure ChosenAt (env : RelayEnv) (reset : Bool) (r : Selection) (j retry : ℕ) : Prop where
  group : env.userAutoGroups[j]? = some r.group
  left : (r.ctx.autoGroupIndex = some j ∧ r.param.retry = retry ∧ r.param.resetNextTry = reset) ∨
    (env.retryTimes ≤ retry ∧ r.ctx.autoGroupIndex = some (j + 1) ∧ r.param.retry = 0 ∧
      r.param.resetNextTry = true)

variable {env : RelayEnv} {origin : Origin} {w w' : RelayLoop} {round : Round}
  {decision : RelayCtx → NewAPIError → ℤ → Bool}

/-- The loop over the auto groups never goes back, and asks every group but the first one with a fresh
counter. -/
theorem selectAuto_spec {rnd : ℤ → ℤ} {selectGroup : String} {groups : List String} {i : ℕ}
    {ctx : RelayCtx} {param : RetryParam} {saw : Bool} {r : Selection}
    (hgroups : ∀ j, groups[j]? = env.userAutoGroups[i + j]?) (hi : ctx.autoGroupIndex.getD 0 ≤ i)
    (hr : selectAuto env rnd selectGroup groups i ctx param saw = r) :
    r.param.tokenGroup = param.tokenGroup ∧
      ctx.autoGroupIndex.getD 0 ≤ r.ctx.autoGroupIndex.getD 0 ∧
      ∀ c, r.channel = .ok (some c) → ∃ j, i ≤ j ∧
        ChosenAt env param.resetNextTry r j (if j = i then param.retry else 0) := by
  induction groups generalizing i ctx param saw with
  | nil =>
    subst hr
    rw [selectAuto]
    refine ⟨rfl, le_rfl, fun c hc => ?_⟩
    split_ifs at hc
    cases hc
  | cons autoGroup groups ih =>
    have hat : env.userAutoGroups[i]? = some autoGroup := (hgroups 0).symm
    by_cases hsome : ∃ c', selectIn env rnd ctx param autoGroup = .ok (some c')
    · obtain ⟨c', hsel⟩ := hsome
      rw [selectAuto, hsel] at hr
      split_ifs at hr with hcross <;> subst hr
      · refine ⟨rfl, Nat.le_succ_of_le hi, fun c _ => ⟨i, le_rfl, hat, .inr ?_⟩⟩
        rw [if_pos rfl]
        exact ⟨hcross.2, rfl, rfl, rfl⟩
      · refine ⟨rfl, hi, fun c _ => ⟨i, le_rfl, hat, .inl ?_⟩⟩
        rw [if_pos rfl]
        exact ⟨rfl, rfl, rfl⟩
    · obtain ⟨saw', hnext⟩ := selectAuto_cons_of_ne (i := i)
        (fun c' hc' => hsome ⟨c', hc'⟩) selectGroup groups saw
      rw [hnext] at hr
      have hshift : ∀ j, groups[j]? = env.userAutoGroups[i + 1 + j]? := by
        intro j
        rw [← getElem?_cons_succ (a := autoGroup), hgroups (j + 1)]
        congr 1
        omega
      obtain ⟨htoken, hle, hchosen⟩ := ih hshift le_rfl hr
      refine ⟨htoken, le_trans (Nat.le_succ_of_le hi) hle, fun c hc => ?_⟩
      obtain ⟨j, hj, hat'⟩ := hchosen c hc
      refine ⟨j, by omega, ?_⟩
      -- the groups after the first one are asked with a counter of zero
      have hzero : (if j = i + 1 then param.startOver.retry else 0) = if j = i then param.retry else 0 := by
        rw [if_neg (by omega : ¬ j = i)]
        split_ifs <;> rfl
      rw [hzero] at hat'
      exact hat'

theorem cacheGetRandomSatisfiedChannel_spec {rnd : ℤ → ℤ} {ctx : RelayCtx} {param : RetryParam}
    {r : Selection} (hr : cacheGetRandomSatisfiedChannel env rnd ctx param = r) :
    r.param.tokenGroup = param.tokenGroup ∧
      ctx.autoGroupIndex.getD 0 ≤ r.ctx.autoGroupIndex.getD 0 ∧
      (param.tokenGroup ≠ "auto" → r.ctx = ctx ∧ r.param = param) ∧
      (param.tokenGroup = "auto" → ∀ c, r.channel = .ok (some c) →
        ∃ j, ctx.autoGroupIndex.getD 0 ≤ j ∧ ChosenAt env param.resetNextTry r j
          (if j = ctx.autoGroupIndex.getD 0 then param.retry else 0)) := by
  unfold cacheGetRandomSatisfiedChannel at hr
  split at hr
  · rename_i hauto
    split at hr
    · subst hr
      exact ⟨rfl, le_rfl, fun h => absurd hauto h, fun _ c hc => by cases hc⟩
    obtain ⟨htoken, hle, hchosen⟩ := selectAuto_spec (fun j => getElem?_drop) le_rfl hr
    exact ⟨htoken, hle, fun h => absurd hauto h, fun _ => hchosen⟩
  · rename_i hauto
    subst hr
    exact ⟨rfl, le_rfl, fun _ => ⟨rfl, rfl⟩, fun h => absurd h hauto⟩

/-! ## What a round does -/

/-- The round uses the channel of the context, or there is only one group. -/
def RelayLoop.Early (w : RelayLoop) : Prop :=
  w.channelMeta = false ∨ w.param.tokenGroup ≠ "auto"

/-- The group indices that are read grow with the group index. -/
structure Moves (w w' : RelayLoop) : Prop where
  tokenGroup : w'.param.tokenGroup = w.param.tokenGroup
  index : w.index ≤ w'.index
  indices : w'.indices = w.indices ∨ w'.indices = w.indices ++ [w.index]

/-- An attempt in a group: early on the counter is increased; later the attempt is at a group that the
group index has not passed, with the counter within the group. -/
inductive AttemptIn (env : RelayEnv) (w w' : RelayLoop) (group : String) : Prop
  | early (hearly : w.Early) (hindex : w'.index = w.index)
      (hgroup : w.channelMeta = true → group = w.param.tokenGroup)
      (hnext : w'.finished = false →
        w'.param.retry = w.param.retry + 1 ∧ w'.param.resetNextTry = false)
  | auto (hauto : ¬ w'.Early) (j : ℕ) (hj : w.index ≤ j)
      (hgroup : env.userAutoGroups[j]? = some group)
      (hnext : w'.finished = false → w'.param.resetNextTry = false ∧
        ((w'.index = j ∧ w'.param.retry = (if j = w.index then w.param.retry else 0) + 1) ∨
          (env.retryTimes ≤ (if j = w.index then w.param.retry else 0) ∧ w'.index = j + 1 ∧
            w'.param.retry = 0)))

theorem excludeChannel_increaseRetry (param : RetryParam) (channelID : ℤ) :
    (param.excludeChannel channelID).increaseRetry.tokenGroup = param.tokenGroup ∧
      (param.excludeChannel channelID).increaseRetry.retry =
        (if param.resetNextTry then param.retry else param.retry + 1) ∧
      (param.excludeChannel channelID).increaseRetry.resetNextTry = false := by
  obtain ⟨ids, hids⟩ := excludeChannel_eq param channelID
  rw [hids, RetryParam.increaseRetry]
  cases hreset : param.resetNextTry <;> simp

theorem getChannel_spec {channel : Option Origin}
    (h : getChannel env origin w round = (w', channel)) :
    Moves w w' ∧ w'.attempts = w.attempts ∧ w'.channelMeta = w.channelMeta ∧
      (w.Early → w'.ctx = w.ctx ∧ w'.param = w.param) ∧
      ∀ c, channel = some c → (w.channelMeta = false → c = origin) ∧
        (w.channelMeta = true → w.param.tokenGroup ≠ "auto" → c.group = w.param.tokenGroup) ∧
        (¬ w.Early → ∃ j, w.index ≤ j ∧ ∃ r, r.group = c.group ∧ r.ctx = w'.ctx ∧
          r.param = w'.param ∧ ChosenAt env w.param.resetNextTry r j
            (if j = w.index then w.param.retry else 0)) := by
  unfold getChannel at h
  split at h
  · rename_i hmeta
    cases h
    refine ⟨⟨rfl, le_rfl, .inl rfl⟩, rfl, rfl, fun _ => ⟨rfl, rfl⟩, fun c hc => ⟨fun _ => ?_, ?_, ?_⟩⟩
    · exact (some.inj hc).symm
    · intro htrue
      rw [hmeta] at htrue
      cases htrue
    · exact fun hnot => absurd (.inl hmeta) hnot
  rename_i hmeta
  generalize hr : cacheGetRandomSatisfiedChannel (env.during round) round.rnd w.ctx w.param = r at h
  obtain ⟨htoken, hle, hstay, hchosen⟩ := cacheGetRandomSatisfiedChannel_spec hr
  dsimp only at h
  have hw' : w' = { w with ctx := r.ctx, param := r.param, indices := w.indices ++ [w.index] } := by
    split at h
    · split_ifs at h <;> exact (Prod.mk.inj h).1.symm
    · exact (Prod.mk.inj h).1.symm
  subst hw'
  refine ⟨⟨htoken, hle, .inr rfl⟩, rfl, rfl, fun hearly => hstay (hearly.resolve_left hmeta), ?_⟩
  rintro c rfl
  obtain ⟨channel, hchannel, hgroup⟩ : ∃ channel, r.channel = .ok (some channel) ∧
      r.group = c.group := by
    split at h
    · rename_i channel hchannel
      split_ifs at h
      · cases h
      · exact ⟨channel, hchannel, congrArg Origin.group (some.inj (Prod.mk.inj h).2)⟩
    · cases h
  refine ⟨fun hfalse => absurd hfalse hmeta, fun _ hne => ?_, fun hnot => ?_⟩
  · rw [← hgroup, ← hr, cacheGetRandomSatisfiedChannel, if_neg hne]
  · have hauto : w.param.tokenGroup = "auto" := by
      by_contra hne
      exact hnot (.inr hne)
    obtain ⟨j, hj, hat⟩ := hchosen hauto channel hchannel
    exact ⟨j, hj, r, hgroup, rfl, rfl, hat.group, hat.left⟩

theorem attemptIn_of_getChannel {c : Origin} {w₁ : RelayLoop}
    (hreset : w.param.resetNextTry = false) (hget : getChannel env origin w round = (w₁, some c))
    (hctx : w'.ctx = w₁.ctx) (htoken : w'.param.tokenGroup = w₁.param.tokenGroup)
    (hmeta : w₁.channelMeta = true → w'.channelMeta = true)
    (hnext : w'.finished = false → w'.param = (w₁.param.excludeChannel c.channelID).increaseRetry) :
    AttemptIn env w w' c.group := by
  obtain ⟨hmoves, -, hmeta₁, hstay, hchannel⟩ := getChannel_spec hget
  obtain ⟨-, hgroup, hlater⟩ := hchannel c rfl
  obtain ⟨-, hretry, hreset'⟩ := excludeChannel_increaseRetry w₁.param c.channelID
  by_cases hearly : w.Early
  · obtain ⟨hctx₁, hparam₁⟩ := hstay hearly
    refine .early hearly ?_ (fun h => hgroup h ?_) fun hopen => ?_
    · rw [RelayLoop.index, hctx, hctx₁]
      rfl
    · exact hearly.resolve_left (by simp [h])
    · rw [hnext hopen, hretry, hreset', hparam₁, hreset]
      exact ⟨rfl, rfl⟩
  · obtain ⟨j, hj, r, hg, hrctx, hrparam, hat⟩ := hlater hearly
    obtain ⟨htrue, hauto⟩ := not_or.1 hearly
    have hlate : ¬ w'.Early := by
      refine not_or.2 ⟨?_, ?_⟩
      · rw [hmeta (by rw [hmeta₁]; simpa using htrue)]
        decide
      · rwa [htoken, hmoves.tokenGroup]
    refine .auto hlate j hj (hg ▸ hat.group) fun hopen => ?_
    have hindex : w'.index = r.ctx.autoGroupIndex.getD 0 := by rw [RelayLoop.index, hctx, hrctx]
    rw [hnext hopen, hreset', hretry, ← hrparam, hindex]
    refine ⟨rfl, ?_⟩
    obtain ⟨hi, hr, hrr⟩ | ⟨hlast, hi, hr, hrr⟩ := hat.left
    · left
      rw [hi, hr, hrr, hreset]
      exact ⟨rfl, rfl⟩
    · right
      rw [hi, hr, hrr]
      exact ⟨hlast, rfl, rfl⟩

theorem relayRound_cases (hreset : w.param.resetNextTry = false)
    (h : relayRound decision env origin w round = some w') :
    w.finished = false ∧ w.param.retry ≤ env.retryTimes ∧ Moves w w' ∧
      ((w'.finished = true ∧ w'.attempts = w.attempts) ∨
        ∃ group, w'.attempts = w.attempts ++ [group] ∧ AttemptIn env w w' group ∧
          (w.channelMeta = false → group = origin.group)) := by
  obtain ⟨hguard, h⟩ := ite_none_left_eq_some.1 h
  obtain ⟨hopen, hretry⟩ := not_or.1 hguard
  refine ⟨by simpa using hopen, by omega, ?_⟩
  split at h
  · cases h
    exact ⟨⟨rfl, le_rfl, .inl rfl⟩, .inl ⟨rfl, rfl⟩⟩
  generalize hget : getChannel env origin w round = got at h
  obtain ⟨w₁, channel⟩ := got
  obtain ⟨hmoves, hattempts, hmeta, hearly, hchannel⟩ := getChannel_spec hget
  have hfinish : Moves w w₁.finish := ⟨hmoves.tokenGroup, hmoves.index, hmoves.indices⟩
  cases channel with
  | none =>
    cases h
    exact ⟨hfinish, .inl ⟨rfl, hattempts⟩⟩
  | some c =>
    dsimp only at h
    have horigin := fun hfalse => congrArg Origin.group ((hchannel c rfl).1 hfalse)
    split at h
    · cases h
      exact ⟨hfinish, .inl ⟨rfl, hattempts⟩⟩
    -- the channel is used, whatever comes next
    have hused : ∀ w', w'.ctx = w₁.ctx → w'.param.tokenGroup = w₁.param.tokenGroup →
        w'.indices = w₁.indices → w'.attempts = w₁.attempts ++ [c.group] →
        (w₁.channelMeta = true → w'.channelMeta = true) →
        (w'.finished = false → w'.param = (w₁.param.excludeChannel c.channelID).increaseRetry) →
        Moves w w' ∧ ((w'.finished = true ∧ w'.attempts = w.attempts) ∨
          ∃ group, w'.attempts = w.attempts ++ [group] ∧ AttemptIn env w w' group ∧
            (w.channelMeta = false → group = origin.group)) := by
      intro w' hctx htoken hindices hused htrue hnext
      refine ⟨⟨htoken.trans hmoves.tokenGroup, ?_, hindices ▸ hmoves.indices⟩,
        .inr ⟨c.group, by rw [hused, hattempts], ?_, horigin⟩⟩
      · rw [RelayLoop.index, RelayLoop.index, hctx]
        exact hmoves.index
      · exact attemptIn_of_getChannel hreset hget hctx htoken htrue hnext
    split at h
    · cases h
      exact hused _ rfl rfl rfl rfl id nofun
    cases hresult : round.result with
    | none =>
      rw [hresult] at h
      cases h
      exact hused _ rfl rfl rfl rfl id nofun
    | some err =>
      rw [hresult] at h
      dsimp only at h
      split_ifs at h with hagain
      · cases h
        refine hused _ rfl (excludeChannel_increaseRetry _ _).1 rfl rfl (fun htrue => ?_) fun _ => rfl
        simp [htrue]
      · cases h
        refine hused _ rfl ?_ rfl rfl (fun htrue => ?_) nofun
        · obtain ⟨ids, hids⟩ := excludeChannel_eq w₁.param c.channelID
          rw [hids]
        · simp [htrue]

/-! ## Bounds -/

/-- What the rounds keep: the bound on the attempts, the order of the group indices, and, as long as the
loop goes on, that the attempts fit into the groups that the index has passed and the counter. -/
structure LoopInv (env : RelayEnv) (w : RelayLoop) : Prop where
  total : w.attempts.length ≤ (env.retryTimes + 1) * max 1 env.userAutoGroups.length
  sorted : w.indices.Pairwise (· ≤ ·)
  read : ∀ i ∈ w.indices, i ≤ w.index
  reset : w.finished = false → w.param.resetNextTry = false
  fits : w.finished = false → w.attempts.length ≤ w.index * (env.retryTimes + 1) + w.param.retry
  early : w.finished = false → w.Early → w.attempts.length = w.param.retry

theorem LoopInv.step (hinv : LoopInv env w) (h : relayRound decision env origin w round = some w') :
    LoopInv env w' := by
  have hopen : w.finished = false := by
    obtain ⟨hguard, -⟩ := ite_none_left_eq_some.1 h
    simpa using (not_or.1 hguard).1
  obtain ⟨-, hretry, hmoves, hcases⟩ := relayRound_cases (hinv.reset hopen) h
  have hread : ∀ i ∈ w'.indices, i ≤ w'.index := by
    intro i hi
    obtain hsame | hmore := hmoves.indices
    · rw [hsame] at hi
      exact (hinv.read i hi).trans hmoves.index
    · rw [hmore, mem_append, mem_singleton] at hi
      obtain hi | rfl := hi
      · exact (hinv.read i hi).trans hmoves.index
      · exact hmoves.index
  have hsorted : w'.indices.Pairwise (· ≤ ·) := by
    obtain hsame | hmore := hmoves.indices
    · rw [hsame]
      exact hinv.sorted
    · rw [hmore, pairwise_append]
      refine ⟨hinv.sorted, pairwise_singleton _ _, fun i hi j hj => ?_⟩
      rw [mem_singleton] at hj
      exact hj ▸ hinv.read i hi
  obtain ⟨hdone, hattempts⟩ | ⟨group, hattempts, hin, -⟩ := hcases
  · have hnot : ¬ w'.finished = false := by simp [hdone]
    exact ⟨hattempts ▸ hinv.total, hsorted, hread, fun h => absurd h hnot, fun h => absurd h hnot,
      fun h => absurd h hnot⟩
  have hlength : w'.attempts.length = w.attempts.length + 1 := by
    rw [hattempts, length_append, length_singleton]
  have hfits := hinv.fits hopen
  cases hin with
  | early hearly hindex hgroup hnext =>
    have heq := hinv.early hopen hearly
    have hpos : (env.retryTimes + 1) * 1 ≤ (env.retryTimes + 1) * max 1 env.userAutoGroups.length :=
      Nat.mul_le_mul_left _ (le_max_left _ _)
    refine ⟨by omega, hsorted, hread, fun h => (hnext h).2, fun h => ?_, fun h _ => ?_⟩
    · rw [hindex, (hnext h).1]
      omega
    · rw [(hnext h).1]
      omega
  | auto hauto j hj hgroup hnext =>
    have hlt : j < env.userAutoGroups.length := (List.getElem?_eq_some_iff.1 hgroup).1
    -- the attempts before this one fit into the groups before `j` and the counter within it
    have hbefore : w.attempts.length ≤ j * (env.retryTimes + 1) +
        if j = w.index then w.param.retry else 0 := by
      split_ifs with heq
      · rw [heq]
        exact hfits
      · have hmul : (w.index + 1) * (env.retryTimes + 1) ≤ j * (env.retryTimes + 1) :=
          Nat.mul_le_mul_right _ (by omega)
        rw [Nat.add_mul] at hmul
        omega
    have hle : (if j = w.index then w.param.retry else 0) ≤ env.retryTimes := by
      split_ifs <;> omega
    have hall : (j + 1) * (env.retryTimes + 1) ≤
        (env.retryTimes + 1) * max 1 env.userAutoGroups.length := by
      rw [Nat.mul_comm]
      exact Nat.mul_le_mul_left _ (le_max_of_le_right hlt)
    rw [Nat.add_mul] at hall
    refine ⟨by omega, hsorted, hread, fun h => (hnext h).1, fun h => ?_, fun _ he => absurd he hauto⟩
    obtain ⟨hindex, hr⟩ | ⟨-, hindex, hr⟩ := (hnext h).2
    · rw [hindex, hr]
      omega
    · rw [hindex, hr, Nat.add_mul]
      omega

/-- What the rounds keep of the groups: no group has more attempts than the counter allows, the group of
the index has at most as many as the counter says, and the groups after it have none. -/
structure GroupInv (env : RelayEnv) (origin : Origin) (w : RelayLoop) : Prop where
  count : ∀ g, w.attempts.count g ≤ env.retryTimes + 1
  reached : ∀ k, env.userAutoGroups[k]? = some origin.group → k ≤ w.index
  ahead : w.finished = false → w.param.tokenGroup = "auto" → ∀ k g, env.userAutoGroups[k]? = some g →
    w.index ≤ k → w.attempts.count g ≤ if k = w.index then w.param.retry else 0

theorem GroupInv.step (hnodup : env.userAutoGroups.Nodup) (hloop : LoopInv env w)
    (hinv : GroupInv env origin w) (h : relayRound decision env origin w round = some w') :
    GroupInv env origin w' := by
  have hopen : w.finished = false := by
    obtain ⟨hguard, -⟩ := ite_none_left_eq_some.1 h
    simpa using (not_or.1 hguard).1
  obtain ⟨-, hretry, hmoves, hcases⟩ := relayRound_cases (hloop.reset hopen) h
  have hreached : ∀ k, env.userAutoGroups[k]? = some origin.group → k ≤ w'.index :=
    fun k hk => (hinv.reached k hk).trans hmoves.index
  obtain ⟨hdone, hattempts⟩ | ⟨group, hattempts, hin, horigin⟩ := hcases
  · refine ⟨hattempts ▸ hinv.count, hreached, fun h => ?_⟩
    rw [hdone] at h
    cases h
  have hcount : ∀ g, w'.attempts.count g = w.attempts.count g + if group = g then 1 else 0 := by
    intro g
    rw [hattempts, count_append, count_singleton]
    simp
  cases hin with
  | early hearly hindex hgroup hnext =>
    have hlength : ∀ g, w'.attempts.count g ≤ w.param.retry + 1 := by
      intro g
      rw [← hloop.early hopen hearly]
      refine count_le_length.trans ?_
      rw [hattempts, length_append, length_singleton]
    refine ⟨fun g => (hlength g).trans (by omega), hreached, fun h hauto k g hk hle => ?_⟩
    rw [hindex] at hle ⊢
    rw [(hnext h).1]
    split_ifs with heq
    · exact hlength g
    · -- the group of the context is not after the group index
      have hne : ¬ group = g := by
        rintro rfl
        have hfalse : w.channelMeta = false :=
          hearly.resolve_right fun hne => hne (hmoves.tokenGroup ▸ hauto)
        rw [horigin hfalse] at hk
        have := hinv.reached k hk
        omega
      have hzero := hinv.ahead hopen (hmoves.tokenGroup ▸ hauto) k g hk hle
      rw [if_neg heq] at hzero
      rw [hcount, if_neg hne]
      exact hzero
  | auto hauto j hj hgroup hnext =>
    obtain ⟨htrue, htoken⟩ := not_or.1 hauto
    have htoken' : w.param.tokenGroup = "auto" := by
      rw [← hmoves.tokenGroup]
      exact not_not.1 htoken
    have hbefore := hinv.ahead hopen htoken' j group hgroup hj
    have hle : (if j = w.index then w.param.retry else 0) ≤ env.retryTimes := by
      split_ifs <;> omega
    generalize (if j = w.index then w.param.retry else 0) = counter at hbefore hle hnext
    -- every other group of the list has another place
    have hother : ∀ k g, env.userAutoGroups[k]? = some g → j < k → w'.attempts.count g = 0 := by
      intro k g hk hlt
      have hne : ¬ group = g := by
        rintro rfl
        have := (List.getElem?_inj (List.getElem?_eq_some_iff.1 hgroup).1 hnodup).1
          (hgroup.trans hk.symm)
        omega
      have hzero := hinv.ahead hopen htoken' k g hk (by omega)
      rw [if_neg (by omega)] at hzero
      rw [hcount, if_neg hne]
      omega
    refine ⟨fun g => ?_, hreached, fun h _ k g hk hle => ?_⟩
    · rw [hcount]
      split_ifs with heq
      · subst heq
        omega
      · exact hinv.count g
    · obtain ⟨hindex, hr⟩ | ⟨-, hindex, hr⟩ := (hnext h).2
      · rw [hindex] at hle ⊢
        split_ifs with heq
        · subst heq
          cases hgroup.symm.trans hk
          rw [hcount, if_pos rfl]
          omega
        · rw [hother k g hk (by omega)]
      · rw [hindex] at hle
        rw [hother k g hk (by omega)]
        exact Nat.zero_le _

/-! ## The loop -/

def RelayLoop.start (ctx : RelayCtx) (tokenGroup modelName requestPath originCacheDomain : String) :
    RelayLoop where
  ctx := ctx
  param := { tokenGroup, modelName, requestPath, originCacheDomain }

theorem loopInv_start (env : RelayEnv) (ctx : RelayCtx)
    (tokenGroup modelName requestPath originCacheDomain : String) :
    LoopInv env (.start ctx tokenGroup modelName requestPath originCacheDomain) where
  total := Nat.zero_le _
  sorted := List.Pairwise.nil
  read i hi := by cases hi
  reset _ := rfl
  fits _ := Nat.zero_le _
  early _ _ := rfl

theorem length_rounds_le {rounds : List Round} (hinv : LoopInv env w) (hopen : w.finished = false)
    (h : Run.run (relayRound decision env origin) w rounds = some w') :
    w.attempts.length + rounds.length ≤ w'.attempts.length + 1 := by
  induction rounds generalizing w with
  | nil =>
    cases h
    exact Nat.le_succ _
  | cons round rounds ih =>
    obtain ⟨w₁, h₁, h₂⟩ := Run.run_cons_eq_some_iff.1 h
    obtain ⟨-, -, -, hcases⟩ := relayRound_cases (hinv.reset hopen) h₁
    have hgrow : w.attempts.length ≤ w₁.attempts.length ∧
        (w₁.finished = false → w₁.attempts.length = w.attempts.length + 1) := by
      obtain ⟨hdone, hattempts⟩ | ⟨group, hattempts, -⟩ := hcases
      · rw [hattempts]
        exact ⟨le_rfl, (fun h => by rw [hdone] at h; cases h)⟩
      · rw [hattempts, length_append, length_singleton]
        exact ⟨Nat.le_succ _, fun _ => rfl⟩
    rw [length_cons]
    cases hdone : w₁.finished with
    | false =>
      have := ih (hinv.step h₁) hdone h₂
      have := hgrow.2 hdone
      omega
    | true =>
      -- no round follows the one that ends the loop
      cases rounds with
      | nil =>
        cases h₂
        simpa using hgrow.1
      | cons round' rounds =>
        obtain ⟨w₂, h₃, -⟩ := Run.run_cons_eq_some_iff.1 h₂
        rw [relayRound, if_pos (.inl hdone)] at h₃
        cases h₃

/-- The loop makes at most `RetryTimes + 1` attempts for each auto group, one round more, and never goes
back in the groups; with different names and choices that start no earlier than the group of the first
attempt, every group has at most as many. -/
theorem relay_loop_bounded (decision : RelayCtx → NewAPIError → ℤ → Bool) (env : RelayEnv)
    (origin : Origin) (ctx : RelayCtx) (tokenGroup modelName requestPath originCacheDomain : String)
    {rounds : List Round} {w : RelayLoop} (h : Run.run (relayRound decision env origin)
      (.start ctx tokenGroup modelName requestPath originCacheDomain) rounds = some w) :
    w.attempts.length ≤ (env.retryTimes + 1) * max 1 env.userAutoGroups.length ∧
      rounds.length ≤ (env.retryTimes + 1) * max 1 env.userAutoGroups.length + 1 ∧
      w.indices.Pairwise (· ≤ ·) ∧
      (env.userAutoGroups.Nodup →
        (∀ k, env.userAutoGroups[k]? = some origin.group → k ≤ ctx.autoGroupIndex.getD 0) →
        ∀ g, w.attempts.count g ≤ env.retryTimes + 1) := by
  have hstart := loopInv_start env ctx tokenGroup modelName requestPath originCacheDomain
  have hinv : LoopInv env w := Run.invariant (fun _ _ _ hi hs => hi.step hs) hstart h
  refine ⟨hinv.total, ?_, hinv.sorted, fun hnodup hreached => ?_⟩
  · have hrounds := length_rounds_le hstart rfl h
    have htotal := hinv.total
    omega
  · have hgroups : GroupInv env origin
        (.start ctx tokenGroup modelName requestPath originCacheDomain) :=
      ⟨fun g => Nat.zero_le _, hreached, fun _ _ k g _ _ => Nat.zero_le _⟩
    have hstep : ∀ w round w', LoopInv env w ∧ GroupInv env origin w →
        relayRound decision env origin w round = some w' →
        LoopInv env w' ∧ GroupInv env origin w' :=
      fun _ _ _ hi hs => ⟨hi.1.step hs, hi.2.step hnodup hi.1 hs⟩
    exact (Run.invariant hstep ⟨hstart, hgroups⟩ h).2.count

/-- Two auto groups of a user, the second one with the channel of `prioritizedGroup`. -/
def twoGroups : RelayEnv where
  cache := {}
  retryTimes := 1
  settingAutoGroups := ["vip", "default"]
  userAutoGroups := ["vip", "default"]

/-- A round in which the channel fails with an internal error. -/
def failingRound : Round where
  cache := (prioritized [(7, 0)]).cache
  result := some { errorCode := "bad_response_status_code", statusCode := 500 }

/-- A channel of the first group that fails: two attempts, and the round that finds no other group. -/
theorem relay_loop_bounded_of_failing :
    ∃ w, Run.run (relayRound (shouldRetry {}) twoGroups ⟨7, "vip"⟩)
        (.start {} "auto" "gpt-4o" "" "") [failingRound, failingRound] = some w ∧
      w.attempts.length ≤ 4 ∧ ∀ g, w.attempts.count g ≤ 2 := by
  refine exists_some_imp (p := fun _ => True) (by decide +kernel) fun w hw _ => ?_
  obtain ⟨htotal, -, -, hgroups⟩ := relay_loop_bounded (shouldRetry {}) twoGroups ⟨7, "vip"⟩ {} "auto"
    "gpt-4o" "" "" hw
  refine ⟨htotal, hgroups (by decide) fun k hk => ?_⟩
  have hzero := (getElem?_inj (by decide : 0 < twoGroups.userAutoGroups.length) (by decide)).1
    (show twoGroups.userAutoGroups[0]? = twoGroups.userAutoGroups[k]? from hk.symm)
  exact hzero ▸ Nat.zero_le _

/-- A channel of the second group, kept by affinity: the choices start at the first group, which has no
channel, and the second group has three attempts. -/
theorem affinity_group_attempted_thrice :
    ∃ w, Run.run (relayRound (shouldRetry {}) twoGroups ⟨7, "default"⟩)
        (.start {} "auto" "gpt-4o" "" "") [failingRound, failingRound, failingRound] = some w ∧
      ¬ ∀ g, w.attempts.count g ≤ twoGroups.retryTimes + 1 := by
  refine exists_some_imp (p := fun w => w.attempts = ["default", "default", "default"])
    (by decide +kernel) fun w _ heq hall => ?_
  have := hall "default"
  rw [heq] at this
  exact absurd this (by decide)

end BeeApi.Relay
