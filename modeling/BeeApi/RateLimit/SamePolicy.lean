import BeeApi.RateLimit.Handlers
import Mathlib.Tactic.Linarith

/-!
# Both handlers keep the limits

The list in Redis and the queues in memory track the log of the times that they limit.  Redis keeps the
policy as long as a key is not dropped between `LPUSH` and `EXPIRE`; the limiter in memory, which counts
the requests that it let through, as long as they and the successes reach the limit together and the
sweep removes no queue in use.
-/

namespace BeeApi.RateLimit

open SlidingLog List Option RedisState MemoryState

variable {limits : Limits}

/-! ## The history -/

/-- The times of a history are in order, up to `now`. -/
structure HistoryOk (now : ℤ) (history : List Event) : Prop where
  successes : Sorted (successes history)
  successes_le : ∀ t ∈ RateLimit.successes history, t ≤ now
  passes : Sorted (passes history)
  passes_le : ∀ t ∈ RateLimit.passes history, t ≤ now

variable {now : ℤ} {n d : ℕ} {bucket : Option Bucket} {log : List ℤ}

theorem HistoryOk.mono {now' : ℤ} {history : List Event} (h : HistoryOk now history)
    (hle : now ≤ now') : HistoryOk now' history :=
  { h with
    successes_le := fun t ht => (h.successes_le t ht).trans hle
    passes_le := fun t ht => (h.passes_le t ht).trans hle }

theorem HistoryOk.cons {now : ℤ} {history : List Event} (h : HistoryOk now history) (event : Event)
    (hsucceeded : ∀ t, event = .succeeded t → t = now)
    (hpassed : ∀ t, event = .passedTotal t → t = now) : HistoryOk now (event :: history) := by
  cases event with
  | succeeded t =>
    obtain rfl := hsucceeded t rfl
    exact { h with
      successes := h.successes.cons h.successes_le
      successes_le := forall_mem_cons.2 ⟨le_rfl, h.successes_le⟩ }
  | passedTotal t =>
    obtain rfl := hpassed t rfl
    exact { h with
      passes := h.passes.cons h.passes_le
      passes_le := forall_mem_cons.2 ⟨le_rfl, h.passes_le⟩ }
  | refusedTotal t | refusedSuccess t | checkFailed t | failed t =>
    exact ⟨h.successes, h.successes_le, h.passes, h.passes_le⟩

def RefusedRightly (limits : Limits) (history : List Event) : Prop :=
  ∀ time earlier, (Event.refusedSuccess time :: earlier) <:+ history →
    0 < limits.successMaxCount ∧ limits.successMaxCount ≤
      ((successes earlier).filter fun t => time < t + limits.duration).length

theorem RefusedRightly.cons {history : List Event} (h : RefusedRightly limits history) {event : Event}
    (hrefused : ∀ time, event = .refusedSuccess time →
      0 < limits.successMaxCount ∧ limits.successMaxCount ≤
        ((successes history).filter fun t => time < t + limits.duration).length) :
    RefusedRightly limits (event :: history) := by
  intro time earlier hsuffix
  obtain heq | hsuffix := suffix_cons_iff.1 hsuffix
  · obtain ⟨rfl, rfl⟩ := List.cons.inj heq
    exact hrefused time rfl
  · exact h time earlier hsuffix

/-! ## Redis -/

/-- A key is not dropped while its time is older than its last entry. -/
def RedisFits (s : RedisState) : RedisLabel → Prop
  | .expired => s.phase ≠ .ltrim ∧ s.phase ≠ .expire
  | _ => True

instance (s : RedisState) : (label : RedisLabel) → Decidable (RedisFits s label)
  | .expired => inferInstanceAs (Decidable (_ ∧ _))
  | .tick _ | .start | .next | .finish _ => .isTrue trivial

/-- A bucket of `n` times `d` tokens, to which `n` are added each second, against the log of those who
took `d`: what was taken since `a` was there or has been added since. -/
structure TokensOk (n d : ℕ) (now : ℤ) (bucket : Option Bucket) (log : List ℤ) : Prop where
  nonneg : ∀ b ∈ bucket, 0 ≤ b.tokens
  lastTime : ∀ b ∈ bucket, b.lastTime ≤ now ∧ ∀ t ∈ log, t ≤ b.lastTime
  empty : bucket = none → log = []
  since : ∀ b ∈ bucket, ∀ a, ((log.filter fun t => a ≤ t).length : ℤ) * d + b.tokens ≤
    n * (d + max 0 (b.lastTime - a))
  window : ∀ a b, a ≤ b → ((window a b log).length : ℤ) * d ≤ n * (d + (b - a))

theorem tokensOk_nil (n d : ℕ) (now : ℤ) : TokensOk n d now none [] where
  nonneg _ hb := nomatch hb
  lastTime _ hb := nomatch hb
  empty _ := rfl
  since _ hb := nomatch hb
  window a b hab := by
    rw [SlidingLog.window, filter_nil, length_nil, Nat.cast_zero, zero_mul]
    exact mul_nonneg (Nat.cast_nonneg n) (add_nonneg (Nat.cast_nonneg d) (sub_nonneg.2 hab))

theorem TokensOk.mono {now' : ℤ} (h : TokensOk n d now bucket log) (hle : now ≤ now') :
    TokensOk n d now' bucket log :=
  { h with lastTime := fun b hb => ⟨(h.lastTime b hb).1.trans hle, (h.lastTime b hb).2⟩ }

/-- The tokens in the bucket at `now`. -/
def refill (n d : ℕ) (now : ℤ) : Option Bucket → ℤ
  | none => n * d
  | some b => min (n * d) (b.tokens + (now - b.lastTime) * n)

theorem TokensOk.filled (h : TokensOk n d now bucket log) :
    0 ≤ refill n d now bucket ∧ (∀ t ∈ log, t ≤ now) ∧
      ∀ a, ((log.filter fun t => a ≤ t).length : ℤ) * d + refill n d now bucket ≤
        n * (d + max 0 (now - a)) := by
  have hn : (0 : ℤ) ≤ n := Nat.cast_nonneg n
  have hd : (0 : ℤ) ≤ d := Nat.cast_nonneg d
  have hcapacity : ∀ a : ℤ, (n : ℤ) * d ≤ n * (d + max 0 (now - a)) := fun a =>
    mul_le_mul_of_nonneg_left (le_add_of_nonneg_right (le_max_left _ _)) hn
  cases bucket with
  | none =>
    obtain rfl := h.empty rfl
    refine ⟨mul_nonneg hn hd, nofun, fun a => ?_⟩
    rw [filter_nil, length_nil, Nat.cast_zero, zero_mul, zero_add]
    exact hcapacity a
  | some b =>
    obtain ⟨hlast, hlog⟩ := h.lastTime b rfl
    have helapsed : 0 ≤ (now - b.lastTime) * n := mul_nonneg (sub_nonneg.2 hlast) hn
    refine ⟨le_min (mul_nonneg hn hd) (add_nonneg (h.nonneg b rfl) helapsed),
      fun t ht => (hlog t ht).trans hlast, fun a => ?_⟩
    obtain ha | ha := le_or_gt a b.lastTime
    · have hsince := h.since b rfl a
      have hadded : refill n d now (some b) ≤ b.tokens + (now - b.lastTime) * n := min_le_right _ _
      rw [max_eq_right (by omega)] at hsince ⊢
      linarith
    · -- nobody has passed since
      have hnone : (log.filter fun t => a ≤ t) = [] :=
        filter_eq_nil_iff.2 fun t ht => by
          have hle := hlog t ht
          simp only [decide_eq_true_eq, not_le]
          omega
      have hfull : refill n d now (some b) ≤ n * d := min_le_left _ _
      rw [hnone, length_nil, Nat.cast_zero, zero_mul, zero_add]
      exact hfull.trans (hcapacity a)

theorem TokensOk.allow (h : TokensOk n d now bucket log) {allowed : Bool} {b' : Bucket}
    (hallow : allowTokens bucket now d n (n * d) = (allowed, b')) :
    TokensOk n d now (some b') (if allowed then now :: log else log) := by
  obtain ⟨hnonneg, hlog, hsince⟩ := h.filled
  have hn : (0 : ℤ) ≤ n := Nat.cast_nonneg n
  have hd : (0 : ℤ) ≤ d := Nat.cast_nonneg d
  have htokens : allowTokens bucket now d n (n * d) = if (d : ℤ) ≤ refill n d now bucket then
        (true, ⟨refill n d now bucket - d, now⟩)
      else (false, ⟨refill n d now bucket, now⟩) := by
    cases bucket <;> rfl
  rw [htokens] at hallow
  split_ifs at hallow with henough <;> cases hallow
  · have hone : ∀ a, (((now :: log).filter fun t => a ≤ t).length : ℤ) * d +
        (refill n d now bucket - d) ≤ n * (d + max 0 (now - a)) := by
      intro a
      have hold := hsince a
      by_cases ha : a ≤ now
      · rw [filter_cons_of_pos (by simpa using ha), length_cons, Nat.cast_succ]
        linarith
      · rw [filter_cons_of_neg (by simpa using ha)]
        linarith
    rw [if_pos rfl]
    refine ⟨fun b hb => ?_, fun b hb => ?_, nofun, fun b hb => ?_, fun a b hab => ?_⟩
    · cases hb
      exact sub_nonneg.2 henough
    · cases hb
      exact ⟨le_rfl, forall_mem_cons.2 ⟨le_rfl, hlog⟩⟩
    · cases hb
      exact hone
    · by_cases hb : now ≤ b
      · -- the window ends at `now` or later
        have hwindow : (SlidingLog.window a b (now :: log)).length ≤
            ((now :: log).filter fun t => a ≤ t).length := by
          refine (monotone_filter_right _ fun t ht => ?_).length_le
          simp only [decide_eq_true_eq] at ht ⊢
          exact ht.1
        calc ((SlidingLog.window a b (now :: log)).length : ℤ) * d
            ≤ (((now :: log).filter fun t => a ≤ t).length : ℤ) * d :=
              mul_le_mul_of_nonneg_right (Int.ofNat_le.2 hwindow) hd
          _ ≤ n * (d + max 0 (now - a)) := by linarith [hone a]
          _ ≤ n * (d + (b - a)) := by
              refine mul_le_mul_of_nonneg_left (add_le_add_right ?_ _) hn
              omega
      · rw [SlidingLog.window, filter_cons_of_neg (by simp; omega)]
        exact h.window a b hab
  · rw [if_neg Bool.false_ne_true]
    refine ⟨fun b hb => ?_, fun b hb => ?_, nofun, fun b hb => ?_, h.window⟩
    · cases hb
      exact hnonneg
    · cases hb
      exact ⟨le_rfl, hlog⟩
    · cases hb
      exact hsince

section Redis

variable {s s' : RedisState} {now now' : ℤ} {success : Option RedisList} {log : List ℤ}

/-- The entries of a list; a missing key has none. -/
def entries (success : Option RedisList) : List ℤ := success.elim [] RedisList.entries

/-- The list tracks the log, and the server drops it only when all of it is old. -/
structure Listed (limits : Limits) (now : ℤ) (success : Option RedisList) (log : List ℤ) : Prop where
  tracks : Tracks limits.successMaxCount limits.duration now (entries success) log
  fresh : ∀ t ∈ success.bind RedisList.expireAt, ∀ u ∈ entries success, u + limits.duration ≤ t

/-- What holds of the list and the log of the successes in each phase of the request. -/
def PhaseOk (limits : Limits) (now : ℤ) (success : Option RedisList) (log : List ℤ) :
    RedisPhase → Prop
  | .idle | .refused => Listed limits now success log
  | .lindex => Listed limits now success log ∧ 0 < limits.successMaxCount ∧
      (entries success = [] ∨ (entries success).length = limits.successMaxCount)
  | .compare oldTime => Listed limits now success log ∧ 0 < limits.successMaxCount ∧
      ∀ u ∈ oldTime, u ∈ log[limits.successMaxCount - 1]? ∧
        (entries success = [] ∨ (entries success).getLast? = some u)
  | .bucket | .running => Listed limits now success log ∧
      Admits limits.successMaxCount limits.duration now (entries success)
  | .lpush time => ∃ older, log = time :: older ∧ Listed limits now success older
  | .ltrim => ∃ time older kept, log = time :: older ∧ entries success = time :: kept ∧
      Tracks limits.successMaxCount limits.duration now kept older
  | .expire => Tracks limits.successMaxCount limits.duration now (entries success) log

structure RedisOk (limits : Limits) (s : RedisState) : Prop where
  history : HistoryOk s.now s.history
  refused : RefusedRightly limits s.history
  tokens : 0 < limits.totalMaxCount →
    TokensOk limits.totalMaxCount limits.duration s.now s.bucket (passes s.history)
  spaced : 0 < limits.successMaxCount →
    Spaced limits.successMaxCount limits.duration (successes s.history)
  phase : PhaseOk limits s.now s.success (successes s.history) s.phase

theorem Listed.mono (h : Listed limits now success log) (hle : now ≤ now') :
    Listed limits now' success log :=
  ⟨h.tracks.mono hle, h.fresh⟩

theorem PhaseOk.mono {phase : RedisPhase} (h : PhaseOk limits now success log phase)
    (hle : now ≤ now') : PhaseOk limits now' success log phase := by
  cases phase with
  | idle | refused => exact Listed.mono h hle
  | lindex | compare oldTime => exact ⟨h.1.mono hle, h.2⟩
  | bucket | running => exact ⟨h.1.mono hle, h.2.mono hle⟩
  | lpush time =>
    obtain ⟨older, hlog, hlisted⟩ := h
    exact ⟨older, hlog, hlisted.mono hle⟩
  | ltrim =>
    obtain ⟨time, older, kept, hlog, hentries, htracks⟩ := h
    exact ⟨time, older, kept, hlog, hentries, htracks.mono hle⟩
  | expire => exact Tracks.mono h hle

theorem Listed.expired (h : Listed limits now success log) (hsorted : Sorted log)
    (hover : ∃ t ∈ success.bind RedisList.expireAt, t ≤ now) : Listed limits now none log := by
  obtain ⟨t, ht, hnow⟩ := hover
  exact ⟨h.tracks.clear hsorted fun u hu => (h.fresh t ht u hu).trans hnow, nofun⟩

theorem PhaseOk.expired {phase : RedisPhase} (h : PhaseOk limits now success log phase)
    (hfits : phase ≠ .ltrim ∧ phase ≠ .expire) (hsorted : Sorted log)
    (hover : ∃ t ∈ success.bind RedisList.expireAt, t ≤ now) :
    PhaseOk limits now none log phase := by
  cases phase with
  | idle | refused => exact Listed.expired h hsorted hover
  | lindex => exact ⟨h.1.expired hsorted hover, h.2.1, .inl rfl⟩
  | compare oldTime =>
    exact ⟨h.1.expired hsorted hover, h.2.1, fun u hu => ⟨(h.2.2 u hu).1, .inl rfl⟩⟩
  | bucket | running => exact ⟨h.1.expired hsorted hover, .inr nofun⟩
  | lpush time =>
    obtain ⟨older, rfl, hlisted⟩ := h
    exact ⟨older, rfl, hlisted.expired (pairwise_cons.1 hsorted).2 hover⟩
  | ltrim => exact absurd rfl hfits.1
  | expire => exact absurd rfl hfits.2

theorem RedisOk.checkLength (h : RedisOk limits s) (hidle : s.phase = .idle) :
    RedisOk limits (s.checkLength limits.successMaxCount) := by
  have hlisted : Listed limits s.now s.success (successes s.history) := by
    have hphase := h.phase
    rwa [hidle] at hphase
  have hlength := hlisted.tracks.length
  unfold RedisState.checkLength
  split_ifs with hzero hroom
  · have hempty : entries s.success = [] := length_eq_zero_iff.1 (by omega)
    refine { h with phase := ⟨hlisted, .inr ?_⟩ }
    rw [hempty]
    exact nofun
  · exact { h with phase := ⟨hlisted, .inl hroom⟩ }
  · exact { h with phase := ⟨hlisted, by omega, .inr (le_antisymm hlength (not_lt.1 hroom))⟩ }

theorem RedisOk.compareTime (h : RedisOk limits s) {oldTime : Option ℤ}
    (hphase : s.phase = .compare oldTime) :
    RedisOk limits (s.compareTime limits.duration oldTime) := by
  obtain ⟨hlisted, hpos, hold⟩ : PhaseOk limits s.now s.success (successes s.history)
    (.compare oldTime) := by
      rw [← hphase]
      exact h.phase
  cases oldTime with
  | none =>
    exact ⟨h.history.cons _ (fun _ he => (nomatch he)) fun _ he => (nomatch he),
      h.refused.cons nofun, h.tokens, h.spaced, hlisted⟩
  | some u =>
    obtain ⟨hplace, hlast⟩ := hold u rfl
    unfold RedisState.compareTime
    dsimp only
    split_ifs with hrecent
    · refine ⟨h.history.cons _ (fun _ he => (nomatch he)) fun _ he => (nomatch he),
        h.refused.cons fun time he => ?_, h.tokens, h.spaced, hlisted⟩
      obtain rfl := Event.refusedSuccess.inj he
      exact ⟨hpos, h.history.successes.le_length_recent hplace hpos (by omega)⟩
    · refine { h with phase := ⟨hlisted, ?_⟩ }
      obtain hempty | hlast := hlast
      · exact .inl (by rw [hempty]; exact hpos)
      · refine .inr fun t ht => ?_
        rw [hlast] at ht
        cases ht
        dsimp only
        omega

theorem RedisOk.takeTokens (h : RedisOk limits s) (hphase : s.phase = .bucket) :
    RedisOk limits (s.takeTokens limits) := by
  obtain ⟨hlisted, hadmits⟩ : PhaseOk limits s.now s.success (successes s.history) .bucket := by
    rw [← hphase]
    exact h.phase
  unfold RedisState.takeTokens
  split_ifs with hzero
  · exact { h with phase := ⟨hlisted, hadmits⟩ }
  · cases hallow : allowTokens s.bucket s.now limits.duration limits.totalMaxCount
        (limits.totalMaxCount * limits.duration) with
    | mk allowed bucket =>
      have htokens := (h.tokens (by omega)).allow hallow
      cases allowed with
      | true =>
        refine ⟨h.history.cons _ nofun fun t he => ?_,
          h.refused.cons nofun, fun _ => htokens, h.spaced, hlisted, hadmits⟩
        exact (Event.passedTotal.inj he).symm
      | false =>
        exact ⟨h.history.cons _ (fun _ he => (nomatch he)) fun _ he => (nomatch he),
          h.refused.cons nofun, fun _ => htokens, h.spaced, hlisted⟩

theorem RedisOk.finish (h : RedisOk limits s) (hphase : s.phase = .running) (status : ℤ) :
    RedisOk limits (s.finish limits.successMaxCount status) := by
  obtain ⟨hlisted, hadmits⟩ : PhaseOk limits s.now s.success (successes s.history) .running := by
    rw [← hphase]
    exact h.phase
  unfold RedisState.finish
  split
  · refine ⟨h.history.cons _ (fun t he => (Event.succeeded.inj he).symm) nofun,
      h.refused.cons nofun, h.tokens,
      fun hpos => hlisted.tracks.spaced hadmits (h.spaced hpos) hpos, ?_⟩
    split_ifs with hzero
    · have hlength := hlisted.tracks.length
      have hempty : entries s.success = [] := length_eq_zero_iff.1 (by omega)
      refine ⟨?_, hlisted.fresh⟩
      rw [hzero, hempty]
      exact tracks_zero _ _ _
    · exact ⟨_, rfl, hlisted⟩
  · exact ⟨h.history.cons _ (fun _ he => (nomatch he)) fun _ he => (nomatch he),
      h.refused.cons nofun, h.tokens, h.spaced, hlisted⟩

theorem Listed.of_expire (htracks : Tracks limits.successMaxCount limits.duration s.now
    (entries s.success) log) (hnow : ∀ t ∈ log, t ≤ s.now) :
    Listed limits s.now (s.expire limits.duration).success log := by
  unfold expire
  cases hsuccess : s.success with
  | none =>
    rw [hsuccess] at htracks
    exact ⟨htracks, nofun⟩
  | some l =>
    rw [hsuccess] at htracks
    refine ⟨htracks, fun t ht u hu => ?_⟩
    cases ht
    exact add_le_add_left (hnow u (htracks.isPrefix.subset hu)) _

theorem entries_lpush (s : RedisState) (time : ℤ) :
    entries (s.lpush time).success = time :: entries s.success := by
  unfold lpush
  cases s.success <;> rfl

theorem entries_ltrim (s : RedisState) (maxCount : ℕ) :
    entries (s.ltrim maxCount).success = (entries s.success).take maxCount := by
  unfold ltrim
  cases s.success with
  | none => exact take_nil.symm
  | some l => rfl

theorem RedisOk.next (h : RedisOk limits s) (hnext : s.next limits = some s') :
    RedisOk limits s' := by
  have hphase := h.phase
  unfold RedisState.next at hnext
  split at hnext <;> rename_i hp <;> rw [hp] at hphase
  · cases hnext
    obtain ⟨hlisted, hpos, hfull⟩ := hphase
    refine { h with phase := ⟨hlisted, hpos, fun u hu => ?_⟩ }
    obtain hempty | hfull := hfull
    · rw [show s.entries = entries s.success from rfl, hempty] at hu
      cases hu
    · exact ⟨(hlisted.tracks.getLast?_eq hfull hpos) ▸ hu, .inr hu⟩
  · cases hnext
    exact h.compareTime hp
  · cases hnext
    exact { h with phase := Listed.of_expire hphase.tracks h.history.successes_le }
  · cases hnext
    exact h.takeTokens hp
  · rename_i time
    cases hnext
    obtain ⟨older, hlog, hlisted⟩ := hphase
    exact { h with phase := ⟨time, older, _, hlog, entries_lpush s time, hlisted.tracks⟩ }
  · cases hnext
    obtain ⟨time, older, kept, hlog, hentries, htracks⟩ := hphase
    refine { h with phase := ?_ }
    show Tracks _ _ _ (entries (s.ltrim _).success) (successes s.history)
    rw [entries_ltrim, hentries, hlog]
    exact htracks.push time
  · cases hnext
    exact { h with phase := Listed.of_expire hphase h.history.successes_le }
  · cases hnext
  · cases hnext

theorem RedisOk.step (h : RedisOk limits s) {label : RedisLabel} (hfits : RedisFits s label)
    (hstep : step limits s label = some s') : RedisOk limits s' := by
  cases label with
  | tick seconds =>
    cases hstep
    have hle : s.now ≤ s.now + seconds := Int.le_add_of_nonneg_right (Int.natCast_nonneg seconds)
    exact ⟨h.history.mono hle, h.refused, fun hn => (h.tokens hn).mono hle, h.spaced,
      h.phase.mono hle⟩
  | expired =>
    obtain ⟨hover, heq⟩ := ite_none_right_eq_some.1 hstep
    cases heq
    exact { h with phase := h.phase.expired hfits h.history.successes hover }
  | start =>
    obtain ⟨hidle, heq⟩ := ite_none_right_eq_some.1 hstep
    cases heq
    exact h.checkLength hidle
  | next => exact h.next hstep
  | finish status =>
    obtain ⟨hrunning, heq⟩ := ite_none_right_eq_some.1 hstep
    cases heq
    exact h.finish hrunning status

theorem redisOk_init (limits : Limits) (now : ℤ) : RedisOk limits { now } where
  history := ⟨List.Pairwise.nil, nofun, List.Pairwise.nil, nofun⟩
  refused _ _ hsuffix := absurd (suffix_nil.1 hsuffix) (cons_ne_nil _ _)
  tokens _ := tokensOk_nil _ _ _
  spaced _ := trivial
  phase := ⟨tracks_nil _ _ _, nofun⟩

end Redis

/-! ## Memory -/

/-- A sweep removes no queue of the total limit or under the check key before its newest entry is as old
as the duration.  At a check the requests let through less than the duration ago are as many as the limit
exactly when the successes are; without a limit nothing was let through so lately. -/
def MemoryFits (limits : Limits) (expirationDuration : ℤ) (s : MemoryState) : MemoryLabel → Prop
  | .sweep => ∀ key ∈ [LimitKey.total, LimitKey.check], ∀ queue ∈ s.store key,
      ∀ newest ∈ queue.getLast?, expirationDuration < s.now - newest →
        newest + limits.duration ≤ s.now
  | .check =>
      if limits.successMaxCount = 0 then ∀ t ∈ s.admitted, t + limits.duration ≤ s.now
      else limits.successMaxCount ≤
          (s.admitted.filter fun t => s.now < t + limits.duration).length ↔
        limits.successMaxCount ≤
          ((successes s.history).filter fun t => s.now < t + limits.duration).length
  | .tick _ | .start | .finish _ => True

instance (limits : Limits) (expirationDuration : ℤ) (s : MemoryState) :
    (label : MemoryLabel) → Decidable (MemoryFits limits expirationDuration s label)
  | .sweep => inferInstanceAs (Decidable (∀ key ∈ [LimitKey.total, LimitKey.check], _))
  | .check => inferInstanceAs (Decidable (ite _ _ _))
  | .tick _ | .start | .finish _ => .isTrue trivial

section Memory

variable {s s' : MemoryState} {store : InMemoryRateLimiter} {now : ℤ} {key : LimitKey} {n : ℕ}
  {d : ℤ} {log : List ℤ}

/-- What a queue holds, the newest first. -/
def queued (store : InMemoryRateLimiter) (key : LimitKey) : List ℤ :=
  ((store key).getD []).reverse

theorem queued_update_self (queue : List ℤ) :
    queued (Function.update store key (some queue)) key = queue.reverse := by
  rw [queued, Function.update_self, getD_some]

theorem queued_update_of_ne {key' : LimitKey} (hne : key' ≠ key) (queue : List ℤ) :
    queued (Function.update store key (some queue)) key' = queued store key' := by
  rw [queued, Function.update_of_ne hne, queued]

theorem queued_request_of_ne (store : InMemoryRateLimiter) (now : ℤ) (n : ℕ) (d : ℤ)
    {key' : LimitKey} (hne : key' ≠ key) :
    queued (store.request now key n d).2 key' = queued store key' := by
  unfold InMemoryRateLimiter.request
  split
  · split_ifs
    · exact queued_update_of_ne hne _
    · split
      · rfl
      · split_ifs
        · exact queued_update_of_ne hne _
        · rfl
  · exact queued_update_of_ne hne _

theorem request_of_admits (hn : 0 < n) (hlength : (queued store key).length ≤ n)
    (hadmits : Admits n d now (queued store key)) :
    (store.request now key n d).1 = true ∧
      queued (store.request now key n d).2 key = (now :: queued store key).take n := by
  unfold InMemoryRateLimiter.request
  cases hqueue : store key with
  | none =>
    have hempty : queued store key = [] := by rw [queued, hqueue]; rfl
    refine ⟨rfl, ?_⟩
    rw [queued_update_self, hempty, take_of_length_le (by simp; omega)]
    rfl
  | some queue =>
    have hreverse : queued store key = queue.reverse := by rw [queued, hqueue]; rfl
    rw [hreverse] at hlength hadmits ⊢
    rw [length_reverse] at hlength
    dsimp only
    split_ifs with hroom
    · refine ⟨rfl, ?_⟩
      rw [queued_update_self, reverse_append, take_of_length_le (by simp; omega)]
      rfl
    · cases queue with
      | nil => exact absurd hn hroom
      | cons oldest queue =>
        have hold : d ≤ now - oldest := by
          have hlast := (hadmits.resolve_left (by simpa using hroom)) oldest (by simp)
          omega
        rw [length_cons] at hlength hroom
        dsimp only
        rw [if_pos hold]
        refine ⟨rfl, ?_⟩
        have hn' : n = (now :: queue.reverse).length := by
          rw [length_cons, length_reverse]
          omega
        calc queued _ key = now :: queue.reverse := by
              rw [queued_update_self, reverse_append]
              rfl
          _ = (now :: (queue.reverse ++ [oldest])).take n := by
              rw [← cons_append, hn', take_left]
          _ = (now :: (oldest :: queue).reverse).take n := by rw [reverse_cons]

theorem request_of_not_admits (hrefused : ¬ Admits n d now (queued store key)) :
    store.request now key n d = (false, store) := by
  obtain ⟨hfull, hlast⟩ := not_or.1 hrefused
  unfold InMemoryRateLimiter.request
  cases hqueue : store key with
  | none =>
    rw [queued, hqueue] at hlast
    exact absurd nofun hlast
  | some queue =>
    have hreverse : queued store key = queue.reverse := by rw [queued, hqueue]; rfl
    rw [hreverse, length_reverse] at hfull
    rw [hreverse] at hlast
    dsimp only
    rw [if_neg hfull]
    cases queue with
    | nil => rfl
    | cons oldest queue =>
      dsimp only
      rw [if_neg]
      intro hold
      refine hlast fun t ht => ?_
      rw [getLast?_reverse] at ht
      cases ht
      omega

/-- No queue is empty, so that a limit of 0 reads as a limit of 1. -/
def Filled (store : InMemoryRateLimiter) : Prop := ∀ key, store key ≠ some []

theorem Filled.request_max (h : Filled store) :
    store.request now key (max 1 n) d = store.request now key n d := by
  obtain rfl | hn := Nat.eq_zero_or_pos n
  · unfold InMemoryRateLimiter.request
    cases hqueue : store key with
    | none => rfl
    | some queue =>
      cases queue with
      | nil => exact absurd hqueue (h key)
      | cons oldest queue => simp
  · rw [max_eq_right hn]

theorem Filled.request (h : Filled store) (now : ℤ) (key : LimitKey) (n : ℕ) (d : ℤ) :
    Filled (store.request now key n d).2 := by
  have hpush : ∀ queue, Filled (Function.update store key (some (queue ++ [now]))) := by
    intro queue key'
    rw [Function.update_apply]
    split_ifs
    · simp
    · exact h key'
  unfold InMemoryRateLimiter.request
  cases hqueue : store key with
  | none => exact hpush []
  | some queue =>
    dsimp only
    split_ifs
    · exact hpush queue
    · cases queue with
      | nil => exact h
      | cons oldest queue =>
        dsimp only
        split_ifs
        · exact hpush queue
        · exact h

theorem Filled.clearExpiredItems (h : Filled store) (now expirationDuration : ℤ) :
    Filled (store.clearExpiredItems now expirationDuration) := by
  intro key
  unfold InMemoryRateLimiter.clearExpiredItems
  cases hqueue : store key with
  | none => exact nofun
  | some queue =>
    rw [bind_some]
    cases queue.getLast? with
    | none => exact nofun
    | some newest =>
      dsimp only
      split_ifs
      · exact nofun
      · exact fun he => h key (hqueue.trans he)

theorem queued_clearExpiredItems (store : InMemoryRateLimiter) (now : ℤ) (key : LimitKey)
    (expirationDuration : ℤ) :
    queued (store.clearExpiredItems now expirationDuration) key = queued store key ∨
      queued (store.clearExpiredItems now expirationDuration) key = [] ∧
        ∀ queue ∈ store key, ∀ newest ∈ queue.getLast?, expirationDuration < now - newest := by
  unfold queued InMemoryRateLimiter.clearExpiredItems
  cases hqueue : store key with
  | none => exact .inl (by rw [bind_none])
  | some queue =>
    rw [bind_some]
    cases hlast : queue.getLast? with
    | none =>
      rw [getLast?_eq_none_iff] at hlast
      subst hlast
      exact .inl rfl
    | some newest =>
      dsimp only
      split_ifs with hexpired
      · refine .inr ⟨rfl, fun queue' hq newest' hnew => ?_⟩
        cases hq
        rw [hlast] at hnew
        cases hnew
        exact hexpired
      · exact .inl rfl

/-- A queue that tracks a log, limited to `n` entries in `d` seconds. -/
structure Limiting (n : ℕ) (d now : ℤ) (kept log : List ℤ) : Prop where
  tracks : Tracks n d now kept log
  spaced : Spaced n d log

/-- The queues track the total requests and those that the check lets through. -/
structure MemoryOk (limits : Limits) (s : MemoryState) : Prop where
  history : HistoryOk s.now s.history
  refused : RefusedRightly limits s.history
  filled : Filled s.store
  total : 0 < limits.totalMaxCount →
    Limiting limits.totalMaxCount limits.duration s.now (queued s.store .total) (passes s.history)
  check : Limiting (max 1 limits.successMaxCount) limits.duration s.now (queued s.store .check)
    s.admitted
  admitted : Sorted s.admitted
  admitted_le : ∀ t ∈ s.admitted, t ≤ s.now
  spaced : 0 < limits.successMaxCount →
    Spaced limits.successMaxCount limits.duration (successes s.history)
  running : s.phase = .running → 0 < limits.successMaxCount →
    ((successes s.history).filter fun t => s.now < t + limits.duration).length <
      limits.successMaxCount

theorem Limiting.push {kept : List ℤ} (h : Limiting n d now kept log) (hn : 0 < n)
    (hadmits : Admits n d now kept) : Limiting n d now ((now :: kept).take n) (now :: log) :=
  ⟨h.tracks.push now, h.tracks.spaced hadmits h.spaced hn⟩

theorem Limiting.sweep {expirationDuration : ℤ} (h : Limiting n d now (queued store key) log)
    (hsorted : Sorted log)
    (hfits : ∀ queue ∈ store key, ∀ newest ∈ queue.getLast?, expirationDuration < now - newest →
      newest + d ≤ now) :
    Limiting n d now (queued (store.clearExpiredItems now expirationDuration) key) log := by
  obtain hsame | ⟨hempty, hexpired⟩ := queued_clearExpiredItems store now key expirationDuration
  · rw [hsame]
    exact h
  · rw [hempty]
    refine ⟨h.tracks.clear hsorted fun t ht => ?_, h.spaced⟩
    have hkept : Sorted (queued store key) :=
      List.Pairwise.sublist h.tracks.isPrefix.sublist hsorted
    unfold queued at ht hkept
    cases hqueue : store key with
    | none =>
      rw [hqueue] at ht
      cases ht
    | some queue =>
      rw [hqueue, getD_some] at ht hkept
      cases hlast : queue.reverse with
      | nil =>
        rw [hlast] at ht
        cases ht
      | cons newest rest =>
        -- the newest entry is the first one that is kept
        have hnewest : newest ∈ queue.getLast? := by
          rw [← head?_reverse, hlast]
          rfl
        have hold := hfits queue hqueue newest hnewest (hexpired queue hqueue newest hnewest)
        rw [hlast] at ht hkept
        obtain rfl | ht := mem_cons.1 ht
        · exact hold
        · have hle := (pairwise_cons.1 hkept).1 t ht
          omega

theorem MemoryOk.checkTotal (h : MemoryOk limits s) : MemoryOk limits (s.checkTotal limits) := by
  unfold MemoryState.checkTotal
  split_ifs with hzero
  · exact { h with running := nofun }
  · have hlimiting := h.total (by omega)
    by_cases hadmits : Admits limits.totalMaxCount limits.duration s.now (queued s.store .total)
    · obtain ⟨htrue, hkept⟩ := request_of_admits (by omega) hlimiting.tracks.length hadmits
      cases hrequest : s.store.request s.now .total limits.totalMaxCount limits.duration with
      | mk allowed store =>
        have hsame := queued_request_of_ne s.store s.now limits.totalMaxCount limits.duration
          (show LimitKey.check ≠ .total by decide)
        have hfilled := h.filled.request s.now .total limits.totalMaxCount limits.duration
        rw [hrequest] at htrue hkept hsame hfilled
        obtain rfl : allowed = true := htrue
        refine ⟨h.history.cons _ nofun fun t he => ?_, h.refused.cons nofun, hfilled,
          fun hn => ?_, ?_, h.admitted, h.admitted_le, h.spaced, nofun⟩
        · exact (Event.passedTotal.inj he).symm
        · dsimp only at hkept ⊢
          rw [hkept]
          exact hlimiting.push hn hadmits
        · dsimp only at hsame ⊢
          rw [hsame]
          exact h.check
    · rw [request_of_not_admits hadmits]
      exact ⟨h.history.cons _ (fun _ he => (nomatch he)) fun _ he => (nomatch he),
        h.refused.cons nofun, h.filled, h.total, h.check, h.admitted, h.admitted_le, h.spaced,
        nofun⟩

/-- The requests that were let through decide the check; with the condition they decide it as the
successes do. -/
theorem MemoryOk.checkSuccess (h : MemoryOk limits s) {expirationDuration : ℤ}
    (hfits : MemoryFits limits expirationDuration s .check) :
    MemoryOk limits (s.checkSuccess limits) := by
  have hpos : 0 < max 1 limits.successMaxCount := Nat.lt_of_lt_of_le Nat.one_pos (le_max_left _ _)
  have hfits : if limits.successMaxCount = 0 then ∀ t ∈ s.admitted, t + limits.duration ≤ s.now
      else limits.successMaxCount ≤
          (s.admitted.filter fun t => s.now < t + limits.duration).length ↔
        limits.successMaxCount ≤
          ((successes s.history).filter fun t => s.now < t + limits.duration).length := hfits
  unfold MemoryState.checkSuccess
  rw [← h.filled.request_max]
  by_cases hadmits : Admits (max 1 limits.successMaxCount) limits.duration s.now
    (queued s.store .check)
  · obtain ⟨htrue, hkept⟩ := request_of_admits hpos h.check.tracks.length hadmits
    have hsame := queued_request_of_ne s.store s.now (max 1 limits.successMaxCount) limits.duration
      (show LimitKey.total ≠ .check by decide)
    have hfilled := h.filled.request s.now .check (max 1 limits.successMaxCount) limits.duration
    have hrecent := h.admitted.length_recent_lt hpos (h.check.tracks.old_of_admits hadmits hpos)
    cases hrequest : s.store.request s.now .check (max 1 limits.successMaxCount)
      limits.duration with
    | mk allowed store =>
      rw [hrequest] at htrue hkept hsame hfilled
      obtain rfl : allowed = true := htrue
      refine ⟨h.history, h.refused, hfilled, fun hn => ?_, ?_, h.admitted.cons h.admitted_le,
        forall_mem_cons.2 ⟨le_rfl, h.admitted_le⟩, h.spaced, fun _ hn => ?_⟩
      · dsimp only at hsame ⊢
        rw [hsame]
        exact h.total hn
      · dsimp only at hkept ⊢
        rw [hkept]
        exact h.check.push hpos hadmits
      · rw [if_neg hn.ne'] at hfits
        rw [max_eq_right hn] at hrecent
        by_contra hmany
        exact absurd (hfits.2 (not_lt.1 hmany)) (not_le.2 hrecent)
  · rw [request_of_not_admits hadmits]
    have hmany := (h.check.tracks.of_not_admits h.admitted hadmits).2
    refine ⟨h.history.cons _ (fun _ he => (nomatch he)) fun _ he => (nomatch he),
      h.refused.cons fun time he => ?_, h.filled, h.total, h.check, h.admitted, h.admitted_le,
      h.spaced, nofun⟩
    obtain rfl := Event.refusedSuccess.inj he
    obtain hzero | hn := Nat.eq_zero_or_pos limits.successMaxCount
    · -- without a limit nothing recent can stand in the way
      rw [if_pos hzero] at hfits
      have hnone : (s.admitted.filter fun t => s.now < t + limits.duration) = [] :=
        filter_eq_nil_iff.2 fun t ht => by simpa using hfits t ht
      rw [hnone, hzero] at hmany
      exact absurd hmany (by decide)
    · rw [if_neg hn.ne'] at hfits
      rw [max_eq_right hn] at hmany
      exact ⟨hn, hfits.1 hmany⟩

theorem MemoryOk.finish (h : MemoryOk limits s) (hrunning : s.phase = .running) (status : ℤ) :
    MemoryOk limits (s.finish limits status) := by
  unfold MemoryState.finish
  split_ifs with hsuccess
  · have hsame := fun key' (hne : key' ≠ LimitKey.success) =>
      queued_request_of_ne s.store s.now limits.successMaxCount limits.duration hne
    refine ⟨h.history.cons _ (fun t he => (Event.succeeded.inj he).symm) nofun,
      h.refused.cons nofun, h.filled.request _ _ _ _, fun hn => ?_, ?_, h.admitted, h.admitted_le,
      fun hn => ?_, nofun⟩
    · dsimp only [MemoryState.done]
      rw [hsame .total (by decide)]
      exact h.total hn
    · dsimp only [MemoryState.done]
      rw [hsame .check (by decide)]
      exact h.check
    · exact (h.spaced hn).cons h.history.successes (h.running hrunning hn)
  · exact ⟨h.history.cons _ (fun _ he => (nomatch he)) fun _ he => (nomatch he),
      h.refused.cons nofun, h.filled, h.total, h.check, h.admitted, h.admitted_le, h.spaced,
      nofun⟩

theorem MemoryOk.step (h : MemoryOk limits s) {expirationDuration : ℤ} {label : MemoryLabel}
    (hfits : MemoryFits limits expirationDuration s label)
    (hstep : step limits expirationDuration s label = some s') : MemoryOk limits s' := by
  cases label with
  | tick seconds =>
    cases hstep
    have hle : s.now ≤ s.now + seconds := Int.le_add_of_nonneg_right (Int.natCast_nonneg seconds)
    exact ⟨h.history.mono hle, h.refused, h.filled,
      fun hn => ⟨(h.total hn).tracks.mono hle, (h.total hn).spaced⟩,
      ⟨h.check.tracks.mono hle, h.check.spaced⟩, h.admitted,
      fun t ht => (h.admitted_le t ht).trans hle, h.spaced,
      fun hp hn => (length_recent_mono _ hle).trans_lt (h.running hp hn)⟩
  | sweep =>
    cases hstep
    exact ⟨h.history, h.refused, h.filled.clearExpiredItems _ _,
      fun hn => (h.total hn).sweep h.history.passes (hfits .total (by decide)),
      h.check.sweep h.admitted (hfits .check (by decide)), h.admitted, h.admitted_le, h.spaced,
      h.running⟩
  | start =>
    obtain ⟨-, heq⟩ := ite_none_right_eq_some.1 hstep
    cases heq
    exact h.checkTotal
  | check =>
    obtain ⟨-, heq⟩ := ite_none_right_eq_some.1 hstep
    cases heq
    exact h.checkSuccess hfits
  | finish status =>
    obtain ⟨hrunning, heq⟩ := ite_none_right_eq_some.1 hstep
    cases heq
    exact h.finish hrunning status

theorem memoryOk_init (limits : Limits) (now : ℤ) : MemoryOk limits { now } where
  history := ⟨List.Pairwise.nil, nofun, List.Pairwise.nil, nofun⟩
  refused _ _ hsuffix := absurd (suffix_nil.1 hsuffix) (cons_ne_nil _ _)
  filled _ := nofun
  total _ := ⟨tracks_nil _ _ _, trivial⟩
  check := ⟨tracks_nil _ _ _, trivial⟩
  admitted := List.Pairwise.nil
  admitted_le := nofun
  spaced _ := trivial
  running hp := nomatch hp

end Memory

theorem successPolicy_of_spaced {history : List Event} (h : HistoryOk now history)
    (hrefused : RefusedRightly limits history) (hspaced : 0 < limits.successMaxCount →
      Spaced limits.successMaxCount limits.duration (successes history)) :
    SuccessPolicy limits history :=
  ⟨fun hn _ _ hab => (hspaced hn).length_window_le h.successes hab, hrefused⟩

/-- In every run whose steps fit, of the one handler and of the other: the successes keep their policy;
and of the requests that pass the total limit, the bucket lets through `totalMaxCount` times `1 + t / D`
in `t` seconds, the queue `totalMaxCount` in less than `D` seconds. -/
theorem rate_limits_of_run (limits : Limits) (now : ℤ) :
    (∀ s l, Run.run (step limits) { now } l = some s →
      Run.Along (step limits) RedisFits { now } l →
      SuccessPolicy limits s.history ∧
      (0 < limits.totalMaxCount → ∀ a t : ℤ, 0 ≤ t →
        ((window a (a + t) (passes s.history)).length : ℤ) * limits.duration ≤
          limits.totalMaxCount * (limits.duration + t))) ∧
    (∀ expirationDuration s l,
      Run.run (step limits expirationDuration) { now } l = some s →
      Run.Along (step limits expirationDuration)
        (MemoryFits limits expirationDuration) { now } l →
      SuccessPolicy limits s.history ∧
      (0 < limits.totalMaxCount → ∀ a t : ℤ, t < limits.duration →
        (window a (a + t) (passes s.history)).length ≤ limits.totalMaxCount)) := by
  constructor
  · intro s l h hfits
    have hok : RedisOk limits s := Run.invariant_along (fun s a s' hi hf hs => hi.step hf hs)
      (redisOk_init limits now) hfits h
    refine ⟨successPolicy_of_spaced hok.history hok.refused hok.spaced, fun hn a t ht => ?_⟩
    have hwindow := (hok.tokens hn).window a (a + t) (by omega)
    rwa [add_sub_cancel_left] at hwindow
  · intro expirationDuration s l h hfits
    have hok : MemoryOk limits s := Run.invariant_along (fun s a s' hi hf hs => hi.step hf hs)
      (memoryOk_init limits now) hfits h
    refine ⟨successPolicy_of_spaced hok.history hok.refused hok.spaced,
      fun hn a t ht => ?_⟩
    exact (hok.total hn).spaced.length_window_le hok.history.passes (by omega)

def exampleLimits : Limits := { duration := 60, totalMaxCount := 5, successMaxCount := 2 }

def redisSuccess : List RedisLabel := [.start, .next, .finish 200, .next, .next, .next]

/-- Two successes fill the list; the next request is refused, until the key expires. -/
def redisRequests : List RedisLabel :=
  redisSuccess ++ [.tick 1] ++ redisSuccess ++ [.tick 30, .start, .next, .next, .next, .tick 60,
    .expired] ++ redisSuccess

def memoryRequests : List MemoryLabel :=
  [.start, .check, .finish 200, .tick 1, .start, .check, .finish 200, .tick 30, .start, .check,
    .tick 60, .sweep, .start, .check, .finish 500, .start, .check, .finish 200]

theorem rate_limits_of_requests :
    (∃ s, Run.run (step exampleLimits) { now := 0 } redisRequests = some s ∧
      SuccessPolicy exampleLimits s.history ∧ successes s.history = [91, 1, 0]) ∧
    (∃ s, Run.run (step exampleLimits 60) { now := 0 } memoryRequests = some s ∧
      SuccessPolicy exampleLimits s.history ∧ successes s.history = [91, 1, 0]) := by
  constructor
  · have hfits : Run.Along (step exampleLimits) RedisFits { now := 0 } redisRequests := by
      decide +kernel
    exact exists_some_imp (by decide +kernel) fun s h hvalues =>
      ⟨((rate_limits_of_run exampleLimits 0).1 s redisRequests h hfits).1, hvalues⟩
  · have hfits : Run.Along (step exampleLimits 60) (MemoryFits exampleLimits 60)
        { now := 0 } memoryRequests := by
      decide +kernel
    exact exists_some_imp (by decide +kernel) fun s h hvalues =>
      ⟨((rate_limits_of_run exampleLimits 0).2 60 s memoryRequests h hfits).1, hvalues⟩

/-- In memory a request that failed is counted against the limit on successes. -/
theorem failed_request_uses_limit :
    ¬ ∀ limits expirationDuration now s l, 0 < expirationDuration →
      Run.run (step limits expirationDuration) { now } l = some s →
      SuccessPolicy limits s.history := by
  intro hclaim
  obtain ⟨s, h, hhistory⟩ : ∃ s,
      Run.run (step { exampleLimits with successMaxCount := 1 } 60)
        { now := 0 } [.start, .check, .finish 500, .tick 1, .start, .check] = some s ∧
      s.history = [.refusedSuccess 1, .passedTotal 1, .failed 0, .passedTotal 0] := by
    decide +kernel
  have hpolicy := hclaim _ _ _ s _ (by decide) h
  rw [hhistory] at hpolicy
  have hcount := (hpolicy.refused 1 _ (suffix_refl _)).2
  exact absurd hcount (by decide)

end BeeApi.RateLimit
