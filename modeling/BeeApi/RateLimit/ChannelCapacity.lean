import BeeApi.Lib.Table
import Mathlib.Algebra.Order.Field.Rat

/-!
# The capacity counters of channels

The calls of a channel are counted by the minute, in memory or in Redis keys that vanish after their
time to live.  The load of a window is the calls of its minutes and a part of the minute before them.
-/

namespace BeeApi.Capacity

open List Table

def normalizeCapacityWindowSec (w : ℤ) : ℤ :=
  if w ≤ 60 then 60 else if 3600 ≤ w then 3600 else (w + 59) / 60 * 60

/-- In seconds. -/
def capacityTTLForWindow (windowSec : ℤ) : ℤ :=
  let ttl := normalizeCapacityWindowSec windowSec + 70
  if ttl < 130 then 130 else ttl

inductive CapacityStoreFailMode
  | failOpen
  | failClosed

/-- The counts of the channels by minute, and the Redis keys by channel and minute with their counts
and the times at which they vanish. -/
structure Store where
  buckets : Table ℤ (Table ℤ ℤ) := ∅
  redis : Table (ℤ × ℤ) (ℤ × ℤ) := ∅

/-- `capacityMemStore.incr` on the bucket of a channel. -/
def incr (bucket : Table ℤ ℤ) (minute : ℤ) : Table ℤ ℤ :=
  (bucket.put minute ((bucket.get? minute).getD 0 + 1)).eraseWhere fun k _ => k < minute - 61

namespace Store

/-- `GET`; a key that is missing counts as zero. -/
def redisGet (s : Store) (now channelID minute : ℤ) : ℤ :=
  ((s.redis.get? (channelID, minute)).filter fun key => now < key.2).elim 0 Prod.fst

def memGet (s : Store) (channelID minute : ℤ) : ℤ :=
  ((s.buckets.get? channelID).bind fun bucket => bucket.get? minute).getD 0

def incrChannelCapacityStore (redisEnabled : Bool) (s : Store) (now channelID ttl : ℤ) : Store :=
  if channelID ≤ 0 then s
  else
    let ttl := if ttl ≤ 0 then 130 else ttl
    if redisEnabled then
      { s with
        redis := s.redis.put (channelID, now / 60)
          (s.redisGet now channelID (now / 60) + 1, now + ttl) }
    else
      { s with
        buckets := s.buckets.put channelID
          (incr ((s.buckets.get? channelID).getD ∅) (now / 60)) }

end Store

def capacityWeightedMulti (buckets : List ℤ) (windowSec now : ℤ) : ℚ :=
  let n := (normalizeCapacityWindowSec windowSec / 60).toNat
  let weightOldest : ℚ := (60 - (now % 60 : ℤ)) / 60
  (buckets.take n).sum + buckets[n]?.getD 0 * weightOldest

def bucketCount (windowSec : ℤ) : ℕ := (normalizeCapacityWindowSec windowSec / 60).toNat + 1

/-- The times of a reader: when it takes the minute, when it reads the store, and when it takes the
elapsed seconds. -/
structure Clock where
  minute : ℤ
  read : ℤ
  weighted : ℤ

/-- `memCapacityGetN`, and the counts that a pipeline reads. -/
def getN (get : ℤ → ℤ → ℤ) (channelID minute : ℤ) (n : ℕ) : List ℤ :=
  (List.range n).map fun i : ℕ => get channelID (minute - i)

section Readers

variable (redisEnabled redisFails : Bool) (s : Store) (t : Clock) (failMode : CapacityStoreFailMode)

/-- What a reader returns for a channel when it has read so many buckets. -/
def estimate (channelID windowSec : ℤ) (memBuckets redisBuckets : ℕ) : ℚ :=
  if redisEnabled then
    if redisFails then
      match failMode with
      | .failOpen => 0
      | .failClosed => 2 ^ 31 - 1
    else capacityWeightedMulti (getN (s.redisGet t.read) channelID (t.minute / 60) redisBuckets)
      windowSec t.weighted
  else capacityWeightedMulti (getN s.memGet channelID (t.minute / 60) memBuckets) windowSec t.weighted

def getChannelCapacityCountStore (channelID windowSec : ℤ) : ℚ :=
  if channelID ≤ 0 then 0
  else estimate redisEnabled redisFails s t failMode channelID windowSec (bucketCount windowSec)
    (bucketCount windowSec)

def batchGetChannelCapacityCountsStore (channelIDs : List ℤ) (windowSec : ℤ) : Table ℤ ℚ :=
  channelIDs.foldl (fun result id => result.put id (estimate redisEnabled redisFails s t failMode id
    windowSec (bucketCount windowSec) (bucketCount windowSec))) ∅

/-- In Redis the buckets of the largest window are read for every channel. -/
def batchGetChannelCapacityCountsStorePerWindow (channelWindows : Table ℤ ℤ) : Table ℤ ℚ :=
  let maxBuckets := channelWindows.rows.foldl (fun most e => max most (bucketCount e.2)) 0
  channelWindows.rows.foldl (fun result e => result.put e.1 (estimate redisEnabled redisFails s t
    failMode e.1 e.2 (bucketCount e.2) maxBuckets)) ∅

end Readers

/-! ## What was called -/

/-- A call, and the window that its time to live was taken from. -/
structure Call where
  now : ℤ
  channelID : ℤ
  windowSec : ℤ

def Store.call (redisEnabled : Bool) (s : Store) (c : Call) : Store :=
  s.incrChannelCapacityStore redisEnabled c.now c.channelID (capacityTTLForWindow c.windowSec)

def runCalls (redisEnabled : Bool) (calls : List Call) : Store :=
  calls.foldl (Store.call redisEnabled) {}

def callsIn (calls : List Call) (id minute : ℤ) : ℕ :=
  calls.countP fun c => c.channelID = id ∧ c.now / 60 = minute

/-- The calls in the minute and the `n - 1` minutes before it. -/
def recentCalls (calls : List Call) (id minute : ℤ) (n : ℕ) : ℕ :=
  calls.countP fun c => c.channelID = id ∧ minute - n < c.now / 60 ∧ c.now / 60 ≤ minute

theorem recentCalls_succ (calls : List Call) (id minute : ℤ) (n : ℕ) :
    recentCalls calls id minute (n + 1) =
      recentCalls calls id minute n + callsIn calls id (minute - n) := by
  induction calls with
  | nil => rfl
  | cons c calls ih =>
    simp only [recentCalls, callsIn, countP_cons, decide_eq_true_eq] at ih ⊢
    split_ifs <;> omega

theorem window_eq (w : ℤ) :
    ∃ n : ℕ, normalizeCapacityWindowSec w = 60 * n ∧ (normalizeCapacityWindowSec w / 60).toNat = n ∧
      bucketCount w = n + 1 ∧ 0 < n ∧ n ≤ 60 := by
  refine ⟨(normalizeCapacityWindowSec w / 60).toNat, ?_, rfl, rfl, ?_⟩ <;>
    simp only [normalizeCapacityWindowSec] <;> split_ifs <;> omega

theorem ttl_le {w w' : ℤ} (h : w ≤ w') :
    normalizeCapacityWindowSec w + 70 ≤ capacityTTLForWindow w' ∧ 130 ≤ capacityTTLForWindow w' := by
  simp only [capacityTTLForWindow, normalizeCapacityWindowSec]
  split_ifs <;> omega

/-! ## The two stores -/

theorem runCalls_append (redisEnabled : Bool) (calls : List Call) (c : Call) :
    runCalls redisEnabled (calls ++ [c]) = (runCalls redisEnabled calls).call redisEnabled c := by
  simp [runCalls]

theorem callsIn_append (calls : List Call) (c : Call) (id minute : ℤ) :
    callsIn (calls ++ [c]) id minute =
      callsIn calls id minute + if c.channelID = id ∧ c.now / 60 = minute then 1 else 0 := by
  simp [callsIn, countP_append, countP_singleton]

/-- A call prunes only what is more than 61 minutes old. -/
theorem get?_incr (bucket : Table ℤ ℤ) {minute k : ℤ} (hk : minute - 61 ≤ k) :
    ((incr bucket minute).get? k).getD 0 =
      (bucket.get? k).getD 0 + if minute = k then 1 else 0 := by
  rw [incr, get?_eraseWhere, get?_put]
  by_cases h : k = minute
  · simp [h, Option.filter]
  · cases bucket.get? k <;> simp [h, Ne.symm h, hk, Option.filter]

section Stores

variable {calls : List Call} {id : ℤ} (hid : 0 < id)
include hid

theorem memGet_runCalls {last minute : ℤ} (hcalls : ∀ c ∈ calls, c.now / 60 ≤ last)
    (hm : last - 61 ≤ minute) : (runCalls false calls).memGet id minute = callsIn calls id minute := by
  induction calls using List.reverseRecOn with
  | nil => rfl
  | append_singleton calls c ih =>
    have ih := ih fun c' h => hcalls c' (mem_append_left _ h)
    have hc := hcalls c (by simp)
    rw [runCalls_append, callsIn_append, Nat.cast_add, ← ih]
    unfold Store.call Store.incrChannelCapacityStore Store.memGet
    by_cases hpos : c.channelID ≤ 0
    · simp [hpos, show c.channelID ≠ id by omega]
    · by_cases heq : c.channelID = id
      · have := get?_incr (((runCalls false calls).buckets.get? id).getD ∅)
          (show c.now / 60 - 61 ≤ minute by omega)
        simp [get?_put, heq, show ¬ id ≤ 0 by omega, this]
        cases (runCalls false calls).buckets.get? id <;> rfl
      · simp [get?_put, hpos, heq, Ne.symm heq]

/-- The keys of a channel count its calls, and they live as long as every call has set them to. -/
theorem redis_runCalls {w : ℤ} (hw : ∀ c ∈ calls, c.channelID = id → w ≤ c.windowSec) (minute : ℤ) :
    ((runCalls true calls).redis.get? (id, minute)).elim 0 Prod.fst = callsIn calls id minute ∧
      ∀ key, (runCalls true calls).redis.get? (id, minute) = some key →
        60 * minute + normalizeCapacityWindowSec w + 70 ≤ key.2 := by
  induction calls using List.reverseRecOn with
  | nil => exact ⟨rfl, fun _ h => nomatch h⟩
  | append_singleton calls c ih =>
    obtain ⟨ih, hkey⟩ := ih fun c' h => hw c' (mem_append_left _ h)
    have hc := hw c (by simp)
    rw [runCalls_append, callsIn_append, Nat.cast_add, ← ih]
    unfold Store.call Store.incrChannelCapacityStore
    by_cases hpos : c.channelID ≤ 0
    · simpa [hpos, show c.channelID ≠ id by omega] using hkey
    · by_cases heq : c.channelID = id ∧ c.now / 60 = minute
      · obtain ⟨n, hn, -⟩ := window_eq w
        have httl := ttl_le (hc heq.1)
        -- a key outlives its own minute, so that a call never finds it expired
        have hget : (runCalls true calls).redisGet c.now id minute =
            ((runCalls true calls).redis.get? (id, minute)).elim 0 Prod.fst := by
          unfold Store.redisGet
          cases hk : (runCalls true calls).redis.get? (id, minute) with
          | none => rfl
          | some key =>
            have := hkey key hk
            simp [Option.filter, show c.now < key.2 by omega]
        simp [get?_put, heq, show ¬ id ≤ 0 by omega, hget,
          show ¬ capacityTTLForWindow c.windowSec ≤ 0 by omega]
        omega
      · have hne : (id, minute) ≠ (c.channelID, c.now / 60) := by grind
        simpa [hpos, heq, get?_put, hne] using hkey

end Stores

/-! ## The readers -/

theorem getN_succ (get : ℤ → ℤ → ℤ) (id minute : ℤ) (n : ℕ) :
    getN get id minute (n + 1) = getN get id minute n ++ [get id (minute - n)] := by
  simp [getN, range_succ]

theorem sum_getN {get : ℤ → ℤ → ℤ} {calls : List Call} {id minute : ℤ} (n : ℕ)
    (hget : ∀ i : ℕ, i < n → get id (minute - i) = callsIn calls id (minute - i)) :
    (getN get id minute n).sum = recentCalls calls id minute n := by
  induction n with
  | zero =>
    refine (Nat.cast_eq_zero.2 (countP_eq_zero.2 fun c _ => ?_)).symm
    simp only [decide_eq_true_eq]
    omega
  | succ n ih =>
    rw [getN_succ, recentCalls_succ, sum_append, ih fun i hi => hget i (by omega),
      hget n (by omega)]
    simp

/-- A reader that has read more buckets than its window needs looks at the same ones. -/
theorem capacityWeightedMulti_getN (get : ℤ → ℤ → ℤ) (id minute w now : ℤ) {n N : ℕ}
    (hn : (normalizeCapacityWindowSec w / 60).toNat = n) (hN : n < N) :
    capacityWeightedMulti (getN get id minute N) w now =
      (getN get id minute n).sum + get id (minute - n) * ((60 - (now % 60 : ℤ)) / 60) := by
  have htake : (getN get id minute N).take n = getN get id minute n := by
    rw [getN, ← map_take, take_range, min_eq_left hN.le, getN]
  have hlast : (getN get id minute N)[n]? = some (get id (minute - n)) := by
    simp [getN, getElem?_range hN]
  simp only [capacityWeightedMulti, hn, htake, hlast, Option.getD_some]

theorem weighted_between {get : ℤ → ℤ → ℤ} {calls : List Call} {id minute : ℤ} {n : ℕ} (now : ℤ)
    (hget : ∀ i : ℕ, i < n → get id (minute - i) = callsIn calls id (minute - i))
    (hlast : 0 ≤ get id (minute - n) ∧ get id (minute - n) ≤ callsIn calls id (minute - n)) :
    (recentCalls calls id minute n : ℚ) ≤
        (getN get id minute n).sum + get id (minute - n) * ((60 - (now % 60 : ℤ)) / 60) ∧
      (getN get id minute n).sum + get id (minute - n) * ((60 - (now % 60 : ℤ)) / 60) ≤
        (recentCalls calls id minute (n + 1) : ℚ) := by
  have hweight : (0 : ℚ) ≤ (60 - (now % 60 : ℤ)) / 60 ∧ (60 - (now % 60 : ℤ) : ℚ) / 60 ≤ 1 := by
    have h₀ : (0 : ℚ) ≤ (now % 60 : ℤ) := by exact_mod_cast Int.emod_nonneg now (by decide)
    have h₁ : ((now % 60 : ℤ) : ℚ) ≤ 60 := by
      exact_mod_cast (Int.emod_lt_of_pos now (by decide)).le
    constructor <;> linarith
  have hlow : (0 : ℚ) ≤ get id (minute - n) := by exact_mod_cast hlast.1
  have hhigh : (get id (minute - n) : ℚ) ≤ callsIn calls id (minute - n) := by
    exact_mod_cast hlast.2
  rw [sum_getN n hget, recentCalls_succ, Nat.cast_add, Int.cast_natCast]
  exact ⟨by nlinarith, by nlinarith⟩

theorem estimate_eq {redisEnabled redisFails : Bool} {s : Store} {t : Clock}
    {failMode : CapacityStoreFailMode} {id w : ℤ} {most : ℕ} (h : bucketCount w ≤ most) :
    estimate redisEnabled redisFails s t failMode id w (bucketCount w) most =
      estimate redisEnabled redisFails s t failMode id w (bucketCount w) (bucketCount w) := by
  simp only [estimate, capacityWeightedMulti_getN _ _ _ _ _ rfl h,
    capacityWeightedMulti_getN _ _ _ _ _ rfl (show _ < bucketCount w from Nat.lt_succ_self _)]

theorem bucketCount_le_foldl {e : ℤ × ℤ} (rows : List (ℤ × ℤ)) (most : ℕ)
    (h : e ∈ rows ∨ bucketCount e.2 ≤ most) :
    bucketCount e.2 ≤ rows.foldl (fun most e => max most (bucketCount e.2)) most := by
  induction rows generalizing most with
  | nil => simpa using h
  | cons e' rows ih =>
    refine ih _ ?_
    rcases h with h | h
    · rcases mem_cons.1 h with rfl | h
      · exact .inr (le_max_right _ _)
      · exact .inl h
    · exact .inr (h.trans (le_max_left _ _))

theorem get?_foldl_put (f : ℤ → ℚ) (ids : List ℤ) (t : Table ℤ ℚ) (id : ℤ) :
    (ids.foldl (fun t id => t.put id (f id)) t).get? id =
      if id ∈ ids then some (f id) else t.get? id := by
  induction ids generalizing t with
  | nil => simp
  | cons id' ids ih =>
    rw [foldl_cons, ih, get?_put]
    by_cases h : id = id' <;> simp [h]

/-- The estimate lies between the calls of the window and those of one more minute, the stores agree
on it unless Redis is read when the oldest key may have vanished, and the readers agree on it. -/
theorem estimate_between_recentCalls {calls : List Call} {t : Clock} {id w : ℤ} (hid : 0 < id)
    (hcalls : ∀ c ∈ calls, c.now ≤ t.read)
    (hw : ∀ c ∈ calls, c.channelID = id → w ≤ c.windowSec)
    (ht : t.minute ≤ t.read ∧ t.read ≤ t.weighted ∧ t.weighted < t.minute + 60)
    (failMode : CapacityStoreFailMode) :
    let n := (normalizeCapacityWindowSec w / 60).toNat
    let count redisEnabled := getChannelCapacityCountStore redisEnabled false
      (runCalls redisEnabled calls) t failMode id w
    (∀ redisEnabled, (recentCalls calls id (t.minute / 60) n : ℚ) ≤ count redisEnabled ∧
        count redisEnabled ≤ (recentCalls calls id (t.minute / 60) (n + 1) : ℚ)) ∧
      (t.read < 60 * (t.minute / 60) + 70 → count true = count false) ∧
      ∀ redisEnabled redisFails s,
        (∀ channelIDs, id ∈ channelIDs →
          (batchGetChannelCapacityCountsStore redisEnabled redisFails s t failMode channelIDs w).get?
              id = some (getChannelCapacityCountStore redisEnabled redisFails s t failMode id w)) ∧
        ∀ channelWindows : Table ℤ ℤ, channelWindows.get? id = some w →
          (batchGetChannelCapacityCountsStorePerWindow redisEnabled redisFails s t failMode
              channelWindows).get? id =
            some (getChannelCapacityCountStore redisEnabled redisFails s t failMode id w) := by
  intro n count
  obtain ⟨n', hw60, hn, hcount, hpos, hle⟩ := window_eq w
  obtain rfl : n = n' := hn
  have hid' : ¬ id ≤ 0 := by omega
  have hmem (i : ℕ) (hi : i ≤ n) : (runCalls false calls).memGet id (t.minute / 60 - i) =
      callsIn calls id (t.minute / 60 - i) := by
    have hlast : ∀ c ∈ calls, c.now / 60 ≤ t.read / 60 := fun c hc =>
      Int.ediv_le_ediv (by decide) (hcalls c hc)
    exact memGet_runCalls hid hlast (by omega)
  have hredis (i : ℕ) (hi : t.read < 60 * (t.minute / 60 - i) + 60 * n + 70) :
      (runCalls true calls).redisGet t.read id (t.minute / 60 - i) =
        callsIn calls id (t.minute / 60 - i) := by
    obtain ⟨heq, hkey⟩ := redis_runCalls hid hw (t.minute / 60 - i)
    rw [← heq, Store.redisGet]
    cases hk : (runCalls true calls).redis.get? (id, t.minute / 60 - i) with
    | none => rfl
    | some key =>
      have := hkey key hk
      simp [Option.filter, show t.read < key.2 by omega]
  have hlast : 0 ≤ (runCalls true calls).redisGet t.read id (t.minute / 60 - n) ∧
      (runCalls true calls).redisGet t.read id (t.minute / 60 - n) ≤
        callsIn calls id (t.minute / 60 - n) := by
    have heq := (redis_runCalls hid hw (t.minute / 60 - n)).1
    rw [← heq, Store.redisGet]
    cases hk : (runCalls true calls).redis.get? (id, t.minute / 60 - n) with
    | none => simp
    | some key =>
      rw [hk] at heq
      simp only [Option.filter, Option.elim] at heq ⊢
      split_ifs <;> simp <;> omega
  have hred : count true = capacityWeightedMulti
      (getN ((runCalls true calls).redisGet t.read) id (t.minute / 60) (n + 1)) w t.weighted := by
    simp [count, getChannelCapacityCountStore, hid', estimate, hcount]
  have hmemo : count false = capacityWeightedMulti
      (getN (runCalls false calls).memGet id (t.minute / 60) (n + 1)) w t.weighted := by
    simp [count, getChannelCapacityCountStore, hid', estimate, hcount]
  rw [capacityWeightedMulti_getN _ _ _ _ _ rfl (Nat.lt_succ_self n)] at hred hmemo
  refine ⟨?_, ?_, ?_⟩
  · rintro (_ | _)
    · rw [hmemo]
      have hlast := hmem n le_rfl
      exact weighted_between _ (fun i hi => hmem i hi.le) ⟨by omega, by omega⟩
    · rw [hred]
      exact weighted_between _ (fun i hi => hredis i (by omega)) hlast
  · intro hread
    have hget (i : ℕ) (hi : i ≤ n) := (hredis i (by omega)).trans (hmem i hi).symm
    rw [hred, hmemo, hget n le_rfl]
    congr 3
    exact map_congr_left fun i hi => hget i (mem_range.1 hi).le
  · intro redisEnabled redisFails s
    simp only [getChannelCapacityCountStore, if_neg hid']
    refine ⟨fun channelIDs hmem => ?_, fun channelWindows hwin => ?_⟩
    · rw [batchGetChannelCapacityCountsStore, get?_foldl_put, if_pos hmem]
    · have hrow := (get?_eq_some_iff _ _ _).1 hwin
      refine (get?_foldl_put_of_mem _ _ _ _ channelWindows.nodup hrow).trans ?_
      rw [estimate_eq (bucketCount_le_foldl _ _ (.inl hrow))]

theorem estimate_between_recentCalls_two :
    let calls : List Call := [⟨0, 1, 60⟩, ⟨70, 1, 120⟩]
    (recentCalls calls 1 1 1 : ℚ) ≤
      getChannelCapacityCountStore true false (runCalls true calls) ⟨100, 101, 102⟩ .failOpen 1 60 :=
  ((estimate_between_recentCalls (by decide) (by decide) (by decide) (by decide) .failOpen).1 true).1

/-- The reader takes the minute in second 119 and asks Redis in second 135, when the key of the first
minute has vanished. -/
theorem count_ne_of_late_read :
    let calls : List Call := [⟨0, 1, 60⟩]
    getChannelCapacityCountStore true false (runCalls true calls) ⟨119, 135, 135⟩ .failOpen 1 60 ≠
      getChannelCapacityCountStore false false (runCalls false calls) ⟨119, 135, 135⟩ .failOpen 1 60 := by
  decide +kernel

end BeeApi.Capacity
