import BeeApi.Lib.Run
import BeeApi.Lib.SlidingLog

/-!
# The rate limits of model requests

`redisRateLimitHandler` keeps a list of the last successes in Redis and a token bucket for all requests;
`memoryRateLimitHandler` keeps three queues of an `InMemoryRateLimiter`.  Both are transition systems over
the requests of one user, which do not overlap: the time passes between any two steps.  What a client can
observe is the history of the requests, the newest event first.
-/

namespace BeeApi.RateLimit

/-- What happens to a request, with the time in seconds. -/
inductive Event
  | passedTotal (time : ℤ)
  | refusedTotal (time : ℤ)
  | refusedSuccess (time : ℤ)
  | checkFailed (time : ℤ)
  | succeeded (time : ℤ)
  | failed (time : ℤ)
deriving DecidableEq

/-- The times of the requests that succeeded, the newest first. -/
def successes (history : List Event) : List ℤ :=
  history.filterMap fun
    | .succeeded time => some time
    | _ => none

/-- The times of the requests that passed the total limit, the newest first. -/
def passes (history : List Event) : List ℤ :=
  history.filterMap fun
    | .passedTotal time => some time
    | _ => none

/-- The limits of a user: `duration` seconds, and 0 for no limit. -/
structure Limits where
  duration : ℕ
  totalMaxCount : ℕ
  successMaxCount : ℕ

/-- The policy for successes: a window shorter than the duration does not hold more of them than
allowed, and a request is refused for them only when that many lie less than the duration back. -/
structure SuccessPolicy (limits : Limits) (history : List Event) : Prop where
  window : 0 < limits.successMaxCount → ∀ a b : ℤ, b - a < limits.duration →
    (SlidingLog.window a b (successes history)).length ≤ limits.successMaxCount
  refused : ∀ (time : ℤ) earlier, (Event.refusedSuccess time :: earlier) <:+ history →
    0 < limits.successMaxCount ∧ limits.successMaxCount ≤
      ((successes earlier).filter fun t => time < t + limits.duration).length

/-- A list of times in Redis, the newest first, and when the server may drop the key. -/
structure RedisList where
  entries : List ℤ
  expireAt : Option ℤ := none

structure Bucket where
  tokens : ℤ
  lastTime : ℤ

/-- `rate_limit.lua`. -/
def allowTokens (bucket : Option Bucket) (now requested rate capacity : ℤ) : Bool × Bucket :=
  let tokens :=
    match bucket with
    | none => capacity
    | some bucket => min capacity (bucket.tokens + (now - bucket.lastTime) * rate)
  if requested ≤ tokens then (true, ⟨tokens - requested, now⟩) else (false, ⟨tokens, now⟩)

/-- Where the request is: between the commands of `checkRedisRateLimit`, before the token bucket, in
the handlers behind, or between the commands of `recordRedisRequest`. -/
inductive RedisPhase
  | idle
  | lindex
  | compare (oldTime : Option ℤ)
  | refused
  | bucket
  | running
  | lpush (now : ℤ)
  | ltrim
  | expire
deriving DecidableEq

/-- The keys of the user, the request and the clock. -/
structure RedisState where
  now : ℤ
  success : Option RedisList := none
  bucket : Option Bucket := none
  phase : RedisPhase := .idle
  history : List Event := []

/-- `next` is the next command or comparison of the request that is under way. -/
inductive RedisLabel
  | tick (seconds : ℕ)
  | expired
  | start
  | next
  | finish (status : ℤ)

namespace RedisState

/-- The entries of the list of successes; a missing key reads as an empty list. -/
def entries (s : RedisState) : List ℤ := s.success.elim [] RedisList.entries

/-- `EXPIRE`, which leaves a missing key alone. -/
def expire (s : RedisState) (seconds : ℤ) : RedisState :=
  { s with success := s.success.map fun l => { l with expireAt := some (s.now + seconds) } }

def done (s : RedisState) (event : Event) : RedisState :=
  { s with phase := .idle, history := event :: s.history }

/-- `checkRedisRateLimit` up to `LLEN`. -/
def checkLength (s : RedisState) (maxCount : ℕ) : RedisState :=
  if maxCount = 0 then { s with phase := .bucket }
  else if s.entries.length < maxCount then { s with phase := .bucket }
  else { s with phase := .lindex }

/-- The window test of `checkRedisRateLimit`; without an old time it fails. -/
def compareTime (s : RedisState) (duration : ℕ) : Option ℤ → RedisState
  | none => s.done (.checkFailed s.now)
  | some oldTime =>
    if s.now - oldTime < duration then
      { s with phase := .refused, history := .refusedSuccess s.now :: s.history }
    else { s with phase := .bucket }

/-- The token bucket of `redisRateLimitHandler`.  A refused request is aborted, so that `c.Next()` runs
no handler and the status 429 is not recorded. -/
def takeTokens (s : RedisState) (limits : Limits) : RedisState :=
  if limits.totalMaxCount = 0 then { s with phase := .running }
  else
    match allowTokens s.bucket s.now limits.duration limits.totalMaxCount
        (limits.totalMaxCount * limits.duration) with
    | (true, bucket) =>
      { s with
        bucket := some bucket
        phase := .running
        history := .passedTotal s.now :: s.history }
    | (false, bucket) => { s with bucket := some bucket }.done (.refusedTotal s.now)

/-- `redisRateLimitHandler` behind `c.Next()`. -/
def finish (s : RedisState) (maxCount : ℕ) (status : ℤ) : RedisState :=
  if status < 400 then
    { s with
      phase := if maxCount = 0 then .idle else .lpush s.now
      history := .succeeded s.now :: s.history }
  else s.done (.failed s.now)

def lpush (s : RedisState) (time : ℤ) : RedisState :=
  { s with
    success :=
      match s.success with
      | none => some { entries := [time] }
      | some l => some { l with entries := time :: l.entries }
    phase := .ltrim }

/-- `LTRIM` to the first `maxCount` entries. -/
def ltrim (s : RedisState) (maxCount : ℕ) : RedisState :=
  { s with
    success := s.success.map fun l => { l with entries := l.entries.take maxCount }
    phase := .expire }

def next (s : RedisState) (limits : Limits) : Option RedisState :=
  match s.phase with
  | .lindex => some { s with phase := .compare s.entries.getLast? }
  | .compare oldTime => some (s.compareTime limits.duration oldTime)
  | .refused => some { s.expire limits.duration with phase := .idle }
  | .bucket => some (s.takeTokens limits)
  | .lpush time => some (s.lpush time)
  | .ltrim => some (s.ltrim limits.successMaxCount)
  | .expire => some { s.expire limits.duration with phase := .idle }
  | .idle | .running => none

/-- The key of the list has reached its time. -/
def Overdue (s : RedisState) : Prop := ∃ t ∈ s.success.bind RedisList.expireAt, t ≤ s.now

instance (s : RedisState) : Decidable s.Overdue :=
  inferInstanceAs (Decidable (∃ t ∈ s.success.bind RedisList.expireAt, t ≤ s.now))

/-- `redisRateLimitHandler`. -/
def step (limits : Limits) (s : RedisState) : RedisLabel → Option RedisState
  | .tick seconds => some { s with now := s.now + seconds }
  | .expired => if s.Overdue then some { s with success := none } else none
  | .start => if s.phase = .idle then some (s.checkLength limits.successMaxCount) else none
  | .next => s.next limits
  | .finish status =>
    if s.phase = .running then some (s.finish limits.successMaxCount status) else none

end RedisState

/-- The keys of the user: `MRRL`, `MRRLS` and `MRRLS` with `_check`. -/
inductive LimitKey
  | total
  | success
  | check
deriving DecidableEq

/-- `InMemoryRateLimiter`: its queues, the oldest time first. -/
abbrev InMemoryRateLimiter := LimitKey → Option (List ℤ)

namespace InMemoryRateLimiter

/-- `Request`.  A queue is never empty, so that its first element can be read. -/
def request (store : InMemoryRateLimiter) (now : ℤ) (key : LimitKey) (maxRequestNum : ℕ)
    (duration : ℤ) : Bool × InMemoryRateLimiter :=
  match store key with
  | some queue =>
    if queue.length < maxRequestNum then
      (true, Function.update store key (some (queue ++ [now])))
    else
      match queue with
      | [] => (false, store)
      | oldest :: queue =>
        if duration ≤ now - oldest then
          (true, Function.update store key (some (queue ++ [now])))
        else (false, store)
  | none => (true, Function.update store key (some [now]))

def clearExpiredItems (store : InMemoryRateLimiter) (now expirationDuration : ℤ) :
    InMemoryRateLimiter := fun key =>
  (store key).bind fun queue =>
    match queue.getLast? with
    | none => none
    | some newest => if expirationDuration < now - newest then none else some queue

end InMemoryRateLimiter

inductive MemoryPhase
  | idle
  | check
  | running
deriving DecidableEq

/-- The queues of the user, the request and the clock.  `admitted` is a history variable: when the
check of the successes let a request through, the newest first. -/
structure MemoryState where
  now : ℤ
  store : InMemoryRateLimiter := fun _ => none
  phase : MemoryPhase := .idle
  history : List Event := []
  admitted : List ℤ := []

inductive MemoryLabel
  | tick (seconds : ℕ)
  | sweep
  | start
  | check
  | finish (status : ℤ)

namespace MemoryState

def done (s : MemoryState) (event : Event) : MemoryState :=
  { s with phase := .idle, history := event :: s.history }

/-- The total limit of `memoryRateLimitHandler`. -/
def checkTotal (s : MemoryState) (limits : Limits) : MemoryState :=
  if limits.totalMaxCount = 0 then { s with phase := .check }
  else
    match s.store.request s.now .total limits.totalMaxCount limits.duration with
    | (true, store) =>
      { s with store, phase := .check, history := .passedTotal s.now :: s.history }
    | (false, store) => { s with store }.done (.refusedTotal s.now)

/-- The success limit of `memoryRateLimitHandler`, which is checked under a key of its own. -/
def checkSuccess (s : MemoryState) (limits : Limits) : MemoryState :=
  match s.store.request s.now .check limits.successMaxCount limits.duration with
  | (true, store) => { s with store, phase := .running, admitted := s.now :: s.admitted }
  | (false, store) => { s with store }.done (.refusedSuccess s.now)

/-- `memoryRateLimitHandler` behind `c.Next()`. -/
def finish (s : MemoryState) (limits : Limits) (status : ℤ) : MemoryState :=
  if status < 400 then
    { s with
      store := (s.store.request s.now .success limits.successMaxCount limits.duration).2 }.done
      (.succeeded s.now)
  else s.done (.failed s.now)

/-- `memoryRateLimitHandler`, on a limiter whose sweep goes by `expirationDuration`. -/
def step (limits : Limits) (expirationDuration : ℤ) (s : MemoryState) :
    MemoryLabel → Option MemoryState
  | .tick seconds => some { s with now := s.now + seconds }
  | .sweep => some { s with store := s.store.clearExpiredItems s.now expirationDuration }
  | .start => if s.phase = .idle then some (s.checkTotal limits) else none
  | .check => if s.phase = .check then some (s.checkSuccess limits) else none
  | .finish status => if s.phase = .running then some (s.finish limits status) else none

end MemoryState

end BeeApi.RateLimit
