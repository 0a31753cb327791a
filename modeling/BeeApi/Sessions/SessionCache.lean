import BeeApi.Lib.Interleaving
import BeeApi.Sessions.Session

/-!
# The cache of login sessions

The functions of `user_session_runtime.go` on one session, as programs over the statements of the
database, the commands of Redis and the readings of the clock.  The clock counts nanoseconds, a key of
Redis is alive up to and with its millisecond.
-/

namespace BeeApi.Sessions

open Interleaving Transaction

/-! ## The cached session -/

structure UserSessionCacheEntry where
  userID : ℤ
  version : ℤ
  userAuthVersion : ℤ
  status : UserSessionStatus
  lastActiveAt : ℤ
  expiresAt : ℤ
  revokedAt : ℤ
  revokedReason : String

def UserSession.cacheEntry (session : UserSession) : UserSessionCacheEntry where
  userID := session.userID
  version := session.version
  userAuthVersion := session.userAuthVersion
  status := session.status
  lastActiveAt := session.lastActiveAt
  expiresAt := session.expiresAt
  revokedAt := session.revokedAt
  revokedReason := session.revokedReason

def UserSessionCacheEntry.session (entry : UserSessionCacheEntry) : UserSession where
  userID := entry.userID
  version := entry.version
  userAuthVersion := entry.userAuthVersion
  status := entry.status
  lastActiveAt := entry.lastActiveAt
  expiresAt := entry.expiresAt
  revokedAt := entry.revokedAt
  revokedReason := entry.revokedReason

/-- `time.Second` and `time.Millisecond`. -/
def second : ℤ := 1000000000

def millisecond : ℤ := 1000000

/-- `time.Time.Unix` and `time.Time.UnixMilli`. -/
def unix (time : ℤ) : ℤ := time / second

def unixMilli (time : ℤ) : ℤ := time / millisecond

/-! ## The store -/

/-- The row of the session, its key in Redis with the millisecond it expires, and the clock.  `denied`: an
entry that denies has been written since the revocation. -/
structure SessionStore where
  clock : ℤ
  row : Option UserSession := none
  cache : Option (UserSessionCacheEntry × ℤ) := none
  denied : Bool := false

/-- What a command of Redis finds. -/
def SessionStore.live (store : SessionStore) : Option UserSessionCacheEntry :=
  match store.cache with
  | none => none
  | some (entry, expires) => if unixMilli store.clock ≤ expires then some entry else none

def SessionStore.writes (store : SessionStore) (entry : UserSessionCacheEntry) : Bool :=
  match store.live with
  | none => 0 ≤ entry.version
  | some current =>
    !(entry.status = .active && (current.status = .revoking || current.status = .revoked)) &&
      current.version ≤ entry.version

def SessionStore.eval (store : SessionStore) (entry : UserSessionCacheEntry) (redisExpiration : ℤ) :
    SessionStore × Bool :=
  if !store.writes entry then (store, false)
  else if entry.status = .active then
    -- A key whose time has come is deleted.
    let cache :=
      if redisExpiration ≤ unixMilli store.clock then none else some (entry, redisExpiration)
    ({ store with cache }, true)
  else
    let revoked := store.row.any (·.status = .revoked)
    ({ store with
      cache := some (entry, unixMilli store.clock + redisExpiration)
      denied := store.denied || revoked }, true)

/-- The statements of the database, the commands of Redis and the clock. -/
inductive SessionOp
  | now
  | first
  | create (session : UserSession)
  | rotate (session : UserSession) (presentedHash nextHash : String) (now graceSeconds : ℤ)
  | revoke (selects : UserSession → Bool) (now : ℤ) (reason : String)
  | count (selects : UserSession → Bool)
  | hGetAll
  | eval (entry : UserSessionCacheEntry) (redisExpiration : ℤ)

def SessionOp.Res : SessionOp → Type
  | .now => ℤ
  | .first => Except String (Option UserSession)
  | .create _ | .rotate .. | .revoke .. => Except String Bool
  | .count _ => Except String ℕ
  | .hGetAll => Option UserSessionCacheEntry
  | .eval .. => Bool

def revokeWhere (row : Option UserSession) (selects : UserSession → Bool) (now : ℤ)
    (reason : String) : Option UserSession :=
  row.map fun session => if selects session then revokeColumns now reason session else session

/-- A statement of the database ends as its outcome says; Redis does not fail. -/
def SessionStore.exec (store : SessionStore) (o : Outcome) :
    (op : SessionOp) → SessionStore × op.Res
  | .now => (store, store.clock)
  | .first => withOutcome o store (.ok (store, store.row))
  | .create session =>
    withOutcome o store <|
      if store.row.isSome then .error "duplicate key"
      else .ok ({ store with row := some session }, true)
  | .rotate session presentedHash nextHash now graceSeconds =>
    withOutcome o store (.ok ({ store with
      row := rotateUpdate store.row session presentedHash nextHash now graceSeconds },
        rotateAffects store.row presentedHash now))
  | .revoke selects now reason =>
    withOutcome o store (.ok ({ store with row := revokeWhere store.row selects now reason },
      store.row.any selects))
  | .count selects => withOutcome o store (.ok (store, if store.row.any selects then 1 else 0))
  | .hGetAll => (store, store.live)
  | .eval entry redisExpiration => store.eval entry redisExpiration

abbrev SessionProg (α : Type) := Prog SessionOp SessionOp.Res α

namespace SessionProg

def now : SessionProg ℤ := Prog.call SessionOp.now

def first : SessionProg (Except String (Option UserSession)) := Prog.call SessionOp.first

def create (session : UserSession) : SessionProg (Except String Bool) :=
  Prog.call (SessionOp.create session)

def rotate (session : UserSession) (presentedHash nextHash : String) (now graceSeconds : ℤ) :
    SessionProg (Except String Bool) :=
  Prog.call (SessionOp.rotate session presentedHash nextHash now graceSeconds)

def revoke (selects : UserSession → Bool) (now : ℤ) (reason : String) :
    SessionProg (Except String Bool) :=
  Prog.call (SessionOp.revoke selects now reason)

def count (selects : UserSession → Bool) : SessionProg (Except String ℕ) :=
  Prog.call (SessionOp.count selects)

def hGetAll : SessionProg (Option UserSessionCacheEntry) := Prog.call SessionOp.hGetAll

def eval (entry : UserSessionCacheEntry) (redisExpiration : ℤ) : SessionProg Bool :=
  Prog.call (SessionOp.eval entry redisExpiration)

end SessionProg

/-! ## The functions -/

def errUserSessionRefreshInvalid : String := "user session refresh token is invalid"

def errUserSessionCacheObservationStale : String := "user session cache observation is stale"

def errRecordNotFound : String := "record not found"

inductive SessionResult
  | created
  | found (session : UserSession)
  | rotated (session : UserSession)
  /-- With `ErrUserSessionRefreshRace`. -/
  | race (session : UserSession)
  /-- With `ErrUserSessionRefreshReuse`. -/
  | reuse (session : UserSession)
  | revoked (done : Bool)
  | totalAffected (total : ℕ) (error : Option String)
  | error (error : String)
deriving DecidableEq

def SessionResult.revokes : SessionResult → Bool
  | .reuse _ => true
  | .revoked done => done
  | .totalAffected total _ => 0 < total
  | _ => false

/-- `GetUserSessionCached` or `RotateUserSessionRefresh` returns the session as active. -/
def SessionResult.returnsActive : SessionResult → Bool
  | .found session | .rotated session | .race session => session.status = .active
  | _ => false

section Functions

-- `userCacheTTLSeconds`
variable (cacheTTL : ℤ)

def userSessionCacheDeadline : SessionProg ℤ := do
  let now ← SessionProg.now
  return now + cacheTTL * second

/-- The time in Redis of an entry that denies. -/
def denyExpiration (entry : UserSessionCacheEntry) (now : ℤ) : ℤ :=
  let ttl := min (entry.expiresAt * second - now) (cacheTTL * second)
  let ttl := if ttl ≤ 0 then second else ttl
  max (ttl / millisecond) 1

/-- A zero deadline is `none`. -/
def writeUserSessionCache (entry : UserSessionCacheEntry) (cacheDeadline : Option ℤ) :
    SessionProg (Except String Unit) := do
  let now ← SessionProg.now
  let sessionExpiresAt := entry.expiresAt * second
  if entry.status = .active then
    match cacheDeadline with
    | none => return .error errUserSessionInvalid
    | some cacheDeadline =>
      if cacheDeadline - now ≤ 0 then return .error errUserSessionCacheObservationStale
      else if sessionExpiresAt - now ≤ 0 then return .error errUserSessionInactive
      else if min cacheDeadline sessionExpiresAt - now < millisecond then
        return .error errUserSessionCacheObservationStale
      else
        let written ← SessionProg.eval entry (unixMilli (min cacheDeadline sessionExpiresAt))
        if !written then return .error errUserSessionInactive
        else
          let completedAt ← SessionProg.now
          if cacheDeadline ≤ completedAt then return .error errUserSessionCacheObservationStale
          else if sessionExpiresAt ≤ completedAt then return .error errUserSessionInactive
          else return .ok ()
  else
    let written ← SessionProg.eval entry (denyExpiration cacheTTL entry now)
    if written then return .ok () else return .error errUserSessionInactive

def writeUserSessionDenyFence (session : UserSession) (status : UserSessionStatus) (now : ℤ)
    (reason : String) : SessionProg (Except String Unit) :=
  writeUserSessionCache cacheTTL
    { session.cacheEntry with status, revokedAt := now, revokedReason := reason } none

/-- The entry of a session that has been revoked, whose errors are only logged. -/
def finalizeRevoke (session : UserSession) (now : ℤ) (reason : String) :
    SessionProg (Except String Unit) :=
  writeUserSessionCache cacheTTL (revokeColumns now reason session).cacheEntry none

def confirmUserSessionActiveSnapshot (session : UserSession) : SessionProg (Except String Unit) :=
  if session.version ≤ 0 ∨ session.userID ≤ 0 ∨ session.userAuthVersion ≤ 0 then
    return .error errUserSessionInvalid
  else do
    let now ← SessionProg.now
    let selects : UserSession → Bool := fun row =>
      row.userID = session.userID && row.activeAt (unix now) && row.version = session.version &&
        row.userAuthVersion = session.userAuthVersion
    match ← SessionProg.count selects with
    | .error e => return .error e
    | .ok count => if count ≠ 1 then return .error errUserSessionInactive else return .ok ()

/-- The active snapshot is cached, or confirmed where its deadline has passed; other errors are only
logged. -/
def cacheOrConfirm (session : UserSession) (cacheDeadline : ℤ) :
    SessionProg (Except String Unit) := do
  match ← writeUserSessionCache cacheTTL session.cacheEntry (some cacheDeadline) with
  | .ok () => return .ok ()
  | .error e =>
    if e = errUserSessionCacheObservationStale then confirmUserSessionActiveSnapshot session
    else if e = errUserSessionInactive then return .error e
    else return .ok ()

def createColumns (session : UserSession) (now : ℤ) : UserSession :=
  { session with
    version := if session.version ≤ 0 then 1 else session.version
    lastActiveAt := if session.lastActiveAt = 0 then now else session.lastActiveAt }

def createUserSession (session : UserSession) : SessionProg SessionResult := do
  let now ← SessionProg.now
  if session.userID ≤ 0 ∨ session.userAuthVersion ≤ 0 ∨ session.refreshHash = "" ∨
      session.expiresAt ≤ unix now then
    return .error errUserSessionInvalid
  else if session.status ≠ .active ∨ session.revokedAt ≠ 0 then
    return .error errUserSessionInvalid
  else
    let session := createColumns session (unix now)
    let cacheDeadline ← userSessionCacheDeadline cacheTTL
    match ← SessionProg.create session with
    | .error e => return .error e
    | .ok _ =>
      match ← cacheOrConfirm cacheTTL session cacheDeadline with
      | .error e => return .error e
      | .ok () => return .created

/-- `none` is a miss, or an entry of another schema. -/
def getUserSessionCache : SessionProg (Except String (Option UserSessionCacheEntry)) := do
  match ← SessionProg.hGetAll with
  | none => return .ok none
  | some entry =>
    if entry.userID ≤ 0 ∨ entry.version ≤ 0 ∨ entry.userAuthVersion ≤ 0 then return .ok none
    else
      let now ← SessionProg.now
      if entry.status ≠ .active ∨ entry.revokedAt ≠ 0 ∨ entry.expiresAt ≤ unix now then
        return .error errUserSessionInactive
      else return .ok (some entry)

def getUserSessionCached : SessionProg SessionResult := do
  match ← getUserSessionCache with
  | .error e => return .error e
  | .ok (some entry) => return .found entry.session
  | .ok none =>
    let cacheDeadline ← userSessionCacheDeadline cacheTTL
    match ← SessionProg.first with
    | .error e => return .error e
    | .ok none => return .error errRecordNotFound
    | .ok (some session) =>
      let now ← SessionProg.now
      if !session.activeAt (unix now) then
        let _ ← writeUserSessionCache cacheTTL { session.cacheEntry with status := .revoked } none
        return .error errUserSessionInactive
      else
        match ← cacheOrConfirm cacheTTL session cacheDeadline with
        | .error e => return .error e
        | .ok () => return .found session

def rotateRounds (userID : ℤ) (presentedHash nextHash : String) (now graceSeconds : ℤ) :
    ℕ → SessionProg SessionResult
  | 0 => return .error errUserSessionRefreshInvalid
  | rounds + 1 => do
    let cacheDeadline ← userSessionCacheDeadline cacheTTL
    match ← SessionProg.first with
    | .error e => return .error e
    | .ok row =>
      match row.filter (·.userID = userID) with
      | none => return .error errRecordNotFound
      | some session =>
        match classify session presentedHash now with
        | .inactive => return .error errUserSessionInactive
        | .current =>
          match ← SessionProg.rotate session presentedHash nextHash now graceSeconds with
          | .error e => return .error e
          | .ok false => rotateRounds userID presentedHash nextHash now graceSeconds rounds
          | .ok true =>
            let session := rotateColumns session nextHash now graceSeconds session
            match ← cacheOrConfirm cacheTTL session cacheDeadline with
            | .error e => return .error e
            | .ok () => return .rotated session
        | .unknown => return .error errUserSessionRefreshInvalid
        | .race => return .race session
        | .reuse =>
          match ← writeUserSessionDenyFence cacheTTL session .revoking now "refresh_reuse" with
          | .error e => return .error e
          | .ok () =>
            let selects : UserSession → Bool := fun row => row.userID = userID && row.activeAt now
            match ← SessionProg.revoke selects now "refresh_reuse" with
            | .error e => return .error e
            | .ok false => return .error errUserSessionInactive
            | .ok true =>
              let _ ← finalizeRevoke cacheTTL session now "refresh_reuse"
              return .reuse (revokeColumns now "refresh_reuse" session)

def rotateUserSessionRefresh (userID : ℤ) (presentedHash nextHash : String) (now graceSeconds : ℤ) :
    SessionProg SessionResult := do
  if userID ≤ 0 ∨ presentedHash = "" ∨ nextHash = "" ∨ presentedHash = nextHash then
    return .error errUserSessionInvalid
  else
    let clock ← SessionProg.now
    let now := if now ≤ 0 then unix clock else now
    if graceSeconds < 0 then return .error errUserSessionInvalid
    else rotateRounds cacheTTL userID presentedHash nextHash now graceSeconds 3

/-- The transaction of a revocation, after its fence; it returns the row that it has read again and
revoked. -/
def revokeTx (selects : UserSession → Bool) (now : ℤ) (reason : String) :
    SessionProg (Except String (Option UserSession)) := do
  match ← SessionProg.first with
  | .error e => return .error e
  | .ok row =>
    match row.filter selects with
    | none => return .ok none
    | some current =>
      match ← SessionProg.revoke (·.status = .active) now reason with
      | .error e => return .error e
      | .ok affected => return .ok (if affected then some current else none)

def revokeUserSession (userID : ℤ) (reason : String) : SessionProg SessionResult := do
  if userID ≤ 0 then return .error errUserSessionInvalid
  else
    let clock ← SessionProg.now
    let now := unix clock
    match ← SessionProg.first with
    | .error e => return .error e
    | .ok row =>
      match row.filter (·.userID = userID) with
      | none => return .revoked false
      | some candidate =>
        if !candidate.activeAt now then return .revoked false
        else
          match ← writeUserSessionDenyFence cacheTTL candidate .revoking now reason with
          | .error e => return .error e
          | .ok () =>
            match ← revokeTx (fun current => current.userID = userID && current.activeAt now) now
                reason with
            | .error e => return .error e
            | .ok none => return .revoked false
            | .ok (some _) =>
              let _ ← finalizeRevoke cacheTTL candidate now reason
              return .revoked true

/-- The secret behind a logout is the current one, or the previous one in its grace window. -/
def holdsRefreshHash (session : UserSession) (presentedHash : String) (now : ℤ) : Bool :=
  session.refreshHash = presentedHash ||
    session.previousRefreshHash ≠ "" && now ≤ session.previousValidUntil &&
      session.previousRefreshHash = presentedHash

def revokeUserSessionByRefreshHash (presentedHash reason : String) :
    SessionProg SessionResult := do
  if presentedHash = "" then return .error errUserSessionInvalid
  else
    let clock ← SessionProg.now
    let now := unix clock
    match ← SessionProg.first with
    | .error e => return .error e
    | .ok none => return .revoked false
    | .ok (some session) =>
      if !session.activeAt now then return .revoked false
      else if !holdsRefreshHash session presentedHash now then return .revoked false
      else
        match ← writeUserSessionDenyFence cacheTTL session .revoking now reason with
        | .error e => return .error e
        | .ok () =>
          match ← SessionProg.revoke (·.status = .active) now reason with
          | .error e => return .error e
          | .ok false => return .revoked false
          | .ok true =>
            let _ ← finalizeRevoke cacheTTL session now reason
            return .revoked true

/-- The rounds of `revokeUserSessions`; each one says whether this session is in its batch. -/
def revokeRounds (userID now : ℤ) (reason : String) : List Bool → ℕ → SessionProg SessionResult
  | [], total => return .totalAffected total none
  | inBatch :: rounds, total => do
    match ← SessionProg.first with
    | .error e => return .totalAffected total (some e)
    | .ok row =>
      let selects : UserSession → Bool := fun session =>
        inBatch && session.userID = userID && session.status = .active && now < session.expiresAt
      match row.filter selects with
      | none => revokeRounds userID now reason rounds total
      | some candidate =>
        match ← writeUserSessionDenyFence cacheTTL candidate .revoking now reason with
        | .error e => return .totalAffected total (some e)
        | .ok () =>
          match ← revokeTx (·.status = .active) now reason with
          | .error e => return .totalAffected total (some e)
          | .ok none => revokeRounds userID now reason rounds total
          | .ok (some revoked) =>
            let _ ← finalizeRevoke cacheTTL revoked now reason
            revokeRounds userID now reason rounds (total + 1)

def revokeUserSessions (userID : ℤ) (reason : String) (rounds : List Bool) :
    SessionProg SessionResult := do
  if userID ≤ 0 then return .totalAffected 0 (some errUserSessionInvalid)
  else
    let clock ← SessionProg.now
    revokeRounds cacheTTL userID (unix clock) reason rounds 0

end Functions

inductive SessionCall
  | create (session : UserSession)
  | get
  | rotate (userID : ℤ) (presentedHash nextHash : String) (now graceSeconds : ℤ)
  | revoke (userID : ℤ) (reason : String)
  | revokeByRefreshHash (presentedHash reason : String)
  | revokeAll (userID : ℤ) (reason : String) (rounds : List Bool)

def SessionCall.program (cacheTTL : ℤ) : SessionCall → SessionProg SessionResult
  | .create session => createUserSession cacheTTL session
  | .get => getUserSessionCached cacheTTL
  | .rotate userID presentedHash nextHash now graceSeconds =>
    rotateUserSessionRefresh cacheTTL userID presentedHash nextHash now graceSeconds
  | .revoke userID reason => revokeUserSession cacheTTL userID reason
  | .revokeByRefreshHash presentedHash reason =>
    revokeUserSessionByRefreshHash cacheTTL presentedHash reason
  | .revokeAll userID reason rounds => revokeUserSessions cacheTTL userID reason rounds

/-- The calls run side by side while time passes, in nanoseconds. -/
def sessionMachine (cacheTTL : ℤ) :
    Machine SessionOp SessionOp.Res SessionStore Outcome ℕ SessionCall SessionResult where
  exec := SessionStore.exec
  env store time := { store with clock := store.clock + time }
  program := SessionCall.program cacheTTL

end BeeApi.Sessions
