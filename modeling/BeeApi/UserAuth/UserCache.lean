import BeeApi.Lib.Interleaving

/-!
# The cache of users

`user_auth_cache.go` and the part of `user_cache.go` that reads and fills the cache, for one user, as
programs over the statements of the database and the commands of Redis.  A bump of the auth version
writes a fence, commits and publishes; readers compare what they have read with the fence and the
published version.  The clock counts milliseconds, a key of Redis is alive up to and with its
millisecond.
-/

namespace BeeApi.UserAuth

open Interleaving Transaction

/-! ## The store -/

/-- The columns of `User` that are cached, `UserBase`. -/
structure UserBase where
  group : String := "default"
  email : String := ""
  quota : ℤ := 0
  status : ℤ := 1
  role : ℤ := 1
  username : String := ""
  setting : String := ""
  rpmLimit : ℤ := 0
  expiresAt : ℤ := 0
  authVersion : ℤ := 1
deriving DecidableEq

/-- `userAuthFenceTTLSeconds`, of `userCacheTTLSeconds`. -/
def userAuthFenceTTLSeconds (cacheTTL : ℤ) : ℤ :=
  cacheTTL + if cacheTTL < 60 then 60 else cacheTTL

/-- The row of the user and the three keys in Redis, with the millisecond they expire.  `rows` are the
committed rows, the newest last, and `fences` the fences that have been written, with their time. -/
structure UserStore where
  clock : ℤ
  row : UserBase
  cache : Option (UserBase × ℤ) := none
  fence : Option (ℤ × ℤ) := none
  version : Option ℤ := none
  rows : List UserBase := [row]
  fences : List (ℤ × ℤ) := []

namespace UserStore

/-- What a command of Redis finds under a key with a time. -/
def live {α : Type} (store : UserStore) (key : Option (α × ℤ)) : Option α :=
  match key with
  | none => none
  | some (value, expires) => if store.clock ≤ expires then some value else none

/-- `tonumber(redis.call('GET', ..) or '0')` of the fence and of the published version. -/
def pending (store : UserStore) : ℤ := (store.live store.fence).getD 0

def committed (store : UserStore) : ℤ := store.version.getD 0

/-- What both scripts do with a version from the database. -/
def settle (store : UserStore) (incoming : ℤ) : UserStore :=
  { store with
    version := if store.committed < incoming then some incoming else store.version
    fence := if 0 < store.pending ∧ store.pending ≤ incoming then none else store.fence }

/-- The script of `writeUserAuthCache`. -/
def writeCache (cacheTTL : ℤ) (store : UserStore) (user : UserBase) : UserStore × Bool :=
  let current := ((store.live store.cache).map UserBase.authVersion).getD 0
  if user.authVersion < store.pending ∨ user.authVersion < store.committed ∨
      user.authVersion < current then
    (store, false)
  else
    ({ store.settle user.authVersion with cache := some (user, store.clock + cacheTTL * 1000) }, true)

/-- The script of `SetUserAuthVersionFence`; the key always has a time. -/
def setFence (cacheTTL : ℤ) (store : UserStore) (incoming : ℤ) : UserStore :=
  let expires := store.clock + userAuthFenceTTLSeconds cacheTTL * 1000
  if store.pending ≤ incoming then
    { store with
      fence := some (incoming, expires)
      fences := store.fences ++ [(incoming, expires)] }
  else store

/-- The commit of a transaction that has read the row at a version. -/
def commit (store : UserStore) (columns : UserBase → UserBase) (expected next : ℤ) :
    UserStore × Bool :=
  if store.row.authVersion = expected then
    let row := { columns store.row with authVersion := next }
    ({ store with row, rows := store.rows ++ [row] }, true)
  else (store, false)

end UserStore

/-- The statements of the database and the commands of Redis. -/
inductive UserOp
  | first
  | quota
  /-- `requireBatchUpdateEntityActive`. -/
  | active
  | commit (columns : UserBase → UserBase) (expected next : ℤ)
  | hGetAll
  | mGet
  | writeCache (user : UserBase)
  | setFence (incoming : ℤ)
  | publish (incoming : ℤ)
  | del
  /-- What a refill was started with. -/
  | old (i : ℕ)

def UserOp.Res : UserOp → Type
  | .first => Except String UserBase
  | .quota => Except String ℤ
  | .active | .setFence _ | .publish _ | .del => Except String Unit
  | .commit .. | .writeCache _ => Except String Bool
  | .hGetAll => Except String (Option UserBase)
  | .mGet => Except String (Option ℤ × Option ℤ)
  | .old _ => Option UserBase

/-- A statement or a command ends as its outcome says. -/
def UserStore.exec (cacheTTL : ℤ) (store : UserStore) (o : Outcome) :
    (op : UserOp) → UserStore × op.Res
  | .first => withOutcome o store (.ok (store, store.row))
  | .quota => withOutcome o store (.ok (store, store.row.quota))
  | .active => withOutcome o store (.ok (store, ()))
  | .commit columns expected next =>
    withOutcome o store (.ok (store.commit columns expected next))
  | .hGetAll => withOutcome o store (.ok (store, store.live store.cache))
  | .mGet => withOutcome o store (.ok (store, store.live store.fence, store.version))
  | .writeCache user => withOutcome o store (.ok (store.writeCache cacheTTL user))
  | .setFence incoming => withOutcome o store (.ok (store.setFence cacheTTL incoming, ()))
  | .publish incoming => withOutcome o store (.ok (store.settle incoming, ()))
  | .del => withOutcome o store (.ok ({ store with cache := none }, ()))
  | .old i => (store, store.rows[i]?)

abbrev UserProg (α : Type) := Prog UserOp UserOp.Res α

namespace UserProg

def first : UserProg (Except String UserBase) := Prog.call UserOp.first

def quota : UserProg (Except String ℤ) := Prog.call UserOp.quota

def active : UserProg (Except String Unit) := Prog.call UserOp.active

def commit (columns : UserBase → UserBase) (expected next : ℤ) : UserProg (Except String Bool) :=
  Prog.call (UserOp.commit columns expected next)

def hGetAll : UserProg (Except String (Option UserBase)) := Prog.call UserOp.hGetAll

def mGet : UserProg (Except String (Option ℤ × Option ℤ)) := Prog.call UserOp.mGet

def writeCache (user : UserBase) : UserProg (Except String Bool) :=
  Prog.call (UserOp.writeCache user)

def setFence (incoming : ℤ) : UserProg (Except String Unit) := Prog.call (UserOp.setFence incoming)

def publish (incoming : ℤ) : UserProg (Except String Unit) := Prog.call (UserOp.publish incoming)

def del : UserProg (Except String Unit) := Prog.call UserOp.del

def old (i : ℕ) : UserProg (Option UserBase) := Prog.call (UserOp.old i)

end UserProg

/-! ## The functions -/

def errUserAuthCachePending : String := "user authentication state update is pending"

def errUserAuthVersionConflict : String := "user authentication version update conflicted"

def errInvalidUserAuthVersion : String := "invalid user auth version"

def errInvalidUserAuthFence : String := "invalid user auth fence"

def errInvalidCommittedUserAuthVersion : String := "invalid committed user auth version"

def errUserCacheSchemaStale : String := "user cache schema is stale"

/-- What a call returns; a bump comes with the version that it has committed. -/
inductive UserResult
  | got (user : UserBase)
  | bumped (next : ℤ) (error : Option String)
  | published (error : Option String)
  | error (error : String)
deriving DecidableEq

def writeUserAuthCache (user : UserBase) : UserProg (Except String Unit) :=
  if user.authVersion ≤ 0 then return .error errInvalidUserAuthVersion
  else do
    match ← UserProg.writeCache user with
    | .error e => return .error e
    | .ok false => return .error errUserAuthCachePending
    | .ok true => return .ok ()

/-- The greater one of the fence and the published version. -/
def getUserAuthVersionFloor : UserProg (Except String ℤ) := do
  match ← UserProg.mGet with
  | .error e => return .error e
  | .ok (fence, version) => return .ok (max (max 0 (fence.getD 0)) (version.getD 0))

def setUserAuthVersionFence (authVersion : ℤ) : UserProg (Except String Unit) :=
  if authVersion ≤ 0 then return .error errInvalidUserAuthFence else UserProg.setFence authVersion

def publishCommittedUserAuthVersion (authVersion : ℤ) : UserProg (Except String Unit) :=
  if authVersion ≤ 0 then return .error errInvalidCommittedUserAuthVersion
  else UserProg.publish authVersion

/-- The barrier of `writeCacheWithBatchDeleteBarrier`. -/
def requireActiveOrInvalidate : UserProg (Except String Unit) := do
  match ← UserProg.active with
  | .ok () => return .ok ()
  | .error e =>
    match ← UserProg.del with
    | .error e' => return .error (e ++ "; additionally failed to invalidate cache: " ++ e')
    | .ok () => return .error e

def updateUserCache (user : UserBase) : UserProg (Except String Unit) := do
  match ← requireActiveOrInvalidate with
  | .error e => return .error e
  | .ok () =>
    match ← writeUserAuthCache user with
    | .error e => return .error e
    | .ok () => requireActiveOrInvalidate

def publishUserAuthCache : UserProg (Except String Unit) := do
  match ← UserProg.first with
  | .error e => return .error e
  | .ok user =>
    match ← publishCommittedUserAuthVersion user.authVersion with
    | .error e => return .error e
    | .ok () => updateUserCache user

/-- The rounds of `IncrementUserAuthVersionWithTx`; the transaction that holds them ends with the
update that succeeds. -/
def incrementUserAuthVersionWithTx (columns : UserBase → UserBase) :
    ℕ → UserProg (Except String ℤ)
  | 0 => return .error errUserAuthVersionConflict
  | rounds + 1 => do
    match ← UserProg.first with
    | .error e => return .error e
    | .ok user =>
      let current := if user.authVersion < 1 then 1 else user.authVersion
      let next := current + 1
      match ← setUserAuthVersionFence next with
      | .error e => return .error e
      | .ok () =>
        match ← UserProg.commit columns user.authVersion next with
        | .error e => return .error e
        | .ok true => return .ok next
        | .ok false => incrementUserAuthVersionWithTx columns rounds

/-- A bump in a transaction that also writes other columns, and its publication. -/
def bumpWithColumns (columns : UserBase → UserBase) : UserProg UserResult := do
  match ← incrementUserAuthVersionWithTx columns 3 with
  | .error e => return .error e
  | .ok next =>
    match ← publishUserAuthCache with
    | .error e => return .bumped next (some e)
    | .ok () => return .bumped next none

def bumpUserAuthVersion : UserProg UserResult := bumpWithColumns id

def updateUserRoleStatusAndBumpAuthVersion (role status : ℤ) : UserProg UserResult :=
  bumpWithColumns fun user => { user with role, status }

def cacheGetUserBase : UserProg (Except String UserBase) := do
  match ← UserProg.hGetAll with
  | .error e => return .error e
  | .ok none => return .error "key not found in Redis"
  | .ok (some userCache) =>
    if userCache.authVersion ≤ 0 then return .error errUserCacheSchemaStale
    else
      match ← getUserAuthVersionFloor with
      | .error e => return .error e
      | .ok floor =>
        if userCache.authVersion < floor then return .error errUserAuthCachePending
        else return .ok userCache

def getUserCache : UserProg UserResult := do
  match ← cacheGetUserBase with
  | .ok userCache =>
    match ← UserProg.quota with
    | .error e => return .error e
    | .ok quota => return .got { userCache with quota }
  | .error _ =>
    match ← UserProg.first with
    | .error e => return .error e
    | .ok user =>
      match ← getUserAuthVersionFloor with
      | .error _ => return .got user
      | .ok floor =>
        if user.authVersion < floor then return .error errUserAuthCachePending else return .got user

/-- The refill of a reader, with the row that it had read. -/
def userCacheRefill (i : ℕ) : UserProg UserResult := do
  match ← UserProg.old i with
  | none => return .error "no row"
  | some user =>
    match ← updateUserCache user with
    | .error e => return .published (some e)
    | .ok () => return .published none

inductive UserCall
  | bump
  | updateRoleStatus (role status : ℤ)
  | publish
  | get
  | refill (i : ℕ)

def UserCall.program : UserCall → UserProg UserResult
  | .bump => bumpUserAuthVersion
  | .updateRoleStatus role status => updateUserRoleStatusAndBumpAuthVersion role status
  | .publish => do
    match ← publishUserAuthCache with
    | .error e => return .published (some e)
    | .ok () => return .published none
  | .get => getUserCache
  | .refill i => userCacheRefill i

/-- The calls run side by side while time passes, in milliseconds. -/
def userMachine (cacheTTL : ℤ) :
    Machine UserOp UserOp.Res UserStore Outcome ℕ UserCall UserResult where
  exec := UserStore.exec cacheTTL
  env store time := { store with clock := store.clock + time }
  program := UserCall.program

end BeeApi.UserAuth
