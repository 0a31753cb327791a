import BeeApi.Lib.Strings

/-!
# Login sessions

The row of `model.UserSession` and the statements that change it.  Timestamps are in seconds.
-/

namespace BeeApi.Sessions

inductive UserSessionStatus
  | active
  | revoking
  | revoked
deriving DecidableEq

/-- `model.UserSession`; its sid is the key of the table. -/
structure UserSession where
  userID : ℤ := 1
  version : ℤ := 1
  userAuthVersion : ℤ := 1
  status : UserSessionStatus := .active
  refreshHash : String := ""
  previousRefreshHash : String := ""
  previousValidUntil : ℤ := 0
  lastActiveAt : ℤ := 0
  expiresAt : ℤ := 0
  revokedAt : ℤ := 0
  revokedReason : String := ""
deriving DecidableEq

def errUserSessionInvalid : String := "user session is invalid"

def errUserSessionInactive : String := "user session is inactive"

def UserSession.activeAt (session : UserSession) (now : ℤ) : Bool :=
  session.status = .active && session.revokedAt = 0 && now < session.expiresAt

/-- The columns of a rotation; `read` is the row as the caller has read it. -/
def rotateColumns (read : UserSession) (nextHash : String) (now graceSeconds : ℤ)
    (session : UserSession) : UserSession :=
  { session with
    previousRefreshHash := read.refreshHash
    previousValidUntil := now + graceSeconds
    refreshHash := nextHash
    lastActiveAt := now }

def revokeColumns (now : ℤ) (reason : String) (session : UserSession) : UserSession :=
  { session with status := .revoked, revokedAt := now, revokedReason := reason }

/-- The update of `RotateUserSessionRefresh` that exchanges the hash. -/
def rotateUpdate (row : Option UserSession) (read : UserSession) (presentedHash nextHash : String)
    (now graceSeconds : ℤ) : Option UserSession :=
  row.map fun session =>
    if session.activeAt now && session.refreshHash = presentedHash then
      rotateColumns read nextHash now graceSeconds session
    else session

def rotateAffects (row : Option UserSession) (presentedHash : String) (now : ℤ) : Bool :=
  row.any fun session => session.activeAt now && session.refreshHash = presentedHash

/-- A revocation of the row, where it is active at `now`. -/
def revokeUpdate (row : Option UserSession) (now : ℤ) (reason : String) : Option UserSession :=
  row.map fun session => if session.activeAt now then revokeColumns now reason session else session

/-- What `RotateUserSessionRefresh` finds the presented hash to be. -/
inductive Presented
  | inactive
  | current
  | unknown
  | race
  | reuse
deriving DecidableEq

def classify (session : UserSession) (presentedHash : String) (now : ℤ) : Presented :=
  if !session.activeAt now then .inactive
  else if session.refreshHash = presentedHash then .current
  else if session.previousRefreshHash = "" ∨ session.previousRefreshHash ≠ presentedHash then .unknown
  else if now ≤ session.previousValidUntil then .race
  else .reuse

end BeeApi.Sessions
