import BeeApi.Lib.Run

/-!
# Two factor settings and backup codes

The setting of one user and its backup codes, and the clients that work on them.  An attempt reads the
setting once, checks codes against this copy and later saves all of it; a save of a setting that is gone
inserts it again.  Times are in nanoseconds.
-/

namespace BeeApi.TwoFactor

/-- `strings.ToUpper`, `totp.Validate` at a time, and the comparison of a password with its hash. -/
structure Env where
  toUpper : String → String
  validate : (passcode secret : String) → ℤ → Bool
  validatePasswordAndHash : (password hash : String) → Bool

def maxFailAttempts : ℕ := 5

def lockoutDuration : ℤ := 300 * 1000000000

/-- `strings.ReplaceAll(s, c, "")`. -/
def remove (c : Char) (s : String) : String := String.ofList (s.toList.filter (· ≠ c))

def validateTOTPCode (env : Env) (secret code : String) (now : ℤ) : Bool :=
  let cleanCode := remove ' ' code
  cleanCode.utf8ByteSize = 6 && env.validate cleanCode secret now

/-- `common.ValidateBackupCode`, which looks at the format only. -/
def validBackupCodeFormat (env : Env) (code : String) : Bool :=
  let cleanCode := env.toUpper (remove '-' code)
  cleanCode.utf8ByteSize = 8 &&
    cleanCode.toList.all fun c => ('A' ≤ c && c ≤ 'Z') || ('0' ≤ c && c ≤ '9')

/-- For codes of the right format, whose characters are bytes. -/
def normalizeBackupCode (env : Env) (code : String) : String :=
  let cleanCode := env.toUpper (remove '-' code)
  if cleanCode.utf8ByteSize = 8 then
    String.ofList (cleanCode.toList.take 4 ++ '-' :: cleanCode.toList.drop 4)
  else code

structure TwoFA where
  id : ℕ
  userId : ℕ
  secret : String
  isEnabled : Bool := false
  failedAttempts : ℕ := 0
  lockedUntil : Option ℤ := none
  lastUsedAt : Option ℤ := none

structure TwoFABackupCode where
  id : ℕ
  codeHash : String
  isUsed : Bool := false
  usedAt : Option ℤ := none
  deletedAt : Option ℤ := none

namespace TwoFA

def isLocked (t : TwoFA) (now : ℤ) : Bool :=
  match t.lockedUntil with
  | none => false
  | some until' => now < until'

def incrementFailedAttempts (t : TwoFA) (now : ℤ) : TwoFA :=
  { t with
    failedAttempts := t.failedAttempts + 1
    lockedUntil :=
      if maxFailAttempts ≤ t.failedAttempts + 1 then some (now + lockoutDuration)
      else t.lockedUntil }

/-- What is saved behind a valid code. -/
def updateUsage (t : TwoFA) (now : ℤ) : TwoFA :=
  { t with failedAttempts := 0, lockedUntil := none, lastUsedAt := some now }

def enable (t : TwoFA) : TwoFA := { t with isEnabled := true, failedAttempts := 0, lockedUntil := none }

end TwoFA

def TwoFABackupCode.unused (bc : TwoFABackupCode) : Bool := !bc.isUsed && bc.deletedAt.isNone

/-- A client's copy of the setting, and how often it had been written when it was read, the client's own
writes included. -/
structure Copy where
  twoFA : TwoFA
  version : ℕ

/-- Where a client stands between two statements, with its copy of the setting. -/
inductive Client
  | holds (c : Copy)
  /-- A backup code was found and is to be marked as used. -/
  | claiming (c : Copy) (codeId : ℕ)
  /-- A code was checked, and the setting is to be saved as `t`. -/
  | saving (c : Copy) (t : TwoFA) (valid : Bool)
  /-- The update of the save has found no row. -/
  | inserting (c : Copy) (t : TwoFA) (valid : Bool)
  /-- `DisableTwoFA` has read the setting. -/
  | disabling (c : Copy)

def Client.copy : Client → Copy
  | holds c | claiming c _ | saving c _ _ | inserting c _ _ | disabling c => c

/-- A wrong code was checked and is not counted in the row yet. -/
def Client.unsavedFailure : Client → Bool
  | saving _ _ false => true
  | inserting _ _ false => true
  | _ => false

/-- What happened, for the statements about runs. -/
structure History where
  /-- The backup codes that were accepted. -/
  accepted : List ℕ := []
  /-- The wrong codes that were checked since the last success or expired lock; `none` from a lock on. -/
  window : Option ℕ := some 0
  /-- How often the row was written or deleted. -/
  writes : ℕ := 0
  /-- `DisableTwoFA` has deleted the setting. -/
  deleted : Bool := false
  /-- `Enable` has enabled the setting, and `DisableTwoFA` has not deleted it. -/
  switchedOn : Bool := false

/-- The rows of the user, and the clients. -/
structure State where
  row : Option TwoFA
  codes : List TwoFABackupCode := []
  nextCodeId : ℕ := 0
  now : ℤ := 0
  clients : List Client := []
  history : History := {}

/-- A statement of a client, or time that passes. -/
inductive Action
  /-- `GetTwoFAByUserId` for an attempt, for `Enable` and for `DisableTwoFA`. -/
  | getTwoFAByUserId (disable : Bool)
  | validateTOTPAndUpdateUsage (client : ℕ) (code : String)
  /-- `ValidateBackupCodeAndUpdateUsage` up to the query for the unused codes. -/
  | validateBackupCodeAndUpdateUsage (client : ℕ) (code : String)
  /-- The conditional update of `ValidateBackupCode`. -/
  | useBackupCode (client : ℕ)
  /-- The two statements of `DB.Save`. -/
  | save (client : ℕ)
  | insert (client : ℕ)
  | disableTwoFA (client : ℕ)
  | enable (client : ℕ)
  | createBackupCodes (hashes : List String)
  | wait (d : ℕ)

namespace State

def setClient (s : State) (i : ℕ) (c : Client) : State := { s with clients := s.clients.set i c }

/-- A code was checked against the copy, which counts it or starts again. -/
def checked (s : State) (i : ℕ) (c : Copy) (valid : Bool) : State :=
  { s with
    clients := s.clients.set i (.saving c
      (if valid then c.twoFA.updateUsage s.now else c.twoFA.incrementFailedAttempts s.now) valid)
    history := { s.history with window := if valid then some 0 else s.history.window.map (· + 1) } }

/-- The first unused code that matches. -/
def findCode (env : Env) (s : State) (code : String) : Option TwoFABackupCode :=
  (s.codes.filter (·.unused)).find? fun bc =>
    env.validatePasswordAndHash (normalizeBackupCode env code) bc.codeHash

/-- The update of the code affects one row. -/
def claimable (s : State) (codeId : ℕ) : Bool :=
  s.codes.countP (fun bc => bc.id = codeId && bc.unused) = 1

def useCode (s : State) (codeId : ℕ) : State :=
  { s with
    codes := s.codes.map fun bc =>
      if bc.id = codeId && bc.unused then { bc with isUsed := true, usedAt := some s.now } else bc
    history := { s.history with
      accepted := s.history.accepted ++ if s.claimable codeId then [codeId] else [] } }

/-- All columns of the row are written.  From a lock on there is no window; a lock that the attempt has
set and that has expired by now opens a new one. -/
def stored (s : State) (i : ℕ) (c : Copy) (t : TwoFA) : State :=
  { s with
    row := some t
    clients := s.clients.set i (.holds { twoFA := t, version := s.history.writes + 1 })
    history := { s.history with
      writes := s.history.writes + 1
      window := if t.isLocked s.now then none
        else if t.lockedUntil.isSome && t.lockedUntil ≠ c.twoFA.lockedUntil then some 0
        else s.history.window } }

/-- A lock of the row expires within the time. -/
def expires (s : State) (d : ℕ) : Bool :=
  s.row.any fun r => r.isLocked s.now && !r.isLocked (s.now + d)

end State

def step (env : Env) (s : State) : Action → Option State
  | .getTwoFAByUserId disable =>
    match s.row with
    | some t =>
      let c : Copy := { twoFA := t, version := s.history.writes }
      some { s with clients := s.clients ++ [if disable then .disabling c else .holds c] }
    | none => some s
  | .validateTOTPAndUpdateUsage i code =>
    match s.clients[i]? with
    | some (.holds c) =>
      if c.twoFA.isLocked s.now then some s
      else some (s.checked i c (validateTOTPCode env c.twoFA.secret code s.now))
    | _ => none
  | .validateBackupCodeAndUpdateUsage i code =>
    match s.clients[i]? with
    | some (.holds c) =>
      if c.twoFA.isLocked s.now || !validBackupCodeFormat env code then some s
      else
        match s.findCode env code with
        | some bc => some (s.setClient i (.claiming c bc.id))
        | none => some (s.checked i c false)
    | _ => none
  | .useBackupCode i =>
    match s.clients[i]? with
    | some (.claiming c codeId) => some ((s.useCode codeId).checked i c (s.claimable codeId))
    | _ => none
  | .save i =>
    match s.clients[i]? with
    | some (.saving c t valid) =>
      if s.row.any (·.id = t.id) then some (s.stored i c t)
      else some (s.setClient i (.inserting c t valid))
    | _ => none
  | .insert i =>
    match s.clients[i]? with
    | some (.inserting c t _) => some (s.stored i c t)
    | _ => none
  | .disableTwoFA i =>
    match s.clients[i]? with
    | some (.disabling c) =>
      let affected := s.row.any (·.id = c.twoFA.id)
      some { s with
        row := if affected then none else s.row
        codes := []
        clients := s.clients.set i (.holds c)
        history := if affected then
            { s.history with
              writes := s.history.writes + 1
              deleted := true
              switchedOn := false }
          else s.history }
    | _ => none
  | .enable i =>
    match s.clients[i]? with
    | some (.holds c) =>
      if s.row.any (·.id = c.twoFA.id) then
        some { s with
          row := s.row.map TwoFA.enable
          clients := s.clients.set i
            (.holds { twoFA := c.twoFA.enable, version := c.version + 1 })
          history := { s.history with
            writes := s.history.writes + 1
            switchedOn := true } }
      else some (s.setClient i (.holds { c with twoFA := c.twoFA.enable }))
    | _ => none
  | .createBackupCodes hashes =>
    some { s with
      codes := (s.codes.map fun bc => { bc with deletedAt := bc.deletedAt.or (some s.now) }) ++
        hashes.mapIdx fun i hash => { id := s.nextCodeId + i, codeHash := hash }
      nextCodeId := s.nextCodeId + hashes.length }
  | .wait d =>
    some { s with
      now := s.now + d
      history := { s.history with
        window := if s.expires d then some 0 else s.history.window } }

/-- Before any client: a setting or none, and some codes. -/
def start (row : Option TwoFA) (codes : List TwoFABackupCode) (now : ℤ) : State where
  row := row
  codes := codes
  nextCodeId := (codes.map (·.id)).foldr max 0 + 1
  now := now
  history := { window := if row.any (·.isLocked now) then none else some 0 }

end BeeApi.TwoFactor
