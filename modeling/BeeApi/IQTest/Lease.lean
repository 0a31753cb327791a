import BeeApi.Lib.Run
import BeeApi.Lib.Table

/-!
# The lease of the IQ scheduler

`ClaimIQTestLease`, `RenewIQTestLease`, `ReleaseIQTestLease` and the lease statements of the transaction of
`EnforceIQTestRun`, on the one row of the table.  Every statement and every reading of the clock is a step
of its own.  A row that a transaction has written is locked until it ends: an update that matches it waits,
and a read sees the row as it was committed.
-/

namespace BeeApi.IQTest

structure IQTestLease where
  ownerID : String := ""
  expiresAt : ℤ := 0

/-- Addition of Go's `int64`. -/
def addInt64 (a b : ℤ) : ℤ := Int.bmod (a + b) (2 ^ 64)

def iqLeaseSeconds : ℤ := 60

def expiredBy (now : ℤ) (r : IQTestLease) : Bool := r.expiresAt ≤ now

def ownedBy (owner : String) (r : IQTestLease) : Bool := r.ownerID = owner

def heldBy (owner : String) (now : ℤ) (r : IQTestLease) : Bool := r.ownerID = owner && now < r.expiresAt

inductive EnforcePhase
  /-- The time of the check has been taken. -/
  | begun (now : ℤ)
  /-- The check has found the row. -/
  | verified
  /-- The time of the renewal has been taken. -/
  | renewing (now : ℤ)
  /-- The row has been written, if it still named the owner. -/
  | renewed
  /-- The channel has been changed. -/
  | updated

inductive LeaseCall
  | claim (owner : String) (ttl now : ℤ) (created : Bool)
  | renew (owner : String) (ttl now : ℤ) (verified : Bool)
  | enforce (owner : String) (phase : EnforcePhase)

/-- The row, the transaction that holds it with the row it has written, the calls under way, and the
owner of the last claim that succeeded. -/
structure LeaseSystem where
  clock : ℤ := 0
  lease : Option IQTestLease := none
  locked : Option (ℕ × IQTestLease) := none
  calls : Table ℕ LeaseCall := ∅
  claimedBy : Option String := none

inductive LeaseAction
  | tick (seconds : ℕ)
  | startClaim (call : ℕ) (owner : String) (ttl : ℤ)
  | createLease (call : ℕ)
  | claimUpdate (call : ℕ)
  | startRenew (call : ℕ) (owner : String) (ttl : ℤ)
  | renewFirst (call : ℕ)
  | renewUpdate (call : ℕ)
  | release (owner : String)
  | startEnforce (call : ℕ) (owner : String)
  | enforceFirst (call : ℕ)
  | enforceNow (call : ℕ)
  | enforceRenew (call : ℕ)
  | updateChannel (call : ℕ)
  | commit (call : ℕ)
  /-- A statement fails, or the call is cancelled; a transaction is rolled back. -/
  | fail (call : ℕ)

namespace LeaseSystem

def start (s : LeaseSystem) (call : ℕ) (c : LeaseCall) : Option LeaseSystem :=
  if (s.calls.get? call).isSome then none else some { s with calls := s.calls.put call c }

def goOn (s : LeaseSystem) (call : ℕ) (c : LeaseCall) : LeaseSystem :=
  { s with calls := s.calls.put call c }

def finish (s : LeaseSystem) (call : ℕ) : LeaseSystem := { s with calls := s.calls.erase call }

/-- An update of the matching row in a transaction of its own; it waits for the lock. -/
def updateWhere (s : LeaseSystem) (p : IQTestLease → Bool) (f : IQTestLease → IQTestLease) :
    Option LeaseSystem :=
  if s.locked.isSome && s.lease.any p then none
  else some { s with lease := s.lease.map fun r => if p r then f r else r }

def claimUpdate (s : LeaseSystem) (owner : String) (ttl now : ℤ) : Option LeaseSystem :=
  (s.updateWhere (expiredBy now) fun _ => { ownerID := owner, expiresAt := addInt64 now ttl }).map
    fun s' => if s.lease.any (expiredBy now) then { s' with claimedBy := some owner } else s'

def renewUpdate (s : LeaseSystem) (owner : String) (ttl now : ℤ) : Option LeaseSystem :=
  s.updateWhere (ownedBy owner) fun r => { r with expiresAt := addInt64 now ttl }

def releaseIQTestLease (s : LeaseSystem) (owner : String) : Option LeaseSystem :=
  s.updateWhere (ownedBy owner) fun _ => { ownerID := "", expiresAt := 0 }

/-- The renewal inside a transaction: the row it has written is locked and not yet visible. -/
def enforceRenew (s : LeaseSystem) (call : ℕ) (owner : String) (now : ℤ) : Option LeaseSystem :=
  match s.lease.filter (ownedBy owner) with
  | none => some s
  | some r =>
    if s.locked.isSome then none
    else some { s with locked := some (call, { r with expiresAt := addInt64 now iqLeaseSeconds }) }

/-- The end of a transaction releases its lock; a commit makes its row visible. -/
def unlock (s : LeaseSystem) (call : ℕ) (commit : Bool) : LeaseSystem :=
  match s.locked with
  | some (holder, r) =>
    if holder = call then
      { s with locked := none, lease := if commit then some r else s.lease }
    else s
  | none => s

def step (s : LeaseSystem) : LeaseAction → Option LeaseSystem
  | .tick seconds => some { s with clock := s.clock + seconds }
  | .startClaim call owner ttl =>
    if owner = "" ∨ ttl ≤ 0 then some s else s.start call (.claim owner ttl s.clock false)
  | .createLease call =>
    match s.calls.get? call with
    | some (.claim owner ttl now false) =>
      some ({ s with lease := some (s.lease.getD {}) }.goOn call (.claim owner ttl now true))
    | _ => none
  | .claimUpdate call =>
    match s.calls.get? call with
    | some (.claim owner ttl now true) => (s.claimUpdate owner ttl now).map (·.finish call)
    | _ => none
  | .startRenew call owner ttl =>
    if owner = "" ∨ ttl ≤ 0 then some s else s.start call (.renew owner ttl s.clock false)
  | .renewFirst call =>
    match s.calls.get? call with
    | some (.renew owner ttl now false) =>
      if s.lease.any (heldBy owner now) then some (s.goOn call (.renew owner ttl now true))
      else some (s.finish call)
    | _ => none
  | .renewUpdate call =>
    match s.calls.get? call with
    | some (.renew owner ttl now true) => (s.renewUpdate owner ttl now).map (·.finish call)
    | _ => none
  | .release owner => s.releaseIQTestLease owner
  | .startEnforce call owner => s.start call (.enforce owner (.begun s.clock))
  | .enforceFirst call =>
    match s.calls.get? call with
    | some (.enforce owner (.begun now)) =>
      if s.lease.any (heldBy owner now) then some (s.goOn call (.enforce owner .verified))
      else some (s.finish call)
    | _ => none
  | .enforceNow call =>
    match s.calls.get? call with
    | some (.enforce owner .verified) => some (s.goOn call (.enforce owner (.renewing s.clock)))
    | _ => none
  | .enforceRenew call =>
    match s.calls.get? call with
    | some (.enforce owner (.renewing now)) =>
      (s.enforceRenew call owner now).map (·.goOn call (.enforce owner .renewed))
    | _ => none
  | .updateChannel call =>
    match s.calls.get? call with
    | some (.enforce owner .renewed) => some (s.goOn call (.enforce owner .updated))
    | _ => none
  | .commit call =>
    match s.calls.get? call with
    | some (.enforce _ .renewed) => some ((s.unlock call true).finish call)
    | some (.enforce _ .updated) => some ((s.unlock call true).finish call)
    | _ => none
  | .fail call =>
    if (s.calls.get? call).isSome then some ((s.unlock call false).finish call) else none

/-- The owner whose `ClaimIQTestLease` or `RenewIQTestLease` returns true with this statement: a claim
by the rows its update affects, a renewal whatever its update does. -/
def returnsTrue (s : LeaseSystem) : LeaseAction → Option String
  | .claimUpdate call =>
    match s.calls.get? call with
    | some (.claim owner _ now true) => if s.lease.any (expiredBy now) then some owner else none
    | _ => none
  | .renewUpdate call =>
    match s.calls.get? call with
    | some (.renew owner _ _ true) => some owner
    | _ => none
  | _ => none

/-- The owner whose enforcement changes a channel with this statement, or makes the change visible. -/
def changesChannel (s : LeaseSystem) : LeaseAction → Option String
  | .updateChannel call =>
    match s.calls.get? call with
    | some (.enforce owner .renewed) => some owner
    | _ => none
  | .commit call =>
    match s.calls.get? call with
    | some (.enforce owner .updated) => some owner
    | _ => none
  | _ => none

/-- An owner has the lease: the row names it and has not expired. -/
def Holds (s : LeaseSystem) (owner : String) : Prop :=
  ∃ r, s.lease = some r ∧ r.ownerID = owner ∧ s.clock < r.expiresAt

end LeaseSystem

end BeeApi.IQTest
