import BeeApi.Model.DeleteLedger
import BeeApi.Wallet.Records

/-!
# Billing sessions on the wallet

The wallet branch of `service/billing_session.go` (not trusted, not playground), the sweeper of
`service/wallet_reservation_sweeper.go`, and the system they form with token edits, soft deletions and
other requests, interleaved in any order.  A call holds the session lock and is one step; the refund job
runs outside the lock and is three.  A transaction may also fail for other reasons (`fault`).
-/

namespace BeeApi.Wallet

open Strings

/-- `BillingSession` with wallet funding; `consumed` is the field of `WalletFunding`. -/
structure BillingSession where
  requestId : String
  userId : ℤ
  tokenId : ℤ
  consumed : ℤ := 0
  preConsumedQuota : ℤ := 0
  tokenConsumed : ℤ := 0
  extraReserved : ℤ := 0
  fundingSettled : Bool := false
  settled : Bool := false
  refunded : Bool := false

/-- A transaction that the driver may lose. -/
def attempt (fault : Bool) (tx : Except String Db) : Except String Db :=
  if fault then .error "driver: bad connection" else tx

namespace BillingSession

/-- `preConsume`.  A quota that is not positive reserves nothing and writes no record. -/
def preConsume (s : BillingSession) (db : Db) (now quota : ℤ) (fault : Bool) :
    Except String (BillingSession × Db) :=
  if 0 < quota then do
    let db ← attempt fault
      (reserveUserTokenQuotaWithRecord db now s.requestId s.userId s.tokenId quota)
    .ok ({ s with consumed := quota, tokenConsumed := quota, preConsumedQuota := quota }, db)
  else .ok ({ s with preConsumedQuota := quota }, db)

/-- `Reserve`: top the reservation up to a target before the request is sent. -/
def reserve (s : BillingSession) (db : Db) (now targetQuota : ℤ) (fault : Bool) :
    BillingSession × Db :=
  if s.settled || s.refunded || decide (targetQuota ≤ s.preConsumedQuota) then (s, db)
  else
    let delta := targetQuota - s.preConsumedQuota
    match attempt fault
        (extendUserTokenReservation db now s.requestId s.userId s.tokenId delta) with
    | .error _ => (s, db)
    | .ok db =>
      ({ s with
          consumed := s.consumed + delta
          preConsumedQuota := s.preConsumedQuota + delta
          tokenConsumed := s.tokenConsumed + delta
          extraReserved := s.extraReserved + delta }, db)

/-- `Settle`.  When the reservation is exact the record is closed without moving money. -/
def settle (s : BillingSession) (db : Db) (now actualQuota : ℤ) (fault : Bool) :
    BillingSession × Db :=
  if s.settled then (s, db)
  else
    let delta := actualQuota - s.preConsumedQuota
    match attempt fault
        (finalizeUserTokenQuota db now s.requestId s.userId s.tokenId delta .settled) with
    | .error _ => (s, db)
    | .ok db =>
      if delta = 0 then ({ s with settled := true }, db)
      else
        ({ s with
            consumed := s.consumed + delta
            tokenConsumed := s.tokenConsumed + delta
            fundingSettled := true
            settled := true }, db)

def needsRefundLocked (s : BillingSession) : Bool :=
  !(s.settled || s.refunded || s.fundingSettled) && decide (0 < s.tokenConsumed)

end BillingSession

/-- How far a `Refund` has come after it released the lock: its job is submitted, has read the
amount, or has failed; or the lifecycle rejected the job. -/
inductive RefundPhase
  | submitted
  | loaded (amount : ℤ)
  | failed
  | rejected
deriving DecidableEq

/-- An asynchronous refund, keyed by its lifecycle ticket. -/
structure RefundJob where
  requestId : String
  phase : RefundPhase
deriving DecidableEq

/-- The whole system.  `settleDelta` is a history variable: the difference the winning settlement
of a request asked for. -/
structure World where
  db : Db
  now : ℤ
  sessions : Table String BillingSession := ∅
  jobs : Table ℤ RefundJob := ∅
  snapshots : List (ℤ × WalletPreConsumeRecord) := []
  settleDelta : String → ℤ := fun _ => 0

/-- What the lifecycle does with the ticket of a refund. -/
inductive TicketOutcome
  | refused
  | submitFailed
  | submitted
deriving DecidableEq

inductive Label
  | tick (seconds : ℕ)
  | preConsume (requestId : String) (userId tokenId quota : ℤ) (fault : Bool)
  | reserve (requestId : String) (targetQuota : ℤ) (fault : Bool)
  | settle (requestId : String) (actualQuota : ℤ) (fault : Bool)
  | refund (requestId : String) (ticket : TicketOutcome)
  | jobLoad (ticket : ℤ)
  | jobRun (ticket : ℤ) (fault : Bool)
  | jobClear (ticket : ℤ)
  | findStale (olderThanSeconds limit : ℤ)
  | sweep (snapshot : ℕ) (fault : Bool)
  | updateToken (id remainQuota : ℤ) (unlimitedQuota : Bool)
  | deleteToken (id userId : ℤ)
  | deleteUser (id : ℤ)
  /-- The token part of a charge or refund outside of the wallet reservations: of a request that a
  subscription pays, of an asynchronous task, of a trusted settlement. -/
  | adjustToken (id userID delta : ℤ) (fault : Bool)

def walletReservationStaleAfter : ℤ := 7200

def walletReservationSweepBatch : ℤ := 200

def statusOf (db : Db) (requestId : String) : Option WalletPreConsumeStatus :=
  (db.walletRecordOf requestId).map fun e => e.2.status

/-- The part of `Refund` under the lock.  `reserveBillingRoot` may refuse the ticket; `Submit` runs
after the lock is released, so that a rejected job leaves the flag set until it is cleared. -/
def refundStep (w : World) (s : BillingSession) (ticket : TicketOutcome) : Option World :=
  if s.needsRefundLocked && decide (ticket ≠ .refused) then
    let phase := if ticket = .submitted then RefundPhase.submitted else .rejected
    (w.jobs.insert? w.jobs.nextKey ⟨s.requestId, phase⟩).map fun jobs =>
      { w with jobs, sessions := w.sessions.put s.requestId { s with refunded := true } }
  else some w

/-- The end of an unsuccessful `Refund`; a rejected job leaves the flag of a settled session. -/
def clearRefunded (phase : RefundPhase) (s : BillingSession) : BillingSession :=
  if phase = .rejected && s.settled then s else { s with refunded := false }

/-- The transaction of a refund job that has read its amount. -/
def jobRunStep (w : World) (ticket : ℤ) (s : BillingSession) (amount : ℤ) (fault : Bool) : World :=
  match attempt fault
      (finalizeUserTokenQuota w.db w.now s.requestId s.userId s.tokenId (-amount) .refunded) with
  | .ok db => { w with db, jobs := w.jobs.erase ticket }
  | .error _ => { w with jobs := w.jobs.modify ticket fun j => { j with phase := .failed } }

/-- One step; `none` when the label is not enabled.  `middleware.RequestId` gives every request an
id of its own, which is never blank. -/
def step (w : World) : Label → Option World
  | .tick seconds => some { w with now := w.now + seconds }
  | .preConsume requestId userId tokenId quota fault =>
    if trimSpace requestId = "" ∨ (w.sessions.get? requestId).isSome then none
    else
      match BillingSession.preConsume { requestId, userId, tokenId } w.db w.now quota fault with
      | .error _ => some w
      | .ok (s, db) => some { w with db, sessions := w.sessions.put requestId s }
  | .reserve requestId targetQuota fault =>
    (w.sessions.get? requestId).map fun s =>
      let (s, db) := s.reserve w.db w.now targetQuota fault
      { w with db, sessions := w.sessions.put requestId s }
  | .settle requestId actualQuota fault =>
    (w.sessions.get? requestId).map fun s =>
      let (s', db) := s.settle w.db w.now actualQuota fault
      let won := statusOf w.db requestId = some .reserved ∧ statusOf db requestId = some .settled
      { w with
        db
        sessions := w.sessions.put requestId s'
        settleDelta :=
          if won then
            Function.update w.settleDelta requestId (actualQuota - s.preConsumedQuota)
          else w.settleDelta }
  | .refund requestId ticket =>
    (w.sessions.get? requestId).bind fun s => refundStep w s ticket
  | .jobLoad ticket =>
    (w.jobs.get? ticket).bind fun job =>
      (w.sessions.get? job.requestId).bind fun s =>
        match job.phase with
        | .submitted =>
          some { w with jobs := w.jobs.modify ticket fun j => { j with phase := .loaded s.consumed } }
        | _ => none
  | .jobRun ticket fault =>
    (w.jobs.get? ticket).bind fun job =>
      (w.sessions.get? job.requestId).bind fun s =>
        match job.phase with
        | .loaded amount => some (jobRunStep w ticket s amount fault)
        | _ => none
  | .jobClear ticket =>
    (w.jobs.get? ticket).bind fun job =>
      if job.phase = .failed ∨ job.phase = .rejected then
        some
          { w with
            jobs := w.jobs.erase ticket
            sessions := w.sessions.modify job.requestId (clearRefunded job.phase) }
      else none
  | .findStale olderThanSeconds limit =>
    some
      { w with
        snapshots := w.snapshots ++
          findStaleReservedWalletPreConsumes w.db w.now olderThanSeconds limit }
  | .sweep snapshot fault =>
    w.snapshots[snapshot]?.map fun record =>
      match attempt fault (refundStaleWalletPreConsume w.db w.now record) with
      | .ok db => { w with db }
      | .error _ => w
  | .updateToken id remainQuota unlimitedQuota =>
    some { w with db := Token.update w.db id remainQuota unlimitedQuota }
  | .deleteToken id userId =>
    match deleteTokenWithLedger w.db w.now id userId with
    | .ok db => some { w with db }
    | .error _ => some w
  | .deleteUser id =>
    match deleteUserWithLedger w.db w.now id false with
    | .ok db => some { w with db }
    | .error _ => some w
  | .adjustToken id userID delta fault =>
    match attempt fault (adjustTokenQuotaTx w.db w.now id userID delta) with
    | .ok db => some { w with db }
    | .error _ => some w

/-- No session has been opened yet. -/
structure Initial (w : World) : Prop where
  records : w.db.walletPreConsumeRecords = ∅
  sessions : w.sessions = ∅
  jobs : w.jobs = ∅
  snapshots : w.snapshots = []

end BeeApi.Wallet
