import BeeApi.Lib.Json
import BeeApi.Lib.Window
import BeeApi.Payment.TopUp
import Mathlib.Data.List.Sort
import Mathlib.Data.Prod.Lex

/-!
# Daily affiliate commissions

The settlement of one day: the log rows of the day are read page by page and summed by user, the inviters
of these users are looked up, and one transaction inserts the records and pays the inviters.  A day
without a commission gets a placeholder record.
-/

namespace BeeApi.Affiliate

open Payment

structure Log where
  id : ℤ := 0
  eventId : String := ""
  userId : ℤ
  createdAt : ℤ
  type : ℤ := 2
  quota : ℤ
  other : String := ""

def logTypeConsume : ℤ := 2

inductive LogDatabase
  | sql
  | clickHouse
deriving DecidableEq

/-- The columns that the pages are ordered by; the id or the event id is left out. -/
def LogDatabase.key (d : LogDatabase) (log : Log) : ℤ ×ₗ ℤ ×ₗ String :=
  match d with
  | .sql => toLex (log.createdAt, toLex (log.id, ""))
  | .clickHouse => toLex (log.createdAt, toLex (0, log.eventId))

/-- The `WHERE` clause of a page that is not the first. -/
def LogDatabase.after (d : LogDatabase) (last log : Log) : Bool :=
  match d with
  | .sql => last.createdAt < log.createdAt || (log.createdAt = last.createdAt && last.id < log.id)
  | .clickHouse =>
    last.createdAt < log.createdAt || (log.createdAt = last.createdAt && last.eventId < log.eventId)

/-- What a settlement does not change: the log, whose ids are unique, and the settings.  `product` is the
`float64` product of a consumption with the ratio, `isPositive` the sign of a JSON number. -/
structure Day where
  database : LogDatabase := .sql
  logs : List Log
  unique : (logs.map database.key).Nodup
  startSec : ℤ
  endSec : ℤ
  batchSize : ℕ := 1000
  batchSize_pos : 0 < batchSize := by decide
  maxUniqueUsers : ℕ := 200000
  strToMap : String → Option Json.Fields
  isPositive : String → Bool
  product : ℤ → ℚ
  product_zero : product 0 = 0

namespace Day

def isSubscriptionConsume (day : Day) (other : String) : Bool :=
  if other = "" then false
  else
    match day.strToMap other with
    | none => false
    | some otherMap =>
      match otherMap.lookup "subscription_id" with
      | some (.num text _) => day.isPositive text
      | some (.str n) => n ≠ "" && n ≠ "0"
      | _ => false

def inDay (day : Day) (log : Log) : Bool :=
  log.type = logTypeConsume && day.startSec ≤ log.createdAt && log.createdAt < day.endSec

/-- The rows of the day in the order of the pages. -/
def sorted (day : Day) : List Log :=
  (day.logs.filter day.inDay).insertionSort fun r s => day.database.key r ≤ day.database.key s

/-- The rows behind the last one that was read. -/
def behind (day : Day) : Option Log → List Log
  | none => day.sorted
  | some last => day.sorted.filter (day.database.after last)

def page (day : Day) (cursor : Option Log) : List Log := (day.behind cursor).take day.batchSize

def counts (day : Day) (log : Log) : Bool := 0 < log.quota && !day.isSubscriptionConsume log.other

/-- A row is added to the sums; there is no result when there are too many users. -/
def addLog (day : Day) (consumeByUser : Table ℤ ℤ) (log : Log) : Option (Table ℤ ℤ) :=
  if log.quota ≤ 0 then some consumeByUser
  else if day.isSubscriptionConsume log.other then some consumeByUser
  else
    match consumeByUser.get? log.userId with
    | some total => some (consumeByUser.put log.userId (total + log.quota))
    | none =>
      if day.maxUniqueUsers ≤ consumeByUser.rows.length then none
      else some (consumeByUser.put log.userId log.quota)

def scanPages (day : Day) : ℕ → Option Log → Table ℤ ℤ → Option (Table ℤ ℤ)
  | 0, _, _ => none
  | fuel + 1, cursor, consumeByUser =>
    match (day.page cursor).getLast? with
    | none => some consumeByUser
    | some last =>
      match (day.page cursor).foldlM day.addLog consumeByUser with
      | none => none
      | some consumeByUser =>
        if (day.page cursor).length < day.batchSize then some consumeByUser
        else scanPages day fuel (some last) consumeByUser

def scanConsumeByUser (day : Day) : Option (Table ℤ ℤ) :=
  day.scanPages (day.logs.length + 1) none ∅

end Day

structure User where
  inviterId : ℤ := 0
  affQuota : ℤ := 0
  affHistory : ℤ := 0
  /-- The row is deleted softly, and no query finds it. -/
  deleted : Bool := false

structure AffiliateCommissionDaily where
  inviterId : ℤ := 0
  inviteeId : ℤ := 0
  inviteeQuota : ℤ := 0
  commission : ℤ := 0
deriving DecidableEq

def placeholder : AffiliateCommissionDaily := {}

/-- The query for the inviters; its batches are read as one. -/
def loadInviterMapping (users : Table ℤ User) (consumeByUser : Table ℤ ℤ) : List (ℤ × ℤ) :=
  (users.rows.filter fun e =>
    (consumeByUser.get? e.1).isSome && e.2.inviterId ≠ 0 && !e.2.deleted).map
    fun e => (e.1, e.2.inviterId)

def Day.commission (day : Day) (consume : ℤ) : ℤ := intPart (day.product consume)

def Day.record (day : Day) (inviterById : List (ℤ × ℤ)) (invitee consume : ℤ) :
    Option AffiliateCommissionDaily :=
  match inviterById.lookup invitee with
  | none => none
  | some inviterId =>
    if day.commission consume ≤ 0 then none
    else
      some
        { inviterId := inviterId
          inviteeId := invitee
          inviteeQuota := consume
          commission := day.commission consume }

/-- The totals that `buildCommissionRecords` adds up beside the records. -/
def addTotal (totals : Table ℤ ℤ) (r : AffiliateCommissionDaily) : Table ℤ ℤ :=
  totals.put r.inviterId ((totals.get? r.inviterId).getD 0 + r.commission)

def Day.buildCommissionRecords (day : Day) (consumeByUser : Table ℤ ℤ) (inviterById : List (ℤ × ℤ)) :
    List AffiliateCommissionDaily × Table ℤ ℤ :=
  let records := consumeByUser.rows.filterMap fun e => day.record inviterById e.1 e.2
  (records, records.foldl addTotal ∅)

structure Db where
  users : Table ℤ User
  /-- The records of the date. -/
  records : List AffiliateCommissionDaily := []

/-- The unique index over the inviter and the invitee of the date. -/
def conflicts (records new : List AffiliateCommissionDaily) : Bool :=
  new.any fun r => records.any fun r' => r'.inviterId = r.inviterId && r'.inviteeId = r.inviteeId

def payInviter (users : Table ℤ User) (inviterId total : ℤ) : Table ℤ User :=
  users.updateWhere (fun id u => id = inviterId && !u.deleted) fun u =>
    { u with affQuota := u.affQuota + total, affHistory := u.affHistory + total }

def payInviters (users : Table ℤ User) (totals : Table ℤ ℤ) : Table ℤ User :=
  totals.rows.foldl (fun users e => payInviter users e.1 e.2) users

/-- `SaveAffiliateCommissionDaily` of a placeholder. -/
def Db.savePlaceholder (db : Db) : Db :=
  if conflicts db.records [placeholder] then db
  else { db with records := db.records ++ [placeholder] }

def Db.settle (db : Db) (records : List AffiliateCommissionDaily) (totals : Table ℤ ℤ) : Db :=
  if conflicts db.records records then db
  else { records := db.records ++ records, users := payInviters db.users totals }

/-- Where a settler stands; one that has crashed takes no further step. -/
inductive Settler
  | unsettled
  | scanned (consumeByUser : Table ℤ ℤ)
  | nothingDue
  | due (records : List AffiliateCommissionDaily) (totals : Table ℤ ℤ)
  | done

structure State where
  db : Db
  settlers : List Settler := []

inductive Action
  /-- `HasAffiliateCommissionForDate`. -/
  | check
  | scan (settler : ℕ)
  | lookup (settler : ℕ)
  /-- The last transaction, which is committed or rolled back. -/
  | commit (settler : ℕ) (committed : Bool)

def afterScan : Option (Table ℤ ℤ) → Settler
  | none => .done
  | some consumeByUser => if consumeByUser.rows = [] then .nothingDue else .scanned consumeByUser

def afterLookup (built : List AffiliateCommissionDaily × Table ℤ ℤ) : Settler :=
  if built.1 = [] then .nothingDue else .due built.1 built.2

def step (day : Day) (s : State) : Action → Option State
  | .check =>
    if s.db.records = [] then some { s with settlers := s.settlers ++ [.unsettled] } else some s
  | .scan i =>
    match s.settlers[i]? with
    | some .unsettled =>
      some { s with settlers := s.settlers.set i (afterScan day.scanConsumeByUser) }
    | _ => none
  | .lookup i =>
    match s.settlers[i]? with
    | some (.scanned consumeByUser) =>
      some { s with
        settlers := s.settlers.set i (afterLookup (day.buildCommissionRecords consumeByUser
          (loadInviterMapping s.db.users consumeByUser))) }
    | _ => none
  | .commit i committed =>
    match s.settlers[i]? with
    | some .nothingDue =>
      some {
        db := if committed then s.db.savePlaceholder else s.db
        settlers := s.settlers.set i .done }
    | some (.due records totals) =>
      some {
        db := if committed then s.db.settle records totals else s.db
        settlers := s.settlers.set i .done }
    | _ => none

end BeeApi.Affiliate
