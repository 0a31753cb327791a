import Mathlib.Algebra.BigOperators.Ring.Finset
import Mathlib.Data.Fintype.BigOperators
import BeeApi.Dashboard.QuotaData

/-!
# Quota data is counted once

Every call of `LogQuotaData` is in one place: in a row of `quota_data`, in a cache, or in flight under
an operation that is not committed.  The sums agree key by key as long as a call is merged only into an
entry of its own key; `CacheQuotaData` is keyed by a text that joins the columns with NUL, so two keys
with NUL in them may share an entry.
-/

namespace BeeApi.Dashboard

open Batch Strings List Option Table String Finset World

/-! ## Sums -/

inductive Column
  | count
  | quota
  | tokenUsed
deriving DecidableEq

def Column.of : Column → QuotaData → ℤ
  | .count => QuotaData.count
  | .quota => QuotaData.quota
  | .tokenUsed => QuotaData.tokenUsed

/-- What a row or an entry has of a column of the key `k`. -/
def share (k : QuotaKey) (c : Column) (d : QuotaData) : ℤ := if key d = k then c.of d else 0

def committed (db : Db) (op : String) : Bool := (db.flushOperationLedgers.get? op).isSome

/-- The sum over the matching rows of `quota_data`. -/
def stored (db : Db) (k : QuotaKey) (c : Column) : ℤ := db.quotaData.sum fun _ d => share k c d

/-- What an entry in flight still has to bring to the table. -/
def pending (db : Db) (k : QuotaKey) (c : Column) (e : QuotaDataFlushEntry) : ℤ :=
  if committed db e.operationID then 0 else share k c e.data

def held (db : Db) (p : Process) (k : QuotaKey) (c : Column) : ℤ :=
  (p.cacheQuotaData.sum fun _ d => share k c d) +
    p.quotaDataInFlight.sum fun _ e => pending db k c e

/-! ## Writing an entry -/

/-- No row of `quota_data` is deleted or gets another key. -/
def RowsKept (db db' : Db) : Prop :=
  ∀ id d, db.quotaData.get? id = some d → ∃ d', db'.quotaData.get? id = some d' ∧ key d' = key d

theorem findQuotaData_spec {db : Db} {d : QuotaData} {id : ℤ} (h : findQuotaData db d = some id) :
    ∃ r, db.quotaData.get? id = some r ∧ key r = key d := by
  obtain ⟨row, hrow, rfl⟩ := mem_map.1 (min?_mem h)
  obtain ⟨hmem, hkey⟩ := mem_filter.1 hrow
  exact ⟨row.2, (get?_eq_some_iff _ _ _).2 hmem, of_decide_eq_true hkey⟩

theorem writeQuotaData_flush {existing : Option ℤ} {d : QuotaData} {db db' : Db} {code : String}
    (h : writeQuotaData existing d db = .ok (db', code)) :
    db'.flushOperationLedgers = db.flushOperationLedgers := by
  unfold writeQuotaData increaseQuotaData at h
  split_ifs at h
  · cases haffected : db.affected db.quotaData (db.quotaData.updateRow (existing.getD 0)
        (fun _ => true) fun row => { row with
          count := row.count + d.count
          quota := row.quota + d.quota
          tokenUsed := row.tokenUsed + d.tokenUsed }) with
    | none =>
      rw [haffected] at h
      cases h
    | some quotaData =>
      rw [haffected] at h
      cases h
      rfl
  · cases h
    rfl

theorem writeQuotaData_spec {existing : Option ℤ} {d : QuotaData} {db db' : Db} {code : String}
    (hexisting : ∀ id, existing = some id → ∃ r, db.quotaData.get? id = some r ∧ key r = key d)
    (h : writeQuotaData existing d db = .ok (db', code)) :
    RowsKept db db' ∧ ∀ k c, stored db' k c = stored db k c + share k c d := by
  unfold writeQuotaData increaseQuotaData at h
  split_ifs at h with hpos
  · obtain ⟨id, rfl⟩ : ∃ id, existing = some id := by
      cases existing with
      | none => exact absurd hpos (lt_irrefl 0)
      | some id => exact ⟨id, rfl⟩
    obtain ⟨r, hr, hkey⟩ := hexisting id rfl
    rw [getD_some] at h
    cases haffected : db.affected db.quotaData (db.quotaData.updateRow id
        (fun _ => true) fun row => { row with
          count := row.count + d.count
          quota := row.quota + d.quota
          tokenUsed := row.tokenUsed + d.tokenUsed }) with
    | none =>
      rw [haffected] at h
      cases h
    | some quotaData =>
      rw [haffected] at h
      cases h
      obtain ⟨-, -, -, rfl⟩ := Db.exists_of_affected haffected
      constructor
      · intro id' r' hr'
        rw [get?_modify]
        split_ifs
        · rw [hr']
          exact ⟨_, rfl, rfl⟩
        · exact ⟨r', hr', rfl⟩
      · intro k c
        unfold stored
        rw [sum_modify hr]
        have hsame : ∀ count quota tokenUsed,
            key { r with count := count, quota := quota, tokenUsed := tokenUsed } = key d :=
          fun _ _ _ => hkey
        unfold share
        rw [hsame, hkey]
        split_ifs
        · cases c <;> simp [Column.of]
        · ring
  · cases h
    unfold createQuotaData
    constructor
    · intro id r hr
      rw [get?_put]
      split_ifs with hid
      · rw [hid, get?_nextKey] at hr
        cases hr
      · exact ⟨r, hr, rfl⟩
    · intro k c
      exact sum_put_of_none (get?_nextKey _) d _

/-- What one call of the saver can do: nothing, or write the entry for the first time. -/
inductive Saved (db : Db) (op : String) (d : QuotaData) (db' : Db) : Prop
  | same (h : db' = db)
  | written (ledger : FlushOperationLedger) (hnone : db.flushOperationLedgers.get? op = none)
      (hresult : trimSpace ledger.resultCode ≠ "")
      (hrows : ∀ op', db'.flushOperationLedgers.get? op' =
        if op' = op then some ledger else db.flushOperationLedgers.get? op')
      (hkept : RowsKept db db') (hstored : ∀ k c, stored db' k c = stored db k c + share k c d)

theorem saveQuotaData_spec {payloadHash : QuotaData → String} {db : Db} {op : String}
    {d : QuotaData} {existing : Option ℤ} (now : ℤ) (commit : Commit) (lookupFails : Bool)
    (hexisting : ∀ id, existing = some id → ∃ r, db.quotaData.get? id = some r ∧ key r = key d)
    (hresult : HasResult db op) :
    Saved db op d (saveQuotaData payloadHash db now op d existing commit lookupFails).1 ∧
    ((saveQuotaData payloadHash db now op d existing commit lookupFails).2 = none →
      committed (saveQuotaData payloadHash db now op d existing commit lookupFails).1 op =
        true) := by
  obtain ⟨hflushed, hrow⟩ := @applyFlushOperation_spec db op (writeQuotaData existing d) now
    "quota-data" (payloadHash d) commit lookupFails (fun _ _ _ h => writeQuotaData_flush h) hresult
  unfold saveQuotaData
  revert hflushed hrow
  generalize applyFlushOperation db now op "quota-data" (payloadHash d) (writeQuotaData existing d)
    commit lookupFails = result
  obtain ⟨db', res⟩ := result
  intro hflushed hrow
  dsimp only at hflushed hrow
  have hsaved : Saved db op d db' := by
    cases hflushed with
    | same h => exact .same h
    | applied ledger ledgers ledgers' db₁ code hnone hresult happlied hdb hrows =>
      have hexisting' : ∀ id, existing = some id → ∃ r,
          ({ db with flushOperationLedgers := ledgers } : Db).quotaData.get? id = some r ∧
            key r = key d := hexisting
      obtain ⟨hkept, hstored⟩ := writeQuotaData_spec hexisting' happlied
      rw [hdb]
      exact .written ledger hnone hresult hrows hkept hstored
  cases res with
  | ok code => exact ⟨hsaved, fun _ => isSome_iff_ne_none.2 (hrow code rfl)⟩
  | error e => exact ⟨hsaved, nofun⟩

section System

variable {ι : Type} [DecidableEq ι]

def Label.logged (k : QuotaKey) (c : Column) : Label ι → ℤ
  | .logQuotaData _ call => share k c call.entry
  | _ => 0

/-- The entry that a call is merged into has the key of the call, or both have a username with
NUL. -/
def MergesOwn (w : World ι) : Label ι → Prop
  | .logQuotaData i call =>
    ∀ d, (w.processes i).cacheQuotaData.get? (quotaDataCacheKey (key call.entry)) = some d →
      key d = key call.entry ∨
        '\x00' ∈ (key d).username.toList ∧ '\x00' ∈ (key call.entry).username.toList
  | _ => True

@[simp] theorem setProcess_db (w : World ι) (i : ι) (p : Process) : (w.setProcess i p).db = w.db :=
  rfl

@[simp] theorem setProcess_drawn (w : World ι) (i : ι) (p : Process) :
    (w.setProcess i p).drawn = w.drawn :=
  rfl

@[simp] theorem setProcess_processes_self (w : World ι) (i : ι) (p : Process) :
    (w.setProcess i p).processes i = p := by
  simp [setProcess]

variable {i : ι} {p : Process} {save : Save} {db : Db} {text : String}
  {payloadHash : QuotaData → String} {a : Label ι} {w' : World ι}

theorem setProcess_processes_of_ne (w : World ι) {j : ι} (p : Process) (h : j ≠ i) :
    (w.setProcess i p).processes j = w.processes j := by
  simp [setProcess, h]

/-! ## The invariant -/

/-- A save works on the entry in flight, and it has been told of a success only when the operation is
committed. -/
def StageOk (db : Db) (p : Process) (save : Save) : Prop :=
  match save.stage with
  | .next => True
  | .queried entry existing =>
    (∃ key rest, save.keys = key :: rest ∧ p.quotaDataInFlight.get? key = some entry) ∧
      ∀ id, existing = some id → ∃ d, db.quotaData.get? id = some d ∧ key d = key entry.data
  | .saved operationID err =>
    (∃ key rest entry, save.keys = key :: rest ∧ p.quotaDataInFlight.get? key = some entry ∧
      entry.operationID = operationID) ∧
      (err = none → committed db operationID = true)

/-- An operation id is drawn once, and the ledger rows that a save is about to delete belong to no
entry in flight. -/
structure Inv (uuid : ℕ → String) (w : World ι) : Prop where
  drawn : ∀ i key e, (w.processes i).quotaDataInFlight.get? key = some e →
    ∃ n < w.drawn, e.operationID = newQuotaOperationID uuid n
  distinct : ∀ i j key key' e e', (w.processes i).quotaDataInFlight.get? key = some e →
    (w.processes j).quotaDataInFlight.get? key' = some e' → e.operationID = e'.operationID →
    i = j ∧ key = key'
  fresh : ∀ n, w.drawn ≤ n → w.db.flushOperationLedgers.get? (newQuotaOperationID uuid n) = none
  result : ∀ n, HasResult w.db (newQuotaOperationID uuid n)
  confirmed : ∀ i save, (w.processes i).save = some save → ∀ op ∈ save.confirmedOperationIDs,
    (∃ n < w.drawn, op = newQuotaOperationID uuid n) ∧
      ∀ j key e, (w.processes j).quotaDataInFlight.get? key = some e → e.operationID ≠ op
  stage : ∀ i save, (w.processes i).save = some save → StageOk w.db (w.processes i) save

theorem newQuotaOperationID_injective {uuid : ℕ → String} (huuid : uuid.Injective) :
    (newQuotaOperationID uuid).Injective := by
  intro n m h
  exact huuid ((append_right_inj "quota-").1 h)

variable {uuid : ℕ → String} {w : World ι}

theorem Inv.setProcess (hw : Inv uuid w) (i : ι)
    (hinFlight : ∀ key e, p.quotaDataInFlight.get? key = some e →
      (w.processes i).quotaDataInFlight.get? key = some e)
    (hconfirmed : ∀ save, p.save = some save → ∀ op ∈ save.confirmedOperationIDs,
      (∃ n < w.drawn, op = newQuotaOperationID uuid n) ∧
        ∀ j key e, ((w.setProcess i p).processes j).quotaDataInFlight.get? key = some e →
          e.operationID ≠ op) (hstage : ∀ save, p.save = some save → StageOk w.db p save) :
    Inv uuid (w.setProcess i p) := by
  have hsub : ∀ j key e, ((w.setProcess i p).processes j).quotaDataInFlight.get? key = some e →
      (w.processes j).quotaDataInFlight.get? key = some e := by
    intro j key e he
    by_cases hj : j = i
    · subst hj
      rw [setProcess_processes_self] at he
      exact hinFlight key e he
    · rwa [setProcess_processes_of_ne w p hj] at he
  refine ⟨fun j key e he => hw.drawn j key e (hsub j key e he), ?_, hw.fresh, hw.result, ?_, ?_⟩
  · intro j j' key key' e e' he he' hop
    exact hw.distinct j j' key key' e e' (hsub j key e he) (hsub j' key' e' he') hop
  · intro j save hsave op hop
    by_cases hj : j = i
    · subst hj
      rw [setProcess_processes_self] at hsave
      exact hconfirmed save hsave op hop
    · rw [setProcess_processes_of_ne w p hj] at hsave
      obtain ⟨hn, hnot⟩ := hw.confirmed j save hsave op hop
      exact ⟨hn, fun j' key e he => hnot j' key e (hsub j' key e he)⟩
  · intro j save hsave
    by_cases hj : j = i
    · subst hj
      rw [setProcess_processes_self] at hsave ⊢
      exact hstage save hsave
    · rw [setProcess_processes_of_ne w p hj] at hsave ⊢
      exact hw.stage j save hsave

theorem Inv.setProcess_of_sublist (hw : Inv uuid w) (i : ι)
    (hsave : (w.processes i).save = some save)
    (hinFlight : p.quotaDataInFlight = (w.processes i).quotaDataInFlight)
    (hconfirmed : ∀ save', p.save = some save' →
      ∀ op ∈ save'.confirmedOperationIDs, op ∈ save.confirmedOperationIDs)
    (hstage : ∀ save', p.save = some save' → StageOk w.db p save') :
    Inv uuid (w.setProcess i p) := by
  refine hw.setProcess i (fun key e he => hinFlight ▸ he) (fun save' hs op hop => ?_) hstage
  obtain ⟨hn, hnot⟩ := hw.confirmed i save hsave op (hconfirmed save' hs op hop)
  refine ⟨hn, fun j key e he => hnot j key e ?_⟩
  by_cases hj : j = i
  · subst hj
    rw [setProcess_processes_self, hinFlight] at he
    exact he
  · rwa [setProcess_processes_of_ne w p hj] at he

variable [Fintype ι]

def World.amount (w : World ι) (k : QuotaKey) (c : Column) : ℤ :=
  stored w.db k c + ∑ i, held w.db (w.processes i) k c

/-- The invariant holds in `w'`, and nothing is counted there that is not counted in `w`. -/
def Keeps (uuid : ℕ → String) (w w' : World ι) : Prop := Inv uuid w' ∧ ∀ k c, w'.amount k c = w.amount k c

theorem amount_setProcess (w : World ι) (i : ι) (p : Process) (k : QuotaKey) (c : Column) :
    (w.setProcess i p).amount k c =
      w.amount k c + (held w.db p k c - held w.db (w.processes i) k c) := by
  unfold amount
  rw [← add_sum_erase _ _ (mem_univ i), ← add_sum_erase _ (fun j =>
    held w.db (w.processes j) k c) (mem_univ i)]
  have hrest : ∑ j ∈ Finset.univ.erase i, held (w.setProcess i p).db
      ((w.setProcess i p).processes j) k c =
      ∑ j ∈ Finset.univ.erase i, held w.db (w.processes j) k c := by
    refine sum_congr rfl fun j hj => ?_
    rw [setProcess_processes_of_ne w p (ne_of_mem_erase hj), setProcess_db]
  rw [hrest, setProcess_processes_self, setProcess_db]
  ring

/-! ## Logging -/

/-- What a call adds to a key: the entry that is there keeps its key. -/
def credited (w : World ι) (k : QuotaKey) (c : Column) : Label ι → ℤ
  | .logQuotaData i call =>
    if ((w.processes i).cacheQuotaData.get? (quotaDataCacheKey (key call.entry))).elim
        (key call.entry) key = k then c.of call.entry else 0
  | _ => 0

theorem sum_mergeQuotaDataCacheEntry (cache : Table String QuotaData) (text : String)
    (incoming : QuotaData) (k : QuotaKey) (c : Column) :
    ((mergeQuotaDataCacheEntry cache text incoming).sum fun _ d => share k c d) =
      (cache.sum fun _ d => share k c d) +
        if (cache.get? text).elim (key incoming) key = k then c.of incoming else 0 := by
  unfold mergeQuotaDataCacheEntry
  cases hget : cache.get? text with
  | none =>
    rw [sum_put_of_none hget]
    rfl
  | some d =>
    rw [sum_modify hget, elim_some]
    congr 1
    have hkey : ∀ count quota tokenUsed,
        key { d with count := count, quota := quota, tokenUsed := tokenUsed } = key d :=
      fun _ _ _ => rfl
    unfold share
    rw [hkey]
    split_ifs
    · cases c <;> simp [Column.of]
    · ring

theorem logQuotaData_spec (hw : Inv uuid w) (i : ι) (call : LogCall) :
    Inv uuid (w.setProcess i (logQuotaData (w.processes i) call)) ∧
    ∀ k c, (w.setProcess i (logQuotaData (w.processes i) call)).amount k c =
      w.amount k c + credited w k c (.logQuotaData i call) := by
  constructor
  · refine hw.setProcess i (fun _ _ he => he) (fun save hs op hop => ?_) fun save hs => ?_
    · obtain ⟨hn, hnot⟩ := hw.confirmed i save hs op hop
      refine ⟨hn, fun j key e he => hnot j key e ?_⟩
      by_cases hj : j = i
      · subst hj
        rw [setProcess_processes_self] at he
        exact he
      · rwa [setProcess_processes_of_ne w _ hj] at he
    · exact hw.stage i save hs
  · intro k c
    rw [amount_setProcess]
    congr 1
    unfold held logQuotaData
    rw [sum_mergeQuotaDataCacheEntry]
    unfold credited
    ring

/-! ## Moving entries in flight -/

/-- One round of the loop over the cache, as a step of the world. -/
def World.move (uuid : ℕ → String) (i : ι) (w : World ι) (row : String × QuotaData) : World ι :=
  let moved := moveToInFlight uuid (w.processes i, w.drawn) row
  { w with drawn := moved.2 }.setProcess i moved.1

omit [Fintype ι] in
theorem foldl_move (uuid : ℕ → String) (i : ι) (rows : List (String × QuotaData)) (w : World ι) :
    rows.foldl (move uuid i) w =
      { w with drawn := (rows.foldl (moveToInFlight uuid) (w.processes i, w.drawn)).2 }.setProcess i
        (rows.foldl (moveToInFlight uuid) (w.processes i, w.drawn)).1 := by
  induction rows generalizing w with
  | nil => simp [setProcess]
  | cons row rows ih =>
    rw [foldl_cons, foldl_cons, ih]
    have hself : ((move uuid i w row).processes i, (move uuid i w row).drawn) =
        moveToInFlight uuid (w.processes i, w.drawn) row := by
      unfold move
      simp
    rw [hself]
    simp [setProcess, move]

/-- A move takes an entry from the cache in flight, under an id that no ledger row has. -/
theorem move_spec (huuid : uuid.Injective) (hw : Inv uuid w) (hsave : (w.processes i).save = none)
    {row : String × QuotaData} (hrow : (w.processes i).cacheQuotaData.get? row.1 = some row.2) :
    Keeps uuid w (w.move uuid i row) ∧ ((w.move uuid i row).processes i).save = none ∧
    ∀ text, text ≠ row.1 → ((w.move uuid i row).processes i).cacheQuotaData.get? text =
      (w.processes i).cacheQuotaData.get? text := by
  cases hin : (w.processes i).quotaDataInFlight.get? row.1 with
  | some e =>
    have hsame : w.move uuid i row = w := by
      unfold move moveToInFlight
      simp [hin, setProcess]
    rw [hsame]
    exact ⟨⟨hw, fun _ _ => rfl⟩, hsave, fun _ _ => rfl⟩
  | none =>
    have hmove : w.move uuid i row = { w with drawn := w.drawn + 1 }.setProcess i
        { w.processes i with
          cacheQuotaData := (w.processes i).cacheQuotaData.erase row.1
          quotaDataInFlight := (w.processes i).quotaDataInFlight.put row.1
            { operationID := newQuotaOperationID uuid w.drawn, data := row.2 } } := by
      unfold move moveToInFlight
      simp [hin]
    rw [hmove]
    -- an entry in flight is an old one, or the new one
    have hentry : ∀ j text e, (({ w with drawn := w.drawn + 1 }.setProcess i
        { w.processes i with
          cacheQuotaData := (w.processes i).cacheQuotaData.erase row.1
          quotaDataInFlight := (w.processes i).quotaDataInFlight.put row.1
            { operationID := newQuotaOperationID uuid w.drawn, data := row.2 } }).processes
              j).quotaDataInFlight.get? text = some e →
        (w.processes j).quotaDataInFlight.get? text = some e ∨
          j = i ∧ text = row.1 ∧ e.operationID = newQuotaOperationID uuid w.drawn := by
      intro j text e he
      by_cases hj : j = i
      · subst hj
        rw [setProcess_processes_self, get?_put] at he
        split_ifs at he with htext
        · cases he
          exact .inr ⟨rfl, htext, rfl⟩
        · exact .inl he
      · rw [setProcess_processes_of_ne _ _ hj] at he
        exact .inl he
    have hnew : ∀ j text e, (w.processes j).quotaDataInFlight.get? text = some e →
        e.operationID ≠ newQuotaOperationID uuid w.drawn := by
      intro j text e he hop
      obtain ⟨n, hn, hid⟩ := hw.drawn j text e he
      have := newQuotaOperationID_injective huuid (hid.symm.trans hop)
      omega
    refine ⟨⟨⟨?_, ?_, fun n hn => hw.fresh n (Nat.le_of_succ_le hn), hw.result, ?_, ?_⟩, ?_⟩, ?_, ?_⟩
    · intro j text e he
      rcases hentry j text e he with hold | ⟨-, -, hop⟩
      · obtain ⟨n, hn, hid⟩ := hw.drawn j text e hold
        exact ⟨n, Nat.lt_succ_of_lt hn, hid⟩
      · exact ⟨w.drawn, Nat.lt_succ_self _, hop⟩
    · intro j j' text text' e e' he he' hop
      rcases hentry j text e he with hold | ⟨rfl, rfl, hid⟩ <;>
        rcases hentry j' text' e' he' with hold' | ⟨rfl, rfl, hid'⟩
      · exact hw.distinct j j' text text' e e' hold hold' hop
      · exact absurd (hop.trans hid') (hnew j text e hold)
      · exact absurd (hop.symm.trans hid) (hnew j' text' e' hold')
      · exact ⟨rfl, rfl⟩
    · intro j save hs op hop
      by_cases hj : j = i
      · subst hj
        rw [setProcess_processes_self, hsave] at hs
        cases hs
      · rw [setProcess_processes_of_ne _ _ hj] at hs
        obtain ⟨⟨n, hn, hid⟩, hnot⟩ := hw.confirmed j save hs op hop
        refine ⟨⟨n, Nat.lt_succ_of_lt hn, hid⟩, fun j' text e he heq => ?_⟩
        rcases hentry j' text e he with hold | ⟨-, -, hop'⟩
        · exact hnot j' text e hold heq
        · have := newQuotaOperationID_injective huuid ((hop'.symm.trans heq).trans hid)
          omega
    · intro j save hs
      by_cases hj : j = i
      · subst hj
        rw [setProcess_processes_self, hsave] at hs
        cases hs
      · rw [setProcess_processes_of_ne _ _ hj] at hs ⊢
        exact hw.stage j save hs
    · intro k c
      rw [amount_setProcess]
      have hpending : pending w.db k c
          { operationID := newQuotaOperationID uuid w.drawn, data := row.2 } = share k c row.2 := by
        unfold pending committed
        rw [hw.fresh w.drawn le_rfl]
        rfl
      unfold held
      rw [sum_erase hrow, sum_put_of_none hin, hpending]
      unfold amount
      ring
    · rw [setProcess_processes_self, hsave]
    · intro text htext
      rw [setProcess_processes_self, get?_erase, if_neg htext]

theorem foldl_move_spec (huuid : uuid.Injective) {rows : List (String × QuotaData)}
    (hnodup : (rows.map Prod.fst).Nodup) (hw : Inv uuid w) (hsave : (w.processes i).save = none)
    (hrows : ∀ row ∈ rows, (w.processes i).cacheQuotaData.get? row.1 = some row.2) :
    Keeps uuid w (rows.foldl (move uuid i) w) := by
  induction rows generalizing w with
  | nil => exact ⟨hw, fun _ _ => rfl⟩
  | cons row rows ih =>
    rw [List.map_cons, List.nodup_cons] at hnodup
    obtain ⟨⟨hw₁, hamount⟩, hsave₁, hcache⟩ := move_spec huuid hw hsave (hrows row mem_cons_self)
    have hrows₁ : ∀ row' ∈ rows, ((w.move uuid i row).processes i).cacheQuotaData.get? row'.1 =
        some row'.2 := by
      intro row' hmem
      have hne : row'.1 ≠ row.1 := fun he => hnodup.1 (he ▸ mem_map.2 ⟨row', hmem, rfl⟩)
      rw [hcache row'.1 hne]
      exact hrows row' (mem_cons_of_mem row hmem)
    obtain ⟨hw₂, hamount₂⟩ := ih hnodup.2 hw₁ hsave₁ hrows₁
    exact ⟨hw₂, fun k c => (hamount₂ k c).trans (hamount k c)⟩

theorem begin_spec (huuid : uuid.Injective) (hw : Inv uuid w) (hsave : (w.processes i).save = none) :
    Keeps uuid w ({ w with drawn := ((w.processes i).begin uuid w.drawn).2 }.setProcess i
      ((w.processes i).begin uuid w.drawn).1) := by
  have hrows : ∀ row ∈ (w.processes i).cacheQuotaData.rows,
      (w.processes i).cacheQuotaData.get? row.1 = some row.2 :=
    fun row hrow => (get?_eq_some_iff _ _ _).2 hrow
  obtain ⟨hw₁, hamount⟩ := foldl_move_spec huuid (w.processes i).cacheQuotaData.nodup hw hsave hrows
  rw [foldl_move] at hw₁ hamount
  unfold Process.begin
  revert hw₁ hamount
  generalize (w.processes i).cacheQuotaData.rows.foldl (moveToInFlight uuid)
    (w.processes i, w.drawn) = moved
  intro hw₁ hamount
  have hlocks : ∀ save, ({ w with drawn := moved.2 }.setProcess i
      { moved.1 with save := some save }) =
      ({ w with drawn := moved.2 }.setProcess i moved.1).setProcess i
        { moved.1 with save := some save } := by
    intro save
    simp [setProcess]
  rw [hlocks]
  refine ⟨hw₁.setProcess i (fun text e he => ?_) (fun save hs op hop => ?_) (fun save hs => ?_),
    fun k c => ?_⟩
  · rw [setProcess_processes_self]
    exact he
  · cases hs
    cases hop
  · cases hs
    exact trivial
  · rw [amount_setProcess, hamount, setProcess_processes_self]
    unfold held
    ring

/-! ## Steps on the database -/

omit [Fintype ι] [DecidableEq ι] in
theorem held_congr {db' : Db} (h : ∀ text e, p.quotaDataInFlight.get? text = some e →
      committed db' e.operationID = committed db e.operationID) (k : QuotaKey) (c : Column) :
    held db' p k c = held db p k c := by
  unfold held
  congr 1
  refine sum_congr fun text e he => ?_
  unfold pending
  rw [h text e he]

theorem amount_of_written (hw : Inv uuid w) {e : QuotaDataFlushEntry}
    {ledger : FlushOperationLedger} (he : (w.processes i).quotaDataInFlight.get? text = some e)
    (hnone : w.db.flushOperationLedgers.get? e.operationID = none)
    (hrows : ∀ op, db.flushOperationLedgers.get? op =
      if op = e.operationID then some ledger else w.db.flushOperationLedgers.get? op)
    (hstored : ∀ k c, stored db k c = stored w.db k c + share k c e.data) (k : QuotaKey)
    (c : Column) : amount { w with db } k c = w.amount k c := by
  have hcommitted : ∀ op, op ≠ e.operationID → committed db op = committed w.db op := by
    intro op hop
    unfold committed
    rw [hrows, if_neg hop]
  have hbefore : pending w.db k c e = share k c e.data := by
    unfold pending committed
    rw [hnone]
    rfl
  have hafter : pending db k c e = 0 := by
    unfold pending committed
    rw [hrows, if_pos rfl]
    rfl
  have hself : held db (w.processes i) k c = held w.db (w.processes i) k c - share k c e.data := by
    unfold held
    rw [sum_eq_add_of_forall he (fun _ e => pending db k c e) (fun _ e => pending w.db k c e),
      hbefore, hafter]
    · ring
    · intro text' e' he' hne
      have hop : e'.operationID ≠ e.operationID :=
        fun hop => hne (hw.distinct i i text' text e' e he' he hop).2
      unfold pending
      rw [hcommitted _ hop]
  have hrest : ∑ j ∈ Finset.univ.erase i, held db (w.processes j) k c =
      ∑ j ∈ Finset.univ.erase i, held w.db (w.processes j) k c := by
    refine sum_congr rfl fun j hj => held_congr (fun text' e' he' => ?_) k c
    refine hcommitted _ fun hop => ?_
    exact ne_of_mem_erase hj (hw.distinct j i text' text e' e he' he hop).1
  unfold amount
  rw [← add_sum_erase _ _ (mem_univ i), ← add_sum_erase _ (fun j =>
    held w.db (w.processes j) k c) (mem_univ i), hrest, hself, hstored]
  ring

omit [Fintype ι] [DecidableEq ι] in
theorem Inv.of_db (hw : Inv uuid w) (hfresh : ∀ n, w.drawn ≤ n →
      db.flushOperationLedgers.get? (newQuotaOperationID uuid n) = none)
    (hresult : ∀ n, HasResult db (newQuotaOperationID uuid n)) (hkept : RowsKept w.db db)
    (hcommitted : ∀ i text e, (w.processes i).quotaDataInFlight.get? text = some e →
      committed w.db e.operationID = true → committed db e.operationID = true) :
    Inv uuid { w with db } := by
  refine ⟨hw.drawn, hw.distinct, hfresh, hresult, hw.confirmed, fun i save hs => ?_⟩
  have hstage := hw.stage i save hs
  unfold StageOk at hstage ⊢
  cases hst : save.stage with
  | next => trivial
  | queried entry existing =>
    rw [hst] at hstage
    refine ⟨hstage.1, fun id hid => ?_⟩
    obtain ⟨d, hd, hkey⟩ := hstage.2 id hid
    obtain ⟨d', hd', hkey'⟩ := hkept id d hd
    exact ⟨d', hd', hkey'.trans hkey⟩
  | saved operationID err =>
    rw [hst] at hstage
    obtain ⟨⟨text, rest, e, hkeys, he, hop⟩, herr⟩ := hstage
    refine ⟨⟨text, rest, e, hkeys, he, hop⟩, fun hnone => ?_⟩
    rw [← hop]
    exact hcommitted i text e he (hop ▸ herr hnone)

theorem save_spec (huuid : uuid.Injective) (hw : Inv uuid w) {entry : QuotaDataFlushEntry}
    {existing : Option ℤ} (hsave : (w.processes i).save = some save)
    (hstage : save.stage = .queried entry existing) (commit : Commit) (lookupFails : Bool)
    {err : Option String} (h : saveQuotaData payloadHash w.db w.now entry.operationID entry.data
      existing commit lookupFails = (db, err)) :
    Keeps uuid w ({ w with db }.setProcess i { w.processes i with
      save := some { save with stage := .saved entry.operationID err } }) := by
  have hok := hw.stage i save hsave
  unfold StageOk at hok
  rw [hstage] at hok
  obtain ⟨⟨text, rest, hkeys, he⟩, hexisting⟩ := hok
  have hresult : HasResult w.db entry.operationID := by
    obtain ⟨n, -, hid⟩ := hw.drawn i text entry he
    rw [hid]
    exact hw.result n
  obtain ⟨hsaved, hcommitted⟩ := @saveQuotaData_spec payloadHash w.db entry.operationID entry.data
    existing w.now commit lookupFails hexisting hresult
  rw [h] at hsaved hcommitted
  have hdb : Keeps uuid w { w with db } := by
    cases hsaved with
    | same hdb =>
      subst hdb
      exact ⟨hw, fun _ _ => rfl⟩
    | written ledger hnone hledger hrows hkept hstored =>
      refine ⟨hw.of_db (fun n hn => ?_) (fun n ledger' hget => ?_) hkept fun j text' e' he' hc => ?_,
        fun k c => amount_of_written hw he hnone hrows hstored k c⟩
      · obtain ⟨m, hm, hid⟩ := hw.drawn i text entry he
        rw [hrows, if_neg, hw.fresh n hn]
        intro hop
        have := newQuotaOperationID_injective huuid (hop.trans hid)
        omega
      · rw [hrows] at hget
        split_ifs at hget
        · exact some.inj hget ▸ hledger
        · exact hw.result n ledger' hget
      · unfold committed
        rw [hrows]
        split_ifs
        · rfl
        · exact hc
  obtain ⟨hw₁, hamount⟩ := hdb
  refine ⟨hw₁.setProcess_of_sublist i hsave rfl ?_ ?_, fun k c => ?_⟩
  · rintro save' hs op hop
    cases hs
    exact hop
  · rintro save' hs
    cases hs
    exact ⟨⟨text, rest, entry, hkeys, he, rfl⟩, hcommitted⟩
  · rw [amount_setProcess, ← hamount k c]
    unfold held
    ring

omit [DecidableEq ι] in
theorem deleteFlushOperationLedgers_spec (hw : Inv uuid w)
    (hsave : (w.processes i).save = some save) {ops : List String}
    (hops : ∀ op ∈ ops, op ∈ save.confirmedOperationIDs) :
    Keeps uuid w { w with db := deleteFlushOperationLedgers w.db ops } := by
  have hget : ∀ op, (deleteFlushOperationLedgers w.db ops).flushOperationLedgers.get? op =
      if op ∈ ops then none else w.db.flushOperationLedgers.get? op := by
    intro op
    have herase := get?_foldl_erase id ops w.db.flushOperationLedgers op
    simp only [id_eq, List.map_id] at herase
    exact herase
  have hinFlight : ∀ j text e, (w.processes j).quotaDataInFlight.get? text = some e →
      committed (deleteFlushOperationLedgers w.db ops) e.operationID =
        committed w.db e.operationID := by
    intro j text e he
    unfold committed
    rw [hget, if_neg]
    intro hop
    exact (hw.confirmed i save hsave _ (hops _ hop)).2 j text e he rfl
  constructor
  · refine hw.of_db (fun n hn => ?_) (fun n ledger hledger => ?_) (fun id d hd => ⟨d, hd, rfl⟩)
      fun j text e he hc => (hinFlight j text e he).trans hc
    · rw [hget, hw.fresh n hn, ite_self]
    · rw [hget] at hledger
      split_ifs at hledger
      exact hw.result n ledger hledger
  · intro k c
    unfold amount
    congr 1
    exact sum_congr rfl fun j _ => held_congr (hinFlight j) k c

theorem cleanup_spec (hw : Inv uuid w) (hsave : (w.processes i).save = some save) (commit : Commit) :
    Keeps uuid w (w.cleanup i save commit) := by
  have hstage : ∀ db ops p', p' = ({ w.processes i with
      save := some { save with confirmedOperationIDs := ops } } : Process) →
      Inv uuid { w with db } → ∀ save', p'.save = some save' → StageOk db p' save' := by
    rintro db ops p' rfl hw₁ save' hs
    cases hs
    exact hw₁.stage i save hsave
  have hset : ∀ db ops, (∀ op ∈ ops, op ∈ save.confirmedOperationIDs) → Keeps uuid w { w with db } →
      Keeps uuid w ({ w with db }.setProcess i { w.processes i with
        save := some { save with confirmedOperationIDs := ops } }) := by
    rintro db ops hops ⟨hw₁, hamount⟩
    refine ⟨hw₁.setProcess_of_sublist i hsave rfl ?_ (hstage db ops _ rfl hw₁), fun k c => ?_⟩
    · rintro save' hs op hop
      cases hs
      exact hops op hop
    · rw [amount_setProcess, ← hamount k c]
      unfold held
      ring
  have htake : ∀ op ∈ save.confirmedOperationIDs.take 200, op ∈ save.confirmedOperationIDs :=
    fun op hop => mem_of_mem_take hop
  have hdeleted := deleteFlushOperationLedgers_spec hw hsave htake
  cases commit with
  | committed => exact hset _ _ (fun op hop => mem_of_mem_drop hop) hdeleted
  | committedUnreported e => exact hset _ [] nofun hdeleted
  | rolledBack e => exact hset w.db [] nofun ⟨hw, fun _ _ => rfl⟩

/-! ## Steps on the process -/

theorem amount_of_maps (hcache : p.cacheQuotaData = (w.processes i).cacheQuotaData)
    (hinFlight : p.quotaDataInFlight = (w.processes i).quotaDataInFlight) (k : QuotaKey)
    (c : Column) : (w.setProcess i p).amount k c = w.amount k c := by
  rw [amount_setProcess]
  unfold held
  rw [hcache, hinFlight]
  ring

section
variable (hw : Inv uuid w) (hsave : (w.processes i).save = some save)
include hw hsave

theorem fail_spec (err : String) :
    Keeps uuid w (w.setProcess i { w.processes i with save := some (save.fail err) }) := by
  refine ⟨hw.setProcess_of_sublist i hsave rfl ?_ ?_, amount_of_maps rfl rfl⟩
  · rintro save' hs op hop
    cases hs
    exact hop
  · rintro save' hs
    cases hs
    exact trivial

theorem query_spec (h : (w.processes i).query w.db save = some p) :
    Keeps uuid w (w.setProcess i p) := by
  unfold Process.query at h
  split at h
  · rename_i text rest hstage hkeys
    cases he : (w.processes i).quotaDataInFlight.get? text with
    | none =>
      rw [he] at h
      cases h
      exact fail_spec hw hsave _
    | some entry =>
      rw [he] at h
      cases h
      refine ⟨hw.setProcess_of_sublist i hsave rfl ?_ ?_, amount_of_maps rfl rfl⟩
      · rintro save' hs op hop
        cases hs
        exact hop
      · rintro save' hs
        cases hs
        exact ⟨⟨text, rest, hkeys, he⟩, fun id hid => findQuotaData_spec hid⟩
  · cases h

theorem confirm_spec (h : (w.processes i).confirm save = some p) :
    Keeps uuid w (w.setProcess i p) := by
  unfold Process.confirm at h
  split at h
  · cases h
    exact fail_spec hw hsave _
  · rename_i operationID text rest hstage hkeys
    split_ifs at h with hsame
    · cases h
      obtain ⟨e, he, rfl⟩ := map_eq_some_iff.1 hsame
      have hcommitted : committed w.db e.operationID = true := by
        have hok := hw.stage i save hsave
        unfold StageOk at hok
        rw [hstage] at hok
        exact hok.2 rfl
      refine ⟨hw.setProcess i ?_ ?_ ?_, fun k c => ?_⟩
      · intro text' e' he'
        rw [get?_erase] at he'
        split_ifs at he'
        exact he'
      · intro save' hs op hop
        cases hs
        -- what is in flight afterwards was in flight before, under another text
        have hbefore : ∀ j text' e', ((w.setProcess i { w.processes i with
            quotaDataInFlight := (w.processes i).quotaDataInFlight.erase text
            save := some { save with
              keys := save.keys.tail
              stage := .next
              confirmedOperationIDs := save.confirmedOperationIDs ++ [e.operationID] }
            }).processes j).quotaDataInFlight.get? text' = some e' →
            (w.processes j).quotaDataInFlight.get? text' = some e' ∧ ¬ (j = i ∧ text' = text) := by
          intro j text' e' he'
          by_cases hj : j = i
          · subst hj
            rw [setProcess_processes_self, get?_erase] at he'
            split_ifs at he' with htext
            exact ⟨he', fun hboth => htext hboth.2⟩
          · rw [setProcess_processes_of_ne _ _ hj] at he'
            exact ⟨he', fun hboth => hj hboth.1⟩
        rcases mem_append.1 hop with hop | hop
        · obtain ⟨hn, hnot⟩ := hw.confirmed i save hsave op hop
          exact ⟨hn, fun j text' e' he' => hnot j text' e' (hbefore j text' e' he').1⟩
        · obtain rfl := List.mem_singleton.1 hop
          refine ⟨hw.drawn i text e he, fun j text' e' he' heq => ?_⟩
          obtain ⟨hold, hne⟩ := hbefore j text' e' he'
          exact hne (hw.distinct j i text' text e' e hold he heq)
      · intro save' hs
        cases hs
        exact trivial
      · have hzero : pending w.db k c e = 0 := by
          unfold pending
          rw [if_pos hcommitted]
        rw [amount_setProcess]
        unfold held
        rw [sum_erase he, hzero]
        ring
    · cases h
      exact fail_spec hw hsave _
  · cases h

end

/-! ## Every step -/

theorem step_spec (huuid : uuid.Injective) (hw : Inv uuid w)
    (h : step uuid payloadHash w a = some w') :
    Inv uuid w' ∧ ∀ k c, w'.amount k c = w.amount k c + credited w k c a := by
  have hzero : ∀ w'' : World ι, (∀ k c, credited w k c a = 0) → Keeps uuid w w'' →
      Inv uuid w'' ∧ ∀ k c, w''.amount k c = w.amount k c + credited w k c a := by
    rintro w'' hc ⟨hw'', hamount⟩
    exact ⟨hw'', fun k c => by rw [hamount, hc, add_zero]⟩
  cases a with
  | logQuotaData i call =>
    cases h
    exact logQuotaData_spec hw i call
  | begin i =>
    refine hzero w' (fun _ _ => rfl) ?_
    rw [step] at h
    cases hsave : (w.processes i).save with
    | some save =>
      rw [hsave] at h
      cases h
    | none =>
      rw [hsave] at h
      cases h
      exact begin_spec huuid hw hsave
  | query i =>
    refine hzero w' (fun _ _ => rfl) ?_
    rw [step] at h
    split at h
    · rename_i save hsave
      obtain ⟨p, hp, rfl⟩ := map_eq_some_iff.1 h
      exact query_spec hw hsave hp
    · cases h
  | save i commit lookupFails =>
    refine hzero w' (fun _ _ => rfl) ?_
    rw [step] at h
    split at h
    · rename_i save hsave
      split at h
      · rename_i entry existing hstage
        generalize hsaved : saveQuotaData payloadHash w.db w.now entry.operationID entry.data existing
          commit lookupFails = r at h
        obtain rfl := some.inj h
        exact save_spec huuid hw hsave hstage commit lookupFails hsaved
      · cases h
    · cases h
  | confirm i =>
    refine hzero w' (fun _ _ => rfl) ?_
    rw [step] at h
    split at h
    · rename_i save hsave
      obtain ⟨p, hp, rfl⟩ := map_eq_some_iff.1 h
      exact confirm_spec hw hsave hp
    · cases h
  | cleanup i commit =>
    refine hzero w' (fun _ _ => rfl) ?_
    rw [step] at h
    split at h
    · rename_i save hsave
      split_ifs at h
      cases h
      exact cleanup_spec hw hsave commit
    · cases h
  | finish i =>
    refine hzero w' (fun _ _ => rfl) ?_
    rw [step] at h
    split at h
    · rename_i save hsave
      split_ifs at h
      cases h
      exact ⟨hw.setProcess_of_sublist i hsave rfl (by simp) (by simp), amount_of_maps rfl rfl⟩
    · cases h
  | tick seconds =>
    cases h
    exact hzero _ (fun _ _ => rfl)
      ⟨⟨hw.drawn, hw.distinct, hw.fresh, hw.result, hw.confirmed, hw.stage⟩, fun _ _ => rfl⟩

/-- The books agree with the calls for every key whose username has no NUL. -/
def Balanced (w : World ι) (t : QuotaKey → Column → ℤ) : Prop :=
  ∀ k, '\x00' ∉ k.username.toList → ∀ c, w.amount k c = t k c

/-- A step from a balanced state leads to a balanced state exactly when it merges no call into an
entry of another key. -/
theorem balanced_step_iff (huuid : uuid.Injective) (hw : Inv uuid w) {t : QuotaKey → Column → ℤ}
    (hbalanced : Balanced w t) (h : step uuid payloadHash w a = some w') :
    Balanced w' (fun k c => t k c + a.logged k c) ↔ MergesOwn w a := by
  have hamount := (step_spec huuid hw h).2
  have hiff : Balanced w' (fun k c => t k c + a.logged k c) ↔
      ∀ k, '\x00' ∉ k.username.toList → ∀ c, credited w k c a = a.logged k c := by
    refine forall₃_congr fun k hk c => ?_
    rw [hamount, hbalanced k hk c]
    exact ⟨fun heq => add_left_cancel heq, fun heq => by rw [heq]⟩
  rw [hiff]
  cases a with
  | logQuotaData i call =>
    unfold credited Label.logged MergesOwn share
    dsimp only
    cases hd : (w.processes i).cacheQuotaData.get? (quotaDataCacheKey (key call.entry)) with
    | none => exact ⟨nofun, fun _ _ _ _ => rfl⟩
    | some d =>
      rw [elim_some]
      constructor
      · rintro hall d' hd'
        cases hd'
        by_contra hnot
        rw [not_or] at hnot
        obtain ⟨hne, hnul⟩ := hnot
        -- one of the two keys has no NUL in its username, and the counts of that key differ
        by_cases hleft : '\x00' ∈ (key d).username.toList
        · have hright : '\x00' ∉ (key call.entry).username.toList := fun hr => hnul ⟨hleft, hr⟩
          have hcount := hall (key call.entry) hright .count
          rw [if_neg hne, if_pos rfl] at hcount
          exact zero_ne_one hcount
        · have hcount := hall (key d) hleft .count
          rw [if_pos rfl, if_neg (Ne.symm hne)] at hcount
          exact one_ne_zero hcount
      · intro hown k hk c
        rcases hown d rfl with heq | ⟨hleft, hright⟩
        · rw [heq]
        · have hd' : key d ≠ k := fun he => hk (he ▸ hleft)
          have hcall : key call.entry ≠ k := fun he => hk (he ▸ hright)
          rw [if_neg hd', if_neg hcall]
  | _ => exact ⟨fun _ => trivial, fun _ _ _ _ => rfl⟩

/-! ## Texts without NUL -/

omit [Fintype ι] [DecidableEq ι] in
theorem nul_notMem_toString (n : ℤ) : '\x00' ∉ (toString n).toList :=
  notMem_toString (by decide) (by decide) n

omit [Fintype ι] [DecidableEq ι] in
/-- The texts that follow the username have no NUL. -/
def NulFree (k : QuotaKey) : Prop :=
  '\x00' ∉ k.modelName.toList ∧ '\x00' ∉ k.group.toList ∧ '\x00' ∉ k.billingSource.toList

omit [Fintype ι] [DecidableEq ι] in
theorem quotaDataCacheKey_inj {k k' : QuotaKey} (hk : NulFree k) (hk' : NulFree k')
    (h : quotaDataCacheKey k = quotaDataCacheKey k') : k = k' := by
  obtain ⟨hmodel, hgroup, hsource⟩ := hk
  obtain ⟨hmodel', hgroup', hsource'⟩ := hk'
  have hlist := congrArg String.toList h
  unfold quotaDataCacheKey at hlist
  have hsep : ("\x00" : String).toList = ['\x00'] := by decide
  simp only [String.toList_append, hsep, List.append_assoc, List.cons_append, List.nil_append]
    at hlist
  obtain ⟨huser, hlist⟩ := eq_of_append_sep_left (nul_notMem_toString _) (nul_notMem_toString _)
    hlist
  -- the columns after the username are read off from the right
  have hassoc : ∀ u m g s t : List Char,
      u ++ '\x00' :: (m ++ '\x00' :: (g ++ '\x00' :: (s ++ '\x00' :: t))) =
        u ++ '\x00' :: m ++ '\x00' :: g ++ '\x00' :: s ++ '\x00' :: t := by
    intro u m g s t
    simp
  rw [hassoc, hassoc] at hlist
  obtain ⟨hlist, htime⟩ := eq_of_append_sep_right (nul_notMem_toString _) (nul_notMem_toString _)
    hlist
  obtain ⟨hlist, hsources⟩ := eq_of_append_sep_right hsource hsource' hlist
  obtain ⟨hlist, hgroups⟩ := eq_of_append_sep_right hgroup hgroup' hlist
  obtain ⟨hname, hmodels⟩ := eq_of_append_sep_right hmodel hmodel' hlist
  cases k
  cases k'
  rw [QuotaKey.mk.injEq]
  exact ⟨toString_int_injective (String.toList_injective huser), String.toList_injective hname,
    String.toList_injective hmodels, String.toList_injective hgroups,
    String.toList_injective hsources, toString_int_injective (String.toList_injective htime)⟩

/-- What is in a cache comes from a call without NUL. -/
structure CacheOk (w : World ι) : Prop where
  text : ∀ i text d, (w.processes i).cacheQuotaData.get? text = some d →
    quotaDataCacheKey (key d) = text
  nulFree : ∀ i text d, (w.processes i).cacheQuotaData.get? text = some d → NulFree (key d)

/-- The model, the group and the billing source of a call have no NUL. -/
def Label.NulFree : Label ι → Prop
  | .logQuotaData _ call => Dashboard.NulFree (key call.entry)
  | _ => True

instance (k : QuotaKey) : Decidable (NulFree k) := inferInstanceAs (Decidable (_ ∧ _ ∧ _))

instance : ∀ a : Label ι, Decidable a.NulFree
  | .logQuotaData _ call => inferInstanceAs (Decidable (Dashboard.NulFree (key call.entry)))
  | .begin _ | .query _ | .save _ _ _ | .confirm _ | .cleanup _ _ | .finish _ | .tick _ =>
    .isTrue trivial

omit [Fintype ι] in
theorem CacheOk.setProcess (hw : CacheOk w) {drawn : ℕ}
    (h : ∀ text d, p.cacheQuotaData.get? text = some d →
      quotaDataCacheKey (key d) = text ∧ Dashboard.NulFree (key d)) :
    CacheOk ({ w with db, drawn }.setProcess i p) := by
  have hall : ∀ j text d, (({ w with db, drawn }.setProcess i p).processes j).cacheQuotaData.get?
      text = some d → quotaDataCacheKey (key d) = text ∧ Dashboard.NulFree (key d) := by
    intro j text d hd
    by_cases hj : j = i
    · subst hj
      rw [setProcess_processes_self] at hd
      exact h text d hd
    · rw [setProcess_processes_of_ne _ _ hj] at hd
      exact ⟨hw.text j text d hd, hw.nulFree j text d hd⟩
  exact ⟨fun j text d hd => (hall j text d hd).1, fun j text d hd => (hall j text d hd).2⟩

theorem cacheQuotaData_foldl_move {uuid : ℕ → String} {rows : List (String × QuotaData)}
    {s : Process × ℕ} {d : QuotaData}
    (h : (rows.foldl (moveToInFlight uuid) s).1.cacheQuotaData.get? text = some d) :
    s.1.cacheQuotaData.get? text = some d := by
  induction rows generalizing s with
  | nil => exact h
  | cons row rows ih =>
    have hmoved := ih h
    unfold moveToInFlight at hmoved
    split at hmoved
    · exact hmoved
    · rw [get?_erase] at hmoved
      split_ifs at hmoved
      exact hmoved

theorem mergeQuotaDataCacheEntry_get? {cache : Table String QuotaData} {text' : String}
    {incoming d : QuotaData}
    (h : (mergeQuotaDataCacheEntry cache text incoming).get? text' = some d) :
    (∃ d', cache.get? text' = some d' ∧ key d' = key d) ∨ text' = text ∧ d = incoming := by
  unfold mergeQuotaDataCacheEntry at h
  cases hget : cache.get? text with
  | none =>
    rw [hget] at h
    rw [get?_put] at h
    split_ifs at h with htext
    · exact .inr ⟨htext, (some.inj h).symm⟩
    · exact .inl ⟨d, h, rfl⟩
  | some d₀ =>
    rw [hget] at h
    rw [get?_modify] at h
    split_ifs at h with htext
    · obtain ⟨d', hd', rfl⟩ := map_eq_some_iff.1 h
      exact .inl ⟨d', hd', rfl⟩
    · exact .inl ⟨d, h, rfl⟩

omit [Fintype ι] in
theorem CacheOk.step (hw : CacheOk w) (ha : a.NulFree) (h : step uuid payloadHash w a = some w') :
    CacheOk w' := by
  have hold : ∀ i text d, (w.processes i).cacheQuotaData.get? text = some d →
      quotaDataCacheKey (key d) = text ∧ Dashboard.NulFree (key d) :=
    fun i text d hd => ⟨hw.text i text d hd, hw.nulFree i text d hd⟩
  cases a with
  | logQuotaData i call =>
    cases h
    refine hw.setProcess fun text d hd => ?_
    rcases mergeQuotaDataCacheEntry_get? hd with ⟨d', hd', hkey⟩ | ⟨rfl, rfl⟩
    · exact hkey ▸ hold i text d' hd'
    · exact ⟨rfl, ha⟩
  | begin i =>
    rw [Dashboard.step] at h
    split at h
    · cases h
    · cases h
      exact hw.setProcess fun text d hd => hold i text d (cacheQuotaData_foldl_move hd)
  | query i =>
    rw [Dashboard.step] at h
    split at h
    · obtain ⟨p, hp, rfl⟩ := map_eq_some_iff.1 h
      have hcache : p.cacheQuotaData = (w.processes i).cacheQuotaData := by
        unfold Process.query at hp
        split at hp
        · split at hp <;> exact some.inj hp ▸ rfl
        · cases hp
      exact hw.setProcess fun text d hd => hold i text d (hcache ▸ hd)
    · cases h
  | save i commit lookupFails =>
    rw [Dashboard.step] at h
    split at h
    · split at h
      · cases h
        exact hw.setProcess (hold i)
      · cases h
    · cases h
  | confirm i =>
    rw [Dashboard.step] at h
    split at h
    · obtain ⟨p, hp, rfl⟩ := map_eq_some_iff.1 h
      have hcache : p.cacheQuotaData = (w.processes i).cacheQuotaData := by
        unfold Process.confirm at hp
        split at hp
        · exact some.inj hp ▸ rfl
        · split_ifs at hp <;> exact some.inj hp ▸ rfl
        · cases hp
      exact hw.setProcess fun text d hd => hold i text d (hcache ▸ hd)
    · cases h
  | cleanup i commit =>
    rw [Dashboard.step] at h
    split at h
    · split_ifs at h
      cases h
      cases commit <;> exact hw.setProcess (hold i)
    · cases h
  | finish i =>
    rw [Dashboard.step] at h
    split at h
    · split_ifs at h
      cases h
      exact hw.setProcess (hold i)
    · cases h
  | tick seconds =>
    cases h
    exact ⟨hw.text, hw.nulFree⟩

omit [Fintype ι] [DecidableEq ι] in
theorem CacheOk.mergesOwn (hw : CacheOk w) (ha : a.NulFree) : MergesOwn w a := by
  cases a with
  | logQuotaData i call =>
    intro d hd
    exact .inl (quotaDataCacheKey_inj (hw.nulFree i _ d hd) ha (hw.text i _ d hd))
  | _ => trivial

/-! ## Every run -/

omit [Fintype ι] [DecidableEq ι] in
theorem inv_start (now : ℤ)
    (hfresh : ∀ n, db.flushOperationLedgers.get? (newQuotaOperationID uuid n) = none) :
    Inv uuid ({ db, now } : World ι) where
  drawn := by simp
  distinct := by simp
  fresh := fun n _ => hfresh n
  result := by
    intro n ledger hledger
    rw [show _ = _ from hfresh n] at hledger
    cases hledger
  confirmed := by simp
  stage := by simp

omit [Fintype ι] [DecidableEq ι] in
theorem foldl_logged (t : QuotaKey → Column → ℤ) (l : List (Label ι)) (k : QuotaKey) (c : Column) :
    l.foldl (fun t a k c => t k c + Label.logged k c a) t k c =
      t k c + (l.map (Label.logged k c)).sum := by
  induction l generalizing t with
  | nil => simp
  | cons a l ih => rw [List.foldl_cons, ih, List.map_cons, List.sum_cons, add_assoc]

/-- In every state the rows, the caches and the entries in flight add up to the calls, for every key whose
username has no NUL, exactly when no call is merged into an entry of another key.  Operation ids are drawn
once, and none is the id of a row at the start. -/
theorem quota_data_counted_once_iff {payloadHash : QuotaData → String} (huuid : uuid.Injective)
    {db : Db} {now : ℤ}
    (hfresh : ∀ n, db.flushOperationLedgers.get? (newQuotaOperationID uuid n) = none)
    {l : List (Label ι)} {w' : World ι}
    (h : Run.run (step uuid payloadHash) { db, now } l = some w') :
    ((∀ before after, l = before ++ after →
      ∀ w, Run.run (step uuid payloadHash) { db, now } before = some w →
        ∀ k, '\x00' ∉ k.username.toList → ∀ c,
          w.amount k c = stored db k c + (before.map (Label.logged k c)).sum) ↔
      Run.Along (step uuid payloadHash) MergesOwn { db, now } l) ∧
    ((∀ a ∈ l, a.NulFree) → Run.Along (step uuid payloadHash) MergesOwn { db, now } l) := by
  have hstart : Inv uuid ({ db, now } : World ι) := inv_start now hfresh
  have hbalanced : Balanced ({ db, now } : World ι) (fun k c => stored db k c) := by
    intro k _ c
    unfold amount held
    simp
  constructor
  · have hinv : ∀ (w : World ι) a w', Inv uuid w → step uuid payloadHash w a = some w' →
        Inv uuid w' := fun _ _ _ hi hs => (step_spec huuid hi hs).1
    have hone : ∀ (w : World ι) t a w', Inv uuid w → Balanced w t →
        step uuid payloadHash w a = some w' →
          (Balanced w' (fun k c => t k c + Label.logged k c a) ↔ MergesOwn w a) :=
      fun _ _ _ _ hi hP hs => balanced_step_iff huuid hi hP hs
    have hbooks := Run.forall_prefix_iff_along hinv hone hstart hbalanced h
    rw [← hbooks]
    refine forall₅_congr fun before after _ w _ => forall₃_congr fun k _ c => ?_
    rw [foldl_logged]
  · intro hnul
    have hcache : CacheOk ({ db, now } : World ι) :=
      ⟨fun _ _ _ hd => (by cases hd), fun _ _ _ hd => (by cases hd)⟩
    exact Run.along_of_invariant (fun _ _ _ hw ha hs => hw.step ha hs)
      (fun _ _ hw ha => hw.mergesOwn ha) hcache (Run.along_of_forall hnul)

end System

def unaryUuid (n : ℕ) : String := String.ofList (List.replicate n 'a')

theorem unaryUuid_injective : unaryUuid.Injective := by
  intro n m h
  simpa using congrArg List.length (ofList_injective h)

/-- The key of the calls of `ambiguousSave`. -/
def amyKey : QuotaKey := ⟨7, "amy", "gpt-4o", "default", "wallet", 7200⟩

def amyCall (quota tokenUsed : ℤ) : LogCall :=
  ⟨7, "amy", "gpt-4o", "default", "wallet", quota, 7205, tokenUsed⟩

/-- The digests of the two entries of `ambiguousSave`. -/
def amyHash (quotaData : QuotaData) : String :=
  if quotaData.quota = 5 then "e91ab3b4bdc366eb82615dd4946b33d49d1b3987e2584bdb950afdf256cdb6d8"
  else "e32e839c14688461facd5f5e0e910107228922207b32c3c6da660c30f8a7af06"

/-- Two processes save one key at once, and both insert a row.  The commit and the lookup of the first
report failure, another call arrives, and the next save replays the operation. -/
def ambiguousSave : List (Label Bool) :=
  [.logQuotaData false (amyCall 5 4), .logQuotaData true (amyCall 7 2), .begin false, .begin true,
    .query false, .query true, .save false (.committedUnreported "connection reset") true,
    .save true .committed false, .confirm false, .confirm true,
    .logQuotaData false (amyCall 5 4), .finish false, .cleanup true .committed, .finish true,
    .begin false, .query false, .save false .committed false, .confirm false,
    .cleanup false .committed, .finish false]

/-- After `ambiguousSave` the three calls are counted once each. -/
theorem counted_once_of_ambiguousSave :
    ∃ w, Run.run (step unaryUuid amyHash) ({} : World Bool) ambiguousSave = some w ∧
      w.db.quotaData.rows.length = 2 ∧ w.amount amyKey .count = 3 ∧ w.amount amyKey .quota = 17 := by
  have hnul : ∀ a ∈ ambiguousSave, a.NulFree := by decide +kernel
  have hfresh : ∀ n, ({} : Db).flushOperationLedgers.get? (newQuotaOperationID unaryUuid n) = none :=
    fun _ => rfl
  refine exists_some_imp (p := fun w => w.db.quotaData.rows.length = 2) (by decide +kernel)
    fun w hw hrows => ?_
  have htheorem := quota_data_counted_once_iff unaryUuid_injective hfresh hw
  have hbooks := htheorem.1.2 (htheorem.2 hnul) ambiguousSave [] (append_nil _).symm w hw amyKey
    (by decide)
  refine ⟨hrows, ?_, ?_⟩
  · rw [hbooks .count]
    decide +kernel
  · rw [hbooks .quota]
    decide +kernel

/-- Two calls with NUL in the model or the group share an entry: the second key has been asked for
once and is counted nowhere. -/
theorem quota_data_shared_entry :
    ∃ w, Run.run (step unaryUuid amyHash) ({} : World Bool)
        [.logQuotaData false ⟨7, "amy", "a\x00b", "c", "wallet", 5, 7205, 4⟩,
          .logQuotaData false ⟨7, "amy", "a", "b\x00c", "wallet", 7, 7205, 2⟩] = some w ∧
      '\x00' ∉ ("amy" : String).toList ∧
      w.amount ⟨7, "amy", "a", "b\x00c", "wallet", 7200⟩ .count = 0 ∧
      (([.logQuotaData false ⟨7, "amy", "a\x00b", "c", "wallet", 5, 7205, 4⟩,
          .logQuotaData false ⟨7, "amy", "a", "b\x00c", "wallet", 7, 7205, 2⟩] :
            List (Label Bool)).map
        (Label.logged ⟨7, "amy", "a", "b\x00c", "wallet", 7200⟩ .count)).sum = 1 := by
  refine ⟨_, rfl, ?_, ?_, ?_⟩
  · decide
  · decide +kernel
  · decide +kernel

end BeeApi.Dashboard
