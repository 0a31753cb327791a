import BeeApi.LogMigration.Restore

/-!
# The restore writes every event once

A ledger row and the log it names are committed together, and an event is in the ledger of at most one
transaction at a time.  So the logs that the restores have written are in bijection with the events in
the ledger.  Every state that is around has all events up to its cursor in the ledger.
-/

namespace BeeApi.LogMigration

open Window List Table

/-! ## One total order -/

def eventKey (row : LogRow) : ℤ ×ₗ String := toLex (row.createdAt, row.eventID)

def EventCursor.key (c : EventCursor) : ℤ ×ₗ String := toLex (c.createdAt, c.eventID)

theorem compareEventCursor_pos_iff (l r : EventCursor) :
    0 < compareEventCursor l r ↔ r.key < l.key := by
  unfold compareEventCursor EventCursor.key
  rw [Prod.Lex.toLex_lt_toLex]
  split_ifs with hlt hgt heq hid
  · exact iff_of_false (by decide) (by rintro (h | ⟨h, -⟩) <;> omega)
  · exact iff_of_true one_pos (.inl hgt)
  · rw [heq]
    exact iff_of_false (lt_irrefl 0) (by rintro (h | ⟨-, h⟩); exacts [hgt h, lt_irrefl _ h])
  · exact iff_of_false (by decide) (by rintro (h | ⟨-, h⟩); exacts [hgt h, lt_asymm h hid])
  · exact iff_of_true one_pos (.inr ⟨by omega, lt_of_le_of_ne (not_lt.1 hid) (Ne.symm heq)⟩)

theorem compareEventCursor_neg_iff (l r : EventCursor) :
    compareEventCursor l r < 0 ↔ l.key < r.key := by
  unfold compareEventCursor EventCursor.key
  rw [Prod.Lex.toLex_lt_toLex]
  split_ifs with hlt hgt heq hid
  · exact iff_of_true (by decide) (.inl hlt)
  · exact iff_of_false (by decide) (by rintro (h | ⟨h, -⟩) <;> omega)
  · rw [heq]
    exact iff_of_false (lt_irrefl 0) (by rintro (h | ⟨-, h⟩); exacts [hlt h, lt_irrefl _ h])
  · exact iff_of_true (by decide) (.inr ⟨by omega, hid⟩)
  · exact iff_of_false (by decide) (by rintro (h | ⟨-, h⟩); exacts [hlt h, hid h])

theorem RestoreState.complete_iff (s : RestoreState) :
    s.complete = true ↔ s.highWater.key ≤ s.cursor.key := by
  unfold RestoreState.complete
  rw [decide_eq_true_iff, ge_iff_le, ← not_lt, compareEventCursor_neg_iff, not_lt]

theorem eventOrder_iff (r s : LogRow) : eventOrder r s = true ↔ eventKey r ≤ eventKey s := by
  unfold eventOrder eventKey
  rw [Prod.Lex.toLex_le_toLex, Bool.or_eq_true, Bool.and_eq_true]
  simp only [decide_eq_true_eq]

/-- The rows of a query in the order of the batches. -/
def sorted (rows : List LogRow) : List LogRow :=
  rows.insertionSort fun row row' => eventOrder row row'

theorem sorted_perm (rows : List LogRow) : (sorted rows).Perm rows := perm_insertionSort _ _

def events (clickHouse : List LogRow) : List LogRow :=
  sorted (clickHouse.filter fun row => !isLegacy row)

variable {clickHouse : List LogRow}

theorem mem_events {row : LogRow} :
    row ∈ events clickHouse ↔ row ∈ clickHouse ∧ isLegacy row = false := by
  rw [events, (sorted_perm _).mem_iff, mem_filter, Bool.not_eq_true']

theorem ascending_sorted {rows : List LogRow} (h : (rows.map LogRow.eventID).Nodup) :
    Ascending eventKey (sorted rows) := by
  have : Std.Total fun row row' => eventOrder row row' = true :=
    ⟨fun r s => (le_total (eventKey r) (eventKey s)).imp (eventOrder_iff r s).2 (eventOrder_iff s r).2⟩
  have : IsTrans LogRow fun row row' => eventOrder row row' = true :=
    ⟨fun r s t hrs hst => (eventOrder_iff r t).2
      (((eventOrder_iff r s).1 hrs).trans ((eventOrder_iff s t).1 hst))⟩
  have hsorted := pairwise_insertionSort (fun row row' => eventOrder row row' = true) rows
  have hnodup : ((sorted rows).map LogRow.eventID).Nodup := ((sorted_perm rows).map _).nodup_iff.2 h
  refine (hsorted.and (pairwise_map.1 hnodup)).imp fun {r s} hrs => ?_
  refine lt_of_le_of_ne ((eventOrder_iff r s).1 hrs.1) fun heq => hrs.2 ?_
  exact congrArg Prod.snd (toLex_inj.1 heq)

theorem nodup_filter (h : (clickHouse.map LogRow.eventID).Nodup) (p : LogRow → Bool) :
    ((clickHouse.filter p).map LogRow.eventID).Nodup :=
  h.sublist (filter_sublist.map _)

theorem ascending_events (h : (clickHouse.map LogRow.eventID).Nodup) :
    Ascending eventKey (events clickHouse) :=
  ascending_sorted (nodup_filter h _)

/-- The window predicate of the query, in the order of the batches. -/
theorem clickHouseEventWindow_eq (clickHouse : List LogRow) (after highWater : EventCursor) :
    clickHouseEventWindow clickHouse after highWater =
      between eventKey after.key highWater.key (clickHouse.filter fun row => !isLegacy row) := by
  unfold clickHouseEventWindow between
  rw [filter_filter]
  refine filter_congr fun row _ => ?_
  rw [Bool.eq_iff_iff]
  simp only [Bool.and_eq_true, Bool.or_eq_true, decide_eq_true_eq, gt_iff_lt]
  unfold eventKey EventCursor.key
  rw [Prod.Lex.toLex_lt_toLex, Prod.Lex.toLex_le_toLex]
  constructor
  · rintro ⟨⟨hlegacy, hafter⟩, hmark⟩
    exact ⟨⟨hafter.imp_right fun h => ⟨h.1.symm, h.2⟩, hmark⟩, hlegacy⟩
  · rintro ⟨⟨hafter, hmark⟩, hlegacy⟩
    exact ⟨⟨hlegacy, hafter.imp_right fun h => ⟨h.1.symm, h.2⟩⟩, hmark⟩

theorem loadClickHouseEventBatch_eq (h : (clickHouse.map LogRow.eventID).Nodup)
    (after highWater : EventCursor) (limit : ℤ) :
    loadClickHouseEventBatch clickHouse after highWater limit =
      (between eventKey after.key highWater.key (events clickHouse)).take limit.toNat := by
  unfold loadClickHouseEventBatch
  congr 1
  -- both are sorted and list the same events
  have hperm : (sorted (clickHouseEventWindow clickHouse after highWater)).Perm
      (between eventKey after.key highWater.key (events clickHouse)) := by
    refine (sorted_perm _).trans ?_
    rw [clickHouseEventWindow_eq]
    exact ((sorted_perm _).symm).filter _
  have hleft : Ascending eventKey (sorted (clickHouseEventWindow clickHouse after highWater)) :=
    ascending_sorted (nodup_filter h _)
  have hright : Ascending eventKey
      (between eventKey after.key highWater.key (events clickHouse)) :=
    (ascending_events h).between
  exact hperm.eq_of_pairwise (fun r s _ _ hrs hsr => absurd hrs (lt_asymm hsr)) hleft hright

/-! ## Ledger and logs -/

section Pairs

variable {clickHouse : List LogRow} {others : List ℤ} {db written : RestoreDb}

/-- The ledger rows and the logs of `db`, those of others apart, belong together one by one. -/
structure Paired (clickHouse : List LogRow) (others : List ℤ) (db : RestoreDb) : Prop where
  named : ∀ e l, db.ledger.get? e = some l → ∃ row ∈ events clickHouse, row.eventID = e ∧
    db.logs.get? l.logID = some (toRelationalLogRow row)
  injective : ∀ e e' l l', db.ledger.get? e = some l → db.ledger.get? e' = some l' →
    l.logID = l'.logID → e = e'
  only : ∀ id r, db.logs.get? id = some r →
    id ∈ others ∨ ∃ e l, db.ledger.get? e = some l ∧ l.logID = id
  own : ∀ e l, db.ledger.get? e = some l → l.logID ∉ others
  others_mem : ∀ id ∈ others, db.logs.get? id ≠ none

/-- Two parts of the database have no ledger row and no log in common. -/
structure Apart (db db' : RestoreDb) : Prop where
  ledger : ∀ e, db.ledger.get? e = none ∨ db'.ledger.get? e = none
  logs : ∀ id, db.logs.get? id = none ∨ db'.logs.get? id = none

theorem Apart.symm {db db' : RestoreDb} (h : Apart db db') : Apart db' db :=
  ⟨fun e => (h.ledger e).symm, fun id => (h.logs id).symm⟩

theorem apart_empty (db : RestoreDb) : Apart {} db := ⟨fun _ => .inl rfl, fun _ => .inl rfl⟩

theorem paired_empty (clickHouse : List LogRow) : Paired clickHouse [] {} where
  named := fun _ _ h => (nomatch h)
  injective := fun _ _ _ _ h => (nomatch h)
  only := fun _ _ h => (nomatch h)
  own := fun _ _ h => (nomatch h)
  others_mem := fun _ h => (nomatch h)

theorem commit_ledger (db written : RestoreDb) (e : String) :
    (db.commit written).ledger.get? e = (written.ledger.get? e).or (db.ledger.get? e) :=
  get?_overlay _ _ _

theorem commit_logs (db written : RestoreDb) (id : ℤ) :
    (db.commit written).logs.get? id = (written.logs.get? id).or (db.logs.get? id) :=
  get?_overlay _ _ _

theorem Apart.commit {db' : RestoreDb} (h : Apart db db') (hw : Apart written db') :
    Apart (db.commit written) db' where
  ledger := by
    intro e
    rw [commit_ledger]
    rcases h.ledger e with hnone | hnone
    · rcases hw.ledger e with hwritten | hdb'
      · exact .inl (by rw [hwritten, hnone]; rfl)
      · exact .inr hdb'
    · exact .inr hnone
  logs := by
    intro id
    rw [commit_logs]
    rcases h.logs id with hnone | hnone
    · rcases hw.logs id with hwritten | hdb'
      · exact .inl (by rw [hwritten, hnone]; rfl)
      · exact .inr hdb'
    · exact .inr hnone

theorem commit_ledger_cases {e : String} {l : LedgerRow}
    (h : (db.commit written).ledger.get? e = some l) :
    written.ledger.get? e = some l ∨ db.ledger.get? e = some l := by
  rw [commit_ledger, Option.or_eq_some_iff] at h
  exact h.imp_right And.right

theorem Paired.commit (hdb : Paired clickHouse others db) (hw : Paired clickHouse [] written)
    (hapart : Apart written db) : Paired clickHouse others (db.commit written) := by
  have hwrittenLog : ∀ id r, written.logs.get? id = some r →
      (db.commit written).logs.get? id = some r := by
    intro id r hr
    rw [commit_logs, hr]
    rfl
  have hdbLog : ∀ id r, db.logs.get? id = some r → (db.commit written).logs.get? id = some r := by
    intro id r hr
    rw [commit_logs, (hapart.logs id).resolve_right (by rw [hr]; exact Option.some_ne_none r), hr]
    rfl
  have hdbLedger : ∀ e l, db.ledger.get? e = some l →
      (db.commit written).ledger.get? e = some l := by
    intro e l hl
    rw [commit_ledger, (hapart.ledger e).resolve_right (by rw [hl]; exact Option.some_ne_none l), hl]
    rfl
  -- a log of the transaction has no key that is in use
  have hcross : ∀ e e' l l', written.ledger.get? e = some l → db.ledger.get? e' = some l' →
      l.logID ≠ l'.logID := by
    intro e e' l l' hl hl' heq
    obtain ⟨row, -, -, hlog⟩ := hw.named e l hl
    obtain ⟨row', -, -, hlog'⟩ := hdb.named e' l' hl'
    rcases hapart.logs l.logID with hnone | hnone
    · rw [hnone] at hlog
      cases hlog
    · rw [heq, hlog'] at hnone
      cases hnone
  refine ⟨?_, ?_, ?_, ?_, ?_⟩
  · intro e l hl
    rcases commit_ledger_cases hl with hl | hl
    · obtain ⟨row, hrow, he, hlog⟩ := hw.named e l hl
      exact ⟨row, hrow, he, hwrittenLog _ _ hlog⟩
    · obtain ⟨row, hrow, he, hlog⟩ := hdb.named e l hl
      exact ⟨row, hrow, he, hdbLog _ _ hlog⟩
  · intro e e' l l' hl hl' heq
    rcases commit_ledger_cases hl with hl | hl <;> rcases commit_ledger_cases hl' with hl' | hl'
    · exact hw.injective e e' l l' hl hl' heq
    · exact absurd heq (hcross e e' l l' hl hl')
    · exact absurd heq.symm (hcross e' e l' l hl' hl)
    · exact hdb.injective e e' l l' hl hl' heq
  · intro id r hr
    rw [commit_logs, Option.or_eq_some_iff] at hr
    rcases hr with hr | ⟨-, hr⟩
    · obtain ⟨e, l, hl, hid⟩ := (hw.only id r hr).resolve_left not_mem_nil
      refine .inr ⟨e, l, ?_, hid⟩
      rw [commit_ledger, hl]
      rfl
    · refine (hdb.only id r hr).imp_right fun ⟨e, l, hl, hid⟩ => ⟨e, l, hdbLedger e l hl, hid⟩
  · intro e l hl hmem
    rcases commit_ledger_cases hl with hl | hl
    · obtain ⟨row, -, -, hlog⟩ := hw.named e l hl
      rcases hapart.logs l.logID with hnone | hnone
      · rw [hnone] at hlog
        cases hlog
      · exact hdb.others_mem _ hmem hnone
    · exact hdb.own e l hl hmem
  · intro id hid
    obtain ⟨r, hr⟩ := Option.ne_none_iff_exists'.1 (hdb.others_mem id hid)
    rw [hdbLog id r hr]
    exact Option.some_ne_none r

theorem restoreRow_cases {row : LogRow} {id n : ℤ} {written' : RestoreDb}
    (h : restoreRow db written row id = .ok (written', n)) :
    (written' = written ∧ ((db.ledger.get? row.eventID).isSome = true ∨
        (written.ledger.get? row.eventID).isSome = true)) ∨
    db.ledger.get? row.eventID = none ∧ written.ledger.get? row.eventID = none ∧
      (∀ e, written'.ledger.get? e = if e = row.eventID then
          some { logID := id, sourceCreatedAt := row.createdAt, restoredAt := row.createdAt }
        else written.ledger.get? e) ∧
      ∀ i, written'.logs.get? i =
        if i = id then some (toRelationalLogRow row) else written.logs.get? i := by
  unfold restoreRow reserveRestoreEvent at h
  split_ifs at h with hempty hdb
  · cases h
    exact .inl ⟨rfl, .inl hdb⟩
  · have hnone : db.ledger.get? row.eventID = none := Option.not_isSome_iff_eq_none.1 hdb
    cases hins : written.ledger.insert? row.eventID { sourceCreatedAt := row.createdAt } with
    | none =>
      rw [hins] at h
      cases h
      obtain ⟨l, hl⟩ := (mem_keys_iff _ _).1 ((insert?_eq_none_iff _ _ _).1 hins)
      exact .inl ⟨rfl, .inr (by rw [hl]; rfl)⟩
    | some ledger =>
      rw [hins] at h
      cases h
      refine .inr ⟨hnone, ((insert?_eq_some_iff _ _ _ _).1 hins).1, ?_, ?_⟩
      · intro e
        rw [get?_modify, get?_of_insert? hins]
        split_ifs <;> rfl
      · exact fun i => get?_put _ _ _ _

theorem Paired.restoreRow {row : LogRow} {id : ℤ} {written' : RestoreDb}
    (hw : Paired clickHouse [] written) (hrow : row ∈ events clickHouse)
    (hfresh : written.logs.get? id = none) (hnone : written.ledger.get? row.eventID = none)
    (hledger : ∀ e, written'.ledger.get? e = if e = row.eventID then
        some { logID := id, sourceCreatedAt := row.createdAt, restoredAt := row.createdAt }
      else written.ledger.get? e)
    (hlogs : ∀ i, written'.logs.get? i =
      if i = id then some (toRelationalLogRow row) else written.logs.get? i) :
    Paired clickHouse [] written' := by
  have hused : ∀ e l, written.ledger.get? e = some l → l.logID ≠ id := by
    intro e l hl heq
    obtain ⟨row', -, -, hlog⟩ := hw.named e l hl
    rw [heq, hfresh] at hlog
    cases hlog
  refine ⟨?_, ?_, ?_, fun _ _ _ => not_mem_nil, nofun⟩
  · intro e l hl
    rw [hledger] at hl
    split_ifs at hl with he
    · cases hl
      exact ⟨row, hrow, he.symm, by rw [hlogs, if_pos rfl]⟩
    · obtain ⟨row', hrow', he', hlog⟩ := hw.named e l hl
      exact ⟨row', hrow', he', by rw [hlogs, if_neg (hused e l hl)]; exact hlog⟩
  · intro e e' l l' hl hl' heq
    rw [hledger] at hl hl'
    split_ifs at hl with he <;> split_ifs at hl' with he'
    · rw [he, he']
    · cases hl
      exact absurd heq.symm (hused e' l' hl')
    · cases hl'
      exact absurd heq (hused e l hl)
    · exact hw.injective e e' l l' hl hl' heq
  · intro i r hr
    right
    rw [hlogs] at hr
    split_ifs at hr with hi
    · exact ⟨row.eventID, _, by rw [hledger, if_pos rfl], hi.symm⟩
    · obtain ⟨e, l, hl, hid⟩ := (hw.only i r hr).resolve_left not_mem_nil
      refine ⟨e, l, ?_, hid⟩
      rw [hledger, if_neg]
      · exact hl
      · rintro rfl
        rw [hnone] at hl
        cases hl

end Pairs

/-! ## The invariant -/

section Invariant

variable {clickHouse : List LogRow} {w w' : RestoreWorld} {db db' : RestoreDb}

def IsRestored (db : RestoreDb) (row : LogRow) : Prop := (db.ledger.get? row.eventID).isSome = true

/-- All events up to a place in the order are restored. -/
def Covered (clickHouse : List LogRow) (db : RestoreDb) (k : ℤ ×ₗ String) : Prop :=
  ∀ row ∈ events clickHouse, eventKey row ≤ k → IsRestored db row

def RestoreProcess.Knows (clickHouse : List LogRow) (db : RestoreDb) : RestoreProcess → Prop
  | .looping _ s | .committed _ s => Covered clickHouse db s.cursor.key
  | .restoring _ s rows todo written _ =>
    Covered clickHouse db s.cursor.key ∧
      ∃ last done, rows.getLast? = some last ∧ rows = done ++ todo ∧
        rows = between eventKey s.cursor.key (eventKey last) (events clickHouse) ∧
        ∀ row ∈ done, IsRestored db row ∨ IsRestored written row
  | .returned (.ok s) => s.complete = true ∧ Covered clickHouse db s.cursor.key
  | .returned (.error _) => True

structure RestoreInv (clickHouse : List LogRow) (w : RestoreWorld) : Prop where
  paired : Paired clickHouse w.others w.db
  written : ∀ p process, w.processes.get? p = some process →
    Paired clickHouse [] process.written ∧ Apart process.written w.db
  apart : ∀ p q process process', p ≠ q → w.processes.get? p = some process →
    w.processes.get? q = some process' → Apart process.written process'.written
  saved : ∀ s ∈ w.saved, Covered clickHouse w.db s.cursor.key
  knows : ∀ p process, w.processes.get? p = some process → process.Knows clickHouse w.db

def LedgerGrows (db db' : RestoreDb) : Prop := ∀ row, IsRestored db row → IsRestored db' row

theorem Covered.mono {k : ℤ ×ₗ String} (h : Covered clickHouse db k) (hgrow : LedgerGrows db db') :
    Covered clickHouse db' k := fun row hrow hk => hgrow row (h row hrow hk)

variable {process : RestoreProcess} {p : ℕ} {written : RestoreDb} {s : RestoreState}
  {n restored id : ℤ} {rows : List LogRow}

theorem RestoreProcess.Knows.mono (h : process.Knows clickHouse db) (hgrow : LedgerGrows db db') :
    process.Knows clickHouse db' := by
  cases process with
  | looping | committed => exact Covered.mono h hgrow
  | restoring n s rows todo written restored =>
    obtain ⟨hcover, last, done, hlast, hrows, hwindow, hdone⟩ := h
    exact ⟨hcover.mono hgrow, last, done, hlast, hrows, hwindow,
      fun row hrow => (hdone row hrow).imp_left (hgrow row)⟩
  | returned result =>
    cases result with
    | ok s => exact ⟨h.1, Covered.mono h.2 hgrow⟩
    | error e => trivial

theorem RestoreInv.put (h : RestoreInv clickHouse w) {saved : List RestoreState}
    (hpaired : Paired clickHouse [] process.written) (hdb : Apart process.written w.db)
    (hothers : ∀ q process', q ≠ p → w.processes.get? q = some process' →
      Apart process.written process'.written)
    (hsaved : ∀ s ∈ saved, Covered clickHouse w.db s.cursor.key)
    (hknows : process.Knows clickHouse w.db) :
    RestoreInv clickHouse { w with processes := w.processes.put p process, saved } where
  paired := h.paired
  written := forall_get?_put h.written ⟨hpaired, hdb⟩
  apart := by
    intro q r process₁ process₂ hne hq hr
    rw [get?_put] at hq hr
    split_ifs at hq with hqp <;> split_ifs at hr with hrp
    · exact absurd (hqp.trans hrp.symm) hne
    · cases hq
      exact hothers r process₂ hrp hr
    · cases hr
      exact (hothers q process₁ hqp hq).symm
    · exact h.apart q r process₁ process₂ hne hq hr
  saved := hsaved
  knows := forall_get?_put h.knows hknows

theorem RestoreInv.putClosed (h : RestoreInv clickHouse w) {saved : List RestoreState}
    (hclosed : process.written = {}) (hsaved : ∀ s ∈ saved, Covered clickHouse w.db s.cursor.key)
    (hknows : process.Knows clickHouse w.db) :
    RestoreInv clickHouse { w with processes := w.processes.put p process, saved } := by
  refine h.put ?_ ?_ ?_ hsaved hknows
  · rw [hclosed]
    exact paired_empty clickHouse
  · rw [hclosed]
    exact apart_empty _
  · intro q process' _ _
    rw [hclosed]
    exact apart_empty _

theorem isRestored_commit {row : LogRow} (h : IsRestored db row ∨ IsRestored written row) :
    IsRestored (db.commit written) row := by
  unfold IsRestored at h ⊢
  rw [commit_ledger, Option.isSome_or, Bool.or_eq_true]
  exact h.symm

theorem RestoreInv.commit (h : RestoreInv clickHouse w) {process' : RestoreProcess}
    (hp : w.processes.get? p = some process) (hclosed : process'.written = {})
    (hknows : process'.Knows clickHouse (w.db.commit process.written)) :
    RestoreInv clickHouse
      { w with
        db := w.db.commit process.written
        processes := w.processes.put p process' } := by
  obtain ⟨hpaired, hapart⟩ := h.written p process hp
  have hgrow : LedgerGrows w.db (w.db.commit process.written) := fun row hrow =>
    isRestored_commit (.inl hrow)
  refine ⟨h.paired.commit hpaired hapart, ?_, ?_, fun s hs => (h.saved s hs).mono hgrow, ?_⟩
  · intro q process₁ hq
    dsimp only at hq ⊢
    rw [get?_put] at hq
    split_ifs at hq with hqp
    · obtain rfl := Option.some.inj hq
      rw [hclosed]
      exact ⟨paired_empty clickHouse, apart_empty _⟩
    · refine ⟨(h.written q process₁ hq).1, Apart.symm ?_⟩
      exact (h.written q process₁ hq).2.symm.commit
        (h.apart p q process process₁ (Ne.symm hqp) hp hq)
  · intro q r process₁ process₂ hne hq hr
    rw [get?_put] at hq hr
    split_ifs at hq with hqp <;> split_ifs at hr with hrp
    · exact absurd (hqp.trans hrp.symm) hne
    · obtain rfl := Option.some.inj hq
      rw [hclosed]
      exact apart_empty _
    · obtain rfl := Option.some.inj hr
      rw [hclosed]
      exact (apart_empty _).symm
    · exact h.apart q r process₁ process₂ hne hq hr
  · exact forall_get?_put (fun q process₁ hq => (h.knows q process₁ hq).mono hgrow) hknows

/-! ## One step -/

/-- The event ids of the source are different and not empty. -/
structure Source (clickHouse : List LogRow) : Prop where
  nodup : (clickHouse.map LogRow.eventID).Nodup
  nonempty : ∀ row ∈ clickHouse, row.eventID ≠ ""

/-- The first window begins at the time zero. -/
def NonnegTimes (clickHouse : List LogRow) : Prop := ∀ row ∈ clickHouse, 0 ≤ row.createdAt

theorem RestoreInv.start (h : RestoreInv clickHouse w) (hs : Covered clickHouse w.db s.cursor.key)
    (hstep : w.start p n s = some w') : RestoreInv clickHouse w' := by
  unfold RestoreWorld.start at hstep
  split at hstep
  · cases hstep
    unfold restoreClickHouseRows
    split_ifs
    · exact h.putClosed rfl h.saved trivial
    · exact h.putClosed rfl h.saved trivial
    · exact h.putClosed rfl h.saved hs
  · cases hstep

theorem RestoreState.after_eq {last : LogRow} (h : rows.getLast? = some last) :
    s.after rows restored = { s with
        cursor := { createdAt := last.createdAt, eventID := last.eventID }
        rowsRestored := s.rowsRestored + restored } := by
  unfold RestoreState.after
  rw [h]

theorem loadClickHouseEventBatch_spec (hsource : Source clickHouse) {limit : ℤ} {last : LogRow}
    (h : (loadClickHouseEventBatch clickHouse s.cursor s.highWater limit).getLast? = some last) :
    loadClickHouseEventBatch clickHouse s.cursor s.highWater limit =
        between eventKey s.cursor.key (eventKey last) (events clickHouse) ∧
      last ∈ events clickHouse ∧ s.cursor.key < eventKey last ∧ eventKey last ≤ s.highWater.key := by
  rw [loadClickHouseEventBatch_eq hsource.nodup] at h ⊢
  exact take_between (ascending_events hsource.nodup) h

section
variable (h : RestoreInv clickHouse w)
include h

theorem RestoreInv.restoreRow {todo : List LogRow} {row : LogRow}
    {written' : RestoreDb} {restored' : ℤ} {k : ℤ}
    (hp : w.processes.get? p = some (.restoring n s rows (row :: todo) written restored))
    (hfresh : w.IsFresh id) (hheld : ¬ w.IsHeld p row.eventID)
    (hrow : LogMigration.restoreRow w.db written row id = .ok (written', k)) :
    RestoreInv clickHouse
      { w with
        processes := w.processes.put p (.restoring n s rows todo written' restored') } := by
  obtain ⟨hcover, last, done, hlast, hrows, hwindow, hdone⟩ := h.knows p _ hp
  obtain ⟨hpaired, hapart⟩ := h.written p _ hp
  have hothers : ∀ q process', q ≠ p → w.processes.get? q = some process' →
      Apart written process'.written := by
    intro q process' hne hq
    have hold := h.apart p q _ process' hne.symm hp hq
    exact hold
  have hmem : row ∈ events clickHouse := by
    have hin : row ∈ rows := hrows ▸ mem_append_right _ mem_cons_self
    rw [hwindow] at hin
    exact (mem_between.1 hin).1
  have hrows' : rows = (done ++ [row]) ++ todo := by
    rw [hrows, append_assoc, singleton_append]
  rcases restoreRow_cases hrow with ⟨rfl, hskip⟩ | ⟨hdb, hnone, hledger, hlogs⟩
  · refine h.put hpaired hapart hothers h.saved ⟨hcover, last, done ++ [row], hlast, hrows', hwindow, ?_⟩
    intro r hr
    rcases mem_append.1 hr with hr | hr
    · exact hdone r hr
    · rw [mem_singleton.1 hr]
      exact hskip
  · have hnewLedger : ∀ e, e ≠ row.eventID → written'.ledger.get? e = written.ledger.get? e :=
      fun e he => (hledger e).trans (if_neg he)
    have hnewLog : ∀ i, i ≠ id → written'.logs.get? i = written.logs.get? i :=
      fun i hi => (hlogs i).trans (if_neg hi)
    refine h.put ?_ ⟨?_, ?_⟩ ?_ h.saved ⟨hcover, last, done ++ [row], hlast, hrows', hwindow, ?_⟩
    · exact hpaired.restoreRow hmem (hfresh.2 p _ hp) hnone hledger hlogs
    · intro e
      by_cases he : e = row.eventID
      · rw [he]
        exact .inr hdb
      · show written'.ledger.get? e = none ∨ _
        rw [hnewLedger e he]
        exact hapart.ledger e
    · intro i
      by_cases hi : i = id
      · rw [hi]
        exact .inr hfresh.1
      · show written'.logs.get? i = none ∨ _
        rw [hnewLog i hi]
        exact hapart.logs i
    · intro q process' hne hq
      have hold := hothers q process' hne hq
      refine ⟨fun e => ?_, fun i => ?_⟩
      · by_cases he : e = row.eventID
        · rw [he]
          exact .inr ((not_not.1 hheld q process' hq).resolve_left hne)
        · show written'.ledger.get? e = none ∨ _
          rw [hnewLedger e he]
          exact hold.ledger e
      · by_cases hi : i = id
        · rw [hi]
          exact .inr (hfresh.2 q process' hq)
        · show written'.logs.get? i = none ∨ _
          rw [hnewLog i hi]
          exact hold.logs i
    · intro r hr
      unfold IsRestored
      by_cases he : r.eventID = row.eventID
      · exact .inr (by rw [hledger, if_pos he]; rfl)
      · rw [hnewLedger _ he]
        refine hdone r ((mem_append.1 hr).resolve_right fun hr => he ?_)
        rw [mem_singleton.1 hr]

theorem covered_after (hp : w.processes.get? p = some (.restoring n s rows [] written restored)) :
    Covered clickHouse (w.db.commit written) (s.after rows restored).cursor.key := by
  obtain ⟨hcover, last, done, hlast, hrows, hwindow, hdone⟩ := h.knows p _ hp
  rw [RestoreState.after_eq hlast]
  intro row hrow hle
  rcases le_or_gt (eventKey row) s.cursor.key with hold | hnew
  · exact isRestored_commit (.inl (hcover row hrow hold))
  · have hin : row ∈ rows := by
      rw [hwindow]
      exact mem_between.2 ⟨hrow, hnew, hle⟩
    rw [hrows, append_nil] at hin
    exact isRestored_commit (hdone row hin)

theorem RestoreInv.proceed (hsource : Source clickHouse)
    (hstep : w.proceed clickHouse p id = some w') : RestoreInv clickHouse w' := by
  unfold RestoreWorld.proceed at hstep
  cases hp : w.processes.get? p with
  | none => rw [hp] at hstep; cases hstep
  | some process =>
    rw [hp] at hstep
    cases process with
    | returned _ => cases hstep
    | looping n s =>
      have hcover : Covered clickHouse w.db s.cursor.key := h.knows p _ hp
      cases hstep
      split_ifs with hc
      · exact h.putClosed rfl h.saved ⟨hc, hcover⟩
      · cases hrows : loadClickHouseEventBatch clickHouse s.cursor s.highWater n with
        | nil => exact h.putClosed rfl h.saved trivial
        | cons row todo =>
          obtain ⟨last, hlast⟩ := Option.ne_none_iff_exists'.1
            (mt getLast?_eq_none_iff.1 (cons_ne_nil row todo))
          obtain ⟨hwindow, -⟩ := loadClickHouseEventBatch_spec hsource (by rw [hrows]; exact hlast)
          rw [hrows] at hwindow
          exact h.putClosed rfl h.saved
            ⟨hcover, last, [], hlast, rfl, hwindow, fun _ hr => (nomatch hr)⟩
    | restoring n s rows todo written restored =>
      cases todo with
      | nil =>
        cases hstep
        exact h.commit hp rfl (covered_after h hp)
      | cons row todo =>
        dsimp only at hstep
        split_ifs at hstep with hguard
        cases hrow : LogMigration.restoreRow w.db written row id with
        | error e =>
          rw [hrow] at hstep
          cases hstep
          exact h.putClosed rfl h.saved trivial
        | ok res =>
          obtain ⟨written', k⟩ := res
          rw [hrow] at hstep
          cases hstep
          exact h.restoreRow hp hguard.1 hguard.2 hrow
    | committed n s =>
      have hcover : Covered clickHouse w.db s.cursor.key := h.knows p _ hp
      cases hstep
      refine h.putClosed rfl (fun s' hs' => ?_) hcover
      rcases mem_cons.1 hs' with rfl | hs'
      · exact hcover
      · exact h.saved s' hs'

theorem RestoreInv.log {row : RelationalLogRow} (hfresh : w.IsFresh id) :
    RestoreInv clickHouse
      { w with
        db := { w.db with logs := w.db.logs.put id row }
        others := id :: w.others } := by
  have hused : ∀ i, w.db.logs.get? i ≠ none → i ≠ id := by
    rintro i hi rfl
    exact hi hfresh.1
  have hnamed : ∀ e l, w.db.ledger.get? e = some l → l.logID ≠ id := by
    intro e l hl
    obtain ⟨r, -, -, hlog⟩ := h.paired.named e l hl
    exact hused _ (by rw [hlog]; exact Option.some_ne_none _)
  refine ⟨⟨?_, h.paired.injective, ?_, ?_, ?_⟩, ?_, h.apart, h.saved, h.knows⟩
  · intro e l hl
    obtain ⟨r, hr, he, hlog⟩ := h.paired.named e l hl
    refine ⟨r, hr, he, ?_⟩
    show (w.db.logs.put id row).get? l.logID = _
    rw [get?_put, if_neg (hnamed e l hl)]
    exact hlog
  · intro i r hr
    rw [get?_put] at hr
    split_ifs at hr with hi
    · exact .inl (hi ▸ mem_cons_self)
    · exact (h.paired.only i r hr).imp_left (mem_cons_of_mem _)
  · intro e l hl hmem
    rcases mem_cons.1 hmem with heq | hmem
    · exact hnamed e l hl heq
    · exact h.paired.own e l hl hmem
  · intro i hi
    show (w.db.logs.put id row).get? i ≠ none
    rw [get?_put]
    split_ifs with heq
    · exact Option.some_ne_none row
    · exact h.paired.others_mem i ((mem_cons.1 hi).resolve_left heq)
  · intro p process hp
    obtain ⟨hpaired, hapart⟩ := h.written p process hp
    refine ⟨hpaired, hapart.ledger, fun i => ?_⟩
    show process.written.logs.get? i = none ∨ (w.db.logs.put id row).get? i = none
    rw [get?_put]
    split_ifs with hi
    · rw [hi]
      exact .inl (hfresh.2 p process hp)
    · exact hapart.logs i

theorem RestoreInv.step (hsource : Source clickHouse)
    (htimes : NonnegTimes clickHouse) {a : RestoreLabel}
    (hstep : restoreStep clickHouse w a = some w') : RestoreInv clickHouse w' := by
  unfold restoreStep at hstep
  cases a with
  | startNew p n highWater =>
    -- no event lies at or before the first cursor
    refine h.start (fun row hrow hle => ?_) hstep
    obtain ⟨hmem, -⟩ := mem_events.1 hrow
    rcases Prod.Lex.toLex_le_toLex.1 hle with hlt | ⟨-, hid⟩
    · exact absurd hlt (not_lt.2 (htimes row hmem))
    · refine absurd (le_antisymm hid ?_) (hsource.nonempty row hmem)
      refine not_lt.1 fun hlt => ?_
      exact absurd (String.lt_iff_toList_lt.1 hlt) (not_lt_nil _)
  | resume p n s =>
    dsimp only at hstep
    split_ifs at hstep with hs
    exact h.start (h.saved s hs) hstep
  | proceed p id => exact h.proceed hsource hstep
  | crash p =>
    cases hstep
    refine ⟨h.paired, forall_get?_erase h.written, ?_, h.saved, forall_get?_erase h.knows⟩
    intro q r process process' hne hq hr
    rw [get?_erase] at hq hr
    split_ifs at hq hr
    exact h.apart q r process process' hne hq hr
  | log id row =>
    dsimp only at hstep
    split_ifs at hstep with hfresh
    cases hstep
    exact h.log hfresh

end

end Invariant

/-! ## Termination -/

section Termination

variable {clickHouse : List LogRow} {w w' : RestoreWorld}

/-- The number of events that are left for a state. -/
def remaining (clickHouse : List LogRow) (s : RestoreState) : ℕ :=
  (between eventKey s.cursor.key s.highWater.key (events clickHouse)).length

/-- A bound on the calls that a process has before it; each event of a batch stands for four. -/
def RestoreProcess.work (clickHouse : List LogRow) : RestoreProcess → ℕ
  | .looping _ s => 4 * remaining clickHouse s + 1
  | .restoring _ s rows todo _ _ => todo.length + 4 * remaining clickHouse (s.after rows 0) + 3
  | .committed _ s => 4 * remaining clickHouse s + 2
  | .returned _ => 0

def workOf (clickHouse : List LogRow) (w : RestoreWorld) (p : ℕ) : ℕ :=
  ((w.processes.get? p).map (RestoreProcess.work clickHouse)).getD 0

def RestoreLabel.isCallOf (p : ℕ) : RestoreLabel → Bool
  | .proceed q _ => q = p
  | _ => false

def RestoreLabel.isStartOf (p : ℕ) : RestoreLabel → Bool
  | .startNew q _ _ | .resume q _ _ => q = p
  | _ => false

theorem remaining_after (s : RestoreState) (rows : List LogRow) (restored : ℤ) :
    remaining clickHouse (s.after rows restored) = remaining clickHouse (s.after rows 0) := by
  unfold RestoreState.after
  cases rows.getLast? <;> rfl

theorem remaining_batch (hsource : Source clickHouse) {s : RestoreState} {limit : ℤ}
    {rows : List LogRow} {last : LogRow} (hlast : rows.getLast? = some last)
    (h : loadClickHouseEventBatch clickHouse s.cursor s.highWater limit = rows) :
    rows.length + remaining clickHouse (s.after rows 0) = remaining clickHouse s := by
  subst h
  obtain ⟨hwindow, -, hlt, hle⟩ := loadClickHouseEventBatch_spec hsource hlast
  rw [RestoreState.after_eq hlast]
  have hmeet := between_append_between (ascending_events hsource.nodup) hlt.le hle
  rw [← hwindow] at hmeet
  unfold remaining
  rw [← hmeet, length_append]
  rfl

theorem work_lt_of_proceed (hsource : Source clickHouse) {p : ℕ} {id : ℤ}
    (h : w.proceed clickHouse p id = some w') : ∃ process process',
      w.processes.get? p = some process ∧ w'.processes = w.processes.put p process' ∧
        process'.work clickHouse < process.work clickHouse := by
  unfold RestoreWorld.proceed at h
  cases hp : w.processes.get? p with
  | none => rw [hp] at h; cases h
  | some process =>
    rw [hp] at h
    refine ⟨process, ?_⟩
    cases process with
    | returned _ => cases h
    | looping n s =>
      cases h
      refine ⟨_, rfl, rfl, ?_⟩
      split_ifs
      · exact Nat.succ_pos _
      · cases hrows : loadClickHouseEventBatch clickHouse s.cursor s.highWater n with
        | nil => exact Nat.succ_pos _
        | cons row todo =>
          obtain ⟨last, hlast⟩ := Option.ne_none_iff_exists'.1
            (mt getLast?_eq_none_iff.1 (cons_ne_nil row todo))
          have hlength := remaining_batch hsource hlast hrows
          simp only [RestoreProcess.work, length_cons] at hlength ⊢
          omega
    | restoring n s rows todo written restored =>
      cases todo with
      | nil =>
        cases h
        refine ⟨_, rfl, rfl, ?_⟩
        simp only [RestoreProcess.work, remaining_after s rows restored, length_nil]
        omega
      | cons row todo =>
        dsimp only at h
        split_ifs at h
        cases hrow : restoreRow w.db written row id with
        | error e =>
          rw [hrow] at h
          cases h
          exact ⟨_, rfl, rfl, Nat.succ_pos _⟩
        | ok res =>
          rw [hrow] at h
          cases h
          refine ⟨_, rfl, rfl, ?_⟩
          simp only [RestoreProcess.work, length_cons]
          omega
    | committed n s =>
      cases h
      refine ⟨_, rfl, rfl, ?_⟩
      simp only [RestoreProcess.work]
      omega

theorem workOf_step (hsource : Source clickHouse) {a : RestoreLabel} {p : ℕ}
    (hstart : a.isStartOf p = false) (h : restoreStep clickHouse w a = some w') :
    (if a.isCallOf p then 1 else 0) + workOf clickHouse w' p ≤ workOf clickHouse w p := by
  have hput : ∀ {q : ℕ} {process : RestoreProcess}, w'.processes = w.processes.put q process →
      p ≠ q → workOf clickHouse w' p = workOf clickHouse w p := by
    intro q process hw' hne
    unfold workOf
    rw [hw', get?_put, if_neg hne]
  have hrun : ∀ {q : ℕ} {n : ℤ} {s : RestoreState}, decide (q = p) = false →
      w.start q n s = some w' → workOf clickHouse w' p = workOf clickHouse w p := by
    intro q n s hne hs
    unfold RestoreWorld.start at hs
    split at hs
    · cases hs
      exact hput rfl (Ne.symm (of_decide_eq_false hne))
    · cases hs
  cases a with
  | startNew q n highWater =>
    rw [hrun hstart h]
    simp [RestoreLabel.isCallOf]
  | resume q n s =>
    unfold restoreStep at h
    dsimp only at h
    split_ifs at h
    rw [hrun hstart h]
    simp [RestoreLabel.isCallOf]
  | proceed q id =>
    obtain ⟨process, process', hq, hw', hlt⟩ := work_lt_of_proceed hsource h
    by_cases hqp : q = p
    · subst hqp
      unfold workOf
      rw [hw', get?_put, if_pos rfl, hq]
      simp only [RestoreLabel.isCallOf, decide_true, if_true, Option.map_some, Option.getD_some]
      omega
    · rw [hput hw' (Ne.symm hqp)]
      simp [RestoreLabel.isCallOf, hqp]
  | crash q =>
    cases h
    unfold workOf
    rw [get?_erase]
    by_cases hpq : p = q <;> simp [RestoreLabel.isCallOf, hpq]
  | log id row =>
    unfold restoreStep at h
    dsimp only at h
    split_ifs at h
    cases h
    simp [RestoreLabel.isCallOf, workOf]

theorem calls_le_work (hsource : Source clickHouse) {p : ℕ} {labels : List RestoreLabel}
    (hstart : ∀ a ∈ labels, a.isStartOf p = false)
    (h : Run.run (restoreStep clickHouse) w labels = some w') :
    labels.countP (·.isCallOf p) + workOf clickHouse w' p ≤ workOf clickHouse w p := by
  induction labels generalizing w with
  | nil =>
    cases h
    simp
  | cons a labels ih =>
    obtain ⟨w₁, h₁, h₂⟩ := Run.run_cons_eq_some_iff.1 h
    have hone := workOf_step hsource (hstart a mem_cons_self) h₁
    have hrest := ih (fun b hb => hstart b (mem_cons_of_mem a hb)) h₂
    rw [countP_cons]
    omega

end Termination

/-! ## Every run -/

def LogRow.cursor (row : LogRow) : EventCursor where
  createdAt := row.createdAt
  eventID := row.eventID

/-- The window predicate and the order of the batches are `compareEventCursor`, a total order. -/
structure SameOrder (clickHouse : List LogRow) : Prop where
  window : ∀ after highWater row, row ∈ clickHouseEventWindow clickHouse after highWater ↔
    row ∈ clickHouse ∧ isLegacy row = false ∧ compareEventCursor after row.cursor < 0 ∧
      compareEventCursor row.cursor highWater ≤ 0
  batch : ∀ after highWater limit,
    (loadClickHouseEventBatch clickHouse after highWater limit).Pairwise fun row row' =>
      compareEventCursor row.cursor row'.cursor < 0
  trichotomy : ∀ left right, compareEventCursor left right < 0 ∨ left = right ∨
    compareEventCursor right left < 0
  trans : ∀ left middle right, compareEventCursor left middle < 0 →
    compareEventCursor middle right < 0 → compareEventCursor left right < 0

structure RestoredOnce (clickHouse : List LogRow) (w : RestoreWorld) : Prop where
  /-- The ledger row of an event names its log. -/
  named : ∀ e l, w.db.ledger.get? e = some l → ∃ row ∈ clickHouse, isLegacy row = false ∧
    row.eventID = e ∧ l.logID ∉ w.others ∧ w.db.logs.get? l.logID = some (toRelationalLogRow row)
  /-- Every log that a restore has written is the one log of one event. -/
  once : ∀ id r, w.db.logs.get? id = some r → id ∉ w.others →
    ∃! e, ∃ l, w.db.ledger.get? e = some l ∧ l.logID = id
  complete : ∀ p s, w.processes.get? p = some (.returned (.ok s)) → s.complete = true ∧
    ∀ row ∈ clickHouse, isLegacy row = false → compareEventCursor row.cursor s.highWater ≤ 0 →
      ∃ l, w.db.ledger.get? row.eventID = some l

theorem sameOrder (hsource : Source clickHouse) :
    SameOrder clickHouse where
  window := by
    intro after highWater row
    rw [clickHouseEventWindow_eq, mem_between, mem_filter, Bool.not_eq_true',
      compareEventCursor_neg_iff, ← not_lt (a := (0 : ℤ)), compareEventCursor_pos_iff, not_lt,
      and_assoc]
    rfl
  batch := by
    intro after highWater limit
    have hasc : Ascending eventKey (loadClickHouseEventBatch clickHouse after highWater limit) := by
      rw [loadClickHouseEventBatch_eq hsource.nodup]
      exact (ascending_events hsource.nodup).between.sublist (take_sublist _ _)
    refine List.Pairwise.imp (fun {row row'} (hlt : eventKey row < eventKey row') => ?_) hasc
    exact (compareEventCursor_neg_iff row.cursor row'.cursor).2 hlt
  trichotomy := by
    intro left right
    simp only [compareEventCursor_neg_iff]
    rcases lt_trichotomy left.key right.key with hlt | heq | hgt
    · exact .inl hlt
    · obtain ⟨hcreated, hid⟩ := Prod.mk.inj (toLex_inj.1 heq)
      cases left
      cases right
      cases hcreated
      cases hid
      exact .inr (.inl rfl)
    · exact .inr (.inr hgt)
  trans := by
    intro left middle right hlm hmr
    rw [compareEventCursor_neg_iff] at hlm hmr ⊢
    exact hlm.trans hmr

theorem RestoreInv.restoredOnce {w : RestoreWorld} (h : RestoreInv clickHouse w) :
    RestoredOnce clickHouse w where
  named := by
    intro e l hl
    obtain ⟨row, hrow, he, hlog⟩ := h.paired.named e l hl
    obtain ⟨hmem, hlegacy⟩ := mem_events.1 hrow
    exact ⟨row, hmem, hlegacy, he, h.paired.own e l hl, hlog⟩
  once := by
    intro id r hr hid
    obtain ⟨e, l, hl, heq⟩ := (h.paired.only id r hr).resolve_left hid
    refine ⟨e, ⟨l, hl, heq⟩, ?_⟩
    rintro e' ⟨l', hl', heq'⟩
    exact h.paired.injective e' e l' l hl' hl (heq'.trans heq.symm)
  complete := by
    intro p s hp
    obtain ⟨hcomplete, hcover⟩ := h.knows p _ hp
    refine ⟨hcomplete, fun row hrow hlegacy hle => Option.isSome_iff_exists.1 ?_⟩
    refine hcover row (mem_events.2 ⟨hrow, hlegacy⟩) ?_
    rw [← not_lt, compareEventCursor_pos_iff, not_lt] at hle
    exact hle.trans ((RestoreState.complete_iff s).1 hcomplete)

theorem restoreInv_init (clickHouse : List LogRow) : RestoreInv clickHouse {} where
  paired := paired_empty clickHouse
  written := fun _ _ h => (nomatch h)
  apart := fun _ _ _ _ _ h => (nomatch h)
  saved := fun _ h => (nomatch h)
  knows := fun _ _ h => (nomatch h)

/-- **The restore writes every event once**, in every interleaving of any number of processes, when no
event is older than the time zero; and every process ends. -/
theorem restore_writes_once (clickHouse : List LogRow) (labels : List RestoreLabel)
    (w : RestoreWorld) (hsource : Source clickHouse) (htimes : NonnegTimes clickHouse)
    (hrun : Run.run (restoreStep clickHouse) {} labels = some w) :
    RestoredOnce clickHouse w ∧ SameOrder clickHouse ∧
      ∀ p labels' w', (∀ a ∈ labels', a.isStartOf p = false) →
        Run.run (restoreStep clickHouse) w labels' = some w' →
        labels'.countP (·.isCallOf p) ≤ workOf clickHouse w p := by
  have hinv : RestoreInv clickHouse w :=
    Run.invariant (fun _ _ _ h hs => h.step hsource htimes hs) (restoreInv_init clickHouse) hrun
  refine ⟨hinv.restoredOnce, sameOrder hsource, fun p labels' w' hstart hrun' => ?_⟩
  exact (Nat.le_add_right _ _).trans (calls_le_work hsource hstart hrun')

/-- Two processes reserve the same event; one of them dies after its commit. -/
theorem two_restores_write_once :
    ∃ w, Run.run (restoreStep [{ createdAt := 3, eventID := "b" }, { createdAt := 3, eventID := "a" }])
        {} [.startNew 0 1 { createdAt := 3, eventID := "b" },
          .startNew 1 2 { createdAt := 3, eventID := "b" }, .proceed 0 10, .proceed 1 10,
          .proceed 0 10, .log 12 {}, .proceed 0 11, .proceed 1 11, .proceed 1 11, .crash 0,
          .proceed 1 13, .proceed 1 13, .proceed 1 13] = some w ∧
      w.db.logs.keys = [12, 10, 11] ∧
      RestoredOnce [{ createdAt := 3, eventID := "b" }, { createdAt := 3, eventID := "a" }] w := by
  have hsource : Source
      [{ createdAt := 3, eventID := "b" }, { createdAt := 3, eventID := "a" }] :=
    ⟨by decide, by decide⟩
  exact Option.exists_some_imp (by decide +kernel) fun w hrun hkeys =>
    ⟨hkeys, (restore_writes_once _ _ w hsource (by simp [NonnegTimes]) hrun).1⟩

/-- An event from before the time zero lies outside of the first window. -/
theorem negative_time_not_restored :
    ¬ ∀ (clickHouse : List LogRow) (labels : List RestoreLabel) (w : RestoreWorld),
      Source clickHouse → Run.run (restoreStep clickHouse) {} labels = some w →
      RestoredOnce clickHouse w := by
  intro h
  obtain ⟨w, hrun, hprocess, hnone⟩ : ∃ w, Run.run
      (restoreStep [{ createdAt := -1, eventID := "a" }, { createdAt := 5, eventID := "b" }])
      {} [.startNew 0 9 { createdAt := 5, eventID := "b" }, .proceed 0 1, .proceed 0 1,
        .proceed 0 1, .proceed 0 1, .proceed 0 1] = some w ∧
      w.processes.get? 0 = some (.returned (.ok
        { highWater := { createdAt := 5, eventID := "b" }
          cursor := { createdAt := 5, eventID := "b" }
          rowsRestored := 1 })) ∧ w.db.ledger.get? "a" = none := by
    decide +kernel
  have honce := h _ _ w ⟨by decide, by decide⟩ hrun
  obtain ⟨l, hl⟩ := (honce.complete 0 _ hprocess).2 { createdAt := -1, eventID := "a" }
    mem_cons_self (by decide) (by decide)
  rw [hnone] at hl
  cases hl

end BeeApi.LogMigration
