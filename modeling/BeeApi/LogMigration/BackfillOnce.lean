import BeeApi.Lib.Strings
import BeeApi.LogMigration.Backfill

/-!
# The backfill copies every row once

At every moment the target holds the normalised rows up to one bound, whatever has crashed before.
The bound lies between the cursor and the high-water mark of every state that is still around: a batch
that was inserted and never saved is found again by the event ids, which tell the rows apart.
-/

namespace BeeApi.LogMigration

open Window List LogRow

/-! ## Event ids -/

theorem ofDigitChars_leftpad (k n : ℕ) :
    Nat.ofDigitChars 10 ((Nat.toDigits 10 n).leftpad k '0') 0 = n := by
  unfold List.leftpad
  rw [Nat.ofDigitChars_append, Nat.ofDigitChars_replicate_zero, Nat.mul_zero,
    Nat.ofDigitChars_ten_toDigits]

theorem isDigit_of_mem_leftpad {k n : ℕ} {c : Char} (h : c ∈ (Nat.toDigits 10 n).leftpad k '0') :
    c.isDigit := by
  rcases mem_append.1 h with hzero | hdigit
  · rw [eq_of_mem_replicate hzero]
    rfl
  · exact Nat.isDigit_of_mem_toDigits (by decide) (by decide) hdigit

theorem id_eq_of_legacyEventID_eq {createdAt id createdAt' id' : ℤ} (hid : 0 < id) (hid' : 0 < id')
    (h : legacyEventID createdAt id = legacyEventID createdAt' id') : id = id' := by
  have hdigits : ∀ {n : ℤ}, 0 < n → sprintf020d n = (Nat.toDigits 10 n.natAbs).leftpad 20 '0' :=
    fun hn => if_neg (not_lt.2 hn.le)
  have hsign : ∀ {n : ℤ}, 0 < n → '-' ∉ sprintf020d n := by
    intro n hn hmem
    rw [hdigits hn] at hmem
    exact absurd (isDigit_of_mem_leftpad hmem) (by decide)
  unfold legacyEventID at h
  have hlist := String.ofList_injective h
  obtain ⟨-, htail⟩ := Strings.eq_of_append_sep_right (hsign hid) (hsign hid') hlist
  rw [hdigits hid, hdigits hid'] at htail
  have habs := congrArg (Nat.ofDigitChars 10 · 0) htail
  simp only [ofDigitChars_leftpad] at habs
  omega

/-! ## Rows that are there already -/

theorem existingByEventID_spec {rows : List LogRow} {found : Table String LogRow}
    (hnodup : (rows.map eventID).Nodup)
    (hfound : ∀ row ∈ rows, found.get? row.eventID = none) :
    ∃ t, existingByEventID rows found = .ok t ∧ (∀ row ∈ rows, t.get? row.eventID = some row) ∧
      ∀ e, e ∉ rows.map eventID → t.get? e = found.get? e := by
  induction rows generalizing found with
  | nil => exact ⟨found, rfl, fun _ h => (nomatch h), fun _ _ => rfl⟩
  | cons row rows ih =>
    rw [map_cons, nodup_cons] at hnodup
    obtain ⟨hhead, htail⟩ := hnodup
    have hnone := hfound row mem_cons_self
    cases hins : found.insert? row.eventID row with
    | none =>
      exact absurd ((Table.insert?_eq_none_iff _ _ _).1 hins) ((Table.get?_eq_none_iff _ _).1 hnone)
    | some found' =>
      have hget := Table.get?_of_insert? hins
      have hne : ∀ r ∈ rows, r.eventID ≠ row.eventID := fun r hr heq =>
        hhead (heq ▸ mem_map_of_mem hr)
      have hfound' : ∀ r ∈ rows, found'.get? r.eventID = none := by
        intro r hr
        rw [hget, if_neg (hne r hr)]
        exact hfound r (mem_cons_of_mem _ hr)
      obtain ⟨t, ht, hall, hother⟩ := ih htail hfound'
      refine ⟨t, ?_, ?_, ?_⟩
      · rw [existingByEventID, hins]
        exact ht
      · intro r hr
        rcases mem_cons.1 hr with rfl | hr
        · rw [hother _ hhead, hget, if_pos rfl]
        · exact hall r hr
      · intro e he
        rw [map_cons, mem_cons, not_or] at he
        rw [hother e he.2, hget, if_neg he.1]

theorem pendingRows_spec {existing : Table String LogRow} {rows : List LogRow}
    (h : ∀ row ∈ rows, ∀ current, existing.get? row.eventID = some current → current = row) :
    pendingRows existing rows = .ok (rows.filter fun row => existing.get? row.eventID = none) := by
  induction rows with
  | nil => rfl
  | cons row rows ih =>
    have ih := ih fun r hr => h r (mem_cons_of_mem _ hr)
    cases hget : existing.get? row.eventID with
    | none =>
      rw [pendingRows, hget, filter_cons_of_pos (by simp [hget]), ih]
      rfl
    | some current =>
      have hcurrent := h row mem_cons_self current hget
      rw [pendingRows, hget, filter_cons_of_neg (by simp [hget])]
      dsimp only
      rw [if_neg (not_not.2 hcurrent), ih]

/-- When both the target and the batch are normalised rows of the source, the rows that are left are
those which the target does not hold. -/
theorem filterExistingTargetRows_spec {source held batch : List LogRow}
    (hsource : Ascending LogRow.id source) (hpos : ∀ r ∈ source, 0 < r.id)
    (hheld : held.Sublist source) (hbatch : batch ⊆ source) :
    filterExistingTargetRows (held.map normalizeMigrationRow) (batch.map normalizeMigrationRow) =
      .ok ((batch.filter fun row => row ∉ held).map normalizeMigrationRow) := by
  -- the event id tells the rows of the source apart
  have hname : ∀ r ∈ source, ∀ s ∈ source,
      (normalizeMigrationRow r).eventID = (normalizeMigrationRow s).eventID → r = s :=
    fun r hr s hs heq =>
      hsource.eq_of_key_eq hr hs (id_eq_of_legacyEventID_eq (hpos r hr) (hpos s hs) heq)
  have hnodup : ((held.map normalizeMigrationRow).map LogRow.eventID).Nodup := by
    rw [map_map]
    have hheldNodup : held.Nodup :=
      (List.Pairwise.imp (fun h heq => absurd (congrArg LogRow.id heq) h.ne) hsource).sublist hheld
    exact hheldNodup.map_on fun r hr s hs heq => hname r (hheld.subset hr) s (hheld.subset hs) heq
  let eventIDs := (batch.map normalizeMigrationRow).map eventID
  let found := (held.map normalizeMigrationRow).filter fun row => row.eventID ∈ eventIDs
  have hfoundNodup : (found.map eventID).Nodup := hnodup.sublist (filter_sublist.map _)
  obtain ⟨t, ht, hall, hother⟩ := @existingByEventID_spec _ ∅ hfoundNodup fun _ _ => rfl
  -- what the map holds under the event id of a row of the batch
  have hget : ∀ row ∈ batch, t.get? (normalizeMigrationRow row).eventID =
      if row ∈ held then some (normalizeMigrationRow row) else none := by
    intro row hrow
    split_ifs with hrowHeld
    · refine hall _ (mem_filter.2 ⟨mem_map_of_mem hrowHeld, ?_⟩)
      exact decide_eq_true (mem_map_of_mem (mem_map_of_mem hrow))
    · refine hother _ fun hmem => hrowHeld ?_
      obtain ⟨r, hr, heq⟩ := mem_map.1 hmem
      obtain ⟨s, hs, rfl⟩ := mem_map.1 (mem_filter.1 hr).1
      rw [← hname s (hheld.subset hs) row (hbatch hrow) heq]
      exact hs
  have hcurrent : ∀ row ∈ batch.map normalizeMigrationRow, ∀ current,
      t.get? row.eventID = some current → current = row := by
    intro row hrow current hsome
    obtain ⟨r, hr, rfl⟩ := mem_map.1 hrow
    rw [hget r hr] at hsome
    split_ifs at hsome
    exact (Option.some.inj hsome).symm
  have hpending : filterExistingTargetRows (held.map normalizeMigrationRow)
      (batch.map normalizeMigrationRow) = pendingRows t (batch.map normalizeMigrationRow) := by
    show (existingByEventID found ∅ >>= fun existing => _) = _
    rw [ht]
    rfl
  rw [hpending, pendingRows_spec hcurrent, filter_map]
  congr 2
  refine filter_congr fun row hrow => ?_
  simp only [Function.comp_apply, hget row hrow]
  by_cases hrowHeld : row ∈ held
  · simp [hrowHeld]
  · simp [hrowHeld]

/-! ## The invariant -/

section Invariant

variable {source : List LogRow} {b : ℤ} {s : State}

/-- A window that the target is being filled for: the target holds the rows up to `b`. -/
structure Fits (source : List LogRow) (b : ℤ) (s : State) : Prop where
  nonneg : 0 ≤ s.cursor.id
  cursor_le : s.cursor.id ≤ b
  le_highWater : b ≤ s.highWater.id
  mark : s.highWater.id = 0 ∨ ∃ r ∈ source, r.id = s.highWater.id

structure Batch (source : List LogRow) (s : State) (sourceRows : List LogRow) (last : LogRow) :
    Prop where
  getLast : sourceRows.getLast? = some last
  window : sourceRows = between LogRow.id s.cursor.id last.id source
  mem : last ∈ source
  behind : s.cursor.id < last.id
  le_highWater : last.id ≤ s.highWater.id

theorem complete_iff (s : State) : s.complete = true ↔ s.highWater.id ≤ s.cursor.id := by
  unfold State.complete compareCursor
  split_ifs with hlt hgt
  · simpa using hlt
  · simpa using le_of_lt hgt
  · simpa using not_lt.1 hlt

theorem compareCursor_pos_iff (l r : Cursor) : 0 < compareCursor l r ↔ r.id < l.id := by
  unfold compareCursor
  split_ifs with hlt hgt
  · simpa using le_of_lt hlt
  · simpa using hgt
  · simpa using hgt

theorem compareCursor_neg_iff (l r : Cursor) : compareCursor l r < 0 ↔ l.id < r.id := by
  unfold compareCursor
  split_ifs with hlt hgt
  · simpa using hlt
  · simpa using le_of_lt hgt
  · simpa using hlt

def Process.state? : Process → Option State
  | .captured _ _ s | .ready _ _ s | .advanced _ s | .looping _ s | .loaded _ s _
  | .filtered _ s _ _ | .inserted _ s | .returned (.ok s) => some s
  | _ => none

/-- The state of a process whose window is that of the saved state. -/
def Process.windowed? : Process → Option State
  | .ready _ _ s | .looping _ s | .loaded _ s _ | .filtered _ s _ _ | .inserted _ s => some s
  | _ => none

/-- Has the process not yet come to a saved state? -/
def Process.isEarly : Process → Bool
  | .idle | .started _ _ | .captured _ _ _ => true
  | _ => false

def Process.Knows (source : List LogRow) (b : ℤ) : Process → Prop
  | .looping n _ | .inserted n _ => 0 < n
  | .loaded n s sourceRows => 0 < n ∧ ∃ last, Batch source s sourceRows last
  | .filtered n s sourceRows pending =>
    0 < n ∧ ∃ last, Batch source s sourceRows last ∧
      pending = (between LogRow.id b last.id source).map normalizeMigrationRow
  | .returned (.ok s) => s.complete = true
  | .returned (.error e) => e = .batchSize ∨ e = .incompleteWindow
  | _ => True

structure Filled (w : World) (b : ℤ) : Prop where
  nonneg : 0 ≤ b
  reached : b = 0 ∨ ∃ r ∈ w.source, b ≤ r.id
  target : w.target = (upTo LogRow.id b w.source).map normalizeMigrationRow
  saved : ∀ s, w.saved = some s → Fits w.source b s
  state : ∀ s, w.process.state? = some s → Fits w.source b s
  fresh : w.saved = none → b = 0 ∧ w.process.isEarly = true
  window : ∀ s, w.process.windowed? = some s → w.saved.map State.highWater = some s.highWater
  knows : w.process.Knows w.source b

/-- The ids of a table are positive when they are drawn from a sequence. -/
def Positive (w : World) : Prop := ∀ r ∈ w.source, 0 < r.id

structure Inv (w : World) : Prop where
  ascending : Ascending LogRow.id w.source
  filled : Positive w → ∃ b, Filled w b

/-! ## One step -/

theorem Fits.append (h : Fits source b s) (row : LogRow) : Fits (source ++ [row]) b s where
  nonneg := h.nonneg
  cursor_le := h.cursor_le
  le_highWater := h.le_highWater
  mark := h.mark.imp_right fun ⟨r, hr, heq⟩ => ⟨r, mem_append_left _ hr, heq⟩

variable {last : LogRow} {sourceRows : List LogRow} {w w' : World}

theorem Batch.append {row : LogRow} (h : Batch source s sourceRows last)
    (hrow : ∀ r ∈ source, r.id < row.id) :
    Batch (source ++ [row]) s sourceRows last where
  getLast := h.getLast
  window := by
    rw [between_append_of_lt]
    · exact h.window
    · intro r hr
      rw [mem_singleton.1 hr]
      exact hrow last h.mem
  mem := mem_append_left _ h.mem
  behind := h.behind
  le_highWater := h.le_highWater

theorem Filled.grow (h : Filled w b) {row : LogRow} (hpos : 0 < row.id)
    (hrow : ∀ r ∈ w.source, r.id < row.id) : Filled { w with source := w.source ++ [row] } b := by
  have hbehind : ∀ r ∈ [row], b < r.id := by
    intro r hr
    rw [mem_singleton.1 hr]
    rcases h.reached with hzero | ⟨s, hs, hle⟩
    · omega
    · exact hle.trans_lt (hrow s hs)
  refine ⟨h.nonneg, ?_, ?_, ?_, ?_, h.fresh, h.window, ?_⟩
  · exact h.reached.imp_right fun ⟨r, hr, hle⟩ => ⟨r, mem_append_left _ hr, hle⟩
  · dsimp only
    rw [upTo_append_of_lt hbehind]
    exact h.target
  · exact fun s hs => (h.saved s hs).append row
  · exact fun s hs => (h.state s hs).append row
  · have hknows := h.knows
    cases hp : w.process with
    | loaded _ s sourceRows =>
      rw [hp] at hknows
      obtain ⟨hn, last, hbatch⟩ := hknows
      exact ⟨hn, last, hbatch.append hrow⟩
    | filtered _ s sourceRows pending =>
      rw [hp] at hknows
      obtain ⟨hn, last, hbatch, hpending⟩ := hknows
      refine ⟨hn, last, hbatch.append hrow, ?_⟩
      rw [between_append_of_lt]
      · exact hpending
      · intro r hr
        rw [mem_singleton.1 hr]
        exact hrow last hbatch.mem
    | returned result =>
      rw [hp] at hknows
      cases result <;> exact hknows
    | looping _ _ | inserted _ _ =>
      rw [hp] at hknows
      exact hknows
    | _ => trivial

theorem Filled.goOn (h : Filled w b) {saved : Option State} {process : Process}
    (hsaved : ∀ s, saved = some s → Fits w.source b s)
    (hstate : ∀ s, process.state? = some s → Fits w.source b s)
    (hfresh : saved = none → b = 0 ∧ process.isEarly = true)
    (hwindow : ∀ s, process.windowed? = some s → saved.map State.highWater = some s.highWater)
    (hknows : process.Knows w.source b) : Filled { w with saved, process } b where
  nonneg := h.nonneg
  reached := h.reached
  target := h.target
  saved := hsaved
  state := hstate
  fresh := hfresh
  window := hwindow
  knows := hknows

theorem Filled.goOnSaved (h : Filled w b) {saved process} {s : State} (hsaved : saved = some s)
    (hs : Fits w.source b s) (hstate : ∀ s, process.state? = some s → Fits w.source b s)
    (hwindow : ∀ s', process.windowed? = some s' → s'.highWater = s.highWater)
    (hknows : process.Knows w.source b) : Filled { w with saved, process } b := by
  subst hsaved
  refine h.goOn ?_ hstate nofun ?_ hknows
  · rintro _ ⟨⟩
    exact hs
  · intro s' hs'
    rw [Option.map_some, hwindow s' hs']

theorem Process.state?_of_windowed? {process : Process} {s : State}
    (h : process.windowed? = some s) : process.state? = some s := by
  cases process with
  | idle | started | captured | advanced | returned => cases h
  | ready | looping | loaded | filtered | inserted => exact h

/-- A process that goes on with a state of the saved window. -/
theorem Filled.goOnWith (h : Filled w b) {saved process} {s s₀ : State} (hsaved : saved = some s₀)
    (hs₀ : Fits w.source b s₀) (hs : Fits w.source b s) (hmark : s.highWater = s₀.highWater)
    (hstate : process.state? = some s) (hknows : process.Knows w.source b) :
    Filled { w with saved, process } b := by
  refine h.goOnSaved hsaved hs₀ (fun s' hs' => ?_) (fun s' hs' => ?_) hknows
  · cases hstate.symm.trans hs'
    exact hs
  · cases hstate.symm.trans (Process.state?_of_windowed? hs')
    exact hmark

theorem Filled.backfill (h : Filled w b) {saved : Option State} {s s₀ : State}
    (hsaved : saved = some s₀) (hs₀ : Fits w.source b s₀) (hmark : s.highWater = s₀.highWater)
    (hs : Fits w.source b s) (batchSize : ℤ) :
    Filled { w with saved, process := LogMigration.backfill batchSize s } b := by
  unfold LogMigration.backfill
  have hbeyond : ¬ compareCursor s.cursor s.highWater > 0 := by
    rw [gt_iff_lt, compareCursor_pos_iff, not_lt]
    exact hs.cursor_le.trans hs.le_highWater
  rw [if_neg hbeyond]
  split_ifs with hsize
  · exact h.goOnSaved hsaved hs₀ nofun nofun (.inl rfl)
  · exact h.goOnWith hsaved hs₀ hs hmark rfl (not_le.1 hsize)

theorem captureHighWater_mark (source : List LogRow) :
    (captureHighWater source).id = 0 ∧ source = [] ∨
      ∃ r ∈ source, r.id = (captureHighWater source).id ∧
        (Ascending LogRow.id source → ∀ r' ∈ source, r'.id ≤ r.id) := by
  unfold captureHighWater
  cases hlast : source.getLast? with
  | none => exact .inl ⟨rfl, getLast?_eq_none_iff.1 hlast⟩
  | some last =>
    exact .inr ⟨last, mem_of_getLast? hlast, rfl, fun hasc r' hr' =>
      hasc.le_getLast hlast hr'⟩

theorem advanceHighWater_spec (hasc : Ascending LogRow.id source) (hpos : ∀ r ∈ source, 0 < r.id)
    (h : Fits source b s) :
    advanceHighWater source s = .error .incompleteWindow ∨
      ∃ s', advanceHighWater source s = .ok s' ∧ Fits source b s' := by
  unfold advanceHighWater
  by_cases hc : s.complete = true
  · rw [hc, Bool.not_true, if_neg Bool.false_ne_true]
    -- the old mark is the id of a row, and no row comes behind the last one
    have hle : s.highWater.id ≤ (captureHighWater source).id := by
      rcases captureHighWater_mark source with ⟨hzero, hnil⟩ | ⟨last, hlast, heq, hmax⟩
      · rcases h.mark with hmark | ⟨r, hr, -⟩
        · omega
        · rw [hnil] at hr
          cases hr
      · rw [← heq]
        rcases h.mark with hmark | ⟨r, hr, hmark⟩
        · rw [hmark]
          exact (hpos last hlast).le
        · rw [← hmark]
          exact hmax hasc r hr
    rw [if_neg (by rw [compareCursor_neg_iff]; omega)]
    refine .inr ⟨_, rfl, h.nonneg, h.cursor_le, h.le_highWater.trans hle, ?_⟩
    rcases captureHighWater_mark source with ⟨hzero, -⟩ | ⟨last, hlast, heq, -⟩
    · exact .inl hzero
    · exact .inr ⟨last, hlast, heq⟩
  · rw [Bool.eq_false_iff.2 hc]
    exact .inl rfl

theorem loadSourceBatch_spec (hasc : Ascending LogRow.id source) {limit : ℤ}
    (h : (loadSourceBatch source s.cursor s.highWater limit).getLast? = some last) :
    Batch source s (loadSourceBatch source s.cursor s.highWater limit) last := by
  have hwindow : loadSourceBatch source s.cursor s.highWater limit =
      (between LogRow.id s.cursor.id s.highWater.id source).take limit.toNat := rfl
  rw [hwindow] at h ⊢
  obtain ⟨heq, hmem, hbehind, hle⟩ := take_between hasc h
  exact ⟨h, heq, hmem, hbehind, hle⟩

theorem loadSourceBatch_ne_nil (hs : Fits source b s) (hc : s.complete = false) {limit : ℤ}
    (hlimit : 0 < limit) : loadSourceBatch source s.cursor s.highWater limit ≠ [] := by
  have hlt : s.cursor.id < s.highWater.id := by
    rw [← not_le, ← complete_iff, hc]
    exact Bool.false_ne_true
  obtain ⟨r, hr, hmark⟩ : ∃ r ∈ source, r.id = s.highWater.id := by
    refine hs.mark.resolve_left fun hzero => ?_
    have := hs.nonneg
    omega
  have hmem : r ∈ sourceWindow source s.cursor s.highWater := by
    refine mem_filter.2 ⟨hr, decide_eq_true ⟨?_, ?_⟩⟩ <;> omega
  intro hnil
  rcases take_eq_nil_iff.1 hnil with hzero | hempty
  · omega
  · rw [hempty] at hmem
    cases hmem

theorem State.after_eq {pending : List LogRow} (h : sourceRows.getLast? = some last) :
    s.after sourceRows pending = { s with
        cursor := { createdAt := last.createdAt, id := last.id }
        rowsCopied := s.rowsCopied + pending.length } := by
  unfold State.after
  rw [h]

theorem Filled.insert {w : World} (h : Filled w b) (hasc : Ascending LogRow.id w.source) {n : ℤ}
    {sourceRows pending : List LogRow} (hp : w.process = .filtered n s sourceRows pending) :
    ∃ b', Filled { w with
      target := w.target ++ pending
      process := .inserted n (s.after sourceRows pending) } b' := by
  have hs : Fits w.source b s := h.state s (by rw [hp]; rfl)
  have hwindow := h.window s (by rw [hp]; rfl)
  have hknows := h.knows
  rw [hp] at hknows
  obtain ⟨hn, last, hbatch, hpending⟩ := hknows
  obtain ⟨s₀, hsaved, hmark⟩ := Option.map_eq_some_iff.1 hwindow
  have hle : max b last.id ≤ s.highWater.id := max_le hs.le_highWater hbatch.le_highWater
  refine ⟨max b last.id, ?_⟩
  rw [State.after_eq hbatch.getLast]
  refine ⟨h.nonneg.trans (le_max_left _ _), ?_, ?_, ?_, ?_, ?_, ?_, hn⟩
  · rcases le_total b last.id with hb | hb
    · exact .inr ⟨last, hbatch.mem, by rw [max_eq_right hb]⟩
    · rw [max_eq_left hb]
      exact h.reached
  · dsimp only
    rw [h.target, hpending, ← map_append, upTo_append_between_max hasc]
  · intro s' hs'
    cases hsaved.symm.trans hs'
    have hfits := h.saved s₀ hsaved
    exact ⟨hfits.nonneg, hfits.cursor_le.trans (le_max_left _ _), by rw [hmark]; exact hle, hfits.mark⟩
  · rintro _ ⟨⟩
    exact ⟨hs.nonneg.trans hbatch.behind.le, le_max_right _ _, hle, hs.mark⟩
  · intro hnone
    rw [hsaved] at hnone
    cases hnone
  · rintro _ ⟨⟩
    exact hwindow

theorem Batch.filterExistingTargetRows (hbatch : Batch source s sourceRows last)
    (hasc : Ascending LogRow.id source) (hpos : ∀ r ∈ source, 0 < r.id) (hcursor : s.cursor.id ≤ b)
    : LogMigration.filterExistingTargetRows ((upTo LogRow.id b source).map normalizeMigrationRow)
      (sourceRows.map normalizeMigrationRow) =
        .ok ((between LogRow.id b last.id source).map normalizeMigrationRow) := by
  have hsource : sourceRows ⊆ source := by
    rw [hbatch.window]
    exact fun r hr => (mem_between.1 hr).1
  have hbehind : sourceRows.filter (fun row => row ∉ upTo LogRow.id b source) =
      sourceRows.filter fun row => b < row.id :=
    filter_congr fun r hr => by simp [mem_upTo, hsource hr]
  rw [upTo, filterExistingTargetRows_spec hasc hpos filter_sublist hsource, ← upTo, hbehind,
    hbatch.window, filter_lt_between, max_eq_right hcursor]

theorem Filled.proceed (h : Filled w b) (hasc : Ascending LogRow.id w.source) (hpos : Positive w)
    (hstep : w.proceed = some w') : ∃ b', Filled w' b' := by
  unfold World.proceed at hstep
  have hknows := h.knows
  -- behind every process that is past its start there is a saved state
  have hlate : w.process.isEarly = false → ∃ s₀, w.saved = some s₀ ∧ Fits w.source b s₀ := by
    intro hearly
    cases hsaved : w.saved with
    | none => exact absurd (h.fresh hsaved).2 (by rw [hearly]; exact Bool.false_ne_true)
    | some s₀ => exact ⟨s₀, rfl, h.saved s₀ hsaved⟩
  have hmark : ∀ {s s₀}, w.process.windowed? = some s → w.saved = some s₀ →
      s.highWater = s₀.highWater := by
    intro s s₀ hs hsaved
    have hwindow := h.window s hs
    rw [hsaved] at hwindow
    exact (Option.some.inj hwindow).symm
  cases hp : w.process with
  | idle | returned => rw [hp] at hstep; cases hstep
  | started advance n =>
    rw [hp] at hstep
    cases hsaved : w.saved with
    | none =>
      rw [hsaved] at hstep
      cases hstep
      obtain ⟨hzero, -⟩ := h.fresh hsaved
      refine ⟨b, h.goOn (fun s hs => h.saved s (hsaved.trans hs)) ?_ (fun _ => ⟨hzero, rfl⟩)
        nofun trivial⟩
      rintro _ ⟨⟩
      rcases captureHighWater_mark w.source with ⟨hmark, -⟩ | ⟨last, hlast, hmark, -⟩
      · exact ⟨le_rfl, h.nonneg, by rw [hzero, hmark], .inl hmark⟩
      · exact ⟨le_rfl, h.nonneg, by rw [hzero, ← hmark]; exact (hpos last hlast).le,
          .inr ⟨last, hlast, hmark⟩⟩
    | some s =>
      rw [hsaved] at hstep
      cases hstep
      have hs := h.saved s hsaved
      exact ⟨b, h.goOnWith rfl hs hs rfl rfl trivial⟩
  | captured advance n s =>
    rw [hp] at hstep
    cases hstep
    have hs : Fits w.source b s := h.state s (by rw [hp]; rfl)
    exact ⟨b, h.goOnWith rfl hs hs rfl rfl trivial⟩
  | ready advance n s =>
    have hs : Fits w.source b s := h.state s (by rw [hp]; rfl)
    obtain ⟨s₀, hsaved, hs₀⟩ := hlate (by rw [hp]; rfl)
    have hwindow := hmark (by rw [hp]; rfl) hsaved
    rw [hp] at hstep
    cases advance with
    | false =>
      cases hstep
      exact ⟨b, h.backfill hsaved hs₀ hwindow hs n⟩
    | true =>
      dsimp only at hstep
      rcases advanceHighWater_spec hasc hpos hs with herror | ⟨s', hok, hs'⟩
      · rw [herror] at hstep
        cases hstep
        exact ⟨b, h.goOnSaved hsaved hs₀ nofun nofun (.inr rfl)⟩
      · rw [hok] at hstep
        cases hstep
        refine ⟨b, h.goOnSaved hsaved hs₀ ?_ nofun trivial⟩
        rintro _ ⟨⟩
        exact hs'
  | advanced n s =>
    have hs : Fits w.source b s := h.state s (by rw [hp]; rfl)
    rw [hp] at hstep
    cases hstep
    exact ⟨b, h.backfill rfl hs rfl hs n⟩
  | looping n s =>
    have hs : Fits w.source b s := h.state s (by rw [hp]; rfl)
    obtain ⟨s₀, hsaved, hs₀⟩ := hlate (by rw [hp]; rfl)
    have hwindow := hmark (by rw [hp]; rfl) hsaved
    rw [hp] at hstep hknows
    dsimp only at hstep
    split_ifs at hstep with hc
    · cases hstep
      exact ⟨b, h.goOnWith hsaved hs₀ hs hwindow rfl hc⟩
    · have hne := loadSourceBatch_ne_nil hs (Bool.eq_false_iff.2 hc) hknows
      obtain ⟨last, hlast⟩ := Option.ne_none_iff_exists'.1 (mt getLast?_eq_none_iff.1 hne)
      have hbatch := loadSourceBatch_spec hasc hlast
      cases hrows : loadSourceBatch w.source s.cursor s.highWater n with
      | nil => exact absurd hrows hne
      | cons r rows =>
        rw [hrows] at hstep hbatch
        cases hstep
        exact ⟨b, h.goOnWith hsaved hs₀ hs hwindow rfl ⟨hknows, last, hbatch⟩⟩
  | loaded n s sourceRows =>
    have hs : Fits w.source b s := h.state s (by rw [hp]; rfl)
    obtain ⟨s₀, hsaved, hs₀⟩ := hlate (by rw [hp]; rfl)
    have hwindow := hmark (by rw [hp]; rfl) hsaved
    rw [hp] at hstep hknows
    obtain ⟨hn, last, hbatch⟩ := hknows
    have hok := hbatch.filterExistingTargetRows hasc hpos hs.cursor_le
    rw [← h.target] at hok
    dsimp only at hstep
    rw [hok] at hstep
    cases hstep
    exact ⟨b, h.goOnWith hsaved hs₀ hs hwindow rfl ⟨hn, last, hbatch, rfl⟩⟩
  | filtered n s sourceRows pending =>
    rw [hp] at hstep
    cases hstep
    exact h.insert hasc hp
  | inserted n s =>
    have hs : Fits w.source b s := h.state s (by rw [hp]; rfl)
    rw [hp] at hstep hknows
    cases hstep
    exact ⟨b, h.goOnWith rfl hs hs rfl rfl hknows⟩

theorem source_of_proceed (h : w.proceed = some w') : w'.source = w.source := by
  unfold World.proceed at h
  repeat' split at h
  all_goals
    cases h
    try rfl

theorem Inv.step {a : Label} (h : Inv w) (hstep : step w a = some w') : Inv w' := by
  unfold LogMigration.step at hstep
  cases a with
  | grow row =>
    dsimp only at hstep
    split_ifs at hstep with hrow
    cases hstep
    refine ⟨h.ascending.append hrow, fun hpos => ?_⟩
    obtain ⟨b, hb⟩ := h.filled fun r hr => hpos r (mem_append_left _ hr)
    exact ⟨b, hb.grow (hpos row (mem_append_right _ mem_cons_self)) hrow⟩
  | start advance n =>
    have hstarted : w' = { w with process := .started advance n } := by
      dsimp only at hstep
      split at hstep <;> cases hstep <;> rfl
    subst hstarted
    refine ⟨h.ascending, fun hpos => ?_⟩
    obtain ⟨b, hb⟩ := h.filled hpos
    exact ⟨b, hb.goOn hb.saved nofun (fun hn => ⟨(hb.fresh hn).1, rfl⟩)
      nofun trivial⟩
  | proceed =>
    have hsource := source_of_proceed hstep
    refine ⟨hsource ▸ h.ascending, fun hpos => ?_⟩
    have hpos : Positive w := fun r hr => hpos r (hsource ▸ hr)
    obtain ⟨b, hb⟩ := h.filled hpos
    exact hb.proceed h.ascending hpos hstep
  | crash =>
    cases hstep
    refine ⟨h.ascending, fun hpos => ?_⟩
    obtain ⟨b, hb⟩ := h.filled hpos
    exact ⟨b, hb.goOn hb.saved nofun (fun hn => ⟨(hb.fresh hn).1, rfl⟩)
      nofun trivial⟩

end Invariant

/-! ## Every run -/

/-- What the backfill promises in a state of the system. -/
structure CopiedOnce (w : World) : Prop where
  /-- The only errors a call reports are those about its own arguments. -/
  errors : ∀ e, w.process = .returned (.error e) → e = .batchSize ∨ e = .incompleteWindow
  cursor_le : ∀ s, w.saved = some s ∨ w.process.state? = some s →
    compareCursor s.cursor s.highWater ≤ 0
  exact : ∀ s, w.process = .returned (.ok s) → s.complete = true ∧
    w.target.Perm ((upTo LogRow.id s.highWater.id w.source).map normalizeMigrationRow)

theorem Filled.copiedOnce {w : World} {b : ℤ} (h : Filled w b) : CopiedOnce w where
  errors := by
    intro e he
    have hknows := h.knows
    rw [he] at hknows
    exact hknows
  cursor_le := by
    intro s hs
    have hfits : Fits w.source b s := hs.elim (h.saved s) (h.state s)
    rw [← not_lt, compareCursor_pos_iff, not_lt]
    exact hfits.cursor_le.trans hfits.le_highWater
  exact := by
    intro s hs
    have hfits : Fits w.source b s := h.state s (by rw [hs]; rfl)
    have hcomplete : s.complete = true := by
      have hknows := h.knows
      rw [hs] at hknows
      exact hknows
    have hb : b = s.highWater.id :=
      le_antisymm hfits.le_highWater (((complete_iff s).1 hcomplete).trans hfits.cursor_le)
    refine ⟨hcomplete, List.Perm.of_eq ?_⟩
    rw [h.target, hb]

theorem inv_init {source : List LogRow} (h : Ascending LogRow.id source) : Inv { source } where
  ascending := h
  filled := by
    intro hpos
    have hnil : upTo LogRow.id 0 source = [] := by
      refine filter_eq_nil_iff.2 fun r hr => ?_
      simpa using hpos r hr
    refine ⟨0, le_rfl, .inl rfl, ?_, nofun, nofun, fun _ => ⟨rfl, rfl⟩, nofun, trivial⟩
    rw [hnil, map_nil]

/-- **Backfill copies every row exactly once**, in every run of any number of processes with crashes
anywhere, when the ids of the source are positive. -/
theorem backfill_copies_once (source : List LogRow) (labels : List Label) (w : World)
    (hsource : Ascending LogRow.id source) (hrun : Run.run step { source } labels = some w)
    (hpos : Positive w) : CopiedOnce w := by
  have hinv : Inv w := Run.invariant (fun _ _ _ h hs => h.step hs) (inv_init hsource) hrun
  obtain ⟨b, hb⟩ := hinv.filled hpos
  exact hb.copiedOnce

/-- Two batches; the process dies after the insert of the second one and is started again. -/
theorem crashed_backfill_copies_once :
    ∃ w, Run.run step { source := [{ id := 1 }, { id := 4, requestID := "r" }] }
        (.start false 1 :: List.replicate 10 .proceed ++ [.grow { id := 7 }, .crash, .start false 2] ++
          List.replicate 7 .proceed) = some w ∧
      w.target.length = 2 ∧ CopiedOnce w := by
  refine Option.exists_some_imp (p := fun w => w.source.map LogRow.id = [1, 4, 7] ∧
    w.target.length = 2) (by decide +kernel) fun w hrun ⟨hids, hlength⟩ => ?_
  refine ⟨hlength, backfill_copies_once _ _ w (by simp [Ascending]) hrun fun r hr => ?_⟩
  have hmem : r.id ∈ [1, 4, 7] := hids ▸ mem_map_of_mem hr
  simp at hmem
  omega

/-- A row whose id is not positive lies outside of the first window. -/
theorem row_zero_not_copied :
    ¬ ∀ (source : List LogRow) (labels : List Label) (w : World), Ascending LogRow.id source →
      Run.run step { source } labels = some w → CopiedOnce w := by
  intro h
  have hcopied := h [{}] (.start false 1 :: List.replicate 4 .proceed) _ (by simp [Ascending]) rfl
  have hperm := (hcopied.exact _ rfl).2
  exact absurd hperm.length_eq (by decide)

end BeeApi.LogMigration
