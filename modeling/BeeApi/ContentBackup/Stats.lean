import BeeApi.ContentBackup.Lease

/-!
# Daily stats

An upload leaves a delta, and a fold moves the deltas of a storage node into the daily row; a cleanup
raises the daily row itself.  A fold deletes what it has read before, and all of it or nothing: as long
as the database never uses an id again, the rows it deletes are the ones it adds.
-/

namespace BeeApi.ContentBackup

open Transaction List Option Table

/-! ## Figures -/

/-- The two figures that are kept of a group of jobs. -/
inductive Figure
  | count
  | bytes

namespace Figure

def ofBytes : Figure → ℤ → ℤ
  | count, _ => 1
  | bytes, n => n

/-- One of a count and a byte sum. -/
def pick : Figure → ℤ → ℤ → ℤ
  | count, n, _ => n
  | bytes, _, n => n

def uploads (f : Figure) (stat : ContentBackupDailyStat) : ℤ :=
  f.pick stat.uploadedCount stat.uploadedBytes

def cleanups (f : Figure) (stat : ContentBackupDailyStat) : ℤ :=
  f.pick stat.cleanedCount stat.freedBytes

end Figure

/-- The daily row; a day without one has counted nothing. -/
def dailyStat (db : ContentBackupDb) (siteID storageNodeID day : String) :
    ContentBackupDailyStat :=
  (db.dailyStats.get? (siteID, day, storageNodeID)).getD { createdAt := 0, updatedAt := 0 }

def unfolded (f : Figure) (siteID storageNodeID day : String) (_ : ℤ)
    (delta : ContentBackupStatDelta) : ℤ :=
  if delta.siteID = siteID ∧ delta.storageNodeID = storageNodeID ∧ delta.statDate = day then
    f.ofBytes delta.uploadedBytes
  else 0

/-- The instant falls on the day.  An instant that is not set falls on no day. -/
def FallsOn (unixSeconds : ℤ) (day : String) : Prop :=
  day ≠ "" ∧ contentBackupDayFromUnix unixSeconds = day

instance (unixSeconds : ℤ) (day : String) : Decidable (FallsOn unixSeconds day) :=
  inferInstanceAs (Decidable (_ ∧ _))

def uploadedOn (f : Figure) (siteID storageNodeID day : String) (key : String × String)
    (row : ContentBackupJob) : ℤ :=
  if key.1 = siteID ∧ row.storageNodeID = storageNodeID ∧ row.status = .uploaded ∧
      FallsOn row.uploadedAt day then f.ofBytes row.compressedBytes
  else 0

def cleanedOn (f : Figure) (siteID storageNodeID day : String) (key : String × String)
    (row : ContentBackupJob) : ℤ :=
  if key.1 = siteID ∧ row.storageNodeID = storageNodeID ∧ row.cleanupState = .done ∧
      FallsOn row.cleanedAt day then f.ofBytes row.compressedBytes
  else 0

/-! ## What a step does to the jobs of a day -/

variable {f : Figure} {siteID storageNodeID day : String} {key : String × String}

variable {row row' : ContentBackupJob} {w w' : World} {a : Label} {now : ℤ}
  {db db' : ContentBackupDb} {c : FoldCall} {siteID' : String}

theorem uploadedOn_of_ne (h : row.status ≠ .uploaded) :
    uploadedOn f siteID storageNodeID day key row = 0 :=
  if_neg fun hon => h hon.2.2.1

theorem cleanedOn_of_ne (h : row.cleanupState ≠ .done) :
    cleanedOn f siteID storageNodeID day key row = 0 :=
  if_neg fun hon => h hon.2.2.1

theorem RowStep.uploadedOn_eq (h : RowStep w key a row row')
    (ha : ∀ o siteID lease now, a ≠ .markUploaded o siteID lease now) :
    uploadedOn f siteID storageNodeID day key row' =
      uploadedOn f siteID storageNodeID day key row := by
  cases h with
  | same => rfl
  | claim _ _ _ _ _ _ _ _ _ _ _ hguard =>
    rw [uploadedOn_of_ne (by simp [claimUpdates]), uploadedOn_of_ne]
    obtain hs | hs := status_of_isClaimable hguard <;> simp [hs]
  | renew => rfl
  | upload o siteID lease now => exact absurd rfl (ha o siteID lease now)
  | retry _ _ _ _ _ _ _ _ _ hheld | fail _ _ _ _ _ _ _ _ hheld =>
    rw [uploadedOn_of_ne (by simp [unleasedUpdates]),
      uploadedOn_of_ne (by simp [status_of_isHeld hheld])]
  | requeue _ _ _ _ _ hfailed =>
    rw [uploadedOn_of_ne (by simp [retryUpdates]), uploadedOn_of_ne (by simp [hfailed])]
  | scheduleCleanup => rfl
  | clean => rfl

theorem RowStep.cleanedOn_eq (hok : JobOk w.tokens row) (h : RowStep w key a row row')
    (ha : ∀ o siteID jobID storageNodeID now, a ≠ .markCleaned o siteID jobID storageNodeID now) :
    cleanedOn f siteID storageNodeID day key row' = cleanedOn f siteID storageNodeID day key row := by
  cases h with
  | upload _ _ _ _ _ _ hheld =>
    have hna := hok.notApplicable (by simp [status_of_isHeld hheld])
    rw [cleanedOn_of_ne (by simp [uploadedUpdates]), cleanedOn_of_ne (by simp [hna])]
  | clean o siteID jobID storageNodeID now => exact absurd rfl (ha o siteID jobID storageNodeID now)
  | _ => rfl

theorem sum_eq_of_step {g : String × String → ContentBackupJob → ℤ} (h : step w a = some w')
    (hnew : ∀ key node now bytes, g key (admitted (buildJob node now bytes)) = 0)
    (hrow : ∀ key row row', w.db.jobs.get? key = some row → RowStep w key a row row' →
      g key row' = g key row) :
    w'.db.jobs.sum g = w.db.jobs.sum g := by
  refine sum_eq_of_weight fun key => ?_
  cases hget : w.db.jobs.get? key with
  | none =>
    rw [weight_of_none hget]
    cases hget' : w'.db.jobs.get? key with
    | none => exact weight_of_none hget' _
    | some row' =>
      obtain ⟨_, _, _, rfl⟩ := (jobs_of_step h).new key row' hget' hget
      rw [weight_of_some hget', hnew]
  | some row =>
    obtain ⟨row', hget', hstep⟩ := (jobs_of_step h).row key row hget
    rw [weight_of_some hget, weight_of_some hget', hrow key row row' hget hstep]

theorem sum_uploadedOn_of_step (h : step w a = some w')
    (ha : ∀ o siteID lease now, a ≠ .markUploaded o siteID lease now) :
    w'.db.jobs.sum (uploadedOn f siteID storageNodeID day) =
      w.db.jobs.sum (uploadedOn f siteID storageNodeID day) :=
  sum_eq_of_step h (fun _ _ _ _ => uploadedOn_of_ne (by simp [admitted, buildJob]))
    fun _ _ _ _ hstep => hstep.uploadedOn_eq ha

theorem sum_cleanedOn_of_step (hi : Inv w) (h : step w a = some w')
    (ha : ∀ o siteID jobID storageNodeID now, a ≠ .markCleaned o siteID jobID storageNodeID now) :
    w'.db.jobs.sum (cleanedOn f siteID storageNodeID day) =
      w.db.jobs.sum (cleanedOn f siteID storageNodeID day) :=
  sum_eq_of_step h (fun _ _ _ _ => cleanedOn_of_ne (by simp [admitted, buildJob]))
    fun key row _ hget hstep => hstep.cleanedOn_eq (hi.rows key row hget) ha

theorem uploadedOn_uploadedUpdates (hday : contentBackupDayFromUnix now ≠ "") :
    uploadedOn f siteID storageNodeID day key (uploadedUpdates now row) =
      if key.1 = siteID ∧ row.storageNodeID = storageNodeID ∧
        contentBackupDayFromUnix now = day then f.ofBytes row.compressedBytes else 0 := by
  unfold uploadedOn FallsOn
  congr 1
  simp only [uploadedUpdates, eq_iff_iff, true_and, and_congr_right_iff, and_iff_right_iff_imp]
  rintro - - rfl
  exact hday

theorem cleanedOn_cleanedUpdates :
    cleanedOn f siteID storageNodeID day key (cleanedUpdates now row) =
      if key.1 = siteID ∧ row.storageNodeID = storageNodeID ∧ FallsOn now day then
        f.ofBytes row.compressedBytes
      else 0 := by
  unfold cleanedOn
  congr 1
  simp [cleanedUpdates]

/-! ## What the transactions do to a daily row -/

section Daily

variable {db : ContentBackupDb} {siteID' storageNodeID' day' : String}

theorem dailyStat_upsertDailyStat (row : ContentBackupDailyStat)
    (updates : ContentBackupDailyStat → ContentBackupDailyStat) :
    dailyStat (upsertDailyStat db (siteID', day', storageNodeID') row updates) siteID storageNodeID
        day =
      if siteID' = siteID ∧ storageNodeID' = storageNodeID ∧ day' = day then
        match db.dailyStats.get? (siteID, day, storageNodeID) with
        | some current => updates current
        | none => row
      else dailyStat db siteID storageNodeID day := by
  unfold dailyStat upsertDailyStat
  rw [get?_put]
  by_cases hkey : siteID' = siteID ∧ storageNodeID' = storageNodeID ∧ day' = day
  · obtain ⟨rfl, rfl, rfl⟩ := hkey
    cases db.dailyStats.get? (siteID', day', storageNodeID') <;> simp
  · rw [if_neg hkey, if_neg]
    simp only [Prod.mk.injEq]
    exact fun hk => hkey ⟨hk.1.symm, hk.2.2.symm, hk.2.1.symm⟩

theorem uploads_addDailyUploads (count bytes now : ℤ) :
    f.uploads (dailyStat (addDailyUploads db siteID' day' storageNodeID' count bytes now) siteID
        storageNodeID day) =
      f.uploads (dailyStat db siteID storageNodeID day) +
        if siteID' = siteID ∧ storageNodeID' = storageNodeID ∧ day' = day then f.pick count bytes
        else 0 := by
  rw [addDailyUploads, dailyStat_upsertDailyStat]
  split_ifs
  · rw [dailyStat]
    cases db.dailyStats.get? (siteID, day, storageNodeID) <;>
      cases f <;> simp [Figure.uploads, Figure.pick]
  · rw [add_zero]

theorem cleanups_addDailyUploads (count bytes now : ℤ) :
    f.cleanups (dailyStat (addDailyUploads db siteID' day' storageNodeID' count bytes now) siteID
        storageNodeID day) = f.cleanups (dailyStat db siteID storageNodeID day) := by
  rw [addDailyUploads, dailyStat_upsertDailyStat]
  split_ifs
  · rw [dailyStat]
    cases db.dailyStats.get? (siteID, day, storageNodeID) <;>
      cases f <;> simp [Figure.cleanups, Figure.pick]
  · rfl

theorem uploads_addDailyCleanup (bytes now : ℤ) :
    f.uploads (dailyStat (addDailyCleanup db siteID' day' storageNodeID' bytes now) siteID
        storageNodeID day) = f.uploads (dailyStat db siteID storageNodeID day) := by
  rw [addDailyCleanup, dailyStat_upsertDailyStat]
  split_ifs
  · rw [dailyStat]
    cases db.dailyStats.get? (siteID, day, storageNodeID) <;>
      cases f <;> simp [Figure.uploads, Figure.pick]
  · rfl

theorem cleanups_addDailyCleanup (bytes now : ℤ) :
    f.cleanups (dailyStat (addDailyCleanup db siteID' day' storageNodeID' bytes now) siteID
        storageNodeID day) =
      f.cleanups (dailyStat db siteID storageNodeID day) +
        if siteID' = siteID ∧ storageNodeID' = storageNodeID ∧ day' = day then f.ofBytes bytes
        else 0 := by
  rw [addDailyCleanup, dailyStat_upsertDailyStat]
  split_ifs
  · rw [dailyStat]
    cases db.dailyStats.get? (siteID, day, storageNodeID) <;>
      cases f <;> simp [Figure.cleanups, Figure.pick, Figure.ofBytes]
  · rw [add_zero]

end Daily

/-! ## Batches -/

def figureSum (f : Figure) (deltas : List (ℤ × ContentBackupStatDelta)) : ℤ :=
  (deltas.map fun e => f.ofBytes e.2.uploadedBytes).sum

theorem figureSum_eq_pick (deltas : List (ℤ × ContentBackupStatDelta)) :
    f.pick deltas.length (deltas.map fun e => e.2.uploadedBytes).sum = figureSum f deltas := by
  cases f <;> simp [Figure.pick, figureSum, Figure.ofBytes]

/-- The deltas of a batch are of the node of the fold, and the rows that are still there are the ones that
it has read. -/
structure BatchOk (db : ContentBackupDb) (c : FoldCall) : Prop where
  nodup : (c.batch.map Prod.fst).Nodup
  le : ∀ e ∈ c.batch, e.1 ≤ db.statDeltaSeq
  mine : ∀ e ∈ c.batch, e.2.siteID = c.siteID ∧ e.2.storageNodeID = c.storageNodeID
  row : ∀ e ∈ c.batch, ∀ delta, db.statDeltas.get? e.1 = some delta → delta = e.2

/-- The ids of the deltas do not exceed the sequence. -/
def SeqOk (db : ContentBackupDb) : Prop :=
  ∀ id delta, db.statDeltas.get? id = some delta → id ≤ db.statDeltaSeq

theorem mem_foldBatch {limit : ℤ} {e : ℤ × ContentBackupStatDelta}
    (h : e ∈ foldBatch db siteID storageNodeID limit) :
    db.statDeltas.get? e.1 = some e.2 ∧ e.2.siteID = siteID ∧ e.2.storageNodeID = storageNodeID := by
  have hmem := mem_of_mem_take h
  rw [mem_insertionSort, mem_filter, Bool.and_eq_true, decide_eq_true_eq, decide_eq_true_eq] at hmem
  exact ⟨(get?_eq_some_iff _ _ _).2 hmem.1, hmem.2⟩

theorem nodup_foldBatch (db : ContentBackupDb) (siteID storageNodeID : String) (limit : ℤ) :
    ((foldBatch db siteID storageNodeID limit).map Prod.fst).Nodup := by
  refine List.Nodup.sublist ((take_sublist _ _).map _) ?_
  rw [((perm_insertionSort _ _).map Prod.fst).nodup_iff]
  exact db.statDeltas.nodup.sublist (filter_sublist.map _)

theorem batchOk_foldBatch (hseq : SeqOk db) (limit : ℤ) :
    BatchOk db { siteID, storageNodeID, batch := foldBatch db siteID storageNodeID limit } where
  nodup := nodup_foldBatch db siteID storageNodeID limit
  le e he := hseq e.1 e.2 (mem_foldBatch he).1
  mine _ he := (mem_foldBatch he).2
  row _ he _ hdelta := some.inj (hdelta.symm.trans (mem_foldBatch he).1)

/-- The deltas after a step: ids grow, and no id is used again. -/
structure DeltasStep (db db' : ContentBackupDb) : Prop where
  seq : db.statDeltaSeq ≤ db'.statDeltaSeq
  old : ∀ id ≤ db.statDeltaSeq, ∀ delta, db'.statDeltas.get? id = some delta →
    db.statDeltas.get? id = some delta
  new : ∀ id delta, db'.statDeltas.get? id = some delta → id ≤ db'.statDeltaSeq

theorem BatchOk.step (h : BatchOk db c) (hstep : DeltasStep db db') : BatchOk db' c where
  nodup := h.nodup
  le e he := (h.le e he).trans hstep.seq
  mine := h.mine
  row e he delta hdelta := h.row e he delta (hstep.old e.1 (h.le e he) delta hdelta)

/-! ## Folds -/

theorem mem_batchDays {batch : List (ℤ × ContentBackupStatDelta)} :
    day ∈ batchDays batch ↔ ∃ e ∈ batch, e.2.statDate = day := by
  simp [batchDays]

theorem nodup_batchDays (batch : List (ℤ × ContentBackupStatDelta)) : (batchDays batch).Nodup := by
  rw [batchDays, nodup_reverse]
  exact nodup_dedup _

theorem perDay_of_notMem {batch : List (ℤ × ContentBackupStatDelta)} (h : day ∉ batchDays batch) :
    perDay batch day = [] := by
  rw [perDay, filter_eq_nil_iff]
  intro e he hday
  exact h (mem_batchDays.2 ⟨e, he, of_decide_eq_true hday⟩)

theorem sum_unfolded_of_mine
    (h : ∀ e ∈ c.batch, e.2.siteID = c.siteID ∧ e.2.storageNodeID = c.storageNodeID) :
    (c.batch.map fun e => unfolded f siteID storageNodeID day e.1 e.2).sum =
      if c.siteID = siteID ∧ c.storageNodeID = storageNodeID then figureSum f (perDay c.batch day)
      else 0 := by
  obtain ⟨siteID', storageNodeID', batch⟩ := c
  dsimp only at h ⊢
  induction batch with
  | nil => simp [perDay, figureSum]
  | cons e batch ih =>
    obtain ⟨rfl, rfl⟩ := h e mem_cons_self
    rw [map_cons, sum_cons, ih fun e' he' => h e' (mem_cons_of_mem e he')]
    unfold unfolded perDay figureSum
    rw [filter_cons]
    by_cases hnode : e.2.siteID = siteID ∧ e.2.storageNodeID = storageNodeID
    · by_cases hday : e.2.statDate = day
      · simp [hnode, hday]
      · simp [hnode, hday]
    · rw [if_neg fun hall => hnode ⟨hall.1, hall.2.1⟩, if_neg hnode, if_neg hnode, add_zero]

theorem uploads_foldl_addDailyUploads {storageNodeID' : String} {count bytes : String → ℤ}
    (days : List String) (hdays : days.Nodup) (db : ContentBackupDb) :
    f.uploads (dailyStat (days.foldl (fun db day =>
        addDailyUploads db siteID' day storageNodeID' (count day) (bytes day) now) db) siteID
        storageNodeID day) =
      f.uploads (dailyStat db siteID storageNodeID day) +
        if siteID' = siteID ∧ storageNodeID' = storageNodeID ∧ day ∈ days then
          f.pick (count day) (bytes day)
        else 0 := by
  induction days generalizing db with
  | nil => simp
  | cons d days ih =>
    obtain ⟨hd, hdays⟩ := nodup_cons.1 hdays
    rw [foldl_cons, ih hdays, uploads_addDailyUploads, add_assoc]
    congr 1
    by_cases hnode : siteID' = siteID ∧ storageNodeID' = storageNodeID
    · by_cases hday : d = day
      · subst hday
        simp [hnode, hd]
      · simp [hnode, hday, Ne.symm hday]
    · rw [if_neg fun hall => hnode ⟨hall.1, hall.2.1⟩, if_neg fun hall => hnode ⟨hall.1, hall.2.1⟩,
        if_neg fun hall => hnode ⟨hall.1, hall.2.1⟩, add_zero]

theorem foldl_addDailyUploads_frame {storageNodeID' : String} {count bytes : String → ℤ}
    (days : List String) (db : ContentBackupDb) : let db' := days.foldl (fun db day =>
      addDailyUploads db siteID' day storageNodeID' (count day) (bytes day) now) db
    db'.statDeltas = db.statDeltas ∧ db'.statDeltaSeq = db.statDeltaSeq ∧
      ∀ f : Figure, ∀ siteID storageNodeID day,
        f.cleanups (dailyStat db' siteID storageNodeID day) =
          f.cleanups (dailyStat db siteID storageNodeID day) := by
  induction days generalizing db with
  | nil => exact ⟨rfl, rfl, fun _ _ _ _ => rfl⟩
  | cons d days ih =>
    obtain ⟨hdeltas, hseq, hcleanups⟩ := ih (addDailyUploads db siteID' d storageNodeID' (count d)
      (bytes d) now)
    exact ⟨hdeltas, hseq, fun f siteID storageNodeID day =>
      (hcleanups f siteID storageNodeID day).trans (cleanups_addDailyUploads _ _ _)⟩

theorem foldTx_deleted (hc : BatchOk db c) (deleted : ℤ → ContentBackupStatDelta → Bool)
    (hdeleted : ∀ id delta, deleted id delta = true → id ∈ c.batch.map Prod.fst)
    (hlength : (db.statDeltas.rows.filter fun e => deleted e.1 e.2).length = c.batch.length) :
    (db.statDeltas.rows.filter fun e => deleted e.1 e.2).Perm c.batch := by
  have hnodup : (db.statDeltas.rows.filter fun e => deleted e.1 e.2).Nodup :=
    (List.Nodup.of_map _ db.statDeltas.nodup).filter _
  refine (hnodup.subperm fun e he => ?_).perm_of_length_le hlength.ge
  obtain ⟨hmem, hdel⟩ := mem_filter.1 he
  obtain ⟨e', he', hid⟩ := mem_map.1 (hdeleted _ _ hdel)
  have hrow : db.statDeltas.get? e'.1 = some e.2 := by
    rw [hid]
    exact (get?_eq_some_iff _ _ _).2 hmem
  obtain rfl : e' = e := Prod.ext hid (hc.row e' he' e.2 hrow).symm
  exact he'

theorem foldTx_of_ok (hc : BatchOk db c)
    (h : foldTx db c.siteID c.storageNodeID c.batch now = .ok (db', ())) :
    db'.statDeltaSeq = db.statDeltaSeq ∧
      (∀ id delta, db'.statDeltas.get? id = some delta → db.statDeltas.get? id = some delta) ∧
      ∀ f siteID storageNodeID day, f.uploads (dailyStat db' siteID storageNodeID day) +
            db'.statDeltas.sum (unfolded f siteID storageNodeID day) =
          f.uploads (dailyStat db siteID storageNodeID day) +
            db.statDeltas.sum (unfolded f siteID storageNodeID day) ∧
        f.cleanups (dailyStat db' siteID storageNodeID day) =
          f.cleanups (dailyStat db siteID storageNodeID day) := by
  obtain ⟨hlength, h⟩ := Except.ite_error_eq_ok_iff.1 h
  have hperm := foldTx_deleted hc
    (fun id delta => decide (delta.siteID = c.siteID ∧ id ∈ c.batch.map Prod.fst))
    (fun id delta hdel => (of_decide_eq_true hdel).2) (not_not.1 hlength)
  rw [← (Prod.mk.inj (Except.ok.inj h)).1]
  refine ⟨(foldl_addDailyUploads_frame _ _).2.1, fun id delta hdelta => ?_,
    fun f siteID storageNodeID day => ⟨?_, (foldl_addDailyUploads_frame _ _).2.2 f _ _ _⟩⟩
  · rw [(foldl_addDailyUploads_frame _ _).1, get?_eraseWhere, filter_eq_some_iff] at hdelta
    exact hdelta.1
  · rw [(foldl_addDailyUploads_frame _ _).1, uploads_foldl_addDailyUploads _ (nodup_batchDays _),
      figureSum_eq_pick]
    have hsum := sum_eraseWhere db.statDeltas
      (fun id delta => decide (delta.siteID = c.siteID ∧ id ∈ c.batch.map Prod.fst))
      (unfolded f siteID storageNodeID day)
    rw [(hperm.map _).sum_eq, sum_unfolded_of_mine hc.mine] at hsum
    have hday : (if c.siteID = siteID ∧ c.storageNodeID = storageNodeID ∧ day ∈ batchDays c.batch then
          figureSum f (perDay c.batch day) else 0) =
        if c.siteID = siteID ∧ c.storageNodeID = storageNodeID then figureSum f (perDay c.batch day)
        else 0 := by
      by_cases hmem : day ∈ batchDays c.batch
      · simp [hmem]
      · simp [perDay_of_notMem hmem, figureSum]
    rw [hday]
    dsimp only [dailyStat] at hsum ⊢
    omega

/-! ## Steps -/

inductive StatStep (w : World) : Label → ContentBackupDb → Prop
  | quiet (a : Label) (db' : ContentBackupDb) (hdeltas : db'.statDeltas = w.db.statDeltas)
      (hseq : db'.statDeltaSeq = w.db.statDeltaSeq) (hdaily : db'.dailyStats = w.db.dailyStats)
      (huploads : db'.jobs = w.db.jobs ∨ ∀ o siteID lease now, a ≠ .markUploaded o siteID lease now)
      (hcleanups : db'.jobs = w.db.jobs ∨
        ∀ o siteID jobID storageNodeID now, a ≠ .markCleaned o siteID jobID storageNodeID now) :
      StatStep w a db'
  | upload (o : Outcome) (siteID : String) (lease : ContentBackupLease) (now : ℤ)
      (row : ContentBackupJob) (hrow : w.db.jobs.get? (siteID, lease.jobID) = some row)
      (hheld : isHeld lease row = true) (hday : contentBackupDayFromUnix now ≠ "") :
      StatStep w (.markUploaded o siteID lease now)
        (createStatDelta
          { w.db with jobs := w.db.jobs.modify (siteID, lease.jobID) (uploadedUpdates now) }
          { siteID
            storageNodeID := row.storageNodeID
            statDate := contentBackupDayFromUnix now
            uploadedBytes := row.compressedBytes
            createdAt := now })
  | clean (o : Outcome) (siteID jobID : String) (now : ℤ) (row : ContentBackupJob)
      (db₁ : ContentBackupDb) (hrow : w.db.jobs.get? (siteID, jobID) = some row)
      (hpending : isCleanupPending row = true)
      (hdb₁ : db₁ = { w.db with jobs := w.db.jobs.modify (siteID, jobID) (cleanedUpdates now) }) :
      StatStep w (.markCleaned o siteID jobID row.storageNodeID now)
        (if contentBackupDayFromUnix now = "" then db₁
        else
          addDailyCleanup db₁ siteID (contentBackupDayFromUnix now) row.storageNodeID
            row.compressedBytes now)
  | fold (call : ℕ) (o : Outcome) (now : ℤ) (c : FoldCall) (db' : ContentBackupDb)
      (hcall : w.folds.get? call = some c)
      (hok : foldTx w.db c.siteID c.storageNodeID c.batch now = .ok (db', ())) :
      StatStep w (.foldWrite call o now) db'
  | restart (statDeltaSeq : ℤ) (hfree : ∀ e ∈ w.db.statDeltas.rows, e.1 ≤ statDeltaSeq) :
      StatStep w (.restart statDeltaSeq) { w.db with statDeltaSeq }

/-- What is assumed of the database: it never uses an id of a delta again, not even after a restart. -/
def NeverReused (w : World) : Label → Prop
  | .restart statDeltaSeq => w.db.statDeltaSeq ≤ statDeltaSeq
  | _ => True

instance (w : World) : (a : Label) → Decidable (NeverReused w a)
  | .restart statDeltaSeq => inferInstanceAs (Decidable (w.db.statDeltaSeq ≤ statDeltaSeq))
  | .ensurePending .. | .claim .. | .renew .. | .markUploaded .. | .scheduleRetry .. | .markFailed ..
  | .retryRead .. | .retryWrite .. | .scheduleCleanup .. | .markCleaned .. | .foldRead ..
  | .foldWrite .. => .isTrue trivial

theorem StatStep.same (w : World) (a : Label) : StatStep w a w.db :=
  .quiet a w.db rfl rfl rfl (.inl rfl) (.inl rfl)

theorem StatStep.of_jobs (h : db' = w.db ∨ ∃ jobs, db' = { w.db with jobs })
    (huploads : ∀ o siteID lease now, a ≠ .markUploaded o siteID lease now)
    (hcleanups : ∀ o siteID jobID storageNodeID now,
      a ≠ .markCleaned o siteID jobID storageNodeID now) : StatStep w a db' := by
  obtain rfl | ⟨jobs, rfl⟩ := h
  · exact StatStep.same w a
  · exact .quiet a _ rfl rfl rfl (.inr huploads) (.inr hcleanups)

theorem stats_of_step (h : step w a = some w') : StatStep w a w'.db := by
  cases a with
  | ensurePending o siteID jobID storageNodeID createdAt compressedBytes =>
    rw [step] at h
    cases h
    refine StatStep.of_jobs ?_ (by simp) (by simp)
    refine (ensurePending_fst o w.db siteID jobID _).imp_right ?_
    rintro ⟨_, jobs, _, hdb⟩
    exact ⟨jobs, hdb⟩
  | claim o siteID jobID storageNodeID owner token now untilUnix =>
    rw [step] at h
    split_ifs at h with hfresh
    cases h
    refine StatStep.of_jobs ?_ (by simp) (by simp)
    obtain ⟨-, -, row, -, -, hdb⟩ | ⟨-, hsame⟩ :=
      claim_fst_eq o w.db siteID jobID storageNodeID owner token now untilUnix
    · exact .inr ⟨_, hdb⟩
    · exact .inl hsame
  | renew o siteID lease now untilUnix =>
    rw [step] at h
    cases h
    refine StatStep.of_jobs ?_ (by simp) (by simp)
    refine (renew_fst o w.db siteID lease now untilUnix).imp_right ?_
    rintro ⟨_, _, _, _, hdb⟩
    exact ⟨_, hdb⟩
  | markUploaded o siteID lease now =>
    rw [step] at h
    cases h
    obtain hsame | ⟨row, hrow, hheld, hday, hdb⟩ := markUploaded_fst o w.db siteID lease now
    · rw [hsame]
      exact StatStep.same w _
    · rw [hdb]
      exact .upload o siteID lease now row hrow hheld hday
  | scheduleRetry o siteID lease code message now next =>
    rw [step] at h
    cases h
    refine StatStep.of_jobs ?_ (by simp) (by simp)
    refine (scheduleRetry_fst o w.db siteID lease code message now next).imp_right ?_
    rintro ⟨_, _, _, hdb⟩
    exact ⟨_, hdb⟩
  | markFailed o siteID lease code message now =>
    rw [step] at h
    cases h
    refine StatStep.of_jobs ?_ (by simp) (by simp)
    refine (markFailed_fst o w.db siteID lease code message now).imp_right ?_
    rintro ⟨_, _, _, hdb⟩
    exact ⟨_, hdb⟩
  | retryRead call siteID jobID =>
    rw [step] at h
    split_ifs at h <;> obtain rfl := some.inj h <;> exact StatStep.same w _
  | retryWrite call o now =>
    rw [step] at h
    split at h
    · cases h
    rename_i siteID jobID hcall
    cases h
    refine StatStep.of_jobs ?_ (by simp) (by simp)
    refine (retryFailedWrite_fst o w.db siteID jobID now).imp_right ?_
    rintro ⟨_, _, _, hdb⟩
    exact ⟨_, hdb⟩
  | scheduleCleanup o siteID jobID storageNodeID message now next =>
    rw [step] at h
    cases h
    refine StatStep.of_jobs ?_ (by simp) (by simp)
    refine (scheduleCleanup_fst o w.db siteID jobID storageNodeID message now next).imp_right ?_
    rintro ⟨_, _, _, hdb⟩
    exact ⟨_, hdb⟩
  | markCleaned o siteID jobID storageNodeID now =>
    rw [step] at h
    cases h
    obtain hsame | ⟨row, db₁, hrow, rfl, hpending, hdb₁, hdb⟩ :=
      markCleaned_fst o w.db siteID jobID storageNodeID now
    · rw [hsame]
      exact StatStep.same w _
    · rw [hdb]
      exact .clean o siteID jobID now row db₁ hrow hpending hdb₁
  | foldRead call siteID storageNodeID limit =>
    rw [step] at h
    cases h
    exact StatStep.same w _
  | foldWrite call o now =>
    rw [step] at h
    split at h
    · cases h
    rename_i c hcall
    cases h
    obtain hsame | hok := foldStatDeltas_fst o w.db c.siteID c.storageNodeID c.batch now
    · rw [hsame]
      exact StatStep.same w _
    · exact .fold call o now c _ hcall hok
  | restart statDeltaSeq =>
    rw [step] at h
    split_ifs at h with hfree
    cases h
    exact .restart statDeltaSeq hfree

theorem folds_of_step (h : step w a = some w') {call : ℕ} (hc : w'.folds.get? call = some c) :
    w.folds.get? call = some c ∨ ∃ siteID storageNodeID limit, w'.db = w.db ∧
      c = { siteID, storageNodeID, batch := foldBatch w.db siteID storageNodeID limit } := by
  cases a with
  | claim o siteID jobID storageNodeID owner token now untilUnix =>
    rw [step] at h
    split_ifs at h
    cases h
    exact .inl hc
  | retryRead call siteID jobID =>
    rw [step] at h
    split_ifs at h <;> obtain rfl := some.inj h <;> exact .inl hc
  | retryWrite call o now =>
    rw [step] at h
    split at h
    · cases h
    cases h
    exact .inl hc
  | foldRead call' siteID storageNodeID limit =>
    rw [step] at h
    cases h
    rw [get?_put] at hc
    split_ifs at hc
    · exact .inr ⟨siteID, storageNodeID, limit, rfl, (some.inj hc).symm⟩
    · exact .inl hc
  | foldWrite call' o now =>
    rw [step] at h
    split at h
    · cases h
    cases h
    rw [get?_erase] at hc
    split_ifs at hc
    exact .inl hc
  | restart statDeltaSeq =>
    rw [step] at h
    split_ifs at h
    cases h
    exact .inl hc
  | _ =>
    rw [step] at h
    cases h
    exact .inl hc

/-! ## The invariant -/

structure Tallied (db : ContentBackupDb) (f : Figure) (siteID storageNodeID day : String) : Prop where
  uploads : f.uploads (dailyStat db siteID storageNodeID day) +
    db.statDeltas.sum (unfolded f siteID storageNodeID day) =
      db.jobs.sum (uploadedOn f siteID storageNodeID day)
  cleanups : f.cleanups (dailyStat db siteID storageNodeID day) =
    db.jobs.sum (cleanedOn f siteID storageNodeID day)

structure StatInv (w : World) : Prop where
  inv : Inv w
  seq : SeqOk w.db
  batches : ∀ call c, w.folds.get? call = some c → BatchOk w.db c
  tallied : ∀ f siteID storageNodeID day, Tallied w.db f siteID storageNodeID day

theorem StatStep.deltasStep (hi : StatInv w) (hids : NeverReused w a) (h : StatStep w a db') :
    DeltasStep w.db db' := by
  cases h with
  | quiet _ _ hdeltas hseq =>
    refine ⟨hseq.ge, fun id _ delta hdelta => by rwa [hdeltas] at hdelta, fun id delta hdelta => ?_⟩
    rw [hdeltas] at hdelta
    rw [hseq]
    exact hi.seq id delta hdelta
  | upload o siteID lease now row hrow hheld hday =>
    refine ⟨by simp [createStatDelta], fun id hid delta hdelta => ?_, fun id delta hdelta => ?_⟩
    · simp only [createStatDelta, get?_put] at hdelta
      rwa [if_neg (by omega)] at hdelta
    · simp only [createStatDelta, get?_put] at hdelta ⊢
      split_ifs at hdelta with hid
      · exact hid.le
      · have := hi.seq id delta hdelta
        omega
  | clean o siteID jobID now row db₁ hrow hpending hdb₁ =>
    subst hdb₁
    split_ifs <;> exact ⟨le_rfl, fun _ _ _ hdelta => hdelta, hi.seq⟩
  | fold call o now c _ hcall hok =>
    obtain ⟨hseq, hold, -⟩ := foldTx_of_ok (hi.batches call c hcall) hok
    refine ⟨hseq.ge, fun id _ delta hdelta => hold id delta hdelta, fun id delta hdelta => ?_⟩
    rw [hseq]
    exact hi.seq id delta (hold id delta hdelta)
  | restart statDeltaSeq hfree =>
    exact ⟨hids, fun _ _ _ hdelta => hdelta, fun id delta hdelta =>
      hfree (id, delta) ((get?_eq_some_iff _ _ _).1 hdelta)⟩

theorem Tallied.upload (h : Tallied db f siteID storageNodeID day) {jobID : String}
    (hrow : db.jobs.get? (siteID', jobID) = some row) (hstatus : row.status ≠ .uploaded)
    (hcleanup : row.cleanupState ≠ .done) (hseq : SeqOk db)
    (hday : contentBackupDayFromUnix now ≠ "") :
    Tallied
      (createStatDelta { db with jobs := db.jobs.modify (siteID', jobID) (uploadedUpdates now) }
        { siteID := siteID'
          storageNodeID := row.storageNodeID
          statDate := contentBackupDayFromUnix now
          uploadedBytes := row.compressedBytes
          createdAt := now })
      f siteID storageNodeID day := by
  have hfree : db.statDeltas.get? (db.statDeltaSeq + 1) = none := by
    cases hdelta : db.statDeltas.get? (db.statDeltaSeq + 1) with
    | none => rfl
    | some delta =>
      have := hseq _ delta hdelta
      omega
  have huploads := h.uploads
  have hcleanups := h.cleanups
  constructor
  · simp only [createStatDelta, dailyStat] at huploads ⊢
    rw [sum_put_of_none hfree, sum_modify hrow, uploadedOn_of_ne hstatus,
      uploadedOn_uploadedUpdates hday, ← huploads, unfolded]
    dsimp only
    omega
  · simp only [createStatDelta, dailyStat] at hcleanups ⊢
    rw [hcleanups, sum_modify hrow, cleanedOn_of_ne hcleanup,
      cleanedOn_of_ne (by simp [uploadedUpdates])]
    omega

theorem Tallied.clean (h : Tallied db f siteID storageNodeID day) {jobID : String}
    (hrow : db.jobs.get? (siteID', jobID) = some row) (hpending : isCleanupPending row = true)
    {db₁ : ContentBackupDb}
    (hdb₁ : db₁ = { db with jobs := db.jobs.modify (siteID', jobID) (cleanedUpdates now) }) :
    Tallied
      (if contentBackupDayFromUnix now = "" then db₁
      else
        addDailyCleanup db₁ siteID' (contentBackupDayFromUnix now) row.storageNodeID
          row.compressedBytes now)
      f siteID storageNodeID day := by
  obtain ⟨hstatus, hcleanup⟩ := isCleanupPending_iff.1 hpending
  have huploads : db₁.jobs.sum (uploadedOn f siteID storageNodeID day) =
      db.jobs.sum (uploadedOn f siteID storageNodeID day) := by
    rw [hdb₁, sum_modify hrow]
    have hsame : uploadedOn f siteID storageNodeID day (siteID', jobID) (cleanedUpdates now row) =
        uploadedOn f siteID storageNodeID day (siteID', jobID) row := rfl
    omega
  have hcleanups : db₁.jobs.sum (cleanedOn f siteID storageNodeID day) =
      db.jobs.sum (cleanedOn f siteID storageNodeID day) +
        if siteID' = siteID ∧ row.storageNodeID = storageNodeID ∧ FallsOn now day then
          f.ofBytes row.compressedBytes
        else 0 := by
    rw [hdb₁, sum_modify hrow, cleanedOn_cleanedUpdates, cleanedOn_of_ne (by rw [hcleanup]; decide)]
    dsimp only
    omega
  have hdaily : dailyStat db₁ siteID storageNodeID day = dailyStat db siteID storageNodeID day := by
    rw [hdb₁]
    rfl
  have hdeltas : db₁.statDeltas = db.statDeltas := by rw [hdb₁]
  by_cases hday : contentBackupDayFromUnix now = ""
  · have hnot : ¬ FallsOn now day := fun hon => hon.1 (hon.2.symm.trans hday)
    rw [if_pos hday]
    refine ⟨by rw [hdaily, hdeltas, huploads, h.uploads], ?_⟩
    rw [hdaily, hcleanups, if_neg fun hall => hnot hall.2.2, h.cleanups, add_zero]
  · have hon : FallsOn now day ↔ contentBackupDayFromUnix now = day :=
      ⟨And.right, fun heq => ⟨heq ▸ hday, heq⟩⟩
    rw [if_neg hday]
    constructor
    · rw [uploads_addDailyCleanup, hdaily]
      simp only [addDailyCleanup, upsertDailyStat]
      rw [hdeltas, huploads, h.uploads]
    · rw [cleanups_addDailyCleanup, hdaily]
      simp only [addDailyCleanup, upsertDailyStat]
      simp only [hcleanups, h.cleanups, hon]

theorem tallied_of_step (hi : StatInv w) (h : step w a = some w') (f : Figure)
    (siteID storageNodeID day : String) : Tallied w'.db f siteID storageNodeID day := by
  have htally := hi.tallied f siteID storageNodeID day
  have hsumUp : (w'.db.jobs = w.db.jobs ∨ ∀ o siteID lease now, a ≠ .markUploaded o siteID lease now) →
      w'.db.jobs.sum (uploadedOn f siteID storageNodeID day) =
        w.db.jobs.sum (uploadedOn f siteID storageNodeID day) := by
    rintro (hsame | ha)
    · rw [hsame]
    · exact sum_uploadedOn_of_step h ha
  have hsumCl : (w'.db.jobs = w.db.jobs ∨
        ∀ o siteID jobID storageNodeID now, a ≠ .markCleaned o siteID jobID storageNodeID now) →
      w'.db.jobs.sum (cleanedOn f siteID storageNodeID day) =
        w.db.jobs.sum (cleanedOn f siteID storageNodeID day) := by
    rintro (hsame | ha)
    · rw [hsame]
    · exact sum_cleanedOn_of_step hi.inv h ha
  have hstats := stats_of_step h
  generalize w'.db = db' at hstats hsumUp hsumCl ⊢
  cases hstats with
  | quiet _ _ hdeltas hseq hdaily huploads hcleanups =>
    have hrow : dailyStat db' siteID storageNodeID day = dailyStat w.db siteID storageNodeID day := by
      rw [dailyStat, hdaily, dailyStat]
    exact ⟨by rw [hrow, hdeltas, hsumUp huploads, htally.uploads],
      by rw [hrow, hsumCl hcleanups, htally.cleanups]⟩
  | upload o siteID' lease now row hrow hheld hday =>
    have hstatus := status_of_isHeld hheld
    have hna := (hi.inv.rows _ row hrow).notApplicable (by rw [hstatus]; decide)
    exact htally.upload hrow (by rw [hstatus]; decide) (by rw [hna]; decide) hi.seq hday
  | clean o siteID' jobID now row db₁ hrow hpending hdb₁ => exact htally.clean hrow hpending hdb₁
  | fold call o now c _ hcall hok =>
    obtain ⟨-, -, hmoved⟩ := foldTx_of_ok (hi.batches call c hcall) hok
    obtain ⟨huploads, hcleanups⟩ := hmoved f siteID storageNodeID day
    exact ⟨by rw [huploads, hsumUp (.inr (by simp)), htally.uploads],
      by rw [hcleanups, hsumCl (.inr (by simp)), htally.cleanups]⟩
  | restart statDeltaSeq hfree =>
    exact ⟨htally.uploads.trans (hsumUp (.inl rfl)).symm, htally.cleanups.trans (hsumCl (.inl rfl)).symm⟩

theorem StatInv.step (hi : StatInv w) (hids : NeverReused w a) (h : ContentBackup.step w a = some w') :
    StatInv w' := by
  have hdeltas := (stats_of_step h).deltasStep hi hids
  refine ⟨step_inv hi.inv h, hdeltas.new, fun call c hc => ?_, tallied_of_step hi h⟩
  obtain hold | ⟨siteID, storageNodeID, limit, hsame, rfl⟩ := folds_of_step h hc
  · exact (hi.batches call c hold).step hdeltas
  · rw [hsame]
    exact batchOk_foldBatch hi.seq limit

theorem statInv_empty : StatInv {} where
  inv := inv_empty
  seq _ _ hdelta := by cases hdelta
  batches _ _ hc := by cases hc
  tallied f _ _ _ := by cases f <;> exact ⟨rfl, rfl⟩

theorem statInv_of_run {l : List Label} (hids : Run.Along step NeverReused {} l)
    (h : Run.run step {} l = some w) : StatInv w :=
  Run.invariant_along (fun _ _ _ hi hids hs => hi.step hids hs) statInv_empty hids h

/-! ## Days of jobs -/

/-- How a row is dated: `MarkUploaded` sets the instant of the upload, `MarkCleaned` that of the
cleanup, and afterwards they stay, as the node and the size always do. -/
structure Dated (a : Label) (row row' : ContentBackupJob) : Prop where
  node : row'.storageNodeID = row.storageNodeID
  bytes : row'.compressedBytes = row.compressedBytes
  kept : row.status = .uploaded → row'.status = .uploaded ∧ row'.uploadedAt = row.uploadedAt
  moved : row.status ≠ .uploaded → row'.status = .uploaded →
    ∃ o siteID lease, a = .markUploaded o siteID lease row'.uploadedAt
  keptDone : row.cleanupState = .done → row'.cleanupState = .done ∧ row'.cleanedAt = row.cleanedAt
  movedDone : row.cleanupState ≠ .done → row'.cleanupState = .done →
    ∃ o siteID jobID, a = .markCleaned o siteID jobID row.storageNodeID row'.cleanedAt

theorem Dated.of_quiet (hnode : row'.storageNodeID = row.storageNodeID)
    (hbytes : row'.compressedBytes = row.compressedBytes)
    (hup : row'.status = .uploaded ↔ row.status = .uploaded)
    (hupAt : row'.uploadedAt = row.uploadedAt)
    (hclean : row'.cleanupState = .done ↔ row.cleanupState = .done)
    (hcleanAt : row'.cleanedAt = row.cleanedAt) : Dated a row row' where
  node := hnode
  bytes := hbytes
  kept h := ⟨hup.2 h, hupAt⟩
  moved hnot h := absurd (hup.1 h) hnot
  keptDone h := ⟨hclean.2 h, hcleanAt⟩
  movedDone hnot h := absurd (hclean.1 h) hnot

theorem RowStep.dated (hok : JobOk w.tokens row) (h : RowStep w key a row row') :
    Dated a row row' := by
  cases h with
  | same | renew | scheduleCleanup => exact Dated.of_quiet rfl rfl Iff.rfl rfl Iff.rfl rfl
  | claim _ _ _ _ _ _ _ _ _ _ _ hguard =>
    refine Dated.of_quiet rfl rfl ?_ rfl Iff.rfl rfl
    obtain hs | hs := status_of_isClaimable hguard <;> simp [claimUpdates, hs]
  | upload o siteID lease now _ _ hheld =>
    have hs : row.status ≠ .uploaded := by rw [status_of_isHeld hheld]; decide
    have hc := hok.notApplicable hs
    exact ⟨rfl, rfl, fun h => absurd h hs, fun _ _ => ⟨o, siteID, lease, rfl⟩,
      (fun h => by rw [hc] at h; cases h), fun _ h => by cases h⟩
  | retry _ _ _ _ _ _ _ _ _ hheld | fail _ _ _ _ _ _ _ _ hheld =>
    exact Dated.of_quiet rfl rfl (by simp [unleasedUpdates, status_of_isHeld hheld]) rfl Iff.rfl rfl
  | requeue _ _ _ _ _ hfailed =>
    exact Dated.of_quiet rfl rfl (by simp [retryUpdates, hfailed]) rfl Iff.rfl rfl
  | clean o siteID jobID storageNodeID now _ _ hnode hpending =>
    have hc : row.cleanupState ≠ .done := by rw [(isCleanupPending_iff.1 hpending).2]; decide
    exact ⟨rfl, rfl, fun h => ⟨h, rfl⟩, fun hnot h => absurd h hnot, fun h => absurd h hc,
      fun _ _ => ⟨o, siteID, jobID, by rw [hnode]; rfl⟩⟩

/-! ## The tally -/

/-- In every run in which the database never uses an id of a delta again, for every site, node and day:
the daily row and the deltas that are not folded count the jobs that were uploaded on the day, each once,
and their bytes, and the daily row the ones that were cleaned up on it. -/
theorem counted_once_of_run {w : World} {l : List Label} (hids : Run.Along step NeverReused {} l)
    (h : Run.run step {} l = some w) :
    (∀ siteID storageNodeID day, (dailyStat w.db siteID storageNodeID day).uploadedCount +
          w.db.statDeltas.sum (unfolded .count siteID storageNodeID day) =
        w.db.jobs.sum (uploadedOn .count siteID storageNodeID day) ∧
      (dailyStat w.db siteID storageNodeID day).uploadedBytes +
          w.db.statDeltas.sum (unfolded .bytes siteID storageNodeID day) =
        w.db.jobs.sum (uploadedOn .bytes siteID storageNodeID day) ∧
      (dailyStat w.db siteID storageNodeID day).cleanedCount =
        w.db.jobs.sum (cleanedOn .count siteID storageNodeID day) ∧
      (dailyStat w.db siteID storageNodeID day).freedBytes =
        w.db.jobs.sum (cleanedOn .bytes siteID storageNodeID day)) ∧
    ∀ a w', step w a = some w' → (∀ key row, w.db.jobs.get? key = some row →
        ∃ row', w'.db.jobs.get? key = some row' ∧ Dated a row row') ∧
      ∀ key row', w.db.jobs.get? key = none → w'.db.jobs.get? key = some row' →
        row'.status ≠ .uploaded ∧ row'.cleanupState ≠ .done := by
  have hi := statInv_of_run hids h
  refine ⟨fun siteID storageNodeID day => ?_, fun a w' hs => ⟨fun key row hrow => ?_,
    fun key row' hnone hrow' => ?_⟩⟩
  · have hcount := hi.tallied .count siteID storageNodeID day
    have hbytes := hi.tallied .bytes siteID storageNodeID day
    exact ⟨hcount.uploads, hbytes.uploads, hcount.cleanups, hbytes.cleanups⟩
  · obtain ⟨row', hrow', hstep⟩ := (jobs_of_step hs).row key row hrow
    exact ⟨row', hrow', hstep.dated (hi.inv.rows key row hrow)⟩
  · obtain ⟨_, _, _, rfl⟩ := (jobs_of_step hs).new key row' hrow' hnone
    exact ⟨by simp [admitted, buildJob], by simp [admitted, buildJob]⟩

/-- The lease of an upload of `racedFolds`. -/
def uploadLease (jobID token : String) : ContentBackupLease :=
  { siteID := "site", jobID, storageNodeID := "node", owner := "worker", token, generation := 1,
    leaseUntil := 2000 }

/-- Two jobs are uploaded; the answer of one upload is lost and it is repeated.  Two processes fold the
same batch, the database starts again, and one job is cleaned up. -/
def racedFolds : List Label :=
  [.ensurePending .reported "site" "job1" "node" 1000 10,
    .ensurePending .reported "site" "job2" "node" 1000 32,
    .claim .reported "site" "job1" "node" "worker" "token1" 1000 2000,
    .claim .reported "site" "job2" "node" "worker" "token2" 1000 2000,
    .markUploaded .unreported "site" (uploadLease "job1" "token1") 1010,
    .markUploaded .reported "site" (uploadLease "job1" "token1") 1011,
    .foldRead 1 "site" "node" 500,
    .markUploaded .reported "site" (uploadLease "job2" "token2") 1020,
    .foldRead 2 "site" "node" 500, .foldWrite 1 .unreported 1030, .foldWrite 2 .reported 1031,
    .restart 2, .markCleaned .unreported "site" "job1" "node" 1040]

/-- The first fold moves one delta, the second finds it gone and moves nothing. -/
theorem counted_once_of_racedFolds :
    ∃ w, Run.run step {} racedFolds = some w ∧
      (dailyStat w.db "site" "node" "1970-01-01").uploadedCount = 1 ∧
      w.db.jobs.sum (uploadedOn .count "site" "node" "1970-01-01") = 2 ∧
      w.db.jobs.sum (cleanedOn .bytes "site" "node" "1970-01-01") = 10 := by
  refine exists_some_imp (p := fun w =>
    (dailyStat w.db "site" "node" "1970-01-01").uploadedCount = 1 ∧
      (dailyStat w.db "site" "node" "1970-01-01").freedBytes = 10 ∧
      w.db.statDeltas.sum (unfolded .count "site" "node" "1970-01-01") = 1) (by decide)
    fun w h ⟨hone, hten, hdelta⟩ => ?_
  obtain ⟨hcount, -, -, hfreed⟩ := (counted_once_of_run (by decide) h).1 "site" "node" "1970-01-01"
  refine ⟨hone, ?_, ?_⟩
  · rw [← hcount, hone, hdelta]
    rfl
  · rw [← hfreed, hten]

end BeeApi.ContentBackup
