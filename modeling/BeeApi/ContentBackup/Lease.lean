import BeeApi.ContentBackup.Effect
import BeeApi.Lib.Run

/-!
# The lease protocol

Workers of any number of nodes call the store in any order, each with its own clock.  A transaction
commits, is rolled back, or commits without the caller learning of it; UUIDs are new whenever they are
drawn.  `RetryFailed` and `FoldStatDeltas` read before they write, and anything may happen in between.
`RowStep` lists what a step can do to a row; the protocol is read off it.
-/

namespace BeeApi.ContentBackup

open Transaction Option Table

/-! ## The system -/

/-- A call of `FoldStatDeltas` that has read its batch. -/
structure FoldCall where
  siteID : String
  storageNodeID : String
  batch : List (ℤ × ContentBackupStatDelta)

/-- The database, the UUIDs that have been drawn, and the calls that are between their read and their
write. -/
structure World where
  db : ContentBackupDb := {}
  tokens : List String := []
  retries : Table ℕ (String × String) := ∅
  folds : Table ℕ FoldCall := ∅

inductive Label
  | ensurePending (o : Outcome) (siteID jobID storageNodeID : String) (createdAt compressedBytes : ℤ)
  | claim (o : Outcome) (siteID jobID storageNodeID owner token : String) (now untilUnix : ℤ)
  | renew (o : Outcome) (siteID : String) (lease : ContentBackupLease) (now untilUnix : ℤ)
  | markUploaded (o : Outcome) (siteID : String) (lease : ContentBackupLease) (now : ℤ)
  | scheduleRetry (o : Outcome) (siteID : String) (lease : ContentBackupLease)
      (code message : String) (now next : ℤ)
  | markFailed (o : Outcome) (siteID : String) (lease : ContentBackupLease)
      (code message : String) (now : ℤ)
  /-- The read of `RetryFailed`. -/
  | retryRead (call : ℕ) (siteID jobID : String)
  /-- The write of `RetryFailed`. -/
  | retryWrite (call : ℕ) (o : Outcome) (now : ℤ)
  | scheduleCleanup (o : Outcome) (siteID jobID storageNodeID message : String) (now next : ℤ)
  | markCleaned (o : Outcome) (siteID jobID storageNodeID : String) (now : ℤ)
  /-- The read of `FoldStatDeltas`. -/
  | foldRead (call : ℕ) (siteID storageNodeID : String) (limit : ℤ)
  /-- The transaction of `FoldStatDeltas`. -/
  | foldWrite (call : ℕ) (o : Outcome) (now : ℤ)
  /-- The database sets the counter of the delta ids anew, as one does that keeps it in memory only. -/
  | restart (statDeltaSeq : ℤ)

/-- The UUID of a claim is one that has not been drawn before. -/
def step (w : World) : Label → Option World
  | .ensurePending o siteID jobID storageNodeID createdAt compressedBytes =>
    some
      { w with
        db := (ensurePending o w.db siteID jobID
          (buildJob storageNodeID createdAt compressedBytes)).1 }
  | .claim o siteID jobID storageNodeID owner token now untilUnix =>
    if token = "" ∨ token ∈ w.tokens then none
    else
      some
        { w with
          db := (claim o w.db siteID jobID storageNodeID owner token now untilUnix).1
          tokens := token :: w.tokens }
  | .renew o siteID lease now untilUnix =>
    some { w with db := (renew o w.db siteID lease now untilUnix).1 }
  | .markUploaded o siteID lease now =>
    some { w with db := (markUploaded o w.db siteID lease now).1 }
  | .scheduleRetry o siteID lease code message now next =>
    some { w with db := (scheduleRetry o w.db siteID lease code message now next).1 }
  | .markFailed o siteID lease code message now =>
    some { w with db := (markFailed o w.db siteID lease code message now).1 }
  | .retryRead call siteID jobID =>
    if (retryFailedCheck w.db siteID jobID).isSome then some w
    else some { w with retries := w.retries.put call (siteID, jobID) }
  | .retryWrite call o now =>
    match w.retries.get? call with
    | none => none
    | some (siteID, jobID) =>
      some
        { w with
          db := (retryFailedWrite o w.db siteID jobID now).1
          retries := w.retries.erase call }
  | .scheduleCleanup o siteID jobID storageNodeID message now next =>
    some { w with db := (scheduleCleanup o w.db siteID jobID storageNodeID message now next).1 }
  | .markCleaned o siteID jobID storageNodeID now =>
    some { w with db := (markCleaned o w.db siteID jobID storageNodeID now).1 }
  | .foldRead call siteID storageNodeID limit =>
    some
      { w with
        folds := w.folds.put call
          { siteID, storageNodeID, batch := foldBatch w.db siteID storageNodeID limit } }
  | .foldWrite call o now =>
    match w.folds.get? call with
    | none => none
    | some f =>
      some
        { w with
          db := (foldStatDeltas o w.db f.siteID f.storageNodeID f.batch now).1
          folds := w.folds.erase call }
  | .restart statDeltaSeq =>
    -- the next id has to be free
    if ∀ e ∈ w.db.statDeltas.rows, e.1 ≤ statDeltaSeq then
      some { w with db := { w.db with statDeltaSeq } }
    else none

/-! ## What a step does to a row -/

/-- The row of one job before and after a step.  Every constructor carries the guards under which the
row is written. -/
inductive RowStep (w : World) (key : String × String) : Label → ContentBackupJob →
    ContentBackupJob → Prop
  | same (a : Label) (row : ContentBackupJob) : RowStep w key a row row
  | claim (o : Outcome) (siteID jobID storageNodeID owner token : String) (now untilUnix : ℤ)
      (row : ContentBackupJob) (hkey : key = (siteID, jobID)) (hfresh : token ≠ "" ∧ token ∉ w.tokens)
      (hguard : isClaimable storageNodeID now row = true) :
      RowStep w key (.claim o siteID jobID storageNodeID owner token now untilUnix) row
        (claimUpdates owner token now untilUnix (row.leaseGeneration + 1) row)
  | renew (o : Outcome) (siteID : String) (lease : ContentBackupLease) (now untilUnix : ℤ)
      (row : ContentBackupJob) (hkey : key = (siteID, lease.jobID)) (hheld : isHeld lease row = true) :
      RowStep w key (.renew o siteID lease now untilUnix) row
        { row with leaseUntil := untilUnix, updatedAt := now }
  | upload (o : Outcome) (siteID : String) (lease : ContentBackupLease) (now : ℤ)
      (row : ContentBackupJob) (hkey : key = (siteID, lease.jobID)) (hheld : isHeld lease row = true) :
      RowStep w key (.markUploaded o siteID lease now) row (uploadedUpdates now row)
  | retry (o : Outcome) (siteID : String) (lease : ContentBackupLease) (code message : String)
      (now next : ℤ) (row : ContentBackupJob) (hkey : key = (siteID, lease.jobID))
      (hheld : isHeld lease row = true) :
      RowStep w key (.scheduleRetry o siteID lease code message now next) row
        (unleasedUpdates .pending next code message now row)
  | fail (o : Outcome) (siteID : String) (lease : ContentBackupLease) (code message : String)
      (now : ℤ) (row : ContentBackupJob) (hkey : key = (siteID, lease.jobID))
      (hheld : isHeld lease row = true) :
      RowStep w key (.markFailed o siteID lease code message now) row
        (unleasedUpdates .failed 0 code message now row)
  | requeue (call : ℕ) (o : Outcome) (now : ℤ) (row : ContentBackupJob)
      (hcall : w.retries.get? call = some key) (hfailed : row.status = .failed) :
      RowStep w key (.retryWrite call o now) row (retryUpdates now row)
  | scheduleCleanup (o : Outcome) (siteID jobID storageNodeID message : String) (now next : ℤ)
      (row : ContentBackupJob) (hkey : key = (siteID, jobID))
      (hpending : isCleanupPending row = true) :
      RowStep w key (.scheduleCleanup o siteID jobID storageNodeID message now next) row
        { row with
          cleanupAttempts := row.cleanupAttempts + 1
          cleanupAvailableAt := next
          cleanupError := message
          updatedAt := now }
  | clean (o : Outcome) (siteID jobID storageNodeID : String) (now : ℤ) (row : ContentBackupJob)
      (hkey : key = (siteID, jobID)) (hnode : row.storageNodeID = storageNodeID)
      (hpending : isCleanupPending row = true) :
      RowStep w key (.markCleaned o siteID jobID storageNodeID now) row (cleanedUpdates now row)

/-- The jobs after a step: no row disappears, a row is written as in `RowStep`, and a new row is a
built one. -/
structure JobsStep (w : World) (a : Label) (jobs' : Table (String × String) ContentBackupJob) :
    Prop where
  row : ∀ key row, w.db.jobs.get? key = some row →
    ∃ row', jobs'.get? key = some row' ∧ RowStep w key a row row'
  new : ∀ key row', jobs'.get? key = some row' → w.db.jobs.get? key = none →
    ∃ storageNodeID createdAt compressedBytes,
      row' = admitted (buildJob storageNodeID createdAt compressedBytes)

theorem JobsStep.same (w : World) (a : Label) : JobsStep w a w.db.jobs :=
  ⟨fun key row hrow => ⟨row, hrow, .same a row⟩, fun key row' hrow hnone => by
    rw [hnone] at hrow
    cases hrow⟩

variable {w w' : World} {a : Label} {key : String × String} {row : ContentBackupJob}
  {lease : ContentBackupLease}

theorem JobsStep.modify {f : ContentBackupJob → ContentBackupJob}
    (hf : ∀ row, w.db.jobs.get? key = some row → RowStep w key a row (f row)) :
    JobsStep w a (w.db.jobs.modify key f) := by
  refine ⟨fun key' row hrow => ?_, fun key' row' hrow hnone => ?_⟩
  · rw [get?_modify]
    by_cases hkey : key' = key
    · subst hkey
      exact ⟨f row, by simp [hrow], hf row hrow⟩
    · exact ⟨row, by simp [hkey, hrow], .same a row⟩
  · rw [get?_modify] at hrow
    by_cases hkey : key' = key
    · subst hkey
      simp [hnone] at hrow
    · simp [hkey, hnone] at hrow

theorem jobsStep_of_fst {db' : ContentBackupDb} {f : ContentBackupJob → ContentBackupJob}
    {p : ContentBackupJob → Prop} (h : db' = w.db ∨ ∃ row, w.db.jobs.get? key = some row ∧ p row ∧
      db'.jobs = w.db.jobs.modify key f)
    (hf : ∀ row, w.db.jobs.get? key = some row → p row → RowStep w key a row (f row)) :
    JobsStep w a db'.jobs := by
  obtain rfl | ⟨row, hrow, hp, hjobs⟩ := h
  · exact JobsStep.same w a
  · rw [hjobs]
    refine JobsStep.modify fun row' hrow' => ?_
    cases hrow.symm.trans hrow'
    exact hf row hrow' hp

theorem foldl_addDailyUploads_jobs {siteID storageNodeID : String} {now : ℤ}
    {count bytes : String → ℤ} (days : List String) (db : ContentBackupDb) :
    (days.foldl (fun db day =>
      addDailyUploads db siteID day storageNodeID (count day) (bytes day) now) db).jobs = db.jobs := by
  induction days generalizing db with
  | nil => rfl
  | cons day days ih => rw [List.foldl_cons, ih]; rfl

theorem foldStatDeltas_jobs (o : Outcome) (db : ContentBackupDb) (siteID storageNodeID : String)
    (batch : List (ℤ × ContentBackupStatDelta)) (now : ℤ) :
    (foldStatDeltas o db siteID storageNodeID batch now).1.jobs = db.jobs := by
  obtain hsame | hok := foldStatDeltas_fst o db siteID storageNodeID batch now
  · rw [hsame]
  generalize (foldStatDeltas o db siteID storageNodeID batch now).1 = db' at hok ⊢
  unfold foldTx at hok
  dsimp only at hok
  split_ifs at hok
  rw [← (Prod.mk.inj (Except.ok.inj hok)).1, foldl_addDailyUploads_jobs]

theorem jobs_of_step (h : step w a = some w') : JobsStep w a w'.db.jobs := by
  cases a with
  | ensurePending o siteID jobID storageNodeID createdAt compressedBytes =>
    rw [step] at h
    cases h
    obtain hsame | ⟨hpos, jobs, hjobs, hdb⟩ := ensurePending_fst o w.db siteID jobID
      (buildJob storageNodeID createdAt compressedBytes)
    · rw [hsame]
      exact JobsStep.same w _
    · rw [hdb]
      refine ⟨fun key row hrow => ?_, fun key row' hrow hnone => ?_⟩
      · refine ⟨row, ?_, .same _ row⟩
        rw [get?_of_insert? hjobs]
        split_ifs with hkey
        · rw [hkey, ((insert?_eq_some_iff _ _ _ _).1 hjobs).1] at hrow
          cases hrow
        · exact hrow
      · rw [get?_of_insert? hjobs] at hrow
        split_ifs at hrow with hkey
        · exact ⟨storageNodeID, createdAt, compressedBytes, (some.inj hrow).symm⟩
        · rw [hnone] at hrow
          cases hrow
  | claim o siteID jobID storageNodeID owner token now untilUnix =>
    rw [step] at h
    split_ifs at h with hfresh
    cases h
    rw [not_or] at hfresh
    obtain ⟨-, -, row, hrow, hclaim, hdb⟩ | ⟨-, hsame⟩ :=
      claim_fst_eq o w.db siteID jobID storageNodeID owner token now untilUnix
    · dsimp only
      rw [hdb]
      refine JobsStep.modify fun row' hrow' => ?_
      cases hrow.symm.trans hrow'
      exact .claim o siteID jobID storageNodeID owner token now untilUnix row rfl hfresh hclaim
    · dsimp only
      rw [hsame]
      exact JobsStep.same w _
  | renew o siteID lease now untilUnix =>
    rw [step] at h
    cases h
    refine jobsStep_of_fst (p := fun row => isHeld lease row = true) ?_ fun row _ hheld =>
      .renew o siteID lease now untilUnix row rfl hheld
    obtain hsame | ⟨row, hrow, hheld, -, hdb⟩ := renew_fst o w.db siteID lease now untilUnix
    · exact .inl hsame
    · exact .inr ⟨row, hrow, hheld, by rw [hdb]⟩
  | markUploaded o siteID lease now =>
    rw [step] at h
    cases h
    refine jobsStep_of_fst (p := fun row => isHeld lease row = true) ?_ fun row _ hheld =>
      .upload o siteID lease now row rfl hheld
    obtain hsame | ⟨row, hrow, hheld, -, hdb⟩ := markUploaded_fst o w.db siteID lease now
    · exact .inl hsame
    · exact .inr ⟨row, hrow, hheld, by rw [hdb]; rfl⟩
  | scheduleRetry o siteID lease code message now next =>
    rw [step] at h
    cases h
    refine jobsStep_of_fst (p := fun row => isHeld lease row = true) ?_ fun row _ hheld =>
      .retry o siteID lease code message now next row rfl hheld
    obtain hsame | ⟨row, hrow, hheld, hdb⟩ :=
      scheduleRetry_fst o w.db siteID lease code message now next
    · exact .inl hsame
    · exact .inr ⟨row, hrow, hheld, by rw [hdb]⟩
  | markFailed o siteID lease code message now =>
    rw [step] at h
    cases h
    refine jobsStep_of_fst (p := fun row => isHeld lease row = true) ?_ fun row _ hheld =>
      .fail o siteID lease code message now row rfl hheld
    obtain hsame | ⟨row, hrow, hheld, hdb⟩ := markFailed_fst o w.db siteID lease code message now
    · exact .inl hsame
    · exact .inr ⟨row, hrow, hheld, by rw [hdb]⟩
  | retryRead call siteID jobID =>
    rw [step] at h
    split_ifs at h
    all_goals
      cases h
      exact JobsStep.same w _
  | retryWrite call o now =>
    rw [step] at h
    split at h
    · cases h
    rename_i siteID jobID hcall
    cases h
    refine jobsStep_of_fst (p := fun row => row.status = .failed) ?_ fun row _ hfailed =>
      .requeue call o now row hcall hfailed
    obtain hsame | ⟨row, hrow, hfailed, hdb⟩ := retryFailedWrite_fst o w.db siteID jobID now
    · exact .inl hsame
    · exact .inr ⟨row, hrow, hfailed, by rw [hdb]⟩
  | scheduleCleanup o siteID jobID storageNodeID message now next =>
    rw [step] at h
    cases h
    refine jobsStep_of_fst (p := fun row => isCleanupPending row = true) ?_ fun row _ hpending =>
      .scheduleCleanup o siteID jobID storageNodeID message now next row rfl hpending
    obtain hsame | ⟨row, hrow, hpending, hdb⟩ :=
      scheduleCleanup_fst o w.db siteID jobID storageNodeID message now next
    · exact .inl hsame
    · exact .inr ⟨row, hrow, hpending, by rw [hdb]⟩
  | markCleaned o siteID jobID storageNodeID now =>
    rw [step] at h
    cases h
    refine jobsStep_of_fst
      (p := fun row => row.storageNodeID = storageNodeID ∧ isCleanupPending row = true) ?_
      fun row _ hp => .clean o siteID jobID storageNodeID now row rfl hp.1 hp.2
    obtain hsame | ⟨row, db₁, hrow, hnode, hpending, rfl, hdb⟩ :=
      markCleaned_fst o w.db siteID jobID storageNodeID now
    · exact .inl hsame
    · refine .inr ⟨row, hrow, ⟨hnode, hpending⟩, ?_⟩
      rw [hdb]
      split_ifs <;> rfl
  | foldRead call siteID storageNodeID limit =>
    rw [step] at h
    cases h
    exact JobsStep.same w _
  | foldWrite call o now =>
    rw [step] at h
    split at h
    · cases h
    cases h
    rw [foldStatDeltas_jobs]
    exact JobsStep.same w _
  | restart statDeltaSeq =>
    rw [step] at h
    split_ifs at h
    cases h
    exact JobsStep.same w _

/-! ## The invariant -/

/-- A row has a token exactly while it is processing, the token has been drawn, and only an uploaded
job is cleaned up. -/
structure JobOk (tokens : List String) (row : ContentBackupJob) : Prop where
  held : row.leaseToken ≠ "" ↔ row.status = .processing
  drawn : row.leaseToken ≠ "" → row.leaseToken ∈ tokens
  cleanup : row.cleanupState ≠ .notApplicable → row.status = .uploaded

structure Inv (w : World) : Prop where
  tokens : ∀ token ∈ w.tokens, token ≠ ""
  rows : ∀ key row, w.db.jobs.get? key = some row → JobOk w.tokens row

theorem status_of_isHeld (h : isHeld lease row = true) : row.status = .processing := by
  simp only [isHeld, Bool.and_eq_true, decide_eq_true_eq] at h
  exact h.2

theorem token_of_isHeld (h : isHeld lease row = true) : row.leaseToken = lease.token := by
  simp only [isHeld, Bool.and_eq_true, decide_eq_true_eq] at h
  exact h.1.2

theorem isCleanupPending_iff :
    isCleanupPending row = true ↔ row.status = .uploaded ∧ row.cleanupState = .pending := by
  simp [isCleanupPending]

theorem status_of_isClaimable {storageNodeID : String} {now : ℤ}
    (h : isClaimable storageNodeID now row = true) :
    row.status = .pending ∨ row.status = .processing := by
  simp only [isClaimable, Bool.and_eq_true, Bool.or_eq_true, decide_eq_true_eq] at h
  exact h.2.imp And.left And.left

theorem JobOk.notApplicable {tokens : List String} (h : JobOk tokens row)
    (hstatus : row.status ≠ .uploaded) : row.cleanupState = .notApplicable := by
  by_contra hne
  exact hstatus (h.cleanup hne)

theorem tokens_of_step (h : step w a = some w') :
    (w'.tokens = w.tokens ∨ ∃ o siteID jobID storageNodeID owner token now untilUnix,
      a = .claim o siteID jobID storageNodeID owner token now untilUnix ∧ token ≠ "" ∧
        token ∉ w.tokens ∧ w'.tokens = token :: w.tokens) := by
  cases a with
  | claim o siteID jobID storageNodeID owner token now untilUnix =>
    rw [step] at h
    split_ifs at h with hfresh
    rw [not_or] at hfresh
    cases h
    exact .inr ⟨o, siteID, jobID, storageNodeID, owner, token, now, untilUnix, rfl, hfresh.1,
      hfresh.2, rfl⟩
  | retryRead call siteID jobID =>
    rw [step] at h
    split_ifs at h <;> exact .inl (by rw [← some.inj h])
  | retryWrite | foldWrite =>
    rw [step] at h
    split at h
    · cases h
    · exact .inl (by rw [← some.inj h])
  | restart statDeltaSeq =>
    rw [step] at h
    split_ifs at h
    exact .inl (by rw [← some.inj h])
  | _ => exact .inl (by rw [step] at h; rw [← some.inj h])

theorem tokens_mono (h : step w a = some w') {token : String} (ht : token ∈ w.tokens) :
    token ∈ w'.tokens := by
  obtain heq | ⟨_, _, _, _, _, token', _, _, -, -, -, heq⟩ := tokens_of_step h
  · rwa [heq]
  · rw [heq]
    exact List.mem_cons_of_mem token' ht

theorem JobOk.step {row' : ContentBackupJob} (hok : JobOk w.tokens row) (h : step w a = some w')
    (hstep : RowStep w key a row row') : JobOk w'.tokens row' := by
  cases hstep with
  | same a row => exact ⟨hok.held, fun ht => tokens_mono h (hok.drawn ht), hok.cleanup⟩
  | claim o siteID jobID storageNodeID owner token now untilUnix row hkey hfresh hguard =>
    rw [ContentBackup.step, if_neg (by simp [hfresh])] at h
    cases h
    have hna := hok.notApplicable (by
      obtain hs | hs := status_of_isClaimable hguard <;> rw [hs] <;> decide)
    exact ⟨by simp [claimUpdates, hfresh.1], fun _ => List.mem_cons_self, fun hc => absurd hna hc⟩
  | renew o siteID lease now untilUnix row hkey hheld =>
    exact ⟨hok.held, fun ht => tokens_mono h (hok.drawn ht), hok.cleanup⟩
  | upload o siteID lease now row hkey hheld =>
    exact ⟨by simp [uploadedUpdates], by simp [uploadedUpdates], fun _ => rfl⟩
  | retry o siteID lease code message now next row hkey hheld
  | fail o siteID lease code message now row hkey hheld =>
    have hna := hok.notApplicable (by rw [status_of_isHeld hheld]; decide)
    exact ⟨by simp [unleasedUpdates], by simp [unleasedUpdates], fun hc => absurd hna hc⟩
  | requeue call o now row hcall hfailed =>
    have hna := hok.notApplicable (by rw [hfailed]; decide)
    exact ⟨by simp [retryUpdates], by simp [retryUpdates], fun hc => absurd hna hc⟩
  | scheduleCleanup o siteID jobID storageNodeID message now next row hkey hpending
  | clean o siteID jobID storageNodeID now row hkey hnode hpending =>
    exact ⟨hok.held, fun ht => tokens_mono h (hok.drawn ht),
      fun _ => (isCleanupPending_iff.1 hpending).1⟩

theorem step_inv (hi : Inv w) (h : step w a = some w') : Inv w' := by
  have hjobs := jobs_of_step h
  refine ⟨fun token ht => ?_, fun key row' hrow' => ?_⟩
  · obtain heq | ⟨_, _, _, _, _, token', _, _, -, hne, -, heq⟩ := tokens_of_step h
    · exact hi.tokens token (heq ▸ ht)
    · rw [heq] at ht
      obtain rfl | ht := List.mem_cons.1 ht
      · exact hne
      · exact hi.tokens token ht
  · cases hrow : w.db.jobs.get? key with
    | none =>
      obtain ⟨storageNodeID, createdAt, compressedBytes, rfl⟩ := hjobs.new key row' hrow' hrow
      exact ⟨by simp [admitted, buildJob], by simp [admitted, buildJob],
        by simp [admitted, buildJob]⟩
    | some row =>
      obtain ⟨row₁, hrow₁, hstep⟩ := hjobs.row key row hrow
      cases hrow₁.symm.trans hrow'
      exact (hi.rows key row hrow).step h hstep

theorem inv_empty : Inv {} := ⟨by simp, (fun _ _ h => by cases h)⟩

theorem inv_of_run {l : List Label} (h : Run.run step {} l = some w) : Inv w :=
  Run.invariant (fun _ _ _ hi hs => step_inv hi hs) inv_empty h

/-! ## Claims -/

/-- The job that a claim wins: the transaction commits with the row taken, whether or not the caller
learns of it. -/
def won (w : World) : Label → Option (String × String)
  | .claim o siteID jobID storageNodeID owner token now untilUnix =>
    if (claim .reported w.db siteID jobID storageNodeID owner token now
        untilUnix).2.toOption.join.isSome ∧ o ≠ .rolledBack then some (siteID, jobID)
    else none
  | _ => none

/-- Counts the winning claims of a job. -/
def wins (key : String × String) (w : World) (a : Label) (_ : World) : ℤ :=
  if won w a = some key then 1 else 0

theorem wins_of_none (hnone : w.db.jobs.get? key = none) : wins key w a w' = 0 := by
  unfold wins
  rw [if_neg]
  intro hwon
  cases a with
  | claim o siteID jobID storageNodeID owner token now untilUnix =>
    rw [won] at hwon
    split_ifs at hwon with hwins
    cases hwon
    obtain ⟨-, -, row, hrow, -⟩ | ⟨hnot, -⟩ :=
      claim_fst_eq o w.db siteID jobID storageNodeID owner token now untilUnix
    · rw [hnone] at hrow
      cases hrow
    · exact hnot hwins
  | _ => cases hwon

theorem counters_of_step {row' : ContentBackupJob} (h : step w a = some w')
    (hrow : w.db.jobs.get? key = some row) (hrow' : w'.db.jobs.get? key = some row') :
    row'.leaseGeneration = row.leaseGeneration + wins key w a w' ∧
      row'.totalAttempts = row.totalAttempts + wins key w a w' := by
  obtain ⟨row₁, hrow₁, hstep⟩ := (jobs_of_step h).row key row hrow
  cases hrow₁.symm.trans hrow'
  cases a with
  | claim o siteID jobID storageNodeID owner token now untilUnix =>
    rw [step] at h
    split_ifs at h with hfresh
    cases h
    obtain ⟨hwins, ho, row₂, hrow₂, -, hdb⟩ | ⟨hnot, hsame⟩ :=
      claim_fst_eq o w.db siteID jobID storageNodeID owner token now untilUnix
    · have hwon : won w (.claim o siteID jobID storageNodeID owner token now untilUnix) =
          some (siteID, jobID) := by rw [won, if_pos (And.intro hwins ho)]
      rw [hdb, get?_modify] at hrow'
      by_cases hkey : key = (siteID, jobID)
      · subst hkey
        cases hrow.symm.trans hrow₂
        rw [if_pos rfl, hrow, map_some, some.injEq] at hrow'
        rw [← hrow', wins, hwon, if_pos rfl]
        exact ⟨rfl, rfl⟩
      · rw [if_neg hkey, hrow, some.injEq] at hrow'
        rw [← hrow', wins, hwon, if_neg (by simpa using Ne.symm hkey)]
        omega
    · have hwon : won w (.claim o siteID jobID storageNodeID owner token now untilUnix) = none := by
        rw [won, if_neg hnot]
      rw [hsame, hrow, some.injEq] at hrow'
      rw [← hrow', wins, hwon, if_neg (by simp)]
      omega
  | _ =>
    have hzero : ∀ {a : Label}, won w a = none → wins key w a w' = 0 := by
      intro a hnone
      simp [wins, hnone]
    rw [hzero rfl, add_zero, add_zero]
    cases hstep <;> exact ⟨rfl, rfl⟩

/-- The winning claims of a job so far are its lifetime attempts. -/
def Counted (key : String × String) (w : World) (n : ℤ) : Prop :=
  (w.db.jobs.get? key = none ∧ n = 0) ∨ ∃ row, w.db.jobs.get? key = some row ∧ row.totalAttempts = n

theorem counted_of_run {l : List Label} (key : String × String) (h : Run.run step {} l = some w) :
    Counted key w (Run.total step (wins key) {} l) := by
  have hstep : ∀ (w : World) (n : ℤ) (a : Label) (w' : World), Counted key w n → step w a = some w' →
      Counted key w' (n + wins key w a w') := by
    rintro w n a w' (⟨hnone, rfl⟩ | ⟨row, hrow, rfl⟩) hs
    · rw [wins_of_none hnone]
      cases hrow' : w'.db.jobs.get? key with
      | none => exact .inl ⟨hrow', rfl⟩
      | some row' =>
        obtain ⟨_, _, _, rfl⟩ := (jobs_of_step hs).new key row' hrow' hnone
        exact .inr ⟨_, hrow', rfl⟩
    · obtain ⟨row', hrow', -⟩ := (jobs_of_step hs).row key row hrow
      exact .inr ⟨row', hrow', (counters_of_step hs hrow hrow').2⟩
  have := Run.total_invariant hstep (.inl ⟨rfl, rfl⟩) h
  rwa [zero_add] at this

/-! ## Lost leases -/

def Lost (key : String × String) (token : String) (w : World) : Prop :=
  token ∈ w.tokens ∧ ∀ row, w.db.jobs.get? key = some row → row.leaseToken ≠ token

theorem Lost.step {token : String} (hi : Inv w) (hl : Lost key token w) (h : step w a = some w') :
    Lost key token w' := by
  have hne : ("" : String) ≠ token := (hi.tokens token hl.1).symm
  refine ⟨tokens_mono h hl.1, fun row' hrow' => ?_⟩
  cases hrow : w.db.jobs.get? key with
  | none =>
    obtain ⟨_, _, _, rfl⟩ := (jobs_of_step h).new key row' hrow' hrow
    exact hne
  | some row =>
    obtain ⟨row₁, hrow₁, hstep⟩ := (jobs_of_step h).row key row hrow
    obtain rfl := some.inj (hrow₁.symm.trans hrow')
    cases hstep with
    | claim o siteID jobID storageNodeID owner token' now untilUnix row hkey hfresh hguard =>
      intro (heq : token' = token)
      exact hfresh.2 (heq ▸ hl.1)
    | upload => exact hne
    | retry => exact hne
    | fail => exact hne
    | requeue => exact hne
    | _ => exact hl.2 row hrow

inductive LeaseCall (siteID : String) (lease : ContentBackupLease) : Label → Prop
  | renew (o : Outcome) (now untilUnix : ℤ) :
      LeaseCall siteID lease (.renew o siteID lease now untilUnix)
  | markUploaded (o : Outcome) (now : ℤ) :
      LeaseCall siteID lease (.markUploaded o siteID lease now)
  | scheduleRetry (o : Outcome) (code message : String) (now next : ℤ) :
      LeaseCall siteID lease (.scheduleRetry o siteID lease code message now next)
  | markFailed (o : Outcome) (code message : String) (now : ℤ) :
      LeaseCall siteID lease (.markFailed o siteID lease code message now)

theorem Lost.leaseCall {siteID : String} (hl : Lost (siteID, lease.jobID) lease.token w)
    (ha : LeaseCall siteID lease a) (h : ContentBackup.step w a = some w') : w' = w := by
  have hnot : ∀ row, w.db.jobs.get? (siteID, lease.jobID) = some row → isHeld lease row ≠ true :=
    fun row hrow hheld => hl.2 row hrow (token_of_isHeld hheld)
  cases ha with
  | renew o now untilUnix =>
    rw [ContentBackup.step] at h
    obtain hsame | ⟨row, hrow, hheld, -⟩ := renew_fst o w.db siteID lease now untilUnix
    · rw [← some.inj h, hsame]
    · exact absurd hheld (hnot row hrow)
  | markUploaded o now =>
    rw [ContentBackup.step] at h
    obtain hsame | ⟨row, hrow, hheld, -⟩ := markUploaded_fst o w.db siteID lease now
    · rw [← some.inj h, hsame]
    · exact absurd hheld (hnot row hrow)
  | scheduleRetry o code message now next =>
    rw [ContentBackup.step] at h
    obtain hsame | ⟨row, hrow, hheld, -⟩ :=
      scheduleRetry_fst o w.db siteID lease code message now next
    · rw [← some.inj h, hsame]
    · exact absurd hheld (hnot row hrow)
  | markFailed o code message now =>
    rw [ContentBackup.step] at h
    obtain hsame | ⟨row, hrow, hheld, -⟩ := markFailed_fst o w.db siteID lease code message now
    · rw [← some.inj h, hsame]
    · exact absurd hheld (hnot row hrow)

/-! ## The protocol -/

structure Progress (key : String × String) (w : World) (a : Label) (w' : World)
    (row row' : ContentBackupJob) : Prop where
  generation : row'.leaseGeneration = row.leaseGeneration + wins key w a w'
  attempts : row'.totalAttempts = row.totalAttempts + wins key w a w'
  uploaded : row.status = .uploaded → row'.status = .uploaded
  failed : row.status = .failed → row'.status ≠ .failed → ∃ call o now, a = .retryWrite call o now
  done : row.cleanupState = .done → row'.cleanupState = .done

theorem progress_of_step (hi : Inv w) (h : step w a = some w')
    (hrow : w.db.jobs.get? key = some row) :
    ∃ row', w'.db.jobs.get? key = some row' ∧ Progress key w a w' row row' := by
  obtain ⟨row', hrow', hstep⟩ := (jobs_of_step h).row key row hrow
  obtain ⟨hgen, hattempts⟩ := counters_of_step h hrow hrow'
  have hok := hi.rows key row hrow
  refine ⟨row', hrow', hgen, hattempts, ?_, ?_, ?_⟩
  · intro hup
    cases hstep with
    | claim _ _ _ _ _ _ _ _ _ _ _ hguard =>
      obtain hs | hs := status_of_isClaimable hguard <;> rw [hup] at hs <;> cases hs
    | retry _ _ _ _ _ _ _ _ _ hheld | fail _ _ _ _ _ _ _ _ hheld =>
      rw [status_of_isHeld hheld] at hup; cases hup
    | requeue _ _ _ _ _ hfailed => rw [hfailed] at hup; cases hup
    | upload => rfl
    | _ => exact hup
  · intro hfail hleft
    cases hstep with
    | claim _ _ _ _ _ _ _ _ _ _ _ hguard =>
      obtain hs | hs := status_of_isClaimable hguard <;> rw [hfail] at hs <;> cases hs
    | upload _ _ _ _ _ _ hheld | retry _ _ _ _ _ _ _ _ _ hheld =>
      rw [status_of_isHeld hheld] at hfail; cases hfail
    | requeue call o now => exact ⟨call, o, now, rfl⟩
    | fail => exact absurd rfl hleft
    | _ => exact absurd hfail hleft
  · intro hdone
    have hup : row.status = .uploaded := hok.cleanup (by rw [hdone]; decide)
    cases hstep with
    | upload _ _ _ _ _ _ hheld => rw [status_of_isHeld hheld] at hup; cases hup
    | clean => rfl
    | _ => exact hdone

/-- A row has a token exactly while it is processing, its lifetime attempts are its winning claims, and
only an uploaded job is cleaned up; every step makes progress only; and a call with a lost lease changes
nothing, however late it comes. -/
theorem lease_protocol_of_run {w : World} {l : List Label} (h : Run.run step {} l = some w) :
    (∀ key row, w.db.jobs.get? key = some row → (row.leaseToken ≠ "" ↔ row.status = .processing) ∧
      row.totalAttempts = Run.total step (wins key) {} l ∧
      (row.cleanupState = .pending ∨ row.cleanupState = .done → row.status = .uploaded)) ∧
    (∀ a w', step w a = some w' → ∀ key row, w.db.jobs.get? key = some row →
      ∃ row', w'.db.jobs.get? key = some row' ∧ Progress key w a w' row row') ∧
    ∀ siteID lease l' w' a w'', Lost (siteID, lease.jobID) lease.token w →
      Run.run step w l' = some w' → LeaseCall siteID lease a → step w' a = some w'' → w'' = w' := by
  have hi := inv_of_run h
  refine ⟨fun key row hrow => ⟨(hi.rows key row hrow).held, ?_, fun hc => ?_⟩,
    fun a w' hs key row hrow => progress_of_step hi hs hrow, ?_⟩
  · obtain ⟨hnone, -⟩ | ⟨row', hrow', hcount⟩ := counted_of_run key h
    · rw [hnone] at hrow
      cases hrow
    · rw [← hcount, some.inj (hrow.symm.trans hrow')]
  · refine (hi.rows key row hrow).cleanup ?_
    obtain hc | hc := hc <;> rw [hc] <;> decide
  · intro siteID lease l' w' a w'' hl hrun ha hs
    have hstep : ∀ (w : World) (a : Label) (w' : World),
        Inv w ∧ Lost (siteID, lease.jobID) lease.token w → step w a = some w' →
        Inv w' ∧ Lost (siteID, lease.jobID) lease.token w' :=
      fun _ _ _ hw hs => ⟨step_inv hw.1 hs, hw.2.step hw.1 hs⟩
    exact (Run.invariant hstep ⟨hi, hl⟩ hrun).2.leaseCall ha hs

/-- A worker claims the job and a second one takes over when the lease has lapsed; the clock of the
first is behind. -/
def takenOver : List Label :=
  [.ensurePending .reported "site" "job" "node" 1000 10,
    .claim .reported "site" "job" "node" "first" "token1" 1000 1060,
    .claim .unreported "site" "job" "node" "second" "token2" 2000 2060]

def firstLease : ContentBackupLease :=
  { siteID := "site", jobID := "job", storageNodeID := "node", owner := "first", token := "token1",
    generation := 1, leaseUntil := 1060 }

theorem lease_protocol_of_takenOver :
    ∃ w, Run.run step {} takenOver = some w ∧ (∀ row, w.db.jobs.get? ("site", "job") = some row →
        row.totalAttempts = Run.total step (wins ("site", "job")) {} takenOver) ∧
      step w (.markUploaded .reported "site" firstLease 1050) = some w := by
  refine exists_some_imp (p := fun w => "token1" ∈ w.tokens ∧
    ∃ row, w.db.jobs.get? ("site", "job") = some row ∧ row.leaseToken = "token2") (by decide)
    fun w h ⟨hdrawn, row, hrow, htoken⟩ => ?_
  obtain ⟨hrows, -, hlost⟩ := lease_protocol_of_run h
  refine ⟨fun row hrow => (hrows _ row hrow).2.1, ?_⟩
  have hl : Lost ("site", firstLease.jobID) firstLease.token w := by
    refine ⟨hdrawn, fun row' hrow' heq => ?_⟩
    cases hrow.symm.trans hrow'
    exact absurd (htoken.symm.trans heq) (by decide)
  cases hs : step w (.markUploaded .reported "site" firstLease 1050) with
  | none => simp [step] at hs
  | some w' => rw [hlost "site" firstLease [] w _ w' hl rfl (.markUploaded .reported 1050) hs]

end BeeApi.ContentBackup
