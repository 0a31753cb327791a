import BeeApi.ContentBackup.Store

/-!
# What the store writes

One lemma for each call: whatever the outcome, the database is the one before, or the row that
meets the guard was written.
-/

namespace BeeApi.ContentBackup

open Transaction Table

theorem ensurePending_fst (o : Outcome) (db : ContentBackupDb) (siteID jobID : String)
    (job : ContentBackupJob) :
    (ensurePending o db siteID jobID job).1 = db ∨
      (0 < job.createdAt ∧ ∃ jobs, db.jobs.insert? (siteID, jobID) (admitted job) = some jobs ∧
        (ensurePending o db siteID jobID job).1 = { db with jobs }) := by
  unfold ensurePending
  by_cases hid : jobID = "" ∨ job.storageNodeID = ""
  · exact .inl (by rw [if_pos hid])
  rw [if_neg hid]
  by_cases hcreated : job.createdAt ≤ 0
  · exact .inl (by rw [if_pos hcreated])
  rw [if_neg hcreated]
  dsimp only
  refine withOutcome_fst_cases _ _ _ (.inl rfl) fun db' _ hok => ?_
  unfold ensurePendingTx at hok
  split at hok
  · rename_i jobs hjobs
    cases hok
    exact .inr ⟨not_le.1 hcreated, jobs, hjobs, rfl⟩
  · cases hok

/-- A claim that would be told that it has won takes the row unless it is rolled back, and every other
claim changes nothing. -/
theorem claim_fst_eq (o : Outcome) (db : ContentBackupDb)
    (siteID jobID storageNodeID owner token : String) (now untilUnix : ℤ) :
    ((claim .reported db siteID jobID storageNodeID owner token now untilUnix).2.toOption.join.isSome ∧
      o ≠ .rolledBack ∧ ∃ row, db.jobs.get? (siteID, jobID) = some row ∧
        isClaimable storageNodeID now row = true ∧
        (claim o db siteID jobID storageNodeID owner token now untilUnix).1 = { db with
            jobs := db.jobs.modify (siteID, jobID)
              (claimUpdates owner token now untilUnix (row.leaseGeneration + 1)) }) ∨
    (¬ ((claim .reported db siteID jobID storageNodeID owner token now
        untilUnix).2.toOption.join.isSome ∧ o ≠ .rolledBack) ∧
      (claim o db siteID jobID storageNodeID owner token now untilUnix).1 = db) := by
  unfold claim
  by_cases hid : jobID = "" ∨ storageNodeID = "" ∨ owner = ""
  · simp only [if_pos hid]
    exact .inr ⟨by simp [Except.toOption], trivial⟩
  by_cases hlapsed : untilUnix ≤ now
  · simp only [if_neg hid, if_pos hlapsed]
    exact .inr ⟨by simp [Except.toOption], trivial⟩
  simp only [if_neg hid, if_neg hlapsed]
  have hmiss : claimTx db siteID jobID storageNodeID owner token now untilUnix = .ok (db, none) →
      (withOutcome o db (claimTx db siteID jobID storageNodeID owner token now untilUnix)).1 = db ∧
      (withOutcome .reported db
        (claimTx db siteID jobID storageNodeID owner token now untilUnix)).2 = .ok none := by
    intro h
    rw [h]
    exact ⟨by cases o <;> rfl, rfl⟩
  cases hrow : db.jobs.get? (siteID, jobID) with
  | none =>
    obtain ⟨hsame, hnone⟩ := hmiss (by rw [claimTx, hrow])
    exact .inr ⟨by rw [hnone]; simp [Except.map, Except.toOption], hsame⟩
  | some row =>
    by_cases hclaim : isClaimable storageNodeID now row = true
    · have htx : claimTx db siteID jobID storageNodeID owner token now untilUnix = .ok ({ db with
            jobs := db.jobs.modify (siteID, jobID)
              (claimUpdates owner token now untilUnix (row.leaseGeneration + 1)) },
            some (row.leaseGeneration + 1)) := by
        rw [claimTx, hrow]
        dsimp only
        rw [if_pos hclaim, (updateRow_eq_some_iff _ _ _ _ _).2
          ⟨row, hrow, decide_eq_true rfl, rfl⟩]
      rw [htx]
      cases o with
      | rolledBack => exact .inr ⟨by simp, rfl⟩
      | reported | unreported => exact .inl ⟨rfl, by simp, row, rfl, hclaim, rfl⟩
    · obtain ⟨hsame, hnone⟩ := hmiss (by rw [claimTx, hrow]; exact if_neg hclaim)
      exact .inr ⟨by rw [hnone]; simp [Except.map, Except.toOption], hsame⟩

theorem leaseTx_of_ok {db db' : ContentBackupDb} {siteID : String} {lease : ContentBackupLease}
    {guard : ContentBackupJob → Bool} {updates : ContentBackupJob → ContentBackupJob} {a : Unit}
    (h : leaseTx db siteID lease guard updates = .ok (db', a)) :
    ∃ row, db.jobs.get? (siteID, lease.jobID) = some row ∧ isHeld lease row = true ∧
      guard row = true ∧ db' = { db with jobs := db.jobs.modify (siteID, lease.jobID) updates } := by
  unfold leaseTx at h
  split at h
  · rename_i jobs hjobs
    obtain ⟨row, hrow, hheld, rfl⟩ := (updateRow_eq_some_iff _ _ _ _ _).1 hjobs
    rw [Bool.and_eq_true] at hheld
    cases h
    exact ⟨row, hrow, hheld.1, hheld.2, rfl⟩
  · cases h

section
variable (o : Outcome) (db : ContentBackupDb)
include o db

theorem leaseTx_fst (siteID : String)
    (lease : ContentBackupLease) (updates : ContentBackupJob → ContentBackupJob) :
    (withOutcome o db (leaseTx db siteID lease (fun _ => true) updates)).1 = db ∨
      ∃ row, db.jobs.get? (siteID, lease.jobID) = some row ∧ isHeld lease row = true ∧
        (withOutcome o db (leaseTx db siteID lease (fun _ => true) updates)).1 =
          { db with jobs := db.jobs.modify (siteID, lease.jobID) updates } := by
  refine withOutcome_fst_cases _ _ _ (.inl rfl) fun db' _ hok => ?_
  obtain ⟨row, hrow, hheld, -, hdb⟩ := leaseTx_of_ok hok
  exact .inr ⟨row, hrow, hheld, hdb⟩

theorem renew_fst (siteID : String) (lease : ContentBackupLease) (now untilUnix : ℤ) :
    (renew o db siteID lease now untilUnix).1 = db ∨
      ∃ row, db.jobs.get? (siteID, lease.jobID) = some row ∧ isHeld lease row = true ∧
        now < row.leaseUntil ∧ (renew o db siteID lease now untilUnix).1 = { db with
            jobs := db.jobs.modify (siteID, lease.jobID) fun row =>
              { row with leaseUntil := untilUnix, updatedAt := now } } := by
  unfold renew
  split
  · exact .inl rfl
  by_cases hlapsed : untilUnix ≤ now
  · exact .inl (by rw [if_pos hlapsed])
  rw [if_neg hlapsed]
  dsimp only
  refine withOutcome_fst_cases _ _ _ (.inl rfl) fun db' _ hok => ?_
  obtain ⟨row, hrow, hheld, hlive, hdb⟩ := leaseTx_of_ok hok
  exact .inr ⟨row, hrow, hheld, of_decide_eq_true hlive, hdb⟩

theorem markUploaded_fst (siteID : String) (lease : ContentBackupLease) (now : ℤ) :
    (markUploaded o db siteID lease now).1 = db ∨
      ∃ row, db.jobs.get? (siteID, lease.jobID) = some row ∧ isHeld lease row = true ∧
        contentBackupDayFromUnix now ≠ "" ∧ (markUploaded o db siteID lease now).1 = createStatDelta
            { db with jobs := db.jobs.modify (siteID, lease.jobID) (uploadedUpdates now) }
            { siteID
              storageNodeID := row.storageNodeID
              statDate := contentBackupDayFromUnix now
              uploadedBytes := row.compressedBytes
              createdAt := now } := by
  unfold markUploaded
  split
  · exact .inl rfl
  by_cases hday : contentBackupDayFromUnix now = ""
  · exact .inl (by rw [if_pos hday])
  rw [if_neg hday]
  dsimp only
  refine withOutcome_fst_cases _ _ _ (.inl rfl) fun db' _ hok => ?_
  unfold markUploadedTx at hok
  split at hok
  · cases hok
  rename_i row hrow
  split at hok
  · exact .inl (Prod.mk.inj (Except.ok.inj hok)).1.symm
  split at hok
  · cases hok
  rename_i hlost
  simp only [not_or, not_not] at hlost
  obtain ⟨hstatus, htoken, howner, hnode⟩ := hlost
  split at hok
  · cases hok
  · rename_i jobs hjobs
    obtain ⟨row', -, -, rfl⟩ := (updateRow_eq_some_iff _ _ _ _ _).1 hjobs
    refine .inr ⟨row, hrow, by simp [isHeld, hstatus, htoken, howner, hnode], hday, ?_⟩
    rw [hnode]
    exact (Prod.mk.inj (Except.ok.inj hok)).1.symm

theorem scheduleRetry_fst (siteID : String)
    (lease : ContentBackupLease) (code message : String) (now next : ℤ) :
    (scheduleRetry o db siteID lease code message now next).1 = db ∨
      ∃ row, db.jobs.get? (siteID, lease.jobID) = some row ∧ isHeld lease row = true ∧
        (scheduleRetry o db siteID lease code message now next).1 = { db with
            jobs := db.jobs.modify (siteID, lease.jobID)
              (unleasedUpdates .pending next code message now) } := by
  unfold scheduleRetry
  split
  · exact .inl rfl
  by_cases hpast : next ≤ now
  · exact .inl (by rw [if_pos hpast])
  rw [if_neg hpast]
  exact leaseTx_fst o db siteID lease _

theorem markFailed_fst (siteID : String)
    (lease : ContentBackupLease) (code message : String) (now : ℤ) :
    (markFailed o db siteID lease code message now).1 = db ∨
      ∃ row, db.jobs.get? (siteID, lease.jobID) = some row ∧ isHeld lease row = true ∧
        (markFailed o db siteID lease code message now).1 = { db with
            jobs := db.jobs.modify (siteID, lease.jobID)
              (unleasedUpdates .failed 0 code message now) } := by
  unfold markFailed
  split
  · exact .inl rfl
  exact leaseTx_fst o db siteID lease _

theorem retryFailedWrite_fst (siteID jobID : String) (now : ℤ) :
    (retryFailedWrite o db siteID jobID now).1 = db ∨
      ∃ row, db.jobs.get? (siteID, jobID) = some row ∧ row.status = .failed ∧
        (retryFailedWrite o db siteID jobID now).1 =
          { db with jobs := db.jobs.modify (siteID, jobID) (retryUpdates now) } := by
  unfold retryFailedWrite
  refine withOutcome_fst_cases _ _ _ (.inl rfl) fun db' _ hok => ?_
  unfold retryFailedTx at hok
  split at hok
  · rename_i jobs hjobs
    obtain ⟨row, hrow, hfailed, rfl⟩ := (updateRow_eq_some_iff _ _ _ _ _).1 hjobs
    exact .inr ⟨row, hrow, of_decide_eq_true hfailed, (Prod.mk.inj (Except.ok.inj hok)).1.symm⟩
  · exact .inl (Prod.mk.inj (Except.ok.inj hok)).1.symm

theorem scheduleCleanup_fst (siteID jobID storageNodeID message : String) (now next : ℤ) :
    (scheduleCleanup o db siteID jobID storageNodeID message now next).1 = db ∨
      ∃ row, db.jobs.get? (siteID, jobID) = some row ∧ isCleanupPending row = true ∧
        (scheduleCleanup o db siteID jobID storageNodeID message now next).1 = { db with
            jobs := db.jobs.modify (siteID, jobID) fun row =>
              { row with
                cleanupAttempts := row.cleanupAttempts + 1
                cleanupAvailableAt := next
                cleanupError := message
                updatedAt := now } } := by
  unfold scheduleCleanup
  by_cases hid : jobID = "" ∨ storageNodeID = ""
  · exact .inl (by rw [if_pos hid])
  rw [if_neg hid]
  refine withOutcome_fst_cases _ _ _ (.inl rfl) fun db' _ hok => ?_
  unfold scheduleCleanupTx at hok
  split at hok
  · rename_i jobs hjobs
    obtain ⟨row, hrow, hpending, rfl⟩ := (updateRow_eq_some_iff _ _ _ _ _).1 hjobs
    rw [Bool.and_eq_true] at hpending
    exact .inr ⟨row, hrow, hpending.2, (Prod.mk.inj (Except.ok.inj hok)).1.symm⟩
  · cases hok

theorem markCleaned_fst (siteID jobID storageNodeID : String) (now : ℤ) :
    (markCleaned o db siteID jobID storageNodeID now).1 = db ∨
      ∃ row db₁, db.jobs.get? (siteID, jobID) = some row ∧ row.storageNodeID = storageNodeID ∧
        isCleanupPending row = true ∧
        db₁ = { db with jobs := db.jobs.modify (siteID, jobID) (cleanedUpdates now) } ∧
        (markCleaned o db siteID jobID storageNodeID now).1 =
          if contentBackupDayFromUnix now = "" then db₁
          else
            addDailyCleanup db₁ siteID (contentBackupDayFromUnix now) storageNodeID
              row.compressedBytes now := by
  unfold markCleaned
  by_cases hid : jobID = "" ∨ storageNodeID = ""
  · exact .inl (by rw [if_pos hid])
  rw [if_neg hid]
  dsimp only
  refine withOutcome_fst_cases _ _ _ (.inl rfl) fun db' _ hok => ?_
  unfold markCleanedTx at hok
  split at hok
  · cases hok
  rename_i row hrow
  split at hok
  · cases hok
  rename_i hnode
  split at hok
  · exact .inl (Prod.mk.inj (Except.ok.inj hok)).1.symm
  split at hok
  · cases hok
  split at hok
  · cases hok
  · rename_i jobs hjobs
    obtain ⟨row', hrow', hpending, rfl⟩ := (updateRow_eq_some_iff _ _ _ _ _).1 hjobs
    cases hrow.symm.trans hrow'
    refine .inr ⟨row, _, hrow, not_not.1 hnode, hpending, rfl, ?_⟩
    dsimp only at hok
    split_ifs at hok ⊢ <;> exact (Prod.mk.inj (Except.ok.inj hok)).1.symm

theorem foldStatDeltas_fst (siteID storageNodeID : String)
    (batch : List (ℤ × ContentBackupStatDelta)) (now : ℤ) :
    (foldStatDeltas o db siteID storageNodeID batch now).1 = db ∨
      foldTx db siteID storageNodeID batch now =
        .ok ((foldStatDeltas o db siteID storageNodeID batch now).1, ()) := by
  unfold foldStatDeltas
  split_ifs
  · exact .inl rfl
  · exact .inl rfl
  · exact (withOutcome_fst o db (foldTx db siteID storageNodeID batch now)).imp_right
      fun ⟨_, h⟩ => h

end

end BeeApi.ContentBackup
