import BeeApi.Batch.Flush
import BeeApi.Batch.Groups

/-!
# What one call of the applier does

`applyDefault_spec`: a call of the default applier either leaves the database as it was, or it
books the group for the first time and leaves the ledger row of the operation behind; and it
reports success only when that row is there.
-/

namespace BeeApi

def Db.column (db : Db) (slot : BatchUpdateType × ℤ) : ℤ :=
  match slot.1 with
  | .userQuota => ((db.users.get? slot.2).map User.quota).getD 0
  | .usedQuota => ((db.users.get? slot.2).map User.usedQuota).getD 0
  | .requestCount => ((db.users.get? slot.2).map User.requestCount).getD 0
  | .tokenQuota => ((db.tokens.get? slot.2).map Token.remainQuota).getD 0
  | .channelUsedQuota => ((db.channels.get? slot.2).map Channel.usedQuota).getD 0

/-- The second column of a token group, which moves against the first. -/
def Db.tokenUsed (db : Db) (id : ℤ) : ℤ := ((db.tokens.get? id).map Token.usedQuota).getD 0

end BeeApi

namespace BeeApi.Batch

open Strings

/-! ## Deltas of a group -/

def groupDelta (updates : List BatchUpdate) (slot : BatchUpdateType × ℤ) : ℤ :=
  (updates.map fun update => if update.slot = slot then update.delta else 0).sum

theorem groupDelta_cons (update : BatchUpdate) (updates : List BatchUpdate)
    (slot : BatchUpdateType × ℤ) :
    groupDelta (update :: updates) slot =
      (if update.slot = slot then update.delta else 0) + groupDelta updates slot := by
  unfold groupDelta
  rw [List.map_cons, List.sum_cons]

variable {updates : List BatchUpdate} {update : BatchUpdate} {db db' : Db} {entity code : String}
  {id : ℤ}

theorem groupDelta_eq_zero {slot : BatchUpdateType × ℤ} (h : slot ∉ updates.map BatchUpdate.slot) :
    groupDelta updates slot = 0 := by
  induction updates with
  | nil => rfl
  | cons update updates ih =>
    rw [List.map_cons, List.mem_cons, not_or] at h
    rw [groupDelta_cons, if_neg (Ne.symm h.1), ih h.2, add_zero]

theorem groupDelta_of_mem (hnodup : (updates.map BatchUpdate.slot).Nodup) (hmem : update ∈ updates)
    : groupDelta updates update.slot = update.delta := by
  induction updates with
  | nil => cases hmem
  | cons first updates ih =>
    rw [List.map_cons, List.nodup_cons] at hnodup
    rw [groupDelta_cons]
    rcases List.mem_cons.1 hmem with rfl | hmem
    · rw [if_pos rfl, groupDelta_eq_zero hnodup.1, add_zero]
    · have hne : first.slot ≠ update.slot := fun he =>
        hnodup.1 (he ▸ List.mem_map.2 ⟨update, hmem, rfl⟩)
      rw [if_neg hne, ih hnodup.2 hmem, zero_add]

theorem IsGroup.groupDelta_eq {snapshot : Stores} {key : GroupKey}
    (hg : IsGroup snapshot key updates) (slot : BatchUpdateType × ℤ) :
    groupDelta updates slot = if keyOf slot = key then snapshot.delta slot else 0 := by
  unfold Stores.delta
  split_ifs with hk
  · cases hd : snapshot.get? slot with
    | some d =>
      exact groupDelta_of_mem hg.nodup ((hg.mem_iff ⟨slot.1, slot.2, d⟩).2 ⟨hd, hk⟩)
    | none =>
      refine groupDelta_eq_zero fun hmem => ?_
      obtain ⟨update, hu, rfl⟩ := List.mem_map.1 hmem
      rw [((hg.mem_iff update).1 hu).1] at hd
      cases hd
  · refine groupDelta_eq_zero fun hmem => ?_
    obtain ⟨update, hu, rfl⟩ := List.mem_map.1 hmem
    exact hk ((hg.mem_iff update).1 hu).2

/-! ## Booking -/

/-- The deltas of `updates` have reached their columns or the delete ledger. -/
structure Booked (db : Db) (updates : List BatchUpdate) (db' : Db) : Prop where
  flush : db'.flushOperationLedgers = db.flushOperationLedgers
  total : ∀ slot, db'.column slot + db'.discarded slot =
    db.column slot + db.discarded slot + groupDelta updates slot
  mirror : ∀ id, db'.column (.tokenQuota, id) + db'.tokenUsed id =
    db.column (.tokenQuota, id) + db.tokenUsed id

structure Discarded (db : Db) (updates : List BatchUpdate) (db' : Db) : Prop where
  frame : db' = { db with batchUpdateDeleteLedgers := db'.batchUpdateDeleteLedgers }
  discarded : ∀ slot, db'.discarded slot = db.discarded slot + groupDelta updates slot

theorem Discarded.booked (h : Discarded db updates db') : Booked db updates db' := by
  have hcolumn : ∀ slot, db'.column slot = db.column slot := fun slot => by rw [h.frame]; rfl
  refine ⟨by rw [h.frame], fun slot => ?_, fun id => by rw [h.frame]; rfl⟩
  rw [hcolumn, h.discarded, add_assoc]

theorem incrementDiscarded_spec (h : incrementDiscardedBatchUpdate db update = some db') :
    Discarded db [update] db' := by
  unfold incrementDiscardedBatchUpdate at h
  split at h
  · rename_i ledgers hledgers
    cases h
    obtain ⟨ledger, hget, -, rfl⟩ :=
      (Table.updateRow_eq_some_iff _ _ _ _ _).1 (affected_eq_some hledgers)
    refine ⟨rfl, fun slot => ?_⟩
    unfold Db.discarded
    rw [Table.get?_modify, groupDelta_cons]
    by_cases hs : slot = update.slot
    · subst hs
      simp [hget, groupDelta]
    · rw [if_neg hs, if_neg (Ne.symm hs)]
      simp [groupDelta]
  · cases h

theorem createLegacy_spec (h : createLegacySoftDeleteLedger db update = .ok (some db')) :
    db' = { db with batchUpdateDeleteLedgers := db'.batchUpdateDeleteLedgers } ∧
      ∀ slot, db'.discarded slot = db.discarded slot := by
  unfold createLegacySoftDeleteLedger at h
  split at h
  · cases h
  · obtain ⟨db₁, h₁, h₂⟩ := Except.bind_eq_ok_iff.1 h
    cases Except.ok.inj h₂
    exact ⟨createBatchUpdateDeleteLedgersAt_frame h₁,
      (ledgersKept_createBatchUpdateDeleteLedgersAt h₁).discarded⟩

theorem discardDeletedBatchUpdate_spec {entityId : ℤ}
    (h : discardDeletedBatchUpdate entity entityId db update = .ok db') :
    Discarded db [update] db' := by
  unfold discardDeletedBatchUpdate at h
  split at h
  · rename_i db₁ h₁
    cases h
    exact incrementDiscarded_spec h₁
  · obtain ⟨created, h₁, h₂⟩ := Except.bind_eq_ok_iff.1 h
    cases created with
    | none => cases h₂
    | some db₁ =>
      dsimp only at h₂
      split at h₂
      · rename_i db₂ h₃
        cases h₂
        obtain ⟨hframe, hkept⟩ := createLegacy_spec h₁
        obtain ⟨hframe', hdiscarded⟩ := incrementDiscarded_spec h₃
        refine ⟨?_, fun slot => ?_⟩
        · rw [hframe', hframe]
        · rw [hdiscarded, hkept]
      · cases h₂

theorem discardDeletedBatchUpdates_spec {entityId : ℤ}
    (h : discardDeletedBatchUpdates db entity entityId updates = .ok db') :
    Discarded db updates db' := by
  unfold discardDeletedBatchUpdates at h
  induction updates generalizing db with
  | nil =>
    cases h
    exact ⟨rfl, fun _ => (add_zero _).symm⟩
  | cons update updates ih =>
    rw [List.foldlM_cons] at h
    obtain ⟨db₁, h₁, h₂⟩ := Except.bind_eq_ok_iff.1 h
    obtain ⟨hframe, hfirst⟩ := discardDeletedBatchUpdate_spec h₁
    obtain ⟨hframe', hrest⟩ := ih h₂
    refine ⟨by rw [hframe', hframe], fun slot => ?_⟩
    rw [hrest, hfirst, groupDelta_cons, groupDelta_cons]
    simp only [groupDelta, List.map_nil, List.sum_nil, add_zero, add_assoc]

theorem writtenOrDiscarded_spec {written : Option Db}
    (hwritten : ∀ db₁, written = some db₁ → Booked db updates db₁)
    (h : writtenOrDiscarded db entity id updates written = .ok (db', code)) :
    Booked db updates db' ∧ trimSpace code ≠ "" := by
  cases written with
  | some db₁ =>
    cases h
    exact ⟨hwritten _ rfl, by decide⟩
  | none =>
    obtain ⟨db₁, h₁, h₂⟩ := Except.bind_eq_ok_iff.1 h
    cases h₂
    exact ⟨(discardDeletedBatchUpdates_spec h₁).booked, by decide⟩

/-! ## The three entities -/

def IsUserColumn (kind : BatchUpdateType) (proj : User → ℤ) : Prop :=
  ∀ user row update, proj (userValue user row update) =
    if update.kind = kind then proj user + update.delta else proj row

theorem isUserColumn_quota : IsUserColumn .userQuota User.quota := by
  rintro user row ⟨kind, id, delta⟩
  cases kind <;> rfl

theorem isUserColumn_usedQuota : IsUserColumn .usedQuota User.usedQuota := by
  rintro user row ⟨kind, id, delta⟩
  cases kind <;> rfl

theorem isUserColumn_requestCount : IsUserColumn .requestCount User.requestCount := by
  rintro user row ⟨kind, id, delta⟩
  cases kind <;> rfl

theorem IsUserColumn.foldl {user : User} {kind : BatchUpdateType} {proj : User → ℤ}
    (hproj : IsUserColumn kind proj) (hids : ∀ update ∈ updates, update.id = id)
    (hnodup : (updates.map BatchUpdate.slot).Nodup) (row : User) :
    proj (updates.foldl (userValue user) row) =
      (if (kind, id) ∈ updates.map BatchUpdate.slot then proj user else proj row) +
        groupDelta updates (kind, id) := by
  induction updates generalizing row with
  | nil => simp [groupDelta]
  | cons update updates ih =>
    rw [List.map_cons, List.nodup_cons] at hnodup
    have hid := hids update List.mem_cons_self
    rw [List.foldl_cons, ih (fun u hu => hids u (List.mem_cons_of_mem _ hu)) hnodup.2,
      List.map_cons, groupDelta_cons]
    by_cases hk : update.kind = kind
    · have hslot : update.slot = (kind, id) := Prod.ext hk hid
      rw [if_neg (hslot ▸ hnodup.1), hproj user row update, if_pos hk, if_pos hslot,
        if_pos (List.mem_cons.2 (.inl hslot.symm)), add_assoc]
    · have hslot : update.slot ≠ (kind, id) := fun he => hk (congrArg Prod.fst he)
      rw [hproj user row update, if_neg hk, if_neg hslot, zero_add]
      simp only [List.mem_cons, Ne.symm hslot, false_or]

theorem applyUserUpdates_spec (hids : ∀ update ∈ updates, update.id = id)
    (hkinds : ∀ update ∈ updates, update.kind ∈ userDeleteKinds)
    (hnodup : (updates.map BatchUpdate.slot).Nodup)
    (h : applyUserUpdates db id updates = .ok (db', code)) :
    Booked db updates db' ∧ trimSpace code ≠ "" := by
  unfold applyUserUpdates at h
  split at h
  · cases h
  · refine writtenOrDiscarded_spec ?_ h
    intro db₁ hdb₁
    obtain ⟨users, husers, rfl⟩ := Option.map_eq_some_iff.1 hdb₁
    obtain ⟨user, hget, -, rfl⟩ :=
      (Table.updateRow_eq_some_iff _ _ _ _ _).1 (affected_eq_some husers)
    refine ⟨rfl, fun slot => ?_, fun _ => rfl⟩
    have hcolumn : ∀ {kind : BatchUpdateType} {proj : User → ℤ}, IsUserColumn kind proj → ∀ id',
        (((db.users.modify id (userValues updates)).get? id').map proj).getD 0 =
          ((db.users.get? id').map proj).getD 0 + groupDelta updates (kind, id') := by
      intro kind proj hproj id'
      rw [Table.get?_modify]
      split_ifs with hid
      · subst hid
        rw [hget]
        simp only [Option.map_some, Option.getD_some]
        unfold userValues
        rw [hproj.foldl hids hnodup, ite_self]
      · rw [groupDelta_eq_zero, add_zero]
        intro hmem
        obtain ⟨update, hu, hslot⟩ := List.mem_map.1 hmem
        exact hid ((congrArg Prod.snd hslot).symm.trans (hids update hu))
    -- a user group has no delta for the other entities
    have hother : slot.1 ∉ userDeleteKinds → groupDelta updates slot = 0 := by
      intro hnot
      refine groupDelta_eq_zero fun hmem => ?_
      obtain ⟨update, hu, rfl⟩ := List.mem_map.1 hmem
      exact hnot (hkinds update hu)
    suffices hmain : Db.column { db with users := db.users.modify id (userValues updates) } slot =
        db.column slot + groupDelta updates slot by
      rw [hmain]
      unfold Db.discarded
      ring
    obtain ⟨kind, id'⟩ := slot
    unfold Db.column
    cases kind with
    | userQuota => exact hcolumn isUserColumn_quota id'
    | usedQuota => exact hcolumn isUserColumn_usedQuota id'
    | requestCount => exact hcolumn isUserColumn_requestCount id'
    | tokenQuota | channelUsedQuota => rw [hother (by simp [userDeleteKinds]), add_zero]

theorem applyTokenUpdates_spec {now : ℤ}
    (hslots : ∀ update ∈ updates, update.slot = (.tokenQuota, id))
    (h : applyTokenUpdates db now id updates = .ok (db', code)) :
    Booked db updates db' ∧ trimSpace code ≠ "" := by
  unfold applyTokenUpdates at h
  split at h
  · rename_i update
    have hslot := hslots update List.mem_cons_self
    refine writtenOrDiscarded_spec ?_ h
    intro db₁ hdb₁
    obtain ⟨tokens, htokens, rfl⟩ := Option.map_eq_some_iff.1 hdb₁
    obtain ⟨token, hget, -, rfl⟩ :=
      (Table.updateRow_eq_some_iff _ _ _ _ _).1 (affected_eq_some htokens)
    refine ⟨rfl, ?_, fun id' => ?_⟩
    · rintro ⟨kind, id'⟩
      unfold Db.column Db.discarded
      rw [groupDelta_cons, hslot]
      cases kind with
      | tokenQuota =>
        simp only [Table.get?_modify, Prod.mk.injEq, true_and]
        by_cases hid : id' = id
        · subst hid
          simp only [if_true, hget, Option.map_some, Option.getD_some, groupDelta, List.map_nil,
            List.sum_nil]
          ring
        · simp [hid, Ne.symm hid, groupDelta]
      | userQuota => simp [groupDelta]
      | usedQuota => simp [groupDelta]
      | requestCount => simp [groupDelta]
      | channelUsedQuota => simp [groupDelta]
    · unfold Db.column Db.tokenUsed
      simp only [Table.get?_modify]
      by_cases hid : id' = id
      · subst hid
        simp only [if_true, hget, Option.map_some, Option.getD_some]
        ring
      · simp [hid]
  · cases h

theorem applyChannelUpdates_spec
    (hslots : ∀ update ∈ updates, update.slot = (.channelUsedQuota, id))
    (h : applyChannelUpdates db id updates = .ok (db', code)) :
    Booked db updates db' ∧ trimSpace code ≠ "" := by
  unfold applyChannelUpdates at h
  split at h
  · rename_i update
    have hslot := hslots update List.mem_cons_self
    refine writtenOrDiscarded_spec ?_ h
    intro db₁ hdb₁
    obtain ⟨channels, hchannels, rfl⟩ := Option.map_eq_some_iff.1 hdb₁
    obtain ⟨channel, hget, -, rfl⟩ :=
      (Table.updateRow_eq_some_iff _ _ _ _ _).1 (affected_eq_some hchannels)
    refine ⟨rfl, ?_, fun id' => rfl⟩
    rintro ⟨kind, id'⟩
    unfold Db.column Db.discarded
    rw [groupDelta_cons, hslot]
    cases kind with
    | channelUsedQuota =>
      simp only [Table.get?_modify, Prod.mk.injEq, true_and]
      by_cases hid : id' = id
      · subst hid
        simp only [if_true, hget, Option.map_some, Option.getD_some, groupDelta, List.map_nil,
          List.sum_nil]
        ring
      · simp [hid, Ne.symm hid, groupDelta]
    | userQuota => simp [groupDelta]
    | usedQuota => simp [groupDelta]
    | requestCount => simp [groupDelta]
    | tokenQuota => simp [groupDelta]
  · cases h

theorem applyGroup_spec {now : ℤ} {snapshot : Stores} {key : GroupKey}
    (hg : IsGroup snapshot key updates) (h : applyGroup db now updates = .ok (db', code)) :
    Booked db updates db' ∧ trimSpace code ≠ "" := by
  unfold applyGroup at h
  cases updates with
  | nil => cases h
  | cons first rest =>
    dsimp only at h
    have hkeys : ∀ update ∈ first :: rest, keyOf update.slot = keyOf first.slot := fun update hu =>
      ((hg.mem_iff update).1 hu).2.trans ((hg.mem_iff first).1 List.mem_cons_self).2.symm
    -- the first delta names the entity of all of them
    have huser : first.kind ∈ userDeleteKinds → (∀ update ∈ first :: rest, update.id = first.id) ∧
          ∀ update ∈ first :: rest, update.kind ∈ userDeleteKinds := by
      intro hkind
      have hfirst := (isFamily_user.keyOf_iff first.slot first.id).2 ⟨hkind, rfl⟩
      have hall := fun update hu =>
        (isFamily_user.keyOf_iff (BatchUpdate.slot update) first.id).1 ((hkeys update hu).trans hfirst)
      exact ⟨fun update hu => (hall update hu).2, fun update hu => (hall update hu).1⟩
    cases hkind : first.kind with
    | userQuota | usedQuota | requestCount =>
      rw [hkind] at h
      obtain ⟨hids, hkinds⟩ := huser (by rw [hkind]; decide)
      exact applyUserUpdates_spec hids hkinds hg.nodup h
    | tokenQuota =>
      rw [hkind] at h
      refine applyTokenUpdates_spec (fun update hu => ?_) h
      have hfirst := (isFamily_token.keyOf_iff first.slot first.id).2
        ⟨List.mem_singleton.2 hkind, rfl⟩
      have := (isFamily_token.keyOf_iff update.slot first.id).1 ((hkeys update hu).trans hfirst)
      exact Prod.ext (List.mem_singleton.1 this.1) this.2
    | channelUsedQuota =>
      rw [hkind] at h
      refine applyChannelUpdates_spec (fun update hu => ?_) h
      have hfirst := (isFamily_channel.keyOf_iff first.slot first.id).2
        ⟨List.mem_singleton.2 hkind, rfl⟩
      have := (isFamily_channel.keyOf_iff update.slot first.id).1 ((hkeys update hu).trans hfirst)
      exact Prod.ext (List.mem_singleton.1 this.1) this.2

/-! ## The flush operation -/

/-- What a call of the applier for operation `op` can do to the database: nothing, or book the
group for the first time and leave the ledger row of the operation behind. -/
inductive Applied (db : Db) (op : String) (updates : List BatchUpdate) (db' : Db) : Prop
  | same (h : db' = db)
  | booked (ledger : FlushOperationLedger) (hnone : db.flushOperationLedgers.get? op = none)
      (hresult : trimSpace ledger.resultCode ≠ "")
      (hledgers : ∀ op', db'.flushOperationLedgers.get? op' =
        if op' = op then some ledger else db.flushOperationLedgers.get? op')
      (htotal : ∀ slot, db'.column slot + db'.discarded slot =
        db.column slot + db.discarded slot + groupDelta updates slot)
      (hmirror : ∀ id, db'.column (.tokenQuota, id) + db'.tokenUsed id =
        db.column (.tokenQuota, id) + db.tokenUsed id)

theorem applied_of_flushed {op : String} {apply : Db → Except String (Db × String)}
    (happly : ∀ db₁ db₂ code, apply db₁ = .ok (db₂, code) → Booked db₁ updates db₂)
    (h : Flushed db op apply db') : Applied db op updates db' := by
  cases h with
  | same hdb => exact .same hdb
  | applied ledger ledgers ledgers' db₁ code hnone hresult happlied hdb hrows =>
    have hbooked := happly _ _ _ happlied
    subst hdb
    exact .booked ledger hnone hresult hrows (fun slot => hbooked.total slot)
      fun id => hbooked.mirror id

theorem applyDefault_spec {payloadHash : List BatchUpdate → String} {db : Db} {now : ℤ}
    {op : String} {snapshot : Stores} {key : GroupKey} {updates : List BatchUpdate}
    {attempt : Attempt} (hg : IsGroup snapshot key updates) (hresult : HasResult db op) :
    Applied db op updates
      (applyDefaultBatchUpdates payloadHash db now op updates attempt).1 ∧
    ((applyDefaultBatchUpdates payloadHash db now op updates attempt).2 = none →
      (applyDefaultBatchUpdates payloadHash db now op updates
        attempt).1.flushOperationLedgers.get? op ≠ none) := by
  unfold applyDefaultBatchUpdates
  cases updates with
  | nil => exact absurd hg.key_eq (by simp [batchUpdateGroupKey])
  | cons first rest =>
    dsimp only
    split_ifs
    · exact ⟨.same rfl, fun h => by cases h⟩
    · cases hscope : batchUpdateOperationScope (first :: rest) with
      | error e => exact ⟨.same rfl, fun h => by cases h⟩
      | ok scope =>
        cases attempt with
        | refused e => exact ⟨.same rfl, fun h => by cases h⟩
        | transaction commit lookupFails =>
          have happly : ∀ db₁ db₂ code, applyGroup db₁ now (first :: rest) = .ok (db₂, code) →
              Booked db₁ (first :: rest) db₂ := fun _ _ _ h => (applyGroup_spec hg h).1
          obtain ⟨hflushed, hrow⟩ := applyFlushOperation_spec now scope
            (payloadHash (first :: rest)) commit lookupFails
            (fun db₁ db₂ code h => (happly db₁ db₂ code h).flush) hresult
          have happlied := applied_of_flushed happly hflushed
          dsimp only
          split
          · rename_i db' code heq
            rw [heq] at happlied hrow
            exact ⟨happlied, fun _ => hrow code rfl⟩
          · rename_i db' e heq
            rw [heq] at happlied
            exact ⟨happlied, fun h => by cases h⟩

end BeeApi.Batch
