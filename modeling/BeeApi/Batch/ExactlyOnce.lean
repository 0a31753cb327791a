import BeeApi.Batch.Applier
import BeeApi.Batch.Invariant

/-!
# Exactly once

The batch updater runs against the database with its default applier, while users, tokens and channels
are deleted through the paths that write delete ledger rows.  A delta that `AddMany` accepted is in
exactly one place: applied to its column, recorded as discarded, live in the store, or in flight under
an operation that is not committed.
-/

namespace BeeApi.Batch

open Strings List Option Run

/-! ## The system -/

structure World where
  system : System := {}
  db : Db := {}
  now : ℤ := 0

/-- `call` is a call of the updater or a step of `StopAndFlush`; `apply` hands the next operation to the
applier and `cleanup` deletes one chunk of confirmed ledger rows, with what the database does; the others
are the deletions and the clock. -/
inductive Label
  | call (event : Event)
  | apply (attempt : Attempt)
  | cleanup (commit : Commit)
  | deleteUser (id : ℤ) (hardDelete : Bool)
  | deleteToken (id userId : ℤ)
  | deleteTokens (ids : List ℤ) (userId : ℤ)
  | deleteChannels (ids : List ℤ) (requireOne : Bool)
  | tick (seconds : ℕ)

/-- A transaction outside the updater that fails changes nothing. -/
def World.transaction (w : World) : Except String Db → World
  | .ok db => { w with db }
  | .error _ => w

/-- The database after the deletion of the next chunk of confirmed rows. -/
def World.cleanupDb (w : World) : Commit → Db
  | .rolledBack _ => w.db
  | _ =>
    deleteFlushOperationLedgers w.db (w.system.confirmed.take flushOperationCleanupChunkSize)

section Step

variable (uuid : ℕ → String) (payloadHash : List BatchUpdate → String)

/-- The next operation of the flush goes to the applier, and `finalizeGroup` takes the result. -/
def World.apply (w : World) (attempt : Attempt) : Option World :=
  match w.system.flush with
  | some ⟨operation :: _, _⟩ =>
    let applied := applyDefaultBatchUpdates payloadHash w.db w.now operation.operationID
      operation.updates attempt
    (w.system.step uuid (.apply applied.2)).map fun system => { w with system, db := applied.1 }
  | _ => none

/-- One statement of `deleteFlushOperationLedgers`. -/
def World.cleanup (w : World) (commit : Commit) : Option World :=
  (w.system.step uuid (.cleanup (commit = .committed))).map fun system =>
    { w with system, db := w.cleanupDb commit }

/-- One step; `none` when it is not enabled. -/
def World.step (w : World) : Label → Option World
  | .call (.apply _) => none
  | .call (.cleanup _) => none
  | .call event => (w.system.step uuid event).map fun system => { w with system }
  | .apply attempt => w.apply uuid payloadHash attempt
  | .cleanup commit => w.cleanup uuid commit
  | .deleteUser id hardDelete => some (w.transaction (deleteUserWithLedger w.db w.now id hardDelete))
  | .deleteToken id userId => some (w.transaction (deleteTokenWithLedger w.db w.now id userId))
  | .deleteTokens ids userId => some (w.transaction (batchDeleteTokens w.db w.now ids userId))
  | .deleteChannels ids requireOne =>
    some (w.transaction (deleteChannelsWithLedger w.db w.now ids requireOne))
  | .tick seconds => some { w with now := w.now + seconds }

end Step

/-- The operation of a group in flight has been committed: its ledger row is there. -/
def World.committed (w : World) (key : GroupKey) : Bool :=
  match w.system.updater.operationIDs.get? key with
  | some op => (w.db.flushOperationLedgers.get? op).isSome
  | none => false

/-- What the updater still holds for a slot: the live delta, and the delta in flight that is not
committed. -/
def World.held (w : World) (slot : BatchUpdateType × ℤ) : ℤ :=
  w.system.updater.stores.delta slot +
    if w.committed (keyOf slot) then 0 else w.system.updater.inFlight.delta slot

/-- The deltas for a slot in an `AddMany` that is accepted. -/
def accepted (slot : BatchUpdateType × ℤ) (w : World) (label : Label) (_ : World) : ℤ :=
  match label with
  | .call (.addMany updates) =>
    if (addMany w.system.updater updates).2 = none then requested updates slot else 0
  | _ => 0

/-- The change that a call of the applier makes to the column of a slot. -/
def applied (slot : BatchUpdateType × ℤ) (w : World) (label : Label) (w' : World) : ℤ :=
  match label with
  | .apply _ => w'.db.column slot - w.db.column slot
  | _ => 0

/-- What a call of the applier takes off `used_quota` of a token. -/
def releasedTokenUsed (id : ℤ) (w : World) (label : Label) (w' : World) : ℤ :=
  match label with
  | .apply _ => w.db.tokenUsed id - w'.db.tokenUsed id
  | _ => 0

/-! ## The invariant -/

/-- Operation ids are drawn once, a committed row has a result, and the rows that a flush is about
to delete belong to no group in flight. -/
structure WorldInv (uuid : ℕ → String) (w : World) : Prop where
  system : Inv w.system
  drawn : ∀ key op, w.system.updater.operationIDs.get? key = some op →
    ∃ n < w.system.updater.drawn, op = newFlushOperationID uuid n
  distinct : ∀ key₁ key₂ op, w.system.updater.operationIDs.get? key₁ = some op →
    w.system.updater.operationIDs.get? key₂ = some op → key₁ = key₂
  fresh : ∀ n, w.system.updater.drawn ≤ n →
    w.db.flushOperationLedgers.get? (newFlushOperationID uuid n) = none
  result : ∀ n, HasResult w.db (newFlushOperationID uuid n)
  confirmed : ∀ op ∈ w.system.confirmed,
    (∃ n < w.system.updater.drawn, op = newFlushOperationID uuid n) ∧
      ∀ key, w.system.updater.operationIDs.get? key ≠ some op

variable {w w' : World} {uuid : ℕ → String} {db : Db} {slot : BatchUpdateType × ℤ} {key : GroupKey}
  {s : System}

/-- The invariant looks at the database only through the flush ledger. -/
theorem WorldInv.of_flush (hw : WorldInv uuid w)
    (h : db.flushOperationLedgers = w.db.flushOperationLedgers) : WorldInv uuid { w with db } := by
  refine ⟨hw.system, hw.drawn, hw.distinct, ?_, ?_, hw.confirmed⟩
  · intro n hn
    rw [h]
    exact hw.fresh n hn
  · intro n
    unfold HasResult
    rw [h]
    exact hw.result n

theorem held_of_committed (h : w.committed (keyOf slot) = true) :
    w.held slot = w.system.updater.stores.delta slot := by
  unfold World.held
  rw [if_pos h, add_zero]

theorem held_of_not_committed (h : w.committed (keyOf slot) = false) :
    w.held slot = w.system.updater.stores.delta slot + w.system.updater.inFlight.delta slot := by
  unfold World.held
  rw [if_neg (by rw [h]; exact Bool.false_ne_true)]

theorem committed_of_get? {op : String} (h : w.system.updater.operationIDs.get? key = some op) :
    w.committed key = (w.db.flushOperationLedgers.get? op).isSome := by
  unfold World.committed
  rw [h]

theorem committed_eq_false (h : w.system.updater.operationIDs.get? key = none) :
    w.committed key = false := by
  unfold World.committed
  rw [h]

theorem held_congr
    (hstores : w'.system.updater.stores.delta slot = w.system.updater.stores.delta slot)
    (hinFlight : w'.system.updater.inFlight.delta slot = w.system.updater.inFlight.delta slot)
    (hcommitted : w'.committed (keyOf slot) = w.committed (keyOf slot)) :
    w'.held slot = w.held slot := by
  unfold World.held
  rw [hstores, hinFlight, hcommitted]

/-- What is held for a slot looks at the database only through the row of its operation. -/
theorem held_of_flush (h : ∀ op, w.system.updater.operationIDs.get? (keyOf slot) = some op →
      db.flushOperationLedgers.get? op = w.db.flushOperationLedgers.get? op) :
    World.held { w with db } slot = w.held slot := by
  refine held_congr rfl rfl ?_
  cases hop : w.system.updater.operationIDs.get? (keyOf slot) with
  | none => rw [committed_eq_false hop, committed_eq_false (w := { w with db }) hop]
  | some op =>
    rw [committed_of_get? hop, committed_of_get? (w := { w with db }) hop]
    rw [h op hop]

/-! ## The applier -/

/-- What the applier does to the database, before the updater learns of it: what leaves the
updater's hands reaches the column or the delete ledger. -/
theorem applied_spec (huuid : uuid.Injective) {operation : BatchUpdateOperation}
    (hw : WorldInv uuid w) (hop : IsOperation w.system.updater operation)
    (h : Applied w.db operation.operationID operation.updates db) :
    WorldInv uuid { w with db } ∧
      (∀ slot, World.held { w with db } slot + db.column slot + db.discarded slot =
        w.held slot + w.db.column slot + w.db.discarded slot) ∧
      ∀ id, db.column (.tokenQuota, id) + db.tokenUsed id =
        w.db.column (.tokenQuota, id) + w.db.tokenUsed id := by
  cases h with
  | same h =>
    subst h
    exact ⟨hw, fun _ => rfl, fun _ => rfl⟩
  | booked ledger hnone hresult hledgers htotal hmirror =>
    obtain ⟨n, hn, hid⟩ := hw.drawn _ _ hop.id
    refine ⟨⟨hw.system, hw.drawn, hw.distinct, ?_, ?_, hw.confirmed⟩, fun slot => ?_, hmirror⟩
    · intro m hm
      rw [hledgers, if_neg]
      · exact hw.fresh m hm
      · intro he
        have := newFlushOperationID_injective huuid (he.trans hid)
        dsimp only at hm
        omega
    · intro m ledger' hledger'
      rw [hledgers] at hledger'
      split_ifs at hledger' with he
      · rw [← some.inj hledger']
        exact hresult
      · exact hw.result m ledger' hledger'
    · have hsum := htotal slot
      rw [hop.group.groupDelta_eq] at hsum
      by_cases hk : keyOf slot = operation.key
      · have hid' : w.system.updater.operationIDs.get? (keyOf slot) = some operation.operationID :=
          hk ▸ hop.id
        have hbefore : w.committed (keyOf slot) = false := by
          rw [committed_of_get? hid', hnone]
          rfl
        have hafter : World.committed { w with db } (keyOf slot) = true := by
          rw [committed_of_get? (w := { w with db }) hid']
          rw [hledgers, if_pos rfl]
          rfl
        rw [held_of_committed hafter, held_of_not_committed hbefore]
        rw [if_pos hk] at hsum
        linarith
      · rw [held_of_flush]
        · rw [if_neg hk] at hsum
          linarith
        · intro op hop'
          rw [hledgers, if_neg]
          rintro rfl
          exact hk (hw.distinct _ _ _ hop' hop.id)

/-! ## The updater -/

theorem accepted_eq_zero {event : Event} (slot : BatchUpdateType × ℤ)
    (h : ∀ updates, event = .addMany updates → (addMany w.system.updater updates).2 ≠ none) :
    accepted slot w (.call event) w' = 0 := by
  unfold accepted
  split
  · rename_i updates heq
    cases heq
    exact if_neg (h updates rfl)
  · rfl

/-- The identities after a preparation: those of before, and new ones for the groups taken. -/
theorem WorldInv.of_prepared (huuid : uuid.Injective) (hw : WorldInv uuid w) (hi : Inv s)
    (hp : Prepared uuid (groupKeys w.system.updater.stores) w.system.updater s.updater)
    (hconfirmed : s.confirmed = []) : WorldInv uuid { w with system := s } := by
  -- an identity is old, or drawn by this preparation
  have hcases : ∀ key op, s.updater.operationIDs.get? key = some op →
      w.system.updater.operationIDs.get? key = some op ∨
      (w.system.updater.operationIDs.get? key = none ∧ key ∈ groupKeys w.system.updater.stores ∧
        ∃ n, w.system.updater.drawn ≤ n ∧ n < s.updater.drawn ∧
          op = newFlushOperationID uuid n) := by
    intro key op hop
    cases hold : w.system.updater.operationIDs.get? key with
    | some op' =>
      rw [hp.known key op' hold] at hop
      exact .inl hop
    | none =>
      by_cases hmem : key ∈ groupKeys w.system.updater.stores
      · obtain ⟨n, hle, hlt, hnew⟩ := hp.fresh key hmem hold
        rw [hnew] at hop
        exact .inr ⟨rfl, hmem, n, hle, hlt, (some.inj hop).symm⟩
      · rw [hp.other key hmem, hold] at hop
        cases hop
  refine ⟨hi, ?_, ?_, ?_, hw.result, ?_⟩
  · intro key op hop
    rcases hcases key op hop with hold | ⟨-, -, n, -, hlt, rfl⟩
    · obtain ⟨n, hlt, rfl⟩ := hw.drawn key op hold
      exact ⟨n, hlt.trans_le hp.drawn, rfl⟩
    · exact ⟨n, hlt, rfl⟩
  · intro key₁ key₂ op h₁ h₂
    rcases hcases key₁ op h₁ with hold₁ | ⟨hnone₁, hmem₁, n₁, hle₁, -, hop₁⟩ <;>
      rcases hcases key₂ op h₂ with hold₂ | ⟨hnone₂, hmem₂, n₂, hle₂, -, hop₂⟩
    · exact hw.distinct key₁ key₂ op hold₁ hold₂
    · obtain ⟨n, hlt, hop⟩ := hw.drawn key₁ op hold₁
      have := newFlushOperationID_injective huuid (hop.symm.trans hop₂)
      omega
    · obtain ⟨n, hlt, hop⟩ := hw.drawn key₂ op hold₂
      have := newFlushOperationID_injective huuid (hop.symm.trans hop₁)
      omega
    · exact hp.distinct huuid key₁ hmem₁ key₂ hmem₂ hnone₁ hnone₂ (h₁.trans h₂.symm)
  · exact fun n hn => hw.fresh n (hp.drawn.trans hn)
  · intro op hop
    rw [hconfirmed] at hop
    cases hop

theorem held_of_prepared (hw : WorldInv uuid w)
    (hp : Prepared uuid (groupKeys w.system.updater.stores) w.system.updater s.updater)
    (slot : BatchUpdateType × ℤ) : World.held { w with system := s } slot = w.held slot := by
  by_cases ht : Taken w.system.updater (groupKeys w.system.updater.stores) slot
  · obtain ⟨hs, hf⟩ := hp.taken slot ht
    have hnone := hw.system.updater.inFlight_none ht.2
    obtain ⟨n, hle, -, hop⟩ := hp.fresh _ ht.1 ht.2
    have hafter : World.committed { w with system := s } (keyOf slot) = false := by
      rw [committed_of_get? hop]
      rw [hw.fresh n hle]
      rfl
    rw [held_of_not_committed hafter, held_of_not_committed (committed_eq_false ht.2)]
    unfold Stores.delta
    rw [hs, hf, hnone, or_none]
    simp
  · obtain ⟨hs, hf⟩ := hp.kept slot ht
    refine held_congr ?_ ?_ ?_
    · unfold Stores.delta
      rw [hs]
    · unfold Stores.delta
      rw [hf]
    · cases hold : w.system.updater.operationIDs.get? (keyOf slot) with
      | some op =>
        rw [committed_of_get? hold, committed_of_get? (hp.known _ op hold)]
      | none =>
        have hmem : keyOf slot ∉ groupKeys w.system.updater.stores := fun hmem => ht ⟨hmem, hold⟩
        rw [committed_eq_false hold, committed_eq_false ((hp.other _ hmem).trans hold)]

theorem confirmed_spec {op : String} (hw : WorldInv uuid w) (hi : Inv s)
    (hid : w.system.updater.operationIDs.get? key = some op) (hcommitted : w.committed key = true)
    (hstores : s.updater.stores = w.system.updater.stores)
    (hdrawn : s.updater.drawn = w.system.updater.drawn)
    (hids : s.updater.operationIDs = w.system.updater.operationIDs.erase key)
    (hinFlight : ∀ slot, s.updater.inFlight.get? slot =
      if keyOf slot = key then none else w.system.updater.inFlight.get? slot)
    (hconfirmed : s.confirmed = w.system.confirmed ++ [op]) : WorldInv uuid { w with system := s } ∧
      ∀ slot, World.held { w with system := s } slot = w.held slot := by
  have hget : ∀ key', s.updater.operationIDs.get? key' =
      if key' = key then none else w.system.updater.operationIDs.get? key' := by
    intro key'
    rw [hids, Table.get?_erase]
  have hold : ∀ key' op', s.updater.operationIDs.get? key' = some op' →
      key' ≠ key ∧ w.system.updater.operationIDs.get? key' = some op' := by
    intro key' op' hop
    rw [hget] at hop
    split_ifs at hop with hk
    exact ⟨hk, hop⟩
  refine ⟨⟨hi, ?_, ?_, ?_, hw.result, ?_⟩, fun slot => ?_⟩
  · intro key' op' hop
    dsimp only at hop ⊢
    rw [hdrawn]
    exact hw.drawn key' op' (hold key' op' hop).2
  · exact fun key₁ key₂ op' h₁ h₂ =>
      hw.distinct key₁ key₂ op' (hold key₁ op' h₁).2 (hold key₂ op' h₂).2
  · dsimp only
    rw [hdrawn]
    exact hw.fresh
  · intro op' hop'
    dsimp only at hop' ⊢
    rw [hconfirmed, mem_append, mem_singleton] at hop'
    rw [hdrawn]
    rcases hop' with hmem | rfl
    · refine ⟨(hw.confirmed op' hmem).1, fun key' hkey' => ?_⟩
      exact (hw.confirmed op' hmem).2 key' (hold key' op' hkey').2
    · refine ⟨hw.drawn key op' hid, fun key' hkey' => ?_⟩
      obtain ⟨hne, hkey⟩ := hold key' op' hkey'
      exact hne (hw.distinct key' key op' hkey hid)
  · by_cases hk : keyOf slot = key
    · have hafter : World.committed { w with system := s } (keyOf slot) = false :=
        committed_eq_false ((hget _).trans (if_pos hk))
      rw [held_of_not_committed hafter, held_of_committed (hk ▸ hcommitted)]
      unfold Stores.delta
      rw [hstores, hinFlight, if_pos hk]
      simp
    · refine held_congr ?_ ?_ ?_
      · dsimp only
        rw [hstores]
      · unfold Stores.delta
        rw [hinFlight, if_neg hk]
      · unfold World.committed
        rw [hget, if_neg hk]

/-- What a step of the updater does while the database stands still: `AddMany` adds what it
accepts, and nothing else changes what is held, as long as only committed groups are confirmed. -/
theorem call_spec (huuid : uuid.Injective) {event : Event} (hw : WorldInv uuid w)
    (h : w.system.step uuid event = some s)
    (hcommitted : event = .apply none → ∀ run operation rest, w.system.flush = some run →
      run.operations = operation :: rest → w.committed operation.key = true) :
    WorldInv uuid { w with system := s } ∧ ∀ slot, World.held { w with system := s } slot =
      w.held slot + accepted slot w (.call event) { w with system := s } := by
  obtain ⟨hi, hchange⟩ := system_step_spec hw.system h
  cases hchange with
  | none hstores hinFlight hids hdrawn hconfirmed hevent =>
    refine ⟨⟨hi, ?_, ?_, ?_, hw.result, ?_⟩, fun slot => ?_⟩
    · dsimp only
      rw [hids, hdrawn]
      exact hw.drawn
    · dsimp only
      rw [hids]
      exact hw.distinct
    · dsimp only
      rw [hdrawn]
      exact hw.fresh
    · dsimp only
      rw [hids, hdrawn]
      exact fun op hop => hw.confirmed op (hconfirmed hop)
    · rw [accepted_eq_zero slot hevent, add_zero]
      refine held_congr ?_ ?_ ?_
      · dsimp only
        rw [hstores]
      · dsimp only
        rw [hinFlight]
      · unfold World.committed
        rw [hids]
  | added updates hevent hok hadded hflush =>
    subst hevent
    have hframe := hadded.frame
    have hids : s.updater.operationIDs = w.system.updater.operationIDs := by rw [hframe]
    have hdrawn : s.updater.drawn = w.system.updater.drawn := by rw [hframe]
    have hinFlight : s.updater.inFlight = w.system.updater.inFlight := by rw [hframe]
    have hconfirmed : s.confirmed = w.system.confirmed := by
      unfold System.confirmed
      rw [hflush]
    refine ⟨⟨hi, ?_, ?_, ?_, hw.result, ?_⟩, fun slot => ?_⟩
    · dsimp only
      rw [hids, hdrawn]
      exact hw.drawn
    · dsimp only
      rw [hids]
      exact hw.distinct
    · dsimp only
      rw [hdrawn]
      exact hw.fresh
    · dsimp only
      rw [hids, hdrawn, hconfirmed]
      exact hw.confirmed
    · have haccepted : accepted slot w (.call (.addMany updates)) { w with system := s } =
          requested updates slot := if_pos hok
      have hsame : World.committed { w with system := s } (keyOf slot) =
          w.committed (keyOf slot) := by
        unfold World.committed
        rw [hids]
      rw [haccepted]
      unfold World.held
      rw [hsame]
      rw [hadded.delta, hinFlight]
      ring
  | prepared hevent hprepared hconfirmed =>
    refine ⟨hw.of_prepared huuid hi hprepared hconfirmed, fun slot => ?_⟩
    rw [held_of_prepared hw hprepared, accepted_eq_zero slot (by simp [hevent]), add_zero]
  | confirmed run operation rest hevent hflush hops hstores hdrawn hids hinFlight hconfirmed =>
    have hop := hw.system.operations run hflush operation (by rw [hops]; exact mem_cons_self)
    obtain ⟨hinv, hheld⟩ := confirmed_spec hw hi hop.id
      (hcommitted hevent run operation rest hflush hops) hstores hdrawn hids hinFlight hconfirmed
    refine ⟨hinv, fun slot => ?_⟩
    rw [hheld, accepted_eq_zero slot (by simp [hevent]), add_zero]

/-! ## Every run -/

/-- The books of one step: nothing is lost, and nothing is applied that was not held. -/
structure StepBalanced (w : World) (label : Label) (w' : World) : Prop where
  balance : ∀ slot, w'.held slot + w'.db.discarded slot + applied slot w label w' =
    w.held slot + w.db.discarded slot + accepted slot w label w'
  mirror : ∀ id, releasedTokenUsed id w label w' = applied (.tokenQuota, id) w label w'

theorem apply_balanced {payloadHash : List BatchUpdate → String} (huuid : uuid.Injective)
    {attempt : Attempt} (hw : WorldInv uuid w) (h : w.apply uuid payloadHash attempt = some w') :
    WorldInv uuid w' ∧ StepBalanced w (.apply attempt) w' := by
  unfold World.apply at h
  split at h
  · rename_i operation rest confirmed hflush
    obtain ⟨s, hs, rfl⟩ := map_eq_some_iff.1 h
    have hop := hw.system.operations _ hflush operation mem_cons_self
    have hresult : HasResult w.db operation.operationID := by
      obtain ⟨n, -, hid⟩ := hw.drawn _ _ hop.id
      rw [hid]
      exact hw.result n
    obtain ⟨happlied, hrow⟩ := @applyDefault_spec payloadHash w.db w.now operation.operationID
      w.system.updater.inFlight operation.key operation.updates attempt hop.group hresult
    revert hs hrow happlied
    generalize applyDefaultBatchUpdates payloadHash w.db w.now operation.operationID
      operation.updates attempt = result
    obtain ⟨db, error⟩ := result
    intro hs happlied hrow
    dsimp only at happlied hrow hs ⊢
    obtain ⟨hw₁, hbalance, hmirror⟩ := applied_spec huuid hw hop happlied
    have hcommitted : Event.apply error = .apply none → ∀ run operation' rest',
        w.system.flush = some run → run.operations = operation' :: rest' →
        World.committed { w with db } operation'.key = true := by
      intro herror run operation' rest' hflush' hops
      rw [hflush, some.injEq] at hflush'
      subst hflush'
      obtain ⟨rfl, rfl⟩ := List.cons.inj hops
      rw [committed_of_get? (w := { w with db }) hop.id]
      exact isSome_iff_ne_none.2 (hrow (Event.apply.inj herror))
    obtain ⟨hw₂, hheld⟩ := call_spec (w := { w with db }) huuid hw₁ hs hcommitted
    refine ⟨hw₂, fun slot => ?_, fun id => ?_⟩
    · have hnew := hheld slot
      have hbooks := hbalance slot
      unfold accepted at hnew ⊢
      unfold applied
      dsimp only at hnew hbooks ⊢
      linarith
    · have := hmirror id
      unfold releasedTokenUsed applied
      linarith
  · cases h

theorem cleanupDb_spec (w : World) (commit : Commit) :
    (∀ op, (w.cleanupDb commit).flushOperationLedgers.get? op = w.db.flushOperationLedgers.get? op ∨
      op ∈ w.system.confirmed ∧ (w.cleanupDb commit).flushOperationLedgers.get? op = none) ∧
    ∀ slot, (w.cleanupDb commit).discarded slot = w.db.discarded slot := by
  have hchunk : ∀ op, (deleteFlushOperationLedgers w.db (w.system.confirmed.take
      flushOperationCleanupChunkSize)).flushOperationLedgers.get? op =
        w.db.flushOperationLedgers.get? op ∨ op ∈ w.system.confirmed ∧
      (deleteFlushOperationLedgers w.db (w.system.confirmed.take
        flushOperationCleanupChunkSize)).flushOperationLedgers.get? op = none := by
    intro op
    have herase := Table.get?_foldl_erase id
      (w.system.confirmed.take flushOperationCleanupChunkSize) w.db.flushOperationLedgers op
    simp only [id_eq, List.map_id] at herase
    unfold deleteFlushOperationLedgers
    rw [show _ = _ from herase]
    split_ifs with hmem
    · exact .inr ⟨List.mem_of_mem_take hmem, rfl⟩
    · exact .inl rfl
  cases commit with
  | committed | committedUnreported => exact ⟨hchunk, fun _ => rfl⟩
  | rolledBack e => exact ⟨fun _ => .inl rfl, fun _ => rfl⟩

theorem cleanup_balanced (huuid : uuid.Injective) {commit : Commit} (hw : WorldInv uuid w)
    (h : w.cleanup uuid commit = some w') :
    WorldInv uuid w' ∧ StepBalanced w (.cleanup commit) w' := by
  obtain ⟨s, hs, rfl⟩ := map_eq_some_iff.1 h
  obtain ⟨hrows, hdiscarded⟩ := cleanupDb_spec w commit
  revert hrows hdiscarded
  generalize w.cleanupDb commit = db
  intro hrows hdiscarded
  have hw₁ : WorldInv uuid { w with db } := by
    refine ⟨hw.system, hw.drawn, hw.distinct, fun n hn => ?_, fun n ledger hledger => ?_,
      hw.confirmed⟩
    · rcases hrows (newFlushOperationID uuid n) with hsame | ⟨-, hnone⟩
      · exact hsame.trans (hw.fresh n hn)
      · exact hnone
    · rcases hrows (newFlushOperationID uuid n) with hsame | ⟨-, hnone⟩
      · exact hw.result n ledger (hsame.symm.trans hledger)
      · rw [show _ = _ from hnone] at hledger
        cases hledger
  obtain ⟨hw₂, hheld⟩ := call_spec (w := { w with db }) huuid hw₁ hs nofun
  refine ⟨hw₂, fun slot => ?_, fun id => rfl⟩
  have hnew := hheld slot
  have hsame : World.held { w with db } slot = w.held slot := by
    refine held_of_flush fun op hop => ?_
    rcases hrows op with hsame | ⟨hmem, -⟩
    · exact hsame
    · exact absurd hop ((hw.confirmed op hmem).2 _)
  unfold accepted at hnew ⊢
  unfold applied
  dsimp only at hnew ⊢
  rw [hdiscarded]
  linarith

theorem transaction_balanced {body : Except String Db} {label : Label} (hw : WorldInv uuid w)
    (hbody : ∀ db, body = .ok db → LedgersKept w.db db)
    (haccepted : ∀ slot w', accepted slot w label w' = 0)
    (happlied : ∀ slot w', applied slot w label w' = 0)
    (hused : ∀ id w', releasedTokenUsed id w label w' = 0) :
    WorldInv uuid (w.transaction body) ∧ StepBalanced w label (w.transaction body) := by
  cases body with
  | error e =>
    refine ⟨hw, fun slot => ?_, fun id => ?_⟩
    · rw [haccepted, happlied]
      rfl
    · rw [hused, happlied]
  | ok db =>
    obtain ⟨hflush, hdiscarded⟩ := hbody db rfl
    refine ⟨hw.of_flush hflush, fun slot => ?_, fun id => ?_⟩
    · rw [haccepted, happlied]
      unfold World.transaction
      rw [held_of_flush fun op _ => by rw [hflush]]
      rw [hdiscarded]
    · rw [hused, happlied]

theorem world_step_spec {payloadHash : List BatchUpdate → String} (huuid : uuid.Injective)
    {label : Label} (hw : WorldInv uuid w) (h : w.step uuid payloadHash label = some w') :
    WorldInv uuid w' ∧ StepBalanced w label w' := by
  cases label with
  | call event =>
    have hcall : (w.system.step uuid event).map (fun system => { w with system }) = some w' ∧
        ∀ result, event ≠ .apply result := by
      cases event <;> first | exact ⟨h, nofun⟩ | cases h
    obtain ⟨⟨s, hs, rfl⟩, hno⟩ := hcall.imp_left map_eq_some_iff.1
    obtain ⟨hw', hheld⟩ := call_spec huuid hw hs fun he => absurd he (hno none)
    refine ⟨hw', fun slot => ?_, fun _ => rfl⟩
    rw [hheld]
    unfold applied
    ring
  | apply attempt => exact apply_balanced huuid hw h
  | cleanup commit => exact cleanup_balanced huuid hw h
  | deleteUser id hardDelete =>
    cases h
    exact transaction_balanced hw (fun _ h => ledgersKept_deleteUserWithLedger h)
      (fun _ _ => rfl) (fun _ _ => rfl) (fun _ _ => rfl)
  | deleteToken id userId =>
    cases h
    exact transaction_balanced hw (fun _ h => ledgersKept_deleteTokenWithLedger h)
      (fun _ _ => rfl) (fun _ _ => rfl) (fun _ _ => rfl)
  | deleteTokens ids userId =>
    cases h
    exact transaction_balanced hw (fun _ h => ledgersKept_batchDeleteTokens h)
      (fun _ _ => rfl) (fun _ _ => rfl) (fun _ _ => rfl)
  | deleteChannels ids requireOne =>
    cases h
    exact transaction_balanced hw (fun _ h => ledgersKept_deleteChannelsWithLedger h)
      (fun _ _ => rfl) (fun _ _ => rfl) (fun _ _ => rfl)
  | tick seconds =>
    cases h
    exact ⟨⟨hw.system, hw.drawn, hw.distinct, hw.fresh, hw.result, hw.confirmed⟩,
      fun _ => rfl, fun _ => rfl⟩

theorem WorldInv.initial (now : ℤ)
    (hfresh : ∀ n, db.flushOperationLedgers.get? (newFlushOperationID uuid n) = none) :
    WorldInv uuid { db, now } where
  system := Inv.empty
  drawn := nofun
  distinct := nofun
  fresh := fun n _ => hfresh n
  result := by
    intro n ledger hledger
    rw [show _ = _ from hfresh n] at hledger
    cases hledger
  confirmed := nofun

/-- Every delta that `AddMany` accepted is applied, recorded as discarded or still held, each of them
once; what a token gains is taken off its `used_quota`; and operation ids are drawn once. -/
theorem accepted_eq_of_run {uuid : ℕ → String} {payloadHash : List BatchUpdate → String}
    (huuid : uuid.Injective) {db : Db} {now : ℤ}
    (hfresh : ∀ n, db.flushOperationLedgers.get? (newFlushOperationID uuid n) = none)
    {l : List Label} {w : World}
    (h : Run.run (World.step uuid payloadHash) { db, now } l = some w) :
    (∀ slot, Run.total (World.step uuid payloadHash) (accepted slot) { db, now } l =
      Run.total (World.step uuid payloadHash) (applied slot) { db, now } l +
        (w.db.discarded slot - db.discarded slot) + w.held slot) ∧
    ∀ id, Run.total (World.step uuid payloadHash) (releasedTokenUsed id) { db, now } l =
      Run.total (World.step uuid payloadHash) (applied (.tokenQuota, id)) { db, now } l := by
  have hw₀ := WorldInv.initial now hfresh
  constructor
  · intro slot
    have hstep : ∀ (w : World) (t : ℤ) (label : Label) (w' : World),
        (WorldInv uuid w ∧ w.held slot + w.db.discarded slot = t) →
        w.step uuid payloadHash label = some w' →
        WorldInv uuid w' ∧ w'.held slot + w'.db.discarded slot =
          t + (accepted slot w label w' - applied slot w label w') := by
      rintro w t label w' ⟨hw, rfl⟩ hs
      obtain ⟨hw', hbalanced⟩ := world_step_spec huuid hw hs
      refine ⟨hw', ?_⟩
      have := hbalanced.balance slot
      linarith
    have hrun := (total_invariant hstep ⟨hw₀, rfl⟩ h).2
    rw [total_sub] at hrun
    have hheld : World.held { db, now } slot = 0 := rfl
    rw [hheld] at hrun
    linarith
  · intro id
    have hstep : ∀ (w : World) (t : ℤ) (label : Label) (w' : World),
        (WorldInv uuid w ∧ t = 0) → w.step uuid payloadHash label = some w' →
        WorldInv uuid w' ∧ t + (releasedTokenUsed id w label w' -
          applied (.tokenQuota, id) w label w') = 0 := by
      rintro w t label w' ⟨hw, rfl⟩ hs
      obtain ⟨hw', hbalanced⟩ := world_step_spec huuid hw hs
      refine ⟨hw', ?_⟩
      rw [hbalanced.mirror, sub_self, add_zero]
    have hrun := (total_invariant hstep ⟨hw₀, rfl⟩ h).2
    rw [total_sub] at hrun
    linarith

/-- The first transaction commits but reports failure, the user is deleted, another charge arrives, the
second flush replays the first operation, and the third discards the late charge. -/
def ambiguousCommit : List Label :=
  [.call .start, .call (.addMany [⟨0, 7, -5⟩]), .call .flush,
    .apply (.transaction (.committedUnreported "connection reset") true), .call .release,
    .deleteUser 7 false, .call (.addMany [⟨0, 7, -5⟩]), .call .flush,
    .apply (.transaction .committed false), .cleanup .committed, .call .release, .call .flush,
    .apply (.transaction .committed false)]

/-- The digest of the group of `ambiguousCommit`. -/
def ambiguousCommitHash (_ : List BatchUpdate) : String :=
  "d0ece881161079ba4392a515f32ae9ebb7466f8681b85b35b810dd79ad91a049"

/-- In the run of `ambiguousCommit` one charge is applied and the other discarded. -/
theorem accepted_eq_of_ambiguousCommit :
    ∃ w, Run.run (World.step (fun n => String.ofList (List.replicate n 'a')) ambiguousCommitHash)
        { db := { users := Table.put ∅ 7 { quota := 100 } }, now := 0 } ambiguousCommit = some w ∧
      w.db.column (.userQuota, 7) = 95 ∧ w.db.discarded (.userQuota, 7) = -5 ∧
      Run.total (World.step (fun n => String.ofList (List.replicate n 'a')) ambiguousCommitHash)
          (accepted (.userQuota, 7))
          { db := { users := Table.put ∅ 7 { quota := 100 } }, now := 0 } ambiguousCommit =
        Run.total (World.step (fun n => String.ofList (List.replicate n 'a')) ambiguousCommitHash)
            (applied (.userQuota, 7))
            { db := { users := Table.put ∅ 7 { quota := 100 } }, now := 0 } ambiguousCommit +
          (w.db.discarded (.userQuota, 7) - 0) + w.held (.userQuota, 7) := by
  have huuid : (fun n => String.ofList (List.replicate n 'a')).Injective := by
    intro n m h
    simpa using congrArg List.length (String.ofList_injective h)
  refine exists_some_imp (p := fun w => w.db.column (.userQuota, 7) = 95 ∧
    w.db.discarded (.userQuota, 7) = -5) (by decide) fun w hw ⟨hcolumn, hdiscarded⟩ => ?_
  exact ⟨hcolumn, hdiscarded, (accepted_eq_of_run huuid (fun _ => rfl) hw).1 (.userQuota, 7)⟩

end BeeApi.Batch
