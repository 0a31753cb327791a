import BeeApi.Batch.Invariant
import BeeApi.Batch.Applier

/-!
# Stopping the updater

`StopAndFlush` closes the updater, waits for the worker and flushes until nothing is pending.  Callers
of `AddMany` go on meanwhile: their calls come before every section that holds the mutex.  A group
that an earlier flush left in flight keeps newer deltas of its key back for one round, and no more.
-/

namespace BeeApi.Batch

open List Batch.System

section Stop

variable (uuid : ℕ → String)

/-! ## The loop -/

/-- The calls of `AddMany` before each section, what the applier returns for each operation, and the
rounds whose wait for the gate is cancelled. -/
structure Surroundings where
  adds : ℕ → ℕ → List (List RawBatchUpdate) := fun _ _ => []
  answer : ℕ → ℕ → Option String := fun _ _ => none
  cancelled : ℕ → Option String := fun _ => none

def addAll (u : BatchUpdater) (calls : List (List RawBatchUpdate)) : BatchUpdater :=
  calls.foldl (fun u updates => (addMany u updates).1) u

structure FlushResult where
  updater : BatchUpdater
  error : Option BatchUpdaterError := none
  applied : List BatchUpdateOperation := []

/-- The loop of `Flush` over its operations. -/
def flushOperations (w : Surroundings) (round : ℕ) :
    ℕ → BatchUpdater → List BatchUpdateOperation → FlushResult
  | _, u, [] => { updater := u }
  | i, u, operation :: rest =>
    let answer := w.answer round i
    let (u, finalizeError) :=
      finalizeGroup (addAll u (w.adds round (i + 1))) operation answer.isSome
    let error := (answer.map BatchUpdaterError.applier).or finalizeError
    let r := flushOperations w round (i + 1) u rest
    { r with
      error := error.or r.error
      applied := if answer = none then operation :: r.applied else r.applied }

/-- `Flush`, called by `StopAndFlush`. -/
def flushRound (w : Surroundings) (round : ℕ) (u : BatchUpdater) : FlushResult :=
  match w.cancelled round with
  | some text => { updater := u, error := some (.applier text) }
  | none =>
    match beginFlush uuid (addAll u (w.adds round 0)) with
    | (u, .error e) => { updater := u, error := some e }
    | (u, .ok operations) => flushOperations w round 0 u operations

structure StopResult extends FlushResult where
  rounds : ℕ := 0

/-- `StopAndFlush` after the worker is done. -/
def stopLoop (w : Surroundings) : ℕ → ℕ → BatchUpdater → Option StopResult
  | 0, _, _ => none
  | fuel + 1, round, u =>
    let r := flushRound uuid w round u
    if r.error.isSome then some { r with }
    else if r.updater.stores.rows = [] ∧ r.updater.inFlight.rows = [] then
      some { r with updater := { r.updater with state := .stopped }, rounds := 1 }
    else
      (stopLoop w fuel (round + 1) r.updater).map fun rest =>
        { rest with applied := r.applied ++ rest.applied, rounds := rest.rounds + 1 }

/-- The loop of `StopAndFlush` from its first round; it would be none if two rounds were not
enough. -/
def stopAndFlush (w : Surroundings) (u : BatchUpdater) : Option StopResult := stopLoop uuid w 2 0 u

def appliedDelta (operations : List BatchUpdateOperation) (slot : BatchUpdateType × ℤ) : ℤ :=
  (operations.map fun operation => groupDelta operation.updates slot).sum

def BatchUpdater.pending (u : BatchUpdater) (slot : BatchUpdateType × ℤ) : ℤ :=
  u.stores.delta slot + u.inFlight.delta slot

/-- What a step accepts, and what it applies. -/
def System.accepts (slot : BatchUpdateType × ℤ) (s : System) (event : Event) (_ : System) : ℤ :=
  match event with
  | .addMany updates => if (addMany s.updater updates).2 = none then requested updates slot else 0
  | _ => 0

def System.applies (slot : BatchUpdateType × ℤ) (s : System) (event : Event) (_ : System) : ℤ :=
  match event, s.flush with
  | .apply none, some ⟨operation :: _, _⟩ => groupDelta operation.updates slot
  | _, _ => 0

/-- Where a loop starts, with what was accepted and applied before: the worker is done after a stop,
or an earlier call has failed. -/
inductive Entered : (BatchUpdateType × ℤ → ℤ) → (BatchUpdateType × ℤ → ℤ) → BatchUpdater → Prop
  | worker {events : List Event} {s : System}
      (hrun : Run.run (step uuid) {} events = some s) (hstate : s.updater.state = .stopping)
      (hgate : s.flush = none) :
      Entered (fun slot => Run.total (step uuid) (accepts slot) {} events)
        (fun slot => Run.total (step uuid) (applies slot) {} events) s.updater
  | again {accepted applied : BatchUpdateType × ℤ → ℤ} {u : BatchUpdater} {w : Surroundings}
      {r : StopResult} (h : Entered accepted applied u) (hr : stopAndFlush uuid w u = some r)
      (herror : r.error ≠ none) :
      Entered accepted (fun slot => applied slot + appliedDelta r.applied slot) r.updater

variable {uuid}

/-! ## One round -/

variable {u : BatchUpdater}

theorem addMany_stopping (h : u.state ≠ .running) {updates : List RawBatchUpdate}
    (hne : updates ≠ []) : addMany u updates = (u, some (.notAccepting u.state)) := by
  unfold addMany
  rw [if_neg hne, if_pos h]

theorem addAll_stopping (h : u.state ≠ .running)
    (calls : List (List RawBatchUpdate)) : addAll u calls = u := by
  unfold addAll
  induction calls with
  | nil => rfl
  | cons updates calls ih =>
    have hsame : (addMany u updates).1 = u := by
      by_cases hne : updates = []
      · rw [hne]
        rfl
      · rw [addMany_stopping h hne]
    rw [foldl_cons, hsame]
    exact ih

/-- An updater between two sections of a stop. -/
structure StoppingInv (u : BatchUpdater) : Prop where
  updater : UpdaterInv u
  state : u.state = .stopping

def BatchUpdater.without (u : BatchUpdater) (operation : BatchUpdateOperation) : BatchUpdater :=
  { u with
    inFlight := operation.updates.foldl (fun stores update => stores.erase update.slot) u.inFlight
    operationIDs := u.operationIDs.erase operation.key }

theorem flushOperations_cons {operation : BatchUpdateOperation}
    (hu : u.state ≠ .running) (hop : IsOperation u operation) (w : Surroundings) (round i : ℕ)
    (rest : List BatchUpdateOperation) : flushOperations w round i u (operation :: rest) =
      match w.answer round i with
      | some text =>
        { flushOperations w round (i + 1) u rest with error := some (.applier text) }
      | none =>
        let r := flushOperations w round (i + 1) (u.without operation) rest
        { r with applied := operation :: r.applied } := by
  conv_lhs => unfold flushOperations
  dsimp only
  rw [addAll_stopping hu, finalizeGroup_of_isOperation hop]
  cases w.answer round i <;> rfl

/-- What the loop over the operations leaves: without an error, none of their groups. -/
structure OperationsDone (u : BatchUpdater) (keys : List GroupKey) (answered : Prop) (r : FlushResult) :
    Prop where
  inv : StoppingInv r.updater
  stores : r.updater.stores = u.stores
  balance : ∀ slot, appliedDelta r.applied slot + r.updater.inFlight.delta slot =
    u.inFlight.delta slot
  error : answered → r.error = none
  empty : r.error = none → ∀ slot, r.updater.inFlight.get? slot =
    if keyOf slot ∈ keys then none else u.inFlight.get? slot

theorem flushOperations_spec (hu : StoppingInv u) (w : Surroundings)
    (round i : ℕ) {operations : List BatchUpdateOperation}
    (hnodup : (operations.map BatchUpdateOperation.key).Nodup)
    (hops : ∀ operation ∈ operations, IsOperation u operation) :
    OperationsDone u (operations.map BatchUpdateOperation.key) (∀ j, w.answer round j = none)
      (flushOperations w round i u operations) := by
  induction operations generalizing u i with
  | nil =>
    exact ⟨hu, rfl, fun slot => zero_add _, fun _ => rfl, fun _ slot => (if_neg not_mem_nil).symm⟩
  | cons operation rest ih =>
    have hop := hops operation mem_cons_self
    rw [map_cons, nodup_cons] at hnodup
    rw [flushOperations_cons (by rw [hu.state]; decide) hop]
    cases hanswer : w.answer round i with
    | some text =>
      have hrest := ih hu (i + 1) hnodup.2
        fun operation h => hops operation (mem_cons_of_mem _ h)
      refine ⟨hrest.inv, hrest.stores, hrest.balance, fun h => ?_, nofun⟩
      rw [h i] at hanswer
      cases hanswer
    | none =>
      -- the group leaves the deltas in flight, and its identity goes
      have hinFlight : ∀ slot, (u.without operation).inFlight.get? slot =
          if keyOf slot = operation.key then none else u.inFlight.get? slot := hop.get?_erase
      have hrest := ih (u := u.without operation) ⟨hu.updater.of_finalized rfl hinFlight rfl, hu.state⟩
        (i + 1) hnodup.2 fun operation' h =>
          (hops operation' (mem_cons_of_mem _ h)).of_finalized
            (fun he : operation'.key = operation.key => hnodup.1 (he ▸ mem_map_of_mem h))
              hinFlight rfl
      refine ⟨hrest.inv, hrest.stores, fun slot => ?_, hrest.error, fun h slot => ?_⟩
      · have hdelta := hop.group.groupDelta_eq slot
        have hslot := hrest.balance slot
        have hget := hinFlight slot
        unfold appliedDelta at hslot ⊢
        unfold Stores.delta at *
        rw [map_cons, sum_cons, add_assoc, hslot, hdelta, hget]
        split_ifs
        · exact add_zero _
        · exact zero_add _
      · refine (hrest.empty h slot).trans ?_
        rw [hinFlight slot, map_cons]
        by_cases hkey : keyOf slot = operation.key
        · rw [if_pos hkey, ite_self, if_pos (mem_cons.2 (.inl hkey))]
        · simp only [mem_cons, hkey, false_or, if_false]

/-- What a round leaves: without an error nothing is in flight, and only deltas that an earlier group
of their key kept back are still in the store. -/
structure Round (u : BatchUpdater) (succeeds : Prop) (r : FlushResult) : Prop where
  inv : StoppingInv r.updater
  balance : ∀ slot, appliedDelta r.applied slot + r.updater.pending slot = u.pending slot
  error : succeeds → r.error = none
  empty : r.error = none → ∀ slot, r.updater.inFlight.get? slot = none
  kept : r.error = none → ∀ slot, r.updater.stores.get? slot =
    if u.operationIDs.get? (keyOf slot) = none then none else u.stores.get? slot

theorem pending_of_prepared {u u₁ : BatchUpdater} (hu : UpdaterInv u)
    (hprepared : Prepared uuid (groupKeys u.stores) u u₁) (slot : BatchUpdateType × ℤ) :
    u₁.pending slot = u.pending slot := by
  unfold BatchUpdater.pending Stores.delta
  by_cases ht : Taken u (groupKeys u.stores) slot
  · obtain ⟨hs, hf⟩ := hprepared.taken slot ht
    rw [hs, hf, hu.inFlight_none ht.2, Option.or_none, add_comm]
  · obtain ⟨hs, hf⟩ := hprepared.kept slot ht
    rw [hs, hf]

variable (uuid) in
theorem flushRound_spec (hu : StoppingInv u) (w : Surroundings) (round : ℕ) :
    Round u (w.cancelled round = none ∧ ∀ j, w.answer round j = none)
      (flushRound uuid w round u) := by
  unfold flushRound
  cases hcancelled : w.cancelled round with
  | some text =>
    exact ⟨hu, fun slot => zero_add _, fun h => (nomatch h.1), nofun, nofun⟩
  | none =>
    rw [addAll_stopping (by rw [hu.state]; decide)]
    obtain ⟨u₁, operations, hbegin, hprepared, hu₁, hkeys, hops⟩ := beginFlush_spec uuid hu.updater
      (by rw [hu.state]; decide) (by rw [hu.state]; decide)
    rw [hbegin]
    have hflushed := flushOperations_spec (u := u₁) ⟨hu₁, hprepared.state.trans hu.state⟩ w round 0
      (hkeys ▸ nodup_groupKeys u₁.inFlight) hops
    dsimp only
    -- a slot of the store is taken unless its key has an operation in flight
    have htaken : ∀ slot, (¬ Taken u (groupKeys u.stores) slot) →
        u.operationIDs.get? (keyOf slot) = none → u.stores.get? slot = none := by
      intro slot hn hid
      cases hd : u.stores.get? slot with
      | none => rfl
      | some d => exact absurd ⟨mem_groupKeys.2 ⟨slot, d, hd, rfl⟩, hid⟩ hn
    refine ⟨hflushed.inv, fun slot => ?_, fun h => hflushed.error h.2, fun h slot => ?_,
      fun _ slot => ?_⟩
    · have hbalance := hflushed.balance slot
      have hpending := pending_of_prepared hu.updater hprepared slot
      unfold BatchUpdater.pending at hpending ⊢
      rw [hflushed.stores]
      omega
    · rw [hflushed.empty h slot, hkeys]
      split_ifs with hmem
      · rfl
      · cases hd : u₁.inFlight.get? slot with
        | none => rfl
        | some d => exact absurd (mem_groupKeys.2 ⟨slot, d, hd, rfl⟩) hmem
    · rw [hflushed.stores]
      by_cases ht : Taken u (groupKeys u.stores) slot
      · rw [(hprepared.taken slot ht).1, if_pos ht.2]
      · rw [(hprepared.kept slot ht).1]
        split_ifs with hid
        · exact htaken slot ht hid
        · rfl

/-! ## The whole call -/

theorem Round.cleared {succeeds : Prop} {r : FlushResult}
    (h : Round u succeeds r) (hok : r.error = none) (hids : ∀ key, u.operationIDs.get? key = none) :
    r.updater.stores.rows = [] ∧ r.updater.inFlight.rows = [] := by
  have hrows : ∀ stores : Stores, (∀ slot, stores.get? slot = none) → stores.rows = [] := by
    intro stores hnone
    refine eq_nil_iff_forall_not_mem.2 fun e he => ?_
    have := (Table.get?_eq_some_iff stores e.1 e.2).2 he
    rw [hnone] at this
    cases this
  exact ⟨hrows _ fun slot => (h.kept hok slot).trans (if_pos (hids _)), hrows _ (h.empty hok)⟩

theorem Round.ids {succeeds : Prop} {r : FlushResult} (h : Round u succeeds r)
    (hok : r.error = none) (key : GroupKey) : r.updater.operationIDs.get? key = none := by
  by_contra hne
  obtain ⟨slot, d, hd, -⟩ := (h.inv.updater.identity key).1 hne
  rw [h.empty hok slot] at hd
  cases hd

theorem appliedDelta_append (l l' : List BatchUpdateOperation) (slot : BatchUpdateType × ℤ) :
    appliedDelta (l ++ l') slot = appliedDelta l slot + appliedDelta l' slot := by
  unfold appliedDelta
  rw [map_append, sum_append]

structure StopDone (u : BatchUpdater) (succeeds : Prop) (bound : ℕ) (r : StopResult) : Prop where
  rounds : r.rounds ≤ bound
  balance : ∀ slot, appliedDelta r.applied slot + r.updater.pending slot = u.pending slot
  error : succeeds → r.error = none
  failed : r.error ≠ none → StoppingInv r.updater
  stopped : r.error = none →
    r.updater.state = .stopped ∧ r.updater.stores.rows = [] ∧ r.updater.inFlight.rows = []

/-- The rounds before the last one find groups in flight: `rounds` of them are enough. -/
theorem stopLoop_spec (hu : StoppingInv u) (w : Surroundings) (fuel round : ℕ)
    (hfuel : 1 < fuel ∨ 0 < fuel ∧ ∀ key, u.operationIDs.get? key = none) :
    ∃ r, stopLoop uuid w fuel round u = some r ∧
      StopDone u ((∀ n, w.cancelled n = none) ∧ ∀ n j, w.answer n j = none) fuel r := by
  induction fuel generalizing u round with
  | zero => omega
  | succ fuel ih =>
    have hround := flushRound_spec uuid hu w round
    unfold stopLoop
    by_cases herror : (flushRound uuid w round u).error.isSome = true
    · rw [if_pos herror]
      refine ⟨_, rfl, Nat.zero_le _, hround.balance,
        fun h => hround.error ⟨h.1 round, h.2 round⟩, fun _ => hround.inv, fun h => ?_⟩
      rw [h] at herror
      cases herror
    rw [if_neg herror]
    have hok : (flushRound uuid w round u).error = none := by simpa using herror
    split
    · rename_i hpending
      exact ⟨_, rfl, Nat.le_add_left 1 fuel, hround.balance, fun _ => hok, fun h => absurd hok h,
        fun _ => ⟨rfl, hpending⟩⟩
    · rename_i hpending
      have hmore : 0 < fuel := by
        rcases hfuel with h | ⟨-, hids⟩
        · omega
        · exact absurd (hround.cleared hok hids) hpending
      obtain ⟨r, hr, hdone⟩ := ih hround.inv (round + 1) (.inr ⟨hmore, hround.ids hok⟩)
      rw [hr]
      refine ⟨_, rfl, Nat.succ_le_succ hdone.rounds, fun slot => ?_, hdone.error, hdone.failed,
        hdone.stopped⟩
      rw [appliedDelta_append, add_assoc, hdone.balance slot, hround.balance slot]

/-! ## Accounts -/

variable {s s' : System} {event : Event}

theorem System.applies_eq_zero (h : event ≠ .apply none) (slot : BatchUpdateType × ℤ) :
    s.applies slot event s' = 0 := by
  unfold applies
  split
  · exact absurd rfl h
  · rfl

theorem pending_step (hi : Inv s) (h : s.step uuid event = some s') (slot : BatchUpdateType × ℤ) :
    s'.updater.pending slot + s.applies slot event s' = s.updater.pending slot +
      s.accepts slot event s' := by
  by_cases hevent : event = .apply none
  · subst hevent
    have haccepts : s.accepts slot (.apply none) s' = 0 := rfl
    rw [haccepts, add_zero]
    unfold step at h
    unfold applies
    cases hflush : s.flush with
    | none => simp [hflush] at h
    | some run =>
      obtain ⟨operations, confirmed⟩ := run
      cases operations with
      | nil => simp [hflush] at h
      | cons operation rest =>
        simp only [hflush] at h
        obtain ⟨u', heq, -, hdone⟩ := apply_spec hi hflush rfl none
        obtain ⟨hframe, hinFlight⟩ := hdone rfl
        obtain rfl := (Option.some.inj h).symm
        have hop := hi.operations _ hflush operation mem_cons_self
        have hdelta := hop.group.groupDelta_eq slot
        rw [heq]
        dsimp only
        have hstores : u'.stores = s.updater.stores := by rw [hframe]
        unfold BatchUpdater.pending Stores.delta at *
        rw [hdelta, hstores, hinFlight slot]
        split_ifs <;> simp
  rw [applies_eq_zero hevent, add_zero]
  obtain ⟨-, hchange⟩ := system_step_spec hi h
  cases hchange with
  | none hstores hinFlight _ _ _ hrejected =>
    have haccepts : s.accepts slot event s' = 0 := by
      unfold accepts
      split
      · exact if_neg (hrejected _ rfl)
      · rfl
    unfold BatchUpdater.pending
    rw [hstores, hinFlight, haccepts, add_zero]
  | added updates hadd hok hadded =>
    subst hadd
    have haccepts : s.accepts slot (.addMany updates) s' = requested updates slot := if_pos hok
    have hinFlight : s'.updater.inFlight = s.updater.inFlight := by rw [hadded.frame]
    unfold BatchUpdater.pending
    rw [haccepts, hadded.delta, hinFlight]
    ring
  | prepared hflush hprepared =>
    subst hflush
    exact (pending_of_prepared hi.updater hprepared slot).trans (add_zero _).symm
  | confirmed run operation rest happly => exact absurd happly hevent

theorem pending_of_run {events : List Event} (h : Run.run (step uuid) {} events = some s)
    (slot : BatchUpdateType × ℤ) :
    Run.total (step uuid) (accepts slot) {} events =
      Run.total (step uuid) (applies slot) {} events + s.updater.pending slot := by
  have hbalance : Inv s ∧ s.updater.pending slot = 0 + Run.total (step uuid)
      (fun s event s' => s.accepts slot event s' - s.applies slot event s') {} events :=
    @Run.total_invariant _ _ _ _ (fun s t => Inv s ∧ s.updater.pending slot = t)
      (fun s t event s' hi hs => ⟨(system_step_spec hi.1 hs).1, by
        have := pending_step hi.1 hs slot
        have := hi.2
        omega⟩) _ _ _ _ ⟨Inv.empty, rfl⟩ h
  rw [Run.total_sub] at hbalance
  omega

/-- Where a loop starts, the accounts agree. -/
theorem entered_inv {accepted applied : BatchUpdateType × ℤ → ℤ}
    (h : Entered uuid accepted applied u) :
    StoppingInv u ∧ ∀ slot, accepted slot = applied slot + u.pending slot := by
  induction h with
  | worker hrun hstate _ => exact ⟨⟨(inv_of_run hrun).updater, hstate⟩, pending_of_run hrun⟩
  | again _ hr herror ih =>
    obtain ⟨hu, hbalance⟩ := ih
    obtain ⟨r, hr', hdone⟩ := stopLoop_spec hu _ 2 0 (.inl (by decide))
    cases hr.symm.trans hr'
    refine ⟨hdone.failed herror, fun slot => ?_⟩
    have := hdone.balance slot
    have := hbalance slot
    dsimp only
    omega

def System.Closed (s : System) : Prop := s.updater.state = .stopping ∨ s.updater.state = .stopped

theorem closed_step (hi : Inv s) (hclosed : s.Closed) (h : s.step uuid event = some s') :
    s'.Closed := by
  have hrunning : s.updater.state ≠ .running := by
    rcases hclosed with h | h <;> rw [h] <;> decide
  have hnew : s.updater.state ≠ .new := by
    rcases hclosed with h | h <;> rw [h] <;> decide
  unfold System.Closed at *
  cases event with
  | start =>
    rw [step, if_pos hnew] at h
    cases h
    exact hclosed
  | addMany updates =>
    cases h
    show (addMany s.updater updates).1.state = _ ∨ (addMany s.updater updates).1.state = _
    have hsame := addAll_stopping hrunning [updates]
    rw [show (addMany s.updater updates).1 = s.updater from hsame]
    exact hclosed
  | flush =>
    rw [step] at h
    split_ifs at h
    cases h
    unfold System.beginFlush
    by_cases hstopped : s.updater.state = .stopped
    · rw [beginFlush_of_stopped uuid hstopped]
      exact hclosed
    · obtain ⟨u', operations, hbegin, hprepared, -⟩ := beginFlush_spec uuid hi.updater hnew hstopped
      rw [hbegin]
      show u'.state = _ ∨ u'.state = _
      rw [hprepared.state]
      exact hclosed
  | apply result =>
    rw [step] at h
    split at h
    · rename_i run hflush
      split at h
      · rename_i operation rest hops
        obtain ⟨u', heq, hfailed, hdone⟩ := apply_spec hi hflush hops result
        rw [heq] at h
        cases h
        have hstate : u'.state = s.updater.state := by
          cases result with
          | some text => rw [hfailed rfl]
          | none => rw [(hdone rfl).1]
        show u'.state = _ ∨ u'.state = _
        rw [hstate]
        exact hclosed
      · cases h
    · cases h
  | cleanup succeeded =>
    rw [step] at h
    split at h
    · cases h
      exact hclosed
    · cases h
  | release =>
    rw [step] at h
    split_ifs at h
    cases h
    exact hclosed
  | stop =>
    rw [step] at h
    split at h
    · rename_i heq
      exact absurd heq hnew
    · rename_i heq
      exact absurd heq hrunning
    · cases h
      exact hclosed
  | stopped =>
    rw [step] at h
    split_ifs at h
    cases h
    exact .inr rfl

/-- After a stop no delta is accepted.  The loop ends within two successful rounds: without a failure all
that was ever accepted is applied, after one nothing is lost and another call can go on. -/
theorem stopAndFlush_complete (uuid : ℕ → String) :
    (∀ events events' s s', Run.run (step uuid) {} events = some s →
      s.updater.state = .running → Run.run (step uuid) s (.stop :: events') = some s' →
      ∀ updates, updates ≠ [] → addMany s'.updater updates =
        (s'.updater, some (.notAccepting s'.updater.state))) ∧
    ∀ accepted applied u, Entered uuid accepted applied u → ∀ w : Surroundings,
      ∃ r, stopAndFlush uuid w u = some r ∧ r.rounds ≤ 2 ∧
        ((∀ n, w.cancelled n = none) → (∀ n j, w.answer n j = none) → r.error = none) ∧
        (r.error = none → r.updater.state = .stopped ∧ r.updater.stores.rows = [] ∧
          r.updater.inFlight.rows = [] ∧
          ∀ slot, accepted slot = applied slot + appliedDelta r.applied slot) ∧
        (r.error ≠ none → r.updater.state = .stopping ∧ (∀ slot, accepted slot =
            applied slot + appliedDelta r.applied slot + r.updater.pending slot) ∧
          Entered uuid accepted (fun slot => applied slot + appliedDelta r.applied slot)
            r.updater) := by
  constructor
  · intro events events' s s' hrun hrunning hstop updates hne
    obtain ⟨s₁, hs₁, hrun'⟩ := Run.run_cons_eq_some_iff.1 hstop
    have hi := inv_of_run hrun
    have hclosed : s₁.Closed := by
      rw [step, hrunning] at hs₁
      cases hs₁
      exact .inl rfl
    have hlast : Inv s' ∧ s'.Closed := @Run.invariant _ _ _ (fun s => Inv s ∧ s.Closed)
      (fun s event s' hs hstep => ⟨(system_step_spec hs.1 hstep).1, closed_step hs.1 hs.2 hstep⟩)
      _ _ _ ⟨(system_step_spec hi hs₁).1, hclosed⟩ hrun'
    exact addMany_stopping (by rcases hlast.2 with h | h <;> rw [h] <;> decide) hne
  · intro accepted applied u h w
    obtain ⟨hu, hbalance⟩ := entered_inv h
    obtain ⟨r, hr, hdone⟩ := stopLoop_spec hu w 2 0 (.inl (by decide))
    refine ⟨r, hr, hdone.rounds, fun hc ha => hdone.error ⟨hc, ha⟩, fun hok => ?_, fun hfailed => ?_⟩
    · obtain ⟨hstate, hstores, hinFlight⟩ := hdone.stopped hok
      refine ⟨hstate, hstores, hinFlight, fun slot => ?_⟩
      have hempty : r.updater.pending slot = 0 := by
        unfold BatchUpdater.pending Stores.delta Table.get?
        rw [hstores, hinFlight]
        rfl
      have := hdone.balance slot
      have := hbalance slot
      omega
    · refine ⟨(hdone.failed hfailed).state, fun slot => ?_, .again h hr hfailed⟩
      have := hdone.balance slot
      have := hbalance slot
      omega

end Stop

/-- A delta that the worker has not flushed before the stop. -/
def stoppedEvents : List Event := [.start, .addMany [⟨0, 1, 5⟩], .stop]

def stoppedSystem : System := (Run.run (step Nat.repr) {} stoppedEvents).getD {}

theorem stopAndFlush_stoppedSystem : ∃ r, stopAndFlush Nat.repr {} stoppedSystem.updater = some r ∧
    r.updater.state = .stopped ∧ appliedDelta r.applied (.userQuota, 1) = 5 := by
  have hrun : Run.run (step Nat.repr) {} stoppedEvents = some stoppedSystem := by
    decide +kernel
  have haccepted : Run.total (step Nat.repr) (accepts (.userQuota, 1)) {}
      stoppedEvents = 5 := by decide +kernel
  have happlied : Run.total (step Nat.repr) (applies (.userQuota, 1)) {}
      stoppedEvents = 0 := by decide +kernel
  obtain ⟨r, hr, -, herror, hdone, -⟩ := (stopAndFlush_complete Nat.repr).2 _ _ _
    (.worker hrun (by decide +kernel) (by decide +kernel)) {}
  obtain ⟨hstate, -, -, htotal⟩ := hdone (herror (fun _ => rfl) fun _ _ => rfl)
  have hslot := htotal (.userQuota, 1)
  rw [haccepted, happlied] at hslot
  exact ⟨r, hr, hstate, by omega⟩

end BeeApi.Batch
