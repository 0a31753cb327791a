import BeeApi.Batch.Invariant

/-!
# The batch updater never loses track of a group

What the invariant says to the callers of the updater: a group in flight keeps its identity and its
deltas until it is confirmed, and no caller ever sees one of the internal errors.
-/

namespace BeeApi.Batch

/-- The step confirms the group `key`: the applier succeeded on the next operation of the flush,
and `finalizeGroup` is about to remove it. -/
def Finalizes (key : GroupKey) (s : System) (event : Event) : Prop :=
  event = .apply none ∧ ∃ run operation rest, s.flush = some run ∧
    run.operations = operation :: rest ∧ operation.key = key

def GroupInFlight (u : BatchUpdater) (key : GroupKey) (operationID : String)
    (deltas : BatchUpdateType × ℤ → Option ℤ) : Prop :=
  u.operationIDs.get? key = some operationID ∧
    ∀ slot, keyOf slot = key → u.inFlight.get? slot = deltas slot

theorem groupInFlight_step {uuid : ℕ → String} {s s' : System} {event : Event} {key : GroupKey}
    {operationID : String} {deltas : BatchUpdateType × ℤ → Option ℤ} (hi : Inv s)
    (hg : GroupInFlight s.updater key operationID deltas) (hnot : ¬Finalizes key s event)
    (h : s.step uuid event = some s') : GroupInFlight s'.updater key operationID deltas := by
  obtain ⟨hid, hdeltas⟩ := hg
  cases (system_step_spec hi h).2 with
  | none _ hinFlight hids _ _ _ =>
    unfold GroupInFlight
    rw [hids, hinFlight]
    exact ⟨hid, hdeltas⟩
  | added updates _ _ hadded _ =>
    rw [hadded.frame]
    exact ⟨hid, hdeltas⟩
  | prepared _ hprepared _ =>
    refine ⟨hprepared.known key _ hid, fun slot hk => ?_⟩
    -- the group has an identity, so `prepareInFlightLocked` skips it
    have hnot : ¬Taken s.updater (groupKeys s.updater.stores) slot := by
      rintro ⟨-, hnone⟩
      rw [hk, hid] at hnone
      cases hnone
    rw [(hprepared.kept slot hnot).2]
    exact hdeltas slot hk
  | confirmed run operation rest hevent hflush hops _ _ hids hinFlight _ =>
    have hne : operation.key ≠ key := fun he =>
      hnot ⟨hevent, run, operation, rest, hflush, hops, he⟩
    refine ⟨?_, fun slot hk => ?_⟩
    · rw [hids, Table.get?_erase, if_neg hne.symm]
      exact hid
    · rw [hinFlight, if_neg (hk ▸ hne.symm)]
      exact hdeltas slot hk

theorem groupInFlight_run {uuid : ℕ → String} {s s' : System} {l : List Event} {key : GroupKey}
    {operationID : String} {deltas : BatchUpdateType × ℤ → Option ℤ} (hi : Inv s)
    (hg : GroupInFlight s.updater key operationID deltas)
    (hnot : Run.Along (System.step uuid) (fun s event => ¬Finalizes key s event) s l)
    (h : Run.run (System.step uuid) s l = some s') :
    GroupInFlight s'.updater key operationID deltas := by
  have hstep : ∀ (s : System) (event : Event) (s' : System),
      Inv s ∧ GroupInFlight s.updater key operationID deltas → ¬Finalizes key s event →
      s.step uuid event = some s' → Inv s' ∧ GroupInFlight s'.updater key operationID deltas :=
    fun s event s' hs hnot h =>
      ⟨(system_step_spec hs.1 h).1, groupInFlight_step hs.1 hs.2 hnot h⟩
  exact (Run.invariant_along hstep ⟨hi, hg⟩ hnot h).2

theorem beginFlush_ne_identityMissing (uuid : ℕ → String) {u : BatchUpdater} (hu : UpdaterInv u)
    (key : GroupKey) : (beginFlush uuid u).2 ≠ .error (.identityMissing key) := by
  by_cases hnew : u.state = .new
  · unfold beginFlush
    rw [hnew]
    simp
  by_cases hstopped : u.state = .stopped
  · unfold beginFlush
    rw [hstopped]
    simp
  obtain ⟨u', operations, hbegin, -⟩ := beginFlush_spec uuid hu hnew hstopped
  rw [hbegin]
  simp

/-- Stored deltas are nonzero, exactly the groups in flight have an identity and each is unchanged until
it is confirmed, the sums fit, the internal errors never happen, and a rejected `AddMany` changes nothing.
-/
theorem representation_of_run {uuid : ℕ → String} {s : System} {l : List Event}
    (h : Run.run (System.step uuid) {} l = some s) :
    (∀ slot d, s.updater.stores.get? slot = some d ∨ s.updater.inFlight.get? slot = some d →
      d ≠ 0) ∧
    (∀ key, s.updater.operationIDs.get? key ≠ none ↔
      ∃ slot d, s.updater.inFlight.get? slot = some d ∧ keyOf slot = key) ∧
    (∀ key operationID, s.updater.operationIDs.get? key = some operationID → ∀ l' s',
      Run.run (System.step uuid) s l' = some s' →
      Run.Along (System.step uuid) (fun s event => ¬Finalizes key s event) s l' →
      s'.updater.operationIDs.get? key = some operationID ∧ ∀ slot, keyOf slot = key →
          s'.updater.inFlight.get? slot = s.updater.inFlight.get? slot) ∧
    (∀ slot, Fits (s.updater.stores.delta slot + s.updater.inFlight.delta slot)) ∧
    (∀ e ∈ s.errors, ∀ key kind id,
      e ≠ .identityMissing key ∧ e ≠ .identityMismatch key ∧ e ≠ .inFlightMismatch kind id) ∧
    (∀ key, (beginFlush uuid s.updater).2 ≠ .error (.identityMissing key)) ∧
    (∀ run, s.flush = some run → ∀ operation ∈ run.operations, ∀ failed,
      (finalizeGroup s.updater operation failed).2 = none) ∧
    ∀ updates, (addMany s.updater updates).2 ≠ none →
      (addMany s.updater updates).1.stores = s.updater.stores ∧
        (addMany s.updater updates).1.inFlight = s.updater.inFlight := by
  have hi := inv_of_run h
  refine ⟨?_, hi.updater.identity, ?_, fun slot => (hi.updater.fits slot).2.2, ?_,
    beginFlush_ne_identityMissing uuid hi.updater, ?_, ?_⟩
  · rintro slot d (hd | hd)
    · exact hi.updater.stores_ne slot d hd
    · exact hi.updater.inFlight_ne slot d hd
  · intro key operationID hid l' s' hrun hnot
    exact groupInFlight_run hi ⟨hid, fun _ _ => rfl⟩ hnot hrun
  · intro e he key kind id
    have hnot := hi.errors e he
    refine ⟨?_, ?_, ?_⟩ <;> rintro rfl <;> cases hnot
  · intro run hrun operation hmem failed
    rw [finalizeGroup_of_isOperation (hi.operations run hrun operation hmem)]
  · intro updates herr
    rw [addMany_of_error herr]
    exact ⟨rfl, rfl⟩

/-- A run in which a flush fails, deltas of the same user pile up behind the group in flight, a
batch overflows, and the second flush confirms the group. -/
def failedFlush : List Event :=
  [.start, .addMany [⟨0, 7, 5⟩, ⟨2, 7, 5⟩, ⟨1, 3, -4⟩], .flush, .apply (some "timeout"),
    .addMany [⟨4, 7, 1⟩], .addMany [⟨0, 7, 2 ^ 63 - 1⟩], .apply none, .cleanup true, .release,
    .flush, .apply none]

/-- The run of `failedFlush` reaches a state, which has the invariant. -/
theorem representation_of_failedFlush :
    ∃ s, Run.run (System.step fun n => toString n) {} failedFlush = some s ∧
      (s.updater.stores.get? (.requestCount, 7) = some 1 ∧
        s.updater.inFlight.get? (.userQuota, 7) = none) ∧
      ∀ e ∈ s.errors, ∀ key kind id,
        e ≠ .identityMissing key ∧ e ≠ .identityMismatch key ∧ e ≠ .inFlightMismatch kind id := by
  exact Option.exists_some_imp (by decide) fun s hs hval => ⟨hval, (representation_of_run hs).2.2.2.2.1⟩

end BeeApi.Batch
