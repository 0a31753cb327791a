import BeeApi.Batch.Groups

/-!
# The representation invariant of the batch updater

`Inv` holds in every state that any interleaving of `AddMany`, `Flush` and applier outcomes
reaches.  It makes the three internal errors of `Flush` unreachable.
-/

namespace BeeApi.Batch

open List Option Table Batch.System List.Subset

/-! ## What `AddMany` adds -/

theorem checkedAddInt_eq_some {a b c : ℤ} (h : checkedAddInt a b = some c) :
    c = a + b ∧ (Fits a → Fits c) := by
  unfold checkedAddInt at h
  split_ifs at h with h₁ h₂
  cases h
  refine ⟨rfl, fun ha => ?_⟩
  unfold Fits at ha ⊢
  have hmin : minInt = -maxInt - 1 := rfl
  omega

def requested (updates : List RawBatchUpdate) (slot : BatchUpdateType × ℤ) : ℤ :=
  (updates.map fun update =>
    if kindOfCode update.kind = some slot.1 ∧ update.id = slot.2 then update.delta else 0).sum

/-- The table that the validating loop has built from `updates`. -/
def IsProspective (u : BatchUpdater) (updates : List RawBatchUpdate) (prospective : Stores) : Prop :=
  (∀ slot value, prospective.get? slot = some value →
    value = u.stores.delta slot + requested updates slot ∧
      (Fits (u.stores.delta slot) → Fits value) ∧
      (Fits (u.inFlight.delta slot) → Fits (value + u.inFlight.delta slot))) ∧
  ∀ slot, prospective.get? slot = none → requested updates slot = 0

theorem requested_append (l l' : List RawBatchUpdate) (slot : BatchUpdateType × ℤ) :
    requested (l ++ l') slot = requested l slot + requested l' slot := by
  unfold requested
  rw [map_append, sum_append]

variable {u u' : BatchUpdater} {updates : List RawBatchUpdate} {prospective : Stores}
  {operation : BatchUpdateOperation} {s : System} {uuid : ℕ → String}

theorem addProspective_spec {update : RawBatchUpdate} {prospective' : Stores}
    (hp : IsProspective u updates prospective)
    (h : addProspective u prospective update = .ok prospective') :
    IsProspective u (updates ++ [update]) prospective' := by
  unfold addProspective at h
  cases hkind : kindOfCode update.kind with
  | none => simp [hkind] at h
  | some kind =>
    simp only [hkind] at h
    split_ifs at h with hid
    cases hlive : checkedAddInt ((prospective.get? (kind, update.id)).getD
        (u.stores.delta (kind, update.id))) update.delta with
    | none => simp [hlive] at h
    | some next =>
      simp only [hlive] at h
      cases hsum : checkedAddInt (u.inFlight.delta (kind, update.id)) next with
      | none => simp [hsum] at h
      | some total =>
        simp only [hsum, Except.ok.injEq] at h
        subst h
        obtain ⟨hnext, hfits⟩ := checkedAddInt_eq_some hlive
        obtain ⟨htotal, hfits'⟩ := checkedAddInt_eq_some hsum
        have hone : ∀ slot, requested [update] slot =
            if slot = (kind, update.id) then update.delta else 0 := by
          rintro ⟨k, i⟩
          simp only [requested, map_cons, map_nil, sum_cons, sum_nil, add_zero,
            hkind, some.injEq, Prod.mk.injEq, @eq_comm _ kind k, @eq_comm _ update.id i]
        -- what was live at the slot before this update
        have hbefore : (prospective.get? (kind, update.id)).getD
            (u.stores.delta (kind, update.id)) =
              u.stores.delta (kind, update.id) + requested updates (kind, update.id) ∧
            (Fits (u.stores.delta (kind, update.id)) →
              Fits ((prospective.get? (kind, update.id)).getD
                (u.stores.delta (kind, update.id)))) := by
          cases hg : prospective.get? (kind, update.id) with
          | none =>
            rw [hp.2 _ hg, getD_none, add_zero]
            exact ⟨rfl, id⟩
          | some value =>
            obtain ⟨hv, hf, -⟩ := hp.1 _ value hg
            exact ⟨hv, hf⟩
        constructor
        · intro slot value hvalue
          rw [requested_append, hone]
          rw [get?_put] at hvalue
          split_ifs at hvalue with hslot
          · subst hslot
            cases hvalue
            rw [if_pos rfl]
            refine ⟨?_, fun hf => hfits (hbefore.2 hf), fun hf => ?_⟩
            · rw [hnext, hbefore.1, add_assoc]
            · rw [add_comm, ← htotal]
              exact hfits' hf
          · rw [if_neg hslot, add_zero]
            exact hp.1 slot value hvalue
        · intro slot hnone
          rw [get?_put] at hnone
          split_ifs at hnone with hslot
          rw [requested_append, hone, if_neg hslot, add_zero]
          exact hp.2 slot hnone

theorem foldlM_addProspective {before : List RawBatchUpdate} {prospective' : Stores}
    (hp : IsProspective u before prospective)
    (h : updates.foldlM (addProspective u) prospective = .ok prospective') :
    IsProspective u (before ++ updates) prospective' := by
  induction updates generalizing before prospective with
  | nil =>
    cases h
    rwa [append_nil]
  | cons update updates ih =>
    rw [foldlM_cons] at h
    obtain ⟨p₁, h₁, h₂⟩ := Except.bind_eq_ok_iff.1 h
    have := ih (addProspective_spec hp h₁) h₂
    rwa [append_assoc, singleton_append] at this

/-- The writing loop: zeros are removed, other values are stored. -/
theorem get?_foldl_storeProspective (rows : List ((BatchUpdateType × ℤ) × ℤ))
    (hrows : (rows.map Prod.fst).Nodup) (stores : Stores) (slot : BatchUpdateType × ℤ) :
    (∀ value, (slot, value) ∈ rows →
      (rows.foldl storeProspective stores).get? slot = if value = 0 then none else some value) ∧
    (slot ∉ rows.map Prod.fst →
      (rows.foldl storeProspective stores).get? slot = stores.get? slot) := by
  induction rows generalizing stores with
  | nil => exact ⟨fun _ h => absurd h not_mem_nil, fun _ => rfl⟩
  | cons entry rows ih =>
    rw [map_cons, nodup_cons] at hrows
    have hfirst : ∀ slot', (storeProspective stores entry).get? slot' =
        if slot' = entry.1 then if entry.2 = 0 then none else some entry.2
        else stores.get? slot' := by
      intro slot'
      unfold storeProspective
      split_ifs with hz hs hs
      · rw [get?_erase, if_pos hs]
      · rw [get?_erase, if_neg hs]
      · rw [get?_put, if_pos hs]
      · rw [get?_put, if_neg hs]
    obtain ⟨hin, hout⟩ := ih hrows.2 (storeProspective stores entry)
    constructor
    · intro value hmem
      rw [foldl_cons]
      rcases mem_cons.1 hmem with rfl | hmem
      · rw [hout hrows.1, hfirst, if_pos rfl]
      · exact hin value hmem
    · intro hnot
      rw [map_cons, mem_cons, not_or] at hnot
      rw [foldl_cons, hout hnot.2, hfirst, if_neg hnot.1]

/-- The updater after the deltas of `updates` joined the store. -/
structure Added (u : BatchUpdater) (updates : List RawBatchUpdate) (u' : BatchUpdater) : Prop where
  frame : u' = { u with stores := u'.stores }
  delta : ∀ slot, u'.stores.delta slot = u.stores.delta slot + requested updates slot
  nonzero : ∀ slot d, u'.stores.get? slot = some d → d ≠ 0 ∨ u.stores.get? slot = some d
  fits : ∀ slot, Fits (u.stores.delta slot) → Fits (u.inFlight.delta slot) →
    Fits (u.stores.delta slot + u.inFlight.delta slot) →
    Fits (u'.stores.delta slot) ∧ Fits (u'.stores.delta slot + u.inFlight.delta slot)

/-- The writing loop puts what the validating loop computed. -/
theorem added_of_isProspective (hp : IsProspective u updates prospective) :
    Added u updates { u with stores := prospective.rows.foldl storeProspective u.stores } := by
  have hwrite := get?_foldl_storeProspective prospective.rows prospective.nodup u.stores
  -- each slot either got its prospective value or was not mentioned
  have hslot : ∀ slot, (∃ value, prospective.get? slot = some value ∧
      (prospective.rows.foldl storeProspective u.stores).get? slot =
        if value = 0 then none else some value) ∨
      prospective.get? slot = none ∧
        (prospective.rows.foldl storeProspective u.stores).get? slot = u.stores.get? slot := by
    intro slot
    cases hg : prospective.get? slot with
    | some value =>
      exact .inl ⟨value, rfl, (hwrite slot).1 value ((get?_eq_some_iff _ _ _).1 hg)⟩
    | none => exact .inr ⟨rfl, (hwrite slot).2 ((get?_eq_none_iff _ _).1 hg)⟩
  have hdelta : ∀ slot, (∃ value, prospective.get? slot = some value ∧
      Stores.delta (prospective.rows.foldl storeProspective u.stores) slot = value) ∨
      prospective.get? slot = none ∧
        Stores.delta (prospective.rows.foldl storeProspective u.stores) slot =
          u.stores.delta slot := by
    intro slot
    unfold Stores.delta
    rcases hslot slot with ⟨value, hv, hs⟩ | ⟨hn, hs⟩
    · refine .inl ⟨value, hv, ?_⟩
      rw [hs]
      split_ifs with hz <;> simp [hz]
    · exact .inr ⟨hn, by rw [hs]⟩
  refine ⟨rfl, fun slot => ?_, fun slot d hd => ?_, fun slot hlive hflight hsum => ?_⟩
  · rcases hdelta slot with ⟨value, hv, hs⟩ | ⟨hn, hs⟩
    · exact hs.trans (hp.1 slot value hv).1
    · rw [hp.2 slot hn, add_zero]
      exact hs
  · rcases hslot slot with ⟨value, hv, hs⟩ | ⟨hn, hs⟩
    · rw [show _ = _ from hs] at hd
      split_ifs at hd with hz
      rw [← some.inj hd]
      exact .inl hz
    · exact .inr (hs.symm.trans hd)
  · rcases hdelta slot with ⟨value, hv, hs⟩ | ⟨hn, hs⟩
    · obtain ⟨-, hf, hf'⟩ := hp.1 slot value hv
      rw [show Stores.delta _ slot = value from hs]
      exact ⟨hf hlive, hf' hflight⟩
    · rw [show Stores.delta _ slot = u.stores.delta slot from hs]
      exact ⟨hlive, hsum⟩

theorem addMany_of_error (h : (addMany u updates).2 ≠ none) : (addMany u updates).1 = u := by
  unfold addMany at h ⊢
  split_ifs with hempty hstate
  · rfl
  · rfl
  · rw [if_neg hempty, if_neg hstate] at h
    cases hp : updates.foldlM (addProspective u) ∅ with
    | error e => rfl
    | ok prospective => simp [hp] at h

theorem addMany_of_ok (h : (addMany u updates).2 = none) :
    Added u updates (addMany u updates).1 := by
  unfold addMany at h ⊢
  split_ifs with hempty hstate
  · subst hempty
    refine ⟨rfl, fun slot => ?_, fun _ _ hd => .inr hd, fun _ h₁ _ h₂ => ⟨h₁, h₂⟩⟩
    simp [requested]
  · rw [if_neg hempty, if_pos hstate] at h
    cases h
  · rw [if_neg hempty, if_neg hstate] at h
    cases hp : updates.foldlM (addProspective u) ∅ with
    | error e =>
      rw [hp] at h
      cases h
    | ok prospective =>
      have hstart : IsProspective u [] ∅ := by
        refine ⟨fun slot value hv => ?_, fun _ _ => rfl⟩
        rw [get?_empty] at hv
        cases hv
      exact added_of_isProspective (foldlM_addProspective hstart hp)

/-! ## The invariant -/

/-- The errors that mean that the updater lost track of a group. -/
def BatchUpdaterError.isInternal : BatchUpdaterError → Bool
  | .identityMissing _ => true
  | .identityMismatch _ => true
  | .inFlightMismatch _ _ => true
  | _ => false

/-- The part of the invariant about the updater alone. -/
structure UpdaterInv (u : BatchUpdater) : Prop where
  ids : IdsNonempty u
  stores_ne : ∀ slot d, u.stores.get? slot = some d → d ≠ 0
  inFlight_ne : ∀ slot d, u.inFlight.get? slot = some d → d ≠ 0
  identity : ∀ key, u.operationIDs.get? key ≠ none ↔
    ∃ slot d, u.inFlight.get? slot = some d ∧ keyOf slot = key
  fits : ∀ slot, Fits (u.stores.delta slot) ∧ Fits (u.inFlight.delta slot) ∧
    Fits (u.stores.delta slot + u.inFlight.delta slot)

/-- The invariant of the system: the operations of the running flush are groups in flight. -/
structure Inv (s : System) : Prop where
  updater : UpdaterInv s.updater
  nodup : ∀ run, s.flush = some run → (run.operations.map BatchUpdateOperation.key).Nodup
  operations : ∀ run, s.flush = some run → ∀ operation ∈ run.operations,
    IsOperation s.updater operation
  errors : ∀ e ∈ s.errors, e.isInternal = false

theorem UpdaterInv.inFlight_none (hu : UpdaterInv u) {slot : BatchUpdateType × ℤ}
    (h : u.operationIDs.get? (keyOf slot) = none) : u.inFlight.get? slot = none := by
  cases hd : u.inFlight.get? slot with
  | none => rfl
  | some d => exact absurd h ((hu.identity _).2 ⟨slot, d, hd, rfl⟩)

theorem fits_zero : Fits 0 := by
  unfold Fits minInt maxInt
  omega

theorem UpdaterInv.empty : UpdaterInv {} where
  ids := nofun
  stores_ne := nofun
  inFlight_ne := nofun
  identity := by
    intro key
    refine iff_of_false (fun h => h rfl) ?_
    rintro ⟨_, _, h, -⟩
    cases h
  fits := fun _ => ⟨fits_zero, fits_zero, fits_zero⟩

theorem Inv.empty : Inv {} where
  updater := UpdaterInv.empty
  nodup := nofun
  operations := nofun
  errors := nofun

/-- The invariant does not look at the state of the updater or at the drawn ids. -/
theorem UpdaterInv.of_eq (hu : UpdaterInv u) (hs : u'.stores = u.stores)
    (hf : u'.inFlight = u.inFlight) (ho : u'.operationIDs = u.operationIDs) : UpdaterInv u' := by
  obtain ⟨h₁, h₂, h₃, h₄, h₅⟩ := hu
  constructor
  · unfold IdsNonempty
    rw [ho]
    exact h₁
  · rw [hs]
    exact h₂
  · rw [hf]
    exact h₃
  · rw [ho, hf]
    exact h₄
  · rw [hs, hf]
    exact h₅

theorem IsOperation.of_eq (ho : IsOperation u operation) (hid : u'.operationIDs = u.operationIDs)
    (hf : u'.inFlight = u.inFlight) : IsOperation u' operation :=
  ⟨by rw [hid]; exact ho.id, by rw [hf]; exact ho.group⟩

theorem Inv.of_updater {s' : System} (hi : Inv s) (hu : UpdaterInv s'.updater)
    (hid : s'.updater.operationIDs = s.updater.operationIDs)
    (hinFlight : s'.updater.inFlight = s.updater.inFlight) (hflush : s'.flush = s.flush)
    (herr : ∀ e ∈ s'.errors, e ∈ s.errors ∨ e.isInternal = false) : Inv s' := by
  refine ⟨hu, ?_, ?_, ?_⟩
  · rw [hflush]
    exact hi.nodup
  · rw [hflush]
    exact fun run hr operation hmem => (hi.operations run hr operation hmem).of_eq hid hinFlight
  · intro e he
    rcases herr e he with hold | hnew
    · exact hi.errors e hold
    · exact hnew

theorem Inv.log (hi : Inv s) {e : BatchUpdaterError} (he : e.isInternal = false) :
    Inv (s.log (some e)) := by
  refine hi.of_updater hi.updater rfl rfl rfl fun e' he' => ?_
  obtain rfl | hold := mem_cons.1 he'
  · exact .inr he
  · exact .inl hold

/-! ## The steps -/

theorem addMany_error_isInternal {e : BatchUpdaterError} (h : (addMany u updates).2 = some e) :
    e.isInternal = false := by
  have hone : ∀ {p : Stores} {update : RawBatchUpdate} {e : BatchUpdaterError},
      addProspective u p update = .error e → e.isInternal = false := by
    intro p update e he
    unfold addProspective at he
    cases hk : kindOfCode update.kind with
    | none =>
      simp only [hk, Except.error.injEq] at he
      rw [← he]
      rfl
    | some kind =>
      simp only [hk] at he
      split_ifs at he with hid
      · cases he
        rfl
      · cases hlive : checkedAddInt ((p.get? (kind, update.id)).getD
            (u.stores.delta (kind, update.id))) update.delta with
        | none =>
          simp only [hlive, Except.error.injEq] at he
          rw [← he]
          rfl
        | some next =>
          simp only [hlive] at he
          cases hsum : checkedAddInt (u.inFlight.delta (kind, update.id)) next with
          | none =>
            simp only [hsum, Except.error.injEq] at he
            rw [← he]
            rfl
          | some total => simp [hsum] at he
  have hall : ∀ {p : Stores} {e : BatchUpdaterError},
      updates.foldlM (addProspective u) p = .error e → e.isInternal = false := by
    clear h
    induction updates with
    | nil =>
      intro p e he
      cases he
    | cons update updates ih =>
      intro p e he
      rw [foldlM_cons] at he
      cases hp : addProspective u p update with
      | error e' =>
        rw [hp] at he
        cases he
        exact hone hp
      | ok p' =>
        rw [hp] at he
        exact ih he
  unfold addMany at h
  split_ifs at h with hempty hstate
  · cases h
    rfl
  · cases hp : updates.foldlM (addProspective u) ∅ with
    | error e' =>
      rw [hp] at h
      cases h
      exact hall hp
    | ok prospective =>
      rw [hp] at h
      cases h

theorem UpdaterInv.of_added (hu : UpdaterInv u) (ha : Added u updates u') : UpdaterInv u' := by
  have hframe := ha.frame
  have hf : u'.inFlight = u.inFlight := by rw [hframe]
  have ho : u'.operationIDs = u.operationIDs := by rw [hframe]
  constructor
  · unfold IdsNonempty
    rw [ho]
    exact hu.ids
  · intro slot d hd
    rcases ha.nonzero slot d hd with hne | hold
    · exact hne
    · exact hu.stores_ne slot d hold
  · rw [hf]
    exact hu.inFlight_ne
  · rw [ho, hf]
    exact hu.identity
  · intro slot
    obtain ⟨h₁, h₂, h₃⟩ := hu.fits slot
    obtain ⟨h₁', h₃'⟩ := ha.fits slot h₁ h₂ h₃
    rw [hf]
    exact ⟨h₁', h₂, h₃'⟩

theorem inv_addMany (hi : Inv s) (updates : List RawBatchUpdate) :
    Inv ({ s with updater := (addMany s.updater updates).1 }.log (addMany s.updater updates).2) := by
  have herr : ∀ e, (addMany s.updater updates).2 = some e → e.isInternal = false :=
    fun e => addMany_error_isInternal
  cases h : (addMany s.updater updates).2 with
  | some e =>
    have hsame := addMany_of_error (show (addMany s.updater updates).2 ≠ none by simp [h])
    rw [hsame]
    refine hi.of_updater hi.updater rfl rfl rfl fun e' he' => ?_
    simp only [log, toList_some, singleton_append, mem_cons] at he'
    rcases he' with rfl | hold
    · exact .inr (herr e' h)
    · exact .inl hold
  | none =>
    have ha := addMany_of_ok h
    have hframe := ha.frame
    refine hi.of_updater (hi.updater.of_added ha) ?_ ?_ rfl fun e' he' => .inl he'
    · show (addMany s.updater updates).1.operationIDs = _
      rw [hframe]
    · show (addMany s.updater updates).1.inFlight = _
      rw [hframe]

theorem UpdaterInv.of_prepared (hu : UpdaterInv u) (hp : Prepared uuid (groupKeys u.stores) u u') :
    UpdaterInv u' := by
  -- a taken slot had nothing in flight
  have htaken : ∀ slot, Taken u (groupKeys u.stores) slot →
      u'.stores.get? slot = none ∧ u'.inFlight.get? slot = u.stores.get? slot := by
    intro slot ht
    obtain ⟨hs, hf⟩ := hp.taken slot ht
    rw [hu.inFlight_none ht.2, or_none] at hf
    exact ⟨hs, hf⟩
  constructor
  · exact hp.ids
  · intro slot d hd
    by_cases ht : Taken u (groupKeys u.stores) slot
    · rw [(htaken slot ht).1] at hd
      cases hd
    · rw [(hp.kept slot ht).1] at hd
      exact hu.stores_ne slot d hd
  · intro slot d hd
    by_cases ht : Taken u (groupKeys u.stores) slot
    · rw [(htaken slot ht).2] at hd
      exact hu.stores_ne slot d hd
    · rw [(hp.kept slot ht).2] at hd
      exact hu.inFlight_ne slot d hd
  · intro key
    cases hop : u.operationIDs.get? key with
    | some op =>
      refine iff_of_true (by simp [hp.known key op hop]) ?_
      obtain ⟨slot, d, hd, hk⟩ := (hu.identity key).1 (by simp [hop])
      refine ⟨slot, d, ?_, hk⟩
      have hnot : ¬Taken u (groupKeys u.stores) slot := by
        rintro ⟨-, hno⟩
        rw [hk, hop] at hno
        cases hno
      rw [(hp.kept slot hnot).2]
      exact hd
    | none =>
      by_cases hmem : key ∈ groupKeys u.stores
      · obtain ⟨n, -, -, hnew⟩ := hp.fresh key hmem hop
        refine iff_of_true (by simp [hnew]) ?_
        obtain ⟨slot, d, hd, hk⟩ := mem_groupKeys.1 hmem
        have ht : Taken u (groupKeys u.stores) slot := ⟨hk ▸ hmem, hk ▸ hop⟩
        exact ⟨slot, d, (htaken slot ht).2.trans hd, hk⟩
      · refine iff_of_false (by simp [hp.other key hmem, hop]) ?_
        rintro ⟨slot, d, hd, hk⟩
        rw [(hp.kept slot fun ht => hmem (hk ▸ ht.1)).2] at hd
        rw [hu.inFlight_none (hk ▸ hop)] at hd
        cases hd
  · intro slot
    obtain ⟨h₁, h₂, h₃⟩ := hu.fits slot
    unfold Stores.delta at h₁ h₂ h₃ ⊢
    by_cases ht : Taken u (groupKeys u.stores) slot
    · obtain ⟨hs, hf⟩ := htaken slot ht
      rw [hs, hf]
      simpa using ⟨fits_zero, h₁⟩
    · obtain ⟨hs, hf⟩ := hp.kept slot ht
      rw [hs, hf]
      exact ⟨h₁, h₂, h₃⟩

theorem beginFlush_spec (uuid : ℕ → String) (hu : UpdaterInv u) (hnew : u.state ≠ .new)
    (hstopped : u.state ≠ .stopped) :
    ∃ u' operations, beginFlush uuid u = (u', .ok operations) ∧
      Prepared uuid (groupKeys u.stores) u u' ∧ UpdaterInv u' ∧
      (operations.map BatchUpdateOperation.key) = groupKeys u'.inFlight ∧
      ∀ operation ∈ operations, IsOperation u' operation := by
  obtain ⟨u', hprep, hp⟩ := prepare_spec uuid hu.ids
  have hu' := hu.of_prepared hp
  have hids : ∀ key ∈ groupKeys u'.inFlight, u'.operationIDs.get? key ≠ none := fun key hmem =>
    (hu'.identity key).2 (mem_groupKeys.1 hmem)
  obtain ⟨operations, hmap, hkeys, hall⟩ :=
    mapM_batchOperation hu'.ids hids (forall₂_isGroup u'.inFlight)
  refine ⟨u', operations, ?_, hp, hu', hkeys, hall⟩
  unfold beginFlush
  cases hstate : u.state with
  | new => exact absurd hstate hnew
  | stopped => exact absurd hstate hstopped
  | running | stopping => simp only [hprep, hmap]

theorem beginFlush_of_new (uuid : ℕ → String) {u : BatchUpdater} (h : u.state = .new) :
    beginFlush uuid u = (u, .error .notRunning) := by
  unfold beginFlush
  rw [h]

theorem beginFlush_of_stopped (uuid : ℕ → String) {u : BatchUpdater} (h : u.state = .stopped) :
    beginFlush uuid u = (u, .ok []) := by
  unfold beginFlush
  rw [h]

theorem inv_beginFlush (uuid : ℕ → String) (hi : Inv s) (hnone : s.flush = none) :
    Inv (s.beginFlush uuid) := by
  unfold System.beginFlush
  by_cases hnew : s.updater.state = .new
  · rw [beginFlush_of_new uuid hnew]
    exact hi.log rfl
  by_cases hstopped : s.updater.state = .stopped
  · rw [beginFlush_of_stopped uuid hstopped]
    exact hi.of_updater hi.updater rfl rfl hnone.symm fun e he => .inl he
  obtain ⟨u', operations, hbegin, -, hu', hkeys, hall⟩ :=
    beginFlush_spec uuid hi.updater hnew hstopped
  rw [hbegin]
  dsimp only
  split_ifs with hempty
  · exact ⟨hu', nofun, nofun, hi.errors⟩
  · refine ⟨hu', ?_, ?_, hi.errors⟩
    · intro run hrun
      cases hrun
      rw [hkeys]
      exact nodup_groupKeys _
    · intro run hrun
      cases hrun
      exact hall

theorem UpdaterInv.of_finalized {key : GroupKey} (hu : UpdaterInv u) (hs : u'.stores = u.stores)
    (hf : ∀ slot, u'.inFlight.get? slot = if keyOf slot = key then none else u.inFlight.get? slot)
    (ho : u'.operationIDs = u.operationIDs.erase key) : UpdaterInv u' := by
  constructor
  · intro key' op hop
    rw [ho, get?_erase] at hop
    split_ifs at hop
    exact hu.ids key' op hop
  · rw [hs]
    exact hu.stores_ne
  · intro slot d hd
    rw [hf] at hd
    split_ifs at hd
    exact hu.inFlight_ne slot d hd
  · intro key'
    rw [ho, get?_erase]
    split_ifs with hk
    · refine iff_of_false (fun h => h rfl) ?_
      rintro ⟨slot, d, hd, hkey⟩
      rw [hf, if_pos (hkey.trans hk)] at hd
      cases hd
    · rw [hu.identity]
      constructor
      · rintro ⟨slot, d, hd, rfl⟩
        exact ⟨slot, d, by rw [hf, if_neg hk]; exact hd, rfl⟩
      · rintro ⟨slot, d, hd, rfl⟩
        rw [hf, if_neg hk] at hd
        exact ⟨slot, d, hd, rfl⟩
  · intro slot
    obtain ⟨h₁, h₂, h₃⟩ := hu.fits slot
    unfold Stores.delta at h₁ h₂ h₃ ⊢
    rw [hs, hf]
    split_ifs
    · simpa using ⟨h₁, fits_zero, h₁⟩
    · exact ⟨h₁, h₂, h₃⟩

theorem IsOperation.of_finalized {key : GroupKey} (hop : IsOperation u operation)
    (hne : operation.key ≠ key)
    (hf : ∀ slot, u'.inFlight.get? slot = if keyOf slot = key then none else u.inFlight.get? slot)
    (ho : u'.operationIDs = u.operationIDs.erase key) : IsOperation u' operation := by
  constructor
  · rw [ho, Table.get?_erase, if_neg hne]
    exact hop.id
  · refine hop.group.congr fun slot hk => ?_
    rw [hf, if_neg (hk ▸ hne)]

theorem apply_spec {run : FlushRun} {rest : List BatchUpdateOperation} (hi : Inv s)
    (hflush : s.flush = some run) (hops : run.operations = operation :: rest)
    (result : Option String) :
    ∃ u', (s.apply run operation rest result) =
        { updater := u'
          flush := some
            { operations := rest
              confirmed := if result.isSome then run.confirmed
                else run.confirmed ++ [operation.operationID] }
          errors := (result.map BatchUpdaterError.applier).toList ++ s.errors } ∧
      (result.isSome → u' = s.updater) ∧
      (result = none → u' = { s.updater with
          inFlight := u'.inFlight, operationIDs := s.updater.operationIDs.erase operation.key } ∧
        ∀ slot, u'.inFlight.get? slot =
          if keyOf slot = operation.key then none else s.updater.inFlight.get? slot) := by
  have hop := hi.operations run hflush operation (by rw [hops]; exact mem_cons_self)
  unfold apply
  rw [finalizeGroup_of_isOperation hop]
  cases result with
  | some text =>
    refine ⟨s.updater, ?_, fun _ => rfl, nofun⟩
    simp [log]
  | none =>
    refine ⟨{ s.updater with
      inFlight := operation.updates.foldl (fun stores update => stores.erase update.slot)
        s.updater.inFlight
      operationIDs := s.updater.operationIDs.erase operation.key }, ?_, nofun,
      fun _ => ⟨rfl, hop.get?_erase⟩⟩
    simp [log]

theorem inv_apply {run : FlushRun} {rest : List BatchUpdateOperation} (hi : Inv s)
    (hflush : s.flush = some run) (hops : run.operations = operation :: rest)
    (result : Option String) : Inv (s.apply run operation rest result) := by
  obtain ⟨u', heq, hfailed, hdone⟩ := apply_spec hi hflush hops result
  have hnodup := hi.nodup run hflush
  have hall := hi.operations run hflush
  rw [hops] at hnodup hall
  rw [map_cons, nodup_cons] at hnodup
  rw [heq]
  cases result with
  | some text =>
    rw [hfailed rfl]
    refine ⟨hi.updater, ?_, ?_, ?_⟩
    · intro run' hrun'
      cases hrun'
      exact hnodup.2
    · intro run' hrun' op hmem
      cases hrun'
      exact hall op (mem_cons_of_mem _ hmem)
    · intro e he
      simp only [map_some, toList_some, singleton_append, mem_cons] at he
      rcases he with rfl | hold
      · rfl
      · exact hi.errors e hold
  | none =>
    obtain ⟨hframe, hf⟩ := hdone rfl
    have hs : u'.stores = s.updater.stores := by rw [hframe]
    have ho : u'.operationIDs = s.updater.operationIDs.erase operation.key := by rw [hframe]
    refine ⟨hi.updater.of_finalized hs hf ho, ?_, ?_, hi.errors⟩
    · intro run' hrun'
      cases hrun'
      exact hnodup.2
    · intro run' hrun' op hmem
      cases hrun'
      refine (hall op (mem_cons_of_mem _ hmem)).of_finalized ?_ hf ho
      intro he
      exact hnodup.1 (he ▸ mem_map.2 ⟨op, hmem, rfl⟩)

/-- The confirmed operations whose ledger rows the running flush has still to delete. -/
def System.confirmed (s : System) : List String :=
  match s.flush with
  | some run => run.confirmed
  | none => []

/-- What a step of the system can do to the updater. -/
inductive Change (uuid : ℕ → String) (s : System) (event : Event) (s' : System) : Prop
  | none (hstores : s'.updater.stores = s.updater.stores)
      (hinFlight : s'.updater.inFlight = s.updater.inFlight)
      (hids : s'.updater.operationIDs = s.updater.operationIDs)
      (hdrawn : s'.updater.drawn = s.updater.drawn) (hconfirmed : s'.confirmed ⊆ s.confirmed)
      (hevent : ∀ updates, event = .addMany updates → (addMany s.updater updates).2 ≠ Option.none)
  | added (updates : List RawBatchUpdate) (hevent : event = .addMany updates)
      (hok : (addMany s.updater updates).2 = Option.none)
      (hadded : Added s.updater updates s'.updater) (hflush : s'.flush = s.flush)
  | prepared (hevent : event = .flush)
      (hprepared : Prepared uuid (groupKeys s.updater.stores) s.updater s'.updater)
      (hconfirmed : s'.confirmed = [])
  | confirmed (run : FlushRun) (operation : BatchUpdateOperation)
      (rest : List BatchUpdateOperation) (hevent : event = .apply Option.none)
      (hflush : s.flush = some run) (hops : run.operations = operation :: rest)
      (hstores : s'.updater.stores = s.updater.stores)
      (hdrawn : s'.updater.drawn = s.updater.drawn)
      (hids : s'.updater.operationIDs = s.updater.operationIDs.erase operation.key)
      (hinFlight : ∀ slot, s'.updater.inFlight.get? slot =
        if keyOf slot = operation.key then Option.none else s.updater.inFlight.get? slot)
      (hconfirmed : s'.confirmed = s.confirmed ++ [operation.operationID])

theorem system_step_spec {s' : System} {event : Event} (hi : Inv s)
    (h : s.step uuid event = some s') : Inv s' ∧ Change uuid s event s' := by
  cases event with
  | start =>
    rw [step] at h
    split_ifs at h
    · cases h
      exact ⟨hi.log rfl, .none rfl rfl rfl rfl (refl _) nofun⟩
    · cases h
      exact ⟨hi.of_updater (hi.updater.of_eq rfl rfl rfl) rfl rfl rfl fun e he => .inl he,
        .none rfl rfl rfl rfl (refl _) nofun⟩
  | addMany updates =>
    cases h
    refine ⟨inv_addMany hi updates, ?_⟩
    cases hres : (addMany s.updater updates).2 with
    | none => exact .added updates rfl hres (addMany_of_ok hres) rfl
    | some e =>
      have herr : (addMany s.updater updates).2 ≠ Option.none := by simp [hres]
      have hsame := addMany_of_error herr
      exact .none (congrArg BatchUpdater.stores hsame) (congrArg BatchUpdater.inFlight hsame)
        (congrArg BatchUpdater.operationIDs hsame) (congrArg BatchUpdater.drawn hsame)
        (refl _) fun updates' he => by cases he; exact herr
  | flush =>
    rw [step] at h
    split_ifs at h with hbusy
    cases h
    have hnone : s.flush = none := by simpa using hbusy
    refine ⟨inv_beginFlush uuid hi hnone, ?_⟩
    unfold System.beginFlush
    by_cases hnew : s.updater.state = .new
    · rw [beginFlush_of_new uuid hnew]
      exact .none rfl rfl rfl rfl (refl _) nofun
    by_cases hstopped : s.updater.state = .stopped
    · rw [beginFlush_of_stopped uuid hstopped]
      exact .none rfl rfl rfl rfl (nil_subset _) nofun
    obtain ⟨u', operations, hbegin, hp, -⟩ := beginFlush_spec uuid hi.updater hnew hstopped
    rw [hbegin]
    refine .prepared rfl hp ?_
    dsimp only
    split_ifs <;> rfl
  | apply result =>
    rw [step] at h
    cases hflush : s.flush with
    | none =>
      rw [hflush] at h
      cases h
    | some run =>
      rw [hflush] at h
      dsimp only at h
      cases hops : run.operations with
      | nil =>
        rw [hops] at h
        cases h
      | cons operation rest =>
        rw [hops] at h
        cases h
        refine ⟨inv_apply hi hflush hops result, ?_⟩
        obtain ⟨u', heq, hfailed, hdone⟩ := apply_spec hi hflush hops result
        rw [heq]
        cases result with
        | some text =>
          rw [hfailed rfl]
          refine .none rfl rfl rfl rfl ?_ nofun
          unfold confirmed
          rw [hflush]
          exact refl _
        | none =>
          obtain ⟨hframe, hf⟩ := hdone rfl
          refine .confirmed run operation rest rfl hflush hops ?_ ?_ ?_ hf ?_
          · show u'.stores = _
            rw [hframe]
          · show u'.drawn = _
            rw [hframe]
          · show u'.operationIDs = _
            rw [hframe]
          · unfold confirmed
            rw [hflush]
            rfl
  | cleanup succeeded =>
    rw [step] at h
    split at h
    · rename_i hflush
      cases h
      refine ⟨⟨hi.updater, ?_, ?_, hi.errors⟩, .none rfl rfl rfl rfl ?_ nofun⟩
      · intro run hrun
        cases hrun
        exact nodup_nil
      · intro run hrun operation hmem
        cases hrun
        cases hmem
      · unfold confirmed
        rw [hflush]
        split_ifs
        · exact drop_subset _ _
        · exact nil_subset _
    · cases h
  | release =>
    rw [step] at h
    split_ifs at h
    cases h
    exact ⟨⟨hi.updater, nofun, nofun, hi.errors⟩, .none rfl rfl rfl rfl (nil_subset _) nofun⟩
  | stop =>
    rw [step] at h
    split at h
    · cases h
      exact ⟨hi.log rfl, .none rfl rfl rfl rfl (refl _) nofun⟩
    · cases h
      exact ⟨hi.of_updater (hi.updater.of_eq rfl rfl rfl) rfl rfl rfl fun e he => .inl he,
        .none rfl rfl rfl rfl (refl _) nofun⟩
    · cases h
      exact ⟨hi, .none rfl rfl rfl rfl (refl _) nofun⟩
  | stopped =>
    rw [step] at h
    split_ifs at h
    cases h
    exact ⟨hi.of_updater (hi.updater.of_eq rfl rfl rfl) rfl rfl rfl fun e he => .inl he,
      .none rfl rfl rfl rfl (refl _) nofun⟩

theorem inv_of_run {l : List Event} (h : Run.run (step uuid) {} l = some s) : Inv s :=
  Run.invariant (fun _ _ _ hi hs => (system_step_spec hi hs).1) Inv.empty h

end BeeApi.Batch
