import BeeApi.Sessions.SessionCache

/-!
# Rules for the store of sessions

An active snapshot is cached for what is left of a deadline that was set before the database was read;
an entry that denies gets a time of its own when it is written.  So an entry that denies, written after
the row has been revoked, outlives every active snapshot taken before it
(`bound_le_denyExpiration`).  Each statement has a rule for the programs that begin with it.
-/

namespace BeeApi.Sessions

open Interleaving Transaction Option SessionOp

/-- No snapshot of a session that is taken before `clock` is cached beyond this millisecond. -/
def cacheBound (cacheTTL clock expiresAt : ℤ) : ℤ :=
  unixMilli (min (clock + cacheTTL * second) (expiresAt * second))

theorem unixMilli_mono {t t' : ℤ} (h : t ≤ t') : unixMilli t ≤ unixMilli t' :=
  Int.ediv_le_ediv (by decide) h

theorem cacheBound_mono {cacheTTL clock clock' expiresAt : ℤ} (h : clock ≤ clock') :
    cacheBound cacheTTL clock expiresAt ≤ cacheBound cacheTTL clock' expiresAt :=
  unixMilli_mono (min_le_min_right _ (Int.add_le_add_right h _))

/-- An entry that denies outlives the active snapshots. -/
theorem bound_le_denyExpiration {cacheTTL now clock : ℤ} {entry : UserSessionCacheEntry}
    (h : now ≤ clock) :
    cacheBound cacheTTL clock entry.expiresAt ≤
      unixMilli clock + denyExpiration cacheTTL entry now + 1 := by
  unfold cacheBound denyExpiration unixMilli millisecond second
  dsimp only
  split_ifs <;> omega

/-! ## The invariant -/

def SessionStore.Revoked (store : SessionStore) : Prop :=
  ∃ r, store.row = some r ∧ r.status = .revoked

structure StoreOk (store : SessionStore) : Prop where
  version : ∀ r, store.row = some r → 0 < r.version
  cached : ∀ entry expires, store.cache = some (entry, expires) →
    ∃ r, store.row = some r ∧ r.version = entry.version
  revoked : store.denied = true → store.Revoked
  denies : store.denied = true → ∀ entry expires, store.cache = some (entry, expires) →
    entry.status ≠ .active

/-- An active snapshot may be cached up to this millisecond. -/
def Pending (cacheTTL : ℤ) (store : SessionStore) (bound : ℤ) : Prop :=
  ∃ r, store.row = some r ∧ bound ≤ cacheBound cacheTTL store.clock r.expiresAt

/-- Up to this millisecond the session is denied, once it has been denied after its revocation. -/
def Fenced (store : SessionStore) (bound : ℤ) : Prop :=
  store.denied = true → bound ≤ unixMilli store.clock ∨
    ∃ entry expires, store.cache = some (entry, expires) ∧ bound ≤ expires + 1

structure Later (cacheTTL : ℤ) (store store' : SessionStore) : Prop where
  clock : store.clock ≤ store'.clock
  row : ∀ r, store.row = some r → ∃ r', store'.row = some r' ∧ r'.version = r.version ∧
    r'.expiresAt = r.expiresAt ∧ (r.status = .revoked → r'.status = .revoked)
  denied : store.denied = true → store'.denied = true
  fenced : ∀ bound, Pending cacheTTL store bound → Fenced store bound → Fenced store' bound

section Later

variable {cacheTTL : ℤ} {store store' store'' : SessionStore}

theorem Later.pending (h : Later cacheTTL store store') {bound : ℤ}
    (hbound : Pending cacheTTL store bound) : Pending cacheTTL store' bound := by
  obtain ⟨r, hr, hle⟩ := hbound
  obtain ⟨r', hr', -, hexpires, -⟩ := h.row r hr
  refine ⟨r', hr', hle.trans ?_⟩
  rw [hexpires]
  exact cacheBound_mono h.clock

theorem Later.revoked (h : Later cacheTTL store store') (hr : store.Revoked) : store'.Revoked := by
  obtain ⟨r, hr, hstatus⟩ := hr
  obtain ⟨r', hr', -, -, hstatus'⟩ := h.row r hr
  exact ⟨r', hr', hstatus' hstatus⟩

theorem Later.refl (store : SessionStore) : Later cacheTTL store store :=
  ⟨le_refl _, fun r hr => ⟨r, hr, rfl, rfl, id⟩, id, fun _ _ h => h⟩

theorem Later.trans (h : Later cacheTTL store store') (h' : Later cacheTTL store' store'') :
    Later cacheTTL store store'' where
  clock := h.clock.trans h'.clock
  row r hr := by
    obtain ⟨r₁, hr₁, hversion₁, hexpires₁, hstatus₁⟩ := h.row r hr
    obtain ⟨r₂, hr₂, hversion₂, hexpires₂, hstatus₂⟩ := h'.row r₁ hr₁
    exact ⟨r₂, hr₂, hversion₂.trans hversion₁, hexpires₂.trans hexpires₁, hstatus₂ ∘ hstatus₁⟩
  denied := h'.denied ∘ h.denied
  fenced bound hbound hfenced :=
    h'.fenced bound (h.pending hbound) (h.fenced bound hbound hfenced)

theorem Later.of_row (hrow : ∀ r, store.row = some r → ∃ r', store'.row = some r' ∧
      r'.version = r.version ∧ r'.expiresAt = r.expiresAt ∧
      (r.status = .revoked → r'.status = .revoked))
    (hclock : store'.clock = store.clock) (hcache : store'.cache = store.cache)
    (hdenied : store'.denied = store.denied) : Later cacheTTL store store' := by
  refine ⟨hclock.ge, hrow, fun h => hdenied.trans h, fun bound _ hfenced => ?_⟩
  unfold Fenced at hfenced ⊢
  rwa [hclock, hcache, hdenied]

theorem map_spec {f : UserSession → UserSession} (h : StoreOk store)
    (hversion : ∀ r, (f r).version = r.version) (hexpires : ∀ r, (f r).expiresAt = r.expiresAt)
    (hstatus : ∀ r, r.status = .revoked → (f r).status = .revoked) :
    StoreOk { store with row := store.row.map f } ∧
      Later cacheTTL store { store with row := store.row.map f } := by
  have hmap : ∀ r, store.row = some r → store.row.map f = some (f r) := by
    intro r hr
    rw [hr]
    rfl
  constructor
  · refine ⟨fun r' hr' => ?_, fun entry expires hc => ?_, fun hd => ?_, h.denies⟩
    · obtain ⟨r, hr, rfl⟩ := map_eq_some_iff.1 hr'
      rw [hversion]
      exact h.version r hr
    · obtain ⟨r, hr, hsame⟩ := h.cached entry expires hc
      exact ⟨f r, hmap r hr, (hversion r).trans hsame⟩
    · obtain ⟨r, hr, hrevoked⟩ := h.revoked hd
      exact ⟨f r, hmap r hr, hstatus r hrevoked⟩
  · refine Later.of_row (fun r hr => ?_) rfl rfl rfl
    exact ⟨f r, hmap r hr, hversion r, hexpires r, hstatus r⟩

end Later

section Statements

variable {cacheTTL : ℤ} {store : SessionStore}

theorem clock_le (store : SessionStore) (time : ℕ) : store.clock ≤ store.clock + (time : ℤ) :=
  Int.le_add_of_nonneg_right (Int.natCast_nonneg time)

theorem rely : Rely (sessionMachine cacheTTL) StoreOk (Later cacheTTL) where
  refl := Later.refl
  trans := Later.trans
  env store time _ _ := by
    have hclock := clock_le store time
    refine ⟨hclock, fun r hr => ⟨r, hr, rfl, rfl, id⟩, id, fun bound _ hfenced hd => ?_⟩
    obtain hle | hcached := hfenced hd
    · exact .inl (hle.trans (unixMilli_mono hclock))
    · exact .inr hcached

theorem storeOk_env (store : SessionStore) (time : ℕ) (h : StoreOk store) :
    StoreOk ((sessionMachine cacheTTL).env store time) :=
  ⟨h.version, h.cached, h.revoked, h.denies⟩

end Statements

/-! ## The script -/

def Snapshot (store : SessionStore) (version expiresAt : ℤ) : Prop :=
  ∃ r, store.row = some r ∧ r.version = version ∧ r.expiresAt = expiresAt

theorem Later.snapshot {cacheTTL : ℤ} {store store' : SessionStore}
    (h : Later cacheTTL store store') {version expiresAt : ℤ}
    (hs : Snapshot store version expiresAt) : Snapshot store' version expiresAt := by
  obtain ⟨r, hr, hversion, hexpires⟩ := hs
  obtain ⟨r', hr', hversion', hexpires', -⟩ := h.row r hr
  exact ⟨r', hr', hversion'.trans hversion, hexpires'.trans hexpires⟩

section Script

variable {cacheTTL : ℤ} {store : SessionStore} {entry : UserSessionCacheEntry}

theorem live_eq_some_iff {current : UserSessionCacheEntry} :
    store.live = some current ↔
      ∃ expires, store.cache = some (current, expires) ∧ unixMilli store.clock ≤ expires := by
  unfold SessionStore.live
  cases store.cache with
  | none => simp
  | some e =>
    obtain ⟨entry, expires⟩ := e
    dsimp only
    split_ifs with halive
    · simp only [some.injEq, Prod.mk.injEq]
      constructor
      · rintro rfl
        exact ⟨expires, ⟨rfl, rfl⟩, halive⟩
      · rintro ⟨_, ⟨rfl, rfl⟩, -⟩
        rfl
    · simp only [some.injEq, Prod.mk.injEq, false_iff, not_exists, not_and]
      rintro _ ⟨rfl, rfl⟩
      exact halive

section
variable (h : StoreOk store) (hs : Snapshot store entry.version entry.expiresAt) (hdenies : entry.status ≠ .active)
include h hs hdenies

theorem writes_of_denies : store.writes entry = true := by
  obtain ⟨r, hr, hversion, -⟩ := hs
  have hpos := h.version r hr
  unfold SessionStore.writes
  cases hlive : store.live with
  | none =>
    refine decide_eq_true ?_
    omega
  | some current =>
    obtain ⟨expires, hcache, -⟩ := live_eq_some_iff.1 hlive
    obtain ⟨r', hr', hsame⟩ := h.cached current expires hcache
    cases hr.symm.trans hr'
    have hle : current.version ≤ entry.version := (hsame.symm.trans hversion).le
    simp [hdenies, hle]

theorem eval_denies {now : ℤ} (hnow : now ≤ store.clock) :
    StoreOk (store.eval entry (denyExpiration cacheTTL entry now)).1 ∧
      Later cacheTTL store (store.eval entry (denyExpiration cacheTTL entry now)).1 ∧
      (store.Revoked → (store.eval entry (denyExpiration cacheTTL entry now)).1.denied = true) := by
  have hwrites := writes_of_denies h hs hdenies
  obtain ⟨r, hr, hversion, hexpires⟩ := hs
  unfold SessionStore.eval
  rw [hwrites, Bool.not_true, if_neg Bool.false_ne_true, if_neg hdenies]
  have hrevoked : store.row.any (·.status = .revoked) = true ↔ store.Revoked := by
    simp only [any_eq_true, decide_eq_true_eq]
    exact Iff.rfl
  refine ⟨⟨h.version, ?_, ?_, ?_⟩, ⟨le_refl _, fun r hr => ⟨r, hr, rfl, rfl, id⟩, ?_, ?_⟩, ?_⟩
  · rintro _ _ ⟨⟩
    exact ⟨r, hr, hversion⟩
  · intro hd
    obtain hd | hd := Bool.or_eq_true_iff.1 hd
    · exact h.revoked hd
    · exact hrevoked.1 hd
  · rintro - _ _ ⟨⟩
    exact hdenies
  · intro hd
    exact Bool.or_eq_true_iff.2 (.inl hd)
  · rintro bound ⟨r', hr', hbound⟩ - -
    cases hr.symm.trans hr'
    rw [hexpires] at hbound
    exact .inr ⟨entry, _, rfl, hbound.trans (bound_le_denyExpiration hnow)⟩
  · intro hr
    exact Bool.or_eq_true_iff.2 (.inr (hrevoked.2 hr))

end

theorem rejects_active (h : StoreOk store) (hd : store.denied = true)
    {current : UserSessionCacheEntry} {expires : ℤ} (hcache : store.cache = some (current, expires))
    (halive : unixMilli store.clock ≤ expires) (hactive : entry.status = .active) :
    store.writes entry = false := by
  have hlive : store.live = some current := live_eq_some_iff.2 ⟨expires, hcache, halive⟩
  have hdenies := h.denies hd current expires hcache
  unfold SessionStore.writes
  rw [hlive]
  cases hstatus : current.status with
  | active => exact absurd hstatus hdenies
  | revoking | revoked => simp [hactive, hstatus]

theorem eval_active (h : StoreOk store) (hs : Snapshot store entry.version entry.expiresAt)
    (hactive : entry.status = .active) {bound : ℤ} (hfenced : Fenced store bound) :
    StoreOk (store.eval entry bound).1 ∧ Later cacheTTL store (store.eval entry bound).1 := by
  unfold SessionStore.eval
  split_ifs with hwrites hover
  · exact ⟨h, Later.refl store⟩
  · -- The key is deleted.
    refine ⟨⟨h.version, by simp, h.revoked, by simp⟩,
      le_refl _, fun r hr => ⟨r, hr, rfl, rfl, id⟩, id, fun bound' hbound' hfenced' hd => ?_⟩
    obtain hle | ⟨current, expires, hcache, hle⟩ := hfenced' hd
    · exact .inl hle
    · refine .inl (not_lt.1 fun hlt => hwrites ?_)
      rw [rejects_active h hd hcache (by dsimp only at hlt; omega) hactive]
      rfl
  · -- The snapshot is cached, so nothing has denied the session.
    have hnot : ¬ store.denied = true := by
      intro hd
      obtain hle | ⟨current, expires, hcache, hle⟩ := hfenced hd
      · exact hover hle
      · refine hwrites ?_
        rw [rejects_active h hd hcache (by omega) hactive]
        rfl
    obtain ⟨r, hr, hversion, -⟩ := hs
    refine ⟨⟨h.version, ?_, h.revoked, fun hd => absurd hd hnot⟩,
      le_refl _, fun r hr => ⟨r, hr, rfl, rfl, id⟩, id, fun _ _ _ hd => absurd hd hnot⟩
    rintro _ _ ⟨⟩
    exact ⟨r, hr, hversion⟩

end Script

/-! ## Rules for the statements -/

abbrev Keeps {β : Type} (cacheTTL : ℤ) (Q : β → SessionStore → Prop) (p : SessionProg β)
    (store : SessionStore) : Prop :=
  Guarantees (sessionMachine cacheTTL) StoreOk (Later cacheTTL) Q p store

section Rules

variable {β : Type} {cacheTTL : ℤ} {Q : β → SessionStore → Prop} {store : SessionStore}

theorem keeps_pure {b : β} (h : ∀ s, Later cacheTTL store s → StoreOk s → Q b s) :
    Keeps cacheTTL Q (pure b) store :=
  h

theorem keeps_now {f : ℤ → SessionProg β}
    (h : ∀ s, Later cacheTTL store s → StoreOk s → Keeps cacheTTL Q (f s.clock) s) :
    Keeps cacheTTL Q (SessionProg.now >>= f) store :=
  fun s _ hs hi => ⟨hi, Later.refl s, h s hs hi⟩

theorem keeps_hGetAll {f : Option UserSessionCacheEntry → SessionProg β}
    (h : ∀ s, Later cacheTTL store s → StoreOk s → Keeps cacheTTL Q (f s.live) s) :
    Keeps cacheTTL Q (SessionProg.hGetAll >>= f) store :=
  fun s _ hs hi => ⟨hi, Later.refl s, h s hs hi⟩

theorem keeps_first {f : Except String (Option UserSession) → SessionProg β}
    (herror : ∀ e s, Later cacheTTL store s → StoreOk s → Keeps cacheTTL Q (f (.error e)) s)
    (hok : ∀ s, Later cacheTTL store s → StoreOk s → Keeps cacheTTL Q (f (.ok s.row)) s) :
    Keeps cacheTTL Q (SessionProg.first >>= f) store := by
  intro s o hs hi
  exact rely.withOutcome o hi ⟨hi, Later.refl s⟩ (fun e s₁ hs₁ => herror e s₁ (hs.trans hs₁))
    (hok s hs hi)

theorem keeps_count {selects : UserSession → Bool} {f : Except String ℕ → SessionProg β}
    (herror : ∀ e s, Later cacheTTL store s → StoreOk s → Keeps cacheTTL Q (f (.error e)) s)
    (hok : ∀ s, Later cacheTTL store s → StoreOk s →
      Keeps cacheTTL Q (f (.ok (if s.row.any selects then 1 else 0))) s) :
    Keeps cacheTTL Q (SessionProg.count selects >>= f) store := by
  intro s o hs hi
  exact rely.withOutcome o hi ⟨hi, Later.refl s⟩ (fun e s₁ hs₁ => herror e s₁ (hs.trans hs₁))
    (hok s hs hi)

theorem rotate_spec (h : StoreOk store) (session : UserSession) (presentedHash nextHash : String)
    (now graceSeconds : ℤ) :
    StoreOk { store with
        row := rotateUpdate store.row session presentedHash nextHash now graceSeconds } ∧
      Later cacheTTL store { store with
        row := rotateUpdate store.row session presentedHash nextHash now graceSeconds } := by
  refine map_spec h (fun r => ?_) (fun r => ?_) (fun r hr => ?_)
  · split_ifs <;> rfl
  · split_ifs <;> rfl
  · split_ifs <;> exact hr

variable {session : UserSession} {f : Except String Bool → SessionProg β}

theorem keeps_rotate {presentedHash nextHash : String} {now graceSeconds : ℤ}
    (herror : ∀ e s, Later cacheTTL store s → StoreOk s → Keeps cacheTTL Q (f (.error e)) s)
    (hlost : ∀ s, Later cacheTTL store s → StoreOk s → Keeps cacheTTL Q (f (.ok false)) s)
    (hok : ∀ s, Later cacheTTL store s → StoreOk s → ¬ s.denied = true →
      Keeps cacheTTL Q (f (.ok true)) s) :
    Keeps cacheTTL Q (SessionProg.rotate session presentedHash nextHash now graceSeconds >>= f)
      store := by
  intro s o hs hi
  have hspec : StoreOk _ ∧ Later cacheTTL s _ :=
    rotate_spec hi session presentedHash nextHash now graceSeconds
  refine rely.withOutcome o hi hspec (fun e s₁ hs₁ => herror e s₁ (hs.trans hs₁)) ?_
  cases haffects : rotateAffects s.row presentedHash now with
  | false => exact hlost _ (hs.trans hspec.2) hspec.1
  | true =>
    refine hok _ (hs.trans hspec.2) hspec.1 fun hd => ?_
    obtain ⟨r, hr, hrevoked⟩ := hi.revoked hd
    unfold rotateAffects UserSession.activeAt at haffects
    simp [hr, hrevoked] at haffects

theorem revoke_spec (h : StoreOk store) (selects : UserSession → Bool) (now : ℤ) (reason : String) :
    StoreOk { store with row := revokeWhere store.row selects now reason } ∧
      Later cacheTTL store { store with row := revokeWhere store.row selects now reason } := by
  refine map_spec h (fun r => ?_) (fun r => ?_) (fun r hr => ?_)
  · split_ifs <;> rfl
  · split_ifs <;> rfl
  · split_ifs
    · rfl
    · exact hr

theorem keeps_revoke {selects : UserSession → Bool} {now : ℤ} {reason : String}
    (herror : ∀ e s, Later cacheTTL store s → StoreOk s → Keeps cacheTTL Q (f (.error e)) s)
    (hnone : ∀ s, Later cacheTTL store s → StoreOk s → Keeps cacheTTL Q (f (.ok false)) s)
    (hok : ∀ s, Later cacheTTL store s → StoreOk s → s.Revoked →
      Keeps cacheTTL Q (f (.ok true)) s) :
    Keeps cacheTTL Q (SessionProg.revoke selects now reason >>= f) store := by
  intro s o hs hi
  have hspec : StoreOk _ ∧ Later cacheTTL s _ := revoke_spec hi selects now reason
  refine rely.withOutcome o hi hspec (fun e s₁ hs₁ => herror e s₁ (hs.trans hs₁)) ?_
  cases hany : s.row.any selects with
  | false => exact hnone _ (hs.trans hspec.2) hspec.1
  | true =>
    refine hok _ (hs.trans hspec.2) hspec.1 ?_
    obtain ⟨r, hr, hselects⟩ := (any_eq_true _ _).1 hany
    refine ⟨revokeColumns now reason r, ?_, rfl⟩
    rw [revokeWhere, hr, map_some, if_pos hselects]

theorem create_spec (h : StoreOk store) (hrow : store.row = none) (hversion : 0 < session.version) :
    StoreOk { store with row := some session } ∧
      Later cacheTTL store { store with row := some session } ∧ ¬ store.denied = true := by
  have hnot : ¬ store.denied = true := by
    intro hd
    obtain ⟨r, hr, -⟩ := h.revoked hd
    rw [hrow] at hr
    cases hr
  refine ⟨⟨?_, ?_, fun hd => absurd hd hnot, fun hd => absurd hd hnot⟩,
    Later.of_row (fun r hr => ?_) rfl rfl rfl, hnot⟩
  · rintro r ⟨⟩
    exact hversion
  · intro entry expires hc
    obtain ⟨r, hr, -⟩ := h.cached entry expires hc
    rw [hrow] at hr
    cases hr
  · rw [hrow] at hr
    cases hr

theorem keeps_create (hversion : 0 < session.version)
    (herror : ∀ e s, Later cacheTTL store s → StoreOk s → Keeps cacheTTL Q (f (.error e)) s)
    (hok : ∀ s, Later cacheTTL store s → StoreOk s → s.row = some session → ¬ s.denied = true →
      Keeps cacheTTL Q (f (.ok true)) s) :
    Keeps cacheTTL Q (SessionProg.create session >>= f) store := by
  intro s o hs hi
  cases hrow : s.row with
  | some r =>
    have hexec : s.exec o (create session) = (s, .error "duplicate key") := by
      simp only [SessionStore.exec, hrow, isSome_some, if_pos, withOutcome]
      rfl
    change StoreOk (s.exec o (create session)).1 ∧
      Later cacheTTL s (s.exec o (create session)).1 ∧
      Keeps cacheTTL Q (f (s.exec o (create session)).2)
        (s.exec o (create session)).1
    rw [hexec]
    exact ⟨hi, Later.refl s, herror _ s hs hi⟩
  | none =>
    obtain ⟨hi', hs', hnot⟩ : StoreOk _ ∧ Later cacheTTL s _ ∧ _ := create_spec hi hrow hversion
    have hexec : s.exec o (create session) =
        withOutcome o s (.ok ({ s with row := some session }, true)) := by
      simp only [SessionStore.exec, hrow, isSome_none, Bool.false_eq_true, if_neg,
        not_false_eq_true]
      rfl
    change StoreOk (s.exec o (create session)).1 ∧
      Later cacheTTL s (s.exec o (create session)).1 ∧
      Keeps cacheTTL Q (f (s.exec o (create session)).2)
        (s.exec o (create session)).1
    rw [hexec]
    exact rely.withOutcome o hi ⟨hi', hs'⟩ (fun e s₁ hs₁ => herror e s₁ (hs.trans hs₁))
      (hok _ (hs.trans hs') hi' rfl hnot)

end Rules

end BeeApi.Sessions
