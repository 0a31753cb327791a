import BeeApi.Sessions.SessionRules

/-!
# A revoked session is not accepted again

Each function of `user_session_runtime.go` keeps the store in order, whatever runs beside it.  Once a
call that revoked the session has returned, the cache denies it or every active snapshot is too old
for the cache, so no later call returns it as active (`revoked_never_active`).
-/

namespace BeeApi.Sessions

open Interleaving Transaction

/-! ## The functions -/

/-- An active snapshot was taken under the deadline while nothing had denied the session. -/
structure Observed (cacheTTL : ℤ) (store : SessionStore) (cacheDeadline version expiresAt : ℤ) :
    Prop where
  snapshot : Snapshot store version expiresAt
  deadline : cacheDeadline ≤ store.clock + cacheTTL * second
  fenced : Fenced store (unixMilli (min cacheDeadline (expiresAt * second)))

section Observed

variable {cacheTTL : ℤ} {store store' : SessionStore} {cacheDeadline version expiresAt : ℤ}

theorem Observed.pending (h : Observed cacheTTL store cacheDeadline version expiresAt) :
    Pending cacheTTL store (unixMilli (min cacheDeadline (expiresAt * second))) := by
  obtain ⟨r, hr, -, hexpires⟩ := h.snapshot
  refine ⟨r, hr, ?_⟩
  rw [hexpires]
  exact unixMilli_mono (min_le_min_right _ h.deadline)

theorem Observed.later (h : Observed cacheTTL store cacheDeadline version expiresAt)
    (hlater : Later cacheTTL store store') :
    Observed cacheTTL store' cacheDeadline version expiresAt where
  snapshot := hlater.snapshot h.snapshot
  deadline := h.deadline.trans (Int.add_le_add_right hlater.clock _)
  fenced := hlater.fenced _ h.pending h.fenced

theorem Observed.of_not_denied (hs : Snapshot store version expiresAt)
    (hdeadline : cacheDeadline ≤ store.clock + cacheTTL * second) (hdenied : ¬ store.denied = true) :
    Observed cacheTTL store cacheDeadline version expiresAt :=
  ⟨hs, hdeadline, fun hd => absurd hd hdenied⟩

end Observed

section Functions

variable {β γ : Type} {cacheTTL : ℤ} {Q : β → SessionStore → Prop} {store : SessionStore}

theorem keeps_bind {Q' : γ → SessionStore → Prop} {p : SessionProg γ} {f : γ → SessionProg β}
    (hi : StoreOk store) (hp : Keeps cacheTTL Q' p store)
    (hf : ∀ c s, Later cacheTTL store s → StoreOk s → Q' c s → Keeps cacheTTL Q (f c) s) :
    Keeps cacheTTL Q (p >>= f) store :=
  Guarantees.bind rely hi hp hf

variable {entry : UserSessionCacheEntry}

theorem keeps_eval_denies {now : ℤ} {f : Bool → SessionProg β}
    (hs : Snapshot store entry.version entry.expiresAt) (hdenies : entry.status ≠ .active)
    (hnow : now ≤ store.clock)
    (h : ∀ s, Later cacheTTL store s → StoreOk s → (store.Revoked → s.denied = true) →
      Keeps cacheTTL Q (f true) s) :
    Keeps cacheTTL Q (SessionProg.eval entry (denyExpiration cacheTTL entry now) >>= f) store := by
  intro s o hlater hi
  have hs' := hlater.snapshot hs
  obtain ⟨hi', hlater', hdenied⟩ : _ ∧ Later cacheTTL s _ ∧ _ :=
    eval_denies hi hs' hdenies (hnow.trans hlater.clock)
  refine ⟨hi', hlater', ?_⟩
  have hwritten : (s.eval entry (denyExpiration cacheTTL entry now)).2 = true := by
    unfold SessionStore.eval
    rw [writes_of_denies hi hs' hdenies, Bool.not_true, if_neg Bool.false_ne_true, if_neg hdenies]
  change Keeps cacheTTL Q (f (s.eval entry (denyExpiration cacheTTL entry now)).2) _
  rw [hwritten]
  exact h _ (hlater.trans hlater') hi' fun hr => hdenied (hlater.revoked hr)

theorem keeps_eval_active {bound : ℤ} {f : Bool → SessionProg β}
    (hs : Snapshot store entry.version entry.expiresAt) (hactive : entry.status = .active)
    (hpending : Pending cacheTTL store bound) (hfenced : Fenced store bound)
    (h : ∀ s written, Later cacheTTL store s → StoreOk s → Keeps cacheTTL Q (f written) s) :
    Keeps cacheTTL Q (SessionProg.eval entry bound >>= f) store := by
  intro s o hlater hi
  obtain ⟨hi', hlater'⟩ : _ ∧ Later cacheTTL s _ :=
    eval_active hi (hlater.snapshot hs) hactive (hlater.fenced bound hpending hfenced)
  exact ⟨hi', hlater', h _ _ (hlater.trans hlater') hi'⟩

theorem writeUserSessionCache_denies (cacheDeadline : Option ℤ)
    (hs : Snapshot store entry.version entry.expiresAt) (hdenies : entry.status ≠ .active) :
    Keeps cacheTTL (fun res s => res = .ok () ∧ (store.Revoked → s.denied = true))
      (writeUserSessionCache cacheTTL entry cacheDeadline) store := by
  unfold writeUserSessionCache
  refine keeps_now fun s hlater hi => ?_
  rw [if_neg hdenies]
  refine keeps_eval_denies (hlater.snapshot hs) hdenies (le_refl _) fun s₁ hs₁ _ hdenied => ?_
  rw [if_pos rfl]
  exact keeps_pure fun s₂ hs₂ _ => ⟨rfl, fun hr => hs₂.denied (hdenied (hlater.revoked hr))⟩

theorem writeUserSessionCache_active {cacheDeadline : ℤ}
    (hobserved : Observed cacheTTL store cacheDeadline entry.version entry.expiresAt)
    (hactive : entry.status = .active) :
    Keeps cacheTTL (fun _ _ => True) (writeUserSessionCache cacheTTL entry (some cacheDeadline))
      store := by
  have htrivial : ∀ {res : Except String Unit} {s : SessionStore},
      Keeps cacheTTL (fun _ _ => True) (pure res) s := fun _ _ _ => trivial
  unfold writeUserSessionCache
  refine keeps_now fun s hlater hi => ?_
  dsimp only
  rw [if_pos hactive]
  split_ifs
  · exact htrivial
  · exact htrivial
  · exact htrivial
  · have hobserved' := hobserved.later hlater
    refine keeps_eval_active hobserved'.snapshot hactive hobserved'.pending hobserved'.fenced
      fun s₁ written _ _ => ?_
    cases written with
    | false => exact htrivial
    | true =>
      refine keeps_now fun s₂ _ _ => ?_
      split_ifs <;> exact htrivial

theorem confirmUserSessionActiveSnapshot_keeps (session : UserSession) :
    Keeps cacheTTL (fun _ _ => True) (confirmUserSessionActiveSnapshot session) store := by
  have htrivial : ∀ {res : Except String Unit} {s : SessionStore},
      Keeps cacheTTL (fun _ _ => True) (pure res) s := fun _ _ _ => trivial
  unfold confirmUserSessionActiveSnapshot
  split_ifs
  · exact htrivial
  · refine keeps_now fun s hlater hi => ?_
    refine keeps_count (fun e s₁ _ _ => htrivial) fun s₁ _ _ => ?_
    split_ifs <;> exact htrivial

theorem cacheOrConfirm_keeps {session : UserSession} {cacheDeadline : ℤ} (hi : StoreOk store)
    (hobserved : Observed cacheTTL store cacheDeadline session.version session.expiresAt)
    (hactive : session.status = .active) :
    Keeps cacheTTL (fun _ _ => True) (cacheOrConfirm cacheTTL session cacheDeadline) store := by
  unfold cacheOrConfirm
  refine keeps_bind hi
    (writeUserSessionCache_active hobserved hactive) fun res s _ _ _ => ?_
  cases res with
  | ok u => exact fun _ _ _ => trivial
  | error e =>
    dsimp only
    split_ifs
    · exact confirmUserSessionActiveSnapshot_keeps session
    · exact fun _ _ _ => trivial
    · exact fun _ _ _ => trivial

end Functions

/-! ## What a call returns -/

/-- A call that revokes leaves the session denied, and a call that is late does not return it as
active. -/
def Answers (late : Prop) (res : SessionResult) (store : SessionStore) : Prop :=
  (res.revokes = true → store.denied = true) ∧ (late → res.returnsActive = false)

section Calls

variable {cacheTTL : ℤ} {late : Prop} {store : SessionStore}

theorem keeps_error (e : String) :
    Keeps cacheTTL (Answers late) (pure (.error e)) store :=
  fun _ _ _ => ⟨nofun, fun _ => rfl⟩

theorem keeps_notRevoked :
    Keeps cacheTTL (Answers late) (pure (.revoked false)) store :=
  fun _ _ _ => ⟨nofun, fun _ => rfl⟩

theorem keeps_of_not_late {res : SessionResult} (hres : res.revokes = false) (hlate : ¬ late) :
    Keeps cacheTTL (Answers late) (pure res) store := by
  refine fun _ _ _ => ⟨fun h => ?_, fun h => absurd h hlate⟩
  rw [hres] at h
  cases h

theorem deadline_keeps :
    Keeps cacheTTL (fun deadline s => deadline ≤ s.clock + cacheTTL * second)
      (userSessionCacheDeadline cacheTTL) store := by
  refine keeps_now fun s hs hi => keeps_pure fun s' hs' _ => ?_
  exact Int.add_le_add_right hs'.clock _

theorem createUserSession_keeps (session : UserSession) :
    Keeps cacheTTL (Answers late) (createUserSession cacheTTL session) store := by
  unfold createUserSession
  refine keeps_now fun s _ hi => ?_
  split_ifs with _ hactive
  · exact keeps_error _
  · exact keeps_error _
  · rw [not_or, not_not, not_not] at hactive
    have hversion : 0 < (createColumns session (unix s.clock)).version := by
      unfold createColumns
      dsimp only
      split_ifs <;> omega
    refine keeps_bind hi deadline_keeps fun deadline s₁ _ hi₁ hdeadline => ?_
    refine keeps_create hversion (fun e s₂ _ _ => keeps_error e) fun s₂ hs₂ hi₂ hrow hdenied => ?_
    have hle : deadline ≤ s₂.clock + cacheTTL * second :=
      hdeadline.trans (Int.add_le_add_right hs₂.clock _)
    have hobserved := Observed.of_not_denied ⟨_, hrow, rfl, rfl⟩ hle hdenied
    refine keeps_bind hi₂ (cacheOrConfirm_keeps hi₂ hobserved hactive.1) fun res s₃ _ _ _ => ?_
    cases res with
    | error e => exact keeps_error e
    | ok u => exact fun _ _ _ => ⟨nofun, fun _ => rfl⟩

theorem getUserSessionCache_keeps (hlate : late → store.denied = true) :
    Keeps cacheTTL (fun res _ => ∀ entry, res = .ok (some entry) →
        entry.status = .active ∧ ¬ late) getUserSessionCache store := by
  unfold getUserSessionCache
  refine keeps_hGetAll fun s hs hi => ?_
  cases hlive : s.live with
  | none => exact fun _ _ _ _ h => (nomatch h)
  | some entry =>
    dsimp only
    split_ifs
    · exact fun _ _ _ _ h => (nomatch h)
    · refine keeps_now fun s₁ _ _ => ?_
      split_ifs with hinactive
      · exact fun _ _ _ _ h => (nomatch h)
      · refine keeps_pure fun s₂ _ _ entry' h => ?_
        cases h
        have hactive : entry.status = .active := by
          by_contra hne
          exact hinactive (.inl hne)
        refine ⟨hactive, fun hl => ?_⟩
        obtain ⟨expires, hcache, -⟩ := live_eq_some_iff.1 hlive
        exact hi.denies (hs.denied (hlate hl)) entry expires hcache hactive

theorem not_denied_of_active {r : UserSession} (hi : StoreOk store) (hr : store.row = some r)
    (hactive : r.status = .active) : ¬ store.denied = true := by
  intro hd
  obtain ⟨r', hr', hrevoked⟩ := hi.revoked hd
  cases hr.symm.trans hr'
  rw [hactive] at hrevoked
  cases hrevoked

variable {now userID : ℤ} {session : UserSession} {reason presentedHash : String}

theorem status_of_activeAt (h : session.activeAt now = true) : session.status = .active := by
  unfold UserSession.activeAt at h
  rw [Bool.and_eq_true, Bool.and_eq_true, decide_eq_true_eq] at h
  exact h.1.1

theorem getUserSessionCached_keeps (hi : StoreOk store) (hlate : late → store.denied = true) :
    Keeps cacheTTL (Answers late) (getUserSessionCached cacheTTL) store := by
  unfold getUserSessionCached
  refine keeps_bind hi (getUserSessionCache_keeps hlate) fun res s hs hi hres => ?_
  match res, hres with
  | .error e, _ => exact keeps_error e
  | .ok (some entry), hres => exact keeps_of_not_late rfl (hres entry rfl).2
  | .ok none, _ =>
    refine keeps_bind hi deadline_keeps fun deadline s₁ hs₁ _ hdeadline => ?_
    refine keeps_first (fun e s₂ _ _ => keeps_error e) fun s₂ hs₂ hi₂ => ?_
    cases hrow : s₂.row with
    | none => exact keeps_error _
    | some session =>
      refine keeps_now fun s₃ hs₃ hi₃ => ?_
      have hsnapshot : Snapshot s₃ session.version session.expiresAt :=
        hs₃.snapshot ⟨session, hrow, rfl, rfl⟩
      split_ifs with hinactive
      · refine keeps_bind hi₃ (writeUserSessionCache_denies none hsnapshot ?_) fun _ _ _ _ _ => ?_
        · exact nofun
        · exact keeps_error _
      · have hactive : session.status = .active :=
          status_of_activeAt (by simpa using hinactive : session.activeAt (unix s₃.clock) = true)
        have hnot := not_denied_of_active hi₂ hrow hactive
        have hobserved := Observed.of_not_denied ⟨session, hrow, rfl, rfl⟩
          (hdeadline.trans (Int.add_le_add_right hs₂.clock _)) hnot
        refine keeps_bind hi₃ (cacheOrConfirm_keeps hi₃ (hobserved.later hs₃) hactive)
          fun res s₄ _ _ _ => ?_
        cases res with
        | error e => exact keeps_error e
        | ok u =>
          refine keeps_of_not_late rfl fun hl => hnot ?_
          exact hs₂.denied (hs₁.denied (hs.denied (hlate hl)))

theorem writeUserSessionDenyFence_keeps (hs : Snapshot store session.version session.expiresAt)
    (now : ℤ) (reason : String) :
    Keeps cacheTTL (fun _ _ => True)
      (writeUserSessionDenyFence cacheTTL session .revoking now reason) store := by
  refine Guarantees.conseq (writeUserSessionCache_denies none hs ?_) fun _ _ _ _ => trivial
  exact nofun

/-- After the row has been revoked, its entry in the cache denies the session. -/
theorem finalizeRevoke_keeps (hs : Snapshot store session.version session.expiresAt)
    (hrevoked : store.Revoked) (now : ℤ) (reason : String) :
    Keeps cacheTTL (fun _ s => s.denied = true) (finalizeRevoke cacheTTL session now reason)
      store := by
  refine Guarantees.conseq (writeUserSessionCache_denies none hs ?_) fun _ _ _ h => h.2 hrevoked
  exact nofun

/-- A call that has revoked the row writes its entry and returns. -/
theorem finalizeRevoke_bind_keeps (hi : StoreOk store)
    (hs : Snapshot store session.version session.expiresAt) (hrevoked : store.Revoked)
    {res : SessionResult} (hres : res.returnsActive = false) :
    Keeps cacheTTL (Answers late) (finalizeRevoke cacheTTL session now reason >>= fun _ => pure res)
      store := by
  refine keeps_bind hi (finalizeRevoke_keeps hs hrevoked now reason) fun _ s _ _ hdenied => ?_
  exact keeps_pure fun s' hs' _ => ⟨fun _ => hs'.denied hdenied, fun _ => hres⟩

theorem active_of_classify (h : classify session presentedHash now ≠ .inactive) :
    session.status = .active := by
  unfold classify at h
  split_ifs at h with hinactive <;>
    first
    | exact absurd rfl h
    | exact status_of_activeAt (by simpa using hinactive)

theorem filter_row {row : Option UserSession} {p : UserSession → Bool}
    (h : row.filter p = some session) : row = some session ∧ p session = true :=
  Option.filter_eq_some_iff.1 h

theorem rotateRounds_keeps {nextHash : String} {graceSeconds : ℤ} (rounds : ℕ) (hi : StoreOk store)
    (hlate : late → store.denied = true) :
    Keeps cacheTTL (Answers late)
      (rotateRounds cacheTTL userID presentedHash nextHash now graceSeconds rounds) store := by
  induction rounds generalizing store with
  | zero => exact keeps_error _
  | succ rounds ih =>
    unfold rotateRounds
    refine keeps_bind hi deadline_keeps fun deadline s hs hi hdeadline => ?_
    refine keeps_first (fun e s₁ _ _ => keeps_error e) fun s₁ hs₁ hi₁ => ?_
    dsimp only
    split
    · exact keeps_error _
    case h_2 session hfind =>
      have hrow := (filter_row hfind).1
      have hsnapshot : Snapshot s₁ session.version session.expiresAt := ⟨session, hrow, rfl, rfl⟩
      have hnotLate : session.status = .active → ¬ late := fun hactive hl =>
        not_denied_of_active hi₁ hrow hactive (hs₁.denied (hs.denied (hlate hl)))
      cases hc : classify session presentedHash now with
      | inactive | unknown => exact keeps_error _
      | current =>
        have hactive : session.status = .active := active_of_classify (by rw [hc]; decide)
        refine keeps_rotate (fun e s₂ _ _ => keeps_error e) (fun s₂ hs₂ hi₂ => ?_)
          fun s₂ hs₂ hi₂ hdenied => ?_
        · exact ih hi₂ fun hl => hs₂.denied (hs₁.denied (hs.denied (hlate hl)))
        · have hle : deadline ≤ s₂.clock + cacheTTL * second :=
            hdeadline.trans (Int.add_le_add_right (hs₁.clock.trans hs₂.clock) _)
          have hobserved := Observed.of_not_denied (hs₂.snapshot hsnapshot) hle hdenied
          refine keeps_bind hi₂ (cacheOrConfirm_keeps hi₂ hobserved hactive) fun res s₃ _ _ _ => ?_
          cases res with
          | error e => exact keeps_error e
          | ok u => exact keeps_of_not_late rfl (hnotLate hactive)
      | race =>
        exact keeps_of_not_late rfl (hnotLate (active_of_classify (by rw [hc]; decide)))
      | reuse =>
        refine keeps_bind hi₁ (writeUserSessionDenyFence_keeps hsnapshot now _)
          fun res s₂ hs₂ hi₂ _ => ?_
        cases res with
        | error e => exact keeps_error e
        | ok u =>
          refine keeps_revoke (fun e s₃ _ _ => keeps_error e) (fun s₃ _ _ => keeps_error _)
            fun s₃ hs₃ hi₃ hrevoked => ?_
          exact finalizeRevoke_bind_keeps hi₃ ((hs₂.trans hs₃).snapshot hsnapshot) hrevoked rfl

theorem rotateUserSessionRefresh_keeps {nextHash : String} {graceSeconds : ℤ}
    (hlate : late → store.denied = true) :
    Keeps cacheTTL (Answers late)
      (rotateUserSessionRefresh cacheTTL userID presentedHash nextHash now graceSeconds) store := by
  unfold rotateUserSessionRefresh
  split
  · exact keeps_error _
  · refine keeps_now fun s hs hi => ?_
    by_cases hgrace : graceSeconds < 0
    · rw [if_pos hgrace]
      exact keeps_error _
    · rw [if_neg hgrace]
      exact rotateRounds_keeps 3 hi fun hl => hs.denied (hlate hl)

theorem revokeTx_keeps {selects : UserSession → Bool} :
    Keeps cacheTTL (fun res s => ∀ session, res = .ok (some session) →
        s.Revoked ∧ Snapshot s session.version session.expiresAt)
      (revokeTx selects now reason) store := by
  unfold revokeTx
  refine keeps_first (fun e s _ _ => fun _ _ _ _ h => (nomatch h)) fun s hs hi => ?_
  dsimp only
  split
  · exact fun _ _ _ _ h => (nomatch h)
  case h_2 current hfind =>
    have hsnapshot : Snapshot s current.version current.expiresAt :=
      ⟨current, (filter_row hfind).1, rfl, rfl⟩
    refine keeps_revoke (fun e s₁ _ _ => fun _ _ _ _ h => (nomatch h))
      (fun s₁ _ _ => fun _ _ _ _ h => (nomatch h)) fun s₁ hs₁ _ hrevoked => ?_
    refine keeps_pure fun s₂ hs₂ _ session h => ?_
    cases h
    exact ⟨hs₂.revoked hrevoked, hs₂.snapshot (hs₁.snapshot hsnapshot)⟩

theorem revokeUserSession_keeps :
    Keeps cacheTTL (Answers late) (revokeUserSession cacheTTL userID reason) store := by
  unfold revokeUserSession
  split_ifs
  · exact keeps_error _
  · refine keeps_now fun s _ _ => ?_
    refine keeps_first (fun e s₁ _ _ => keeps_error e) fun s₁ _ hi₁ => ?_
    dsimp only
    split
    · exact keeps_notRevoked
    case h_2 candidate hfind =>
      have hsnapshot : Snapshot s₁ candidate.version candidate.expiresAt :=
        ⟨candidate, (filter_row hfind).1, rfl, rfl⟩
      split_ifs
      · exact keeps_notRevoked
      · refine keeps_bind hi₁ (writeUserSessionDenyFence_keeps hsnapshot _ _)
          fun res s₂ hs₂ hi₂ _ => ?_
        cases res with
        | error e => exact keeps_error e
        | ok u =>
          refine keeps_bind hi₂ revokeTx_keeps fun res s₃ hs₃ hi₃ hres => ?_
          match res, hres with
          | .error e, _ => exact keeps_error e
          | .ok none, _ => exact keeps_notRevoked
          | .ok (some session), hres =>
            exact finalizeRevoke_bind_keeps hi₃ ((hs₂.trans hs₃).snapshot hsnapshot)
              (hres session rfl).1 rfl

theorem revokeUserSessionByRefreshHash_keeps :
    Keeps cacheTTL (Answers late) (revokeUserSessionByRefreshHash cacheTTL presentedHash reason)
      store := by
  unfold revokeUserSessionByRefreshHash
  split_ifs
  · exact keeps_error _
  · refine keeps_now fun s _ _ => ?_
    refine keeps_first (fun e s₁ _ _ => keeps_error e) fun s₁ _ hi₁ => ?_
    cases hrow : s₁.row with
    | none => exact keeps_notRevoked
    | some session =>
      have hsnapshot : Snapshot s₁ session.version session.expiresAt := ⟨session, hrow, rfl, rfl⟩
      dsimp only
      split_ifs
      · exact keeps_notRevoked
      · exact keeps_notRevoked
      · refine keeps_bind hi₁ (writeUserSessionDenyFence_keeps hsnapshot _ _)
          fun res s₂ hs₂ hi₂ _ => ?_
        cases res with
        | error e => exact keeps_error e
        | ok u =>
          refine keeps_revoke (fun e s₃ _ _ => keeps_error e) (fun s₃ _ _ => keeps_notRevoked)
            fun s₃ hs₃ hi₃ hrevoked => ?_
          exact finalizeRevoke_bind_keeps hi₃ ((hs₂.trans hs₃).snapshot hsnapshot) hrevoked rfl

theorem keeps_totalAffected {total : ℕ} {e : Option String}
    (htotal : 0 < total → store.denied = true) :
    Keeps cacheTTL (Answers late) (pure (.totalAffected total e)) store := by
  refine fun s hs _ => ⟨fun h => hs.denied (htotal ?_), fun _ => rfl⟩
  exact of_decide_eq_true h

theorem revokeRounds_keeps (rounds : List Bool) (total : ℕ) (hi : StoreOk store)
    (htotal : 0 < total → store.denied = true) :
    Keeps cacheTTL (Answers late) (revokeRounds cacheTTL userID now reason rounds total) store := by
  induction rounds generalizing store total with
  | nil => exact keeps_totalAffected htotal
  | cons inBatch rounds ih =>
    unfold revokeRounds
    refine keeps_first (fun e s hs _ => keeps_totalAffected (hs.denied ∘ htotal)) fun s hs hi => ?_
    dsimp only
    split
    · exact ih total hi (hs.denied ∘ htotal)
    case h_2 candidate hfind =>
      have hsnapshot : Snapshot s candidate.version candidate.expiresAt :=
        ⟨candidate, (filter_row hfind).1, rfl, rfl⟩
      refine keeps_bind hi (writeUserSessionDenyFence_keeps hsnapshot _ _)
        fun res s₁ hs₁ hi₁ _ => ?_
      have htotal₁ : 0 < total → s₁.denied = true := (hs.trans hs₁).denied ∘ htotal
      cases res with
      | error e => exact keeps_totalAffected htotal₁
      | ok u =>
        refine keeps_bind hi₁ revokeTx_keeps fun res s₂ hs₂ hi₂ hres => ?_
        match res, hres with
        | .error e, _ => exact keeps_totalAffected (hs₂.denied ∘ htotal₁)
        | .ok none, _ => exact ih total hi₂ (hs₂.denied ∘ htotal₁)
        | .ok (some session), hres =>
          obtain ⟨hrevoked, hsnapshot'⟩ := hres session rfl
          refine keeps_bind hi₂ (finalizeRevoke_keeps hsnapshot' hrevoked _ _)
            fun _ s₃ _ hi₃ hdenied => ?_
          exact ih (total + 1) hi₃ fun _ => hdenied

theorem revokeUserSessions_keeps {rounds : List Bool} :
    Keeps cacheTTL (Answers late) (revokeUserSessions cacheTTL userID reason rounds) store := by
  unfold revokeUserSessions
  split_ifs
  · exact keeps_totalAffected fun h => absurd h (lt_irrefl 0)
  · refine keeps_now fun s _ hi => ?_
    exact revokeRounds_keeps rounds 0 hi fun h => absurd h (lt_irrefl 0)

theorem program_keeps (f : SessionCall) (hi : StoreOk store) (hlate : late → store.denied = true) :
    Keeps cacheTTL (Answers late) (f.program cacheTTL) store := by
  cases f with
  | create session => exact createUserSession_keeps session
  | get => exact getUserSessionCached_keeps hi hlate
  | rotate => exact rotateUserSessionRefresh_keeps hlate
  | revoke => exact revokeUserSession_keeps
  | revokeByRefreshHash => exact revokeUserSessionByRefreshHash_keeps
  | revokeAll => exact revokeUserSessions_keeps

end Calls

def noSession (clock : ℤ) : Threads SessionOp SessionOp.Res SessionStore SessionResult where
  shared := { clock }

theorem noSession_ok (clock : ℤ) : StoreOk (noSession clock).shared :=
  ⟨by simp [noSession], by simp [noSession], by simp [noSession], by simp [noSession]⟩

/-- A revoked row stays revoked, and once a call that revoked the session has returned, no later call
returns it as active. -/
theorem revoked_never_active {cacheTTL clock : ℤ}
    {s₁ s₂ : Threads SessionOp SessionOp.Res SessionStore SessionResult}
    {l₁ l₂ : List (ThreadAction Outcome ℕ SessionCall)}
    (h₁ : Run.run (sessionMachine cacheTTL).step (noSession clock) l₁ = some s₁)
    (h₂ : Run.run (sessionMachine cacheTTL).step s₁ l₂ = some s₂) :
    (s₁.shared.Revoked → s₂.shared.Revoked) ∧
      ∀ call p res, s₁.threads.get? call = some p → p.result? = some res → res.revokes = true →
        ∀ call' p' res', s₁.threads.get? call' = none → s₂.threads.get? call' = some p' →
          p'.result? = some res' → res'.returnsActive = false := by
  have hnone : Guarded (sessionMachine cacheTTL) StoreOk (Later cacheTTL)
      (fun _ => Answers False) (noSession clock) := by
    refine ⟨noSession_ok clock, fun call p hp => ?_⟩
    rw [noSession, Table.get?_empty] at hp
    cases hp
  have hstart : ∀ (_ : ℕ) (f : SessionCall) s, StoreOk s → True →
      Keeps cacheTTL (Answers False) (f.program cacheTTL) s :=
    fun _ f s hi _ => program_keeps f hi False.elim
  obtain ⟨hs₁, -⟩ := hnone.run_of_env rely storeOk_env (fun _ _ _ _ => trivial) hstart trivial h₁
  obtain ⟨-, hlater⟩ := hs₁.run_of_env rely storeOk_env (fun _ _ _ _ => trivial) hstart trivial h₂
  refine ⟨hlater.revoked, fun call p res hp hres hrevokes call' p' res' hnew hp' hres' => ?_⟩
  have hdenied : s₁.shared.denied = true := (hs₁.of_result rely hp hres).1 hrevokes
  -- From here on every new call is late.
  have hlate : Guarded (sessionMachine cacheTTL) StoreOk (Later cacheTTL)
      (fun call => Answers (s₁.threads.get? call = none)) s₁ := by
    refine ⟨hs₁.inv, fun call p hp => ?_⟩
    refine Guarantees.conseq (hs₁.threads call p hp) fun res s _ h => ⟨h.1, fun hn => ?_⟩
    rw [hp] at hn
    cases hn
  have hstartLate : ∀ call (f : SessionCall) s, StoreOk s → s.denied = true →
      Keeps cacheTTL (Answers (s₁.threads.get? call = none)) (f.program cacheTTL) s :=
    fun _ f s hi hd => program_keeps f hi fun _ => hd
  obtain ⟨hs₂, -⟩ :=
    hlate.run_of_env rely storeOk_env (fun _ _ hd hs => hs.denied hd) hstartLate hdenied h₂
  exact (hs₂.of_result rely hp' hres').2 hnew

def advances (call steps : ℕ) : List (ThreadAction Outcome ℕ SessionCall) :=
  List.replicate steps (.advance call .reported)

/-- When the entry of the new session has expired, a call reads the row; the session is revoked before
it writes what it has read. -/
def delayedReader : List (ThreadAction Outcome ℕ SessionCall) :=
  [.start 0 (.create { userID := 7, refreshHash := "hash", expiresAt := 1000 })] ++ advances 0 6 ++
    [.env 70000000000, .start 1 .get] ++ advances 1 4 ++ [.start 2 (.revoke 7 "logout")] ++
    advances 2 8

def laterReader : List (ThreadAction Outcome ℕ SessionCall) :=
  advances 1 2 ++ [.start 3 .get] ++ advances 3 2

theorem revoked_never_active_delayedReader :
    ∃ s₁ s₂ p p' res', Run.run (sessionMachine 60).step (noSession 100000000000) delayedReader =
        some s₁ ∧ Run.run (sessionMachine 60).step s₁ laterReader = some s₂ ∧
      s₁.threads.get? 2 = some p ∧ p.result? = some (.revoked true) ∧
      s₂.threads.get? 3 = some p' ∧ p'.result? = some res' ∧ res'.returnsActive = false := by
  obtain ⟨s₁, h₁, hnew, ⟨p, hp, hres⟩, s₂, h₂, p', hp', hres'⟩ :
      ∃ s₁, Run.run (sessionMachine 60).step (noSession 100000000000) delayedReader = some s₁ ∧
        (s₁.threads.get? 3).isNone = true ∧
        (∃ p, s₁.threads.get? 2 = some p ∧ p.result? = some (.revoked true)) ∧
        ∃ s₂, Run.run (sessionMachine 60).step s₁ laterReader = some s₂ ∧
          ∃ p', s₂.threads.get? 3 = some p' ∧ p'.result? = some (.error errUserSessionInactive) := by
    decide +kernel
  exact ⟨s₁, s₂, p, p', _, h₁, h₂, hp, hres, hp', hres', (revoked_never_active h₁ h₂).2 2 p _ hp hres rfl
    3 p' _ (Option.isNone_iff_eq_none.1 hnew) hp' hres'⟩

end BeeApi.Sessions
