import BeeApi.IQTest.Lease

/-!
# The lease is exclusive while its writes are in time

A claim computes the new expiry before it writes it, and a renewal verifies the owner by a read
before its write.  When these writes are in time, the lease is exclusive in every interleaving
(`exclusive_of_inTime`); `renews_after_takeover` is a run in which they are not.
-/

namespace BeeApi.IQTest

open Option Table Bool LeaseSystem

namespace LeaseSystem

/-- An expiry that is written lies in the future, and the row still names the owner for whom a call
verified it. -/
def inTime (s : LeaseSystem) : LeaseAction → Bool
  | .claimUpdate call =>
    match s.calls.get? call with
    | some (.claim _ ttl now true) =>
      !s.lease.any (expiredBy now) || s.clock < addInt64 now ttl
    | _ => true
  | .renewUpdate call =>
    match s.calls.get? call with
    | some (.renew owner ttl now true) =>
      s.lease.any (ownedBy owner) && s.clock < addInt64 now ttl
    | _ => true
  | .enforceRenew call =>
    match s.calls.get? call with
    | some (.enforce owner (.renewing _)) => s.lease.any (ownedBy owner)
    | _ => true
  | _ => true

structure Exclusive (s : LeaseSystem) (a : LeaseAction) (s' : LeaseSystem) : Prop where
  returned : ∀ owner, s.returnsTrue a = some owner → s'.Holds owner
  one : ∀ owner owner', s'.Holds owner → s'.Holds owner' → owner = owner'
  enforced : ∀ owner, s.changesChannel a = some owner → s.claimedBy = some owner

theorem Holds.unique {s : LeaseSystem} {owner owner' : String} (h : s.Holds owner)
    (h' : s.Holds owner') : owner = owner' := by
  obtain ⟨r, hr, rfl, -⟩ := h
  obtain ⟨r', hr', rfl, -⟩ := h'
  rw [hr] at hr'
  rw [some.inj hr']

/-- A row that names an owner names the last claimant. -/
def Named (s : LeaseSystem) (r : IQTestLease) : Prop :=
  r.ownerID = "" ∧ r.expiresAt = 0 ∨ s.claimedBy = some r.ownerID

def CallOk (s : LeaseSystem) (call : ℕ) : LeaseCall → Prop
  | .claim owner _ _ _ => owner ≠ ""
  | .renew owner _ _ _ => owner ≠ ""
  | .enforce _ (.begun now) => 0 ≤ now
  | .enforce owner .verified => owner ≠ ""
  | .enforce owner (.renewing _) => owner ≠ ""
  | .enforce owner .renewed =>
    owner ≠ "" ∧ ∃ r, s.locked = some (call, r) ∧ s.lease.any (ownedBy owner) = true
  | .enforce owner .updated =>
    owner ≠ "" ∧ ∃ r, s.locked = some (call, r) ∧ s.lease.any (ownedBy owner) = true

structure Inv (s : LeaseSystem) : Prop where
  clock : 0 ≤ s.clock
  named : ∀ r, s.lease = some r → s.Named r
  claimant : s.claimedBy ≠ some ""
  locked : ∀ holder r, s.locked = some (holder, r) → ∃ r₀, s.lease = some r₀ ∧
    r.ownerID = r₀.ownerID ∧ r₀.ownerID ≠ ""
  calls : ∀ call c, s.calls.get? call = some c → s.CallOk call c

/-! ## Calls -/

section Calls

variable {s : LeaseSystem}

variable {call : ℕ} {c : LeaseCall} {s' : LeaseSystem}

/-- Only a call that holds the row relies on what the row and the lock are. -/
theorem CallOk.imp (h : s.CallOk call c)
    (hkept : ∀ r, s.locked = some (call, r) → s'.lease = s.lease ∧ s'.locked = s.locked) :
    s'.CallOk call c := by
  cases c with
  | claim => exact h
  | renew => exact h
  | enforce owner phase =>
    cases phase with
    | begun => exact h
    | verified => exact h
    | renewing => exact h
    | renewed | updated =>
      obtain ⟨-, r, hr, -⟩ := id h
      obtain ⟨hlease, hlocked⟩ := hkept r hr
      unfold CallOk
      rw [hlease, hlocked]
      exact h

theorem CallOk.congr (hlease : s'.lease = s.lease) (hlocked : s'.locked = s.locked)
    (h : s.CallOk call c) : s'.CallOk call c :=
  h.imp fun _ _ => ⟨hlease, hlocked⟩

theorem CallOk.of_unlocked (hlocked : s.locked = none) (h : s.CallOk call c) :
    s'.CallOk call c := by
  refine h.imp fun r hr => ?_
  rw [hlocked] at hr
  cases hr

theorem CallOk.of_locked {holder : ℕ} {r : IQTestLease} (hlocked : s.locked = some (holder, r))
    (hne : call ≠ holder) (h : s.CallOk call c) : s'.CallOk call c := by
  refine h.imp fun r' hr' => ?_
  rw [hlocked] at hr'
  exact absurd (Prod.mk.inj (some.inj hr')).1.symm hne

theorem Inv.goOn (h : Inv s) (hok : s.CallOk call c) : Inv (s.goOn call c) := by
  refine ⟨h.clock, h.named, h.claimant, h.locked, ?_⟩
  exact forall_get?_put (fun call' c' hc' => (h.calls call' c' hc').congr rfl rfl)
    (hok.congr rfl rfl)

theorem Inv.start (h : Inv s) (hok : s.CallOk call c) (hs : s.start call c = some s') : Inv s' := by
  unfold LeaseSystem.start at hs
  split_ifs at hs
  cases hs
  exact h.goOn hok

theorem Inv.finish (h : Inv s) (call : ℕ) : Inv (s.finish call) := by
  refine ⟨h.clock, h.named, h.claimant, h.locked, ?_⟩
  exact forall_get?_erase fun call' c' hc' => (h.calls call' c' hc').congr rfl rfl

end Calls

/-! ## The row -/

section Row

variable {s s' : LeaseSystem}

/-- An update that does not wait leaves the row alone, or rewrites it while nobody holds it. -/
theorem updateWhere_cases {p : IQTestLease → Bool} {f : IQTestLease → IQTestLease}
    (h : s.updateWhere p f = some s') :
    s.lease.any p = false ∧ s' = s ∨
      ∃ r, s.locked = none ∧ s.lease = some r ∧ p r = true ∧ s' = { s with lease := some (f r) } := by
  unfold updateWhere at h
  split_ifs at h with hwaits
  cases h
  cases hlease : s.lease with
  | none =>
    refine .inl ⟨rfl, ?_⟩
    rw [map_none, ← hlease]
  | some r =>
    cases hp : p r with
    | false =>
      refine .inl ⟨hp, ?_⟩
      rw [Option.map_some, hp, if_neg Bool.false_ne_true, ← hlease]
    | true =>
      refine .inr ⟨r, ?_, rfl, hp, ?_⟩
      · simpa [hlease, hp] using hwaits
      · rw [map_some, hp, if_pos rfl]

theorem Inv.rewrite (h : Inv s) (hlocked : s.locked = none) {r : IQTestLease} {by' : Option String}
    (hby : by' ≠ some "") (hnamed : Named { s with claimedBy := by' } r) :
    Inv { s with lease := some r, claimedBy := by' } := by
  refine ⟨h.clock, ?_, hby, ?_, fun call c hc => (h.calls call c hc).of_unlocked hlocked⟩
  · intro r' hr'
    cases hr'
    exact hnamed
  · intro holder r' hr'
    rw [hlocked] at hr'
    cases hr'

variable {owner : String} {now : ℤ}

theorem Inv.claimUpdate (h : Inv s) {ttl : ℤ} (howner : owner ≠ "")
    (hs : s.claimUpdate owner ttl now = some s') : Inv s' := by
  obtain ⟨s₁, hs₁, rfl⟩ := map_eq_some_iff.1 hs
  obtain ⟨hmiss, rfl⟩ | ⟨r, hlocked, hlease, hexpired, rfl⟩ := updateWhere_cases hs₁
  · rw [hmiss, if_neg Bool.false_ne_true]
    exact h
  · rw [hlease, any_some, hexpired, if_pos rfl]
    exact h.rewrite hlocked (by simpa using howner) (.inr rfl)

theorem Inv.renewUpdate (h : Inv s) {ttl : ℤ} (howner : owner ≠ "")
    (hs : s.renewUpdate owner ttl now = some s') : Inv s' := by
  obtain ⟨-, rfl⟩ | ⟨r, hlocked, hlease, howned, rfl⟩ := updateWhere_cases hs
  · exact h
  · obtain rfl : r.ownerID = owner := of_decide_eq_true howned
    obtain ⟨hempty, -⟩ | hclaimed := h.named r hlease
    · exact absurd hempty howner
    · exact h.rewrite hlocked h.claimant (.inr hclaimed)

theorem Inv.release (h : Inv s) (hs : s.releaseIQTestLease owner = some s') : Inv s' := by
  obtain ⟨-, rfl⟩ | ⟨r, hlocked, hlease, howned, rfl⟩ := updateWhere_cases hs
  · exact h
  · exact h.rewrite hlocked h.claimant (.inl ⟨rfl, rfl⟩)

theorem Inv.createLease (h : Inv s) : Inv { s with lease := some (s.lease.getD {}) } := by
  cases hlease : s.lease with
  | some r =>
    rw [getD_some, ← hlease]
    exact h
  | none =>
    have hlocked : s.locked = none := by
      cases hl : s.locked with
      | none => rfl
      | some l =>
        obtain ⟨r₀, hr₀, -⟩ := h.locked l.1 l.2 hl
        rw [hlease] at hr₀
        cases hr₀
    exact h.rewrite hlocked h.claimant (.inl ⟨rfl, rfl⟩)

theorem Inv.enforceRenew (h : Inv s) {call : ℕ} (howner : owner ≠ "")
    (hmatch : s.lease.any (ownedBy owner) = true) (hs : s.enforceRenew call owner now = some s') :
    Inv (s'.goOn call (.enforce owner .renewed)) := by
  obtain ⟨r, hlease, howned⟩ := (any_eq_true _ _).1 hmatch
  unfold LeaseSystem.enforceRenew at hs
  have hfilter : s.lease.filter (ownedBy owner) = some r := by
    rw [hlease, filter_some, howned, if_pos rfl]
  rw [hfilter] at hs
  split_ifs at hs with hfree
  cases hs
  have hlocked : s.locked = none := by simpa using hfree
  obtain rfl : r.ownerID = owner := of_decide_eq_true howned
  refine ⟨h.clock, h.named, h.claimant, ?_, ?_⟩
  · intro holder r' hr'
    cases hr'
    exact ⟨r, hlease, rfl, howner⟩
  · exact forall_get?_put (fun call' c' hc' => (h.calls call' c' hc').of_unlocked hlocked)
      ⟨howner, _, rfl, hmatch⟩

theorem Inv.unlock (h : Inv s) (call : ℕ) (commit : Bool) : Inv ((s.unlock call commit).finish call) := by
  unfold LeaseSystem.unlock
  cases hlocked : s.locked with
  | none => exact h.finish call
  | some l =>
    obtain ⟨holder, r⟩ := l
    dsimp only
    split_ifs with hholder hcommit
    · subst hholder
      obtain ⟨r₀, hr₀, hsame, hne⟩ := h.locked holder r hlocked
      refine ⟨h.clock, ?_, h.claimant, (fun _ _ hl => by cases hl), ?_⟩
      · intro r' hr'
        cases hr'
        obtain ⟨hempty, -⟩ | hclaimed := h.named r₀ hr₀
        · exact absurd hempty hne
        · exact .inr (hclaimed.trans (by rw [hsame]))
      · intro call' c' hc'
        rw [LeaseSystem.finish, get?_erase] at hc'
        split_ifs at hc' with hcall
        exact (h.calls call' c' hc').of_locked hlocked hcall
    · subst hholder
      refine ⟨h.clock, h.named, h.claimant, (fun _ _ hl => by cases hl), ?_⟩
      intro call' c' hc'
      rw [LeaseSystem.finish, get?_erase] at hc'
      split_ifs at hc' with hcall
      exact (h.calls call' c' hc').of_locked hlocked hcall
    · exact h.finish call

end Row

/-! ## Steps and runs -/

section Steps

variable {s s' : LeaseSystem}

variable {owner : String} {now : ℤ} {a : LeaseAction}

/-- A read that finds the row of an owner finds the row of the last claimant. -/
theorem Inv.owner_of_heldBy (h : Inv s) (hnow : 0 ≤ now)
    (hheld : s.lease.any (heldBy owner now) = true) : owner ≠ "" := by
  obtain ⟨r, hlease, hr⟩ := (any_eq_true _ _).1 hheld
  simp only [heldBy, and_eq_true, decide_eq_true_eq] at hr
  rintro rfl
  obtain ⟨-, hzero⟩ | hclaimed := h.named r hlease
  · omega
  · rw [hr.1] at hclaimed
    exact h.claimant hclaimed

theorem Inv.step (h : Inv s) (htime : s.inTime a = true) (hs : s.step a = some s') : Inv s' := by
  cases a with
  | tick seconds =>
    cases hs
    refine ⟨?_, h.named, h.claimant, h.locked, fun call c hc => (h.calls call c hc).congr rfl rfl⟩
    have := h.clock
    dsimp only
    omega
  | startClaim call owner ttl =>
    simp only [step] at hs
    split_ifs at hs with hinvalid
    · cases hs
      exact h
    · have hok : s.CallOk call (.claim owner ttl s.clock false) := fun hempty =>
        hinvalid (.inl hempty)
      exact h.start hok hs
  | createLease call =>
    simp only [step] at hs
    split at hs
    case h_2 => cases hs
    case h_1 owner ttl now hcall =>
      cases hs
      exact h.createLease.goOn (h.calls call _ hcall)
  | claimUpdate call =>
    simp only [step] at hs
    split at hs
    case h_2 => cases hs
    case h_1 owner ttl now hcall =>
      obtain ⟨s₁, hs₁, rfl⟩ := map_eq_some_iff.1 hs
      exact (h.claimUpdate (h.calls call _ hcall) hs₁).finish call
  | startRenew call owner ttl =>
    simp only [step] at hs
    split_ifs at hs with hinvalid
    · cases hs
      exact h
    · have hok : s.CallOk call (.renew owner ttl s.clock false) := fun hempty =>
        hinvalid (.inl hempty)
      exact h.start hok hs
  | renewFirst call =>
    simp only [step] at hs
    split at hs
    case h_2 => cases hs
    case h_1 owner ttl now hcall =>
      split_ifs at hs with hheld
      · cases hs
        have hne : owner ≠ "" := h.calls call _ hcall
        exact h.goOn hne
      · cases hs
        exact h.finish call
  | renewUpdate call =>
    simp only [step] at hs
    split at hs
    case h_2 => cases hs
    case h_1 owner ttl now hcall =>
      obtain ⟨s₁, hs₁, rfl⟩ := map_eq_some_iff.1 hs
      exact (h.renewUpdate (h.calls call _ hcall) hs₁).finish call
  | release owner => exact h.release hs
  | startEnforce call owner =>
    have hok : s.CallOk call (.enforce owner (.begun s.clock)) := h.clock
    exact h.start hok hs
  | enforceFirst call =>
    simp only [step] at hs
    split at hs
    case h_2 => cases hs
    case h_1 owner now hcall =>
      split_ifs at hs with hheld
      · cases hs
        exact h.goOn (h.owner_of_heldBy (h.calls call _ hcall) hheld)
      · cases hs
        exact h.finish call
  | enforceNow call =>
    simp only [step] at hs
    split at hs
    case h_2 => cases hs
    case h_1 owner hcall =>
      cases hs
      have hne : owner ≠ "" := h.calls call _ hcall
      exact h.goOn hne
  | enforceRenew call =>
    simp only [step] at hs
    split at hs
    case h_2 => cases hs
    case h_1 owner now hcall =>
      obtain ⟨s₁, hs₁, rfl⟩ := map_eq_some_iff.1 hs
      rw [inTime, hcall] at htime
      exact h.enforceRenew (h.calls call _ hcall) htime hs₁
  | updateChannel call =>
    simp only [step] at hs
    split at hs
    case h_2 => cases hs
    case h_1 owner hcall =>
      cases hs
      have hrenewed : s.CallOk call (.enforce owner .renewed) := h.calls call _ hcall
      exact h.goOn hrenewed
  | commit call =>
    simp only [step] at hs
    split at hs
    case h_3 => cases hs
    all_goals
      cases hs
      exact h.unlock call true
  | fail call =>
    simp only [step] at hs
    split_ifs at hs
    cases hs
    exact h.unlock call false

theorem holds_of_claimUpdate {ttl : ℤ} (hhit : s.lease.any (expiredBy now) = true)
    (hfuture : s.clock < addInt64 now ttl) (hs : s.claimUpdate owner ttl now = some s') :
    s'.Holds owner := by
  obtain ⟨s₁, hs₁, rfl⟩ := map_eq_some_iff.1 hs
  obtain ⟨hmiss, -⟩ | ⟨r, -, -, -, rfl⟩ := updateWhere_cases hs₁
  · rw [hhit] at hmiss
    cases hmiss
  · rw [hhit, if_pos rfl]
    exact ⟨_, rfl, rfl, hfuture⟩

theorem holds_of_renewUpdate {ttl : ℤ} (hhit : s.lease.any (ownedBy owner) = true)
    (hfuture : s.clock < addInt64 now ttl) (hs : s.renewUpdate owner ttl now = some s') :
    s'.Holds owner := by
  obtain ⟨hmiss, -⟩ | ⟨r, -, -, howned, rfl⟩ := updateWhere_cases hs
  · rw [hhit] at hmiss
    cases hmiss
  · exact ⟨_, rfl, of_decide_eq_true howned, hfuture⟩

theorem Holds.finish (h : s.Holds owner) (call : ℕ) : (s.finish call).Holds owner := h

theorem Inv.claimedBy_of_ownedBy (h : Inv s) (howner : owner ≠ "")
    (hmatch : s.lease.any (ownedBy owner) = true) : s.claimedBy = some owner := by
  obtain ⟨r, hlease, howned⟩ := (any_eq_true _ _).1 hmatch
  obtain rfl : r.ownerID = owner := of_decide_eq_true howned
  obtain ⟨hempty, -⟩ | hclaimed := h.named r hlease
  · exact absurd hempty howner
  · exact hclaimed

theorem Inv.enforced (h : Inv s) (ha : s.changesChannel a = some owner) :
    s.claimedBy = some owner := by
  unfold changesChannel at ha
  split at ha
  case h_3 => cases ha
  all_goals
    split at ha
    case h_2 => cases ha
    case h_1 owner' hcall =>
      cases ha
      obtain ⟨hne, -, -, hmatch⟩ := h.calls _ _ hcall
      exact h.claimedBy_of_ownedBy hne hmatch

theorem holds_of_returnsTrue (htime : s.inTime a = true) (ha : s.returnsTrue a = some owner)
    (hs : s.step a = some s') : s'.Holds owner := by
  unfold returnsTrue at ha
  split at ha
  case h_3 => cases ha
  case h_1 call =>
    split at ha
    case h_2 => cases ha
    case h_1 owner' ttl now hcall =>
      split_ifs at ha with hhit
      cases ha
      rw [step, hcall] at hs
      obtain ⟨s₁, hs₁, rfl⟩ := map_eq_some_iff.1 hs
      rw [inTime, hcall] at htime
      have hfuture : s.clock < addInt64 now ttl := by simpa [hhit] using htime
      exact (holds_of_claimUpdate hhit hfuture hs₁).finish call
  case h_2 call =>
    split at ha
    case h_2 => cases ha
    case h_1 owner' ttl now hcall =>
      cases ha
      rw [step, hcall] at hs
      obtain ⟨s₁, hs₁, rfl⟩ := map_eq_some_iff.1 hs
      rw [inTime, hcall] at htime
      rw [and_eq_true, decide_eq_true_eq] at htime
      exact (holds_of_renewUpdate htime.1 htime.2 hs₁).finish call

end Steps

/-- In every run whose writes come in time the lease is exclusive. -/
theorem exclusive_of_inTime {s : LeaseSystem} {l : List LeaseAction} (hclock : 0 ≤ s.clock)
    (hlease : s.lease = none) (hlocked : s.locked = none) (hcalls : s.calls = ∅)
    (hclaimed : s.claimedBy = none) (htime : Run.Along step (fun s a => s.inTime a = true) s l) :
    Run.Along step (fun s a => ∀ s', s.step a = some s' → Exclusive s a s') s l := by
  have hstart : Inv s := by
    refine ⟨hclock, ?_, ?_, ?_, ?_⟩
    · simp [hlease]
    · simp [hclaimed]
    · simp [hlocked]
    · simp [hcalls]
  refine Run.along_of_invariant (fun s a s' hs ha hstep => hs.step ha hstep) ?_ hstart htime
  intro s a hs ha s' hstep
  refine ⟨fun owner howner => holds_of_returnsTrue ha howner hstep, fun _ _ => Holds.unique, ?_⟩
  exact fun owner howner => hs.enforced howner

/-- A first owner that renews and enforces, and a second one that takes over from it. -/
def handover : List LeaseAction :=
  [.tick 1000, .startClaim 1 "first" 60, .createLease 1, .claimUpdate 1, .tick 30,
    .startRenew 2 "first" 60, .renewFirst 2, .tick 1, .renewUpdate 2, .startEnforce 3 "first",
    .enforceFirst 3, .enforceNow 3, .enforceRenew 3, .updateChannel 3, .tick 1, .commit 3, .tick 60,
    .startClaim 4 "second" 60, .createLease 4, .claimUpdate 4, .startEnforce 5 "first",
    .enforceFirst 5]

theorem exclusive_of_inTime_handover :
    (∃ s', Run.run step {} handover = some s' ∧ s'.claimedBy = some "second") ∧
      Run.Along step (fun s a => ∀ s', s.step a = some s' → Exclusive s a s') {} handover := by
  exact ⟨by decide +kernel, exclusive_of_inTime (le_refl 0) rfl rfl rfl rfl (by decide +kernel)⟩

/-- The first owner verifies its lease for a renewal and for an enforcement just before it expires, and
the second claims it before the writes. -/
def takenOver : List LeaseAction :=
  [.tick 1000, .startClaim 1 "first" 60, .createLease 1, .claimUpdate 1, .tick 59,
    .startRenew 2 "first" 60, .renewFirst 2, .startEnforce 3 "first", .enforceFirst 3, .tick 1,
    .startClaim 4 "second" 60, .createLease 4, .claimUpdate 4, .enforceNow 3, .enforceRenew 3]

/-- The renewal of the first owner returns true and its enforcement changes a channel, while the row
names the second. -/
theorem renews_after_takeover :
    ∃ s s' s'', Run.run step {} takenOver = some s ∧
      s.step (.renewUpdate 2) = some s' ∧ s.returnsTrue (.renewUpdate 2) = some "first" ∧
        ¬ s'.Holds "first" ∧
      s.step (.updateChannel 3) = some s'' ∧ s.changesChannel (.updateChannel 3) = some "first" ∧
        s.claimedBy = some "second" := by
  obtain ⟨s, hs, hreturns, hchanges, hclaimed, ⟨s', hs', hsecond⟩, hupdate⟩ :
      ∃ s, Run.run step {} takenOver = some s ∧ s.returnsTrue (.renewUpdate 2) = some "first" ∧
        s.changesChannel (.updateChannel 3) = some "first" ∧ s.claimedBy = some "second" ∧
        (∃ s', s.step (.renewUpdate 2) = some s' ∧ s'.lease.any (ownedBy "second") = true) ∧
        (s.step (.updateChannel 3)).isSome := by
    decide +kernel
  obtain ⟨s'', hs''⟩ := isSome_iff_exists.1 hupdate
  refine ⟨s, s', s'', hs, hs', hreturns, ?_, hs'', hchanges, hclaimed⟩
  rintro ⟨r, hr, howner, -⟩
  rw [hr, any_some, ownedBy, howner] at hsecond
  exact absurd hsecond (by decide)

end LeaseSystem

end BeeApi.IQTest
