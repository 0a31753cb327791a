import BeeApi.UserAuth.UserCache

/-!
# Rules for the store of users

The version that is published never exceeds the one in the database, and a fence is followed by its
publication or stays for its time.  So while a committed version is published or its fence lives, every
reader finds a floor that reaches it (`StoreOk.le_floor`).  Each statement has a rule for the programs
that begin with it.
-/

namespace BeeApi.UserAuth

open Interleaving Transaction List UserStore

/-! ## The invariant -/

/-- The version is published, or a fence for it has been written whose time is not over. -/
def UserStore.Protected (store : UserStore) (version : ℤ) : Prop :=
  version ≤ store.committed ∨ ∃ fence ∈ store.fences, version ≤ fence.1 ∧ store.clock ≤ fence.2

structure StoreOk (cacheTTL : ℤ) (first : ℤ) (store : UserStore) : Prop where
  published : ∀ version, store.version = some version → version ≤ store.row.authVersion
  cached : ∀ user expires, store.cache = some (user, expires) →
    user.authVersion ≤ store.row.authVersion
  rows : ∀ user ∈ store.rows, user.authVersion ≤ store.row.authVersion
  lifetime : ∀ fence ∈ store.fences, fence.2 ≤ store.clock + userAuthFenceTTLSeconds cacheTTL * 1000
  /-- A fence is published, or one that is not below it is there until its time is over. -/
  fenced : ∀ fence ∈ store.fences, store.clock ≤ fence.2 → fence.1 ≤ store.committed ∨
    ∃ value expires, store.fence = some (value, expires) ∧ fence.1 ≤ value ∧ fence.2 ≤ expires
  /-- The fence is at most one version ahead. -/
  ahead : ∀ value expires, store.fence = some (value, expires) →
    value ≤ max store.row.authVersion 1 + 1
  /-- The version in the database has been fenced. -/
  recorded : store.row.authVersion = first ∨ ∃ fence ∈ store.fences, fence.1 = store.row.authVersion

structure Later (store store' : UserStore) : Prop where
  clock : store.clock ≤ store'.clock
  row : store.row.authVersion ≤ store'.row.authVersion
  committed : store.committed ≤ store'.committed
  fences : ∀ fence ∈ store.fences, fence ∈ store'.fences

section Store

variable {cacheTTL first : ℤ} {store store' : UserStore}

theorem Later.refl (store : UserStore) : Later store store :=
  ⟨le_refl _, le_refl _, le_refl _, fun _ h => h⟩

theorem Later.trans {store'' : UserStore} (h : Later store store') (h' : Later store' store'') :
    Later store store'' :=
  ⟨h.clock.trans h'.clock, h.row.trans h'.row, h.committed.trans h'.committed,
    fun fence hf => h'.fences fence (h.fences fence hf)⟩

theorem live_eq_some_iff {α : Type} {key : Option (α × ℤ)} {value : α} :
    store.live key = some value ↔ ∃ expires, key = some (value, expires) ∧ store.clock ≤ expires := by
  unfold live
  cases key with
  | none => simp
  | some e =>
    obtain ⟨value', expires⟩ := e
    dsimp only
    split_ifs with halive
    · simp only [Option.some.injEq, Prod.mk.injEq]
      constructor
      · rintro rfl
        exact ⟨expires, ⟨rfl, rfl⟩, halive⟩
      · rintro ⟨_, ⟨rfl, rfl⟩, -⟩
        rfl
    · simp only [Option.some.injEq, Prod.mk.injEq, false_iff, not_exists, not_and]
      rintro _ ⟨rfl, rfl⟩
      exact halive

/-- The fence that a reader finds, or the published version, reaches every version that is
protected. -/
theorem StoreOk.le_floor (h : StoreOk cacheTTL first store) {version : ℤ}
    (hprotected : store.Protected version) :
    version ≤ max ((store.live store.fence).getD 0) store.committed := by
  obtain hcommitted | ⟨fence, hfence, hle, halive⟩ := hprotected
  · exact hcommitted.trans (le_max_right _ _)
  · obtain hcommitted | ⟨value, expires, hkey, hvalue, hexpires⟩ := h.fenced fence hfence halive
    · exact (hle.trans hcommitted).trans (le_max_right _ _)
    · have hlive : store.live store.fence = some value :=
        live_eq_some_iff.2 ⟨expires, hkey, halive.trans hexpires⟩
      rw [hlive]
      exact (hle.trans hvalue).trans (le_max_left _ _)

end Store

/-! ## The scripts -/

section Scripts

variable {cacheTTL first : ℤ} {store : UserStore}

theorem settle_committed (store : UserStore) (incoming : ℤ) :
    (store.settle incoming).committed = max store.committed incoming := by
  have hversion : (store.settle incoming).version =
      if store.committed < incoming then some incoming else store.version := rfl
  rw [committed, hversion]
  split_ifs with hlt
  · exact (max_eq_right hlt.le).symm
  · exact (max_eq_left (not_lt.1 hlt)).symm

theorem settle_fence (incoming : ℤ) {value expires : ℤ} (hkey : store.fence = some (value, expires))
    (halive : store.clock ≤ expires) :
    (store.settle incoming).fence = some (value, expires) ∨ value ≤ incoming := by
  have hlive : store.live store.fence = some value := live_eq_some_iff.2 ⟨expires, hkey, halive⟩
  have hpending : store.pending = value := by
    unfold pending
    rw [hlive]
    rfl
  unfold settle
  dsimp only
  split_ifs with hsettled
  · rw [hpending] at hsettled
    exact .inr hsettled.2
  · exact .inl hkey

section
variable (h : StoreOk cacheTTL first store)
include h

theorem settle_spec {incoming : ℤ} (hincoming : incoming ≤ store.row.authVersion) :
    StoreOk cacheTTL first (store.settle incoming) ∧ Later store (store.settle incoming) := by
  have hcommitted := settle_committed store incoming
  refine ⟨⟨?_, h.cached, h.rows, h.lifetime, ?_, ?_, h.recorded⟩,
    ⟨le_refl _, le_refl _, ?_, fun _ hf => hf⟩⟩
  · intro version hversion
    unfold settle at hversion
    dsimp only at hversion
    split_ifs at hversion
    · cases hversion
      exact hincoming
    · exact h.published version hversion
  · intro fence hfence halive
    rw [hcommitted]
    obtain hpublished | ⟨value, expires, hkey, hvalue, hexpires⟩ := h.fenced fence hfence halive
    · exact .inl (hpublished.trans (le_max_left _ _))
    · obtain hkept | hsettled := settle_fence incoming hkey (halive.trans hexpires)
      · exact .inr ⟨value, expires, hkept, hvalue, hexpires⟩
      · exact .inl ((hvalue.trans hsettled).trans (le_max_right _ _))
  · intro value expires hkey
    refine h.ahead value expires ?_
    unfold settle at hkey
    dsimp only at hkey
    split_ifs at hkey
    exact hkey
  · rw [hcommitted]
    exact le_max_left _ _

theorem writeCache_spec {user : UserBase} (huser : user.authVersion ≤ store.row.authVersion) :
    StoreOk cacheTTL first (store.writeCache cacheTTL user).1 ∧
      Later store (store.writeCache cacheTTL user).1 := by
  unfold writeCache
  dsimp only
  split_ifs
  · exact ⟨h, Later.refl store⟩
  · obtain ⟨hi, hlater⟩ := settle_spec h huser
    refine ⟨⟨hi.published, ?_, hi.rows, hi.lifetime, hi.fenced, hi.ahead, hi.recorded⟩,
      ⟨hlater.clock, hlater.row, hlater.committed, hlater.fences⟩⟩
    rintro _ _ ⟨⟩
    exact huser

theorem setFence_spec {expected : ℤ} (hexpected : expected ≤ store.row.authVersion) :
    StoreOk cacheTTL first (store.setFence cacheTTL (max expected 1 + 1)) ∧
      Later store (store.setFence cacheTTL (max expected 1 + 1)) ∧
      ((∃ fence ∈ (store.setFence cacheTTL (max expected 1 + 1)).fences,
          fence.1 = max expected 1 + 1) ∨ expected < store.row.authVersion) := by
  unfold setFence
  split_ifs with hle
  · have hold : ∀ fence ∈ store.fences, fence ∈ store.fences ++ [(max expected 1 + 1,
        store.clock + userAuthFenceTTLSeconds cacheTTL * 1000)] :=
      fun _ hf => mem_append_left _ hf
    have hnew : (max expected 1 + 1, store.clock + userAuthFenceTTLSeconds cacheTTL * 1000) ∈
        store.fences ++ [(max expected 1 + 1,
          store.clock + userAuthFenceTTLSeconds cacheTTL * 1000)] :=
      mem_append_right _ (mem_singleton_self _)
    refine ⟨⟨h.published, h.cached, h.rows, ?_, ?_, ?_, ?_⟩, ⟨le_refl _, le_refl _, le_refl _, hold⟩,
      .inl ⟨_, hnew, rfl⟩⟩
    · intro fence hfence
      obtain hfence | hfence := mem_append.1 hfence
      · exact h.lifetime fence hfence
      · obtain rfl := mem_singleton.1 hfence
        exact le_refl _
    · intro fence hfence halive
      obtain hfence | hfence := mem_append.1 hfence
      · obtain hpublished | ⟨value, expires, hkey, hvalue, hexpires⟩ := h.fenced fence hfence halive
        · exact .inl hpublished
        · have hlive : store.live store.fence = some value :=
            live_eq_some_iff.2 ⟨expires, hkey, le_trans halive hexpires⟩
          have hpending : store.pending = value := by
            unfold pending
            rw [hlive]
            rfl
          rw [hpending] at hle
          exact .inr ⟨_, _, rfl, hvalue.trans hle, h.lifetime fence hfence⟩
      · obtain rfl := mem_singleton.1 hfence
        exact .inr ⟨_, _, rfl, le_refl _, le_refl _⟩
    · rintro _ _ ⟨⟩
      exact Int.add_le_add_right (max_le_max_right 1 hexpected) 1
    · obtain hfirst | ⟨fence, hfence, hsame⟩ := h.recorded
      · exact .inl hfirst
      · exact .inr ⟨fence, hold fence hfence, hsame⟩
  · refine ⟨h, Later.refl store, .inr ?_⟩
    unfold pending at hle
    cases hlive : store.live store.fence with
    | none =>
      rw [hlive] at hle
      exact absurd (by dsimp only [Option.getD]; omega) hle
    | some value =>
      rw [hlive] at hle
      obtain ⟨expires, hkey, -⟩ := live_eq_some_iff.1 hlive
      have hahead := h.ahead value expires hkey
      dsimp only [Option.getD] at hle
      omega

theorem commit_spec {expected : ℤ}
    (hfenced : (∃ fence ∈ store.fences, fence.1 = max expected 1 + 1) ∨
      expected < store.row.authVersion) (columns : UserBase → UserBase) :
    StoreOk cacheTTL first (store.commit columns expected (max expected 1 + 1)).1 ∧
      Later store (store.commit columns expected (max expected 1 + 1)).1 ∧
      ((store.commit columns expected (max expected 1 + 1)).2 = true → max expected 1 + 1 ≤
        (store.commit columns expected (max expected 1 + 1)).1.row.authVersion) := by
  unfold commit
  split_ifs with hsame
  · have hraised : store.row.authVersion ≤ max expected 1 + 1 := by omega
    refine ⟨⟨fun version hv => (h.published version hv).trans hraised,
      fun user expires hc => (h.cached user expires hc).trans hraised, ?_, h.lifetime, h.fenced, ?_,
      ?_⟩, ⟨le_refl _, hraised, le_refl _, fun _ hf => hf⟩, fun _ => le_refl _⟩
    · intro user huser
      obtain huser | huser := mem_append.1 huser
      · exact (h.rows user huser).trans hraised
      · obtain rfl := mem_singleton.1 huser
        exact le_refl _
    · intro value expires hkey
      have hahead := h.ahead value expires hkey
      dsimp only
      omega
    · obtain hfence | hlt := hfenced
      · exact .inr hfence
      · exact absurd hsame hlt.ne'
  · exact ⟨h, Later.refl store, nofun⟩

theorem del_spec :
    StoreOk cacheTTL first { store with cache := none } ∧
      Later store { store with cache := none } :=
  ⟨⟨h.published, by simp, h.rows, h.lifetime, h.fenced, h.ahead, h.recorded⟩,
    ⟨le_refl _, le_refl _, le_refl _, fun _ hf => hf⟩⟩

end

end Scripts

/-! ## Rules for the statements -/

theorem rely {cacheTTL : ℤ} {I : UserStore → Prop} : Rely (userMachine cacheTTL) I Later where
  refl := Later.refl
  trans := Later.trans
  env _ time _ _ :=
    ⟨Int.le_add_of_nonneg_right (Int.natCast_nonneg time), le_refl _, le_refl _, fun _ hf => hf⟩

theorem storeOk_env {cacheTTL first : ℤ} (store : UserStore) (time : ℕ)
    (h : StoreOk cacheTTL first store) :
    StoreOk cacheTTL first ((userMachine cacheTTL).env store time) := by
  have hclock : store.clock ≤ store.clock + (time : ℤ) :=
    Int.le_add_of_nonneg_right (Int.natCast_nonneg time)
  exact ⟨h.published, h.cached, h.rows,
    fun fence hf => (h.lifetime fence hf).trans (Int.add_le_add_right hclock _),
    fun fence hf halive => h.fenced fence hf (hclock.trans halive), h.ahead, h.recorded⟩

abbrev Keeps {β : Type} (cacheTTL : ℤ) (I : UserStore → Prop) (Q : β → UserStore → Prop)
    (p : UserProg β) (store : UserStore) : Prop :=
  Guarantees (userMachine cacheTTL) I Later Q p store

section Reads

variable {β γ : Type} {cacheTTL : ℤ} {I : UserStore → Prop} {Q : β → UserStore → Prop}
  {store : UserStore}

theorem keeps_bind {Q' : γ → UserStore → Prop} {p : UserProg γ} {f : γ → UserProg β} (hi : I store)
    (hp : Keeps cacheTTL I Q' p store)
    (hf : ∀ c s, Later store s → I s → Q' c s → Keeps cacheTTL I Q (f c) s) :
    Keeps cacheTTL I Q (p >>= f) store :=
  Guarantees.bind rely hi hp hf

theorem keeps_first {f : Except String UserBase → UserProg β}
    (herror : ∀ e s, Later store s → I s → Keeps cacheTTL I Q (f (.error e)) s)
    (hok : ∀ s, Later store s → I s → Keeps cacheTTL I Q (f (.ok s.row)) s) :
    Keeps cacheTTL I Q (UserProg.first >>= f) store := by
  intro s o hs hi
  exact rely.withOutcome o hi ⟨hi, Later.refl s⟩ (fun e s₁ hs₁ => herror e s₁ (hs.trans hs₁))
    (hok s hs hi)

theorem keeps_quota {f : Except String ℤ → UserProg β}
    (h : ∀ res s, Later store s → I s → Keeps cacheTTL I Q (f res) s) :
    Keeps cacheTTL I Q (UserProg.quota >>= f) store := by
  intro s o hs hi
  exact rely.withOutcome o hi ⟨hi, Later.refl s⟩ (fun e s₁ hs₁ => h _ s₁ (hs.trans hs₁))
    (h _ s hs hi)

theorem keeps_active {f : Except String Unit → UserProg β}
    (h : ∀ res s, Later store s → I s → Keeps cacheTTL I Q (f res) s) :
    Keeps cacheTTL I Q (UserProg.active >>= f) store := by
  intro s o hs hi
  exact rely.withOutcome o hi ⟨hi, Later.refl s⟩ (fun e s₁ hs₁ => h _ s₁ (hs.trans hs₁))
    (h _ s hs hi)

theorem keeps_hGetAll {f : Except String (Option UserBase) → UserProg β}
    (herror : ∀ e s, Later store s → I s → Keeps cacheTTL I Q (f (.error e)) s)
    (hok : ∀ s, Later store s → I s → Keeps cacheTTL I Q (f (.ok (s.live s.cache))) s) :
    Keeps cacheTTL I Q (UserProg.hGetAll >>= f) store := by
  intro s o hs hi
  exact rely.withOutcome o hi ⟨hi, Later.refl s⟩ (fun e s₁ hs₁ => herror e s₁ (hs.trans hs₁))
    (hok s hs hi)

theorem keeps_mGet {f : Except String (Option ℤ × Option ℤ) → UserProg β}
    (herror : ∀ e s, Later store s → I s → Keeps cacheTTL I Q (f (.error e)) s)
    (hok : ∀ s, Later store s → I s → Keeps cacheTTL I Q (f (.ok (s.live s.fence, s.version))) s) :
    Keeps cacheTTL I Q (UserProg.mGet >>= f) store := by
  intro s o hs hi
  exact rely.withOutcome o hi ⟨hi, Later.refl s⟩ (fun e s₁ hs₁ => herror e s₁ (hs.trans hs₁))
    (hok s hs hi)

theorem keeps_old {i : ℕ} {f : Option UserBase → UserProg β}
    (h : ∀ s, Later store s → I s → Keeps cacheTTL I Q (f s.rows[i]?) s) :
    Keeps cacheTTL I Q (UserProg.old i >>= f) store :=
  fun s _ hs hi => ⟨hi, Later.refl s, h s hs hi⟩

end Reads

section Writes

variable {β : Type} {cacheTTL first : ℤ} {Q : β → UserStore → Prop} {store : UserStore}

theorem keeps_writeCache {user : UserBase} {f : Except String Bool → UserProg β}
    (huser : user.authVersion ≤ store.row.authVersion)
    (h : ∀ res s, Later store s → StoreOk cacheTTL first s →
      Keeps cacheTTL (StoreOk cacheTTL first) Q (f res) s) :
    Keeps cacheTTL (StoreOk cacheTTL first) Q (UserProg.writeCache user >>= f) store := by
  intro s o hs hi
  have hspec := writeCache_spec hi (huser.trans hs.row)
  exact rely.withOutcome o hi hspec (fun e s₁ hs₁ => h _ s₁ (hs.trans hs₁))
    (h _ _ (hs.trans hspec.2) hspec.1)

variable {f : Except String Unit → UserProg β}

theorem keeps_del (h : ∀ res s, Later store s → StoreOk cacheTTL first s →
      Keeps cacheTTL (StoreOk cacheTTL first) Q (f res) s) :
    Keeps cacheTTL (StoreOk cacheTTL first) Q (UserProg.del >>= f) store := by
  intro s o hs hi
  have hspec := del_spec hi
  exact rely.withOutcome o hi hspec (fun e s₁ hs₁ => h _ s₁ (hs.trans hs₁))
    (h _ _ (hs.trans hspec.2) hspec.1)

theorem keeps_publish {incoming : ℤ} (hincoming : incoming ≤ store.row.authVersion)
    (herror : ∀ e s, Later store s → StoreOk cacheTTL first s →
      Keeps cacheTTL (StoreOk cacheTTL first) Q (f (.error e)) s)
    (hok : ∀ s, Later store s → StoreOk cacheTTL first s → incoming ≤ s.committed →
      Keeps cacheTTL (StoreOk cacheTTL first) Q (f (.ok ())) s) :
    Keeps cacheTTL (StoreOk cacheTTL first) Q (UserProg.publish incoming >>= f) store := by
  intro s o hs hi
  have hspec := settle_spec hi (hincoming.trans hs.row)
  refine rely.withOutcome o hi hspec (fun e s₁ hs₁ => herror _ s₁ (hs.trans hs₁)) ?_
  refine hok _ (hs.trans hspec.2) hspec.1 ?_
  rw [settle_committed]
  exact le_max_right _ _

theorem keeps_setFence {expected : ℤ} (hexpected : expected ≤ store.row.authVersion)
    (herror : ∀ e s, Later store s → StoreOk cacheTTL first s →
      Keeps cacheTTL (StoreOk cacheTTL first) Q (f (.error e)) s)
    (hok : ∀ s, Later store s → StoreOk cacheTTL first s →
      ((∃ fence ∈ s.fences, fence.1 = max expected 1 + 1) ∨ expected < s.row.authVersion) →
      Keeps cacheTTL (StoreOk cacheTTL first) Q (f (.ok ())) s) :
    Keeps cacheTTL (StoreOk cacheTTL first) Q (UserProg.setFence (max expected 1 + 1) >>= f)
      store := by
  intro s o hs hi
  obtain ⟨hi', hs', hfenced⟩ := setFence_spec hi (hexpected.trans hs.row)
  refine rely.withOutcome o hi ⟨hi', hs'⟩ (fun e s₁ hs₁ => herror _ s₁ (hs.trans hs₁)) ?_
  exact hok _ (hs.trans hs') hi' (hfenced.imp_right fun h => h.trans_le hs'.row)

theorem keeps_commit {expected : ℤ} {columns : UserBase → UserBase}
    {f : Except String Bool → UserProg β}
    (hfenced : (∃ fence ∈ store.fences, fence.1 = max expected 1 + 1) ∨
      expected < store.row.authVersion)
    (herror : ∀ e s, Later store s → StoreOk cacheTTL first s →
      Keeps cacheTTL (StoreOk cacheTTL first) Q (f (.error e)) s)
    (hok : ∀ committed s, Later store s → StoreOk cacheTTL first s →
      (committed = true → max expected 1 + 1 ≤ s.row.authVersion) →
      Keeps cacheTTL (StoreOk cacheTTL first) Q (f (.ok committed)) s) :
    Keeps cacheTTL (StoreOk cacheTTL first) Q
      (UserProg.commit columns expected (max expected 1 + 1) >>= f) store := by
  intro s o hs hi
  have hfenced' : (∃ fence ∈ s.fences, fence.1 = max expected 1 + 1) ∨
      expected < s.row.authVersion := by
    obtain ⟨fence, hfence, hsame⟩ | hlt := hfenced
    · exact .inl ⟨fence, hs.fences fence hfence, hsame⟩
    · exact .inr (hlt.trans_le hs.row)
  obtain ⟨hi', hs', hcommitted⟩ := commit_spec hi hfenced' columns
  refine rely.withOutcome o hi ⟨hi', hs'⟩ (fun e s₁ hs₁ => herror _ s₁ (hs.trans hs₁)) ?_
  exact hok _ _ (hs.trans hs') hi' hcommitted

end Writes

end BeeApi.UserAuth
