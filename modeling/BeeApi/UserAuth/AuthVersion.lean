import BeeApi.UserAuth.UserRules

/-!
# The cache of users never serves an outdated authorisation

Each function keeps the store in order, whatever runs beside it.  A reader that starts after a version
has been committed returns nothing older, as long as the version is published or its fence lives
(`serves_committed_version`).
-/

namespace BeeApi.UserAuth

open Interleaving Transaction UserStore

/-! ## The functions -/

section Functions

variable {cacheTTL first : ℤ} {store : UserStore}

theorem requireActiveOrInvalidate_keeps :
    Keeps cacheTTL (StoreOk cacheTTL first) (fun _ _ => True) requireActiveOrInvalidate store := by
  unfold requireActiveOrInvalidate
  refine keeps_active fun res s _ _ => ?_
  cases res with
  | ok u => exact fun _ _ _ => trivial
  | error e =>
    refine keeps_del fun res s₁ _ _ => ?_
    cases res <;> exact fun _ _ _ => trivial

theorem writeUserAuthCache_keeps {user : UserBase}
    (huser : user.authVersion ≤ store.row.authVersion) :
    Keeps cacheTTL (StoreOk cacheTTL first) (fun _ _ => True) (writeUserAuthCache user) store := by
  unfold writeUserAuthCache
  split_ifs
  · exact fun _ _ _ => trivial
  · refine keeps_writeCache huser fun res s _ _ => ?_
    match res with
    | .error e => exact fun _ _ _ => trivial
    | .ok false => exact fun _ _ _ => trivial
    | .ok true => exact fun _ _ _ => trivial

theorem updateUserCache_keeps {user : UserBase} (hi : StoreOk cacheTTL first store)
    (huser : user.authVersion ≤ store.row.authVersion) :
    Keeps cacheTTL (StoreOk cacheTTL first) (fun _ _ => True) (updateUserCache user) store := by
  unfold updateUserCache
  refine keeps_bind hi requireActiveOrInvalidate_keeps fun res s hs hi _ => ?_
  cases res with
  | error e => exact fun _ _ _ => trivial
  | ok u =>
    refine keeps_bind hi (writeUserAuthCache_keeps (huser.trans hs.row)) fun res s₁ _ _ _ => ?_
    cases res with
    | error e => exact fun _ _ _ => trivial
    | ok u => exact requireActiveOrInvalidate_keeps

theorem publishUserAuthCache_keeps {version : ℤ} (hversion : version ≤ store.row.authVersion) :
    Keeps cacheTTL (StoreOk cacheTTL first) (fun res s => res = .ok () → version ≤ s.committed)
      publishUserAuthCache store := by
  have herror : ∀ {e : String} {s : UserStore}, Keeps cacheTTL (StoreOk cacheTTL first)
      (fun (res : Except String Unit) s => res = .ok () → version ≤ s.committed)
      (pure (.error e)) s := fun _ _ _ h => (nomatch h)
  unfold publishUserAuthCache
  refine keeps_first (fun e s _ _ => herror) fun s hs hi => ?_
  dsimp only
  unfold publishCommittedUserAuthVersion
  split_ifs
  · exact herror
  · refine keeps_publish (le_refl _) (fun e s₁ _ _ => herror) fun s₁ hs₁ hi₁ hcommitted => ?_
    have hle : version ≤ s₁.committed := (hversion.trans hs.row).trans hcommitted
    refine Guarantees.conseq ((updateUserCache_keeps hi₁ hs₁.row).since rely (Later.refl s₁)) ?_
    exact fun _ s₂ _ h _ => hle.trans h.2.committed

theorem incrementUserAuthVersionWithTx_keeps (columns : UserBase → UserBase) (rounds : ℕ) :
    Keeps cacheTTL (StoreOk cacheTTL first)
      (fun res s => ∀ next, res = .ok next → next ≤ s.row.authVersion)
      (incrementUserAuthVersionWithTx columns rounds) store := by
  have herror : ∀ {e : String} {s : UserStore}, Keeps cacheTTL (StoreOk cacheTTL first)
      (fun (res : Except String ℤ) s => ∀ next, res = .ok next → next ≤ s.row.authVersion)
      (pure (.error e)) s := fun _ _ _ _ h => (nomatch h)
  induction rounds generalizing store with
  | zero => exact herror
  | succ rounds ih =>
    unfold incrementUserAuthVersionWithTx
    refine keeps_first (fun e s _ _ => herror) fun s hs hi => ?_
    dsimp only
    have hnext : (if s.row.authVersion < 1 then 1 else s.row.authVersion) + 1 =
        max s.row.authVersion 1 + 1 := by
      split_ifs <;> omega
    rw [hnext]
    unfold setUserAuthVersionFence
    rw [if_neg (by omega)]
    refine keeps_setFence (le_refl _) (fun e s₁ _ _ => herror) fun s₁ hs₁ hi₁ hfenced => ?_
    refine keeps_commit hfenced (fun e s₂ _ _ => herror) fun committed s₂ hs₂ hi₂ hcommitted => ?_
    cases committed with
    | false => exact ih
    | true =>
      refine fun s₃ hs₃ _ next h => ?_
      cases h
      exact (hcommitted rfl).trans hs₃.row

/-- A record is not newer than the database, and reaches `version` where the call is late; a bump
that succeeds is published. -/
def Answers (late : Prop) (version : ℤ) (res : UserResult) (store : UserStore) : Prop :=
  match res with
  | .got user => user.authVersion ≤ store.row.authVersion ∧ (late → version ≤ user.authVersion)
  | .bumped next none => next ≤ store.committed
  | _ => True

variable {late : Prop} {version : ℤ}

theorem bumpWithColumns_keeps (hi : StoreOk cacheTTL first store) (columns : UserBase → UserBase) :
    Keeps cacheTTL (StoreOk cacheTTL first) (Answers late version) (bumpWithColumns columns)
      store := by
  unfold bumpWithColumns
  refine keeps_bind hi (incrementUserAuthVersionWithTx_keeps columns 3) fun res s hs hi hres => ?_
  cases res with
  | error e => exact fun _ _ _ => trivial
  | ok next =>
    refine keeps_bind hi (publishUserAuthCache_keeps (hres next rfl)) fun res s₁ _ _ hpublished => ?_
    cases res with
    | error e => exact fun _ _ _ => trivial
    | ok u => exact fun s₂ hs₂ _ => (hpublished rfl).trans hs₂.committed

theorem publish_keeps (hi : StoreOk cacheTTL first store) :
    Keeps cacheTTL (StoreOk cacheTTL first) (Answers late version) UserCall.publish.program
      store := by
  refine keeps_bind hi (publishUserAuthCache_keeps (le_refl _)) fun res s _ _ _ => ?_
  cases res <;> exact fun _ _ _ => trivial

theorem userCacheRefill_keeps (i : ℕ) :
    Keeps cacheTTL (StoreOk cacheTTL first) (Answers late version) (userCacheRefill i) store := by
  unfold userCacheRefill
  refine keeps_old fun s _ hi => ?_
  cases hold : s.rows[i]? with
  | none => exact fun _ _ _ => trivial
  | some user =>
    have huser := hi.rows user (List.mem_of_getElem? hold)
    refine keeps_bind hi (updateUserCache_keeps hi huser) fun res s₁ _ _ _ => ?_
    cases res <;> exact fun _ _ _ => trivial

/-! ### Readers -/

section Readers

variable {I : UserStore → Prop} (hI : ∀ s, I s → StoreOk cacheTTL first s)
include hI

theorem getUserAuthVersionFloor_keeps (hprotected : late → ∀ s, I s → s.Protected version) :
    Keeps cacheTTL I (fun res _ => late → ∀ floor, res = .ok floor → version ≤ floor)
      getUserAuthVersionFloor store := by
  unfold getUserAuthVersionFloor
  refine keeps_mGet (fun e s _ _ => fun _ _ _ _ _ h => (nomatch h)) fun s _ hi => ?_
  refine fun _ _ _ hlate floor h => ?_
  cases h
  refine ((hI s hi).le_floor (hprotected hlate s hi)).trans ?_
  exact max_le_max_right _ (le_max_right _ _)

theorem cacheGetUserBase_keeps (hprotected : late → ∀ s, I s → s.Protected version) :
    Keeps cacheTTL I (fun res s => ∀ user, res = .ok user →
        user.authVersion ≤ s.row.authVersion ∧ (late → version ≤ user.authVersion))
      cacheGetUserBase store := by
  have herror : ∀ {e : String} {s : UserStore}, Keeps cacheTTL I
      (fun (res : Except String UserBase) s => ∀ user, res = .ok user →
        user.authVersion ≤ s.row.authVersion ∧ (late → version ≤ user.authVersion))
      (pure (.error e)) s := fun _ _ _ _ h => (nomatch h)
  unfold cacheGetUserBase
  refine keeps_hGetAll (fun e s _ _ => herror) fun s _ hi => ?_
  cases hlive : s.live s.cache with
  | none => exact herror
  | some userCache =>
    obtain ⟨expires, hcache, -⟩ := live_eq_some_iff.1 hlive
    have hcached := (hI s hi).cached userCache expires hcache
    dsimp only
    split_ifs
    · exact herror
    · refine keeps_bind hi (getUserAuthVersionFloor_keeps hI hprotected) fun res s₁ hs₁ _ hfloor => ?_
      cases res with
      | error e => exact herror
      | ok floor =>
        dsimp only
        split_ifs with hbelow
        · exact herror
        · refine fun s₂ hs₂ _ user h => ?_
          cases h
          refine ⟨hcached.trans (hs₁.row.trans hs₂.row), fun hlate => ?_⟩
          exact (hfloor hlate floor rfl).trans (not_lt.1 hbelow)

/-- A reader returns nothing older than a version that was committed before and stays protected. -/
theorem getUserCache_keeps (hi : I store) (hprotected : late → ∀ s, I s → s.Protected version)
    (hcommitted : late → version ≤ store.row.authVersion) :
    Keeps cacheTTL I (Answers late version) getUserCache store := by
  unfold getUserCache
  refine keeps_bind hi (cacheGetUserBase_keeps hI hprotected) fun res s hs hi hres => ?_
  cases res with
  | ok userCache =>
    obtain ⟨hle, hreaches⟩ := hres userCache rfl
    refine keeps_quota fun res s₁ hs₁ _ => ?_
    cases res with
    | error e => exact fun _ _ _ => trivial
    | ok quota => exact fun s₂ hs₂ _ => ⟨hle.trans (hs₁.row.trans hs₂.row), hreaches⟩
  | error e =>
    refine keeps_first (fun e s₁ _ _ => fun _ _ _ => trivial) fun s₁ hs₁ hi₁ => ?_
    have hreaches : late → version ≤ s₁.row.authVersion := fun hlate =>
      (hcommitted hlate).trans (hs.row.trans hs₁.row)
    have hgot : ∀ s₂, Later s₁ s₂ →
        Keeps cacheTTL I (Answers late version) (pure (.got s₁.row)) s₂ :=
      fun s₂ hs₂ s₃ hs₃ _ => ⟨hs₂.row.trans hs₃.row, hreaches⟩
    refine keeps_bind hi₁ (getUserAuthVersionFloor_keeps hI hprotected) fun res s₂ hs₂ _ _ => ?_
    cases res with
    | error e => exact hgot s₂ hs₂
    | ok floor =>
      dsimp only
      split_ifs
      · exact fun _ _ _ => trivial
      · exact hgot s₂ hs₂

end Readers

end Functions

/-! ## Runs -/

abbrev UserThreads : Type := Threads UserOp UserOp.Res UserStore UserResult

def noCalls (clock : ℤ) (row : UserBase) : UserThreads where
  shared := { clock, row }

/-- A call that has committed the version, or a later one, has succeeded, or a fence for it has been
written whose time is not over. -/
def protects (version : ℤ) (s : UserThreads) : Bool :=
  (s.threads.rows.any fun e =>
      match e.2.result? with
      | some (.bumped next none) => version ≤ next
      | _ => false) ||
    s.shared.fences.any fun fence => version ≤ fence.1 && s.shared.clock ≤ fence.2

/-- An entry of the cache that lives on does not get an older version. -/
def KeepsEntry (store store' : UserStore) : Prop :=
  ∀ user user', store.live store.cache = some user → store'.live store'.cache = some user' →
    user.authVersion ≤ user'.authVersion

section Runs

variable {cacheTTL first clock : ℤ} {row : UserBase} {store : UserStore}

theorem noCalls_ok : StoreOk cacheTTL row.authVersion (noCalls clock row).shared where
  published _ h := (nomatch h)
  cached _ _ h := (nomatch h)
  rows user h := by
    obtain rfl := List.mem_singleton.1 h
    exact le_refl _
  lifetime _ h := (nomatch h)
  fenced _ h := (nomatch h)
  ahead _ _ h := (nomatch h)
  recorded := .inl rfl

theorem exec_clock (o : Outcome) (op : UserOp) :
    (store.exec cacheTTL o op).1.clock = store.clock := by
  cases op with
  | writeCache user =>
    cases o <;> dsimp only [exec, withOutcome, writeCache] <;> split_ifs <;> rfl
  | setFence incoming =>
    cases o <;> dsimp only [exec, withOutcome, setFence] <;> split_ifs <;> rfl
  | commit columns expected next =>
    cases o <;> dsimp only [exec, withOutcome, commit] <;> split_ifs <;> rfl
  | _ => cases o <;> rfl

theorem keepsEntry_of_eq {store' : UserStore} (hclock : store'.clock = store.clock)
    (hcache : store'.cache = store.cache) : KeepsEntry store store' := by
  intro user user' h h'
  unfold live at h h'
  rw [hclock, hcache] at h'
  cases h.symm.trans h'
  exact le_refl _

theorem keepsEntry_writeCache (user : UserBase) :
    KeepsEntry store (store.writeCache cacheTTL user).1 := by
  intro old new hold hnew
  unfold writeCache at hnew
  dsimp only at hnew
  split_ifs at hnew with hrejected
  · cases hold.symm.trans hnew
    exact le_refl _
  · obtain ⟨expires, hcache, -⟩ := live_eq_some_iff.1 hnew
    cases hcache
    rw [hold] at hrejected
    dsimp only [Option.map, Option.getD] at hrejected
    omega

theorem keepsEntry_exec (o : Outcome) (op : UserOp) :
    KeepsEntry store (store.exec cacheTTL o op).1 := by
  have hsame : KeepsEntry store store := keepsEntry_of_eq rfl rfl
  cases op with
  | writeCache user =>
    cases o with
    | rolledBack => exact hsame
    | reported | unreported => exact keepsEntry_writeCache user
  | del =>
    cases o with
    | rolledBack => exact hsame
    | reported | unreported => exact fun _ _ _ h => (nomatch h)
  | setFence incoming =>
    refine keepsEntry_of_eq (exec_clock o _) ?_
    cases o <;> dsimp only [exec, withOutcome, setFence] <;> split_ifs <;> rfl
  | commit columns expected next =>
    refine keepsEntry_of_eq (exec_clock o _) ?_
    cases o <;> dsimp only [exec, withOutcome, commit] <;> split_ifs <;> rfl
  | _ => cases o <;> exact hsame

variable {s : UserThreads} {version : ℤ}

theorem keepsEntry_of_step {s' : UserThreads} {a : ThreadAction Outcome ℕ UserCall}
    (h : (userMachine cacheTTL).step s a = some s') : KeepsEntry s.shared s'.shared := by
  cases a with
  | env time =>
    cases h
    intro user user' hlive hlive'
    obtain ⟨expires, hcache, -⟩ := live_eq_some_iff.1 hlive
    obtain ⟨expires', hcache', -⟩ := live_eq_some_iff.1 hlive'
    cases hcache.symm.trans hcache'
    exact le_refl _
  | start call f =>
    dsimp only [Machine.step] at h
    split_ifs at h
    cases h
    exact keepsEntry_of_eq rfl rfl
  | advance call o =>
    dsimp only [Machine.step] at h
    split at h
    · cases h
      exact keepsEntry_exec o _
    · cases h

theorem program_keeps {late : Prop} (f : UserCall) (hf : f ≠ .get)
    (hi : StoreOk cacheTTL first store) :
    Keeps cacheTTL (StoreOk cacheTTL first) (Answers late version) f.program store := by
  cases f with
  | bump => exact bumpWithColumns_keeps hi id
  | updateRoleStatus role status => exact bumpWithColumns_keeps hi _
  | publish => exact publish_keeps hi
  | get => exact absurd rfl hf
  | refill i => exact userCacheRefill_keeps i

theorem protected_exec (o : Outcome) (op : UserOp) (h : store.Protected version)
    (hlater : Later store (store.exec cacheTTL o op).1) :
    (store.exec cacheTTL o op).1.Protected version := by
  obtain hcommitted | ⟨fence, hfence, hle, halive⟩ := h
  · exact .inl (hcommitted.trans hlater.committed)
  · exact .inr ⟨fence, hlater.fences fence hfence, hle, by rwa [exec_clock]⟩

/-- A call that has succeeded has published its version. -/
theorem protected_of_protects {I : UserStore → Prop} {Q : ℕ → UserResult → UserStore → Prop}
    {store' : UserStore} (hs : Guarded (userMachine cacheTTL) I Later Q s)
    (hQ : ∀ call next store, Q call (.bumped next none) store → next ≤ store.committed)
    (hcommitted : s.shared.committed ≤ store'.committed)
    (h : protects version { s with shared := store' } = true) : store'.Protected version := by
  obtain hcall | hfence := Bool.or_eq_true_iff.1 h
  · obtain ⟨⟨call, p⟩, hp, hres⟩ := List.any_eq_true.1 hcall
    split at hres
    · next next hresult =>
      have hget : s.threads.get? call = some p := (Table.get?_eq_some_iff _ _ _).2 hp
      have hpublished := hQ call next _ (hs.of_result rely hget hresult)
      exact .inl ((of_decide_eq_true hres).trans (hpublished.trans hcommitted))
    · cases hres
  · obtain ⟨fence, hmem, hlive⟩ := List.any_eq_true.1 hfence
    rw [Bool.and_eq_true, decide_eq_true_eq, decide_eq_true_eq] at hlive
    exact .inr ⟨fence, hmem, hlive⟩

/-- No program is started before it is known to keep its part. -/
theorem guarded_of_run (version : ℤ) {l : List (ThreadAction Outcome ℕ UserCall)}
    (h : Run.run (userMachine cacheTTL).step (noCalls clock row) l = some s) :
    Guarded (userMachine cacheTTL) (StoreOk cacheTTL row.authVersion) Later
      (fun _ => Answers False version) s := by
  have hnone : Guarded (userMachine cacheTTL) (StoreOk cacheTTL row.authVersion) Later
      (fun _ => Answers False version) (noCalls clock row) := by
    refine ⟨noCalls_ok, fun call p hp => ?_⟩
    rw [noCalls, Table.get?_empty] at hp
    cases hp
  have hstart : ∀ (_ : ℕ) (f : UserCall) s, StoreOk cacheTTL row.authVersion s → True →
      Keeps cacheTTL (StoreOk cacheTTL row.authVersion) (Answers False version) f.program s := by
    intro _ f s hi _
    by_cases hf : f = .get
    · obtain rfl := hf
      exact getUserCache_keeps (fun _ h => h) hi False.elim False.elim
    · exact program_keeps f hf hi
  exact (hnone.run_of_env rely storeOk_env (fun _ _ _ _ => trivial) hstart trivial h).1

/-- A reader that starts after a version was committed returns nothing older, as long as the version
is protected. -/
theorem late_reader {s₁ s₂ : UserThreads} {l₁ l₂ : List (ThreadAction Outcome ℕ UserCall)}
    (h₁ : Run.run (userMachine cacheTTL).step (noCalls clock row) l₁ = some s₁)
    (h₂ : Run.run (userMachine cacheTTL).step s₁ l₂ = some s₂)
    (hcommitted : version ≤ s₁.shared.row.authVersion) (hprotects : protects version s₁ = true)
    (halong : Run.Along (userMachine cacheTTL).step
      (fun s a => ((userMachine cacheTTL).step s a).all (protects version) = true) s₁ l₂) {call : ℕ}
    {p : UserProg UserResult} {user : UserBase} (hnew : s₁.threads.get? call = none)
    (hp : s₂.threads.get? call = some p) (huser : p.result? = some (.got user)) :
    version ≤ user.authVersion := by
  have hs₁ := guarded_of_run version h₁
  have hQ : ∀ {late : Prop} (next : ℤ) (store : UserStore),
      Answers late version (.bumped next none) store → next ≤ store.committed := fun _ _ h => h
  have hprotected := protected_of_protects hs₁ (fun _ => hQ) (le_refl _) hprotects
  let I : UserStore → Prop := fun store =>
    StoreOk cacheTTL row.authVersion store ∧ store.Protected version
  have hI : ∀ s, I s → StoreOk cacheTTL row.authVersion s := fun _ h => h.1
  have hstrengthen : ∀ {Q : UserResult → UserStore → Prop} {p : UserProg UserResult}
      {s : UserStore}, Keeps cacheTTL (StoreOk cacheTTL row.authVersion) Q p s →
        Keeps cacheTTL I Q p s :=
    fun hkeeps => hkeeps.strengthen fun _ o op _ hj _ hlater => protected_exec o op hj hlater
  -- From here on every new reader is late.
  have hlate : Guarded (userMachine cacheTTL) I Later
      (fun call => Answers (s₁.threads.get? call = none) version) s₁ := by
    refine ⟨⟨hs₁.inv, hprotected⟩, fun call p hp => hstrengthen ?_⟩
    refine (hs₁.threads call p hp).conseq fun res s _ h => ?_
    cases res with
    | got user =>
      refine ⟨h.1, fun hn => ?_⟩
      rw [hp] at hn
      cases hn
    | bumped next error =>
      cases error with
      | none => exact h
      | some e => trivial
    | published | error => trivial
  have hstart : ∀ call (f : UserCall) s, I s → version ≤ s.row.authVersion →
      Keeps cacheTTL I (Answers (s₁.threads.get? call = none) version) f.program s := by
    intro call f s hi hle
    by_cases hf : f = .get
    · obtain rfl := hf
      exact getUserCache_keeps hI hi (fun _ _ h => h.2) fun _ => hle
    · exact hstrengthen (program_keeps f hf hi.1)
  have henv : ∀ (s : UserThreads) (time : ℕ), Guarded (userMachine cacheTTL) I Later
      (fun call => Answers (s₁.threads.get? call = none) version) s →
      ((userMachine cacheTTL).step s (.env time)).all (protects version) = true →
      I ((userMachine cacheTTL).env s.shared time) := by
    intro s time hs hok
    refine ⟨storeOk_env _ time hs.inv.1, protected_of_protects hs (fun _ => hQ) (le_refl _) ?_⟩
    exact hok
  obtain ⟨hs₂, -⟩ := hlate.run rely (fun _ _ hle hs => hle.trans hs.row) hstart henv hcommitted
    halong h₂
  exact (hs₂.of_result rely hp huser).2 hnew

/-- A reader that starts after a version was committed returns an error or a record that reaches it, as
long as the version is protected; an entry that lives on does not get older; nothing is newer than the
database, whose version has been fenced. -/
theorem serves_committed_version {s₁ s₂ : UserThreads}
    {l₁ l₂ : List (ThreadAction Outcome ℕ UserCall)}
    (h₁ : Run.run (userMachine cacheTTL).step (noCalls clock row) l₁ = some s₁)
    (h₂ : Run.run (userMachine cacheTTL).step s₁ l₂ = some s₂) :
    (∀ version, version ≤ s₁.shared.row.authVersion → protects version s₁ = true →
      Run.Along (userMachine cacheTTL).step
        (fun s a => ((userMachine cacheTTL).step s a).all (protects version) = true) s₁ l₂ →
      ∀ call p user, s₁.threads.get? call = none → s₂.threads.get? call = some p →
        p.result? = some (.got user) → version ≤ user.authVersion) ∧
    Run.Along (userMachine cacheTTL).step (fun s a => ∀ s', (userMachine cacheTTL).step s a = some s' →
      KeepsEntry s.shared s'.shared) (noCalls clock row) l₁ ∧
    (∀ call p user, s₁.threads.get? call = some p → p.result? = some (.got user) →
      user.authVersion ≤ s₁.shared.row.authVersion) ∧
    (∀ user expires, s₁.shared.cache = some (user, expires) →
      user.authVersion ≤ s₁.shared.row.authVersion) ∧
    (∀ version, s₁.shared.version = some version → version ≤ s₁.shared.row.authVersion) ∧
    (s₁.shared.row.authVersion = row.authVersion ∨
      ∃ fence ∈ s₁.shared.fences, fence.1 = s₁.shared.row.authVersion) := by
  have hs₁ := guarded_of_run 0 h₁
  refine ⟨fun version hcommitted hprotects halong call p user hnew hp huser => ?_, ?_, ?_,
    hs₁.inv.cached, hs₁.inv.published, hs₁.inv.recorded⟩
  · exact late_reader h₁ h₂ hcommitted hprotects halong hnew hp huser
  · have hany : Run.Along (userMachine cacheTTL).step (fun _ _ => True) (noCalls clock row) l₁ :=
      Run.along_of_forall fun _ _ => trivial
    exact Run.along_of_invariant (I := fun _ => True) (fun _ _ _ _ _ _ => trivial)
      (fun s a _ _ s' hstep => keepsEntry_of_step hstep) trivial hany
  · exact fun call p user hp huser => (hs₁.of_result rely hp huser).1

end Runs

def advances (call steps : ℕ) : List (ThreadAction Outcome ℕ UserCall) :=
  List.replicate steps (.advance call .reported)

/-- The cache holds the first version when a bump commits the second one. -/
def unpublishedBump : List (ThreadAction Outcome ℕ UserCall) :=
  [.start 0 .publish] ++ advances 0 5 ++ [.start 1 (.updateRoleStatus 10 2)] ++ advances 1 3

def earlyReader : List (ThreadAction Outcome ℕ UserCall) :=
  [.start 2 .get] ++ advances 2 4 ++ [.env 1000] ++ advances 1 5

theorem serves_committed_version_earlyReader :
    ∃ s₁ s₂ p user, Run.run (userMachine 60).step (noCalls 0 {}) unpublishedBump = some s₁ ∧
      Run.run (userMachine 60).step s₁ earlyReader = some s₂ ∧ s₁.shared.row.authVersion = 2 ∧
      s₂.threads.get? 2 = some p ∧ p.result? = some (.got user) ∧ 2 ≤ user.authVersion := by
  obtain ⟨s₁, h₁, hversion, hprotects, hnew, halong, s₂, h₂, p, hp, hresult⟩ :
      ∃ s₁, Run.run (userMachine 60).step (noCalls 0 {}) unpublishedBump = some s₁ ∧
        s₁.shared.row.authVersion = 2 ∧ protects 2 s₁ = true ∧ (s₁.threads.get? 2).isNone = true ∧
        Run.Along (userMachine 60).step
          (fun s a => ((userMachine 60).step s a).all (protects 2) = true) s₁ earlyReader ∧
        ∃ s₂, Run.run (userMachine 60).step s₁ earlyReader = some s₂ ∧
          ∃ p, s₂.threads.get? 2 = some p ∧
            p.result? = some (.got { role := 10, status := 2, authVersion := 2 }) := by
    decide +kernel
  exact ⟨s₁, s₂, p, _, h₁, h₂, hversion, hp, hresult,
    (serves_committed_version h₁ h₂).1 2 hversion.ge hprotects halong 2 p _
      (Option.isNone_iff_eq_none.1 hnew) hp hresult⟩

end BeeApi.UserAuth
