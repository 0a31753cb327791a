import BeeApi.SensitiveAudit.Job

/-!
# A sensitive audit job takes effect once

The calls of any number of workers, one transaction after the other.  A completion applies its hits in
the step in which its job succeeds, a job that has succeeded or is dead stays so, and only the token of
the latest claim can change a job.
-/

namespace BeeApi.SensitiveAudit

open Transaction List Option Table Bool

/-! ## Interleavings -/

/-- A call of `CompleteSensitiveAuditJob` whose transaction has failed, before it looks the job up;
`committed` tells whether only the answer was lost. -/
structure FailedCompletion where
  jobID : String
  err : String
  committed : Bool

/-- The tables, the calls that are under way, and the claims that were granted, oldest first. -/
structure AuditSystem where
  db : AuditDb := {}
  failed : Table ℕ FailedCompletion := ∅
  claims : List (String × String) := []
  dumpClaims : List (String × String) := []

inductive AuditAction
  | insert (job : NewJob) (now : ℤ) (o : Outcome)
  | claim (c : ClaimRequest) (o : Outcome)
  | complete (call : ℕ) (c : Completion) (o : Outcome)
  | completeLookup (call : ℕ)
  | retry (r : Retry) (o : Outcome)
  | claimDump (c : DumpClaim) (o : Outcome)
  | completeDumpDeletion (jobID leaseToken : String) (now : ℤ) (o : Outcome)

def commits {α : Type} (res : Except String α) (o : Outcome) : Bool :=
  res.toOption.isSome && o ≠ .rolledBack

namespace AuditSystem

/-- The lease tokens of claims are new. -/
def step (s : AuditSystem) : AuditAction → Option AuditSystem
  | .insert job now o => some { s with db := (withOutcome o s.db (insertTx s.db job now)).1 }
  | .claim c o =>
    if c.leaseToken ∈ s.claims.map Prod.snd then none
    else
      some { s with
        db := (withOutcome o s.db (tryClaimTx s.db c)).1
        claims :=
          match tryClaimTx s.db c, o with
          | .ok (_, true), .reported | .ok (_, true), .unreported =>
            s.claims ++ [(c.jobID, c.leaseToken)]
          | _, _ => s.claims }
  | .complete call c o =>
    match c.check with
    | .error _ => some s
    | .ok () =>
      match withOutcome o s.db (completeTx s.db c) with
      | (db, .ok ()) => some { s with db }
      | (db, .error err) =>
        some { s with
          db
          failed := s.failed.put call
            { jobID := c.jobID, err := err, committed := commits (completeTx s.db c) o } }
  | .completeLookup call => (s.failed.get? call).map fun _ => { s with failed := s.failed.erase call }
  | .retry r o => some { s with db := (withOutcome o s.db (retryTx s.db r)).1 }
  | .claimDump c o =>
    if c.leaseToken ∈ s.dumpClaims.map Prod.snd then none
    else
      some { s with
        db := (withOutcome o s.db (tryClaimDumpTx s.db c)).1
        dumpClaims :=
          match tryClaimDumpTx s.db c, o with
          | .ok (_, true), .reported | .ok (_, true), .unreported =>
            s.dumpClaims ++ [(c.jobID, c.leaseToken)]
          | _, _ => s.dumpClaims }
  | .completeDumpDeletion jobID leaseToken now o =>
    some { s with db := (withOutcome o s.db (completeDumpDeletionTx s.db jobID leaseToken now)).1 }

def returns (s : AuditSystem) : AuditAction → Option (String × Except String Unit)
  | .complete _ c o =>
    match c.check with
    | .error err => some (c.jobID, .error err)
    | .ok () =>
      match withOutcome o s.db (completeTx s.db c) with
      | (_, .ok ()) => some (c.jobID, .ok ())
      | (_, .error _) => none
  | .completeLookup call =>
    (s.failed.get? call).map fun f => (f.jobID, SensitiveAudit.completeLookup s.db f.jobID f.err)
  | _ => none

/-! ## What a step writes -/

variable {db db' : AuditDb} {j₀ : String} {f : SensitiveAuditJobRecord → SensitiveAuditJobRecord}
  {job₀ : SensitiveAuditJobRecord}

theorem foldlM_recordHit_jobs {c : Completion} {l : List (SensitiveBlockLog × RuleVersion)}
    (h : l.foldlM (recordHit c) db = .ok db') : db'.jobs = db.jobs := by
  have hround : ∀ (d : AuditDb) hr (d' : AuditDb), d.jobs = db.jobs → recordHit c d hr = .ok d' →
      d'.jobs = db.jobs := by
    rintro d ⟨hit, rule⟩ d' hd hstep
    unfold recordHit at hstep
    dsimp only at hstep
    split_ifs at hstep
    rw [← Except.ok.inj hstep, ← hd]
  exact foldlM_invariant hround rfl h

theorem disableToken_jobs (db : AuditDb) (c : Completion) : (disableToken db c).1.jobs = db.jobs := by
  unfold disableToken
  split_ifs
  · cases (db.tokens.get? c.tokenID).filter (·.deletedAt.isNone) with
    | none => rfl
    | some token =>
      dsimp only
      split_ifs <;> rfl
  · rfl

theorem completeTx_spec {c : Completion} (h : completeTx db c = .ok (db', ())) :
    ∃ job, db.jobs.get? c.jobID = some job ∧ holds c.leaseToken job = true ∧
      db'.jobs = db.jobs.modify c.jobID (succeed c.now) := by
  unfold completeTx at h
  split_ifs at h with hheld
  dsimp only at h
  split at h
  · cases h
  · rename_i db₁ hfold
    have hjobs : db₁.jobs = db.jobs := (foldlM_recordHit_jobs hfold).trans (disableToken_jobs db c)
    split at h
    · cases h
    · rename_i jobs hupdate
      obtain ⟨job, hjob, hholds, hmodify⟩ := (updateRow_eq_some_iff _ _ _ _ _).1 hupdate
      cases h
      refine ⟨job, hjobs ▸ hjob, hholds, ?_⟩
      rw [hmodify, hjobs]

/-- Every hit is logged in a row of its own and counted at its rule. -/
structure Recorded (db : AuditDb) (hits : List SensitiveBlockLog) (rules : List RuleVersion)
    (db' : AuditDb) : Prop where
  logs : db'.blockLogs.rows.map Prod.snd = db.blockLogs.rows.map Prod.snd ++ hits
  counts : ∀ id word, db.words.get? id = some word → ∃ word', db'.words.get? id = some word' ∧
    word'.hitCount = word.hitCount + rules.countP (·.id = id)
  tokens : db'.tokens = db.tokens

theorem recorded_recordHit {c : Completion} {hit : SensitiveBlockLog} {rule : RuleVersion}
    (h : recordHit c db (hit, rule) = .ok db') : Recorded db [hit] [rule] db' := by
  unfold recordHit at h
  dsimp only at h
  split_ifs at h
  obtain rfl := Except.ok.inj h
  refine ⟨?_, fun id word hword => ?_, rfl⟩
  · rw [rows_put_of_none (get?_nextKey _), map_append]
    rfl
  · dsimp only
    rw [get?_modify, countP_singleton]
    split_ifs with hid hrule hrule
    · exact ⟨_, by rw [hword]; rfl, rfl⟩
    · exact absurd (decide_eq_true hid.symm) hrule
    · exact absurd (of_decide_eq_true hrule).symm hid
    · exact ⟨word, hword, (add_zero _).symm⟩

theorem Recorded.append {hits hits' : List SensitiveBlockLog} {rules rules' : List RuleVersion}
    {db₁ : AuditDb} (h : Recorded db hits rules db₁) (h' : Recorded db₁ hits' rules' db') :
    Recorded db (hits ++ hits') (rules ++ rules') db' := by
  refine ⟨by rw [h'.logs, h.logs, append_assoc], fun id word hword => ?_, h'.tokens.trans h.tokens⟩
  obtain ⟨word₁, hword₁, hcount₁⟩ := h.counts id word hword
  obtain ⟨word', hword', hcount⟩ := h'.counts id word₁ hword₁
  refine ⟨word', hword', ?_⟩
  rw [hcount, hcount₁, countP_append, Nat.cast_add, add_assoc]

theorem recorded_foldlM {c : Completion} {hits : List SensitiveBlockLog} {rules : List RuleVersion}
    (hlength : hits.length = rules.length)
    (h : (hits.zip rules).foldlM (recordHit c) db = .ok db') : Recorded db hits rules db' := by
  induction hits generalizing rules db with
  | nil =>
    obtain rfl := length_eq_zero_iff.1 hlength.symm
    obtain rfl := Except.ok.inj h
    exact ⟨(append_nil _).symm, fun id word hword => ⟨word, hword, (add_zero _).symm⟩, rfl⟩
  | cons hit hits ih =>
    cases rules with
    | nil => cases hlength
    | cons rule rules =>
      rw [zip_cons_cons, foldlM_cons] at h
      cases hfirst : recordHit c db (hit, rule) with
      | error e =>
        rw [hfirst] at h
        cases h
      | ok db₁ =>
        rw [hfirst] at h
        exact (recorded_recordHit hfirst).append (ih (Nat.succ.inj hlength) h)

theorem disableToken_spec (db : AuditDb) (c : Completion) :
    (disableToken db c).1.blockLogs = db.blockLogs ∧ (disableToken db c).1.words = db.words ∧
      ((disableToken db c).2 = c.hits ∨ ∃ there, (disableToken db c).2 = noteToken there c.hits) ∧
      ∀ token, db.tokens.get? c.tokenID = some token → token.deletedAt.isNone = true →
        c.hits.any (·.action = .block) = true → 0 < c.tokenID →
          (disableToken db c).1.tokens.get? c.tokenID = some { token with status := .disabled } := by
  unfold disableToken
  split_ifs with hblocks
  · cases htoken : (db.tokens.get? c.tokenID).filter (·.deletedAt.isNone) with
    | none =>
      refine ⟨rfl, rfl, .inr ⟨false, rfl⟩, fun token hget hlive => ?_⟩
      rw [hget, filter_some, if_pos hlive] at htoken
      cases htoken
    | some found =>
      have hget := (filter_eq_some_iff.1 htoken).1
      dsimp only
      split_ifs with hstatus
      · refine ⟨rfl, rfl, .inr ⟨true, rfl⟩, fun token htoken _ _ _ => ?_⟩
        rw [get?_modify_self, htoken]
        rfl
      · refine ⟨rfl, rfl, .inr ⟨true, rfl⟩, fun token htoken _ _ _ => ?_⟩
        cases hget.symm.trans htoken
        rw [hget, ← not_not.1 hstatus]
  · exact ⟨rfl, rfl, .inl rfl, fun _ _ _ hany hpos => absurd ⟨hany, hpos⟩ hblocks⟩

/-- A committed completion logs and counts each of its hits, and one that blocks leaves the token of the
request disabled, if it is still there. -/
theorem recorded_completeTx {c : Completion} (hcheck : c.check = .ok ())
    (h : completeTx db c = .ok (db', ())) :
    (∃ hits, (hits = c.hits ∨ ∃ there, hits = noteToken there c.hits) ∧
      db'.blockLogs.rows.map Prod.snd = db.blockLogs.rows.map Prod.snd ++ hits) ∧
    (∀ id word, db.words.get? id = some word → ∃ word', db'.words.get? id = some word' ∧
      word'.hitCount = word.hitCount + c.rules.countP (·.id = id)) ∧
    ∀ token, db.tokens.get? c.tokenID = some token → token.deletedAt.isNone = true →
      c.hits.any (·.action = .block) = true → 0 < c.tokenID →
        db'.tokens.get? c.tokenID = some { token with status := .disabled } := by
  obtain ⟨hlogs, hwords, hhits, htoken⟩ := disableToken_spec db c
  have hlength : (disableToken db c).2.length = c.rules.length := by
    unfold Completion.check at hcheck
    split_ifs at hcheck with _ hsame
    rcases hhits with heq | ⟨there, heq⟩
    · rw [heq]
      exact not_not.1 hsame
    · rw [heq, noteToken, length_map]
      exact not_not.1 hsame
  unfold completeTx at h
  split_ifs at h
  dsimp only at h
  split at h
  · cases h
  · rename_i db₁ hfold
    have hrecorded := recorded_foldlM hlength hfold
    split at h
    · cases h
    · cases h
      refine ⟨⟨_, hhits, ?_⟩, ?_, ?_⟩
      · rw [← hlogs]
        exact hrecorded.logs
      · rw [← hwords]
        exact hrecorded.counts
      · rw [show db₁.tokens = _ from hrecorded.tokens]
        exact htoken

theorem tryClaimTx_spec {c : ClaimRequest} {b : Bool} (h : tryClaimTx db c = .ok (db', b)) :
    b = false ∧ db' = db ∨ b = true ∧ c.leaseToken ≠ "" ∧
      ∃ job, db.jobs.get? c.jobID = some job ∧ c.takes job = true ∧
        db' = { db with jobs := db.jobs.modify c.jobID c.apply } := by
  unfold tryClaimTx at h
  split_ifs at h with hempty hlease
  split at h
  · rename_i jobs hupdate
    cases h
    obtain ⟨job, hjob, htakes, rfl⟩ := (updateRow_eq_some_iff _ _ _ _ _).1 hupdate
    exact .inr ⟨rfl, fun hne => hempty (.inr (.inr (.inr hne))), job, hjob, htakes, rfl⟩
  · cases h
    exact .inl ⟨rfl, rfl⟩

theorem tryClaimDumpTx_spec {c : DumpClaim} {b : Bool} (h : tryClaimDumpTx db c = .ok (db', b)) :
    b = false ∧ db' = db ∨ b = true ∧ ∃ job, db.jobs.get? c.jobID = some job ∧ c.takes job = true ∧
      db' = { db with jobs := db.jobs.modify c.jobID c.apply } := by
  unfold tryClaimDumpTx at h
  split_ifs at h
  split at h
  · rename_i jobs hupdate
    cases h
    obtain ⟨job, hjob, htakes, rfl⟩ := (updateRow_eq_some_iff _ _ _ _ _).1 hupdate
    exact .inr ⟨rfl, job, hjob, htakes, rfl⟩
  · cases h
    exact .inl ⟨rfl, rfl⟩

inductive Writes (s : AuditSystem) : AuditAction → AuditSystem → Prop
  | nothing {a s'} : s'.db = s.db → s'.claims = s.claims → s'.dumpClaims = s.dumpClaims →
      Writes s a s'
  | insert {job now o jobs} : s.db.jobs.insert? job.jobID (job.record now) = some jobs →
      Writes s (.insert job now o) { s with db := { s.db with jobs } }
  | claim {c : ClaimRequest} {o job} : c.leaseToken ∉ s.claims.map Prod.snd →
      s.db.jobs.get? c.jobID = some job → c.takes job = true → c.leaseToken ≠ "" →
      Writes s (.claim c o) { s with
        db := { s.db with jobs := s.db.jobs.modify c.jobID c.apply }
        claims := s.claims ++ [(c.jobID, c.leaseToken)] }
  | complete {call o s'} {c : Completion} {job} : c.check = .ok () →
      completeTx s.db c = .ok (s'.db, ()) → o ≠ .rolledBack →
      s.db.jobs.get? c.jobID = some job → holds c.leaseToken job = true →
      s'.db.jobs = s.db.jobs.modify c.jobID (succeed c.now) →
      s'.claims = s.claims → s'.dumpClaims = s.dumpClaims → Writes s (.complete call c o) s'
  | retry {r : Retry} {o job} : s.db.jobs.get? r.jobID = some job → holds r.leaseToken job = true →
      Writes s (.retry r o) { s with db := { s.db with jobs := s.db.jobs.modify r.jobID r.apply } }
  | claimDump {c : DumpClaim} {o job} : c.leaseToken ∉ s.dumpClaims.map Prod.snd →
      s.db.jobs.get? c.jobID = some job → c.takes job = true →
      Writes s (.claimDump c o) { s with
        db := { s.db with jobs := s.db.jobs.modify c.jobID c.apply }
        dumpClaims := s.dumpClaims ++ [(c.jobID, c.leaseToken)] }
  | deleteDump {jobID leaseToken now o job} : s.db.jobs.get? jobID = some job →
      job.dumpState = .deleting → job.dumpLeaseToken = leaseToken →
      Writes s (.completeDumpDeletion jobID leaseToken now o) { s with
        db := { s.db with
          jobs := s.db.jobs.modify jobID (SensitiveAudit.deleteDump now)
          blockLogs := s.db.blockLogs.updateWhere (fun _ log => log.auditJobId = some jobID)
            fun log => { log with dumpExists := false } } }

variable {s s' : AuditSystem} {a : AuditAction} {j : String} {job : SensitiveAuditJobRecord}

theorem writes_of_step (h : s.step a = some s') : Writes s a s' := by
  cases a with
  | insert job now o =>
    cases h
    refine withOutcome_fst_cases _ _ _ (.nothing rfl rfl rfl) fun db' u htx => ?_
    unfold insertTx at htx
    split_ifs at htx
    split at htx
    · cases htx
    · rename_i jobs hinsert
      cases htx
      exact .insert hinsert
  | claim c o =>
    unfold step at h
    dsimp only at h
    split_ifs at h with hfresh
    cases h
    cases htx : tryClaimTx s.db c with
    | error e => exact .nothing rfl rfl rfl
    | ok r =>
      obtain ⟨db, b⟩ := r
      rcases tryClaimTx_spec htx with ⟨rfl, rfl⟩ | ⟨rfl, hne, job, hjob, htakes, rfl⟩
      · cases o <;> exact .nothing rfl rfl rfl
      · cases o with
        | rolledBack => exact .nothing rfl rfl rfl
        | reported | unreported => exact .claim hfresh hjob htakes hne
  | complete call c o =>
    unfold step at h
    dsimp only at h
    split at h
    · cases h
      exact .nothing rfl rfl rfl
    · rename_i hcheck
      cases htx : completeTx s.db c with
      | error e =>
        rw [htx] at h
        cases h
        exact .nothing rfl rfl rfl
      | ok r =>
        obtain ⟨db, ⟨⟩⟩ := r
        obtain ⟨job, hjob, hholds, hjobs⟩ := completeTx_spec htx
        rw [htx] at h
        cases o with
        | rolledBack =>
          cases h
          exact .nothing rfl rfl rfl
        | reported | unreported =>
          cases h
          exact .complete hcheck htx (by decide) hjob hholds hjobs rfl rfl
  | completeLookup call =>
    obtain ⟨f, -, rfl⟩ := map_eq_some_iff.1 h
    exact .nothing rfl rfl rfl
  | retry r o =>
    cases h
    refine withOutcome_fst_cases _ _ _ (.nothing rfl rfl rfl) fun db' u htx => ?_
    unfold retryTx at htx
    split at htx
    · rename_i jobs hupdate
      obtain ⟨job, hjob, hholds, rfl⟩ := (updateRow_eq_some_iff _ _ _ _ _).1 hupdate
      cases htx
      exact .retry hjob hholds
    · split_ifs at htx
      cases htx
      exact .nothing rfl rfl rfl
  | claimDump c o =>
    unfold step at h
    dsimp only at h
    split_ifs at h with hfresh
    cases h
    cases htx : tryClaimDumpTx s.db c with
    | error e => exact .nothing rfl rfl rfl
    | ok r =>
      obtain ⟨db, b⟩ := r
      rcases tryClaimDumpTx_spec htx with ⟨rfl, rfl⟩ | ⟨rfl, job, hjob, htakes, rfl⟩
      · cases o <;> exact .nothing rfl rfl rfl
      · cases o with
        | rolledBack => exact .nothing rfl rfl rfl
        | reported | unreported => exact .claimDump hfresh hjob htakes
  | completeDumpDeletion jobID leaseToken now o =>
    cases h
    refine withOutcome_fst_cases _ _ _ (.nothing rfl rfl rfl) fun db' u htx => ?_
    unfold completeDumpDeletionTx at htx
    split at htx
    · cases htx
    · rename_i jobs hupdate
      obtain ⟨job, hjob, hdump, rfl⟩ := (updateRow_eq_some_iff _ _ _ _ _).1 hupdate
      cases htx
      rw [and_eq_true, decide_eq_true_eq, decide_eq_true_eq] at hdump
      exact .deleteDump hjob hdump.1 hdump.2

def LastClaim (claims : List (String × String)) (jobID token : String) : Prop :=
  ∃ i : ℕ, claims[i]? = some (jobID, token) ∧
    ∀ (k : ℕ) (token' : String), i < k → claims[k]? ≠ some (jobID, token')

/-- The claim of a token was followed by another one of its job. -/
def Superseded (claims : List (String × String)) (jobID token : String) : Prop :=
  ∃ (i k : ℕ) (token' : String), i < k ∧ claims[i]? = some (jobID, token) ∧
    claims[k]? = some (jobID, token')

section Claims

variable {claims : List (String × String)} {jobID token : String}

theorem LastClaim.not_superseded (h : LastClaim claims jobID token)
    (hnodup : (claims.map Prod.snd).Nodup) : ¬ Superseded claims jobID token := by
  rintro ⟨i, k, token', hik, hi, hk⟩
  obtain ⟨m, hm, hlast⟩ := h
  have hsame : i = m := by
    have hlt : i < (claims.map Prod.snd).length := by
      rw [length_map]
      exact (List.getElem?_eq_some_iff.1 hi).1
    refine (getElem?_inj hlt hnodup).1 ?_
    rw [getElem?_map, getElem?_map, hi, hm]
  exact hlast k token' (hsame ▸ hik) hk

theorem lastClaim_append (claims : List (String × String)) (jobID token : String) :
    LastClaim (claims ++ [(jobID, token)]) jobID token := by
  refine ⟨claims.length, getElem?_concat_length, fun k token' hk => ?_⟩
  rw [getElem?_eq_none (by rw [length_append, length_singleton]; omega)]
  exact nofun

theorem LastClaim.append (h : LastClaim claims jobID token) {jobID' : String} (hne : jobID ≠ jobID')
    (token' : String) : LastClaim (claims ++ [(jobID', token')]) jobID token := by
  obtain ⟨i, hi, hlast⟩ := h
  have hlt := (List.getElem?_eq_some_iff.1 hi).1
  refine ⟨i, by rwa [List.getElem?_append_left hlt], fun k token'' hk hget => ?_⟩
  by_cases hkl : k < claims.length
  · rw [getElem?_append_left hkl] at hget
    exact hlast k token'' hk hget
  · rw [getElem?_append_right (by omega), getElem?_singleton] at hget
    split_ifs at hget
    exact hne (Prod.mk.inj (some.inj hget)).1.symm

end Claims

/-! ## What holds in every state -/

structure Sound (s : AuditSystem) : Prop where
  claims : (s.claims.map Prod.snd).Nodup
  dumpClaims : (s.dumpClaims.map Prod.snd).Nodup
  held : ∀ j job, s.db.jobs.get? j = some job → job.status = .processing →
    LastClaim s.claims j job.leaseToken
  dumpHeld : ∀ j job, s.db.jobs.get? j = some job → job.dumpState = .deleting →
    LastClaim s.dumpClaims j job.dumpLeaseToken
  /-- The dump is touched only when the job has succeeded. -/
  dump : ∀ j job, s.db.jobs.get? j = some job → job.dumpState ≠ .ready → job.status = .succeeded
  /-- A completion whose answer was lost has made its job succeed. -/
  failed : ∀ call f, s.failed.get? call = some f → f.committed = true →
    isSucceeded s.db f.jobID = true

theorem isSucceeded_iff :
    isSucceeded db j = true ↔ ∃ job, db.jobs.get? j = some job ∧ job.status = .succeeded := by
  unfold isSucceeded
  cases db.jobs.get? j <;> simp

theorem holds_iff {token : String} :
    holds token job = true ↔ job.status = .processing ∧ job.leaseToken = token := by
  simp [holds]

theorem ClaimRequest.status_of_takes {c : ClaimRequest}
    (h : c.takes job = true) : job.status = .pending ∨ job.status = .processing := by
  simp only [ClaimRequest.takes, and_eq_true, or_eq_true, decide_eq_true_eq] at h
  exact h.2.imp And.left And.left

theorem DumpClaim.status_of_takes {c : DumpClaim}
    (h : c.takes job = true) : job.status = .succeeded := by
  simp only [DumpClaim.takes, and_eq_true, decide_eq_true_eq] at h
  exact h.1.1.2

theorem forall_get?_modify {P : String → SensitiveAuditJobRecord → Prop}
    {jobs : Table String SensitiveAuditJobRecord} (hjob₀ : jobs.get? j₀ = some job₀)
    (hone : P j₀ (f job₀)) (hother : ∀ j job, jobs.get? j = some job → j ≠ j₀ → P j job) :
    ∀ j job, (jobs.modify j₀ f).get? j = some job → P j job := by
  intro j job hjob
  rw [get?_modify] at hjob
  split_ifs at hjob with hj
  · subst hj
    rw [hjob₀] at hjob
    exact some.inj hjob ▸ hone
  · exact hother j job hjob hj

theorem final_of_modify {jobs : Table String SensitiveAuditJobRecord}
    (hjob₀ : jobs.get? j₀ = some job₀)
    (hjob : jobs.get? j = some job) (h : j = j₀ → job = job₀ → (f job).status = job.status) :
    ∃ job', (jobs.modify j₀ f).get? j = some job' ∧ job'.status = job.status := by
  rw [get?_modify]
  split_ifs with hj
  · subst hj
    rw [hjob]
    obtain rfl := some.inj (hjob.symm.trans hjob₀)
    exact ⟨f job, rfl, h rfl rfl⟩
  · exact ⟨job, hjob, rfl⟩

theorem final_of_writes (h : Writes s a s') (hjob : s.db.jobs.get? j = some job)
    (hstatus : job.status = .succeeded ∨ job.status = .dead) :
    ∃ job', s'.db.jobs.get? j = some job' ∧ job'.status = job.status := by
  have hnotProcessing : job.status ≠ .processing := by
    rcases hstatus with hstatus | hstatus <;> simp [hstatus]
  cases h with
  | nothing hdb => exact ⟨job, hdb ▸ hjob, rfl⟩
  | insert hinsert =>
    refine ⟨job, ?_, rfl⟩
    rw [get?_of_insert? hinsert]
    split_ifs with hj
    · subst hj
      rw [((insert?_eq_some_iff _ _ _ _).1 hinsert).1] at hjob
      cases hjob
    · exact hjob
  | claim _ hjob₀ htakes _ =>
    refine final_of_modify hjob₀ hjob fun _ hsame => ?_
    subst hsame
    rcases ClaimRequest.status_of_takes htakes with hpending | hprocessing
    · rw [hpending] at hstatus
      rcases hstatus with hstatus | hstatus <;> cases hstatus
    · exact absurd hprocessing hnotProcessing
  | complete _ _ _ hjob₀ hholds hjobs =>
    rw [hjobs]
    refine final_of_modify hjob₀ hjob fun _ hsame => ?_
    subst hsame
    exact absurd (holds_iff.1 hholds).1 hnotProcessing
  | retry hjob₀ hholds =>
    refine final_of_modify hjob₀ hjob fun _ hsame => ?_
    subst hsame
    exact absurd (holds_iff.1 hholds).1 hnotProcessing
  | claimDump _ hjob₀ | deleteDump hjob₀ => exact final_of_modify hjob₀ hjob fun _ _ => rfl

theorem isSucceeded_of_writes (h : Writes s a s')
    (hj : isSucceeded s.db j = true) : isSucceeded s'.db j = true := by
  obtain ⟨job, hjob, hstatus⟩ := isSucceeded_iff.1 hj
  obtain ⟨job', hjob', hsame⟩ := final_of_writes h hjob (.inl hstatus)
  exact isSucceeded_iff.2 ⟨job', hjob', hsame.trans hstatus⟩

theorem isSucceeded_of_completeTx {c : Completion} (h : completeTx db c = .ok (db', ())) :
    isSucceeded db' c.jobID = true := by
  obtain ⟨job, hjob, -, hjobs⟩ := completeTx_spec h
  refine isSucceeded_iff.2 ⟨succeed c.now job, ?_, rfl⟩
  rw [hjobs, get?_modify_self, hjob, map_some]

theorem failed_of_step (hs : Sound s) (h : s.step a = some s') :
    ∀ call f, s'.failed.get? call = some f → f.committed = true →
      isSucceeded s'.db f.jobID = true := by
  have hold : ∀ call f, s.failed.get? call = some f → f.committed = true →
      isSucceeded s'.db f.jobID = true := fun call f hf hcommitted =>
    isSucceeded_of_writes (writes_of_step h) (hs.failed call f hf hcommitted)
  cases a with
  | insert | retry | completeDumpDeletion =>
    cases h
    exact hold
  | claim | claimDump =>
    unfold step at h
    dsimp only at h
    split_ifs at h
    cases h
    exact hold
  | complete call₀ c o =>
    unfold step at h
    dsimp only at h
    split at h
    · cases h
      exact hold
    · split at h
      · cases h
        exact hold
      · rename_i db err hres
        cases h
        intro call f hf hcommitted
        rw [get?_put] at hf
        split_ifs at hf with hcall
        · cases hf
          rw [commits, and_eq_true, decide_eq_true_eq] at hcommitted
          cases htx : completeTx s.db c with
          | error e =>
            rw [htx] at hcommitted
            cases hcommitted.1
          | ok r =>
            obtain ⟨db₁, ⟨⟩⟩ := r
            rw [htx] at hres
            cases o with
            | reported => cases hres
            | rolledBack => exact absurd rfl hcommitted.2
            | unreported =>
              obtain ⟨rfl, -⟩ := Prod.mk.inj hres
              exact isSucceeded_of_completeTx htx
        · exact hold call f hf hcommitted
  | completeLookup call₀ =>
    obtain ⟨f₀, -, rfl⟩ := map_eq_some_iff.1 h
    intro call f hf
    rw [get?_erase] at hf
    split_ifs at hf
    exact hold call f hf

theorem nodup_append_claim {claims : List (String × String)} {jobID token : String}
    (h : (claims.map Prod.snd).Nodup) (hnew : token ∉ claims.map Prod.snd) :
    ((claims ++ [(jobID, token)]).map Prod.snd).Nodup := by
  rw [map_append, map_singleton]
  exact nodup_append.2 ⟨h, nodup_singleton _, fun a ha b hb => by
    rintro rfl
    rw [mem_singleton.1 hb] at ha
    exact hnew ha⟩

theorem Sound.step (hs : Sound s) (h : s.step a = some s') : Sound s' := by
  have hfailed := failed_of_step hs h
  cases writes_of_step h with
  | nothing hdb hclaims hdumpClaims =>
    exact ⟨hclaims ▸ hs.claims, hdumpClaims ▸ hs.dumpClaims, by rw [hdb, hclaims]; exact hs.held,
      by rw [hdb, hdumpClaims]; exact hs.dumpHeld, by rw [hdb]; exact hs.dump, hfailed⟩
  | @insert job now o jobs hinsert =>
    have hget : ∀ j row, jobs.get? j = some row →
        row = job.record now ∨ s.db.jobs.get? j = some row := by
      intro j row hrow
      rw [get?_of_insert? hinsert] at hrow
      split_ifs at hrow with hj
      · exact .inl (some.inj hrow).symm
      · exact .inr hrow
    refine ⟨hs.claims, hs.dumpClaims, fun j row hrow hstatus => ?_, fun j row hrow hstatus => ?_,
      fun j row hrow hne => ?_, hfailed⟩
    · rcases hget j row hrow with rfl | hold
      · cases hstatus
      · exact hs.held j row hold hstatus
    · rcases hget j row hrow with rfl | hold
      · cases hstatus
      · exact hs.dumpHeld j row hold hstatus
    · rcases hget j row hrow with rfl | hold
      · exact absurd rfl hne
      · exact hs.dump j row hold hne
  | @claim c o job hfresh hjob htakes _ =>
    refine ⟨nodup_append_claim hs.claims hfresh, hs.dumpClaims, ?_, ?_, ?_, hfailed⟩
    · refine forall_get?_modify hjob (fun _ => lastClaim_append _ _ _) fun j row hrow hne hstatus => ?_
      exact (hs.held j row hrow hstatus).append hne _
    · exact forall_get?_modify hjob (fun hdump => hs.dumpHeld c.jobID job hjob hdump)
        fun j row hrow _ => hs.dumpHeld j row hrow
    · refine forall_get?_modify hjob (fun hne => ?_) fun j row hrow _ => hs.dump j row hrow
      -- a job that is claimed has not succeeded, so its dump is untouched
      have hsucceeded := hs.dump c.jobID job hjob hne
      rcases ClaimRequest.status_of_takes htakes with hstatus | hstatus
      all_goals
        rw [hsucceeded] at hstatus
        cases hstatus
  | @complete call o s' c job _ _ _ hjob hholds hjobs hclaims hdumpClaims =>
    refine ⟨hclaims ▸ hs.claims, hdumpClaims ▸ hs.dumpClaims, ?_, ?_, ?_, hfailed⟩
    · rw [hjobs, hclaims]
      exact forall_get?_modify hjob nofun
        fun j row hrow _ => hs.held j row hrow
    · rw [hjobs, hdumpClaims]
      exact forall_get?_modify hjob (fun hdump => hs.dumpHeld c.jobID job hjob hdump)
        fun j row hrow _ => hs.dumpHeld j row hrow
    · rw [hjobs]
      exact forall_get?_modify hjob (fun _ => rfl) fun j row hrow _ => hs.dump j row hrow
  | @retry r o job hjob hholds =>
    refine ⟨hs.claims, hs.dumpClaims, ?_, ?_, ?_, hfailed⟩
    · refine forall_get?_modify hjob (fun hstatus => ?_) fun j row hrow _ => hs.held j row hrow
      unfold Retry.apply at hstatus
      split_ifs at hstatus
    · exact forall_get?_modify hjob (fun hdump => hs.dumpHeld r.jobID job hjob hdump)
        fun j row hrow _ => hs.dumpHeld j row hrow
    · refine forall_get?_modify hjob (fun hne => ?_) fun j row hrow _ => hs.dump j row hrow
      have hsucceeded := hs.dump r.jobID job hjob hne
      rw [(holds_iff.1 hholds).1] at hsucceeded
      cases hsucceeded
  | @claimDump c o job hfresh hjob htakes =>
    refine ⟨hs.claims, nodup_append_claim hs.dumpClaims hfresh, ?_, ?_, ?_, hfailed⟩
    · exact forall_get?_modify hjob (fun hstatus => hs.held c.jobID job hjob hstatus)
        fun j row hrow _ => hs.held j row hrow
    · refine forall_get?_modify hjob (fun _ => lastClaim_append _ _ _) fun j row hrow hne hstatus => ?_
      exact (hs.dumpHeld j row hrow hstatus).append hne _
    · have hsucceeded : job.status = .succeeded := DumpClaim.status_of_takes htakes
      exact forall_get?_modify hjob (fun _ => hsucceeded) fun j row hrow _ => hs.dump j row hrow
  | @deleteDump jobID leaseToken now o job hjob hdeleting _ =>
    refine ⟨hs.claims, hs.dumpClaims, ?_, ?_, ?_, hfailed⟩
    · exact forall_get?_modify hjob (fun hstatus => hs.held jobID job hjob hstatus)
        fun j row hrow _ => hs.held j row hrow
    · exact forall_get?_modify hjob nofun
        fun j row hrow _ => hs.dumpHeld j row hrow
    · refine forall_get?_modify hjob (fun _ => ?_) fun j row hrow _ => hs.dump j row hrow
      exact hs.dump jobID job hjob (by rw [hdeleting]; decide)

/-! ## What one step may do -/

/-- The records, the rules and the tokens, apart from the marks of deleted dumps. -/
def effects (db : AuditDb) :
    Table ℤ SensitiveBlockLog × Table ℤ SensitiveWord × Table ℤ AuditedToken :=
  (db.blockLogs.updateWhere (fun _ _ => true) fun log => { log with dumpExists := true }, db.words,
    db.tokens)

/-- The job and the token with which a worker completes or retries. -/
def jobToken : AuditAction → Option (String × String)
  | .complete _ c _ => some (c.jobID, c.leaseToken)
  | .retry r _ => some (r.jobID, r.leaseToken)
  | _ => none

/-- The job and the token with which a worker ends the deletion of a dump. -/
def dumpToken : AuditAction → Option (String × String)
  | .completeDumpDeletion jobID leaseToken _ _ => some (jobID, leaseToken)
  | _ => none

/-- A completion that names its job and its token and has a rule for every hit. -/
def isComplete : AuditAction → Bool
  | .complete _ c _ => c.isComplete
  | _ => true

structure StepOk (s : AuditSystem) (a : AuditAction) (s' : AuditSystem) : Prop where
  /-- Effects come with the step in which the job succeeds, and with no other. -/
  effects : effects s'.db = effects s.db ∧ (∀ j, isSucceeded s'.db j = isSucceeded s.db j) ∨
    ∃ call c o, a = .complete call c o ∧ completeTx s.db c = .ok (s'.db, ()) ∧
      isSucceeded s.db c.jobID = false ∧ isSucceeded s'.db c.jobID = true ∧
      ∀ j, j ≠ c.jobID → isSucceeded s'.db j = isSucceeded s.db j
  /-- A completion that does not commit, and one that reports a failure, has applied nothing. -/
  rolledBack : ∀ call c o, a = .complete call c o → commits (completeTx s.db c) o = false →
    s'.db = s.db
  failed : ∀ call f, a = .completeLookup call → s.failed.get? call = some f →
    completeLookup s.db f.jobID f.err ≠ .ok () → f.committed = false
  /-- A worker whose claim was followed by another one changes nothing. -/
  superseded : ∀ j token, jobToken a = some (j, token) → Superseded s.claims j token → s'.db = s.db
  dumpSuperseded : ∀ j token, dumpToken a = some (j, token) → Superseded s.dumpClaims j token →
    s'.db = s.db
  final : ∀ j job, s.db.jobs.get? j = some job → job.status = .succeeded ∨ job.status = .dead →
    ∃ job', s'.db.jobs.get? j = some job' ∧ job'.status = job.status
  dump : ∀ j job, s'.db.jobs.get? j = some job → job.dumpState ≠ .ready → job.status = .succeeded
  returns : ∀ j res, s.returns a = some (j, res) → isComplete a = true →
    (res = .ok () ↔ isSucceeded s'.db j = true)

theorem isSucceeded_modify (hjob₀ : db.jobs.get? j₀ = some job₀)
    (hjobs : db'.jobs = db.jobs.modify j₀ f) (j : String)
    (h : j = j₀ → ((f job₀).status = .succeeded ↔ job₀.status = .succeeded)) :
    isSucceeded db' j = isSucceeded db j := by
  unfold isSucceeded
  rw [hjobs, get?_modify]
  split_ifs with hj
  · rw [hj, hjob₀]
    simp [h hj]
  · rfl

theorem effects_of_writes (h : Writes s a s') :
    effects s'.db = effects s.db ∧ (∀ j, isSucceeded s'.db j = isSucceeded s.db j) ∨
    ∃ call c o, a = .complete call c o ∧ completeTx s.db c = .ok (s'.db, ()) ∧
      isSucceeded s.db c.jobID = false ∧ isSucceeded s'.db c.jobID = true ∧
      ∀ j, j ≠ c.jobID → isSucceeded s'.db j = isSucceeded s.db j := by
  cases h with
  | nothing hdb => exact .inl ⟨by rw [hdb], fun j => by rw [hdb]⟩
  | insert hinsert =>
    refine .inl ⟨rfl, fun j => ?_⟩
    unfold isSucceeded
    rw [get?_of_insert? hinsert]
    split_ifs with hj
    · rw [hj, ((insert?_eq_some_iff _ _ _ _).1 hinsert).1]
      rfl
    · rfl
  | claim _ hjob htakes _ =>
    refine .inl ⟨rfl, fun j => isSucceeded_modify hjob rfl j fun _ => ?_⟩
    rcases ClaimRequest.status_of_takes htakes with hstatus | hstatus <;>
      simp [ClaimRequest.apply, hstatus]
  | @complete call o s' c job _ htx _ hjob hholds hjobs _ _ =>
    refine .inr ⟨call, c, o, rfl, htx, ?_, isSucceeded_of_completeTx htx, fun j hj => ?_⟩
    · unfold isSucceeded
      rw [hjob]
      simp [(holds_iff.1 hholds).1]
    · exact isSucceeded_modify hjob hjobs j fun heq => absurd heq hj
  | retry hjob hholds =>
    refine .inl ⟨rfl, fun j => isSucceeded_modify hjob rfl j fun _ => ?_⟩
    rw [(holds_iff.1 hholds).1]
    unfold Retry.apply
    split_ifs <;> simp
  | claimDump _ hjob _ => exact .inl ⟨rfl, fun j => isSucceeded_modify hjob rfl j fun _ => .rfl⟩
  | deleteDump hjob _ _ =>
    refine .inl ⟨?_, fun j => isSucceeded_modify hjob rfl j fun _ => .rfl⟩
    refine Prod.ext (eq_of_rows_eq ?_) rfl
    simp only [effects, Table.updateWhere, List.map_map]
    refine List.map_congr_left fun e _ => ?_
    simp only [Function.comp_apply]
    split_ifs <;> rfl

theorem Sound.not_superseded {token : String}
    (hs : Sound s) (hjob : s.db.jobs.get? j = some job) (hholds : holds token job = true) :
    ¬ Superseded s.claims j token := by
  obtain ⟨hstatus, rfl⟩ := holds_iff.1 hholds
  exact (hs.held _ _ hjob hstatus).not_superseded hs.claims

theorem superseded_of_writes (hs : Sound s) (h : Writes s a s') :
    (∀ j token, jobToken a = some (j, token) → Superseded s.claims j token → s'.db = s.db) ∧
    ∀ j token, dumpToken a = some (j, token) → Superseded s.dumpClaims j token → s'.db = s.db := by
  cases h with
  | nothing hdb => exact ⟨fun _ _ _ _ => hdb, fun _ _ _ _ => hdb⟩
  | complete _ _ _ hjob hholds | retry hjob hholds =>
    refine ⟨fun j token hj hold => ?_, nofun⟩
    cases hj
    exact absurd hold (hs.not_superseded hjob hholds)
  | deleteDump hjob hdeleting htoken =>
    refine ⟨nofun, fun j token hj hold => ?_⟩
    cases hj
    have hlast := hs.dumpHeld _ _ hjob hdeleting
    rw [htoken] at hlast
    exact absurd hold (hlast.not_superseded hs.dumpClaims)
  | insert | claim | claimDump =>
    exact ⟨nofun, nofun⟩

theorem completeLookup_eq_ok_iff {err : String} :
    SensitiveAudit.completeLookup db j err = .ok () ↔ isSucceeded db j = true := by
  unfold SensitiveAudit.completeLookup
  split_ifs with h
  · exact ⟨fun _ => h, fun _ => rfl⟩
  · exact ⟨nofun, fun h' => absurd h' h⟩

theorem returns_iff (h : s.step a = some s')
    {res : Except String Unit} (hreturns : s.returns a = some (j, res)) (hcomplete : isComplete a = true) :
    res = .ok () ↔ isSucceeded s'.db j = true := by
  cases a with
  | complete call c o =>
    unfold returns at hreturns
    unfold step at h
    dsimp only at h hreturns
    have hcheck : c.check = .ok () := by
      simp only [isComplete, Completion.isComplete, and_eq_true, decide_eq_true_eq] at hcomplete
      unfold Completion.check
      rw [if_neg (by
        rintro (hj | ht)
        · exact hcomplete.1.1 hj
        · exact hcomplete.1.2 ht), if_neg (not_not.2 hcomplete.2)]
    rw [hcheck] at h hreturns
    cases hres : withOutcome o s.db (completeTx s.db c) with
    | mk db r =>
      rw [hres] at h hreturns
      cases r with
      | error e => cases hreturns
      | ok u =>
        cases hreturns
        cases h
        exact ⟨fun _ => isSucceeded_of_completeTx (eq_ok_of_withOutcome hres), fun _ => rfl⟩
  | completeLookup call =>
    obtain ⟨f, hf, rfl⟩ := map_eq_some_iff.1 h
    obtain ⟨f', hf', hres⟩ := map_eq_some_iff.1 hreturns
    cases hf.symm.trans hf'
    cases hres
    exact completeLookup_eq_ok_iff
  | insert | claim | retry | claimDump | completeDumpDeletion => cases hreturns

theorem stepOk (hs : Sound s) (h : s.step a = some s') : StepOk s a s' := by
  have hwrites := writes_of_step h
  obtain ⟨hsuperseded, hdumpSuperseded⟩ := superseded_of_writes hs hwrites
  constructor
  · exact effects_of_writes hwrites
  · rintro call c o rfl hrolled
    cases hwrites with
    | nothing hdb => exact hdb
    | complete _ htx ho =>
      rw [commits, htx] at hrolled
      simp [ho, Except.toOption] at hrolled
  · rintro call f rfl hf hfails
    rw [Ne, completeLookup_eq_ok_iff] at hfails
    exact eq_false_iff.2 fun hcommitted => hfails (hs.failed call f hf hcommitted)
  · exact hsuperseded
  · exact hdumpSuperseded
  · exact fun j job hjob hstatus => final_of_writes hwrites hjob hstatus
  · exact (hs.step h).dump
  · exact fun j res hreturns hcomplete => returns_iff h hreturns hcomplete

/-! ## Runs -/

def applied (j : String) (s : AuditSystem) (a : AuditAction) (_ : AuditSystem) : ℤ :=
  match a with
  | .complete _ c o =>
    if c.jobID = j ∧ c.check.isOk ∧ commits (completeTx s.db c) o = true then 1 else 0
  | _ => 0

theorem applied_of_step (h : s.step a = some s') (j : String) : applied j s a s' = 0 ∨
      applied j s a s' = 1 ∧ ¬ isSucceeded s.db j = true ∧ isSucceeded s'.db j = true := by
  cases a with
  | complete call c o =>
    unfold applied
    dsimp only
    split_ifs with happlied
    · obtain ⟨rfl, hcheck, hcommits⟩ := happlied
      refine .inr ⟨rfl, ?_⟩
      have hcheck' : c.check = .ok () := by
        cases hc : c.check with
        | error e =>
          rw [hc] at hcheck
          cases hcheck
        | ok u => rfl
      rw [commits, and_eq_true, decide_eq_true_eq] at hcommits
      cases htx : completeTx s.db c with
      | error e =>
        rw [htx] at hcommits
        cases hcommits.1
      | ok r =>
        obtain ⟨db, ⟨⟩⟩ := r
        obtain ⟨job, hjob, hholds, -⟩ := completeTx_spec htx
        have hdb : s'.db = db := by
          unfold step at h
          dsimp only at h
          rw [hcheck', htx] at h
          cases o with
          | rolledBack => exact absurd rfl hcommits.2
          | reported | unreported => exact (congrArg AuditSystem.db (some.inj h)).symm
        refine ⟨?_, hdb ▸ isSucceeded_of_completeTx htx⟩
        rw [isSucceeded_iff]
        rintro ⟨job', hjob', hsucceeded⟩
        cases hjob.symm.trans hjob'
        rw [(holds_iff.1 hholds).1] at hsucceeded
        cases hsucceeded
    · exact .inl rfl
  | insert | claim | completeLookup | retry | claimDump | completeDumpDeletion => exact .inl rfl

theorem Sound.start (hjobs : s.db.jobs = ∅) (hfailed : s.failed = ∅)
    (hclaims : s.claims = []) (hdumpClaims : s.dumpClaims = []) : Sound s := by
  have hnone : ∀ j job, s.db.jobs.get? j ≠ some job := by
    intro j job
    rw [hjobs, get?_empty]
    exact nofun
  refine ⟨by simp [hclaims], by simp [hdumpClaims], fun j job hjob => absurd hjob (hnone j job),
    fun j job hjob => absurd hjob (hnone j job), fun j job hjob => absurd hjob (hnone j job),
    fun call f hf => ?_⟩
  rw [hfailed, get?_empty] at hf
  cases hf

/-- In every run a job takes effect at most once, and every step keeps to its rules. -/
theorem takes_effect_once {s s' : AuditSystem} {l : List AuditAction} (hjobs : s.db.jobs = ∅)
    (hfailed : s.failed = ∅) (hclaims : s.claims = []) (hdumpClaims : s.dumpClaims = [])
    (h : Run.run step s l = some s') :
    (∀ j, Run.total step (applied j) s l ≤ 1) ∧
      Run.Along step (fun s a => ∀ s', s.step a = some s' → StepOk s a s') s l := by
  refine ⟨fun j => ?_, ?_⟩
  · have hclosed : ∀ (s : AuditSystem) a s', isSucceeded s.db j = true → step s a = some s' →
        isSucceeded s'.db j = true :=
      fun s a s' hs hstep => isSucceeded_of_writes (writes_of_step hstep) hs
    exact Run.total_le_one hclosed (fun s a s' hstep => applied_of_step hstep j) h
  · have hany : Run.Along step (fun _ _ => True) s l := Run.along_of_forall fun _ _ => trivial
    exact Run.along_of_invariant (I := Sound) (fun s a s' hs _ hstep => hs.step hstep)
      (fun s a hs _ s' hstep => stepOk hs hstep)
      (Sound.start hjobs hfailed hclaims hdumpClaims) hany

def oneRule : AuditSystem where
  db :=
    { words := ⟨[(3, { pattern := "secret" })], by decide⟩
      tokens := ⟨[(5, {})], by decide⟩ }

def oneCompletion : Completion where
  jobID := "job"
  leaseToken := "second"
  tokenID := 5
  hits := [{ auditJobId := some "job", matchedWordId := 3 }]
  rules := [{ id := 3, pattern := "secret", isRegex := false, action := .block, updatedAt := 0 }]
  now := 80

def oneClaim (leaseToken : String) (now : ℤ) : ClaimRequest where
  jobID := "job"
  storageNode := "n"
  leaseOwner := "worker"
  leaseToken := leaseToken
  now := now
  leaseUntil := now + 10

def oneJob : NewJob where
  jobID := "job"
  storageNode := "n"
  dumpPath := "/dump"
  bodySHA256 := "hash"
  bodySize := 1
  createdAt := 1

/-- The first worker loses its lease to a second one, whose completion is told twice. -/
def takeover : List AuditAction :=
  [.insert oneJob 1 .unreported, .claim (oneClaim "first" 2) .reported,
    .claim (oneClaim "second" 50) .reported,
    .complete 1 { oneCompletion with leaseToken := "first" } .reported,
    .complete 2 oneCompletion .unreported, .completeLookup 2, .completeLookup 1]

theorem takes_effect_once_takeover :
    ∃ s', Run.run step oneRule takeover = some s' ∧
      (∀ j, Run.total step (applied j) oneRule takeover ≤ 1) ∧
      Run.Along step (fun s a => ∀ s', s.step a = some s' → StepOk s a s') oneRule takeover := by
  exact exists_some_imp (p := fun _ => True) (by decide +kernel) fun s' h _ =>
    takes_effect_once rfl rfl rfl rfl h

/-- A call without a rule for its hit returns an error although the job has succeeded. -/
theorem rejects_after_success :
    ∃ s', Run.run step oneRule takeover = some s' ∧ isSucceeded s'.db "job" = true ∧
      ∃ res, returns s' (.complete 3 { oneCompletion with rules := [] } .reported) =
        some ("job", res) ∧ res.toOption = none := by
  refine exists_some_imp (p := fun s' => isSucceeded s'.db "job" = true ∧
    ∃ r, returns s' (.complete 3 { oneCompletion with rules := [] } .reported) = some r ∧
      r.1 = "job" ∧ r.2.toOption.isNone) (by decide +kernel) ?_
  rintro s' - ⟨hsucceeded, ⟨_, res⟩, hreturns, rfl, hres⟩
  exact ⟨hsucceeded, res, hreturns, isNone_iff_eq_none.1 hres⟩

end AuditSystem

end BeeApi.SensitiveAudit
