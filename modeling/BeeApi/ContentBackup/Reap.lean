import BeeApi.ContentBackup.Lease
import BeeApi.ContentBackup.Path

/-!
# The incoming reaper

`pkg/contentbackupworker/reap.go`: a pass lists the temp objects of a shard, then asks the database for
the tokens of the jobs, then removes the temps that no token names.  An upload writes its temp with the
lease that `Claim` has returned.  Between the steps of a pass anything may happen, but a lease that was
lost stays lost.
-/

namespace BeeApi.ContentBackup

open Transaction List Option Table

/-! ## A pass -/

def incomingOrphanAge : ℤ := 24 * 3600

def incomingReapAfterUpload : ℤ := 600

def ftpsTempSuffix : String := ".uploading"

/-- `IncomingTemp`; there may be no timestamp. -/
structure IncomingTemp where
  jobID : String
  token : String
  modTime : Option ℤ
deriving DecidableEq

/-- The temp objects of the backup server, with the modification times that it reports. -/
abbrev Temps := Table (IncomingDirectory × String) ℤ

/-- `sftpEntryModTime`: a time that is not positive is none. -/
def sftpEntryModTime (unixSeconds : ℤ) : Option ℤ :=
  if 0 < unixSeconds then some unixSeconds else none

def listIncoming (temps : Temps) (dir : IncomingDirectory) : List IncomingTemp :=
  temps.rows.filterMap fun e =>
    if e.1.1 = dir then
      (parseTempName e.1.2 ftpsTempSuffix).map fun parsed =>
        { jobID := parsed.1, token := parsed.2, modTime := sftpEntryModTime e.2 }
    else none

/-- What a pass looks at before it lists: the state of the uploader and its configuration. -/
structure ReapConfig where
  stopped : Bool := false
  uploadPaused : Bool := false
  targetID : String
  lastPutOK : ℤ

def reapAllowed (cfg : ReapConfig) (now : ℤ) : Bool :=
  !cfg.stopped && !cfg.uploadPaused && cfg.targetID ≠ "" && cfg.lastPutOK ≠ 0 &&
    now - cfg.lastPutOK ≤ incomingReapAfterUpload

def staleTemps (now : ℤ) (temps : List IncomingTemp) : List IncomingTemp :=
  temps.filter fun temp =>
    match temp.modTime with
    | none => false
    | some modTime => incomingOrphanAge ≤ now - modTime

/-- A pass that has listed its shard: the temps that it may remove, the jobs it has not asked for yet,
and the tokens it knows. -/
structure ReapCall where
  siteID : String
  stale : List IncomingTemp
  unread : List String
  current : Table String String := ∅

/-- `ReapIncomingShard` up to the listing; a pass with nothing to remove ends there. -/
def beginReap (temps : Temps) (cfg : ReapConfig) (siteID shard : String) (now : ℤ) :
    Option ReapCall :=
  if reapAllowed cfg now then
    match incomingShardDir siteID shard with
    | .error _ => none
    | .ok dir =>
      let stale := staleTemps now (listIncoming temps dir)
      if stale = [] then none else some { siteID, stale, unread := stale.map IncomingTemp.jobID }
  else none

/-- One query of `CurrentLeaseTokens`, for the next chunk of jobs. -/
def readTokens (db : ContentBackupDb) (c : ReapCall) : ReapCall :=
  let chunk := c.unread.take contentBackupIDChunk.toNat
  { c with
    unread := c.unread.drop contentBackupIDChunk.toNat
    current := chunk.foldl (fun current jobID =>
      match currentLeaseTokens db c.siteID chunk jobID with
      | some token => current.put jobID token
      | none => current) c.current }

/-- The reaper keeps the temps that a token names. -/
def isCurrent (c : ReapCall) (temp : IncomingTemp) : Bool :=
  (c.current.get? temp.jobID).getD "" = temp.token

inductive Removal
  /-- The temp is gone, and the server says so. -/
  | removed
  /-- The server refuses. -/
  | refused
  /-- The temp is gone and the connection fails. -/
  | unreported
deriving DecidableEq

/-- `RemoveIncoming`: the temps afterwards, and whether it has failed. -/
def removeIncoming (r : Removal) (temps : Temps) (siteID : String) (temp : IncomingTemp) :
    Temps × Bool :=
  if matchesLeaseToken temp.token then
    match tempRemotePath siteID temp.jobID temp.token ftpsTempSuffix with
    | .error _ => (temps, true)
    | .ok path =>
      match r with
      | .removed => (temps.erase path, false)
      | .refused => (temps, true)
      | .unreported => (temps.erase path, true)
  else (temps, true)

/-! ## The system -/

/-- The database, the leases that `Claim` has returned, the temps on the server, and the passes that
have listed. -/
structure ReapWorld where
  store : World := {}
  leases : List ContentBackupLease := []
  temps : Temps := ∅
  reaps : Table ℕ ReapCall := ∅

inductive ReapLabel
  | store (a : Label)
  /-- An upload writes its temp, for the first time or again. -/
  | putTemp (lease : ContentBackupLease) (modTime : ℤ)
  /-- A temp goes: it is renamed into the archive, discarded, or swept by the next upload. -/
  | dropTemp (path : IncomingDirectory × String)
  | list (call : ℕ) (cfg : ReapConfig) (siteID shard : String) (now : ℤ)
  | query (call : ℕ)
  /-- The next temp of the loop over the shuffled temps. -/
  | remove (call : ℕ) (temp : IncomingTemp) (r : Removal)
  /-- A pass ends early. -/
  | abandon (call : ℕ)

def leaseOf (w : World) : Label → Option ContentBackupLease
  | .claim o siteID jobID storageNodeID owner token now untilUnix =>
    (claim o w.db siteID jobID storageNodeID owner token now untilUnix).2.toOption.join
  | _ => none

def reapStep (w : ReapWorld) : ReapLabel → Option ReapWorld
  | .store a =>
    (step w.store a).map fun store =>
      { w with store, leases := (leaseOf w.store a).toList ++ w.leases }
  | .putTemp lease modTime =>
    if lease ∈ w.leases ∧ matchesLeaseToken lease.token = true then
      match tempRemotePath lease.siteID lease.jobID lease.token ftpsTempSuffix with
      | .error _ => none
      | .ok path => some { w with temps := w.temps.put path modTime }
    else none
  | .dropTemp path => some { w with temps := w.temps.erase path }
  | .list call cfg siteID shard now =>
    (beginReap w.temps cfg siteID shard now).map fun c => { w with reaps := w.reaps.put call c }
  | .query call =>
    (w.reaps.get? call).map fun c =>
      { w with reaps := w.reaps.put call (readTokens w.store.db c) }
  | .remove call temp r =>
    match w.reaps.get? call with
    | none => none
    | some c =>
      if c.unread ≠ [] ∨ temp ∉ c.stale then none
      else
        let rest := { c with stale := c.stale.erase temp }
        if isCurrent c temp then some { w with reaps := w.reaps.put call rest }
        else
          let res := removeIncoming r w.temps c.siteID temp
          some
            { w with
              temps := res.1
              reaps := if res.2 then w.reaps.erase call else w.reaps.put call rest }
  | .abandon call => some { w with reaps := w.reaps.erase call }

/-! ## Queries -/

theorem get?_foldl_put_match (f : String → Option String) (jobIDs : List String)
    (current : Table String String) (jobID : String) :
    (jobIDs.foldl (fun current jobID =>
      match f jobID with
      | some token => current.put jobID token
      | none => current) current).get? jobID =
      if jobID ∈ jobIDs then (f jobID).or (current.get? jobID) else current.get? jobID := by
  induction jobIDs generalizing current with
  | nil => simp
  | cons x jobIDs ih =>
    rw [foldl_cons, ih]
    cases hx : f x with
    | none =>
      by_cases heq : jobID = x
      · subst heq
        simp [hx]
      · simp [heq]
    | some token =>
      rw [get?_put]
      by_cases heq : jobID = x
      · subst heq
        by_cases hmem : jobID ∈ jobIDs
        · simp [hmem, hx]
        · simp [hmem, hx]
      · simp [heq]

variable {c : ReapCall} {w : ReapWorld} {a : Label}

theorem get?_readTokens_of_mem {db : ContentBackupDb} {jobID : String}
    (h : jobID ∈ c.unread.take contentBackupIDChunk.toNat) :
    (readTokens db c).current.get? jobID = (((db.jobs.get? (c.siteID, jobID)).bind fun job =>
        if job.status = .processing then some job.leaseToken else none).or
        (c.current.get? jobID)) := by
  unfold readTokens
  rw [get?_foldl_put_match, if_pos h, currentLeaseTokens, if_pos h]

theorem get?_readTokens_of_notMem {db : ContentBackupDb} {jobID : String}
    (h : jobID ∉ c.unread.take contentBackupIDChunk.toNat) :
    (readTokens db c).current.get? jobID = c.current.get? jobID := by
  unfold readTokens
  rw [get?_foldl_put_match, if_neg h]

/-- A temp that no token names when its job is asked for has lost its lease. -/
theorem lost_of_readTokens {w : World} (hi : Inv w) {temp : IncomingTemp}
    (hdrawn : temp.token ∈ w.tokens) (hmem : temp.jobID ∈ c.unread.take contentBackupIDChunk.toNat)
    (hnot : isCurrent (readTokens w.db c) temp = false) :
    Lost (c.siteID, temp.jobID) temp.token w := by
  refine ⟨hdrawn, fun row hrow heq => ?_⟩
  have hstatus : row.status = .processing := (hi.rows _ row hrow).held.1 (heq ▸ hi.tokens _ hdrawn)
  rw [isCurrent, get?_readTokens_of_mem hmem, hrow, bind_some, if_pos hstatus,
    some_or, getD_some, heq] at hnot
  simp at hnot

/-! ## The invariant -/

/-- Every temp carries a token that was drawn, and once its job has been asked for, one that is not kept
has lost its lease. -/
structure ReapOk (w : World) (c : ReapCall) : Prop where
  drawn : ∀ temp ∈ c.stale, temp.token ∈ w.tokens
  lost : ∀ temp ∈ c.stale, temp.jobID ∉ c.unread → isCurrent c temp = false →
    Lost (c.siteID, temp.jobID) temp.token w

structure ReapInv (w : ReapWorld) : Prop where
  inv : Inv w.store
  leases : ∀ lease ∈ w.leases, lease.token ∈ w.store.tokens
  temps : ∀ path modTime, w.temps.get? path = some modTime → ∀ jobID token,
    parseTempName path.2 ftpsTempSuffix = some (jobID, token) → token ∈ w.store.tokens
  reaps : ∀ call c, w.reaps.get? call = some c → ReapOk w.store c

theorem mem_listIncoming {temps : Temps} {dir : IncomingDirectory} {temp : IncomingTemp}
    (h : temp ∈ listIncoming temps dir) : ∃ name modTime, temps.get? (dir, name) = some modTime ∧
      parseTempName name ftpsTempSuffix = some (temp.jobID, temp.token) := by
  obtain ⟨⟨⟨dir', name⟩, modTime⟩, hmem, he⟩ := mem_filterMap.1 h
  split_ifs at he with hdir
  subst hdir
  obtain ⟨⟨jobID, token⟩, hparse, rfl⟩ := map_eq_some_iff.1 he
  exact ⟨name, modTime, (get?_eq_some_iff _ _ _).2 hmem, hparse⟩

theorem reapOk_of_beginReap (hi : ReapInv w) {cfg : ReapConfig} {siteID shard : String} {now : ℤ}
    (h : beginReap w.temps cfg siteID shard now = some c) : ReapOk w.store c := by
  unfold beginReap at h
  split_ifs at h with hallowed
  split at h
  · cases h
  rename_i dir hdir
  dsimp only at h
  split_ifs at h with hempty
  cases h
  refine ⟨fun temp htemp => ?_, fun temp htemp hread => ?_⟩
  · obtain ⟨name, modTime, hrow, hparse⟩ := mem_listIncoming (mem_filter.1 htemp).1
    exact hi.temps _ modTime hrow _ _ hparse
  · exact absurd (mem_map_of_mem htemp) hread

theorem ReapOk.query {w : World} (hi : Inv w) (h : ReapOk w c) : ReapOk w (readTokens w.db c) := by
  refine ⟨h.drawn, fun temp htemp hread hnot => ?_⟩
  by_cases hmem : temp.jobID ∈ c.unread.take contentBackupIDChunk.toNat
  · exact lost_of_readTokens (c := c) hi (h.drawn temp htemp) hmem hnot
  · refine h.lost temp htemp (fun hunread => ?_) ?_
    · rw [← take_append_drop contentBackupIDChunk.toNat c.unread, mem_append] at hunread
      exact hunread.elim hmem hread
    · rwa [isCurrent, get?_readTokens_of_notMem hmem] at hnot

theorem ReapOk.erase {w : World} (h : ReapOk w c) (temp : IncomingTemp) :
    ReapOk w { c with stale := c.stale.erase temp } :=
  ⟨fun t ht => h.drawn t (mem_of_mem_erase ht), fun t ht => h.lost t (mem_of_mem_erase ht)⟩

/-- The steps of the store keep what a pass knows. -/
theorem ReapOk.store {w w' : World} (hi : Inv w) (hs : step w a = some w') (h : ReapOk w c) :
    ReapOk w' c :=
  ⟨fun temp htemp => tokens_mono hs (h.drawn temp htemp),
    fun temp htemp hread hnot => (h.lost temp htemp hread hnot).step hi hs⟩

theorem token_of_leaseOf {w w' : World} {lease : ContentBackupLease} (hs : step w a = some w')
    (h : leaseOf w a = some lease) : lease.token ∈ w'.tokens := by
  cases a with
  | claim o siteID jobID storageNodeID owner token now untilUnix =>
    rw [step] at hs
    split_ifs at hs with hfresh
    cases hs
    have htoken : lease.token = token := by
      rw [leaseOf, claim] at h
      split_ifs at h
      · cases h
      · cases h
      dsimp only at h
      generalize (withOutcome o w.db
        (claimTx w.db siteID jobID storageNodeID owner token now untilUnix)).2 = res at h
      cases res with
      | error e => cases h
      | ok won =>
        cases won with
        | none => cases h
        | some generation => rw [← some.inj h]
    rw [htoken]
    exact mem_cons_self
  | _ => cases h

theorem ReapInv.store {store : World} (hi : ReapInv w) (hs : step w.store a = some store) :
    ReapInv { w with store, leases := (leaseOf w.store a).toList ++ w.leases } where
  inv := step_inv hi.inv hs
  leases lease hlease := by
    obtain hnew | hold := mem_append.1 hlease
    · exact token_of_leaseOf hs (mem_toList.1 hnew)
    · exact tokens_mono hs (hi.leases lease hold)
  temps path modTime hrow jobID token hparse :=
    tokens_mono hs (hi.temps path modTime hrow jobID token hparse)
  reaps call c hc := (hi.reaps call c hc).store hi.inv hs

theorem ReapInv.putTemp (hi : ReapInv w) {lease : ContentBackupLease} (hlease : lease ∈ w.leases)
    {path : IncomingDirectory × String}
    (hpath : tempRemotePath lease.siteID lease.jobID lease.token ftpsTempSuffix = .ok path)
    (modTime : ℤ) : ReapInv { w with temps := w.temps.put path modTime } where
  inv := hi.inv
  leases := hi.leases
  temps path' modTime' hrow jobID token hparse := by
    rw [get?_put] at hrow
    split_ifs at hrow with heq
    · subst heq
      obtain ⟨hjob, -, hname⟩ := tempRemotePath_of_ok hpath
      obtain ⟨hname', hjob', -⟩ := eq_tempName_of_parse hparse
      rw [← (tempName_inj hjob hjob' (hname.symm.trans hname')).2]
      exact hi.leases lease hlease
    · exact hi.temps path' modTime' hrow jobID token hparse
  reaps := hi.reaps

theorem ReapInv.erase (hi : ReapInv w) (path : IncomingDirectory × String) :
    ReapInv { w with temps := w.temps.erase path } where
  inv := hi.inv
  leases := hi.leases
  temps path' modTime hrow := by
    rw [get?_erase] at hrow
    split_ifs at hrow
    exact hi.temps path' modTime hrow
  reaps := hi.reaps

theorem ReapInv.put (hi : ReapInv w) (call : ℕ) (hc : ReapOk w.store c) :
    ReapInv { w with reaps := w.reaps.put call c } where
  inv := hi.inv
  leases := hi.leases
  temps := hi.temps
  reaps call' c' hc' := by
    rw [get?_put] at hc'
    split_ifs at hc'
    · exact some.inj hc' ▸ hc
    · exact hi.reaps call' c' hc'

theorem ReapInv.abandon (hi : ReapInv w) (call : ℕ) :
    ReapInv { w with reaps := w.reaps.erase call } where
  inv := hi.inv
  leases := hi.leases
  temps := hi.temps
  reaps call' c' hc' := by
    rw [get?_erase] at hc'
    split_ifs at hc'
    exact hi.reaps call' c' hc'

theorem removeIncoming_fst (r : Removal) (temps : Temps) (siteID : String) (temp : IncomingTemp) :
    (removeIncoming r temps siteID temp).1 = temps ∨
      ∃ path, tempRemotePath siteID temp.jobID temp.token ftpsTempSuffix = .ok path ∧
        (removeIncoming r temps siteID temp).1 = temps.erase path := by
  unfold removeIncoming
  split_ifs with htoken
  · split
    · exact .inl rfl
    · rename_i path hpath
      cases r with
      | removed | unreported => exact .inr ⟨path, hpath, rfl⟩
      | refused => exact .inl rfl
  · exact .inl rfl

theorem ReapInv.remove (hi : ReapInv w) (r : Removal) (siteID : String) (temp : IncomingTemp) :
    ReapInv { w with temps := (removeIncoming r w.temps siteID temp).1 } := by
  obtain hsame | ⟨path, -, hgone⟩ := removeIncoming_fst r w.temps siteID temp
  · rw [hsame]
    exact hi
  · rw [hgone]
    exact hi.erase path

theorem ReapInv.step {w' : ReapWorld} {a : ReapLabel} (hi : ReapInv w) (h : reapStep w a = some w')
    : ReapInv w' := by
  cases a with
  | store a =>
    rw [reapStep] at h
    obtain ⟨store, hs, rfl⟩ := map_eq_some_iff.1 h
    exact hi.store hs
  | putTemp lease modTime =>
    rw [reapStep] at h
    split_ifs at h with hlease
    split at h
    · cases h
    rename_i path hpath
    cases h
    exact hi.putTemp hlease.1 hpath modTime
  | dropTemp path =>
    rw [reapStep] at h
    cases h
    exact hi.erase path
  | list call cfg siteID shard now =>
    rw [reapStep] at h
    obtain ⟨c, hc, rfl⟩ := map_eq_some_iff.1 h
    exact hi.put call (reapOk_of_beginReap hi hc)
  | query call =>
    rw [reapStep] at h
    obtain ⟨c, hc, rfl⟩ := map_eq_some_iff.1 h
    exact hi.put call ((hi.reaps call c hc).query hi.inv)
  | remove call temp r =>
    rw [reapStep] at h
    split at h
    · cases h
    rename_i c hc
    have hrest := (hi.reaps call c hc).erase temp
    split_ifs at h with hready hkept
    · cases h
      exact hi.put call hrest
    · cases h
      split_ifs
      · exact (hi.remove r c.siteID temp).abandon call
      · exact (hi.remove r c.siteID temp).put call hrest
  | abandon call =>
    rw [reapStep] at h
    cases h
    exact hi.abandon call

theorem reapInv_empty : ReapInv {} where
  inv := inv_empty
  leases _ hlease := by cases hlease
  temps _ _ hrow := by cases hrow
  reaps _ _ hc := by cases hc

theorem reapInv_of_run {l : List ReapLabel} (h : Run.run reapStep {} l = some w) : ReapInv w :=
  Run.invariant (fun _ _ _ hi hs => hi.step hs) reapInv_empty h

/-! ## Live temps -/

/-- The temp of the current lease of a job that is processing. -/
def Live (w : World) (path : IncomingDirectory × String) : Prop :=
  ∃ siteID jobID row, w.db.jobs.get? (siteID, jobID) = some row ∧ row.status = .processing ∧
    tempRemotePath siteID jobID row.leaseToken ftpsTempSuffix = .ok path

/-- In every run, a pass that removes leaves the temps of live uploads where they are. -/
theorem live_temp_kept_of_run {w w' : ReapWorld} {l : List ReapLabel}
    (h : Run.run reapStep {} l = some w) {call : ℕ} {temp : IncomingTemp} {r : Removal}
    (hs : reapStep w (.remove call temp r) = some w') {path : IncomingDirectory × String}
    (hlive : Live w.store path) : w'.temps.get? path = w.temps.get? path := by
  have hi := reapInv_of_run h
  rw [reapStep] at hs
  split at hs
  · cases hs
  rename_i c hc
  split_ifs at hs with hready hkept
  · rw [← some.inj hs]
  · rw [← some.inj hs]
    obtain hsame | ⟨path', hpath', hgone⟩ := removeIncoming_fst r w.temps c.siteID temp
    · rw [hsame]
    rw [hgone, get?_erase, if_neg]
    rintro rfl
    -- the temp of a live upload would be one whose lease was lost when the token was asked for
    simp only [not_or, not_not] at hready
    obtain ⟨siteID, jobID, row, hrow, hstatus, hpath⟩ := hlive
    obtain ⟨hsite, hjob, htoken⟩ := tempRemotePath_inj hpath hpath'
    have hlost := (hi.reaps call c hc).lost temp hready.2 (by simp [hready.1])
      (Bool.eq_false_of_not_eq_true hkept)
    rw [← hsite, ← hjob] at hlost
    exact hlost.2 row hrow htoken

def exampleJob : String := "0f8fad5b-d9cb-469f-a165-70867728950e"

def exampleLease (owner token : String) (generation leaseUntil : ℤ) : ContentBackupLease :=
  { siteID := "site", jobID := exampleJob, storageNodeID := "node", owner, token, generation,
    leaseUntil }

/-- The first upload of a job has crashed, and the second takes so long that its temp looks old to a late
pass. -/
def crashedUpload : List ReapLabel :=
  [.store (.ensurePending .reported "site" exampleJob "node" 1000 10),
    .store (.claim .reported "site" exampleJob "node" "first" "token-first" 1000 1060),
    .putTemp (exampleLease "first" "token-first" 1 1060) 1000,
    .store (.claim .reported "site" exampleJob "node" "second" "token-second" 2000 2060),
    .putTemp (exampleLease "second" "token-second" 2 2060) 2000,
    .list 1 { targetID := "target", lastPutOK := 99900 } "site" "0f" 100000, .query 1,
    .remove 1 { jobID := exampleJob, token := "token-first", modTime := some 1000 } .removed]

def examplePath (token : String) : IncomingDirectory × String :=
  ({ siteID := "site", shard := "0f" }, tempName exampleJob token ftpsTempSuffix)

theorem live_temp_kept_of_crashedUpload :
    ∃ w w', Run.run reapStep {} crashedUpload = some w ∧
      reapStep w (.remove 1 { jobID := exampleJob, token := "token-second", modTime := some 2000 }
        .removed) = some w' ∧
      w.temps.get? (examplePath "token-first") = none ∧
      w'.temps.get? (examplePath "token-second") = some 2000 := by
  obtain ⟨w, h, hgone, hthere, hsome, row, hrow, hstatus, htoken⟩ :
      ∃ w, Run.run reapStep {} crashedUpload = some w ∧
        w.temps.get? (examplePath "token-first") = none ∧
        w.temps.get? (examplePath "token-second") = some 2000 ∧
        (reapStep w (.remove 1 { jobID := exampleJob, token := "token-second", modTime := some 2000 }
          .removed)).isSome ∧
        ∃ row, w.store.db.jobs.get? ("site", exampleJob) = some row ∧ row.status = .processing ∧
          row.leaseToken = "token-second" := by
    decide +kernel
  obtain ⟨w', hs⟩ := isSome_iff_exists.1 hsome
  have hlive : Live w.store (examplePath "token-second") :=
    ⟨"site", exampleJob, row, hrow, hstatus, by rw [htoken]; decide +kernel⟩
  exact ⟨w, w', h, hs, hgone, (live_temp_kept_of_run h hs hlive).trans hthere⟩

end BeeApi.ContentBackup
