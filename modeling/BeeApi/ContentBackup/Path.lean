import Mathlib.Data.List.Basic

/-!
# Names of temp objects

`pkg/contentbackup/path.go`, as far as the incoming directories are concerned: a temp object is named
by the job and the token of the lease that writes it.  A directory is given by its site and its shard.
The source indexes the bytes of a name and this model its characters; a name that is accepted has no
others than ASCII ones.
-/

namespace BeeApi.ContentBackup

open List String

/-- The field that is wrong, and why. -/
structure ValidationError where
  field : String
  reason : String
deriving DecidableEq

def ValidationError.error (e : ValidationError) : String :=
  "contentbackup: " ++ e.field ++ ": " ++ e.reason

def isLowerHex (c : Char) : Bool :=
  '0' ≤ c && c ≤ '9' || 'a' ≤ c && c ≤ 'f'

/-- `siteLabelPattern`. -/
def matchesSiteLabel (site : String) : Bool :=
  match site.toList with
  | [] => false
  | c :: rest =>
    (c.isLower || c.isDigit) && rest.length ≤ 31 &&
      rest.all fun c => c.isLower || c.isDigit || c = '_' || c = '-'

/-- The length of a UUID. -/
def jobIDLen : ℕ := 36

/-- `jobIDPattern`: the lowercase form of a UUID. -/
def matchesJobID (jobID : String) : Bool :=
  jobID.toList.length = jobIDLen &&
    jobID.toList.zipIdx.all fun e =>
      if e.2 ∈ [8, 13, 18, 23] then e.1 = '-' else isLowerHex e.1

/-- `shardPattern`. -/
def matchesShard (shard : String) : Bool :=
  shard.toList.length = 2 && shard.toList.all isLowerHex

/-- `leaseTokenPattern`. -/
def matchesLeaseToken (token : String) : Bool :=
  8 ≤ token.toList.length && token.toList.length ≤ 128 &&
    token.toList.all fun c => c.isAlphanum || c = '_' || c = '-'

/-- Empty when the site is valid. -/
def siteLabelProblem (site : String) : String :=
  if site = "" then "must not be empty"
  else if matchesSiteLabel site then ""
  else "must match [a-z0-9][a-z0-9_-]\x7b0,31\x7d"

/-- Empty when the id is valid. -/
def jobIDProblem (jobID : String) : String :=
  if jobID = "" then "must not be empty"
  else if matchesJobID jobID then ""
  else "must be a lowercase uuid"

/-- The directory of the temp objects of a shard. -/
structure IncomingDirectory where
  siteID : String
  shard : String
deriving DecidableEq

/-- `IncomingShardDir`. -/
def incomingShardDir (site shard : String) : Except ValidationError IncomingDirectory :=
  if siteLabelProblem site ≠ "" then .error ⟨"site_id", siteLabelProblem site⟩
  else if matchesShard shard then .ok { siteID := site, shard }
  else .error ⟨"shard", "must be two lowercase hex characters"⟩

/-- The shard is the first two digits of the job. -/
def incomingDir (site jobID : String) : Except ValidationError IncomingDirectory :=
  if jobIDProblem jobID ≠ "" then .error ⟨"job_id", jobIDProblem jobID⟩
  else incomingShardDir site (String.ofList (jobID.toList.take 2))

/-- The file name that `TempRemotePath` makes. -/
def tempName (jobID leaseToken suffix : String) : String :=
  jobID ++ "." ++ leaseToken ++ suffix

/-- `TempRemotePath`. -/
def tempRemotePath (site jobID leaseToken suffix : String) :
    Except ValidationError (IncomingDirectory × String) :=
  (incomingDir site jobID).map fun dir => (dir, tempName jobID leaseToken suffix)

/-- `ParseTempName`: the job and the token. -/
def parseTempName (name suffix : String) : Option (String × String) :=
  let chars := name.toList
  let stem := chars.length - suffix.toList.length
  if chars.length ≤ jobIDLen + 1 + suffix.toList.length ∨ chars[jobIDLen]? ≠ some '.' ∨
      chars.drop stem ≠ suffix.toList then none
  else
    let jobID := String.ofList (chars.take jobIDLen)
    let leaseToken := String.ofList ((chars.take stem).drop (jobIDLen + 1))
    if jobIDProblem jobID ≠ "" ∨ matchesLeaseToken leaseToken = false then none
    else some (jobID, leaseToken)

variable {jobID token suffix : String}

theorem length_of_jobIDProblem (h : jobIDProblem jobID = "") : jobID.toList.length = jobIDLen := by
  unfold jobIDProblem at h
  split_ifs at h with hempty hmatch
  · exact absurd h (by decide)
  · rw [matchesJobID, Bool.and_eq_true, decide_eq_true_eq] at hmatch
    exact hmatch.1
  · exact absurd h (by decide)

theorem toList_tempName (jobID leaseToken suffix : String) :
    (tempName jobID leaseToken suffix).toList =
      jobID.toList ++ '.' :: (leaseToken.toList ++ suffix.toList) := by
  simp [tempName]

theorem tempName_inj {jobID' token' : String} (h : jobIDProblem jobID = "")
    (h' : jobIDProblem jobID' = "")
    (he : tempName jobID token suffix = tempName jobID' token' suffix) :
    jobID = jobID' ∧ token = token' := by
  have hlist := congrArg String.toList he
  rw [toList_tempName, toList_tempName] at hlist
  obtain ⟨hjob, hrest⟩ := append_inj hlist
    ((length_of_jobIDProblem h).trans (length_of_jobIDProblem h').symm)
  have htoken := append_cancel_right (List.cons.inj hrest).2
  exact ⟨toList_inj.1 hjob, toList_inj.1 htoken⟩

theorem tempRemotePath_of_ok {site : String} {path : IncomingDirectory × String}
    (h : tempRemotePath site jobID token suffix = .ok path) :
    jobIDProblem jobID = "" ∧ path.1.siteID = site ∧ path.2 = tempName jobID token suffix := by
  unfold tempRemotePath incomingDir incomingShardDir at h
  split_ifs at h with hjob hsite hshard
  · cases h
  · cases h
  · cases h
    exact ⟨not_not.1 hjob, rfl, rfl⟩
  · cases h

theorem tempRemotePath_inj {site site' jobID' token' : String} {path : IncomingDirectory × String}
    (h : tempRemotePath site jobID token suffix = .ok path)
    (h' : tempRemotePath site' jobID' token' suffix = .ok path) :
    site = site' ∧ jobID = jobID' ∧ token = token' := by
  obtain ⟨hjob, rfl, hname⟩ := tempRemotePath_of_ok h
  obtain ⟨hjob', rfl, hname'⟩ := tempRemotePath_of_ok h'
  exact ⟨rfl, tempName_inj hjob hjob' (hname.symm.trans hname')⟩

/-- A name that is accepted is one that `TempRemotePath` makes. -/
theorem eq_tempName_of_parse {name : String} (h : parseTempName name suffix = some (jobID, token)) :
    name = tempName jobID token suffix ∧ jobIDProblem jobID = "" ∧ matchesLeaseToken token = true := by
  unfold parseTempName at h
  dsimp only at h
  split_ifs at h with hshape hvalid
  cases h
  simp only [not_or, not_not] at hshape
  simp only [not_or, not_not, Bool.not_eq_false] at hvalid
  obtain ⟨hlong, hdot, hsuffix⟩ := hshape
  refine ⟨toList_inj.1 ?_, hvalid⟩
  rw [toList_tempName, toList_ofList, toList_ofList]
  have hget : name.toList[jobIDLen] = '.' := by
    rw [getElem?_eq_getElem (by omega)] at hdot
    exact Option.some.inj hdot
  -- the name is its first 36 characters, the dot, the token and the suffix
  have hdrop : name.toList.drop jobIDLen = '.' :: name.toList.drop (jobIDLen + 1) := by
    rw [drop_eq_getElem_cons (by omega), hget]
  have hsplit : (name.toList.take (name.toList.length - suffix.toList.length)).drop (jobIDLen + 1) ++
      suffix.toList = name.toList.drop (jobIDLen + 1) := by
    have hstem : jobIDLen + 1 ≤
        (name.toList.take (name.toList.length - suffix.toList.length)).length := by
      rw [length_take]
      omega
    conv_rhs =>
      rw [← take_append_drop (name.toList.length - suffix.toList.length) name.toList, hsuffix]
    rw [drop_append_of_le_length hstem]
  rw [hsplit, ← hdrop, take_append_drop]

end BeeApi.ContentBackup
