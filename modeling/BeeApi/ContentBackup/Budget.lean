import BeeApi.ContentBackup.Spool

/-!
# The budget of the spool

`SpoolManager` counts the bytes that are on disk and the ones that are reserved.  A write reserves its
estimate, takes the operations of `writeSpoolFile` one by one, and then commits or releases; the cleaner
removes a file and releases; a scan adds up what it finds and overwrites both counters.
-/

namespace BeeApi.ContentBackup

open Transaction

structure VolumeStats where
  freeBytes : ℤ
  totalBytes : ℤ
  freeInodes : ℤ
  totalInodes : ℤ

structure SpoolManager where
  used : ℤ := 0
  reserved : ℤ := 0
  limit : ℤ
  stopPercent : ℤ := 0
  minFreeBytes : ℤ := 0
  minFreePercent : ℤ := 0
  inodeAlertPct : ℤ := 0

def errSpoolQuota : String := "content backup spool budget is exhausted"

def errSpoolNoSpace : String := "content backup spool volume lacks safe free space"

namespace SpoolManager

/-- The bytes that a reservation leaves free. -/
def minFree (m : SpoolManager) (stats : VolumeStats) : ℤ :=
  if 0 < m.minFreePercent ∧ 0 < stats.totalBytes then
    max m.minFreeBytes ((stats.totalBytes * m.minFreePercent).tdiv 100)
  else m.minFreeBytes

def reserve (m : SpoolManager) (stats : Except String VolumeStats) (estimate : ℤ) :
    Except String SpoolManager :=
  if estimate < 0 then .error "content backup spool reservation must not be negative"
  else
    let projected := m.used + m.reserved + estimate
    if m.limit < projected then .error errSpoolQuota
    else if 0 < m.stopPercent ∧ 0 < m.limit ∧ m.limit * m.stopPercent ≤ projected * 100 then
      .error errSpoolQuota
    else
      match stats with
      | .error e => .error ("stat content backup spool volume: " ++ e)
      | .ok stats =>
        if stats.freeBytes - estimate < m.minFree stats then .error errSpoolNoSpace
        else if 0 < stats.totalInodes ∧ 0 < m.inodeAlertPct ∧ stats.totalInodes * m.inodeAlertPct ≤
              (stats.totalInodes - stats.freeInodes + 1) * 100 then .error errSpoolNoSpace
        else .ok { m with reserved := m.reserved + estimate }

def release (m : SpoolManager) (estimate : ℤ) : SpoolManager :=
  { m with reserved := if m.reserved - estimate < 0 then 0 else m.reserved - estimate }

def commit (m : SpoolManager) (estimate actual : ℤ) : SpoolManager :=
  { m.release estimate with used := if 0 < actual then m.used + actual else m.used }

/-- The end of `Scan`. -/
def rescan (m : SpoolManager) (total : ℤ) : SpoolManager := { m with used := total, reserved := 0 }

end SpoolManager

/-- A write, by the operation that it takes next; `settle` is the one of the manager. -/
inductive WritePhase
  | stat
  | restat
  | removePart
  | createPart
  | gzip (file : ℕ)
  | fsyncFile (bytes : ℕ)
  | closeFile (bytes : ℕ)
  | rename (bytes : ℕ)
  | fsyncDir (bytes : ℕ)
  | settle (finalOnDisk : Bool) (finalSize : ℤ)

structure SpoolWrite where
  jobID : String
  estimate : ℤ
  phase : WritePhase

/-- `ValidateJobID`, the check of `PartPath` and `JobPath`. -/
def validateJobID (jobID : String) : Except String Unit :=
  if jobIDProblem jobID = "" then .ok ()
  else .error (ValidationError.error ⟨"job_id", jobIDProblem jobID⟩)

/-- A file of the capture that has failed. -/
def WritePhase.failed : WritePhase := .settle false 0

/-- The first operation of `writeSpoolFile`. -/
def firstPhase (jobID : String) : WritePhase :=
  match validateJobID jobID with
  | .ok () => .stat
  | .error _ => .failed

/-- An operation of `writeSpoolFile`, where `bytes` is what the gzip writer makes of the capture; it ends
in no phase when it panics. -/
def writeStep (files : Spool) (jobID : String) (label : SpoolLabel) (bytes : Except String Bytes) :
    WritePhase → Spool × Option WritePhase
  | .stat =>
    match files.exec label (.statBody jobID) with
    | (files, .ok (some _)) => (files, some .restat)
    | (files, _) => (files, some .removePart)
  | .restat =>
    match files.exec label (.statBody jobID) with
    | (files, .ok (some size)) => (files, some (.settle true size))
    | (files, _) => (files, none)
  | .removePart => ((files.exec label (.removePart jobID)).1, some .createPart)
  | .createPart =>
    match files.exec label (.createPart jobID) with
    | (files, .ok file) => (files, some (.gzip file))
    | (files, .error _) => (files, some .failed)
  | .gzip file =>
    match files.exec label (.writePart file bytes) with
    | (files, .ok bytes) => (files, some (.fsyncFile bytes.length))
    | (files, .error _) => (files, some .failed)
  | .fsyncFile bytes =>
    match files.exec label .fsyncFile with
    | (files, .ok ()) => (files, some (.closeFile bytes))
    | (files, .error _) => (files, some .failed)
  | .closeFile bytes =>
    match files.exec label .closeFile with
    | (files, .ok ()) => (files, some (.rename bytes))
    | (files, .error _) => (files, some .failed)
  | .rename bytes =>
    match files.exec label (.rename jobID) with
    | (files, .ok ()) => (files, some (.fsyncDir bytes))
    | (files, .error _) => (files, some .failed)
  | .fsyncDir bytes => ((files.exec label .fsyncDir).1, some (.settle true bytes))
  | .settle onDisk size => (files, some (.settle onDisk size))

inductive SpoolEntry
  | body (jobID : String)
  | part (jobID : String)
  | parked (position : ℕ)

inductive SpoolDir
  | bodies
  | parts
  | quarantine
deriving DecidableEq

/-- A scan: the directories that it has not listed, the files that it has not looked at, and the bytes
that it has found. -/
structure SpoolScan where
  dirs : List SpoolDir := [.bodies, .parts, .quarantine]
  entries : List SpoolEntry := []
  total : ℤ := 0

namespace Spool

def size (s : Spool) (i : ℕ) : ℤ := (s.inodes[i]?).elim 0 fun inode => inode.content.length

/-- `ReadDir`. -/
def entries (s : Spool) : SpoolDir → List SpoolEntry
  | .bodies => s.bodies.keys.map .body
  | .parts => s.parts.keys.map .part
  | .quarantine => (List.range s.quarantine.length).map .parked

/-- `entry.Info`: the size of a file, or nothing when it is gone. -/
def info (s : Spool) : SpoolEntry → ℤ
  | .body jobID => (s.bodies.get? jobID).elim 0 s.size
  | .part jobID => (s.parts.get? jobID).elim 0 s.size
  | .parked position => (s.quarantine[position]?).elim 0 fun e => s.size e.2

end Spool

/-- The manager, the volume, the writes that are admitted and not yet finished, the sizes in the rows of
the files that the cleaner has removed and not yet released, and the scans. -/
structure BudgetSystem where
  manager : SpoolManager
  files : Spool := {}
  writes : Table ℕ SpoolWrite := ∅
  cleaned : Table ℕ ℤ := ∅
  scans : Table ℕ SpoolScan := ∅

inductive BudgetLabel
  /-- `Write` reserves. -/
  | reserve (write : ℕ) (jobID : String) (estimate : ℤ) (stats : Except String VolumeStats)
  /-- The next operation of a write. -/
  | advance (write : ℕ) (label : SpoolLabel) (bytes : Except String Bytes)
  /-- The cleaner removes the file of a job whose row has this size. -/
  | clean (call : ℕ) (jobID : String) (compressedBytes : ℤ) (o : Outcome)
  /-- The cleaner marks the job cleaned, and releases unless that fails. -/
  | cleaned (call : ℕ) (marked : Bool)
  /-- A recovery parks a stale part. -/
  | quarantine (jobID : String) (o : Outcome)
  | scanStart (call : ℕ)
  /-- The next step of a scan; a directory that cannot be read ends it. -/
  | scanNext (call : ℕ) (readable : Bool)

namespace BudgetSystem

def step (s : BudgetSystem) : BudgetLabel → Option BudgetSystem
  | .reserve write jobID estimate stats =>
    if (s.writes.get? write).isSome then none
    else
      match s.manager.reserve stats estimate with
      | .error _ => some s
      | .ok manager =>
        some { s with
          manager
          writes := s.writes.put write { jobID, estimate, phase := firstPhase jobID } }
  | .advance write label bytes =>
    match s.writes.get? write with
    | none => none
    | some ⟨_, estimate, .settle onDisk size⟩ =>
      some { s with
        manager := if onDisk then s.manager.commit estimate size else s.manager.release estimate
        writes := s.writes.erase write }
    | some w =>
      match writeStep s.files w.jobID label bytes w.phase with
      | (files, some phase) => some { s with files, writes := s.writes.put write { w with phase } }
      | (files, none) => some { s with files, writes := s.writes.erase write }
  | .clean call jobID compressedBytes o =>
    match s.files.exec { outcome := o } (.removeBody jobID) with
    | (files, .ok true) => some { s with files, cleaned := s.cleaned.put call compressedBytes }
    | (files, _) => some { s with files }
  | .cleaned call marked =>
    (s.cleaned.get? call).map fun compressedBytes =>
      { s with
        manager := if marked then s.manager.release compressedBytes else s.manager
        cleaned := s.cleaned.erase call }
  | .quarantine jobID o =>
    some { s with files := (s.files.exec { outcome := o } (.renameToQuarantine jobID)).1 }
  | .scanStart call => some { s with scans := s.scans.put call {} }
  | .scanNext call readable =>
    match s.scans.get? call with
    | none => none
    | some { dirs, entries := entry :: entries, total } =>
      some { s with
        scans := s.scans.put call { dirs, entries, total := total + s.files.info entry } }
    | some { dirs := dir :: dirs, entries := [], total } =>
      if readable then
        some { s with scans := s.scans.put call { dirs, entries := s.files.entries dir, total } }
      else some { s with scans := s.scans.erase call }
    | some { dirs := [], entries := [], total } =>
      some { s with manager := s.manager.rescan total, scans := s.scans.erase call }

end BudgetSystem

end BeeApi.ContentBackup
