import BeeApi.ContentBackup.Path
import BeeApi.ContentBackup.Store

/-!
# The spool of the content backup

The operations on the files of one spool volume.  A file is an entry of a directory that points to an
inode; a rename moves the entry, whatever inode it points to.  A write fills an inode in one step, and
one that fails leaves any bytes behind.
-/

namespace BeeApi.ContentBackup

open Transaction

/-- The content of a file. -/
abbrev Bytes := List UInt8

/-- A file; `closed` when its writer has stopped writing. -/
structure Inode where
  content : Bytes := []
  closed : Bool := false
deriving DecidableEq

/-- The three directories by job id, and the inodes. -/
structure Spool where
  inodes : List Inode := []
  parts : Table String ℕ := ∅
  bodies : Table String ℕ := ∅
  quarantine : List (String × ℕ) := []

/-- The bytes of the file at `JobPath`. -/
def Spool.body? (s : Spool) (jobID : String) : Option Bytes :=
  (s.bodies.get? jobID).bind fun i => s.inodes[i]?.map Inode.content

/-- Fill an inode that is being written. -/
def Spool.fill (s : Spool) (i : ℕ) (content : Bytes) : Spool :=
  match s.inodes[i]? with
  | some ⟨_, false⟩ => { s with inodes := s.inodes.set i ⟨content, true⟩ }
  | _ => s

/-- An operation of a write, a quarantine or a cleanup. -/
inductive SpoolOp
  /-- `os.Stat` and `os.Lstat` of `JobPath`. -/
  | statBody (jobID : String)
  | removePart (jobID : String)
  | createPart (jobID : String)
  /-- The gzip writer, from its first write to its close: the bytes that it has passed on.  An error of
  the encoding ends it early. -/
  | writePart (inode : ℕ) (bytes : Except String Bytes)
  | fsyncFile
  | closeFile
  /-- From `PartPath` to `JobPath`. -/
  | rename (jobID : String)
  | fsyncDir
  /-- From `PartPath` into the quarantine. -/
  | renameToQuarantine (jobID : String)
  | removeBody (jobID : String)

/-- What it answers. -/
def SpoolOp.Res : SpoolOp → Type
  | .statBody _ => Except String (Option ℤ)
  | .createPart _ => Except String ℕ
  | .writePart .. => Except String Bytes
  | .removeBody _ => Except String Bool
  | _ => Except String Unit

/-- How an operation ends, and what a write that fails leaves behind. -/
structure SpoolLabel where
  outcome : Outcome := .reported
  garbage : Bytes := []

/-- An operation that commits and is reported, is not done, or is done and reported as failed. -/
def Spool.exec (s : Spool) (label : SpoolLabel) : (op : SpoolOp) → Spool × op.Res
  | .fsyncFile | .closeFile | .fsyncDir => withOutcome label.outcome s (.ok (s, ()))
  | .statBody jobID =>
    withOutcome label.outcome s (.ok (s, (s.body? jobID).map fun bytes => (bytes.length : ℤ)))
  | .removePart jobID =>
    withOutcome label.outcome s (.ok ({ s with parts := s.parts.erase jobID }, ()))
  | .createPart jobID =>
    withOutcome label.outcome s
      (if (s.parts.get? jobID).isSome then .error "file exists"
      else
        .ok ({ s with
          inodes := s.inodes ++ [{}]
          parts := s.parts.put jobID s.inodes.length }, s.inodes.length))
  | .writePart i bytes =>
    match bytes, label.outcome with
    | .error e, _ => (s.fill i label.garbage, .error e)
    | .ok _, .rolledBack => (s.fill i label.garbage, .error "write failed")
    | .ok bytes, .reported => (s.fill i bytes, .ok bytes)
    | .ok bytes, .unreported => (s.fill i bytes, .error "write failed")
  | .rename jobID =>
    withOutcome label.outcome s
      (match s.parts.get? jobID with
      | none => .error "no such file or directory"
      | some i =>
        .ok ({ s with parts := s.parts.erase jobID, bodies := s.bodies.put jobID i }, ()))
  | .renameToQuarantine jobID =>
    withOutcome label.outcome s
      (match s.parts.get? jobID with
      | none => .error "no such file or directory"
      | some i =>
        .ok ({ s with
          parts := s.parts.erase jobID
          quarantine := s.quarantine ++ [(jobID, i)] }, ()))
  | .removeBody jobID =>
    withOutcome label.outcome s
      (.ok ({ s with bodies := s.bodies.erase jobID }, (s.bodies.get? jobID).isSome))

end BeeApi.ContentBackup
