import BeeApi.ContentBackup.Spool
import Mathlib

/-!
# The memory of the captures

`ContentBackupBudget` counts the bytes and the slots of all captures of the process.  A capture keeps the
response in blocks that it reserves while the handler writes, reads the request when it is finished, and
gives everything back behind a once-flag.  The steps are the sections that a mutex makes atomic.
-/

namespace BeeApi.ContentBackup

/-! ## The budget -/

structure ContentBackupBudget where
  maxBytes : ℤ := 0
  maxInflight : ℤ := 0
  usedBytes : ℤ := 0
  inflight : ℤ := 0
  rejectedBytes : ℕ := 0
  rejectedInflight : ℕ := 0

namespace ContentBackupBudget

def setLimits (b : ContentBackupBudget) (maxBytes maxInflight : ℤ) : ContentBackupBudget :=
  { b with
    maxBytes := if maxBytes < 0 then 0 else maxBytes
    maxInflight := if maxInflight < 0 then 0 else maxInflight }

/-- `NewContentBackupBudget`. -/
def new (maxBytes maxInflight : ℤ) : ContentBackupBudget :=
  setLimits {} maxBytes maxInflight

def acquireCapture (b : ContentBackupBudget) : Bool × ContentBackupBudget :=
  if b.maxInflight ≤ b.inflight then
    (false, { b with rejectedInflight := b.rejectedInflight + 1 })
  else (true, { b with inflight := b.inflight + 1 })

def releaseCapture (b : ContentBackupBudget) : ContentBackupBudget :=
  { b with inflight := if b.inflight - 1 < 0 then 0 else b.inflight - 1 }

def reserveBytes (b : ContentBackupBudget) (n : ℤ) : Bool × ContentBackupBudget :=
  if n ≤ 0 then (true, b)
  else if b.maxBytes < b.usedBytes + n then
    (false, { b with rejectedBytes := b.rejectedBytes + 1 })
  else (true, { b with usedBytes := b.usedBytes + n })

def releaseBytes (b : ContentBackupBudget) (n : ℤ) : ContentBackupBudget :=
  if n ≤ 0 then b
  else { b with usedBytes := if b.usedBytes - n < 0 then 0 else b.usedBytes - n }

end ContentBackupBudget

/-! ## A side of a capture -/

def contentBackupChunkBytes : ℤ := 64 * 1024

def maxBodyBytesPerSide : ℤ := 8 * 1024 * 1024

/-- `contentBackupChunkSink`.  A chunk has its whole length from the start; `used` bytes of the last one
are filled. -/
structure ChunkSink where
  limit : ℤ := 0
  chunks : List Bytes := []
  used : ℕ := 0
  captured : ℤ := 0
  reserved : ℤ := 0
  denied : Bool := false
  readErr : Option String := none
deriving DecidableEq

namespace ChunkSink

def last (s : ChunkSink) : Bytes := s.chunks.getLastD []

def ensureRoom (s : ChunkSink) (b : ContentBackupBudget) :
    Bool × ChunkSink × ContentBackupBudget :=
  if s.chunks ≠ [] ∧ s.used < s.last.length then (true, s, b)
  else if s.limit - s.captured ≤ 0 then (false, s, b)
  else
    let size := min (s.limit - s.captured) contentBackupChunkBytes
    match b.reserveBytes size with
    | (false, b) => (false, s, b)
    | (true, b) =>
      (true, { s with
        reserved := s.reserved + size
        chunks := s.chunks ++ [List.replicate size.toNat 0]
        used := 0 }, b)

/-- `copy(last[s.used:], p)` with the counts, and the bytes that are left. -/
def copy (s : ChunkSink) (p : Bytes) : ChunkSink × Bytes :=
  let n := min (s.last.length - s.used) p.length
  ({ s with
    chunks := s.chunks.dropLast ++ [s.last.take s.used ++ p.take n ++ s.last.drop (s.used + n)]
    used := s.used + n
    captured := s.captured + n }, p.drop n)

/-- One round of the loop of `appendBytes` and `appendString`: what is left to append, or nothing when
the loop has ended. -/
def appendRound (s : ChunkSink) (b : ContentBackupBudget) (p : Bytes) :
    ChunkSink × ContentBackupBudget × Option Bytes :=
  if p = [] ∨ s.denied = true then (s, b, none)
  else if s.limit ≤ s.captured then (s, b, none)
  else
    match s.ensureRoom b with
    | (false, s, b) => ({ s with denied := true }, b, none)
    | (true, s, b) => ((s.copy p).1, b, some (s.copy p).2)

/-- `readWhole` before its loop: the sink, and whether it goes on to read. -/
def reserveWhole (s : ChunkSink) (b : ContentBackupBudget) (want : ℤ) :
    ChunkSink × ContentBackupBudget × Bool :=
  if want ≤ 0 then (s, b, false)
  else
    match b.reserveBytes want with
    | (false, b) => ({ s with denied := true }, b, false)
    | (true, b) => ({ s with reserved := s.reserved + want }, b, true)

/-- `readWhole` after its loop: `data` is what the reader gave until the block was full or it returned
an error; `err` is that error unless it was the end of the file. -/
def fill (s : ChunkSink) (want : ℤ) (data : Bytes) (err : Option String) : ChunkSink :=
  { s with
    readErr := err.orElse fun _ => s.readErr
    chunks := [data.take want.toNat]
    used := (data.take want.toNat).length
    captured := (data.take want.toNat).length }

def snapshotChunks (s : ChunkSink) : List Bytes :=
  if s.captured ≤ 0 ∨ s.chunks = [] then []
  else if s.used < s.last.length then s.chunks.dropLast ++ [s.last.take s.used]
  else s.chunks

def release (s : ChunkSink) (b : ContentBackupBudget) : ChunkSink × ContentBackupBudget :=
  ({ s with
    reserved := if 0 < s.reserved then 0 else s.reserved
    chunks := []
    used := 0
    captured := 0 }, if 0 < s.reserved then b.releaseBytes s.reserved else b)

end ChunkSink

/-! ## A capture -/

/-- `ContentBackupChannelRound`; the other fields go to the metadata only. -/
structure ChannelRound where
  channelID : ℤ
  backupEnabled : Bool

/-- Where `FinishContentBackupCapture` is; `freeze` has a section before and one behind `readRequest` and
the loop of `readWhole`, and the capture ends at an exit that releases, or after the hand-off. -/
inductive FinishPhase
  | running
  | gate
  | reading (limit : ℤ)
  | filling (sink : ChunkSink) (want : ℤ)
  | adopt (sink : ChunkSink)
  | frozen
  | leaving
  | handedOff
deriving DecidableEq

/-- What is reserved for a request that is not adopted yet. -/
def FinishPhase.reserved : FinishPhase → ℤ
  | .filling sink _ | .adopt sink => sink.reserved
  | _ => 0

/-- Where the body of `releaseFunc` is; it runs once. -/
inductive ReleasePhase
  | idle
  | request
  | response
  | slot (held : Bool)
  | done
deriving DecidableEq

def ReleasePhase.Past : ReleasePhase → Prop
  | .slot _ | .done => True
  | _ => False

instance : (r : ReleasePhase) → Decidable r.Past
  | .slot _ | .done => .isTrue trivial
  | .idle | .request | .response => .isFalse id

/-- The chunks of the `contentbackup.Capture` that `freeze` returns. -/
structure FrozenChunks where
  requestChunks : List Bytes
  responseChunks : List Bytes

/-- `ContentBackupCapture`, with the write that holds its mutex, the goroutine that finishes it and the
one that releases it.  `written` collects the bytes written since it was armed. -/
structure ContentBackupCapture where
  maxBodyBytes : ℤ
  rounds : List ChannelRound := []
  armed : Bool := false
  slotHeld : Bool := false
  denied : Bool := false
  hijacked : Bool := false
  finished : Bool := false
  request : ChunkSink := {}
  response : ChunkSink := {}
  writing : Option Bytes := none
  finishing : FinishPhase := .running
  releasing : ReleasePhase := .idle
  frozen : Option FrozenChunks := none
  written : Bytes := []

/-- `storage` is the body of the request: its size, and the error when it does not open.  `settle` is what
`FinishContentBackupCapture` does with a frozen capture: it is handed off, or refused. -/
inductive CaptureAct
  | round (round : ChannelRound)
  | observe (p : Bytes) (n : ℤ)
  | append
  | hijack
  | finish
  | gate
  | replay (storage : Option (ℤ × Option String))
  | fill (data : Bytes) (err : Option String)
  | adopt
  | settle (handedOff : Bool)
  | panic
  | release
  | releaseNext

def errContentBackupRequestBodyUnavailable : String :=
  "content backup: request body storage is unavailable"

namespace ContentBackupCapture

def maxBodyBytesLocked (c : ContentBackupCapture) : ℤ :=
  if c.maxBodyBytes ≤ 0 ∨ maxBodyBytesPerSide < c.maxBodyBytes then maxBodyBytesPerSide
  else c.maxBodyBytes

def armLocked (c : ContentBackupCapture) (b : ContentBackupBudget) :
    ContentBackupCapture × ContentBackupBudget :=
  if c.armed = true ∨ c.denied = true then (c, b)
  else
    match b.acquireCapture with
    | (false, b) => ({ c with denied := true }, b)
    | (true, b) =>
      ({ c with
        slotHeld := true
        armed := true
        request := { c.request with limit := c.maxBodyBytesLocked }
        response := { c.response with limit := c.maxBodyBytesLocked, chunks := [] } }, b)

def Unlocked (c : ContentBackupCapture) : Prop :=
  c.writing = none ∧ c.releasing ≠ .request ∧ c.releasing ≠ .response

instance (c : ContentBackupCapture) : Decidable c.Unlocked :=
  inferInstanceAs (Decidable (_ ∧ _ ∧ _))

def recordChannelRound (c : ContentBackupCapture) (b : ContentBackupBudget)
    (round : ChannelRound) : ContentBackupCapture × ContentBackupBudget :=
  let c := { c with rounds := c.rounds ++ [round] }
  if round.backupEnabled then c.armLocked b else (c, b)

/-- `ObserveResponseWrite` and `ObserveResponseWriteString` up to the loop of `appendBytes`, which runs
with the mutex held. -/
def observeResponseWrite (c : ContentBackupCapture) (p : Bytes) (n : ℤ) : ContentBackupCapture :=
  let c := if c.armed then { c with written := c.written ++ p.take n.toNat } else c
  if c.armed = false ∨ c.denied = true ∨ c.hijacked = true then c
  else { c with writing := some (p.take n.toNat) }

/-- A round of the loop of the write that holds the mutex; after the last one comes
`noteDenialLocked`. -/
def appendRound (c : ContentBackupCapture) (b : ContentBackupBudget) (p : Bytes) :
    ContentBackupCapture × ContentBackupBudget :=
  match c.response.appendRound b p with
  | (response, b, some rest) => ({ c with response, writing := some rest }, b)
  | (response, b, none) =>
    ({ c with response, writing := none, denied := c.denied || response.denied }, b)

/-- The first section of `freeze`, with the gate on the last round. -/
def freezeGate (c : ContentBackupCapture) : ContentBackupCapture :=
  if c.finished then { c with finishing := .leaving }
  else
    let c := { c with finished := true }
    if c.armed = false ∨ c.denied = true ∨ c.hijacked = true then { c with finishing := .leaving }
    else
      match c.rounds.getLast? with
      | none => { c with finishing := .leaving }
      | some final =>
        if final.backupEnabled then { c with finishing := .reading c.request.limit }
        else { c with finishing := .leaving }

/-- `readRequest` up to the loop of `readWhole`. -/
def readRequest (c : ContentBackupCapture) (b : ContentBackupBudget) (limit : ℤ) :
    Option (ℤ × Option String) → ContentBackupCapture × ContentBackupBudget
  | none =>
    ({ c with finishing :=
        .adopt { limit, readErr := some errContentBackupRequestBodyUnavailable } }, b)
  | some (size, err) =>
    if size ≤ 0 then ({ c with finishing := .adopt { limit } }, b)
    else if err.isSome then ({ c with finishing := .adopt { limit, readErr := err } }, b)
    else
      match ChunkSink.reserveWhole { limit } b (min size limit) with
      | (sink, b, false) => ({ c with finishing := .adopt sink }, b)
      | (sink, b, true) => ({ c with finishing := .filling sink (min size limit) }, b)

/-- The second section of `freeze`. -/
def freezeAdopt (c : ContentBackupCapture) (sink : ChunkSink) : ContentBackupCapture :=
  let c := { c with request := sink, denied := c.denied || sink.denied }
  if c.denied = true ∨ c.hijacked = true then { c with finishing := .leaving }
  else
    { c with
      finishing := .frozen
      frozen := some ⟨c.request.snapshotChunks, c.response.snapshotChunks⟩ }

/-- A section of the body of `releaseFunc`. -/
def releaseNext (c : ContentBackupCapture) (b : ContentBackupBudget) :
    Option (ContentBackupCapture × ContentBackupBudget) :=
  match c.releasing with
  | .request =>
    some ({ c with request := (c.request.release b).1, releasing := .response },
      (c.request.release b).2)
  | .response =>
    some ({ c with
      response := (c.response.release b).1
      slotHeld := false
      releasing := .slot c.slotHeld }, (c.response.release b).2)
  | .slot held => some ({ c with releasing := .done }, if held then b.releaseCapture else b)
  | .idle | .done => none

/-- A step of one capture.  A call of `ContentBackupRecordChannelRound` or of a write can be under way
at any time, also after `FinishContentBackupCapture` has removed the capture from the context. -/
def act (c : ContentBackupCapture) (b : ContentBackupBudget) :
    CaptureAct → Option (ContentBackupCapture × ContentBackupBudget)
  | .round round => if c.Unlocked then some (c.recordChannelRound b round) else none
  | .observe p n => if c.Unlocked then some (c.observeResponseWrite p n, b) else none
  | .append => c.writing.map fun p => c.appendRound b p
  | .hijack => if c.Unlocked then some ({ c with hijacked := true }, b) else none
  | .finish => if c.finishing = .running then some ({ c with finishing := .gate }, b) else none
  | .gate => if c.finishing = .gate ∧ c.Unlocked then some (c.freezeGate, b) else none
  | .replay storage =>
    match c.finishing with
    | .reading limit => some (c.readRequest b limit storage)
    | _ => none
  | .fill data err =>
    match c.finishing with
    | .filling sink want => some ({ c with finishing := .adopt (sink.fill want data err) }, b)
    | _ => none
  | .adopt =>
    match c.finishing with
    | .adopt sink => if c.Unlocked then some (c.freezeAdopt sink, b) else none
    | _ => none
  | .settle handedOff =>
    if c.finishing = .frozen then
      some ({ c with finishing := if handedOff then .handedOff else .leaving }, b)
    else none
  | .panic =>
    match c.finishing with
    | .gate | .reading _ | .filling _ _ | .adopt _ | .frozen =>
      some ({ c with finishing := .leaving }, b)
    | _ => none
  | .release =>
    match c.finishing with
    | .leaving | .handedOff =>
      if c.releasing = .idle then
        if c.writing = none then some ({ c with releasing := .request }, b) else none
      else some (c, b)
    | _ => none
  | .releaseNext => c.releaseNext b

def bytes (c : ContentBackupCapture) : ℤ :=
  if c.releasing = .done then 0
  else
    c.request.reserved + c.response.reserved + c.finishing.reserved

def slots (c : ContentBackupCapture) : ℤ :=
  if c.releasing = .done then 0
  else (if c.slotHeld then 1 else 0) + (if c.releasing = .slot true then 1 else 0)

end ContentBackupCapture

/-! ## The captures of the process -/

/-- `BeginContentBackupCapture` with a channel: the capture that it returns. -/
def beginContentBackupCapture (b : ContentBackupBudget) (maxBodyBytes : ℤ)
    (initial : ChannelRound) : Option ContentBackupCapture × ContentBackupBudget :=
  if initial.channelID ≤ 0 then (none, b)
  else
    let capture : ContentBackupCapture := { maxBodyBytes, rounds := [initial] }
    match if initial.backupEnabled then capture.armLocked b else (capture, b) with
    | (capture, b) => (if capture.denied then none else some capture, b)

structure CaptureSystem where
  budget : ContentBackupBudget
  captures : Table ℕ ContentBackupCapture := ∅

inductive CaptureLabel
  | setLimits (maxBytes maxInflight : ℤ)
  | begin (id : ℕ) (maxBodyBytes : ℤ) (initial : ChannelRound)
  | act (id : ℕ) (a : CaptureAct)

namespace CaptureSystem

def init (maxBytes maxInflight : ℤ) : CaptureSystem :=
  { budget := .new maxBytes maxInflight }

def step (s : CaptureSystem) : CaptureLabel → Option CaptureSystem
  | .setLimits maxBytes maxInflight =>
    some { s with budget := s.budget.setLimits maxBytes maxInflight }
  | .begin id maxBodyBytes initial =>
    match beginContentBackupCapture s.budget maxBodyBytes initial with
    | (none, budget) => some { s with budget }
    | (some c, budget) =>
      (s.captures.insert? id c).map fun captures => { budget, captures }
  | .act id a =>
    match s.captures.get? id with
    | none => none
    | some c => (c.act s.budget a).map fun (c, budget) => { budget, captures := s.captures.put id c }

def bytes (s : CaptureSystem) : ℤ := s.captures.sum fun _ c => c.bytes

def slots (s : CaptureSystem) : ℤ := s.captures.sum fun _ c => c.slots

end CaptureSystem

end BeeApi.ContentBackup
