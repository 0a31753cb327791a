import BeeApi.Relay.ResponseQuality

/-!
# The quality hold

While the filter is active, a handler writes into a buffer that stands before the writer of the client.
The hold watches what the handler notes about the answer: it blocks an apology, and it releases the
buffer once the answer is long enough or is not a text.  What the handler does with the writer, through
`c.Writer` or a reference to it that it has kept, is a list of operations.
-/

namespace BeeApi.Quality

/-- `http.Header`; a key that is not there has no values. -/
abbrev Header := String → List String

/-- The `responseWriter` of gin: the status and the header are sent with the first bytes. -/
structure Writer where
  status : ℤ := 200
  header : Header := fun _ => []
  sent : Option (ℤ × Header) := none
  body : List UInt8 := []

inductive WriterOp
  | setHeader (key value : String)
  | delHeader (key : String)
  | writeHeader (code : ℤ)
  | write (p : List UInt8)
  | writeString (s : List UInt8)
  /-- The pieces that `io.Copy` reads. -/
  | readFrom (pieces : List (List UInt8))
  | flush

namespace Writer

def writeHeader (w : Writer) (code : ℤ) : Writer :=
  if 0 < code ∧ w.status ≠ code ∧ w.sent.isNone then { w with status := code } else w

def writeHeaderNow (w : Writer) : Writer :=
  if w.sent.isNone then { w with sent := some (w.status, w.header) } else w

def write (w : Writer) (p : List UInt8) : Writer :=
  let w := w.writeHeaderNow
  { w with body := w.body ++ p }

/-- `io.Copy` writes the pieces that are not empty. -/
def readFrom (w : Writer) (pieces : List (List UInt8)) : Writer :=
  (pieces.filter (· ≠ [])).foldl write w

def step (w : Writer) : WriterOp → Writer
  | .setHeader key value => { w with header := Function.update w.header key [value] }
  | .delHeader key => { w with header := Function.update w.header key [] }
  | .writeHeader code => w.writeHeader code
  | .write p => w.write p
  | .writeString s => w.write s
  | .readFrom pieces => w.readFrom pieces
  | .flush => w.writeHeaderNow

/-- What the client gets; the engine sends the head of an answer that has no body. -/
def response (w : Writer) : (ℤ × Header) × List UInt8 := (w.sent.getD (w.status, w.header), w.body)

end Writer

/-- A `QualityHold` and its `qualityHoldWriter`. -/
structure Hold where
  active : Bool := false
  released : Bool := false
  blocked : Bool := false
  finished : Bool := false
  blockErr : Option Relay.NewAPIError := none
  header : Header := fun _ => []
  buf : List UInt8 := []
  status : ℤ := 200
  flushed : Bool := false
  drop : Bool := false

/-- What a request keeps between its attempts: the writer, whether an answer seems to have begun and the
headers of an event stream are set, the usage of a blocked attempt, and the charges, at once and deferred.
-/
structure Context where
  writer : Writer := {}
  sentResponse : Bool := false
  eventStreamHeaders : Bool := false
  qualityChargePending : Option Usage := none
  charged : List Usage := []
  settled : List Usage := []

/-- A request inside of an attempt; `original` says that `c.Writer` is the writer of the client. -/
structure Attempt where
  c : Context
  hold : Hold
  inspect : QualityInspect := {}
  original : Bool

def beginQualityHold (env : Env) (c : Context) : Attempt :=
  if responseQualityActive env then
    { c := c, hold := { active := true, header := c.writer.header }, original := false }
  else { c := c, hold := {}, original := true }

def copyHeader (src dst : Header) : Header := fun key => if src key = [] then dst key else src key

def flushTo (hold : Hold) (dst : Writer) : Hold × Writer :=
  if hold.flushed then (hold, dst)
  else
    let dst := { dst with header := copyHeader hold.header dst.header }
    let dst := if hold.status ≠ 0 then dst.writeHeader hold.status else dst
    ({ hold with flushed := true },
      if hold.buf = [] then dst else (dst.write hold.buf).writeHeaderNow)

namespace Attempt

def flush (a : Attempt) : Attempt :=
  if !a.hold.active || a.hold.finished || a.hold.blocked then a
  else
    let r := flushTo { a.hold with released := true, finished := true } a.c.writer
    { a with hold := r.1, c := { a.c with writer := r.2 }, original := true }

def discard (a : Attempt) : Attempt :=
  if !a.hold.active || a.hold.finished || a.hold.released then a
  else
    { a with
      hold := { a.hold with finished := true }
      c := { a.c with sentResponse := false, eventStreamHeaders := false }
      original := true }

def block (env : Env) (a : Attempt) : Attempt :=
  if !a.hold.active || a.hold.finished || a.hold.released || a.hold.blocked then a
  else
    { a with
      hold := { a.hold with
        blocked := true
        blockErr := some (qualityApologyError env)
        drop := true } }

def observe (env : Env) (a : Attempt) : Attempt :=
  if !a.hold.active || a.hold.finished || a.hold.released || a.hold.blocked then a
  else if a.inspect.toolCalls > 0 || a.inspect.media then a.flush
  else if env.apology && apologyMatches env a.inspect.text then a.block env
  else if Strings.trimSpace a.inspect.text ≠ "" ∧
      env.lowTokenThreshold ≤ env.countTextToken a.inspect.text then a.flush
  else a

def noteQualityStreamDelta (env : Env) (a : Attempt) (delta : QualityStreamDelta) : Attempt :=
  if !a.hold.active || a.hold.released || a.hold.blocked || a.hold.finished || delta.empty then a
  else ({ a with inspect := a.inspect.add delta } : Attempt).observe env

def holdWrite (a : Attempt) (p : List UInt8) : Attempt :=
  if a.hold.drop then a
  else if a.hold.flushed then { a with c := { a.c with writer := a.c.writer.write p } }
  else { a with hold := { a.hold with buf := a.hold.buf ++ p } }

def holdStep (a : Attempt) : WriterOp → Attempt
  | .setHeader key value =>
    { a with hold := { a.hold with header := Function.update a.hold.header key [value] } }
  | .delHeader key =>
    { a with hold := { a.hold with header := Function.update a.hold.header key [] } }
  | .writeHeader code =>
    if a.hold.flushed then { a with c := { a.c with writer := a.c.writer.writeHeader code } }
    else { a with hold := { a.hold with status := code } }
  | .write p => a.holdWrite p
  | .writeString s => a.holdWrite s
  | .readFrom pieces => (pieces.filter (· ≠ [])).foldl holdWrite a
  | .flush =>
    if a.hold.flushed then { a with c := { a.c with writer := a.c.writer.writeHeaderNow } } else a

end Attempt

inductive Op
  /-- Through `c.Writer`, or through the reference that was kept at the start. -/
  | writer (kept : Bool) (op : WriterOp)
  | note (delta : QualityStreamDelta)
  /-- `SetFirstResponseTime`. -/
  | markSent
  | markEventStreamHeaders

def Attempt.step (env : Env) (a : Attempt) : Op → Attempt
  | .writer kept op =>
    if a.hold.active ∧ (kept ∨ !a.original) then a.holdStep op
    else { a with c := { a.c with writer := a.c.writer.step op } }
  | .note delta => a.noteQualityStreamDelta env delta
  | .markSent => { a with c := { a.c with sentResponse := true } }
  | .markEventStreamHeaders => { a with c := { a.c with eventStreamHeaders := true } }

/-- What a handler does depends on the marks it finds. -/
structure Handler where
  ops : (sentResponse eventStreamHeaders : Bool) → List Op
  usage : Option Usage := none
  err : Option Relay.NewAPIError := none

def chargeOrDeferQualityFilter (env : Env) (a : Attempt) (usage : Option Usage) : Attempt :=
  if env.retryAfterBlock then
    { a with
      c := { a.c with qualityChargePending := qualityChargeUsage env a.inspect usage } }
  else
    { a with
      c := { a.c with
        charged := a.c.charged ++ (chargeQualityFilterIfNeeded env a.inspect usage).toList } }

/-- What `doResponseWithQualityFilter` does when the handler has returned.  The writer of the client
never fails, so that the last flush gives no error. -/
def afterHandler (env : Env) (h : Handler) (a : Attempt) : Attempt × Option Relay.NewAPIError :=
  if a.hold.blocked then
    (chargeOrDeferQualityFilter env a.discard h.usage, a.hold.blockErr)
  else
    match h.err with
    | some err => (if a.hold.released then a else a.discard, some err)
    | none =>
      if a.hold.released then (a, none)
      else
        match applyResponseQualityFilter env a.inspect h.usage with
        | some qerr => (chargeOrDeferQualityFilter env a.discard h.usage, some qerr)
        | none => (a.flush, none)

def doResponseWithQualityFilter (env : Env) (h : Handler) (c : Context) :
    Attempt × Option Relay.NewAPIError :=
  afterHandler env h
    ((h.ops c.sentResponse c.eventStreamHeaders).foldl (Attempt.step env) (beginQualityHold env c))

/-- The deferred function of `Relay` with the error that the request ends with; `env` is the
environment of the last channel. -/
def settleDeferredQualityCharge (env : Env) (err : Option Relay.NewAPIError) (c : Context) : Context :=
  match c.qualityChargePending, err with
  | some usage, some err =>
    if isResponseQualityFilterError err then
      { c with
        qualityChargePending := none
        settled := c.settled ++ (chargeQualityFilterIfNeeded env {} (some usage)).toList }
    else c
  | _, _ => c

/-- The attempts one after the other, and the end of the request. -/
def serveAttempts (attempts : List (Env × Handler)) (env : Env) (err : Option Relay.NewAPIError)
    (c : Context) : Context :=
  settleDeferredQualityCharge env err
    (attempts.foldl (fun c a => (doResponseWithQualityFilter a.1 a.2 c).1.c) c)

end BeeApi.Quality
