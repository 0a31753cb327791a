import BeeApi.Relay.QualityHold

/-!
# The quality gate is all or nothing

An attempt behind the hold is compared with the same handler in front of the writer of the client.  The
client gets the head that the handler has set before its first bytes; behind the hold it gets the head
that is set when the buffer is released, put over the head from before.
-/

namespace BeeApi.Quality

open List Option Bool Writer Attempt

/-! ## The head of an answer -/

abbrev Head := ℤ × Header

def Writer.head (w : Writer) : Head := (w.status, w.header)

namespace WriterOp

def bytes : WriterOp → List UInt8
  | .write p | .writeString p => p
  | .readFrom pieces => pieces.flatten
  | _ => []

/-- The operation sends the head. -/
def commits : WriterOp → Bool
  | .write _ | .writeString _ | .flush => true
  | .readFrom pieces => pieces.any (· ≠ [])
  | _ => false

/-- What the operation does to a head that is not sent yet. -/
def onHead (h : Head) : WriterOp → Head
  | .setHeader key value => (h.1, Function.update h.2 key [value])
  | .delHeader key => (h.1, Function.update h.2 key [])
  | .writeHeader code => (if 0 < code then code else h.1, h.2)
  | _ => h

/-- What the operation does to the head of the hold, which takes every status. -/
def onHeldHead (h : Head) : WriterOp → Head
  | .writeHeader code => (code, h.2)
  | op => op.onHead h

def isHeader : WriterOp → Bool
  | .setHeader _ _ | .delHeader _ => true
  | _ => false

/-- The values that the operation leaves under a key, where it changes them. -/
def change (key : String) : WriterOp → Option (List String)
  | .setHeader k value => if k = key then some [value] else none
  | .delHeader k => if k = key then some [] else none
  | _ => none

def code : WriterOp → Option ℤ
  | .writeHeader code => some code
  | _ => none

end WriterOp

/-- The operations before the head is sent. -/
def unsent (ops : List WriterOp) : List WriterOp := ops.takeWhile fun op => !op.commits

/-- What the last change of a key leaves under it, a deletion nothing. -/
def lastChange (key : String) (ops : List WriterOp) : Option (List String) :=
  (ops.filterMap (WriterOp.change key)).getLast?

/-- The last status of all. -/
def lastCode (ops : List WriterOp) : Option ℤ := (ops.filterMap WriterOp.code).getLast?

/-- The last status that gin takes. -/
def lastStatus (ops : List WriterOp) : Option ℤ :=
  ((ops.filterMap WriterOp.code).filter (0 < ·)).getLast?

def firstHead : Head → List WriterOp → Head
  | h, [] => h
  | h, op :: ops => if op.commits then h else firstHead (op.onHead h) ops

def bytesOf (ops : List WriterOp) : List UInt8 := ops.flatMap WriterOp.bytes

/-! ### The writer of the client -/

namespace Writer

theorem foldl_write_of_sent {w : Writer} {s : Head} (h : w.sent = some s)
    (pieces : List (List UInt8)) :
    (pieces.filter (· ≠ [])).foldl write w = { w with body := w.body ++ pieces.flatten } := by
  induction pieces generalizing w with
  | nil => simp
  | cons p pieces ih =>
    have hwrite : w.write p = { w with body := w.body ++ p } := by simp [write, writeHeaderNow, h]
    by_cases hp : p = []
    · rw [filter_cons_of_neg (by simpa using hp), ih h, hp, flatten_cons, nil_append]
    · have hsent : (w.write p).sent = some s := by rw [hwrite]; exact h
      rw [filter_cons_of_pos (by simpa using hp), foldl_cons, ih hsent, hwrite,
        flatten_cons, append_assoc]

theorem step_of_sent {w : Writer} {s : Head} (h : w.sent = some s) (op : WriterOp) :
    (w.step op).sent = some s ∧ (w.step op).body = w.body ++ op.bytes := by
  cases op with
  | readFrom pieces =>
    rw [step, readFrom, foldl_write_of_sent h]
    exact ⟨h, rfl⟩
  | writeHeader code => simp [step, writeHeader, WriterOp.bytes, h]
  | _ => simp [step, write, writeHeaderNow, WriterOp.bytes, h]

theorem step_of_commits {w : Writer} (h : w.sent = none) {op : WriterOp} (hop : op.commits = true) :
    (w.step op).sent = some w.head ∧ (w.step op).body = w.body ++ op.bytes := by
  cases op with
  | readFrom pieces =>
    -- the first piece that is not empty sends the head
    induction pieces with
    | nil => cases hop
    | cons p pieces ih =>
      by_cases hp : p = []
      · subst hp
        have hrest := ih (by simpa [WriterOp.commits] using hop)
        simpa [step, readFrom, WriterOp.bytes] using hrest
      · have hwrite : w.write p = { w with sent := some w.head, body := w.body ++ p } := by
          simp [write, writeHeaderNow, h, head]
        have hsent : (w.write p).sent = some w.head := by rw [hwrite]
        rw [step, readFrom, filter_cons_of_pos (by simpa using hp), foldl_cons,
          foldl_write_of_sent hsent, hwrite]
        simp [WriterOp.bytes]
  | setHeader _ _ => cases hop
  | delHeader _ => cases hop
  | writeHeader _ => cases hop
  | _ => simp [step, write, writeHeaderNow, WriterOp.bytes, h, head]

theorem step_of_not_commits {w : Writer} (h : w.sent = none) {op : WriterOp}
    (hop : op.commits = false) :
    (w.step op).sent = none ∧ (w.step op).head = op.onHead w.head ∧
      (w.step op).body = w.body ++ op.bytes := by
  cases op with
  | setHeader | delHeader => simp [step, WriterOp.onHead, WriterOp.bytes, head, h]
  | writeHeader code =>
    by_cases hcode : 0 < code ∧ w.status ≠ code
    · simp [step, writeHeader, WriterOp.onHead, WriterOp.bytes, head, h, hcode]
    · by_cases hpos : 0 < code
      · have hsame : w.status = code := by simpa [hpos] using hcode
        simp [step, writeHeader, WriterOp.onHead, WriterOp.bytes, head, h, hpos, hsame]
      · simp [step, writeHeader, WriterOp.onHead, WriterOp.bytes, head, h, hpos]
  | readFrom pieces =>
    have hnil : ∀ p ∈ pieces, p = [] := by simpa [WriterOp.commits] using hop
    have hfilter : pieces.filter (· ≠ []) = [] :=
      filter_eq_nil_iff.2 fun p hp => by simpa using hnil p hp
    have hflat : pieces.flatten = [] := flatten_eq_nil_iff.2 hnil
    rw [step, readFrom, hfilter]
    simp [WriterOp.onHead, WriterOp.bytes, hflat, h]
  | _ => cases hop

theorem response_foldl (w : Writer) (ops : List WriterOp) :
    (ops.foldl step w).response = (w.sent.getD (firstHead w.head ops), w.body ++ bytesOf ops) := by
  induction ops generalizing w with
  | nil => simp [response, firstHead, bytesOf, head]
  | cons op ops ih =>
    have hbytes : bytesOf (op :: ops) = op.bytes ++ bytesOf ops := rfl
    rw [foldl_cons, ih, hbytes, firstHead]
    cases h : w.sent with
    | some s =>
      obtain ⟨hsent, hbody⟩ := step_of_sent h op
      rw [hsent, hbody, append_assoc, getD_some, getD_some]
    | none =>
      cases hop : op.commits with
      | true =>
        obtain ⟨hsent, hbody⟩ := step_of_commits h hop
        rw [hsent, hbody, append_assoc, getD_some, getD_none, if_pos rfl]
      | false =>
        obtain ⟨hsent, hhead, hbody⟩ := step_of_not_commits h hop
        rw [hsent, hhead, hbody, append_assoc, getD_none, getD_none, if_neg Bool.false_ne_true]

end Writer

/-! ## The course of an attempt -/

def writerOps (ops : List Op) : List WriterOp :=
  ops.filterMap fun
    | .writer _ op => some op
    | _ => none

/-- The operations that come to the writer of the client after the release: a header that is set
through the kept reference does not. -/
def visibleOps (ops : List Op) : List WriterOp :=
  ops.filterMap fun
    | .writer kept op => if kept && op.isHeader then none else some op
    | _ => none

inductive Verdict
  | hold
  | release
  | block
deriving DecidableEq

def verdict (env : Env) (i : QualityInspect) : Verdict :=
  if i.toolCalls > 0 || i.media then .release
  else if env.apology && apologyMatches env i.text then .block
  else if Strings.trimSpace i.text ≠ "" ∧ env.lowTokenThreshold ≤ env.countTextToken i.text then
    .release
  else .hold

inductive Course
  /-- Nothing is decided before the end. -/
  | undecided (inspect : QualityInspect)
  | blocked
  | released (before after : List Op)

def Course.push (op : Op) : Course → Course
  | .released before after => .released (op :: before) after
  | course => course

def course (env : Env) : QualityInspect → List Op → Course
  | i, [] => .undecided i
  | i, .note delta :: ops =>
    if delta.empty then (course env i ops).push (.note delta)
    else
      match verdict env (i.add delta) with
      | .hold => (course env (i.add delta) ops).push (.note delta)
      | .release => .released [.note delta] ops
      | .block => .blocked
  | i, op :: ops => (course env i ops).push op

/-- What still changes the head of the client after a release: nothing once bytes were held. -/
def shown (before after : List Op) : List WriterOp :=
  if bytesOf (writerOps before) = [] then unsent (visibleOps after) else []

/-- The handler leaves under a key what the client gets: its last change before the first bytes agrees
with the last one that is shown, or else with the last one before the release unless that is a deletion.
-/
def KeepsKey (w : Writer) (before after : List Op) (key : String) : Prop :=
  (lastChange key (unsent (writerOps (before ++ after)))).getD (w.header key) =
    ((lastChange key (shown before after)).or
      ((lastChange key (writerOps before)).filter (· ≠ []))).getD (w.header key)

/-- So for the status: before the release the last one counts, 200 where there is none, and one that is
not positive undoes the ones before it. -/
def KeepsStatus (w : Writer) (before after : List Op) : Prop :=
  (lastStatus (unsent (writerOps (before ++ after)))).getD w.status =
    ((lastStatus (shown before after)).or
      (some ((lastCode (writerOps before)).getD 200) |>.filter (0 < ·))).getD w.status

/-- The head that is sent behind the hold is the one that the handler would have sent. -/
def SameHead (w : Writer) (before after : List Op) : Prop :=
  w.sent.isSome ∨ KeepsStatus w before after ∧ ∀ key, KeepsKey w before after key

/-- The head at a release: a status that is not positive is not taken over, and no key is deleted. -/
def releasedHead (h : Head) (before : List Op) : Head :=
  let held := (writerOps before).foldl WriterOp.onHeldHead (200, h.2)
  (if 0 < held.1 then held.1 else h.1, copyHeader held.2 h.2)

/-! ### The last change -/

section LastChange

variable (key : String) (op : WriterOp) (ops : List WriterOp)

theorem getLast?_filterMap_cons {α β : Type*} (f : α → Option β) (a : α) (l : List α) :
    ((a :: l).filterMap f).getLast? = (l.filterMap f).getLast?.or (f a) := by
  rw [filterMap_cons]
  cases f a with
  | none => simp
  | some b => simp [getLast?_cons, Option.or_some]

theorem lastChange_cons : lastChange key (op :: ops) = (lastChange key ops).or (op.change key) :=
  getLast?_filterMap_cons _ op ops

theorem lastCode_cons : lastCode (op :: ops) = (lastCode ops).or op.code :=
  getLast?_filterMap_cons _ op ops

theorem lastStatus_cons : lastStatus (op :: ops) = (lastStatus ops).or (op.code.filter (0 < ·)) := by
  unfold lastStatus
  rw [filter_filterMap, filter_filterMap]
  exact getLast?_filterMap_cons _ op ops

theorem firstHead_eq_foldl (h : Head) : firstHead h ops = (unsent ops).foldl WriterOp.onHead h := by
  induction ops generalizing h with
  | nil => rfl
  | cons op ops ih =>
    rw [firstHead, unsent, takeWhile_cons]
    cases hop : op.commits with
    | true => rfl
    | false => exact ih _

theorem onHead_eq (h : Head) : op.onHead h =
    ((op.code.filter (0 < ·)).getD h.1, fun key => (op.change key).getD (h.2 key)) := by
  cases op with
  | setHeader k value | delHeader k =>
    refine Prod.ext rfl (funext fun key => ?_)
    by_cases hkey : k = key
    · subst hkey
      simp [WriterOp.onHead, WriterOp.change]
    · simp [WriterOp.onHead, WriterOp.change, hkey, Ne.symm hkey]
  | writeHeader code =>
    by_cases hcode : 0 < code <;>
      simp [WriterOp.onHead, WriterOp.code, WriterOp.change, Option.filter, hcode]
  | _ => rfl

theorem foldl_onHead (h : Head) : ops.foldl WriterOp.onHead h =
    ((lastStatus ops).getD h.1, fun key => (lastChange key ops).getD (h.2 key)) := by
  induction ops generalizing h with
  | nil => rfl
  | cons op ops ih =>
    simp only [foldl_cons, ih, onHead_eq, lastStatus_cons, lastChange_cons, getD_or]

theorem onHeldHead_eq (h : Head) : op.onHeldHead h =
    (op.code.getD h.1, fun key => (op.change key).getD (h.2 key)) := by
  cases op with
  | setHeader key value => exact onHead_eq (.setHeader key value) h
  | delHeader key => exact onHead_eq (.delHeader key) h
  | _ => rfl

theorem foldl_onHeldHead (h : Head) : ops.foldl WriterOp.onHeldHead h =
    ((lastCode ops).getD h.1, fun key => (lastChange key ops).getD (h.2 key)) := by
  induction ops generalizing h with
  | nil => rfl
  | cons op ops ih =>
    simp only [foldl_cons, ih, onHeldHead_eq, lastCode_cons, lastChange_cons, getD_or]

theorem releasedHead_eq (h : Head) (before : List Op) : releasedHead h before =
    (((some ((lastCode (writerOps before)).getD 200)).filter (0 < ·)).getD h.1,
      fun key => ((lastChange key (writerOps before)).filter (· ≠ [])).getD (h.2 key)) := by
  rw [releasedHead, foldl_onHeldHead]
  refine Prod.ext ?_ (funext fun key => ?_)
  · by_cases hcode : 0 < (lastCode (writerOps before)).getD 200 <;>
      simp [Option.filter, hcode]
  · cases hlast : lastChange key (writerOps before) with
    | none => simp [copyHeader, hlast]
    | some values => by_cases hvalues : values = [] <;>
        simp [copyHeader, hlast, hvalues, Option.filter]

/-- The condition on the operations says that the head of the release is the head of the handler. -/
theorem keptHead_iff (w : Writer) (before after : List Op) :
    KeepsStatus w before after ∧ (∀ key, KeepsKey w before after key) ↔
      firstHead w.head (writerOps (before ++ after)) =
        if bytesOf (writerOps before) = [] then
          firstHead (releasedHead w.head before) (visibleOps after)
        else releasedHead w.head before := by
  have hshown : (if bytesOf (writerOps before) = [] then
      firstHead (releasedHead w.head before) (visibleOps after)
      else releasedHead w.head before) =
      (shown before after).foldl WriterOp.onHead (releasedHead w.head before) := by
    rw [shown, firstHead_eq_foldl]
    split_ifs <;> rfl
  rw [hshown, firstHead_eq_foldl, foldl_onHead, foldl_onHead, releasedHead_eq, Prod.mk.injEq,
    funext_iff]
  simp only [KeepsStatus, KeepsKey, getD_or]
  rfl

end LastChange

/-- What the handler would have done to the writer of the client. -/
def direct (h : Handler) (c : Context) : Writer :=
  (writerOps (h.ops c.sentResponse c.eventStreamHeaders)).foldl step c.writer

/-! ### Inside of an attempt -/

def Context.marked (c : Context) (marks : Bool × Bool) : Context :=
  { c with sentResponse := marks.1, eventStreamHeaders := marks.2 }

/-- An attempt of which nothing is decided yet. -/
def holding (c : Context) (h : Head) (buf : List UInt8) (i : QualityInspect) : Attempt where
  c := c
  hold := { active := true, header := h.2, buf := buf, status := h.1 }
  inspect := i
  original := false

structure Blocked (env : Env) (c : Context) (a : Attempt) : Prop where
  active : a.hold.active = true
  released : a.hold.released = false
  blocked : a.hold.blocked = true
  finished : a.hold.finished = false
  blockErr : a.hold.blockErr = some (qualityApologyError env)
  flushed : a.hold.flushed = false
  drop : a.hold.drop = true
  original : a.original = false
  context : ∃ marks, a.c = c.marked marks

structure Released (w : Writer) (a : Attempt) : Prop where
  active : a.hold.active = true
  released : a.hold.released = true
  blocked : a.hold.blocked = false
  flushed : a.hold.flushed = true
  drop : a.hold.drop = false
  original : a.original = true
  writer : a.c.writer = w

section Steps

variable {env : Env} {c : Context} {h : Head} {buf : List UInt8} {i : QualityInspect} {w : Writer}
  {a : Attempt}

theorem foldl_holdWrite_holding (pieces : List (List UInt8)) :
    pieces.foldl holdWrite (holding c h buf i) = holding c h (buf ++ pieces.flatten) i := by
  induction pieces generalizing buf with
  | nil => simp
  | cons p pieces ih =>
    have hwrite : (holding c h buf i).holdWrite p = holding c h (buf ++ p) i := rfl
    rw [foldl_cons, hwrite, ih, flatten_cons, append_assoc]

theorem flatten_filter_ne_nil (pieces : List (List UInt8)) :
    (pieces.filter (· ≠ [])).flatten = pieces.flatten := by
  induction pieces with
  | nil => rfl
  | cons p pieces ih =>
    by_cases hp : p = []
    · rw [filter_cons_of_neg (by simpa using hp), ih, hp, flatten_cons, nil_append]
    · rw [filter_cons_of_pos (by simpa using hp), flatten_cons, flatten_cons, ih]

theorem holdStep_holding (op : WriterOp) :
    (holding c h buf i).holdStep op = holding c (op.onHeldHead h) (buf ++ op.bytes) i := by
  cases op with
  | readFrom pieces =>
    rw [holdStep, foldl_holdWrite_holding, flatten_filter_ne_nil]
    rfl
  | write p => rfl
  | writeString p => rfl
  | _ =>
    rw [WriterOp.bytes, append_nil]
    · rfl
    all_goals exact nofun

theorem flush_holding :
    (holding c h buf i).flush =
      { c := { c with writer := (flushTo (holding c h buf i).hold c.writer).2 }
        hold := { (holding c h buf i).hold with released := true, finished := true, flushed := true }
        inspect := i
        original := true } := rfl

theorem released_flush_holding :
    Released (flushTo (holding c h buf i).hold c.writer).2 (holding c h buf i).flush := by
  rw [flush_holding]
  exact ⟨rfl, rfl, rfl, rfl, rfl, rfl, rfl⟩

theorem observe_holding :
    (holding c h buf i).observe env = match verdict env i with
      | .hold => holding c h buf i
      | .release => (holding c h buf i).flush
      | .block => (holding c h buf i).block env := by
  have hopen : observe env (holding c h buf i) =
      if i.toolCalls > 0 || i.media then (holding c h buf i).flush
      else if env.apology && apologyMatches env i.text then (holding c h buf i).block env
      else if Strings.trimSpace i.text ≠ "" ∧
          env.lowTokenThreshold ≤ env.countTextToken i.text then (holding c h buf i).flush
      else holding c h buf i := rfl
  rw [hopen, verdict]
  split_ifs <;> rfl

theorem blocked_block : Blocked env c ((holding c h buf i).block env) :=
  ⟨rfl, rfl, rfl, rfl, rfl, rfl, rfl, rfl, (c.sentResponse, c.eventStreamHeaders), rfl⟩

theorem note_holding {delta : QualityStreamDelta} (hdelta : delta.empty = false) :
    (holding c h buf i).step env (.note delta) = (holding c h buf (i.add delta)).observe env := by
  show noteQualityStreamDelta env (holding c h buf i) delta = _
  unfold noteQualityStreamDelta
  rw [if_neg (by simp [holding, hdelta])]
  rfl

theorem note_empty {delta : QualityStreamDelta} (hdelta : delta.empty = true) :
    a.step env (.note delta) = a := by
  show noteQualityStreamDelta env a delta = _
  unfold noteQualityStreamDelta
  rw [if_pos (by simp [hdelta])]

/-! #### After a decision -/

theorem foldl_holdWrite_of_drop (hdrop : a.hold.drop = true) (pieces : List (List UInt8)) :
    pieces.foldl holdWrite a = a := by
  induction pieces with
  | nil => rfl
  | cons p pieces ih => rw [foldl_cons, holdWrite, if_pos hdrop, ih]

theorem Blocked.step (hb : Blocked env c a) (op : Op) : Blocked env c (a.step env op) := by
  cases op with
  | note delta =>
    have hsame : a.step env (.note delta) = a := by
      show noteQualityStreamDelta env a delta = _
      unfold noteQualityStreamDelta
      rw [if_pos (by simp [hb.blocked])]
    rw [hsame]
    exact hb
  | markSent =>
    obtain ⟨marks, hc⟩ := hb.context
    exact { hb with context := ⟨(true, marks.2), by simp [Attempt.step, hc, Context.marked]⟩ }
  | markEventStreamHeaders =>
    obtain ⟨marks, hc⟩ := hb.context
    exact { hb with context := ⟨(marks.1, true), by simp [Attempt.step, hc, Context.marked]⟩ }
  | writer kept op =>
    have hstep : a.step env (.writer kept op) = a.holdStep op := by
      simp [Attempt.step, hb.active, hb.original]
    rw [hstep]
    cases op with
    | setHeader _ _ => exact { hb with }
    | delHeader _ => exact { hb with }
    | writeHeader code =>
      rw [holdStep, if_neg (by rw [hb.flushed]; exact false_ne_true)]
      exact { hb with }
    | write | writeString =>
      rw [holdStep, holdWrite, if_pos hb.drop]
      exact hb
    | readFrom pieces =>
      rw [holdStep, foldl_holdWrite_of_drop hb.drop]
      exact hb
    | flush =>
      rw [holdStep, if_neg (by rw [hb.flushed]; exact false_ne_true)]
      exact hb

theorem Blocked.foldl (hb : Blocked env c a) (ops : List Op) :
    Blocked env c (ops.foldl (Attempt.step env) a) := by
  induction ops generalizing a with
  | nil => exact hb
  | cons op ops ih => exact ih (hb.step op)

theorem Released.holdWrite (hr : Released w a) (p : List UInt8) :
    Released (w.write p) (a.holdWrite p) := by
  rw [Attempt.holdWrite, if_neg (by rw [hr.drop]; exact false_ne_true), if_pos hr.flushed]
  exact { hr with writer := by rw [← hr.writer] }

theorem Released.foldl_holdWrite (hr : Released w a) (pieces : List (List UInt8)) :
    Released (pieces.foldl write w) (pieces.foldl Attempt.holdWrite a) := by
  induction pieces generalizing w a with
  | nil => exact hr
  | cons p pieces ih => exact ih (hr.holdWrite p)

/-- After the release only a header that is set through the kept reference is lost. -/
theorem Released.step (hr : Released w a) (op : Op) :
    Released ((visibleOps [op]).foldl step w) (a.step env op) := by
  cases op with
  | note delta =>
    have hsame : a.step env (.note delta) = a := by
      show noteQualityStreamDelta env a delta = _
      unfold noteQualityStreamDelta
      rw [if_pos (by simp [hr.released])]
    rw [hsame]
    exact hr
  | markSent => exact { hr with }
  | markEventStreamHeaders => exact { hr with }
  | writer kept op =>
    cases kept with
    | false =>
      have hstep : a.step env (.writer false op) =
          { a with c := { a.c with writer := a.c.writer.step op } } := by
        simp [Attempt.step, hr.original]
      rw [hstep]
      exact { hr with writer := by rw [hr.writer]; rfl }
    | true =>
      have hstep : a.step env (.writer true op) = a.holdStep op := by
        simp [Attempt.step, hr.active]
      rw [hstep]
      cases op with
      | setHeader _ _ => exact { hr with }
      | delHeader _ => exact { hr with }
      | writeHeader | flush =>
        rw [holdStep, if_pos hr.flushed]
        exact { hr with writer := by rw [hr.writer]; rfl }
      | write p | writeString p => exact hr.holdWrite p
      | readFrom pieces => exact hr.foldl_holdWrite _

theorem visibleOps_cons (op : Op) (ops : List Op) :
    visibleOps (op :: ops) = visibleOps [op] ++ visibleOps ops := by
  show visibleOps ([op] ++ ops) = _
  exact filterMap_append

theorem writerOps_cons (op : Op) (ops : List Op) :
    writerOps (op :: ops) = writerOps [op] ++ writerOps ops := by
  show writerOps ([op] ++ ops) = _
  exact filterMap_append

theorem Released.foldl (hr : Released w a) (ops : List Op) :
    Released ((visibleOps ops).foldl Writer.step w) (ops.foldl (Attempt.step env) a) := by
  induction ops generalizing w a with
  | nil => exact hr
  | cons op ops ih =>
    rw [visibleOps_cons, foldl_append]
    exact ih (hr.step op)

end Steps

/-! ### The run of a handler -/

def releaseTo (h : Head) (buf : List UInt8) (w : Writer) : Writer :=
  (flushTo (holding {} h buf {}).hold w).2

def Ended (env : Env) (c : Context) (h : Head) (buf : List UInt8) (ops : List Op) (a : Attempt) :
    Course → Prop
  | .undecided i => ∃ marks, a = holding (c.marked marks)
      ((writerOps ops).foldl WriterOp.onHeldHead h) (buf ++ bytesOf (writerOps ops)) i
  | .blocked => Blocked env c a
  | .released before after => Released ((visibleOps after).foldl step
      (releaseTo ((writerOps before).foldl WriterOp.onHeldHead h)
        (buf ++ bytesOf (writerOps before)) c.writer)) a

section Run

variable {env : Env} {c : Context} {h : Head} {buf : List UInt8} {i : QualityInspect}
  {a : Attempt}

theorem bytesOf_append (ops ops' : List WriterOp) :
    bytesOf (ops ++ ops') = bytesOf ops ++ bytesOf ops' := flatMap_append

theorem Ended.push {op : Op} {ops : List Op} {marks : Bool × Bool} {course : Course}
    (he : Ended env (c.marked marks) ((writerOps [op]).foldl WriterOp.onHeldHead h)
      (buf ++ bytesOf (writerOps [op])) ops a course) :
    Ended env c h buf (op :: ops) a (course.push op) := by
  cases course with
  | undecided i =>
    obtain ⟨marks', ha⟩ := he
    refine ⟨marks', ?_⟩
    rw [ha, writerOps_cons op ops, foldl_append, bytesOf_append, append_assoc]
    rfl
  | blocked =>
    obtain ⟨marks', ha⟩ := Blocked.context he
    exact { he with context := ⟨marks', ha⟩ }
  | released before after =>
    show Released _ a
    rw [writerOps_cons op before, foldl_append, bytesOf_append, ← append_assoc]
    exact he

theorem ended_foldl (ops : List Op) :
    Ended env c h buf ops (ops.foldl (step env) (holding c h buf i)) (course env i ops) := by
  induction ops generalizing c h buf i with
  | nil =>
    refine ⟨(c.sentResponse, c.eventStreamHeaders), ?_⟩
    show _ = holding _ _ (buf ++ []) i
    rw [append_nil]
    rfl
  | cons op ops ih =>
    rw [foldl_cons]
    cases op with
    | writer kept op =>
      have hstep : (holding c h buf i).step env (.writer kept op) =
          holding (c.marked (c.sentResponse, c.eventStreamHeaders)) (op.onHeldHead h)
            (buf ++ op.bytes) i := by
        rw [← holdStep_holding]
        simp [Attempt.step, holding]
        rfl
      refine @Ended.push _ _ _ _ _ _ _ (c.sentResponse, c.eventStreamHeaders) _ ?_
      have hbytes : bytesOf (writerOps [.writer kept op]) = op.bytes := append_nil _
      rw [hstep, hbytes]
      exact ih
    | markSent =>
      refine @Ended.push _ _ _ _ _ _ _ (true, c.eventStreamHeaders) _ ?_
      show Ended _ _ h (buf ++ []) _ _ _
      rw [append_nil]
      exact ih
    | markEventStreamHeaders =>
      refine @Ended.push _ _ _ _ _ _ _ (c.sentResponse, true) _ ?_
      show Ended _ _ h (buf ++ []) _ _ _
      rw [append_nil]
      exact ih
    | note delta =>
      have hpush : ∀ {j : QualityInspect}, Ended env c h buf (.note delta :: ops)
          (ops.foldl (step env) (holding c h buf j))
          ((course env j ops).push (.note delta)) := by
        intro j
        refine @Ended.push _ _ _ _ _ _ _ (c.sentResponse, c.eventStreamHeaders) _ ?_
        show Ended _ _ h (buf ++ []) _ _ _
        rw [append_nil]
        exact ih
      cases hempty : delta.empty with
      | true =>
        rw [note_empty hempty, course, if_pos hempty]
        exact hpush
      | false =>
        rw [note_holding hempty, observe_holding, course,
          if_neg (by rw [hempty]; exact false_ne_true)]
        cases verdict env (i.add delta) with
        | hold => exact hpush
        | block => exact blocked_block.foldl ops
        | release =>
          have hflush := @released_flush_holding c h buf (i.add delta)
          have hbytes : buf ++ bytesOf (writerOps [.note delta]) = buf := append_nil buf
          show Released _ _
          rw [hbytes]
          exact hflush.foldl ops

/-! ### The answer behind the hold -/

def putHead (hd : Head) (w : Writer) : Writer :=
  if hd.1 ≠ 0 then ({ w with header := copyHeader hd.2 w.header } : Writer).writeHeader hd.1
  else { w with header := copyHeader hd.2 w.header }

theorem releaseTo_eq (hd : Head) (w : Writer) :
    releaseTo hd buf w =
      if buf = [] then putHead hd w else ((putHead hd w).write buf).writeHeaderNow := rfl

theorem putHead_of_sent {w : Writer} {s : Head} (hsent : w.sent = some s) (hd : Head) :
    (putHead hd w).sent = some s ∧ (putHead hd w).body = w.body := by
  unfold putHead writeHeader
  split_ifs <;> exact ⟨hsent, rfl⟩

theorem putHead_of_not_sent {w : Writer} (hsent : w.sent = none) (hd : Head) :
    (putHead hd w).sent = none ∧ (putHead hd w).body = w.body ∧
      (putHead hd w).head = (if 0 < hd.1 then hd.1 else w.status, copyHeader hd.2 w.header) := by
  unfold putHead
  by_cases hzero : hd.1 = 0
  · simp [hzero, Writer.head, hsent]
  · have hstep := @Writer.step_of_not_commits { w with header := copyHeader hd.2 w.header }
      hsent (.writeHeader hd.1) rfl
    rw [if_pos hzero]
    exact ⟨hstep.1, hstep.2.2.trans (append_nil _), hstep.2.1⟩

theorem bytesOf_visibleOps (ops : List Op) : bytesOf (visibleOps ops) = bytesOf (writerOps ops) := by
  induction ops with
  | nil => rfl
  | cons op ops ih =>
    rw [visibleOps_cons, writerOps_cons, bytesOf_append, bytesOf_append, ih]
    congr 1
    cases op with
    | writer kept op => cases kept <;> cases op <;> rfl
    | _ => rfl

theorem response_released (w : Writer) (before after : List Op) :
    ((visibleOps after).foldl step
      (releaseTo ((writerOps before).foldl WriterOp.onHeldHead (200, w.header))
        (bytesOf (writerOps before)) w)).response =
      (w.sent.getD (if bytesOf (writerOps before) = [] then
          firstHead (releasedHead w.head before) (visibleOps after)
        else releasedHead w.head before), w.body ++ bytesOf (writerOps (before ++ after))) := by
  have hbytes : bytesOf (writerOps (before ++ after)) =
      bytesOf (writerOps before) ++ bytesOf (visibleOps after) := by
    rw [bytesOf_visibleOps, ← bytesOf_append]
    exact congrArg bytesOf filterMap_append
  have hhead : releasedHead w.head before =
      (if 0 < ((writerOps before).foldl WriterOp.onHeldHead (200, w.header)).1 then
        ((writerOps before).foldl WriterOp.onHeldHead (200, w.header)).1 else w.status,
        copyHeader ((writerOps before).foldl WriterOp.onHeldHead (200, w.header)).2 w.header) := rfl
  rw [Writer.response_foldl, releaseTo_eq, hbytes, hhead, ← append_assoc]
  generalize (writerOps before).foldl WriterOp.onHeldHead (200, w.header) = hd
  generalize bytesOf (writerOps before) = buf
  have hwrite : ∀ {v : Writer} {s : Head}, (v.write buf).sent = some s →
      ((v.write buf).writeHeaderNow) = v.write buf := by
    intro v s hs
    simp [writeHeaderNow, hs]
  cases hsent : w.sent with
  | some s =>
    obtain ⟨hput, hbody⟩ := putHead_of_sent hsent hd
    by_cases hbuf : buf = []
    · rw [if_pos hbuf, hput, hbody, hbuf, append_nil]
      rfl
    · obtain ⟨hw, hwb⟩ := Writer.step_of_sent hput (.write buf)
      rw [if_neg hbuf, hwrite hw]
      show (Option.getD (((putHead hd w).step (.write buf)).sent) _,
        ((putHead hd w).step (.write buf)).body ++ _) = _
      rw [hw, hwb, hbody]
      rfl
  | none =>
    obtain ⟨hput, hbody, hputHead⟩ := putHead_of_not_sent hsent hd
    by_cases hbuf : buf = []
    · rw [if_pos hbuf, if_pos hbuf, hput, hbody, hputHead, hbuf, append_nil]
    · obtain ⟨hw, hwb⟩ := @Writer.step_of_commits _ hput (.write buf) rfl
      rw [if_neg hbuf, if_neg hbuf, hwrite hw]
      show (Option.getD (((putHead hd w).step (.write buf)).sent) _,
        ((putHead hd w).step (.write buf)).body ++ _) = _
      rw [hw, hwb, hbody, hputHead]
      rfl

end Run

end BeeApi.Quality
