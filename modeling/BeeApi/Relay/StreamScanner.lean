import BeeApi.Lib.Run
import BeeApi.Lib.Strings

/-!
# The stream scanner

`StreamScannerHandler`: a scanner reads the lines of the upstream and puts their data into a bounded
channel, a handler takes the data out of it, a ping goroutine writes in between, and the main goroutine
waits for the stop channel or for the client to leave.  The handler never stops, nothing times out and
the server does not shut down.  A step is what one goroutine does between two points where another one
can notice it; the goroutine that writes a ping is the `writer`.
-/

namespace BeeApi.StreamScanner

open Strings List Bool

inductive Scanned
  | skip
  | done
  | data (data : String)
deriving DecidableEq

/-- What the scanner makes of a line.  A line with either prefix has six bytes exactly when it has six
characters. -/
def scanLine (line : String) : Scanned :=
  if line.toList.length < 6 then .skip
  else if ¬ hasPrefix line "data:" ∧ ¬ hasPrefix line "[DONE]" then .skip
  else
    let data := trimSpace (String.ofList (line.toList.drop 5))
    if data = "" then .skip
    else if ¬ hasPrefix data "[DONE]" then .data data
    else .done

inductive StreamEndReason
  | none
  | done
  | eof
  | clientGone
  | pingFail
deriving DecidableEq

/-- The end reason, and how often one was stored. -/
structure StreamStatus where
  endSet : Bool := false
  endReason : StreamEndReason := .none
  stores : ℕ := 0

def StreamStatus.setEndReason (s : StreamStatus) (reason : StreamEndReason) : StreamStatus :=
  if s.endSet then s else { endSet := true, endReason := reason, stores := s.stores + 1 }

/-! ## The goroutines -/

/-- The scanner between two lines, in front of a full channel or on its way out. -/
inductive ScannerPc
  | scan
  | send (data : String)
  | closeData
  | stop
  | exited
deriving DecidableEq

inductive HandlerPc
  | receive
  | lock (data : String)
  | handle (data : String)
  | stop
  | exited
deriving DecidableEq

/-- The ping goroutine waits for a tick, or for its writer to answer. -/
inductive PingPc
  | tick
  | writing
  | exited
deriving DecidableEq

/-- The writer of a ping; `answer err` is what it left in the channel `done`. -/
inductive WriterPc
  | none
  | lock
  | write
  | answer (err : Bool)
deriving DecidableEq

inductive MainPc
  | select
  | drain
  | cleanup
  | wait
  | returned
deriving DecidableEq

structure State where
  lines : List String
  scanner : ScannerPc := .scan
  dataChan : List String := []
  dataClosed : Bool := false
  handler : HandlerPc := .receive
  /-- The calls of the data handler. -/
  calls : List String := []
  ping : PingPc
  writer : WriterPc := .none
  stopClosed : Bool := false
  cancelled : Bool := false
  clientGone : Bool := false
  /-- The client left before a reason was stored. -/
  leftFirst : Bool := false
  status : StreamStatus := {}
  main : MainPc := .select

inductive Action
  | clientLeaves
  | scanner
  | scannerStops
  | handler
  | tick
  | writerLocks
  | writerWrites (fails : Bool)
  | pingAnswered
  | pingStops
  | mainStops
  | mainClientGone
  | main
deriving DecidableEq

def dataChanCapacity : ℕ := 10

def State.setEndReason (s : State) (reason : StreamEndReason) : State :=
  { s with status := s.status.setEndReason reason }

/-- One line, a datum into the channel, or one of the deferred calls. -/
def scannerStep (s : State) : Option State :=
  match s.scanner with
  | .scan =>
    match s.lines with
    | [] => some { s.setEndReason .eof with scanner := .closeData }
    | line :: lines =>
      if s.stopClosed ∨ s.cancelled then some { s with lines := lines, scanner := .closeData }
      else
        match scanLine line with
        | .skip => some { s with lines := lines }
        | .done => some { s.setEndReason .done with lines := lines, scanner := .closeData }
        | .data data => some { s with lines := lines, scanner := .send data }
  | .send data =>
    if s.dataChan.length < dataChanCapacity then
      some { s with dataChan := s.dataChan ++ [data], scanner := .scan }
    else none
  | .closeData => some { s with dataClosed := true, scanner := .stop }
  | .stop => some { s with stopClosed := true, scanner := .exited }
  | .exited => none

/-- The scanner gives a datum up. -/
def scannerStopStep (s : State) : Option State :=
  match s.scanner with
  | .send _ => if s.stopClosed ∨ s.cancelled then some { s with scanner := .closeData } else none
  | _ => none

def handlerStep (s : State) : Option State :=
  match s.handler with
  | .receive =>
    match s.dataChan with
    | data :: dataChan => some { s with dataChan := dataChan, handler := .lock data }
    | [] => if s.dataClosed then some { s with handler := .stop } else none
  | .lock data =>
    if s.writer = .write then none
    else some { s with handler := .handle data, calls := s.calls ++ [data] }
  | .handle _ => some { s with handler := .receive }
  | .stop => some { s with stopClosed := true, handler := .exited }
  | .exited => none

/-- The mutex is held by the handler during a call. -/
def HandlerPc.handling : HandlerPc → Bool
  | .handle _ => true
  | _ => false

def tickStep (s : State) : Option State :=
  match s.ping with
  | .tick => some { s with ping := .writing, writer := .lock }
  | _ => none

def writerLockStep (s : State) : Option State :=
  if s.writer = .lock ∧ ¬ s.handler.handling then some { s with writer := .write } else none

/-- `PingData` fails for a client that is gone; a write can also fail before that is known. -/
def writerWriteStep (s : State) (fails : Bool) : Option State :=
  if s.writer = .write then some { s with writer := .answer (fails || s.clientGone) } else none

def pingAnsweredStep (s : State) : Option State :=
  match s.ping, s.writer with
  | .writing, .answer err =>
    if err then some { s.setEndReason .pingFail with ping := .exited, writer := .none }
    else some { s with ping := .tick, writer := .none }
  | _, _ => none

/-- The ping goroutine leaves; its writer goes on by itself. -/
def pingStopStep (s : State) : Option State :=
  match s.ping with
  | .tick =>
    if s.stopClosed ∨ s.cancelled ∨ s.clientGone then some { s with ping := .exited } else none
  | .writing => if s.stopClosed ∨ s.cancelled then some { s with ping := .exited } else none
  | .exited => none

/-- The stop channel ends the wait of the main goroutine. -/
def mainStopStep (s : State) : Option State :=
  if s.stopClosed ∧ (s.main = .select ∨ s.main = .drain) then some { s with main := .cleanup }
  else none

def mainClientGoneStep (s : State) : Option State :=
  if s.clientGone ∧ s.main = .select then some { s.setEndReason .clientGone with main := .drain }
  else none

/-- Every goroutine has called `wg.Done`. -/
def State.allExited (s : State) : Prop :=
  s.scanner = .exited ∧ s.handler = .exited ∧ s.ping = .exited ∧ s.writer ≠ .lock ∧
    s.writer ≠ .write

instance (s : State) : Decidable s.allExited := inferInstanceAs (Decidable (_ ∧ _))

def mainStep (s : State) : Option State :=
  match s.main with
  | .cleanup => some { s with cancelled := true, stopClosed := true, main := .wait }
  | .wait => if s.allExited then some { s with main := .returned } else none
  | _ => none

def step (s : State) : Action → Option State
  | .clientLeaves =>
    if s.clientGone then none
    else some { s with clientGone := true, leftFirst := !s.status.endSet }
  | .scanner => scannerStep s
  | .scannerStops => scannerStopStep s
  | .handler => handlerStep s
  | .tick => tickStep s
  | .writerLocks => writerLockStep s
  | .writerWrites fails => writerWriteStep s fails
  | .pingAnswered => pingAnsweredStep s
  | .pingStops => pingStopStep s
  | .mainStops => mainStopStep s
  | .mainClientGone => mainClientGoneStep s
  | .main => mainStep s

def initial (lines : List String) (pingEnabled : Bool) : State :=
  { lines := lines, ping := if pingEnabled then .tick else .exited }

def isData (line : String) : Bool := hasPrefix line "data:"

def payload (line : String) : String := trimSpace (String.ofList (line.toList.drop 5))

def isDoneData (line : String) : Bool := isData line && hasPrefix (payload line) "[DONE]"

def announcesDone (line : String) : Bool := hasPrefix line "[DONE]" || isDoneData line

/-- The payloads of the data lines before the first line that announces the end. -/
def expected (lines : List String) : List String :=
  (((lines.takeWhile fun line => !announcesDone line).filter isData).map payload).filter (· ≠ "")

def expectedReason (lines : List String) : StreamEndReason :=
  if lines.any announcesDone then .done else .eof

/-- The handler got exactly the payloads, and one end reason was stored: that of the lines, or that the
client has left before. -/
structure Delivered (lines : List String) (s : State) : Prop where
  calls : s.calls = expected lines
  once : s.status.stores = 1
  reason : s.status.endReason = expectedReason lines ∨
    s.status.endReason = .clientGone ∧ s.leftFirst = true

/-- No line announces the end without the prefix before one does with it. -/
def DoneHasPrefix (lines : List String) : Prop :=
  ∀ line ∈ lines.takeWhile fun line => !isDoneData line, hasPrefix line "[DONE]" = false

instance (lines : List String) : Decidable (DoneHasPrefix lines) :=
  inferInstanceAs (Decidable (∀ _ ∈ _, _))

/-- A ping that failed is noticed after an end reason has been stored. -/
def PingHarmless (s : State) : Action → Prop
  | .pingAnswered => s.writer = .answer true → s.status.endSet = true
  | _ => True

instance (s : State) (a : Action) : Decidable (PingHarmless s a) := by
  cases a <;> unfold PingHarmless <;> infer_instance

/-! ## What the scanner delivers -/

def sentData : List String → List String
  | [] => []
  | line :: lines =>
    match scanLine line with
    | .skip => sentData lines
    | .done => []
    | .data data => data :: sentData lines

def scannedReason : List String → StreamEndReason
  | [] => .eof
  | line :: lines => if scanLine line = .done then .done else scannedReason lines

section Lines

variable {line : String}

theorem scanLine_of_isData (h : isData line = true) :
    scanLine line = if payload line = "" then .skip
      else if hasPrefix (payload line) "[DONE]" then .done else .data (payload line) := by
  obtain ⟨rest, hrest⟩ := isPrefixOf_iff_prefix.1 h
  have hdrop : line.toList.drop 5 = rest := by rw [← hrest]; rfl
  have hlength : line.toList.length = 5 + rest.length := by rw [← hrest, List.length_append]; rfl
  have hpre : ¬ (¬ hasPrefix line "data:" = true ∧ ¬ hasPrefix line "[DONE]" = true) :=
    fun hnot => hnot.1 h
  unfold scanLine
  rw [if_neg hpre]
  by_cases hshort : line.toList.length < 6
  · have hnil : rest = [] := eq_nil_of_length_eq_zero (by omega)
    have hempty : payload line = "" := by rw [payload, hdrop, hnil]; rfl
    rw [if_pos hshort, if_pos hempty]
  · rw [if_neg hshort]
    rw [← payload]
    split
    · rename_i hempty
      rw [if_pos hempty]
    · rename_i hempty
      rw [if_neg hempty]
      by_cases hdone : hasPrefix (payload line) "[DONE]" = true
      · rw [if_neg (not_not_intro hdone), if_pos hdone]
      · rw [if_pos hdone, if_neg hdone]

theorem scanLine_of_other (h : isData line = false) (hd : hasPrefix line "[DONE]" = false) :
    scanLine line = .skip := by
  have hpre : ¬ hasPrefix line "data:" = true ∧ ¬ hasPrefix line "[DONE]" = true :=
    ⟨eq_false_iff.1 h, eq_false_iff.1 hd⟩
  unfold scanLine
  split_ifs
  · rfl
  · rfl

theorem trimSpace_bracket (tail : List Char) :
    ∃ rest, trimSpace (String.ofList (']' :: tail)) = String.ofList (']' :: rest) := by
  have hleft : (']' :: tail).dropWhile isSpace = ']' :: tail := dropWhile_cons_of_neg (by decide)
  have hright : trimSpace (String.ofList (']' :: tail)) =
      String.ofList ((']' :: tail).rdropWhile isSpace) := by
    rw [trimSpace, String.toList_ofList, hleft]
    rfl
  have hne : (']' :: tail).rdropWhile isSpace ≠ [] := by
    intro hnil
    have hspace := rdropWhile_eq_nil_iff.1 hnil ']' mem_cons_self
    cases hspace
  obtain ⟨c, rest, hrest⟩ := exists_cons_of_ne_nil hne
  obtain ⟨after, hafter⟩ := rdropWhile_prefix isSpace (']' :: tail)
  rw [hrest, cons_append] at hafter
  obtain ⟨rfl, -⟩ := List.cons.inj hafter
  exact ⟨rest, by rw [hright, hrest]⟩

/-- Without the prefix, what is cut off is the announcement itself, and the bracket behind it is taken
for data. -/
theorem scanLine_of_bare (h : hasPrefix line "[DONE]" = true) :
    ∃ rest, scanLine line = .data (String.ofList (']' :: rest)) := by
  obtain ⟨tail, htail⟩ := isPrefixOf_iff_prefix.1 h
  have hdrop : line.toList.drop 5 = ']' :: tail := by rw [← htail]; rfl
  have hlength : line.toList.length = 6 + tail.length := by rw [← htail, List.length_append]; rfl
  obtain ⟨rest, hrest⟩ : ∃ rest, trimSpace (String.ofList (line.toList.drop 5)) =
      String.ofList (']' :: rest) := by
    rw [hdrop]
    exact trimSpace_bracket tail
  have hempty : String.ofList (']' :: rest) ≠ "" :=
    fun heq => cons_ne_nil ']' rest (String.ofList_injective heq)
  have hdone : ¬ hasPrefix (String.ofList (']' :: rest)) "[DONE]" = true := by
    have htoList : (String.ofList (']' :: rest)).toList = ']' :: rest := String.toList_ofList
    rw [hasPrefix, htoList]
    exact nofun
  refine ⟨rest, ?_⟩
  unfold scanLine
  rw [if_neg (by omega), if_neg fun hnot => hnot.2 h]
  rw [hrest, if_neg hempty, if_pos hdone]

/-! ### Both readings agree exactly without a bare announcement -/

variable {lines : List String}

theorem expected_cons_of_done (h : announcesDone line = true) : expected (line :: lines) = [] := by
  rw [expected, takeWhile_cons_of_neg (by rw [h]; decide)]
  rfl

theorem expectedReason_cons_of_done (h : announcesDone line = true) :
    expectedReason (line :: lines) = .done := by
  rw [expectedReason, List.any_cons, h, Bool.true_or, if_pos rfl]

theorem expected_cons_of_not (h : announcesDone line = false) :
    expected (line :: lines) =
      (if isData line = true ∧ payload line ≠ "" then [payload line] else []) ++ expected lines := by
  rw [expected, takeWhile_cons_of_pos (by rw [h]; rfl), filter_cons]
  split
  · rename_i hd
    rw [map_cons, filter_cons]
    by_cases hp : payload line = ""
    · simp [hp, expected]
    · simp [hd, hp, expected]
  · rename_i hd
    rw [if_neg fun hand => hd hand.1]
    rfl

theorem expectedReason_cons_of_not (h : announcesDone line = false) :
    expectedReason (line :: lines) = expectedReason lines := by
  rw [expectedReason, List.any_cons, h, Bool.false_or, expectedReason]

theorem doneHasPrefix_cons_of_done (h : isDoneData line = true) : DoneHasPrefix (line :: lines) := by
  rw [DoneHasPrefix, List.takeWhile_cons_of_neg (by rw [h]; decide)]
  exact nofun

theorem doneHasPrefix_cons_of_not (h : isDoneData line = false) :
    DoneHasPrefix (line :: lines) ↔ hasPrefix line "[DONE]" = false ∧ DoneHasPrefix lines := by
  rw [DoneHasPrefix, takeWhile_cons_of_pos (by rw [h]; rfl), forall_mem_cons, DoneHasPrefix]

theorem isPrefixOf_payload (h : isDoneData line = true) :
    isData line = true ∧ payload line ≠ "" ∧ hasPrefix (payload line) "[DONE]" = true := by
  obtain ⟨hdata, hpayload⟩ := and_eq_true_iff.1 h
  refine ⟨hdata, fun heq => ?_, hpayload⟩
  rw [heq] at hpayload
  nomatch hpayload

theorem scanLine_of_not (h : isDoneData line = false) (hbare : hasPrefix line "[DONE]" = false) :
    scanLine line =
      if isData line = true ∧ payload line ≠ "" then .data (payload line) else .skip := by
  by_cases hd : isData line = true
  · have hdone : ¬ hasPrefix (payload line) "[DONE]" = true := fun hp => by
      rw [isDoneData, hd, hp] at h
      nomatch h
    rw [scanLine_of_isData hd, if_neg hdone]
    split
    · rename_i hp
      rw [if_neg fun hand => hand.2 hp]
    · rename_i hp
      rw [if_pos ⟨hd, hp⟩]
  · rw [scanLine_of_other (eq_false_iff.2 hd) hbare, if_neg fun hand => hd hand.1]

/-- What is sent is what is expected exactly when every announcement has its prefix, and then the
stored reason is the right one, too. -/
theorem agree_iff :
    (sentData lines = expected lines ↔ DoneHasPrefix lines) ∧
      (DoneHasPrefix lines → scannedReason lines = expectedReason lines) := by
  induction lines with
  | nil => exact ⟨iff_of_true rfl nofun, fun _ => rfl⟩
  | cons line lines ih =>
    cases hdone : isDoneData line with
    | true =>
      obtain ⟨hdata, hempty, hpayload⟩ := isPrefixOf_payload hdone
      have hannounces : announcesDone line = true := by rw [announcesDone, hdone, Bool.or_true]
      have hscan : scanLine line = .done := by
        rw [scanLine_of_isData hdata, if_neg hempty, if_pos hpayload]
      rw [expected_cons_of_done hannounces, expectedReason_cons_of_done hannounces, sentData,
        scannedReason, hscan, if_pos rfl]
      exact ⟨iff_of_true rfl (doneHasPrefix_cons_of_done hdone), fun _ => rfl⟩
    | false =>
      rw [doneHasPrefix_cons_of_not hdone]
      cases hbare : hasPrefix line "[DONE]" with
      | true =>
        have hannounces : announcesDone line = true := by rw [announcesDone, hbare, Bool.true_or]
        obtain ⟨rest, hscan⟩ := scanLine_of_bare hbare
        rw [expected_cons_of_done hannounces, sentData, hscan]
        exact ⟨iff_of_false nofun fun h => (nomatch h.1), fun h => (nomatch h.1)⟩
      | false =>
        have hannounces : announcesDone line = false := by rw [announcesDone, hdone, hbare]; rfl
        have hscan := scanLine_of_not hdone hbare
        rw [expected_cons_of_not hannounces, expectedReason_cons_of_not hannounces, sentData,
          scannedReason, hscan, and_iff_right rfl]
        by_cases hd : isData line = true ∧ payload line ≠ ""
        · rw [if_pos hd, if_pos hd, if_neg nofun, singleton_append, cons_inj_right]
          exact ih
        · rw [if_neg hd, if_neg hd, if_neg (by decide), nil_append]
          exact ih

end Lines

end BeeApi.StreamScanner
