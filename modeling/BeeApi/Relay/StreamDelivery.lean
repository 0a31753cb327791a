import BeeApi.Relay.StreamScanner

/-!
# Delivery by the stream scanner

Every datum is with the handler, in the channel or still to come, and nobody closes the stop channel
before the scanner is through.  So every interleaving delivers what the scanner sends, and the reason
that is stored first is that of the lines, that the client is gone, or that a ping failed.
-/

namespace BeeApi.StreamScanner

open Strings List Option Bool StreamStatus

/-! ## The invariant -/

def ScannerPc.scanning : ScannerPc → Bool
  | .scan | .send _ => true
  | _ => false

/-- The data that the scanner still has to send. -/
def toCome : ScannerPc → List String → List String
  | .scan, lines => sentData lines
  | .send data, lines => data :: sentData lines
  | _, _ => []

/-- The datum that the handler has taken and not yet been called with. -/
def HandlerPc.held : HandlerPc → List String
  | .lock data => [data]
  | _ => []

def HandlerPc.leaving : HandlerPc → Bool
  | .stop | .exited => true
  | _ => false

def MainPc.waiting : MainPc → Bool
  | .select | .drain => true
  | _ => false

/-- Every datum is with the handler, in the channel or still to come. -/
structure Inv (lines : List String) (s : State) : Prop where
  data : s.calls ++ s.handler.held ++ s.dataChan ++ toCome s.scanner s.lines = sentData lines
  reason : s.scanner.scanning = true → scannedReason s.lines = scannedReason lines
  closed : s.dataClosed = true ↔ s.scanner = .stop ∨ s.scanner = .exited
  handler : s.handler.leaving = true → s.dataClosed = true ∧ s.dataChan = []
  stop : s.stopClosed = true → s.dataClosed = true
  cancelled : s.cancelled = true → s.dataClosed = true
  main : s.main.waiting = false → s.stopClosed = true
  stopped : s.scanner = .exited → s.stopClosed = true
  returned : s.main = .returned → s.scanner = .exited ∧ s.handler = .exited

/-- One reason is stored at most, and by the time the scanner leaves there is one. -/
structure Stored (lines : List String) (s : State) : Prop where
  stores : s.status.stores = if s.status.endSet then 1 else 0
  ended : s.scanner.scanning = false → s.status.endSet = true
  left : s.clientGone = true → s.leftFirst = true ∨ s.status.endSet = true
  first : s.leftFirst = true → s.clientGone = true
  unset : s.status.endSet = false → s.status.endReason = .none
  reason : s.status.endSet = true → s.status.endReason = scannedReason lines ∨
      s.status.endReason = .clientGone ∧ s.leftFirst = true ∨ s.status.endReason = .pingFail

section Steps

variable {lines : List String} {s s' : State}

theorem Inv.scanning (hi : Inv lines s) (h : s.scanner.scanning = true) :
    s.stopClosed = false ∧ s.cancelled = false ∧ s.handler.leaving = false := by
  have hopen : s.dataClosed = false := by
    rw [eq_false_iff]
    intro hc
    rcases hi.closed.1 hc with hs | hs <;> rw [hs] at h <;> nomatch h
  refine ⟨?_, ?_, ?_⟩ <;> rw [eq_false_iff] <;> intro h'
  · rw [hi.stop h'] at hopen
    nomatch hopen
  · rw [hi.cancelled h'] at hopen
    nomatch hopen
  · rw [(hi.handler h').1] at hopen
    nomatch hopen

theorem scannerStep_cases (h : scannerStep s = some s') :
    (s.scanner = .scan ∧ s.lines = [] ∧ s' = { s.setEndReason .eof with scanner := .closeData }) ∨
    (∃ line rest, s.scanner = .scan ∧ s.lines = line :: rest ∧
      (s.stopClosed = true ∨ s.cancelled = true) ∧
      s' = { s with lines := rest, scanner := .closeData }) ∨
    (∃ line rest, s.scanner = .scan ∧ s.lines = line :: rest ∧
      (scanLine line = .skip ∧ s' = { s with lines := rest } ∨ scanLine line = .done ∧
          s' = { s.setEndReason .done with lines := rest, scanner := .closeData } ∨
        ∃ data, scanLine line = .data data ∧
          s' = { s with lines := rest, scanner := .send data })) ∨
    (∃ data, s.scanner = .send data ∧ s.dataChan.length < dataChanCapacity ∧
      s' = { s with dataChan := s.dataChan ++ [data], scanner := .scan }) ∨
    (s.scanner = .closeData ∧ s' = { s with dataClosed := true, scanner := .stop }) ∨
    s.scanner = .stop ∧ s' = { s with stopClosed := true, scanner := .exited } := by
  unfold scannerStep at h
  split at h
  · rename_i hpc
    split at h
    · rename_i hl
      exact .inl ⟨hpc, hl, (some.inj h).symm⟩
    · rename_i line rest hl
      split_ifs at h with hstop
      · exact .inr (.inl ⟨line, rest, hpc, hl, hstop, (some.inj h).symm⟩)
      · refine .inr (.inr (.inl ⟨line, rest, hpc, hl, ?_⟩))
        split at h
        · rename_i hscan
          exact .inl ⟨hscan, (some.inj h).symm⟩
        · rename_i hscan
          exact .inr (.inl ⟨hscan, (some.inj h).symm⟩)
        · rename_i data hscan
          exact .inr (.inr ⟨data, hscan, (some.inj h).symm⟩)
  · rename_i data hpc
    split_ifs at h with hroom
    exact .inr (.inr (.inr (.inl ⟨data, hpc, hroom, (some.inj h).symm⟩)))
  · rename_i hpc
    exact .inr (.inr (.inr (.inr (.inl ⟨hpc, (some.inj h).symm⟩))))
  · rename_i hpc
    exact .inr (.inr (.inr (.inr (.inr ⟨hpc, (some.inj h).symm⟩))))
  · nomatch h

theorem handlerStep_cases (h : handlerStep s = some s') :
    (∃ data rest, s.handler = .receive ∧ s.dataChan = data :: rest ∧
      s' = { s with dataChan := rest, handler := .lock data }) ∨
    (s.handler = .receive ∧ s.dataChan = [] ∧ s.dataClosed = true ∧
      s' = { s with handler := .stop }) ∨
    (∃ data, s.handler = .lock data ∧ s.writer ≠ .write ∧
      s' = { s with handler := .handle data, calls := s.calls ++ [data] }) ∨
    (∃ data, s.handler = .handle data ∧ s' = { s with handler := .receive }) ∨
    s.handler = .stop ∧ s' = { s with stopClosed := true, handler := .exited } := by
  unfold handlerStep at h
  split at h
  · rename_i hpc
    split at h
    · rename_i data rest hq
      exact .inl ⟨data, rest, hpc, hq, (some.inj h).symm⟩
    · rename_i hq
      split_ifs at h with hclosed
      exact .inr (.inl ⟨hpc, hq, hclosed, (some.inj h).symm⟩)
  · rename_i data hpc
    split_ifs at h with hwriter
    exact .inr (.inr (.inl ⟨data, hpc, hwriter, (some.inj h).symm⟩))
  · rename_i data hpc
    exact .inr (.inr (.inr (.inl ⟨data, hpc, (some.inj h).symm⟩)))
  · rename_i hpc
    exact .inr (.inr (.inr (.inr ⟨hpc, (some.inj h).symm⟩)))
  · nomatch h

theorem pingAnsweredStep_cases (h : pingAnsweredStep s = some s') :
    (s.writer = .answer true ∧
      s' = { s.setEndReason .pingFail with ping := .exited, writer := .none }) ∨
    s.writer = .answer false ∧ s' = { s with ping := .tick, writer := .none } := by
  unfold pingAnsweredStep at h
  split at h
  · rename_i err _ hw
    cases err with
    | true => exact .inl ⟨hw, (some.inj h).symm⟩
    | false => exact .inr ⟨hw, (some.inj h).symm⟩
  · nomatch h

theorem mainStep_cases (h : mainStep s = some s') :
    (s.main = .cleanup ∧ s' = { s with cancelled := true, stopClosed := true, main := .wait }) ∨
    s.main = .wait ∧ s.allExited ∧ s' = { s with main := .returned } := by
  unfold mainStep at h
  split at h
  · rename_i hpc
    exact .inl ⟨hpc, (some.inj h).symm⟩
  · rename_i hpc
    split_ifs at h with hall
    exact .inr ⟨hpc, hall, (some.inj h).symm⟩
  · nomatch h

theorem mainStopStep_cases (h : mainStopStep s = some s') :
    s.stopClosed = true ∧ s' = { s with main := .cleanup } := by
  unfold mainStopStep at h
  split_ifs at h with hstop
  exact ⟨hstop.1, (some.inj h).symm⟩

theorem mainClientGoneStep_cases (h : mainClientGoneStep s = some s') :
    s.clientGone = true ∧ s' = { s.setEndReason .clientGone with main := .drain } := by
  unfold mainClientGoneStep at h
  split_ifs at h with hgone
  exact ⟨hgone.1, (some.inj h).symm⟩

/-- The steps of the ping goroutine and its writer that store no reason. -/
def Action.isPing : Action → Bool
  | .tick | .writerLocks | .writerWrites _ | .pingStops => true
  | _ => false

variable {a : Action}

theorem ping_cases (ha : a.isPing = true) (h : step s a = some s') :
    ∃ ping writer, s' = { s with ping := ping, writer := writer } := by
  cases a with
  | tick =>
    change tickStep s = some s' at h
    unfold tickStep at h
    split at h
    · exact ⟨_, _, (some.inj h).symm⟩
    · nomatch h
  | writerLocks =>
    change writerLockStep s = some s' at h
    unfold writerLockStep at h
    split_ifs at h
    exact ⟨_, _, (some.inj h).symm⟩
  | writerWrites fails =>
    change writerWriteStep s fails = some s' at h
    unfold writerWriteStep at h
    split_ifs at h
    exact ⟨_, _, (some.inj h).symm⟩
  | pingStops =>
    change pingStopStep s = some s' at h
    unfold pingStopStep at h
    split at h
    · split_ifs at h
      exact ⟨_, _, (some.inj h).symm⟩
    · split_ifs at h
      exact ⟨_, _, (some.inj h).symm⟩
    · nomatch h
  | _ => nomatch ha

theorem clientLeaves_cases (h : step s .clientLeaves = some s') :
    s.clientGone = false ∧ s' = { s with clientGone := true, leftFirst := !s.status.endSet } := by
  change (if s.clientGone then none else _) = _ at h
  split_ifs at h with hgone
  exact ⟨eq_false_iff.2 hgone, (some.inj h).symm⟩

/-! ### The data -/

theorem Inv.scannerStep (hi : Inv lines s) (h : scannerStep s = some s') : Inv lines s' := by
  have hret : s.main ≠ .returned := fun hr => by
    rw [StreamScanner.scannerStep, (hi.returned hr).1] at h
    cases h
  have hdata := hi.data
  have hclosed := hi.closed
  rcases scannerStep_cases h with ⟨hpc, hl, rfl⟩ | ⟨line, rest, hpc, -, hstop, -⟩ |
    ⟨line, rest, hpc, hl, hscan⟩ | ⟨data, hpc, -, rfl⟩ | ⟨hpc, rfl⟩ | ⟨hpc, rfl⟩
  · rw [hpc, hl] at hdata
    rw [hpc] at hclosed
    exact { hi with
      returned := fun hr => absurd hr hret
      stopped := by rintro ⟨⟩
      data := hdata
      reason := by rintro ⟨⟩
      closed := hclosed.trans (by simp) }
  · obtain ⟨hopen, hactive, -⟩ := hi.scanning (by rw [hpc]; rfl)
    rw [hopen, hactive] at hstop
    rcases hstop with hs | hs <;> cases hs
  · have hreason := hi.reason (by rw [hpc]; rfl)
    rw [hpc, hl, toCome, sentData] at hdata
    rw [hl, scannedReason] at hreason
    rcases hscan with ⟨hscan, rfl⟩ | ⟨hscan, rfl⟩ | ⟨data, hscan, rfl⟩
    · rw [hscan] at hdata hreason
      exact { hi with
        returned := fun hr => absurd hr hret
        data := by rw [← hdata, ← toCome, ← hpc]
        reason := fun _ => hreason }
    · rw [hscan] at hdata
      rw [hpc] at hclosed
      exact { hi with
        returned := fun hr => absurd hr hret
        stopped := by rintro ⟨⟩
        data := hdata
        reason := by rintro ⟨⟩
        closed := hclosed.trans (by simp) }
    · rw [hscan] at hdata hreason
      rw [hpc] at hclosed
      exact { hi with
        returned := fun hr => absurd hr hret
        stopped := by rintro ⟨⟩
        data := hdata
        reason := fun _ => hreason
        closed := hclosed.trans (by simp) }
  · obtain ⟨-, -, hactive⟩ := hi.scanning (by rw [hpc]; rfl)
    have hreason := hi.reason (by rw [hpc]; rfl)
    rw [hpc, toCome] at hdata
    rw [hpc] at hclosed
    refine { hi with
      returned := fun hr => absurd hr hret
      stopped := by rintro ⟨⟩
      data := ?_
      reason := fun _ => hreason
      closed := hclosed.trans (by simp)
      handler := fun hl => absurd hl (eq_false_iff.1 hactive) }
    rw [← hdata, ← append_assoc, append_assoc _ [data], toCome, singleton_append]
  · rw [hpc] at hdata hclosed
    have hopen : ¬ s.dataClosed = true := fun hc => by simpa using hclosed.1 hc
    exact { hi with
      returned := fun hr => absurd hr hret
      stopped := by rintro ⟨⟩
      data := hdata
      reason := by rintro ⟨⟩
      closed := iff_of_true rfl (.inl rfl)
      handler := fun hl => absurd (hi.handler hl).1 hopen
      stop := fun _ => rfl
      cancelled := fun _ => rfl }
  · have hended : s.dataClosed = true := hclosed.2 (.inl hpc)
    rw [hpc] at hdata
    exact { hi with
      returned := fun hr => absurd hr hret
      stopped := fun _ => rfl
      data := hdata
      reason := by rintro ⟨⟩
      closed := iff_of_true hended (.inr rfl)
      stop := fun _ => hended
      main := fun _ => rfl }

theorem Inv.scannerStopStep (hi : Inv lines s) : scannerStopStep s = none := by
  unfold StreamScanner.scannerStopStep
  split
  · rename_i data hpc
    obtain ⟨hstop, hcancel, -⟩ := hi.scanning (by rw [hpc]; rfl)
    exact if_neg (by rw [hstop, hcancel]; decide)
  · rfl

theorem Inv.handlerStep (hi : Inv lines s) (h : handlerStep s = some s') : Inv lines s' := by
  have hret : s.main ≠ .returned := fun hr => by
    rw [StreamScanner.handlerStep, (hi.returned hr).2] at h
    nomatch h
  have hdata := hi.data
  rcases handlerStep_cases h with ⟨data, rest, hpc, hq, rfl⟩ | ⟨hpc, hq, hclosed, rfl⟩ |
    ⟨data, hpc, -, rfl⟩ | ⟨data, hpc, rfl⟩ | ⟨hpc, rfl⟩
  · rw [hpc, hq] at hdata
    have htaken : s.calls ++ [data] ++ rest ++ toCome s.scanner s.lines = sentData lines := by
      simpa [HandlerPc.held] using hdata
    exact { hi with data := htaken, handler := nofun, returned := fun hr => absurd hr hret }
  · rw [hpc] at hdata
    exact { hi with data := hdata, handler := fun _ => ⟨hclosed, hq⟩, returned := fun hr => absurd hr hret }
  · rw [hpc] at hdata
    have hcalled : s.calls ++ [data] ++ [] ++ s.dataChan ++ toCome s.scanner s.lines =
        sentData lines := by
      rw [append_nil]
      exact hdata
    exact { hi with data := hcalled, handler := nofun, returned := fun hr => absurd hr hret }
  · rw [hpc] at hdata
    exact { hi with data := hdata, handler := nofun, returned := fun hr => absurd hr hret }
  · rw [hpc] at hdata
    have hleaving := hi.handler (by rw [hpc]; rfl)
    exact { hi with
      data := hdata
      handler := fun _ => hleaving
      returned := fun hr => absurd hr hret
      stopped := fun _ => rfl
      stop := fun _ => hleaving.1
      main := fun _ => rfl }

theorem Inv.mainStep (hi : Inv lines s) (h : mainStep s = some s') : Inv lines s' := by
  rcases mainStep_cases h with ⟨hpc, rfl⟩ | ⟨hpc, hall, rfl⟩
  · have hstop : s.stopClosed = true := hi.main (by rw [hpc]; rfl)
    exact { hi with
      stop := fun _ => hi.stop hstop
      cancelled := fun _ => hi.stop hstop
      main := fun _ => rfl
      stopped := fun _ => rfl
      returned := nofun }
  · exact { hi with
      main := fun _ => hi.main (by rw [hpc]; rfl)
      returned := fun _ => ⟨hall.1, hall.2.1⟩ }

theorem Inv.ping (hi : Inv lines s) (ha : a.isPing = true) (h : StreamScanner.step s a = some s') :
    Inv lines s' := by
  obtain ⟨ping, writer, rfl⟩ := ping_cases ha h
  exact { hi with }

theorem Inv.step (hi : Inv lines s) (h : step s a = some s') : Inv lines s' := by
  cases a with
  | scanner => exact hi.scannerStep h
  | scannerStops => nomatch hi.scannerStopStep.symm.trans h
  | handler => exact hi.handlerStep h
  | main => exact hi.mainStep h
  | tick | writerLocks | writerWrites _ | pingStops => exact hi.ping rfl h
  | clientLeaves =>
    obtain ⟨-, rfl⟩ := clientLeaves_cases h
    exact { hi with }
  | pingAnswered =>
    rcases pingAnsweredStep_cases h with ⟨-, rfl⟩ | ⟨-, rfl⟩
    · exact { hi with }
    · exact { hi with }
  | mainStops =>
    obtain ⟨hstop, rfl⟩ := mainStopStep_cases h
    exact { hi with main := fun _ => hstop, returned := nofun }
  | mainClientGone =>
    obtain ⟨-, rfl⟩ := mainClientGoneStep_cases h
    exact { hi with main := nofun, returned := nofun }

/-! ### The end reason -/

theorem StreamStatus.setEndReason_of_set {status : StreamStatus} (h : status.endSet = true)
    (reason : StreamEndReason) : status.setEndReason reason = status := if_pos h

theorem StreamStatus.setEndReason_of_not {status : StreamStatus} (h : status.endSet = false)
    (reason : StreamEndReason) :
    status.setEndReason reason =
      { endSet := true, endReason := reason, stores := status.stores + 1 } :=
  if_neg (by rw [h]; decide)

@[simp] theorem StreamStatus.endSet_setEndReason (status : StreamStatus) (reason : StreamEndReason) :
    (status.setEndReason reason).endSet = true := by
  unfold setEndReason
  split_ifs with h
  · exact h
  · rfl

theorem Stored.setEndReason (hs : Stored lines s) (reason : StreamEndReason)
    (h : s.status.endSet = false →
      reason = scannedReason lines ∨ reason = .clientGone ∧ s.leftFirst = true ∨
        reason = .pingFail) :
    Stored lines (s.setEndReason reason) := by
  cases hset : s.status.endSet with
  | true =>
    have heq : s.setEndReason reason = s := by
      rw [State.setEndReason, setEndReason_of_set hset]
    rw [heq]
    exact hs
  | false =>
    have hzero := hs.stores
    rw [hset, if_neg (by decide)] at hzero
    rw [State.setEndReason, setEndReason_of_not hset]
    exact {
      stores := by rw [hzero]; rfl
      ended := fun _ => rfl
      left := fun _ => .inr rfl
      first := hs.first
      unset := nofun
      reason := fun _ => h hset }

theorem Stored.scannerStep (hi : Inv lines s) (hs : Stored lines s)
    (h : scannerStep s = some s') : Stored lines s' := by
  rcases scannerStep_cases h with ⟨hpc, hl, rfl⟩ | ⟨line, rest, hpc, -, hstop, -⟩ |
    ⟨line, rest, hpc, hl, hscan⟩ | ⟨data, hpc, -, rfl⟩ | ⟨hpc, rfl⟩ | ⟨hpc, rfl⟩
  · have hreason := hi.reason (by rw [hpc]; rfl)
    rw [hl] at hreason
    have hset := hs.setEndReason .eof fun _ => .inl hreason
    exact { hset with ended := fun _ => endSet_setEndReason _ _ }
  · obtain ⟨hopen, hactive, -⟩ := hi.scanning (by rw [hpc]; rfl)
    rw [hopen, hactive] at hstop
    rcases hstop with hs | hs <;> cases hs
  · rcases hscan with ⟨-, rfl⟩ | ⟨hscan, rfl⟩ | ⟨data, -, rfl⟩
    · exact { hs with }
    · have hreason := hi.reason (by rw [hpc]; rfl)
      rw [hl, scannedReason, if_pos hscan] at hreason
      have hset := hs.setEndReason .done fun _ => .inl hreason
      exact { hset with ended := fun _ => endSet_setEndReason _ _ }
    · exact { hs with ended := by rintro ⟨⟩ }
  · exact { hs with ended := by rintro ⟨⟩ }
  · exact { hs with ended := fun _ => hs.ended (by rw [hpc]; rfl) }
  · exact { hs with ended := fun _ => hs.ended (by rw [hpc]; rfl) }

theorem Stored.step (hi : Inv lines s) (hs : Stored lines s) (h : step s a = some s') :
    Stored lines s' := by
  cases a with
  | scanner => exact hs.scannerStep hi h
  | scannerStops => nomatch hi.scannerStopStep.symm.trans h
  | handler =>
    rcases handlerStep_cases h with ⟨_, _, -, -, rfl⟩ | ⟨-, -, -, rfl⟩ | ⟨_, -, -, rfl⟩ |
      ⟨_, -, rfl⟩ | ⟨-, rfl⟩ <;> exact { hs with }
  | main => rcases mainStep_cases h with ⟨-, rfl⟩ | ⟨-, -, rfl⟩ <;> exact { hs with }
  | tick | writerLocks | writerWrites _ | pingStops =>
    obtain ⟨ping, writer, rfl⟩ := ping_cases rfl h
    exact { hs with }
  | clientLeaves =>
    obtain ⟨hgone, rfl⟩ := clientLeaves_cases h
    have hnot : ¬ s.leftFirst = true := fun hfirst => by
      rw [hs.first hfirst] at hgone
      nomatch hgone
    refine { hs with
      left := fun _ => ?_
      first := fun _ => rfl
      reason := fun hset => (hs.reason hset).imp_right fun h' => h'.imp_left fun hleft =>
        absurd hleft.2 hnot }
    cases hset : s.status.endSet with
    | true => exact .inr rfl
    | false => exact .inl (by rw [Bool.not_false])
  | pingAnswered =>
    rcases pingAnsweredStep_cases h with ⟨-, rfl⟩ | ⟨-, rfl⟩
    · exact { hs.setEndReason .pingFail fun _ => .inr (.inr rfl) with }
    · exact { hs with }
  | mainStops =>
    obtain ⟨-, rfl⟩ := mainStopStep_cases h
    exact { hs with }
  | mainClientGone =>
    obtain ⟨hgone, rfl⟩ := mainClientGoneStep_cases h
    have hfirst : s.status.endSet = false → s.leftFirst = true := fun hset =>
      (hs.left hgone).resolve_right fun h' => by rw [hset] at h'; nomatch h'
    exact { hs.setEndReason .clientGone fun hset => .inr (.inl ⟨rfl, hfirst hset⟩) with }

/-- Nothing, or a reason is stored, which is that of a ping only when the ping goroutine hears of a
failure. -/
theorem status_cases (h : step s a = some s') :
    (s'.status = s.status ∧ (a = .pingAnswered → s.writer ≠ .answer true)) ∨
    (∃ reason, reason ≠ .pingFail ∧ a ≠ .pingAnswered ∧ s'.status = s.status.setEndReason reason) ∨
    a = .pingAnswered ∧ s.writer = .answer true ∧ s'.status = s.status.setEndReason .pingFail := by
  cases a with
  | scanner =>
    rcases scannerStep_cases h with ⟨-, -, rfl⟩ | ⟨_, _, -, -, -, rfl⟩ |
      ⟨_, _, -, -, ⟨-, rfl⟩ | ⟨-, rfl⟩ | ⟨_, -, rfl⟩⟩ | ⟨_, -, -, rfl⟩ | ⟨-, rfl⟩ | ⟨-, rfl⟩
    · exact .inr (.inl ⟨.eof, by decide, by decide, rfl⟩)
    · exact .inl ⟨rfl, nofun⟩
    · exact .inl ⟨rfl, nofun⟩
    · exact .inr (.inl ⟨.done, by decide, by decide, rfl⟩)
    all_goals exact .inl ⟨rfl, nofun⟩
  | scannerStops =>
    change scannerStopStep s = some s' at h
    unfold scannerStopStep at h
    split at h
    · split_ifs at h
      cases h
      exact .inl ⟨rfl, nofun⟩
    · nomatch h
  | handler =>
    rcases handlerStep_cases h with ⟨_, _, -, -, rfl⟩ | ⟨-, -, -, rfl⟩ | ⟨_, -, -, rfl⟩ |
      ⟨_, -, rfl⟩ | ⟨-, rfl⟩ <;> exact .inl ⟨rfl, nofun⟩
  | main =>
    rcases mainStep_cases h with ⟨-, rfl⟩ | ⟨-, -, rfl⟩ <;>
      exact .inl ⟨rfl, nofun⟩
  | tick | writerLocks | writerWrites _ | pingStops =>
    obtain ⟨ping, writer, rfl⟩ := ping_cases rfl h
    exact .inl ⟨rfl, nofun⟩
  | clientLeaves =>
    obtain ⟨-, rfl⟩ := clientLeaves_cases h
    exact .inl ⟨rfl, nofun⟩
  | pingAnswered =>
    rcases pingAnsweredStep_cases h with ⟨hw, rfl⟩ | ⟨hw, rfl⟩
    · exact .inr (.inr ⟨rfl, hw, rfl⟩)
    · exact .inl ⟨rfl, fun _ => by rw [hw]; decide⟩
  | mainStops =>
    obtain ⟨-, rfl⟩ := mainStopStep_cases h
    exact .inl ⟨rfl, nofun⟩
  | mainClientGone =>
    obtain ⟨-, rfl⟩ := mainClientGoneStep_cases h
    exact .inr (.inl ⟨.clientGone, by decide, by decide, rfl⟩)

theorem pingHarmless_of_ne (h : a = .pingAnswered → s.writer ≠ .answer true) :
    PingHarmless s a := by
  cases a with
  | pingAnswered => exact fun hw => absurd hw (h rfl)
  | _ => trivial

theorem endReason_ne_pingFail_iff (hs : Stored lines s) (h : step s a = some s') :
    s'.status.endReason ≠ .pingFail ↔ s.status.endReason ≠ .pingFail ∧ PingHarmless s a := by
  rcases status_cases h with ⟨hstatus, ha⟩ | ⟨reason, hr, ha, hstatus⟩ | ⟨rfl, hw, hstatus⟩
  · rw [hstatus, and_iff_left (pingHarmless_of_ne ha)]
  · have hharmless : PingHarmless s a := pingHarmless_of_ne fun h' => absurd h' ha
    rw [hstatus, and_iff_left hharmless]
    cases hset : s.status.endSet with
    | true => rw [setEndReason_of_set hset]
    | false =>
      rw [setEndReason_of_not hset, hs.unset hset]
      exact iff_of_true hr (by decide)
  · rw [hstatus]
    cases hset : s.status.endSet with
    | true =>
      rw [setEndReason_of_set hset]
      exact (and_iff_left fun _ => hset).symm
    | false =>
      rw [setEndReason_of_not hset]
      refine iff_of_false (fun hne => hne rfl) fun hand => ?_
      have hset' := hand.2 hw
      rw [hset] at hset'
      nomatch hset'

end Steps

section Runs

variable {lines : List String} {pingEnabled : Bool} {l : List Action} {s : State}

theorem inv_initial : Inv lines (initial lines pingEnabled) where
  data := rfl
  reason := fun _ => rfl
  closed := ⟨nofun, fun hs => by rcases hs with hs | hs <;> nomatch hs⟩
  handler := nofun
  stop := nofun
  cancelled := nofun
  main := nofun
  stopped := nofun
  returned := nofun

theorem stored_initial : Stored lines (initial lines pingEnabled) where
  stores := rfl
  ended := nofun
  left := nofun
  first := nofun
  unset := fun _ => rfl
  reason := nofun

theorem inv_of_run (h : Run.run step (initial lines pingEnabled) l = some s) :
    Inv lines s ∧ Stored lines s := by
  have hrule := @Run.invariant State Action step fun s => Inv lines s ∧ Stored lines s
  exact hrule (fun _ _ _ hi hstep => ⟨hi.1.step hstep, hi.2.step hi.1 hstep⟩)
    ⟨inv_initial, stored_initial⟩ h

theorem calls_of_returned (hi : Inv lines s) (hr : s.main = .returned) :
    s.calls = sentData lines := by
  obtain ⟨hscanner, hhandler⟩ := hi.returned hr
  have hdata := hi.data
  rw [hscanner, hhandler, (hi.handler (by rw [hhandler]; rfl)).2] at hdata
  simpa [HandlerPc.held, toCome] using hdata

/-! ### No run gets stuck -/

/-- The steps that wait neither for the clock nor for the client. -/
def Action.goesOn : Action → Bool
  | .tick | .clientLeaves => false
  | _ => true

theorem handler_enabled (hl : s.handler.leaving = false)
    (hq : s.dataChan = [] → s.dataClosed = true) :
    ∃ a : Action, a.goesOn = true ∧ step s a ≠ none := by
  cases hpc : s.handler with
  | receive =>
    refine ⟨.handler, rfl, ?_⟩
    change handlerStep s ≠ none
    rw [handlerStep, hpc]
    cases hc : s.dataChan with
    | nil => simp [hq hc]
    | cons data rest => simp
  | lock data =>
    by_cases hw : s.writer = .write
    · refine ⟨.writerWrites false, rfl, ?_⟩
      change writerWriteStep s false ≠ none
      rw [writerWriteStep, if_pos hw]
      exact some_ne_none _
    · refine ⟨.handler, rfl, ?_⟩
      change handlerStep s ≠ none
      rw [handlerStep, hpc]
      simp [hw]
  | handle data =>
    refine ⟨.handler, rfl, ?_⟩
    change handlerStep s ≠ none
    rw [handlerStep, hpc]
    exact some_ne_none _
  | stop | exited =>
    rw [hpc] at hl
    nomatch hl

theorem others_enabled (hstop : s.stopClosed = true) (hscanner : s.scanner = .exited)
    (hhandler : s.handler = .exited) (hr : s.main ≠ .returned) :
    ∃ a : Action, a.goesOn = true ∧ step s a ≠ none := by
  by_cases hp : s.ping = .exited
  · cases hw : s.writer with
    | lock =>
      refine ⟨.writerLocks, rfl, ?_⟩
      change writerLockStep s ≠ none
      rw [writerLockStep, if_pos ⟨hw, by rw [hhandler]; decide⟩]
      exact some_ne_none _
    | write =>
      refine ⟨.writerWrites false, rfl, ?_⟩
      change writerWriteStep s false ≠ none
      rw [writerWriteStep, if_pos hw]
      exact some_ne_none _
    | none | answer _ =>
      have hall : s.allExited := ⟨hscanner, hhandler, hp, by rw [hw]; nofun, by rw [hw]; nofun⟩
      cases hm : s.main with
      | select | drain =>
        refine ⟨.mainStops, rfl, ?_⟩
        change mainStopStep s ≠ none
        rw [mainStopStep, hm, if_pos ⟨hstop, by decide⟩]
        exact some_ne_none _
      | cleanup =>
        refine ⟨.main, rfl, ?_⟩
        change mainStep s ≠ none
        rw [mainStep, hm]
        exact some_ne_none _
      | wait =>
        refine ⟨.main, rfl, ?_⟩
        change mainStep s ≠ none
        rw [mainStep, hm]
        simp [hall]
      | returned => exact absurd hm hr
  · refine ⟨.pingStops, rfl, ?_⟩
    change pingStopStep s ≠ none
    rw [pingStopStep]
    cases hpc : s.ping with
    | tick | writing => simp [hstop]
    | exited => exact absurd hpc hp

/-- Until the scanner handler has returned, some goroutine can go on. -/
theorem enabled_of_inv (hi : Inv lines s) (hr : s.main ≠ .returned) :
    ∃ a : Action, a.goesOn = true ∧ step s a ≠ none := by
  cases hpc : s.scanner with
  | scan =>
    refine ⟨.scanner, rfl, ?_⟩
    change scannerStep s ≠ none
    rw [scannerStep, hpc]
    cases s.lines with
    | nil => exact some_ne_none _
    | cons line rest =>
      dsimp only
      split_ifs
      · exact some_ne_none _
      · cases scanLine line <;> exact some_ne_none _
  | send data =>
    by_cases hroom : s.dataChan.length < dataChanCapacity
    · refine ⟨.scanner, rfl, ?_⟩
      change scannerStep s ≠ none
      rw [scannerStep, hpc]
      simp [hroom]
    · have hfull : s.dataChan ≠ [] := fun hnil => hroom (by rw [hnil]; decide)
      exact handler_enabled (hi.scanning (by rw [hpc]; rfl)).2.2 fun hnil => absurd hnil hfull
  | closeData | stop =>
    refine ⟨.scanner, rfl, ?_⟩
    change scannerStep s ≠ none
    rw [scannerStep, hpc]
    exact some_ne_none _
  | exited =>
    cases hl : s.handler.leaving with
    | false => exact handler_enabled hl fun _ => hi.closed.2 (.inr hpc)
    | true =>
      cases hh : s.handler with
      | exited => exact others_enabled (hi.stopped hpc) hpc hh hr
      | stop =>
        refine ⟨.handler, rfl, ?_⟩
        change handlerStep s ≠ none
        rw [handlerStep, hh]
        exact some_ne_none _
      | receive | lock _ | handle _ =>
        rw [hh] at hl
        nomatch hl

/-! ### Every run ends -/

@[simp] def ScannerPc.work : ScannerPc → ℕ
  | .scan => 3
  | .send _ => 8
  | .closeData => 2
  | .stop => 1
  | .exited => 0

@[simp] def HandlerPc.work : HandlerPc → ℕ
  | .receive => 2
  | .lock _ => 5
  | .handle _ => 4
  | .stop => 1
  | .exited => 0

@[simp] def PingPc.work : PingPc → ℕ
  | .tick => 1
  | .writing => 2
  | .exited => 0

@[simp] def WriterPc.work : WriterPc → ℕ
  | .none => 0
  | .lock => 3
  | .write => 2
  | .answer _ => 1

@[simp] def MainPc.work : MainPc → ℕ
  | .select => 4
  | .drain => 3
  | .cleanup => 2
  | .wait => 1
  | .returned => 0

/-- The steps that are left when no ping is due any more.  A line costs its scan and its way through
the channel. -/
def State.work (s : State) : ℕ :=
  6 * s.lines.length + 4 * s.dataChan.length + s.scanner.work + s.handler.work + s.ping.work +
    s.writer.work + s.main.work + if s.clientGone then 0 else 1

theorem work_step (h : step s a = some s') :
    s'.work + 1 ≤ s.work + if a = .tick then 5 else 0 := by
  unfold State.work
  cases a with
  | clientLeaves =>
    obtain ⟨hgone, rfl⟩ := clientLeaves_cases h
    simp only [hgone, reduceCtorEq, Bool.false_eq_true, if_false, if_true]
    omega
  | scanner =>
    rcases scannerStep_cases h with ⟨hpc, hl, rfl⟩ | ⟨line, rest, hpc, hl, -, rfl⟩ |
      ⟨line, rest, hpc, hl, hscan⟩ | ⟨data, hpc, -, rfl⟩ | ⟨hpc, rfl⟩ | ⟨hpc, rfl⟩
    · simp only [State.setEndReason, ScannerPc.work, hpc, hl]
      omega
    · simp only [ScannerPc.work, hpc, hl, length_cons]
      omega
    · rcases hscan with ⟨-, rfl⟩ | ⟨-, rfl⟩ | ⟨data, -, rfl⟩
      all_goals
        simp only [State.setEndReason, ScannerPc.work, hpc, hl, length_cons]
        omega
    all_goals
      simp only [ScannerPc.work, hpc, length_append, length_singleton]
      omega
  | scannerStops =>
    simp only [step, scannerStopStep] at h
    split at h
    · rename_i hpc
      split_ifs at h
      obtain rfl := some.inj h
      simp only [ScannerPc.work, hpc]
      omega
    · cases h
  | handler =>
    rcases handlerStep_cases h with ⟨data, rest, hpc, hq, rfl⟩ | ⟨hpc, hq, -, rfl⟩ |
      ⟨data, hpc, -, rfl⟩ | ⟨data, hpc, rfl⟩ | ⟨hpc, rfl⟩
    · simp only [HandlerPc.work, hpc, hq, length_cons]
      omega
    all_goals
      simp only [HandlerPc.work, hpc]
      omega
  | tick =>
    simp only [step, tickStep] at h
    split at h
    · rename_i hpc
      obtain rfl := some.inj h
      simp only [PingPc.work, WriterPc.work, hpc, if_true]
      omega
    · cases h
  | writerLocks =>
    simp only [step, writerLockStep] at h
    split_ifs at h with hw
    obtain rfl := some.inj h
    simp only [WriterPc.work, hw.1]
    omega
  | writerWrites fails =>
    simp only [step, writerWriteStep] at h
    split_ifs at h with hw
    obtain rfl := some.inj h
    simp only [WriterPc.work, hw]
    omega
  | pingAnswered =>
    simp only [step, pingAnsweredStep] at h
    split at h
    · rename_i hpc hw
      split_ifs at h
      all_goals
        obtain rfl := some.inj h
        simp only [State.setEndReason, PingPc.work, WriterPc.work, hpc, hw]
        omega
    · cases h
  | pingStops =>
    simp only [step, pingStopStep] at h
    split at h
    · rename_i hpc
      split_ifs at h
      obtain rfl := some.inj h
      simp only [PingPc.work, hpc]
      omega
    · rename_i hpc
      split_ifs at h
      obtain rfl := some.inj h
      simp only [PingPc.work, hpc]
      omega
    · cases h
  | mainStops =>
    simp only [step, mainStopStep] at h
    split_ifs at h with hstop
    obtain rfl := some.inj h
    rcases hstop.2 with hm | hm
    all_goals
      simp only [MainPc.work, hm]
      omega
  | mainClientGone =>
    simp only [step, mainClientGoneStep] at h
    split_ifs at h with hgone
    obtain rfl := some.inj h
    simp only [State.setEndReason, MainPc.work, hgone.2]
    omega
  | main =>
    rcases mainStep_cases h with ⟨hm, rfl⟩ | ⟨hm, -, rfl⟩
    all_goals
      simp only [MainPc.work, hm]
      omega

/-- Under every schedule the scanner handler returns: the lines and ticks bound the steps of a run, and
until it returns a goroutine can go on that waits neither for a tick nor for the client. -/
theorem returns_of_run (h : Run.run step (initial lines pingEnabled) l = some s) :
    l.length ≤ 6 * lines.length + 11 + 5 * l.countP (· = .tick) ∧
      (s.main ≠ .returned → ∃ a : Action, a.goesOn = true ∧ step s a ≠ none) := by
  have hrun := Run.length_add_le_of_decreasing (f := State.work) (p := (· = .tick)) (n := 5)
    (fun _ _ _ hs => by simpa using work_step hs) h
  have hstart : (initial lines pingEnabled).work ≤ 6 * lines.length + 11 := by
    cases pingEnabled <;> simp [initial, State.work]
  exact ⟨by omega, enabled_of_inv (inv_of_run h).1⟩

theorem endReason_ne_pingFail_iff_along (h : Run.run step (initial lines pingEnabled) l = some s) :
    s.status.endReason ≠ .pingFail ↔ Run.Along step PingHarmless (initial lines pingEnabled) l := by
  have hfinal : s.status.endReason ≠ .pingFail ↔
      (initial lines pingEnabled).status.endReason ≠ .pingFail ∧
        Run.Along step PingHarmless (initial lines pingEnabled) l :=
    Run.final_iff_along (I := fun s => Inv lines s ∧ Stored lines s)
      (P := fun s => s.status.endReason ≠ .pingFail)
      (fun _ _ _ hi hstep => ⟨hi.1.step hstep, hi.2.step hi.1 hstep⟩)
      (fun _ _ _ hi hstep => endReason_ne_pingFail_iff hi.2 hstep) ⟨inv_initial, stored_initial⟩ h
  exact hfinal.trans (and_iff_right nofun)

/-- In every run that returns, the data lines are delivered and the end reason is right exactly when no
line announces the end without the prefix and no ping fails on a client that is gone before another reason
is stored. -/
theorem delivered_iff (h : Run.run step (initial lines pingEnabled) l = some s)
    (hr : s.main = .returned) :
    Delivered lines s ↔
      DoneHasPrefix lines ∧ Run.Along step PingHarmless (initial lines pingEnabled) l := by
  obtain ⟨hi, hs⟩ := inv_of_run h
  have hcalls := calls_of_returned hi hr
  have hset : s.status.endSet = true := hs.ended (by rw [(hi.returned hr).1]; rfl)
  rw [← endReason_ne_pingFail_iff_along h]
  constructor
  · intro hd
    refine ⟨agree_iff.1.1 (hcalls.symm.trans hd.calls), fun hping => ?_⟩
    rcases hd.reason with hreason | ⟨hreason, -⟩
    · rw [hping, expectedReason] at hreason
      split_ifs at hreason
    · rw [hping] at hreason
      cases hreason
  · rintro ⟨hlines, hping⟩
    refine ⟨hcalls.trans (agree_iff.1.2 hlines), ?_, ?_⟩
    · rw [hs.stores, hset, if_pos rfl]
    · rw [← agree_iff.2 hlines]
      exact (hs.reason hset).imp_right fun h' => h'.resolve_right hping

end Runs

/-! ## Runs -/

def shortLines : List String := ["data: hello", ": keep-alive", "data: [DONE]"]

/-- The client leaves, and a ping fails after the main goroutine has noticed. -/
def patientRun : List Action :=
  [.scanner, .scanner, .clientLeaves, .tick, .mainClientGone, .writerLocks, .writerWrites false,
    .handler, .pingAnswered, .handler, .scanner, .handler, .scanner, .scanner, .scanner, .mainStops,
    .handler, .main, .handler, .main]

theorem delivered_patientRun :
    ∃ s, Run.run step (initial shortLines true) patientRun = some s ∧ Delivered shortLines s := by
  exact exists_some_imp (p := fun s => s.main = .returned) (by decide +kernel) fun s hs hr =>
    (delivered_iff hs hr).2 ⟨by decide +kernel, by decide +kernel⟩

theorem goesOn_after_clientLeaves :
    ∃ s, Run.run step (initial shortLines true) [.scanner, .clientLeaves] = some s ∧
      ∃ a : Action, a.goesOn = true ∧ step s a ≠ none := by
  exact exists_some_imp (p := fun s => s.main ≠ .returned) (by decide +kernel) fun s hs hr =>
    (returns_of_run hs).2 hr

def bareLines : List String := ["data: a", "[DONE]", "data: b"]

def bareRun : List Action :=
  [.scanner, .scanner, .scanner, .scanner, .scanner, .scanner, .scanner, .scanner, .scanner,
    .handler, .handler, .handler, .handler, .handler, .handler, .handler, .handler, .handler,
    .handler, .handler, .mainStops, .main, .main]

def hastyRun : List Action :=
  [.clientLeaves, .tick, .writerLocks, .writerWrites false, .pingAnswered, .mainClientGone,
    .scanner, .scanner, .scanner, .scanner, .scanner, .scanner, .handler, .handler, .handler,
    .handler, .handler, .mainStops, .main, .main]

/-- A bare announcement is taken for the datum `]` and ends nothing, and a failed ping hides that the
client has left. -/
theorem not_delivered :
    (∃ s, Run.run step (initial bareLines false) bareRun = some s ∧ s.main = .returned ∧
      s.calls = ["a", "]", "b"] ∧ ¬ Delivered bareLines s) ∧
    ∃ s, Run.run step (initial shortLines true) hastyRun = some s ∧ s.main = .returned ∧
      s.status.endReason = .pingFail ∧ ¬ Delivered shortLines s := by
  constructor
  · refine exists_some_imp (p := fun s => s.main = .returned ∧ s.calls = ["a", "]", "b"])
      (by decide +kernel) fun s _ ⟨hmain, hcalls⟩ => ⟨hmain, hcalls, fun hd => ?_⟩
    have hexpected : expected bareLines ≠ ["a", "]", "b"] := by decide +kernel
    exact hexpected (hd.calls.symm.trans hcalls)
  · refine exists_some_imp (p := fun s => s.main = .returned ∧
      s.status.endReason = .pingFail) (by decide +kernel) fun s _ ⟨hmain, hreason⟩ =>
        ⟨hmain, hreason, fun hd => ?_⟩
    rcases hd.reason with h | ⟨h, -⟩
    · have hdone : expectedReason shortLines ≠ .pingFail := by decide +kernel
      exact hdone (h.symm.trans hreason)
    · nomatch hreason.symm.trans h

end BeeApi.StreamScanner
