import BeeApi.Relay.Loop

/-!
# One answer for a request

The loop of `Relay` with what the attempts write to the client, the other URLs of a channel, and the
error body that the deferred function writes.  Nothing in the loop asks whether an attempt has written
already, except for the change of the URL.
-/

namespace BeeApi.Relay

open List Option

/-! ## Attempts -/

/-- An error of a handler, and whether its text has the marker of a content violation. -/
structure HandlerError where
  error : NewAPIError
  violation : Bool := false

/-- A call of the handler: the bytes of an answer that it writes to the client, and how it ends;
`seekFails` says that the body cannot be set back before it. -/
structure Attempt where
  written : List UInt8 := []
  result : Option HandlerError := none
  hasSendResponse : Bool := false
  seekFails : Bool := false

def normalizeViolationFeeError (e : HandlerError) : NewAPIError :=
  if e.violation then
    { errorCode := "violation_fee.grok.csam", skipRetry := true, statusCode := e.error.statusCode }
  else if Strings.hasPrefix e.error.errorCode "violation_fee." then
    { e.error with skipRetry := true }
  else e.error

def readRequestBodyFailed (statusCode : ℤ) : NewAPIError :=
  { errorCode := "read_request_body_failed", skipRetry := true, statusCode := statusCode }

def relayDeadlineExceeded : NewAPIError :=
  { errorCode := "relay_deadline_exceeded", skipRetry := true, statusCode := 504 }

def channelSelectionFailed : NewAPIError :=
  { errorCode := "get_channel_failed", skipRetry := true, statusCode := 500 }

/-- The loop over the URLs of a channel: the attempts, and the error that is left. -/
def urlLoop : Attempt → List Attempt → List Attempt × Option HandlerError
  | a, [] => ([a], a.result)
  | a, next :: others =>
    match a.result with
    | none => ([a], none)
    | some err =>
      if err.error.errorCode = "upstream_no_response" ∧ ¬ a.hasSendResponse then
        if next.seekFails then ([a], some { error := readRequestBodyFailed 400 })
        else
          let rest := urlLoop next others
          (a :: rest.1, rest.2)
      else ([a], some err)

/-- A round of the loop with the attempts that its channel would make, one for each URL. -/
structure AnswerRound where
  round : Round := {}
  bodyTooLarge : Bool := false
  first : Attempt
  others : List Attempt := []

/-- The state of the loop, the error of the last round, and the attempts made. -/
structure Served where
  loop : RelayLoop
  newAPIError : Option NewAPIError := none
  attempts : List Attempt := []

/-- What ends a round before its first attempt.  When there is no channel, the error of the round
before is kept. -/
def failsBefore (env : RelayEnv) (origin : Origin) (s : Served) (r : AnswerRound) :
    Option NewAPIError :=
  if r.round.expired then some relayDeadlineExceeded
  else
    match getChannel env origin s.loop r.round with
    | (_, none) => some (s.newAPIError.getD channelSelectionFailed)
    | (w, some _) =>
      if 0 < w.param.retry ∧ r.round.expiredWaiting then some relayDeadlineExceeded
      else if r.round.bodyFails then
        some (readRequestBodyFailed (if r.bodyTooLarge then 413 else 400))
      else none

def AnswerRound.result (r : AnswerRound) : Option NewAPIError :=
  (urlLoop r.first r.others).2.map normalizeViolationFeeError

def answerRound (rules : RetryRules) (env : RelayEnv) (origin : Origin) (s : Served)
    (r : AnswerRound) : Option Served :=
  (relayRound (shouldRetry rules) env origin s.loop { r.round with result := r.result }).map
    fun loop =>
      match failsBefore env origin s r with
      | some err => { s with loop := loop, newAPIError := some err }
      | none =>
        { loop := loop
          newAPIError := r.result
          attempts := s.attempts ++ (urlLoop r.first r.others).1 }

/-! ## The answer -/

inductive RelayFormat
  | openAIRealtime
  | claude
  | openAI
deriving DecidableEq

/-- `c.JSON` writes no body for these statuses. -/
def bodyAllowedForStatus (status : ℤ) : Bool :=
  ¬ (100 ≤ status ∧ status ≤ 199) ∧ status ≠ 204 ∧ status ≠ 304

/-- The error reaches the client: as an event of the websocket, or as a JSON body. -/
def writesError (format : RelayFormat) (err : NewAPIError) : Bool :=
  format = .openAIRealtime ∨ bodyAllowedForStatus err.statusCode

inductive Output
  | answer (written : List UInt8)
  | errorBody (err : NewAPIError)
deriving DecidableEq

/-- What the client gets: the output of the attempts, and what the deferred function writes. -/
def outputs (format : RelayFormat) (s : Served) : List Output :=
  s.attempts.map (fun a => .answer a.written) ++ match s.newAPIError with
    | some err => if writesError format err then [.errorBody err] else []
    | none => []

def Output.isSome : Output → Bool
  | .answer written => written ≠ []
  | .errorBody _ => true

/-- Nothing comes after an attempt that has written, and there is one answer or one error body. -/
structure OneAnswer (l : List Output) : Prop where
  last : ∀ before written after, l = before ++ .answer written :: after → written ≠ [] → after = []
  one : (l.filter Output.isSome).length ≤ 1

def FailsSilently (env : RelayEnv) (origin : Origin) (s : Served) (r : AnswerRound) : Prop :=
  failsBefore env origin s r = none →
    ∀ a ∈ (urlLoop r.first r.others).1, a.result ≠ none → a.written = []

instance (env : RelayEnv) (origin : Origin) (s : Served) (r : AnswerRound) :
    Decidable (FailsSilently env origin s r) :=
  inferInstanceAs (Decidable (_ → ∀ _ ∈ _, _ → _))

/-- Every error of the round has a status with a body. -/
def ErrorsHaveBodies (format : RelayFormat) (r : AnswerRound) : Prop :=
  ∀ a ∈ r.first :: r.others, ∀ err ∈ a.result, writesError format err.error = true

/-- The last attempt succeeds exactly when no error is left, and those before it have failed. -/
theorem urlLoop_spec (a : Attempt) (others : List Attempt) :
    ∃ before last, (urlLoop a others).1 = before ++ [last] ∧ (∀ b ∈ before, b.result ≠ none) ∧
      ((urlLoop a others).2 = none ↔ last.result = none) := by
  induction others generalizing a with
  | nil => exact ⟨[], a, rfl, nofun, Iff.rfl⟩
  | cons next others ih =>
    cases hresult : a.result with
    | none =>
      rw [urlLoop, hresult]
      exact ⟨[], a, rfl, nofun, iff_of_true rfl hresult⟩
    | some err =>
      have hfailed : a.result ≠ none := by rw [hresult]; exact some_ne_none err
      rw [urlLoop, hresult]
      dsimp only
      split_ifs
      · exact ⟨[], a, rfl, nofun, iff_of_false nofun hfailed⟩
      · obtain ⟨before, last, hmade, hbefore, hlast⟩ := ih next
        refine ⟨a :: before, last, by rw [hmade, cons_append], ?_, hlast⟩
        exact forall_mem_cons.2 ⟨hfailed, hbefore⟩
      · exact ⟨[], a, rfl, nofun, iff_of_false nofun hfailed⟩

theorem normalize_statusCode (e : HandlerError) :
    (normalizeViolationFeeError e).statusCode = e.error.statusCode := by
  unfold normalizeViolationFeeError
  split_ifs <;> rfl

theorem writesError_normalize (format : RelayFormat) (e : HandlerError) :
    writesError format (normalizeViolationFeeError e) = writesError format e.error := by
  rw [writesError, normalize_statusCode, writesError]

/-! ## The loop -/

section Rounds

variable {rules : RetryRules} {env : RelayEnv} {origin : Origin} {s s' : Served} {r : AnswerRound}

theorem open_of_relayRound {decision : RelayCtx → NewAPIError → ℤ → Bool} {w w' : RelayLoop}
    {round : Round} (h : relayRound decision env origin w round = some w') : w.finished = false := by
  unfold relayRound at h
  obtain ⟨hguard, -⟩ := ite_none_left_eq_some.1 h
  exact Bool.eq_false_iff.2 (not_or.1 hguard).1

theorem getChannel_result (w : RelayLoop) (round : Round) (result : Option NewAPIError) :
    getChannel env origin w { round with result := result } = getChannel env origin w round := rfl

theorem finished_of_result {decision : RelayCtx → NewAPIError → ℤ → Bool} {w : RelayLoop}
    (hbefore : failsBefore env origin s r = none)
    (h : relayRound decision env origin s.loop { r.round with result := none } = some w) :
    w.finished = true := by
  unfold failsBefore at hbefore
  unfold relayRound at h
  obtain ⟨-, h⟩ := ite_none_left_eq_some.1 h
  by_cases hexpired : r.round.expired = true
  · rw [if_pos hexpired] at hbefore
    nomatch hbefore
  rw [if_neg hexpired] at hbefore h
  rw [getChannel_result] at h
  generalize getChannel env origin s.loop r.round = got at hbefore h
  obtain ⟨w₁, channel⟩ := got
  cases channel with
  | none => nomatch hbefore
  | some c =>
    dsimp only at hbefore h
    split_ifs at hbefore h
    cases h
    rfl

theorem answerRound_cases (h : answerRound rules env origin s r = some s') :
    s.loop.finished = false ∧
      ((∃ err, failsBefore env origin s r = some err ∧ s'.newAPIError = some err ∧
          s'.attempts = s.attempts) ∨
        failsBefore env origin s r = none ∧ s'.newAPIError = r.result ∧
          s'.attempts = s.attempts ++ (urlLoop r.first r.others).1 ∧
          (r.result = none → s'.loop.finished = true)) := by
  obtain ⟨loop, hloop, rfl⟩ := map_eq_some_iff.1 h
  refine ⟨open_of_relayRound hloop, ?_⟩
  cases hbefore : failsBefore env origin s r with
  | some err => exact .inl ⟨err, rfl, rfl, rfl⟩
  | none =>
    refine .inr ⟨rfl, rfl, rfl, fun hresult => ?_⟩
    rw [hresult] at hloop
    exact finished_of_result hbefore hloop

/-- An attempt has written, and something came after it or is going to come. -/
def Spoilt (s : Served) : Prop :=
  ∃ before a after, s.attempts = before ++ a :: after ∧ a.written ≠ [] ∧
    (after ≠ [] ∨ s.newAPIError ≠ none)

/-- A loop that goes on without an error has made no attempt. -/
def Begun (s : Served) : Prop :=
  s.newAPIError = none → s.attempts = [] ∨ s.loop.finished = true

theorem Begun.step (h : answerRound rules env origin s r = some s') : Begun s' := by
  intro hnone
  obtain ⟨-, ⟨err, -, herr, -⟩ | ⟨-, herr, -, hfinished⟩⟩ := answerRound_cases h
  · rw [herr] at hnone
    nomatch hnone
  · exact .inr (hfinished (herr.symm.trans hnone))

theorem silent_of_not_spoilt (hb : Begun s) (hopen : s.loop.finished = false) (hs : ¬ Spoilt s) :
    ∀ a ∈ s.attempts, a.written = [] := by
  intro a ha
  by_contra hwritten
  obtain ⟨before, after, heq⟩ := append_of_mem ha
  refine hs ⟨before, a, after, heq, hwritten, .inr fun hnone => ?_⟩
  rcases hb hnone with hnil | hfinished
  · rw [hnil] at ha
    nomatch ha
  · rw [hopen] at hfinished
    nomatch hfinished

theorem result_eq_none_iff : r.result = none ↔ (urlLoop r.first r.others).2 = none := by
  rw [AnswerRound.result, map_eq_none_iff]

theorem not_spoilt_iff (hb : Begun s) (h : answerRound rules env origin s r = some s') :
    ¬ Spoilt s' ↔ ¬ Spoilt s ∧ FailsSilently env origin s r := by
  obtain ⟨hopen, hcases⟩ := answerRound_cases h
  obtain ⟨made, last, hmade, hfailed, hlast⟩ := urlLoop_spec r.first r.others
  constructor
  · intro hs'
    refine ⟨fun hs => hs' ?_, fun hbefore a ha hresult => by_contra fun hwritten => hs' ?_⟩
    · obtain ⟨before, a, after, heq, hwritten, -⟩ := hs
      rcases hcases with ⟨err, -, herr, hattempts⟩ | ⟨-, -, hattempts, -⟩
      · exact ⟨before, a, after, hattempts.trans heq, hwritten, .inr (by rw [herr]; nofun)⟩
      · refine ⟨before, a, after ++ (made ++ [last]), ?_, hwritten, .inl (by simp)⟩
        rw [hattempts, heq, hmade, append_assoc, cons_append]
    · rcases hcases with ⟨err, herr, -⟩ | ⟨-, herr, hattempts, -⟩
      · rw [hbefore] at herr
        nomatch herr
      obtain ⟨before, after, heq⟩ := append_of_mem ha
      refine ⟨s.attempts ++ before, a, after, by rw [hattempts, heq, append_assoc], hwritten, ?_⟩
      by_cases hafter : after = []
      · -- the last attempt of the round has failed
        have hsame : a = last := by
          rw [hafter, hmade] at heq
          exact ((append_inj' heq rfl).2 |> singleton_inj.1).symm
        refine .inr fun hnone => hresult ?_
        rw [hsame]
        exact hlast.1 (result_eq_none_iff.1 (herr.symm.trans hnone))
      · exact .inl hafter
  · rintro ⟨hs, hsilent⟩ ⟨before, a, after, heq, hwritten, hrest⟩
    have hold := silent_of_not_spoilt hb hopen hs
    rcases hcases with ⟨err, -, herr, hattempts⟩ | ⟨hbefore, herr, hattempts, -⟩
    · refine hwritten (hold a ?_)
      rw [← hattempts, heq]
      exact mem_append_right before mem_cons_self
    have hnew := hsilent hbefore
    rw [hmade] at hattempts hnew
    have hearlier : ∀ b ∈ s.attempts ++ made, b.written = [] := by
      intro b hb
      rcases mem_append.1 hb with hb | hb
      · exact hold b hb
      · exact hnew b (mem_append_left [last] hb) (hfailed b hb)
    rw [hattempts, ← append_assoc] at heq
    rcases eq_nil_or_concat' after with rfl | ⟨after, x, rfl⟩
    · obtain rfl : last = a := singleton_inj.1 (append_inj' heq rfl).2
      have hsucceeds : last.result = none := by
        by_contra hresult
        exact hwritten (hnew last (mem_append_right made mem_cons_self) hresult)
      refine hrest.elim (fun hne => hne rfl) fun hne => hne ?_
      exact herr.trans (result_eq_none_iff.2 (hlast.2 hsucceeds))
    · rw [← cons_append, ← append_assoc] at heq
      refine hwritten (hearlier a ?_)
      rw [(append_inj' heq rfl).1]
      exact mem_append_right before mem_cons_self

/-! ## The answer of a run -/

theorem outputs_of_none (format : RelayFormat) (hnone : s.newAPIError = none) :
    outputs format s = s.attempts.map fun a => .answer a.written := by
  rw [outputs, hnone]
  exact append_nil _

variable {l : List Attempt} {format : RelayFormat} {err : NewAPIError}

theorem filter_isSome_of_silent (h : ∀ a ∈ l, a.written = []) :
    (l.map fun a => Output.answer a.written).filter Output.isSome = [] := by
  rw [filter_eq_nil_iff]
  intro o ho
  obtain ⟨a, ha, rfl⟩ := mem_map.1 ho
  rw [h a ha]
  decide

theorem oneAnswer_of_silent (h : ∀ a ∈ l, a.written = []) (o : Output) :
    OneAnswer ((l.map fun a => Output.answer a.written) ++ [o]) := by
  constructor
  · intro before written after heq hwritten
    rcases eq_nil_or_concat' after with rfl | ⟨after, x, rfl⟩
    · rfl
    · rw [← cons_append, ← append_assoc] at heq
      have hmem : Output.answer written ∈ l.map fun a => Output.answer a.written := by
        rw [(append_inj' heq rfl).1]
        exact mem_append_right before mem_cons_self
      obtain ⟨a, ha, hsame⟩ := mem_map.1 hmem
      injection hsame with hsame
      exact absurd (hsame.symm.trans (h a ha)) hwritten
  · rw [filter_append, filter_isSome_of_silent h, nil_append]
    exact (length_filter_le _ _).trans (le_refl 1)

theorem oneAnswer_of_all_silent (h : ∀ a ∈ l, a.written = []) :
    OneAnswer (l.map fun a => Output.answer a.written) := by
  constructor
  · intro before written after heq hwritten
    have hmem : Output.answer written ∈ l.map fun a => Output.answer a.written := by
      rw [heq]
      exact mem_append_right before mem_cons_self
    obtain ⟨a, ha, hsame⟩ := mem_map.1 hmem
    injection hsame with hsame
    exact absurd (hsame.symm.trans (h a ha)) hwritten
  · rw [filter_isSome_of_silent h]
    exact Nat.zero_le 1

theorem oneAnswer_of_not_spoilt (format : RelayFormat) (hs : ¬ Spoilt s) :
    OneAnswer (outputs format s) := by
  cases herr : s.newAPIError with
  | none =>
    rw [outputs_of_none format herr]
    rcases eq_nil_or_concat' s.attempts with hnil | ⟨before, last, heq⟩
    · rw [hnil]
      exact oneAnswer_of_all_silent nofun
    · have hsilent : ∀ a ∈ before, a.written = [] := by
        intro a ha
        by_contra hwritten
        obtain ⟨earlier, after, hbefore⟩ := append_of_mem ha
        refine hs ⟨earlier, a, after ++ [last], ?_, hwritten, .inl (by simp)⟩
        rw [heq, hbefore, append_assoc, cons_append]
      rw [heq, map_append, map_singleton]
      exact oneAnswer_of_silent hsilent _
  | some err =>
    have hsilent : ∀ a ∈ s.attempts, a.written = [] := by
      intro a ha
      by_contra hwritten
      obtain ⟨before, after, heq⟩ := append_of_mem ha
      exact hs ⟨before, a, after, heq, hwritten, .inr (by rw [herr]; nofun)⟩
    rw [outputs, herr]
    dsimp only
    split_ifs
    · exact oneAnswer_of_silent hsilent _
    · rw [append_nil]
      exact oneAnswer_of_all_silent hsilent

theorem not_spoilt_of_oneAnswer (hbody : ∀ err ∈ s.newAPIError, writesError format err = true)
    (h : OneAnswer (outputs format s)) : ¬ Spoilt s := by
  rintro ⟨before, a, after, heq, hwritten, hrest⟩
  have hsplit : outputs format s =
      (before.map fun a => Output.answer a.written) ++ .answer a.written ::
        ((after.map fun a => Output.answer a.written) ++ match s.newAPIError with
          | some err => if writesError format err then [.errorBody err] else []
          | none => []) := by
    rw [outputs, heq, map_append, map_cons, append_assoc, cons_append]
  obtain ⟨hafter, herror⟩ := append_eq_nil_iff.1 (h.last _ _ _ hsplit hwritten)
  rcases hrest with hne | hne
  · exact hne (map_eq_nil_iff.1 hafter)
  · obtain ⟨err, herr⟩ := ne_none_iff_exists'.1 hne
    rw [herr] at herror
    dsimp only at herror
    rw [if_pos (hbody err herr)] at herror
    nomatch herror

/-! ### Errors with a body -/

theorem urlLoop_error {a : Attempt} {others : List Attempt} {err : HandlerError}
    (h : (urlLoop a others).2 = some err) :
    err.error = readRequestBodyFailed 400 ∨ ∃ b ∈ a :: others, b.result = some err := by
  induction others generalizing a with
  | nil => exact .inr ⟨a, mem_cons_self, h⟩
  | cons next others ih =>
    cases hresult : a.result with
    | none =>
      rw [urlLoop, hresult] at h
      nomatch h
    | some err' =>
      rw [urlLoop, hresult] at h
      dsimp only at h
      split_ifs at h
      · cases h
        exact .inl rfl
      · exact (ih h).imp_right fun ⟨b, hb, hsame⟩ => ⟨b, mem_cons_of_mem a hb, hsame⟩
      · exact .inr ⟨a, mem_cons_self, hresult.trans h⟩

theorem writesError_of_status (format : RelayFormat)
    (h : bodyAllowedForStatus err.statusCode = true) : writesError format err = true :=
  decide_eq_true (.inr h)

theorem writesError_result (hbodies : ErrorsHaveBodies format r) (h : r.result = some err) :
    writesError format err = true := by
  obtain ⟨e, he, rfl⟩ := map_eq_some_iff.1 h
  rw [writesError_normalize]
  rcases urlLoop_error he with hseek | ⟨b, hb, hsame⟩
  · rw [hseek]
    exact writesError_of_status format rfl
  · exact hbodies b hb e hsame

theorem writesError_failsBefore (hs : ∀ err ∈ s.newAPIError, writesError format err = true)
    (h : failsBefore env origin s r = some err) : writesError format err = true := by
  unfold failsBefore at h
  split at h
  · cases h
    exact writesError_of_status format rfl
  generalize getChannel env origin s.loop r.round = got at h
  obtain ⟨w, channel⟩ := got
  cases channel with
  | none =>
    cases h
    cases hprev : s.newAPIError with
    | none => exact writesError_of_status format rfl
    | some err => exact hs err hprev
  | some c =>
    dsimp only at h
    split_ifs at h <;> obtain rfl := some.inj h <;> exact writesError_of_status format rfl

theorem writesError_step (hbodies : ErrorsHaveBodies format r)
    (hs : ∀ err ∈ s.newAPIError, writesError format err = true)
    (h : answerRound rules env origin s r = some s') :
    ∀ err ∈ s'.newAPIError, writesError format err = true := by
  intro err herr
  obtain ⟨-, ⟨err', hbefore, hnew, -⟩ | ⟨-, hnew, -⟩⟩ := answerRound_cases h
  · cases hnew.symm.trans herr
    exact writesError_failsBefore hs hbefore
  · exact writesError_result hbodies (hnew.symm.trans herr)

end Rounds

def Served.start (w : RelayLoop) : Served := { loop := w }

theorem not_spoilt_iff_along {rules : RetryRules} {env : RelayEnv} {origin : Origin} {w : RelayLoop}
    {rounds : List AnswerRound} {s : Served}
    (h : Run.run (answerRound rules env origin) (.start w) rounds = some s) :
    ¬ Spoilt s ↔
      Run.Along (answerRound rules env origin) (FailsSilently env origin) (.start w) rounds := by
  have hfinal : ¬ Spoilt s ↔ ¬ Spoilt (.start w) ∧
      Run.Along (answerRound rules env origin) (FailsSilently env origin) (.start w) rounds :=
    Run.final_iff_along (I := Begun) (P := fun s => ¬ Spoilt s) (fun _ _ _ _ hs => Begun.step hs)
      (fun _ _ _ hb hs => not_spoilt_iff hb hs) (fun _ => .inl rfl) h
  refine hfinal.trans (and_iff_right ?_)
  rintro ⟨before, a, after, heq, -⟩
  exact absurd heq (by simp [Served.start])

/-- A client gets one answer when no attempt fails after it has written; and when every error has a
status with a body, only then. -/
theorem one_answer_of_run {rules : RetryRules} {env : RelayEnv} {origin : Origin} {w : RelayLoop}
    (format : RelayFormat) {rounds : List AnswerRound} {s : Served}
    (h : Run.run (answerRound rules env origin) (.start w) rounds = some s) :
    (Run.Along (answerRound rules env origin) (FailsSilently env origin) (.start w) rounds →
      OneAnswer (outputs format s)) ∧
    ((∀ r ∈ rounds, ErrorsHaveBodies format r) → OneAnswer (outputs format s) →
      Run.Along (answerRound rules env origin) (FailsSilently env origin) (.start w) rounds) := by
  rw [← not_spoilt_iff_along h]
  refine ⟨oneAnswer_of_not_spoilt format, fun hbodies hone => not_spoilt_of_oneAnswer ?_ hone⟩
  have hstart : ∀ err ∈ (Served.start w).newAPIError, writesError format err = true := nofun
  have halong : Run.Along (answerRound rules env origin) (fun _ r => ErrorsHaveBodies format r)
      (.start w) rounds := Run.along_of_forall hbodies
  exact Run.invariant_along (fun _ _ _ hs hr hstep => writesError_step hr hs hstep) hstart halong h

/-! ## Two requests -/

def plainEnv : RelayEnv := { cache := {}, retryTimes := 1 }

/-- A channel with two URLs, the first of which does not answer. -/
def switchedRound : AnswerRound where
  first := { result := some { error := { errorCode := "upstream_no_response", statusCode := 500 } } }
  others := [{ written := [123, 125], hasSendResponse := true }]

theorem one_answer_of_switchedRound :
    ∃ s, Run.run (answerRound {} plainEnv ⟨7, "default"⟩) (.start (.start {} "default" "gpt-4o" "" ""))
        [switchedRound] = some s ∧
      OneAnswer (outputs .openAI s) := by
  exact exists_some_imp (p := fun _ => True) (by decide +kernel) fun s hs _ =>
    (one_answer_of_run .openAI hs).1 (by decide +kernel)

/-- A stream that breaks off after two bytes; its error may not be retried. -/
def brokenRound : AnswerRound where
  first :=
    { written := [123, 125]
      result := some { error := { errorCode := "bad_response_body", statusCode := 500 } }
      hasSendResponse := true }

/-- A stream that breaks off, with an error that may be retried. -/
def retriedRound : AnswerRound where
  first :=
    { written := [123, 125]
      result := some { error := { errorCode := "overloaded_error", statusCode := 500 } }
      hasSendResponse := true }

def secondRound : AnswerRound where
  round := { cache := (prioritized [(7, 0), (8, 0)]).cache }
  first := { written := [91, 93], hasSendResponse := true }

/-- The error body follows the bytes of the stream, and so does the answer of the next attempt. -/
theorem two_answers :
    (∃ s, Run.run (answerRound {} plainEnv ⟨7, "default"⟩)
        (.start (.start {} "default" "gpt-4o" "" "")) [brokenRound] = some s ∧
      s.loop.finished = true ∧ ¬ OneAnswer (outputs .openAI s)) ∧
    ∃ s, Run.run (answerRound {} plainEnv ⟨7, "default"⟩)
        (.start (.start {} "default" "gpt-4o" "" "")) [retriedRound, secondRound] = some s ∧
      outputs .openAI s = [.answer [123, 125], .answer [91, 93]] ∧
      ¬ OneAnswer (outputs .openAI s) := by
  constructor
  · refine exists_some_imp (p := fun s => s.loop.finished = true ∧
      outputs .openAI s = [.answer [123, 125],
        .errorBody { errorCode := "bad_response_body", statusCode := 500 }]) (by decide +kernel)
      fun s _ ⟨hfinished, houtputs⟩ => ⟨hfinished, fun hone => ?_⟩
    rw [houtputs] at hone
    nomatch hone.last [] _ _ rfl (by decide)
  · refine exists_some_imp (by decide +kernel) fun s _ houtputs => ⟨houtputs, fun hone => ?_⟩
    rw [houtputs] at hone
    nomatch hone.last [] _ _ rfl (by decide)

end BeeApi.Relay
