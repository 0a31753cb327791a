import BeeApi.Relay.QualityGate

/-!
# All or nothing

An attempt behind the hold either gives the client what the handler would have given it, or nothing, and
then the request goes on as if it had not been made: always when it ends before the release, and for a
release exactly when the head that is sent is the one the handler set before its first bytes.  The usage
of a blocked attempt is settled once, at the end of the request.
-/

namespace BeeApi.Quality

open List Option Attempt

/-! ## Accounts -/

def Context.reckoned (c accounts : Context) : Context :=
  { c with
    qualityChargePending := accounts.qualityChargePending
    charged := accounts.charged
    settled := accounts.settled }

def Attempt.reckoned (a : Attempt) (accounts : Context) : Attempt :=
  { a with c := a.c.reckoned accounts }

theorem reckoned_ite (p : Prop) [Decidable p] (a b : Attempt) (accounts : Context) :
    (if p then a else b).reckoned accounts =
      if p then a.reckoned accounts else b.reckoned accounts :=
  apply_ite (reckoned · accounts) p a b

section Accounts

variable (env : Env) (a : Attempt) (accounts : Context)

theorem flush_reckoned : (a.reckoned accounts).flush = a.flush.reckoned accounts := by
  rw [flush, flush, reckoned_ite]
  rfl

theorem discard_reckoned : (a.reckoned accounts).discard = a.discard.reckoned accounts := by
  rw [Attempt.discard, Attempt.discard, reckoned_ite]
  rfl

theorem block_reckoned : (a.reckoned accounts).block env = (a.block env).reckoned accounts := by
  rw [block, block, reckoned_ite]
  rfl

theorem observe_reckoned :
    (a.reckoned accounts).observe env = (a.observe env).reckoned accounts := by
  rw [observe, observe, flush_reckoned, block_reckoned, reckoned_ite, reckoned_ite,
    reckoned_ite, reckoned_ite]
  rfl

theorem holdWrite_reckoned (p : List UInt8) :
    (a.reckoned accounts).holdWrite p = (a.holdWrite p).reckoned accounts := by
  rw [holdWrite, holdWrite, reckoned_ite, reckoned_ite]
  rfl

theorem foldl_holdWrite_reckoned (pieces : List (List UInt8)) :
    pieces.foldl holdWrite (a.reckoned accounts) =
      (pieces.foldl holdWrite a).reckoned accounts := by
  induction pieces generalizing a with
  | nil => rfl
  | cons p pieces ih => rw [foldl_cons, holdWrite_reckoned, ih, foldl_cons]

theorem holdStep_reckoned (op : WriterOp) :
    (a.reckoned accounts).holdStep op = (a.holdStep op).reckoned accounts := by
  cases op with
  | setHeader _ _ => rfl
  | delHeader _ => rfl
  | writeHeader | flush =>
    rw [holdStep, holdStep, reckoned_ite]
    rfl
  | write p | writeString p => exact holdWrite_reckoned a accounts p
  | readFrom pieces => exact foldl_holdWrite_reckoned a accounts _

theorem step_reckoned (op : Op) :
    (a.reckoned accounts).step env op = (a.step env op).reckoned accounts := by
  cases op with
  | writer kept op =>
    rw [step, step, holdStep_reckoned, reckoned_ite]
    rfl
  | note delta =>
    have hadd : ({ a.reckoned accounts with inspect := (a.reckoned accounts).inspect.add delta } :
        Attempt).observe env =
        (({ a with inspect := a.inspect.add delta } : Attempt).observe env).reckoned accounts :=
      observe_reckoned env { a with inspect := a.inspect.add delta } accounts
    rw [step, step, noteQualityStreamDelta, noteQualityStreamDelta,
      hadd, reckoned_ite]
    rfl
  | markSent => rfl
  | markEventStreamHeaders => rfl

theorem foldl_step_reckoned (ops : List Op) :
    ops.foldl (step env) (a.reckoned accounts) =
      (ops.foldl (step env) a).reckoned accounts := by
  induction ops generalizing a with
  | nil => rfl
  | cons op ops ih => rw [foldl_cons, step_reckoned, ih, foldl_cons]

end Accounts

/-- What a request and its client can tell of an attempt, without the accounts. -/
structure Seen where
  writer : Writer
  sentResponse : Bool
  eventStreamHeaders : Bool
  original : Bool
  inspect : QualityInspect
  err : Option Relay.NewAPIError

def seen (r : Attempt × Option Relay.NewAPIError) : Seen where
  writer := r.1.c.writer
  sentResponse := r.1.c.sentResponse
  eventStreamHeaders := r.1.c.eventStreamHeaders
  original := r.1.original
  inspect := r.1.inspect
  err := r.2

theorem seen_chargeOrDefer (env : Env) (a : Attempt) (usage : Option Usage)
    (err : Option Relay.NewAPIError) :
    seen (chargeOrDeferQualityFilter env a usage, err) = seen (a, err) := by
  unfold chargeOrDeferQualityFilter
  split_ifs <;> rfl

theorem seen_afterHandler_reckoned (env : Env) (h : Handler) (a : Attempt) (accounts : Context) :
    seen (afterHandler env h (a.reckoned accounts)) = seen (afterHandler env h a) := by
  have hhold : (a.reckoned accounts).hold = a.hold := rfl
  have hinspect : (a.reckoned accounts).inspect = a.inspect := rfl
  unfold afterHandler
  rw [hhold, hinspect, discard_reckoned, flush_reckoned]
  by_cases hb : a.hold.blocked = true
  · rw [if_pos hb, if_pos hb, seen_chargeOrDefer, seen_chargeOrDefer]
    rfl
  · rw [if_neg hb, if_neg hb]
    cases h.err with
    | some err =>
      split_ifs <;> rfl
    | none =>
      dsimp only
      by_cases hr : a.hold.released = true
      · rw [if_pos hr, if_pos hr]
        rfl
      · rw [if_neg hr, if_neg hr]
        cases applyResponseQualityFilter env a.inspect h.usage with
        | some qerr =>
          rw [seen_chargeOrDefer, seen_chargeOrDefer]
          rfl
        | none => rfl

theorem seen_reckoned (env : Env) (h : Handler) (c accounts : Context) :
    seen (doResponseWithQualityFilter env h (c.reckoned accounts)) =
      seen (doResponseWithQualityFilter env h c) := by
  have hbegin : beginQualityHold env (c.reckoned accounts) =
      (beginQualityHold env c).reckoned accounts := by
    rw [beginQualityHold, beginQualityHold, reckoned_ite]
    rfl
  unfold doResponseWithQualityFilter
  rw [hbegin]
  show seen (afterHandler env h ((h.ops c.sentResponse c.eventStreamHeaders).foldl _ _)) = _
  rw [foldl_step_reckoned, seen_afterHandler_reckoned]

/-! ## One attempt -/

/-- The attempt has given the client nothing and left no trace. -/
structure Nothing (env : Env) (h : Handler) (c : Context) : Prop where
  failed : (doResponseWithQualityFilter env h c).2.isSome
  unreleased : (doResponseWithQualityFilter env h c).1.hold.released = false
  writer : (doResponseWithQualityFilter env h c).1.c.writer = c.writer
  original : (doResponseWithQualityFilter env h c).1.original = true
  sentResponse : (doResponseWithQualityFilter env h c).1.c.sentResponse = false
  eventStreamHeaders : (doResponseWithQualityFilter env h c).1.c.eventStreamHeaders = false
  /-- A following attempt goes as it would have gone instead of this one. -/
  next : ∀ env' h',
    seen (doResponseWithQualityFilter env' h' (doResponseWithQualityFilter env h c).1.c) =
      seen (doResponseWithQualityFilter env' h' (c.marked (false, false)))

def AllOrNothing (env : Env) (h : Handler) (c : Context) : Prop :=
  (doResponseWithQualityFilter env h c).1.c.writer.response = (direct h c).response ∨
    Nothing env h c

/-- The attempt ends before a release, or the release sends the head of the handler. -/
def KeepsHead (env : Env) (h : Handler) (c : Context) : Prop :=
  match course env {} (h.ops c.sentResponse c.eventStreamHeaders) with
  | .blocked => True
  | .released before after => SameHead c.writer before after
  | .undecided i => h.err.isSome ∨ (applyResponseQualityFilter env i h.usage).isSome ∨
      SameHead c.writer (h.ops c.sentResponse c.eventStreamHeaders) []

section OneAttempt

variable {env : Env} {h : Handler} {c : Context} {a : Attempt}

theorem nothing_of {marks : Bool × Bool} {usage : Option Usage} {err : Option Relay.NewAPIError}
    (hactive : a.hold.active = true) (hfinished : a.hold.finished = false)
    (hreleased : a.hold.released = false) (hc : a.c = c.marked marks) (herr : err.isSome)
    (hend : doResponseWithQualityFilter env h c = (a.discard, err) ∨
      doResponseWithQualityFilter env h c = (chargeOrDeferQualityFilter env a.discard usage, err)) :
    Nothing env h c := by
  have hdiscard : a.discard = { a with
        hold := { a.hold with finished := true }
        c := { a.c with sentResponse := false, eventStreamHeaders := false }
        original := true } := by
    rw [Attempt.discard, hactive, hfinished, hreleased]
    rfl
  have hcontext : a.discard.c = c.marked (false, false) := by
    rw [hdiscard, hc]
    rfl
  have hcharged : ∃ accounts, (chargeOrDeferQualityFilter env a.discard usage).c =
      (c.marked (false, false)).reckoned accounts ∧
      (chargeOrDeferQualityFilter env a.discard usage).hold = a.discard.hold ∧
      (chargeOrDeferQualityFilter env a.discard usage).original = true := by
    rw [← hcontext]
    unfold chargeOrDeferQualityFilter
    split_ifs
    · exact ⟨{ a.discard.c with
        qualityChargePending := qualityChargeUsage env a.discard.inspect usage }, rfl, rfl,
        by rw [hdiscard]⟩
    · exact ⟨{ a.discard.c with
        charged := a.discard.c.charged ++
          (chargeQualityFilterIfNeeded env a.discard.inspect usage).toList }, rfl, rfl,
        by rw [hdiscard]⟩
  -- in both cases the context is the old one up to its marks and accounts
  have hall : ∃ accounts, (doResponseWithQualityFilter env h c).1.c =
      (c.marked (false, false)).reckoned accounts ∧
      (doResponseWithQualityFilter env h c).1.hold.released = false ∧
      (doResponseWithQualityFilter env h c).1.original = true ∧
      (doResponseWithQualityFilter env h c).2 = err := by
    rcases hend with hend | hend
    · rw [hend]
      refine ⟨c, hcontext, ?_, ?_, rfl⟩
      · rw [hdiscard]
        exact hreleased
      · rw [hdiscard]
    · rw [hend]
      obtain ⟨accounts, hctx, hhold, horiginal⟩ := hcharged
      refine ⟨accounts, hctx, ?_, horiginal, rfl⟩
      rw [hhold, hdiscard]
      exact hreleased
  obtain ⟨accounts, hctx, hrel, horiginal, herr'⟩ := hall
  refine ⟨herr' ▸ herr, hrel, ?_, horiginal, ?_, ?_, ?_⟩
  · rw [hctx]
    rfl
  · rw [hctx]
    rfl
  · rw [hctx]
    rfl
  · intro env' h'
    rw [hctx, seen_reckoned]

theorem response_direct :
    (direct h c).response = (c.writer.sent.getD (firstHead c.writer.head
        (writerOps (h.ops c.sentResponse c.eventStreamHeaders))),
      c.writer.body ++ bytesOf (writerOps (h.ops c.sentResponse c.eventStreamHeaders))) :=
  Writer.response_foldl _ _

/-- A release gives the client what the handler would have given it, when the head is the same. -/
theorem released_iff {before after : List Op} {w : Writer}
    (hw : w = (visibleOps after).foldl Writer.step
      (releaseTo ((writerOps before).foldl WriterOp.onHeldHead (200, c.writer.header))
        (bytesOf (writerOps before)) c.writer))
    (hops : h.ops c.sentResponse c.eventStreamHeaders = before ++ after) :
    w.response = (direct h c).response ↔ SameHead c.writer before after := by
  rw [hw, response_released, response_direct, hops, SameHead, keptHead_iff]
  cases hsent : c.writer.sent with
  | some s => simp
  | none =>
    simp only [getD_none, Prod.mk.injEq, and_true, isSome_none, Bool.false_eq_true, false_or]
    exact eq_comm

theorem append_of_course {i : QualityInspect} {ops before after : List Op}
    (h : course env i ops = .released before after) : ops = before ++ after := by
  induction ops generalizing i before with
  | nil => cases h
  | cons op ops ih =>
    have hpush : ∀ {j : QualityInspect},
        (course env j ops).push op = .released before after → op :: ops = before ++ after := by
      intro j hj
      cases hcourse : course env j ops with
      | undecided | blocked => rw [hcourse] at hj; cases hj
      | released b a =>
        rw [hcourse] at hj
        cases hj
        rw [cons_append, ← ih hcourse]
    cases op with
    | note delta =>
      rw [course] at h
      split_ifs at h with hempty
      · exact hpush h
      · cases hverdict : verdict env (i.add delta) with
        | hold => rw [hverdict] at h; exact hpush h
        | block => rw [hverdict] at h; cases h
        | release =>
          rw [hverdict] at h
          cases h
          rfl
    | writer _ _ => exact hpush h
    | markSent => exact hpush h
    | markEventStreamHeaders => exact hpush h

theorem exists_ended (hactive : responseQualityActive env = true) :
    ∃ a, doResponseWithQualityFilter env h c = afterHandler env h a ∧
      Ended env c (200, c.writer.header) [] (h.ops c.sentResponse c.eventStreamHeaders) a
        (course env {} (h.ops c.sentResponse c.eventStreamHeaders)) := by
  have hbegin : beginQualityHold env c = holding c (200, c.writer.header) [] {} := by
    rw [beginQualityHold, if_pos hactive]
    rfl
  refine ⟨_, ?_, ended_foldl _⟩
  rw [doResponseWithQualityFilter, hbegin]

theorem Blocked.afterHandler (hb : Blocked env c a) (h : Handler) :
    afterHandler env h a =
      (chargeOrDeferQualityFilter env a.discard h.usage, some (qualityApologyError env)) := by
  rw [Quality.afterHandler, if_pos hb.blocked, hb.blockErr]

theorem Blocked.nothing (hb : Blocked env c a)
    (hrun : doResponseWithQualityFilter env h c = Quality.afterHandler env h a) :
    Nothing env h c := by
  obtain ⟨marks, hc⟩ := hb.context
  exact @nothing_of env h c a marks h.usage (some (qualityApologyError env)) hb.active hb.finished
    hb.released hc rfl (.inr (hrun.trans (hb.afterHandler h)))

theorem Released.afterHandler {w : Writer} (hr : Released w a) (h : Handler) :
    afterHandler env h a = (a, h.err) := by
  rw [Quality.afterHandler, if_neg (by rw [hr.blocked]; exact Bool.false_ne_true)]
  cases h.err <;> simp [hr.released]

theorem afterHandler_holding {hd : Head} {buf : List UInt8} {i : QualityInspect} (h : Handler) :
    afterHandler env h (holding c hd buf i) = match h.err with
      | some err => ((holding c hd buf i).discard, some err)
      | none =>
        match applyResponseQualityFilter env i h.usage with
        | some qerr =>
          (chargeOrDeferQualityFilter env (holding c hd buf i).discard h.usage, some qerr)
        | none => ((holding c hd buf i).flush, none) := rfl

theorem holding_nothing {marks : Bool × Bool} {hd : Head} {buf : List UInt8} {i : QualityInspect}
    {err : Relay.NewAPIError} (hend : doResponseWithQualityFilter env h c =
        ((holding (c.marked marks) hd buf i).discard, some err) ∨
      doResponseWithQualityFilter env h c = (chargeOrDeferQualityFilter env
        (holding (c.marked marks) hd buf i).discard h.usage, some err)) :
    Nothing env h c :=
  @nothing_of env h c _ marks _ _ rfl rfl rfl rfl rfl hend

theorem allOrNothing_iff (hactive : responseQualityActive env = true) :
    AllOrNothing env h c ↔ KeepsHead env h c := by
  obtain ⟨a, hrun, hended⟩ := @exists_ended env h c hactive
  unfold KeepsHead
  cases hcourse : course env {} (h.ops c.sentResponse c.eventStreamHeaders) with
  | blocked =>
    rw [hcourse] at hended
    have hb : Blocked env c a := hended
    exact ⟨fun _ => trivial, fun _ => .inr (hb.nothing hrun)⟩
  | released before after =>
    rw [hcourse] at hended
    have hr : Released _ a := hended
    have hend : (doResponseWithQualityFilter env h c).1 = a := by rw [hrun, hr.afterHandler]
    have hiff := @released_iff h c before after a.c.writer hr.writer (append_of_course hcourse)
    show _ ↔ SameHead c.writer before after
    rw [← hiff]
    constructor
    · rintro (hresponse | hnothing)
      · rwa [hend] at hresponse
      · have hunreleased := hnothing.unreleased
        rw [hend, hr.released] at hunreleased
        cases hunreleased
    · intro hresponse
      refine .inl ?_
      rwa [hend]
  | undecided i =>
    rw [hcourse] at hended
    obtain ⟨marks, ha⟩ := hended
    rw [ha, afterHandler_holding] at hrun
    cases herr : h.err with
    | some err =>
      rw [herr] at hrun
      exact ⟨fun _ => .inl rfl, fun _ => .inr (holding_nothing (.inl hrun))⟩
    | none =>
      rw [herr] at hrun
      cases hfilter : applyResponseQualityFilter env i h.usage with
      | some qerr =>
        rw [hfilter] at hrun
        exact ⟨fun _ => .inr (.inl (by rw [hfilter]; rfl)),
          fun _ => .inr (holding_nothing (.inr hrun))⟩
      | none =>
        rw [hfilter] at hrun
        have hend := congrArg Prod.fst hrun
        have hwriter : (doResponseWithQualityFilter env h c).1.c.writer =
            (visibleOps []).foldl Writer.step
              (releaseTo ((writerOps (h.ops c.sentResponse c.eventStreamHeaders)).foldl
                WriterOp.onHeldHead (200, c.writer.header))
                (bytesOf (writerOps (h.ops c.sentResponse c.eventStreamHeaders))) c.writer) := by
          rw [hend]
          rfl
        have hiff := released_iff hwriter (append_nil _).symm
        constructor
        · rintro (hresponse | hnothing)
          · exact .inr (.inr (hiff.1 hresponse))
          · have hfailed := hnothing.failed
            rw [hrun] at hfailed
            cases hfailed
        · rintro (h₁ | h₁ | hhead)
          · cases h₁
          · rw [hfilter] at h₁
            cases h₁
          · exact .inl (hiff.2 hhead)

end OneAttempt

/-! ## A request -/

/-- The deferred usage of a request is settled once, and only when it ends with an error of the
filter. -/
def SettledOnce (attempts : List (Env × Handler)) (env : Env) (err : Option Relay.NewAPIError)
    (w : Writer) : Prop :=
  (serveAttempts attempts env err { writer := w }).settled.length ≤ 1 ∧
    ((serveAttempts attempts env err { writer := w }).settled ≠ [] →
      ∃ qerr, err = some qerr ∧ isResponseQualityFilterError qerr = true)

theorem settled_doResponse (env : Env) (h : Handler) (c : Context) :
    (doResponseWithQualityFilter env h c).1.c.settled = c.settled := by
  let a := (h.ops c.sentResponse c.eventStreamHeaders).foldl (step env)
    (beginQualityHold env c)
  have hbegin : (beginQualityHold env c).c = c := by
    unfold beginQualityHold
    split_ifs <;> rfl
  have ha : a.c.settled = c.settled := by
    have hsame := congrArg (fun a => a.c.settled)
      (foldl_step_reckoned env (beginQualityHold env c) c (h.ops c.sentResponse c.eventStreamHeaders))
    have hown : (beginQualityHold env c).reckoned c = beginQualityHold env c := by
      rw [reckoned, hbegin]
      exact congrArg (fun x => { beginQualityHold env c with c := x }) hbegin.symm
    rwa [hown] at hsame
  have hdiscard : a.discard.c.settled = a.c.settled :=
    congrArg (fun a => a.c.settled) (discard_reckoned a a.c)
  have hflush : a.flush.c.settled = a.c.settled :=
    congrArg (fun a => a.c.settled) (flush_reckoned a a.c)
  have hcharge : (chargeOrDeferQualityFilter env a.discard h.usage).c.settled = a.c.settled := by
    rw [← hdiscard]
    unfold chargeOrDeferQualityFilter
    split_ifs <;> rfl
  rw [← ha]
  show (afterHandler env h a).1.c.settled = _
  unfold afterHandler
  split
  · exact hcharge
  · cases h.err with
    | some err =>
      by_cases hr : a.hold.released = true
      · simp [hr]
      · simp [hr, hdiscard]
    | none =>
      by_cases hr : a.hold.released = true
      · simp [hr]
      · cases applyResponseQualityFilter env a.inspect h.usage with
        | some qerr => simpa [hr] using hcharge
        | none => simpa [hr] using hflush

theorem settledOnce (attempts : List (Env × Handler)) (env : Env)
    (err : Option Relay.NewAPIError) (w : Writer) : SettledOnce attempts env err w := by
  have hattempts : ∀ c : Context,
      (attempts.foldl (fun c a => (doResponseWithQualityFilter a.1 a.2 c).1.c) c).settled =
        c.settled := by
    induction attempts with
    | nil => exact fun _ => rfl
    | cons a attempts ih =>
      intro c
      rw [foldl_cons, ih, settled_doResponse]
  have hnone := hattempts { writer := w }
  unfold SettledOnce serveAttempts
  generalize attempts.foldl (fun c a => (doResponseWithQualityFilter a.1 a.2 c).1.c)
    { writer := w } = c at hnone
  have hsettled : c.settled = [] := hnone
  unfold settleDeferredQualityCharge
  cases c.qualityChargePending with
  | none => simp [hsettled]
  | some usage =>
    cases err with
    | none => simp [hsettled]
    | some err =>
      by_cases hquality : isResponseQualityFilterError err = true
      · simp only [hquality, if_true, hsettled, nil_append]
        exact ⟨length_toList_le, fun _ => ⟨err, rfl, hquality⟩⟩
      · simp [hquality, hsettled]

/-! ## The gate -/

/-- **The quality gate is all or nothing** for an attempt exactly when a release sends the head that
the handler has set before its first bytes; the deferred usage of a request is settled at most once. -/
theorem quality_gate (env : Env) (h : Handler) (c : Context) :
    (responseQualityActive env = true → (AllOrNothing env h c ↔ KeepsHead env h c)) ∧
      ∀ (attempts : List (Env × Handler)) (last : Env) (err : Option Relay.NewAPIError) (w : Writer),
        SettledOnce attempts last err w :=
  ⟨allOrNothing_iff, settledOnce⟩

/-- A filter of apologies that counts characters. -/
def apologyEnv : Env where
  lower := id
  countTextToken := String.length
  apology := true
  apologyKeywords := ["sorry"]

/-- An answer with a tool call; its bytes come behind the release. -/
def toolAnswer : Handler where
  ops _ _ := [.writer false (.setHeader "Content-Type" "text/plain"),
    .note { toolCalls := 1 }, .writer true (.write [97])]

theorem allOrNothing_toolAnswer :
    responseQualityActive apologyEnv = true ∧ AllOrNothing apologyEnv toolAnswer {} := by
  have hactive : responseQualityActive apologyEnv = true := by decide
  refine ⟨hactive, ((quality_gate apologyEnv toolAnswer {}).1 hactive).2 ?_⟩
  show SameHead {} [.writer false (.setHeader "Content-Type" "text/plain"), .note { toolCalls := 1 }]
    [.writer true (.write [97])]
  refine .inr ⟨rfl, fun key => ?_⟩
  by_cases hkey : "Content-Type" = key <;>
    simp [KeepsKey, lastChange, shown, unsent, writerOps, visibleOps, bytesOf, WriterOp.change,
      WriterOp.commits, WriterOp.bytes, WriterOp.isHeader, Option.filter, hkey]

/-- The same answer with a header that is set through the kept reference behind the release. -/
def lateHeader : Handler where
  ops _ _ := [.note { toolCalls := 1 }, .writer true (.setHeader "Content-Type" "text/plain"),
    .writer true (.write [97])]

/-- The header is set on the copy of the hold, which nobody reads any more. -/
theorem lateHeader_lost :
    responseQualityActive apologyEnv = true ∧ ¬ AllOrNothing apologyEnv lateHeader {} := by
  have hactive : responseQualityActive apologyEnv = true := by decide
  refine ⟨hactive, fun h => ?_⟩
  rcases h with hresponse | hnothing
  · have hheader := congrFun (congrArg (fun r => r.1.2) hresponse) "Content-Type"
    revert hheader
    decide +kernel
  · have hfailed := hnothing.failed
    revert hfailed
    decide +kernel

end BeeApi.Quality
