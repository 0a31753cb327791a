import BeeApi.Lib.Run
import Mathlib.Data.List.Induction

/-!
# Periodic rounds

The two `RunPeriodic` of `pkg/backgroundtask/group.go` and `pkg/billinglifecycle/coordinator.go`.  Both
admit the same rounds, none after the cancellation, as long as the first one, which does not look at
its context again after a tick, never takes a tick once the context is done.
-/

namespace BeeApi.Periodic

open List Run

inductive RoundEvent where
  | cancelled
  | begins
  | ends
  | returns
deriving DecidableEq

inductive RoundPhase where
  | idle
  | inRound
  | returned
deriving DecidableEq

structure Rounds where
  phase : RoundPhase := .idle
  cancelled : Bool := false

/-- No round begins in another one or after the cancellation, and the function returns, after the
cancellation, outside of a round. -/
def roundStep (s : Rounds) : RoundEvent → Option Rounds
  | .cancelled => if s.cancelled then none else some { s with cancelled := true }
  | .begins => if s.phase = .idle ∧ ¬ s.cancelled then some { s with phase := .inRound } else none
  | .ends => if s.phase = .inRound then some { s with phase := .idle } else none
  | .returns => if s.phase = .idle ∧ s.cancelled then some { s with phase := .returned } else none

def Promised (log : List RoundEvent) : Prop := (Run.run roundStep {} log).isSome

/-- A loop looks at its context before a round, waits in its `select`, runs a round or has
returned. -/
inductive LoopPhase where
  | checking
  | waiting
  | inRound
  | returned
deriving DecidableEq

/-- A loop with its context, whether a tick is in the channel, and what was seen of it. -/
structure Loop where
  phase : LoopPhase
  cancelled : Bool := false
  ready : Bool := false
  log : List RoundEvent := []

inductive LoopAction where
  | tick
  | cancel
  | check
  | takeDone
  | takeTick
  | finish
deriving DecidableEq

def startLoop (runImmediately : Bool) : Loop :=
  { phase := if runImmediately then .checking else .waiting }

def Loop.beginRound (s : Loop) : Loop :=
  { s with phase := .inRound, log := s.log ++ [.begins] }

def Loop.return (s : Loop) : Loop :=
  { s with phase := .returned, log := s.log ++ [.returns] }

/-- The steps of a loop whose timer can tick in the given phases, with what follows when the `select`
leaves by a tick.  The `select` leaves by either case that is ready. -/
def loopStep (ticksIn : LoopPhase → Bool) (onTick : Loop → Loop) (s : Loop) :
    LoopAction → Option Loop
  | .tick => if ticksIn s.phase then some { s with ready := true } else none
  | .cancel =>
    if s.cancelled then none
    else some { s with cancelled := true, log := s.log ++ [.cancelled] }
  | .check =>
    if s.phase = .checking then some (if s.cancelled then s.return else s.beginRound) else none
  | .takeDone => if s.phase = .waiting ∧ s.cancelled then some s.return else none
  | .takeTick =>
    if s.phase = .waiting ∧ s.ready then some (onTick { s with ready := false }) else none
  | .finish =>
    if s.phase = .inRound then some { s with phase := .waiting, log := s.log ++ [.ends] } else none

/-- `RunPeriodic` of `backgroundtask`: the timer is set again after a round, and a tick starts the
next one. -/
def backgroundtaskStep : Loop → LoopAction → Option Loop :=
  loopStep (fun phase => phase = .waiting) Loop.beginRound

/-- `runPeriodic` of `billinglifecycle`: the ticker goes on during a round, and after a tick `runRound`
looks at the context again. -/
def billinglifecycleStep : Loop → LoopAction → Option Loop :=
  loopStep (fun phase => phase ≠ .returned) fun s => { s with phase := .checking }

/-- The `select` does not leave by a tick when the context is done. -/
def TakesLiveTick (s : Loop) (a : LoopAction) : Prop := a = .takeTick → ¬ s.cancelled

def Logs (step : Loop → LoopAction → Option Loop) (ok : Loop → LoopAction → Prop)
    (runImmediately : Bool) (log : List RoundEvent) : Prop :=
  ∃ actions s, Run.run step (startLoop runImmediately) actions = some s ∧
    Run.Along step ok (startLoop runImmediately) actions ∧ s.log = log

def Loop.rounds (s : Loop) : Rounds where
  phase :=
    match s.phase with
    | .checking | .waiting => .idle
    | .inRound => .inRound
    | .returned => .returned
  cancelled := s.cancelled

/-- What a loop has shown is promised and leads to where the loop is. -/
def Shown (s : Loop) : Prop := Run.run roundStep {} s.log = some s.rounds

section
variable {ticksIn : LoopPhase → Bool} {onTick : Loop → Loop} {ok : Loop → LoopAction → Prop}
  {s s' : Loop} {runImmediately : Bool} {log : List RoundEvent}

theorem Shown.concat (h : Shown s) {e : RoundEvent} (he : roundStep s.rounds e = some s'.rounds)
    (hlog : s'.log = s.log ++ [e]) : Shown s' := by
  unfold Shown
  rw [hlog, run_append_eq_some_iff]
  exact ⟨_, h, run_singleton_eq_some_iff.2 he⟩

theorem shown_of_step {a : LoopAction} (htick : ∀ s, s.phase = .waiting → ok s .takeTick → Shown s →
      Shown (onTick { s with ready := false }))
    (h : Shown s) (hok : ok s a) (hstep : loopStep ticksIn onTick s a = some s') : Shown s' := by
  cases a <;> rw [loopStep] at hstep <;> split at hstep <;> cases hstep
  case tick => exact h
  case cancel hc => exact h.concat (e := .cancelled) (if_neg hc) rfl
  case check hp =>
    split
    · next hc => exact h.concat (e := .returns) (if_pos (by simp [Loop.rounds, hp, hc])) rfl
    · next hc => exact h.concat (e := .begins) (if_pos (by simp [Loop.rounds, hp, hc])) rfl
  case takeDone hp => exact h.concat (e := .returns) (if_pos (by simp [Loop.rounds, hp])) rfl
  case takeTick hp => exact htick s hp.1 hok h
  case finish hp => exact h.concat (e := .ends) (if_pos (by simp [Loop.rounds, hp])) rfl

/-- The state is reached by steps that meet the condition. -/
def Reaches (step : Loop → LoopAction → Option Loop) (ok : Loop → LoopAction → Prop)
    (s s' : Loop) : Prop :=
  ∃ actions, Run.run step s actions = some s' ∧ Run.Along step ok s actions

theorem Reaches.trans {step : Loop → LoopAction → Option Loop} {s₁ : Loop}
    (h : Reaches step ok s s₁) (h' : Reaches step ok s₁ s') : Reaches step ok s s' := by
  obtain ⟨l, hl, hok⟩ := h
  obtain ⟨l', hl', hok'⟩ := h'
  exact ⟨l ++ l', run_append_eq_some_iff.2 ⟨s₁, hl, hl'⟩,
    (along_append_iff hl).2 ⟨hok, hok'⟩⟩

theorem reaches_of_step {step : Loop → LoopAction → Option Loop} {a : LoopAction} (hok : ok s a)
    (h : step s a = some s') : Reaches step ok s s' :=
  ⟨[a], run_singleton_eq_some_iff.2 h, (along_cons h).2 ⟨hok, trivial⟩⟩

/-- A waiting loop whose context is live can begin a round. -/
def CanBegin (step : Loop → LoopAction → Option Loop) (ok : Loop → LoopAction → Prop) : Prop :=
  ∀ s, s.phase = .waiting → ¬ s.cancelled → ∃ s', Reaches step ok s s' ∧
    s'.log = s.log ++ [.begins] ∧ s'.rounds = ⟨.inRound, false⟩

/-- Whatever the promise allows next, a loop can do. -/
theorem reaches_of_roundStep {e : RoundEvent} {r : Rounds}
    (hok : ∀ s a, a ≠ .takeTick → ok s a) (hbegin : CanBegin (loopStep ticksIn onTick) ok)
    (h : roundStep s.rounds e = some r) :
    ∃ s', Reaches (loopStep ticksIn onTick) ok s s' ∧ s'.log = s.log ++ [e] ∧ s'.rounds = r := by
  have hstep : ∀ {a s'}, a ≠ .takeTick → loopStep ticksIn onTick s a = some s' →
      Reaches (loopStep ticksIn onTick) ok s s' := fun ha h => reaches_of_step (hok _ _ ha) h
  obtain ⟨phase, cancelled, ready, log⟩ := s
  cases e <;> rw [roundStep] at h <;> split at h <;> cases h
  case cancelled hc => exact ⟨_, hstep (a := .cancel) nofun (if_neg hc), rfl, rfl⟩
  case ends hp =>
    cases phase <;> cases hp
    exact ⟨_, hstep (a := .finish) nofun rfl, rfl, rfl⟩
  case begins hp =>
    obtain ⟨hp, hc⟩ := hp
    obtain rfl : cancelled = false := Bool.not_eq_true _ ▸ hc
    cases phase <;> cases hp
    · exact ⟨_, hstep (a := .check) nofun rfl, rfl, rfl⟩
    · exact hbegin _ rfl hc
  case returns hp =>
    obtain ⟨hp, hc⟩ := hp
    obtain rfl : cancelled = true := hc
    cases phase <;> cases hp
    · exact ⟨_, hstep (a := .check) nofun rfl, rfl, rfl⟩
    · exact ⟨_, hstep (a := .takeDone) nofun rfl, rfl, rfl⟩

theorem logs_iff_promised (hok : ∀ s a, a ≠ .takeTick → ok s a)
    (htick : ∀ s, s.phase = .waiting → ok s .takeTick → Shown s →
      Shown (onTick { s with ready := false }))
    (hbegin : CanBegin (loopStep ticksIn onTick) ok) :
    Logs (loopStep ticksIn onTick) ok runImmediately log ↔ Promised log := by
  have hstart : (startLoop runImmediately).rounds = {} := by cases runImmediately <;> rfl
  constructor
  · rintro ⟨actions, s, h, halong, rfl⟩
    have hshown : Shown s := invariant_along
      (fun s a s' hs hok hstep => shown_of_step htick hs hok hstep)
      (show Shown (startLoop _) from congrArg some hstart.symm) halong h
    exact Option.isSome_iff_exists.2 ⟨_, hshown⟩
  · intro h
    suffices hreach : ∀ r, Run.run roundStep {} log = some r →
        ∃ s, Reaches (loopStep ticksIn onTick) ok (startLoop runImmediately) s ∧ s.log = log ∧
          s.rounds = r by
      obtain ⟨r, hr⟩ := Option.isSome_iff_exists.1 h
      obtain ⟨s, ⟨actions, hrun, halong⟩, hlog, -⟩ := hreach r hr
      exact ⟨actions, s, hrun, halong, hlog⟩
    clear h
    induction log using reverseRecOn with
    | nil =>
      rintro _ ⟨⟩
      exact ⟨_, ⟨[], rfl, trivial⟩, rfl, hstart⟩
    | append_singleton log e ih =>
      intro r hr
      obtain ⟨r₁, h₁, he⟩ := run_append_eq_some_iff.1 hr
      obtain ⟨s, hs, rfl, rfl⟩ := ih r₁ h₁
      obtain ⟨s', hs', hlog, hr'⟩ :=
        reaches_of_roundStep hok hbegin (run_singleton_eq_some_iff.1 he)
      exact ⟨s', hs.trans hs', hlog, hr'⟩

end

/-- Both loops show exactly the promised rounds, the first one in the runs whose selects take no tick
after the cancellation. -/
theorem runPeriodic_rounds (runImmediately : Bool) (log : List RoundEvent) :
    (Logs backgroundtaskStep TakesLiveTick runImmediately log ↔ Promised log) ∧
      (Logs billinglifecycleStep (fun _ _ => True) runImmediately log ↔ Promised log) := by
  constructor
  · refine logs_iff_promised (fun s a ha h => absurd h ha) (fun s hp hok hs => ?_) fun s hp hc => ?_
    · exact hs.concat (e := .begins) (if_pos ⟨by simp [Loop.rounds, hp], hok rfl⟩) rfl
    · obtain ⟨phase, cancelled, ready, log⟩ := s
      obtain rfl : phase = .waiting := hp
      obtain rfl : cancelled = false := Bool.not_eq_true _ ▸ hc
      exact ⟨_, (reaches_of_step (a := .tick) nofun rfl).trans
        (reaches_of_step (a := .takeTick) (fun _ => nofun) rfl), rfl, rfl⟩
  · refine logs_iff_promised (fun _ _ _ => trivial) (fun s hp _ hs => ?_) fun s hp hc => ?_
    · rw [Shown, hs, Loop.rounds, hp]
      rfl
    · obtain ⟨phase, cancelled, ready, log⟩ := s
      obtain rfl : phase = .waiting := hp
      obtain rfl : cancelled = false := Bool.not_eq_true _ ▸ hc
      exact ⟨_, ((reaches_of_step (a := .tick) trivial rfl).trans
        (reaches_of_step (a := .takeTick) trivial rfl)).trans
        (reaches_of_step (a := .check) trivial rfl), rfl, rfl⟩

/-- With a tick and the cancellation both there, the first loop can begin a round. -/
theorem backgroundtask_begins_after_cancel :
    (∃ s, Run.run backgroundtaskStep (startLoop false) [.tick, .cancel, .takeTick] = some s ∧
      s.log = [.cancelled, .begins]) ∧ ¬ Promised [.cancelled, .begins] :=
  ⟨⟨_, rfl, rfl⟩, by unfold Promised; decide⟩

end BeeApi.Periodic
