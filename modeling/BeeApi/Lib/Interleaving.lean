import BeeApi.Lib.Run
import BeeApi.Lib.Table
import BeeApi.Lib.Transaction

/-!
# Programs that run side by side

A program is a tree of atomic operations on a shared state.  In a `Threads` any thread takes its next
operation at any time, and the environment takes steps of its own.  A program `Guarantees Q` when each
of its operations keeps the invariant `I` and the relation `R`, provided that everything between its
operations does, and its result meets `Q` from then on.  What every program guarantees holds of every
run (`Guarded.run`).
-/

namespace Interleaving

open Run

/-! ## Programs -/

/-- A program over the operations `Op`, whose results have the types `Res`. -/
inductive Prog (Op : Type) (Res : Op → Type) (α : Type)
  | pure (a : α)
  | op (o : Op) (next : Res o → Prog Op Res α)

namespace Prog

variable {Op : Type} {Res : Op → Type} {α β : Type}

def bind : Prog Op Res α → (α → Prog Op Res β) → Prog Op Res β
  | .pure a, f => f a
  | .op o next, f => .op o fun r => (next r).bind f

instance : Monad (Prog Op Res) where
  pure := .pure
  bind := bind

def call (o : Op) : Prog Op Res (Res o) := .op o .pure

def result? : Prog Op Res α → Option α
  | .pure a => some a
  | .op _ _ => none

theorem eq_pure_of_result? {p : Prog Op Res α} {a : α} (h : p.result? = some a) : p = .pure a := by
  cases p with
  | pure b =>
    cases h
    rfl
  | op o next => cases h

end Prog

/-- How operations are executed, with a label that decides what the state leaves open; the steps of
the environment; and the programs that may be started. -/
structure Machine (Op : Type) (Res : Op → Type) (σ Λ E F α : Type) where
  exec : σ → Λ → (o : Op) → σ × Res o
  env : σ → E → σ
  program : F → Prog Op Res α

structure Threads (Op : Type) (Res : Op → Type) (σ α : Type) where
  shared : σ
  threads : Table ℕ (Prog Op Res α) := ∅

inductive ThreadAction (Λ E F : Type)
  | env (e : E)
  | start (thread : ℕ) (f : F)
  | advance (thread : ℕ) (label : Λ)

variable {Op : Type} {Res : Op → Type} {σ Λ E F α β : Type}

namespace Machine

def step (m : Machine Op Res σ Λ E F α) (s : Threads Op Res σ α) :
    ThreadAction Λ E F → Option (Threads Op Res σ α)
  | .env e => some { s with shared := m.env s.shared e }
  | .start thread f =>
    if (s.threads.get? thread).isSome then none
    else some { s with threads := s.threads.put thread (m.program f) }
  | .advance thread label =>
    match s.threads.get? thread with
    | some (.op o next) =>
      let r := m.exec s.shared label o
      some { shared := r.1, threads := s.threads.put thread (next r.2) }
    | _ => none

end Machine

/-! ## Guarantees -/

/-- `R` is what may happen to the shared state while `I` holds. -/
structure Rely (m : Machine Op Res σ Λ E F α) (I : σ → Prop) (R : σ → σ → Prop) : Prop where
  refl : ∀ s, R s s
  trans : ∀ {s s' s''}, R s s' → R s' s'' → R s s''
  env : ∀ s e, I s → I (m.env s e) → R s (m.env s e)

variable (m : Machine Op Res σ Λ E F α) (I : σ → Prop) (R : σ → σ → Prop)

/-- The program keeps `I` and `R` from `s` on, and returns what meets `Q`. -/
def Guarantees (Q : β → σ → Prop) : Prog Op Res β → σ → Prop
  | .pure b, s => ∀ s', R s s' → I s' → Q b s'
  | .op o next, s => ∀ s' label, R s s' → I s' →
      I (m.exec s' label o).1 ∧ R s' (m.exec s' label o).1 ∧
        Guarantees Q (next (m.exec s' label o).2) (m.exec s' label o).1

variable {m I R}

section Rules

variable {γ : Type} {Q Q' : β → σ → Prop} {p : Prog Op Res β} {s s' : σ}

theorem Guarantees.mono (h : Rely m I R) (hp : Guarantees m I R Q p s) (hs : R s s') :
    Guarantees m I R Q p s' := by
  cases p with
  | pure b => exact fun s'' hs' hi => hp s'' (h.trans hs hs') hi
  | op o next => exact fun s'' label hs' hi => hp s'' label (h.trans hs hs') hi

theorem Guarantees.conseq (hp : Guarantees m I R Q p s) (hq : ∀ b s, I s → Q b s → Q' b s) :
    Guarantees m I R Q' p s := by
  induction p generalizing s with
  | pure b => exact fun s' hs hi => hq b s' hi (hp s' hs hi)
  | op o next ih =>
    intro s' label hs hi
    obtain ⟨hi', hr, hnext⟩ := hp s' label hs hi
    exact ⟨hi', hr, ih _ hnext⟩

/-- The result comes in a state that may follow an earlier one. -/
theorem Guarantees.since (h : Rely m I R) {s₀ : σ} (hs : R s₀ s) (hp : Guarantees m I R Q p s) :
    Guarantees m I R (fun b s' => Q b s' ∧ R s₀ s') p s := by
  induction p generalizing s with
  | pure b => exact fun s' hs' hi => ⟨hp s' hs' hi, h.trans hs hs'⟩
  | op o next ih =>
    intro s' label hs' hi
    obtain ⟨hi', hr, hnext⟩ := hp s' label hs' hi
    exact ⟨hi', hr, ih _ (h.trans hs (h.trans hs' hr)) hnext⟩

/-- What no operation takes back may be added to the invariant. -/
theorem Guarantees.strengthen {J : σ → Prop} (hp : Guarantees m I R Q p s)
    (hJ : ∀ s label o, I s → J s → I (m.exec s label o).1 → R s (m.exec s label o).1 →
      J (m.exec s label o).1) :
    Guarantees m (fun s => I s ∧ J s) R Q p s := by
  induction p generalizing s with
  | pure b => exact fun s' hs hi => hp s' hs hi.1
  | op o next ih =>
    intro s' label hs hi
    obtain ⟨hi', hr, hnext⟩ := hp s' label hs hi.1
    exact ⟨⟨hi', hJ s' label o hi.1 hi.2 hi' hr⟩, hr, ih _ hnext⟩

theorem Guarantees.bind (h : Rely m I R) {Q' : γ → σ → Prop} {f : γ → Prog Op Res β}
    {p : Prog Op Res γ} (hi : I s) (hp : Guarantees m I R Q' p s)
    (hf : ∀ c s', R s s' → I s' → Q' c s' → Guarantees m I R Q (f c) s') :
    Guarantees m I R Q (p >>= f) s := by
  induction p generalizing s with
  | pure c => exact hf c s (h.refl s) hi (hp s (h.refl s) hi)
  | op o next ih =>
    intro s' label hs hi'
    obtain ⟨hi'', hr, hnext⟩ := hp s' label hs hi'
    exact ⟨hi'', hr, ih _ hi'' hnext fun c s'' hs'' => hf c s'' (h.trans hs (h.trans hr hs''))⟩

/-- An operation that is a transaction: it leads to `s'` and says so, or its caller gets an error. -/
theorem Rely.withOutcome (h : Rely m I R) {c : γ} {f : Except String γ → Prog Op Res β}
    (o : Transaction.Outcome) (hi : I s) (h' : I s' ∧ R s s')
    (herror : ∀ e s₁, R s s₁ → I s₁ → Guarantees m I R Q (f (.error e)) s₁)
    (hok : Guarantees m I R Q (f (.ok c)) s') :
    I (Transaction.withOutcome o s (.ok (s', c))).1 ∧
      R s (Transaction.withOutcome o s (.ok (s', c))).1 ∧
      Guarantees m I R Q (f (Transaction.withOutcome o s (.ok (s', c))).2)
        (Transaction.withOutcome o s (.ok (s', c))).1 := by
  obtain ⟨hi', hs'⟩ := h'
  cases o with
  | reported => exact ⟨hi', hs', hok⟩
  | rolledBack => exact ⟨hi, h.refl s, herror _ s (h.refl s) hi⟩
  | unreported => exact ⟨hi', hs', herror _ s' hs' hi'⟩

end Rules

/-! ## Runs -/

structure Guarded (m : Machine Op Res σ Λ E F α) (I : σ → Prop) (R : σ → σ → Prop)
    (Q : ℕ → α → σ → Prop) (s : Threads Op Res σ α) : Prop where
  inv : I s.shared
  threads : ∀ thread p, s.threads.get? thread = some p → Guarantees m I R (Q thread) p s.shared

variable {Q : ℕ → α → σ → Prop} {s s' : Threads Op Res σ α}

theorem Guarded.step (h : Rely m I R) {C : σ → Prop}
    (hstart : ∀ thread f s, I s → C s → Guarantees m I R (Q thread) (m.program f) s)
    (hs : Guarded m I R Q s) (hc : C s.shared) {a : ThreadAction Λ E F}
    (henv : ∀ e, a = .env e → I (m.env s.shared e)) (hstep : m.step s a = some s') :
    Guarded m I R Q s' ∧ R s.shared s'.shared := by
  cases a with
  | env e =>
    cases hstep
    have hi := henv e rfl
    have hr := h.env s.shared e hs.inv hi
    exact ⟨⟨hi, fun thread p hp => (hs.threads thread p hp).mono h hr⟩, hr⟩
  | start thread f =>
    dsimp only [Machine.step] at hstep
    split_ifs at hstep
    cases hstep
    refine ⟨⟨hs.inv, ?_⟩, h.refl _⟩
    exact Table.forall_get?_put hs.threads (hstart thread f s.shared hs.inv hc)
  | advance thread label =>
    dsimp only [Machine.step] at hstep
    split at hstep
    case h_2 => cases hstep
    case h_1 o next hp =>
      cases hstep
      obtain ⟨hi, hr, hnext⟩ := hs.threads thread _ hp s.shared label (h.refl _) hs.inv
      refine ⟨⟨hi, Table.forall_get?_put ?_ hnext⟩, hr⟩
      exact fun thread' p' hp' => (hs.threads thread' p' hp').mono h hr

/-- Every run keeps what the programs guarantee, where the environment keeps the invariant in the
steps that meet `ok`. -/
theorem Guarded.run (h : Rely m I R) {C : σ → Prop} (hC : ∀ s s', C s → R s s' → C s')
    (hstart : ∀ thread f s, I s → C s → Guarantees m I R (Q thread) (m.program f) s)
    {ok : Threads Op Res σ α → ThreadAction Λ E F → Prop}
    (henv : ∀ s e, Guarded m I R Q s → ok s (.env e) → I (m.env s.shared e))
    {l : List (ThreadAction Λ E F)} (hs : Guarded m I R Q s) (hc : C s.shared)
    (hok : Run.Along m.step ok s l) (hrun : Run.run m.step s l = some s') :
    Guarded m I R Q s' ∧ R s.shared s'.shared := by
  induction l generalizing s with
  | nil =>
    cases hrun
    exact ⟨hs, h.refl _⟩
  | cons a l ih =>
    obtain ⟨s₁, hstep, hrest⟩ := run_cons_eq_some_iff.1 hrun
    rw [along_cons hstep] at hok
    have hone := hs.step h hstart hc (fun e ha => henv s e hs (ha ▸ hok.1)) hstep
    obtain ⟨hs', hr'⟩ := ih hone.1 (hC _ _ hc hone.2) hok.2 hrest
    exact ⟨hs', h.trans hone.2 hr'⟩

/-- The environment keeps the invariant in every step. -/
theorem Guarded.run_of_env (h : Rely m I R) (henv : ∀ s e, I s → I (m.env s e)) {C : σ → Prop}
    (hC : ∀ s s', C s → R s s' → C s')
    (hstart : ∀ thread f s, I s → C s → Guarantees m I R (Q thread) (m.program f) s)
    {l : List (ThreadAction Λ E F)} (hs : Guarded m I R Q s) (hc : C s.shared)
    (hrun : Run.run m.step s l = some s') : Guarded m I R Q s' ∧ R s.shared s'.shared :=
  hs.run h hC hstart (fun s e hs _ => henv s.shared e hs.inv) hc
    (along_of_forall fun _ _ => trivial) hrun

theorem Guarded.of_result (h : Rely m I R) (hs : Guarded m I R Q s) {thread : ℕ}
    {p : Prog Op Res α} {a : α} (hp : s.threads.get? thread = some p) (ha : p.result? = some a) :
    Q thread a s.shared := by
  obtain rfl := Prog.eq_pure_of_result? ha
  exact hs.threads thread _ hp s.shared (h.refl _) hs.inv

end Interleaving
