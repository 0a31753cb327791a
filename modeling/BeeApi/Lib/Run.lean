import Mathlib.Data.List.Basic
import Mathlib.Tactic.Ring

/-!
# Runs of a labelled transition function

A system is a partial transition function `step : σ → α → Option σ`: a label that is not enabled
gives `none`.  `run step s l` executes the labels of `l` in order, so that a list of labels is one
interleaving.  `Along step ok s l` says that every label of the run meets `ok` in the state it is
taken in.  The invariant rules reduce a property of every run to one step.
-/

/-! ## Fallible steps -/

theorem Except.bind_eq_ok_iff {ε α β : Type} {x : Except ε α} {f : α → Except ε β} {b : β} :
    (x >>= f) = .ok b ↔ ∃ a, x = .ok a ∧ f a = .ok b := by
  cases x with
  | error | ok => simp [bind, Except.bind]

theorem Except.ite_error_eq_ok_iff {ε α : Type} {p : Prop} [Decidable p] {e : ε} {x : Except ε α}
    {a : α} : (if p then .error e else x) = .ok a ↔ ¬ p ∧ x = .ok a := by
  split_ifs with hp
  · exact ⟨nofun, fun h => absurd hp h.1⟩
  · exact ⟨fun h => ⟨hp, h⟩, fun h => h.2⟩

theorem Except.map_fst_eq_ok {ε α β : Type} {x : Except ε (α × β)} {a : α}
    (h : x.map Prod.fst = .ok a) : ∃ b, x = .ok (a, b) := by
  cases x with
  | error e => cases h
  | ok r =>
    cases h
    exact ⟨r.2, rfl⟩

theorem List.foldlM_invariant {ε α β : Type} {f : β → α → Except ε β} {inv : β → Prop}
    (hstep : ∀ b a b', inv b → f b a = .ok b' → inv b') {l : List α} {b b' : β} (hb : inv b)
    (h : l.foldlM f b = .ok b') : inv b' := by
  induction l generalizing b with
  | nil =>
    cases h
    exact hb
  | cons a l ih =>
    rw [List.foldlM_cons] at h
    obtain ⟨b₁, h₁, h₂⟩ := Except.bind_eq_ok_iff.1 h
    exact ih (hstep b a b₁ hb h₁) h₂

theorem List.exists_of_mem_mapM {ε α β : Type} {f : α → Except ε β} {l : List α} {l' : List β}
    (h : l.mapM f = .ok l') {b : β} (hb : b ∈ l') : ∃ a ∈ l, f a = .ok b := by
  induction l generalizing l' with
  | nil =>
    rw [List.mapM_nil] at h
    cases h
    cases hb
  | cons a l ih =>
    rw [List.mapM_cons] at h
    obtain ⟨b₁, h₁, h⟩ := Except.bind_eq_ok_iff.1 h
    obtain ⟨l₁, h₂, h⟩ := Except.bind_eq_ok_iff.1 h
    cases h
    rcases List.mem_cons.1 hb with rfl | hb
    · exact ⟨a, List.mem_cons_self, h₁⟩
    · obtain ⟨a', ha', hf⟩ := ih h₂ hb
      exact ⟨a', List.mem_cons_of_mem a ha', hf⟩

/-- Whether a step succeeds with a property can be decided. -/
instance Option.decidableExistsSome {α : Type*} (x : Option α) (p : α → Prop) [DecidablePred p] :
    Decidable (∃ a, x = some a ∧ p a) :=
  match x with
  | none => .isFalse nofun
  | some a => decidable_of_iff (p a)
    ⟨fun h => ⟨a, rfl, h⟩, fun ⟨_, ha, h⟩ => Option.some.inj ha ▸ h⟩

theorem Option.exists_some_imp {α : Type*} {x : Option α} {p q : α → Prop}
    (hp : ∃ a, x = some a ∧ p a) (hq : ∀ a, x = some a → p a → q a) : ∃ a, x = some a ∧ q a := by
  obtain ⟨a, ha, h⟩ := hp
  exact ⟨a, ha, hq a ha h⟩

/-! ## Runs -/

namespace Run

variable {σ α : Type*}

def run (step : σ → α → Option σ) : σ → List α → Option σ
  | s, [] => some s
  | s, a :: l => (step s a).bind fun s' => run step s' l

/-- Every label of the run satisfies `ok` in the state before it. -/
def Along (step : σ → α → Option σ) (ok : σ → α → Prop) : σ → List α → Prop
  | _, [] => True
  | s, a :: l =>
    ok s a ∧
      match step s a with
      | some s' => Along step ok s' l
      | none => True

/-- The sum of a measure of the steps of a run. -/
def total (step : σ → α → Option σ) (m : σ → α → σ → ℤ) : σ → List α → ℤ
  | _, [] => 0
  | s, a :: l =>
    match step s a with
    | some s' => m s a s' + total step m s' l
    | none => 0

instance decidableAlong (step : σ → α → Option σ) (ok : σ → α → Prop)
    [∀ s a, Decidable (ok s a)] : ∀ s l, Decidable (Along step ok s l)
  | _, [] => .isTrue trivial
  | s, a :: l =>
    have : Decidable (match step s a with | some s' => Along step ok s' l | none => True) :=
      match step s a with
      | some s' => decidableAlong step ok s' l
      | none => .isTrue trivial
    inferInstanceAs (Decidable (_ ∧ _))

variable {step : σ → α → Option σ} {ok : σ → α → Prop} {m : σ → α → σ → ℤ}

@[simp] theorem run_nil (s : σ) : run step s [] = some s := rfl

theorem run_cons_eq_some_iff {s s' : σ} {a : α} {l : List α} :
    run step s (a :: l) = some s' ↔ ∃ s₁, step s a = some s₁ ∧ run step s₁ l = some s' := by
  simp only [run, Option.bind_eq_some_iff]

theorem run_append_eq_some_iff {s s' : σ} {l l' : List α} :
    run step s (l ++ l') = some s' ↔ ∃ s₁, run step s l = some s₁ ∧ run step s₁ l' = some s' := by
  induction l generalizing s with
  | nil => simp
  | cons a l ih =>
    simp only [List.cons_append, run_cons_eq_some_iff, ih]
    constructor
    · rintro ⟨s₁, h₁, s₂, h₂, h₃⟩
      exact ⟨s₂, ⟨s₁, h₁, h₂⟩, h₃⟩
    · rintro ⟨s₂, ⟨s₁, h₁, h₂⟩, h₃⟩
      exact ⟨s₁, h₁, s₂, h₂, h₃⟩

theorem run_singleton_eq_some_iff {s s' : σ} {a : α} :
    run step s [a] = some s' ↔ step s a = some s' := by
  simp [run_cons_eq_some_iff]

theorem along_cons {s s' : σ} {a : α} {l : List α} (h : step s a = some s') :
    Along step ok s (a :: l) ↔ ok s a ∧ Along step ok s' l := by
  rw [Along, h]

theorem along_of_forall {p : α → Prop} {s : σ} {l : List α} (h : ∀ a ∈ l, p a) :
    Along step (fun _ a => p a) s l := by
  induction l generalizing s with
  | nil => trivial
  | cons a l ih =>
    rw [Along]
    refine ⟨h a List.mem_cons_self, ?_⟩
    cases step s a with
    | none => trivial
    | some s' => exact ih fun b hb => h b (List.mem_cons_of_mem a hb)

theorem along_and {ok' : σ → α → Prop} {s : σ} {l : List α} (h : Along step ok s l)
    (h' : Along step ok' s l) : Along step (fun s a => ok s a ∧ ok' s a) s l := by
  induction l generalizing s with
  | nil => trivial
  | cons a l ih =>
    cases hs : step s a with
    | none =>
      rw [Along] at h h' ⊢
      rw [hs]
      exact ⟨⟨h.1, h'.1⟩, trivial⟩
    | some s' =>
      rw [along_cons hs] at h h' ⊢
      exact ⟨⟨h.1, h'.1⟩, ih h.2 h'.2⟩

theorem invariant_along {inv : σ → Prop}
    (hstep : ∀ s a s', inv s → ok s a → step s a = some s' → inv s') {s s' : σ} {l : List α}
    (hs : inv s) (hok : Along step ok s l) (h : run step s l = some s') : inv s' := by
  induction l generalizing s with
  | nil =>
    cases h
    exact hs
  | cons a l ih =>
    obtain ⟨s₁, h₁, h₂⟩ := run_cons_eq_some_iff.1 h
    rw [along_cons h₁] at hok
    exact ih (hstep s a s₁ hs hok.1 h₁) hok.2 h₂

theorem invariant {inv : σ → Prop} (hstep : ∀ s a s', inv s → step s a = some s' → inv s')
    {s s' : σ} {l : List α} (hs : inv s) (h : run step s l = some s') : inv s' := by
  induction l generalizing s with
  | nil =>
    cases h
    exact hs
  | cons a l ih =>
    obtain ⟨s₁, h₁, h₂⟩ := run_cons_eq_some_iff.1 h
    exact ih (hstep s a s₁ hs h₁) h₂

/-- A condition that follows from another and from what the steps that meet it preserve. -/
theorem along_of_invariant {I : σ → Prop} {ok' : σ → α → Prop}
    (hstep : ∀ s a s', I s → ok' s a → step s a = some s' → I s')
    (hok : ∀ s a, I s → ok' s a → ok s a) {s : σ} {l : List α} (hs : I s)
    (h : Along step ok' s l) : Along step ok s l := by
  induction l generalizing s with
  | nil => trivial
  | cons a l ih =>
    cases hs₁ : step s a with
    | none =>
      rw [Along, hs₁] at h ⊢
      exact ⟨hok s a hs h.1, trivial⟩
    | some s₁ =>
      rw [along_cons hs₁] at h ⊢
      exact ⟨hok s a hs h.1, ih (hstep s a s₁ hs h.1 hs₁) h.2⟩

theorem along_append_iff {s s₁ : σ} {l l' : List α} (h : run step s l = some s₁) :
    Along step ok s (l ++ l') ↔ Along step ok s l ∧ Along step ok s₁ l' := by
  induction l generalizing s with
  | nil =>
    cases h
    simp [Along]
  | cons a l ih =>
    obtain ⟨s₂, h₂, h₃⟩ := run_cons_eq_some_iff.1 h
    rw [List.cons_append, along_cons h₂, along_cons h₂, ih h₃, and_assoc]

theorem total_append {s s₁ : σ} {l l' : List α} (h : run step s l = some s₁) :
    total step m s (l ++ l') = total step m s l + total step m s₁ l' := by
  induction l generalizing s with
  | nil =>
    cases h
    simp [total]
  | cons a l ih =>
    obtain ⟨s₂, h₂, h₃⟩ := run_cons_eq_some_iff.1 h
    simp only [List.cons_append, total, h₂, ih h₃, add_assoc]

theorem total_sub {m' : σ → α → σ → ℤ} {s : σ} {l : List α} :
    total step (fun s a s' => m s a s' - m' s a s') s l = total step m s l - total step m' s l := by
  induction l generalizing s with
  | nil => rfl
  | cons a l ih =>
    simp only [total]
    cases step s a with
    | none => rfl
    | some s' =>
      dsimp only
      rw [ih]
      ring

theorem total_le_total {m' : σ → α → σ → ℤ} (h : ∀ s a s', step s a = some s' → m s a s' ≤ m' s a s')
    {s : σ} {l : List α} : total step m s l ≤ total step m' s l := by
  induction l generalizing s with
  | nil => exact le_rfl
  | cons a l ih =>
    rw [total, total]
    cases hs : step s a with
    | none => exact le_rfl
    | some s' => exact add_le_add (h s a s' hs) ih

/-- A measure that falls with every step, but for steps that raise it by less than `n`, bounds the
number of steps. -/
theorem length_add_le_of_decreasing {f : σ → ℕ} {p : α → Bool} {n : ℕ}
    (hstep : ∀ s a s', step s a = some s' → f s' + 1 ≤ f s + if p a then n else 0) {s s' : σ}
    {l : List α} (h : run step s l = some s') :
    l.length + f s' ≤ f s + n * l.countP p := by
  induction l generalizing s with
  | nil =>
    cases h
    simp
  | cons a l ih =>
    obtain ⟨s₁, h₁, h₂⟩ := run_cons_eq_some_iff.1 h
    have hone := hstep s a s₁ h₁
    have hrest := ih h₂
    rw [List.length_cons, List.countP_cons, Nat.mul_add, mul_ite, mul_one, mul_zero]
    omega

/-- As long as a measure can be lowered until a state is good, a good state can be reached. -/
theorem exists_run_of_decreasing {I p : σ → Prop} {q : α → Prop} (f : σ → ℕ)
    (hstep : ∀ s, I s → ¬ p s →
      ∃ a s', q a ∧ step s a = some s' ∧ I s' ∧ f s' < f s) {s : σ} (hs : I s) :
    ∃ l s', run step s l = some s' ∧ p s' ∧ l.length ≤ f s ∧ ∀ a ∈ l, q a := by
  induction hn : f s using Nat.strong_induction_on generalizing s with
  | _ n ih =>
    by_cases hgood : p s
    · exact ⟨[], s, rfl, hgood, Nat.zero_le n, by simp⟩
    · obtain ⟨a, s₁, ha, h₁, hi, hlt⟩ := hstep s hs hgood
      obtain ⟨l, s', hl, hgood', hlen, hok⟩ := ih _ (hn ▸ hlt) hi rfl
      refine ⟨a :: l, s', run_cons_eq_some_iff.2 ⟨s₁, h₁, hl⟩, hgood', ?_, by simpa using ⟨ha, hok⟩⟩
      rw [List.length_cons]
      omega

theorem total_invariant_along {inv : σ → ℤ → Prop}
    (hstep : ∀ s t a s', inv s t → ok s a → step s a = some s' → inv s' (t + m s a s')) {s s' : σ}
    {t : ℤ} {l : List α} (hs : inv s t) (hok : Along step ok s l) (h : run step s l = some s') :
    inv s' (t + total step m s l) := by
  induction l generalizing s t with
  | nil =>
    cases h
    simpa [total] using hs
  | cons a l ih =>
    obtain ⟨s₁, h₁, h₂⟩ := run_cons_eq_some_iff.1 h
    rw [along_cons h₁] at hok
    have := ih (hstep s t a s₁ hs hok.1 h₁) hok.2 h₂
    simpa only [total, h₁, add_assoc] using this

theorem total_invariant {inv : σ → ℤ → Prop}
    (hstep : ∀ s t a s', inv s t → step s a = some s' → inv s' (t + m s a s')) {s s' : σ} {t : ℤ}
    {l : List α} (hs : inv s t) (h : run step s l = some s') : inv s' (t + total step m s l) :=
  total_invariant_along (fun s t a s' hi _ hs => hstep s t a s' hi hs) hs
    (along_of_forall fun _ _ => trivial) h

/-- What happens only while a gate is open and closes it for good happens at most once. -/
theorem total_le_one_along {inv closed : σ → Prop}
    (hinv : ∀ s a s', inv s → ok s a → step s a = some s' → inv s')
    (hclosed : ∀ s a s', inv s → ok s a → closed s → step s a = some s' → closed s')
    (hm : ∀ s a s', inv s → ok s a → step s a = some s' →
      m s a s' = 0 ∨ m s a s' = 1 ∧ ¬ closed s ∧ closed s')
    {s s' : σ} {l : List α} (hs : inv s) (hok : Along step ok s l) (h : run step s l = some s') :
    total step m s l ≤ 1 := by
  have hstep : ∀ s n a s', inv s ∧ (n = 0 ∨ n = 1 ∧ closed s) → ok s a → step s a = some s' →
      inv s' ∧ (n + m s a s' = 0 ∨ n + m s a s' = 1 ∧ closed s') := by
    rintro s n a s' ⟨hi, hn⟩ ha hs
    refine ⟨hinv s a s' hi ha hs, ?_⟩
    obtain hzero | ⟨hone, hopen, hdone⟩ := hm s a s' hi ha hs
    · rw [hzero, add_zero]
      exact hn.imp_right fun hc => ⟨hc.1, hclosed s a s' hi ha hc.2 hs⟩
    · obtain rfl := hn.resolve_right fun hc => hopen hc.2
      exact .inr ⟨by rw [hone, zero_add], hdone⟩
  have hend := (total_invariant_along hstep ⟨hs, .inl rfl⟩ hok h).2
  rw [zero_add] at hend
  obtain hzero | ⟨hone, -⟩ := hend
  · rw [hzero]
    exact zero_le_one
  · exact hone.le

theorem total_le_one {closed : σ → Prop}
    (hclosed : ∀ s a s', closed s → step s a = some s' → closed s')
    (hm : ∀ s a s', step s a = some s' → m s a s' = 0 ∨ m s a s' = 1 ∧ ¬ closed s ∧ closed s')
    {s s' : σ} {l : List α} (h : run step s l = some s') : total step m s l ≤ 1 :=
  total_le_one_along (fun _ _ _ _ _ _ => trivial) (fun s a s' _ _ hc hs => hclosed s a s' hc hs)
    (fun s a s' _ _ hs => hm s a s' hs) trivial (along_of_forall fun _ _ => trivial) h

/-! ## Properties that every step decides -/

/-- When a step from a state with `P` leads to one with `P` exactly if it meets `ok`, every state of a
run has `P` exactly if all its steps meet `ok`.  `P` may speak of what the labels add up to. -/
theorem forall_prefix_iff_along {τ : Type*} {f : τ → α → τ} {I : σ → Prop} {P : σ → τ → Prop}
    (hinv : ∀ s a s', I s → step s a = some s' → I s')
    (hstep : ∀ s t a s', I s → P s t → step s a = some s' → (P s' (f t a) ↔ ok s a))
    {s s' : σ} {t : τ} {l : List α} (hs : I s) (hP : P s t) (h : run step s l = some s') :
    (∀ before after, l = before ++ after → ∀ s₁, run step s before = some s₁ →
      P s₁ (before.foldl f t)) ↔ Along step ok s l := by
  induction l generalizing s t with
  | nil =>
    refine ⟨fun _ => trivial, ?_⟩
    rintro - before after hnil s₁ hs₁
    obtain ⟨rfl, rfl⟩ := List.append_eq_nil_iff.1 hnil.symm
    cases hs₁
    exact hP
  | cons a l ih =>
    obtain ⟨s₁, h₁, h₂⟩ := run_cons_eq_some_iff.1 h
    have hone := hstep s t a s₁ hs hP h₁
    rw [along_cons h₁]
    constructor
    · intro hall
      have hP₁ : P s₁ (f t a) := hall [a] l rfl s₁ (run_singleton_eq_some_iff.2 h₁)
      refine ⟨hone.1 hP₁, (ih (hinv s a s₁ hs h₁) hP₁ h₂).1 fun before after hl s₂ h₃ => ?_⟩
      exact hall (a :: before) after (by rw [hl, List.cons_append]) s₂
        (run_cons_eq_some_iff.2 ⟨s₁, h₁, h₃⟩)
    · rintro ⟨hok, halong⟩ before after hl s₂ h₃
      cases before with
      | nil =>
        cases h₃
        exact hP
      | cons b before =>
        obtain ⟨rfl, htail⟩ := List.cons.inj hl
        obtain ⟨s₃, h₄, h₅⟩ := run_cons_eq_some_iff.1 h₃
        cases h₁.symm.trans h₄
        exact (ih (hinv s a s₁ hs h₁) (hone.2 hok) h₂).2 halong before after htail s₂ h₅

/-- The same for a property of the state alone, said of the state after each step. -/
theorem along_post_iff {I P : σ → Prop}
    (hinv : ∀ s a s', I s → step s a = some s' → I s')
    (hstep : ∀ s a s', I s → P s → step s a = some s' → (P s' ↔ ok s a))
    (hblocked : ∀ s a, step s a = none → ok s a) {s : σ} {l : List α} (hs : I s) (hP : P s) :
    Along step (fun s a => ∀ s', step s a = some s' → P s') s l ↔ Along step ok s l := by
  induction l generalizing s with
  | nil => exact Iff.rfl
  | cons a l ih =>
    cases h : step s a with
    | none =>
      rw [Along, Along, h]
      exact ⟨fun _ => ⟨hblocked s a h, trivial⟩, fun _ => ⟨nofun, trivial⟩⟩
    | some s₁ =>
      have hone := hstep s a s₁ hs hP h
      rw [along_cons h, along_cons h, h]
      constructor
      · rintro ⟨hall, hrest⟩
        have hP₁ := hall s₁ rfl
        exact ⟨hone.1 hP₁, (ih (hinv s a s₁ hs h) hP₁).1 hrest⟩
      · rintro ⟨hok, hrest⟩
        have hP₁ := hone.2 hok
        exact ⟨fun s' hs' => Option.some.inj hs' ▸ hP₁, (ih (hinv s a s₁ hs h) hP₁).2 hrest⟩

/-- A property that a step keeps if and only if it is allowed holds at the end of a run if and only if
it held at the start and every step was allowed. -/
theorem final_iff_along {I P : σ → Prop} (hinv : ∀ s a s', I s → step s a = some s' → I s')
    (hstep : ∀ s a s', I s → step s a = some s' → (P s' ↔ P s ∧ ok s a)) {s s' : σ} {l : List α}
    (hs : I s) (h : run step s l = some s') : P s' ↔ P s ∧ Along step ok s l := by
  induction l generalizing s with
  | nil =>
    cases h
    simp [Along]
  | cons a l ih =>
    obtain ⟨s₁, h₁, h₂⟩ := run_cons_eq_some_iff.1 h
    rw [along_cons h₁, ih (hinv s a s₁ hs h₁) h₂, hstep s a s₁ hs h₁, and_assoc]

end Run
