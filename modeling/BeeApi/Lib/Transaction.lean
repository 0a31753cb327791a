import Mathlib.Tactic.TypeStar

/-!
# How a transaction ends

The client of a database learns less than what happened: a transaction that is rolled back and one
that commits before the connection fails look the same to it.
-/

namespace Transaction

/-- It commits and says so, it is rolled back, or it commits and the connection fails before the
answer arrives. -/
inductive Outcome
  | reported
  | rolledBack
  | unreported
deriving DecidableEq

/-- The database afterwards, and what the caller is told.  An error value of the transaction itself
is a rollback. -/
def withOutcome {σ α : Type*} (o : Outcome) (db : σ) (res : Except String (σ × α)) :
    σ × Except String α :=
  match res, o with
  | .error e, _ => (db, .error e)
  | .ok (db, a), .reported => (db, .ok a)
  | .ok _, .rolledBack => (db, .error "transaction failed")
  | .ok (db, _), .unreported => (db, .error "connection lost")

variable {σ α : Type*} {o : Outcome} {db db' : σ} {res : Except String (σ × α)} {a : α}

theorem withOutcome_fst (o : Outcome) (db : σ) (res : Except String (σ × α)) :
    (withOutcome o db res).1 = db ∨ ∃ a, res = .ok ((withOutcome o db res).1, a) := by
  cases res with
  | error e => exact .inl rfl
  | ok r =>
    obtain ⟨db', a⟩ := r
    cases o
    · exact .inr ⟨a, rfl⟩
    · exact .inl rfl
    · exact .inr ⟨a, rfl⟩

/-- What holds of the state before and of every state that a transaction commits holds after it. -/
@[elab_as_elim]
theorem withOutcome_fst_cases {motive : σ → Prop} (o : Outcome) (db : σ)
    (res : Except String (σ × α)) (same : motive db)
    (committed : ∀ db' a, res = .ok (db', a) → motive db') : motive (withOutcome o db res).1 := by
  obtain h | ⟨a, h⟩ := withOutcome_fst o db res
  · rwa [h]
  · exact committed _ a h

theorem eq_ok_of_withOutcome (h : withOutcome o db res = (db', .ok a)) : res = .ok (db', a) := by
  cases res with
  | error e => cases h
  | ok r =>
    obtain ⟨db₁, a₁⟩ := r
    cases o <;> cases h
    rfl

end Transaction
