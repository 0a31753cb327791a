import Mathlib.Data.List.Basic

/-!
# Streams of numbered blocks

A stream begins blocks under the numbers 0, 1, 2, ..., sends deltas into the blocks that are open, and
ends each block once.  Several blocks may be open at the same time.  `run?` reads a stream and fails
at the first event that does not fit; a stream is complete when no block is left open.
-/

namespace Blocks

variable {κ : Type}

inductive Event (κ : Type)
  | start (index : ℕ) (kind : κ)
  | delta (index : ℕ) (kind : κ)
  | stop (index : ℕ)

/-- The number of the next block, and the blocks that are open. -/
structure State (κ : Type) where
  next : ℕ := 0
  opened : List (ℕ × κ) := []

section Run

variable [DecidableEq κ]

def step? (s : State κ) : Event κ → Option (State κ)
  | .start i k => if i = s.next then some ⟨i + 1, s.opened ++ [(i, k)]⟩ else none
  | .delta i k => if (i, k) ∈ s.opened then some s else none
  | .stop i =>
    if i ∈ s.opened.map Prod.fst then some { s with opened := s.opened.filter (·.1 ≠ i) } else none

def run? (s : State κ) (events : List (Event κ)) : Option (State κ) := events.foldlM step? s

def Complete (events : List (Event κ)) : Prop := ∃ n, run? {} events = some ⟨n, []⟩

theorem run?_append {s s' s'' : State κ} {a b : List (Event κ)} (ha : run? s a = some s')
    (hb : run? s' b = some s'') : run? s (a ++ b) = some s'' := by
  unfold run? at ha hb ⊢
  rw [List.foldlM_append, ha]
  exact hb

theorem run?_start (n : ℕ) (opened : List (ℕ × κ)) (k : κ) :
    run? ⟨n, opened⟩ [.start n k] = some ⟨n + 1, opened ++ [(n, k)]⟩ := by
  show (step? _ _ >>= fun s => some s) = _
  rw [step?, if_pos rfl]
  rfl

theorem run?_delta {s : State κ} {i : ℕ} {k : κ} (h : (i, k) ∈ s.opened) :
    run? s [.delta i k] = some s := by
  show (step? _ _ >>= fun s => some s) = _
  rw [step?, if_pos h]
  rfl

theorem run?_stop_first {n i : ℕ} {k : κ} {opened : List (ℕ × κ)} (h : ∀ e ∈ opened, e.1 ≠ i) :
    run? ⟨n, (i, k) :: opened⟩ [.stop i] = some ⟨n, opened⟩ := by
  show (step? _ _ >>= fun s => some s) = _
  rw [step?, if_pos (by simp)]
  rw [List.filter_cons_of_neg (by simp), List.filter_eq_self.2 fun e he => by simpa using h e he]
  rfl

/-- The blocks that are open are ended in their order. -/
theorem run?_stops {n : ℕ} {opened : List (ℕ × κ)} (h : (opened.map Prod.fst).Nodup) :
    run? ⟨n, opened⟩ (opened.map fun e => .stop e.1) = some ⟨n, []⟩ := by
  induction opened with
  | nil => rfl
  | cons e opened ih =>
    rw [List.map_cons, List.nodup_cons] at h
    have hfirst := run?_stop_first (n := n) (k := e.2) fun e' he' heq =>
      h.1 (List.mem_map.2 ⟨e', he', heq⟩)
    exact run?_append hfirst (ih h.2)

end Run

end Blocks
