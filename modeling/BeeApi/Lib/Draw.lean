import Mathlib.Algebra.BigOperators.Group.List.Basic
import Mathlib.Algebra.Order.Ring.Nat
import Mathlib.Data.Nat.Count

/-!
# Drawing by shares

The shares of the items of a list lie side by side, and a number draws the item whose share it falls
in.  Among the numbers below the sum of all shares an item is drawn as often as its share says.
-/

namespace BeeApi.Draw

variable {α : Type*} {share : α → ℕ} {l : List α} {a : α} {r : ℕ}

/-- The item whose share the number falls in. -/
def draw (share : α → ℕ) : List α → ℕ → Option α
  | [], _ => none
  | a :: l, r => if r < share a then some a else draw share l (r - share a)

theorem draw_add (share : α → ℕ) (a : α) (l : List α) (r : ℕ) :
    draw share (a :: l) (share a + r) = draw share l r := by
  rw [draw, if_neg (Nat.not_lt.2 (Nat.le_add_right _ _)), Nat.add_sub_cancel_left]

theorem draw_mem (h : draw share l r = some a) : a ∈ l := by
  induction l generalizing r with
  | nil => cases h
  | cons b l ih =>
    rw [draw] at h
    split at h
    · exact Option.some.inj h ▸ List.mem_cons_self
    · exact List.mem_cons_of_mem b (ih h)

theorem exists_draw (hr : r < (l.map share).sum) : ∃ a ∈ l, draw share l r = some a := by
  suffices ∃ a, draw share l r = some a from this.imp fun _ h => ⟨draw_mem h, h⟩
  induction l generalizing r with
  | nil => exact absurd hr (Nat.not_lt_zero r)
  | cons b l ih =>
    rw [List.map_cons, List.sum_cons] at hr
    rw [draw]
    split
    · exact ⟨b, rfl⟩
    · exact ih (by omega)

theorem draw_last (share : α → ℕ) (l : List α) (a : α) (h : 0 < share a) :
    draw share (l ++ [a]) (((l ++ [a]).map share).sum - 1) = some a := by
  rw [List.map_append, List.sum_append, List.map_singleton, List.sum_singleton]
  induction l with
  | nil => exact if_pos (by simp; omega)
  | cons b l ih =>
    rw [List.map_cons, List.sum_cons, List.cons_append, Nat.add_assoc, Nat.add_sub_assoc (by omega),
      draw_add]
    exact ih

theorem count_congr {p q : ℕ → Prop} [DecidablePred p] [DecidablePred q] {n : ℕ}
    (h : ∀ k < n, p k ↔ q k) : n.count p = n.count q := by
  rw [Nat.count_eq_card_filter_range, Nat.count_eq_card_filter_range,
    Finset.filter_congr fun k hk => h k (Finset.mem_range.1 hk)]

/-- Every item is drawn exactly as often as its share says. -/
theorem count_draw [DecidableEq α] [BEq α] [LawfulBEq α] (share : α → ℕ) (l : List α) (a : α) :
    (l.map share).sum.count (fun r => draw share l r = some a) = l.count a * share a := by
  induction l with
  | nil => rw [List.count_nil, Nat.zero_mul]; rfl
  | cons b l ih =>
    rw [List.map_cons, List.sum_cons, Nat.count_add]
    simp only [draw_add]
    rw [ih, count_congr (q := fun _ => b = a) fun r hr => by simp [draw, hr]]
    by_cases h : b = a
    · subst h
      simp [Nat.add_mul, Nat.add_comm]
    · simp [h]

end BeeApi.Draw
