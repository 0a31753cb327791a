import Mathlib.Data.List.Infix
import Mathlib.Data.List.Pairwise
import Mathlib.Algebra.Order.Ring.Int

/-!
# Logs of times and sliding windows

A log lists times, the newest first.  `Spaced n d log` says that no `n + 1` entries lie closer than `d`
together.  A limiter keeps a beginning of the log; `Tracks n d now kept log` says that what it keeps
decides whether one more entry stays `Spaced`, and `Admits` is its test.
-/

namespace SlidingLog

open List

variable {n : ℕ} {d now now' : ℤ} {kept log : List ℤ}

/-- The newest entry comes first. -/
def Sorted (log : List ℤ) : Prop := log.Pairwise fun t u => u ≤ t

/-- Every entry lies at least `d` behind the one `n` places before it. -/
def Spaced (n : ℕ) (d : ℤ) : List ℤ → Prop
  | [] => True
  | t :: log => (∀ u ∈ (t :: log)[n]?, u + d ≤ t) ∧ Spaced n d log

/-- The entries from `a` to `b`. -/
def window (a b : ℤ) (log : List ℤ) : List ℤ := log.filter fun t => a ≤ t ∧ t ≤ b

theorem Sorted.cons (h : Sorted log) (hnow : ∀ t ∈ log, t ≤ now) : Sorted (now :: log) :=
  pairwise_cons.2 ⟨hnow, h⟩

theorem Sorted.le_of_drop (h : Sorted log) {t u : ℤ} (ht : t ∈ log[n]?) (hu : u ∈ log.drop n) :
    u ≤ t := by
  rw [← head?_drop] at ht
  obtain ⟨rest, hrest⟩ := head?_eq_some_iff.1 ht
  have hdrop : Sorted (log.drop n) := List.Pairwise.sublist (drop_sublist n log) h
  rw [hrest] at hdrop hu
  obtain rfl | hu := mem_cons.1 hu
  · exact le_rfl
  · exact (pairwise_cons.1 hdrop).1 u hu

theorem Spaced.length_window_le (hspaced : Spaced n d log) (hsorted : Sorted log) {a b : ℤ}
    (hab : b - a < d) : (window a b log).length ≤ n := by
  induction log with
  | nil => exact Nat.zero_le n
  | cons t log ih =>
    by_cases ht : a ≤ t ∧ t ≤ b
    · -- the newest entry lies in the window, so the entries from place `n` on lie before it
      have hbefore : window a b ((t :: log).drop n) = [] := by
        refine filter_eq_nil_iff.2 fun u hu => ?_
        obtain ⟨v, hv⟩ : ∃ v, (t :: log)[n]? = some v := by
          rw [← head?_drop]
          cases hdrop : (t :: log).drop n with
          | nil =>
            rw [hdrop] at hu
            cases hu
          | cons v _ => exact ⟨v, rfl⟩
        have hold := hspaced.1 v hv
        have hle := hsorted.le_of_drop hv hu
        simp only [decide_eq_true_eq, not_and, not_le]
        omega
      have hsplit : window a b (t :: log) = window a b ((t :: log).take n) := by
        conv_lhs => rw [← take_append_drop n (t :: log)]
        unfold window at hbefore ⊢
        rw [filter_append, hbefore, append_nil]
      rw [hsplit]
      exact (length_filter_le _ _).trans (length_take_le n _)
    · have hskip : window a b (t :: log) = window a b log := filter_cons_of_neg (by simpa using ht)
      rw [hskip]
      exact ih hspaced.2 (pairwise_cons.1 hsorted).2

/-! ## What a limiter keeps -/

/-- `kept` is the beginning of the log, all that matters at `now`: it has `n` entries, or what follows
is at least `d` old. -/
structure Tracks (n : ℕ) (d now : ℤ) (kept log : List ℤ) : Prop where
  isPrefix : kept <+: log
  length : kept.length ≤ n
  old : kept.length = n ∨ ∀ t ∈ log.drop kept.length, t + d ≤ now

/-- There is room, or the oldest entry is at least `d` old. -/
def Admits (n : ℕ) (d now : ℤ) (kept : List ℤ) : Prop :=
  kept.length < n ∨ ∀ t ∈ kept.getLast?, t + d ≤ now

instance (n : ℕ) (d now : ℤ) (kept : List ℤ) : Decidable (Admits n d now kept) :=
  inferInstanceAs (Decidable (_ ∨ _))

theorem tracks_nil (n : ℕ) (d now : ℤ) : Tracks n d now [] [] :=
  ⟨prefix_rfl, Nat.zero_le n, .inr nofun⟩

theorem Tracks.mono (h : Tracks n d now kept log) (hle : now ≤ now') : Tracks n d now' kept log :=
  ⟨h.isPrefix, h.length, h.old.imp_right fun hold t ht => (hold t ht).trans hle⟩

theorem Admits.mono (h : Admits n d now kept) (hle : now ≤ now') : Admits n d now' kept :=
  h.imp_right fun hold t ht => (hold t ht).trans hle

section
variable (h : Tracks n d now kept log)
include h

theorem Tracks.take_eq : log.take kept.length = kept :=
  (prefix_iff_eq_take.1 h.isPrefix).symm

theorem Tracks.getElem?_eq {i : ℕ} (hi : i < kept.length) :
    kept[i]? = log[i]? := by
  conv_lhs => rw [← h.take_eq]
  exact getElem?_take_of_lt hi

theorem Tracks.getLast?_eq (hfull : kept.length = n) (hn : 0 < n) :
    kept.getLast? = log[n - 1]? := by
  rw [getLast?_eq_getElem?, hfull]
  exact h.getElem?_eq (by omega)

theorem Tracks.old_of_admits (hadmits : Admits n d now kept) (hn : 0 < n) :
    ∀ u ∈ log[n - 1]?, u + d ≤ now := by
  intro u hu
  obtain ⟨m, rfl⟩ : ∃ m, n = m + 1 := ⟨n - 1, by omega⟩
  by_cases hfull : kept.length = m + 1
  · -- the entry is the oldest one that is kept
    have hlast : kept.getLast? = some u := (h.getLast?_eq hfull hn).trans hu
    exact (hadmits.resolve_left (by omega)) u hlast
  · have hlength := h.length
    refine (h.old.resolve_left hfull) u (mem_of_getElem? (i := m - kept.length) ?_)
    rw [getElem?_drop, show kept.length + (m - kept.length) = m by omega]
    exact hu

theorem Tracks.spaced (hadmits : Admits n d now kept)
    (hspaced : Spaced n d log) (hn : 0 < n) : Spaced n d (now :: log) := by
  refine ⟨fun u hu => h.old_of_admits hadmits hn u ?_, hspaced⟩
  obtain ⟨m, rfl⟩ : ∃ m, n = m + 1 := ⟨n - 1, by omega⟩
  rwa [getElem?_cons_succ] at hu

theorem Tracks.push (t : ℤ) :
    Tracks n d now ((t :: kept).take n) (t :: log) := by
  have hkept : t :: kept <+: t :: log := (prefix_cons_inj t).2 h.isPrefix
  refine ⟨(List.take_prefix n _).trans hkept, length_take_le n _, ?_⟩
  by_cases hfull : n ≤ kept.length + 1
  · exact .inl (by rw [length_take, length_cons]; omega)
  · rw [take_of_length_le (by rw [length_cons]; omega), length_cons, drop_succ_cons]
    exact .inr (h.old.resolve_left (by omega))

theorem Tracks.clear (hsorted : Sorted log)
    (hold : ∀ t ∈ kept, t + d ≤ now) : Tracks n d now [] log := by
  refine ⟨List.nil_prefix, Nat.zero_le n, ?_⟩
  by_cases hn : n = 0
  · exact .inl hn.symm
  refine .inr fun t ht => ?_
  rw [length_nil, drop_zero, ← take_append_drop kept.length log, h.take_eq, mem_append] at ht
  obtain ht | ht := ht
  · exact hold t ht
  · obtain hfull | hrest := h.old
    · -- behind a full record everything is older than its oldest entry
      obtain ⟨u, hu⟩ : ∃ u, kept[n - 1]? = some u := by
        rw [getElem?_eq_getElem (by omega)]
        exact ⟨_, rfl⟩
      have hlog : u ∈ log[n - 1]? := by
        rw [h.getElem?_eq (by omega)] at hu
        exact hu
      have hle : t ≤ u := hsorted.le_of_drop hlog (by
        rw [hfull] at ht
        exact mem_of_mem_drop (i := 1) (by rwa [drop_drop, Nat.sub_add_cancel (by omega)]))
      have hu := hold u (mem_of_getElem? hu)
      omega
    · exact hrest t ht

end

theorem Sorted.le_length_recent (h : Sorted log) {u : ℤ} (hu : u ∈ log[n - 1]?) (hn : 0 < n)
    (hrecent : now < u + d) : n ≤ (log.filter fun t => now < t + d).length := by
  obtain ⟨hlt, rfl⟩ := List.getElem?_eq_some_iff.1 hu
  have hall : ∀ t ∈ log.take n, now < t + d := by
    intro t ht
    obtain ⟨i, hi, rfl⟩ := getElem_of_mem ht
    rw [length_take] at hi
    rw [getElem_take]
    obtain heq | hne := eq_or_ne i (n - 1)
    · subst heq
      exact hrecent
    · have hle := pairwise_iff_getElem.1 h i (n - 1) (by omega) hlt (by omega)
      omega
  calc n = (log.take n).length := by rw [length_take]; omega
    _ = ((log.take n).filter fun t => decide (now < t + d)).length := by
      rw [filter_eq_self.2 fun t ht => by simpa using hall t ht]
    _ ≤ _ := ((take_sublist n log).filter _).length_le

theorem Sorted.length_recent_lt (h : Sorted log) (hn : 0 < n)
    (hold : ∀ u ∈ log[n - 1]?, u + d ≤ now) : (log.filter fun t => now < t + d).length < n := by
  have hrest : (log.drop (n - 1)).filter (fun t => now < t + d) = [] := by
    refine filter_eq_nil_iff.2 fun t ht => ?_
    obtain ⟨u, hu⟩ : ∃ u, log[n - 1]? = some u := by
      rw [← head?_drop]
      cases hdrop : log.drop (n - 1) with
      | nil =>
        rw [hdrop] at ht
        cases ht
      | cons u _ => exact ⟨u, rfl⟩
    have hle := h.le_of_drop hu ht
    have hu := hold u hu
    simp only [decide_eq_true_eq, not_lt]
    omega
  have hsplit : (log.filter fun t => now < t + d) =
      (log.take (n - 1)).filter fun t => now < t + d := by
    conv_lhs => rw [← take_append_drop (n - 1) log, filter_append, hrest, append_nil]
  have hle := (length_filter_le (fun t => decide (now < t + d)) (log.take (n - 1))).trans
    (length_take_le (n - 1) log)
  rw [hsplit]
  omega

/-- A log with fewer than `n` recent entries takes one more. -/
theorem Spaced.cons (hspaced : Spaced n d log) (hsorted : Sorted log)
    (hrecent : (log.filter fun t => now < t + d).length < n) : Spaced n d (now :: log) := by
  refine ⟨fun u hu => ?_, hspaced⟩
  obtain ⟨m, rfl⟩ : ∃ m, n = m + 1 := ⟨n - 1, by omega⟩
  rw [getElem?_cons_succ] at hu
  by_contra hnew
  have hle := hsorted.le_length_recent (n := m + 1) hu (Nat.succ_pos m) (not_le.1 hnew)
  omega

theorem length_recent_mono (log : List ℤ) (hle : now ≤ now') :
    (log.filter fun t => now' < t + d).length ≤ (log.filter fun t => now < t + d).length := by
  refine (monotone_filter_right _ fun t ht => ?_).length_le
  simp only [decide_eq_true_eq] at ht ⊢
  omega

theorem tracks_zero (d now : ℤ) (log : List ℤ) : Tracks 0 d now [] log :=
  ⟨List.nil_prefix, le_rfl, .inl rfl⟩

theorem Tracks.of_not_admits (h : Tracks n d now kept log) (hsorted : Sorted log)
    (hrefused : ¬ Admits n d now kept) :
    0 < n ∧ n ≤ (log.filter fun t => now < t + d).length := by
  obtain ⟨hfull, hlast⟩ := not_or.1 hrefused
  push Not at hlast
  obtain ⟨u, hu, hrecent⟩ := hlast
  have hlength : kept.length = n := le_antisymm h.length (not_lt.1 hfull)
  have hpos : 0 < n := by
    rw [← hlength]
    exact length_pos_of_mem (mem_of_getLast? hu)
  rw [h.getLast?_eq hlength hpos] at hu
  exact ⟨hpos, hsorted.le_length_recent hu hpos hrecent⟩

end SlidingLog
