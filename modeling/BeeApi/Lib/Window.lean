import Mathlib.Data.List.Basic
import Mathlib.Data.List.Pairwise
import Mathlib.Order.MinMax

/-!
# Windows of an ordered table

A table is read in batches along a key: `upTo key b rows` are the rows up to `b`, `between key a b
rows` those behind `a` and up to `b`, and a batch is the head of such a window.  When the rows ascend,
windows that meet add up, and a batch is the window that ends at its last row.
-/

namespace Window

open List Bool

variable {ρ κ : Type*} [LinearOrder κ] {key : ρ → κ} {a b c : κ} {rows new : List ρ}

/-- The rows are listed in the order of their keys, and no key is used twice. -/
def Ascending (key : ρ → κ) (rows : List ρ) : Prop := rows.Pairwise fun r s => key r < key s

def upTo (key : ρ → κ) (b : κ) (rows : List ρ) : List ρ := rows.filter fun r => key r ≤ b

def between (key : ρ → κ) (a b : κ) (rows : List ρ) : List ρ :=
  rows.filter fun r => a < key r ∧ key r ≤ b

theorem mem_upTo {r : ρ} : r ∈ upTo key b rows ↔ r ∈ rows ∧ key r ≤ b := by
  simp [upTo]

theorem mem_between {r : ρ} : r ∈ between key a b rows ↔ r ∈ rows ∧ a < key r ∧ key r ≤ b := by
  simp [between]

section
variable (h : Ascending key rows)
include h

theorem Ascending.between : Ascending key (between key a b rows) :=
  List.Pairwise.filter _ h

theorem Ascending.eq_of_key_eq {r s : ρ} (hr : r ∈ rows) (hs : s ∈ rows)
    (heq : key r = key s) : r = s := by
  by_contra hne
  rcases pairwise_iff_getElem.1 h with hget
  obtain ⟨i, hi, rfl⟩ := getElem_of_mem hr
  obtain ⟨j, hj, rfl⟩ := getElem_of_mem hs
  rcases lt_trichotomy i j with hij | rfl | hij
  · exact (hget i j hi hj hij).ne heq
  · exact hne rfl
  · exact (hget j i hj hi hij).ne heq.symm

theorem Ascending.append {r : ρ} (hr : ∀ s ∈ rows, key s < key r) :
    Ascending key (rows ++ [r]) := by
  refine pairwise_append.2 ⟨h, pairwise_singleton _ _, fun s hs t ht => ?_⟩
  rw [mem_singleton.1 ht]
  exact hr s hs

theorem Ascending.le_getLast {last r : ρ} (hlast : rows.getLast? = some last)
    (hr : r ∈ rows) : key r ≤ key last := by
  obtain ⟨init, rfl⟩ := getLast?_eq_some_iff.1 hlast
  rcases mem_append.1 hr with hinit | hlast
  · exact ((pairwise_append.1 h).2.2 r hinit last mem_cons_self).le
  · rw [mem_singleton.1 hlast]

/-! ## Windows that meet -/

theorem upTo_append_between (hab : a ≤ b) :
    upTo key a rows ++ between key a b rows = upTo key b rows := by
  induction rows with
  | nil => rfl
  | cons r rows ih =>
    obtain ⟨hhead, htail⟩ := pairwise_cons.1 h
    have ih := ih htail
    unfold upTo between at ih ⊢
    rcases le_or_gt (key r) a with hra | har
    · rw [filter_cons_of_pos (by simpa using hra),
        filter_cons_of_neg (by simpa using fun hlt => absurd hra (not_le.2 hlt)),
        filter_cons_of_pos (by simpa using hra.trans hab), cons_append, ih]
    · -- all that follows lies behind `a` as well
      have hbehind : ∀ s ∈ r :: rows, a < key s := by
        intro s hs
        rcases mem_cons.1 hs with rfl | hs
        · exact har
        · exact har.trans (hhead s hs)
      have hnil : (r :: rows).filter (fun s => decide (key s ≤ a)) = [] := by
        refine filter_eq_nil_iff.2 fun s hs => ?_
        simpa using hbehind s hs
      rw [hnil, nil_append]
      refine filter_congr fun s hs => ?_
      simp [hbehind s hs]

theorem upTo_append_between_max :
    upTo key a rows ++ between key a b rows = upTo key (max a b) rows := by
  rcases le_total a b with hab | hba
  · rw [max_eq_right hab]
    exact upTo_append_between h hab
  · have hnil : between key a b rows = [] := by
      refine filter_eq_nil_iff.2 fun r _ => ?_
      simpa using fun ha => hba.trans_lt ha
    rw [max_eq_left hba, hnil, append_nil]

theorem between_append_between (hab : a ≤ b) (hbc : b ≤ c) :
    between key a b rows ++ between key b c rows = between key a c rows := by
  have hwhole : upTo key a rows ++ (between key a b rows ++ between key b c rows) =
      upTo key a rows ++ between key a c rows := by
    rw [← append_assoc, upTo_append_between h hab, upTo_append_between h hbc,
      upTo_append_between h (hab.trans hbc)]
  exact append_cancel_left hwhole

end

theorem filter_lt_between : (between key a b rows).filter (fun r => c < key r) =
    between key (max a c) b rows := by
  unfold between
  rw [List.filter_filter]
  refine List.filter_congr fun r _ => ?_
  rw [Bool.eq_iff_iff]
  simp only [and_eq_true, decide_eq_true_eq, max_lt_iff]
  tauto

theorem take_between (h : Ascending key rows) {n : ℕ} {last : ρ}
    (hlast : ((between key a b rows).take n).getLast? = some last) :
    (between key a b rows).take n = between key a (key last) rows ∧ last ∈ rows ∧
      a < key last ∧ key last ≤ b := by
  have hmem : last ∈ between key a b rows := List.mem_of_mem_take (List.mem_of_getLast? hlast)
  obtain ⟨hrow, ha, hb⟩ := mem_between.1 hmem
  refine ⟨?_, hrow, ha, hb⟩
  have hasc : Ascending key (between key a b rows) := h.between
  have hsplit := take_append_drop n (between key a b rows)
  rw [← hsplit] at hasc
  obtain ⟨htake, -, hcross⟩ := pairwise_append.1 hasc
  have hfilter : (between key a b rows).filter (fun r => key r ≤ key last) =
      (between key a b rows).take n := by
    conv_lhs => rw [← hsplit]
    rw [filter_append, filter_eq_self.2, filter_eq_nil_iff.2, append_nil]
    · intro r hr
      simpa using hcross last (mem_of_getLast? hlast) r hr
    · intro r hr
      simpa using Ascending.le_getLast htake hlast hr
  rw [← hfilter]
  unfold between
  rw [filter_filter]
  refine filter_congr fun r _ => ?_
  rw [Bool.eq_iff_iff]
  simp only [and_eq_true, decide_eq_true_eq]
  exact ⟨fun hr => ⟨hr.2.1, hr.1⟩, fun hr => ⟨hr.2, hr.1, hr.2.trans hb⟩⟩

theorem filter_lt_getLast {batch rest : List ρ} (h : Ascending key (batch ++ rest)) {last : ρ}
    (hlast : batch.getLast? = some last) :
    (batch ++ rest).filter (fun r => key last < key r) = rest := by
  obtain ⟨hbatch, -, hcross⟩ := pairwise_append.1 h
  have hnil : batch.filter (fun r => decide (key last < key r)) = [] := by
    refine filter_eq_nil_iff.2 fun r hr => ?_
    rw [decide_eq_true_eq, not_lt]
    exact Ascending.le_getLast hbatch hlast hr
  have hall : rest.filter (fun r => decide (key last < key r)) = rest := by
    refine filter_eq_self.2 fun r hr => ?_
    rw [decide_eq_true_eq]
    exact hcross last (mem_of_getLast? hlast) r hr
  rw [filter_append, hnil, hall, nil_append]

theorem upTo_append_of_lt (h : ∀ r ∈ new, b < key r) : upTo key b (rows ++ new) = upTo key b rows := by
  have hnew : new.filter (fun r => decide (key r ≤ b)) = [] :=
    filter_eq_nil_iff.2 fun r hr => by simpa using h r hr
  unfold upTo
  rw [filter_append, hnew, append_nil]

theorem between_append_of_lt (h : ∀ r ∈ new, b < key r) :
    between key a b (rows ++ new) = between key a b rows := by
  have hnew : new.filter (fun r => decide (a < key r ∧ key r ≤ b)) = [] :=
    filter_eq_nil_iff.2 fun r hr => by simpa using fun _ => h r hr
  unfold between
  rw [filter_append, hnew, append_nil]

end Window
