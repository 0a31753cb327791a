import Mathlib.Algebra.BigOperators.Group.Finset.Basic
import Mathlib.Algebra.Order.BigOperators.Group.List
import Mathlib.Tactic.Linarith
import Mathlib.Tactic.Ring

/-!
# Keyed tables

A `Table κ ρ` is a finite list of rows with different keys: a relational table with its primary key, or
a hash map.  `get?` reads a row, `modify` rewrites one, `updateRow` is a guarded single-row update,
`updateWhere` a bulk update, `insert?` fails on a duplicate key, and `sum` adds a weight over all
rows.  Every operation is described through `get?` and `sum`.
-/

/-- A finite table of rows with pairwise different keys. -/
structure Table (κ ρ : Type) where
  rows : List (κ × ρ)
  nodup : (rows.map Prod.fst).Nodup
deriving DecidableEq

namespace Table

open List

variable {κ ρ : Type}

def keys (t : Table κ ρ) : List κ := t.rows.map Prod.fst

def empty : Table κ ρ := ⟨[], nodup_nil⟩

instance : EmptyCollection (Table κ ρ) := ⟨empty⟩

/-- Rewrite the rows that satisfy `p`. -/
def updateWhere (t : Table κ ρ) (p : κ → ρ → Bool) (f : ρ → ρ) : Table κ ρ where
  rows := t.rows.map fun e => if p e.1 e.2 then (e.1, f e.2) else e
  nodup := by
    have h : (t.rows.map fun e => if p e.1 e.2 then (e.1, f e.2) else e).map Prod.fst =
        t.rows.map Prod.fst := by
      rw [map_map]
      refine map_congr_left fun e _ => ?_
      simp only [Function.comp_apply]
      split_ifs <;> rfl
    rw [h]
    exact t.nodup

/-- Remove the rows that satisfy `p`. -/
def eraseWhere (t : Table κ ρ) (p : κ → ρ → Bool) : Table κ ρ where
  rows := t.rows.filter fun e => !p e.1 e.2
  nodup := t.nodup.sublist (filter_sublist.map _)

def sum (t : Table κ ρ) (g : κ → ρ → ℤ) : ℤ := (t.rows.map fun e => g e.1 e.2).sum

theorem eq_of_rows_eq {t t' : Table κ ρ} (h : t.rows = t'.rows) : t = t' := by
  cases t
  cases t'
  cases h
  rfl

@[simp] theorem sum_empty (g : κ → ρ → ℤ) : (∅ : Table κ ρ).sum g = 0 := rfl

theorem sum_updateWhere (t : Table κ ρ) (p : κ → ρ → Bool) (f : ρ → ρ) (g : κ → ρ → ℤ) :
    (t.updateWhere p f).sum g = t.sum fun k r => if p k r then g k (f r) else g k r := by
  unfold sum updateWhere
  rw [map_map]
  congr 1
  refine map_congr_left fun e _ => ?_
  simp only [Function.comp_apply]
  split_ifs <;> rfl

theorem sum_eraseWhere (t : Table κ ρ) (p : κ → ρ → Bool) (g : κ → ρ → ℤ) :
    (t.eraseWhere p).sum g + ((t.rows.filter fun e => p e.1 e.2).map fun e => g e.1 e.2).sum =
      t.sum g := by
  unfold sum eraseWhere
  dsimp only
  induction t.rows with
  | nil => rfl
  | cons e rows ih =>
    rw [filter_cons, filter_cons]
    cases hp : p e.1 e.2 with
    | false =>
      simp only [Bool.not_false, if_true, Bool.false_eq_true, if_false, map_cons, sum_cons] at ih ⊢
      rw [← ih]
      ring
    | true =>
      simp only [Bool.not_true, if_true, Bool.false_eq_true, if_false, map_cons, sum_cons] at ih ⊢
      rw [← ih]
      ring

theorem sum_add (t : Table κ ρ) (g g' : κ → ρ → ℤ) :
    (t.sum fun k r => g k r + g' k r) = t.sum g + t.sum g' := by
  unfold sum
  rw [← sum_map_add]

variable [DecidableEq κ] {t t' : Table κ ρ} {k k' : κ} {r r' : ρ}

/-! ## Reading -/

/-- The row stored under a key. -/
def get? (t : Table κ ρ) (k : κ) : Option ρ :=
  (t.rows.find? fun e => e.1 = k).map Prod.snd

@[simp] theorem get?_empty (k : κ) : (∅ : Table κ ρ).get? k = none := rfl

theorem get?_eq_some_iff (t : Table κ ρ) (k : κ) (r : ρ) :
    t.get? k = some r ↔ (k, r) ∈ t.rows := by
  obtain ⟨rows, nodup⟩ := t
  simp only [get?]
  induction rows with
  | nil => simp
  | cons e rows ih =>
    obtain ⟨k', r'⟩ := e
    rw [map_cons, nodup_cons] at nodup
    by_cases hk : k' = k
    · subst hk
      simp only [find?_cons, decide_true, Option.map_some, Option.some.injEq, mem_cons,
        Prod.mk.injEq, true_and]
      constructor
      · rintro rfl
        exact Or.inl rfl
      · rintro (rfl | hr)
        · rfl
        · exact absurd (mem_map_of_mem hr) nodup.1
    · simp only [find?_cons, hk, decide_false, mem_cons, Prod.mk.injEq, Ne.symm hk,
        false_and, false_or]
      exact ih nodup.2

/-- A property of all rows is decided by going through them. -/
instance decidableForallGet? (t : Table κ ρ) (p : κ → ρ → Prop) [∀ k r, Decidable (p k r)] :
    Decidable (∀ k r, t.get? k = some r → p k r) :=
  decidable_of_iff (∀ e ∈ t.rows, p e.1 e.2)
    ⟨fun h k r hr => h (k, r) ((get?_eq_some_iff t k r).1 hr),
      fun h e he => h e.1 e.2 ((get?_eq_some_iff t e.1 e.2).2 he)⟩

theorem mem_keys_iff (t : Table κ ρ) (k : κ) : k ∈ t.keys ↔ ∃ r, t.get? k = some r := by
  simp only [keys, mem_map, get?_eq_some_iff, Prod.exists, exists_and_right, exists_eq_right]

theorem get?_eq_none_iff (t : Table κ ρ) (k : κ) : t.get? k = none ↔ k ∉ t.keys := by
  rw [mem_keys_iff, Option.eq_none_iff_forall_ne_some, not_exists]

/-- The first row that satisfies `p`, with its key. -/
def find? (t : Table κ ρ) (p : ρ → Bool) : Option (κ × ρ) := t.rows.find? fun e => p e.2

theorem get?_of_find? {p : ρ → Bool}
    (h : t.find? p = some (k, r)) : t.get? k = some r ∧ p r = true := by
  have hp := find?_some (p := fun e : κ × ρ => p e.2) h
  exact ⟨(get?_eq_some_iff t k r).2 (mem_of_find?_eq_some h), hp⟩

theorem find?_eq_none_iff (t : Table κ ρ) (p : ρ → Bool) :
    t.find? p = none ↔ ∀ k r, t.get? k = some r → p r = false := by
  simp only [find?, find?_eq_none, get?_eq_some_iff, Prod.forall, Bool.not_eq_true]

/-- When at most one key satisfies `p`, the search finds the row of that key. -/
theorem find?_eq_some_of_unique {p : ρ → Bool}
    (hr : t.get? k = some r) (hp : p r = true)
    (hu : ∀ k' r', t.get? k' = some r' → p r' = true → k' = k) : t.find? p = some (k, r) := by
  cases hf : t.find? p with
  | none => rw [(find?_eq_none_iff t p).1 hf k r hr] at hp; cases hp
  | some e =>
    obtain ⟨k', r'⟩ := e
    obtain ⟨hr', hp'⟩ := get?_of_find? hf
    obtain rfl := hu k' r' hr' hp'
    rw [hr] at hr'
    cases hr'
    rfl

/-! ## Updating -/

/-- Rewrite the row of one key, if there is one. -/
def modify (t : Table κ ρ) (k : κ) (f : ρ → ρ) : Table κ ρ :=
  t.updateWhere (fun k' _ => decide (k' = k)) f

/-- A single-row update guarded by `p`; `none` when no row was affected. -/
def updateRow (t : Table κ ρ) (k : κ) (p : ρ → Bool) (f : ρ → ρ) : Option (Table κ ρ) :=
  match t.get? k with
  | some r => if p r then some (t.modify k f) else none
  | none => none

/-- Insert a row; `none` when the key is taken. -/
def insert? (t : Table κ ρ) (k : κ) (r : ρ) : Option (Table κ ρ) :=
  if h : k ∈ t.keys then none
  else some
    { rows := t.rows ++ [(k, r)]
      nodup := by
        rw [map_append, nodup_append]
        refine ⟨t.nodup, nodup_singleton _, ?_⟩
        intro a ha b hb
        rw [map_singleton, mem_singleton] at hb
        rintro rfl
        rw [hb] at ha
        exact h ha }

def erase (t : Table κ ρ) (k : κ) : Table κ ρ where
  rows := t.rows.filter fun e => e.1 ≠ k
  nodup := t.nodup.sublist (filter_sublist.map _)

/-- Write a row under a key, replacing the row that was there. -/
def put (t : Table κ ρ) (k : κ) (r : ρ) : Table κ ρ :=
  match t.insert? k r with
  | some t' => t'
  | none => t.modify k fun _ => r

theorem get?_updateWhere (t : Table κ ρ) (p : κ → ρ → Bool) (f : ρ → ρ) (k : κ) :
    (t.updateWhere p f).get? k = (t.get? k).map fun r => if p k r then f r else r := by
  ext r
  simp only [get?_eq_some_iff, Option.map_eq_some_iff, updateWhere, mem_map]
  constructor
  · rintro ⟨⟨k', r'⟩, hm, he⟩
    split_ifs at he with hp
    · cases he
      exact ⟨r', hm, if_pos hp⟩
    · obtain ⟨rfl, rfl⟩ := Prod.mk.inj he
      exact ⟨r', hm, if_neg hp⟩
  · rintro ⟨r', hm, rfl⟩
    refine ⟨(k, r'), hm, ?_⟩
    split_ifs <;> rfl

theorem get?_modify (t : Table κ ρ) (k k' : κ) (f : ρ → ρ) :
    (t.modify k f).get? k' = if k' = k then (t.get? k').map f else t.get? k' := by
  rw [modify, get?_updateWhere]
  by_cases h : k' = k
  · simp [h]
  · simp [h]

@[simp] theorem get?_modify_self (t : Table κ ρ) (k : κ) (f : ρ → ρ) :
    (t.modify k f).get? k = (t.get? k).map f := by
  rw [get?_modify, if_pos rfl]

theorem get?_modify_of_ne (t : Table κ ρ) (f : ρ → ρ) (h : k' ≠ k) :
    (t.modify k f).get? k' = t.get? k' := by
  rw [get?_modify, if_neg h]

theorem modify_congr {f g : ρ → ρ} (hr : t.get? k = some r)
    (h : f r = g r) : t.modify k f = t.modify k g := by
  refine eq_of_rows_eq (map_congr_left fun e he => ?_)
  simp only [decide_eq_true_eq]
  split_ifs with hk
  · have he' : t.get? k = some e.2 := (get?_eq_some_iff t k e.2).2 (by rw [← hk]; exact he)
    rw [hr] at he'
    rw [← Option.some.inj he', h]
  · rfl

theorem modify_modify (t : Table κ ρ) (k : κ) (f g : ρ → ρ) :
    (t.modify k f).modify k g = t.modify k fun r => g (f r) := by
  refine eq_of_rows_eq ?_
  show (t.rows.map _).map _ = t.rows.map _
  rw [map_map]
  refine map_congr_left fun e _ => ?_
  simp only [Function.comp_apply, decide_eq_true_eq]
  by_cases hk : e.1 = k
  · simp [hk]
  · simp [hk]

theorem modify_eq_self {f : ρ → ρ} (h : ∀ r, t.get? k = some r → f r = r) :
    t.modify k f = t := by
  refine eq_of_rows_eq ((map_congr_left fun e he => ?_).trans (map_id _))
  simp only [decide_eq_true_eq, id_eq]
  split_ifs with hk
  · rw [h e.2 ((get?_eq_some_iff t k e.2).2 (by rw [← hk]; exact he))]
  · rfl

theorem updateRow_eq_some_iff (t t' : Table κ ρ) (k : κ) (p : ρ → Bool) (f : ρ → ρ) :
    t.updateRow k p f = some t' ↔ ∃ r, t.get? k = some r ∧ p r = true ∧ t' = t.modify k f := by
  unfold updateRow
  cases t.get? k with
  | none => simp
  | some r =>
    simp only [Option.some.injEq, exists_eq_left']
    split_ifs with h
    · simp [h, eq_comm]
    · simp [h]

theorem updateRow_eq_none_iff (t : Table κ ρ) (k : κ) (p : ρ → Bool) (f : ρ → ρ) :
    t.updateRow k p f = none ↔ ∀ r, t.get? k = some r → p r = false := by
  unfold updateRow
  cases t.get? k with
  | none => simp
  | some r =>
    simp only [Option.some.injEq, forall_eq']
    split_ifs with h
    · simp [h]
    · simpa using h

theorem insert?_eq_some_iff (t t' : Table κ ρ) (k : κ) (r : ρ) :
    t.insert? k r = some t' ↔ t.get? k = none ∧ t'.rows = t.rows ++ [(k, r)] := by
  unfold insert?
  rw [get?_eq_none_iff]
  split_ifs with h
  · simp [h]
  · rw [Option.some.injEq]
    refine ⟨fun he => ⟨h, by rw [← he]⟩, fun he => eq_of_rows_eq he.2.symm⟩

theorem insert?_eq_none_iff (t : Table κ ρ) (k : κ) (r : ρ) :
    t.insert? k r = none ↔ k ∈ t.keys := by
  unfold insert?
  split_ifs with h <;> simp [h]

theorem get?_of_insert? (h : t.insert? k r = some t') (k' : κ) :
    t'.get? k' = if k' = k then some r else t.get? k' := by
  obtain ⟨hn, hrows⟩ := (insert?_eq_some_iff t t' k r).1 h
  ext r'
  rw [get?_eq_some_iff, hrows, mem_append, mem_singleton, Prod.mk.injEq]
  split_ifs with hk
  · subst hk
    rw [← get?_eq_some_iff, hn]
    simp [eq_comm]
  · simp [hk, get?_eq_some_iff]

theorem get?_erase (t : Table κ ρ) (k k' : κ) :
    (t.erase k).get? k' = if k' = k then none else t.get? k' := by
  ext r
  simp only [get?_eq_some_iff, erase, mem_filter, decide_eq_true_eq]
  split_ifs with h
  · simp [h]
  · rw [get?_eq_some_iff]
    simp [h]

theorem erase_eq_self (h : t.get? k = none) : t.erase k = t := by
  refine eq_of_rows_eq (filter_eq_self.2 fun e he => ?_)
  have hk : k ∉ t.keys := (get?_eq_none_iff t k).1 h
  simp only [ne_eq, decide_eq_true_eq]
  rintro rfl
  exact hk (mem_map_of_mem he)

theorem get?_eraseWhere (t : Table κ ρ) (p : κ → ρ → Bool) (k : κ) :
    (t.eraseWhere p).get? k = (t.get? k).filter fun r => !p k r := by
  ext r
  simp only [get?_eq_some_iff, eraseWhere, mem_filter, Option.filter_eq_some_iff]

theorem get?_put (t : Table κ ρ) (k k' : κ) (r : ρ) :
    (t.put k r).get? k' = if k' = k then some r else t.get? k' := by
  unfold put
  cases h : t.insert? k r with
  | some t' => exact get?_of_insert? h k'
  | none =>
    rw [get?_modify]
    obtain ⟨r', hr⟩ := (mem_keys_iff t k).1 ((insert?_eq_none_iff t k r).1 h)
    split_ifs with hk
    · rw [hk, hr, Option.map_some]
    · rfl

theorem forall_get?_put {P : κ → ρ → Prop}
    (h : ∀ k' r', t.get? k' = some r' → P k' r') (hr : P k r) :
    ∀ k' r', (t.put k r).get? k' = some r' → P k' r' := by
  intro k' r' hget
  rw [get?_put] at hget
  split_ifs at hget with hk
  · cases hget
    rw [hk]
    exact hr
  · exact h k' r' hget

theorem forall_get?_erase {P : κ → ρ → Prop}
    (h : ∀ k' r', t.get? k' = some r' → P k' r') :
    ∀ k' r', (t.erase k).get? k' = some r' → P k' r' := by
  intro k' r' hget
  rw [get?_erase] at hget
  split_ifs at hget with hk
  exact h k' r' hget

theorem forall_get?_insert {P : κ → ρ → Prop}
    (h : ∀ k' r', t.get? k' = some r' → P k' r') (hr : P k r) (hins : t.insert? k r = some t') :
    ∀ k' r', t'.get? k' = some r' → P k' r' := by
  intro k' r' hget
  rw [get?_of_insert? hins] at hget
  split_ifs at hget with hk
  · cases hget
    rw [hk]
    exact hr
  · exact h k' r' hget

theorem put_eq_self (h : t.get? k = some r) : t.put k r = t := by
  have hi : t.insert? k r = none := (insert?_eq_none_iff t k r).2 ((mem_keys_iff t k).2 ⟨r, h⟩)
  unfold put
  rw [hi]
  refine eq_of_rows_eq ?_
  show t.rows.map _ = t.rows
  refine (map_congr_left fun e he => ?_).trans (map_id _)
  simp only [id_eq, decide_eq_true_eq]
  split_ifs with hk
  · have hr : t.get? k = some e.2 := (get?_eq_some_iff t k e.2).2 (by rw [← hk]; exact he)
    rw [h] at hr
    exact Prod.ext rfl (Option.some.inj hr)
  · rfl

def overlay (t w : Table κ ρ) : Table κ ρ := w.rows.foldl (fun t e => t.put e.1 e.2) t

theorem get?_overlay (t w : Table κ ρ) (k : κ) :
    (t.overlay w).get? k = (w.get? k).or (t.get? k) := by
  have hfold : ∀ (rows : List (κ × ρ)) (t : Table κ ρ), (rows.map Prod.fst).Nodup →
      (rows.foldl (fun t e => t.put e.1 e.2) t).get? k =
        ((rows.find? fun e => e.1 = k).map Prod.snd).or (t.get? k) := by
    intro rows
    induction rows with
    | nil => exact fun _ _ => rfl
    | cons e rows ih =>
      intro t hnodup
      rw [map_cons, nodup_cons] at hnodup
      rw [foldl_cons, ih _ hnodup.2, get?_put]
      by_cases he : e.1 = k
      · have hnone : rows.find? (fun e => decide (e.1 = k)) = none := by
          refine find?_eq_none.2 fun e' he' heq => hnodup.1 ?_
          rw [he, ← of_decide_eq_true heq]
          exact mem_map_of_mem he'
        rw [hnone, find?_cons_of_pos (by simpa using he), if_pos he.symm]
        rfl
      · rw [find?_cons_of_neg (by simpa using he), if_neg (Ne.symm he)]
  exact hfold w.rows t w.nodup

theorem rows_put_of_none (h : t.get? k = none) (r : ρ) :
    (t.put k r).rows = t.rows ++ [(k, r)] := by
  unfold put
  cases hi : t.insert? k r with
  | none => exact absurd ((insert?_eq_none_iff t k r).1 hi) ((get?_eq_none_iff t k).1 h)
  | some t' => exact ((insert?_eq_some_iff t t' k r).1 hi).2

theorem length_put_of_none (h : t.get? k = none) (r : ρ) :
    (t.put k r).rows.length = t.rows.length + 1 := by
  rw [rows_put_of_none h, length_append, length_singleton]

theorem length_modify (t : Table κ ρ) (k : κ) (f : ρ → ρ) :
    (t.modify k f).rows.length = t.rows.length :=
  length_map _

theorem length_put_of_some (h : t.get? k = some r') (r : ρ) :
    (t.put k r).rows.length = t.rows.length := by
  unfold put
  rw [(insert?_eq_none_iff t k r).2 ((mem_keys_iff t k).2 ⟨r', h⟩)]
  exact length_modify t k _

theorem keys_erase (t : Table κ ρ) (k : κ) : (t.erase k).keys = t.keys.erase k := by
  have hnodup : t.keys.Nodup := t.nodup
  rw [hnodup.erase_eq_filter, keys, keys, filter_map]
  congr 1
  exact filter_congr fun e _ => by by_cases he : e.1 = k <;> simp [he]

theorem length_erase (h : t.get? k = some r) :
    (t.erase k).rows.length + 1 = t.rows.length := by
  have hmem : k ∈ t.keys := (mem_keys_iff t k).2 ⟨r, h⟩
  have hkeys := congrArg length (keys_erase t k)
  rw [length_erase_of_mem hmem, keys, length_map, keys, length_map] at hkeys
  have hpos := length_pos_of_mem hmem
  rw [keys, length_map] at hpos
  omega

theorem get?_foldl_erase {α : Type} (f : α → κ) (l : List α) (t : Table κ ρ) (k : κ) :
    (l.foldl (fun t x => t.erase (f x)) t).get? k = if k ∈ l.map f then none else t.get? k := by
  induction l generalizing t with
  | nil => simp
  | cons x l ih =>
    rw [foldl_cons, ih, get?_erase]
    by_cases hx : k = f x
    · simp [hx]
    · simp [hx]

theorem get?_foldl_put_of_notMem {α : Type} (f : α → κ) (g : α → ρ) (l : List α) (t : Table κ ρ)
    (k : κ) (hk : k ∉ l.map f) : (l.foldl (fun t x => t.put (f x) (g x)) t).get? k = t.get? k := by
  induction l generalizing t with
  | nil => rfl
  | cons x l ih =>
    rw [map_cons, mem_cons, not_or] at hk
    rw [foldl_cons, ih _ hk.2, get?_put, if_neg hk.1]

theorem get?_foldl_put_of_mem {α : Type} (f : α → κ) (g : α → ρ) (l : List α) (t : Table κ ρ)
    (hl : (l.map f).Nodup) {x : α} (hx : x ∈ l) :
    (l.foldl (fun t x => t.put (f x) (g x)) t).get? (f x) = some (g x) := by
  induction l generalizing t with
  | nil => cases hx
  | cons y l ih =>
    rw [map_cons, nodup_cons] at hl
    rw [foldl_cons]
    rcases mem_cons.1 hx with rfl | hx
    · rw [get?_foldl_put_of_notMem f g l _ _ hl.1, get?_put, if_pos rfl]
    · exact ih _ hl.2 hx

/-- The key an auto-increment column hands out next. -/
def nextKey (t : Table ℤ ρ) : ℤ := t.keys.foldr max 0 + 1

theorem get?_nextKey (t : Table ℤ ρ) : t.get? t.nextKey = none := by
  rw [get?_eq_none_iff]
  have hle : ∀ (l : List ℤ), ∀ k ∈ l, k ≤ l.foldr max 0 := by
    intro l
    induction l with
    | nil => simp
    | cons a l ih =>
      intro k hk
      rw [foldr_cons]
      rcases mem_cons.1 hk with rfl | hk
      · exact le_max_left _ _
      · exact (ih k hk).trans (le_max_right _ _)
  intro hk
  have := hle t.keys _ hk
  unfold nextKey at this
  omega

/-! ## Two tables with the same keys -/

/-- The tables have the same keys, and `R` relates the two rows of each. -/
def Rel (R : κ → ρ → ρ → Prop) (t t' : Table κ ρ) : Prop :=
  ∀ k, Option.Rel (R k) (t.get? k) (t'.get? k)

variable {R R' R'' : κ → ρ → ρ → Prop} {t'' : Table κ ρ}

theorem Rel.refl (hR : ∀ k r, t.get? k = some r → R k r r) : Rel R t t := by
  intro k
  cases h : t.get? k with
  | none => exact .none
  | some r => exact .some (hR k r h)

theorem Rel.get? (h : Rel R t t') (hr : t.get? k = some r) :
    ∃ r', t'.get? k = some r' ∧ R k r r' := by
  have hk := h k
  rw [hr] at hk
  cases hk' : t'.get? k with
  | none => rw [hk'] at hk; cases hk
  | some r' =>
    rw [hk'] at hk
    cases hk with
    | some h => exact ⟨r', rfl, h⟩

theorem Rel.get?_after (h : Rel R t t') (hr : t'.get? k = some r') :
    ∃ r, t.get? k = some r ∧ R k r r' := by
  have hk := h k
  rw [hr] at hk
  cases hk' : t.get? k with
  | none => rw [hk'] at hk; cases hk
  | some r =>
    rw [hk'] at hk
    cases hk with
    | some h => exact ⟨r, rfl, h⟩

theorem Rel.get?_eq_none (h : Rel R t t') (hk : t.get? k = none) : t'.get? k = none := by
  cases hk' : t'.get? k with
  | none => rfl
  | some r' =>
    obtain ⟨r, hr, -⟩ := h.get?_after hk'
    rw [hk] at hr
    cases hr

theorem Rel.trans (h : Rel R t t') (h' : Rel R' t' t'')
    (hR : ∀ k r r' r'', R k r r' → R' k r' r'' → R'' k r r'') : Rel R'' t t'' := by
  intro k
  cases hk : t.get? k with
  | none =>
    rw [h'.get?_eq_none (h.get?_eq_none hk)]
    exact .none
  | some r =>
    obtain ⟨r', hr', hrr'⟩ := h.get? hk
    obtain ⟨r'', hr'', hrr''⟩ := h'.get? hr'
    rw [hr'']
    exact .some (hR k r r' r'' hrr' hrr'')

theorem Rel.mono (h : Rel R t t') (hR : ∀ k r r', R k r r' → R' k r r') : Rel R' t t' := by
  intro k
  cases hk : t.get? k with
  | none =>
    rw [h.get?_eq_none hk]
    exact .none
  | some r =>
    obtain ⟨r', hr', hrr'⟩ := h.get? hk
    rw [hr']
    exact .some (hR k r r' hrr')

theorem rel_modify {f : ρ → ρ} (hk : ∀ r, t.get? k = some r → R k r (f r))
    (hne : ∀ k' r, k' ≠ k → R k' r r) : Rel R t (t.modify k f) := by
  intro k'
  rw [get?_modify]
  split_ifs with h
  · subst h
    cases hr : t.get? k' with
    | none => exact .none
    | some r => exact .some (hk r hr)
  · cases t.get? k' with
    | none => exact .none
    | some r => exact .some (hne k' r h)

/-! ## Sums over the rows -/

theorem sum_congr {g g' : κ → ρ → ℤ}
    (h : ∀ k r, t.get? k = some r → g k r = g' k r) : t.sum g = t.sum g' := by
  unfold sum
  congr 1
  exact map_congr_left fun e he => h e.1 e.2 ((get?_eq_some_iff _ _ _).2 he)

theorem sum_eq_add_of_get? (h : t.get? k = some r)
    (g g' : κ → ρ → ℤ) (hg : ∀ k' r', k' ≠ k → g k' r' = g' k' r') :
    t.sum g = t.sum g' + (g k r - g' k r) := by
  rw [get?_eq_some_iff] at h
  obtain ⟨rows, nodup⟩ := t
  simp only [sum] at h ⊢
  induction rows with
  | nil => simp at h
  | cons e rows ih =>
    rw [map_cons, nodup_cons] at nodup
    rw [map_cons, map_cons, sum_cons, sum_cons]
    rcases mem_cons.1 h with rfl | h
    · -- the changed row is the head, and its key does not occur in the tail
      have htail : rows.map (fun e => g e.1 e.2) = rows.map fun e => g' e.1 e.2 := by
        refine map_congr_left fun e he => hg _ _ fun hk => ?_
        exact nodup.1 (mem_map.2 ⟨e, he, hk⟩)
      rw [htail]
      ring
    · have hne : e.1 ≠ k := fun hk => nodup.1 (mem_map.2 ⟨_, h, hk.symm⟩)
      rw [ih nodup.2 h, hg e.1 e.2 hne]
      ring

theorem sum_eq_add_of_forall (h : t.get? k = some r)
    (g g' : κ → ρ → ℤ) (hg : ∀ k' r', t.get? k' = some r' → k' ≠ k → g k' r' = g' k' r') :
    t.sum g = t.sum g' + (g k r - g' k r) := by
  have hkey : t.sum g = t.sum fun k' r' => if k' = k then g k' r' else g' k' r' := by
    refine sum_congr fun k' r' hr' => ?_
    split_ifs with hk
    · rfl
    · exact hg k' r' hr' hk
  rw [hkey, sum_eq_add_of_get? h _ g' fun k' r' hk => if_neg hk, if_pos rfl]

theorem sum_modify (h : t.get? k = some r) (f : ρ → ρ)
    (g : κ → ρ → ℤ) : (t.modify k f).sum g = t.sum g + (g k (f r) - g k r) := by
  rw [modify, sum_updateWhere]
  rw [sum_eq_add_of_get? h _ g fun k' r' hk => by simp [hk]]
  simp

theorem sum_of_insert? (h : t.insert? k r = some t')
    (g : κ → ρ → ℤ) : t'.sum g = t.sum g + g k r := by
  unfold sum
  rw [((insert?_eq_some_iff t t' k r).1 h).2]
  simp

theorem sum_put_of_none (h : t.get? k = none) (r : ρ) (g : κ → ρ → ℤ) :
    (t.put k r).sum g = t.sum g + g k r := by
  unfold put
  cases hi : t.insert? k r with
  | none => exact absurd ((insert?_eq_none_iff t k r).1 hi) ((get?_eq_none_iff t k).1 h)
  | some t' => exact sum_of_insert? hi g

theorem sum_nonneg {g : κ → ρ → ℤ}
    (h : ∀ k r, t.get? k = some r → 0 ≤ g k r) : 0 ≤ t.sum g := by
  refine List.sum_nonneg fun x hx => ?_
  obtain ⟨e, he, rfl⟩ := mem_map.1 hx
  exact h e.1 e.2 ((get?_eq_some_iff _ _ _).2 he)

theorem le_sum {g : κ → ρ → ℤ} (hr : t.get? k = some r)
    (h : ∀ k r, t.get? k = some r → 0 ≤ g k r) : g k r ≤ t.sum g := by
  have hsplit := sum_eq_add_of_get? hr g (fun k' r' => if k' = k then 0 else g k' r')
    fun k' r' hk => by simp [hk]
  have hrest : 0 ≤ t.sum fun k' r' => if k' = k then 0 else g k' r' := by
    refine sum_nonneg fun k' r' hr' => ?_
    split_ifs
    · exact le_rfl
    · exact h k' r' hr'
  simp only [if_true, sub_zero] at hsplit
  linarith

/-! ## Sums by lookups -/

/-- What the row of a key weighs; a key without a row weighs nothing. -/
def weight (t : Table κ ρ) (g : κ → ρ → ℤ) (k : κ) : ℤ := (t.get? k).elim 0 (g k)

theorem weight_of_some (h : t.get? k = some r) (g : κ → ρ → ℤ) :
    t.weight g k = g k r := by
  rw [weight, h, Option.elim_some]

theorem weight_of_none (h : t.get? k = none) (g : κ → ρ → ℤ) :
    t.weight g k = 0 := by
  rw [weight, h, Option.elim_none]

theorem sum_eq_sum_weight {s : Finset κ} (hs : ∀ k ∈ t.keys, k ∈ s)
    (g : κ → ρ → ℤ) : t.sum g = ∑ k ∈ s, t.weight g k := by
  have hkeys : t.sum g = (t.keys.map (t.weight g)).sum := by
    unfold sum keys
    rw [map_map]
    congr 1
    refine map_congr_left fun e he => ?_
    rw [Function.comp_apply, weight_of_some ((get?_eq_some_iff t e.1 e.2).2 he)]
  have hnodup : t.keys.Nodup := t.nodup
  rw [hkeys, ← sum_toFinset _ hnodup]
  refine Finset.sum_subset (fun k hk => hs k (mem_toFinset.1 hk)) fun k _ hk => ?_
  rw [mem_toFinset] at hk
  exact weight_of_none ((get?_eq_none_iff t k).2 hk) g

theorem sum_eq_add_weight {g : κ → ρ → ℤ} (k : κ)
    (h : ∀ k', k' ≠ k → t'.weight g k' = t.weight g k') :
    t'.sum g = t.sum g + (t'.weight g k - t.weight g k) := by
  have hmem : k ∈ insert k (t.keys ++ t'.keys).toFinset := Finset.mem_insert_self k _
  rw [sum_eq_sum_weight (s := insert k (t.keys ++ t'.keys).toFinset) (by simp +contextual) g,
    sum_eq_sum_weight (t := t) (s := insert k (t.keys ++ t'.keys).toFinset)
      (by simp +contextual) g, ← Finset.add_sum_erase _ _ hmem, ← Finset.add_sum_erase _ _ hmem]
  rw [Finset.sum_congr rfl fun k' hk' => h k' (Finset.ne_of_mem_erase hk')]
  ring

theorem sum_erase (h : t.get? k = some r) (g : κ → ρ → ℤ) :
    (t.erase k).sum g = t.sum g - g k r := by
  have hother : ∀ k', k' ≠ k → (t.erase k).weight g k' = t.weight g k' := by
    intro k' hk'
    unfold weight
    rw [get?_erase, if_neg hk']
  have hgone : (t.erase k).get? k = none := by rw [get?_erase, if_pos rfl]
  rw [sum_eq_add_weight k hother, weight_of_none hgone, weight_of_some h]
  ring

theorem sum_put (t : Table κ ρ) (k : κ) (r : ρ) (g : κ → ρ → ℤ) :
    (t.put k r).sum g = t.sum g + (g k r - t.weight g k) := by
  have hother : ∀ k', k' ≠ k → (t.put k r).weight g k' = t.weight g k' := by
    intro k' hk'
    unfold weight
    rw [get?_put, if_neg hk']
  have hnew : (t.put k r).get? k = some r := by rw [get?_put, if_pos rfl]
  rw [sum_eq_add_weight k hother, weight_of_some hnew]

theorem sum_erase_eq (t : Table κ ρ) (k : κ) (g : κ → ρ → ℤ) :
    (t.erase k).sum g = t.sum g - t.weight g k := by
  cases h : t.get? k with
  | none => rw [erase_eq_self h, weight_of_none h, sub_zero]
  | some r => rw [sum_erase h, weight_of_some h]

theorem sum_eq_of_weight {g : κ → ρ → ℤ}
    (h : ∀ k, t'.weight g k = t.weight g k) : t'.sum g = t.sum g := by
  rw [sum_eq_sum_weight (s := (t.keys ++ t'.keys).toFinset) (by simp +contextual) g,
    sum_eq_sum_weight (t := t) (s := (t.keys ++ t'.keys).toFinset) (by simp +contextual) g]
  exact Finset.sum_congr rfl fun k _ => h k

end Table
