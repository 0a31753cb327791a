import Mathlib.Data.Finset.Max
import Mathlib.Data.List.Sort
import Mathlib.Tactic.Linarith

/-!
# Descending through levels

The value of an item `a` of a finite set `s` is `f a`, and the levels of `s` are the different values,
from the highest down.  Items are tried one after the other: attempt `k` takes one that has not been
tried, at level `k` of *what is left* (`Picks`); when nothing is left it starts over.  `descends_iff`
says when the attempts go down the levels of `s` all the same.
-/

namespace Levels

open List Option Finset

variable {α β : Type*} [LinearOrder β] (f : α → β)

/-! ## Levels -/

/-- How many values are higher. -/
def rank (s : Finset α) (b : β) : ℕ := ((s.image f).filter fun c => b < c).card

/-- The value of level `k`, or of the lowest level when there are fewer. -/
def IsLevel (s : Finset α) (k : ℕ) (b : β) : Prop :=
  b ∈ s.image f ∧ rank f s b = min k ((s.image f).card - 1)

instance (s : Finset α) (k : ℕ) (b : β) : Decidable (IsLevel f s k b) :=
  inferInstanceAs (Decidable (_ ∧ _))

/-- How many items have the value. -/
def width (s : Finset α) (b : β) : ℕ := (s.filter fun a => f a = b).card

variable {f} {s : Finset α} {b c : β}

theorem rank_lt_rank (hc : c ∈ s.image f) (h : b < c) : rank f s c < rank f s b := by
  refine card_lt_card ⟨fun d hd => ?_, fun hsub => ?_⟩
  · rw [Finset.mem_filter] at hd ⊢
    exact ⟨hd.1, h.trans hd.2⟩
  · have hself := (mem_filter.1 (hsub (mem_filter.2 ⟨hc, h⟩))).2
    exact absurd hself (lt_irrefl c)

theorem rank_lt_card (hb : b ∈ s.image f) : rank f s b < (s.image f).card := by
  refine card_lt_card ⟨filter_subset _ _, fun hsub => ?_⟩
  exact absurd (mem_filter.1 (hsub hb)).2 (lt_irrefl b)

theorem eq_of_rank_eq (hb : b ∈ s.image f) (hc : c ∈ s.image f) (h : rank f s b = rank f s c) :
    b = c := by
  obtain hlt | heq | hlt := lt_trichotomy b c
  · have := rank_lt_rank hc hlt
    omega
  · exact heq
  · have := rank_lt_rank hb hlt
    omega

/-- The lowest value is the one below all the others. -/
theorem le_of_rank_add_one_eq (hb : b ∈ s.image f) (h : rank f s b + 1 = (s.image f).card)
    (hc : c ∈ s.image f) : b ≤ c := by
  by_contra hlt
  have hmore := rank_lt_rank hb (not_le.1 hlt)
  have hless := rank_lt_card hc
  omega

theorem exists_lowest (hs : s.Nonempty) :
    ∃ b ∈ s.image f, rank f s b + 1 = (s.image f).card := by
  have himage : (s.image f).Nonempty := hs.image f
  refine ⟨(s.image f).min' himage, min'_mem _ _, ?_⟩
  have herase : (s.image f).filter (fun c => (s.image f).min' himage < c) =
      (s.image f).erase ((s.image f).min' himage) := by
    ext c
    rw [Finset.mem_filter, Finset.mem_erase]
    constructor
    · exact fun hc => ⟨ne_of_gt hc.2, hc.1⟩
    · exact fun hc => ⟨hc.2, lt_of_le_of_ne (min'_le _ _ hc.2) (Ne.symm hc.1)⟩
  rw [rank, herase]
  exact card_erase_add_one (min'_mem _ _)

theorem width_pos (hb : b ∈ s.image f) : 0 < width f s b := by
  obtain ⟨a, ha, rfl⟩ := mem_image.1 hb
  exact card_pos.2 ⟨a, mem_filter.2 ⟨ha, rfl⟩⟩

variable {a : α} {k : ℕ} {l : List β}

/-- A strictly decreasing list of the values has the levels in order. -/
theorem isLevel_of_getElem? (hl : l.Pairwise (· > ·)) (hs : l.toFinset = s.image f)
    (h : l[min k (l.length - 1)]? = some b) : IsLevel f s k b := by
  have hnodup : l.Nodup := hl.imp fun hlt => ne_of_gt hlt
  have hcard : (s.image f).card = l.length := by rw [← hs, toFinset_card_of_nodup hnodup]
  refine ⟨hs ▸ List.mem_toFinset.2 (mem_of_getElem? h), ?_⟩
  rw [rank, hcard, ← hs]
  generalize min k (l.length - 1) = i at h
  obtain ⟨hi, rfl⟩ := List.getElem?_eq_some_iff.1 h
  have htake : (l.toFinset.filter fun c => l[i] < c) = (l.take i).toFinset := by
    ext c
    rw [Finset.mem_filter, List.mem_toFinset, List.mem_toFinset]
    constructor
    · rintro ⟨hc, hlt⟩
      obtain ⟨j, hj, rfl⟩ := mem_iff_getElem.1 hc
      refine mem_take_iff_getElem.2 ⟨j, ?_, rfl⟩
      by_contra hle
      have hij : i ≤ j := by omega
      obtain heq | hlt' := Nat.eq_or_lt_of_le hij
      · subst heq
        exact absurd hlt (lt_irrefl _)
      · exact absurd hlt (not_lt.2 (pairwise_iff_getElem.1 hl i j hi hj hlt').le)
    · intro hc
      obtain ⟨j, hj, rfl⟩ := mem_take_iff_getElem.1 hc
      have hj' : j < l.length := by omega
      exact ⟨getElem_mem hj', pairwise_iff_getElem.1 hl j i hj' hi (by omega)⟩
  rw [htake, toFinset_card_of_nodup (hnodup.sublist (take_sublist _ _)), length_take]
  omega

theorem isLevel_rank (ha : a ∈ s) : IsLevel f s (rank f s (f a)) (f a) := by
  have hmem : f a ∈ s.image f := mem_image.2 ⟨a, ha, rfl⟩
  have hlt := rank_lt_card hmem
  exact ⟨hmem, by omega⟩

theorem eq_iff_isLevel (hl : l.Pairwise (· > ·)) (hs : l.toFinset = s.image f)
    (h : l[min k (l.length - 1)]? = some b) : f a = b ↔ IsLevel f s k (f a) := by
  have hb := isLevel_of_getElem? hl hs h
  constructor
  · rintro rfl
    exact hb
  · exact fun ha => eq_of_rank_eq ha.1 hb.1 (ha.2.trans hb.2.symm)

/-- The different values of a list, the highest first. -/
def descending (l : List β) : List β := l.dedup.insertionSort fun a b => b ≤ a

theorem mem_descending {b : β} : b ∈ descending l ↔ b ∈ l := by
  rw [descending, mem_insertionSort, mem_dedup]

theorem pairwise_descending (l : List β) : (descending l).Pairwise (· > ·) := by
  have hsorted := pairwise_insertionSort (fun a b : β => b ≤ a) l.dedup
  have hnodup : (descending l).Nodup := (perm_insertionSort _ _).nodup_iff.2 (nodup_dedup l)
  exact hsorted.imp₂ (fun a b hle hne => lt_of_le_of_ne hle (Ne.symm hne)) hnodup

theorem exists_getElem?_descending (hl : l ≠ []) (k : ℕ) :
    ∃ b ∈ l, (descending l)[min k ((descending l).length - 1)]? = some b := by
  obtain ⟨b₀, hb₀⟩ := exists_mem_of_ne_nil l hl
  have hpos : 0 < (descending l).length := length_pos_of_mem (mem_descending.2 hb₀)
  have hlt : min k ((descending l).length - 1) < (descending l).length := by omega
  exact ⟨_, mem_descending.1 (getElem_mem hlt), getElem?_eq_getElem hlt⟩

theorem filter_getD_ne_nil {γ : Type*} {l : List γ} (hl : l ≠ []) (value : γ → β) (d : β) (k : ℕ) :
    (l.filter fun x => value x = (descending (l.map value)).getD
      (min k ((descending (l.map value)).length - 1)) d) ≠ [] := by
  have hne : l.map value ≠ [] := fun h => hl (map_eq_nil_iff.1 h)
  obtain ⟨target, hmem, htarget⟩ := exists_getElem?_descending hne k
  obtain ⟨x, hx, rfl⟩ := mem_map.1 hmem
  rw [getD_eq_getElem?_getD, htarget, getD_some]
  exact ne_nil_of_mem (mem_filter.2 ⟨hx, decide_eq_true rfl⟩)

theorem mem_filter_getD_iff {ρ : Type*} [DecidableEq α] {l : List (α × ρ)} {value : α × ρ → β}
    (hvalue : ∀ x ∈ l, f x.1 = value x) (d : β) (k : ℕ) (a : α) :
    a ∈ (l.filter fun x => value x = (descending (l.map value)).getD
        (min k ((descending (l.map value)).length - 1)) d).map Prod.fst ↔
      a ∈ (l.map Prod.fst).toFinset ∧ IsLevel f (l.map Prod.fst).toFinset k (f a) := by
  have himage : (descending (l.map value)).toFinset = (l.map Prod.fst).toFinset.image f := by
    ext b
    simp only [List.mem_toFinset, mem_descending, List.mem_map, Finset.mem_image]
    constructor
    · rintro ⟨x, hx, rfl⟩
      exact ⟨x.1, ⟨x, hx, rfl⟩, hvalue x hx⟩
    · rintro ⟨_, ⟨x, hx, rfl⟩, rfl⟩
      exact ⟨x, hx, (hvalue x hx).symm⟩
  by_cases hl : l = []
  · simp [hl]
  · have hne : l.map value ≠ [] := fun h => hl (List.map_eq_nil_iff.1 h)
    obtain ⟨target, -, htarget⟩ := exists_getElem?_descending hne k
    rw [List.getD_eq_getElem?_getD, htarget, Option.getD_some]
    rw [← eq_iff_isLevel (pairwise_descending _) himage htarget, List.mem_map, List.mem_toFinset,
      List.mem_map]
    constructor
    · rintro ⟨x, hx, rfl⟩
      obtain ⟨hmem, heq⟩ := List.mem_filter.1 hx
      exact ⟨⟨x, hmem, rfl⟩, (hvalue x hmem).trans (of_decide_eq_true heq)⟩
    · rintro ⟨⟨x, hx, rfl⟩, heq⟩
      exact ⟨x, List.mem_filter.2 ⟨hx, decide_eq_true ((hvalue x hx).symm.trans heq)⟩, rfl⟩

/-! ## Attempts -/

variable (f)

/-- Attempt `k` is at level `k` of all items. -/
def Descends (s : Finset α) (t : List α) : Prop :=
  ∀ k a, t[k]? = some a → IsLevel f s k (f a)

/-- `n` attempts leave every level that they pass with an item, except for the two lowest ones, and do
not outlast the lowest one, unless all items are tried before. -/
structure Deep (s : Finset α) (n : ℕ) : Prop where
  inner : ∀ b ∈ s.image f, rank f s b + 1 < n → rank f s b + 2 < (s.image f).card → 2 ≤ width f s b
  lowest : ∀ b ∈ s.image f, rank f s b + 1 = (s.image f).card →
    n ≤ width f s b + rank f s b ∨ s.card ≤ width f s b + rank f s b

variable {f} {t : List α}

theorem Descends.rank_eq (h : Descends f s t) (ha : t[k]? = some a) :
    rank f s (f a) = min k ((s.image f).card - 1) :=
  (h k a ha).2

/-- Attempts that descend never go up, and jump over no level. -/
theorem Descends.next (hd : Descends f s t) {a a' : α} (ha : t[k]? = some a)
    (ha' : t[k + 1]? = some a') : f a' ≤ f a ∧ ∀ b ∈ s.image f, ¬ (f a' < b ∧ b < f a) := by
  have hrank := hd.rank_eq ha
  have hrank' := hd.rank_eq ha'
  refine ⟨?_, fun b hb hbetween => ?_⟩
  · by_contra hlt
    have := rank_lt_rank (hd _ a' ha').1 (not_le.1 hlt)
    omega
  · have hbelow := rank_lt_rank hb hbetween.1
    have habove := rank_lt_rank (hd _ a ha).1 hbetween.2
    omega

variable [DecidableEq α]

/-- What is left after the attempts `t`; when nothing is left, everything. -/
def remaining (s : Finset α) (t : List α) : Finset α :=
  if s \ t.toFinset = ∅ then s else s \ t.toFinset

variable (f) in
/-- Attempt `k` takes what is left, at level `k` of it. -/
def Picks (s : Finset α) (t : List α) : Prop :=
  ∀ k a, t[k]? = some a → a ∈ remaining s (t.take k) ∧ IsLevel f (remaining s (t.take k)) k (f a)

theorem remaining_subset (s : Finset α) (t : List α) : remaining s t ⊆ s := by
  unfold remaining
  split_ifs
  · exact subset_rfl
  · exact sdiff_subset

theorem remaining_ne_empty (hs : s ≠ ∅) (t : List α) : remaining s t ≠ ∅ := by
  unfold remaining
  split_ifs with h
  · exact hs
  · exact h

theorem remaining_of_mem (ha : a ∈ s) (hnot : a ∉ t) : remaining s t = s \ t.toFinset := by
  unfold remaining
  rw [if_neg]
  exact ne_empty_of_mem (mem_sdiff.2 ⟨ha, by simpa using hnot⟩)

/-- What is left depends on which items were tried, and not on how. -/
theorem remaining_congr {t' : List α} (h : ∀ a, a ∈ t ↔ a ∈ t') : remaining s t = remaining s t' := by
  have hset : t.toFinset = t'.toFinset := by
    ext a
    rw [List.mem_toFinset, List.mem_toFinset, h]
  rw [remaining, remaining, hset]

theorem picks_nil (s : Finset α) : Picks f s [] := by
  intro k a ha
  simp at ha

theorem Picks.concat (h : Picks f s t) (ha : a ∈ remaining s t)
    (hlevel : IsLevel f (remaining s t) t.length (f a)) : Picks f s (t ++ [a]) := by
  intro k b hb
  obtain hk | rfl | hk := lt_trichotomy k t.length
  · rw [getElem?_append_left hk] at hb
    rw [take_append_of_le_length hk.le]
    exact h k b hb
  · rw [getElem?_concat_length, some.injEq] at hb
    rw [← hb, take_left' rfl]
    exact ⟨ha, hlevel⟩
  · rw [getElem?_eq_none_iff.2 (by simp; omega)] at hb
    cases hb

theorem Picks.mem (h : Picks f s t) (ha : a ∈ t) : a ∈ s := by
  obtain ⟨k, hk⟩ := mem_iff_getElem?.1 ha
  exact remaining_subset _ _ (h k a hk).1

theorem Picks.nodup_take (h : Picks f s t) {n : ℕ} (hn : n ≤ s.card) : (t.take n).Nodup := by
  induction n with
  | zero => simp
  | succ n ih =>
    cases hk : t[n]? with
    | none =>
      rw [take_of_length_le (by rw [getElem?_eq_none_iff] at hk; omega)]
      have := ih (by omega)
      rwa [take_of_length_le (getElem?_eq_none_iff.1 hk)] at this
    | some a =>
      obtain ⟨hn', rfl⟩ := List.getElem?_eq_some_iff.1 hk
      rw [take_succ_eq_append_getElem hn', nodup_append]
      refine ⟨ih (by omega), nodup_singleton _, ?_⟩
      -- fewer attempts than items, so that something is left and the attempt takes it
      have hleft : s \ (t.take n).toFinset ≠ ∅ := by
        intro hempty
        have hle := card_le_card (sdiff_eq_empty_iff_subset.1 hempty)
        have hlen := (t.take n).toFinset_card_le
        rw [length_take] at hlen
        omega
      have hmem := (h n _ hk).1
      rw [remaining, if_neg hleft, mem_sdiff, List.mem_toFinset] at hmem
      rintro a ha b hb rfl
      rw [List.mem_singleton] at hb
      exact hmem.2 (hb ▸ ha)

/-! ## When the attempts descend -/

/-- While every level that has been passed keeps an item, the levels of what is left are those of
all items. -/
theorem image_remaining (hprev : ∀ i a, i < k → t[i]? = some a → IsLevel f s i (f a))
    (hk : k + 1 < (s.image f).card) (hwide : ∀ b ∈ s.image f, rank f s b < k → 2 ≤ width f s b) :
    (remaining s (t.take k)).image f = s.image f := by
  have hleft : ∀ b ∈ s.image f, ∃ a ∈ s, f a = b ∧ a ∉ t.take k := by
    intro b hb
    by_contra hnone
    simp only [not_exists, not_and, not_not] at hnone
    -- every item of the level has been tried, at the attempt whose number is the rank of the level
    have hindex : ∀ a ∈ s, f a = b → t[rank f s b]? = some a ∧ rank f s b < k := by
      intro a ha hab
      obtain ⟨i, hi, hget⟩ := mem_take_iff_getElem.1 (hnone a ha hab)
      have hget' : t[i]? = some a := List.getElem?_eq_some_iff.2 ⟨by omega, hget⟩
      have hrank := (hprev i a (by omega) hget').2
      rw [hab] at hrank
      have hri : rank f s b = i := by omega
      rw [hri]
      exact ⟨hget', by omega⟩
    obtain ⟨a, ha, hab⟩ := mem_image.1 hb
    have htwo := hwide b hb (hindex a ha hab).2
    obtain ⟨a₁, ha₁, a₂, ha₂, hne⟩ := one_lt_card.1 htwo
    rw [Finset.mem_filter] at ha₁ ha₂
    have heq := (hindex a₁ ha₁.1 ha₁.2).1.symm.trans (hindex a₂ ha₂.1 ha₂.2).1
    exact hne (some.inj heq)
  refine subset_antisymm (image_subset_image (remaining_subset _ _)) fun b hb => ?_
  obtain ⟨a, ha, hab, hnot⟩ := hleft b hb
  rw [remaining_of_mem ha hnot]
  exact mem_image.2 ⟨a, mem_sdiff.2 ⟨ha, by simpa using hnot⟩, hab⟩

/-- While the lowest level keeps an item, an attempt past the last level is there. -/
theorem isLevel_of_lowest (hprev : ∀ i a, i < k → t[i]? = some a → IsLevel f s i (f a))
    (hk : (s.image f).card ≤ k + 1) (hb : b ∈ s.image f)
    (hlow : rank f s b + 1 = (s.image f).card) (hwide : k < width f s b + rank f s b)
    (ha : IsLevel f (remaining s (t.take k)) k (f a)) : IsLevel f s k (f a) := by
  obtain ⟨d, hd, hdb, hnot⟩ : ∃ d ∈ s, f d = b ∧ d ∉ t.take k := by
    by_contra hnone
    simp only [not_exists, not_and, not_not] at hnone
    have hsub : s.filter (fun a => f a = b) ⊆ ((t.take k).drop (rank f s b)).toFinset := by
      intro d hd
      obtain ⟨hds, hdb⟩ := mem_filter.1 hd
      obtain ⟨i, hi, hget⟩ := mem_take_iff_getElem.1 (hnone d hds hdb)
      have hget' : t[i]? = some d := List.getElem?_eq_some_iff.2 ⟨by omega, hget⟩
      have hrank := (hprev i d (by omega) hget').2
      rw [hdb] at hrank
      rw [List.mem_toFinset, mem_drop_iff_getElem]
      refine ⟨i - rank f s b, by rw [length_take]; omega, ?_⟩
      have hadd : rank f s b + (i - rank f s b) = i := by omega
      simp only [hadd, getElem_take]
      exact hget
    have hle := (card_le_card hsub).trans (toFinset_card_le _)
    rw [length_drop, length_take] at hle
    unfold width at hwide
    omega
  rw [remaining_of_mem hd hnot] at ha
  -- what is left has the lowest level, and no more levels than there are
  have hbr : b ∈ (s \ (t.take k).toFinset).image f :=
    mem_image.2 ⟨d, mem_sdiff.2 ⟨hd, by simpa using hnot⟩, hdb⟩
  have hsub : (s \ (t.take k).toFinset).image f ⊆ s.image f := image_subset_image sdiff_subset
  have hcard := card_le_card hsub
  have hlast : rank f (s \ (t.take k).toFinset) (f a) + 1 =
      ((s \ (t.take k).toFinset).image f).card := by
    have hpos := card_pos.2 ⟨_, hbr⟩
    have := ha.2
    omega
  have heq : f a = b := le_antisymm (le_of_rank_add_one_eq ha.1 hlast hbr)
    (le_of_rank_add_one_eq hb hlow (hsub ha.1))
  refine ⟨hsub ha.1, ?_⟩
  rw [heq]
  omega

theorem Deep.descends (hd : Deep f s t.length) (h : Picks f s t) : Descends f s t := by
  intro k
  induction k using Nat.strong_induction_on with
  | _ k ih =>
    intro a ha
    have hprev : ∀ i a, i < k → t[i]? = some a → IsLevel f s i (f a) := fun i a hi => ih i hi a
    have hk : k < t.length := (List.getElem?_eq_some_iff.1 ha).1
    obtain ⟨hmem, hlevel⟩ := h k a ha
    obtain ⟨b, hb, hlow⟩ := exists_lowest (f := f) ⟨a, remaining_subset _ _ hmem⟩
    by_cases hinner : k + 1 < (s.image f).card
    · have himage := image_remaining hprev hinner fun c hc hck =>
        hd.inner c hc (by omega) (by omega)
      rwa [IsLevel, rank, himage] at hlevel
    by_cases hwide : k < width f s b + rank f s b
    · exact isLevel_of_lowest hprev (by omega) hb hlow hwide hlevel
    · -- every item has been tried
      have hcard : s.card ≤ k := by
        obtain hle | hle := hd.lowest b hb hlow <;> omega
      have hall : s ⊆ (t.take k).toFinset := by
        have hfirst : (t.take s.card).toFinset = s := by
          refine eq_of_subset_of_card_le (fun d hd => ?_) ?_
          · exact h.mem (mem_of_mem_take (List.mem_toFinset.1 hd))
          · rw [toFinset_card_of_nodup (h.nodup_take le_rfl), length_take]
            omega
        intro d hd
        rw [← hfirst, List.mem_toFinset] at hd
        exact List.mem_toFinset.2 (take_subset_take_left t hcard hd)
      rwa [remaining, if_pos (sdiff_eq_empty_iff_subset.2 hall)] at hlevel

/-- A level with a single item is missing when the attempt after it is made. -/
theorem Descends.two_le_width (hd : Descends f s t) (h : Picks f s t) (hb : b ∈ s.image f)
    (hn : rank f s b + 1 < t.length) (hinner : rank f s b + 2 < (s.image f).card) :
    2 ≤ width f s b := by
  by_contra hwide
  have hone : width f s b = 1 := by
    have := width_pos hb
    omega
  obtain ⟨a₀, hfilter⟩ := card_eq_one.1 hone
  have hk₀ : t[rank f s b]? = some t[rank f s b] := getElem?_eq_getElem (by omega)
  have hk₁ : t[rank f s b + 1]? = some t[rank f s b + 1] := getElem?_eq_getElem hn
  generalize t[rank f s b] = c₀ at hk₀
  generalize t[rank f s b + 1] = c₁ at hk₁
  obtain ⟨hmem₁, hlevel₁⟩ := h _ c₁ hk₁
  have hrank₀ := hd.rank_eq hk₀
  have hrank₁ := hd.rank_eq hk₁
  -- the attempt at the level takes its only item
  have hc₀ : f c₀ = b := eq_of_rank_eq (hd _ c₀ hk₀).1 hb (by omega)
  have honly : ∀ a ∈ s, f a = b → a = c₀ := by
    intro a ha hab
    have ha' : a ∈ s.filter fun a => f a = b := mem_filter.2 ⟨ha, hab⟩
    have hc' : c₀ ∈ s.filter fun a => f a = b := mem_filter.2 ⟨h.mem (mem_of_getElem? hk₀), hc₀⟩
    rw [hfilter, Finset.mem_singleton] at ha' hc'
    rw [ha', hc']
  -- and the lowest level has not been touched
  obtain ⟨z, hz, hlow⟩ := exists_lowest (f := f) ⟨c₁, h.mem (mem_of_getElem? hk₁)⟩
  obtain ⟨e, he, hez⟩ := mem_image.1 hz
  have hnot : e ∉ t.take (rank f s b + 1) := by
    intro hmem
    obtain ⟨i, hi, hget⟩ := mem_take_iff_getElem.1 hmem
    have := hd.rank_eq (List.getElem?_eq_some_iff.2 ⟨by omega, hget⟩)
    rw [hez] at this
    omega
  rw [remaining_of_mem he hnot] at hlevel₁
  generalize hr : s \ (t.take (rank f s b + 1)).toFinset = r at hlevel₁
  have hsub : r.image f ⊆ (s.image f).erase b := by
    intro c hc
    obtain ⟨a, ha, rfl⟩ := mem_image.1 hc
    rw [← hr, mem_sdiff, List.mem_toFinset] at ha
    refine mem_erase.2 ⟨fun hab => ha.2 ?_, mem_image_of_mem f ha.1⟩
    rw [honly a ha.1 hab]
    exact mem_take_iff_getElem.2
      ⟨rank f s b, by omega, (List.getElem?_eq_some_iff.1 hk₀).2⟩
  have hzr : z ∈ r.image f := by
    rw [← hr]
    exact mem_image.2 ⟨e, mem_sdiff.2 ⟨he, by simpa using hnot⟩, hez⟩
  have hfewer : rank f r (f c₁) ≤ rank f s b := by
    have hbc : b ∈ (s.image f).filter fun c => f c₁ < c := by
      refine mem_filter.2 ⟨hb, ?_⟩
      by_contra hle
      obtain heq | hlt := (not_lt.1 hle).eq_or_lt
      · rw [← heq] at hrank₁
        omega
      · have := rank_lt_rank (hd _ c₁ hk₁).1 hlt
        omega
    have hcard : rank f r (f c₁) ≤ (((s.image f).filter fun c => f c₁ < c).erase b).card := by
      refine card_le_card fun c hc => ?_
      obtain ⟨hc, hlt⟩ := mem_filter.1 hc
      obtain ⟨hne, hc⟩ := mem_erase.1 (hsub hc)
      exact mem_erase.2 ⟨hne, mem_filter.2 ⟨hc, hlt⟩⟩
    rw [card_erase_of_mem hbc] at hcard
    unfold rank at hrank₁ ⊢
    unfold rank at hcard
    omega
  -- so that the attempt is at the lowest level of what is left, too far down
  have hlast : rank f r (f c₁) + 1 = (r.image f).card := by
    have hpos := card_pos.2 ⟨z, hzr⟩
    have := hlevel₁.2
    omega
  have hle := le_of_rank_add_one_eq hlevel₁.1 hlast hzr
  have heq : f c₁ = z := le_antisymm hle (le_of_rank_add_one_eq hz hlow (hd _ c₁ hk₁).1)
  rw [heq] at hrank₁
  omega

/-- When the lowest level has run out and others have not, the next attempt is above it. -/
theorem Descends.le_width_add_rank (hd : Descends f s t) (h : Picks f s t) (hb : b ∈ s.image f)
    (hlow : rank f s b + 1 = (s.image f).card) :
    t.length ≤ width f s b + rank f s b ∨ s.card ≤ width f s b + rank f s b := by
  by_contra hnot
  rw [not_or, not_le, not_le] at hnot
  obtain ⟨hlength, hcard⟩ := hnot
  have hnodup : ((t.take (width f s b + rank f s b + 1)).drop (rank f s b)).Nodup :=
    (h.nodup_take (by omega)).sublist (drop_sublist _ _)
  have hsub : ((t.take (width f s b + rank f s b + 1)).drop (rank f s b)).toFinset ⊆
      s.filter fun a => f a = b := by
    intro a ha
    rw [List.mem_toFinset] at ha
    obtain ⟨i, hi, hget⟩ := mem_drop_iff_getElem.1 ha
    rw [length_take] at hi
    rw [getElem_take] at hget
    have hget' : t[rank f s b + i]? = some a := List.getElem?_eq_some_iff.2 ⟨by omega, hget⟩
    have hrank := hd.rank_eq hget'
    exact mem_filter.2 ⟨h.mem (mem_of_getElem? hget'), eq_of_rank_eq (hd _ a hget').1 hb (by omega)⟩
  have hle := card_le_card hsub
  rw [toFinset_card_of_nodup hnodup, length_drop, length_take] at hle
  unfold width at hle hlength
  omega

/-- The attempts go down the levels of all items exactly when the levels are deep enough. -/
theorem descends_iff (h : Picks f s t) : Descends f s t ↔ Deep f s t.length :=
  ⟨fun hd => ⟨fun _ hb => hd.two_le_width h hb, fun _ hb => hd.le_width_add_rank h hb⟩,
    fun hd => hd.descends h⟩

end Levels
