import BeeApi.Payment.Commission

/-!
# The scan of a day

The pages of a scan are the rows of the day, one after the other, whatever their size and however many
rows have the same time.  Each user gets the sum of the rows that count.
-/

namespace BeeApi.Affiliate

open List Option Bool

namespace Day

variable {day : Day}

def consumption (day : Day) (userId : ℤ) : ℤ :=
  (((day.logs.filter day.inDay).filter fun log => log.userId = userId && day.counts log).map
    (·.quota)).sum

theorem after_iff (day : Day) (last log : Log) :
    day.database.after last log = true ↔ day.database.key last < day.database.key log := by
  unfold LogDatabase.after LogDatabase.key
  cases day.database with
  | sql | clickHouse =>
    rw [Prod.Lex.toLex_lt_toLex, Prod.Lex.toLex_lt_toLex]
    simp only [or_eq_true, and_eq_true, decide_eq_true_eq]
    exact or_congr Iff.rfl (and_congr eq_comm (by simp))

theorem ascending_sorted (day : Day) : Window.Ascending day.database.key day.sorted := by
  have hsorted : day.sorted.Pairwise fun r s => day.database.key r ≤ day.database.key s :=
    pairwise_insertionSort _ _
  have hnodup : (day.sorted.map day.database.key).Nodup := by
    have hperm := (perm_insertionSort (fun r s => day.database.key r ≤ day.database.key s)
      (day.logs.filter day.inDay)).map day.database.key
    refine hperm.nodup_iff.2 (day.unique.sublist ?_)
    exact filter_sublist.map _
  rw [nodup_iff_pairwise_ne, pairwise_map] at hnodup
  exact (hsorted.and hnodup).imp fun h => lt_of_le_of_ne h.1 h.2

theorem behind_getLast {cursor : Option Log} {before : List Log}
    (hbehind : day.sorted = before ++ day.behind cursor) {last : Log}
    (hlast : (day.page cursor).getLast? = some last) :
    day.behind (some last) = (day.behind cursor).drop day.batchSize ∧
      day.sorted = before ++ day.page cursor ++ day.behind (some last) := by
  have hsplit : before ++ day.page cursor ++ (day.behind cursor).drop day.batchSize = day.sorted := by
    rw [append_assoc, page, take_append_drop, hbehind]
  have hasc := day.ascending_sorted
  rw [← hsplit] at hasc
  have hlast' : (before ++ day.page cursor).getLast? = some last := by
    rw [getLast?_append, hlast]
    rfl
  have hdrop : day.behind (some last) = (day.behind cursor).drop day.batchSize := by
    have hfilter := Window.filter_lt_getLast hasc hlast'
    rw [hsplit] at hfilter
    rw [← hfilter]
    refine filter_congr fun r _ => ?_
    rw [Bool.eq_iff_iff, after_iff, decide_eq_true_eq]
  exact ⟨hdrop, by rw [hdrop, hsplit]⟩

theorem scanPages_eq {fuel : ℕ} {cursor : Option Log} {before : List Log} (consume : Table ℤ ℤ)
    (hbehind : day.sorted = before ++ day.behind cursor)
    (hfuel : (day.behind cursor).length < fuel) :
    day.scanPages fuel cursor consume = (day.behind cursor).foldlM day.addLog consume := by
  induction fuel generalizing cursor before consume with
  | zero => exact (nomatch hfuel)
  | succ fuel ih =>
    have hbatch := day.batchSize_pos
    rw [scanPages]
    cases hlast : (day.page cursor).getLast? with
    | none =>
      have hnil : day.behind cursor = [] := by
        have hpage := getLast?_eq_none_iff.1 hlast
        rw [page, take_eq_nil_iff] at hpage
        exact hpage.resolve_left hbatch.ne'
      rw [hnil]
      rfl
    | some last =>
      obtain ⟨hdrop, hrest⟩ := behind_getLast hbehind hlast
      have hsplit : day.behind cursor = day.page cursor ++ day.behind (some last) := by
        rw [hdrop, page, take_append_drop]
      have hpage : 0 < (day.page cursor).length := length_pos_of_mem (mem_of_getLast? hlast)
      rw [hsplit, foldlM_append]
      cases hadd : (day.page cursor).foldlM day.addLog consume with
      | none => rfl
      | some consume' =>
        split_ifs with hshort
        · -- a page that is not full is the last one
          have hnil : day.behind (some last) = [] := by
            rw [page, length_take] at hshort
            rw [hdrop, drop_eq_nil_iff]
            omega
          rw [hnil]
          rfl
        · refine ih consume' hrest ?_
          have hlength := congrArg List.length hsplit
          rw [length_append] at hlength
          omega

theorem scanConsumeByUser_eq (day : Day) :
    day.scanConsumeByUser = day.sorted.foldlM day.addLog ∅ := by
  refine @scanPages_eq day _ none [] ∅ rfl ?_
  refine Nat.lt_succ_of_le ?_
  show day.sorted.length ≤ _
  rw [sorted, length_insertionSort]
  exact length_filter_le _ _

theorem addLog_eq_some {consume consume' : Table ℤ ℤ} {log : Log}
    (h : day.addLog consume log = some consume') :
    (day.counts log = false ∧ consume' = consume) ∨ day.counts log = true ∧
        consume' = consume.put log.userId ((consume.get? log.userId).getD 0 + log.quota) := by
  unfold addLog at h
  unfold counts
  split at h
  · rename_i hquota
    refine .inl ⟨?_, (some.inj h).symm⟩
    rw [decide_eq_false (not_lt.2 hquota), Bool.false_and]
  rename_i hquota
  split at h
  · rename_i hsubscription
    refine .inl ⟨?_, (some.inj h).symm⟩
    rw [hsubscription, Bool.not_true, Bool.and_false]
  · rename_i hsubscription
    refine .inr ⟨?_, ?_⟩
    · rw [decide_eq_true (not_le.1 hquota), eq_false_iff.2 hsubscription]
      rfl
    · cases hget : consume.get? log.userId with
      | some total =>
        rw [hget] at h
        exact (some.inj h).symm
      | none =>
        rw [hget] at h
        split_ifs at h
        rw [getD_none, zero_add]
        exact (some.inj h).symm

theorem foldlM_addLog {l : List Log} {consume consume' : Table ℤ ℤ}
    (h : l.foldlM day.addLog consume = some consume') (u : ℤ) :
    (consume'.get? u).getD 0 = (consume.get? u).getD 0 +
      ((l.filter fun log => log.userId = u && day.counts log).map (·.quota)).sum := by
  induction l generalizing consume with
  | nil =>
    cases h
    simp
  | cons log l ih =>
    rw [foldlM_cons] at h
    obtain ⟨consume₁, hadd, hrest⟩ := bind_eq_some_iff.1 h
    rcases addLog_eq_some hadd with ⟨hcounts, rfl⟩ | ⟨hcounts, rfl⟩
    · rw [ih hrest, filter_cons_of_neg (by simp [hcounts])]
    · rw [ih hrest, Table.get?_put]
      by_cases hu : u = log.userId
      · rw [if_pos hu, filter_cons_of_pos (by simp [hu, hcounts]), map_cons, sum_cons,
          hu, getD_some, add_assoc]
      · rw [if_neg hu, filter_cons_of_neg (by simp [Ne.symm hu])]

theorem consumption_of_scan {consume : Table ℤ ℤ} (h : day.scanConsumeByUser = some consume) (u : ℤ) :
    (consume.get? u).getD 0 = day.consumption u := by
  rw [scanConsumeByUser_eq] at h
  have hperm := perm_insertionSort (fun r s => day.database.key r ≤ day.database.key s)
    (day.logs.filter day.inDay)
  rw [foldlM_addLog h u]
  show (0 : ℤ) + _ = _
  rw [zero_add]
  exact ((hperm.filter _).map _).sum_eq

end Day

end BeeApi.Affiliate
