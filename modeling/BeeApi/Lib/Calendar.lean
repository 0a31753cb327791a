import Mathlib.Tactic.Ring

/-!
# The civil calendar

The proleptic Gregorian calendar on day numbers, with day 0 the first of January 1970.  A year
starts in March here, so that the leap day is its last day.
-/

namespace Calendar

def secondsPerDay : ℤ := 86400

def daysFromCivil (year month day : ℤ) : ℤ :=
  let y := if month ≤ 2 then year - 1 else year
  let era := y / 400
  let yearOfEra := y % 400
  let dayOfYear := (153 * (month + if month ≤ 2 then 9 else -3) + 2) / 5 + day - 1
  era * 146097 + yearOfEra * 365 + yearOfEra / 4 - yearOfEra / 100 + dayOfYear - 719468

def monthOfDays (days : ℤ) : ℤ × ℤ :=
  let z := days + 719468
  let dayOfEra := z % 146097
  let yearOfEra :=
    (dayOfEra - dayOfEra / 1460 + dayOfEra / 36524 - dayOfEra / 146096) / 365
  let dayOfYear := dayOfEra - (365 * yearOfEra + yearOfEra / 4 - yearOfEra / 100)
  let march := (5 * dayOfYear + 2) / 153
  let month := if march < 10 then march + 3 else march - 9
  (z / 146097 * 400 + yearOfEra + if month ≤ 2 then 1 else 0, month)

def weekday (days : ℤ) : ℤ := (days + 4) % 7

def firstOfNextMonth (days : ℤ) : ℤ :=
  let (year, month) := monthOfDays days
  if month = 12 then daysFromCivil (year + 1) 1 1 else daysFromCivil year (month + 1) 1

/-- The day number after adding years and months, as `time.AddDate` counts: a month past December runs
into the next year, a day past the end of its month into the next month. -/
def addDate (days years months : ℤ) : ℤ :=
  let (year, month) := monthOfDays days
  let day := days - daysFromCivil year month 1
  let m := month - 1 + months
  daysFromCivil (year + years + m / 12) (m % 12 + 1) 1 + day

example : addDate (daysFromCivil 2024 1 31) 0 1 = daysFromCivil 2024 3 2 := by decide

example : firstOfNextMonth (daysFromCivil 2024 2 29) = daysFromCivil 2024 3 1 := by decide

/-! ## Months go forward -/

def startOfYear (yearOfEra : ℤ) : ℤ := yearOfEra * 365 + yearOfEra / 4 - yearOfEra / 100

/-- The year of a day of the era, as `monthOfDays` finds it. -/
def yearOfEra (dayOfEra : ℤ) : ℤ :=
  (dayOfEra - dayOfEra / 1460 + dayOfEra / 36524 - dayOfEra / 146096) / 365

/-- A day is counted in centuries `c`, in cycles of four years `q` and in the days `s` of the
cycle. -/
theorem yearOfEra_cycle {c q s : ℤ} (hc : 0 ≤ c ∧ c ≤ 3) (hq : 0 ≤ q ∧ q ≤ 24)
    (hs : 0 ≤ s ∧ s ≤ 1460) (h : 1461 * q + s < 36524) :
    ∃ j, yearOfEra (36524 * c + 1461 * q + s) = 100 * c + 4 * q + j ∧ 0 ≤ j ∧ j ≤ 3 ∧
      365 * j ≤ s ∧ s ≤ 365 * j + 365 ∧ (j ≠ 3 → s < 365 * j + 365) := by
  have hyear : (36524 * c + 1461 * q + s) / 1460 =
      25 * c + q + if 1460 ≤ 24 * c + q + s then 1 else 0 := by
    split_ifs <;> omega
  have hcentury : (36524 * c + 1461 * q + s) / 36524 = c := by omega
  have hera : (36524 * c + 1461 * q + s) / 146096 = 0 := by omega
  unfold yearOfEra
  rw [hyear, hcentury, hera]
  refine ⟨_, (add_sub_cancel (100 * c + 4 * q) _).symm, ?_⟩
  split_ifs <;> omega

theorem yearOfEra_spec {doe : ℤ} (h0 : 0 ≤ doe) (h1 : doe < 146097) :
    0 ≤ yearOfEra doe ∧ yearOfEra doe ≤ 399 ∧ startOfYear (yearOfEra doe) ≤ doe ∧
      doe ≤ startOfYear (yearOfEra doe) + 365 ∧
      (yearOfEra doe ≠ 399 → doe < startOfYear (yearOfEra doe + 1)) := by
  by_cases hlast : doe = 146096
  · subst hlast
    decide
  obtain ⟨c, q, s, hc, hq, hs, h, rfl⟩ : ∃ c q s : ℤ, (0 ≤ c ∧ c ≤ 3) ∧ (0 ≤ q ∧ q ≤ 24) ∧
      (0 ≤ s ∧ s ≤ 1460) ∧ 1461 * q + s < 36524 ∧ doe = 36524 * c + 1461 * q + s :=
    ⟨doe / 36524, doe % 36524 / 1461, doe % 36524 % 1461, by omega, by omega, by omega, by omega,
      by omega⟩
  obtain ⟨j, hj, hspec⟩ := yearOfEra_cycle hc hq hs h
  have hquarter : (100 * c + 4 * q + j) / 4 = 25 * c + q := by omega
  have hcentury : (100 * c + 4 * q + j) / 100 = c := by omega
  have hnext : (100 * c + 4 * q + j + 1) / 4 = 25 * c + q + (j + 1) / 4 := by omega
  have hcenturyNext : (100 * c + 4 * q + j + 1) / 100 = c + (4 * q + j + 1) / 100 := by omega
  unfold startOfYear
  rw [hj, hquarter, hcentury, hnext, hcenturyNext]
  rcases (show j = 0 ∨ j = 1 ∨ j = 2 ∨ j = 3 by omega) with rfl | rfl | rfl | rfl <;> omega

/-- The first day of a month from March on, in the year `y` of an era. -/
theorem daysFromCivil_late (era : ℤ) {y month : ℤ} (h0 : 0 ≤ y) (h1 : y ≤ 399) (h : 2 < month) :
    daysFromCivil (era * 400 + y) month 1 =
      era * 146097 + startOfYear y + (153 * (month - 3) + 2) / 5 - 719468 := by
  have hera : (era * 400 + y) / 400 = era := by omega
  have hyearOfEra : (era * 400 + y) % 400 = y := by omega
  unfold daysFromCivil startOfYear
  dsimp only
  rw [if_neg (not_le.2 h), if_neg (not_le.2 h), hera, hyearOfEra, ← sub_eq_add_neg]
  ring

/-- The first two months are the last ones of the year `y` of an era. -/
theorem daysFromCivil_early (era : ℤ) {y month : ℤ} (h0 : 0 ≤ y) (h1 : y ≤ 399) (h : month ≤ 2) :
    daysFromCivil (era * 400 + y + 1) month 1 =
      era * 146097 + startOfYear y + (153 * (month + 9) + 2) / 5 - 719468 := by
  have hera : (era * 400 + y) / 400 = era := by omega
  have hyearOfEra : (era * 400 + y) % 400 = y := by omega
  unfold daysFromCivil startOfYear
  dsimp only
  rw [if_pos h, if_pos h, add_sub_cancel_right, hera, hyearOfEra]
  ring

theorem lt_firstOfNextMonth (days : ℤ) : days < firstOfNextMonth days := by
  have hfirst := Int.emod_nonneg (days + 719468) (by decide : (146097 : ℤ) ≠ 0)
  have hlast := Int.emod_lt_of_pos (days + 719468) (by decide : (0 : ℤ) < 146097)
  obtain ⟨hlow, hhigh, hstart, hend, hnext⟩ := yearOfEra_spec hfirst hlast
  have hdays := Int.emod_add_mul_ediv (days + 719468) 146097
  have hmonth : monthOfDays days = (let y := yearOfEra ((days + 719468) % 146097)
        let march := (5 * ((days + 719468) % 146097 - startOfYear y) + 2) / 153
        let month := if march < 10 then march + 3 else march - 9
        ((days + 719468) / 146097 * 400 + y + if month ≤ 2 then 1 else 0, month)) := by
    unfold monthOfDays yearOfEra startOfYear
    dsimp only
    rw [mul_comm 365]
  unfold firstOfNextMonth
  rw [hmonth]
  dsimp only
  generalize yearOfEra ((days + 719468) % 146097) = y at *
  generalize (days + 719468) / 146097 = era at *
  generalize (days + 719468) % 146097 = doe at *
  generalize hmarch : (5 * (doe - startOfYear y) + 2) / 153 = march at *
  have hbound : 0 ≤ march ∧ march ≤ 11 := by omega
  have hday : doe - startOfYear y < (153 * (march + 1) + 2) / 5 := by omega
  rcases (show march ≤ 8 ∨ march = 9 ∨ march = 10 ∨ march = 11 by omega) with
    hlt | rfl | rfl | rfl
  · have hmonth : (if march < 10 then march + 3 else march - 9) = march + 3 := if_pos (by omega)
    rw [hmonth, if_neg (by omega : ¬ march + 3 = 12), if_neg (by omega : ¬ march + 3 ≤ 2), add_zero,
      daysFromCivil_late era hlow hhigh (by omega)]
    omega
  · show days < daysFromCivil (era * 400 + y + 0 + 1) 1 1
    rw [add_zero, daysFromCivil_early era hlow hhigh (by decide)]
    omega
  · show days < daysFromCivil (era * 400 + y + 1) 2 1
    rw [daysFromCivil_early era hlow hhigh (by decide)]
    omega
  · show days < daysFromCivil (era * 400 + y + 1) 3 1
    -- the next year, or the first year of the next era
    by_cases hera : y = 399
    · rw [show era * 400 + y + 1 = (era + 1) * 400 + 0 by omega,
        daysFromCivil_late (era + 1) le_rfl (by decide) (by decide), show startOfYear 0 = 0 from rfl]
      omega
    · have := hnext hera
      rw [add_assoc, daysFromCivil_late era (by omega) (by omega) (by decide)]
      omega

end Calendar
