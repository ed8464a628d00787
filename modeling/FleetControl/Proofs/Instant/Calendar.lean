import FleetControl.Instant.Basic

/-!
# Days and their numbers

Every number of days since 1970-01-01 is the number of the day that is computed from it, and that
day exists. The year of the cycle comes out of a division that skips the leap days; it is checked
century by century, and within a century by periods of four years, whose first three years have no
leap day at their end.

* `CalendarDay.toEpochDay_ofEpochDay` — the day of a number has that number;
* `CalendarDay.valid_ofEpochDay` — the day exists, if its year has dates.
-/

namespace FleetControl.CalendarDay

/-- A day of a cycle, except its last one, by century, period of four years and day of the
period. -/
private theorem cycle_split (d : Int) (hlow : 0 ≤ d) (hhigh : d < 146096) :
    ∃ c q r : Int, 0 ≤ c ∧ c ≤ 3 ∧ 0 ≤ q ∧ q ≤ 24 ∧ 0 ≤ r ∧ r ≤ 1460 ∧
      1461 * q + r ≤ 36523 ∧ d = 36524 * c + 1461 * q + r :=
  ⟨d / 36524, (d % 36524) / 1461, (d % 36524) % 1461, by omega, by omega, by omega, by omega,
    by omega, by omega, by omega, by omega⟩

/-- The year that the division finds, within its period of four years. -/
private theorem year_in_period (c d q r : Int) (hc0 : 0 ≤ c) (hc : c ≤ 3) (hq0 : 0 ≤ q)
    (hq : q ≤ 24) (hr0 : 0 ≤ r) (hr : r ≤ 1460) (he : 1461 * q + r ≤ 36523)
    (hd : d = 36524 * c + 1461 * q + r) :
    ∃ t, 0 ≤ t ∧ t ≤ 3 ∧ 365 * t ≤ r ∧ r ≤ 365 * t + 365 ∧ (r = 365 * t + 365 → t = 3) ∧
      (d - d / 1460 + d / 36524 - d / 146096) / 365 = 100 * c + 4 * q + t := by
  have hcentury : d / 36524 = c := by omega
  have hcycle : d / 146096 = 0 := by omega
  rw [hcentury, hcycle]
  by_cases hk : 24 * c + q + r < 1460
  · have hperiod : d / 1460 = 25 * c + q := by omega
    exact ⟨r / 365, by omega, by omega, by omega, by omega, by omega, by omega⟩
  · have hperiod : d / 1460 = 25 * c + q + 1 := by omega
    exact ⟨3, by omega, by omega, by omega, by omega, by omega, by omega⟩

/-- The year of the cycle begins at most 365 days before the day, and exactly 365 days before only
if a leap day ends it. -/
theorem yearOfCycle_spec {d y : Int} (hlow : 0 ≤ d) (hhigh : d ≤ 146096)
    (hy : y = (d - d / 1460 + d / 36524 - d / 146096) / 365) :
    0 ≤ y ∧ y ≤ 399 ∧ 365 * y + y / 4 - y / 100 ≤ d ∧ d ≤ 365 * y + y / 4 - y / 100 + 365 ∧
      (d = 365 * y + y / 4 - y / 100 + 365 →
        (y + 1) % 4 = 0 ∧ ((y + 1) % 100 ≠ 0 ∨ y = 399)) := by
  by_cases hlast : d = 146096
  · subst hlast
    have : y = 399 := by omega
    subst this
    omega
  · obtain ⟨c, q, r, hc0, hc3, hq0, hq, hr0, hr, he, hd⟩ := cycle_split d hlow (by omega)
    obtain ⟨t, ht0, ht3, hstart, hend, hleap, hyear⟩ :=
      year_in_period c d q r hc0 hc3 hq0 hq hr0 hr he hd
    rw [hyear] at hy
    clear hyear
    have hperiods : y / 4 = 25 * c + q := by omega
    have hcenturies : y / 100 = c := by omega
    rw [hperiods, hcenturies]
    refine ⟨by omega, by omega, by omega, by omega, ?_⟩
    intro hfull
    have := hleap (by omega)
    have : (y + 1) % 4 = 0 := by omega
    have : q ≠ 24 := by omega
    exact ⟨by omega, .inl (by omega)⟩

/-- What the day of a number is made of: cycle, year of the cycle, month from March and day of the
month. -/
private theorem ofEpochDay_parts (n : Int) :
    ∃ cycle y m k : Int, 0 ≤ y ∧ y ≤ 399 ∧ 0 ≤ m ∧ m ≤ 11 ∧ 1 ≤ k ∧ k ≤ 31 ∧
      ((m = 1 ∨ m = 3 ∨ m = 6 ∨ m = 8) → k ≤ 30) ∧ (m = 11 → k ≤ 29) ∧
      (m = 11 → k = 29 → (y + 1) % 4 = 0 ∧ ((y + 1) % 100 ≠ 0 ∨ y = 399)) ∧
      n = cycle * 146097 + (y * 365 + y / 4 - y / 100 + ((153 * m + 2) / 5 + k - 1)) - 719468 ∧
      ofEpochDay n =
        ⟨if m < 10 then y + cycle * 400 else y + cycle * 400 + 1,
          (if m < 10 then m + 3 else m - 9).toNat, k.toNat⟩ := by
  obtain ⟨hy0, hy, hstart, hend, hleap⟩ :=
    yearOfCycle_spec (d := n + 719468 - (n + 719468) / 146097 * 146097) (by omega) (by omega) rfl
  simp only [ofEpochDay]
  generalize hcycle : (n + 719468) / 146097 = cycle at *
  generalize hd : n + 719468 - cycle * 146097 = d at *
  generalize (d - d / 1460 + d / 36524 - d / 146096) / 365 = y at *
  generalize hdoy : d - (365 * y + y / 4 - y / 100) = doy
  have hdoy0 : 0 ≤ doy := by omega
  have hdoy1 : doy ≤ 365 := by omega
  generalize hm : (5 * doy + 2) / 153 = m
  generalize hk : doy - (153 * m + 2) / 5 + 1 = k
  have hm0 : 0 ≤ m := by omega
  have hm1 : m ≤ 11 := by omega
  refine ⟨cycle, y, m, k, hy0, hy, hm0, hm1, by omega, by omega, by omega, by omega, ?_,
    by omega, ?_⟩
  · intro hfeb hlast
    exact hleap (by omega)
  · congr 1
    split <;> split <;> omega

/-- **The day of a number has that number.** -/
theorem toEpochDay_ofEpochDay (n : Int) : (ofEpochDay n).toEpochDay = n := by
  obtain ⟨cycle, y, m, k, hy0, hy, hm0, hm, hk0, hk, -, -, -, hn, hparts⟩ := ofEpochDay_parts n
  rw [hparts]
  have hcycle : (y + cycle * 400) / 400 = cycle := by omega
  by_cases hlate : m < 10
  · have h1 : ¬ (m + 3).toNat ≤ 2 := by omega
    have h2 : 2 < (m + 3).toNat := by omega
    simp only [toEpochDay, hlate, if_true, h1, if_false, h2, hcycle]
    have hyear : y + cycle * 400 - cycle * 400 = y := by omega
    rw [hyear]
    omega
  · have h1 : (m - 9).toNat ≤ 2 := by omega
    have h2 : ¬ 2 < (m - 9).toNat := by omega
    have hprev : y + cycle * 400 + 1 - 1 = y + cycle * 400 := by omega
    simp only [toEpochDay, hlate, if_false, h1, if_true, h2, hprev, hcycle]
    have hyear : y + cycle * 400 - cycle * 400 = y := by omega
    rw [hyear]
    omega

/-- A 29 February of the cycle belongs to a leap year. -/
private theorem isLeapYear_of_cycle {cycle y : Int} (hy0 : 0 ≤ y) (hy : y ≤ 399)
    (h4 : (y + 1) % 4 = 0) (h100 : (y + 1) % 100 ≠ 0 ∨ y = 399) :
    isLeapYear (y + cycle * 400 + 1) = true := by
  have hmod4 : (y + cycle * 400 + 1) % 4 = 0 := by omega
  rcases h100 with h100 | rfl
  · have hmod100 : (y + cycle * 400 + 1) % 100 ≠ 0 := by omega
    simp [isLeapYear, hmod4, hmod100]
  · have hmod400 : (399 + cycle * 400 + 1) % 400 = 0 := by omega
    simp [isLeapYear, hmod400]

/-- No month is shorter than four weeks. -/
private theorem le_monthLength (y : Int) (m : Nat) : 28 ≤ monthLength y m := by
  unfold monthLength
  split
  · split <;> omega
  · split <;> omega

/-- **The day of a number exists**, if it lies in the years that have dates. -/
theorem valid_ofEpochDay {n : Int} (hlow : (⟨firstYear, 1, 1⟩ : CalendarDay).toEpochDay ≤ n)
    (hhigh : n ≤ (⟨lastYear, 12, 31⟩ : CalendarDay).toEpochDay) :
    (ofEpochDay n).valid = true := by
  obtain ⟨cycle, y, m, k, hy0, hy, hm0, hm, hk0, hk, h30, hfeb, hleap, hn, hparts⟩ :=
    ofEpochDay_parts n
  rw [hparts]
  have hfirst : (⟨firstYear, 1, 1⟩ : CalendarDay).toEpochDay = -96465292 := by decide
  have hlast : (⟨lastYear, 12, 31⟩ : CalendarDay).toEpochDay = 95026236 := by decide
  rw [hfirst] at hlow
  rw [hlast] at hhigh
  have hday : 1 ≤ k.toNat := by omega
  simp only [valid, firstYear, lastYear, Bool.and_eq_true, decide_eq_true_eq]
  by_cases hlate : m < 10
  · simp only [hlate, if_true]
    refine ⟨⟨⟨⟨⟨decide_eq_true (by omega), decide_eq_true (by omega)⟩, by omega⟩, by omega⟩,
      hday⟩, ?_⟩
    have hmonth : (m + 3).toNat ≠ 2 := by omega
    by_cases hshort : m = 1 ∨ m = 3 ∨ m = 6 ∨ m = 8
    · have := h30 hshort
      have hcase : (m + 3).toNat = 4 ∨ (m + 3).toNat = 6 ∨ (m + 3).toNat = 9 ∨
          (m + 3).toNat = 11 := by omega
      rcases hcase with h | h | h | h <;> simp [monthLength, h] <;> omega
    · have hnot : (m + 3).toNat ≠ 4 ∧ (m + 3).toNat ≠ 6 ∧ (m + 3).toNat ≠ 9 ∧
          (m + 3).toNat ≠ 11 := by omega
      simp [monthLength, hmonth, hnot]
      omega
  · simp only [hlate, if_false]
    have hend : y + cycle * 400 + 1 ≤ 262142 := by
      rcases Int.lt_or_le cycle 655 with hc | hc
      · omega
      · have : cycle = 655 := by omega
        subst this
        omega
    refine ⟨⟨⟨⟨⟨decide_eq_true (by omega), decide_eq_true hend⟩, by omega⟩, by omega⟩,
      hday⟩, ?_⟩
    have hcase : m = 10 ∨ m = 11 := by omega
    rcases hcase with rfl | rfl
    · simp [monthLength]
      omega
    · have := hfeb rfl
      by_cases hlast : k = 29
      · obtain ⟨h4, h100⟩ := hleap rfl hlast
        simp [monthLength, isLeapYear_of_cycle hy0 hy h4 h100]
        omega
      · have hshort : k.toNat ≤ 28 := by omega
        exact Nat.le_trans hshort (le_monthLength _ _)

end FleetControl.CalendarDay
