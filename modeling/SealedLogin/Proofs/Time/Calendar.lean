import SealedLogin.Time.Calendar

/-!
# Days and dates

`Date.ofDays` gives a date of the calendar, and `Date.toDays` counts it back to the same day
(`isValid_ofDays`, `toDays_ofDays`). Both rest on where `marchYear` puts a day: not before the first
of March of its year, and before that of the next (`daysBeforeMarch_marchYear`). A year is as long
as the calendar says, so the months fill it exactly.
-/

namespace SealedLogin.Date

/-! ### Years -/

/-- The year of a day begins at the day or before it, and the next year after it. -/
theorem daysBeforeMarch_marchYear (n : Int) :
    daysBeforeMarch (marchYear n) ≤ n ∧ n < daysBeforeMarch (marchYear n + 1) := by
  have hg : 146097 * (n * 400 / 146097) ≤ n * 400
      ∧ n * 400 < 146097 * (n * 400 / 146097) + 146097 := by omega
  rw [marchYear]
  generalize n * 400 / 146097 = g at hg
  split
  · next h =>
    simp only [daysBeforeMarch] at h ⊢
    omega
  · next h =>
    split
    · next h' =>
      simp only [daysBeforeMarch] at h h' ⊢
      omega
    · next h' => exact ⟨Int.not_lt.1 h, Int.not_le.1 h'⟩

theorem isLeapYear_iff (y : Int) :
    isLeapYear y = true ↔ y % 4 = 0 ∧ (y % 100 ≠ 0 ∨ y % 400 = 0) := by
  simp [isLeapYear]

/-- A year from March on has as many days as the year in which it ends. -/
theorem daysBeforeMarch_succ (y : Int) : daysBeforeMarch (y + 1) =
    daysBeforeMarch y + if isLeapYear (y + 1) then 366 else 365 := by
  by_cases h : isLeapYear (y + 1) = true
  · rw [if_pos h]
    rw [isLeapYear_iff] at h
    simp only [daysBeforeMarch]
    omega
  · rw [if_neg h]
    rw [isLeapYear_iff] at h
    simp only [daysBeforeMarch]
    omega

/-! ### Days of a year -/

/-- The days since the first of March of the year of a day. -/
def dayOfYear (n : Int) : Nat := (n - daysBeforeMarch (marchYear n)).toNat

theorem daysBeforeMarch_add_dayOfYear (n : Int) :
    daysBeforeMarch (marchYear n) + (dayOfYear n : Int) = n := by
  have h := daysBeforeMarch_marchYear n
  rw [dayOfYear]
  omega

theorem dayOfYear_lt (n : Int) :
    dayOfYear n < if isLeapYear (marchYear n + 1) then 366 else 365 := by
  have h := daysBeforeMarch_marchYear n
  rw [daysBeforeMarch_succ] at h
  rw [dayOfYear]
  split at h <;> simp_all <;> omega

/-! ### Months -/

/-- The month of a day, counted from March on. -/
def monthOfYear (d : Nat) : Nat := (5 * d + 2) / 153

/-- The month of a day begins at the day or before it, and the next month after it. -/
theorem daysBeforeMonth_monthOfYear (d : Nat) :
    daysBeforeMonth (monthOfYear d) ≤ d ∧ d < daysBeforeMonth (monthOfYear d + 1) := by
  simp only [daysBeforeMonth, monthOfYear]
  omega

/-- A month that does not end a year has the days up to the next month. -/
theorem daysInMonth_eq (y : Int) {m : Nat} (h : m < 10) :
    daysInMonth y (m + 3) = daysBeforeMonth (m + 1) - daysBeforeMonth m := by
  match m, h with
  | 0, _ | 1, _ | 2, _ | 3, _ | 4, _ | 5, _ | 6, _ | 7, _ | 8, _ | 9, _ => rfl

/-! ### Dates -/

theorem ofDays_eq (days : Int) : ofDays days =
    let n := days + epoch
    let m := monthOfYear (dayOfYear n)
    let day := dayOfYear n - daysBeforeMonth m + 1
    if m < 10 then ⟨marchYear n, m + 3, day⟩ else ⟨marchYear n + 1, m - 9, day⟩ := rfl

theorem year_ofDays (days : Int) : (ofDays days).year = marchYear (days + epoch)
    ∨ (ofDays days).year = marchYear (days + epoch) + 1 := by
  rw [ofDays_eq]
  dsimp only
  split
  · exact .inl rfl
  · exact .inr rfl

theorem monthOfYear_lt (n : Int) : monthOfYear (dayOfYear n) < 12 := by
  have h := dayOfYear_lt n
  rw [monthOfYear]
  split at h <;> omega

theorem month_ofDays_le (days : Int) : (ofDays days).month ≤ 12 := by
  have h := monthOfYear_lt (days + epoch)
  rw [ofDays_eq]
  dsimp only
  split
  · show monthOfYear _ + 3 ≤ 12
    omega
  · show monthOfYear _ - 9 ≤ 12
    omega

theorem day_le_of_isValid {d : Date} (h : d.isValid = true) : d.day ≤ 31 := by
  simp only [isValid, Bool.and_eq_true, decide_eq_true_eq] at h
  refine Nat.le_trans h.2 ?_
  simp only [daysInMonth]
  split
  · split <;> decide
  all_goals decide

/-- The calendar has the date of every day. -/
theorem isValid_ofDays (days : Int) : (ofDays days).isValid = true := by
  have hm := daysBeforeMonth_monthOfYear (dayOfYear (days + epoch))
  have hlt := monthOfYear_lt (days + epoch)
  have hd := dayOfYear_lt (days + epoch)
  rw [ofDays_eq]
  dsimp only
  generalize dayOfYear (days + epoch) = d at hm hlt hd
  split
  · next h =>
    simp only [isValid, daysInMonth_eq _ h, Bool.and_eq_true, decide_eq_true_eq]
    omega
  · next h =>
    have hten : monthOfYear d = 10 ∨ monthOfYear d = 11 := by omega
    simp only [isValid, Bool.and_eq_true, decide_eq_true_eq]
    rcases hten with hm' | hm' <;> rw [hm'] at hm ⊢ <;>
      simp only [daysInMonth, daysBeforeMonth] at hm ⊢
    · omega
    · split at hd <;> simp_all <;> omega

/-- The date of a day is as many days from the beginning of 1970 as the day is. -/
theorem toDays_ofDays (days : Int) : (ofDays days).toDays = days := by
  have hm := daysBeforeMonth_monthOfYear (dayOfYear (days + epoch))
  have hn := daysBeforeMarch_add_dayOfYear (days + epoch)
  have hlt := monthOfYear_lt (days + epoch)
  rw [ofDays_eq]
  dsimp only
  generalize dayOfYear (days + epoch) = d at hm hn hlt
  split
  · next h =>
    rw [toDays, if_neg (by show ¬(monthOfYear d + 3 ≤ 2); omega), Nat.add_sub_cancel]
    dsimp only
    omega
  · next h =>
    have hback : monthOfYear d - 9 + 9 = monthOfYear d := by omega
    rw [toDays, if_pos (by show monthOfYear d - 9 ≤ 2; omega)]
    dsimp only
    rw [hback, Int.add_sub_cancel]
    omega

end SealedLogin.Date
