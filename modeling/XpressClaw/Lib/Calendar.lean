import Mathlib.Data.Nat.Find

/-!
# The Gregorian calendar

Dates from 1 January of the year 0 on, numbered by the days since then.

* `Date` — a date, with the month and the day in range.
* `Date.number` — the number of a date.
* `Date.ofNumber` — the date of a number; `number_ofNumber` says that it has that number.
-/

namespace Lib

def isLeapYear (y : ℕ) : Bool := y % 4 = 0 && (y % 100 ≠ 0 || y % 400 = 0)

def yearLength (y : ℕ) : ℕ := if isLeapYear y then 366 else 365

def monthLength (y : ℕ) : ℕ → ℕ
  | 2 => if isLeapYear y then 29 else 28
  | 4 | 6 | 9 | 11 => 30
  | _ => 31

/-- The days before a year: every fourth year is a leap year, but for the hundreds that are not
four hundreds. -/
def daysBeforeYear (y : ℕ) : ℕ := 365 * y + (y + 3) / 4 - (y + 99) / 100 + (y + 399) / 400

/-- The days of the first months of a year. -/
def daysOfMonths (y : ℕ) : ℕ → ℕ
  | 0 => 0
  | m + 1 => daysOfMonths y m + monthLength y (m + 1)

/-- A date of the Gregorian calendar. -/
structure Date where
  year : ℕ
  month : ℕ
  day : ℕ
  month_mem : 1 ≤ month ∧ month ≤ 12
  day_mem : 1 ≤ day ∧ day ≤ monthLength year month
deriving DecidableEq

/-- The days from 1 January of the year 0 to a date. -/
def Date.number (d : Date) : ℕ :=
  daysBeforeYear d.year + daysOfMonths d.year (d.month - 1) + (d.day - 1)

/-- A multiple is passed at each multiple. -/
theorem passed_multiples (y k : ℕ) :
    (y + 1 + k) / (k + 1) = (y + k) / (k + 1) + if y % (k + 1) = 0 then 1 else 0 := by
  have hshift : y + 1 + k = y + (k + 1) := by omega
  have hdiv := Nat.div_add_mod y (k + 1)
  have hlt : y % (k + 1) < k + 1 := Nat.mod_lt y (Nat.succ_pos k)
  rw [hshift, Nat.add_div_right _ (Nat.succ_pos k)]
  rw [← hdiv, Nat.add_assoc, Nat.mul_add_div (Nat.succ_pos k), Nat.mul_add_div (Nat.succ_pos k),
    Nat.mul_add_mod, Nat.mod_mod, Nat.div_eq_of_lt hlt]
  split
  · rename_i hzero
    rw [hzero, Nat.zero_add, Nat.div_eq_of_lt (Nat.lt_succ_self k)]
  · rename_i hpos
    have hone : (y % (k + 1) + k) / (k + 1) = 1 :=
      Nat.div_eq_of_lt_le (by omega) (by omega)
    rw [hone]

theorem daysBeforeYear_succ (y : ℕ) :
    daysBeforeYear (y + 1) = daysBeforeYear y + yearLength y := by
  have hfour := passed_multiples y 3
  have hhundred := passed_multiples y 99
  have hfourHundred := passed_multiples y 399
  have hle : (y + 99) / 100 ≤ (y + 3) / 4 := by omega
  simp only [daysBeforeYear, yearLength, isLeapYear, hfour, hhundred, hfourHundred]
  by_cases h4 : y % 4 = 0
  · by_cases h100 : y % 100 = 0
    · by_cases h400 : y % 400 = 0
      · simp [h4, h100, h400]
        omega
      · simp [h4, h100, h400]
        omega
    · have h400 : y % 400 ≠ 0 := by omega
      simp [h4, h100, h400]
      omega
  · have h100 : y % 100 ≠ 0 := by omega
    have h400 : y % 400 ≠ 0 := by omega
    simp [h4, h100, h400]
    omega

theorem le_daysBeforeYear (y : ℕ) : 365 * y ≤ daysBeforeYear y := by
  simp only [daysBeforeYear]
  omega

theorem monthLength_le (y m : ℕ) : monthLength y m ≤ 31 := by
  unfold monthLength
  split <;> first | decide | (split <;> decide)

/-- The months of a year make up the year. -/
theorem daysOfMonths_year (y : ℕ) : daysOfMonths y 12 = yearLength y := by
  simp only [daysOfMonths, monthLength, yearLength]
  split <;> rfl

/-- The year of a day. -/
def yearOf (n : ℕ) : ℕ := Nat.findGreatest (fun y => daysBeforeYear y ≤ n) (n / 365)

/-- The month of a day of a year, counted from 0. -/
def monthOf (y r : ℕ) : ℕ := Nat.findGreatest (fun m => daysOfMonths y m ≤ r) 11

theorem yearOf_spec (n : ℕ) :
    daysBeforeYear (yearOf n) ≤ n ∧ n < daysBeforeYear (yearOf n) + yearLength (yearOf n) := by
  refine ⟨Nat.findGreatest_spec (P := fun y => daysBeforeYear y ≤ n) (Nat.zero_le _)
    (Nat.zero_le n), ?_⟩
  rw [← daysBeforeYear_succ, ← not_le]
  intro hle
  have hbound : yearOf n + 1 ≤ n / 365 := by
    have := le_daysBeforeYear (yearOf n + 1)
    omega
  exact Nat.findGreatest_is_greatest (Nat.lt_succ_self _) hbound hle

theorem monthOf_spec {y r : ℕ} (h : r < yearLength y) :
    daysOfMonths y (monthOf y r) ≤ r ∧
      r < daysOfMonths y (monthOf y r) + monthLength y (monthOf y r + 1) := by
  refine ⟨Nat.findGreatest_spec (P := fun m => daysOfMonths y m ≤ r) (Nat.zero_le _)
    (Nat.zero_le r), ?_⟩
  change r < daysOfMonths y (monthOf y r + 1)
  rw [← not_le]
  intro hle
  have hmonth : monthOf y r ≤ 11 := Nat.findGreatest_le 11
  rcases Nat.lt_or_ge (monthOf y r) 11 with hlt | hge
  · exact Nat.findGreatest_is_greatest (Nat.lt_succ_self _) hlt hle
  · rw [le_antisymm hmonth hge, daysOfMonths_year] at hle
    omega

/-- The day of a year, counted from 0. -/
def dayOfYear (n : ℕ) : ℕ := n - daysBeforeYear (yearOf n)

theorem dayOfYear_lt (n : ℕ) : dayOfYear n < yearLength (yearOf n) := by
  have := yearOf_spec n
  unfold dayOfYear
  omega

/-- The date of a day. -/
def Date.ofNumber (n : ℕ) : Date where
  year := yearOf n
  month := monthOf (yearOf n) (dayOfYear n) + 1
  day := dayOfYear n - daysOfMonths (yearOf n) (monthOf (yearOf n) (dayOfYear n)) + 1
  month_mem := ⟨Nat.succ_pos _, Nat.succ_le_succ (Nat.findGreatest_le 11)⟩
  day_mem := by
    have := monthOf_spec (dayOfYear_lt n)
    omega

theorem Date.number_ofNumber (n : ℕ) : (ofNumber n).number = n := by
  have hyear := yearOf_spec n
  have hmonth := monthOf_spec (dayOfYear_lt n)
  simp only [number, ofNumber, Nat.add_sub_cancel]
  unfold dayOfYear at hmonth ⊢
  omega

example : (Date.ofNumber 730544).month = 2 ∧ (Date.ofNumber 730544).day = 29 := by decide

end Lib
