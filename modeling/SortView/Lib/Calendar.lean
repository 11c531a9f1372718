import Mathlib.Data.Nat.Find
import Mathlib.Tactic.Common
import SortView.Lib.Text

/-!
# Dates and the ISO spelling of an instant

The proleptic Gregorian calendar by day numbers from 0001-01-01, and the texts
`YYYY-MM-DDTHH:MM:SS[.ffffff](Z|+hh:mm)` with the instants they mean. An instant is a number of
microseconds of UTC from the start of the year 1.
-/

namespace Calendar

open PyText

/-! ### Years and months -/

/-- The days of the first `years` years. -/
def daysBefore (years : Nat) : Nat := 365 * years + years / 4 - years / 100 + years / 400

def isLeap (year : Nat) : Bool := decide (year % 4 = 0 ∧ (year % 100 ≠ 0 ∨ year % 400 = 0))

theorem daysBefore_succ (years : Nat) :
    daysBefore (years + 1) = daysBefore years + 365 + if isLeap (years + 1) then 1 else 0 := by
  have hdiv : ∀ step, 0 < step → (years + 1) / step = years / step + if (years + 1) % step = 0 then 1 else 0 := by
    intro step _
    rw [Nat.succ_div]
    simp only [Nat.dvd_iff_mod_eq_zero]
  have hle : years / 100 ≤ years / 4 := Nat.div_le_div_left (by decide) (by decide)
  have hcentury : (years + 1) % 100 = 0 → (years + 1) % 4 = 0 := by omega
  have hfourth : (years + 1) % 400 = 0 → (years + 1) % 100 = 0 := by omega
  rw [daysBefore, daysBefore, isLeap, hdiv 4 (by decide), hdiv 100 (by decide), hdiv 400 (by decide)]
  generalize years / 4 = fours at *
  generalize years / 100 = centuries at *
  generalize years / 400 = cycles at *
  by_cases h4 : (years + 1) % 4 = 0
  · by_cases h100 : (years + 1) % 100 = 0
    · by_cases h400 : (years + 1) % 400 = 0
      · simp only [h4, h100, h400, if_true, ne_eq, not_true_eq_false, or_true, and_self, decide_true]
        omega
      · simp only [h4, h100, h400, if_true, if_false, ne_eq, not_true_eq_false, or_self, and_false, decide_false,
          Bool.false_eq_true]
        omega
    · have h400 : ¬ (years + 1) % 400 = 0 := fun h => h100 (hfourth h)
      simp only [h4, h100, h400, if_true, if_false, ne_eq, not_false_eq_true, true_or, and_self, decide_true]
      omega
  · have h100 : ¬ (years + 1) % 100 = 0 := fun h => h4 (hcentury h)
    have h400 : ¬ (years + 1) % 400 = 0 := fun h => h100 (hfourth h)
    simp only [h4, h100, h400, if_false, false_and, decide_false, Bool.false_eq_true]
    omega

theorem le_daysBefore (years : Nat) : 365 * years ≤ daysBefore years := by
  rw [daysBefore]
  omega

/-- The full years before a day. -/
def yearsPassed (day : Nat) : Nat := Nat.findGreatest (fun years => daysBefore years ≤ day) (day / 365)

theorem daysBefore_yearsPassed_le (day : Nat) : daysBefore (yearsPassed day) ≤ day :=
  Nat.findGreatest_spec (P := fun years => daysBefore years ≤ day) (Nat.zero_le _) (Nat.zero_le day)

theorem lt_daysBefore_succ_yearsPassed (day : Nat) : day < daysBefore (yearsPassed day + 1) := by
  have hbound := le_daysBefore (yearsPassed day + 1)
  by_cases hnear : yearsPassed day + 1 ≤ day / 365
  · exact Nat.lt_of_not_le (Nat.findGreatest_is_greatest (P := fun years => daysBefore years ≤ day) (Nat.lt_succ_self _) hnear)
  · omega

def monthLengths (leap : Bool) : List Nat := [31, if leap then 29 else 28, 31, 30, 31, 30, 31, 31, 30, 31, 30, 31]

/-- The days of the year before a month. -/
def daysBeforeMonth (leap : Bool) (month : Nat) : Nat := ((monthLengths leap).take (month - 1)).sum

/-- The month of a day of the year. -/
def monthOf (leap : Bool) (day : Nat) : Nat :=
  1 + (List.range 11).countP fun month => daysBeforeMonth leap (month + 2) ≤ day

structure Date where
  year : Nat
  month : Nat
  day : Nat
  deriving DecidableEq

def Date.Valid (date : Date) : Prop :=
  1 ≤ date.year ∧ date.year ≤ 9999 ∧ 1 ≤ date.month ∧ date.month ≤ 12 ∧ 1 ≤ date.day
    ∧ date.day ≤ (monthLengths (isLeap date.year)).getD (date.month - 1) 0

instance (date : Date) : Decidable date.Valid := inferInstanceAs (Decidable (_ ∧ _))

/-- The number of a date, from 0 for 0001-01-01. -/
def Date.number (date : Date) : Nat :=
  daysBefore (date.year - 1) + daysBeforeMonth (isLeap date.year) date.month + (date.day - 1)

/-- The date of a day number. -/
def dateOf (day : Nat) : Date :=
  let years := yearsPassed day
  let dayOfYear := day - daysBefore years
  let month := monthOf (isLeap (years + 1)) dayOfYear
  ⟨years + 1, month, dayOfYear - daysBeforeMonth (isLeap (years + 1)) month + 1⟩

/-- Every day of a year is in the month that `monthOf` names. -/
theorem monthOf_spec (leap : Bool) : ∀ day < 365 + (if leap then 1 else 0),
    1 ≤ monthOf leap day ∧ monthOf leap day ≤ 12 ∧ daysBeforeMonth leap (monthOf leap day) ≤ day
      ∧ day - daysBeforeMonth leap (monthOf leap day) + 1 ≤ (monthLengths leap).getD (monthOf leap day - 1) 0 := by
  revert leap
  decide +kernel

theorem dayOfYear_lt (day : Nat) :
    day - daysBefore (yearsPassed day) < 365 + if isLeap (yearsPassed day + 1) then 1 else 0 := by
  have hlow := daysBefore_yearsPassed_le day
  have hhigh := lt_daysBefore_succ_yearsPassed day
  rw [daysBefore_succ] at hhigh
  omega

/-- A day number is the number of its date. -/
theorem number_dateOf (day : Nat) : (dateOf day).number = day := by
  obtain ⟨-, -, hmonth, -⟩ := monthOf_spec _ _ (dayOfYear_lt day)
  have hyear := daysBefore_yearsPassed_le day
  rw [dateOf, Date.number]
  dsimp only at hmonth ⊢
  rw [Nat.add_sub_cancel, Nat.add_sub_cancel]
  omega

/-- The days of the years 1 to 9999. -/
def maxDays : Nat := daysBefore 9999

theorem valid_dateOf {day : Nat} (hday : day < maxDays) : (dateOf day).Valid := by
  obtain ⟨hmonthLow, hmonthHigh, -, hlength⟩ := monthOf_spec _ _ (dayOfYear_lt day)
  have hyear : yearsPassed day < 9999 := by
    by_contra hlarge
    have hlow := daysBefore_yearsPassed_le day
    have hmono : ∀ years, 9999 ≤ years → maxDays ≤ daysBefore years := by
      intro years hyears
      show daysBefore 9999 ≤ daysBefore years
      rw [daysBefore, daysBefore]
      omega
    have := hmono _ (Nat.le_of_not_lt hlarge)
    omega
  exact ⟨Nat.le_add_left .., hyear, hmonthLow, hmonthHigh, Nat.le_add_left .., hlength⟩

end Calendar
