import Mathlib.Data.Int.Order.Basic
import Mathlib.Tactic.Linarith

/-!
# Wall clocks

A local clock gives a reading at every instant. It moves on by one from each instant to the next but for its changes,
when it is put forward or back. Where every change is of one hour and at a whole hour, the readings from a whole hour
on are those of the instants from one instant on, and that instant is the one the reading is converted to.
-/

namespace WallClock

variable {reading : Int → Int} {hour apart : Int}

/-- The clock is put forward or back at this instant. -/
def Changes (reading : Int → Int) (instant : Int) : Prop := reading instant ≠ reading (instant - 1) + 1

/-- Every change is of one hour, is made when the clock reads a whole hour, and leaves some time to the next. -/
structure HourChanges (reading : Int → Int) (hour apart : Int) : Prop where
  one : ∀ instant, Changes reading instant →
    reading instant = reading (instant - 1) + 1 + hour ∨ reading instant = reading (instant - 1) + 1 - hour
  whole : ∀ instant, Changes reading instant → hour ∣ reading instant
  spaced : ∀ first second, Changes reading first → Changes reading second → first < second → first + apart ≤ second

/-- Readings converted to instants: a reading that occurs, to the first instant at which it does, and one that a change
skips, to the instant at which the clock would have shown it without the change. -/
def FirstReading (reading instantOf : Int → Int) : Prop :=
  ∀ value, (reading (instantOf value) = value ∧ ∀ instant, reading instant = value → instantOf value ≤ instant)
    ∨ ∃ change, reading (change - 1) < value ∧ value < reading change
      ∧ instantOf value = change + (value - (reading (change - 1) + 1))

namespace HourChanges

/-- A whole hour that was reached stays behind the clock: what is put back is put back to a whole hour. -/
theorem le_reading_succ (hclock : HourChanges reading hour apart) (hpos : 0 < hour) {value instant : Int} (hvalue : hour ∣ value)
    (hle : value ≤ reading instant) : value ≤ reading (instant + 1) := by
  by_cases hchange : Changes reading (instant + 1)
  · have hwhole := hclock.whole _ hchange
    rcases hclock.one _ hchange with hforward | hback
    · rw [Int.add_sub_cancel] at hforward
      omega
    · rw [Int.add_sub_cancel] at hback
      -- the reading that was about to show is a whole hour past `value`, so at least one hour past it
      obtain ⟨m, hm⟩ := hvalue
      obtain ⟨n, hn⟩ := hwhole
      have hlt : hour * m < hour * (n + 1) := by
        rw [Int.mul_add, Int.mul_one]
        omega
      have hmn : m < n + 1 := Int.lt_of_mul_lt_mul_left hlt hpos.le
      have hscaled : hour * m ≤ hour * n := Int.mul_le_mul_of_nonneg_left (by omega) hpos.le
      omega
  · have hnext : reading (instant + 1) = reading (instant + 1 - 1) + 1 := not_not.1 hchange
    rw [Int.add_sub_cancel] at hnext
    omega

theorem le_reading_of_le (hclock : HourChanges reading hour apart) (hpos : 0 < hour) {value : Int} (hvalue : hour ∣ value)
    {first second : Int} (hle : first ≤ second) (hfirst : value ≤ reading first) : value ≤ reading second := by
  obtain ⟨n, rfl⟩ := Int.le.dest hle
  clear hle
  induction n with
  | zero => simpa using hfirst
  | succ n ih =>
      rw [Nat.cast_succ, ← Int.add_assoc]
      exact hclock.le_reading_succ hpos hvalue ih

/-- Before a change the clock runs evenly. -/
theorem reading_before (hclock : HourChanges reading hour apart) {change : Int} (hchange : Changes reading change) (n : Nat)
    (hn : (n : Int) < apart) : reading (change - 1 - n) = reading (change - 1) - n := by
  induction n with
  | zero => simp
  | succ n ih =>
      have hprevious := ih (by omega)
      have hsteady : ¬ Changes reading (change - 1 - n) := by
        intro hother
        have hspaced := hclock.spaced _ _ hother hchange (by omega)
        omega
      have hstep : reading (change - 1 - n) = reading (change - 1 - n - 1) + 1 := not_not.1 hsteady
      have hinstant : change - 1 - ((n + 1 : Nat) : Int) = change - 1 - n - 1 := by omega
      rw [hinstant]
      omega

/-- What a clock put back shows again was shown one hour before. -/
theorem reading_repeated (hclock : HourChanges reading hour apart) (hpos : 0 < hour) (hapart : hour ≤ apart) {change : Int}
    (hchange : Changes reading change) (hback : reading change = reading (change - 1) + 1 - hour) :
    reading (change - hour) = reading change := by
  obtain ⟨n, hn⟩ := Int.eq_ofNat_of_zero_le (by omega : 0 ≤ hour - 1)
  have hbefore := hclock.reading_before hchange n (by omega)
  have hinstant : change - 1 - (n : Int) = change - hour := by omega
  rw [hinstant] at hbefore
  omega

/-- A change that skips a whole hour skips the hour it begins. -/
theorem skipped_eq (hclock : HourChanges reading hour apart) (hpos : 0 < hour) {change value : Int} (hvalue : hour ∣ value)
    (hbefore : reading (change - 1) < value) (hafter : value < reading change) :
    Changes reading change ∧ value = reading (change - 1) + 1 := by
  have hchange : Changes reading change := by
    intro hsteady
    omega
  refine ⟨hchange, ?_⟩
  have hwhole := hclock.whole _ hchange
  rcases hclock.one _ hchange with hforward | hback
  · have hstart : hour ∣ value - (reading (change - 1) + 1) := by
      have hshift := Int.dvd_sub hwhole (Int.dvd_refl hour)
      rw [hforward, Int.add_sub_cancel] at hshift
      exact Int.dvd_sub hvalue hshift
    have hzero := Int.eq_zero_of_dvd_of_nonneg_of_lt (by omega) (by omega) hstart
    omega
  · omega

/-- The clock reads a whole hour or more from the instant on that the hour is converted to. -/
theorem le_reading_iff (hclock : HourChanges reading hour apart) (hpos : 0 < hour) (hapart : hour ≤ apart)
    {instantOf : Int → Int} (hfirst : FirstReading reading instantOf) {value : Int} (hvalue : hour ∣ value) (instant : Int) :
    value ≤ reading instant ↔ instantOf value ≤ instant := by
  rcases hfirst value with ⟨hreads, hleast⟩ | ⟨change, hbefore, hafter, hconverted⟩
  · constructor
    · intro hle
      by_contra hearly
      have hprevious : value ≤ reading (instantOf value - 1) := hclock.le_reading_of_le hpos hvalue (by omega) hle
      have hne : reading (instantOf value - 1) ≠ value := by
        intro heq
        have hsooner := hleast _ heq
        omega
      have hchange : Changes reading (instantOf value) := by
        intro hsteady
        omega
      rcases hclock.one _ hchange with hforward | hback
      · omega
      · have hrepeated := hclock.reading_repeated hpos hapart hchange hback
        have hsooner := hleast _ (hrepeated.trans hreads)
        omega
    · intro hle
      exact hclock.le_reading_of_le hpos hvalue hle hreads.ge
  · obtain ⟨-, hstart⟩ := hclock.skipped_eq hpos hvalue hbefore hafter
    have hinstant : instantOf value = change := by omega
    rw [hinstant]
    constructor
    · intro hle
      by_contra hearly
      have hprevious := hclock.le_reading_of_le hpos hvalue (by omega : instant ≤ change - 1) hle
      omega
    · intro hle
      exact hclock.le_reading_of_le hpos hvalue hle hafter.le

/-- Later whole hours are converted to later instants. -/
theorem instantOf_le (hclock : HourChanges reading hour apart) (hpos : 0 < hour) (hapart : hour ≤ apart)
    {instantOf : Int → Int} (hfirst : FirstReading reading instantOf) {first second : Int} (hvalue : hour ∣ first)
    (hother : hour ∣ second) (hle : first ≤ second) : instantOf first ≤ instantOf second := by
  have hreached := (hclock.le_reading_iff hpos hapart hfirst hother (instantOf second)).2 (Int.le_refl _)
  exact (hclock.le_reading_iff hpos hapart hfirst hvalue _).1 (Int.le_trans hle hreached)

end HourChanges

end WallClock
