import SortView.Lib.WallClock
import SortView.Services.ReportHours

/-!
# The wall-clock hours of a day

The boundaries of `local_hour_boundaries` tile the day in any zone. Where the clock changes by one hour and at whole
hours, hour `H` of the day is when the clock reads `H:xx`: twice over when it is put back, not at all when it is skipped.
-/

namespace SortView

open PyText Buckets WallClock

/-- The hour a local reading shows. -/
def readHour (reading : Int) : Int := reading % dayLength / hourLength

/-- The clock changes by one hour, at a whole hour, no sooner than two days after the last change, and readings are
converted as `datetime` documents for `fold=0`. -/
structure Zone.ChangesByTheHour (zone : Zone) : Prop where
  changes : HourChanges zone.toLocal hourLength (2 * dayLength)
  converts : FirstReading zone.toLocal zone.toUtc

/-! ### The hours tile the day -/

section Tiling

variable {hours : Int → List Int} {start : Int → Int}

/-- Every instant of a day is in one hour of it. -/
theorem HourTiling.exists_hour (htiling : HourTiling hours start) {localDate instant : Int} (hfrom : start localDate ≤ instant)
    (hbelow : instant < start (localDate + 1)) :
    ∃ h < wallClockHoursPerDay, (hours localDate).getD h 0 ≤ instant ∧ instant < (hours localDate).getD (h + 1) 0 := by
  have hlength := htiling.length localDate
  have hfirst : (hours localDate).getD 0 0 ∈ hours localDate := by
    rw [List.getD_eq_getElem _ _ (by omega)]
    exact List.getElem_mem _
  have hlast : (hours localDate).getD wallClockHoursPerDay 0 ∈ hours localDate := by
    rw [List.getD_eq_getElem _ _ (by omega)]
    exact List.getElem_mem _
  rw [htiling.first] at hfirst
  rw [htiling.last] at hlast
  obtain ⟨hpos, hle⟩ := widthBucket_bounds hfirst hfrom hlast hbelow
  obtain ⟨h, hh⟩ := Nat.exists_eq_add_of_le' hpos
  refine ⟨h, by omega, ?_⟩
  rw [List.getD_eq_getElem _ _ (by omega), List.getD_eq_getElem _ _ (by omega)]
  exact (widthBucket_eq_succ_iff (htiling.sorted localDate) (by omega)).1 hh

/-- No instant is in two hours of a day. -/
theorem HourTiling.hour_unique (htiling : HourTiling hours start) {localDate instant : Int} {h other : Nat}
    (hh : h < wallClockHoursPerDay) (hother : other < wallClockHoursPerDay)
    (hin : (hours localDate).getD h 0 ≤ instant ∧ instant < (hours localDate).getD (h + 1) 0)
    (hin' : (hours localDate).getD other 0 ≤ instant ∧ instant < (hours localDate).getD (other + 1) 0) : h = other := by
  have hlength := htiling.length localDate
  have hbucket : ∀ {i : Nat}, i < wallClockHoursPerDay →
      (hours localDate).getD i 0 ≤ instant ∧ instant < (hours localDate).getD (i + 1) 0 →
        widthBucket instant (hours localDate) = i + 1 := by
    intro i hi hmem
    rw [List.getD_eq_getElem _ _ (by omega), List.getD_eq_getElem _ _ (by omega)] at hmem
    exact (widthBucket_eq_succ_iff (htiling.sorted localDate) (by omega)).2 hmem
  have hsame := (hbucket hh hin).symm.trans (hbucket hother hin')
  omega

end Tiling

/-! ### Whole hours of the local clock -/

/-- The instants that readings on the hour are converted to, from hour `first` on. -/
def hourInstant (zone : Zone) (localDate : Int) (hour : Nat) : Int := zone.toUtc (midnight localDate + hour * hourLength)

/-- Instants in order and within the day are held where they are. -/
theorem heldInstants_eq {zone : Zone} {localDate dayEnd : Int} (hmono : Monotone (hourInstant zone localDate)) (first n : Nat)
    (hend : hourInstant zone localDate (first + n) ≤ dayEnd) :
    heldInstants zone localDate dayEnd (hourInstant zone localDate first) (List.range' (first + 1) n)
      = (List.range' (first + 1) n).map (hourInstant zone localDate) := by
  induction n generalizing first with
  | zero => rfl
  | succ n ih =>
      have hnext : hourInstant zone localDate first ≤ hourInstant zone localDate (first + 1) := hmono (Nat.le_succ first)
      have hday : hourInstant zone localDate (first + 1) ≤ dayEnd := Int.le_trans (hmono (by omega)) hend
      have hheld : min (max (zone.toUtc (midnight localDate + (first + 1 : Nat) * hourLength)) (hourInstant zone localDate first)) dayEnd
          = hourInstant zone localDate (first + 1) := by
        rw [← hourInstant, max_eq_left hnext, min_eq_left hday]
      rw [List.range'_succ, List.map_cons, heldInstants, hheld]
      congr 1
      apply ih
      rw [Nat.add_right_comm, Nat.add_assoc]
      exact hend

theorem hourInstant_zero (zone : Zone) (localDate : Int) : hourInstant zone localDate 0 = localMidnightUtc zone localDate := by
  rw [hourInstant, localMidnightUtc, Nat.cast_zero, Int.zero_mul, Int.add_zero]

theorem hourInstant_last (zone : Zone) (localDate : Int) :
    hourInstant zone localDate wallClockHoursPerDay = localMidnightUtc zone (localDate + 1) := by
  have hreading : midnight localDate + (wallClockHoursPerDay : Nat) * hourLength = midnight (localDate + 1) := by
    simp only [midnight, dayLength, hourLength, wallClockHoursPerDay]
    omega
  rw [hourInstant, hreading, localMidnightUtc]

/-- Where the conversions are in order, nothing is held back: the boundaries are the conversions. -/
theorem v2Hours_eq {zone : Zone} {localDate : Int} (hmono : Monotone (hourInstant zone localDate)) :
    v2Hours zone localDate = (List.range (wallClockHoursPerDay + 1)).map (hourInstant zone localDate) := by
  have hlast : hourInstant zone localDate (0 + (wallClockHoursPerDay - 1)) ≤ hourInstant zone localDate wallClockHoursPerDay :=
    hmono (by decide)
  have hheld := heldInstants_eq hmono 0 (wallClockHoursPerDay - 1) hlast
  rw [Nat.zero_add, hourInstant_zero, hourInstant_last] at hheld
  have hrange : List.range (wallClockHoursPerDay + 1) = 0 :: List.range' 1 (wallClockHoursPerDay - 1) ++ [wallClockHoursPerDay] := by
    decide
  simp only [v2Hours, localHourBoundaries, localDayBounds]
  rw [hheld, hrange, List.map_append, List.map_cons, List.map_singleton, hourInstant_zero, hourInstant_last]

theorem dvd_hourReading (localDate : Int) (hour : Nat) : hourLength ∣ midnight localDate + hour * hourLength := by
  refine ⟨localDate * 24 + hour, ?_⟩
  simp only [midnight, dayLength, hourLength]
  omega

namespace Zone.ChangesByTheHour

variable {zone : Zone} (hzone : zone.ChangesByTheHour)

include hzone

/-- The clock reads an hour of a date or later from the instant on that the hour is converted to. -/
theorem hourInstant_le_iff (localDate : Int) (hour : Nat) (instant : Int) :
    hourInstant zone localDate hour ≤ instant ↔ midnight localDate + hour * hourLength ≤ zone.toLocal instant :=
  (hzone.changes.le_reading_iff (by decide) (by decide) hzone.converts (dvd_hourReading localDate hour) instant).symm

theorem monotone_hourInstant (localDate : Int) : Monotone (hourInstant zone localDate) := by
  intro first second hle
  apply hzone.changes.instantOf_le (by decide) (by decide) hzone.converts (dvd_hourReading localDate first)
    (dvd_hourReading localDate second)
  simp only [hourLength]
  omega

theorem orderedMidnights : zone.OrderedMidnights := by
  apply monotone_int_of_le_succ
  intro localDate
  have hday := hzone.monotone_hourInstant localDate (Nat.zero_le wallClockHoursPerDay)
  rw [hourInstant_zero, hourInstant_last] at hday
  exact hday

/-- Hour `h` of a date is when the clock reads that hour of that date. -/
theorem mem_hour_iff (localDate instant : Int) {h : Nat} (hh : h < wallClockHoursPerDay) :
    ((v2Hours zone localDate).getD h 0 ≤ instant ∧ instant < (v2Hours zone localDate).getD (h + 1) 0)
      ↔ midnight localDate + h * hourLength ≤ zone.toLocal instant
        ∧ zone.toLocal instant < midnight localDate + (h + 1 : Nat) * hourLength := by
  rw [v2Hours_eq (hzone.monotone_hourInstant localDate), getD_map_range _ (by omega), getD_map_range _ (by omega),
    hzone.hourInstant_le_iff, ← Int.not_le, hzone.hourInstant_le_iff, Int.not_le]

/-- At every instant of a day the clock reads that date. -/
theorem reading_of_day {localDate instant : Int} (hfrom : localMidnightUtc zone localDate ≤ instant)
    (hbelow : instant < localMidnightUtc zone (localDate + 1)) :
    midnight localDate ≤ zone.toLocal instant ∧ zone.toLocal instant < midnight localDate + dayLength := by
  rw [← hourInstant_zero, hzone.hourInstant_le_iff] at hfrom
  rw [← hourInstant_last, ← Int.not_le, hzone.hourInstant_le_iff, Int.not_le] at hbelow
  simp only [wallClockHoursPerDay, hourLength, dayLength] at hfrom hbelow ⊢
  omega

end Zone.ChangesByTheHour

/-- The hours of a local day: twenty-five instants that tile the day in every zone, and where clocks change by the hour,
the hours that the clock reads. Days are without end here; a report leaves out, by `checkedDayBounds`, those whose midnights
are not in the calendar (`of_checkedDayBounds`). -/
theorem wall_clock_hours_of_a_day (zone : Zone) (localDate : Int) :
    let start := localMidnightUtc zone localDate
    let stop := localMidnightUtc zone (localDate + 1)
    let boundaries := v2Hours zone localDate
    (zone.OrderedMidnights →
      boundaries.length = wallClockHoursPerDay + 1 ∧ boundaries.Pairwise (· ≤ ·)
        ∧ boundaries.head? = some start ∧ boundaries.getLast? = some stop
        ∧ ∀ instant, start ≤ instant → instant < stop →
          ∃! h, h < wallClockHoursPerDay ∧ boundaries.getD h 0 ≤ instant ∧ instant < boundaries.getD (h + 1) 0)
      ∧ (zone.ChangesByTheHour → ∀ instant, start ≤ instant → instant < stop → ∀ h < wallClockHoursPerDay,
          (boundaries.getD h 0 ≤ instant ∧ instant < boundaries.getD (h + 1) 0) ↔ readHour (zone.toLocal instant) = h) := by
  intro start stop boundaries
  constructor
  · intro hzone
    have htiling := hourTiling_v2 hzone
    refine ⟨htiling.length localDate, htiling.sorted localDate, rfl, ?_, ?_⟩
    · exact List.getLast?_concat
    · intro instant hfrom hbelow
      obtain ⟨h, hh, hin⟩ := htiling.exists_hour hfrom hbelow
      refine ⟨h, ⟨hh, hin⟩, ?_⟩
      intro other hother
      exact htiling.hour_unique hother.1 hh hother.2 hin
  · intro hzone instant hfrom hbelow h hh
    obtain ⟨hstart, hstop⟩ := hzone.reading_of_day hfrom hbelow
    rw [hzone.mem_hour_iff localDate instant hh, readHour]
    simp only [midnight, dayLength, hourLength, wallClockHoursPerDay] at *
    omega

/-- A clock that is put forward at two in the morning of day zero. -/
def springZone : Zone where
  toUtc reading := if reading < 3 * hourLength then reading else reading - hourLength
  toLocal instant := if instant < 2 * hourLength then instant else instant + hourLength

theorem springZone_changesByTheHour : springZone.ChangesByTheHour where
  changes := by
    constructor <;> simp only [Changes, springZone, hourLength, dayLength] <;> grind
  converts value := by
    simp only [springZone, hourLength]
    by_cases hskipped : 7200000000 ≤ value ∧ value < 10800000000
    · right
      refine ⟨7200000000, ?_, ?_, ?_⟩ <;> grind
    · left
      constructor
      · grind
      · intro instant hreads
        grind

theorem springZone_orderedMidnights : springZone.OrderedMidnights := springZone_changesByTheHour.orderedMidnights

/-- The instant of that change reads three o'clock, and is in hour three of a day that is cut into twenty-four. -/
theorem wall_clock_hours_of_a_spring_day :
    (v2Hours springZone 0).length = 25
      ∧ (v2Hours springZone 0).getD 3 0 ≤ 2 * hourLength ∧ 2 * hourLength < (v2Hours springZone 0).getD 4 0 :=
  ⟨((wall_clock_hours_of_a_day springZone 0).1 springZone_orderedMidnights).1,
    ((wall_clock_hours_of_a_day springZone 0).2 springZone_changesByTheHour (2 * hourLength) (by decide) (by decide) 3
      (by decide)).2 (by decide)⟩

end SortView
