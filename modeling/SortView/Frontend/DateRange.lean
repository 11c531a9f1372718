import SortView.Frontend.FieldChecks
import SortView.Services.ReportRange

/-!
# The range control of a report page

`frontend/src/reports/dateRange.ts` and `historyDays` of `frontend/src/pages/capabilities.ts`. A day is numbered from 0001-01-01.
-/

namespace SortView

namespace DateRange

open PyText Calendar FieldChecks ReportRange

/-! ### Dates of the page -/

/-- The day number of 1970-01-01. -/
def epochDay : Int := 719162

/-- The days a `Date` reaches from its epoch. -/
def dateReach : Int := 100000000

/-- The days of 400 years. -/
def cycleDays : Int := 146097

/-- `toISOString().slice(0, 10)` of a day before 0001-01-01: the year 0, or a sign and six digits. -/
def isoDayBefore (day : Int) : Text :=
  let date := dateOf (day % cycleDays).toNat
  let year := (date.year : Int) + 400 * (day / cycleDays)
  let monthAndDay := '-' :: (padded 2 date.month ++ '-' :: padded 2 date.day)
  (if year = 0 then padded 4 0 ++ monthAndDay else '-' :: (padded 6 year.natAbs ++ monthAndDay)).take 10

/-- `new Date(day * MS_PER_DAY).toISOString().slice(0, 10)`. -/
def isoDate (day : Int) : Except String Text :=
  if dateReach < (day - epochDay).natAbs then .error "Invalid time value"
  else .ok (if 0 ≤ day then isoDay day.toNat else isoDayBefore day)

/-- `dayNumber`: none is null. -/
def dayNumber (date : Text) : Option Nat :=
  match calendarDate date with
  | none => none
  | some (year, month, day) =>
      if isoDay (utcDay year month day) = date then some (utcDay year month day) else none

/-- `addDays`. -/
def addDays (date : Text) (days : Int) : Except String Text :=
  match dayNumber date with
  | none => .error "Not a calendar date."
  | some start => isoDate (start + days)

structure Range where
  fromDate : Text
  toDate : Text

/-! ### The plan's history -/

/-- Whole numbers from here on are read as `Infinity`. -/
def infinity : Int := 2 ^ 1024 - 2 ^ 970

/-- `historyDays`: none is null. Past 2 ^ 53 a number is rounded, and stays as far out of a `Date`'s reach. -/
def historyDays (feature : Option Feature) : Option Int :=
  match feature with
  | none => some 30
  | some feature =>
      if !feature.enabled then some 30
      else
        match feature.limitValue with
        | none => none
        | some limit => if limit < infinity ∧ 0 < limit then some limit else some 30

/-- `earliestDate`: none is null. -/
def earliestDate (today : Text) (historyDays : Option Int) : Except String (Option Text) :=
  match historyDays with
  | none => .ok none
  | some days => (addDays today (-(days - 1))).map some

/-! ### What is wrong with a range -/

/-- `MAX_RANGE_DAYS`. -/
def maxRangeDays : Int := 3660

inductive RangeProblem where
  | incomplete
  | order
  | future
  | tooLong
  | beforeHistory
  deriving DecidableEq

/-- `rangeProblem`: none is null. -/
def rangeProblem (range : Range) (today : Text) (earliest : Option Text) : Option RangeProblem :=
  match dayNumber range.fromDate, dayNumber range.toDate with
  | some first, some last =>
      if !textLe range.fromDate range.toDate then some .order
      else if !textLe range.toDate today then some .future
      else if maxRangeDays < (last : Int) - first + 1 then some .tooLong
      else if earliest.any fun earliest => !textLe earliest range.fromDate then some .beforeHistory
      else none
  | _, _ => some .incomplete

/-- What a report page says of a typed range. -/
def pageProblem (range : Range) (today : Text) (feature : Option Feature) : Except String (Option RangeProblem) := do
  let earliest ← earliestDate today (historyDays feature)
  return rangeProblem range today earliest

/-! ### The dates of the API, on the page -/

/-- A text of digits is the text of a day of the calendar only. -/
theorem eq_of_isoDay_eq_text {day : Nat} {localDate : LocalDate} (h : isoDay day = localDate.text) : day = localDate.day := by
  have hvalid := valid_dateOf localDate.inRange
  rw [isoDay] at h
  split at h
  · next hday =>
    have hread := readDate_written (valid_dateOf hday) []
    rw [h, LocalDate.text, LocalDate.date, readDate_written hvalid] at hread
    have hdate : dateOf localDate.day = dateOf day := congrArg Prod.fst (Option.some.inj hread)
    rw [← number_dateOf day, ← hdate, number_dateOf]
  · exfalso
    have hread := readDate_written hvalid []
    rw [List.append_nil, ← LocalDate.date, ← LocalDate.text, ← h, readDate] at hread
    simp only [Option.bind_eq_bind] at hread
    obtain ⟨⟨value, rest⟩, hyear, -⟩ := Option.bind_eq_some_iff.1 hread
    exact absurd (isDigit_of_number hyear) (by decide)

theorem calendarDate_written {date : Date} (hvalid : date.Valid) :
    calendarDate date.written = some (date.year, date.month, date.day) := by
  obtain ⟨-, hyear, -, hmonth, -, hday⟩ := id hvalid
  have hlengths : ∀ leap, ∀ month < 12, (monthLengths leap).getD month 0 ≤ 31 := by decide
  have hlength := hlengths (isLeap date.year) (date.month - 1) (by omega)
  have htwo : date.day < 10 ^ 2 := by omega
  have hlast := number_padded (by decide) htwo []
  rw [List.append_nil] at hlast
  rw [Date.written, calendarDate, number_padded (by decide) (by omega)]
  simp only [Option.bind_eq_bind, Option.bind_some, literal_cons]
  rw [number_padded (by decide) (by omega)]
  simp only [Option.bind_some, literal_cons]
  rw [hlast]
  rfl

theorem utcDay_eq {date : Date} (hvalid : date.Valid) (hyear : 100 ≤ date.year) :
    utcDay date.year date.month date.day = date.number := by
  obtain ⟨-, -, hlow, hhigh, hday, -⟩ := hvalid
  have hlate : ¬ date.year ≤ 99 := by omega
  have hyears : (date.year * 12 + date.month - 1) / 12 = date.year := by omega
  have hmonths : (date.year * 12 + date.month - 1) % 12 + 1 = date.month := by omega
  rw [utcDay, if_neg hlate, hyears, hmonths, Date.number]
  omega

/-- A day of the first centuries is before the days that the page reads for its text. -/
theorem lt_utcDay {date : Date} (hvalid : date.Valid) (hyear : date.year < 100) :
    daysBefore 1800 < utcDay date.year date.month date.day := by
  obtain ⟨-, -, hlow, hhigh, hday, -⟩ := hvalid
  have hyears : ((1900 + date.year) * 12 + date.month - 1) / 12 = 1900 + date.year := by omega
  have hbefore : daysBefore 1800 < daysBefore (1900 + date.year - 1) := by
    unfold daysBefore
    omega
  rw [utcDay, if_pos (by omega), hyears]
  omega

theorem lt_daysBefore_of_year {localDate : LocalDate} (hyear : localDate.date.year < 100) : localDate.day < daysBefore 1800 := by
  have hnext : localDate.day < daysBefore (localDate.date.year - 1 + 1) := lt_daysBefore_succ_yearsPassed localDate.day
  have hmono : daysBefore (localDate.date.year - 1 + 1) ≤ daysBefore 1800 := by
    unfold daysBefore
    omega
  omega

/-- The page reads the dates of the years from 100 on, and no others. -/
theorem dayNumber_text (localDate : LocalDate) :
    dayNumber localDate.text = if localDate.date.year < 100 then none else some localDate.day := by
  have hvalid := valid_dateOf localDate.inRange
  have hcalendar := calendarDate_written hvalid
  rw [dayNumber, LocalDate.text, LocalDate.date, hcalendar]
  dsimp only
  split
  · next htext =>
    have hday : utcDay (dateOf localDate.day).year (dateOf localDate.day).month (dateOf localDate.day).day = localDate.day :=
      eq_of_isoDay_eq_text htext
    have hlate : ¬ (dateOf localDate.day).year < 100 := by
      intro hearly
      have hafter := lt_utcDay hvalid hearly
      have hbefore : localDate.day < daysBefore 1800 := lt_daysBefore_of_year hearly
      omega
    rw [if_neg hlate, hday]
  · next htext =>
    have hearly : (dateOf localDate.day).year < 100 := by
      by_contra hlate
      apply htext
      rw [utcDay_eq hvalid (Nat.not_lt.1 hlate), number_dateOf, isoDay, if_pos localDate.inRange]
    rw [if_pos hearly]

theorem daysBeforeMonth_mono (leap : Bool) : ∀ first < 13, ∀ second < 13, 0 < first → first < second →
    daysBeforeMonth leap first + (monthLengths leap).getD (first - 1) 0 ≤ daysBeforeMonth leap second := by
  revert leap
  decide +kernel

theorem daysBefore_mono : Monotone daysBefore := by
  apply monotone_nat_of_le_succ
  intro years
  rw [daysBefore_succ, Nat.add_assoc]
  exact Nat.le_add_right ..

/-- The later of two days is the later date. -/
theorem dateAfter_of_lt {small large : Nat} (hlarge : large < maxDays) (h : small < large) :
    dateAfter (dateOf large) (dateOf small) = true := by
  have hsmall := h.trans hlarge
  have hvalid := valid_dateOf hsmall
  have hvalidLarge := valid_dateOf hlarge
  have hnumber := number_dateOf small
  have hnumberLarge := number_dateOf large
  rw [dateAfter]
  simp only [Bool.or_eq_true, Bool.and_eq_true, decide_eq_true_eq]
  obtain ⟨hyear, -, hmonth, hmonthHigh, hday, hlength⟩ := hvalid
  obtain ⟨hyear', -, hmonth', hmonthHigh', hday', hlength'⟩ := hvalidLarge
  rcases Nat.lt_trichotomy (dateOf small).year (dateOf large).year with hlt | heq | hgt
  · exact Or.inl hlt
  · refine Or.inr ⟨heq, ?_⟩
    rw [Date.number] at hnumber hnumberLarge
    rw [heq] at hnumber hlength
    rcases Nat.lt_trichotomy (dateOf small).month (dateOf large).month with hlt | hsame | hgt
    · exact Or.inl hlt
    · refine Or.inr ⟨hsame, ?_⟩
      rw [hsame] at hnumber
      omega
    · exfalso
      have hmonths := daysBeforeMonth_mono (isLeap (dateOf large).year) _ (by omega) _ (by omega) (by omega) hgt
      omega
  · exfalso
    have hend := lt_daysBefore_succ_yearsPassed large
    have hstart := daysBefore_yearsPassed_le small
    have hyears : yearsPassed large + 1 ≤ yearsPassed small := by
      have hfirst : (dateOf small).year = yearsPassed small + 1 := rfl
      have hsecond : (dateOf large).year = yearsPassed large + 1 := rfl
      omega
    have hmono := daysBefore_mono hyears
    omega

/-- The texts of dates compare as the dates. -/
theorem textLe_text (left right : LocalDate) : textLe left.text right.text = decide (left.day ≤ right.day) := by
  rcases Nat.lt_trichotomy left.day right.day with hlt | heq | hgt
  · have hlater := textLt_of_dateAfter (valid_dateOf right.inRange) (dateAfter_of_lt right.inRange hlt)
    rw [decide_eq_true hlt.le]
    exact hlater.1
  · rw [LocalDate.text, LocalDate.text, LocalDate.date, LocalDate.date, heq, decide_eq_true (Nat.le_refl _)]
    rcases textLe_total (dateOf right.day).written (dateOf right.day).written with h | h <;> exact h
  · have hlater := textLt_of_dateAfter (valid_dateOf left.inRange) (dateAfter_of_lt left.inRange hgt)
    rw [decide_eq_false (Nat.not_le.2 hgt)]
    by_contra hle
    rw [Bool.not_eq_false] at hle
    exact hlater.2 (textLe_antisymm hlater.1 hle)

end DateRange

end SortView
