import SortView.Frontend.DateRange

/-!
# Report ranges: the page and the API

When the checks of a report range raise nothing but their own refusals, and the page says of a range what the API answers.
-/

namespace SortView

namespace DateRange

open PyText Calendar FieldChecks ReportRange

/-- The refusal of the API that a problem of the page stands for. -/
def RangeProblem.failure : RangeProblem → Option Failure
  | incomplete => none
  | order => some RangeError.rangeOrder.failure
  | future => some RangeError.rangeInFuture.failure
  | tooLong => some RangeError.rangeTooLong.failure
  | beforeHistory => some ReportRange.beforeHistory

/-- A refusal with one of the fixed problems. -/
def FixedRefusal (failure : Failure) : Prop := ∃ problem : RangeProblem, problem.failure = some failure

/-- The page and the API say the same of a range. -/
inductive SameAnswer : Except Failure RequestedRange → Except String (Option RangeProblem) → Prop
  | accepted (range : RequestedRange) : SameAnswer (.ok range) (.ok none)
  | refused {problem : RangeProblem} {failure : Failure} (h : problem.failure = some failure) :
      SameAnswer (.error failure) (.ok (some problem))

theorem not_sameAnswer_error {answer : Except Failure RequestedRange} {message : String} :
    ¬ SameAnswer answer (.error message) := by
  intro h
  cases h

/-- The range of two dates, as the page has it. -/
def rangeOfDates (fromDate toDate : LocalDate) : Range := ⟨fromDate.text, toDate.text⟩

/-- The checks of a range refuse it with a fixed problem or accept it, the page passes accepted ranges only, and for dates of the
years from 100 on the two say the same. -/
structure RangeChecksAgree (zone : ProductZone) (today : LocalDate) (feature : Option Feature) (fromDate toDate : LocalDate) :
    Prop where
  total : (∃ range, requireReportRange zone.zone today feature fromDate toDate = .ok ⟨range, toDate = today⟩
      ∧ localRange fromDate.day toDate.day zone.zone = .ok range)
    ∨ ∃ failure, FixedRefusal failure ∧ requireReportRange zone.zone today feature fromDate toDate = .error failure
  page_accepted : pageProblem (rangeOfDates fromDate toDate) today.text feature = .ok none →
    ∃ range, requireReportRange zone.zone today feature fromDate toDate = .ok range
  same : 100 ≤ fromDate.date.year → 100 ≤ toDate.date.year →
    SameAnswer (requireReportRange zone.zone today feature fromDate toDate)
      (pageProblem (rangeOfDates fromDate toDate) today.text feature)

/-- A range that ends after it starts, not after today, and is not too long. -/
def Reportable (today fromDate toDate : LocalDate) : Prop :=
  fromDate.day ≤ toDate.day ∧ toDate.day ≤ today.day ∧ toDate.day - fromDate.day + 1 ≤ maxReportRangeDays

/-- The plan's history starts in the calendar. -/
def HistoryFits (today : LocalDate) (feature : Option Feature) : Prop :=
  ∀ days ∈ historyDaysLimit feature, days ≤ today.day + 1

/-- The range starts inside the plan's history. -/
def InHistory (today : LocalDate) (feature : Option Feature) (fromDate : LocalDate) : Prop :=
  ∀ days ∈ historyDaysLimit feature, (today.day : Int) + 1 ≤ fromDate.day + days

/-- The page can count back to the start of the history. -/
def PageReaches (today : LocalDate) (feature : Option Feature) : Prop :=
  ∀ days ∈ historyDays feature, 100 ≤ today.date.year ∧ days ≤ today.day + 1 + (dateReach - epochDay)

/-- The history and the midnights of a range that is looked at are in the calendar, and the page reaches the start of the
history. -/
structure InCalendar (zone : ProductZone) (today : LocalDate) (feature : Option Feature) (fromDate toDate : LocalDate) :
    Prop where
  history : Reportable today fromDate toDate → HistoryFits today feature
  midnights : Reportable today fromDate toDate → InHistory today feature fromDate → RangeFits zone.zone fromDate toDate
  page : 100 ≤ fromDate.date.year → 100 ≤ toDate.date.year → PageReaches today feature

section Checks

variable {zone : ProductZone} {today fromDate toDate : LocalDate} {feature : Option Feature}

/-! ### The order of the rules -/

/-- The problem of the page that an error of the API is. -/
def pageOf : RangeError → RangeProblem
  | .rangeOrder => .order
  | .rangeInFuture => .future
  | .rangeTooLong => .tooLong

theorem failure_pageOf (error : RangeError) : (pageOf error).failure = some error.failure := by
  cases error <;> rfl

theorem validateReportRange_ok_iff : validateReportRange fromDate toDate today = .ok () ↔ Reportable today fromDate toDate := by
  rw [validateReportRange, Reportable]
  split
  · next horder => exact ⟨(fun h => nomatch h), fun h => absurd h.1 (Nat.not_le.2 horder)⟩
  · next horder =>
    split
    · next hfuture => exact ⟨(fun h => nomatch h), fun h => absurd h.2.1 (Nat.not_le.2 hfuture)⟩
    · next hfuture =>
      split
      · next hlong => exact ⟨(fun h => nomatch h), fun h => absurd h.2.2 (Nat.not_le.2 hlong)⟩
      · next hlong => exact ⟨fun _ => ⟨Nat.not_lt.1 horder, Nat.not_lt.1 hfuture, Nat.not_lt.1 hlong⟩, fun _ => rfl⟩

theorem exists_error_of_not_reportable (h : ¬ Reportable today fromDate toDate) :
    ∃ error, validateReportRange fromDate toDate today = .error error := by
  cases hvalidate : validateReportRange fromDate toDate today with
  | error error => exact ⟨error, rfl⟩
  | ok _ => exact absurd (validateReportRange_ok_iff.1 hvalidate) h

/-- The page applies the rules of the API, in its order. -/
theorem rangeProblem_eq (today : LocalDate) (hfrom : ¬ fromDate.date.year < 100) (hto : ¬ toDate.date.year < 100) (earliest : Option Text) :
    rangeProblem (rangeOfDates fromDate toDate) today.text earliest
      = match validateReportRange fromDate toDate today with
        | .error error => some (pageOf error)
        | .ok () => if earliest.any fun earliest => !textLe earliest fromDate.text then some .beforeHistory else none := by
  rw [rangeProblem, rangeOfDates]
  dsimp only
  rw [dayNumber_text, dayNumber_text, if_neg hfrom, if_neg hto, textLe_text, textLe_text, validateReportRange]
  by_cases horder : toDate.day < fromDate.day
  · rw [if_pos horder, decide_eq_false (Nat.not_le.2 horder)]
    rfl
  · rw [if_neg horder, decide_eq_true (Nat.not_lt.1 horder)]
    by_cases hfuture : today.day < toDate.day
    · rw [if_pos hfuture, decide_eq_false (Nat.not_le.2 hfuture)]
      rfl
    · rw [if_neg hfuture, decide_eq_true (Nat.not_lt.1 hfuture)]
      have hlength : maxRangeDays < (toDate.day : Int) - fromDate.day + 1 ↔ maxReportRangeDays < toDate.day - fromDate.day + 1 := by
        rw [maxRangeDays, maxReportRangeDays]
        omega
      by_cases hlong : maxReportRangeDays < toDate.day - fromDate.day + 1
      · rw [if_pos hlong]
        dsimp only
        rw [if_neg (by decide), if_neg (by decide), if_pos (hlength.2 hlong)]
        rfl
      · rw [if_neg hlong]
        dsimp only
        rw [if_neg (by decide), if_neg (by decide), if_neg (fun h => hlong (hlength.1 h))]

/-! ### The plan's history -/

theorem historyDays_eq (feature : Option Feature) :
    historyDays feature = (historyDaysLimit feature).map fun days => if days < infinity then days else 30 := by
  have hdefault : defaultHistoryDays < infinity := by unfold defaultHistoryDays infinity; decide +kernel
  cases feature with
  | none => exact congrArg some (if_pos hdefault).symm
  | some feature =>
      rw [historyDays, historyDaysLimit]
      unfold limitOrUnlimited
      dsimp only
      split
      · exact congrArg some (if_pos hdefault).symm
      · cases feature.limitValue with
        | none => rfl
        | some limit =>
            dsimp only
            by_cases hlimit : limit ≤ 0
            · rw [if_pos hlimit, if_neg fun h => absurd h.2 (Int.not_lt.2 hlimit)]
              exact congrArg some (if_pos hdefault).symm
            · rw [if_neg hlimit, Option.map_some]
              by_cases hfinite : limit < infinity
              · rw [if_pos ⟨hfinite, Int.not_le.1 hlimit⟩, if_pos hfinite]
              · rw [if_neg fun h => hfinite h.1, if_neg hfinite]

theorem maxDays_lt : maxDays < 4000000 := by
  norm_num [maxDays, daysBefore]

theorem historyDays_of_fits (hfits : HistoryFits today feature) : historyDays feature = historyDaysLimit feature := by
  rw [historyDays_eq]
  cases hlimit : historyDaysLimit feature with
  | none => rfl
  | some days =>
      have hdays := hfits days hlimit
      have hrange := today.inRange
      have hmax := maxDays_lt
      have hinfinity : 4000000 < infinity := by unfold infinity; decide +kernel
      exact congrArg some (if_pos (by omega))

theorem earliestReportDate_of_not_fits (hfits : ¬ HistoryFits today feature) :
    earliestReportDate feature today = .error .overflowError := by
  rw [HistoryFits] at hfits
  rw [earliestReportDate]
  cases hlimit : historyDaysLimit feature with
  | none =>
      rw [hlimit] at hfits
      exact absurd (fun days hdays => nomatch hdays) hfits
  | some days =>
      rw [hlimit] at hfits
      have hlarge : ¬ days ≤ today.day + 1 := by
        intro hdays
        apply hfits
        rintro other hother
        cases hother
        exact hdays
      dsimp only
      rw [LocalDate.before_of_lt (by omega)]
      rfl

/-- The first date of a history that starts in the calendar, and its text on a page that reaches it. -/
theorem earliest_of_fits (fromDate : LocalDate) (hfits : HistoryFits today feature) :
    ∃ earliest, earliestReportDate feature today = .ok earliest
      ∧ ((earliest.any fun earliest => fromDate.day < earliest.day) = true ↔ ¬ InHistory today feature fromDate)
      ∧ (PageReaches today feature → earliestDate today.text (historyDays feature) = .ok (earliest.map LocalDate.text)) := by
  have hdays := historyDays_of_fits hfits
  rw [PageReaches, InHistory, hdays]
  rw [HistoryFits] at hfits
  rw [earliestReportDate]
  cases hlimit : historyDaysLimit feature with
  | none => exact ⟨none, rfl, by simp, fun _ => rfl⟩
  | some days =>
      have hpos := historyDaysLimit_pos hlimit
      have hle := hfits days hlimit
      have hback : days - 1 ≤ today.day := by omega
      obtain ⟨earliest, hearliest, hday⟩ := LocalDate.before_of_le (by omega) hback
      refine ⟨some earliest, ?_, ?_, ?_⟩
      · dsimp only
        rw [hearliest]
        rfl
      · simp only [Option.any_some, decide_eq_true_eq, Option.mem_some_iff, forall_eq']
        omega
      · intro hreach
        obtain ⟨hyear, hnear⟩ := hreach days rfl
        have hstart : (today.day : Int) + -(days - 1) = earliest.day := by omega
        have hmax := maxDays_lt
        have hin := earliest.inRange
        have htoday := today.inRange
        rw [earliestDate, addDays, dayNumber_text, if_neg (Nat.not_lt.2 hyear)]
        dsimp only
        rw [hstart, isoDate, if_neg]
        · rw [if_pos (Int.natCast_nonneg _), Int.toNat_natCast, isoDay, if_pos hin]
          rfl
        · rw [dateReach, epochDay] at hnear ⊢
          omega

theorem historyDays_pos {days : Int} (h : historyDays feature = some days) : 0 < days := by
  rw [historyDays_eq, Option.map_eq_some_iff] at h
  obtain ⟨limit, hlimit, rfl⟩ := h
  split
  · exact historyDaysLimit_pos hlimit
  · decide

/-- A page that reaches the start of the history has its text. -/
theorem earliestDate_of_reaches (hreach : PageReaches today feature) :
    ∃ earliest, earliestDate today.text (historyDays feature) = .ok earliest := by
  rw [PageReaches] at hreach
  cases hlimit : historyDays feature with
  | none => exact ⟨none, rfl⟩
  | some days =>
      obtain ⟨hyear, hnear⟩ := hreach days hlimit
      have hpos := historyDays_pos hlimit
      have hmax := maxDays_lt
      have htoday := today.inRange
      rw [earliestDate, addDays, dayNumber_text, if_neg (Nat.not_lt.2 hyear)]
      dsimp only
      rw [isoDate, if_neg]
      · exact ⟨_, rfl⟩
      · rw [dateReach, epochDay] at hnear ⊢
        omega

theorem earliestDate_of_not_reaches (hreach : ¬ PageReaches today feature) :
    ∃ message, earliestDate today.text (historyDays feature) = .error message := by
  rw [PageReaches] at hreach
  cases hlimit : historyDays feature with
  | none =>
      rw [hlimit] at hreach
      exact absurd (fun days hdays => nomatch hdays) hreach
  | some days =>
      rw [earliestDate, addDays, dayNumber_text]
      by_cases hyear : today.date.year < 100
      · rw [if_pos hyear]
        exact ⟨_, rfl⟩
      · rw [if_neg hyear]
        have hfar : ¬ days ≤ today.day + 1 + (dateReach - epochDay) := by
          intro hnear
          apply hreach
          intro other hother
          rw [hlimit] at hother
          cases hother
          exact ⟨Nat.not_lt.1 hyear, hnear⟩
        rw [dateReach, epochDay] at hfar
        dsimp only
        rw [isoDate, if_pos]
        · exact ⟨_, rfl⟩
        · rw [dateReach, epochDay]
          omega

/-! ### One range -/

theorem requireReportRange_of_error {error : RangeError} (h : validateReportRange fromDate toDate today = .error error)
    (zone : Zone) (feature : Option Feature) :
    requireReportRange zone today feature fromDate toDate = .error error.failure := by
  rw [requireReportRange, h]

theorem requireReportRange_of_not_fits (hreportable : Reportable today fromDate toDate) (hfits : ¬ HistoryFits today feature)
    (zone : Zone) : requireReportRange zone today feature fromDate toDate = .error .overflowError := by
  rw [requireReportRange, validateReportRange_ok_iff.2 hreportable, earliestReportDate_of_not_fits hfits]
  rfl

/-- What is answered to a range that is looked at, once the history starts in the calendar. -/
theorem requireReportRange_of_fits (hreportable : Reportable today fromDate toDate) (hfits : HistoryFits today feature) (zone : Zone) :
    (¬ InHistory today feature fromDate → requireReportRange zone today feature fromDate toDate = .error ReportRange.beforeHistory)
      ∧ (InHistory today feature fromDate → requireReportRange zone today feature fromDate toDate
          = (checkedLocalRange fromDate toDate zone).map fun range => ⟨range, toDate = today⟩) := by
  obtain ⟨earliest, hearliest, hbefore, -⟩ := earliest_of_fits fromDate hfits
  rw [requireReportRange, validateReportRange_ok_iff.2 hreportable, hearliest]
  constructor
  · intro hout
    exact if_pos (hbefore.2 hout)
  · intro hin
    have hnot : ¬ (earliest.any fun earliest => fromDate.day < earliest.day) = true := fun h => hbefore.1 h hin
    show (if _ then _ else _) = _
    rw [if_neg hnot]
    cases checkedLocalRange fromDate toDate zone <;> rfl

theorem not_fixedRefusal_overflowError : ¬ FixedRefusal .overflowError := by
  rintro ⟨problem, hproblem⟩
  cases problem <;> cases hproblem

/-- Where the arithmetic stays in the calendar, the API accepts the range or refuses it. -/
theorem total_of_inCalendar (h : InCalendar zone today feature fromDate toDate) :
    (∃ range, requireReportRange zone.zone today feature fromDate toDate = .ok ⟨range, toDate = today⟩
        ∧ localRange fromDate.day toDate.day zone.zone = .ok range)
      ∨ ∃ failure, FixedRefusal failure ∧ requireReportRange zone.zone today feature fromDate toDate = .error failure := by
  by_cases hreportable : Reportable today fromDate toDate
  · obtain ⟨hout, hin⟩ := requireReportRange_of_fits hreportable (h.history hreportable) zone.zone
    by_cases hhistory : InHistory today feature fromDate
    · obtain ⟨range, hrange, hlocal⟩ := checkedLocalRange_of_fits zone hreportable.1 (h.midnights hreportable hhistory)
      refine Or.inl ⟨range, ?_, hlocal⟩
      rw [hin hhistory, hrange]
      rfl
    · exact Or.inr ⟨_, ⟨.beforeHistory, rfl⟩, hout hhistory⟩
  · obtain ⟨error, herror⟩ := exists_error_of_not_reportable hreportable
    exact Or.inr ⟨_, ⟨pageOf error, failure_pageOf error⟩, requireReportRange_of_error herror _ _⟩

/-- What the page says of two dates that it reads, when it reaches the start of the history. -/
theorem same_of_inCalendar (h : InCalendar zone today feature fromDate toDate) (hfrom : 100 ≤ fromDate.date.year)
    (hto : 100 ≤ toDate.date.year) (hreach : PageReaches today feature) :
    SameAnswer (requireReportRange zone.zone today feature fromDate toDate)
      (pageProblem (rangeOfDates fromDate toDate) today.text feature) := by
  have hrange := fun earliest => rangeProblem_eq today (Nat.not_lt.2 hfrom) (Nat.not_lt.2 hto) earliest
  by_cases hreportable : Reportable today fromDate toDate
  · obtain ⟨earliest, -, hbefore, hpage⟩ := earliest_of_fits fromDate (h.history hreportable)
    obtain ⟨hout, hin⟩ := requireReportRange_of_fits hreportable (h.history hreportable) zone.zone
    have htexts : ((earliest.map LocalDate.text).any fun earliest => !textLe earliest fromDate.text)
        = earliest.any fun earliest => fromDate.day < earliest.day := by
      cases earliest with
      | none => rfl
      | some earliest =>
          rw [Option.map_some, Option.any_some, Option.any_some, textLe_text, ← decide_not, decide_eq_decide]
          exact Nat.not_le
    rw [pageProblem, hpage hreach]
    show SameAnswer _ (.ok (rangeProblem _ _ _))
    rw [hrange, validateReportRange_ok_iff.2 hreportable]
    dsimp only
    rw [htexts]
    by_cases hhistory : InHistory today feature fromDate
    · obtain ⟨range, hlocal, -⟩ := checkedLocalRange_of_fits zone hreportable.1 (h.midnights hreportable hhistory)
      rw [if_neg fun hany => hbefore.1 hany hhistory, hin hhistory, hlocal]
      exact .accepted _
    · rw [if_pos (hbefore.2 hhistory), hout hhistory]
      exact .refused rfl
  · obtain ⟨error, herror⟩ := exists_error_of_not_reportable hreportable
    rw [requireReportRange_of_error herror]
    obtain ⟨earliest, hearliest⟩ := earliestDate_of_reaches hreach
    rw [pageProblem, hearliest]
    show SameAnswer _ (.ok (rangeProblem _ _ _))
    rw [hrange, herror]
    exact .refused (failure_pageOf error)

/-- The page passes no range with a date that it does not read, or whose history it does not reach. -/
theorem read_of_pageProblem (h : pageProblem (rangeOfDates fromDate toDate) today.text feature = .ok none) :
    100 ≤ fromDate.date.year ∧ 100 ≤ toDate.date.year ∧ PageReaches today feature := by
  rw [pageProblem] at h
  have hreach : PageReaches today feature := by
    by_contra hfar
    obtain ⟨message, hmessage⟩ := earliestDate_of_not_reaches hfar
    rw [hmessage] at h
    cases h
  cases hearliest : earliestDate today.text (historyDays feature) with
  | error message =>
      rw [hearliest] at h
      cases h
  | ok earliest =>
      rw [hearliest] at h
      have hnone : rangeProblem (rangeOfDates fromDate toDate) today.text earliest = none := Except.ok.inj h
      rw [rangeProblem, rangeOfDates] at hnone
      dsimp only at hnone
      rw [dayNumber_text, dayNumber_text] at hnone
      by_cases hfrom : fromDate.date.year < 100
      · rw [if_pos hfrom] at hnone
        cases hnone
      · by_cases hto : toDate.date.year < 100
        · rw [if_pos hto, if_neg hfrom] at hnone
          cases hnone
        · exact ⟨Nat.not_lt.1 hfrom, Nat.not_lt.1 hto, hreach⟩

end Checks

/-- The checks of a report range are total and the page agrees with the API where the plan's history and the midnights of a range
that is looked at are in the calendar, and the page reaches the start of the history; and nowhere else. -/
theorem range_checks_agree_iff (zone : ProductZone) (today : LocalDate) (feature : Option Feature) (fromDate toDate : LocalDate) :
    RangeChecksAgree zone today feature fromDate toDate ↔ InCalendar zone today feature fromDate toDate := by
  constructor
  · intro h
    have hoverflow : requireReportRange zone.zone today feature fromDate toDate ≠ .error .overflowError := by
      intro heq
      rcases h.total with ⟨range, hok, -⟩ | ⟨failure, hfixed, herror⟩
      · rw [heq] at hok
        cases hok
      · rw [heq] at herror
        cases herror
        exact not_fixedRefusal_overflowError hfixed
    have hhistory : Reportable today fromDate toDate → HistoryFits today feature := by
      intro hreportable
      by_contra hfits
      exact hoverflow (requireReportRange_of_not_fits hreportable hfits zone.zone)
    refine ⟨hhistory, ?_, ?_⟩
    · intro hreportable hin
      by_contra hfits
      apply hoverflow
      rw [(requireReportRange_of_fits hreportable (hhistory hreportable) zone.zone).2 hin,
        checkedLocalRange_of_not_fits hreportable.1 hfits]
      rfl
    · intro hfrom hto
      by_contra hfar
      obtain ⟨message, hmessage⟩ := earliestDate_of_not_reaches hfar
      have hsame := h.same hfrom hto
      rw [pageProblem, hmessage] at hsame
      exact not_sameAnswer_error hsame
  · intro h
    refine ⟨total_of_inCalendar h, ?_, fun hfrom hto => same_of_inCalendar h hfrom hto (h.page hfrom hto)⟩
    intro hpage
    obtain ⟨hfrom, hto, hreach⟩ := read_of_pageProblem hpage
    have hsame := same_of_inCalendar h hfrom hto hreach
    rw [hpage] at hsame
    generalize requireReportRange zone.zone today feature fromDate toDate = answer at hsame ⊢
    cases hsame with
    | accepted range => exact ⟨range, rfl⟩

/-- The zone without an offset. -/
def utcZone : ProductZone where
  zone := ⟨id, id⟩
  offset_lt := fun reading => ⟨Int.sub_lt_self _ (by decide), Int.lt_add_of_pos_right _ (by decide)⟩

def sampleDate : LocalDate := ⟨739000, by unfold maxDays daysBefore; omega⟩

def longHistory : Feature := ⟨true, some 1000000⟩

/-- A history longer than the calendar makes the API fail on today's range. -/
theorem history_before_the_calendar :
    ¬ RangeChecksAgree utcZone sampleDate (some longHistory) sampleDate sampleDate
      ∧ requireReportRange utcZone.zone sampleDate (some longHistory) sampleDate sampleDate = .error .overflowError := by
  have hreportable : Reportable sampleDate sampleDate sampleDate := by
    refine ⟨Nat.le_refl _, Nat.le_refl _, ?_⟩
    rw [Nat.sub_self]
    decide
  have hfits : ¬ HistoryFits sampleDate (some longHistory) := by
    intro h
    have hdays : (1000000 : Int) ≤ (739000 : Nat) + 1 := h 1000000 rfl
    omega
  have hfails := requireReportRange_of_not_fits hreportable hfits utcZone.zone
  refine ⟨?_, hfails⟩
  intro h
  rcases h.total with ⟨range, hok, -⟩ | ⟨failure, hfixed, herror⟩
  · rw [hfails] at hok
    cases hok
  · rw [hfails] at herror
    cases herror
    exact not_fixedRefusal_overflowError hfixed

end DateRange

end SortView
