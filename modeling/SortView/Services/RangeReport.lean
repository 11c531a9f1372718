import SortView.Services.ReportHours

/-!
# The report of a range

Every figure of a range report is the single-day figure of each day, the figures add up, and together
they count each row of the spans the eras own exactly once.
-/

namespace SortView

open PyText Buckets

variable (db : Database) (tenant : ResolvedOperationalTenant) {zone : Zone} (hzone : zone.OrderedMidnights)

/-! ### The figures of a day add up -/

include hzone in
theorem sum_hourOf (localDate : Int) :
    ((List.range wallClockHoursPerDay).map (hourOf db tenant zone localDate)).sum
      = dayOf db tenant zone (plainCheckins db.checkins) (plainCheckins db.checkinEvents) anyRow anyRow localDate := by
  have hera : ∀ {hours : Int → List Int} {start : Int → Int}, HourTiling hours start →
      ∀ (owns : CountedRow → Bool) (rows : List CountedRow),
        ((List.range wallClockHoursPerDay).map fun h =>
          countOwned owns anyRow rows ((hours localDate).getD h 0) ((hours localDate).getD (h + 1) 0)).sum
        = countOwned owns anyRow rows (start localDate) (start (localDate + 1)) := by
    intro hours start htiling owns rows
    have hboundaries : ∀ {h : Nat}, h < wallClockHoursPerDay →
        weekHour hours localDate h = (hours localDate).getD h 0
          ∧ weekHour hours localDate (h + 1) = (hours localDate).getD (h + 1) 0 := by
      intro h hh
      have hsucc := htiling.weekHour_succ localDate 0 hh
      rwa [Nat.mul_zero, Nat.zero_add, Nat.cast_zero, Int.add_zero] at hsucc
    have hfirst := (hboundaries (by decide : 0 < wallClockHoursPerDay)).1
    have hlast := (hboundaries (by decide : wallClockHoursPerDay - 1 < wallClockHoursPerDay)).2
    have hsum := sum_countOwned (htiling.monotone_weekHour localDate) owns anyRow rows wallClockHoursPerDay
    rw [hfirst, htiling.first, show wallClockHoursPerDay = wallClockHoursPerDay - 1 + 1 from rfl, hlast,
      show wallClockHoursPerDay - 1 + 1 = wallClockHoursPerDay from rfl, htiling.last] at hsum
    rw [← hsum]
    refine congrArg List.sum (List.map_congr_left ?_)
    intro h hh
    have hhour := hboundaries (List.mem_range.1 hh)
    rw [hhour.1, hhour.2]
  show ((List.range wallClockHoursPerDay).map fun h => hourOf db tenant zone localDate h).sum = _
  simp only [hourOf, bothEras]
  rw [sum_map_add, hera (hourTiling_v1 zone), hera (hourTiling_v2 hzone)]
  rfl

/-- The place of a bucket among home, the configured destinations, and other. -/
def bucketSlot (routing : RoutingConfig) : DestinationBucket → Nat
  | .home => 0
  | .transit slot => slot + 1
  | .other => routing.transit.length + 1

theorem bucketSlot_lt (routing : RoutingConfig) (stored : Option Text) :
    bucketSlot routing (routing.bucket (destinationKey stored)) < routing.transit.length + 2 := by
  cases hbucket : routing.bucket (destinationKey stored) with
  | home => exact Nat.succ_pos _
  | transit slot =>
      have hslot := RoutingConfig.slot_lt_of_bucket hbucket
      simp only [bucketSlot]
      omega
  | other => exact Nat.lt_succ_self _

theorem bucketSlot_injective {routing : RoutingConfig} {left right : DestinationBucket}
    (hleft : ∀ slot, left = .transit slot → slot < routing.transit.length)
    (hright : ∀ slot, right = .transit slot → slot < routing.transit.length)
    (h : bucketSlot routing left = bucketSlot routing right) : left = right := by
  cases left with
  | transit slot =>
      have hslot := hleft slot rfl
      cases right with
      | transit other => simpa [bucketSlot] using h
      | _ => simp only [bucketSlot] at h; omega
  | _ =>
      cases right with
      | transit other =>
          have hother := hright other rfl
          simp only [bucketSlot] at h
          omega
      | _ => first | rfl | (simp only [bucketSlot] at h; omega)

theorem sum_inDestination (routing : RoutingConfig) (owns : CountedRow → Bool) (rows : List CountedRow)
    (start stop : Int) :
    countOwned owns (inDestination routing .home) rows start stop
        + ((List.range routing.transit.length).map fun slot =>
            countOwned owns (inDestination routing (.transit slot)) rows start stop).sum
        + countOwned owns (inDestination routing .other) rows start stop
      = countOwned owns anyRow rows start stop := by
  have hclass : ∀ bucket, (∀ slot, bucket = .transit slot → slot < routing.transit.length) →
      countOwned owns (fun row => decide (bucketSlot routing (routing.bucket (destinationKey row.group))
          = bucketSlot routing bucket)) rows start stop
        = countOwned owns (inDestination routing bucket) rows start stop := by
    intro bucket hbucket
    apply List.countP_congr
    intro row _
    have hiff : bucketSlot routing (routing.bucket (destinationKey row.group)) = bucketSlot routing bucket
        ↔ routing.bucket (destinationKey row.group) = bucket := by
      constructor
      · exact bucketSlot_injective (fun slot h => RoutingConfig.slot_lt_of_bucket h) hbucket
      · intro h
        rw [h]
    simp only [inDestination, hiff]
  have hsum := sum_countOwned_classes owns
    (fun row => bucketSlot routing (routing.bucket (destinationKey row.group))) rows start stop
    (fun row => bucketSlot_lt routing row.group)
  rw [List.range_succ, List.range_succ_eq_map, List.map_append, List.map_cons, List.map_map, List.sum_append,
    List.sum_cons, List.map_singleton, List.sum_singleton] at hsum
  rw [show anyRow = fun _ => true from rfl, ← hsum]
  congr 1
  · congr 1
    · exact (hclass .home (by intro slot h; cases h)).symm
    · refine congrArg List.sum (List.map_congr_left ?_)
      intro slot hslot
      exact (hclass (.transit slot) (by rintro _ ⟨⟩; exact List.mem_range.1 hslot)).symm
  · exact (hclass .other (by intro slot h; cases h)).symm

theorem dayOf_checkinsByDestination (localDate : Int) :
    dayOf db tenant zone (checkinsByDestination db.checkins) (checkinsByDestination db.checkinEvents) anyRow anyRow
        localDate
      = dayOf db tenant zone (plainCheckins db.checkins) (plainCheckins db.checkinEvents) anyRow anyRow localDate := by
  simp only [dayOf, bothEras, countOwned, checkinsByDestination, plainCheckins, List.countP_map]
  rfl

theorem dayOf_rejectsByReason (localDate : Int) :
    dayOf db tenant zone (rejectsByReason db.rejects) (rejectsByReason db.rejectEvents) anyRow anyRow localDate
      = dayOf db tenant zone (plainRejects db.rejects) (plainRejects db.rejectEvents) anyRow anyRow localDate := by
  simp only [dayOf, bothEras, countOwned, rejectsByReason, plainRejects, List.countP_map]
  rfl

/-- Home, the configured destinations and other make up a day's check-ins. -/
theorem sum_destinations (routing : RoutingConfig) (localDate : Int) :
    dayOf db tenant zone (checkinsByDestination db.checkins) (checkinsByDestination db.checkinEvents)
          (inDestination routing .home) (inDestination routing .home) localDate
        + ((List.range routing.transit.length).map fun slot =>
            dayOf db tenant zone (checkinsByDestination db.checkins) (checkinsByDestination db.checkinEvents)
              (inDestination routing (.transit slot)) (inDestination routing (.transit slot)) localDate).sum
        + dayOf db tenant zone (checkinsByDestination db.checkins) (checkinsByDestination db.checkinEvents)
            (inDestination routing .other) (inDestination routing .other) localDate
      = dayOf db tenant zone (plainCheckins db.checkins) (plainCheckins db.checkinEvents) anyRow anyRow localDate := by
  have hv1 := sum_inDestination routing (ownedByV1 db tenant zone) (checkinsByDestination db.checkins)
    (midnight localDate) (midnight (localDate + 1))
  have hv2 := sum_inDestination routing (ownedByV2 db tenant) (checkinsByDestination db.checkinEvents)
    (localMidnightUtc zone localDate) (localMidnightUtc zone (localDate + 1))
  rw [← dayOf_checkinsByDestination db tenant localDate]
  simp only [dayOf, bothEras, sum_map_add]
  rw [← hv1, ← hv2]
  omega

/-- The reasons make up a day's rejects. -/
theorem sum_reasons (localDate : Int) :
    ((List.range rejectReasons.length).map fun slot =>
        dayOf db tenant zone (rejectsByReason db.rejects) (rejectsByReason db.rejectEvents)
          (inReason slot false) (inReason slot true) localDate).sum
      = dayOf db tenant zone (plainRejects db.rejects) (plainRejects db.rejectEvents) anyRow anyRow localDate := by
  have hera : ∀ (aware : Bool) (owns : CountedRow → Bool) (rows : List CountedRow) (start stop : Int),
      ((List.range rejectReasons.length).map fun slot => countOwned owns (inReason slot aware) rows start stop).sum
        = countOwned owns anyRow rows start stop :=
    fun aware owns rows start stop => sum_countOwned_classes owns
      (fun row => reasonSlot (reasonOfGroup aware row.group)) rows start stop fun _ => reasonSlot_lt _
  rw [← dayOf_rejectsByReason db tenant localDate]
  simp only [dayOf, bothEras, sum_map_add, hera]

include hzone in
/-- The days of a range make up the rows of the spans the eras own. -/
theorem sum_dayOf (fromDate : Int) (n : Nat) (v1Rows v2Rows : List CountedRow) :
    ((List.range n).map fun (i : Nat) => dayOf db tenant zone v1Rows v2Rows anyRow anyRow (fromDate + i)).sum
      = countRows v1Rows tenant (windowOf db tenant zone fromDate n).v1Span
        + countRows v2Rows tenant (windowOf db tenant zone fromDate n).v2Span := by
  have hv1 := sum_countOwned (monotone_midnight fromDate) (ownedByV1 db tenant zone) anyRow v1Rows n
  have hv2 := sum_countOwned (monotone_localMidnightUtc hzone fromDate) (ownedByV2 db tenant) anyRow v2Rows n
  simp only [Nat.cast_zero, Int.add_zero, Nat.cast_add, Nat.cast_one, ← Int.add_assoc] at hv1 hv2
  rw [countRows_eq_spanCount, countRows_eq_spanCount, spanCount_v1Span, spanCount_v2Span, ← hv1, ← hv2, ← sum_map_add]
  rfl

/-! ### The whole report -/

/-- The figures of a range report. -/
structure RangeFigures where
  checkins : List Nat
  rejects : List Nat
  hours : List (List Nat)
  destinations : List DestinationCounts
  reasons : RejectReasonRangeCounts

/-- The five reads of a window. -/
def readFigures (window : ReportWindow) (routing : RoutingConfig) : Except String RangeFigures := do
  return {
    checkins := ← getCheckinCountsByDay db tenant window
    rejects := ← getRejectCountsByDay db tenant window
    hours := ← getCheckinCountsByHour db tenant window
    destinations := ← getCheckinDestinationCountsByDay db tenant window routing
    reasons := ← getRejectReasonCountsByDay db tenant window }

/-- The destination counts of a single-day read. -/
def CheckinDestinationCounts.toDestinationCounts (counts : CheckinDestinationCounts) : DestinationCounts where
  homeCount := counts.homeCount
  transitCounts := counts.transitCounts
  otherCount := counts.otherCount

/-- Every figure is the single-day figure of each date, or their sum. -/
structure EqualsDailyReads (db : Database) (tenant : ResolvedOperationalTenant) (zone : Zone) (routing : RoutingConfig)
    (dates : List Int) (figures : RangeFigures) : Prop where
  checkins : figures.checkins = dates.map fun day => (getCheckinCount db tenant day zone).total
  rejects : figures.rejects = dates.map fun day => (getRejectCount db tenant day zone).total
  hours : figures.hours = dates.map fun day => (Metrics.getCheckinCountsByHour db tenant day zone).counts
  destinations : figures.destinations = dates.map fun day =>
    (getCheckinCountsByDestination db tenant day zone routing).toDestinationCounts
  reasons : figures.reasons.reasonCounts = (List.range rejectReasons.length).map fun slot =>
    (dates.map fun day => (getRejectCountsByReason db tenant day zone).counts.getD slot 0).sum
  unexpected : figures.reasons.unexpectedClassRows
    = (dates.map fun day => (getRejectCountsByReason db tenant day zone).unexpectedClassRows).sum

/-- The figures of each day agree, and the days hold the rows of the owned spans, each once. -/
structure AddsUp (db : Database) (tenant : ResolvedOperationalTenant) (window : ReportWindow) (figures : RangeFigures) :
    Prop where
  hours : figures.hours.map List.sum = figures.checkins
  destinations : figures.destinations.map DestinationCounts.total = figures.checkins
  reasonDays : figures.reasons.dayCounts = figures.rejects
  reasons : figures.reasons.reasonCounts.sum = figures.rejects.sum
  checkins : figures.checkins.sum = countRows (plainCheckins db.checkins) tenant window.v1Span
    + countRows (plainCheckins db.checkinEvents) tenant window.v2Span
  rejects : figures.rejects.sum = countRows (plainRejects db.rejects) tenant window.v1Span
    + countRows (plainRejects db.rejectEvents) tenant window.v2Span

/-- A range report succeeds, equals the single-day reads of its days, and adds up. -/
def RangeReportAgrees (db : Database) (tenant : ResolvedOperationalTenant) (zone : Zone) (routing : RoutingConfig)
    (fromDate toDate : Int) : Prop :=
  ∃ range figures, localRange fromDate toDate zone = .ok range
    ∧ (∀ day, day ∈ range.dates ↔ fromDate ≤ day ∧ day ≤ toDate) ∧ range.dates.Pairwise (· < ·)
    ∧ readFigures db tenant (reportWindow db tenant range) routing = .ok figures
    ∧ EqualsDailyReads db tenant zone routing range.dates figures
    ∧ AddsUp db tenant (reportWindow db tenant range) figures

theorem dates_rangeOf {fromDate toDate : Int} (hrange : fromDate ≤ toDate) (zone : Zone) :
    (∀ day, day ∈ (rangeOf zone fromDate ((toDate - fromDate).toNat + 1)).dates ↔ fromDate ≤ day ∧ day ≤ toDate)
      ∧ (rangeOf zone fromDate ((toDate - fromDate).toNat + 1)).dates.Pairwise (· < ·) := by
  constructor
  · intro day
    simp only [rangeOf, List.mem_map, List.mem_range]
    constructor
    · rintro ⟨offset, hoffset, rfl⟩
      omega
    · intro hday
      exact ⟨(day - fromDate).toNat, by omega, by omega⟩
  · simp only [rangeOf, List.pairwise_map]
    exact List.pairwise_lt_range.imp fun hlt => by omega

/-- The figures of a range as counts of owned rows. -/
def figuresOf (db : Database) (tenant : ResolvedOperationalTenant) (zone : Zone) (routing : RoutingConfig)
    (fromDate : Int) (n : Nat) (reasons : RejectReasonRangeCounts) : RangeFigures where
  checkins := (List.range n).map fun (i : Nat) =>
    dayOf db tenant zone (plainCheckins db.checkins) (plainCheckins db.checkinEvents) anyRow anyRow (fromDate + i)
  rejects := (List.range n).map fun (i : Nat) =>
    dayOf db tenant zone (plainRejects db.rejects) (plainRejects db.rejectEvents) anyRow anyRow (fromDate + i)
  hours := (List.range n).map fun (i : Nat) =>
    (List.range wallClockHoursPerDay).map (hourOf db tenant zone (fromDate + i))
  destinations := (List.range n).map fun (i : Nat) =>
    let count := fun bucket =>
      dayOf db tenant zone (checkinsByDestination db.checkins) (checkinsByDestination db.checkinEvents)
        (inDestination routing bucket) (inDestination routing bucket) (fromDate + i)
    { homeCount := count .home
      transitCounts := (List.range routing.transit.length).map fun slot => count (.transit slot)
      otherCount := count .other }
  reasons := reasons

include hzone in
theorem equalsDailyReads_and_addsUp (routing : RoutingConfig) (fromDate : Int) {n : Nat} (hn : 0 < n) :
    ∃ figures, readFigures db tenant (windowOf db tenant zone fromDate n) routing = .ok figures
      ∧ EqualsDailyReads db tenant zone routing (rangeOf zone fromDate n).dates figures
      ∧ AddsUp db tenant (windowOf db tenant zone fromDate n) figures := by
  have hcheckins := countsByDay_windowOf db tenant hzone fromDate hn .v1Checkins .v2Checkins rfl rfl rfl rfl
  have hrejects := countsByDay_windowOf db tenant hzone fromDate hn .v1Rejects .v2Rejects rfl rfl rfl rfl
  have hhours := getCheckinCountsByHour_windowOf db tenant hzone fromDate (n := n)
  have hdestinations := getCheckinDestinationCountsByDay_windowOf db tenant hzone fromDate routing hn
  obtain ⟨reasons, hreasons, hslots, hdays, hfigure⟩ := getRejectReasonCountsByDay_windowOf db tenant hzone fromDate hn
  refine ⟨figuresOf db tenant zone routing fromDate n reasons, ?_, ?_, ?_⟩
  · rw [readFigures, getCheckinCountsByDay, getRejectCountsByDay, hcheckins, hrejects, hhours, hdestinations, hreasons]
    rfl
  · refine ⟨?_, ?_, ?_, ?_, ?_, ?_⟩
    · simp only [figuresOf, rangeOf, List.map_map, Function.comp_def, getCheckinCount, total_dayCount]
    · simp only [figuresOf, rangeOf, List.map_map, Function.comp_def, getRejectCount, total_dayCount]
    · simp only [figuresOf, rangeOf, List.map_map, Function.comp_def, getCheckinCountsByHour_counts db tenant hzone]
    · simp only [figuresOf, rangeOf, List.map_map]
      apply List.map_congr_left
      intro i _
      obtain ⟨hhome, htransit, hother⟩ := getCheckinCountsByDestination_eq db tenant zone (fromDate + i) routing
      simp only [Function.comp_apply, CheckinDestinationCounts.toDestinationCounts, hhome, htransit, hother]
    · apply eq_map_range hslots
      intro slot hslot
      refine (hfigure (.reason slot)).trans ?_
      simp only [rangeOf, List.map_map]
      refine congrArg List.sum (List.map_congr_left ?_)
      intro i _
      rw [Function.comp_apply, (getRejectCountsByReason_eq db tenant zone (fromDate + i)).1,
        List.getD_eq_getElem _ _ (by rw [List.length_map, List.length_range]; exact hslot), List.getElem_map,
        List.getElem_range]
      rfl
    · refine (hfigure .unexpected).trans ?_
      simp only [rangeOf, List.map_map]
      refine congrArg List.sum (List.map_congr_left ?_)
      intro i _
      exact (getRejectCountsByReason_eq db tenant zone (fromDate + i)).2.symm
  · have hdayCounts : reasons.dayCounts = (List.range n).map fun (i : Nat) =>
        dayOf db tenant zone (Source.v1Rejects.rows db) (Source.v2Rejects.rows db) anyRow anyRow (fromDate + i) := by
      apply eq_map_range hdays
      intro i hi
      refine (hfigure (.day ⟨i, hi⟩)).trans ?_
      rw [ReasonFigure.covered, List.map_singleton, List.sum_singleton]
      exact dayOf_rejectsByReason db tenant (fromDate + i)
    refine ⟨?_, ?_, hdayCounts, ?_, ?_, ?_⟩
    · rw [figuresOf, List.map_map]
      apply List.map_congr_left
      intro i _
      exact sum_hourOf db tenant hzone (fromDate + i)
    · rw [figuresOf, List.map_map]
      apply List.map_congr_left
      intro i _
      exact sum_destinations db tenant routing (fromDate + i)
    · have hreasonCounts : reasons.reasonCounts = (List.range rejectReasons.length).map fun slot =>
          ((List.range n).map fun (i : Nat) =>
            dayOf db tenant zone (rejectsByReason db.rejects) (rejectsByReason db.rejectEvents)
              (inReason slot false) (inReason slot true) (fromDate + i)).sum :=
        eq_map_range hslots fun slot _ => hfigure (.reason slot)
      show reasons.reasonCounts.sum = _
      rw [hreasonCounts, sum_map_comm]
      refine congrArg List.sum (List.map_congr_left ?_)
      intro i _
      exact sum_reasons db tenant (fromDate + i)
    · exact sum_dayOf db tenant hzone fromDate n _ _
    · exact sum_dayOf db tenant hzone fromDate n _ _

/-- A range report equals the single-day reads: for every zone whose midnights do not decrease, every
range, every cutover or none, every routing configuration and all stored rows. -/
theorem range_report_equals_daily_reads (db : Database) (tenant : ResolvedOperationalTenant) {zone : Zone}
    (hzone : zone.OrderedMidnights) (routing : RoutingConfig) {fromDate toDate : Int} (hrange : fromDate ≤ toDate) :
    RangeReportAgrees db tenant zone routing fromDate toDate := by
  obtain ⟨figures, hread, hdaily, hadds⟩ :=
    equalsDailyReads_and_addsUp db tenant hzone routing fromDate (Nat.succ_pos (toDate - fromDate).toNat)
  exact ⟨_, figures, localRange_eq hrange zone, (dates_rangeOf hrange zone).1, (dates_rangeOf hrange zone).2, hread,
    hdaily, hadds⟩

/-- A zone six hours behind. -/
def sixHoursBehind : Zone where
  toUtc reading := reading + 6 * hourLength
  toLocal instant := instant - 6 * hourLength

def sampleTenant : ResolvedOperationalTenant where
  operationalCustomerId := "c".toList
  operationalBranchId := "b".toList

/-- One legacy and one current check-in and reject around a cutover at noon of day 1. -/
def sampleDatabase : Database where
  checkins := [⟨"c".toList, "b".toList, dayLength + 9 * hourLength, some "Main".toList, some "1".toList⟩]
  checkinEvents := [⟨"c".toList, "b".toList, dayLength + 20 * hourLength, none, none⟩]
  rejects := [⟨"c".toList, "b".toList, 5, some "item not found".toList⟩]
  rejectEvents := [⟨"c".toList, "b".toList, 2 * dayLength + 9 * hourLength, some "other".toList⟩]
  v2Cutovers := [⟨"c".toList, "b".toList, 0, some (dayLength + 18 * hourLength)⟩]

theorem sixHoursBehind_orderedMidnights : sixHoursBehind.OrderedMidnights := by
  intro left right hle
  simp only [sixHoursBehind, midnight, dayLength]
  omega

theorem range_report_equals_daily_reads_sample :
    ∃ figures, readFigures sampleDatabase sampleTenant
        (reportWindow sampleDatabase sampleTenant (rangeOf sixHoursBehind 0 3)) ⟨[], [homeDestinationKey], []⟩ = .ok figures
      ∧ figures.checkins = [0, 2, 0] ∧ figures.rejects = [1, 0, 1] := by
  obtain ⟨range, figures, hrange, _, _, hread, hdaily, _⟩ :=
    range_report_equals_daily_reads sampleDatabase sampleTenant sixHoursBehind_orderedMidnights ⟨[], [homeDestinationKey], []⟩
      (by decide : (0 : Int) ≤ 2)
  rw [localRange_eq (by decide)] at hrange
  cases hrange
  refine ⟨figures, hread, hdaily.checkins.trans ?_, hdaily.rejects.trans ?_⟩
  · decide +kernel
  · decide +kernel

end SortView
