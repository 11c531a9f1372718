import SortView.Lib.Slices
import SortView.Services.OperationalMetrics

/-!
# Range reports

`services/operational_report_service.py`: a range of local days, the part of it each era owns, and the
counts of every day of the range from one statement per era (or per stretch of days).
-/

namespace SortView

open PyText Buckets

/-- `_HOUR_BUCKET_DAYS_PER_STATEMENT`. -/
def hourBucketDaysPerStatement : Nat := 366

structure LocalRange where
  zone : Zone
  dates : List Int
  v1DayBoundariesLocal : List Int
  v2DayBoundariesUtc : List Int

def LocalRange.days (range : LocalRange) : Nat := range.dates.length

def localRange (fromDate toDate : Int) (zone : Zone) : Except String LocalRange :=
  if toDate < fromDate then .error "a range must not end before it starts"
  else
    let dates := (List.range ((toDate - fromDate).toNat + 1)).map fun (offset : Nat) => fromDate + offset
    let bounds := dates.map fun day => localDayBounds day zone
    .ok {
      zone := zone
      dates := dates
      v1DayBoundariesLocal :=
        bounds.map LocalDayBounds.v1StartLocal ++ (bounds.getLast?.map LocalDayBounds.v1EndLocal).toList
      v2DayBoundariesUtc :=
        bounds.map LocalDayBounds.v2StartUtc ++ (bounds.getLast?.map LocalDayBounds.v2EndUtc).toList }

structure ReportWindow where
  localRange : LocalRange
  v1Span : Option (Int × Int)
  v2Span : Option (Int × Int)

def reportWindow (db : Database) (tenant : ResolvedOperationalTenant) (range : LocalRange) : ReportWindow :=
  let rangeStartLocal := range.v1DayBoundariesLocal.headD 0
  let rangeEndLocal := range.v1DayBoundariesLocal.getLastD 0
  let rangeStartUtc := range.v2DayBoundariesUtc.headD 0
  let rangeEndUtc := range.v2DayBoundariesUtc.getLastD 0
  match getEffectiveCutover db tenant with
  | none =>
      { localRange := range
        v1Span := if rangeStartLocal < rangeEndLocal then some (rangeStartLocal, rangeEndLocal) else none
        v2Span := none }
  | some cutoverAt =>
      let boundary := cutoverBoundary cutoverAt range.zone
      let v1EndLocal := min rangeEndLocal boundary.cutoverLocalNaive
      let v2StartUtc := max rangeStartUtc boundary.cutoverUtc
      { localRange := range
        v1Span := if rangeStartLocal < v1EndLocal then some (rangeStartLocal, v1EndLocal) else none
        v2Span := if v2StartUtc < rangeEndUtc then some (v2StartUtc, rangeEndUtc) else none }

/-! ### Counting rows between consecutive boundaries -/

/-- `_SOURCES`: every source a count statement is built from. -/
inductive Source where
  | v1Checkins
  | v2Checkins
  | v1Rejects
  | v2Rejects
  | v1CheckinsByDestination
  | v2CheckinsByDestination
  | v1RejectsByMessage
  | v2RejectsByClass
  | v1CheckinsByBin
  | v2CheckinsByBin

namespace Source

/-- Whether the table keeps instants. -/
def aware : Source → Bool
  | v1Checkins | v1Rejects | v1CheckinsByDestination | v1RejectsByMessage | v1CheckinsByBin => false
  | v2Checkins | v2Rejects | v2CheckinsByDestination | v2RejectsByClass | v2CheckinsByBin => true

/-- `group_column is not None`. -/
def grouped : Source → Bool
  | v1Checkins | v2Checkins | v1Rejects | v2Rejects => false
  | _ => true

/-- The table, with the column that is grouped by. -/
def rows (db : Database) : Source → List CountedRow
  | v1Checkins => plainCheckins db.checkins
  | v2Checkins => plainCheckins db.checkinEvents
  | v1Rejects => plainRejects db.rejects
  | v2Rejects => plainRejects db.rejectEvents
  | v1CheckinsByDestination => checkinsByDestination db.checkins
  | v2CheckinsByDestination => checkinsByDestination db.checkinEvents
  | v1RejectsByMessage => rejectsByReason db.rejects
  | v2RejectsByClass => rejectsByReason db.rejectEvents
  | v1CheckinsByBin => checkinsByBin db.checkins
  | v2CheckinsByBin => checkinsByBin db.checkinEvents

end Source

/-- The rows of one count statement: a group, a bucket, and how many rows are in both. -/
def bucketCountRows (rows : List CountedRow) (tenant : ResolvedOperationalTenant) (span : Int × Int)
    (boundaries : List Int) : List ((Option Text × Nat) × Nat) :=
  groupCount ((rows.filter (CountedRow.inScope tenant span)).map fun row =>
    (row.group, widthBucket row.eventTime boundaries))

/-- One row of the answer, added to the counts of its group. -/
def addBucketRow (buckets : Nat) (countsByGroup : Dict (Option Text) (List Nat)) (row : (Option Text × Nat) × Nat) :
    Except String (Dict (Option Text) (List Nat)) :=
  if 1 ≤ row.1.2 ∧ row.1.2 ≤ buckets then
    let counts := (countsByGroup.get? row.1.1).getD (List.replicate buckets 0)
    .ok (countsByGroup.set row.1.1 (addTo counts (row.1.2 - 1) row.2))
  else .error "a count statement placed a row outside the intervals it was given"

/-- `_execute_bucket_count`: one count per interval, for each stored value or (`none`) for all rows. -/
def executeBucketCount (db : Database) (tenant : ResolvedOperationalTenant) (source : Source) (span : Int × Int)
    (boundaries : List Int) : Except String (List (Option Text × List Nat)) :=
  let buckets := boundaries.length - 1
  if buckets < 1 then .error "a count statement needs at least one bucket"
  else do
    let countsByGroup ←
      (bucketCountRows (source.rows db) tenant span boundaries).foldlM (addBucketRow buckets) Dict.empty
    if source.grouped then return countsByGroup.entries
    else return [(none, (countsByGroup.get? none).getD (List.replicate buckets 0))]

/-- `_bucket_counts`. -/
def bucketCounts (counts : List Nat) (buckets : Nat) : Except String (List Nat) :=
  if counts.length ≠ buckets then .error "a count statement returned a different number of counts than it has buckets"
  else .ok counts

/-- `_eras`: source, owned span and day boundaries of each era that owns part of the window. -/
def eras (window : ReportWindow) (v1Source v2Source : Source) : List (Source × (Int × Int) × List Int) :=
  (window.v1Span.map fun span => (v1Source, span, window.localRange.v1DayBoundariesLocal)).toList
    ++ (window.v2Span.map fun span => (v2Source, span, window.localRange.v2DayBoundariesUtc)).toList

section Reports

variable (db : Database) (tenant : ResolvedOperationalTenant) (window : ReportWindow)

/-! ### Check-ins and rejects by day -/

def addEraCounts (totals : List Nat) (era : Source × (Int × Int) × List Int) : Except String (List Nat) := do
  let rows ← executeBucketCount db tenant era.1 era.2.1 era.2.2
  let counts ← bucketCounts ((rows.head?.map Prod.snd).getD []) window.localRange.days
  return totals.zipWith (· + ·) counts

def countsByDay (v1Source v2Source : Source) : Except String (List Nat) :=
  (eras window v1Source v2Source).foldlM (addEraCounts db tenant window) (List.replicate window.localRange.days 0)

def getCheckinCountsByDay : Except String (List Nat) := countsByDay db tenant window .v1Checkins .v2Checkins

def getRejectCountsByDay : Except String (List Nat) := countsByDay db tenant window .v1Rejects .v2Rejects

/-! ### Check-ins by day and hour -/

/-- `_week_boundaries`: each day's first 24 boundaries, then the last day's end. -/
def weekBoundaries (days : List (List Int)) : List Int :=
  days.flatMap (·.take wallClockHoursPerDay) ++ (days.getLast?.bind List.getLast?).toList

/-- What one era owns of a stretch of days, with the boundaries of its hours. -/
def weekOfEra (first : Nat) (source : Source) (span : Option (Int × Int)) (boundaries : List Int) :
    List (Nat × Source × (Int × Int) × List Int) :=
  match span with
  | none => []
  | some span =>
      let owned := (max span.1 (boundaries.headD 0), min span.2 (boundaries.getLastD 0))
      if owned.2 ≤ owned.1 then [] else [(first, source, owned, boundaries)]

/-- `_weeks_of_hours`: the statements of an hourly count, a stretch of days at a time. -/
def weeksOfHours (v1Source v2Source : Source) : List (Nat × Source × (Int × Int) × List Int) :=
  let hoursPerDay := window.localRange.dates.map fun day => localHourBoundaries day window.localRange.zone
  (List.range (Slices.sliceCount window.localRange.days hourBucketDaysPerStatement)).flatMap fun stretch =>
    let week := Slices.slice hoursPerDay hourBucketDaysPerStatement stretch
    let first := stretch * hourBucketDaysPerStatement
    weekOfEra first v1Source window.v1Span (weekBoundaries (week.map LocalHourBoundaries.v1BoundariesLocal))
      ++ weekOfEra first v2Source window.v2Span (weekBoundaries (week.map LocalHourBoundaries.v2BoundariesUtc))

/-- `by_day[first + index // 24][index % 24] += count`. -/
def addHour (first : Nat) (byDay : List (List Nat)) (entry : Nat × Nat) : List (List Nat) :=
  byDay.modify (first + entry.2 / wallClockHoursPerDay) fun hours =>
    addTo hours (entry.2 % wallClockHoursPerDay) entry.1

def addWeek (byDay : List (List Nat)) (week : Nat × Source × (Int × Int) × List Int) :
    Except String (List (List Nat)) := do
  let rows ← executeBucketCount db tenant week.2.1 week.2.2.1 week.2.2.2
  let counts ← bucketCounts ((rows.head?.map Prod.snd).getD []) (week.2.2.2.length - 1)
  return counts.zipIdx.foldl (addHour week.1) byDay

def getCheckinCountsByHour : Except String (List (List Nat)) :=
  (weeksOfHours window .v1Checkins .v2Checkins).foldlM (addWeek db tenant)
    (window.localRange.dates.map fun _ => List.replicate wallClockHoursPerDay 0)

/-! ### Check-ins by day and destination -/

structure DestinationCounts where
  homeCount : Nat
  transitCounts : List Nat
  otherCount : Nat
  deriving DecidableEq

def DestinationCounts.transitCount (counts : DestinationCounts) : Nat := counts.transitCounts.sum

def DestinationCounts.total (counts : DestinationCounts) : Nat :=
  counts.homeCount + counts.transitCount + counts.otherCount

/-- The three running counts of `get_checkin_destination_counts_by_day`, one entry per day. -/
structure DestinationsByDay where
  home : List Nat
  transit : List (List Nat)
  other : List Nat

/-- One group's count of one day. -/
def addDestinationDay (bucket : DestinationBucket) (state : DestinationsByDay) (entry : Nat × Nat) :
    DestinationsByDay :=
  if entry.1 = 0 then state
  else match bucket with
    | .home => { state with home := addTo state.home entry.2 entry.1 }
    | .transit slot => { state with transit := state.transit.modify entry.2 fun counts => addTo counts slot entry.1 }
    | .other => { state with other := addTo state.other entry.2 entry.1 }

def addDestinationGroup (routing : RoutingConfig) (state : DestinationsByDay) (row : Option Text × List Nat) :
    Except String DestinationsByDay := do
  let counts ← bucketCounts row.2 window.localRange.days
  return counts.zipIdx.foldl (addDestinationDay (routing.bucket (destinationKey row.1))) state

def addDestinationEra (routing : RoutingConfig) (state : DestinationsByDay) (era : Source × (Int × Int) × List Int) :
    Except String DestinationsByDay := do
  let rows ← executeBucketCount db tenant era.1 era.2.1 era.2.2
  rows.foldlM (addDestinationGroup window routing) state

def getCheckinDestinationCountsByDay (routing : RoutingConfig) : Except String (List DestinationCounts) := do
  let days := window.localRange.days
  let start : DestinationsByDay :=
    { home := List.replicate days 0
      transit := List.replicate days (List.replicate routing.transit.length 0)
      other := List.replicate days 0 }
  let state ←
    (eras window .v1CheckinsByDestination .v2CheckinsByDestination).foldlM (addDestinationEra db tenant window routing)
      start
  return (List.range days).map fun day =>
    { homeCount := state.home.getD day 0
      transitCounts := state.transit.getD day []
      otherCount := state.other.getD day 0 }

/-! ### Rejects by day and reason -/

structure RejectReasonRangeCounts where
  reasonCounts : List Nat
  dayCounts : List Nat
  unexpectedClassRows : Nat

/-- The reason of a group, by the era of its source. -/
def reasonOfGroup (aware : Bool) (stored : Option Text) : RejectReason :=
  if aware then reasonOfClass stored else classifyLegacyRejectMessage stored

/-- The rows of a group whose stored class is no reason code. -/
def unexpectedRows (aware : Bool) (stored : Option Text) (rows : Nat) : Nat :=
  if aware && (reasonForErrorClass stored).isNone then rows else 0

def addReasonGroup (aware : Bool) (state : RejectReasonRangeCounts) (row : Option Text × List Nat) :
    Except String RejectReasonRangeCounts := do
  let counts ← bucketCounts row.2 window.localRange.days
  return {
    reasonCounts := addTo state.reasonCounts (reasonSlot (reasonOfGroup aware row.1)) counts.sum
    dayCounts := state.dayCounts.zipWith (· + ·) counts
    unexpectedClassRows := state.unexpectedClassRows + unexpectedRows aware row.1 counts.sum }

def addReasonEra (state : RejectReasonRangeCounts) (era : Source × (Int × Int) × List Int) :
    Except String RejectReasonRangeCounts := do
  let rows ← executeBucketCount db tenant era.1 era.2.1 era.2.2
  rows.foldlM (addReasonGroup window era.1.aware) state

def getRejectReasonCountsByDay : Except String RejectReasonRangeCounts :=
  (eras window .v1RejectsByMessage .v2RejectsByClass).foldlM (addReasonEra db tenant window)
    { reasonCounts := List.replicate rejectReasons.length 0
      dayCounts := List.replicate window.localRange.days 0
      unexpectedClassRows := 0 }

end Reports

end SortView
