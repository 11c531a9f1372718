import SortView.Lib.Buckets
import SortView.Services.RejectReason
import SortView.Services.RoutingDestination

/-!
# Single-day reads

`services/operational_metrics_service.py`: local days and hours in the two time domains, the cutover, and
the counts of one day. Local readings and instants are whole microseconds, dates are day numbers.
-/

namespace SortView

open PyText Buckets

def dayLength : Int := 86400000000

def hourLength : Int := 3600000000

/-- A time zone: the instant of a local reading (`fold=0`), and the local reading of an instant. -/
structure Zone where
  toUtc : Int → Int
  toLocal : Int → Int

/-- `datetime.combine(local_date, time.min)`. -/
def midnight (localDate : Int) : Int := localDate * dayLength

/-- The midnights of a zone do not decrease. -/
def Zone.OrderedMidnights (zone : Zone) : Prop := Monotone fun localDate => zone.toUtc (midnight localDate)

/-! ### The stored rows -/

structure ResolvedOperationalTenant where
  operationalCustomerId : Text
  operationalBranchId : Text

/-- A row of `checkins` (its time is a local reading) or of `checkin_events` (an instant). -/
structure CheckinRow where
  customerId : Text
  branchId : Text
  eventTime : Int
  destination : Option Text
  bin : Option Text

/-- A row of `rejects` or of `reject_events`; `reason` is its message or its error class. -/
structure RejectRow where
  customerId : Text
  branchId : Text
  eventTime : Int
  reason : Option Text

/-- A row of `v2_cutovers`. -/
structure CutoverRow where
  customerId : Text
  branchId : Text
  setAt : Int
  cutoverAt : Option Int

structure Database where
  checkins : List CheckinRow
  checkinEvents : List CheckinRow
  rejects : List RejectRow
  rejectEvents : List RejectRow
  v2Cutovers : List CutoverRow

/-- What a count reads of a row: whose it is, its time, and the column it is grouped by. -/
structure CountedRow where
  customerId : Text
  branchId : Text
  eventTime : Int
  group : Option Text

def plainCheckins (rows : List CheckinRow) : List CountedRow :=
  rows.map fun row => ⟨row.customerId, row.branchId, row.eventTime, none⟩

def checkinsByDestination (rows : List CheckinRow) : List CountedRow :=
  rows.map fun row => ⟨row.customerId, row.branchId, row.eventTime, row.destination⟩

def checkinsByBin (rows : List CheckinRow) : List CountedRow :=
  rows.map fun row => ⟨row.customerId, row.branchId, row.eventTime, row.bin⟩

def plainRejects (rows : List RejectRow) : List CountedRow :=
  rows.map fun row => ⟨row.customerId, row.branchId, row.eventTime, none⟩

def rejectsByReason (rows : List RejectRow) : List CountedRow :=
  rows.map fun row => ⟨row.customerId, row.branchId, row.eventTime, row.reason⟩

/-- The tenant filter of every statement. -/
def CountedRow.ofTenant (tenant : ResolvedOperationalTenant) (row : CountedRow) : Bool :=
  decide (row.customerId = tenant.operationalCustomerId ∧ row.branchId = tenant.operationalBranchId)

/-- The WHERE clause: the tenant, then the span. -/
def CountedRow.inScope (tenant : ResolvedOperationalTenant) (span : Int × Int) (row : CountedRow) : Bool :=
  decide (span.1 ≤ row.eventTime ∧ row.eventTime < span.2) && row.ofTenant tenant

/-! ### Local days and hours -/

structure LocalDayBounds where
  v1StartLocal : Int
  v1EndLocal : Int
  v2StartUtc : Int
  v2EndUtc : Int

def localMidnightUtc (zone : Zone) (localDate : Int) : Int := zone.toUtc (midnight localDate)

def localDayBounds (localDate : Int) (zone : Zone) : LocalDayBounds where
  v1StartLocal := midnight localDate
  v1EndLocal := midnight (localDate + 1)
  v2StartUtc := localMidnightUtc zone localDate
  v2EndUtc := localMidnightUtc zone (localDate + 1)

def wallClockHoursPerDay : Nat := 24

structure LocalHourBoundaries where
  v1BoundariesLocal : List Int
  v2BoundariesUtc : List Int

/-- The instants of the readings on the hour, each held inside the day and not before the last one. -/
def heldInstants (zone : Zone) (localDate dayEnd : Int) : Int → List Nat → List Int
  | _, [] => []
  | last, hour :: hours =>
      let instant := min (max (zone.toUtc (midnight localDate + hour * hourLength)) last) dayEnd
      instant :: heldInstants zone localDate dayEnd instant hours

def localHourBoundaries (localDate : Int) (zone : Zone) : LocalHourBoundaries :=
  let day := localDayBounds localDate zone
  { v1BoundariesLocal :=
      (List.range (wallClockHoursPerDay + 1)).map fun (hour : Nat) => day.v1StartLocal + hour * hourLength
    v2BoundariesUtc :=
      day.v2StartUtc
        :: heldInstants zone localDate day.v2EndUtc day.v2StartUtc (List.range' 1 (wallClockHoursPerDay - 1))
          ++ [day.v2EndUtc] }

/-! ### The cutover -/

structure CutoverBoundary where
  cutoverUtc : Int
  cutoverLocalNaive : Int

def cutoverBoundary (cutoverAt : Int) (zone : Zone) : CutoverBoundary where
  cutoverUtc := cutoverAt
  cutoverLocalNaive := zone.toLocal cutoverAt

/-- `ORDER BY set_at DESC LIMIT 1`. -/
def latestCutover : List CutoverRow → Option CutoverRow
  | [] => none
  | row :: rows =>
      match latestCutover rows with
      | none => some row
      | some later => if row.setAt < later.setAt then some later else some row

/-- The tenant's latest cutover row by `set_at`, and its instant unless it is a rollback. -/
def getEffectiveCutover (db : Database) (tenant : ResolvedOperationalTenant) : Option Int :=
  (latestCutover (db.v2Cutovers.filter fun row => row.customerId = tenant.operationalCustomerId
    ∧ row.branchId = tenant.operationalBranchId)).bind CutoverRow.cutoverAt

/-- The part of an interval each era owns; an empty part is none, and its table is not read. -/
structure OwnedParts where
  v1 : Option (Int × Int)
  v2 : Option (Int × Int)

def nonEmptySpan (start stop : Int) : Option (Int × Int) := if start < stop then some (start, stop) else none

/-- The clamping that every single-day read repeats. -/
def ownedParts (cutoverAt : Option Int) (zone : Zone) (v1Start v1End v2Start v2End : Int) : OwnedParts :=
  match cutoverAt with
  | none => { v1 := nonEmptySpan v1Start v1End, v2 := none }
  | some cutoverAt =>
      let boundary := cutoverBoundary cutoverAt zone
      { v1 := nonEmptySpan v1Start (min v1End boundary.cutoverLocalNaive)
        v2 := nonEmptySpan (max v2Start boundary.cutoverUtc) v2End }

def ownedOfDay (db : Database) (tenant : ResolvedOperationalTenant) (localDate : Int) (zone : Zone) : OwnedParts :=
  let day := localDayBounds localDate zone
  ownedParts (getEffectiveCutover db tenant) zone day.v1StartLocal day.v1EndLocal day.v2StartUtc day.v2EndUtc

/-! ### Counts of one day -/

/-- `SELECT COUNT(*)` over a span, 0 when there is none. -/
def countRows (rows : List CountedRow) (tenant : ResolvedOperationalTenant) : Option (Int × Int) → Nat
  | none => 0
  | some span => rows.countP (CountedRow.inScope tenant span)

structure DayCount where
  total : Nat
  v1Count : Nat
  v2Count : Nat

/-- The body that `get_checkin_count` and `get_reject_count` share. -/
def dayCount (v1Rows v2Rows : List CountedRow) (db : Database) (tenant : ResolvedOperationalTenant)
    (localDate : Int) (zone : Zone) : DayCount :=
  let owned := ownedOfDay db tenant localDate zone
  let v1Count := countRows v1Rows tenant owned.v1
  let v2Count := countRows v2Rows tenant owned.v2
  { total := v1Count + v2Count, v1Count := v1Count, v2Count := v2Count }

def getCheckinCount (db : Database) (tenant : ResolvedOperationalTenant) (localDate : Int) (zone : Zone) : DayCount :=
  dayCount (plainCheckins db.checkins) (plainCheckins db.checkinEvents) db tenant localDate zone

def getRejectCount (db : Database) (tenant : ResolvedOperationalTenant) (localDate : Int) (zone : Zone) : DayCount :=
  dayCount (plainRejects db.rejects) (plainRejects db.rejectEvents) db tenant localDate zone

/-! ### Counts of the hours of one day -/

structure CheckinHourlyCounts where
  counts : List Nat
  v1Counts : List Nat
  v2Counts : List Nat

/-- One conditional count for each pair of consecutive boundaries. -/
def hourlyCounts (rows : List CountedRow) (tenant : ResolvedOperationalTenant) (boundaries : List Int) :
    Option (Int × Int) → List Nat
  | none => List.replicate wallClockHoursPerDay 0
  | some span =>
      (boundaries.zip boundaries.tail).map fun hour =>
        (rows.filter (CountedRow.inScope tenant span)).countP fun row =>
          hour.1 ≤ row.eventTime ∧ row.eventTime < hour.2

namespace Metrics

def getCheckinCountsByHour (db : Database) (tenant : ResolvedOperationalTenant) (localDate : Int) (zone : Zone) :
    CheckinHourlyCounts :=
  let hours := localHourBoundaries localDate zone
  let owned :=
    ownedParts (getEffectiveCutover db tenant) zone (hours.v1BoundariesLocal.headD 0)
      (hours.v1BoundariesLocal.getLastD 0) (hours.v2BoundariesUtc.headD 0) (hours.v2BoundariesUtc.getLastD 0)
  let v1Counts := hourlyCounts (plainCheckins db.checkins) tenant hours.v1BoundariesLocal owned.v1
  let v2Counts := hourlyCounts (plainCheckins db.checkinEvents) tenant hours.v2BoundariesUtc owned.v2
  { counts := v1Counts.zipWith (· + ·) v2Counts, v1Counts := v1Counts, v2Counts := v2Counts }

end Metrics

/-! ### Counts by group of one day -/

/-- `SELECT group, COUNT(*) … GROUP BY group` over a span, no rows when there is none. -/
def groupedRows (rows : List CountedRow) (tenant : ResolvedOperationalTenant) :
    Option (Int × Int) → List (Option Text × Nat)
  | none => []
  | some span => groupCount ((rows.filter (CountedRow.inScope tenant span)).map CountedRow.group)

structure RejectReasonCounts where
  counts : List Nat
  v1Counts : List Nat
  v2Counts : List Nat
  unexpectedClassRows : Nat

def addMessageGroup (counts : List Nat) (group : Option Text × Nat) : List Nat :=
  addTo counts (reasonSlot (classifyLegacyRejectMessage group.1)) group.2

/-- The reason of a stored class; one that is no reason code counts as `other`. -/
def reasonOfClass (errorClass : Option Text) : RejectReason := (reasonForErrorClass errorClass).getD .other

def addClassGroup (state : List Nat × Nat) (group : Option Text × Nat) : List Nat × Nat :=
  let unexpected := if (reasonForErrorClass group.1).isNone then state.2 + group.2 else state.2
  (addTo state.1 (reasonSlot (reasonOfClass group.1)) group.2, unexpected)

def getRejectCountsByReason (db : Database) (tenant : ResolvedOperationalTenant) (localDate : Int) (zone : Zone) :
    RejectReasonCounts :=
  let owned := ownedOfDay db tenant localDate zone
  let noCounts := List.replicate rejectReasons.length 0
  let v1Counts := (groupedRows (rejectsByReason db.rejects) tenant owned.v1).foldl addMessageGroup noCounts
  let v2State := (groupedRows (rejectsByReason db.rejectEvents) tenant owned.v2).foldl addClassGroup (noCounts, 0)
  { counts := v1Counts.zipWith (· + ·) v2State.1
    v1Counts := v1Counts
    v2Counts := v2State.1
    unexpectedClassRows := v2State.2 }

structure CheckinDestinationCounts where
  total : Nat
  homeCount : Nat
  transitCounts : List Nat
  otherCount : Nat
  v1Total : Nat
  v2Total : Nat

/-- The counts that `count_groups` adds to. -/
structure DestinationTally where
  homeCount : Nat
  transitCounts : List Nat
  otherCount : Nat
  eraTotal : Nat

/-- One group of `count_groups`: the row count goes to the bucket of the destination's key. -/
def countGroup (routing : RoutingConfig) (tally : DestinationTally) (group : Option Text × Nat) : DestinationTally :=
  let eraTotal := tally.eraTotal + group.2
  match routing.bucket (destinationKey group.1) with
  | .home => { tally with homeCount := tally.homeCount + group.2, eraTotal := eraTotal }
  | .transit slot => { tally with transitCounts := addTo tally.transitCounts slot group.2, eraTotal := eraTotal }
  | .other => { tally with otherCount := tally.otherCount + group.2, eraTotal := eraTotal }

def countGroups (routing : RoutingConfig) (tally : DestinationTally) (groups : List (Option Text × Nat)) :
    DestinationTally :=
  groups.foldl (countGroup routing) { tally with eraTotal := 0 }

def DestinationTally.empty (routing : RoutingConfig) : DestinationTally :=
  { homeCount := 0, transitCounts := List.replicate routing.transit.length 0, otherCount := 0, eraTotal := 0 }

def getCheckinCountsByDestination (db : Database) (tenant : ResolvedOperationalTenant) (localDate : Int) (zone : Zone)
    (routing : RoutingConfig) : CheckinDestinationCounts :=
  let owned := ownedOfDay db tenant localDate zone
  let v1 :=
    countGroups routing (DestinationTally.empty routing)
      (groupedRows (checkinsByDestination db.checkins) tenant owned.v1)
  let v2 := countGroups routing v1 (groupedRows (checkinsByDestination db.checkinEvents) tenant owned.v2)
  { total := v1.eraTotal + v2.eraTotal
    homeCount := v2.homeCount
    transitCounts := v2.transitCounts
    otherCount := v2.otherCount
    v1Total := v1.eraTotal
    v2Total := v2.eraTotal }

end SortView
