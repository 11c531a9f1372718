import SortView.Lib.Snapshots
import SortView.Services.OperationalReport

/-!
# Organization reports

`services/organization_report_service.py` over the reports of `services/operational_report_service.py`: the reports of the
sorter sites of an organization, read one site at a time, and their sums. Each statement sees the rows as they are when it
runs.
-/

namespace SortView

open PyText Snapshots

namespace OrganizationReport

/-! ### Faults -/

/-- Why a report is not built: a statement or the scope of a site failed, a listed site did not resolve, or a check of this
service or of a site's own report did not hold. -/
inductive ReportFault where
  | failed
  | siteNotResolved
  | organization (problem : String)
  | operational (problem : String)
  deriving DecidableEq

def sharedScopeProblem : String := "Two listed sorter sites resolved to the same operational scope."

def siteShapeProblem : String := "A sorter site's report does not have the shape that was asked for."

def overviewProblem : String := "An organization overview's parts do not add up to its totals."

def networkProblem : String := "An organization routing network's destinations do not add up to its transit total."

def reliabilityProblem : String := "An organization reliability report's parts do not add up to its totals."

/-! ### What is read -/

structure SorterSite where
  slug : Text
  name : Text
  hostBranchSlug : Text
  deriving DecidableEq

/-- What each statement would answer at each moment, `none` where it fails: the listed sites, `resolve_site`, the mapping of
a site's branch, `open_site`, `get_routing_config` and the operational rows. -/
structure World where
  sites : Nat → Option (List SorterSite)
  resolveSite : Nat → Text → Option (Option ResolvedOperationalTenant)
  siteMapping : Nat → Text → Option (List (Bool × Bool))
  openSite : Nat → ResolvedOperationalTenant → Option Unit
  routing : Nat → ResolvedOperationalTenant → Option RoutingConfig
  database : Nat → Option Database

/-- What is computed from the answer of a statement. -/
def ofSite {α : Type} (result : Except String α) : Read ReportFault α := Read.ofExcept (result.mapError .operational)

section Reads

variable (world : World)

def snapshot : Read ReportFault Database := Read.statement .failed world.database

def readRouting (tenant : ResolvedOperationalTenant) : Read ReportFault RoutingConfig :=
  Read.statement .failed fun k => world.routing k tenant

/-- `report_window`. -/
def readWindow (tenant : ResolvedOperationalTenant) (range : LocalRange) : Read ReportFault ReportWindow := do
  let db ← snapshot world
  return reportWindow db tenant range

/-- One statement for each era that owns part of the window. -/
def overEras {σ : Type} (step : Database → σ → Source × (Int × Int) × List Int → Except String σ) (start : σ)
    (owned : List (Source × (Int × Int) × List Int)) : Read ReportFault σ :=
  owned.foldlM (fun state era => do
    let db ← snapshot world
    ofSite (step db state era)) start

/-! ### The report of a site -/

section Site

variable (tenant : ResolvedOperationalTenant) (window : ReportWindow)

/-- The counts before the first statement. -/
def noDestinations (days : Nat) (routing : RoutingConfig) : DestinationsByDay where
  home := List.replicate days 0
  transit := List.replicate days (List.replicate routing.transit.length 0)
  other := List.replicate days 0

def destinationDays (days : Nat) (state : DestinationsByDay) : List DestinationCounts :=
  (List.range days).map fun day =>
    { homeCount := state.home.getD day 0
      transitCounts := state.transit.getD day []
      otherCount := state.other.getD day 0 }

/-- `get_checkin_destination_counts_by_day`. -/
def readDestinationsByDay (routing : RoutingConfig) : Read ReportFault (List DestinationCounts) := do
  let days := window.localRange.days
  let state ← overEras world (fun db => addDestinationEra db tenant window routing) (noDestinations days routing)
    (eras window .v1CheckinsByDestination .v2CheckinsByDestination)
  return destinationDays days state

/-- `get_checkin_counts_by_day` and `get_reject_counts_by_day`, by their sources. -/
def readCountsByDay (v1Source v2Source : Source) : Read ReportFault (List Nat) :=
  overEras world (fun db => addEraCounts db tenant window) (List.replicate window.localRange.days 0)
    (eras window v1Source v2Source)

def noReasons (days : Nat) : RejectReasonRangeCounts where
  reasonCounts := List.replicate rejectReasons.length 0
  dayCounts := List.replicate days 0
  unexpectedClassRows := 0

/-- `get_reject_reason_counts_by_day`. -/
def readReasonsByDay : Read ReportFault RejectReasonRangeCounts :=
  overEras world (fun db => addReasonEra db tenant window) (noReasons window.localRange.days)
    (eras window .v1RejectsByMessage .v2RejectsByClass)

end Site

/-- `sum_destination_counts`. -/
def sumDestinationCounts (byDay : List DestinationCounts) (routing : RoutingConfig) : DestinationCounts where
  homeCount := (byDay.map DestinationCounts.homeCount).sum
  transitCounts := (List.range routing.transit.length).map fun slot => (byDay.map fun day => day.transitCounts.getD slot 0).sum
  otherCount := (byDay.map DestinationCounts.otherCount).sum

structure OverviewReport where
  checkinDays : List Nat
  rejectDays : List Nat
  routing : DestinationCounts
  deriving DecidableEq

def OverviewReport.checkinCount (report : OverviewReport) : Nat := report.routing.total

def OverviewReport.rejectCount (report : OverviewReport) : Nat := report.rejectDays.sum

def OverviewReport.activeDays (report : OverviewReport) : Nat := report.checkinDays.countP fun count => 0 < count

/-- `get_overview_report`. -/
def readOverview (tenant : ResolvedOperationalTenant) (window : ReportWindow) (routing : RoutingConfig) :
    Read ReportFault OverviewReport := do
  let byDestination ← readDestinationsByDay world tenant window routing
  let rejectDays ← readCountsByDay world tenant window .v1Rejects .v2Rejects
  return {
    checkinDays := byDestination.map DestinationCounts.total
    rejectDays := rejectDays
    routing := sumDestinationCounts byDestination routing }

structure RoutingReport where
  days : List DestinationCounts
  total : DestinationCounts
  deriving DecidableEq

/-- `get_routing_report`. -/
def readRoutingReport (tenant : ResolvedOperationalTenant) (window : ReportWindow) (routing : RoutingConfig) :
    Read ReportFault RoutingReport := do
  let byDay ← readDestinationsByDay world tenant window routing
  return { days := byDay, total := sumDestinationCounts byDay routing }

structure ReliabilityReport where
  checkinDays : List Nat
  rejects : RejectReasonRangeCounts

def ReliabilityReport.checkinCount (report : ReliabilityReport) : Nat := report.checkinDays.sum

/-- `RejectReasonRangeCounts.total`. -/
def ReliabilityReport.rejectCount (report : ReliabilityReport) : Nat := report.rejects.reasonCounts.sum

/-- `get_reliability_report`. -/
def readReliability (tenant : ResolvedOperationalTenant) (window : ReportWindow) : Read ReportFault ReliabilityReport := do
  let checkinDays ← readCountsByDay world tenant window .v1Checkins .v2Checkins
  let rejects ← readReasonsByDay world tenant window
  return { checkinDays := checkinDays, rejects := rejects }

/-! ### Reading every site -/

/-- `SiteRead`: a listed site and its report, none for a site with no operational scope. -/
structure SiteRead (τ : Type) where
  site : SorterSite
  report : Option τ

/-- `site_has_no_operational_scope`, of the rows of its statement. -/
def hasNoOperationalScope : List (Bool × Bool) → Bool
  | [row] => !(row.1 && row.2)
  | _ => false

def scopeOf (tenant : ResolvedOperationalTenant) : Text × Text := (tenant.operationalCustomerId, tenant.operationalBranchId)

variable {τ : Type} (readSite : ResolvedOperationalTenant → Read ReportFault τ)

/-- The loop of `read_sorter_sites` over the sites that are left, with the scopes that were read. -/
def readSites : List SorterSite → List (Text × Text) → Read ReportFault (List (SiteRead τ))
  | [], _ => pure []
  | site :: sites, scopesRead => do
      let tenant ← Read.statement .failed fun k => world.resolveSite k site.hostBranchSlug
      match tenant with
      | none => do
          let rows ← Read.statement .failed fun k => world.siteMapping k site.hostBranchSlug
          Read.require (hasNoOperationalScope rows) .siteNotResolved
          let reads ← readSites sites scopesRead
          return ⟨site, none⟩ :: reads
      | some tenant => do
          Read.require (scopeOf tenant ∉ scopesRead) (.organization sharedScopeProblem)
          Read.statement .failed fun k => world.openSite k tenant
          let report ← readSite tenant
          let reads ← readSites sites (scopeOf tenant :: scopesRead)
          return ⟨site, some report⟩ :: reads

/-- `read_sorter_sites`. -/
def readSorterSites : Read ReportFault (List (SiteRead τ)) := do
  let sites ← Read.statement .failed world.sites
  readSites world readSite sites []

end Reads

/-- `_add`. -/
def addCounts (totals counts : List Nat) : Except ReportFault (List Nat) :=
  if counts.length = totals.length then .ok (totals.zipWith (· + ·) counts) else .error (.organization siteShapeProblem)

def check (condition : Bool) (problem : String) : Except ReportFault Unit :=
  if condition then .ok () else .error (.organization problem)

/-! ### Overview -/

structure SorterOverview where
  site : SorterSite
  available : Bool
  checkinCount : Nat
  activeDays : Nat
  transitCount : Nat
  rejectCount : Nat
  deriving DecidableEq

structure OrganizationOverview where
  sorters : List SorterOverview
  homeCount : Nat
  transitCount : Nat
  otherCount : Nat
  rejectCount : Nat
  checkinDays : List Nat
  rejectDays : List Nat

def OrganizationOverview.checkinCount (overview : OrganizationOverview) : Nat :=
  overview.homeCount + overview.transitCount + overview.otherCount

/-- The running sums of `get_organization_overview`. -/
structure OverviewTotals where
  sorters : List SorterOverview
  homeCount : Nat
  transitCount : Nat
  otherCount : Nat
  checkinDays : List Nat
  rejectDays : List Nat

def sorterOverview (read : SiteRead OverviewReport) : SorterOverview :=
  match read.report with
  | none => ⟨read.site, false, 0, 0, 0, 0⟩
  | some report =>
      ⟨read.site, true, report.checkinCount, report.activeDays, report.routing.transitCount, report.rejectCount⟩

def addOverview (totals : OverviewTotals) (read : SiteRead OverviewReport) : Except ReportFault OverviewTotals :=
  match read.report with
  | none => .ok { totals with sorters := totals.sorters ++ [sorterOverview read] }
  | some report => do
      let checkinDays ← addCounts totals.checkinDays report.checkinDays
      let rejectDays ← addCounts totals.rejectDays report.rejectDays
      return {
        sorters := totals.sorters ++ [sorterOverview read]
        homeCount := totals.homeCount + report.routing.homeCount
        transitCount := totals.transitCount + report.routing.transitCount
        otherCount := totals.otherCount + report.routing.otherCount
        checkinDays := checkinDays
        rejectDays := rejectDays }

def overviewOf (days : Nat) (reads : List (SiteRead OverviewReport)) : Except ReportFault OrganizationOverview := do
  let totals ← reads.foldlM addOverview ⟨[], 0, 0, 0, List.replicate days 0, List.replicate days 0⟩
  let overview : OrganizationOverview := {
    sorters := totals.sorters
    homeCount := totals.homeCount
    transitCount := totals.transitCount
    otherCount := totals.otherCount
    rejectCount := totals.rejectDays.sum
    checkinDays := totals.checkinDays
    rejectDays := totals.rejectDays }
  check (overview.checkinCount = totals.checkinDays.sum
    ∧ totals.checkinDays.sum = (totals.sorters.map SorterOverview.checkinCount).sum
    ∧ overview.rejectCount = (totals.sorters.map SorterOverview.rejectCount).sum) overviewProblem
  return overview

/-- `read_site` of the overview. -/
def readOverviewSite (world : World) (range : LocalRange) (tenant : ResolvedOperationalTenant) :
    Read ReportFault OverviewReport := do
  let routing ← readRouting world tenant
  let window ← readWindow world tenant range
  readOverview world tenant window routing

/-- `get_organization_overview`. -/
def getOrganizationOverview (world : World) (range : LocalRange) : Read ReportFault OrganizationOverview := do
  let reads ← readSorterSites world (readOverviewSite world range)
  Read.ofExcept (overviewOf range.days reads)

/-! ### Routing network -/

structure RoutingSource where
  site : SorterSite
  homeLabel : Text
  transit : List TransitDestination
  counts : DestinationCounts

structure NetworkDestination where
  key : Text
  label : Text
  checkinCount : Nat
  sourceCount : Nat
  deriving DecidableEq

structure OrganizationRoutingNetwork where
  sources : List RoutingSource
  destinations : List NetworkDestination

def OrganizationRoutingNetwork.checkinCount (network : OrganizationRoutingNetwork) : Nat :=
  (network.sources.map fun source => source.counts.total).sum

def OrganizationRoutingNetwork.transitCount (network : OrganizationRoutingNetwork) : Nat :=
  (network.sources.map fun source => source.counts.transitCount).sum

/-- The label of the first source that has a key, its check-ins, and the sources that have it. -/
abbrev ByKey := Dict Text (Text × Nat × Nat)

def addDestination (byKey : ByKey) (entry : TransitDestination × Nat) : ByKey :=
  let found := (byKey.get? entry.1.key).getD (entry.1.label, 0, 0)
  byKey.set entry.1.key (found.1, found.2.1 + entry.2, found.2.2 + 1)

def addSource (days : Nat) (state : List RoutingSource × ByKey) (read : SiteRead (RoutingConfig × RoutingReport)) :
    Except ReportFault (List RoutingSource × ByKey) :=
  match read.report with
  | none => .ok state
  | some (routing, report) => do
      check (report.days.length = days ∧ report.total.transitCounts.length = routing.transit.length) siteShapeProblem
      return (state.1 ++ [⟨read.site, routing.homeLabel, routing.transit, report.total⟩],
        (routing.transit.zip report.total.transitCounts).foldl addDestination state.2)

def networkOf (days : Nat) (reads : List (SiteRead (RoutingConfig × RoutingReport))) :
    Except ReportFault OrganizationRoutingNetwork := do
  let state ← reads.foldlM (addSource days) ([], Dict.empty)
  let network : OrganizationRoutingNetwork := {
    sources := state.1
    destinations := state.2.entries.map fun entry => ⟨entry.1, entry.2.1, entry.2.2.1, entry.2.2.2⟩ }
  check ((network.destinations.map NetworkDestination.checkinCount).sum = network.transitCount) networkProblem
  return network

/-- `read_site` of the routing network. -/
def readNetworkSite (world : World) (range : LocalRange) (tenant : ResolvedOperationalTenant) :
    Read ReportFault (RoutingConfig × RoutingReport) := do
  let routing ← readRouting world tenant
  let window ← readWindow world tenant range
  let report ← readRoutingReport world tenant window routing
  return (routing, report)

/-- `get_organization_routing_network`. -/
def getOrganizationRoutingNetwork (world : World) (range : LocalRange) : Read ReportFault OrganizationRoutingNetwork := do
  let reads ← readSorterSites world (readNetworkSite world range)
  Read.ofExcept (networkOf range.days reads)

/-! ### Reliability -/

structure SorterReliability where
  site : SorterSite
  available : Bool
  checkinCount : Nat
  rejectCount : Nat
  reasonCounts : List Nat
  deriving DecidableEq

structure OrganizationReliability where
  sorters : List SorterReliability
  reasonCounts : List Nat
  checkinDays : List Nat
  rejectDays : List Nat

def OrganizationReliability.checkinCount (reliability : OrganizationReliability) : Nat := reliability.checkinDays.sum

def OrganizationReliability.rejectCount (reliability : OrganizationReliability) : Nat := reliability.reasonCounts.sum

def sorterReliability (read : SiteRead ReliabilityReport) : SorterReliability :=
  match read.report with
  | none => ⟨read.site, false, 0, 0, List.replicate rejectReasons.length 0⟩
  | some report => ⟨read.site, true, report.checkinCount, report.rejectCount, report.rejects.reasonCounts⟩

def addReliability (totals : OrganizationReliability) (read : SiteRead ReliabilityReport) :
    Except ReportFault OrganizationReliability :=
  match read.report with
  | none => .ok { totals with sorters := totals.sorters ++ [sorterReliability read] }
  | some report => do
      let reasonCounts ← addCounts totals.reasonCounts report.rejects.reasonCounts
      let checkinDays ← addCounts totals.checkinDays report.checkinDays
      let rejectDays ← addCounts totals.rejectDays report.rejects.dayCounts
      return ⟨totals.sorters ++ [sorterReliability read], reasonCounts, checkinDays, rejectDays⟩

def reliabilityOf (days : Nat) (reads : List (SiteRead ReliabilityReport)) : Except ReportFault OrganizationReliability := do
  let reliability ← reads.foldlM addReliability
    ⟨[], List.replicate rejectReasons.length 0, List.replicate days 0, List.replicate days 0⟩
  check (reliability.rejectCount = reliability.rejectDays.sum
    ∧ reliability.rejectDays.sum = (reliability.sorters.map SorterReliability.rejectCount).sum
    ∧ reliability.checkinCount = (reliability.sorters.map SorterReliability.checkinCount).sum) reliabilityProblem
  return reliability

/-- `read_site` of the reliability report. -/
def readReliabilitySite (world : World) (range : LocalRange) (tenant : ResolvedOperationalTenant) :
    Read ReportFault ReliabilityReport := do
  let window ← readWindow world tenant range
  readReliability world tenant window

/-- `get_organization_reliability`. -/
def getOrganizationReliability (world : World) (range : LocalRange) : Read ReportFault OrganizationReliability := do
  let reads ← readSorterSites world (readReliabilitySite world range)
  Read.ofExcept (reliabilityOf range.days reads)

end OrganizationReport

end SortView
