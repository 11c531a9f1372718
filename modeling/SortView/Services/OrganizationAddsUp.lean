import SortView.Services.NetworkSums
import SortView.Services.RangeReport

/-!
# Organization reports add up

A report of an organization is the sum of its sites' reports or no report at all, whatever is inserted between two of its
statements. While nothing changes it is the sum of the reports that each site has on its own.
-/

namespace SortView

open PyText Buckets Snapshots

namespace OrganizationReport

/-! ### A report and its reads -/

section Report

variable {τ ρ : Type} {world : World} {readSite : ResolvedOperationalTenant → Read ReportFault τ} {sums : List (SiteRead τ) → ρ → Prop}

/-- A report fails for what is outside its own checks only, and is the sum over a run that read every listed site; where
there is such a run there is a report. -/
structure AddsUp (world : World) (readSite : ResolvedOperationalTenant → Read ReportFault τ) (sums : List (SiteRead τ) → ρ → Prop)
    (read : Read ReportFault ρ) : Prop where
  fault : ∀ k fault, read k = .error fault → fault.Outside
  answer : ∀ k m report, read k = .ok (report, m) →
    ∃ sites reads, world.sites k = some sites ∧ Visits world readSite [] (k + 1) sites reads m ∧ sums reads report
  whole : ∀ k m sites reads, world.sites k = some sites → Visits world readSite [] (k + 1) sites reads m →
    ∃ report, read k = .ok (report, m)

theorem addsUp_of_whole {whole : τ → Prop} (hsite : ∀ tenant, Read.Ends ReportFault.Outside whole (readSite tenant))
    {build : List (SiteRead τ) → Except ReportFault ρ}
    (hbuild : ∀ {reads}, AllWhole whole reads → ∃ report, build reads = .ok report ∧ sums reads report) :
    AddsUp world readSite sums (readSorterSites world readSite >>= fun reads => Read.ofExcept (build reads)) := by
  have hreads : Read.Ends ReportFault.Outside (AllWhole whole) (readSorterSites world readSite) := readSorterSites_ends hsite
  have hends : Read.Ends ReportFault.Outside (fun _ => True)
      (readSorterSites world readSite >>= fun reads => Read.ofExcept (build reads)) := by
    apply Read.Ends.bind hreads
    intro reads hwhole
    obtain ⟨report, hreport, -⟩ := hbuild hwhole
    exact Read.Ends.ofExcept hreport trivial
  refine ⟨hends.fault, ?_, ?_⟩
  · intro k m report hrun
    obtain ⟨reads, j, hread, hrest⟩ := Read.bind_eq_ok.1 hrun
    obtain ⟨hreport, rfl⟩ := Read.ofExcept_eq_ok.1 hrest
    obtain ⟨sites, hsites, hvisits⟩ := readSorterSites_eq_ok_iff.1 hread
    obtain ⟨other, hother, hsums⟩ := hbuild (hreads.answer _ _ _ hread)
    rw [hreport] at hother
    cases hother
    exact ⟨sites, reads, hsites, hvisits, hsums⟩
  · intro k m sites reads hsites hvisits
    have hread := readSorterSites_eq_ok_iff.2 ⟨sites, hsites, hvisits⟩
    obtain ⟨report, hreport, -⟩ := hbuild (hreads.answer _ _ _ hread)
    exact ⟨report, Read.bind_eq_ok.2 ⟨reads, m, hread, Read.ofExcept_eq_ok.2 ⟨hreport, rfl⟩⟩⟩

/-! ### While nothing changes -/

/-- No row that the statements read changes. -/
structure World.Steady (world : World) (resolve : Text → Option ResolvedOperationalTenant)
    (routing : ResolvedOperationalTenant → RoutingConfig) (db : Database) : Prop where
  resolveSite : ∀ k branch answer, world.resolveSite k branch = some answer → answer = resolve branch
  routing : ∀ k tenant answer, world.routing k tenant = some answer → answer = routing tenant
  database : ∀ k answer, world.database k = some answer → answer = db

/-- A report is the sum of the reports that the listed sites have on their own, each scope once. -/
def SumsOwn (world : World) (resolve : Text → Option ResolvedOperationalTenant) (own : ResolvedOperationalTenant → Except String τ)
    (sums : List (SiteRead τ) → ρ → Prop) (read : Read ReportFault ρ) : Prop :=
  ∀ k m report, read k = .ok (report, m) → ∃ sites reads, world.sites k = some sites
    ∧ sites.mapM (ownRead resolve own) = .ok reads ∧ (scopesOf resolve sites).Nodup ∧ sums reads report

theorem AddsUp.sumsOwn {read : Read ReportFault ρ} (h : AddsUp world readSite sums read)
    {resolve : Text → Option ResolvedOperationalTenant} {own : ResolvedOperationalTenant → Except String τ}
    (hresolve : ∀ k branch answer, world.resolveSite k branch = some answer → answer = resolve branch)
    (hown : ∀ tenant, Read.Computes (readSite tenant) (own tenant)) : SumsOwn world resolve own sums read := by
  intro k m report hrun
  obtain ⟨sites, reads, hsites, hvisits, hsums⟩ := h.answer k m report hrun
  obtain ⟨hreads, hscopes, -⟩ := hvisits.steady hresolve hown
  exact ⟨sites, reads, hsites, hreads, hscopes, hsums⟩

end Report

/-! ### The report of a site on its own -/

section Own

variable (db : Database) (tenant : ResolvedOperationalTenant) (window : ReportWindow) (routing : RoutingConfig)

def getOverviewReport : Except String OverviewReport := do
  let byDestination ← getCheckinDestinationCountsByDay db tenant window routing
  let rejectDays ← getRejectCountsByDay db tenant window
  return {
    checkinDays := byDestination.map DestinationCounts.total
    rejectDays := rejectDays
    routing := sumDestinationCounts byDestination routing }

def getRoutingReport : Except String RoutingReport := do
  let byDay ← getCheckinDestinationCountsByDay db tenant window routing
  return { days := byDay, total := sumDestinationCounts byDay routing }

/-- The routing of a site with its report. -/
def networkSite : Except String (RoutingConfig × RoutingReport) := do
  let report ← getRoutingReport db tenant window routing
  return (routing, report)

def getReliabilityReport : Except String ReliabilityReport := do
  let checkinDays ← getCheckinCountsByDay db tenant window
  let rejects ← getRejectReasonCountsByDay db tenant window
  return { checkinDays := checkinDays, rejects := rejects }

end Own

section Steady

variable {world : World} {db : Database} (hdb : ∀ k answer, world.database k = some answer → answer = db)

include hdb

theorem overEras_computes {σ : Type} (step : Database → σ → Source × (Int × Int) × List Int → Except String σ) (start : σ)
    (owned : List (Source × (Int × Int) × List Int)) :
    Read.Computes (overEras world step start owned) (owned.foldlM (step db) start) := by
  apply Read.Computes.foldlM
  intro state era
  exact Read.Computes.bind_ok (Read.Computes.statement hdb) (Read.Computes.ofExcept (step db state era) ReportFault.operational)

theorem readDestinationsByDay_computes (tenant : ResolvedOperationalTenant) (window : ReportWindow) (routing : RoutingConfig) :
    Read.Computes (readDestinationsByDay world tenant window routing) (getCheckinDestinationCountsByDay db tenant window routing) :=
  Read.Computes.bind (overEras_computes hdb _ _ _) fun _ => Read.Computes.pure _

theorem readCountsByDay_computes (tenant : ResolvedOperationalTenant) (window : ReportWindow) (v1Source v2Source : Source) :
    Read.Computes (readCountsByDay world tenant window v1Source v2Source) (countsByDay db tenant window v1Source v2Source) :=
  overEras_computes hdb _ _ _

theorem readReasonsByDay_computes (tenant : ResolvedOperationalTenant) (window : ReportWindow) :
    Read.Computes (readReasonsByDay world tenant window) (getRejectReasonCountsByDay db tenant window) :=
  overEras_computes hdb _ _ _

variable {routing : ResolvedOperationalTenant → RoutingConfig}
  (hrouting : ∀ k tenant answer, world.routing k tenant = some answer → answer = routing tenant) (range : LocalRange)
  (tenant : ResolvedOperationalTenant)

theorem readWindow_computes :
    Read.Computes (readWindow world tenant range) (.ok (reportWindow db tenant range) : Except String ReportWindow) :=
  Read.Computes.bind_ok (Read.Computes.statement hdb) (Read.Computes.pure _)

theorem readReliabilitySite_computes :
    Read.Computes (readReliabilitySite world range tenant) (getReliabilityReport db tenant (reportWindow db tenant range)) := by
  apply Read.Computes.bind_ok (readWindow_computes hdb range tenant)
  apply Read.Computes.bind (readCountsByDay_computes hdb tenant _ _ _)
  intro checkinDays
  apply Read.Computes.bind (readReasonsByDay_computes hdb tenant _)
  intro rejects
  exact Read.Computes.pure _

include hrouting

omit hdb in
theorem readRouting_computes : Read.Computes (readRouting world tenant) (.ok (routing tenant) : Except String RoutingConfig) :=
  Read.Computes.statement fun k answer => hrouting k tenant answer

theorem readOverviewSite_computes : Read.Computes (readOverviewSite world range tenant)
    (getOverviewReport db tenant (reportWindow db tenant range) (routing tenant)) := by
  apply Read.Computes.bind_ok (readRouting_computes hrouting tenant)
  apply Read.Computes.bind_ok (readWindow_computes hdb range tenant)
  apply Read.Computes.bind (readDestinationsByDay_computes hdb tenant _ _)
  intro byDestination
  apply Read.Computes.bind (readCountsByDay_computes hdb tenant _ _ _)
  intro rejectDays
  exact Read.Computes.pure _

theorem readNetworkSite_computes : Read.Computes (readNetworkSite world range tenant)
    (networkSite db tenant (reportWindow db tenant range) (routing tenant)) := by
  have hreport : Read.Computes (readRoutingReport world tenant (reportWindow db tenant range) (routing tenant))
      (getRoutingReport db tenant (reportWindow db tenant range) (routing tenant)) :=
    Read.Computes.bind (readDestinationsByDay_computes hdb tenant _ _) fun byDay => Read.Computes.pure _
  apply Read.Computes.bind_ok (readRouting_computes hrouting tenant)
  apply Read.Computes.bind_ok (readWindow_computes hdb range tenant)
  exact Read.Computes.bind hreport fun report => Read.Computes.pure _

end Steady

/-! ### The three reports -/

section Reports

variable (world : World) (range : LocalRange)

/-- The overview, the routing network and the reliability report add up. -/
structure ReportsAddUp : Prop where
  overview : AddsUp world (readOverviewSite world range) OverviewSums (getOrganizationOverview world range)
  network : AddsUp world (readNetworkSite world range) NetworkSums (getOrganizationRoutingNetwork world range)
  reliability : AddsUp world (readReliabilitySite world range) ReliabilitySums (getOrganizationReliability world range)

variable (db : Database) (resolve : Text → Option ResolvedOperationalTenant) (routing : ResolvedOperationalTenant → RoutingConfig)

/-- The three reports are the sums of the reports that the sites have on their own. -/
structure ReportsSumOwn : Prop where
  overview : SumsOwn world resolve
    (fun tenant => getOverviewReport db tenant (reportWindow db tenant range) (routing tenant)) OverviewSums
    (getOrganizationOverview world range)
  network : SumsOwn world resolve
    (fun tenant => networkSite db tenant (reportWindow db tenant range) (routing tenant)) NetworkSums
    (getOrganizationRoutingNetwork world range)
  reliability : SumsOwn world resolve (fun tenant => getReliabilityReport db tenant (reportWindow db tenant range)) ReliabilitySums
    (getOrganizationReliability world range)

end Reports

/-- For every list of sites and every range, whatever changes between two statements, no report of an organization fails a
check of its own, and each is the sum over the sites or nothing; while nothing changes, each is the sum of the sites' own. -/
theorem organization_reports_add_up (world : World) {zone : Zone} (hzone : zone.OrderedMidnights) {fromDate toDate : Int}
    (hdates : fromDate ≤ toDate) :
    ∃ range, localRange fromDate toDate zone = .ok range ∧ ReportsAddUp world range
      ∧ ∀ db resolve routing, world.Steady resolve routing db → ReportsSumOwn world range db resolve routing := by
  have hn : 0 < (toDate - fromDate).toNat + 1 := Nat.succ_pos _
  have hreports : ReportsAddUp world (rangeOf zone fromDate ((toDate - fromDate).toNat + 1)) := by
    refine ⟨?_, ?_, ?_⟩
    · apply addsUp_of_whole fun tenant => readOverviewSite_ends tenant hzone fromDate hn
      intro reads hwhole
      rw [days_rangeOf]
      exact overviewOf_ok hwhole
    · apply addsUp_of_whole fun tenant => readNetworkSite_ends tenant hzone fromDate hn
      intro reads hwhole
      rw [days_rangeOf]
      exact networkOf_ok hwhole
    · apply addsUp_of_whole fun tenant => readReliabilitySite_ends tenant hzone fromDate hn
      intro reads hwhole
      rw [days_rangeOf]
      exact reliabilityOf_ok hwhole
  refine ⟨rangeOf zone fromDate ((toDate - fromDate).toNat + 1), localRange_eq hdates zone, hreports, ?_⟩
  intro db resolve routing hsteady
  refine ⟨?_, ?_, ?_⟩
  · exact hreports.overview.sumsOwn hsteady.resolveSite (readOverviewSite_computes hsteady.database hsteady.routing _)
  · exact hreports.network.sumsOwn hsteady.resolveSite (readNetworkSite_computes hsteady.database hsteady.routing _)
  · exact hreports.reliability.sumsOwn hsteady.resolveSite (readReliabilitySite_computes hsteady.database _)

/-- Two sites, the second with no operational scope; a legacy check-in is inserted after the fifth statement. -/
def sampleWorld : World where
  sites _ := some [⟨"east".toList, "East".toList, "east".toList⟩, ⟨"west".toList, "West".toList, "west".toList⟩]
  resolveSite _ branch := some (if branch = "east".toList then some sampleTenant else none)
  siteMapping _ _ := some [(true, false)]
  openSite _ _ := some ()
  routing _ _ := some ⟨[], [homeDestinationKey], []⟩
  database k := some (if k < 5 then sampleDatabase
    else { sampleDatabase with checkins := sampleDatabase.checkins ++ sampleDatabase.checkins })

theorem organization_reports_add_up_sample :
    ∃ range, localRange 0 1 sixHoursBehind = .ok range ∧ ReportsAddUp sampleWorld range
      ∧ ∀ db resolve routing, sampleWorld.Steady resolve routing db → ReportsSumOwn sampleWorld range db resolve routing :=
  organization_reports_add_up sampleWorld sixHoursBehind_orderedMidnights (by decide)

end OrganizationReport

end SortView
