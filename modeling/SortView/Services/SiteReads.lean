import SortView.Services.ReportAgreement
import SortView.Services.SiteVisits

/-!
# The report of a site while rows are inserted

Every statement of a site's report sees its own rows. The report is built all the same, with an entry for each day, and the
figures that are compared come from one statement for each era.
-/

namespace SortView

open PyText Buckets Snapshots

namespace OrganizationReport

/-! ### Sums of lists -/

theorem sum_addTo {totals : List Nat} {slot : Nat} (hslot : slot < totals.length) (count : Nat) :
    (addTo totals slot count).sum = totals.sum + count := by
  induction totals generalizing slot with
  | nil => cases hslot
  | cons total totals ih =>
      cases slot with
      | zero =>
          show total + count + totals.sum = total + totals.sum + count
          omega
      | succ slot =>
          have htail := ih (Nat.lt_of_succ_lt_succ hslot)
          rw [addTo] at htail
          show total + (totals.modify slot (· + count)).sum = total + totals.sum + count
          rw [htail]
          omega

theorem sum_zipWith_add {left right : List Nat} (hlength : left.length = right.length) :
    (left.zipWith (· + ·) right).sum = left.sum + right.sum := by
  induction left generalizing right with
  | nil =>
      cases right with
      | nil => rfl
      | cons _ _ => cases hlength
  | cons first left ih =>
      cases right with
      | nil => cases hlength
      | cons other right =>
          rw [List.zipWith_cons_cons, List.sum_cons, List.sum_cons, List.sum_cons, ih (Nat.succ.inj hlength)]
          omega

theorem length_zipWith_add {left right : List Nat} {n : Nat} (hleft : left.length = n) (hright : right.length = n) :
    (left.zipWith (· + ·) right).length = n := by
  rw [List.length_zipWith, hleft, hright, Nat.min_self]

/-! ### One statement -/

section Statement

variable (cut db : Database) (tenant : ResolvedOperationalTenant) {zone : Zone} (hzone : zone.OrderedMidnights) (fromDate : Int)
  {n : Nat} (hn : 0 < n) {v1Source v2Source : Source} {era : Source × (Int × Int) × List Int}

include hzone hn

/-- The rows of a grouped count have an entry for each day. -/
theorem executeBucketCount_ok (hera : era ∈ eras (windowOf cut tenant zone fromDate n) v1Source v2Source) :
    ∃ rows, executeBucketCount db tenant era.1 era.2.1 era.2.2 = .ok rows ∧ ∀ row ∈ rows, row.2.length = n := by
  obtain ⟨hfits, -⟩ := fits_of_mem_eras cut tenant hzone fromDate n hn hera
  obtain ⟨rows, hrows, hlengths, -⟩ := executeBucketCount_spec db tenant era.1 hfits
  exact ⟨rows, hrows, hlengths⟩

/-- The reasons and the days of the rejects add up to one number. -/
structure Balanced (n : Nat) (counts : RejectReasonRangeCounts) : Prop where
  reasons : counts.reasonCounts.length = rejectReasons.length
  days : counts.dayCounts.length = n
  balance : counts.reasonCounts.sum = counts.dayCounts.sum

omit hzone hn in
theorem addReasonGroup_ok {aware : Bool} {state : RejectReasonRangeCounts} (hstate : Balanced n state)
    {row : Option Text × List Nat} (hlength : row.2.length = n) :
    ∃ next, addReasonGroup (windowOf cut tenant zone fromDate n) aware state row = .ok next ∧ Balanced n next := by
  refine ⟨⟨addTo state.reasonCounts (reasonSlot (reasonOfGroup aware row.1)) row.2.sum,
    state.dayCounts.zipWith (· + ·) row.2, state.unexpectedClassRows + unexpectedRows aware row.1 row.2.sum⟩, ?_, ?_, ?_, ?_⟩
  · rw [addReasonGroup, localRange_windowOf, days_rangeOf, bucketCounts, if_neg (not_not.2 hlength)]
    rfl
  · exact (length_addTo ..).trans hstate.reasons
  · exact length_zipWith_add hstate.days hlength
  · dsimp only
    rw [sum_addTo (hstate.reasons.symm ▸ reasonSlot_lt _), sum_zipWith_add (hstate.days.trans hlength.symm), hstate.balance]

theorem addReasonEra_ok (hera : era ∈ eras (windowOf cut tenant zone fromDate n) v1Source v2Source)
    {state : RejectReasonRangeCounts} (hstate : Balanced n state) :
    ∃ next, addReasonEra db tenant (windowOf cut tenant zone fromDate n) state era = .ok next ∧ Balanced n next := by
  obtain ⟨rows, hrows, hlengths⟩ := executeBucketCount_ok cut db tenant hzone fromDate hn hera
  have hstep : ∀ state : RejectReasonRangeCounts, Balanced n state → ∀ row ∈ rows,
      ∃ next, addReasonGroup (windowOf cut tenant zone fromDate n) era.1.aware state row = .ok next ∧ Balanced n next
        ∧ ∀ _ : Unit, 0 = 0 + 0 := by
    intro state hstate row hrow
    obtain ⟨next, hnext, hbalanced⟩ := @addReasonGroup_ok cut tenant zone fromDate n era.1.aware state hstate row (hlengths row hrow)
    exact ⟨next, hnext, hbalanced, fun _ => rfl⟩
  obtain ⟨next, hfold, hnext, -⟩ := @foldlM_adds _ _ _ _ _ _ (fun _ _ => 0) (fun _ _ => 0) rows hstep state hstate
  exact ⟨next, by rw [addReasonEra, hrows]; exact hfold, hnext⟩

end Statement

/-! ### The reads of a report -/

section Reads

variable {world : World}

theorem overEras_ends {σ : Type} {inv : σ → Prop} {owned : List (Source × (Int × Int) × List Int)}
    {step : Database → σ → Source × (Int × Int) × List Int → Except String σ}
    (hstep : ∀ db state, inv state → ∀ era ∈ owned, ∃ next, step db state era = .ok next ∧ inv next) {start : σ} (hstart : inv start) :
    Read.Ends ReportFault.Outside inv (overEras world step start owned) := by
  apply Read.Ends.foldlM ?_ hstart
  intro state hstate era hera
  apply Read.Ends.bind (Read.Ends.statement trivial world.database)
  intro db _
  obtain ⟨next, hnext, hinv⟩ := hstep db state hstate era hera
  exact Read.Ends.ofExcept (by rw [hnext]; rfl) hinv

variable (tenant : ResolvedOperationalTenant) {zone : Zone} (hzone : zone.OrderedMidnights) (fromDate : Int) {n : Nat} (hn : 0 < n)

/-- The window that the cutover at one moment cuts. -/
theorem readWindow_ends : Read.Ends ReportFault.Outside (fun window => ∃ cut, window = windowOf cut tenant zone fromDate n)
    (readWindow world tenant (rangeOf zone fromDate n)) := by
  apply Read.Ends.bind (Read.Ends.statement trivial world.database)
  intro db _
  exact Read.Ends.pure ⟨db, rfl⟩

include hzone hn

theorem readCountsByDay_ends (cut : Database) {v1Source v2Source : Source} (hplain1 : v1Source.grouped = false)
    (hplain2 : v2Source.grouped = false) :
    Read.Ends ReportFault.Outside (fun counts => counts.length = n)
      (readCountsByDay world tenant (windowOf cut tenant zone fromDate n) v1Source v2Source) := by
  apply overEras_ends
  · intro db totals htotals era hera
    obtain ⟨next, hnext, hlength, -⟩ := addEraCounts_spec db tenant cut hzone fromDate hn hera hplain1 hplain2 htotals
    exact ⟨next, hnext, hlength⟩
  · rw [List.length_replicate, localRange_windowOf, days_rangeOf]

/-- The days of the destinations, and the slots of each. -/
structure DayShape (routing : RoutingConfig) (n : Nat) (byDay : List DestinationCounts) : Prop where
  days : byDay.length = n
  slots : ∀ day ∈ byDay, day.transitCounts.length = routing.transit.length

omit hzone hn in
theorem dayShape_destinationDays {routing : RoutingConfig} {state : DestinationsByDay}
    (hshape : DestinationsByDay.Shape routing n state) : DayShape routing n (destinationDays n state) := by
  refine ⟨by rw [destinationDays, List.length_map, List.length_range], ?_⟩
  intro day hday
  obtain ⟨i, hi, rfl⟩ := List.mem_map.1 hday
  have hlt := List.mem_range.1 hi
  show (state.transit.getD i []).length = _
  rw [List.getD_eq_getElem _ _ (hshape.transit.symm ▸ hlt)]
  exact hshape.slots _ (List.getElem_mem _)

theorem readDestinationsByDay_ends (cut : Database) (routing : RoutingConfig) :
    Read.Ends ReportFault.Outside (DayShape routing n)
      (readDestinationsByDay world tenant (windowOf cut tenant zone fromDate n) routing) := by
  rw [readDestinationsByDay, localRange_windowOf, days_rangeOf]
  apply Read.Ends.bind
  · apply overEras_ends
    · intro db state hstate era hera
      obtain ⟨next, hnext, hshape, -⟩ := addDestinationEra_spec db tenant hzone fromDate routing cut hn hera hstate
      exact ⟨next, hnext, hshape⟩
    · exact DestinationsByDay.shape_start routing
  · intro state hstate
    exact Read.Ends.pure (dayShape_destinationDays hstate)

theorem readReasonsByDay_ends (cut : Database) :
    Read.Ends ReportFault.Outside (Balanced n) (readReasonsByDay world tenant (windowOf cut tenant zone fromDate n)) := by
  apply overEras_ends
  · intro db state hstate era hera
    exact addReasonEra_ok cut db tenant hzone fromDate hn hera hstate
  · rw [localRange_windowOf, days_rangeOf]
    refine ⟨List.length_replicate, List.length_replicate, ?_⟩
    show (List.replicate _ 0).sum = (List.replicate _ 0).sum
    rw [List.sum_replicate_nat, List.sum_replicate_nat, Nat.mul_zero, Nat.mul_zero]

end Reads

/-- The sums of the days add up to the total of the range. -/
theorem total_sumDestinationCounts {routing : RoutingConfig} {byDay : List DestinationCounts}
    (hslots : ∀ day ∈ byDay, day.transitCounts.length = routing.transit.length) :
    (sumDestinationCounts byDay routing).total = (byDay.map DestinationCounts.total).sum := by
  have htransit : (sumDestinationCounts byDay routing).transitCount = (byDay.map DestinationCounts.transitCount).sum := by
    rw [sumDestinationCounts, DestinationCounts.transitCount, ← sum_map_comm]
    refine congrArg List.sum (List.map_congr_left ?_)
    intro day hday
    exact (sum_eq_sum_getD (hslots day hday)).symm
  have htotal : (byDay.map DestinationCounts.total).sum
      = (byDay.map DestinationCounts.homeCount).sum + (byDay.map DestinationCounts.transitCount).sum
        + (byDay.map DestinationCounts.otherCount).sum := by
    rw [← sum_map_add, ← sum_map_add]
    rfl
  rw [DestinationCounts.total, htransit, htotal]
  rfl

/-! ### The report of a site -/

/-- What the checks of the organization's overview ask of a site's. -/
structure OverviewReport.Whole (n : Nat) (report : OverviewReport) : Prop where
  checkinDays : report.checkinDays.length = n
  rejectDays : report.rejectDays.length = n
  sum : report.checkinDays.sum = report.checkinCount

structure NetworkWhole (n : Nat) (read : RoutingConfig × RoutingReport) : Prop where
  days : read.2.days.length = n
  slots : read.2.total.transitCounts.length = read.1.transit.length

structure ReliabilityReport.Whole (n : Nat) (report : ReliabilityReport) : Prop where
  checkinDays : report.checkinDays.length = n
  rejects : Balanced n report.rejects

section Sites

variable {world : World} (tenant : ResolvedOperationalTenant) {zone : Zone} (hzone : zone.OrderedMidnights) (fromDate : Int) {n : Nat}
  (hn : 0 < n)

include hzone hn

theorem readOverviewSite_ends :
    Read.Ends ReportFault.Outside (OverviewReport.Whole n) (readOverviewSite world (rangeOf zone fromDate n) tenant) := by
  apply Read.Ends.bind (Read.Ends.statement trivial _)
  intro routing _
  apply Read.Ends.bind (readWindow_ends tenant fromDate)
  rintro window ⟨cut, rfl⟩
  apply Read.Ends.bind (readDestinationsByDay_ends tenant hzone fromDate hn cut routing)
  intro byDestination hshape
  apply Read.Ends.bind (readCountsByDay_ends tenant hzone fromDate hn cut rfl rfl)
  intro rejectDays hrejects
  refine Read.Ends.pure ⟨?_, hrejects, ?_⟩
  · exact (List.length_map ..).trans hshape.days
  · exact (total_sumDestinationCounts hshape.slots).symm

theorem readNetworkSite_ends :
    Read.Ends ReportFault.Outside (NetworkWhole n) (readNetworkSite world (rangeOf zone fromDate n) tenant) := by
  apply Read.Ends.bind (Read.Ends.statement trivial _)
  intro routing _
  apply Read.Ends.bind (readWindow_ends tenant fromDate)
  rintro window ⟨cut, rfl⟩
  have hreport : Read.Ends ReportFault.Outside (fun report => NetworkWhole n (routing, report))
      (readRoutingReport world tenant (windowOf cut tenant zone fromDate n) routing) := by
    apply Read.Ends.bind (readDestinationsByDay_ends tenant hzone fromDate hn cut routing)
    intro byDay hshape
    refine Read.Ends.pure ⟨hshape.days, ?_⟩
    exact (List.length_map ..).trans List.length_range
  apply Read.Ends.bind hreport
  intro report hwhole
  exact Read.Ends.pure hwhole

theorem readReliabilitySite_ends :
    Read.Ends ReportFault.Outside (ReliabilityReport.Whole n) (readReliabilitySite world (rangeOf zone fromDate n) tenant) := by
  apply Read.Ends.bind (readWindow_ends tenant fromDate)
  rintro window ⟨cut, rfl⟩
  apply Read.Ends.bind (readCountsByDay_ends tenant hzone fromDate hn cut rfl rfl)
  intro checkinDays hcheckins
  apply Read.Ends.bind (readReasonsByDay_ends tenant hzone fromDate hn cut)
  intro rejects hrejects
  exact Read.Ends.pure ⟨hcheckins, hrejects⟩

end Sites

end OrganizationReport

end SortView
