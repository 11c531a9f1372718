import SortView.Services.SiteReads

/-!
# The sums of an organization's overview and reliability report

What the loop over the reports of the sites has added after each site. Over whole reports no shape and no sum fails a check.
-/

namespace SortView

open PyText Buckets

namespace OrganizationReport

/-! ### Overview -/

/-- A figure of an overview. -/
inductive OverviewFigure where
  | home
  | transit
  | other
  | checkins
  | rejects
  | checkinDay (day : Nat)
  | rejectDay (day : Nat)

def OverviewFigure.ofSite (report : OverviewReport) : OverviewFigure → Nat
  | home => report.routing.homeCount
  | transit => report.routing.transitCount
  | other => report.routing.otherCount
  | checkins => report.checkinCount
  | rejects => report.rejectCount
  | checkinDay day => report.checkinDays.getD day 0
  | rejectDay day => report.rejectDays.getD day 0

def OverviewFigure.ofOrganization (overview : OrganizationOverview) : OverviewFigure → Nat
  | home => overview.homeCount
  | transit => overview.transitCount
  | other => overview.otherCount
  | checkins => overview.checkinCount
  | rejects => overview.rejectCount
  | checkinDay day => overview.checkinDays.getD day 0
  | rejectDay day => overview.rejectDays.getD day 0

/-- An overview is the sum of the sites', and shows each site. -/
structure OverviewSums (reads : List (SiteRead OverviewReport)) (overview : OrganizationOverview) : Prop where
  figures : ∀ figure, OverviewFigure.ofOrganization overview figure
    = ((reportsOf reads).map fun report => OverviewFigure.ofSite report figure).sum
  sorters : overview.sorters = reads.map sorterOverview

def OverviewFigure.ofTotals (totals : OverviewTotals) : OverviewFigure → Nat
  | home => totals.homeCount
  | transit => totals.transitCount
  | other => totals.otherCount
  | checkins => totals.checkinDays.sum
  | rejects => totals.rejectDays.sum
  | checkinDay day => totals.checkinDays.getD day 0
  | rejectDay day => totals.rejectDays.getD day 0

theorem sum_replicate_zero (n : Nat) : (List.replicate n 0).sum = 0 := by
  rw [List.sum_replicate_nat, Nat.mul_zero]

theorem sum_siteWeight_append {τ : Type} (figure : τ → Nat) (done : List (SiteRead τ)) (read : SiteRead τ) :
    ((done ++ [read]).map (siteWeight figure)).sum = (done.map (siteWeight figure)).sum + (read.report.map figure).getD 0 := by
  rw [List.map_append, List.sum_append, List.map_cons, List.map_nil, List.sum_singleton, siteWeight]

/-- What the sites show adds up to the sum over their reports. -/
theorem sum_shown {τ σ : Type} {shownOf : SiteRead τ → σ} {figure : τ → Nat} {shown : σ → Nat}
    (h : ∀ read, shown (shownOf read) = siteWeight figure read) (reads : List (SiteRead τ)) :
    ((reads.map shownOf).map shown).sum = (reads.map (siteWeight figure)).sum := by
  rw [List.map_map]
  exact congrArg List.sum (List.map_congr_left fun read _ => h read)

theorem check_bind {α : Type} {condition : Prop} [Decidable condition] (h : condition) {problem : String}
    {next : Unit → Except ReportFault α} : (check condition problem >>= next) = next () := by
  rw [check, if_pos (decide_eq_true h)]
  rfl

theorem addCounts_ok {totals counts : List Nat} {n : Nat} (htotals : totals.length = n) (hcounts : counts.length = n) :
    addCounts totals counts = .ok (totals.zipWith (· + ·) counts) := if_pos (hcounts.trans htotals.symm)

/-- The running sums after the sites so far. -/
structure OverviewTotals.Of (n : Nat) (done : List (SiteRead OverviewReport)) (totals : OverviewTotals) : Prop where
  checkinDays : totals.checkinDays.length = n
  rejectDays : totals.rejectDays.length = n
  figures : ∀ figure, OverviewFigure.ofTotals totals figure
    = (done.map (siteWeight fun report => OverviewFigure.ofSite report figure)).sum
  sorters : totals.sorters = done.map sorterOverview

theorem OverviewTotals.of_start (n : Nat) :
    OverviewTotals.Of n [] ⟨[], 0, 0, 0, List.replicate n 0, List.replicate n 0⟩ := by
  refine ⟨List.length_replicate, List.length_replicate, ?_, rfl⟩
  intro figure
  cases figure with
  | checkins => exact sum_replicate_zero n
  | rejects => exact sum_replicate_zero n
  | checkinDay day => exact getD_replicate_zero n day
  | rejectDay day => exact getD_replicate_zero n day
  | _ => rfl

theorem addOverview_ok {n : Nat} {done : List (SiteRead OverviewReport)} {totals : OverviewTotals} (htotals : OverviewTotals.Of n done totals)
    {read : SiteRead OverviewReport} (hread : ∀ report, read.report = some report → report.Whole n) :
    ∃ next, addOverview totals read = .ok next ∧ OverviewTotals.Of n (done ++ [read]) next := by
  have hsorters : totals.sorters ++ [sorterOverview read] = (done ++ [read]).map sorterOverview := by
    rw [List.map_append, ← htotals.sorters]
    rfl
  rw [addOverview]
  cases hreport : read.report with
  | none =>
      refine ⟨_, rfl, htotals.checkinDays, htotals.rejectDays, ?_, hsorters⟩
      intro figure
      rw [sum_siteWeight_append, hreport, ← htotals.figures figure]
      cases figure with
      | _ => rfl
  | some report =>
      have hwhole := hread report hreport
      dsimp only
      rw [addCounts_ok htotals.checkinDays hwhole.checkinDays, addCounts_ok htotals.rejectDays hwhole.rejectDays]
      refine ⟨_, rfl, length_zipWith_add htotals.checkinDays hwhole.checkinDays,
        length_zipWith_add htotals.rejectDays hwhole.rejectDays, ?_, hsorters⟩
      intro figure
      rw [sum_siteWeight_append, hreport, ← htotals.figures figure]
      cases figure with
      | home => rfl
      | transit => rfl
      | other => rfl
      | checkins =>
          show (List.zipWith _ _ _).sum = _ + report.checkinCount
          rw [sum_zipWith_add (htotals.checkinDays.trans hwhole.checkinDays.symm), hwhole.sum]
          rfl
      | rejects => exact sum_zipWith_add (htotals.rejectDays.trans hwhole.rejectDays.symm)
      | checkinDay day => exact getD_zipWith_add (htotals.checkinDays.trans hwhole.checkinDays.symm) day
      | rejectDay day => exact getD_zipWith_add (htotals.rejectDays.trans hwhole.rejectDays.symm) day

theorem checkinCount_sorterOverview (read : SiteRead OverviewReport) :
    (sorterOverview read).checkinCount = siteWeight OverviewReport.checkinCount read := by
  rw [sorterOverview, siteWeight]
  cases read.report with
  | none => rfl
  | some report => rfl

theorem rejectCount_sorterOverview (read : SiteRead OverviewReport) :
    (sorterOverview read).rejectCount = siteWeight OverviewReport.rejectCount read := by
  rw [sorterOverview, siteWeight]
  cases read.report with
  | none => rfl
  | some report => rfl

/-- The overview of whole reports is their sum: its own check holds. -/
theorem overviewOf_ok {n : Nat} {reads : List (SiteRead OverviewReport)} (hwhole : AllWhole (OverviewReport.Whole n) reads) :
    ∃ overview, overviewOf n reads = .ok overview ∧ OverviewSums reads overview := by
  have hstep : ∀ done totals, OverviewTotals.Of n done totals → ∀ read ∈ reads,
      ∃ next, addOverview totals read = .ok next ∧ OverviewTotals.Of n (done ++ [read]) next :=
    fun done totals htotals read hread => addOverview_ok htotals (hwhole read hread)
  obtain ⟨totals, hfold, htotals⟩ := foldlM_keeps hstep (OverviewTotals.of_start n)
  rw [List.nil_append] at htotals
  have hfigures := htotals.figures
  have hcheckins : totals.homeCount + totals.transitCount + totals.otherCount = totals.checkinDays.sum := by
    have hparts := congrArg₂ (· + ·) (congrArg₂ (· + ·) (hfigures .home) (hfigures .transit)) (hfigures .other)
    refine hparts.trans (Eq.trans ?_ (hfigures .checkins).symm)
    rw [sum_siteWeight, sum_siteWeight, sum_siteWeight, sum_siteWeight, ← sum_map_add, ← sum_map_add]
    rfl
  have hsorterCheckins := (hfigures .checkins).trans (sum_shown checkinCount_sorterOverview reads).symm
  have hsorterRejects := (hfigures .rejects).trans (sum_shown rejectCount_sorterOverview reads).symm
  rw [← htotals.sorters] at hsorterCheckins hsorterRejects
  refine ⟨⟨totals.sorters, totals.homeCount, totals.transitCount, totals.otherCount, totals.rejectDays.sum, totals.checkinDays,
    totals.rejectDays⟩, ?_, ?_, htotals.sorters⟩
  · rw [overviewOf, hfold]
    exact check_bind ⟨hcheckins, hsorterCheckins, hsorterRejects⟩
  · intro figure
    rw [← sum_siteWeight, ← hfigures figure]
    cases figure with
    | checkins => exact hcheckins
    | _ => rfl

/-! ### Reliability -/

/-- A figure of a reliability report. -/
inductive ReliabilityFigure where
  | checkins
  | rejects
  | reason (slot : Nat)
  | checkinDay (day : Nat)
  | rejectDay (day : Nat)

def ReliabilityFigure.ofSite (report : ReliabilityReport) : ReliabilityFigure → Nat
  | checkins => report.checkinCount
  | rejects => report.rejectCount
  | reason slot => report.rejects.reasonCounts.getD slot 0
  | checkinDay day => report.checkinDays.getD day 0
  | rejectDay day => report.rejects.dayCounts.getD day 0

def ReliabilityFigure.ofOrganization (reliability : OrganizationReliability) : ReliabilityFigure → Nat
  | checkins => reliability.checkinCount
  | rejects => reliability.rejectCount
  | reason slot => reliability.reasonCounts.getD slot 0
  | checkinDay day => reliability.checkinDays.getD day 0
  | rejectDay day => reliability.rejectDays.getD day 0

/-- A reliability report is the sum of the sites', and shows each site. -/
structure ReliabilitySums (reads : List (SiteRead ReliabilityReport)) (reliability : OrganizationReliability) : Prop where
  figures : ∀ figure, ReliabilityFigure.ofOrganization reliability figure
    = ((reportsOf reads).map fun report => ReliabilityFigure.ofSite report figure).sum
  sorters : reliability.sorters = reads.map sorterReliability

/-- The running sums after the sites so far. -/
structure OrganizationReliability.Of (n : Nat) (done : List (SiteRead ReliabilityReport)) (totals : OrganizationReliability) : Prop where
  reasonCounts : totals.reasonCounts.length = rejectReasons.length
  checkinDays : totals.checkinDays.length = n
  rejectDays : totals.rejectDays.length = n
  balance : totals.reasonCounts.sum = totals.rejectDays.sum
  figures : ∀ figure, ReliabilityFigure.ofOrganization totals figure
    = (done.map (siteWeight fun report => ReliabilityFigure.ofSite report figure)).sum
  sorters : totals.sorters = done.map sorterReliability

theorem OrganizationReliability.of_start (n : Nat) :
    OrganizationReliability.Of n [] ⟨[], List.replicate rejectReasons.length 0, List.replicate n 0, List.replicate n 0⟩ := by
  refine ⟨List.length_replicate, List.length_replicate, List.length_replicate, ?_, ?_, rfl⟩
  · exact (sum_replicate_zero _).trans (sum_replicate_zero n).symm
  · intro figure
    cases figure with
    | checkins => exact sum_replicate_zero n
    | rejects => exact sum_replicate_zero _
    | reason slot => exact getD_replicate_zero _ slot
    | checkinDay day => exact getD_replicate_zero n day
    | rejectDay day => exact getD_replicate_zero n day

theorem addReliability_ok {n : Nat} {done : List (SiteRead ReliabilityReport)} {totals : OrganizationReliability}
    (htotals : OrganizationReliability.Of n done totals) {read : SiteRead ReliabilityReport}
    (hread : ∀ report, read.report = some report → report.Whole n) :
    ∃ next, addReliability totals read = .ok next ∧ OrganizationReliability.Of n (done ++ [read]) next := by
  have hsorters : totals.sorters ++ [sorterReliability read] = (done ++ [read]).map sorterReliability := by
    rw [List.map_append, ← htotals.sorters]
    rfl
  rw [addReliability]
  cases hreport : read.report with
  | none =>
      refine ⟨_, rfl, htotals.reasonCounts, htotals.checkinDays, htotals.rejectDays, htotals.balance, ?_, hsorters⟩
      intro figure
      rw [sum_siteWeight_append, hreport, ← htotals.figures figure]
      cases figure with
      | _ => rfl
  | some report =>
      have hwhole := hread report hreport
      have hreasons := htotals.reasonCounts.trans hwhole.rejects.reasons.symm
      have hcheckins := htotals.checkinDays.trans hwhole.checkinDays.symm
      have hrejects := htotals.rejectDays.trans hwhole.rejects.days.symm
      dsimp only
      rw [addCounts_ok htotals.reasonCounts hwhole.rejects.reasons, addCounts_ok htotals.checkinDays hwhole.checkinDays,
        addCounts_ok htotals.rejectDays hwhole.rejects.days]
      refine ⟨_, rfl, length_zipWith_add htotals.reasonCounts hwhole.rejects.reasons,
        length_zipWith_add htotals.checkinDays hwhole.checkinDays, length_zipWith_add htotals.rejectDays hwhole.rejects.days,
        ?_, ?_, hsorters⟩
      · dsimp only
        rw [sum_zipWith_add hreasons, sum_zipWith_add hrejects, htotals.balance, hwhole.rejects.balance]
      · intro figure
        rw [sum_siteWeight_append, hreport, ← htotals.figures figure]
        cases figure with
        | checkins => exact sum_zipWith_add hcheckins
        | rejects => exact sum_zipWith_add hreasons
        | reason slot => exact getD_zipWith_add hreasons slot
        | checkinDay day => exact getD_zipWith_add hcheckins day
        | rejectDay day => exact getD_zipWith_add hrejects day

theorem checkinCount_sorterReliability (read : SiteRead ReliabilityReport) :
    (sorterReliability read).checkinCount = siteWeight ReliabilityReport.checkinCount read := by
  rw [sorterReliability, siteWeight]
  cases read.report with
  | none => rfl
  | some report => rfl

theorem rejectCount_sorterReliability (read : SiteRead ReliabilityReport) :
    (sorterReliability read).rejectCount = siteWeight ReliabilityReport.rejectCount read := by
  rw [sorterReliability, siteWeight]
  cases read.report with
  | none => rfl
  | some report => rfl

/-- The reliability report of whole reports is their sum: its own check holds. -/
theorem reliabilityOf_ok {n : Nat} {reads : List (SiteRead ReliabilityReport)} (hwhole : AllWhole (ReliabilityReport.Whole n) reads) :
    ∃ reliability, reliabilityOf n reads = .ok reliability ∧ ReliabilitySums reads reliability := by
  have hstep : ∀ done totals, OrganizationReliability.Of n done totals → ∀ read ∈ reads,
      ∃ next, addReliability totals read = .ok next ∧ OrganizationReliability.Of n (done ++ [read]) next :=
    fun done totals htotals read hread => addReliability_ok htotals (hwhole read hread)
  obtain ⟨totals, hfold, htotals⟩ := foldlM_keeps hstep (OrganizationReliability.of_start n)
  rw [List.nil_append] at htotals
  have hsorterCheckins := (htotals.figures .checkins).trans (sum_shown checkinCount_sorterReliability reads).symm
  have hsorterRejects := (htotals.figures .rejects).trans (sum_shown rejectCount_sorterReliability reads).symm
  rw [← htotals.sorters] at hsorterCheckins hsorterRejects
  refine ⟨totals, ?_, ?_, htotals.sorters⟩
  · rw [reliabilityOf, hfold]
    exact check_bind ⟨htotals.balance, htotals.balance.symm.trans hsorterRejects, hsorterCheckins⟩
  · intro figure
    rw [← sum_siteWeight, ← htotals.figures figure]

end OrganizationReport

end SortView
