import SortView.Services.OrganizationReport

/-!
# A run over the sites of an organization

The reads of the listed sites are all of them or none: what a run over the sites is, what its faults are, and what it gives
when nothing changes.
-/

namespace SortView

open PyText Snapshots

namespace OrganizationReport

/-- What ends a report other than its own checks: a failure, a site that does not resolve, a scope that two sites share. -/
def ReportFault.Outside : ReportFault → Prop
  | .failed => True
  | .siteNotResolved => True
  | .organization problem => problem = sharedScopeProblem
  | .operational _ => False

section Run

variable {τ : Type} {world : World} {readSite : ResolvedOperationalTenant → Read ReportFault τ}

/-- A run over listed sites, from the number of statements run before: a site that does not resolve has no operational
scope, and any other has a scope of its own, is opened and is read. -/
inductive Visits (world : World) (readSite : ResolvedOperationalTenant → Read ReportFault τ) :
    List (Text × Text) → Nat → List SorterSite → List (SiteRead τ) → Nat → Prop
  | nil (scopesRead : List (Text × Text)) (k : Nat) : Visits world readSite scopesRead k [] [] k
  | unmapped {scopesRead : List (Text × Text)} {k m : Nat} {site : SorterSite} {sites : List SorterSite}
      {rows : List (Bool × Bool)} {reads : List (SiteRead τ)} (hresolve : world.resolveSite k site.hostBranchSlug = some none)
      (hrows : world.siteMapping (k + 1) site.hostBranchSlug = some rows) (hmapping : hasNoOperationalScope rows = true)
      (hrest : Visits world readSite scopesRead (k + 2) sites reads m) :
      Visits world readSite scopesRead k (site :: sites) (⟨site, none⟩ :: reads) m
  | read {scopesRead : List (Text × Text)} {k j m : Nat} {site : SorterSite} {sites : List SorterSite}
      {tenant : ResolvedOperationalTenant} {report : τ} {reads : List (SiteRead τ)}
      (hresolve : world.resolveSite k site.hostBranchSlug = some (some tenant)) (hscope : scopeOf tenant ∉ scopesRead)
      (hopen : world.openSite (k + 1) tenant = some ()) (hread : readSite tenant (k + 2) = .ok (report, j))
      (hrest : Visits world readSite (scopeOf tenant :: scopesRead) j sites reads m) :
      Visits world readSite scopesRead k (site :: sites) (⟨site, some report⟩ :: reads) m

/-- The loop over the sites gives its reads exactly when it visits every site. -/
theorem readSites_eq_ok_iff {sites : List SorterSite} {scopesRead : List (Text × Text)} {k m : Nat} {reads : List (SiteRead τ)} :
    readSites world readSite sites scopesRead k = .ok (reads, m) ↔ Visits world readSite scopesRead k sites reads m := by
  induction sites generalizing scopesRead k reads with
  | nil =>
      rw [readSites, Read.pure_eq_ok]
      constructor
      · rintro ⟨rfl, rfl⟩
        exact Visits.nil scopesRead k
      · intro h
        cases h
        exact ⟨rfl, rfl⟩
  | cons site sites ih =>
      rw [readSites, Read.bind_eq_ok]
      constructor
      · rintro ⟨tenant, j, htenant, hrun⟩
        obtain ⟨hresolve, rfl⟩ := Read.statement_eq_ok.1 htenant
        cases tenant with
        | none =>
            obtain ⟨rows, j, hstatement, hrun⟩ := Read.bind_eq_ok.1 hrun
            obtain ⟨hrows, rfl⟩ := Read.statement_eq_ok.1 hstatement
            obtain ⟨_, j, hcheck, hrun⟩ := Read.bind_eq_ok.1 hrun
            obtain ⟨hmapping, rfl⟩ := Read.require_eq_ok.1 hcheck
            obtain ⟨rest, j, hrest, hrun⟩ := Read.bind_eq_ok.1 hrun
            obtain ⟨rfl, rfl⟩ := Read.pure_eq_ok.1 hrun
            exact Visits.unmapped hresolve hrows hmapping (ih.1 hrest)
        | some tenant =>
            obtain ⟨_, j, hcheck, hrun⟩ := Read.bind_eq_ok.1 hrun
            obtain ⟨hscope, rfl⟩ := Read.require_eq_ok.1 hcheck
            obtain ⟨_, j, hstatement, hrun⟩ := Read.bind_eq_ok.1 hrun
            obtain ⟨hopen, rfl⟩ := Read.statement_eq_ok.1 hstatement
            obtain ⟨report, j, hread, hrun⟩ := Read.bind_eq_ok.1 hrun
            obtain ⟨rest, j, hrest, hrun⟩ := Read.bind_eq_ok.1 hrun
            obtain ⟨rfl, rfl⟩ := Read.pure_eq_ok.1 hrun
            exact Visits.read hresolve (of_decide_eq_true hscope) hopen hread (ih.1 hrest)
      · intro h
        cases h with
        | @unmapped _ _ _ _ _ rows rest hresolve hrows hmapping hrest =>
            refine ⟨none, k + 1, Read.statement_eq_ok.2 ⟨hresolve, rfl⟩, Read.bind_eq_ok.2 ⟨rows, k + 2,
              Read.statement_eq_ok.2 ⟨hrows, rfl⟩, Read.bind_eq_ok.2 ⟨(), k + 2, Read.require_eq_ok.2 ⟨hmapping, rfl⟩,
              Read.bind_eq_ok.2 ⟨rest, m, ih.2 hrest, Read.pure_eq_ok.2 ⟨rfl, rfl⟩⟩⟩⟩⟩
        | @read _ _ j _ _ _ tenant report rest hresolve hscope hopen hread hrest =>
            refine ⟨some tenant, k + 1, Read.statement_eq_ok.2 ⟨hresolve, rfl⟩, Read.bind_eq_ok.2 ⟨(), k + 1,
              Read.require_eq_ok.2 ⟨decide_eq_true hscope, rfl⟩, Read.bind_eq_ok.2 ⟨(), k + 2,
              Read.statement_eq_ok.2 ⟨hopen, rfl⟩, Read.bind_eq_ok.2 ⟨report, j, hread,
              Read.bind_eq_ok.2 ⟨rest, m, ih.2 hrest, Read.pure_eq_ok.2 ⟨rfl, rfl⟩⟩⟩⟩⟩⟩

/-- The reads of the listed sites, when the sites were listed first. -/
theorem readSorterSites_eq_ok_iff {k m : Nat} {reads : List (SiteRead τ)} :
    readSorterSites world readSite k = .ok (reads, m)
      ↔ ∃ sites, world.sites k = some sites ∧ Visits world readSite [] (k + 1) sites reads m := by
  rw [readSorterSites, Read.bind_eq_ok]
  constructor
  · rintro ⟨sites, j, hstatement, hrun⟩
    obtain ⟨hsites, rfl⟩ := Read.statement_eq_ok.1 hstatement
    exact ⟨sites, hsites, readSites_eq_ok_iff.1 hrun⟩
  · rintro ⟨sites, hsites, hvisits⟩
    exact ⟨sites, k + 1, Read.statement_eq_ok.2 ⟨hsites, rfl⟩, readSites_eq_ok_iff.2 hvisits⟩

/-- Every report that was read is as the reads of a site end. -/
def AllWhole (whole : τ → Prop) (reads : List (SiteRead τ)) : Prop := ∀ read ∈ reads, ∀ report, read.report = some report → whole report

theorem readSites_ends {whole : τ → Prop} (hsite : ∀ tenant, Read.Ends ReportFault.Outside whole (readSite tenant))
    (sites : List SorterSite) (scopesRead : List (Text × Text)) :
    Read.Ends ReportFault.Outside (AllWhole whole) (readSites world readSite sites scopesRead) := by
  induction sites generalizing scopesRead with
  | nil =>
      apply Read.Ends.pure
      intro read hread
      cases hread
  | cons site sites ih =>
      apply Read.Ends.bind (Read.Ends.statement trivial _)
      intro tenant _
      cases tenant with
      | none =>
          apply Read.Ends.bind (Read.Ends.statement trivial _)
          intro rows _
          apply Read.Ends.bind (Read.Ends.require_of_allowed trivial)
          intro _ _
          apply Read.Ends.bind (ih scopesRead)
          intro reads hreads
          apply Read.Ends.pure
          intro read hread report hreport
          rcases List.mem_cons.1 hread with rfl | hread
          · cases hreport
          · exact hreads read hread report hreport
      | some tenant =>
          apply Read.Ends.bind (Read.Ends.require_of_allowed (show ReportFault.Outside (.organization sharedScopeProblem) from rfl))
          intro _ _
          apply Read.Ends.bind (Read.Ends.statement trivial _)
          intro _ _
          apply Read.Ends.bind (hsite tenant)
          intro result hresult
          apply Read.Ends.bind (ih (scopeOf tenant :: scopesRead))
          intro reads hreads
          apply Read.Ends.pure
          intro read hread report hreport
          rcases List.mem_cons.1 hread with rfl | hread
          · cases hreport
            exact hresult
          · exact hreads read hread report hreport

theorem readSorterSites_ends {whole : τ → Prop} (hsite : ∀ tenant, Read.Ends ReportFault.Outside whole (readSite tenant)) :
    Read.Ends ReportFault.Outside (AllWhole whole) (readSorterSites world readSite) := by
  apply Read.Ends.bind (Read.Ends.statement trivial _)
  intro sites _
  exact readSites_ends hsite sites []

/-- The reports of the sites that have a scope. -/
def reportsOf (reads : List (SiteRead τ)) : List τ := reads.filterMap SiteRead.report

/-- What a site adds to a sum. -/
def siteWeight (figure : τ → Nat) (read : SiteRead τ) : Nat := (read.report.map figure).getD 0

theorem sum_siteWeight (figure : τ → Nat) (reads : List (SiteRead τ)) :
    (reads.map (siteWeight figure)).sum = ((reportsOf reads).map figure).sum := by
  induction reads with
  | nil => rfl
  | cons read reads ih =>
      rw [List.map_cons, List.sum_cons, ih, reportsOf, reportsOf, List.filterMap_cons, siteWeight]
      cases read.report with
      | none => exact Nat.zero_add _
      | some report => rfl

/-! ### A run while nothing changes -/

/-- The read of a listed site alone, from the scope that its branch resolves to and the report of a scope. -/
def ownRead (resolve : Text → Option ResolvedOperationalTenant) (own : ResolvedOperationalTenant → Except String τ)
    (site : SorterSite) : Except String (SiteRead τ) :=
  match resolve site.hostBranchSlug with
  | none => .ok ⟨site, none⟩
  | some tenant => do
      let report ← own tenant
      return ⟨site, some report⟩

/-- The scopes of the listed sites that have one. -/
def scopesOf (resolve : Text → Option ResolvedOperationalTenant) (sites : List SorterSite) : List (Text × Text) :=
  (sites.filterMap fun site => resolve site.hostBranchSlug).map scopeOf

theorem scopesOf_cons (resolve : Text → Option ResolvedOperationalTenant) (site : SorterSite) (sites : List SorterSite) :
    scopesOf resolve (site :: sites) = ((resolve site.hostBranchSlug).map scopeOf).toList ++ scopesOf resolve sites := by
  rw [scopesOf, List.filterMap_cons]
  cases resolve site.hostBranchSlug with
  | none => rfl
  | some tenant => rfl

/-- While nothing changes, a run gives the read of each site alone, and reads no scope twice. -/
theorem Visits.steady {resolve : Text → Option ResolvedOperationalTenant} {own : ResolvedOperationalTenant → Except String τ}
    (hresolve : ∀ k branch answer, world.resolveSite k branch = some answer → answer = resolve branch)
    (hown : ∀ tenant, Read.Computes (readSite tenant) (own tenant))
    {scopesRead : List (Text × Text)} {k m : Nat} {sites : List SorterSite} {reads : List (SiteRead τ)}
    (h : Visits world readSite scopesRead k sites reads m) :
    sites.mapM (ownRead resolve own) = .ok reads ∧ (scopesOf resolve sites).Nodup ∧ ∀ scope ∈ scopesOf resolve sites, scope ∉ scopesRead := by
  induction h with
  | nil scopesRead k => exact ⟨rfl, List.nodup_nil, fun _ hscope => by cases hscope⟩
  | @unmapped scopesRead k m site sites rows reads hnone hrows hmapping hrest ih =>
      have hnone := (hresolve _ _ _ hnone).symm
      obtain ⟨hreads, hnodup, hfresh⟩ := ih
      rw [scopesOf_cons, hnone]
      refine ⟨?_, hnodup, hfresh⟩
      rw [List.mapM_cons, ownRead, hnone, hreads]
      rfl
  | @read scopesRead k j m site sites tenant report reads hsome hscope hopen hread hrest ih =>
      have hsome := (hresolve _ _ _ hsome).symm
      obtain ⟨hreads, hnodup, hfresh⟩ := ih
      rw [scopesOf_cons, hsome, Option.map_some, Option.toList_some, List.singleton_append, List.nodup_cons]
      refine ⟨?_, ⟨fun hmem => hfresh _ hmem (List.mem_cons_self ..), hnodup⟩, ?_⟩
      · rw [List.mapM_cons, ownRead, hsome, hreads]
        dsimp only
        rw [hown tenant _ _ _ hread]
        rfl
      · intro scope hmem
        rcases List.mem_cons.1 hmem with rfl | hmem
        · exact hscope
        · exact fun hold => hfresh scope hmem (List.mem_cons_of_mem _ hold)

end Run

end OrganizationReport

end SortView
