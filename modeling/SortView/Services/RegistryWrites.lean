import SortView.Services.RegistryRely

/-!
# Statements on the registry

What is known after each of the statements that several operations share: the scope of an installation, the
locks of a tenant, and the rows that are inserted and swept.
-/

namespace SortView

open PyText Transactions Transactions.Protocol Tables Registry Enrollment IngestKeys

variable {secret : Secrecy} {permits : RegistryAnswer → Locks Row → Registry → Prop} {locks : Locks Row}
  {redo : Registry → Registry} {committed : Registry}

/-! ### Commits -/

section Commits

variable {answer : RegistryAnswer} {now before after : Registry}

theorem commits_of_moves (h : ∀ later, (registryProtocol secret permits).Rely locks now later → later.Constraints →
      RegistryMoves secret answer locks later (redo later)) :
    (registryProtocol secret permits).Commits answer locks redo now :=
  fun later hlater hinv _ => ⟨h later hlater hinv, (h later hlater hinv).constraints hinv⟩

/-- What is written to the audit log and to the record of cutoffs moves no table. -/
theorem RegistryMoves.records (h : RegistryMoves secret answer locks before after) (auditLog : List AuditRow)
    (lifecycle : List LifecycleRow) :
    RegistryMoves secret answer locks before { after with auditLog := auditLog, lifecycle := lifecycle } where
  branches := h.branches
  customers := h.customers
  organizations := h.organizations
  installations := h.installations.mono
    (fun _ _ _ hchanges => ⟨hchanges.organization, hchanges.branch, hchanges.locked, hchanges.retired, hchanges.retires⟩)
    fun _ _ hadds => hadds
  codes := h.codes.mono (fun _ _ _ hchanges => hchanges) fun _ _ hadds =>
    ⟨hadds.key, hadds.drawn, hadds.unique, hadds.hash, hadds.locked, hadds.installation, hadds.unused, hadds.alone⟩
  tokens := h.tokens.mono (fun _ _ _ hchanges => hchanges) fun _ _ hadds => ⟨hadds.key, hadds.bound, hadds.enrolled⟩
  keys := h.keys.mono (fun _ _ _ hchanges => hchanges) fun _ _ hadds =>
    ⟨hadds.key, hadds.locked, hadds.tenant, hadds.first, hadds.enrolled⟩
  cutovers := h.cutovers.mono (fun _ _ _ hchanges => hchanges) fun _ _ hadds =>
    ⟨hadds.key, hadds.locked, hadds.mapped, hadds.first, hadds.enrolled⟩
  offboarding := h.offboarding
  offboarded := h.offboarded

theorem registry_commits_log (h : (registryProtocol secret permits).Commits answer locks redo now) (row : AuditRow) :
    (registryProtocol secret permits).Commits answer locks ((fun reg => reg.log row) ∘ redo) now := by
  intro later hlater hinv hpermits
  have hmoves := (h later hlater hinv hpermits).1.records ((redo later).auditLog ++ [row]) (redo later).lifecycle
  exact ⟨hmoves, hmoves.constraints hinv⟩

end Commits

/-! ### Sweeps -/

section Sweeps

variable (ids : List Nat) (reg : Registry)

theorem foldl_installations (update : InstallationRow → InstallationRow) :
    ids.foldl (fun view id => { view with installations := adjust id update view.installations }) reg =
      { reg with installations := adjustAll ids update reg.installations } := by
  induction ids generalizing reg with
  | nil => rfl
  | cons id ids ih => exact ih _

theorem foldl_codes (update : CodeRow → CodeRow) :
    ids.foldl (fun view id => { view with codes := adjust id update view.codes }) reg =
      { reg with codes := adjustAll ids update reg.codes } := by
  induction ids generalizing reg with
  | nil => rfl
  | cons id ids ih => exact ih _

theorem foldl_tokens (update : TokenRow → TokenRow) :
    ids.foldl (fun view id => { view with tokens := adjust id update view.tokens }) reg =
      { reg with tokens := adjustAll ids update reg.tokens } := by
  induction ids generalizing reg with
  | nil => rfl
  | cons id ids ih => exact ih _

theorem foldl_keys (update : KeyRow → KeyRow) :
    ids.foldl (fun view id => { view with keys := adjust id update view.keys }) reg =
      { reg with keys := adjustAll ids update reg.keys } := by
  induction ids generalizing reg with
  | nil => rfl
  | cons id ids ih => exact ih _

end Sweeps

/-! ### Rows that are inserted -/

variable (hinv : committed.Constraints)

include hinv

theorem wp_insertCode {post : Unit → Locks Row → (Registry → Registry) → Registry → Prop} {row : CodeRow} {rowId : Nat}
    (hredo : ∀ reg id code, reg.codes.get? id = some code →
      ∃ code', (redo reg).codes.get? id = some code' ∧ code'.codeHash = code.codeHash)
    (h : ∀ now more, (registryProtocol secret permits).Rely locks committed now → now.Constraints → locks ⊆ more →
      (Row.code rowId, Mode.update) ∈ more → (Row.codeHash row.codeHash, Mode.update) ∈ more →
      now.codes.get? rowId = none → (∀ id code, now.codes.get? id = some code → code.codeHash ≠ row.codeHash) →
      post () more ((fun reg => reg.setCode rowId row) ∘ redo) now) :
    (registryProtocol secret permits).Wp post (insertCode row rowId) locks redo committed := by
  refine wp_insertRow (fun before now held more hbefore hbeforeInv hfree hnow hnowInv hheld hmore hkeys _ _ => ?_) hinv
  rw [Bool.or_eq_false_iff] at hfree
  have hrow : (Row.code rowId, Mode.update) ∈ held := hkeys _ (by simp)
  have hhash : (Row.codeHash row.codeHash, Mode.update) ∈ held := hkeys _ (by simp)
  have hnone : before.codes.get? rowId = none := by
    by_contra hne
    obtain ⟨code, hcode⟩ := Option.ne_none_iff_exists'.1 hne
    obtain ⟨code', hcode', _⟩ := hredo before rowId code hcode
    simp [hcode'] at hfree
  have hunused : ∀ id code, before.codes.get? id = some code → code.codeHash ≠ row.codeHash := by
    intro id code hcode hsame
    obtain ⟨code', hcode', hhash'⟩ := hredo before id code hcode
    have hother := any_entries_eq_false (fun code => decide (code.codeHash = row.codeHash)) hfree.2 hcode'
    simp [hhash', hsame] at hother
  have hthen : (registryProtocol secret permits).Rely locks before now := Rely.mono hnow hheld
  exact h now more (hbefore.trans hthen) hnowInv (List.Subset.trans hheld hmore) (hmore hrow) (hmore hhash)
    (rely_free_code hnow hbeforeInv hrow hnone) (rely_codeHash hnow hbeforeInv (.inl hhash) hunused)

theorem wp_insertToken {post : Unit → Locks Row → (Registry → Registry) → Registry → Prop} {row : TokenRow} {rowId : Nat}
    (hredo : ∀ reg id, ((redo reg).tokens.get? id).isSome = (reg.tokens.get? id).isSome)
    (h : ∀ now more, (registryProtocol secret permits).Rely locks committed now → now.Constraints → locks ⊆ more →
      (Row.token rowId, Mode.update) ∈ more → now.tokens.get? rowId = none →
      post () more ((fun reg => reg.setToken rowId row) ∘ redo) now) :
    (registryProtocol secret permits).Wp post (insertToken row rowId) locks redo committed := by
  refine wp_insertRow (fun before now held more hbefore hbeforeInv hfree hnow hnowInv hheld hmore hkeys _ _ => ?_) hinv
  rw [Bool.or_eq_false_iff, hredo] at hfree
  have hrow : (Row.token rowId, Mode.update) ∈ held := hkeys _ (by simp)
  have hthen : (registryProtocol secret permits).Rely locks before now := Rely.mono hnow hheld
  exact h now more (hbefore.trans hthen) hnowInv (List.Subset.trans hheld hmore) (hmore hrow)
    (rely_free_token hnow hbeforeInv hrow (by simpa using hfree.1))

theorem wp_insertKey {post : Unit → Locks Row → (Registry → Registry) → Registry → Prop} {row : KeyRow} {rowId : Nat}
    (hredo : ∀ reg, (redo reg).keys = reg.keys)
    (h : ∀ now more, (registryProtocol secret permits).Rely locks committed now → now.Constraints → locks ⊆ more →
      (Row.key rowId, Mode.update) ∈ more → now.keys.get? rowId = none →
      post () more ((fun reg => reg.setKey rowId row) ∘ redo) now) :
    (registryProtocol secret permits).Wp post (insertKey row rowId) locks redo committed := by
  refine wp_insertRow (fun before now held more hbefore hbeforeInv hfree hnow hnowInv hheld hmore hkeys _ _ => ?_) hinv
  rw [Bool.or_eq_false_iff, hredo] at hfree
  have hrow : (Row.key rowId, Mode.update) ∈ held := hkeys _ (by simp)
  have hthen : (registryProtocol secret permits).Rely locks before now := Rely.mono hnow hheld
  exact h now more (hbefore.trans hthen) hnowInv (List.Subset.trans hheld hmore) (hmore hrow)
    (rely_free_key hnow hbeforeInv hrow (by simpa using hfree.1))

theorem wp_insertCutover {post : Unit → Locks Row → (Registry → Registry) → Registry → Prop} {row : BranchCutoverRow}
    {rowId : Nat} (hredo : ∀ reg, (redo reg).cutovers = reg.cutovers)
    (h : ∀ now more, (registryProtocol secret permits).Rely locks committed now → now.Constraints → locks ⊆ more →
      (Row.cutover rowId, Mode.update) ∈ more → now.cutovers.get? rowId = none →
      post () more ((fun reg => reg.setCutover rowId row) ∘ redo) now) :
    (registryProtocol secret permits).Wp post (insertCutover row rowId) locks redo committed := by
  refine wp_insertRow (fun before now held more hbefore hbeforeInv hfree hnow hnowInv hheld hmore hkeys _ _ => ?_) hinv
  rw [hredo] at hfree
  have hrow : (Row.cutover rowId, Mode.update) ∈ held := hkeys _ (by simp)
  have hthen : (registryProtocol secret permits).Rely locks before now := Rely.mono hnow hheld
  exact h now more (hbefore.trans hthen) hnowInv (List.Subset.trans hheld hmore) (hmore hrow)
    (rely_free_cutover hnow hbeforeInv hrow (by simpa using hfree))

theorem wp_insertInstallationRow {post : Unit → Locks Row → (Registry → Registry) → Registry → Prop}
    {row : InstallationRow} {rowId : Nat} (hredo : ∀ reg, (redo reg).installations = reg.installations)
    (h : ∀ now more, (registryProtocol secret permits).Rely locks committed now → now.Constraints → locks ⊆ more →
      (Row.installation rowId, Mode.update) ∈ more → (Row.organization row.organizationId, Mode.keyShare) ∈ more →
      now.installations.get? rowId = none → post () more ((fun reg => reg.setInstallation rowId row) ∘ redo) now) :
    (registryProtocol secret permits).Wp post (AdminInstallations.insertInstallationRow row rowId) locks redo committed := by
  refine wp_insertRow (fun before now held more hbefore hbeforeInv hfree hnow hnowInv hheld hmore hkeys hrefs _ => ?_) hinv
  rw [hredo] at hfree
  have hrow : (Row.installation rowId, Mode.update) ∈ held := hkeys _ (by simp)
  have hthen : (registryProtocol secret permits).Rely locks before now := Rely.mono hnow hheld
  exact h now more (hbefore.trans hthen) hnowInv (List.Subset.trans hheld hmore) (hmore hrow) (hrefs _ (by simp))
    (rely_free_installation hnow hbeforeInv hrow (by simpa using hfree))

omit hinv

/-! ### Scopes -/

/-- The installation, the organization and the branch of a scope are there, and the pair is theirs. -/
structure Scoped (reg : Registry) (scope : InstallationScope) : Prop where
  installation : ∃ row, reg.installations.get? scope.installationId = some row ∧
    row.organizationId = scope.organizationId ∧ row.branchId = scope.branchId
  pair : reg.MappedPair scope.organizationId scope.customerId scope.branchId
  operational : scope.operationalBranchId = scope.branchId

/-- The installation of a scope, while it can be enrolled. -/
def Enrollable (reg : Registry) (scope : InstallationScope) : Prop :=
  ∃ row, reg.installations.get? scope.installationId = some row ∧ row.organizationId = scope.organizationId ∧
    row.branchId = scope.branchId ∧ row.status ≠ .retired

theorem Scoped.later {before after : Registry} {scope : InstallationScope} (h : Scoped before scope)
    (hrely : (registryProtocol secret permits).Rely locks before after) (hinv : before.Constraints) :
    Scoped after scope where
  installation := by
    obtain ⟨row, hrow, horganization, hbranch⟩ := h.installation
    obtain ⟨row', hrow', horganization', hbranch', _⟩ := rely_installation hrely hinv hrow
    exact ⟨row', hrow', horganization'.trans horganization, hbranch'.trans hbranch⟩
  pair := (rely_mappedPair_iff hrely hinv).2 h.pair
  operational := h.operational

theorem not_retired_of_enrollable {status : InstallationStatus} (h : status.enrollable = true) : status ≠ .retired := by
  intro hretired
  subst hretired
  cases h

theorem not_cancelled_of_enrollable {status : OrganizationStatus} (h : status.enrollable = true) :
    status ≠ .cancelled := by
  intro hcancelled
  subst hcancelled
  cases h

/-- What the checks of `resolve_installation_scope` have seen. -/
theorem scopeOf_ok {installationId : Nat} {expected : Option Nat} {row : ScopeRow} {scope : InstallationScope}
    (h : scopeOf installationId expected row = .ok scope) :
    scope.installationId = installationId ∧ scope.organizationId = row.installation.organizationId ∧
      scope.branchId = row.installation.branchId ∧ row.installation.status ≠ .retired ∧
      row.organization.status ≠ .cancelled ∧ row.organization.operationalCustomerId = some scope.customerId ∧
      scope.operationalBranchId = scope.branchId ∧ ∃ branch, row.branch = some branch ∧
        branch.organizationId = scope.organizationId ∧ branch.operationalBranchId = some scope.branchId := by
  simp only [scopeOf] at h
  split_ifs at h with _ hinstallation horganization
  cases hbranch : row.branch with
  | none =>
      rw [hbranch] at h
      cases h
  | some branch =>
      simp only [hbranch] at h
      split_ifs at h with hsame _
      cases hcustomer : row.organization.operationalCustomerId with
      | none =>
          rw [hcustomer] at h
          cases h
      | some customerId =>
          cases hoperational : branch.operationalBranchId with
          | none =>
              rw [hcustomer, hoperational] at h
              cases h
          | some operationalBranchId =>
              simp only [hcustomer, hoperational] at h
              split_ifs at h with hown
              cases h
              rw [not_not] at hown hsame
              rw [Bool.not_eq_false] at hinstallation horganization
              refine ⟨rfl, rfl, rfl, not_retired_of_enrollable hinstallation, not_cancelled_of_enrollable horganization, rfl,
                hown, branch, rfl, hsame, ?_⟩
              rw [hoperational, hown]

/-- Writes that leave what a scope is read from. -/
structure LeavesTenants (redo : Registry → Registry) : Prop where
  installations : ∀ reg, (redo reg).installations = reg.installations
  organizations : ∀ reg, (redo reg).organizations = reg.organizations
  branches : ∀ reg, (redo reg).branches = reg.branches

theorem leavesTenants_id : LeavesTenants id := ⟨fun _ => rfl, fun _ => rfl, fun _ => rfl⟩

theorem scopeRow_eq_some {reg : Registry} {installationId : Nat} {row : ScopeRow}
    (h : reg.scopeRow installationId = some row) : reg.installations.get? installationId = some row.installation ∧
      reg.organizations.get? row.installation.organizationId = some row.organization ∧
      row.branch = reg.branches.get? row.installation.branchId := by
  obtain ⟨installation, hinstallation, h⟩ := Option.bind_eq_some_iff.1 h
  obtain ⟨organization, horganization, rfl⟩ := Option.map_eq_some_iff.1 h
  exact ⟨hinstallation, horganization, rfl⟩

theorem scopeRow_redo (hredo : LeavesTenants redo) (reg : Registry) (installationId : Nat) :
    (redo reg).scopeRow installationId = reg.scopeRow installationId := by
  unfold scopeRow
  rw [hredo.installations, hredo.organizations, hredo.branches]

/-- The organization whose row was seen is not cancelled. -/
theorem not_cancelled_of_row {reg : Registry} {organization : Nat} {row : OrganizationRow}
    (hrow : reg.organizations.get? organization = some row) (hstatus : row.status ≠ .cancelled) :
    ¬ reg.Cancelled organization := by
  rintro ⟨row', hrow', hcancelled⟩
  rw [hrow] at hrow'
  cases hrow'
  exact hstatus hcancelled

/-- A scope that was read without a lock. -/
theorem wp_resolve {post : InstallationScope → Locks Row → (Registry → Registry) → Registry → Prop} {installationId : Nat}
    {expected : Option Nat} (hredo : LeavesTenants redo)
    (h : ∀ seen now scope, (registryProtocol secret permits).Rely locks committed seen → seen.Constraints →
      Scoped seen scope → Enrollable seen scope → ¬ seen.Cancelled scope.organizationId →
      scope.installationId = installationId → (registryProtocol secret permits).Rely locks seen now →
      now.Constraints → post scope locks redo now) :
    (registryProtocol secret permits).Wp post (resolveInstallationScope installationId false expected) locks redo
      committed := by
  simp only [resolveInstallationScope, readScopeRow, wp_bind, wp_select]
  intro seen hseen hseenInv
  rw [scopeRow_redo hredo]
  cases hrow : seen.scopeRow installationId with
  | none => trivial
  | some row =>
      obtain ⟨hinstallation, horganization, hbranch⟩ := scopeRow_eq_some hrow
      dsimp only
      cases hscope : scopeOf installationId expected row with
      | error reason => trivial
      | ok scope =>
          obtain ⟨hid, hsame, hsameBranch, hstatus, hlive, hcustomer, hoperational, branch, hfound, howner, hown⟩ :=
            scopeOf_ok hscope
          rw [hbranch, ← hsameBranch] at hfound
          rw [← hsame] at horganization
          rw [← hid] at hinstallation
          simp only [wp_bind, wp_select, wp_require, wp_pure]
          intro second hsecond hsecondInv _ third hthird hthirdInv _
          exact h seen third scope hseen hseenInv
            ⟨⟨_, hinstallation, hsame.symm, hsameBranch.symm⟩, ⟨⟨_, horganization, hcustomer⟩, branch, hfound, howner, hown⟩,
              hoperational⟩
            ⟨_, hinstallation, hsame.symm, hsameBranch.symm, hstatus⟩ (not_cancelled_of_row horganization hlive) hid
            (hsecond.trans hthird) hthirdInv

/-- A scope whose installation is locked: it can be enrolled, and its organization is not cancelled, although that
was read before. -/
theorem wp_resolve_locked {post : InstallationScope → Locks Row → (Registry → Registry) → Registry → Prop}
    {installationId : Nat} {expected : Option Nat} (hredo : LeavesTenants redo)
    (h : ∀ now scope, (registryProtocol secret permits).Rely locks committed now → now.Constraints →
      Scoped now scope → Enrollable now scope → ¬ now.Cancelled scope.organizationId →
      scope.installationId = installationId →
      post scope ((.installation installationId, .update) :: locks) redo now) :
    (registryProtocol secret permits).Wp post (resolveInstallationScope installationId true expected) locks redo
      committed := by
  simp only [resolveInstallationScope, readScopeRow, wp_bind, wp_select]
  intro seen hseen hseenInv
  rw [scopeRow_redo hredo]
  cases hrow : seen.scopeRow installationId with
  | none => trivial
  | some row =>
      obtain ⟨hinstallation, horganization, hbranch⟩ := scopeRow_eq_some hrow
      simp only [wp_bind, wp_lockRow, wp_select]
      intro first hfirst hfirstInv held hheld hheldInv
      rw [hredo.installations]
      have hthen : (registryProtocol secret permits).Rely locks seen held :=
        hfirst.trans (Rely.mono hheld (List.subset_cons_self _ _))
      obtain ⟨installation, hagain, hkept, hkeptBranch, _⟩ := rely_installation hthen hseenInv hinstallation
      rw [hagain]
      simp only [Option.map_some]
      cases hscope : scopeOf installationId expected { row with installation := installation } with
      | error reason => trivial
      | ok scope =>
          obtain ⟨hid, hsame, hsameBranch, hstatus, hlive, hcustomer, hoperational, branch, hfound, howner, hown⟩ :=
            scopeOf_ok hscope
          dsimp only at hsame hsameBranch hstatus hlive hcustomer hfound
          have hseenScope : Scoped seen scope := by
            rw [hbranch, ← hkeptBranch, ← hsameBranch] at hfound
            rw [← hkept, ← hsame] at horganization
            rw [← hid] at hinstallation
            exact ⟨⟨_, hinstallation, (hsame.trans hkept).symm, (hsameBranch.trans hkeptBranch).symm⟩,
              ⟨⟨_, horganization, hcustomer⟩, branch, hfound, howner, hown⟩, hoperational⟩
          simp only [wp_bind, wp_select, wp_require, wp_pure]
          intro second hsecond hsecondInv _ third hthird hthirdInv _
          have hlater : (registryProtocol secret permits).Rely ((Row.installation installationId, Mode.update) :: locks) held
            third := hsecond.trans hthird
          have hmine : locks ⊆ (Row.installation installationId, Mode.update) :: locks := List.subset_cons_self _ _
          have hfinal := rely_installation_held hlater hheldInv (held_of_mem List.mem_cons_self (by decide)) hagain
          have hreached : (registryProtocol secret permits).Rely locks seen third := hthen.trans (Rely.mono hlater hmine)
          have hopen := rely_uncancelled hreached hseenInv hinstallation (not_cancelled_of_row horganization hlive) hfinal
            hstatus
          rw [← hkept, ← hsame] at hopen
          exact h third scope (hseen.trans hreached) hthirdInv (hseenScope.later hreached hseenInv)
            ⟨installation, by rw [hid]; exact hfinal, hsame.symm, hsameBranch.symm, hstatus⟩ hopen hid

end SortView
