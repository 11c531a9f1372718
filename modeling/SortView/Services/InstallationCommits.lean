import SortView.Services.RegistryWrites

/-!
# Installations

What adding, renaming and moving an installation guarantee when they are committed.
-/

namespace SortView

open PyText Transactions Transactions.Protocol Tables Registry Enrollment AdminInstallations

variable {secret : Secrecy} {permits : RegistryAnswer → Locks Row → Registry → Prop} {locks more : Locks Row}
  {committed before after : Registry}

theorem wp_one {library : Library} {installationId : Nat} {redo : Registry → Registry}
    {answer : InstallationView → RegistryAnswer}
    (h : ∀ view, (registryProtocol secret permits).Commits (answer view) locks redo committed) :
    (registryProtocol secret permits).Wp (fun view => (registryProtocol secret permits).Commits (answer view))
      (one library installationId) locks redo committed := by
  simp only [one, wp_bind, wp_select]
  intro now hnow _
  split
  next => trivial
  next view _ => exact (h view).later hnow

/-! ### Adding one -/

theorem commits_insertCollectorInstallation {new : NewInstallation} {rowId : Nat} :
    (registryProtocol secret permits).Wp (fun row => (registryProtocol secret permits).Commits (.installed row))
      (insertCollectorInstallation new rowId) locks id committed := by
  simp only [insertCollectorInstallation, wp_bind, wp_require, wp_select]
  intro _ _ first _ hfirstInv
  split
  next => trivial
  next =>
    simp only [wp_bind, wp_require]
    intro _
    refine wp_insertInstallationRow hfirstInv (fun _ => rfl) fun second more hsecond hsecondInv _ hkey horganization hfree => ?_
    simp only [wp_pure]
    refine commits_of_moves fun later hlater _ => ?_
    refine ⟨rfl, rfl, .same rfl, ?_, .same rfl, .same rfl, .same rfl, .same rfl, by simp, by simp⟩
    exact .inserted (.same rfl) (rely_free_installation hlater hsecondInv hkey hfree) ⟨hkey, horganization, rfl⟩

theorem commits_createInstallation {reader : SettingsReader} {library : Library} {name : Text} {requiredContract : Int}
    {actor : PlatformActor} {rowId : Nat} :
    (registryProtocol secret permits).Wp (fun added => (registryProtocol secret permits).Commits (.installed added.1))
      (createInstallation reader library name requiredContract actor rowId) locks id committed := by
  unfold createInstallation
  split
  next => trivial
  next =>
    simp only [refuseCancelled, audit, wp_bind, wp_require, wp_select]
    intro _ _ first _ _ _ second _ _
    split
    next => trivial
    next =>
      simp only [wp_bind, wp_require, wp_mapFailure]
      intro _
      refine commits_insertCollectorInstallation.mono fun row more redo now h => ?_
      simp only [wp_change]
      exact (wp_one fun _ => registry_commits_log h _).mono fun _ _ _ _ h => h

/-! ### Changing one -/

theorem wp_updateInstallation {post : Bool → Locks Row → (Registry → Registry) → Registry → Prop}
    {organizationId installationId : Nat} {matching : InstallationRow → Bool} {update : InstallationRow → InstallationRow}
    (hno : ∀ now more, (registryProtocol secret permits).Rely locks committed now → post false more id now)
    (hyes : ∀ now row, (registryProtocol secret permits).Rely locks committed now → now.Constraints →
      now.installations.get? installationId = some row → matching row = true →
      post true ((.installation installationId, .noKeyUpdate) :: locks)
        (fun reg => { reg with installations := adjust installationId update reg.installations }) now) :
    (registryProtocol secret permits).Wp post (updateInstallation organizationId installationId matching update) locks id
      committed := by
  refine wp_updateRow (fun now more hnow _ _ => hno now more hnow) fun seen now hseen _ hnow hnowInv hagain => ?_
  obtain ⟨row, hrow, hmatches⟩ := (Option.any_eq_true _ _).1 hagain
  simp only [Bool.and_eq_true] at hmatches
  exact hyes now row (hseen.trans hnow) hnowInv hrow hmatches.2

/-- One row changed under its lock. -/
theorem commits_adjustInstallation {answer : RegistryAnswer} {installationId : Nat} {row : InstallationRow}
    {update : InstallationRow → InstallationRow} (hanswer : ∀ result, answer ≠ .offboarded result)
    (hinv : committed.Constraints) (hlock : (Row.installation installationId, Mode.noKeyUpdate) ∈ locks)
    (hrow : committed.installations.get? installationId = some row)
    (hchanges : ∀ later, (registryProtocol secret permits).Rely locks committed later →
      ChangesInstallation answer locks { later with installations := adjust installationId update later.installations }
        installationId row (update row)) :
    (registryProtocol secret permits).Commits answer locks
      (fun reg => { reg with installations := adjust installationId update reg.installations }) committed := by
  refine commits_of_moves fun later hlater _ => ?_
  refine ⟨rfl, rfl, .same rfl, ?_, .same rfl, .same rfl, .same rfl, .same rfl, fun result h => absurd h (hanswer result),
    fun result h => absurd h (hanswer result)⟩
  refine .adjusted fun row' hrow' => ?_
  rw [rely_installation_held hlater hinv (held_of_mem hlock (by decide)) hrow] at hrow'
  cases hrow'
  exact hchanges later hlater

theorem commits_renameInstallation {library : Library} {installationId : Nat} {name : Text} {actor : PlatformActor} :
    (registryProtocol secret permits).Wp (fun view => (registryProtocol secret permits).Commits (.changed view))
      (renameInstallation library installationId name actor) locks id committed := by
  unfold renameInstallation
  split
  next => trivial
  next name _ =>
    simp only [refuseCancelled, audit, wp_bind, wp_require]
    intro _
    refine wp_updateInstallation (fun now more _ => ?_) fun now row _ hnowInv hrow _ => ?_
    · simp only [Bool.false_eq_true, if_false, wp_bind, one, wp_select]
      intro later _ _
      split <;> trivial
    · simp only [if_true, wp_bind, wp_change]
      refine wp_one fun view => registry_commits_log (commits_adjustInstallation (by simp) hnowInv List.mem_cons_self hrow
        fun later _ => ⟨rfl, rfl, .inl List.mem_cons_self, fun hstatus => hstatus, fun hnot hstatus => absurd hstatus hnot⟩) _

/-! ### Retiring one -/

theorem mem_activeKeyOwners {reg : Registry} {customer branch owner : Nat} : some owner ∈ reg.activeKeyOwners customer branch ↔
    ∃ id key, reg.keys.get? id = some key ∧ key.customerId = customer ∧ key.branchId = branch ∧ key.isActive = true ∧
      key.installationId = some owner := by
  simp only [activeKeyOwners, List.mem_map, mem_idsWhere, Bool.and_eq_true, decide_eq_true_eq]
  constructor
  · rintro ⟨id, ⟨key, hkey, ⟨hcustomer, hbranch⟩, hactive⟩, howner⟩
    rw [hkey] at howner
    exact ⟨id, key, hkey, hcustomer, hbranch, hactive, howner⟩
  · rintro ⟨id, key, hkey, hcustomer, hbranch, hactive, howner⟩
    exact ⟨id, ⟨key, hkey, ⟨hcustomer, hbranch⟩, hactive⟩, by rw [hkey]; exact howner⟩

/-- While its branch is held, an installation is given no key. -/
theorem rely_not_owns {installationId : Nat} {row : InstallationRow}
    (h : (registryProtocol secret permits).Rely locks before after) (hinv : before.Constraints)
    (hheld : Held locks (.branch row.branchId)) (hnot : ¬ before.OwnsTenantKey installationId row) :
    ¬ after.OwnsTenantKey installationId row := by
  refine registry_keeps h hinv (fun reg => ¬ reg.OwnsTenantKey installationId row)
    (fun _ _ s s' hcompatible hmoves _ hfact => ?_) hnot
  rintro ⟨id, key, hkey, hactive, howner, hbranch, hpair⟩
  obtain ⟨old, hold, rfl | ⟨clock, rfl⟩⟩ | ⟨_, hadds⟩ := hmoves.keys.cases hkey
  · exact hfact ⟨id, _, hold, hactive, howner, hbranch, hmoves.mappedPair_iff.1 hpair⟩
  · cases hactive
  · exact not_writeLocked hcompatible hheld (hbranch ▸ hadds.locked)

/-- An installation that may be retired owns no key of its tenant, and its branch is locked. -/
theorem wp_refuseRetiringAKeyOwner {post : Unit → Locks Row → (Registry → Registry) → Registry → Prop} {library : Library}
    {installationId : Nat}
    (h : ∀ now more row, (registryProtocol secret permits).Rely locks committed now → now.Constraints → locks ⊆ more →
      now.installations.get? installationId = some row → (Row.branch row.branchId, Mode.noKeyUpdate) ∈ more →
      ¬ now.OwnsTenantKey installationId row → post () more id now) :
    (registryProtocol secret permits).Wp post (refuseRetiringAKeyOwner library installationId) locks id committed := by
  simp only [refuseRetiringAKeyOwner, wp_bind, wp_select, id_eq]
  intro first hfirst hfirstInv
  cases htenant : installationTenant first library.id installationId with
  | none => trivial
  | some tenant =>
      obtain ⟨row, hrow, hfound⟩ := Option.bind_eq_some_iff.1 htenant
      split at hfound
      next =>
        obtain ⟨organization, horganization, hfound⟩ := Option.bind_eq_some_iff.1 hfound
        obtain ⟨branch, hbranch, rfl⟩ := Option.map_eq_some_iff.1 hfound
        -- a key of the tenant is one of the pair that was read
        have hpairs : ∀ {reg customer}, (registryProtocol secret permits).Rely locks first reg →
            reg.MappedPair row.organizationId customer row.branchId →
            organization.operationalCustomerId = some customer ∧ branch.operationalBranchId = some row.branchId := by
          intro reg customer hreg hpair
          obtain ⟨⟨row', hrow', hcustomer⟩, branch', hbranch', _, hown⟩ := (rely_mappedPair_iff hreg hfirstInv).1 hpair
          rw [horganization] at hrow'
          rw [hbranch] at hbranch'
          cases hrow'
          cases hbranch'
          exact ⟨hcustomer, hown⟩
        have hmine : locks ⊆ (Row.branch row.branchId, Mode.noKeyUpdate) :: locks := List.subset_cons_self _ _
        have hdone : ∀ now, (registryProtocol secret permits).Rely locks first now → now.Constraints →
            (∀ row', row'.branchId = row.branchId → row'.organizationId = row.organizationId →
              ¬ now.OwnsTenantKey installationId row') →
            post () ((.branch row.branchId, .noKeyUpdate) :: locks) id now := by
          intro now hnow hnowInv hnot
          obtain ⟨row', hrow', hsame, hsameBranch, _⟩ := rely_installation hnow hfirstInv hrow
          exact h now _ row' (hfirst.trans hnow) hnowInv hmine hrow' (hsameBranch ▸ List.mem_cons_self)
            (hnot row' hsameBranch hsame)
        simp only [wp_bind, wp_lockRow]
        intro second hsecond hsecondInv
        split
        next customer operational hcustomer hoperational =>
          simp only [wp_bind, wp_select, wp_require, id_eq]
          intro third hthird hthirdInv hnot
          have hreached := hsecond.trans (Rely.mono hthird hmine)
          refine hdone third hreached hthirdInv fun row' hsameBranch hsame => ?_
          rintro ⟨id, key, hkey, hactive, howner, hkeyBranch, hpair⟩
          rw [hkeyBranch, hsameBranch, hsame] at hpair
          obtain ⟨hcustomer', hoperational'⟩ := hpairs hreached hpair
          rw [hcustomer] at hcustomer'
          rw [hoperational] at hoperational'
          refine hnot (mem_activeKeyOwners.2 ⟨id, key, hkey, (Option.some.inj hcustomer').symm, ?_, hactive, howner⟩)
          rw [hkeyBranch, hsameBranch, Option.some.inj hoperational']
        next hnone =>
          refine hdone second hsecond hsecondInv fun row' hsameBranch hsame => ?_
          rintro ⟨id, key, hkey, hactive, howner, hkeyBranch, hpair⟩
          rw [hkeyBranch, hsameBranch, hsame] at hpair
          obtain ⟨hcustomer', hoperational'⟩ := hpairs hsecond hpair
          exact hnone _ _ hcustomer' hoperational'
      next => cases hfound

theorem not_retired_of_transition {current next : InstallationStatus} {wanted : Text}
    (h : transition? current wanted = some next) : current ≠ .retired := by
  intro hretired
  subst hretired
  cases h

/-- The move of an installation, once its retirement has been guarded. -/
theorem wp_moveStatus {post : Bool → Locks Row → (Registry → Registry) → Registry → Prop} {organizationId installationId : Nat}
    {current next : InstallationStatus} (hcurrent : current ≠ .retired)
    (hguard : next = .retired → ∀ later row, (registryProtocol secret permits).Rely locks committed later →
      later.installations.get? installationId = some row →
      (Row.branch row.branchId, Mode.noKeyUpdate) ∈ locks ∧ ¬ later.OwnsTenantKey installationId row)
    (hno : ∀ now more, post false more id now)
    (hyes : ∀ now more redo, (∀ view, (registryProtocol secret permits).Commits (.changed view) more redo now) →
      post true more redo now) :
    (registryProtocol secret permits).Wp post
      (updateInstallation organizationId installationId (fun row => row.status = current) (InstallationRow.move next))
      locks id committed := by
  refine wp_updateInstallation (fun now more _ => hno now more) fun first row hfirst hfirstInv hrow hmatches => ?_
  have hmine : locks ⊆ (Row.installation installationId, Mode.noKeyUpdate) :: locks := List.subset_cons_self _ _
  have hstatus : row.status ≠ .retired := by
    rw [of_decide_eq_true hmatches]
    exact hcurrent
  refine hyes first _ _ fun view => commits_adjustInstallation (by simp) hfirstInv List.mem_cons_self hrow
    fun later hlater => ?_
  refine ⟨rfl, rfl, .inl List.mem_cons_self, fun hretired => absurd hretired hstatus, fun _ hretired => ?_⟩
  have hstays := rely_installation_held hlater hfirstInv (held_of_mem List.mem_cons_self (by decide)) hrow
  obtain ⟨hlocked, hnot⟩ := hguard hretired later row (hfirst.trans (Rely.mono hlater hmine)) hstays
  refine ⟨.inl (.inl (hmine hlocked)), ?_⟩
  rintro ⟨id, key, hkey, hrest⟩
  exact hnot ⟨id, key, hkey, hrest⟩

theorem commits_changeStatus {library : Library} {installationId : Nat} {status : Text} {actor : PlatformActor} :
    (registryProtocol secret permits).Wp (fun view => (registryProtocol secret permits).Commits (.changed view))
      (changeStatus library installationId status actor) locks id committed := by
  simp only [changeStatus, refuseCancelled, audit, wp_bind, wp_require, wp_select]
  intro _ first _ _
  split
  next => trivial
  next current _ =>
    split
    next => trivial
    next next hnext =>
      have hcurrent := not_retired_of_transition hnext
      simp only [guardRetirement, wp_bind]
      by_cases hretired : next = .retired
      · rw [if_pos hretired]
        refine wp_refuseRetiringAKeyOwner fun second more row hsecond hsecondInv hmore hrow hlocked hnot => ?_
        refine wp_moveStatus hcurrent (fun _ later row' hlater hrow' => ?_) (fun _ _ => by simp) fun now most redo h => ?_
        · obtain ⟨kept, hkept, hsame, hsameBranch, _⟩ := rely_installation hlater hsecondInv hrow
          rw [hrow'] at hkept
          cases hkept
          have hstill := rely_not_owns hlater hsecondInv (held_of_mem hlocked (by decide)) hnot
          rw [hsameBranch]
          refine ⟨hlocked, ?_⟩
          rintro ⟨id, key, hkey, hactive, howner, hbranch, hpair⟩
          exact hstill ⟨id, key, hkey, hactive, howner, hbranch.trans hsameBranch, hsame ▸ hpair⟩
        · simp only [wp_require, wp_change]
          exact fun _ => wp_one fun view => registry_commits_log (h view) _
      · rw [if_neg hretired, wp_pure]
        refine wp_moveStatus hcurrent (fun h => absurd h hretired) (fun _ _ => by simp) fun now most redo h => ?_
        simp only [wp_require, wp_change]
        exact fun _ => wp_one fun view => registry_commits_log (h view) _

end SortView
