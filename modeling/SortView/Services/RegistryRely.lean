import SortView.Services.RegistryMoves

/-!
# What a transaction on the registry may rely on

The constraints of the schema hold throughout, and what was read under a lock is still so when the transaction
commits.
-/

namespace SortView

open PyText Transactions Transactions.Protocol Tables Registry

/-! ### Queries as facts -/

section Queries

variable {reg : Registry} {customer branch : Nat}

theorem hasActiveKey_eq_false_iff : reg.hasActiveKey customer branch = false ↔
    ∀ id key, reg.keys.get? id = some key → key.customerId = customer → key.branchId = branch → key.isActive = false := by
  simp only [hasActiveKey, List.any_eq_false, Bool.and_eq_true, decide_eq_true_eq, not_and, Bool.not_eq_true, Prod.forall]
  constructor
  · intro h id key hkey hcustomer hbranch
    exact h id key ((Dict.get?_eq_some_iff _ _ _).1 hkey) ⟨hcustomer, hbranch⟩
  · intro h id key hmem hpair
    exact h id key ((Dict.get?_eq_some_iff _ _ _).2 hmem) hpair.1 hpair.2

theorem hasAnyCutover_eq_false_iff : reg.hasAnyCutover customer branch = false ↔
    ∀ id cutover, reg.cutovers.get? id = some cutover → cutover.customerId = customer → cutover.branchId ≠ branch := by
  simp only [hasAnyCutover, List.any_eq_false, Bool.and_eq_true, decide_eq_true_eq, not_and, Prod.forall]
  constructor
  · intro h id cutover hcutover hcustomer
    exact h id cutover ((Dict.get?_eq_some_iff _ _ _).1 hcutover) hcustomer
  · intro h id cutover hmem hcustomer
    exact h id cutover ((Dict.get?_eq_some_iff _ _ _).2 hmem) hcustomer

theorem get?_of_codeByHash {hash : Text} {id : Nat} {code : CodeRow} (h : reg.codeByHash hash = some (id, code)) :
    reg.codes.get? id = some code ∧ code.codeHash = hash := by
  have hmem := List.mem_of_find?_eq_some h
  exact ⟨(Dict.get?_eq_some_iff _ _ _).2 hmem, by simpa using List.find?_some h⟩

theorem exists_codeByHash {hash : Text} {id : Nat} {code : CodeRow} (hcode : reg.codes.get? id = some code)
    (hhash : code.codeHash = hash) : ∃ found, reg.codeByHash hash = some found := by
  have hmem := (Dict.get?_eq_some_iff _ _ _).1 hcode
  exact Option.isSome_iff_exists.1 (List.find?_isSome.2 ⟨_, hmem, by simpa using hhash⟩)

theorem isCancelled_iff {organization : Nat} : reg.isCancelled organization = true ↔ reg.Cancelled organization := by
  simp [isCancelled, Cancelled, Option.any_eq_true]

end Queries

/-! ### One commit -/

namespace RegistryMoves

variable {secret : Secrecy} {answer : RegistryAnswer} {locks : Locks Row} {before after : Registry}
  (h : RegistryMoves secret answer locks before after)

include h

theorem organization {id : Nat} {row : OrganizationRow} (hrow : before.organizations.get? id = some row) :
    ∃ row', after.organizations.get? id = some row' ∧ row'.operationalCustomerId = row.operationalCustomerId ∧
      (row.status = .cancelled → row'.status = .cancelled) := by
  obtain ⟨row', hrow', rfl | ⟨rfl, _⟩⟩ := h.organizations.kept id row hrow
  · exact ⟨row', hrow', rfl, fun hstatus => hstatus⟩
  · exact ⟨_, hrow', rfl, fun _ => rfl⟩

theorem no_organization {id : Nat} (hnone : before.organizations.get? id = none) : after.organizations.get? id = none := by
  by_contra hne
  obtain ⟨row', hrow'⟩ := Option.ne_none_iff_exists'.1 hne
  exact h.organizations.added id row' hnone hrow'

theorem organization_before {id : Nat} {row' : OrganizationRow} (hrow' : after.organizations.get? id = some row') :
    ∃ row, before.organizations.get? id = some row ∧ row'.operationalCustomerId = row.operationalCustomerId := by
  obtain ⟨row, hrow, rfl | ⟨rfl, _⟩⟩ | ⟨_, hfalse⟩ := h.organizations.cases hrow'
  · exact ⟨_, hrow, rfl⟩
  · exact ⟨row, hrow, rfl⟩
  · exact hfalse.elim

theorem cancelled {organization : Nat} (hcancelled : before.Cancelled organization) : after.Cancelled organization := by
  obtain ⟨row, hrow, hstatus⟩ := hcancelled
  obtain ⟨row', hrow', _, hstays⟩ := h.organization hrow
  exact ⟨row', hrow', hstays hstatus⟩

theorem mappedPair_iff {organization customer branch : Nat} :
    after.MappedPair organization customer branch ↔ before.MappedPair organization customer branch := by
  constructor
  · rintro ⟨⟨row', hrow', hcustomer⟩, hbranch⟩
    obtain ⟨row, hrow, hsame⟩ := h.organization_before hrow'
    exact ⟨⟨row, hrow, hsame ▸ hcustomer⟩, h.branches ▸ hbranch⟩
  · rintro ⟨⟨row, hrow, hcustomer⟩, hbranch⟩
    obtain ⟨row', hrow', hsame, _⟩ := h.organization hrow
    exact ⟨⟨row', hrow', hsame.trans hcustomer⟩, h.branches.symm ▸ hbranch⟩

theorem installation {id : Nat} {row : InstallationRow} (hrow : before.installations.get? id = some row) :
    ∃ row', after.installations.get? id = some row' ∧ row'.organizationId = row.organizationId ∧
      row'.branchId = row.branchId ∧ (row.status = .retired → row'.status = .retired) := by
  obtain ⟨row', hrow', rfl | hchanges⟩ := h.installations.kept id row hrow
  · exact ⟨row', hrow', rfl, rfl, fun hstatus => hstatus⟩
  · exact ⟨row', hrow', hchanges.organization, hchanges.branch, hchanges.retired⟩

theorem installation_isSome {id : Nat} (hsome : (before.installations.get? id).isSome) :
    (after.installations.get? id).isSome := by
  obtain ⟨row, hrow⟩ := Option.isSome_iff_exists.1 hsome
  obtain ⟨row', hrow', _⟩ := h.installation hrow
  rw [hrow']
  rfl

theorem code {id : Nat} {row : CodeRow} (hrow : before.codes.get? id = some row) :
    ∃ row', after.codes.get? id = some row' ∧ row'.installationId = row.installationId ∧ row'.codeHash = row.codeHash ∧
      (row.isOpen = false → row'.isOpen = false) ∧ (row.usedAt.isSome → row'.usedAt.isSome) := by
  obtain ⟨row', hrow', rfl | ⟨_, clock, rfl | rfl⟩⟩ := h.codes.kept id row hrow
  · exact ⟨row', hrow', rfl, rfl, fun hclosed => hclosed, fun hused => hused⟩
  · exact ⟨_, hrow', rfl, rfl, fun _ => by simp [CodeRow.isOpen, CodeRow.revoke], fun hused => hused⟩
  · exact ⟨_, hrow', rfl, rfl, fun _ => by simp [CodeRow.isOpen, CodeRow.claim], fun _ => rfl⟩

/-- The schema holds of what is committed. -/
theorem constraints (hbefore : before.Constraints) : after.Constraints where
  customers id id' row row' customer hrow hrow' hcustomer hcustomer' := by
    obtain ⟨old, hold, hsame⟩ := h.organization_before hrow
    obtain ⟨old', hold', hsame'⟩ := h.organization_before hrow'
    exact hbefore.customers id id' old old' customer hold hold' (hsame ▸ hcustomer) (hsame' ▸ hcustomer')
  branches id row branch hrow hbranch := hbefore.branches id row branch (h.branches ▸ hrow) hbranch
  codeHashes id id' row row' hrow hrow' hsame := by
    have hhash : ∀ {id row old}, after.codes.get? id = some row → before.codes.get? id = some old →
        row.codeHash = old.codeHash := by
      intro id row old hrow hold
      obtain ⟨row'', hrow'', _, hcode, _⟩ := h.code hold
      rw [hrow] at hrow''
      cases hrow''
      exact hcode
    obtain ⟨old, hold, _⟩ | ⟨hnone, hadds⟩ := h.codes.cases hrow
    · obtain ⟨old', hold', _⟩ | ⟨_, hadds'⟩ := h.codes.cases hrow'
      · exact hbefore.codeHashes id id' old old' hold hold'
          ((hhash hrow hold).symm.trans (hsame.trans (hhash hrow' hold')))
      · exact absurd ((hhash hrow hold).symm.trans hsame) (hadds'.unique id old hold)
    · obtain ⟨old', hold', _⟩ | ⟨hnone', _⟩ := h.codes.cases hrow'
      · exact absurd ((hhash hrow' hold').symm.trans hsame.symm) (hadds.unique id' old' hold')
      · exact h.codes.single id id' hnone hnone' (by rw [hrow]; rfl) (by rw [hrow']; rfl)
  codeOwners id row hrow := by
    obtain ⟨old, hold, _⟩ | ⟨_, hadds⟩ := h.codes.cases hrow
    · obtain ⟨row', hrow', hinstallation, _⟩ := h.code hold
      rw [hrow] at hrow'
      cases hrow'
      rw [hinstallation]
      exact h.installation_isSome (hbefore.codeOwners id old hold)
    · obtain ⟨installation, hinstallation, _⟩ := hadds.installation
      exact h.installation_isSome (by rw [hinstallation]; rfl)
  tokenOwners id row owner hrow howner := by
    obtain ⟨old, hold, rfl | rfl⟩ | ⟨_, hadds⟩ := h.tokens.cases hrow
    · exact h.installation_isSome (hbefore.tokenOwners id _ owner hold howner)
    · exact h.installation_isSome (hbefore.tokenOwners id old owner hold howner)
    · obtain ⟨owner', installation, _, howner', hinstallation, _⟩ := hadds.bound
      rw [howner] at howner'
      cases howner'
      exact h.installation_isSome (by rw [hinstallation]; rfl)
  keyOwners id row owner hrow howner := by
    have hstays : ∀ branch, (∃ installation, before.installations.get? owner = some installation ∧
        installation.branchId = branch) → ∃ installation, after.installations.get? owner = some installation ∧
          installation.branchId = branch := by
      rintro branch ⟨installation, hinstallation, hbranch⟩
      obtain ⟨row', hrow', _, hsame, _⟩ := h.installation hinstallation
      exact ⟨row', hrow', hsame.trans hbranch⟩
    obtain ⟨old, hold, rfl | ⟨clock, rfl⟩⟩ | ⟨_, hadds⟩ := h.keys.cases hrow
    · exact hstays _ (hbefore.keyOwners id _ owner hold howner)
    · exact hstays _ (hbefore.keyOwners id old owner hold howner)
    · obtain ⟨_, _, _, _, howners⟩ := hadds.tenant
      obtain ⟨installation, hinstallation, hbranch, _⟩ := howners owner howner
      exact hstays _ ⟨installation, hinstallation, hbranch⟩

end RegistryMoves

/-! ### Locks -/

theorem not_writeLocked {mine theirs : Locks Row} {row : Row} (hcompatible : Compatible mine theirs)
    (hheld : Held mine row) : ¬ WriteLocked theirs row := by
  obtain ⟨mode, hmode, hmem⟩ := hheld
  intro hlocked
  obtain hother | hother := hlocked
  · have hclear := hcompatible row mode _ hmem hother
    cases mode <;> simp_all [Mode.conflicts]
  · have hclear := hcompatible row mode _ hmem hother
    cases mode <;> simp_all [Mode.conflicts]

theorem not_update_of_held {mine theirs : Locks Row} {row : Row} (hcompatible : Compatible mine theirs)
    (hheld : Held mine row) : (row, Mode.update) ∉ theirs :=
  fun hmem => not_writeLocked hcompatible hheld (.inr hmem)

theorem not_mem_of_update {mine theirs : Locks Row} {row : Row} {mode : Mode} (hcompatible : Compatible mine theirs)
    (hlock : (row, Mode.update) ∈ mine) : (row, mode) ∉ theirs := by
  intro hmem
  have hclear := hcompatible row _ _ hlock hmem
  cases mode <;> cases hclear

theorem not_held_of_update {mine theirs : Locks Row} {row : Row} (hcompatible : Compatible mine theirs)
    (hlock : (row, Mode.update) ∈ mine) : ¬ Held theirs row :=
  fun ⟨_, _, hmem⟩ => not_mem_of_update hcompatible hlock hmem

theorem Held.mono {mine more : Locks Row} {row : Row} (h : Held mine row) (hmore : mine ⊆ more) : Held more row := by
  obtain ⟨mode, hmode, hmem⟩ := h
  exact ⟨mode, hmode, hmore hmem⟩

theorem held_of_mem {mine : Locks Row} {row : Row} {mode : Mode} (hmem : (row, mode) ∈ mine)
    (hmode : mode ≠ .keyShare) : Held mine row := ⟨mode, hmode, hmem⟩

/-! ### Shields -/

section Shields

variable {secret : Secrecy} {answer : RegistryAnswer} {mine theirs : Locks Row} {before after : Registry}
  (h : RegistryMoves secret answer theirs before after) (hcompatible : Compatible mine theirs) {organization : Nat}
  (hshield : Shielded mine before organization)

include h hcompatible hshield

theorem RegistryMoves.shielded : Shielded mine after organization := by
  obtain hheld | ⟨codeId, code, installation, hheld, hcode, hopen, hinstallation, hsame⟩ := hshield
  · exact .inl hheld
  · obtain ⟨row', hrow', hkept, _⟩ := h.installation hinstallation
    obtain ⟨code', hcode', rfl | ⟨hlocked, _⟩⟩ := h.codes.kept codeId code hcode
    · exact .inr ⟨codeId, _, row', hheld, hcode', hopen, hrow', hkept.trans hsame⟩
    · exact absurd hlocked (not_writeLocked hcompatible hheld)

/-- An offboarding locks its organization, and leaves no code open. -/
theorem RegistryMoves.not_offboarding {result : OffboardingResult} (hanswer : answer = .offboarded result) :
    result.organizationId ≠ organization := by
  intro hresult
  obtain hheld | ⟨codeId, code, installation, _, hcode, hopen, hinstallation, hsame⟩ := h.shielded hcompatible hshield
  · exact absurd (hresult ▸ h.offboarding result hanswer) (not_update_of_held hcompatible hheld)
  · obtain ⟨_, hclosed, _⟩ := h.offboarded result hanswer
    rw [hclosed codeId code installation hcode hinstallation (hsame.trans hresult.symm)] at hopen
    cases hopen

end Shields

theorem Shielded.mono {mine more : Locks Row} {reg : Registry} {organization : Nat} (h : Shielded mine reg organization)
    (hmore : mine ⊆ more) : Shielded more reg organization := by
  obtain hheld | ⟨codeId, code, installation, hheld, hrest⟩ := h
  · exact .inl (hheld.mono hmore)
  · exact .inr ⟨codeId, code, installation, hheld.mono hmore, hrest⟩

/-! ### What stays -/

section Rely

variable {secret : Secrecy} {permits : RegistryAnswer → Locks Row → Registry → Prop} {locks : Locks Row}
  {before after : Registry}

/-- What every guaranteed commit keeps, others keep. -/
theorem registry_keeps (h : (registryProtocol secret permits).Rely locks before after) (hinv : before.Constraints)
    (fact : Registry → Prop)
    (hkeeps : ∀ answer theirs s s', Compatible locks theirs → RegistryMoves secret answer theirs s s' →
      s.Constraints → fact s → fact s') (hfact : fact before) : fact after :=
  h.keeps hinv fact
    (fun answer theirs s s' hcompatible _ hmoves hs _ => hkeeps answer theirs s s' hcompatible hmoves hs) hfact

variable (h : (registryProtocol secret permits).Rely locks before after) (hinv : before.Constraints)

include h hinv

theorem rely_branches : after.branches = before.branches :=
  registry_keeps h hinv (fun reg => reg.branches = before.branches)
    (fun _ _ _ _ _ hmoves _ hsame => hmoves.branches.trans hsame) rfl

theorem rely_mappedPair_iff {organization customer branch : Nat} :
    after.MappedPair organization customer branch ↔ before.MappedPair organization customer branch :=
  registry_keeps h hinv
    (fun reg => reg.MappedPair organization customer branch ↔ before.MappedPair organization customer branch)
    (fun _ _ _ _ _ hmoves _ hpair => hmoves.mappedPair_iff.trans hpair) Iff.rfl

/-- An organization stays as it is while it is held. -/
theorem rely_organization {id : Nat} (hheld : Held locks (.organization id)) :
    after.organizations.get? id = before.organizations.get? id := by
  refine registry_keeps h hinv (fun reg => reg.organizations.get? id = before.organizations.get? id)
    (fun _ _ s s' hcompatible hmoves _ hsame => ?_) rfl
  rw [← hsame]
  cases hrow : s.organizations.get? id with
  | none => exact hmoves.no_organization hrow
  | some row =>
      obtain ⟨row', hrow', rfl | ⟨_, result, hanswer, rfl⟩⟩ := hmoves.organizations.kept id row hrow
      · exact hrow'
      · exact absurd (hmoves.offboarding result hanswer) (not_update_of_held hcompatible hheld)

/-- No organization is added. -/
theorem rely_no_organization {id : Nat} (hnone : before.organizations.get? id = none) :
    after.organizations.get? id = none := by
  refine registry_keeps h hinv (fun reg => reg.organizations.get? id = none) (fun _ _ _ _ _ hmoves _ hfact => hmoves.no_organization hfact) hnone

theorem rely_installation {id : Nat} {row : InstallationRow} (hrow : before.installations.get? id = some row) :
    ∃ row', after.installations.get? id = some row' ∧ row'.organizationId = row.organizationId ∧
      row'.branchId = row.branchId ∧ (row.status = .retired → row'.status = .retired) := by
  refine registry_keeps h hinv (fun reg => ∃ row', reg.installations.get? id = some row' ∧
    row'.organizationId = row.organizationId ∧ row'.branchId = row.branchId ∧
    (row.status = .retired → row'.status = .retired)) (fun _ _ s s' _ hmoves _ hfact => ?_)
    ⟨row, hrow, rfl, rfl, fun hstatus => hstatus⟩
  obtain ⟨old, hold, horganization, hbranch, hretired⟩ := hfact
  obtain ⟨new, hnew, horganization', hbranch', hretired'⟩ := hmoves.installation hold
  exact ⟨new, hnew, horganization'.trans horganization, hbranch'.trans hbranch, fun hstatus => hretired' (hretired hstatus)⟩

/-- An installation stays as it is while it is held. -/
theorem rely_installation_held {id : Nat} {row : InstallationRow} (hheld : Held locks (.installation id))
    (hrow : before.installations.get? id = some row) : after.installations.get? id = some row := by
  refine registry_keeps h hinv (fun reg => reg.installations.get? id = some row)
    (fun _ _ s s' hcompatible hmoves _ hsame => ?_) hrow
  obtain ⟨row', hrow', rfl | hchanges⟩ := hmoves.installations.kept id row hsame
  · exact hrow'
  · exact absurd hchanges.locked (not_writeLocked hcompatible hheld)

theorem rely_shielded {organization : Nat} (hshield : Shielded locks before organization) :
    Shielded locks after organization :=
  registry_keeps h hinv (fun reg => Shielded locks reg organization)
    (fun _ _ _ _ hcompatible hmoves _ hfact => hmoves.shielded hcompatible hfact) hshield

theorem rely_not_cancelled {id : Nat} (hshield : Shielded locks before id) (hlive : ¬ before.Cancelled id) :
    ¬ after.Cancelled id := by
  refine (registry_keeps h hinv (fun reg => Shielded locks reg id ∧ ¬ reg.Cancelled id)
    (fun _ _ s s' hcompatible hmoves _ hfact => ⟨hmoves.shielded hcompatible hfact.1, fun hcancelled => ?_⟩)
    ⟨hshield, hlive⟩).2
  obtain ⟨row, hrow, hstatus⟩ := hcancelled
  obtain ⟨old, hold, rfl | ⟨_, result, hanswer, hresult⟩⟩ | ⟨_, hfalse⟩ := hmoves.organizations.cases hrow
  · exact hfact.2 ⟨_, hold, hstatus⟩
  · exact hmoves.not_offboarding hcompatible hfact.1 hanswer hresult
  · exact hfalse.elim

/-- No one is retired in a branch that is held and an organization that is shielded. -/
theorem rely_unretired {id : Nat} {row : InstallationRow} (hbranch : Held locks (.branch row.branchId))
    (hshield : Shielded locks before row.organizationId) (hrow : before.installations.get? id = some row)
    (hstatus : row.status ≠ .retired) :
    ∃ row', after.installations.get? id = some row' ∧ row'.organizationId = row.organizationId ∧
      row'.branchId = row.branchId ∧ row'.status ≠ .retired := by
  refine (registry_keeps h hinv (fun reg => Shielded locks reg row.organizationId ∧ ∃ row',
    reg.installations.get? id = some row' ∧ row'.organizationId = row.organizationId ∧ row'.branchId = row.branchId ∧
    row'.status ≠ .retired) (fun _ _ s s' hcompatible hmoves _ hfact => ?_) ⟨hshield, row, hrow, rfl, rfl, hstatus⟩).2
  obtain ⟨hshield, old, hold, hsame, hsameBranch, hnot⟩ := hfact
  refine ⟨hmoves.shielded hcompatible hshield, ?_⟩
  obtain ⟨new, hnew, rfl | hchanges⟩ := hmoves.installations.kept id old hold
  · exact ⟨new, hnew, hsame, hsameBranch, hnot⟩
  · refine ⟨new, hnew, hchanges.organization.trans hsame, hchanges.branch.trans hsameBranch, fun hretired => ?_⟩
    obtain ⟨hlocked | ⟨result, hanswer, hresult⟩, _⟩ := hchanges.retires hnot hretired
    · rw [hsameBranch] at hlocked
      exact not_writeLocked hcompatible hbranch hlocked
    · exact hmoves.not_offboarding hcompatible hshield hanswer (hresult.trans hsame)

/-- Whoever cancels an organization retires its installations. -/
theorem rely_uncancelled {id : Nat} {row row' : InstallationRow} (hrow : before.installations.get? id = some row)
    (hlive : ¬ before.Cancelled row.organizationId) (hrow' : after.installations.get? id = some row')
    (hstatus : row'.status ≠ .retired) : ¬ after.Cancelled row.organizationId := by
  have hfact : ∃ new, after.installations.get? id = some new ∧ new.organizationId = row.organizationId ∧
      (new.status = .retired ∨ ¬ after.Cancelled row.organizationId) := by
    refine registry_keeps h hinv (fun reg => ∃ new, reg.installations.get? id = some new ∧
      new.organizationId = row.organizationId ∧ (new.status = .retired ∨ ¬ reg.Cancelled row.organizationId))
      (fun answer _ s s' _ hmoves _ hfact => ?_) ⟨row, hrow, rfl, .inr hlive⟩
    obtain ⟨old, hold, hsame, hcases⟩ := hfact
    obtain ⟨new, hnew, hsame', _, hretired⟩ := hmoves.installation hold
    refine ⟨new, hnew, hsame'.trans hsame, ?_⟩
    obtain hold | hlive := hcases
    · exact .inl (hretired hold)
    · refine or_iff_not_imp_right.2 fun hcancelled => ?_
      obtain ⟨organization, horganization, hstatus⟩ := not_not.1 hcancelled
      obtain ⟨old', hold', rfl | ⟨_, result, hanswer, hresult⟩⟩ | ⟨_, hfalse⟩ := hmoves.organizations.cases horganization
      · exact absurd ⟨_, hold', hstatus⟩ hlive
      · obtain ⟨_, _, _, _, hall⟩ := hmoves.offboarded result hanswer
        exact hall id new hnew ((hsame'.trans hsame).trans hresult.symm)
      · exact hfalse.elim
  obtain ⟨new, hnew, _, hcases⟩ := hfact
  rw [hrow'] at hnew
  cases hnew
  exact hcases.resolve_left hstatus

theorem rely_code {id : Nat} {row : CodeRow} (hrow : before.codes.get? id = some row) :
    ∃ row', after.codes.get? id = some row' ∧ row'.installationId = row.installationId ∧ row'.codeHash = row.codeHash ∧
      (row.isOpen = false → row'.isOpen = false) := by
  refine registry_keeps h hinv (fun reg => ∃ row', reg.codes.get? id = some row' ∧
    row'.installationId = row.installationId ∧ row'.codeHash = row.codeHash ∧ (row.isOpen = false → row'.isOpen = false))
    (fun _ _ s s' _ hmoves _ hfact => ?_) ⟨row, hrow, rfl, rfl, fun hclosed => hclosed⟩
  obtain ⟨old, hold, hsame, hhash, hclosed⟩ := hfact
  obtain ⟨new, hnew, hsame', hhash', hclosed', _⟩ := hmoves.code hold
  exact ⟨new, hnew, hsame'.trans hsame, hhash'.trans hhash, fun hwas => hclosed' (hclosed hwas)⟩

/-- A code stays as it is while it is held. -/
theorem rely_code_held {id : Nat} {row : CodeRow} (hheld : Held locks (.code id)) (hrow : before.codes.get? id = some row) :
    after.codes.get? id = some row := by
  refine registry_keeps h hinv (fun reg => reg.codes.get? id = some row)
    (fun _ _ s s' hcompatible hmoves _ hsame => ?_) hrow
  obtain ⟨row', hrow', rfl | ⟨hlocked, _⟩⟩ := hmoves.codes.kept id row hsame
  · exact hrow'
  · exact absurd hlocked (not_writeLocked hcompatible hheld)

/-- A hash that no code has is given to none, while it is locked or when none such is drawn. -/
theorem rely_codeHash {hash : Text} (hlock : (Row.codeHash hash, Mode.update) ∈ locks ∨ ¬ secret.drawn hash)
    (hnone : ∀ id row, before.codes.get? id = some row → row.codeHash ≠ hash) :
    ∀ id row, after.codes.get? id = some row → row.codeHash ≠ hash := by
  refine registry_keeps h hinv (fun reg => ∀ id row, reg.codes.get? id = some row → row.codeHash ≠ hash)
    (fun _ _ s s' hcompatible hmoves _ hfact => ?_) hnone
  intro id row hrow heq
  obtain ⟨old, hold, _⟩ | ⟨_, hadds⟩ := hmoves.codes.cases hrow
  · obtain ⟨new, hnew, _, hhash, _⟩ := hmoves.code hold
    rw [hrow] at hnew
    cases hnew
    exact hfact id old hold (hhash.symm.trans heq)
  · obtain hlock | hnot := hlock
    · exact not_mem_of_update hcompatible hlock (heq ▸ hadds.hash)
    · exact hnot (heq ▸ hadds.drawn)

/-- A branch that is held gets no key. -/
theorem rely_hasActiveKey {customer branch : Nat} (hheld : Held locks (.branch branch))
    (hnone : before.hasActiveKey customer branch = false) : after.hasActiveKey customer branch = false := by
  refine registry_keeps h hinv (fun reg => reg.hasActiveKey customer branch = false)
    (fun _ _ s s' hcompatible hmoves _ hfact => ?_) hnone
  rw [hasActiveKey_eq_false_iff] at hfact ⊢
  intro id key hkey hcustomer hbranch
  obtain ⟨old, hold, rfl | ⟨clock, rfl⟩⟩ | ⟨_, hadds⟩ := hmoves.keys.cases hkey
  · exact hfact id _ hold hcustomer hbranch
  · rfl
  · exact absurd (hbranch ▸ hadds.locked) (not_writeLocked hcompatible hheld)

/-- A branch that is held gets no cutover. -/
theorem rely_hasAnyCutover {customer branch : Nat} (hheld : Held locks (.branch branch))
    (hnone : before.hasAnyCutover customer branch = false) : after.hasAnyCutover customer branch = false := by
  refine registry_keeps h hinv (fun reg => reg.hasAnyCutover customer branch = false)
    (fun _ _ s s' hcompatible hmoves _ hfact => ?_) hnone
  rw [hasAnyCutover_eq_false_iff] at hfact ⊢
  intro id cutover hcutover hcustomer hbranch
  obtain ⟨old, hold, rfl | hfalse⟩ | ⟨_, hadds⟩ := hmoves.cutovers.cases hcutover
  · exact hfact id _ hold hcustomer hbranch
  · exact hfalse.elim
  · exact absurd (hbranch ▸ hadds.locked) (not_writeLocked hcompatible hheld)

/-- An id that is locked for a new row is used by no one else. -/
theorem rely_free {ν : Type} (rows : Registry → Dict Nat ν) {lockOf : Nat → Row} {id : Nat}
    (hadds : ∀ answer theirs s s', RegistryMoves secret answer theirs s s' → ∃ changes adds,
      TableMoves changes adds (rows s) (rows s') ∧ ∀ id row, adds id row → (lockOf id, Mode.update) ∈ theirs)
    (hlock : (lockOf id, Mode.update) ∈ locks) (hnone : (rows before).get? id = none) : (rows after).get? id = none := by
  refine registry_keeps h hinv (fun reg => (rows reg).get? id = none) (fun answer theirs s s' hcompatible hmoves _ hfact => ?_)
    hnone
  obtain ⟨changes, adds, htable, htheirs⟩ := hadds answer theirs s s' hmoves
  by_contra hne
  obtain ⟨row, hrow⟩ := Option.ne_none_iff_exists'.1 hne
  exact not_mem_of_update hcompatible hlock (htheirs id row (htable.added id row hfact hrow))

theorem rely_free_installation {id : Nat} (hlock : (Row.installation id, Mode.update) ∈ locks)
    (hnone : before.installations.get? id = none) : after.installations.get? id = none :=
  rely_free h hinv installations (fun _ _ _ _ hmoves => ⟨_, _, hmoves.installations, fun _ _ hadds => hadds.key⟩)
    hlock hnone

theorem rely_free_code {id : Nat} (hlock : (Row.code id, Mode.update) ∈ locks) (hnone : before.codes.get? id = none) :
    after.codes.get? id = none :=
  rely_free h hinv codes (fun _ _ _ _ hmoves => ⟨_, _, hmoves.codes, fun _ _ hadds => hadds.key⟩) hlock hnone

theorem rely_free_token {id : Nat} (hlock : (Row.token id, Mode.update) ∈ locks) (hnone : before.tokens.get? id = none) :
    after.tokens.get? id = none :=
  rely_free h hinv tokens (fun _ _ _ _ hmoves => ⟨_, _, hmoves.tokens, fun _ _ hadds => hadds.key⟩) hlock hnone

theorem rely_free_key {id : Nat} (hlock : (Row.key id, Mode.update) ∈ locks) (hnone : before.keys.get? id = none) :
    after.keys.get? id = none :=
  rely_free h hinv keys (fun _ _ _ _ hmoves => ⟨_, _, hmoves.keys, fun _ _ hadds => hadds.key⟩) hlock hnone

theorem rely_free_cutover {id : Nat} (hlock : (Row.cutover id, Mode.update) ∈ locks)
    (hnone : before.cutovers.get? id = none) : after.cutovers.get? id = none :=
  rely_free h hinv cutovers (fun _ _ _ _ hmoves => ⟨_, _, hmoves.cutovers, fun _ _ hadds => hadds.key⟩) hlock hnone

end Rely

end SortView
