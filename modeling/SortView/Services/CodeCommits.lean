import SortView.Services.RegistryWrites

/-!
# Generating codes and replacing tokens

What an enrollment code and a recovery token guarantee when they are committed.
-/

namespace SortView

open PyText Transactions Transactions.Protocol Tables Registry Enrollment AdminInstallations

variable {secret : Secrecy} {permits : RegistryAnswer → Locks Row → Registry → Prop} {locks : Locks Row}
  {committed : Registry}

/-! ### Codes -/

/-- The code is open, and for the installation. -/
def isOpenFor (installationId : Nat) (code : CodeRow) : Bool := code.installationId = installationId && code.isOpen

/-- While an installation is locked, it gets no code. -/
theorem shrinks_codes {installationId : Nat} (hlock : (Row.installation installationId, Mode.update) ∈ locks) :
    Shrinks (registryProtocol secret permits) locks committed codes fun _ => isOpenFor installationId := by
  intro view next _ _ hother id row hrow hholds
  obtain ⟨answer, theirs, hcompatible, _, hmoves, _⟩ := hother
  simp only [isOpenFor, Bool.and_eq_true, decide_eq_true_eq] at hholds ⊢
  obtain ⟨old, hold, _⟩ | ⟨_, hadds⟩ := hmoves.codes.cases hrow
  · obtain ⟨new, hnew, hsame, _, hclosed, _⟩ := hmoves.code hold
    rw [hrow] at hnew
    cases hnew
    refine ⟨old, hold, hsame.symm.trans hholds.1, ?_⟩
    by_contra hnot
    rw [hclosed (by simpa using hnot)] at hholds
    exact absurd hholds.2 (by decide)
  · exact absurd (hholds.1 ▸ hadds.locked) (not_mem_of_update hcompatible hlock)

theorem revoke_revoke (clock : Nat) (code : CodeRow) : (code.revoke clock).revoke clock = code.revoke clock := rfl

/-- The codes of a locked installation are revoked, but for those that can no longer be redeemed anyway. -/
theorem wp_revokeUnused {post : List Nat → Locks Row → (Registry → Registry) → Registry → Prop} {installationId clock : Nat}
    (hlock : (Row.installation installationId, Mode.update) ∈ locks)
    (h : ∀ now more changed, (registryProtocol secret permits).Rely locks committed now → now.Constraints → locks ⊆ more →
      (∀ id ∈ changed, (Row.code id, Mode.noKeyUpdate) ∈ more) →
      (∀ later, (registryProtocol secret permits).Rely more now later →
        MatchesWithin codes (fun _ => isOpenFor installationId) (· ∈ changed) later) →
      post changed more (fun reg => { reg with codes := adjustAll changed (CodeRow.revoke clock) reg.codes }) now) :
    (registryProtocol secret permits).Wp post (revokeUnused installationId clock) locks id committed := by
  refine wp_sweepTable codes (fun _ => isOpenFor installationId) [] (fun left right view hne => ?_)
    (fun view id row hrow hholds => .inr (mem_idsWhere.2 ⟨row, hrow, hholds⟩)) (fun view id row hagain hrow hholds => ?_)
    fun before now more changed hbefore hbeforeInv hnow hnowInv hmore _ hlocked hwithin => ?_
  · simp only [get?_adjust, if_neg hne]
  · rw [id_eq, hrow, Option.any_some] at hagain
    exact absurd hholds (by simpa [isOpenFor] using hagain)
  · have hpost := h now more changed (hbefore.trans hnow) hnowInv hmore hlocked fun later hlater id row hrow hholds =>
      (hwithin (shrinks_codes hlock) later hlater id row hrow hholds).resolve_left List.not_mem_nil
    simpa only [Function.comp_def, foldl_codes, id_eq] using hpost

/-- The codes of the installation are revoked, and one is added. -/
theorem moves_addCode {later : Registry} {issued : IssuedCode} {row : CodeRow} {rowId clock : Nat} {changed : List Nat}
    (hchanged : ∀ id ∈ changed, (Row.code id, Mode.noKeyUpdate) ∈ locks)
    (hwithin : MatchesWithin codes (fun _ => isOpenFor row.installationId) (· ∈ changed) later)
    (hkey : (Row.code rowId, Mode.update) ∈ locks) (hhash : (Row.codeHash row.codeHash, Mode.update) ∈ locks)
    (hlock : (Row.installation row.installationId, Mode.update) ∈ locks) (hdrawn : secret.drawn row.codeHash)
    (hfree : later.codes.get? rowId = none)
    (hunique : ∀ id code, later.codes.get? id = some code → code.codeHash ≠ row.codeHash)
    (hinstallation : ∃ installation, later.installations.get? row.installationId = some installation ∧
      installation.status ≠ .retired ∧ ¬ later.Cancelled installation.organizationId) (hunused : row.usedAt = none) :
    RegistryMoves secret (.code issued) locks later
      (Registry.setCode { later with codes := adjustAll changed (CodeRow.revoke clock) later.codes } rowId row) where
  branches := rfl
  customers := rfl
  organizations := .same rfl
  installations := .same rfl
  codes := by
    refine .inserted (.swept (revoke_revoke clock) fun id hid code _ => ⟨.inl (hchanged id hid), clock, .inl rfl⟩) hfree
      ⟨hkey, hdrawn, hunique, hhash, hlock, hinstallation, hunused, fun id code hcode hsame hopen => ?_⟩
    by_contra hne
    have hget : (adjustAll changed (CodeRow.revoke clock) later.codes).get? id = some code := by
      rw [← Dict.get?_set_of_ne _ row hne]
      exact hcode
    rw [get?_adjustAll (revoke_revoke clock)] at hget
    split at hget
    next =>
      obtain ⟨old, _, rfl⟩ := Option.map_eq_some_iff.1 hget
      simp [CodeRow.isOpen, CodeRow.revoke] at hopen
    next hnot => exact hnot (hwithin id code hget (by simp [isOpenFor, hsame, hopen]))
  tokens := .same rfl
  keys := .same rfl
  cutovers := .same rfl
  offboarding := by simp
  offboarded := by simp

theorem commits_createEnrollmentCode {sha256 : Text → Text} {installationId : Nat}
    {createdByUserId expectedOrganizationId : Option Nat} {ttl issuedAt clock : Nat} {draw : CodeDraw}
    (hdrawn : secret.drawn (sha256 (formatEnrollmentCode draw.characters))) :
    (registryProtocol secret permits).Wp
      (fun issued => (registryProtocol secret permits).Commits (.code issued))
      (createEnrollmentCode sha256 installationId createdByUserId expectedOrganizationId ttl issuedAt clock draw) locks id
      committed := by
  simp only [createEnrollmentCode, wp_bind]
  refine wp_resolve_locked leavesTenants_id fun first scope _ hfirstInv _ henrollable hlive hid => ?_
  simp only [wp_require]
  intro _
  rw [hid]
  refine wp_revokeUnused List.mem_cons_self fun second more changed hsecond hsecondInv hmore hchanged hwithin => ?_
  refine wp_insertCode hsecondInv (fun reg id code hcode => ?_) fun third most hthird hthirdInv hmost hkey hhash hfree hunique => ?_
  · rw [get?_adjustAll (revoke_revoke clock)]
    split
    next => exact ⟨code.revoke clock, by rw [hcode, Option.map_some], rfl⟩
    next => exact ⟨code, hcode, rfl⟩
  · simp only [wp_pure]
    refine commits_of_moves fun later hlater _ => ?_
    have hheld : (Row.installation installationId, Mode.update) ∈ most := hmost (hmore List.mem_cons_self)
    have hreached := hsecond.trans (Rely.mono (hthird.trans (Rely.mono hlater hmost)) hmore)
    obtain ⟨row, hrow, horganization, _, hstatus⟩ := henrollable
    rw [hid] at hrow
    have hfinal := rely_installation_held hreached hfirstInv (held_of_mem List.mem_cons_self (by decide)) hrow
    have hopen := rely_uncancelled hreached hfirstInv hrow (horganization ▸ hlive) hfinal hstatus
    exact moves_addCode (fun id hmem => hmost (hchanged id hmem)) (hwithin later (hthird.trans (Rely.mono hlater hmost)))
      hkey hhash hheld hdrawn (rely_free_code hlater hthirdInv hkey hfree)
      (rely_codeHash hlater hthirdInv (.inl hhash) hunique) ⟨row, hfinal, hstatus, hopen⟩ rfl

theorem commits_issueEnrollmentCode {sha256 : Text → Text} {library : Library} {installationId : Nat} {actor : PlatformActor}
    {ttl issuedAt clock : Nat} {draw : CodeDraw} (hdrawn : secret.drawn (sha256 (formatEnrollmentCode draw.characters))) :
    (registryProtocol secret permits).Wp
      (fun issued => (registryProtocol secret permits).Commits (.code issued))
      (issueEnrollmentCode sha256 library installationId actor ttl issuedAt clock draw) locks id committed := by
  simp only [issueEnrollmentCode, refuseCancelled, audit, wp_bind, wp_mapFailure, wp_require]
  intro _
  refine wp_resolve_locked leavesTenants_id fun first scope _ _ _ _ _ _ => ?_
  simp only [wp_select, wp_require]
  intro second _ _ _
  exact (commits_createEnrollmentCode hdrawn).mono fun _ _ _ _ h => registry_commits_log h _

/-! ### Recovery tokens -/

theorem deactivate_deactivate (token : TokenRow) : token.deactivate.deactivate = token.deactivate := rfl

/-- A token for an installation whose organization is held and not cancelled. -/
theorem addsToken_of_scoped {before after : Registry} {scope : InstallationScope} {row : TokenRow} {rowId : Nat}
    (hscope : Scoped before scope) (hheld : secret.kept → Held locks (.organization scope.organizationId))
    (hlive : ¬ before.Cancelled scope.organizationId) (hkey : (Row.token rowId, Mode.update) ∈ locks)
    (howner : row.installationId = some scope.installationId) (hcustomer : row.customerId = scope.customerId)
    (henrolled : ∀ codeId, row.enrolledBy = some codeId → Redeems before after codeId) :
    AddsToken secret locks before after rowId row := by
  obtain ⟨installation, hinstallation, hsame, _⟩ := hscope.installation
  obtain ⟨organization, horganization, hmapped⟩ := hscope.pair.1
  refine ⟨hkey, ⟨scope.installationId, installation, organization, howner, hinstallation, hsame ▸ hheld, hsame ▸ horganization,
    fun hcancelled => hlive ⟨organization, horganization, hcancelled⟩, hcustomer ▸ hmapped⟩, henrolled⟩

/-- An installation that `_CURRENT_STATUS_SQL` finds is the library's. -/
theorem currentStatus_isSome {reg : Registry} {organizationId installationId : Nat}
    (h : (currentStatus reg organizationId installationId).isSome) :
    ∃ row, reg.installations.get? installationId = some row ∧ row.organizationId = organizationId := by
  obtain ⟨status, hstatus⟩ := Option.isSome_iff_exists.1 h
  obtain ⟨row, hrow, hfound⟩ := Option.bind_eq_some_iff.1 hstatus
  split at hfound
  next hsame => exact ⟨row, hrow, hsame⟩
  next => cases hfound

theorem wp_revokeInstallationTokens {post : List Nat → Locks Row → (Registry → Registry) → Registry → Prop}
    {installationId : Nat}
    (h : ∀ now more changed, (registryProtocol secret permits).Rely locks committed now → now.Constraints → locks ⊆ more →
      post changed more (fun reg => { reg with tokens := adjustAll changed TokenRow.deactivate reg.tokens }) now) :
    (registryProtocol secret permits).Wp post (revokeInstallationTokens installationId) locks id committed := by
  refine wp_sweep (fun left right view hne => ?_) fun before now more changed hbefore _ hnow hnowInv hmore _ _ _ => ?_
  · simp only [get?_adjust, if_neg hne]
  · simpa only [Function.comp_def, foldl_tokens, id_eq] using h now more changed (hbefore.trans hnow) hnowInv hmore

/-- A recovery token, when the organization of the installation is held. -/
theorem commits_issueRecoveryToken {sha256 : Text → Text} {installationId organizationId : Nat} {draw : TokenDraw}
    (hheld : ∀ reg scope, (registryProtocol secret permits).Rely locks committed reg → Scoped reg scope →
      scope.installationId = installationId → Held locks (.organization scope.organizationId)) :
    (registryProtocol secret permits).Wp (fun token => (registryProtocol secret permits).Commits (.recovered token))
      (issueRecoveryToken sha256 installationId organizationId draw) locks id committed := by
  simp only [issueRecoveryToken, wp_bind]
  refine wp_revokeInstallationTokens fun first more changed hfirst hfirstInv hmore => ?_
  refine wp_resolve_locked ⟨fun _ => rfl, fun _ => rfl, fun _ => rfl⟩ fun second scope hsecond hsecondInv hscope _ hlive hid => ?_
  simp only [wp_require, wp_select]
  intro _ third hthird hthirdInv _
  have horganization := (hheld second scope (hfirst.trans (Rely.mono hsecond hmore)) hscope hid).mono hmore
  refine wp_insertToken hthirdInv (fun reg id => ?_) fun fourth most hfourth hfourthInv hmost hkey hfree => ?_
  · rw [get?_adjustAll deactivate_deactivate]
    split <;> simp
  · simp only [wp_pure]
    refine commits_of_moves fun later hlater hlaterInv => ?_
    have hreached := hthird.trans (hfourth.trans (Rely.mono hlater hmost))
    refine ⟨rfl, rfl, .same rfl, .same rfl, .same rfl, ?_, .same rfl, .same rfl, by simp, by simp⟩
    refine .inserted (.swept deactivate_deactivate fun _ _ _ _ => rfl) (rely_free_token hlater hfourthInv hkey hfree) ?_
    exact addsToken_of_scoped (hscope.later hreached hsecondInv) (fun _ => horganization.mono fun _ hmem => hmost (.tail _ hmem))
      (rely_not_cancelled hreached hsecondInv (.inl (horganization.mono (List.subset_cons_self _ _))) hlive) hkey rfl rfl
      fun codeId hcode => by cases hcode

theorem commits_issueRecovery {sha256 : Text → Text} {library : Library} {installationId : Nat} {actor : PlatformActor}
    {draw : TokenDraw} :
    (registryProtocol secret permits).Wp (fun token => (registryProtocol secret permits).Commits (.recovered token))
      (issueRecovery sha256 library installationId actor draw) locks id committed := by
  simp only [issueRecovery, refuseCancelled, lockLibrary, audit, wp_bind, wp_require, wp_mapFailure]
  intro _
  -- the installation is the library's, and so is its organization
  have hsame : ∀ second reg (scope : InstallationScope) more, second.Constraints →
      (currentStatus second library.id installationId).isSome →
      (registryProtocol secret permits).Rely more second reg → Scoped reg scope → scope.installationId = installationId →
      scope.organizationId = library.id := by
    intro second reg scope more hsecondInv hcurrent hreg hscope hid
    obtain ⟨installation, hinstallation, howner⟩ := currentStatus_isSome hcurrent
    obtain ⟨row, hrow, hkept, _⟩ := rely_installation hreg hsecondInv hinstallation
    obtain ⟨row', hrow', horganization, _⟩ := hscope.installation
    rw [hid, hrow] at hrow'
    cases hrow'
    exact horganization.symm.trans (hkept.trans howner)
  refine wp_lockFirst (fun first _ hfirstInv hnone => ?_) fun _ first found _ _ hfound _ hfirstInv => ?_
  · simp only [wp_require, wp_select]
    intro _ second hsecond hsecondInv hcurrent
    refine (commits_issueRecoveryToken fun reg scope hreg hscope hid => ?_).mono
      fun _ _ _ _ h => registry_commits_log h _
    obtain ⟨organization, horganization, _⟩ := hscope.pair.1
    rw [hsame second reg scope _ hsecondInv hcurrent hreg hscope hid,
      rely_no_organization (hsecond.trans hreg) hfirstInv (Option.map_eq_none_iff.1 hnone)] at horganization
    cases horganization
  · obtain ⟨_, _, rfl⟩ := Option.map_eq_some_iff.1 hfound
    simp only [wp_require, wp_select]
    intro _ second hsecond hsecondInv hcurrent
    refine (commits_issueRecoveryToken fun reg scope hreg hscope hid => ?_).mono
      fun _ _ _ _ h => registry_commits_log h _
    rw [hsame second reg scope _ hsecondInv hcurrent hreg hscope hid]
    exact held_of_mem List.mem_cons_self (by decide)

end SortView
