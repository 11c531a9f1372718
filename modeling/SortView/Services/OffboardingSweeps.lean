import SortView.Services.CodeCommits
import SortView.Services.IdentityCommits

/-!
# The sweeps of an offboarding

What each sweep has changed, and that nothing is left for it when the transaction commits. The organization is
held from the first statement on, so that no token, key or installation is added to the tenant, and then its
installations are, so that no code is.
-/

namespace SortView

open PyText Transactions Transactions.Protocol Tables Registry Enrollment AdminInstallations Offboarding

variable {secret : Secrecy} {permits : RegistryAnswer → Locks Row → Registry → Prop} {locks more : Locks Row}
  {committed before after reg : Registry} {organizationId clock : Nat} {organization : OrganizationRow}

/-- What the sweeps of an offboarding write, with what they write to the organizations. -/
def sweptRegistry (cancel : Dict Nat OrganizationRow → Dict Nat OrganizationRow) (clock : Nat)
    (tokens installations codes keys : List Nat) (reg : Registry) : Registry :=
  { reg with
    organizations := cancel reg.organizations
    tokens := adjustAll tokens TokenRow.deactivate reg.tokens
    installations := adjustAll installations (InstallationRow.move .retired) reg.installations
    codes := adjustAll codes (CodeRow.revoke clock) reg.codes
    keys := adjustAll keys (KeyRow.retire clock) reg.keys }

variable {cancel : Dict Nat OrganizationRow → Dict Nat OrganizationRow} {tokenIds installationIds codeIds keyIds : List Nat}

theorem move_move (row : InstallationRow) : (row.move .retired).move .retired = row.move .retired := rfl

/-! ### What is swept -/

def isActiveTenantToken (organizationId : Nat) (customerId : Option Nat) (reg : Registry) (token : TokenRow) : Bool :=
  token.isActive && isTenantToken reg organizationId customerId token

def isLiveInstallation (organizationId : Nat) (row : InstallationRow) : Bool :=
  row.organizationId = organizationId && row.status ≠ .retired

def isOpenTenantCode (organizationId : Nat) (reg : Registry) (code : CodeRow) : Bool :=
  code.isOpen && owns reg organizationId code.installationId

def isActiveKeyOf (customerId branchId : Nat) (key : KeyRow) : Bool :=
  key.customerId = customerId && key.branchId = branchId && key.isActive

def isActiveKeyIn (customerId : Nat) (branches : List Nat) (key : KeyRow) : Bool :=
  branches.any fun branchId => isActiveKeyOf customerId branchId key

def isActiveTenantKey (organizationId : Nat) (customerId : Option Nat) (reg : Registry) (key : KeyRow) : Bool :=
  customerId.any fun customerId => isActiveKeyIn customerId (mappedBranches reg organizationId) key

theorem owns_iff {installationId : Nat} : owns reg organizationId installationId = true ↔
    ∃ row, reg.installations.get? installationId = some row ∧ row.organizationId = organizationId := by
  simp [owns, Option.any_eq_true]

theorem mem_mappedBranches {operationalId : Nat} : operationalId ∈ mappedBranches reg organizationId ↔
    ∃ id row, reg.branches.get? id = some row ∧ row.organizationId = organizationId ∧
      row.operationalBranchId = some operationalId := by
  simp only [mappedBranches, List.mem_filterMap, mem_idsWhere, Option.bind_eq_some_iff, decide_eq_true_eq]
  constructor
  · rintro ⟨id, ⟨row, hrow, hsame⟩, row', hrow', hoperational⟩
    rw [hrow] at hrow'
    cases hrow'
    exact ⟨id, row, hrow, hsame, hoperational⟩
  · rintro ⟨id, row, hrow, hsame, hoperational⟩
    exact ⟨id, ⟨row, hrow, hsame⟩, row, hrow, hoperational⟩

/-- An installation keeps its organization. -/
theorem owns_iff_of_moves {answer : RegistryAnswer} (h : RegistryMoves secret answer locks before after)
    {installationId : Nat} (hsome : (before.installations.get? installationId).isSome) :
    owns after organizationId installationId = owns before organizationId installationId := by
  obtain ⟨row, hrow⟩ := Option.isSome_iff_exists.1 hsome
  obtain ⟨row', hrow', hsame, _⟩ := h.installation hrow
  rw [owns, owns, hrow, hrow', Option.any_some, Option.any_some, hsame]

theorem owns_sweptRegistry {installationId : Nat} :
    owns (sweptRegistry cancel clock tokenIds installationIds codeIds keyIds reg) organizationId installationId =
      owns reg organizationId installationId := by
  show ((adjustAll installationIds (InstallationRow.move .retired) reg.installations).get? installationId).any _ = _
  rw [get?_adjustAll move_move, owns]
  split
  next =>
    rw [Option.any_map]
    rfl
  next => rfl

/-- The open codes of the tenant are locked, now and later. -/
def CodesTaken (secret : Secrecy) (permits : RegistryAnswer → Locks Row → Registry → Prop) (organizationId : Nat)
    (locks : Locks Row) (committed : Registry) : Prop :=
  ∀ view, (registryProtocol secret permits).Rely locks committed view →
    MatchesWithin codes (isOpenTenantCode organizationId) (fun id => (Row.code id, Mode.noKeyUpdate) ∈ locks) view

theorem CodesTaken.later {now : Registry} (h : CodesTaken secret permits organizationId locks committed)
    (hrely : (registryProtocol secret permits).Rely locks committed now) (hmore : locks ⊆ more) :
    CodesTaken secret permits organizationId more now :=
  fun view hview id row hget hholds => hmore (h view (hrely.trans (Rely.mono hview hmore)) id row hget hholds)

section Shrinking

variable (hlock : (Row.organization organizationId, Mode.update) ∈ locks)

include hlock

/-- No token is added to an organization that is locked, while codes are kept. -/
theorem shrinks_tokens (hkept : secret.kept) (hrow : committed.organizations.get? organizationId = some organization)
    (hinv : committed.Constraints) :
    Shrinks (registryProtocol secret permits) locks committed tokens
      (isActiveTenantToken organizationId organization.operationalCustomerId) := by
  intro view next hview hviewInv hother id row hget hholds
  obtain ⟨answer, theirs, hcompatible, _, hmoves, _⟩ := hother
  have hstays : view.organizations.get? organizationId = some organization := by
    rw [rely_organization hview hinv (held_of_mem hlock (by decide)), hrow]
  simp only [isActiveTenantToken, isTenantToken, Bool.and_eq_true, Bool.or_eq_true, decide_eq_true_eq] at hholds ⊢
  obtain ⟨old, hold, rfl | rfl⟩ | ⟨_, hadds⟩ := hmoves.tokens.cases hget
  · refine ⟨row, hold, hholds.1, hholds.2.imp_right fun howner => ?_⟩
    cases hbound : row.installationId with
    | none =>
        rw [hbound] at howner
        cases howner
    | some owner =>
        rw [hbound, Option.any_some, owns_iff_of_moves hmoves (hviewInv.tokenOwners id row owner hold hbound)] at howner
        exact howner
  · cases hholds.1
  · obtain ⟨owner, installation, organization', hbound, hinstallation, hheld, horganization', _, hcustomer⟩ := hadds.bound
    have hsame : installation.organizationId = organizationId := by
      obtain hcustomer' | howner := hholds.2
      · exact hviewInv.customers _ _ organization' organization row.customerId horganization' hstays hcustomer hcustomer'
      · rw [hbound, Option.any_some, owns_iff_of_moves hmoves (by rw [hinstallation]; rfl), owns_iff] at howner
        obtain ⟨row', hrow', hsame⟩ := howner
        rw [hinstallation] at hrow'
        cases hrow'
        exact hsame
    rw [hsame] at hheld
    exact absurd (hheld hkept) (not_held_of_update hcompatible hlock)

/-- No installation is added to an organization that is locked. -/
theorem shrinks_installations :
    Shrinks (registryProtocol secret permits) locks committed installations fun _ => isLiveInstallation organizationId := by
  intro view next _ _ hother id row hget hholds
  obtain ⟨answer, theirs, hcompatible, _, hmoves, _⟩ := hother
  simp only [isLiveInstallation, Bool.and_eq_true, decide_eq_true_eq, ne_eq, decide_not, Bool.not_eq_true',
    decide_eq_false_iff_not] at hholds ⊢
  obtain ⟨old, hold, _⟩ | ⟨_, hadds⟩ := hmoves.installations.cases hget
  · obtain ⟨row', hrow', hsame, _, hretired⟩ := hmoves.installation hold
    rw [hget] at hrow'
    cases hrow'
    exact ⟨old, hold, hsame.symm.trans hholds.1, fun hwas => hholds.2 (hretired hwas)⟩
  · exact absurd (hholds.1 ▸ hadds.organization) (not_mem_of_update hcompatible hlock)

/-- No key is added to a tenant that is locked, once its codes are locked as well or closed. -/
theorem shrinks_keys {customerId branchId : Nat} (hcodes : CodesTaken secret permits organizationId locks committed)
    (hrow : committed.organizations.get? organizationId = some organization)
    (hcustomer : organization.operationalCustomerId = some customerId) (hinv : committed.Constraints) :
    Shrinks (registryProtocol secret permits) locks committed keys fun _ => isActiveKeyOf customerId branchId := by
  intro view next hview hviewInv hother id key hget hholds
  obtain ⟨answer, theirs, hcompatible, _, hmoves, _⟩ := hother
  obtain ⟨old, hold, rfl | ⟨clock, rfl⟩⟩ | ⟨_, hadds⟩ := hmoves.keys.cases hget
  · exact ⟨_, hold, hholds⟩
  · simp [isActiveKeyOf, KeyRow.isActive, KeyRow.retire] at hholds
  · obtain ⟨organization', hshield, _, ⟨⟨row', hrow', hcustomer'⟩, _⟩, _⟩ := hadds.tenant
    have hstays : view.organizations.get? organizationId = some organization := by
      rw [rely_organization hview hinv (held_of_mem hlock (by decide)), hrow]
    simp only [isActiveKeyOf, Bool.and_eq_true, decide_eq_true_eq] at hholds
    rw [hholds.1.1] at hcustomer'
    have hsame := hviewInv.customers _ _ row' organization customerId hrow' hstays hcustomer' hcustomer
    obtain hheld | ⟨codeId, code, installation, hheld, hcode, hopen, hinstallation, hown⟩ := hsame ▸ hshield
    · exact absurd hheld (not_held_of_update hcompatible hlock)
    · have hlocked := hcodes view hview codeId code hcode (by
        rw [isOpenTenantCode, hopen, Bool.true_and, owns_iff]
        exact ⟨installation, hinstallation, hown⟩)
      exact absurd (.inl hlocked) (not_writeLocked hcompatible.symm hheld)

omit hlock in
/-- No code is added to installations that are locked or retired. -/
theorem shrinks_tenantCodes (hlive : ∀ view, (registryProtocol secret permits).Rely locks committed view →
      MatchesWithin installations (fun _ => isLiveInstallation organizationId)
        (fun id => Held locks (.installation id)) view) :
    Shrinks (registryProtocol secret permits) locks committed codes (isOpenTenantCode organizationId) := by
  intro view next hview hviewInv hother id code hget hholds
  obtain ⟨answer, theirs, hcompatible, _, hmoves, _⟩ := hother
  simp only [isOpenTenantCode, Bool.and_eq_true] at hholds ⊢
  obtain ⟨old, hold, _⟩ | ⟨_, hadds⟩ := hmoves.codes.cases hget
  · obtain ⟨row', hrow', hsame, _, hclosed, _⟩ := hmoves.code hold
    rw [hget] at hrow'
    cases hrow'
    refine ⟨old, hold, ?_, ?_⟩
    · by_contra hnot
      rw [hclosed (by simpa using hnot)] at hholds
      exact absurd hholds.1 (by decide)
    · rw [hsame, owns_iff_of_moves hmoves (hviewInv.codeOwners id old hold)] at hholds
      exact hholds.2
  · obtain ⟨installation, hinstallation, hstatus, _⟩ := hadds.installation
    rw [owns_iff_of_moves hmoves (by rw [hinstallation]; rfl), owns_iff] at hholds
    obtain ⟨row', hrow', hsame⟩ := hholds.2
    rw [hinstallation] at hrow'
    cases hrow'
    have hheld := hlive view hview _ installation hinstallation (by simp [isLiveInstallation, hsame, hstatus])
    exact absurd hadds.locked (not_update_of_held hcompatible hheld)

end Shrinking

/-! ### The sweeps -/

/-- The rows that a sweep changed were seen to match, some time between. -/
def SeenMatching {ν : Type} (protocol : Protocol Registry Row RegistryAnswer) (locks : Locks Row) (start now : Registry)
    (rows : Registry → Dict Nat ν) (holds : Registry → ν → Bool) (ids : List Nat) : Prop :=
  ∀ id ∈ ids, ∃ seen row, protocol.Rely locks start seen ∧ protocol.Rely locks seen now ∧ seen.Constraints ∧
    (rows seen).get? id = some row ∧ holds seen row = true

theorem SeenMatching.mono {ν : Type} {protocol : Protocol Registry Row RegistryAnswer} {start now later : Registry}
    {rows : Registry → Dict Nat ν} {holds : Registry → ν → Bool} {ids : List Nat}
    (h : SeenMatching protocol more committed now rows holds ids) (hmore : locks ⊆ more)
    (hstart : protocol.Rely locks start committed) (hlater : protocol.Rely locks now later) :
    SeenMatching protocol locks start later rows holds ids := by
  intro id hmem
  obtain ⟨seen, row, hseen, hnow, hseenInv, hget, hholds⟩ := h id hmem
  exact ⟨seen, row, hstart.trans (Rely.mono hseen hmore), (Rely.mono hnow hmore).trans hlater, hseenInv, hget, hholds⟩

section Sweeps

variable (hlock : (Row.organization organizationId, Mode.update) ∈ locks)

include hlock

theorem wp_revokeTokens {post : List Nat → Locks Row → (Registry → Registry) → Registry → Prop}
    (hrow : committed.organizations.get? organizationId = some organization) (hinv : committed.Constraints)
    (h : ∀ now more changed, (registryProtocol secret permits).Rely locks committed now → now.Constraints → locks ⊆ more →
      SeenMatching (registryProtocol secret permits) locks committed now tokens
        (isActiveTenantToken organizationId organization.operationalCustomerId) changed →
      (secret.kept → ∀ later, (registryProtocol secret permits).Rely more now later → MatchesWithin tokens
        (isActiveTenantToken organizationId organization.operationalCustomerId) (· ∈ changed) later) →
      post changed more (sweptRegistry cancel clock changed [] [] []) now) :
    (registryProtocol secret permits).Wp post (revokeTokens organizationId organization.operationalCustomerId) locks
      (sweptRegistry cancel clock [] [] [] []) committed := by
  refine wp_sweepTable tokens (isActiveTenantToken organizationId organization.operationalCustomerId) []
    (fun left right view hne => ?_) (fun view id row hget hholds => .inr (mem_idsWhere.2 ⟨row, hget, hholds⟩))
    (fun view id row hagain hget hholds => ?_)
    fun before now more changed hbefore hbeforeInv hnow hnowInv hmore hchanged _ hwithin => ?_
  · simp only [get?_adjust, if_neg hne]
  · replace hagain : (view.tokens.get? id).any TokenRow.isActive = false := hagain
    rw [hget, Option.any_some] at hagain
    simp [isActiveTenantToken, hagain] at hholds
  · have hpost := h now more changed (hbefore.trans hnow) hnowInv hmore (fun id hmem => ?_)
      fun hkept later hlater id row hget hholds =>
        (hwithin (shrinks_tokens hlock hkept hrow hinv) later hlater id row hget hholds).resolve_left List.not_mem_nil
    · have heq : (fun view => changed.foldl (fun view id =>
          { view with tokens := adjust id TokenRow.deactivate view.tokens }) view) ∘
            sweptRegistry cancel clock [] [] [] [] = sweptRegistry cancel clock changed [] [] [] := by
        funext view
        rw [Function.comp_apply, foldl_tokens]
        rfl
      rw [heq]
      exact hpost
    · obtain ⟨row, hget, hholds⟩ := mem_idsWhere.1 (hchanged hmem)
      exact ⟨before, row, hbefore, hnow, hbeforeInv, hget, hholds⟩

theorem wp_retireInstallations {post : List Nat → Locks Row → (Registry → Registry) → Registry → Prop}
    (h : ∀ now more changed, (registryProtocol secret permits).Rely locks committed now → now.Constraints → locks ⊆ more →
      SeenMatching (registryProtocol secret permits) locks committed now installations
        (fun _ => isLiveInstallation organizationId) changed →
      (∀ id ∈ changed, (Row.installation id, Mode.noKeyUpdate) ∈ more) →
      (∀ later, (registryProtocol secret permits).Rely more now later → MatchesWithin installations
        (fun _ => isLiveInstallation organizationId) (· ∈ changed) later) →
      post changed more (sweptRegistry cancel clock tokenIds changed [] []) now) :
    (registryProtocol secret permits).Wp post (retireInstallations organizationId) locks
      (sweptRegistry cancel clock tokenIds [] [] []) committed := by
  refine wp_sweepTable installations (fun _ => isLiveInstallation organizationId) []
    (fun left right view hne => ?_) (fun view id row hget hholds => .inr (mem_idsWhere.2 ⟨row, hget, hholds⟩))
    (fun view id row hagain hget hholds => ?_)
    fun before now more changed hbefore hbeforeInv hnow hnowInv hmore hchanged hlocked hwithin => ?_
  · simp only [get?_adjust, if_neg hne]
  · replace hagain : (view.installations.get? id).any (isLiveInstallation organizationId) = false := hagain
    rw [hget, Option.any_some, hholds] at hagain
    cases hagain
  · have hpost := h now more changed (hbefore.trans hnow) hnowInv hmore (fun id hmem => ?_) hlocked
      fun later hlater id row hget hholds =>
        (hwithin (shrinks_installations hlock) later hlater id row hget hholds).resolve_left List.not_mem_nil
    · have heq : (fun view => changed.foldl (fun view id =>
          { view with installations := adjust id (InstallationRow.move .retired) view.installations }) view) ∘
            sweptRegistry cancel clock tokenIds [] [] [] = sweptRegistry cancel clock tokenIds changed [] [] := by
        funext view
        rw [Function.comp_apply, foldl_installations]
        rfl
      rw [heq]
      exact hpost
    · obtain ⟨row, hget, hholds⟩ := mem_idsWhere.1 (hchanged hmem)
      exact ⟨before, row, hbefore, hnow, hbeforeInv, hget, hholds⟩

omit hlock in
theorem wp_revokeCodes {post : List Nat → Locks Row → (Registry → Registry) → Registry → Prop}
    (hlive : ∀ view, (registryProtocol secret permits).Rely locks committed view →
      MatchesWithin installations (fun _ => isLiveInstallation organizationId)
        (fun id => Held locks (.installation id)) view)
    (h : ∀ now more changed, (registryProtocol secret permits).Rely locks committed now → now.Constraints → locks ⊆ more →
      SeenMatching (registryProtocol secret permits) locks committed now codes (isOpenTenantCode organizationId) changed →
      (∀ id ∈ changed, (Row.code id, Mode.noKeyUpdate) ∈ more) →
      (∀ later, (registryProtocol secret permits).Rely more now later → MatchesWithin codes
        (isOpenTenantCode organizationId) (· ∈ changed) later) →
      post changed more (sweptRegistry cancel clock tokenIds installationIds changed []) now) :
    (registryProtocol secret permits).Wp post (revokeCodes organizationId clock) locks
      (sweptRegistry cancel clock tokenIds installationIds [] []) committed := by
  have hsees : ∀ view, (fun code : CodeRow => code.isOpen && owns
      (sweptRegistry cancel clock tokenIds installationIds [] [] view) organizationId code.installationId) =
        isOpenTenantCode organizationId view := by
    intro view
    funext code
    rw [owns_sweptRegistry, isOpenTenantCode]
  refine wp_sweepTable codes (isOpenTenantCode organizationId) []
    (fun left right view hne => ?_) (fun view id code hget hholds => .inr ?_)
    (fun view id code hagain hget hholds => ?_)
    fun before now more changed hbefore hbeforeInv hnow hnowInv hmore hchanged hlocked hwithin => ?_
  · simp only [get?_adjust, if_neg hne]
  · rw [hsees]
    exact mem_idsWhere.2 ⟨code, hget, hholds⟩
  · replace hagain : (view.codes.get? id).any CodeRow.isOpen = false := hagain
    rw [hget, Option.any_some] at hagain
    simp [isOpenTenantCode, hagain] at hholds
  · have hpost := h now more changed (hbefore.trans hnow) hnowInv hmore (fun id hmem => ?_) hlocked
      fun later hlater id row hget hholds =>
        (hwithin (shrinks_tenantCodes hlive) later hlater id row hget hholds).resolve_left List.not_mem_nil
    · have heq : (fun view => changed.foldl (fun view id =>
          { view with codes := adjust id (CodeRow.revoke clock) view.codes }) view) ∘
            sweptRegistry cancel clock tokenIds installationIds [] [] =
              sweptRegistry cancel clock tokenIds installationIds changed [] := by
        funext view
        rw [Function.comp_apply, foldl_codes]
        rfl
      rw [heq]
      exact hpost
    · have hmem' := hchanged hmem
      rw [hsees] at hmem'
      obtain ⟨code, hget, hholds⟩ := mem_idsWhere.1 hmem'
      exact ⟨before, code, hbefore, hnow, hbeforeInv, hget, hholds⟩

theorem wp_retireKeys {post : List Nat → Locks Row → (Registry → Registry) → Registry → Prop} {customerId branchId : Nat}
    (hcodes : CodesTaken secret permits organizationId locks committed)
    (hrow : committed.organizations.get? organizationId = some organization)
    (hcustomer : organization.operationalCustomerId = some customerId) (hinv : committed.Constraints)
    (h : ∀ now more changed, (registryProtocol secret permits).Rely locks committed now → now.Constraints → locks ⊆ more →
      SeenMatching (registryProtocol secret permits) locks committed now keys (fun _ => isActiveKeyOf customerId branchId)
        changed →
      (∀ later, (registryProtocol secret permits).Rely more now later → MatchesWithin keys
        (fun _ => isActiveKeyOf customerId branchId) (· ∈ keyIds ++ changed) later) →
      post changed more (sweptRegistry cancel clock tokenIds installationIds codeIds (keyIds ++ changed)) now) :
    (registryProtocol secret permits).Wp post (retireKeys customerId branchId clock) locks
      (sweptRegistry cancel clock tokenIds installationIds codeIds keyIds) committed := by
  have hsees : ∀ (view : Registry) id, (adjustAll keyIds (KeyRow.retire clock) view.keys).get? id =
      if id ∈ keyIds then (view.keys.get? id).map (KeyRow.retire clock) else view.keys.get? id :=
    fun view id => get?_adjustAll (retire_retire clock) keyIds id
  refine wp_sweepTable keys (fun _ => isActiveKeyOf customerId branchId) keyIds
    (fun left right view hne => ?_) (fun view id key hget hholds => ?_)
    (fun view id key hagain hget hholds => ?_)
    fun before now more changed hbefore hbeforeInv hnow hnowInv hmore hchanged _ hwithin => ?_
  · simp only [get?_adjust, if_neg hne]
  · by_cases hdone : id ∈ keyIds
    · exact .inl hdone
    · refine .inr (mem_idsWhere.2 ⟨key, ?_, hholds⟩)
      exact (hsees view id).trans (by rw [if_neg hdone, hget])
  · by_contra hdone
    replace hagain : ((adjustAll keyIds (KeyRow.retire clock) view.keys).get? id).any (isActiveKeyOf customerId branchId) =
      false := hagain
    rw [hsees, if_neg hdone, hget, Option.any_some, hholds] at hagain
    cases hagain
  · have hpost := h now more changed (hbefore.trans hnow) hnowInv hmore (fun id hmem => ?_)
      fun later hlater id key hget hholds => List.mem_append.2
        (hwithin (shrinks_keys hlock hcodes hrow hcustomer hinv) later hlater id key hget hholds)
    · have heq : (fun view => changed.foldl (fun view id =>
          { view with keys := adjust id (KeyRow.retire clock) view.keys }) view) ∘
            sweptRegistry cancel clock tokenIds installationIds codeIds keyIds =
              sweptRegistry cancel clock tokenIds installationIds codeIds (keyIds ++ changed) := by
        funext view
        rw [Function.comp_apply, foldl_keys]
        simp only [sweptRegistry, adjustAll, List.foldl_append]
      rw [heq]
      exact hpost
    · obtain ⟨key, hget, hholds⟩ := mem_idsWhere.1 (hchanged hmem)
      replace hget : (adjustAll keyIds (KeyRow.retire clock) before.keys).get? id = some key := hget
      rw [hsees] at hget
      split at hget
      next =>
        obtain ⟨old, _, rfl⟩ := Option.map_eq_some_iff.1 hget
        simp [KeyRow.isActive, KeyRow.retire] at hholds
      next => exact ⟨before, key, hbefore, hnow, hbeforeInv, hget, hholds⟩

/-- The keys of the tenant, branch by branch. -/
theorem wp_retireKeysOf {post : List Nat → Locks Row → (Registry → Registry) → Registry → Prop} {customerId : Nat}
    {branches : List Nat} (hcodes : CodesTaken secret permits organizationId locks committed)
    (hrow : committed.organizations.get? organizationId = some organization)
    (hcustomer : organization.operationalCustomerId = some customerId) (hinv : committed.Constraints)
    (h : ∀ now more changed, (registryProtocol secret permits).Rely locks committed now → now.Constraints → locks ⊆ more →
      SeenMatching (registryProtocol secret permits) locks committed now keys (fun _ => isActiveKeyIn customerId branches)
        changed →
      (∀ later, (registryProtocol secret permits).Rely more now later → MatchesWithin keys
        (fun _ => isActiveKeyIn customerId branches) (· ∈ keyIds ++ changed) later) →
      post changed more (sweptRegistry cancel clock tokenIds installationIds codeIds (keyIds ++ changed)) now) :
    (registryProtocol secret permits).Wp post (retireKeysOf customerId clock branches) locks
      (sweptRegistry cancel clock tokenIds installationIds codeIds keyIds) committed := by
  induction branches generalizing post locks committed keyIds with
  | nil =>
      have hpost := h committed locks [] .refl hinv (List.Subset.refl _) (fun _ hmem => absurd hmem List.not_mem_nil)
        fun later _ id key _ hholds => absurd hholds (by simp [isActiveKeyIn])
      rw [List.append_nil] at hpost
      exact hpost
  | cons branchId rest ih =>
      simp only [retireKeysOf, wp_bind]
      refine wp_retireKeys hlock hcodes hrow hcustomer hinv fun middle held first hmiddle hmiddleInv hheld hfirst hwithin => ?_
      have hstays := (rely_organization hmiddle hinv (held_of_mem hlock (by decide))).trans hrow
      refine ih (hheld hlock) (hcodes.later hmiddle hheld) hstays hmiddleInv fun now more changed hnow hnowInv hmore hchanged hrest => ?_
      rw [wp_pure]
      have hpost := h now more (first ++ changed) (hmiddle.trans (Rely.mono hnow hheld)) hnowInv
        (List.Subset.trans hheld hmore) (fun id hmem => ?_) fun later hlater id key hget hholds => ?_
      · rw [← List.append_assoc] at hpost
        exact hpost
      · obtain hmem | hmem := List.mem_append.1 hmem
        · obtain ⟨seen, key, hseen, hthen, hseenInv, hget, hholds⟩ := hfirst id hmem
          exact ⟨seen, key, hseen, hthen.trans (Rely.mono hnow hheld), hseenInv, hget,
            List.any_eq_true.2 ⟨branchId, List.mem_cons_self, hholds⟩⟩
        · obtain ⟨seen, key, hseen, hthen, hseenInv, hget, hholds⟩ :=
            hchanged.mono hheld hmiddle .refl id hmem
          obtain ⟨branch, hbranch, hactive⟩ := List.any_eq_true.1 hholds
          exact ⟨seen, key, hseen, hthen, hseenInv, hget, List.any_eq_true.2 ⟨branch, .tail _ hbranch, hactive⟩⟩
      · rw [← List.append_assoc]
        obtain ⟨branch, hbranch, hactive⟩ := List.any_eq_true.1 hholds
        obtain rfl | hbranch := List.mem_cons.1 hbranch
        · exact List.mem_append_left _ (hwithin later (hnow.trans (Rely.mono hlater hmore)) id key hget hactive)
        · exact hrest later hlater id key hget (List.any_eq_true.2 ⟨branch, hbranch, hactive⟩)

theorem wp_retireTenantKeys {post : List Nat → Locks Row → (Registry → Registry) → Registry → Prop}
    (hcodes : CodesTaken secret permits organizationId locks committed)
    (hrow : committed.organizations.get? organizationId = some organization) (hinv : committed.Constraints)
    (h : ∀ now more changed, (registryProtocol secret permits).Rely locks committed now → now.Constraints → locks ⊆ more →
      SeenMatching (registryProtocol secret permits) locks committed now keys
        (isActiveTenantKey organizationId organization.operationalCustomerId) changed →
      (∀ later, (registryProtocol secret permits).Rely more now later → MatchesWithin keys
        (isActiveTenantKey organizationId organization.operationalCustomerId) (· ∈ changed) later) →
      post changed more (sweptRegistry cancel clock tokenIds installationIds codeIds changed) now) :
    (registryProtocol secret permits).Wp post (retireTenantKeys organizationId clock organization.operationalCustomerId)
      locks (sweptRegistry cancel clock tokenIds installationIds codeIds []) committed := by
  cases hcustomer : organization.operationalCustomerId with
  | none =>
      simp only [hcustomer] at h
      exact h committed locks [] .refl hinv (List.Subset.refl _) (fun _ hmem => absurd hmem List.not_mem_nil)
        fun later _ id key _ hholds => absurd hholds (by simp [isActiveTenantKey])
  | some customerId =>
      rw [hcustomer] at h
      simp only [retireTenantKeys, wp_bind, wp_select]
      intro first hfirst hfirstInv
      have hstays := (rely_organization hfirst hinv (held_of_mem hlock (by decide))).trans hrow
      refine wp_retireKeysOf hlock (hcodes.later hfirst (List.Subset.refl _)) hstays hcustomer hfirstInv fun now more changed hnow hnowInv hmore hchanged hwithin => ?_
      rw [List.nil_append] at hwithin ⊢
      have hsame : ∀ view, (registryProtocol secret permits).Rely locks first view →
          isActiveTenantKey organizationId (some customerId) view =
            isActiveKeyIn customerId (mappedBranches first organizationId) := by
        intro view hview
        funext key
        rw [isActiveTenantKey, mappedBranches, rely_branches hview hfirstInv]
        rfl
      refine h now more changed (hfirst.trans hnow) hnowInv hmore (fun id hmem => ?_) fun later hlater id key hget hholds => ?_
      · obtain ⟨seen, key, hseen, hthen, hseenInv, hget, hholds⟩ := hchanged id hmem
        exact ⟨seen, key, hfirst.trans hseen, hthen, hseenInv, hget, (congrFun (hsame seen hseen) key).trans hholds⟩
      · rw [hsame later (hnow.trans (Rely.mono hlater hmore))] at hholds
        exact hwithin later hlater id key hget hholds

end Sweeps

end SortView
