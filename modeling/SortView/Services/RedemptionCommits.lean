import SortView.Services.IdentityCommits

/-!
# Redemptions

What the redemption of a code guarantees when it is committed: the code was open and is used, the organization
was held and not cancelled, and on Contract v2 the branch had no key and no cutover.
-/

namespace SortView

open PyText Transactions Transactions.Protocol Tables Registry Enrollment IngestKeys

variable {secret : Secrecy} {permits : RegistryAnswer → Locks Row → Registry → Prop} {locks more : Locks Row}
  {committed before after : Registry} {scope : InstallationScope} {codeId : Nat} {code : CodeRow}

/-! ### What a redemption holds -/

/-- The code is locked and open, and the organization of its scope is not cancelled, and held if codes are kept. -/
structure RedemptionHolds (secret : Secrecy) (locks : Locks Row) (scope : InstallationScope) (codeId : Nat)
    (code : CodeRow) (reg : Registry) : Prop where
  tenant : Scoped reg scope
  owner : code.installationId = scope.installationId
  organization : secret.kept → Held locks (.organization scope.organizationId)
  live : ¬ reg.Cancelled scope.organizationId
  codeLock : (Row.code codeId, Mode.update) ∈ locks
  stored : reg.codes.get? codeId = some code
  isOpen : code.isOpen = true

/-- The code shields its organization. -/
theorem RedemptionHolds.shielded (h : RedemptionHolds secret locks scope codeId code before) :
    Shielded locks before scope.organizationId := by
  obtain ⟨row, hrow, hsame, _⟩ := h.tenant.installation
  exact .inr ⟨codeId, code, row, held_of_mem h.codeLock (by decide), h.stored, h.isOpen, h.owner.symm ▸ hrow, hsame⟩

theorem RedemptionHolds.later (h : RedemptionHolds secret locks scope codeId code before)
    (hrely : (registryProtocol secret permits).Rely locks before after) (hinv : before.Constraints) (hmore : locks ⊆ more) :
    RedemptionHolds secret more scope codeId code after where
  tenant := h.tenant.later hrely hinv
  owner := h.owner
  organization := fun hkept => (h.organization hkept).mono hmore
  live := rely_not_cancelled hrely hinv h.shielded h.live
  codeLock := hmore h.codeLock
  stored := rely_code_held hrely hinv (held_of_mem h.codeLock (by decide)) h.stored
  isOpen := h.isOpen

/-- The branch is locked, its installation can be enrolled, and it has no key and no cutover. -/
structure BranchHolds (locks : Locks Row) (scope : InstallationScope) (reg : Registry) : Prop where
  locked : (Row.branch scope.branchId, Mode.update) ∈ locks
  enrollable : Enrollable reg scope
  noKey : reg.hasActiveKey scope.customerId scope.branchId = false
  noCutover : reg.hasAnyCutover scope.customerId scope.branchId = false

/-- An installation stays enrollable while its branch is held and its organization shielded. -/
theorem Enrollable.later (h : Enrollable before scope) (hrely : (registryProtocol secret permits).Rely locks before after)
    (hinv : before.Constraints) (hbranch : Held locks (.branch scope.branchId))
    (hshield : Shielded locks before scope.organizationId) : Enrollable after scope := by
  obtain ⟨row, hrow, hsame, hsameBranch, hstatus⟩ := h
  obtain ⟨row', hrow', hkept, hkeptBranch, hstatus'⟩ := rely_unretired hrely hinv (hsameBranch.symm ▸ hbranch)
    (hsame.symm ▸ hshield) hrow hstatus
  exact ⟨row', hrow', hkept.trans hsame, hkeptBranch.trans hsameBranch, hstatus'⟩

theorem BranchHolds.later (h : BranchHolds locks scope before)
    (hrely : (registryProtocol secret permits).Rely locks before after) (hinv : before.Constraints)
    (hshield : Shielded locks before scope.organizationId) (hmore : locks ⊆ more) :
    BranchHolds more scope after where
  locked := hmore h.locked
  enrollable := h.enrollable.later hrely hinv (held_of_mem h.locked (by decide)) hshield
  noKey := rely_hasActiveKey hrely hinv (held_of_mem h.locked (by decide)) h.noKey
  noCutover := rely_hasAnyCutover hrely hinv (held_of_mem h.locked (by decide)) h.noCutover

/-! ### Before the first write -/

/-- The code that is looked up is locked. The organization of its installation is held while codes are kept: no code is
redeemed that was still being drawn when the organization was looked for. -/
theorem wp_lookup {post : Option (Nat × CodeRow) → Locks Row → (Registry → Registry) → Registry → Prop} {hash : Text}
    (hinv : committed.Constraints)
    (hpresents : secret.kept → secret.drawn hash → ∃ id row, committed.codes.get? id = some row ∧ row.codeHash = hash)
    (hnone : ∀ now more, post none more id now)
    (h : ∀ now more codeId code, (registryProtocol secret permits).Rely locks committed now → now.Constraints →
      (Row.code codeId, Mode.update) ∈ more → now.codes.get? codeId = some code →
      (∀ installation, now.installations.get? code.installationId = some installation → secret.kept →
        Held more (.organization installation.organizationId)) → post (some (codeId, code)) more id now) :
    (registryProtocol secret permits).Wp (fun _ => (registryProtocol secret permits).Wp post (lookupCode hash))
      (lockCodeOrganization hash) locks id committed := by
  -- the lookup, when the organization that was found is held
  have hlookup : ∀ first more, (registryProtocol secret permits).Rely locks committed first → first.Constraints →
      locks ⊆ more → (∀ now codeId code, (registryProtocol secret permits).Rely more first now → now.Constraints →
        now.codes.get? codeId = some code → code.codeHash = hash → ∀ installation,
          now.installations.get? code.installationId = some installation → secret.kept →
          Held more (.organization installation.organizationId)) →
      (registryProtocol secret permits).Wp post (lookupCode hash) more id first := by
    intro first more hfirst hfirstInv hmore hheld
    refine wp_lockFirst (fun now _ _ _ => hnone now more) fun seen now found hseen _ _ hnow hnowInv => ?_
    rw [id_eq]
    cases hcode : now.codes.get? found with
    | none => exact hnone _ _
    | some code =>
        rw [Option.bind_some]
        split
        next hhash =>
          have hreached := hseen.trans hnow
          exact h now _ found code (hfirst.trans (Rely.mono hreached hmore)) hnowInv List.mem_cons_self hcode
            fun installation hinstallation hkept =>
              (hheld now found code hreached hnowInv hcode hhash installation hinstallation hkept).mono
                (List.subset_cons_self _ _)
        next => exact hnone _ _
  simp only [lockCodeOrganization, wp_bind, wp_select]
  intro first hfirst hfirstInv
  cases horganization : (id first).codeOrganization hash with
  | none =>
      -- no code had the hash, so while codes are kept none will be drawn with it
      refine hlookup first locks hfirst hfirstInv (List.Subset.refl _)
        fun now codeId code hnow _ hcode hhash _ _ hkept => ?_
      have hunused : ∀ id row, first.codes.get? id = some row → row.codeHash ≠ hash := by
        intro id row hrow hsame
        obtain ⟨found, hfound⟩ := exists_codeByHash hrow hsame
        obtain ⟨hget, _⟩ := get?_of_codeByHash hfound
        have howner := hfirstInv.codeOwners _ _ hget
        rw [id_eq, codeOrganization, hfound, Option.bind_some, Option.map_eq_none_iff] at horganization
        rw [horganization] at howner
        cases howner
      have hundrawn : ¬ secret.drawn hash := by
        intro hdrawn
        obtain ⟨id, row, hrow, hsame⟩ := hpresents hkept hdrawn
        obtain ⟨row', hrow', _, hstays, _⟩ := rely_code hfirst hinv hrow
        exact hunused id row' hrow' (hstays.trans hsame)
      exact absurd hhash (rely_codeHash hnow hfirstInv (.inr hundrawn) hunused codeId code hcode)
  | some organization =>
      obtain ⟨⟨id', code'⟩, hfound, howner⟩ := Option.bind_eq_some_iff.1 horganization
      obtain ⟨installation', hinstallation', rfl⟩ := Option.map_eq_some_iff.1 howner
      obtain ⟨hget, hhash'⟩ := get?_of_codeByHash hfound
      simp only [wp_lockRow]
      intro second hsecond hsecondInv
      refine hlookup second _ (hfirst.trans hsecond) hsecondInv (List.subset_cons_self _ _)
        fun now codeId code hnow hnowInv hcode hhash installation hinstallation _ => ?_
      have hreached := hsecond.trans (Rely.mono hnow (List.subset_cons_self _ _))
      obtain ⟨kept, hkept, hsame, hkeptHash, _⟩ := rely_code hreached hfirstInv hget
      have hids := hnowInv.codeHashes codeId id' code kept hcode hkept (hhash.trans (hkeptHash.trans hhash').symm)
      subst hids
      rw [hcode] at hkept
      cases hkept
      obtain ⟨row, hrow, hsameOrganization, _⟩ := rely_installation hreached hfirstInv hinstallation'
      rw [hsame, hrow] at hinstallation
      cases hinstallation
      rw [hsameOrganization]
      exact held_of_mem List.mem_cons_self (by decide)

theorem wp_settingsDocument {post : List (Text × Json) → Locks Row → (Registry → Registry) → Registry → Prop}
    {reader : SettingsReader} {document : Json} {redo : Registry → Registry} (h : ∀ items, post items locks redo committed) :
    (registryProtocol secret permits).Wp post (settingsDocument reader document) locks redo committed := by
  unfold settingsDocument
  split
  next => exact h _
  next =>
    split
    next => trivial
    next => exact h _
  next => exact h _

theorem wp_requirePermittedContract {post : Nat → Locks Row → (Registry → Registry) → Registry → Prop} {required : Nat}
    {requested : Option Int} {redo : Registry → Registry} (h : post required locks redo committed) :
    (registryProtocol secret permits).Wp post (requirePermittedContract required requested) locks redo committed := by
  unfold requirePermittedContract
  dsimp only
  split_ifs <;> trivial

/-- What is checked of a branch before the first write still holds after it. -/
theorem wp_prepareV2Enrollment {post : V2Site → Locks Row → (Registry → Registry) → Registry → Prop} {reader : SettingsReader}
    (hscope : Scoped committed scope) (hshield : Shielded locks committed scope.organizationId)
    (hinv : committed.Constraints)
    (h : ∀ now site, (registryProtocol secret permits).Rely locks committed now → now.Constraints →
      BranchHolds ((.branch scope.branchId, .update) :: locks) scope now →
      post site ((.branch scope.branchId, .update) :: locks) id now) :
    (registryProtocol secret permits).Wp post (prepareV2Enrollment reader scope) locks id committed := by
  have hmine : locks ⊆ (Row.branch scope.branchId, Mode.update) :: locks := List.subset_cons_self _ _
  have hbranch : Held ((Row.branch scope.branchId, Mode.update) :: locks) (.branch scope.branchId) :=
    held_of_mem List.mem_cons_self (by decide)
  simp only [prepareV2Enrollment, wp_bind, wp_lockRow, wp_select, wp_require, id_eq]
  intro first hfirst hfirstInv second hsecond hsecondInv henrollable third hthird hthirdInv
  have hreached := hfirst.trans (Rely.mono hsecond hmine)
  have hopen : Enrollable second scope := by
    obtain ⟨row, hrow, hsame, hsameBranch⟩ := (hscope.later hreached hinv).installation
    refine ⟨row, hrow, hsame, hsameBranch, not_retired_of_enrollable ?_⟩
    simpa [hrow] using henrollable
  split
  next => trivial
  next organization settings _ =>
    rw [wp_bind]
    refine wp_settingsDocument fun organizationSettings => ?_
    rw [wp_bind]
    refine wp_settingsDocument fun branchSettings => ?_
    split
    next => trivial
    next timezone rules _ =>
      simp only [wp_bind, wp_select, wp_require, wp_pure]
      intro fourth hfourth hfourthInv hnoKey fifth hfifth hfifthInv hnoCutover
      rw [hscope.operational] at hnoKey hnoCutover
      have hlater := hthird.trans (hfourth.trans hfifth)
      exact h fifth _ (hreached.trans (Rely.mono hlater hmine)) hfifthInv
        ⟨List.mem_cons_self, hopen.later hlater hsecondInv hbranch ((rely_shielded hreached hinv hshield).mono hmine),
          rely_hasActiveKey hfifth hfourthInv hbranch hnoKey, hnoCutover⟩

/-! ### The writes -/

/-- The code is used, and a token is added. -/
def withToken (codeId clock rowId : Nat) (token : TokenRow) (reg : Registry) : Registry :=
  Registry.setToken { reg with codes := adjust codeId (CodeRow.claim clock) reg.codes } rowId token

theorem redeems_withToken {reg later : Registry} {clock : Nat} (hcode : reg.codes.get? codeId = some code)
    (hopen : code.isOpen = true) (hlater : later.codes = adjust codeId (CodeRow.claim clock) reg.codes) :
    Redeems reg later codeId := by
  refine ⟨code, code.claim clock, hcode, hopen, ?_, rfl⟩
  rw [hlater, get?_adjust, if_pos rfl, hcode, Option.map_some]

section Writes

variable {result : EnrollmentResult} {token : TokenRow} {clock tokenId : Nat} {reg : Registry}
  (hholds : RedemptionHolds secret locks scope codeId code reg) (howner : token.installationId = some scope.installationId)
  (hcustomer : token.customerId = scope.customerId) (hcode : token.enrolledBy = some codeId)
  (hkey : (Row.token tokenId, Mode.update) ∈ locks) (hfree : reg.tokens.get? tokenId = none)

include hholds

theorem codes_withToken {adds : Nat → CodeRow → Prop} :
    TableMoves (ChangesCode locks) adds reg.codes (adjust codeId (CodeRow.claim clock) reg.codes) :=
  .adjusted fun _ _ => ⟨.inr hholds.codeLock, clock, .inr rfl⟩

include howner hcustomer hcode hkey hfree

theorem tokens_withToken {later : Registry} (hredeems : Redeems reg later codeId) :
    TableMoves DeactivatesToken (AddsToken secret locks reg later) reg.tokens (reg.tokens.set tokenId token) := by
  refine .inserted (.same rfl) hfree (addsToken_of_scoped hholds.tenant hholds.organization hholds.live hkey howner hcustomer ?_)
  intro id hid
  rw [hcode] at hid
  cases hid
  exact hredeems

/-- A redemption on the legacy contract. -/
theorem moves_withToken :
    RegistryMoves secret (.enrolled result) locks reg (withToken codeId clock tokenId token reg) where
  branches := rfl
  customers := rfl
  organizations := .same rfl
  installations := .same rfl
  codes := codes_withToken hholds
  tokens := tokens_withToken hholds howner hcustomer hcode hkey hfree (redeems_withToken hholds.stored hholds.isOpen rfl)
  keys := .same rfl
  cutovers := .same rfl
  offboarding := by simp
  offboarded := by simp

/-- A redemption on Contract v2, with the key and the cutover of the branch. -/
theorem moves_withIdentity {key : KeyRow} {cutover : BranchCutoverRow} {keyId cutoverId : Nat}
    (hbranch : BranchHolds locks scope reg) (hkeyOwner : key.installationId = some scope.installationId)
    (hkeyPair : key.customerId = scope.customerId ∧ key.branchId = scope.branchId) (hkeyCode : key.enrolledBy = some codeId)
    (hkeyLock : (Row.key keyId, Mode.update) ∈ locks) (hkeyFree : reg.keys.get? keyId = none)
    (hcutoverPair : cutover.customerId = scope.customerId ∧ cutover.branchId = scope.branchId)
    (hcutoverCode : cutover.enrolledBy = some codeId) (hcutoverLock : (Row.cutover cutoverId, Mode.update) ∈ locks)
    (hcutoverFree : reg.cutovers.get? cutoverId = none) :
    RegistryMoves secret (.enrolled result) locks reg
      (((withToken codeId clock tokenId token reg).setKey keyId key).setCutover cutoverId cutover) where
  branches := rfl
  customers := rfl
  organizations := .same rfl
  installations := .same rfl
  codes := codes_withToken hholds
  tokens := tokens_withToken hholds howner hcustomer hcode hkey hfree (redeems_withToken hholds.stored hholds.isOpen rfl)
  keys := by
    refine .inserted (.same rfl) hkeyFree ⟨hkeyLock, .inr (hkeyPair.2 ▸ hbranch.locked),
      ⟨scope.organizationId, hholds.shielded, hholds.live, ?_, fun owner hown => ?_⟩, ?_, fun id hid => ?_⟩
    · rw [hkeyPair.1, hkeyPair.2]
      exact hholds.tenant.pair
    · rw [hkeyOwner] at hown
      cases hown
      obtain ⟨row, hrow, hsame, hsameBranch, hstatus⟩ := hbranch.enrollable
      exact ⟨row, hrow, hsameBranch.trans hkeyPair.2.symm, hsame, hstatus⟩
    · rw [hkeyPair.1, hkeyPair.2]
      exact hbranch.noKey
    · rw [hkeyCode] at hid
      cases hid
      exact redeems_withToken hholds.stored hholds.isOpen rfl
  cutovers := by
    refine .inserted (.same rfl) hcutoverFree ⟨hcutoverLock, .inr (hcutoverPair.2 ▸ hbranch.locked),
      ⟨scope.organizationId, ?_⟩, ?_, fun id hid => ?_⟩
    · rw [hcutoverPair.1, hcutoverPair.2]
      exact hholds.tenant.pair
    · rw [hcutoverPair.1, hcutoverPair.2]
      exact hbranch.noCutover
    · rw [hcutoverCode] at hid
      cases hid
      exact redeems_withToken hholds.stored hholds.isOpen rfl
  offboarding := by simp
  offboarded := by simp

end Writes

/-! ### The whole redemption -/

/-- The key and the cutover, over the token. -/
theorem commits_issueIdentity {site : V2Site} {draw : RedemptionDraw} {token : TokenRow} {clock tokenId : Nat}
    {result : V2Enrollment → EnrollmentResult} (hinv : committed.Constraints)
    (hholds : RedemptionHolds secret locks scope codeId code committed) (hbranch : BranchHolds locks scope committed)
    (howner : token.installationId = some scope.installationId) (hcustomer : token.customerId = scope.customerId)
    (hcode : token.enrolledBy = some codeId) (hkey : (Row.token tokenId, Mode.update) ∈ locks)
    (hfree : committed.tokens.get? tokenId = none) :
    (registryProtocol secret permits).Wp
      (fun identity => (registryProtocol secret permits).Commits (.enrolled (result identity)))
      (issueIdentity scope site codeId draw) locks (withToken codeId clock tokenId token) committed := by
  have hleaves : LeavesTenants (withToken codeId clock tokenId token) := ⟨fun _ => rfl, fun _ => rfl, fun _ => rfl⟩
  simp only [issueIdentity, issueIngestKey, lockForOwner, refuseForOwner, Option.isNone_some, Bool.false_eq_true, if_false,
    recordInitialV2Cutover, recordV2Cutover, wp_bind, wp_pure]
  refine wp_requireProvisionable hleaves fun first _ hfirst hfirstInv _ _ => ?_
  refine wp_insertKey hfirstInv (fun _ => rfl) fun second more hsecond hsecondInv hmore hkeyLock hkeyFree => ?_
  simp only [wp_pure, wp_select, wp_require]
  intro third hthird hthirdInv _
  refine wp_requireProvisionable ⟨fun _ => rfl, fun _ => rfl, fun _ => rfl⟩ fun fourth _ hfourth hfourthInv _ _ => ?_
  simp only [wp_require]
  intro _
  refine wp_insertCutover hfourthInv (fun _ => rfl) fun fifth most hfifth hfifthInv hmost hcutoverLock hcutoverFree => ?_
  simp only [wp_pure]
  refine commits_of_moves fun later hlater _ => ?_
  have hmine : locks ⊆ most := List.Subset.trans hmore hmost
  have hsinceSecond := hthird.trans (hfourth.trans (hfifth.trans (Rely.mono hlater hmost)))
  have hreached := hfirst.trans (hsecond.trans (Rely.mono hsinceSecond hmore))
  exact moves_withIdentity (hholds.later hreached hinv hmine) howner hcustomer hcode (hmine hkey)
    (rely_free_token hreached hinv hkey hfree) (hbranch.later hreached hinv hholds.shielded hmine) rfl
    ⟨rfl, hholds.tenant.operational⟩ rfl (hmost hkeyLock) (rely_free_key hsinceSecond hsecondInv hkeyLock hkeyFree)
    ⟨rfl, hholds.tenant.operational⟩ rfl hcutoverLock (rely_free_cutover hlater hfifthInv hcutoverLock hcutoverFree)

/-- The claim of the code, and then the token. -/
theorem wp_claimWithToken {post : Unit → Locks Row → (Registry → Registry) → Registry → Prop} {token : TokenRow}
    {tokenId now clock : Nat} {refusal : RegistryFailure}
    (h : ∀ later more, (registryProtocol secret permits).Rely locks committed later → later.Constraints → locks ⊆ more →
      (Row.token tokenId, Mode.update) ∈ more → later.tokens.get? tokenId = none →
      post () more (withToken codeId clock tokenId token) later) :
    (registryProtocol secret permits).Wp (fun claimed => (registryProtocol secret permits).Wp
        (fun _ => (registryProtocol secret permits).Wp post (insertToken token tokenId)) (Tx.require (claimed = true) refusal))
      (claimCode codeId now clock) locks id committed := by
  refine wp_updateRow (fun first more _ _ _ => ?_) fun seen first hseen _ hfirst hfirstInv _ => ?_
  · simp
  · simp only [wp_require]
    intro _
    refine wp_insertToken hfirstInv (fun _ _ => rfl) fun second more hsecond hsecondInv hmore hkey hfree => ?_
    have hmine : locks ⊆ (Row.code codeId, Mode.noKeyUpdate) :: locks := List.subset_cons_self _ _
    exact h second more (hseen.trans (hfirst.trans (Rely.mono hsecond hmine))) hsecondInv (List.Subset.trans hmine hmore)
      hkey hfree

theorem commits_redeemCode {sha256 : Text → Text} {reader : SettingsReader} {contractVersion : Option Int} {now clock : Nat}
    {draw : RedemptionDraw} (hinv : committed.Constraints) (hlock : (Row.code codeId, Mode.update) ∈ locks)
    (hcode : committed.codes.get? codeId = some code) (hopen : code.isOpen = true)
    (hheld : ∀ installation, committed.installations.get? code.installationId = some installation → secret.kept →
      Held locks (.organization installation.organizationId)) :
    (registryProtocol secret permits).Wp (fun result => (registryProtocol secret permits).Commits (.enrolled result))
      (redeemCode sha256 reader codeId code contractVersion now clock draw) locks id committed := by
  simp only [redeemCode, wp_bind]
  refine wp_resolve leavesTenants_id fun seen first scope hseen hseenInv hscope _ hlive hid hfirst hfirstInv => ?_
  have horganization : secret.kept → Held locks (.organization scope.organizationId) := by
    intro hkept
    obtain ⟨installation, hinstallation⟩ := Option.isSome_iff_exists.1 (hinv.codeOwners codeId code hcode)
    obtain ⟨row, hrow, hstays, _⟩ := rely_installation hseen hinv hinstallation
    obtain ⟨row', hrow', hsame, _⟩ := hscope.installation
    rw [hid, hrow] at hrow'
    cases hrow'
    rw [← hsame, hstays]
    exact hheld installation hinstallation hkept
  have hholds : RedemptionHolds secret locks scope codeId code first :=
    RedemptionHolds.later ⟨hscope, hid.symm, horganization, hlive, hlock,
      rely_code_held hseen hinv (held_of_mem hlock (by decide)) hcode, hopen⟩ hfirst hseenInv (List.Subset.refl _)
  refine wp_requirePermittedContract ?_
  unfold siteFor
  simp only [wp_ite, wp_bind, wp_pure]
  refine ⟨fun _ => ?_, fun _ => ?_⟩
  · refine wp_prepareV2Enrollment hholds.tenant hholds.shielded hfirstInv fun second site hsecond hsecondInv hbranch => ?_
    refine wp_claimWithToken fun third most hthird hthirdInv hmost hkey hfree => ?_
    have hmine : locks ⊆ (Row.branch scope.branchId, Mode.update) :: locks := List.subset_cons_self _ _
    simp only [wp_bind]
    exact commits_issueIdentity hthirdInv
      (hholds.later (hsecond.trans (Rely.mono hthird hmine)) hfirstInv (List.Subset.trans hmine hmost))
      (hbranch.later hthird hsecondInv ((rely_shielded hsecond hfirstInv hholds.shielded).mono hmine) hmost) rfl rfl rfl hkey hfree
  · refine wp_claimWithToken fun third most hthird hthirdInv hmost hkey hfree => ?_
    simp only [wp_pure]
    refine commits_of_moves fun later hlater _ => ?_
    exact moves_withToken (hholds.later (hthird.trans (Rely.mono hlater hmost)) hfirstInv hmost) rfl rfl rfl hkey
      (rely_free_token hlater hthirdInv hkey hfree)

theorem commits_redeemEnrollmentCode {sha256 : Text → Text} {reader : SettingsReader} {rawCode : Text}
    {contractVersion : Option Int} {now clock : Nat} {draw : RedemptionDraw} (hinv : committed.Constraints)
    (hpresents : ∀ canonical, normalizeEnrollmentCode rawCode = some canonical → secret.kept →
      secret.drawn (sha256 canonical) →
      ∃ id row, committed.codes.get? id = some row ∧ row.codeHash = sha256 canonical) :
    (registryProtocol secret permits).Wp (fun result => (registryProtocol secret permits).Commits (.enrolled result))
      (redeemEnrollmentCode sha256 reader rawCode contractVersion now clock draw) locks id committed := by
  unfold redeemEnrollmentCode
  cases hcanonical : normalizeEnrollmentCode rawCode with
  | none => trivial
  | some canonical =>
      simp only [wp_bind]
      refine wp_lookup hinv (hpresents canonical hcanonical) (fun _ _ => trivial)
        fun first more codeId code _ hfirstInv hlock hcode hheld => ?_
      simp only [wp_bind, wp_require]
      intro hunused hunrevoked _
      exact commits_redeemCode hfirstInv hlock hcode (by rw [CodeRow.isOpen, hunused, hunrevoked]; rfl) hheld

end SortView
