import SortView.Services.OffboardingSweeps

/-!
# Offboarding

What an offboarding guarantees when it is committed: the organization is cancelled, its installations are retired
and none of its credentials can be used. One that runs when this is already so changes no credential.
-/

namespace SortView

open PyText Transactions Transactions.Protocol Tables Registry Enrollment AdminInstallations Offboarding

variable {secret : Secrecy} {permits : RegistryAnswer → Locks Row → Registry → Prop} {locks more : Locks Row}
  {committed start now : Registry} {organizationId clock : Nat} {organization : OrganizationRow}

/-! ### The organization -/

/-- What the first statement of an offboarding writes: nothing, when the organization was cancelled before. -/
def CancelsOnly (organizationId : Nat) (organization : OrganizationRow)
    (cancel : Dict Nat OrganizationRow → Dict Nat OrganizationRow) : Prop :=
  cancel = id ∧ organization.status = .cancelled ∨ cancel = adjust organizationId OrganizationRow.cancel

variable {cancel : Dict Nat OrganizationRow → Dict Nat OrganizationRow} {table : Dict Nat OrganizationRow}

theorem CancelsOnly.cancelled (h : CancelsOnly organizationId organization cancel)
    (hrow : table.get? organizationId = some organization) :
    ∃ row, (cancel table).get? organizationId = some row ∧ row.status = .cancelled := by
  obtain ⟨rfl, hstatus⟩ | rfl := h
  · exact ⟨organization, hrow, hstatus⟩
  · refine ⟨organization.cancel, ?_, rfl⟩
    rw [get?_adjust, if_pos rfl, hrow, Option.map_some]

theorem CancelsOnly.before (h : CancelsOnly organizationId organization cancel) {id : Nat} {row : OrganizationRow}
    (hrow : (cancel table).get? id = some row) :
    ∃ old, table.get? id = some old ∧ old.operationalCustomerId = row.operationalCustomerId := by
  obtain ⟨rfl, _⟩ | rfl := h
  · exact ⟨row, hrow, rfl⟩
  · rw [get?_adjust] at hrow
    split at hrow
    next =>
      obtain ⟨old, hold, rfl⟩ := Option.map_eq_some_iff.1 hrow
      exact ⟨old, hold, rfl⟩
    next => exact ⟨row, hrow, rfl⟩

theorem CancelsOnly.moves (h : CancelsOnly organizationId organization cancel) {result : OffboardingResult}
    (hresult : result.organizationId = organizationId) :
    TableMoves (Cancels (.offboarded result)) (fun _ _ => False) table (cancel table) := by
  obtain ⟨rfl, _⟩ | rfl := h
  · exact .same rfl
  · exact .adjusted fun row _ => ⟨rfl, result, rfl, hresult⟩

theorem wp_cancelOrganization (clock : Nat) {post : Bool → Locks Row → (Registry → Registry) → Registry → Prop}
    (hlock : (Row.organization organizationId, Mode.update) ∈ locks)
    (hrow : committed.organizations.get? organizationId = some organization) (hinv : committed.Constraints)
    (h : ∀ now more done cancel, (registryProtocol secret permits).Rely locks committed now → now.Constraints →
      locks ⊆ more → CancelsOnly organizationId organization cancel →
      post done more (sweptRegistry cancel clock [] [] [] []) now) :
    (registryProtocol secret permits).Wp post (cancelOrganization organizationId) locks id committed := by
  have hstays : ∀ view, (registryProtocol secret permits).Rely locks committed view →
      view.organizations.get? organizationId = some organization :=
    fun view hview => (rely_organization hview hinv (held_of_mem hlock (by decide))).trans hrow
  have hdone : ∀ view, (registryProtocol secret permits).Rely locks committed view →
      ((view.organizations.get? organizationId).any fun row => row.status ≠ .cancelled) ≠ true →
      CancelsOnly organizationId organization id := by
    intro view hview hnot
    simp only [hstays view hview, Option.any_some, decide_eq_true_eq, ne_eq, not_not] at hnot
    exact .inl ⟨rfl, hnot⟩
  simp only [cancelOrganization, Tx.updateRow, wp_bind, wp_select, wp_ite, wp_lockRow, wp_change]
  intro first hfirst hfirstInv
  refine ⟨fun _ held hheld _ second hsecond hsecondInv => ?_, fun hnot =>
    h first locks false id hfirst hfirstInv (List.Subset.refl _) (hdone first hfirst hnot)⟩
  have hmine : locks ⊆ (Row.organization organizationId, Mode.noKeyUpdate) :: locks := List.subset_cons_self _ _
  have hreached := (hfirst.trans hheld).trans (Rely.mono hsecond hmine)
  exact ⟨fun _ => h second _ true _ hreached hsecondInv hmine (.inr rfl),
    fun hnot => h second _ false id hreached hsecondInv hmine (hdone second hreached hnot)⟩

/-! ### All sweeps together -/

/-- What an offboarding knows when its sweeps have run, of the time since it locked the organization. -/
structure SweptBy (secret : Secrecy) (permits : RegistryAnswer → Locks Row → Registry → Prop) (organizationId : Nat)
    (organization : OrganizationRow) (cancel : Dict Nat OrganizationRow → Dict Nat OrganizationRow)
    (tokenIds installationIds codeIds keyIds : List Nat) (more : Locks Row) (start now : Registry) : Prop where
  locked : (Row.organization organizationId, Mode.update) ∈ more
  row : start.organizations.get? organizationId = some organization
  inv : start.Constraints
  since : (registryProtocol secret permits).Rely [(Row.organization organizationId, Mode.update)] start now
  cancels : CancelsOnly organizationId organization cancel
  tokensSeen : SeenMatching (registryProtocol secret permits) [(Row.organization organizationId, Mode.update)] start now
    tokens (isActiveTenantToken organizationId organization.operationalCustomerId) tokenIds
  tokensLeft : secret.kept → ∀ later, (registryProtocol secret permits).Rely more now later → MatchesWithin tokens
    (isActiveTenantToken organizationId organization.operationalCustomerId) (· ∈ tokenIds) later
  installationsSeen : SeenMatching (registryProtocol secret permits) [(Row.organization organizationId, Mode.update)] start
    now installations (fun _ => isLiveInstallation organizationId) installationIds
  installationsLocked : ∀ id ∈ installationIds, (Row.installation id, Mode.noKeyUpdate) ∈ more
  installationsLeft : ∀ later, (registryProtocol secret permits).Rely more now later → MatchesWithin installations
    (fun _ => isLiveInstallation organizationId) (· ∈ installationIds) later
  codesSeen : SeenMatching (registryProtocol secret permits) [(Row.organization organizationId, Mode.update)] start now
    codes (isOpenTenantCode organizationId) codeIds
  codesLocked : ∀ id ∈ codeIds, (Row.code id, Mode.noKeyUpdate) ∈ more
  codesLeft : ∀ later, (registryProtocol secret permits).Rely more now later → MatchesWithin codes
    (isOpenTenantCode organizationId) (· ∈ codeIds) later
  keysSeen : SeenMatching (registryProtocol secret permits) [(Row.organization organizationId, Mode.update)] start now
    keys (isActiveTenantKey organizationId organization.operationalCustomerId) keyIds
  keysLeft : ∀ later, (registryProtocol secret permits).Rely more now later → MatchesWithin keys
    (isActiveTenantKey organizationId organization.operationalCustomerId) (· ∈ keyIds) later

namespace SweptBy

variable {tokenIds installationIds codeIds keyIds : List Nat}
  (h : SweptBy secret permits organizationId organization cancel tokenIds installationIds codeIds keyIds more start now)

include h

theorem own : [(Row.organization organizationId, Mode.update)] ⊆ more :=
  List.cons_subset.2 ⟨h.locked, List.nil_subset _⟩

theorem row_later {view : Registry}
    (hview : (registryProtocol secret permits).Rely [(Row.organization organizationId, Mode.update)] start view) :
    view.organizations.get? organizationId = some organization :=
  (rely_organization hview h.inv (held_of_mem List.mem_cons_self (by decide))).trans h.row

theorem reaches {later : Registry} (hlater : (registryProtocol secret permits).Rely more now later) :
    (registryProtocol secret permits).Rely [(Row.organization organizationId, Mode.update)] start later :=
  h.since.trans (Rely.mono hlater h.own)

variable {later : Registry}

theorem noActiveToken (hkept : secret.kept) (hlater : (registryProtocol secret permits).Rely more now later) :
    (sweptRegistry cancel clock tokenIds installationIds codeIds keyIds later).NoActiveToken organizationId := by
  intro id token hget htenant
  replace hget : (adjustAll tokenIds TokenRow.deactivate later.tokens).get? id = some token := hget
  rw [get?_adjustAll deactivate_deactivate] at hget
  split at hget
  next =>
    obtain ⟨old, _, rfl⟩ := Option.map_eq_some_iff.1 hget
    rfl
  next hnot =>
    by_contra hactive
    rw [Bool.not_eq_false] at hactive
    refine hnot (h.tokensLeft hkept later hlater id token hget ?_)
    simp only [isActiveTenantToken, isTenantToken, hactive, Bool.true_and, Bool.or_eq_true, decide_eq_true_eq]
    obtain ⟨row, hrow, hcustomer⟩ | ⟨owner, row, howner, hrow, hsame⟩ := htenant
    · obtain ⟨old, hold, hstays⟩ := h.cancels.before hrow
      rw [h.row_later (h.reaches hlater)] at hold
      cases hold
      exact .inl (hstays.trans hcustomer)
    · refine .inr ?_
      rw [howner, Option.any_some, ← owns_sweptRegistry, owns_iff]
      exact ⟨row, hrow, hsame⟩

theorem noOpenCode (hlater : (registryProtocol secret permits).Rely more now later) :
    (sweptRegistry cancel clock tokenIds installationIds codeIds keyIds later).NoOpenCode organizationId := by
  intro id code row hget hrow hsame
  replace hget : (adjustAll codeIds (CodeRow.revoke clock) later.codes).get? id = some code := hget
  rw [get?_adjustAll (revoke_revoke clock)] at hget
  split at hget
  next =>
    obtain ⟨old, _, rfl⟩ := Option.map_eq_some_iff.1 hget
    simp [CodeRow.isOpen, CodeRow.revoke]
  next hnot =>
    by_contra hopen
    rw [Bool.not_eq_false] at hopen
    refine hnot (h.codesLeft later hlater id code hget ?_)
    rw [isOpenTenantCode, hopen, Bool.true_and, ← owns_sweptRegistry, owns_iff]
    exact ⟨row, hrow, hsame⟩

theorem noActiveKey (hlater : (registryProtocol secret permits).Rely more now later) :
    (sweptRegistry cancel clock tokenIds installationIds codeIds keyIds later).NoActiveKey organizationId := by
  intro id key hget hpair
  replace hget : (adjustAll keyIds (KeyRow.retire clock) later.keys).get? id = some key := hget
  rw [get?_adjustAll (retire_retire clock)] at hget
  split at hget
  next =>
    obtain ⟨old, _, rfl⟩ := Option.map_eq_some_iff.1 hget
    rfl
  next hnot =>
    by_contra hactive
    rw [Bool.not_eq_false] at hactive
    obtain ⟨⟨row, hrow, hcustomer⟩, branch, hbranch, howner, hoperational⟩ := hpair
    obtain ⟨old, hold, hstays⟩ := h.cancels.before hrow
    rw [h.row_later (h.reaches hlater)] at hold
    cases hold
    refine hnot (h.keysLeft later hlater id key hget ?_)
    rw [isActiveTenantKey, hstays, hcustomer, Option.any_some]
    refine List.any_eq_true.2 ⟨key.branchId, mem_mappedBranches.2 ⟨key.branchId, branch, hbranch, howner, hoperational⟩, ?_⟩
    simp [isActiveKeyOf, hactive]

theorem allRetired (hlater : (registryProtocol secret permits).Rely more now later) :
    (sweptRegistry cancel clock tokenIds installationIds codeIds keyIds later).AllRetired organizationId := by
  intro id row hget hsame
  replace hget : (adjustAll installationIds (InstallationRow.move .retired) later.installations).get? id = some row := hget
  rw [get?_adjustAll move_move] at hget
  split at hget
  next =>
    obtain ⟨old, _, rfl⟩ := Option.map_eq_some_iff.1 hget
    rfl
  next hnot =>
    by_contra hlive
    exact hnot (h.installationsLeft later hlater id row hget (by simp [isLiveInstallation, hsame, hlive]))

theorem moves (hlater : (registryProtocol secret permits).Rely more now later)
    {result : OffboardingResult} (hresult : result.organizationId = organizationId) :
    RegistryMoves secret (.offboarded result) more later
      (sweptRegistry cancel clock tokenIds installationIds codeIds keyIds later) where
  branches := rfl
  customers := rfl
  organizations := h.cancels.moves hresult
  installations := .swept move_move fun id hmem row hrow => by
    obtain ⟨seen, old, _, hthen, hseenInv, hold, hlive⟩ := h.installationsSeen id hmem
    obtain ⟨row', hrow', hsame, _⟩ := rely_installation (hthen.trans (Rely.mono hlater h.own)) hseenInv hold
    rw [hrow] at hrow'
    cases hrow'
    simp only [isLiveInstallation, Bool.and_eq_true, decide_eq_true_eq] at hlive
    have horganization : row.organizationId = organizationId := hsame.trans hlive.1
    refine ⟨rfl, rfl, .inl (h.installationsLocked id hmem), fun _ => rfl, fun _ _ => ⟨.inr ⟨result, rfl, ?_⟩, ?_⟩⟩
    · exact hresult.trans horganization.symm
    · rintro ⟨keyRow, key, hkey, hactive, _, _, hpair⟩
      rw [h.noActiveKey hlater keyRow key hkey (horganization ▸ hpair)] at hactive
      cases hactive
  codes := .swept (revoke_revoke clock) fun id hmem row _ => ⟨.inl (h.codesLocked id hmem), clock, .inl rfl⟩
  tokens := .swept deactivate_deactivate fun _ _ _ _ => rfl
  keys := .swept (retire_retire clock) fun _ _ _ _ => ⟨clock, rfl⟩
  cutovers := .same rfl
  offboarding result' hanswer := by
    cases hanswer
    rw [hresult]
    exact h.locked
  offboarded result' hanswer := by
    cases hanswer
    rw [hresult]
    exact ⟨h.cancels.cancelled (h.row_later (h.reaches hlater)), h.noOpenCode hlater, h.noActiveKey hlater,
      fun hkept => h.noActiveToken hkept hlater, h.allRetired hlater⟩

end SweptBy

/-! ### The whole transaction -/

/-- Writes to the audit log and to the record of cutoffs. -/
def OnlyRecords (records : Registry → Registry) : Prop :=
  ∀ reg, ∃ auditLog lifecycle, records reg = { reg with auditLog := auditLog, lifecycle := lifecycle }

/-- How a call of `offboard_library` ends: with the counts of what it swept. -/
structure Offboards (secret : Secrecy) (permits : RegistryAnswer → Locks Row → Registry → Prop) (organizationId : Nat)
    (result : OffboardingResult) (more : Locks Row) (redo : Registry → Registry) (committed now : Registry) : Prop where
  organization : result.organizationId = organizationId
  ends : ∃ organization cancel clock tokenIds installationIds codeIds keyIds start records,
    SweptBy secret permits organizationId organization cancel tokenIds installationIds codeIds keyIds more start now ∧
      (registryProtocol secret permits).Rely [] committed start ∧ OnlyRecords records ∧
      redo = records ∘ sweptRegistry cancel clock tokenIds installationIds codeIds keyIds ∧
      result.counts = ⟨tokenIds.length, installationIds.length, codeIds.length, keyIds.length⟩

theorem Offboards.commits {result : OffboardingResult} {redo : Registry → Registry}
    (h : Offboards secret permits organizationId result more redo committed now) :
    (registryProtocol secret permits).Commits (.offboarded result) more redo now := by
  obtain ⟨organization, cancel, clock, tokenIds, installationIds, codeIds, keyIds, start, records, hswept, _, hrecords, rfl,
    _⟩ := h.ends
  refine commits_of_moves fun later hlater _ => ?_
  obtain ⟨auditLog, lifecycle, heq⟩ :=
    hrecords (sweptRegistry cancel clock tokenIds installationIds codeIds keyIds later)
  rw [Function.comp_apply, heq]
  exact (hswept.moves hlater h.organization).records auditLog lifecycle

theorem wp_auditOffboarding {post : Unit → Locks Row → (Registry → Registry) → Registry → Prop}
    {counts : OffboardingCounts} {actor : Option PlatformActor} {redo written : Registry → Registry}
    (hwritten : OnlyRecords written)
    (h : ∀ records, OnlyRecords records → post () more (records ∘ redo) committed) :
    (registryProtocol secret permits).Wp post (auditOffboarding organization counts actor) more (written ∘ redo)
      committed := by
  cases actor with
  | none => exact h written hwritten
  | some actor =>
      refine h (fun reg => (written reg).log _) fun reg => ?_
      obtain ⟨auditLog, lifecycle, heq⟩ := hwritten reg
      exact ⟨_, lifecycle, congrArg (Registry.log · _) heq⟩

theorem offboards_offboardLibrary {confirmSlug actorLabel : Text} {actorUserId : Option Nat}
    {adminActor : Option PlatformActor} :
    (registryProtocol secret permits).Wp (fun result more redo now =>
        Offboards secret permits organizationId result more redo committed now)
      (offboardLibrary organizationId confirmSlug actorUserId actorLabel adminActor clock) [] id committed := by
  simp only [offboardLibrary, wp_bind]
  refine wp_lockFirst (fun _ _ _ _ => trivial) fun seen start found hseen hseenInv hfound hstart hstartInv => ?_
  obtain ⟨_, _, rfl⟩ := Option.map_eq_some_iff.1 hfound
  rw [id_eq]
  cases hrow : start.organizations.get? organizationId with
  | none => trivial
  | some organization =>
      simp only [wp_bind, wp_require]
      intro _ _
      have hlock : (Row.organization organizationId, Mode.update) ∈ [(Row.organization organizationId, Mode.update)] :=
        List.mem_cons_self
      have hrow' : ∀ {view : Registry},
          (registryProtocol secret permits).Rely [(Row.organization organizationId, Mode.update)] start view →
            view.organizations.get? organizationId = some organization :=
        fun hview => (rely_organization hview hstartInv (held_of_mem hlock (by decide))).trans hrow
      refine wp_cancelOrganization clock hlock hrow hstartInv fun first held _ cancel hfirst hfirstInv hheld hcancel => ?_
      refine wp_revokeTokens (hheld hlock) (hrow' hfirst) hfirstInv
        fun second heldTokens tokenIds hsecond hsecondInv hmoreTokens htokensSeen htokensLeft => ?_
      have hownTokens := List.Subset.trans hheld hmoreTokens
      have hsecond' := hfirst.trans (Rely.mono hsecond hheld)
      simp only [wp_select]
      intro third hthird hthirdInv
      have hthird' := hsecond'.trans (Rely.mono hthird hownTokens)
      refine wp_retireInstallations (hownTokens hlock) fun fourth heldInstallations installationIds hfourth hfourthInv
        hmoreInstallations hinstallationsSeen hlocked hinstallationsLeft => ?_
      have hownInstallations := List.Subset.trans hownTokens hmoreInstallations
      have hfourth' := hthird'.trans (Rely.mono hfourth hownTokens)
      refine wp_revokeCodes (fun view hview id row hget hlive =>
          held_of_mem (hlocked id (hinstallationsLeft view hview id row hget hlive)) (by decide))
        fun fifth heldCodes codeIds hfifth hfifthInv hmoreCodes hcodesSeen hcodesLocked hcodesLeft => ?_
      have hownCodes := List.Subset.trans hownInstallations hmoreCodes
      have hfifth' := hfourth'.trans (Rely.mono hfifth hownInstallations)
      refine wp_retireTenantKeys (hownCodes hlock)
        (fun view hview id row hget hopen => hcodesLocked id (hcodesLeft view hview id row hget hopen)) (hrow' hfifth') hfifthInv
        fun now more keyIds hnow hnowInv hmore hkeysSeen hkeysLeft => ?_
      have hown := List.Subset.trans hownCodes hmore
      have hfourthNow := hfifth.trans (Rely.mono hnow hmoreCodes)
      have hthirdNow := hfourth.trans (Rely.mono hfourthNow hmoreInstallations)
      have hsecondNow := hthird.trans (Rely.mono hthirdNow (List.Subset.refl _))
      have hswept : SweptBy secret permits organizationId organization cancel tokenIds installationIds codeIds keyIds more
          start now :=
        { locked := hown hlock
          row := hrow
          inv := hstartInv
          since := hfifth'.trans (Rely.mono hnow hownCodes)
          cancels := hcancel
          tokensSeen := htokensSeen.mono hheld hfirst (Rely.mono hsecondNow hownTokens)
          tokensLeft := fun hkept later hlater => htokensLeft hkept later
            (hsecondNow.trans (Rely.mono hlater (List.Subset.trans hmoreInstallations (List.Subset.trans hmoreCodes hmore))))
          installationsSeen := hinstallationsSeen.mono hownTokens hthird' (Rely.mono hfourthNow hownInstallations)
          installationsLocked := fun id hmem => hmore (hmoreCodes (hlocked id hmem))
          installationsLeft := fun later hlater => hinstallationsLeft later
            (hfourthNow.trans (Rely.mono hlater (List.Subset.trans hmoreCodes hmore)))
          codesSeen := hcodesSeen.mono hownInstallations hfourth' (Rely.mono hnow hownCodes)
          codesLocked := fun id hmem => hmore (hcodesLocked id hmem)
          codesLeft := fun later hlater => hcodesLeft later (hnow.trans (Rely.mono hlater hmore))
          keysSeen := hkeysSeen.mono hownCodes hfifth' .refl
          keysLeft := hkeysLeft }
      simp only [recordCutoff, wp_bind, wp_require, wp_change]
      intro _
      refine wp_auditOffboarding (fun reg => ⟨reg.auditLog, _, rfl⟩) fun records hrecords => ?_
      simp only [wp_pure]
      refine ⟨rfl, organization, cancel, clock, tokenIds, installationIds, codeIds, keyIds, start, _, hswept,
        hseen.trans hstart, hrecords, rfl, rfl⟩

/-! ### Running it again -/

theorem nil_of_seen {ν : Type} {protocol : Protocol Registry Row RegistryAnswer} {rows : Registry → Dict Nat ν}
    {holds : Registry → ν → Bool} {ids : List Nat} (h : SeenMatching protocol locks start now rows holds ids)
    (hnone : ∀ seen, protocol.Rely locks start seen → seen.Constraints → ∀ id row, (rows seen).get? id = some row →
      holds seen row = false) : ids = [] := by
  rw [List.eq_nil_iff_forall_not_mem]
  intro id hmem
  obtain ⟨seen, row, hseen, _, hseenInv, hget, hholds⟩ := h id hmem
  rw [hnone seen hseen hseenInv id row hget] at hholds
  cases hholds

/-- Where no credential can be used, an offboarding changes none. -/
theorem Offboards.again {result : OffboardingResult} {redo : Registry → Registry}
    (h : Offboards secret permits organizationId result more redo committed now)
    (hcutOff : ∀ view, (registryProtocol secret permits).Rely [] committed view → view.CutOff organizationId) :
    (result.counts.agentTokensDeactivated = 0 ∧ result.counts.enrollmentCodesRevoked = 0 ∧
      result.counts.ingestKeysRetired = 0) ∧
    ∀ view, (redo view).tokens = view.tokens ∧ (redo view).codes = view.codes ∧ (redo view).keys = view.keys := by
  obtain ⟨organization, cancel, clock, tokenIds, installationIds, codeIds, keyIds, start, records, hswept, hstart, hrecords,
    rfl, hcounts⟩ := h.ends
  have hcut : ∀ seen, (registryProtocol secret permits).Rely [(Row.organization organizationId, Mode.update)] start seen →
      seen.CutOff organizationId :=
    fun seen hseen => hcutOff seen (hstart.trans (Rely.mono hseen (List.nil_subset _)))
  have htokens : tokenIds = [] := nil_of_seen hswept.tokensSeen fun seen hseen _ id token hget => by
    by_contra hactive
    simp only [isActiveTenantToken, isTenantToken, Bool.not_eq_false, Bool.and_eq_true, Bool.or_eq_true,
      decide_eq_true_eq, Option.any_eq_true, owns_iff] at hactive
    have htenant : seen.TenantToken organizationId token := by
      obtain hcustomer | ⟨owner, howner, row, hrow, hsame⟩ := hactive.2
      · exact .inl ⟨organization, hswept.row_later hseen, hcustomer⟩
      · exact .inr ⟨owner, row, howner, hrow, hsame⟩
    rw [(hcut seen hseen).tokens id token hget htenant] at hactive
    cases hactive.1
  have hcodes : codeIds = [] := nil_of_seen hswept.codesSeen fun seen hseen _ id code hget => by
    by_contra hopen
    simp only [isOpenTenantCode, Bool.not_eq_false, Bool.and_eq_true, owns_iff] at hopen
    obtain ⟨hopen, row, hrow, hsame⟩ := hopen
    rw [(hcut seen hseen).codes id code row hget hrow hsame] at hopen
    cases hopen
  have hkeys : keyIds = [] := nil_of_seen hswept.keysSeen fun seen hseen hseenInv id key hget => by
    by_contra hholds
    rw [Bool.not_eq_false] at hholds
    obtain ⟨customerId, hcustomer, hin⟩ := (Option.any_eq_true _ _).1 hholds
    obtain ⟨operationalId, hbranch, hactive⟩ := List.any_eq_true.1 hin
    obtain ⟨branchId, branch, hget', howner, hoperational⟩ := mem_mappedBranches.1 hbranch
    obtain rfl := hseenInv.branches _ _ _ hget' hoperational
    simp only [isActiveKeyOf, Bool.and_eq_true, decide_eq_true_eq] at hactive
    obtain ⟨⟨rfl, rfl⟩, hactive⟩ := hactive
    rw [(hcut seen hseen).keys id key hget ⟨⟨organization, hswept.row_later hseen, hcustomer⟩, branch, hget', howner,
      hoperational⟩] at hactive
    cases hactive
  subst htokens hcodes hkeys
  rw [hcounts]
  refine ⟨⟨rfl, rfl, rfl⟩, fun view => ?_⟩
  obtain ⟨auditLog, lifecycle, heq⟩ := hrecords (sweptRegistry cancel clock [] installationIds [] [] view)
  rw [Function.comp_apply, heq]
  exact ⟨rfl, rfl, rfl⟩

end SortView
