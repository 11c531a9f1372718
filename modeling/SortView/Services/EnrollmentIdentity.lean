import SortView.Services.InstallationCommits
import SortView.Services.OffboardingCommits
import SortView.Services.RedemptionCommits

/-!
# Enrollment gives a branch one identity

All operations on the registry keep its protocol, so what every commit keeps is true of every committed state.
-/

namespace SortView

open PyText Transactions Transactions.Protocol Tables Registry Enrollment AdminInstallations Offboarding

variable {sha256 : Text → Text} {reader : SettingsReader} {secret : Secrecy}
  {permits : RegistryAnswer → Locks Row → Registry → Prop} {locks : Locks Row} {answer : RegistryAnswer}
  {before after : Registry}

/-- Every call keeps the protocol. -/
theorem registry_follows : (registryProtocol secret permits).Follows (RegistryCall.Starts sha256 reader secret) := by
  intro committed program hinv hstarts
  obtain ⟨call, hsecrets, rfl⟩ := hstarts
  cases call with
  | createEnrollmentCode installationId createdByUserId expectedOrganizationId ttl issuedAt clock draw =>
      simp only [RegistryCall.program, wp_bind]
      exact commits_createEnrollmentCode (hsecrets.draws _ rfl)
  | issueEnrollmentCode library installationId actor ttl issuedAt clock draw =>
      simp only [RegistryCall.program, wp_bind]
      exact commits_issueEnrollmentCode (hsecrets.draws _ rfl)
  | redeemEnrollmentCode rawCode contractVersion now clock draw =>
      simp only [RegistryCall.program, wp_bind]
      refine commits_redeemEnrollmentCode hinv fun canonical hcanonical hkept hdrawn => ?_
      exact hsecrets.presents hkept _ (by rw [RegistryCall.presents?, hcanonical]; rfl) hdrawn
  | issueIngestKey customerId branchId draw =>
      simp only [RegistryCall.program, wp_bind]
      exact commits_issueIngestKey
  | retireIngestKey keyId clock =>
      simp only [RegistryCall.program, wp_bind]
      exact commits_retireIngestKey
  | issueRecovery library installationId actor draw =>
      simp only [RegistryCall.program, wp_bind]
      exact commits_issueRecovery
  | insertInstallation new rowId =>
      simp only [RegistryCall.program, wp_bind]
      exact commits_insertCollectorInstallation
  | createInstallation library name requiredContract actor rowId =>
      simp only [RegistryCall.program, wp_bind]
      exact commits_createInstallation
  | renameInstallation library installationId name actor =>
      simp only [RegistryCall.program, wp_bind]
      exact commits_renameInstallation
  | changeStatus library installationId status actor =>
      simp only [RegistryCall.program, wp_bind]
      exact commits_changeStatus
  | offboardLibrary organizationId confirmSlug actorUserId actorLabel adminActor clock =>
      simp only [RegistryCall.program, wp_bind]
      exact offboards_offboardLibrary.mono fun _ _ _ _ hends => hends.commits

/-! ### Identities -/

namespace Registry

variable (reg : Registry)

/-- The keys and cutovers are those of mapped tenants, and an installation owns only keys of its own. -/
structure FullyMapped : Prop where
  keys : ∀ id key, reg.keys.get? id = some key → ∃ organization,
    reg.MappedPair organization key.customerId key.branchId ∧ ∀ owner, key.installationId = some owner →
      ∃ installation, reg.installations.get? owner = some installation ∧ installation.organizationId = organization
  cutovers : ∀ id cutover, reg.cutovers.get? id = some cutover → ∃ organization,
    reg.MappedPair organization cutover.customerId cutover.branchId

/-- What the redemption of a code has written to a table: at most one row, and then the code is used. -/
def ProducedOnce {ν : Type} (table : Dict Nat ν) (enrolledBy : ν → Option Nat) : Prop :=
  ∀ codeId id row, table.get? id = some row → enrolledBy row = some codeId →
    (∃ code, reg.codes.get? codeId = some code ∧ code.usedAt.isSome) ∧
      ∀ id' row', table.get? id' = some row' → enrolledBy row' = some codeId → id' = id

/-- A branch has one identity, and it was given once. -/
structure OneIdentity : Prop where
  oneKey : ∀ id id' key key', reg.keys.get? id = some key → reg.keys.get? id' = some key' → key.branchId = key'.branchId →
    key.isActive = true → key'.isActive = true → id = id'
  oneToken : reg.ProducedOnce reg.tokens TokenRow.enrolledBy
  oneKeyOfCode : reg.ProducedOnce reg.keys KeyRow.enrolledBy
  oneCutoverOfCode : reg.ProducedOnce reg.cutovers BranchCutoverRow.enrolledBy
  oneOpenCode : ∀ id id' code code', reg.codes.get? id = some code → reg.codes.get? id' = some code' →
    code.installationId = code'.installationId → code.isOpen = true → code'.isOpen = true → id = id'
  oneCutover : ∀ id id' cutover cutover', reg.cutovers.get? id = some cutover → reg.cutovers.get? id' = some cutover' →
    cutover.branchId = cutover'.branchId → cutover.setBy = enrollmentCutoverSetBy →
    cutover'.setBy = enrollmentCutoverSetBy → id = id'
  noneRetired : ∀ id key owner installation, reg.keys.get? id = some key → key.isActive = true →
    key.installationId = some owner → reg.installations.get? owner = some installation → installation.status ≠ .retired

/-- A branch belongs to one tenant. -/
theorem MappedPair.same {reg : Registry} {organization organization' customer customer' branch : Nat}
    (h : reg.MappedPair organization customer branch) (h' : reg.MappedPair organization' customer' branch) :
    organization = organization' ∧ customer = customer' := by
  obtain ⟨⟨row, hrow, hcustomer⟩, branchRow, hbranch, howner, _⟩ := h
  obtain ⟨⟨row', hrow', hcustomer'⟩, branchRow', hbranch', howner', _⟩ := h'
  rw [hbranch] at hbranch'
  cases hbranch'
  obtain rfl := howner.symm.trans howner'
  rw [hrow] at hrow'
  cases hrow'
  exact ⟨rfl, Option.some.inj (hcustomer.symm.trans hcustomer')⟩

end Registry

/-! ### One commit -/

namespace RegistryMoves

variable (h : RegistryMoves secret answer locks before after)

include h

theorem fullyMapped (hmapped : before.FullyMapped) : after.FullyMapped where
  keys id key hkey := by
    have hstays : ∀ {old : KeyRow}, before.keys.get? id = some old → ∃ organization,
        after.MappedPair organization old.customerId old.branchId ∧ ∀ owner, old.installationId = some owner →
          ∃ installation, after.installations.get? owner = some installation ∧
            installation.organizationId = organization := by
      intro old hold
      obtain ⟨organization, hpair, howners⟩ := hmapped.keys id old hold
      refine ⟨organization, h.mappedPair_iff.2 hpair, fun owner howner => ?_⟩
      obtain ⟨installation, hinstallation, hsame⟩ := howners owner howner
      obtain ⟨row', hrow', hkept, _⟩ := h.installation hinstallation
      exact ⟨row', hrow', hkept.trans hsame⟩
    obtain ⟨old, hold, rfl | ⟨clock, rfl⟩⟩ | ⟨_, hadds⟩ := h.keys.cases hkey
    · exact hstays hold
    · obtain ⟨organization, hpair, howners⟩ := hstays hold
      exact ⟨organization, hpair, howners⟩
    · obtain ⟨organization, _, _, hpair, howners⟩ := hadds.tenant
      refine ⟨organization, h.mappedPair_iff.2 hpair, fun owner howner => ?_⟩
      obtain ⟨installation, hinstallation, _, hsame, _⟩ := howners owner howner
      obtain ⟨row', hrow', hkept, _⟩ := h.installation hinstallation
      exact ⟨row', hrow', hkept.trans hsame⟩
  cutovers id cutover hcutover := by
    obtain ⟨old, hold, rfl | hfalse⟩ | ⟨_, hadds⟩ := h.cutovers.cases hcutover
    · obtain ⟨organization, hpair⟩ := hmapped.cutovers id _ hold
      exact ⟨organization, h.mappedPair_iff.2 hpair⟩
    · exact hfalse.elim
    · obtain ⟨organization, hpair⟩ := hadds.mapped
      exact ⟨organization, h.mappedPair_iff.2 hpair⟩

theorem producedOnce {ν : Type} {table table' : Dict Nat ν} {enrolledBy : ν → Option Nat}
    {changes : Nat → ν → ν → Prop} {adds : Nat → ν → Prop} (htable : TableMoves changes adds table table')
    (hchanges : ∀ id row row', changes id row row' → enrolledBy row' = enrolledBy row)
    (hadds : ∀ id row codeId, adds id row → enrolledBy row = some codeId → Redeems before after codeId)
    (honce : before.ProducedOnce table enrolledBy) : after.ProducedOnce table' enrolledBy := by
  have hcases : ∀ {id row codeId}, table'.get? id = some row → enrolledBy row = some codeId →
      (∃ old, table.get? id = some old ∧ enrolledBy old = some codeId) ∨
        table.get? id = none ∧ Redeems before after codeId := by
    intro id row codeId hrow henrolled
    obtain ⟨old, hold, rfl | hchange⟩ | ⟨hnone, hadd⟩ := htable.cases hrow
    · exact .inl ⟨_, hold, henrolled⟩
    · exact .inl ⟨old, hold, (hchanges id old row hchange).symm.trans henrolled⟩
    · exact .inr ⟨hnone, hadds id row codeId hadd henrolled⟩
  -- a code that is redeemed now has produced nothing before
  have hfresh : ∀ {id old codeId}, table.get? id = some old → enrolledBy old = some codeId →
      ¬ Redeems before after codeId := by
    rintro id old codeId hold henrolled ⟨code, _, hcode, hopen, _⟩
    obtain ⟨⟨code', hcode', hused⟩, _⟩ := honce codeId id old hold henrolled
    rw [hcode] at hcode'
    cases hcode'
    simp [CodeRow.isOpen, Option.isNone_iff_eq_none] at hopen
    rw [hopen.1] at hused
    cases hused
  intro codeId id row hrow henrolled
  obtain ⟨old, hold, henrolledOld⟩ | ⟨hnone, hredeems⟩ := hcases hrow henrolled
  · obtain ⟨⟨code, hcode, hused⟩, hunique⟩ := honce codeId id old hold henrolledOld
    obtain ⟨code', hcode', _, _, _, hstays⟩ := h.code hcode
    refine ⟨⟨code', hcode', hstays hused⟩, fun id' row' hrow' henrolled' => ?_⟩
    obtain ⟨old', hold', henrolledOld'⟩ | ⟨_, hredeems⟩ := hcases hrow' henrolled'
    · exact hunique id' old' hold' henrolledOld'
    · exact absurd hredeems (hfresh hold henrolledOld)
  · have hredeemed := hredeems
    obtain ⟨_, code', _, _, hcode', hused⟩ := hredeemed
    refine ⟨⟨code', hcode', hused⟩, fun id' row' hrow' henrolled' => ?_⟩
    obtain ⟨old', hold', henrolledOld'⟩ | ⟨hnone', _⟩ := hcases hrow' henrolled'
    · exact absurd hredeems (hfresh hold' henrolledOld')
    · exact htable.single id' id hnone' hnone (by rw [hrow']; rfl) (by rw [hrow]; rfl)

/-- A key is added to a branch that has no active one. -/
theorem oneKey (hmapped : before.FullyMapped) (hone : before.OneIdentity) {id id' : Nat} {key key' : KeyRow}
    (hkey : after.keys.get? id = some key) (hkey' : after.keys.get? id' = some key')
    (hbranch : key.branchId = key'.branchId) (hactive : key.isActive = true) (hactive' : key'.isActive = true) : id = id' := by
  have hcases : ∀ {id key}, after.keys.get? id = some key → key.isActive = true →
      before.keys.get? id = some key ∨ before.keys.get? id = none ∧ AddsKey locks before after id key := by
    intro id key hkey hactive
    obtain ⟨old, hold, rfl | ⟨clock, rfl⟩⟩ | hadds := h.keys.cases hkey
    · exact .inl hold
    · cases hactive
    · exact .inr hadds
  have hfirst : ∀ {id id' key key'}, AddsKey locks before after id key → before.keys.get? id' = some key' →
      key.branchId = key'.branchId → key'.isActive = false := by
    intro id id' key key' hadds hold hbranch
    obtain ⟨_, _, _, hpair, _⟩ := hadds.tenant
    obtain ⟨_, hpair', _⟩ := hmapped.keys id' key' hold
    rw [hbranch] at hpair
    exact hasActiveKey_eq_false_iff.1 hadds.first id' key' hold (hpair.same hpair').2.symm hbranch.symm
  obtain hold | ⟨hnone, hadds⟩ := hcases hkey hactive
  · obtain hold' | ⟨_, hadds'⟩ := hcases hkey' hactive'
    · exact hone.oneKey id id' key key' hold hold' hbranch hactive hactive'
    · rw [hfirst hadds' hold hbranch.symm] at hactive
      cases hactive
  · obtain hold' | ⟨hnone', _⟩ := hcases hkey' hactive'
    · rw [hfirst hadds hold' hbranch] at hactive'
      cases hactive'
    · exact h.keys.single id id' hnone hnone' (by rw [hkey]; rfl) (by rw [hkey']; rfl)

theorem oneCutover (hmapped : before.FullyMapped) (hone : before.OneIdentity) {id id' : Nat}
    {cutover cutover' : BranchCutoverRow} (hcutover : after.cutovers.get? id = some cutover)
    (hcutover' : after.cutovers.get? id' = some cutover') (hbranch : cutover.branchId = cutover'.branchId)
    (hset : cutover.setBy = enrollmentCutoverSetBy) (hset' : cutover'.setBy = enrollmentCutoverSetBy) :
    id = id' := by
  have hfirst : ∀ {id id' cutover cutover'}, AddsCutover locks before after id cutover →
      before.cutovers.get? id' = some cutover' → cutover.branchId ≠ cutover'.branchId := by
    intro id id' cutover cutover' hadds hold hbranch
    obtain ⟨_, hpair⟩ := hadds.mapped
    obtain ⟨_, hpair'⟩ := hmapped.cutovers id' cutover' hold
    rw [hbranch] at hpair
    exact hasAnyCutover_eq_false_iff.1 hadds.first id' cutover' hold (hpair.same hpair').2.symm hbranch.symm
  obtain ⟨old, hold, rfl | hfalse⟩ | ⟨hnone, hadds⟩ := h.cutovers.cases hcutover
  · obtain ⟨old', hold', rfl | hfalse⟩ | ⟨_, hadds'⟩ := h.cutovers.cases hcutover'
    · exact hone.oneCutover id id' _ _ hold hold' hbranch hset hset'
    · exact hfalse.elim
    · exact absurd hbranch.symm (hfirst hadds' hold)
  · exact hfalse.elim
  · obtain ⟨old', hold', rfl | hfalse⟩ | ⟨hnone', _⟩ := h.cutovers.cases hcutover'
    · exact absurd hbranch (hfirst hadds hold')
    · exact hfalse.elim
    · exact h.cutovers.single id id' hnone hnone' (by rw [hcutover]; rfl) (by rw [hcutover']; rfl)

/-- The codes of an installation are revoked before one is added. -/
theorem oneOpenCode (hone : before.OneIdentity) {id id' : Nat} {code code' : CodeRow}
    (hcode : after.codes.get? id = some code) (hcode' : after.codes.get? id' = some code')
    (hsame : code.installationId = code'.installationId) (hopen : code.isOpen = true) (hopen' : code'.isOpen = true) :
    id = id' := by
  have hcases : ∀ {id code}, after.codes.get? id = some code → code.isOpen = true →
      before.codes.get? id = some code ∨ AddsCode secret locks before after id code := by
    intro id code hcode hopen
    obtain ⟨old, hold, rfl | ⟨_, clock, rfl | rfl⟩⟩ | ⟨_, hadds⟩ := h.codes.cases hcode
    · exact .inl hold
    · simp [CodeRow.isOpen, CodeRow.revoke] at hopen
    · simp [CodeRow.isOpen, CodeRow.claim] at hopen
    · exact .inr hadds
  obtain hold | hadds := hcases hcode hopen
  · obtain hold' | hadds' := hcases hcode' hopen'
    · exact hone.oneOpenCode id id' code code' hold hold' hsame hopen hopen'
    · exact hadds'.alone id code hcode hsame hopen
  · exact (hadds.alone id' code' hcode' hsame.symm hopen').symm

/-- An installation that owns an active key is not retired, and one that is retired is given none. -/
theorem noneRetired (hinv : before.Constraints) (hmapped : before.FullyMapped) (hone : before.OneIdentity)
    {id owner : Nat} {key : KeyRow} {installation : InstallationRow} (hkey : after.keys.get? id = some key)
    (hactive : key.isActive = true) (howner : key.installationId = some owner)
    (hinstallation : after.installations.get? owner = some installation) : installation.status ≠ .retired := by
  have hstays : ∀ {row : InstallationRow}, before.installations.get? owner = some row → row.status ≠ .retired →
      row.branchId = key.branchId → after.MappedPair row.organizationId key.customerId key.branchId →
      installation.status ≠ .retired := by
    intro row hrow hstatus hbranch hpair hretired
    obtain ⟨row', hrow', rfl | hchanges⟩ := h.installations.kept owner row hrow
    · rw [hinstallation] at hrow'
      cases hrow'
      exact hstatus hretired
    · rw [hinstallation] at hrow'
      cases hrow'
      exact (hchanges.retires hstatus hretired).2 ⟨id, key, hkey, hactive, howner, hbranch.symm, hpair⟩
  obtain ⟨old, hold, rfl | ⟨clock, rfl⟩⟩ | ⟨_, hadds⟩ := h.keys.cases hkey
  · obtain ⟨row, hrow, hbranch⟩ := hinv.keyOwners id _ owner hold howner
    obtain ⟨organization, hpair, howners⟩ := hmapped.keys id _ hold
    obtain ⟨row', hrow', rfl⟩ := howners owner howner
    rw [hrow] at hrow'
    cases hrow'
    exact hstays hrow (hone.noneRetired id _ owner row hold hactive howner hrow) hbranch (h.mappedPair_iff.2 hpair)
  · cases hactive
  · obtain ⟨organization, _, _, hpair, howners⟩ := hadds.tenant
    obtain ⟨row, hrow, hbranch, rfl, hstatus⟩ := howners owner howner
    exact hstays hrow hstatus hbranch (h.mappedPair_iff.2 hpair)

theorem oneIdentity (hinv : before.Constraints) (hmapped : before.FullyMapped) (hone : before.OneIdentity) :
    after.OneIdentity where
  oneKey _ _ _ _ := h.oneKey hmapped hone
  oneToken := h.producedOnce h.tokens (fun _ _ _ hchanges => by rw [hchanges]; rfl)
    (fun _ _ codeId hadds => hadds.enrolled codeId) hone.oneToken
  oneKeyOfCode := h.producedOnce h.keys (fun _ _ _ ⟨_, hchanges⟩ => by rw [hchanges]; rfl)
    (fun _ _ codeId hadds => hadds.enrolled codeId) hone.oneKeyOfCode
  oneCutoverOfCode := h.producedOnce h.cutovers (fun _ _ _ hfalse => hfalse.elim)
    (fun _ _ codeId hadds => hadds.enrolled codeId) hone.oneCutoverOfCode
  oneOpenCode _ _ _ _ := h.oneOpenCode hone
  oneCutover _ _ _ _ := h.oneCutover hmapped hone
  noneRetired _ _ _ _ := h.noneRetired hinv hmapped hone

end RegistryMoves

/-! ### Main result -/

/-- Nothing is assumed of how codes are presented. -/
def anySecrecy : Secrecy := ⟨fun _ => True, False⟩

theorem registry_follows_any :
    (registryProtocol anySecrecy permits).Follows (Calls (RegistryCall.program sha256 reader) fun _ _ => True) := by
  intro committed program hinv hstarts
  obtain ⟨call, -, rfl⟩ := hstarts
  exact registry_follows committed _ hinv ⟨call, ⟨fun _ _ => trivial, fun hkept => hkept.elim⟩, rfl⟩

/-- However the calls overlap, in every committed state each branch has one identity, and what does not commit, as a
redemption that is refused, changes no row. -/
theorem enrollment_gives_one_identity (sha256 : Text → Text) (reader : SettingsReader) (start : Registry)
    (sys : System Registry Row RegistryFailure RegistryAnswer) (hschema : start.Constraints) (hmapped : start.FullyMapped)
    (hone : start.OneIdentity)
    (hsteps : Steps (Calls (RegistryCall.program sha256 reader) fun _ _ => True) (fun _ _ _ => True) (System.idle start) sys) :
    sys.committed.OneIdentity ∧
      (∀ next, Step (Calls (RegistryCall.program sha256 reader) fun _ _ => True) (fun _ _ _ => True) sys none next →
        next.committed = sys.committed) ∧
      ∀ index session refusal, sys.session index = some session → session.program = .fail refusal →
        sys.apply (.step index) = some (sys.put index none, none) := by
  have hidle : Sound (registryProtocol anySecrecy fun _ _ _ => True)
      (System.idle start : System Registry Row RegistryFailure RegistryAnswer) := Sound.idle hschema
  obtain ⟨-, -, hidentity⟩ := hidle.steps registry_follows_any hsteps (fun reg => reg.FullyMapped ∧ reg.OneIdentity)
    (fun _ _ _ _ _ hmoves hinv _ hfact =>
      ⟨hmoves.fullyMapped hfact.1, hmoves.oneIdentity hinv hfact.1 hfact.2⟩) ⟨hmapped, hone⟩
  refine ⟨hidentity, fun _ hstep => hstep.committed, fun index session refusal hsession hprogram => ?_⟩
  simp only [System.apply, hsession, Option.bind_some, hprogram]

/-- A library with one branch, ready for Contract v2, and an installation that has not enrolled. -/
def readyLibrary : Registry where
  organizations := Dict.empty.set 1 ⟨"library".toList, .active, some 7, 0, .object
    [("collector_timezone".toList, .text "America/Chicago".toList), ("collector_rules".toList, .object
      [("reviewed_at".toList, .text "2026-01-01T00:00:00+00:00".toList), ("reviewed_by_user_id".toList, .int 1)])]⟩
  customers := [7]
  branches := Dict.empty.set 5 ⟨1, "main".toList, .active, true, some 5, .object []⟩
  installations := Dict.empty.set 3 ⟨1, 5, "Sorter".toList, none, none, .provisioning, 2⟩
  codes := Dict.empty
  tokens := Dict.empty
  keys := Dict.empty
  cutovers := Dict.empty
  auditLog := []
  lifecycle := []

/-- All that the reader is asked here is in place. -/
def anyReader : SettingsReader := ⟨fun _ => none, fun _ => true, fun _ => true, fun _ => []⟩

def drawnCode : CodeDraw := ⟨11, "ABCDEFGHJKMNPQRS".toList⟩

def createCode : RegistryCall := .createEnrollmentCode 3 none none 900000000 0 0 drawnCode

def redeemCode (row : Nat) (token key : Text) : RegistryCall :=
  .redeemEnrollmentCode "SV-ABCD-EFGH-JKMN-PQRS".toList (some 2) 60000000 60000000 ⟨⟨row, token⟩, ⟨row, key⟩, row⟩

theorem readyLibrary_constraints : readyLibrary.Constraints where
  customers _ _ _ _ _ hrow hrow' _ _ := (get?_single hrow).1.trans (get?_single hrow').1.symm
  branches _ _ _ hrow hbranch := by
    obtain ⟨rfl, rfl⟩ := get?_single hrow
    exact (Option.some.inj hbranch).symm
  codeHashes _ _ _ _ hrow := by cases hrow
  codeOwners _ _ hrow := by cases hrow
  tokenOwners _ _ _ hrow := by cases hrow
  keyOwners _ _ _ hrow := by cases hrow

theorem readyLibrary_fullyMapped : readyLibrary.FullyMapped where
  keys _ _ hkey := by cases hkey
  cutovers _ _ hcutover := by cases hcutover

theorem readyLibrary_oneIdentity : readyLibrary.OneIdentity where
  oneKey _ _ _ _ hkey := by cases hkey
  oneToken _ _ _ hrow := by cases hrow
  oneKeyOfCode _ _ _ hrow := by cases hrow
  oneCutoverOfCode _ _ _ hrow := by cases hrow
  oneOpenCode _ _ _ _ hcode := by cases hcode
  oneCutover _ _ _ _ hcutover := by cases hcutover
  noneRetired _ _ _ _ hkey := by cases hkey

def enrollTwice : List (RegistryCall ⊕ Nat) :=
  .inl createCode :: List.replicate 13 (.inr 0) ++ .inl (redeemCode 21 "first".toList "first-key".toList) ::
    List.replicate 39 (.inr 1) ++ .inl (redeemCode 22 "second".toList "second-key".toList) :: List.replicate 6 (.inr 2)

/-- A code is created and redeemed, and a second redemption of it is refused: the branch has the key of the first. -/
theorem enrollment_gives_one_identity_twice : ∃ later : System Registry Row RegistryFailure RegistryAnswer,
    Steps (Calls (RegistryCall.program id anyReader) fun _ _ => True) (fun _ _ _ => True) (System.idle readyLibrary)
      later ∧ later.sessions.length = 3 ∧ (∀ index < 3, (later.session index).isNone) ∧
      later.committed.hasActiveKey 7 5 = true ∧ later.committed.OneIdentity := by
  have hrun : ((System.idle readyLibrary).replay (RegistryCall.program id anyReader) (fun _ _ => True)
      (fun _ _ _ => True) enrollTwice).map
      (fun ended => (ended.1.sessions.length, (List.range 3).all fun index => (ended.1.session index).isNone,
        ended.1.committed.hasActiveKey 7 5)) = some (3, true, true) := by decide +kernel
  obtain ⟨⟨later, answers⟩, hreplay, hended⟩ := Option.map_eq_some_iff.1 hrun
  simp only [Prod.mk.injEq, List.all_eq_true, List.mem_range] at hended
  have hsteps : Steps (Calls (RegistryCall.program id anyReader) fun _ _ => True) (fun _ _ _ => True)
      (System.idle readyLibrary) later := steps_of_replay hreplay
  exact ⟨later, hsteps, hended.1, hended.2.1, hended.2.2, (enrollment_gives_one_identity id anyReader readyLibrary later
    readyLibrary_constraints readyLibrary_fullyMapped readyLibrary_oneIdentity hsteps).1⟩

end SortView
