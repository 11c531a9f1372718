import SortView.Lib.Case
import SortView.Services.CollectorSettings
import SortView.Services.IngestKeys

/-!
# Enrolling a Collector

`services/collector_enrollment_service.py`: codes, their redemption and recovery tokens. `sha256` is the hex
digest of a text, instants are microseconds, and a clock is the CURRENT_TIMESTAMP of a transaction. The
sanitized metadata in the description of a token is left out.
-/

namespace SortView

open PyText Transactions Tables Registry

/-! ### Codes -/

def codeAlphabet : Text := "ABCDEFGHJKMNPQRSTUVWXYZ23456789".toList

def codeMark : Text := "SV".toList

def codeGroupCount : Nat := 4

def codeGroupLength : Nat := 4

def codeCharacterCount : Nat := codeGroupCount * codeGroupLength

/-- `_MAX_RAW_CODE_INPUT_LENGTH`. -/
def maxRawCodeInputLength : Nat := 64

/-- `format_enrollment_code`. -/
def formatEnrollmentCode (characters : Text) : Text :=
  join '-' (codeMark :: (List.range codeGroupCount).map fun group =>
    (characters.drop (group * codeGroupLength)).take codeGroupLength)

/-- `_CODE_SEPARATORS`. -/
def isCodeSeparator (c : Char) : Bool := isSpace c || c = '-' || c = '_'

/-- `normalize_enrollment_code`. -/
def normalizeEnrollmentCode (value : Text) : Option Text :=
  if maxRawCodeInputLength < value.length then none
  else
    let compact := upper (value.filter fun c => !isCodeSeparator c)
    let characters :=
      if codeMark <+: compact ∧ compact.length = codeMark.length + codeCharacterCount then compact.drop codeMark.length
      else compact
    if characters.length = codeCharacterCount && characters.all fun c => codeAlphabet.contains c then
      some (formatEnrollmentCode characters)
    else none

/-! ### Scopes -/

structure InstallationScope where
  installationId : Nat
  installationName : Text
  organizationId : Nat
  branchId : Nat
  customerId : Nat
  operationalBranchId : Nat
  requiredContract : Nat

/-- A row of `_INSTALLATION_SCOPE_SQL`. -/
structure ScopeRow where
  installation : InstallationRow
  organization : OrganizationRow
  branch : Option BranchRow

def Registry.scopeRow (reg : Registry) (installationId : Nat) : Option ScopeRow :=
  (reg.installations.get? installationId).bind fun installation =>
    (reg.organizations.get? installation.organizationId).map fun organization =>
      ⟨installation, organization, reg.branches.get? installation.branchId⟩

/-- The codes with a hash, of which there is one. -/
def Registry.codeByHash (reg : Registry) (codeHash : Text) : Option (Nat × CodeRow) :=
  reg.codes.entries.find? fun entry => entry.2.codeHash = codeHash

/-- `_CODE_ORGANIZATION_SQL`. -/
def Registry.codeOrganization (reg : Registry) (codeHash : Text) : Option Nat :=
  (reg.codeByHash codeHash).bind fun code =>
    (reg.installations.get? code.2.installationId).map InstallationRow.organizationId

/-- `ALLOWED_ORGANIZATION_STATUSES`. -/
def OrganizationStatus.enrollable : OrganizationStatus → Bool
  | .active | .trial => true
  | .suspended | .cancelled => false

/-- What `resolve_installation_scope` makes of the row, or why it may not be enrolled. -/
def scopeOf (installationId : Nat) (expectedOrganizationId : Option Nat) (row : ScopeRow) :
    Except Text InstallationScope :=
  let installation := row.installation
  if (expectedOrganizationId.any fun expected => installation.organizationId ≠ expected) then
    .error "installation_organization_mismatch".toList
  else if installation.status.enrollable = false then
    .error ("installation_status_".toList ++ installation.status.text)
  else if row.organization.status.enrollable = false then
    .error ("organization_status_".toList ++ row.organization.status.text)
  else match row.branch with
    | none => .error "branch_missing".toList
    | some branch =>
        if branch.organizationId ≠ installation.organizationId then
          .error "branch_belongs_to_another_organization".toList
        else if branch.status ≠ .active then .error ("branch_status_".toList ++ branch.status.text)
        else match row.organization.operationalCustomerId, branch.operationalBranchId with
          | none, _ => .error "organization_not_operationally_mapped".toList
          | some _, none => .error "branch_not_operationally_mapped".toList
          | some customerId, some operationalBranchId =>
              if operationalBranchId ≠ installation.branchId then
                .error "branch_operational_mapping_inconsistent".toList
              else .ok ⟨installationId, installation.name, installation.organizationId, installation.branchId,
                customerId, operationalBranchId, installation.requiredContract⟩

namespace Enrollment

/-- With `FOR UPDATE OF ci` the installation is read again once it is locked, and the rows joined to it are not. -/
def readScopeRow (installationId : Nat) : Bool → RegistryTx (Option ScopeRow)
  | false => Tx.select fun reg => reg.scopeRow installationId
  | true => do
      match ← Tx.select fun reg => reg.scopeRow installationId with
      | none => pure none
      | some row => do
          Tx.lockRow (.installation installationId) .update
          Tx.select fun reg =>
            (reg.installations.get? installationId).map fun installation => { row with installation := installation }

/-- `resolve_installation_scope`. -/
def resolveInstallationScope (installationId : Nat) (lock : Bool) (expectedOrganizationId : Option Nat) :
    RegistryTx InstallationScope := do
  match ← readScopeRow installationId lock with
  | none => Tx.refuse (.enrollment "installation_not_found".toList)
  | some row => match scopeOf installationId expectedOrganizationId row with
    | .error reason => Tx.refuse (.enrollment reason)
    | .ok scope => do
        let customer ← Tx.select fun reg => decide (scope.customerId ∈ reg.customers)
        Tx.require customer (.enrollment "operational_customer_missing".toList)
        let mapped ← Tx.select fun reg =>
          (reg.organizations.entries.filter fun entry => entry.2.operationalCustomerId = some scope.customerId).length
        Tx.require (mapped = 1) (.enrollment "operational_customer_ambiguous".toList)
        pure scope

/-! ### Generation -/

def contractLegacy : Nat := 1

def contractV2 : Nat := 2

def supportedContracts : List Nat := [contractLegacy, contractV2]

/-- The id and the characters that a new code draws. -/
structure CodeDraw where
  rowId : Nat
  characters : Text

structure IssuedCode where
  enrollmentCode : Text
  enrollmentCodeId : Nat
  installationId : Nat
  installationName : Text
  organizationId : Nat
  requiredContract : Nat
  expiresAt : Nat
  ttlMinutes : Nat
  revokedPreviousCount : Nat

/-- `_REVOKE_UNUSED_SQL`. -/
def revokeUnused (installationId clock : Nat) : RegistryTx (List Nat) :=
  Tx.sweep (fun reg => idsWhere reg.codes fun code => code.installationId = installationId && code.isOpen) Row.code
    .noKeyUpdate (fun id reg => (reg.codes.get? id).any fun code => code.installationId = installationId && code.isOpen)
    fun id reg => { reg with codes := adjust id (CodeRow.revoke clock) reg.codes }

def insertCode (row : CodeRow) (rowId : Nat) : RegistryTx Unit :=
  Tx.insertRow [.code rowId, .codeHash row.codeHash]
    (fun reg => (reg.codes.get? rowId).isSome || reg.codes.entries.any fun code => code.2.codeHash = row.codeHash)
    [.installation row.installationId] (fun reg => (reg.installations.get? row.installationId).isSome)
    .uniqueViolation .foreignKeyViolation fun reg => reg.setCode rowId row

variable (sha256 : Text → Text) (reader : SettingsReader)

/-- `create_enrollment_code`. -/
def createEnrollmentCode (installationId : Nat) (createdByUserId expectedOrganizationId : Option Nat)
    (ttl issuedAt clock : Nat) (draw : CodeDraw) : RegistryTx IssuedCode := do
  let scope ← resolveInstallationScope installationId true expectedOrganizationId
  Tx.require (scope.requiredContract ∈ supportedContracts) (.enrollment "installation_contract_unsupported".toList)
  let revoked ← revokeUnused scope.installationId clock
  let rawCode := formatEnrollmentCode draw.characters
  insertCode ⟨scope.installationId, sha256 rawCode, issuedAt + ttl, createdByUserId, scope.requiredContract, none, none⟩
    draw.rowId
  pure ⟨rawCode, draw.rowId, scope.installationId, scope.installationName, scope.organizationId,
    scope.requiredContract, issuedAt + ttl, ttl / 60000000, revoked.length⟩

/-! ### Redemption -/

structure TokenDraw where
  rowId : Nat
  token : Text

def insertToken (row : TokenRow) (rowId : Nat) : RegistryTx Unit :=
  Tx.insertRow [.token rowId, .tokenHash row.tokenHash]
    (fun reg => (reg.tokens.get? rowId).isSome || reg.tokens.entries.any fun token => token.2.tokenHash = row.tokenHash)
    (row.installationId.toList.map Row.installation)
    (fun reg => row.installationId.all fun installation => (reg.installations.get? installation).isSome)
    .uniqueViolation .foreignKeyViolation fun reg => reg.setToken rowId row

/-- What a Contract v2 enrollment is told about its site, and when its cutover is. -/
structure V2Site where
  timezone : Text
  cutoverAt : Nat
  rules : RulesDocument

structure V2Enrollment where
  keyId : Text
  timezone : Text
  classificationRules : RulesDocument

structure EnrollmentResult where
  customerId : Nat
  branchId : Nat
  installationId : Nat
  agentToken : Text
  v2 : Option V2Enrollment

def collectorUpgradeRequired : Text := "collector_upgrade_required".toList

def contractNotPermitted : Text := "contract_not_permitted".toList

def unsupportedContractVersion : Text := "unsupported_contract_version".toList

def enrollmentNotReady : Text := "enrollment_not_ready".toList

/-- `_settings_document`. -/
def settingsDocument : Json → RegistryTx (List (Text × Json))
  | .object items => pure items
  | .text value => match reader.loads value with
    | none => Tx.refuse (.enrollmentRefused enrollmentNotReady "settings_unreadable".toList)
    | some document => pure (document.items?.getD [])
  | _ => pure []

/-- `_prepare_v2_enrollment`. The creation of an organization always has an offset. -/
def prepareV2Enrollment (scope : InstallationScope) : RegistryTx V2Site := do
  Tx.lockRow (.branch scope.branchId) .update
  let status ← Tx.select fun reg => (reg.installations.get? scope.installationId).map InstallationRow.status
  Tx.require (status.any InstallationStatus.enrollable)
    (.enrollment ("installation_status_".toList ++ (status.map InstallationStatus.text).getD "None".toList))
  let site ← Tx.select fun reg => (reg.organizations.get? scope.organizationId).map fun organization =>
    (organization, (reg.branches.get? scope.branchId).map BranchRow.settings)
  match site with
  | none => Tx.refuse (.enrollmentRefused enrollmentNotReady "organization_missing".toList)
  | some (organization, branchSettings) => do
      let organizationSettings ← settingsDocument reader organization.settings
      let branchSettings ← settingsDocument reader (branchSettings.getD .null)
      match collectorSettings reader organizationSettings branchSettings with
      | .error problem => Tx.refuse (.enrollmentRefused enrollmentNotReady problem.reason)
      | .ok (timezone, rules) => do
          let active ← Tx.select fun reg => reg.hasActiveKey scope.customerId scope.operationalBranchId
          Tx.require (active = false) (.enrollmentRefused enrollmentNotReady "active_ingest_key_exists".toList)
          let cutover ← Tx.select fun reg => reg.hasAnyCutover scope.customerId scope.operationalBranchId
          Tx.require (cutover = false) (.enrollmentRefused enrollmentNotReady "cutover_exists".toList)
          pure ⟨timezone, organization.createdAt, rules⟩

/-- What is read and checked before the first write, on Contract v2. -/
def siteFor (contract : Nat) (scope : InstallationScope) : RegistryTx (Option V2Site) :=
  if contract = contractV2 then do
    let site ← prepareV2Enrollment reader scope
    pure (some site)
  else pure none

/-- `_require_permitted_contract`. -/
def requirePermittedContract (required : Nat) (requested : Option Int) : RegistryTx Nat :=
  let asked := requested.getD contractLegacy
  if asked ∉ supportedContracts.map Int.ofNat then
    Tx.refuse (.enrollmentRefused unsupportedContractVersion "requested_contract_unsupported".toList)
  else if required ∉ supportedContracts then
    Tx.refuse (.enrollmentRefused collectorUpgradeRequired "code_requires_unsupported_contract".toList)
  else if required = contractV2 ∧ asked ≠ contractV2 then
    Tx.refuse (.enrollmentRefused collectorUpgradeRequired "code_requires_contract_2".toList)
  else if required = contractLegacy ∧ asked ≠ contractLegacy then
    Tx.refuse (.enrollmentRefused contractNotPermitted "code_permits_contract_1_only".toList)
  else pure required

/-- `_lock_code_organization`. -/
def lockCodeOrganization (codeHash : Text) : RegistryTx Unit := do
  match ← Tx.select fun reg => reg.codeOrganization codeHash with
  | none => pure ()
  | some organizationId => Tx.lockRow (.organization organizationId) .share

/-- `_LOOKUP_CODE_SQL`, with the lock. -/
def lookupCode (codeHash : Text) : RegistryTx (Option (Nat × CodeRow)) :=
  Tx.lockFirst .update (fun reg => (reg.codeByHash codeHash).map Prod.fst) Row.code fun id reg =>
    (reg.codes.get? id).bind fun code => if code.codeHash = codeHash then some (id, code) else none

/-- `_CLAIM_CODE_SQL`. -/
def claimCode (codeId now clock : Nat) : RegistryTx Bool :=
  let claimable : Registry → Bool := fun reg => (reg.codes.get? codeId).any fun code => code.isOpen && now < code.expiresAt
  Tx.updateRow (.code codeId) .noKeyUpdate claimable claimable fun reg =>
    { reg with codes := adjust codeId (CodeRow.claim clock) reg.codes }

/-- What one redemption draws. -/
structure RedemptionDraw where
  token : TokenDraw
  key : IngestKeys.KeyDraw
  cutoverRowId : Nat

def enrollmentDescription (scope : InstallationScope) : Text :=
  "Collector enrollment | installation ".toList ++ decimal scope.installationId

/-- The note of an initial cutover. -/
def initialCutoverNote (codeId installationId : Nat) : Text :=
  "initial v2 cutover | enrollment_code_id=".toList ++ decimal codeId ++ " installation_id=".toList ++
    decimal installationId

/-- The branch's key, and its cutover. -/
def issueIdentity (scope : InstallationScope) (site : V2Site) (codeId : Nat) (draw : RedemptionDraw) :
    RegistryTx V2Enrollment := do
  let keyId ← IngestKeys.issueIngestKey scope.customerId scope.operationalBranchId (some scope.installationId)
    (some codeId) draw.key
  let _ ← IngestKeys.recordInitialV2Cutover scope.customerId scope.operationalBranchId site.cutoverAt
    enrollmentCutoverSetBy (initialCutoverNote codeId scope.installationId) (some codeId) draw.cutoverRowId
  pure ⟨keyId, site.timezone, site.rules⟩

/-- What follows once a code has been looked up and may be redeemed. -/
def redeemCode (codeId : Nat) (code : CodeRow) (contractVersion : Option Int) (now clock : Nat) (draw : RedemptionDraw) :
    RegistryTx EnrollmentResult := do
  let scope ← resolveInstallationScope code.installationId false none
  let contract ← requirePermittedContract code.requiredContract contractVersion
  let site ← siteFor reader contract scope
  let claimed ← claimCode codeId now clock
  Tx.require claimed (.enrollment "lost_redemption_race".toList)
  insertToken ⟨sha256 draw.token.token, scope.customerId, scope.operationalBranchId, enrollmentDescription scope, true,
    some scope.installationId, some codeId⟩ draw.token.rowId
  match site with
  | none => pure ⟨scope.customerId, scope.operationalBranchId, scope.installationId, draw.token.token, none⟩
  | some site => do
      let identity ← issueIdentity scope site codeId draw
      pure ⟨scope.customerId, scope.operationalBranchId, scope.installationId, draw.token.token, some identity⟩

/-- `redeem_enrollment_code`. -/
def redeemEnrollmentCode (rawCode : Text) (contractVersion : Option Int) (now clock : Nat) (draw : RedemptionDraw) :
    RegistryTx EnrollmentResult :=
  match normalizeEnrollmentCode rawCode with
  | none => Tx.refuse (.enrollment "malformed_code".toList)
  | some canonical => do
      lockCodeOrganization (sha256 canonical)
      match ← lookupCode (sha256 canonical) with
      | none => Tx.refuse (.enrollment "unknown_code".toList)
      | some (codeId, code) => do
          Tx.require (code.usedAt.isNone) (.enrollment "already_used".toList)
          Tx.require (code.revokedAt.isNone) (.enrollment "revoked".toList)
          Tx.require (now < code.expiresAt) (.enrollment "expired".toList)
          redeemCode sha256 reader codeId code contractVersion now clock draw

/-! ### Recovery -/

structure RecoveryToken where
  agentToken : Text
  tokenId : Nat
  installationId : Nat
  installationName : Text
  revokedPreviousCount : Nat

/-- `_REVOKE_INSTALLATION_TOKENS_SQL`. -/
def revokeInstallationTokens (installationId : Nat) : RegistryTx (List Nat) :=
  Tx.sweep (fun reg => idsWhere reg.tokens fun token => token.installationId = some installationId && token.isActive)
    Row.token .noKeyUpdate
    (fun id reg => (reg.tokens.get? id).any fun token => token.installationId = some installationId && token.isActive)
    fun id reg => { reg with tokens := adjust id TokenRow.deactivate reg.tokens }

def recoveryDescription (scope : InstallationScope) : Text :=
  "Collector recovery | installation ".toList ++ decimal scope.installationId

/-- `issue_recovery_token`. -/
def issueRecoveryToken (installationId expectedOrganizationId : Nat) (draw : TokenDraw) : RegistryTx RecoveryToken := do
  let revoked ← revokeInstallationTokens installationId
  let scope ← resolveInstallationScope installationId true (some expectedOrganizationId)
  Tx.require (scope.requiredContract = contractV2) (.enrollment "installation_contract_not_2".toList)
  let owners ← Tx.select fun reg => reg.activeKeyOwners scope.customerId scope.operationalBranchId
  Tx.require (owners = [some scope.installationId])
    (.enrollment "installation_does_not_own_the_only_active_key".toList)
  insertToken ⟨sha256 draw.token, scope.customerId, scope.operationalBranchId, recoveryDescription scope, true,
    some scope.installationId, none⟩ draw.rowId
  pure ⟨draw.token, draw.rowId, scope.installationId, scope.installationName, revoked.length⟩

end Enrollment

end SortView
