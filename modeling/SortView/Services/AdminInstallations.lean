import SortView.Services.CollectorEnrollment

/-!
# Administering installations

The writes of `services/admin_installation_service.py`, with `insert_collector_installation` of
`services/tenant_service.py`. A library is given as it was read before the transaction. When an installation
was installed and last seen is left out.
-/

namespace SortView

open PyText Transactions Tables Registry

/-- The library that an administrator works on, as it was read. -/
structure Library where
  id : Nat
  slug : Text
  status : OrganizationStatus

structure PlatformActor where
  id : Nat
  email : Option Text

namespace AdminInstallations

open Enrollment

def maxNameLength : Nat := 120

/-- `validate_name`. -/
def validateName (name : Text) : Except Text Text :=
  if strip name = [] then .error "required".toList
  else if maxNameLength < (strip name).length then .error "too_long".toList
  else .ok (strip name)

/-- `TRANSITIONS`. -/
def transitions : InstallationStatus → List InstallationStatus
  | .provisioning => [.inactive, .retired]
  | .active => [.inactive, .retired]
  | .inactive => [.provisioning, .retired]
  | .retired => []

/-- `transition_allowed`, with the status that the text is. -/
def transition? (current : InstallationStatus) (wanted : Text) : Option InstallationStatus :=
  (transitions current).find? fun next => next.text = wanted

/-- `_audit`. -/
def audit (eventType message : Text) (targetOrgSlug : Text) (actor : PlatformActor) (details : List (Text × Json)) :
    RegistryTx Unit :=
  Tx.change fun reg => reg.log (UserAdmin.authRow eventType (some actor.id) actor.email message
    (("target_org_slug".toList, .text targetOrgSlug) :: details ++ [("actor_user_id".toList, .int actor.id)]))

def libraryCancelled : RegistryFailure := .admin "library_cancelled".toList

/-- `_refuse_cancelled`. -/
def refuseCancelled (library : Library) : RegistryTx Unit :=
  Tx.require (library.status ≠ .cancelled) libraryCancelled

/-- An installation as it is returned. -/
structure InstallationView where
  id : Nat
  name : Text
  status : InstallationStatus
  requiredContract : Nat
  branchSlug : Text
  branchStatus : BranchStatus
  branchIsPrimary : Bool

def installationView (reg : Registry) (organizationId installationId : Nat) : Option InstallationView :=
  (reg.installations.get? installationId).bind fun row =>
    if row.organizationId = organizationId then
      (reg.branches.get? row.branchId).map fun branch =>
        ⟨installationId, row.name, row.status, row.requiredContract, branch.slug, branch.status, branch.isPrimary⟩
    else none

/-- `_one`. -/
def one (library : Library) (installationId : Nat) : RegistryTx InstallationView := do
  match ← Tx.select fun reg => installationView reg library.id installationId with
  | none => Tx.refuse (.admin "installation_not_found".toList)
  | some view => pure view

/-! ### Adding an installation -/

def collectorContracts : List Int := [contractLegacy, contractV2]

/-- What `insert_collector_installation` is given. -/
structure NewInstallation where
  organizationId : Nat
  branchId : Nat
  name : Text
  hostname : Option Text
  collectorVersion : Option Text
  status : InstallationStatus
  requiredContract : Int

/-- `_clean_optional`. -/
def cleanOptional (value : Option Text) : Option Text := (value.map strip).filter fun value => value ≠ []

/-- The organization's status, when it has the branch. -/
def branchOrganizationStatus (reg : Registry) (organizationId branchId : Nat) : Option OrganizationStatus :=
  (reg.branches.get? branchId).bind fun branch =>
    if branch.organizationId = organizationId then
      (reg.organizations.get? organizationId).map OrganizationRow.status
    else none

def insertInstallationRow (row : InstallationRow) (rowId : Nat) : RegistryTx Unit :=
  Tx.insertRow [.installation rowId] (fun reg => (reg.installations.get? rowId).isSome)
    [.organization row.organizationId, .branch row.branchId]
    (fun reg => (reg.organizations.get? row.organizationId).isSome && (reg.branches.get? row.branchId).isSome)
    .uniqueViolation .foreignKeyViolation fun reg => reg.setInstallation rowId row

/-- `insert_collector_installation`. -/
def insertCollectorInstallation (new : NewInstallation) (rowId : Nat) : RegistryTx InstallationRow := do
  Tx.require (strip new.name ≠ []) (.valueError "Installation name is required".toList)
  Tx.require (new.requiredContract ∈ collectorContracts)
    (.valueError ("Invalid required contract: ".toList ++ (toString new.requiredContract).toList ++
      " (expected one of 1, 2)".toList))
  match ← Tx.select fun reg => branchOrganizationStatus reg new.organizationId new.branchId with
  | none => Tx.refuse (.runtimeError ("Branch ".toList ++ decimal new.branchId ++ " not found for organization ".toList ++
      decimal new.organizationId))
  | some status => do
      Tx.require (status ≠ .cancelled) (.runtimeError ("Organization ".toList ++ decimal new.organizationId ++
        " is cancelled; it cannot have a new Collector installation".toList))
      let row : InstallationRow := ⟨new.organizationId, new.branchId, strip new.name, cleanOptional new.hostname,
        cleanOptional new.collectorVersion, new.status, new.requiredContract.toNat⟩
      insertInstallationRow row rowId
      pure row

/-- `_primary_branch`: there is one, and only one. -/
def primaryBranch (reg : Registry) (organizationId : Nat) : Option (Nat × BranchRow) :=
  match reg.branches.entries.filter fun entry => entry.2.organizationId = organizationId && entry.2.isPrimary with
  | [primary] => some primary
  | _ => none

variable (sha256 : Text → Text) (reader : SettingsReader)

/-- `v2_settings_ready`. -/
def v2SettingsReady (reg : Registry) (library : Library) : Bool :=
  let stored := match (reg.organizations.get? library.id).map OrganizationRow.settings with
    | some (.object items) => items
    | some (.text value) => ((reader.loads value).bind Json.items?).getD []
    | _ => []
  (collectorTimezone reader stored).isOk && (requireRulesReviewed reader stored).isOk

/-- A cancellation since the library was read is refused in the words of this service. -/
def asLibraryCancelled : RegistryFailure → RegistryFailure
  | .runtimeError _ => libraryCancelled
  | refusal => refusal

/-- `create_installation`. -/
def createInstallation (library : Library) (name : Text) (requiredContract : Int) (actor : PlatformActor) (rowId : Nat) :
    RegistryTx (InstallationRow × InstallationView) :=
  match validateName name with
  | .error problem => Tx.refuse (.valueError problem)
  | .ok name => do
      Tx.require (requiredContract ∈ collectorContracts) (.valueError "invalid_contract".toList)
      refuseCancelled library
      let ready ← Tx.select fun reg => v2SettingsReady reader reg library
      Tx.require (requiredContract = contractV2 → ready = true) (.admin "collector_settings_not_ready".toList)
      match (← Tx.select fun reg => primaryBranch reg library.id) with
      | none => Tx.refuse (.admin "no_active_primary_branch".toList)
      | some (branchId, branch) => do
          Tx.require (branch.status = .active) (.admin "no_active_primary_branch".toList)
          let row ← (insertCollectorInstallation ⟨library.id, branchId, name, none, none, .provisioning, requiredContract⟩
            rowId).mapFailure asLibraryCancelled
          audit "admin_installation_created".toList "Collector installation added.".toList library.slug actor
            [("installation_id".toList, .int rowId), ("branch_slug".toList, .text branch.slug),
              ("required_contract".toList, .int requiredContract)]
          let view ← one library rowId
          pure (row, view)

/-! ### Changing one -/

/-- An `UPDATE` of an installation of a library that is not cancelled. Whether the library is, the statement sees
before it waits. -/
def updateInstallation (organizationId installationId : Nat) (matching : InstallationRow → Bool)
    (update : InstallationRow → InstallationRow) : RegistryTx Bool :=
  let matched : Registry → Bool := fun reg => (reg.installations.get? installationId).any fun row =>
    row.organizationId = organizationId && matching row
  Tx.updateRow (.installation installationId) .noKeyUpdate (fun reg => matched reg && !reg.isCancelled organizationId)
    matched fun reg => { reg with installations := adjust installationId update reg.installations }

/-- `rename_installation`. -/
def renameInstallation (library : Library) (installationId : Nat) (name : Text) (actor : PlatformActor) :
    RegistryTx InstallationView :=
  match validateName name with
  | .error problem => Tx.refuse (.valueError problem)
  | .ok name => do
      refuseCancelled library
      if ← updateInstallation library.id installationId (fun _ => true) (InstallationRow.rename name) then do
        audit "admin_installation_renamed".toList "Collector installation renamed.".toList library.slug actor
          [("installation_id".toList, .int installationId)]
        one library installationId
      else do
        let _ ← one library installationId
        Tx.refuse libraryCancelled

/-- `_CURRENT_STATUS_SQL`. -/
def currentStatus (reg : Registry) (organizationId installationId : Nat) : Option InstallationStatus :=
  (reg.installations.get? installationId).bind fun row =>
    if row.organizationId = organizationId then some row.status else none

/-- A row of `_INSTALLATION_TENANT_SQL`: the branch, its operational id, and the organization's. -/
def installationTenant (reg : Registry) (organizationId installationId : Nat) :
    Option (Nat × Option Nat × Option Nat) :=
  (reg.installations.get? installationId).bind fun row =>
    if row.organizationId = organizationId then
      (reg.organizations.get? row.organizationId).bind fun organization =>
        (reg.branches.get? row.branchId).map fun branch =>
          (row.branchId, branch.operationalBranchId, organization.operationalCustomerId)
    else none

/-- `_refuse_retiring_a_key_owner`. -/
def refuseRetiringAKeyOwner (library : Library) (installationId : Nat) : RegistryTx Unit := do
  match ← Tx.select fun reg => installationTenant reg library.id installationId with
  | none => Tx.refuse (.admin "installation_not_found".toList)
  | some (branchId, operationalBranchId, customerId) => do
      Tx.lockRow (.branch branchId) .noKeyUpdate
      match customerId, operationalBranchId with
      | some customerId, some operationalBranchId => do
          let owners ← Tx.select fun reg => reg.activeKeyOwners customerId operationalBranchId
          Tx.require (some installationId ∉ owners) (.admin "installation_owns_active_key".toList)
      | _, _ => pure ()

/-- The refusal that only a retirement needs. -/
def guardRetirement (library : Library) (installationId : Nat) (status : InstallationStatus) : RegistryTx Unit :=
  if status = .retired then refuseRetiringAKeyOwner library installationId else pure ()

/-- `change_status`. -/
def changeStatus (library : Library) (installationId : Nat) (status : Text) (actor : PlatformActor) :
    RegistryTx InstallationView := do
  refuseCancelled library
  match ← Tx.select fun reg => currentStatus reg library.id installationId with
  | none => Tx.refuse (.admin "installation_not_found".toList)
  | some current => match transition? current status with
    | none => Tx.refuse (.admin "transition_not_allowed".toList)
    | some next => do
        guardRetirement library installationId next
        let changed ← updateInstallation library.id installationId (fun row => row.status = current)
          (InstallationRow.move next)
        Tx.require changed (.admin "transition_not_allowed".toList)
        audit "admin_installation_status_changed".toList "Collector installation status changed.".toList library.slug actor
          [("installation_id".toList, .int installationId), ("previous_status".toList, .text current.text),
            ("status".toList, .text next.text)]
        one library installationId

/-! ### Codes and recovery -/

/-- `_public_refusal`. -/
def publicRefusal (reason : Text) : Text :=
  if reason = "installation_not_found".toList ∨ reason = "installation_organization_mismatch".toList then
    "installation_not_found".toList
  else if "installation_".toList <+: reason then "installation_not_enrollable".toList
  else if "organization_status_".toList <+: reason then "library_not_enrollable".toList
  else "operational_identity_incomplete".toList

def asPublicRefusal : RegistryFailure → RegistryFailure
  | .enrollment reason => .admin (publicRefusal reason)
  | refusal => refusal

/-- Whether a code for this installation could never be redeemed. -/
def branchEnrolled (scope : InstallationScope) (reg : Registry) : Bool :=
  reg.hasActiveKey scope.customerId scope.operationalBranchId ||
    reg.hasAnyCutover scope.customerId scope.operationalBranchId

/-- `issue_enrollment_code`. -/
def issueEnrollmentCode (library : Library) (installationId : Nat) (actor : PlatformActor) (ttl issuedAt clock : Nat)
    (draw : CodeDraw) : RegistryTx IssuedCode := do
  refuseCancelled library
  let scope ← (resolveInstallationScope installationId true (some library.id)).mapFailure asPublicRefusal
  let enrolled ← Tx.select (branchEnrolled scope)
  Tx.require (scope.requiredContract = contractV2 → enrolled = false) (.admin "branch_already_enrolled".toList)
  let issued ← (createEnrollmentCode sha256 installationId (some actor.id) (some library.id) ttl issuedAt clock
    draw).mapFailure asPublicRefusal
  audit "admin_enrollment_code_issued".toList "Collector enrollment code issued.".toList library.slug actor
    [("installation_id".toList, .int installationId), ("enrollment_code_id".toList, .int issued.enrollmentCodeId),
      ("required_contract".toList, .int issued.requiredContract), ("expires_at".toList, .int issued.expiresAt),
      ("revoked_previous_count".toList, .int issued.revokedPreviousCount)]
  pure issued

/-- `_lock_library`. -/
def lockLibrary (library : Library) : RegistryTx Unit := do
  let status ← Tx.lockFirst .update (fun reg => (reg.organizations.get? library.id).map fun _ => library.id)
    Row.organization fun id reg => (reg.organizations.get? id).map OrganizationRow.status
  Tx.require (status ≠ some .cancelled) libraryCancelled

def asNotRecoverable : RegistryFailure → RegistryFailure
  | .enrollment _ => .admin "installation_not_recoverable".toList
  | refusal => refusal

/-- `issue_recovery_token`. -/
def issueRecovery (library : Library) (installationId : Nat) (actor : PlatformActor) (draw : TokenDraw) :
    RegistryTx RecoveryToken := do
  refuseCancelled library
  lockLibrary library
  let current ← Tx.select fun reg => currentStatus reg library.id installationId
  Tx.require current.isSome (.admin "installation_not_found".toList)
  let issued ← (issueRecoveryToken sha256 installationId library.id draw).mapFailure asNotRecoverable
  audit "admin_recovery_token_issued".toList "Collector recovery token issued.".toList library.slug actor
    [("installation_id".toList, .int installationId), ("token_id".toList, .int issued.tokenId),
      ("revoked_previous_count".toList, .int issued.revokedPreviousCount)]
  pure issued

end AdminInstallations

end SortView
