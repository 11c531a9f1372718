import SortView.Services.AdminInstallations

/-!
# Offboarding a library

`offboard_library` of `services/platform_admin_service.py`. The sweep of the sessions and its count `sessions_revoked`
are left out: the sessions are in the tables of `SortView.Services.Accounts`, where the sweep is a call of its own.
-/

namespace SortView

open PyText Transactions Tables Registry

/-- How many rows of each kind one call changed. -/
structure OffboardingCounts where
  agentTokensDeactivated : Nat
  installationsRetired : Nat
  enrollmentCodesRevoked : Nat
  ingestKeysRetired : Nat
  deriving DecidableEq

def OffboardingCounts.json (counts : OffboardingCounts) : Json := .object
  [("agent_tokens_deactivated".toList, .int counts.agentTokensDeactivated),
    ("installations_retired".toList, .int counts.installationsRetired),
    ("enrollment_codes_revoked".toList, .int counts.enrollmentCodesRevoked),
    ("ingest_keys_retired".toList, .int counts.ingestKeysRetired)]

def OffboardingCounts.any (counts : OffboardingCounts) : Bool := counts ≠ ⟨0, 0, 0, 0⟩

structure OffboardingResult where
  organizationId : Nat
  changed : Bool
  statusBefore : OrganizationStatus
  counts : OffboardingCounts

namespace Offboarding

open Enrollment AdminInstallations

def cancelOrganization (organizationId : Nat) : RegistryTx Bool :=
  let live : Registry → Bool := fun reg => (reg.organizations.get? organizationId).any fun row => row.status ≠ .cancelled
  Tx.updateRow (.organization organizationId) .noKeyUpdate live live fun reg =>
    { reg with organizations := adjust organizationId OrganizationRow.cancel reg.organizations }

/-- The installation belongs to the organization. -/
def owns (reg : Registry) (organizationId installationId : Nat) : Bool :=
  (reg.installations.get? installationId).any fun row => row.organizationId = organizationId

/-- A token of the tenant: one bound to an installation of the organization, or under its customer id. -/
def isTenantToken (reg : Registry) (organizationId : Nat) (customerId : Option Nat) (token : TokenRow) : Bool :=
  customerId = some token.customerId || token.installationId.any (owns reg organizationId)

/-- `_OFFBOARD_REVOKE_TOKENS_SQL`. -/
def revokeTokens (organizationId : Nat) (customerId : Option Nat) : RegistryTx (List Nat) :=
  Tx.sweep (fun reg => idsWhere reg.tokens fun token => token.isActive && isTenantToken reg organizationId customerId token)
    Row.token .noKeyUpdate (fun id reg => (reg.tokens.get? id).any TokenRow.isActive)
    fun id reg => { reg with tokens := adjust id TokenRow.deactivate reg.tokens }

/-- `_OFFBOARD_LIVE_INSTALLATIONS_SQL`. -/
def liveInstallations (reg : Registry) (organizationId : Nat) : List (Nat × InstallationStatus) :=
  (idsWhere reg.installations fun row => row.organizationId = organizationId && row.status ≠ .retired).filterMap
    fun id => (reg.installations.get? id).map fun row => (id, row.status)

/-- `_OFFBOARD_RETIRE_INSTALLATIONS_SQL`. -/
def retireInstallations (organizationId : Nat) : RegistryTx (List Nat) :=
  let live : InstallationRow → Bool := fun row => row.organizationId = organizationId && row.status ≠ .retired
  Tx.sweep (fun reg => idsWhere reg.installations live) Row.installation .noKeyUpdate
    (fun id reg => (reg.installations.get? id).any live)
    fun id reg => { reg with installations := adjust id (InstallationRow.move .retired) reg.installations }

/-- `_OFFBOARD_REVOKE_CODES_SQL`. -/
def revokeCodes (organizationId clock : Nat) : RegistryTx (List Nat) :=
  Tx.sweep (fun reg => idsWhere reg.codes fun code => code.isOpen && owns reg organizationId code.installationId)
    Row.code .noKeyUpdate (fun id reg => (reg.codes.get? id).any CodeRow.isOpen)
    fun id reg => { reg with codes := adjust id (CodeRow.revoke clock) reg.codes }

/-- `_OFFBOARD_MAPPED_BRANCHES_SQL`. -/
def mappedBranches (reg : Registry) (organizationId : Nat) : List Nat :=
  (idsWhere reg.branches fun row => row.organizationId = organizationId).filterMap fun id =>
    (reg.branches.get? id).bind BranchRow.operationalBranchId

/-- `_OFFBOARD_RETIRE_INGEST_KEYS_SQL`. -/
def retireKeys (customerId branchId clock : Nat) : RegistryTx (List Nat) :=
  let live : KeyRow → Bool := fun key => key.customerId = customerId && key.branchId = branchId && key.isActive
  Tx.sweep (fun reg => idsWhere reg.keys live) Row.key .noKeyUpdate (fun id reg => (reg.keys.get? id).any live)
    fun id reg => { reg with keys := adjust id (KeyRow.retire clock) reg.keys }

/-- One statement for each branch. -/
def retireKeysOf (customerId clock : Nat) : List Nat → RegistryTx (List Nat)
  | [] => pure []
  | branchId :: rest => do
      let retired ← retireKeys customerId branchId clock
      let more ← retireKeysOf customerId clock rest
      pure (retired ++ more)

/-- The keys of an organization, if it is mapped. -/
def retireTenantKeys (organizationId : Nat) (clock : Nat) : Option Nat → RegistryTx (List Nat)
  | none => pure []
  | some customerId => do
      let branches ← Tx.select fun reg => mappedBranches reg organizationId
      retireKeysOf customerId clock branches

def idsJson (ids : List Nat) : Json := .array (ids.map fun id => .int id)

/-- `record_tenant_lifecycle_event`, for a cutoff. -/
def recordCutoff (organizationId : Nat) (organization : OrganizationRow) (actorUserId : Option Nat) (actorLabel : Text)
    (details : List (Text × Json)) : RegistryTx Unit := do
  Tx.require (strip actorLabel ≠ []) (.valueError "actor_label is required and cannot be blank".toList)
  Tx.change fun reg => { reg with lifecycle := reg.lifecycle ++ [⟨"access_cutoff".toList, organizationId,
    organization.slug, organization.operationalCustomerId, actorUserId, strip actorLabel, .object details⟩] }

/-- The audit row of a call through the administration API. -/
def auditOffboarding (organization : OrganizationRow) (counts : OffboardingCounts) : Option PlatformActor → RegistryTx Unit
  | none => pure ()
  | some actor => audit "admin_library_offboarded".toList "Library offboarded.".toList organization.slug actor
      [("previous_status".toList, .text organization.status.text), ("status".toList, .text "cancelled".toList),
        ("counts".toList, counts.json)]

/-- `offboard_library`. -/
def offboardLibrary (organizationId : Nat) (confirmSlug : Text) (actorUserId : Option Nat) (actorLabel : Text)
    (adminActor : Option PlatformActor) (clock : Nat) : RegistryTx OffboardingResult := do
  let actorUserId := (adminActor.map PlatformActor.id).orElse fun _ => actorUserId
  let actorLabel := (adminActor.map fun actor => "platform_admin:".toList ++ decimal actor.id).getD actorLabel
  match ← Tx.lockFirst .update (fun reg => (reg.organizations.get? organizationId).map fun _ => organizationId)
      Row.organization fun id reg => reg.organizations.get? id with
  | none => Tx.refuse (.lifecycle "library_not_found".toList)
  | some organization => do
      Tx.require (adminActor.isSome → organization.status ≠ .cancelled) (.lifecycle "library_cancelled".toList)
      Tx.require (strip confirmSlug = organization.slug)
        (.valueError "Confirmation does not match the organization slug".toList)
      let _ ← cancelOrganization organizationId
      let tokenIds ← revokeTokens organizationId organization.operationalCustomerId
      let installationsBefore ← Tx.select fun reg => liveInstallations reg organizationId
      let installationIds ← retireInstallations organizationId
      let codeIds ← revokeCodes organizationId clock
      let keyIds ← retireTenantKeys organizationId clock organization.operationalCustomerId
      let counts : OffboardingCounts :=
        ⟨tokenIds.length, installationIds.length, codeIds.length, keyIds.length⟩
      let changed := organization.status ≠ .cancelled || counts.any
      recordCutoff organizationId organization actorUserId actorLabel
        [("status_before".toList, .text organization.status.text), ("status_after".toList, .text "cancelled".toList),
          ("repeat_sweep".toList, .bool (organization.status = .cancelled)), ("changed".toList, .bool changed),
          ("counts".toList, counts.json), ("agent_token_ids".toList, idsJson tokenIds),
          ("installations".toList, .array ((installationsBefore.filter fun row => row.1 ∈ installationIds).map fun row =>
            .object [("id".toList, .int row.1), ("status_before".toList, .text row.2.text)])),
          ("enrollment_code_ids".toList, idsJson codeIds), ("ingest_key_row_ids".toList, idsJson (keyIds.insertionSort (· ≤ ·)))]
      auditOffboarding organization counts adminActor
      pure ⟨organizationId, changed, organization.status, counts⟩

end Offboarding

end SortView
