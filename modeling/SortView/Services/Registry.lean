import SortView.Lib.Dict
import SortView.Lib.Json
import SortView.Lib.Tables
import SortView.Lib.Transactions
import SortView.Services.UserAdmin

/-!
# Collectors and their credentials: the tables

The tables that installations, enrollment, ingest keys and offboarding read and write, and the queries that
several of them share. A table is a dictionary by row id.
-/

namespace SortView

open PyText Transactions Tables

/-- `COLLECTOR_INSTALLATION_STATUSES`. -/
inductive InstallationStatus where
  | provisioning
  | active
  | inactive
  | retired
  deriving DecidableEq, Repr

def InstallationStatus.text : InstallationStatus → Text
  | .provisioning => "provisioning".toList
  | .active => "active".toList
  | .inactive => "inactive".toList
  | .retired => "retired".toList

def InstallationStatus.all : List InstallationStatus := [.provisioning, .active, .inactive, .retired]

/-- `ALLOWED_INSTALLATION_STATUSES`. -/
def InstallationStatus.enrollable : InstallationStatus → Bool
  | .provisioning | .active => true
  | .inactive | .retired => false

def OrganizationStatus.text : OrganizationStatus → Text
  | .active => "active".toList
  | .trial => "trial".toList
  | .suspended => "suspended".toList
  | .cancelled => "cancelled".toList

inductive BranchStatus where
  | active
  | inactive
  deriving DecidableEq, Repr

def BranchStatus.text : BranchStatus → Text
  | .active => "active".toList
  | .inactive => "inactive".toList

inductive KeyStatus where
  | active
  | retired
  deriving DecidableEq, Repr

/-- `organizations`, with its `organization_settings`. -/
structure OrganizationRow where
  slug : Text
  status : OrganizationStatus
  operationalCustomerId : Option Nat
  createdAt : Nat
  settings : Json

/-- `branches`, with its `branch_settings`. -/
structure BranchRow where
  organizationId : Nat
  slug : Text
  status : BranchStatus
  isPrimary : Bool
  operationalBranchId : Option Nat
  settings : Json

structure InstallationRow where
  organizationId : Nat
  branchId : Nat
  name : Text
  hostname : Option Text
  collectorVersion : Option Text
  status : InstallationStatus
  requiredContract : Nat

structure CodeRow where
  installationId : Nat
  codeHash : Text
  expiresAt : Nat
  createdByUserId : Option Nat
  requiredContract : Nat
  usedAt : Option Nat
  revokedAt : Option Nat

/-- `agent_tokens`. The code whose redemption wrote the row is no column of the table: it is kept here to say
what a code has produced, and nothing reads it. -/
structure TokenRow where
  tokenHash : Text
  customerId : Nat
  branchId : Nat
  description : Text
  isActive : Bool
  installationId : Option Nat
  enrolledBy : Option Nat

/-- `ingest_key_ids`, with the code whose redemption wrote the row, as for a token. -/
structure KeyRow where
  keyId : Text
  customerId : Nat
  branchId : Nat
  status : KeyStatus
  retiredAt : Option Nat
  installationId : Option Nat
  enrolledBy : Option Nat

/-- `v2_cutovers`, with the code whose redemption wrote the row, as for a token. -/
structure BranchCutoverRow where
  customerId : Nat
  branchId : Nat
  cutoverAt : Option Nat
  setBy : Text
  note : Text
  enrolledBy : Option Nat

/-- A row of `tenant_lifecycle_events`. -/
structure LifecycleRow where
  eventType : Text
  organizationId : Nat
  organizationSlug : Text
  operationalCustomerId : Option Nat
  actorUserId : Option Nat
  actorLabel : Text
  details : Json

structure Registry where
  organizations : Dict Nat OrganizationRow
  customers : List Nat
  branches : Dict Nat BranchRow
  installations : Dict Nat InstallationRow
  codes : Dict Nat CodeRow
  tokens : Dict Nat TokenRow
  keys : Dict Nat KeyRow
  cutovers : Dict Nat BranchCutoverRow
  auditLog : List AuditRow
  lifecycle : List LifecycleRow

/-- A code that can still be redeemed, until it expires. -/
def CodeRow.isOpen (code : CodeRow) : Bool := code.usedAt.isNone && code.revokedAt.isNone

def KeyRow.isActive (key : KeyRow) : Bool := key.status = .active

/-! ### What an update sets -/

def OrganizationRow.cancel (row : OrganizationRow) : OrganizationRow := { row with status := .cancelled }

def InstallationRow.rename (name : Text) (row : InstallationRow) : InstallationRow := { row with name := name }

def InstallationRow.move (status : InstallationStatus) (row : InstallationRow) : InstallationRow :=
  { row with status := status }

def CodeRow.revoke (clock : Nat) (code : CodeRow) : CodeRow := { code with revokedAt := some clock }

def CodeRow.claim (clock : Nat) (code : CodeRow) : CodeRow := { code with usedAt := some clock }

def TokenRow.deactivate (token : TokenRow) : TokenRow := { token with isActive := false }

def KeyRow.retire (clock : Nat) (key : KeyRow) : KeyRow := { key with status := .retired, retiredAt := some clock }

namespace Registry

/-- What is locked: a row of a table, or the value that a unique index holds. -/
inductive Row where
  | organization (id : Nat)
  | branch (id : Nat)
  | installation (id : Nat)
  | code (id : Nat)
  | codeHash (hash : Text)
  | token (id : Nat)
  | tokenHash (hash : Text)
  | key (id : Nat)
  | keyId (keyId : Text)
  | cutover (id : Nat)
  deriving DecidableEq

variable (reg : Registry)

/-! ### Queries -/

def isCancelled (organization : Nat) : Bool :=
  (reg.organizations.get? organization).any fun row => row.status = .cancelled

/-- `active_ingest_key_owners`: the owner of each active key of the pair, none for a key without one. -/
def activeKeyOwners (customer branch : Nat) : List (Option Nat) :=
  (idsWhere reg.keys fun key => key.customerId = customer && key.branchId = branch && key.isActive).map fun id =>
    (reg.keys.get? id).bind KeyRow.installationId

/-- `has_active_ingest_key`. -/
def hasActiveKey (customer branch : Nat) : Bool :=
  reg.keys.entries.any fun key => key.2.customerId = customer && key.2.branchId = branch && key.2.isActive

/-- `has_any_v2_cutover`. -/
def hasAnyCutover (customer branch : Nat) : Bool :=
  reg.cutovers.entries.any fun cutover => cutover.2.customerId = customer && cutover.2.branchId = branch

/-! ### Writes -/

def setInstallation (id : Nat) (row : InstallationRow) : Registry :=
  { reg with installations := reg.installations.set id row }

def setCode (id : Nat) (row : CodeRow) : Registry := { reg with codes := reg.codes.set id row }

def setToken (id : Nat) (row : TokenRow) : Registry := { reg with tokens := reg.tokens.set id row }

def setKey (id : Nat) (row : KeyRow) : Registry := { reg with keys := reg.keys.set id row }

def setCutover (id : Nat) (row : BranchCutoverRow) : Registry := { reg with cutovers := reg.cutovers.set id row }

def log (row : AuditRow) : Registry := { reg with auditLog := reg.auditLog ++ [row] }

end Registry

/-! ### What is refused -/

/-- How an operation ends when it does not commit. -/
inductive RegistryFailure where
  | admin (code : Text)
  | enrollment (reason : Text)
  | enrollmentRefused (code reason : Text)
  | lifecycle (code : Text)
  | valueError (message : Text)
  | runtimeError (message : Text)
  | uniqueViolation
  | foreignKeyViolation
  deriving DecidableEq, Repr

/-- A transaction of these services. -/
abbrev RegistryTx := Tx Registry Registry.Row RegistryFailure

end SortView
