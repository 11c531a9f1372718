import SortView.Services.Registry

/-!
# Ingest keys and cutovers

The key registry and the cutovers of `services/ingest_v2_service.py`. Row level security is left out: each
statement names the pair whose rows it may see.
-/

namespace SortView

open PyText Transactions Tables Registry

/-- `ENROLLMENT_CUTOVER_SET_BY`, which is also `INITIAL_CUTOVER_SET_BY`. -/
def enrollmentCutoverSetBy : Text := "collector-enrollment".toList

/-- The status of the organization of an operational pair. -/
def Registry.tenantStatus (reg : Registry) (customer branch : Nat) : Option OrganizationStatus :=
  reg.branches.entries.findSome? fun entry =>
    if entry.2.operationalBranchId = some branch then
      (reg.organizations.get? entry.2.organizationId).bind fun row =>
        if row.operationalCustomerId = some customer then some row.status else none
    else none

/-- The organization of an operational customer, which is unique. -/
def Registry.organizationOfCustomer (reg : Registry) (customer : Nat) : Option Nat :=
  (reg.organizations.entries.find? fun entry => entry.2.operationalCustomerId = some customer).map Prod.fst

/-- The branch with an operational id, which is its own. -/
def Registry.branchOfOperational (reg : Registry) (branch : Nat) : Option Nat :=
  (reg.branches.entries.find? fun entry => entry.2.operationalBranchId = some branch).map Prod.fst

namespace IngestKeys

/-- `_require_provisionable_tenant`. -/
def requireProvisionableTenant (customer branch : Nat) : RegistryTx Unit := do
  match ← Tx.select fun reg => reg.tenantStatus customer branch with
  | none => Tx.refuse (.valueError "customer_id / branch_id is not a mapped operational tenant".toList)
  | some status =>
      Tx.require (status ≠ .cancelled) (.valueError "the organization is cancelled (permanently offboarded)".toList)

/-- `_lock_tenant_for_unowned_key`. -/
def lockTenantForUnownedKey (customer branch : Nat) : RegistryTx Unit := do
  let _ ← Tx.lockFirst .share (fun reg => reg.organizationOfCustomer customer) Row.organization fun id reg =>
    (reg.organizations.get? id).bind fun row => if row.operationalCustomerId = some customer then some id else none
  let _ ← Tx.lockFirst .noKeyUpdate (fun reg => reg.branchOfOperational branch) Row.branch fun id reg =>
    (reg.branches.get? id).bind fun row => if row.operationalBranchId = some branch then some id else none
  pure ()

/-- The status and the owner of each key of a pair. -/
def keysOf (reg : Registry) (customer branch : Nat) : List KeyRow :=
  (reg.keys.entries.map Prod.snd).filter fun key => key.customerId = customer && key.branchId = branch

/-- Why a branch may not be given an unowned key, from the keys it has. -/
def unownedKeyProblem (keys : List KeyRow) : Option Text :=
  let active := keys.filter KeyRow.isActive
  if active.any fun key => key.installationId.isSome then
    some "the branch has an active key owned by an installation".toList
  else if active ≠ [] then some "the branch already has an active key".toList
  else if keys.any fun key => key.installationId.isSome then
    some "the branch has a retired key owned by an installation".toList
  else none

/-- `_refuse_an_unowned_key`. -/
def refuseAnUnownedKey (customer branch : Nat) : RegistryTx Unit := do
  match ← Tx.select fun reg => unownedKeyProblem (keysOf reg customer branch) with
  | some problem => Tx.refuse (.valueError problem)
  | none => do
      let enrolled ← Tx.select fun reg => reg.cutovers.entries.any fun cutover =>
        cutover.2.customerId = customer && cutover.2.branchId = branch && cutover.2.setBy = enrollmentCutoverSetBy
      Tx.require (enrolled = false) (.valueError "the branch was enrolled through Contract v2".toList)

/-- The id and the UUID that a new key draws. -/
structure KeyDraw where
  rowId : Nat
  keyId : Text

def insertKey (row : KeyRow) (rowId : Nat) : RegistryTx Unit :=
  Tx.insertRow [.key rowId, .keyId row.keyId]
    (fun reg => (reg.keys.get? rowId).isSome || reg.keys.entries.any fun key => key.2.keyId = row.keyId)
    (.branch row.branchId :: row.installationId.toList.map Row.installation)
    (fun reg => row.customerId ∈ reg.customers && (reg.branches.get? row.branchId).isSome &&
      row.installationId.all fun owner => (reg.installations.get? owner).any fun installation =>
        installation.branchId = row.branchId)
    .uniqueViolation .foreignKeyViolation fun reg => reg.setKey rowId row

/-- What an unowned key takes before the tenant is looked at. -/
def lockForOwner (customer branch : Nat) (owner : Option Nat) : RegistryTx Unit :=
  if owner.isNone then lockTenantForUnownedKey customer branch else pure ()

def refuseForOwner (customer branch : Nat) (owner : Option Nat) : RegistryTx Unit :=
  if owner.isNone then refuseAnUnownedKey customer branch else pure ()

/-- `issue_ingest_key`. -/
def issueIngestKey (customer branch : Nat) (owner enrolledBy : Option Nat) (draw : KeyDraw) : RegistryTx Text := do
  lockForOwner customer branch owner
  requireProvisionableTenant customer branch
  refuseForOwner customer branch owner
  insertKey ⟨draw.keyId, customer, branch, .active, none, owner, enrolledBy⟩ draw.rowId
  pure draw.keyId

/-- `retire_ingest_key`. -/
def retireIngestKey (keyId : Text) (now : Nat) : RegistryTx Bool := do
  let mayRetire : KeyRow → Bool := fun key => key.keyId = keyId && key.isActive && key.installationId.isNone
  let retired ← Tx.sweep (fun reg => idsWhere reg.keys mayRetire) Row.key .noKeyUpdate
    (fun id reg => (reg.keys.get? id).any mayRetire)
    fun id reg => { reg with keys := adjust id (KeyRow.retire now) reg.keys }
  if retired.length = 1 then pure true
  else do
    let owned ← Tx.select fun reg => reg.keys.entries.any fun key =>
      key.2.keyId = keyId && key.2.isActive && key.2.installationId.isSome
    Tx.require (owned = false) (.valueError "the key is owned by an installation".toList)
    pure false

def insertCutover (row : BranchCutoverRow) (id : Nat) : RegistryTx Unit :=
  Tx.insertRow [.cutover id] (fun reg => (reg.cutovers.get? id).isSome) [.branch row.branchId]
    (fun reg => row.customerId ∈ reg.customers && (reg.branches.get? row.branchId).isSome)
    .uniqueViolation .foreignKeyViolation fun reg => reg.setCutover id row

/-- `record_v2_cutover`. -/
def recordV2Cutover (customer branch : Nat) (cutoverAt : Option Nat) (setBy note : Text) (enrolledBy : Option Nat)
    (id : Nat) : RegistryTx Nat := do
  requireProvisionableTenant customer branch
  Tx.require (strip setBy ≠ []) (.valueError "set_by is required and cannot be blank".toList)
  insertCutover ⟨customer, branch, cutoverAt, strip setBy, note, enrolledBy⟩ id
  pure id

/-- `record_initial_v2_cutover`. -/
def recordInitialV2Cutover (customer branch cutoverAt : Nat) (setBy note : Text) (enrolledBy : Option Nat) (id : Nat) :
    RegistryTx Nat := do
  let exists_ ← Tx.select fun reg => reg.hasAnyCutover customer branch
  Tx.require (exists_ = false) (.valueError "the tenant already has a v2 cutover record".toList)
  recordV2Cutover customer branch (some cutoverAt) setBy note enrolledBy id

end IngestKeys

end SortView
