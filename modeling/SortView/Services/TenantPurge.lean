import SortView.Services.DataLifecyclePolicy

/-!
# The purge of a tenant

`scripts/purge_tenant_data.py`: what stops a purge, what it would delete, and the deletes in their order. The messages of
the refusals are left out; what they count is kept. The checks of the role and of the schema, which are about no row, and
the command line are left out.
-/

namespace SortView

open PyText Relational

/-- `Tenant`. -/
structure PurgeTenant where
  organizationId : Int
  slug : Text
  status : Text
  customerId : Option Int
  branchIds : List Int
  deriving DecidableEq

def PurgeTenant.scope (tenant : PurgeTenant) : TenantScope := ⟨tenant.organizationId, tenant.customerId⟩

/-- `load_tenant`. The branches are in the order of their ids. -/
def loadTenant (db : TenantDatabase) (organizationId : Int) : Option PurgeTenant :=
  ((db .organizations).find? fun row => sqlEquals row.id organizationId).map fun row =>
    ⟨organizationId, row.slug.getD [], row.status.getD [], row.operationalCustomerId,
      ((orgBranches db organizationId).reduceOption).insertionSort (· ≤ ·)⟩

/-! ### Refusals -/

inductive PurgeProblem where
  | unknownOrganization
  | slugMismatch
  | notCancelled (status : Text)
  | noCutoffEvent
  | activeTokens (remaining : Nat)
  | liveInstallations (remaining : Nat)
  | unusedCodes (remaining : Nat)
  | activeKeys (remaining : Nat)
  | noCustomer
  | unknownCustomer
  | sharedCustomer (mapped : Nat)
  | foreignBranchIds (inconsistent : Nat)
  | unattributable (table : Surface) (rows everyKeyNull : Nat)
  | conflicting (table : Surface) (rows : Nat)
  deriving DecidableEq

/-- A problem of a count that is not zero. -/
def ifAny (count : Nat) (problem : Nat → PurgeProblem) : List PurgeProblem := if count = 0 then [] else [problem count]

/-- `cutoff_problems`. -/
def cutoffProblems (db : TenantDatabase) (tenant : PurgeTenant) : List PurgeProblem :=
  if tenant.status ≠ "cancelled".toList then [.notCancelled tenant.status]
  else
    let installations := orgInstallations db tenant.organizationId
    (if (db .tenantLifecycleEvents).countP (fun row =>
        sqlEquals row.organizationId tenant.organizationId && row.eventType == some eventAccessCutoff) = 0
      then [.noCutoffEvent] else [])
      ++ ifAny ((db .agentTokens).countP fun row => row.isActive == some true
          && (sqlEquals row.customerId tenant.customerId || sqlIn row.installationId installations)) .activeTokens
      ++ ifAny ((db .collectorInstallations).countP fun row => sqlEquals row.organizationId tenant.organizationId
          && row.status.isSome && row.status != some "retired".toList) .liveInstallations
      ++ ifAny ((db .collectorEnrollmentCodes).countP fun row => row.usedAt.isNone && row.revokedAt.isNone
          && sqlIn row.installationId installations) .unusedCodes
      ++ ifAny ((db .ingestKeyIds).countP fun row => sqlEquals row.customerId tenant.customerId
          && row.status == some "active".toList) .activeKeys

/-- `mapping_problems`. -/
def mappingProblems (db : TenantDatabase) (tenant : PurgeTenant) : List PurgeProblem :=
  if tenant.customerId = none then [.noCustomer]
  else
    let mapped := (db .organizations).countP fun row => sqlEquals row.operationalCustomerId tenant.customerId
    (if (db .customers).countP (fun row => sqlEquals row.id tenant.customerId) ≠ 1 then [.unknownCustomer] else [])
      ++ (if mapped ≠ 1 then [.sharedCustomer mapped] else [])
      ++ ifAny ((db .branches).countP fun row => sqlEquals row.organizationId tenant.organizationId
          && sqlDiffers row.operationalBranchId row.id) .foreignBranchIds

/-- A row that pairs the tenant's customer with another's branch, or its branch with another customer. -/
def pairConflicts (db : TenantDatabase) (tenant : PurgeTenant) (row : SurfaceRow) : Bool :=
  let branches := orgBranches db tenant.organizationId
  (sqlEquals row.customerId tenant.customerId && row.branchId.isSome && !sqlIn row.branchId branches)
    || (sqlIn row.branchId branches && (row.customerId.isNone || sqlDiffers row.customerId tenant.customerId))

/-- What `attribution_problems` finds in one table. -/
def tableAttributionProblems (db : TenantDatabase) (tenant : PurgeTenant) (entry : SurfacePolicy) : List PurgeProblem :=
  (if entry.nullableTenantKeys = [] then []
    else ifAny ((db entry.table).countP fun row => entry.nullableTenantKeys.any fun key => (row.key key).isNone)
      fun rows => .unattributable entry.table rows
        ((db entry.table).countP fun row => entry.nullableTenantKeys.all fun key => (row.key key).isNone))
    ++ (if entry.pairedKeys ∧ tenant.customerId ≠ none
      then ifAny ((db entry.table).countP fun row => pairConflicts db tenant row) (.conflicting entry.table)
      else [])

/-- `attribution_problems`. -/
def attributionProblems (db : TenantDatabase) (tenant : PurgeTenant) : List PurgeProblem :=
  purgePlan.flatMap (tableAttributionProblems db tenant)

/-- `refusals`. -/
def refusals (db : TenantDatabase) (organizationId : Int) (confirmSlug : Text) : Option PurgeTenant × List PurgeProblem :=
  match loadTenant db organizationId with
  | none => (none, [.unknownOrganization])
  | some tenant =>
      if strip confirmSlug ≠ tenant.slug then (none, [.slugMismatch])
      else (some tenant, cutoffProblems db tenant ++ mappingProblems db tenant ++ attributionProblems db tenant)

/-! ### Inventory and purge -/

/-- The `DELETE` of a policy. -/
def SurfacePolicy.delete (scope : TenantScope) (entry : SurfacePolicy) : Delete Surface SurfaceRow :=
  ⟨entry.table, fun db row => entry.purgeWhere.any fun predicate => predicate.holds scope db row⟩

def purgeDeletes (scope : TenantScope) : List (Delete Surface SurfaceRow) := purgePlan.map (SurfacePolicy.delete scope)

/-- `inventory`. -/
def inventory (db : TenantDatabase) (tenant : PurgeTenant) : List (Surface × Nat) :=
  (purgeDeletes tenant.scope).map fun step => (step.table, step.count db)

inductive PurgeError where
  | integrity
  | survivors (tables : List Surface)
  | evidence
  deriving DecidableEq

/-- The evidence of a purge. -/
def purgeDetails (schemaRevision : Option Text) (deleted : List (Surface × Nat)) (branchIds : List Int) : List (Text × Json) :=
  [("schema_revision".toList, schemaRevision.elim .null .text),
    ("rows_deleted".toList, .object (deleted.map fun entry => (entry.1.name, .int entry.2))),
    ("branch_ids".toList, .array (branchIds.map .int))]

/-- What the call is made with, and what the database gives the row of evidence. -/
structure PurgeCall where
  operator : Text
  schemaRevision : Option Text
  eventId : Int
  occurredAt : Int

/-- `execute_purge`. The deletes are refused where they leave a reference without its row. -/
def executePurge (db : TenantDatabase) (tenant : PurgeTenant) (call : PurgeCall) :
    Except PurgeError (List (Surface × Nat) × TenantDatabase) :=
  match runDeletes tenantReferences db (purgeDeletes tenant.scope) with
  | none => .error .integrity
  | some (after, deleted) =>
      let survivors := ((inventory after tenant).filter fun entry => entry.2 ≠ 0).map Prod.fst
      if survivors ≠ [] then .error (.survivors survivors)
      else
        match purgeEvent tenant.organizationId tenant.slug tenant.customerId call.operator
          (purgeDetails call.schemaRevision deleted tenant.branchIds) call.eventId call.occurredAt with
        | none => .error .evidence
        | some event =>
            .ok (deleted, Function.update after .tenantLifecycleEvents (after .tenantLifecycleEvents ++ [event]))

/-- The transaction of the caller, who rolls back what raises. -/
def purgeTransaction (db : TenantDatabase) (tenant : PurgeTenant) (call : PurgeCall) :
    TenantDatabase × Except PurgeError (List (Surface × Nat)) :=
  match executePurge db tenant call with
  | .ok (deleted, after) => (after, .ok deleted)
  | .error error => (db, .error error)

end SortView
