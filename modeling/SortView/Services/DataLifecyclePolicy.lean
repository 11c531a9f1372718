import Mathlib.Data.List.Sort
import SortView.Lib.Case
import SortView.Lib.Json
import SortView.Lib.Relational

/-!
# The data lifecycle policy

`services/data_lifecycle_policy.py`: every table of the application, what becomes of it when a tenant leaves, and the plan
of a purge. The descriptions of what a table holds and of what a cutoff does to it are left out, and so are the surfaces
outside the database. The tables are those of the migrated schema, with the columns that a purge looks at.
-/

namespace SortView

open PyText Relational

inductive Surface where
  | checkinsClean
  | rejectsClean
  | checkins
  | rejects
  | acsEvents
  | checkinEvents
  | rejectEvents
  | acsItemEvents
  | ingestKeyIds
  | v2Cutovers
  | pipelineStatus
  | agentTokens
  | collectorEnrollmentCodes
  | collectorInstallations
  | branchSettings
  | branches
  | organizationSettings
  | subscriptions
  | memberships
  | organizations
  | customers
  | tenantLifecycleEvents
  | appUsers
  | authSessions
  | passwordResetTokens
  | authAuditLog
  | plans
  | featureEntitlements
  | binRoutingMap
  | alembicVersion
  deriving DecidableEq

def Surface.name : Surface → Text
  | .checkinsClean => "checkins_clean".toList
  | .rejectsClean => "rejects_clean".toList
  | .checkins => "checkins".toList
  | .rejects => "rejects".toList
  | .acsEvents => "acs_events".toList
  | .checkinEvents => "checkin_events".toList
  | .rejectEvents => "reject_events".toList
  | .acsItemEvents => "acs_item_events".toList
  | .ingestKeyIds => "ingest_key_ids".toList
  | .v2Cutovers => "v2_cutovers".toList
  | .pipelineStatus => "pipeline_status".toList
  | .agentTokens => "agent_tokens".toList
  | .collectorEnrollmentCodes => "collector_enrollment_codes".toList
  | .collectorInstallations => "collector_installations".toList
  | .branchSettings => "branch_settings".toList
  | .branches => "branches".toList
  | .organizationSettings => "organization_settings".toList
  | .subscriptions => "subscriptions".toList
  | .memberships => "memberships".toList
  | .organizations => "organizations".toList
  | .customers => "customers".toList
  | .tenantLifecycleEvents => "tenant_lifecycle_events".toList
  | .appUsers => "app_users".toList
  | .authSessions => "auth_sessions".toList
  | .passwordResetTokens => "password_reset_tokens".toList
  | .authAuditLog => "auth_audit_log".toList
  | .plans => "plans".toList
  | .featureEntitlements => "feature_entitlements".toList
  | .binRoutingMap => "bin_routing_map".toList
  | .alembicVersion => "alembic_version".toList

inductive SurfaceCategory where
  | revoke
  | purge
  | retain
  | globalReference
  | separatelyGoverned
  deriving DecidableEq

/-- The columns by which a row can name a tenant. -/
inductive TenantKey where
  | customer
  | branch
  | organization
  | installation
  deriving DecidableEq

/-- A row: the columns that a purge looks at, null where the table has none of that name, and what else it holds. -/
structure SurfaceRow where
  id : Option Int := none
  customerId : Option Int := none
  branchId : Option Int := none
  organizationId : Option Int := none
  installationId : Option Int := none
  operationalCustomerId : Option Int := none
  operationalBranchId : Option Int := none
  slug : Option Text := none
  status : Option Text := none
  eventType : Option Text := none
  isActive : Option Bool := none
  usedAt : Option Int := none
  revokedAt : Option Int := none
  payload : List (Text × Json) := []

def SurfaceRow.key (row : SurfaceRow) : TenantKey → Option Int
  | .customer => row.customerId
  | .branch => row.branchId
  | .organization => row.organizationId
  | .installation => row.installationId

abbrev TenantDatabase := Database Surface SurfaceRow

/-- The two ids that scope every statement of a purge. -/
structure TenantScope where
  organizationId : Int
  customerId : Option Int
  deriving DecidableEq

/-! ### SQL conditions -/

/-- `left = right`, true only of two values. -/
def sqlEquals (left right : Option Int) : Bool := left.isSome && left == right

/-- `left <> right`, true only of two values. -/
def sqlDiffers (left right : Option Int) : Bool := left.isSome && right.isSome && left != right

/-- `value IN (SELECT ...)`. -/
def sqlIn (value : Option Int) (ids : List (Option Int)) : Bool := value.isSome && value ∈ ids

/-- `_ORG_BRANCHES`. -/
def orgBranches (db : TenantDatabase) (organizationId : Int) : List (Option Int) :=
  ((db .branches).filter fun row => sqlEquals row.organizationId organizationId).map SurfaceRow.id

/-- `_ORG_INSTALLATIONS`. -/
def orgInstallations (db : TenantDatabase) (organizationId : Int) : List (Option Int) :=
  ((db .collectorInstallations).filter fun row => sqlEquals row.organizationId organizationId).map SurfaceRow.id

/-- The predicates of the deletes. -/
inductive PurgeWhere where
  | byCustomer
  | byCustomerOrInstallation
  | byInstallation
  | byBranch
  | byOrganization
  | ownOrganization
  | ownCustomer
  deriving DecidableEq

def PurgeWhere.holds (scope : TenantScope) (db : TenantDatabase) (row : SurfaceRow) : PurgeWhere → Bool
  | .byCustomer => sqlEquals row.customerId scope.customerId
  | .byCustomerOrInstallation =>
      sqlEquals row.customerId scope.customerId || sqlIn row.installationId (orgInstallations db scope.organizationId)
  | .byInstallation => sqlIn row.installationId (orgInstallations db scope.organizationId)
  | .byBranch => sqlIn row.branchId (orgBranches db scope.organizationId)
  | .byOrganization => sqlEquals row.organizationId scope.organizationId
  | .ownOrganization => sqlEquals row.id scope.organizationId
  | .ownCustomer => sqlEquals row.id scope.customerId

/-! ### References -/

/-- A column that names the id of a row of another table. -/
def idReference (child : Surface) (column : SurfaceRow → Option Int) (parent : Surface) : ForeignKey Surface SurfaceRow (List Int) :=
  ⟨child, parent, fun row => (column row).map fun id => [id], fun row => row.id.map fun id => [id]⟩

/-- The installation of an ingest key, which is at the branch of the key. -/
def keyInstallationReference : ForeignKey Surface SurfaceRow (List Int) :=
  ⟨.ingestKeyIds, .collectorInstallations,
    fun row => row.installationId.bind fun installation => row.branchId.map fun branch => [installation, branch],
    fun row => row.id.bind fun installation => row.branchId.map fun branch => [installation, branch]⟩

/-- The tables of events and of bookkeeping that name a customer and a branch by reference. -/
def referringEvents : List Surface :=
  [.checkins, .rejects, .checkinEvents, .rejectEvents, .acsItemEvents, .ingestKeyIds, .v2Cutovers]

/-- The foreign keys between the tables that a purge deletes from, with no action on a delete. -/
def tenantReferences : List (ForeignKey Surface SurfaceRow (List Int)) :=
  referringEvents.map (fun child => idReference child SurfaceRow.customerId .customers)
    ++ referringEvents.map (fun child => idReference child SurfaceRow.branchId .branches)
    ++ [keyInstallationReference,
      idReference .agentTokens SurfaceRow.installationId .collectorInstallations,
      idReference .collectorEnrollmentCodes SurfaceRow.installationId .collectorInstallations,
      idReference .collectorInstallations SurfaceRow.organizationId .organizations,
      idReference .collectorInstallations SurfaceRow.branchId .branches,
      idReference .branchSettings SurfaceRow.branchId .branches,
      idReference .organizationSettings SurfaceRow.organizationId .organizations,
      idReference .subscriptions SurfaceRow.organizationId .organizations,
      idReference .memberships SurfaceRow.organizationId .organizations,
      idReference .organizations SurfaceRow.operationalCustomerId .customers]

/-! ### Policies -/

structure SurfacePolicy where
  table : Surface
  category : SurfaceCategory
  purgeWhere : Option PurgeWhere := none
  purgeOrder : Nat := 0
  nullableTenantKeys : List TenantKey := []
  pairedKeys : Bool := false

/-- A policy of a table that a purge deletes from. -/
def planned (table : Surface) (category : SurfaceCategory) (purgeWhere : PurgeWhere) (purgeOrder : Nat)
    (nullableTenantKeys : List TenantKey) (pairedKeys : Bool) : SurfacePolicy :=
  ⟨table, category, some purgeWhere, purgeOrder, nullableTenantKeys, pairedKeys⟩

/-- A policy of a table that a purge leaves alone. -/
def kept (table : Surface) (category : SurfaceCategory) : SurfacePolicy := { table, category }

/-- `DATABASE_SURFACES`. -/
def databaseSurfaces : List SurfacePolicy :=
  [planned .checkinsClean .purge .byCustomer 10 [.customer, .branch] true,
    planned .rejectsClean .purge .byCustomer 11 [.customer, .branch] true,
    planned .checkins .purge .byCustomer 20 [] true,
    planned .rejects .purge .byCustomer 21 [] true,
    planned .acsEvents .purge .byCustomer 22 [.customer, .branch] true,
    planned .checkinEvents .purge .byCustomer 30 [] true,
    planned .rejectEvents .purge .byCustomer 31 [] true,
    planned .acsItemEvents .purge .byCustomer 32 [] true,
    planned .ingestKeyIds .revoke .byCustomer 40 [] true,
    planned .v2Cutovers .purge .byCustomer 41 [] true,
    planned .pipelineStatus .purge .byCustomer 42 [] true,
    planned .agentTokens .revoke .byCustomerOrInstallation 50 [] false,
    planned .collectorEnrollmentCodes .revoke .byInstallation 51 [] false,
    planned .collectorInstallations .revoke .byOrganization 52 [] false,
    planned .branchSettings .purge .byBranch 60 [] false,
    planned .branches .purge .byOrganization 61 [] false,
    planned .organizationSettings .purge .byOrganization 70 [] false,
    planned .subscriptions .purge .byOrganization 71 [] false,
    planned .memberships .purge .byOrganization 72 [] false,
    planned .organizations .revoke .ownOrganization 80 [] false,
    planned .customers .purge .ownCustomer 90 [] false,
    kept .tenantLifecycleEvents .retain,
    kept .appUsers .separatelyGoverned,
    kept .authSessions .separatelyGoverned,
    kept .passwordResetTokens .separatelyGoverned,
    kept .authAuditLog .separatelyGoverned,
    kept .plans .globalReference,
    kept .featureEntitlements .globalReference,
    kept .binRoutingMap .globalReference,
    kept .alembicVersion .globalReference]

/-- `purge_plan`. -/
def purgePlan : List SurfacePolicy :=
  (databaseSurfaces.filter fun entry => entry.purgeWhere.isSome).insertionSort fun left right => left.purgeOrder ≤ right.purgeOrder

/-! ### Lifecycle evidence -/

def eventAccessCutoff : Text := "access_cutoff".toList

def eventPurgeExecuted : Text := "purge_executed".toList

/-- `_STRING_DETAIL_KEYS`. -/
def stringDetailKeys : List Text := ["status_before".toList, "status_after".toList, "schema_revision".toList]

/-- `_SAFE_DETAIL_STRING`. -/
def safeDetailString (value : Text) : Bool :=
  value ≠ [] && value.length ≤ 32 && value.all fun c => c.isLower || c.isDigit || c = '_'

/-- `_FORBIDDEN_DETAIL_KEY_PARTS`. -/
def forbiddenDetailKeyParts : List Text :=
  ["hash".toList, "secret".toList, "password".toList, "barcode".toList, "patron".toList, "title".toList, "raw".toList,
    "message".toList, "email".toList, "hostname".toList, "item_key".toList, "event_key".toList]

def allowedDetailKey (key : Text) : Bool := !forbiddenDetailKeyParts.any fun part => contains (lower key) part

mutual

/-- `_check_detail`, which raises where this is false. -/
def checkDetail (key : Text) : Json → Bool
  | .null => allowedDetailKey key
  | .bool _ => allowedDetailKey key
  | .int _ => allowedDetailKey key
  | .real _ => false
  | .text value => allowedDetailKey key && lower key ∈ stringDetailKeys && safeDetailString value
  | .array items => allowedDetailKey key && checkDetailItems key items
  | .object items => allowedDetailKey key && validateLifecycleDetails items

def checkDetailItems (key : Text) : List Json → Bool
  | [] => true
  | item :: items => checkDetail key item && checkDetailItems key items

/-- `validate_lifecycle_details`. -/
def validateLifecycleDetails : List (Text × Json) → Bool
  | [] => true
  | item :: items => checkDetail item.1 item.2 && validateLifecycleDetails items

end

/-- `record_tenant_lifecycle_event` of a purge: the row that is appended, with the id and the time that the database gives
it, unless the label is blank or the details are refused. -/
def purgeEvent (organizationId : Int) (slug : Text) (customerId : Option Int) (actorLabel : Text)
    (details : List (Text × Json)) (eventId occurredAt : Int) : Option SurfaceRow :=
  if strip actorLabel ≠ [] ∧ validateLifecycleDetails details = true then
    some { id := eventId, eventType := eventPurgeExecuted, organizationId := organizationId, slug := slug,
           operationalCustomerId := customerId,
           payload := [("actor_label".toList, .text (strip actorLabel)), ("actor_user_id".toList, .null),
             ("details".toList, .object details), ("occurred_at".toList, .int occurredAt)] }
  else none

end SortView
