import SortView.Services.TenantPurge

/-!
# What a purge deletes

The rows that a tenant claims, by the columns that name it and by its own rows, and what a purge that goes through has
deleted: exactly these, and none that another tenant claims too, if no agent token and no installation names two tenants.
-/

namespace SortView

open PyText Relational

/-! ### Claims -/

/-- The columns of the planned tables that name a tenant. -/
def tenantColumns : Surface → List TenantKey
  | .checkinsClean | .rejectsClean | .checkins | .rejects | .acsEvents | .checkinEvents | .rejectEvents | .acsItemEvents
  | .v2Cutovers | .pipelineStatus => [.customer, .branch]
  | .ingestKeyIds | .agentTokens => [.customer, .branch, .installation]
  | .collectorEnrollmentCodes => [.installation]
  | .collectorInstallations => [.organization, .branch]
  | .branchSettings => [.branch]
  | .branches | .organizationSettings | .subscriptions | .memberships => [.organization]
  | _ => []

/-- What the id of a row itself names. -/
def ownKey : Surface → Option TenantKey
  | .organizations => some .organization
  | .customers => some .customer
  | .branches => some .branch
  | .collectorInstallations => some .installation
  | _ => none

/-- The ids of a tenant: its organization, its customer, its branches and its installations. -/
def tenantIds (db : TenantDatabase) (organizationId : Int) : TenantKey → List (Option Int)
  | .organization => [some organizationId]
  | .customer => ((db .organizations).filter fun row => sqlEquals row.id organizationId).map SurfaceRow.operationalCustomerId
  | .branch => orgBranches db organizationId
  | .installation => orgInstallations db organizationId

/-- A row that names a tenant, or is one of its own. -/
def claimedBy (db : TenantDatabase) (organizationId : Int) (table : Surface) (row : SurfaceRow) : Bool :=
  ((tenantColumns table).any fun key => sqlIn (row.key key) (tenantIds db organizationId key))
    || (ownKey table).any fun key => sqlIn row.id (tenantIds db organizationId key)

/-- Another organization. -/
def OtherTenant (db : TenantDatabase) (organizationId other : Int) : Prop :=
  other ≠ organizationId ∧ ∃ row ∈ db .organizations, row.id = some other

def Planned (table : Surface) : Prop := ∃ entry ∈ purgePlan, entry.table = table

/-- One tenant was removed and nothing else. -/
structure RemovedExactly (db after : TenantDatabase) (tenant : PurgeTenant) (counts : List (Surface × Nat)) : Prop where
  deleted : ∀ table, Planned table → after table = (db table).filter fun row => !claimedBy db tenant.organizationId table row
  unshared : ∀ table, Planned table → ∀ row ∈ db table, claimedBy db tenant.organizationId table row = true →
    ∀ other, OtherTenant db tenant.organizationId other → claimedBy db other table row = false
  evidence : ∃ event : SurfaceRow, event.eventType = some eventPurgeExecuted
    ∧ event.organizationId = some tenant.organizationId
    ∧ after .tenantLifecycleEvents = db .tenantLifecycleEvents ++ [event]
  frame : ∀ table, ¬ Planned table → table ≠ .tenantLifecycleEvents → after table = db table
  counted : counts = inventory db tenant

/-- The tables whose ids other rows name. -/
def keyedTables : List Surface := [.organizations, .customers, .branches, .collectorInstallations]

/-- Primary keys, foreign keys, and the branch of an ingest key, which is never null. -/
structure TenantConstraints (db : TenantDatabase) : Prop where
  keys : ∀ table ∈ keyedTables, ((db table).map SurfaceRow.id).Nodup
  references : ∀ fk ∈ tenantReferences, fk.Holds db
  keyBranch : ∀ row ∈ db .ingestKeyIds, row.branchId.isSome = true

/-- No agent token and no installation of the tenant names two tenants: a token at one of its branches has its customer or
one of its installations, a token that has these names nothing of another tenant, and so does an installation. -/
structure KeysAgree (db : TenantDatabase) (tenant : PurgeTenant) : Prop where
  tokenBranches : ∀ row ∈ db .agentTokens, sqlIn row.branchId (orgBranches db tenant.organizationId) = true →
    sqlEquals row.customerId tenant.customerId = true
      ∨ sqlIn row.installationId (orgInstallations db tenant.organizationId) = true
  tokens : ∀ row ∈ db .agentTokens, sqlEquals row.customerId tenant.customerId = true
      ∨ sqlIn row.installationId (orgInstallations db tenant.organizationId) = true →
    ∀ other, OtherTenant db tenant.organizationId other → ∀ key ∈ [TenantKey.customer, .branch, .installation],
      sqlIn (row.key key) (tenantIds db other key) = false
  installations : ∀ row ∈ db .collectorInstallations, row.organizationId = some tenant.organizationId →
    ∀ other, OtherTenant db tenant.organizationId other → sqlIn row.branchId (orgBranches db other) = false

/-! ### Conditions -/

theorem sqlEquals_iff {left right : Option Int} : sqlEquals left right = true ↔ ∃ x, left = some x ∧ right = some x := by
  cases left with
  | none => simp [sqlEquals]
  | some x =>
      rw [sqlEquals, Option.isSome_some, Bool.true_and, beq_iff_eq]
      constructor
      · intro h
        exact ⟨x, rfl, h.symm⟩
      · rintro ⟨y, hx, hright⟩
        rw [hx, hright]

theorem sqlIn_iff {value : Option Int} {ids : List (Option Int)} : sqlIn value ids = true ↔ ∃ x, value = some x ∧ some x ∈ ids := by
  cases value with
  | none => simp [sqlIn]
  | some x => simp [sqlIn]

theorem mem_orgBranches {db : TenantDatabase} {organizationId x : Int} :
    some x ∈ orgBranches db organizationId ↔ ∃ row ∈ db .branches, row.organizationId = some organizationId ∧ row.id = some x := by
  simp only [orgBranches, List.mem_map, List.mem_filter, sqlEquals_iff, Option.some_inj]
  constructor
  · rintro ⟨row, ⟨hrow, x, horganization, rfl⟩, hid⟩
    exact ⟨row, hrow, horganization, hid⟩
  · rintro ⟨row, hrow, horganization, hid⟩
    exact ⟨row, ⟨hrow, organizationId, horganization, rfl⟩, hid⟩

theorem mem_orgInstallations {db : TenantDatabase} {organizationId x : Int} :
    some x ∈ orgInstallations db organizationId
      ↔ ∃ row ∈ db .collectorInstallations, row.organizationId = some organizationId ∧ row.id = some x := by
  simp only [orgInstallations, List.mem_map, List.mem_filter, sqlEquals_iff, Option.some_inj]
  constructor
  · rintro ⟨row, ⟨hrow, x, horganization, rfl⟩, hid⟩
    exact ⟨row, hrow, horganization, hid⟩
  · rintro ⟨row, hrow, horganization, hid⟩
    exact ⟨row, ⟨hrow, organizationId, horganization, rfl⟩, hid⟩

theorem mem_tenantCustomers {db : TenantDatabase} {organizationId x : Int} :
    some x ∈ tenantIds db organizationId .customer
      ↔ ∃ row ∈ db .organizations, row.id = some organizationId ∧ row.operationalCustomerId = some x := by
  simp only [tenantIds, List.mem_map, List.mem_filter, sqlEquals_iff, Option.some_inj]
  constructor
  · rintro ⟨row, ⟨hrow, x, hid, rfl⟩, hcustomer⟩
    exact ⟨row, hrow, hid, hcustomer⟩
  · rintro ⟨row, hrow, hid, hcustomer⟩
    exact ⟨row, ⟨hrow, organizationId, hid, rfl⟩, hcustomer⟩

theorem mem_tenantOrganization {db : TenantDatabase} {organizationId x : Int} :
    some x ∈ tenantIds db organizationId .organization ↔ x = organizationId := by
  simp [tenantIds]

/-- Two rows of one key are one row. -/
theorem TenantConstraints.eq_of_id {db : TenantDatabase} (h : TenantConstraints db) {table : Surface} (htable : table ∈ keyedTables)
    {row other : SurfaceRow} (hrow : row ∈ db table) (hother : other ∈ db table) (hid : row.id = other.id) : row = other :=
  List.inj_on_of_nodup_map (h.keys table htable) hrow hother hid

/-! ### The plan -/

/-- The tables that a predicate looks at. -/
def PurgeWhere.reads : PurgeWhere → List Surface
  | .byCustomerOrInstallation | .byInstallation => [.collectorInstallations]
  | .byBranch => [.branches]
  | _ => []

theorem orgInstallations_update {db : TenantDatabase} {table : Surface} (h : table ≠ .collectorInstallations)
    (rows : List SurfaceRow) (organizationId : Int) :
    orgInstallations (Function.update db table rows) organizationId = orgInstallations db organizationId := by
  unfold orgInstallations
  rw [Function.update_of_ne h.symm]

theorem orgBranches_update {db : TenantDatabase} {table : Surface} (h : table ≠ .branches) (rows : List SurfaceRow)
    (organizationId : Int) : orgBranches (Function.update db table rows) organizationId = orgBranches db organizationId := by
  unfold orgBranches
  rw [Function.update_of_ne h.symm]

theorem PurgeWhere.holds_update {predicate : PurgeWhere} {scope : TenantScope} {db : TenantDatabase} {table : Surface}
    (h : table ∉ predicate.reads) (rows : List SurfaceRow) (row : SurfaceRow) :
    predicate.holds scope (Function.update db table rows) row = predicate.holds scope db row := by
  unfold PurgeWhere.holds
  cases predicate with
  | byCustomerOrInstallation => simp only [orgInstallations_update (List.ne_of_not_mem_cons h)]
  | byInstallation => simp only [orgInstallations_update (List.ne_of_not_mem_cons h)]
  | byBranch => simp only [orgBranches_update (List.ne_of_not_mem_cons h)]
  | byCustomer | byOrganization | ownOrganization | ownCustomer => rfl

theorem purgePlan_childrenFirst : purgePlan.Pairwise fun earlier later =>
    later.table ≠ earlier.table ∧ ∀ predicate ∈ later.purgeWhere, earlier.table ∉ predicate.reads := by decide

theorem childrenFirst (scope : TenantScope) : ChildrenFirst (purgeDeletes scope) := by
  rw [ChildrenFirst, purgeDeletes, List.pairwise_map]
  apply purgePlan_childrenFirst.imp
  intro earlier later h
  refine ⟨h.1, ?_⟩
  intro db rows
  funext row
  change later.purgeWhere.any _ = later.purgeWhere.any _
  cases hwhere : later.purgeWhere with
  | none => rfl
  | some predicate => exact PurgeWhere.holds_update (h.2 predicate hwhere) rows row

end SortView
