import SortView.Lib.CaseFacts
import SortView.Services.PurgedTenant

/-!
# A purge that goes through

What `refusals` has checked and what the foreign keys say after the deletes, and from them that the deletes select what the
tenant claims, table by table.
-/

namespace SortView

open PyText Relational

variable {db after : TenantDatabase} {tenant : PurgeTenant} {customer : Int} {row : SurfaceRow}

/-! ### What has been checked -/

/-- A tenant that `refusals` has no problem with: the only organization of its customer, and no row of a paired table names it
and another. -/
structure PurgeAccepted (db : TenantDatabase) (tenant : PurgeTenant) (customer : Int) : Prop where
  customerId : tenant.customerId = some customer
  organization : ∃ row ∈ db .organizations, row.id = some tenant.organizationId ∧ row.operationalCustomerId = some customer
  alone : ∀ row ∈ db .organizations, row.operationalCustomerId = some customer → row.id = some tenant.organizationId
  paired : ∀ entry ∈ purgePlan, entry.pairedKeys = true → ∀ row ∈ db entry.table, pairConflicts db tenant row = false

theorem ifAny_eq_nil {count : Nat} {problem : Nat → PurgeProblem} : ifAny count problem = [] ↔ count = 0 := by
  rw [ifAny]
  split <;> simp [*]

/-- A tenant that is loaded is a row of its table. -/
theorem row_of_loadTenant {organizationId : Int} (h : loadTenant db organizationId = some tenant) :
    ∃ row ∈ db .organizations, row.id = some tenant.organizationId ∧ row.operationalCustomerId = tenant.customerId := by
  obtain ⟨row, hfind, htenant⟩ := Option.map_eq_some_iff.1 h
  have hequal := List.find?_some hfind
  obtain ⟨x, hid, horganization⟩ := sqlEquals_iff.1 hequal
  cases horganization
  refine ⟨row, List.mem_of_find?_eq_some hfind, ?_⟩
  rw [← htenant]
  exact ⟨hid, rfl⟩

/-- A tenant whose customer raises no problem is the only one of its customer. -/
theorem mapped_once_of_mappingProblems (h : mappingProblems db tenant = []) :
    ∃ customer, tenant.customerId = some customer
      ∧ (db .organizations).countP (fun row => sqlEquals row.operationalCustomerId (some customer)) = 1 := by
  rw [mappingProblems] at h
  split at h
  · cases h
  · next hsome =>
    obtain ⟨customer, hcustomer⟩ := Option.ne_none_iff_exists'.1 hsome
    simp only [List.append_eq_nil_iff, ite_eq_right_iff, reduceCtorEq, imp_false, not_not, ne_eq] at h
    refine ⟨customer, hcustomer, ?_⟩
    rw [← hcustomer]
    exact h.1.2

theorem not_pairConflicts_of_attributionProblems (hcustomer : tenant.customerId ≠ none) (h : attributionProblems db tenant = [])
    {entry : SurfacePolicy} (hentry : entry ∈ purgePlan) (hpaired : entry.pairedKeys = true) (hrow : row ∈ db entry.table) :
    pairConflicts db tenant row = false := by
  have htable := List.flatMap_eq_nil_iff.1 h entry hentry
  rw [tableAttributionProblems, List.append_eq_nil_iff] at htable
  have hpairs := htable.2
  rw [if_pos ⟨hpaired, hcustomer⟩, ifAny_eq_nil, List.countP_eq_zero] at hpairs
  simpa using hpairs row hrow

/-- Two rows that are counted once are one row. -/
theorem eq_of_countP_eq_one {α : Type} {p : α → Bool} {l : List α} (h : l.countP p = 1) {a b : α} (ha : a ∈ l) (hb : b ∈ l)
    (hpa : p a = true) (hpb : p b = true) : a = b := by
  rw [List.countP_eq_length_filter, List.length_eq_one_iff] at h
  obtain ⟨x, hx⟩ := h
  have hall : ∀ c ∈ l.filter p, c = x := by
    intro c hc
    rw [hx] at hc
    exact List.mem_singleton.1 hc
  rw [hall a (List.mem_filter.2 ⟨ha, hpa⟩), hall b (List.mem_filter.2 ⟨hb, hpb⟩)]

theorem accepted_of_refusals {organizationId : Int} {confirmSlug : Text} (h : refusals db organizationId confirmSlug = (some tenant, [])) :
    ∃ customer, PurgeAccepted db tenant customer := by
  rw [refusals] at h
  split at h
  · cases h
  · next loaded hload =>
    split at h
    · cases h
    · rw [Prod.mk.injEq, Option.some_inj, List.append_eq_nil_iff, List.append_eq_nil_iff] at h
      obtain ⟨rfl, ⟨-, hmapping⟩, hattribution⟩ := h
      obtain ⟨customer, hcustomer, honce⟩ := mapped_once_of_mappingProblems hmapping
      obtain ⟨own, hown, hownId, hownCustomer⟩ := row_of_loadTenant hload
      rw [hcustomer] at hownCustomer
      refine ⟨customer, hcustomer, ⟨own, hown, hownId, hownCustomer⟩, ?_, ?_⟩
      · intro row hrow hrowCustomer
        rw [eq_of_countP_eq_one honce hrow hown (sqlEquals_iff.2 ⟨customer, hrowCustomer, rfl⟩)
          (sqlEquals_iff.2 ⟨customer, hownCustomer, rfl⟩)]
        exact hownId
      · intro entry hentry hpaired row hrow
        exact not_pairConflicts_of_attributionProblems (by simp [hcustomer]) hattribution hentry hpaired hrow

/-! ### Ids -/

theorem sqlIn_organization {organizationId : Int} {value : Option Int} :
    sqlIn value (tenantIds db organizationId .organization) = sqlEquals value organizationId := by
  rw [Bool.eq_iff_iff, sqlIn_iff, sqlEquals_iff]
  constructor
  · rintro ⟨x, hvalue, hx⟩
    exact ⟨x, hvalue, by rw [mem_tenantOrganization.1 hx]⟩
  · rintro ⟨x, hvalue, hx⟩
    exact ⟨x, hvalue, mem_tenantOrganization.2 (Option.some_inj.1 hx).symm⟩

theorem PurgeAccepted.sqlIn_customer (haccepted : PurgeAccepted db tenant customer) (hconstraints : TenantConstraints db) {value : Option Int} :
    sqlIn value (tenantIds db tenant.organizationId .customer) = sqlEquals value tenant.customerId := by
  obtain ⟨own, hown, hownId, hownCustomer⟩ := haccepted.organization
  rw [Bool.eq_iff_iff, sqlIn_iff, sqlEquals_iff, haccepted.customerId]
  constructor
  · rintro ⟨x, hvalue, hx⟩
    obtain ⟨row, hrow, hid, hcustomer⟩ := mem_tenantCustomers.1 hx
    rw [hconstraints.eq_of_id (by decide) hrow hown (hid.trans hownId.symm), hownCustomer] at hcustomer
    exact ⟨x, hvalue, hcustomer⟩
  · rintro ⟨x, hvalue, hx⟩
    exact ⟨x, hvalue, mem_tenantCustomers.2 ⟨own, hown, hownId, hownCustomer.trans hx⟩⟩

/-- Two tenants share no id. -/
theorem PurgeAccepted.disjoint (haccepted : PurgeAccepted db tenant customer) (hconstraints : TenantConstraints db) {other : Int}
    (hother : OtherTenant db tenant.organizationId other) (key : TenantKey) {value : Option Int}
    (hown : sqlIn value (tenantIds db tenant.organizationId key) = true) : sqlIn value (tenantIds db other key) = false := by
  by_contra hboth
  rw [Bool.not_eq_false, sqlIn_iff] at hboth
  obtain ⟨x, hvalue, hx⟩ := hboth
  obtain ⟨y, hvalue', hy⟩ := sqlIn_iff.1 hown
  cases hvalue.symm.trans hvalue'
  cases key with
  | organization => exact hother.1 ((mem_tenantOrganization.1 hx).symm.trans (mem_tenantOrganization.1 hy))
  | customer =>
      obtain ⟨row, hrow, hid, hcustomer⟩ := mem_tenantCustomers.1 hx
      have hequal : sqlEquals value tenant.customerId = true := by
        rw [← haccepted.sqlIn_customer hconstraints]
        exact hown
      obtain ⟨z, hz, hcustomerId⟩ := sqlEquals_iff.1 hequal
      cases hz.symm.trans hvalue
      rw [haccepted.customerId] at hcustomerId
      have hsame := haccepted.alone row hrow (hcustomer.trans hcustomerId.symm)
      exact hother.1 (Option.some_inj.1 (hid.symm.trans hsame))
  | branch =>
      obtain ⟨row, hrow, horganization, hid⟩ := mem_orgBranches.1 hx
      obtain ⟨row', hrow', horganization', hid'⟩ := mem_orgBranches.1 hy
      rw [hconstraints.eq_of_id (by decide) hrow hrow' (hid.trans hid'.symm), horganization'] at horganization
      exact hother.1 (Option.some_inj.1 horganization).symm
  | installation =>
      obtain ⟨row, hrow, horganization, hid⟩ := mem_orgInstallations.1 hx
      obtain ⟨row', hrow', horganization', hid'⟩ := mem_orgInstallations.1 hy
      rw [hconstraints.eq_of_id (by decide) hrow hrow' (hid.trans hid'.symm), horganization'] at horganization
      exact hother.1 (Option.some_inj.1 horganization).symm

/-- A row of a keyed table whose id is in the ids of an organization's rows is one of them. -/
theorem sqlIn_ownBranches (hconstraints : TenantConstraints db) (hrow : row ∈ db .branches) {organizationId : Int} :
    sqlIn row.id (orgBranches db organizationId) = true → row.organizationId = some organizationId := by
  intro h
  obtain ⟨x, hid, hx⟩ := sqlIn_iff.1 h
  obtain ⟨row', hrow', horganization, hid'⟩ := mem_orgBranches.1 hx
  rw [hconstraints.eq_of_id (by decide) hrow hrow' (hid.trans hid'.symm)]
  exact horganization

theorem sqlIn_ownInstallations (hconstraints : TenantConstraints db) (hrow : row ∈ db .collectorInstallations) {organizationId : Int} :
    sqlIn row.id (orgInstallations db organizationId) = true → row.organizationId = some organizationId := by
  intro h
  obtain ⟨x, hid, hx⟩ := sqlIn_iff.1 h
  obtain ⟨row', hrow', horganization, hid'⟩ := mem_orgInstallations.1 hx
  rw [hconstraints.eq_of_id (by decide) hrow hrow' (hid.trans hid'.symm)]
  exact horganization

/-! ### References after the deletes -/

/-- What the deletes leave, with a row for every reference. -/
structure Purged (db after : TenantDatabase) (tenant : PurgeTenant) : Prop where
  left : ∀ entry ∈ purgePlan, after entry.table = (db entry.table).filter fun row => !(entry.delete tenant.scope).holds db row
  references : ∀ fk ∈ tenantReferences, fk.Holds after

theorem purgePlan_eq : purgePlan = databaseSurfaces.take 21 := rfl

theorem idReference_holds {child parent : Surface} {column : SurfaceRow → Option Int} :
    (idReference child column parent).Holds db
      ↔ ∀ row ∈ db child, ∀ id, column row = some id → ∃ referenced ∈ db parent, referenced.id = some id := by
  simp [ForeignKey.Holds, idReference]

/-- The installation and the branch of an ingest key are those of one installation. -/
theorem keyInstallation_of_holds (h : keyInstallationReference.Holds db) (hrow : row ∈ db .ingestKeyIds) {installation branch : Int}
    (hinstallation : row.installationId = some installation) (hbranch : row.branchId = some branch) :
    ∃ referenced ∈ db .collectorInstallations, referenced.id = some installation ∧ referenced.branchId = some branch := by
  obtain ⟨referenced, hreferenced, hkey⟩ := h row hrow [installation, branch] (by simp [keyInstallationReference, hinstallation, hbranch])
  obtain ⟨id, hid, hkey⟩ := Option.bind_eq_some_iff.1 hkey
  obtain ⟨at', hat, hkey⟩ := Option.map_eq_some_iff.1 hkey
  cases hkey
  exact ⟨referenced, hreferenced, hid, hat⟩

theorem Purged.mem_after (hpurged : Purged db after tenant) {entry : SurfacePolicy} (hentry : entry ∈ purgePlan) {predicate : PurgeWhere}
    (hwhere : entry.purgeWhere = some predicate) :
    row ∈ after entry.table ↔ row ∈ db entry.table ∧ predicate.holds tenant.scope db row = false := by
  rw [hpurged.left entry hentry, List.mem_filter, SurfacePolicy.delete]
  simp [hwhere]

theorem installations_planned : planned .collectorInstallations .revoke .byOrganization 52 [] false ∈ purgePlan := by
  simp [purgePlan_eq, databaseSurfaces]

theorem branches_planned : planned .branches .purge .byOrganization 61 [] false ∈ purgePlan := by
  simp [purgePlan_eq, databaseSurfaces]

theorem ingestKeyIds_planned : planned .ingestKeyIds .revoke .byCustomer 40 [] true ∈ purgePlan := by
  simp [purgePlan_eq, databaseSurfaces]

theorem Purged.mem_installations (hpurged : Purged db after tenant) :
    row ∈ after .collectorInstallations
      ↔ row ∈ db .collectorInstallations ∧ sqlEquals row.organizationId tenant.organizationId = false :=
  hpurged.mem_after installations_planned rfl

theorem Purged.mem_branches (hpurged : Purged db after tenant) :
    row ∈ after .branches ↔ row ∈ db .branches ∧ sqlEquals row.organizationId tenant.organizationId = false :=
  hpurged.mem_after branches_planned rfl

theorem Purged.mem_ingestKeyIds (hpurged : Purged db after tenant) :
    row ∈ after .ingestKeyIds ↔ row ∈ db .ingestKeyIds ∧ sqlEquals row.customerId tenant.customerId = false :=
  hpurged.mem_after ingestKeyIds_planned rfl

/-- An installation at a branch of the tenant is the tenant's, or its branch would be gone. -/
theorem Purged.installation_of_ownBranch (hpurged : Purged db after tenant) (hconstraints : TenantConstraints db)
    (hrow : row ∈ db .collectorInstallations) (hbranch : sqlIn row.branchId (orgBranches db tenant.organizationId) = true) :
    sqlEquals row.organizationId tenant.organizationId = true := by
  by_contra hforeign
  rw [Bool.not_eq_true] at hforeign
  obtain ⟨x, hx, hown⟩ := sqlIn_iff.1 hbranch
  obtain ⟨own, hownMem, hownOrganization, hownId⟩ := mem_orgBranches.1 hown
  have hreference := idReference_holds.1 (hpurged.references (idReference .collectorInstallations SurfaceRow.branchId .branches)
    (by simp [tenantReferences]))
  obtain ⟨referenced, hreferenced, hid⟩ := hreference row (hpurged.mem_installations.2 ⟨hrow, hforeign⟩) x hx
  obtain ⟨hmem, hkept⟩ := hpurged.mem_branches.1 hreferenced
  rw [hconstraints.eq_of_id (by decide) hmem hownMem (hid.trans hownId.symm), hownOrganization] at hkept
  simp [sqlEquals] at hkept

/-- An ingest key of an installation of the tenant has its customer, or its installation would be gone. -/
theorem Purged.ingestKey_of_ownInstallation (hpurged : Purged db after tenant) (hconstraints : TenantConstraints db)
    (hrow : row ∈ db .ingestKeyIds)
    (hinstallation : sqlIn row.installationId (orgInstallations db tenant.organizationId) = true) :
    sqlEquals row.customerId tenant.customerId = true := by
  by_contra hforeign
  rw [Bool.not_eq_true] at hforeign
  obtain ⟨x, hx, hown⟩ := sqlIn_iff.1 hinstallation
  obtain ⟨own, hownMem, hownOrganization, hownId⟩ := mem_orgInstallations.1 hown
  obtain ⟨branch, hbranch⟩ := Option.isSome_iff_exists.1 (hconstraints.keyBranch row hrow)
  obtain ⟨referenced, hreferenced, hid, -⟩ := keyInstallation_of_holds
    (hpurged.references keyInstallationReference (by simp [tenantReferences])) (hpurged.mem_ingestKeyIds.2 ⟨hrow, hforeign⟩) hx hbranch
  obtain ⟨hmem, hkept⟩ := hpurged.mem_installations.1 hreferenced
  rw [hconstraints.eq_of_id (by decide) hmem hownMem (hid.trans hownId.symm), hownOrganization] at hkept
  simp [sqlEquals] at hkept

/-! ### Paired keys -/

/-- A row of a paired table has the tenant's customer just if it has one of its branches. -/
theorem not_pairConflicts_iff (hcustomer : tenant.customerId = some customer) :
    pairConflicts db tenant row = false
      ↔ (sqlEquals row.customerId tenant.customerId = true → row.branchId.isSome = true →
          sqlIn row.branchId (orgBranches db tenant.organizationId) = true)
        ∧ (sqlIn row.branchId (orgBranches db tenant.organizationId) = true → sqlEquals row.customerId tenant.customerId = true) := by
  have hdiffers : (row.customerId.isNone || sqlDiffers row.customerId tenant.customerId)
      = !sqlEquals row.customerId tenant.customerId := by
    rw [hcustomer]
    cases hrow : row.customerId with
    | none => rfl
    | some x => simp [sqlDiffers, sqlEquals, bne]
  simp only [pairConflicts, hdiffers, Bool.or_eq_false_iff, Bool.and_eq_false_iff, Bool.not_eq_false']
  cases sqlEquals row.customerId tenant.customerId <;> cases row.branchId.isSome
    <;> cases sqlIn row.branchId (orgBranches db tenant.organizationId) <;> simp

/-- An ingest key of the tenant is at none of another's installations, which would be at a branch of the tenant. -/
theorem Purged.ingestKey_unshared (hpurged : Purged db after tenant) (haccepted : PurgeAccepted db tenant customer)
    (hconstraints : TenantConstraints db) (hrow : row ∈ db .ingestKeyIds)
    (hcustomer : sqlEquals row.customerId tenant.customerId = true) {other : Int} (hother : OtherTenant db tenant.organizationId other) :
    sqlIn row.installationId (orgInstallations db other) = false := by
  by_contra hshared
  rw [Bool.not_eq_false] at hshared
  obtain ⟨x, hx, hmem⟩ := sqlIn_iff.1 hshared
  obtain ⟨installation, hinstallation, horganization, hid⟩ := mem_orgInstallations.1 hmem
  have hsome := hconstraints.keyBranch row hrow
  obtain ⟨branch, hbranch⟩ := Option.isSome_iff_exists.1 hsome
  obtain ⟨referenced, hreferenced, hid', hat⟩ := keyInstallation_of_holds
    (hconstraints.references keyInstallationReference (by simp [tenantReferences])) hrow hx hbranch
  have hpaired := haccepted.paired _ ingestKeyIds_planned rfl row hrow
  have hown := ((not_pairConflicts_iff haccepted.customerId).1 hpaired).1 hcustomer hsome
  rw [hbranch, ← hat] at hown
  have hequal := hpurged.installation_of_ownBranch hconstraints hreferenced hown
  rw [hconstraints.eq_of_id (by decide) hreferenced hinstallation (hid'.trans hid.symm), horganization] at hequal
  obtain ⟨y, hy, hy'⟩ := sqlEquals_iff.1 hequal
  exact hother.1 (Option.some_inj.1 (hy.trans hy'.symm))

theorem tenantIds_branch {organizationId : Int} : tenantIds db organizationId .branch = orgBranches db organizationId := rfl

theorem tenantIds_installation {organizationId : Int} :
    tenantIds db organizationId .installation = orgInstallations db organizationId := rfl

/-! ### Claims of a table -/

section Claims

variable {organizationId : Int} {table : Surface}

theorem claimedBy_pair (hcolumns : tenantColumns table = [.customer, .branch]) (hown : ownKey table = none) :
    claimedBy db organizationId table row
      = (sqlIn row.customerId (tenantIds db organizationId .customer) || sqlIn row.branchId (orgBranches db organizationId)) := by
  rw [claimedBy, hcolumns, hown]
  exact (Bool.or_false _).trans (by rw [List.any_cons, List.any_cons, List.any_nil, Bool.or_false]; rfl)

theorem claimedBy_credential (hcolumns : tenantColumns table = [.customer, .branch, .installation]) (hown : ownKey table = none) :
    claimedBy db organizationId table row
      = (sqlIn row.customerId (tenantIds db organizationId .customer) || (sqlIn row.branchId (orgBranches db organizationId)
          || sqlIn row.installationId (orgInstallations db organizationId))) := by
  rw [claimedBy, hcolumns, hown]
  exact (Bool.or_false _).trans (by rw [List.any_cons, List.any_cons, List.any_cons, List.any_nil, Bool.or_false]; rfl)

theorem claimedBy_code :
    claimedBy db organizationId .collectorEnrollmentCodes row = sqlIn row.installationId (orgInstallations db organizationId) := by
  simp [claimedBy, tenantColumns, ownKey, SurfaceRow.key, tenantIds]

theorem claimedBy_setting : claimedBy db organizationId .branchSettings row = sqlIn row.branchId (orgBranches db organizationId) := by
  simp [claimedBy, tenantColumns, ownKey, SurfaceRow.key, tenantIds]

theorem claimedBy_account (hcolumns : tenantColumns table = [.organization]) (hown : ownKey table = none) :
    claimedBy db organizationId table row = sqlEquals row.organizationId organizationId := by
  simp [claimedBy, hcolumns, hown, SurfaceRow.key, sqlIn_organization]

theorem claimedBy_organization : claimedBy db organizationId .organizations row = sqlEquals row.id organizationId := by
  simp [claimedBy, tenantColumns, ownKey, sqlIn_organization]

theorem claimedBy_customer :
    claimedBy db organizationId .customers row = sqlIn row.id (tenantIds db organizationId .customer) := by
  simp [claimedBy, tenantColumns, ownKey]

/-- A branch is claimed by its organization only. -/
theorem claimedBy_branch (hconstraints : TenantConstraints db) (hrow : row ∈ db .branches) :
    claimedBy db organizationId .branches row = sqlEquals row.organizationId organizationId := by
  have hown : sqlIn row.id (orgBranches db organizationId) = true → sqlEquals row.organizationId organizationId = true := by
    intro h
    exact sqlEquals_iff.2 ⟨organizationId, sqlIn_ownBranches hconstraints hrow h, rfl⟩
  have hclaimed : claimedBy db organizationId .branches row
      = (sqlEquals row.organizationId organizationId || sqlIn row.id (orgBranches db organizationId)) := by
    simp [claimedBy, tenantColumns, ownKey, SurfaceRow.key, sqlIn_organization, tenantIds_branch]
  rw [hclaimed, Bool.eq_iff_iff, Bool.or_eq_true]
  exact or_iff_left_of_imp hown

/-- An installation is claimed by its organization, and by the organization of its branch. -/
theorem claimedBy_installation (hconstraints : TenantConstraints db) (hrow : row ∈ db .collectorInstallations) :
    claimedBy db organizationId .collectorInstallations row
      = (sqlEquals row.organizationId organizationId || sqlIn row.branchId (orgBranches db organizationId)) := by
  have hown : sqlIn row.id (orgInstallations db organizationId) = true → sqlEquals row.organizationId organizationId = true := by
    intro h
    exact sqlEquals_iff.2 ⟨organizationId, sqlIn_ownInstallations hconstraints hrow h, rfl⟩
  have hclaimed : claimedBy db organizationId .collectorInstallations row
      = ((sqlEquals row.organizationId organizationId || sqlIn row.branchId (orgBranches db organizationId))
          || sqlIn row.id (orgInstallations db organizationId)) := by
    simp [claimedBy, tenantColumns, ownKey, SurfaceRow.key, sqlIn_organization, tenantIds_branch, tenantIds_installation]
  rw [hclaimed, Bool.eq_iff_iff, Bool.or_eq_true]
  refine or_iff_left_of_imp ?_
  intro h
  rw [hown h, Bool.true_or]

end Claims

/-! ### Table by table -/

/-- How a planned table is deleted from, and the columns by which its rows name a tenant. -/
inductive PlannedAs (entry : SurfacePolicy) : Prop
  | paired (hwhere : entry.purgeWhere = some .byCustomer) (hpaired : entry.pairedKeys = true)
      (hcolumns : tenantColumns entry.table = [.customer, .branch]) (hown : ownKey entry.table = none)
  | ingestKeys (htable : entry.table = .ingestKeyIds) (hwhere : entry.purgeWhere = some .byCustomer) (hpaired : entry.pairedKeys = true)
  | tokens (htable : entry.table = .agentTokens) (hwhere : entry.purgeWhere = some .byCustomerOrInstallation)
  | codes (htable : entry.table = .collectorEnrollmentCodes) (hwhere : entry.purgeWhere = some .byInstallation)
  | installations (htable : entry.table = .collectorInstallations) (hwhere : entry.purgeWhere = some .byOrganization)
  | settings (htable : entry.table = .branchSettings) (hwhere : entry.purgeWhere = some .byBranch)
  | branches (htable : entry.table = .branches) (hwhere : entry.purgeWhere = some .byOrganization)
  | account (hwhere : entry.purgeWhere = some .byOrganization) (hcolumns : tenantColumns entry.table = [.organization])
      (hown : ownKey entry.table = none)
  | organizations (htable : entry.table = .organizations) (hwhere : entry.purgeWhere = some .ownOrganization)
  | customers (htable : entry.table = .customers) (hwhere : entry.purgeWhere = some .ownCustomer)

theorem plannedAs : ∀ entry ∈ purgePlan, PlannedAs entry := by
  rw [purgePlan_eq]
  simp only [databaseSurfaces, List.take_succ_cons, List.take_zero, List.forall_mem_cons]
  refine ⟨.paired rfl rfl rfl rfl, .paired rfl rfl rfl rfl, .paired rfl rfl rfl rfl, .paired rfl rfl rfl rfl,
    .paired rfl rfl rfl rfl, .paired rfl rfl rfl rfl, .paired rfl rfl rfl rfl, .paired rfl rfl rfl rfl,
    .ingestKeys rfl rfl rfl, .paired rfl rfl rfl rfl, .paired rfl rfl rfl rfl, .tokens rfl rfl, .codes rfl rfl,
    .installations rfl rfl, .settings rfl rfl, .branches rfl rfl, .account rfl rfl rfl, .account rfl rfl rfl,
    .account rfl rfl rfl, .organizations rfl rfl, .customers rfl rfl, ?_⟩
  intro entry hentry
  cases hentry

theorem holds_delete {entry : SurfacePolicy} {predicate : PurgeWhere} (hwhere : entry.purgeWhere = some predicate) {scope : TenantScope} :
    (entry.delete scope).holds db row = predicate.holds scope db row := by
  simp [SurfacePolicy.delete, hwhere]

/-- The deletes select the rows that the tenant claims, if a token at one of its branches has its customer or one of its
installations. -/
theorem selects_eq_claimed (hpurged : Purged db after tenant) (haccepted : PurgeAccepted db tenant customer)
    (hconstraints : TenantConstraints db)
    (htokens : ∀ row ∈ db .agentTokens, sqlIn row.branchId (orgBranches db tenant.organizationId) = true →
      sqlEquals row.customerId tenant.customerId = true ∨ sqlIn row.installationId (orgInstallations db tenant.organizationId) = true)
    {entry : SurfacePolicy} (hentry : entry ∈ purgePlan) (hrow : row ∈ db entry.table) :
    (entry.delete tenant.scope).holds db row = claimedBy db tenant.organizationId entry.table row := by
  have hcustomerIn : ∀ value, sqlIn value (tenantIds db tenant.organizationId .customer) = sqlEquals value tenant.customerId :=
    fun value => haccepted.sqlIn_customer hconstraints
  cases plannedAs entry hentry with
  | paired hwhere hpaired hcolumns hown =>
      have hpair := ((not_pairConflicts_iff haccepted.customerId).1 (haccepted.paired entry hentry hpaired row hrow)).2
      rw [holds_delete hwhere, claimedBy_pair hcolumns hown, hcustomerIn, Bool.eq_iff_iff, Bool.or_eq_true]
      exact (or_iff_left_of_imp hpair).symm
  | ingestKeys htable hwhere hpaired =>
      have hpair := ((not_pairConflicts_iff haccepted.customerId).1 (haccepted.paired entry hentry hpaired row hrow)).2
      rw [htable] at hrow
      have hinstallation := hpurged.ingestKey_of_ownInstallation hconstraints hrow
      rw [holds_delete hwhere, htable, claimedBy_credential rfl rfl, hcustomerIn, Bool.eq_iff_iff, Bool.or_eq_true, Bool.or_eq_true]
      exact (or_iff_left_of_imp fun h => h.elim hpair hinstallation).symm
  | tokens htable hwhere =>
      rw [htable] at hrow
      have hbranch := htokens row hrow
      rw [holds_delete hwhere, htable, claimedBy_credential rfl rfl, hcustomerIn, Bool.eq_iff_iff, Bool.or_eq_true, Bool.or_eq_true,
        PurgeWhere.holds, Bool.or_eq_true, PurgeTenant.scope]
      tauto
  | codes htable hwhere =>
      rw [holds_delete hwhere, htable, claimedBy_code]
      rfl
  | installations htable hwhere =>
      rw [htable] at hrow
      have hbranch := hpurged.installation_of_ownBranch hconstraints hrow
      rw [holds_delete hwhere, htable, claimedBy_installation hconstraints hrow, Bool.eq_iff_iff, Bool.or_eq_true]
      exact (or_iff_left_of_imp hbranch).symm
  | settings htable hwhere =>
      rw [holds_delete hwhere, htable, claimedBy_setting]
      rfl
  | branches htable hwhere =>
      rw [htable] at hrow
      rw [holds_delete hwhere, htable, claimedBy_branch hconstraints hrow]
      rfl
  | account hwhere hcolumns hown =>
      rw [holds_delete hwhere, claimedBy_account hcolumns hown]
      rfl
  | organizations htable hwhere =>
      rw [holds_delete hwhere, htable, claimedBy_organization]
      rfl
  | customers htable hwhere =>
      rw [holds_delete hwhere, htable, claimedBy_customer, hcustomerIn]
      rfl

/-- What the deletes select is claimed by no other tenant, if tokens and installations name one tenant. -/
theorem selected_unshared (hpurged : Purged db after tenant) (haccepted : PurgeAccepted db tenant customer)
    (hconstraints : TenantConstraints db) (hagree : KeysAgree db tenant) {entry : SurfacePolicy} (hentry : entry ∈ purgePlan)
    (hrow : row ∈ db entry.table) (hselected : (entry.delete tenant.scope).holds db row = true) {other : Int}
    (hother : OtherTenant db tenant.organizationId other) : claimedBy db other entry.table row = false := by
  have hcustomer : sqlEquals row.customerId tenant.customerId = true → sqlIn row.customerId (tenantIds db other .customer) = false := by
    intro h
    rw [← haccepted.sqlIn_customer hconstraints] at h
    exact haccepted.disjoint hconstraints hother .customer h
  have hbranch : sqlIn row.branchId (orgBranches db tenant.organizationId) = true → sqlIn row.branchId (orgBranches db other) = false :=
    haccepted.disjoint hconstraints hother .branch
  have horganization : sqlEquals row.organizationId tenant.organizationId = true → sqlEquals row.organizationId other = false := by
    intro h
    rw [← @sqlIn_organization db] at h ⊢
    exact haccepted.disjoint hconstraints hother .organization h
  -- a row with the tenant's customer has a branch of the tenant, or none
  have hpairedBranch : entry.pairedKeys = true → sqlEquals row.customerId tenant.customerId = true →
      sqlIn row.branchId (orgBranches db other) = false := by
    intro hpaired hown
    have hpair := ((not_pairConflicts_iff haccepted.customerId).1 (haccepted.paired entry hentry hpaired row hrow)).1 hown
    cases hsome : row.branchId.isSome with
    | true => exact hbranch (hpair hsome)
    | false => rw [sqlIn, hsome, Bool.false_and]
  cases plannedAs entry hentry with
  | paired hwhere hpaired hcolumns hown =>
      rw [holds_delete hwhere] at hselected
      rw [claimedBy_pair hcolumns hown, hcustomer hselected, hpairedBranch hpaired hselected, Bool.or_false]
  | ingestKeys htable hwhere hpaired =>
      rw [holds_delete hwhere] at hselected
      have hinstallation := hpurged.ingestKey_unshared haccepted hconstraints (htable ▸ hrow) hselected hother
      rw [htable, claimedBy_credential rfl rfl, hcustomer hselected, hpairedBranch hpaired hselected, hinstallation, Bool.or_false,
        Bool.or_false]
  | tokens htable hwhere =>
      rw [holds_delete hwhere, PurgeWhere.holds, Bool.or_eq_true] at hselected
      have hnone := hagree.tokens row (htable ▸ hrow) hselected other hother
      rw [htable, claimedBy_credential rfl rfl, Bool.or_eq_false_iff, Bool.or_eq_false_iff]
      exact ⟨hnone .customer (by simp), hnone .branch (by simp), hnone .installation (by simp)⟩
  | codes htable hwhere =>
      rw [holds_delete hwhere] at hselected
      rw [htable, claimedBy_code]
      exact haccepted.disjoint hconstraints hother .installation hselected
  | installations htable hwhere =>
      rw [holds_delete hwhere] at hselected
      rw [htable] at hrow
      obtain ⟨x, hx, hx'⟩ := sqlEquals_iff.1 hselected
      have hnone := hagree.installations row hrow (hx.trans hx'.symm) other hother
      rw [htable, claimedBy_installation hconstraints hrow, horganization hselected, hnone, Bool.or_false]
  | settings htable hwhere =>
      rw [holds_delete hwhere] at hselected
      rw [htable, claimedBy_setting]
      exact hbranch hselected
  | branches htable hwhere =>
      rw [holds_delete hwhere] at hselected
      rw [htable] at hrow
      rw [htable, claimedBy_branch hconstraints hrow]
      exact horganization hselected
  | account hwhere hcolumns hown =>
      rw [holds_delete hwhere] at hselected
      rw [claimedBy_account hcolumns hown]
      exact horganization hselected
  | organizations htable hwhere =>
      rw [holds_delete hwhere] at hselected
      rw [htable, claimedBy_organization, ← sqlIn_organization]
      apply haccepted.disjoint hconstraints hother .organization
      rw [sqlIn_organization]
      exact hselected
  | customers htable hwhere =>
      rw [holds_delete hwhere] at hselected
      rw [htable, claimedBy_customer]
      apply haccepted.disjoint hconstraints hother .customer
      rw [haccepted.sqlIn_customer hconstraints]
      exact hselected

/-! ### Evidence -/

/-- A text of ASCII without capitals. -/
def plainText (text : Text) : Bool := text.all fun c => c.toNat < 192 && !isCapital c

theorem lower_of_plainText {text : Text} (h : plainText text = true) : lower text = text := by
  apply lower_eq_self
  intro c hc
  simpa using List.all_eq_true.1 h c hc

/-- A key of ASCII without capitals that holds none of the forbidden parts is allowed. -/
theorem allowedDetailKey_of_plain {key : Text} (hplain : plainText key = true)
    (hparts : (forbiddenDetailKeyParts.any fun part => contains key part) = false) : allowedDetailKey key = true := by
  rw [allowedDetailKey, lower_of_plainText hplain, hparts]
  rfl

theorem plain_names : (purgePlan.all fun entry => plainText entry.table.name
    && !forbiddenDetailKeyParts.any fun part => contains entry.table.name part) = true := by decide +kernel

/-- The name of a planned table is a key that evidence may have. -/
theorem allowedDetailKey_name {table : Surface} (htable : Planned table) : allowedDetailKey table.name = true := by
  obtain ⟨entry, hentry, rfl⟩ := htable
  have hentry := List.all_eq_true.1 plain_names entry hentry
  rw [Bool.and_eq_true, Bool.not_eq_true'] at hentry
  exact allowedDetailKey_of_plain hentry.1 hentry.2

theorem validateLifecycleDetails_counts {deleted : List (Surface × Nat)} (hplanned : ∀ entry ∈ deleted, Planned entry.1) :
    validateLifecycleDetails (deleted.map fun entry => (entry.1.name, .int entry.2)) = true := by
  induction deleted with
  | nil => simp [validateLifecycleDetails]
  | cons entry deleted ih =>
      rw [List.map_cons, validateLifecycleDetails, checkDetail, allowedDetailKey_name (hplanned entry List.mem_cons_self),
        ih fun other hother => hplanned other (List.mem_cons_of_mem entry hother)]
      rfl

theorem checkDetailItems_ids {key : Text} (hkey : allowedDetailKey key = true) (ids : List Int) :
    checkDetailItems key (ids.map .int) = true := by
  induction ids with
  | nil => simp [checkDetailItems]
  | cons id ids ih =>
      rw [List.map_cons, checkDetailItems, checkDetail, hkey, ih]
      rfl

/-- The evidence of a purge is never refused, whatever it counts. -/
theorem validateLifecycleDetails_purgeDetails {revision : Option Text} (hrevision : ∀ text ∈ revision, safeDetailString text = true)
    {deleted : List (Surface × Nat)} (hplanned : ∀ entry ∈ deleted, Planned entry.1) (branchIds : List Int) :
    validateLifecycleDetails (purgeDetails revision deleted branchIds) = true := by
  have hrows : allowedDetailKey "rows_deleted".toList = true := allowedDetailKey_of_plain (by decide) (by decide)
  have hbranches : allowedDetailKey "branch_ids".toList = true := allowedDetailKey_of_plain (by decide) (by decide)
  have hschema : allowedDetailKey "schema_revision".toList = true := allowedDetailKey_of_plain (by decide) (by decide)
  have hlower : lower "schema_revision".toList = "schema_revision".toList := lower_of_plainText (by decide)
  have hfirst : checkDetail "schema_revision".toList (revision.elim .null .text) = true := by
    cases revision with
    | none => rw [Option.elim_none, checkDetail, hschema]
    | some text =>
        rw [Option.elim_some, checkDetail, hschema, hlower, hrevision text rfl]
        rfl
  rw [purgeDetails, validateLifecycleDetails, hfirst, validateLifecycleDetails, checkDetail, hrows, validateLifecycleDetails_counts hplanned,
    validateLifecycleDetails, checkDetail, hbranches, checkDetailItems_ids hbranches, validateLifecycleDetails]
  rfl

/-! ### The purge -/

variable {call : PurgeCall} {counts : List (Surface × Nat)}

/-- A purge that goes through is its deletes and one row of evidence. -/
theorem executePurge_ok (h : executePurge db tenant call = .ok (counts, after)) :
    ∃ left event, runDeletes tenantReferences db (purgeDeletes tenant.scope) = some (left, counts)
      ∧ purgeEvent tenant.organizationId tenant.slug tenant.customerId call.operator
          (purgeDetails call.schemaRevision counts tenant.branchIds) call.eventId call.occurredAt = some event
      ∧ after = Function.update left .tenantLifecycleEvents (left .tenantLifecycleEvents ++ [event]) := by
  rw [executePurge] at h
  split at h
  · cases h
  · next left deleted hrun =>
    dsimp only at h
    split at h
    · cases h
    · split at h
      · cases h
      · next event hevent =>
        cases h
        exact ⟨left, event, hrun, hevent, rfl⟩

/-- Deletes that go through, with no survivor and evidence that is not refused, are a purge that goes through. -/
theorem purgeTransaction_of_runDeletes {left : TenantDatabase} {event : SurfaceRow}
    (hrun : runDeletes tenantReferences db (purgeDeletes tenant.scope) = some (left, counts))
    (hsurvivors : ∀ entry ∈ inventory left tenant, entry.2 = 0)
    (hevent : purgeEvent tenant.organizationId tenant.slug tenant.customerId call.operator
      (purgeDetails call.schemaRevision counts tenant.branchIds) call.eventId call.occurredAt = some event) :
    (purgeTransaction db tenant call).2 = .ok counts := by
  have hnone : (inventory left tenant).filter (fun entry => entry.2 ≠ 0) = [] := by
    rw [List.filter_eq_nil_iff]
    intro entry hentry
    simpa using hsurvivors entry hentry
  rw [purgeTransaction, executePurge, hrun]
  simp only [hnone, List.map_nil, ne_eq, not_true_eq_false, if_false, hevent]

theorem purged_of_runDeletes {left : TenantDatabase} (hconstraints : TenantConstraints db)
    (h : runDeletes tenantReferences db (purgeDeletes tenant.scope) = some (left, counts)) : Purged db left tenant := by
  refine ⟨?_, keys_hold_of_runDeletes hconstraints.references h⟩
  intro entry hentry
  exact (runDeletes_spec (childrenFirst tenant.scope) h).1 (entry.delete tenant.scope) (List.mem_map.2 ⟨entry, hentry, rfl⟩)

theorem planned_ne_events {entry : SurfacePolicy} (hentry : entry ∈ purgePlan) : entry.table ≠ .tenantLifecycleEvents := by
  intro htable
  cases plannedAs entry hentry with
  | paired hwhere hpaired hcolumns hown =>
      rw [htable] at hcolumns
      cases hcolumns
  | account hwhere hcolumns hown =>
      rw [htable] at hcolumns
      cases hcolumns
  | ingestKeys h | tokens h | codes h | installations h | settings h | branches h | organizations h | customers h =>
      cases htable.symm.trans h

/-- Tables that keep the same rows were deleted from by conditions that agree on their rows. -/
theorem eq_of_filter_eq {α : Type} {p q : α → Bool} {l : List α} (h : l.filter p = l.filter q) {a : α} (ha : a ∈ l) : p a = q a := by
  have hmem : a ∈ l.filter p ↔ a ∈ l.filter q := by rw [h]
  rw [List.mem_filter, List.mem_filter, and_iff_right ha, and_iff_right ha] at hmem
  exact Bool.eq_iff_iff.2 hmem

/-- What removed one tenant and nothing else has deleted just what the tenant claims. -/
theorem RemovedExactly.selects_eq_claimed {left : TenantDatabase} {events : List SurfaceRow}
    (h : RemovedExactly db (Function.update left .tenantLifecycleEvents events) tenant counts) (hpurged : Purged db left tenant)
    {entry : SurfacePolicy} (hentry : entry ∈ purgePlan) (hrow : row ∈ db entry.table) :
    (entry.delete tenant.scope).holds db row = claimedBy db tenant.organizationId entry.table row := by
  have hdeleted := h.deleted entry.table ⟨entry, hentry, rfl⟩
  rw [Function.update_of_ne (planned_ne_events hentry), hpurged.left entry hentry] at hdeleted
  have hsame := eq_of_filter_eq hdeleted hrow
  rw [Bool.not_inj_iff] at hsame
  exact hsame

theorem agentTokens_planned : planned .agentTokens .revoke .byCustomerOrInstallation 50 [] false ∈ purgePlan := by
  simp [purgePlan_eq, databaseSurfaces]

theorem keysAgree_of_removed {left : TenantDatabase} {events : List SurfaceRow}
    (h : RemovedExactly db (Function.update left .tenantLifecycleEvents events) tenant counts) (hpurged : Purged db left tenant)
    (hconstraints : TenantConstraints db) : KeysAgree db tenant := by
  have htokens : ∀ row ∈ db .agentTokens, (sqlEquals row.customerId tenant.customerId
      || sqlIn row.installationId (orgInstallations db tenant.organizationId)) = claimedBy db tenant.organizationId .agentTokens row :=
    fun row hrow => h.selects_eq_claimed hpurged agentTokens_planned hrow
  have hinstallations : ∀ row ∈ db .collectorInstallations, sqlEquals row.organizationId tenant.organizationId
      = claimedBy db tenant.organizationId .collectorInstallations row :=
    fun row hrow => h.selects_eq_claimed hpurged installations_planned hrow
  refine ⟨?_, ?_, ?_⟩
  · intro row hrow hbranch
    rw [← Bool.or_eq_true, htokens row hrow, claimedBy_credential rfl rfl, hbranch, Bool.true_or, Bool.or_true]
  · intro row hrow hown other hother key hkey
    rw [← Bool.or_eq_true, htokens row hrow] at hown
    have hnone := h.unshared .agentTokens ⟨_, agentTokens_planned, rfl⟩ row hrow hown other hother
    rw [claimedBy_credential rfl rfl, Bool.or_eq_false_iff, Bool.or_eq_false_iff] at hnone
    cases key with
    | customer => exact hnone.1
    | branch => exact hnone.2.1
    | installation => exact hnone.2.2
    | organization => simp at hkey
  · intro row hrow horganization other hother
    have hclaimed := hinstallations row hrow
    rw [sqlEquals_iff.2 ⟨_, horganization, rfl⟩] at hclaimed
    have hnone := h.unshared .collectorInstallations ⟨_, installations_planned, rfl⟩ row hrow hclaimed.symm other hother
    rw [claimedBy_installation hconstraints hrow, Bool.or_eq_false_iff] at hnone
    exact hnone.2

theorem removed_of_keysAgree {left : TenantDatabase} {event : SurfaceRow}
    (hrun : runDeletes tenantReferences db (purgeDeletes tenant.scope) = some (left, counts))
    (hevent : event.eventType = some eventPurgeExecuted ∧ event.organizationId = some tenant.organizationId)
    (haccepted : PurgeAccepted db tenant customer) (hconstraints : TenantConstraints db) (hagree : KeysAgree db tenant) :
    RemovedExactly db (Function.update left .tenantLifecycleEvents (left .tenantLifecycleEvents ++ [event])) tenant counts := by
  have hpurged := purged_of_runDeletes hconstraints hrun
  have hselects : ∀ entry ∈ purgePlan, ∀ row ∈ db entry.table,
      (entry.delete tenant.scope).holds db row = claimedBy db tenant.organizationId entry.table row :=
    fun entry hentry row hrow => selects_eq_claimed hpurged haccepted hconstraints hagree.tokenBranches hentry hrow
  have hframe : ∀ table, ¬ Planned table → left table = db table := by
    intro table htable
    apply runDeletes_frame hrun
    intro step hstep heq
    obtain ⟨entry, hentry, rfl⟩ := List.mem_map.1 hstep
    exact htable ⟨entry, hentry, heq⟩
  have hevents : ¬ Planned .tenantLifecycleEvents := by
    rintro ⟨entry, hentry, htable⟩
    exact planned_ne_events hentry htable
  refine ⟨?_, ?_, ?_, ?_, ?_⟩
  · rintro table ⟨entry, hentry, rfl⟩
    rw [Function.update_of_ne (planned_ne_events hentry), hpurged.left entry hentry]
    apply List.filter_congr
    intro row hrow
    rw [hselects entry hentry row hrow]
  · rintro table ⟨entry, hentry, rfl⟩ row hrow hclaimed other hother
    rw [← hselects entry hentry row hrow] at hclaimed
    exact selected_unshared hpurged haccepted hconstraints hagree hentry hrow hclaimed hother
  · refine ⟨event, hevent.1, hevent.2, ?_⟩
    rw [Function.update_self, hframe _ hevents]
  · intro table htable hne
    rw [Function.update_of_ne hne, hframe table htable]
  · exact (runDeletes_spec (childrenFirst tenant.scope) hrun).2

theorem purgeEvent_fields {organizationId : Int} {slug : Text} {customerId : Option Int} {actorLabel : Text}
    {details : List (Text × Json)} {eventId occurredAt : Int} {event : SurfaceRow}
    (h : purgeEvent organizationId slug customerId actorLabel details eventId occurredAt = some event) :
    event.eventType = some eventPurgeExecuted ∧ event.organizationId = some organizationId := by
  rw [purgeEvent] at h
  split at h
  · cases h
    exact ⟨rfl, rfl⟩
  · cases h

/-- A purge that raises changes nothing. -/
theorem purgeTransaction_error {error : PurgeError} (h : (purgeTransaction db tenant call).2 = .error error) :
    (purgeTransaction db tenant call).1 = db := by
  rw [purgeTransaction] at h ⊢
  cases hpurge : executePurge db tenant call with
  | error _ => rfl
  | ok result =>
      rw [hpurge] at h
      cases h

theorem purgeTransaction_ok (h : (purgeTransaction db tenant call).2 = .ok counts) :
    executePurge db tenant call = .ok (counts, (purgeTransaction db tenant call).1) := by
  rw [purgeTransaction] at h ⊢
  cases hpurge : executePurge db tenant call with
  | error _ =>
      rw [hpurge] at h
      cases h
  | ok result =>
      rw [hpurge] at h
      cases h
      rfl

/-- A purge that goes through has removed one tenant and nothing else just if no token and no installation names two tenants,
and one that does not has changed nothing. -/
theorem purge_removes_exactly_iff {organizationId : Int} {confirmSlug : Text} (hconstraints : TenantConstraints db)
    (hrefusals : refusals db organizationId confirmSlug = (some tenant, [])) (call : PurgeCall) :
    (∀ error, (purgeTransaction db tenant call).2 = .error error → (purgeTransaction db tenant call).1 = db)
      ∧ ∀ counts, (purgeTransaction db tenant call).2 = .ok counts →
          (RemovedExactly db (purgeTransaction db tenant call).1 tenant counts ↔ KeysAgree db tenant) := by
  obtain ⟨customer, haccepted⟩ := accepted_of_refusals hrefusals
  refine ⟨fun error herror => purgeTransaction_error herror, ?_⟩
  intro counts hok
  obtain ⟨left, event, hrun, hevent, hafter⟩ := executePurge_ok (purgeTransaction_ok hok)
  rw [hafter]
  constructor
  · intro hremoved
    exact keysAgree_of_removed hremoved (purged_of_runDeletes hconstraints hrun) hconstraints
  · intro hagree
    exact removed_of_keysAgree hrun (purgeEvent_fields hevent) haccepted hconstraints hagree

/-- Two tenants, one of which leaves, with agent tokens that are already inactive. -/
def leavingTenants (tokens : List SurfaceRow) : TenantDatabase
  | .organizations =>
      [{ id := some 1, slug := some "alpha".toList, status := some "cancelled".toList, operationalCustomerId := some 10 },
        { id := some 2, slug := some "beta".toList, status := some "active".toList, operationalCustomerId := some 20 }]
  | .customers => [{ id := some 10 }, { id := some 20 }]
  | .branches =>
      [{ id := some 4, organizationId := some 1, operationalBranchId := some 4 },
        { id := some 5, organizationId := some 2, operationalBranchId := some 5 }]
  | .tenantLifecycleEvents => [{ id := some 1, organizationId := some 1, eventType := some eventAccessCutoff }]
  | .checkins =>
      [{ id := some 1, customerId := some 10, branchId := some 4 }, { id := some 2, customerId := some 20, branchId := some 5 }]
  | .agentTokens => tokens
  | _ => []

def leavingTenant : PurgeTenant := ⟨1, "alpha".toList, "cancelled".toList, some 10, [4]⟩

def leavingCall : PurgeCall := ⟨"operator".toList, some "e5a2c7b93d14".toList, 2, 0⟩

/-- A token of the tenant that leaves. -/
def ownToken : SurfaceRow := { customerId := some 10, branchId := some 4, isActive := some false }

/-- A token of the other tenant's customer, at a branch of the tenant that leaves. -/
def pairedToken : SurfaceRow := { customerId := some 20, branchId := some 4, isActive := some false }

theorem keysAgree_ownToken : KeysAgree (leavingTenants [ownToken]) leavingTenant := by
  have hother : ∀ other, OtherTenant (leavingTenants [ownToken]) leavingTenant.organizationId other → other = 2 := by
    rintro other ⟨hne, row, hrow, hid⟩
    rcases List.mem_pair.1 hrow with rfl | rfl
    · exact absurd (Option.some_inj.1 hid).symm hne
    · exact (Option.some_inj.1 hid).symm
  refine ⟨by decide, ?_, ?_⟩
  · intro row hrow _ other hotherTenant
    rw [hother other hotherTenant, List.mem_singleton.1 hrow]
    decide
  · intro row hrow
    cases hrow

theorem planned_inventory (db : TenantDatabase) (tenant : PurgeTenant) : ∀ entry ∈ inventory db tenant, Planned entry.1 := by
  intro entry hentry
  obtain ⟨step, hstep, rfl⟩ := List.mem_map.1 hentry
  obtain ⟨policy, hpolicy, rfl⟩ := List.mem_map.1 hstep
  exact ⟨policy, hpolicy, rfl⟩

/-- The deletes go through for the two tenants, and no survivor is found. -/
theorem leavingTenants_purged :
    ∀ token ∈ [ownToken, pairedToken],
      (runDeletes tenantReferences (leavingTenants [token]) (purgeDeletes leavingTenant.scope)).map
          (fun result => (result.2, (inventory result.1 leavingTenant).all fun entry => entry.2 = 0))
        = some (inventory (leavingTenants [token]) leavingTenant, true) := by
  decide +kernel

theorem purgeTransaction_leavingTenants {token : SurfaceRow} (htoken : token ∈ [ownToken, pairedToken]) :
    (purgeTransaction (leavingTenants [token]) leavingTenant leavingCall).2 = .ok (inventory (leavingTenants [token]) leavingTenant) := by
  obtain ⟨⟨left, deleted⟩, hrun, hresult⟩ := Option.map_eq_some_iff.1 (leavingTenants_purged token htoken)
  obtain ⟨hdeleted, hsurvivors⟩ := Prod.mk.inj hresult
  have hcounts : deleted = inventory (leavingTenants [token]) leavingTenant := hdeleted
  have hrevision : ∀ text ∈ leavingCall.schemaRevision, safeDetailString text = true := by decide
  have hoperator : strip leavingCall.operator ≠ [] := by decide
  have hvalid := validateLifecycleDetails_purgeDetails hrevision (planned_inventory (leavingTenants [token]) leavingTenant)
    leavingTenant.branchIds
  rw [hcounts] at hrun
  refine purgeTransaction_of_runDeletes hrun ?_ (if_pos ⟨hoperator, hvalid⟩)
  intro entry hentry
  simpa using List.all_eq_true.1 hsurvivors entry hentry

theorem purge_removes_exactly_iff_ownToken :
    RemovedExactly (leavingTenants [ownToken]) (purgeTransaction (leavingTenants [ownToken]) leavingTenant leavingCall).1 leavingTenant
      (inventory (leavingTenants [ownToken]) leavingTenant) := by
  have hconstraints : TenantConstraints (leavingTenants [ownToken]) := ⟨by decide, by decide, by decide⟩
  have hrefusals : refusals (leavingTenants [ownToken]) 1 "alpha".toList = (some leavingTenant, []) := by decide
  have hok := @purgeTransaction_leavingTenants ownToken List.mem_cons_self
  exact ((purge_removes_exactly_iff hconstraints hrefusals leavingCall).2 _ hok).2 keysAgree_ownToken

/-- The purge goes through, and the token at the branch of the tenant that left is still there. -/
theorem purge_leaves_pairedToken :
    TenantConstraints (leavingTenants [pairedToken])
      ∧ refusals (leavingTenants [pairedToken]) 1 "alpha".toList = (some leavingTenant, [])
      ∧ (purgeTransaction (leavingTenants [pairedToken]) leavingTenant leavingCall).2
          = .ok (inventory (leavingTenants [pairedToken]) leavingTenant)
      ∧ claimedBy (leavingTenants [pairedToken]) 1 .agentTokens pairedToken = true
      ∧ (purgeTransaction (leavingTenants [pairedToken]) leavingTenant leavingCall).1 .agentTokens = [pairedToken]
      ∧ ¬ RemovedExactly (leavingTenants [pairedToken]) (purgeTransaction (leavingTenants [pairedToken]) leavingTenant leavingCall).1
          leavingTenant (inventory (leavingTenants [pairedToken]) leavingTenant) := by
  have hconstraints : TenantConstraints (leavingTenants [pairedToken]) := ⟨by decide, by decide, by decide⟩
  have hok := @purgeTransaction_leavingTenants pairedToken (List.mem_cons_of_mem _ List.mem_cons_self)
  have hclaimed : claimedBy (leavingTenants [pairedToken]) 1 .agentTokens pairedToken = true := by decide
  have hleft : (purgeTransaction (leavingTenants [pairedToken]) leavingTenant leavingCall).1 .agentTokens = [pairedToken] := by
    obtain ⟨left, event, hrun, -, hafter⟩ := executePurge_ok (purgeTransaction_ok hok)
    have htokens := (purged_of_runDeletes hconstraints hrun).left _ agentTokens_planned
    rw [hafter]
    exact (Function.update_of_ne (planned_ne_events agentTokens_planned) _ _).trans htokens
  refine ⟨hconstraints, by decide, hok, hclaimed, hleft, ?_⟩
  intro hremoved
  have hdeleted := hremoved.deleted .agentTokens ⟨_, agentTokens_planned, rfl⟩
  have hkept : pairedToken ∈ (leavingTenants [pairedToken] .agentTokens).filter
      fun row => !claimedBy (leavingTenants [pairedToken]) leavingTenant.organizationId .agentTokens row := by
    rw [← hdeleted, hleft]
    exact List.mem_singleton_self _
  have hunclaimed := (List.mem_filter.1 hkept).2
  rw [Bool.not_eq_true'] at hunclaimed
  exact Bool.noConfusion (hunclaimed.symm.trans hclaimed)

end SortView
