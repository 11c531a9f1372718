import SortView.Services.Offboarding

/-!
# What the writes to the registry guarantee

The operations on installations, codes, keys and tokens, interleaved statement by statement: what each may do
to a table when it commits, and with which locks. Everything that a transaction has read under its own locks
stays true because of what all the others guarantee.
-/

namespace SortView

open PyText Transactions Transactions.Protocol Tables Registry Enrollment AdminInstallations Offboarding

/-! ### Calls -/

/-- One call of an operation, with what it draws. -/
inductive RegistryCall where
  | createEnrollmentCode (installationId : Nat) (createdByUserId expectedOrganizationId : Option Nat)
      (ttl issuedAt clock : Nat) (draw : CodeDraw)
  | issueEnrollmentCode (library : Library) (installationId : Nat) (actor : PlatformActor) (ttl issuedAt clock : Nat)
      (draw : CodeDraw)
  | redeemEnrollmentCode (rawCode : Text) (contractVersion : Option Int) (now clock : Nat) (draw : RedemptionDraw)
  | issueIngestKey (customerId branchId : Nat) (draw : IngestKeys.KeyDraw)
  | retireIngestKey (keyId : Text) (clock : Nat)
  | issueRecovery (library : Library) (installationId : Nat) (actor : PlatformActor) (draw : TokenDraw)
  | insertInstallation (new : NewInstallation) (rowId : Nat)
  | createInstallation (library : Library) (name : Text) (requiredContract : Int) (actor : PlatformActor) (rowId : Nat)
  | renameInstallation (library : Library) (installationId : Nat) (name : Text) (actor : PlatformActor)
  | changeStatus (library : Library) (installationId : Nat) (status : Text) (actor : PlatformActor)
  | offboardLibrary (organizationId : Nat) (confirmSlug : Text) (actorUserId : Option Nat) (actorLabel : Text)
      (adminActor : Option PlatformActor) (clock : Nat)

/-- What a call answers when it commits. -/
inductive RegistryAnswer where
  | code (issued : IssuedCode)
  | enrolled (result : EnrollmentResult)
  | key (keyId : Text)
  | retired (found : Bool)
  | recovered (token : RecoveryToken)
  | installed (row : InstallationRow)
  | changed (view : InstallationView)
  | offboarded (result : OffboardingResult)

/-- The hashes of the codes that may be drawn, and whether a code stays with its transaction until that has committed. -/
structure Secrecy where
  drawn : Text → Prop
  kept : Prop

namespace RegistryCall

variable (sha256 : Text → Text) (reader : SettingsReader)

/-- The transaction of a call. -/
def program : RegistryCall → RegistryTx RegistryAnswer
  | .createEnrollmentCode installationId createdByUserId expectedOrganizationId ttl issuedAt clock draw => do
      let issued ← Enrollment.createEnrollmentCode sha256 installationId createdByUserId expectedOrganizationId ttl issuedAt
        clock draw
      pure (.code issued)
  | .issueEnrollmentCode library installationId actor ttl issuedAt clock draw => do
      let issued ← AdminInstallations.issueEnrollmentCode sha256 library installationId actor ttl issuedAt clock draw
      pure (.code issued)
  | .redeemEnrollmentCode rawCode contractVersion now clock draw => do
      let result ← Enrollment.redeemEnrollmentCode sha256 reader rawCode contractVersion now clock draw
      pure (.enrolled result)
  | .issueIngestKey customerId branchId draw => do
      let keyId ← IngestKeys.issueIngestKey customerId branchId none none draw
      pure (.key keyId)
  | .retireIngestKey keyId clock => do
      let found ← IngestKeys.retireIngestKey keyId clock
      pure (.retired found)
  | .issueRecovery library installationId actor draw => do
      let token ← AdminInstallations.issueRecovery sha256 library installationId actor draw
      pure (.recovered token)
  | .insertInstallation new rowId => do
      let row ← insertCollectorInstallation new rowId
      pure (.installed row)
  | .createInstallation library name requiredContract actor rowId => do
      let added ← AdminInstallations.createInstallation reader library name requiredContract actor rowId
      pure (.installed added.1)
  | .renameInstallation library installationId name actor => do
      let view ← AdminInstallations.renameInstallation library installationId name actor
      pure (.changed view)
  | .changeStatus library installationId status actor => do
      let view ← AdminInstallations.changeStatus library installationId status actor
      pure (.changed view)
  | .offboardLibrary organizationId confirmSlug actorUserId actorLabel adminActor clock => do
      let result ← Offboarding.offboardLibrary organizationId confirmSlug actorUserId actorLabel adminActor clock
      pure (.offboarded result)

/-- The hash of the code that a call draws. -/
def draws? : RegistryCall → Option Text
  | .createEnrollmentCode _ _ _ _ _ _ draw => some (sha256 (formatEnrollmentCode draw.characters))
  | .issueEnrollmentCode _ _ _ _ _ _ draw => some (sha256 (formatEnrollmentCode draw.characters))
  | _ => none

/-- The hash of the code that a call presents. -/
def presents? : RegistryCall → Option Text
  | .redeemEnrollmentCode rawCode _ _ _ _ => (normalizeEnrollmentCode rawCode).map sha256
  | _ => none

/-- A call draws a code of this kind, and while codes are kept secret it presents one only once the transaction that
drew it has committed. -/
structure KeepsSecrets (secret : Secrecy) (reg : Registry) (call : RegistryCall) : Prop where
  draws : ∀ hash ∈ call.draws? sha256, secret.drawn hash
  presents : secret.kept → ∀ hash ∈ call.presents? sha256, secret.drawn hash →
    ∃ id row, reg.codes.get? id = some row ∧ row.codeHash = hash

/-- Calls in any number. -/
def Starts (secret : Secrecy) : Registry → RegistryTx RegistryAnswer → Prop :=
  Calls (program sha256 reader) (KeepsSecrets sha256 secret)

end RegistryCall

/-! ### Facts about the tables -/

namespace Registry

variable (reg : Registry)

/-- The customer and the branch are the operational pair of the organization. -/
def MappedPair (organization customer branch : Nat) : Prop :=
  (∃ row, reg.organizations.get? organization = some row ∧ row.operationalCustomerId = some customer) ∧
    ∃ row, reg.branches.get? branch = some row ∧ row.organizationId = organization ∧ row.operationalBranchId = some branch

/-- What the schema promises of the rows. -/
structure Constraints : Prop where
  customers : ∀ id id' row row' customer, reg.organizations.get? id = some row → reg.organizations.get? id' = some row' →
    row.operationalCustomerId = some customer → row'.operationalCustomerId = some customer → id = id'
  branches : ∀ id row branch, reg.branches.get? id = some row → row.operationalBranchId = some branch → branch = id
  codeHashes : ∀ id id' row row', reg.codes.get? id = some row → reg.codes.get? id' = some row' →
    row.codeHash = row'.codeHash → id = id'
  codeOwners : ∀ id row, reg.codes.get? id = some row → (reg.installations.get? row.installationId).isSome
  tokenOwners : ∀ id row owner, reg.tokens.get? id = some row → row.installationId = some owner →
    (reg.installations.get? owner).isSome
  keyOwners : ∀ id row owner, reg.keys.get? id = some row → row.installationId = some owner →
    ∃ installation, reg.installations.get? owner = some installation ∧ installation.branchId = row.branchId

/-- The token is bound to an installation of the organization, or is under its customer id. -/
def TenantToken (organization : Nat) (token : TokenRow) : Prop :=
  (∃ row, reg.organizations.get? organization = some row ∧ row.operationalCustomerId = some token.customerId) ∨
    ∃ owner row, token.installationId = some owner ∧ reg.installations.get? owner = some row ∧
      row.organizationId = organization

def NoActiveToken (organization : Nat) : Prop :=
  ∀ id token, reg.tokens.get? id = some token → reg.TenantToken organization token → token.isActive = false

def NoOpenCode (organization : Nat) : Prop :=
  ∀ id code row, reg.codes.get? id = some code → reg.installations.get? code.installationId = some row →
    row.organizationId = organization → code.isOpen = false

def NoActiveKey (organization : Nat) : Prop :=
  ∀ id key, reg.keys.get? id = some key → reg.MappedPair organization key.customerId key.branchId → key.isActive = false

/-- No credential of the organization can be used. -/
structure CutOff (organization : Nat) : Prop where
  tokens : reg.NoActiveToken organization
  codes : reg.NoOpenCode organization
  keys : reg.NoActiveKey organization

def AllRetired (organization : Nat) : Prop :=
  ∀ id row, reg.installations.get? id = some row → row.organizationId = organization → row.status = .retired

def Cancelled (organization : Nat) : Prop :=
  ∃ row, reg.organizations.get? organization = some row ∧ row.status = .cancelled

/-- The installation owns an active key of the pair of its own branch. -/
def OwnsTenantKey (id : Nat) (installation : InstallationRow) : Prop :=
  ∃ keyRow key, reg.keys.get? keyRow = some key ∧ key.isActive = true ∧ key.installationId = some id ∧
    key.branchId = installation.branchId ∧
    reg.MappedPair installation.organizationId key.customerId key.branchId

end Registry

/-! ### What every transaction guarantees -/

section Guarantee

variable (secret : Secrecy) (answer : RegistryAnswer) (locks : Locks Row) (before after : Registry)

/-- A lock under which a row may be changed. -/
def WriteLocked (row : Row) : Prop := (row, Mode.noKeyUpdate) ∈ locks ∨ (row, Mode.update) ∈ locks

/-- A lock under which no one else changes a row. -/
def Held (row : Row) : Prop := ∃ mode, mode ≠ .keyShare ∧ (row, mode) ∈ locks

/-- No one else cancels the organization or retires its installations: it is held, or a code of it is, which an
offboarding would have to revoke. -/
def Shielded (organization : Nat) : Prop :=
  Held locks (.organization organization) ∨ ∃ codeId code installation, Held locks (.code codeId) ∧
    before.codes.get? codeId = some code ∧ code.isOpen = true ∧
    before.installations.get? code.installationId = some installation ∧ installation.organizationId = organization

/-- The code could be redeemed, and now it is used. -/
def Redeems (codeId : Nat) : Prop :=
  ∃ code code', before.codes.get? codeId = some code ∧ code.isOpen = true ∧ after.codes.get? codeId = some code' ∧
    code'.usedAt.isSome

/-- An organization is only cancelled, by an offboarding. -/
def Cancels (id : Nat) (row row' : OrganizationRow) : Prop :=
  row' = row.cancel ∧ ∃ result, answer = .offboarded result ∧ result.organizationId = id

structure ChangesInstallation (id : Nat) (row row' : InstallationRow) : Prop where
  organization : row'.organizationId = row.organizationId
  branch : row'.branchId = row.branchId
  locked : WriteLocked locks (.installation id)
  retired : row.status = .retired → row'.status = .retired
  retires : row.status ≠ .retired → row'.status = .retired →
    (WriteLocked locks (.branch row.branchId) ∨
      ∃ result, answer = .offboarded result ∧ result.organizationId = row.organizationId) ∧
      ¬ after.OwnsTenantKey id row

structure AddsInstallation (id : Nat) (row : InstallationRow) : Prop where
  key : (Row.installation id, Mode.update) ∈ locks
  organization : (Row.organization row.organizationId, Mode.keyShare) ∈ locks
  answer : answer = .installed row

def ChangesCode (id : Nat) (row row' : CodeRow) : Prop :=
  WriteLocked locks (.code id) ∧ ∃ clock, row' = row.revoke clock ∨ row' = row.claim clock

structure AddsCode (id : Nat) (row : CodeRow) : Prop where
  key : (Row.code id, Mode.update) ∈ locks
  drawn : secret.drawn row.codeHash
  unique : ∀ id' row', before.codes.get? id' = some row' → row'.codeHash ≠ row.codeHash
  hash : (Row.codeHash row.codeHash, Mode.update) ∈ locks
  locked : (Row.installation row.installationId, Mode.update) ∈ locks
  installation : ∃ installation, before.installations.get? row.installationId = some installation ∧
    installation.status ≠ .retired ∧ ¬ before.Cancelled installation.organizationId
  unused : row.usedAt = none
  alone : ∀ id' row', after.codes.get? id' = some row' → row'.installationId = row.installationId → row'.isOpen = true →
    id' = id

def DeactivatesToken (_ : Nat) (row row' : TokenRow) : Prop := row' = row.deactivate

structure AddsToken (id : Nat) (row : TokenRow) : Prop where
  key : (Row.token id, Mode.update) ∈ locks
  bound : ∃ owner installation organization, row.installationId = some owner ∧
    before.installations.get? owner = some installation ∧
    (secret.kept → Held locks (.organization installation.organizationId)) ∧
    before.organizations.get? installation.organizationId = some organization ∧ organization.status ≠ .cancelled ∧
    organization.operationalCustomerId = some row.customerId
  enrolled : ∀ codeId, row.enrolledBy = some codeId → Redeems before after codeId

def RetiresKey (_ : Nat) (row row' : KeyRow) : Prop := ∃ clock, row' = row.retire clock

structure AddsKey (id : Nat) (row : KeyRow) : Prop where
  key : (Row.key id, Mode.update) ∈ locks
  locked : WriteLocked locks (.branch row.branchId)
  tenant : ∃ organization, Shielded locks before organization ∧ ¬ before.Cancelled organization ∧
    before.MappedPair organization row.customerId row.branchId ∧
    ∀ owner, row.installationId = some owner → ∃ installation, before.installations.get? owner = some installation ∧
      installation.branchId = row.branchId ∧ installation.organizationId = organization ∧ installation.status ≠ .retired
  first : before.hasActiveKey row.customerId row.branchId = false
  enrolled : ∀ codeId, row.enrolledBy = some codeId → Redeems before after codeId

structure AddsCutover (id : Nat) (row : BranchCutoverRow) : Prop where
  key : (Row.cutover id, Mode.update) ∈ locks
  locked : WriteLocked locks (.branch row.branchId)
  mapped : ∃ organization, before.MappedPair organization row.customerId row.branchId
  first : before.hasAnyCutover row.customerId row.branchId = false
  enrolled : ∀ codeId, row.enrolledBy = some codeId → Redeems before after codeId

/-- What one commit may do to the tables. -/
structure RegistryMoves : Prop where
  branches : after.branches = before.branches
  customers : after.customers = before.customers
  organizations : TableMoves (Cancels answer) (fun _ _ => False) before.organizations after.organizations
  installations : TableMoves (ChangesInstallation answer locks after) (AddsInstallation answer locks) before.installations
    after.installations
  codes : TableMoves (ChangesCode locks) (AddsCode secret locks before after) before.codes after.codes
  tokens : TableMoves DeactivatesToken (AddsToken secret locks before after) before.tokens after.tokens
  keys : TableMoves RetiresKey (AddsKey locks before after) before.keys after.keys
  cutovers : TableMoves (fun _ _ _ => False) (AddsCutover locks before after) before.cutovers after.cutovers
  offboarding : ∀ result, answer = .offboarded result → (Row.organization result.organizationId, Mode.update) ∈ locks
  offboarded : ∀ result, answer = .offboarded result → after.Cancelled result.organizationId ∧
    after.NoOpenCode result.organizationId ∧ after.NoActiveKey result.organizationId ∧
    (secret.kept → after.NoActiveToken result.organizationId) ∧ after.AllRetired result.organizationId

end Guarantee

/-- The protocol of the registry, with a condition on commits. -/
def registryProtocol (secret : Secrecy) (permits : RegistryAnswer → Locks Row → Registry → Prop) :
    Protocol Registry Row RegistryAnswer where
  inv := Constraints
  permits := permits
  guar := RegistryMoves secret

end SortView
