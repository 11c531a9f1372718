import Mathlib.Data.List.Sort
import SortView.Lib.Case
import SortView.Lib.Dict
import SortView.Lib.Json
import SortView.Lib.Transactions
import SortView.Services.MembershipPolicy

/-!
# Administering members and accounts

`services/user_admin_service.py`, with what it uses of `services/auth_service.py`, as transactions over the
four tables that they read and write. A membership is named by its organization and its user, on which its
table is unique. The sessions that a deactivation ends are left out: nothing here reads them.
-/

namespace SortView

open PyText Transactions

/-! ### The tables -/

inductive OrganizationStatus where
  | active
  | trial
  | suspended
  | cancelled
  deriving DecidableEq, Repr

/-- `_EDITABLE_STATUSES`. -/
def OrganizationStatus.editable : OrganizationStatus → Bool
  | .active | .trial => true
  | .suspended | .cancelled => false

structure Organization where
  slug : Text
  status : OrganizationStatus

structure Account where
  email : Text
  fullName : Text
  passwordHash : Text
  isActive : Bool
  isPlatformAdmin : Bool

structure Membership where
  role : Role
  removedAt : Option Nat

structure AuditRow where
  userId : Option Nat
  email : Option Text
  eventType : Text
  isSuccess : Bool
  message : Text
  metadata : Json

structure Directory where
  organizations : Dict Nat Organization
  accounts : Dict Nat Account
  memberships : Dict (Nat × Nat) Membership
  auditLog : List AuditRow

namespace Directory

/-- What is locked: a row of a table, or the address that a unique index of the accounts holds. -/
inductive Row where
  | organization (id : Nat)
  | account (id : Nat)
  | address (email : Text)
  | membership (organization user : Nat)
  deriving DecidableEq

/-- `_ORGANIZATION_BY_SLUG_SQL`. -/
def organizationBySlug (dir : Directory) (slug : Text) : Option Nat :=
  (dir.organizations.entries.find? fun entry => entry.2.slug = slug).map Prod.fst

/-- A membership of an organization, removed or not, with the state of its account. -/
structure MembershipView where
  role : Role
  removedAt : Option Nat
  email : Text
  isActive : Bool

/-- `_MEMBERSHIP_SQL`. -/
def membership? (dir : Directory) (organization user : Nat) : Option MembershipView :=
  match dir.memberships.get? (organization, user), dir.accounts.get? user with
  | some membership, some account => some ⟨membership.role, membership.removedAt, account.email, account.isActive⟩
  | _, _ => none

/-- `_active_role`. -/
def activeRole : Option MembershipView → Option Role
  | some view => if view.removedAt.isSome then none else some view.role
  | none => none

/-- `_is_active_owner`. -/
def isActiveOwner (view : Option MembershipView) : Bool :=
  activeRole view = some .owner && view.any fun view => view.isActive

/-- `_ACTIVE_OWNER_COUNT_SQL`. -/
def activeOwnerCount (dir : Directory) (organization : Nat) : Nat :=
  (dir.memberships.keys.filter fun key =>
    key.1 = organization && isActiveOwner (dir.membership? key.1 key.2)).length

/-- `_ACTIVELY_OWNED_ORGANIZATIONS_SQL`: lowest id first, without the cancelled. -/
def activelyOwned (dir : Directory) (user : Nat) : List Nat :=
  (dir.organizations.keys.filter fun organization =>
    isActiveOwner (dir.membership? organization user) &&
      (dir.organizations.get? organization).any fun row => row.status ≠ .cancelled).insertionSort (· ≤ ·)

/-- `_FIND_ACCOUNT_SQL` and `_ACCOUNT_BY_EMAIL_SQL`, where `sqlLower` is the database's `lower`. -/
def accountByEmail (sqlLower : Text → Text) (dir : Directory) (email : Text) : Option (Nat × Account) :=
  dir.accounts.entries.find? fun entry => sqlLower entry.2.email = email

def setMembership (organization user : Nat) (membership : Membership) (dir : Directory) : Directory :=
  { dir with memberships := dir.memberships.set (organization, user) membership }

def modifyMembership (organization user : Nat) (update : Membership → Membership) (dir : Directory) : Directory :=
  match dir.memberships.get? (organization, user) with
  | some membership => setMembership organization user (update membership) dir
  | none => dir

def setAccount (user : Nat) (account : Account) (dir : Directory) : Directory :=
  { dir with accounts := dir.accounts.set user account }

def modifyAccount (user : Nat) (update : Account → Account) (dir : Directory) : Directory :=
  match dir.accounts.get? user with
  | some account => setAccount user (update account) dir
  | none => dir

def log (row : AuditRow) (dir : Directory) : Directory :=
  { dir with auditLog := dir.auditLog ++ [row] }

end Directory

open Directory

/-! ### What is refused -/

/-- The `code` of a refusal. -/
inductive AdminCode where
  | policy (code : PolicyCode)
  | organizationNotFound
  | organizationNotEditable
  | memberNotFound
  | alreadyMember
  | lastOwner
  | invalidMemberDetails
  | memberNotAdded
  | platformAdminRequired
  | userNotFound
  | platformAdminAccount
  | concurrentChange
  | ownerExists
  | accountInactive
  deriving DecidableEq, Repr

def AdminCode.text : AdminCode → Text
  | .policy code => code.text
  | .organizationNotFound => "organization_not_found".toList
  | .organizationNotEditable => "organization_not_editable".toList
  | .memberNotFound => "member_not_found".toList
  | .alreadyMember => "already_member".toList
  | .lastOwner => "last_owner".toList
  | .invalidMemberDetails => "invalid_member_details".toList
  | .memberNotAdded => "member_not_added".toList
  | .platformAdminRequired => "platform_admin_required".toList
  | .userNotFound => "user_not_found".toList
  | .platformAdminAccount => "platform_admin_account".toList
  | .concurrentChange => "concurrent_change".toList
  | .ownerExists => "owner_exists".toList
  | .accountInactive => "account_inactive".toList

def AdminCode.message : AdminCode → Text
  | .policy code => code.message
  | .organizationNotFound => "Organization not found.".toList
  | .organizationNotEditable => "This organization does not currently allow administrative changes.".toList
  | .memberNotFound => "That user is not a member of this organization.".toList
  | .alreadyMember => "That user already belongs to this organization.".toList
  | .lastOwner => "An organization must keep at least one active owner. Make someone else an owner first.".toList
  | .invalidMemberDetails => "Enter an email address and a temporary password.".toList
  | .memberNotAdded => ("The user could not be created. Please check the details and try again. " ++
      "If this keeps happening, contact SortView support.").toList
  | .platformAdminRequired => "Only a platform administrator can change whether an account is active.".toList
  | .userNotFound => "User not found.".toList
  | .platformAdminAccount => "Platform administrator accounts cannot be changed here.".toList
  | .concurrentChange => ("This account's organizations changed while it was being updated. " ++
      "Nothing was changed; try again.").toList
  | .ownerExists => "This organization already has an active owner. Its owners add everyone else.".toList
  | .accountInactive => "That account is switched off, so it cannot be made an owner.".toList

/-- How a call ends when it does not commit: refused, or with an error of the database. -/
inductive AdminFailure where
  | refused (code : AdminCode)
  | uniqueViolation
  | foreignKeyViolation
  deriving DecidableEq, Repr

/-- A transaction of these services. -/
abbrev AdminTx := Tx Directory Row AdminFailure

namespace UserAdmin

def refuse {α : Type} (code : AdminCode) : AdminTx α := Tx.refuse (.refused code)

/-- A check of the policy, whose refusal abandons the transaction. -/
def checkPolicy {α : Type} : Except PolicyCode α → AdminTx α
  | .ok answer => pure answer
  | .error code => refuse (.policy code)

/-! ### Reading what a decision needs -/

/-- `_lock_organization`. -/
def lockOrganization (orgSlug : Text) : AdminTx (Nat × Organization) := do
  match ← Tx.lockFirst .update (fun dir => dir.organizationBySlug orgSlug) Row.organization (fun id dir =>
      (dir.organizations.get? id).bind fun row => if row.slug = orgSlug then some (id, row) else none) with
  | none => refuse .organizationNotFound
  | some organization => do
      Tx.require organization.2.status.editable (.refused .organizationNotEditable)
      pure organization

structure Actor where
  userId : Nat
  email : Option Text
  role : Option Role

/-- `_actor`: the role is none if the account is not active. -/
def actorFrom (view : Option MembershipView) (actorUserId : Nat) : Actor where
  userId := actorUserId
  email := view.map fun view => view.email
  role := if view.any fun view => view.isActive then activeRole view else none

def actor (organization actorUserId : Nat) : AdminTx Actor :=
  Tx.select fun dir => actorFrom (dir.membership? organization actorUserId) actorUserId

/-- `_require_another_active_owner`. -/
def requireAnotherActiveOwner (organization : Nat) : AdminTx Unit := do
  let owners ← Tx.select fun dir => dir.activeOwnerCount organization
  Tx.require (2 ≤ owners) (.refused .lastOwner)

/-! ### The record -/

/-- The row that `log_auth_event_with_connection` writes. -/
def authRow (eventType : Text) (userId : Option Nat) (email : Option Text) (message : Text)
    (metadata : List (Text × Json)) : AuditRow where
  userId := userId
  email := (email.filter fun email => email ≠ []).map fun email => lower (strip email)
  eventType := eventType
  isSuccess := true
  message := message
  metadata := .object metadata

def logAuthEvent (eventType : Text) (userId : Option Nat) (email : Option Text) (message : Text)
    (metadata : List (Text × Json)) : AdminTx Unit :=
  Tx.change (Directory.log (authRow eventType userId email message metadata))

def optionalText (value : Option Text) : Json := (value.map Json.text).getD .null

/-- `_record`. -/
def record (eventType message : Text) (orgSlug : Text) (actor : Actor) (userId : Nat) (email : Text)
    (details : List (Text × Json)) : AdminTx Unit :=
  logAuthEvent eventType (some userId) (some email) message
    (("org_slug".toList, .text orgSlug) :: details ++
      [("actor_user_id".toList, .int actor.userId), ("actor_email".toList, optionalText actor.email)])

def roleDetails (previousRole role : Option Role) : List (Text × Json) :=
  [("previous_role".toList, optionalText (previousRole.map Role.text)),
    ("role".toList, optionalText (role.map Role.text))]

/-! ### Accounts and memberships that are added -/

/-- What the database and the hash draw for one new account: its id, and the hash of its password, none when
hashing raises `ValueError`. -/
structure Draw where
  newId : Nat
  passwordHash : Option Text

variable (sqlLower : Text → Text)

/-- `create_user_with_connection`: `INSERT ... ON CONFLICT DO NOTHING`, which waits for another insert of the
address and writes nothing when there is an account with it. -/
def createUser (email fullName : Text) (draw : Draw) : AdminTx (Option (Nat × Account)) :=
  match draw.passwordHash with
  | none => refuse .memberNotAdded
  | some passwordHash => do
      let account : Account := ⟨lower (strip email), strip fullName, passwordHash, true, false⟩
      Tx.lockRow (.address (sqlLower account.email)) .update
      Tx.lockRow (.account draw.newId) .update
      let conflict ← Tx.select fun dir =>
        (dir.accounts.get? draw.newId).isSome || dir.accounts.entries.any fun entry =>
          entry.2.email = account.email || sqlLower entry.2.email = sqlLower account.email
      if conflict then pure none
      else do
        Tx.change (setAccount draw.newId account)
        logAuthEvent "user_create_success".toList (some draw.newId) (some account.email)
          "User created successfully.".toList []
        pure (some (draw.newId, account))

/-- The account with the address, created if there is none. -/
def findOrCreateAccount (email fullName : Text) (draw : Draw) : AdminTx (Nat × Account) := do
  match ← Tx.select fun dir => dir.accountByEmail sqlLower email with
  | some account => pure account
  | none => do
      match ← createUser sqlLower email fullName draw with
      | some account => pure account
      | none => do
          -- created by someone else in this same instant
          match ← Tx.select fun dir => dir.accountByEmail sqlLower email with
          | some account => pure account
          | none => refuse .memberNotAdded

/-- `_INSERT_MEMBERSHIP_SQL`. -/
def insertMembership (organization user : Nat) (role : Role) : AdminTx Unit := do
  Tx.lockRow (.membership organization user) .update
  let taken ← Tx.select fun dir => (dir.memberships.get? (organization, user)).isSome
  Tx.require (taken = false) .uniqueViolation
  Tx.lockRow (.organization organization) .keyShare
  Tx.lockRow (.account user) .keyShare
  let referenced ← Tx.select fun dir =>
    (dir.organizations.get? organization).isSome && (dir.accounts.get? user).isSome
  Tx.require referenced .foreignKeyViolation
  Tx.change (setMembership organization user ⟨role, none⟩)

/-- An `UPDATE` of one membership, if it is as `removed` says. -/
def updateMembership (organization user : Nat) (removed : Bool) (update : Membership → Membership) : AdminTx Bool :=
  let holds : Directory → Bool := fun dir =>
    (dir.memberships.get? (organization, user)).any fun row => row.removedAt.isSome = removed
  Tx.updateRow (.membership organization user) .noKeyUpdate holds holds (modifyMembership organization user update)

/-- `_RESTORE_MEMBERSHIP_SQL`. -/
def restoreMembership (organization user : Nat) (role : Role) : AdminTx Bool :=
  updateMembership organization user true fun _ => ⟨role, none⟩

/-- A membership with the role: a new one, or the one that was removed. -/
def attach (organization user : Nat) (role : Role) : AdminTx Unit := do
  match ← Tx.select fun dir => dir.membership? organization user with
  | none => insertMembership organization user role
  | some existing =>
      if existing.removedAt = none then refuse .alreadyMember
      else do
        let _ ← restoreMembership organization user role
        pure ()

/-! ### The operations -/

def checkDetails (email password : Text) : AdminTx Unit :=
  Tx.require ('@' ∈ email ∧ password ≠ []) (.refused .invalidMemberDetails)

/-- `add_organization_member`. -/
def addOrganizationMember (orgSlug email password fullName role : Text) (actorUserId : Nat) (draw : Draw) :
    AdminTx Text := do
  let normalizedEmail := lower (strip email)
  checkDetails normalizedEmail password
  let organization ← lockOrganization orgSlug
  let actor ← actor organization.1 actorUserId
  let newRole ← checkPolicy (requireMayAssign actor.role role)
  let account ← findOrCreateAccount sqlLower normalizedEmail fullName draw
  attach organization.1 account.1 newRole
  record "membership_added".toList "User added to organization.".toList organization.2.slug actor account.1
    account.2.email (roleDetails none (some newRole))
  pure ("The user was added to this organization. If they already had a SortView account, " ++
    "their existing password is unchanged.").toList

/-- `_ACCOUNT_SQL` and the check that the actor is an active platform administrator. -/
def platformActor (actorUserId : Nat) : AdminTx Account := do
  match ← Tx.select fun dir => dir.accounts.get? actorUserId with
  | none => refuse .platformAdminRequired
  | some account => do
      Tx.require (account.isActive ∧ account.isPlatformAdmin) (.refused .platformAdminRequired)
      pure account

/-- `assign_first_owner`. -/
def assignFirstOwner (orgSlug email password fullName : Text) (actorUserId : Nat) (draw : Draw) : AdminTx Text := do
  let normalizedEmail := lower (strip email)
  checkDetails normalizedEmail password
  let actor ← platformActor actorUserId
  let organization ← lockOrganization orgSlug
  let owners ← Tx.select fun dir => dir.activeOwnerCount organization.1
  Tx.require (owners = 0) (.refused .ownerExists)
  let account ← findOrCreateAccount sqlLower normalizedEmail fullName draw
  Tx.require (account.2.isPlatformAdmin = false) (.refused .platformAdminAccount)
  Tx.require account.2.isActive (.refused .accountInactive)
  attach organization.1 account.1 .owner
  record "membership_added".toList "First owner assigned to organization.".toList organization.2.slug
    ⟨actorUserId, some actor.email, none⟩ account.1 account.2.email
    (roleDetails none (some .owner) ++ [("scope".toList, .text "platform_first_owner".toList)])
  pure ("The first owner was assigned. If they already had a SortView account, " ++
    "their existing password is unchanged.").toList

/-- The member that an operation is about, with the role that the membership gives now. -/
def findMember (organization userId : Nat) : AdminTx (MembershipView × Role) := do
  let target ← Tx.select fun dir => dir.membership? organization userId
  match target, activeRole target with
  | some view, some role => pure (view, role)
  | _, _ => refuse .memberNotFound

/-- Another active owner is required if the member is one. -/
def keepAnOwner (organization : Nat) (target : MembershipView) : AdminTx Unit :=
  if isActiveOwner (some target) then requireAnotherActiveOwner organization else pure ()

/-- `_SET_ROLE_SQL` and its record. -/
def setRole (organization : Nat × Organization) (actor : Actor) (userId : Nat) (email : Text)
    (previousRole newRole : Role) : AdminTx Unit := do
  let _ ← updateMembership organization.1 userId false fun row => { row with role := newRole }
  record "membership_role_updated".toList "Organization role updated.".toList organization.2.slug actor userId email
    (roleDetails (some previousRole) (some newRole))

/-- `change_organization_member_role`. -/
def changeOrganizationMemberRole (orgSlug : Text) (userId : Nat) (role : Text) (actorUserId : Nat) : AdminTx Text := do
  let organization ← lockOrganization orgSlug
  let actor ← actor organization.1 actorUserId
  checkPolicy (requireAdministrator actor.role)
  let (target, previousRole) ← findMember organization.1 userId
  let newRole ← checkPolicy (requireMayChangeRole actor.role (some previousRole) role)
  if newRole = previousRole then pure "User role updated.".toList
  else do
    keepAnOwner organization.1 target
    setRole organization actor userId target.email previousRole newRole
    pure "User role updated.".toList

/-- `remove_organization_member`. -/
def removeOrganizationMember (orgSlug : Text) (userId actorUserId now : Nat) : AdminTx Text := do
  let organization ← lockOrganization orgSlug
  let actor ← actor organization.1 actorUserId
  checkPolicy (requireAdministrator actor.role)
  let (target, previousRole) ← findMember organization.1 userId
  checkPolicy (requireMayManage actor.role (some previousRole))
  keepAnOwner organization.1 target
  let _ ← updateMembership organization.1 userId false fun row => { row with removedAt := some now }
  record "membership_removed".toList "User removed from organization.".toList organization.2.slug actor userId
    target.email (roleDetails (some previousRole) none)
  pure "User removed from this organization.".toList

/-- Locks the organization, if it is there. -/
def lockOrganizationById (organization : Nat) : AdminTx Unit := do
  let _ ← Tx.lockFirst .update
    (fun dir => (dir.organizations.get? organization).map fun _ => organization) Row.organization
    fun id dir => (dir.organizations.get? id).map fun _ => id
  pure ()

/-- What a deactivation checks first: each organization that the account actively owns is locked and must have
another active owner. -/
def keepOwnersElsewhere (userId : Nat) : AdminTx Unit := do
  let owned ← Tx.select fun dir => dir.activelyOwned userId
  Tx.each owned lockOrganizationById
  let ownedNow ← Tx.select fun dir => dir.activelyOwned userId
  Tx.require (ownedNow = owned) (.refused .concurrentChange)
  Tx.each owned requireAnotherActiveOwner

def checkOwners (userId : Nat) (isActive : Bool) : AdminTx Unit :=
  if isActive then pure () else keepOwnersElsewhere userId

/-- `_SET_ACCOUNT_ACTIVE_SQL`. -/
def setAccountActive (userId : Nat) (isActive : Bool) : AdminTx Bool :=
  Tx.updateRow (.account userId) .noKeyUpdate (fun dir => (dir.accounts.get? userId).isSome)
    (fun dir => (dir.accounts.get? userId).isSome) (modifyAccount userId fun account => { account with isActive := isActive })

/-- The account that a platform operation is about, which is no platform administrator's. -/
def findAccount (userId : Nat) : AdminTx Account := do
  match ← Tx.select fun dir => dir.accounts.get? userId with
  | none => refuse .userNotFound
  | some target => do
      Tx.require (target.isPlatformAdmin = false) (.refused .platformAdminAccount)
      pure target

/-- `set_global_account_active`. -/
def setGlobalAccountActive (userId : Nat) (isActive : Bool) (actorUserId : Nat) : AdminTx Text := do
  let actor ← platformActor actorUserId
  let target ← findAccount userId
  checkOwners userId isActive
  let _ ← setAccountActive userId isActive
  logAuthEvent "user_status_updated".toList (some userId) (some target.email) "Account status updated.".toList
    [("scope".toList, .text "account".toList), ("previous_is_active".toList, .bool target.isActive),
      ("is_active".toList, .bool isActive), ("actor_user_id".toList, .int actorUserId),
      ("actor_email".toList, .text actor.email)]
  pure "Account status updated.".toList

end UserAdmin

end SortView
