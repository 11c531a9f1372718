import SortView.Services.UserAdminRules

/-!
# What a membership call changes

Calls of `add_organization_member`, `change_organization_member_role` and `remove_organization_member`, one
after another. A call that does not commit is rolled back.
-/

namespace SortView

open PyText Transactions Transactions.Protocol Directory UserAdmin

inductive MembershipCall where
  | add (orgSlug email password fullName role : Text) (actorUserId : Nat) (draw : Draw)
  | changeRole (orgSlug : Text) (userId : Nat) (role : Text) (actorUserId : Nat)
  | remove (orgSlug : Text) (userId actorUserId now : Nat)

namespace MembershipCall

def actorUserId : MembershipCall → Nat
  | .add _ _ _ _ _ actorUserId _ => actorUserId
  | .changeRole _ _ _ actorUserId => actorUserId
  | .remove _ _ actorUserId _ => actorUserId

def orgSlug : MembershipCall → Text
  | .add orgSlug _ _ _ _ _ _ => orgSlug
  | .changeRole orgSlug _ _ _ => orgSlug
  | .remove orgSlug _ _ _ => orgSlug

/-- The address of the person to add. -/
def address? : MembershipCall → Option Text
  | .add _ email _ _ _ _ _ => some (lower (strip email))
  | _ => none

variable (sqlLower : Text → Text)

def program : MembershipCall → AdminTx Text
  | .add orgSlug email password fullName role actorUserId draw =>
      addOrganizationMember sqlLower orgSlug email password fullName role actorUserId draw
  | .changeRole orgSlug userId role actorUserId => changeOrganizationMemberRole orgSlug userId role actorUserId
  | .remove orgSlug userId actorUserId now => removeOrganizationMember orgSlug userId actorUserId now

/-- The database after the call, and its answer. -/
def attempt (call : MembershipCall) (dir : Directory) : Directory × Except AdminFailure Text :=
  match (call.program sqlLower).run dir with
  | .ok (answer, after) => (after, .ok answer)
  | .error failure => (dir, .error failure)

def perform (dir : Directory) (call : MembershipCall) : Directory := (call.attempt sqlLower dir).1

/-- The actor of each call is no active owner of its organization when the call is made. -/
def NoActingOwner : Directory → List MembershipCall → Prop
  | _, [] => True
  | dir, call :: calls =>
      (∀ organization row, dir.organizations.get? organization = some row → row.slug = call.orgSlug →
        isActiveOwner (dir.membership? organization call.actorUserId) = false) ∧
      NoActingOwner (call.perform sqlLower dir) calls

end MembershipCall

/-- The role that a membership gives now, whatever the state of the account. -/
def Membership.activeRole (membership : Membership) : Option Role :=
  if membership.removedAt.isSome then none else some membership.role

namespace Directory

def roleOf (dir : Directory) (organization user : Nat) : Option Role :=
  (dir.memberships.get? (organization, user)).bind Membership.activeRole

/-- none < viewer < manager < admin < owner. -/
def rank : Option Role → Nat
  | none => 0
  | some .viewer => 1
  | some .manager => 2
  | some .admin => 3
  | some .owner => 4

/-- The account of the actor is active, and this is the role that it acts with. -/
def actingRole (dir : Directory) (organization user : Nat) : Option Role :=
  (actorFrom (dir.membership? organization user) user).role

theorem rank_le_admin {role : Option Role} (h : role ≠ some .owner) : rank role ≤ rank (some .admin) := by
  rcases role with _ | role
  · exact Nat.zero_le _
  · cases role <;> first | exact absurd rfl h | decide

theorem rank_le_owner (role : Option Role) : rank role ≤ rank (some .owner) := by
  rcases role with _ | role
  · exact Nat.zero_le _
  · cases role <;> decide

theorem roleOf_of_view {dir : Directory} {organization user : Nat} {view : MembershipView}
    (h : dir.membership? organization user = some view) : dir.roleOf organization user = activeRole (some view) := by
  obtain ⟨membership, account, hmembership, -, rfl⟩ := membership?_eq_some dir organization user h
  simp [roleOf, hmembership, activeRole, Membership.activeRole]

/-- Who acts with a role has that role. -/
theorem roleOf_of_actingRole {dir : Directory} {organization user : Nat} {role : Role}
    (h : dir.actingRole organization user = some role) : dir.roleOf organization user = some role := by
  cases hview : dir.membership? organization user with
  | none => simp [actingRole, actorFrom, hview] at h
  | some view =>
      rw [roleOf_of_view hview]
      simp only [actingRole, actorFrom, hview] at h
      split at h
      next => exact h
      next => cases h

end Directory

/-! ### One call -/

/-- What a member may become: who acts without ownership touches no owner and makes none, and who acts on
themself does not rise. -/
structure MayMove (dir : Directory) (organization actorUserId user : Nat) (role : Option Role) : Prop where
  owners : dir.actingRole organization actorUserId = some .owner ∨
    dir.roleOf organization user ≠ some .owner ∧ role ≠ some .owner
  self : user = actorUserId → rank role ≤ rank (dir.roleOf organization user)

/-- The memberships after a call: as they were, or with one of them set as the policy allows. -/
def Moved (dir : Directory) (organization actorUserId : Nat) (memberships : Dict (Nat × Nat) Membership) : Prop :=
  memberships = dir.memberships ∨ ∃ user membership,
    memberships = dir.memberships.set (organization, user) membership ∧
      MayMove dir organization actorUserId user membership.activeRole

/-- The accounts after a call: as they were, or with one more of an address that no account had. -/
def AccountsAfter (sqlLower : Text → Text) (address : Option Text) (dir after : Directory) (created : List AuditRow) : Prop :=
  after.accounts = dir.accounts ∧ created = [] ∨ ∃ email id account row,
    address = some email ∧ dir.accountByEmail sqlLower email = none ∧ dir.accounts.get? id = none ∧
      account.email = lower (strip email) ∧ after.accounts = dir.accounts.set id account ∧ created = [row] ∧ row.eventType = "user_create_success".toList

/-- All that one call changes, with what it has recorded of the membership. -/
structure Effect (sqlLower : Text → Text) (call : MembershipCall) (dir after : Directory) (recorded : List AuditRow) :
    Prop where
  organizations : after.organizations = dir.organizations
  memberships : ∃ organization row, dir.organizations.get? organization = some row ∧ row.slug = call.orgSlug ∧
    Moved dir organization call.actorUserId after.memberships
  records : ∃ created, AccountsAfter sqlLower call.address? dir after created ∧
    after.auditLog = dir.auditLog ++ (created ++ recorded)

theorem Effect.log {sqlLower : Text → Text} {call : MembershipCall} {dir after : Directory}
    (h : Effect sqlLower call dir after []) (row : AuditRow) : Effect sqlLower call dir (after.log row) [row] := by
  obtain ⟨created, haccounts, hlog⟩ := h.records
  refine ⟨h.organizations, h.memberships, created, haccounts, ?_⟩
  show after.auditLog ++ [row] = _
  rw [hlog, List.append_nil, List.append_assoc]

section Effects

variable {sqlLower : Text → Text} {dir : Directory} {organization actorUserId user : Nat}

/-- Someone with no role now is given one. -/
theorem MayMove.of_assign {requested : Text} {role : Role}
    (h : requireMayAssign (dir.actingRole organization actorUserId) requested = .ok role)
    (hnone : dir.roleOf organization user = none) : MayMove dir organization actorUserId user (some role) := by
  obtain ⟨-, hmay⟩ := requireMayAssign_ok h
  refine ⟨?_, fun hself => ?_⟩
  · obtain howner | ⟨-, hrole⟩ := hmay
    · exact .inl howner
    · exact .inr ⟨by simp [hnone], by simpa using hrole⟩
  · obtain howner | ⟨hadmin, -⟩ := hmay
    · simp [hself, roleOf_of_actingRole howner] at hnone
    · simp [hself, roleOf_of_actingRole hadmin] at hnone

/-- A member is given another role. -/
theorem MayMove.of_change {requested : Text} {previous role : Role}
    (h : requireMayChangeRole (dir.actingRole organization actorUserId) (some previous) requested = .ok role)
    (hprevious : dir.roleOf organization user = some previous) :
    MayMove dir organization actorUserId user (some role) := by
  obtain ⟨-, hmay⟩ := requireMayChangeRole_ok h
  refine ⟨?_, fun hself => ?_⟩
  · obtain howner | ⟨-, htarget, hrole⟩ := hmay
    · exact .inl howner
    · exact .inr ⟨hprevious ▸ htarget, by simpa using hrole⟩
  · subst hself
    obtain howner | ⟨hadmin, -, hrole⟩ := hmay
    · rw [roleOf_of_actingRole howner]
      exact rank_le_owner _
    · rw [roleOf_of_actingRole hadmin]
      exact rank_le_admin (by simpa using hrole)

/-- A member is removed. -/
theorem MayMove.of_remove {previous : Role}
    (h : requireMayManage (dir.actingRole organization actorUserId) (some previous) = .ok ())
    (hprevious : dir.roleOf organization user = some previous) :
    MayMove dir organization actorUserId user none := by
  refine ⟨?_, fun _ => Nat.zero_le _⟩
  obtain howner | ⟨-, htarget⟩ := requireMayManage_ok h
  · exact .inl howner
  · exact .inr ⟨hprevious ▸ htarget, by simp⟩

/-- The postcondition of a call that runs alone: it has recorded its change, or there was none. -/
def Ends (sqlLower : Text → Text) (call : MembershipCall) (_ : Text) (_ : Locks Row) (redo : Directory → Directory)
    (dir : Directory) : Prop :=
  ∃ recorded, recorded.length ≤ 1 ∧ Effect sqlLower call dir (redo dir) recorded

/-- What an addition does once it has the account. -/
theorem effect_attach (sqlLower : Text → Text) (call : MembershipCall) (redo : Directory → Directory)
    (created : List AuditRow) {row : Organization} {requested : Text} {role : Role} {locks : Locks Row}
    (horganization : dir.organizations.get? organization = some row) (hslug : row.slug = call.orgSlug)
    (hassign : requireMayAssign (dir.actingRole organization call.actorUserId) requested = .ok role)
    (horganizations : (redo dir).organizations = dir.organizations)
    (hmemberships : (redo dir).memberships = dir.memberships)
    (haccounts : AccountsAfter sqlLower call.address? dir (redo dir) created)
    (hlog : (redo dir).auditLog = dir.auditLog ++ created) :
    (alone : Protocol Directory Row Text).Wp (fun _ _ redo dir => Effect sqlLower call dir (redo dir) [])
      (attach organization user role) locks redo dir := by
  have hset : dir.roleOf organization user = none →
      Effect sqlLower call dir (setMembership organization user ⟨role, none⟩ (redo dir)) [] := by
    intro hnone
    refine ⟨horganizations, ⟨organization, row, horganization, hslug, .inr ⟨user, ⟨role, none⟩, ?_, ?_⟩⟩, created,
      haccounts, hlog.trans (by rw [List.append_nil])⟩
    · rw [← hmemberships]
      rfl
    · exact MayMove.of_assign hassign hnone
  refine wp_attach (fun before now more hbefore hfree hnow _ _ => ?_) (fun now more old hnow _ _ hold hremoved => ?_)
    fun now more hnow _ _ => ?_
  · obtain rfl := rely_alone hbefore
    obtain rfl := rely_alone hnow
    rw [hmemberships] at hfree
    exact hset (by simp [roleOf, hfree])
  · obtain rfl := rely_alone hnow
    show Effect _ _ _ (modifyMembership organization user _ (redo now)) _
    rw [modifyMembership_eq _ _ _ hold]
    rw [hmemberships] at hold
    exact hset (by simp [roleOf, hold, Membership.activeRole, hremoved])
  · obtain rfl := rely_alone hnow
    exact ⟨horganizations, ⟨organization, row, horganization, hslug, .inl hmemberships⟩, created, haccounts,
      by simpa using hlog⟩

theorem ends_record {call : MembershipCall} {answer eventType message orgSlug email : Text} {actor : Actor}
    {userId : Nat} {details : List (Text × Json)} {locks : Locks Row} {redo : Directory → Directory}
    (h : Effect sqlLower call dir (redo dir) []) :
    (alone : Protocol Directory Row Text).Wp
      (fun _ => (alone : Protocol Directory Row Text).Wp (Ends sqlLower call) (pure answer : AdminTx Text))
      (record eventType message orgSlug actor userId email details) locks redo dir :=
  wp_record fun row _ => ⟨[row], Nat.le_refl _, h.log row⟩

theorem ends_add (orgSlug email password fullName role : Text) (actorUserId : Nat) (draw : Draw) :
    (alone : Protocol Directory Row Text).Wp (Ends sqlLower (.add orgSlug email password fullName role actorUserId draw))
      (addOrganizationMember sqlLower orgSlug email password fullName role actorUserId draw) [] id dir := by
  simp only [addOrganizationMember, checkDetails, wp_bind, wp_require]
  intro _
  refine wp_lockOrganization fun now found hnow _ horganization hslug _ => ?_
  obtain rfl := rely_alone hnow
  simp only [actor, wp_select, wp_checkPolicy]
  intro now' hnow' _ newRole hassign
  obtain rfl := rely_alone hnow'
  let call := MembershipCall.add orgSlug email password fullName role actorUserId draw
  refine wp_findOrCreateAccount (fun later more account hlater _ _ _ => ?_)
    fun before later more account row hbefore hnone hlater _ _ hnew hemail _ hevent => ?_
  · obtain rfl := rely_alone hlater
    have hsame : AccountsAfter sqlLower call.address? later later [] := .inl ⟨rfl, rfl⟩
    exact (effect_attach sqlLower call id [] horganization hslug hassign rfl rfl hsame (List.append_nil _).symm).mono
      fun _ _ _ _ heffect => ends_record heffect
  · obtain rfl := rely_alone hbefore
    obtain rfl := rely_alone hlater
    have hcreated : AccountsAfter sqlLower call.address? later (log row (setAccount draw.newId account later)) [row] :=
      .inr ⟨_, draw.newId, account, row, rfl, hnone, hnew, hemail, rfl, rfl, hevent⟩
    exact (effect_attach sqlLower call (log row ∘ setAccount draw.newId account ∘ id) [row] horganization hslug hassign
      rfl rfl hcreated rfl).mono fun _ _ _ _ heffect => ends_record heffect

theorem effect_updateMembership (sqlLower : Text → Text) (call : MembershipCall) {row : Organization} {update : Membership → Membership}
    {locks : Locks Row} (horganization : dir.organizations.get? organization = some row) (hslug : row.slug = call.orgSlug)
    (hmay : ∀ membership, dir.memberships.get? (organization, user) = some membership →
      MayMove dir organization call.actorUserId user (update membership).activeRole) :
    (alone : Protocol Directory Row Text).Wp (fun _ _ redo dir => Effect sqlLower call dir (redo dir) [])
      (updateMembership organization user false update) locks id dir := by
  refine wp_updateMembership (fun now more hnow _ _ => ?_) fun now more membership hnow _ _ hold _ => ?_
  · obtain rfl := rely_alone hnow
    exact ⟨rfl, ⟨organization, row, horganization, hslug, .inl rfl⟩, [], .inl ⟨rfl, rfl⟩, (List.append_nil _).symm⟩
  · obtain rfl := rely_alone hnow
    show Effect _ _ _ (modifyMembership organization user update now) _
    rw [modifyMembership_eq now _ _ hold]
    exact ⟨rfl, ⟨organization, row, horganization, hslug, .inr ⟨user, _, rfl, hmay membership hold⟩⟩, [],
      .inl ⟨rfl, rfl⟩, (List.append_nil _).symm⟩

theorem ends_changeRole (orgSlug : Text) (userId : Nat) (role : Text) (actorUserId : Nat) :
    (alone : Protocol Directory Row Text).Wp (Ends sqlLower (.changeRole orgSlug userId role actorUserId))
      (changeOrganizationMemberRole orgSlug userId role actorUserId) [] id dir := by
  simp only [changeOrganizationMemberRole, wp_bind]
  refine wp_lockOrganization fun now found hnow _ horganization hslug _ => ?_
  obtain rfl := rely_alone hnow
  simp only [actor, wp_select, wp_checkPolicy]
  intro now' hnow' _ _ _
  obtain rfl := rely_alone hnow'
  refine wp_findMember fun later view previous hlater _ hview hprevious => ?_
  obtain rfl := rely_alone hlater
  simp only [wp_checkPolicy]
  intro newRole hchange
  have hrole : later.roleOf found.1 userId = some previous := (roleOf_of_view hview).trans hprevious
  have hactive : ∀ membership, later.memberships.get? (found.1, userId) = some membership →
      membership.activeRole = some previous := by
    intro membership hget
    simpa [roleOf, hget] using hrole
  have hmay : ∀ membership, later.memberships.get? (found.1, userId) = some membership →
      MayMove later found.1 actorUserId userId
        ({ membership with role := newRole } : Membership).activeRole := by
    intro membership hget
    have hnot : membership.removedAt.isSome = false := by
      by_contra hremoved
      simpa [Membership.activeRole, hremoved] using hactive membership hget
    simpa [Membership.activeRole, hnot] using MayMove.of_change hchange hrole
  let call := MembershipCall.changeRole orgSlug userId role actorUserId
  refine (wp_ite _ _ _ _ _ _).2 ⟨fun _ => ?_, fun _ => ?_⟩
  · exact ⟨[], Nat.zero_le _, rfl, ⟨found.1, found.2, horganization, hslug, .inl rfl⟩, [], .inl ⟨rfl, rfl⟩,
      (List.append_nil _).symm⟩
  · simp only [wp_bind, setRole]
    refine wp_keepAnOwner (fun _ => ?_) fun now hnow _ _ => ?_
    on_goal 2 => obtain rfl := rely_alone hnow
    all_goals
      exact (effect_updateMembership sqlLower call horganization hslug hmay).mono
        fun _ _ _ _ heffect => ends_record heffect

theorem ends_remove (orgSlug : Text) (userId actorUserId now : Nat) :
    (alone : Protocol Directory Row Text).Wp (Ends sqlLower (.remove orgSlug userId actorUserId now))
      (removeOrganizationMember orgSlug userId actorUserId now) [] id dir := by
  simp only [removeOrganizationMember, wp_bind]
  refine wp_lockOrganization fun first found hfirst _ horganization hslug _ => ?_
  obtain rfl := rely_alone hfirst
  simp only [actor, wp_select, wp_checkPolicy]
  intro second hsecond _ _ _
  obtain rfl := rely_alone hsecond
  refine wp_findMember fun later view previous hlater _ hview hprevious => ?_
  obtain rfl := rely_alone hlater
  simp only [wp_checkPolicy]
  intro _ hmanage
  have hmay : ∀ membership, later.memberships.get? (found.1, userId) = some membership →
      MayMove later found.1 actorUserId userId
        ({ membership with removedAt := some now } : Membership).activeRole :=
    fun _ _ => MayMove.of_remove hmanage ((roleOf_of_view hview).trans hprevious)
  let call := MembershipCall.remove orgSlug userId actorUserId now
  refine wp_keepAnOwner (fun _ => ?_) fun now hnow _ _ => ?_
  on_goal 2 => obtain rfl := rely_alone hnow
  all_goals
    exact (effect_updateMembership sqlLower call horganization hslug hmay).mono
      fun _ _ _ _ heffect => ends_record heffect

theorem ends_program (call : MembershipCall) :
    (alone : Protocol Directory Row Text).Wp (Ends sqlLower call) (call.program sqlLower) [] id dir := by
  cases call with
  | add orgSlug email password fullName role actorUserId draw => exact ends_add orgSlug email password fullName role actorUserId draw
  | changeRole orgSlug userId role actorUserId => exact ends_changeRole orgSlug userId role actorUserId
  | remove orgSlug userId actorUserId now => exact ends_remove orgSlug userId actorUserId now

end Effects

/-- A call is rolled back, or it has its effect. -/
theorem perform_cases (sqlLower : Text → Text) (call : MembershipCall) (dir : Directory) :
    (∃ failure, call.attempt sqlLower dir = (dir, .error failure)) ∨
      ∃ recorded, recorded.length ≤ 1 ∧ Effect sqlLower call dir (call.perform sqlLower dir) recorded := by
  cases hrun : (call.program sqlLower).run dir with
  | error failure => exact .inl ⟨failure, by simp [MembershipCall.attempt, hrun]⟩
  | ok ended =>
      obtain ⟨answer, after⟩ := ended
      obtain ⟨locks, redo, hends, rfl⟩ := run_of_wp (ends_program call) hrun
      exact .inr (by simpa [MembershipCall.perform, MembershipCall.attempt, hrun, Ends] using hends)

/-! ### Roles over calls -/

/-- The owner memberships: role owner, not removed. -/
def Directory.Owns (dir : Directory) (organization user : Nat) : Prop := dir.roleOf organization user = some .owner

theorem Moved.owns_iff {dir after : Directory} {organization actorUserId : Nat}
    (h : Moved dir organization actorUserId after.memberships)
    (hactor : isActiveOwner (dir.membership? organization actorUserId) = false) (other user : Nat) :
    after.Owns other user ↔ dir.Owns other user := by
  obtain hsame | ⟨target, membership, hset, hmay⟩ := h
  · simp [Owns, roleOf, hsame]
  · simp only [Owns, roleOf, hset, Dict.get?_set]
    split
    next heq =>
      obtain ⟨rfl, rfl⟩ := Prod.mk.inj heq
      obtain howner | ⟨hbefore, hafter⟩ := hmay.owners
      · rw [isActiveOwner_of_actorFrom howner] at hactor
        cases hactor
      · simp only [roleOf] at hbefore
        simp [hbefore, hafter]
    next => rfl

theorem Moved.rank_le {dir after : Directory} {organization actorUserId : Nat}
    (h : Moved dir organization actorUserId after.memberships) (other : Nat) :
    rank (after.roleOf other actorUserId) ≤ rank (dir.roleOf other actorUserId) := by
  obtain hsame | ⟨target, membership, hset, hmay⟩ := h
  · simp [roleOf, hsame]
  · simp only [roleOf, hset, Dict.get?_set]
    split
    next heq =>
      obtain ⟨rfl, rfl⟩ := Prod.mk.inj heq
      exact hmay.self rfl
    next => exact Nat.le_refl _

theorem perform_rank_le (sqlLower : Text → Text) (call : MembershipCall) (dir : Directory) (organization : Nat) :
    rank ((call.perform sqlLower dir).roleOf organization call.actorUserId) ≤
      rank (dir.roleOf organization call.actorUserId) := by
  obtain ⟨failure, hfailed⟩ | ⟨recorded, -, heffect⟩ := perform_cases sqlLower call dir
  · simp [MembershipCall.perform, hfailed]
  · obtain ⟨_, _, -, -, hmoved⟩ := heffect.memberships
    exact hmoved.rank_le organization

/-- Calls by actors who own nothing leave all owner memberships as they are. -/
theorem owns_performAll (sqlLower : Text → Text) (calls : List MembershipCall) (dir : Directory)
    (hactors : MembershipCall.NoActingOwner sqlLower dir calls) (organization user : Nat) :
    (calls.foldl (MembershipCall.perform sqlLower) dir).Owns organization user ↔ dir.Owns organization user := by
  induction calls generalizing dir with
  | nil => rfl
  | cons call calls ih =>
      obtain ⟨hactor, hactors⟩ := hactors
      refine (ih (call.perform sqlLower dir) hactors).trans ?_
      obtain ⟨failure, hfailed⟩ | ⟨recorded, -, heffect⟩ := perform_cases sqlLower call dir
      · simp [MembershipCall.perform, hfailed]
      · obtain ⟨id, row, hrow, hslug, hmoved⟩ := heffect.memberships
        exact hmoved.owns_iff (hactor id row hrow hslug) organization user

/-! ### Main results -/

/-- All that a call may change: one membership of the organization it names, one more account of an address that
no account had, and one record besides the one of that account. -/
structure Confined (sqlLower : Text → Text) (call : MembershipCall) (dir after : Directory) : Prop where
  organizations : after.organizations = dir.organizations
  memberships : after.memberships = dir.memberships ∨ ∃ organization row user membership,
    dir.organizations.get? organization = some row ∧ row.slug = call.orgSlug ∧
      after.memberships = dir.memberships.set (organization, user) membership
  records : ∃ created recorded, AccountsAfter sqlLower call.address? dir after created ∧ recorded.length ≤ 1 ∧
    after.auditLog = dir.auditLog ++ (created ++ recorded)

theorem Confined.refl (sqlLower : Text → Text) (call : MembershipCall) (dir : Directory) :
    Confined sqlLower call dir dir :=
  ⟨rfl, .inl rfl, [], [], .inl ⟨rfl, rfl⟩, Nat.zero_le _, (List.append_nil _).symm⟩

theorem confined_perform (sqlLower : Text → Text) (call : MembershipCall) (dir : Directory) :
    Confined sqlLower call dir (call.perform sqlLower dir) := by
  obtain ⟨failure, hfailed⟩ | ⟨recorded, hrecorded, heffect⟩ := perform_cases sqlLower call dir
  · simpa [MembershipCall.perform, hfailed] using Confined.refl sqlLower call dir
  · obtain ⟨created, haccounts, hlog⟩ := heffect.records
    obtain ⟨id, row, hrow, hslug, hmoved⟩ := heffect.memberships
    refine ⟨heffect.organizations, ?_, created, recorded, haccounts, hrecorded, hlog⟩
    exact hmoved.imp_right fun ⟨user, membership, hset, _⟩ => ⟨id, row, user, membership, hrow, hslug, hset⟩

/-- Membership calls neither escalate nor spill over. -/
theorem membership_calls_confined (sqlLower : Text → Text) :
    (∀ dir calls, MembershipCall.NoActingOwner sqlLower dir calls → ∀ organization user,
      ((calls.foldl (MembershipCall.perform sqlLower) dir).Owns organization user ↔ dir.Owns organization user)) ∧
    (∀ dir call organization, rank ((MembershipCall.perform sqlLower dir call).roleOf organization call.actorUserId) ≤
      rank (dir.roleOf organization call.actorUserId)) ∧
    (∀ dir call, Confined sqlLower call dir (MembershipCall.perform sqlLower dir call)) ∧
    ∀ dir call failure, (MembershipCall.attempt sqlLower call dir).2 = .error failure →
      MembershipCall.perform sqlLower dir call = dir := by
  refine ⟨fun dir calls hactors => owns_performAll sqlLower calls dir hactors,
    fun dir call => perform_rank_le sqlLower call dir, fun dir call => confined_perform sqlLower call dir,
    fun dir call failure hfailure => ?_⟩
  simp only [MembershipCall.perform, MembershipCall.attempt] at hfailure ⊢
  split
  next hrun =>
    rw [hrun] at hfailure
    cases hfailure
  next => rfl

/-- A library whose one member is its owner. -/
def oneOwner : Directory where
  organizations := Dict.empty.set 1 ⟨"library".toList, .active⟩
  accounts := Dict.empty.set 1 ⟨"owner@library".toList, "Owner".toList, "hash".toList, true, false⟩
  memberships := Dict.empty.set (1, 1) ⟨.owner, none⟩
  auditLog := []

def addNewPerson : MembershipCall :=
  .add "library".toList "new@library".toList "secret".toList "New".toList "viewer".toList 1 ⟨2, some "hash".toList⟩

/-- Adding someone without an account records the account and the membership. -/
theorem adding_a_new_person_records_twice :
    ((addNewPerson.perform lower oneOwner).auditLog.map AuditRow.eventType =
      ["user_create_success".toList, "membership_added".toList]) ∧
    ¬ ∃ recorded, recorded.length ≤ 1 ∧ (addNewPerson.perform lower oneOwner).auditLog = oneOwner.auditLog ++ recorded := by
  have hevents : (addNewPerson.perform lower oneOwner).auditLog.map AuditRow.eventType =
      ["user_create_success".toList, "membership_added".toList] := by decide +kernel
  refine ⟨hevents, fun ⟨recorded, hlength, hlog⟩ => ?_⟩
  have htwo := congrArg List.length hevents
  rw [hlog, List.length_map] at htwo
  simp only [oneOwner, List.nil_append, List.length_cons, List.length_nil] at htwo
  omega

end SortView
