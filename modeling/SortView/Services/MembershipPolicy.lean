import Mathlib.Data.List.Basic
import SortView.Lib.Text

/-!
# Who may change whose membership

`services/membership_policy.py`. A requested role is any text; the checks that assign one answer with the
role it names. `none` as a role is someone who is not a member now.
-/

namespace SortView

open PyText

/-- The roles a membership can hold, most authority first. -/
inductive Role where
  | owner
  | admin
  | manager
  | viewer
  deriving DecidableEq, Repr

namespace Role

def text : Role → Text
  | .owner => "owner".toList
  | .admin => "admin".toList
  | .manager => "manager".toList
  | .viewer => "viewer".toList

/-- `ROLES`. -/
def all : List Role := [.owner, .admin, .manager, .viewer]

/-- `is_role`, with the role that the text is. -/
def ofText? (value : Text) : Option Role := all.find? fun role => role.text = value

/-- `ADMINISTERING_ROLES`. -/
def administers : Role → Bool
  | .owner | .admin => true
  | .manager | .viewer => false

end Role

/-- Why a change was refused: the `code` of a `MembershipPolicyError`. -/
inductive PolicyCode where
  | notPermitted
  | ownerRequired
  | invalidRole
  deriving DecidableEq, Repr

def PolicyCode.text : PolicyCode → Text
  | .notPermitted => "not_permitted".toList
  | .ownerRequired => "owner_required".toList
  | .invalidRole => "invalid_role".toList

def PolicyCode.message : PolicyCode → Text
  | .notPermitted => "You do not have permission to manage this organization's users.".toList
  | .ownerRequired => "Only an owner of the organization can do that.".toList
  | .invalidRole => "That is not a role a user can be given.".toList

def requireAdministrator (actorRole : Option Role) : Except PolicyCode Unit :=
  if actorRole.any Role.administers then .ok () else .error .notPermitted

def requireMayAssign (actorRole : Option Role) (newRole : Text) : Except PolicyCode Role := do
  requireAdministrator actorRole
  match Role.ofText? newRole with
  | none => .error .invalidRole
  | some role => if role = .owner ∧ actorRole ≠ some .owner then .error .ownerRequired else .ok role

def requireMayManage (actorRole targetRole : Option Role) : Except PolicyCode Unit := do
  requireAdministrator actorRole
  if targetRole = some .owner ∧ actorRole ≠ some .owner then .error .ownerRequired else .ok ()

def requireMayChangeRole (actorRole targetRole : Option Role) (newRole : Text) : Except PolicyCode Role := do
  requireMayManage actorRole targetRole
  requireMayAssign actorRole newRole

/-! ### What the checks let through -/

theorem Role.text_injective {left right : Role} (h : left.text = right.text) : left = right := by
  cases left <;> cases right <;> first | rfl | exact absurd h (by decide)

@[simp] theorem Role.ofText?_text (role : Role) : Role.ofText? role.text = some role := by
  cases role <;> decide

theorem requireAdministrator_ok {actorRole : Option Role} (h : requireAdministrator actorRole = .ok ()) :
    actorRole = some .owner ∨ actorRole = some .admin := by
  unfold requireAdministrator at h
  rcases actorRole with _ | role
  · cases h
  · cases role <;> first | exact .inl rfl | exact .inr rfl | cases h

/-- An assignment is made by an owner, or by an admin who does not give ownership. -/
theorem requireMayAssign_ok {actorRole : Option Role} {newRole : Text} {role : Role}
    (h : requireMayAssign actorRole newRole = .ok role) :
    Role.ofText? newRole = some role ∧ (actorRole = some .owner ∨ actorRole = some .admin ∧ role ≠ .owner) := by
  unfold requireMayAssign at h
  cases hadmin : requireAdministrator actorRole with
  | error code =>
      rw [hadmin] at h
      cases h
  | ok =>
      rw [hadmin] at h
      cases hrole : Role.ofText? newRole with
      | none => simp [hrole, bind, Except.bind] at h
      | some named =>
          simp only [hrole, bind, Except.bind] at h
          split at h
          next => cases h
          next hrefused =>
            cases h
            refine ⟨rfl, ?_⟩
            obtain howner | hadmin := requireAdministrator_ok hadmin
            · exact .inl howner
            · exact .inr ⟨hadmin, fun howner => hrefused ⟨howner, by simp [hadmin]⟩⟩

/-- A member is managed by an owner, or by an admin if not an owner. -/
theorem requireMayManage_ok {actorRole targetRole : Option Role} (h : requireMayManage actorRole targetRole = .ok ()) :
    actorRole = some .owner ∨ actorRole = some .admin ∧ targetRole ≠ some .owner := by
  unfold requireMayManage at h
  cases hadmin : requireAdministrator actorRole with
  | error code =>
      rw [hadmin] at h
      cases h
  | ok =>
      simp only [hadmin, bind, Except.bind] at h
      split at h
      next => cases h
      next hrefused =>
        obtain howner | hadmin := requireAdministrator_ok hadmin
        · exact .inl howner
        · exact .inr ⟨hadmin, fun howner => hrefused ⟨howner, by simp [hadmin]⟩⟩

theorem requireMayChangeRole_ok {actorRole targetRole : Option Role} {newRole : Text} {role : Role}
    (h : requireMayChangeRole actorRole targetRole newRole = .ok role) :
    Role.ofText? newRole = some role ∧
      (actorRole = some .owner ∨ actorRole = some .admin ∧ targetRole ≠ some .owner ∧ role ≠ .owner) := by
  unfold requireMayChangeRole at h
  cases hmanage : requireMayManage actorRole targetRole with
  | error code =>
      rw [hmanage] at h
      cases h
  | ok =>
      rw [hmanage] at h
      obtain ⟨hrole, hassign⟩ := requireMayAssign_ok h
      refine ⟨hrole, ?_⟩
      obtain howner | ⟨hadmin, hnew⟩ := hassign
      · exact .inl howner
      · obtain howner | ⟨-, htarget⟩ := requireMayManage_ok hmanage
        · exact .inl howner
        · exact .inr ⟨hadmin, htarget, hnew⟩

end SortView
