import SortView.Services.UserAdmin

/-!
# What the parts of the member operations do

One rule for each part, true of every protocol that the rest of the system keeps: what it has read, what it
has locked and written, and the database at the end of it.
-/

namespace SortView

open PyText Transactions Transactions.Protocol Directory

namespace Directory

/-! ### The tables after a write -/

variable (dir : Directory) (organization user : Nat)

@[simp] theorem organizations_log (row : AuditRow) : (dir.log row).organizations = dir.organizations := rfl

@[simp] theorem accounts_log (row : AuditRow) : (dir.log row).accounts = dir.accounts := rfl

@[simp] theorem memberships_log (row : AuditRow) : (dir.log row).memberships = dir.memberships := rfl

@[simp] theorem membership?_log (row : AuditRow) :
    (dir.log row).membership? organization user = dir.membership? organization user := rfl

@[simp] theorem organizations_setMembership (membership : Membership) :
    (dir.setMembership organization user membership).organizations = dir.organizations := rfl

@[simp] theorem accounts_setMembership (membership : Membership) :
    (dir.setMembership organization user membership).accounts = dir.accounts := rfl

@[simp] theorem organizations_setAccount (account : Account) :
    (dir.setAccount user account).organizations = dir.organizations := rfl

@[simp] theorem memberships_setAccount (account : Account) :
    (dir.setAccount user account).memberships = dir.memberships := rfl

theorem modifyMembership_eq {update : Membership → Membership} {membership : Membership}
    (h : dir.memberships.get? (organization, user) = some membership) :
    dir.modifyMembership organization user update = dir.setMembership organization user (update membership) := by
  simp [modifyMembership, h]

/-- A view is a stored membership of a stored account. -/
theorem membership?_eq_some {view : MembershipView} (h : dir.membership? organization user = some view) :
    ∃ membership account, dir.memberships.get? (organization, user) = some membership ∧
      dir.accounts.get? user = some account ∧
      view = ⟨membership.role, membership.removedAt, account.email, account.isActive⟩ := by
  unfold membership? at h
  split at h
  next membership account hmembership haccount => exact ⟨membership, account, hmembership, haccount, by simpa using h.symm⟩
  next => cases h

/-- Who acts as an owner is an active owner. -/
theorem isActiveOwner_of_actorFrom {view : Option MembershipView} {actorUserId : Nat}
    (h : (UserAdmin.actorFrom view actorUserId).role = some .owner) : isActiveOwner view = true := by
  simp only [UserAdmin.actorFrom] at h
  split at h
  next hactive => simp [isActiveOwner, h, hactive]
  next => cases h

end Directory

namespace UserAdmin

variable {α : Type} {protocol : Protocol Directory Row α} {locks : Locks Row} {redo : Directory → Directory}
  {committed : Directory}

/-! ### Reading -/

@[simp] theorem wp_checkPolicy {β : Type} {post : β → Locks Row → (Directory → Directory) → Directory → Prop}
    (check : Except PolicyCode β) :
    protocol.Wp post (checkPolicy check) locks redo committed ↔
      ∀ answer, check = .ok answer → post answer locks redo committed := by
  cases check with
  | ok answer => exact ⟨fun h other heq => (Except.ok.inj heq) ▸ h, fun h => h answer rfl⟩
  | error code => exact ⟨fun _ other heq => (nomatch heq), fun _ => trivial⟩

/-- The organization that was found is locked, and it is editable when its row is read again. -/
theorem wp_lockOrganization {post : Nat × Organization → Locks Row → (Directory → Directory) → Directory → Prop}
    {orgSlug : Text}
    (h : ∀ now organization, protocol.Rely locks committed now → protocol.inv now →
      (redo now).organizations.get? organization.1 = some organization.2 → organization.2.slug = orgSlug →
      organization.2.status.editable = true →
      post organization ((.organization organization.1, .update) :: locks) redo now) :
    protocol.Wp post (lockOrganization orgSlug) locks redo committed := by
  simp only [lockOrganization, wp_bind]
  refine wp_lockFirst (fun _ _ _ _ => trivial) fun before now id hbefore _ _ hnow hinv => ?_
  have hrely := hbefore.trans hnow
  cases hrow : (redo now).organizations.get? id with
  | none => trivial
  | some row =>
      simp only [Option.bind_some]
      split
      next => trivial
      next organization hfound =>
        split at hfound
        next hslug =>
          cases hfound
          simp only [wp_bind, wp_require, wp_pure]
          exact h now (id, row) hrely hinv hrow hslug
        next => cases hfound

theorem wp_findMember {post : MembershipView × Role → Locks Row → (Directory → Directory) → Directory → Prop}
    {organization userId : Nat}
    (h : ∀ now view role, protocol.Rely locks committed now → protocol.inv now →
      (redo now).membership? organization userId = some view → activeRole (some view) = some role →
      post (view, role) locks redo now) :
    protocol.Wp post (findMember organization userId) locks redo committed := by
  simp only [findMember, wp_bind, wp_select]
  intro now hrely hinv
  split
  next view role hview hrole =>
    rw [hview] at hrole
    exact h now view role hrely hinv hview hrole
  next => trivial

theorem wp_keepAnOwner {post : Unit → Locks Row → (Directory → Directory) → Directory → Prop} {organization : Nat}
    {target : MembershipView} (hnot : isActiveOwner (some target) = false → post () locks redo committed)
    (hother : ∀ now, protocol.Rely locks committed now → protocol.inv now →
      2 ≤ (redo now).activeOwnerCount organization → post () locks redo now) :
    protocol.Wp post (keepAnOwner organization target) locks redo committed := by
  unfold keepAnOwner
  split
  next =>
    simp only [requireAnotherActiveOwner, wp_bind, wp_select, wp_require]
    exact hother
  next h => exact hnot (by simpa using h)

theorem wp_platformActor {post : Account → Locks Row → (Directory → Directory) → Directory → Prop} {actorUserId : Nat}
    (h : ∀ now account, protocol.Rely locks committed now → protocol.inv now → post account locks redo now) :
    protocol.Wp post (platformActor actorUserId) locks redo committed := by
  simp only [platformActor, wp_bind, wp_select]
  intro now hrely hinv
  split
  next => trivial
  next account _ =>
    simp only [wp_bind, wp_require, wp_pure]
    exact fun _ => h now account hrely hinv

theorem wp_findAccount {post : Account → Locks Row → (Directory → Directory) → Directory → Prop} {userId : Nat}
    (h : ∀ now account, protocol.Rely locks committed now → protocol.inv now → post account locks redo now) :
    protocol.Wp post (findAccount userId) locks redo committed := by
  simp only [findAccount, wp_bind, wp_select]
  intro now hrely hinv
  split
  next => trivial
  next account _ =>
    simp only [wp_bind, wp_require, wp_pure]
    exact fun _ => h now account hrely hinv

/-! ### Writing -/

theorem wp_logAuthEvent {post : Unit → Locks Row → (Directory → Directory) → Directory → Prop} {eventType : Text}
    {userId : Option Nat} {email : Option Text} {message : Text} {metadata : List (Text × Json)}
    (h : ∀ row, row.eventType = eventType → post () locks (Directory.log row ∘ redo) committed) :
    protocol.Wp post (logAuthEvent eventType userId email message metadata) locks redo committed :=
  h (authRow eventType userId email message metadata) rfl

theorem wp_record {post : Unit → Locks Row → (Directory → Directory) → Directory → Prop} {eventType message orgSlug : Text}
    {actor : Actor} {userId : Nat} {email : Text} {details : List (Text × Json)}
    (h : ∀ row, row.eventType = eventType → post () locks (Directory.log row ∘ redo) committed) :
    protocol.Wp post (record eventType message orgSlug actor userId email details) locks redo committed :=
  wp_logAuthEvent h

theorem wp_updateMembership {post : Bool → Locks Row → (Directory → Directory) → Directory → Prop}
    {organization userId : Nat} {removed : Bool} {update : Membership → Membership}
    (hno : ∀ now more, protocol.Rely locks committed now → protocol.inv now → locks ⊆ more → post false more redo now)
    (hyes : ∀ now more membership, protocol.Rely locks committed now → protocol.inv now → locks ⊆ more →
      (redo now).memberships.get? (organization, userId) = some membership → membership.removedAt.isSome = removed →
      post true more (modifyMembership organization userId update ∘ redo) now) :
    protocol.Wp post (updateMembership organization userId removed update) locks redo committed := by
  refine wp_updateRow hno fun before now hbefore _ hrely hinv hholds => ?_
  obtain ⟨membership, hget, hremoved⟩ := Option.any_eq_true _ _ |>.1 hholds
  exact hyes now _ membership (hbefore.trans hrely) hinv (List.subset_cons_self _ _) hget (by simpa using hremoved)

/-- An account is there already, or it is created, when no account had the address and none has its row. -/
theorem wp_findOrCreateAccount {post : Nat × Account → Locks Row → (Directory → Directory) → Directory → Prop}
    {sqlLower : Text → Text} {email fullName : Text} {draw : Draw}
    (hfound : ∀ now more account, protocol.Rely locks committed now → protocol.inv now → locks ⊆ more →
      (redo now).accountByEmail sqlLower email = some account → post account more redo now)
    (hcreated : ∀ before now more account row, protocol.Rely locks committed before →
      (redo before).accountByEmail sqlLower email = none → protocol.Rely locks before now → protocol.inv now →
      locks ⊆ more → (redo now).accounts.get? draw.newId = none → account.email = lower (strip email) →
      account.isActive = true → row.eventType = "user_create_success".toList →
      post (draw.newId, account) more (Directory.log row ∘ setAccount draw.newId account ∘ redo) now) :
    protocol.Wp post (findOrCreateAccount sqlLower email fullName draw) locks redo committed := by
  simp only [findOrCreateAccount, wp_bind, wp_select]
  intro before hbefore hbeforeInv
  split
  next account hfind => exact hfound before locks account hbefore hbeforeInv (List.Subset.refl _) hfind
  next hnone =>
    unfold createUser
    split
    next => trivial
    next passwordHash hhash =>
      simp only [wp_bind, wp_select, wp_lockRow]
      intro first hfirst _ second hsecond _ now hnow hinv
      have hmore : locks ⊆ (Row.account draw.newId, Mode.update) ::
          (Row.address (sqlLower (lower (strip email))), Mode.update) :: locks :=
        fun _ hmem => .tail _ (.tail _ hmem)
      have hrely : protocol.Rely locks before now :=
        (hfirst.trans (hsecond.mono (List.subset_cons_self _ _))).trans (hnow.mono hmore)
      split
      next hconflict =>
        simp only [wp_pure, wp_bind, wp_select]
        intro later hlater hlaterInv
        split
        next account hfind =>
          exact hfound later _ account ((hbefore.trans hrely).trans (hlater.mono hmore)) hlaterInv hmore hfind
        next => trivial
      next hconflict =>
        simp only [wp_bind, wp_change]
        refine wp_logAuthEvent fun row hrow => ?_
        refine hcreated before now _ _ row hbefore hnone hrely hinv hmore ?_ rfl rfl hrow
        simp only [Bool.or_eq_true, not_or, Option.isSome_iff_ne_none, not_not] at hconflict
        exact hconflict.1

/-- A membership is inserted where there was none, restored where it was removed, or already there. -/
theorem wp_attach {post : Unit → Locks Row → (Directory → Directory) → Directory → Prop} {organization user : Nat}
    {role : Role}
    (hinserted : ∀ before now more, protocol.Rely locks committed before →
      (redo before).memberships.get? (organization, user) = none → protocol.Rely locks before now → protocol.inv now →
      locks ⊆ more → post () more (setMembership organization user ⟨role, none⟩ ∘ redo) now)
    (hrestored : ∀ now more membership, protocol.Rely locks committed now → protocol.inv now → locks ⊆ more →
      (redo now).memberships.get? (organization, user) = some membership → membership.removedAt.isSome = true →
      post () more (modifyMembership organization user (fun _ => ⟨role, none⟩) ∘ redo) now)
    (hno : ∀ now more, protocol.Rely locks committed now → protocol.inv now → locks ⊆ more → post () more redo now) :
    protocol.Wp post (attach organization user role) locks redo committed := by
  simp only [attach, wp_bind, wp_select]
  intro before hbefore _
  split
  next =>
    simp only [insertMembership, wp_bind, wp_select, wp_lockRow, wp_require, wp_change]
    intro first hfirst _ second hsecond _ hfree third hthird _ fourth hfourth _ now hnow hinv _
    have hmore : locks ⊆ (Row.account user, Mode.keyShare) :: (Row.organization organization, Mode.keyShare) ::
        (Row.membership organization user, Mode.update) :: locks :=
      fun _ hmem => .tail _ (.tail _ (.tail _ hmem))
    refine hinserted second now _ ?_ (by simpa using hfree) ?_ hinv hmore
    · exact (hbefore.trans hfirst).trans (hsecond.mono (List.subset_cons_self _ _))
    · refine ((hthird.mono (List.subset_cons_self _ _)).trans (hfourth.mono ?_)).trans (hnow.mono hmore)
      exact fun _ hmem => .tail _ (.tail _ hmem)
  next existing _ =>
    split
    next => trivial
    next =>
      simp only [wp_bind]
      refine wp_updateMembership (fun now more hrely => hno now more (hbefore.trans hrely)) ?_
      exact fun now more membership hrely => hrestored now more membership (hbefore.trans hrely)

theorem wp_setAccountActive {post : Bool → Locks Row → (Directory → Directory) → Directory → Prop} {userId : Nat}
    {isActive : Bool}
    (hno : ∀ now more, protocol.Rely locks committed now → protocol.inv now → locks ⊆ more → post false more redo now)
    (hyes : ∀ now, protocol.Rely locks committed now → protocol.inv now →
      post true ((.account userId, .noKeyUpdate) :: locks)
        (modifyAccount userId (fun account => { account with isActive := isActive }) ∘ redo) now) :
    protocol.Wp post (setAccountActive userId isActive) locks redo committed :=
  wp_updateRow hno fun _ now hbefore _ hrely hinv _ => hyes now (hbefore.trans hrely) hinv

/-! ### The owners that a deactivation checks -/

/-- Since it was locked the organization has been seen with two active owners. -/
def SeenWithTwo (protocol : Protocol Directory Row α) (redo : Directory → Directory) (locks : Locks Row)
    (now : Directory) (organization : Nat) : Prop :=
  ∃ seen, protocol.Rely locks seen now ∧ protocol.inv seen ∧ 2 ≤ (redo seen).activeOwnerCount organization

theorem wp_lockOrganizations {post : Unit → Locks Row → (Directory → Directory) → Directory → Prop} {owned : List Nat}
    (h : ∀ now more, protocol.Rely locks committed now → protocol.inv now → locks ⊆ more →
      (∀ organization, (Row.organization organization, Mode.update) ∈ more →
        (Row.organization organization, Mode.update) ∈ locks ∨ organization ∈ owned) → post () more redo now)
    (hinv : protocol.inv committed) :
    protocol.Wp post (Tx.each owned lockOrganizationById) locks redo committed := by
  refine wp_each (fun rest more redo' now => redo' = redo ∧ rest ⊆ owned ∧ protocol.Rely locks committed now ∧
    protocol.inv now ∧ locks ⊆ more ∧ ∀ organization, (Row.organization organization, Mode.update) ∈ more →
      (Row.organization organization, Mode.update) ∈ locks ∨ organization ∈ owned) ?_ ?_ ?_
  · rintro id rest more redo' now ⟨hredo, hrest, hrely, hnow, hmore, hlocked⟩
    subst hredo
    rw [lockOrganizationById, wp_bind]
    refine wp_lockFirst (fun later hlater hlaterInv _ => ?_) fun before later found hbefore _ hfound hnow hlaterInv => ?_
    · exact ⟨rfl, fun _ hmem => hrest (.tail _ hmem), hrely.trans (hlater.mono hmore), hlaterInv, hmore, hlocked⟩
    · have hlater := hbefore.trans hnow
      refine ⟨rfl, fun _ hmem => hrest (.tail _ hmem), hrely.trans (Rely.mono hlater hmore), hlaterInv,
        fun _ hmem => .tail _ (hmore hmem), fun organization hmem => ?_⟩
      obtain hnew | hold := List.mem_cons.1 hmem
      · cases hnew
        obtain ⟨_, -, rfl⟩ := Option.map_eq_some_iff.1 hfound
        exact .inr (hrest List.mem_cons_self)
      · exact hlocked organization hold
  · rintro more redo' now ⟨hredo, _, hrely, hnow, hmore, hlocked⟩
    subst hredo
    exact h now more hrely hnow hmore hlocked
  · exact ⟨rfl, List.Subset.refl _, .refl, hinv, List.Subset.refl _, fun _ hmem => .inl hmem⟩

theorem wp_requireOwners {post : Unit → Locks Row → (Directory → Directory) → Directory → Prop} {owned : List Nat}
    (h : ∀ now, protocol.Rely locks committed now → protocol.inv now →
      (∀ organization ∈ owned, SeenWithTwo protocol redo locks now organization) → post () locks redo now)
    (hinv : protocol.inv committed) :
    protocol.Wp post (Tx.each owned requireAnotherActiveOwner) locks redo committed := by
  refine wp_each (fun rest more redo' now => redo' = redo ∧ more = locks ∧ protocol.Rely locks committed now ∧
    protocol.inv now ∧ ∀ organization ∈ owned, organization ∈ rest ∨
      SeenWithTwo protocol redo locks now organization) ?_ ?_ ?_
  · rintro id rest more redo' now ⟨hredo, hmore, hrely, hnow, hseen⟩
    subst hredo hmore
    rw [requireAnotherActiveOwner, wp_bind]
    refine fun later hlater hlaterInv => (wp_require _ _ _ _ _).2 fun htwo => ?_
    refine ⟨rfl, rfl, hrely.trans hlater, hlaterInv, fun organization hmem => ?_⟩
    obtain hrest | ⟨seen, hseen⟩ := hseen organization hmem
    · obtain rfl | hrest := List.mem_cons.1 hrest
      · exact .inr ⟨later, .refl, hlaterInv, htwo⟩
      · exact .inl hrest
    · exact .inr ⟨seen, hseen.1.trans hlater, hseen.2⟩
  · rintro more redo' now ⟨hredo, hmore, hrely, hnow, hseen⟩
    subst hredo hmore
    exact h now hrely hnow fun organization hmem =>
      (hseen organization hmem).resolve_left List.not_mem_nil
  · exact ⟨rfl, rfl, .refl, hinv, fun _ hmem => .inl hmem⟩

/-- Every organization that a deactivation has locked it has seen with two active owners. -/
theorem wp_keepOwnersElsewhere {post : Unit → Locks Row → (Directory → Directory) → Directory → Prop} {userId : Nat}
    (h : ∀ now more, protocol.Rely locks committed now → protocol.inv now → locks ⊆ more →
      (∀ organization, (Row.organization organization, Mode.update) ∈ more →
        (Row.organization organization, Mode.update) ∈ locks ∨ SeenWithTwo protocol redo more now organization) →
      post () more redo now) :
    protocol.Wp post (keepOwnersElsewhere userId) locks redo committed := by
  simp only [keepOwnersElsewhere, wp_bind, wp_select]
  intro first hfirst hfirstInv
  refine wp_lockOrganizations (fun second more hsecond hsecondInv hmore hlocked => ?_) hfirstInv
  simp only [wp_select, wp_require]
  intro third hthird hthirdInv _
  refine wp_requireOwners (fun now hnow hinv hseen => ?_) hthirdInv
  refine h now more ((hfirst.trans hsecond).trans (Rely.mono (hthird.trans hnow) hmore)) hinv hmore fun organization hmem => ?_
  exact (hlocked organization hmem).imp_right (hseen organization)

end UserAdmin

end SortView
