import SortView.Services.UserAdminRules

/-!
# An organization keeps an active owner

The five operations that change who owns what, interleaved statement by statement. Under the lock of an
organization its memberships stay as they are and its active owners stay active, provided that no account is
switched off while it owns an organization that the transaction has not locked.
-/

namespace SortView

open PyText Transactions Transactions.Protocol Directory UserAdmin

/-- One call of an operation that changes memberships or accounts. -/
inductive OwnerCall where
  | add (orgSlug email password fullName role : Text) (actorUserId : Nat) (draw : Draw)
  | assignFirst (orgSlug email password fullName : Text) (actorUserId : Nat) (draw : Draw)
  | changeRole (orgSlug : Text) (userId : Nat) (role : Text) (actorUserId : Nat)
  | remove (orgSlug : Text) (userId actorUserId now : Nat)
  | setActive (userId : Nat) (isActive : Bool) (actorUserId : Nat)

namespace OwnerCall

variable (sqlLower : Text → Text)

def operation : OwnerCall → AdminTx Text
  | .add orgSlug email password fullName role actorUserId draw =>
      addOrganizationMember sqlLower orgSlug email password fullName role actorUserId draw
  | .assignFirst orgSlug email password fullName actorUserId draw =>
      assignFirstOwner sqlLower orgSlug email password fullName actorUserId draw
  | .changeRole orgSlug userId role actorUserId => changeOrganizationMemberRole orgSlug userId role actorUserId
  | .remove orgSlug userId actorUserId now => removeOrganizationMember orgSlug userId actorUserId now
  | .setActive userId isActive actorUserId => setGlobalAccountActive userId isActive actorUserId

/-- The transaction of a call, which answers with the call and its message. -/
def program (call : OwnerCall) : AdminTx (OwnerCall × Text) := do
  let message ← call.operation sqlLower
  pure (call, message)

/-- Any calls by any actors may start. -/
def Starts : Directory → AdminTx (OwnerCall × Text) → Prop := Calls (program sqlLower) fun _ _ => True

end OwnerCall

namespace Directory

variable (dir : Directory) (organization user : Nat)

def ActiveOwner : Prop := isActiveOwner (dir.membership? organization user) = true

def HasActiveOwner : Prop := ∃ user, dir.ActiveOwner organization user

/-- The organization is there and not cancelled. -/
def Live : Prop := ∃ row, dir.organizations.get? organization = some row ∧ row.status ≠ .cancelled

end Directory

/-- The account that a call switches off. -/
def OwnerCall.deactivates? : OwnerCall → Option Nat
  | .setActive userId isActive _ => if isActive then none else some userId
  | _ => none

/-- A deactivation commits only when every live organization that the account actively owns is locked. -/
def OwnedAreLocked (answer : OwnerCall × Text) (locks : Locks Row) (dir : Directory) : Prop :=
  ∀ userId ∈ answer.1.deactivates?, ∀ organization ∈ dir.activelyOwned userId,
    (Row.organization organization, Mode.update) ∈ locks

instance (answer : OwnerCall × Text) (locks : Locks Row) (dir : Directory) : Decidable (OwnedAreLocked answer locks dir) :=
  inferInstanceAs (Decidable (∀ userId ∈ answer.1.deactivates?, ∀ organization ∈ dir.activelyOwned userId,
    (Row.organization organization, Mode.update) ∈ locks))

/-! ### What every transaction guarantees -/

/-- Memberships and active owners of an organization change only under its lock, and none loses its last
active owner. -/
structure KeepsOwners (locks : Locks Row) (before after : Directory) : Prop where
  organizations : after.organizations = before.organizations
  memberships : ∀ organization user, (Row.organization organization, Mode.update) ∉ locks →
    after.memberships.get? (organization, user) = before.memberships.get? (organization, user)
  active : ∀ organization user, (Row.organization organization, Mode.update) ∉ locks → before.Live organization →
    before.ActiveOwner organization user → after.ActiveOwner organization user
  owners : ∀ organization, before.Live organization → before.HasActiveOwner organization →
    after.HasActiveOwner organization

def ownersProtocol : Protocol Directory Row (OwnerCall × Text) where
  inv _ := True
  permits := OwnedAreLocked
  guar _ locks before after := KeepsOwners locks before after

section Rely

variable {locks theirs : Locks Row} {before after : Directory} {organization user : Nat}

theorem not_mem_of_compatible (h : Compatible locks theirs)
    (hlock : (Row.organization organization, Mode.update) ∈ locks) :
    (Row.organization organization, Mode.update) ∉ theirs :=
  fun hmem => absurd (h _ _ _ hlock hmem) (by decide)

theorem rely_organizations (h : ownersProtocol.Rely locks before after) :
    after.organizations = before.organizations :=
  h.keeps trivial (fun dir => dir.organizations = before.organizations)
    (fun _ _ _ _ _ _ hguar _ _ hsame => hguar.organizations.trans hsame) rfl

theorem rely_live (h : ownersProtocol.Rely locks before after) (hlive : before.Live organization) :
    after.Live organization := by
  unfold Live at hlive ⊢
  rwa [rely_organizations h]

/-- Under the lock of an organization its memberships stay as they are. -/
theorem rely_memberships (h : ownersProtocol.Rely locks before after)
    (hlock : (Row.organization organization, Mode.update) ∈ locks) :
    after.memberships.get? (organization, user) = before.memberships.get? (organization, user) :=
  h.keeps trivial
    (fun dir => dir.memberships.get? (organization, user) = before.memberships.get? (organization, user))
    (fun _ _ _ _ hcompatible _ hguar _ _ hsame =>
      (hguar.memberships _ _ (not_mem_of_compatible hcompatible hlock)).trans hsame) rfl

/-- Under the lock of a live organization its active owners stay active owners. -/
theorem rely_activeOwner (h : ownersProtocol.Rely locks before after)
    (hlock : (Row.organization organization, Mode.update) ∈ locks) (hlive : before.Live organization)
    (howner : before.ActiveOwner organization user) : after.ActiveOwner organization user :=
  (h.keeps trivial (fun dir => dir.Live organization ∧ dir.ActiveOwner organization user)
    (fun _ _ _ _ hcompatible _ hguar _ _ hfact => by
      refine ⟨?_, hguar.active _ _ (not_mem_of_compatible hcompatible hlock) hfact.1 hfact.2⟩
      unfold Live
      rw [hguar.organizations]
      exact hfact.1) ⟨hlive, howner⟩).2

end Rely

/-! ### Owners beside one -/

/-- Two active owners are more than any one. -/
theorem exists_other_owner {dir : Directory} {organization : Nat} (h : 2 ≤ dir.activeOwnerCount organization)
    (user : Nat) : ∃ keeper, keeper ≠ user ∧ dir.ActiveOwner organization keeper := by
  by_contra hnone
  have hall : ∀ key ∈ dir.memberships.keys.filter fun key =>
      key.1 = organization && isActiveOwner (dir.membership? key.1 key.2), key = (organization, user) := by
    intro key hkey
    obtain ⟨-, hkey⟩ := List.mem_filter.1 hkey
    simp only [Bool.and_eq_true, decide_eq_true_eq] at hkey
    obtain ⟨rfl, hactive⟩ := hkey
    by_contra hne
    exact hnone ⟨key.2, fun huser => hne (Prod.ext rfl huser), hactive⟩
  have hnodup : (dir.memberships.keys.filter fun key =>
      key.1 = organization && isActiveOwner (dir.membership? key.1 key.2)).Nodup := dir.memberships.nodup.filter _
  rw [List.eq_replicate_of_mem hall, List.nodup_replicate] at hnodup
  exact absurd (h.trans hnodup) (by decide)

theorem activeOwnerCount_pos {dir : Directory} {organization : Nat} :
    0 < dir.activeOwnerCount organization ↔ dir.HasActiveOwner organization := by
  simp only [activeOwnerCount, List.length_pos_iff_exists_mem, List.mem_filter, Bool.and_eq_true, decide_eq_true_eq]
  constructor
  · rintro ⟨key, _, hkey, howner⟩
    subst hkey
    exact ⟨key.2, howner⟩
  · rintro ⟨user, howner⟩
    refine ⟨(organization, user), ?_, rfl, howner⟩
    by_contra hmem
    have hnone := (Dict.get?_eq_none_iff _ _).2 hmem
    simp [ActiveOwner, membership?, hnone, isActiveOwner, activeRole] at howner

/-- The organization would keep an active owner without this member: it is no owner, or there is another. -/
def Spare (organization user : Nat) (dir : Directory) : Prop :=
  (∀ membership, dir.memberships.get? (organization, user) = some membership → membership.removedAt = none →
    membership.role ≠ .owner) ∨ ∃ keeper, keeper ≠ user ∧ dir.ActiveOwner organization keeper

theorem Spare.later {locks : Locks Row} {before after : Directory} {organization user : Nat}
    (h : Spare organization user before) (hrely : ownersProtocol.Rely locks before after)
    (hlock : (Row.organization organization, Mode.update) ∈ locks) (hlive : before.Live organization) :
    Spare organization user after := by
  obtain hnot | ⟨keeper, hne, howner⟩ := h
  · exact .inl fun membership hget => hnot membership (by rwa [rely_memberships hrely hlock] at hget)
  · exact .inr ⟨keeper, hne, rely_activeOwner hrely hlock hlive howner⟩

/-! ### What the writes do to active owners -/

section Writes

variable {dir : Directory} {organization user : Nat}

theorem activeOwner_iff : dir.ActiveOwner organization user ↔ ∃ membership account,
    dir.memberships.get? (organization, user) = some membership ∧ dir.accounts.get? user = some account ∧
      membership.role = .owner ∧ membership.removedAt = none ∧ account.isActive = true := by
  unfold ActiveOwner membership?
  cases dir.memberships.get? (organization, user) with
  | none => simp [isActiveOwner, activeRole]
  | some membership =>
      cases dir.accounts.get? user with
      | none => simp [isActiveOwner, activeRole]
      | some account =>
          cases hremoved : membership.removedAt <;> simp [isActiveOwner, activeRole, hremoved]

/-- Who is an active owner is a matter of one membership and one account. -/
theorem Directory.ActiveOwner.congr {after : Directory} (h : dir.ActiveOwner organization user)
    (hmembership : after.memberships.get? (organization, user) = dir.memberships.get? (organization, user))
    (haccount : after.accounts.get? user = dir.accounts.get? user) : after.ActiveOwner organization user := by
  rw [activeOwner_iff] at h ⊢
  rwa [hmembership, haccount]

theorem Directory.ActiveOwner.setAccount {account : Account} (hactive : account.isActive = true) {other : Nat}
    (h : dir.ActiveOwner organization user) : (dir.setAccount other account).ActiveOwner organization user := by
  rw [activeOwner_iff] at h ⊢
  obtain ⟨membership, stored, hmembership, haccount, hrole, hremoved, hstored⟩ := h
  obtain rfl | hne := eq_or_ne user other
  · exact ⟨membership, account, hmembership, Dict.get?_set_self _ _ _, hrole, hremoved, hactive⟩
  · exact ⟨membership, stored, hmembership, (Dict.get?_set_of_ne _ _ hne).trans haccount, hrole, hremoved, hstored⟩

theorem mem_activelyOwned_iff : organization ∈ dir.activelyOwned user ↔
    dir.ActiveOwner organization user ∧ dir.Live organization := by
  simp only [activelyOwned, List.mem_insertionSort, List.mem_filter, Bool.and_eq_true, Option.any_eq_true,
    decide_eq_true_eq]
  constructor
  · rintro ⟨_, howner, hlive⟩
    exact ⟨howner, hlive⟩
  · rintro ⟨howner, row, hrow, hstatus⟩
    refine ⟨?_, howner, row, hrow, hstatus⟩
    by_contra hmem
    rw [(Dict.get?_eq_none_iff _ _).2 hmem] at hrow
    cases hrow

end Writes

/-! ### Commits -/

/-- Writes that leave organizations, memberships and active owners. -/
structure Harmless (redo : Directory → Directory) : Prop where
  organizations : ∀ dir, (redo dir).organizations = dir.organizations
  memberships : ∀ dir, (redo dir).memberships = dir.memberships
  active : ∀ dir organization user, dir.ActiveOwner organization user → (redo dir).ActiveOwner organization user

theorem harmless_id : Harmless id := ⟨fun _ => rfl, fun _ => rfl, fun _ _ _ h => h⟩

theorem harmless_setAccount {account : Account} (hactive : account.isActive = true) (user : Nat) (row : AuditRow) :
    Harmless (log row ∘ setAccount user account ∘ id) :=
  ⟨fun _ => rfl, fun _ => rfl, fun _ _ _ h => h.setAccount hactive⟩

theorem harmless_reactivate (user : Nat) : Harmless (modifyAccount user fun account => { account with isActive := true }) := by
  have hcases : ∀ dir, modifyAccount user (fun account => { account with isActive := true }) dir = dir ∨
      ∃ account : Account, account.isActive = true ∧
        modifyAccount user (fun account => { account with isActive := true }) dir = dir.setAccount user account := by
    intro dir
    unfold modifyAccount
    split
    · exact .inr ⟨_, rfl, rfl⟩
    · exact .inl rfl
  refine ⟨fun dir => ?_, fun dir => ?_, fun dir organization other h => ?_⟩
  all_goals
    obtain hsame | ⟨account, hactive, hset⟩ := hcases dir
    · simp_all
    · rw [hset]
      first | rfl | exact h.setAccount hactive

variable {answer : OwnerCall × Text} {locks : Locks Row} {redo : Directory → Directory} {now : Directory}
  {organization user : Nat}

theorem commits_log (h : ownersProtocol.Commits answer locks redo now) (row : AuditRow) :
    ownersProtocol.Commits answer locks (log row ∘ redo) now := by
  intro later hrely hinv hpermits
  obtain ⟨hkeeps, _⟩ := h later hrely hinv hpermits
  exact ⟨⟨hkeeps.organizations, hkeeps.memberships, hkeeps.active, hkeeps.owners⟩, trivial⟩

theorem Harmless.commits (h : Harmless redo) : ownersProtocol.Commits answer locks redo now := by
  intro later _ _ _
  refine ⟨⟨h.organizations later, fun _ _ _ => by rw [h.memberships], fun _ _ _ _ howner => h.active later _ _ howner,
    fun _ _ hhas => ?_⟩, trivial⟩
  obtain ⟨owner, howner⟩ := hhas
  exact ⟨owner, h.active later _ _ howner⟩

/-- A membership under the lock of its organization: the others stay, and so must an active owner. -/
theorem keepsOwners_setMembership {dir : Directory} (h : Harmless redo)
    (hlock : (Row.organization organization, Mode.update) ∈ locks) (hspare : Spare organization user dir)
    (membership : Membership) : KeepsOwners locks dir (setMembership organization user membership (redo dir)) := by
  have hother : ∀ other owner, (other, owner) ≠ (organization, user) → dir.ActiveOwner other owner →
      (setMembership organization user membership (redo dir)).ActiveOwner other owner := by
    intro other owner hne howner
    exact (h.active dir other owner howner).congr (Dict.get?_set_of_ne _ _ hne) rfl
  refine ⟨h.organizations dir, fun other owner hother => ?_, fun other owner hunlocked _ howner => ?_,
    fun other _ hhas => ?_⟩
  · have hne : (other, owner) ≠ (organization, user) := fun heq => hother ((Prod.mk.inj heq).1 ▸ hlock)
    rw [← h.memberships dir]
    exact Dict.get?_set_of_ne _ _ hne
  · exact hother other owner (fun heq => hunlocked ((Prod.mk.inj heq).1 ▸ hlock)) howner
  · obtain ⟨owner, howner⟩ := hhas
    by_cases heq : (other, owner) = (organization, user)
    · obtain ⟨rfl, rfl⟩ := Prod.mk.inj heq
      obtain hnot | ⟨keeper, hne, hkeeper⟩ := hspare
      · obtain ⟨held, _, hget, _, hrole, hremoved, _⟩ := activeOwner_iff.1 howner
        exact absurd hrole (hnot held hget hremoved)
      · exact ⟨keeper, hother other keeper (fun heq => hne (Prod.mk.inj heq).2) hkeeper⟩
    · exact ⟨owner, hother other owner heq howner⟩

theorem commits_setMembership (h : Harmless redo) (hlock : (Row.organization organization, Mode.update) ∈ locks)
    (hlive : now.Live organization) (hspare : Spare organization user now) (membership : Membership) :
    ownersProtocol.Commits answer locks (setMembership organization user membership ∘ redo) now := by
  intro later hrely _ _
  exact ⟨keepsOwners_setMembership h hlock (hspare.later hrely hlock hlive) membership, trivial⟩

theorem commits_modifyMembership (h : Harmless redo) (hlock : (Row.organization organization, Mode.update) ∈ locks)
    (hlive : now.Live organization) (hspare : Spare organization user now) (update : Membership → Membership) :
    ownersProtocol.Commits answer locks (modifyMembership organization user update ∘ redo) now := by
  intro later hrely hinv hpermits
  show KeepsOwners locks later (modifyMembership organization user update (redo later)) ∧ _
  unfold modifyMembership
  split
  · exact commits_setMembership h hlock hlive hspare _ later hrely hinv hpermits
  · exact (h.commits : ownersProtocol.Commits answer locks redo now) later hrely hinv hpermits

/-! ### The operations -/

variable {sqlLower : Text → Text} {committed : Directory} {call : OwnerCall}

theorem live_of_editable {dir : Directory} {row : Organization} (hrow : dir.organizations.get? organization = some row)
    (heditable : row.status.editable = true) : dir.Live organization := by
  refine ⟨row, hrow, fun hcancelled => ?_⟩
  rw [hcancelled] at heditable
  cases heditable

theorem commits_record {message eventType text orgSlug email : Text} {actor : Actor} {userId : Nat}
    {details : List (Text × Json)} (h : ownersProtocol.Commits (call, message) locks redo now) :
    ownersProtocol.Wp (fun _ => ownersProtocol.Wp (fun message => ownersProtocol.Commits (call, message))
      (pure message : AdminTx Text)) (record eventType text orgSlug actor userId email details) locks redo now :=
  wp_record fun row _ => commits_log h row

theorem commits_attach {role : Role} (h : Harmless redo) (hlock : (Row.organization organization, Mode.update) ∈ locks)
    (hlive : now.Live organization) :
    ownersProtocol.Wp (fun _ => ownersProtocol.Commits answer) (attach organization user role) locks redo now := by
  refine wp_attach (fun before later more hbefore hfree hlater _ hmore => ?_)
    (fun later more membership hlater _ hmore hget hremoved => ?_) fun later more _ _ _ => h.commits
  · have hspare : Spare organization user later := by
      refine .inl fun membership hget => ?_
      rw [h.memberships] at hfree
      rw [rely_memberships hlater hlock, hfree] at hget
      cases hget
    exact commits_setMembership h (hmore hlock) (rely_live (hbefore.trans hlater) hlive) hspare _
  · have hspare : Spare organization user later := by
      refine .inl fun held hheld hnone => ?_
      rw [h.memberships, hheld] at hget
      cases hget
      simp [hnone] at hremoved
    exact commits_modifyMembership h (hmore hlock) (rely_live hlater hlive) hspare _

theorem commits_add (orgSlug email password fullName role : Text) (actorUserId : Nat) (draw : Draw) :
    ownersProtocol.Wp (fun message => ownersProtocol.Commits (call, message))
      (addOrganizationMember sqlLower orgSlug email password fullName role actorUserId draw) [] id committed := by
  simp only [addOrganizationMember, checkDetails, wp_bind, wp_require]
  intro _
  refine wp_lockOrganization fun first organization _ _ hrow _ heditable => ?_
  have hlive : first.Live organization.1 := live_of_editable hrow heditable
  simp only [actor, wp_select, wp_checkPolicy]
  intro second hsecond _ newRole _
  refine wp_findOrCreateAccount (fun third more account hthird _ hmore _ => ?_)
    fun before third more account row hbefore _ hthird _ hmore _ _ hactive _ => ?_
  · have hlive : third.Live organization.1 := rely_live (hsecond.trans hthird) hlive
    exact (commits_attach harmless_id (hmore List.mem_cons_self) hlive).mono fun _ _ _ _ h => commits_record h
  · have hlive : third.Live organization.1 := rely_live ((hsecond.trans hbefore).trans hthird) hlive
    exact (commits_attach (harmless_setAccount hactive draw.newId row) (hmore List.mem_cons_self) hlive).mono
      fun _ _ _ _ h => commits_record h

theorem commits_assignFirst (orgSlug email password fullName : Text) (actorUserId : Nat) (draw : Draw) :
    ownersProtocol.Wp (fun message => ownersProtocol.Commits (call, message))
      (assignFirstOwner sqlLower orgSlug email password fullName actorUserId draw) [] id committed := by
  simp only [assignFirstOwner, checkDetails, wp_bind, wp_require]
  intro _
  refine wp_platformActor fun zeroth platformAdmin _ _ => ?_
  refine wp_lockOrganization fun first organization _ _ hrow _ heditable => ?_
  have hlive : first.Live organization.1 := live_of_editable hrow heditable
  simp only [wp_select, wp_require]
  intro second hsecond _ _
  refine wp_findOrCreateAccount (fun third more account hthird _ hmore _ => ?_)
    fun before third more account row hbefore _ hthird _ hmore _ _ hactive _ => ?_
  · have hlive : third.Live organization.1 := rely_live (hsecond.trans hthird) hlive
    simp only [wp_require]
    intro _ _
    exact (commits_attach harmless_id (hmore List.mem_cons_self) hlive).mono fun _ _ _ _ h => commits_record h
  · have hlive : third.Live organization.1 := rely_live ((hsecond.trans hbefore).trans hthird) hlive
    simp only [wp_require]
    intro _ _
    exact (commits_attach (harmless_setAccount hactive draw.newId row) (hmore List.mem_cons_self) hlive).mono
      fun _ _ _ _ h => commits_record h

/-- A member who may be changed leaves an active owner behind: whoever acts on an owner is one, and whoever acts on
themself has counted two. -/
theorem spare_of_managed {first second : Directory} {actorUserId : Nat} {view : MembershipView} {previous : Role}
    (hlock : (Row.organization organization, Mode.update) ∈ locks) (hlive : first.Live organization)
    (hmay : (actorFrom (first.membership? organization actorUserId) actorUserId).role = some .owner ∨ previous ≠ .owner)
    (hrely : ownersProtocol.Rely locks first second) (hview : second.membership? organization user = some view)
    (hprevious : activeRole (some view) = some previous) (hinactive : isActiveOwner (some view) = false) :
    Spare organization user second := by
  obtain hacting | hnot := hmay
  · have hactor : second.ActiveOwner organization actorUserId :=
      rely_activeOwner hrely hlock hlive (isActiveOwner_of_actorFrom hacting)
    refine .inr ⟨actorUserId, fun hself => ?_, hactor⟩
    rw [ActiveOwner, hself, hview, hinactive] at hactor
    cases hactor
  · obtain ⟨membership, account, hget, _, rfl⟩ := membership?_eq_some second organization user hview
    refine .inl fun held hheld hremoved hrole => hnot ?_
    rw [hget] at hheld
    cases hheld
    simpa [activeRole, hremoved, hrole] using hprevious.symm

theorem commits_keepAnOwner {first : Directory} {actorUserId : Nat} {view : MembershipView} {previous : Role}
    {post : Unit → Locks Row → (Directory → Directory) → Directory → Prop}
    (hlock : (Row.organization organization, Mode.update) ∈ locks) (hlive : first.Live organization)
    (hmay : (actorFrom (first.membership? organization actorUserId) actorUserId).role = some .owner ∨ previous ≠ .owner)
    (hrely : ownersProtocol.Rely locks first now) (hview : now.membership? organization user = some view)
    (hprevious : activeRole (some view) = some previous)
    (h : ∀ later, ownersProtocol.Rely locks first later → Spare organization user later → post () locks id later) :
    ownersProtocol.Wp post (keepAnOwner organization view) locks id now := by
  refine wp_keepAnOwner (fun hinactive => ?_) fun later hlater _ htwo => ?_
  · exact h now hrely (spare_of_managed hlock hlive hmay hrely hview hprevious hinactive)
  · exact h later (hrely.trans hlater) (.inr (exists_other_owner htwo user))

theorem commits_updateMembership {update : Membership → Membership}
    (hlock : (Row.organization organization, Mode.update) ∈ locks) (hlive : now.Live organization)
    (hspare : Spare organization user now) :
    ownersProtocol.Wp (fun _ => ownersProtocol.Commits answer) (updateMembership organization user false update) locks id
      now := by
  refine wp_updateMembership (fun later more _ _ _ => harmless_id.commits) fun later more membership hlater _ hmore _ _ => ?_
  exact commits_modifyMembership harmless_id (hmore hlock) (rely_live hlater hlive) (hspare.later hlater hlock hlive) _

theorem commits_changeRole (orgSlug : Text) (userId : Nat) (role : Text) (actorUserId : Nat) :
    ownersProtocol.Wp (fun message => ownersProtocol.Commits (call, message))
      (changeOrganizationMemberRole orgSlug userId role actorUserId) [] id committed := by
  simp only [changeOrganizationMemberRole, wp_bind]
  refine wp_lockOrganization fun first organization _ _ hrow _ heditable => ?_
  have hlive : first.Live organization.1 := live_of_editable hrow heditable
  simp only [actor, wp_select, wp_checkPolicy]
  intro second hsecond _ _ _
  refine wp_findMember fun third view previous hthird _ hview hprevious => ?_
  simp only [wp_checkPolicy, wp_ite]
  intro newRole hchange
  obtain ⟨-, hmay⟩ := requireMayChangeRole_ok hchange
  refine ⟨fun _ => harmless_id.commits, fun _ => ?_⟩
  simp only [wp_bind, setRole]
  refine commits_keepAnOwner List.mem_cons_self (rely_live hsecond hlive)
    (hmay.imp_right fun hadmin howner => hadmin.2.1 (howner ▸ rfl)) hthird hview hprevious fun fourth hfourth hspare => ?_
  exact (commits_updateMembership List.mem_cons_self (rely_live (hsecond.trans hfourth) hlive) hspare).mono
    fun _ _ _ _ h => commits_record h

theorem commits_remove (orgSlug : Text) (userId actorUserId removedAt : Nat) :
    ownersProtocol.Wp (fun message => ownersProtocol.Commits (call, message))
      (removeOrganizationMember orgSlug userId actorUserId removedAt) [] id committed := by
  simp only [removeOrganizationMember, wp_bind]
  refine wp_lockOrganization fun first organization _ _ hrow _ heditable => ?_
  have hlive : first.Live organization.1 := live_of_editable hrow heditable
  simp only [actor, wp_select, wp_checkPolicy]
  intro second hsecond _ _ _
  refine wp_findMember fun third view previous hthird _ hview hprevious => ?_
  simp only [wp_checkPolicy]
  intro _ hmanage
  have hmay := (requireMayManage_ok hmanage).imp_right fun hadmin (howner : previous = .owner) =>
    hadmin.2 (howner ▸ rfl)
  refine commits_keepAnOwner List.mem_cons_self (rely_live hsecond hlive) hmay hthird hview hprevious
    fun fourth hfourth hspare => ?_
  exact (commits_updateMembership List.mem_cons_self (rely_live (hsecond.trans hfourth) hlive) hspare).mono
    fun _ _ _ _ h => commits_record h

/-! ### Switching an account off -/

theorem activeOwner_modifyAccount {dir : Directory} {update : Account → Account} {userId : Nat} (hne : user ≠ userId)
    (h : dir.ActiveOwner organization user) : (dir.modifyAccount userId update).ActiveOwner organization user := by
  unfold modifyAccount
  split
  · exact h.congr rfl (Dict.get?_set_of_ne _ _ hne)
  · exact h

theorem modifyAccount_other (dir : Directory) (userId : Nat) (update : Account → Account) :
    (dir.modifyAccount userId update).organizations = dir.organizations ∧
      (dir.modifyAccount userId update).memberships = dir.memberships := by
  unfold modifyAccount
  split <;> exact ⟨rfl, rfl⟩

/-- Under the condition, whatever the account owns at the commit was locked, and was seen with two active owners. -/
theorem commits_deactivate {message : Text} {userId actorUserId : Nat}
    (hseen : ∀ organization, (Row.organization organization, Mode.update) ∈ locks → ∃ held, held ⊆ locks ∧
      (Row.organization organization, Mode.update) ∈ held ∧ SeenWithTwo ownersProtocol id held now organization) :
    ownersProtocol.Commits (.setActive userId false actorUserId, message) locks
      (modifyAccount userId (fun account => { account with isActive := false }) ∘ id) now := by
  intro later hlater _ hpermits
  have howned : ∀ organization, later.Live organization → later.ActiveOwner organization userId →
      (Row.organization organization, Mode.update) ∈ locks :=
    fun organization hlive howner => hpermits userId rfl organization (mem_activelyOwned_iff.2 ⟨howner, hlive⟩)
  obtain ⟨horganizations, hmemberships⟩ :=
    modifyAccount_other later userId fun account => { account with isActive := false }
  refine ⟨⟨horganizations, fun _ _ _ => congrArg (Dict.get? · _) hmemberships,
    fun organization owner hunlocked hlive howner => ?_, fun organization hlive hhas => ?_⟩, trivial⟩
  · have hne : owner ≠ userId := fun heq => hunlocked (howned organization hlive (heq ▸ howner))
    exact activeOwner_modifyAccount hne howner
  · obtain ⟨owner, howner⟩ := hhas
    by_cases heq : owner = userId
    · subst heq
      have hlock := howned organization hlive howner
      obtain ⟨held, hheld, hlock, seen, hrely, _, htwo⟩ := hseen organization hlock
      obtain ⟨keeper, hne, hkeeper⟩ := exists_other_owner htwo owner
      have hthen := hrely.trans (hlater.mono hheld)
      have hseenLive : seen.Live organization := by
        unfold Live at hlive ⊢
        rwa [rely_organizations hthen] at hlive
      exact ⟨keeper, activeOwner_modifyAccount hne (rely_activeOwner hthen hlock hseenLive hkeeper)⟩
    · exact ⟨owner, activeOwner_modifyAccount heq howner⟩

theorem commits_setActive (userId : Nat) (isActive : Bool) (actorUserId : Nat) :
    ownersProtocol.Wp (fun message => ownersProtocol.Commits (.setActive userId isActive actorUserId, message))
      (setGlobalAccountActive userId isActive actorUserId) [] id committed := by
  simp only [setGlobalAccountActive, wp_bind]
  refine wp_platformActor fun first platformAdmin _ _ => wp_findAccount fun second target _ _ => ?_
  cases isActive with
  | true =>
      refine wp_setAccountActive (fun third more _ _ _ => ?_) fun third _ _ => ?_
      · exact wp_logAuthEvent fun row _ => commits_log harmless_id.commits row
      · refine wp_logAuthEvent fun row _ => commits_log ?_ row
        exact (harmless_reactivate userId).commits
  | false =>
      refine wp_keepOwnersElsewhere fun third more _ _ _ hseen => ?_
      refine wp_setAccountActive (fun fourth more' _ _ _ => ?_) fun fourth hfourth _ => ?_
      · exact wp_logAuthEvent fun row _ => commits_log harmless_id.commits row
      · refine wp_logAuthEvent fun row _ => commits_log (commits_deactivate fun organization hmem => ?_) row
        have hheld : (Row.organization organization, Mode.update) ∈ more := by simpa using hmem
        obtain ⟨seen, hrely, hinv, htwo⟩ := (hseen organization hheld).resolve_left List.not_mem_nil
        exact ⟨more, List.subset_cons_self _ _, hheld, seen, hrely.trans hfourth, hinv, htwo⟩

theorem follows_starts : ownersProtocol.Follows (OwnerCall.Starts sqlLower) := by
  intro committed program _ hstarts
  obtain ⟨call, -, rfl⟩ := hstarts
  rw [OwnerCall.program, wp_bind]
  cases call with
  | add orgSlug email password fullName role actorUserId draw =>
      exact commits_add orgSlug email password fullName role actorUserId draw
  | assignFirst orgSlug email password fullName actorUserId draw =>
      exact commits_assignFirst orgSlug email password fullName actorUserId draw
  | changeRole orgSlug userId role actorUserId => exact commits_changeRole orgSlug userId role actorUserId
  | remove orgSlug userId actorUserId removedAt => exact commits_remove orgSlug userId actorUserId removedAt
  | setActive userId isActive actorUserId => exact commits_setActive userId isActive actorUserId

/-! ### Main result -/

/-- In every run in which no account is switched off while it owns an organization that the transaction has not
locked, an organization with an active owner always has one. -/
theorem active_owner_is_kept (sqlLower : Text → Text) (start : Directory)
    (sys later : System Directory Row AdminFailure (OwnerCall × Text))
    (hsys : Steps (OwnerCall.Starts sqlLower) OwnedAreLocked (System.idle start) sys)
    (hlater : Steps (OwnerCall.Starts sqlLower) OwnedAreLocked sys later) (organization : Nat)
    (hlive : sys.committed.Live organization) (howner : sys.committed.HasActiveOwner organization) :
    later.committed.HasActiveOwner organization := by
  have hidle : Sound ownersProtocol (System.idle start : System Directory Row AdminFailure (OwnerCall × Text)) :=
    Sound.idle trivial
  obtain ⟨hsound, -⟩ := hidle.steps follows_starts hsys (fun _ => True) (fun _ _ _ _ _ _ _ _ _ => trivial) trivial
  have hkept := hsound.steps follows_starts hlater
    (fun dir => dir.Live organization ∧ dir.HasActiveOwner organization)
    (fun _ _ before after _ hguar _ _ hfact => by
      refine ⟨?_, hguar.owners organization hfact.1 hfact.2⟩
      unfold Live
      rw [hguar.organizations]
      exact hfact.1) ⟨hlive, howner⟩
  exact hkept.2.2

/-- A library with one owner and one admin, and a platform administrator. -/
def oneOwnerOneAdmin : Directory where
  organizations := Dict.empty.set 1 ⟨"library".toList, .active⟩
  accounts := ((Dict.empty.set 1 ⟨"platform@sortview".toList, [], [], true, true⟩).set 2
    ⟨"owner@library".toList, [], [], true, false⟩).set 3 ⟨"admin@library".toList, [], [], true, false⟩
  memberships := (Dict.empty.set (1, 2) ⟨.owner, none⟩).set (1, 3) ⟨.admin, none⟩
  auditLog := []

def promoteAdmin : OwnerCall := .changeRole "library".toList 3 "owner".toList 2

def ownerStepsDown : OwnerCall := .changeRole "library".toList 2 "viewer".toList 2

def switchOff (userId : Nat) : OwnerCall := .setActive userId false 1

def promoteThenSwitchOff : List (OwnerCall ⊕ Nat) :=
  .inl promoteAdmin :: List.replicate 11 (.inr 0) ++ .inl (switchOff 2) :: List.replicate 14 (.inr 1)

/-- A promotion, and then the first owner is switched off. -/
theorem active_owner_is_kept_after_promotion : ∃ later : System Directory Row AdminFailure (OwnerCall × Text),
    Steps (OwnerCall.Starts lower) OwnedAreLocked (System.idle oneOwnerOneAdmin) later ∧
      (later.committed.accounts.get? 2).map Account.isActive = some false ∧ later.committed.HasActiveOwner 1 := by
  have hrun : ((System.idle oneOwnerOneAdmin).replay (OwnerCall.program lower) (fun _ _ => True) OwnedAreLocked
      promoteThenSwitchOff).map
      (fun ended => (ended.1.committed.accounts.get? 2).map Account.isActive) = some (some false) := by decide +kernel
  obtain ⟨⟨later, answers⟩, hreplay, hinactive⟩ := Option.map_eq_some_iff.1 hrun
  have hsteps : Steps (OwnerCall.Starts lower) OwnedAreLocked (System.idle oneOwnerOneAdmin) later :=
    steps_of_replay hreplay
  refine ⟨later, hsteps, hinactive, ?_⟩
  exact active_owner_is_kept lower oneOwnerOneAdmin (System.idle oneOwnerOneAdmin) later .refl hsteps 1
    ⟨_, rfl, by decide⟩ (activeOwnerCount_pos.1 (by decide +kernel))

/-- The admin is to be switched off, and both reads of what the admin owns come before the promotion. -/
def promoteWhileSwitchingOff : List (OwnerCall ⊕ Nat) :=
  .inl (switchOff 3) :: List.replicate 4 (.inr 0) ++ .inl promoteAdmin :: List.replicate 11 (.inr 1) ++
    .inl ownerStepsDown :: List.replicate 12 (.inr 2) ++ List.replicate 6 (.inr 0)

/-- The admin is promoted and the first owner steps down while the admin's account, which owned nothing when that
was read, is being switched off. -/
theorem deactivation_loses_the_last_owner : ∃ later : System Directory Row AdminFailure (OwnerCall × Text),
    Steps (OwnerCall.Starts lower) (fun _ _ _ => True) (System.idle oneOwnerOneAdmin) later ∧
      oneOwnerOneAdmin.Live 1 ∧ oneOwnerOneAdmin.HasActiveOwner 1 ∧ ¬ later.committed.HasActiveOwner 1 := by
  have hrun : ((System.idle oneOwnerOneAdmin).replay (OwnerCall.program lower) (fun _ _ => True) (fun _ _ _ => True)
      promoteWhileSwitchingOff).map
      (fun ended => ended.1.committed.activeOwnerCount 1) = some 0 := by decide +kernel
  obtain ⟨⟨later, answers⟩, hreplay, hnone⟩ := Option.map_eq_some_iff.1 hrun
  refine ⟨later, steps_of_replay hreplay, ⟨_, rfl, by decide⟩,
    activeOwnerCount_pos.1 (by decide +kernel), fun hhas => ?_⟩
  exact absurd (activeOwnerCount_pos.2 hhas) (by simp [hnone])

end SortView
