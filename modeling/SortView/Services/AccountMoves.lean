import SortView.Services.Accounts

/-!
# What the writes to accounts guarantee

The operations on accounts, reset tokens and sessions, interleaved statement by statement: what each may do to a
table when it commits, and with which locks, and what stays true for a transaction while others commit.
-/

namespace SortView

namespace Accounts

open PyText Transactions Transactions.Protocol Tables

/-! ### Calls -/

/-- One call of an operation, with what it draws and what the clocks say. -/
inductive AccountCall where
  | requestPasswordReset (email rawToken : Text) (now clock newId : Nat)
  | resetPasswordWithToken (token newPassword confirmPassword salt : Text) (clock now : Nat)
  | changePassword (userId : Nat) (currentPassword newPassword confirmPassword salt : Text) (clock now : Nat)
  | createUser (email password fullName salt : Text) (newId : Nat)
  | createSession (userId : Nat) (rawToken : Text) (lifetime issuedAt newId : Nat)
  | validateSession (rawToken : Text) (checkedAt : Nat)
  | revokeSession (rawToken : Text) (checkedAt : Nat)
  | revokeAllSessionsForUser (userId now : Nat)
  | recordFailedLogin (userId clock : Nat)
  | recordSuccessfulLogin (userId clock : Nat)
  | updateProfileName (userId : Nat) (name : Text)
  | setAccountActive (userId : Nat) (isActive : Bool) (now : Nat)
  | offboardLibrary (isCutOff : Nat → Bool) (now : Nat)

/-- What a call answers when it commits. -/
inductive AccountAnswer where
  | requested (request : ResetRequest)
  | reset (outcome : ResetOutcome)
  | changed (outcome : PasswordOutcome)
  | created (userId : Option Nat)
  | opened (session : Nat × Nat)
  | validated (user : Option Store.AuthUser)
  | revoked (found : Bool)
  | revokedAll (count : Nat)
  | updated (found : Bool)
  | activated

namespace AccountCall

variable (hashes : Hashes) (sqlLower : Text → Text)

/-- The transaction of a call. -/
def program : AccountCall → AccountTx AccountAnswer
  | .requestPasswordReset email rawToken now clock newId => do
      let request ← Accounts.requestPasswordReset hashes sqlLower email rawToken now clock newId
      pure (.requested request)
  | .resetPasswordWithToken token newPassword confirmPassword salt clock now => do
      let outcome ← Accounts.resetPasswordWithToken hashes token newPassword confirmPassword salt clock now
      pure (.reset outcome)
  | .changePassword userId currentPassword newPassword confirmPassword salt clock now => do
      let outcome ← Accounts.changePassword hashes userId currentPassword newPassword confirmPassword salt clock now
      pure (.changed outcome)
  | .createUser email password fullName salt newId => do
      let userId ← Accounts.createUserWithConnection hashes sqlLower email password fullName salt newId
      pure (.created userId)
  | .createSession userId rawToken lifetime issuedAt newId => do
      let session ← Accounts.createSession hashes userId rawToken lifetime issuedAt newId
      pure (.opened session)
  | .validateSession rawToken checkedAt => do
      let user ← Accounts.validateSession hashes rawToken checkedAt
      pure (.validated user)
  | .revokeSession rawToken checkedAt => do
      let found ← Accounts.revokeSession hashes rawToken checkedAt
      pure (.revoked found)
  | .revokeAllSessionsForUser userId now => do
      let count ← revokeAllSessionsForUserWithConnection userId now
      pure (.revokedAll count)
  | .recordFailedLogin userId clock => do
      let found ← Accounts.recordFailedLogin userId clock
      pure (.updated found)
  | .recordSuccessfulLogin userId clock => do
      let found ← Accounts.recordSuccessfulLogin userId clock
      pure (.updated found)
  | .updateProfileName userId name => do
      let found ← Accounts.updateProfileName userId name
      pure (.updated found)
  | .setAccountActive userId isActive now => do
      let _ ← Accounts.setAccountActive userId isActive now
      pure .activated
  | .offboardLibrary isCutOff now => do
      let changed ← offboardRevokeSessions isCutOff now
      pure (.revokedAll changed.length)

/-- Calls in any number, by anyone. -/
def Starts : Store → AccountTx AccountAnswer → Prop := Calls (program hashes sqlLower) fun _ _ => True

end AccountCall

/-! ### What every transaction guarantees -/

/-- What the schema promises of the rows. -/
structure Store.Constraints (store : Store) : Prop where
  resetHashes : ∀ id id' row row', store.resetTokens.get? id = some row → store.resetTokens.get? id' = some row' →
    row.tokenHash = row'.tokenHash → id = id'
  sessionHashes : ∀ id id' row row', store.sessions.get? id = some row → store.sessions.get? id' = some row' →
    row.tokenHash = row'.tokenHash → id = id'

section Guarantee

variable (hashes : Hashes) (answer : AccountAnswer) (locks : Locks Row) (before after : Store)

/-- A lock under which a row may be changed. -/
def WriteLocked (row : Row) : Prop := (row, Mode.noKeyUpdate) ∈ locks ∨ (row, Mode.update) ∈ locks

def ChangesUser (id : Nat) (_ _ : UserRow) : Prop := WriteLocked locks (.user id)

def AddsUser (id : Nat) (_ : UserRow) : Prop := (Row.user id, Mode.update) ∈ locks

def UsesResetToken (id : Nat) (row row' : ResetTokenRow) : Prop :=
  WriteLocked locks (.resetToken id) ∧ ∃ clock, row' = row.use clock

structure AddsResetToken (id : Nat) (row : ResetTokenRow) : Prop where
  key : (Row.resetToken id, Mode.update) ∈ locks
  hash : (Row.resetTokenHash row.tokenHash, Mode.update) ∈ locks
  unique : ∀ id' row', before.resetTokens.get? id' = some row' → row'.tokenHash ≠ row.tokenHash
  user : (Row.user row.userId, Mode.keyShare) ∈ locks

def ChangesSession (_ : Nat) (row row' : SessionRow) : Prop := ∃ clock, row' = row.revoke clock ∨ row' = row.touch clock

structure AddsSession (id : Nat) (row : SessionRow) : Prop where
  key : (Row.session id, Mode.update) ∈ locks
  hash : (Row.sessionHash row.tokenHash, Mode.update) ∈ locks
  unique : ∀ id' row', before.sessions.get? id' = some row' → row'.tokenHash ≠ row.tokenHash
  user : (Row.user row.userId, Mode.keyShare) ∈ locks

/-- No token of the user can be used. -/
def Store.NoOpenToken (store : Store) (userId : Nat) : Prop :=
  ∀ id row, store.resetTokens.get? id = some row → row.userId = userId → row.usedAt.isSome

/-- No session of the user is valid. -/
def Store.NoOpenSession (store : Store) (userId : Nat) : Prop :=
  ∀ id row, store.sessions.get? id = some row → row.userId = userId → row.revokedAt.isSome

/-- What a reset does: its token was open, the account was active, and the password is set to one that the account did
not have. -/
structure Resets (tokenId userId : Nat) : Prop where
  token : ∃ row, before.resetTokens.get? tokenId = some row ∧ row.userId = userId ∧ row.usedAt = none
  password : ∃ user newPassword salt clock, before.users.get? userId = some user ∧ user.isActive = true ∧
    matchesHash hashes user.passwordHash newPassword = false ∧
    after.users.get? userId = some (user.setPassword (hashes.generatePasswordHash salt newPassword) clock)
  tokens : after.NoOpenToken userId
  sessions : after.NoOpenSession userId

/-- What one commit may do to the tables. -/
structure AccountMoves : Prop where
  users : TableMoves (ChangesUser locks) (AddsUser locks) before.users after.users
  resetTokens : TableMoves (UsesResetToken locks) (AddsResetToken locks before) before.resetTokens after.resetTokens
  sessions : TableMoves ChangesSession (AddsSession locks before) before.sessions after.sessions
  reset : ∀ tokenId userId revoked, answer = .reset (.done tokenId userId revoked) →
    Resets hashes before after tokenId userId

end Guarantee

def accountProtocol (hashes : Hashes) : Protocol Store Row AccountAnswer where
  inv := Store.Constraints
  permits _ _ _ := True
  guar := AccountMoves hashes

/-! ### What one commit keeps -/

variable {hashes : Hashes} {answer : AccountAnswer} {locks theirs : Locks Row} {before after : Store}

namespace AccountMoves

variable (h : AccountMoves hashes answer locks before after)

include h

theorem resetToken {id : Nat} {row : ResetTokenRow} (hrow : before.resetTokens.get? id = some row) :
    ∃ row', after.resetTokens.get? id = some row' ∧ row'.userId = row.userId ∧ row'.tokenHash = row.tokenHash ∧
      (row.usedAt.isSome → row'.usedAt.isSome) := by
  obtain ⟨row', hrow', rfl | ⟨_, clock, rfl⟩⟩ := h.resetTokens.kept id row hrow
  · exact ⟨row', hrow', rfl, rfl, fun hused => hused⟩
  · exact ⟨_, hrow', rfl, rfl, fun _ => rfl⟩

theorem session {id : Nat} {row : SessionRow} (hrow : before.sessions.get? id = some row) :
    ∃ row', after.sessions.get? id = some row' ∧ row'.userId = row.userId ∧ row'.tokenHash = row.tokenHash ∧
      (row.revokedAt.isSome → row'.revokedAt.isSome) := by
  obtain ⟨row', hrow', rfl | ⟨clock, rfl | rfl⟩⟩ := h.sessions.kept id row hrow
  · exact ⟨row', hrow', rfl, rfl, fun hrevoked => hrevoked⟩
  · exact ⟨_, hrow', rfl, rfl, fun _ => rfl⟩
  · exact ⟨_, hrow', rfl, rfl, fun hrevoked => hrevoked⟩

theorem constraints (hinv : before.Constraints) : after.Constraints where
  resetHashes := by
    refine h.resetTokens.unique ResetTokenRow.tokenHash (fun _ _ _ ⟨_, clock, hrow⟩ => hrow ▸ rfl)
      (fun _ _ hadds => hadds.unique) hinv.resetHashes
  sessionHashes := by
    refine h.sessions.unique SessionRow.tokenHash (fun _ _ _ ⟨clock, hrow⟩ => ?_) (fun _ _ hadds => hadds.unique)
      hinv.sessionHashes
    obtain rfl | rfl := hrow <;> rfl

end AccountMoves

/-! ### What stays -/

theorem not_mem_of_update {row : Row} {mode : Mode} (hcompatible : Compatible locks theirs)
    (hlock : (row, Mode.update) ∈ locks) : (row, mode) ∉ theirs := by
  intro hmem
  have hclear := hcompatible row _ _ hlock hmem
  cases mode <;> cases hclear

theorem not_writeLocked {row : Row} (hcompatible : Compatible locks theirs) (hlock : (row, Mode.update) ∈ locks) :
    ¬ WriteLocked theirs row := by
  rintro (hmem | hmem) <;> exact not_mem_of_update hcompatible hlock hmem

section Rely

/-- What every guaranteed commit keeps, others keep. -/
theorem account_keeps (h : (accountProtocol hashes).Rely locks before after) (hinv : before.Constraints)
    (fact : Store → Prop)
    (hkeeps : ∀ answer theirs s s', Compatible locks theirs → AccountMoves hashes answer theirs s s' → fact s → fact s')
    (hfact : fact before) : fact after :=
  h.keeps hinv fact (fun answer theirs s s' hcompatible _ hmoves _ _ => hkeeps answer theirs s s' hcompatible hmoves) hfact

variable (h : (accountProtocol hashes).Rely locks before after) (hinv : before.Constraints)

include h hinv

theorem rely_resetToken {id : Nat} {row : ResetTokenRow} (hrow : before.resetTokens.get? id = some row) :
    ∃ row', after.resetTokens.get? id = some row' ∧ row'.userId = row.userId ∧ row'.tokenHash = row.tokenHash ∧
      (row.usedAt.isSome → row'.usedAt.isSome) := by
  refine account_keeps h hinv (fun store => ∃ row', store.resetTokens.get? id = some row' ∧ row'.userId = row.userId ∧
    row'.tokenHash = row.tokenHash ∧ (row.usedAt.isSome → row'.usedAt.isSome)) (fun _ _ _ _ _ hmoves hfact => ?_)
    ⟨row, hrow, rfl, rfl, fun hused => hused⟩
  obtain ⟨old, hold, huser, hhash, hused⟩ := hfact
  obtain ⟨new, hnew, huser', hhash', hused'⟩ := hmoves.resetToken hold
  exact ⟨new, hnew, huser'.trans huser, hhash'.trans hhash, fun hwas => hused' (hused hwas)⟩

theorem rely_session {id : Nat} {row : SessionRow} (hrow : before.sessions.get? id = some row) :
    ∃ row', after.sessions.get? id = some row' ∧ row'.userId = row.userId ∧ row'.tokenHash = row.tokenHash ∧
      (row.revokedAt.isSome → row'.revokedAt.isSome) := by
  refine account_keeps h hinv (fun store => ∃ row', store.sessions.get? id = some row' ∧ row'.userId = row.userId ∧
    row'.tokenHash = row.tokenHash ∧ (row.revokedAt.isSome → row'.revokedAt.isSome)) (fun _ _ _ _ _ hmoves hfact => ?_)
    ⟨row, hrow, rfl, rfl, fun hrevoked => hrevoked⟩
  obtain ⟨old, hold, huser, hhash, hrevoked⟩ := hfact
  obtain ⟨new, hnew, huser', hhash', hrevoked'⟩ := hmoves.session hold
  exact ⟨new, hnew, huser'.trans huser, hhash'.trans hhash, fun hwas => hrevoked' (hrevoked hwas)⟩

/-- A reset token stays as it is while it is locked. -/
theorem rely_resetToken_locked {id : Nat} {row : ResetTokenRow} (hlock : (Row.resetToken id, Mode.update) ∈ locks)
    (hrow : before.resetTokens.get? id = some row) : after.resetTokens.get? id = some row := by
  refine account_keeps h hinv (fun store => store.resetTokens.get? id = some row)
    (fun _ _ s s' hcompatible hmoves hsame => ?_) hrow
  obtain ⟨row', hrow', rfl | ⟨hlocked, _⟩⟩ := hmoves.resetTokens.kept id row hsame
  · exact hrow'
  · exact absurd hlocked (not_writeLocked hcompatible hlock)

section Locked

variable {userId : Nat} (hlock : (Row.user userId, Mode.update) ∈ locks)

include hlock

/-- A user stays as it is while it is locked. -/
theorem rely_user {row : UserRow} (hrow : before.users.get? userId = some row) : after.users.get? userId = some row := by
  refine account_keeps h hinv (fun store => store.users.get? userId = some row)
    (fun _ _ s s' hcompatible hmoves hsame => ?_) hrow
  obtain ⟨row', hrow', rfl | hlocked⟩ := hmoves.users.kept userId row hsame
  · exact hrow'
  · exact absurd hlocked (not_writeLocked hcompatible hlock)

/-- A user who is locked gets no reset token. -/
theorem rely_oldResetToken {id : Nat} {row : ResetTokenRow} (hrow : after.resetTokens.get? id = some row)
    (huser : row.userId = userId) : ∃ old, before.resetTokens.get? id = some old := by
  have hfact : ∀ id row, after.resetTokens.get? id = some row → row.userId = userId →
      ∃ old, before.resetTokens.get? id = some old ∧ old.userId = userId := by
    refine account_keeps h hinv (fun store => ∀ id row, store.resetTokens.get? id = some row → row.userId = userId →
      ∃ old, before.resetTokens.get? id = some old ∧ old.userId = userId) (fun _ _ s s' hcompatible hmoves hfact => ?_)
      fun id row hrow huser => ⟨row, hrow, huser⟩
    intro id row hrow huser
    obtain ⟨old, hold, _⟩ | ⟨_, hadds⟩ := hmoves.resetTokens.cases hrow
    · obtain ⟨new, hnew, hsame, _⟩ := hmoves.resetToken hold
      rw [hrow] at hnew
      cases hnew
      exact hfact id old hold (hsame.symm.trans huser)
    · exact absurd (huser ▸ hadds.user) (not_mem_of_update hcompatible hlock)
  obtain ⟨old, hold, _⟩ := hfact id row hrow huser
  exact ⟨old, hold⟩

/-- A user who is locked gets no session. -/
theorem rely_oldSession {id : Nat} {row : SessionRow} (hrow : after.sessions.get? id = some row)
    (huser : row.userId = userId) : ∃ old, before.sessions.get? id = some old := by
  have hfact : ∀ id row, after.sessions.get? id = some row → row.userId = userId →
      ∃ old, before.sessions.get? id = some old ∧ old.userId = userId := by
    refine account_keeps h hinv (fun store => ∀ id row, store.sessions.get? id = some row → row.userId = userId →
      ∃ old, before.sessions.get? id = some old ∧ old.userId = userId) (fun _ _ s s' hcompatible hmoves hfact => ?_)
      fun id row hrow huser => ⟨row, hrow, huser⟩
    intro id row hrow huser
    obtain ⟨old, hold, _⟩ | ⟨_, hadds⟩ := hmoves.sessions.cases hrow
    · obtain ⟨new, hnew, hsame, _⟩ := hmoves.session hold
      rw [hrow] at hnew
      cases hnew
      exact hfact id old hold (hsame.symm.trans huser)
    · exact absurd (huser ▸ hadds.user) (not_mem_of_update hcompatible hlock)
  obtain ⟨old, hold, _⟩ := hfact id row hrow huser
  exact ⟨old, hold⟩

end Locked

end Rely

/-! ### Statements -/

variable {redo : Store → Store} {committed now : Store} {userId : Nat}

theorem commits_of_moves (h : ∀ later, (accountProtocol hashes).Rely locks now later → later.Constraints →
      AccountMoves hashes answer locks later (redo later)) :
    (accountProtocol hashes).Commits answer locks redo now :=
  fun later hlater hinv _ => ⟨h later hlater hinv, (h later hlater hinv).constraints hinv⟩

theorem foldl_resetTokens (ids : List Nat) (update : ResetTokenRow → ResetTokenRow) (store : Store) :
    ids.foldl (fun view id => view.adjustResetToken id update) store =
      { store with resetTokens := adjustAll ids update store.resetTokens } := by
  induction ids generalizing store with
  | nil => rfl
  | cons id ids ih => exact ih _

theorem foldl_sessions (ids : List Nat) (update : SessionRow → SessionRow) (store : Store) :
    ids.foldl (fun view id => view.adjustSession id update) store =
      { store with sessions := adjustAll ids update store.sessions } := by
  induction ids generalizing store with
  | nil => rfl
  | cons id ids ih => exact ih _

/-- The tokens of the user that are there when the sweep begins are used by it, or were before. -/
theorem wp_useResetTokens {post : List Nat → Locks Row → (Store → Store) → Store → Prop} {clock : Nat}
    (hredo : ∀ view, (redo view).resetTokens = view.resetTokens) (hinv : committed.Constraints)
    (h : ∀ now more changed, (accountProtocol hashes).Rely locks committed now → now.Constraints → locks ⊆ more →
      (∀ id ∈ changed, (Row.resetToken id, Mode.noKeyUpdate) ∈ more) →
      (∀ id row row', committed.resetTokens.get? id = some row → now.resetTokens.get? id = some row' →
        id ∈ changed ∨ row'.isOpenFor userId = false) →
      post changed more ((fun store => { store with
        resetTokens := adjustAll changed (ResetTokenRow.use clock) store.resetTokens }) ∘ redo) now) :
    (accountProtocol hashes).Wp post (useResetTokens userId clock) locks redo committed := by
  refine wp_sweepPresent Store.resetTokens (ResetTokenRow.isOpenFor userId) (fun left right view hne => ?_)
    (fun view later hrely hviewInv id row hrow => ?_) (fun view id row hrow hopen => ?_) (fun view id row hagain hrow => ?_) hinv
    fun now more changed hnow hnowInv hmore hlocked hover => ?_
  · simp only [Store.adjustResetToken, get?_adjust, if_neg hne]
  · obtain ⟨row', hrow', huser, _, hused⟩ := rely_resetToken hrely hviewInv hrow
    refine ⟨row', hrow', fun hnot => ?_⟩
    rw [ResetTokenRow.isOpenFor, Bool.and_eq_false_iff, Option.isNone_eq_false_iff] at hnot ⊢
    exact hnot.imp (fun hother => huser ▸ hother) hused
  · exact mem_idsWhere.2 ⟨row, by rw [hredo]; exact hrow, hopen⟩
  · rw [hredo, hrow, Option.any_some] at hagain
    exact hagain
  · have hpost := h now more changed hnow hnowInv hmore hlocked hover
    simpa only [Function.comp_def, foldl_resetTokens] using hpost

/-- The sessions that match and are there when the sweep begins are revoked by it, or do not match any more. -/
theorem wp_revokeWhere {post : List Nat → Locks Row → (Store → Store) → Store → Prop} {holds : SessionRow → Bool} {clock : Nat}
    (hredo : ∀ view, (redo view).sessions = view.sessions) (hinv : committed.Constraints)
    (hholds : ∀ row row' : SessionRow, row'.userId = row.userId → row'.tokenHash = row.tokenHash →
      (row.revokedAt.isSome → row'.revokedAt.isSome) → holds row = false → holds row' = false)
    (h : ∀ now more changed, (accountProtocol hashes).Rely locks committed now → now.Constraints → locks ⊆ more →
      (∀ id row row', committed.sessions.get? id = some row → now.sessions.get? id = some row' →
        id ∈ changed ∨ holds row' = false) →
      post changed more ((fun store => { store with
        sessions := adjustAll changed (SessionRow.revoke clock) store.sessions }) ∘ redo) now) :
    (accountProtocol hashes).Wp post (revokeWhere holds clock) locks redo committed := by
  refine wp_sweepPresent Store.sessions holds (fun left right view hne => ?_)
    (fun view later hrely hviewInv id row hrow => ?_) (fun view id row hrow hopen => ?_) (fun view id row hagain hrow => ?_) hinv
    fun now more changed hnow hnowInv hmore _ hover => ?_
  · simp only [Store.adjustSession, get?_adjust, if_neg hne]
  · obtain ⟨row', hrow', huser, hhash, hrevoked⟩ := rely_session hrely hviewInv hrow
    exact ⟨row', hrow', hholds row row' huser hhash hrevoked⟩
  · exact mem_idsWhere.2 ⟨row, by rw [hredo]; exact hrow, hopen⟩
  · rw [hredo, hrow, Option.any_some] at hagain
    exact hagain
  · have hpost := h now more changed hnow hnowInv hmore hover
    simpa only [Function.comp_def, foldl_sessions] using hpost

end Accounts

end SortView
