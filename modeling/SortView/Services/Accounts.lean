import SortView.Lib.Case
import SortView.Lib.Dict
import SortView.Lib.Tables
import SortView.Lib.Text
import SortView.Lib.Transactions

/-!
# Accounts, reset tokens and sessions

`services/auth_service.py` and `services/session_service.py`, as transactions over the three tables that they read
and write. A lookup that a function makes in a transaction of its own, before it writes, is a read of its one
transaction here, as it holds no lock. The audit log is left out: nothing here reads it.
-/

namespace SortView

namespace Accounts

open PyText Transactions Tables

/-! ### Settings -/

def maxFailedAttempts : Nat := 5

/-- A minute, in the microseconds of a clock. -/
def minute : Nat := 60000000

/-- `LOCKOUT_MINUTES`. -/
def lockout : Nat := 15 * minute

/-- `PASSWORD_RESET_MINUTES`. -/
def passwordReset : Nat := 30 * minute

def sessionLifetime : Nat := 14 * 24 * 60 * minute

def lastSeenThrottle : Nat := 15 * minute

def maxRawTokenInputLength : Nat := 512

/-- The hashes: SHA-256 of a token, and the salted hash of a password with its check. -/
structure Hashes where
  sha256 : Text → Text
  generatePasswordHash : Text → Text → Text
  checkPasswordHash : Text → Text → Bool

/-! ### The tables -/

/-- `app_users`. -/
structure UserRow where
  email : Text
  fullName : Text
  passwordHash : Option Text
  isActive : Bool
  failedLoginAttempts : Nat
  lockedUntil : Option Nat
  lastLoginAt : Option Nat
  lastFailedLoginAt : Option Nat
  lastPasswordChangedAt : Option Nat

/-- `password_reset_tokens`. -/
structure ResetTokenRow where
  userId : Nat
  tokenHash : Text
  expiresAt : Nat
  usedAt : Option Nat

/-- `auth_sessions`. -/
structure SessionRow where
  userId : Nat
  tokenHash : Text
  expiresAt : Nat
  revokedAt : Option Nat
  lastSeenAt : Option Nat

structure Store where
  users : Dict Nat UserRow
  resetTokens : Dict Nat ResetTokenRow
  sessions : Dict Nat SessionRow

/-- What is locked: a row of a table, or the value that a unique index holds. -/
inductive Row where
  | user (id : Nat)
  | address (email : Text)
  | resetToken (id : Nat)
  | resetTokenHash (hash : Text)
  | session (id : Nat)
  | sessionHash (hash : Text)
  deriving DecidableEq

/-! ### What an update sets -/

/-- The update of `record_failed_login`. -/
def UserRow.failLogin (clock : Nat) (row : UserRow) : UserRow :=
  { row with
    failedLoginAttempts := row.failedLoginAttempts + 1
    lastFailedLoginAt := some clock
    lockedUntil := if maxFailedAttempts ≤ row.failedLoginAttempts + 1 then some (clock + lockout) else row.lockedUntil }

/-- The update of `record_successful_login`. -/
def UserRow.login (clock : Nat) (row : UserRow) : UserRow :=
  { row with failedLoginAttempts := 0, lockedUntil := none, lastLoginAt := some clock }

/-- The update of `reset_password_with_token` and of `change_password`. -/
def UserRow.setPassword (passwordHash : Text) (clock : Nat) (row : UserRow) : UserRow :=
  { row with
    passwordHash := some passwordHash
    failedLoginAttempts := 0
    lockedUntil := none
    lastPasswordChangedAt := some clock }

def UserRow.setActive (isActive : Bool) (row : UserRow) : UserRow := { row with isActive := isActive }

def UserRow.rename (fullName : Text) (row : UserRow) : UserRow := { row with fullName := fullName }

def ResetTokenRow.use (clock : Nat) (row : ResetTokenRow) : ResetTokenRow := { row with usedAt := some clock }

def SessionRow.revoke (clock : Nat) (row : SessionRow) : SessionRow := { row with revokedAt := some clock }

def SessionRow.touch (clock : Nat) (row : SessionRow) : SessionRow := { row with lastSeenAt := some clock }

theorem ResetTokenRow.use_use (clock : Nat) (row : ResetTokenRow) : (row.use clock).use clock = row.use clock := rfl

theorem SessionRow.revoke_revoke (clock : Nat) (row : SessionRow) : (row.revoke clock).revoke clock = row.revoke clock := rfl

namespace Store

variable (store : Store)

def adjustUser (id : Nat) (update : UserRow → UserRow) : Store := { store with users := adjust id update store.users }

def adjustResetToken (id : Nat) (update : ResetTokenRow → ResetTokenRow) : Store :=
  { store with resetTokens := adjust id update store.resetTokens }

def adjustSession (id : Nat) (update : SessionRow → SessionRow) : Store :=
  { store with sessions := adjust id update store.sessions }

/-! ### Queries -/

/-- `get_user_by_email`, where `sqlLower` is the database's `lower`. -/
def userByEmail (sqlLower : Text → Text) (email : Text) : Option (Nat × UserRow) :=
  store.users.entries.find? fun entry => sqlLower entry.2.email = sqlLower (strip email)

/-- A reset token with its user, as `reset_password_with_token` selects them. -/
structure ResetRow where
  id : Nat
  userId : Nat
  email : Text
  passwordHash : Option Text
  isActive : Bool

/-- The token of the id, if it has the hash, is not used and has not expired. -/
def resetRow? (tokenHash : Text) (clock id : Nat) : Option ResetRow :=
  match store.resetTokens.get? id with
  | none => none
  | some token =>
      if token.tokenHash = tokenHash && token.usedAt.isNone && decide (clock < token.expiresAt) then
        (store.users.get? token.userId).map fun user => ⟨id, token.userId, user.email, user.passwordHash, user.isActive⟩
      else none

def findResetRow (tokenHash : Text) (clock : Nat) : Option ResetRow :=
  store.resetTokens.keys.findSome? (store.resetRow? tokenHash clock)

/-- A user as the services show them. -/
structure AuthUser where
  id : Nat
  email : Text
  fullName : Text

/-- The session of the id with its user, if it has the hash, is not revoked and has not expired, and the user is
active. -/
def validSession? (tokenHash : Text) (now id : Nat) : Option (Nat × AuthUser) :=
  match store.sessions.get? id with
  | none => none
  | some session =>
      if session.tokenHash = tokenHash && session.revokedAt.isNone && decide (now < session.expiresAt) then
        match store.users.get? session.userId with
        | some user => if user.isActive then some (id, ⟨session.userId, user.email, user.fullName⟩) else none
        | none => none
      else none

/-- `_VALIDATE_SESSION_SQL`. -/
def findValidSession (tokenHash : Text) (now : Nat) : Option (Nat × AuthUser) :=
  store.sessions.keys.findSome? (store.validSession? tokenHash now)

end Store

/-! ### Replies -/

/-- The `code` of what a function answers. -/
inductive Reply where
  | invalidCredentials
  | inactive
  | locked (minutesRemaining : Nat)
  | resetRequested
  | invalidResetToken
  | passwordTooShort
  | passwordMismatch
  | samePassword
  | passwordReset
  | userNotFound
  | invalidCurrentPassword
  | passwordChanged
  deriving DecidableEq, Repr

def Reply.code : Reply → Text
  | .invalidCredentials => "invalid_credentials".toList
  | .inactive => "inactive".toList
  | .locked _ => "locked".toList
  | .resetRequested => "reset_requested".toList
  | .invalidResetToken => "invalid_reset_token".toList
  | .passwordTooShort => "password_too_short".toList
  | .passwordMismatch => "password_mismatch".toList
  | .samePassword => "same_password".toList
  | .passwordReset => "password_reset".toList
  | .userNotFound => "user_not_found".toList
  | .invalidCurrentPassword => "invalid_current_password".toList
  | .passwordChanged => "password_changed".toList

def Reply.message : Reply → Text
  | .invalidCredentials => "Invalid email or password.".toList
  | .inactive => "This account is inactive.".toList
  | .locked minutes =>
      "Too many failed login attempts. Try again in ".toList ++ (toString minutes).toList ++ " minute(s).".toList
  | .resetRequested =>
      "If an active account exists for that email address, password reset instructions will be sent.".toList
  | .invalidResetToken => "This password reset link is invalid or has expired.".toList
  | .passwordTooShort => "Your new password must be at least 8 characters long.".toList
  | .passwordMismatch => "New password and confirmation do not match.".toList
  | .samePassword => "Your new password must be different from your current password.".toList
  | .passwordReset => "Your password has been reset successfully.".toList
  | .userNotFound => "User account could not be found.".toList
  | .invalidCurrentPassword => "Your current password is incorrect.".toList
  | .passwordChanged => "Your password was updated successfully.".toList

def Reply.ok : Reply → Bool
  | .resetRequested | .passwordReset | .passwordChanged => true
  | _ => false

/-- How a transaction ends when it does not commit. -/
inductive AccountFailure where
  | uniqueViolation
  | foreignKeyViolation
  deriving DecidableEq, Repr

abbrev AccountTx := Tx Store Row AccountFailure

/-! ### Statements -/

/-- An `UPDATE` of one user. -/
def updateUser (userId : Nat) (update : UserRow → UserRow) : AccountTx Bool :=
  Tx.updateRow (.user userId) .noKeyUpdate (fun store => (store.users.get? userId).isSome)
    (fun store => (store.users.get? userId).isSome) fun store => store.adjustUser userId update

/-- A token of the user that is not used. -/
def ResetTokenRow.isOpenFor (userId : Nat) (row : ResetTokenRow) : Bool := row.userId = userId && row.usedAt.isNone

/-- A session of the user that is not revoked. -/
def SessionRow.isOpenFor (userId : Nat) (row : SessionRow) : Bool := row.userId = userId && row.revokedAt.isNone

/-- `UPDATE password_reset_tokens SET used_at = now()` of the user's tokens that are not used. -/
def useResetTokens (userId clock : Nat) : AccountTx (List Nat) :=
  Tx.sweep (fun store => idsWhere store.resetTokens (ResetTokenRow.isOpenFor userId)) Row.resetToken .noKeyUpdate
    (fun id store => (store.resetTokens.get? id).any (ResetTokenRow.isOpenFor userId)) fun id store =>
      store.adjustResetToken id (ResetTokenRow.use clock)

/-- `_REVOKE_ALL_SQL` and `_REVOKE_SESSION_SQL`: the sessions that match are revoked. -/
def revokeWhere (holds : SessionRow → Bool) (now : Nat) : AccountTx (List Nat) :=
  Tx.sweep (fun store => idsWhere store.sessions holds) Row.session .noKeyUpdate
    (fun id store => (store.sessions.get? id).any holds) fun id store => store.adjustSession id (SessionRow.revoke now)

/-- `revoke_all_sessions_for_user_with_connection`: how many were revoked. -/
def revokeAllSessionsForUserWithConnection (userId now : Nat) : AccountTx Nat := do
  let revoked ← revokeWhere (SessionRow.isOpenFor userId) now
  pure revoked.length

/-- `_OFFBOARD_REVOKE_SESSIONS_SQL`, for the users whom its subquery finds without a usable organization. -/
def offboardRevokeSessions (isCutOff : Nat → Bool) (now : Nat) : AccountTx (List Nat) :=
  revokeWhere (fun row => isCutOff row.userId && row.revokedAt.isNone) now

def insertResetToken (row : ResetTokenRow) (newId : Nat) : AccountTx Unit :=
  Tx.insertRow [.resetToken newId, .resetTokenHash row.tokenHash]
    (fun store => (store.resetTokens.get? newId).isSome ||
      store.resetTokens.entries.any fun entry => entry.2.tokenHash = row.tokenHash)
    [.user row.userId] (fun store => (store.users.get? row.userId).isSome) .uniqueViolation .foreignKeyViolation
    fun store => { store with resetTokens := store.resetTokens.set newId row }

/-- `_CREATE_SESSION_SQL`. -/
def insertSession (row : SessionRow) (newId : Nat) : AccountTx Unit :=
  Tx.insertRow [.session newId, .sessionHash row.tokenHash]
    (fun store => (store.sessions.get? newId).isSome ||
      store.sessions.entries.any fun entry => entry.2.tokenHash = row.tokenHash)
    [.user row.userId] (fun store => (store.users.get? row.userId).isSome) .uniqueViolation .foreignKeyViolation
    fun store => { store with sessions := store.sessions.set newId row }

/-- The first row that the join finds is locked in both of its tables, and read again as it is by then. -/
def lockResetRow (tokenHash : Text) (clock : Nat) : AccountTx (Option Store.ResetRow) := do
  match ← Tx.select fun store => store.findResetRow tokenHash clock with
  | none => pure none
  | some row => do
      Tx.lockRow (.resetToken row.id) .update
      Tx.lockRow (.user row.userId) .update
      Tx.select fun store => store.resetRow? tokenHash clock row.id

/-! ### Sessions -/

variable (hashes : Hashes)

/-- `create_session`, with the token that is drawn: its id, and when it expires. -/
def createSession (userId : Nat) (rawToken : Text) (lifetime issuedAt newId : Nat) : AccountTx (Nat × Nat) := do
  insertSession ⟨userId, hashes.sha256 rawToken, issuedAt + lifetime, none, some issuedAt⟩ newId
  pure (newId, issuedAt + lifetime)

/-- A token that is looked up at all. -/
def isTokenInput (rawToken : Text) : Bool := !rawToken.isEmpty && decide (rawToken.length ≤ maxRawTokenInputLength)

/-- `_TOUCH_LAST_SEEN_SQL`: the session is still valid, and was not seen lately. -/
def isStale (checkedAt : Nat) (row : SessionRow) : Bool :=
  row.revokedAt.isNone && decide (checkedAt < row.expiresAt) &&
    row.lastSeenAt.all fun seen => decide (seen + lastSeenThrottle < checkedAt)

def touchLastSeen (sessionId checkedAt : Nat) : AccountTx Bool :=
  Tx.updateRow (.session sessionId) .noKeyUpdate (fun store => (store.sessions.get? sessionId).any (isStale checkedAt))
    (fun store => (store.sessions.get? sessionId).any (isStale checkedAt)) fun store =>
      store.adjustSession sessionId (SessionRow.touch checkedAt)

def validateSession (rawToken : Text) (checkedAt : Nat) : AccountTx (Option Store.AuthUser) :=
  if isTokenInput rawToken then do
    match ← Tx.select fun store => store.findValidSession (hashes.sha256 rawToken) checkedAt with
    | none => pure none
    | some (sessionId, user) => do
        let _ ← touchLastSeen sessionId checkedAt
        pure (some user)
  else pure none

/-- The session of the token, if it is not revoked. -/
def SessionRow.isOpenWith (tokenHash : Text) (row : SessionRow) : Bool :=
  row.tokenHash = tokenHash && row.revokedAt.isNone

/-- `revoke_session`: whether there was one to revoke. -/
def revokeSession (rawToken : Text) (checkedAt : Nat) : AccountTx Bool :=
  if isTokenInput rawToken then do
    let revoked ← revokeWhere (SessionRow.isOpenWith (hashes.sha256 rawToken)) checkedAt
    pure (!revoked.isEmpty)
  else pure false

/-! ### Logins and accounts -/

def recordFailedLogin (userId clock : Nat) : AccountTx Bool := updateUser userId (UserRow.failLogin clock)

def recordSuccessfulLogin (userId clock : Nat) : AccountTx Bool := updateUser userId (UserRow.login clock)

variable (sqlLower : Text → Text)

/-- `create_user_with_connection`: `INSERT ... ON CONFLICT DO NOTHING`, with the salt and the id that are drawn. -/
def createUserWithConnection (email password fullName salt : Text) (newId : Nat) : AccountTx (Option Nat) := do
  let row : UserRow := ⟨lower (strip email), strip fullName, some (hashes.generatePasswordHash salt password), true, 0, none,
    none, none, none⟩
  Tx.lockRow (.address (sqlLower row.email)) .update
  Tx.lockRow (.user newId) .update
  let conflict ← Tx.select fun store => (store.users.get? newId).isSome || store.users.entries.any fun entry =>
    entry.2.email = row.email || sqlLower entry.2.email = sqlLower row.email
  if conflict then pure none
  else do
    Tx.change fun store => { store with users := store.users.set newId row }
    pure (some newId)

/-- The `UPDATE` of `update_profile_name`: the user is active, and the name is another. -/
def updateProfileName (userId : Nat) (name : Text) : AccountTx Bool :=
  let holds : Store → Bool := fun store => (store.users.get? userId).any fun user => user.isActive && user.fullName ≠ name
  Tx.updateRow (.user userId) .noKeyUpdate holds holds fun store => store.adjustUser userId (UserRow.rename name)

/-- What `set_global_account_active` writes to these tables, once its checks have passed. -/
def setAccountActive (userId : Nat) (isActive : Bool) (now : Nat) : AccountTx Unit := do
  let _ ← updateUser userId (UserRow.setActive isActive)
  if isActive then pure ()
  else do
    let _ ← revokeAllSessionsForUserWithConnection userId now
    pure ()

/-! ### Passwords -/

/-- What a request for a reset answers: always the same reply, and for an active account the token and where it is
to be sent. -/
structure ResetRequest where
  reply : Reply
  token : Option (Text × Text)

/-- `request_password_reset`, with the token and the row id that are drawn. -/
def requestPasswordReset (email rawToken : Text) (now clock newId : Nat) : AccountTx ResetRequest := do
  match ← Tx.select fun store => store.userByEmail sqlLower (lower (strip email)) with
  | none => pure ⟨.resetRequested, none⟩
  | some (userId, user) =>
      if user.isActive then do
        let _ ← useResetTokens userId clock
        insertResetToken ⟨userId, hashes.sha256 rawToken, now + passwordReset, none⟩ newId
        pure ⟨.resetRequested, some (rawToken, user.email)⟩
      else pure ⟨.resetRequested, none⟩

/-- How an attempt to set a password ends: refused, or with the sessions that were revoked. -/
inductive PasswordOutcome where
  | refused (reply : Reply)
  | done (revokedSessions : Nat)

/-- What both ways to set a password ask of the new one. -/
def newPasswordProblem (newPassword confirmPassword : Text) : Option Reply :=
  if newPassword.length < 8 then some .passwordTooShort
  else if newPassword ≠ confirmPassword then some .passwordMismatch
  else none

/-- A hash that there is, and that is not empty. -/
def storedHash (passwordHash : Option Text) : Option Text := passwordHash.filter fun hash => !hash.isEmpty

/-- The password is the one that the hash is of. -/
def matchesHash (passwordHash : Option Text) (password : Text) : Bool :=
  (storedHash passwordHash).any fun hash => hashes.checkPasswordHash hash password

/-- How a reset ends: with the token and the user that it was for, when it is done. -/
inductive ResetOutcome where
  | refused (reply : Reply)
  | done (tokenId userId revokedSessions : Nat)

/-- The transaction of `reset_password_with_token`, once its arguments have passed. -/
def completeReset (tokenHash newPassword salt : Text) (clock now : Nat) : AccountTx ResetOutcome := do
  match ← lockResetRow tokenHash clock with
  | none => pure (.refused .invalidResetToken)
  | some row =>
      if row.isActive = false then pure (.refused .invalidResetToken)
      else if matchesHash hashes row.passwordHash newPassword then pure (.refused .samePassword)
      else do
        let _ ← updateUser row.userId (UserRow.setPassword (hashes.generatePasswordHash salt newPassword) clock)
        let _ ← useResetTokens row.userId clock
        let revoked ← revokeAllSessionsForUserWithConnection row.userId now
        pure (.done row.id row.userId revoked)

def resetPasswordWithToken (token newPassword confirmPassword salt : Text) (clock now : Nat) : AccountTx ResetOutcome :=
  if (strip token).isEmpty then pure (.refused .invalidResetToken)
  else match newPasswordProblem newPassword confirmPassword with
    | some reply => pure (.refused reply)
    | none => completeReset hashes (hashes.sha256 (strip token)) newPassword salt clock now

/-- Why the user may not change the password to the new one. -/
def passwordChangeProblem (user : Option UserRow) (currentPassword newPassword confirmPassword : Text) : Option Reply :=
  match user with
  | none => some .userNotFound
  | some user =>
      if user.isActive = false then some .inactive
      else if matchesHash hashes user.passwordHash currentPassword = false then some .invalidCurrentPassword
      else match newPasswordProblem newPassword confirmPassword with
        | some reply => some reply
        | none => if matchesHash hashes user.passwordHash newPassword then some .samePassword else none

def changePassword (userId : Nat) (currentPassword newPassword confirmPassword salt : Text) (clock now : Nat) :
    AccountTx PasswordOutcome := do
  let user ← Tx.select fun store => store.users.get? userId
  match passwordChangeProblem hashes user currentPassword newPassword confirmPassword with
  | some reply => pure (.refused reply)
  | none => do
      let _ ← updateUser userId (UserRow.setPassword (hashes.generatePasswordHash salt newPassword) clock)
      let revoked ← revokeAllSessionsForUserWithConnection userId now
      pure (.done revoked)

end Accounts

end SortView
