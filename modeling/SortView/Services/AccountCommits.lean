import SortView.Services.AccountMoves

/-!
# Commits of the operations on accounts

Each operation keeps the protocol of the accounts. A reset locks its token and its user, so that nobody else sets the
password, asks for a token or opens a session of the user until it has committed.
-/

namespace SortView

namespace Accounts

open PyText Transactions Transactions.Protocol Tables

variable {hashes : Hashes} {answer : AccountAnswer} {locks more : Locks Row} {redo : Store → Store}
  {committed now later : Store} {userId : Nat}

/-! ### Writes to users -/

/-- Writes to users under their locks, and to nothing else. -/
structure UserWrite (locks : Locks Row) (redo : Store → Store) : Prop where
  users : ∀ view, TableMoves (ChangesUser locks) (fun _ _ => False) view.users (redo view).users
  resetTokens : ∀ view, (redo view).resetTokens = view.resetTokens
  sessions : ∀ view, (redo view).sessions = view.sessions

theorem userWrite_id : UserWrite locks id := ⟨fun _ => .same rfl, fun _ => rfl, fun _ => rfl⟩

theorem userWrite_adjust {update : UserRow → UserRow} (hlock : WriteLocked locks (.user userId)) :
    UserWrite locks fun store => store.adjustUser userId update :=
  ⟨fun _ => .adjusted fun _ _ => hlock, fun _ => rfl, fun _ => rfl⟩

theorem UserWrite.mono (h : UserWrite locks redo) (hmore : locks ⊆ more) : UserWrite more redo :=
  ⟨fun view => (h.users view).mono (fun _ _ _ hlocked => hlocked.imp (@hmore _) (@hmore _)) fun _ _ hfalse => hfalse,
    h.resetTokens, h.sessions⟩

/-- With the sessions that are revoked on top. -/
theorem UserWrite.moves (h : UserWrite locks redo) (hanswer : ∀ tokenId userId revoked, answer ≠ .reset (.done tokenId userId revoked))
    (changed : List Nat) (clock : Nat) : AccountMoves hashes answer locks later
      { redo later with sessions := adjustAll changed (SessionRow.revoke clock) (redo later).sessions } where
  users := (h.users later).mono (fun _ _ _ hlocked => hlocked) fun _ _ hfalse => hfalse.elim
  resetTokens := .same (h.resetTokens later)
  sessions := by
    dsimp only
    rw [h.sessions later]
    exact .swept (fun _ => rfl) fun _ _ _ _ => ⟨clock, .inl rfl⟩
  reset tokenId userId revoked heq := absurd heq (hanswer tokenId userId revoked)

theorem UserWrite.commits (h : UserWrite locks redo) (hanswer : ∀ tokenId userId revoked, answer ≠ .reset (.done tokenId userId revoked)) :
    (accountProtocol hashes).Commits answer locks redo now :=
  commits_of_moves fun _ _ _ => h.moves hanswer [] 0

theorem wp_updateUserRow {post : Bool → Locks Row → (Store → Store) → Store → Prop} {found again : Store → Bool}
    {update : UserRow → UserRow}
    (h : ∀ now more changed redo, (accountProtocol hashes).Rely locks committed now → now.Constraints → locks ⊆ more →
      UserWrite more redo → post changed more redo now) :
    (accountProtocol hashes).Wp post (Tx.updateRow (.user userId) .noKeyUpdate found again
      (fun store => store.adjustUser userId update) : AccountTx Bool) locks id committed := by
  refine wp_updateRow (fun now more hnow hinv hmore => h now more false id hnow hinv hmore userWrite_id)
    fun before now hbefore _ hnow hinv _ => ?_
  exact h now _ true _ (hbefore.trans hnow) hinv (List.subset_cons_self _ _) (userWrite_adjust (.inl List.mem_cons_self))

/-- A user who is locked and there is updated. -/
theorem wp_updateUser_locked {post : Bool → Locks Row → (Store → Store) → Store → Prop} {update : UserRow → UserRow}
    {user : UserRow} (hlock : (Row.user userId, Mode.update) ∈ locks) (hinv : committed.Constraints)
    (huser : committed.users.get? userId = some user)
    (h : ∀ now, (accountProtocol hashes).Rely locks committed now → now.Constraints →
      post true ((.user userId, .noKeyUpdate) :: locks) (fun store => store.adjustUser userId update) now) :
    (accountProtocol hashes).Wp post (updateUser userId update) locks id committed := by
  refine wp_updateRow_found (fun view hview => ?_) fun now hnow hnowInv => h now hnow hnowInv
  rw [id_eq, rely_user hview hinv hlock huser]
  exact ⟨rfl, rfl⟩

/-! ### Rows that are inserted -/

/-- An id and a hash that are locked for a new row are used by no one else. -/
theorem rely_free {ν : Type} (rows : Store → Dict Nat ν) (value : ν → Text) {lockOf : Nat → Row} {hashOf : Text → Row}
    {id : Nat} {hash : Text} {before after : Store}
    (hmoves : ∀ answer theirs s s', AccountMoves hashes answer theirs s s' → ∃ changes adds,
      TableMoves changes adds (rows s) (rows s') ∧ (∀ id row row', changes id row row' → value row' = value row) ∧
        ∀ id row, adds id row → (lockOf id, Mode.update) ∈ theirs ∧ (hashOf (value row), Mode.update) ∈ theirs)
    (h : (accountProtocol hashes).Rely locks before after) (hinv : before.Constraints)
    (hkey : (lockOf id, Mode.update) ∈ locks) (hhash : (hashOf hash, Mode.update) ∈ locks)
    (hfree : (rows before).get? id = none ∧ ∀ id row, (rows before).get? id = some row → value row ≠ hash) :
    (rows after).get? id = none ∧ ∀ id row, (rows after).get? id = some row → value row ≠ hash := by
  refine account_keeps h hinv (fun store => (rows store).get? id = none ∧ ∀ id row, (rows store).get? id = some row →
    value row ≠ hash) (fun answer theirs s s' hcompatible hguar hfact => ?_) hfree
  obtain ⟨changes, adds, htable, hkeeps, hlocked⟩ := hmoves answer theirs s s' hguar
  constructor
  · by_contra hne
    obtain ⟨row, hrow⟩ := Option.ne_none_iff_exists'.1 hne
    exact not_mem_of_update hcompatible hkey (hlocked id row (htable.added id row hfact.1 hrow)).1
  · intro other row hrow hsame
    obtain ⟨old, hold, rfl | hchanges⟩ | ⟨_, hadds⟩ := htable.cases hrow
    · exact hfact.2 other _ hold hsame
    · exact hfact.2 other old hold ((hkeeps other old row hchanges).symm.trans hsame)
    · exact not_mem_of_update hcompatible hhash (hsame ▸ (hlocked other row hadds).2)

/-- A row of a table whose hashes are unique, under a user. -/
theorem wp_insertUnique {ν : Type} (rows : Store → Dict Nat ν) (value : ν → Text) {lockOf : Nat → Row}
    {hashOf : Text → Row} {post : Unit → Locks Row → (Store → Store) → Store → Prop} {newId : Nat} {hash : Text}
    {present : Store → Bool} {duplicate missing : AccountFailure} {put : Store → Store}
    (hmoves : ∀ answer theirs s s', AccountMoves hashes answer theirs s s' → ∃ changes adds,
      TableMoves changes adds (rows s) (rows s') ∧ (∀ id row row', changes id row row' → value row' = value row) ∧
        ∀ id row, adds id row → (lockOf id, Mode.update) ∈ theirs ∧ (hashOf (value row), Mode.update) ∈ theirs)
    (hredo : ∀ view id row, (rows view).get? id = some row → ∃ row', (rows (redo view)).get? id = some row' ∧ value row' = value row)
    (hinv : committed.Constraints)
    (h : ∀ now more, (accountProtocol hashes).Rely locks committed now → now.Constraints → locks ⊆ more →
      (lockOf newId, Mode.update) ∈ more → (hashOf hash, Mode.update) ∈ more → (Row.user userId, Mode.keyShare) ∈ more →
      ((rows now).get? newId = none ∧ ∀ id row, (rows now).get? id = some row → value row ≠ hash) → post () more (put ∘ redo) now) :
    (accountProtocol hashes).Wp post (Tx.insertRow [lockOf newId, hashOf hash]
      (fun store => ((rows store).get? newId).isSome || (rows store).entries.any fun entry => value entry.2 = hash)
      [.user userId] present duplicate missing put) locks redo committed := by
  refine wp_insertRow (fun before now held more hbefore hbeforeInv hfree hnow hnowInv hheld hmore hkeys hreferences _ => ?_) hinv
  have hkey : (lockOf newId, Mode.update) ∈ held := hkeys _ (by simp)
  have hhash : (hashOf hash, Mode.update) ∈ held := hkeys _ (by simp)
  have hthen : (accountProtocol hashes).Rely held before now := hnow
  refine h now more (hbefore.trans (Rely.mono hnow hheld)) hnowInv (List.Subset.trans hheld hmore) (hmore hkey) (hmore hhash)
    (hreferences _ List.mem_cons_self) (rely_free rows value hmoves hnow hbeforeInv hkey hhash ⟨?_, fun id row hrow hsame => ?_⟩)
  · rw [Bool.or_eq_false_iff] at hfree
    by_contra hne
    obtain ⟨row, hrow⟩ := Option.ne_none_iff_exists'.1 hne
    obtain ⟨row', hrow', _⟩ := hredo before newId row hrow
    simp [hrow'] at hfree
  · rw [Bool.or_eq_false_iff] at hfree
    obtain ⟨row', hrow', hvalue⟩ := hredo before id row hrow
    have hother := any_entries_eq_false (fun row => decide (value row = hash)) hfree.2 hrow'
    simp [hvalue, hsame] at hother

theorem resetToken_moves (answer : AccountAnswer) (theirs : Locks Row) (s s' : Store)
    (h : AccountMoves hashes answer theirs s s') : ∃ changes adds, TableMoves changes adds s.resetTokens s'.resetTokens ∧
      (∀ id (row row' : ResetTokenRow), changes id row row' → row'.tokenHash = row.tokenHash) ∧ ∀ id row, adds id row →
        (Row.resetToken id, Mode.update) ∈ theirs ∧ (Row.resetTokenHash row.tokenHash, Mode.update) ∈ theirs :=
  ⟨_, _, h.resetTokens, fun _ _ _ ⟨_, _, hrow⟩ => hrow ▸ rfl, fun _ _ hadds => ⟨hadds.key, hadds.hash⟩⟩

theorem session_moves (answer : AccountAnswer) (theirs : Locks Row) (s s' : Store)
    (h : AccountMoves hashes answer theirs s s') : ∃ changes adds, TableMoves changes adds s.sessions s'.sessions ∧
      (∀ id (row row' : SessionRow), changes id row row' → row'.tokenHash = row.tokenHash) ∧ ∀ id row, adds id row →
        (Row.session id, Mode.update) ∈ theirs ∧ (Row.sessionHash row.tokenHash, Mode.update) ∈ theirs := by
  refine ⟨_, _, h.sessions, fun _ _ _ ⟨_, hrow⟩ => ?_, fun _ _ hadds => ⟨hadds.key, hadds.hash⟩⟩
  obtain rfl | rfl := hrow <;> rfl

/-! ### Sessions -/

theorem commits_createSession {rawToken : Text} {lifetime issuedAt newId : Nat} (hinv : committed.Constraints) :
    (accountProtocol hashes).Wp (fun session => (accountProtocol hashes).Commits (.opened session))
      (createSession hashes userId rawToken lifetime issuedAt newId) [] id committed := by
  simp only [createSession, insertSession, wp_bind]
  refine wp_insertUnique Store.sessions SessionRow.tokenHash session_moves (fun view id row hrow => ⟨row, hrow, rfl⟩) hinv
    fun first more _ hfirstInv _ hkey hhash huser hfree => ?_
  simp only [wp_pure]
  refine commits_of_moves fun later hlater _ => ?_
  obtain ⟨hnone, hunique⟩ := rely_free Store.sessions SessionRow.tokenHash session_moves hlater hfirstInv hkey hhash hfree
  exact ⟨.same rfl, .same rfl, .inserted (.same rfl) hnone ⟨hkey, hhash, hunique, huser⟩, by simp⟩

/-- Whatever a transaction answers that revokes sessions last. -/
theorem commits_revokeWhere {holds : SessionRow → Bool} {clock : Nat} {result : List Nat → AccountAnswer} (hwrite : UserWrite locks redo)
    (hanswer : ∀ changed tokenId userId revoked, result changed ≠ AccountAnswer.reset (.done tokenId userId revoked)) :
    (accountProtocol hashes).Wp (fun changed => (accountProtocol hashes).Commits (result changed))
      (revokeWhere holds clock) locks redo committed := by
  refine wp_sweep (fun left right view hne => ?_) fun before now more changed _ _ _ _ hmore _ _ _ => ?_
  · simp only [Store.adjustSession, get?_adjust, if_neg hne]
  · refine commits_of_moves fun later _ _ => ?_
    have hmoves : AccountMoves hashes (result changed) more later
        { redo later with sessions := adjustAll changed (SessionRow.revoke clock) (redo later).sessions } :=
      (hwrite.mono hmore).moves (hanswer changed) changed clock
    simpa only [Function.comp_def, foldl_sessions] using hmoves

theorem commits_revokeAll {clock : Nat} {result : Nat → AccountAnswer} (hwrite : UserWrite locks redo)
    (hanswer : ∀ count tokenId userId revoked, result count ≠ .reset (.done tokenId userId revoked)) :
    (accountProtocol hashes).Wp (fun count => (accountProtocol hashes).Commits (result count))
      (revokeAllSessionsForUserWithConnection userId clock) locks redo committed := by
  simp only [revokeAllSessionsForUserWithConnection, wp_bind]
  exact commits_revokeWhere hwrite fun changed => hanswer changed.length

theorem commits_revokeSession {rawToken : Text} {checkedAt : Nat} :
    (accountProtocol hashes).Wp (fun found => (accountProtocol hashes).Commits (.revoked found))
      (revokeSession hashes rawToken checkedAt) [] id committed := by
  simp only [revokeSession, wp_ite]
  refine ⟨fun _ => ?_, fun _ => userWrite_id.commits (by simp)⟩
  simp only [wp_bind]
  exact commits_revokeWhere userWrite_id (by simp)

theorem commits_validateSession {rawToken : Text} {checkedAt : Nat} :
    (accountProtocol hashes).Wp (fun user => (accountProtocol hashes).Commits (.validated user))
      (validateSession hashes rawToken checkedAt) [] id committed := by
  simp only [validateSession, wp_ite]
  refine ⟨fun _ => ?_, fun _ => userWrite_id.commits (by simp)⟩
  simp only [wp_bind, wp_select]
  intro first _ _
  split
  · exact userWrite_id.commits (by simp)
  · simp only [touchLastSeen, wp_bind]
    refine wp_updateRow (fun _ _ _ _ _ => userWrite_id.commits (by simp)) fun _ _ _ _ _ _ _ => ?_
    refine commits_of_moves fun later _ _ => ⟨.same rfl, .same rfl, .adjusted fun _ _ => ⟨checkedAt, .inr rfl⟩, by simp⟩

/-! ### Accounts -/

theorem rely_no_user {before after : Store} {id : Nat} (h : (accountProtocol hashes).Rely locks before after)
    (hinv : before.Constraints) (hlock : (Row.user id, Mode.update) ∈ locks) (hnone : before.users.get? id = none) :
    after.users.get? id = none := by
  refine account_keeps h hinv (fun store => store.users.get? id = none) (fun _ _ s s' hcompatible hmoves hfact => ?_) hnone
  by_contra hne
  obtain ⟨row, hrow⟩ := Option.ne_none_iff_exists'.1 hne
  exact not_mem_of_update hcompatible hlock (hmoves.users.added id row hfact hrow)

theorem commits_createUser {sqlLower : Text → Text} {email password fullName salt : Text} {newId : Nat} :
    (accountProtocol hashes).Wp (fun userId => (accountProtocol hashes).Commits (.created userId))
      (createUserWithConnection hashes sqlLower email password fullName salt newId) [] id committed := by
  simp only [createUserWithConnection, wp_bind, wp_lockRow, wp_select, wp_ite, wp_change, wp_pure]
  intro first _ _ second _ _ third _ hthirdInv
  refine ⟨fun _ => userWrite_id.commits (by simp), fun hfree => commits_of_moves fun later hlater _ => ?_⟩
  have hnone : third.users.get? newId = none := by
    by_contra hne
    obtain ⟨row, hrow⟩ := Option.ne_none_iff_exists'.1 hne
    simp [hrow] at hfree
  exact ⟨.inserted (.same rfl) (rely_no_user hlater hthirdInv List.mem_cons_self hnone) List.mem_cons_self, .same rfl, .same rfl,
    by simp⟩

theorem commits_setAccountActive {isActive : Bool} {clock : Nat} :
    (accountProtocol hashes).Wp (fun _ => (accountProtocol hashes).Commits .activated)
      (setAccountActive userId isActive clock) [] id committed := by
  simp only [setAccountActive, updateUser, wp_bind]
  refine wp_updateUserRow fun first more _ redo _ _ _ hwrite => ?_
  simp only [wp_ite, wp_pure, wp_bind]
  exact ⟨fun _ => hwrite.commits (by simp), fun _ => commits_revokeAll hwrite (by simp)⟩

/-! ### Passwords -/

theorem commits_changePassword {currentPassword newPassword confirmPassword salt : Text} {clock checkedAt : Nat} :
    (accountProtocol hashes).Wp (fun outcome => (accountProtocol hashes).Commits (.changed outcome))
      (changePassword hashes userId currentPassword newPassword confirmPassword salt clock checkedAt) [] id committed := by
  simp only [changePassword, updateUser, wp_bind, wp_select]
  intro first _ _
  split
  · exact userWrite_id.commits (by simp)
  · simp only [wp_bind]
    refine wp_updateUserRow fun second more _ redo _ _ _ hwrite => ?_
    exact commits_revokeAll hwrite (by simp)

theorem commits_requestPasswordReset {sqlLower : Text → Text} {email rawToken : Text} {clock issuedAt newId : Nat} :
    (accountProtocol hashes).Wp (fun request => (accountProtocol hashes).Commits (.requested request))
      (requestPasswordReset hashes sqlLower email rawToken issuedAt clock newId) [] id committed := by
  simp only [requestPasswordReset, wp_bind, wp_select]
  intro first _ hfirstInv
  split
  · exact userWrite_id.commits (by simp)
  · simp only [wp_ite]
    refine ⟨fun _ => ?_, fun _ => userWrite_id.commits (by simp)⟩
    simp only [insertResetToken, wp_bind]
    refine wp_useResetTokens (fun _ => rfl) hfirstInv fun second held changed _ hsecondInv _ hlocked _ => ?_
    refine wp_insertUnique Store.resetTokens ResetTokenRow.tokenHash resetToken_moves (fun view id row hrow => ?_) hsecondInv
      fun third more _ hthirdInv hmore hkey hhash huser hfree => ?_
    · simp only [Function.comp_def, id_eq, get?_adjustAll (ResetTokenRow.use_use clock), hrow]
      split
      · exact ⟨_, rfl, rfl⟩
      · exact ⟨_, rfl, rfl⟩
    · simp only [wp_pure]
      refine commits_of_moves fun later hlater _ => ?_
      obtain ⟨hnone, hunique⟩ := rely_free Store.resetTokens ResetTokenRow.tokenHash resetToken_moves hlater hthirdInv hkey hhash hfree
      refine ⟨.same rfl, .inserted (.swept (fun _ => rfl) fun id hid row _ => ?_) hnone ⟨hkey, hhash, hunique, huser⟩, .same rfl, by simp⟩
      exact ⟨.inl (hmore (hlocked id hid)), clock, rfl⟩

/-! ### Resets -/

theorem resetRow?_eq_some {store : Store} {tokenHash : Text} {clock id : Nat} {row : Store.ResetRow}
    (h : store.resetRow? tokenHash clock id = some row) : ∃ token user, store.resetTokens.get? id = some token ∧
      token.usedAt = none ∧ store.users.get? token.userId = some user ∧
      row = ⟨id, token.userId, user.email, user.passwordHash, user.isActive⟩ := by
  unfold Store.resetRow? at h
  split at h
  · cases h
  · next token htoken =>
    split at h
    · next hopen =>
      obtain ⟨user, huser, rfl⟩ := Option.map_eq_some_iff.1 h
      simp only [Bool.and_eq_true, Option.isNone_iff_eq_none] at hopen
      exact ⟨token, user, htoken, hopen.1.2, huser, rfl⟩
    · cases h

/-- Either no row is found that is still there when it is locked, or the token and its user are locked as they are. -/
theorem wp_lockResetRow {post : Option Store.ResetRow → Locks Row → (Store → Store) → Store → Prop} {tokenHash : Text}
    {clock : Nat}
    (hnone : ∀ now more, (accountProtocol hashes).Rely [] committed now → now.Constraints → post none more id now)
    (hsome : ∀ now more row token user, (accountProtocol hashes).Rely [] committed now → now.Constraints →
      (Row.resetToken row.id, Mode.update) ∈ more → (Row.user row.userId, Mode.update) ∈ more →
      now.resetTokens.get? row.id = some token → token.userId = row.userId → token.usedAt = none →
      now.users.get? row.userId = some user → row.passwordHash = user.passwordHash → row.isActive = user.isActive →
      post (some row) more id now) :
    (accountProtocol hashes).Wp post (lockResetRow tokenHash clock) [] id committed := by
  simp only [lockResetRow, wp_bind, wp_select]
  intro first hfirst hfirstInv
  split
  · exact hnone first [] hfirst hfirstInv
  · next found hfound =>
    simp only [wp_bind, wp_lockRow, wp_select]
    intro second hsecond hsecondInv third hthird hthirdInv fourth hfourth hfourthInv
    have hlater : (accountProtocol hashes).Rely [] first fourth :=
      hsecond.trans ((hthird.mono (List.nil_subset _)).trans (hfourth.mono (List.nil_subset _)))
    obtain ⟨at', _, hat⟩ := List.exists_of_findSome?_eq_some hfound
    obtain ⟨token, user, htoken, _, _, rfl⟩ := resetRow?_eq_some hat
    show post (fourth.resetRow? tokenHash clock at') _ id fourth
    cases hrow : fourth.resetRow? tokenHash clock at' with
    | none => exact hnone fourth _ (hfirst.trans hlater) hfourthInv
    | some row =>
        obtain ⟨token', user', htoken', hunused, huser', rfl⟩ := resetRow?_eq_some hrow
        obtain ⟨token'', htoken'', hsame, _⟩ := rely_resetToken hlater hfirstInv htoken
        rw [htoken'] at htoken''
        cases htoken''
        exact hsome fourth _ _ token' user' (hfirst.trans hlater) hfourthInv (by simp) (by simp [hsame]) htoken' rfl hunused huser'
          rfl rfl

/-- The tokens of a user who is locked, once those that were there have been swept. -/
theorem noOpenToken_of_swept {start : Store} {changed : List Nat} {clock : Nat}
    (hlock : (Row.user userId, Mode.update) ∈ locks) (hnow : (accountProtocol hashes).Rely locks start now)
    (hstart : start.Constraints) (hlater : (accountProtocol hashes).Rely locks now later) (hnowInv : now.Constraints)
    (hover : ∀ id row row', start.resetTokens.get? id = some row → now.resetTokens.get? id = some row' →
      id ∈ changed ∨ row'.isOpenFor userId = false) {id : Nat} {row : ResetTokenRow}
    (hrow : (adjustAll changed (ResetTokenRow.use clock) later.resetTokens).get? id = some row) (huser : row.userId = userId) :
    row.usedAt.isSome := by
  rw [get?_adjustAll (ResetTokenRow.use_use clock)] at hrow
  split at hrow
  · obtain ⟨old, _, rfl⟩ := Option.map_eq_some_iff.1 hrow
    rfl
  · next hnot =>
    obtain ⟨first, hfirst⟩ := rely_oldResetToken (hnow.trans hlater) hstart hlock hrow huser
    obtain ⟨middle, hmiddle, _⟩ := rely_resetToken hnow hstart hfirst
    obtain ⟨last, hlast, hsame, _, hused⟩ := rely_resetToken hlater hnowInv hmiddle
    rw [hrow] at hlast
    cases hlast
    have hclosed := (hover id first middle hfirst hmiddle).resolve_left hnot
    refine hused ?_
    simpa [ResetTokenRow.isOpenFor, hsame.symm.trans huser, Option.isSome_iff_ne_none] using hclosed

/-- The sessions of a user who is locked, once those that were there have been swept. -/
theorem noOpenSession_of_swept {start : Store} {changed : List Nat} {clock : Nat}
    (hlock : (Row.user userId, Mode.update) ∈ locks) (hnow : (accountProtocol hashes).Rely locks start now)
    (hstart : start.Constraints) (hlater : (accountProtocol hashes).Rely locks now later) (hnowInv : now.Constraints)
    (hover : ∀ id row row', start.sessions.get? id = some row → now.sessions.get? id = some row' →
      id ∈ changed ∨ row'.isOpenFor userId = false) {id : Nat} {row : SessionRow}
    (hrow : (adjustAll changed (SessionRow.revoke clock) later.sessions).get? id = some row) (huser : row.userId = userId) :
    row.revokedAt.isSome := by
  rw [get?_adjustAll (SessionRow.revoke_revoke clock)] at hrow
  split at hrow
  · obtain ⟨old, _, rfl⟩ := Option.map_eq_some_iff.1 hrow
    rfl
  · next hnot =>
    obtain ⟨first, hfirst⟩ := rely_oldSession (hnow.trans hlater) hstart hlock hrow huser
    obtain ⟨middle, hmiddle, _⟩ := rely_session hnow hstart hfirst
    obtain ⟨last, hlast, hsame, _, hrevoked⟩ := rely_session hlater hnowInv hmiddle
    rw [hrow] at hlast
    cases hlast
    have hclosed := (hover id first middle hfirst hmiddle).resolve_left hnot
    refine hrevoked ?_
    simpa [SessionRow.isOpenFor, hsame.symm.trans huser, Option.isSome_iff_ne_none] using hclosed

/-- A session of a user stays one, and stays closed. -/
theorem isOpenFor_keeps (row row' : SessionRow) (huser : row'.userId = row.userId) (_ : row'.tokenHash = row.tokenHash)
    (hrevoked : row.revokedAt.isSome → row'.revokedAt.isSome) (hclosed : row.isOpenFor userId = false) :
    row'.isOpenFor userId = false := by
  simp only [SessionRow.isOpenFor, Bool.and_eq_false_iff, decide_eq_false_iff_not, Option.isNone_eq_false_iff, huser] at hclosed ⊢
  exact hclosed.imp_right hrevoked

theorem commits_completeReset {tokenHash newPassword salt : Text} {clock checkedAt : Nat} :
    (accountProtocol hashes).Wp (fun outcome => (accountProtocol hashes).Commits (.reset outcome))
      (completeReset hashes tokenHash newPassword salt clock checkedAt) [] id committed := by
  simp only [completeReset, wp_bind]
  refine wp_lockResetRow (fun _ _ _ _ => userWrite_id.commits (by simp))
    fun first held row token user _ hfirstInv htokenLock huserLock htoken howner hunused huser hhash hactive => ?_
  simp only [wp_ite, wp_pure]
  refine ⟨fun _ => userWrite_id.commits (by simp), fun hon => ⟨fun _ => userWrite_id.commits (by simp), fun hdiffers => ?_⟩⟩
  simp only [wp_bind]
  refine wp_updateUser_locked huserLock hfirstInv huser fun second hsecond hsecondInv => ?_
  refine wp_useResetTokens (fun _ => rfl) hsecondInv fun third more used hthird hthirdInv hmore hused husedUp => ?_
  simp only [revokeAllSessionsForUserWithConnection, wp_bind]
  refine wp_revokeWhere (fun _ => rfl) hthirdInv isOpenFor_keeps fun fourth most revoked hfourth hfourthInv hmost hover => ?_
  refine commits_of_moves fun later hlater hlaterInv => ?_
  have hheld : held ⊆ most := fun _ hmem => hmost (hmore (.tail _ hmem))
  have hthirdHeld := Rely.mono hthird (List.subset_cons_self (Row.user row.userId, Mode.noKeyUpdate) held)
  have hfourthHeld := Rely.mono hfourth fun _ hmem => hmore (.tail _ hmem)
  have hlaterHeld := Rely.mono hlater hheld
  have hreached := hsecond.trans (hthirdHeld.trans (hfourthHeld.trans hlaterHeld))
  have hlaterUser := rely_user hreached hfirstInv huserLock huser
  refine ⟨.adjusted fun _ _ => .inr (hheld huserLock), .swept (fun _ => rfl) fun id hid _ _ => ⟨.inl (hmost (hused id hid)), clock, rfl⟩,
    .swept (fun _ => rfl) fun _ _ _ _ => ⟨checkedAt, .inl rfl⟩, ?_⟩
  rintro tokenId userId count heq
  cases heq
  refine ⟨⟨token, rely_resetToken_locked hreached hfirstInv htokenLock htoken, howner, hunused⟩,
    ⟨user, newPassword, salt, clock, hlaterUser, ?_, ?_, ?_⟩, fun id after hafter hsame => ?_, fun id after hafter hsame => ?_⟩
  · simpa [hactive] using hon
  · simpa [hhash] using hdiffers
  · show (adjust _ _ later.users).get? _ = _
    rw [get?_adjust, if_pos rfl, hlaterUser]
    rfl
  · exact noOpenToken_of_swept huserLock hthirdHeld hsecondInv (hfourthHeld.trans hlaterHeld) hthirdInv husedUp hafter hsame
  · exact noOpenSession_of_swept huserLock hfourthHeld hthirdInv hlaterHeld hfourthInv hover hafter hsame

/-! ### All operations -/

variable {sqlLower : Text → Text}

theorem commits_program (hinv : committed.Constraints) (call : AccountCall) :
    (accountProtocol hashes).Wp (accountProtocol hashes).Commits (call.program hashes sqlLower) [] id committed := by
  cases call with
  | requestPasswordReset => exact (wp_bind _ _).symm ▸ commits_requestPasswordReset
  | resetPasswordWithToken =>
      simp only [AccountCall.program, resetPasswordWithToken, wp_bind, wp_ite]
      refine ⟨fun _ => userWrite_id.commits (by simp), fun _ => ?_⟩
      split
      · exact userWrite_id.commits (by simp)
      · exact commits_completeReset
  | changePassword => exact (wp_bind _ _).symm ▸ commits_changePassword
  | createUser => exact (wp_bind _ _).symm ▸ commits_createUser
  | createSession => exact (wp_bind _ _).symm ▸ commits_createSession hinv
  | validateSession => exact (wp_bind _ _).symm ▸ commits_validateSession
  | revokeSession => exact (wp_bind _ _).symm ▸ commits_revokeSession
  | revokeAllSessionsForUser =>
      simp only [AccountCall.program, wp_bind]
      exact commits_revokeAll userWrite_id (by simp)
  | recordFailedLogin =>
      simp only [AccountCall.program, recordFailedLogin, updateUser, wp_bind]
      exact wp_updateUserRow fun _ _ _ _ _ _ _ hwrite => hwrite.commits (by simp)
  | recordSuccessfulLogin =>
      simp only [AccountCall.program, recordSuccessfulLogin, updateUser, wp_bind]
      exact wp_updateUserRow fun _ _ _ _ _ _ _ hwrite => hwrite.commits (by simp)
  | updateProfileName =>
      simp only [AccountCall.program, updateProfileName, wp_bind]
      exact wp_updateUserRow fun _ _ _ _ _ _ _ hwrite => hwrite.commits (by simp)
  | setAccountActive => exact (wp_bind _ _).symm ▸ commits_setAccountActive
  | offboardLibrary =>
      simp only [AccountCall.program, offboardRevokeSessions, wp_bind]
      exact commits_revokeWhere userWrite_id (by simp)

theorem account_follows : (accountProtocol hashes).Follows (AccountCall.Starts hashes sqlLower) := by
  rintro committed program hinv ⟨call, _, rfl⟩
  exact commits_program hinv call

end Accounts

end SortView
