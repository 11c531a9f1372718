import SortView.Services.AccountCommits

/-!
# Sessions and reset tokens that are over

Whatever else runs at the same time, a reset spends every token and ends every session that its user has when it
commits, and the operations that end sessions end all that were there when they began. None of them is ever valid
again.
-/

namespace SortView

namespace Accounts

open PyText Transactions Transactions.Protocol Tables

variable {hashes : Hashes} {sqlLower : Text → Text} {answer : AccountAnswer} {locks : Locks Row}
  {before after start : Store}

/-! ### Sessions that are revoked -/

/-- The session of the token is there, and is revoked. -/
def Store.Ended (store : Store) (tokenHash : Text) : Prop :=
  ∃ id row, store.sessions.get? id = some row ∧ row.tokenHash = tokenHash ∧ row.revokedAt.isSome

theorem AccountMoves.ended (h : AccountMoves hashes answer locks before after) {tokenHash : Text}
    (hended : before.Ended tokenHash) : after.Ended tokenHash := by
  obtain ⟨id, row, hrow, hhash, hrevoked⟩ := hended
  obtain ⟨row', hrow', _, hsame, hkept⟩ := h.session hrow
  exact ⟨id, row', hrow', hsame.trans hhash, hkept hrevoked⟩

/-- A token whose session is revoked is no one's. -/
theorem findValidSession_of_ended {store : Store} (hinv : store.Constraints) {tokenHash : Text}
    (hended : store.Ended tokenHash) (now : Nat) : store.findValidSession tokenHash now = none := by
  obtain ⟨id, row, hrow, hhash, hrevoked⟩ := hended
  refine List.findSome?_eq_none_iff.2 fun other _ => ?_
  unfold Store.validSession?
  split
  · rfl
  · next session hsession =>
    refine if_neg fun hopen => ?_
    simp only [Bool.and_eq_true, decide_eq_true_eq] at hopen
    obtain rfl := hinv.sessionHashes other id session row hsession hrow (hopen.1.1.trans hhash.symm)
    rw [hrow] at hsession
    cases hsession
    rw [Option.isNone_iff_eq_none.1 hopen.1.2] at hrevoked
    cases hrevoked

/-! ### What a call ends -/

namespace AccountCall

/-- The sessions that a call ends when it is done. -/
def ends? (hashes : Hashes) : AccountCall → Option (SessionRow → Bool)
  | .changePassword userId _ _ _ _ _ _ => some fun row => row.userId = userId
  | .revokeAllSessionsForUser userId _ => some fun row => row.userId = userId
  | .setAccountActive userId isActive _ => if isActive then none else some fun row => row.userId = userId
  | .revokeSession rawToken _ =>
      if isTokenInput rawToken then some fun row => row.tokenHash = hashes.sha256 rawToken else none
  | .offboardLibrary isCutOff _ => some fun row => isCutOff row.userId
  | _ => none

end AccountCall

/-- The call was done, and not refused. -/
def AccountAnswer.isDone : AccountAnswer → Bool
  | .reset (.refused _) | .changed (.refused _) => false
  | _ => true

/-- When the transaction commits, the sessions that match and were there at the start are revoked. -/
def EndsSessions (hashes : Hashes) (start : Store) (holds : SessionRow → Bool) (answer : AccountAnswer) (locks : Locks Row)
    (redo : Store → Store) (committed : Store) : Prop :=
  answer.isDone = true → ∀ later, (accountProtocol hashes).Rely locks committed later → later.Constraints →
    ∀ id row, start.sessions.get? id = some row → holds row = true → (redo later).Ended row.tokenHash

theorem EndsSessions.later {holds : SessionRow → Bool} {redo : Store → Store} {committed now : Store}
    (h : EndsSessions hashes start holds answer locks redo committed) (hrely : (accountProtocol hashes).Rely locks committed now) :
    EndsSessions hashes start holds answer locks redo now :=
  fun hdone later hlater => h hdone later (hrely.trans hlater)

/-- The sessions that a sweep revokes are ended when it commits. -/
theorem wp_revokes (result : List Nat → AccountAnswer) {holds open' : SessionRow → Bool} {redo : Store → Store}
    {committed : Store} {clock : Nat} (hwrite : UserWrite locks redo) (hstart : start.Constraints)
    (hnow : (accountProtocol hashes).Rely [] start committed) (hinv : committed.Constraints)
    (hopen : ∀ row, open' row = (holds row && row.revokedAt.isNone))
    (hholds : ∀ row row' : SessionRow, row'.userId = row.userId → row'.tokenHash = row.tokenHash → holds row' = holds row) :
    (accountProtocol hashes).Wp (fun changed => EndsSessions hashes start holds (result changed))
      (revokeWhere open' clock) locks redo committed := by
  refine wp_revokeWhere hwrite.sessions hinv (fun row row' huser hhash hrevoked hclosed => ?_)
    fun second more changed hsecond hsecondInv hmore hover => ?_
  · rw [hopen, Bool.and_eq_false_iff, Option.isNone_eq_false_iff] at hclosed ⊢
    exact hclosed.imp (fun hnot => (hholds row row' huser hhash).trans hnot) hrevoked
  · intro _ later hlater hlaterInv id row hrow hmatches
    obtain ⟨first, hfirst, huser, hhash, _⟩ := rely_session hnow hstart hrow
    obtain ⟨middle, hmiddle, huser', hhash', _⟩ := rely_session hsecond hinv hfirst
    obtain ⟨last, hlast, huser'', hhash'', hkept⟩ := rely_session hlater hsecondInv hmiddle
    have hsessions : ((redo later).sessions).get? id = some last := (hwrite.sessions later).symm ▸ hlast
    have hsame : last.tokenHash = row.tokenHash := hhash''.trans (hhash'.trans hhash)
    have hget : (adjustAll changed (SessionRow.revoke clock) (redo later).sessions).get? id =
        if id ∈ changed then some (last.revoke clock) else some last := by
      rw [get?_adjustAll (SessionRow.revoke_revoke clock), hsessions]
      rfl
    by_cases hmem : id ∈ changed
    · exact ⟨id, last.revoke clock, hget.trans (if_pos hmem), hsame, rfl⟩
    · refine ⟨id, last, hget.trans (if_neg hmem), hsame, hkept ?_⟩
      have hclosed := (hover id first middle hfirst hmiddle).resolve_left hmem
      rw [hopen, hholds row middle (huser'.trans huser) (hhash'.trans hhash), hmatches, Bool.true_and,
        Option.isNone_eq_false_iff] at hclosed
      exact hclosed

/-- Every call that ends sessions ends those that are there when it starts. -/
theorem wp_ends {call : AccountCall} {holds : SessionRow → Bool} (hends : call.ends? hashes = some holds)
    (hstart : start.Constraints) :
    (accountProtocol hashes).Wp (EndsSessions hashes start holds) (call.program hashes sqlLower) [] id start := by
  have hall : ∀ (userId clock : Nat) (result : Nat → AccountAnswer) (more : Locks Row) (redo : Store → Store) (now : Store),
      UserWrite more redo → (accountProtocol hashes).Rely [] start now → now.Constraints →
      (accountProtocol hashes).Wp (fun count => EndsSessions hashes start (fun row => row.userId = userId) (result count))
        (revokeAllSessionsForUserWithConnection userId clock) more redo now := by
    intro userId clock result more redo now hwrite hnow hinv
    simp only [revokeAllSessionsForUserWithConnection, wp_bind]
    refine wp_revokes (fun changed => result changed.length) hwrite hstart hnow hinv (fun _ => rfl) fun row row' huser _ => ?_
    rw [huser]
  cases call with
  | changePassword userId currentPassword newPassword confirmPassword salt clock now =>
      cases hends
      simp only [AccountCall.program, changePassword, updateUser, wp_bind, wp_select]
      intro first hfirst _
      split
      · intro hdone
        cases hdone
      · simp only [wp_bind]
        refine wp_updateUserRow fun second more _ redo hsecond hsecondInv _ hwrite => ?_
        exact hall userId now (fun count => .changed (.done count)) more redo second hwrite (hfirst.trans hsecond) hsecondInv
  | revokeAllSessionsForUser userId now =>
      cases hends
      simp only [AccountCall.program, wp_bind]
      exact hall userId now (fun count => .revokedAll count) [] id start userWrite_id .refl hstart
  | setAccountActive userId isActive now =>
      obtain ⟨hoff, hholds⟩ := Option.ite_none_left_eq_some.1 hends
      cases hholds
      simp only [AccountCall.program, setAccountActive, updateUser, wp_bind]
      refine wp_updateUserRow fun second more _ redo hsecond hsecondInv _ hwrite => ?_
      simp only [wp_ite, wp_bind]
      exact ⟨fun hon => absurd hon hoff,
        fun _ => hall userId now (fun _ => .activated) more redo second hwrite hsecond hsecondInv⟩
  | revokeSession rawToken checkedAt =>
      obtain ⟨hinput, hholds⟩ := Option.ite_none_right_eq_some.1 hends
      cases hholds
      simp only [AccountCall.program, revokeSession, if_pos hinput, wp_bind]
      refine wp_revokes (fun changed => .revoked (!changed.isEmpty)) userWrite_id hstart .refl hstart (fun _ => rfl)
        fun row row' _ hhash => ?_
      rw [hhash]
  | offboardLibrary isCutOff now =>
      cases hends
      simp only [AccountCall.program, offboardRevokeSessions, wp_bind]
      refine wp_revokes (fun changed => .revokedAll changed.length) userWrite_id hstart .refl hstart (fun _ => rfl)
        fun row row' huser _ => ?_
      rw [huser]
  | _ => cases hends

/-! ### Calls that end sessions -/

/-- A call that ends sessions, however it overlaps with other calls, ends those that were there when it began: once it
is done, they stay revoked, and their tokens are never valid again. -/
theorem ended_sessions_are_never_valid (hashes : Hashes) (sqlLower : Text → Text) (start : Store)
    (sys ended later : System Store Row AccountFailure AccountAnswer) (call : AccountCall) (holds : SessionRow → Bool)
    (begun next : System Store Row AccountFailure AccountAnswer) (answer : AccountAnswer) (rawToken : Text)
    (hschema : start.Constraints) (hends : call.ends? hashes = some holds)
    (hsys : Steps (AccountCall.Starts hashes sqlLower) (fun _ _ _ => True) (System.idle start) sys)
    (hstart : sys.apply (.start (call.program hashes sqlLower)) = some (begun, none))
    (hended : Steps (AccountCall.Starts hashes sqlLower) (fun _ _ _ => True) begun ended)
    (hcommit : ended.apply (.step sys.sessions.length) = some (next, some answer)) (hdone : answer.isDone = true)
    (hlater : Steps (AccountCall.Starts hashes sqlLower) (fun _ _ _ => True) next later)
    (hsession : ∃ id row, sys.committed.sessions.get? id = some row ∧ row.tokenHash = hashes.sha256 rawToken ∧ holds row = true) :
    later.committed.Ended (hashes.sha256 rawToken) ∧
      ∀ now, later.committed.findValidSession (hashes.sha256 rawToken) now = none := by
  have hidle : Sound (accountProtocol hashes) (System.idle start : System Store Row AccountFailure AccountAnswer) :=
    Sound.idle hschema
  obtain ⟨hsound, -⟩ := hidle.steps account_follows hsys (fun _ => True) (fun _ _ _ _ _ _ _ _ _ => trivial) trivial
  have hbegun : Step (AccountCall.Starts hashes sqlLower) (fun _ _ _ => True) sys none begun := by
    refine ⟨_, ⟨fun program heq => ?_, fun _ _ _ => trivial⟩, hstart⟩
    cases heq
    exact ⟨call, trivial, rfl⟩
  have hsoundBegun := (hsound.step account_follows hbegun).1
  cases hstart
  obtain ⟨htracks, hsoundEnded⟩ := (Tracks.started (wp_ends hends hsound.inv)).steps account_follows
    (fun _ _ _ _ _ hrely _ hpost => EndsSessions.later hpost hrely) hsoundBegun hended
  obtain ⟨_, redo, hpost, hcommitted⟩ := htracks.commits hcommit
  obtain ⟨id, row, hrow, hhash, hmatches⟩ := hsession
  have hnext : next.committed.Ended (hashes.sha256 rawToken) := by
    rw [hcommitted, ← hhash]
    exact hpost hdone _ .refl hsoundEnded.inv id row hrow hmatches
  have hlast : Step (AccountCall.Starts hashes sqlLower) (fun _ _ _ => True) ended (some answer) next := by
    refine ⟨_, ⟨fun program heq => ?_, fun _ _ _ => trivial⟩, hcommit⟩
    cases heq
  have hsoundNext := (hsoundEnded.step account_follows hlast).1
  obtain ⟨hsoundLater, hover⟩ := hsoundNext.steps account_follows hlater (fun store => store.Ended (hashes.sha256 rawToken))
    (fun _ _ _ _ _ hmoves _ _ hfact => hmoves.ended hfact) hnext
  exact ⟨hover, findValidSession_of_ended hsoundLater.inv hover⟩

/-! ### Runs -/

/-- Hashes with the salt before the password. -/
def sampleHashes : Hashes :=
  ⟨id, fun salt password => salt ++ '$' :: password, fun hash password => (hash.dropWhile (· ≠ '$')).drop 1 = password⟩

/-- A user with a reset token and a session. -/
def sampleStore : Store :=
  ⟨Dict.empty.set 1 ⟨"a@b".toList, "A".toList, some "x$password".toList, true, 0, none, none, none, none⟩,
    Dict.empty.set 7 ⟨1, "reset".toList, 1000, none⟩, Dict.empty.set 5 ⟨1, "old".toList, 1000, none, none⟩⟩

theorem sampleStore_constraints : sampleStore.Constraints :=
  ⟨fun _ _ _ _ hrow hrow' _ => (get?_single hrow).1.trans (get?_single hrow').1.symm,
    fun _ _ _ _ hrow hrow' _ => (get?_single hrow).1.trans (get?_single hrow').1.symm⟩

def openSession : AccountCall := .createSession 1 "new".toList 1000 30 6

def sampleRun (sys : System Store Row AccountFailure AccountAnswer) (plan : List (AccountCall ⊕ Nat)) :
    Option (System Store Row AccountFailure AccountAnswer × List AccountAnswer) :=
  sys.replay (AccountCall.program sampleHashes id) (fun _ _ => True) (fun _ _ _ => True) plan

theorem steps_of_sampleRun {sys last : System Store Row AccountFailure AccountAnswer} {plan : List (AccountCall ⊕ Nat)}
    {answers : List AccountAnswer} (h : sampleRun sys plan = some (last, answers)) :
    Steps (AccountCall.Starts sampleHashes id) (fun _ _ _ => True) sys last := steps_of_replay h

def changePasswordCall : AccountCall :=
  .changePassword 1 "password".toList "new-password".toList "new-password".toList "y".toList 10 20

/-- The password is changed, and then a session is opened. -/
theorem ended_sessions_are_never_valid_sample :
    ∃ next later : System Store Row AccountFailure AccountAnswer,
      Steps (AccountCall.Starts sampleHashes id) (fun _ _ _ => True) next later ∧
      (later.committed.sessions.get? 6).isSome ∧ later.committed.Ended "old".toList ∧
      ∀ now, later.committed.findValidSession "old".toList now = none := by
  have hrun : ((System.idle sampleStore).apply (.start (changePasswordCall.program sampleHashes id))).bind (fun begun =>
      (sampleRun begun.1 (List.replicate 9 (.inr 0))).bind fun ended => (ended.1.apply (.step 0)).bind fun commit =>
        (sampleRun commit.1 (.inl openSession :: List.replicate 7 (.inr 1))).map fun last =>
          (begun.2.isNone, commit.2.any fun answer => answer.isDone, (last.1.committed.sessions.get? 6).isSome)) =
      some (true, true, true) := by decide +kernel
  obtain ⟨⟨begun, none'⟩, hbegun, hrun⟩ := Option.bind_eq_some_iff.1 hrun
  obtain ⟨⟨ended, _⟩, hended, hrun⟩ := Option.bind_eq_some_iff.1 hrun
  obtain ⟨⟨next, answer⟩, hcommit, hrun⟩ := Option.bind_eq_some_iff.1 hrun
  obtain ⟨⟨later, _⟩, hlater, hrun⟩ := Option.map_eq_some_iff.1 hrun
  simp only [Prod.mk.injEq, Option.any_eq_true] at hrun
  obtain ⟨hnone, ⟨answer, rfl, hdone⟩, hopened⟩ := hrun
  rw [Option.isNone_iff_eq_none] at hnone
  subst hnone
  have hover := ended_sessions_are_never_valid sampleHashes id sampleStore (System.idle sampleStore) ended later changePasswordCall
    _ begun next answer "old".toList sampleStore_constraints rfl .refl hbegun (steps_of_sampleRun hended) hcommit hdone
    (steps_of_sampleRun hlater) ⟨5, ⟨1, "old".toList, 1000, none, none⟩, rfl, rfl, rfl⟩
  exact ⟨next, later, steps_of_sampleRun hlater, hopened, hover⟩

/-! ### Resets -/

/-- When a reset commits, the password is set to one that the account did not have then. From then on no session that
the user had is valid, and a password is only reset with a token that was asked for later. -/
theorem reset_spends_tokens_and_sessions (hashes : Hashes) (sqlLower : Text → Text) (start : Store)
    (sys done later : System Store Row AccountFailure AccountAnswer) (tokenId userId revoked : Nat)
    (hschema : start.Constraints)
    (hsys : Steps (AccountCall.Starts hashes sqlLower) (fun _ _ _ => True) (System.idle start) sys)
    (hcommit : Step (AccountCall.Starts hashes sqlLower) (fun _ _ _ => True) sys
      (some (.reset (.done tokenId userId revoked))) done)
    (hlater : Steps (AccountCall.Starts hashes sqlLower) (fun _ _ _ => True) done later) :
    (∃ user newPassword salt clock, sys.committed.users.get? userId = some user ∧ user.isActive = true ∧
      matchesHash hashes user.passwordHash newPassword = false ∧
      done.committed.users.get? userId = some (user.setPassword (hashes.generatePasswordHash salt newPassword) clock)) ∧
    (∀ id row rawToken now, done.committed.sessions.get? id = some row → row.userId = userId →
      row.tokenHash = hashes.sha256 rawToken → later.committed.findValidSession (hashes.sha256 rawToken) now = none) ∧
    ∀ tokenId' revoked' last, Step (AccountCall.Starts hashes sqlLower) (fun _ _ _ => True) later
      (some (.reset (.done tokenId' userId revoked'))) last → done.committed.resetTokens.get? tokenId' = none := by
  have hidle : Sound (accountProtocol hashes) (System.idle start : System Store Row AccountFailure AccountAnswer) :=
    Sound.idle hschema
  obtain ⟨hsound, -⟩ := hidle.steps account_follows hsys (fun _ => True) (fun _ _ _ _ _ _ _ _ _ => trivial) trivial
  obtain ⟨hsoundDone, hguar⟩ := hsound.step account_follows hcommit
  obtain ⟨locks, -, hmoves⟩ := hguar _ rfl
  have hresets := hmoves.reset tokenId userId revoked rfl
  refine ⟨hresets.password, fun id row rawToken now hrow huser hhash => ?_, fun tokenId' revoked' last hlast => ?_⟩
  · obtain ⟨hsoundLater, hover⟩ := hsoundDone.steps account_follows hlater (fun store => store.Ended row.tokenHash)
      (fun _ _ _ _ _ hmoves _ _ hfact => hmoves.ended hfact) ⟨id, row, hrow, rfl, hresets.sessions id row hrow huser⟩
    exact findValidSession_of_ended hsoundLater.inv (hhash ▸ hover) now
  · by_contra hthere
    obtain ⟨row, hrow⟩ := Option.ne_none_iff_exists'.1 hthere
    -- the token stays the user's or another's, and once used stays used
    obtain ⟨hsoundLater, row', hrow', huser', hused⟩ := hsoundDone.steps account_follows hlater
      (fun store => ∃ row', store.resetTokens.get? tokenId' = some row' ∧ row'.userId = row.userId ∧
        (row.userId = userId → row'.usedAt.isSome))
      (fun _ _ _ _ _ hmoves _ _ hfact => by
        obtain ⟨old, hold, hsame, hused⟩ := hfact
        obtain ⟨new, hnew, hsame', _, hkept⟩ := hmoves.resetToken hold
        exact ⟨new, hnew, hsame'.trans hsame, fun howner => hkept (hused howner)⟩)
      ⟨row, hrow, rfl, hresets.tokens tokenId' row hrow⟩
    obtain ⟨-, hguar'⟩ := hsoundLater.step account_follows hlast
    obtain ⟨_, -, hmoves'⟩ := hguar' _ rfl
    obtain ⟨token, htoken, howner, hunused⟩ := (hmoves'.reset tokenId' userId revoked' rfl).token
    rw [hrow'] at htoken
    cases htoken
    have hspent := hused (huser'.symm.trans howner)
    rw [hunused] at hspent
    cases hspent

def resetPasswordCall : AccountCall :=
  .resetPasswordWithToken "reset".toList "new-password".toList "new-password".toList "y".toList 10 20

/-- The token and the user of a reset that was done. -/
def AccountAnswer.reset? : AccountAnswer → Option (Nat × Nat × Nat)
  | .reset (.done tokenId userId count) => some (tokenId, userId, count)
  | _ => none

theorem AccountAnswer.eq_of_reset? {answer : AccountAnswer} {tokenId userId revoked : Nat}
    (h : answer.reset? = some (tokenId, userId, revoked)) : answer = .reset (.done tokenId userId revoked) := by
  unfold AccountAnswer.reset? at h
  split at h
  · cases h
    rfl
  · cases h

/-- A session is being opened while the password is reset, and has to wait for it. -/
theorem reset_spends_tokens_and_sessions_sample :
    ∃ done later : System Store Row AccountFailure AccountAnswer,
      Steps (AccountCall.Starts sampleHashes id) (fun _ _ _ => True) done later ∧
      (later.committed.sessions.get? 6).isSome ∧ ∀ now, later.committed.findValidSession "old".toList now = none := by
  have hrun : (sampleRun (System.idle sampleStore)
      (.inl resetPasswordCall :: .inl openSession :: List.replicate 3 (.inr 1) ++ List.replicate 16 (.inr 0))).bind (fun before =>
        (before.1.apply (.step 0)).bind fun commit => (sampleRun commit.1 (List.replicate 4 (.inr 1))).map fun last =>
          (commit.2.bind AccountAnswer.reset?, (commit.1.committed.sessions.get? 5).map fun row => (row.userId, row.tokenHash),
            (last.1.committed.sessions.get? 6).isSome)) = some (some (7, 1, 1), some (1, "old".toList), true) := by
    decide +kernel
  obtain ⟨⟨sys, _⟩, hsys, hrun⟩ := Option.bind_eq_some_iff.1 hrun
  obtain ⟨⟨done, answer⟩, hcommit, hrun⟩ := Option.bind_eq_some_iff.1 hrun
  obtain ⟨⟨later, _⟩, hlater, hrun⟩ := Option.map_eq_some_iff.1 hrun
  simp only [Prod.mk.injEq] at hrun
  obtain ⟨hanswer, hsession, hopened⟩ := hrun
  obtain ⟨answer, rfl, hreset⟩ := Option.bind_eq_some_iff.1 hanswer
  obtain rfl := AccountAnswer.eq_of_reset? hreset
  obtain ⟨row, hrow, hsame⟩ := Option.map_eq_some_iff.1 hsession
  obtain ⟨huser, hhash⟩ := Prod.mk.inj hsame
  have hreset := reset_spends_tokens_and_sessions sampleHashes id sampleStore sys done later 7 1 1 sampleStore_constraints
    (steps_of_sampleRun hsys) ⟨.step 0, ⟨by simp, fun _ _ _ => trivial⟩, hcommit⟩ (steps_of_sampleRun hlater)
  exact ⟨done, later, steps_of_sampleRun hlater, hopened, fun now => hreset.2.1 5 row "old".toList now hrow huser hhash⟩

end Accounts

end SortView
