import SortView.Services.Accounts

/-!
# Logins and the lockout

`authenticate_user` of `services/auth_service.py`, one statement or one comparison at a time: the lookup, the checks of what it gave, the
comparison, the update that records its outcome, and the reload. Other requests are served between any two of them, so several wrong
passwords can be compared before the first of them is recorded. There is one clock, and `now()` of an update is the time at which its
transaction begins, as it may wait for the row.
-/

namespace SortView

namespace Accounts

open PyText Tables

variable (hashes : Hashes) (sqlLower : Text → Text)

/-! ### One login -/

/-- `_minutes_remaining`. -/
def minutesRemaining (lockedUntil now : Nat) : Nat := max 1 (((lockedUntil - now) / 1000000 + 59) / 60)

/-- The minutes that are left of a lockout, if there are any. -/
def lockedFor (lockedUntil : Option Nat) (clock : Nat) : Option Nat :=
  (lockedUntil.filter fun last => decide (clock < last)).map fun last => minutesRemaining last clock

/-- An attempt that was admitted: whose password it is compared with, and what was typed. -/
structure Attempt where
  user : Store.AuthUser
  passwordHash : Text
  normalizedEmail : Text
  password : Text

/-- What `authenticate_user` makes of the user that its lookup gave, before the password is looked at. -/
def admitLogin (normalizedEmail password : Text) (found : Option (Nat × UserRow)) (clock : Nat) : Except Reply Attempt :=
  match found with
  | none => .error .invalidCredentials
  | some (userId, user) =>
      if user.isActive = false then .error .inactive
      else match lockedFor user.lockedUntil clock with
        | some minutes => .error (.locked minutes)
        | none => match storedHash user.passwordHash with
          | none => .error .invalidCredentials
          | some passwordHash => .ok ⟨⟨userId, user.email, user.fullName⟩, passwordHash, normalizedEmail, password⟩

/-- The password is the one that the attempt was admitted against. -/
def Attempt.isRight (attempt : Attempt) : Bool := hashes.checkPasswordHash attempt.passwordHash attempt.password

/-- The update that records the outcome of a comparison: `record_successful_login`, or `record_failed_login`. -/
def recordLogin (attempt : Attempt) (isRight : Bool) (now : Nat) (store : Store) : Store :=
  store.adjustUser attempt.user.id (if isRight then UserRow.login now else UserRow.failLogin now)

/-- What a wrong password is answered, once it has been recorded. -/
def wrongPasswordReply (attempt : Attempt) (clock : Nat) (store : Store) : Reply :=
  match store.userByEmail sqlLower attempt.normalizedEmail with
  | none => .invalidCredentials
  | some (_, refreshed) => match lockedFor refreshed.lockedUntil clock with
    | some minutes => .locked minutes
    | none => .invalidCredentials

/-- `authenticate_user` when nothing else is served meanwhile. -/
def authenticateUser (email password : Text) (checkedAt recordedAt reloadedAt : Nat) (store : Store) :
    Except Reply Store.AuthUser × Store :=
  match admitLogin (lower (strip email)) password (store.userByEmail sqlLower (lower (strip email))) checkedAt with
  | .error reply => (.error reply, store)
  | .ok attempt =>
      let recorded := recordLogin attempt (attempt.isRight hashes) recordedAt store
      if attempt.isRight hashes then (.ok attempt.user, recorded)
      else (.error (wrongPasswordReply sqlLower attempt reloadedAt recorded), recorded)

/-! ### Its steps -/

/-- Where a login is in `authenticate_user`: it has looked its user up, was admitted, has compared the password, has begun the transaction
of its update at a time, or has recorded a failure. -/
inductive Stage where
  | lookedUp (normalizedEmail password : Text) (found : Option (Nat × UserRow))
  | admitted (attempt : Attempt)
  | compared (attempt : Attempt) (isRight : Bool)
  | recording (attempt : Attempt) (isRight : Bool) (began : Nat)
  | failed (attempt : Attempt)
  | done (answer : Except Reply Store.AuthUser)

/-- The next step of a login. -/
def Stage.advance (clock : Nat) (store : Store) : Stage → Stage × Store
  | .lookedUp normalizedEmail password found => match admitLogin normalizedEmail password found clock with
    | .error reply => (.done (.error reply), store)
    | .ok attempt => (.admitted attempt, store)
  | .admitted attempt => (.compared attempt (attempt.isRight hashes), store)
  | .compared attempt isRight => (.recording attempt isRight clock, store)
  | .recording attempt isRight began =>
      (if isRight then .done (.ok attempt.user) else .failed attempt, recordLogin attempt isRight began store)
  | .failed attempt => (.done (.error (wrongPasswordReply sqlLower attempt clock store)), store)
  | .done answer => (.done answer, store)

/-- The user whose login this is, while it is in flight: until it is refused or its outcome is recorded. -/
def Stage.user? : Stage → Option Nat
  | .lookedUp _ _ found => found.map Prod.fst
  | .admitted attempt | .compared attempt _ | .recording attempt _ _ => some attempt.user.id
  | .failed _ | .done _ => none

/-- The next step compares a wrong password with the user's. -/
def Stage.guesses (userId : Nat) : Stage → Bool
  | .admitted attempt => attempt.user.id = userId && !attempt.isRight hashes
  | _ => false

/-- The next step records a success of the user. -/
def Stage.succeeds (userId : Nat) : Stage → Bool
  | .recording attempt isRight _ => attempt.user.id = userId && isRight
  | _ => false

/-- The next step records a failure of the user, whose transaction began at the time. -/
def Stage.fails? (userId : Nat) : Stage → Option Nat
  | .recording attempt isRight began => if attempt.user.id = userId && !isRight then some began else none
  | _ => none

/-! ### Many logins -/

/-- The accounts, and the logins by number. -/
structure Logins where
  store : Store
  stages : List Stage

/-- What is served: a new login is looked up, a login takes its next step, or another request does what it does to the accounts. -/
inductive LoginEvent where
  | lookUp (email password : Text)
  | advance (index : Nat)
  | other (update : Store → Store)

namespace Logins

def step (logins : Logins) (clock : Nat) : LoginEvent → Logins
  | .lookUp email password =>
      { logins with stages := logins.stages ++
          [.lookedUp (lower (strip email)) password (logins.store.userByEmail sqlLower (lower (strip email)))] }
  | .advance index => match logins.stages[index]? with
    | none => logins
    | some stage =>
        let (next, store) := stage.advance hashes sqlLower clock logins.store
        ⟨store, logins.stages.set index next⟩
  | .other update => { logins with store := update logins.store }

def run (logins : Logins) : List (Nat × LoginEvent) → Logins
  | [] => logins
  | (clock, event) :: events => run (logins.step hashes sqlLower clock event) events

/-- The logins of a user that are in flight. -/
def pending (logins : Logins) (userId : Nat) : Nat := logins.stages.countP fun stage => stage.user? = some userId

/-- A wrong password is compared with the user's. -/
def isGuess (logins : Logins) (userId : Nat) : LoginEvent → Bool
  | .advance index => logins.stages[index]?.any (Stage.guesses hashes userId)
  | _ => false

/-- A failure of the user is recorded. -/
def failure? (logins : Logins) (userId : Nat) : LoginEvent → Option Nat
  | .advance index => logins.stages[index]?.bind (Stage.fails? userId)
  | _ => none

/-- The times at which wrong passwords are compared with the user's. -/
def guesses (userId : Nat) : Logins → List (Nat × LoginEvent) → List Nat
  | _, [] => []
  | logins, (clock, event) :: events =>
      if logins.isGuess hashes userId event then clock :: guesses userId (logins.step hashes sqlLower clock event) events
      else guesses userId (logins.step hashes sqlLower clock event) events

end Logins

/-- The failures and the lockout of the user stay as they are. -/
def keepsLockout (userId : Nat) (before after : Store) : Bool :=
  (before.users.get? userId).all fun row => (after.users.get? userId).any fun row' =>
    row'.failedLoginAttempts = row.failedLoginAttempts && row'.lockedUntil = row.lockedUntil

/-- A login of the user succeeds, or another request clears the failures of the user. -/
def Logins.forgives (logins : Logins) (userId : Nat) : LoginEvent → Bool
  | .lookUp _ _ => false
  | .advance index => logins.stages[index]?.any (Stage.succeeds userId)
  | .other update => !keepsLockout userId logins.store (update logins.store)

/-- The failures of the user are never forgiven, no more logins of the user than the limit are in flight at once, and no update that
records a failure waits longer than the time. -/
def Logins.unforgiven (userId limit wait : Nat) : Logins → List (Nat × LoginEvent) → Bool
  | logins, [] => logins.pending userId ≤ limit
  | logins, (clock, event) :: events => logins.pending userId ≤ limit && !logins.forgives userId event &&
      (logins.failure? userId event).all (fun began => clock ≤ began + wait) &&
      unforgiven userId limit wait (logins.step hashes sqlLower clock event) events

variable {hashes sqlLower}

theorem step_advance {logins : Logins} {index clock : Nat} {stage : Stage} (h : logins.stages[index]? = some stage) :
    logins.step hashes sqlLower clock (.advance index) =
      ⟨(stage.advance hashes sqlLower clock logins.store).2,
        logins.stages.set index (stage.advance hashes sqlLower clock logins.store).1⟩ := by
  rw [Logins.step, h]

theorem step_advance_none {logins : Logins} {index clock : Nat} (h : logins.stages[index]? = none) :
    logins.step hashes sqlLower clock (.advance index) = logins := by
  rw [Logins.step, h]

/-- The steps of a login after its lookup. -/
def aloneFrom (index checkedAt comparedAt beganAt recordedAt reloadedAt : Nat) : List (Nat × LoginEvent) :=
  [checkedAt, comparedAt, beganAt, recordedAt, reloadedAt].map fun clock => (clock, .advance index)

/-- One step of the last login. -/
theorem step_last (store : Store) (stages : List Stage) (stage : Stage) (clock : Nat) :
    (⟨store, stages ++ [stage]⟩ : Logins).step hashes sqlLower clock (.advance stages.length) =
      ⟨(stage.advance hashes sqlLower clock store).2, stages ++ [(stage.advance hashes sqlLower clock store).1]⟩ := by
  have hstage : (⟨store, stages ++ [stage]⟩ : Logins).stages[stages.length]? = some stage := by simp
  rw [step_advance hstage]
  simp

/-- The steps of a login, one after the other, are the login. -/
theorem run_alone (logins : Logins) (email password : Text) (lookedUpAt checkedAt comparedAt beganAt recordedAt reloadedAt : Nat) :
    logins.run hashes sqlLower ((lookedUpAt, .lookUp email password) ::
        aloneFrom logins.stages.length checkedAt comparedAt beganAt recordedAt reloadedAt) =
      ⟨(authenticateUser hashes sqlLower email password checkedAt beganAt reloadedAt logins.store).2,
        logins.stages ++ [.done (authenticateUser hashes sqlLower email password checkedAt beganAt reloadedAt logins.store).1]⟩ := by
  obtain ⟨store, stages⟩ := logins
  simp only [aloneFrom, List.map_cons, List.map_nil, Logins.run, Logins.step.eq_1, step_last]
  unfold authenticateUser
  cases hadmitted : admitLogin (lower (strip email)) password (store.userByEmail sqlLower (lower (strip email))) checkedAt with
  | error reply => simp only [Stage.advance, hadmitted]
  | ok attempt => cases hright : attempt.isRight hashes <;> simp [Stage.advance, hadmitted, hright]

/-! ### What one event does to the user -/

variable {logins : Logins} {userId limit wait clock : Nat} {event : LoginEvent} {events : List (Nat × LoginEvent)}

theorem get?_of_userByEmail {store : Store} {email : Text} {id : Nat} {row : UserRow}
    (h : store.userByEmail sqlLower email = some (id, row)) : store.users.get? id = some row :=
  (Dict.get?_eq_some_iff _ _ _).2 (List.mem_of_find?_eq_some h)

/-- A recorded failure is one more, and locks the user out from the fifth on; nothing else changes either. -/
theorem user_of_step (hashes : Hashes) (sqlLower : Text → Text) (clock : Nat) (hkept : logins.forgives userId event = false)
    {row : UserRow} (hrow : logins.store.users.get? userId = some row) :
    ∃ row', (logins.step hashes sqlLower clock event).store.users.get? userId = some row' ∧
      match logins.failure? userId event with
      | none => row'.failedLoginAttempts = row.failedLoginAttempts ∧ row'.lockedUntil = row.lockedUntil
      | some began => row' = row.failLogin began := by
  cases event with
  | lookUp email password => exact ⟨row, hrow, rfl, rfl⟩
  | other update =>
      simp only [Logins.forgives, keepsLockout, hrow, Option.all_some, Bool.not_eq_false', Option.any_eq_true, Bool.and_eq_true,
        decide_eq_true_eq] at hkept
      exact hkept
  | advance index =>
      cases hstage : logins.stages[index]? with
      | none =>
          rw [step_advance_none hstage, Logins.failure?, hstage]
          exact ⟨row, hrow, rfl, rfl⟩
      | some stage =>
          rw [step_advance hstage, Logins.failure?, hstage, Option.bind_some]
          rw [Logins.forgives, hstage, Option.any_some] at hkept
          cases stage with
          | lookedUp normalizedEmail password found =>
              refine ⟨row, ?_, rfl, rfl⟩
              rw [Stage.advance]
              split <;> exact hrow
          | admitted attempt => exact ⟨row, hrow, rfl, rfl⟩
          | compared attempt isRight => exact ⟨row, hrow, rfl, rfl⟩
          | failed attempt => exact ⟨row, hrow, rfl, rfl⟩
          | done answer => exact ⟨row, hrow, rfl, rfl⟩
          | recording attempt isRight began =>
              simp only [Stage.advance, recordLogin, Store.adjustUser, get?_adjust, Stage.fails?]
              by_cases huser : attempt.user.id = userId
              · cases isRight with
                | true => simp [Stage.succeeds, huser] at hkept
                | false => exact ⟨row.failLogin began, by simp [huser, hrow], by simp [huser]⟩
              · exact ⟨row, by simp [Ne.symm huser, hrow], by simp [huser]⟩

/-! ### The logins that can still guess, and those whose guess is not recorded -/

/-- The login can compare a password before the time. -/
def Stage.mayGuess (userId last : Nat) : Stage → Bool
  | .lookedUp _ _ found => found.any fun entry => entry.1 = userId && !entry.2.lockedUntil.any fun stop => last ≤ stop
  | .admitted attempt => attempt.user.id = userId
  | _ => false

/-- The login has compared a wrong password, and its failure is not recorded. -/
def Stage.isUnrecorded (userId : Nat) : Stage → Bool
  | .compared attempt isRight | .recording attempt isRight _ => attempt.user.id = userId && !isRight
  | _ => false

theorem countP_cons_toNat (holds : Stage → Bool) (stage : Stage) (stages : List Stage) :
    (stage :: stages).countP holds = stages.countP holds + (holds stage).toNat := by
  cases hholds : holds stage <;> simp [hholds]

/-- What one login adds and takes. -/
theorem countP_set_toNat (holds : Stage → Bool) {stages : List Stage} {index : Nat} {stage : Stage} (next : Stage)
    (h : stages[index]? = some stage) :
    (stages.set index next).countP holds + (holds stage).toNat = stages.countP holds + (holds next).toNat := by
  induction stages generalizing index with
  | nil => cases h
  | cons first stages ih =>
      cases index with
      | zero =>
          cases h
          rw [List.set_cons_zero, countP_cons_toNat, countP_cons_toNat]
          omega
      | succ index =>
          have hrest := ih h
          rw [List.set_cons_succ, countP_cons_toNat, countP_cons_toNat]
          omega

/-- Both kinds are in flight. -/
theorem countP_le_pending (logins : Logins) (userId last : Nat) :
    logins.stages.countP (Stage.mayGuess userId last) + logins.stages.countP (Stage.isUnrecorded userId) ≤ logins.pending userId := by
  rw [Logins.pending]
  induction logins.stages with
  | nil => exact Nat.le_refl _
  | cons stage stages ih =>
      have hstage : (stage.mayGuess userId last).toNat + (stage.isUnrecorded userId).toNat ≤
          (decide (stage.user? = some userId)).toNat := by
        cases stage with
        | lookedUp normalizedEmail password found =>
            cases found with
            | none => exact Nat.zero_le _
            | some entry => by_cases huser : entry.1 = userId <;> simp [Stage.mayGuess, Stage.isUnrecorded, Stage.user?, huser, Bool.toNat_le]
        | admitted attempt => by_cases huser : attempt.user.id = userId <;> simp [Stage.mayGuess, Stage.isUnrecorded, Stage.user?, huser]
        | compared attempt isRight =>
            by_cases huser : attempt.user.id = userId <;> simp [Stage.mayGuess, Stage.isUnrecorded, Stage.user?, huser, Bool.toNat_le]
        | recording attempt isRight began =>
            by_cases huser : attempt.user.id = userId <;> simp [Stage.mayGuess, Stage.isUnrecorded, Stage.user?, huser, Bool.toNat_le]
        | failed attempt => exact Nat.zero_le _
        | done answer => exact Nat.zero_le _
      rw [countP_cons_toNat, countP_cons_toNat, countP_cons_toNat]
      omega

/-- A wrong password that is compared is unrecorded until its failure is recorded. -/
theorem unrecorded_step (hashes : Hashes) (sqlLower : Text → Text) (logins : Logins) (userId clock : Nat) (event : LoginEvent) :
    (logins.step hashes sqlLower clock event).stages.countP (Stage.isUnrecorded userId) + (logins.failure? userId event).isSome.toNat =
      logins.stages.countP (Stage.isUnrecorded userId) + (logins.isGuess hashes userId event).toNat := by
  cases event with
  | lookUp email password => simp [Logins.step, Logins.failure?, Logins.isGuess, List.countP_append, Stage.isUnrecorded]
  | other update => rfl
  | advance index =>
      cases hstage : logins.stages[index]? with
      | none => simp [step_advance_none hstage, Logins.failure?, Logins.isGuess, hstage]
      | some stage =>
          have hset := countP_set_toNat (Stage.isUnrecorded userId) (stage.advance hashes sqlLower clock logins.store).1 hstage
          have hstep : ((stage.advance hashes sqlLower clock logins.store).1.isUnrecorded userId).toNat + (stage.fails? userId).isSome.toNat =
              (stage.isUnrecorded userId).toNat + (stage.guesses hashes userId).toNat := by
            cases stage with
            | lookedUp normalizedEmail password found =>
                rw [Stage.advance]
                split <;> rfl
            | admitted attempt => simp [Stage.advance, Stage.isUnrecorded, Stage.fails?, Stage.guesses]
            | compared attempt isRight => simp [Stage.advance, Stage.isUnrecorded, Stage.fails?, Stage.guesses]
            | recording attempt isRight began =>
                cases isRight <;> by_cases huser : attempt.user.id = userId <;>
                  simp [Stage.advance, Stage.isUnrecorded, Stage.fails?, Stage.guesses, huser]
            | failed attempt => rfl
            | done answer => rfl
          simp only [step_advance hstage, Logins.failure?, Logins.isGuess, hstage, Option.bind_some, Option.any_some]
          omega

theorem lockedFor_of_lt {last : Nat} (h : clock < last) : (lockedFor (some last) clock).isSome := by
  simp [lockedFor, h]

/-- A login that is admitted before the time was looked up when the user was not locked out until then. -/
theorem mayGuess_of_admitLogin {normalizedEmail password : Text} {found : Option (Nat × UserRow)} {attempt : Attempt} {last : Nat}
    (h : admitLogin normalizedEmail password found clock = .ok attempt) (hlast : clock < last) (huser : attempt.user.id = userId) :
    (Stage.lookedUp normalizedEmail password found).mayGuess userId last = true := by
  unfold admitLogin at h
  split at h
  · cases h
  · next id user =>
    split at h
    · cases h
    · split at h
      · cases h
      · next hfree =>
        split at h
        · cases h
        · cases h
          have hnot : (user.lockedUntil.any fun stop => decide (last ≤ stop)) = false := by
            rw [Bool.eq_false_iff]
            intro hlocked
            obtain ⟨stop, hstop, hle⟩ := (Option.any_eq_true _ _).1 hlocked
            have hstill := lockedFor_of_lt (Nat.lt_of_lt_of_le hlast (of_decide_eq_true hle))
            rw [← hstop, hfree] at hstill
            cases hstill
          have hid : id = userId := huser
          simp [Stage.mayGuess, hid, hnot]

/-- While the user is locked out until the time, no login joins those that can still guess, and a guess takes one from them. -/
theorem mayGuess_step (hashes : Hashes) (sqlLower : Text → Text) (event : LoginEvent) {row : UserRow} {stop last : Nat}
    (hrow : logins.store.users.get? userId = some row) (hlocked : row.lockedUntil = some stop) (hstop : last ≤ stop) (hlast : clock < last) :
    (logins.step hashes sqlLower clock event).stages.countP (Stage.mayGuess userId last) + (logins.isGuess hashes userId event).toNat ≤
      logins.stages.countP (Stage.mayGuess userId last) := by
  cases event with
  | other update => exact Nat.le_refl _
  | lookUp email password =>
      have hnew : (Stage.lookedUp (lower (strip email)) password (logins.store.userByEmail sqlLower (lower (strip email)))).mayGuess
          userId last = false := by
        rw [Stage.mayGuess]
        cases hfound : logins.store.userByEmail sqlLower (lower (strip email)) with
        | none => rfl
        | some entry =>
            obtain ⟨id, found⟩ := entry
            by_cases hid : id = userId
            · have huser := get?_of_userByEmail hfound
              rw [hid, hrow] at huser
              cases huser
              simp [hlocked, hstop]
            · simp [hid]
      simp [Logins.step, Logins.isGuess, List.countP_append, hnew]
  | advance index =>
      cases hstage : logins.stages[index]? with
      | none => simp [step_advance_none hstage, Logins.isGuess, hstage]
      | some stage =>
          have hset := countP_set_toNat (Stage.mayGuess userId last) (stage.advance hashes sqlLower clock logins.store).1 hstage
          have hstep : ((stage.advance hashes sqlLower clock logins.store).1.mayGuess userId last).toNat +
              (stage.guesses hashes userId).toNat ≤ (stage.mayGuess userId last).toNat := by
            cases stage with
            | lookedUp normalizedEmail password found =>
                rw [Stage.advance]
                split
                · exact Nat.zero_le _
                · next attempt hadmitted =>
                  by_cases huser : attempt.user.id = userId
                  · rw [mayGuess_of_admitLogin hadmitted hlast huser]
                    exact Bool.toNat_le _
                  · simp [Stage.mayGuess, Stage.guesses, huser]
            | admitted attempt =>
                by_cases huser : attempt.user.id = userId <;> simp [Stage.advance, Stage.mayGuess, Stage.guesses, huser, Bool.toNat_le]
            | compared attempt isRight => exact Nat.zero_le _
            | recording attempt isRight began =>
                rw [Stage.advance]
                cases isRight <;> exact Nat.zero_le _
            | failed attempt => exact Nat.zero_le _
            | done answer => exact Nat.zero_le _
          simp only [step_advance hstage, Logins.isGuess, hstage, Option.any_some]
          omega

/-- A login that records a failure guesses no more. -/
theorem mayGuess_failure (hashes : Hashes) (sqlLower : Text → Text) (last clock : Nat) {began : Nat}
    (h : logins.failure? userId event = some began) :
    logins.isGuess hashes userId event = false ∧
      (logins.step hashes sqlLower clock event).stages.countP (Stage.mayGuess userId last) =
        logins.stages.countP (Stage.mayGuess userId last) := by
  cases event with
  | lookUp email password => cases h
  | other update => cases h
  | advance index =>
      cases hstage : logins.stages[index]? with
      | none => simp [Logins.failure?, hstage] at h
      | some stage =>
          rw [Logins.failure?, hstage, Option.bind_some] at h
          cases stage with
          | recording attempt isRight began =>
              have hset := countP_set_toNat (Stage.mayGuess userId last)
                ((Stage.recording attempt isRight began).advance hashes sqlLower clock logins.store).1 hstage
              have hnext : ((Stage.recording attempt isRight began).advance hashes sqlLower clock logins.store).1.mayGuess
                  userId last = false := by
                rw [Stage.advance]
                cases isRight <;> rfl
              rw [hnext] at hset
              rw [step_advance hstage, Logins.isGuess, hstage]
              exact ⟨rfl, hset⟩
          | lookedUp normalizedEmail password found => cases h
          | admitted attempt => cases h
          | compared attempt isRight => cases h
          | failed attempt => cases h
          | done answer => cases h

/-! ### Runs -/

theorem unforgiven_cons (h : logins.unforgiven hashes sqlLower userId limit wait ((clock, event) :: events) = true) :
    logins.pending userId ≤ limit ∧ logins.forgives userId event = false ∧
      (∀ began, logins.failure? userId event = some began → clock ≤ began + wait) ∧
      (logins.step hashes sqlLower clock event).unforgiven hashes sqlLower userId limit wait events = true := by
  simp only [Logins.unforgiven, Bool.and_eq_true, decide_eq_true_eq, Bool.not_eq_true', Option.all_eq_true] at h
  exact ⟨h.1.1.1, h.1.1.2, h.1.2, h.2⟩

theorem pending_le (h : logins.unforgiven hashes sqlLower userId limit wait events = true) : logins.pending userId ≤ limit := by
  cases events with
  | nil => exact of_decide_eq_true h
  | cons head events => exact (unforgiven_cons h).1

/-- Guesses are made when events are. -/
theorem guesses_sublist (logins : Logins) (events : List (Nat × LoginEvent)) :
    List.Sublist (Logins.guesses hashes sqlLower userId logins events) (events.map Prod.fst) := by
  induction events generalizing logins with
  | nil => exact .slnil
  | cons head events ih =>
      obtain ⟨clock, event⟩ := head
      rw [Logins.guesses]
      split
      · exact (ih _).cons_cons _
      · exact (ih _).cons _

/-- The guesses of a run before a time. -/
def guessesBefore (hashes : Hashes) (sqlLower : Text → Text) (userId last : Nat) (logins : Logins)
    (events : List (Nat × LoginEvent)) : Nat :=
  (Logins.guesses hashes sqlLower userId logins events).countP fun time => time < last

theorem guessesBefore_cons (last : Nat) (hlast : clock < last) :
    guessesBefore hashes sqlLower userId last logins ((clock, event) :: events) =
      guessesBefore hashes sqlLower userId last (logins.step hashes sqlLower clock event) events +
        (logins.isGuess hashes userId event).toNat := by
  rw [guessesBefore, Logins.guesses]
  split
  · next hguess => simp [guessesBefore, hlast, hguess]
  · next hguess => simp [guessesBefore, hguess]

/-- In a run that has reached a time, all that happens is at or after it. -/
theorem le_of_ordered {time : Nat} (hclock : (((clock, event) :: events).map Prod.fst).Pairwise (· ≤ ·)) (hfirst : time ≤ clock) :
    ∀ entry ∈ (clock, event) :: events, time ≤ entry.1 := by
  intro entry hmem
  obtain rfl | hmem := List.mem_cons.1 hmem
  · exact hfirst
  · exact hfirst.trans ((List.pairwise_cons.1 hclock).1 entry.1 (List.mem_map_of_mem hmem))

theorem guessesBefore_eq_zero {last : Nat} (h : ∀ entry ∈ events, last ≤ entry.1) :
    guessesBefore hashes sqlLower userId last logins events = 0 := by
  refine List.countP_eq_zero.2 fun time hmem => ?_
  obtain ⟨entry, hentry, rfl⟩ := List.mem_map.1 ((guesses_sublist logins events).subset hmem)
  have hlater := h entry hentry
  simpa using hlater

/-- From a lockout on, until it may be over, no more passwords are compared than there are logins that can still guess. -/
theorem guesses_while_locked {last : Nat} (hordered : (events.map Prod.fst).Pairwise (· ≤ ·))
    (hlast : ∀ entry ∈ events, last + wait ≤ entry.1 + lockout)
    (hkept : logins.unforgiven hashes sqlLower userId limit wait events = true) {row : UserRow}
    (hrow : logins.store.users.get? userId = some row) {stop : Nat} (hlocked : row.lockedUntil = some stop) (hstop : last ≤ stop) :
    guessesBefore hashes sqlLower userId last logins events ≤ logins.stages.countP (Stage.mayGuess userId last) := by
  induction events generalizing logins row stop with
  | nil => exact Nat.zero_le _
  | cons head events ih =>
      obtain ⟨clock, event⟩ := head
      have hclock := (List.pairwise_cons.1 hordered).2
      obtain ⟨-, hcalm, htime, hkept⟩ := unforgiven_cons hkept
      obtain hnow | hover := Nat.lt_or_ge clock last
      · obtain ⟨row', hrow', hchange⟩ := user_of_step hashes sqlLower clock hcalm hrow
        have hrest : guessesBefore hashes sqlLower userId last (logins.step hashes sqlLower clock event) events ≤
            (logins.step hashes sqlLower clock event).stages.countP (Stage.mayGuess userId last) := by
          have hlater : ∀ entry ∈ events, last + wait ≤ entry.1 + lockout := fun entry hmem => hlast entry (.tail _ hmem)
          cases hfailure : logins.failure? userId event with
          | none =>
              rw [hfailure] at hchange
              exact ih hclock hlater hkept hrow' (hchange.2.trans hlocked) hstop
          | some began =>
              rw [hfailure] at hchange
              have hbegan := htime began hfailure
              have hfirst := hlast _ List.mem_cons_self
              -- a later failure locks the user out again, or leaves the lockout
              by_cases hmany : maxFailedAttempts ≤ row.failedLoginAttempts + 1
              · have hlocked' : row'.lockedUntil = some (began + lockout) := by rw [hchange, UserRow.failLogin, if_pos hmany]
                exact ih hclock hlater hkept hrow' hlocked' (by omega)
              · have hlocked' : row'.lockedUntil = row.lockedUntil := by rw [hchange, UserRow.failLogin, if_neg hmany]
                exact ih hclock hlater hkept hrow' (hlocked'.trans hlocked) hstop
        have hstep := mayGuess_step hashes sqlLower event hrow hlocked hstop hnow
        rw [guessesBefore_cons last hnow]
        omega
      · have hnone : guessesBefore hashes sqlLower userId last logins ((clock, event) :: events) = 0 :=
          guessesBefore_eq_zero (le_of_ordered hordered hover)
        rw [hnone]
        exact Nat.zero_le _

/-- The guesses before a time, by the failures that there were and the guesses that are not recorded yet. -/
theorem guesses_from {last : Nat} (hordered : (events.map Prod.fst).Pairwise (· ≤ ·))
    (hlast : ∀ entry ∈ events, last + wait ≤ entry.1 + lockout)
    (hkept : logins.unforgiven hashes sqlLower userId limit wait events = true) {row : UserRow}
    (hrow : logins.store.users.get? userId = some row) :
    guessesBefore hashes sqlLower userId last logins events + logins.stages.countP (Stage.isUnrecorded userId) ≤
      (maxFailedAttempts - 1 - row.failedLoginAttempts) + limit := by
  have hpending := (countP_le_pending logins userId last).trans (pending_le hkept)
  induction events generalizing logins row with
  | nil =>
      have hzero : guessesBefore hashes sqlLower userId last logins [] = 0 := rfl
      omega
  | cons head events ih =>
      obtain ⟨clock, event⟩ := head
      have hclock := (List.pairwise_cons.1 hordered).2
      obtain ⟨-, hcalm, htime, hkept⟩ := unforgiven_cons hkept
      have hlater : ∀ entry ∈ events, last + wait ≤ entry.1 + lockout := fun entry hmem => hlast entry (.tail _ hmem)
      obtain hnow | hover := Nat.lt_or_ge clock last
      · obtain ⟨row', hrow', hchange⟩ := user_of_step hashes sqlLower clock hcalm hrow
        have hpending' := (countP_le_pending _ userId last).trans (pending_le hkept)
        have hunrecorded := unrecorded_step hashes sqlLower logins userId clock event
        rw [guessesBefore_cons last hnow]
        cases hfailure : logins.failure? userId event with
        | none =>
            rw [hfailure] at hchange hunrecorded
            have hrest := ih hclock hlater hkept hrow' hpending'
            rw [hchange.1] at hrest
            simp only [Option.isSome_none, Bool.toNat_false] at hunrecorded
            omega
        | some began =>
            rw [hfailure] at hchange hunrecorded
            simp only [Option.isSome_some, Bool.toNat_true] at hunrecorded
            have hattempts : row'.failedLoginAttempts = row.failedLoginAttempts + 1 := by rw [hchange, UserRow.failLogin]
            obtain hfew | hmany := Nat.lt_or_ge (row.failedLoginAttempts + 1) maxFailedAttempts
            · have hrest := ih hclock hlater hkept hrow' hpending'
              omega
            · -- this failure locks the user out, and only those that are in flight can still guess
              have hlocked : row'.lockedUntil = some (began + lockout) := by rw [hchange, UserRow.failLogin, if_pos hmany]
              have hbegan := htime began hfailure
              have hfirst := hlast _ List.mem_cons_self
              have hrest := guesses_while_locked hclock hlater hkept hrow' hlocked (by omega : last ≤ began + lockout)
              obtain ⟨hguess, hsame⟩ := mayGuess_failure hashes sqlLower last clock hfailure
              rw [hguess, Bool.toNat_false] at hunrecorded ⊢
              omega
      · have hnone : guessesBefore hashes sqlLower userId last logins ((clock, event) :: events) = 0 :=
          guessesBefore_eq_zero (le_of_ordered hordered hover)
        omega

/-- The guesses in one window, by the failures that there were. -/
theorem guesses_in_window {start : Nat} (hclock : (events.map Prod.fst).Pairwise (· ≤ ·))
    (hkept : logins.unforgiven hashes sqlLower userId limit wait events = true) {row : UserRow}
    (hrow : logins.store.users.get? userId = some row) (hwait : wait ≤ start + lockout) :
    ((Logins.guesses hashes sqlLower userId logins events).filter fun time => start ≤ time ∧ time + wait < start + lockout).length ≤
      maxFailedAttempts - 1 + limit := by
  induction events generalizing logins row with
  | nil => exact Nat.zero_le _
  | cons head events ih =>
      obtain ⟨clock, event⟩ := head
      have hlater := (List.pairwise_cons.1 hclock).2
      obtain hbefore | hnow := Nat.lt_or_ge clock start
      · -- the window has not begun
        obtain ⟨-, hcalm, -, hrest⟩ := unforgiven_cons hkept
        obtain ⟨row', hrow', -⟩ := user_of_step hashes sqlLower clock hcalm hrow
        rw [Logins.guesses]
        split
        · rw [List.filter_cons_of_neg (by rw [decide_eq_true_eq]; omega)]
          exact ih hlater hrest hrow'
        · exact ih hlater hrest hrow'
      · have hwindow : ∀ entry ∈ (clock, event) :: events, start + lockout - wait + wait ≤ entry.1 + lockout := by
          intro entry hmem
          have hentry := le_of_ordered hclock hnow entry hmem
          omega
        have hbound := guesses_from hclock hwindow hkept hrow
        have hsub : ∀ time, decide (start ≤ time ∧ time + wait < start + lockout) = true → decide (time < start + lockout - wait) = true := by
          intro time htime
          simp only [decide_eq_true_eq] at htime ⊢
          omega
        have hcount : ((Logins.guesses hashes sqlLower userId logins ((clock, event) :: events)).filter fun time =>
            start ≤ time ∧ time + wait < start + lockout).length ≤
              guessesBefore hashes sqlLower userId (start + lockout - wait) logins ((clock, event) :: events) := by
          rw [guessesBefore, List.countP_eq_length_filter]
          exact (List.monotone_filter_right _ hsub).length_le
        omega

/-- However the steps of logins are interleaved with each other and with other requests: as long as a user's failures are not forgiven, no
more wrong passwords are compared than four and as many as the user has logins in flight at once, a login counting as in flight until it is
refused or its failure is recorded. This holds of every time of one lockout less the longest that an update waits for its row. -/
theorem wrong_guesses_are_bounded (hashes : Hashes) (sqlLower : Text → Text) (logins : Logins)
    (events : List (Nat × LoginEvent)) (userId limit wait start : Nat) (huser : (logins.store.users.get? userId).isSome)
    (hclock : (events.map Prod.fst).Pairwise (· ≤ ·))
    (hkept : logins.unforgiven hashes sqlLower userId limit wait events = true) :
    ((logins.guesses hashes sqlLower userId events).filter fun time => start ≤ time ∧ time + wait < start + lockout).length ≤
      maxFailedAttempts - 1 + limit := by
  obtain ⟨row, hrow⟩ := Option.isSome_iff_exists.1 huser
  obtain hlong | hwait := Nat.lt_or_ge (start + lockout) wait
  · have hnone : (logins.guesses hashes sqlLower userId events).filter (fun time => start ≤ time ∧ time + wait < start + lockout) = [] := by
      refine List.filter_eq_nil_iff.2 fun time _ => ?_
      rw [decide_eq_true_eq]
      omega
    rw [hnone]
    exact Nat.zero_le _
  · exact guesses_in_window hclock hkept hrow hwait

/-- A user who has failed four times. -/
def failedUser : Store :=
  ⟨Dict.empty.set 1 ⟨"a@b".toList, "A".toList, some "password".toList, true, 4, none, none, some 1, none⟩, Dict.empty, Dict.empty⟩

/-- Two wrong passwords are compared before either is recorded, and a third login is looked up when the first failure has been. -/
def crossedLogins : List (Nat × LoginEvent) :=
  [(2, .lookUp "a@b".toList "first".toList), (3, .lookUp " A@B ".toList "second".toList), (4, .advance 0), (4, .advance 1),
    (5, .advance 0), (6, .advance 1), (7, .advance 0), (8, .advance 0), (9, .lookUp "a@b".toList "third".toList), (10, .advance 2),
    (11, .advance 1), (13, .advance 1)]

def plainHashes : Hashes := ⟨id, fun _ password => password, fun hash password => hash = password⟩

theorem wrong_guesses_are_bounded_crossed :
    Logins.guesses plainHashes lower 1 ⟨failedUser, []⟩ crossedLogins = [5, 6] ∧
      ((Logins.guesses plainHashes lower 1 ⟨failedUser, []⟩ crossedLogins).filter fun time =>
        5 ≤ time ∧ time + 2 < 5 + lockout).length ≤ maxFailedAttempts - 1 + 2 :=
  ⟨by decide, wrong_guesses_are_bounded plainHashes lower ⟨failedUser, []⟩ crossedLogins 1 2 2 5 rfl (by decide) (by decide)⟩

end Accounts

end SortView
