import Mathlib.Data.List.Basic
import Mathlib.Logic.Relation
import Mathlib.Tactic.Common

/-!
# Read committed transactions with row locks

A transaction is a program of statements. A read sees what is committed when it runs and the transaction's
own writes, a row lock waits for conflicting ones and is held to the end, and the writes are applied to the
committed database when the transaction commits. The rule of this library is rely and guarantee: what every
transaction guarantees at its commit, given the locks it holds, is what all others may rely on.
-/

namespace Transactions

/-- The row lock modes of PostgreSQL, weakest first. -/
inductive Mode where
  | keyShare
  | share
  | noKeyUpdate
  | update
  deriving DecidableEq

def Mode.conflicts : Mode → Mode → Bool
  | .keyShare, other => other = .update
  | .share, other => other = .noKeyUpdate ∨ other = .update
  | .noKeyUpdate, other => other ≠ .keyShare
  | .update, _ => true

theorem Mode.conflicts_comm (left right : Mode) : left.conflicts right = right.conflicts left := by
  cases left <;> cases right <;> rfl

abbrev Locks (κ : Type) := List (κ × Mode)

/-- Two transactions can hold their locks at once. -/
def Compatible {κ : Type} (mine theirs : Locks κ) : Prop :=
  ∀ row mode mode', (row, mode) ∈ mine → (row, mode') ∈ theirs → mode.conflicts mode' = false

theorem Compatible.symm {κ : Type} {mine theirs : Locks κ} (h : Compatible mine theirs) : Compatible theirs mine := by
  intro row mode mode' hmine htheirs
  rw [Mode.conflicts_comm]
  exact h row mode' mode htheirs hmine

theorem Compatible.nil {κ : Type} (theirs : Locks κ) : Compatible [] theirs :=
  fun _ _ _ hmine => absurd hmine List.not_mem_nil

theorem Compatible.mono {κ : Type} {mine more theirs : Locks κ} (h : Compatible more theirs) (hmore : mine ⊆ more) :
    Compatible mine theirs :=
  fun row mode mode' hmine htheirs => h row mode mode' (hmore hmine) htheirs

/-! ### Programs -/

/-- A transaction over a database `σ` with rows named by `κ`. It ends by committing with an answer or by
rolling back with a refusal. -/
inductive Tx (σ κ ε α : Type) : Type where
  | pure (answer : α)
  | fail (refusal : ε)
  | read (next : σ → Tx σ κ ε α)
  | lock (row : κ) (mode : Mode) (next : Tx σ κ ε α)
  | write (change : σ → σ) (next : Tx σ κ ε α)

variable {σ κ ε α β ι : Type}

namespace Tx

def bind : Tx σ κ ε α → (α → Tx σ κ ε β) → Tx σ κ ε β
  | .pure answer, rest => rest answer
  | .fail refusal, _ => .fail refusal
  | .read next, rest => .read fun view => (next view).bind rest
  | .lock row mode next, rest => .lock row mode (next.bind rest)
  | .write change next, rest => .write change (next.bind rest)

instance : Monad (Tx σ κ ε) where
  pure := .pure
  bind := .bind

/-- A SELECT. -/
def select (query : σ → α) : Tx σ κ ε α := .read fun view => .pure (query view)

def lockRow (row : κ) (mode : Mode) : Tx σ κ ε Unit := .lock row mode (.pure ())

def change (change : σ → σ) : Tx σ κ ε Unit := .write change (.pure ())

def refuse (refusal : ε) : Tx σ κ ε α := .fail refusal

def require (holds : Prop) [Decidable holds] (refusal : ε) : Tx σ κ ε Unit :=
  if holds then .pure () else .fail refusal

/-- One statement after another, for each row that a query named. -/
def each : List ι → (ι → Tx σ κ ε Unit) → Tx σ κ ε Unit
  | [], _ => .pure ()
  | row :: rows, body => (body row).bind fun _ => each rows body

/-- `SELECT ... FOR UPDATE` of the first row: the row that the statement finds is locked and then read again, as
it is by then. -/
def lockFirst (mode : Mode) (find : σ → Option ι) (row : ι → κ) (again : ι → σ → Option β) : Tx σ κ ε (Option β) := do
  match ← select find with
  | none => pure none
  | some found => do
      lockRow (row found) mode
      select (again found)

/-- An `UPDATE` of one row: if the statement finds it, it is locked, and changed if its own columns still match.
Whether it was changed. -/
def updateRow (row : κ) (mode : Mode) (found again : σ → Bool) (update : σ → σ) : Tx σ κ ε Bool := do
  if ← select found then do
    lockRow row mode
    if ← select again then do
      Tx.change update
      pure true
    else pure false
  else pure false

/-- `try ... except` around statements, to refuse in other words. -/
def mapFailure (words : ε → ε) : Tx σ κ ε α → Tx σ κ ε α
  | .pure answer => .pure answer
  | .fail refusal => .fail (words refusal)
  | .read next => .read fun view => (next view).mapFailure words
  | .lock row mode next => .lock row mode (next.mapFailure words)
  | .write change next => .write change (next.mapFailure words)

/-- An `INSERT`: its unique keys wait for other inserts of them, and then the rows that it references are locked. -/
def insertRow (keys : List κ) (taken : σ → Bool) (references : List κ) (present : σ → Bool) (duplicate missing : ε)
    (put : σ → σ) : Tx σ κ ε Unit := do
  each keys fun key => lockRow key .update
  let isTaken ← select taken
  require (isTaken = false) duplicate
  each references fun row => lockRow row .keyShare
  let isPresent ← select present
  require isPresent missing
  Tx.change put

/-- Each row that a statement names is locked, and changed if it still matches. The rows that were changed. -/
def sweepRows (row : ι → κ) (mode : Mode) (holds : ι → σ → Bool) (update : ι → σ → σ) : List ι → Tx σ κ ε (List ι)
  | [] => .pure []
  | next :: rest => do
      lockRow (row next) mode
      if ← select (holds next) then do
        Tx.change (update next)
        let changed ← sweepRows row mode holds update rest
        .pure (next :: changed)
      else sweepRows row mode holds update rest

/-- An `UPDATE` of the rows that a query names. -/
def sweep (find : σ → List ι) (row : ι → κ) (mode : Mode) (holds : ι → σ → Bool) (update : ι → σ → σ) :
    Tx σ κ ε (List ι) := do
  let found ← select find
  sweepRows row mode holds update found

/-- The transaction when nothing else runs. -/
def run : Tx σ κ ε α → σ → Except ε (α × σ)
  | .pure answer, view => .ok (answer, view)
  | .fail refusal, _ => .error refusal
  | .read next, view => (next view).run view
  | .lock _ _ next, view => next.run view
  | .write change next, view => next.run (change view)

@[simp] theorem run_pure (answer : α) (view : σ) : (Pure.pure answer : Tx σ κ ε α).run view = .ok (answer, view) := rfl

@[simp] theorem run_refuse (refusal : ε) (view : σ) : (refuse refusal : Tx σ κ ε α).run view = .error refusal := rfl

@[simp] theorem run_select (query : σ → α) (view : σ) :
    (select query : Tx σ κ ε α).run view = .ok (query view, view) := rfl

@[simp] theorem run_lockRow (row : κ) (mode : Mode) (view : σ) :
    (lockRow row mode : Tx σ κ ε Unit).run view = .ok ((), view) := rfl

@[simp] theorem run_change (update : σ → σ) (view : σ) :
    (change update : Tx σ κ ε Unit).run view = .ok ((), update view) := rfl

@[simp] theorem run_bind (program : Tx σ κ ε α) (rest : α → Tx σ κ ε β) (view : σ) :
    (program >>= rest).run view = match program.run view with
      | .error refusal => .error refusal
      | .ok (answer, view) => (rest answer).run view := by
  show (program.bind rest).run view = _
  induction program generalizing view with
  | pure answer => rfl
  | fail refusal => rfl
  | read next ih => exact ih view view
  | lock row mode next ih => exact ih view
  | write change next ih => exact ih (change view)

end Tx

/-! ### Systems -/

/-- A transaction that runs: what is left of it, what it has written, and the locks it holds. -/
structure Session (σ κ ε α : Type) where
  program : Tx σ κ ε α
  redo : σ → σ
  locks : Locks κ

/-- The committed database and the transactions that have been started, with nothing for those that have
ended. -/
structure System (σ κ ε α : Type) where
  committed : σ
  sessions : List (Option (Session σ κ ε α))

inductive Event (σ κ ε α : Type) where
  | start (program : Tx σ κ ε α)
  | step (index : Nat)
  | rollback (index : Nat)

namespace System

def idle (committed : σ) : System σ κ ε α := ⟨committed, []⟩

def session (sys : System σ κ ε α) (index : Nat) : Option (Session σ κ ε α) := sys.sessions[index]?.join

def put (sys : System σ κ ε α) (index : Nat) (left : Option (Session σ κ ε α)) : System σ κ ε α :=
  { sys with sessions := sys.sessions.set index left }

variable [DecidableEq κ]

/-- No other transaction holds a lock on the row that conflicts. -/
def grants (sys : System σ κ ε α) (index : Nat) (row : κ) (mode : Mode) : Bool :=
  (List.range sys.sessions.length).all fun other => other = index || match sys.session other with
    | none => true
    | some session => session.locks.all fun held => held.1 ≠ row || !mode.conflicts held.2

/-- What one event makes of the system, with the answer of the transaction that it commits. Nothing when a
lock has to be waited for or the transaction has ended. -/
def apply (sys : System σ κ ε α) : Event σ κ ε α → Option (System σ κ ε α × Option α)
  | .start program => some ({ sys with sessions := sys.sessions ++ [some ⟨program, id, []⟩] }, none)
  | .rollback index => (sys.session index).map fun _ => (sys.put index none, none)
  | .step index => (sys.session index).bind fun session => match session.program with
    | .pure answer => some ({ sys.put index none with committed := session.redo sys.committed }, some answer)
    | .fail _ => some (sys.put index none, none)
    | .read next => some (sys.put index (some { session with program := next (session.redo sys.committed) }), none)
    | .lock row mode next =>
        if sys.grants index row mode then
          some (sys.put index (some { session with program := next, locks := (row, mode) :: session.locks }), none)
        else none
    | .write change next =>
        some (sys.put index (some { session with program := next, redo := change ∘ session.redo }), none)

omit [DecidableEq κ] in
/-- The answer and the locks of the transaction that the event commits. -/
def ending (sys : System σ κ ε α) : Event σ κ ε α → Option (α × Locks κ)
  | .step index => (sys.session index).bind fun session => match session.program with
    | .pure answer => some (answer, session.locks)
    | _ => none
  | _ => none

/-- A plan of calls to start and of transactions to step, with the answers of those that commit. Nothing when one
may not start, has to wait or is not permitted. -/
def replay (program : ι → Tx σ κ ε α) (may : σ → ι → Prop) [∀ view call, Decidable (may view call)]
    (permits : α → Locks κ → σ → Prop) [∀ answer locks view, Decidable (permits answer locks view)]
    (sys : System σ κ ε α) : List (ι ⊕ Nat) → Option (System σ κ ε α × List α)
  | [] => some (sys, [])
  | .inl call :: plan =>
      if may sys.committed call then
        (sys.apply (.start (program call))).bind fun next => next.1.replay program may permits plan
      else none
  | .inr index :: plan =>
      if (sys.ending (.step index)).all fun ends => permits ends.1 ends.2 sys.committed then
        (sys.apply (.step index)).bind fun next =>
          (next.1.replay program may permits plan).map fun last => (last.1, next.2.toList ++ last.2)
      else none

omit [DecidableEq κ] in
theorem lt_of_session {sys : System σ κ ε α} {index : Nat} {session : Session σ κ ε α}
    (h : sys.session index = some session) : index < sys.sessions.length := by
  by_contra hge
  rw [System.session, List.getElem?_eq_none (Nat.le_of_not_lt hge)] at h
  cases h

omit [DecidableEq κ] in
theorem session_put {sys : System σ κ ε α} {index : Nat} {session : Session σ κ ε α}
    (h : sys.session index = some session) (left : Option (Session σ κ ε α)) (other : Nat) :
    (sys.put index left).session other = if other = index then left else sys.session other := by
  have hlt := lt_of_session h
  simp only [System.session, put, List.getElem?_set, hlt, if_true]
  split
  · subst other
    simp
  · rw [if_neg (Ne.symm ‹_›)]

omit [DecidableEq κ] in
theorem session_start (sys : System σ κ ε α) (program : Tx σ κ ε α) (other : Nat) :
    ({ sys with sessions := sys.sessions ++ [some ⟨program, id, []⟩] } : System σ κ ε α).session other =
      if other = sys.sessions.length then some ⟨program, id, []⟩ else sys.session other := by
  simp only [System.session, List.getElem?_append]
  split
  · rw [if_neg (Nat.ne_of_lt ‹_›)]
  · obtain rfl | hne := eq_or_ne other sys.sessions.length
    · simp
    · have hpast : sys.sessions[other]? = none := List.getElem?_eq_none (by omega)
      rw [if_neg hne, List.getElem?_eq_none (by simp only [List.length_singleton]; omega), hpast]

theorem grants_iff (sys : System σ κ ε α) (index : Nat) (row : κ) (mode : Mode) :
    sys.grants index row mode ↔ ∀ other session, sys.session other = some session → other ≠ index →
      ∀ mode', (row, mode') ∈ session.locks → mode.conflicts mode' = false := by
  simp only [grants, List.all_eq_true, List.mem_range, Bool.or_eq_true, decide_eq_true_eq]
  constructor
  · intro h other session hsession hne mode' hmem
    have hclear := (h other (lt_of_session hsession)).resolve_left hne
    rw [hsession] at hclear
    simpa using List.all_eq_true.1 hclear _ hmem
  · intro h other _
    refine or_iff_not_imp_left.2 fun hne => ?_
    cases hsession : sys.session other with
    | none => rfl
    | some session =>
        refine List.all_eq_true.2 fun held hheld => ?_
        obtain ⟨row', mode'⟩ := held
        obtain rfl | hrow := eq_or_ne row' row
        · simpa using h other session hsession hne mode' hheld
        · simpa using .inl hrow

end System

/-! ### Runs -/

section Steps

variable [DecidableEq κ] (starts : σ → Tx σ κ ε α → Prop) (permits : α → Locks κ → σ → Prop)

/-- The event starts only what `starts` allows at the committed database, and commits only where `permits` allows the answer, with
the locks that are held, at the committed database. -/
structure System.Allows (sys : System σ κ ε α) (event : Event σ κ ε α) : Prop where
  starts : ∀ program, event = .start program → starts sys.committed program
  permits : ∀ answer locks, sys.ending event = some (answer, locks) → permits answer locks sys.committed

def Step (sys : System σ κ ε α) (answer : Option α) (next : System σ κ ε α) : Prop :=
  ∃ event, sys.Allows starts permits event ∧ sys.apply event = some (next, answer)

/-- Any number of events in any order. -/
def Steps : System σ κ ε α → System σ κ ε α → Prop :=
  Relation.ReflTransGen fun sys next => ∃ answer, Step starts permits sys answer next

end Steps

/-- The programs of the calls that may be made. -/
def Calls (program : ι → Tx σ κ ε α) (may : σ → ι → Prop) (view : σ) (started : Tx σ κ ε α) : Prop :=
  ∃ call, may view call ∧ started = program call

/-- A replay is a run. -/
theorem steps_of_replay [DecidableEq κ] {program : ι → Tx σ κ ε α} {may : σ → ι → Prop}
    [∀ view call, Decidable (may view call)] {permits : α → Locks κ → σ → Prop}
    [∀ answer locks view, Decidable (permits answer locks view)] {sys last : System σ κ ε α} {plan : List (ι ⊕ Nat)}
    {answers : List α} (hreplay : sys.replay program may permits plan = some (last, answers)) :
    Steps (Calls program may) permits sys last := by
  induction plan generalizing sys answers with
  | nil =>
      cases hreplay
      exact .refl
  | cons event plan ih =>
      cases event with
      | inl call =>
          unfold System.replay at hreplay
          split at hreplay
          next hmay =>
            obtain ⟨next, happly, hrest⟩ := Option.bind_eq_some_iff.1 hreplay
            refine .head ⟨next.2, .start (program call), ⟨?_, ?_⟩, happly⟩ (ih hrest)
            · intro started hstart
              cases hstart
              exact ⟨call, hmay, rfl⟩
            · intro answer locks hending
              cases hending
          next => cases hreplay
      | inr index =>
          unfold System.replay at hreplay
          split at hreplay
          next hpermits =>
            obtain ⟨next, happly, hmap⟩ := Option.bind_eq_some_iff.1 hreplay
            obtain ⟨⟨last', answers'⟩, hrest, heq⟩ := Option.map_eq_some_iff.1 hmap
            obtain ⟨rfl, -⟩ := Prod.mk.inj heq
            refine .head ⟨next.2, .step index, ⟨?_, ?_⟩, happly⟩ (ih hrest)
            · intro started hstart
              cases hstart
            · intro answer locks hending
              rw [hending] at hpermits
              simpa using hpermits
          next => cases hreplay

/-- What commits is the answer that the transaction ended in. -/
theorem System.answer_of_ending [DecidableEq κ] {sys next : System σ κ ε α} {event : Event σ κ ε α} {answer : α}
    {out : Option α} {locks : Locks κ} (hending : sys.ending event = some (answer, locks))
    (happly : sys.apply event = some (next, out)) : out = some answer := by
  cases event with
  | start program => cases hending
  | rollback index => cases hending
  | step index =>
      obtain ⟨session, hsession, hending⟩ := Option.bind_eq_some_iff.1 hending
      split at hending
      next a hprogram =>
        cases hending
        simp only [System.apply, hsession, Option.bind_some, hprogram, Option.some.injEq, Prod.mk.injEq] at happly
        exact happly.2.symm
      next => cases hending

/-- What one statement of a transaction makes of it, with nothing committed: it ends, or goes on. -/
inductive Advances [DecidableEq κ] (sys : System σ κ ε α) (index : Nat) (session : Session σ κ ε α) :
    Option (Session σ κ ε α) → Prop
  | ended : Advances sys index session none
  | reads {next : σ → Tx σ κ ε α} (h : session.program = .read next) :
      Advances sys index session (some { session with program := next (session.redo sys.committed) })
  | locks {row : κ} {mode : Mode} {next : Tx σ κ ε α} (h : session.program = .lock row mode next)
      (hgrants : sys.grants index row mode = true) :
      Advances sys index session (some { session with program := next, locks := (row, mode) :: session.locks })
  | writes {change : σ → σ} {next : Tx σ κ ε α} (h : session.program = .write change next) :
      Advances sys index session (some { session with program := next, redo := change ∘ session.redo })

/-- All that a step can be: a start, a statement or a commit. -/
theorem Step.cases [DecidableEq κ] {starts : σ → Tx σ κ ε α → Prop} {permits : α → Locks κ → σ → Prop}
    {sys next : System σ κ ε α} {answer : Option α} (h : Step starts permits sys answer next) :
    (∃ program, starts sys.committed program ∧ answer = none ∧
      next = { sys with sessions := sys.sessions ++ [some ⟨program, id, []⟩] }) ∨
    (∃ index session left, sys.session index = some session ∧ Advances sys index session left ∧ answer = none ∧
      next = sys.put index left) ∨
    ∃ index session a, sys.session index = some session ∧ session.program = .pure a ∧
      permits a session.locks sys.committed ∧ answer = some a ∧
      next = { sys.put index none with committed := session.redo sys.committed } := by
  obtain ⟨event, hallows, happly⟩ := h
  cases event with
  | start program =>
      cases happly
      exact .inl ⟨program, hallows.starts program rfl, rfl, rfl⟩
  | rollback index =>
      obtain ⟨session, hsession, happly⟩ := Option.map_eq_some_iff.1 happly
      cases happly
      exact .inr (.inl ⟨index, session, none, hsession, .ended, rfl, rfl⟩)
  | step index =>
      obtain ⟨session, hsession, happly⟩ := Option.bind_eq_some_iff.1 happly
      cases hprogram : session.program with
      | pure a =>
          have hending : sys.ending (.step index) = some (a, session.locks) := by
            simp [System.ending, hsession, hprogram]
          rw [hprogram] at happly
          cases happly
          exact .inr (.inr ⟨index, session, a, hsession, hprogram, hallows.permits a _ hending, rfl, rfl⟩)
      | fail refusal =>
          rw [hprogram] at happly
          cases happly
          exact .inr (.inl ⟨index, session, none, hsession, .ended, rfl, rfl⟩)
      | read rest =>
          rw [hprogram] at happly
          cases happly
          exact .inr (.inl ⟨index, session, _, hsession, .reads hprogram, rfl, rfl⟩)
      | write change rest =>
          rw [hprogram] at happly
          cases happly
          exact .inr (.inl ⟨index, session, _, hsession, .writes hprogram, rfl, rfl⟩)
      | lock row mode rest =>
          rw [hprogram] at happly
          dsimp only at happly
          split at happly
          · cases happly
            exact .inr (.inl ⟨index, session, _, hsession, .locks hprogram ‹_›, rfl, rfl⟩)
          · cases happly

/-- Only a commit changes what is committed. -/
theorem Step.committed [DecidableEq κ] {starts : σ → Tx σ κ ε α → Prop} {permits : α → Locks κ → σ → Prop}
    {sys next : System σ κ ε α} (h : Step starts permits sys none next) : next.committed = sys.committed := by
  obtain ⟨_, _, _, rfl⟩ | ⟨_, _, _, _, _, _, rfl⟩ | ⟨_, _, _, _, _, _, hnone, _⟩ := h.cases
  · rfl
  · rfl
  · cases hnone

/-- A run in which fewer programs may start. -/
theorem Steps.mono [DecidableEq κ] {starts starts' : σ → Tx σ κ ε α → Prop} {permits : α → Locks κ → σ → Prop}
    {sys next : System σ κ ε α} (h : Steps starts permits sys next)
    (hstarts : ∀ view program, starts view program → starts' view program) : Steps starts' permits sys next := by
  refine Relation.ReflTransGen.mono (fun _ _ hstep => ?_) _ _ h
  obtain ⟨answer, event, hallows, happly⟩ := hstep
  exact ⟨answer, event, ⟨fun program heq => hstarts _ _ (hallows.starts program heq), hallows.permits⟩, happly⟩

/-! ### Protocols -/

/-- What holds of every committed database, and what a transaction may do to it when it commits with an
answer and holds the locks. `permits` is assumed of every commit. -/
structure Protocol (σ κ α : Type) where
  inv : σ → Prop
  permits : α → Locks κ → σ → Prop
  guar : α → Locks κ → σ → σ → Prop

namespace Protocol

variable (protocol : Protocol σ κ α)

/-- One commit of another transaction while the locks are held. -/
def Other (locks : Locks κ) (before after : σ) : Prop :=
  ∃ answer theirs, Compatible locks theirs ∧ protocol.permits answer theirs before ∧
    protocol.guar answer theirs before after ∧ protocol.inv after

/-- What others can have committed while the locks are held. -/
def Rely (locks : Locks κ) : σ → σ → Prop :=
  Relation.ReflTransGen (protocol.Other locks)

variable {protocol}

theorem Rely.mono {mine more : Locks κ} {before after : σ} (h : protocol.Rely more before after) (hmore : mine ⊆ more) :
    protocol.Rely mine before after := by
  refine Relation.ReflTransGen.mono (fun _ _ hother => ?_) _ _ h
  obtain ⟨answer, theirs, hcompatible, hrest⟩ := hother
  exact ⟨answer, theirs, hcompatible.mono hmore, hrest⟩

theorem Rely.inv {locks : Locks κ} {before after : σ} (h : protocol.Rely locks before after)
    (hinv : protocol.inv before) : protocol.inv after := by
  induction h with
  | refl => exact hinv
  | tail _ hlast _ =>
      obtain ⟨_, _, _, _, _, hafter⟩ := hlast
      exact hafter

/-- What each commit of another transaction keeps is kept. -/
theorem Rely.keeps {locks : Locks κ} {before after : σ} (h : protocol.Rely locks before after)
    (hinv : protocol.inv before) (fact : σ → Prop)
    (hkeeps : ∀ answer theirs s s', Compatible locks theirs → protocol.permits answer theirs s →
      protocol.guar answer theirs s s' → protocol.inv s → protocol.inv s' → fact s → fact s')
    (hfact : fact before) : fact after := by
  induction h with
  | refl => exact hfact
  | tail hfirst hlast ih =>
      obtain ⟨answer, theirs, hcompatible, hpermits, hguar, hafter⟩ := hlast
      exact hkeeps answer theirs _ _ hcompatible hpermits hguar (Rely.inv hfirst hinv) hafter ih

/-- The program, with its locks and writes, ends in the postcondition from every database that others can
commit in the meantime. -/
def Wp (protocol : Protocol σ κ α) (post : β → Locks κ → (σ → σ) → σ → Prop) :
    Tx σ κ ε β → Locks κ → (σ → σ) → σ → Prop
  | .pure answer, locks, redo, committed => post answer locks redo committed
  | .fail _, _, _, _ => True
  | .read next, locks, redo, committed => ∀ now, protocol.Rely locks committed now → protocol.inv now →
      protocol.Wp post (next (redo now)) locks redo now
  | .lock row mode next, locks, redo, committed => ∀ now, protocol.Rely locks committed now → protocol.inv now →
      protocol.Wp post next ((row, mode) :: locks) redo now
  | .write change next, locks, redo, committed => protocol.Wp post next locks (change ∘ redo) committed

/-- A commit keeps its guarantee at whatever is committed by then. -/
def Commits (protocol : Protocol σ κ α) (answer : α) (locks : Locks κ) (redo : σ → σ) (committed : σ) : Prop :=
  ∀ now, protocol.Rely locks committed now → protocol.inv now → protocol.permits answer locks now →
    protocol.guar answer locks now (redo now) ∧ protocol.inv (redo now)

/-- Every run of a program that may start keeps the protocol. -/
def Follows (protocol : Protocol σ κ α) (starts : σ → Tx σ κ ε α → Prop) : Prop :=
  ∀ committed program, protocol.inv committed → starts committed program →
    protocol.Wp protocol.Commits program [] id committed

theorem wp_bind {post : β → Locks κ → (σ → σ) → σ → Prop} (program : Tx σ κ ε ι) (rest : ι → Tx σ κ ε β) :
    protocol.Wp post (program >>= rest) = protocol.Wp (fun answer => protocol.Wp post (rest answer)) program := by
  show protocol.Wp post (program.bind rest) = _
  funext locks redo committed
  induction program generalizing locks redo committed with
  | pure answer => rfl
  | fail refusal => rfl
  | read next ih => exact forall_congr fun now => by rw [ih (redo now) locks redo now]
  | lock row mode next ih => exact forall_congr fun now => by rw [ih ((row, mode) :: locks) redo now]
  | write change next ih => exact ih locks (change ∘ redo) committed

@[simp] theorem wp_pure {post : β → Locks κ → (σ → σ) → σ → Prop} (answer : β) (locks : Locks κ) (redo : σ → σ)
    (committed : σ) :
    protocol.Wp post (Pure.pure answer : Tx σ κ ε β) locks redo committed ↔ post answer locks redo committed :=
  Iff.rfl

@[simp] theorem wp_refuse {post : β → Locks κ → (σ → σ) → σ → Prop} (refusal : ε) (locks : Locks κ) (redo : σ → σ)
    (committed : σ) : protocol.Wp post (Tx.refuse refusal) locks redo committed ↔ True :=
  Iff.rfl

@[simp] theorem wp_select {post : β → Locks κ → (σ → σ) → σ → Prop} (query : σ → β) (locks : Locks κ) (redo : σ → σ)
    (committed : σ) :
    protocol.Wp post (Tx.select query : Tx σ κ ε β) locks redo committed ↔
      ∀ now, protocol.Rely locks committed now → protocol.inv now → post (query (redo now)) locks redo now :=
  Iff.rfl

@[simp] theorem wp_lockRow {post : Unit → Locks κ → (σ → σ) → σ → Prop} (row : κ) (mode : Mode) (locks : Locks κ)
    (redo : σ → σ) (committed : σ) :
    protocol.Wp post (Tx.lockRow row mode : Tx σ κ ε Unit) locks redo committed ↔
      ∀ now, protocol.Rely locks committed now → protocol.inv now → post () ((row, mode) :: locks) redo now :=
  Iff.rfl

@[simp] theorem wp_change {post : Unit → Locks κ → (σ → σ) → σ → Prop} (change : σ → σ) (locks : Locks κ)
    (redo : σ → σ) (committed : σ) :
    protocol.Wp post (Tx.change change : Tx σ κ ε Unit) locks redo committed ↔ post () locks (change ∘ redo) committed :=
  Iff.rfl

@[simp] theorem wp_require {post : Unit → Locks κ → (σ → σ) → σ → Prop} (holds : Prop) [Decidable holds] (refusal : ε)
    (locks : Locks κ) (redo : σ → σ) (committed : σ) :
    protocol.Wp post (Tx.require holds refusal) locks redo committed ↔ (holds → post () locks redo committed) := by
  unfold Tx.require
  split <;> simp_all [Wp]

@[simp] theorem wp_ite {post : β → Locks κ → (σ → σ) → σ → Prop} (holds : Prop) [Decidable holds]
    (yes no : Tx σ κ ε β) (locks : Locks κ) (redo : σ → σ) (committed : σ) :
    protocol.Wp post (if holds then yes else no) locks redo committed ↔
      (holds → protocol.Wp post yes locks redo committed) ∧ (¬ holds → protocol.Wp post no locks redo committed) := by
  split <;> simp_all

@[simp] theorem wp_mapFailure {post : β → Locks κ → (σ → σ) → σ → Prop} (words : ε → ε) (program : Tx σ κ ε β) :
    protocol.Wp post (program.mapFailure words) = protocol.Wp post program := by
  funext locks redo committed
  induction program generalizing locks redo committed with
  | pure answer => rfl
  | fail refusal => rfl
  | read next ih => exact forall_congr fun now => by rw [ih (redo now) locks redo now]
  | lock row mode next ih => exact forall_congr fun now => by rw [ih ((row, mode) :: locks) redo now]
  | write change next ih => exact ih locks (change ∘ redo) committed

theorem Wp.mono {post post' : β → Locks κ → (σ → σ) → σ → Prop} {program : Tx σ κ ε β}
    (hpost : ∀ answer locks redo committed, post answer locks redo committed → post' answer locks redo committed)
    {locks : Locks κ} {redo : σ → σ} {committed : σ} (h : protocol.Wp post program locks redo committed) :
    protocol.Wp post' program locks redo committed := by
  induction program generalizing locks redo committed with
  | pure answer => exact hpost _ _ _ _ h
  | fail refusal => trivial
  | read next ih => exact fun now hrely hinv => ih (redo now) (h now hrely hinv)
  | lock row mode next ih => exact fun now hrely hinv => ih (h now hrely hinv)
  | write change next ih => exact ih h

/-- What is proved of a program stays true while others commit. -/
theorem Wp.later {post : β → Locks κ → (σ → σ) → σ → Prop}
    (hpost : ∀ answer locks redo committed now, protocol.Rely locks committed now → protocol.inv now →
      post answer locks redo committed → post answer locks redo now)
    {program : Tx σ κ ε β} {locks : Locks κ} {redo : σ → σ} {committed now : σ}
    (h : protocol.Wp post program locks redo committed) (hrely : protocol.Rely locks committed now)
    (hinv : protocol.inv now) : protocol.Wp post program locks redo now := by
  induction program generalizing locks redo with
  | pure answer => exact hpost _ _ _ _ _ hrely hinv h
  | fail refusal => trivial
  | read next _ => exact fun later hlater => h later (hrely.trans hlater)
  | lock row mode next _ => exact fun later hlater => h later (hrely.trans hlater)
  | write change next ih => exact ih h hrely

theorem Commits.later {answer : α} {locks : Locks κ} {redo : σ → σ} {committed now : σ}
    (h : protocol.Commits answer locks redo committed) (hrely : protocol.Rely locks committed now) :
    protocol.Commits answer locks redo now :=
  fun later hlater => h later (hrely.trans hlater)

/-- A loop keeps an invariant that its body keeps and others cannot break. -/
theorem wp_each {post : Unit → Locks κ → (σ → σ) → σ → Prop} (invariant : List ι → Locks κ → (σ → σ) → σ → Prop)
    {rows : List ι} {body : ι → Tx σ κ ε Unit}
    (hbody : ∀ row rest locks redo committed, invariant (row :: rest) locks redo committed →
      protocol.Wp (fun _ => invariant rest) (body row) locks redo committed)
    (hend : ∀ locks redo committed, invariant [] locks redo committed → post () locks redo committed)
    {locks : Locks κ} {redo : σ → σ} {committed : σ} (h : invariant rows locks redo committed) :
    protocol.Wp post (Tx.each rows body) locks redo committed := by
  induction rows generalizing locks redo committed with
  | nil => exact hend _ _ _ h
  | cons row rest ih =>
      show protocol.Wp post (body row >>= fun _ => Tx.each rest body) locks redo committed
      rw [wp_bind]
      exact (hbody row rest locks redo committed h).mono fun _ _ _ _ hrest => ih hrest

theorem wp_lockFirst {post : Option β → Locks κ → (σ → σ) → σ → Prop} {mode : Mode} {find : σ → Option ι} {row : ι → κ}
    {again : ι → σ → Option β} {locks : Locks κ} {redo : σ → σ} {committed : σ}
    (hnone : ∀ now, protocol.Rely locks committed now → protocol.inv now → find (redo now) = none →
      post none locks redo now)
    (hsome : ∀ before now found, protocol.Rely locks committed before → protocol.inv before →
      find (redo before) = some found → protocol.Rely locks before now → protocol.inv now →
      post (again found (redo now)) ((row found, mode) :: locks) redo now) :
    protocol.Wp post (Tx.lockFirst mode find row again : Tx σ κ ε (Option β)) locks redo committed := by
  simp only [Tx.lockFirst, wp_bind, wp_select]
  intro now hrely hinv
  cases hfind : find (redo now) with
  | none => exact hnone now hrely hinv hfind
  | some found =>
      simp only [wp_bind, wp_lockRow, wp_select]
      intro held hheld _ later hlater hlaterInv
      exact hsome now later found hrely hinv hfind (hheld.trans (hlater.mono (List.subset_cons_self _ _))) hlaterInv

/-- One `UPDATE`: nothing matched, or the row is locked and changed as it is then. -/
theorem wp_updateRow {post : Bool → Locks κ → (σ → σ) → σ → Prop} {row : κ} {mode : Mode} {found again : σ → Bool}
    {update : σ → σ} {locks : Locks κ} {redo : σ → σ} {committed : σ}
    (hno : ∀ now more, protocol.Rely locks committed now → protocol.inv now → locks ⊆ more →
      post false more redo now)
    (hyes : ∀ before now, protocol.Rely locks committed before → found (redo before) = true →
      protocol.Rely locks before now → protocol.inv now → again (redo now) = true →
      post true ((row, mode) :: locks) (update ∘ redo) now) :
    protocol.Wp post (Tx.updateRow row mode found again update : Tx σ κ ε Bool) locks redo committed := by
  simp only [Tx.updateRow, wp_bind, wp_select, wp_ite, wp_lockRow, wp_change]
  intro now hrely hinv
  refine ⟨fun hfound => ?_, fun _ => hno now locks hrely hinv (List.Subset.refl _)⟩
  intro held hheld _ later hlater hlaterInv
  have hthen := hheld.trans (hlater.mono (List.subset_cons_self _ _))
  exact ⟨fun hagain => hyes now later hrely hfound hthen hlaterInv hagain,
    fun _ => hno later _ (hrely.trans hthen) hlaterInv (List.subset_cons_self _ _)⟩

/-- An `UPDATE` of a row that matches, and goes on to: it is changed. -/
theorem wp_updateRow_found {post : Bool → Locks κ → (σ → σ) → σ → Prop} {row : κ} {mode : Mode} {found again : σ → Bool}
    {update : σ → σ} {locks : Locks κ} {redo : σ → σ} {committed : σ}
    (htrue : ∀ view, protocol.Rely locks committed view → found (redo view) = true ∧ again (redo view) = true)
    (h : ∀ now, protocol.Rely locks committed now → protocol.inv now → post true ((row, mode) :: locks) (update ∘ redo) now) :
    protocol.Wp post (Tx.updateRow row mode found again update : Tx σ κ ε Bool) locks redo committed := by
  simp only [Tx.updateRow, wp_bind, wp_select, wp_ite, wp_lockRow, wp_change]
  intro now hrely _
  refine ⟨fun _ held hheld _ later hlater hlaterInv => ?_, fun hnot => absurd (htrue now hrely).1 hnot⟩
  have hthen := hrely.trans (hheld.trans (hlater.mono (List.subset_cons_self _ _)))
  exact ⟨fun _ => h later hthen hlaterInv, fun hnot => absurd (htrue later hthen).2 hnot⟩

theorem wp_lockEach {post : Unit → Locks κ → (σ → σ) → σ → Prop} {mode : Mode} {rows : List κ} {locks : Locks κ}
    {redo : σ → σ} {committed : σ}
    (h : ∀ now more, protocol.Rely locks committed now → protocol.inv now → locks ⊆ more →
      (∀ row ∈ rows, (row, mode) ∈ more) → post () more redo now) (hinv : protocol.inv committed) :
    protocol.Wp post (Tx.each rows fun row => Tx.lockRow row mode : Tx σ κ ε Unit) locks redo committed := by
  induction rows generalizing locks committed with
  | nil => exact h committed locks .refl hinv (List.Subset.refl _) (fun _ hmem => absurd hmem List.not_mem_nil)
  | cons row rows ih =>
      intro first hfirst hfirstInv
      refine ih (fun now more hnow hnowInv hmore hrows => ?_) hfirstInv
      refine h now more (hfirst.trans (hnow.mono (List.subset_cons_self _ _))) hnowInv
        (fun _ hmem => hmore (.tail _ hmem)) fun other hother => ?_
      obtain rfl | hother := List.mem_cons.1 hother
      · exact hmore List.mem_cons_self
      · exact hrows other hother

/-- One `INSERT`: its keys were free when they were locked, and the rows it references are there. -/
theorem wp_insertRow {post : Unit → Locks κ → (σ → σ) → σ → Prop} {keys references : List κ} {taken present : σ → Bool}
    {duplicate missing : ε} {put : σ → σ} {locks : Locks κ} {redo : σ → σ} {committed : σ}
    (h : ∀ before now held more, protocol.Rely locks committed before → protocol.inv before →
      taken (redo before) = false → protocol.Rely held before now → protocol.inv now → locks ⊆ held → held ⊆ more →
      (∀ key ∈ keys, (key, .update) ∈ held) → (∀ row ∈ references, (row, .keyShare) ∈ more) →
      present (redo now) = true → post () more (put ∘ redo) now) (hinv : protocol.inv committed) :
    protocol.Wp post (Tx.insertRow keys taken references present duplicate missing put) locks redo committed := by
  simp only [Tx.insertRow, wp_bind]
  refine wp_lockEach (fun first held hfirst _ hheld hkeys => ?_) hinv
  simp only [wp_select, wp_require]
  intro before hbefore hbeforeInv hfree
  refine wp_lockEach (fun second more hsecond _ hmore hreferences => ?_) hbeforeInv
  simp only [wp_select, wp_require, wp_change]
  intro now hnow hnowInv hpresent
  exact h before now held more (hfirst.trans (hbefore.mono hheld)) hbeforeInv hfree (hsecond.trans (hnow.mono hmore))
    hnowInv hheld hmore hkeys hreferences hpresent

/-- One `UPDATE` of many rows: all of them are locked, and those that are not changed no longer matched. -/
theorem wp_sweepRows {post : List ι → Locks κ → (σ → σ) → σ → Prop} {row : ι → κ} {mode : Mode} {holds : ι → σ → Bool}
    {update : ι → σ → σ} {rows : List ι} {locks : Locks κ} {redo : σ → σ} {committed : σ}
    (hother : ∀ left right view, left ≠ right → holds left (update right view) = holds left view)
    (h : ∀ now more changed, protocol.Rely locks committed now → protocol.inv now → locks ⊆ more → changed ⊆ rows →
      (∀ next ∈ rows, (row next, mode) ∈ more) →
      (∀ next ∈ rows, next ∉ changed → ∃ seen, protocol.Rely locks committed seen ∧ protocol.Rely locks seen now ∧
        protocol.inv seen ∧ holds next (redo seen) = false) →
      post changed more ((fun view => changed.foldl (fun view next => update next view) view) ∘ redo) now)
    (hinv : protocol.inv committed) :
    protocol.Wp post (Tx.sweepRows row mode holds update rows : Tx σ κ ε (List ι)) locks redo committed := by
  induction rows generalizing post locks redo committed with
  | nil =>
      exact h committed locks [] .refl hinv (List.Subset.refl _) (List.Subset.refl _)
        (fun _ hmem => absurd hmem List.not_mem_nil) fun _ hmem => absurd hmem List.not_mem_nil
  | cons next rest ih =>
      simp only [Tx.sweepRows, wp_bind, wp_lockRow, wp_select, wp_ite]
      intro first hfirst _ second hsecond hsecondInv
      have hmine : locks ⊆ (row next, mode) :: locks := List.subset_cons_self _ _
      have hreached : protocol.Rely locks committed second := hfirst.trans (hsecond.mono hmine)
      refine ⟨fun hholds => ?_, fun hnot => ?_⟩
      · simp only [wp_change]
        refine ih (fun now more changed hnow hnowInv hmore hchanged hlocked hseen => ?_) hsecondInv
        refine h now more (next :: changed) (hreached.trans (hnow.mono hmine)) hnowInv
          (fun _ hmem => hmore (hmine hmem)) (List.cons_subset_cons _ hchanged) ?_ ?_
        · intro other hmem
          obtain rfl | hmem := List.mem_cons.1 hmem
          · exact hmore List.mem_cons_self
          · exact hlocked other hmem
        · intro other hmem hnot
          rw [List.mem_cons, not_or] at hnot
          obtain ⟨seen, hbefore, hafter, hseenInv, hheld⟩ :=
            hseen other ((List.mem_cons.1 hmem).resolve_left hnot.1) hnot.2
          refine ⟨seen, hreached.trans (hbefore.mono hmine), hafter.mono hmine, hseenInv, ?_⟩
          rw [← hother other next (redo seen) hnot.1]
          exact hheld
      · refine ih (fun now more changed hnow hnowInv hmore hchanged hlocked hseen => ?_) hsecondInv
        refine h now more changed (hreached.trans (hnow.mono hmine)) hnowInv (fun _ hmem => hmore (hmine hmem))
          (fun _ hmem => .tail _ (hchanged hmem)) ?_ ?_
        · intro other hmem
          obtain rfl | hmem := List.mem_cons.1 hmem
          · exact hmore List.mem_cons_self
          · exact hlocked other hmem
        · intro other hmem hunchanged
          obtain rfl | hmem := List.mem_cons.1 hmem
          · exact ⟨second, hreached, hnow.mono hmine, hsecondInv, by simpa using hnot⟩
          · obtain ⟨seen, hbefore, hafter, hrest⟩ := hseen other hmem hunchanged
            exact ⟨seen, hreached.trans (hbefore.mono hmine), hafter.mono hmine, hrest⟩

theorem wp_sweep {post : List ι → Locks κ → (σ → σ) → σ → Prop} {find : σ → List ι} {row : ι → κ} {mode : Mode}
    {holds : ι → σ → Bool} {update : ι → σ → σ} {locks : Locks κ} {redo : σ → σ} {committed : σ}
    (hother : ∀ left right view, left ≠ right → holds left (update right view) = holds left view)
    (h : ∀ before now more changed, protocol.Rely locks committed before → protocol.inv before →
      protocol.Rely locks before now → protocol.inv now → locks ⊆ more → changed ⊆ find (redo before) →
      (∀ next ∈ find (redo before), (row next, mode) ∈ more) →
      (∀ next ∈ find (redo before), next ∉ changed → ∃ seen, protocol.Rely locks before seen ∧
        protocol.Rely locks seen now ∧ protocol.inv seen ∧ holds next (redo seen) = false) →
      post changed more ((fun view => changed.foldl (fun view next => update next view) view) ∘ redo) now) :
    protocol.Wp post (Tx.sweep find row mode holds update : Tx σ κ ε (List ι)) locks redo committed := by
  simp only [Tx.sweep, wp_bind, wp_select]
  intro before hbefore hbeforeInv
  exact wp_sweepRows hother (fun now more changed hnow => h before now more changed hbefore hbeforeInv hnow) hbeforeInv

/-! ### A transaction alone -/

/-- The protocol of a system with one transaction. -/
def alone : Protocol σ κ α := ⟨fun _ => True, fun _ _ _ => False, fun _ _ _ _ => False⟩

theorem rely_alone {locks : Locks κ} {before after : σ} (h : (alone : Protocol σ κ α).Rely locks before after) :
    after = before := by
  induction h with
  | refl => rfl
  | tail _ hlast _ =>
      obtain ⟨_, _, _, hpermits, _⟩ := hlast
      cases hpermits

/-- What is proved of a program in the protocol alone holds of its run. -/
theorem run_of_wp {post : β → Locks κ → (σ → σ) → σ → Prop} {program : Tx σ κ ε β} {locks : Locks κ} {redo : σ → σ}
    {view after : σ} {answer : β} (h : (alone : Protocol σ κ α).Wp post program locks redo view)
    (hrun : program.run (redo view) = .ok (answer, after)) :
    ∃ locks redo, post answer locks redo view ∧ after = redo view := by
  induction program generalizing locks redo with
  | pure answer =>
      cases hrun
      exact ⟨locks, redo, h, rfl⟩
  | fail refusal => cases hrun
  | read next ih => exact ih (redo view) (h view .refl trivial) hrun
  | lock row mode next ih => exact ih (h view .refl trivial) hrun
  | write change next ih => exact ih h hrun

/-! ### Soundness -/

/-- What a protocol promises of a system: the invariant, that what is left of each transaction keeps the
protocol, and that no two transactions hold conflicting locks. -/
structure Sound (protocol : Protocol σ κ α) (sys : System σ κ ε α) : Prop where
  inv : protocol.inv sys.committed
  follows : ∀ index session, sys.session index = some session →
    protocol.Wp protocol.Commits session.program session.locks session.redo sys.committed
  exclusive : ∀ index other session session', index ≠ other → sys.session index = some session →
    sys.session other = some session' → Compatible session.locks session'.locks

variable {starts : σ → Tx σ κ ε α → Prop}

theorem Sound.idle {committed : σ} (hinv : protocol.inv committed) :
    Sound protocol (System.idle committed : System σ κ ε α) where
  inv := hinv
  follows index session h := by cases h
  exclusive index other session session' _ h := by cases h

/-- A step of one transaction that commits nothing. -/
theorem Sound.put {sys : System σ κ ε α} (h : Sound protocol sys) {index : Nat} {session : Session σ κ ε α}
    (hsession : sys.session index = some session) (left : Option (Session σ κ ε α))
    (hfollows : ∀ session' ∈ left, protocol.Wp protocol.Commits session'.program session'.locks session'.redo sys.committed)
    (hexclusive : ∀ session' ∈ left, ∀ other session'', other ≠ index → sys.session other = some session'' →
      Compatible session'.locks session''.locks) :
    Sound protocol (sys.put index left) where
  inv := h.inv
  follows other session' hother := by
    rw [System.session_put hsession] at hother
    split at hother
    · exact hfollows _ hother
    · exact h.follows other session' hother
  exclusive one other session' session'' hne hone hother := by
    rw [System.session_put hsession] at hone hother
    split at hone
    · subst one
      rw [if_neg hne.symm] at hother
      exact hexclusive _ hone other _ hne.symm hother
    · split at hother
      · subst other
        exact (hexclusive _ hother one _ hne hone).symm
      · exact h.exclusive one other _ _ hne hone hother

/-- A commit is what its transaction promised, and all others have relied on no more. -/
theorem Sound.commit {sys : System σ κ ε α} (h : Sound protocol sys) {index : Nat} {session : Session σ κ ε α}
    (hsession : sys.session index = some session) {answer : α} (hanswer : session.program = .pure answer)
    (hpermits : protocol.permits answer session.locks sys.committed) :
    protocol.guar answer session.locks sys.committed (session.redo sys.committed) ∧
      Sound protocol { sys.put index none with committed := session.redo sys.committed } := by
  have hends := h.follows index session hsession
  rw [hanswer] at hends
  obtain ⟨hguar, hinv⟩ := hends sys.committed .refl h.inv hpermits
  have hput := h.put hsession none (fun _ hmem => by cases hmem) (fun _ hmem => by cases hmem)
  refine ⟨hguar, hinv, fun other session' hother => ?_, hput.exclusive⟩
  refine (hput.follows other session' hother).later (fun _ _ _ _ _ hrely _ hcommits => hcommits.later hrely) ?_ hinv
  refine .single ⟨answer, session.locks, ?_, hpermits, hguar, hinv⟩
  have hother : (sys.put index none).session other = some session' := hother
  rw [System.session_put hsession] at hother
  split at hother
  · cases hother
  · exact h.exclusive other index _ _ ‹_› hother hsession

variable [DecidableEq κ]

/-- A transaction that goes on keeps what is proved of it. -/
theorem wp_of_advances {post : α → Locks κ → (σ → σ) → σ → Prop} {sys : System σ κ ε α} {index : Nat}
    {session : Session σ κ ε α} {left : Option (Session σ κ ε α)} (h : Advances sys index session left)
    (hinv : protocol.inv sys.committed)
    (hwp : protocol.Wp post session.program session.locks session.redo sys.committed) :
    ∀ session' ∈ left, protocol.Wp post session'.program session'.locks session'.redo sys.committed := by
  intro session' hmem
  cases h with
  | ended => cases hmem
  | reads hprogram =>
      cases hmem
      rw [hprogram] at hwp
      exact hwp sys.committed .refl hinv
  | locks hprogram _ =>
      cases hmem
      rw [hprogram] at hwp
      exact hwp sys.committed .refl hinv
  | writes hprogram =>
      cases hmem
      rw [hprogram] at hwp
      exact hwp

theorem exclusive_of_advances {sys : System σ κ ε α} {index : Nat} {session : Session σ κ ε α}
    {left : Option (Session σ κ ε α)} (h : Advances sys index session left)
    (hexclusive : ∀ other session'', other ≠ index → sys.session other = some session'' →
      Compatible session.locks session''.locks) :
    ∀ session' ∈ left, ∀ other session'', other ≠ index → sys.session other = some session'' →
      Compatible session'.locks session''.locks := by
  intro session' hmem other session'' hne hother
  cases h with
  | ended => cases hmem
  | reads _ =>
      cases hmem
      exact hexclusive other session'' hne hother
  | @locks row mode _ _ hgrants =>
      cases hmem
      intro row' mode' mode'' hmine htheirs
      obtain hnew | hold := List.mem_cons.1 hmine
      · cases hnew
        exact (System.grants_iff sys index row mode).1 hgrants other session'' hother hne mode'' htheirs
      · exact hexclusive other session'' hne hother row' mode' mode'' hold htheirs
  | writes _ =>
      cases hmem
      exact hexclusive other session'' hne hother

theorem Sound.step (hstarts : protocol.Follows starts) {sys next : System σ κ ε α}
    {answer : Option α} (h : Sound protocol sys) (hstep : Step starts protocol.permits sys answer next) :
    Sound protocol next ∧ ∀ a ∈ answer, ∃ locks, protocol.permits a locks sys.committed ∧
      protocol.guar a locks sys.committed next.committed := by
  obtain ⟨program, hstart, rfl, rfl⟩ | ⟨index, session, left, hsession, hadvances, rfl, rfl⟩ |
    ⟨index, session, a, hsession, hprogram, hpermits, rfl, rfl⟩ := hstep.cases
  · refine ⟨⟨h.inv, fun index session hsession => ?_, fun one other session session' hne hone hother => ?_⟩, by simp⟩
    · rw [System.session_start] at hsession
      split at hsession
      · cases hsession
        exact hstarts sys.committed program h.inv hstart
      · exact h.follows index session hsession
    · rw [System.session_start] at hone hother
      split at hone
      · cases hone
        exact Compatible.nil _
      · split at hother
        · cases hother
          exact (Compatible.nil _).symm
        · exact h.exclusive one other _ _ hne hone hother
  · have hexclusive := exclusive_of_advances hadvances fun other session'' hne hother =>
      h.exclusive index other _ _ hne.symm hsession hother
    exact ⟨h.put hsession left (wp_of_advances hadvances h.inv (h.follows index session hsession)) hexclusive, by simp⟩
  · have hcommit := h.commit hsession hprogram hpermits
    refine ⟨hcommit.2, fun a' ha' => ?_⟩
    cases ha'
    exact ⟨session.locks, hpermits, hcommit.1⟩

/-- A transaction of the system, once started, ends as is proved of it. -/
def Tracks (protocol : Protocol σ κ α) (post : α → Locks κ → (σ → σ) → σ → Prop) (index : Nat) (sys : System σ κ ε α) :
    Prop :=
  index < sys.sessions.length ∧ ∀ session, sys.session index = some session →
    protocol.Wp post session.program session.locks session.redo sys.committed

theorem Tracks.step {post : α → Locks κ → (σ → σ) → σ → Prop} {index : Nat} {sys next : System σ κ ε α}
    {answer : Option α} (htracks : Tracks protocol post index sys)
    (hpost : ∀ answer locks redo committed now, protocol.Rely locks committed now → protocol.inv now →
      post answer locks redo committed → post answer locks redo now) (h : Sound protocol sys)
    (hstep : Step starts protocol.permits sys answer next) : Tracks protocol post index next := by
  obtain ⟨hlt, hwp⟩ := htracks
  obtain ⟨program, _, _, rfl⟩ | ⟨other, session, left, hsession, hadvances, _, rfl⟩ |
    ⟨other, session, a, hsession, hprogram, hpermits, _, rfl⟩ := hstep.cases
  · refine ⟨by simp; omega, fun session hsession => ?_⟩
    rw [System.session_start, if_neg (Nat.ne_of_lt hlt)] at hsession
    exact hwp session hsession
  · refine ⟨by simpa [System.put] using hlt, fun session' hsession' => ?_⟩
    rw [System.session_put hsession] at hsession'
    split at hsession'
    next heq =>
      subst heq
      exact wp_of_advances hadvances h.inv (hwp session hsession) session' hsession'
    next => exact hwp session' hsession'
  · obtain ⟨hguar, hsound⟩ := h.commit hsession hprogram hpermits
    refine ⟨by simpa [System.put] using hlt, fun session' hsession' => ?_⟩
    replace hsession' : (sys.put other none).session index = some session' := hsession'
    rw [System.session_put hsession] at hsession'
    split at hsession'
    next => cases hsession'
    next hne =>
      refine (hwp session' hsession').later hpost ?_ hsound.inv
      exact .single ⟨a, session.locks, h.exclusive index other _ _ hne hsession' hsession, hpermits, hguar, hsound.inv⟩

omit [DecidableEq κ] in
theorem Tracks.started {post : α → Locks κ → (σ → σ) → σ → Prop} {sys : System σ κ ε α} {program : Tx σ κ ε α}
    (h : protocol.Wp post program [] id sys.committed) :
    Tracks protocol post sys.sessions.length { sys with sessions := sys.sessions ++ [some ⟨program, id, []⟩] } := by
  refine ⟨by simp, fun session hsession => ?_⟩
  rw [System.session_start, if_pos rfl] at hsession
  cases hsession
  exact h

theorem Tracks.commits {post : α → Locks κ → (σ → σ) → σ → Prop} {index : Nat} {sys next : System σ κ ε α} {answer : α}
    (h : Tracks protocol post index sys) (happly : sys.apply (.step index) = some (next, some answer)) :
    ∃ locks redo, post answer locks redo sys.committed ∧ next.committed = redo sys.committed := by
  obtain ⟨session, hsession, happly⟩ := Option.bind_eq_some_iff.1 happly
  have hwp := h.2 session hsession
  split at happly
  next a hprogram =>
    rw [hprogram] at hwp
    cases happly
    exact ⟨session.locks, session.redo, hwp, rfl⟩
  next => cases happly
  next => cases happly
  next => split at happly <;> cases happly
  next => cases happly

theorem Tracks.steps (hstarts : protocol.Follows starts) {post : α → Locks κ → (σ → σ) → σ → Prop} {index : Nat}
    {sys next : System σ κ ε α} (htracks : Tracks protocol post index sys)
    (hpost : ∀ answer locks redo committed now, protocol.Rely locks committed now → protocol.inv now →
      post answer locks redo committed → post answer locks redo now) (h : Sound protocol sys)
    (hsteps : Steps starts protocol.permits sys next) : Tracks protocol post index next ∧ Sound protocol next := by
  induction hsteps with
  | refl => exact ⟨htracks, h⟩
  | tail _ hlast ih =>
      obtain ⟨answer, hstep⟩ := hlast
      exact ⟨ih.1.step hpost ih.2 hstep, (ih.2.step hstarts hstep).1⟩

/-- Along any run from a sound system, what every commit keeps is kept. -/
theorem Sound.steps (hstarts : protocol.Follows starts) {sys next : System σ κ ε α}
    (h : Sound protocol sys) (hsteps : Steps starts protocol.permits sys next) (fact : σ → Prop)
    (hkeeps : ∀ answer locks s s', protocol.permits answer locks s → protocol.guar answer locks s s' →
      protocol.inv s → protocol.inv s' → fact s → fact s') (hfact : fact sys.committed) :
    Sound protocol next ∧ fact next.committed := by
  induction hsteps with
  | refl => exact ⟨h, hfact⟩
  | @tail before after _ hlast ih =>
      obtain ⟨answer, hstep⟩ := hlast
      obtain ⟨hsound, hcommits⟩ := ih.1.step hstarts hstep
      refine ⟨hsound, ?_⟩
      cases answer with
      | some a =>
          obtain ⟨locks, hpermits, hguar⟩ := hcommits a rfl
          exact hkeeps a locks _ _ hpermits hguar ih.1.inv hsound.inv ih.2
      | none =>
          rw [Step.committed hstep]
          exact ih.2

end Protocol

end Transactions
