import SortView.Lib.Labelled
import Mathlib.Data.List.Basic

/-!
# The questions of a setup run

The setup engine asks the person at the wizard through `PromptBridge`: on the engine's thread it hands the
question to `DispatcherPromptPresenter`, waits for the answer or for the cancellation of the run, and gives the
answer to the engine. The view answers a `PromptRequest` on its own thread, and the run may be cancelled, the
presenter closed and the bridge disposed of on any thread at any time. An enrollment code is a `SecureString`
that someone has to dispose of. The parts of these functions between which other threads run (a lock is held,
a task is completed) are the actions of the session, which `step` takes in any order.
-/

namespace SortView.PromptSession

/-! ### The state -/

/-- An answer. A `SecureString` is known by its number: the view makes a new one for each answer. -/
inductive Answer
  | null
  | text (value : String)
  | code (number : Nat)
  | other
deriving DecidableEq, Repr

/-- `answer as string`. -/
def Answer.asString : Answer → Answer
  | .text value => .text value
  | _ => .null

def Answer.isCode : Answer → Bool
  | .code _ => true
  | _ => false

/-- Where the call of `RequestInput` that asks a question is. -/
inductive Call
  /-- The bridge is open and the run not cancelled; the presenter has not been asked. -/
  | presenting
  /-- In `pending.Wait`. -/
  | waiting
  /-- The wait has returned; `Accept` has not run. -/
  | accepting
  /-- Returned null from the wait; the continuation that disposes of a late code has not run. -/
  | late
  /-- Returned null from the wait, and the continuation has run. -/
  | released
  | returned (answer : Answer)
deriving DecidableEq, Repr

/-- `PromptRequest`: a question, the result of its task, and the call that waits for it. -/
structure PromptRequest where
  promptId : String
  result : Option Answer
  call : Call
deriving DecidableEq, Repr

/-- The bridge, the presenter and the view's calls under way. Questions are known by their number. -/
structure Session where
  questions : List PromptRequest
  /-- `closed` of the bridge. -/
  bridgeClosed : Bool
  issuedSecrets : List Nat
  /-- `closed` of the presenter. -/
  presenterClosed : Bool
  pending : List Nat
  /-- The copy of `pending` that the presenter's `Dispose` abandons. -/
  waiting : List Nat
  codeSubmitted : Bool
  /-- The token of the run is cancelled. -/
  cancelled : Bool
  /-- Questions whose `TrySubmit` has completed the task and not yet called `onAccepted`. -/
  submitting : List Nat
  /-- Codes whose `TrySubmit` was refused and has not yet disposed of them. -/
  refused : List Nat
  /-- The codes disposed of, once for every time. -/
  disposed : List Nat
  /-- How many codes the view has made. -/
  made : Nat
deriving DecidableEq, Repr

def start : Session :=
  ⟨[], false, [], false, [], [], false, false, [], [], [], 0⟩

def Session.put (s : Session) (i : Nat) (q : PromptRequest) : Session :=
  { s with questions := s.questions.set i q }

/-- What is done with question `i` where it is as `p` says. -/
def Session.onQuestion (s : Session) (i : Nat) (p : PromptRequest → Bool) (f : PromptRequest → Session) :
    Option Session :=
  match s.questions[i]? with
  | some q => if p q then some (f q) else none
  | none => none

/-! ### The actions -/

/-- `RequestInput` up to the call of the presenter; a question that it answers at once is not asked. -/
def requestInput (s : Session) (promptId : String) : Option Session :=
  if s.bridgeClosed || s.cancelled then none
  else some { s with questions := s.questions ++ [⟨promptId, none, .presenting⟩] }

/-- `PresentAsync` under its lock. -/
def presentAsync (s : Session) (i : Nat) : Option Session :=
  s.onQuestion i (·.call = .presenting) fun q =>
    if s.presenterClosed then s.put i { q with result := some .null, call := .waiting }
    else { s.put i { q with call := .waiting } with pending := s.pending ++ [i] }

/-- A view has the question: it was handed to the presenter. -/
def PromptRequest.presented (q : PromptRequest) : Bool :=
  q.call ≠ .presenting

def PromptRequest.isCompleted (q : PromptRequest) : Bool :=
  q.result.isSome

/-- `TrySubmit` of a code: `TrySetResult`, which only the first of all takes. -/
def submitCode (s : Session) (i : Nat) : Option Session :=
  s.onQuestion i (·.presented) fun q =>
    if q.isCompleted then { s with refused := s.refused ++ [s.made], made := s.made + 1 }
    else
      { s.put i { q with result := some (.code s.made) } with
        submitting := s.submitting ++ [i], made := s.made + 1 }

/-- `TrySubmit` of anything else. -/
def trySubmit (s : Session) (i : Nat) (answer : Answer) : Option Session :=
  if answer.isCode then none
  else
    s.onQuestion i (·.presented) fun q =>
      if q.isCompleted then s
      else { s.put i { q with result := some answer } with submitting := s.submitting ++ [i] }

/-- `onAccepted`, the second half of a `TrySubmit` that was taken. -/
def onAccepted (s : Session) (i : Nat) : Option Session :=
  s.onQuestion i (fun _ => i ∈ s.submitting) fun q =>
    { s with
      submitting := s.submitting.erase i
      codeSubmitted := s.codeSubmitted || (q.promptId = "enrollment_code" && q.result.any (·.isCode)) }

/-- The second half of a `TrySubmit` that was refused. -/
def disposeRefused (s : Session) (code : Nat) : Option Session :=
  if code ∈ s.refused then some { s with refused := s.refused.erase code, disposed := s.disposed ++ [code] } else none

/-- `TryCancel`, and `Abandon` after a failed post, a shutdown of the dispatcher or an exception of the view. -/
def tryCancel (s : Session) (i : Nat) : Option Session :=
  s.onQuestion i (·.presented) fun q => if q.isCompleted then s else s.put i { q with result := some .null }

/-- `Abandon` as the cancelled token and the presenter's `Dispose` call it. -/
def abandon (s : Session) (i : Nat) : Option Session :=
  s.onQuestion i (fun q => q.presented && !q.isCompleted && (s.cancelled || i ∈ s.waiting)) fun q =>
    s.put i { q with result := some .null }

/-- `OnSettled`. -/
def onSettled (s : Session) (i : Nat) : Option Session :=
  s.onQuestion i (fun q => q.isCompleted && i ∈ s.pending) fun _ => { s with pending := s.pending.erase i }

/-- `pending.Wait` returns: the task is completed. -/
def waitReturned (s : Session) (i : Nat) : Option Session :=
  s.onQuestion i (fun q => q.call = .waiting && q.isCompleted) fun q => s.put i { q with call := .accepting }

/-- `pending.Wait` throws: the run is cancelled. `DisposeLateSecret` is registered and null returned. -/
def waitCancelled (s : Session) (i : Nat) : Option Session :=
  s.onQuestion i (fun q => q.call = .waiting && s.cancelled) fun q => s.put i { q with call := .late }

/-- `Accept`. -/
def accept (s : Session) (i : Nat) : Option Session :=
  s.onQuestion i (fun q => q.call = .accepting && q.isCompleted) fun q =>
    match q.result with
    | some (.code code) =>
      if s.bridgeClosed then
        { s.put i { q with call := .returned .null } with disposed := s.disposed ++ [code] }
      else
        { s.put i { q with call := .returned (.code code) } with issuedSecrets := s.issuedSecrets ++ [code] }
    | some answer => s.put i { q with call := .returned answer.asString }
    | none => s

/-- The continuation of `DisposeLateSecret`, which runs once the task is completed. -/
def disposeLateSecret (s : Session) (i : Nat) : Option Session :=
  s.onQuestion i (fun q => q.call = .late && q.isCompleted) fun q =>
    match q.result with
    | some (.code code) => { s.put i { q with call := .released } with disposed := s.disposed ++ [code] }
    | _ => s.put i { q with call := .released }

/-- The bridge's `Dispose`. -/
def disposeBridge (s : Session) : Session :=
  { s with bridgeClosed := true, disposed := s.disposed ++ s.issuedSecrets, issuedSecrets := [] }

/-- The presenter's `Dispose` up to the questions that it abandons. -/
def disposePresenter (s : Session) : Session :=
  if s.presenterClosed then s else { s with presenterClosed := true, waiting := s.pending }

inductive Action
  | requestInput (promptId : String)
  | presentAsync (i : Nat)
  | submitCode (i : Nat)
  | trySubmit (i : Nat) (answer : Answer)
  | onAccepted (i : Nat)
  | disposeRefused (code : Nat)
  | tryCancel (i : Nat)
  | abandon (i : Nat)
  | onSettled (i : Nat)
  | waitReturned (i : Nat)
  | waitCancelled (i : Nat)
  | accept (i : Nat)
  | disposeLateSecret (i : Nat)
  | cancel
  | disposeBridge
  | disposePresenter
deriving DecidableEq, Repr

def step (s : Session) : Action → Option Session
  | .requestInput promptId => requestInput s promptId
  | .presentAsync i => presentAsync s i
  | .submitCode i => submitCode s i
  | .trySubmit i answer => trySubmit s i answer
  | .onAccepted i => onAccepted s i
  | .disposeRefused code => disposeRefused s code
  | .tryCancel i => tryCancel s i
  | .abandon i => abandon s i
  | .onSettled i => onSettled s i
  | .waitReturned i => waitReturned s i
  | .waitCancelled i => waitCancelled s i
  | .accept i => accept s i
  | .disposeLateSecret i => disposeLateSecret s i
  | .cancel => some { s with cancelled := true }
  | .disposeBridge => some (disposeBridge s)
  | .disposePresenter => some (disposePresenter s)

/-- The actions that a thread under way takes without the engine, the person or the window doing anything. -/
def Action.own : Action → Bool
  | .presentAsync _ | .onAccepted _ | .disposeRefused _ | .abandon _ | .onSettled _ | .waitReturned _
  | .waitCancelled _ | .accept _ | .disposeLateSecret _ => true
  | _ => false

/-! ### Codes -/

/-- The call has not yet decided what becomes of the code. -/
def PromptRequest.holds (q : PromptRequest) (code : Nat) : Bool :=
  (q.call = .waiting || q.call = .accepting || q.call = .late) && q.result = some (.code code)

/-- In how many places a code is: refused and on its way to be disposed of, the answer of a question whose call
is under way, with the engine, or disposed of. -/
def Session.places (s : Session) (code : Nat) : Nat :=
  s.refused.count code + s.questions.countP (·.holds code) + s.issuedSecrets.count code + s.disposed.count code

/-- A question is answered with an enrollment code. -/
def PromptRequest.hasCode (q : PromptRequest) : Prop :=
  q.promptId = "enrollment_code" ∧ ∃ code, q.result = some (.code code)

end SortView.PromptSession
