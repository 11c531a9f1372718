import SortView.Installer.PromptSession
import Mathlib.Algebra.Ring.Nat

/-!
# What the actions of a session keep

`Moved` says what an action changes, with what it has checked. Every question keeps to the protocol of the bridge,
the presenter and the request, settled results and returned answers stay, and an action moves a code from one place
to another.
-/

namespace SortView.PromptSession

variable {s t : Session} {a : Action} {i : Nat} {q : PromptRequest}

/-! ### What an action changes -/

theorem onQuestion_eq_some {p : PromptRequest → Bool} {f : PromptRequest → Session} :
    s.onQuestion i p f = some t ↔ ∃ q, s.questions[i]? = some q ∧ p q = true ∧ f q = t := by
  unfold Session.onQuestion
  cases s.questions[i]? with
  | none => simp
  | some q => by_cases hp : p q = true <;> simp [hp]

theorem onQuestion_ne_none {p : PromptRequest → Bool} {f : PromptRequest → Session}
    (hq : s.questions[i]? = some q) (hp : p q = true) : s.onQuestion i p f ≠ none := by
  simp [Session.onQuestion, hq, hp]

/-- The changes that an action makes, with what it has checked. -/
inductive Moved (s : Session) : Action → Session → Prop
  | same {a : Action} (hown : a.own = false) : Moved s a s
  | asked (promptId : String) (hopen : s.bridgeClosed = false) (hrunning : s.cancelled = false) :
      Moved s (.requestInput promptId) { s with questions := s.questions ++ [⟨promptId, none, .presenting⟩] }
  | turnedAway {i : Nat} {q : PromptRequest} (hq : s.questions[i]? = some q) (hcall : q.call = .presenting)
      (hclosed : s.presenterClosed = true) :
      Moved s (.presentAsync i) (s.put i { q with result := some .null, call := .waiting })
  | presented {i : Nat} {q : PromptRequest} (hq : s.questions[i]? = some q) (hcall : q.call = .presenting)
      (hopen : s.presenterClosed = false) :
      Moved s (.presentAsync i) { s.put i { q with call := .waiting } with pending := s.pending ++ [i] }
  | refused {i : Nat} :
      Moved s (.submitCode i) { s with refused := s.refused ++ [s.made], made := s.made + 1 }
  | submitted {i : Nat} {q : PromptRequest} (hq : s.questions[i]? = some q) (hcall : q.call ≠ .presenting)
      (hresult : q.result = none) :
      Moved s (.submitCode i)
        { s.put i { q with result := some (.code s.made) } with
          submitting := s.submitting ++ [i], made := s.made + 1 }
  | answered {i : Nat} {q : PromptRequest} {answer : Answer} (hq : s.questions[i]? = some q)
      (hcall : q.call ≠ .presenting) (hresult : q.result = none) (hanswer : answer.isCode = false) :
      Moved s (.trySubmit i answer)
        { s.put i { q with result := some answer } with submitting := s.submitting ++ [i] }
  | abandoned {a : Action} {i : Nat} {q : PromptRequest} (hq : s.questions[i]? = some q)
      (hcall : q.call ≠ .presenting) (hresult : q.result = none) :
      Moved s a (s.put i { q with result := some .null })
  | accepted {i : Nat} {q : PromptRequest} (hq : s.questions[i]? = some q) (hi : i ∈ s.submitting) :
      Moved s (.onAccepted i)
        { s with
          submitting := s.submitting.erase i
          codeSubmitted := s.codeSubmitted || (q.promptId = "enrollment_code" && q.result.any (·.isCode)) }
  | disposedRefused {code : Nat} (hcode : code ∈ s.refused) :
      Moved s (.disposeRefused code)
        { s with refused := s.refused.erase code, disposed := s.disposed ++ [code] }
  | forgot {i : Nat} {q : PromptRequest} (hq : s.questions[i]? = some q) (hresult : q.result ≠ none)
      (hi : i ∈ s.pending) : Moved s (.onSettled i) { s with pending := s.pending.erase i }
  | waited {a : Action} {i : Nat} {q : PromptRequest} {call : Call} (hq : s.questions[i]? = some q)
      (hcall : q.call = .waiting) (hnext : call = .late ∨ call = .accepting ∧ q.result ≠ none) :
      Moved s a (s.put i { q with call := call })
  | issued {i : Nat} {q : PromptRequest} {code : Nat} (hq : s.questions[i]? = some q) (hcall : q.call = .accepting)
      (hresult : q.result = some (.code code)) (hopen : s.bridgeClosed = false) :
      Moved s (.accept i)
        { s.put i { q with call := .returned (.code code) } with issuedSecrets := s.issuedSecrets ++ [code] }
  | dropped {a : Action} {i : Nat} {q : PromptRequest} {code : Nat} {call : Call} (hq : s.questions[i]? = some q)
      (hcall : q.call = .accepting ∧ call = .returned .null ∨ q.call = .late ∧ call = .released)
      (hresult : q.result = some (.code code)) :
      Moved s a { s.put i { q with call := call } with disposed := s.disposed ++ [code] }
  | ended {a : Action} {i : Nat} {q : PromptRequest} {answer : Answer} {call : Call} (hq : s.questions[i]? = some q)
      (hcall : q.call = .accepting ∧ call = .returned answer.asString ∨ q.call = .late ∧ call = .released)
      (hresult : q.result = some answer) (hanswer : answer.isCode = false) :
      Moved s a (s.put i { q with call := call })
  | cancelled : Moved s .cancel { s with cancelled := true }
  | bridgeDisposed : Moved s .disposeBridge (disposeBridge s)
  | presenterDisposed (hopen : s.presenterClosed = false) :
      Moved s .disposePresenter { s with presenterClosed := true, waiting := s.pending }

theorem moved_step (h : step s a = some t) : Moved s a t := by
  cases a with
  | requestInput promptId =>
    simp only [step, requestInput, Option.ite_none_left_eq_some, Bool.or_eq_true, not_or, Bool.not_eq_true,
      Option.some.injEq] at h
    obtain ⟨⟨hopen, hrunning⟩, rfl⟩ := h
    exact .asked promptId hopen hrunning
  | presentAsync i =>
    obtain ⟨q, hq, hcall, rfl⟩ := onQuestion_eq_some.mp h
    split
    next hclosed => exact .turnedAway hq (by simpa using hcall) hclosed
    next hopen => exact .presented hq (by simpa using hcall) (by simpa using hopen)
  | submitCode i =>
    obtain ⟨q, hq, hcall, rfl⟩ := onQuestion_eq_some.mp h
    split
    next => exact .refused
    next hresult =>
      exact .submitted hq (by simpa [PromptRequest.presented] using hcall)
        (by simpa [PromptRequest.isCompleted] using hresult)
  | trySubmit i answer =>
    simp only [step, trySubmit, Option.ite_none_left_eq_some, Bool.not_eq_true] at h
    obtain ⟨hanswer, h⟩ := h
    obtain ⟨q, hq, hcall, rfl⟩ := onQuestion_eq_some.mp h
    split
    next => exact .same rfl
    next hresult =>
      exact .answered hq (by simpa [PromptRequest.presented] using hcall)
        (by simpa [PromptRequest.isCompleted] using hresult) hanswer
  | onAccepted i =>
    obtain ⟨q, hq, hi, rfl⟩ := onQuestion_eq_some.mp h
    exact .accepted hq (by simpa using hi)
  | disposeRefused code =>
    simp only [step, disposeRefused, Option.ite_none_right_eq_some, Option.some.injEq] at h
    obtain ⟨hcode, rfl⟩ := h
    exact .disposedRefused hcode
  | tryCancel i =>
    obtain ⟨q, hq, hcall, rfl⟩ := onQuestion_eq_some.mp h
    split
    next => exact .same rfl
    next hresult =>
      exact .abandoned hq (by simpa [PromptRequest.presented] using hcall)
        (by simpa [PromptRequest.isCompleted] using hresult)
  | abandon i =>
    obtain ⟨q, hq, hcall, rfl⟩ := onQuestion_eq_some.mp h
    simp only [PromptRequest.presented, PromptRequest.isCompleted, Bool.and_eq_true, decide_eq_true_eq,
      Bool.not_eq_true', Option.isSome_eq_false_iff, Option.isNone_iff_eq_none] at hcall
    exact .abandoned hq hcall.1.1 hcall.1.2
  | onSettled i =>
    obtain ⟨q, hq, hi, rfl⟩ := onQuestion_eq_some.mp h
    simp only [PromptRequest.isCompleted, Bool.and_eq_true, decide_eq_true_eq, Option.isSome_iff_ne_none] at hi
    exact .forgot hq hi.1 hi.2
  | waitReturned i =>
    obtain ⟨q, hq, hcall, rfl⟩ := onQuestion_eq_some.mp h
    simp only [PromptRequest.isCompleted, Bool.and_eq_true, decide_eq_true_eq, Option.isSome_iff_ne_none] at hcall
    exact .waited hq hcall.1 (.inr ⟨rfl, hcall.2⟩)
  | waitCancelled i =>
    obtain ⟨q, hq, hcall, rfl⟩ := onQuestion_eq_some.mp h
    simp only [Bool.and_eq_true, decide_eq_true_eq] at hcall
    exact .waited hq hcall.1 (.inl rfl)
  | accept i =>
    obtain ⟨q, hq, hcall, rfl⟩ := onQuestion_eq_some.mp h
    simp only [PromptRequest.isCompleted, Bool.and_eq_true, decide_eq_true_eq, Option.isSome_iff_exists] at hcall
    obtain ⟨hcall, answer, hresult⟩ := hcall
    obtain ⟨promptId, result, call⟩ := q
    subst hresult
    cases answer with
    | code code =>
      dsimp only
      split
      next => exact .dropped hq (.inl ⟨hcall, rfl⟩) rfl
      next hopen => exact .issued hq hcall rfl (by simpa using hopen)
    | null | text _ | other => exact .ended hq (.inl ⟨hcall, rfl⟩) rfl rfl
  | disposeLateSecret i =>
    obtain ⟨q, hq, hcall, rfl⟩ := onQuestion_eq_some.mp h
    simp only [PromptRequest.isCompleted, Bool.and_eq_true, decide_eq_true_eq, Option.isSome_iff_exists] at hcall
    obtain ⟨hcall, answer, hresult⟩ := hcall
    obtain ⟨promptId, result, call⟩ := q
    subst hresult
    cases answer with
    | code code => exact .dropped hq (.inr ⟨hcall, rfl⟩) rfl
    | null | text _ | other => exact .ended hq (.inr ⟨hcall, rfl⟩) rfl rfl
  | cancel =>
    obtain rfl := Option.some.inj h
    exact .cancelled
  | disposeBridge =>
    obtain rfl := Option.some.inj h
    exact .bridgeDisposed
  | disposePresenter =>
    obtain rfl := Option.some.inj h
    unfold disposePresenter
    split
    next => exact .same rfl
    next hopen => exact .presenterDisposed (by simpa using hopen)

/-! ### What holds of each question -/

/-- A question keeps to the protocol: it is settled where its call says so, the engine got its own answer or null,
a code that the engine got is the bridge's to dispose of until the bridge has, an open question is one that the
presenter will abandon, and an enrollment code that was taken is noted or about to be. -/
structure Kept (s : Session) (i : Nat) (q : PromptRequest) : Prop where
  presenting : q.call = .presenting → q.result = none
  settled : q.result = none → q.call = .presenting ∨ q.call = .waiting ∨ q.call = .late
  returned : ∀ answer, q.call = .returned answer → answer = .null ∨ q.result = some answer
  issued : ∀ code, q.call = .returned (.code code) → s.bridgeClosed = false → code ∈ s.issuedSecrets
  watched : q.call ≠ .presenting → q.result = none → i ∈ s.pending ∧ (s.presenterClosed = true → i ∈ s.waiting)
  submitted : q.hasCode → s.codeSubmitted = true ∨ i ∈ s.submitting

def AllKept (s : Session) : Prop :=
  ∀ (i : Nat) (q : PromptRequest), s.questions[i]? = some q → Kept s i q

/-- The protocol only reads these parts of the session. -/
theorem Kept.frame (h : Kept s i q)
    (hissued : t.bridgeClosed = false → s.bridgeClosed = false ∧ s.issuedSecrets ⊆ t.issuedSecrets)
    (hwatched : q.result = none → i ∈ s.pending ∧ (s.presenterClosed = true → i ∈ s.waiting) →
      i ∈ t.pending ∧ (t.presenterClosed = true → i ∈ t.waiting))
    (hsubmitted : q.hasCode → s.codeSubmitted = true ∨ i ∈ s.submitting → t.codeSubmitted = true ∨ i ∈ t.submitting) :
    Kept t i q where
  presenting := h.presenting
  settled := h.settled
  returned := h.returned
  issued code hcall hopen := (hissued hopen).2 (h.issued code hcall (hissued hopen).1)
  watched hcall hresult := hwatched hresult (h.watched hcall hresult)
  submitted hcode := hsubmitted hcode (h.submitted hcode)

/-- The session differs in nothing that the protocol reads. -/
structure Alike (s t : Session) : Prop where
  bridgeClosed : t.bridgeClosed = s.bridgeClosed
  issuedSecrets : t.issuedSecrets = s.issuedSecrets
  presenterClosed : t.presenterClosed = s.presenterClosed
  pending : t.pending = s.pending
  waiting : t.waiting = s.waiting
  codeSubmitted : t.codeSubmitted = s.codeSubmitted
  submitting : t.submitting = s.submitting

theorem alike_put (s : Session) (i : Nat) (q : PromptRequest) : Alike s (s.put i q) :=
  ⟨rfl, rfl, rfl, rfl, rfl, rfl, rfl⟩

theorem Kept.alike (h : Kept s i q) (hst : Alike s t) : Kept t i q := by
  obtain ⟨h1, h2, h3, h4, h5, h6, h7⟩ := hst
  refine h.frame ?_ ?_ ?_ <;> simp_all

/-- A call moves on, and the result of its question stays. -/
theorem Kept.recall {call : Call} (h : Kept s i q) (hwas : q.call ≠ .presenting) (hnow : call ≠ .presenting)
    (hsettled : q.result = none → call = .waiting ∨ call = .late)
    (hreturned : ∀ answer, call = .returned answer → answer = .null ∨ q.result = some answer)
    (hissued : ∀ code, call = .returned (.code code) → t.bridgeClosed = false → code ∈ t.issuedSecrets)
    (hpending : t.pending = s.pending) (hpresenter : t.presenterClosed = s.presenterClosed) (hwaiting : t.waiting = s.waiting)
    (hnoted : t.codeSubmitted = s.codeSubmitted) (hsubmitting : t.submitting = s.submitting) :
    Kept t i { q with call := call } where
  presenting hcall := absurd hcall hnow
  settled hresult := Or.inr (hsettled hresult)
  returned := hreturned
  issued := hissued
  watched _ hresult := by
    rw [hpending, hpresenter, hwaiting]
    exact h.watched hwas hresult
  submitted hcode := by
    rw [hnoted, hsubmitting]
    exact h.submitted hcode

theorem Answer.asString_eq (answer : Answer) :
    answer.asString = .null ∨ ∃ value, answer = .text value ∧ answer.asString = .text value := by
  cases answer <;> simp [Answer.asString]

/-- One question has changed: it keeps to the protocol, and what else changed keeps the others to it. -/
theorem AllKept.put {q' : PromptRequest} (hs : AllKept s) (hq : s.questions[i]? = some q)
    (ht : t.questions = s.questions.set i q') (hnew : Kept t i q')
    (hother : ∀ j p, j ≠ i → Kept s j p → Kept t j p) : AllKept t := by
  intro j p hp
  rw [ht, List.getElem?_set] at hp
  by_cases hji : i = j
  · subst hji
    obtain ⟨hi, -⟩ := List.getElem?_eq_some_iff.mp hq
    obtain rfl : q' = p := by simpa [hi] using hp
    exact hnew
  · rw [if_neg hji] at hp
    exact hother j p (Ne.symm hji) (hs j p hp)

theorem kept_moved (hs : AllKept s) (h : Moved s a t) : AllKept t := by
  cases h with
  | same => exact hs
  | asked promptId =>
    intro j p hp
    rw [List.getElem?_append] at hp
    split at hp
    · exact (hs j p hp).alike ⟨rfl, rfl, rfl, rfl, rfl, rfl, rfl⟩
    · obtain ⟨-, rfl⟩ := by simpa [List.getElem?_singleton] using hp
      constructor <;> simp [PromptRequest.hasCode]
  | @turnedAway i q hq hcall hclosed =>
    refine hs.put hq rfl ?_ fun j p _ hp => hp.alike (alike_put ..)
    constructor <;> simp [PromptRequest.hasCode]
  | @presented i q hq hcall hopen =>
    have hresult := (hs i q hq).presenting hcall
    refine hs.put hq rfl ?_ fun j p _ hp => hp.frame ?_ ?_ ?_
    · constructor <;> simp [PromptRequest.hasCode, Session.put, hresult, hopen]
    all_goals simp +contextual [hopen, Session.put]
  | refused => exact fun j p hp => (hs j p hp).alike ⟨rfl, rfl, rfl, rfl, rfl, rfl, rfl⟩
  | @submitted i q hq hcall hresult =>
    obtain ⟨-, hsettled, hreturned, -, -, -⟩ := hs i q hq
    refine hs.put hq rfl ?_ fun j p _ hp => hp.frame ?_ ?_ ?_
    · constructor <;> grind
    all_goals grind [Session.put]
  | @answered i q answer hq hcall hresult hanswer =>
    obtain ⟨-, hsettled, hreturned, -, -, -⟩ := hs i q hq
    refine hs.put hq rfl ?_ fun j p _ hp => hp.frame ?_ ?_ ?_
    · constructor <;> grind
    all_goals grind [Session.put]
  | @abandoned _ i q hq hcall hresult =>
    obtain ⟨-, hsettled, hreturned, -, -, -⟩ := hs i q hq
    refine hs.put hq rfl ?_ fun j p _ hp => hp.alike (alike_put ..)
    constructor <;> grind [PromptRequest.hasCode]
  | @accepted i q hq hi =>
    intro j p hp
    refine (hs j p hp).frame (fun h => ⟨h, fun _ => id⟩) (fun _ => id) fun hcode hnoted => ?_
    by_cases hji : j = i
    · subst hji
      obtain rfl : q = p := Option.some.inj (hq.symm.trans hp)
      obtain ⟨hid, number, hresult⟩ := hcode
      simp [hid, hresult, Answer.isCode]
    · exact hnoted.imp (by simp +contextual) (List.mem_erase_of_ne hji).mpr
  | disposedRefused hcode => exact fun j p hp => (hs j p hp).alike ⟨rfl, rfl, rfl, rfl, rfl, rfl, rfl⟩
  | @forgot i q hq hresult hi =>
    intro j p hp
    refine (hs j p hp).frame ?_ ?_ ?_
    all_goals grind
  | @waited _ i q call hq hcall hnext =>
    refine hs.put hq rfl ((hs i q hq).recall ?_ ?_ ?_ ?_ ?_ rfl rfl rfl rfl rfl) fun j p _ hp => hp.alike (alike_put ..)
    · simp [hcall]
    all_goals rcases hnext with rfl | ⟨rfl, hresult⟩ <;> simp_all
  | @issued i q number hq hcall hresult hopen =>
    refine hs.put hq rfl ((hs i q hq).recall ?_ ?_ ?_ ?_ ?_ rfl rfl rfl rfl rfl) fun j p _ hp => hp.frame ?_ ?_ ?_
    · simp [hcall]
    · simp
    · simp [hresult]
    · simp [hresult]
    · simp
    all_goals simp +contextual [Session.put]
  | @dropped _ i q number call hq hcall hresult =>
    refine hs.put hq rfl ((hs i q hq).recall ?_ ?_ ?_ ?_ ?_ rfl rfl rfl rfl rfl) fun j p _ hp =>
      hp.alike ⟨rfl, rfl, rfl, rfl, rfl, rfl, rfl⟩
    all_goals rcases hcall with ⟨hcall, rfl⟩ | ⟨hcall, rfl⟩ <;> simp_all
  | @ended _ i q answer call hq hcall hresult hanswer =>
    refine hs.put hq rfl ((hs i q hq).recall ?_ ?_ ?_ ?_ ?_ rfl rfl rfl rfl rfl) fun j p _ hp => hp.alike (alike_put ..)
    all_goals
      obtain hnull | ⟨value, rfl, htext⟩ := answer.asString_eq <;>
        rcases hcall with ⟨hcall, rfl⟩ | ⟨hcall, rfl⟩ <;> simp_all
  | cancelled => exact fun j p hp => (hs j p hp).alike ⟨rfl, rfl, rfl, rfl, rfl, rfl, rfl⟩
  | bridgeDisposed =>
    refine fun j p hp => (hs j p hp).frame ?_ ?_ ?_
    all_goals grind [disposeBridge]
  | presenterDisposed hopen =>
    refine fun j p hp => (hs j p hp).frame ?_ ?_ ?_
    all_goals grind

/-! ### One place for each code -/

/-- Whether the code is in the call's hands, as a number. -/
def PromptRequest.held (q : PromptRequest) (code : Nat) : Nat :=
  if q.holds code then 1 else 0

theorem places_put (hq : s.questions[i]? = some q) (q' : PromptRequest) (code : Nat) :
    (s.put i q').places code + q.held code = s.places code + q'.held code := by
  obtain ⟨hi, rfl⟩ := List.getElem?_eq_some_iff.mp hq
  have hpos (hp : s.questions[i].holds code = true) : 0 < s.questions.countP (·.holds code) :=
    List.countP_pos_iff.mpr ⟨_, List.getElem_mem hi, hp⟩
  simp only [Session.places, Session.put, PromptRequest.held, List.countP_set hi]
  split_ifs at * <;> grind

theorem count_append_one (codes : List Nat) (code number : Nat) :
    (codes ++ [number]).count code = codes.count code + if code = number then 1 else 0 := by
  rw [List.count_append, List.count_singleton]
  grind

theorem count_erase_add {codes : List Nat} {number : Nat} (h : number ∈ codes) (code : Nat) :
    (codes.erase number).count code + (if code = number then 1 else 0) = codes.count code := by
  have hpos := List.count_pos_iff.mpr h
  rw [List.count_erase]
  split_ifs <;> grind

theorem held_of_call {code : Nat} (hcall : q.call = .waiting ∨ q.call = .accepting ∨ q.call = .late) :
    q.held code = if q.result = some (.code code) then 1 else 0 := by
  simp only [PromptRequest.held, PromptRequest.holds]
  grind

theorem held_of_no_code {code : Nat} (hresult : ∀ number, q.result ≠ some (.code number)) : q.held code = 0 := by
  simp [PromptRequest.held, PromptRequest.holds, hresult]

theorem held_of_over {code : Nat} (hcall : (∃ answer, q.call = .returned answer) ∨ q.call = .released) :
    q.held code = 0 := by
  rcases hcall with ⟨answer, hcall⟩ | hcall <;> simp [PromptRequest.held, PromptRequest.holds, hcall]

/-- An action moves codes from one place to another; only the view makes one, and puts it in one place. -/
theorem places_moved (hs : AllKept s) (h : Moved s a t) (code : Nat) :
    t.places code = s.places code ∧ t.made = s.made
      ∨ t.places code = s.places code + (if code = s.made then 1 else 0) ∧ t.made = s.made + 1 := by
  cases h with
  | same | cancelled | presenterDisposed | accepted | forgot => exact .inl ⟨rfl, rfl⟩
  | asked promptId => exact .inl ⟨by simp [Session.places, PromptRequest.holds], rfl⟩
  | @turnedAway i q hq hcall hclosed =>
    have hput := places_put hq { q with result := some .null, call := .waiting } code
    rw [held_of_no_code (by simp [(hs i q hq).presenting hcall]), held_of_no_code (by simp)] at hput
    exact .inl ⟨hput, rfl⟩
  | @presented i q hq hcall hopen =>
    have hput := places_put hq { q with call := .waiting } code
    rw [held_of_no_code (by simp [(hs i q hq).presenting hcall]), held_of_no_code (by simp [(hs i q hq).presenting hcall])] at hput
    exact .inl ⟨hput, rfl⟩
  | refused =>
    refine .inr ⟨?_, rfl⟩
    simp only [Session.places, count_append_one]
    omega
  | @submitted i q hq hcall hresult =>
    have hput := places_put hq { q with result := some (.code s.made) } code
    have hopen := ((hs i q hq).settled hresult).resolve_left hcall
    rw [held_of_no_code (by simp [hresult]), held_of_call (by tauto)] at hput
    refine .inr ⟨?_, rfl⟩
    simp only [Option.some.injEq, Answer.code.injEq, Nat.add_zero, eq_comm (a := s.made)] at hput
    exact hput
  | @answered i q answer hq hcall hresult hanswer =>
    have hput := places_put hq { q with result := some answer } code
    rw [held_of_no_code (by simp [hresult]), held_of_no_code (by rintro number ⟨⟩; simp [Answer.isCode] at hanswer)] at hput
    exact .inl ⟨hput, rfl⟩
  | @abandoned _ i q hq hcall hresult =>
    have hput := places_put hq { q with result := some .null } code
    rw [held_of_no_code (by simp [hresult]), held_of_no_code (by simp)] at hput
    exact .inl ⟨hput, rfl⟩
  | disposedRefused hcode =>
    have herase := count_erase_add hcode code
    refine .inl ⟨?_, rfl⟩
    simp only [Session.places, count_append_one]
    omega
  | @waited _ i q call hq hcall hnext =>
    have hput := places_put hq { q with call := call } code
    rw [held_of_call (.inl hcall), held_of_call (by rcases hnext with h | h <;> simp [h])] at hput
    exact .inl ⟨by simpa using hput, rfl⟩
  | @issued i q number hq hcall hresult hopen =>
    have hput := places_put hq { q with call := .returned (.code number) } code
    rw [held_of_call (.inr (.inl hcall)), held_of_over (.inl ⟨_, rfl⟩), hresult] at hput
    refine .inl ⟨?_, rfl⟩
    simp only [Session.places, Session.put, count_append_one] at hput ⊢
    grind
  | @dropped _ i q number call hq hcall hresult =>
    have hput := places_put hq { q with call := call } code
    rw [held_of_call (by grind), held_of_over (by grind), hresult] at hput
    refine .inl ⟨?_, rfl⟩
    simp only [Session.places, Session.put, count_append_one] at hput ⊢
    grind
  | @ended _ i q answer call hq hcall hresult hanswer =>
    have hput := places_put hq { q with call := call } code
    have hno (number : Nat) : q.result ≠ some (.code number) := by
      rw [hresult]
      rintro ⟨⟩
      simp [Answer.isCode] at hanswer
    rw [held_of_no_code hno, held_of_over (by grind)] at hput
    exact .inl ⟨hput, rfl⟩
  | bridgeDisposed =>
    refine .inl ⟨?_, rfl⟩
    simp only [Session.places, disposeBridge, List.count_append, List.count_nil]
    omega

/-! ### What stays -/

/-- What a session is later: a settled question keeps its result, a call that returned has returned, what is closed
stays closed, and a closed bridge gives the engine no code. -/
structure Later (s t : Session) : Prop where
  question : ∀ (i : Nat) (q : PromptRequest), s.questions[i]? = some q → ∃ q', t.questions[i]? = some q' ∧
    q'.promptId = q.promptId ∧ (q.result ≠ none → q'.result = q.result) ∧
    ∀ answer, q.call = .returned answer → q'.call = .returned answer
  bridgeClosed : s.bridgeClosed = true → t.bridgeClosed = true
  presenterClosed : s.presenterClosed = true → t.presenterClosed = true
  noneIssued : s.bridgeClosed = true → ∀ (i : Nat) (q' : PromptRequest) (code : Nat), t.questions[i]? = some q' →
    q'.call = .returned (.code code) → ∃ q, s.questions[i]? = some q ∧ q.call = .returned (.code code)

theorem Later.refl (s : Session) : Later s s where
  question _ q hq := ⟨q, hq, rfl, fun _ => rfl, fun _ => id⟩
  bridgeClosed := id
  presenterClosed := id
  noneIssued _ _ q _ hq hcall := ⟨q, hq, hcall⟩

theorem Later.trans {s m t : Session} (hfirst : Later s m) (hsecond : Later m t) : Later s t where
  question i q hq := by
    obtain ⟨p, hp, hid, hresult, hcall⟩ := hfirst.question i q hq
    obtain ⟨r, hr, hid', hresult', hcall'⟩ := hsecond.question i p hp
    refine ⟨r, hr, hid'.trans hid, fun h => ?_, fun answer h => hcall' answer (hcall answer h)⟩
    have heq := hresult h
    exact (hresult' (heq ▸ h)).trans heq
  bridgeClosed := hsecond.bridgeClosed ∘ hfirst.bridgeClosed
  presenterClosed := hsecond.presenterClosed ∘ hfirst.presenterClosed
  noneIssued hclosed i r code hr hcall := by
    obtain ⟨p, hp, hcall⟩ := hsecond.noneIssued (hfirst.bridgeClosed hclosed) i r code hr hcall
    exact hfirst.noneIssued hclosed i p code hp hcall

theorem Later.of_questions (ht : t.questions = s.questions) (hbridge : s.bridgeClosed = true → t.bridgeClosed = true)
    (hpresenter : s.presenterClosed = true → t.presenterClosed = true) : Later s t where
  question _ q hq := ⟨q, ht ▸ hq, rfl, fun _ => rfl, fun _ => id⟩
  bridgeClosed := hbridge
  presenterClosed := hpresenter
  noneIssued _ _ q _ hq hcall := ⟨q, ht ▸ hq, hcall⟩

theorem Later.of_put {q' : PromptRequest} (hq : s.questions[i]? = some q) (ht : t.questions = s.questions.set i q')
    (hid : q'.promptId = q.promptId) (hresult : q.result ≠ none → q'.result = q.result)
    (hcall : ∀ answer, q.call ≠ .returned answer) (hbridge : t.bridgeClosed = s.bridgeClosed)
    (hpresenter : t.presenterClosed = s.presenterClosed)
    (hissued : s.bridgeClosed = true → ∀ code, q'.call ≠ .returned (.code code)) : Later s t where
  question j p hp := by
    by_cases hji : i = j
    · subst hji
      obtain rfl : q = p := Option.some.inj (hq.symm.trans hp)
      obtain ⟨hi, -⟩ := List.getElem?_eq_some_iff.mp hq
      exact ⟨q', by simp [ht, hi], hid, hresult, fun answer h => absurd h (hcall answer)⟩
    · exact ⟨p, by rw [ht, List.getElem?_set_ne hji, hp], rfl, fun _ => rfl, fun _ => id⟩
  bridgeClosed h := hbridge.trans h
  presenterClosed h := hpresenter.trans h
  noneIssued hclosed j p code hp h := by
    by_cases hji : i = j
    · subst hji
      obtain ⟨hi, -⟩ := List.getElem?_eq_some_iff.mp hq
      obtain rfl : q' = p := by simpa [ht, hi] using hp
      exact absurd h (hissued hclosed code)
    · exact ⟨p, by rwa [ht, List.getElem?_set_ne hji] at hp, h⟩

theorem later_moved (hs : AllKept s) (h : Moved s a t) : Later s t := by
  cases h with
  | same => exact .refl s
  | @asked promptId hopen =>
    refine ⟨fun j p hp => ⟨p, ?_, rfl, fun _ => rfl, fun _ => id⟩, id, id, by simp [hopen]⟩
    rw [List.getElem?_append_left (List.getElem?_eq_some_iff.mp hp).1, hp]
  | refused | accepted | disposedRefused | forgot | cancelled => exact .of_questions rfl id id
  | bridgeDisposed => exact .of_questions rfl (fun _ => rfl) id
  | presenterDisposed => exact .of_questions rfl id fun _ => rfl
  | @turnedAway i q hq hcall =>
    exact .of_put hq rfl rfl (absurd ((hs i q hq).presenting hcall)) (by simp [hcall]) rfl rfl (by simp)
  | presented hq hcall => exact .of_put hq rfl rfl (fun _ => rfl) (by simp [hcall]) rfl rfl (by simp)
  | @submitted i q hq hcall hresult | @answered i q _ hq hcall hresult | @abandoned _ i q hq hcall hresult =>
    have hopen := ((hs i q hq).settled hresult).resolve_left hcall
    exact .of_put hq rfl rfl (absurd hresult) (by grind) rfl rfl (by grind)
  | waited hq hcall hnext => exact .of_put hq rfl rfl (fun _ => rfl) (by simp [hcall]) rfl rfl (by grind)
  | issued hq hcall hresult hopen =>
    exact .of_put hq rfl rfl (fun _ => rfl) (by simp [hcall]) rfl rfl (by simp [hopen])
  | dropped hq hcall hresult => exact .of_put hq rfl rfl (fun _ => rfl) (by grind) rfl rfl (by grind)
  | @ended _ i q answer call hq hcall hresult =>
    have hstring := answer.asString_eq
    exact .of_put hq rfl rfl (fun _ => rfl) (by grind) rfl rfl (by grind)

/-! ### What the own actions use up -/

/-- The own actions that a call still needs. -/
def Call.work : Call → Nat
  | .presenting => 5
  | .waiting => 3
  | .accepting | .late => 1
  | .released | .returned _ => 0

/-- With those that settle the question. -/
def PromptRequest.work (q : PromptRequest) : Nat :=
  q.call.work + if q.result = none then 1 else 0

def Session.work (s : Session) : Nat :=
  (s.questions.map (·.work)).sum + s.submitting.length + s.refused.length + s.pending.length

theorem sum_work_set {questions : List PromptRequest} (hq : questions[i]? = some q) (q' : PromptRequest) :
    ((questions.set i q').map (·.work)).sum + q.work = (questions.map (·.work)).sum + q'.work := by
  induction questions generalizing i with
  | nil => simp at hq
  | cons head rest ih =>
    cases i with
    | zero =>
      obtain rfl : head = q := by simpa using hq
      simp only [List.set_cons_zero, List.map_cons, List.sum_cons]
      omega
    | succ i =>
      have hrest := ih (by simpa using hq)
      simp only [List.set_cons_succ, List.map_cons, List.sum_cons]
      omega

theorem sum_work_less {questions : List PromptRequest} (hq : questions[i]? = some q) (q' : PromptRequest) (rest : Nat)
    (hless : q'.work + rest < q.work) :
    ((questions.set i q').map (·.work)).sum + rest < (questions.map (·.work)).sum := by
  have hsum := sum_work_set hq q'
  omega

theorem length_erase_less {numbers : List Nat} {n : Nat} (h : n ∈ numbers) : (numbers.erase n).length < numbers.length := by
  have hpos := List.length_pos_of_mem h
  rw [List.length_erase_of_mem h]
  omega

theorem work_moved (hown : a.own = true) (h : Moved s a t) : t.work < s.work := by
  cases h with
  | same hother => simp [hown] at hother
  | asked | refused | submitted | answered | cancelled | bridgeDisposed | presenterDisposed => simp [Action.own] at hown
  | @turnedAway i q hq hcall =>
    have hsum := sum_work_less hq { q with result := some .null, call := .waiting } 0
      (by simp [PromptRequest.work, Call.work, hcall]; omega)
    simp only [Session.work, Session.put]
    omega
  | @presented i q hq hcall =>
    have hsum := sum_work_less hq { q with call := .waiting } 1 (by simp [PromptRequest.work, Call.work, hcall]; omega)
    simp only [Session.work, Session.put, List.length_append, List.length_singleton]
    omega
  | @abandoned _ i q hq hcall hresult =>
    have hsum := sum_work_less hq { q with result := some .null } 0 (by simp [PromptRequest.work, hresult])
    simp only [Session.work, Session.put]
    omega
  | accepted hq hi =>
    have hlength := length_erase_less hi
    simp only [Session.work]
    omega
  | disposedRefused hcode =>
    have hlength := length_erase_less hcode
    simp only [Session.work]
    omega
  | forgot hq hresult hi =>
    have hlength := length_erase_less hi
    simp only [Session.work]
    omega
  | @waited _ i q call hq hcall hnext =>
    have hsum := sum_work_less hq { q with call := call } 0
      (by rcases hnext with rfl | ⟨rfl, -⟩ <;> simp [PromptRequest.work, Call.work, hcall])
    simp only [Session.work, Session.put]
    omega
  | @issued i q number hq hcall =>
    have hsum := sum_work_less hq { q with call := .returned (.code number) } 0
      (by simp [PromptRequest.work, Call.work, hcall])
    simp only [Session.work, Session.put]
    omega
  | @dropped _ i q number call hq hcall | @ended _ i q answer call hq hcall =>
    have hsum := sum_work_less hq { q with call := call } 0
      (by rcases hcall with ⟨hcall, rfl⟩ | ⟨hcall, rfl⟩ <;> simp [PromptRequest.work, Call.work, hcall])
    simp only [Session.work, Session.put]
    omega

end SortView.PromptSession
