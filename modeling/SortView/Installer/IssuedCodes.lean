import SortView.Installer.PromptMoves

/-!
# What becomes of an enrollment code

Every code that the view makes is in one place at any time: refused and on its way to be disposed of, the answer
of a question whose call is under way, with the engine until the bridge is disposed of, or disposed of. No order
of the threads loses one, disposes of one twice, or takes one from the engine while the run goes on; and when the
run is over, the threads under way come to an end at which each code has been disposed of.
-/

namespace SortView.PromptSession

open Labelled

variable {s t : Session} {actions : List Action}

/-- What holds of a session at any time. -/
structure Custody (s : Session) : Prop where
  kept : AllKept s
  places : ∀ code, s.places code = if code < s.made then 1 else 0
  closed : s.bridgeClosed = true → s.issuedSecrets = []
  noted : s.codeSubmitted = true → ∃ q ∈ s.questions, q.hasCode

theorem custody_start : Custody start where
  kept i q hq := by simp [start] at hq
  places code := by simp [Session.places, start]
  closed _ := rfl
  noted h := by simp [start] at h

theorem hasCode_later (h : Later s t) (hcode : ∃ q ∈ s.questions, q.hasCode) : ∃ q ∈ t.questions, q.hasCode := by
  obtain ⟨q, hq, hid, number, hresult⟩ := hcode
  obtain ⟨i, hi⟩ := List.mem_iff_getElem?.mp hq
  obtain ⟨q', hq', hid', hresult', -⟩ := h.question i q hi
  refine ⟨q', List.mem_of_getElem? hq', hid'.trans hid, number, ?_⟩
  rw [hresult' (by simp [hresult]), hresult]

theorem Answer.exists_of_isCode {result : Option Answer} {answer : Answer} (hresult : result = some answer)
    (hcode : answer.isCode = true) : ∃ code, result = some (.code code) := by
  cases answer with
  | code code => exact ⟨code, hresult⟩
  | null | text _ | other => simp [Answer.isCode] at hcode

theorem custody_step (s : Session) (a : Action) (t : Session) (hs : Custody s) (h : step s a = some t) : Custody t := by
  have hmoved := moved_step h
  have hlater := later_moved hs.kept hmoved
  refine ⟨kept_moved hs.kept hmoved, fun code => ?_, ?_, ?_⟩
  · have hbefore := hs.places code
    rcases places_moved hs.kept hmoved code with ⟨hplaces, hmade⟩ | ⟨hplaces, hmade⟩
    · rw [hplaces, hmade, hbefore]
    · rw [hplaces, hmade, hbefore]
      split_ifs <;> omega
  · have hclosed := hs.closed
    cases hmoved with
    | issued hq hcall hresult hopen => simp [Session.put, hopen]
    | bridgeDisposed => exact fun _ => rfl
    | _ => exact hclosed
  · have hnoted := hs.noted
    cases hmoved with
    | accepted hq hi =>
      intro h
      rcases Bool.or_eq_true_iff.mp h with h | h
      · exact hnoted h
      · simp only [Bool.and_eq_true, decide_eq_true_eq, Option.any_eq_true] at h
        obtain ⟨hid, answer, hresult, hcode⟩ := h
        exact ⟨_, List.mem_of_getElem? hq, hid, Answer.exists_of_isCode hresult hcode⟩
    | _ => exact fun h => hasCode_later hlater (hnoted h)

theorem custody (h : run step start actions = some s) : Custody s :=
  run_keeps custody_step custody_start h

theorem later_run (hs : Custody s) (h : run step s actions = some t) : Later s t :=
  run_relates Later.refl (fun _ _ _ => Later.trans) custody_step
    (fun _ _ _ hs h => later_moved hs.kept (moved_step h)) hs h

/-- At any time of any session, each code that was made is in exactly one place; a code that a call returned to the
engine is the answer of that call's own question, and not disposed of while the bridge is open; and between two
`TrySubmit`s the presenter knows whether an enrollment code was taken. From there on settled questions keep their
results and returned calls their answers, and a closed bridge gives the engine no code. -/
theorem codes_have_one_place (h : run step start actions = some s) :
    (∀ code < s.made, s.places code = 1)
    ∧ (∀ q ∈ s.questions, ∀ code, q.call = .returned (.code code) →
      q.result = some (.code code) ∧ (s.bridgeClosed = false → code ∉ s.disposed))
    ∧ (s.submitting = [] → (s.codeSubmitted = true ↔ ∃ q ∈ s.questions, q.hasCode))
    ∧ ∀ {rest t}, run step s rest = some t → Later s t := by
  have hs := custody h
  refine ⟨fun code hcode => by simp [hs.places, hcode], fun q hq code hcall => ?_, fun hidle => ⟨hs.noted, ?_⟩,
    later_run hs⟩
  · obtain ⟨i, hi⟩ := List.mem_iff_getElem?.mp hq
    have hk := hs.kept i q hi
    refine ⟨by simpa using hk.returned _ hcall, fun hopen hdisposed => ?_⟩
    have hplaces := hs.places code
    have hissued := List.count_pos_iff.mpr (hk.issued code hcall hopen)
    have htwice := List.count_pos_iff.mpr hdisposed
    simp only [Session.places] at hplaces
    split at hplaces <;> omega
  · rintro ⟨q, hq, hcode⟩
    obtain ⟨i, hi⟩ := List.mem_iff_getElem?.mp hq
    simpa [hidle] using (hs.kept i q hi).submitted hcode

/-- The engine asks for the code, the view answers twice, and the second code is refused. -/
def sampleActions : List Action :=
  [.requestInput "enrollment_code", .presentAsync 0, .submitCode 0, .submitCode 0, .waitReturned 0, .accept 0,
    .onAccepted 0]

def sampleSession : Session :=
  { start with
    questions := [⟨"enrollment_code", some (.code 0), .returned (.code 0)⟩]
    pending := [0]
    codeSubmitted := true
    issuedSecrets := [0]
    refused := [1]
    made := 2 }

theorem codes_have_one_place_sample :
    (∀ code < 2, sampleSession.places code = 1) ∧ ∃ q ∈ sampleSession.questions, q.hasCode := by
  obtain ⟨hplaces, -, hnoted, -⟩ := @codes_have_one_place sampleSession sampleActions (by decide)
  exact ⟨hplaces, (hnoted rfl).mp rfl⟩

/-- Within a `TrySubmit` the engine can have the code before the presenter has noted it. -/
example : ((run step start (sampleActions.take 6)).map fun s => (s.issuedSecrets, s.codeSubmitted)) = some ([0], false) := by
  decide

/-! ### The end of a run -/

/-- Every call has returned, and every code was disposed of, once. -/
structure Ended (s : Session) : Prop where
  returned : ∀ q ∈ s.questions, q.call = .released ∨ ∃ answer, q.call = .returned answer
  disposed : ∀ code < s.made, s.disposed.count code = 1

/-- Where no thread can go on, the calls have returned. -/
theorem returned_of_quiet (hs : AllKept s) (hpresenter : s.presenterClosed = true) (hquiet : Quiet step Action.own s)
    {i : Nat} {q : PromptRequest} (hq : s.questions[i]? = some q) :
    q.call = .released ∨ ∃ answer, q.call = .returned answer := by
  have hk := hs i q hq
  have hpresented : q.call ≠ .presenting := fun hcall =>
    onQuestion_ne_none hq (by simp [hcall]) (hquiet (.presentAsync i) rfl)
  have hsettled : q.result ≠ none := fun hresult =>
    onQuestion_ne_none hq
      (by simp [PromptRequest.presented, PromptRequest.isCompleted, hpresented, hresult,
        (hk.watched hpresented hresult).2 hpresenter])
      (hquiet (.abandon i) rfl)
  have hcompleted : q.isCompleted = true := Option.isSome_iff_ne_none.mpr hsettled
  cases hcall : q.call with
  | presenting => exact absurd hcall hpresented
  | waiting => exact absurd (hquiet (.waitReturned i) rfl) (onQuestion_ne_none hq (by simp [hcall, hcompleted]))
  | accepting => exact absurd (hquiet (.accept i) rfl) (onQuestion_ne_none hq (by simp [hcall, hcompleted]))
  | late => exact absurd (hquiet (.disposeLateSecret i) rfl) (onQuestion_ne_none hq (by simp [hcall, hcompleted]))
  | released => exact .inl rfl
  | returned answer => exact .inr ⟨answer, rfl⟩

theorem ended_of_quiet (hs : Custody s) (hbridge : s.bridgeClosed = true) (hpresenter : s.presenterClosed = true)
    (hquiet : Quiet step Action.own s) : Ended s := by
  have hreturned (q : PromptRequest) (hq : q ∈ s.questions) :
      q.call = .released ∨ ∃ answer, q.call = .returned answer := by
    obtain ⟨i, hi⟩ := List.mem_iff_getElem?.mp hq
    exact returned_of_quiet hs.kept hpresenter hquiet hi
  refine ⟨hreturned, fun code hcode => ?_⟩
  have hrefused : code ∉ s.refused := fun h => by
    simpa [step, disposeRefused, h] using hquiet (.disposeRefused code) rfl
  have hheld : s.questions.countP (·.holds code) = 0 := by
    refine List.countP_eq_zero.mpr fun q hq => ?_
    rcases hreturned q hq with hcall | ⟨answer, hcall⟩ <;> simp [PromptRequest.holds, hcall]
  have hplaces := hs.places code
  simpa [Session.places, List.count_eq_zero.mpr hrefused, hheld, hs.closed hbridge, hcode] using hplaces

/-- Once the bridge and the presenter are closed, whatever has happened before, the threads under way come to an
end after a bounded number of steps, and wherever they do, every call has returned and every code was disposed of
exactly once. -/
theorem ended_session_keeps_no_code (h : run step start actions = some s) (hbridge : s.bridgeClosed = true)
    (hpresenter : s.presenterClosed = true) :
    (∃ rest t, (∀ a ∈ rest, a.own = true) ∧ run step s rest = some t ∧ Ended t)
    ∧ ∀ {rest t}, (∀ a ∈ rest, a.own = true) → run step s rest = some t →
      rest.length ≤ s.work ∧ (Quiet step Action.own t → Ended t) := by
  have hs := custody h
  have hless (s : Session) (a : Action) (t : Session) (hown : a.own = true) (hstep : step s a = some t) :=
    work_moved hown (moved_step hstep)
  have hended {rest : List Action} {t : Session} (hrun : run step s rest = some t) (hquiet : Quiet step Action.own t) :
      Ended t := by
    have hlater := later_run hs hrun
    exact ended_of_quiet (run_keeps custody_step hs hrun) (hlater.bridgeClosed hbridge)
      (hlater.presenterClosed hpresenter) hquiet
  constructor
  · obtain ⟨rest, t, hown, hrun, hquiet⟩ := exists_quiet hless s
    exact ⟨rest, t, hown, hrun, hended hrun hquiet⟩
  · intro rest t hown hrun
    have hlength := length_le_work hless hown hrun
    exact ⟨by omega, hended hrun⟩

/-- Then a second question is asked, the run is cancelled and both sides are closed. -/
def closingActions : List Action :=
  sampleActions ++ [.requestInput "legacy_task_enable", .cancel, .disposePresenter, .disposeBridge]

def closedSession : Session :=
  { sampleSession with
    questions := sampleSession.questions ++ [⟨"legacy_task_enable", none, .presenting⟩]
    bridgeClosed := true
    presenterClosed := true
    waiting := [0]
    cancelled := true
    issuedSecrets := []
    disposed := [0] }

theorem ended_session_keeps_no_code_sample :
    ∃ rest t, (∀ a ∈ rest, a.own = true) ∧ run step closedSession rest = some t ∧ Ended t :=
  (@ended_session_keeps_no_code closedSession closingActions (by decide) rfl rfl).1

end SortView.PromptSession
