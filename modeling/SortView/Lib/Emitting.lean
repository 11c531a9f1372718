import Mathlib.Tactic.Common

/-!
# Steps that emit

A step goes from a state to the items it emits and the next state, or ends in a fault. Steps are run one after another and
over lists: what each of them keeps, all of them keep, and where none of them ends in a fault, all of them run.
-/

namespace Emitting

variable {σ ε α β : Type}

/-- From a state, the items emitted and the next state, or a fault. -/
def Step (σ ε β : Type) : Type := σ → Except ε (List β × σ)

namespace Step

/-- A step that emits nothing. -/
def silent (change : σ → σ) : Step σ ε β := fun state => .ok ([], change state)

def andThen (first second : Step σ ε β) : Step σ ε β := fun state =>
  match first state with
  | .error fault => .error fault
  | .ok (emitted, state) =>
      match second state with
      | .error fault => .error fault
      | .ok (later, state) => .ok (emitted ++ later, state)

/-- A step for each item of a list. -/
def forEach (step : α → Step σ ε β) : List α → Step σ ε β
  | [] => silent id
  | item :: items => (step item).andThen (forEach step items)

/-! ### What a run gives -/

theorem silent_eq_ok {change : σ → σ} {state after : σ} {emitted : List β} :
    (silent change : Step σ ε β) state = .ok (emitted, after) ↔ emitted = [] ∧ after = change state := by
  constructor
  · intro h
    cases h
    exact ⟨rfl, rfl⟩
  · rintro ⟨rfl, rfl⟩
    rfl

theorem andThen_eq_ok {first second : Step σ ε β} {state after : σ} {emitted : List β} :
    first.andThen second state = .ok (emitted, after) ↔ ∃ left middle right, first state = .ok (left, middle)
      ∧ second middle = .ok (right, after) ∧ emitted = left ++ right := by
  rw [andThen]
  constructor
  · intro h
    cases hfirst : first state with
    | error fault =>
        rw [hfirst] at h
        cases h
    | ok result =>
        obtain ⟨left, middle⟩ := result
        rw [hfirst] at h
        dsimp only at h
        cases hsecond : second middle with
        | error fault =>
            rw [hsecond] at h
            cases h
        | ok result =>
            obtain ⟨right, last⟩ := result
            rw [hsecond] at h
            cases h
            exact ⟨left, middle, right, rfl, hsecond, rfl⟩
  · rintro ⟨left, middle, right, hfirst, hsecond, rfl⟩
    rw [hfirst]
    dsimp only
    rw [hsecond]

/-! ### What steps keep -/

/-- From a state of the first kind a step emits what is allowed and ends in a state of the second kind. -/
def Keeps (before : σ → Prop) (allowed : β → Prop) (after : σ → Prop) (step : Step σ ε β) : Prop :=
  ∀ state emitted next, before state → step state = .ok (emitted, next) → (∀ item ∈ emitted, allowed item) ∧ after next

variable {before middle after : σ → Prop} {allowed : β → Prop}

theorem Keeps.silent {change : σ → σ} (h : ∀ state, before state → after (change state)) :
    Keeps before allowed after (silent change : Step σ ε β) := by
  intro state emitted next hbefore hrun
  obtain ⟨rfl, rfl⟩ := silent_eq_ok.1 hrun
  exact ⟨List.forall_mem_nil _, h state hbefore⟩

theorem Keeps.andThen {first second : Step σ ε β} (hfirst : Keeps before allowed middle first)
    (hsecond : Keeps middle allowed after second) : Keeps before allowed after (first.andThen second) := by
  intro state emitted next hbefore hrun
  obtain ⟨left, between, right, hleft, hright, rfl⟩ := andThen_eq_ok.1 hrun
  obtain ⟨hallowed, hmiddle⟩ := hfirst _ _ _ hbefore hleft
  obtain ⟨hlater, hafter⟩ := hsecond _ _ _ hmiddle hright
  refine ⟨?_, hafter⟩
  intro item hitem
  exact (List.mem_append.1 hitem).elim (hallowed item) (hlater item)

/-- What holds after the items so far, kept by the step of the next item, holds after the loop. -/
theorem Keeps.forEach {inv : List α → σ → Prop} {step : α → Step σ ε β} {items : List α}
    (hstep : ∀ done item rest, items = done ++ item :: rest → Keeps (inv done) allowed (inv (done ++ [item])) (step item)) :
    Keeps (inv []) allowed (inv items) (forEach step items) := by
  have hrest : ∀ rest done, items = done ++ rest → Keeps (inv done) allowed (inv items) (Step.forEach step rest) := by
    intro rest
    induction rest with
    | nil =>
        intro done hsplit
        rw [List.append_nil] at hsplit
        exact Keeps.silent fun state h => hsplit ▸ h
    | cons item rest ih =>
        intro done hsplit
        refine (hstep done item rest hsplit).andThen (ih (done ++ [item]) ?_)
        rw [hsplit, List.append_assoc, List.singleton_append]
  exact hrest items [] rfl

/-! ### Steps that run -/

/-- From a state of the first kind a step ends in a fault, if it may, or emits what is allowed and ends in a state of the second
kind. -/
def Runs (mayFault : Prop) (before : σ → Prop) (allowed : β → Prop) (after : σ → Prop) (step : Step σ ε β) : Prop :=
  ∀ state, before state → (mayFault ∧ ∃ fault, step state = .error fault)
    ∨ ∃ emitted next, step state = .ok (emitted, next) ∧ (∀ item ∈ emitted, allowed item) ∧ after next

section Runs

variable {mayFault : Prop} {before middle after : σ → Prop} {allowed : β → Prop}

theorem Runs.silent {change : σ → σ} (h : ∀ state, before state → after (change state)) :
    Runs mayFault before allowed after (silent change : Step σ ε β) :=
  fun state hbefore => Or.inr ⟨[], change state, rfl, List.forall_mem_nil _, h state hbefore⟩

theorem Runs.andThen {first second : Step σ ε β} (hfirst : Runs mayFault before allowed middle first)
    (hsecond : Runs mayFault middle allowed after second) : Runs mayFault before allowed after (first.andThen second) := by
  intro state hbefore
  rw [Step.andThen]
  rcases hfirst state hbefore with ⟨hmay, fault, hfault⟩ | ⟨left, between, hleft, hallowed, hmiddle⟩
  · rw [hfault]
    exact Or.inl ⟨hmay, fault, rfl⟩
  · rw [hleft]
    dsimp only
    rcases hsecond between hmiddle with ⟨hmay, fault, hfault⟩ | ⟨right, next, hright, hlater, hafter⟩
    · rw [hfault]
      exact Or.inl ⟨hmay, fault, rfl⟩
    · rw [hright]
      refine Or.inr ⟨left ++ right, next, rfl, ?_, hafter⟩
      intro item hitem
      exact (List.mem_append.1 hitem).elim (hallowed item) (hlater item)

theorem Runs.forEach {inv : σ → Prop} {step : α → Step σ ε β} {items : List α}
    (hstep : ∀ item ∈ items, Runs mayFault inv allowed inv (step item)) : Runs mayFault inv allowed inv (forEach step items) := by
  induction items with
  | nil => exact Runs.silent fun _ h => h
  | cons item items ih =>
      exact (hstep item (List.mem_cons_self ..)).andThen (ih fun other hother => hstep other (List.mem_cons_of_mem _ hother))

theorem Runs.keeps {step : Step σ ε β} (h : Runs mayFault before allowed after step) : Keeps before allowed after step := by
  intro state emitted next hbefore hrun
  rcases h state hbefore with ⟨-, fault, hfault⟩ | ⟨_, _, hok, hallowed, hafter⟩
  · rw [hrun] at hfault
    cases hfault
  · rw [hrun] at hok
    cases hok
    exact ⟨hallowed, hafter⟩

theorem Runs.ok {step : Step σ ε β} (h : Runs mayFault before allowed after step) (hfault : ¬mayFault) {state : σ}
    (hbefore : before state) : ∃ emitted next, step state = .ok (emitted, next) ∧ ∀ item ∈ emitted, allowed item := by
  rcases h state hbefore with ⟨hmay, -⟩ | ⟨emitted, next, hok, hallowed, -⟩
  · exact absurd hmay hfault
  · exact ⟨emitted, next, hok, hallowed⟩

end Runs

end Step

end Emitting
