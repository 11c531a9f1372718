import Mathlib.Tactic.Common

/-!
# Reads of several statements

A read runs one statement after another, and each sees the data as it is then (READ COMMITTED): statement `k` has its own
answer. A read ends with an answer and the number of statements run, or with a fault. What holds of the answer of every
run, whatever changed between the statements.
-/

namespace Snapshots

variable {φ α β γ : Type}

/-- A read: from the number of statements run so far, the answer and that number after it, or a fault. -/
def Read (φ α : Type) : Type := Nat → Except φ (α × Nat)

namespace Read

def pure (answer : α) : Read φ α := fun k => .ok (answer, k)

def bind (read : Read φ α) (next : α → Read φ β) : Read φ β := fun k =>
  match read k with
  | .ok (answer, k) => next answer k
  | .error fault => .error fault

instance : Monad (Read φ) where
  pure := pure
  bind := bind

/-- A statement, whose answer at each moment is given; none where it fails. -/
def statement (fault : φ) (answers : Nat → Option α) : Read φ α := fun k =>
  match answers k with
  | some answer => .ok (answer, k + 1)
  | none => .error fault

/-- What is computed between the statements. -/
def ofExcept (result : Except φ α) : Read φ α := fun k => result.map fun answer => (answer, k)

def raise (fault : φ) : Read φ α := fun _ => .error fault

/-- A check of what was read. -/
def require (condition : Bool) (fault : φ) : Read φ Unit := if condition then pure () else raise fault

/-! ### What a run gives -/

theorem pure_eq_ok {answer other : α} {k m : Nat} : (Pure.pure answer : Read φ α) k = .ok (other, m) ↔ answer = other ∧ k = m := by
  constructor
  · intro h
    cases h
    exact ⟨rfl, rfl⟩
  · rintro ⟨rfl, rfl⟩
    rfl

theorem bind_eq_ok {read : Read φ α} {next : α → Read φ β} {k m : Nat} {answer : β} :
    (read >>= next) k = .ok (answer, m) ↔ ∃ middle j, read k = .ok (middle, j) ∧ next middle j = .ok (answer, m) := by
  show bind read next k = _ ↔ _
  rw [bind]
  cases read k with
  | ok result =>
      constructor
      · intro h
        exact ⟨result.1, result.2, rfl, h⟩
      · rintro ⟨middle, j, hmiddle, h⟩
        cases hmiddle
        exact h
  | error fault =>
      constructor
      · intro h
        cases h
      · rintro ⟨middle, j, hmiddle, -⟩
        cases hmiddle

theorem bind_eq_error {read : Read φ α} {next : α → Read φ β} {k : Nat} {fault : φ} :
    (read >>= next) k = .error fault ↔ read k = .error fault ∨ ∃ middle j, read k = .ok (middle, j) ∧ next middle j = .error fault := by
  show bind read next k = _ ↔ _
  rw [bind]
  cases read k with
  | ok result =>
      constructor
      · intro h
        exact Or.inr ⟨result.1, result.2, rfl, h⟩
      · rintro (h | ⟨middle, j, hmiddle, h⟩)
        · cases h
        · cases hmiddle
          exact h
  | error other =>
      constructor
      · intro h
        cases h
        exact Or.inl rfl
      · rintro (h | ⟨middle, j, hmiddle, -⟩)
        · cases h
          rfl
        · cases hmiddle

theorem statement_eq_ok {fault : φ} {answers : Nat → Option α} {k m : Nat} {answer : α} :
    statement fault answers k = .ok (answer, m) ↔ answers k = some answer ∧ m = k + 1 := by
  rw [statement]
  cases answers k with
  | none =>
      constructor
      · intro h
        cases h
      · rintro ⟨h, -⟩
        cases h
  | some other =>
      constructor
      · intro h
        cases h
        exact ⟨rfl, rfl⟩
      · rintro ⟨h, rfl⟩
        cases h
        rfl

theorem ofExcept_eq_ok {result : Except φ α} {k m : Nat} {answer : α} :
    ofExcept result k = .ok (answer, m) ↔ result = .ok answer ∧ m = k := by
  rw [ofExcept]
  cases result with
  | error fault =>
      constructor
      · intro h
        cases h
      · rintro ⟨h, -⟩
        cases h
  | ok other =>
      constructor
      · intro h
        cases h
        exact ⟨rfl, rfl⟩
      · rintro ⟨h, rfl⟩
        cases h
        rfl

theorem require_eq_ok {condition : Bool} {fault : φ} {k m : Nat} :
    require condition fault k = .ok ((), m) ↔ condition = true ∧ m = k := by
  cases condition with
  | true => exact pure_eq_ok.trans ⟨fun h => ⟨rfl, h.2.symm⟩, fun h => ⟨rfl, h.2.symm⟩⟩
  | false =>
      constructor
      · intro h
        cases h
      · rintro ⟨h, -⟩
        cases h

/-! ### What holds of every run -/

/-- Every run of the read ends with an answer of the kind or with a fault that is allowed. -/
structure Ends (allowed : φ → Prop) (holds : α → Prop) (read : Read φ α) : Prop where
  answer : ∀ k m result, read k = .ok (result, m) → holds result
  fault : ∀ k fault, read k = .error fault → allowed fault

variable {allowed : φ → Prop} {holds : α → Prop} {later : β → Prop}

theorem Ends.pure {answer : α} (h : holds answer) : Ends allowed holds (Pure.pure answer : Read φ α) where
  answer k m result hrun := (pure_eq_ok.1 hrun).1 ▸ h
  fault k fault hrun := by cases hrun

theorem Ends.bind {read : Read φ α} {next : α → Read φ β} (hread : Ends allowed holds read)
    (hnext : ∀ answer, holds answer → Ends allowed later (next answer)) : Ends allowed later (read >>= next) where
  answer k m result hrun := by
    obtain ⟨middle, j, hmiddle, hrest⟩ := bind_eq_ok.1 hrun
    exact (hnext middle (hread.answer _ _ _ hmiddle)).answer _ _ _ hrest
  fault k fault hrun := by
    rcases bind_eq_error.1 hrun with hfirst | ⟨middle, j, hmiddle, hrest⟩
    · exact hread.fault _ _ hfirst
    · exact (hnext middle (hread.answer _ _ _ hmiddle)).fault _ _ hrest

theorem Ends.statement {fault : φ} (hfault : allowed fault) (answers : Nat → Option α) :
    Ends allowed (fun answer => ∃ k, answers k = some answer) (Read.statement fault answers) where
  answer k m result hrun := ⟨k, (statement_eq_ok.1 hrun).1⟩
  fault k other hrun := by
    rw [Read.statement] at hrun
    split at hrun
    · cases hrun
    · cases hrun
      exact hfault

theorem Ends.ofExcept {result : Except φ α} {answer : α} (hresult : result = .ok answer) (h : holds answer) :
    Ends allowed holds (Read.ofExcept result) where
  answer k m other hrun := by
    rw [hresult] at hrun
    cases hrun
    exact h
  fault k fault hrun := by
    rw [hresult] at hrun
    cases hrun

/-- A check whose fault is allowed. -/
theorem Ends.require_of_allowed {condition : Bool} {fault : φ} (hfault : allowed fault) :
    Ends allowed (fun _ => condition = true) (Read.require condition fault) := by
  cases condition with
  | true => exact Ends.pure rfl
  | false =>
      refine ⟨?_, ?_⟩
      · intro k m result hrun
        cases hrun
      · intro k other hrun
        cases hrun
        exact hfault

/-- A loop keeps what each of its steps keeps. -/
theorem Ends.foldlM {items : List β} {step : α → β → Read φ α}
    (hstep : ∀ state, holds state → ∀ item ∈ items, Ends allowed holds (step state item)) {start : α} (hstart : holds start) :
    Ends allowed holds (items.foldlM step start) := by
  induction items generalizing start with
  | nil => exact Ends.pure hstart
  | cons item items ih =>
      rw [List.foldlM_cons]
      apply Ends.bind (hstep start hstart item (List.mem_cons_self ..))
      intro state hstate
      exact ih (fun state hstate other hother => hstep state hstate other (List.mem_cons_of_mem _ hother)) hstate

/-! ### Reads of data that do not change -/

variable {ε : Type}

/-- A read that gives what is computed from data that do not change. -/
def Computes (read : Read φ α) (result : Except ε α) : Prop := ∀ k answer m, read k = .ok (answer, m) → result = .ok answer

theorem Computes.pure (answer : α) : Computes (Pure.pure answer : Read φ α) (.ok answer : Except ε α) := by
  intro k other m hrun
  rw [(pure_eq_ok.1 hrun).1]

theorem Computes.bind {read : Read φ α} {result : Except ε α} {next : α → Read φ β} {later : α → Except ε β}
    (hread : Computes read result) (hnext : ∀ answer, Computes (next answer) (later answer)) :
    Computes (read >>= next) (result >>= later) := by
  intro k answer m hrun
  obtain ⟨middle, j, hmiddle, hrest⟩ := bind_eq_ok.1 hrun
  rw [hread _ _ _ hmiddle]
  exact hnext middle _ _ _ hrest

/-- What is computed after an answer that is known. -/
theorem Computes.bind_ok {read : Read φ α} {answer : α} {next : α → Read φ β} {result : Except ε β}
    (hread : Computes read (.ok answer : Except ε α)) (hnext : Computes (next answer) result) : Computes (read >>= next) result := by
  intro k last m hrun
  obtain ⟨middle, j, hmiddle, hrest⟩ := bind_eq_ok.1 hrun
  have hanswer := hread _ _ _ hmiddle
  cases hanswer
  exact hnext _ _ _ hrest

theorem Computes.statement {fault : φ} {answers : Nat → Option α} {answer : α} (h : ∀ k other, answers k = some other → other = answer) :
    Computes (Read.statement fault answers) (.ok answer : Except ε α) := by
  intro k other m hrun
  rw [h k other (statement_eq_ok.1 hrun).1]

theorem Computes.ofExcept (result : Except ε α) (raised : ε → φ) : Computes (Read.ofExcept (result.mapError raised)) result := by
  intro k answer m hrun
  have hok := (ofExcept_eq_ok.1 hrun).1
  cases result with
  | error problem => cases hok
  | ok other =>
      cases hok
      rfl

theorem Computes.foldlM {step : α → β → Read φ α} {compute : α → β → Except ε α}
    (hstep : ∀ state item, Computes (step state item) (compute state item)) (items : List β) (start : α) :
    Computes (items.foldlM step start) (items.foldlM compute start) := by
  induction items generalizing start with
  | nil => exact Computes.pure start
  | cons item items ih =>
      rw [List.foldlM_cons, List.foldlM_cons]
      exact Computes.bind (hstep start item) ih

end Read

end Snapshots
