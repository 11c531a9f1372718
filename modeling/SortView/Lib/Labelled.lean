import Mathlib.Logic.Basic

/-!
# Runs of labelled systems

A labelled system is a step function on a state type: an action either cannot be taken in a state or leads to
one next state. What every action keeps holds after every run; what every action makes of a state, composed
over a run, relates its two ends. Some actions are the system's own: it takes them by itself, in some order, as
long as one can be taken. Where they use up a measure, every run of them ends, and it can only end in a state
with none of them left.
-/

namespace SortView.Labelled

variable {σ α : Type} {step : σ → α → Option σ} {own : α → Bool}

/-- The state after the actions in order. -/
def run (step : σ → α → Option σ) : σ → List α → Option σ
  | s, [] => some s
  | s, a :: actions => (step s a).bind (run step · actions)

@[simp] theorem run_nil (s : σ) : run step s [] = some s :=
  rfl

theorem run_cons_eq_some {s t : σ} {a : α} {actions : List α} :
    run step s (a :: actions) = some t ↔ ∃ m, step s a = some m ∧ run step m actions = some t := by
  simp [run, Option.bind_eq_some_iff]

theorem run_keeps {I : σ → Prop} (hstep : ∀ s a t, I s → step s a = some t → I t) {s t : σ} {actions : List α}
    (hs : I s) (hrun : run step s actions = some t) : I t := by
  induction actions generalizing s with
  | nil =>
    obtain rfl : s = t := by simpa using hrun
    exact hs
  | cons a actions ih =>
    obtain ⟨m, hm, hrest⟩ := run_cons_eq_some.mp hrun
    exact ih (hstep s a m hs hm) hrest

/-- A preorder that every action follows from a state with the invariant relates the ends of every run. -/
theorem run_relates {I : σ → Prop} {R : σ → σ → Prop} (hrefl : ∀ s, R s s) (htrans : ∀ s m t, R s m → R m t → R s t)
    (hkeeps : ∀ s a t, I s → step s a = some t → I t) (hstep : ∀ s a t, I s → step s a = some t → R s t)
    {s t : σ} {actions : List α} (hs : I s) (hrun : run step s actions = some t) : R s t := by
  induction actions generalizing s with
  | nil =>
    obtain rfl : s = t := by simpa using hrun
    exact hrefl s
  | cons a actions ih =>
    obtain ⟨m, hm, hrest⟩ := run_cons_eq_some.mp hrun
    exact htrans s m t (hstep s a m hs hm) (ih (hkeeps s a m hs hm) hrest)

/-- None of the system's own actions can be taken. -/
def Quiet (step : σ → α → Option σ) (own : α → Bool) (s : σ) : Prop :=
  ∀ a, own a → step s a = none

section Measure

variable {work : σ → Nat} (hless : ∀ s a t, own a → step s a = some t → work t < work s)

include hless

theorem length_le_work {s t : σ} {actions : List α} (hown : ∀ a ∈ actions, own a)
    (hrun : run step s actions = some t) : actions.length + work t ≤ work s := by
  induction actions generalizing s with
  | nil =>
    obtain rfl : s = t := by simpa using hrun
    simp
  | cons a actions ih =>
    obtain ⟨m, hm, hrest⟩ := run_cons_eq_some.mp hrun
    have hfirst := hless s a m (hown a List.mem_cons_self) hm
    have hlater := ih (fun b hb => hown b (List.mem_cons_of_mem a hb)) hrest
    simp only [List.length_cons]
    omega

/-- The own actions can always be taken until none is left. -/
theorem exists_quiet (s : σ) : ∃ actions t, (∀ a ∈ actions, own a) ∧ run step s actions = some t ∧ Quiet step own t := by
  induction hn : work s using Nat.strongRecOn generalizing s with
  | ind n ih =>
    by_cases hquiet : Quiet step own s
    · exact ⟨[], s, by simp, rfl, hquiet⟩
    · obtain ⟨a, ha, hs⟩ : ∃ a, own a ∧ step s a ≠ none := by simpa [Quiet] using hquiet
      obtain ⟨m, hm⟩ := Option.ne_none_iff_exists'.mp hs
      obtain ⟨actions, t, hown, hrun, ht⟩ := ih (work m) (hn ▸ hless s a m ha hm) m rfl
      refine ⟨a :: actions, t, ?_, run_cons_eq_some.mpr ⟨m, hm, hrun⟩, ht⟩
      exact List.forall_mem_cons.mpr ⟨ha, hown⟩

end Measure

end SortView.Labelled
