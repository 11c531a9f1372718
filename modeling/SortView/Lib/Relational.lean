import Mathlib.Data.List.Nodup
import Mathlib.Logic.Function.Basic

/-!
# Tables with foreign keys

Tables as lists of rows, the references between them, and a plan of `DELETE` statements, each of which is refused when it
leaves a reference without its row. A plan whose statements look at no table that was deleted from before them deletes
what each of them selects at the start.
-/

namespace Relational

variable {τ ρ κ : Type} [DecidableEq τ]

/-- The rows of every table. -/
abbrev Database (τ ρ : Type) : Type := τ → List ρ

/-- The table without the rows that match. -/
def Database.deleteWhere (db : Database τ ρ) (table : τ) (holds : ρ → Bool) : Database τ ρ :=
  Function.update db table ((db table).filter fun row => !holds row)

/-- A reference of the rows of one table to the rows of another. -/
structure ForeignKey (τ ρ κ : Type) where
  child : τ
  parent : τ
  reference : ρ → Option κ
  key : ρ → Option κ

/-- Every reference has its row. -/
def ForeignKey.Holds (fk : ForeignKey τ ρ κ) (db : Database τ ρ) : Prop :=
  ∀ row ∈ db fk.child, ∀ k ∈ fk.reference row, ∃ referenced ∈ db fk.parent, fk.key referenced = some k

instance [DecidableEq κ] (fk : ForeignKey τ ρ κ) (db : Database τ ρ) : Decidable (fk.Holds db) :=
  inferInstanceAs (Decidable (∀ row ∈ db fk.child, ∀ k ∈ fk.reference row, ∃ referenced ∈ db fk.parent, fk.key referenced = some k))

/-- `DELETE FROM table WHERE ...`, whose condition can look at other tables. -/
structure Delete (τ ρ : Type) where
  table : τ
  holds : Database τ ρ → ρ → Bool

/-- The rows that a statement selects. -/
def Delete.count (step : Delete τ ρ) (db : Database τ ρ) : Nat := (db step.table).countP (step.holds db)

/-- The statement, if it leaves every reference its row. -/
def Delete.run [DecidableEq κ] (keys : List (ForeignKey τ ρ κ)) (db : Database τ ρ) (step : Delete τ ρ) :
    Option (Database τ ρ) :=
  let after := db.deleteWhere step.table (step.holds db)
  if ∀ fk ∈ keys, fk.Holds after then some after else none

/-- The statements one after another, and how many rows each of them deleted. -/
def runDeletes [DecidableEq κ] (keys : List (ForeignKey τ ρ κ)) (db : Database τ ρ) :
    List (Delete τ ρ) → Option (Database τ ρ × List (τ × Nat))
  | [] => some (db, [])
  | step :: plan =>
      (step.run keys db).bind fun next =>
        (runDeletes keys next plan).map fun rest => (rest.1, (step.table, step.count db) :: rest.2)

/-- The condition of a statement does not look at a table. -/
def Delete.Ignores (step : Delete τ ρ) (table : τ) : Prop := ∀ db rows, step.holds (Function.update db table rows) = step.holds db

/-- No statement of a plan looks at, or deletes from, a table that an earlier one deletes from. -/
def ChildrenFirst (plan : List (Delete τ ρ)) : Prop :=
  plan.Pairwise fun earlier later => later.table ≠ earlier.table ∧ later.Ignores earlier.table

variable [DecidableEq κ] {keys : List (ForeignKey τ ρ κ)} {db after : Database τ ρ} {plan : List (Delete τ ρ)}
  {counts : List (τ × Nat)}

theorem Delete.run_eq_some {step : Delete τ ρ} (h : step.run keys db = some after) :
    after = db.deleteWhere step.table (step.holds db) ∧ ∀ fk ∈ keys, fk.Holds after := by
  rw [Delete.run] at h
  split at h
  · next hkeys =>
    cases h
    exact ⟨rfl, hkeys⟩
  · cases h

/-- A plan that goes through leaves every reference its row. -/
theorem keys_hold_of_runDeletes (hkeys : ∀ fk ∈ keys, fk.Holds db) (h : runDeletes keys db plan = some (after, counts)) :
    ∀ fk ∈ keys, fk.Holds after := by
  induction plan generalizing db counts with
  | nil =>
      cases h
      exact hkeys
  | cons step plan ih =>
      rw [runDeletes] at h
      obtain ⟨next, hnext, h⟩ := Option.bind_eq_some_iff.1 h
      obtain ⟨rest, hrest, h⟩ := Option.map_eq_some_iff.1 h
      cases h
      exact ih (Delete.run_eq_some hnext).2 hrest

/-- A table that no statement deletes from is left as it is. -/
theorem runDeletes_frame (h : runDeletes keys db plan = some (after, counts)) {table : τ}
    (htable : ∀ step ∈ plan, step.table ≠ table) : after table = db table := by
  induction plan generalizing db counts with
  | nil =>
      cases h
      rfl
  | cons step plan ih =>
      rw [runDeletes] at h
      obtain ⟨next, hnext, h⟩ := Option.bind_eq_some_iff.1 h
      obtain ⟨rest, hrest, h⟩ := Option.map_eq_some_iff.1 h
      cases h
      rw [ih hrest fun other hother => htable other (List.mem_cons_of_mem step hother), (Delete.run_eq_some hnext).1]
      exact Function.update_of_ne (htable step List.mem_cons_self).symm _ _

/-- Where children go first, a plan deletes what its statements select at the start, and counts that. -/
theorem runDeletes_spec (hplan : ChildrenFirst plan) (h : runDeletes keys db plan = some (after, counts)) :
    (∀ step ∈ plan, after step.table = (db step.table).filter fun row => !step.holds db row)
      ∧ counts = plan.map fun step => (step.table, step.count db) := by
  induction plan generalizing db counts with
  | nil =>
      cases h
      refine ⟨?_, rfl⟩
      intro step hstep
      cases hstep
  | cons step plan ih =>
      rw [ChildrenFirst, List.pairwise_cons] at hplan
      obtain ⟨hlater, hplan⟩ := hplan
      rw [runDeletes] at h
      obtain ⟨next, hnext, h⟩ := Option.bind_eq_some_iff.1 h
      obtain ⟨rest, hrest, h⟩ := Option.map_eq_some_iff.1 h
      cases h
      have hnext' := (Delete.run_eq_some hnext).1
      obtain ⟨hafter, hcounts⟩ := ih hplan hrest
      -- a later statement selects from the table, and by the tables, that it would have had at the start
      have hsame : ∀ other ∈ plan, next other.table = db other.table ∧ other.holds next = other.holds db := by
        intro other hother
        obtain ⟨hne, hignores⟩ := hlater other hother
        rw [hnext']
        exact ⟨Function.update_of_ne hne _ _, hignores _ _⟩
      constructor
      · intro other hother
        rcases List.mem_cons.1 hother with rfl | hother
        · rw [runDeletes_frame hrest fun later hlaterMem => (hlater later hlaterMem).1, hnext']
          exact Function.update_self _ _ _
        · rw [hafter other hother, (hsame other hother).1, (hsame other hother).2]
      · rw [List.map_cons, hcounts]
        congr 1
        apply List.map_congr_left
        intro other hother
        rw [Delete.count, Delete.count, (hsame other hother).1, (hsame other hother).2]

end Relational
