import Mathlib.Data.List.Basic
import Mathlib.Tactic.Common

/-!
# First-writer-wins tables

A table is a list of rows with a key. A row is added at the end unless its key is there already, so the
stored row of a key is the first one written. A sequence of rows agrees with a table when every row has the
content of the stored row of its key, or else of the first row of its key in the sequence.
-/

namespace FirstWriter

variable {ρ κ γ : Type} [DecidableEq κ] (key : ρ → κ)

/-- The row stored under a key. -/
def stored (table : List ρ) (k : κ) : Option ρ := table.find? fun row => key row = k

def insertNew (table : List ρ) (row : ρ) : List ρ := if (stored key table (key row)).isSome then table else table ++ [row]

def insertAll (table rows : List ρ) : List ρ := rows.foldl (insertNew key) table

variable {key}

theorem key_of_stored {table : List ρ} {k : κ} {row : ρ} (h : stored key table k = some row) : key row = k := by
  simpa using List.find?_some h

theorem mem_of_stored {table : List ρ} {k : κ} {row : ρ} (h : stored key table k = some row) : row ∈ table :=
  List.mem_of_find?_eq_some h

theorem stored_isSome_iff {table : List ρ} {k : κ} : (stored key table k).isSome ↔ ∃ row ∈ table, key row = k := by
  simp [stored, List.find?_isSome]

theorem stored_eq_none_iff {table : List ρ} {k : κ} : stored key table k = none ↔ ∀ row ∈ table, key row ≠ k := by
  simp [stored]

theorem stored_append (table rows : List ρ) (k : κ) :
    stored key (table ++ rows) k = (stored key table k).or (stored key rows k) := List.find?_append

theorem stored_cons (row : ρ) (rows : List ρ) (k : κ) :
    stored key (row :: rows) k = if key row = k then some row else stored key rows k := by
  rw [stored, List.find?_cons]
  by_cases hkey : key row = k
  · rw [if_pos hkey, decide_eq_true hkey]
  · rw [if_neg hkey, decide_eq_false hkey]
    rfl

theorem stored_insertNew (table : List ρ) (row : ρ) (k : κ) :
    stored key (insertNew key table row) k = (stored key table k).or (if key row = k then some row else none) := by
  rw [insertNew]
  split
  · next hstored =>
    by_cases hkey : key row = k
    · rw [← hkey]
      obtain ⟨first, hfirst⟩ := Option.isSome_iff_exists.1 hstored
      rw [hfirst]
      rfl
    · rw [if_neg hkey, Option.or_none]
  · rw [stored_append, stored_cons]
    rfl

/-- After rows are written, a key has its old row, or else the first row written under it. -/
theorem stored_insertAll (table rows : List ρ) (k : κ) :
    stored key (insertAll key table rows) k = (stored key table k).or (stored key rows k) := by
  induction rows generalizing table with
  | nil => rw [insertAll, List.foldl_nil, stored, stored, List.find?_nil, Option.or_none]
  | cons row rows ih =>
      have hstep : insertAll key table (row :: rows) = insertAll key (insertNew key table row) rows := rfl
      rw [hstep, ih, stored_insertNew, Option.or_assoc, stored_cons]
      congr 1
      by_cases hkey : key row = k
      · rw [if_pos hkey, if_pos hkey, Option.some_or]
      · rw [if_neg hkey, if_neg hkey, Option.none_or]

/-- Every row of a grown table was there or was written. -/
theorem mem_insertAll {table rows : List ρ} {row : ρ} (h : row ∈ insertAll key table rows) : row ∈ table ∨ row ∈ rows := by
  induction rows generalizing table with
  | nil => exact Or.inl h
  | cons first rows ih =>
      have hrest : row ∈ insertNew key table first ∨ row ∈ rows := ih h
      rcases hrest with htable | hrows
      · rw [insertNew] at htable
        split at htable
        · exact Or.inl htable
        · rcases List.mem_append.1 htable with hold | hnew
          · exact Or.inl hold
          · rw [List.mem_singleton.1 hnew]
            exact Or.inr (List.mem_cons_self ..)
      · exact Or.inr (List.mem_cons_of_mem _ hrows)

theorem insertNew_of_stored {table : List ρ} {row : ρ} (h : (stored key table (key row)).isSome) :
    insertNew key table row = table := if_pos h

theorem insertAll_append (table rows more : List ρ) :
    insertAll key table (rows ++ more) = insertAll key (insertAll key table rows) more := List.foldl_append

/-! ### Rows against a table -/

section Content

variable (key) (content : ρ → γ) [DecidableEq γ]

/-- The stored row of the key of `row` has other content. -/
def disagrees (table : List ρ) (row : ρ) : Bool := (stored key table (key row)).any fun first => content first ≠ content row

variable {key content}

theorem disagrees_iff {table : List ρ} {row : ρ} :
    disagrees key content table row = true ↔ ∃ first, stored key table (key row) = some first ∧ content first ≠ content row := by
  simp [disagrees, Option.any_eq_true]

theorem disagrees_congr {table table' : List ρ} {row : ρ} (h : stored key table (key row) = stored key table' (key row)) :
    disagrees key content table row = disagrees key content table' row := by
  rw [disagrees, disagrees, h]

/-- Rows that have one content for each key agree with one another. -/
theorem not_disagrees_of_unique {table : List ρ} {row : ρ}
    (h : ∀ first ∈ table, key first = key row → content first = content row) : disagrees key content table row = false := by
  rw [Bool.eq_false_iff]
  intro hdisagrees
  obtain ⟨first, hstored, hne⟩ := disagrees_iff.1 hdisagrees
  exact hne (h first (mem_of_stored hstored) (key_of_stored hstored))

end Content

end FirstWriter
