import Mathlib.Data.List.Sort
import SortView.Lib.Dict
import SortView.Lib.Transactions

/-!
# Tables of rows by id

What statements do to a table, what one commit may do to it, and what an `UPDATE` of many rows has reached by
the time its transaction commits.
-/

namespace Tables

/-- The ids of the rows that match, lowest first. -/
def idsWhere {ν : Type} (table : Dict Nat ν) (holds : ν → Bool) : List Nat :=
  (table.keys.filter fun id => (table.get? id).any holds).insertionSort (· ≤ ·)

/-- One row changed, if it is there. -/
def adjust {ν : Type} (id : Nat) (update : ν → ν) (table : Dict Nat ν) : Dict Nat ν :=
  match table.get? id with
  | some row => table.set id (update row)
  | none => table

/-- The rows with these ids changed, one after another. -/
def adjustAll {ν : Type} (ids : List Nat) (update : ν → ν) (table : Dict Nat ν) : Dict Nat ν :=
  ids.foldl (fun table id => adjust id update table) table

theorem get?_single {ν : Type} {id other : Nat} {row found : ν} (h : (Dict.empty.set id row).get? other = some found) :
    other = id ∧ found = row := by
  rw [Dict.get?_set] at h
  split at h
  next heq =>
    cases h
    exact ⟨heq, rfl⟩
  next => cases h

/-! ### What one commit does -/

/-- What one commit does to a table: a row stays or changes as allowed, and at most one is added. -/
structure TableMoves {ν : Type} (changes : Nat → ν → ν → Prop) (adds : Nat → ν → Prop) (before after : Dict Nat ν) :
    Prop where
  kept : ∀ id row, before.get? id = some row → ∃ row', after.get? id = some row' ∧ (row' = row ∨ changes id row row')
  added : ∀ id row, before.get? id = none → after.get? id = some row → adds id row
  single : ∀ id id', before.get? id = none → before.get? id' = none → (after.get? id).isSome → (after.get? id').isSome →
    id = id'

variable {ν : Type} {changes : Nat → ν → ν → Prop} {adds : Nat → ν → Prop} {before after table : Dict Nat ν}

theorem TableMoves.same (h : after = before) : TableMoves changes adds before after where
  kept id row hrow := ⟨row, h ▸ hrow, .inl rfl⟩
  added id row hnone hsome := by
    rw [h, hnone] at hsome
    cases hsome
  single id id' hnone _ hsome _ := by
    rw [h, hnone] at hsome
    cases hsome

theorem TableMoves.mono {changes' : Nat → ν → ν → Prop} {adds' : Nat → ν → Prop} (h : TableMoves changes adds before after)
    (hchanges : ∀ id row row', changes id row row' → changes' id row row') (hadds : ∀ id row, adds id row → adds' id row) :
    TableMoves changes' adds' before after where
  kept id row hrow := by
    obtain ⟨row', hrow', hchange⟩ := h.kept id row hrow
    exact ⟨row', hrow', hchange.imp_right (hchanges id row row')⟩
  added id row hnone hrow := hadds id row (h.added id row hnone hrow)
  single := h.single

/-- A row of the table afterwards was there before, or is the one that was added. -/
theorem TableMoves.cases (h : TableMoves changes adds before after) {id : Nat} {row : ν} (hrow : after.get? id = some row) :
    (∃ old, before.get? id = some old ∧ (row = old ∨ changes id old row)) ∨ before.get? id = none ∧ adds id row := by
  cases hbefore : before.get? id with
  | none => exact .inr ⟨rfl, h.added id row hbefore hrow⟩
  | some old =>
      obtain ⟨row', hrow', hchange⟩ := h.kept id old hbefore
      rw [hrow] at hrow'
      cases hrow'
      exact .inl ⟨old, rfl, hchange⟩

theorem mem_idsWhere {holds : ν → Bool} {id : Nat} :
    id ∈ idsWhere table holds ↔ ∃ row, table.get? id = some row ∧ holds row = true := by
  simp only [idsWhere, List.mem_insertionSort, List.mem_filter, Option.any_eq_true]
  constructor
  · rintro ⟨_, hrow⟩
    exact hrow
  · rintro ⟨row, hrow, hholds⟩
    refine ⟨?_, row, hrow, hholds⟩
    by_contra hmem
    rw [(Dict.get?_eq_none_iff _ _).2 hmem] at hrow
    cases hrow

/-- A query of one row finds the only one that matches. -/
theorem find?_entries (holds : ν → Bool) {id : Nat} {row : ν} (hrow : table.get? id = some row) (hholds : holds row = true)
    (hunique : ∀ id' row', table.get? id' = some row' → holds row' = true → id' = id) :
    (table.entries.find? fun entry => holds entry.2).map Prod.fst = some id := by
  have hmem := (Dict.get?_eq_some_iff _ _ _).1 hrow
  cases hfound : table.entries.find? fun entry => holds entry.2 with
  | none => exact absurd hholds (List.find?_eq_none.1 hfound _ hmem)
  | some entry =>
      have hget := (Dict.get?_eq_some_iff _ _ _).2 (List.mem_of_find?_eq_some hfound)
      have hentry : holds entry.2 = true := by simpa using List.find?_some hfound
      rw [Option.map_some, hunique entry.1 entry.2 hget hentry]

theorem any_entries_eq_false {ν : Type} {table : Dict Nat ν} (holds : ν → Bool)
    (h : (table.entries.any fun entry => holds entry.2) = false) {id : Nat} {row : ν} (hrow : table.get? id = some row) :
    holds row = false := by
  have hmem := (Dict.get?_eq_some_iff _ _ _).1 hrow
  simpa using List.any_eq_false.1 h _ hmem

theorem get?_adjust (id other : Nat) (update : ν → ν) :
    (adjust id update table).get? other = if other = id then (table.get? other).map update else table.get? other := by
  unfold adjust
  split
  next row hrow =>
    rw [Dict.get?_set]
    split
    next heq => rw [heq, hrow, Option.map_some]
    next => rfl
  next hnone =>
    split
    next heq => rw [heq, hnone, Option.map_none]
    next => rfl

theorem get?_adjustAll {update : ν → ν} (hagain : ∀ row, update (update row) = update row) (ids : List Nat) (other : Nat) :
    (adjustAll ids update table).get? other = if other ∈ ids then (table.get? other).map update else table.get? other := by
  induction ids generalizing table with
  | nil => rfl
  | cons id ids ih =>
      show (adjustAll ids update (adjust id update table)).get? other = _
      rw [ih, get?_adjust]
      by_cases hmem : other ∈ ids <;> by_cases heq : other = id <;>
        simp [hmem, heq, Option.map_map, Function.comp_def, hagain]

theorem TableMoves.adjusted {update : ν → ν} {id : Nat} (h : ∀ row, table.get? id = some row → changes id row (update row)) :
    TableMoves changes adds table (adjust id update table) where
  kept other row hrow := by
    rw [get?_adjust]
    split
    next heq =>
      subst heq
      exact ⟨update row, by rw [hrow, Option.map_some], .inr (h row hrow)⟩
    next => exact ⟨row, hrow, .inl rfl⟩
  added other row hnone hsome := by
    rw [get?_adjust, hnone] at hsome
    split at hsome <;> cases hsome
  single other other' hnone _ hsome _ := by
    rw [get?_adjust, hnone] at hsome
    split at hsome <;> cases hsome

theorem TableMoves.swept {update : ν → ν} {ids : List Nat} (hagain : ∀ row, update (update row) = update row)
    (h : ∀ id ∈ ids, ∀ row, table.get? id = some row → changes id row (update row)) :
    TableMoves changes adds table (adjustAll ids update table) where
  kept other row hrow := by
    rw [get?_adjustAll hagain]
    split
    next hmem => exact ⟨update row, by rw [hrow, Option.map_some], .inr (h other hmem row hrow)⟩
    next => exact ⟨row, hrow, .inl rfl⟩
  added other row hnone hsome := by
    rw [get?_adjustAll hagain, hnone] at hsome
    split at hsome <;> cases hsome
  single other other' hnone _ hsome _ := by
    rw [get?_adjustAll hagain, hnone] at hsome
    split at hsome <;> cases hsome

/-- A row added to a table to which no other is. -/
theorem TableMoves.inserted {middle : Dict Nat ν} {id : Nat} {row : ν}
    (h : TableMoves changes (fun _ _ => False) before middle) (hfree : before.get? id = none) (hadds : adds id row) :
    TableMoves changes adds before (middle.set id row) where
  kept other old hold := by
    have hne : other ≠ id := fun heq => by
      rw [heq, hfree] at hold
      cases hold
    rw [Dict.get?_set_of_ne _ _ hne]
    exact h.kept other old hold
  added other new hnone hnew := by
    rw [Dict.get?_set] at hnew
    split at hnew
    next heq =>
      cases hnew
      exact heq ▸ hadds
    next => exact (h.added other new hnone hnew).elim
  single other other' hnone hnone' hsome hsome' := by
    have heq : ∀ next, before.get? next = none → ((middle.set id row).get? next).isSome → next = id := by
      intro next hnext hthere
      rw [Dict.get?_set] at hthere
      split at hthere
      next heq => exact heq
      next =>
        obtain ⟨new, hnew⟩ := Option.isSome_iff_exists.1 hthere
        exact (h.added next new hnext hnew).elim
    rw [heq other hnone hsome, heq other' hnone' hsome']

/-- What is unique in a table stays so, if no row changes it and none is added that has another's. -/
theorem TableMoves.unique {μ : Type} (value : ν → μ) (h : TableMoves changes adds before after)
    (hkeeps : ∀ id row row', changes id row row' → value row' = value row)
    (hadds : ∀ id row, adds id row → ∀ id' old, before.get? id' = some old → value old ≠ value row)
    (hunique : ∀ id id' row row', before.get? id = some row → before.get? id' = some row' → value row = value row' → id = id') :
    ∀ id id' row row', after.get? id = some row → after.get? id' = some row' → value row = value row' → id = id' := by
  have hcases : ∀ id row, after.get? id = some row →
      (∃ old, before.get? id = some old ∧ value old = value row) ∨ before.get? id = none ∧ adds id row := by
    intro id row hrow
    obtain ⟨old, hold, rfl | hchanges⟩ | hadded := h.cases hrow
    · exact .inl ⟨_, hold, rfl⟩
    · exact .inl ⟨old, hold, (hkeeps id old row hchanges).symm⟩
    · exact .inr hadded
  intro id id' row row' hrow hrow' hsame
  obtain ⟨old, hold, hvalue⟩ | ⟨hnone, hadded⟩ := hcases id row hrow <;>
    obtain ⟨old', hold', hvalue'⟩ | ⟨hnone', hadded'⟩ := hcases id' row' hrow'
  · exact hunique id id' old old' hold hold' (by rw [hvalue, hvalue', hsame])
  · exact absurd (hvalue.trans hsame) (hadds id' row' hadded' id old hold)
  · exact absurd (hvalue'.trans hsame.symm) (hadds id row hadded id' old' hold')
  · exact h.single id id' hnone hnone' (by simp [hrow]) (by simp [hrow'])

/-! ### What a sweep has reached -/

open Transactions Transactions.Protocol

section Sweeps

variable {σ κ ε α : Type} {protocol : Protocol σ κ α} {rows : σ → Dict Nat ν} {holds : σ → ν → Bool} {locks : Locks κ}
  {committed : σ}

/-- The rows that match are among these. -/
def MatchesWithin (rows : σ → Dict Nat ν) (holds : σ → ν → Bool) (allowed : Nat → Prop) (view : σ) : Prop :=
  ∀ id row, (rows view).get? id = some row → holds view row = true → allowed id

/-- Nothing that others commit makes a row match. -/
def Shrinks (protocol : Protocol σ κ α) (locks : Locks κ) (committed : σ) (rows : σ → Dict Nat ν)
    (holds : σ → ν → Bool) : Prop :=
  ∀ view next, protocol.Rely locks committed view → protocol.inv view → protocol.Other locks view next →
    ∀ id row, (rows next).get? id = some row → holds next row = true →
      ∃ old, (rows view).get? id = some old ∧ holds view old = true

theorem Shrinks.later (h : Shrinks protocol locks committed rows holds) {allowed : Nat → Prop} {view later : σ}
    (hview : protocol.Rely locks committed view) (hinv : protocol.inv view) (hlater : protocol.Rely locks view later)
    (hwithin : MatchesWithin rows holds allowed view) : MatchesWithin rows holds allowed later := by
  induction hlater with
  | refl => exact hwithin
  | tail hfirst hlast ih =>
      intro id row hrow hholds
      obtain ⟨old, hold, hmatched⟩ := h _ _ (hview.trans hfirst) (Rely.inv hfirst hinv) hlast id row hrow hholds
      exact ih id old hold hmatched

/-- All rows that match are changed by a sweep, or were before, and if nothing that others commit makes one match,
none will that is not among them. -/
theorem wp_sweepTable (rows : σ → Dict Nat ν) (holds : σ → ν → Bool) (done : List Nat)
    {post : List Nat → Locks κ → (σ → σ) → σ → Prop} {find : σ → List Nat} {lockOf : Nat → κ} {mode : Mode}
    {again : Nat → σ → Bool} {update : Nat → σ → σ} {redo : σ → σ}
    (hother : ∀ left right view, left ≠ right → again left (update right view) = again left view)
    (hfind : ∀ view id row, (rows view).get? id = some row → holds view row = true → id ∈ done ∨ id ∈ find (redo view))
    (hagain : ∀ view id row, again id (redo view) = false → (rows view).get? id = some row → holds view row = true →
      id ∈ done)
    (h : ∀ before now more changed, protocol.Rely locks committed before → protocol.inv before →
      protocol.Rely locks before now → protocol.inv now → locks ⊆ more → changed ⊆ find (redo before) →
      (∀ next ∈ changed, (lockOf next, mode) ∈ more) → (Shrinks protocol locks committed rows holds → ∀ later,
        protocol.Rely more now later → MatchesWithin rows holds (fun id => id ∈ done ∨ id ∈ changed) later) →
      post changed more ((fun view => changed.foldl (fun view next => update next view) view) ∘ redo) now) :
    protocol.Wp post (Tx.sweep find lockOf mode again update : Tx σ κ ε (List Nat)) locks redo committed := by
  refine wp_sweep hother fun before now more changed hbefore hbeforeInv hnow hnowInv hmore hchanged hlocked hseen => ?_
  refine h before now more changed hbefore hbeforeInv hnow hnowInv hmore hchanged
    (fun next hmem => hlocked next (hchanged hmem)) fun hshrinks later hlater => ?_
  refine hshrinks.later (hbefore.trans hnow) hnowInv (Rely.mono hlater hmore) fun id row hrow hholds => ?_
  by_contra hnot
  rw [not_or] at hnot
  have hfound : id ∈ done ∨ id ∈ find (redo before) := by
    have hwithin : MatchesWithin rows holds (fun id => id ∈ done ∨ id ∈ find (redo before)) before := hfind before
    exact hshrinks.later hbefore hbeforeInv hnow hwithin id row hrow hholds
  obtain ⟨seen, hthen, hlater, hseenInv, hfalse⟩ := hseen id (hfound.resolve_left hnot.1) hnot.2
  have hwithin : MatchesWithin rows holds (fun other => other ≠ id) seen := by
    intro other old hold hmatched heq
    subst heq
    exact hnot.1 (hagain seen other old hfalse hold hmatched)
  exact hshrinks.later (hbefore.trans hthen) hseenInv hlater hwithin id row hrow hholds rfl

/-- The rows that are there when a sweep begins are among those that it changes, or do not match any more, if no row is
ever removed and none comes to match. -/
theorem wp_sweepPresent (rows : σ → Dict Nat ν) (live : ν → Bool) {post : List Nat → Locks κ → (σ → σ) → σ → Prop}
    {find : σ → List Nat} {lockOf : Nat → κ} {mode : Mode} {again : Nat → σ → Bool} {update : Nat → σ → σ} {redo : σ → σ}
    (hother : ∀ left right view, left ≠ right → again left (update right view) = again left view)
    (hkeeps : ∀ view later, protocol.Rely locks view later → protocol.inv view → ∀ id row, (rows view).get? id = some row →
      ∃ row', (rows later).get? id = some row' ∧ (live row = false → live row' = false))
    (hfind : ∀ view id row, (rows view).get? id = some row → live row = true → id ∈ find (redo view))
    (hagain : ∀ view id row, again id (redo view) = false → (rows view).get? id = some row → live row = false)
    (hinv : protocol.inv committed)
    (h : ∀ now more changed, protocol.Rely locks committed now → protocol.inv now → locks ⊆ more →
      (∀ next ∈ changed, (lockOf next, mode) ∈ more) →
      (∀ id row row', (rows committed).get? id = some row → (rows now).get? id = some row' → id ∈ changed ∨ live row' = false) →
      post changed more ((fun view => changed.foldl (fun view next => update next view) view) ∘ redo) now) :
    protocol.Wp post (Tx.sweep find lockOf mode again update : Tx σ κ ε (List Nat)) locks redo committed := by
  refine wp_sweep hother fun before now more changed hbefore hbeforeInv hnow hnowInv hmore hchanged hlocked hseen => ?_
  refine h now more changed (hbefore.trans hnow) hnowInv hmore (fun next hmem => hlocked next (hchanged hmem)) ?_
  intro id row row' hrow hrow'
  obtain ⟨found, hfound, _⟩ := hkeeps committed before hbefore hinv id row hrow
  -- a row that does not match at some point does not match when the sweep is over
  have hover : ∀ seen old, protocol.Rely locks seen now → protocol.inv seen → (rows seen).get? id = some old →
      live old = false → live row' = false := by
    intro seen old hlater hseenInv hold hdead
    obtain ⟨last, hlast, hkept⟩ := hkeeps seen now hlater hseenInv id old hold
    rw [hrow'] at hlast
    cases hlast
    exact hkept hdead
  cases hlive : live found with
  | false => exact .inr (hover before found hnow hbeforeInv hfound hlive)
  | true =>
      refine or_iff_not_imp_left.2 fun hnot => ?_
      obtain ⟨seen, hthen, hlater, hseenInv, hfalse⟩ := hseen id (hfind before id found hfound hlive) hnot
      obtain ⟨old, hold, _⟩ := hkeeps before seen hthen hbeforeInv id found hfound
      exact hover seen old hlater hseenInv hold (hagain seen id old hfalse hold)

end Sweeps

end Tables
