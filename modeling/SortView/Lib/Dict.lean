import Mathlib.Data.List.Nodup
import Mathlib.Tactic.Common

/-!
# Dictionaries that keep the order of insertion

Python's `dict`: setting a key that is there keeps its place, setting a new key appends it. The entries
are a list with distinct keys.
-/

structure Dict (κ ν : Type) where
  entries : List (κ × ν)
  nodup : (entries.map Prod.fst).Nodup

namespace Dict

variable {κ ν : Type} [DecidableEq κ]

def empty : Dict κ ν := ⟨[], List.nodup_nil⟩

def keys (d : Dict κ ν) : List κ := d.entries.map Prod.fst

/-- `d.get(key)`. -/
def get? (d : Dict κ ν) (key : κ) : Option ν := (d.entries.find? fun entry => entry.1 = key).map Prod.snd

/-- The entries of `d[key] = value`. -/
def setEntries (key : κ) (value : ν) : List (κ × ν) → List (κ × ν)
  | [] => [(key, value)]
  | entry :: entries =>
      if entry.1 = key then (key, value) :: entries else entry :: setEntries key value entries

theorem mem_map_fst_setEntries (key : κ) (value : ν) (entries : List (κ × ν)) (other : κ) :
    other ∈ (setEntries key value entries).map Prod.fst ↔ other = key ∨ other ∈ entries.map Prod.fst := by
  induction entries with
  | nil => simp [setEntries]
  | cons entry entries ih =>
      rw [setEntries]
      split
      · next heq => simp [heq]
      · rw [List.map_cons, List.mem_cons, ih, List.map_cons, List.mem_cons]
        exact or_left_comm

theorem setEntries_nodup (key : κ) (value : ν) {entries : List (κ × ν)} (hnodup : (entries.map Prod.fst).Nodup) :
    ((setEntries key value entries).map Prod.fst).Nodup := by
  induction entries with
  | nil => simp [setEntries]
  | cons entry entries ih =>
      rw [List.map_cons, List.nodup_cons] at hnodup
      rw [setEntries]
      split
      · next heq =>
        rw [List.map_cons, List.nodup_cons]
        exact ⟨heq ▸ hnodup.1, hnodup.2⟩
      · next hne =>
        rw [List.map_cons, List.nodup_cons, mem_map_fst_setEntries, not_or]
        exact ⟨⟨hne, hnodup.1⟩, ih hnodup.2⟩

/-- `d[key] = value`. -/
def set (d : Dict κ ν) (key : κ) (value : ν) : Dict κ ν :=
  ⟨setEntries key value d.entries, setEntries_nodup key value d.nodup⟩

/-- `d.pop(key, None)`. -/
def erase (d : Dict κ ν) (key : κ) : Dict κ ν :=
  ⟨d.entries.filter fun entry => entry.1 ≠ key, d.nodup.sublist (List.filter_sublist.map _)⟩

theorem get?_eq_some_iff (d : Dict κ ν) (key : κ) (value : ν) : d.get? key = some value ↔ (key, value) ∈ d.entries := by
  obtain ⟨entries, hnodup⟩ := d
  rw [get?]
  dsimp only at *
  induction entries with
  | nil => simp
  | cons entry entries ih =>
      obtain ⟨first, other⟩ := entry
      rw [List.map_cons, List.nodup_cons] at hnodup
      rw [List.find?_cons]
      by_cases hkey : first = key
      · subst hkey
        simp only [decide_true, Option.map_some, Option.some.injEq, List.mem_cons, Prod.mk.injEq, true_and]
        constructor
        · intro hvalue
          exact Or.inl hvalue.symm
        · rintro (hvalue | hmem)
          · exact hvalue.symm
          · exact absurd (List.mem_map_of_mem (f := Prod.fst) hmem) hnodup.1
      · simp only [hkey, decide_false, List.mem_cons, Prod.mk.injEq, ih hnodup.2]
        constructor
        · intro hmem
          exact Or.inr hmem
        · rintro (⟨heq, _⟩ | hmem)
          · exact absurd heq.symm hkey
          · exact hmem

theorem get?_eq_none_iff (d : Dict κ ν) (key : κ) : d.get? key = none ↔ key ∉ d.keys := by
  rw [Option.eq_none_iff_forall_ne_some]
  constructor
  · intro hnone hmem
    obtain ⟨⟨first, value⟩, hentry, rfl⟩ := List.mem_map.1 hmem
    exact hnone value ((get?_eq_some_iff d first value).2 hentry)
  · intro hnot value hsome
    exact hnot (List.mem_map.2 ⟨(key, value), (get?_eq_some_iff d key value).1 hsome, rfl⟩)

@[simp] theorem get?_empty (key : κ) : (empty : Dict κ ν).get? key = none := rfl

theorem find?_setEntries (key other : κ) (value : ν) (entries : List (κ × ν)) :
    ((setEntries key value entries).find? fun entry => entry.1 = other).map Prod.snd
      = if other = key then some value else (entries.find? fun entry => entry.1 = other).map Prod.snd := by
  induction entries with
  | nil =>
      by_cases hother : other = key
      · simp [setEntries, hother]
      · have hne : key ≠ other := fun h => hother h.symm
        simp [setEntries, hother, hne]
  | cons entry entries ih =>
      rw [setEntries]
      split
      · next heq =>
        by_cases hother : other = key
        · simp [hother]
        · have hne : key ≠ other := fun h => hother h.symm
          simp [hother, hne, heq]
      · next hne =>
        rw [List.find?_cons, List.find?_cons]
        by_cases hfirst : entry.1 = other
        · have hother : other ≠ key := fun h => hne (hfirst.trans h)
          simp [hfirst, hother]
        · simpa [hfirst] using ih

theorem get?_set (d : Dict κ ν) (key other : κ) (value : ν) :
    (d.set key value).get? other = if other = key then some value else d.get? other :=
  find?_setEntries key other value d.entries

@[simp] theorem get?_set_self (d : Dict κ ν) (key : κ) (value : ν) : (d.set key value).get? key = some value := by
  rw [get?_set, if_pos rfl]

theorem get?_set_of_ne (d : Dict κ ν) {key other : κ} (value : ν) (hne : other ≠ key) :
    (d.set key value).get? other = d.get? other := by
  rw [get?_set, if_neg hne]

theorem get?_erase (d : Dict κ ν) (key other : κ) :
    (d.erase key).get? other = if other = key then none else d.get? other := by
  rw [get?, erase, get?, List.find?_filter]
  by_cases hother : other = key
  · subst hother
    simp
  · rw [if_neg hother]
    congr 2
    funext entry
    by_cases hentry : entry.1 = other
    · simp [hentry, hother]
    · simp [hentry]

/-! ### Rows by a key -/

/-- `{key(row): row for row in rows}`. -/
def indexBy {α : Type} (keyOf : α → κ) (rows : List α) : Dict κ α := rows.foldl (fun d row => d.set (keyOf row) row) empty

theorem get?_foldl_set {α : Type} {keyOf : α → κ} {rows : List α} (hnodup : (rows.map keyOf).Nodup) (d : Dict κ α) (key : κ) (row : α) :
    (rows.foldl (fun d row => d.set (keyOf row) row) d).get? key = some row
      ↔ (row ∈ rows ∧ keyOf row = key) ∨ (key ∉ rows.map keyOf ∧ d.get? key = some row) := by
  induction rows generalizing d with
  | nil => simp
  | cons first rows ih =>
      rw [List.map_cons, List.nodup_cons] at hnodup
      rw [List.foldl_cons, ih hnodup.2, get?_set, List.map_cons, List.mem_cons, List.mem_cons, not_or]
      by_cases hkey : key = keyOf first
      · subst hkey
        rw [if_pos rfl, Option.some.injEq]
        constructor
        · rintro (⟨hmem, heq⟩ | ⟨-, rfl⟩)
          · exact Or.inl ⟨Or.inr hmem, heq⟩
          · exact Or.inl ⟨Or.inl rfl, rfl⟩
        · rintro (⟨rfl | hmem, heq⟩ | ⟨⟨hne, -⟩, -⟩)
          · exact Or.inr ⟨hnodup.1, rfl⟩
          · exact Or.inl ⟨hmem, heq⟩
          · exact absurd rfl hne
      · rw [if_neg hkey]
        constructor
        · rintro (⟨hmem, heq⟩ | ⟨hnot, hget⟩)
          · exact Or.inl ⟨Or.inr hmem, heq⟩
          · exact Or.inr ⟨⟨hkey, hnot⟩, hget⟩
        · rintro (⟨rfl | hmem, heq⟩ | ⟨⟨-, hnot⟩, hget⟩)
          · exact absurd heq.symm hkey
          · exact Or.inl ⟨hmem, heq⟩
          · exact Or.inr ⟨hnot, hget⟩

/-- Rows with distinct keys are found by them. -/
theorem get?_indexBy {α : Type} {keyOf : α → κ} {rows : List α} (hnodup : (rows.map keyOf).Nodup) (key : κ) (row : α) :
    (indexBy keyOf rows).get? key = some row ↔ row ∈ rows ∧ keyOf row = key := by
  rw [indexBy, get?_foldl_set hnodup]
  simp

/-- The keys of a dictionary that items are set in. -/
theorem mem_keys_foldl_set {α : Type} (keyOf : α → κ) (valueOf : α → ν) (items : List α) (d : Dict κ ν) (key : κ) :
    key ∈ (items.foldl (fun d item => d.set (keyOf item) (valueOf item)) d).keys ↔ key ∈ d.keys ∨ ∃ item ∈ items, keyOf item = key := by
  induction items generalizing d with
  | nil => simp
  | cons item items ih =>
      have hset : key ∈ (d.set (keyOf item) (valueOf item)).keys ↔ key = keyOf item ∨ key ∈ d.keys :=
        mem_map_fst_setEntries (keyOf item) (valueOf item) d.entries key
      rw [List.foldl_cons, ih, hset]
      simp only [List.mem_cons, exists_eq_or_imp]
      rw [or_assoc, or_left_comm, eq_comm]

end Dict
