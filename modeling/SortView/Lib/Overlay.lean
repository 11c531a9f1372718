import SortView.Lib.Dict

/-!
# Dictionaries laid over dictionaries

Staged changes held in a dictionary beside the stored one, and what is stored when they are written: each key once,
so a key ends as its own change leaves it.
-/

namespace Dict

variable {κ ν ω : Type} [DecidableEq κ]

/-- The entries whose key and value match. -/
def filter (d : Dict κ ν) (p : κ × ν → Bool) : Dict κ ν :=
  ⟨d.entries.filter p, d.nodup.sublist (List.filter_sublist.map _)⟩

theorem get?_filter (d : Dict κ ν) (p : κ × ν → Bool) (key : κ) :
    (d.filter p).get? key = (d.get? key).filter fun value => p (key, value) := by
  ext value
  rw [get?_eq_some_iff, Option.filter_eq_some_iff, get?_eq_some_iff]
  exact List.mem_filter

/-- One key changed by a function of what is there: a value to set, or `none` to remove the key. -/
def alter (d : Dict κ ν) (key : κ) (f : Option ν → Option ν) : Dict κ ν :=
  match f (d.get? key) with
  | some value => d.set key value
  | none => d.erase key

theorem get?_alter (d : Dict κ ν) (key other : κ) (f : Option ν → Option ν) :
    (d.alter key f).get? other = if other = key then f (d.get? key) else d.get? other := by
  rw [alter]
  cases f (d.get? key) with
  | none => exact get?_erase d key other
  | some value => exact get?_set d key other value

/-- Every change of an overlay written, one after another. -/
def alterAll (f : κ → ω → Option ν → Option ν) (overlay : Dict κ ω) (d : Dict κ ν) : Dict κ ν :=
  overlay.entries.foldl (fun d entry => d.alter entry.1 (f entry.1 entry.2)) d

theorem get?_foldl_alter_of_not_mem {f : κ → ω → Option ν → Option ν} {entries : List (κ × ω)} {key : κ}
    (hkey : key ∉ entries.map Prod.fst) (d : Dict κ ν) :
    (entries.foldl (fun d entry => d.alter entry.1 (f entry.1 entry.2)) d).get? key = d.get? key := by
  induction entries generalizing d with
  | nil => rfl
  | cons entry entries ih =>
      rw [List.map_cons, List.mem_cons, not_or] at hkey
      rw [List.foldl_cons, ih hkey.2, get?_alter, if_neg hkey.1]

/-- What a key holds after an overlay is written: its change applied once, or what it held. -/
theorem get?_alterAll (f : κ → ω → Option ν → Option ν) (overlay : Dict κ ω) (d : Dict κ ν) (key : κ) :
    (alterAll f overlay d).get? key = match overlay.get? key with
      | some change => f key change (d.get? key)
      | none => d.get? key := by
  obtain ⟨entries, hnodup⟩ := overlay
  show (entries.foldl (fun d entry => d.alter entry.1 (f entry.1 entry.2)) d).get? key =
    match (entries.find? fun entry => entry.1 = key).map Prod.snd with
      | some change => f key change (d.get? key)
      | none => d.get? key
  induction entries generalizing d with
  | nil => rfl
  | cons entry entries ih =>
      rw [List.map_cons, List.nodup_cons] at hnodup
      rw [List.foldl_cons, List.find?_cons]
      by_cases hkey : entry.1 = key
      · subst hkey
        rw [get?_foldl_alter_of_not_mem hnodup.1, get?_alter, if_pos rfl, decide_eq_true rfl]
        rfl
      · rw [ih _ hnodup.2, get?_alter, if_neg fun h => hkey h.symm, decide_eq_false hkey]

/-- The values of a dictionary whose values name their own keys. -/
theorem mem_map_snd_iff {d : Dict κ ν} {keyOf : ν → κ} (hkeyed : ∀ key value, d.get? key = some value → keyOf value = key)
    {value : ν} : value ∈ d.entries.map Prod.snd ↔ d.get? (keyOf value) = some value := by
  constructor
  · intro hmem
    obtain ⟨entry, hentry, rfl⟩ := List.mem_map.1 hmem
    have hget := (get?_eq_some_iff d entry.1 entry.2).2 hentry
    rw [hkeyed _ _ hget]
    exact hget
  · intro hget
    exact List.mem_map.2 ⟨_, (get?_eq_some_iff d _ _).1 hget, rfl⟩

theorem nodup_map_keyOf {d : Dict κ ν} {keyOf : ν → κ} (hkeyed : ∀ key value, d.get? key = some value → keyOf value = key) :
    ((d.entries.map Prod.snd).map keyOf).Nodup := by
  have hsame : (d.entries.map Prod.snd).map keyOf = d.entries.map Prod.fst := by
    rw [List.map_map]
    apply List.map_congr_left
    intro entry hentry
    exact hkeyed _ _ ((get?_eq_some_iff d entry.1 entry.2).2 hentry)
  rw [hsame]
  exact d.nodup

end Dict
