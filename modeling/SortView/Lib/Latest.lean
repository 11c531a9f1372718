import Mathlib.Data.List.Dedup
import Mathlib.Data.List.Pairwise
import Mathlib.Data.List.Sort

/-!
# The latest of each key

Items sorted by time of which the last of each key is kept: which items these are, whatever order equal times stand in.
-/

namespace Latest

variable {α κ : Type}

/-- An ordering of items by time, in which equal times stand in any order. -/
structure TimeSort (time : α → Int) where
  sort : List α → List α
  perm : ∀ items, (sort items).Perm items
  sorted : ∀ items, (sort items).Pairwise fun x y => time x ≤ time y

/-- No two items of one key share a time. -/
def Distinct (key : α → κ) (time : α → Int) (items : List α) : Prop :=
  items.Pairwise fun x y => key x = key y → time x ≠ time y

/-- The item is as late as any other of its key. -/
def IsLatest (key : α → κ) (time : α → Int) (items : List α) (x : α) : Prop :=
  x ∈ items ∧ ∀ y ∈ items, key y = key x → time y ≤ time x

variable {key : α → κ} {time : α → Int}

theorem IsLatest.perm {items other : List α} {x : α} (h : IsLatest key time items x) (hperm : items.Perm other) :
    IsLatest key time other x :=
  ⟨hperm.mem_iff.1 h.1, fun y hy hkey => h.2 y (hperm.mem_iff.2 hy) hkey⟩

theorem Distinct.perm {items other : List α} (h : Distinct key time items) (hperm : items.Perm other) : Distinct key time other :=
  hperm.pairwise h fun hxy hkey htime => hxy hkey.symm htime.symm

theorem Distinct.eq {items : List α} (h : Distinct key time items) {x y : α} (hx : x ∈ items) (hy : y ∈ items)
    (hkey : key x = key y) (htime : time x = time y) : x = y := by
  by_contra hne
  have hsymm : Std.Symm fun x y => key x = key y → time x ≠ time y := ⟨fun _ _ hxy hkey htime => hxy hkey.symm htime.symm⟩
  exact List.Pairwise.forall h hx hy hne hkey htime

section Last

variable [DecidableEq κ]

/-- `drop_duplicates(keep="last")`. -/
def keepLast (key : α → κ) : List α → List α
  | [] => []
  | x :: items => if items.any fun y => key y = key x then keepLast key items else x :: keepLast key items

/-- `sort_values` and `drop_duplicates(keep="last")`. -/
def latest (sorting : TimeSort time) (key : α → κ) (items : List α) : List α := keepLast key (sorting.sort items)

theorem keepLast_sublist : ∀ items : List α, (keepLast key items).Sublist items
  | [] => .slnil
  | x :: items => by
      rw [keepLast]
      split
      · exact (keepLast_sublist items).cons x
      · exact (keepLast_sublist items).cons_cons x

theorem nodup_keys_keepLast : ∀ items : List α, ((keepLast key items).map key).Nodup
  | [] => List.nodup_nil
  | x :: items => by
      rw [keepLast]
      split
      · exact nodup_keys_keepLast items
      · next hlast =>
        rw [List.map_cons, List.nodup_cons]
        refine ⟨?_, nodup_keys_keepLast items⟩
        intro hmem
        obtain ⟨y, hy, hkey⟩ := List.mem_map.1 hmem
        exact hlast (List.any_eq_true.2 ⟨y, (keepLast_sublist items).subset hy, decide_eq_true hkey⟩)

theorem exists_mem_keepLast {x : α} : ∀ {items : List α}, x ∈ items → ∃ y ∈ keepLast key items, key y = key x
  | first :: items, hx => by
      rw [keepLast]
      rcases List.mem_cons.1 hx with rfl | hx
      · split
        · next hlater =>
          obtain ⟨y, hy, hkey⟩ := List.any_eq_true.1 hlater
          obtain ⟨z, hz, hsame⟩ := exists_mem_keepLast hy
          exact ⟨z, hz, hsame.trans (of_decide_eq_true hkey)⟩
        · exact ⟨_, List.mem_cons_self .., rfl⟩
      · obtain ⟨y, hy, hkey⟩ := exists_mem_keepLast hx
        split
        · exact ⟨y, hy, hkey⟩
        · exact ⟨y, List.mem_cons_of_mem _ hy, hkey⟩

/-- In a sorted list the last of a key is its latest. -/
theorem le_of_mem_keepLast {x y : α} : ∀ {items : List α}, items.Pairwise (fun x y => time x ≤ time y) → x ∈ keepLast key items →
    y ∈ items → key y = key x → time y ≤ time x
  | first :: items, hsorted, hx, hy, hkey => by
      obtain ⟨hfirst, htail⟩ := List.pairwise_cons.1 hsorted
      rw [keepLast] at hx
      rcases List.mem_cons.1 hy with rfl | hlater
      · split at hx
        · exact hfirst x ((keepLast_sublist items).subset hx)
        · rcases List.mem_cons.1 hx with rfl | hx
          · exact le_refl _
          · exact hfirst x ((keepLast_sublist items).subset hx)
      · split at hx
        · exact le_of_mem_keepLast htail hx hlater hkey
        · next hlast =>
          rcases List.mem_cons.1 hx with rfl | hx
          · refine absurd ?_ hlast
            exact List.any_eq_true.2 ⟨y, hlater, decide_eq_true hkey⟩
          · exact le_of_mem_keepLast htail hx hlater hkey

/-- What is kept are the latest items. -/
theorem mem_latest_iff (sorting : TimeSort time) {items : List α} (hdistinct : Distinct key time items) {x : α} :
    x ∈ latest sorting key items ↔ IsLatest key time items x := by
  have hperm := sorting.perm items
  constructor
  · intro hx
    have hkept : x ∈ keepLast key (sorting.sort items) := hx
    refine ⟨hperm.mem_iff.1 ((keepLast_sublist _).subset hkept), ?_⟩
    intro y hy hkey
    exact le_of_mem_keepLast (sorting.sorted items) hkept (hperm.mem_iff.2 hy) hkey
  · rintro ⟨hx, hlatest⟩
    have hkept : ∃ y ∈ keepLast key (sorting.sort items), key y = key x := exists_mem_keepLast (hperm.mem_iff.2 hx)
    obtain ⟨y, hy, hkey⟩ := hkept
    have hmem := hperm.mem_iff.1 ((keepLast_sublist _).subset hy)
    have hle := le_of_mem_keepLast (sorting.sorted items) hy (hperm.mem_iff.2 hx) hkey.symm
    have heq := hdistinct.eq hx hmem hkey.symm (le_antisymm hle (hlatest y hmem hkey))
    exact heq ▸ hy

/-- Every item has a latest one of its key. -/
theorem exists_isLatest (sorting : TimeSort time) {items : List α} (hdistinct : Distinct key time items) {x : α} (hx : x ∈ items) :
    ∃ y, IsLatest key time items y ∧ key y = key x := by
  have hkept : ∃ y ∈ keepLast key (sorting.sort items), key y = key x := exists_mem_keepLast ((sorting.perm items).mem_iff.2 hx)
  obtain ⟨y, hy, hkey⟩ := hkept
  exact ⟨y, (mem_latest_iff sorting hdistinct).1 hy, hkey⟩

/-- A selection that has the latest item of a key has the same latest one. -/
theorem isLatest_filter_iff (sorting : TimeSort time) {items : List α} (hdistinct : Distinct key time items) {read : α → Bool} {x : α}
    (hread : ∀ y, IsLatest key time items y → key y = key x → read y = true) :
    IsLatest key time (items.filter read) x ↔ IsLatest key time items x := by
  constructor
  · rintro ⟨hx, hlatest⟩
    have hmem := (List.mem_filter.1 hx).1
    obtain ⟨last, hlast, hkey⟩ := exists_isLatest sorting hdistinct hmem
    have hle := hlatest last (List.mem_filter.2 ⟨hlast.1, hread last hlast hkey⟩) hkey
    refine ⟨hmem, ?_⟩
    intro y hy hsame
    exact (hlast.2 y hy (hsame.trans hkey.symm)).trans hle
  · intro hx
    refine ⟨List.mem_filter.2 ⟨hx.1, hread x hx rfl⟩, ?_⟩
    intro y hy hkey
    exact hx.2 y (List.mem_filter.1 hy).1 hkey

theorem nodup_latest (sorting : TimeSort time) (items : List α) : ((latest sorting key items).map key).Nodup :=
  nodup_keys_keepLast _

/-- The order of the items does not matter. -/
theorem latest_perm (sorting : TimeSort time) {items other : List α} (hperm : items.Perm other)
    (hdistinct : Distinct key time items) : (latest sorting key items).Perm (latest sorting key other) := by
  rw [List.perm_ext_iff_of_nodup (nodup_latest sorting items).of_map (nodup_latest sorting other).of_map]
  intro x
  rw [mem_latest_iff sorting hdistinct, mem_latest_iff sorting (hdistinct.perm hperm), IsLatest, IsLatest, hperm.mem_iff]
  simp only [hperm.mem_iff]

/-- The one item of a key. -/
theorem find?_latest_eq_some_iff (sorting : TimeSort time) {items : List α} (hdistinct : Distinct key time items) {k : κ} {x : α} :
    (latest sorting key items).find? (fun y => key y = k) = some x ↔ key x = k ∧ IsLatest key time items x := by
  rw [← mem_latest_iff sorting hdistinct]
  constructor
  · intro h
    have hkey := List.find?_some h
    exact ⟨of_decide_eq_true hkey, List.mem_of_find?_eq_some h⟩
  · rintro ⟨rfl, hx⟩
    cases hfind : (latest sorting key items).find? fun y => key y = key x with
    | none => exact absurd (decide_eq_true rfl) (List.find?_eq_none.1 hfind x hx)
    | some y =>
        have hkey := List.find?_some hfind
        rw [List.inj_on_of_nodup_map (nodup_latest sorting items) (List.mem_of_find?_eq_some hfind) hx (of_decide_eq_true hkey)]

end Last

theorem sorted_insertionSort (time : α → Int) (items : List α) :
    (items.insertionSort fun x y => time x ≤ time y).Pairwise fun x y => time x ≤ time y := by
  have htotal : Std.Total fun x y : α => time x ≤ time y := ⟨fun x y => le_total _ _⟩
  have htrans : IsTrans α fun x y => time x ≤ time y := ⟨fun _ _ _ => le_trans⟩
  exact List.pairwise_insertionSort _ items

/-- Insertion by time. -/
def insertionTimeSort (time : α → Int) : TimeSort time where
  sort := List.insertionSort fun x y => time x ≤ time y
  perm := List.perm_insertionSort _
  sorted := sorted_insertionSort time

end Latest
