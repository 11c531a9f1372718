import Mathlib.Data.List.Perm.Basic
import Mathlib.Data.List.Nodup
import Mathlib.Tactic.Common

/-!
# Removing items by position

A list without the items at some positions, and what goes when they are the first positions of a kind.
-/

namespace Removal

variable {α β : Type}

/-- The items at the positions that are not dropped. -/
def keptAt (items : List α) (dropped : List Nat) : List α := (items.zipIdx.filter fun entry => !dropped.contains entry.2).map Prod.fst

/-- The items at the positions that are dropped. -/
def removedAt (items : List α) (dropped : List Nat) : List α := (items.zipIdx.filter fun entry => dropped.contains entry.2).map Prod.fst

/-- The positions at which a test holds. -/
def positionsOf (test : α × Nat → Bool) (items : List α) : List Nat := (items.zipIdx.filter test).map Prod.snd

/-! ### Any positions -/

theorem keptAt_sublist (items : List α) (dropped : List Nat) : (keptAt items dropped).Sublist items := by
  have hall : items.zipIdx.map Prod.fst = items := List.zipIdx_map_fst ..
  have hsub : (keptAt items dropped).Sublist (items.zipIdx.map Prod.fst) := List.filter_sublist.map _
  rwa [hall] at hsub

theorem removedAt_append_keptAt (items : List α) (dropped : List Nat) : (removedAt items dropped ++ keptAt items dropped).Perm items := by
  have hall : items.zipIdx.map Prod.fst = items := List.zipIdx_map_fst ..
  have hperm := (List.filter_append_perm (fun entry : α × Nat => dropped.contains entry.2) items.zipIdx).map Prod.fst
  rw [hall, List.map_append] at hperm
  exact hperm

theorem keptAt_map (f : α → β) (items : List α) (dropped : List Nat) : keptAt (items.map f) dropped = (keptAt items dropped).map f := by
  rw [keptAt, keptAt, List.zipIdx_map, List.filter_map, List.map_map, List.map_map]
  rfl

theorem keptAt_nil (items : List α) : keptAt items [] = items := by
  have hall : items.zipIdx.filter (fun entry => !([] : List Nat).contains entry.2) = items.zipIdx := List.filter_eq_self.2 fun _ _ => rfl
  rw [keptAt, hall]
  exact List.zipIdx_map_fst ..

/-- What is found first is still found first, when it stays. -/
theorem find?_keptAt {items : List α} {dropped : List Nat} {found : α → Bool}
    (hstays : ∀ entry ∈ items.zipIdx, items.find? found = some entry.1 → entry.2 ∉ dropped) :
    (keptAt items dropped).find? found = items.find? found := by
  cases hfind : items.find? found with
  | none =>
      rw [List.find?_eq_none] at hfind ⊢
      exact fun item hitem => hfind item ((keptAt_sublist items dropped).subset hitem)
  | some first =>
      have hfirst := hfind
      obtain ⟨hfound, before, after, rfl, hbefore⟩ := List.find?_eq_some_iff_append.1 hfind
      have hentry : (first, before.length) ∈ (before ++ first :: after).zipIdx :=
        List.mem_zipIdx_iff_getElem?.2 (by simp)
      have hnot : before.length ∉ dropped := hstays _ hentry hfirst
      have hsplit : keptAt (before ++ first :: after) dropped
          = ((before.zipIdx.filter fun entry => !dropped.contains entry.2).map Prod.fst) ++ first
            :: ((after.zipIdx (before.length + 1)).filter fun entry => !dropped.contains entry.2).map Prod.fst := by
        rw [keptAt, List.zipIdx_append, List.zipIdx_cons, List.filter_append, List.map_append, List.filter_cons_of_pos, List.map_cons,
          Nat.zero_add]
        simpa using hnot
      rw [hsplit, List.find?_append, List.find?_eq_none.2, Option.none_or, List.find?_cons_of_pos hfound]
      intro item hitem
      obtain ⟨entry, hmem, rfl⟩ := List.mem_map.1 hitem
      simpa using hbefore _ (List.fst_mem_of_mem_zipIdx (List.mem_of_mem_filter hmem))

/-! ### The first positions of a kind -/

theorem entry_eq {items : List α} {left right : α × Nat} (hleft : left ∈ items.zipIdx) (hright : right ∈ items.zipIdx)
    (h : left.2 = right.2) : left = right := by
  have hl := List.mem_zipIdx_iff_getElem?.1 hleft
  have hr := List.mem_zipIdx_iff_getElem?.1 hright
  rw [h, hr] at hl
  exact Prod.ext (Option.some.inj hl).symm h

theorem nodup_positionsOf (test : α × Nat → Bool) (items : List α) : (positionsOf test items).Nodup := by
  have hall : (items.zipIdx.map Prod.snd).Nodup := by
    rw [List.zipIdx_map_snd]
    exact List.nodup_range'
  exact hall.sublist (List.filter_sublist.map _)

theorem lt_of_mem_positionsOf {test : α × Nat → Bool} {items : List α} {position : Nat} (h : position ∈ positionsOf test items) :
    position < items.length := by
  obtain ⟨entry, hentry, rfl⟩ := List.mem_map.1 h
  have hlt := List.snd_lt_of_mem_zipIdx (List.mem_of_mem_filter hentry)
  rwa [Nat.add_zero] at hlt

theorem mem_positionsOf_iff {test : α × Nat → Bool} {items : List α} {entry : α × Nat} (hentry : entry ∈ items.zipIdx) :
    entry.2 ∈ positionsOf test items ↔ test entry = true := by
  constructor
  · intro h
    obtain ⟨other, hother, hsame⟩ := List.mem_map.1 h
    rw [← entry_eq (List.mem_of_mem_filter hother) hentry hsame]
    exact (List.mem_filter.1 hother).2
  · exact fun h => List.mem_map_of_mem (List.mem_filter.2 ⟨hentry, h⟩)

/-- Every item that goes passed the test at its position. -/
theorem exists_of_mem_removedAt {test : α × Nat → Bool} {items : List α} {n : Nat} {item : α}
    (h : item ∈ removedAt items ((positionsOf test items).take n)) : ∃ position, (item, position) ∈ items.zipIdx ∧ test (item, position) = true := by
  obtain ⟨entry, hentry, rfl⟩ := List.mem_map.1 h
  obtain ⟨hmem, hdropped⟩ := List.mem_filter.1 hentry
  have hposition : entry.2 ∈ positionsOf test items := List.mem_of_mem_take (List.contains_iff_mem.1 hdropped)
  exact ⟨entry.2, hmem, (mem_positionsOf_iff hmem).1 hposition⟩

theorem length_removedAt (test : α × Nat → Bool) (items : List α) (n : Nat) :
    (removedAt items ((positionsOf test items).take n)).length = min n (positionsOf test items).length := by
  have hperm : ((items.zipIdx.filter fun entry => ((positionsOf test items).take n).contains entry.2).map Prod.snd).Perm
      ((positionsOf test items).take n) := by
    apply (List.perm_ext_iff_of_nodup (nodup_positionsOf _ items) ((nodup_positionsOf test items).sublist (List.take_sublist ..))).2
    intro position
    constructor
    · intro h
      obtain ⟨entry, hentry, rfl⟩ := List.mem_map.1 h
      exact List.contains_iff_mem.1 (List.mem_filter.1 hentry).2
    · intro h
      have hlt : position < items.length := lt_of_mem_positionsOf (List.mem_of_mem_take h)
      have hentry : (items[position], position) ∈ items.zipIdx := List.mem_zipIdx_iff_getElem?.2 (List.getElem?_eq_getElem hlt)
      exact List.mem_map.2 ⟨_, List.mem_filter.2 ⟨hentry, List.contains_iff_mem.2 h⟩, rfl⟩
  rw [removedAt, List.length_map, ← List.length_map Prod.snd, hperm.length_eq, List.length_take]

/-- Where all positions of the kind go, every item that passes the test goes. -/
theorem mem_removedAt {test : α × Nat → Bool} {items : List α} {n : Nat} (hn : (positionsOf test items).length ≤ n)
    {entry : α × Nat} (hentry : entry ∈ items.zipIdx) (htest : test entry = true) :
    entry.1 ∈ removedAt items ((positionsOf test items).take n) := by
  rw [List.take_of_length_le hn]
  exact List.mem_map_of_mem (List.mem_filter.2 ⟨hentry, List.contains_iff_mem.2 ((mem_positionsOf_iff hentry).2 htest)⟩)

end Removal
