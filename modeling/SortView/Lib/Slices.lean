import Mathlib.Data.List.Basic
import Mathlib.Data.List.TakeDrop
import Mathlib.Data.List.Infix
import Mathlib.Tactic.Common

/-!
# Cutting a list into slices, and a sorted list at a key

`slices` cuts a list into consecutive slices of a given size. The lemmas on lists with increasing keys
say that filtering by an interval of keys and cutting the list at a key are the same.
-/

namespace Slices

variable {α : Type}

/-- `items[i * size : i * size + size]`. -/
def slice (items : List α) (size i : Nat) : List α := (items.drop (i * size)).take size

/-- The number of slices that hold `total` items: `-(-total // size)`. -/
def sliceCount (total size : Nat) : Nat := (total + size - 1) / size

/-- `[items[i : i + size] for i in range(0, len(items), size)]`. -/
def slices (items : List α) (size : Nat) : List (List α) :=
  (List.range (sliceCount items.length size)).map (slice items size)

theorem flatMap_slice (items : List α) (size count : Nat) :
    (List.range count).flatMap (slice items size) = items.take (count * size) := by
  induction count with
  | zero => simp
  | succ count ih =>
      rw [List.range_succ, List.flatMap_append, ih, List.flatMap_singleton, slice, Nat.succ_mul, List.take_add]

theorem le_sliceCount_mul (total : Nat) {size : Nat} (hsize : 1 ≤ size) : total ≤ sliceCount total size * size := by
  have hmod := Nat.mod_lt (total + size - 1) (by omega : size > 0)
  have hdiv := Nat.div_add_mod' (total + size - 1) size
  rw [sliceCount]
  omega

theorem take_sliceCount {items : List α} {total size : Nat} (hsize : 1 ≤ size) (hle : items.length ≤ total) :
    items.take (sliceCount total size * size) = items :=
  List.take_of_length_le (Nat.le_trans hle (le_sliceCount_mul total hsize))

/-- The slices are the list, cut. -/
theorem flatten_slices (items : List α) {size : Nat} (hsize : 1 ≤ size) : (slices items size).flatten = items := by
  rw [slices, ← List.flatMap_def, flatMap_slice, take_sliceCount hsize (Nat.le_refl _)]

/-- A slice of numbered items. -/
theorem slice_map_range (f : Nat → α) (total size i : Nat) :
    slice ((List.range total).map f) size i = (List.range (min size (total - i * size))).map fun k => f (i * size + k) := by
  apply List.ext_getElem
  · simp [slice]
  · intro k hleft hright
    simp [slice]

theorem mul_lt_of_lt_sliceCount {total size i : Nat} (hi : i < sliceCount total size) : i * size < total := by
  have hpos : 0 < size := by
    rcases Nat.eq_zero_or_pos size with hzero | hpos
    · rw [sliceCount, hzero, Nat.div_zero] at hi
      omega
    · exact hpos
  have hmul : (i + 1) * size ≤ total + size - 1 := (Nat.le_div_iff_mul_le hpos).1 hi
  rw [Nat.add_mul] at hmul
  omega

theorem div_lt_sliceCount {total size item : Nat} (hsize : 1 ≤ size) (hitem : item < total) :
    item / size < sliceCount total size := by
  have hle := le_sliceCount_mul total hsize
  apply Nat.div_lt_of_lt_mul
  rw [Nat.mul_comm]
  omega

theorem slice_ne_nil {items : List α} {size i : Nat} (hi : i < sliceCount items.length size) : slice items size i ≠ [] := by
  have hlt := mul_lt_of_lt_sliceCount hi
  have hpos : 0 < size := by
    rcases Nat.eq_zero_or_pos size with hzero | hpos
    · rw [sliceCount, hzero, Nat.div_zero] at hi
      omega
    · exact hpos
  intro hnil
  have hlength := congrArg List.length hnil
  rw [slice, List.length_take, List.length_drop, List.length_nil] at hlength
  omega

theorem ne_nil_of_mem_slices {items part : List α} {size : Nat} (hmem : part ∈ slices items size) : part ≠ [] := by
  obtain ⟨i, hi, rfl⟩ := List.mem_map.1 hmem
  exact slice_ne_nil (List.mem_range.1 hi)

/-! ### Intervals of keys -/

/-- The items whose key lies in `[low, high)`. -/
def between (items : List (Nat × α)) (low high : Nat) : List (Nat × α) :=
  items.filter fun item => decide (low ≤ item.1 ∧ item.1 < high)

theorem mem_between {items : List (Nat × α)} {low high : Nat} {item : Nat × α} :
    item ∈ between items low high ↔ item ∈ items ∧ low ≤ item.1 ∧ item.1 < high := by
  rw [between, List.mem_filter, decide_eq_true_eq]

theorem between_append (left right : List (Nat × α)) (low high : Nat) :
    between (left ++ right) low high = between left low high ++ between right low high :=
  List.filter_append ..

theorem between_eq_nil {items : List (Nat × α)} {low high : Nat} (h : ∀ item ∈ items, item.1 < low ∨ high ≤ item.1) :
    between items low high = [] := by
  rw [between, List.filter_eq_nil_iff]
  intro item hitem
  rw [decide_eq_true_eq]
  have hitem := h item hitem
  omega

theorem between_eq_self {items : List (Nat × α)} {low high : Nat} (h : ∀ item ∈ items, low ≤ item.1 ∧ item.1 < high) :
    between items low high = items := by
  rw [between, List.filter_eq_self]
  intro item hitem
  rw [decide_eq_true_eq]
  exact h item hitem

@[simp] theorem between_self (items : List (Nat × α)) (key : Nat) : between items key key = [] :=
  between_eq_nil fun item _ => by omega

theorem between_cons (item : Nat × α) (items : List (Nat × α)) (low high : Nat) :
    between (item :: items) low high
      = if low ≤ item.1 ∧ item.1 < high then item :: between items low high else between items low high := by
  rw [between, List.filter_cons]
  simp only [decide_eq_true_eq]
  rfl

/-- An interval of a list with increasing keys is cut at any key inside it. -/
theorem between_cut {items : List (Nat × α)} (hsorted : items.Pairwise fun left right => left.1 < right.1)
    {low middle high : Nat} (hlow : low ≤ middle) (hhigh : middle ≤ high) :
    between items low high = between items low middle ++ between items middle high := by
  induction items with
  | nil => rfl
  | cons item items ih =>
      rw [List.pairwise_cons] at hsorted
      have hrest := ih hsorted.2
      rw [between_cons, between_cons, between_cons]
      by_cases hbelow : item.1 < middle
      · have hnot : ¬ (middle ≤ item.1 ∧ item.1 < high) := by omega
        rw [if_neg hnot]
        by_cases hfrom : low ≤ item.1
        · rw [if_pos ⟨hfrom, by omega⟩, if_pos ⟨hfrom, hbelow⟩, hrest, List.cons_append]
        · rw [if_neg (by omega), if_neg (by omega), hrest]
      · have hnil : between items low middle = [] := by
          apply between_eq_nil
          intro other hother
          have hlt := hsorted.1 other hother
          omega
        have hsame : (low ≤ item.1 ∧ item.1 < high) ↔ (middle ≤ item.1 ∧ item.1 < high) := by omega
        have hnot : ¬ (low ≤ item.1 ∧ item.1 < middle) := by omega
        rw [hnil, List.nil_append] at hrest
        rw [if_neg hnot, hnil, List.nil_append, hrest]
        simp only [hsame]

/-- The first part of a list with increasing keys is what lies below the key of the second part. -/
theorem between_of_append {left right : List (Nat × α)} {first : Nat × α} {low high : Nat}
    (hsorted : (left ++ first :: right).Pairwise fun x y => x.1 < y.1)
    (hbounds : ∀ item ∈ left ++ first :: right, low ≤ item.1 ∧ item.1 < high) :
    between (left ++ first :: right) low first.1 = left
      ∧ between (left ++ first :: right) first.1 high = first :: right := by
  obtain ⟨-, hright, hcross⟩ := List.pairwise_append.1 hsorted
  have hbelow : ∀ item ∈ left, item.1 < first.1 := fun item hitem => hcross item hitem first (List.mem_cons_self ..)
  have habove : ∀ item ∈ first :: right, first.1 ≤ item.1 := by
    intro item hitem
    rcases List.mem_cons.1 hitem with rfl | hitem
    · exact Nat.le_refl _
    · exact Nat.le_of_lt ((List.pairwise_cons.1 hright).1 item hitem)
  constructor
  · rw [between_append, between_eq_self, between_eq_nil, List.append_nil]
    · intro item hitem
      exact Or.inr (habove item hitem)
    · intro item hitem
      exact ⟨(hbounds item (List.mem_append_left _ hitem)).1, hbelow item hitem⟩
  · rw [between_append, between_eq_nil, between_eq_self, List.nil_append]
    · intro item hitem
      exact ⟨habove item hitem, (hbounds item (List.mem_append_right _ hitem)).2⟩
    · intro item hitem
      exact Or.inl (hbelow item hitem)

theorem between_between (items : List (Nat × α)) {low high low' high' : Nat} (hlow : low ≤ low') (hhigh : high' ≤ high) :
    between (between items low high) low' high' = between items low' high' := by
  rw [between, between, List.filter_filter, between]
  congr 1
  funext item
  rw [← Bool.decide_and]
  apply decide_eq_decide.2
  omega

end Slices
