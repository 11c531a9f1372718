import Mathlib.Algebra.BigOperators.Group.List.Lemmas
import Mathlib.Data.Int.ConditionallyCompleteOrder
import Mathlib.Data.List.Dedup
import Mathlib.Data.List.GetD
import Mathlib.Data.Nat.Digits.Defs
import Mathlib.Order.Monotone.Basic
import SortView.Lib.Dict

/-!
# Counting between boundaries

Rows counted by the interval they fall in (`width_bucket` of a database over an array of boundaries),
rows counted by group (`GROUP BY`), and totals that are added to in place. The counts of consecutive
intervals add up to the count of the whole.
-/

namespace Buckets

variable {α κ ι σ ε : Type}

/-! ### The bucket of a value -/

/-- `width_bucket(value, boundaries)`: how many boundaries are not above the value. -/
def widthBucket (value : Int) (boundaries : List Int) : Nat := boundaries.countP fun boundary => boundary ≤ value

theorem widthBucket_cons (value first : Int) (boundaries : List Int) :
    widthBucket value (first :: boundaries) = widthBucket value boundaries + if first ≤ value then 1 else 0 := by
  rw [widthBucket, List.countP_cons, widthBucket]
  simp only [decide_eq_true_eq]

theorem widthBucket_eq_zero {value first : Int} {boundaries : List Int}
    (hsorted : (first :: boundaries).Pairwise (· ≤ ·)) (hlt : value < first) :
    widthBucket value (first :: boundaries) = 0 := by
  rw [widthBucket, List.countP_eq_zero]
  intro boundary hboundary
  have hle : first ≤ boundary := by
    rcases List.mem_cons.1 hboundary with rfl | hmem
    · exact Int.le_refl _
    · exact (List.pairwise_cons.1 hsorted).1 boundary hmem
  rw [decide_eq_true_eq]
  omega

/-- Bucket `i + 1` of increasing boundaries is `[boundary i, boundary (i + 1))`. -/
theorem widthBucket_eq_succ_iff {value : Int} {boundaries : List Int} (hsorted : boundaries.Pairwise (· ≤ ·))
    {i : Nat} (hi : i + 1 < boundaries.length) :
    widthBucket value boundaries = i + 1 ↔ boundaries[i] ≤ value ∧ value < boundaries[i + 1] := by
  induction boundaries generalizing i with
  | nil => exact absurd hi (Nat.not_lt_zero _)
  | cons first boundaries ih =>
      by_cases hfirst : first ≤ value
      · rw [widthBucket_cons, if_pos hfirst, Nat.add_right_cancel_iff]
        cases i with
        | zero =>
            cases boundaries with
            | nil => simp at hi
            | cons second boundaries =>
                rw [List.pairwise_cons] at hsorted
                by_cases hsecond : value < second
                · simp [widthBucket_eq_zero hsorted.2 hsecond, hfirst, hsecond]
                · rw [widthBucket_cons, if_pos (by omega)]
                  simp [hsecond]
        | succ i =>
            rw [List.length_cons] at hi
            simpa only [List.getElem_cons_succ] using ih (List.pairwise_cons.1 hsorted).2 (by omega)
      · have hle : first ≤ (first :: boundaries)[i] := by
          rcases List.mem_cons.1 (List.getElem_mem (by omega : i < (first :: boundaries).length)) with heq | hmem
          · omega
          · exact (List.pairwise_cons.1 hsorted).1 _ hmem
        rw [widthBucket_eq_zero hsorted (by omega)]
        omega

/-- Boundaries given by a monotone function increase. -/
theorem pairwise_map_range {boundary : Nat → Int} (hmono : Monotone boundary) (n : Nat) :
    ((List.range n).map boundary).Pairwise (· ≤ ·) := by
  rw [List.pairwise_map]
  exact List.pairwise_lt_range.imp fun hlt => hmono hlt.le

theorem getD_map_range (f : Nat → Int) {n i : Nat} (hi : i < n) : ((List.range n).map f).getD i 0 = f i := by
  rw [List.getD_eq_getElem _ _ (by rw [List.length_map, List.length_range]; exact hi), List.getElem_map,
    List.getElem_range]

theorem headD_map_range (f : Nat → Int) (n : Nat) : ((List.range (n + 1)).map f).headD 0 = f 0 := by
  rw [List.range_succ_eq_map, List.map_cons, List.headD_cons]

theorem getLastD_map_range (f : Nat → Int) (n : Nat) : ((List.range (n + 1)).map f).getLastD 0 = f n := by
  rw [List.range_succ, List.map_append, List.map_singleton, List.getLastD_concat]

/-- A value between two of the boundaries is in one of their intervals. -/
theorem widthBucket_bounds {value low high : Int} {boundaries : List Int} (hlow : low ∈ boundaries) (hfrom : low ≤ value)
    (hhigh : high ∈ boundaries) (hbelow : value < high) :
    1 ≤ widthBucket value boundaries ∧ widthBucket value boundaries ≤ boundaries.length - 1 := by
  constructor
  · apply List.countP_pos_iff.2
    exact ⟨low, hlow, decide_eq_true hfrom⟩
  · have hle : widthBucket value boundaries ≤ boundaries.length := List.countP_le_length
    have hne : widthBucket value boundaries ≠ boundaries.length := by
      intro heq
      have hall := List.countP_eq_length.1 heq high hhigh
      rw [decide_eq_true_eq] at hall
      omega
    omega

/-! ### Consecutive intervals -/

theorem sum_map_add (f g : α → Nat) (items : List α) :
    (items.map fun item => f item + g item).sum = (items.map f).sum + (items.map g).sum :=
  List.sum_map_add

theorem sum_map_eq_zero {f : α → Nat} {items : List α} (h : ∀ item ∈ items, f item = 0) : (items.map f).sum = 0 := by
  induction items with
  | nil => rfl
  | cons item items ih =>
      rw [List.map_cons, List.sum_cons, h item (List.mem_cons_self ..),
        ih fun other hother => h other (List.mem_cons_of_mem _ hother)]

/-- A sum over the numbers below `n` with one term. -/
theorem sum_range_single {n place : Nat} (hplace : place < n) {f : Nat → Nat} (h : ∀ i < n, i ≠ place → f i = 0) :
    ((List.range n).map f).sum = f place := by
  rw [List.sum_map_eq_nsmul_single place f fun i hne hi => h i (List.mem_range.1 hi) hne,
    List.count_eq_one_of_mem List.nodup_range (List.mem_range.2 hplace), one_nsmul]

/-- A value below a monotone run of boundaries' end and not before its start is in one interval. -/
theorem sum_indicator_intervals {boundary : Nat → Int} (hmono : Monotone boundary) (value : Int) (n : Nat) :
    ((List.range n).map fun i => if boundary i ≤ value ∧ value < boundary (i + 1) then 1 else 0).sum
      = if boundary 0 ≤ value ∧ value < boundary n then 1 else 0 := by
  induction n with
  | zero => simp
  | succ n ih =>
      rw [List.range_succ, List.map_append, List.sum_append, ih, List.map_singleton, List.sum_singleton]
      have hfirst := hmono (Nat.zero_le n)
      have hlast := hmono (Nat.le_succ n)
      rw [Nat.succ_eq_add_one] at hlast
      split <;> split <;> split <;> omega

/-- The counts of consecutive intervals add up to the count of the whole. -/
theorem sum_countP_intervals {boundary : Nat → Int} (hmono : Monotone boundary) (time : α → Int) (keep : α → Bool)
    (items : List α) (n : Nat) :
    ((List.range n).map fun i => items.countP fun item =>
        decide (boundary i ≤ time item ∧ time item < boundary (i + 1)) && keep item).sum
      = items.countP fun item => decide (boundary 0 ≤ time item ∧ time item < boundary n) && keep item := by
  induction items with
  | nil => exact sum_map_eq_zero fun _ _ => rfl
  | cons item items ih =>
      simp only [List.countP_cons]
      rw [sum_map_add, ih, Nat.add_left_cancel_iff]
      cases hkeep : keep item with
      | false =>
          simp only [Bool.and_false, Bool.false_eq_true, if_false]
          exact sum_map_eq_zero fun _ _ => rfl
      | true =>
          simp only [Bool.and_true, decide_eq_true_eq]
          exact sum_indicator_intervals hmono (time item) n

/-- Counts of classes that every item is in exactly once add up to the count of the items. -/
theorem sum_countP_classes (slot : α → Nat) (keep : α → Bool) (items : List α) {n : Nat}
    (hslot : ∀ item ∈ items, slot item < n) :
    ((List.range n).map fun i => items.countP fun item => keep item && decide (slot item = i)).sum
      = items.countP keep := by
  induction items with
  | nil => exact sum_map_eq_zero fun _ _ => rfl
  | cons item items ih =>
      simp only [List.countP_cons]
      rw [sum_map_add, ih fun other hother => hslot other (List.mem_cons_of_mem _ hother), Nat.add_left_cancel_iff]
      have hitem := hslot item (List.mem_cons_self ..)
      cases hkeep : keep item with
      | false =>
          simp only [Bool.false_and, Bool.false_eq_true, if_false]
          exact sum_map_eq_zero fun _ _ => rfl
      | true =>
          simp only [Bool.true_and, decide_eq_true_eq, if_true]
          rw [sum_range_single hitem fun i _ hi => if_neg fun h => hi h.symm, if_pos rfl]

/-! ### Counts by group -/

/-- `SELECT key, COUNT(*) … GROUP BY key`. -/
def groupCount [DecidableEq κ] (keys : List κ) : List (κ × Nat) := keys.dedup.map fun key => (key, keys.count key)

theorem sum_map_ite (p : α → Bool) (f : α → Nat) (items : List α) :
    (items.map fun item => if p item then f item else 0).sum = ((items.filter p).map f).sum := by
  induction items with
  | nil => rfl
  | cons item items ih =>
      rw [List.map_cons, List.sum_cons, ih, List.filter_cons]
      split <;> simp

/-- The counts of the groups that satisfy `p` add up to the number of rows that satisfy `p`. -/
theorem sum_groupCount [DecidableEq κ] (p : κ → Bool) (keys : List κ) :
    ((groupCount keys).map fun entry => if p entry.1 then entry.2 else 0).sum = keys.countP p := by
  rw [groupCount, List.map_map]
  change (keys.dedup.map fun key => if p key then keys.count key else 0).sum = _
  rw [sum_map_ite, List.sum_map_count_dedup_filter_eq_countP]

/-! ### Totals that are added to -/

/-- `totals[slot] += count`. -/
def addTo (totals : List Nat) (slot count : Nat) : List Nat := totals.modify slot (· + count)

@[simp] theorem length_addTo (totals : List Nat) (slot count : Nat) :
    (addTo totals slot count).length = totals.length :=
  List.length_modify ..

theorem getD_addTo {totals : List Nat} {slot : Nat} (hslot : slot < totals.length) (count i : Nat) :
    (addTo totals slot count).getD i 0 = totals.getD i 0 + if slot = i then count else 0 := by
  rw [List.getD_eq_getElem?_getD, addTo, List.getElem?_modify, List.getD_eq_getElem?_getD]
  by_cases hi : slot = i
  · subst hi
    simp [hslot]
  · simp [hi]

@[simp] theorem getD_replicate_zero (n i : Nat) : (List.replicate n 0).getD i 0 = 0 := by
  rw [List.getD_eq_getElem?_getD, List.getElem?_replicate]
  split <;> rfl

/-- Two rows of totals of one length are equal when every total is. -/
theorem eq_map_range {totals : List Nat} {n : Nat} (hlength : totals.length = n) {f : Nat → Nat}
    (h : ∀ i < n, totals.getD i 0 = f i) : totals = (List.range n).map f := by
  apply List.ext_getElem
  · rw [hlength, List.length_map, List.length_range]
  · intro i hi hi'
    have hvalue := h i (by omega)
    rw [List.getD_eq_getElem _ _ hi] at hvalue
    rw [hvalue, List.getElem_map, List.getElem_range]

theorem getD_zipWith_add {left right : List Nat} (hlength : left.length = right.length) (i : Nat) :
    (left.zipWith (· + ·) right).getD i 0 = left.getD i 0 + right.getD i 0 := by
  induction left generalizing right i with
  | nil =>
      cases right with
      | nil => rfl
      | cons _ _ => cases hlength
  | cons first left ih =>
      cases right with
      | nil => cases hlength
      | cons other right =>
          cases i with
          | zero => rfl
          | succ i => exact ih (Nat.succ.inj hlength) i

/-- Numbering a list and adding up what carries the number `i` gives entry `i`. -/
theorem sum_zipIdx (counts : List Nat) (start i : Nat) :
    ((counts.zipIdx start).map fun entry => if entry.2 = start + i then entry.1 else 0).sum = counts.getD i 0 := by
  induction counts generalizing start i with
  | nil => rfl
  | cons count counts ih =>
      rw [List.zipIdx_cons, List.map_cons, List.sum_cons]
      cases i with
      | zero =>
          rw [Nat.add_zero, if_pos rfl, List.getD_cons_zero, sum_map_eq_zero, Nat.add_zero]
          intro entry hentry
          have hle := List.le_snd_of_mem_zipIdx hentry
          exact if_neg (by omega)
      | succ i =>
          rw [if_neg (by omega), Nat.zero_add, List.getD_cons_succ, ← ih (start + 1) i]
          simp only [Nat.add_assoc, Nat.add_comm 1 i]

theorem sum_eq_sum_getD {counts : List Nat} {n : Nat} (hlength : counts.length = n) :
    counts.sum = ((List.range n).map fun i => counts.getD i 0).sum := by
  rw [← eq_map_range hlength fun _ _ => rfl]

theorem sum_map_comm {β : Type} (f : α → β → Nat) (items : List α) (others : List β) :
    (items.map fun item => (others.map (f item)).sum).sum
      = (others.map fun other => (items.map fun item => f item other).sum).sum := by
  induction items with
  | nil => exact (sum_map_eq_zero fun _ _ => rfl).symm
  | cons item items ih =>
      simp only [List.map_cons, List.sum_cons]
      rw [ih, sum_map_add]

/-- A loop whose every step succeeds and adds its own weight to each value ends with the sums. -/
theorem foldlM_adds {step : σ → α → Except ε σ} {inv : σ → Prop} {value : ι → σ → Nat} {weight : ι → α → Nat}
    {items : List α}
    (hstep : ∀ s, inv s → ∀ item ∈ items, ∃ s', step s item = .ok s' ∧ inv s'
      ∧ ∀ i, value i s' = value i s + weight i item)
    {s : σ} (hs : inv s) :
    ∃ s', items.foldlM step s = .ok s' ∧ inv s' ∧ ∀ i, value i s' = value i s + (items.map (weight i)).sum := by
  induction items generalizing s with
  | nil => exact ⟨s, rfl, hs, fun i => by simp⟩
  | cons item items ih =>
      obtain ⟨s₁, hstep₁, hs₁, hvalue₁⟩ := hstep s hs item (List.mem_cons_self ..)
      obtain ⟨s₂, hfold, hs₂, hvalue₂⟩ := ih (fun s hs other hother => hstep s hs other (List.mem_cons_of_mem _ hother)) hs₁
      refine ⟨s₂, ?_, hs₂, ?_⟩
      · rw [List.foldlM_cons, hstep₁]
        exact hfold
      · intro i
        rw [hvalue₂, hvalue₁, List.map_cons, List.sum_cons, Nat.add_assoc]

/-- A loop whose every step succeeds and keeps what holds after the items so far. -/
theorem foldlM_keeps {step : σ → α → Except ε σ} {inv : List α → σ → Prop} {items : List α}
    (hstep : ∀ done s, inv done s → ∀ item ∈ items, ∃ s', step s item = .ok s' ∧ inv (done ++ [item]) s') {done : List α} {s : σ}
    (hs : inv done s) : ∃ s', items.foldlM step s = .ok s' ∧ inv (done ++ items) s' := by
  induction items generalizing done s with
  | nil => exact ⟨s, rfl, (List.append_nil done).symm ▸ hs⟩
  | cons item items ih =>
      obtain ⟨s₁, hstep₁, hs₁⟩ := hstep done s hs item (List.mem_cons_self ..)
      obtain ⟨s₂, hfold, hs₂⟩ := ih (fun done s hs other hother => hstep done s hs other (List.mem_cons_of_mem _ hother)) hs₁
      refine ⟨s₂, ?_, ?_⟩
      · rw [List.foldlM_cons, hstep₁]
        exact hfold
      · rw [List.append_assoc, List.singleton_append] at hs₂
        exact hs₂

theorem foldl_adds (inv : σ → Prop) (value : ι → σ → Nat) (weight : ι → α → Nat) (step : σ → α → σ) (items : List α)
    (hstep : ∀ s, inv s → ∀ item ∈ items, inv (step s item)
      ∧ ∀ i, value i (step s item) = value i s + weight i item)
    {s : σ} (hs : inv s) :
    inv (items.foldl step s) ∧ ∀ i, value i (items.foldl step s) = value i s + (items.map (weight i)).sum := by
  induction items generalizing s with
  | nil => exact ⟨hs, fun i => by simp⟩
  | cons item items ih =>
      obtain ⟨hs₁, hvalue₁⟩ := hstep s hs item (List.mem_cons_self ..)
      obtain ⟨hs₂, hvalue₂⟩ := ih (fun s hs other hother => hstep s hs other (List.mem_cons_of_mem _ hother)) hs₁
      refine ⟨hs₂, ?_⟩
      intro i
      rw [List.foldl_cons, hvalue₂, hvalue₁, List.map_cons, List.sum_cons, Nat.add_assoc]

/-! ### Totals kept in a dictionary -/

variable {ν : Type}

/-- The sum over a dictionary's entries of a value of the entry. -/
def entriesTotal (f : κ → ν → Nat) (entries : List (κ × ν)) : Nat := (entries.map fun entry => f entry.1 entry.2).sum

theorem entriesTotal_cons (f : κ → ν → Nat) (entry : κ × ν) (entries : List (κ × ν)) :
    entriesTotal f (entry :: entries) = f entry.1 entry.2 + entriesTotal f entries := by
  rw [entriesTotal, List.map_cons, List.sum_cons, entriesTotal]

/-- Setting a key replaces its old part of the sum. -/
theorem entriesTotal_set [DecidableEq κ] (f : κ → ν → Nat) (d : Dict κ ν) (key : κ) (value : ν) :
    entriesTotal f (d.set key value).entries + ((d.get? key).map (f key)).getD 0
      = entriesTotal f d.entries + f key value := by
  obtain ⟨entries, hnodup⟩ := d
  change entriesTotal f (Dict.setEntries key value entries)
    + (((entries.find? fun entry => entry.1 = key).map Prod.snd).map (f key)).getD 0 = entriesTotal f entries + f key value
  clear hnodup
  induction entries with
  | nil => simp [Dict.setEntries, entriesTotal]
  | cons entry entries ih =>
      rw [Dict.setEntries, List.find?_cons]
      by_cases hkey : entry.1 = key
      · simp only [hkey, if_true, decide_true, entriesTotal_cons, Option.map_some, Option.getD_some]
        omega
      · simp only [hkey, if_false, decide_false, entriesTotal_cons]
        omega

/-- The part of a sum that belongs to one key. -/
theorem entriesTotal_key [DecidableEq κ] (f : ν → Nat) (d : Dict κ ν) (key : κ) :
    entriesTotal (fun other value => if other = key then f value else 0) d.entries = ((d.get? key).map f).getD 0 := by
  obtain ⟨entries, hnodup⟩ := d
  change _ = (((entries.find? fun entry => entry.1 = key).map Prod.snd).map f).getD 0
  induction entries with
  | nil => rfl
  | cons entry entries ih =>
      rw [List.map_cons, List.nodup_cons] at hnodup
      rw [entriesTotal_cons, List.find?_cons]
      by_cases hkey : entry.1 = key
      · have hzero : entriesTotal (fun other value => if other = key then f value else 0) entries = 0 := by
          apply sum_map_eq_zero
          intro other hother
          apply if_neg
          intro heq
          exact hnodup.1 (hkey ▸ heq ▸ List.mem_map_of_mem hother)
        simp [hkey, hzero]
      · simp [hkey, ih hnodup.2]

end Buckets
