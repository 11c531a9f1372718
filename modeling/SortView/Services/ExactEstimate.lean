import SortView.Services.EstimateFormulas
import SortView.Services.ExactEfficiency

/-!
# The exact estimate

The estimate of `services/sortview_value.py` carries the formulas with sixty digits. Its figures are the exact values,
rounded once, if and only if no half step is lost on the way, and no value of zero is carried as one that pays back.
-/

namespace SortView

open PyText Rounding

/-! ### What is carried -/

/-- The exact value lies on a half step, and the number that is carried falls short of it. -/
def LostFigure (places : ℤ) (exact carried : Option ℚ) : Prop := ∃ x ∈ exact, ∃ y ∈ carried, Lost places x y

/-- A whole number of units, up to a limit. -/
def InUnits (unit limit : ℕ) (x : ℚ) : Prop := ∃ n : ℕ, x * unit = n ∧ n ≤ limit

theorem InUnits.nonneg {unit limit : ℕ} {x : ℚ} (h : InUnits unit limit x) (hunit : 0 < unit) : 0 ≤ x := by
  obtain ⟨n, hn, -⟩ := h
  have hunitq : (0 : ℚ) < unit := by exact_mod_cast hunit
  apply nonneg_of_mul_nonneg_left _ hunitq
  rw [hn]
  exact Nat.cast_nonneg n

theorem InUnits.le {unit limit : ℕ} {x : ℚ} (h : InUnits unit limit x) {bound : ℚ} (hunit : 0 < unit)
    (hbound : (limit : ℚ) ≤ bound * unit) : x ≤ bound := by
  obtain ⟨n, hn, hle⟩ := h
  have hunitq : (0 : ℚ) < unit := by exact_mod_cast hunit
  have hleq : (n : ℚ) ≤ limit := by exact_mod_cast hle
  apply le_of_mul_le_mul_right _ hunitq
  rw [hn]
  exact hleq.trans hbound

/-- The digits hold a whole number of such units. -/
theorem InUnits.kept {places limit : ℕ} {x : ℚ} (h : InUnits (10 ^ places) limit x) (hlimit : limit < 10 ^ exactDigits) :
    toDigits exactDigits x = x := by
  obtain ⟨n, hn, hle⟩ := h
  apply toDigits_of_hasDigits
  apply @hasDigits_of_scaled exactDigits n places
  · rw [zpow_natCast, ← hn]
    push_cast
    rfl
  · exact lt_of_le_of_lt hle hlimit

/-! ### The code and the formulas -/

/-- How often work is done in a month, by one person. -/
def VolumeUnits (volume : Option Decimal) : Prop := ∀ x ∈ volume, InUnits (10 ^ 2) (10 ^ 10) x.value

theorem VolumeUnits.values {volume : Option Decimal} (h : VolumeUnits volume) :
    ∀ x ∈ volume.map Decimal.value, InUnits (10 ^ 2) (10 ^ 10) x := by
  intro x hx
  obtain ⟨z, hz, rfl⟩ := Option.mem_map.1 hx
  exact h z hz

/-- A figure and what is carried for it: none, or a value of which only a lost half is rounded to another. -/
def Faithful (places : ℤ) : Option ℚ → Option ℚ → Prop :=
  Option.Rel fun x y => toPlaces places y = toPlaces places x ↔ ¬ Lost places x y

theorem Faithful.exact_iff {places : ℤ} {exact carried : Option ℚ} (h : Faithful places exact carried)
    {rounded : Option Decimal} (hvalue : rounded.map Decimal.value = carried.map (toPlaces places))
    (hzero : ∀ z ∈ rounded, z.isZero = true → z.negative = false) :
    FigureExact places exact rounded ↔ ¬ LostFigure places exact carried := by
  have hfigure : FigureExact places exact rounded ↔ carried.map (toPlaces places) = exact.map (toPlaces places) := by
    rw [← hvalue]
    exact ⟨FigureExact.value, fun heq => ⟨heq, hzero⟩⟩
  rw [hfigure]
  cases h with
  | none => simp [LostFigure]
  | some hiff =>
      rw [Option.map_some, Option.map_some, Option.some_inj, hiff]
      simp [LostFigure]

end SortView
