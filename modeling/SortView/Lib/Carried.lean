import SortView.Lib.Rounding

/-!
# Numbers carried with some digits

A number that is a whole number of units, beside the number that an arithmetic of some digits has for it. Sums, differences
and multiples stay near, and what is near has the same places, but for a half that is lost.
-/

namespace Rounding

/-- A bounded number of units, and one that is near to it. -/
structure Near (unit : ℕ) (bound error x y : ℚ) : Prop where
  whole : ∃ n : ℤ, x * unit = n
  bounded : |x| ≤ bound
  close : |y - x| ≤ error

variable {unit : ℕ} {bound bound' error error' x y x' y' : ℚ}

theorem Near.add (h : Near unit bound error x y) (h' : Near unit bound' error' x' y') :
    Near unit (bound + bound') (error + error') (x + x') (y + y') := by
  obtain ⟨n, hn⟩ := h.whole
  obtain ⟨n', hn'⟩ := h'.whole
  refine ⟨⟨n + n', ?_⟩, ?_, ?_⟩
  · rw [add_mul, hn, hn']
    push_cast
    rfl
  · exact (abs_add_le x x').trans (add_le_add h.bounded h'.bounded)
  · rw [add_sub_add_comm]
    exact (abs_add_le _ _).trans (add_le_add h.close h'.close)

theorem Near.neg (h : Near unit bound error x y) : Near unit bound error (-x) (-y) := by
  obtain ⟨n, hn⟩ := h.whole
  refine ⟨⟨-n, ?_⟩, ?_, ?_⟩
  · rw [neg_mul, hn]
    push_cast
    rfl
  · rw [abs_neg]
    exact h.bounded
  · rw [neg_sub_neg, abs_sub_comm]
    exact h.close

theorem Near.sub (h : Near unit bound error x y) (h' : Near unit bound' error' x' y') :
    Near unit (bound + bound') (error + error') (x - x') (y - y') := by
  rw [sub_eq_add_neg, sub_eq_add_neg]
  exact h.add h'.neg

/-- What is left of a number after its digits, less than nothing where it is rounded up. -/
def left (digits : ℕ) (x : ℚ) : ℚ := x - toDigits digits x

/-- What is lost of a number in all, when its operands lose some of it: that, and what is left of the rest after its digits. -/
def lostOf (digits : ℕ) (x before : ℚ) : ℚ := before + left digits (x - before)

theorem sub_lostOf (digits : ℕ) (x before : ℚ) : x - lostOf digits x before = toDigits digits (x - before) := by
  rw [lostOf, left]
  ring

end Rounding
