import SortView.Lib.Carried
import SortView.Services.SortViewEstimate

/-!
# The formulas of the estimate

The formulas that `services/sortview_value.py` states, over rational numbers, with what an arithmetic does to each of its
results: nothing, or the digits that it keeps. What the estimate reports has to be the exact values, rounded once.
-/

namespace SortView

open PyText Rounding

/-! ### Formulas -/

section

variable (result : ℚ → ℚ)

def differenceFormula (first second : Option ℚ) : Option ℚ := Option.map₂ (fun x y => result (x - y)) first second

def sumFormula (first second : Option ℚ) : Option ℚ := Option.map₂ (fun x y => result (x + y)) first second

def productFormula (first second : Option ℚ) : Option ℚ := Option.map₂ (fun x y => result (x * y)) first second

def annualFormula (monthly : Option ℚ) : Option ℚ := monthly.map fun x => result (x * 12)

end

/-- A figure is its exact value, rounded once, and no zero is negative; it is none where there is no value. -/
structure FigureExact (places : ℤ) (exact : Option ℚ) (reported : Option Decimal) : Prop where
  value : reported.map Decimal.value = exact.map (toPlaces places)
  zero : ∀ figure ∈ reported, figure.isZero = true → figure.negative = false

/-- The exact value of a result, and what its operands lose of it. -/
structure Lossy where
  exact : ℚ
  before : ℚ

namespace Lossy

variable (x y : Lossy)

/-- What is lost of the result in all: what its operands lose, and what is left of the rest after its sixtieth digit. -/
def lost : ℚ := lostOf exactDigits x.exact x.before

def add : Lossy := ⟨x.exact + y.exact, x.lost + y.lost⟩

def sub : Lossy := ⟨x.exact - y.exact, x.lost - y.lost⟩

/-- Less an input. -/
def less (value : ℚ) : Lossy := ⟨x.exact - value, x.lost⟩

/-- Times an input, or a number of the formula. -/
def times (factor : ℚ) : Lossy := ⟨x.exact * factor, x.lost * factor⟩

end Lossy

end SortView
