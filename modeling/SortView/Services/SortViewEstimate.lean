import SortView.Services.EfficiencyReport
import SortView.Services.SortViewValue

/-!
# The estimate of SortView Value

The figures that `services/sortview_value.py` makes from what is configured: of each kind of work, and of both together.
-/

namespace SortView

open PyText

def monthsPerYear : Int := 12

structure CategoryValue where
  baselineHoursPerMonth : Option Decimal
  currentHoursPerMonth : Option Decimal
  recoveredHoursPerMonth : Option Decimal
  monthlyValue : Option Decimal
  annualValue : Option Decimal
  deriving DecidableEq

/-- `_rounded`: a zero is not negative. -/
def roundedFigure (places : Int) (figure : Option Decimal) : Except DecimalError (Option Decimal) :=
  figure.mapM fun value => (Decimal.quantize exactDigits places value).map fun rounded =>
    if rounded.isZero then rounded.copyAbs else rounded

/-- `_product`: none if any factor is unknown. -/
def productOf (factors : List (Option Decimal)) : Option Decimal :=
  factors.foldlM (fun result factor => factor.map fun value => Decimal.multiply exactDigits result value) (Decimal.ofInt 1)

/-- `_Exact`: a kind of work, not rounded. -/
structure ExactWork where
  baselineHours : Option Decimal
  currentHours : Option Decimal
  recoveredHours : Option Decimal
  monthlyValue : Option Decimal

def annualOf (monthlyValue : Option Decimal) : Option Decimal := productOf [monthlyValue, some (.ofInt monthsPerYear)]

def ExactWork.reported (work : ExactWork) : Except DecimalError CategoryValue := do
  let baseline ← roundedFigure hoursPlaces work.baselineHours
  let current ← roundedFigure hoursPlaces work.currentHours
  let recovered ← roundedFigure hoursPlaces work.recoveredHours
  let monthlyValue ← roundedFigure moneyPlaces work.monthlyValue
  let annualValue ← roundedFigure moneyPlaces (annualOf work.monthlyValue)
  return ⟨baseline, current, recovered, monthlyValue, annualValue⟩

end SortView
