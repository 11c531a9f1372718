import Mathlib.Data.Option.NAry
import SortView.Services.EfficiencySettings

/-!
# Efficiency figures

`services/efficiency_report.py`: the figures of a sorter for a range of days, worked out with sixty digits and rounded to
their places. The figures are exact, but for a labor value on a half cent whose quotient was cut: there the half cent can
be lost.
-/

namespace SortView

open PyText Rounding Calendar

def daysPerYear : Int := 365

/-- The digits of `_EXACT`. -/
def exactDigits : Nat := 60

def hoursPlaces : Int := 2

def moneyPlaces : Int := 2

def costPerItemPlaces : Int := 4

inductive EfficiencyError where
  | notAligned
  | badCount
  | arithmetic (signal : DecimalError)
  deriving DecidableEq

structure EfficiencyReport where
  checkinCount : Int
  inServiceDays : Nat
  inServiceCheckinCount : Int
  staffTimeEquivalentHours : Option Decimal
  laborValueEquivalent : Option Decimal
  recurringCost : Option Decimal
  netOperationalValue : Option Decimal
  recurringCostPerItem : Option Decimal
  missing : List Text
  deriving DecidableEq

/-- The names of the inputs that are unknown. -/
def missingNames (inputs : List (Text × Bool)) : List Text := (inputs.filter fun input => !input.2).map Prod.fst

/-- The counts of the days on which the sorter was in service. -/
def inServiceCounts (dates : List Date) (checkinDays : List Int) (inServiceDate : Option Date) : List Int :=
  ((dates.zip checkinDays).filter fun day => inServiceDate.all fun first => !dateAfter first day.1).map Prod.snd

/-- The cost of an item, if there were any. -/
def costPerCheckin (checkins : Int) (recurringCost : Option Decimal) : Except DecimalError (Option Decimal) :=
  if checkins = 0 then .ok none
  else recurringCost.mapM fun cost => do
    let perItem ← Decimal.divide exactDigits cost (.ofInt checkins)
    Decimal.quantize exactDigits costPerItemPlaces perItem

/-- The figures of the days in service. -/
def efficiencyFigures (checkinCount : Int) (inServiceDays : Nat) (checkins : Int) (settings : EffectiveEfficiencySettings) :
    Except DecimalError EfficiencyReport := do
  let hours ← settings.manualItemsPerHour.mapM fun rate => Decimal.divide exactDigits (.ofInt checkins) rate.value
  let laborValue := Option.map₂ (fun hours rate => Decimal.multiply exactDigits hours rate.value) hours settings.laborRate
  let recurringCost ← settings.recurringAnnualCost.mapM fun cost =>
    Decimal.divide exactDigits (Decimal.multiply exactDigits cost (.ofInt inServiceDays)) (.ofInt daysPerYear)
  let roundedValue ← laborValue.mapM (Decimal.quantize exactDigits moneyPlaces)
  let roundedCost ← recurringCost.mapM (Decimal.quantize exactDigits moneyPlaces)
  let roundedHours ← hours.mapM (Decimal.quantize exactDigits hoursPlaces)
  let costPerItem ← costPerCheckin checkins recurringCost
  return {
    checkinCount
    inServiceDays
    inServiceCheckinCount := checkins
    staffTimeEquivalentHours := roundedHours
    laborValueEquivalent := roundedValue
    recurringCost := roundedCost
    netOperationalValue := Option.map₂ (Decimal.subtract exactDigits) roundedValue roundedCost
    recurringCostPerItem := costPerItem
    missing := missingNames [(manualItemsPerHourName, settings.manualItemsPerHour.isSome),
      (laborRateName, settings.laborRate.isSome), (recurringAnnualCostName, settings.recurringAnnualCost.isSome),
      (inServiceDateName, settings.inServiceDate.isSome)] }

def calculateEfficiency (dates : List Date) (checkinDays : List Int) (settings : EffectiveEfficiencySettings) :
    Except EfficiencyError EfficiencyReport :=
  if dates.length ≠ checkinDays.length then .error .notAligned
  else if checkinDays.any (· < 0) then .error .badCount
  else
    let inService := inServiceCounts dates checkinDays settings.inServiceDate
    (efficiencyFigures checkinDays.sum inService.length inService.sum settings).mapError .arithmetic

/-! ### The values of the settings -/

/-- A value that the check of a field gives. -/
def ParsedValue (field : DecimalField) (x : Decimal) : Prop := ∃ stored, parseDecimalText field stored = .ok x

/-- The values of the settings are ones that the parser accepts. -/
structure ParsedSettings (settings : EffectiveEfficiencySettings) : Prop where
  laborRate : ∀ rate ∈ settings.laborRate, ParsedValue laborRateField rate.value
  manualItemsPerHour : ∀ rate ∈ settings.manualItemsPerHour, ParsedValue manualItemsPerHourField rate.value
  recurringAnnualCost : ∀ cost ∈ settings.recurringAnnualCost, ParsedValue recurringAnnualCostField cost

/-- A value of a field is a whole number of its units, in its range. -/
theorem ParsedValue.units {field : DecimalField} {x : Decimal} (h : ParsedValue field x) :
    ∃ units : ℕ, x.value = units / 10 ^ field.places ∧ field.minimum * 10 ^ field.places ≤ units
      ∧ (field.aboveMinimum = true → field.minimum * 10 ^ field.places < units) ∧ units ≤ field.maximum * 10 ^ field.places := by
  obtain ⟨stored, hstored⟩ := h
  obtain ⟨_, _, _, -, -, -, -, ⟨hlow, hhigh⟩, hat, rfl⟩ := parseDecimalText_holds hstored
  have hunit : (0 : ℚ) < 10 ^ field.places := by positivity
  rw [hat.value_eq] at hlow hhigh
  rw [div_le_iff₀ hunit] at hhigh
  refine ⟨x.coefficient, hat.value_eq, ?_, ?_, by exact_mod_cast hhigh⟩
  · split at hlow
    · rw [lt_div_iff₀ hunit] at hlow
      exact_mod_cast hlow.le
    · rw [le_div_iff₀ hunit] at hlow
      exact_mod_cast hlow
  · intro habove
    rw [if_pos habove, lt_div_iff₀ hunit] at hlow
    exact_mod_cast hlow

theorem ParsedValue.laborRate {x : Decimal} (h : ParsedValue laborRateField x) :
    ∃ units : ℕ, x.value = units / 100 ∧ 0 < units ∧ units ≤ 100000 := by
  obtain ⟨units, hvalue, -, hlow, hhigh⟩ := h.units
  exact ⟨units, by rw [hvalue]; norm_num [laborRateField], hlow rfl, hhigh⟩

theorem ParsedValue.manualItemsPerHour {x : Decimal} (h : ParsedValue manualItemsPerHourField x) :
    ∃ units : ℕ, x.value = units / 10 ∧ 10 ≤ units ∧ units ≤ 10000 := by
  obtain ⟨units, hvalue, hlow, -, hhigh⟩ := h.units
  exact ⟨units, by rw [hvalue]; norm_num [manualItemsPerHourField], hlow, hhigh⟩

theorem ParsedValue.recurringAnnualCost {x : Decimal} (h : ParsedValue recurringAnnualCostField x) :
    ∃ units : ℕ, x.value = units / 100 ∧ units ≤ 1000000000 := by
  obtain ⟨units, hvalue, -, -, hhigh⟩ := h.units
  exact ⟨units, by rw [hvalue]; norm_num [recurringAnnualCostField], hhigh⟩

end SortView
