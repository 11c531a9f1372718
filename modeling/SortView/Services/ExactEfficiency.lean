import SortView.Services.EfficiencyReport

/-!
# Exact efficiency figures

What the figures of `services/efficiency_report.py` have to be, as rational numbers, and when they are: always, but for a
labor value whose half cent is lost with the digits that were cut off the hours.
-/

namespace SortView

open PyText Rounding Calendar

/-! ### What the figures have to be -/

/-- Each figure is the value of its formula, rounded once, where its inputs are known; the net value is the difference of
the two amounts that are reported. -/
structure EfficiencyExact (days : ℕ) (checkins : ℤ) (settings : EffectiveEfficiencySettings) (report : EfficiencyReport) :
    Prop where
  hours : report.staffTimeEquivalentHours.map Decimal.value
    = settings.manualItemsPerHour.map fun rate => toPlaces hoursPlaces (checkins / rate.value.value)
  laborValue : report.laborValueEquivalent.map Decimal.value
    = Option.map₂ (fun rate labor => toPlaces moneyPlaces (checkins / rate.value.value * labor.value.value))
        settings.manualItemsPerHour settings.laborRate
  cost : report.recurringCost.map Decimal.value
    = settings.recurringAnnualCost.map fun cost => toPlaces moneyPlaces (cost.value * days / daysPerYear)
  net : report.netOperationalValue.map Decimal.value
    = Option.map₂ (fun value cost => value.value - cost.value) report.laborValueEquivalent report.recurringCost
  costPerItem : report.recurringCostPerItem.map Decimal.value
    = if checkins = 0 then none
      else settings.recurringAnnualCost.map fun cost => toPlaces costPerItemPlaces (cost.value * days / daysPerYear / checkins)

/-- The labor value lies on a half cent, and what is cut off the hours takes it away. -/
def LaborHalfLost (checkins : ℤ) (settings : EffectiveEfficiencySettings) : Prop :=
  ∃ rate ∈ settings.manualItemsPerHour, ∃ labor ∈ settings.laborRate,
    HalfLost exactDigits moneyPlaces (checkins / rate.value.value) labor.value.value

/-! ### The arithmetic -/

section

variable {checkins units : ℕ} (hcheckins : checkins < 10 ^ 31)

include hcheckins

theorem hours_exact (hlow : 10 ≤ units) :
    toPlaces 2 (toDigits 60 (checkins / (units / 10 : ℚ))) = toPlaces 2 (checkins / (units / 10 : ℚ)) := by
  have hunits : (0 : ℚ) < units := by exact_mod_cast (by omega : 0 < units)
  have hbound : (checkins : ℚ) < 10 ^ 31 := by exact_mod_cast hcheckins
  apply @toPlaces_toDigits 60 (2 * units) 2 (2000 * checkins + units) _ (by positivity) (by omega)
  · push_cast
    field_simp
    ring
  · have hscaled : (checkins : ℚ) / (units / 10) * 10 ^ (2 : ℤ) * (15 * (2 * units : ℕ)) = 30000 * checkins := by
      push_cast
      field_simp
      ring
    rw [hscaled]
    linarith

theorem laborValue_exact_iff (hlow : 10 ≤ units) {labor : ℕ} (hpos : 0 < labor) (hhigh : labor ≤ 100000) :
    toPlaces 2 (toDigits 60 (toDigits 60 (checkins / (units / 10 : ℚ)) * (labor / 100)))
        = toPlaces 2 (checkins / (units / 10 : ℚ) * (labor / 100))
      ↔ ¬ HalfLost 60 2 (checkins / (units / 10 : ℚ)) (labor / 100) := by
  have hunits : (0 : ℚ) < units := by exact_mod_cast (by omega : 0 < units)
  have hlabor : (0 : ℚ) < labor := by exact_mod_cast hpos
  have hbound : (checkins : ℚ) < 10 ^ 31 := by exact_mod_cast hcheckins
  have hlaborBound : (labor : ℚ) ≤ 100000 := by exact_mod_cast hhigh
  apply @toPlaces_multiple_iff 60 (2 * units) 2 (20 * checkins * labor + units) _ _ (by positivity) (by positivity) (by omega)
    (by decide)
  · push_cast
    field_simp
    ring
  · have hscaled : (checkins : ℚ) / (units / 10) * (labor / 100) * 10 ^ (2 : ℤ) * (100 * (2 * units : ℕ))
        = 2000 * (checkins * labor) := by
      push_cast
      field_simp
      ring
    have hproduct : (checkins : ℚ) * labor ≤ 10 ^ 31 * 100000 := by gcongr
    rw [hscaled]
    linarith

end

section

variable {days cost : ℕ} (hdays : days < 10 ^ 19) (hcost : cost ≤ 1000000000)

include hdays hcost

theorem yearly_lt : (cost : ℚ) * days < 10 ^ 28 := by
  have hproduct : cost * days < 10 ^ 28 := by
    calc cost * days ≤ 1000000000 * days := Nat.mul_le_mul_right _ hcost
      _ < 1000000000 * 10 ^ 19 := Nat.mul_lt_mul_of_pos_left hdays (by decide)
      _ = 10 ^ 28 := by decide
  exact_mod_cast hproduct

theorem cost_exact :
    toPlaces 2 (toDigits 60 (cost / 100 * days / 365 : ℚ)) = toPlaces 2 (cost / 100 * days / 365 : ℚ) := by
  have hbound := yearly_lt hdays hcost
  apply @toPlaces_toDigits 60 730 2 (2 * cost * days + 365) _ (by positivity) (by decide)
  · push_cast
    field_simp
    ring
  · have hscaled : (cost : ℚ) / 100 * days / 365 * 10 ^ (2 : ℤ) * (15 * (730 : ℕ)) = 30 * (cost * days) := by
      push_cast
      field_simp
      ring
    rw [hscaled]
    linarith

theorem costPerItem_exact {checkins : ℕ} (hpos : 0 < checkins) :
    toPlaces 4 (toDigits 60 (toDigits 60 (cost / 100 * days / 365 : ℚ) / checkins))
      = toPlaces 4 (cost / 100 * days / 365 / checkins : ℚ) := by
  have hcheckins : (0 : ℚ) < checkins := by exact_mod_cast hpos
  have hone : (1 : ℚ) ≤ checkins := by exact_mod_cast hpos
  have hbound := yearly_lt hdays hcost
  obtain ⟨x, hx⟩ : ∃ x : ℚ, x = cost / 100 * days / 365 := ⟨_, rfl⟩
  have hnonneg : 0 ≤ x := by
    rw [hx]
    positivity
  have hscaled : x * 36500 = cost * days := by
    rw [hx]
    ring
  have hitem : x / checkins ≤ x := div_le_self hnonneg hone
  rw [← hx]
  apply @toPlaces_of_error 60 (146 * checkins) 4 (40 * cost * days + 73 * checkins) _ _ (by positivity)
    (toDigits_nonneg (div_nonneg (toDigits_nonneg hnonneg) hcheckins.le)) (by omega)
  · rw [hx]
    push_cast
    field_simp
    ring
  · rw [div_eq_mul_inv, div_eq_mul_inv]
    exact toDigits_mul_error (by decide) hnonneg (by positivity)
  · have hwhole : x / checkins * 10 ^ (4 : ℤ) * (15 * (146 * checkins : ℕ)) = 600 * (cost * days) := by
      rw [← hscaled]
      push_cast
      field_simp
      ring
    rw [hwhole]
    linarith
  · rintro ⟨k, hk⟩
    -- on a half, the cost itself has five places, and nothing is cut off
    have hfive : x * 10 ^ (5 : ℤ) = ((checkins * (10 * k - 5) : ℤ) : ℚ) := by
      have hdouble : x / checkins * 10 ^ (4 : ℤ) = k - 1 / 2 := by linarith
      have hcost : x * 10 ^ (4 : ℤ) = checkins * (k - 1 / 2) := by
        rw [← hdouble]
        field_simp
      have hnext : x * 10 ^ (5 : ℤ) = x * 10 ^ (4 : ℤ) * 10 := by
        norm_num
        ring
      rw [hnext, hcost]
      push_cast
      ring
    have hcarried : toDigits 60 x = x := by
      apply toDigits_of_scaled hfive
      have habs : |((checkins * (10 * k - 5) : ℤ) : ℚ)| < 10 ^ 60 := by
        rw [← hfive, abs_of_nonneg (by positivity)]
        norm_num
        linarith
      exact_mod_cast habs
    rw [hcarried]
    apply le_of_eq (toDigits_of_hasDigits (hasDigits_of_half (by positivity) hk _)).symm
    norm_num
    linarith

end

/-! ### The code's figures -/

theorem mapM_values {α : Type} {known : Option α} {work : α → Except DecimalError Decimal} {value : α → ℚ}
    (h : ∀ a ∈ known, ∃ z, work a = .ok z ∧ z.value = value a) :
    ∃ figure, known.mapM work = .ok figure ∧ figure.map Decimal.value = known.map value := by
  cases known with
  | none => exact ⟨none, rfl, rfl⟩
  | some a =>
      obtain ⟨z, hz, hvalue⟩ := h a rfl
      refine ⟨some z, ?_, congrArg some hvalue⟩
      change some <$> work a = _
      rw [hz]
      rfl

/-- What the code works out: the digits of `_EXACT` at every step, and then the places. -/
structure CarriedFigures (days : ℕ) (checkins : ℤ) (settings : EffectiveEfficiencySettings) (report : EfficiencyReport) :
    Prop where
  hours : report.staffTimeEquivalentHours.map Decimal.value
    = settings.manualItemsPerHour.map fun rate => toPlaces hoursPlaces (toDigits exactDigits (checkins / rate.value.value))
  laborValue : report.laborValueEquivalent.map Decimal.value
    = Option.map₂ (fun rate labor => toPlaces moneyPlaces
          (toDigits exactDigits (toDigits exactDigits (checkins / rate.value.value) * labor.value.value)))
        settings.manualItemsPerHour settings.laborRate
  cost : report.recurringCost.map Decimal.value
    = settings.recurringAnnualCost.map fun cost =>
        toPlaces moneyPlaces (toDigits exactDigits (cost.value * days / daysPerYear))
  net : report.netOperationalValue.map Decimal.value
    = Option.map₂ (fun value cost => value.value - cost.value) report.laborValueEquivalent report.recurringCost
  costPerItem : report.recurringCostPerItem.map Decimal.value
    = if checkins = 0 then none
      else settings.recurringAnnualCost.map fun cost => toPlaces costPerItemPlaces
        (toDigits exactDigits (toDigits exactDigits (cost.value * days / daysPerYear) / checkins))

theorem quantize_values {places : Int} {figures : Option Decimal}
    (h : ∀ z ∈ figures, |z.value| * 10 ^ places + 1 < 10 ^ exactDigits) :
    ∃ rounded, figures.mapM (Decimal.quantize exactDigits places) = .ok rounded
      ∧ rounded.map Decimal.value = (figures.map Decimal.value).map (toPlaces places) := by
  rw [Option.map_map]
  apply mapM_values
  intro z hz
  obtain ⟨rounded, hok, hvalue, -⟩ := Decimal.quantize_ok (h z hz)
  exact ⟨rounded, hok, hvalue⟩

/-- What is known of a figure whose values are known. -/
theorem value_of_mem {figure : Option Decimal} {values : Option ℚ} (h : figure.map Decimal.value = values) {z : Decimal}
    (hz : z ∈ figure) : z.value ∈ values := by
  rw [← h]
  exact Option.mem_map_of_mem _ hz

theorem rate_spec {settings : EffectiveEfficiencySettings} (hsettings : ParsedSettings settings) {rate : ResolvedRate}
    (hrate : rate ∈ settings.manualItemsPerHour) : 1 ≤ rate.value.value := by
  obtain ⟨units, hvalue, hlow, -⟩ := (hsettings.manualItemsPerHour rate hrate).manualItemsPerHour
  have hunits : (10 : ℚ) ≤ units := by exact_mod_cast hlow
  rw [hvalue]
  linarith

theorem labor_spec {settings : EffectiveEfficiencySettings} (hsettings : ParsedSettings settings) {labor : ResolvedRate}
    (hlabor : labor ∈ settings.laborRate) : 0 < labor.value.value ∧ labor.value.value ≤ 1000 := by
  obtain ⟨units, hvalue, hlow, hhigh⟩ := (hsettings.laborRate labor hlabor).laborRate
  have hunits : (0 : ℚ) < units := by exact_mod_cast hlow
  have hbound : (units : ℚ) ≤ 100000 := by exact_mod_cast hhigh
  rw [hvalue]
  constructor <;> linarith

theorem annual_spec {settings : EffectiveEfficiencySettings} (hsettings : ParsedSettings settings) {days : ℕ}
    (hdays : days < 10 ^ 19) {cost : Decimal} (hcost : cost ∈ settings.recurringAnnualCost) :
    0 ≤ cost.value * days ∧ cost.value * days < 10 ^ 26
      ∧ toDigits exactDigits (cost.value * days) = cost.value * days := by
  obtain ⟨units, hvalue, hhigh⟩ := (hsettings.recurringAnnualCost cost hcost).recurringAnnualCost
  have hlt := yearly_lt hdays hhigh
  have hnonneg : (0 : ℚ) ≤ units * days := by positivity
  have hproduct : cost.value * days = units * days / 100 := by
    rw [hvalue]
    ring
  rw [hproduct]
  refine ⟨by positivity, by linarith, ?_⟩
  apply @toDigits_of_scaled exactDigits (units * days) 2
  · push_cast
    norm_num
  · have habs : |((units * days : ℤ) : ℚ)| < 10 ^ exactDigits := by
      push_cast
      rw [abs_of_nonneg hnonneg]
      exact hlt.trans (by norm_num [exactDigits])
    exact_mod_cast habs

/-- The hours before they are rounded. -/
theorem hours_carried (checkins : ℤ) {settings : EffectiveEfficiencySettings} (hsettings : ParsedSettings settings) :
    ∃ hours, (settings.manualItemsPerHour.mapM fun rate => Decimal.divide exactDigits (.ofInt checkins) rate.value) = .ok hours
      ∧ hours.map Decimal.value = settings.manualItemsPerHour.map fun rate => toDigits exactDigits (checkins / rate.value.value) := by
  apply mapM_values
  intro rate hrate
  have hne : rate.value.value ≠ 0 := by
    have hone := rate_spec hsettings hrate
    linarith
  obtain ⟨z, hz, hzvalue⟩ := Decimal.divide_ok exactDigits (.ofInt checkins) hne
  refine ⟨z, hz, ?_⟩
  rw [hzvalue, Decimal.value_ofInt]

/-- The cost of the days before it is rounded. -/
theorem cost_carried {settings : EffectiveEfficiencySettings} (hsettings : ParsedSettings settings) {days : ℕ}
    (hdays : days < 10 ^ 19) :
    ∃ cost, (settings.recurringAnnualCost.mapM fun cost =>
        Decimal.divide exactDigits (Decimal.multiply exactDigits cost (.ofInt days)) (.ofInt daysPerYear)) = .ok cost
      ∧ cost.map Decimal.value
        = settings.recurringAnnualCost.map fun cost => toDigits exactDigits (cost.value * days / daysPerYear) := by
  apply mapM_values
  intro cost hcost
  have hne : (Decimal.ofInt daysPerYear).value ≠ 0 := by
    rw [Decimal.value_ofInt, daysPerYear]
    norm_num
  obtain ⟨z, hz, hzvalue⟩ := Decimal.divide_ok exactDigits (Decimal.multiply exactDigits cost (.ofInt days)) hne
  refine ⟨z, hz, ?_⟩
  have hexact := (annual_spec hsettings hdays hcost).2.2
  rw [hzvalue, Decimal.value_multiply, Decimal.value_ofInt, Decimal.value_ofInt, Int.cast_natCast, hexact]

theorem hours_le {checkins : ℤ} (hcount : 0 ≤ checkins) (hcheckins : checkins < 10 ^ 31) {rate : ℚ} (hrate : 1 ≤ rate) :
    0 ≤ toDigits exactDigits (checkins / rate) ∧ toDigits exactDigits (checkins / rate) ≤ 2 * 10 ^ 31 := by
  have hbound : (checkins : ℚ) < 10 ^ 31 := by exact_mod_cast hcheckins
  have hcountq : (0 : ℚ) ≤ checkins := by exact_mod_cast hcount
  have hnonneg : (0 : ℚ) ≤ checkins / rate := div_nonneg hcountq (by linarith)
  have hle : (checkins : ℚ) / rate ≤ checkins := div_le_self hcountq hrate
  have htwice := @toDigits_le_two_mul exactDigits (by decide) _ hnonneg
  exact ⟨toDigits_nonneg hnonneg, by linarith⟩

theorem map₂_values {α β : Type} {figure : Option Decimal} {known : Option α} {value : α → ℚ} (work : Decimal → β → Decimal)
    (result : ℚ → β → ℚ) (h : figure.map Decimal.value = known.map value)
    (hwork : ∀ z b, (work z b).value = result z.value b) (other : Option β) :
    (Option.map₂ work figure other).map Decimal.value = Option.map₂ (fun a b => result (value a) b) known other := by
  rw [Option.map_map₂, ← Option.map₂_map_left result value, ← h, Option.map₂_map_left]
  congr 1
  funext z b
  exact hwork z b

theorem laborValue_carried {checkins : ℤ} {hours : Option Decimal} {settings : EffectiveEfficiencySettings}
    (hhours : hours.map Decimal.value
      = settings.manualItemsPerHour.map fun rate => toDigits exactDigits (checkins / rate.value.value)) :
    (Option.map₂ (fun hours rate => Decimal.multiply exactDigits hours rate.value) hours settings.laborRate).map Decimal.value
      = Option.map₂ (fun rate labor =>
          toDigits exactDigits (toDigits exactDigits (checkins / rate.value.value) * labor.value.value))
        settings.manualItemsPerHour settings.laborRate := by
  apply map₂_values (fun hours rate => Decimal.multiply exactDigits hours rate.value)
    (fun hours (labor : ResolvedRate) => toDigits exactDigits (hours * labor.value.value)) hhours
  intro hours labor
  exact Decimal.value_multiply _ _ _

theorem laborValue_le {checkins : ℤ} (hcount : 0 ≤ checkins) (hcheckins : checkins < 10 ^ 31)
    {settings : EffectiveEfficiencySettings} (hsettings : ParsedSettings settings) {x : ℚ}
    (hx : x ∈ Option.map₂ (fun (rate labor : ResolvedRate) =>
          toDigits exactDigits (toDigits exactDigits (checkins / rate.value.value) * labor.value.value))
        settings.manualItemsPerHour settings.laborRate) : |x| ≤ 4 * 10 ^ 34 := by
  obtain ⟨rate, labor, hrate, hlabor, rfl⟩ := Option.mem_map₂_iff.1 hx
  obtain ⟨hnonneg, hle⟩ := hours_le hcount hcheckins (rate_spec hsettings hrate)
  obtain ⟨hpos, hlaborLe⟩ := labor_spec hsettings hlabor
  have hproduct : 0 ≤ toDigits exactDigits (checkins / rate.value.value) * labor.value.value := mul_nonneg hnonneg hpos.le
  have htwice := @toDigits_le_two_mul exactDigits (by decide) _ hproduct
  have hbound : toDigits exactDigits (checkins / rate.value.value) * labor.value.value ≤ 2 * 10 ^ 31 * 1000 := by gcongr
  rw [abs_of_nonneg (toDigits_nonneg hproduct)]
  linarith

theorem cost_le {settings : EffectiveEfficiencySettings} (hsettings : ParsedSettings settings) {days : ℕ}
    (hdays : days < 10 ^ 19) {cost : Decimal} (hcost : cost ∈ settings.recurringAnnualCost) :
    0 ≤ toDigits exactDigits (cost.value * days / daysPerYear)
      ∧ toDigits exactDigits (cost.value * days / daysPerYear) ≤ 10 ^ 26 := by
  obtain ⟨hnonneg, hlt, -⟩ := annual_spec hsettings hdays hcost
  have hquotient : (0 : ℚ) ≤ cost.value * days / daysPerYear := by
    rw [daysPerYear]
    positivity
  have htwice := @toDigits_le_two_mul exactDigits (by decide) _ hquotient
  refine ⟨toDigits_nonneg hquotient, htwice.trans ?_⟩
  rw [daysPerYear]
  push_cast
  linarith

theorem costPerItem_carried {settings : EffectiveEfficiencySettings} (hsettings : ParsedSettings settings) {days : ℕ}
    (hdays : days < 10 ^ 19) {checkins : ℤ} (hcount : 0 ≤ checkins) {cost : Option Decimal}
    (hcost : cost.map Decimal.value
      = settings.recurringAnnualCost.map fun cost => toDigits exactDigits (cost.value * days / daysPerYear)) :
    ∃ perItem, costPerCheckin checkins cost = .ok perItem
      ∧ perItem.map Decimal.value = if checkins = 0 then none
        else settings.recurringAnnualCost.map fun cost => toPlaces costPerItemPlaces
          (toDigits exactDigits (toDigits exactDigits (cost.value * days / daysPerYear) / checkins)) := by
  rw [costPerCheckin]
  by_cases hzero : checkins = 0
  · rw [if_pos hzero, if_pos hzero]
    exact ⟨none, rfl, rfl⟩
  · rw [if_neg hzero, if_neg hzero]
    have hone : (1 : ℚ) ≤ checkins := by exact_mod_cast (by omega : 1 ≤ checkins)
    have hvalues : (settings.recurringAnnualCost.map fun cost => toPlaces costPerItemPlaces
          (toDigits exactDigits (toDigits exactDigits (cost.value * days / daysPerYear) / checkins)))
        = cost.map fun z => toPlaces costPerItemPlaces (toDigits exactDigits (z.value / checkins)) := by
      have hmapped := congrArg (Option.map fun x => toPlaces costPerItemPlaces (toDigits exactDigits (x / checkins))) hcost
      rw [Option.map_map, Option.map_map] at hmapped
      exact hmapped.symm
    rw [hvalues]
    apply mapM_values
    intro z hz
    obtain ⟨annual, hannual, hz'⟩ := Option.mem_map.1 (value_of_mem hcost hz)
    obtain ⟨hnonneg, hle⟩ := cost_le hsettings hdays hannual
    rw [hz'] at hnonneg hle
    have hne : (Decimal.ofInt checkins).value ≠ 0 := by
      rw [Decimal.value_ofInt]
      exact_mod_cast hzero
    obtain ⟨item, hitem, hitemValue⟩ := Decimal.divide_ok exactDigits z hne
    rw [Decimal.value_ofInt] at hitemValue
    have hquotient : 0 ≤ z.value / checkins := div_nonneg hnonneg (by linarith)
    have hquotientLe : z.value / checkins ≤ z.value := div_le_self hnonneg hone
    have htwice := @toDigits_le_two_mul exactDigits (by decide) _ hquotient
    have hbound : |item.value| * 10 ^ costPerItemPlaces + 1 < 10 ^ exactDigits := by
      rw [hitemValue, abs_of_nonneg (toDigits_nonneg hquotient)]
      norm_num [costPerItemPlaces, exactDigits] at htwice ⊢
      linarith
    obtain ⟨rounded, hrounded, hroundedValue, -⟩ := Decimal.quantize_ok hbound
    refine ⟨rounded, ?_, ?_⟩
    · rw [hitem]
      exact hrounded
    · rw [hroundedValue, hitemValue]

theorem efficiencyFigures_spec (count : ℤ) {days : ℕ} {checkins : ℤ} {settings : EffectiveEfficiencySettings}
    (hcount : 0 ≤ checkins) (hcheckins : checkins < 10 ^ 31) (hdays : days < 10 ^ 19) (hsettings : ParsedSettings settings) :
    ∃ report, efficiencyFigures count days checkins settings = .ok report ∧ CarriedFigures days checkins settings report := by
  obtain ⟨hours, hhours, hhoursValue⟩ := hours_carried checkins hsettings
  obtain ⟨cost, hcost, hcostValue⟩ := cost_carried hsettings hdays
  have hlaborValue := laborValue_carried hhoursValue
  obtain ⟨labor, hlabor⟩ : ∃ labor, labor
      = Option.map₂ (fun hours rate => Decimal.multiply exactDigits hours rate.value) hours settings.laborRate := ⟨_, rfl⟩
  rw [← hlabor] at hlaborValue
  obtain ⟨roundedValue, hroundedValue, hvalue⟩ : ∃ rounded, labor.mapM (Decimal.quantize exactDigits moneyPlaces) = .ok rounded
      ∧ rounded.map Decimal.value = (labor.map Decimal.value).map (toPlaces moneyPlaces) := by
    apply quantize_values
    intro z hz
    have hle := laborValue_le hcount hcheckins hsettings (value_of_mem hlaborValue hz)
    norm_num [moneyPlaces, exactDigits]
    linarith
  obtain ⟨roundedCost, hroundedCost, hcostRounded⟩ : ∃ rounded, cost.mapM (Decimal.quantize exactDigits moneyPlaces) = .ok rounded
      ∧ rounded.map Decimal.value = (cost.map Decimal.value).map (toPlaces moneyPlaces) := by
    apply quantize_values
    intro z hz
    obtain ⟨annual, hannual, hz'⟩ := Option.mem_map.1 (value_of_mem hcostValue hz)
    obtain ⟨hnonneg, hle⟩ := cost_le hsettings hdays hannual
    rw [← hz', abs_of_nonneg hnonneg]
    norm_num [moneyPlaces, exactDigits] at hle ⊢
    linarith
  obtain ⟨roundedHours, hroundedHours, hhoursRounded⟩ : ∃ rounded, hours.mapM (Decimal.quantize exactDigits hoursPlaces) = .ok rounded
      ∧ rounded.map Decimal.value = (hours.map Decimal.value).map (toPlaces hoursPlaces) := by
    apply quantize_values
    intro z hz
    obtain ⟨rate, hrate, hz'⟩ := Option.mem_map.1 (value_of_mem hhoursValue hz)
    obtain ⟨hnonneg, hle⟩ := hours_le hcount hcheckins (rate_spec hsettings hrate)
    rw [← hz', abs_of_nonneg hnonneg]
    norm_num [hoursPlaces, exactDigits] at hle ⊢
    linarith
  obtain ⟨perItem, hperItem, hperItemValue⟩ := costPerItem_carried hsettings hdays hcount hcostValue
  rw [hlaborValue, Option.map_map₂] at hvalue
  rw [hcostValue, Option.map_map] at hcostRounded
  rw [hhoursValue, Option.map_map] at hhoursRounded
  rw [efficiencyFigures]
  simp only [hhours, hcost, hlabor ▸ hroundedValue, hroundedCost, hroundedHours, hperItem, bind, Except.bind, pure, Except.pure]
  refine ⟨_, rfl, hhoursRounded, hvalue, hcostRounded, ?_, hperItemValue⟩
  dsimp only
  rw [Option.map_map₂]
  cases hfirst : roundedValue with
  | none => rfl
  | some first =>
      cases hsecond : roundedCost with
      | none => rfl
      | some second =>
          obtain ⟨rate, labor, hrate, hlaborRate, hfirst'⟩ := Option.mem_map₂_iff.1 (value_of_mem hvalue hfirst)
          obtain ⟨annual, hannual, hsecond'⟩ := Option.mem_map.1 (value_of_mem hcostRounded hsecond)
          have hlaborLe := laborValue_le hcount hcheckins hsettings (Option.mem_map₂_iff.2 ⟨rate, labor, hrate, hlaborRate, rfl⟩)
          obtain ⟨hcostNonneg, hcostLe⟩ := cost_le hsettings hdays hannual
          rw [Function.comp_apply] at hsecond'
          apply congrArg some
          dsimp only
          rw [Decimal.value_subtract, ← hfirst', ← hsecond']
          apply toDigits_sub_toPlaces
          rw [abs_of_nonneg hcostNonneg]
          norm_num [moneyPlaces, exactDigits] at hlaborLe hcostLe ⊢
          linarith

/-! ### When the figures are exact -/

theorem laborValues_exact_iff {checkins : ℤ} (hcount : 0 ≤ checkins) (hcheckins : checkins < 10 ^ 31)
    {settings : EffectiveEfficiencySettings} (hsettings : ParsedSettings settings) :
    Option.map₂ (fun (rate labor : ResolvedRate) => toPlaces moneyPlaces
          (toDigits exactDigits (toDigits exactDigits (checkins / rate.value.value) * labor.value.value)))
        settings.manualItemsPerHour settings.laborRate
      = Option.map₂ (fun (rate labor : ResolvedRate) => toPlaces moneyPlaces (checkins / rate.value.value * labor.value.value))
        settings.manualItemsPerHour settings.laborRate
      ↔ ¬ LaborHalfLost checkins settings := by
  obtain ⟨n, rfl⟩ := Int.eq_ofNat_of_zero_le hcount
  cases hmanual : settings.manualItemsPerHour with
  | none => simp [LaborHalfLost, hmanual]
  | some rate =>
      cases hlabor : settings.laborRate with
      | none => simp [LaborHalfLost, hlabor]
      | some labor =>
          obtain ⟨units, hunits, hlow, -⟩ := (hsettings.manualItemsPerHour rate hmanual).manualItemsPerHour
          obtain ⟨laborUnits, hlaborUnits, hpos, hhigh⟩ := (hsettings.laborRate labor hlabor).laborRate
          have hiff := laborValue_exact_iff (by exact_mod_cast hcheckins : n < 10 ^ 31) hlow hpos hhigh
          rw [← hunits, ← hlaborUnits] at hiff
          have hlost : LaborHalfLost n settings ↔ HalfLost 60 2 (n / rate.value.value) labor.value.value := by
            simp [LaborHalfLost, hmanual, hlabor, exactDigits, moneyPlaces]
          rw [hlost, ← hiff, Option.map₂_some_some, Option.map₂_some_some, Option.some_inj]
          rfl

/-- The figures that are worked out are the exact ones if and only if no half cent is lost. -/
theorem CarriedFigures.exact_iff {days : ℕ} {checkins : ℤ} {settings : EffectiveEfficiencySettings} {report : EfficiencyReport}
    (hcount : 0 ≤ checkins) (hcheckins : checkins < 10 ^ 31) (hdays : days < 10 ^ 19) (hsettings : ParsedSettings settings)
    (h : CarriedFigures days checkins settings report) :
    EfficiencyExact days checkins settings report ↔ ¬ LaborHalfLost checkins settings := by
  rw [← laborValues_exact_iff hcount hcheckins hsettings, ← h.laborValue]
  constructor
  · exact EfficiencyExact.laborValue
  · intro hlabor
    obtain ⟨n, rfl⟩ := Int.eq_ofNat_of_zero_le hcount
    have hn : n < 10 ^ 31 := by exact_mod_cast hcheckins
    refine ⟨?_, hlabor, ?_, h.net, ?_⟩
    · rw [h.hours]
      apply Option.map_congr
      intro rate hrate
      obtain ⟨units, hunits, hlow, -⟩ := (hsettings.manualItemsPerHour rate hrate).manualItemsPerHour
      rw [hunits]
      exact hours_exact hn hlow
    · rw [h.cost]
      apply Option.map_congr
      intro cost hcost
      obtain ⟨units, hunits, hhigh⟩ := (hsettings.recurringAnnualCost cost hcost).recurringAnnualCost
      rw [hunits]
      exact cost_exact hdays hhigh
    · rw [h.costPerItem]
      by_cases hzero : (n : ℤ) = 0
      · rw [if_pos hzero, if_pos hzero]
      · rw [if_neg hzero, if_neg hzero]
        apply Option.map_congr
        intro cost hcost
        obtain ⟨units, hunits, hhigh⟩ := (hsettings.recurringAnnualCost cost hcost).recurringAnnualCost
        rw [hunits]
        exact costPerItem_exact hdays hhigh (by omega)

/-! ### The counts -/

/-- `sys.maxsize`: no list is longer. -/
def maxListLength : ℕ := 2 ^ 63 - 1

theorem sum_le {counts : List ℤ} {bound : ℤ} (h : ∀ count ∈ counts, 0 ≤ count ∧ count < bound) :
    0 ≤ counts.sum ∧ counts.sum ≤ counts.length * bound := by
  induction counts with
  | nil => simp
  | cons count counts ih =>
      obtain ⟨hnonneg, hlt⟩ := h count List.mem_cons_self
      obtain ⟨hsum, hle⟩ := ih fun other hother => h other (List.mem_cons_of_mem count hother)
      rw [List.sum_cons, List.length_cons]
      push_cast
      rw [add_mul]
      omega

theorem inServiceCounts_subset {dates : List Date} {checkinDays : List ℤ} {inServiceDate : Option Date} {count : ℤ}
    (h : count ∈ inServiceCounts dates checkinDays inServiceDate) : count ∈ checkinDays := by
  obtain ⟨day, hday, rfl⟩ := List.mem_map.1 h
  exact (List.of_mem_zip (List.mem_of_mem_filter hday)).2

theorem length_inServiceCounts_le (dates : List Date) (checkinDays : List ℤ) (inServiceDate : Option Date) :
    (inServiceCounts dates checkinDays inServiceDate).length ≤ dates.length := by
  rw [inServiceCounts, List.length_map]
  calc _ ≤ (dates.zip checkinDays).length := List.length_filter_le _ _
    _ ≤ dates.length := by
      rw [List.length_zip]
      exact Nat.min_le_left _ _

/-- A range that the figures are about: as many counts as dates, each a count below a million million, in lists. -/
structure CountedRange (dates : List Date) (checkinDays : List ℤ) : Prop where
  aligned : dates.length = checkinDays.length
  listed : dates.length ≤ maxListLength
  counted : ∀ count ∈ checkinDays, 0 ≤ count ∧ count < 10 ^ 12

theorem CountedRange.bounds {dates : List Date} {checkinDays : List ℤ} (h : CountedRange dates checkinDays)
    (inServiceDate : Option Date) :
    (inServiceCounts dates checkinDays inServiceDate).length < 10 ^ 19
      ∧ 0 ≤ (inServiceCounts dates checkinDays inServiceDate).sum
      ∧ (inServiceCounts dates checkinDays inServiceDate).sum < 10 ^ 31 := by
  have hlength := (length_inServiceCounts_le dates checkinDays inServiceDate).trans h.listed
  rw [maxListLength] at hlength
  have hcounts : ∀ count ∈ inServiceCounts dates checkinDays inServiceDate, 0 ≤ count ∧ count < 10 ^ 12 :=
    fun count hcount => h.counted count (inServiceCounts_subset hcount)
  obtain ⟨hnonneg, hle⟩ := sum_le hcounts
  refine ⟨by omega, hnonneg, ?_⟩
  omega

theorem calculateEfficiency_spec {dates : List Date} {checkinDays : List ℤ} {settings : EffectiveEfficiencySettings}
    (hrange : CountedRange dates checkinDays) (hsettings : ParsedSettings settings) :
    ∃ report, calculateEfficiency dates checkinDays settings = .ok report
      ∧ CarriedFigures (inServiceCounts dates checkinDays settings.inServiceDate).length
          (inServiceCounts dates checkinDays settings.inServiceDate).sum settings report := by
  obtain ⟨hdays, hcount, hcheckins⟩ := hrange.bounds settings.inServiceDate
  obtain ⟨report, hreport, hcarried⟩ := efficiencyFigures_spec checkinDays.sum hcount hcheckins hdays hsettings
  refine ⟨report, ?_, hcarried⟩
  have hcounts : ¬ checkinDays.any (· < 0) = true := by
    rw [List.any_eq_true]
    rintro ⟨count, hmem, hneg⟩
    have hnonneg := (hrange.counted count hmem).1
    have hlt : count < 0 := of_decide_eq_true hneg
    omega
  rw [calculateEfficiency, if_neg (not_not.2 hrange.aligned), if_neg hcounts]
  dsimp only
  rw [hreport]
  rfl

/-- The figures of a range are the exact values of their formulas, rounded once, if and only if the labor value is not on a
half cent that is lost with the digits cut off the hours. -/
theorem efficiency_figures_exact_iff {dates : List Date} {checkinDays : List ℤ} {settings : EffectiveEfficiencySettings}
    (hrange : CountedRange dates checkinDays) (hsettings : ParsedSettings settings) :
    ∃ report, calculateEfficiency dates checkinDays settings = .ok report
      ∧ (EfficiencyExact (inServiceCounts dates checkinDays settings.inServiceDate).length
            (inServiceCounts dates checkinDays settings.inServiceDate).sum settings report
          ↔ ¬ LaborHalfLost (inServiceCounts dates checkinDays settings.inServiceDate).sum settings) := by
  obtain ⟨hdays, hcount, hcheckins⟩ := hrange.bounds settings.inServiceDate
  obtain ⟨report, hreport, hcarried⟩ := calculateEfficiency_spec hrange hsettings
  exact ⟨report, hreport, hcarried.exact_iff hcount hcheckins hdays hsettings⟩

/-- Six items by hand in an hour, and 0.33 for the hour. -/
def thirdSettings : EffectiveEfficiencySettings :=
  ⟨some ⟨⟨false, 33, -2⟩, .organization⟩, some ⟨⟨false, 60, -1⟩, .organization⟩, none, none, none⟩

theorem parsedSettings_third : ParsedSettings thirdSettings := by
  refine ⟨?_, ?_, ?_⟩
  · intro rate hrate
    cases hrate
    exact ⟨.text "0.33".toList, by decide⟩
  · intro rate hrate
    cases hrate
    exact ⟨.text "6.0".toList, by decide⟩
  · intro cost hcost
    cases hcost

theorem countedRange_eleven : CountedRange [⟨2026, 1, 1⟩] [11] := ⟨rfl, by decide, by decide⟩

theorem efficiency_figures_exact_iff_eleven : ∃ report, calculateEfficiency [⟨2026, 1, 1⟩] [11] thirdSettings = .ok report
    ∧ (EfficiencyExact 1 11 thirdSettings report ↔ ¬ LaborHalfLost 11 thirdSettings) :=
  efficiency_figures_exact_iff countedRange_eleven parsedSettings_third

/-- Eleven check-ins are worth 0.605, and the hours lose a third of their last digit. -/
theorem laborHalfLost_eleven : LaborHalfLost 11 thirdSettings := by
  have hhours : ((11 : ℤ) : ℚ) / Decimal.value ⟨false, 60, -1⟩ = 11 / 6 := by norm_num [Decimal.value]
  have hlabor : Decimal.value ⟨false, 33, -2⟩ = 33 / 100 := by norm_num [Decimal.value]
  refine ⟨_, rfl, _, rfl, ?_⟩
  rw [hhours, hlabor]
  have horder : order (11 / 6) = 0 := by
    apply order_eq <;> norm_num
  have hproduct : order (11 / 6 * (33 / 100)) = -1 := by
    apply order_eq <;> norm_num
  have hcut : cut exactDigits (11 / 6) = 1 / 3 := by
    rw [cut, horder, exactDigits, Int.fract_eq_iff]
    refine ⟨by norm_num, by norm_num, (11 * 10 ^ 59 - 2) / 6, ?_⟩
    norm_num
  rw [HalfLost, hcut, horder, hproduct]
  refine ⟨⟨61, by norm_num [moneyPlaces]⟩, by norm_num, by norm_num⟩

/-- The labor value of eleven check-ins is reported as 0.60 and not as 0.61. -/
theorem efficiency_half_cent_lost : CountedRange [⟨2026, 1, 1⟩] [11] ∧ ParsedSettings thirdSettings
    ∧ ¬ ∃ report, calculateEfficiency [⟨2026, 1, 1⟩] [11] thirdSettings = .ok report
      ∧ EfficiencyExact 1 11 thirdSettings report := by
  refine ⟨countedRange_eleven, parsedSettings_third, ?_⟩
  rintro ⟨report, hreport, hexact⟩
  obtain ⟨report', hreport', hcarried⟩ := calculateEfficiency_spec countedRange_eleven parsedSettings_third
  rw [hreport] at hreport'
  cases hreport'
  exact (hcarried.exact_iff (by decide) (by decide) (by decide) parsedSettings_third).1 hexact laborHalfLost_eleven

end SortView
