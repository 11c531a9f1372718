import SortView.Lib.JsText
import SortView.Lib.TextOrder
import SortView.Services.SortViewValue

/-!
# The checks of the settings forms

`frontend/src/reports/efficiencyText.ts`, `sortviewValueText.ts` and the calendar dates of `dateRange.ts`: what a form
says about a typed field before it is sent, and that the API says the same.
-/

namespace SortView

open PyText Calendar

namespace FieldChecks

/-! ### Dates -/

/-- `CALENDAR_DATE.exec(date)`: the numbers of `YYYY-MM-DD`. -/
def calendarDate (text : Text) : Option (Nat × Nat × Nat) := do
  let (year, text) ← number 4 text
  let text ← literal '-' text
  let (month, text) ← number 2 text
  let text ← literal '-' text
  let (day, text) ← number 2 text
  if text = [] then some (year, month, day) else none

/-- `Date.UTC(year, month - 1, day)` as a day number from 0001-01-01: a year below 100 is one of the 20th century, and a
month or a day out of range rolls over. -/
def utcDay (year month day : Nat) : Nat :=
  let months := (if year ≤ 99 then 1900 + year else year) * 12 + month - 1
  daysBefore (months / 12 - 1) + daysBeforeMonth (isLeap (months / 12)) (months % 12 + 1) + day - 1

/-- `new Date(utc).toISOString().slice(0, 10)`: years beyond 9999 have a sign and six digits. -/
def isoDay (day : Nat) : Text :=
  if day < maxDays then (dateOf day).written
  else ('+' :: (padded 6 (dateOf day).year ++ '-' :: (padded 2 (dateOf day).month ++ '-' :: padded 2 (dateOf day).day))).take 10

/-- `isCalendarDate`: a date that rolls over is not the one that was written. -/
def isCalendarDate (text : Text) : Bool :=
  match calendarDate text with
  | none => false
  | some (year, month, day) => isoDay (utcDay year month day) = text

/-! ### Fields -/

structure DecimalRule where
  places : Nat
  minimum : Nat
  maximum : Nat
  aboveMinimum : Bool := false

/-- `text.padEnd(width, '0')`. -/
def padEndZeros (text : Text) (width : Nat) : Text := text ++ List.replicate (width - text.length) '0'

/-- `BigInt(text)` of digits, where no digits are 0. -/
def bigInt (digits : Text) : Nat := Nat.ofDigitChars 10 digits 0

/-- `decimalProblem`. `DECIMAL_TEXT` is the pattern of the API, and its `$` is the end of the text. -/
def decimalProblem (text : JsText) (rule : DecimalRule) : Option EfficiencyCode :=
  match if text.length ≤ 32 then decimalGroups text.chars else none with
  | none => some .notADecimal
  | some groups =>
      if rule.places < groups.2.length then some .tooManyDecimalPlaces
      else
        let scale := 10 ^ rule.places
        let value := bigInt groups.1 * scale + bigInt (padEndZeros groups.2 rule.places)
        let minimum := rule.minimum * scale
        let tooSmall := if rule.aboveMinimum then value ≤ minimum else value < minimum
        if tooSmall ∨ rule.maximum * scale < value then some .outOfRange else none

/-- `fieldValue`: what a field sends. -/
def fieldValue (typed : JsText) : Option JsText := if typed.trim = [] then none else some typed.trim

/-- `EfficiencyField`. -/
inductive EfficiencyField where
  | laborRate
  | manualItemsPerHour
  | oneTimeCost
  | recurringAnnualCost
  | inServiceDate
  deriving DecidableEq

/-- `DECIMAL_RULES` of the Efficiency form. -/
def EfficiencyField.decimalRule : EfficiencyField → Option DecimalRule
  | .laborRate => some { places := 2, minimum := 0, maximum := 1000, aboveMinimum := true }
  | .manualItemsPerHour => some { places := 1, minimum := 1, maximum := 1000 }
  | .oneTimeCost => some { places := 2, minimum := 0, maximum := 100000000 }
  | .recurringAnnualCost => some { places := 2, minimum := 0, maximum := 10000000 }
  | .inServiceDate => none

/-- `fieldProblem`. The texts that are compared are both of ASCII. -/
def fieldProblem (field : EfficiencyField) (typed : JsText) (today : Text) : Option EfficiencyCode :=
  let text := typed.trim
  if text = [] then none
  else
    match field.decimalRule with
    | some rule => decimalProblem text rule
    | none =>
        if ¬ isCalendarDate text.chars then some .notADate
        else if textLe text.chars today then none
        else some .inTheFuture

/-- `ValueField`. -/
inductive ValueField where
  | laborRate
  | subscriptionAnnualCost
  | reportingTasksPerMonth
  | reportingBaselineMinutesPerTask
  | reportingCurrentMinutesPerTask
  | reportingBasis
  | reportingAsOf
  | troubleshootingIncidentsPerMonth
  | troubleshootingStaffPerIncident
  | troubleshootingBaselineMinutes
  | troubleshootingCurrentMinutes
  | troubleshootingBasis
  | troubleshootingAsOf
  deriving DecidableEq

def ValueField.name : ValueField → Text
  | .laborRate => laborRateName
  | .subscriptionAnnualCost => subscriptionAnnualCostName
  | .reportingTasksPerMonth => categoryPath reportingName tasksPerMonthName
  | .reportingBaselineMinutesPerTask => categoryPath reportingName baselineMinutesPerTaskName
  | .reportingCurrentMinutesPerTask => categoryPath reportingName currentMinutesPerTaskName
  | .reportingBasis => categoryPath reportingName basisName
  | .reportingAsOf => categoryPath reportingName asOfName
  | .troubleshootingIncidentsPerMonth => categoryPath troubleshootingName incidentsPerMonthName
  | .troubleshootingStaffPerIncident => categoryPath troubleshootingName staffPerIncidentName
  | .troubleshootingBaselineMinutes => categoryPath troubleshootingName baselineMinutesName
  | .troubleshootingCurrentMinutes => categoryPath troubleshootingName currentMinutesName
  | .troubleshootingBasis => categoryPath troubleshootingName basisName
  | .troubleshootingAsOf => categoryPath troubleshootingName asOfName

inductive FieldKind where
  | basis
  | date
  | decimal
  deriving DecidableEq

/-- `fieldKind`. -/
def fieldKind (field : ValueField) : FieldKind :=
  if ".basis".toList <:+ field.name then .basis else if ".as_of".toList <:+ field.name then .date else .decimal

/-- `PER_MONTH`. -/
def perMonth : DecimalRule := { places := 1, minimum := 0, maximum := 100000 }

/-- `MINUTES`. -/
def minutes : DecimalRule := { places := 1, minimum := 0, maximum := 10000 }

/-- `DECIMAL_RULES` of the SortView Value form. It has none for a basis or a date, which `none` stands for. -/
def ValueField.decimalRule : ValueField → Option DecimalRule
  | .laborRate => some { places := 2, minimum := 0, maximum := 10000, aboveMinimum := true }
  | .subscriptionAnnualCost => some { places := 2, minimum := 0, maximum := 10000000 }
  | .reportingTasksPerMonth => some perMonth
  | .reportingBaselineMinutesPerTask => some minutes
  | .reportingCurrentMinutesPerTask => some minutes
  | .troubleshootingIncidentsPerMonth => some perMonth
  | .troubleshootingStaffPerIncident => some { places := 1, minimum := 0, maximum := 1000, aboveMinimum := true }
  | .troubleshootingBaselineMinutes => some minutes
  | .troubleshootingCurrentMinutes => some minutes
  | .reportingBasis | .reportingAsOf | .troubleshootingBasis | .troubleshootingAsOf => none

/-- `valueFieldProblem`. -/
def valueFieldProblem (field : ValueField) (typed : JsText) : Option EfficiencyCode :=
  let text := typed.trim
  if text = [] then none
  else
    match fieldKind field with
    | .basis => if text.chars = Basis.text .estimate ∨ text.chars = Basis.text .measured then none else some .notABasis
    | .date => if isCalendarDate text.chars then none else some .notADate
    | .decimal => field.decimalRule.elim none fun rule => decimalProblem text rule

/-! ### What the API says -/

/-- The code for which a value is refused. -/
def refusal {α : Type} : Except EfficiencyCode α → Option EfficiencyCode
  | .ok _ => none
  | .error code => some code

/-- What the API answers to a value of an Efficiency field on a product date: its `_FIELDS` and the date. -/
def EfficiencyField.refusal (today : Date) (value : Json) : EfficiencyField → Option EfficiencyCode
  | .laborRate => FieldChecks.refusal (parseDecimalText laborRateField value)
  | .manualItemsPerHour => FieldChecks.refusal (parseDecimalText manualItemsPerHourField value)
  | .oneTimeCost => FieldChecks.refusal (parseDecimalText oneTimeCostField value)
  | .recurringAnnualCost => FieldChecks.refusal (parseDecimalText recurringAnnualCostField value)
  | .inServiceDate => FieldChecks.refusal (parseDateText (some today) value)

/-- What the API answers to a value of a SortView Value field: its `_FIELDS` and `_CATEGORY_FIELDS`, bases and dates. -/
def ValueField.refusal (today : Date) (value : Json) : ValueField → Option EfficiencyCode
  | .laborRate => FieldChecks.refusal (parseDecimalText valueLaborRateField value)
  | .subscriptionAnnualCost => FieldChecks.refusal (parseDecimalText subscriptionAnnualCostField value)
  | .reportingTasksPerMonth => FieldChecks.refusal (parseDecimalText perMonthField value)
  | .reportingBaselineMinutesPerTask => FieldChecks.refusal (parseDecimalText minutesField value)
  | .reportingCurrentMinutesPerTask => FieldChecks.refusal (parseDecimalText minutesField value)
  | .troubleshootingIncidentsPerMonth => FieldChecks.refusal (parseDecimalText perMonthField value)
  | .troubleshootingStaffPerIncident => FieldChecks.refusal (parseDecimalText staffPerIncidentField value)
  | .troubleshootingBaselineMinutes => FieldChecks.refusal (parseDecimalText minutesField value)
  | .troubleshootingCurrentMinutes => FieldChecks.refusal (parseDecimalText minutesField value)
  | .reportingBasis | .troubleshootingBasis => FieldChecks.refusal (parseBasis value)
  | .reportingAsOf | .troubleshootingAsOf => FieldChecks.refusal (parseDateText (some today) value)

/-! ### Decimals -/

/-- A rule of a form and a field of the API with the same limits. -/
structure SameLimits (rule : DecimalRule) (field : DecimalField) : Prop where
  places : rule.places = field.places
  minimum : rule.minimum = field.minimum
  maximum : rule.maximum = field.maximum
  aboveMinimum : rule.aboveMinimum = field.aboveMinimum

theorem toNat_lt_of_isDigit {c : Char} (hc : c.isDigit = true) : c.toNat < 128 :=
  Nat.lt_of_le_of_lt (Char.isDigit_iff_toNat.1 hc).2 (by decide)

theorem decimalGroups_ascii {text : Text} {groups : Text × Text} (h : decimalGroups text = some groups) :
    ∀ c ∈ text, c.toNat < 128 := by
  have hwhole : ∀ c ∈ text.takeWhile Char.isDigit, c.toNat < 128 := by
    intro c hc
    exact toNat_lt_of_isDigit (List.all_eq_true.1 List.all_takeWhile c hc)
  rw [decimalGroups] at h
  split at h
  · intro c hc
    rw [← @List.takeWhile_append_dropWhile _ Char.isDigit text] at hc
    rcases List.mem_append.1 hc with hc | hc
    · exact hwhole c hc
    · cases hrest : text.dropWhile Char.isDigit with
      | nil =>
          rw [hrest] at hc
          cases hc
      | cons d fraction =>
          rw [hrest] at h hc
          dsimp only at h
          split at h
          · next hpoint =>
            rcases List.mem_cons.1 hc with rfl | hc
            · rw [hpoint.1]
              decide
            · exact toNat_lt_of_isDigit (List.all_eq_true.1 hpoint.2.2 c hc)
          · cases h
  · cases h

/-- The number of the form is the coefficient of the API at the places of the field. -/
theorem bigInt_eq {groups : Text × Text} {places : Nat} (h : groups.2.length ≤ places) :
    bigInt groups.1 * 10 ^ places + bigInt (padEndZeros groups.2 places)
      = (groupsDecimal groups).coefficient * 10 ^ (places - groups.2.length) := by
  have hpow : 10 ^ places = 10 ^ groups.2.length * 10 ^ (places - groups.2.length) := by
    rw [← Nat.pow_add, Nat.add_sub_cancel' h]
  have hzeros : bigInt (padEndZeros groups.2 places) = 10 ^ (places - groups.2.length) * bigInt groups.2 := by
    rw [bigInt, padEndZeros, Nat.ofDigitChars_append, Nat.ofDigitChars_replicate_zero]
    rfl
  have hcoefficient : (groupsDecimal groups).coefficient = 10 ^ groups.2.length * bigInt groups.1 + bigInt groups.2 := by
    rw [groupsDecimal, Nat.ofDigitChars_append, Nat.ofDigitChars_eq_ofDigitChars_zero]
    rfl
  rw [hzeros, hcoefficient, hpow]
  ring

/-- A number is out of the range of the form if and only if it is out of the range of the API. -/
theorem outOfRange_iff {rule : DecimalRule} {field : DecimalField} (hsame : SameLimits rule field) {groups : Text × Text}
    (hplaces : groups.2.length ≤ rule.places) :
    ((if rule.aboveMinimum then
          bigInt groups.1 * 10 ^ rule.places + bigInt (padEndZeros groups.2 rule.places) ≤ rule.minimum * 10 ^ rule.places
        else bigInt groups.1 * 10 ^ rule.places + bigInt (padEndZeros groups.2 rule.places) < rule.minimum * 10 ^ rule.places)
      ∨ rule.maximum * 10 ^ rule.places < bigInt groups.1 * 10 ^ rule.places + bigInt (padEndZeros groups.2 rule.places))
      ↔ field.inRange (groupsDecimal groups) = false := by
  have hscale : 10 ^ rule.places = 10 ^ groups.2.length * 10 ^ (rule.places - groups.2.length) := by
    rw [← Nat.pow_add, Nat.add_sub_cancel' hplaces]
  have hpos : 0 < 10 ^ (rule.places - groups.2.length) := Nat.pow_pos (by decide)
  have hunit : 10 ^ (-(groupsDecimal groups).exponent).toNat = 10 ^ groups.2.length := by
    rw [groupsDecimal, Int.neg_neg, Int.toNat_natCast]
  rw [bigInt_eq hplaces, hscale, ← Nat.mul_assoc, ← Nat.mul_assoc, Nat.mul_le_mul_right_iff hpos, Nat.mul_lt_mul_right hpos,
    Nat.mul_lt_mul_right hpos, hsame.minimum, hsame.maximum, hsame.aboveMinimum, DecimalField.inRange, hunit,
    Bool.and_eq_false_iff, decide_eq_false_iff_not, Nat.not_le]
  cases field.aboveMinimum with
  | true => simp
  | false => simp

/-- The check of a decimal in a form is the check of the API on the text that is sent. -/
theorem decimalProblem_eq {rule : DecimalRule} {field : DecimalField} (hsame : SameLimits rule field) (text : JsText) :
    decimalProblem text rule = refusal (parseDecimalText field (.text text.decode)) := by
  have hread : (if text.decode.length ≤ maxSettingLength then decimalGroups text.decode else none)
      = if text.length ≤ 32 then decimalGroups text.chars else none := by
    rw [← JsText.length_chars text]
    apply JsText.read_decode fun text => if text.length ≤ 32 then decimalGroups text else none
    intro text groups h
    split at h
    · exact decimalGroups_ascii h
    · cases h
  rw [decimalProblem, parseDecimalText, hread]
  cases (if text.length ≤ 32 then decimalGroups text.chars else none) with
  | none => rfl
  | some groups =>
      dsimp only
      rw [hsame.places]
      split
      · rfl
      · next hplaces =>
        rw [← hsame.places] at hplaces
        have hrange := outOfRange_iff hsame (Nat.le_of_not_lt hplaces)
        rw [hsame.places] at hrange
        cases hin : field.inRange (groupsDecimal groups) with
        | true =>
            rw [if_neg (by simpa [hin] using hrange)]
            rfl
        | false =>
            rw [if_pos (hrange.2 hin)]
            rfl

/-! ### Dates -/

theorem isDigit_of_number {width : Nat} {c : Char} {text : Text} {result : Nat × Text}
    (h : number (width + 1) (c :: text) = some result) : c.isDigit = true := by
  rw [number] at h
  split at h
  · next hdigits =>
    rw [List.take_succ_cons, List.all_cons, Bool.and_eq_true] at hdigits
    exact hdigits.2.1
  · cases h

/-- A text that is a calendar date of the form is the text of a date. -/
theorem eq_written_of_isCalendarDate {text : Text} (h : isCalendarDate text = true) :
    ∃ date : Date, date.Valid ∧ text = date.written := by
  rw [isCalendarDate] at h
  split at h
  · cases h
  · next year month day hdate =>
    have htext : isoDay (utcDay year month day) = text := of_decide_eq_true h
    rw [isoDay] at htext
    split at htext
    · next hday => exact ⟨_, valid_dateOf hday, htext.symm⟩
    · exfalso
      rw [calendarDate] at hdate
      simp only [Option.bind_eq_bind] at hdate
      obtain ⟨⟨value, rest⟩, hyear, -⟩ := Option.bind_eq_some_iff.1 hdate
      rw [← htext] at hyear
      exact absurd (isDigit_of_number hyear) (by decide)

theorem written_ascii (date : Date) : ∀ c ∈ date.written, c.toNat < 128 := by
  intro c hc
  have hdash : '-'.toNat < 128 := by decide
  rw [Date.written] at hc
  rcases List.mem_append.1 hc with hc | hc
  · exact toNat_lt_of_isDigit (isDigit_of_mem_padded hc)
  · rcases List.mem_cons.1 hc with rfl | hc
    · exact hdash
    · rcases List.mem_append.1 hc with hc | hc
      · exact toNat_lt_of_isDigit (isDigit_of_mem_padded hc)
      · rcases List.mem_cons.1 hc with rfl | hc
        · exact hdash
        · exact toNat_lt_of_isDigit (isDigit_of_mem_padded hc)

/-- A later date is a later text. -/
theorem textLt_of_dateAfter {date today : Date} (hdate : date.Valid) (hafter : dateAfter date today = true) :
    textLt today.written date.written := by
  obtain ⟨-, hyear, -, hmonth, -, hday⟩ := id hdate
  have hlengths : ∀ leap, ∀ month < 12, (monthLengths leap).getD month 0 ≤ 31 := by decide
  have hlength := hlengths (isLeap date.year) (date.month - 1) (by omega)
  rw [dateAfter] at hafter
  simp only [Bool.or_eq_true, Bool.and_eq_true, decide_eq_true_eq] at hafter
  rw [Date.written, Date.written]
  rcases hafter with hlt | ⟨heq, hlt | ⟨hsame, hlt⟩⟩
  · exact textLt_of_padded (by decide) (by omega) hlt _ _
  · rw [heq]
    apply textLt_append_left
    apply textLt_append_left ['-']
    exact textLt_of_padded (by decide) (by omega) hlt _ _
  · rw [heq, hsame]
    apply textLt_append_left
    apply textLt_append_left ['-']
    apply textLt_append_left
    apply textLt_append_left ['-']
    have hlast := textLt_of_padded (by decide) (by omega : date.day < 10 ^ 2) hlt [] []
    rwa [List.append_nil, List.append_nil] at hlast

/-- A date of a form is a date of the API, which may be after the product date. -/
theorem parseDateText_of_isCalendarDate {text : JsText} (h : isCalendarDate text.chars = true) (today : Date) :
    ∃ date : Date, date.Valid ∧ text.chars = date.written
      ∧ refusal (parseDateText (some today) (.text text.decode)) = if dateAfter date today then some .inTheFuture else none := by
  obtain ⟨date, hvalid, hchars⟩ := eq_written_of_isCalendarDate h
  refine ⟨date, hvalid, hchars, ?_⟩
  have hascii : ∀ c ∈ text.chars, c.toNat < 128 := hchars ▸ written_ascii date
  have hread := readDate_written hvalid []
  rw [List.append_nil] at hread
  rw [JsText.decode_eq_chars text (Or.inr hascii), hchars, parseDateText, hread]
  show refusal (if dateAfter date today = true then _ else _) = _
  split
  · rfl
  · rfl

/-! ### Bases -/

theorem basis_ascii (basis : Basis) : ∀ c ∈ basis.text, c.toNat < 128 := by
  intro c hc
  have hall : basis.text.all (fun c => decide (c.toNat < 128)) = true := by
    cases basis with
    | estimate => decide
    | measured => decide
  exact of_decide_eq_true (List.all_eq_true.1 hall c hc)

theorem decode_eq_basis_iff (text : JsText) (basis : Basis) : text.decode = basis.text ↔ text.chars = basis.text := by
  constructor
  · intro h
    rw [← JsText.decode_eq_chars text (Or.inl (h ▸ basis_ascii basis)), h]
  · intro h
    rw [JsText.decode_eq_chars text (Or.inr (h ▸ basis_ascii basis)), h]

theorem basisProblem_eq (text : JsText) :
    (if text.chars = Basis.text .estimate ∨ text.chars = Basis.text .measured then none else some EfficiencyCode.notABasis)
      = refusal (parseBasis (.text text.decode)) := by
  have hestimateIff := decode_eq_basis_iff text .estimate
  have hmeasuredIff := decode_eq_basis_iff text .measured
  rw [parseBasis]
  by_cases hestimate : text.chars = Basis.text .estimate
  · rw [if_pos (Or.inl hestimate), if_pos (hestimateIff.2 hestimate)]
    rfl
  · by_cases hmeasured : text.chars = Basis.text .measured
    · rw [if_pos (Or.inr hmeasured), if_neg (mt hestimateIff.1 hestimate), if_pos (hmeasuredIff.2 hmeasured)]
      rfl
    · rw [if_neg (not_or.2 ⟨hestimate, hmeasured⟩), if_neg (mt hestimateIff.1 hestimate), if_neg (mt hmeasuredIff.1 hmeasured)]
      rfl

/-! ### The fields of both forms -/

theorem eq_trim_of_fieldValue {typed text : JsText} (h : fieldValue typed = some text) : typed.trim = text ∧ text ≠ [] := by
  rw [fieldValue] at h
  split at h
  · cases h
  · next hne =>
    cases h
    exact ⟨rfl, hne⟩

theorem EfficiencyField.decimal_limits {field : EfficiencyField} (h : field ≠ .inServiceDate) :
    ∃ rule limits, field.decimalRule = some rule ∧ SameLimits rule limits
      ∧ ∀ today value, field.refusal today value = FieldChecks.refusal (parseDecimalText limits value) := by
  cases field with
  | inServiceDate => exact absurd rfl h
  | laborRate => exact ⟨_, laborRateField, rfl, ⟨rfl, rfl, rfl, rfl⟩, fun _ _ => rfl⟩
  | manualItemsPerHour => exact ⟨_, manualItemsPerHourField, rfl, ⟨rfl, rfl, rfl, rfl⟩, fun _ _ => rfl⟩
  | oneTimeCost => exact ⟨_, oneTimeCostField, rfl, ⟨rfl, rfl, rfl, rfl⟩, fun _ _ => rfl⟩
  | recurringAnnualCost => exact ⟨_, recurringAnnualCostField, rfl, ⟨rfl, rfl, rfl, rfl⟩, fun _ _ => rfl⟩

/-- What a kind of field of the SortView Value form is checked by in the API. -/
def ValueField.CheckedBy (field : ValueField) : FieldKind → Prop
  | .basis => ∀ today value, field.refusal today value = FieldChecks.refusal (parseBasis value)
  | .date => ∀ today value, field.refusal today value = FieldChecks.refusal (parseDateText (some today) value)
  | .decimal => ∃ rule limits, field.decimalRule = some rule ∧ SameLimits rule limits
      ∧ ∀ today value, field.refusal today value = FieldChecks.refusal (parseDecimalText limits value)

theorem ValueField.checkedBy_fieldKind (field : ValueField) : field.CheckedBy (fieldKind field) := by
  cases field with
  | laborRate => exact ⟨_, valueLaborRateField, rfl, ⟨rfl, rfl, rfl, rfl⟩, fun _ _ => rfl⟩
  | subscriptionAnnualCost => exact ⟨_, subscriptionAnnualCostField, rfl, ⟨rfl, rfl, rfl, rfl⟩, fun _ _ => rfl⟩
  | reportingTasksPerMonth => exact ⟨_, perMonthField, rfl, ⟨rfl, rfl, rfl, rfl⟩, fun _ _ => rfl⟩
  | reportingBaselineMinutesPerTask => exact ⟨_, minutesField, rfl, ⟨rfl, rfl, rfl, rfl⟩, fun _ _ => rfl⟩
  | reportingCurrentMinutesPerTask => exact ⟨_, minutesField, rfl, ⟨rfl, rfl, rfl, rfl⟩, fun _ _ => rfl⟩
  | reportingBasis => exact fun _ _ => rfl
  | reportingAsOf => exact fun _ _ => rfl
  | troubleshootingIncidentsPerMonth => exact ⟨_, perMonthField, rfl, ⟨rfl, rfl, rfl, rfl⟩, fun _ _ => rfl⟩
  | troubleshootingStaffPerIncident => exact ⟨_, staffPerIncidentField, rfl, ⟨rfl, rfl, rfl, rfl⟩, fun _ _ => rfl⟩
  | troubleshootingBaselineMinutes => exact ⟨_, minutesField, rfl, ⟨rfl, rfl, rfl, rfl⟩, fun _ _ => rfl⟩
  | troubleshootingCurrentMinutes => exact ⟨_, minutesField, rfl, ⟨rfl, rfl, rfl, rfl⟩, fun _ _ => rfl⟩
  | troubleshootingBasis => exact fun _ _ => rfl
  | troubleshootingAsOf => exact fun _ _ => rfl

/-- The settings forms and the API agree on every field and every typed text that is sent: on the code of a decimal and
of a basis, and on a date that the form lets through, where the SortView Value form leaves the product date to the API. -/
theorem forms_agree_with_api {typed text : JsText} (htyped : fieldValue typed = some text) (today : Date) :
    (∀ field : EfficiencyField, field ≠ .inServiceDate →
        fieldProblem field typed today.written = field.refusal today (.text text.decode))
      ∧ (fieldProblem .inServiceDate typed today.written = none →
        EfficiencyField.inServiceDate.refusal today (.text text.decode) = none)
      ∧ (∀ field : ValueField, fieldKind field ≠ .date →
        valueFieldProblem field typed = field.refusal today (.text text.decode))
      ∧ ∀ field : ValueField, fieldKind field = .date → valueFieldProblem field typed = none →
        field.refusal today (.text text.decode) = none
          ∨ field.refusal today (.text text.decode) = some .inTheFuture := by
  obtain ⟨htrim, hne⟩ := eq_trim_of_fieldValue htyped
  refine ⟨?_, ?_, ?_, ?_⟩
  · intro field hfield
    obtain ⟨rule, limits, hrule, hsame, hrefusal⟩ := field.decimal_limits hfield
    rw [fieldProblem, htrim, hrefusal]
    rw [if_neg hne, hrule]
    exact decimalProblem_eq hsame text
  · intro hproblem
    rw [fieldProblem, htrim] at hproblem
    dsimp only [EfficiencyField.decimalRule] at hproblem
    rw [if_neg hne] at hproblem
    split at hproblem
    · cases hproblem
    · next hdate =>
      obtain ⟨date, hvalid, hchars, hrefusal⟩ := parseDateText_of_isCalendarDate (not_not.1 hdate) today
      split at hproblem
      · next hle =>
        rw [EfficiencyField.refusal, hrefusal]
        apply if_neg
        intro hafter
        have hlt := textLt_of_dateAfter hvalid hafter
        rw [hchars] at hle
        exact hlt.2 (textLe_antisymm hlt.1 hle)
      · cases hproblem
  · intro field hkind
    have hchecked := field.checkedBy_fieldKind
    rw [valueFieldProblem, htrim]
    rw [if_neg hne]
    cases hfield : fieldKind field with
    | date => exact absurd hfield hkind
    | basis =>
        rw [hfield] at hchecked
        rw [hchecked]
        exact basisProblem_eq text
    | decimal =>
        rw [hfield] at hchecked
        obtain ⟨rule, limits, hrule, hsame, hrefusal⟩ := hchecked
        rw [hrefusal, hrule]
        exact decimalProblem_eq hsame text
  · intro field hkind hproblem
    have hchecked := field.checkedBy_fieldKind
    rw [hkind] at hchecked
    rw [valueFieldProblem, htrim] at hproblem
    rw [if_neg hne, hkind] at hproblem
    dsimp only at hproblem
    split at hproblem
    · next hdate =>
      obtain ⟨date, -, -, hrefusal⟩ := parseDateText_of_isCalendarDate hdate today
      rw [hchecked, hrefusal]
      split
      · exact Or.inr rfl
      · exact Or.inl rfl
    · cases hproblem

/-- A labor rate of 18.50 with white space around it. -/
theorem forms_agree_with_api_rate :
    fieldProblem .laborRate (JsText.ofText " 18.50 ".toList) (Date.written ⟨2026, 3, 2⟩)
        = EfficiencyField.laborRate.refusal ⟨2026, 3, 2⟩ (.text (JsText.ofText "18.50".toList).decode)
      ∧ valueFieldProblem .reportingAsOf (JsText.ofText " 18.50 ".toList) = some .notADate :=
  ⟨(@forms_agree_with_api (JsText.ofText " 18.50 ".toList) (JsText.ofText "18.50".toList) (by decide) ⟨2026, 3, 2⟩).1 .laborRate
    (by decide), by decide +kernel⟩

end FieldChecks

end SortView
