import SortView.Lib.DecimalText
import SortView.Lib.Json

/-!
# Efficiency settings

`services/efficiency_settings.py`: the figures of an organization and of a sorter site, as text in their settings
documents, the lenient reading of what is stored, the strict reading of what someone wants to store, and the canonical
text. The messages of the refusals are left out; their fields and codes are kept.
-/

namespace SortView

open PyText Calendar

def efficiencySettingsKey : Text := "efficiency".toList

/-- Why a field was refused. The last is the one code that `services/sortview_value.py` adds. -/
inductive EfficiencyCode where
  | notAnObject
  | notAString
  | notADecimal
  | tooManyDecimalPlaces
  | outOfRange
  | notADate
  | inTheFuture
  | unknownField
  | notABasis
  deriving DecidableEq

def EfficiencyCode.text : EfficiencyCode → Text
  | .notAnObject => "not_an_object".toList
  | .notAString => "not_a_string".toList
  | .notADecimal => "not_a_decimal".toList
  | .tooManyDecimalPlaces => "too_many_decimal_places".toList
  | .outOfRange => "out_of_range".toList
  | .notADate => "not_a_date".toList
  | .inTheFuture => "in_the_future".toList
  | .unknownField => "unknown_field".toList
  | .notABasis => "not_a_basis".toList

/-- A field that was refused and why; never its value. -/
structure EfficiencySettingProblem where
  field : Text
  code : EfficiencyCode
  deriving DecidableEq

/-! ### Fields -/

/-- `_MAX_TEXT_LENGTH`. -/
def maxSettingLength : Nat := 32

/-- The places that a field keeps and the values it may hold. Every such value fits into the text. -/
structure DecimalField where
  places : Nat
  minimum : Nat
  maximum : Nat
  aboveMinimum : Bool
  somePlaces : 0 < places
  fits : maximum < 10 ^ 20 ∧ places ≤ 10

def laborRateField : DecimalField := ⟨2, 0, 1000, true, by decide, by decide⟩

def manualItemsPerHourField : DecimalField := ⟨1, 1, 1000, false, by decide, by decide⟩

def oneTimeCostField : DecimalField := ⟨2, 0, 100000000, false, by decide, by decide⟩

def recurringAnnualCostField : DecimalField := ⟨2, 0, 10000000, false, by decide, by decide⟩

/-- Whether a number with places is in the range of the field. -/
def DecimalField.inRange (field : DecimalField) (number : Decimal) : Bool :=
  let unit := 10 ^ (-number.exponent).toNat
  (if field.aboveMinimum then field.minimum * unit < number.coefficient else field.minimum * unit ≤ number.coefficient)
    && number.coefficient ≤ field.maximum * unit

/-- `parse_decimal_text`. The range keeps the digits within those of any context. -/
def parseDecimalText (field : DecimalField) : Json → Except EfficiencyCode Decimal
  | .text value =>
      match if value.length ≤ maxSettingLength then decimalGroups value else none with
      | none => .error .notADecimal
      | some groups =>
          if field.places < groups.2.length then .error .tooManyDecimalPlaces
          else
            let number := groupsDecimal groups
            if field.inRange number then .ok ⟨number.negative, number.coefficientAt field.places, -field.places⟩
            else .error .outOfRange
  | _ => .error .notAString

/-- `left > right` of two dates. -/
def dateAfter (left right : Date) : Bool :=
  right.year < left.year
    || (right.year = left.year && (right.month < left.month || (right.month = left.month && right.day < left.day)))

/-- `parse_date_text`. -/
def parseDateText (notAfter : Option Date) : Json → Except EfficiencyCode Date
  | .text value =>
      match readDate value with
      | some (date, []) => if notAfter.any fun limit => dateAfter date limit then .error .inTheFuture else .ok date
      | _ => .error .notADate
  | _ => .error .notAString

/-! ### Blocks -/

/-- What a block has at a field: nothing, a value, or the code for why it is none. -/
def readField {α : Type} (items : List (Text × Json)) (name : Text) (parse : Json → Except EfficiencyCode α) :
    Except EfficiencyCode (Option α) :=
  match Json.get items name with
  | .null => .ok none
  | stored => (parse stored).map some

def problemOf {α : Type} (name : Text) : Except EfficiencyCode (Option α) → List EfficiencySettingProblem
  | .ok _ => []
  | .error code => [⟨name, code⟩]

def valueOf {α : Type} : Except EfficiencyCode (Option α) → Option α
  | .ok value => value
  | .error _ => none

/-- The names of a block that are none of its fields, if these are refused. -/
def unknownNames (refuseUnknown : Bool) (path : Text) (owned : List Text) (items : List (Text × Json)) :
    List EfficiencySettingProblem :=
  if refuseUnknown then ((items.map Prod.fst).filter (· ∉ owned)).map fun name => ⟨path ++ name, .unknownField⟩ else []

def unlessProblems {σ : Type} (problems : List EfficiencySettingProblem) (settings : σ) :
    Except (List EfficiencySettingProblem) σ :=
  if problems = [] then .ok settings else .error problems

/-- The items of a block to store: the fields that are set. -/
def written (entries : List (Text × Option Json)) : List (Text × Json) :=
  entries.filterMap fun entry => entry.2.map fun value => (entry.1, value)

def laborRateName : Text := "labor_rate".toList
def manualItemsPerHourName : Text := "manual_items_per_hour".toList
def oneTimeCostName : Text := "one_time_cost".toList
def recurringAnnualCostName : Text := "recurring_annual_cost".toList
def inServiceDateName : Text := "in_service_date".toList

def organizationFieldNames : List Text := [laborRateName, manualItemsPerHourName]

def sorterFieldNames : List Text :=
  [laborRateName, manualItemsPerHourName, oneTimeCostName, recurringAnnualCostName, inServiceDateName]

structure OrganizationEfficiencySettings where
  laborRate : Option Decimal := none
  manualItemsPerHour : Option Decimal := none
  deriving DecidableEq

structure SorterEfficiencySettings where
  laborRate : Option Decimal := none
  manualItemsPerHour : Option Decimal := none
  oneTimeCost : Option Decimal := none
  recurringAnnualCost : Option Decimal := none
  inServiceDate : Option Date := none
  deriving DecidableEq

/-- `_fields` for an organization. -/
def organizationFields (refuseUnknown : Bool) : Json → Except (List EfficiencySettingProblem) OrganizationEfficiencySettings
  | .null => .ok {}
  | .object items =>
      let laborRate := readField items laborRateName (parseDecimalText laborRateField)
      let manualItemsPerHour := readField items manualItemsPerHourName (parseDecimalText manualItemsPerHourField)
      unlessProblems
        (problemOf laborRateName laborRate ++ problemOf manualItemsPerHourName manualItemsPerHour
          ++ unknownNames refuseUnknown [] organizationFieldNames items)
        ⟨valueOf laborRate, valueOf manualItemsPerHour⟩
  | _ => .error [⟨efficiencySettingsKey, .notAnObject⟩]

/-- `_fields` for a sorter site. -/
def sorterFields (refuseUnknown : Bool) (notAfter : Option Date) :
    Json → Except (List EfficiencySettingProblem) SorterEfficiencySettings
  | .null => .ok {}
  | .object items =>
      let laborRate := readField items laborRateName (parseDecimalText laborRateField)
      let manualItemsPerHour := readField items manualItemsPerHourName (parseDecimalText manualItemsPerHourField)
      let oneTimeCost := readField items oneTimeCostName (parseDecimalText oneTimeCostField)
      let recurringAnnualCost := readField items recurringAnnualCostName (parseDecimalText recurringAnnualCostField)
      let inServiceDate := readField items inServiceDateName (parseDateText notAfter)
      unlessProblems
        (problemOf laborRateName laborRate ++ problemOf manualItemsPerHourName manualItemsPerHour
          ++ problemOf oneTimeCostName oneTimeCost ++ problemOf recurringAnnualCostName recurringAnnualCost
          ++ problemOf inServiceDateName inServiceDate ++ unknownNames refuseUnknown [] sorterFieldNames items)
        ⟨valueOf laborRate, valueOf manualItemsPerHour, valueOf oneTimeCost, valueOf recurringAnnualCost, valueOf inServiceDate⟩
  | _ => .error [⟨efficiencySettingsKey, .notAnObject⟩]

/-- The block that a settings document stores under a key. -/
def storedBlock (key : Text) : Json → Json
  | .object items => Json.get items key
  | _ => .null

def parseOrganizationEfficiencySettings (document : Json) :
    Except (List EfficiencySettingProblem) OrganizationEfficiencySettings :=
  organizationFields false (storedBlock efficiencySettingsKey document)

def parseSorterEfficiencySettings (document : Json) : Except (List EfficiencySettingProblem) SorterEfficiencySettings :=
  sorterFields false none (storedBlock efficiencySettingsKey document)

def validateOrganizationEfficiencySettings (block : Json) :
    Except (List EfficiencySettingProblem) OrganizationEfficiencySettings :=
  organizationFields true block

def validateSorterEfficiencySettings (today : Date) (block : Json) :
    Except (List EfficiencySettingProblem) SorterEfficiencySettings :=
  sorterFields true (some today) block

def decimalText (field : DecimalField) (value : Decimal) : Json := .text (fixedText field.places value)

def dateText (date : Date) : Json := .text date.written

def serializeOrganizationEfficiencySettings (settings : OrganizationEfficiencySettings) : Json :=
  .object (written [(laborRateName, settings.laborRate.map (decimalText laborRateField)),
    (manualItemsPerHourName, settings.manualItemsPerHour.map (decimalText manualItemsPerHourField))])

def serializeSorterEfficiencySettings (settings : SorterEfficiencySettings) : Json :=
  .object (written [(laborRateName, settings.laborRate.map (decimalText laborRateField)),
    (manualItemsPerHourName, settings.manualItemsPerHour.map (decimalText manualItemsPerHourField)),
    (oneTimeCostName, settings.oneTimeCost.map (decimalText oneTimeCostField)),
    (recurringAnnualCostName, settings.recurringAnnualCost.map (decimalText recurringAnnualCostField)),
    (inServiceDateName, settings.inServiceDate.map dateText)])

/-! ### What applies to one sorter -/

inductive SettingSource where
  | organization
  | sorter
  deriving DecidableEq

structure ResolvedRate where
  value : Decimal
  source : SettingSource
  deriving DecidableEq

structure EffectiveEfficiencySettings where
  laborRate : Option ResolvedRate
  manualItemsPerHour : Option ResolvedRate
  oneTimeCost : Option Decimal
  recurringAnnualCost : Option Decimal
  inServiceDate : Option Date
  deriving DecidableEq

/-- `_rate`. -/
def resolvedRate (sorter organization : Option Decimal) : Option ResolvedRate :=
  match sorter with
  | some value => some ⟨value, .sorter⟩
  | none => organization.map fun value => ⟨value, .organization⟩

def resolveEfficiencySettings (organization : OrganizationEfficiencySettings) (sorter : SorterEfficiencySettings) :
    EffectiveEfficiencySettings where
  laborRate := resolvedRate sorter.laborRate organization.laborRate
  manualItemsPerHour := resolvedRate sorter.manualItemsPerHour organization.manualItemsPerHour
  oneTimeCost := sorter.oneTimeCost
  recurringAnnualCost := sorter.recurringAnnualCost
  inServiceDate := sorter.inServiceDate

/-! ### What a field accepts -/

/-- The range of a field. -/
def DecimalField.Admits (field : DecimalField) (q : ℚ) : Prop :=
  (if field.aboveMinimum then (field.minimum : ℚ) < q else (field.minimum : ℚ) ≤ q) ∧ q ≤ field.maximum

/-- A stored value is a text of the field's form and length that denotes a number of its range, held at its places. -/
def DecimalField.Holds (field : DecimalField) (stored : Json) (x : Decimal) : Prop :=
  ∃ text places q, stored = .text text ∧ text.length ≤ maxSettingLength ∧ DenotesDecimal text places q
    ∧ places ≤ field.places ∧ field.Admits q ∧ AtPlaces field.places x ∧ x.value = q

/-- A stored value is the text of a calendar date, not after the limit if there is one. -/
def DateHolds (notAfter : Option Date) (stored : Json) (date : Date) : Prop :=
  stored = .text date.written ∧ date.Valid ∧ ∀ limit ∈ notAfter, dateAfter date limit = false

theorem DecimalField.inRange_iff (field : DecimalField) (coefficient places : Nat) :
    field.inRange ⟨false, coefficient, -places⟩ = true ↔ field.Admits (Decimal.value ⟨false, coefficient, -places⟩) := by
  have hunit : (0 : ℚ) < 10 ^ places := by positivity
  have hvalue : Decimal.value ⟨false, coefficient, -places⟩ = coefficient / 10 ^ places := AtPlaces.value_eq ⟨rfl, rfl⟩
  have hlow : ((field.minimum * 10 ^ places < coefficient) ↔ (field.minimum : ℚ) < coefficient / 10 ^ places)
      ∧ ((field.minimum * 10 ^ places ≤ coefficient) ↔ (field.minimum : ℚ) ≤ coefficient / 10 ^ places) := by
    rw [lt_div_iff₀ hunit, le_div_iff₀ hunit]
    constructor <;> norm_cast
  have hhigh : (coefficient ≤ field.maximum * 10 ^ places) ↔ (coefficient / 10 ^ places : ℚ) ≤ field.maximum := by
    rw [div_le_iff₀ hunit]
    norm_cast
  rw [hvalue, inRange, Admits, ← hlow.1, ← hlow.2, ← hhigh]
  cases field.aboveMinimum <;> simp

theorem parseDecimalText_holds {field : DecimalField} {stored : Json} {x : Decimal}
    (h : parseDecimalText field stored = .ok x) : field.Holds stored x := by
  cases stored with
  | text value =>
      rw [parseDecimalText] at h
      split at h
      · cases h
      · next groups hgroups =>
        split at hgroups
        · next hlength =>
          split at h
          · cases h
          · next hplaces =>
            dsimp only at h
            split at h
            · next hrange =>
              cases h
              have hdenotes := denotesDecimal_of_groups hgroups
              have hadmits := (field.inRange_iff _ _).1 hrange
              refine ⟨value, groups.2.length, _, rfl, hlength, hdenotes, not_lt.1 hplaces, hadmits, ⟨rfl, rfl⟩, ?_⟩
              rw [Decimal.value_coefficientAt]
              obtain ⟨k, hk⟩ := Nat.exists_eq_add_of_le (not_lt.1 hplaces)
              apply Rounding.toPlaces_of_eq (n := (Nat.ofDigitChars 10 (groups.1 ++ groups.2) 0 * 10 ^ k : Nat))
              have hvalue : (groupsDecimal groups).value = Nat.ofDigitChars 10 (groups.1 ++ groups.2) 0 / 10 ^ groups.2.length :=
                AtPlaces.value_eq ⟨rfl, rfl⟩
              rw [hvalue, hk, zpow_natCast, pow_add]
              push_cast
              field_simp
            · cases h
        · cases hgroups
  | _ => cases h

theorem parseDecimalText_ok_iff {field : DecimalField} {stored : Json} {x : Decimal} :
    parseDecimalText field stored = .ok x ↔ field.Holds stored x := by
  constructor
  · exact parseDecimalText_holds
  · rintro ⟨text, places, q, rfl, hlength, hdenotes, hplaces, hadmits, hat, hvalue⟩
    obtain ⟨whole, fraction, hgroups, hfraction, hgroupsValue⟩ := hdenotes.groups
    have hrange : field.inRange (groupsDecimal (whole, fraction)) = true := by
      rw [groupsDecimal, field.inRange_iff]
      rw [groupsDecimal] at hgroupsValue
      rw [hgroupsValue]
      exact hadmits
    have hparse : parseDecimalText field (.text text)
        = .ok ⟨(groupsDecimal (whole, fraction)).negative, (groupsDecimal (whole, fraction)).coefficientAt field.places,
            -field.places⟩ := by
      rw [parseDecimalText, if_pos hlength, hgroups]
      dsimp only
      rw [if_neg (by omega), if_pos hrange]
    obtain ⟨text', _, q', htext, -, hdenotes', -, -, hat', hvalue'⟩ := parseDecimalText_holds hparse
    cases htext
    obtain ⟨whole', fraction', hgroups', -, hgroupsValue'⟩ := hdenotes'.groups
    rw [hgroups] at hgroups'
    cases hgroups'
    rw [hparse]
    congr 1
    apply hat'.eq_of_value hat
    rw [hvalue', hvalue, ← hgroupsValue', hgroupsValue]

theorem parseDateText_ok_iff {notAfter : Option Date} {stored : Json} {date : Date} :
    parseDateText notAfter stored = .ok date ↔ DateHolds notAfter stored date := by
  constructor
  · intro h
    cases stored with
    | text value =>
        rw [parseDateText] at h
        split at h
        · next found hread =>
          obtain ⟨hvalid, hvalue⟩ := eq_of_readDate hread
          split at h
          · cases h
          · next hlimit =>
            cases h
            refine ⟨by rw [hvalue, List.append_nil], hvalid, ?_⟩
            intro limit hmem
            cases hmem
            simpa using hlimit
        · cases h
    | _ => cases h
  · rintro ⟨rfl, hvalid, hlimit⟩
    have hread := readDate_written hvalid []
    rw [List.append_nil] at hread
    rw [parseDateText, hread]
    dsimp only
    apply if_neg
    cases notAfter with
    | none => simp
    | some limit => simpa using hlimit limit rfl

end SortView
