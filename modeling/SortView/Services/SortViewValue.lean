import SortView.Services.EfficiencySettings

/-!
# SortView Value

`services/sortview_value.py`: what an organization says its reporting and troubleshooting work took before and takes
now, as text in its settings document, and the estimate made from that. The messages of the refusals are left out.
-/

namespace SortView

open PyText Calendar

def sortviewValueSettingsKey : Text := "sortview_value".toList

inductive Basis where
  | estimate
  | measured
  deriving DecidableEq

def Basis.text : Basis → Text
  | .estimate => "estimate".toList
  | .measured => "measured".toList

def reportingName : Text := "reporting".toList
def troubleshootingName : Text := "troubleshooting".toList

/-! ### Fields -/

/-- `_PER_MONTH`. -/
def perMonthField : DecimalField := ⟨1, 0, 100000, false, Nat.one_pos, by decide⟩

/-- `_MINUTES`. -/
def minutesField : DecimalField := ⟨1, 0, 10000, false, Nat.one_pos, by decide⟩

def valueLaborRateField : DecimalField := ⟨2, 0, 10000, true, Nat.two_pos, by decide⟩

def subscriptionAnnualCostField : DecimalField := ⟨2, 0, 10000000, false, Nat.two_pos, recurringAnnualCostField.fits⟩

def staffPerIncidentField : DecimalField := ⟨1, 0, 1000, true, Nat.one_pos, manualItemsPerHourField.fits⟩

def subscriptionAnnualCostName : Text := "subscription_annual_cost".toList
def tasksPerMonthName : Text := "tasks_per_month".toList
def baselineMinutesPerTaskName : Text := "baseline_minutes_per_task".toList
def currentMinutesPerTaskName : Text := "current_minutes_per_task".toList
def incidentsPerMonthName : Text := "incidents_per_month".toList
def staffPerIncidentName : Text := "staff_per_incident".toList
def baselineMinutesName : Text := "baseline_minutes".toList
def currentMinutesName : Text := "current_minutes".toList
def basisName : Text := "basis".toList
def asOfName : Text := "as_of".toList

def reportingFieldNames : List Text :=
  [tasksPerMonthName, baselineMinutesPerTaskName, currentMinutesPerTaskName, basisName, asOfName]

def troubleshootingFieldNames : List Text :=
  [incidentsPerMonthName, staffPerIncidentName, baselineMinutesName, currentMinutesName, basisName, asOfName]

def valueFieldNames : List Text := [laborRateName, subscriptionAnnualCostName, reportingName, troubleshootingName]

/-- A field of a kind of work, named with it. -/
def categoryPath (category name : Text) : Text := category ++ '.' :: name

structure ReportingInputs where
  tasksPerMonth : Option Decimal := none
  baselineMinutesPerTask : Option Decimal := none
  currentMinutesPerTask : Option Decimal := none
  basis : Option Basis := none
  asOf : Option Date := none
  deriving DecidableEq

structure TroubleshootingInputs where
  incidentsPerMonth : Option Decimal := none
  staffPerIncident : Option Decimal := none
  baselineMinutes : Option Decimal := none
  currentMinutes : Option Decimal := none
  basis : Option Basis := none
  asOf : Option Date := none
  deriving DecidableEq

structure SortViewValueSettings where
  laborRate : Option Decimal := none
  subscriptionAnnualCost : Option Decimal := none
  reporting : ReportingInputs := {}
  troubleshooting : TroubleshootingInputs := {}
  deriving DecidableEq

/-- The check of a basis. -/
def parseBasis : Json → Except EfficiencyCode Basis
  | .text value =>
      if value = Basis.estimate.text then .ok .estimate
      else if value = Basis.measured.text then .ok .measured
      else .error .notABasis
  | _ => .error .notAString

/-- `_category` for reporting. -/
def reportingFields (refuseUnknown : Bool) (notAfter : Option Date) : Json → ReportingInputs × List EfficiencySettingProblem
  | .null => ({}, [])
  | .object items =>
      let tasksPerMonth := readField items tasksPerMonthName (parseDecimalText perMonthField)
      let baseline := readField items baselineMinutesPerTaskName (parseDecimalText minutesField)
      let current := readField items currentMinutesPerTaskName (parseDecimalText minutesField)
      let basis := readField items basisName parseBasis
      let asOf := readField items asOfName (parseDateText notAfter)
      (⟨valueOf tasksPerMonth, valueOf baseline, valueOf current, valueOf basis, valueOf asOf⟩,
        problemOf (categoryPath reportingName tasksPerMonthName) tasksPerMonth
          ++ problemOf (categoryPath reportingName baselineMinutesPerTaskName) baseline
          ++ problemOf (categoryPath reportingName currentMinutesPerTaskName) current
          ++ problemOf (categoryPath reportingName basisName) basis
          ++ problemOf (categoryPath reportingName asOfName) asOf
          ++ unknownNames refuseUnknown (categoryPath reportingName []) reportingFieldNames items)
  | _ => ({}, [⟨reportingName, .notAnObject⟩])

/-- `_category` for troubleshooting. -/
def troubleshootingFields (refuseUnknown : Bool) (notAfter : Option Date) :
    Json → TroubleshootingInputs × List EfficiencySettingProblem
  | .null => ({}, [])
  | .object items =>
      let incidentsPerMonth := readField items incidentsPerMonthName (parseDecimalText perMonthField)
      let staffPerIncident := readField items staffPerIncidentName (parseDecimalText staffPerIncidentField)
      let baseline := readField items baselineMinutesName (parseDecimalText minutesField)
      let current := readField items currentMinutesName (parseDecimalText minutesField)
      let basis := readField items basisName parseBasis
      let asOf := readField items asOfName (parseDateText notAfter)
      (⟨valueOf incidentsPerMonth, valueOf staffPerIncident, valueOf baseline, valueOf current, valueOf basis, valueOf asOf⟩,
        problemOf (categoryPath troubleshootingName incidentsPerMonthName) incidentsPerMonth
          ++ problemOf (categoryPath troubleshootingName staffPerIncidentName) staffPerIncident
          ++ problemOf (categoryPath troubleshootingName baselineMinutesName) baseline
          ++ problemOf (categoryPath troubleshootingName currentMinutesName) current
          ++ problemOf (categoryPath troubleshootingName basisName) basis
          ++ problemOf (categoryPath troubleshootingName asOfName) asOf
          ++ unknownNames refuseUnknown (categoryPath troubleshootingName []) troubleshootingFieldNames items)
  | _ => ({}, [⟨troubleshootingName, .notAnObject⟩])

/-- `_settings`. -/
def sortviewValueFields (refuseUnknown : Bool) (notAfter : Option Date) :
    Json → Except (List EfficiencySettingProblem) SortViewValueSettings
  | .null => .ok {}
  | .object items =>
      let laborRate := readField items laborRateName (parseDecimalText valueLaborRateField)
      let cost := readField items subscriptionAnnualCostName (parseDecimalText subscriptionAnnualCostField)
      let reporting := reportingFields refuseUnknown notAfter (Json.get items reportingName)
      let troubleshooting := troubleshootingFields refuseUnknown notAfter (Json.get items troubleshootingName)
      unlessProblems
        (problemOf laborRateName laborRate ++ problemOf subscriptionAnnualCostName cost ++ reporting.2 ++ troubleshooting.2
          ++ unknownNames refuseUnknown [] valueFieldNames items)
        ⟨valueOf laborRate, valueOf cost, reporting.1, troubleshooting.1⟩
  | _ => .error [⟨sortviewValueSettingsKey, .notAnObject⟩]

def parseSortviewValueSettings (document : Json) : Except (List EfficiencySettingProblem) SortViewValueSettings :=
  sortviewValueFields false none (storedBlock sortviewValueSettingsKey document)

def validateSortviewValueSettings (today : Date) (block : Json) :
    Except (List EfficiencySettingProblem) SortViewValueSettings :=
  sortviewValueFields true (some today) block

def basisText (basis : Basis) : Json := .text basis.text

def ReportingInputs.entries (inputs : ReportingInputs) : List (Text × Option Json) :=
  [(tasksPerMonthName, inputs.tasksPerMonth.map (decimalText perMonthField)),
    (baselineMinutesPerTaskName, inputs.baselineMinutesPerTask.map (decimalText minutesField)),
    (currentMinutesPerTaskName, inputs.currentMinutesPerTask.map (decimalText minutesField)),
    (basisName, inputs.basis.map basisText), (asOfName, inputs.asOf.map dateText)]

def TroubleshootingInputs.entries (inputs : TroubleshootingInputs) : List (Text × Option Json) :=
  [(incidentsPerMonthName, inputs.incidentsPerMonth.map (decimalText perMonthField)),
    (staffPerIncidentName, inputs.staffPerIncident.map (decimalText staffPerIncidentField)),
    (baselineMinutesName, inputs.baselineMinutes.map (decimalText minutesField)),
    (currentMinutesName, inputs.currentMinutes.map (decimalText minutesField)),
    (basisName, inputs.basis.map basisText), (asOfName, inputs.asOf.map dateText)]

/-- The block of a kind of work, if anything of it is set. -/
def categoryBlock (entries : List (Text × Option Json)) : Option Json :=
  if written entries = [] then none else some (.object (written entries))

def serializeSortviewValueSettings (settings : SortViewValueSettings) : Json :=
  .object (written [(laborRateName, settings.laborRate.map (decimalText valueLaborRateField)),
    (subscriptionAnnualCostName, settings.subscriptionAnnualCost.map (decimalText subscriptionAnnualCostField)),
    (reportingName, categoryBlock settings.reporting.entries),
    (troubleshootingName, categoryBlock settings.troubleshooting.entries)])

/-! ### What an hour of the time is worth -/

inductive LaborRateSource where
  | sortviewValue
  | organizationEfficiency
  deriving DecidableEq

structure ResolvedLaborRate where
  value : Decimal
  source : LaborRateSource
  deriving DecidableEq

def resolveLaborRate (settings : SortViewValueSettings) (organization : OrganizationEfficiencySettings) :
    Option ResolvedLaborRate :=
  match settings.laborRate with
  | some value => some ⟨value, .sortviewValue⟩
  | none => organization.laborRate.map fun value => ⟨value, .organizationEfficiency⟩

end SortView
