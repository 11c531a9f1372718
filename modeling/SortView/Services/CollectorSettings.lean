import SortView.Services.CollectorRules

/-!
# What a site's settings say about its Collector

The rest of `services/collector_rules.py` and `services/settings_merge.py`: the time zone, the review of the
rules, and the effective settings that the rules are made from.
-/

namespace SortView

open PyText

/-- What Python's library makes of the texts in a settings document: `json.loads`, whether `ZoneInfo` knows a name,
whether `datetime.fromisoformat` reads an instant with an offset, and `str` of what is no text. -/
structure SettingsReader where
  loads : Text → Option Json
  knowsZone : Text → Bool
  isAware : Text → Bool
  str : Json → Text

/-- `CollectorSettingsError`. -/
inductive SettingsProblem where
  | timezoneNotConfigured
  | timezoneInvalid
  | rulesNotReviewed
  | rulesInvalid
  deriving DecidableEq

def SettingsProblem.reason : SettingsProblem → Text
  | .timezoneNotConfigured => "timezone_not_configured".toList
  | .timezoneInvalid => "timezone_invalid".toList
  | .rulesNotReviewed => "rules_not_reviewed".toList
  | .rulesInvalid => "rules_invalid".toList

/-- `d[key] = value` on the items of an object. -/
def setItem (key : Text) (value : Json) : List (Text × Json) → List (Text × Json)
  | [] => [(key, value)]
  | item :: items => if item.1 = key then (key, value) :: items else item :: setItem key value items

mutual

/-- What is kept of a value that the branch has, over what the organization has at its key. -/
def mergeValue (under : Option Json) : Json → Json
  | .object branchItems => match under with
    | some (.object items) => .object (mergeSettings items branchItems)
    | _ => .object branchItems
  | value => value

def mergeItem (under : List (Text × Json)) : Text × Json → Json
  | (key, value) => mergeValue (under.lookup key) value

/-- `merge_settings`, on the items of the two documents. -/
def mergeSettings (under : List (Text × Json)) : List (Text × Json) → List (Text × Json)
  | [] => under
  | item :: rest => mergeSettings (setItem item.1 (mergeItem under item) under) rest

end

def maxTimezoneLength : Nat := 64

/-- `collector_timezone`. -/
def collectorTimezone (reader : SettingsReader) (settings : List (Text × Json)) : Except SettingsProblem Text :=
  match Json.get settings "collector_timezone".toList with
  | .null => .error .timezoneNotConfigured
  | .text value =>
      if strip value = [] then .error .timezoneNotConfigured
      else if (strip value).length ≤ maxTimezoneLength && reader.knowsZone (strip value) then .ok (strip value)
      else .error .timezoneInvalid
  | _ => .error .timezoneInvalid

/-- `require_rules_reviewed`. -/
def requireRulesReviewed (reader : SettingsReader) (settings : List (Text × Json)) : Except SettingsProblem Unit :=
  let marker := (Json.get settings "collector_rules".toList).items?.getD []
  let aware := (Json.get marker "reviewed_at".toList).text?.any reader.isAware
  let bySomeone := match Json.get marker "reviewed_by_user_id".toList with
    | .int reviewer => decide (1 ≤ reviewer)
    | _ => false
  if aware && bySomeone then .ok () else .error .rulesNotReviewed

/-- What is returned to a site that enrolls on Contract v2: its time zone and its rules, from the documents of the
organization and of the branch. -/
def collectorSettings (reader : SettingsReader) (organization branch : List (Text × Json)) :
    Except SettingsProblem (Text × RulesDocument) := do
  let timezone ← collectorTimezone reader organization
  requireRulesReviewed reader organization
  match buildClassificationRules reader.str (.object (mergeSettings organization branch)) with
  | .ok rules => pure (timezone, rules)
  | .error _ => .error .rulesInvalid

end SortView
