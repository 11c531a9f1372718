import SortView.Lib.Json
import SortView.Services.RoutingDestination

/-!
# Routing settings

`services/routing_settings.py`: an organization's `transit` block, what may replace it and the form it is
stored in; and `build_routing_config`, which reads it back for a report.
-/

namespace SortView

open PyText

/-- `MAX_DESTINATIONS`. -/
def maxDestinations : Nat := 20

/-- Why a value was refused. -/
inductive SettingCode where
  | notText
  | notAList
  | notAnObject
  | notABoolean
  | required
  | tooMany
  | duplicate
  | meansHome
  | unknownField
  deriving DecidableEq

def SettingCode.text : SettingCode → Text
  | .notText => "not_text".toList
  | .notAList => "not_a_list".toList
  | .notAnObject => "not_an_object".toList
  | .notABoolean => "not_a_boolean".toList
  | .required => "required".toList
  | .tooMany => "too_many".toList
  | .duplicate => "duplicate".toList
  | .meansHome => "means_home".toList
  | .unknownField => "unknown_field".toList

structure RoutingDestinationSetting where
  label : Text
  enabled : Bool
  deriving DecidableEq

structure RoutingSettings where
  homeBranchLabel : Text
  destinations : List RoutingDestinationSetting
  deriving DecidableEq

/-- A field that was refused and why; never its value. -/
structure RoutingSettingProblem where
  field : Text
  code : SettingCode
  deriving DecidableEq

/-- `_home_keys`. -/
def homeKeys (homeBranchLabel : Text) : List Text :=
  [homeDestinationKey, destinationKey (some homeBranchLabel)].filter (· ≠ unknownDestination)

def blockFields : List Text := ["home_branch_label".toList, "destinations".toList]

def destinationFields : List Text := ["label".toList, "enabled".toList]

/-- The problem of a field that is not one of `fields`, under `path`. -/
def unknownFields (path : Text) (fields : List Text) (items : List (Text × Json)) : List RoutingSettingProblem :=
  (items.map Prod.fst).filterMap fun name => if name ∈ fields then none else some ⟨path ++ name, .unknownField⟩

/-- The problem of a value that is missing or of the wrong kind. -/
def kindProblem (field : Text) (code : SettingCode) (value : Json) : RoutingSettingProblem :=
  ⟨field, if value.isNull then .required else code⟩

/-- What the loop over the destinations carries: the problems, the keys taken and the destinations so far. -/
structure DestinationScan where
  problems : List RoutingSettingProblem
  taken : List Text
  destinations : List RoutingDestinationSetting

/-- The body of the loop: the destination at `index`. -/
def scanDestination (homeKeys : List Text) (scan : DestinationScan) (entry : Json × Nat) : DestinationScan :=
  let field := "destinations.".toList ++ decimal entry.2
  match entry.1.items? with
  | none => { scan with problems := scan.problems ++ [⟨field, .notAnObject⟩] }
  | some items =>
      let problems := scan.problems ++ unknownFields (field ++ ".".toList) destinationFields items
      let enabled := Json.get items "enabled".toList
      let problems := problems ++ if enabled.bool?.isSome then [] else [kindProblem (field ++ ".enabled".toList) .notABoolean enabled]
      let label := Json.get items "label".toList
      match label.text? with
      | none => { scan with problems := problems ++ [kindProblem (field ++ ".label".toList) .notText label] }
      | some text =>
          if strip text = [] then { scan with problems := problems ++ [⟨field ++ ".label".toList, .required⟩] }
          else
            let key := destinationKey (some (strip text))
            { problems := problems ++
                if key ∈ homeKeys then [⟨field ++ ".label".toList, .meansHome⟩]
                else if key ∈ scan.taken then [⟨field ++ ".label".toList, .duplicate⟩]
                else []
              taken := key :: scan.taken
              destinations := scan.destinations ++ [⟨strip text, enabled.bool?.getD true⟩] }

/-- The home label of a block, trimmed; a value that is no text counts as blank. -/
def blockHome (items : List (Text × Json)) : Text :=
  strip ((Json.getD items "home_branch_label".toList (.text [])).text?.getD [])

/-- The problems of a block before its destinations are looked at one by one. -/
def blockProblems (items : List (Text × Json)) : List RoutingSettingProblem :=
  let home := Json.getD items "home_branch_label".toList (.text [])
  let destinations := Json.get items "destinations".toList
  unknownFields [] blockFields items ++ (if home.text?.isSome then [] else [⟨"home_branch_label".toList, .notText⟩]) ++
    match destinations.array? with
    | none => [kindProblem "destinations".toList .notAList destinations]
    | some entries => if maxDestinations < entries.length then [⟨"destinations".toList, .tooMany⟩] else []

/-- The whole scan of a block. -/
def scanBlock (items : List (Text × Json)) : DestinationScan :=
  ((Json.get items "destinations".toList).array?.getD []).zipIdx.foldl (scanDestination (homeKeys (blockHome items)))
    ⟨blockProblems items, [], []⟩

/-- `validate_routing_settings`: the settings a replacement asks for, or every problem found. -/
def validateRoutingSettings (block : Json) : Except (List RoutingSettingProblem) RoutingSettings :=
  match block.items? with
  | none => .error [⟨"routing".toList, .notAnObject⟩]
  | some items =>
      if (scanBlock items).problems = [] then .ok ⟨blockHome items, (scanBlock items).destinations⟩
      else .error (scanBlock items).problems

/-- `parse_stored_routing_settings`: what is stored, never refused. -/
def parseStoredRoutingSettings (stored : Json) : RoutingSettings :=
  let block := stored.items?.getD []
  let destination (entry : Json) : Option RoutingDestinationSetting :=
    entry.items?.bind fun items =>
      let label := strip ((Json.get items "label".toList).text?.getD [])
      if label = [] then none
      else some ⟨label, (Json.getD items "enabled".toList (.bool true)).truthy⟩
  { homeBranchLabel := strip ((Json.get block "home_branch_label".toList).text?.getD [])
    destinations := ((Json.get block "destinations".toList).array?.getD []).filterMap destination }

/-- One destination as it is stored. -/
def RoutingDestinationSetting.storedItems (destination : RoutingDestinationSetting) : List (Text × Json) :=
  [("key".toList, .text (destinationKey (some destination.label))), ("label".toList, .text destination.label),
    ("enabled".toList, .bool destination.enabled)]

def RoutingDestinationSetting.stored (destination : RoutingDestinationSetting) : Json :=
  .object destination.storedItems

/-- `serialize_routing_settings`. -/
def serializeRoutingSettings (settings : RoutingSettings) : Json :=
  .object [("home_branch_label".toList, .text settings.homeBranchLabel),
    ("destinations".toList, .array (settings.destinations.map RoutingDestinationSetting.stored))]

/-! ### The routing configuration -/

/-- `_label`. -/
def settingLabel (value : Json) : Text := strip (value.text?.getD [])

/-- The body of the loop of `build_routing_config`: the keys taken and the destinations in use. -/
def configureDestination (state : List Text × List TransitDestination) (entry : Json) : List Text × List TransitDestination :=
  let items := entry.items?.getD []
  let label := settingLabel (Json.get items "label".toList)
  if label = [] ∨ ¬ (Json.getD items "enabled".toList (.bool true)).truthy then state
  else
    let key := destinationKey (some label)
    if key = unknownDestination ∨ key ∈ state.1 then state
    else (key :: state.1, state.2 ++ [⟨key, label⟩])

/-- `build_routing_config`. -/
def buildRoutingConfig (settings : Json) (siteName : Text) : RoutingConfig :=
  let transitSettings := (Json.get (settings.items?.getD []) "transit".toList).items?.getD []
  let configuredLabel := settingLabel (Json.get transitSettings "home_branch_label".toList)
  let homeLabel := if configuredLabel = [] then strip siteName else configuredLabel
  let keys := homeKeys homeLabel
  let configured := (Json.get transitSettings "destinations".toList).array?.getD []
  { homeLabel := homeLabel
    homeKeys := keys
    transit := (configured.foldl configureDestination (keys, [])).2 }

end SortView
