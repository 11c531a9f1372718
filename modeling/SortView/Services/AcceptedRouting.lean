import SortView.Services.StoredRouting

/-!
# Accepted routing settings are the routing the reports use

What was accepted, stored and read back is accepted again, and a report takes from it the enabled destinations whose label has
usable text.
-/

namespace SortView

open PyText

/-! ### Asking for settings again -/

/-- A destination as a caller asks for it. -/
def RoutingDestinationSetting.asked (destination : RoutingDestinationSetting) : Json :=
  .object [("label".toList, .text destination.label), ("enabled".toList, .bool destination.enabled)]

/-- The block that asks for the settings. -/
def RoutingSettings.asked (settings : RoutingSettings) : Json :=
  .object [("home_branch_label".toList, .text settings.homeBranchLabel),
    ("destinations".toList, .array (settings.destinations.map RoutingDestinationSetting.asked))]

theorem scanDestination_asked {homeKeys : List Text} {destination : RoutingDestinationSetting} (htrimmed : Trimmed destination.label)
    (hne : destination.label ≠ []) (hhome : destination.key ∉ homeKeys) {scan : DestinationScan} (htaken : destination.key ∉ scan.taken)
    (index : Nat) :
    scanDestination homeKeys scan (destination.asked, index)
      = ⟨scan.problems, destination.key :: scan.taken, scan.destinations ++ [destination]⟩ := by
  have hunknown : ∀ path, unknownFields path destinationFields
      [("label".toList, .text destination.label), ("enabled".toList, .bool destination.enabled)] = [] := fun path => rfl
  have hlabel : Json.get [("label".toList, .text destination.label), ("enabled".toList, .bool destination.enabled)] "label".toList
      = .text destination.label := rfl
  have henabled : Json.get [("label".toList, .text destination.label), ("enabled".toList, .bool destination.enabled)]
      "enabled".toList = .bool destination.enabled := rfl
  have hkey : destinationKey (some destination.label) = destination.key := rfl
  simp only [scanDestination, RoutingDestinationSetting.asked, Json.items?, hunknown, hlabel, henabled, Json.text?, Json.bool?,
    Option.isSome_some, if_true, htrimmed.strip_eq, if_neg hne, hkey, if_neg hhome, if_neg htaken, List.append_nil, Option.getD_some]

theorem foldl_scanDestination_asked {homeKeys : List Text} {destinations : List RoutingDestinationSetting}
    (hlabels : ∀ destination ∈ destinations, Trimmed destination.label ∧ destination.label ≠ [])
    (hdistinct : (destinations.map RoutingDestinationSetting.key).Nodup)
    (hhome : ∀ destination ∈ destinations, destination.key ∉ homeKeys) (scan : DestinationScan)
    (htaken : ∀ destination ∈ destinations, destination.key ∉ scan.taken) (start : Nat) :
    (((destinations.map RoutingDestinationSetting.asked).zipIdx start).foldl (scanDestination homeKeys) scan).problems = scan.problems
      ∧ (((destinations.map RoutingDestinationSetting.asked).zipIdx start).foldl (scanDestination homeKeys) scan).destinations
        = scan.destinations ++ destinations := by
  induction destinations generalizing scan start with
  | nil => exact ⟨rfl, (List.append_nil _).symm⟩
  | cons destination destinations ih =>
      rw [List.map_cons, List.nodup_cons] at hdistinct
      obtain ⟨htrimmed, hne⟩ := hlabels destination List.mem_cons_self
      rw [List.map_cons, List.zipIdx_cons, List.foldl_cons, scanDestination_asked htrimmed hne
        (hhome destination List.mem_cons_self) (htaken destination List.mem_cons_self)]
      have hrest := ih (fun other hother => hlabels other (List.mem_cons_of_mem destination hother)) hdistinct.2
        (fun other hother => hhome other (List.mem_cons_of_mem destination hother))
        ⟨scan.problems, destination.key :: scan.taken, scan.destinations ++ [destination]⟩ ?_ (start + 1)
      · rw [List.append_assoc] at hrest
        exact hrest
      · intro other hother hmem
        rcases List.mem_cons.1 hmem with heq | hmem
        · exact hdistinct.1 (heq ▸ List.mem_map_of_mem hother)
        · exact htaken other (List.mem_cons_of_mem destination hother) hmem

/-- Settings that were accepted are accepted again. -/
theorem validateRoutingSettings_asked {settings : RoutingSettings} (haccepted : settings.Accepted) :
    validateRoutingSettings settings.asked = .ok settings := by
  have hhome : blockHome [("home_branch_label".toList, .text settings.homeBranchLabel),
      ("destinations".toList, .array (settings.destinations.map RoutingDestinationSetting.asked))] = settings.homeBranchLabel :=
    haccepted.home.strip_eq
  have hproblems : blockProblems [("home_branch_label".toList, .text settings.homeBranchLabel),
      ("destinations".toList, .array (settings.destinations.map RoutingDestinationSetting.asked))] = [] := by
    show (if maxDestinations < (settings.destinations.map RoutingDestinationSetting.asked).length then _ else _) = _
    rw [List.length_map, if_neg (Nat.not_lt.2 haccepted.few)]
  have hscan := foldl_scanDestination_asked haccepted.labels haccepted.distinct haccepted.notHome ⟨[], [], []⟩
    (fun destination _ hmem => absurd hmem List.not_mem_nil) 0
  have hblock : scanBlock [("home_branch_label".toList, .text settings.homeBranchLabel),
      ("destinations".toList, .array (settings.destinations.map RoutingDestinationSetting.asked))]
      = (settings.destinations.map RoutingDestinationSetting.asked).zipIdx.foldl
          (scanDestination (homeKeys settings.homeBranchLabel)) ⟨[], [], []⟩ := by
    rw [scanBlock, hhome, hproblems]
    rfl
  rw [RoutingSettings.asked, validateRoutingSettings]
  simp only [Json.items?, hblock, hhome, hscan.1, hscan.2, if_true, List.nil_append]

/-! ### Main result -/

/-- The entries of a stored block. -/
def storedEntries (stored : Json) : List Json := (Json.get (stored.items?.getD []) "destinations".toList).array?.getD []

/-- An accepted block with a home label, stored: a report has its home label and, in order, its enabled destinations whose label
has usable text, under their stored keys; and the settings are read back as they were and accepted again. -/
theorem accepted_routing_is_used {block : Json} {settings : RoutingSettings} (hvalid : validateRoutingSettings block = .ok settings)
    (hhome : settings.homeBranchLabel ≠ []) {items : List (Text × Json)}
    (htransit : Json.get items "transit".toList = serializeRoutingSettings settings) (siteName : Text) :
    (buildRoutingConfig (.object items) siteName).homeLabel = settings.homeBranchLabel
      ∧ (buildRoutingConfig (.object items) siteName).transit
        = (settings.destinations.filter fun destination => destination.enabled && destination.key ≠ unknownDestination).map
            (fun destination => ⟨destination.key, destination.label⟩)
      ∧ ((buildRoutingConfig (.object items) siteName).transit.map TransitDestination.key).Nodup
      ∧ (∀ destination ∈ (buildRoutingConfig (.object items) siteName).transit,
          destination.key ∉ (buildRoutingConfig (.object items) siteName).homeKeys
            ∧ ∃ stored, .object stored ∈ storedEntries (serializeRoutingSettings settings)
              ∧ Json.get stored "label".toList = .text destination.label ∧ Json.get stored "key".toList = .text destination.key)
      ∧ parseStoredRoutingSettings (serializeRoutingSettings settings) = settings
      ∧ validateRoutingSettings (parseStoredRoutingSettings (serializeRoutingSettings settings)).asked = .ok settings := by
  have haccepted := validateRoutingSettings_accepted hvalid
  have hlabel : settings.homeLabel siteName = settings.homeBranchLabel := if_neg hhome
  have hused : settings.destinations.filter (RoutingDestinationSetting.used (homeKeys settings.homeBranchLabel))
      = settings.destinations.filter fun destination => destination.enabled && destination.key ≠ unknownDestination := by
    apply List.filter_congr
    intro destination hdestination
    rw [RoutingDestinationSetting.used, decide_eq_true (haccepted.notHome destination hdestination), Bool.and_true]
  have hconfig := buildRoutingConfig_stored haccepted htransit siteName
  rw [hlabel, hused] at hconfig
  have hread := parseStoredRoutingSettings_serialize haccepted
  rw [hconfig, hread]
  refine ⟨rfl, rfl, ?_, ?_, rfl, validateRoutingSettings_asked haccepted⟩
  · rw [List.map_map]
    exact haccepted.distinct.sublist (List.filter_sublist.map _)
  · intro transit htransitMem
    obtain ⟨destination, hdestination, rfl⟩ := List.mem_map.1 htransitMem
    have hmem := List.mem_of_mem_filter hdestination
    refine ⟨haccepted.notHome destination hmem, destination.storedItems, ?_, rfl, rfl⟩
    exact List.mem_map_of_mem hmem

/-- A block with a destination of punctuation, one that is used and one that is turned off. -/
def westsideBlock : Json :=
  .object [("home_branch_label".toList, .text "Central".toList),
    ("destinations".toList, .array [.object [("label".toList, .text "--".toList), ("enabled".toList, .bool true)],
      .object [("label".toList, .text "West Side".toList), ("enabled".toList, .bool true)],
      .object [("label".toList, .text "Annex".toList), ("enabled".toList, .bool false)]])]

def westsideSettings : RoutingSettings :=
  ⟨"Central".toList, [⟨"--".toList, true⟩, ⟨"West Side".toList, true⟩, ⟨"Annex".toList, false⟩]⟩

def westsideItems : List (Text × Json) := [("transit".toList, serializeRoutingSettings westsideSettings)]

theorem validate_westsideBlock : validateRoutingSettings westsideBlock = .ok westsideSettings := by decide +kernel

theorem accepted_routing_is_used_westside :
    (buildRoutingConfig (.object westsideItems) []).homeLabel = "Central".toList
      ∧ (buildRoutingConfig (.object westsideItems) []).transit = [⟨"west_side".toList, "West Side".toList⟩] := by
  have htransit : Json.get westsideItems "transit".toList = serializeRoutingSettings westsideSettings := rfl
  have hused := accepted_routing_is_used validate_westsideBlock (by decide) htransit []
  refine ⟨hused.1, hused.2.1.trans ?_⟩
  decide +kernel

/-- A block with one destination, of punctuation. -/
def punctuationBlock : Json :=
  .object [("home_branch_label".toList, .text "Central".toList),
    ("destinations".toList, .array [.object [("label".toList, .text "--".toList), ("enabled".toList, .bool true)]])]

def punctuationSettings : RoutingSettings := ⟨"Central".toList, [⟨"--".toList, true⟩]⟩

def punctuationItems : List (Text × Json) := [("transit".toList, serializeRoutingSettings punctuationSettings)]

theorem validate_punctuationBlock : validateRoutingSettings punctuationBlock = .ok punctuationSettings := by decide +kernel

/-- A destination whose label has no usable text is accepted and enabled and not in the report, and the block as it is stored
would be refused for its keys. -/
theorem punctuation_destination_not_used :
    validateRoutingSettings punctuationBlock = .ok punctuationSettings
      ∧ punctuationSettings.destinations.filter RoutingDestinationSetting.enabled = [⟨"--".toList, true⟩]
      ∧ (buildRoutingConfig (.object punctuationItems) []).transit = []
      ∧ validateRoutingSettings (serializeRoutingSettings punctuationSettings)
          = .error [⟨"destinations.0.key".toList, .unknownField⟩] :=
  ⟨validate_punctuationBlock, rfl, by decide +kernel, by decide +kernel⟩

end SortView
