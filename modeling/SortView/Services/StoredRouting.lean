import SortView.Services.DestinationKeys
import SortView.Services.RoutingSettings

/-!
# Stored routing settings

What holds of a block that was accepted, that it is read back as it was stored, and which destinations a
report takes from it.
-/

namespace SortView

open PyText

/-- The one identity of a destination. -/
def RoutingDestinationSetting.key (destination : RoutingDestinationSetting) : Text :=
  destinationKey (some destination.label)

/-- What holds of the settings in an accepted block. -/
structure RoutingSettings.Accepted (settings : RoutingSettings) : Prop where
  few : settings.destinations.length ≤ maxDestinations
  home : Trimmed settings.homeBranchLabel
  labels : ∀ destination ∈ settings.destinations, Trimmed destination.label ∧ destination.label ≠ []
  distinct : (settings.destinations.map RoutingDestinationSetting.key).Nodup
  notHome : ∀ destination ∈ settings.destinations, destination.key ∉ homeKeys settings.homeBranchLabel

/-! ### The scan of the destinations -/

/-- An entry without a problem adds one destination whose key is new and does not mean home. -/
theorem scanDestination_ok {homeKeys : List Text} {scan : DestinationScan} {entry : Json × Nat}
    (h : (scanDestination homeKeys scan entry).problems = []) :
    scan.problems = [] ∧ ∃ destination : RoutingDestinationSetting, Trimmed destination.label ∧ destination.label ≠ []
      ∧ destination.key ∉ homeKeys ∧ destination.key ∉ scan.taken
      ∧ scanDestination homeKeys scan entry = ⟨[], destination.key :: scan.taken, scan.destinations ++ [destination]⟩ := by
  unfold scanDestination at h ⊢
  dsimp only at h ⊢
  split at h
  · exact absurd h (List.append_ne_nil_of_right_ne_nil _ (List.cons_ne_nil _ _))
  · next items hitems =>
    split at h
    · exact absurd h (List.append_ne_nil_of_right_ne_nil _ (List.cons_ne_nil _ _))
    · next text htext =>
      split at h
      · exact absurd h (List.append_ne_nil_of_right_ne_nil _ (List.cons_ne_nil _ _))
      · next hblank =>
        obtain ⟨hbefore, hkey⟩ := List.append_eq_nil_iff.1 h
        obtain ⟨hbefore, henabled⟩ := List.append_eq_nil_iff.1 hbefore
        obtain ⟨hscan, hfields⟩ := List.append_eq_nil_iff.1 hbefore
        have hnew : destinationKey (some (strip text)) ∉ homeKeys ∧ destinationKey (some (strip text)) ∉ scan.taken := by
          split at hkey
          · cases hkey
          · split at hkey
            · cases hkey
            · next hhome htaken => exact ⟨hhome, htaken⟩
        refine ⟨hscan, ⟨strip text, (Json.get items "enabled".toList).bool?.getD true⟩, trimmed_strip text, hblank, hnew.1, hnew.2, ?_⟩
        simp only [if_neg hblank, hscan, hfields, henabled, if_neg hnew.1, if_neg hnew.2,
          List.append_nil, List.nil_append]
        rfl

/-- What the scan has kept. -/
structure DestinationScan.Sound (homeKeys : List Text) (scan : DestinationScan) : Prop where
  taken : scan.taken = (scan.destinations.map RoutingDestinationSetting.key).reverse
  labels : ∀ destination ∈ scan.destinations, Trimmed destination.label ∧ destination.label ≠ []
  distinct : (scan.destinations.map RoutingDestinationSetting.key).Nodup
  notHome : ∀ destination ∈ scan.destinations, destination.key ∉ homeKeys

theorem foldl_scanDestination_ok {homeKeys : List Text} {entries : List (Json × Nat)} {scan : DestinationScan}
    (hscan : scan.Sound homeKeys) (h : (entries.foldl (scanDestination homeKeys) scan).problems = []) :
    scan.problems = [] ∧ (entries.foldl (scanDestination homeKeys) scan).Sound homeKeys
      ∧ (entries.foldl (scanDestination homeKeys) scan).destinations.length = scan.destinations.length + entries.length := by
  induction entries using List.reverseRecOn with
  | nil => exact ⟨h, hscan, rfl⟩
  | append_singleton entries entry ih =>
      rw [List.foldl_append] at h ⊢
      obtain ⟨hbefore, destination, htrimmed, hne, hhome, htaken, hstep⟩ := scanDestination_ok h
      obtain ⟨hproblems, hsound, hlength⟩ := ih hbefore
      rw [List.foldl_cons, List.foldl_nil, hstep]
      rw [hsound.taken, List.mem_reverse] at htaken
      refine ⟨hproblems, ⟨?_, ?_, ?_, ?_⟩, ?_⟩
      · rw [List.map_append, List.reverse_append, ← hsound.taken]
        rfl
      · intro other hother
        rcases List.mem_append.1 hother with hother | hother
        · exact hsound.labels other hother
        · rw [List.mem_singleton.1 hother]
          exact ⟨htrimmed, hne⟩
      · rw [List.map_append, List.nodup_append]
        refine ⟨hsound.distinct, (List.pairwise_singleton ..), ?_⟩
        rintro key hkey _ hnew rfl
        rw [List.map_singleton, List.mem_singleton] at hnew
        exact htaken (hnew ▸ hkey)
      · intro other hother
        rcases List.mem_append.1 hother with hother | hother
        · exact hsound.notHome other hother
        · rw [List.mem_singleton.1 hother]
          exact hhome
      · rw [List.length_append, hlength, List.length_append, List.length_singleton, List.length_singleton]
        omega

/-- An accepted block has the shape the reports rely on. -/
theorem validateRoutingSettings_accepted {block : Json} {settings : RoutingSettings}
    (hvalid : validateRoutingSettings block = .ok settings) : settings.Accepted := by
  unfold validateRoutingSettings at hvalid
  split at hvalid
  · cases hvalid
  · next items hitems =>
    by_cases hproblems : (scanBlock items).problems = []
    · rw [if_pos hproblems] at hvalid
      cases hvalid
      have hempty : DestinationScan.Sound (homeKeys (blockHome items)) ⟨blockProblems items, [], []⟩ :=
        ⟨rfl, fun _ hd => absurd hd List.not_mem_nil, List.nodup_nil, fun _ hd => absurd hd List.not_mem_nil⟩
      obtain ⟨hstart, hsound, hlength⟩ := foldl_scanDestination_ok hempty hproblems
      refine ⟨?_, trimmed_strip _, hsound.labels, hsound.distinct, hsound.notHome⟩
      rw [scanBlock, hlength, List.length_zipIdx, List.length_nil, Nat.zero_add]
      have hcount := (List.append_eq_nil_iff.1 hstart).2
      split at hcount
      · next hnone =>
        rw [hnone]
        exact Nat.zero_le _
      · next entries hentries =>
        rw [hentries]
        split at hcount
        · cases hcount
        · next hfew => exact Nat.le_of_not_lt hfew
    · rw [if_neg hproblems] at hvalid
      cases hvalid

/-! ### Stored settings, read back -/

theorem parseStoredRoutingSettings_serialize {settings : RoutingSettings} (haccepted : settings.Accepted) :
    parseStoredRoutingSettings (serializeRoutingSettings settings) = settings := by
  have hdestinations : ∀ (read : Json → Option RoutingDestinationSetting) (destinations : List RoutingDestinationSetting),
      (∀ destination ∈ destinations, read destination.stored = some destination) →
      (destinations.map RoutingDestinationSetting.stored).filterMap read = destinations := by
    intro read destinations h
    rw [List.filterMap_map]
    exact (List.filterMap_congr h).trans List.filterMap_some
  show RoutingSettings.mk (strip settings.homeBranchLabel) _ = settings
  rw [haccepted.home.strip_eq]
  show RoutingSettings.mk _ ((settings.destinations.map RoutingDestinationSetting.stored).filterMap _) = settings
  rw [hdestinations]
  intro destination hdestination
  obtain ⟨htrimmed, hne⟩ := haccepted.labels destination hdestination
  show (if strip destination.label = [] then none
    else some (RoutingDestinationSetting.mk (strip destination.label) destination.enabled)) = _
  rw [htrimmed.strip_eq, if_neg hne]

/-- A configured destination that a report uses under the home keys `home`. -/
def RoutingDestinationSetting.used (home : List Text) (destination : RoutingDestinationSetting) : Bool :=
  destination.enabled && destination.key ≠ unknownDestination && destination.key ∉ home

theorem configureDestination_stored {destination : RoutingDestinationSetting} (htrimmed : Trimmed destination.label)
    (hne : destination.label ≠ []) (state : List Text × List TransitDestination) :
    configureDestination state destination.stored
      = if destination.used state.1 then (destination.key :: state.1, state.2 ++ [⟨destination.key, destination.label⟩])
        else state := by
  show (if strip destination.label = [] ∨ ¬ destination.enabled = true then state
    else if destinationKey (some (strip destination.label)) = unknownDestination
      ∨ destinationKey (some (strip destination.label)) ∈ state.1 then state
    else (destinationKey (some (strip destination.label)) :: state.1,
      state.2 ++ [⟨destinationKey (some (strip destination.label)), strip destination.label⟩])) = _
  rw [htrimmed.strip_eq]
  by_cases henabled : destination.enabled = true
  · rw [if_neg (not_or.2 ⟨hne, not_not.2 henabled⟩)]
    by_cases hskip : destination.key = unknownDestination ∨ destination.key ∈ state.1
    · have hused : ¬ destination.used state.1 = true := by
        simp only [RoutingDestinationSetting.used, Bool.and_eq_true, decide_eq_true_eq]
        rintro ⟨⟨_, hknown⟩, hnew⟩
        exact hskip.elim hknown hnew
      rw [if_neg hused]
      exact if_pos hskip
    · have hused : destination.used state.1 = true := by
        rw [not_or] at hskip
        simp only [RoutingDestinationSetting.used, Bool.and_eq_true, decide_eq_true_eq]
        exact ⟨⟨henabled, hskip.1⟩, hskip.2⟩
      rw [if_pos hused]
      exact if_neg hskip
  · have hused : ¬ destination.used state.1 = true := by
      simp only [RoutingDestinationSetting.used, Bool.and_eq_true]
      exact fun h => henabled h.1.1
    rw [if_pos (Or.inr henabled), if_neg hused]

theorem foldl_configureDestination_stored {destinations : List RoutingDestinationSetting} {home : List Text}
    {state : List Text × List TransitDestination}
    (hlabels : ∀ destination ∈ destinations, Trimmed destination.label ∧ destination.label ≠ [])
    (hdistinct : (destinations.map RoutingDestinationSetting.key).Nodup)
    (htaken : ∀ destination ∈ destinations, destination.key ∈ state.1 ↔ destination.key ∈ home) :
    ((destinations.map RoutingDestinationSetting.stored).foldl configureDestination state).2
      = state.2 ++ (destinations.filter (RoutingDestinationSetting.used home)).map
        fun destination => ⟨destination.key, destination.label⟩ := by
  induction destinations generalizing state with
  | nil => simp
  | cons destination destinations ih =>
      rw [List.map_cons, List.nodup_cons] at hdistinct
      obtain ⟨htrimmed, hne⟩ := hlabels destination (List.mem_cons_self ..)
      have hrest := fun other hother => hlabels other (List.mem_cons_of_mem destination hother)
      have hused : destination.used state.1 = destination.used home := by
        rw [RoutingDestinationSetting.used, RoutingDestinationSetting.used]
        simp only [htaken destination (List.mem_cons_self ..)]
      rw [List.map_cons, List.foldl_cons, configureDestination_stored htrimmed hne, hused]
      by_cases hin : destination.used home = true
      · rw [if_pos hin, List.filter_cons_of_pos hin, List.map_cons, ih hrest hdistinct.2, List.append_assoc]
        · rfl
        · intro other hother
          have hdifferent : other.key ≠ destination.key := by
            intro heq
            exact hdistinct.1 (heq ▸ List.mem_map_of_mem hother)
          rw [List.mem_cons, or_iff_right hdifferent]
          exact htaken other (List.mem_cons_of_mem _ hother)
      · rw [if_neg hin, List.filter_cons_of_neg hin, ih hrest hdistinct.2]
        exact fun other hother => htaken other (List.mem_cons_of_mem _ hother)

/-- The home label in force: the configured one, or the name of the site. -/
def RoutingSettings.homeLabel (settings : RoutingSettings) (siteName : Text) : Text :=
  if settings.homeBranchLabel = [] then strip siteName else settings.homeBranchLabel

/-- The configuration a report reads from an accepted block. -/
theorem buildRoutingConfig_stored {settings : RoutingSettings} (haccepted : settings.Accepted) {items : List (Text × Json)}
    (htransit : Json.get items "transit".toList = serializeRoutingSettings settings) (siteName : Text) :
    buildRoutingConfig (.object items) siteName = {
      homeLabel := settings.homeLabel siteName
      homeKeys := homeKeys (settings.homeLabel siteName)
      transit := (settings.destinations.filter (RoutingDestinationSetting.used (homeKeys (settings.homeLabel siteName)))).map
        fun destination => ⟨destination.key, destination.label⟩ } := by
  have hhome : (if strip settings.homeBranchLabel = [] then strip siteName else strip settings.homeBranchLabel)
      = settings.homeLabel siteName := by
    rw [haccepted.home.strip_eq]
    rfl
  have htransitItems : (Json.get ((Json.object items).items?.getD []) "transit".toList).items?.getD []
      = [("home_branch_label".toList, .text settings.homeBranchLabel),
        ("destinations".toList, .array (settings.destinations.map RoutingDestinationSetting.stored))] := by
    show (Json.get items "transit".toList).items?.getD [] = _
    rw [htransit]
    rfl
  rw [buildRoutingConfig, htransitItems]
  show RoutingConfig.mk (if strip settings.homeBranchLabel = [] then _ else strip settings.homeBranchLabel)
    (homeKeys (if strip settings.homeBranchLabel = [] then _ else strip settings.homeBranchLabel))
    ((settings.destinations.map RoutingDestinationSetting.stored).foldl configureDestination
      (homeKeys (if strip settings.homeBranchLabel = [] then _ else strip settings.homeBranchLabel), [])).2 = _
  rw [hhome, foldl_configureDestination_stored haccepted.labels haccepted.distinct fun _ _ => Iff.rfl]
  rfl

end SortView
