import Mathlib.Data.List.Find
import Mathlib.Data.List.Nodup
import SortView.Agent.Parser
import SortView.Collector.Normalize
import SortView.Services.CollectorRules
import SortView.Services.StoredRouting

/-!
# One destination in both eras

The legacy agent stores the tidied text of a destination, the collector a slug under the rules made of the
site's settings. A report counts a check-in under the bucket of the key of what was stored. The two agree
on an enabled configured label except where an earlier label is part of it, and where the label's key is
itself a word for home.
-/

namespace SortView

open PyText

/-! ### The rules made of stored settings -/

theorem slugify_of_keyShape {key : Text} (hkey : KeyShape key) : slugify key = some key := by
  rw [slugify, hkey.slugText_eq]
  exact if_pos (isDestinationSlug_of_shape hkey.letter hkey.characters hkey.length)

theorem RoutingDestinationSetting.keyShape (destination : RoutingDestinationSetting) : KeyShape destination.key :=
  keyShape_destinationKey _

theorem ruleDestination_stored (other : Json → Text) {destination : RoutingDestinationSetting}
    (htrimmed : Trimmed destination.label) (hne : destination.label ≠ []) :
    ruleDestination other destination.stored
      = .ok (if destination.enabled then some (destination.key, upper destination.label) else none) := by
  have hitems : destination.stored.items? = some destination.storedItems := rfl
  have hkey : (Json.getD destination.storedItems "key".toList (.text [])).str other = destination.key := rfl
  have hlabel : (Json.getD destination.storedItems "label".toList (.text [])).str other = destination.label := rfl
  have henabled : (Json.getD destination.storedItems "enabled".toList (.bool true)).truthy = destination.enabled := rfl
  rw [ruleDestination, hitems]
  simp only [hkey, hlabel, henabled, htrimmed.strip_eq, if_neg destination.keyShape.ne_nil,
    slugify_of_keyShape destination.keyShape, if_neg hne]
  cases destination.enabled <;> rfl

/-- The enabled destinations of the settings, as rules. -/
def RoutingSettings.rules (settings : RoutingSettings) : List (Text × Text) :=
  (settings.destinations.filter (·.enabled)).map fun destination => (destination.key, upper destination.label)

theorem buildClassificationRules_destinations {other : Json → Text} {items : List (Text × Json)} {settings : RoutingSettings}
    {document : RulesDocument} (haccepted : settings.Accepted)
    (htransit : Json.get items "transit".toList = serializeRoutingSettings settings)
    (hdocument : buildClassificationRules other (.object items) = .ok document) : document.destinations = settings.rules := by
  have hentries : (settings.destinations.map RoutingDestinationSetting.stored).mapM (ruleDestination other)
      = .ok (settings.destinations.map fun destination =>
        if destination.enabled then some (destination.key, upper destination.label) else none) :=
    mapM_map_ok fun destination hmem =>
      ruleDestination_stored other (haccepted.labels destination hmem).1 (haccepted.labels destination hmem).2
  have hlength : ¬ maxRuleEntries < (settings.destinations.map RoutingDestinationSetting.stored).length := by
    have hfew := haccepted.few
    rw [List.length_map]
    exact Nat.not_lt.2 (Nat.le_trans hfew (by decide))
  rw [buildClassificationRules] at hdocument
  obtain ⟨transit, htransitBlock, hdocument⟩ := bind_eq_ok.1 hdocument
  obtain ⟨internal, -, hdocument⟩ := bind_eq_ok.1 hdocument
  obtain ⟨entries, hentriesBlock, hdocument⟩ := bind_eq_ok.1 hdocument
  obtain ⟨destinations, hmapped, hdocument⟩ := bind_eq_ok.1 hdocument
  obtain ⟨_, -, hdocument⟩ := bind_eq_ok.1 hdocument
  obtain ⟨_, -, hdocument⟩ := bind_eq_ok.1 hdocument
  obtain ⟨_, -, hdocument⟩ := bind_eq_ok.1 hdocument
  obtain ⟨_, -, hdocument⟩ := bind_eq_ok.1 hdocument
  rw [settingsBlock, htransit] at htransitBlock
  cases htransitBlock
  have hblock : (if maxRuleEntries < (settings.destinations.map RoutingDestinationSetting.stored).length
      then Except.error RulesError.rulesInvalid
      else .ok (settings.destinations.map RoutingDestinationSetting.stored)) = .ok entries := hentriesBlock
  rw [if_neg hlength] at hblock
  cases hblock
  rw [hentries] at hmapped
  cases hmapped
  cases hdocument
  rw [List.filterMap_map, RoutingSettings.rules]
  show (settings.destinations.filterMap fun destination =>
    if destination.enabled then some (destination.key, upper destination.label) else none) = _
  induction settings.destinations with
  | nil => rfl
  | cons destination destinations ih =>
      cases henabled : destination.enabled with
      | true => simp [henabled, ih]
      | false => simp [henabled, ih]

/-- The compiled rules of a document keep its destinations, in order. -/
theorem compileRules_toJson {keys : SubKeys} {document : RulesDocument} {rules : Rules}
    (hdestinations : ∀ destination ∈ document.destinations, isDestinationSlug destination.1 = true ∧ strip destination.2 ≠ [])
    (hrules : compileRules keys document.toJson = .ok rules) :
    rules.destinations = document.destinations.map fun destination => (upper (strip destination.2), destination.1) := by
  have hentries : (document.destinations.map ruleEntry).mapM documentDestination
      = .ok (document.destinations.map fun destination => (destination.1, upper (strip destination.2))) :=
    mapM_map_ok fun destination hmem => if_pos (hdestinations destination hmem)
  rw [compileRules] at hrules
  cases hnormal : normalizeDocument document.toJson with
  | error problem =>
      rw [hnormal] at hrules
      cases hrules
  | ok normal =>
      rw [hnormal] at hrules
      cases hrules
      have hbody : (do
          let destinations ← documentDestinations (document.toJson.items?.getD [])
          let branchNames ← documentNames (document.toJson.items?.getD []) "branch_services_names".toList
          let collectionNames ← documentNames (document.toJson.items?.getD []) "collection_services_names".toList
          let branchPatterns ← documentNames (document.toJson.items?.getD []) "branch_services_da_patterns".toList
          let collectionPatterns ← documentNames (document.toJson.items?.getD []) "collection_services_da_patterns".toList
          return RulesDocument.mk destinations branchNames collectionNames branchPatterns collectionPatterns)
          = Except.ok normal := hnormal
      obtain ⟨destinations, hmapped, hbody⟩ := bind_eq_ok.1 hbody
      obtain ⟨_, -, hbody⟩ := bind_eq_ok.1 hbody
      obtain ⟨_, -, hbody⟩ := bind_eq_ok.1 hbody
      obtain ⟨_, -, hbody⟩ := bind_eq_ok.1 hbody
      obtain ⟨_, -, hbody⟩ := bind_eq_ok.1 hbody
      cases hbody
      have hlist : (if maxRuleEntries < (document.destinations.map ruleEntry).length then Except.error RulesError.rulesInvalid
          else (document.destinations.map ruleEntry).mapM documentDestination) = .ok destinations := hmapped
      rw [hentries] at hlist
      split at hlist
      · cases hlist
      · cases hlist
        show (document.destinations.map _).map Prod.swap = _
        rw [List.map_map]
        rfl

/-! ### What each era stores -/

/-- The legacy text of a destination has the key of the destination. -/
theorem destinationKey_legacy (label : Text) :
    destinationKey (some (Checkins.normalizeDestination label)) = destinationKey (some label) := by
  have hbuiltin : ∀ slug, mapTransitLabelToV2Slug label = slug → slug ≠ unknownDestination → destinationKey (some label) = slug := by
    rintro slug rfl hknown
    rw [destinationKey]
    exact if_pos hknown
  have hslug : ∀ slug, upper (strip label) ≠ [] → ¬ upper (strip label) ∈ homeAliases →
      firstContained builtinDestinations (upper (strip label)) = some slug → mapTransitLabelToV2Slug label = slug := by
    intro slug hne hhome hfirst
    rw [mapTransitLabelToV2Slug]
    simp only [if_neg hne, if_neg hhome, hfirst, Option.getD_some]
  rw [Checkins.normalizeDestination]
  by_cases hempty : strip label = []
  · rw [if_pos hempty, destinationKey, destinationKey, mapTransitLabelToV2Slug, mapTransitLabelToV2Slug, slugText, slugText,
      hempty]
    rfl
  · have hupper : upper (strip label) ≠ [] := by rwa [Ne, upper_eq_nil_iff]
    simp only [if_neg hempty]
    by_cases hhome : upper (strip label) ∈ homeAliases
    · have hwords : upper (strip label) = "1".toList ∨ upper (strip label) = "LOCAL".toList ∨ upper (strip label) = "MAIN".toList := by
        simpa [homeAliases] using hhome
      rw [if_pos hwords, hbuiltin homeDestinationKey _ (by decide)]
      · decide +kernel
      · rw [mapTransitLabelToV2Slug]
        simp only [if_neg hupper, if_pos hhome]
    · have hwords : ¬ (upper (strip label) = "1".toList ∨ upper (strip label) = "LOCAL".toList ∨ upper (strip label) = "MAIN".toList) := by
        simpa [homeAliases] using hhome
      rw [if_neg hwords]
      have hfirst := fun slug => hslug slug hupper hhome
      simp only [firstContained_builtin] at hfirst
      split
      · next hwestside =>
        rw [hbuiltin _ (hfirst _ (if_pos hwestside)) (by decide)]
        decide +kernel
      · next hwestside =>
        rw [if_neg hwestside] at hfirst
        split
        · next hexpress =>
          rw [hbuiltin _ (hfirst _ (if_pos hexpress)) (by decide)]
          decide +kernel
        · next hexpress =>
          rw [if_neg hexpress] at hfirst
          split
          · next hagency =>
            rw [hbuiltin _ (hfirst _ (if_pos hagency)) (by decide)]
            decide +kernel
          · rw [destinationKey, destinationKey, mapTransitLabelToV2Slug, mapTransitLabelToV2Slug, slugText, slugText, strip_strip]

/-- The slug of a label that a built-in rule knows. -/
theorem normalizeDestination_of_known (rules : Rules) {label : Text}
    (hknown : mapTransitLabelToV2Slug label ≠ unknownDestination) :
    Normalize.normalizeDestination label rules = mapTransitLabelToV2Slug label := by
  rw [mapTransitLabelToV2Slug] at hknown ⊢
  rw [Normalize.normalizeDestination]
  by_cases hempty : upper (strip label) = []
  · simp only [if_pos hempty]
  · simp only [if_neg hempty] at hknown ⊢
    by_cases hhome : upper (strip label) ∈ homeAliases
    · rw [if_pos hhome, if_pos hhome]
    · rw [if_neg hhome] at hknown ⊢
      rw [if_neg hhome]
      cases hfirst : firstContained builtinDestinations (upper (strip label)) with
      | none =>
          rw [hfirst] at hknown
          exact absurd rfl hknown
      | some slug => rfl

/-- The first enabled destination whose label is part of `label`, case aside. -/
def RoutingSettings.firstPart (settings : RoutingSettings) (label : Text) : Option RoutingDestinationSetting :=
  settings.destinations.find? fun destination => destination.enabled && contains (upper label) (upper destination.label)

/-- The slug that the rules give to a label that no built-in rule knows. -/
theorem normalizeDestination_of_unknown {rules : Rules} {settings : RoutingSettings} {label : Text}
    (hrules : rules.destinations = settings.rules.map fun destination => (upper (strip destination.2), destination.1))
    (haccepted : settings.Accepted) (htrimmed : Trimmed label)
    (hunknown : mapTransitLabelToV2Slug label = unknownDestination) (hne : label ≠ []) :
    Normalize.normalizeDestination label rules
      = ((settings.firstPart label).map RoutingDestinationSetting.key).getD unknownDestination := by
  have hupper : upper label ≠ [] := by rwa [Ne, upper_eq_nil_iff]
  rw [mapTransitLabelToV2Slug, htrimmed.strip_eq] at hunknown
  simp only [if_neg hupper] at hunknown
  rw [Normalize.normalizeDestination, htrimmed.strip_eq]
  simp only [if_neg hupper]
  by_cases hhome : upper label ∈ homeAliases
  · rw [if_pos hhome] at hunknown
    exact absurd hunknown (by decide)
  · rw [if_neg hhome] at hunknown ⊢
    have hbuiltin : firstContained builtinDestinations (upper label) = none := by
      rw [firstContained_builtin] at hunknown ⊢
      repeat' split at hunknown
      all_goals first
        | exact absurd hunknown (by decide)
        | simp_all only [if_false, Bool.false_eq_true]
    rw [hbuiltin, hrules, firstContained, RoutingSettings.rules, List.map_map, List.find?_map, List.find?_filter,
      Option.map_map, RoutingSettings.firstPart]
    have hsame : ∀ destination ∈ settings.destinations, upper (strip (upper destination.label)) = upper destination.label := by
      intro destination hmem
      rw [(haccepted.labels destination hmem).1.upper.strip_eq, upper_upper]
    show (Option.map RoutingDestinationSetting.key (List.find? _ settings.destinations)).getD unknownDestination = _
    congr 2
    apply List.find?_congr
    intro destination hmem
    simp only [Function.comp_apply, hsame destination hmem]
    cases destination.enabled <;> simp

/-! ### Buckets of configured destinations -/

theorem RoutingConfig.transitSlot_key {routing : RoutingConfig} {key : Text} {slot : Nat}
    (hslot : routing.transitSlot key = some slot) : (routing.transit[slot]?).map TransitDestination.key = some key := by
  obtain ⟨entry, hfind, rfl⟩ := Option.map_eq_some_iff.1 hslot
  have hkey : entry.1 = key := by simpa using List.find?_some hfind
  have hmem := List.mem_of_find?_eq_some hfind
  rw [List.mem_reverse, List.mem_map] at hmem
  obtain ⟨source, hsource, rfl⟩ := hmem
  rw [List.mk_mem_zipIdx_iff_getElem?.1 hsource]
  exact congrArg some hkey

theorem RoutingConfig.transitSlot_isSome {routing : RoutingConfig} {destination : TransitDestination}
    (hmem : destination ∈ routing.transit) : (routing.transitSlot destination.key).isSome := by
  obtain ⟨slot, hslot⟩ := List.mem_iff_getElem?.1 hmem
  rw [RoutingConfig.transitSlot, Option.isSome_map, List.find?_isSome]
  refine ⟨(destination.key, slot), ?_, decide_eq_true rfl⟩
  rw [List.mem_reverse, List.mem_map]
  exact ⟨(destination, slot), List.mk_mem_zipIdx_iff_getElem?.2 hslot, rfl⟩

theorem RoutingConfig.bucket_eq_home_iff (routing : RoutingConfig) (key : Text) :
    routing.bucket key = .home ↔ key ∈ routing.homeKeys := by
  rw [RoutingConfig.bucket]
  split
  · next hhome => exact iff_of_true rfl hhome
  · next hhome =>
    apply iff_of_false _ hhome
    split <;> exact DestinationBucket.noConfusion

theorem RoutingConfig.key_of_bucket {routing : RoutingConfig} {key : Text} {slot : Nat}
    (hbucket : routing.bucket key = .transit slot) : (routing.transit[slot]?).map TransitDestination.key = some key := by
  rw [RoutingConfig.bucket] at hbucket
  split at hbucket
  · cases hbucket
  · split at hbucket
    · next hslot =>
      cases hbucket
      exact RoutingConfig.transitSlot_key hslot
    · cases hbucket

theorem mem_homeKeys {key homeLabel : Text} :
    key ∈ homeKeys homeLabel ↔ key ≠ unknownDestination ∧ (key = homeDestinationKey ∨ key = destinationKey (some homeLabel)) := by
  simp [homeKeys, and_comm]

section Config

variable {settings : RoutingSettings} (haccepted : settings.Accepted) {items : List (Text × Json)}
  (htransit : Json.get items "transit".toList = serializeRoutingSettings settings) (siteName : Text)

include haccepted htransit

/-- An enabled destination has a bucket of its own unless its key is `unknown` or means home. -/
theorem bucket_other_iff {destination : RoutingDestinationSetting} (hmem : destination ∈ settings.destinations)
    (henabled : destination.enabled = true) :
    (buildRoutingConfig (.object items) siteName).bucket destination.key = .other ↔ destination.key = unknownDestination := by
  have hconfig := buildRoutingConfig_stored haccepted htransit siteName
  constructor
  · intro hother
    by_contra hknown
    have hhome : destination.key ∉ homeKeys (settings.homeLabel siteName) := by
      intro hhome
      have hbucket : (buildRoutingConfig (.object items) siteName).bucket destination.key = .home := by
        rw [RoutingConfig.bucket_eq_home_iff, hconfig]
        exact hhome
      rw [hbucket] at hother
      cases hother
    have hused : (⟨destination.key, destination.label⟩ : TransitDestination)
        ∈ (buildRoutingConfig (.object items) siteName).transit := by
      rw [hconfig]
      refine List.mem_map.2 ⟨destination, List.mem_filter.2 ⟨hmem, ?_⟩, rfl⟩
      simp only [RoutingDestinationSetting.used, Bool.and_eq_true, decide_eq_true_eq]
      exact ⟨⟨henabled, hknown⟩, hhome⟩
    have hslot := RoutingConfig.transitSlot_isSome hused
    rw [RoutingConfig.bucket, if_neg (by rw [hconfig]; exact hhome)] at hother
    split at hother
    · cases hother
    · next hnone =>
      rw [hnone] at hslot
      cases hslot
  · intro hunknown
    rw [hunknown, RoutingConfig.bucket, if_neg]
    · split
      · next slot hslot =>
        exfalso
        have hkey := RoutingConfig.transitSlot_key hslot
        obtain ⟨transit, hget, hkey⟩ := Option.map_eq_some_iff.1 hkey
        have htransitMem := List.mem_of_getElem? hget
        rw [hconfig] at htransitMem
        obtain ⟨source, hsource, rfl⟩ := List.mem_map.1 htransitMem
        have hused := (List.mem_filter.1 hsource).2
        simp only [RoutingDestinationSetting.used, Bool.and_eq_true, decide_eq_true_eq] at hused
        exact hused.1.2 hkey
      · rfl
    · rw [hconfig]
      exact fun hhome => (mem_homeKeys.1 hhome).1 rfl

/-- Enabled destinations with one bucket have one key. -/
theorem key_eq_of_bucket_eq {left right : RoutingDestinationSetting} (hleft : left ∈ settings.destinations)
    (hright : right ∈ settings.destinations) (hleftEnabled : left.enabled = true) (hrightEnabled : right.enabled = true)
    (hbucket : (buildRoutingConfig (.object items) siteName).bucket left.key
      = (buildRoutingConfig (.object items) siteName).bucket right.key) : left.key = right.key := by
  have hconfig := buildRoutingConfig_stored haccepted htransit siteName
  have hmain : ∀ destination ∈ settings.destinations, destination.key ≠ homeDestinationKey := by
    intro destination hmem hkey
    apply haccepted.notHome destination hmem
    rw [hkey, mem_homeKeys]
    exact ⟨by decide, Or.inl rfl⟩
  have hsite : ∀ destination ∈ settings.destinations,
      (buildRoutingConfig (.object items) siteName).bucket destination.key = .home →
      destination.key = destinationKey (some (settings.homeLabel siteName)) := by
    intro destination hmem hhome
    rw [RoutingConfig.bucket_eq_home_iff, hconfig, mem_homeKeys] at hhome
    exact hhome.2.resolve_left (hmain destination hmem)
  cases hcase : (buildRoutingConfig (.object items) siteName).bucket left.key with
  | home => rw [hsite left hleft hcase, hsite right hright (hbucket ▸ hcase)]
  | other =>
      rw [(bucket_other_iff haccepted htransit siteName hleft hleftEnabled).1 hcase,
        (bucket_other_iff haccepted htransit siteName hright hrightEnabled).1 (hbucket ▸ hcase)]
  | transit slot =>
      have hkeyLeft := RoutingConfig.key_of_bucket hcase
      have hkeyRight := RoutingConfig.key_of_bucket (hbucket ▸ hcase)
      rw [hkeyLeft] at hkeyRight
      exact Option.some.inj hkeyRight

/-- An enabled destination counts as home only when no home label is configured and it is named like the site. -/
theorem bucket_home_iff {destination : RoutingDestinationSetting} (hmem : destination ∈ settings.destinations) :
    (buildRoutingConfig (.object items) siteName).bucket destination.key = .home
      ↔ settings.homeBranchLabel = [] ∧ destination.key = destinationKey (some siteName)
        ∧ destination.key ≠ unknownDestination := by
  have hnotHome := haccepted.notHome destination hmem
  rw [RoutingConfig.bucket_eq_home_iff, buildRoutingConfig_stored haccepted htransit siteName]
  show destination.key ∈ homeKeys (settings.homeLabel siteName) ↔ _
  have hstrip : destinationKey (some (strip siteName)) = destinationKey (some siteName) := by
    rw [destinationKey, destinationKey, mapTransitLabelToV2Slug, mapTransitLabelToV2Slug, slugText, slugText, strip_strip]
  rw [RoutingSettings.homeLabel]
  by_cases hblank : settings.homeBranchLabel = []
  · rw [if_pos hblank, mem_homeKeys, hstrip]
    rw [mem_homeKeys, not_and] at hnotHome
    constructor
    · rintro ⟨hknown, hkey⟩
      exact ⟨hblank, hkey.resolve_left fun hmain => hnotHome hknown (Or.inl hmain), hknown⟩
    · rintro ⟨-, hkey, hknown⟩
      exact ⟨hknown, Or.inr hkey⟩
  · rw [if_neg hblank]
    exact iff_of_false hnotHome fun h => hblank h.1

end Config

/-! ### Agreement of the eras -/

/-- When both eras put a configured label under one destination: a built-in rule knows the label; or no
earlier enabled label is part of it and its key is not the word `local`; or the rule that takes it stores
`local`, and the label names the site whose home label is blank. -/
def RoutingSettings.SameInBothEras (settings : RoutingSettings) (siteName label : Text) : Prop :=
  mapTransitLabelToV2Slug label ≠ unknownDestination
    ∨ ∃ part, settings.firstPart label = some part
      ∧ (part.label = label ∧ part.key ≠ "local".toList
        ∨ part.key = "local".toList ∧ settings.homeBranchLabel = [] ∧ destinationKey (some label) = destinationKey (some siteName)
          ∧ destinationKey (some label) ≠ unknownDestination)

theorem firstPart_self {settings : RoutingSettings} {destination : RoutingDestinationSetting}
    (hmem : destination ∈ settings.destinations) (henabled : destination.enabled = true) :
    ∃ part, settings.firstPart destination.label = some part ∧ part ∈ settings.destinations ∧ part.enabled = true := by
  have hself : (destination.enabled && contains (upper destination.label) (upper destination.label)) = true := by
    rw [henabled, Bool.true_and]
    exact decide_eq_true (List.infix_refl _)
  cases hfirst : settings.firstPart destination.label with
  | none => exact absurd hself (List.find?_eq_none.1 hfirst destination hmem)
  | some part =>
      have hpart := List.find?_some hfirst
      rw [Bool.and_eq_true] at hpart
      exact ⟨part, rfl, List.mem_of_find?_eq_some hfirst, hpart.1⟩

/-- Both eras put a check-in for an enabled configured label under one destination exactly when
`SameInBothEras` holds. -/
theorem eras_agree_iff {keys : SubKeys} {block : Json} {settings : RoutingSettings}
    {other : Json → Text} {items : List (Text × Json)} {document : RulesDocument} {rules : Rules} (siteName : Text)
    {destination : RoutingDestinationSetting}
    (hvalid : validateRoutingSettings block = .ok settings)
    (htransit : Json.get items "transit".toList = serializeRoutingSettings settings)
    (hdocument : buildClassificationRules other (.object items) = .ok document)
    (hrules : compileRules keys document.toJson = .ok rules)
    (hmem : destination ∈ settings.destinations) (henabled : destination.enabled = true) :
    (buildRoutingConfig (.object items) siteName).bucket
        (destinationKey (some (Checkins.normalizeDestination destination.label)))
      = (buildRoutingConfig (.object items) siteName).bucket
        (destinationKey (some (Normalize.normalizeDestination destination.label rules)))
      ↔ settings.SameInBothEras siteName destination.label := by
  have haccepted := validateRoutingSettings_accepted hvalid
  obtain ⟨htrimmed, hne⟩ := haccepted.labels destination hmem
  have hruleList : rules.destinations = settings.rules.map fun rule => (upper (strip rule.2), rule.1) := by
    have hdestinations := buildClassificationRules_destinations haccepted htransit hdocument
    rw [← hdestinations]
    apply compileRules_toJson _ hrules
    rw [hdestinations]
    intro rule hrule
    obtain ⟨source, hsource, rfl⟩ := List.mem_map.1 hrule
    obtain ⟨hsourceTrimmed, hsourceNe⟩ := haccepted.labels source (List.mem_filter.1 hsource).1
    have hkey := source.keyShape
    refine ⟨isDestinationSlug_of_shape hkey.letter hkey.characters hkey.length, ?_⟩
    show strip (upper source.label) ≠ []
    rw [hsourceTrimmed.upper.strip_eq, Ne, upper_eq_nil_iff]
    exact hsourceNe
  rw [destinationKey_legacy, RoutingSettings.SameInBothEras]
  by_cases hbuiltin : mapTransitLabelToV2Slug destination.label = unknownDestination
  · rw [or_iff_right (not_not.2 hbuiltin), normalizeDestination_of_unknown hruleList haccepted htrimmed hbuiltin hne]
    obtain ⟨part, hpart, hpartMem, hpartEnabled⟩ := firstPart_self hmem henabled
    rw [hpart, Option.map_some, Option.getD_some, RoutingDestinationSetting.key, destinationKey_destinationKey]
    show (buildRoutingConfig (.object items) siteName).bucket destination.key
      = (buildRoutingConfig (.object items) siteName).bucket (if part.key = "local".toList then homeDestinationKey else part.key) ↔ _
    have hmainHome : (buildRoutingConfig (.object items) siteName).bucket homeDestinationKey = .home := by
      rw [RoutingConfig.bucket_eq_home_iff, buildRoutingConfig_stored haccepted htransit siteName, mem_homeKeys]
      exact ⟨by decide, Or.inl rfl⟩
    have hsame : part.label = destination.label ↔ part.key = destination.key := by
      constructor
      · intro hlabel
        rw [RoutingDestinationSetting.key, RoutingDestinationSetting.key, hlabel]
      · intro hkey
        rw [List.inj_on_of_nodup_map haccepted.distinct hpartMem hmem hkey]
    by_cases hlocal : part.key = "local".toList
    · rw [if_pos hlocal, hmainHome, bucket_home_iff haccepted htransit siteName hmem]
      constructor
      · intro hnamed
        exact ⟨part, rfl, Or.inr ⟨hlocal, hnamed⟩⟩
      · rintro ⟨_, heq, hcase⟩
        cases heq
        rcases hcase with ⟨-, hnot⟩ | ⟨-, hnamed⟩
        · exact absurd hlocal hnot
        · exact hnamed
    · rw [if_neg hlocal]
      constructor
      · intro hbucket
        have hkey := key_eq_of_bucket_eq haccepted htransit siteName hmem hpartMem henabled hpartEnabled hbucket
        exact ⟨part, rfl, Or.inl ⟨hsame.2 hkey.symm, hlocal⟩⟩
      · rintro ⟨_, heq, hcase⟩
        cases heq
        rcases hcase with ⟨hlabel, -⟩ | ⟨hlocal', -⟩
        · rw [hsame.1 hlabel]
        · exact absurd hlocal' hlocal
  · rw [iff_true_right (Or.inl hbuiltin)]
    have hkey : destinationKey (some destination.label) = mapTransitLabelToV2Slug destination.label := if_pos hbuiltin
    have hagain := destinationKey_destinationKey (some destination.label)
    have hnotLocal : mapTransitLabelToV2Slug destination.label ≠ "local".toList := by
      intro hlocal
      have hslug := (mapTransitLabelToV2Slug_mem destination.label).resolve_left hbuiltin
      rw [hlocal] at hslug
      exact absurd hslug (by decide)
    rw [hkey, if_neg hnotLocal] at hagain
    rw [normalizeDestination_of_known rules hbuiltin, hkey, hagain]

/-! ### A label inside a label -/

/-- Two destinations, the first label part of the second. -/
def annexBlock : Json :=
  .object [("home_branch_label".toList, .text "Main".toList),
    ("destinations".toList, .array [
      .object [("label".toList, .text "Annex".toList), ("enabled".toList, .bool true)],
      .object [("label".toList, .text "West Annex".toList), ("enabled".toList, .bool true)]])]

def annexSettings : RoutingSettings := ⟨"Main".toList, [⟨"Annex".toList, true⟩, ⟨"West Annex".toList, true⟩]⟩

def annexItems : List (Text × Json) := [("transit".toList, serializeRoutingSettings annexSettings)]

def annexDocument : RulesDocument where
  destinations := [("annex".toList, "ANNEX".toList), ("west_annex".toList, "WEST ANNEX".toList)]
  branchServicesNames := []
  collectionServicesNames := []
  branchServicesDaPatterns := []
  collectionServicesDaPatterns := []

/-- Keys under which the rules of these settings have their fingerprint; no other message occurs. -/
def annexKeys : SubKeys :=
  let fingerprint : Digest :=
    ⟨"77b3ac1f93f2a05093afa90a55c0312543cdac35a55c2e9d35c429c487aa1142".toList, by decide +kernel⟩
  ⟨fun _ => fingerprint, fun _ => fingerprint, fun _ => fingerprint, fun _ => fingerprint, fun _ => fingerprint⟩

theorem annex_accepted : validateRoutingSettings annexBlock = .ok annexSettings := by
  decide +kernel

theorem annex_document : buildClassificationRules (fun _ => []) (.object annexItems) = .ok annexDocument := by
  decide +kernel

theorem annex_rules : compileRules annexKeys annexDocument.toJson = .ok (annexDocument.compile annexKeys) := by
  have hnormal : normalizeDocument annexDocument.toJson = .ok annexDocument := by decide +kernel
  rw [compileRules, hnormal]
  rfl

/-- The annex alone agrees. -/
theorem eras_agree_iff_annex :
    (buildRoutingConfig (.object annexItems) "Central".toList).bucket
        (destinationKey (some (Checkins.normalizeDestination "Annex".toList)))
      = (buildRoutingConfig (.object annexItems) "Central".toList).bucket
        (destinationKey (some (Normalize.normalizeDestination "Annex".toList (annexDocument.compile annexKeys)))) := by
  have hpart : annexSettings.firstPart "Annex".toList = some ⟨"Annex".toList, true⟩ := by decide +kernel
  have hmem : (⟨"Annex".toList, true⟩ : RoutingDestinationSetting) ∈ annexSettings.destinations := List.mem_cons_self ..
  exact (eras_agree_iff "Central".toList annex_accepted rfl annex_document annex_rules hmem rfl).2
    (Or.inr ⟨_, hpart, Or.inl ⟨rfl, by decide +kernel⟩⟩)

/-- The legacy text of `West Annex` counts under the second destination, its slug under the first. -/
theorem west_annex_counts_under_annex :
    validateRoutingSettings annexBlock = .ok annexSettings
      ∧ buildClassificationRules (fun _ => []) (.object annexItems) = .ok annexDocument
      ∧ compileRules annexKeys annexDocument.toJson = .ok (annexDocument.compile annexKeys)
      ∧ (buildRoutingConfig (.object annexItems) "Central".toList).bucket
        (destinationKey (some (Checkins.normalizeDestination "West Annex".toList))) = .transit 1
      ∧ (buildRoutingConfig (.object annexItems) "Central".toList).bucket
        (destinationKey (some (Normalize.normalizeDestination "West Annex".toList (annexDocument.compile annexKeys)))) = .transit 0 :=
  ⟨annex_accepted, annex_document, annex_rules, by decide +kernel, by decide +kernel⟩

end SortView
