import Mathlib.Data.List.Sort
import SortView.Collector.Rules
import SortView.Lib.CaseFacts
import SortView.Services.RoutingDestination

/-!
# Rules seeded from the settings

`seed_from_settings` of `collector/v2_rules.py`: the rules document that the Collector makes by itself from
the dashboard's settings. It skips what the server refuses. The second half is the normal form in which both
documents meet.
-/

namespace SortView

open PyText

/-- `RulesError("rules_invalid")`, or iterating over what cannot be iterated. -/
inductive SeedError where
  | rulesInvalid
  | typeError
  deriving DecidableEq

/-- `settings.get(key, {})` where that is a mapping. -/
def seedBlock (settings : List (Text × Json)) (key : Text) : List (Text × Json) :=
  ((Json.getD settings key (.object [])).items?).getD []

/-- The members that `for … in block.get(key, []) or []` runs over: of a text its characters, of a mapping its keys. -/
def seedEntries (block : List (Text × Json)) (key : Text) : Except SeedError (List Json) :=
  let value := Json.getD block key (.array [])
  if ¬ value.truthy then .ok []
  else match value with
    | .array values => .ok values
    | .text characters => .ok (characters.map fun c => .text [c])
    | .object items => .ok (items.map fun item => .text item.1)
    | _ => .error .typeError

/-- `_slugify`. -/
def seedSlugify (key : Text) : Option Text :=
  let slug := slugText key
  if isDestinationSlug slug then some slug else none

/-- The slug and the text of one configured destination, when it is kept. `other` is `str` of a value that is no text. -/
def seedDestination (other : Json → Text) (entry : Json) : Option (Text × Text) :=
  match entry.items? with
  | none => none
  | some items =>
      if ¬ (Json.getD items "enabled".toList (.bool true)).truthy then none
      else
        let label := strip ((Json.getD items "label".toList (.text [])).str other)
        let key := (Json.getD items "key".toList (.text [])).str other
        match seedSlugify (if key = [] then label else key) with
        | some slug => if label = [] then none else some (slug, upper label)
        | none => none

/-- `listed`. -/
def seedNames (other : Json → Text) (block : List (Text × Json)) (key : Text) : Except SeedError (List Text) := do
  let values ← seedEntries block key
  return cleanNames (values.map (Json.str other))

/-- `seed_from_settings`. -/
def seedFromSettings (other : Json → Text) (settings : Json) : Except SeedError RulesDocument :=
  match settings.items? with
  | none => .error .rulesInvalid
  | some items => do
      let transit := seedBlock items "transit".toList
      let internal := seedBlock items "internal_routing".toList
      let entries ← seedEntries transit "destinations".toList
      let branchNames ← seedNames other internal "branch_services_names".toList
      let collectionNames ← seedNames other internal "collection_services_names".toList
      let branchPatterns ← seedNames other internal "branch_services_da_patterns".toList
      let collectionPatterns ← seedNames other internal "collection_services_da_patterns".toList
      return ⟨entries.filterMap (seedDestination other), branchNames, collectionNames, branchPatterns, collectionPatterns⟩

/-! ### A sorted set is its members -/

theorem pairwise_insertName {name : Text} {names : List Text} (hnames : names.Pairwise textLt) :
    (insertName name names).Pairwise textLt := by
  induction names with
  | nil => exact List.pairwise_singleton _ _
  | cons first rest ih =>
      obtain ⟨hfirst, hrest⟩ := List.pairwise_cons.1 hnames
      rw [insertName]
      split
      · exact hnames
      · next hne =>
        split
        · next hle =>
          refine List.pairwise_cons.2 ⟨?_, hnames⟩
          intro other hother
          rcases List.mem_cons.1 hother with rfl | hother
          · exact ⟨hle, hne⟩
          · exact textLt_trans ⟨hle, hne⟩ (hfirst other hother)
        · next hgt =>
          refine List.pairwise_cons.2 ⟨?_, ih hrest⟩
          intro other hother
          rcases mem_insertName.1 hother with rfl | hother
          · exact ⟨(textLe_total other first).resolve_left hgt, Ne.symm hne⟩
          · exact hfirst other hother

theorem pairwise_sortedNames (names : List Text) : (sortedNames names).Pairwise textLt := by
  induction names with
  | nil => exact List.Pairwise.nil
  | cons name names ih => exact pairwise_insertName ih

theorem sortedNames_congr {left right : List Text} (h : ∀ name, name ∈ left ↔ name ∈ right) : sortedNames left = sortedNames right := by
  apply (pairwise_sortedNames left).eq_of_mem_iff (pairwise_sortedNames right)
  intro name
  rw [mem_sortedNames, mem_sortedNames, h]

theorem length_insertName_le (name : Text) (names : List Text) : (insertName name names).length ≤ names.length + 1 := by
  induction names with
  | nil => exact Nat.le_refl _
  | cons first rest ih =>
      rw [insertName]
      split
      · exact Nat.le_succ _
      · split
        · exact Nat.le_refl _
        · simpa using ih

theorem length_sortedNames_le (names : List Text) : (sortedNames names).length ≤ names.length := by
  induction names with
  | nil => exact Nat.le_refl _
  | cons name names ih => exact (length_insertName_le name _).trans (Nat.succ_le_succ ih)

/-! ### Clean names -/

theorem mem_cleanNames {name : Text} {values : List Text} :
    name ∈ cleanNames values ↔ ∃ value ∈ values, strip value ≠ [] ∧ upper (strip value) = name := by
  rw [cleanNames, mem_sortedNames, List.mem_map]
  simp only [List.mem_filter, decide_eq_true_eq, and_assoc]

theorem cleanNames_congr {left right : List Text}
    (h : ∀ name, name ≠ [] → ((∃ value ∈ left, upper (strip value) = name) ↔ ∃ value ∈ right, upper (strip value) = name)) :
    cleanNames left = cleanNames right := by
  have hnonempty (values : List Text) (name : Text) : name ∈ cleanNames values ↔
      name ≠ [] ∧ ∃ value ∈ values, upper (strip value) = name := by
    rw [mem_cleanNames]
    constructor
    · rintro ⟨value, hmem, hne, rfl⟩
      exact ⟨fun hnil => hne (upper_eq_nil_iff.1 hnil), value, hmem, rfl⟩
    · rintro ⟨hne, value, hmem, rfl⟩
      exact ⟨value, hmem, fun hnil => hne (upper_eq_nil_iff.2 hnil), rfl⟩
  apply (pairwise_sortedNames _).eq_of_mem_iff (pairwise_sortedNames _)
  intro name
  show name ∈ cleanNames left ↔ name ∈ cleanNames right
  rw [hnonempty, hnonempty]
  exact and_congr_right (h name)

theorem upper_strip_of_mem {name : Text} {values : List Text} (h : name ∈ cleanNames values) : upper (strip name) = name := by
  obtain ⟨value, -, -, rfl⟩ := mem_cleanNames.1 h
  rw [(trimmed_strip value).upper.strip_eq, upper_upper]

/-- Clean names are clean. -/
theorem cleanNames_cleanNames (values : List Text) : cleanNames (cleanNames values) = cleanNames values := by
  apply (pairwise_sortedNames _).eq_of_mem_iff (pairwise_sortedNames _)
  intro name
  show name ∈ cleanNames (cleanNames values) ↔ name ∈ cleanNames values
  constructor
  · intro h
    obtain ⟨value, hmem, -, rfl⟩ := mem_cleanNames.1 h
    rwa [upper_strip_of_mem hmem]
  · intro h
    obtain ⟨value, -, hne, rfl⟩ := mem_cleanNames.1 h
    refine mem_cleanNames.2 ⟨upper (strip value), h, ?_, upper_strip_of_mem h⟩
    rw [(trimmed_strip value).upper.strip_eq]
    exact fun hnil => hne (upper_eq_nil_iff.1 hnil)

theorem length_cleanNames_le (values : List Text) : (cleanNames values).length ≤ values.length := by
  refine (length_sortedNames_le _).trans ?_
  rw [List.length_map]
  exact List.length_filter_le _ _

/-! ### The normal form -/

/-- A list of names in normal form. -/
structure NormalNames (names : List Text) : Prop where
  clean : cleanNames names = names
  few : names.length ≤ maxRuleEntries

theorem normalNames_cleanNames {values : List Text} (hfew : values.length ≤ maxRuleEntries) : NormalNames (cleanNames values) :=
  ⟨cleanNames_cleanNames values, (length_cleanNames_le values).trans hfew⟩

/-- What normalizing a document leaves as it is. -/
structure RulesDocument.Normal (document : RulesDocument) : Prop where
  destinations : ∀ destination ∈ document.destinations, isDestinationSlug destination.1 = true ∧ strip destination.2 ≠ []
    ∧ upper (strip destination.2) = destination.2
  few : document.destinations.length ≤ maxRuleEntries
  branchNames : NormalNames document.branchServicesNames
  collectionNames : NormalNames document.collectionServicesNames
  branchPatterns : NormalNames document.branchServicesDaPatterns
  collectionPatterns : NormalNames document.collectionServicesDaPatterns

theorem allTexts_map_text (names : List Text) : allTexts (names.map .text) = some names := by
  rw [allTexts]
  induction names with
  | nil => rfl
  | cons name names ih =>
      rw [List.map_cons, List.mapM_cons, ih]
      rfl

theorem documentNames_textArray {document : List (Text × Json)} {key : Text} {names : List Text}
    (hentry : Json.getD document key (.array []) = textArray names) (hnames : NormalNames names) :
    documentNames document key = .ok names := by
  have hfew : ¬ maxRuleEntries < (names.map Json.text).length := by
    rw [List.length_map]
    exact Nat.not_lt.2 hnames.few
  rw [documentNames, hentry, textArray, Json.array?]
  simp only [if_neg hfew, allTexts_map_text, hnames.clean]

theorem documentDestination_ruleEntry {destination : Text × Text} (hslug : isDestinationSlug destination.1 = true)
    (hne : strip destination.2 ≠ []) (hupper : upper (strip destination.2) = destination.2) :
    documentDestination (ruleEntry destination) = .ok destination := by
  have hread : documentDestination (ruleEntry destination) = if isDestinationSlug destination.1 = true ∧ strip destination.2 ≠ []
      then .ok (destination.1, upper (strip destination.2)) else .error .rulesInvalid := rfl
  rw [hread, if_pos ⟨hslug, hne⟩, hupper]

theorem documentDestinations_ruleEntries {document : List (Text × Json)} {destinations : List (Text × Text)}
    (hentry : Json.getD document "destinations".toList (.array []) = .array (destinations.map ruleEntry))
    (hnormal : ∀ destination ∈ destinations, isDestinationSlug destination.1 = true ∧ strip destination.2 ≠ []
      ∧ upper (strip destination.2) = destination.2)
    (hfew : destinations.length ≤ maxRuleEntries) : documentDestinations document = .ok destinations := by
  have hmap : (destinations.map ruleEntry).mapM documentDestination = .ok destinations := by
    clear hentry hfew
    induction destinations with
    | nil => rfl
    | cons destination destinations ih =>
        obtain ⟨hslug, hne, hupper⟩ := hnormal destination (List.mem_cons_self ..)
        rw [List.map_cons, List.mapM_cons, documentDestination_ruleEntry hslug hne hupper,
          ih fun other hother => hnormal other (List.mem_cons_of_mem _ hother)]
        rfl
  rw [documentDestinations, hentry, Json.array?]
  simp only [List.length_map, if_neg (Nat.not_lt.2 hfew), hmap]

/-- A normal document is accepted unchanged. -/
theorem RulesDocument.Normal.normalizeDocument_toJson {document : RulesDocument} (h : document.Normal) :
    normalizeDocument document.toJson = .ok document := by
  have hdestinations : documentDestinations (document.toJson.items?.getD []) = .ok document.destinations :=
    documentDestinations_ruleEntries rfl h.destinations h.few
  have hbranchNames : documentNames (document.toJson.items?.getD []) "branch_services_names".toList = .ok document.branchServicesNames :=
    documentNames_textArray rfl h.branchNames
  have hcollectionNames : documentNames (document.toJson.items?.getD []) "collection_services_names".toList
      = .ok document.collectionServicesNames := documentNames_textArray rfl h.collectionNames
  have hbranchPatterns : documentNames (document.toJson.items?.getD []) "branch_services_da_patterns".toList
      = .ok document.branchServicesDaPatterns := documentNames_textArray rfl h.branchPatterns
  have hcollectionPatterns : documentNames (document.toJson.items?.getD []) "collection_services_da_patterns".toList
      = .ok document.collectionServicesDaPatterns := documentNames_textArray rfl h.collectionPatterns
  show (do
      let destinations ← documentDestinations (document.toJson.items?.getD [])
      let branchNames ← documentNames (document.toJson.items?.getD []) "branch_services_names".toList
      let collectionNames ← documentNames (document.toJson.items?.getD []) "collection_services_names".toList
      let branchPatterns ← documentNames (document.toJson.items?.getD []) "branch_services_da_patterns".toList
      let collectionPatterns ← documentNames (document.toJson.items?.getD []) "collection_services_da_patterns".toList
      return RulesDocument.mk destinations branchNames collectionNames branchPatterns collectionPatterns) = Except.ok document
  rw [hdestinations, hbranchNames, hcollectionNames, hbranchPatterns, hcollectionPatterns]
  rfl

end SortView
