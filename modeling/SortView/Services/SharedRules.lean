import Mathlib.Logic.Relation
import SortView.Collector.SeedRules
import SortView.Services.CollectorRules

/-!
# One set of rules for the server and the Collector

The rules document that the server builds is the one the Collector seeds from the same settings, and the
Collector takes it as it is. It depends on the four lists of names only through the names they mean.
-/

namespace SortView

open PyText

variable {other : Json → Text}

/-! ### What the server reads, the seeder reads -/

theorem seedBlock_of_settingsBlock {settings block : List (Text × Json)} {key : Text}
    (h : settingsBlock settings key = .ok block) : seedBlock settings key = block := by
  rw [settingsBlock, Json.get, Json.getD] at h
  rw [seedBlock, Json.getD]
  cases hlookup : settings.lookup key with
  | none =>
      rw [hlookup] at h
      cases h
      rfl
  | some value =>
      rw [hlookup] at h
      cases value with
      | null =>
          cases h
          rfl
      | object items =>
          cases h
          rfl
      | bool _ => cases h
      | int _ => cases h
      | real _ => cases h
      | text _ => cases h
      | array _ => cases h

theorem blockEntries_eq_ok {block : List (Text × Json)} {key : Text} {values : List Json} (h : blockEntries block key = .ok values) :
    seedEntries block key = .ok values ∧ values.length ≤ maxRuleEntries := by
  rw [blockEntries, Json.get, Json.getD] at h
  rw [seedEntries, Json.getD]
  cases hlookup : block.lookup key with
  | none =>
      rw [hlookup] at h
      cases h
      exact ⟨rfl, Nat.zero_le _⟩
  | some value =>
      rw [hlookup] at h
      cases value with
      | null =>
          cases h
          exact ⟨rfl, Nat.zero_le _⟩
      | array items =>
          have hblock : (if maxRuleEntries < items.length then Except.error RulesError.rulesInvalid else .ok items) = .ok values := h
          split at hblock
          · cases hblock
          · next hfew =>
            cases hblock
            refine ⟨?_, Nat.not_lt.1 hfew⟩
            cases values <;> rfl
      | bool _ => cases h
      | int _ => cases h
      | real _ => cases h
      | text _ => cases h
      | object _ => cases h

theorem map_str_of_allTexts (other : Json → Text) {values : List Json} {names : List Text} (h : allTexts values = some names) :
    values.map (Json.str other) = names := by
  rw [allTexts] at h
  induction values generalizing names with
  | nil =>
      cases h
      rfl
  | cons value values ih =>
      rw [List.mapM_cons] at h
      obtain ⟨name, hname, h⟩ := Option.bind_eq_some_iff.1 h
      obtain ⟨rest, hrest, h⟩ := Option.bind_eq_some_iff.1 h
      cases h
      rw [List.map_cons, ih hrest]
      cases value with
      | text _ =>
          cases hname
          rfl
      | null => cases hname
      | bool _ => cases hname
      | int _ => cases hname
      | real _ => cases hname
      | array _ => cases hname
      | object _ => cases hname

theorem blockNames_eq_ok (other : Json → Text) {block : List (Text × Json)} {key : Text} {names : List Text} (h : blockNames block key = .ok names) :
    seedNames other block key = .ok names ∧ NormalNames names := by
  obtain ⟨values, hvalues, h⟩ := bind_eq_ok.1 h
  obtain ⟨hseed, hfew⟩ := blockEntries_eq_ok hvalues
  cases htexts : allTexts values with
  | none =>
      rw [htexts] at h
      cases h
  | some texts =>
      rw [htexts] at h
      cases h
      have hmap := map_str_of_allTexts other htexts
      refine ⟨?_, normalNames_cleanNames ?_⟩
      · rw [seedNames, hseed]
        show Except.ok (cleanNames (values.map (Json.str other))) = _
        rw [hmap]
      · rw [← hmap, List.length_map]
        exact hfew

/-- What the server keeps of an entry is what the seeder keeps, and it is in normal form. -/
theorem ruleDestination_eq_ok {entry : Json} {kept : Option (Text × Text)} (h : ruleDestination other entry = .ok kept) :
    seedDestination other entry = kept ∧ ∀ destination ∈ kept, isDestinationSlug destination.1 = true ∧ strip destination.2 ≠ []
      ∧ upper (strip destination.2) = destination.2 := by
  rw [ruleDestination] at h
  rw [seedDestination]
  cases hitems : entry.items? with
  | none =>
      rw [hitems] at h
      cases h
  | some items =>
      rw [hitems] at h
      dsimp only at h ⊢
      split at h
      · next hdisabled =>
        cases h
        rw [if_pos hdisabled]
        exact ⟨rfl, fun _ hmem => absurd hmem (Option.not_mem_none _)⟩
      · next henabled =>
        rw [if_neg henabled]
        generalize (Json.getD items "label".toList (.text [])).str other = labelText at h ⊢
        generalize hkey : (if (Json.getD items "key".toList (.text [])).str other = [] then strip labelText
          else (Json.getD items "key".toList (.text [])).str other) = key at h ⊢
        have hcopy : seedSlugify key = slugify key := rfl
        rw [hcopy]
        cases hslug : slugify key with
        | none =>
            rw [hslug] at h
            cases h
            exact ⟨rfl, fun _ hmem => absurd hmem (Option.not_mem_none _)⟩
        | some slug =>
            rw [hslug] at h
            cases h
            refine ⟨rfl, ?_⟩
            intro destination hmem
            split at hmem
            · cases hmem
            · next hlabel =>
              cases hmem
              have hshape : isDestinationSlug slug = true := by
                rw [slugify] at hslug
                split at hslug
                · next hshape =>
                  cases hslug
                  exact hshape
                · cases hslug
              have hstrip := (trimmed_strip labelText).upper.strip_eq
              refine ⟨hshape, ?_, ?_⟩
              · rw [hstrip]
                exact fun hnil => hlabel (upper_eq_nil_iff.1 hnil)
              · rw [hstrip, upper_upper]

theorem mapM_ruleDestination_eq_ok {entries : List Json} {kept : List (Option (Text × Text))}
    (h : entries.mapM (ruleDestination other) = .ok kept) :
    entries.filterMap (seedDestination other) = kept.filterMap id ∧ kept.length = entries.length ∧
      ∀ destination ∈ kept.filterMap id, isDestinationSlug destination.1 = true ∧ strip destination.2 ≠ []
        ∧ upper (strip destination.2) = destination.2 := by
  induction entries generalizing kept with
  | nil =>
      cases h
      exact ⟨rfl, rfl, fun _ hmem => absurd hmem List.not_mem_nil⟩
  | cons entry entries ih =>
      rw [List.mapM_cons] at h
      obtain ⟨first, hfirst, h⟩ := bind_eq_ok.1 h
      obtain ⟨rest, hrest, h⟩ := bind_eq_ok.1 h
      cases h
      obtain ⟨hsame, hnormal⟩ := ruleDestination_eq_ok hfirst
      obtain ⟨ihsame, ihlength, ihnormal⟩ := ih hrest
      refine ⟨?_, by rw [List.length_cons, List.length_cons, ihlength], ?_⟩
      · rw [List.filterMap_cons, List.filterMap_cons, hsame, ihsame]
        rfl
      · intro destination hmem
        obtain ⟨source, hsource, hid⟩ := List.mem_filterMap.1 hmem
        rcases List.mem_cons.1 hsource with rfl | hsource
        · exact hnormal destination hid
        · exact ihnormal destination (List.mem_filterMap.2 ⟨source, hsource, hid⟩)

/-- The parts of a document that is built. -/
structure BuiltFrom (other : Json → Text) (items : List (Text × Json)) (document : RulesDocument) : Prop where
  parts : ∃ transit internal entries kept, settingsBlock items "transit".toList = .ok transit
    ∧ settingsBlock items "internal_routing".toList = .ok internal
    ∧ blockEntries transit "destinations".toList = .ok entries ∧ entries.mapM (ruleDestination other) = .ok kept
    ∧ document.destinations = kept.filterMap id
    ∧ blockNames internal "branch_services_names".toList = .ok document.branchServicesNames
    ∧ blockNames internal "collection_services_names".toList = .ok document.collectionServicesNames
    ∧ blockNames internal "branch_services_da_patterns".toList = .ok document.branchServicesDaPatterns
    ∧ blockNames internal "collection_services_da_patterns".toList = .ok document.collectionServicesDaPatterns

theorem buildClassificationRules_eq_ok_iff {items : List (Text × Json)} {document : RulesDocument} :
    buildClassificationRules other (.object items) = .ok document ↔ BuiltFrom other items document := by
  constructor
  · intro h
    obtain ⟨transit, htransit, h⟩ := bind_eq_ok.1 h
    obtain ⟨internal, hinternal, h⟩ := bind_eq_ok.1 h
    obtain ⟨entries, hentries, h⟩ := bind_eq_ok.1 h
    obtain ⟨kept, hkept, h⟩ := bind_eq_ok.1 h
    obtain ⟨branchNames, hbranchNames, h⟩ := bind_eq_ok.1 h
    obtain ⟨collectionNames, hcollectionNames, h⟩ := bind_eq_ok.1 h
    obtain ⟨branchPatterns, hbranchPatterns, h⟩ := bind_eq_ok.1 h
    obtain ⟨collectionPatterns, hcollectionPatterns, h⟩ := bind_eq_ok.1 h
    cases h
    exact ⟨transit, internal, entries, kept, htransit, hinternal, hentries, hkept, rfl, hbranchNames, hcollectionNames,
      hbranchPatterns, hcollectionPatterns⟩
  · rintro ⟨transit, internal, entries, kept, htransit, hinternal, hentries, hkept, hdestinations, hbranchNames, hcollectionNames,
      hbranchPatterns, hcollectionPatterns⟩
    have hdocument : Except.ok (ε := RulesError) (RulesDocument.mk (kept.filterMap id) document.branchServicesNames
        document.collectionServicesNames document.branchServicesDaPatterns document.collectionServicesDaPatterns) = .ok document := by
      rw [← hdestinations]
    exact bind_eq_ok.2 ⟨transit, htransit, bind_eq_ok.2 ⟨internal, hinternal, bind_eq_ok.2 ⟨entries, hentries,
      bind_eq_ok.2 ⟨kept, hkept, bind_eq_ok.2 ⟨_, hbranchNames, bind_eq_ok.2 ⟨_, hcollectionNames, bind_eq_ok.2 ⟨_, hbranchPatterns,
        bind_eq_ok.2 ⟨_, hcollectionPatterns, hdocument⟩⟩⟩⟩⟩⟩⟩⟩

/-- A document that the server builds is in normal form. -/
theorem BuiltFrom.normal {items : List (Text × Json)} {document : RulesDocument} (h : BuiltFrom other items document) :
    document.Normal := by
  obtain ⟨_, _, entries, kept, -, -, hentries, hkept, hdestinations, hbranchNames, hcollectionNames, hbranchPatterns,
    hcollectionPatterns⟩ := h.parts
  obtain ⟨-, hlength, hnormal⟩ := mapM_ruleDestination_eq_ok hkept
  obtain ⟨-, hfew⟩ := blockEntries_eq_ok hentries
  exact {
    destinations := by
      rw [hdestinations]
      exact hnormal
    few := by
      rw [hdestinations]
      exact (List.length_filterMap_le _ _).trans (hlength.le.trans hfew)
    branchNames := (blockNames_eq_ok other hbranchNames).2
    collectionNames := (blockNames_eq_ok other hcollectionNames).2
    branchPatterns := (blockNames_eq_ok other hbranchPatterns).2
    collectionPatterns := (blockNames_eq_ok other hcollectionPatterns).2 }

/-- What the server builds, the seeder makes. -/
theorem BuiltFrom.seedFromSettings {items : List (Text × Json)} {document : RulesDocument} (h : BuiltFrom other items document) :
    seedFromSettings other (.object items) = .ok document := by
  obtain ⟨transit, internal, entries, kept, htransit, hinternal, hentries, hkept, hdestinations, hbranchNames, hcollectionNames,
    hbranchPatterns, hcollectionPatterns⟩ := h.parts
  obtain ⟨hsame, -, -⟩ := mapM_ruleDestination_eq_ok hkept
  rw [SortView.seedFromSettings, Json.items?]
  dsimp only
  rw [seedBlock_of_settingsBlock htransit, seedBlock_of_settingsBlock hinternal, (blockEntries_eq_ok hentries).1,
    (blockNames_eq_ok other hbranchNames).1, (blockNames_eq_ok other hcollectionNames).1,
    (blockNames_eq_ok other hbranchPatterns).1, (blockNames_eq_ok other hcollectionPatterns).1]
  show Except.ok (RulesDocument.mk (entries.filterMap (seedDestination other)) _ _ _ _) = _
  rw [hsame, ← hdestinations]

/-! ### Edits that mean the same names -/

/-- `NAME_LISTS`. -/
def nameLists : List Text :=
  ["branch_services_names".toList, "collection_services_names".toList, "branch_services_da_patterns".toList,
    "collection_services_da_patterns".toList]

/-- One edit of a list of names: another order, another case of one entry, white space around one, or one once more. -/
inductive NameEdit : List Text → List Text → Prop
  | reorder {names edited : List Text} (h : names.Perm edited) : NameEdit names edited
  | recase {name cased : Text} (before after : List Text) (h : upper cased = upper name) :
      NameEdit (before ++ name :: after) (before ++ cased :: after)
  | pad {left name right : Text} (before after : List Text) (hleft : ∀ c ∈ left, isSpace c = true)
      (hright : ∀ c ∈ right, isSpace c = true) : NameEdit (before ++ name :: after) (before ++ (left ++ name ++ right) :: after)
  | again {name : Text} {names : List Text} (h : name ∈ names) : NameEdit names (name :: names)

/-- Two lists of names where edits lead from one to the other, and back. -/
abbrev SameNames : List Text → List Text → Prop := Relation.EqvGen NameEdit

/-- The settings after edits of the four lists. Another setting that the rules do not read may change too. -/
structure NamesEdited (items edited : List (Text × Json)) : Prop where
  transit : Json.get edited "transit".toList = Json.get items "transit".toList
  names : ∃ internal after, Json.get items "internal_routing".toList = .object internal
    ∧ Json.get edited "internal_routing".toList = .object after
    ∧ ∀ key ∈ nameLists, Json.get after key = Json.get internal key
      ∨ ∃ names edited, Json.get internal key = textArray names ∧ Json.get after key = textArray edited ∧ SameNames names edited

/-- Each of the four lists has at most the entries that a rules document may have. -/
def ShortLists (items : List (Text × Json)) : Prop :=
  ∀ internal, Json.get items "internal_routing".toList = .object internal →
    ∀ key ∈ nameLists, ∀ names, Json.get internal key = textArray names → names.length ≤ maxRuleEntries

theorem exists_mem_middle {motive : Text → Prop} {before after : List Text} {value : Text} :
    (∃ other ∈ before ++ value :: after, motive other) ↔ (∃ other ∈ before, motive other) ∨ motive value ∨ ∃ other ∈ after, motive other := by
  simp only [List.mem_append, List.mem_cons, or_and_right, exists_or, exists_eq_left]

theorem NameEdit.cleanNames_eq {names edited : List Text} (h : NameEdit names edited) : cleanNames names = cleanNames edited := by
  apply cleanNames_congr
  intro result _
  cases h with
  | reorder h => simp only [h.mem_iff]
  | recase before after h => rw [exists_mem_middle, exists_mem_middle, ← strip_upper, ← strip_upper, h]
  | pad before after hleft hright => rw [exists_mem_middle, exists_mem_middle, strip_pad hleft hright]
  | again h =>
      constructor
      · rintro ⟨value, hmem, hvalue⟩
        exact ⟨value, List.mem_cons_of_mem _ hmem, hvalue⟩
      · rintro ⟨value, hmem, hvalue⟩
        rcases List.mem_cons.1 hmem with rfl | hmem
        · exact ⟨value, h, hvalue⟩
        · exact ⟨value, hmem, hvalue⟩

theorem SameNames.cleanNames_eq {names edited : List Text} (h : SameNames names edited) : cleanNames names = cleanNames edited := by
  induction h with
  | rel _ _ h => exact h.cleanNames_eq
  | refl _ => rfl
  | symm _ _ _ ih => exact ih.symm
  | trans _ _ _ _ _ ihleft ihright => exact ihleft.trans ihright

theorem blockNames_congr {block edited : List (Text × Json)} {key : Text} (h : Json.get edited key = Json.get block key) :
    blockNames edited key = blockNames block key := by
  rw [blockNames, blockNames, blockEntries, blockEntries, h]

theorem blockNames_textArray {block : List (Text × Json)} {key : Text} {names : List Text} (h : Json.get block key = textArray names)
    (hfew : names.length ≤ maxRuleEntries) : blockNames block key = .ok (cleanNames names) := by
  have hentries : blockEntries block key = .ok (names.map .text) := by
    rw [blockEntries, h, textArray]
    show (if maxRuleEntries < (names.map Json.text).length then _ else _) = _
    rw [List.length_map, if_neg (Nat.not_lt.2 hfew)]
  rw [blockNames, hentries]
  simp only [bind, Except.bind, allTexts_map_text]
  rfl

/-- Edits of the names leave the document as it is, while the lists stay short. -/
theorem BuiltFrom.of_namesEdited {items edited : List (Text × Json)} {document : RulesDocument} (h : BuiltFrom other items document)
    (hedited : NamesEdited items edited) (hshort : ShortLists edited) : BuiltFrom other edited document := by
  obtain ⟨transit, internal, entries, kept, htransit, hinternal, hentries, hkept, hdestinations, hbranchNames, hcollectionNames,
    hbranchPatterns, hcollectionPatterns⟩ := h.parts
  obtain ⟨before, after, hbefore, hafter, hlists⟩ := hedited.names
  have hblock : before = internal := by
    rw [settingsBlock, hbefore] at hinternal
    exact Except.ok.inj hinternal
  subst hblock
  have hsame (key : Text) (hkey : key ∈ nameLists) {names : List Text} (hnames : blockNames before key = .ok names) :
      blockNames after key = .ok names := by
    rcases hlists key hkey with hget | ⟨old, new, hold, hnew, hmeaning⟩
    · rw [blockNames_congr hget, hnames]
    · have hfew := hshort after hafter key hkey new hnew
      rw [blockNames_textArray hnew hfew, ← hmeaning.cleanNames_eq]
      rw [← hnames, blockNames_textArray hold]
      by_contra hlong
      obtain ⟨values, hvalues, -⟩ := bind_eq_ok.1 hnames
      have hlength := (blockEntries_eq_ok hvalues).2
      rw [blockEntries, hold] at hvalues
      have hread : (if maxRuleEntries < (old.map Json.text).length then Except.error RulesError.rulesInvalid
        else .ok (old.map Json.text)) = .ok values := hvalues
      rw [List.length_map, if_pos (Nat.not_le.1 hlong)] at hread
      cases hread
  refine ⟨transit, after, entries, kept, ?_, ?_, hentries, hkept, hdestinations, hsame _ (by decide) hbranchNames,
    hsame _ (by decide) hcollectionNames, hsame _ (by decide) hbranchPatterns, hsame _ (by decide) hcollectionPatterns⟩
  · rw [settingsBlock, hedited.transit]
    exact htransit
  · rw [settingsBlock, hafter]

/-! ### The two programs -/

/-- A document that the server builds is the one the Collector seeds from the same settings, is its own normal
form and compiles to the same rules either way. It survives every edit that means the same names, as long as
the edited lists have no more entries than a rules document may have. -/
theorem rules_shared {settings : Json} {document : RulesDocument} (h : buildClassificationRules other settings = .ok document) :
    (∃ seeded, seedFromSettings other settings = .ok seeded ∧ normalizeDocument seeded.toJson = .ok document
      ∧ ∀ keys, compileRules keys seeded.toJson = compileRules keys document.toJson)
      ∧ normalizeDocument document.toJson = .ok document
      ∧ (∀ keys, compileRules keys document.toJson = .ok (document.compile keys))
      ∧ ∀ items edited, settings = .object items → NamesEdited items edited → ShortLists edited →
        buildClassificationRules other (.object edited) = .ok document := by
  cases settings with
  | object items =>
      have hbuilt := buildClassificationRules_eq_ok_iff.1 h
      have hnormal := hbuilt.normal.normalizeDocument_toJson
      refine ⟨⟨document, hbuilt.seedFromSettings, hnormal, fun _ => rfl⟩, hnormal, ?_, ?_⟩
      · intro keys
        rw [compileRules, hnormal]
        rfl
      · intro source edited hsource hedited hshort
        cases hsource
        exact buildClassificationRules_eq_ok_iff.2 (hbuilt.of_namesEdited hedited hshort)
  | null => cases h
  | bool _ => cases h
  | int _ => cases h
  | real _ => cases h
  | text _ => cases h
  | array _ => cases h

/-- Settings with one destination and the given names. -/
def namedSettings (names : List Text) : List (Text × Json) :=
  [("transit".toList, .object [("destinations".toList, .array [.object [("label".toList, .text "Annex ".toList)]])]),
    ("internal_routing".toList, .object [("branch_services_names".toList, textArray names)])]

def namedDocument : RulesDocument where
  destinations := [("annex".toList, "ANNEX".toList)]
  branchServicesNames := ["ANNA".toList, "BO".toList]
  collectionServicesNames := []
  branchServicesDaPatterns := []
  collectionServicesDaPatterns := []

theorem textArray_inj {left right : List Text} (h : textArray left = textArray right) : left = right := by
  have hitems := Json.array.inj h
  exact List.map_injective_iff.2 (fun _ _ heq => Json.text.inj heq) hitems

theorem namesEdited_namedSettings {names edited : List Text} (h : SameNames names edited) :
    NamesEdited (namedSettings names) (namedSettings edited) := by
  refine ⟨rfl, _, _, rfl, rfl, ?_⟩
  intro key hkey
  rw [nameLists, List.mem_cons, List.mem_cons, List.mem_cons, List.mem_singleton] at hkey
  rcases hkey with rfl | rfl | rfl | rfl
  · exact Or.inr ⟨names, edited, rfl, rfl, h⟩
  · exact Or.inl rfl
  · exact Or.inl rfl
  · exact Or.inl rfl

theorem shortLists_namedSettings {names : List Text} (h : names.length ≤ maxRuleEntries) : ShortLists (namedSettings names) := by
  intro internal hinternal key hkey listed hlisted
  cases Json.object.inj hinternal
  rw [nameLists, List.mem_cons, List.mem_cons, List.mem_cons, List.mem_singleton] at hkey
  rcases hkey with rfl | rfl | rfl | rfl
  · rw [← textArray_inj hlisted]
    exact h
  · cases hlisted
  · cases hlisted
  · cases hlisted

/-- Two names in another order, one of them in capitals and with a blank before it. -/
theorem rules_shared_named :
    seedFromSettings (fun _ => []) (.object (namedSettings ["bo".toList, "Anna".toList])) = .ok namedDocument
      ∧ buildClassificationRules (fun _ => []) (.object (namedSettings [" ANNA".toList, "bo".toList])) = .ok namedDocument := by
  have hbuilt : buildClassificationRules (fun _ => []) (.object (namedSettings ["bo".toList, "Anna".toList])) = .ok namedDocument := by
    decide +kernel
  obtain ⟨-, -, -, hedits⟩ := rules_shared hbuilt
  have horder := NameEdit.reorder (List.Perm.swap "Anna".toList "bo".toList [])
  have hcase := NameEdit.recase [] ["bo".toList] (show upper "ANNA".toList = upper "Anna".toList by decide +kernel)
  have hpad := @NameEdit.pad [' '] "ANNA".toList [] [] ["bo".toList] (List.all_eq_true.1 (by decide)) (List.all_eq_true.1 (by decide))
  have hsame : SameNames ["bo".toList, "Anna".toList] [" ANNA".toList, "bo".toList] :=
    (Relation.EqvGen.rel _ _ horder).trans _ _ _ ((Relation.EqvGen.rel _ _ hcase).trans _ _ _ (Relation.EqvGen.rel _ _ hpad))
  exact ⟨by decide +kernel, hedits _ _ rfl (namesEdited_namedSettings hsame) (shortLists_namedSettings (by decide))⟩

theorem sameNames_replicate (name : Text) (count : Nat) : SameNames [name] (List.replicate (count + 1) name) := by
  induction count with
  | zero => exact Relation.EqvGen.refl _
  | succ count ih => exact ih.trans _ _ _ (Relation.EqvGen.rel _ _ (NameEdit.again (List.mem_cons_self ..)))

/-- A name that is listed once more than a list may be long: the server then builds no document at all. -/
theorem repeated_name_refused :
    ¬ ∀ items edited document, buildClassificationRules (fun _ => []) (.object items) = .ok document → NamesEdited items edited →
      buildClassificationRules (fun _ => []) (.object edited) = .ok document := by
  intro h
  have hbuilt : buildClassificationRules (fun _ => []) (.object (namedSettings ["Anna".toList]))
      = .ok { namedDocument with branchServicesNames := ["ANNA".toList] } := by decide +kernel
  have hedited := h _ _ _ hbuilt (namesEdited_namedSettings (sameNames_replicate "Anna".toList maxRuleEntries))
  obtain ⟨_, internal, _, _, -, hinternal, -, -, -, hnames, -⟩ := (buildClassificationRules_eq_ok_iff.1 hedited).parts
  cases Except.ok.inj hinternal
  obtain ⟨values, hvalues, -⟩ := bind_eq_ok.1 hnames
  have hread : (if maxRuleEntries < ((List.replicate (maxRuleEntries + 1) "Anna".toList).map Json.text).length
      then Except.error RulesError.rulesInvalid
      else .ok ((List.replicate (maxRuleEntries + 1) "Anna".toList).map Json.text)) = .ok values := hvalues
  rw [List.length_map, List.length_replicate, if_pos (Nat.lt_succ_self _)] at hread
  cases hread

end SortView
