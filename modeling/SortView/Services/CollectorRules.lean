import SortView.Collector.Rules
import SortView.Services.RoutingDestination

/-!
# The rules document of a site

`services/collector_rules.py`: a site's classification rules, made from its effective settings. Lists and
blocks that are not what they should be are refused.
-/

namespace SortView

open PyText

/-- `_slugify`. -/
def slugify (key : Text) : Option Text :=
  let slug := slugText key
  if isDestinationSlug slug then some slug else none

/-- `_block`. -/
def settingsBlock (settings : List (Text × Json)) (key : Text) : Except RulesError (List (Text × Json)) :=
  match Json.get settings key with
  | .null => .ok []
  | .object items => .ok items
  | _ => .error .rulesInvalid

/-- `_entries`. -/
def blockEntries (block : List (Text × Json)) (key : Text) : Except RulesError (List Json) :=
  match Json.get block key with
  | .null => .ok []
  | .array values => if maxRuleEntries < values.length then .error .rulesInvalid else .ok values
  | _ => .error .rulesInvalid

/-- `_names`. -/
def blockNames (block : List (Text × Json)) (key : Text) : Except RulesError (List Text) := do
  let values ← blockEntries block key
  match allTexts values with
  | none => .error .rulesInvalid
  | some names => return cleanNames names

/-- The slug and the text of one configured destination, when it is kept. `other` is `str` of a value that is no text. -/
def ruleDestination (other : Json → Text) (entry : Json) : Except RulesError (Option (Text × Text)) :=
  match entry.items? with
  | none => .error .rulesInvalid
  | some items =>
      if ¬ (Json.getD items "enabled".toList (.bool true)).truthy then .ok none
      else
        let label := strip ((Json.getD items "label".toList (.text [])).str other)
        let key := (Json.getD items "key".toList (.text [])).str other
        match slugify (if key = [] then label else key) with
        | some slug => .ok (if label = [] then none else some (slug, upper label))
        | none => .ok none

/-- `build_classification_rules`. -/
def buildClassificationRules (other : Json → Text) (settings : Json) : Except RulesError RulesDocument :=
  match settings.items? with
  | none => .error .rulesInvalid
  | some items => do
      let transit ← settingsBlock items "transit".toList
      let internal ← settingsBlock items "internal_routing".toList
      let entries ← blockEntries transit "destinations".toList
      let destinations ← entries.mapM (ruleDestination other)
      let branchNames ← blockNames internal "branch_services_names".toList
      let collectionNames ← blockNames internal "collection_services_names".toList
      let branchPatterns ← blockNames internal "branch_services_da_patterns".toList
      let collectionPatterns ← blockNames internal "collection_services_da_patterns".toList
      return ⟨destinations.filterMap id, branchNames, collectionNames, branchPatterns, collectionPatterns⟩

/-! ### What the two documents have in common -/

theorem bind_eq_ok {ε α β : Type} {x : Except ε α} {f : α → Except ε β} {result : β} :
    x >>= f = .ok result ↔ ∃ value, x = .ok value ∧ f value = .ok result := by
  cases x with
  | error problem =>
      constructor
      · intro h
        cases h
      · rintro ⟨_, h, _⟩
        cases h
  | ok value =>
      constructor
      · exact fun h => ⟨value, rfl, h⟩
      · rintro ⟨_, heq, hf⟩
        cases heq
        exact hf

theorem mapM_map_ok {α β γ ε : Type} {f : β → Except ε γ} {entry : α → β} {result : α → γ} {values : List α}
    (h : ∀ value ∈ values, f (entry value) = .ok (result value)) : (values.map entry).mapM f = .ok (values.map result) := by
  induction values with
  | nil => rfl
  | cons value values ih =>
      rw [List.map_cons, List.mapM_cons, h value (List.mem_cons_self ..),
        ih fun other hother => h other (List.mem_cons_of_mem _ hother)]
      rfl

/-- A slug of the accepted shape is its own slug. -/
theorem isDestinationSlug_of_shape {slug : Text} (hletter : startsWithLetter slug = true)
    (hcharacters : ∀ c ∈ slug, isSlugCharacter c = true ∨ c = '_') (hlength : slug.length ≤ maxSlugLength) :
    isDestinationSlug slug = true := by
  cases slug with
  | nil => cases hletter
  | cons first rest =>
      rw [isDestinationSlug]
      simp only [Bool.and_eq_true]
      refine ⟨⟨?_, ?_⟩, ?_⟩
      · simpa [startsWithLetter] using hletter
      · rw [List.all_eq_true]
        intro c hc
        rcases hcharacters c (List.mem_cons_of_mem _ hc) with hslug | rfl
        · rw [isSlugCharacter] at hslug
          rw [hslug, Bool.true_or]
        · rfl
      · rw [List.length_cons, maxSlugLength] at hlength
        exact decide_eq_true (by omega)

end SortView
