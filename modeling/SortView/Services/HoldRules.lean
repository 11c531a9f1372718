import SortView.Services.CollectorSettings

/-!
# The rules of the legacy holds

`services/hold_rules.py`, and `legacy_hold_rules` of `services/hold_report_service.py`: the rules of a site from the one key
that its statement extracts, and when they are those of the merged documents.
-/

namespace SortView

open PyText

/-! ### The rules -/

/-- `INTERNAL_ROUTING_KEY`. -/
def internalRoutingKey : Text := "internal_routing".toList

structure V1HoldRules where
  branchServicesNames : List Text
  collectionServicesNames : List Text
  branchServicesDaPatterns : List Text
  collectionServicesDaPatterns : List Text
  deriving DecidableEq

/-- `_listed`. What `str` makes of a value that is no text is a parameter. -/
def listedEntries (str : Json → Text) (block : List (Text × Json)) (key : Text) : List Text :=
  match Json.getD block key (.array []) with
  | .array values => values.map fun value => upper (strip (Json.str str value))
  | _ => []

/-- `v1_hold_rules`. -/
def v1HoldRules (str : Json → Text) (internalRouting : Json) : V1HoldRules :=
  let block := internalRouting.items?.getD []
  { branchServicesNames := listedEntries str block "branch_services_names".toList
    collectionServicesNames := listedEntries str block "collection_services_names".toList
    branchServicesDaPatterns := listedEntries str block "branch_services_da_patterns".toList
    collectionServicesDaPatterns := listedEntries str block "collection_services_da_patterns".toList }

/-! ### What the statement extracts -/

/-- A stored `settings_json`, whose objects have each key once; none where nothing is stored. -/
structure SettingsDocument where
  value : Option Json
  nodup : ∀ items, value = some (.object items) → (items.map Prod.fst).Nodup

/-- The items of a document; one that is not an object counts as an empty one. -/
def SettingsDocument.items (document : SettingsDocument) : List (Text × Json) := (document.value.bind Json.items?).getD []

/-- `COALESCE(jsonb_exists(document, name), FALSE)`: a key of an object, an element of an array, or a text itself. -/
def jsonbExists (document : Option Json) (name : Text) : Bool :=
  match document with
  | some (.object items) => (items.lookup name).isSome
  | some (.array items) => items.any fun item => item.text? = some name
  | some (.text value) => value = name
  | _ => false

/-- `document -> name`: NULL is null. -/
def jsonbGet (document : Option Json) (name : Text) : Json :=
  match document with
  | some (.object items) => Json.get items name
  | _ => .null

/-- A row of `_V1_RULES`. -/
structure HoldRulesRow where
  organizationRules : Json
  organizationHasRules : Bool
  branchRules : Json
  branchHasRules : Bool

/-- `_V1_RULES`, of the documents of an organization and of a branch. -/
def holdRulesRow (organization branch : SettingsDocument) : HoldRulesRow where
  organizationRules := jsonbGet organization.value internalRoutingKey
  organizationHasRules := jsonbExists organization.value internalRoutingKey
  branchRules := jsonbGet branch.value internalRoutingKey
  branchHasRules := jsonbExists branch.value internalRoutingKey

/-- The one key of a document. -/
def oneKey (rules : Json) (hasRules : Bool) : List (Text × Json) := if hasRules then [(internalRoutingKey, rules)] else []

/-- `legacy_hold_rules`. -/
def legacyHoldRules (str : Json → Text) : List HoldRulesRow → Except String V1HoldRules
  | [row] =>
      let organization := oneKey row.organizationRules row.organizationHasRules
      let branch := oneKey row.branchRules row.branchHasRules
      .ok (v1HoldRules str (Json.get (mergeSettings organization branch) internalRoutingKey))
  | _ => .error "The hold rules of the resolved tenant could not be read as exactly one row."

/-- The rules of the two whole documents, merged. -/
def effectiveHoldRules (str : Json → Text) (organization branch : SettingsDocument) : V1HoldRules :=
  v1HoldRules str (Json.get (mergeSettings organization.items branch.items) internalRoutingKey)

/-! ### One key of a merge -/

theorem lookup_setItem (key other : Text) (value : Json) :
    ∀ items : List (Text × Json), (setItem key value items).lookup other = if other = key then some value else items.lookup other
  | [] => by
      rw [setItem, List.lookup_cons]
      by_cases h : other = key
      · rw [if_pos h, h, beq_self_eq_true]
      · rw [if_neg h, beq_eq_false_iff_ne.2 h]
  | item :: items => by
      obtain ⟨first, held⟩ := item
      rw [setItem]
      by_cases hfirst : first = key
      · rw [if_pos hfirst, List.lookup_cons, List.lookup_cons, hfirst]
        by_cases h : other = key
        · rw [if_pos h, h, beq_self_eq_true]
        · rw [if_neg h, beq_eq_false_iff_ne.2 h]
      · rw [if_neg hfirst, List.lookup_cons, List.lookup_cons, lookup_setItem key other value items]
        by_cases h : other = first
        · rw [h, beq_self_eq_true]
          exact (if_neg hfirst).symm
        · rw [beq_eq_false_iff_ne.2 h]

/-- A key of the merge: the organization's where the branch has none, or the branch's over it. -/
theorem lookup_mergeSettings (key : Text) : ∀ (branch under : List (Text × Json)), (branch.map Prod.fst).Nodup →
    (mergeSettings under branch).lookup key
      = match branch.lookup key with
        | none => under.lookup key
        | some value => some (mergeValue (under.lookup key) value)
  | [], under, _ => by rw [mergeSettings, List.lookup_nil]
  | (first, held) :: rest, under, hnodup => by
      rw [List.map_cons, List.nodup_cons] at hnodup
      rw [mergeSettings, lookup_mergeSettings key rest _ hnodup.2, List.lookup_cons, lookup_setItem, mergeItem]
      by_cases h : key = first
      · have hrest : rest.lookup key = none := by
          rw [List.lookup_eq_none_iff]
          intro item hitem
          rw [bne_iff_ne]
          rintro rfl
          exact hnodup.1 (h ▸ List.mem_map.2 ⟨item, hitem, rfl⟩)
        rw [hrest, h, beq_self_eq_true, if_pos rfl]
      · rw [beq_eq_false_iff_ne.2 h, if_neg h]

/-- A branch document that is not an object, but of which the statement says that it has the rules. -/
def NamesRules (branch : SettingsDocument) : Prop :=
  jsonbExists branch.value internalRoutingKey = true ∧ branch.value.bind Json.items? = none

theorem lookup_oneKey (rules : Json) (hasRules : Bool) :
    (oneKey rules hasRules).lookup internalRoutingKey = if hasRules then some rules else none := by
  cases hasRules with
  | false => rfl
  | true => exact List.lookup_cons_self

/-- Of an object the statement extracts the key of its items. -/
theorem jsonb_of_items {document : SettingsDocument} {items : List (Text × Json)} (h : document.value.bind Json.items? = some items) :
    (if jsonbExists document.value internalRoutingKey then some (jsonbGet document.value internalRoutingKey) else none)
      = items.lookup internalRoutingKey := by
  obtain ⟨value, hvalue, hitems⟩ := Option.bind_eq_some_iff.1 h
  rw [hvalue]
  cases value with
  | object held =>
      cases hitems
      rw [jsonbExists, jsonbGet, Json.get, Json.getD]
      cases items.lookup internalRoutingKey <;> rfl
  | null | bool | int | real | text | array => cases hitems

theorem jsonbGet_of_not_items {document : SettingsDocument} (h : document.value.bind Json.items? = none) :
    jsonbGet document.value internalRoutingKey = .null := by
  cases hvalue : document.value with
  | none => rfl
  | some value =>
      rw [hvalue] at h
      cases value with
      | object held => cases h
      | null | bool | int | real | text | array => rfl

/-- A value over nothing is kept as one over null. -/
theorem mergeValue_null (value : Json) : mergeValue (some .null) value = mergeValue none value := by
  cases value <;> simp only [mergeValue]

theorem SettingsDocument.nodup_items (document : SettingsDocument) : (document.items.map Prod.fst).Nodup := by
  rw [SettingsDocument.items]
  cases h : document.value.bind Json.items? with
  | none => exact List.nodup_nil
  | some items =>
      obtain ⟨value, hvalue, hitems⟩ := Option.bind_eq_some_iff.1 h
      cases value with
      | object held =>
          cases hitems
          exact document.nodup items hvalue
      | null | bool | int | real | text | array => cases hitems

theorem nodup_oneKey (rules : Json) (hasRules : Bool) : ((oneKey rules hasRules).map Prod.fst).Nodup := by
  cases hasRules with
  | false => exact List.nodup_nil
  | true => exact List.nodup_singleton _

/-- What a branch has over nothing is what it has over null. -/
theorem merged_eq {held organization : Option Json} (h : held = organization ∨ held = some .null ∧ organization = none)
    (branch : Option Json) :
    (match branch with | none => held | some value => some (mergeValue held value)).getD Json.null
      = (match branch with | none => organization | some value => some (mergeValue organization value)).getD Json.null := by
  rcases h with rfl | ⟨rfl, rfl⟩
  · rfl
  · cases branch with
    | none => rfl
    | some value => exact congrArg (fun value => (some value).getD Json.null) (mergeValue_null value)

/-- What is extracted of an organization: its key, or null where its document is not an object but names it. -/
theorem extracted_cases (document : SettingsDocument) :
    (if jsonbExists document.value internalRoutingKey then some (jsonbGet document.value internalRoutingKey) else none)
        = document.items.lookup internalRoutingKey
      ∨ (if jsonbExists document.value internalRoutingKey then some (jsonbGet document.value internalRoutingKey) else none)
          = some .null ∧ document.items.lookup internalRoutingKey = none := by
  cases h : document.value.bind Json.items? with
  | some items =>
      left
      rw [jsonb_of_items h, SettingsDocument.items, h]
      rfl
  | none =>
      rw [SettingsDocument.items, h, jsonbGet_of_not_items h]
      cases jsonbExists document.value internalRoutingKey with
      | false => exact Or.inl rfl
      | true => exact Or.inr ⟨rfl, rfl⟩

/-- The rules of the one key: those of the merged documents, but for a branch document that only names them. -/
theorem oneKey_merge (organization branch : SettingsDocument) :
    (NamesRules branch → Json.get (mergeSettings
        (oneKey (jsonbGet organization.value internalRoutingKey) (jsonbExists organization.value internalRoutingKey))
        (oneKey (jsonbGet branch.value internalRoutingKey) (jsonbExists branch.value internalRoutingKey))) internalRoutingKey = .null)
      ∧ (¬ NamesRules branch → Json.get (mergeSettings
        (oneKey (jsonbGet organization.value internalRoutingKey) (jsonbExists organization.value internalRoutingKey))
        (oneKey (jsonbGet branch.value internalRoutingKey) (jsonbExists branch.value internalRoutingKey))) internalRoutingKey
          = Json.get (mergeSettings organization.items branch.items) internalRoutingKey) := by
  rw [Json.get, Json.getD, lookup_mergeSettings _ _ _ (nodup_oneKey _ _), lookup_oneKey, lookup_oneKey, Json.get, Json.getD,
    lookup_mergeSettings _ _ _ branch.nodup_items]
  constructor
  · intro hnames
    rw [hnames.1, if_pos rfl, jsonbGet_of_not_items hnames.2]
    dsimp only
    rw [mergeValue]
    · rfl
    · intro items hobject
      cases hobject
  · intro hnames
    rw [merged_eq (extracted_cases organization)]
    cases h : branch.value.bind Json.items? with
    | some items =>
        have hitems : branch.items = items := by rw [SettingsDocument.items, h, Option.getD_some]
        rw [jsonb_of_items h, hitems]
    | none =>
        have hitems : branch.items = [] := by rw [SettingsDocument.items, h, Option.getD_none]
        have hexists : jsonbExists branch.value internalRoutingKey = false := by
          by_contra hexists
          exact hnames ⟨eq_true_of_ne_false hexists, h⟩
        rw [hexists, hitems, if_neg Bool.false_ne_true]
        rfl

/-- The statement's rules are those of the merged documents exactly where the branch's document does not merely name them, or
the organization has none. -/
theorem legacyHoldRules_eq_iff (str : Json → Text) (organization branch : SettingsDocument) :
    legacyHoldRules str [holdRulesRow organization branch] = .ok (effectiveHoldRules str organization branch)
      ↔ (NamesRules branch → v1HoldRules str (Json.get organization.items internalRoutingKey) = v1HoldRules str .null) := by
  obtain ⟨hnamed, hother⟩ := oneKey_merge organization branch
  rw [legacyHoldRules, holdRulesRow, Except.ok.injEq]
  dsimp only
  by_cases hnames : NamesRules branch
  · have hitems : branch.items = [] := by rw [SettingsDocument.items, hnames.2, Option.getD_none]
    rw [hnamed hnames, effectiveHoldRules, hitems, mergeSettings]
    exact ⟨fun h _ => h.symm, fun h => (h hnames).symm⟩
  · rw [hother hnames]
    exact ⟨fun _ h => absurd h hnames, fun _ => rfl⟩

end SortView
