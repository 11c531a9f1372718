import SortView.Collector.Identity
import SortView.Lib.Json
import SortView.Lib.TextOrder

/-!
# The local classification rules

`collector/v2_rules.py`: the rules document of a site, its normalized form, and the compiled rules that the
transformer and the normalizer read.
-/

namespace SortView

open PyText

/-- `RulesError("rules_invalid")`. -/
inductive RulesError where
  | rulesInvalid
  deriving DecidableEq

def schemaVersion : Int := 1

/-- `_MAX_ENTRIES`. -/
def maxRuleEntries : Nat := 5000

/-! ### Sorted sets of names -/

def insertName (name : Text) : List Text → List Text
  | [] => [name]
  | first :: rest =>
      if name = first then first :: rest
      else if textLe name first then name :: first :: rest
      else first :: insertName name rest

/-- `sorted(set)`. -/
def sortedNames (names : List Text) : List Text := names.foldr insertName []

theorem mem_insertName {name other : Text} {names : List Text} : other ∈ insertName name names ↔ other = name ∨ other ∈ names := by
  induction names with
  | nil => simp [insertName]
  | cons first rest ih =>
      rw [insertName]
      split
      · next heq =>
        subst heq
        simp
      · split
        · exact List.mem_cons
        · rw [List.mem_cons, ih, List.mem_cons]
          exact or_left_comm

theorem mem_sortedNames {name : Text} {names : List Text} : name ∈ sortedNames names ↔ name ∈ names := by
  induction names with
  | nil => rfl
  | cons first rest ih =>
      rw [sortedNames, List.foldr_cons, mem_insertName, List.mem_cons]
      exact or_congr_right ih

/-- The names as they are compared: stripped, upper-cased, blank ones left out. -/
def cleanNames (values : List Text) : List Text :=
  sortedNames ((values.filter fun value => strip value ≠ []).map fun value => upper (strip value))

/-! ### The document -/

/-- A normalized rules document. A destination is its slug and the text its labels contain. -/
structure RulesDocument where
  destinations : List (Text × Text)
  branchServicesNames : List Text
  collectionServicesNames : List Text
  branchServicesDaPatterns : List Text
  collectionServicesDaPatterns : List Text
  deriving DecidableEq

def textArray (values : List Text) : Json := .array (values.map .text)

def ruleEntry (destination : Text × Text) : Json :=
  .object [("slug".toList, .text destination.1), ("contains".toList, .text destination.2)]

def RulesDocument.toJson (document : RulesDocument) : Json :=
  .object [("schema_version".toList, .int schemaVersion),
    ("destinations".toList, .array (document.destinations.map ruleEntry)),
    ("branch_services_names".toList, textArray document.branchServicesNames),
    ("collection_services_names".toList, textArray document.collectionServicesNames),
    ("branch_services_da_patterns".toList, textArray document.branchServicesDaPatterns),
    ("collection_services_da_patterns".toList, textArray document.collectionServicesDaPatterns)]

/-- The texts of a list whose members are all texts. -/
def allTexts (values : List Json) : Option (List Text) := values.mapM Json.text?

/-- `_names`. -/
def documentNames (document : List (Text × Json)) (key : Text) : Except RulesError (List Text) :=
  match (Json.getD document key (.array [])).array? with
  | none => .error .rulesInvalid
  | some values =>
      if maxRuleEntries < values.length then .error .rulesInvalid
      else match allTexts values with
        | none => .error .rulesInvalid
        | some names => .ok (cleanNames names)

/-- One entry of `destinations`, cleaned. -/
def documentDestination (entry : Json) : Except RulesError (Text × Text) :=
  match entry.items? with
  | none => .error .rulesInvalid
  | some items =>
      match (Json.get items "slug".toList).text?, (Json.get items "contains".toList).text? with
      | some slug, some contains =>
          if isDestinationSlug slug ∧ strip contains ≠ [] then .ok (slug, upper (strip contains)) else .error .rulesInvalid
      | _, _ => .error .rulesInvalid

def documentDestinations (document : List (Text × Json)) : Except RulesError (List (Text × Text)) :=
  match (Json.getD document "destinations".toList (.array [])).array? with
  | none => .error .rulesInvalid
  | some entries =>
      if maxRuleEntries < entries.length then .error .rulesInvalid else entries.mapM documentDestination

/-- `normalize_document`. -/
def normalizeDocument (document : Json) : Except RulesError RulesDocument :=
  match document.items? with
  | none => .error .rulesInvalid
  | some items =>
      if (Json.get items "schema_version".toList).equalsInt schemaVersion then do
        let destinations ← documentDestinations items
        let branchNames ← documentNames items "branch_services_names".toList
        let collectionNames ← documentNames items "collection_services_names".toList
        let branchPatterns ← documentNames items "branch_services_da_patterns".toList
        let collectionPatterns ← documentNames items "collection_services_da_patterns".toList
        return ⟨destinations, branchNames, collectionNames, branchPatterns, collectionPatterns⟩
      else .error .rulesInvalid

/-! ### The canonical text -/

def hexDigits (value : Nat) : Text :=
  [value / 4096 % 16, value / 256 % 16, value / 16 % 16, value % 16].map Nat.digitChar

/-- One character of a JSON text in ASCII; above the first plane as two surrogates. -/
def escapeCharacter (c : Char) : Text :=
  let escaped (value : Nat) : Text := "\\u".toList ++ hexDigits value
  if c = '"' then "\\\"".toList
  else if c = '\\' then "\\\\".toList
  else if c = '\n' then "\\n".toList
  else if c = '\r' then "\\r".toList
  else if c = '\t' then "\\t".toList
  else if c.toNat = 8 then "\\b".toList
  else if c.toNat = 12 then "\\f".toList
  else if 32 ≤ c.toNat ∧ c.toNat < 127 then [c]
  else if c.toNat < 65536 then escaped c.toNat
  else escaped (55296 + (c.toNat - 65536) / 1024) ++ escaped (56320 + (c.toNat - 65536) % 1024)

def quoted (value : Text) : Text := ['"'] ++ value.flatMap escapeCharacter ++ ['"']

def listed (values : List Text) : Text := ['['] ++ join ',' values ++ [']']

def braced (values : List Text) : Text := [Char.ofNat 123] ++ join ',' values ++ [Char.ofNat 125]

def member (name value : Text) : Text := quoted name ++ [':'] ++ value

/-- `json.dumps(normalized, sort_keys=True, separators=(",", ":"))`. -/
def RulesDocument.canonical (document : RulesDocument) : Text :=
  let names (values : List Text) : Text := listed (values.map quoted)
  braced [member "branch_services_da_patterns".toList (names document.branchServicesDaPatterns),
    member "branch_services_names".toList (names document.branchServicesNames),
    member "collection_services_da_patterns".toList (names document.collectionServicesDaPatterns),
    member "collection_services_names".toList (names document.collectionServicesNames),
    member "destinations".toList (listed (document.destinations.map fun destination =>
      braced [member "contains".toList (quoted destination.2), member "slug".toList (quoted destination.1)])),
    member "schema_version".toList (decimal schemaVersion.toNat)]

/-! ### Compiled rules -/

/-- The rules in force. Names are keyed digests; a destination is the text a label contains and its slug. -/
structure Rules where
  destinations : List (Text × Text)
  branchNameHmacs : List Digest
  collectionNameHmacs : List Digest
  branchDaMarkers : List Text
  collectionDaMarkers : List Text
  fingerprint : Digest

def daMarker (pattern : Text) : Text := ['|'] ++ pattern ++ ['|']

variable (keys : SubKeys)

/-- The rules of a normalized document. -/
def RulesDocument.compile (document : RulesDocument) : Rules where
  destinations := document.destinations.map Prod.swap
  branchNameHmacs := document.branchServicesNames.map (nameHmac keys)
  collectionNameHmacs := document.collectionServicesNames.map (nameHmac keys)
  branchDaMarkers := document.branchServicesDaPatterns.map daMarker
  collectionDaMarkers := document.collectionServicesDaPatterns.map daMarker
  fingerprint := rulesetFingerprint keys document.canonical

/-- `compile_rules`. -/
def compileRules (document : Json) : Except RulesError (Rules) :=
  (normalizeDocument document).map (RulesDocument.compile keys)

end SortView
