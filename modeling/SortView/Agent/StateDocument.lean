import SortView.Agent.SourceCollector
import SortView.Lib.Dict
import SortView.Lib.JsonLayout
import SortView.Lib.TextLines

/-!
# The state document of the agent (`agent/state.py`)

The saved position of each source as a JSON document: what `save_state` writes, what `load_state` accepts, and that every state
that can be loaded is read back from what is written of it.
-/

namespace SortView

open PyText JsonText

namespace StateDocument

variable {φ : Type}

def schemaVersion : Int := 3

/-- `_MIGRATABLE_SCHEMA_VERSIONS`. -/
def migratableSchemaVersions : List Int := []

/-- The position of a source, with the check of `__post_init__`; an identity is the integers of its token. -/
structure SourceState where
  path : Text
  identity : Option (List Int)
  offset : Nat
  generation : Nat
  updatedAt : Option Text
  offset_le : offset ≤ Agent.maxPlausibleOffset

/-- Its `schema_version` is always the current one. -/
structure AgentState where
  sources : Dict Text SourceState

def emptyState : AgentState := ⟨Dict.empty⟩

def getSource (state : AgentState) (name : Text) : Option SourceState := state.sources.get? name

def withSource (state : AgentState) (name : Text) (sourceState : SourceState) : AgentState := ⟨state.sources.set name sourceState⟩

/-- `CorruptStateError` where one entry is not valid. -/
inductive EntryError where
  | notAnObject
  | path
  | offsetType
  | negativeOffset
  | generationType
  | negativeGeneration
  | identity
  | updatedAt
  | implausibleOffset (path : Text) (offset : Nat)
  deriving DecidableEq

inductive StateError where
  | couldNotBeRead
  | notUnicode
  | notValidJson
  | rootNotAnObject
  | unsupportedSchemaVersion
  | sourcesNotAnObject
  | entry (name : Text) (error : EntryError)
  deriving DecidableEq

/-! ### Writing -/

def serializeIdentity : Option (List Int) → JsonValue φ
  | none => .null
  | some token => .array (token.map .int)

def optionalText : Option Text → JsonValue φ
  | none => .null
  | some text => .text text

def sourceItems (sourceState : SourceState) : List (Text × JsonValue φ) :=
  [("path".toList, .text sourceState.path), ("identity".toList, serializeIdentity sourceState.identity),
    ("offset".toList, .int sourceState.offset), ("generation".toList, .int sourceState.generation),
    ("updated_at".toList, optionalText sourceState.updatedAt)]

def serializeSource (sourceState : SourceState) : JsonValue φ := .object (sourceItems sourceState)

def toJsonDict (state : AgentState) : JsonValue φ :=
  .object [("schema_version".toList, .int schemaVersion),
    ("sources".toList, .object (state.sources.entries.map fun entry => (entry.1, serializeSource entry.2)))]

/-! ### Reading -/

/-- `raw.get(key)`. -/
def field (raw : List (Text × JsonValue φ)) (key : Text) : JsonValue φ := (raw.lookup key).getD .null

/-- An integer that is not negative. -/
def natural (wrongType negative : EntryError) : JsonValue φ → Except EntryError Nat
  | .int value => if value < 0 then .error negative else .ok value.toNat
  | _ => .error wrongType

def deserializePath : JsonValue φ → Except EntryError Text
  | .text path => if path = [] then .error .path else .ok path
  | _ => .error .path

def integer : JsonValue φ → Except EntryError Int
  | .int value => .ok value
  | _ => .error .identity

def deserializeIdentity : JsonValue φ → Except EntryError (Option (List Int))
  | .null => .ok none
  | .array items => (items.mapM integer).map some
  | _ => .error .identity

/-- A document of an older version may have no generation. -/
def deserializeGeneration (defaultGeneration : Option Nat) (raw : List (Text × JsonValue φ)) : Except EntryError Nat :=
  match raw.lookup "generation".toList, defaultGeneration with
  | none, some generation => .ok generation
  | _, _ => natural .generationType .negativeGeneration (field raw "generation".toList)

def deserializeUpdatedAt : JsonValue φ → Except EntryError (Option Text)
  | .null => .ok none
  | .text text => .ok (some text)
  | _ => .error .updatedAt

/-- The constructor, with its check. -/
def sourceState (path : Text) (identity : Option (List Int)) (offset generation : Nat) (updatedAt : Option Text) :
    Except EntryError SourceState :=
  if h : offset ≤ Agent.maxPlausibleOffset then .ok ⟨path, identity, offset, generation, updatedAt, h⟩
  else .error (.implausibleOffset path offset)

def deserializeSource (defaultGeneration : Option Nat) : JsonValue φ → Except EntryError SourceState
  | .object raw => do
      let path ← deserializePath (field raw "path".toList)
      let offset ← natural .offsetType .negativeOffset (field raw "offset".toList)
      let generation ← deserializeGeneration defaultGeneration raw
      let identity ← deserializeIdentity (field raw "identity".toList)
      let updatedAt ← deserializeUpdatedAt (field raw "updated_at".toList)
      sourceState path identity offset generation updatedAt
  | _ => .error .notAnObject

/-- The sources of a document, one after another. -/
def deserializeSources (defaultGeneration : Option Nat) :
    List (Text × JsonValue φ) → Dict Text SourceState → Except StateError (Dict Text SourceState)
  | [], sources => .ok sources
  | (name, raw) :: entries, sources =>
      match deserializeSource defaultGeneration raw with
      | .error error => .error (.entry name error)
      | .ok source => deserializeSources defaultGeneration entries (sources.set name source)

/-- `value == version`, where `eqInt` compares a float with an integer. -/
def isVersion (eqInt : φ → Int → Bool) (version : Int) : JsonValue φ → Bool
  | .int value => value = version
  | .float value => eqInt value version
  | .bool value => (if value then 1 else 0) = version
  | _ => false

variable (eqInt : φ → Int → Bool)

def fromJsonDict : JsonValue φ → Except StateError AgentState
  | .object raw =>
      let version := field raw "schema_version".toList
      let migrates := migratableSchemaVersions.any fun old => isVersion eqInt old version
      if isVersion eqInt schemaVersion version || migrates then
        match field raw "sources".toList with
        | .object entries => (deserializeSources (if migrates then some 0 else none) entries Dict.empty).map AgentState.mk
        | _ => .error .sourcesNotAnObject
      else .error .unsupportedSchemaVersion
  | _ => .error .rootNotAnObject

/-! ### The file -/

/-- The state file as a read finds it. -/
inductive StateFile where
  | missing
  | unreadable
  | undecodable
  | text (text : Text)

variable (floats : FloatText φ)

def loadState : StateFile → Except StateError AgentState
  | .missing => .ok emptyState
  | .unreadable => .error .couldNotBeRead
  | .undecodable => .error .notUnicode
  | .text text =>
      match loads floats (universalNewlines text) with
      | none => .error .notValidJson
      | some raw => fromJsonDict eqInt raw

/-- `json.dumps(to_json_dict(state), indent=2)`. -/
def payload (state : AgentState) : Text := dumpsAs floats (.indented 2) 0 (toJsonDict state)

/-! ### A source is read back -/

theorem natural_ofNat (wrongType negative : EntryError) (n : Nat) : natural wrongType negative (.int n : JsonValue φ) = .ok n := by
  rw [natural, if_neg (Int.not_lt.2 (Int.natCast_nonneg n))]
  rfl

theorem mapM_integer (token : List Int) : (token.map JsonValue.int).mapM (integer (φ := φ)) = .ok token := by
  induction token with
  | nil => rfl
  | cons value token ih =>
      rw [List.map_cons, List.mapM_cons, ih]
      rfl

theorem deserializeIdentity_serializeIdentity (identity : Option (List Int)) :
    deserializeIdentity (serializeIdentity identity : JsonValue φ) = .ok identity := by
  cases identity with
  | none => rfl
  | some token =>
      rw [serializeIdentity, deserializeIdentity, mapM_integer]
      rfl

theorem deserializeUpdatedAt_optionalText (updatedAt : Option Text) :
    deserializeUpdatedAt (optionalText updatedAt : JsonValue φ) = .ok updatedAt := by
  cases updatedAt <;> rfl

theorem sourceState_eq (source : SourceState) :
    sourceState source.path source.identity source.offset source.generation source.updatedAt = .ok source := by
  rw [sourceState, dif_pos source.offset_le]

theorem deserializeSource_serializeSource (defaultGeneration : Option Nat) {source : SourceState} (hpath : source.path ≠ []) :
    deserializeSource defaultGeneration (serializeSource source : JsonValue φ) = .ok source := by
  have hpathRead : deserializePath (field (sourceItems (φ := φ) source) "path".toList) = .ok source.path := if_neg hpath
  have hoffset : natural .offsetType .negativeOffset (field (sourceItems (φ := φ) source) "offset".toList) = .ok source.offset :=
    natural_ofNat _ _ _
  have hgeneration : deserializeGeneration defaultGeneration (sourceItems (φ := φ) source) = .ok source.generation := by
    cases defaultGeneration <;> exact natural_ofNat (φ := φ) .generationType .negativeGeneration source.generation
  have hidentity : deserializeIdentity (field (sourceItems (φ := φ) source) "identity".toList) = .ok source.identity :=
    deserializeIdentity_serializeIdentity _
  have hupdated : deserializeUpdatedAt (field (sourceItems (φ := φ) source) "updated_at".toList) = .ok source.updatedAt :=
    deserializeUpdatedAt_optionalText _
  rw [serializeSource, deserializeSource, hpathRead, hoffset, hgeneration, hidentity, hupdated]
  exact sourceState_eq source

/-! ### A state is read back -/

/-- Every path is one that a read accepts. -/
def Storable (state : AgentState) : Prop := ∀ entry ∈ state.sources.entries, entry.2.path ≠ []

theorem deserializeSources_serialize (defaultGeneration : Option Nat) : ∀ {entries : List (Text × SourceState)}
    (sources : Dict Text SourceState), (∀ entry ∈ entries, entry.2.path ≠ []) →
    deserializeSources defaultGeneration (entries.map fun entry => (entry.1, (serializeSource entry.2 : JsonValue φ))) sources
      = .ok (entries.foldl (fun sources entry => sources.set entry.1 entry.2) sources)
  | [], _, _ => rfl
  | entry :: entries, sources, hpaths => by
      rw [List.map_cons, deserializeSources, deserializeSource_serializeSource _ (hpaths entry (.head _))]
      exact deserializeSources_serialize defaultGeneration _ fun other hmem => hpaths other (.tail _ hmem)

theorem setEntries_of_not_mem {α : Type} {name : Text} {source : α} {entries : List (Text × α)}
    (h : name ∉ entries.map Prod.fst) : Dict.setEntries name source entries = entries ++ [(name, source)] := by
  induction entries with
  | nil => rfl
  | cons entry entries ih =>
      rw [List.map_cons, List.mem_cons, not_or] at h
      rw [Dict.setEntries, if_neg (Ne.symm h.1), ih h.2]
      rfl

theorem foldl_set_entries {α : Type} {entries : List (Text × α)} : ∀ (sources : Dict Text α),
    ((sources.entries ++ entries).map Prod.fst).Nodup →
    (entries.foldl (fun sources entry => sources.set entry.1 entry.2) sources).entries = sources.entries ++ entries := by
  induction entries with
  | nil =>
      intro sources _
      exact (List.append_nil _).symm
  | cons entry entries ih =>
      intro sources hnodup
      have hnew : entry.1 ∉ sources.entries.map Prod.fst := by
        intro hmem
        rw [List.map_append, List.nodup_append] at hnodup
        exact hnodup.2.2 _ hmem entry.1 (.head _) rfl
      have hset : (sources.set entry.1 entry.2).entries = sources.entries ++ [entry] := setEntries_of_not_mem hnew
      have happend : (sources.set entry.1 entry.2).entries ++ entries = sources.entries ++ entry :: entries := by
        rw [hset, List.append_assoc, List.singleton_append]
      rw [List.foldl_cons, ih _ (happend ▸ hnodup), happend]

/-- The sources that are read one after another are those of the document. -/
theorem foldl_set_sources {α : Type} (sources : Dict Text α) :
    sources.entries.foldl (fun sources entry => sources.set entry.1 entry.2) Dict.empty = sources := by
  have hentries := foldl_set_entries Dict.empty sources.nodup
  cases hfold : sources.entries.foldl (fun sources entry => sources.set entry.1 entry.2) Dict.empty with
  | mk entries nodup =>
      rw [hfold] at hentries
      obtain ⟨sourceEntries, sourceNodup⟩ := sources
      congr 1

theorem fromJsonDict_toJsonDict {state : AgentState} (hstorable : Storable state) :
    fromJsonDict eqInt (toJsonDict state : JsonValue φ) = .ok state := by
  have hsources := deserializeSources_serialize (φ := φ) none Dict.empty hstorable
  rw [foldl_set_sources] at hsources
  have hread : fromJsonDict eqInt (toJsonDict state : JsonValue φ)
      = (deserializeSources none (state.sources.entries.map fun entry => (entry.1, (serializeSource entry.2 : JsonValue φ)))
          Dict.empty).map AgentState.mk := rfl
  rw [hread, hsources]
  rfl

theorem keyedItems_int (token : List Int) : KeyedItems (token.map (JsonValue.int (φ := φ))) := by
  induction token with
  | nil => trivial
  | cons value token ih => exact ⟨trivial, ih⟩

theorem keyed_serializeSource (source : SourceState) : Keyed (serializeSource source : JsonValue φ) := by
  obtain ⟨path, identity, offset, generation, updatedAt, -⟩ := source
  have hnames : ["path".toList, "identity".toList, "offset".toList, "generation".toList, "updated_at".toList].Nodup := by decide
  refine ⟨hnames, trivial, ?_, trivial, trivial, ?_, trivial⟩
  · cases identity with
    | none => trivial
    | some token => exact keyedItems_int token
  · cases updatedAt <;> trivial

theorem keyedMembers_sources (entries : List (Text × SourceState)) :
    KeyedMembers (entries.map fun entry => (entry.1, (serializeSource entry.2 : JsonValue φ))) := by
  induction entries with
  | nil => trivial
  | cons entry entries ih => exact ⟨keyed_serializeSource entry.2, ih⟩

theorem keyed_toJsonDict (state : AgentState) : Keyed (toJsonDict state : JsonValue φ) := by
  have hkeys : ((state.sources.entries.map fun entry => (entry.1, (serializeSource entry.2 : JsonValue φ))).map Prod.fst).Nodup := by
    rw [List.map_map]
    exact state.sources.nodup
  have hnames : ["schema_version".toList, "sources".toList].Nodup := by decide
  exact ⟨hnames, trivial, ⟨hkeys, keyedMembers_sources _⟩, trivial⟩

/-! ### What a read accepts -/

theorem path_eq_of_sourceState {path : Text} {identity : Option (List Int)} {offset generation : Nat} {updatedAt : Option Text}
    {source : SourceState} (h : sourceState path identity offset generation updatedAt = .ok source) : source.path = path := by
  rw [sourceState] at h
  split at h
  · cases h
    rfl
  · cases h

theorem ne_nil_of_deserializePath {raw : JsonValue φ} {path : Text} (h : deserializePath raw = .ok path) : path ≠ [] := by
  cases raw with
  | text text =>
      rw [deserializePath] at h
      split at h
      · cases h
      · next hne =>
        cases h
        exact hne
  | _ => cases h

theorem path_ne_nil {defaultGeneration : Option Nat} {raw : JsonValue φ} {source : SourceState}
    (h : deserializeSource defaultGeneration raw = .ok source) : source.path ≠ [] := by
  cases raw with
  | object raw =>
      simp only [deserializeSource, bind, Except.bind] at h
      split at h
      · cases h
      next path hpath =>
      -- the other fields are read before the constructor, which keeps the path
      split at h
      · cases h
      split at h
      · cases h
      split at h
      · cases h
      split at h
      · cases h
      exact path_eq_of_sourceState h ▸ ne_nil_of_deserializePath hpath
  | _ => cases h

theorem mem_set {sources : Dict Text SourceState} {name : Text} {source : SourceState} {entry : Text × SourceState}
    (h : entry ∈ (sources.set name source).entries) : entry = (name, source) ∨ entry ∈ sources.entries := by
  have hget := (Dict.get?_eq_some_iff _ entry.1 entry.2).2 h
  rw [Dict.get?_set] at hget
  split at hget
  · next heq => exact Or.inl (Prod.ext heq (Option.some.inj hget).symm)
  · exact Or.inr ((Dict.get?_eq_some_iff _ entry.1 entry.2).1 hget)

theorem Storable.withSource {state : AgentState} (h : Storable state) (name : Text) {source : SourceState} (hpath : source.path ≠ []) :
    Storable (withSource state name source) := by
  intro entry hmem
  rcases mem_set hmem with rfl | hmem
  · exact hpath
  · exact h entry hmem

theorem paths_deserializeSources {defaultGeneration : Option Nat} {entries : List (Text × JsonValue φ)} :
    ∀ {sources found : Dict Text SourceState}, (∀ entry ∈ sources.entries, entry.2.path ≠ []) →
    deserializeSources defaultGeneration entries sources = .ok found → ∀ entry ∈ found.entries, entry.2.path ≠ [] := by
  induction entries with
  | nil =>
      intro sources found hpaths h
      cases h
      exact hpaths
  | cons first entries ih =>
      obtain ⟨name, raw⟩ := first
      intro sources found hpaths h
      rw [deserializeSources] at h
      cases hsource : deserializeSource defaultGeneration raw with
      | error error =>
          rw [hsource] at h
          cases h
      | ok source =>
          rw [hsource] at h
          refine ih ?_ h
          intro entry hmem
          rcases mem_set hmem with rfl | hmem
          · exact path_ne_nil hsource
          · exact hpaths entry hmem

/-- Every state that is loaded can be saved and loaded again. -/
theorem storable_of_loadState {file : StateFile} {state : AgentState} (h : loadState eqInt floats file = .ok state) :
    Storable state := by
  have hempty : Storable emptyState := fun _ hmem => nomatch hmem
  cases file with
  | missing =>
      cases h
      exact hempty
  | unreadable => cases h
  | undecodable => cases h
  | text text =>
      rw [loadState] at h
      split at h
      · cases h
      · next raw _ =>
        cases raw with
        | object raw =>
            rw [fromJsonDict] at h
            split at h
            · split at h
              · next entries _ =>
                cases hsources : deserializeSources (φ := φ) _ entries Dict.empty with
                | error error =>
                    rw [hsources] at h
                    cases h
                | ok sources =>
                    rw [hsources] at h
                    cases h
                    exact paths_deserializeSources hempty hsources
              · cases h
            · cases h
        | _ => cases h

/-- What is written of a state is read as that state, in either form of newlines. -/
theorem loadState_payload {linesep : Text} (hlinesep : linesep = ['\n'] ∨ linesep = ['\r', '\n']) {state : AgentState}
    (hstorable : Storable state) :
    loadState eqInt floats (.text (writtenNewlines linesep (payload floats state))) = .ok state := by
  have hplain := plain_dumpsAs floats (.indented 2) (toJsonDict state) 0
  rw [loadState, payload, universalNewlines_writtenNewlines hlinesep hplain.no_return, loads_dumpsAs floats _ (keyed_toJsonDict state)]
  exact fromJsonDict_toJsonDict eqInt hstorable

end StateDocument

end SortView
