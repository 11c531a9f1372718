import SortView.Agent.StateRuns
import SortView.Collector.State

/-!
# The state file of the Collector (`collector/state.py`)

`save_state` writes the state document to a new file, brings that to the disk and renames it, and never brings the directory to the
disk. In every run of saves, interrupted at any operation, with power cuts at any time, what `load_state` finds is a state that was
saved whole: on Windows, where a rename is journaled, the last one or one whose save began after it.
-/

namespace SortView

open PyText JsonText AtomicFile

namespace StateStore

open State
open StateDocument (field isVersion Platform Settled foldl_set_sources)

variable {φ : Type}

/-- `STATE_SCHEMA_VERSION`. -/
def stateSchemaVersion : Int := 1

/-! ### The document -/

def serializeIdentity : Option Token → JsonValue φ
  | none => .null
  | some (device, inode) => .array [.int device, .int inode]

def serializeEntry (source : State.SourceState) : JsonValue φ :=
  .object [("identity".toList, serializeIdentity source.identity), ("offset".toList, .int source.offset)]

/-- `_serialize_state`. -/
def serializeState (state : CollectorState) : JsonValue φ :=
  .object [("schema_version".toList, .int stateSchemaVersion),
    ("sources".toList, .object (state.sources.entries.map fun entry => (entry.1, serializeEntry entry.2)))]

def deserializeIdentity : JsonValue φ → Option (Option Token)
  | .null => some none
  | .array [.int device, .int inode] => some (some (device, inode))
  | _ => none

/-- One entry, with the check of `SourceState.__post_init__`; every failure is a `CorruptStateError`. -/
def deserializeEntry : JsonValue φ → Option State.SourceState
  | .object raw =>
      match field raw "offset".toList, deserializeIdentity (field raw "identity".toList) with
      | .int offset, some identity =>
          if h : 0 ≤ offset ∧ offset.toNat ≤ maxPlausibleOffset then some ⟨identity, offset.toNat, h.2⟩ else none
      | _, _ => none
  | _ => none

def deserializeSources : List (Text × JsonValue φ) → Dict Text State.SourceState → Option (Dict Text State.SourceState)
  | [], sources => some sources
  | (name, raw) :: entries, sources => (deserializeEntry raw).bind fun source => deserializeSources entries (sources.set name source)

variable (eqInt : φ → Int → Bool) (floats : FloatText φ)

/-- `_deserialize_state`. -/
def deserializeState : JsonValue φ → Option CollectorState
  | .object raw =>
      if isVersion eqInt stateSchemaVersion (field raw "schema_version".toList) then
        match field raw "sources".toList with
        | .object entries => (deserializeSources entries Dict.empty).map CollectorState.mk
        | _ => none
      else none
  | _ => none

/-- What `load_state` finds at the path. -/
def stateFileOf : Option Text → StateFile
  | none => .missing
  | some text =>
      match (loads floats (universalNewlines text)).bind (deserializeState eqInt) with
      | some state => .document state
      | none => .corrupt

/-- `json.dump(data, f, indent=2)`. -/
def payload (state : CollectorState) : Text := dumpsAs floats (.indented 2) 0 (serializeState state)

/-! ### A document is read back -/

theorem deserializeIdentity_serializeIdentity (identity : Option Token) :
    deserializeIdentity (serializeIdentity identity : JsonValue φ) = some identity := by
  cases identity <;> rfl

theorem deserializeEntry_serializeEntry (source : State.SourceState) :
    deserializeEntry (serializeEntry source : JsonValue φ) = some source := by
  have hoffset : field [("identity".toList, (serializeIdentity source.identity : JsonValue φ)), ("offset".toList, .int source.offset)]
      "offset".toList = .int source.offset := rfl
  have hidentity : field [("identity".toList, (serializeIdentity source.identity : JsonValue φ)), ("offset".toList, .int source.offset)]
      "identity".toList = serializeIdentity source.identity := rfl
  rw [serializeEntry, deserializeEntry, hoffset, hidentity, deserializeIdentity_serializeIdentity]
  exact dif_pos ⟨Int.natCast_nonneg _, source.offset_le⟩

theorem deserializeSources_serialize {entries : List (Text × State.SourceState)} : ∀ sources : Dict Text State.SourceState,
    deserializeSources (entries.map fun entry => (entry.1, (serializeEntry entry.2 : JsonValue φ))) sources
      = some (entries.foldl (fun sources entry => sources.set entry.1 entry.2) sources) := by
  induction entries with
  | nil => exact fun _ => rfl
  | cons entry entries ih =>
      intro sources
      rw [List.map_cons, deserializeSources, deserializeEntry_serializeEntry]
      exact ih _

theorem deserializeState_serializeState (state : CollectorState) :
    deserializeState eqInt (serializeState state : JsonValue φ) = some state := by
  have hread : deserializeState eqInt (serializeState state : JsonValue φ)
      = (deserializeSources (state.sources.entries.map fun entry => (entry.1, (serializeEntry entry.2 : JsonValue φ)))
          Dict.empty).map CollectorState.mk := rfl
  rw [hread, deserializeSources_serialize, foldl_set_sources]
  rfl

theorem keyed_serializeEntry (source : State.SourceState) : Keyed (serializeEntry source : JsonValue φ) := by
  have hnames : ["identity".toList, "offset".toList].Nodup := by decide
  refine ⟨hnames, ?_, trivial, trivial⟩
  cases source.identity with
  | none => trivial
  | some token => exact ⟨trivial, trivial, trivial⟩

theorem keyedMembers_sources (entries : List (Text × State.SourceState)) :
    KeyedMembers (entries.map fun entry => (entry.1, (serializeEntry entry.2 : JsonValue φ))) := by
  induction entries with
  | nil => trivial
  | cons entry entries ih => exact ⟨keyed_serializeEntry entry.2, ih⟩

theorem keyed_serializeState (state : CollectorState) : Keyed (serializeState state : JsonValue φ) := by
  have hkeys : ((state.sources.entries.map fun entry => (entry.1, (serializeEntry entry.2 : JsonValue φ))).map Prod.fst).Nodup := by
    rw [List.map_map]
    exact state.sources.nodup
  have hnames : ["schema_version".toList, "sources".toList].Nodup := by decide
  exact ⟨hnames, trivial, ⟨hkeys, keyedMembers_sources _⟩, trivial⟩

theorem stateFileOf_payload {linesep : Text} (hlinesep : linesep = ['\n'] ∨ linesep = ['\r', '\n']) (state : CollectorState) :
    stateFileOf eqInt floats (some (writtenNewlines linesep (payload floats state))) = .document state := by
  have hplain := plain_dumpsAs floats (.indented 2) (serializeState state) 0
  rw [stateFileOf, payload, universalNewlines_writtenNewlines hlinesep hplain.no_return,
    loads_dumpsAs floats _ (keyed_serializeState state), Option.bind_some, deserializeState_serializeState]

/-! ### Runs -/

variable (platform : Platform) (path : Text)

/-- What is written into the file of a save. -/
def written (state : CollectorState) : Text := writtenNewlines platform.linesep (payload floats state)

/-- `save_state`, with the name that `mkstemp` chose: `atomic_write_json` leaves the directory as it is. -/
def saveState (temp : Text) (state : CollectorState) (disk : Disk Text Char) : Disk Text Char :=
  applyAll platform.journaled (replaceOps false temp path (written floats platform state)) disk

/-- The state file as the processes see it. -/
def stateFile (disk : Disk Text Char) : StateFile := stateFileOf eqInt floats ((disk.live path).map Held.content)

/-- A run of saves from a disk, and what may be found at the path. -/
inductive StoreRun (start : Disk Text Char) : Disk Text Char → List StateFile → Prop
  | start : StoreRun start start [stateFile eqInt floats path start]
  /-- A save that returned; where renames are not journaled, the directory may still have an older file. -/
  | saved {disk : Disk Text Char} {possible : List StateFile} (temp : Text) (state : CollectorState) :
      StoreRun start disk possible → temp ≠ path →
      StoreRun start (saveState floats platform path temp state disk)
        (.document state :: if platform.journaled then [] else possible)
  /-- A save that ends early; its file may be removed then. -/
  | interrupted {disk : Disk Text Char} {possible : List StateFile} (temp : Text) (state : CollectorState)
      {ops : List (Op Text Char)} (removed : Bool) : StoreRun start disk possible → temp ≠ path →
      Interrupted false temp path (written floats platform state) ops →
      StoreRun start (applyAll platform.journaled (ops ++ if removed then [.remove temp] else []) disk)
        (.document state :: possible)
  | outside {disk after : Disk Text Char} {possible : List StateFile} : StoreRun start disk possible →
      Outside platform.journaled path disk after → StoreRun start after possible

/-- The content is one of the files. -/
def Among (possible : List StateFile) (content : Option Text) : Prop := stateFileOf eqInt floats content ∈ possible

variable {eqInt floats platform path} {start disk : Disk Text Char} {possible : List StateFile}

theorem among_written (state : CollectorState) (possible : List StateFile) :
    Among eqInt floats (.document state :: possible) (some (written floats platform state)) := by
  rw [Among, written, stateFileOf_payload eqInt floats platform.linesep_cases]
  exact List.mem_cons_self

/-- A replacement that leaves the directory alone is one that ends before the directory is brought to the disk. -/
theorem interrupted_replaceOps (temp path content : Text) :
    Interrupted true temp path content (replaceOps false temp path content) := by
  refine Or.inl ⟨?_, ?_⟩
  · exact (List.prefix_append_right_inj _).mpr ((List.prefix_cons_inj _).mpr List.nil_prefix)
  · simp [replaceOps]

theorem holds_of_run (hsettled : Settled path start) (hrun : StoreRun eqInt floats platform path start disk possible) :
    Holds (Among eqInt floats possible) path disk := by
  induction hrun with
  | start => exact hsettled.holds (List.mem_singleton_self _)
  | @saved disk possible temp state _ hne ih =>
      have hwritten (possible : List StateFile) : Among eqInt floats (.document state :: possible) (some (written floats platform state)) :=
        among_written state possible
      cases hjournaled : platform.journaled with
      | true =>
          rw [saveState, hjournaled]
          exact Holds.replaced (Or.inr rfl) (hwritten _) temp _
      | false =>
          -- the rename is not on the disk: the save is one that ended before that
          have holder : Holds (Among eqInt floats (.document state :: possible)) path disk :=
            ih.imp fun _ hfound => List.mem_cons_of_mem (.document state) hfound
          have hdone : Holds _ path (applyAll false (_ ++ if false then [.remove temp] else []) disk) :=
            holder.interrupted (hwritten possible) hne (interrupted_replaceOps ..) false
          rw [if_neg Bool.false_ne_true, List.append_nil] at hdone
          rw [saveState, hjournaled, if_neg Bool.false_ne_true]
          exact hdone
  | @interrupted disk possible temp state ops removed _ hne hops ih =>
      have holder : Holds (Among eqInt floats (.document state :: possible)) path disk :=
        ih.imp fun _ hfound => List.mem_cons_of_mem (.document state) hfound
      exact holder.interrupted (among_written state possible) hne hops removed
  | outside _ hstep ih => exact ih.outside hstep

theorem possible_cases (hrun : StoreRun eqInt floats platform path start disk possible) :
    ∀ file ∈ possible, file = stateFile eqInt floats path start ∨ ∃ state, file = .document state := by
  induction hrun with
  | start => exact fun file hfile => Or.inl (List.mem_singleton.1 hfile)
  | saved temp state _ _ ih =>
      intro file hfile
      rcases List.mem_cons.1 hfile with rfl | hfile
      · exact Or.inr ⟨state, rfl⟩
      · split at hfile
        · exact nomatch hfile
        · exact ih file hfile
  | interrupted temp state _ _ _ _ ih =>
      intro file hfile
      rcases List.mem_cons.1 hfile with rfl | hfile
      · exact Or.inr ⟨state, rfl⟩
      · exact ih file hfile
  | outside _ _ ih => exact ih

/-- In every run what `load_state` finds is one of the files that the saves allow, and it loads unless the file was corrupt at first. -/
theorem saved_states_are_found (hsettled : Settled path start) (hrun : StoreRun eqInt floats platform path start disk possible) :
    stateFile eqInt floats path disk ∈ possible
      ∧ (stateFile eqInt floats path start ≠ .corrupt → ∃ state, loadState (stateFile eqInt floats path disk) = .ok state) := by
  have hfound : stateFile eqInt floats path disk ∈ possible := (holds_of_run hsettled hrun).live.read
  refine ⟨hfound, fun hcorrupt => ?_⟩
  rcases possible_cases hrun _ hfound with hfile | ⟨state, hfile⟩
  · rw [hfile]
    cases hstart : stateFile eqInt floats path start with
    | missing => exact ⟨emptyState, rfl⟩
    | corrupt => exact absurd hstart hcorrupt
    | document state => exact ⟨state, rfl⟩
  · exact ⟨state, by rw [hfile, loadState]⟩

def sampleState : CollectorState := withSource emptyState "checkins".toList ⟨some (1, 2), 120, by decide⟩

/-- A first save on a system that does not journal renames, and a power cut that takes the rename back. -/
theorem saved_states_are_found_sample :
    ∃ disk possible, StoreRun (fun _ _ => false) BatchFile.halves .posix "state".toList StateDocument.emptyDisk disk possible
      ∧ possible = [.document sampleState, .missing]
      ∧ ∃ state, loadState (stateFile (fun _ _ => false) BatchFile.halves "state".toList disk) = .ok state := by
  have hsettled : Settled "state".toList StateDocument.emptyDisk := ⟨rfl, fun _ hheld => nomatch hheld⟩
  have hstart : StoreRun (fun _ _ => false) BatchFile.halves .posix "state".toList StateDocument.emptyDisk StateDocument.emptyDisk _ :=
    .start
  have hsaved := StoreRun.saved "a".toList sampleState hstart (by decide)
  have hrun := hsaved.outside (.powerCut (StateDocument.powerCut_kept _))
  exact ⟨_, _, hrun, rfl, (saved_states_are_found hsettled hrun).2 nofun⟩

end StateStore

end SortView
