import SortView.Agent.BatchFile
import SortView.Agent.StateDocument
import SortView.Lib.AtomicFile

/-!
# The state file over runs of the agent (`agent/state.py`, `agent/runtime/collector.py`)

The sources share one state file: each loads it, sets its own position and saves it again. In every run of them, with saves that
are interrupted at any operation and power cuts at any time, the file loads, and each source goes on from the last position that
it saved or from one that it began to save after that.
-/

namespace SortView

open PyText JsonText AtomicFile

namespace StateDocument

variable {φ : Type}

/-! ### Loading and saving -/

/-- `os.name`. -/
inductive Platform where
  | posix
  | nt

/-- The containing directory is brought to the disk at the end of a save. -/
def Platform.syncs : Platform → Bool
  | .posix => true
  | .nt => false

/-- The file system's own journal has a rename on the disk. -/
def Platform.journaled : Platform → Bool
  | .posix => false
  | .nt => true

/-- `os.linesep`. -/
def Platform.linesep : Platform → Text
  | .posix => ['\n']
  | .nt => ['\r', '\n']

theorem Platform.durable (platform : Platform) : platform.syncs = true ∨ platform.journaled = true := by
  cases platform with
  | posix => exact Or.inl rfl
  | nt => exact Or.inr rfl

theorem Platform.linesep_cases (platform : Platform) : platform.linesep = ['\n'] ∨ platform.linesep = ['\r', '\n'] := by
  cases platform with
  | posix => exact Or.inl rfl
  | nt => exact Or.inr rfl

def fileOf : Option Text → StateFile
  | none => .missing
  | some text => .text text

/-- The state file as the processes see it. -/
def stateFile (disk : Disk Text Char) (path : Text) : StateFile := fileOf ((disk.live path).map Held.content)

variable (eqInt : φ → Int → Bool) (floats : FloatText φ) (platform : Platform) (path : Text)

/-- What is written into the file of a save. -/
def written (state : AgentState) : Text := writtenNewlines platform.linesep (payload floats state)

/-- `save_state`, with the name that `mkstemp` chose. -/
def saveState (temp : Text) (state : AgentState) (disk : Disk Text Char) : Disk Text Char :=
  applyAll platform.journaled (replaceOps platform.syncs temp path (written floats platform state)) disk

/-! ### Runs -/

/-- A run of the sources from a disk, and the positions that each source may be loaded with. -/
inductive StateRun (start : Disk Text Char) : Disk Text Char → (Text → List (Option SourceState)) → Prop
  | start {first : AgentState} : loadState eqInt floats (stateFile start path) = .ok first →
      StateRun start start fun name => [getSource first name]
  /-- `_persist_state` of a source. -/
  | persisted {disk : Disk Text Char} {possible : Text → List (Option SourceState)} {state : AgentState} (name temp : Text)
      (source : SourceState) : StateRun start disk possible → loadState eqInt floats (stateFile disk path) = .ok state →
      disk.live temp = none → temp ≠ path → source.path ≠ [] →
      StateRun start (saveState floats platform path temp (withSource state name source) disk)
        (Function.update possible name [some source])
  /-- The save of a source ends early; its file may be removed then. -/
  | interrupted {disk : Disk Text Char} {possible : Text → List (Option SourceState)} {state : AgentState} (name temp : Text)
      (source : SourceState) {ops : List (Op Text Char)} (removed : Bool) : StateRun start disk possible →
      loadState eqInt floats (stateFile disk path) = .ok state → disk.live temp = none → temp ≠ path → source.path ≠ [] →
      Interrupted platform.syncs temp path (written floats platform (withSource state name source)) ops →
      StateRun start (applyAll platform.journaled (ops ++ if removed then [.remove temp] else []) disk)
        (Function.update possible name (some source :: possible name))
  | outside {disk after : Disk Text Char} {possible : Text → List (Option SourceState)} : StateRun start disk possible →
      Outside platform.journaled path disk after → StateRun start after possible

/-- The content loads, as a state in which each source has one of its positions. -/
def Resumes (possible : Text → List (Option SourceState)) (content : Option Text) : Prop :=
  ∃ state, loadState eqInt floats (fileOf content) = .ok state ∧ ∀ name, getSource state name ∈ possible name

/-- The file is on the disk, or there is none. -/
structure Settled (disk : Disk Text Char) : Prop where
  kept : disk.kept path = disk.live path
  synced : ∀ held ∈ disk.live path, held.synced = true

variable {eqInt floats platform path} {start disk : Disk Text Char} {possible : Text → List (Option SourceState)} {state : AgentState}

theorem getSource_withSource (state : AgentState) (name other : Text) (source : SourceState) :
    getSource (withSource state name source) other = if other = name then some source else getSource state other :=
  Dict.get?_set ..

/-- The state of a save has the new position of the source, and those that were loaded of the others. -/
theorem mem_update (hothers : ∀ name, getSource state name ∈ possible name) (name : Text) (source : SourceState)
    {positions : List (Option SourceState)} (hsource : some source ∈ positions) (other : Text) :
    getSource (withSource state name source) other ∈ Function.update possible name positions other := by
  rw [getSource_withSource]
  by_cases hother : other = name
  · rw [if_pos hother, hother, Function.update_self]
    exact hsource
  · rw [if_neg hother, Function.update_of_ne hother]
    exact hothers other

/-- What a save writes is resumed from. -/
theorem resumes_written (hstorable : Storable state) (hpositions : ∀ name, getSource state name ∈ possible name) :
    Resumes eqInt floats possible (some (written floats platform state)) :=
  ⟨state, loadState_payload eqInt floats platform.linesep_cases hstorable, hpositions⟩

theorem Resumes.begin {content : Option Text} (h : Resumes eqInt floats possible content) (name : Text) (source : SourceState) :
    Resumes eqInt floats (Function.update possible name (some source :: possible name)) content := by
  obtain ⟨state, hload, hpositions⟩ := h
  refine ⟨state, hload, fun other => ?_⟩
  by_cases hother : other = name
  · rw [hother, Function.update_self]
    exact .tail _ (hpositions name)
  · rw [Function.update_of_ne hother]
    exact hpositions other

/-- What is loaded of the file has the positions that the file may have. -/
theorem positions_of_load (h : Holds (Resumes eqInt floats possible) path disk)
    (hload : loadState eqInt floats (stateFile disk path) = .ok state) (name : Text) : getSource state name ∈ possible name := by
  obtain ⟨found, hfound, hpositions⟩ := h.live.read
  obtain rfl : found = state := Except.ok.inj (hfound.symm.trans hload)
  exact hpositions name

/-- A settled file is as it is found, whatever becomes of the disk. -/
theorem Settled.holds {P : Option Text → Prop} (hsettled : Settled path start) (hcontent : P ((start.live path).map Held.content)) :
    Holds P path start := by
  have hlive : Sound P (start.live path) := by
    have hsynced := hsettled.synced
    cases hheld : start.live path with
    | none =>
        rw [hheld] at hcontent
        exact hcontent
    | some held =>
        rw [hheld] at hcontent hsynced
        exact ⟨hsynced held rfl, hcontent⟩
  exact ⟨hlive, hsettled.kept ▸ hlive⟩

theorem holds_of_run (hsettled : Settled path start) (hrun : StateRun eqInt floats platform path start disk possible) :
    Holds (Resumes eqInt floats possible) path disk := by
  induction hrun with
  | start hload => exact hsettled.holds ⟨_, hload, fun _ => List.mem_singleton_self _⟩
  | @persisted _ possible _ name temp source _ hload _ _ hpath ih =>
      have hpositions := mem_update (positions_of_load ih hload) name source (List.mem_singleton_self (some source))
      exact Holds.replaced platform.durable (resumes_written ((storable_of_loadState eqInt floats hload).withSource name hpath) hpositions)
        temp _
  | @interrupted _ possible _ name temp source _ removed _ hload _ hne hpath hops ih =>
      have hpositions := mem_update (positions_of_load ih hload) name source
        (List.mem_cons_self (a := some source) (l := possible name))
      exact (ih.imp fun _ hheld => hheld.begin name source).interrupted
        (resumes_written ((storable_of_loadState eqInt floats hload).withSource name hpath) hpositions) hne hops removed
  | outside _ hstep ih => exact ih.outside hstep

/-- In every run the state file loads, and each source has the last position that it saved, or one that it began to save later. -/
theorem every_source_resumes (hsettled : Settled path start) (hrun : StateRun eqInt floats platform path start disk possible) :
    ∃ state, loadState eqInt floats (stateFile disk path) = .ok state ∧ ∀ name, getSource state name ∈ possible name :=
  (holds_of_run hsettled hrun).live.read

/-- A power cut that leaves the entries as they were on the disk. -/
def kept (disk : Disk Text Char) : Disk Text Char :=
  ⟨fun name => (disk.kept name).map fun held => ⟨held.content, true⟩, fun name => (disk.kept name).map fun held => ⟨held.content, true⟩⟩

theorem powerCut_kept (disk : Disk Text Char) : PowerCut disk (kept disk) where
  entries name := by
    refine ⟨disk.kept name, Or.inr rfl, ?_⟩
    dsimp only [kept]
    cases disk.kept name with
    | none => exact .none
    | some held => exact .some ⟨rfl, fun _ => rfl⟩
  kept := rfl

theorem sampleOffset_le : 120 ≤ Agent.maxPlausibleOffset := by decide

def sampleSource (path : Text) : SourceState := ⟨path, some [1, 2], 120, 0, none, sampleOffset_le⟩

def emptyDisk : Disk Text Char := ⟨fun _ => none, fun _ => none⟩

/-- One source has saved its position and the save of another is cut off after its rename, by a power cut that takes the rename back. -/
theorem every_source_resumes_sample :
    ∃ disk possible, StateRun (fun _ _ => false) BatchFile.halves .posix "state".toList emptyDisk disk possible
      ∧ possible "rejects".toList = [some (sampleSource "r".toList), none]
      ∧ ∃ state, loadState (fun _ _ => false) BatchFile.halves (stateFile disk "state".toList) = .ok state
        ∧ getSource state "checkins".toList = some (sampleSource "c".toList) := by
  have hsettled : Settled "state".toList emptyDisk := ⟨rfl, fun _ hheld => nomatch hheld⟩
  have hstart : StateRun (fun _ _ => false) BatchFile.halves .posix "state".toList emptyDisk emptyDisk _ := .start rfl
  have hsaved := StateRun.persisted "checkins".toList "a".toList (sampleSource "c".toList) hstart rfl rfl (by decide) (by decide)
  obtain ⟨loaded, hload, -⟩ := every_source_resumes hsettled hsaved
  have hops (content : Text) : Interrupted true "b".toList "state".toList content
      (writeOps "b".toList content ++ [.replace "b".toList "state".toList]) :=
    Or.inl ⟨⟨[.syncDirectory], rfl⟩, fun h => absurd (congrArg List.length h) (Nat.ne_of_lt (Nat.lt_succ_self 4))⟩
  have hstopped := StateRun.interrupted "rejects".toList "b".toList (sampleSource "r".toList) false hsaved hload rfl (by decide)
    (by decide) (hops _)
  have hrun := hstopped.outside (.powerCut (powerCut_kept _))
  obtain ⟨state, hstate, hpositions⟩ := every_source_resumes hsettled hrun
  exact ⟨_, _, hrun, rfl, state, hstate, List.mem_singleton.1 (hpositions "checkins".toList)⟩

end StateDocument

end SortView
