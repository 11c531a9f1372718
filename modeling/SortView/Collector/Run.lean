import SortView.Collector.State
import SortView.Collector.Uploader

/-!
# One run of the Collector (`collector/run.py`)

Read the new lines of every source, parse them, upload the records, and save the new positions of all
sources together once every batch has succeeded.
-/

namespace SortView

open PyText Reader State Uploader

structure SourceConfig where
  name : Text
  path : Text

/-- The part of the configuration a run reads. Two sources of one name are refused when it is loaded. -/
structure CollectorConfig where
  sources : List SourceConfig
  nodup : (sources.map SourceConfig.name).Nodup
  maxRecordsPerBatch : Nat

namespace Run

inductive RunError where
  | parserNotConfigured (names : List Text)
  | state (error : StateError)

inductive StatusWord where
  | failedCorruptState
  | failedUpload
  | completed
  | completedNoNewRows
  deriving DecidableEq

/-- The status document, without its time stamps. -/
structure RunStatus where
  status : StatusWord
  lastFailureCategory : Option FailureCategory
  checkinsRows : Nat
  rejectsRows : Nat
  acsRows : Nat
  uploadedCheckinsRows : Int
  uploadedRejectsRows : Int
  uploadedAcsRows : Int
  sourcesMissing : List Text
  sourcesRotated : List Text
  sourcesTruncated : List Text

/-- The audit line of one source. -/
structure SourceAudit where
  offsetBefore : Option Nat
  offsetAfter : Option Nat
  newRecords : Nat
  uploaded : Int

structure RunOutcome where
  exitCode : Nat
  status : RunStatus
  sourceAudit : List (Text × SourceAudit)
  uploadStatusCode : Option Nat

variable {ρ : Type}

/-- What the loop over the sources collects. -/
structure ReadState (ρ : Type) where
  newCursors : Dict Text SourceCursor
  records : Dict Text (List ρ)
  sourcesMissing : List Text
  sourcesRotated : List Text
  sourcesTruncated : List Text
  offsetBefore : Dict Text (Option Nat)

def ReadState.start : ReadState ρ := ⟨Dict.empty, Dict.empty, [], [], [], Dict.empty⟩

/-- The read of one source from the position in the state document. -/
def readOf (isWindows : Bool) (views : Text → FileView) (prior : CollectorState) (source : SourceConfig) : ReadResult :=
  readNewLines isWindows (views source.path) (cursorOf prior source.name)

def recordsOfLines (parseFn : ParseFn ρ) (lines : List Text) : List ρ :=
  if lines.isEmpty then [] else parseFn lines

/-- One round of the loop. The default parser is never used: a source without one has stopped the run. -/
def readSource (isWindows : Bool) (parseFns : Text → Option (ParseFn ρ)) (views : Text → FileView)
    (prior : CollectorState) (acc : ReadState ρ) (source : SourceConfig) : ReadState ρ :=
  let result := readOf isWindows views prior source
  let before := acc.offsetBefore.set source.name ((cursorOf prior source.name).map SourceCursor.offset)
  if result.existed = false then
    { acc with offsetBefore := before, sourcesMissing := acc.sourcesMissing ++ [source.name] }
  else
    { newCursors := acc.newCursors.set source.name result.cursor
      records := acc.records.set source.name
        (recordsOfLines ((parseFns source.name).getD fun _ => []) result.lines)
      sourcesMissing := acc.sourcesMissing
      sourcesRotated := if result.rotated then acc.sourcesRotated ++ [source.name] else acc.sourcesRotated
      sourcesTruncated := if result.truncated then acc.sourcesTruncated ++ [source.name] else acc.sourcesTruncated
      offsetBefore := before }

/-- `records.get(name, [])`. -/
def ReadState.recordsOf (read : ReadState ρ) (source : SourceName) : List ρ := (read.records.get? source.text).getD []

/-- Everything one run did: its outcome, the state file it left, and the requests it made. -/
structure RunResult (ρ : Type) where
  outcome : Except RunError RunOutcome
  stateFile : StateFile
  posted : List (Batch ρ × Reply)

def auditOf (read : ReadState ρ) (upload : UploadRunResult) : List (Text × SourceAudit) :=
  let counts (name : Text) : Nat × Int :=
    if name = SourceName.checkins.text then ((read.recordsOf .checkins).length, upload.checkinsInserted)
    else if name = SourceName.rejects.text then ((read.recordsOf .rejects).length, upload.rejectsInserted)
    else if name = SourceName.acs.text then ((read.recordsOf .acs).length, upload.acsInserted)
    else (0, 0)
  read.offsetBefore.entries.map fun entry =>
    (entry.1, ⟨entry.2, (read.newCursors.get? entry.1).map SourceCursor.offset, (counts entry.1).1, (counts entry.1).2⟩)

def statusOf (word : StatusWord) (category : Option FailureCategory) (read : ReadState ρ) (upload : UploadRunResult) :
    RunStatus where
  status := word
  lastFailureCategory := category
  checkinsRows := (read.recordsOf .checkins).length
  rejectsRows := (read.recordsOf .rejects).length
  acsRows := (read.recordsOf .acs).length
  uploadedCheckinsRows := upload.checkinsInserted
  uploadedRejectsRows := upload.rejectsInserted
  uploadedAcsRows := upload.acsInserted
  sourcesMissing := read.sourcesMissing
  sourcesRotated := read.sourcesRotated
  sourcesTruncated := read.sourcesTruncated

def corruptStatus : RunStatus := ⟨.failedCorruptState, none, 0, 0, 0, 0, 0, 0, [], [], []⟩

def runOnce (isWindows : Bool) (cfg : CollectorConfig) (parseFns : Text → Option (ParseFn ρ)) (stateFile : StateFile)
    (views : Text → FileView) (reply : Nat → Reply) : RunResult ρ :=
  let missingParsers := (cfg.sources.map SourceConfig.name).filter fun name => (parseFns name).isNone
  if missingParsers ≠ [] then ⟨.error (.parserNotConfigured missingParsers), stateFile, []⟩
  else match loadState stateFile with
    | .error _ => ⟨.ok ⟨1, corruptStatus, [], none⟩, stateFile, []⟩
    | .ok prior =>
        let read := cfg.sources.foldl (readSource isWindows parseFns views prior) .start
        let upload := uploadRecords reply (read.recordsOf .checkins) (read.recordsOf .rejects) (read.recordsOf .acs)
          cfg.maxRecordsPerBatch
        if upload.1.success = false then
          let category := upload.1.failure.bind UploadOutcome.category
          ⟨.ok ⟨1, statusOf .failedUpload category read upload.1, auditOf read upload.1, upload.1.lastStatusCode⟩,
            stateFile, upload.2⟩
        else match withCursors read.newCursors.entries prior with
          | .error error => ⟨.error (.state error), stateFile, upload.2⟩
          | .ok saved =>
              let anyUploaded := !((read.recordsOf .checkins).isEmpty && (read.recordsOf .rejects).isEmpty
                && (read.recordsOf .acs).isEmpty)
              ⟨.ok ⟨0, statusOf (if anyUploaded then .completed else .completedNoNewRows) none read upload.1,
                  auditOf read upload.1, upload.1.lastStatusCode⟩,
                .document saved, upload.2⟩

/-- The run ended with exit code 0. -/
def RunResult.succeeded (result : RunResult ρ) : Bool :=
  match result.outcome with
  | .ok outcome => outcome.exitCode == 0
  | .error _ => false

/-! ### The loop over the sources -/

variable (isWindows : Bool) (parseFns : Text → Option (ParseFn ρ)) (views : Text → FileView) (prior : CollectorState)

theorem readSource_of_ne (acc : ReadState ρ) {source : SourceConfig} {name : Text} (hne : name ≠ source.name) :
    (readSource isWindows parseFns views prior acc source).newCursors.get? name = acc.newCursors.get? name
      ∧ (readSource isWindows parseFns views prior acc source).records.get? name = acc.records.get? name := by
  rw [readSource]
  split
  · exact ⟨rfl, rfl⟩
  · exact ⟨Dict.get?_set_of_ne _ _ hne, Dict.get?_set_of_ne _ _ hne⟩

theorem readSources_of_not_mem {sources : List SourceConfig} {name : Text}
    (hnot : name ∉ sources.map SourceConfig.name) (acc : ReadState ρ) :
    (sources.foldl (readSource isWindows parseFns views prior) acc).newCursors.get? name = acc.newCursors.get? name
      ∧ (sources.foldl (readSource isWindows parseFns views prior) acc).records.get? name = acc.records.get? name := by
  induction sources generalizing acc with
  | nil => exact ⟨rfl, rfl⟩
  | cons source sources ih =>
      rw [List.map_cons, List.mem_cons, not_or] at hnot
      have hrest := ih hnot.2 (readSource isWindows parseFns views prior acc source)
      have hstep := readSource_of_ne isWindows parseFns views prior acc hnot.1
      exact ⟨hrest.1.trans hstep.1, hrest.2.trans hstep.2⟩

theorem readSource_self (acc : ReadState ρ) (source : SourceConfig) :
    let result := readOf isWindows views prior source
    (readSource isWindows parseFns views prior acc source).newCursors.get? source.name
        = (if result.existed = true then some result.cursor else acc.newCursors.get? source.name)
      ∧ (readSource isWindows parseFns views prior acc source).records.get? source.name
        = (if result.existed = true then some (recordsOfLines ((parseFns source.name).getD fun _ => []) result.lines)
            else acc.records.get? source.name) := by
  intro result
  rw [readSource]
  cases (readOf isWindows views prior source).existed with
  | false =>
      rw [if_pos rfl]
      simp only [result, Bool.false_eq_true, if_false, and_self]
  | true =>
      rw [if_neg (by decide)]
      simp only [result, if_true, Dict.get?_set_self, and_self]

/-- After the loop a source that could be read has its new cursor and its records. -/
theorem readSources_of_mem {sources : List SourceConfig} (hnodup : (sources.map SourceConfig.name).Nodup)
    {source : SourceConfig} (hmem : source ∈ sources) (acc : ReadState ρ) :
    let read := sources.foldl (readSource isWindows parseFns views prior) acc
    let result := readOf isWindows views prior source
    read.newCursors.get? source.name
        = (if result.existed = true then some result.cursor else acc.newCursors.get? source.name)
      ∧ read.records.get? source.name
        = (if result.existed = true then some (recordsOfLines ((parseFns source.name).getD fun _ => []) result.lines)
            else acc.records.get? source.name) := by
  induction sources generalizing acc with
  | nil => simp at hmem
  | cons first sources ih =>
      rw [List.map_cons, List.nodup_cons] at hnodup
      rcases List.mem_cons.1 hmem with rfl | hmem
      · have hrest := readSources_of_not_mem isWindows parseFns views prior hnodup.1 (readSource isWindows parseFns views prior acc source)
        have hstep := readSource_self isWindows parseFns views prior acc source
        exact ⟨hrest.1.trans hstep.1, hrest.2.trans hstep.2⟩
      · have hne : source.name ≠ first.name := by
          intro heq
          exact hnodup.1 (List.mem_map.2 ⟨source, hmem, heq⟩)
        have hstep := readSource_of_ne isWindows parseFns views prior acc hne
        have hrest := ih hnodup.2 hmem (readSource isWindows parseFns views prior acc first)
        rw [hstep.1, hstep.2] at hrest
        exact hrest

/-! ### What one run can do -/

/-- The read of a run. -/
abbrev readAll (isWindows : Bool) (cfg : CollectorConfig) (parseFns : Text → Option (ParseFn ρ))
    (views : Text → FileView) (prior : CollectorState) : ReadState ρ :=
  cfg.sources.foldl (readSource isWindows parseFns views prior) .start

/-- The upload of a run. -/
abbrev uploadAll (cfg : CollectorConfig) (read : ReadState ρ) (reply : Nat → Reply) :
    UploadRunResult × List (Batch ρ × Reply) :=
  uploadRecords reply (read.recordsOf .checkins) (read.recordsOf .rejects) (read.recordsOf .acs) cfg.maxRecordsPerBatch

variable {isWindows parseFns views} {cfg : CollectorConfig} {stateFile : StateFile} {reply : Nat → Reply}

/-- A run that fails leaves the state file as it was, and has sent nothing or batches of its records. -/
theorem runOnce_failed (hfailed : (runOnce isWindows cfg parseFns stateFile views reply).succeeded = false) :
    (runOnce isWindows cfg parseFns stateFile views reply).stateFile = stateFile
      ∧ ((runOnce isWindows cfg parseFns stateFile views reply).posted = []
        ∨ ∃ prior, loadState stateFile = .ok prior ∧ (∀ source ∈ cfg.sources, parseFns source.name ≠ none)
          ∧ (runOnce isWindows cfg parseFns stateFile views reply).posted
            = (uploadAll cfg (readAll isWindows cfg parseFns views prior) reply).2) := by
  rw [runOnce] at hfailed ⊢
  split
  · exact ⟨rfl, Or.inl rfl⟩
  · next hparsers =>
    rw [if_neg hparsers] at hfailed
    have hconfigured : ∀ source ∈ cfg.sources, parseFns source.name ≠ none := by
      intro source hmem hnone
      apply hparsers
      apply List.ne_nil_of_mem
      rw [List.mem_filter]
      exact ⟨List.mem_map.2 ⟨source, hmem, rfl⟩, by rw [hnone]; rfl⟩
    cases hload : loadState stateFile with
    | error error => exact ⟨rfl, Or.inl rfl⟩
    | ok prior =>
        simp only [hload] at hfailed ⊢
        split
        · exact ⟨rfl, Or.inr ⟨prior, rfl, hconfigured, rfl⟩⟩
        · next hupload =>
          rw [if_neg hupload] at hfailed
          split
          · exact ⟨rfl, Or.inr ⟨prior, rfl, hconfigured, rfl⟩⟩
          · next saved hsaved =>
            rw [hsaved] at hfailed
            exact absurd hfailed (by simp [RunResult.succeeded])

/-- A run that succeeds had a parser for every source, uploaded every batch, and saved every new cursor. -/
theorem runOnce_succeeded (hsucceeded : (runOnce isWindows cfg parseFns stateFile views reply).succeeded = true) :
    ∃ prior saved, loadState stateFile = .ok prior
      ∧ (∀ source ∈ cfg.sources, parseFns source.name ≠ none)
      ∧ (uploadAll cfg (readAll isWindows cfg parseFns views prior) reply).1.success = true
      ∧ withCursors (readAll isWindows cfg parseFns views prior).newCursors.entries prior = .ok saved
      ∧ (runOnce isWindows cfg parseFns stateFile views reply).stateFile = .document saved
      ∧ (runOnce isWindows cfg parseFns stateFile views reply).posted
        = (uploadAll cfg (readAll isWindows cfg parseFns views prior) reply).2 := by
  rw [runOnce] at hsucceeded ⊢
  split
  · next hparsers =>
    rw [if_pos hparsers] at hsucceeded
    exact absurd hsucceeded (by simp [RunResult.succeeded])
  · next hparsers =>
    rw [if_neg hparsers] at hsucceeded
    have hconfigured : ∀ source ∈ cfg.sources, parseFns source.name ≠ none := by
      intro source hmem hnone
      apply hparsers
      apply List.ne_nil_of_mem
      rw [List.mem_filter]
      exact ⟨List.mem_map.2 ⟨source, hmem, rfl⟩, by rw [hnone]; rfl⟩
    cases hload : loadState stateFile with
    | error error =>
        simp only [hload] at hsucceeded
        exact absurd hsucceeded (by simp [RunResult.succeeded])
    | ok prior =>
        simp only [hload] at hsucceeded ⊢
        split
        · next hupload =>
          rw [if_pos hupload] at hsucceeded
          exact absurd hsucceeded (by simp [RunResult.succeeded])
        · next hupload =>
          rw [if_neg hupload] at hsucceeded
          split
          · next error herror =>
            rw [herror] at hsucceeded
            exact absurd hsucceeded (by simp [RunResult.succeeded])
          · next saved hsaved =>
            exact ⟨prior, saved, rfl, hconfigured, by simpa using hupload, hsaved, rfl, rfl⟩

end Run

end SortView
