import SortView.Collector.Run

/-!
# Runs of the Collector over growing files

The saved document, the files and the server over any sequence of runs. Every request of a run may fail
at any position, possibly after the server has stored its batch.
-/

namespace SortView

open PyText ByteLines Reader State Uploader

namespace Run

/-! ### The server -/

section Server

variable {ρ : Type} [DecidableEq ρ]

/-- One row per distinct record. -/
def storeRecords (rows records : List ρ) : List ρ :=
  records.foldl (fun rows record => if record ∈ rows then rows else rows ++ [record]) rows

def storeBatch (rows batch : Batch ρ) : Batch ρ where
  checkins := storeRecords rows.checkins batch.checkins
  rejects := storeRecords rows.rejects batch.rejects
  acs := storeRecords rows.acs batch.acs

/-- The batches of a run that the server stored. -/
def storedBatches (posted : List (Batch ρ × Reply)) : List (Batch ρ) :=
  (posted.filter fun sent => sent.2.stored).map Prod.fst

theorem mem_storeRecords (rows records : List ρ) (record : ρ) :
    record ∈ storeRecords rows records ↔ record ∈ rows ∨ record ∈ records := by
  induction records generalizing rows with
  | nil => simp [storeRecords]
  | cons first records ih =>
      rw [storeRecords, List.foldl_cons]
      refine (ih _).trans ?_
      split
      · next hmem =>
        constructor
        · rintro (h | h)
          · exact Or.inl h
          · exact Or.inr (List.mem_cons_of_mem _ h)
        · rintro (h | h)
          · exact Or.inl h
          · rcases List.mem_cons.1 h with rfl | h
            · exact Or.inl hmem
            · exact Or.inr h
      · simp [or_assoc]

theorem nodup_storeRecords {rows : List ρ} (hrows : rows.Nodup) (records : List ρ) :
    (storeRecords rows records).Nodup := by
  induction records generalizing rows with
  | nil => exact hrows
  | cons first records ih =>
      rw [storeRecords, List.foldl_cons]
      apply ih
      split
      · exact hrows
      · next hnot => exact List.Nodup.append hrows (List.nodup_singleton _) (by simpa using hnot)

theorem storeBatch_of (rows batch : Batch ρ) (source : SourceName) :
    (storeBatch rows batch).of source = storeRecords (rows.of source) (batch.of source) := by
  cases source <;> rfl

theorem mem_storeBatches (rows : Batch ρ) (batches : List (Batch ρ)) (source : SourceName) (record : ρ) :
    record ∈ (batches.foldl storeBatch rows).of source
      ↔ record ∈ rows.of source ∨ ∃ batch ∈ batches, record ∈ batch.of source := by
  induction batches generalizing rows with
  | nil => simp
  | cons batch batches ih =>
      rw [List.foldl_cons, ih, storeBatch_of, mem_storeRecords, List.exists_mem_cons_iff, or_assoc]

theorem nodup_storeBatches {rows : Batch ρ} (source : SourceName) (hrows : (rows.of source).Nodup)
    (batches : List (Batch ρ)) : ((batches.foldl storeBatch rows).of source).Nodup := by
  induction batches generalizing rows with
  | nil => exact hrows
  | cons batch batches ih =>
      apply ih
      rw [storeBatch_of]
      exact nodup_storeRecords hrows _

end Server

/-! ### Worlds and runs -/

/-- The parameters of one installation: its configuration, and what it takes from outside. -/
structure Setup where
  isWindows : Bool
  cfg : CollectorConfig
  toDatetime : Text → Option Naive
  strTimestamp : Naive → Text
  customerId : Int
  branchId : Int
  /-- The identity that the file at a path keeps. -/
  token : Text → Token

/-- The state between two runs. `failed` and `unsent` are for the statements only: the batches of failed
runs that the server stored, and the records of each source that failed runs have sent since the last
successful run that read the source. -/
structure World where
  stateFile : StateFile
  contents : Text → Bytes
  rows : Batch Record
  failed : List (Batch Record)
  unsent : SourceName → List Record

/-- What one run meets: the files, and the replies to its requests. -/
structure Input where
  views : Text → FileView
  reply : Nat → Reply

variable (setup : Setup)

def Setup.parseFns : Text → Option (ParseFn Record) :=
  Parsers.buildProductionParseFns setup.toDatetime setup.strTimestamp setup.customerId setup.branchId

def Setup.parserOf : SourceName → ParseFn Record :=
  Parsers.parserOf setup.toDatetime setup.strTimestamp setup.customerId setup.branchId

def Setup.result (world : World) (input : Input) : RunResult Record :=
  runOnce setup.isWindows setup.cfg setup.parseFns world.stateFile input.views input.reply

def savedState (stateFile : StateFile) : CollectorState :=
  match loadState stateFile with
  | .ok state => state
  | .error _ => emptyState

/-- The saved offset of a source. -/
def savedOffset (stateFile : StateFile) (source : SourceConfig) : Nat :=
  startOffset (cursorOf (savedState stateFile) source.name)

/-- The source could be read in this run. -/
def Setup.wasRead (world : World) (input : Input) (source : SourceConfig) : Bool :=
  (readOf setup.isWindows input.views (savedState world.stateFile) source).existed

def World.start : World := ⟨.missing, fun _ => [], ⟨[], [], []⟩, [], fun _ => []⟩

def World.contentsAfter (world : World) (input : Input) (path : Text) : Bytes :=
  ((input.views path).content).getD (world.contents path)

/-- The records of one source that a run sent. -/
def sentRecords (result : RunResult Record) (source : SourceName) : List Record :=
  result.posted.flatMap fun sent => sent.1.of source

/-- A successful run that read the source leaves nothing of it to be sent again. -/
def Setup.unsentAfter (world : World) (input : Input) (source : SourceName) : List Record :=
  if (setup.result world input).succeeded = true then
    if ∃ config ∈ setup.cfg.sources, config.name = source.text ∧ setup.wasRead world input config = true then []
    else world.unsent source
  else world.unsent source ++ sentRecords (setup.result world input) source

def Setup.step (world : World) (input : Input) : World where
  stateFile := (setup.result world input).stateFile
  contents := world.contentsAfter input
  rows := (storedBatches (setup.result world input).posted).foldl storeBatch world.rows
  failed :=
    if (setup.result world input).succeeded = true then world.failed
    else world.failed ++ storedBatches (setup.result world input).posted
  unsent := setup.unsentAfter world input

/-- The files of a run have only grown since the run before. -/
def Setup.Admits (world : World) (input : Input) : Prop :=
  ∀ source ∈ setup.cfg.sources,
    Grows (setup.token source.path) (world.contents source.path) (input.views source.path)

/-- The worlds that sequences of runs lead to. -/
inductive Setup.Reachable : World → Prop
  | start : Setup.Reachable World.start
  | step {world : World} {input : Input} : Setup.Reachable world → setup.Admits world input →
      Setup.Reachable (setup.step world input)

/-- The records the parser of a source makes of the complete lines below an offset. -/
def Setup.recordsBelow (source : SourceName) (content : Bytes) (offset : Nat) : List Record :=
  setup.parserOf source ((linesBelow content offset).map decodeLine)

/-- The records the parser makes of the complete lines after an offset. -/
def Setup.recordsAfter (source : SourceName) (content : Bytes) (offset : Nat) : List Record :=
  setup.parserOf source (readCompleteLines content offset).1

/-- What holds between two runs of one source. -/
structure Setup.Consistent (world : World) (config : SourceConfig) (source : SourceName) : Prop where
  settled : Settled (setup.token config.path) (world.contents config.path)
    (cursorOf (savedState world.stateFile) config.name)
  nodup : (world.rows.of source).Nodup
  rows : ∀ record, record ∈ world.rows.of source ↔
    record ∈ setup.recordsBelow source (world.contents config.path) (savedOffset world.stateFile config)
      ∨ ∃ batch ∈ world.failed, record ∈ batch.of source
  unsent : ∀ record ∈ world.unsent source,
    record ∈ setup.recordsAfter source (world.contents config.path) (savedOffset world.stateFile config)
  failed : ∀ batch ∈ world.failed, ∀ record ∈ batch.of source,
    record ∈ setup.recordsBelow source (world.contents config.path) (savedOffset world.stateFile config)
      ∨ record ∈ world.unsent source

/-! ### What one run sends -/

section OneRun

variable {setup} {prior : CollectorState} {views : Text → FileView} {reply : Nat → Reply}

/-- The read of a run of this installation. -/
abbrev Setup.read (setup : Setup) (views : Text → FileView) (prior : CollectorState) : ReadState Record :=
  readAll setup.isWindows setup.cfg setup.parseFns views prior

theorem uploadAll_sent (hmax : 1 ≤ setup.cfg.maxRecordsPerBatch) (read : ReadState Record) (source : SourceName) :
    (∀ sent ∈ (uploadAll setup.cfg read reply).2, ∀ record ∈ sent.1.of source, record ∈ read.recordsOf source)
      ∧ ((uploadAll setup.cfg read reply).1.success = true →
          (uploadAll setup.cfg read reply).2.flatMap (fun sent => sent.1.of source) = read.recordsOf source
            ∧ storedBatches (uploadAll setup.cfg read reply).2 = (uploadAll setup.cfg read reply).2.map Prod.fst) := by
  have hstart : UploadRunResult.start.success = true := rfl
  have hsent := postBatches_sent reply (buildBatches (read.recordsOf .checkins) (read.recordsOf .rejects)
    (read.recordsOf .acs) setup.cfg.maxRecordsPerBatch) hstart
  have hall := flatMap_buildBatches (read.recordsOf .checkins) (read.recordsOf .rejects) (read.recordsOf .acs)
    hmax source
  have hof : Batch.of ⟨read.recordsOf .checkins, read.recordsOf .rejects, read.recordsOf .acs⟩ source
      = read.recordsOf source := by cases source <;> rfl
  rw [hof] at hall
  rw [uploadAll, uploadRecords]
  constructor
  · intro sent hmem record hrecord
    have hbatch := hsent.1.subset (List.mem_map_of_mem (f := Prod.fst) hmem)
    rw [← hall]
    exact List.mem_flatMap.2 ⟨sent.1, hbatch, hrecord⟩
  · intro hsuccess
    obtain ⟨hbatches, hstored⟩ := hsent.2 hsuccess
    constructor
    · rw [← hall]
      conv_rhs => rw [← hbatches]
      rw [List.flatMap_map]
    · rw [storedBatches, List.filter_eq_self.2 hstored]

theorem recordsOf_read {config : SourceConfig} {source : SourceName} (hmem : config ∈ setup.cfg.sources)
    (hname : config.name = source.text) :
    (setup.read views prior).recordsOf source
      = if (readOf setup.isWindows views prior config).existed = true
        then setup.parserOf source (readOf setup.isWindows views prior config).lines else [] := by
  have hrecords := (readSources_of_mem setup.isWindows setup.parseFns views prior setup.cfg.nodup hmem .start).2
  have hparser : setup.parseFns config.name = some (setup.parserOf source) := by
    rw [hname]
    exact Parsers.buildProductionParseFns_text _ _ _ _ source
  rw [ReadState.recordsOf, ← hname, hrecords, hparser]
  split
  · rw [Option.getD_some, Option.getD_some, recordsOfLines]
    split
    · next hempty =>
      rw [List.isEmpty_iff.1 hempty]
      exact (Parsers.parserOf_nil _ _ _ _ source).symm
    · rfl
  · rfl

theorem newCursor_read {config : SourceConfig} (hmem : config ∈ setup.cfg.sources) :
    (setup.read views prior).newCursors.get? config.name
      = if (readOf setup.isWindows views prior config).existed = true
        then some (readOf setup.isWindows views prior config).cursor else none :=
  (readSources_of_mem setup.isWindows setup.parseFns views prior setup.cfg.nodup hmem .start).1

end OneRun

/-! ### The invariant -/

section Invariant

variable {setup} {world : World} {input : Input} {config : SourceConfig} {source : SourceName}

theorem Setup.Admits.prefix_contentsAfter (hadmits : setup.Admits world input) (hmem : config ∈ setup.cfg.sources) :
    world.contents config.path <+: world.contentsAfter input config.path := by
  rw [World.contentsAfter]
  cases hcontent : (input.views config.path).content with
  | none => exact List.prefix_rfl
  | some content => exact (hadmits config hmem).content content hcontent

theorem Setup.Consistent.atLineEnd (hconsistent : setup.Consistent world config source) :
    AtLineEnd (world.contents config.path) (savedOffset world.stateFile config) :=
  hconsistent.settled.atLineEnd

/-- Growth adds nothing below the saved offset. -/
theorem Setup.Consistent.recordsBelow_contentsAfter (hconsistent : setup.Consistent world config source)
    (hadmits : setup.Admits world input) (hmem : config ∈ setup.cfg.sources) :
    setup.recordsBelow source (world.contentsAfter input config.path) (savedOffset world.stateFile config)
      = setup.recordsBelow source (world.contents config.path) (savedOffset world.stateFile config) := by
  rw [Setup.recordsBelow, linesBelow_mono hconsistent.atLineEnd.1 (hadmits.prefix_contentsAfter hmem),
    Setup.recordsBelow]

theorem readCompleteLines_prefix {past content : Bytes} {offset : Nat} (hoffset : offset ≤ past.length)
    (hgrow : past <+: content) : (readCompleteLines past offset).1 <+: (readCompleteLines content offset).1 := by
  obtain ⟨more, rfl⟩ := hgrow
  simp only [readCompleteLines, readLines_length]
  rw [List.drop_append_of_le_length hoffset, splitLines_append, List.map_append]
  exact List.prefix_append _ _

theorem Setup.recordsAfter_mono {past content : Bytes} {offset : Nat} (hoffset : offset ≤ past.length)
    (hgrow : past <+: content) {record : Record} (hrecord : record ∈ setup.recordsAfter source past offset) :
    record ∈ setup.recordsAfter source content offset := by
  obtain ⟨more, hmore⟩ := readCompleteLines_prefix hoffset hgrow
  rw [Setup.recordsAfter, ← hmore, Setup.parserOf, Parsers.parserOf_append]
  exact List.mem_append_left _ hrecord

/-- A source that was read: the file it was read from, the records it gave, and the new cursor. -/
theorem Setup.Consistent.read (hconsistent : setup.Consistent world config source)
    (hadmits : setup.Admits world input) (hmem : config ∈ setup.cfg.sources) (hname : config.name = source.text)
    (hread : setup.wasRead world input config = true) :
    (setup.read input.views (savedState world.stateFile)).recordsOf source
        = setup.recordsAfter source (world.contentsAfter input config.path) (savedOffset world.stateFile config)
      ∧ (setup.read input.views (savedState world.stateFile)).newCursors.get? config.name
        = some ⟨some (setup.token config.path),
            (readCompleteLines (world.contentsAfter input config.path) (savedOffset world.stateFile config)).2⟩ := by
  obtain ⟨content, hcontent, -, hresult⟩ := readNewLines_grows (hadmits config hmem) hconsistent.settled hread
  have hafter : world.contentsAfter input config.path = content := by rw [World.contentsAfter, hcontent]; rfl
  have hexisted : (readOf setup.isWindows input.views (savedState world.stateFile) config).existed = true := hread
  have hof : readOf setup.isWindows input.views (savedState world.stateFile) config = _ := hresult
  rw [recordsOf_read hmem hname, newCursor_read hmem, if_pos hexisted, if_pos hexisted, hof, hafter]
  exact ⟨rfl, rfl⟩

theorem recordsOf_of_not_read (hmem : config ∈ setup.cfg.sources) (hname : config.name = source.text)
    (hread : setup.wasRead world input config = false) :
    (setup.read input.views (savedState world.stateFile)).recordsOf source = []
      ∧ (setup.read input.views (savedState world.stateFile)).newCursors.get? config.name = none := by
  have hexisted : (readOf setup.isWindows input.views (savedState world.stateFile) config).existed = false := hread
  rw [recordsOf_read hmem hname, newCursor_read hmem, hexisted]
  exact ⟨rfl, rfl⟩

theorem savedState_of_load {stateFile : StateFile} {prior : CollectorState} (h : loadState stateFile = .ok prior) :
    savedState stateFile = prior := by
  rw [savedState, h]

theorem mem_storedBatches {posted : List (Batch Record × Reply)} {batch : Batch Record} :
    batch ∈ storedBatches posted ↔ ∃ sent ∈ posted, sent.2.stored = true ∧ sent.1 = batch := by
  simp only [storedBatches, List.mem_map, List.mem_filter, and_assoc]

/-- What a failed run has sent are records of lines after the saved offsets. -/
theorem Setup.Consistent.failed_sent (hmax : 1 ≤ setup.cfg.maxRecordsPerBatch)
    (hconsistent : setup.Consistent world config source) (hadmits : setup.Admits world input)
    (hmem : config ∈ setup.cfg.sources) (hname : config.name = source.text)
    (hfailed : (setup.result world input).succeeded = false) {record : Record}
    (hrecord : record ∈ sentRecords (setup.result world input) source) :
    record ∈ setup.recordsAfter source (world.contentsAfter input config.path) (savedOffset world.stateFile config) := by
  obtain ⟨sent, hsent, hrecord⟩ := List.mem_flatMap.1 hrecord
  obtain ⟨-, hnone | ⟨prior, hload, -, hposted⟩⟩ := runOnce_failed hfailed
  · rw [Setup.result, hnone] at hsent
    cases hsent
  · rw [Setup.result, hposted, ← savedState_of_load hload] at hsent
    have hof := (uploadAll_sent hmax _ source).1 sent hsent record hrecord
    cases hread : setup.wasRead world input config with
    | true => rwa [(hconsistent.read hadmits hmem hname hread).1] at hof
    | false =>
        rw [(recordsOf_of_not_read hmem hname hread).1] at hof
        cases hof

theorem Setup.Consistent.step_failed (hmax : 1 ≤ setup.cfg.maxRecordsPerBatch)
    (hconsistent : setup.Consistent world config source) (hadmits : setup.Admits world input)
    (hmem : config ∈ setup.cfg.sources) (hname : config.name = source.text)
    (hfailed : (setup.result world input).succeeded = false) :
    setup.Consistent (setup.step world input) config source := by
  have hstate : (setup.step world input).stateFile = world.stateFile := (runOnce_failed hfailed).1
  have hbegin := hadmits.prefix_contentsAfter hmem
  have hline := hconsistent.atLineEnd
  have hbelow := hconsistent.recordsBelow_contentsAfter hadmits hmem
  refine ⟨?_, ?_, ?_, ?_, ?_⟩
  · rw [hstate]
    exact ⟨hconsistent.settled.identity, hline.mono hbegin⟩
  · exact nodup_storeBatches source hconsistent.nodup _
  · intro record
    rw [hstate]
    simp only [Setup.step, hfailed, Bool.false_eq_true, if_false]
    rw [mem_storeBatches, hconsistent.rows, hbelow, or_assoc]
    simp only [List.mem_append, or_and_right, exists_or]
  · intro record hrecord
    rw [hstate]
    simp only [Setup.step, Setup.unsentAfter, hfailed, Bool.false_eq_true, if_false] at hrecord
    rcases List.mem_append.1 hrecord with hold | hsent
    · exact setup.recordsAfter_mono hline.1 hbegin (hconsistent.unsent record hold)
    · exact hconsistent.failed_sent hmax hadmits hmem hname hfailed hsent
  · intro batch hbatch record hrecord
    rw [hstate]
    simp only [Setup.step, Setup.unsentAfter, hfailed, Bool.false_eq_true, if_false] at hbatch ⊢
    rw [hbelow, List.mem_append]
    rcases List.mem_append.1 hbatch with hold | hnew
    · rcases hconsistent.failed batch hold record hrecord with hbelow | hunsent
      · exact Or.inl hbelow
      · exact Or.inr (Or.inl hunsent)
    · obtain ⟨sent, hsent, -, rfl⟩ := mem_storedBatches.1 hnew
      exact Or.inr (Or.inr (List.mem_flatMap.2 ⟨sent, hsent, hrecord⟩))

/-- What a successful run leaves of one source: the records after its old offset have been sent and
stored, and the new offset is the end of the last complete line. -/
theorem Setup.Consistent.succeeded (hmax : 1 ≤ setup.cfg.maxRecordsPerBatch)
    (hconsistent : setup.Consistent world config source) (hadmits : setup.Admits world input)
    (hmem : config ∈ setup.cfg.sources) (hname : config.name = source.text)
    (hsucceeded : (setup.result world input).succeeded = true) :
    let content := world.contentsAfter input config.path
    let offset := savedOffset world.stateFile config
    (∀ record, (∃ batch ∈ storedBatches (setup.result world input).posted, record ∈ batch.of source)
        ↔ record ∈ sentRecords (setup.result world input) source)
      ∧ (setup.wasRead world input config = true →
          sentRecords (setup.result world input) source = setup.recordsAfter source content offset
            ∧ cursorOf (savedState (setup.step world input).stateFile) config.name
              = some ⟨some (setup.token config.path), (readCompleteLines content offset).2⟩)
      ∧ (setup.wasRead world input config = false →
          sentRecords (setup.result world input) source = []
            ∧ cursorOf (savedState (setup.step world input).stateFile) config.name
              = cursorOf (savedState world.stateFile) config.name) := by
  intro content offset
  obtain ⟨prior, saved, hload, -, hupload, hsaved, hfile, hposted⟩ := runOnce_succeeded hsucceeded
  have hprior := savedState_of_load hload
  have hsent := (uploadAll_sent hmax _ source).2 hupload
  have hrecords : sentRecords (setup.result world input) source
      = (setup.read input.views (savedState world.stateFile)).recordsOf source := by
    rw [hprior, ← hsent.1, sentRecords, Setup.result, hposted]
  have hstored : storedBatches (setup.result world input).posted = (setup.result world input).posted.map Prod.fst := by
    rw [Setup.result, hposted]
    exact hsent.2
  have hcursor : cursorOf (savedState (setup.step world input).stateFile) config.name
      = ((setup.read input.views (savedState world.stateFile)).newCursors.get? config.name).or
          (cursorOf (savedState world.stateFile) config.name) := by
    have hstep : (setup.step world input).stateFile = .document saved := hfile
    rw [hstep, hprior]
    exact cursorOf_withCursors (Dict.nodup _) hsaved config.name
  refine ⟨?_, ?_, ?_⟩
  · intro record
    rw [hstored, sentRecords, List.mem_flatMap]
    simp only [List.mem_map, exists_exists_and_eq_and]
  · intro hread
    have hof := hconsistent.read hadmits hmem hname hread
    rw [hrecords, hcursor, hof.1, hof.2]
    exact ⟨rfl, rfl⟩
  · intro hread
    have hof := recordsOf_of_not_read hmem hname hread
    rw [hrecords, hcursor, hof.1, hof.2]
    exact ⟨rfl, rfl⟩

theorem Setup.Consistent.step_read (hmax : 1 ≤ setup.cfg.maxRecordsPerBatch)
    (hconsistent : setup.Consistent world config source) (hadmits : setup.Admits world input)
    (hmem : config ∈ setup.cfg.sources) (hname : config.name = source.text)
    (hsucceeded : (setup.result world input).succeeded = true) (hread : setup.wasRead world input config = true) :
    setup.Consistent (setup.step world input) config source
      ∧ savedOffset world.stateFile config ≤ savedOffset (setup.step world input).stateFile config
      ∧ (setup.step world input).unsent source = [] := by
  obtain ⟨hstored, hsent, -⟩ := hconsistent.succeeded hmax hadmits hmem hname hsucceeded
  obtain ⟨hrecords, hcursor⟩ := hsent hread
  have hline : AtLineEnd (world.contentsAfter input config.path) (savedOffset world.stateFile config) :=
    hconsistent.atLineEnd.mono (hadmits.prefix_contentsAfter hmem)
  obtain ⟨hend, hle, hlines⟩ := readCompleteLines_spec hline
  have hoffset : savedOffset (setup.step world input).stateFile config
      = (readCompleteLines (world.contentsAfter input config.path) (savedOffset world.stateFile config)).2 := by
    rw [savedOffset, hcursor]
    rfl
  have hbelow : ∀ record, record ∈ setup.recordsBelow source (world.contentsAfter input config.path)
        (savedOffset (setup.step world input).stateFile config)
      ↔ record ∈ setup.recordsBelow source (world.contents config.path) (savedOffset world.stateFile config)
        ∨ record ∈ sentRecords (setup.result world input) source := by
    intro record
    rw [hrecords, ← hconsistent.recordsBelow_contentsAfter hadmits hmem, Setup.recordsBelow, hoffset, hlines,
      Setup.parserOf, Parsers.parserOf_append, List.mem_append]
    rfl
  have hunsent : (setup.step world input).unsent source = [] := by
    simp only [Setup.step, Setup.unsentAfter]
    rw [if_pos hsucceeded, if_pos ⟨config, hmem, hname, hread⟩]
  refine ⟨⟨?_, ?_, ?_, ?_, ?_⟩, hoffset ▸ hle, hunsent⟩
  · refine ⟨?_, ?_⟩
    · intro saved hsaved
      rw [hcursor] at hsaved
      cases hsaved
      rfl
    · rw [hcursor]
      exact hend
  · exact nodup_storeBatches source hconsistent.nodup _
  · intro record
    refine Iff.trans ?_ (or_congr_left (hbelow record).symm)
    simp only [Setup.step, hsucceeded, if_true]
    rw [mem_storeBatches, hconsistent.rows, hstored]
    exact or_right_comm
  · rw [hunsent]
    intro record hrecord
    cases hrecord
  · intro batch hbatch record hrecord
    refine Or.inl ((hbelow record).2 ?_)
    simp only [Setup.step, hsucceeded, if_true] at hbatch
    rcases hconsistent.failed batch hbatch record hrecord with hold | hunsent
    · exact Or.inl hold
    · right
      rw [hrecords]
      exact setup.recordsAfter_mono hconsistent.atLineEnd.1 (hadmits.prefix_contentsAfter hmem)
        (hconsistent.unsent record hunsent)

theorem Setup.Consistent.step_not_read (hmax : 1 ≤ setup.cfg.maxRecordsPerBatch)
    (hconsistent : setup.Consistent world config source) (hadmits : setup.Admits world input)
    (hmem : config ∈ setup.cfg.sources) (hname : config.name = source.text)
    (hsucceeded : (setup.result world input).succeeded = true) (hread : setup.wasRead world input config = false) :
    setup.Consistent (setup.step world input) config source
      ∧ savedOffset world.stateFile config = savedOffset (setup.step world input).stateFile config := by
  obtain ⟨hstored, -, hsent⟩ := hconsistent.succeeded hmax hadmits hmem hname hsucceeded
  obtain ⟨hrecords, hcursor⟩ := hsent hread
  have hbegin := hadmits.prefix_contentsAfter hmem
  have hline := hconsistent.atLineEnd
  have hoffset : savedOffset world.stateFile config = savedOffset (setup.step world input).stateFile config := by
    rw [savedOffset, savedOffset, hcursor]
  have hbelow : setup.recordsBelow source (world.contentsAfter input config.path)
        (savedOffset (setup.step world input).stateFile config)
      = setup.recordsBelow source (world.contents config.path) (savedOffset world.stateFile config) := by
    rw [← hoffset]
    exact hconsistent.recordsBelow_contentsAfter hadmits hmem
  have hunsent : (setup.step world input).unsent source = world.unsent source := by
    simp only [Setup.step, Setup.unsentAfter]
    rw [if_pos hsucceeded, if_neg]
    rintro ⟨other, hother, hothername, hotherread⟩
    have heq : other = config :=
      List.inj_on_of_nodup_map setup.cfg.nodup hother hmem (hothername.trans hname.symm)
    rw [heq, hread] at hotherread
    cases hotherread
  refine ⟨⟨?_, ?_, ?_, ?_, ?_⟩, hoffset⟩
  · rw [hcursor]
    exact ⟨hconsistent.settled.identity, hline.mono hbegin⟩
  · exact nodup_storeBatches source hconsistent.nodup _
  · intro record
    have hsame : record ∈ setup.recordsBelow source (world.contents config.path) (savedOffset world.stateFile config)
        ↔ record ∈ setup.recordsBelow source ((setup.step world input).contents config.path)
            (savedOffset (setup.step world input).stateFile config) := by
      rw [← hbelow]
      rfl
    refine Iff.trans ?_ (or_congr_left hsame)
    simp only [Setup.step, hsucceeded, if_true]
    rw [mem_storeBatches, hconsistent.rows, hstored, hrecords]
    simp
  · rw [hunsent, ← hoffset]
    intro record hrecord
    exact setup.recordsAfter_mono hline.1 hbegin (hconsistent.unsent record hrecord)
  · rw [hunsent]
    simp only [Setup.step, hsucceeded, if_true]
    intro batch hbatch record hrecord
    refine Or.imp_left ?_ (hconsistent.failed batch hbatch record hrecord)
    intro hold
    rw [← hbelow] at hold
    exact hold

/-- The invariant holds in every world that runs lead to. -/
theorem Setup.Reachable.consistent (hmax : 1 ≤ setup.cfg.maxRecordsPerBatch) (hreach : setup.Reachable world)
    (hmem : config ∈ setup.cfg.sources) (hname : config.name = source.text) :
    setup.Consistent world config source := by
  induction hreach with
  | start =>
      have hnone : cursorOf (savedState World.start.stateFile) config.name = none := rfl
      have hbelow : setup.recordsBelow source (World.start.contents config.path) (savedOffset .missing config) = [] :=
        Parsers.parserOf_nil _ _ _ _ source
      refine ⟨⟨?_, atLineEnd_zero _⟩, ?_, ?_, ?_, ?_⟩
      · intro saved hsaved
        rw [hnone] at hsaved
        cases hsaved
      · cases source <;> exact List.nodup_nil
      · intro record
        rw [show savedOffset World.start.stateFile config = savedOffset .missing config from rfl, hbelow]
        cases source <;> simp [World.start, Batch.of]
      · intro record hrecord
        cases hrecord
      · intro batch hbatch
        cases hbatch
  | @step world input _ hadmits ih =>
      cases hsucceeded : (setup.result world input).succeeded with
      | false => exact ih.step_failed hmax hadmits hmem hname hsucceeded
      | true =>
          cases hread : setup.wasRead world input config with
          | true => exact (ih.step_read hmax hadmits hmem hname hsucceeded hread).1
          | false => exact (ih.step_not_read hmax hadmits hmem hname hsucceeded hread).1

end Invariant

/-- A failed run changes no position; a successful run skips nothing. Its offsets are ends of complete
lines and never lower than before, and the server has one row for each record of the lines below them
and for each record that a failed run stored, which the first successful run to read the source again
sends again, so that from then on it is one of those of the lines below. -/
theorem runOnce_skips_nothing (hmax : 1 ≤ setup.cfg.maxRecordsPerBatch) {world : World} {input : Input}
    (hreach : setup.Reachable world) (hadmits : setup.Admits world input) :
    ((setup.result world input).succeeded = false → (setup.step world input).stateFile = world.stateFile)
      ∧ ((setup.result world input).succeeded = true → ∀ config ∈ setup.cfg.sources,
        ∃ source : SourceName, config.name = source.text
          ∧ AtLineEnd ((setup.step world input).contents config.path)
              (savedOffset (setup.step world input).stateFile config)
          ∧ savedOffset world.stateFile config ≤ savedOffset (setup.step world input).stateFile config
          ∧ ((setup.step world input).rows.of source).Nodup
          ∧ (∀ record, record ∈ (setup.step world input).rows.of source ↔
              record ∈ setup.recordsBelow source ((setup.step world input).contents config.path)
                  (savedOffset (setup.step world input).stateFile config)
                ∨ ∃ batch ∈ (setup.step world input).failed, record ∈ batch.of source)
          ∧ (setup.wasRead world input config = true →
              (∀ record ∈ world.unsent source, record ∈ sentRecords (setup.result world input) source)
              ∧ ∀ batch ∈ (setup.step world input).failed, ∀ record ∈ batch.of source,
                  record ∈ setup.recordsBelow source ((setup.step world input).contents config.path)
                    (savedOffset (setup.step world input).stateFile config))) := by
  refine ⟨fun hfailed => (runOnce_failed hfailed).1, ?_⟩
  intro hsucceeded config hmem
  obtain ⟨-, -, -, hparsers, -⟩ := runOnce_succeeded hsucceeded
  obtain ⟨source, hname⟩ := Parsers.exists_source_of_parseFn _ _ _ _ (hparsers config hmem)
  have hbefore := hreach.consistent hmax hmem hname
  have hafter := (hreach.step hadmits).consistent hmax hmem hname
  refine ⟨source, hname, hafter.settled.atLineEnd, ?_, hafter.nodup, hafter.rows, ?_⟩
  · cases hread : setup.wasRead world input config with
    | true => exact (hbefore.step_read hmax hadmits hmem hname hsucceeded hread).2.1
    | false => exact (hbefore.step_not_read hmax hadmits hmem hname hsucceeded hread).2.le
  · intro hread
    have hunsent := (hbefore.step_read hmax hadmits hmem hname hsucceeded hread).2.2
    constructor
    · intro record hrecord
      rw [((hbefore.succeeded hmax hadmits hmem hname hsucceeded).2.1 hread).1]
      exact setup.recordsAfter_mono hbefore.atLineEnd.1 (hadmits.prefix_contentsAfter hmem)
        (hbefore.unsent record hrecord)
    · intro batch hbatch record hrecord
      rcases hafter.failed batch hbatch record hrecord with hbelow | hleft
      · exact hbelow
      · rw [hunsent] at hleft
        cases hleft

/-! Two runs of one source. The file of the first holds one ACS record and the start of another, and the server stores
the batch but its answer is lost; the second finds both records. -/

def sampleSource : SourceConfig := ⟨"acs".toList, "ACS Log.txt".toList⟩

def sampleSetup : Setup where
  isWindows := true
  cfg := ⟨[sampleSource], by decide, 1000⟩
  toDatetime := fun text => if text = "01/02/2024 03:04:05 PM".toList then some 1704207845 else none
  strTimestamp := fun _ => "2024-01-02 15:04:05".toList
  customerId := 1
  branchId := 2
  token := fun _ => (7, 8)

def firstContent : Bytes := "01/02/2024\x0203:04:05 PM\x0210N|AB31234|\n01/0".toUTF8.toList

def secondContent : Bytes := firstContent ++ "2/2024\x0203:04:05 PM\x0210N|AB31235|\n".toUTF8.toList

def lostInput : Input where
  views := fun _ => ⟨some (7, 8), some 40, some firstContent⟩
  reply := fun _ => ⟨.timeout, true, fun _ => rfl⟩

def sampleInput : Input where
  views := fun _ => ⟨some (7, 8), some 72, some secondContent⟩
  reply := fun _ => ⟨.answer 200 (some ⟨some "success".toList, 0, 0, 1⟩), true, fun _ => rfl⟩

/-- The world after the run whose answer is lost. -/
def lostWorld : World := sampleSetup.step World.start lostInput

theorem lostInput_admits : sampleSetup.Admits World.start lostInput := by
  intro source _
  refine ⟨?_, ?_, ?_⟩
  · intro current hcurrent
    cases hcurrent
    rfl
  · intro currentSize _
    exact Nat.zero_le _
  · intro content _
    exact List.nil_prefix

theorem sampleInput_admits : sampleSetup.Admits lostWorld sampleInput := by
  intro source _
  refine ⟨?_, ?_, ?_⟩
  · intro current hcurrent
    cases hcurrent
    rfl
  · intro currentSize hsize
    cases hsize
    show firstContent.length ≤ 72
    decide +kernel
  · intro content hcontent
    cases hcontent
    exact List.prefix_append firstContent _

theorem runOnce_skips_nothing_sample :
    (sampleSetup.result World.start lostInput).succeeded = false
      ∧ lostWorld.failed.map (fun batch => batch.acs.length) = [1]
      ∧ lostWorld.stateFile = World.start.stateFile
      ∧ (sampleSetup.result lostWorld sampleInput).succeeded = true
      ∧ AtLineEnd ((sampleSetup.step lostWorld sampleInput).contents sampleSource.path)
          (savedOffset (sampleSetup.step lostWorld sampleInput).stateFile sampleSource)
      ∧ (sampleSetup.step lostWorld sampleInput).rows.acs.length = 2
      ∧ ∀ batch ∈ (sampleSetup.step lostWorld sampleInput).failed, ∀ record ∈ batch.acs,
          record ∈ sampleSetup.recordsBelow .acs ((sampleSetup.step lostWorld sampleInput).contents sampleSource.path)
            (savedOffset (sampleSetup.step lostWorld sampleInput).stateFile sampleSource) := by
  have hfailed : (sampleSetup.result World.start lostInput).succeeded = false := by decide +kernel
  have hsucceeded : (sampleSetup.result lostWorld sampleInput).succeeded = true := by decide +kernel
  have hread : sampleSetup.wasRead lostWorld sampleInput sampleSource = true := by decide +kernel
  have hlost := (runOnce_skips_nothing sampleSetup (by decide) .start lostInput_admits).1 hfailed
  obtain ⟨source, hname, hline, -, -, -, hagain⟩ := (runOnce_skips_nothing sampleSetup (by decide)
    (.step .start lostInput_admits) sampleInput_admits).2 hsucceeded sampleSource (List.mem_singleton_self _)
  cases source with
  | acs =>
      refine ⟨hfailed, by decide +kernel, hlost, hsucceeded, hline, by decide +kernel, ?_⟩
      exact (hagain hread).2
  | checkins => exact absurd hname (by decide)
  | rejects => exact absurd hname (by decide)

end Run

end SortView
