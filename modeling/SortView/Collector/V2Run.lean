import SortView.Collector.ChunkReader
import SortView.Collector.Deliver
import SortView.Collector.Parsers
import SortView.Collector.State
import SortView.Collector.Transform

/-!
# A run over the sources (`collector/v2_run.py`)

`read_next_chunk` and `_process_sources`: chunk after chunk is read, transformed and delivered, and the cursor is saved behind it. Every
write to the disk is recorded, so that a crash can come after any of them.
-/

namespace SortView

open PyText Calendar ByteLines Reader State Transform Delivery ChunkReader

namespace V2Run

/-! ### A transformed chunk -/

/-- The parser of a source. -/
def parseLines (toDatetime : Text → Option Naive) (source : SourceName) (lines : List Text) : Chunk :=
  match source with
  | .acs => .acs (Acs.parseLines toDatetime lines)
  | .checkins => .checkins (Checkins.parseLines toDatetime lines)
  | .rejects => .rejects (Rejects.parseLines toDatetime lines)

/-- The counters are left out. -/
structure SafeChunk where
  events : List SafeEvent
  cursor : Option ChunkReader.Cursor
  existed : Bool
  rotated : Bool
  truncated : Bool
  more : Bool
  empty : Bool

/-- The rest of `read_next_chunk`, of what was read. -/
def safeChunk (ctx : TransformContext) (toDatetime : Text → Option Naive) (source : SourceName) (read : ChunkRead)
    (cache : PatronCache) : Except TransformError (SafeChunk × PatronCache) :=
  if read.existed = false then .ok (⟨[], read.cursor, false, false, false, false, true⟩, cache)
  else if read.lines = [] then .ok (⟨[], read.cursor, true, read.rotated, read.truncated, read.more, true⟩, cache)
  else match transformChunk ctx (parseLines toDatetime source read.lines) cache with
    | .error fault => .error fault
    | .ok (events, after) => .ok (⟨events, read.cursor, true, read.rotated, read.truncated, read.more, false⟩, after)

/-! ### The disk -/

/-- A chunk that a saved cursor has passed, for the statements only: its lines, the events they gave, what the quarantine knew before,
and what became of the events. -/
structure Passed where
  source : SourceName
  lines : List Text
  produced : List SafeEvent
  known : List QuarantineEntry
  skipped : List SafeEvent
  accepted : List UploadBatch
  quarantined : List SafeEvent

/-- What outlasts a crash. -/
structure Disk where
  stateFile : StateFile
  cache : PatronCache
  quarantine : List QuarantineEntry
  passed : List Passed

/-- The configuration of one installation. -/
structure Setup where
  isWindows : Bool
  keyId : Text
  maxEventsPerRequest : Nat
  chunkLines : Nat
  maxChunksPerRun : Nat
  quarantineMaxEntries : Nat
  sources : List Text
  toDatetime : Text → Option Naive

/-- What one run takes from outside: its context and day, what its reads meet, the purges and the other side of the session. -/
structure Input (σ : Type) where
  ctx : TransformContext
  today : Text
  cutoff : Text
  views : Nat → SourceName → ChunkView
  keepPatron : Digest × PatronColumns → Bool
  keepHold : Text × HoldColumns → Bool
  post : σ → UploadBatch → σ × Answer

/-- What `_process_sources` and `_Totals` count beside a delivery. -/
structure SourceTotals where
  chunks : Nat
  skippedQuarantined : Nat
  sourcesMissing : Nat
  sourcesRotated : Nat
  sourcesTruncated : Nat

/-- A run: the memory of the process, the reads so far, the disk, and what a crash would have found after each request and each write. -/
structure Process (σ : Type) where
  session : σ
  reads : Nat
  current : CollectorState
  cache : PatronCache
  quarantine : Quarantine
  delivery : Totals
  totals : SourceTotals
  disk : Disk
  moments : List (Disk × σ)

variable {σ : Type}

/-- One write. -/
def Process.write (run : Process σ) (disk : Disk) : Process σ := { run with disk, moments := run.moments ++ [(disk, run.session)] }

/-- `with_source` and `save_state`. -/
def Process.saveCursor (run : Process σ) (source : SourceName) (saved : SourceState) : Process σ :=
  let current := withSource run.current source.text saved
  { run with current }.write { run.disk with stateFile := .document current }

/-! ### One source -/

/-- Why a run raises. -/
inductive Fault where
  | stateCorrupt
  | unknownSource
  | internalError
  | transform (error : TransformError)
  | cursor (error : StateError)

/-- How the loop of a source ends: an exception, or the failure category of a delivery. -/
abbrev Ending := Except Fault (Option Failure)

/-- `SOURCE_ORDER`. -/
def sourceOrder : List SourceName := [.acs, .checkins, .rejects]

variable (setup : Setup) (input : Input σ)

/-- The events of a chunk that are not quarantined, and those that are. -/
def unknownEvents (quarantine : Quarantine) (events : List SafeEvent) : List SafeEvent :=
  events.filter fun event => event.eventKey ∉ quarantine.keysFor event.kind

def knownEvents (quarantine : Quarantine) (events : List SafeEvent) : List SafeEvent :=
  events.filter fun event => event.eventKey ∈ quarantine.keysFor event.kind

/-- The delivery of a chunk, from no request and no removal. -/
def Process.delivered (run : Process σ) (events : List SafeEvent) : Option Failure × Delivery.Run σ :=
  deliver input.post input.today setup.keyId setup.maxEventsPerRequest (unknownEvents run.quarantine events)
    ⟨run.session, [], [], run.quarantine, run.delivery, []⟩

/-- The process after a delivery, with the saves of the quarantine. -/
def Process.afterDelivery (run : Process σ) (events : List SafeEvent) (delivery : Delivery.Run σ) : Process σ :=
  { run with
    session := delivery.session
    quarantine := delivery.quarantine
    delivery := delivery.totals
    totals := { run.totals with
      skippedQuarantined := run.totals.skippedQuarantined + (events.length - (unknownEvents run.quarantine events).length) }
    disk := { run.disk with quarantine := delivery.quarantine.entries }
    moments := run.moments ++ delivery.moments.map fun moment => ({ run.disk with quarantine := moment.1.entries }, moment.2) }

/-- The first of the two transactions of `PatronCache.commit`, the ledger's. A read-only cache has none. -/
def ledgerCommitted (cache : PatronCache) : PatronCache := if cache.readOnly then cache else cache.commitHolds

/-- The second one commits the rest. -/
theorem commit_ledgerCommitted (cache : PatronCache) : (ledgerCommitted cache).commit = cache.commit := by
  rw [ledgerCommitted]
  split
  · rfl
  · next hwrites =>
    have hhalf : ¬ cache.commitHolds.readOnly = true := hwrites
    rw [PatronCache.commit, PatronCache.commit, if_neg hwrites, if_neg hhalf]
    rfl

/-- The commit of a delivered chunk: the ledger and then the patrons of the cache, and then the cursor behind it. -/
def Process.commitChunk (run : Process σ) (source : SourceName) (saved : SourceState) (passed : Passed) : Process σ :=
  let ledger := ledgerCommitted run.cache
  let half := { run with cache := ledger }.write { run.disk with cache := ledger }
  let cache := ledger.commit
  let committed := { half with cache }.write { half.disk with cache }
  { committed with
    current := withSource committed.current source.text saved
    totals := { committed.totals with chunks := committed.totals.chunks + 1 } }.write
      { committed.disk with
        stateFile := .document (withSource committed.current source.text saved)
        passed := committed.disk.passed ++ [passed] }

/-- The chunks of one source, while there is budget and more to read. -/
def processSource (source : SourceName) : Nat → Option ChunkReader.Cursor → Process σ → Ending × Nat × Process σ
  | 0, _, run => (.ok none, 0, run)
  | budget + 1, cursor, run =>
      let read := readChunk setup.isWindows (input.views run.reads source) cursor setup.chunkLines
      let run := { run with reads := run.reads + 1 }
      match safeChunk input.ctx setup.toDatetime source read run.cache with
      | .error fault => (.error (.transform fault), budget + 1, run)
      | .ok (chunk, cache) =>
          if chunk.existed = false then
            (.ok none, budget + 1, { run with totals := { run.totals with sourcesMissing := run.totals.sourcesMissing + 1 } })
          else
            let run := { run with
              cache
              totals := { run.totals with
                sourcesRotated := run.totals.sourcesRotated + chunk.rotated.toNat
                sourcesTruncated := run.totals.sourcesTruncated + chunk.truncated.toNat } }
            if chunk.empty then
              match chunk.cursor with
              | none => (.ok none, budget + 1, run)
              | some place =>
                  if chunk.cursor = cursor then (.ok none, budget + 1, run)
                  else match sourceStateFromCursor place with
                    | .error error => (.error (.cursor error), budget + 1, run)
                    | .ok saved => (.ok none, budget + 1, run.saveCursor source saved)
            else
              match run.delivered setup input chunk.events with
              | (some failure, delivery) =>
                  let after := run.afterDelivery chunk.events delivery
                  (.ok (some failure), budget + 1, { after with cache := after.cache.discard })
              | (none, delivery) =>
                  let after := run.afterDelivery chunk.events delivery
                  match chunk.cursor with
                  | none => (.error .internalError, budget + 1, { after with cache := after.cache.discard })
                  | some place =>
                      match sourceStateFromCursor place with
                      | .error error => (.error (.cursor error), budget + 1, after)
                      | .ok saved =>
                          let committed := after.commitChunk source saved
                            ⟨source, read.lines, chunk.events, run.quarantine.entries, knownEvents run.quarantine chunk.events,
                              delivery.accepted, delivery.quarantined.map Prod.fst⟩
                          if chunk.more then processSource source budget (some place) committed else (.ok none, budget, committed)

/-! ### A run -/

/-- The configured sources in their order, until one fails. -/
def processInOrder : List SourceName → Nat → Process σ → Ending × Process σ
  | [], _, run => (.ok none, run)
  | source :: sources, budget, run =>
      if source.text ∉ setup.sources then processInOrder sources budget run
      else match processSource setup input source budget (cursorOf run.current source.text) run with
        | (.ok none, left, run) => processInOrder sources left run
        | (ending, _, run) => (ending, run)

/-- `_process_sources`. -/
def processSources (run : Process σ) : Ending × Process σ :=
  match loadState run.disk.stateFile with
  | .error _ => (.error .stateCorrupt, run)
  | .ok current =>
      if setup.sources.any fun name => name ∉ sourceOrder.map SourceName.text then (.error .unknownSource, run)
      else processInOrder setup input sourceOrder setup.maxChunksPerRun { run with current }

/-- The start of a run on a disk: the cache is opened and purged, the quarantine loaded, pruned and saved. -/
def begin (session : σ) (disk : Disk) : Process σ :=
  let opened := disk.cache.discard
  let purged := { opened with patrons := opened.patrons.filter input.keepPatron }
  let cache := { purged with holds := purged.holds.filter input.keepHold }
  let quarantine := Quarantine.load setup.quarantineMaxEntries input.cutoff false disk.quarantine
  let start : Process σ := ⟨session, 0, emptyState, cache, quarantine, ⟨0, 0, 0, 0, 0⟩, ⟨0, 0, 0, 0, 0⟩, disk, [(disk, session)]⟩
  ((start.write { disk with cache := purged }).write { disk with cache }).write { disk with cache, quarantine := quarantine.entries }

/-- The sources of one `run_once_v2`. -/
def runOnce (session : σ) (disk : Disk) : Ending × Process σ := processSources setup input (begin setup input session disk)

/-! ### What a saved cursor stands for -/

/-- The files of the sources over time. Each keeps its identity and only grows. -/
structure Files where
  token : SourceName → Token
  content : Nat → SourceName → Bytes
  grows : ∀ time source, content time source <+: content (time + 1) source

theorem Files.grown (files : Files) (source : SourceName) {time later : Nat} (h : time ≤ later) :
    files.content time source <+: files.content later source := by
  induction h with
  | refl => exact List.prefix_rfl
  | step _ ih => exact ih.trans (files.grows _ source)

/-- One read sees a file as it is between two times, or fails to see it. -/
structure Sees (token : Token) (before after : Bytes) (view : ChunkView) : Prop where
  grows : Grows token before view.toFileView
  within : ∀ content, view.content = some content → content <+: after

/-- The reads of a run that begins at a time. -/
def Input.Sees (input : Input σ) (files : Files) (start : Nat) : Prop := ∀ read source,
  V2Run.Sees (files.token source) (files.content (start + read) source) (files.content (start + read + 1) source) (input.views read source)

def Disk.state (disk : Disk) : CollectorState :=
  match loadState disk.stateFile with
  | .ok state => state
  | .error _ => emptyState

/-- The saved cursor of a source. -/
def Disk.cursor (disk : Disk) (source : SourceName) : Option ChunkReader.Cursor := cursorOf disk.state source.text

/-- The lines of a source in the chunks that were passed. -/
def Disk.linesPassed (disk : Disk) (source : SourceName) : List Text :=
  (disk.passed.filter fun passed => passed.source = source).flatMap Passed.lines

/-- Every event of a passed chunk was in an accepted batch, or was handed to the quarantine, or was known there, and of the accepted
batches the other side has the property. -/
structure Passed.Handled (toDatetime : Text → Option Naive) (P : UploadBatch → Prop) (passed : Passed) : Prop where
  produced : ∃ ctx cache after, transformChunk ctx (parseLines toDatetime passed.source passed.lines) cache = .ok (passed.produced, after)
  handled : (passed.accepted.flatMap events ++ passed.quarantined ++ passed.skipped).Perm passed.produced
  accepted : ∀ batch ∈ passed.accepted, P batch
  known : ∀ event ∈ passed.skipped, ∃ entry ∈ passed.known, entry.identity = (event.kind, event.eventKey)

/-- The cursor of every source is at the end of a line, and the lines below it are those of the passed chunks. -/
structure Covered (toDatetime : Text → Option Naive) (files : Files) (P : UploadBatch → Prop) (time : Nat) (disk : Disk) : Prop where
  intact : disk.stateFile ≠ .corrupt
  settled : ∀ source, Settled (files.token source) (files.content time source) (disk.cursor source)
  lines : ∀ source, disk.linesPassed source
    = (linesBelow (files.content time source) (startOffset (disk.cursor source))).map ChunkReader.decode
  handled : ∀ passed ∈ disk.passed, passed.Handled toDatetime P

/-- A later disk: what was passed stays passed, and no cursor moves backwards. -/
structure Extends (before after : Disk) : Prop where
  passed : before.passed <+: after.passed
  cursor : ∀ source, startOffset (before.cursor source) ≤ startOffset (after.cursor source)

theorem Extends.refl (disk : Disk) : Extends disk disk := ⟨List.prefix_rfl, fun _ => Nat.le_refl _⟩

theorem Extends.trans {first second third : Disk} (hfirst : Extends first second) (hsecond : Extends second third) :
    Extends first third :=
  ⟨hfirst.passed.trans hsecond.passed, fun source => (hfirst.cursor source).trans (hsecond.cursor source)⟩

variable {toDatetime : Text → Option Naive} {files : Files} {P : UploadBatch → Prop}

theorem Passed.Handled.imp {later : UploadBatch → Prop} {passed : Passed} (h : passed.Handled toDatetime P)
    (himp : ∀ batch, P batch → later batch) : passed.Handled toDatetime later :=
  ⟨h.produced, h.handled, fun batch hbatch => himp batch (h.accepted batch hbatch), h.known⟩

theorem Covered.imp {later : UploadBatch → Prop} {time : Nat} {disk : Disk} (h : Covered toDatetime files P time disk)
    (himp : ∀ batch, P batch → later batch) : Covered toDatetime files later time disk :=
  ⟨h.intact, h.settled, h.lines, fun passed hpassed => (h.handled passed hpassed).imp himp⟩

theorem Covered.mono {time later : Nat} {disk : Disk} (h : Covered toDatetime files P time disk) (hle : time ≤ later) :
    Covered toDatetime files P later disk := by
  refine ⟨h.intact, ?_, ?_, h.handled⟩
  · intro source
    exact ⟨(h.settled source).identity, (h.settled source).atLineEnd.mono (files.grown source hle)⟩
  · intro source
    rw [h.lines source, linesBelow_mono (h.settled source).atLineEnd.1 (files.grown source hle)]

theorem cursor_of_stateFile {disk other : Disk} (hstate : other.stateFile = disk.stateFile) (source : SourceName) :
    other.cursor source = disk.cursor source := by
  rw [Disk.cursor, Disk.cursor, Disk.state, Disk.state, hstate]

/-- The cache and the quarantine do not matter for what is covered. -/
theorem Covered.congr {time : Nat} {disk other : Disk} (h : Covered toDatetime files P time disk) (hstate : other.stateFile = disk.stateFile)
    (hpassed : other.passed = disk.passed) : Covered toDatetime files P time other := by
  refine ⟨hstate ▸ h.intact, ?_, ?_, ?_⟩
  · intro source
    rw [cursor_of_stateFile hstate]
    exact h.settled source
  · intro source
    rw [cursor_of_stateFile hstate, ← h.lines source, Disk.linesPassed, Disk.linesPassed, hpassed]
  · rw [hpassed]
    exact h.handled

theorem Extends.congr {base disk other : Disk} (h : Extends base disk) (hstate : other.stateFile = disk.stateFile)
    (hpassed : other.passed = disk.passed) : Extends base other := by
  refine ⟨hpassed ▸ h.passed, ?_⟩
  intro source
  rw [cursor_of_stateFile hstate]
  exact h.cursor source

/-- A chunk of a growing file: the complete lines after the cursor, or the file could not be read. -/
theorem readChunk_grows {isWindows : Bool} {token : Token} {past : Bytes} {view : ChunkView} {cursor : Option ChunkReader.Cursor}
    {maxLines : Nat} (hview : Grows token past view.toFileView) (hcursor : Settled token past cursor)
    (hexisted : (readChunk isWindows view cursor maxLines).existed = true) :
    ∃ content, view.content = some content ∧ past <+: content
      ∧ (readChunk isWindows view cursor maxLines).lines
        = (readLines maxLines (content.drop (startOffset cursor))).map ChunkReader.decode
      ∧ (readChunk isWindows view cursor maxLines).cursor
        = some ⟨some token, startOffset cursor + size (readLines maxLines (content.drop (startOffset cursor)))⟩ := by
  rw [readChunk] at hexisted ⊢
  cases hidentity : view.identity with
  | none => simp [hidentity] at hexisted
  | some current =>
      obtain rfl := hview.identity current hidentity
      cases hcontent : view.content with
      | none =>
          exfalso
          simp only [hidentity, hcontent] at hexisted
          cases cursor with
          | none => simp at hexisted
          | some saved =>
              simp only at hexisted
              split_ifs at hexisted
              · split at hexisted <;> simp at hexisted
      | some content =>
          refine ⟨content, rfl, hview.content content hcontent, ?_⟩
          cases hafter : view.sizeAfter with
          | none =>
              exfalso
              simp only [hidentity, hcontent, hafter] at hexisted
              cases cursor with
              | none => simp at hexisted
              | some saved =>
                  simp only at hexisted
                  split_ifs at hexisted
                  · split at hexisted <;> simp at hexisted
          | some sizeAfter =>
              cases cursor with
              | none => exact ⟨rfl, rfl⟩
              | some saved =>
                  have hsaved : saved.identity = some current := hcursor.identity saved rfl
                  simp only [hidentity, hcontent, hafter, hsaved, sameFile_self] at hexisted ⊢
                  cases hsize : view.size with
                  | none => simp [hsize] at hexisted
                  | some currentSize =>
                      have hoffset : saved.offset ≤ past.length := hcursor.atLineEnd.1
                      have hpast := hview.size currentSize hsize
                      have hnot : ¬ currentSize < saved.offset := by omega
                      simp [hnot, startOffset]

/-! ### What a chunk leaves -/

/-- A saved cursor at the end of the lines that were read. -/
structure Moves (files : Files) (time : Nat) (source : SourceName) (cursor : Option ChunkReader.Cursor) (lines : List Text)
    (place : ChunkReader.Cursor) : Prop where
  settled : Settled (files.token source) (files.content time source) (some place)
  lines : (linesBelow (files.content time source) place.offset).map ChunkReader.decode
    = (linesBelow (files.content time source) (startOffset cursor)).map ChunkReader.decode ++ lines
  forward : startOffset cursor ≤ place.offset

theorem moves_of_read {isWindows : Bool} {time : Nat} {source : SourceName} {view : ChunkView} {cursor : Option ChunkReader.Cursor}
    {maxLines : Nat} (hview : Sees (files.token source) (files.content time source) (files.content (time + 1) source) view)
    (hcursor : Settled (files.token source) (files.content time source) cursor)
    (hexisted : (readChunk isWindows view cursor maxLines).existed = true) :
    ∃ place, (readChunk isWindows view cursor maxLines).cursor = some place
      ∧ Moves files (time + 1) source cursor (readChunk isWindows view cursor maxLines).lines place := by
  obtain ⟨content, hcontent, hpast, hlines, hplace⟩ := readChunk_grows hview.grows hcursor hexisted
  have hwithin := hview.within content hcontent
  have hend := hcursor.atLineEnd.mono hpast
  obtain ⟨hatEnd, hbelow⟩ := resume hend maxLines
  refine ⟨_, hplace, ⟨?_, hatEnd.mono hwithin⟩, ?_, Nat.le_add_right _ _⟩
  · intro saved hsaved
    cases hsaved
    rfl
  · rw [linesBelow_mono hatEnd.1 hwithin, linesBelow_mono hend.1 hwithin, hbelow, List.map_append, hlines]

theorem cursorOf_current (state : CollectorState) (source other : SourceName) {place : ChunkReader.Cursor} {saved : SourceState}
    (hsaved : sourceStateFromCursor place = .ok saved) :
    cursorOf (withSource state source.text saved) other.text
      = if other = source then some place else cursorOf state other.text := by
  rw [cursorOf_withSource, cursorFromSourceState_of_ok hsaved]
  by_cases hother : other = source
  · rw [if_pos hother, if_pos (by rw [hother])]
  · rw [if_neg hother, if_neg fun htext => hother (SourceName.text_injective htext)]

/-- A disk with a cursor that moved over passed lines. -/
theorem Covered.advance {time : Nat} {disk after : Disk} {source : SourceName} {lines : List Text} {place : ChunkReader.Cursor}
    (h : Covered toDatetime files P time disk) (hmoves : Moves files time source (disk.cursor source) lines place)
    (hcursor : ∀ other, after.cursor other = if other = source then some place else disk.cursor other)
    (hintact : after.stateFile ≠ .corrupt)
    (hlines : ∀ other, after.linesPassed other = disk.linesPassed other ++ if other = source then lines else [])
    (hhandled : ∀ passed ∈ after.passed, passed.Handled toDatetime P) : Covered toDatetime files P time after := by
  refine ⟨hintact, ?_, ?_, hhandled⟩
  · intro other
    rw [hcursor]
    by_cases hother : other = source
    · rw [if_pos hother, hother]
      exact hmoves.settled
    · rw [if_neg hother]
      exact h.settled other
  · intro other
    rw [hcursor, hlines]
    by_cases hother : other = source
    · rw [if_pos hother, if_pos hother, hother, h.lines source]
      exact hmoves.lines.symm
    · rw [if_neg hother, if_neg hother, List.append_nil]
      exact h.lines other

theorem Extends.advance {base disk after : Disk} {source : SourceName} {lines : List Text} {place : ChunkReader.Cursor} {time : Nat}
    (h : Extends base disk) (hmoves : Moves files time source (disk.cursor source) lines place)
    (hcursor : ∀ other, after.cursor other = if other = source then some place else disk.cursor other)
    (hpassed : disk.passed <+: after.passed) : Extends base after := by
  refine h.trans ⟨hpassed, ?_⟩
  intro other
  rw [hcursor]
  by_cases hother : other = source
  · rw [if_pos hother, hother]
    exact hmoves.forward
  · rw [if_neg hother]

/-! ### The invariant of a run -/

section Runs

variable {Ps : σ → UploadBatch → Prop}

/-- A disk and the other side as a crash would find them: covered, and beyond the disk of the start. -/
def Beyond (toDatetime : Text → Option Naive) (files : Files) (Ps : σ → UploadBatch → Prop) (time : Nat) (base : Disk)
    (moment : Disk × σ) : Prop := Covered toDatetime files (Ps moment.2) time moment.1 ∧ Extends base moment.1

/-- In a run from a disk: the memory has the cursors of the disk, and a crash now or before finds a covered disk beyond the first. -/
structure Sound (toDatetime : Text → Option Naive) (files : Files) (Ps : σ → UploadBatch → Prop) (start : Nat) (base : Disk)
    (run : Process σ) : Prop where
  current : ∀ source, cursorOf run.current source.text = run.disk.cursor source
  disk : Beyond toDatetime files Ps (start + run.reads) base (run.disk, run.session)
  moments : ∀ moment ∈ run.moments, Beyond toDatetime files Ps (start + run.reads) base moment

variable {start : Nat} {base : Disk} {run : Process σ}

theorem Beyond.mono {time later : Nat} {moment : Disk × σ} (h : Beyond toDatetime files Ps time base moment) (hle : time ≤ later) :
    Beyond toDatetime files Ps later base moment := ⟨h.1.mono hle, h.2⟩

theorem Beyond.congr {time : Nat} {disk other : Disk} {session later : σ} (h : Beyond toDatetime files Ps time base (disk, session))
    (hstate : other.stateFile = disk.stateFile) (hpassed : other.passed = disk.passed) (hsession : ∀ batch, Ps session batch → Ps later batch) :
    Beyond toDatetime files Ps time base (other, later) :=
  ⟨(h.1.congr hstate hpassed).imp hsession, h.2.congr hstate hpassed⟩

/-- Only the cursors, the disk, the other side, the moments and the number of reads matter. -/
theorem Sound.congr {other : Process σ} (h : Sound toDatetime files Ps start base run) (hcurrent : other.current = run.current)
    (hdisk : other.disk = run.disk) (hsession : other.session = run.session) (hmoments : other.moments = run.moments)
    (hreads : run.reads ≤ other.reads) : Sound toDatetime files Ps start base other := by
  refine ⟨?_, ?_, ?_⟩
  · intro source
    rw [hcurrent, hdisk]
    exact h.current source
  · rw [hdisk, hsession]
    exact h.disk.mono (Nat.add_le_add_left hreads _)
  · rw [hmoments]
    exact fun moment hmem => (h.moments moment hmem).mono (Nat.add_le_add_left hreads _)

theorem Sound.snoc (h : Sound toDatetime files Ps start base run) {moments : List (Disk × σ)}
    (hmoments : ∀ moment ∈ moments, Beyond toDatetime files Ps (start + run.reads) base moment) :
    ∀ moment ∈ run.moments ++ moments, Beyond toDatetime files Ps (start + run.reads) base moment := by
  intro moment hmem
  rcases List.mem_append.1 hmem with hold | hnew
  · exact h.moments moment hold
  · exact hmoments moment hnew

/-- A write that leaves the state file and what was passed. -/
theorem Sound.write (h : Sound toDatetime files Ps start base run) {disk : Disk} (hstate : disk.stateFile = run.disk.stateFile)
    (hpassed : disk.passed = run.disk.passed) : Sound toDatetime files Ps start base (run.write disk) := by
  have hdisk := h.disk.congr hstate hpassed fun _ hbatch => hbatch
  refine ⟨?_, hdisk, h.snoc ?_⟩
  · intro source
    exact (h.current source).trans (cursor_of_stateFile hstate source).symm
  · intro moment hmem
    rw [List.mem_singleton.1 hmem]
    exact hdisk

theorem Sound.withCache (h : Sound toDatetime files Ps start base run) (cache : PatronCache) :
    Sound toDatetime files Ps start base { run with cache } := h.congr rfl rfl rfl rfl (Nat.le_refl _)

/-- The saves of the quarantine are such writes, and requests keep what the other side has. -/
theorem Sound.afterDelivery (h : Sound toDatetime files Ps start base run) (chunkEvents : List SafeEvent) {delivery : Delivery.Run σ}
    (hsession : ∀ batch, Ps run.session batch → Ps delivery.session batch)
    (hmoments : ∀ moment ∈ delivery.moments, ∀ batch, Ps run.session batch → Ps moment.2 batch) :
    Sound toDatetime files Ps start base (run.afterDelivery chunkEvents delivery) := by
  refine ⟨h.current, h.disk.congr rfl rfl hsession, h.snoc ?_⟩
  intro moment hmem
  obtain ⟨entry, hentry, rfl⟩ := List.mem_map.1 hmem
  exact h.disk.congr rfl rfl (hmoments entry hentry)

/-- A write of the state file with one cursor moved. -/
theorem Sound.move (h : Sound toDatetime files Ps start base run) {source : SourceName} {lines : List Text} {place : ChunkReader.Cursor}
    {saved : SourceState} (hsaved : sourceStateFromCursor place = .ok saved)
    (hmoves : Moves files (start + run.reads) source (run.disk.cursor source) lines place) {after : Process σ}
    (hreads : after.reads = run.reads) (hsession : after.session = run.session)
    (hcurrent : after.current = withSource run.current source.text saved)
    (hstate : after.disk.stateFile = .document (withSource run.current source.text saved))
    (hlines : ∀ other, after.disk.linesPassed other = run.disk.linesPassed other ++ if other = source then lines else [])
    (hpassed : run.disk.passed <+: after.disk.passed) (hhandled : ∀ passed ∈ after.disk.passed, passed.Handled toDatetime (Ps run.session))
    (hmoments : after.moments = run.moments ++ [(after.disk, after.session)]) : Sound toDatetime files Ps start base after := by
  have hcursor : ∀ other, after.disk.cursor other = if other = source then some place else run.disk.cursor other := by
    intro other
    rw [Disk.cursor, Disk.state, hstate, ← h.current other]
    exact cursorOf_current _ _ _ hsaved
  have hdisk : Beyond toDatetime files Ps (start + run.reads) base (after.disk, after.session) := by
    rw [hsession]
    exact ⟨h.disk.1.advance hmoves hcursor (by rw [hstate]; exact nofun) hlines hhandled, h.disk.2.advance hmoves hcursor hpassed⟩
  refine ⟨?_, ?_, ?_⟩
  · intro other
    rw [hcurrent, hcursor, cursorOf_current _ _ _ hsaved, h.current other]
  · rw [hreads]
    exact hdisk
  · rw [hmoments, hreads]
    apply h.snoc
    intro moment hmem
    rw [List.mem_singleton.1 hmem]
    exact hdisk

/-! ### Chunk by chunk -/

/-- What a transformed chunk is. -/
theorem safeChunk_cases {ctx : TransformContext} {source : SourceName} {read : ChunkRead} {cache after : PatronCache} {chunk : SafeChunk}
    (h : safeChunk ctx toDatetime source read cache = .ok (chunk, after)) (hexisted : chunk.existed ≠ false) :
    read.existed = true ∧ chunk.cursor = read.cursor
      ∧ (chunk.empty = true ∧ read.lines = []
        ∨ chunk.empty = false ∧ transformChunk ctx (parseLines toDatetime source read.lines) cache = .ok (chunk.events, after)) := by
  rw [safeChunk] at h
  split at h
  · cases h
    exact absurd rfl hexisted
  · next hread =>
    rw [Bool.not_eq_false] at hread
    split at h
    · next hlines =>
      cases h
      exact ⟨hread, rfl, Or.inl ⟨rfl, hlines⟩⟩
    · cases htransform : transformChunk ctx (parseLines toDatetime source read.lines) cache with
      | error fault =>
          rw [htransform] at h
          cases h
      | ok pair =>
          rw [htransform] at h
          cases h
          exact ⟨hread, rfl, Or.inr ⟨rfl, rfl⟩⟩

theorem perm_unknown_known (quarantine : Quarantine) (produced : List SafeEvent) :
    (unknownEvents quarantine produced ++ knownEvents quarantine produced).Perm produced := by
  have hperm := List.filter_append_perm (fun event : SafeEvent => decide (event.eventKey ∉ quarantine.keysFor event.kind)) produced
  have hknown : (produced.filter fun event => !decide (event.eventKey ∉ quarantine.keysFor event.kind)) = knownEvents quarantine produced := by
    rw [knownEvents]
    congr 1
    funext event
    simp
  rw [hknown] at hperm
  exact hperm

theorem entry_of_known {quarantine : Quarantine} {produced : List SafeEvent} {event : SafeEvent}
    (h : event ∈ knownEvents quarantine produced) : ∃ entry ∈ quarantine.entries, entry.identity = (event.kind, event.eventKey) := by
  have hkey := Quarantine.mem_keysFor_iff.1 (of_decide_eq_true (List.mem_filter.1 h).2)
  obtain ⟨entry, hentry, hidentity⟩ := List.mem_map.1 (Quarantine.contains_iff.1 hkey)
  exact ⟨entry, hentry, hidentity⟩

variable {setup : Setup} {input : Input σ}

/-- What the other side has at the start of a delivery it has at its end and at every moment of it. -/
theorem session_delivered (setup : Setup) (hlasting : Lasting input.post setup.keyId Ps) (produced : List SafeEvent) :
    (∀ batch, Ps run.session batch → Ps (run.delivered setup input produced).2.session batch)
      ∧ ∀ moment ∈ (run.delivered setup input produced).2.moments, ∀ batch, Ps run.session batch → Ps moment.2 batch := by
  have hstable : ∀ session batch, (∀ sent, Ps run.session sent → Ps session sent) →
      ∀ sent, Ps run.session sent → Ps (input.post session batch).1 sent :=
    fun session batch hsession sent hsent => hlasting.stable _ _ _ (hsession sent hsent)
  exact (keeps_session input.post input.today setup.keyId hstable).deliverBatches input.post input.today
    (Slices.slices (unknownEvents run.quarantine produced) setup.maxEventsPerRequest) ⟨fun _ h => h, nofun⟩

/-- A delivered chunk is handled. -/
theorem handled_of_delivered (hmax : 0 < setup.maxEventsPerRequest) (hlasting : Lasting input.post setup.keyId Ps) {source : SourceName}
    {lines : List Text} {cache after : PatronCache} {produced : List SafeEvent}
    (htransform : transformChunk input.ctx (parseLines setup.toDatetime source lines) cache = .ok (produced, after))
    {delivery : Delivery.Run σ} (hdelivered : run.delivered setup input produced = (none, delivery)) :
    Passed.Handled setup.toDatetime (Ps delivery.session) ⟨source, lines, produced, run.quarantine.entries,
      knownEvents run.quarantine produced, delivery.accepted, delivery.quarantined.map Prod.fst⟩ := by
  have hhandles := handled_deliverBatches input.post input.today setup.keyId
    (Slices.slices (unknownEvents run.quarantine produced) setup.maxEventsPerRequest) ⟨run.session, [], [], run.quarantine, run.delivery, []⟩
  have hnone : ∀ sent ∈ (⟨run.session, [], [], run.quarantine, run.delivery, []⟩ : Delivery.Run σ).accepted, Ps run.session sent := nofun
  have haccepted := (hlasting.accepted input.post input.today).deliverBatches input.post input.today
    (Slices.slices (unknownEvents run.quarantine produced) setup.maxEventsPerRequest) hnone
  rw [Process.delivered, deliver] at hdelivered
  rw [hdelivered, Slices.flatten_slices _ hmax] at hhandles
  rw [hdelivered] at haccepted
  obtain ⟨left, hperm, hleft⟩ := hhandles
  rw [hleft rfl, List.append_nil] at hperm
  exact ⟨⟨input.ctx, cache, after, htransform⟩, (hperm.append_right _).trans (perm_unknown_known _ _), haccepted,
    fun event hevent => entry_of_known hevent⟩

/-- A committed chunk. -/
theorem Sound.commitChunk (h : Sound setup.toDatetime files Ps start base run) {source : SourceName} {place : ChunkReader.Cursor}
    {saved : SourceState} (hsaved : sourceStateFromCursor place = .ok saved) {passed : Passed}
    (hhandled : passed.Handled setup.toDatetime (Ps run.session)) (hsource : passed.source = source)
    (hmoves : Moves files (start + run.reads) source (run.disk.cursor source) passed.lines place) :
    Sound setup.toDatetime files Ps start base (run.commitChunk source saved passed) := by
  -- the two transactions of the cache leave the state file as it is
  have hhalf : Sound setup.toDatetime files Ps start base
      ({ run with cache := ledgerCommitted run.cache }.write { run.disk with cache := ledgerCommitted run.cache }) :=
    (h.withCache _).write rfl rfl
  have hcache : Sound setup.toDatetime files Ps start base
      ({ { run with cache := ledgerCommitted run.cache }.write { run.disk with cache := ledgerCommitted run.cache } with
          cache := (ledgerCommitted run.cache).commit }.write { run.disk with cache := (ledgerCommitted run.cache).commit }) :=
    (hhalf.withCache _).write rfl rfl
  refine hcache.move hsaved hmoves rfl rfl rfl rfl ?_ (List.prefix_append _ _) ?_ rfl
  · intro other
    rw [Disk.linesPassed, Disk.linesPassed, Process.commitChunk]
    show ((run.disk.passed ++ [passed]).filter fun passed => passed.source = other).flatMap Passed.lines = _
    rw [List.filter_append, List.flatMap_append]
    congr 1
    by_cases hother : other = source
    · rw [if_pos hother, List.filter_cons_of_pos (by rw [hsource, hother]; exact decide_eq_true rfl)]
      exact List.append_nil _
    · rw [if_neg hother, List.filter_cons_of_neg (by
        rw [hsource, decide_eq_true_eq]
        exact fun heq => hother heq.symm)]
      rfl
  · intro other hother
    rcases List.mem_append.1 hother with hold | hnew
    · exact h.disk.1.handled other hold
    · rw [List.mem_singleton.1 hnew]
      exact hhandled

theorem Sound.processSource (hmax : 0 < setup.maxEventsPerRequest) (hlasting : Lasting input.post setup.keyId Ps)
    (hsees : input.Sees files start) (source : SourceName) (budget : Nat)
    {cursor : Option ChunkReader.Cursor} (h : Sound setup.toDatetime files Ps start base run) (hcursor : cursor = run.disk.cursor source) :
    Sound setup.toDatetime files Ps start base (processSource setup input source budget cursor run).2.2 := by
  induction budget generalizing run cursor with
  | zero => exact h
  | succ budget ih =>
      subst hcursor
      rw [V2Run.processSource]
      dsimp only
      have hread : Sound setup.toDatetime files Ps start base { run with reads := run.reads + 1 } := h.congr rfl rfl rfl rfl (Nat.le_succ _)
      cases hchunk : safeChunk input.ctx setup.toDatetime source
          (readChunk setup.isWindows (input.views run.reads source) (run.disk.cursor source) setup.chunkLines) run.cache with
      | error fault => exact hread
      | ok pair =>
          obtain ⟨chunk, cache⟩ := pair
          dsimp only
          by_cases hexisted : chunk.existed = false
          · rw [if_pos hexisted]
            exact hread.congr rfl rfl rfl rfl (Nat.le_refl _)
          · rw [if_neg hexisted]
            obtain ⟨hexists, hplaced, hcontent⟩ := safeChunk_cases hchunk hexisted
            have hsettled := h.disk.1.settled source
            obtain ⟨place, hplace, hmoves⟩ := moves_of_read (hsees run.reads source) hsettled hexists
            rw [hplaced, hplace]
            have hafter : Sound setup.toDatetime files Ps start base { run with
                reads := run.reads + 1
                cache
                totals := { run.totals with
                  sourcesRotated := run.totals.sourcesRotated + chunk.rotated.toNat
                  sourcesTruncated := run.totals.sourcesTruncated + chunk.truncated.toNat } } := h.congr rfl rfl rfl rfl (Nat.le_succ _)
            rcases hcontent with ⟨hempty, hlines⟩ | ⟨hempty, htransform⟩
            · -- no complete line: at most the cursor of a new file is saved
              rw [if_pos hempty]
              dsimp only
              split
              · exact hafter
              · cases hsaved : sourceStateFromCursor place with
                | error error => exact hafter
                | ok saved =>
                    dsimp only
                    rw [hlines] at hmoves
                    refine hafter.move hsaved hmoves rfl rfl rfl rfl ?_ List.prefix_rfl h.disk.1.handled rfl
                    intro other
                    rw [ite_self, List.append_nil]
                    rfl
            · rw [hempty, if_neg Bool.false_ne_true]
              obtain ⟨hsession, hmoments⟩ := session_delivered setup hlasting chunk.events
              have hdelivery := hafter.afterDelivery chunk.events hsession hmoments
              split
              · next failure delivery hdelivered =>
                rw [hdelivered] at hdelivery
                exact hdelivery.congr rfl rfl rfl rfl (Nat.le_refl _)
              · next delivery hdelivered =>
                rw [hdelivered] at hdelivery
                dsimp only
                cases hsaved : sourceStateFromCursor place with
                | error error => exact hdelivery
                | ok saved =>
                    dsimp only
                    have hcommitted := hdelivery.commitChunk hsaved (handled_of_delivered hmax hlasting htransform hdelivered) rfl hmoves
                    split
                    · refine ih hcommitted ?_
                      rw [← hcommitted.current]
                      exact ((cursorOf_current _ source source hsaved).trans (if_pos rfl)).symm
                    · exact hcommitted

theorem Sound.processInOrder (hmax : 0 < setup.maxEventsPerRequest) (hlasting : Lasting input.post setup.keyId Ps)
    (hsees : input.Sees files start) (sources : List SourceName) (budget : Nat) (h : Sound setup.toDatetime files Ps start base run) :
    Sound setup.toDatetime files Ps start base (processInOrder setup input sources budget run).2 := by
  induction sources generalizing budget run with
  | nil => exact h
  | cons source sources ih =>
      rw [V2Run.processInOrder]
      split
      · exact ih budget h
      · have hsource := h.processSource hmax hlasting hsees source budget (h.current source)
        split
        · next left after hprocess =>
          rw [hprocess] at hsource
          exact ih left hsource
        · next ending left after _ hprocess =>
          rw [hprocess] at hsource
          exact hsource

/-- A run before its state file is loaded. -/
theorem sound_of_loaded {current : CollectorState} (hload : loadState run.disk.stateFile = .ok current)
    (hdisk : Beyond toDatetime files Ps (start + run.reads) base (run.disk, run.session))
    (hmoments : ∀ moment ∈ run.moments, Beyond toDatetime files Ps (start + run.reads) base moment) :
    Sound toDatetime files Ps start base { run with current } := by
  refine ⟨?_, hdisk, hmoments⟩
  intro source
  rw [Disk.cursor, Disk.state, hload]

/-- The writes at the start of a run leave the state file and what was passed. -/
theorem begin_moments (session : σ) (disk : Disk) : ∀ moment ∈ (begin setup input session disk).moments,
    moment.1.stateFile = disk.stateFile ∧ moment.1.passed = disk.passed ∧ moment.2 = session := by
  intro moment hmoment
  simp only [begin, Process.write, List.mem_append, List.mem_singleton] at hmoment
  rcases hmoment with ((rfl | rfl) | rfl) | rfl <;> exact ⟨rfl, rfl, rfl⟩

/-- A run on a covered disk: every moment of it is covered and beyond the disk. -/
theorem runOnce_sound (hmax : 0 < setup.maxEventsPerRequest) (hlasting : Lasting input.post setup.keyId Ps) (hsees : input.Sees files start)
    {session : σ} {disk : Disk} (hdisk : Covered setup.toDatetime files (Ps session) start disk) :
    ∀ moment ∈ (runOnce setup input session disk).2.moments,
      Beyond setup.toDatetime files Ps (start + (runOnce setup input session disk).2.reads) disk moment := by
  have hbase : Beyond setup.toDatetime files Ps start disk (disk, session) := ⟨hdisk, Extends.refl disk⟩
  have hbegin : Beyond setup.toDatetime files Ps start disk ((begin setup input session disk).disk, session) :=
    hbase.congr rfl rfl fun _ h => h
  have hmoments : ∀ moment ∈ (begin setup input session disk).moments, Beyond setup.toDatetime files Ps start disk moment := by
    intro moment hmoment
    obtain ⟨hstate, hpassed, hsession⟩ := begin_moments session disk moment hmoment
    obtain ⟨other, later⟩ := moment
    obtain rfl : later = session := hsession
    exact hbase.congr hstate hpassed fun _ h => h
  rw [runOnce, processSources]
  cases hload : loadState (begin setup input session disk).disk.stateFile with
  | error error => exact hmoments
  | ok current =>
      dsimp only
      split
      · exact hmoments
      · exact ((sound_of_loaded hload hbegin hmoments).processInOrder hmax hlasting hsees sourceOrder setup.maxChunksPerRun).moments

end Runs

/-! ### Every reachable disk -/

/-- The disks that a Collector can leave by a time with the state of the other side: a new one, and what a crash in a run on such a disk
finds, whatever the reads, the purges and the answers of the run. The other side may change in between. -/
inductive Reachable {σ : Type} (setup : Setup) (files : Files) (posts : Set (σ → UploadBatch → σ × Answer)) (others : σ → σ → Prop) :
    Nat → Disk × σ → Prop
  | installed (time : Nat) (cache : PatronCache) (session : σ) : Reachable setup files posts others time (⟨.missing, cache, [], []⟩, session)
  | changed {time later : Nat} {disk : Disk} {session changed : σ} (h : Reachable setup files posts others time (disk, session))
      (hle : time ≤ later) (hothers : others session changed) : Reachable setup files posts others later (disk, changed)
  | run {time : Nat} {disk : Disk} {session : σ} (h : Reachable setup files posts others time (disk, session)) (input : Input σ)
      (hpost : input.post ∈ posts) (hsees : input.Sees files time) {moment : Disk × σ}
      (hmoment : moment ∈ (runOnce setup input session disk).2.moments) :
      Reachable setup files posts others (time + (runOnce setup input session disk).2.reads) moment

theorem covered_installed (toDatetime : Text → Option Naive) (files : Files) (time : Nat) (cache : PatronCache) :
    Covered toDatetime files P time ⟨.missing, cache, [], []⟩ := by
  refine ⟨nofun, ?_, ?_, nofun⟩
  · intro source
    exact ⟨nofun, atLineEnd_zero _⟩
  · intro source
    have hzero : linesBelow (files.content time source) 0 = [] := linesBelow_zero _
    have hstart : startOffset (Disk.cursor ⟨.missing, cache, [], []⟩ source) = 0 := rfl
    rw [hstart, hzero]
    rfl

/-- What lasts of accepted batches is so on every reachable disk. -/
theorem Reachable.covered {setup : Setup} {posts : Set (σ → UploadBatch → σ × Answer)} {others : σ → σ → Prop}
    {Ps : σ → UploadBatch → Prop} (hmax : 0 < setup.maxEventsPerRequest) (hlasting : ∀ post ∈ posts, Lasting post setup.keyId Ps)
    (hothers : ∀ before after batch, others before after → Ps before batch → Ps after batch) {time : Nat} {moment : Disk × σ}
    (h : Reachable setup files posts others time moment) : Covered setup.toDatetime files (Ps moment.2) time moment.1 := by
  induction h with
  | installed time cache session => exact covered_installed _ _ _ _
  | changed h hle hchanged ih => exact (ih.mono hle).imp fun batch hbatch => hothers _ _ batch hchanged hbatch
  | run h input hpost hsees hmoment ih => exact (runOnce_sound hmax (hlasting _ hpost) hsees ih _ hmoment).1

/-- A line of `Checkins.txt`: an item without a barcode, of the destination 1. -/
def sampleLine : Bytes := "|||||1||||||||\n".toList.map fun c => UInt8.ofNat c.toNat

def sampleSetup : Setup := ⟨false, sampleUuid, 1000, 500, 20, 10000, ["checkins".toList], fun _ => some 0⟩

/-- The reads of these files, with any other side. -/
def sampleInput (post : σ → UploadBatch → σ × Answer) : Input σ where
  ctx := sampleContext
  today := []
  cutoff := []
  views _ _ := ⟨⟨some ⟨0, 0⟩, some sampleLine.length, some sampleLine⟩, some sampleLine.length⟩
  keepPatron _ := true
  keepHold _ := true
  post := post

/-- The other side answers 200 to everything. -/
def accepting (session : Unit) (_ : UploadBatch) : Unit × Answer :=
  (session, .response 200 (some (.object [("status".toList, .text "success".toList)])))

end V2Run

end SortView
