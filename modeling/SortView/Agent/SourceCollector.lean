import SortView.Lib.Slices
import SortView.Agent.Events

/-!
# The collector of one source (`agent/runtime/collector.py`, `agent/spool.py`, `agent/state.py`)

`poll_once` reads new lines into a buffer, `_flush` installs the buffer as spool batches, and the cursor is
saved after the batches it covers. A call is modelled by its durable writes in order and the memory it
leaves, so that a crash is a prefix of the writes.
-/

namespace SortView

open PyText Reader Slices

namespace Agent

inductive BootstrapMode where
  | normal
  | replay
  | offset
  deriving DecidableEq

/-- The parameters of one collector. Clock readings are in ticks. -/
structure Config (δ : Type) where
  source : SourceName
  path : Text
  bootstrapMode : BootstrapMode
  bootstrapOffset : Option Nat
  agentId : Text
  customerId : Int
  branchId : Int
  batchMaxEvents : Nat
  batchMaxSeconds : Int
  toDatetime : Text → Option Naive
  strTimestamp : Naive → Text
  sha256 : Text → δ

structure Event (δ : Type) where
  payload : Payload
  sourceEventId : δ
  deriving DecidableEq

/-! ### Durable writes -/

structure SpoolBatch (δ : Type) where
  sourceGeneration : Nat
  startOffset : Nat
  endOffset : Nat
  records : List (Event δ)
  deriving DecidableEq

structure SourceState where
  path : Text
  cursor : FileCursor
  generation : Nat
  deriving DecidableEq

/-- An installed batch, or the saved position of the source. -/
inductive Write (δ : Type) where
  | batch (batch : SpoolBatch δ)
  | state (state : SourceState)

inductive Failure where
  | emptyBatch
  | noProgress
  | batchOffsetTooLarge
  | stateOffsetTooLarge
  | badAgentId
  | noFinalEndOffset
  | sourceUnreadable
  deriving DecidableEq

def maxBatchOffset : Nat := 10 ^ 20 - 1

def maxPlausibleOffset : Nat := 10 ^ 18

variable {δ : Type}

/-- The checks of `write_batch` before anything is written. -/
def checkBatch (batch : SpoolBatch δ) : Except Failure (SpoolBatch δ) :=
  if batch.records = [] then .error .emptyBatch
  else if batch.endOffset ≤ batch.startOffset then .error .noProgress
  else if maxBatchOffset < batch.startOffset ∨ maxBatchOffset < batch.endOffset then .error .batchOffsetTooLarge
  else .ok batch

/-- `update_source`, with the check of `SourceState.__post_init__`. -/
def sourceState (path : Text) (cursor : FileCursor) (generation : Nat) : Except Failure SourceState :=
  if maxPlausibleOffset < cursor.offset then .error .stateOffsetTooLarge else .ok ⟨path, cursor, generation⟩

/-- `advance_generation` for a source that has a position. -/
def advanceGeneration (prior : Nat) (rotated truncated : Bool) : Nat :=
  if rotated || truncated then prior + 1 else prior

/-! ### Memory -/

inductive DiscontinuityKind where
  | rotated
  | truncated
  deriving DecidableEq

structure PendingDiscontinuity where
  kind : DiscontinuityKind
  signature : Option Token
  deriving DecidableEq

structure Memory (δ : Type) where
  readCursor : Option FileCursor
  generation : Nat
  buffer : List (Nat × Event δ)
  bufferGeneration : Option Nat
  bufferFinalEndOffset : Option Nat
  bufferStartedAt : Option Int
  pendingCursor : Option FileCursor
  bootstrapped : Bool
  pendingDiscontinuity : Option PendingDiscontinuity

def Memory.fresh : Memory δ := ⟨none, 0, [], none, none, none, none, false, none⟩

/-- The memory after its buffer has been installed. -/
def Memory.clear (memory : Memory δ) : Memory δ :=
  { memory with buffer := [], bufferGeneration := none, bufferStartedAt := none }

/-- What a call did: its durable writes in order, the memory it left, and its value unless it raised. -/
structure Outcome (δ α : Type) where
  writes : List (Write δ)
  memory : Memory δ
  value : Except Failure α

def Outcome.bind {α β : Type} (first : Outcome δ α) (next : Memory δ → α → Outcome δ β) : Outcome δ β :=
  match first.value with
  | .error failure => ⟨first.writes, first.memory, .error failure⟩
  | .ok value =>
      let second := next first.memory value
      ⟨first.writes ++ second.writes, second.memory, second.value⟩

/-- The part of a cycle report that depends on the data. -/
structure CycleReport where
  existed : Bool
  rotated : Bool
  truncated : Bool
  eventsRead : Nat
  eventsFlushed : Nat
  spoolBatchesWritten : Nat
  statePersisted : Bool
  sourceMissing : Bool
  pendingDiscontinuity : Bool

/-! ### Flushing -/

variable (cfg : Config δ)

def persistState (memory : Memory δ) : Outcome δ Bool :=
  match memory.pendingCursor with
  | none => ⟨[], memory, .ok false⟩
  | some cursor =>
      match sourceState cfg.path cursor memory.generation with
      | .error failure => ⟨[], memory, .error failure⟩
      | .ok state => ⟨[.state state], memory, .ok true⟩

def shouldFlush (memory : Memory δ) (now : Int) : Bool :=
  if memory.buffer.isEmpty then false
  else if cfg.batchMaxEvents ≤ memory.buffer.length then true
  else match memory.bufferStartedAt with
    | none => false
    | some started => decide (cfg.batchMaxSeconds ≤ now - started)

/-- The offset of the first event of a chunk. -/
def chunkStart (chunk : List (Nat × Event δ)) : Nat := (chunk.head?.map Prod.fst).getD 0

/-- The batches of a flush: each ends where the next one starts, the last one where the buffer ends. -/
def batchesOf (generation finalEnd : Nat) : List (List (Nat × Event δ)) → List (SpoolBatch δ)
  | [] => []
  | [chunk] => [⟨generation, chunkStart chunk, finalEnd, chunk.map Prod.snd⟩]
  | chunk :: next :: chunks =>
      ⟨generation, chunkStart chunk, chunkStart next, chunk.map Prod.snd⟩
        :: batchesOf generation finalEnd (next :: chunks)

/-- The loop of `_flush`: batch after batch until one is refused. -/
def writeBatches : List (SpoolBatch δ) → List (Write δ) × Except Failure Unit
  | [] => ([], .ok ())
  | batch :: batches =>
      match checkBatch batch with
      | .error failure => ([], .error failure)
      | .ok batch =>
          let rest := writeBatches batches
          (.batch batch :: rest.1, rest.2)

/-- `_flush`: the events flushed, the batches written, and whether the position was saved. -/
def flush (memory : Memory δ) : Outcome δ (Nat × Nat × Bool) :=
  if memory.buffer.isEmpty then ⟨[], memory, .ok (0, 0, false)⟩
  else
    let generation := memory.bufferGeneration.getD memory.generation
    let chunks := slices memory.buffer cfg.batchMaxEvents
    match memory.bufferFinalEndOffset with
    | none => ⟨[], memory, .error .noFinalEndOffset⟩
    | some finalEnd =>
        let written := writeBatches (batchesOf generation finalEnd chunks)
        match written.2 with
        | .error failure => ⟨written.1, memory, .error failure⟩
        | .ok () =>
            let persisted := persistState cfg memory.clear
            ⟨written.1 ++ persisted.writes, persisted.memory,
              persisted.value.map fun saved => (memory.buffer.length, chunks.length, saved)⟩

def forceFlush (memory : Memory δ) : Outcome δ (Nat × Nat × Bool) := flush cfg memory

/-- The flush at the end of a cycle, when a threshold is reached. -/
def flushIfDue (memory : Memory δ) (now : Int) : Outcome δ (Nat × Nat × Bool) :=
  if shouldFlush cfg memory now then flush cfg memory else ⟨[], memory, .ok (0, 0, false)⟩

/-! ### Polling -/

/-- What one poll meets: the file as the tailer sees it, the file as a bootstrap sees it, the clock when the
first event enters an empty buffer, and the clock when the thresholds are checked. -/
structure PollInput where
  view : FileView
  boot : FileView
  startedAt : Int
  now : Int

/-- `_bootstrap_if_needed`: whether the source is bootstrapped now. -/
def bootstrapIfNeeded (prior : Option SourceState) (boot : FileView) (memory : Memory δ) : Outcome δ Bool :=
  if memory.bootstrapped then ⟨[], memory, .ok true⟩
  else match prior with
    | some saved =>
        ⟨[], { memory with readCursor := some saved.cursor, generation := saved.generation, bootstrapped := true },
          .ok true⟩
    | none =>
        match cfg.bootstrapMode with
        | .replay => ⟨[], { memory with readCursor := none, generation := 0, bootstrapped := true }, .ok true⟩
        | .offset =>
            match boot.identity with
            | none => ⟨[], memory, .ok false⟩
            | some identity =>
                ⟨[], { memory with
                    readCursor := some ⟨some identity, cfg.bootstrapOffset.getD 0⟩
                    generation := 0
                    bootstrapped := true }, .ok true⟩
        | .normal =>
            match boot.identity with
            | none => ⟨[], memory, .ok false⟩
            | some identity =>
                match boot.size with
                | none => ⟨[], memory, .error .sourceUnreadable⟩
                | some eofOffset =>
                    let cursor : FileCursor := ⟨some identity, eofOffset⟩
                    let seeded := { memory with readCursor := some cursor, generation := 0, bootstrapped := true }
                    match sourceState cfg.path cursor 0 with
                    | .error failure => ⟨[], seeded, .error failure⟩
                    | .ok state => ⟨[.state state], seeded, .ok true⟩

def candidateOf (result : TailResult) : Option PendingDiscontinuity :=
  if result.rotated then some ⟨.rotated, result.cursor.identity⟩
  else if result.truncated then some ⟨.truncated, none⟩
  else none

/-- The event of one row. -/
def eventOf (generation offset : Nat) (row : ParsedRow) : Option (Event δ) :=
  (computeSourceEventId cfg.sha256 cfg.agentId cfg.source generation offset).map fun sourceEventId =>
    ⟨buildEvent cfg.strTimestamp cfg.customerId cfg.branchId row, sourceEventId⟩

/-- The loop that puts the events of one read into the buffer. -/
def appendEvents (startedAt : Int) : List (Nat × ParsedRow) → Memory δ → Memory δ × Except Failure Unit
  | [], memory => (memory, .ok ())
  | (offset, row) :: rows, memory =>
      match eventOf cfg memory.generation offset row with
      | none => (memory, .error .badAgentId)
      | some event =>
          let started :=
            if memory.bufferGeneration.isNone then
              { memory with bufferGeneration := some memory.generation, bufferStartedAt := some startedAt }
            else memory
          appendEvents startedAt rows { started with buffer := started.buffer ++ [(offset, event)] }

/-- The rows of one read, with the offsets of their lines. -/
def rowsOf (result : TailResult) : List (Nat × ParsedRow) :=
  if result.lines.isEmpty then []
  else
    let parsed := parseLinesWithOffsets cfg.toDatetime cfg.source (result.lineOffsets.zip result.lines)
    parsed.2.zip parsed.1

/-- Both cursors and the end of the buffer move to where a read stopped. -/
def Memory.moveTo (memory : Memory δ) (cursor : FileCursor) : Memory δ :=
  { memory with
    bufferFinalEndOffset := some cursor.offset
    pendingCursor := some cursor
    readCursor := some cursor }

/-- The end of a cycle that trusts its read: buffer the events, move the cursors, save a position that
nothing depends on, and flush if due. -/
def acceptRead (input : PollInput) (result : TailResult) (memory : Memory δ) : Outcome δ CycleReport :=
  match appendEvents cfg input.startedAt (rowsOf cfg result) memory with
  | (memory, .error failure) => ⟨[], memory, .error failure⟩
  | (memory, .ok ()) =>
      let moved := memory.moveTo result.cursor
      let eventsRead := (rowsOf cfg result).length
      let idle : Outcome δ Bool :=
        if eventsRead = 0 ∧ moved.buffer = [] then persistState cfg moved else ⟨[], moved, .ok false⟩
      idle.bind fun memory persisted =>
        (flushIfDue cfg memory input.now).bind fun memory flushed =>
          ⟨[], memory, .ok ⟨true, result.rotated, result.truncated, eventsRead, flushed.1, flushed.2.1,
            persisted || flushed.2.2, false, false⟩⟩

/-- The rest of a cycle once the source is bootstrapped. -/
def pollRead (input : PollInput) (memory : Memory δ) : Outcome δ CycleReport :=
  let result := readNewLines input.view memory.readCursor
  if result.existed = false then
    (flushIfDue cfg memory input.now).bind fun memory flushed =>
      ⟨[], memory, .ok ⟨false, false, false, 0, flushed.1, flushed.2.1, flushed.2.2, true, false⟩⟩
  else match candidateOf result with
    | none => acceptRead cfg input result { memory with pendingDiscontinuity := none }
    | some candidate =>
        if memory.pendingDiscontinuity ≠ some candidate then
          -- first sighting: the read is discarded and cursor and buffer stay as they are
          (flushIfDue cfg { memory with pendingDiscontinuity := some candidate } input.now).bind
            fun memory flushed =>
              ⟨[], memory, .ok ⟨true, false, false, 0, flushed.1, flushed.2.1, flushed.2.2, false, true⟩⟩
        else
          (flush cfg { memory with pendingDiscontinuity := none }).bind fun memory _ =>
            acceptRead cfg input result
              { memory with generation := advanceGeneration memory.generation result.rotated result.truncated }

def pollOnce (prior : Option SourceState) (input : PollInput) (memory : Memory δ) : Outcome δ CycleReport :=
  (bootstrapIfNeeded cfg prior input.boot memory).bind fun memory bootstrapped =>
    if bootstrapped then pollRead cfg input memory
    else ⟨[], memory, .ok ⟨false, false, false, 0, 0, 0, false, true, false⟩⟩

end Agent

end SortView
