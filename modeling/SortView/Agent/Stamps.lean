import SortView.Agent.SourceCollector

/-!
# Stamped event ids

The collector computes an event id and never looks at it. So the ids may carry a stamp, here the string that
was hashed and the period of the file the line was read in, and forgetting the stamps of a stamped collector
gives the collector.
-/

namespace SortView

open PyText Reader Slices

namespace Agent

variable {α β : Type} (f : α → β)

/-! ### Renaming ids -/

def Event.map (event : Event α) : Event β := ⟨event.payload, f event.sourceEventId⟩

def SpoolBatch.map (batch : SpoolBatch α) : SpoolBatch β :=
  ⟨batch.sourceGeneration, batch.startOffset, batch.endOffset, batch.records.map (Event.map f)⟩

def Write.map : Write α → Write β
  | .batch installed => .batch (installed.map f)
  | .state saved => .state saved

def mapEntries (entries : List (Nat × Event α)) : List (Nat × Event β) :=
  entries.map fun entry => (entry.1, entry.2.map f)

def Memory.map (memory : Memory α) : Memory β where
  readCursor := memory.readCursor
  generation := memory.generation
  buffer := mapEntries f memory.buffer
  bufferGeneration := memory.bufferGeneration
  bufferFinalEndOffset := memory.bufferFinalEndOffset
  bufferStartedAt := memory.bufferStartedAt
  pendingCursor := memory.pendingCursor
  bootstrapped := memory.bootstrapped
  pendingDiscontinuity := memory.pendingDiscontinuity

def Outcome.map {γ : Type} (outcome : Outcome α γ) : Outcome β γ :=
  ⟨outcome.writes.map (Write.map f), outcome.memory.map f, outcome.value⟩

def Config.map (cfg : Config α) : Config β where
  source := cfg.source
  path := cfg.path
  bootstrapMode := cfg.bootstrapMode
  bootstrapOffset := cfg.bootstrapOffset
  agentId := cfg.agentId
  customerId := cfg.customerId
  branchId := cfg.branchId
  batchMaxEvents := cfg.batchMaxEvents
  batchMaxSeconds := cfg.batchMaxSeconds
  toDatetime := cfg.toDatetime
  strTimestamp := cfg.strTimestamp
  sha256 := fun text => f (cfg.sha256 text)

variable {f} (cfg : Config α) (memory : Memory α)

theorem Outcome.bind_map {γ ε : Type} (first : Outcome α γ) {next : Memory α → γ → Outcome α ε}
    {next' : Memory β → γ → Outcome β ε} (hnext : ∀ memory value, next' (memory.map f) value = (next memory value).map f) :
    (first.map f).bind next' = (first.bind next).map f := by
  rw [Outcome.bind, Outcome.bind]
  cases hvalue : first.value with
  | error failure => simp only [Outcome.map, hvalue]
  | ok value => simp only [Outcome.map, hvalue, hnext, List.map_append]

theorem chunkStart_map (chunk : List (Nat × Event α)) : chunkStart (mapEntries f chunk) = chunkStart chunk := by
  cases chunk with
  | nil => rfl
  | cons entry chunk => rfl

theorem batchesOf_map (generation finalEnd : Nat) (chunks : List (List (Nat × Event α))) :
    batchesOf generation finalEnd (chunks.map (mapEntries f))
      = (batchesOf generation finalEnd chunks).map (SpoolBatch.map f) := by
  have hrecords : ∀ chunk : List (Nat × Event α),
      (mapEntries f chunk).map Prod.snd = (chunk.map Prod.snd).map (Event.map f) := by
    intro chunk
    rw [mapEntries, List.map_map, List.map_map]
    rfl
  induction chunks with
  | nil => rfl
  | cons chunk chunks ih =>
      cases chunks with
      | nil => simp [batchesOf, SpoolBatch.map, chunkStart_map, hrecords]
      | cons next chunks =>
          rw [List.map_cons, List.map_cons, batchesOf, chunkStart_map, chunkStart_map, hrecords, ← List.map_cons, ih]
          rfl

theorem writeBatches_map (batches : List (SpoolBatch α)) :
    writeBatches (batches.map (SpoolBatch.map f))
      = ((writeBatches batches).1.map (Write.map f), (writeBatches batches).2) := by
  induction batches with
  | nil => rfl
  | cons batch batches ih =>
      rw [List.map_cons, writeBatches, writeBatches]
      have hcheck : checkBatch (batch.map f) = (checkBatch batch).map (SpoolBatch.map f) := by
        rw [checkBatch, checkBatch, SpoolBatch.map]
        simp only [List.map_eq_nil_iff]
        split_ifs <;> rfl
      rw [hcheck]
      cases checkBatch batch with
      | error failure => rfl
      | ok checked =>
          simp only [Except.map, ih]
          rfl

theorem slices_map {γ ε : Type} (g : γ → ε) (items : List γ) (size : Nat) :
    slices (items.map g) size = (slices items size).map (List.map g) := by
  simp [slices, slice, List.map_drop, List.map_take, Function.comp_def]

theorem persistState_map : persistState (cfg.map f) (memory.map f) = (persistState cfg memory).map f := by
  rw [persistState, persistState]
  cases hpending : memory.pendingCursor with
  | none => simp only [Outcome.map, Memory.map, hpending, List.map_nil]
  | some cursor =>
      simp only [Memory.map, hpending, Config.map]
      cases sourceState cfg.path cursor memory.generation with
      | error failure => simp only [Outcome.map, Memory.map, hpending, List.map_nil]
      | ok state => simp only [Outcome.map, Memory.map, hpending, List.map_cons, List.map_nil, Write.map]

theorem flush_map : flush (cfg.map f) (memory.map f) = (flush cfg memory).map f := by
  rw [flush, flush]
  have hbuffer : (memory.map f).buffer = mapEntries f memory.buffer := rfl
  have hempty : (mapEntries f memory.buffer).isEmpty = memory.buffer.isEmpty := List.isEmpty_map
  rw [hbuffer, hempty]
  split_ifs
  · rfl
  · have hchunks : slices (mapEntries f memory.buffer) (cfg.map f).batchMaxEvents
        = (slices memory.buffer cfg.batchMaxEvents).map (mapEntries f) := slices_map _ _ _
    have hclear : (memory.map f).clear = memory.clear.map f := rfl
    have hlength : (mapEntries f memory.buffer).length = memory.buffer.length := List.length_map _
    have hfinal : (memory.map f).bufferFinalEndOffset = memory.bufferFinalEndOffset := rfl
    simp only [hchunks, hclear, hlength, hfinal, List.length_map, persistState_map]
    cases memory.bufferFinalEndOffset with
    | none => rfl
    | some finalEnd =>
        have hgeneration : (memory.map f).bufferGeneration.getD (memory.map f).generation
            = memory.bufferGeneration.getD memory.generation := rfl
        simp only [hgeneration, batchesOf_map, writeBatches_map]
        cases (writeBatches (batchesOf (memory.bufferGeneration.getD memory.generation) finalEnd
          (slices memory.buffer cfg.batchMaxEvents))).2 with
        | error failure => rfl
        | ok value => simp only [Outcome.map, List.map_append]

theorem flushIfDue_map (now : Int) : flushIfDue (cfg.map f) (memory.map f) now = (flushIfDue cfg memory now).map f := by
  rw [flushIfDue, flushIfDue]
  have hshould : shouldFlush (cfg.map f) (memory.map f) now = shouldFlush cfg memory now := by
    rw [shouldFlush, shouldFlush]
    simp only [Memory.map, Config.map, mapEntries, List.isEmpty_map, List.length_map]
    rfl
  rw [hshould]
  split_ifs
  · exact flush_map cfg memory
  · rfl

theorem appendEvents_map (startedAt : Int) (entries : List (Nat × ParsedRow)) :
    appendEvents (cfg.map f) startedAt entries (memory.map f)
      = ((appendEvents cfg startedAt entries memory).1.map f, (appendEvents cfg startedAt entries memory).2) := by
  induction entries generalizing memory with
  | nil => rfl
  | cons entry entries ih =>
      obtain ⟨offset, row⟩ := entry
      have hevent : eventOf (cfg.map f) memory.generation offset row
          = (eventOf cfg memory.generation offset row).map (Event.map f) := by
        simp only [eventOf, computeSourceEventId, Option.map_map]
        rfl
      have hgeneration : (memory.map f).generation = memory.generation := rfl
      rw [appendEvents, appendEvents, hgeneration, hevent]
      cases eventOf cfg memory.generation offset row with
      | none => rfl
      | some event =>
          dsimp only [Option.map]
          rw [← ih]
          refine congrArg (appendEvents (cfg.map f) startedAt entries) ?_
          have hsame : (memory.map f).bufferGeneration = memory.bufferGeneration := rfl
          rw [hsame]
          split_ifs <;> simp [Memory.map, mapEntries]

theorem acceptRead_map (input : PollInput) (result : TailResult) :
    acceptRead (cfg.map f) input result (memory.map f) = (acceptRead cfg input result memory).map f := by
  have hrows : rowsOf (cfg.map f) result = rowsOf cfg result := rfl
  rw [acceptRead, acceptRead, hrows, appendEvents_map]
  rcases appendEvents cfg input.startedAt (rowsOf cfg result) memory with ⟨memory, failure | value⟩
  · rfl
  · dsimp only
    have hmoved : (memory.map f).moveTo result.cursor = (memory.moveTo result.cursor).map f := rfl
    rw [hmoved]
    generalize memory.moveTo result.cursor = moved
    have hempty : (moved.map f).buffer = [] ↔ moved.buffer = [] := List.map_eq_nil_iff
    have hidle : (if (rowsOf cfg result).length = 0 ∧ (moved.map f).buffer = [] then persistState (cfg.map f) (moved.map f)
          else (⟨[], moved.map f, .ok false⟩ : Outcome β Bool))
        = Outcome.map f (if (rowsOf cfg result).length = 0 ∧ moved.buffer = [] then persistState cfg moved
          else ⟨[], moved, .ok false⟩) := by
      simp only [hempty]
      split_ifs
      · exact persistState_map cfg moved
      · rfl
    rw [hidle]
    refine Outcome.bind_map _ fun memory persisted => ?_
    rw [flushIfDue_map cfg memory]
    exact Outcome.bind_map _ fun _ _ => rfl

theorem pollRead_map (input : PollInput) : pollRead (cfg.map f) input (memory.map f) = (pollRead cfg input memory).map f := by
  rw [pollRead, pollRead]
  have hread : (memory.map f).readCursor = memory.readCursor := rfl
  have hpending : (memory.map f).pendingDiscontinuity = memory.pendingDiscontinuity := rfl
  simp only [hread, hpending]
  split_ifs
  · rw [flushIfDue_map]
    exact Outcome.bind_map _ fun _ _ => rfl
  · cases candidateOf (readNewLines input.view memory.readCursor) with
    | none => exact acceptRead_map cfg { memory with pendingDiscontinuity := none } input _
    | some candidate =>
        dsimp only
        split_ifs
        · refine (congrArg (Outcome.bind · _)
            (flushIfDue_map cfg { memory with pendingDiscontinuity := some candidate } input.now)).trans ?_
          exact Outcome.bind_map _ fun _ _ => rfl
        · refine (congrArg (Outcome.bind · _)
            (flush_map cfg { memory with pendingDiscontinuity := none })).trans ?_
          refine Outcome.bind_map _ fun flushed _ => ?_
          let advanced : Memory α := { flushed with
            generation := advanceGeneration flushed.generation
              (readNewLines input.view memory.readCursor).rotated (readNewLines input.view memory.readCursor).truncated }
          exact acceptRead_map cfg advanced input _

theorem bootstrapIfNeeded_map (prior : Option SourceState) (boot : FileView) :
    bootstrapIfNeeded (cfg.map f) prior boot (memory.map f) = (bootstrapIfNeeded cfg prior boot memory).map f := by
  unfold bootstrapIfNeeded
  have hboot : (memory.map f).bootstrapped = memory.bootstrapped := rfl
  have hmode : (cfg.map f).bootstrapMode = cfg.bootstrapMode := rfl
  rw [hboot, hmode]
  split_ifs
  · rfl
  · cases prior with
    | some saved => rfl
    | none =>
        cases cfg.bootstrapMode with
        | replay => rfl
        | offset =>
            dsimp only
            cases boot.identity <;> rfl
        | normal =>
            dsimp only
            cases boot.identity with
            | none => rfl
            | some identity =>
                dsimp only
                cases boot.size with
                | none => rfl
                | some eofOffset =>
                    have hpath : (cfg.map f).path = cfg.path := rfl
                    dsimp only
                    rw [hpath]
                    cases sourceState cfg.path ⟨some identity, eofOffset⟩ 0 <;> rfl

/-- The collector does not look at its ids: renaming them before or after a poll is the same. -/
theorem pollOnce_map (prior : Option SourceState) (input : PollInput) :
    pollOnce (cfg.map f) prior input (memory.map f) = (pollOnce cfg prior input memory).map f := by
  rw [pollOnce, pollOnce, bootstrapIfNeeded_map]
  refine Outcome.bind_map _ fun memory bootstrapped => ?_
  cases bootstrapped with
  | true => exact pollRead_map cfg memory input
  | false => rfl

/-! ### Stamps -/

/-- An id with what it names: the string that was hashed, and the period of the file that was read. -/
structure Stamp (δ : Type) where
  id : δ
  text : Text
  period : Nat
  deriving DecidableEq

variable {δ : Type}

/-- The collector while the file is in a period. -/
def Config.stamped (cfg : Config δ) (period : Nat) : Config (Stamp δ) :=
  { cfg.map fun id => (⟨id, [], period⟩ : Stamp δ) with sha256 := fun text => ⟨cfg.sha256 text, text, period⟩ }

theorem Config.map_stamped (cfg : Config δ) (period : Nat) : (cfg.stamped period).map Stamp.id = cfg := rfl

/-- Without the stamps a stamped poll is the poll. -/
theorem pollOnce_stamped (cfg : Config δ) (period : Nat) (prior : Option SourceState) (input : PollInput)
    (memory : Memory (Stamp δ)) :
    (pollOnce (cfg.stamped period) prior input memory).map Stamp.id = pollOnce cfg prior input (memory.map Stamp.id) :=
  (pollOnce_map (cfg.stamped period) memory prior input).symm

theorem forceFlush_stamped (cfg : Config δ) (period : Nat) (memory : Memory (Stamp δ)) :
    (forceFlush (cfg.stamped period) memory).map Stamp.id = forceFlush cfg (memory.map Stamp.id) :=
  (flush_map (cfg.stamped period) memory).symm

end Agent

end SortView
