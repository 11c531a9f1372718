import SortView.Agent.SourceCollector

/-!
# The saved cursor never leads the spool

The rows of a file, the events they become, and the invariant that ties the spool, the saved position and
the buffer of a collector to them.
-/

namespace SortView

open PyText ByteLines Reader Slices

namespace Agent

variable {δ : Type} (cfg : Config δ)

/-! ### The rows and events of a file -/

def rowsOfLines (lines : List (Nat × Bytes)) : List (Nat × ParsedRow) :=
  lines.filterMap fun entry => (parseLine cfg.toDatetime cfg.source (decodeLine entry.2)).map fun row => (entry.1, row)

/-- The rows the parser makes of the complete lines of a file, with the offsets of the lines. -/
def rows (content : Bytes) : List (Nat × ParsedRow) := rowsOfLines cfg (numberedLines content)

/-- The event of a row, with the offset of its line. -/
def eventAt (generation : Nat) (entry : Nat × ParsedRow) : Option (Nat × Event δ) :=
  (eventOf cfg generation entry.1 entry.2).map fun event => (entry.1, event)

def events (generation : Nat) (content : Bytes) : List (Nat × Event δ) :=
  (rows cfg content).filterMap (eventAt cfg generation)

/-- Every row of the range has an event. -/
def Total (generation : Nat) (content : Bytes) (low high : Nat) : Prop :=
  ∀ entry ∈ between (rows cfg content) low high, eventAt cfg generation entry ≠ none

section Rows

variable {cfg} {content later : Bytes} {offset : Nat}

theorem fst_of_eventAt {generation : Nat} {entry : Nat × ParsedRow} {event : Nat × Event δ}
    (h : eventAt cfg generation entry = some event) : event.1 = entry.1 := by
  obtain ⟨_, -, rfl⟩ := Option.map_eq_some_iff.1 h
  rfl

theorem pairwise_rowsOfLines {lines : List (Nat × Bytes)} (h : lines.Pairwise fun left right => left.1 < right.1) :
    (rowsOfLines cfg lines).Pairwise fun left right => left.1 < right.1 := by
  rw [rowsOfLines]
  refine List.Pairwise.filterMap _ ?_ h
  intro left right hlt row hrow row' hrow'
  obtain ⟨_, -, rfl⟩ := Option.map_eq_some_iff.1 hrow
  obtain ⟨_, -, rfl⟩ := Option.map_eq_some_iff.1 hrow'
  exact hlt

theorem pairwise_rows (content : Bytes) : (rows cfg content).Pairwise fun left right => left.1 < right.1 :=
  pairwise_rowsOfLines (pairwise_numberedLines content)

theorem pairwise_events (generation : Nat) (content : Bytes) :
    (events cfg generation content).Pairwise fun left right => left.1 < right.1 := by
  refine List.Pairwise.filterMap _ ?_ (pairwise_rows content)
  intro left right hlt event hevent event' hevent'
  rw [fst_of_eventAt hevent, fst_of_eventAt hevent']
  exact hlt

/-- The events of a range are those of its rows. -/
theorem between_events (generation low high : Nat) (content : Bytes) :
    between (events cfg generation content) low high
      = (between (rows cfg content) low high).filterMap (eventAt cfg generation) := by
  rw [events]
  induction rows cfg content with
  | nil => rfl
  | cons entry entries ih =>
      rw [List.filterMap_cons, between_cons]
      cases hevent : eventAt cfg generation entry with
      | none =>
          dsimp only
          rw [ih]
          split
          · rw [List.filterMap_cons, hevent]
          · rfl
      | some event =>
          dsimp only
          rw [between_cons, fst_of_eventAt hevent, ih]
          split
          · rw [List.filterMap_cons, hevent]
          · rfl

theorem fst_mem_of_mem_rowsOfLines {lines : List (Nat × Bytes)} {entry : Nat × ParsedRow}
    (hmem : entry ∈ rowsOfLines cfg lines) : ∃ line ∈ lines, line.1 = entry.1 := by
  obtain ⟨line, hline, hrow⟩ := List.mem_filterMap.1 hmem
  obtain ⟨_, -, rfl⟩ := Option.map_eq_some_iff.1 hrow
  exact ⟨line, hline, rfl⟩

/-- At the end of a line the rows fall into those below and those after it. -/
theorem rows_split (cfg : Config δ) (h : AtLineEnd content offset) :
    rows cfg content
        = rowsOfLines cfg (numbered 0 (linesBelow content offset))
          ++ rowsOfLines cfg (numbered offset (splitLines (content.drop offset)).1)
      ∧ (∀ entry ∈ rowsOfLines cfg (numbered 0 (linesBelow content offset)), entry.1 < offset)
      ∧ ∀ entry ∈ rowsOfLines cfg (numbered offset (splitLines (content.drop offset)).1), offset ≤ entry.1 := by
  obtain ⟨hsplit, hbelow, hafter⟩ := numberedLines_split h
  refine ⟨?_, ?_, ?_⟩
  · rw [rows, hsplit, rowsOfLines, List.filterMap_append]
    rfl
  · intro entry hentry
    obtain ⟨line, hline, heq⟩ := fst_mem_of_mem_rowsOfLines hentry
    exact heq ▸ hbelow line hline
  · intro entry hentry
    obtain ⟨line, hline, heq⟩ := fst_mem_of_mem_rowsOfLines hentry
    exact heq ▸ hafter line hline

/-- Growth changes no range that ends at or before the end of a line. -/
theorem between_rows_mono (h : AtLineEnd content offset) (hgrow : content <+: later) {low high : Nat}
    (hhigh : high ≤ offset) : between (rows cfg later) low high = between (rows cfg content) low high := by
  have hbelow : ∀ bytes : Bytes, AtLineEnd bytes offset →
      between (rows cfg bytes) low high
        = between (rowsOfLines cfg (numbered 0 (linesBelow bytes offset))) low high := by
    intro bytes hbytes
    obtain ⟨hsplit, -, hafter⟩ := rows_split cfg hbytes
    have hnil : between (rowsOfLines cfg (numbered offset (splitLines (bytes.drop offset)).1)) low high = [] := by
      apply between_eq_nil
      intro entry hentry
      exact Or.inr (Nat.le_trans hhigh (hafter entry hentry))
    rw [hsplit, between_append, hnil, List.append_nil]
  rw [hbelow later (h.mono hgrow), hbelow content h, linesBelow_mono h.1 hgrow]

/-- The rows of one read are those of the range it covers. -/
theorem rowsOf_readSafeLines (cfg : Config δ) (h : AtLineEnd content offset) {result : TailResult}
    (hlines : result.lines = (readSafeLines content offset).1)
    (hoffsets : result.lineOffsets = (readSafeLines content offset).2.1) :
    AtLineEnd content (readSafeLines content offset).2.2
      ∧ offset ≤ (readSafeLines content offset).2.2
      ∧ rowsOf cfg result = between (rows cfg content) offset (readSafeLines content offset).2.2 := by
  have hresume := resume h (content.drop offset).length
  refine ⟨hresume.1, Nat.le_add_right _ _, ?_⟩
  have hraw : readLines (content.drop offset).length (content.drop offset) = (splitLines (content.drop offset)).1 :=
    readLines_length _
  have hzip : ∀ start (raw : List Bytes),
      ((numbered start raw).map Prod.fst).zip (raw.map decodeLine)
        = (numbered start raw).map fun entry => (entry.1, decodeLine entry.2) := by
    intro start raw
    induction raw generalizing start with
    | nil => rfl
    | cons line raw ih => simp [numbered, ih]
  have hrows : rowsOf cfg result = rowsOfLines cfg (numbered offset (splitLines (content.drop offset)).1) := by
    rw [rowsOf, zip_parseLinesWithOffsets, hlines, hoffsets]
    simp only [readSafeLines, hraw]
    split
    · next hempty =>
      rw [List.isEmpty_iff, List.map_eq_nil_iff] at hempty
      rw [hempty]
      rfl
    · rw [hzip, List.filterMap_map]
      rfl
  obtain ⟨hsplit, hbelow, hafter⟩ := rows_split cfg h
  have hnil : between (rowsOfLines cfg (numbered 0 (linesBelow content offset))) offset
      (readSafeLines content offset).2.2 = [] := by
    apply between_eq_nil
    intro entry hentry
    exact Or.inl (hbelow entry hentry)
  rw [hrows, hsplit, between_append, hnil, List.nil_append, between_eq_self]
  intro entry hentry
  refine ⟨hafter entry hentry, ?_⟩
  obtain ⟨line, hline, heq⟩ := fst_mem_of_mem_rowsOfLines hentry
  have hbounds := bounds_of_mem_numbered hline
  have hpos := length_pos_of_mem_numbered hline
  simp only [readSafeLines, hraw]
  omega

end Rows

/-! ### The invariant -/

/-- What survives a crash: the saved position of the source and the installed batches. -/
structure Durable (δ : Type) where
  state : Option SourceState
  spool : List (SpoolBatch δ)

def Durable.apply (durable : Durable δ) : Write δ → Durable δ
  | .batch batch => { durable with spool := durable.spool ++ [batch] }
  | .state state => { durable with state := some state }

def Durable.applyAll (durable : Durable δ) (writes : List (Write δ)) : Durable δ := writes.foldl Durable.apply durable

/-- Every row below `high` lies in the range of an installed batch. -/
def Covered (content : Bytes) (spool : List (SpoolBatch δ)) (high : Nat) : Prop :=
  ∀ entry ∈ rows cfg content, entry.1 < high → ∃ batch ∈ spool, batch.startOffset ≤ entry.1 ∧ entry.1 < batch.endOffset

/-- A batch holds exactly the events of its range, which is not empty. -/
structure BatchExact (content : Bytes) (batch : SpoolBatch δ) : Prop where
  nonempty : batch.startOffset < batch.endOffset
  bounded : ∃ lineEnd, AtLineEnd content lineEnd ∧ batch.endOffset ≤ lineEnd
  total : Total cfg batch.sourceGeneration content batch.startOffset batch.endOffset
  records : batch.records
    = (between (events cfg batch.sourceGeneration content) batch.startOffset batch.endOffset).map Prod.snd

/-- What holds of the durable part at every moment. -/
structure Durable.Sound (content : Bytes) (durable : Durable δ) : Prop where
  batch : ∀ batch ∈ durable.spool, BatchExact cfg content batch
  identity : ∀ saved, durable.state = some saved → saved.cursor.identity ≠ none
  atLineEnd : ∀ saved, durable.state = some saved → AtLineEnd content saved.cursor.offset
  covered : ∀ saved, durable.state = some saved → Covered cfg content durable.spool saved.cursor.offset

/-- What holds of the memory between two calls: the buffer holds the events from some offset up to the read
cursor, and everything below that offset is installed. -/
structure Memory.Sound (content : Bytes) (spool : List (SpoolBatch δ)) (memory : Memory δ) : Prop where
  identity : ∀ cursor, memory.readCursor = some cursor → cursor.identity ≠ none
  atLineEnd : AtLineEnd content (cursorOffset memory.readCursor)
  pending : ∀ cursor, memory.pendingCursor = some cursor → memory.readCursor = some cursor
  unread : memory.bootstrapped = false → memory.pendingCursor = none ∧ memory.buffer = []
  generation : memory.bufferGeneration = if memory.buffer = [] then none else some memory.generation
  finalEnd : memory.buffer ≠ [] → memory.bufferFinalEndOffset = some (cursorOffset memory.readCursor)
  buffered : ∃ low, low ≤ cursorOffset memory.readCursor ∧ Covered cfg content spool low
    ∧ Total cfg memory.generation content low (cursorOffset memory.readCursor)
    ∧ memory.buffer = between (events cfg memory.generation content) low (cursorOffset memory.readCursor)

/-- A call is safe: after any prefix of its writes the durable part is sound, and so is the memory at
its end. -/
structure Safe {α : Type} (content : Bytes) (durable : Durable δ) (outcome : Outcome δ α) : Prop where
  writes : ∀ writes, writes <+: outcome.writes → (durable.applyAll writes).Sound cfg content
  memory : outcome.memory.Sound cfg content (durable.applyAll outcome.writes).spool

section Invariant

variable {cfg} {content later : Bytes} {durable : Durable δ} {memory : Memory δ}

@[simp] theorem Durable.applyAll_nil (durable : Durable δ) : durable.applyAll [] = durable := rfl

theorem Durable.applyAll_append (durable : Durable δ) (left right : List (Write δ)) :
    durable.applyAll (left ++ right) = (durable.applyAll left).applyAll right := List.foldl_append ..

theorem Covered.mono {spool spool' : List (SpoolBatch δ)} {high high' : Nat} (h : Covered cfg content spool high)
    (hspool : ∀ batch ∈ spool, batch ∈ spool') (hhigh : high' ≤ high) : Covered cfg content spool' high' := by
  intro entry hentry hlt
  obtain ⟨batch, hbatch, hrange⟩ := h entry hentry (Nat.lt_of_lt_of_le hlt hhigh)
  exact ⟨batch, hspool batch hbatch, hrange⟩

theorem Covered.grow {spool : List (SpoolBatch δ)} {high lineEnd : Nat} (h : Covered cfg content spool high)
    (hline : AtLineEnd content lineEnd) (hhigh : high ≤ lineEnd) (hgrow : content <+: later) :
    Covered cfg later spool high := by
  intro entry hentry hlt
  have hbetween : entry ∈ between (rows cfg later) 0 high := mem_between.2 ⟨hentry, Nat.zero_le _, hlt⟩
  rw [between_rows_mono hline hgrow hhigh] at hbetween
  exact h entry (mem_between.1 hbetween).1 hlt

theorem Total.grow {generation low high lineEnd : Nat} (h : Total cfg generation content low high)
    (hline : AtLineEnd content lineEnd) (hhigh : high ≤ lineEnd) (hgrow : content <+: later) :
    Total cfg generation later low high := by
  intro entry hentry
  rw [between_rows_mono hline hgrow hhigh] at hentry
  exact h entry hentry

theorem Total.empty (generation key : Nat) : Total cfg generation content key key := by
  intro entry hentry
  rw [between_self] at hentry
  cases hentry

theorem between_events_mono (generation : Nat) {low high lineEnd : Nat} (hline : AtLineEnd content lineEnd)
    (hhigh : high ≤ lineEnd) (hgrow : content <+: later) :
    between (events cfg generation later) low high = between (events cfg generation content) low high := by
  rw [between_events, between_events, between_rows_mono hline hgrow hhigh]

theorem BatchExact.grow {batch : SpoolBatch δ} (h : BatchExact cfg content batch) (hgrow : content <+: later) :
    BatchExact cfg later batch := by
  obtain ⟨lineEnd, hline, hend⟩ := h.bounded
  refine ⟨h.nonempty, ⟨lineEnd, hline.mono hgrow, hend⟩, h.total.grow hline hend hgrow, ?_⟩
  rw [between_events_mono _ hline hend hgrow]
  exact h.records

theorem Durable.Sound.grow (h : durable.Sound cfg content) (hgrow : content <+: later) : durable.Sound cfg later :=
  ⟨fun batch hbatch => (h.batch batch hbatch).grow hgrow, h.identity,
    fun saved hsaved => (h.atLineEnd saved hsaved).mono hgrow,
    fun saved hsaved => (h.covered saved hsaved).grow (h.atLineEnd saved hsaved) (Nat.le_refl _) hgrow⟩

theorem Memory.Sound.grow {spool : List (SpoolBatch δ)} (h : memory.Sound cfg content spool) (hgrow : content <+: later) :
    memory.Sound cfg later spool := by
  obtain ⟨low, hlow, hcovered, htotal, hbuffer⟩ := h.buffered
  refine ⟨h.identity, h.atLineEnd.mono hgrow, h.pending, h.unread, h.generation, h.finalEnd, low, hlow, ?_, ?_, ?_⟩
  · exact hcovered.grow h.atLineEnd hlow hgrow
  · exact htotal.grow h.atLineEnd (Nat.le_refl _) hgrow
  · rw [between_events_mono _ h.atLineEnd (Nat.le_refl _) hgrow]
    exact hbuffer

theorem Memory.fresh_sound (cfg : Config δ) (content : Bytes) (spool : List (SpoolBatch δ)) : Memory.fresh.Sound cfg content spool := by
  refine ⟨?_, atLineEnd_zero _, ?_, fun _ => ⟨rfl, rfl⟩, rfl, fun h => absurd rfl h, 0, Nat.le_refl _, ?_, .empty _ _, ?_⟩
  · intro cursor hcursor
    cases hcursor
  · intro cursor hcursor
    cases hcursor
  · intro entry _ hlt
    omega
  · exact (between_self _ _).symm

/-- A call that writes nothing and leaves the memory sound is safe. -/
theorem Safe.of_no_writes {α : Type} {outcome : Outcome δ α} (hdurable : durable.Sound cfg content)
    (hwrites : outcome.writes = []) (hmemory : outcome.memory.Sound cfg content durable.spool) :
    Safe cfg content durable outcome := by
  constructor
  · intro writes hbegin
    rw [hwrites, List.prefix_nil] at hbegin
    rw [hbegin]
    exact hdurable
  · rw [hwrites]
    exact hmemory

theorem Safe.durable_sound {α : Type} {outcome : Outcome δ α} (h : Safe cfg content durable outcome) :
    (durable.applyAll outcome.writes).Sound cfg content := h.writes _ List.prefix_rfl

/-- Safe calls compose. -/
theorem Safe.bind {α β : Type} {first : Outcome δ α} {next : Memory δ → α → Outcome δ β}
    (hfirst : Safe cfg content durable first)
    (hnext : ∀ value, first.value = .ok value →
      Safe cfg content (durable.applyAll first.writes) (next first.memory value)) :
    Safe cfg content durable (first.bind next) := by
  rw [Outcome.bind]
  cases hvalue : first.value with
  | error failure => exact ⟨hfirst.writes, hfirst.memory⟩
  | ok value =>
      have hsecond := hnext value hvalue
      constructor
      · intro writes hbegin
        rcases List.prefix_or_prefix_of_prefix hbegin (List.prefix_append _ _) with hshort | hlong
        · exact hfirst.writes writes hshort
        · obtain ⟨more, rfl⟩ := hlong
          rw [Durable.applyAll_append]
          exact hsecond.writes more ((List.prefix_append_right_inj _).1 hbegin)
      · show Memory.Sound cfg content (durable.applyAll (first.writes ++ _)).spool _
        rw [Durable.applyAll_append]
        exact hsecond.memory

end Invariant

end Agent

end SortView
