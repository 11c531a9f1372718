import SortView.Agent.SourceFiles

/-!
# A source event id names one record

The generation is advanced in memory and saved with the next flush, so after a crash the spool may hold
events that the saved position knows nothing of. As long as polls are careful, the string that is hashed
into an id determines the period and the line of the file.
-/

namespace SortView

open PyText ByteLines Reader Slices

namespace Agent

variable {δ α β : Type} {cfg : Config δ} {site : Site δ} {memory : Memory (Stamp δ)} {allowed : Stamp δ → Prop}
  {period : Nat}

/-! ### What a call installs -/

/-- The string of a stamp is that of a generation and an offset. -/
def Names (cfg : Config δ) (generation offset : Nat) (stamp : Stamp δ) : Prop :=
  canonicalIdentityString cfg.agentId cfg.source generation offset = some stamp.text

theorem Names.injective {generation generation' offset offset' : Nat} {stamp stamp' : Stamp δ}
    (h : Names cfg generation offset stamp) (h' : Names cfg generation' offset' stamp') (htext : stamp.text = stamp'.text) :
    generation = generation' ∧ offset = offset' := by
  rw [Names] at h h'
  rw [htext] at h
  exact canonicalIdentityString_injective h h'

/-- What the memory keeps between two calls: the buffer holds events of its generation below the cursor. -/
structure Memory.Tidy (cfg : Config δ) (memory : Memory (Stamp δ)) : Prop where
  identity : ∀ cursor, memory.readCursor = some cursor → cursor.identity ≠ none
  pending : ∀ cursor, memory.pendingCursor = some cursor → cursor.identity ≠ none
  unread : memory.bootstrapped = false → memory.buffer = []
  generation : memory.bufferGeneration = if memory.buffer = [] then none else some memory.generation
  buffered : ∀ entry ∈ memory.buffer, entry.1 < cursorOffset memory.readCursor
    ∧ Names cfg memory.generation entry.1 entry.2.sourceEventId

/-- A call installs and keeps only events with an allowed stamp, each under the generation it names. -/
structure Tracks (cfg : Config δ) (allowed : Stamp δ → Prop) (outcome : Outcome (Stamp δ) α) : Prop where
  batch : ∀ batch, Write.batch batch ∈ outcome.writes → ∀ event ∈ batch.records,
    allowed event.sourceEventId ∧ ∃ offset, Names cfg batch.sourceGeneration offset event.sourceEventId
  state : ∀ saved, Write.state saved ∈ outcome.writes → saved.cursor.identity ≠ none
  tidy : outcome.memory.Tidy cfg
  buffer : ∀ entry ∈ outcome.memory.buffer, allowed entry.2.sourceEventId

theorem Tracks.of_no_writes {outcome : Outcome (Stamp δ) α} (hwrites : outcome.writes = [])
    (htidy : outcome.memory.Tidy cfg) (hbuffer : ∀ entry ∈ outcome.memory.buffer, allowed entry.2.sourceEventId) :
    Tracks cfg allowed outcome := by
  refine ⟨?_, ?_, htidy, hbuffer⟩
  · intro batch hbatch
    rw [hwrites] at hbatch
    cases hbatch
  · intro saved hsaved
    rw [hwrites] at hsaved
    cases hsaved

theorem Tracks.bind {first : Outcome (Stamp δ) α} {next : Memory (Stamp δ) → α → Outcome (Stamp δ) β}
    (hfirst : Tracks cfg allowed first)
    (hnext : ∀ value, first.value = .ok value → Tracks cfg allowed (next first.memory value)) :
    Tracks cfg allowed (first.bind next) := by
  rw [Outcome.bind]
  cases hvalue : first.value with
  | error failure => exact ⟨hfirst.batch, hfirst.state, hfirst.tidy, hfirst.buffer⟩
  | ok value =>
      have hsecond := hnext value hvalue
      refine ⟨?_, ?_, hsecond.tidy, hsecond.buffer⟩
      · intro batch hbatch
        rcases List.mem_append.1 hbatch with hearly | hlate
        · exact hfirst.batch batch hearly
        · exact hsecond.batch batch hlate
      · intro saved hsaved
        rcases List.mem_append.1 hsaved with hearly | hlate
        · exact hfirst.state saved hearly
        · exact hsecond.state saved hlate

theorem persistState_tracks (htidy : memory.Tidy cfg) (hbuffer : ∀ entry ∈ memory.buffer, allowed entry.2.sourceEventId) :
    Tracks cfg allowed (persistState (cfg.stamped period) memory) := by
  rw [persistState]
  cases hpending : memory.pendingCursor with
  | none => exact .of_no_writes rfl htidy hbuffer
  | some cursor =>
      dsimp only
      cases hstate : sourceState (cfg.stamped period).path cursor memory.generation with
      | error failure => exact .of_no_writes rfl htidy hbuffer
      | ok state =>
          have hcursor : state.cursor = cursor := by
            rw [sourceState] at hstate
            split_ifs at hstate
            cases hstate
            rfl
          refine ⟨?_, ?_, htidy, hbuffer⟩
          · intro batch hbatch
            cases List.mem_singleton.1 hbatch
          · intro saved hsaved
            cases List.mem_singleton.1 hsaved
            rw [hcursor]
            exact htidy.pending cursor hpending

/-! ### Flushing -/

theorem mem_of_mem_slices {γ : Type} {items part : List γ} {size : Nat} {item : γ} (hpart : part ∈ slices items size)
    (hitem : item ∈ part) : item ∈ items := by
  rw [slices] at hpart
  obtain ⟨i, -, rfl⟩ := List.mem_map.1 hpart
  exact List.mem_of_mem_drop (List.mem_of_mem_take hitem)

theorem mem_batchesOf {generation finalEnd : Nat} {chunks : List (List (Nat × Event α))} {batch : SpoolBatch α}
    (hbatch : batch ∈ batchesOf generation finalEnd chunks) :
    batch.sourceGeneration = generation ∧ ∃ chunk ∈ chunks, batch.records = chunk.map Prod.snd := by
  induction chunks with
  | nil => cases hbatch
  | cons chunk chunks ih =>
      cases chunks with
      | nil =>
          obtain rfl := List.mem_singleton.1 hbatch
          exact ⟨rfl, chunk, List.mem_cons_self .., rfl⟩
      | cons next chunks =>
          rcases List.mem_cons.1 hbatch with rfl | hrest
          · exact ⟨rfl, chunk, List.mem_cons_self .., rfl⟩
          · obtain ⟨hgeneration, other, hother, hrecords⟩ := ih hrest
            exact ⟨hgeneration, other, List.mem_cons_of_mem _ hother, hrecords⟩

theorem Memory.Tidy.clear (htidy : memory.Tidy cfg) : memory.clear.Tidy cfg :=
  ⟨htidy.identity, htidy.pending, fun _ => rfl, rfl, fun _ hentry => absurd hentry List.not_mem_nil⟩

/-- A flush installs what is buffered, and if it does not raise it leaves an empty buffer. -/
theorem flush_tracks (htidy : memory.Tidy cfg) (hbuffer : ∀ entry ∈ memory.buffer, allowed entry.2.sourceEventId) :
    Tracks cfg allowed (flush (cfg.stamped period) memory)
      ∧ ∀ value, (flush (cfg.stamped period) memory).value = .ok value →
          (flush (cfg.stamped period) memory).memory.buffer = []
            ∧ (flush (cfg.stamped period) memory).memory.generation = memory.generation := by
  rw [flush]
  by_cases hempty : memory.buffer = []
  · rw [if_pos (List.isEmpty_iff.2 hempty)]
    exact ⟨.of_no_writes rfl htidy hbuffer, fun _ _ => ⟨hempty, rfl⟩⟩
  · rw [if_neg (by rwa [List.isEmpty_iff])]
    have hgeneration : memory.bufferGeneration.getD memory.generation = memory.generation := by
      rw [htidy.generation, if_neg hempty]
      rfl
    cases hend : memory.bufferFinalEndOffset with
    | none => exact ⟨.of_no_writes rfl htidy hbuffer, fun _ hvalue => by cases hvalue⟩
    | some finalEnd =>
        simp only [hgeneration]
        have hwritten : ∀ batch, Write.batch batch ∈ (writeBatches (batchesOf memory.generation finalEnd
              (slices memory.buffer (cfg.stamped period).batchMaxEvents))).1 →
            ∀ event ∈ batch.records, allowed event.sourceEventId
              ∧ ∃ offset, Names cfg batch.sourceGeneration offset event.sourceEventId := by
          intro batch hbatch event hevent
          obtain ⟨installed, hinstalled, heq⟩ := List.mem_map.1 ((writeBatches_writes _).1.subset hbatch)
          cases heq
          obtain ⟨hsame, chunk, hchunk, hrecords⟩ := mem_batchesOf hinstalled
          rw [hrecords] at hevent
          obtain ⟨entry, hentry, rfl⟩ := List.mem_map.1 hevent
          have hmem := mem_of_mem_slices hchunk hentry
          rw [hsame]
          exact ⟨hbuffer entry hmem, entry.1, (htidy.buffered entry hmem).2⟩
        have hnostate : ∀ saved, Write.state saved ∉ (writeBatches (batchesOf memory.generation finalEnd
            (slices memory.buffer (cfg.stamped period).batchMaxEvents))).1 := by
          intro saved hsaved
          obtain ⟨installed, -, heq⟩ := List.mem_map.1 ((writeBatches_writes _).1.subset hsaved)
          cases heq
        generalize writeBatches (batchesOf memory.generation finalEnd
          (slices memory.buffer (cfg.stamped period).batchMaxEvents)) = written at hwritten hnostate ⊢
        obtain ⟨writes, failure | value⟩ := written
        · exact ⟨⟨hwritten, fun saved hsaved => absurd hsaved (hnostate saved), htidy, hbuffer⟩,
            fun _ hvalue => by cases hvalue⟩
        · have hpersist : Tracks cfg allowed (persistState (cfg.stamped period) memory.clear) :=
            persistState_tracks htidy.clear fun entry hentry => absurd hentry List.not_mem_nil
          dsimp only
          refine ⟨⟨?_, ?_, hpersist.tidy, hpersist.buffer⟩, ?_⟩
          · intro batch hbatch
            rcases List.mem_append.1 hbatch with hearly | hlate
            · exact hwritten batch hearly
            · exact hpersist.batch batch hlate
          · intro saved hsaved
            rcases List.mem_append.1 hsaved with hearly | hlate
            · exact absurd hearly (hnostate saved)
            · exact hpersist.state saved hlate
          · intro value _
            rw [persistState_memory]
            exact ⟨rfl, rfl⟩

theorem flushIfDue_tracks (now : Int) (htidy : memory.Tidy cfg)
    (hbuffer : ∀ entry ∈ memory.buffer, allowed entry.2.sourceEventId) :
    Tracks cfg allowed (flushIfDue (cfg.stamped period) memory now) := by
  rw [flushIfDue]
  split_ifs
  · exact (flush_tracks htidy hbuffer).1
  · exact .of_no_writes rfl htidy hbuffer

/-- A flush and a report. -/
theorem flushIfDue_report_tracks (now : Int) (htidy : memory.Tidy cfg)
    (hbuffer : ∀ entry ∈ memory.buffer, allowed entry.2.sourceEventId) (report : Nat × Nat × Bool → α) :
    Tracks cfg allowed ((flushIfDue (cfg.stamped period) memory now).bind fun memory flushed =>
      ⟨[], memory, .ok (report flushed)⟩) := by
  have hflush : Tracks cfg allowed (flushIfDue (cfg.stamped period) memory now) := flushIfDue_tracks now htidy hbuffer
  exact hflush.bind fun _ _ => .of_no_writes rfl hflush.tidy hflush.buffer

/-! ### Reading -/

/-- The stamps of the events that a collector at a position makes of a file of an identity. -/
def NewStamp (cfg : Config δ) (period : Nat) (position : Position) (identity : Option Token) (stamp : Stamp δ) : Prop :=
  stamp.period = period ∧ stamp.id = cfg.sha256 stamp.text ∧ ∃ current, identity = some current
    ∧ ∃ generation offset, Names cfg generation offset stamp ∧ position.Reaches current generation offset

/-- How a read that finds the file goes on. -/
theorem readNewLines_resumes {view : FileView} {cursor : Option FileCursor}
    (hidentity : ∀ saved, cursor = some saved → saved.identity ≠ none)
    (hexisted : (readNewLines view cursor).existed = true) :
    ∃ current content startOffset, view.identity = some current ∧ view.content = some content
      ∧ (readNewLines view cursor).lines = (readSafeLines content startOffset).1
      ∧ (readNewLines view cursor).lineOffsets = (readSafeLines content startOffset).2.1
      ∧ (readNewLines view cursor).cursor = ⟨some current, (readSafeLines content startOffset).2.2⟩
      ∧ (((readNewLines view cursor).rotated || (readNewLines view cursor).truncated) = false →
          ∀ saved, cursor = some saved → saved.identity = some current ∧ saved.offset = startOffset) := by
  rw [readNewLines] at hexisted ⊢
  cases hcurrent : view.identity with
  | none => simp [hcurrent] at hexisted
  | some current =>
      cases hcontent : view.content with
      | none =>
          exfalso
          simp only [hcurrent, hcontent] at hexisted
          cases cursor with
          | none => simp at hexisted
          | some saved =>
              simp only at hexisted
              split_ifs at hexisted
              · split at hexisted <;> simp at hexisted
      | some content =>
          cases cursor with
          | none => exact ⟨current, content, 0, rfl, rfl, rfl, rfl, rfl, fun _ saved hsaved => by cases hsaved⟩
          | some saved =>
              have hsaved := hidentity saved rfl
              simp only [hcurrent, hcontent, if_neg hsaved] at hexisted ⊢
              by_cases hsame : saved.identity = some current
              · simp only [hsame, ne_eq, not_true_eq_false, if_false] at hexisted ⊢
                cases hsize : view.size with
                | none => simp [hsize] at hexisted
                | some currentSize =>
                    by_cases hshrunk : currentSize < saved.offset
                    · simp only [if_pos hshrunk]
                      exact ⟨current, content, 0, rfl, rfl, rfl, rfl, rfl, fun h => by simp at h⟩
                    · simp only [if_neg hshrunk]
                      refine ⟨current, content, saved.offset, rfl, rfl, rfl, rfl, rfl, ?_⟩
                      intro _ found hfound
                      cases hfound
                      exact ⟨hsame, rfl⟩
              · simp only [ne_eq, hsame, not_false_eq_true, if_true]
                exact ⟨current, content, 0, rfl, rfl, rfl, rfl, rfl, fun h => by simp at h⟩

/-- The rows of a read lie between where it starts and where it stops, at whatever byte it starts. -/
theorem bounds_of_mem_rowsOf {content : Bytes} {startOffset : Nat} {result : TailResult}
    (hlines : result.lines = (readSafeLines content startOffset).1)
    (hoffsets : result.lineOffsets = (readSafeLines content startOffset).2.1) {entry : Nat × ParsedRow}
    (hentry : entry ∈ rowsOf cfg result) :
    startOffset ≤ entry.1 ∧ entry.1 < (readSafeLines content startOffset).2.2 := by
  rw [rowsOf, zip_parseLinesWithOffsets] at hentry
  split at hentry
  · cases hentry
  · obtain ⟨line, hline, hrow⟩ := List.mem_filterMap.1 hentry
    obtain ⟨_, -, rfl⟩ := Option.map_eq_some_iff.1 hrow
    rw [hlines, hoffsets] at hline
    have hoffset := (List.of_mem_zip hline).1
    simp only [readSafeLines, readLines_length] at hoffset ⊢
    obtain ⟨⟨offset, bytes⟩, hnumbered, rfl⟩ := List.mem_map.1 hoffset
    have hbounds := bounds_of_mem_numbered hnumbered
    have hpos := length_pos_of_mem_numbered hnumbered
    dsimp only at hpos ⊢
    omega

/-- The stamp of an event that a stamped collector makes. -/
theorem stamp_of_eventAt {generation : Nat} {row : Nat × ParsedRow} {entry : Nat × Event (Stamp δ)}
    (hentry : eventAt (cfg.stamped period) generation row = some entry) :
    entry.1 = row.1 ∧ Names cfg generation row.1 entry.2.sourceEventId ∧ entry.2.sourceEventId.period = period
      ∧ entry.2.sourceEventId.id = cfg.sha256 entry.2.sourceEventId.text := by
  obtain ⟨event, hevent, rfl⟩ := Option.map_eq_some_iff.1 hentry
  obtain ⟨stamp, hstamp, rfl⟩ := Option.map_eq_some_iff.1 hevent
  obtain ⟨text, htext, rfl⟩ := Option.map_eq_some_iff.1 hstamp
  exact ⟨rfl, htext, rfl, rfl⟩

/-- A cycle that trusts its read buffers events of the range it read, above those it has buffered before. -/
theorem acceptRead_tracks {input : PollInput} {content : Bytes} {startOffset : Nat} {result : TailResult} {current : Token}
    (htidy : memory.Tidy cfg) (hboot : memory.bootstrapped = true)
    (hbuffer : ∀ entry ∈ memory.buffer, allowed entry.2.sourceEventId)
    (hlines : result.lines = (readSafeLines content startOffset).1)
    (hoffsets : result.lineOffsets = (readSafeLines content startOffset).2.1)
    (hcursor : result.cursor = ⟨some current, (readSafeLines content startOffset).2.2⟩)
    (hstart : memory.buffer ≠ [] → cursorOffset memory.readCursor ≤ startOffset)
    (hallowed : ∀ stamp : Stamp δ, stamp.period = period → stamp.id = cfg.sha256 stamp.text →
      ∀ offset, startOffset ≤ offset → Names cfg memory.generation offset stamp → allowed stamp) :
    Tracks cfg allowed (acceptRead (cfg.stamped period) input result memory) := by
  rw [acceptRead]
  rcases appendEvents_cases input.startedAt (rowsOf (cfg.stamped period) result) memory with
    ⟨failure, happend⟩ | ⟨htotal, started, happend⟩
  · rw [happend]
    exact .of_no_writes rfl htidy hbuffer
  · rw [happend]
    dsimp only
    generalize hmoved : Memory.moveTo _ result.cursor = moved
    have hentries : moved.buffer = memory.buffer
        ++ (rowsOf (cfg.stamped period) result).filterMap (eventAt (cfg.stamped period) memory.generation) := by
      rw [← hmoved]
      rfl
    have hgeneration : moved.generation = memory.generation := by rw [← hmoved]; rfl
    have hread : moved.readCursor = some result.cursor := by rw [← hmoved]; rfl
    have hend : startOffset ≤ (readSafeLines content startOffset).2.2 := Nat.le_add_right _ _
    have hnew : ∀ entry ∈ moved.buffer, entry ∈ memory.buffer
        ∨ (startOffset ≤ entry.1 ∧ entry.1 < (readSafeLines content startOffset).2.2)
          ∧ Names cfg memory.generation entry.1 entry.2.sourceEventId ∧ allowed entry.2.sourceEventId := by
      intro entry hentry
      rw [hentries] at hentry
      rcases List.mem_append.1 hentry with hold | hfresh
      · exact Or.inl hold
      · obtain ⟨row, hrow, hevent⟩ := List.mem_filterMap.1 hfresh
        obtain ⟨hoffset, hnames, hperiod, hid⟩ := stamp_of_eventAt hevent
        have hbounds := bounds_of_mem_rowsOf hlines hoffsets hrow
        rw [← hoffset] at hnames hbounds
        exact Or.inr ⟨hbounds, hnames, hallowed _ hperiod hid _ hbounds.1 hnames⟩
    have hmovedbuffer : ∀ entry ∈ moved.buffer, allowed entry.2.sourceEventId := by
      intro entry hentry
      rcases hnew entry hentry with hold | ⟨-, -, hfresh⟩
      · exact hbuffer entry hold
      · exact hfresh
    have hmovedtidy : moved.Tidy cfg := by
      refine ⟨?_, ?_, ?_, ?_, ?_⟩
      · intro cursor heq
        rw [hread, hcursor] at heq
        cases heq
        simp
      · intro cursor heq
        rw [← hmoved, Memory.moveTo, hcursor] at heq
        cases heq
        simp
      · intro hnot
        rw [← hmoved, Memory.moveTo] at hnot
        exact absurd (hboot.symm.trans hnot) (by decide)
      · have hold := htidy.generation
        rw [← hmoved, Memory.moveTo]
        by_cases hnone : rowsOf (cfg.stamped period) result = []
        · simpa [hnone] using hold
        · have hne : (rowsOf (cfg.stamped period) result).filterMap (eventAt (cfg.stamped period) memory.generation)
              ≠ [] := by
            obtain ⟨row, rows, hrows⟩ := List.exists_cons_of_ne_nil hnone
            obtain ⟨event, hevent⟩ := Option.ne_none_iff_exists'.1 (htotal row (by rw [hrows]; simp))
            rw [hrows, List.filterMap_cons, hevent]
            exact List.cons_ne_nil _ _
          by_cases hempty : memory.buffer = []
          · simp [hnone, hold, hempty, hne]
          · simp [hnone, hold, hempty]
      · intro entry hentry
        have hoffset : cursorOffset moved.readCursor = (readSafeLines content startOffset).2.2 := by
          rw [hread, hcursor]
          rfl
        rw [hgeneration, hoffset]
        rcases hnew entry hentry with hold | ⟨hbounds, hnames, -⟩
        · obtain ⟨hbelow, hnames⟩ := htidy.buffered entry hold
          have hle := hstart (List.ne_nil_of_mem hold)
          exact ⟨by omega, hnames⟩
        · exact ⟨hbounds.2, hnames⟩
    have hidle : Tracks cfg allowed
        (if (rowsOf (cfg.stamped period) result).length = 0 ∧ moved.buffer = []
          then persistState (cfg.stamped period) moved else (⟨[], moved, .ok false⟩ : Outcome (Stamp δ) Bool)) := by
      split_ifs
      · exact persistState_tracks hmovedtidy hmovedbuffer
      · exact .of_no_writes rfl hmovedtidy hmovedbuffer
    exact hidle.bind fun _ _ => flushIfDue_report_tracks _ hidle.tidy hidle.buffer _

/-- A poll of a bootstrapped collector makes events that lie where it goes on. -/
theorem pollRead_tracks {input : PollInput} (htidy : memory.Tidy cfg) (hboot : memory.bootstrapped = true)
    (hbuffer : ∀ entry ∈ memory.buffer, allowed entry.2.sourceEventId)
    (hallowed : ∀ stamp, NewStamp cfg period ⟨memory.readCursor, memory.generation⟩ input.view.identity stamp →
      allowed stamp) :
    Tracks cfg allowed (pollRead (cfg.stamped period) input memory) := by
  have hnote : ∀ pendingDiscontinuity, Memory.Tidy cfg { memory with pendingDiscontinuity } := fun _ =>
    ⟨htidy.identity, htidy.pending, htidy.unread, htidy.generation, htidy.buffered⟩
  rw [pollRead]
  by_cases hexisted : (readNewLines input.view memory.readCursor).existed = false
  · simp only [if_pos hexisted]
    exact flushIfDue_report_tracks _ htidy hbuffer _
  · simp only [if_neg hexisted]
    obtain ⟨current, content, startOffset, hidentity, -, hlines, hoffsets, hcursor, hclean⟩ :=
      readNewLines_resumes htidy.identity (by simpa using hexisted)
    generalize readNewLines input.view memory.readCursor = result at hlines hoffsets hcursor hclean ⊢
    cases hcandidate : candidateOf result with
    | none =>
        have hsame := hclean (by
          rw [candidateOf] at hcandidate
          split_ifs at hcandidate with hrotated htruncated
          simp [hrotated, htruncated])
        refine acceptRead_tracks (hnote none) hboot hbuffer hlines hoffsets hcursor ?_ ?_
        · intro hne
          cases hread : memory.readCursor with
          | none => exact Nat.zero_le _
          | some saved => exact Nat.le_of_eq (hsame saved hread).2
        · intro stamp hperiod hid offset hoffset hnames
          refine hallowed stamp ⟨hperiod, hid, current, hidentity, memory.generation, offset, hnames, Or.inr ⟨rfl, ?_⟩⟩
          intro saved hread
          obtain ⟨hfile, hstart⟩ := hsame saved hread
          exact ⟨hfile, by omega⟩
    | some candidate =>
        dsimp only
        split_ifs with hpending
        · exact flushIfDue_report_tracks _ (hnote (some candidate)) hbuffer _
        · obtain ⟨hflush, hafter⟩ : Tracks cfg allowed
              (flush (cfg.stamped period) { memory with pendingDiscontinuity := none }) ∧ _ :=
            flush_tracks (hnote none) hbuffer
          refine hflush.bind ?_
          intro value hvalue
          obtain ⟨hempty, hgeneration⟩ := hafter value hvalue
          have hstill := (flush_readCursor (cfg.stamped period) { memory with pendingDiscontinuity := none }).2
          have hfresh : ∀ generation, Memory.Tidy cfg
              { (flush (cfg.stamped period) { memory with pendingDiscontinuity := none }).memory with generation } := by
            intro generation
            refine ⟨hflush.tidy.identity, hflush.tidy.pending, hflush.tidy.unread, ?_, ?_⟩
            · have hold := hflush.tidy.generation
              rw [if_pos hempty] at hold
              simp [hold, hempty]
            · intro entry hentry
              rw [hempty] at hentry
              cases hentry
          have hadvance : (result.rotated || result.truncated) = true := by
            rw [candidateOf] at hcandidate
            split_ifs at hcandidate with hrotated htruncated
            · simp [hrotated]
            · simp [htruncated]
          refine acceptRead_tracks (hfresh _) (hstill.trans hboot) hflush.buffer hlines hoffsets hcursor
            (fun hne => absurd hempty hne) ?_
          intro stamp hperiod hid offset _ hnames
          refine hallowed stamp ⟨hperiod, hid, current, hidentity, _, offset, hnames, Or.inl ?_⟩
          show memory.generation < advanceGeneration _ result.rotated result.truncated
          rw [advanceGeneration, if_pos hadvance, hgeneration]
          exact Nat.lt_succ_self _

/-- The position of a collector: that of its memory, or the saved one before it is bootstrapped. -/
def positionOf (prior : Option SourceState) (memory : Memory (Stamp δ)) : Position :=
  if memory.bootstrapped then ⟨memory.readCursor, memory.generation⟩
  else match prior with
    | none => ⟨none, 0⟩
    | some saved => ⟨some saved.cursor, saved.generation⟩

theorem Memory.Tidy.seed (htidy : memory.Tidy cfg) (hempty : memory.buffer = []) {readCursor : Option FileCursor}
    (hcursor : ∀ cursor, readCursor = some cursor → cursor.identity ≠ none) (generation : Nat) :
    Memory.Tidy cfg { memory with readCursor, generation, bootstrapped := true } := by
  refine ⟨hcursor, htidy.pending, fun _ => hempty, ?_, ?_⟩
  · have hold := htidy.generation
    rw [if_pos hempty] at hold
    simp [hold, hempty]
  · intro entry hentry
    rw [show _ = [] from hempty] at hentry
    cases hentry

/-- The position from the start of a file in generation zero reaches everything. -/
theorem reaches_start {position : Position} (hgeneration : position.generation = 0) {identity : Token}
    {generation offset : Nat} (h : position.Reaches identity generation offset) :
    Position.Reaches ⟨none, 0⟩ identity generation offset := by
  rcases h with hlt | ⟨heq, -⟩
  · exact Or.inl (Nat.lt_of_le_of_lt (Nat.zero_le _) hlt)
  · exact Or.inr ⟨heq.trans hgeneration, fun cursor hcursor => by cases hcursor⟩

/-- A bootstrap only moves the position on. -/
theorem bootstrapIfNeeded_tracks {prior : Option SourceState} {boot : FileView} (htidy : memory.Tidy cfg)
    (hprior : ∀ saved, prior = some saved → saved.cursor.identity ≠ none)
    (hbuffer : ∀ entry ∈ memory.buffer, allowed entry.2.sourceEventId) :
    Tracks cfg allowed (bootstrapIfNeeded (cfg.stamped period) prior boot memory)
      ∧ ((bootstrapIfNeeded (cfg.stamped period) prior boot memory).value = .ok true →
        (bootstrapIfNeeded (cfg.stamped period) prior boot memory).memory.bootstrapped = true
          ∧ ∀ identity generation offset,
            Position.Reaches ⟨(bootstrapIfNeeded (cfg.stamped period) prior boot memory).memory.readCursor,
                (bootstrapIfNeeded (cfg.stamped period) prior boot memory).memory.generation⟩ identity generation offset →
              (positionOf prior memory).Reaches identity generation offset) := by
  unfold bootstrapIfNeeded positionOf
  cases hbootstrapped : memory.bootstrapped with
  | true =>
      simp only [if_true]
      exact ⟨.of_no_writes rfl htidy hbuffer, fun _ => ⟨hbootstrapped, fun _ _ _ hreach => hreach⟩⟩
  | false =>
      have hempty := htidy.unread hbootstrapped
      have hunset : ∀ memory' : Memory (Stamp δ), memory'.Tidy cfg → memory'.buffer = [] →
          ∀ value : Except Failure Bool, Tracks cfg allowed (⟨[], memory', value⟩ : Outcome (Stamp δ) Bool) := by
        intro memory' htidy' hempty' value
        refine .of_no_writes rfl htidy' ?_
        intro entry hentry
        rw [show memory'.buffer = [] from hempty'] at hentry
        cases hentry
      simp only [Bool.false_eq_true, if_false]
      cases prior with
      | some saved =>
          refine ⟨hunset _ (htidy.seed hempty ?_ _) hempty _, fun _ => ⟨rfl, fun _ _ _ hreach => hreach⟩⟩
          rintro cursor ⟨⟩
          exact hprior saved rfl
      | none =>
          have hseeded : ∀ (identity : Token) (offset : Nat), Memory.Tidy cfg { memory with
              readCursor := some ⟨some identity, offset⟩, generation := 0, bootstrapped := true } := by
            intro identity offset
            refine htidy.seed hempty ?_ 0
            rintro cursor ⟨⟩
            simp
          cases (cfg.stamped period).bootstrapMode with
          | replay =>
              refine ⟨hunset _ (htidy.seed hempty ?_ _) hempty _, fun _ => ⟨rfl, fun _ _ _ hreach => hreach⟩⟩
              rintro cursor ⟨⟩
          | offset =>
              dsimp only
              cases boot.identity with
              | none => exact ⟨hunset _ htidy hempty _, fun hvalue => by cases hvalue⟩
              | some identity =>
                  exact ⟨hunset _ (hseeded identity _) hempty _, fun _ => ⟨rfl, fun _ _ _ hreach => reaches_start rfl hreach⟩⟩
          | normal =>
              dsimp only
              cases boot.identity with
              | none => exact ⟨hunset _ htidy hempty _, fun hvalue => by cases hvalue⟩
              | some identity =>
                  dsimp only
                  cases boot.size with
                  | none => exact ⟨hunset _ htidy hempty _, fun hvalue => by cases hvalue⟩
                  | some eofOffset =>
                      dsimp only
                      cases hstate : sourceState (cfg.stamped period).path ⟨some identity, eofOffset⟩ 0 with
                      | error failure => exact ⟨hunset _ (hseeded identity _) hempty _, fun hvalue => by cases hvalue⟩
                      | ok state =>
                          have hcursor : state.cursor = ⟨some identity, eofOffset⟩ := by
                            rw [sourceState] at hstate
                            split_ifs at hstate
                            cases hstate
                            rfl
                          have htracks := hunset _ (hseeded identity eofOffset) hempty (.ok true)
                          refine ⟨⟨?_, ?_, htracks.tidy, htracks.buffer⟩,
                            fun _ => ⟨rfl, fun _ _ _ hreach => reaches_start rfl hreach⟩⟩
                          · intro batch hbatch
                            cases List.mem_singleton.1 hbatch
                          · intro saved hsaved
                            cases List.mem_singleton.1 hsaved
                            rw [hcursor]
                            simp

/-- A poll makes events that lie where its collector goes on. -/
theorem pollOnce_tracks {prior : Option SourceState} {input : PollInput} (htidy : memory.Tidy cfg)
    (hprior : ∀ saved, prior = some saved → saved.cursor.identity ≠ none)
    (hbuffer : ∀ entry ∈ memory.buffer, allowed entry.2.sourceEventId)
    (hallowed : ∀ stamp, NewStamp cfg period (positionOf prior memory) input.view.identity stamp → allowed stamp) :
    Tracks cfg allowed (pollOnce (cfg.stamped period) prior input memory) := by
  obtain ⟨htracks, hposition⟩ : Tracks cfg allowed (bootstrapIfNeeded (cfg.stamped period) prior input.boot memory) ∧ _ :=
    bootstrapIfNeeded_tracks htidy hprior hbuffer
  rw [pollOnce]
  refine htracks.bind ?_
  intro bootstrapped hvalue
  cases bootstrapped with
  | false => exact .of_no_writes rfl htracks.tidy htracks.buffer
  | true =>
      obtain ⟨hboot, hreaches⟩ := hposition hvalue
      refine pollRead_tracks htracks.tidy hboot htracks.buffer ?_
      rintro stamp ⟨hperiod, hid, current, hcurrent, generation, offset, hnames, hreach⟩
      exact hallowed stamp ⟨hperiod, hid, current, hcurrent, generation, offset, hnames, hreaches _ _ _ hreach⟩

/-! ### Histories -/

/-- The stamps of the spooled and the buffered events. -/
def Site.Stamps (site : Site δ) (stamp : Stamp δ) : Prop :=
  (∃ batch ∈ site.durable.spool, ∃ event ∈ batch.records, event.sourceEventId = stamp)
    ∨ ∃ entry ∈ site.memory.buffer, entry.2.sourceEventId = stamp

/-- What a careful history keeps: the string of an event determines the period it was read in. -/
structure Site.Sound (cfg : Config δ) (site : Site δ) : Prop where
  tidy : site.memory.Tidy cfg
  saved : ∀ saved, site.durable.state = some saved → saved.cursor.identity ≠ none
  spooled : ∀ batch ∈ site.durable.spool, ∀ event ∈ batch.records,
    ∃ offset, Names cfg batch.sourceGeneration offset event.sourceEventId
  hashed : ∀ stamp, site.Stamps stamp → stamp.id = cfg.sha256 stamp.text
  period : ∀ stamp stamp', site.Stamps stamp → site.Stamps stamp' → stamp.text = stamp'.text →
    stamp.period = stamp'.period

theorem applyAll_writes (durable : Durable δ) (writes : List (Write δ)) :
    (∀ batch ∈ (durable.applyAll writes).spool, batch ∈ durable.spool ∨ Write.batch batch ∈ writes)
      ∧ ∀ saved, (durable.applyAll writes).state = some saved →
        durable.state = some saved ∨ Write.state saved ∈ writes := by
  induction writes generalizing durable with
  | nil => exact ⟨fun batch hbatch => Or.inl hbatch, fun saved hsaved => Or.inl hsaved⟩
  | cons write writes ih =>
      obtain ⟨hspool, hstate⟩ := ih (durable.apply write)
      constructor
      · intro batch hbatch
        rcases hspool batch hbatch with hbefore | hlater
        · cases write with
          | batch installed =>
              rcases List.mem_append.1 hbefore with hold | hnew
              · exact Or.inl hold
              · obtain rfl := List.mem_singleton.1 hnew
                exact Or.inr (List.mem_cons_self ..)
          | state state => exact Or.inl hbefore
        · exact Or.inr (List.mem_cons_of_mem _ hlater)
      · intro saved hsaved
        rcases hstate saved hsaved with hbefore | hlater
        · cases write with
          | batch installed => exact Or.inl hbefore
          | state state =>
              obtain rfl := Option.some.inj hbefore
              exact Or.inr (List.mem_cons_self ..)
        · exact Or.inr (List.mem_cons_of_mem _ hlater)

/-- A call whose new stamps agree with those there are keeps a site sound, whether it ends or a crash cuts
it short. -/
theorem Site.Sound.call (h : site.Sound cfg) {outcome : Outcome (Stamp δ) α} {fresh : Stamp δ → Prop}
    (htracks : Tracks cfg (fun stamp => (∃ entry ∈ site.memory.buffer, entry.2.sourceEventId = stamp) ∨ fresh stamp) outcome)
    (hhashed : ∀ stamp, fresh stamp → stamp.id = cfg.sha256 stamp.text)
    (hperiod : ∀ stamp stamp', fresh stamp → fresh stamp' ∨ site.Stamps stamp' → stamp.text = stamp'.text →
      stamp.period = stamp'.period)
    (file : SourceFile) {writes : List (Write (Stamp δ))} (hwrites : writes <+: outcome.writes)
    {memory : Memory (Stamp δ)} (hmemory : memory = outcome.memory ∨ memory = .fresh) :
    Site.Sound cfg ⟨file, site.durable.applyAll writes, memory⟩ := by
  obtain ⟨hspool, hstate⟩ := applyAll_writes site.durable writes
  have hstamps : ∀ stamp, Site.Stamps ⟨file, site.durable.applyAll writes, memory⟩ stamp →
      site.Stamps stamp ∨ fresh stamp := by
    rintro stamp (⟨batch, hbatch, event, hevent, rfl⟩ | ⟨entry, hentry, rfl⟩)
    · rcases hspool batch hbatch with hold | hnew
      · exact Or.inl (Or.inl ⟨batch, hold, event, hevent, rfl⟩)
      · rcases (htracks.batch batch (hwrites.subset hnew) event hevent).1 with hbuffered | hfresh
        · exact Or.inl (Or.inr hbuffered)
        · exact Or.inr hfresh
    · rcases hmemory with rfl | rfl
      · rcases htracks.buffer entry hentry with hbuffered | hfresh
        · exact Or.inl (Or.inr hbuffered)
        · exact Or.inr hfresh
      · cases hentry
  refine ⟨?_, ?_, ?_, ?_, ?_⟩
  · rcases hmemory with rfl | rfl
    · exact htracks.tidy
    · refine ⟨?_, ?_, fun _ => rfl, rfl, fun _ hentry => absurd hentry List.not_mem_nil⟩
      · rintro cursor ⟨⟩
      · rintro cursor ⟨⟩
  · intro saved hsaved
    rcases hstate saved hsaved with hold | hnew
    · exact h.saved saved hold
    · exact htracks.state saved (hwrites.subset hnew)
  · intro batch hbatch event hevent
    rcases hspool batch hbatch with hold | hnew
    · exact h.spooled batch hold event hevent
    · exact (htracks.batch batch (hwrites.subset hnew) event hevent).2
  · intro stamp hstamp
    rcases hstamps stamp hstamp with hold | hfresh
    · exact h.hashed stamp hold
    · exact hhashed stamp hfresh
  · intro stamp stamp' hstamp hstamp' htext
    rcases hstamps stamp hstamp with hold | hfresh
    · rcases hstamps stamp' hstamp' with hold' | hfresh'
      · exact h.period stamp stamp' hold hold' htext
      · exact (hperiod stamp' stamp hfresh' (Or.inr hold) htext.symm).symm
    · rcases hstamps stamp' hstamp' with hold' | hfresh'
      · exact hperiod stamp stamp' hfresh (Or.inr hold') htext
      · exact hperiod stamp stamp' hfresh (Or.inl hfresh') htext

theorem Position.Reaches.ahead {position : Position} {identity : Token} {generation offset : Nat}
    (h : position.Reaches identity generation offset) : position.Ahead generation offset := by
  rcases h with hlt | ⟨heq, hcursor⟩
  · exact Or.inl hlt
  · exact Or.inr ⟨heq, fun cursor hread => (hcursor cursor hread).2⟩

/-- Appends leave the identity and the period of a file. -/
theorem changes_of_appends (file : SourceFile) {changes : List FileChange}
    (happends : ∀ change ∈ changes, change.breaks = false) :
    (file.changes changes).identity = file.identity ∧ (file.changes changes).period = file.period := by
  induction changes generalizing file with
  | nil => exact ⟨rfl, rfl⟩
  | cons change changes ih =>
      have hrest := ih (file.change change) fun other hother => happends other (List.mem_cons_of_mem _ hother)
      cases change with
      | append bytes => exact hrest
      | rotate identity content => exact absurd (happends _ (List.mem_cons_self ..)) (by simp [FileChange.breaks])
      | truncate size => exact absurd (happends _ (List.mem_cons_self ..)) (by simp [FileChange.breaks])

/-- The events a careful poll makes agree with those there are. -/
theorem newStamp_agrees (h : site.Sound cfg) {moments : PollMoments} {input : PollInput}
    (hsees : Sees site.file moments input) (hresumable : site.Resumable cfg)
    (hcaught : (∃ change ∈ moments.all, change.breaks = true) → site.CaughtUp cfg) {stamp stamp' : Stamp δ}
    (hnew : NewStamp cfg (site.file.changes moments.all).period site.position input.view.identity stamp)
    (hthere : site.Stamps stamp') (htext : stamp.text = stamp'.text) : stamp.period = stamp'.period := by
  obtain ⟨hperiod, -, current, hcurrent, generation, offset, hnames, hreach⟩ := hnew
  rcases hthere with ⟨batch, hbatch, event, hevent, rfl⟩ | ⟨entry, hentry, rfl⟩
  · obtain ⟨offset', hnames'⟩ := h.spooled batch hbatch event hevent
    obtain ⟨rfl, rfl⟩ := hnames.injective hnames' htext
    have hspooled : site.Spooled cfg ⟨event.sourceEventId.period, offset⟩ batch.sourceGeneration event.sourceEventId.id :=
      ⟨batch, hbatch, rfl, event, hevent, rfl, rfl, hnames'⟩
    by_cases hbreaks : ∃ change ∈ moments.all, change.breaks = true
    · exact absurd hreach.ahead (hcaught hbreaks _ _ _ hspooled)
    · have happends : ∀ changes : List FileChange, (∀ change ∈ changes, change ∈ moments.all) →
          ∀ change ∈ changes, change.breaks = false := by
        intro changes hsub change hchange
        by_contra hbreak
        exact hbreaks ⟨change, hsub change hchange, by simpa using hbreak⟩
      have hsame : current = site.file.identity := by
        rw [hsees.identity current hcurrent]
        have hfirst := changes_of_appends site.file (happends moments.toBootSize fun change hchange =>
          List.mem_append_left _ hchange)
        have hsecond := changes_of_appends (site.file.changes moments.toBootSize) (happends moments.toIdentity
          fun change hchange => List.mem_append_right _ (List.mem_append_left _ hchange))
        exact hsecond.1.trans hfirst.1
      rw [hsame] at hreach
      have hcurrentPeriod := hresumable _ _ _ hspooled hreach
      rw [hperiod, (changes_of_appends site.file (happends moments.all fun _ hchange => hchange)).2]
      exact hcurrentPeriod.symm
  · obtain ⟨hbelow, hnames'⟩ := h.tidy.buffered entry hentry
    obtain ⟨rfl, rfl⟩ := hnames.injective hnames' htext
    have hboot : site.memory.bootstrapped = true := by
      by_contra hnot
      have hempty := h.tidy.unread (by simpa using hnot)
      rw [hempty] at hentry
      cases hentry
    rw [Site.position, if_pos hboot] at hreach
    exfalso
    rcases hreach with hlt | ⟨-, hcursor⟩
    · exact Nat.lt_irrefl _ hlt
    · cases hread : site.memory.readCursor with
      | none =>
          rw [hread] at hbelow
          exact Nat.not_lt_zero _ hbelow
      | some cursor =>
          rw [hread] at hbelow
          exact Nat.lt_irrefl _ (Nat.lt_of_lt_of_le hbelow (hcursor cursor hread).2)

theorem CarefulHistory.sound (hhistory : CarefulHistory cfg site) : site.Sound cfg := by
  induction hhistory with
  | start file =>
      refine ⟨⟨?_, ?_, fun _ => rfl, rfl, fun _ hentry => absurd hentry List.not_mem_nil⟩, ?_, ?_, ?_, ?_⟩
      · rintro cursor ⟨⟩
      · rintro cursor ⟨⟩
      · rintro saved ⟨⟩
      · rintro batch ⟨⟩
      · rintro stamp (⟨batch, hbatch, -⟩ | ⟨entry, hentry, -⟩)
        · cases hbatch
        · cases hentry
      · rintro stamp stamp' (⟨batch, hbatch, -⟩ | ⟨entry, hentry, -⟩)
        · cases hbatch
        · cases hentry
  | @step site action hpossible hcareful _ ih =>
      have hpoll : ∀ (moments : PollMoments) (input : PollInput), Sees site.file moments input → site.Resumable cfg →
          ((∃ change ∈ moments.all, change.breaks = true) → site.CaughtUp cfg) →
          ∀ writes, writes <+: (site.pollOutcome cfg moments input).writes →
          ∀ memory, memory = (site.pollOutcome cfg moments input).memory ∨ memory = .fresh →
          Site.Sound cfg ⟨site.file.changes moments.all, site.durable.applyAll writes, memory⟩ := by
        intro moments input hsees hresumable hcaught writes hwrites memory hmemory
        have htracks : Tracks cfg (fun stamp => (∃ entry ∈ site.memory.buffer, entry.2.sourceEventId = stamp)
              ∨ NewStamp cfg (site.file.changes moments.all).period site.position input.view.identity stamp)
            (site.pollOutcome cfg moments input) :=
          pollOnce_tracks ih.tidy ih.saved (fun entry hentry => Or.inl ⟨entry, hentry, rfl⟩) fun stamp hnew => Or.inr hnew
        refine ih.call htracks (fun stamp hnew => hnew.2.1) ?_ _ hwrites hmemory
        rintro stamp stamp' hnew (hnew' | hthere) htext
        · exact hnew.1.trans hnew'.1.symm
        · exact newStamp_agrees ih hsees hresumable hcaught hnew hthere htext
      have hflush : ∀ writes, writes <+: (site.flushOutcome cfg).writes →
          ∀ memory, memory = (site.flushOutcome cfg).memory ∨ memory = .fresh →
          Site.Sound cfg ⟨site.file, site.durable.applyAll writes, memory⟩ := by
        intro writes hwrites memory hmemory
        have htracks : Tracks cfg (fun stamp => (∃ entry ∈ site.memory.buffer, entry.2.sourceEventId = stamp) ∨ False)
            (site.flushOutcome cfg) :=
          (flush_tracks ih.tidy fun entry hentry => Or.inl ⟨entry, hentry, rfl⟩).1
        exact ih.call htracks (fun _ hnone => hnone.elim) (fun _ _ hnone => hnone.elim) _ hwrites hmemory
      cases action with
      | change made => exact ⟨ih.tidy, ih.saved, ih.spooled, ih.hashed, ih.period⟩
      | poll moments input =>
          exact hpoll moments input hpossible.2 hcareful.1 hcareful.2 _ List.prefix_rfl _ (Or.inl rfl)
      | pollCrash moments input writes =>
          exact hpoll moments input hpossible.2 hcareful.1 hcareful.2 _ (List.take_prefix ..) _ (Or.inr rfl)
      | flush => exact hflush _ List.prefix_rfl _ (Or.inl rfl)
      | flushCrash writes => exact hflush _ (List.take_prefix ..) _ (Or.inr rfl)

/-- In every history of careful polls two spooled events of different records carry different generations or
offsets, and so different ids, and every spooled event is that of a record. -/
theorem source_event_id_names_one_record (hhistory : CarefulHistory cfg site)
    (hsha : Set.InjOn cfg.sha256 {text | ∃ batch ∈ site.durable.spool, ∃ event ∈ batch.records,
      event.sourceEventId.text = text}) :
    site.NamesOneRecord cfg
      ∧ (∀ record record' generation generation' sourceEventId sourceEventId',
        site.Spooled cfg record generation sourceEventId → site.Spooled cfg record' generation' sourceEventId' →
        record ≠ record' → sourceEventId ≠ sourceEventId')
      ∧ ∀ batch ∈ site.durable.spool, ∀ event ∈ batch.records, ∃ startOffset,
        site.Spooled cfg ⟨event.sourceEventId.period, startOffset⟩ batch.sourceGeneration event.sourceEventId.id := by
  have hsound := hhistory.sound
  have hsame : ∀ record record' generation generation' sourceEventId sourceEventId',
      site.Spooled cfg record generation sourceEventId → site.Spooled cfg record' generation' sourceEventId' →
      generation = generation' → record.startOffset = record'.startOffset → record = record' := by
    rintro ⟨period, offset⟩ ⟨period', offset'⟩ generation generation' sourceEventId sourceEventId'
      ⟨batch, hbatch, -, event, hevent, -, hperiod, htext⟩ ⟨batch', hbatch', -, event', hevent', -, hperiod', htext'⟩
      rfl hoffset
    obtain rfl : offset = offset' := hoffset
    have hequal : event.sourceEventId.text = event'.sourceEventId.text := Option.some.inj (htext.symm.trans htext')
    have hperiods := hsound.period _ _ (Or.inl ⟨batch, hbatch, event, hevent, rfl⟩)
      (Or.inl ⟨batch', hbatch', event', hevent', rfl⟩) hequal
    rw [hperiod, hperiod'] at hperiods
    dsimp only at hperiods
    rw [hperiods]
  refine ⟨?_, ?_, ?_⟩
  · intro record record' generation generation' sourceEventId sourceEventId' hspooled hspooled' hne heq
    obtain ⟨hgeneration, hoffset⟩ := Prod.mk.inj heq
    exact hne (hsame _ _ _ _ _ _ hspooled hspooled' hgeneration hoffset)
  · intro record record' generation generation' sourceEventId sourceEventId' hspooled hspooled' hne heq
    have hspooled₁ := hspooled
    have hspooled₂ := hspooled'
    obtain ⟨batch, hbatch, -, event, hevent, hid, -, htext⟩ := hspooled₁
    obtain ⟨batch', hbatch', -, event', hevent', hid', -, htext'⟩ := hspooled₂
    have hhash := hsound.hashed _ (Or.inl ⟨batch, hbatch, event, hevent, rfl⟩)
    have hhash' := hsound.hashed _ (Or.inl ⟨batch', hbatch', event', hevent', rfl⟩)
    rw [hid] at hhash
    rw [hid'] at hhash'
    have htexts := hsha ⟨batch, hbatch, event, hevent, rfl⟩ ⟨batch', hbatch', event', hevent', rfl⟩
      (hhash.symm.trans (heq.trans hhash'))
    rw [htexts] at htext
    obtain ⟨hgeneration, hoffset⟩ := canonicalIdentityString_injective htext htext'
    exact hne (hsame _ _ _ _ _ _ hspooled hspooled' hgeneration hoffset)
  · intro batch hbatch event hevent
    obtain ⟨offset, hnames⟩ := hsound.spooled batch hbatch event hevent
    exact ⟨offset, batch, hbatch, rfl, event, hevent, rfl, rfl, hnames⟩

/-! An ACS log that is rotated: once while its agent runs, and once more after a crash. -/

def rotatedSha (text : Text) : Text :=
  if text = "a1|acs|0|0".toList then "c33971212d2d451273601f2f87bcdc94024660008173b80e16e546a83e94f45c".toList
  else if text = "a1|acs|1|0".toList then "f8c8fdd71c720cdcf18486cf0f7b3e675e7d3a784c00e6ea75b9258194906682".toList
  else []

def rotatedCfg : Config Text := { sampleCfg with batchMaxEvents := 1, sha256 := rotatedSha }

/-- A poll during which the file does not change. -/
def stillMoments : PollMoments := ⟨[], [], [], []⟩

def stillPoll (file : SourceFile) : PollInput where
  view := ⟨some file.identity, some file.content.length, some file.content⟩
  boot := ⟨some file.identity, some file.content.length, some file.content⟩
  startedAt := 0
  now := 0

theorem stillPoll_possible (file : SourceFile) : Action.Possible file (.poll stillMoments (stillPoll file)) := by
  refine ⟨trivial, ?_, ?_, ?_, ?_, ?_⟩
  · rintro identity ⟨⟩
    rfl
  · rintro size ⟨⟩
    rfl
  · rintro identity ⟨⟩
    rfl
  · rintro size ⟨⟩
    rfl
  · rintro content ⟨⟩
    rfl

def firstFile : SourceFile := ⟨(7, 8), 0, "x\x02y\x0264\n".toUTF8.toList⟩

/-- One record is read and saved, the file is rotated, and one poll withholds the rotation. -/
def rotatedSite : Site Text :=
  let first := (Site.start firstFile).step rotatedCfg (.poll stillMoments (stillPoll firstFile))
  let rotated := first.step rotatedCfg (.change (.rotate (7, 9) "x\x02y\x0210\n".toUTF8.toList))
  rotated.step rotatedCfg (.poll stillMoments (stillPoll rotated.file))

/-- The next poll confirms the rotation. -/
def confirmedSite : Site Text := rotatedSite.step rotatedCfg (.poll stillMoments (stillPoll rotatedSite.file))

/-- A site whose spool holds the first record only and whose position is past it can be resumed. -/
theorem resumable_of_first {site : Site Text}
    (hspool : ∀ batch ∈ site.durable.spool, ∀ event ∈ batch.records, event.sourceEventId.text = "a1|acs|0|0".toList)
    (hposition : site.position.generation = 0 ∧ ∃ cursor, site.position.cursor = some cursor ∧ 0 < cursor.offset) :
    site.Resumable rotatedCfg := by
  rintro record generation sourceEventId ⟨batch, hbatch, -, event, hevent, -, -, htext⟩ hreach
  have hzero : Names rotatedCfg 0 0 event.sourceEventId := by
    rw [Names, hspool batch hbatch event hevent]
    decide
  obtain ⟨rfl, hoffset⟩ := Names.injective htext hzero rfl
  obtain ⟨hgeneration, cursor, hcursor, hpos⟩ := hposition
  exfalso
  rcases hreach with hlt | ⟨-, hpast⟩
  · exact Nat.not_lt_zero _ hlt
  · have hle := (hpast cursor hcursor).2
    omega

theorem firstRotation_possible :
    Action.Possible ((Site.start firstFile).step rotatedCfg (.poll stillMoments (stillPoll firstFile))).file
      (.change (.rotate (7, 9) "x\x02y\x0210\n".toUTF8.toList)) := by
  show ((7, 9) : Token) ≠ _
  decide +kernel

theorem confirmedSite_history : CarefulHistory rotatedCfg confirmedSite := by
  have hstill : ∀ (site : Site Text), site.Resumable rotatedCfg → CarefulHistory rotatedCfg site →
      CarefulHistory rotatedCfg (site.step rotatedCfg (.poll stillMoments (stillPoll site.file))) := by
    intro site hresumable hhistory
    refine .step _ (stillPoll_possible _) ⟨hresumable, ?_⟩ hhistory
    rintro ⟨change, hchange, -⟩
    cases hchange
  refine hstill rotatedSite (resumable_of_first (by decide +kernel) ⟨by decide +kernel, ⟨some (7, 8), 7⟩, ?_⟩) ?_
  · exact ⟨by decide +kernel, by decide⟩
  · refine hstill _ (resumable_of_first (by decide +kernel) ⟨by decide +kernel, ⟨some (7, 8), 7⟩, ?_⟩) ?_
    · exact ⟨by decide +kernel, by decide⟩
    · refine .step _ firstRotation_possible trivial (hstill _ ?_ (.start firstFile))
      rintro record generation sourceEventId ⟨batch, hbatch, -⟩
      cases hbatch

theorem source_event_id_names_one_record_rotated : confirmedSite.NamesOneRecord rotatedCfg := by
  refine (source_event_id_names_one_record confirmedSite_history ?_).1
  have htexts : ∀ batch ∈ confirmedSite.durable.spool, ∀ event ∈ batch.records,
      event.sourceEventId.text = "a1|acs|0|0".toList ∨ event.sourceEventId.text = "a1|acs|1|0".toList := by
    decide +kernel
  rintro text ⟨batch, hbatch, event, hevent, rfl⟩ text' ⟨batch', hbatch', event', hevent', rfl⟩ heq
  rcases htexts batch hbatch event hevent with h | h <;> rcases htexts batch' hbatch' event' hevent' with h' | h' <;>
    rw [h, h'] at heq ⊢ <;> revert heq <;> decide +kernel

/-- The confirming poll installs its batch, the process crashes before the position is saved, and the file is
rotated again before it is restarted. -/
def crashedSite : Site Text :=
  let crashed := rotatedSite.step rotatedCfg (.pollCrash stillMoments (stillPoll rotatedSite.file) 1)
  crashed.step rotatedCfg (.change (.rotate (7, 10) "x\x02y\x0212\n".toUTF8.toList))

def collidedSite : Site Text :=
  let withheld := crashedSite.step rotatedCfg (.poll stillMoments (stillPoll crashedSite.file))
  withheld.step rotatedCfg (.poll stillMoments (stillPoll withheld.file))

theorem collidedSite_history : History rotatedCfg collidedSite := by
  have hrotated : History rotatedCfg rotatedSite :=
    .step _ (stillPoll_possible _) (.step _ firstRotation_possible (.step _ (stillPoll_possible _) (.start firstFile)))
  have hcrashed : History rotatedCfg crashedSite := by
    refine .step (.change (.rotate (7, 10) "x\x02y\x0212\n".toUTF8.toList)) ?_ (.step (.pollCrash stillMoments (stillPoll rotatedSite.file) 1)
      (stillPoll_possible rotatedSite.file) hrotated)
    show ((7, 10) : Token) ≠ _
    decide +kernel
  exact .step _ (stillPoll_possible _) (.step _ (stillPoll_possible _) hcrashed)

/-- The first lines of the second and of the third file get one id. -/
theorem source_event_id_names_two_records :
    ¬ (∀ site : Site Text, History rotatedCfg site → site.NamesOneRecord rotatedCfg)
      ∧ ∃ sourceEventId, collidedSite.Spooled rotatedCfg ⟨1, 0⟩ 1 sourceEventId
        ∧ collidedSite.Spooled rotatedCfg ⟨2, 0⟩ 1 sourceEventId := by
  have hsecond : collidedSite.Spooled rotatedCfg ⟨1, 0⟩ 1 (rotatedSha "a1|acs|1|0".toList) := by
    unfold Site.Spooled
    decide +kernel
  have hthird : collidedSite.Spooled rotatedCfg ⟨2, 0⟩ 1 (rotatedSha "a1|acs|1|0".toList) := by
    unfold Site.Spooled
    decide +kernel
  refine ⟨?_, _, hsecond, hthird⟩
  intro hall
  exact hall collidedSite collidedSite_history _ _ _ _ _ _ hsecond hthird (by decide) rfl

end Agent

end SortView
