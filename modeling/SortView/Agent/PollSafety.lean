import SortView.Agent.Durability

/-!
# Flushes and polls are safe

Each call of a collector keeps the invariant at every prefix of its writes: the batches of a flush cut the
buffer at the starts of its chunks, and the position is written after the batches it covers.
-/

namespace SortView

open PyText ByteLines Reader Slices

namespace Agent

variable {δ : Type} {cfg : Config δ} {content later : Bytes} {durable : Durable δ} {memory : Memory δ}

/-! ### The batches of a flush -/

theorem chunkStart_cons (first : Nat × Event δ) (chunk : List (Nat × Event δ)) : chunkStart (first :: chunk) = first.1 :=
  rfl

/-- The batches of chunks that make up a range of events cut the range at the starts of the chunks. -/
theorem batchesOf_exact {generation low high : Nat} {chunks : List (List (Nat × Event δ))}
    (hne : ∀ chunk ∈ chunks, chunk ≠ [])
    (hchunks : chunks.flatten = between (events cfg generation content) low high) :
    (∀ batch ∈ batchesOf generation high chunks,
        batch.sourceGeneration = generation ∧ low ≤ batch.startOffset ∧ batch.startOffset < batch.endOffset
          ∧ batch.endOffset ≤ high
          ∧ batch.records = (between (events cfg generation content) batch.startOffset batch.endOffset).map Prod.snd
          ∧ batch.records ≠ [])
      ∧ ∀ event ∈ chunks.flatten, ∃ batch ∈ batchesOf generation high chunks,
          batch.startOffset ≤ event.1 ∧ event.1 < batch.endOffset := by
  induction chunks generalizing low with
  | nil => exact ⟨fun batch hbatch => absurd hbatch List.not_mem_nil, fun event hevent => absurd hevent List.not_mem_nil⟩
  | cons chunk chunks ih =>
      obtain ⟨first, events', rfl⟩ := List.exists_cons_of_ne_nil (hne chunk (List.mem_cons_self ..))
      have hmem : ∀ event ∈ ((first :: events') :: chunks).flatten, low ≤ event.1 ∧ event.1 < high := by
        intro event hevent
        rw [hchunks] at hevent
        exact (mem_between.1 hevent).2
      have hsorted : ((first :: events') :: chunks).flatten.Pairwise fun x y => x.1 < y.1 := by
        rw [hchunks]
        exact (pairwise_events generation content).sublist List.filter_sublist
      have hfirst := hmem first (by simp)
      cases chunks with
      | nil =>
          have hstart : between (events cfg generation content) first.1 high = first :: events' := by
            have hcut := between_between (events cfg generation content) hfirst.1 (Nat.le_refl high)
            rw [← hcut, ← hchunks]
            have hflat : ((first :: events') :: []).flatten = [] ++ first :: events' := by simp
            rw [hflat] at hsorted hmem ⊢
            exact (between_of_append hsorted hmem).2
          constructor
          · intro batch hbatch
            obtain rfl := List.mem_singleton.1 hbatch
            exact ⟨rfl, hfirst.1, hfirst.2, Nat.le_refl _, by rw [chunkStart_cons, hstart], by simp⟩
          · intro event hevent
            refine ⟨_, List.mem_singleton_self _, ?_, (hmem event hevent).2⟩
            have hflat : event ∈ first :: events' := by simpa using hevent
            rw [← hstart] at hflat
            exact (mem_between.1 hflat).2.1
      | cons next chunks =>
          obtain ⟨second, events'', rfl⟩ := List.exists_cons_of_ne_nil (hne next (by simp))
          have hflat : ((first :: events') :: (second :: events'') :: chunks).flatten
              = (first :: events') ++ second :: (events'' ++ chunks.flatten) := by simp
          have hsecond := hmem second (by simp)
          rw [hflat] at hsorted
          rw [hflat] at hmem
          have hcut := between_of_append hsorted hmem
          rw [← hflat, hchunks, between_between _ (Nat.le_refl low) (Nat.le_of_lt hsecond.2),
            between_between _ hsecond.1 (Nat.le_refl high)] at hcut
          have hlt : first.1 < second.1 := (List.pairwise_append.1 hsorted).2.2 first (by simp) second (by simp)
          have hstart : between (events cfg generation content) first.1 second.1 = first :: events' := by
            rw [← between_between (events cfg generation content) hfirst.1 (Nat.le_refl second.1), hcut.1]
            apply between_eq_self
            intro event hevent
            have hbelow := (List.pairwise_append.1 hsorted).2.2 event hevent second (by simp)
            rcases List.mem_cons.1 hevent with rfl | hrest
            · exact ⟨Nat.le_refl _, hbelow⟩
            · have hsorted' := (List.pairwise_append.1 hsorted).1
              exact ⟨Nat.le_of_lt ((List.pairwise_cons.1 hsorted').1 event hrest), hbelow⟩
          have htail : ((second :: events'') :: chunks).flatten
              = between (events cfg generation content) second.1 high := by rw [hcut.2]; simp
          have hrest := ih (fun other hother => hne other (List.mem_cons_of_mem _ hother)) htail
          constructor
          · intro batch hbatch
            rcases List.mem_cons.1 hbatch with rfl | hbatch
            · exact ⟨rfl, hfirst.1, hlt, Nat.le_of_lt hsecond.2, by rw [chunkStart_cons, chunkStart_cons, hstart],
                by simp⟩
            · obtain ⟨hgeneration, hlow, hothers⟩ := hrest.1 batch hbatch
              exact ⟨hgeneration, by omega, hothers⟩
          · intro event hevent
            rw [List.flatten_cons, List.mem_append] at hevent
            rcases hevent with hhere | hthere
            · rw [← hstart] at hhere
              exact ⟨_, List.mem_cons_self .., (mem_between.1 hhere).2⟩
            · obtain ⟨batch, hbatch, hrange⟩ := hrest.2 event hthere
              exact ⟨batch, List.mem_cons_of_mem _ hbatch, hrange⟩

/-- The loop writes a prefix of the batches, and all of them if none is refused. -/
theorem writeBatches_writes (batches : List (SpoolBatch δ)) :
    (writeBatches batches).1 <+: batches.map Write.batch
      ∧ ((writeBatches batches).2 = .ok () → (writeBatches batches).1 = batches.map Write.batch) := by
  induction batches with
  | nil => exact ⟨List.prefix_rfl, fun _ => rfl⟩
  | cons batch batches ih =>
      rw [writeBatches]
      cases hcheck : checkBatch batch with
      | error failure => exact ⟨List.nil_prefix, fun h => absurd h (by simp)⟩
      | ok checked =>
          have hsame : checked = batch := by
            rw [checkBatch] at hcheck
            split_ifs at hcheck
            cases hcheck
            rfl
          subst hsame
          rw [List.map_cons]
          refine ⟨(List.prefix_cons_inj _).2 ih.1, ?_⟩
          intro hok
          exact congrArg (Write.batch checked :: ·) (ih.2 hok)

theorem applyAll_batches (durable : Durable δ) (batches : List (SpoolBatch δ)) :
    durable.applyAll (batches.map Write.batch) = { durable with spool := durable.spool ++ batches } := by
  induction batches generalizing durable with
  | nil => simp
  | cons batch batches ih =>
      rw [List.map_cons, Durable.applyAll, List.foldl_cons]
      refine (ih (durable.apply (.batch batch))).trans ?_
      simp [Durable.apply]

/-- Installing exact batches keeps the durable part sound. -/
theorem Durable.Sound.install (h : durable.Sound cfg content) {batches : List (SpoolBatch δ)}
    (hbatches : ∀ batch ∈ batches, BatchExact cfg content batch) :
    (durable.applyAll (batches.map Write.batch)).Sound cfg content := by
  rw [applyAll_batches]
  refine ⟨?_, h.identity, h.atLineEnd, ?_⟩
  · intro batch hbatch
    rcases List.mem_append.1 hbatch with hold | hnew
    · exact h.batch batch hold
    · exact hbatches batch hnew
  · intro saved hsaved
    exact (h.covered saved hsaved).mono (fun batch hbatch => List.mem_append_left _ hbatch) (Nat.le_refl _)

/-! ### Saving the position -/

/-- With an empty buffer everything below the read cursor is installed. -/
theorem Memory.Sound.covered_of_empty {spool : List (SpoolBatch δ)} (h : memory.Sound cfg content spool)
    (hempty : memory.buffer = []) : Covered cfg content spool (cursorOffset memory.readCursor) := by
  obtain ⟨low, -, hcovered, htotal, hbuffer⟩ := h.buffered
  intro entry hentry hlt
  by_cases hlow : entry.1 < low
  · exact hcovered entry hentry hlow
  · have hrange : entry ∈ between (rows cfg content) low (cursorOffset memory.readCursor) :=
      mem_between.2 ⟨hentry, by omega, hlt⟩
    obtain ⟨event, hevent⟩ := Option.ne_none_iff_exists'.1 (htotal entry hrange)
    have hmem : event ∈ memory.buffer := by
      rw [hbuffer, between_events]
      exact List.mem_filterMap.2 ⟨entry, hrange, hevent⟩
    rw [hempty] at hmem
    cases hmem

theorem persistState_memory (cfg : Config δ) (memory : Memory δ) : (persistState cfg memory).memory = memory := by
  rw [persistState]
  split
  · rfl
  · split <;> rfl

theorem persistState_safe (hdurable : durable.Sound cfg content) (hmemory : memory.Sound cfg content durable.spool)
    (hempty : memory.buffer = []) : Safe cfg content durable (persistState cfg memory) := by
  rw [persistState]
  cases hpending : memory.pendingCursor with
  | none => exact .of_no_writes hdurable rfl hmemory
  | some cursor =>
      dsimp only
      cases hstate : sourceState cfg.path cursor memory.generation with
      | error failure => exact .of_no_writes hdurable rfl hmemory
      | ok state =>
          have hcursor : state.cursor = cursor := by
            rw [sourceState] at hstate
            split_ifs at hstate
            cases hstate
            rfl
          have hread : memory.readCursor = some cursor := hmemory.pending cursor hpending
          have hcovered := hmemory.covered_of_empty hempty
          have hline := hmemory.atLineEnd
          rw [hread] at hcovered hline
          constructor
          · intro writes hbegin
            rcases List.prefix_cons_iff.1 hbegin with hnone | ⟨rest, hall, hrest⟩
            · rw [hnone]
              exact hdurable
            · rw [hall, List.prefix_nil.1 hrest]
              refine ⟨hdurable.batch, ?_, ?_, ?_⟩
              · rintro saved ⟨⟩
                rw [hcursor]
                exact hmemory.identity cursor hread
              · rintro saved ⟨⟩
                rw [hcursor]
                exact hline
              · rintro saved ⟨⟩
                rw [hcursor]
                exact hcovered
          · exact hmemory

/-! ### Flushing -/

/-- A flush leaves the read cursor alone. -/
theorem flush_readCursor (cfg : Config δ) (memory : Memory δ) :
    (flush cfg memory).memory.readCursor = memory.readCursor
      ∧ (flush cfg memory).memory.bootstrapped = memory.bootstrapped := by
  rw [flush]
  split_ifs
  · exact ⟨rfl, rfl⟩
  · dsimp only
    split
    · exact ⟨rfl, rfl⟩
    · split
      · exact ⟨rfl, rfl⟩
      · rw [persistState_memory]
        exact ⟨rfl, rfl⟩

theorem flushIfDue_readCursor (cfg : Config δ) (memory : Memory δ) (now : Int) :
    (flushIfDue cfg memory now).memory.readCursor = memory.readCursor
      ∧ (flushIfDue cfg memory now).memory.bootstrapped = memory.bootstrapped := by
  rw [flushIfDue]
  split_ifs
  · exact flush_readCursor cfg memory
  · exact ⟨rfl, rfl⟩

/-- A flush of the buffer is safe, and if it does not raise it leaves an empty buffer and the rest of the
memory that later reads depend on. -/
theorem flush_safe (hmax : 1 ≤ cfg.batchMaxEvents) (hdurable : durable.Sound cfg content)
    (hmemory : memory.Sound cfg content durable.spool) :
    Safe cfg content durable (flush cfg memory)
      ∧ ∀ value, (flush cfg memory).value = .ok value →
          (flush cfg memory).memory.buffer = [] ∧ (flush cfg memory).memory.readCursor = memory.readCursor
            ∧ (flush cfg memory).memory.bootstrapped = memory.bootstrapped := by
  rw [flush]
  by_cases hempty : memory.buffer = []
  · rw [if_pos (List.isEmpty_iff.2 hempty)]
    exact ⟨.of_no_writes hdurable rfl hmemory, fun _ _ => ⟨hempty, rfl, rfl⟩⟩
  · rw [if_neg (by rwa [List.isEmpty_iff])]
    obtain ⟨low, hlow, hcovered, htotal, hbuffer⟩ := hmemory.buffered
    have hgeneration : memory.bufferGeneration.getD memory.generation = memory.generation := by
      rw [hmemory.generation, if_neg hempty]
      rfl
    have hne : ∀ chunk ∈ slices memory.buffer cfg.batchMaxEvents, chunk ≠ [] := fun chunk => ne_nil_of_mem_slices
    have hflat : (slices memory.buffer cfg.batchMaxEvents).flatten
        = between (events cfg memory.generation content) low (cursorOffset memory.readCursor) := by
      rw [flatten_slices _ hmax, hbuffer]
    obtain ⟨hbatches, hcover⟩ := batchesOf_exact hne hflat
    simp only [hmemory.finalEnd hempty, hgeneration]
    generalize batchesOf memory.generation (cursorOffset memory.readCursor)
      (slices memory.buffer cfg.batchMaxEvents) = batches at hbatches hcover ⊢
    have hexact : ∀ batch ∈ batches, BatchExact cfg content batch := by
      intro batch hbatch
      obtain ⟨hsame, hstart, hlt, hend, hrecords, -⟩ := hbatches batch hbatch
      refine ⟨hlt, ⟨_, hmemory.atLineEnd, hend⟩, ?_, by rw [hsame]; exact hrecords⟩
      intro entry hentry
      rw [hsame]
      obtain ⟨hentry, hrange⟩ := mem_between.1 hentry
      exact htotal entry (mem_between.2 ⟨hentry, by omega⟩)
    obtain ⟨hbegin, hall⟩ := writeBatches_writes batches
    have hwritten : ∀ writes, writes <+: (writeBatches batches).1 → (durable.applyAll writes).Sound cfg content := by
      intro writes hwrites
      obtain ⟨installed, hinstalled, rfl⟩ := List.prefix_map_iff.1 (hwrites.trans hbegin)
      exact hdurable.install fun batch hbatch => hexact batch (hinstalled.subset hbatch)
    have hspool : ∀ writes, writes <+: (writeBatches batches).1 →
        ∀ batch ∈ durable.spool, batch ∈ (durable.applyAll writes).spool := by
      intro writes hwrites batch hbatch
      obtain ⟨installed, -, rfl⟩ := List.prefix_map_iff.1 (hwrites.trans hbegin)
      rw [applyAll_batches]
      exact List.mem_append_left _ hbatch
    cases hok : (writeBatches batches).2 with
    | error failure =>
        refine ⟨⟨hwritten, ?_⟩, fun _ h => absurd h (by simp)⟩
        refine ⟨hmemory.identity, hmemory.atLineEnd, hmemory.pending, hmemory.unread, hmemory.generation,
          hmemory.finalEnd, low, hlow, hcovered.mono (hspool _ List.prefix_rfl) (Nat.le_refl _), htotal, hbuffer⟩
    | ok value =>
        obtain ⟨⟩ := value
        have hwrites := hall hok
        have hcleared : memory.clear.Sound cfg content (durable.applyAll (writeBatches batches).1).spool := by
          refine ⟨hmemory.identity, hmemory.atLineEnd, hmemory.pending, fun h => ⟨(hmemory.unread h).1, rfl⟩, rfl,
            fun h => absurd rfl h, cursorOffset memory.readCursor, Nat.le_refl _, ?_, .empty _ _, (between_self _ _).symm⟩
          · intro entry hentry hlt
            by_cases hbelow : entry.1 < low
            · exact hcovered.mono (hspool _ List.prefix_rfl) (Nat.le_refl _) entry hentry hbelow
            · have hrange : entry ∈ between (rows cfg content) low (cursorOffset memory.readCursor) :=
                mem_between.2 ⟨hentry, by omega, hlt⟩
              obtain ⟨event, hevent⟩ := Option.ne_none_iff_exists'.1 (htotal entry hrange)
              have hmem : event ∈ (slices memory.buffer cfg.batchMaxEvents).flatten := by
                rw [hflat, between_events]
                exact List.mem_filterMap.2 ⟨entry, hrange, hevent⟩
              obtain ⟨batch, hbatch, hinside⟩ := hcover event hmem
              rw [fst_of_eventAt hevent] at hinside
              refine ⟨batch, ?_, hinside⟩
              rw [hwrites, applyAll_batches]
              exact List.mem_append_right _ hbatch
        have hpersist := persistState_safe (hwritten _ List.prefix_rfl) hcleared rfl
        refine ⟨⟨?_, ?_⟩, ?_⟩
        · intro writes hwritten'
          rcases List.prefix_or_prefix_of_prefix hwritten' (List.prefix_append _ _) with hshort | ⟨more, rfl⟩
          · exact hwritten writes hshort
          · rw [Durable.applyAll_append]
            exact hpersist.writes more ((List.prefix_append_right_inj _).1 hwritten')
        · show Memory.Sound cfg content (durable.applyAll ((writeBatches batches).1 ++ _)).spool _
          rw [Durable.applyAll_append]
          exact hpersist.memory
        · intro value _
          have hsame := persistState_memory cfg memory.clear
          show (persistState cfg memory.clear).memory.buffer = []
            ∧ (persistState cfg memory.clear).memory.readCursor = memory.readCursor
            ∧ (persistState cfg memory.clear).memory.bootstrapped = memory.bootstrapped
          rw [hsame]
          exact ⟨rfl, rfl, rfl⟩

theorem flushIfDue_safe (hmax : 1 ≤ cfg.batchMaxEvents) (now : Int) (hdurable : durable.Sound cfg content)
    (hmemory : memory.Sound cfg content durable.spool) : Safe cfg content durable (flushIfDue cfg memory now) := by
  rw [flushIfDue]
  split
  · exact (flush_safe hmax hdurable hmemory).1
  · exact .of_no_writes hdurable rfl hmemory

/-- A cycle that ends with a flush and a report. -/
theorem flushIfDue_report_safe {α : Type} (hmax : 1 ≤ cfg.batchMaxEvents) (now : Int)
    (hdurable : durable.Sound cfg content) (hmemory : memory.Sound cfg content durable.spool)
    (report : Nat × Nat × Bool → α) :
    Safe cfg content durable
      ((flushIfDue cfg memory now).bind fun memory flushed => ⟨[], memory, .ok (report flushed)⟩) := by
  have hflush := flushIfDue_safe hmax now hdurable hmemory
  exact hflush.bind fun _ _ => .of_no_writes hflush.durable_sound rfl hflush.memory

/-! ### Polling -/

/-- The agent id is good and the loop buffers every event, or it raises on the first one and changes nothing. -/
theorem appendEvents_cases (startedAt : Int) (entries : List (Nat × ParsedRow)) (memory : Memory δ) :
    (∃ failure, appendEvents cfg startedAt entries memory = (memory, .error failure))
      ∨ (∀ entry ∈ entries, eventAt cfg memory.generation entry ≠ none)
        ∧ ∃ started, appendEvents cfg startedAt entries memory
          = ({ memory with
                buffer := memory.buffer ++ entries.filterMap (eventAt cfg memory.generation)
                bufferGeneration :=
                  if entries = [] then memory.bufferGeneration
                  else some (memory.bufferGeneration.getD memory.generation)
                bufferStartedAt := started }, .ok ()) := by
  by_cases hbad : cfg.agentId = [] ∨ fieldSeparator ∈ cfg.agentId
  · cases entries with
    | nil => exact Or.inr ⟨fun entry hentry => absurd hentry List.not_mem_nil, memory.bufferStartedAt, by simp [appendEvents]⟩
    | cons entry entries =>
        have hnone : eventOf cfg memory.generation entry.1 entry.2 = none := by
          rw [eventOf, computeSourceEventId, canonicalIdentityString_eq_none_iff.2 hbad]
          rfl
        exact Or.inl ⟨.badAgentId, by simp only [appendEvents, hnone]⟩
  · have hsome : ∀ generation (entry : Nat × ParsedRow), ∃ event,
        eventOf cfg generation entry.1 entry.2 = some event
          ∧ eventAt cfg generation entry = some (entry.1, event) := by
      intro generation entry
      obtain ⟨text, htext⟩ := Option.ne_none_iff_exists'.1
        (fun h => hbad (canonicalIdentityString_eq_none_iff.1 h) :
          canonicalIdentityString cfg.agentId cfg.source generation entry.1 ≠ none)
      refine ⟨⟨buildEvent cfg.strTimestamp cfg.customerId cfg.branchId entry.2, cfg.sha256 text⟩, ?_, ?_⟩
      · rw [eventOf, computeSourceEventId, htext]
        rfl
      · rw [eventAt, eventOf, computeSourceEventId, htext]
        rfl
    refine Or.inr ⟨?_, ?_⟩
    · intro entry _ hnone
      obtain ⟨event, -, hevent⟩ := hsome memory.generation entry
      rw [hevent] at hnone
      cases hnone
    · induction entries generalizing memory with
      | nil => exact ⟨memory.bufferStartedAt, by simp [appendEvents]⟩
      | cons entry entries ih =>
          obtain ⟨event, hevent, hat⟩ := hsome memory.generation entry
          obtain ⟨offset, row⟩ := entry
          simp only [appendEvents, hevent]
          by_cases hfirst : memory.bufferGeneration = none
          · simp only [hfirst, Option.isNone_none, if_true]
            obtain ⟨started, hstarted⟩ := ih _
            refine ⟨started, hstarted.trans ?_⟩
            simp [hat]
          · obtain ⟨generation, hgeneration⟩ := Option.ne_none_iff_exists'.1 hfirst
            simp only [hgeneration, Option.isNone_some, Bool.false_eq_true, if_false]
            obtain ⟨started, hstarted⟩ := ih _
            refine ⟨started, hstarted.trans ?_⟩
            simp [hat]

/-- A cycle that trusts its read is safe: the read starts at the read cursor, or over an empty buffer at
the start of the file. -/
theorem acceptRead_safe (hmax : 1 ≤ cfg.batchMaxEvents) {input : PollInput} {result : TailResult} {current : Token}
    {startOffset : Nat} (hdurable : durable.Sound cfg content) (hmemory : memory.Sound cfg content durable.spool)
    (hlines : result.lines = (readSafeLines content startOffset).1)
    (hoffsets : result.lineOffsets = (readSafeLines content startOffset).2.1)
    (hcursor : result.cursor = ⟨some current, (readSafeLines content startOffset).2.2⟩)
    (hboot : memory.bootstrapped = true)
    (hstart : startOffset = cursorOffset memory.readCursor ∨ startOffset = 0 ∧ memory.buffer = []) :
    Safe cfg content durable (acceptRead cfg input result memory) := by
  have hline : AtLineEnd content startOffset := by
    rcases hstart with rfl | ⟨rfl, -⟩
    · exact hmemory.atLineEnd
    · exact atLineEnd_zero _
  obtain ⟨hend, hle, hrows⟩ := rowsOf_readSafeLines cfg hline hlines hoffsets
  -- the buffer before the read holds the events from `low` up to where the read starts
  obtain ⟨low, hlow, hcovered, htotal, hbuffer⟩ : ∃ low, low ≤ startOffset
      ∧ Covered cfg content durable.spool low ∧ Total cfg memory.generation content low startOffset
      ∧ memory.buffer = between (events cfg memory.generation content) low startOffset := by
    rcases hstart with rfl | ⟨rfl, hempty⟩
    · exact hmemory.buffered
    · refine ⟨0, Nat.le_refl _, ?_, .empty _ _, by rw [between_self, hempty]⟩
      intro entry _ hlt
      omega
  rw [acceptRead]
  rcases appendEvents_cases input.startedAt (rowsOf cfg result) memory with ⟨failure, happend⟩ | ⟨htotal', started, happend⟩
  · rw [happend]
    exact .of_no_writes hdurable rfl hmemory
  · rw [happend]
    dsimp only
    generalize hmoved : Memory.moveTo _ result.cursor = moved
    have hread : moved.readCursor = some result.cursor := by rw [← hmoved]; rfl
    have hoffset : cursorOffset moved.readCursor = (readSafeLines content startOffset).2.2 := by
      rw [hread, hcursor]
      rfl
    have hgeneration : moved.generation = memory.generation := by rw [← hmoved]; rfl
    have hfilter : (rowsOf cfg result).filterMap (eventAt cfg memory.generation)
        = between (events cfg memory.generation content) startOffset (readSafeLines content startOffset).2.2 := by
      rw [between_events, hrows]
    have hnewbuffer : moved.buffer
        = between (events cfg memory.generation content) low (readSafeLines content startOffset).2.2 := by
      rw [between_cut (pairwise_events _ _) hlow hle, ← hfilter, ← hbuffer, ← hmoved]
      rfl
    have hsound : moved.Sound cfg content durable.spool := by
      refine ⟨?_, ?_, ?_, ?_, ?_, ?_, low, ?_, hcovered, ?_, ?_⟩
      · intro cursor heq
        rw [hread, hcursor] at heq
        cases heq
        simp
      · rw [hoffset]
        exact hend
      · intro cursor heq
        rw [hread, ← heq, ← hmoved]
        rfl
      · intro hnot
        rw [← hmoved, Memory.moveTo] at hnot
        exact absurd (hboot.symm.trans hnot) (by decide)
      · have hold := hmemory.generation
        rw [← hmoved, Memory.moveTo]
        by_cases hnone : rowsOf cfg result = []
        · simpa [hnone] using hold
        · have hne : (rowsOf cfg result).filterMap (eventAt cfg memory.generation) ≠ [] := by
            obtain ⟨entry, entries, hentries⟩ := List.exists_cons_of_ne_nil hnone
            obtain ⟨event, hevent⟩ := Option.ne_none_iff_exists'.1 (htotal' entry (by rw [hentries]; simp))
            rw [hentries, List.filterMap_cons, hevent]
            exact List.cons_ne_nil _ _
          by_cases hempty : memory.buffer = []
          · simp [hnone, hold, hempty, hne]
          · simp [hnone, hold, hempty]
      · intro _
        rw [hoffset, ← hmoved, Memory.moveTo, hcursor]
      · rw [hoffset]
        omega
      · rw [hoffset, hgeneration]
        intro entry hentry
        rw [between_cut (pairwise_rows _) hlow hle, List.mem_append] at hentry
        rcases hentry with hold | hnew
        · exact htotal entry hold
        · rw [← hrows] at hnew
          exact htotal' entry hnew
      · rw [hoffset, hgeneration]
        exact hnewbuffer
    have hidle : Safe cfg content durable
        (if (rowsOf cfg result).length = 0 ∧ moved.buffer = [] then persistState cfg moved
          else (⟨[], moved, .ok false⟩ : Outcome δ Bool)) := by
      split
      · next hboth => exact persistState_safe hdurable hsound hboth.2
      · exact .of_no_writes hdurable rfl hsound
    exact hidle.bind fun _ _ => flushIfDue_report_safe hmax _ hidle.durable_sound hidle.memory _

end Agent

end SortView
