import SortView.Agent.SourceRuns

/-!
# Bootstrapping at the end of the file

Under NORMAL a source that has no saved position is taken up at its current size. Runs of such a collector
over a file that only grows, and when they lose nothing that is written after the bootstrap.
-/

namespace SortView

open PyText ByteLines Reader Slices

namespace Agent

variable {δ : Type} {cfg : Config δ} {identity : Token} {initial content : Bytes} {durable : Durable δ}
  {memory : Memory δ} {world : World δ} {input : PollInput}

/-! ### Runs -/

/-- The world a poll leaves. -/
def World.poll (cfg : Config δ) (world : World δ) (input : PollInput) : World δ where
  content := world.seen input
  durable := world.durable.applyAll (pollOnce cfg world.durable.state input world.memory).writes
  memory := (pollOnce cfg world.durable.state input world.memory).memory

/-- The world a forced flush leaves. -/
def World.flush (cfg : Config δ) (world : World δ) : World δ where
  content := world.content
  durable := world.durable.applyAll (forceFlush cfg world.memory).writes
  memory := (forceFlush cfg world.memory).memory

/-- The file before its collector is first polled. -/
def World.unread (initial : Bytes) : World δ := ⟨initial, ⟨none, []⟩, .fresh⟩

/-- The runs of a collector that is bootstrapped when the file is `initial`: appends, polls and flushes, of
which none is cut short, over a file that keeps its identity. The writer may append during a poll, and the
file may be unreadable to one. -/
inductive NormalRun (cfg : Config δ) (identity : Token) (initial : Bytes) : World δ → Prop
  | bootstrap (input : PollInput) (hidentity : input.boot.identity = some identity)
      (hsize : input.boot.size = some initial.length) (hview : Grows identity initial input.view) :
      NormalRun cfg identity initial ((World.unread initial).poll cfg input)
  | append {world : World δ} (bytes : Bytes) (hrun : NormalRun cfg identity initial world) :
      NormalRun cfg identity initial { world with content := world.content ++ bytes }
  | poll {world : World δ} (input : PollInput) (hview : Grows identity world.content input.view)
      (hrun : NormalRun cfg identity initial world) : NormalRun cfg identity initial (world.poll cfg input)
  | flush {world : World δ} (hrun : NormalRun cfg identity initial world) :
      NormalRun cfg identity initial (world.flush cfg)

/-- A poll to which every call on the file succeeds, with what it reads. -/
structure Readable (view : FileView) (seen : Bytes) : Prop where
  identity : view.identity ≠ none
  size : view.size ≠ none
  content : view.content = some seen

/-! ### What is buffered -/

/-- The event of a row has been buffered: it is in an installed batch that covers it, or in the buffer. -/
def World.Buffered (cfg : Config δ) (world : World δ) (offset : Nat) (row : ParsedRow) : Prop :=
  (∃ batch ∈ world.durable.spool, batch.startOffset ≤ offset ∧ offset < batch.endOffset
      ∧ ∃ event ∈ batch.records, eventOf cfg batch.sourceGeneration offset row = some event)
    ∨ ∃ event, (offset, event) ∈ world.memory.buffer ∧ eventOf cfg world.memory.generation offset row = some event

/-- No event is made from a fragment: the installed batches and the buffer hold events of whole lines of the
file only. -/
structure World.WholeLines (cfg : Config δ) (world : World δ) : Prop where
  spool : ∀ batch ∈ world.durable.spool, batch.records.map some
    = (between (rows cfg world.content) batch.startOffset batch.endOffset).map
        fun entry => eventOf cfg batch.sourceGeneration entry.1 entry.2
  buffer : ∀ entry ∈ world.memory.buffer, ∃ row, (entry.1, row) ∈ rows cfg world.content
    ∧ eventOf cfg world.memory.generation entry.1 row = some entry.2

/-- A NORMAL bootstrap at `initial` loses nothing written after it: in every run no event is made from a
fragment, and a poll that can read the file leaves every line terminated since the bootstrap buffered, if the
parser accepts it. -/
def LosesNothing (cfg : Config δ) (initial : Bytes) : Prop :=
  ∀ identity (world : World δ), NormalRun cfg identity initial world →
    world.WholeLines cfg
      ∧ ∀ input seen, Grows identity world.content input.view → Readable input.view seen →
          ∀ offset line row, (offset, line) ∈ numberedLines seen → initial.length < offset + line.length →
            parseLine cfg.toDatetime cfg.source (decodeLine line) = some row →
            (world.poll cfg input).Buffered cfg offset row

/-! ### What a poll does with its read -/

/-- A report at the end of a call changes nothing of its memory. -/
theorem Outcome.memory_bind_report {α β : Type} (first : Outcome δ α) (report : α → β) :
    (first.bind fun memory value => ⟨[], memory, .ok (report value)⟩).memory = first.memory := by
  rw [Outcome.bind]
  split <;> rfl

theorem Outcome.writes_bind_report {α β : Type} (first : Outcome δ α) (report : α → β) :
    (first.bind fun memory value => ⟨[], memory, .ok (report value)⟩).writes = first.writes := by
  rw [Outcome.bind]
  split
  · rfl
  · exact List.append_nil _

/-- The agent ids the event identity accepts. -/
def Config.GoodAgentId (cfg : Config δ) : Prop := cfg.agentId ≠ [] ∧ fieldSeparator ∉ cfg.agentId

instance (cfg : Config δ) : Decidable cfg.GoodAgentId := inferInstanceAs (Decidable (_ ∧ _))

theorem eventOf_ne_none (hagent : cfg.GoodAgentId) (generation offset : Nat) (row : ParsedRow) :
    eventOf cfg generation offset row ≠ none := by
  intro hnone
  rw [eventOf, Option.map_eq_none_iff, computeSourceEventId, Option.map_eq_none_iff,
    canonicalIdentityString_eq_none_iff] at hnone
  rcases hnone with hempty | hmem
  · exact hagent.1 hempty
  · exact hagent.2 hmem

theorem appendEvents_ok (hagent : cfg.GoodAgentId) (startedAt : Int) (entries : List (Nat × ParsedRow))
    (memory : Memory δ) : (appendEvents cfg startedAt entries memory).2 = .ok () := by
  induction entries generalizing memory with
  | nil => rfl
  | cons entry entries ih =>
      obtain ⟨offset, row⟩ := entry
      obtain ⟨event, hevent⟩ := Option.ne_none_iff_exists'.1 (eventOf_ne_none hagent memory.generation offset row)
      simp only [appendEvents, hevent]
      exact ih _

theorem appendEvents_memory (hagent : cfg.GoodAgentId) (startedAt : Int) (entries : List (Nat × ParsedRow))
    (memory : Memory δ) :
    ∃ generation started, appendEvents cfg startedAt entries memory
      = ({ memory with
            buffer := memory.buffer ++ entries.filterMap (eventAt cfg memory.generation)
            bufferGeneration := generation
            bufferStartedAt := started }, .ok ()) := by
  rcases @appendEvents_cases δ cfg startedAt entries memory with ⟨failure, hfailed⟩ | ⟨-, started, hok⟩
  · have hfine := appendEvents_ok hagent startedAt entries memory
    rw [hfailed] at hfine
    cases hfine
  · exact ⟨_, started, hok⟩

/-- A trusted read moves the cursor to where it stopped, whether or not saving and flushing succeed. -/
theorem acceptRead_readCursor (hagent : cfg.GoodAgentId) (input : PollInput) (result : TailResult)
    (memory : Memory δ) :
    (acceptRead cfg input result memory).memory.readCursor = some result.cursor
      ∧ (acceptRead cfg input result memory).memory.bootstrapped = memory.bootstrapped := by
  obtain ⟨generation, started, happend⟩ := appendEvents_memory hagent input.startedAt (rowsOf cfg result) memory
  rw [acceptRead, happend]
  dsimp only
  generalize hmoved : Memory.moveTo _ result.cursor = moved
  have hread : moved.readCursor = some result.cursor ∧ moved.bootstrapped = memory.bootstrapped := by
    rw [← hmoved]
    exact ⟨rfl, rfl⟩
  rw [Outcome.bind]
  have hidle : (if (rowsOf cfg result).length = 0 ∧ moved.buffer = [] then persistState cfg moved
      else (⟨[], moved, .ok false⟩ : Outcome δ Bool)).memory = moved := by
    split
    · exact persistState_memory cfg moved
    · rfl
  split
  · rw [hidle]
    exact hread
  · rw [hidle, Outcome.memory_bind_report]
    obtain ⟨hcursor, hboot⟩ := flushIfDue_readCursor cfg moved input.now
    exact ⟨hcursor.trans hread.1, hboot.trans hread.2⟩

/-- A read of a file that keeps its identity and only grows goes on where the cursor stands, or finds the
file unreadable. -/
theorem readNewLines_grows {view : FileView} {offset : Nat} (hview : Grows identity content view)
    (hoffset : offset ≤ content.length) :
    (readNewLines view (some ⟨some identity, offset⟩)).existed = false
        ∧ (∀ seen, ¬ Readable view seen)
      ∨ ∃ seen, view.content = some seen
        ∧ readNewLines view (some ⟨some identity, offset⟩)
            = ⟨(readSafeLines seen offset).1, (readSafeLines seen offset).2.1,
                ⟨some identity, (readSafeLines seen offset).2.2⟩, true, false, false⟩ := by
  rw [readNewLines]
  cases hidentity : view.identity with
  | none => exact Or.inl ⟨rfl, fun seen hreadable => hreadable.identity hidentity⟩
  | some current =>
      obtain rfl := hview.identity current hidentity
      cases hsize : view.size with
      | none => exact Or.inl ⟨by simp, fun seen hreadable => hreadable.size hsize⟩
      | some currentSize =>
          have hpast := hview.size currentSize hsize
          have hnot : ¬ currentSize < offset := by omega
          cases hcontent : view.content with
          | none => exact Or.inl ⟨by simp [hnot], fun seen hreadable => by simp [hreadable.content] at hcontent⟩
          | some seen => exact Or.inr ⟨seen, rfl, by simp [hnot]⟩

theorem pollRead_unreadable (cfg : Config δ) {view : FileView} (hview : input.view = view)
    (hexisted : (readNewLines view memory.readCursor).existed = false) :
    (pollRead cfg input memory).memory.readCursor = memory.readCursor
      ∧ (pollRead cfg input memory).memory.bootstrapped = memory.bootstrapped := by
  rw [pollRead, hview]
  simp only [if_pos hexisted]
  rw [Outcome.memory_bind_report]
  exact flushIfDue_readCursor cfg memory input.now

theorem pollRead_clean {result : TailResult} (hresult : readNewLines input.view memory.readCursor = result)
    (hexisted : result.existed = true) (hrotated : result.rotated = false) (htruncated : result.truncated = false) :
    pollRead cfg input memory = acceptRead cfg input result { memory with pendingDiscontinuity := none } := by
  rw [pollRead, hresult]
  simp [hexisted, candidateOf, hrotated, htruncated]

/-! ### Lines after an offset -/

theorem le_of_terminated_after {offset base : Nat} {line : Bytes} (hline : AtLineEnd content base)
    (hmem : (offset, line) ∈ numberedLines content) (hafter : base < offset + line.length) : base ≤ offset := by
  obtain ⟨hsplit, -, hlater⟩ := numberedLines_split hline
  rw [hsplit] at hmem
  rcases List.mem_append.1 hmem with hbelow | habove
  · have hbounds := bounds_of_mem_numbered hbelow
    rw [size_linesBelow hline] at hbounds
    omega
  · exact hlater _ habove

/-- A read from the end of a line stops after every complete line. -/
theorem lt_readSafeLines {offset start : Nat} {line : Bytes} (hline : AtLineEnd content start)
    (hmem : (offset, line) ∈ numberedLines content) : offset < (readSafeLines content start).2.2 := by
  obtain ⟨hsplit, hbelow, -⟩ := numberedLines_split hline
  rw [hsplit] at hmem
  rcases List.mem_append.1 hmem with hearlier | hhere
  · exact Nat.lt_of_lt_of_le (hbelow _ hearlier) (Nat.le_add_right _ _)
  · have hbounds := bounds_of_mem_numbered hhere
    have hpos := length_pos_of_mem_numbered hhere
    simp only [readSafeLines, readLines_length]
    dsimp only at hpos
    omega

theorem NormalRun.prefix_content (hrun : NormalRun cfg identity initial world) : initial <+: world.content := by
  induction hrun with
  | bootstrap input _ _ hview => exact (World.unread initial : World δ).prefix_seen hview.content
  | append bytes _ ih => exact ih.trans (List.prefix_append ..)
  | poll input hview _ ih => exact ih.trans (World.prefix_seen hview.content)
  | flush _ ih => exact ih

/-! ### Starting at the end of a line -/

/-- The durable part as it would be had the lines before the bootstrap been installed too. -/
def Durable.after (earlier : List (SpoolBatch δ)) (durable : Durable δ) : Durable δ :=
  ⟨durable.state, earlier ++ durable.spool⟩

theorem Durable.after_applyAll (earlier : List (SpoolBatch δ)) (durable : Durable δ) (writes : List (Write δ)) :
    (durable.after earlier).applyAll writes = (durable.applyAll writes).after earlier := by
  induction writes generalizing durable with
  | nil => rfl
  | cons write writes ih =>
      have hone : (durable.after earlier).apply write = (durable.apply write).after earlier := by
        cases write with
        | batch batch => simp [Durable.after, Durable.apply]
        | state state => rfl
      rw [Durable.applyAll, List.foldl_cons, hone]
      exact ih (durable.apply write)

/-- What a run from a bootstrap at `base` keeps: together with batches for the lines before `base` the
durable part and the memory are sound, and the cursor is one of the file. -/
structure World.Seeded (cfg : Config δ) (identity : Token) (base : Nat) (world : World δ) : Prop where
  cursor : ∃ offset, world.memory.readCursor = some ⟨some identity, offset⟩
  bootstrapped : world.memory.bootstrapped = true
  sound : ∃ earlier : List (SpoolBatch δ), (∀ batch ∈ earlier, batch.endOffset ≤ base)
    ∧ (world.durable.after earlier).Sound cfg world.content
    ∧ world.memory.Sound cfg world.content (world.durable.after earlier).spool

theorem pollOnce_bootstrapped (prior : Option SourceState) (hboot : memory.bootstrapped = true) :
    pollOnce cfg prior input memory = pollRead cfg input memory := by
  rw [pollOnce]
  unfold bootstrapIfNeeded
  rw [if_pos hboot]
  rfl

/-- A poll keeps the cursor on the file. -/
theorem pollRead_cursor (hagent : cfg.GoodAgentId) (hview : Grows identity content input.view)
    (hboot : memory.bootstrapped = true) {offset : Nat} (hcursor : memory.readCursor = some ⟨some identity, offset⟩)
    (hoffset : offset ≤ content.length) :
    (∃ offset, (pollRead cfg input memory).memory.readCursor = some ⟨some identity, offset⟩)
      ∧ (pollRead cfg input memory).memory.bootstrapped = true
      ∧ ∀ seen, Readable input.view seen →
          (pollRead cfg input memory).memory.readCursor = some ⟨some identity, (readSafeLines seen offset).2.2⟩ := by
  rcases readNewLines_grows hview hoffset with ⟨hmissing, hunreadable⟩ | ⟨found, hfound, hresult⟩
  · rw [← hcursor] at hmissing
    obtain ⟨hsame, hstill⟩ := pollRead_unreadable cfg rfl hmissing
    exact ⟨⟨offset, hsame.trans hcursor⟩, hstill.trans hboot, fun seen hreadable => absurd hreadable (hunreadable seen)⟩
  · rw [← hcursor] at hresult
    rw [pollRead_clean hresult rfl rfl rfl]
    obtain ⟨hmoved, hstill⟩ := acceptRead_readCursor hagent input _ { memory with pendingDiscontinuity := none }
    refine ⟨⟨_, hmoved⟩, hstill.trans hboot, ?_⟩
    intro seen hreadable
    obtain rfl := Option.some.inj (hfound.symm.trans hreadable.content)
    exact hmoved

/-- A poll whose bootstrap is done keeps the invariant. -/
theorem World.Seeded.pollRead (hagent : cfg.GoodAgentId) (hmax : 1 ≤ cfg.batchMaxEvents) {base : Nat}
    (h : World.Seeded cfg identity base ⟨content, durable, memory⟩) (hview : Grows identity content input.view) :
    World.Seeded cfg identity base ⟨input.view.content.getD content,
      durable.applyAll (pollRead cfg input memory).writes, (pollRead cfg input memory).memory⟩ := by
  obtain ⟨offset, hcursor⟩ := h.cursor
  obtain ⟨earlier, hearlier, hdurable, hmemory⟩ := h.sound
  have hgrow : content <+: input.view.content.getD content :=
    (⟨content, durable, memory⟩ : World δ).prefix_seen hview.content
  have hoffset : offset ≤ content.length := by
    have hline := hmemory.atLineEnd
    rw [hcursor] at hline
    exact hline.1
  have hseen : ∀ seen, input.view.content = some seen → seen = input.view.content.getD content := by
    intro seen hseen
    rw [hseen]
    rfl
  have hsafe := pollRead_safe hmax (hdurable.grow hgrow) (hmemory.grow hgrow) h.bootstrapped hseen
  obtain ⟨hread, hstill, -⟩ := pollRead_cursor hagent hview h.bootstrapped hcursor hoffset
  refine ⟨hread, hstill, earlier, hearlier, ?_, ?_⟩
  · have hsound := hsafe.durable_sound
    rwa [Durable.after_applyAll] at hsound
  · have hsound := hsafe.memory
    rwa [Durable.after_applyAll] at hsound

theorem World.Seeded.poll (hagent : cfg.GoodAgentId) (hmax : 1 ≤ cfg.batchMaxEvents) {base : Nat}
    (h : world.Seeded cfg identity base) (hview : Grows identity world.content input.view) :
    (world.poll cfg input).Seeded cfg identity base := by
  have hpoll := h.pollRead hagent hmax hview
  rw [World.poll, pollOnce_bootstrapped _ h.bootstrapped]
  exact hpoll

theorem World.Seeded.flush (hmax : 1 ≤ cfg.batchMaxEvents) {base : Nat} (h : world.Seeded cfg identity base) :
    (world.flush cfg).Seeded cfg identity base := by
  obtain ⟨earlier, hearlier, hdurable, hmemory⟩ := h.sound
  obtain ⟨hsafe, -⟩ := flush_safe hmax hdurable hmemory
  obtain ⟨hread, hstill⟩ := flush_readCursor cfg world.memory
  obtain ⟨offset, hcursor⟩ := h.cursor
  refine ⟨⟨offset, hread.trans hcursor⟩, hstill.trans h.bootstrapped, earlier, hearlier, ?_, ?_⟩
  · have hsound := hsafe.durable_sound
    rwa [Durable.after_applyAll] at hsound
  · have hsound := hsafe.memory
    rwa [Durable.after_applyAll] at hsound

theorem World.Seeded.grow {base : Nat} (h : world.Seeded cfg identity base) (bytes : Bytes) :
    World.Seeded cfg identity base { world with content := world.content ++ bytes } := by
  obtain ⟨earlier, hearlier, hdurable, hmemory⟩ := h.sound
  exact ⟨h.cursor, h.bootstrapped, earlier, hearlier, hdurable.grow (List.prefix_append ..),
    hmemory.grow (List.prefix_append ..)⟩

/-- The memory a NORMAL bootstrap leaves. -/
def Memory.seeded (identity : Token) (base : Nat) : Memory δ :=
  { Memory.fresh with readCursor := some ⟨some identity, base⟩, generation := 0, bootstrapped := true }

/-- A bootstrap at the end of a line starts the invariant. -/
theorem seeded_bootstrap (hagent : cfg.GoodAgentId) {base : Nat} (hline : AtLineEnd content base) {durable : Durable δ}
    (hspool : durable.spool = []) (hstate : ∀ saved, durable.state = some saved → saved.cursor = ⟨some identity, base⟩) :
    World.Seeded cfg identity base ⟨content, durable, .seeded identity base⟩ := by
  have htotal : ∀ low high, Total cfg 0 content low high := fun low high entry _ hnone =>
    eventOf_ne_none hagent 0 entry.1 entry.2 (Option.map_eq_none_iff.1 hnone)
  let whole : SpoolBatch δ := ⟨0, 0, base, (between (events cfg 0 content) 0 base).map Prod.snd⟩
  let earlier : List (SpoolBatch δ) := if base = 0 then [] else [whole]
  have hearlier : ∀ batch ∈ earlier, batch = whole ∧ 0 < base := by
    intro batch hbatch
    simp only [earlier] at hbatch
    split at hbatch
    · cases hbatch
    · next hpos => exact ⟨List.mem_singleton.1 hbatch, Nat.pos_of_ne_zero hpos⟩
  have hcovered : Covered cfg content earlier base := by
    intro entry hentry hlt
    refine ⟨whole, ?_, Nat.zero_le _, hlt⟩
    simp only [earlier]
    rw [if_neg (by omega)]
    exact List.mem_singleton_self _
  have hall : (durable.after earlier).spool = earlier := by rw [Durable.after, hspool, List.append_nil]
  refine ⟨⟨base, rfl⟩, rfl, earlier, ?_, ⟨?_, ?_, ?_, ?_⟩, ⟨?_, hline, ?_, ?_, rfl, ?_, base, Nat.le_refl _, ?_, htotal _ _, ?_⟩⟩
  · intro batch hbatch
    rw [(hearlier batch hbatch).1]
  · intro batch hbatch
    rw [hall] at hbatch
    obtain ⟨rfl, hpos⟩ := hearlier batch hbatch
    exact ⟨hpos, ⟨base, hline, Nat.le_refl _⟩, htotal _ _, rfl⟩
  · intro saved hsaved
    rw [hstate saved hsaved]
    simp
  · intro saved hsaved
    rw [hstate saved hsaved]
    exact hline
  · intro saved hsaved
    rw [hstate saved hsaved, hall]
    exact hcovered
  · intro cursor hcursor
    obtain rfl := Option.some.inj hcursor
    simp
  · intro cursor hcursor
    cases hcursor
  · intro hnot
    cases hnot
  · exact fun hbuffer => absurd rfl hbuffer
  · rw [hall]
    exact hcovered
  · exact (between_self _ _).symm

/-- The first poll either saves the position of the bootstrap and reads on, or raises because the position is
too large to save; the memory is seeded all the same. -/
theorem pollOnce_normal (hnormal : cfg.bootstrapMode = .normal) {base : Nat}
    (hidentity : input.boot.identity = some identity) (hsize : input.boot.size = some base) :
    (∃ failure, pollOnce cfg none input .fresh = ⟨[], .seeded identity base, .error failure⟩)
      ∨ ∃ state, state.cursor = ⟨some identity, base⟩
        ∧ pollOnce cfg none input .fresh
          = ⟨.state state :: (pollRead cfg input (.seeded identity base)).writes,
              (pollRead cfg input (.seeded identity base)).memory,
              (pollRead cfg input (.seeded identity base)).value⟩ := by
  rw [pollOnce]
  unfold bootstrapIfNeeded
  simp only [Memory.fresh, Bool.false_eq_true, if_false, hnormal, hidentity, hsize]
  cases hstate : sourceState cfg.path ⟨some identity, base⟩ 0 with
  | error failure => exact Or.inl ⟨failure, rfl⟩
  | ok state =>
      refine Or.inr ⟨state, ?_, rfl⟩
      rw [sourceState] at hstate
      split_ifs at hstate
      cases hstate
      rfl

/-- A run from a bootstrap at the end of a line keeps the invariant. -/
theorem NormalRun.seeded (hnormal : cfg.bootstrapMode = .normal) (hagent : cfg.GoodAgentId)
    (hmax : 1 ≤ cfg.batchMaxEvents) (hline : AtLineEnd initial initial.length)
    (hrun : NormalRun cfg identity initial world) : world.Seeded cfg identity initial.length := by
  induction hrun with
  | bootstrap input hidentity hsize hview =>
      have hgrow : initial <+: (World.unread initial : World δ).seen input :=
        (World.unread initial : World δ).prefix_seen hview.content
      rw [World.poll]
      show World.Seeded cfg identity _ ⟨_, Durable.applyAll ⟨none, []⟩ (pollOnce cfg none input .fresh).writes,
        (pollOnce cfg none input .fresh).memory⟩
      rcases pollOnce_normal hnormal hidentity hsize with ⟨failure, hpoll⟩ | ⟨state, hcursor, hpoll⟩
      · rw [hpoll]
        exact seeded_bootstrap hagent (hline.mono hgrow) rfl fun saved hsaved => by cases hsaved
      · have hcursors : ∀ saved, (⟨some state, []⟩ : Durable δ).state = some saved →
            saved.cursor = ⟨some identity, initial.length⟩ := by
          intro saved heq
          cases heq
          exact hcursor
        have hsaved := seeded_bootstrap hagent hline rfl hcursors
        have hread := hsaved.pollRead hagent hmax hview
        rw [hpoll]
        exact hread
  | append bytes _ ih => exact ih.grow bytes
  | poll input hview _ ih => exact ih.poll hagent hmax hview
  | flush _ ih => exact ih.flush hmax

theorem World.Seeded.wholeLines {base : Nat} (h : world.Seeded cfg identity base) : world.WholeLines cfg := by
  obtain ⟨earlier, -, hdurable, hmemory⟩ := h.sound
  constructor
  · intro batch hbatch
    exact (hdurable.batch batch (List.mem_append_right _ hbatch)).records_map
  · intro entry hentry
    obtain ⟨low, -, -, -, hbuffer⟩ := hmemory.buffered
    rw [hbuffer, between_events] at hentry
    obtain ⟨row, hrow, hat⟩ := List.mem_filterMap.1 hentry
    obtain ⟨event, hevent, rfl⟩ := Option.map_eq_some_iff.1 hat
    exact ⟨row.2, (mem_between.1 hrow).1, hevent⟩

/-- Below the cursor every row of a line terminated after the bootstrap is buffered. -/
theorem World.Seeded.buffered {base offset : Nat} {row : ParsedRow} (h : world.Seeded cfg identity base)
    (hrow : (offset, row) ∈ rows cfg world.content) (hbase : base ≤ offset)
    (hread : offset < cursorOffset world.memory.readCursor) : world.Buffered cfg offset row := by
  obtain ⟨earlier, hearlier, hdurable, hmemory⟩ := h.sound
  obtain ⟨low, -, hcovered, htotal, hbuffer⟩ := hmemory.buffered
  by_cases hlow : offset < low
  · obtain ⟨batch, hbatch, hrange⟩ := hcovered _ hrow hlow
    have hexact := hdurable.batch batch hbatch
    have hinside := mem_between.2 ⟨hrow, hrange⟩
    obtain ⟨event, hevent⟩ := Option.ne_none_iff_exists'.1 (hexact.total _ hinside)
    obtain ⟨found, hfound, rfl⟩ := Option.map_eq_some_iff.1 hevent
    rcases List.mem_append.1 hbatch with hbefore | hinstalled
    · have hend := hearlier batch hbefore
      exact absurd hrange.2 (by dsimp only; omega)
    · refine Or.inl ⟨batch, hinstalled, hrange.1, hrange.2, found, ?_, hfound⟩
      rw [hexact.records, between_events]
      exact List.mem_map.2 ⟨_, List.mem_filterMap.2 ⟨_, hinside, hevent⟩, rfl⟩
  · have hinside := mem_between.2 ⟨hrow, Nat.le_of_not_lt hlow, hread⟩
    obtain ⟨event, hevent⟩ := Option.ne_none_iff_exists'.1 (htotal _ hinside)
    obtain ⟨found, hfound, rfl⟩ := Option.map_eq_some_iff.1 hevent
    refine Or.inr ⟨found, ?_, hfound⟩
    rw [hbuffer, between_events]
    exact List.mem_filterMap.2 ⟨_, hinside, hevent⟩

/-- A bootstrap at the end of a line loses nothing. -/
theorem losesNothing_of_atLineEnd (hnormal : cfg.bootstrapMode = .normal) (hagent : cfg.GoodAgentId)
    (hmax : 1 ≤ cfg.batchMaxEvents) (hline : AtLineEnd initial initial.length) : LosesNothing cfg initial := by
  intro identity world hrun
  have hseeded := hrun.seeded hnormal hagent hmax hline
  refine ⟨hseeded.wholeLines, ?_⟩
  intro input seen hview hreadable offset line row hmem hafter hrow
  have hpolled := hseeded.poll hagent hmax hview
  have hcontent : (world.poll cfg input).content = seen := by
    show input.view.content.getD world.content = seen
    rw [hreadable.content]
    rfl
  have hinitial : initial <+: seen := by
    have hruns := hrun.prefix_content
    exact hruns.trans (hview.content seen hreadable.content)
  obtain ⟨start, hcursor⟩ := hseeded.cursor
  obtain ⟨earlier, -, -, hmemory⟩ := hseeded.sound
  have hstart := hmemory.atLineEnd
  rw [hcursor] at hstart
  obtain ⟨-, -, hmoved⟩ := pollRead_cursor hagent hview hseeded.bootstrapped hcursor hstart.1
  have hread : (world.poll cfg input).memory.readCursor = some ⟨some identity, (readSafeLines seen start).2.2⟩ := by
    rw [World.poll, pollOnce_bootstrapped _ hseeded.bootstrapped]
    exact hmoved seen hreadable
  refine hpolled.buffered ?_ ?_ ?_
  · rw [hcontent]
    exact List.mem_filterMap.2 ⟨(offset, line), hmem, by rw [hrow]; rfl⟩
  · exact le_of_terminated_after (hline.mono hinitial) hmem hafter
  · rw [hread]
    exact lt_readSafeLines (hstart.mono (hview.content seen hreadable.content)) hmem

/-! ### Starting inside a line -/

/-- A line each parser accepts, whatever its timestamp is read as. -/
def shortestLine : SourceName → Bytes
  | .checkins => "|||||||||||||\n".toUTF8.toList
  | .rejects => "|||\n".toUTF8.toList
  | .acs => "\x02\x02\n".toUTF8.toList

theorem parseLine_shortestLine (toDatetime : Text → Option Naive) (source : SourceName) :
    ∃ row, parseLine toDatetime source (decodeLine (shortestLine source)) = some row := by
  cases source with
  | checkins =>
      have htext : decodeLine (shortestLine .checkins) = "|||||||||||||\n".toList := by decide +kernel
      rw [htext]
      exact ⟨_, rfl⟩
  | rejects =>
      have htext : decodeLine (shortestLine .rejects) = "|||\n".toList := by decide +kernel
      rw [htext]
      exact ⟨_, rfl⟩
  | acs =>
      have htext : decodeLine (shortestLine .acs) = "\x02\x02\n".toList := by decide +kernel
      rw [htext]
      exact ⟨_, rfl⟩

theorem splitLines_shortestLine (source : SourceName) :
    splitLines (shortestLine source) = ([shortestLine source], []) := by
  cases source <;> decide +kernel

theorem splitLines_rest (bs : Bytes) : splitLines (splitLines bs).2 = ([], (splitLines bs).2) := by
  have hwhole := splitLines_append bs []
  rw [List.append_nil, List.append_nil] at hwhole
  have hnone : (splitLines (splitLines bs).2).1 = [] := by
    have hfst := congrArg Prod.fst hwhole
    simpa using hfst
  have hsame := congrArg Prod.snd hwhole
  exact Prod.ext hnone hsame.symm

/-- A line completes the partial line before it. -/
theorem splitLines_complete {start last : Bytes} (hstart : splitLines start = ([], start))
    (hlast : splitLines last = ([last], [])) : splitLines (start ++ last) = ([start ++ last], []) := by
  induction start with
  | nil => exact hlast
  | cons b start ih =>
      rw [splitLines] at hstart
      by_cases hb : b = newline
      · rw [if_pos hb] at hstart
        cases hstart
      · rw [if_neg hb] at hstart
        have hrest : splitLines start = ([], start) := by
          cases hlines : (splitLines start).1 with
          | nil =>
              rw [hlines] at hstart
              exact Prod.ext hlines (List.cons.inj (congrArg Prod.snd hstart)).2
          | cons line lines =>
              rw [hlines] at hstart
              cases hstart
        rw [List.cons_append, splitLines, if_neg hb, ih hrest]

/-- The line that completes a partial one starts before the partial one ends. -/
theorem rows_lt_of_partial (hcut : ¬ AtLineEnd initial initial.length) {last : Bytes}
    (hlast : splitLines last = ([last], [])) {entry : Nat × ParsedRow} (hentry : entry ∈ rows cfg (initial ++ last)) :
    entry.1 < initial.length := by
  obtain ⟨line, hline, heq⟩ := fst_mem_of_mem_rowsOfLines hentry
  rw [← heq]
  have hrest : (splitLines initial).2 ≠ [] := by
    intro hnil
    exact hcut ((atLineEnd_iff _ _).2 ⟨Nat.le_refl _, by rwa [List.take_length]⟩)
  have hflat := congrArg List.length (splitLines_flatten initial)
  rw [List.length_append, ← size_eq_flatten] at hflat
  have hpos := List.length_pos_of_ne_nil hrest
  rw [numberedLines, splitLines_append, splitLines_complete (splitLines_rest initial) hlast, numbered_append] at hline
  rcases List.mem_append.1 hline with hbefore | hcompleted
  · have hbounds := @bounds_of_mem_numbered _ _ _ line.2 hbefore
    have hline := length_pos_of_mem_numbered hbefore
    omega
  · obtain rfl := List.mem_singleton.1 hcompleted
    dsimp only
    omega

/-- The chunks of a buffer of one event. -/
theorem slices_singleton {α : Type} (item : α) {size : Nat} (hsize : 1 ≤ size) : slices [item] size = [[item]] := by
  have hflat := flatten_slices [item] hsize
  have hne : ∀ part ∈ slices [item] size, part ≠ [] := fun part => ne_nil_of_mem_slices
  generalize slices [item] size = parts at hflat hne
  cases parts with
  | nil => simp at hflat
  | cons part parts =>
      obtain ⟨first, rest, rfl⟩ := List.exists_cons_of_ne_nil (hne part (List.mem_cons_self ..))
      rw [List.flatten_cons, List.cons_append, List.cons.injEq, List.append_eq_nil_iff] at hflat
      obtain ⟨rfl, rfl, hnone⟩ := hflat
      cases parts with
      | nil => rfl
      | cons other parts =>
          rw [List.flatten_cons, List.append_eq_nil_iff] at hnone
          exact absurd hnone.1 (hne other (by simp))

/-- Flushing one event installs a batch that starts at it, or keeps it in the buffer. -/
theorem flush_singleton (hmax : 1 ≤ cfg.batchMaxEvents) {entry : Nat × Event δ} {finalEnd : Nat}
    (hbuffer : memory.buffer = [entry]) (hend : memory.bufferFinalEndOffset = some finalEnd) (durable : Durable δ) :
    (flush cfg memory).memory.buffer = [entry]
      ∨ ∃ batch ∈ (durable.applyAll (flush cfg memory).writes).spool,
          batch.startOffset = entry.1 ∧ batch.records = [entry.2] := by
  rw [flush, hbuffer, if_neg (by simp), hend]
  simp only [slices_singleton _ hmax, batchesOf, writeBatches]
  cases hcheck : checkBatch (⟨memory.bufferGeneration.getD memory.generation, chunkStart [entry], finalEnd,
      [entry].map Prod.snd⟩ : SpoolBatch δ) with
  | error failure => exact Or.inl hbuffer
  | ok batch =>
      right
      rw [checkBatch] at hcheck
      split_ifs at hcheck
      cases hcheck
      refine ⟨⟨memory.bufferGeneration.getD memory.generation, entry.1, finalEnd, [entry.2]⟩, ?_, rfl, rfl⟩
      dsimp only
      rw [Durable.applyAll_append]
      have hkeep : ∀ (durable : Durable δ) (writes : List (Write δ)), ∀ batch ∈ durable.spool,
          batch ∈ (durable.applyAll writes).spool := by
        intro durable writes
        induction writes generalizing durable with
        | nil => exact fun batch hbatch => hbatch
        | cons write writes ih =>
            intro batch hbatch
            refine ih (durable.apply write) batch ?_
            cases write with
            | batch other => exact List.mem_append_left _ hbatch
            | state state => exact hbatch
      exact hkeep _ _ _ (List.mem_append_right _ (List.mem_singleton_self _))

/-- The poll that finds a partial line completed buffers what the parser makes of the rest of the line. -/
theorem poll_fragment (hagent : cfg.GoodAgentId) (hmax : 1 ≤ cfg.batchMaxEvents)
    (hmemory : world.memory = .seeded identity initial.length) {last : Bytes} (hlast : splitLines last = ([last], []))
    {row : ParsedRow} (hrow : parseLine cfg.toDatetime cfg.source (decodeLine last) = some row)
    (hview : input.view = ⟨some identity, some (initial ++ last).length, some (initial ++ last)⟩) :
    (∃ event, (world.poll cfg input).memory.buffer = [(initial.length, event)])
      ∨ ∃ batch ∈ (world.poll cfg input).durable.spool, batch.startOffset = initial.length
        ∧ ∃ event, batch.records = [event] := by
  have hread : readSafeLines (initial ++ last) initial.length
      = ([decodeLine last], [initial.length], initial.length + last.length) := by
    rw [readSafeLines, List.drop_left, readLines_length, hlast]
    rfl
  have hresult : readNewLines input.view world.memory.readCursor
      = ⟨[decodeLine last], [initial.length], ⟨some identity, initial.length + last.length⟩, true, false, false⟩ := by
    rw [hmemory, hview, Memory.seeded, readNewLines]
    simp [hread]
  obtain ⟨event, hevent⟩ := Option.ne_none_iff_exists'.1 (eventOf_ne_none hagent 0 initial.length row)
  have hrows : rowsOf cfg ⟨[decodeLine last], [initial.length], ⟨some identity, initial.length + last.length⟩, true,
      false, false⟩ = [(initial.length, row)] := by
    rw [rowsOf, zip_parseLinesWithOffsets]
    simp [hrow]
  have hboot : world.memory.bootstrapped = true := by rw [hmemory]; rfl
  rw [World.poll, pollOnce_bootstrapped _ hboot, pollRead_clean hresult rfl rfl rfl, acceptRead, hrows, hmemory]
  simp only [appendEvents, Memory.seeded, Memory.fresh, hevent, Option.isNone_none, if_true, List.nil_append,
    List.length_singleton, Nat.one_ne_zero, false_and, if_false]
  generalize hmoved : Memory.moveTo _ _ = moved
  have hbuffer : moved.buffer = [(initial.length, event)] := by rw [← hmoved]; rfl
  have hend : moved.bufferFinalEndOffset = some (initial.length + last.length) := by rw [← hmoved]; rfl
  have hflushed : (flushIfDue cfg moved input.now).memory.buffer = [(initial.length, event)]
      ∨ ∃ batch ∈ (world.durable.applyAll (flushIfDue cfg moved input.now).writes).spool,
          batch.startOffset = initial.length ∧ batch.records = [event] := by
    rw [flushIfDue]
    split
    · exact flush_singleton hmax hbuffer hend world.durable
    · exact Or.inl hbuffer
  have hidle : ∀ next : Memory δ → Bool → Outcome δ CycleReport,
      (⟨[], moved, .ok false⟩ : Outcome δ Bool).bind next = next moved false := fun _ => rfl
  simp only [hidle, Outcome.memory_bind_report, Outcome.writes_bind_report]
  rcases hflushed with hkept | ⟨batch, hbatch, hstart, hrecords⟩
  · exact Or.inl ⟨event, hkept⟩
  · exact Or.inr ⟨batch, hbatch, hstart, event, hrecords⟩

/-- A bootstrap poll that cannot open the file leaves the seeded memory. -/
theorem poll_unopened (hnormal : cfg.bootstrapMode = .normal) {seen : FileView}
    (hseen : seen = ⟨some identity, some initial.length, none⟩) :
    ((World.unread initial).poll cfg ⟨seen, seen, 0, 0⟩).memory = .seeded identity initial.length := by
  have hunread : readNewLines seen (some ⟨some identity, initial.length⟩)
      = ⟨[], [], ⟨some identity, initial.length⟩, false, false, false⟩ := by
    rw [hseen, readNewLines]
    simp
  have hpoll : pollRead cfg ⟨seen, seen, 0, 0⟩ (.seeded identity initial.length)
      = ⟨[], .seeded identity initial.length, .ok ⟨false, false, false, 0, 0, 0, false, true, false⟩⟩ := by
    rw [pollRead]
    simp only [Memory.seeded, Memory.fresh, hunread, if_true]
    rfl
  have hidentity : (⟨seen, seen, 0, 0⟩ : PollInput).boot.identity = some identity := by rw [hseen]
  have hsize : (⟨seen, seen, 0, 0⟩ : PollInput).boot.size = some initial.length := by rw [hseen]
  have hresult := pollOnce_normal hnormal hidentity hsize
  rw [World.poll]
  show (pollOnce cfg none ⟨seen, seen, 0, 0⟩ .fresh).memory = _
  rcases hresult with ⟨failure, hresult⟩ | ⟨state, -, hresult⟩
  · rw [hresult]
  · rw [hresult, hpoll]

/-- A bootstrap inside a line makes an event of a fragment in some run. -/
theorem not_losesNothing_of_partial (hnormal : cfg.bootstrapMode = .normal) (hagent : cfg.GoodAgentId)
    (hmax : 1 ≤ cfg.batchMaxEvents) (hcut : ¬ AtLineEnd initial initial.length) : ¬ LosesNothing cfg initial := by
  intro hloses
  let identity : Token := (0, 0)
  let last := shortestLine cfg.source
  have hlast : splitLines last = ([last], []) := splitLines_shortestLine cfg.source
  obtain ⟨row, hrow⟩ := parseLine_shortestLine cfg.toDatetime cfg.source
  let unopened : FileView := ⟨some identity, some initial.length, none⟩
  let opened : FileView := ⟨some identity, some (initial ++ last).length, some (initial ++ last)⟩
  have hfirst : NormalRun cfg identity initial ((World.unread initial).poll cfg ⟨unopened, unopened, 0, 0⟩) := by
    refine .bootstrap _ rfl rfl ⟨fun current h => (Option.some.inj h).symm, fun size h => ?_, fun seen h => ?_⟩
    · exact Nat.le_of_eq (Option.some.inj h)
    · cases h
  have hgrows : Grows identity ((World.unread initial).poll cfg ⟨unopened, unopened, 0, 0⟩).content opened := by
    refine ⟨fun current h => (Option.some.inj h).symm, fun size h => ?_, fun seen h => ?_⟩
    · rw [← Option.some.inj h, List.length_append]
      exact Nat.le_add_right _ _
    · rw [← Option.some.inj h]
      exact List.prefix_append _ _
  have hsecond := NormalRun.poll ⟨opened, unopened, 0, 0⟩ hgrows hfirst
  have hmemory : ((World.unread initial).poll cfg ⟨unopened, unopened, 0, 0⟩).memory
      = .seeded identity initial.length := poll_unopened hnormal rfl
  have hwhole := (hloses identity _ hsecond).1
  have hbelow : ∀ entry ∈ rows cfg (initial ++ last), entry.1 < initial.length := fun entry hentry =>
    rows_lt_of_partial hcut hlast hentry
  have hview : (⟨opened, unopened, 0, 0⟩ : PollInput).view
      = ⟨some identity, some (initial ++ last).length, some (initial ++ last)⟩ := rfl
  rcases poll_fragment hagent hmax hmemory hlast hrow hview with
    ⟨event, hbuffer⟩ | ⟨batch, hbatch, hstart, event, hrecords⟩
  · obtain ⟨found, hfound, -⟩ := hwhole.buffer (initial.length, event) (by rw [hbuffer]; exact List.mem_singleton_self _)
    exact Nat.lt_irrefl _ (hbelow _ hfound)
  · have hsame := hwhole.spool batch hbatch
    have hnil : between (rows cfg (initial ++ last)) batch.startOffset batch.endOffset = [] := by
      apply between_eq_nil
      intro entry hentry
      rw [hstart]
      exact Or.inl (hbelow entry hentry)
    rw [hrecords] at hsame
    have hrows : between (rows cfg ((World.poll cfg ((World.unread initial).poll cfg ⟨unopened, unopened, 0, 0⟩)
        ⟨opened, unopened, 0, 0⟩).content)) batch.startOffset batch.endOffset = [] := hnil
    rw [hrows] at hsame
    cases hsame

/-- Exactly the bootstraps at the end of a line, or in an empty file, lose nothing that is written after
them. -/
theorem normal_bootstrap_loses_nothing_iff (hnormal : cfg.bootstrapMode = .normal) (hagent : cfg.GoodAgentId)
    (hmax : 1 ≤ cfg.batchMaxEvents) (initial : Bytes) :
    LosesNothing cfg initial ↔ initial = [] ∨ initial.getLast? = some newline := by
  have hiff : AtLineEnd initial initial.length ↔ initial = [] ∨ initial.getLast? = some newline := by
    rw [AtLineEnd, List.take_length, List.getLast?_eq_none_iff]
    exact and_iff_right (Nat.le_refl _)
  rw [← hiff]
  constructor
  · intro hloses
    by_contra hcut
    exact not_losesNothing_of_partial hnormal hagent hmax hcut hloses
  · exact losesNothing_of_atLineEnd hnormal hagent hmax

/-! A Checkins.txt that is bootstrapped after the first two bytes of a line. -/

def checkinCfg : Config Text := {
  sampleCfg with source := .checkins, path := "Checkins.txt".toList, bootstrapMode := .normal, batchMaxEvents := 100 }

theorem normal_bootstrap_loses_nothing_header : LosesNothing checkinCfg "Title\n".toUTF8.toList :=
  (normal_bootstrap_loses_nothing_iff rfl (by decide) (by decide) _).2 (Or.inr (by decide +kernel))

def partialLine : Bytes := "Ti".toUTF8.toList

def wholeLine : Bytes :=
  "Title|31234|BOOK|QA 76|NEW|Main|FALSE||3|N|N|N|01/02/2024|03:04:05 PM\n".toUTF8.toList

def partialView : FileView := ⟨some (7, 8), some partialLine.length, some partialLine⟩

def wholeView : FileView := ⟨some (7, 8), some wholeLine.length, some wholeLine⟩

/-- The two polls, before and after the writer ends its line. -/
def fragmentWorld : World Text :=
  ((World.unread partialLine).poll checkinCfg ⟨partialView, partialView, 0, 0⟩).poll checkinCfg
    ⟨wholeView, partialView, 0, 0⟩

theorem fragmentWorld_run : NormalRun checkinCfg (7, 8) partialLine fragmentWorld := by
  refine .poll _ ⟨fun current h => (Option.some.inj h).symm, fun size h => ?_, fun seen h => ?_⟩
    (.bootstrap _ rfl rfl ⟨fun current h => (Option.some.inj h).symm, fun size h => ?_, fun seen h => ?_⟩)
  · rw [← Option.some.inj h]
    decide +kernel
  · rw [← Option.some.inj h]
    decide +kernel
  · exact Nat.le_of_eq (Option.some.inj h)
  · rw [← Option.some.inj h]

/-- The event is that of the end of the line, and the line itself is lost. -/
theorem normal_bootstrap_buffers_fragment :
    fragmentWorld.memory.buffer.map (fun entry => match entry.2.payload with
        | .checkin payload => (entry.1, payload.title)
        | _ => (entry.1, [])) = [(2, "tle".toList)]
      ∧ ¬ LosesNothing checkinCfg partialLine := by
  have hbuffer : fragmentWorld.memory.buffer.map Prod.fst = [2] := by decide +kernel
  have hrows : (rows checkinCfg fragmentWorld.content).map Prod.fst = [0] := by decide +kernel
  refine ⟨by decide +kernel, ?_⟩
  intro hloses
  obtain ⟨entry, hentry, hoffset⟩ := List.mem_map.1 (hbuffer ▸ List.mem_singleton_self 2 :
    2 ∈ fragmentWorld.memory.buffer.map Prod.fst)
  obtain ⟨row, hrow, -⟩ := (hloses _ _ fragmentWorld_run).1.buffer entry hentry
  have hstart : entry.1 ∈ (rows checkinCfg fragmentWorld.content).map Prod.fst := List.mem_map_of_mem hrow
  rw [hrows, hoffset] at hstart
  revert hstart
  decide

end Agent

end SortView
