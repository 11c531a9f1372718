import Mathlib.Data.Set.Function
import SortView.Agent.PollSafety

/-!
# Runs of a collector over a growing file

Polls and forced flushes in any order, each of them possibly cut short by a crash after any of its durable
writes, over a file that only grows. The identity and the size that a poll is told may be wrong.
-/

namespace SortView

open PyText ByteLines Reader Slices

namespace Agent

variable {δ : Type} {cfg : Config δ} {content later : Bytes} {durable : Durable δ} {memory : Memory δ}

/-! ### Polls are safe -/

/-- Forgetting or noting a discontinuity, or moving on to a new generation over an empty buffer, keeps the
memory sound. -/
theorem Memory.Sound.note {spool : List (SpoolBatch δ)} (h : memory.Sound cfg content spool)
    (pendingDiscontinuity : Option PendingDiscontinuity) :
    Memory.Sound cfg content spool { memory with pendingDiscontinuity } :=
  ⟨h.identity, h.atLineEnd, h.pending, h.unread, h.generation, h.finalEnd, h.buffered⟩

theorem Memory.Sound.regenerate {spool : List (SpoolBatch δ)} (h : memory.Sound cfg content spool)
    (hempty : memory.buffer = []) (generation : Nat) : Memory.Sound cfg content spool { memory with generation } := by
  refine ⟨h.identity, h.atLineEnd, h.pending, h.unread, ?_, h.finalEnd, cursorOffset memory.readCursor, Nat.le_refl _,
    h.covered_of_empty hempty, .empty _ _, ?_⟩
  · have hgeneration := h.generation
    rw [if_pos hempty] at hgeneration
    simp [hgeneration, hempty]
  · rw [between_self]
    exact hempty

theorem pollRead_safe (hmax : 1 ≤ cfg.batchMaxEvents) {input : PollInput} (hdurable : durable.Sound cfg content)
    (hmemory : memory.Sound cfg content durable.spool) (hboot : memory.bootstrapped = true)
    (hview : ∀ seen, input.view.content = some seen → seen = content) :
    Safe cfg content durable (pollRead cfg input memory) := by
  rw [pollRead]
  by_cases hexisted : (readNewLines input.view memory.readCursor).existed = false
  · simp only [if_pos hexisted]
    exact flushIfDue_report_safe hmax _ hdurable hmemory _
  · simp only [if_neg hexisted]
    have hfound : (readNewLines input.view memory.readCursor).existed = true := by simpa using hexisted
    obtain ⟨current, seen, startOffset, hseen, hlines, hoffsets, hcursor, hstart, hclean⟩ :=
      readNewLines_existed hmemory.identity hfound
    obtain rfl := hview seen hseen
    cases hcandidate : candidateOf (readNewLines input.view memory.readCursor) with
    | none =>
        have hnone : (readNewLines input.view memory.readCursor).rotated = false
            ∧ (readNewLines input.view memory.readCursor).truncated = false := by
          rw [candidateOf] at hcandidate
          split_ifs at hcandidate with hrotated htruncated
          exact ⟨by simpa using hrotated, by simpa using htruncated⟩
        exact acceptRead_safe hmax hdurable (hmemory.note none) hlines hoffsets hcursor hboot
          (Or.inl (hclean hnone.1 hnone.2))
    | some candidate =>
        dsimp only
        split
        · exact flushIfDue_report_safe hmax _ hdurable (hmemory.note _) _
        · obtain ⟨hflush, hafter⟩ := flush_safe hmax hdurable (hmemory.note none)
          refine hflush.bind ?_
          intro value hvalue
          obtain ⟨hempty, hread, hstill⟩ := hafter value hvalue
          refine acceptRead_safe hmax hflush.durable_sound (hflush.memory.regenerate hempty _) hlines hoffsets hcursor
            (hstill.trans hboot) ?_
          rcases hstart with hzero | hsame
          · exact Or.inr ⟨hzero, hempty⟩
          · left
            rw [hsame]
            exact congrArg cursorOffset hread.symm

/-- Under replay a bootstrap takes the saved position, or the start of the file. -/
theorem bootstrapIfNeeded_safe (hreplay : cfg.bootstrapMode = .replay) (boot : FileView)
    (hdurable : durable.Sound cfg content) (hmemory : memory.Sound cfg content durable.spool) :
    Safe cfg content durable (bootstrapIfNeeded cfg durable.state boot memory)
      ∧ (bootstrapIfNeeded cfg durable.state boot memory).memory.bootstrapped = true := by
  unfold bootstrapIfNeeded
  cases hbootstrapped : memory.bootstrapped with
  | true => exact ⟨.of_no_writes hdurable rfl hmemory, hbootstrapped⟩
  | false =>
      obtain ⟨hpending, hempty⟩ := hmemory.unread hbootstrapped
      have hgeneration := hmemory.generation
      rw [if_pos hempty] at hgeneration
      rw [if_neg (by decide)]
      cases hstate : durable.state with
      | none =>
          rw [hreplay]
          refine ⟨.of_no_writes hdurable rfl ⟨?_, atLineEnd_zero _, ?_, fun h => absurd h (by simp), ?_, ?_, 0,
            Nat.le_refl _, ?_, .empty _ _, ?_⟩, rfl⟩
          · rintro cursor ⟨⟩
          · intro cursor hcursor
            exact absurd (hpending.symm.trans hcursor) (by simp)
          · simp [hgeneration, hempty]
          · exact fun h => absurd hempty h
          · intro entry _ hlt
            omega
          · exact hempty.trans (between_self _ _).symm
      | some saved =>
          refine ⟨.of_no_writes hdurable rfl ⟨?_, hdurable.atLineEnd saved hstate, ?_, fun h => absurd h (by simp), ?_,
            ?_, saved.cursor.offset, Nat.le_refl _, hdurable.covered saved hstate, .empty _ _, ?_⟩, rfl⟩
          · rintro cursor ⟨⟩
            exact hdurable.identity saved hstate
          · intro cursor hcursor
            exact absurd (hpending.symm.trans hcursor) (by simp)
          · simp [hgeneration, hempty]
          · exact fun h => absurd hempty h
          · exact hempty.trans (between_self _ _).symm

theorem pollOnce_safe (hreplay : cfg.bootstrapMode = .replay) (hmax : 1 ≤ cfg.batchMaxEvents) {input : PollInput}
    (hdurable : durable.Sound cfg content) (hmemory : memory.Sound cfg content durable.spool)
    (hview : ∀ seen, input.view.content = some seen → seen = content) :
    Safe cfg content durable (pollOnce cfg durable.state input memory) := by
  obtain ⟨hboot, hbootstrapped⟩ := bootstrapIfNeeded_safe hreplay input.boot hdurable hmemory
  rw [pollOnce]
  refine hboot.bind ?_
  intro bootstrapped _
  split
  · exact pollRead_safe hmax hboot.durable_sound hboot.memory hbootstrapped hview
  · exact .of_no_writes hboot.durable_sound rfl hboot.memory

/-! ### Runs -/

structure World (δ : Type) where
  content : Bytes
  durable : Durable δ
  memory : Memory δ

def World.start : World δ := ⟨[], ⟨none, []⟩, .fresh⟩

/-- The file as a poll finds it: nothing of it is lost, whatever its identity and size are said to be. -/
def World.Admits (world : World δ) (input : PollInput) : Prop :=
  ∀ seen, input.view.content = some seen → world.content <+: seen

def World.seen (world : World δ) (input : PollInput) : Bytes := input.view.content.getD world.content

/-- The steps of a process: a poll or a forced flush that ends, or one that a crash cuts short after some of
its writes. A call that raises ends too: its caller keeps the collector and polls it again. -/
inductive Step (cfg : Config δ) : World δ → World δ → Prop
  | poll {world : World δ} (input : PollInput) (hadmits : world.Admits input) :
      Step cfg world {
        content := world.seen input
        durable := world.durable.applyAll (pollOnce cfg world.durable.state input world.memory).writes
        memory := (pollOnce cfg world.durable.state input world.memory).memory }
  | pollCrash {world : World δ} (input : PollInput) (hadmits : world.Admits input) (writes : List (Write δ))
      (hwrites : writes <+: (pollOnce cfg world.durable.state input world.memory).writes) :
      Step cfg world ⟨world.seen input, world.durable.applyAll writes, .fresh⟩
  | flush {world : World δ} :
      Step cfg world {
        content := world.content
        durable := world.durable.applyAll (forceFlush cfg world.memory).writes
        memory := (forceFlush cfg world.memory).memory }
  | flushCrash {world : World δ} (writes : List (Write δ)) (hwrites : writes <+: (forceFlush cfg world.memory).writes) :
      Step cfg world ⟨world.content, world.durable.applyAll writes, .fresh⟩

inductive Reachable (cfg : Config δ) : World δ → Prop
  | start : Reachable cfg .start
  | step {world next : World δ} : Reachable cfg world → Step cfg world next → Reachable cfg next

theorem World.prefix_seen {world : World δ} {input : PollInput} (hadmits : world.Admits input) :
    world.content <+: world.seen input := by
  rw [World.seen]
  cases hseen : input.view.content with
  | none => exact List.prefix_rfl
  | some seen => exact hadmits seen hseen

theorem Step.sound (hreplay : cfg.bootstrapMode = .replay) (hmax : 1 ≤ cfg.batchMaxEvents) {world next : World δ}
    (hstep : Step cfg world next) (hdurable : world.durable.Sound cfg world.content)
    (hmemory : world.memory.Sound cfg world.content world.durable.spool) :
    next.durable.Sound cfg next.content ∧ next.memory.Sound cfg next.content next.durable.spool := by
  have hview : ∀ input : PollInput, ∀ seen, input.view.content = some seen → seen = world.seen input := by
    intro input seen hseen
    rw [World.seen, hseen]
    rfl
  cases hstep with
  | poll input hadmits =>
      have hgrow := world.prefix_seen hadmits
      have hsafe := pollOnce_safe hreplay hmax (hdurable.grow hgrow) (hmemory.grow hgrow) (hview input)
      exact ⟨hsafe.durable_sound, hsafe.memory⟩
  | pollCrash input hadmits writes hwrites =>
      have hgrow := world.prefix_seen hadmits
      have hsafe := pollOnce_safe hreplay hmax (hdurable.grow hgrow) (hmemory.grow hgrow) (hview input)
      exact ⟨hsafe.writes writes hwrites, Memory.fresh_sound _ _ _⟩
  | flush =>
      have hsafe := (flush_safe hmax hdurable hmemory).1
      exact ⟨hsafe.durable_sound, hsafe.memory⟩
  | flushCrash writes hwrites =>
      have hsafe := (flush_safe hmax hdurable hmemory).1
      exact ⟨hsafe.writes writes hwrites, Memory.fresh_sound _ _ _⟩

theorem Reachable.sound (hreplay : cfg.bootstrapMode = .replay) (hmax : 1 ≤ cfg.batchMaxEvents) {world : World δ}
    (hreach : Reachable cfg world) :
    world.durable.Sound cfg world.content ∧ world.memory.Sound cfg world.content world.durable.spool := by
  induction hreach with
  | start =>
      refine ⟨⟨fun batch hbatch => absurd hbatch List.not_mem_nil, ?_, ?_, ?_⟩, Memory.fresh_sound _ _ _⟩
      · rintro saved ⟨⟩
      · rintro saved ⟨⟩
      · rintro saved ⟨⟩
  | step _ hstep ih => exact hstep.sound hreplay hmax ih.1 ih.2

/-- An event a collector has captured: in an installed batch of a generation, or still in its buffer. -/
def World.Captured (cfg : Config δ) (world : World δ) (generation offset : Nat) (event : Event δ) : Prop :=
  (∃ batch ∈ world.durable.spool, batch.sourceGeneration = generation ∧ event ∈ batch.records
      ∧ ∃ row, (offset, row) ∈ between (rows cfg world.content) batch.startOffset batch.endOffset
        ∧ eventOf cfg generation offset row = some event)
    ∨ generation = world.memory.generation ∧ (offset, event) ∈ world.memory.buffer

/-- The identity strings of the captured events. -/
def World.identityStrings (cfg : Config δ) (world : World δ) : Set Text :=
  {text | ∃ generation offset event, world.Captured cfg generation offset event
    ∧ canonicalIdentityString cfg.agentId cfg.source generation offset = some text}

theorem World.Captured.identity {world : World δ} {generation offset : Nat} {event : Event δ}
    (hmemory : world.memory.Sound cfg world.content world.durable.spool)
    (hcaptured : world.Captured cfg generation offset event) :
    ∃ text ∈ world.identityStrings cfg, canonicalIdentityString cfg.agentId cfg.source generation offset = some text
      ∧ event.sourceEventId = cfg.sha256 text := by
  obtain ⟨row, hevent⟩ : ∃ row, eventOf cfg generation offset row = some event := by
    rcases hcaptured with ⟨_, -, -, -, row, -, hevent⟩ | ⟨rfl, hbuffer⟩
    · exact ⟨row, hevent⟩
    · obtain ⟨low, -, -, -, hsame⟩ := hmemory.buffered
      rw [hsame, between_events] at hbuffer
      obtain ⟨entry, -, hat⟩ := List.mem_filterMap.1 hbuffer
      obtain ⟨found, hfound, heq⟩ := Option.map_eq_some_iff.1 hat
      cases heq
      exact ⟨entry.2, hfound⟩
  obtain ⟨sourceEventId, hid, rfl⟩ := Option.map_eq_some_iff.1 hevent
  obtain ⟨text, htext, rfl⟩ := Option.map_eq_some_iff.1 hid
  exact ⟨text, ⟨generation, offset, _, hcaptured, htext⟩, htext, rfl⟩

/-- The rows of an exact batch, event by event. -/
theorem BatchExact.records_map {batch : SpoolBatch δ} (h : BatchExact cfg content batch) :
    batch.records.map some = (between (rows cfg content) batch.startOffset batch.endOffset).map
      fun entry => eventOf cfg batch.sourceGeneration entry.1 entry.2 := by
  rw [h.records, between_events]
  have htotal : ∀ entry ∈ between (rows cfg content) batch.startOffset batch.endOffset,
      eventAt cfg batch.sourceGeneration entry ≠ none := h.total
  generalize between (rows cfg content) batch.startOffset batch.endOffset = entries at htotal
  induction entries with
  | nil => rfl
  | cons entry entries ih =>
      obtain ⟨event, hevent⟩ := Option.ne_none_iff_exists'.1 (htotal entry (List.mem_cons_self ..))
      obtain ⟨found, hfound, rfl⟩ := Option.map_eq_some_iff.1 hevent
      rw [List.filterMap_cons, hevent, List.map_cons, List.map_cons, List.map_cons, hfound,
        ih fun other hother => htotal other (List.mem_cons_of_mem _ hother)]

/-- The saved cursor never leads the spool. In every reachable state every complete line below the saved
offset that the parser turns into a row has its event in an installed batch; every installed batch covers a
nonempty range of bytes and holds exactly the events of the lines of that range; and two captured events of
different start offsets have different ids. -/
theorem persisted_cursor_never_leads_spool (hreplay : cfg.bootstrapMode = .replay) (hmax : 1 ≤ cfg.batchMaxEvents)
    {world : World δ} (hreach : Reachable cfg world) (hsha : Set.InjOn cfg.sha256 (world.identityStrings cfg)) :
    (∀ saved, world.durable.state = some saved → ∀ offset line row,
        (offset, line) ∈ numberedLines world.content → offset < saved.cursor.offset →
        parseLine cfg.toDatetime cfg.source (decodeLine line) = some row →
        ∃ batch ∈ world.durable.spool, batch.startOffset ≤ offset ∧ offset < batch.endOffset
          ∧ ∃ event ∈ batch.records, eventOf cfg batch.sourceGeneration offset row = some event)
      ∧ (∀ batch ∈ world.durable.spool, batch.startOffset < batch.endOffset
        ∧ batch.records.map some
          = (between (rows cfg world.content) batch.startOffset batch.endOffset).map
              fun entry => eventOf cfg batch.sourceGeneration entry.1 entry.2)
      ∧ ∀ generation generation' offset offset' event event',
        world.Captured cfg generation offset event → world.Captured cfg generation' offset' event' →
        offset ≠ offset' → event.sourceEventId ≠ event'.sourceEventId := by
  obtain ⟨hdurable, hmemory⟩ := hreach.sound hreplay hmax
  refine ⟨?_, ?_, ?_⟩
  · intro saved hsaved offset line row hline hbelow hrow
    have hentry : (offset, row) ∈ rows cfg world.content :=
      List.mem_filterMap.2 ⟨(offset, line), hline, by rw [hrow]; rfl⟩
    obtain ⟨batch, hbatch, hrange⟩ := hdurable.covered saved hsaved (offset, row) hentry hbelow
    have hexact := hdurable.batch batch hbatch
    have hinside := mem_between.2 ⟨hentry, hrange⟩
    obtain ⟨event, hevent⟩ := Option.ne_none_iff_exists'.1 (hexact.total _ hinside)
    obtain ⟨found, hfound, rfl⟩ := Option.map_eq_some_iff.1 hevent
    refine ⟨batch, hbatch, hrange.1, hrange.2, found, ?_, hfound⟩
    rw [hexact.records, between_events]
    exact List.mem_map.2 ⟨_, List.mem_filterMap.2 ⟨_, hinside, hevent⟩, rfl⟩
  · intro batch hbatch
    have hexact := hdurable.batch batch hbatch
    exact ⟨hexact.nonempty, hexact.records_map⟩
  · intro generation generation' offset offset' event event' hcaptured hcaptured' hne heq
    obtain ⟨text, hmem, htext, hid⟩ := hcaptured.identity hmemory
    obtain ⟨text', hmem', htext', hid'⟩ := hcaptured'.identity hmemory
    rw [hid, hid'] at heq
    obtain rfl := hsha hmem hmem' heq
    exact hne (canonicalIdentityString_injective htext htext').2

/-! A poll that finds two ACS records and the start of a third, and flushes the two. -/

def sampleSha (text : Text) : Text :=
  if text = "a1|acs|0|0".toList then "c33971212d2d451273601f2f87bcdc94024660008173b80e16e546a83e94f45c".toList
  else if text = "a1|acs|0|7".toList then "fab882520346e87074dc1dd47178ff901ad97add71e0749037e31aaf309e5c0c".toList
  else []

def sampleCfg : Config Text where
  source := .acs
  path := "ACS Log.txt".toList
  bootstrapMode := .replay
  bootstrapOffset := none
  agentId := "a1".toList
  customerId := 1
  branchId := 2
  batchMaxEvents := 2
  batchMaxSeconds := 2
  toDatetime := fun _ => none
  strTimestamp := fun _ => []
  sha256 := sampleSha

def samplePoll : PollInput where
  view := ⟨some (7, 8), some 16, some "x\x02y\x0264\nx\x02y\x0210\nx\x02".toUTF8.toList⟩
  boot := ⟨none, none, none⟩
  startedAt := 0
  now := 0

def sampleWorld : World Text where
  content := (World.start : World Text).seen samplePoll
  durable := (World.start : World Text).durable.applyAll (pollOnce sampleCfg none samplePoll .fresh).writes
  memory := (pollOnce sampleCfg none samplePoll .fresh).memory

theorem sampleWorld_identityStrings :
    sampleWorld.identityStrings sampleCfg ⊆ {"a1|acs|0|0".toList, "a1|acs|0|7".toList} := by
  rintro text ⟨generation, offset, event, hcaptured, htext⟩
  have hspool : ∀ batch ∈ sampleWorld.durable.spool, batch.sourceGeneration = 0
      ∧ ∀ entry ∈ between (rows sampleCfg sampleWorld.content) batch.startOffset batch.endOffset,
        entry.1 = 0 ∨ entry.1 = 7 := by decide +kernel
  have hbuffer : sampleWorld.memory.buffer = [] := by decide +kernel
  rcases hcaptured with ⟨batch, hbatch, rfl, -, row, hrow, -⟩ | ⟨-, hmem⟩
  · obtain ⟨hgeneration, hoffset⟩ := hspool batch hbatch
    rw [hgeneration] at htext
    rcases hoffset (offset, row) hrow with hzero | hseven
    · obtain rfl : offset = 0 := hzero
      exact Or.inl (Option.some.inj (htext.symm.trans (by decide)))
    · obtain rfl : offset = 7 := hseven
      exact Or.inr (Option.some.inj (htext.symm.trans (by decide)))
  · rw [hbuffer] at hmem
    cases hmem

theorem persisted_cursor_never_leads_spool_sample :
    ∃ batch ∈ sampleWorld.durable.spool, batch.startOffset ≤ 7 ∧ 7 < batch.endOffset := by
  have hreach : Reachable sampleCfg sampleWorld :=
    .step .start (.poll samplePoll fun seen _ => List.nil_prefix)
  have hsha : Set.InjOn sampleCfg.sha256 (sampleWorld.identityStrings sampleCfg) := by
    intro text htext text' htext' heq
    rcases sampleWorld_identityStrings htext with rfl | rfl
    · rcases sampleWorld_identityStrings htext' with rfl | rfl
      · rfl
      · exact absurd heq (by decide +kernel)
    · rcases sampleWorld_identityStrings htext' with rfl | rfl
      · exact absurd heq (by decide +kernel)
      · rfl
  have hsaved : sampleWorld.durable.state = some ⟨"ACS Log.txt".toList, ⟨some (7, 8), 14⟩, 0⟩ := by decide +kernel
  have hline : (7, "x\x02y\x0210\n".toUTF8.toList) ∈ numberedLines sampleWorld.content := by decide +kernel
  obtain ⟨row, hrow⟩ : ∃ row, parseLine sampleCfg.toDatetime sampleCfg.source
      (decodeLine "x\x02y\x0210\n".toUTF8.toList) = some row := Option.isSome_iff_exists.1 (by decide +kernel)
  obtain ⟨batch, hbatch, hstart, hend, -⟩ :=
    (persisted_cursor_never_leads_spool rfl (by decide) hreach hsha).1 _ hsaved _ _ row hline (by decide) hrow
  exact ⟨batch, hbatch, hstart, hend⟩

end Agent

end SortView
