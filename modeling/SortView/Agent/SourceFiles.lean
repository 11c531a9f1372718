import SortView.Agent.Stamps
import SortView.Agent.SourceRuns

/-!
# Files that are replaced and truncated

The history of one source: its file grows, is replaced and is truncated at any time, also between the calls
of one poll and while no process runs, and a process may crash between any two of its durable writes.
-/

namespace SortView

open PyText ByteLines Reader

namespace Agent

/-- The file at the path of a source: how often it has been replaced or truncated so far, and its bytes. -/
structure SourceFile where
  identity : Token
  period : Nat
  content : Bytes

inductive FileChange where
  | append (bytes : Bytes)
  | rotate (identity : Token) (content : Bytes)
  | truncate (size : Nat)

def SourceFile.change (file : SourceFile) : FileChange → SourceFile
  | .append bytes => { file with content := file.content ++ bytes }
  | .rotate identity content => ⟨identity, file.period + 1, content⟩
  | .truncate size => { file with period := file.period + 1, content := file.content.take size }

/-- A file is replaced by one of another identity. -/
def FileChange.Possible (file : SourceFile) : FileChange → Prop
  | .rotate identity _ => identity ≠ file.identity
  | _ => True

/-- The change starts a new period of the file. -/
def FileChange.breaks : FileChange → Bool
  | .append _ => false
  | _ => true

def SourceFile.changes (file : SourceFile) (changes : List FileChange) : SourceFile :=
  changes.foldl SourceFile.change file

def ChangesPossible : SourceFile → List FileChange → Prop
  | _, [] => True
  | file, change :: changes => change.Possible file ∧ ChangesPossible (file.change change) changes

/-- What happens to the file between the five calls that one poll makes on it. -/
structure PollMoments where
  toBootSize : List FileChange
  toIdentity : List FileChange
  toSize : List FileChange
  toContent : List FileChange

def PollMoments.all (moments : PollMoments) : List FileChange :=
  moments.toBootSize ++ (moments.toIdentity ++ (moments.toSize ++ moments.toContent))

/-- The answers of a poll's calls are those of the file at their moments, where they do not fail. -/
structure Sees (file : SourceFile) (moments : PollMoments) (input : PollInput) : Prop where
  bootIdentity : ∀ identity, input.boot.identity = some identity → identity = file.identity
  bootSize : ∀ size, input.boot.size = some size → size = (file.changes moments.toBootSize).content.length
  identity : ∀ identity, input.view.identity = some identity →
    identity = ((file.changes moments.toBootSize).changes moments.toIdentity).identity
  size : ∀ size, input.view.size = some size →
    size = (((file.changes moments.toBootSize).changes moments.toIdentity).changes moments.toSize).content.length
  content : ∀ content, input.view.content = some content → content = (file.changes moments.all).content

/-! ### Histories -/

/-- A source: its file, what is durable, and the memory of the process, which is fresh while none runs. -/
structure Site (δ : Type) where
  file : SourceFile
  durable : Durable (Stamp δ)
  memory : Memory (Stamp δ)

/-- A crash lets the given number of the call's writes through. -/
inductive Action where
  | change (change : FileChange)
  | poll (moments : PollMoments) (input : PollInput)
  | pollCrash (moments : PollMoments) (input : PollInput) (writes : Nat)
  | flush
  | flushCrash (writes : Nat)

def Action.Possible (file : SourceFile) : Action → Prop
  | .change made => made.Possible file
  | .poll moments input => ChangesPossible file moments.all ∧ Sees file moments input
  | .pollCrash moments input _ => ChangesPossible file moments.all ∧ Sees file moments input
  | .flush => True
  | .flushCrash _ => True

variable {δ : Type} (cfg : Config δ)

/-- The poll of a site. Its events are stamped with the period of the file that it reads. -/
def Site.pollOutcome (site : Site δ) (moments : PollMoments) (input : PollInput) : Outcome (Stamp δ) CycleReport :=
  pollOnce (cfg.stamped (site.file.changes moments.all).period) site.durable.state input site.memory

def Site.flushOutcome (site : Site δ) : Outcome (Stamp δ) (Nat × Nat × Bool) :=
  forceFlush (cfg.stamped site.file.period) site.memory

def Site.step (site : Site δ) : Action → Site δ
  | .change made => { site with file := site.file.change made }
  | .poll moments input =>
      let outcome := site.pollOutcome cfg moments input
      ⟨site.file.changes moments.all, site.durable.applyAll outcome.writes, outcome.memory⟩
  | .pollCrash moments input writes =>
      let outcome := site.pollOutcome cfg moments input
      ⟨site.file.changes moments.all, site.durable.applyAll (outcome.writes.take writes), .fresh⟩
  | .flush =>
      let outcome := site.flushOutcome cfg
      ⟨site.file, site.durable.applyAll outcome.writes, outcome.memory⟩
  | .flushCrash writes =>
      let outcome := site.flushOutcome cfg
      ⟨site.file, site.durable.applyAll (outcome.writes.take writes), .fresh⟩

/-- A source before its agent is installed. -/
def Site.start (file : SourceFile) : Site δ := ⟨file, ⟨none, []⟩, .fresh⟩

inductive History : Site δ → Prop
  | start (file : SourceFile) : History (.start file)
  | step {site : Site δ} (action : Action) (hpossible : action.Possible site.file) (hhistory : History site) :
      History (site.step cfg action)

/-! ### Records -/

/-- A line of a source file: the period of the file, and the offset of the line. -/
structure PhysicalRecord where
  period : Nat
  startOffset : Nat
  deriving DecidableEq

/-- An event is spooled under a generation, with an id, for a record. -/
def Site.Spooled (site : Site δ) (record : PhysicalRecord) (generation : Nat) (sourceEventId : δ) : Prop :=
  ∃ batch ∈ site.durable.spool, batch.sourceGeneration = generation ∧ ∃ event ∈ batch.records,
    event.sourceEventId.id = sourceEventId ∧ event.sourceEventId.period = record.period
      ∧ canonicalIdentityString cfg.agentId cfg.source generation record.startOffset = some event.sourceEventId.text

/-- Two spooled events that came from different records never carry the same generation and offset. -/
def Site.NamesOneRecord (site : Site δ) : Prop :=
  ∀ record record' generation generation' sourceEventId sourceEventId',
    site.Spooled cfg record generation sourceEventId → site.Spooled cfg record' generation' sourceEventId' →
    record ≠ record' → (generation, record.startOffset) ≠ (generation', record'.startOffset)

/-! ### Where a poll goes on -/

structure Position where
  cursor : Option FileCursor
  generation : Nat

/-- The position of the process, or the saved one while none runs. -/
def Site.position (site : Site δ) : Position :=
  if site.memory.bootstrapped then ⟨site.memory.readCursor, site.memory.generation⟩
  else match site.durable.state with
    | none => ⟨none, 0⟩
    | some saved => ⟨some saved.cursor, saved.generation⟩

/-- The position has not passed the offset in the generation. -/
def Position.Ahead (position : Position) (generation offset : Nat) : Prop :=
  position.generation < generation
    ∨ generation = position.generation ∧ ∀ cursor, position.cursor = some cursor → cursor.offset ≤ offset

/-- A collector at the position that finds a file of the identity may still give the generation and the
offset to a record. -/
def Position.Reaches (position : Position) (identity : Token) (generation offset : Nat) : Prop :=
  position.generation < generation
    ∨ generation = position.generation
      ∧ ∀ cursor, position.cursor = some cursor → cursor.identity = some identity ∧ cursor.offset ≤ offset

/-- No event of an earlier period is spooled under a generation and an offset that the collector may still
give to a record of the file as it is now. -/
def Site.Resumable (site : Site δ) : Prop :=
  ∀ record generation sourceEventId, site.Spooled cfg record generation sourceEventId →
    site.position.Reaches site.file.identity generation record.startOffset → record.period = site.file.period

/-- Nothing at all is spooled that the position has not passed. -/
def Site.CaughtUp (site : Site δ) : Prop :=
  ∀ record generation sourceEventId, site.Spooled cfg record generation sourceEventId →
    ¬ site.position.Ahead generation record.startOffset

/-- A poll is careful if it resumes after what is spooled of earlier periods, and if the file is replaced or
truncated during the poll only when nothing is spooled that the position has not passed. -/
def Action.Careful (site : Site δ) : Action → Prop
  | .poll moments _ =>
      site.Resumable cfg ∧ ((∃ change ∈ moments.all, change.breaks = true) → site.CaughtUp cfg)
  | .pollCrash moments _ _ =>
      site.Resumable cfg ∧ ((∃ change ∈ moments.all, change.breaks = true) → site.CaughtUp cfg)
  | _ => True

inductive CarefulHistory : Site δ → Prop
  | start (file : SourceFile) : CarefulHistory (.start file)
  | step {site : Site δ} (action : Action) (hpossible : action.Possible site.file) (hcareful : action.Careful cfg site)
      (hhistory : CarefulHistory site) : CarefulHistory (site.step cfg action)

end Agent

end SortView
