import SortView.Collector.Reader

/-!
# The chunked reader (`collector/v2_reader.py`)

A read that takes at most a given number of complete lines, and the loop that repeats it from its own cursor
while it reports more. The file may grow between two looks at it.
-/

namespace SortView

open PyText ByteLines

namespace ChunkReader

/-- `v2_events.Cursor`, with the two fields of the first reader's cursor. -/
abbrev Cursor := Reader.SourceCursor

structure ChunkRead where
  lines : List Text
  cursor : Option Cursor
  existed : Bool
  rotated : Bool
  truncated : Bool
  more : Bool

/-- What the file system answers to the four calls of one read: those of the first reader, and
`os.path.getsize` after the lines were read. -/
structure ChunkView extends Reader.FileView where
  sizeAfter : Option Nat

/-- `_decode`. -/
def decode (raw : Bytes) : Text :=
  let text := decodeUtf8 raw
  if "\r\n".toList <:+ text then text.take (text.length - 2) ++ "\n".toList else text

def readChunk (isWindows : Bool) (view : ChunkView) (cursor : Option Cursor) (maxLines : Nat) : ChunkRead :=
  let unread : ChunkRead := ⟨[], cursor, false, false, false, false⟩
  match view.identity with
  | none => unread
  | some identity =>
      let finish (start : Nat) (rotated truncated : Bool) : ChunkRead :=
        match view.content, view.sizeAfter with
        | some content, some sizeAfter =>
            let raw := readLines maxLines (content.drop start)
            let safe := start + size raw
            ⟨raw.map decode, some ⟨some identity, safe⟩, true, rotated, truncated, safe < sizeAfter && maxLines ≤ raw.length⟩
        | _, _ => unread
      match cursor with
      | none => finish 0 false false
      | some saved =>
          if saved.identity = none then finish 0 false false
          else if Reader.sameFile isWindows saved.identity (some identity) = false then finish 0 true false
          else match view.size with
            | none => unread
            | some size => if size < saved.offset then finish 0 false true else finish saved.offset false false

/-- Reading chunk after chunk, each from the cursor of the one before, while there is more: `none` when there
still is after `fuel` chunks. -/
def readChunks (isWindows : Bool) (maxLines : Nat) : Nat → (Nat → ChunkView) → Option Cursor → Option (List ChunkRead)
  | 0, _, _ => none
  | fuel + 1, views, cursor =>
      let read := readChunk isWindows (views 0) cursor maxLines
      if read.more then (readChunks isWindows maxLines fuel (fun i => views (i + 1)) read.cursor).map (read :: ·) else some [read]

/-! ### A file that grows between the looks -/

/-- What a file held at the three looks of one read. -/
structure Moment where
  before : Bytes
  read : Bytes
  after : Bytes

def Moment.view (token : Token) (moment : Moment) : ChunkView :=
  ⟨⟨some token, some moment.before.length, some moment.read⟩, some moment.after.length⟩

/-- Bytes are only added, within a read and from one read to the next. -/
structure Growing (moments : Nat → Moment) : Prop where
  read : ∀ i, (moments i).before <+: (moments i).read
  after : ∀ i, (moments i).read <+: (moments i).after
  next : ∀ i, (moments i).after <+: (moments (i + 1)).before

theorem Growing.tail {moments : Nat → Moment} (h : Growing moments) : Growing fun i => moments (i + 1) :=
  ⟨fun i => h.read (i + 1), fun i => h.after (i + 1), fun i => h.next (i + 1)⟩

/-- The view the first reader has of a file at rest. -/
def restingView (token : Token) (content : Bytes) : Reader.FileView := ⟨some token, some content.length, some content⟩

/-- Where a read of a file starts: at its beginning for a cursor without identity, of another file, or beyond the
end, and otherwise where the cursor stands. -/
structure Start where
  offset : Nat
  rotated : Bool
  truncated : Bool

def startOf (isWindows : Bool) (token : Token) (length : Nat) : Option Cursor → Start
  | none => ⟨0, false, false⟩
  | some saved =>
      if saved.identity = none then ⟨0, false, false⟩
      else if Reader.sameFile isWindows saved.identity (some token) = false then ⟨0, true, false⟩
      else if length < saved.offset then ⟨0, false, true⟩ else ⟨saved.offset, false, false⟩

/-- A chunk of a readable file. -/
theorem readChunk_moment (isWindows : Bool) (token : Token) (moment : Moment) (cursor : Option Cursor) (maxLines : Nat) :
    readChunk isWindows (moment.view token) cursor maxLines =
      let start := startOf isWindows token moment.before.length cursor
      let raw := readLines maxLines (moment.read.drop start.offset)
      ⟨raw.map decode, some ⟨some token, start.offset + size raw⟩, true, start.rotated, start.truncated,
        start.offset + size raw < moment.after.length && maxLines ≤ raw.length⟩ := by
  cases cursor with
  | none => rfl
  | some saved =>
      simp only [readChunk, startOf, Moment.view]
      split
      · rfl
      · split
        · rfl
        · split <;> rfl

/-- One read of a file at rest. -/
theorem readNewLines_resting (isWindows : Bool) (token : Token) (content : Bytes) (cursor : Option Cursor) :
    Reader.readNewLines isWindows (restingView token content) cursor =
      let start := startOf isWindows token content.length cursor
      let read := Reader.readCompleteLines content start.offset
      ⟨read.1, ⟨some token, read.2⟩, true, start.rotated, start.truncated⟩ := by
  cases cursor with
  | none => rfl
  | some saved =>
      simp only [Reader.readNewLines, startOf, restingView]
      split
      · rfl
      · split
        · rfl
        · split <;> rfl

theorem startOf_le (isWindows : Bool) (token : Token) (length : Nat) (cursor : Option Cursor) :
    (startOf isWindows token length cursor).offset ≤ length := by
  cases cursor with
  | none => exact Nat.zero_le _
  | some saved =>
      rw [startOf]
      split
      · exact Nat.zero_le _
      · split
        · exact Nat.zero_le _
        · split
          · exact Nat.zero_le _
          · next h => exact Nat.le_of_not_lt h

/-- The cursor a chunk leaves is where the next one starts. -/
theorem startOf_left {isWindows : Bool} {token : Token} {length offset : Nat} (h : offset ≤ length) :
    startOf isWindows token length (some ⟨some token, offset⟩) = ⟨offset, false, false⟩ := by
  rw [startOf, if_neg nofun, if_neg (by rw [Reader.sameFile_self]; exact Bool.true_eq_false.mp), if_neg (Nat.not_lt.2 h)]

/-! ### A run of chunks -/

theorem Growing.grows {moments : Nat → Moment} (h : Growing moments) (i : Nat) : (moments 0).read <+: (moments i).read := by
  induction i with
  | zero => exact List.prefix_rfl
  | succ i ih => exact ((ih.trans (h.after i)).trans (h.next i)).trans (h.read (i + 1))

/-- A chunk that reports no more has taken every complete line there was. -/
theorem takes_all {content after : Bytes} {start maxLines : Nat} (hafter : content <+: after)
    (hmore : (start + size (readLines maxLines (content.drop start)) < after.length
      && maxLines ≤ (readLines maxLines (content.drop start)).length) = false) :
    readLines maxLines (content.drop start) = (splitLines (content.drop start)).1 := by
  rw [readLines_eq] at hmore ⊢
  rw [List.take_eq_self_iff]
  by_contra hshort
  have hcount : ((splitLines (content.drop start)).1.take maxLines).length = maxLines := by
    rw [List.length_take]
    omega
  have hend : after.length ≤ start + size ((splitLines (content.drop start)).1.take maxLines) := by
    rw [hcount, decide_eq_true (Nat.le_refl maxLines), Bool.and_true, decide_eq_false_iff_not] at hmore
    exact Nat.le_of_not_lt hmore
  -- the bytes of the lines that were left would lie beyond the end of the file
  have hlength := hafter.length_le
  have hbytes := size_splitLines_le (content.drop start)
  have hleft : 0 < size ((splitLines (content.drop start)).1.drop maxLines) := by
    have hpositive : ((splitLines (content.drop start)).1.drop maxLines).length
        ≤ size ((splitLines (content.drop start)).1.drop maxLines) :=
      length_le_size_of_pos fun _ hmem => length_pos_of_mem_splitLines (List.mem_of_mem_drop hmem)
    rw [List.length_drop] at hpositive
    omega
  rw [← List.take_append_drop maxLines (splitLines (content.drop start)).1, size_append, List.length_drop] at hbytes
  omega

/-- What a run of chunks comes to: the flags of its first read, the complete lines of the file as its last read found
it, and a cursor behind the last of them. -/
structure ReadsLines (token : Token) (content : Bytes) (start : Start) (reads : List ChunkRead) : Prop where
  existed : ∀ read ∈ reads, read.existed = true
  first : reads.head?.map (fun read => (read.rotated, read.truncated)) = some (start.rotated, start.truncated)
  lines : reads.flatMap ChunkRead.lines = (splitLines (content.drop start.offset)).1.map decode
  last : reads.getLast?.map ChunkRead.cursor
    = some (some ⟨some token, start.offset + size (splitLines (content.drop start.offset)).1⟩)

/-- The lines of a run of chunks are those of the file as its last read found it. -/
theorem readChunks_growing {isWindows : Bool} {token : Token} {maxLines fuel : Nat} {moments : Nat → Moment}
    (hgrowing : Growing moments) {cursor : Option Cursor} {reads : List ChunkRead}
    (h : readChunks isWindows maxLines fuel (fun i => (moments i).view token) cursor = some reads) :
    ∃ i, i + 1 = reads.length
      ∧ ReadsLines token (moments i).read (startOf isWindows token (moments 0).before.length cursor) reads := by
  induction fuel generalizing moments cursor reads with
  | zero => cases h
  | succ fuel ih =>
      rw [readChunks] at h
      simp only [readChunk_moment] at h
      generalize hstart : startOf isWindows token (moments 0).before.length cursor = start at h ⊢
      have hoffset : start.offset ≤ (moments 0).read.length := by
        rw [← hstart]
        exact Nat.le_trans (startOf_le ..) (hgrowing.read 0).length_le
      split at h
      · -- there is more: the rest of the run starts behind the lines of this chunk
        obtain ⟨rest, hrest, rfl⟩ := Option.map_eq_some_iff.1 h
        obtain ⟨i, hi, hreads⟩ := ih hgrowing.tail hrest
        have hraw := size_readLines_le maxLines ((moments 0).read.drop start.offset)
        have hsafe : start.offset + size (readLines maxLines ((moments 0).read.drop start.offset))
            ≤ (moments 1).before.length := by
          have hgrown : (moments 0).read.length ≤ (moments 1).before.length :=
            ((hgrowing.after 0).trans (hgrowing.next 0)).length_le
          rw [List.length_drop] at hraw
          omega
        rw [startOf_left hsafe] at hreads
        -- what the later reads see extends what this one saw
        have hlines : (splitLines ((moments (i + 1)).read.drop start.offset)).1
            = readLines maxLines ((moments 0).read.drop start.offset)
              ++ (splitLines ((moments (i + 1)).read.drop
                (start.offset + size (readLines maxLines ((moments 0).read.drop start.offset))))).1 := by
          obtain ⟨more, hmore⟩ := hgrowing.grows (i + 1)
          have hsplit : (splitLines ((moments (i + 1)).read.drop start.offset)).1
              = readLines maxLines ((moments 0).read.drop start.offset)
                ++ ((splitLines ((moments 0).read.drop start.offset)).1.drop maxLines
                  ++ (splitLines ((splitLines ((moments 0).read.drop start.offset)).2 ++ more)).1) := by
            rw [← hmore, List.drop_append_of_le_length hoffset, splitLines_append, readLines_eq, ← List.append_assoc,
              List.take_append_drop]
          rw [← List.drop_drop, splitLines_drop_size hsplit]
          exact hsplit
        refine ⟨i + 1, by rw [hi, List.length_cons], ?_, rfl, ?_, ?_⟩
        · intro read hread
          rcases List.mem_cons.1 hread with rfl | hlater
          · rfl
          · exact hreads.existed read hlater
        · rw [List.flatMap_cons, hreads.lines, hlines, List.map_append]
        · have hne : rest ≠ [] := by
            rintro rfl
            cases hi
          rw [List.getLast?_cons_of_ne_nil hne, hreads.last, hlines, size_append, Nat.add_assoc]
      · next hmore =>
        cases h
        have hall := takes_all (hgrowing.after 0) (Bool.eq_false_iff.2 hmore)
        refine ⟨0, rfl, ?_, rfl, ?_, ?_⟩
        · intro read hread
          rw [List.mem_singleton.1 hread]
        · rw [List.flatMap_singleton, hall]
        · rw [hall]
          rfl

/-! ### A file at rest -/

/-- A file that nothing is written to. -/
def atRest (content : Bytes) : Moment := ⟨content, content, content⟩

@[simp] theorem atRest_before (content : Bytes) : (atRest content).before = content := rfl

@[simp] theorem atRest_read (content : Bytes) : (atRest content).read = content := rfl

@[simp] theorem atRest_after (content : Bytes) : (atRest content).after = content := rfl

theorem growing_atRest (content : Bytes) : Growing fun _ => atRest content :=
  ⟨fun _ => List.prefix_rfl, fun _ => List.prefix_rfl, fun _ => List.prefix_rfl⟩

/-- Over a file at rest the run ends: each chunk with more after it takes at least one line. -/
theorem readChunks_ends {isWindows : Bool} {token : Token} {content : Bytes} {maxLines : Nat} (hmax : 1 ≤ maxLines)
    {fuel : Nat} {cursor : Option Cursor}
    (hfuel : (splitLines (content.drop (startOf isWindows token content.length cursor).offset)).1.length < fuel) :
    ∃ reads, readChunks isWindows maxLines fuel (fun _ => (atRest content).view token) cursor = some reads := by
  induction fuel generalizing cursor with
  | zero => exact absurd hfuel (Nat.not_lt_zero _)
  | succ fuel ih =>
      have hoffset := startOf_le isWindows token content.length cursor
      obtain ⟨start, hstart⟩ : ∃ start, startOf isWindows token content.length cursor = start := ⟨_, rfl⟩
      rw [hstart] at hfuel hoffset
      rw [readChunks]
      simp only [readChunk_moment, atRest_before, atRest_read, atRest_after, hstart]
      have hraw := size_readLines_le maxLines (content.drop start.offset)
      split
      · next hmore =>
        rw [Bool.and_eq_true, decide_eq_true_eq, decide_eq_true_eq] at hmore
        have hsafe : start.offset + size (readLines maxLines (content.drop start.offset)) ≤ content.length := by omega
        have hsplit : (splitLines (content.drop start.offset)).1 = readLines maxLines (content.drop start.offset)
            ++ (splitLines (content.drop start.offset)).1.drop maxLines := by
          rw [readLines_eq, List.take_append_drop]
        have hrest : (splitLines (content.drop (start.offset + size (readLines maxLines (content.drop start.offset))))).1
            = (splitLines (content.drop start.offset)).1.drop maxLines := by
          rw [← List.drop_drop]
          exact splitLines_drop_size hsplit
        have hfewer : (splitLines (content.drop (startOf isWindows token content.length
            (some ⟨some token, start.offset + size (readLines maxLines (content.drop start.offset))⟩)).offset)).1.length < fuel := by
          rw [startOf_left hsafe, hrest, List.length_drop]
          have htaken := hmore.2
          rw [readLines_eq, List.length_take] at htaken
          omega
        obtain ⟨reads, hreads⟩ := ih hfewer
        exact ⟨_, by rw [hreads]; rfl⟩
      · exact ⟨_, rfl⟩

/-! ### Chunks against one read -/

/-- The run of chunks says what one read says: the same lines and the same final cursor, the same answers in its
first chunk. -/
structure Agrees (reads : List ChunkRead) (whole : Reader.ReadResult) : Prop where
  lines : reads.flatMap ChunkRead.lines = whole.lines
  last : reads.getLast?.map ChunkRead.cursor = some (some whole.cursor)
  first : reads.head?.map (fun read => (read.existed, read.rotated, read.truncated))
    = some (whole.existed, whole.rotated, whole.truncated)

theorem readCompleteLines_eq (content : Bytes) (offset : Nat) : Reader.readCompleteLines content offset
    = ((splitLines (content.drop offset)).1.map decode, offset + size (splitLines (content.drop offset)).1) := by
  rw [Reader.readCompleteLines, readLines_length]
  rfl

theorem ReadsLines.agrees {isWindows : Bool} {token : Token} {content : Bytes} {cursor : Option Cursor} {start : Start}
    {reads : List ChunkRead} (h : ReadsLines token content start reads)
    (hstart : (startOf isWindows token content.length cursor).offset = start.offset)
    (hrotated : (startOf isWindows token content.length cursor).rotated = start.rotated)
    (htruncated : (startOf isWindows token content.length cursor).truncated = start.truncated) :
    Agrees reads (Reader.readNewLines isWindows (restingView token content) cursor) := by
  rw [readNewLines_resting]
  simp only [hstart, hrotated, htruncated, readCompleteLines_eq]
  refine ⟨h.lines, h.last, ?_⟩
  have hfirst := h.first
  cases reads with
  | nil => cases hfirst
  | cons read reads =>
      have hexisted := h.existed read (List.mem_cons_self ..)
      simp only [List.head?_cons, Option.map_some, Option.some.injEq, Prod.mk.injEq] at hfirst ⊢
      exact ⟨hexisted, hfirst⟩

/-- Where a growing file is read from does not change, unless the cursor was beyond its end. -/
theorem startOf_mono {isWindows : Bool} {token : Token} {length later : Nat} (hle : length ≤ later) {cursor : Option Cursor}
    (h : (startOf isWindows token length cursor).truncated = false) :
    startOf isWindows token later cursor = startOf isWindows token length cursor := by
  cases cursor with
  | none => rfl
  | some saved =>
      rw [startOf] at h ⊢
      rw [startOf]
      split
      · rfl
      · next hidentity =>
        rw [if_neg hidentity] at h
        split
        · rfl
        · next hsame =>
          rw [if_neg hsame] at h
          by_cases hbeyond : length < saved.offset
          · rw [if_pos hbeyond] at h
            cases h
          · rw [if_neg hbeyond, if_neg]
            omega

theorem startOf_truncated {isWindows : Bool} {token : Token} {length : Nat} {cursor : Option Cursor}
    (h : (startOf isWindows token length cursor).truncated = true) :
    startOf isWindows token length cursor = ⟨0, false, true⟩ := by
  cases cursor with
  | none => cases h
  | some saved =>
      rw [startOf] at h ⊢
      split at h
      · cases h
      · next hidentity =>
        rw [if_neg hidentity]
        split at h
        · cases h
        · next hsame =>
          rw [if_neg hsame]
          split at h
          · next hbeyond => rw [if_pos hbeyond]
          · cases h

/-- Over a file at rest the chunks end and say what one read says, whatever the cursor. Over a file that grows they say
what one read of the file as their last chunk found it says: a read with the same cursor, or, when the first
chunk found the file shorter than the cursor, a read from the start. -/
theorem chunks_read_what_one_read_reads (isWindows : Bool) (token : Token) (cursor : Option Cursor) {maxLines : Nat}
    (hmax : 1 ≤ maxLines) :
    (∀ (content : Bytes) (fuel : Nat), content.length < fuel →
      ∃ reads, readChunks isWindows maxLines fuel (fun _ => (atRest content).view token) cursor = some reads
        ∧ Agrees reads (Reader.readNewLines isWindows (restingView token content) cursor))
      ∧ ∀ (moments : Nat → Moment) (fuel : Nat) (reads : List ChunkRead), Growing moments →
        readChunks isWindows maxLines fuel (fun i => (moments i).view token) cursor = some reads →
        ∃ i, i + 1 = reads.length ∧
          if (startOf isWindows token (moments 0).before.length cursor).truncated then
            reads.flatMap ChunkRead.lines = (Reader.readNewLines isWindows (restingView token (moments i).read) none).lines
              ∧ reads.getLast?.map ChunkRead.cursor
                = some (some (Reader.readNewLines isWindows (restingView token (moments i).read) none).cursor)
          else Agrees reads (Reader.readNewLines isWindows (restingView token (moments i).read) cursor) := by
  constructor
  · intro content fuel hfuel
    have hlines := length_splitLines_le (content.drop (startOf isWindows token content.length cursor).offset)
    rw [List.length_drop] at hlines
    have hfew : (splitLines (content.drop (startOf isWindows token content.length cursor).offset)).1.length < fuel := by omega
    obtain ⟨reads, hreads⟩ := readChunks_ends hmax hfew
    obtain ⟨i, -, hrun⟩ := readChunks_growing (growing_atRest content) hreads
    exact ⟨reads, hreads, hrun.agrees rfl rfl rfl⟩
  · intro moments fuel reads hgrowing hreads
    obtain ⟨i, hi, hrun⟩ := readChunks_growing hgrowing hreads
    refine ⟨i, hi, ?_⟩
    split
    · next htruncated =>
      rw [startOf_truncated htruncated] at hrun
      rw [readNewLines_resting]
      simp only [readCompleteLines_eq]
      exact ⟨hrun.lines, hrun.last⟩
    · next hnot =>
      have hle := ((hgrowing.read 0).trans (hgrowing.grows i)).length_le
      have hsame := startOf_mono hle (Bool.eq_false_iff.2 hnot)
      exact hrun.agrees (by rw [hsame]) (by rw [hsame]) (by rw [hsame])

theorem chunks_read_two_lines :
    ∃ reads, readChunks false 1 5 (fun _ => (atRest [97, 10, 98, 10]).view (7, 8)) none = some reads
      ∧ Agrees reads (Reader.readNewLines false (restingView (7, 8) [97, 10, 98, 10]) none) :=
  (chunks_read_what_one_read_reads false (7, 8) none (by decide)).1 [97, 10, 98, 10] 5 (by decide)

/-- A file of two lines, and from the second read on of three. -/
def twoThenThree (i : Nat) : Moment := if i = 0 then atRest [97, 10, 98, 10] else atRest [97, 10, 98, 10, 99, 10]

theorem growing_twoThenThree : Growing twoThenThree := by
  refine ⟨?_, ?_, ?_⟩
  · intro i
    rw [twoThenThree]
    split <;> exact List.prefix_rfl
  · intro i
    rw [twoThenThree]
    split <;> exact List.prefix_rfl
  · intro i
    rw [twoThenThree, twoThenThree, if_neg (Nat.succ_ne_zero i)]
    split
    · exact ⟨[99, 10], rfl⟩
    · exact List.prefix_rfl

/-- A cursor one byte beyond the end of the file: the first chunk finds it truncated and starts over, and the file then
grows past the cursor. No read with that cursor, of the file at any size between, has the lines of the chunks. -/
theorem no_read_of_a_regrown_file_agrees :
    Growing twoThenThree ∧ ∃ reads,
      readChunks false 1 4 (fun i => (twoThenThree i).view (7, 8)) (some ⟨some (7, 8), 5⟩) = some reads
      ∧ ∀ content, (twoThenThree 0).before <+: content → content <+: (twoThenThree 2).after →
        reads.flatMap ChunkRead.lines
          ≠ (Reader.readNewLines false (restingView (7, 8) content) (some ⟨some (7, 8), 5⟩)).lines := by
  refine ⟨growing_twoThenThree, _, rfl, ?_⟩
  intro content hfrom hto
  have hlow : 4 ≤ content.length := hfrom.length_le
  have hhigh : content.length ≤ 6 := hto.length_le
  have hcontent : content = [97, 10, 98, 10, 99, 10].take content.length := List.prefix_iff_eq_take.1 hto
  have hsizes : content.length = 4 ∨ content.length = 5 ∨ content.length = 6 := by omega
  rcases hsizes with hsize | hsize | hsize <;> rw [hsize] at hcontent <;> rw [hcontent] <;> decide +kernel

end ChunkReader

end SortView
