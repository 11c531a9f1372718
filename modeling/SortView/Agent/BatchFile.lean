import SortView.Agent.SpoolOrder
import SortView.Lib.JsonText
import SortView.Lib.TextLines

/-!
# The text of a spool batch (`agent/spool.py`)

What `write_batch` writes into a batch file and what `read_batch` reads of one: every batch reads back as it was written, and a
file that is cut inside a record is refused.
-/

namespace SortView

namespace BatchFile

open PyText JsonText SpoolNames

variable {φ : Type}

/-! ### Writing and reading -/

/-- A record: a dictionary, with each key once at every depth. -/
structure Record (φ : Type) where
  items : List (Text × JsonValue φ)
  keyed : Keyed (.object items)

variable (floats : FloatText φ)

def Record.written (record : Record φ) : Text := dumps floats (.object record.items)

/-- `"\n".join(json.dumps(record, default=str) for record in records) + "\n"`. -/
def payload (records : List (Record φ)) : Text := join '\n' (records.map (Record.written floats)) ++ ['\n']

/-- The text of a pending file. -/
def fileText (dir : PendingDir (Record φ)) (name : Text) : Option Text := (dir.lookup name).map (payload floats)

inductive CorruptBatchError where
  | couldNotBeRead
  | notValidJson (line : Nat)
  | notAnObject (line : Nat) (typeName : Text)
  deriving DecidableEq

/-- `type(record).__name__`. -/
def typeName : JsonValue φ → Text
  | .null => "NoneType".toList
  | .bool _ => "bool".toList
  | .int _ => "int".toList
  | .float _ => "float".toList
  | .constant _ => "float".toList
  | .text _ => "str".toList
  | .array _ => "list".toList
  | .object _ => "dict".toList

/-- The loop of `read_batch`, from a line number on. -/
def readLines : Nat → List Text → Except CorruptBatchError (List (List (Text × JsonValue φ)))
  | _, [] => .ok []
  | number, line :: lines =>
      if strip line = [] then readLines (number + 1) lines
      else
        match loads floats line with
        | none => .error (.notValidJson number)
        | some (.object items) => (readLines (number + 1) lines).map (items :: ·)
        | some value => .error (.notAnObject number (typeName value))

/-- `read_batch`; none is a file that cannot be read. -/
def readBatch : Option Text → Except CorruptBatchError (List (List (Text × JsonValue φ)))
  | none => .error .couldNotBeRead
  | some text => readLines floats 1 (splitlines (universalNewlines text))

/-- A part of a file's text that ends inside a line: not at its start, and not at its end. -/
def EndsInsideLine (file part : Text) : Prop :=
  ∃ last next rest, part.getLast? = some last ∧ last ≠ '\n' ∧ next ≠ '\n' ∧ file = part ++ next :: rest

/-! ### The lines of a file -/

/-- The records, each on its line. -/
def fileLines (records : List (Record φ)) : Text := records.flatMap fun record => record.written floats ++ ['\n']

theorem fileLines_cons (record : Record φ) (records : List (Record φ)) :
    fileLines floats (record :: records) = record.written floats ++ '\n' :: fileLines floats records := by
  rw [fileLines, List.flatMap_cons, List.append_assoc, List.singleton_append, fileLines]

theorem payload_eq {records : List (Record φ)} (hne : records ≠ []) : payload floats records = fileLines floats records := by
  induction records with
  | nil => exact absurd rfl hne
  | cons record records ih =>
      cases records with
      | nil => rw [payload, fileLines_cons, List.map_singleton, join, fileLines, List.flatMap_nil]
      | cons next records =>
          have hrest := ih (List.cons_ne_nil _ _)
          rw [payload] at hrest
          rw [payload, List.map_cons, List.map_cons, join, ← List.map_cons, List.append_assoc, List.cons_append, hrest,
            ← fileLines_cons]

theorem printable_record (record : Record φ) : Printable (record.written floats) := printable_dumps floats _

theorem not_isLineBoundary_of_printable {text : Text} (h : Printable text) : ∀ c ∈ text, isLineBoundary c = false := by
  intro c hc
  obtain ⟨hlow, hhigh⟩ := h c hc
  simp only [isLineBoundary, Bool.or_eq_false_iff, Bool.and_eq_false_iff, decide_eq_false_iff_not, beq_eq_false_iff_ne]
  omega

/-- The text of a record starts with a brace. -/
theorem head_record (record : Record φ) : ∃ text, record.written floats = '\x7b' :: text := by
  rw [Record.written, dumps]
  exact ⟨_, rfl⟩

theorem strip_ne_nil {text : Text} : strip ('\x7b' :: text) ≠ [] := by
  intro h
  obtain ⟨left, right, hleft, hright, hpad⟩ := exists_pad ('\x7b' :: text)
  rw [h, List.append_nil] at hpad
  have hmem : '\x7b' ∈ left ++ right := hpad ▸ List.mem_cons_self ..
  have hspace : isSpace '\x7b' = true := (List.mem_append.1 hmem).elim (hleft _) (hright _)
  cases hspace

theorem splitlines_fileLines (records : List (Record φ)) (last : Text) :
    splitlines (fileLines floats records ++ last) = records.map (Record.written floats) ++ splitlines last := by
  induction records with
  | nil => rfl
  | cons record records ih =>
      rw [fileLines_cons, List.append_assoc, List.cons_append,
        splitlines_line (not_isLineBoundary_of_printable (printable_record floats record)), List.map_cons, List.cons_append, ih]

theorem readLines_written (records : List (Record φ)) (lines : List Text) : ∀ number,
    readLines floats number (records.map (Record.written floats) ++ lines)
      = (readLines floats (number + records.length) lines).map (records.map Record.items ++ ·) := by
  induction records with
  | nil =>
      intro number
      show readLines floats number lines = _
      rw [List.length_nil, Nat.add_zero]
      cases readLines floats number lines <;> rfl
  | cons record records ih =>
      intro number
      obtain ⟨text, htext⟩ := head_record floats record
      have hstrip : strip (record.written floats) ≠ [] := htext ▸ strip_ne_nil
      have hloads : loads floats (record.written floats) = some (.object record.items) := loads_dumps floats record.keyed
      have hnumber : number + (record :: records).length = number + 1 + records.length := by
        rw [List.length_cons]
        omega
      rw [List.map_cons, List.cons_append, readLines, if_neg hstrip, hloads, ih (number + 1), hnumber]
      dsimp only
      cases readLines floats (number + 1 + records.length) lines <;> rfl

theorem no_return {records : List (Record φ)} {text : Text} (h : Printable text) : '\r' ∉ fileLines floats records ++ text := by
  intro hmem
  rcases List.mem_append.1 hmem with hmem | hmem
  · obtain ⟨record, -, hmem⟩ := List.mem_flatMap.1 hmem
    rcases List.mem_append.1 hmem with hmem | hmem
    · exact absurd (printable_record floats record _ hmem).1 (by decide)
    · exact absurd (List.mem_singleton.1 hmem) (by decide)
  · exact absurd (h _ hmem).1 (by decide)

/-! ### A file that is cut -/

/-- A part that ends inside a line ends inside the text of a record. -/
theorem exists_cut_record : ∀ {records : List (Record φ)} {part : Text}, EndsInsideLine (fileLines floats records) part →
    ∃ before record after piece rest, records = before ++ record :: after ∧ record.written floats = piece ++ rest ∧ piece ≠ []
      ∧ rest ≠ [] ∧ part = fileLines floats before ++ piece
  | [], part, ⟨_, _, _, _, _, _, hfile⟩ => by
      have hnil : part ++ _ :: _ = [] := hfile.symm
      exact absurd (List.append_eq_nil_iff.1 hnil).2 (List.cons_ne_nil _ _)
  | record :: records, part, ⟨last, next, rest, hlast, hlastLine, hnext, hfile⟩ => by
      rw [fileLines_cons] at hfile
      rcases List.append_eq_append_iff.1 hfile with ⟨more, hpart, hrest⟩ | ⟨more, hrecord, hrest⟩
      · cases more with
        | nil => exact absurd (List.cons.inj hrest).1.symm hnext
        | cons newline more =>
            obtain ⟨rfl, hlater⟩ := List.cons.inj hrest
            have hmore : more ≠ [] := by
              rintro rfl
              rw [hpart, List.getLast?_append] at hlast
              exact hlastLine (Option.some.inj hlast).symm
            have hlastMore : more.getLast? = some last := by
              rw [hpart, List.getLast?_append, List.getLast?_cons, List.getLast?_eq_some_getLast hmore] at hlast
              rw [List.getLast?_eq_some_getLast hmore]
              exact hlast
            obtain ⟨before, cut, after, piece, left, rfl, hwritten, hpiece, hleft, rfl⟩ :=
              exists_cut_record ⟨last, next, rest, hlastMore, hlastLine, hnext, hlater⟩
            refine ⟨record :: before, cut, after, piece, left, rfl, hwritten, hpiece, hleft, ?_⟩
            rw [hpart, fileLines_cons, List.append_assoc, List.cons_append]
      · refine ⟨[], record, records, part, more, rfl, hrecord, ?_, ?_, rfl⟩
        · rintro rfl
          cases hlast
        · rintro rfl
          exact hnext (List.cons.inj hrest).1

/-- A file that is cut inside a record is refused at that line. -/
theorem readBatch_cut {before : List (Record φ)} {record : Record φ} {piece rest : Text}
    (hwritten : record.written floats = piece ++ rest) (hpiece : piece ≠ []) (hrest : rest ≠ []) :
    readBatch floats (some (fileLines floats before ++ piece)) = .error (.notValidJson (1 + before.length)) := by
  have hprintable : Printable piece := fun c hc => printable_record floats record c (hwritten ▸ List.mem_append_left _ hc)
  have hstrip : strip piece ≠ [] := by
    obtain ⟨text, htext⟩ := head_record floats record
    cases piece with
    | nil => exact absurd rfl hpiece
    | cons c piece =>
        rw [htext] at hwritten
        rw [← (List.cons.inj hwritten).1]
        exact strip_ne_nil
  rw [readBatch, universalNewlines_eq (no_return floats hprintable), splitlines_fileLines,
    splitlines_last hpiece (not_isLineBoundary_of_printable hprintable), readLines_written, readLines, if_neg hstrip,
    loads_of_prefix floats record.keyed hwritten hpiece hrest]
  rfl

theorem lookup_install (dir : PendingDir (Record φ)) (name : Text) (records : List (Record φ)) :
    (dir.install name records).lookup name = some records := by
  have hnone : (dir.filter fun file => file.1 ≠ name).lookup name = none := by
    rw [List.lookup_eq_none_iff]
    intro file hfile
    have hname := of_decide_eq_true (List.mem_filter.1 hfile).2
    exact bne_iff_ne.2 (Ne.symm hname)
  rw [PendingDir.install, List.lookup_append, hnone, Option.none_or, List.lookup_cons_self]

theorem records_ne_nil {dir after : PendingDir (Record φ)} {write : BatchWrite (Record φ)} (h : writeBatch dir write = .ok after) :
    write.records ≠ [] := by
  intro hempty
  rw [writeBatch, if_pos hempty] at h
  cases h

/-- A batch reads back as it was written, and a part of its file that ends inside a line is refused. -/
theorem batch_reads_back {dir after : PendingDir (Record φ)} {write : BatchWrite (Record φ)} (h : writeBatch dir write = .ok after) :
    readBatch floats (fileText floats after write.fileName) = .ok (write.records.map Record.items)
      ∧ ∀ file ∈ fileText floats after write.fileName, ∀ part, EndsInsideLine file part →
          ∃ error, readBatch floats (some part) = .error error := by
  have hne := records_ne_nil h
  obtain ⟨-, rfl⟩ := writeBatch_ok h
  rw [fileText, lookup_install, Option.map_some, payload_eq floats hne]
  have hread := readLines_written floats write.records [] 1
  have hlines := splitlines_fileLines floats write.records []
  have hreturn : '\r' ∉ fileLines floats write.records ++ [] := no_return floats Printable.nil
  rw [List.append_nil] at hlines hreturn hread
  rw [splitlines, List.append_nil] at hlines
  refine ⟨?_, ?_⟩
  · rw [readBatch, universalNewlines_eq hreturn, hlines, hread, readLines]
    exact congrArg Except.ok (List.append_nil _)
  · intro file hfile part hinside
    obtain rfl := Option.some.inj hfile
    obtain ⟨before, record, later, piece, rest, -, hwritten, hpiece, hrest, rfl⟩ := exists_cut_record floats hinside
    exact ⟨_, readBatch_cut floats hwritten hpiece hrest⟩

/-- The floats half a unit above a natural number. -/
def halves : FloatText Nat where
  repr n := ⟨[], decimal n, ['.', '5'], []⟩
  read number := Nat.ofDigitChars 10 number.whole 0
  valid _ :=
    { minus := Or.inl rfl
      whole := ⟨⟨Nat.toDigits_ne_nil, fun _ hc => isDigit_of_mem_decimal hc⟩, noLeadingZero_decimal _⟩
      fraction := Or.inr ⟨['5'], ⟨List.cons_ne_nil _ _, fun _ hc => List.mem_singleton.1 hc ▸ rfl⟩, rfl⟩
      exponent := Or.inl rfl }
  real _ := Or.inl (List.cons_ne_nil _ _)
  read_repr _ := Nat.ofDigitChars_ten_toDigits ..

/-- A record with a line separator in a text, a float and a list. -/
def sampleRecord : Record Nat where
  items := [("text".toList, .text ['a', Char.ofNat 0x2028, '\n']), ("at".toList, .float 1), ("all".toList, .array [.null, .int (-2)])]
  keyed := ⟨by decide, trivial, trivial, ⟨trivial, trivial, trivial⟩, trivial⟩

theorem firstNanosecond_inRange : -2 ^ 63 ≤ (0 : Int) ∧ (0 : Int) < 2 ^ 63 := by omega

def sampleStamp : NameStamp := ⟨0, 0, ['0', '0', '0', '0', '0', 'a'], firstNanosecond_inRange, rfl, rfl⟩

def sampleWrite : BatchWrite (Record Nat) := ⟨[sampleRecord], 0, 0, 10, sampleStamp⟩

theorem batch_reads_back_sample :
    ∃ after, writeBatch [] sampleWrite = .ok after
      ∧ readBatch halves (fileText halves after sampleWrite.fileName) = .ok [sampleRecord.items] := by
  have hwrite : writeBatch [] sampleWrite = .ok (PendingDir.install [] sampleWrite.fileName sampleWrite.records) := rfl
  exact ⟨_, hwrite, (batch_reads_back halves hwrite).1⟩

end BatchFile

end SortView
