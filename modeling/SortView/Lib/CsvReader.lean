import SortView.Lib.JsText

/-!
# Comma-separated values

A reader of RFC 4180: records end with CRLF, the last one perhaps without; fields are separated by commas; a field in
double quotes may hold commas, line breaks, and double quotes that are doubled. A text that breaks these rules is
not read. Fields that are written by the rules are read back, whatever stands around them.
-/

namespace Csv

open JsText

def quote : UInt16 := unit '"'
def comma : UInt16 := unit ','
def cr : UInt16 := unit '\r'
def lf : UInt16 := unit '\n'

/-- Where the reader is in a field: at its start, inside a plain one, inside a quoted one, or after a quote in that. -/
inductive FieldState where
  | start
  | plain
  | quoted
  | closed
  deriving DecidableEq

/-- What is read from a place inside a field on: the rest of the field, the further fields of the record, and the
further records. -/
structure Reading where
  field : JsText
  fields : List JsText
  records : List (List JsText)

def Reading.empty : Reading := ⟨[], [], []⟩

def Reading.addUnit (u : UInt16) (reading : Reading) : Reading := { reading with field := u :: reading.field }

def Reading.endField (reading : Reading) : Reading := ⟨[], reading.field :: reading.fields, reading.records⟩

def Reading.endRecord (reading : Reading) : Reading := ⟨[], [], (reading.field :: reading.fields) :: reading.records⟩

/-- The reading of a text from a place inside a field on. -/
def readFrom : FieldState → JsText → Option Reading
  | state, [] => if state = .quoted then none else some .empty
  | state, u :: rest =>
      if state = .quoted then
        if u = quote then readFrom .closed rest else (readFrom .quoted rest).map (Reading.addUnit u)
      else if u = comma then (readFrom .start rest).map Reading.endField
      else if u = cr then
        match rest with
        | [] => none
        | next :: rest =>
            if next ≠ lf then none
            else if rest = [] then some .empty
            else (readFrom .start rest).map Reading.endRecord
      else if u = lf then none
      else if u = quote then
        match state with
        | .start => readFrom .quoted rest
        | .closed => (readFrom .quoted rest).map (Reading.addUnit u)
        | _ => none
      else if state = .closed then none
      else (readFrom .plain rest).map (Reading.addUnit u)

/-- The records of a text. -/
def readCsv (text : JsText) : Option (List (List JsText)) :=
  if text = [] then some [] else (readFrom .start text).map fun reading => (reading.field :: reading.fields) :: reading.records

/-! ### Fields that are written by the rules -/

/-- The code units that a plain field must not have. -/
def special (u : UInt16) : Bool := u == quote || u == comma || u == cr || u == lf

theorem special_eq_false_iff {u : UInt16} : special u = false ↔ u ≠ quote ∧ u ≠ comma ∧ u ≠ cr ∧ u ≠ lf := by
  simp [special, and_assoc]

/-- `field.replaceAll('"', '""')`. -/
def doubled (field : JsText) : JsText := field.flatMap fun u => if u = quote then [quote, quote] else [u]

/-- A field, and one of the ways in which it may be written. -/
inductive Written : JsText → JsText → Prop
  | plain {field : JsText} (h : ∀ u ∈ field, special u = false) : Written field field
  | quoted (field : JsText) : Written (quote :: (doubled field ++ [quote])) field

def Reading.prepend (field : JsText) (reading : Reading) : Reading := { reading with field := field ++ reading.field }

theorem map_prepend_cons (u : UInt16) (field : JsText) (reading : Option Reading) :
    (reading.map (Reading.prepend field)).map (Reading.addUnit u) = reading.map (Reading.prepend (u :: field)) := by
  rw [Option.map_map]
  rfl

theorem readFrom_quoted_cons {u : UInt16} (hu : u ≠ quote) (rest : JsText) :
    readFrom .quoted (u :: rest) = (readFrom .quoted rest).map (Reading.addUnit u) := by
  rw [readFrom.eq_def]
  simp only [if_true, if_neg hu]

theorem readFrom_quoted_quote (rest : JsText) : readFrom .quoted (quote :: rest) = readFrom .closed rest := by
  rw [readFrom.eq_def]
  simp only [if_true]

theorem readFrom_closed_quote (rest : JsText) : readFrom .closed (quote :: rest) = (readFrom .quoted rest).map (Reading.addUnit quote) := by
  rw [readFrom.eq_def]
  rfl

theorem readFrom_start_quote (rest : JsText) : readFrom .start (quote :: rest) = readFrom .quoted rest := by
  rw [readFrom.eq_def]
  rfl

theorem readFrom_comma {state : FieldState} (hstate : state ≠ .quoted) (rest : JsText) :
    readFrom state (comma :: rest) = (readFrom .start rest).map Reading.endField := by
  rw [readFrom.eq_def]
  simp only [if_neg hstate, if_true]

/-- A line end closes the record; the further records are read from there. -/
theorem readFrom_lineEnd {state : FieldState} (hstate : state ≠ .quoted) (rest : JsText) :
    readFrom state (cr :: lf :: rest) = (readCsv rest).map fun records => ⟨[], [], records⟩ := by
  have hcomma : ¬ cr = comma := by decide
  rw [readFrom.eq_def, readCsv]
  simp only [if_neg hstate, if_neg hcomma, if_true, ne_eq, not_true_eq_false, if_false]
  by_cases hempty : rest = []
  · rw [if_pos hempty, if_pos hempty]
    rfl
  · rw [if_neg hempty, if_neg hempty, Option.map_map]
    rfl

/-- A code unit of a plain field. -/
theorem readFrom_unit {state : FieldState} (hquoted : state ≠ .quoted) (hclosed : state ≠ .closed) {u : UInt16}
    (hu : special u = false) (rest : JsText) : readFrom state (u :: rest) = (readFrom .plain rest).map (Reading.addUnit u) := by
  obtain ⟨hquote, hcomma, hcr, hlf⟩ := special_eq_false_iff.1 hu
  rw [readFrom.eq_def]
  simp only [if_neg hquoted, if_neg hcomma, if_neg hcr, if_neg hlf, if_neg hquote, if_neg hclosed]

theorem readFrom_plain {field : JsText} (hfield : ∀ u ∈ field, special u = false) (rest : JsText) :
    readFrom .plain (field ++ rest) = (readFrom .plain rest).map (Reading.prepend field) := by
  induction field with
  | nil =>
      rw [List.nil_append, show Reading.prepend [] = id from rfl, Option.map_id]
      rfl
  | cons u field ih =>
      rw [List.cons_append, readFrom_unit (by decide) (by decide) (hfield u (List.mem_cons_self ..)),
        ih fun other hother => hfield other (List.mem_cons_of_mem _ hother), map_prepend_cons]

theorem readFrom_doubled (field rest : JsText) :
    readFrom .quoted (doubled field ++ quote :: rest) = (readFrom .closed rest).map (Reading.prepend field) := by
  induction field with
  | nil =>
      rw [doubled, List.flatMap_nil, List.nil_append, readFrom_quoted_quote, show Reading.prepend [] = id from rfl, Option.map_id]
      rfl
  | cons u field ih =>
      rw [doubled] at ih
      rw [doubled, List.flatMap_cons]
      by_cases hu : u = quote
      · subst hu
        rw [if_pos rfl, List.append_assoc, List.cons_append, List.singleton_append, readFrom_quoted_quote, readFrom_closed_quote, ih,
          map_prepend_cons]
      · rw [if_neg hu, List.append_assoc, List.singleton_append, readFrom_quoted_cons hu, ih, map_prepend_cons]

/-- What ends a field outside of quotes. -/
def EndsField (rest : JsText) : Prop := (∃ more, rest = comma :: more) ∨ ∃ more, rest = cr :: lf :: more

theorem EndsField.readFrom_eq {rest : JsText} (hrest : EndsField rest) {state : FieldState} (hstate : state ≠ .quoted) :
    readFrom state rest = readFrom .closed rest := by
  rcases hrest with ⟨more, rfl⟩ | ⟨more, rfl⟩
  · rw [readFrom_comma hstate, readFrom_comma (by decide)]
  · rw [readFrom_lineEnd hstate, readFrom_lineEnd (by decide)]

/-- A written field is read back. -/
theorem Written.readFrom_start {written field rest : JsText} (hwritten : Written written field) (hrest : EndsField rest) :
    readFrom .start (written ++ rest) = (readFrom .closed rest).map (Reading.prepend field) := by
  cases hwritten with
  | quoted =>
      rw [List.cons_append, readFrom_start_quote, List.append_assoc, List.singleton_append, readFrom_doubled]
  | plain hplain =>
      cases written with
      | nil =>
          rw [List.nil_append, hrest.readFrom_eq (by decide), show Reading.prepend [] = id from rfl, Option.map_id]
          rfl
      | cons u written =>
          rw [List.cons_append, readFrom_unit (by decide) (by decide) (hplain u (List.mem_cons_self ..)),
            readFrom_plain fun other hother => hplain other (List.mem_cons_of_mem _ hother), hrest.readFrom_eq (by decide),
            map_prepend_cons]

/-! ### Records -/

/-- `fields.join(',')`. -/
def joinFields : List JsText → JsText
  | [] => []
  | [field] => field
  | field :: next :: fields => field ++ comma :: joinFields (next :: fields)

/-- A line: the written fields of a record, and its end. -/
def line (fields : List JsText) : JsText := joinFields fields ++ [cr, lf]

theorem readFrom_line {written fields : List JsText} {first field : JsText} (hfirst : Written first field)
    (hwritten : List.Forall₂ Written written fields) (rest : JsText) :
    readFrom .start (line (first :: written) ++ rest) = (readCsv rest).map fun records => ⟨field, fields, records⟩ := by
  induction hwritten generalizing first field with
  | nil =>
      have hline : line [first] ++ rest = first ++ cr :: lf :: rest := List.append_assoc first [cr, lf] rest
      rw [hline, hfirst.readFrom_start (Or.inr ⟨rest, rfl⟩), readFrom_lineEnd (by decide), Option.map_map]
      congr 1
      funext records
      exact congrArg (Reading.mk · [] records) (List.append_nil field)
  | @cons next nextField written fields hnext hwritten ih =>
      have hsplit : line (first :: next :: written) ++ rest = first ++ comma :: (line (next :: written) ++ rest) := by
        rw [line, line, joinFields, List.append_assoc, List.append_assoc, List.cons_append, List.append_assoc]
      rw [hsplit, hfirst.readFrom_start (Or.inl ⟨_, rfl⟩), readFrom_comma (by decide), ih hnext, Option.map_map, Option.map_map]
      congr 1
      funext records
      exact congrArg (Reading.mk · (nextField :: fields) records) (List.append_nil field)

/-- Lines of written fields are read back, one record a line. -/
theorem readCsv_lines {written fields : List (List JsText)} (hne : ∀ record ∈ written, record ≠ [])
    (hwritten : List.Forall₂ (List.Forall₂ Written) written fields) : readCsv (written.flatMap line) = some fields := by
  induction hwritten with
  | nil => rfl
  | @cons record recordFields written fields hrecord _ ih =>
      cases hrecord with
      | nil => exact absurd rfl (hne [] (List.mem_cons_self ..))
      | @cons first field rest restFields hfirst hrest =>
          have hsome : line (first :: rest) ++ written.flatMap line ≠ [] := by
            rw [line, List.append_assoc]
            exact List.append_ne_nil_of_right_ne_nil _ (List.cons_ne_nil _ _)
          rw [List.flatMap_cons, readCsv, if_neg hsome, readFrom_line hfirst hrest,
            ih fun other hother => hne other (List.mem_cons_of_mem _ hother)]
          rfl

end Csv
