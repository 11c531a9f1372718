import SortView.Lib.CsvReader

/-!
# The CSV export (`frontend/src/reports/csv.ts`)

A report table as the text of a CSV file. Text that a spreadsheet would take for a formula gets an apostrophe in
front; a cell that could shift a field or a record is quoted.
-/

namespace SortView

namespace CsvExport

open JsText Csv

/-- `CsvCell`. -/
inductive CsvCell where
  | text (value : JsText)
  | number (value : JsText.Number)
  | null
  deriving DecidableEq

structure CsvTable where
  columns : List JsText
  rows : List (List CsvCell)

/-- `CSV_BYTE_ORDER_MARK`. -/
def csvByteOrderMark : UInt16 := 0xfeff

/-- The units of `[=+\-@]`. -/
def formulaUnits : JsText := ofText "=+-@".toList

/-- `STARTS_A_FORMULA.test(value)`: none of the four is white space, so the first unit that is no white space decides. -/
def startsAFormula (value : JsText) : Bool := (value.dropWhile isSpace).head?.any (formulaUnits.contains ·)

/-- `NEEDS_QUOTES.test(value)`. -/
def needsQuotes (value : JsText) : Bool := value.any special || value.head?.any isSpace || value.getLast?.any isSpace

def apostrophe : UInt16 := unit '\''

def textCell (value : JsText) : JsText :=
  let safe := if startsAFormula value then apostrophe :: value else value
  if needsQuotes safe then quote :: (doubled safe ++ [quote]) else safe

def cell : CsvCell → JsText
  | .null => []
  | .number value => numberText value
  | .text value => textCell value

/-- `records.join(LINE_END)`. -/
def joinRecords : List JsText → JsText
  | [] => []
  | [record] => record
  | record :: next :: records => record ++ cr :: lf :: joinRecords (next :: records)

/-- `csvText`; `none` is its `RangeError`. -/
def csvText (table : CsvTable) : Option JsText :=
  if table.rows.any fun row => row.length ≠ table.columns.length then none
  else
    let records := (table.columns.map .text :: table.rows).map fun row => joinFields (row.map cell)
    some (csvByteOrderMark :: (joinRecords records ++ [cr, lf]))

/-! ### What is exported -/

/-- The text begins, after white space, with one of the four units that start a formula. -/
def BeginsFormula (value : JsText) : Prop :=
  ∃ spaces u rest, (∀ space ∈ spaces, isSpace space = true) ∧ u ∈ formulaUnits ∧ value = spaces ++ u :: rest

theorem isSpace_formulaUnit {u : UInt16} (hu : u ∈ formulaUnits) : isSpace u = false := by
  have hall : (formulaUnits.all fun u => !isSpace u) = true := by decide
  simpa using List.all_eq_true.1 hall u hu

theorem startsAFormula_iff {value : JsText} : startsAFormula value = true ↔ BeginsFormula value := by
  constructor
  · intro h
    cases hrest : value.dropWhile isSpace with
    | nil =>
        rw [startsAFormula, hrest] at h
        cases h
    | cons u rest =>
        rw [startsAFormula, hrest] at h
        refine ⟨value.takeWhile isSpace, u, rest, fun _ hspace => List.mem_takeWhile_imp hspace, by simpa using h, ?_⟩
        rw [← hrest, List.takeWhile_append_dropWhile]
  · rintro ⟨spaces, u, rest, hspaces, hu, rfl⟩
    have hkept : isSpace u ≠ true := by
      rw [isSpace_formulaUnit hu]
      decide
    rw [startsAFormula, List.dropWhile_append_of_pos hspaces, List.dropWhile_cons_of_neg hkept]
    simpa using hu

instance (value : JsText) : Decidable (BeginsFormula value) := decidable_of_iff _ startsAFormula_iff

/-- What a reader of the file is to find for a text: the text, with an apostrophe before what begins a formula. -/
def safeText (value : JsText) : JsText := if BeginsFormula value then apostrophe :: value else value

/-- What a reader is to find for a cell. -/
def safeCell : CsvCell → JsText
  | .null => []
  | .number value => numberText value
  | .text value => safeText value

theorem not_beginsFormula_safeText (value : JsText) : ¬ BeginsFormula (safeText value) := by
  rw [safeText]
  split
  · rw [← startsAFormula_iff]
    have hkept : isSpace apostrophe ≠ true := by decide
    have hnone : formulaUnits.contains apostrophe = false := by decide
    rw [startsAFormula, List.dropWhile_cons_of_neg hkept, List.head?_cons, Option.any_some, hnone]
    decide
  · next hplain => exact hplain

/-! ### Each cell is written by the rules -/

theorem written_textCell (value : JsText) : Written (textCell value) (safeText value) := by
  have hsafe : (if startsAFormula value then apostrophe :: value else value) = safeText value := by
    rw [safeText]
    simp only [startsAFormula_iff]
  rw [textCell, hsafe]
  split
  · exact Written.quoted _
  · next hplain =>
    apply Written.plain
    rw [needsQuotes, Bool.or_eq_true, Bool.or_eq_true, not_or, not_or] at hplain
    simpa using hplain.1.1

theorem special_of_isNumberUnit {u : UInt16} (hu : isNumberUnit u = true) : special u = false := by
  rw [special_eq_false_iff]
  refine ⟨?_, ?_, ?_, ?_⟩
  · rintro rfl
    revert hu
    decide
  · rintro rfl
    revert hu
    decide
  · rintro rfl
    revert hu
    decide
  · rintro rfl
    revert hu
    decide

theorem written_cell (value : CsvCell) : Written (cell value) (safeCell value) := by
  cases value with
  | null => exact Written.plain fun _ hu => absurd hu List.not_mem_nil
  | number value => exact Written.plain fun _ hu => special_of_isNumberUnit (isNumberUnit_of_mem_numberText hu)
  | text value => exact written_textCell value

theorem written_row (row : List CsvCell) : List.Forall₂ Written (row.map cell) (row.map safeCell) := by
  induction row with
  | nil => exact List.Forall₂.nil
  | cons value row ih => exact List.Forall₂.cons (written_cell value) ih

theorem joinRecords_append_lineEnd {records : List (List JsText)} (hne : records ≠ []) :
    joinRecords (records.map joinFields) ++ [cr, lf] = records.flatMap line := by
  induction records with
  | nil => exact absurd rfl hne
  | cons record records ih =>
      cases records with
      | nil =>
          rw [List.flatMap_singleton]
          rfl
      | cons next records =>
          rw [List.flatMap_cons, ← ih (List.cons_ne_nil _ _), line]
          simp [joinRecords]

/-! ### The file -/

/-- The file holds a record for the headings and one for each row, each with the fields of the columns. A reader finds
every text as it was, with an apostrophe before what begins a formula, and so no text that begins one. -/
theorem csvText_lossless {table : CsvTable} (hcolumns : table.columns ≠ [])
    (hrows : ∀ row ∈ table.rows, row.length = table.columns.length) :
    ∃ text records, csvText table = some (csvByteOrderMark :: text) ∧ readCsv text = some records
      ∧ records = table.columns.map safeText :: table.rows.map (List.map safeCell)
      ∧ (∀ record ∈ records, record.length = table.columns.length)
      ∧ ∀ value, ¬ BeginsFormula (safeText value) := by
  have hshape : ¬ (table.rows.any fun row => row.length ≠ table.columns.length) = true := by
    simpa using hrows
  refine ⟨_, _, by rw [csvText, if_neg hshape], ?_, rfl, ?_, not_beginsFormula_safeText⟩
  · have hwritten : List.Forall₂ (List.Forall₂ Written) ((table.columns.map CsvCell.text :: table.rows).map (List.map cell))
        ((table.columns.map CsvCell.text :: table.rows).map (List.map safeCell)) := by
      induction table.columns.map CsvCell.text :: table.rows with
      | nil => exact List.Forall₂.nil
      | cons row rows ih => exact List.Forall₂.cons (written_row row) ih
    have hne : ∀ record ∈ (table.columns.map CsvCell.text :: table.rows).map (List.map cell), record ≠ [] := by
      intro record hrecord
      obtain ⟨row, hrow, rfl⟩ := List.mem_map.1 hrecord
      have hlength : row.length = table.columns.length := by
        rcases List.mem_cons.1 hrow with rfl | hrow
        · exact List.length_map _
        · exact hrows row hrow
      have hpos := List.length_pos_iff.2 hcolumns
      exact List.ne_nil_of_length_pos (by rw [List.length_map]; omega)
    have hread := readCsv_lines hne hwritten
    have hjoined : joinRecords ((table.columns.map CsvCell.text :: table.rows).map fun row => joinFields (row.map cell)) ++ [cr, lf]
        = ((table.columns.map CsvCell.text :: table.rows).map (List.map cell)).flatMap line := by
      rw [← joinRecords_append_lineEnd (List.map_eq_nil_iff.not.2 (List.cons_ne_nil _ _)), List.map_map]
      rfl
    rw [hjoined, hread, List.map_cons, List.map_map]
    rfl
  · intro record hrecord
    rcases List.mem_cons.1 hrecord with rfl | hrecord
    · exact List.length_map _
    · obtain ⟨row, hrow, rfl⟩ := List.mem_map.1 hrecord
      rw [List.length_map, hrows row hrow]

/-- A heading with a comma and quotes, and a cell with a blank, a formula and a line break. -/
def formulaTable : CsvTable :=
  ⟨[ofText "Name, \"x\"".toList], [[.text (ofText " =1\r\n".toList)]]⟩

theorem csvText_lossless_formulaTable :
    ∃ text, csvText formulaTable = some (csvByteOrderMark :: text)
      ∧ readCsv text = some [[ofText "Name, \"x\"".toList], [ofText "' =1\r\n".toList]] := by
  obtain ⟨text, records, htext, hread, hrecords, -, -⟩ := @csvText_lossless formulaTable (by decide) (by decide)
  refine ⟨text, htext, ?_⟩
  rw [hread, hrecords]
  decide

end CsvExport

end SortView
