import SortView.Lib.Dict
import SortView.Lib.Slices
import SortView.Services.IngestStore

/-!
# A whole upload request

`_comparable`, `_content`, `_store_kind` and `store_events` of `services/ingest_v2_service.py`, statement by
statement: a row as the driver is given it, a row as the driver reads it back, statements of at most 200
rows, and the three lists of a request in one transaction.
-/

namespace SortView

open PyText Calendar FirstWriter Slices

/-! ### Values of a column -/

/-- A value that is bound to a statement or read back from one. -/
inductive SqlValue where
  | null
  | text (value : Text)
  | bool (value : Bool)
  | time (value : Instant)
  deriving DecidableEq

def SqlValue.ofText? : Option Text → SqlValue
  | none => .null
  | some value => .text value

def SqlValue.ofBool? : Option Bool → SqlValue
  | none => .null
  | some value => .bool value

/-- `str(value)`. -/
def SqlValue.str : SqlValue → Text
  | .null => "None".toList
  | .text value => value
  | .bool value => if value then "True".toList else "False".toList
  | .time value => (isoText value).map fun c => if c = 'T' then ' ' else c

/-- `bool(value)`. -/
def SqlValue.truthy : SqlValue → Bool
  | .null => false
  | .text value => decide (value ≠ [])
  | .bool value => value
  | .time _ => true

/-- The canonical spelling of a value: `none`, an instant, a truth value or a text. A text that is no time in a
time column is `unreadable`. -/
inductive Comparable where
  | none
  | time (value : Instant)
  | flag (value : Bool)
  | text (value : Text)
  | unreadable
  deriving DecidableEq

/-- The instant of a time column: a timestamp as it is, or a text in the ISO form. -/
def SqlValue.instant? : SqlValue → Option Instant
  | .time value => some value
  | value => parseInstant value.str

/-- `_comparable`. -/
def comparable (column : Text) (value : SqlValue) : Comparable :=
  if value = .null then .none
  else if column = "event_time".toList then value.instant?.elim .unreadable .time
  else if "is_".toList.isPrefixOf column then .flag value.truthy
  else .text value.str

/-- A row by its columns. -/
abbrev SqlRow := List (Text × SqlValue)

def SqlRow.cell (row : SqlRow) (column : Text) : SqlValue := (row.lookup column).getD .null

/-- `_content`. -/
def rowContent (compareColumns : List Text) (row : SqlRow) : List Comparable :=
  compareColumns.map fun column => comparable column (row.cell column)

/-! ### The rows of the three tables -/

/-- How the rows of one table are compared and carried: what a row builder binds and what the driver reads back
differ in the time alone, a text when it is sent and a timestamp when it is read. -/
structure RowKind (ρ γ : Type) where
  eventKey : ρ → Text
  columns : (Instant → SqlValue) → ρ → SqlRow
  compareColumns : List Text
  typed : ρ → γ

namespace RowKind

variable {ρ γ : Type} (kind : RowKind ρ γ)

/-- The dictionary of a row builder. -/
def bound (row : ρ) : SqlRow := kind.columns (fun time => .text (isoText time)) row

/-- The mapping a `SELECT` gives. -/
def readBack (row : ρ) : SqlRow := kind.columns .time row

def sentContent (row : ρ) : List Comparable := rowContent kind.compareColumns (kind.bound row)

def storedContent (row : ρ) : List Comparable := rowContent kind.compareColumns (kind.readBack row)

/-- Sent and stored rows are compared alike, and as their typed columns are. -/
structure Faithful : Prop where
  same : ∀ row, kind.sentContent row = kind.storedContent row
  exact : ∀ left right, kind.storedContent left = kind.storedContent right ↔ kind.typed left = kind.typed right

end RowKind

/-- `checkin_row`, with `CHECKIN_COMPARE_COLUMNS`. -/
def checkinKind : RowKind CheckinEventRow (Instant × Option Text × Text × Text) where
  eventKey := CheckinEventRow.eventKey
  columns spell row := [("event_key".toList, .text row.eventKey), ("event_time".toList, spell row.eventTime),
    ("item_key".toList, .ofText? row.itemKey), ("destination".toList, .text row.destination), ("bin".toList, .text row.bin)]
  compareColumns := ["event_time".toList, "item_key".toList, "destination".toList, "bin".toList]
  typed := CheckinEventRow.content

/-- `reject_row`, with `REJECT_COMPARE_COLUMNS`. -/
def rejectKind : RowKind RejectEventRow (Instant × Text × Option Text) where
  eventKey := RejectEventRow.eventKey
  columns spell row := [("event_key".toList, .text row.eventKey), ("event_time".toList, spell row.eventTime),
    ("error_class".toList, .text row.errorClass), ("item_key".toList, .ofText? row.itemKey)]
  compareColumns := ["event_time".toList, "error_class".toList, "item_key".toList]
  typed := RejectEventRow.content

/-- `acs_item_row`, with `ACS_ITEM_COMPARE_COLUMNS`. -/
def acsItemKind : RowKind AcsItemEventRow (Instant × Text × Text × Option Text × Option Bool × Option Bool × Option Bool) where
  eventKey := AcsItemEventRow.eventKey
  columns spell row := [("event_key".toList, .text row.eventKey), ("event_time".toList, spell row.eventTime),
    ("state".toList, .text row.state), ("item_key".toList, .text row.itemKey),
    ("destination".toList, .ofText? row.destination), ("is_ill".toList, .ofBool? row.isIll),
    ("is_branch_services".toList, .ofBool? row.isBranchServices),
    ("is_collection_services".toList, .ofBool? row.isCollectionServices), ("ruleset_id".toList, .ofText? row.rulesetId)]
  compareColumns := ["event_time".toList, "state".toList, "item_key".toList, "destination".toList, "is_ill".toList,
    "is_branch_services".toList, "is_collection_services".toList]
  typed := AcsItemEventRow.content

/-! ### The comparison is the typed one -/

theorem comparable_isoText (time : Instant) : comparable "event_time".toList (.text (isoText time)) = .time time := by
  rw [comparable, if_neg nofun, if_pos rfl]
  show (parseInstant (isoText time)).elim _ _ = _
  rw [parseInstant_isoText, Option.elim_some]

theorem comparable_ofText? {column : Text} (htime : column ≠ "event_time".toList)
    (hflag : "is_".toList.isPrefixOf column = false) (value : Option Text) :
    comparable column (.ofText? value) = value.elim .none .text := by
  cases value with
  | none => rfl
  | some value =>
      rw [SqlValue.ofText?, comparable, if_neg nofun, if_neg htime, if_neg (by rw [hflag]; exact Bool.false_ne_true)]
      rfl

theorem comparable_ofBool? {column : Text} (htime : column ≠ "event_time".toList)
    (hflag : "is_".toList.isPrefixOf column = true) (value : Option Bool) :
    comparable column (.ofBool? value) = value.elim .none .flag := by
  cases value with
  | none => rfl
  | some value =>
      rw [SqlValue.ofBool?, comparable, if_neg nofun, if_neg htime, if_pos hflag]
      rfl

theorem elim_text_injective {left right : Option Text} (h : left.elim Comparable.none .text = right.elim .none .text) :
    left = right := by
  cases left <;> cases right <;> cases h <;> rfl

theorem elim_flag_injective {left right : Option Bool} (h : left.elim Comparable.none .flag = right.elim .none .flag) :
    left = right := by
  cases left <;> cases right <;> cases h <;> rfl

/-- What each kind needs of a value that carries a time: it is compared as its instant. -/
def SpellsTimes (spell : Instant → SqlValue) : Prop := ∀ time, comparable "event_time".toList (spell time) = .time time

theorem spellsTimes_sent : SpellsTimes fun time => .text (isoText time) := comparable_isoText

theorem spellsTimes_stored : SpellsTimes .time := fun _ => rfl

theorem checkin_content {spell : Instant → SqlValue} (hspell : SpellsTimes spell) (row : CheckinEventRow) :
    rowContent checkinKind.compareColumns (checkinKind.columns spell row)
      = [.time row.eventTime, row.itemKey.elim .none .text, .text row.destination, .text row.bin] := by
  have hitem : comparable "item_key".toList (.ofText? row.itemKey) = row.itemKey.elim .none .text :=
    comparable_ofText? (by decide) (by decide) _
  show [comparable "event_time".toList (spell row.eventTime), comparable "item_key".toList (.ofText? row.itemKey), _, _] = _
  rw [hspell, hitem]
  rfl

theorem reject_content {spell : Instant → SqlValue} (hspell : SpellsTimes spell) (row : RejectEventRow) :
    rowContent rejectKind.compareColumns (rejectKind.columns spell row)
      = [.time row.eventTime, .text row.errorClass, row.itemKey.elim .none .text] := by
  have hitem : comparable "item_key".toList (.ofText? row.itemKey) = row.itemKey.elim .none .text :=
    comparable_ofText? (by decide) (by decide) _
  show [comparable "event_time".toList (spell row.eventTime), _, comparable "item_key".toList (.ofText? row.itemKey)] = _
  rw [hspell, hitem]
  rfl

theorem acsItem_content {spell : Instant → SqlValue} (hspell : SpellsTimes spell) (row : AcsItemEventRow) :
    rowContent acsItemKind.compareColumns (acsItemKind.columns spell row)
      = [.time row.eventTime, .text row.state, .text row.itemKey, row.destination.elim .none .text, row.isIll.elim .none .flag,
        row.isBranchServices.elim .none .flag, row.isCollectionServices.elim .none .flag] := by
  have hdestination : comparable "destination".toList (.ofText? row.destination) = row.destination.elim .none .text :=
    comparable_ofText? (by decide) (by decide) _
  have hill : comparable "is_ill".toList (.ofBool? row.isIll) = row.isIll.elim .none .flag :=
    comparable_ofBool? (by decide) (by decide) _
  have hbranch : comparable "is_branch_services".toList (.ofBool? row.isBranchServices)
      = row.isBranchServices.elim .none .flag := comparable_ofBool? (by decide) (by decide) _
  have hcollection : comparable "is_collection_services".toList (.ofBool? row.isCollectionServices)
      = row.isCollectionServices.elim .none .flag := comparable_ofBool? (by decide) (by decide) _
  show [comparable "event_time".toList (spell row.eventTime), _, _, comparable "destination".toList (.ofText? row.destination),
    comparable "is_ill".toList (.ofBool? row.isIll), comparable "is_branch_services".toList (.ofBool? row.isBranchServices),
    comparable "is_collection_services".toList (.ofBool? row.isCollectionServices)] = _
  rw [hspell, hdestination, hill, hbranch, hcollection]
  rfl

theorem checkinKind_faithful : checkinKind.Faithful := by
  refine ⟨fun row => (checkin_content spellsTimes_sent row).trans (checkin_content spellsTimes_stored row).symm, ?_⟩
  intro left right
  rw [RowKind.storedContent, RowKind.readBack, checkin_content spellsTimes_stored, RowKind.storedContent, RowKind.readBack,
    checkin_content spellsTimes_stored]
  show _ ↔ left.content = right.content
  rw [CheckinEventRow.content, CheckinEventRow.content]
  constructor
  · intro h
    simp only [List.cons.injEq, Comparable.time.injEq, Comparable.text.injEq, and_true] at h
    rw [h.1, elim_text_injective h.2.1, h.2.2.1, h.2.2.2]
  · intro h
    simp only [Prod.mk.injEq] at h
    rw [h.1, h.2.1, h.2.2.1, h.2.2.2]

theorem rejectKind_faithful : rejectKind.Faithful := by
  refine ⟨fun row => (reject_content spellsTimes_sent row).trans (reject_content spellsTimes_stored row).symm, ?_⟩
  intro left right
  rw [RowKind.storedContent, RowKind.readBack, reject_content spellsTimes_stored, RowKind.storedContent, RowKind.readBack,
    reject_content spellsTimes_stored]
  show _ ↔ left.content = right.content
  rw [RejectEventRow.content, RejectEventRow.content]
  constructor
  · intro h
    simp only [List.cons.injEq, Comparable.time.injEq, Comparable.text.injEq, and_true] at h
    rw [h.1, h.2.1, elim_text_injective h.2.2]
  · intro h
    simp only [Prod.mk.injEq] at h
    rw [h.1, h.2.1, h.2.2]

theorem acsItemKind_faithful : acsItemKind.Faithful := by
  refine ⟨fun row => (acsItem_content spellsTimes_sent row).trans (acsItem_content spellsTimes_stored row).symm, ?_⟩
  intro left right
  rw [RowKind.storedContent, RowKind.readBack, acsItem_content spellsTimes_stored, RowKind.storedContent, RowKind.readBack,
    acsItem_content spellsTimes_stored]
  show _ ↔ left.content = right.content
  rw [AcsItemEventRow.content, AcsItemEventRow.content]
  constructor
  · intro h
    simp only [List.cons.injEq, Comparable.time.injEq, Comparable.text.injEq, and_true] at h
    obtain ⟨htime, hstate, hitem, hdestination, hill, hbranch, hcollection⟩ := h
    rw [htime, hstate, hitem, elim_text_injective hdestination, elim_flag_injective hill, elim_flag_injective hbranch,
      elim_flag_injective hcollection]
  · intro h
    simp only [Prod.mk.injEq] at h
    obtain ⟨htime, hstate, hitem, hdestination, hill, hbranch, hcollection⟩ := h
    rw [htime, hstate, hitem, hdestination, hill, hbranch, hcollection]

/-! ### Statements of at most 200 rows -/

/-- `_INSERT_CHUNK`. -/
def insertChunk : Nat := 200

/-- What a request is stored under: the tenant of its token and its key. -/
structure Tenant where
  customerId : Int
  branchId : Int
  keyId : Text
  deriving DecidableEq

/-- A stored row with the scope of its unique index. -/
structure ScopedRow (ρ : Type) where
  tenant : Tenant
  row : ρ

section Chunks

variable {ρ κ γ : Type} [DecidableEq κ] [DecidableEq γ] (key : ρ → κ) (sent read : ρ → γ)

/-- One `INSERT` of a chunk: the table, and the keys returned so far. -/
def insertRows (state : List ρ × List κ) (chunk : List (ρ × Nat)) : List ρ × List κ :=
  (chunk.map Prod.fst).foldl (insertReturning key) state

/-- One `SELECT` of the rows with the keys of a chunk, as a dictionary. -/
def selectRows (table : List ρ) (chunk : List (ρ × Nat)) : Dict κ ρ :=
  (table.filter fun row => key row ∈ chunk.map fun entry => key entry.1).foldl (fun found row => found.set (key row) row) Dict.empty

/-- One skipped row against what was found under its key. -/
def compareRow (existing : Option ρ) (conflicts : List Nat) (entry : ρ × Nat) : Except Unreadable (List Nat) :=
  match existing with
  | none => .error ⟨⟩
  | some existing => .ok (if read existing ≠ sent entry.1 then conflicts ++ [entry.2] else conflicts)

/-- The positions of a chunk whose stored row differs, after those found before. -/
def compareRows (table : List ρ) (conflicts : List Nat) (chunk : List (ρ × Nat)) : Except Unreadable (List Nat) :=
  let found := selectRows key table chunk
  chunk.foldlM (fun conflicts entry => compareRow sent read (found.get? (key entry.1)) conflicts entry) conflicts

/-- `_store_kind`, in statements. -/
def storeKindInChunks (table rows : List ρ) : Except Unreadable (KindResult ρ) :=
  let scan := scanRows key sent rows
  if scan.conflicts ≠ [] then .ok ⟨table, 0, scan.conflicts⟩
  else
    let inserted := (slices scan.unique insertChunk).foldl (insertRows key) (table, [])
    let skipped := scan.unique.filter fun entry => key entry.1 ∉ inserted.2
    ((slices skipped insertChunk).foldlM (compareRows key sent read inserted.1) []).map fun conflicts =>
      ⟨inserted.1, inserted.2.length, conflicts⟩

variable {key sent read}

theorem foldl_insertRows (chunks : List (List (ρ × Nat))) (state : List ρ × List κ) :
    chunks.foldl (insertRows key) state = (chunks.flatten.map Prod.fst).foldl (insertReturning key) state := by
  induction chunks generalizing state with
  | nil => rfl
  | cons chunk chunks ih => rw [List.foldl_cons, ih, List.flatten_cons, List.map_append, List.foldl_append, insertRows]

/-- Rows of one key each, collected by key: each key has its row. -/
theorem get?_collect {rows : List ρ} (hdistinct : (rows.map key).Nodup) (found : Dict κ ρ) (k : κ) :
    (rows.foldl (fun found row => found.set (key row) row) found).get? k = (stored key rows k).or (found.get? k) := by
  induction rows generalizing found with
  | nil => rw [List.foldl_nil, stored, List.find?_nil, Option.none_or]
  | cons row rows ih =>
      rw [List.map_cons, List.nodup_cons] at hdistinct
      rw [List.foldl_cons, ih hdistinct.2, Dict.get?_set, stored_cons]
      by_cases hkey : key row = k
      · have hnone : stored key rows k = none := by
          rw [stored_eq_none_iff]
          intro other hother heq
          exact hdistinct.1 (hkey.trans heq.symm ▸ List.mem_map_of_mem hother)
        rw [if_pos hkey.symm, if_pos hkey, hnone, Option.none_or, Option.some_or]
      · rw [if_neg fun h => hkey h.symm, if_neg hkey]

/-- What a `SELECT` finds for a key of its chunk is the stored row. -/
theorem get?_selectRows {table : List ρ} (hdistinct : (table.map key).Nodup) {chunk : List (ρ × Nat)} {entry : ρ × Nat}
    (hentry : entry ∈ chunk) : (selectRows key table chunk).get? (key entry.1) = stored key table (key entry.1) := by
  rw [selectRows, get?_collect (hdistinct.sublist (List.filter_sublist.map _)), Dict.get?_empty, Option.or_none, stored,
    List.find?_filter]
  congr 1
  funext row
  rw [Bool.eq_iff_iff]
  simp only [decide_eq_true_eq]
  constructor
  · intro h
    exact h.2
  · intro hkey
    exact ⟨hkey ▸ List.mem_map_of_mem hentry, hkey⟩

theorem compareRows_eq {table : List ρ} (hdistinct : (table.map key).Nodup) (conflicts : List Nat) (chunk : List (ρ × Nat)) :
    compareRows key sent read table conflicts chunk
      = chunk.foldlM (fun conflicts entry => compareRow sent read (stored key table (key entry.1)) conflicts entry) conflicts := by
  have hpart : ∀ part ⊆ chunk, ∀ conflicts, part.foldlM (fun conflicts entry =>
      compareRow sent read ((selectRows key table chunk).get? (key entry.1)) conflicts entry) conflicts
      = part.foldlM (fun conflicts entry => compareRow sent read (stored key table (key entry.1)) conflicts entry) conflicts := by
    intro part
    induction part with
    | nil => exact fun _ _ => rfl
    | cons entry part ih =>
        intro hsub conflicts
        rw [List.foldlM_cons, List.foldlM_cons, get?_selectRows hdistinct (hsub (List.mem_cons_self ..))]
        congr 1
        funext found
        exact ih (fun _ h => hsub (List.mem_cons_of_mem _ h)) found
  exact hpart chunk (List.Subset.refl _) conflicts

theorem foldlM_compareRows {table : List ρ} (hdistinct : (table.map key).Nodup) (chunks : List (List (ρ × Nat)))
    (conflicts : List Nat) : chunks.foldlM (compareRows key sent read table) conflicts
      = chunks.flatten.foldlM (fun conflicts entry => compareRow sent read (stored key table (key entry.1)) conflicts entry)
        conflicts := by
  induction chunks generalizing conflicts with
  | nil => rfl
  | cons chunk chunks ih =>
      rw [List.foldlM_cons, List.flatten_cons, List.foldlM_append, compareRows_eq hdistinct]
      congr 1
      funext found
      exact ih found

theorem nodup_insertAll {table rows : List ρ} (hdistinct : (table.map key).Nodup) :
    ((insertAll key table rows).map key).Nodup := by
  induction rows generalizing table with
  | nil => exact hdistinct
  | cons row rows ih =>
      apply ih
      rw [insertNew]
      split
      · exact hdistinct
      · next hnew =>
        rw [List.map_append, List.nodup_append]
        refine ⟨hdistinct, List.nodup_singleton _, ?_⟩
        intro k hk other hother heq
        rw [List.map_singleton, List.mem_singleton] at hother
        obtain ⟨first, hfirst, hkey⟩ := List.mem_map.1 hk
        exact hnew (stored_isSome_iff.2 ⟨first, hfirst, hkey.trans (heq.trans hother)⟩)

/-- Storing a list in statements is storing it in one pass. -/
theorem storeKindInChunks_eq (hsame : ∀ row, sent row = read row) {table : List ρ} (hdistinct : (table.map key).Nodup)
    (rows : List ρ) : storeKindInChunks key sent read table rows = storeKind key sent table rows := by
  have hread : read = sent := funext fun row => (hsame row).symm
  rw [storeKindInChunks, storeKind]
  by_cases hconflicts : (scanRows key sent rows).conflicts ≠ []
  · rw [if_pos hconflicts, if_pos hconflicts]
  · rw [if_neg hconflicts, if_neg hconflicts]
    dsimp only
    rw [foldl_insertRows, flatten_slices _ (by decide)]
    have hgrown : (((scanRows key sent rows).unique.map Prod.fst).foldl (insertReturning key) (table, [])).1
        = insertAll key table ((scanRows key sent rows).unique.map Prod.fst) := by
      have hspec : ScanSpec key sent rows (scanRows key sent rows) := scanRows_spec rows
      rw [foldl_insertReturning]
      rw [List.map_map]
      exact hspec.distinct
    rw [foldlM_compareRows (by rw [hgrown]; exact nodup_insertAll hdistinct), flatten_slices _ (by decide), hread]
    rfl

/-! ### What one list adds, and when it is refused -/

variable (key) in
/-- The rows a list adds to a table: the first row of every key that the table does not have. -/
def newRows (table rows : List ρ) : List ρ :=
  (rows.zipIdx.filter fun entry => isFirst key rows entry && (stored key table (key entry.1)).isNone).map Prod.fst

theorem newRows_append_singleton (table rows : List ρ) (row : ρ) : newRows key table (rows ++ [row])
    = newRows key table rows
      ++ if (stored key rows (key row)).isNone ∧ (stored key table (key row)).isNone then [row] else [] := by
  have hfirst : ∀ entry ∈ rows.zipIdx, (isFirst key (rows ++ [row]) entry && (stored key table (key entry.1)).isNone)
      = (isFirst key rows entry && (stored key table (key entry.1)).isNone) := by
    intro entry hentry
    have hlt := List.snd_lt_of_mem_zipIdx hentry
    rw [Nat.add_zero] at hlt
    rw [isFirst, isFirst, List.take_append_of_le_length (Nat.le_of_lt hlt)]
  have hlast : isFirst key (rows ++ [row]) (row, rows.length) = (stored key rows (key row)).isNone := by
    rw [isFirst, List.take_left, Bool.eq_iff_iff, decide_eq_true_eq, Option.isNone_iff_eq_none, stored_eq_none_iff]
    simp
  rw [newRows, zipIdx_append_singleton, List.filter_append, List.filter_congr hfirst, List.map_append, newRows,
    List.filter_singleton, hlast]
  congr 1
  by_cases hnew : (stored key rows (key row)).isNone ∧ (stored key table (key row)).isNone
  · rw [if_pos hnew, hnew.1, hnew.2]
    rfl
  · rw [if_neg hnew, Bool.eq_false_iff.2 fun h => hnew (Bool.and_eq_true_iff.1 h)]
    rfl

/-- A table after a list is the table and the rows the list adds. -/
theorem insertAll_eq_append_newRows (table rows : List ρ) : insertAll key table rows = table ++ newRows key table rows := by
  induction rows using List.reverseRecOn with
  | nil => exact (List.append_nil table).symm
  | append_singleton rows row ih =>
      have hstep : insertAll key table (rows ++ [row]) = insertNew key (insertAll key table rows) row := by
        rw [insertAll_append]
        rfl
      rw [hstep, insertNew, stored_insertAll, newRows_append_singleton, ih, ← List.append_assoc]
      cases stored key table (key row) with
      | some first => simp
      | none =>
          cases stored key rows (key row) with
          | some first => simp
          | none => simp

theorem freshCount_eq (table rows : List ρ) : freshCount key table rows = (newRows key table rows).length := by
  rw [freshCount, newRows, List.length_map]

/-- A second pass over the same rows adds none. -/
theorem newRows_insertAll (table rows : List ρ) : newRows key (insertAll key table rows) rows = [] := by
  rw [newRows, List.map_eq_nil_iff, List.filter_eq_nil_iff]
  intro entry hentry
  have hmem : entry.1 ∈ rows := List.fst_mem_of_mem_zipIdx hentry
  have hsome : (stored key rows (key entry.1)).isSome := stored_isSome_of_mem hmem
  obtain ⟨first, hfirst⟩ := Option.isSome_iff_exists.1 hsome
  rw [stored_insertAll, hfirst]
  cases stored key table (key entry.1) <;> simp

variable (key) (content : ρ → γ) in
/-- The positions a list is refused for. -/
def refusedPositions (table rows : List ρ) : List Nat :=
  if requestConflicts key content rows ≠ [] then requestConflicts key content rows else tableConflicts key content table rows

variable {content : ρ → γ}

theorem pairwise_positions (rows : List ρ) (p : ρ × Nat → Bool) : ((rows.zipIdx.filter p).map Prod.snd).Pairwise (· ≤ ·) := by
  have hall : (rows.zipIdx.map Prod.snd).Pairwise (· ≤ ·) := by
    rw [List.zipIdx_map_snd]
    exact List.pairwise_le_range'
  exact hall.sublist (List.filter_sublist.map _)

theorem pairwise_refusedPositions (table rows : List ρ) : (refusedPositions key content table rows).Pairwise (· ≤ ·) := by
  rw [refusedPositions]
  split <;> exact pairwise_positions _ _

theorem requestConflicts_eq_nil_iff {rows : List ρ} :
    requestConflicts key content rows = [] ↔ ∀ row ∈ rows, disagrees key content rows row = false := by
  rw [requestConflicts, List.map_eq_nil_iff, List.filter_eq_nil_iff]
  constructor
  · intro h row hrow
    obtain ⟨i, hi, hget⟩ := List.getElem_of_mem hrow
    have hentry : (row, i) ∈ rows.zipIdx := List.mem_zipIdx_iff_getElem?.2 (by rw [← hget]; exact List.getElem?_eq_getElem hi)
    exact Bool.not_eq_true _ ▸ h (row, i) hentry
  · intro h entry hentry
    rw [h entry.1 (List.fst_mem_of_mem_zipIdx hentry)]
    exact Bool.false_ne_true

theorem exists_isFirst {rows : List ρ} {first : ρ} {k : κ} (h : stored key rows k = some first) :
    ∃ position, (first, position) ∈ rows.zipIdx ∧ isFirst key rows (first, position) = true := by
  obtain ⟨hkey, before, after, rfl, hbefore⟩ := List.find?_eq_some_iff_append.1 h
  refine ⟨before.length, List.mem_zipIdx_iff_getElem?.2 (by simp), ?_⟩
  rw [isFirst, List.take_left, decide_eq_true_eq]
  intro hmem
  obtain ⟨other, hother, hsame⟩ := List.mem_map.1 hmem
  have hfirst := key_of_stored h
  simpa [hsame, hfirst] using hbefore other hother

/-- A list is refused exactly when one of its rows differs from the stored row of its key, or from the first row
of its key in the list. -/
theorem refusedPositions_ne_nil_iff {table rows : List ρ} : refusedPositions key content table rows ≠ [] ↔
    ∃ row ∈ rows, disagrees key content table row = true ∨ disagrees key content rows row = true := by
  rw [refusedPositions]
  by_cases hrequest : requestConflicts key content rows = []
  · rw [if_neg (not_not.2 hrequest)]
    have hagree := requestConflicts_eq_nil_iff.1 hrequest
    constructor
    · intro hne
      obtain ⟨position, hposition⟩ := List.exists_mem_of_ne_nil _ hne
      obtain ⟨entry, hentry, -⟩ := List.mem_map.1 hposition
      obtain ⟨hmem, hdiffers⟩ := List.mem_filter.1 hentry
      rw [Bool.and_eq_true] at hdiffers
      exact ⟨entry.1, List.fst_mem_of_mem_zipIdx hmem, Or.inl hdiffers.2⟩
    · rintro ⟨row, hrow, hdiffers⟩
      have htable : disagrees key content table row = true := by
        rcases hdiffers with htable | hrows
        · exact htable
        · rw [hagree row hrow] at hrows
          cases hrows
      have hsome : (stored key rows (key row)).isSome := stored_isSome_of_mem hrow
      obtain ⟨first, hfirst⟩ := Option.isSome_iff_exists.1 hsome
      obtain ⟨position, hmem, hisFirst⟩ := exists_isFirst hfirst
      have hcontent : content first = content row := by
        by_contra hne
        have hdisagrees := disagrees_iff.2 ⟨first, hfirst, hne⟩
        rw [hagree row hrow] at hdisagrees
        cases hdisagrees
      have hsame : disagrees key content table first = disagrees key content table row := by
        rw [disagrees, disagrees, key_of_stored hfirst, hcontent]
      have hposition : position ∈ tableConflicts key content table rows :=
        List.mem_map.2 ⟨(first, position), List.mem_filter.2 ⟨hmem, by rw [hisFirst, hsame, htable]; rfl⟩, rfl⟩
      exact List.ne_nil_of_mem hposition
  · rw [if_pos hrequest]
    refine ⟨fun _ => ?_, fun _ => hrequest⟩
    by_contra hnone
    refine hrequest (requestConflicts_eq_nil_iff.2 fun row hrow => ?_)
    rw [Bool.eq_false_iff]
    exact fun hdiffers => hnone ⟨row, hrow, Or.inr hdiffers⟩

end Chunks

/-! ### One list of a request -/

instance decidableEqHoldColumns : DecidableEq (Text × Option Text × Option Bool × Option Bool × Option Bool) :=
  @instDecidableEqProd Text (Option Text × Option Bool × Option Bool × Option Bool) _ _

instance decidableEqAcsItemColumns :
    DecidableEq (Instant × Text × Text × Option Text × Option Bool × Option Bool × Option Bool) :=
  @instDecidableEqProd Instant _ _ (@instDecidableEqProd Text _ _ decidableEqHoldColumns)

section Lists

variable {ρ γ : Type} [DecidableEq γ] (kind : RowKind ρ γ)

/-- The unique index of a table: tenant, key and event key. -/
def scopedKey (stored : ScopedRow ρ) : Tenant × Text := (stored.tenant, kind.eventKey stored.row)

/-- The compared columns of a stored row. -/
def scopedContent (stored : ScopedRow ρ) : γ := kind.typed stored.row

/-- `_store_kind` for the rows of one list. -/
def storeList (tenant : Tenant) (table : List (ScopedRow ρ)) (rows : List ρ) : Except Unreadable (KindResult (ScopedRow ρ)) :=
  storeKindInChunks (scopedKey kind) (fun stored => kind.sentContent stored.row) (fun stored => kind.storedContent stored.row)
    table (rows.map (ScopedRow.mk tenant))

variable {kind}

theorem disagrees_sent (hfaithful : kind.Faithful) (table : List (ScopedRow ρ)) (row : ScopedRow ρ) :
    disagrees (scopedKey kind) (fun stored => kind.sentContent stored.row) table row
      = disagrees (scopedKey kind) (scopedContent kind) table row := by
  rw [disagrees, disagrees]
  congr 1
  funext first
  rw [hfaithful.same, hfaithful.same, scopedContent, scopedContent]
  exact decide_eq_decide.2 (not_congr (hfaithful.exact _ _))

theorem refusedPositions_sent (hfaithful : kind.Faithful) (table rows : List (ScopedRow ρ)) :
    refusedPositions (scopedKey kind) (fun stored => kind.sentContent stored.row) table rows
      = refusedPositions (scopedKey kind) (scopedContent kind) table rows := by
  rw [refusedPositions, refusedPositions, requestConflicts, requestConflicts, tableConflicts, tableConflicts]
  simp only [disagrees_sent hfaithful]

/-- One list: refused at its differing positions, or stored with the rows it adds. -/
theorem storeList_eq (hfaithful : kind.Faithful) (tenant : Tenant) {table : List (ScopedRow ρ)}
    (hunique : (table.map (scopedKey kind)).Nodup) (rows : List ρ) : ∃ result, storeList kind tenant table rows = .ok result
      ∧ result.conflicts = refusedPositions (scopedKey kind) (scopedContent kind) table (rows.map (ScopedRow.mk tenant))
      ∧ (result.conflicts = [] → result.table = table ++ newRows (scopedKey kind) table (rows.map (ScopedRow.mk tenant))
        ∧ result.inserted = (newRows (scopedKey kind) table (rows.map (ScopedRow.mk tenant))).length) := by
  have hsame : ∀ row : ScopedRow ρ, kind.sentContent row.row = kind.storedContent row.row := fun row => hfaithful.same row.row
  rw [storeList, storeKindInChunks_eq hsame hunique, storeKind_eq]
  refine ⟨_, rfl, ?_, ?_⟩
  · rw [← refusedPositions_sent hfaithful, refusedPositions]
    split <;> rfl
  · split
    · next hrequest => exact fun hnone => absurd hnone hrequest
    · exact fun _ => ⟨insertAll_eq_append_newRows _ _, freshCount_eq _ _⟩

end Lists

/-! ### The request -/

structure EventTables where
  checkins : List (ScopedRow CheckinEventRow)
  rejects : List (ScopedRow RejectEventRow)
  acsItems : List (ScopedRow AcsItemEventRow)

/-- At most one row for each tenant, key and event key, as the unique indexes have it. -/
structure EventTables.Unique (tables : EventTables) : Prop where
  checkins : (tables.checkins.map (scopedKey checkinKind)).Nodup
  rejects : (tables.rejects.map (scopedKey rejectKind)).Nodup
  acsItems : (tables.acsItems.map (scopedKey acsItemKind)).Nodup

/-- The three lists of a request. -/
structure EventLists where
  checkins : List CheckinEvent
  rejects : List RejectEvent
  acsItems : List AcsItemEvent

/-- The counts of one list. -/
structure KindCounts where
  received : Nat
  inserted : Nat
  duplicates : Nat
  deriving DecidableEq

def KindCounts.of (received inserted : Nat) : KindCounts := ⟨received, inserted, received - inserted⟩

structure StoreCounts where
  checkins : KindCounts
  rejects : KindCounts
  acsItems : KindCounts
  deriving DecidableEq

/-- The positions an `EventConflict` reports for each list; a list without any is left out of the answer. -/
structure ConflictPositions where
  checkins : List Nat
  rejects : List Nat
  acsItems : List Nat
  deriving DecidableEq

inductive StoreError where
  | eventConflict (conflicts : ConflictPositions)
  | unreadable

/-- `sorted(conflicts)[:_MAX_REPORTED_CONFLICTS]`. -/
def reported (conflicts : List Nat) : List Nat := (conflicts.mergeSort fun a b => decide (a ≤ b)).take maxReportedConflicts

theorem reported_eq {conflicts : List Nat} (hsorted : conflicts.Pairwise (· ≤ ·)) :
    reported conflicts = conflicts.take maxReportedConflicts := by
  rw [reported, List.mergeSort_of_pairwise]
  exact hsorted.imp decide_eq_true

/-- `store_events`: the tables as the transaction has them at its end, and the response counts. -/
def storeEvents (tables : EventTables) (tenant : Tenant) (lists : EventLists) : Except StoreError (EventTables × StoreCounts) := do
  let checkins ← (storeList checkinKind tenant tables.checkins (lists.checkins.map checkinRow)).mapError fun _ => .unreadable
  let rejects ← (storeList rejectKind tenant tables.rejects (lists.rejects.map rejectRow)).mapError fun _ => .unreadable
  let acsItems ← (storeList acsItemKind tenant tables.acsItems (lists.acsItems.map acsItemRow)).mapError fun _ => .unreadable
  if checkins.conflicts ≠ [] ∨ rejects.conflicts ≠ [] ∨ acsItems.conflicts ≠ [] then
    throw (.eventConflict ⟨reported checkins.conflicts, reported rejects.conflicts, reported acsItems.conflicts⟩)
  return (⟨checkins.table, rejects.table, acsItems.table⟩,
    ⟨.of lists.checkins.length checkins.inserted, .of lists.rejects.length rejects.inserted,
      .of lists.acsItems.length acsItems.inserted⟩)

/-- The transaction around `store_events`: an exception rolls the tables back. -/
def uploadEvents (tables : EventTables) (tenant : Tenant) (lists : EventLists) : EventTables × Except StoreError StoreCounts :=
  match storeEvents tables tenant lists with
  | .ok (after, counts) => (after, .ok counts)
  | .error error => (tables, .error error)

/-! ### What a request does -/

namespace EventLists

variable (lists : EventLists) (tenant : Tenant)

def checkinRows : List (ScopedRow CheckinEventRow) := (lists.checkins.map checkinRow).map (ScopedRow.mk tenant)

def rejectRows : List (ScopedRow RejectEventRow) := (lists.rejects.map rejectRow).map (ScopedRow.mk tenant)

def acsItemRows : List (ScopedRow AcsItemEventRow) := (lists.acsItems.map acsItemRow).map (ScopedRow.mk tenant)

/-- A row differs from the row stored under its key, or from the first row of its list with its key. -/
def Differs {ρ γ : Type} [DecidableEq γ] (kind : RowKind ρ γ) (table rows : List (ScopedRow ρ)) : Prop :=
  ∃ row ∈ rows, disagrees (scopedKey kind) (scopedContent kind) table row = true
    ∨ disagrees (scopedKey kind) (scopedContent kind) rows row = true

instance {ρ γ : Type} [DecidableEq γ] (kind : RowKind ρ γ) (table rows : List (ScopedRow ρ)) :
    Decidable (Differs kind table rows) := inferInstanceAs (Decidable (∃ row ∈ rows, _))

/-- Some event of the request differs. -/
def Conflicting (tables : EventTables) : Prop :=
  Differs checkinKind tables.checkins (lists.checkinRows tenant) ∨ Differs rejectKind tables.rejects (lists.rejectRows tenant)
    ∨ Differs acsItemKind tables.acsItems (lists.acsItemRows tenant)

instance (tables : EventTables) : Decidable (lists.Conflicting tenant tables) := inferInstanceAs (Decidable (_ ∨ _))

/-- What an `EventConflict` reports: the first positions at which each list is refused. -/
def refused (tables : EventTables) : ConflictPositions where
  checkins := (refusedPositions (scopedKey checkinKind) (scopedContent checkinKind) tables.checkins
    (lists.checkinRows tenant)).take maxReportedConflicts
  rejects := (refusedPositions (scopedKey rejectKind) (scopedContent rejectKind) tables.rejects
    (lists.rejectRows tenant)).take maxReportedConflicts
  acsItems := (refusedPositions (scopedKey acsItemKind) (scopedContent acsItemKind) tables.acsItems
    (lists.acsItemRows tenant)).take maxReportedConflicts

/-- The tables with the first row of every key they do not have. -/
def added (tables : EventTables) : EventTables where
  checkins := tables.checkins ++ newRows (scopedKey checkinKind) tables.checkins (lists.checkinRows tenant)
  rejects := tables.rejects ++ newRows (scopedKey rejectKind) tables.rejects (lists.rejectRows tenant)
  acsItems := tables.acsItems ++ newRows (scopedKey acsItemKind) tables.acsItems (lists.acsItemRows tenant)

/-- How many events each list has, and how many of them were added. -/
def counts (tables : EventTables) : StoreCounts where
  checkins := .of lists.checkins.length (newRows (scopedKey checkinKind) tables.checkins (lists.checkinRows tenant)).length
  rejects := .of lists.rejects.length (newRows (scopedKey rejectKind) tables.rejects (lists.rejectRows tenant)).length
  acsItems := .of lists.acsItems.length (newRows (scopedKey acsItemKind) tables.acsItems (lists.acsItemRows tenant)).length

/-- The answer when every event of the request was there before. -/
def allDuplicates : StoreCounts :=
  ⟨.of lists.checkins.length 0, .of lists.rejects.length 0, .of lists.acsItems.length 0⟩

end EventLists

variable {tables : EventTables} (tenant : Tenant) (lists : EventLists)

/-- A request alone: it is refused when an event differs, and otherwise adds its new rows. -/
theorem uploadEvents_eq (hunique : tables.Unique) :
    (lists.Conflicting tenant tables →
        uploadEvents tables tenant lists = (tables, .error (.eventConflict (lists.refused tenant tables))))
      ∧ (¬ lists.Conflicting tenant tables →
        uploadEvents tables tenant lists = (lists.added tenant tables, .ok (lists.counts tenant tables))) := by
  obtain ⟨checkins, hcheckins, hcheckinConflicts, hcheckinRows⟩ :=
    storeList_eq checkinKind_faithful tenant hunique.checkins (lists.checkins.map checkinRow)
  obtain ⟨rejects, hrejects, hrejectConflicts, hrejectRows⟩ :=
    storeList_eq rejectKind_faithful tenant hunique.rejects (lists.rejects.map rejectRow)
  obtain ⟨acsItems, hacsItems, hacsItemConflicts, hacsItemRows⟩ :=
    storeList_eq acsItemKind_faithful tenant hunique.acsItems (lists.acsItems.map acsItemRow)
  have hconflicting : (checkins.conflicts ≠ [] ∨ rejects.conflicts ≠ [] ∨ acsItems.conflicts ≠ [])
      ↔ lists.Conflicting tenant tables := by
    rw [hcheckinConflicts, hrejectConflicts, hacsItemConflicts, refusedPositions_ne_nil_iff, refusedPositions_ne_nil_iff,
      refusedPositions_ne_nil_iff]
    rfl
  have hstore : storeEvents tables tenant lists =
      if checkins.conflicts ≠ [] ∨ rejects.conflicts ≠ [] ∨ acsItems.conflicts ≠ [] then
        .error (.eventConflict ⟨reported checkins.conflicts, reported rejects.conflicts, reported acsItems.conflicts⟩)
      else .ok (⟨checkins.table, rejects.table, acsItems.table⟩,
        ⟨.of lists.checkins.length checkins.inserted, .of lists.rejects.length rejects.inserted,
          .of lists.acsItems.length acsItems.inserted⟩) := by
    rw [storeEvents, hcheckins, hrejects, hacsItems]
    by_cases h : checkins.conflicts ≠ [] ∨ rejects.conflicts ≠ [] ∨ acsItems.conflicts ≠ []
    · rw [if_pos h]
      exact if_pos h
    · rw [if_neg h]
      exact if_neg h
  rw [uploadEvents, hstore]
  constructor
  · intro h
    rw [if_pos (hconflicting.2 h), hcheckinConflicts, hrejectConflicts, hacsItemConflicts,
      reported_eq (pairwise_refusedPositions _ _), reported_eq (pairwise_refusedPositions _ _),
      reported_eq (pairwise_refusedPositions _ _)]
    rfl
  · intro h
    have hnone : ¬ (checkins.conflicts ≠ [] ∨ rejects.conflicts ≠ [] ∨ acsItems.conflicts ≠ []) := fun hany => h (hconflicting.1 hany)
    rw [if_neg hnone]
    simp only [not_or, not_not] at hnone
    obtain ⟨hcheckinTable, hcheckinCount⟩ := hcheckinRows hnone.1
    obtain ⟨hrejectTable, hrejectCount⟩ := hrejectRows hnone.2.1
    obtain ⟨hacsItemTable, hacsItemCount⟩ := hacsItemRows hnone.2.2
    rw [hcheckinTable, hcheckinCount, hrejectTable, hrejectCount, hacsItemTable, hacsItemCount]
    rfl

/-! ### Sending a request again -/

theorem nodup_append_newRows {ρ γ : Type} {kind : RowKind ρ γ} {table : List (ScopedRow ρ)}
    (hunique : (table.map (scopedKey kind)).Nodup) (rows : List (ScopedRow ρ)) :
    ((table ++ newRows (scopedKey kind) table rows).map (scopedKey kind)).Nodup := by
  rw [← insertAll_eq_append_newRows]
  exact nodup_insertAll hunique

theorem EventTables.Unique.added (hunique : tables.Unique) : (lists.added tenant tables).Unique :=
  ⟨nodup_append_newRows hunique.checkins _, nodup_append_newRows hunique.rejects _, nodup_append_newRows hunique.acsItems _⟩

/-- Rows that do not differ from a table do not differ from it with what they add. -/
theorem not_differs_added {ρ γ : Type} [DecidableEq γ] {kind : RowKind ρ γ} {table rows : List (ScopedRow ρ)}
    (h : ¬ EventLists.Differs kind table rows) :
    ¬ EventLists.Differs kind (table ++ newRows (scopedKey kind) table rows) rows := by
  rintro ⟨row, hrow, hdiffers⟩
  refine h ⟨row, hrow, ?_⟩
  rw [← insertAll_eq_append_newRows] at hdiffers
  rcases hdiffers with hgrown | hrows
  · cases hstored : stored (scopedKey kind) table (scopedKey kind row) with
    | some first =>
        left
        rw [← hgrown]
        apply disagrees_congr
        rw [stored_insertAll, hstored, Option.some_or]
    | none =>
        right
        rw [← hgrown]
        apply disagrees_congr
        rw [stored_insertAll, hstored, Option.none_or]
  · exact Or.inr hrows

theorem newRows_added {ρ γ : Type} {kind : RowKind ρ γ} (table rows : List (ScopedRow ρ)) :
    newRows (scopedKey kind) (table ++ newRows (scopedKey kind) table rows) rows = [] := by
  rw [← insertAll_eq_append_newRows]
  exact newRows_insertAll table rows

theorem not_conflicting_added (h : ¬ lists.Conflicting tenant tables) :
    ¬ lists.Conflicting tenant (lists.added tenant tables) := by
  simp only [EventLists.Conflicting, not_or] at h ⊢
  exact ⟨not_differs_added h.1, not_differs_added h.2.1, not_differs_added h.2.2⟩

/-- `store_events` inserts what is absent. A request is refused exactly when one of its events differs from the
row stored under its key or from the first event of its list with its key, and then nothing changes;
otherwise the first event of every new key is added, the counts are those of what was added, and the same
request again adds nothing and is all duplicates. -/
theorem store_events_inserts_if_absent (hunique : tables.Unique) :
    ((∃ conflicts, (uploadEvents tables tenant lists).2 = .error (.eventConflict conflicts)) ↔ lists.Conflicting tenant tables)
      ∧ (lists.Conflicting tenant tables →
        uploadEvents tables tenant lists = (tables, .error (.eventConflict (lists.refused tenant tables))))
      ∧ (¬ lists.Conflicting tenant tables →
        uploadEvents tables tenant lists = (lists.added tenant tables, .ok (lists.counts tenant tables))
        ∧ uploadEvents (lists.added tenant tables) tenant lists = (lists.added tenant tables, .ok lists.allDuplicates)) := by
  obtain ⟨hrefused, hstored⟩ := uploadEvents_eq tenant lists hunique
  refine ⟨⟨?_, ?_⟩, hrefused, ?_⟩
  · rintro ⟨conflicts, herror⟩
    by_contra hnot
    rw [hstored hnot] at herror
    cases herror
  · intro hconflicting
    rw [hrefused hconflicting]
    exact ⟨_, rfl⟩
  · intro hnot
    have hagain := (uploadEvents_eq tenant lists (hunique.added tenant lists)).2 (not_conflicting_added tenant lists hnot)
    have htables : lists.added tenant (lists.added tenant tables) = lists.added tenant tables := by
      rw [EventLists.added, EventLists.added, newRows_added, newRows_added, newRows_added, List.append_nil, List.append_nil,
        List.append_nil]
    have hcounts : lists.counts tenant (lists.added tenant tables) = lists.allDuplicates := by
      rw [EventLists.counts, EventLists.added, newRows_added, newRows_added, newRows_added]
      rfl
    rw [htables, hcounts] at hagain
    exact ⟨hstored hnot, hagain⟩

/-- One check-in in the first second of 2000, sent twice in one request to empty tables. -/
def repeatedCheckin : EventLists where
  checkins := [⟨"k".toList, ⟨63082281600000000, by decide⟩, none, "main".toList, "1".toList⟩,
    ⟨"k".toList, ⟨63082281600000000, by decide⟩, none, "main".toList, "1".toList⟩]
  rejects := []
  acsItems := []

theorem store_events_inserts_if_absent_repeated :
    uploadEvents ⟨[], [], []⟩ ⟨1, 2, "key".toList⟩ repeatedCheckin
      = (⟨[⟨⟨1, 2, "key".toList⟩, ⟨"k".toList, ⟨63082281600000000, by decide⟩, none, "main".toList, "1".toList⟩⟩], [], []⟩,
        .ok ⟨⟨2, 1, 1⟩, ⟨0, 0, 0⟩, ⟨0, 0, 0⟩⟩) := by
  have hunique : EventTables.Unique ⟨[], [], []⟩ := ⟨List.nodup_nil, List.nodup_nil, List.nodup_nil⟩
  exact ((store_events_inserts_if_absent ⟨1, 2, "key".toList⟩ repeatedCheckin hunique).2.2 (by decide)).1

end SortView
