import Mathlib.Data.List.Induction
import SortView.Lib.FirstWriter
import SortView.Services.IngestEvents

/-!
# Storing the events of a request

`_store_kind` and `store_events` of `services/ingest_v2_service.py`. A row carries the tenant scope it is
stored under; its key, as in the unique index of its table, is the scope and the event key. The statements
of 200 rows run one after the other in one transaction, so they are one pass over the rows.
-/

namespace SortView

open PyText Calendar FirstWriter

/-- `_MAX_REPORTED_CONFLICTS`. -/
def maxReportedConflicts : Nat := 50

/-! ### One list -/

section Kind

variable {ρ κ γ : Type} [DecidableEq κ] [DecidableEq γ] (key : ρ → κ) (content : ρ → γ)

/-- The first row of each key with its position, and the positions of rows that differ from theirs. -/
structure UniqueScan (ρ : Type) where
  unique : List (ρ × Nat)
  conflicts : List Nat

def scanRow (scan : UniqueScan ρ) (entry : ρ × Nat) : UniqueScan ρ :=
  match scan.unique.find? fun first => key first.1 = key entry.1 with
  | none => { scan with unique := scan.unique ++ [entry] }
  | some first => if content first.1 ≠ content entry.1 then { scan with conflicts := scan.conflicts ++ [entry.2] } else scan

def scanRows (rows : List ρ) : UniqueScan ρ := rows.zipIdx.foldl (scanRow key content) ⟨[], []⟩

/-- `INSERT ... ON CONFLICT DO NOTHING RETURNING event_key` for one row: the table, and the keys returned. -/
def insertReturning (state : List ρ × List κ) (row : ρ) : List ρ × List κ :=
  if (stored key state.1 (key row)).isSome then state else (state.1 ++ [row], state.2 ++ [key row])

/-- What storing one list came to. -/
structure KindResult (ρ : Type) where
  table : List ρ
  inserted : Nat
  conflicts : List Nat

/-- A row that was skipped as a duplicate but could not be read back: a `RuntimeError`. -/
structure Unreadable where
  deriving DecidableEq

/-- The positions among the skipped rows whose stored row differs. -/
def skippedConflicts (table : List ρ) (skipped : List (ρ × Nat)) : Except Unreadable (List Nat) :=
  skipped.foldlM (fun conflicts entry =>
    match stored key table (key entry.1) with
    | none => .error ⟨⟩
    | some existing => .ok (if content existing ≠ content entry.1 then conflicts ++ [entry.2] else conflicts)) []

/-- `_store_kind`, its statements taken as one pass over the rows. -/
def storeKind (table rows : List ρ) : Except Unreadable (KindResult ρ) :=
  let scan := scanRows key content rows
  if scan.conflicts ≠ [] then .ok ⟨table, 0, scan.conflicts⟩
  else
    let inserted := (scan.unique.map Prod.fst).foldl (insertReturning key) (table, [])
    let skipped := scan.unique.filter fun entry => key entry.1 ∉ inserted.2
    (skippedConflicts key content inserted.1 skipped).map fun conflicts => ⟨inserted.1, inserted.2.length, conflicts⟩

/-! ### What storing one list does -/

/-- No earlier row of the request has the key of this one. -/
def isFirst (rows : List ρ) (entry : ρ × Nat) : Bool := decide (key entry.1 ∉ (rows.take entry.2).map key)

/-- The positions of the rows that differ from the first row of their key in the request. -/
def requestConflicts (rows : List ρ) : List Nat :=
  (rows.zipIdx.filter fun entry => disagrees key content rows entry.1).map Prod.snd

/-- The positions of the first rows whose stored row differs. -/
def tableConflicts (table rows : List ρ) : List Nat :=
  (rows.zipIdx.filter fun entry => isFirst key rows entry && disagrees key content table entry.1).map Prod.snd

/-- The number of keys of a request that a table does not have. -/
def freshCount (table rows : List ρ) : Nat :=
  (rows.zipIdx.filter fun entry => isFirst key rows entry && (stored key table (key entry.1)).isNone).length

variable {key content}

theorem stored_isSome_of_mem {rows : List ρ} {row : ρ} (hmem : row ∈ rows) : (stored key rows (key row)).isSome :=
  stored_isSome_iff.2 ⟨row, hmem, rfl⟩

theorem zipIdx_append_singleton (rows : List ρ) (row : ρ) : (rows ++ [row]).zipIdx = rows.zipIdx ++ [(row, rows.length)] := by
  rw [List.zipIdx_append]
  simp

variable (key content) in
/-- What the scan has after any rows. -/
structure ScanSpec (rows : List ρ) (scan : UniqueScan ρ) : Prop where
  unique : scan.unique = rows.zipIdx.filter (isFirst key rows)
  conflicts : scan.conflicts = requestConflicts key content rows
  found : ∀ k, (scan.unique.find? fun first => key first.1 = k).map Prod.fst = stored key rows k
  distinct : (scan.unique.map fun first => key first.1).Nodup
  inserted : ∀ table, insertAll key table (scan.unique.map Prod.fst) = insertAll key table rows

theorem scanRows_spec (rows : List ρ) : ScanSpec key content rows (scanRows key content rows) := by
  induction rows using List.reverseRecOn with
  | nil => exact ⟨rfl, rfl, fun _ => rfl, List.nodup_nil, fun _ => rfl⟩
  | append_singleton rows row ih =>
      have hfirst : ∀ entry ∈ rows.zipIdx, isFirst key (rows ++ [row]) entry = isFirst key rows entry := by
        intro entry hentry
        have hlt := List.snd_lt_of_mem_zipIdx hentry
        rw [Nat.add_zero] at hlt
        rw [isFirst, isFirst, List.take_append_of_le_length (Nat.le_of_lt hlt)]
      have hsame : ∀ entry ∈ rows.zipIdx,
          disagrees key content (rows ++ [row]) entry.1 = disagrees key content rows entry.1 := by
        intro entry hentry
        apply disagrees_congr
        have hsome : (stored key rows (key entry.1)).isSome := stored_isSome_of_mem (List.fst_mem_of_mem_zipIdx hentry)
        obtain ⟨first, hstored⟩ := Option.isSome_iff_exists.1 hsome
        rw [stored_append, hstored]
        rfl
      have hconflicts : requestConflicts key content (rows ++ [row])
          = requestConflicts key content rows ++ if disagrees key content rows row then [rows.length] else [] := by
        rw [requestConflicts, zipIdx_append_singleton, List.filter_append, List.map_append, requestConflicts,
          List.filter_congr hsame]
        congr 1
        cases hstored : stored key rows (key row) with
        | none =>
            have hself : disagrees key content (rows ++ [row]) row = false := by
              rw [disagrees, stored_append, hstored, Option.none_or, stored_cons, if_pos rfl]
              simp
            have hnone : disagrees key content rows row = false := by
              rw [disagrees, hstored]
              rfl
            rw [List.filter_cons_of_neg (by rw [hself]; exact Bool.false_ne_true), hnone]
            rfl
        | some first =>
            have heq : disagrees key content (rows ++ [row]) row = disagrees key content rows row := by
              apply disagrees_congr
              rw [stored_append, hstored]
              rfl
            cases hrow : disagrees key content rows row with
            | true => rw [List.filter_cons_of_pos (by rw [heq, hrow])]; rfl
            | false => rw [List.filter_cons_of_neg (by rw [heq, hrow]; exact Bool.false_ne_true)]; rfl
      have hscan : scanRows key content (rows ++ [row])
          = scanRow key content (scanRows key content rows) (row, rows.length) := by
        rw [scanRows, zipIdx_append_singleton, List.foldl_append]
        rfl
      rw [hscan, scanRow]
      have hfound := ih.found (key row)
      cases hcase : (scanRows key content rows).unique.find? fun first => key first.1 = key row with
      | none =>
          rw [hcase] at hfound
          have hnew : disagrees key content rows row = false := by
            rw [disagrees, ← hfound]
            rfl
          have hfirstRow : isFirst key (rows ++ [row]) (row, rows.length) = true := by
            rw [isFirst, List.take_left, decide_eq_true_eq]
            intro hmem
            obtain ⟨other, hother, hkey⟩ := List.mem_map.1 hmem
            exact stored_eq_none_iff.1 hfound.symm other hother hkey
          refine ⟨?_, ?_, ?_, ?_, ?_⟩
          · rw [zipIdx_append_singleton, List.filter_append, List.filter_congr hfirst, ih.unique,
              List.filter_cons_of_pos hfirstRow]
            rfl
          · rw [hconflicts, hnew, ih.conflicts]
            exact (List.append_nil _).symm
          · intro k
            rw [List.find?_append, Option.map_or, ih.found, stored_append, stored_cons]
            congr 1
            by_cases hkey : key row = k
            · simp [hkey]
            · simp [hkey, stored]
          · rw [List.map_append, List.nodup_append]
            refine ⟨ih.distinct, List.pairwise_singleton .., ?_⟩
            rintro k hk _ hrow rfl
            obtain ⟨first, hmem, hkey⟩ := List.mem_map.1 hk
            rw [List.map_singleton, List.mem_singleton] at hrow
            exact List.find?_eq_none.1 hcase first hmem (decide_eq_true (hkey.trans hrow))
          · intro table
            rw [List.map_append, insertAll_append, ih.inserted, insertAll_append]
            rfl
      | some first =>
          rw [hcase] at hfound
          have hstored : stored key rows (key row) = some first.1 := hfound.symm
          have hdisagrees : disagrees key content rows row = decide (content first.1 ≠ content row) := by
            rw [disagrees, hstored]
            rfl
          have hnotFirst : isFirst key (rows ++ [row]) (row, rows.length) = false := by
            rw [isFirst, List.take_left, decide_eq_false_iff_not, not_not, List.mem_map]
            exact ⟨first.1, mem_of_stored hstored, key_of_stored hstored⟩
          have hunique : (scanRows key content rows).unique = (rows ++ [row]).zipIdx.filter (isFirst key (rows ++ [row])) := by
            rw [zipIdx_append_singleton, List.filter_append, List.filter_congr hfirst, ih.unique,
              List.filter_cons_of_neg (by rw [hnotFirst]; exact Bool.false_ne_true), List.filter_nil, List.append_nil]
          have hfoundAll : ∀ k, ((scanRows key content rows).unique.find? fun first => key first.1 = k).map Prod.fst
              = stored key (rows ++ [row]) k := by
            intro k
            rw [ih.found, stored_append, stored_cons]
            by_cases hkey : key row = k
            · rw [← hkey, hstored]
              rfl
            · rw [if_neg hkey, stored, stored, List.find?_nil, Option.or_none]
          have hinserted : ∀ table, insertAll key table ((scanRows key content rows).unique.map Prod.fst)
              = insertAll key table (rows ++ [row]) := by
            intro table
            rw [ih.inserted, insertAll_append]
            refine (insertNew_of_stored ?_).symm
            rw [stored_insertAll, hstored]
            cases stored key table (key row) <;> rfl
          by_cases hcontent : content first.1 ≠ content row
          · simp only [if_pos hcontent]
            refine ⟨hunique, ?_, hfoundAll, ih.distinct, hinserted⟩
            rw [hconflicts, hdisagrees, decide_eq_true hcontent, ih.conflicts]
            rfl
          · simp only [if_neg hcontent]
            refine ⟨hunique, ?_, hfoundAll, ih.distinct, hinserted⟩
            rw [hconflicts, hdisagrees, decide_eq_false hcontent, ih.conflicts]
            exact (List.append_nil _).symm

/-- Inserting rows with different keys returns the keys that were not there. -/
theorem foldl_insertReturning {rows : List ρ} (hdistinct : (rows.map key).Nodup) (state : List ρ × List κ) :
    rows.foldl (insertReturning key) state
      = (insertAll key state.1 rows, state.2 ++ (rows.filter fun row => (stored key state.1 (key row)).isNone).map key) := by
  induction rows generalizing state with
  | nil => exact Prod.ext rfl (List.append_nil _).symm
  | cons row rows ih =>
      rw [List.map_cons, List.nodup_cons] at hdistinct
      rw [List.foldl_cons, ih hdistinct.2, insertReturning]
      have hstep : insertAll key state.1 (row :: rows) = insertAll key (insertNew key state.1 row) rows := rfl
      rw [hstep, insertNew]
      by_cases hstored : (stored key state.1 (key row)).isSome = true
      · have hskip : ¬ (stored key state.1 (key row)).isNone = true := by
          rw [Option.isNone_iff_eq_none]
          intro hnone
          rw [hnone] at hstored
          cases hstored
        rw [if_pos hstored, if_pos hstored, List.filter_cons, if_neg hskip]
      · have hfresh : (stored key state.1 (key row)).isNone = true := by
          rw [Option.isNone_iff_eq_none]
          exact Option.not_isSome_iff_eq_none.1 hstored
        have hrest : (rows.filter fun other => (stored key (state.1 ++ [row]) (key other)).isNone)
            = rows.filter fun other => (stored key state.1 (key other)).isNone := by
          apply List.filter_congr
          intro other hother
          have hkey : key row ≠ key other := fun heq => hdistinct.1 (heq ▸ List.mem_map_of_mem hother)
          rw [stored_append, stored_cons, if_neg hkey]
          cases stored key state.1 (key other) <;> rfl
        rw [if_neg hstored, if_neg hstored, List.filter_cons, if_pos hfresh, List.map_cons, hrest, List.append_assoc]
        rfl

theorem skippedConflicts_eq {table : List ρ} {skipped : List (ρ × Nat)}
    (hstored : ∀ entry ∈ skipped, (stored key table (key entry.1)).isSome) :
    skippedConflicts key content table skipped
      = .ok ((skipped.filter fun entry => disagrees key content table entry.1).map Prod.snd) := by
  have hfold : ∀ (entries : List (ρ × Nat)) (conflicts : List Nat),
      (∀ entry ∈ entries, (stored key table (key entry.1)).isSome) →
      entries.foldlM (fun conflicts entry =>
        match stored key table (key entry.1) with
        | none => .error Unreadable.mk
        | some existing => .ok (if content existing ≠ content entry.1 then conflicts ++ [entry.2] else conflicts)) conflicts
        = Except.ok (conflicts ++ (entries.filter fun entry => disagrees key content table entry.1).map Prod.snd) := by
    intro entries
    induction entries with
    | nil =>
        intro conflicts _
        rw [List.filter_nil, List.map_nil, List.append_nil]
        rfl
    | cons entry entries ih =>
        intro conflicts hentries
        obtain ⟨existing, hexisting⟩ := Option.isSome_iff_exists.1 (hentries entry (List.mem_cons_self ..))
        have hrest := fun conflicts => ih conflicts fun other hother => hentries other (List.mem_cons_of_mem _ hother)
        have hdisagrees : disagrees key content table entry.1 = decide (content existing ≠ content entry.1) := by
          rw [disagrees, hexisting]
          rfl
        rw [List.foldlM_cons, hexisting]
        refine (hrest _).trans ?_
        by_cases hcontent : content existing ≠ content entry.1
        · rw [if_pos hcontent, List.filter_cons, if_pos (hdisagrees.trans (decide_eq_true hcontent)), List.map_cons,
            List.append_assoc]
          rfl
        · rw [if_neg hcontent, List.filter_cons, if_neg]
          rw [hdisagrees, decide_eq_false hcontent]
          exact Bool.false_ne_true
  exact (hfold skipped [] hstored).trans (by rw [List.nil_append])

/-- `_store_kind` by what it does: conflicts inside the request come first and store nothing; otherwise the
first row of each new key is stored, and the first rows whose stored row differs are conflicts. -/
theorem storeKind_eq (table rows : List ρ) :
    storeKind key content table rows = .ok (
      if requestConflicts key content rows ≠ [] then ⟨table, 0, requestConflicts key content rows⟩
      else ⟨insertAll key table rows, freshCount key table rows, tableConflicts key content table rows⟩) := by
  have hspec : ScanSpec key content rows (scanRows key content rows) := scanRows_spec rows
  rw [storeKind]
  simp only [hspec.conflicts]
  by_cases hconflicts : requestConflicts key content rows ≠ []
  · rw [if_pos hconflicts, if_pos hconflicts]
  · rw [if_neg hconflicts, if_neg hconflicts]
    have hdistinct : ((scanRows key content rows).unique.map Prod.fst |>.map key).Nodup := by
      rw [List.map_map]
      exact hspec.distinct
    rw [foldl_insertReturning hdistinct]
    simp only [List.nil_append, hspec.inserted]
    have hskip : ∀ entry ∈ (scanRows key content rows).unique,
        decide (key entry.1 ∉ (((scanRows key content rows).unique.map Prod.fst).filter fun row =>
          (stored key table (key row)).isNone).map key) = (stored key table (key entry.1)).isSome := by
      intro entry hentry
      rw [Bool.eq_iff_iff, decide_eq_true_eq, ← Option.not_isNone, Bool.not_eq_true', ← Bool.not_eq_true, not_iff_not]
      constructor
      · intro hmem
        obtain ⟨row, hrow, hkey⟩ := List.mem_map.1 hmem
        rw [← hkey]
        exact (List.mem_filter.1 hrow).2
      · intro hnone
        exact List.mem_map_of_mem (List.mem_filter.2 ⟨List.mem_map_of_mem hentry, hnone⟩)
    have hkept : ∀ k, (stored key table k).isSome → stored key (insertAll key table rows) k = stored key table k := by
      intro k hk
      obtain ⟨first, hfirst⟩ := Option.isSome_iff_exists.1 hk
      rw [stored_insertAll, hfirst]
      rfl
    rw [List.filter_congr hskip, skippedConflicts_eq]
    · have hcount : ((((scanRows key content rows).unique.map Prod.fst).filter fun row =>
          (stored key table (key row)).isNone).map key).length = freshCount key table rows := by
        rw [List.length_map, List.filter_map, List.length_map, hspec.unique, List.filter_filter, freshCount]
        congr 2
        funext entry
        exact Bool.and_comm _ _
      have hconflicting : ((((scanRows key content rows).unique.filter fun entry => (stored key table (key entry.1)).isSome).filter
          fun entry => disagrees key content (insertAll key table rows) entry.1).map Prod.snd) = tableConflicts key content table rows := by
        rw [hspec.unique, List.filter_filter, List.filter_filter, tableConflicts]
        congr 2
        funext entry
        cases hstored : stored key table (key entry.1) with
        | none =>
            have hnone : disagrees key content table entry.1 = false := by
              rw [disagrees, hstored]
              rfl
            simp [hnone]
        | some first =>
            rw [disagrees_congr (hkept _ (by rw [hstored]; rfl))]
            simp [Bool.and_comm]
      rw [hcount, hconflicting]
      rfl
    · intro entry hentry
      have hsome := (List.mem_filter.1 hentry).2
      rw [hkept _ hsome]
      exact hsome

end Kind

end SortView
