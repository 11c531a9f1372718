import SortView.Lib.Removal
import SortView.Services.IngestRequests

/-!
# Rounds of conflicts

A list that is refused is sent again without the first 50 positions it was refused at. Only the first row of a key is compared
with the stored one, so the copies of a row go one in a round.
-/

namespace SortView

open FirstWriter Removal

section Rounds

variable {ρ κ γ : Type} [DecidableEq κ] [DecidableEq γ] (key : ρ → κ) (content : ρ → γ) (table : List ρ)

/-- The row that a key has in the end: its stored row, or else the first row of the list. -/
def finalRow (rows : List ρ) (k : κ) : Option ρ := (stored key table k).or (stored key rows k)

/-- A row with other content than the final row of its key. -/
def differs (rows : List ρ) (row : ρ) : Bool := (finalRow key table rows (key row)).any fun final => content final ≠ content row

/-- A row that differs from the first row of its key differs from the stored row, if there is one. -/
def FirstDecides (rows : List ρ) : Prop := ∀ row ∈ rows, disagrees key content rows row = true →
  ∀ first, stored key table (key row) = some first → content first ≠ content row

/-- A row with the content of the first row of its key, and not of the stored row, is there `n` times at most. -/
def CopiesAtMost (rows : List ρ) (n : Nat) : Prop := ∀ row ∈ rows, disagrees key content table row = true →
  disagrees key content rows row = false → (rows.countP fun other => key other = key row ∧ content other = content row) ≤ n

/-- The rows that are sent in the next round. -/
def nextRows (rows : List ρ) : List ρ := keptAt rows ((refusedPositions key content table rows).take maxReportedConflicts)

/-- The rows that are taken out before it. -/
def takenRows (rows : List ρ) : List ρ := removedAt rows ((refusedPositions key content table rows).take maxReportedConflicts)

/-- What a list is refused at: its own conflicts, or else those of the first rows with the table. -/
def refusedTest (rows : List ρ) (entry : ρ × Nat) : Bool :=
  if requestConflicts key content rows ≠ [] then disagrees key content rows entry.1
  else isFirst key rows entry && disagrees key content table entry.1

/-- The rows that differ from the first row of their key. -/
def inRequest (rows : List ρ) : Nat := rows.countP (disagrees key content rows)

/-- The other rows that differ from the stored row of their key. -/
def inTable (rows : List ρ) : Nat := rows.countP fun row => !disagrees key content rows row && disagrees key content table row

/-- A bound on the rounds that a list is refused in, when no row is there more than `n` times. -/
def roundsLeft (rows : List ρ) (n : Nat) : Nat := (inRequest key content rows + 49) / 50 + inTable key content table rows / 50 + n

variable {key content table}

variable (key) in
theorem stored_mem {rows : List ρ} {row : ρ} (hrow : row ∈ rows) : ∃ first, stored key rows (key row) = some first :=
  Option.isSome_iff_exists.1 (stored_isSome_of_mem hrow)

/-- The first row of a key agrees with its list. -/
theorem first_agrees {rows : List ρ} {k : κ} {first : ρ} (h : stored key rows k = some first) :
    disagrees key content rows first = false := by
  rw [Bool.eq_false_iff]
  intro hdiffers
  obtain ⟨other, hother, hne⟩ := disagrees_iff.1 hdiffers
  rw [key_of_stored h, h] at hother
  cases hother
  exact hne rfl

theorem content_of_agrees {rows : List ρ} {row first : ρ} (h : disagrees key content rows row = false)
    (hfirst : stored key rows (key row) = some first) : content first = content row := by
  by_contra hne
  rw [Bool.eq_false_iff] at h
  exact h (disagrees_iff.2 ⟨first, hfirst, hne⟩)

theorem refusedPositions_eq (rows : List ρ) :
    refusedPositions key content table rows = positionsOf (refusedTest key content table rows) rows := by
  rw [refusedPositions]
  by_cases h : requestConflicts key content rows ≠ []
  · rw [if_pos h, requestConflicts, positionsOf]
    congr 2
    funext entry
    rw [refusedTest, if_pos h]
  · rw [if_neg h, tableConflicts, positionsOf]
    congr 2
    funext entry
    rw [refusedTest, if_neg h]

variable (key content table) in
theorem nextRows_sublist (rows : List ρ) : (nextRows key content table rows).Sublist rows := keptAt_sublist ..

theorem takenRows_append (rows : List ρ) : (takenRows key content table rows ++ nextRows key content table rows).Perm rows :=
  removedAt_append_keptAt ..

variable (key content table) in
theorem countP_rows (p : ρ → Bool) (rows : List ρ) :
    (takenRows key content table rows).countP p + (nextRows key content table rows).countP p = rows.countP p := by
  rw [← List.countP_append]
  exact (takenRows_append rows).countP_eq p

theorem length_takenRows (rows : List ρ) :
    (takenRows key content table rows).length = min maxReportedConflicts (refusedPositions key content table rows).length := by
  rw [takenRows, refusedPositions_eq]
  exact length_removedAt ..

theorem refused_of_taken {rows : List ρ} {row : ρ} (h : row ∈ takenRows key content table rows) :
    ∃ position, (row, position) ∈ rows.zipIdx ∧ refusedTest key content table rows (row, position) = true := by
  rw [takenRows, refusedPositions_eq] at h
  exact exists_of_mem_removedAt h

/-- The first row of a key stays, unless it is refused. -/
theorem stored_nextRows {rows : List ρ} {k : κ} (hstays : ∀ first position, stored key rows k = some first →
    refusedTest key content table rows (first, position) = false) : stored key (nextRows key content table rows) k = stored key rows k := by
  rw [nextRows, refusedPositions_eq]
  apply find?_keptAt
  intro entry hentry hfirst hdropped
  have htest := (mem_positionsOf_iff hentry).1 (List.mem_of_mem_take hdropped)
  rw [show entry = (entry.1, entry.2) from rfl, hstays entry.1 entry.2 hfirst] at htest
  exact Bool.false_ne_true htest

/-- While a list has conflicts of its own, no first row goes. -/
theorem stored_nextRows_of_request {rows : List ρ} (h : requestConflicts key content rows ≠ []) (k : κ) :
    stored key (nextRows key content table rows) k = stored key rows k := by
  apply stored_nextRows
  intro first position hfirst
  rw [refusedTest, if_pos h]
  exact first_agrees hfirst

/-- Rows that agree with their list agree with each part of it. -/
theorem agrees_of_sublist {rows part : List ρ} (hagree : ∀ row ∈ rows, disagrees key content rows row = false) (hsub : part.Sublist rows)
    {row : ρ} (hrow : row ∈ part) : disagrees key content part row = false := by
  rw [Bool.eq_false_iff]
  intro hdiffers
  obtain ⟨other, hother, hne⟩ := disagrees_iff.1 hdiffers
  obtain ⟨first, hfirst⟩ := stored_mem key (hsub.subset hrow)
  have hmem : other ∈ rows := hsub.subset (mem_of_stored hother)
  have hleft := content_of_agrees (hagree other hmem) (by rw [key_of_stored hother]; exact hfirst)
  have hright := content_of_agrees (hagree row (hsub.subset hrow)) hfirst
  exact hne (hleft.symm.trans hright)

variable (table) in
theorem disagrees_nextRows_of_request {rows : List ρ} (h : requestConflicts key content rows ≠ []) :
    disagrees key content (nextRows key content table rows) = disagrees key content rows := by
  funext row
  exact disagrees_congr (stored_nextRows_of_request h _)

theorem FirstDecides.next {rows : List ρ} (hdecides : FirstDecides key content table rows) :
    FirstDecides key content table (nextRows key content table rows) := by
  intro row hrow hdiffers first hfirst
  by_cases h : requestConflicts key content rows ≠ []
  · rw [disagrees_nextRows_of_request table h] at hdiffers
    exact hdecides row ((nextRows_sublist key content table rows).subset hrow) hdiffers first hfirst
  · have hagree := requestConflicts_eq_nil_iff.1 (not_not.1 h)
    rw [agrees_of_sublist hagree (nextRows_sublist key content table rows) hrow] at hdiffers
    cases hdiffers

/-! ### Each round is one of a bounded number -/

variable (table) in
theorem length_refusedPositions_of_request {rows : List ρ} (h : requestConflicts key content rows ≠ []) :
    (refusedPositions key content table rows).length = inRequest key content rows := by
  have hzip : (rows.zipIdx.map Prod.fst).countP (disagrees key content rows) = rows.countP (disagrees key content rows) := by
    rw [List.zipIdx_map_fst]
  rw [refusedPositions, if_pos h, requestConflicts, List.length_map, inRequest, ← hzip, List.countP_map, ← List.countP_eq_length_filter]
  rfl

theorem CopiesAtMost.of_sublist {rows part : List ρ} {n : Nat} (hcopies : CopiesAtMost key content table rows n)
    (hsub : part.Sublist rows) (hsame : ∀ row ∈ part, disagrees key content part row = false → disagrees key content rows row = false) :
    CopiesAtMost key content table part n := by
  intro row hrow htable hlist
  exact (hsub.countP_le).trans (hcopies row (hsub.subset hrow) htable (hsame row hrow hlist))

/-- A round that takes conflicts of the list itself. -/
theorem roundsLeft_request {rows : List ρ} {n : Nat} (h : requestConflicts key content rows ≠ [])
    (hcopies : CopiesAtMost key content table rows n) :
    CopiesAtMost key content table (nextRows key content table rows) n
      ∧ roundsLeft key content table (nextRows key content table rows) n + 1 ≤ roundsLeft key content table rows n := by
  have hsame := disagrees_nextRows_of_request table h
  have htaken : ∀ row ∈ takenRows key content table rows, disagrees key content rows row = true := by
    intro row hrow
    obtain ⟨position, -, htest⟩ := refused_of_taken hrow
    rwa [refusedTest, if_pos h] at htest
  refine ⟨hcopies.of_sublist (nextRows_sublist key content table rows) fun row _ hagree => by rwa [hsame] at hagree, ?_⟩
  have hrequest := countP_rows key content table (disagrees key content rows) rows
  rw [List.countP_eq_length.2 htaken, length_takenRows, length_refusedPositions_of_request table h] at hrequest
  have htable := countP_rows key content table
    (fun row => !disagrees key content rows row && disagrees key content table row) rows
  rw [List.countP_eq_zero.2 (by
    intro row hrow
    rw [htaken row hrow]
    exact Bool.false_ne_true), Nat.zero_add] at htable
  have hpos : 0 < inRequest key content rows := by
    rw [← length_refusedPositions_of_request table h, refusedPositions, if_pos h]
    exact List.length_pos_iff.2 h
  rw [roundsLeft, roundsLeft, inRequest, inTable, hsame, htable]
  rw [inRequest] at hrequest hpos
  rw [inRequest, inTable]
  have hmax : maxReportedConflicts = 50 := rfl
  omega

/-- A round that takes first rows that differ from the stored ones. -/
theorem roundsLeft_table {rows : List ρ} {n : Nat} (h : requestConflicts key content rows = [])
    (hrefused : refusedPositions key content table rows ≠ []) (hcopies : CopiesAtMost key content table rows n) :
    ∃ n', CopiesAtMost key content table (nextRows key content table rows) n'
      ∧ roundsLeft key content table (nextRows key content table rows) n' + 1 ≤ roundsLeft key content table rows n := by
  have hagree := requestConflicts_eq_nil_iff.1 h
  have hsub := nextRows_sublist key content table rows
  have hnext : ∀ row ∈ nextRows key content table rows, disagrees key content (nextRows key content table rows) row = false :=
    fun row hrow => agrees_of_sublist hagree hsub hrow
  have htest : ∀ entry, refusedTest key content table rows entry = (isFirst key rows entry && disagrees key content table entry.1) :=
    fun entry => by rw [refusedTest, if_neg (not_not.2 h)]
  have hrequest : inRequest key content (nextRows key content table rows) = 0 ∧ inRequest key content rows = 0 :=
    ⟨List.countP_eq_zero.2 fun row hrow => by rw [hnext row hrow]; exact Bool.false_ne_true,
      List.countP_eq_zero.2 fun row hrow => by rw [hagree row hrow]; exact Bool.false_ne_true⟩
  have hrows : inTable key content table rows = rows.countP (disagrees key content table) :=
    List.countP_congr fun row hrow => by rw [hagree row hrow, Bool.not_false, Bool.true_and]
  have hnextRows : inTable key content table (nextRows key content table rows)
      = (nextRows key content table rows).countP (disagrees key content table) :=
    List.countP_congr fun row hrow => by rw [hnext row hrow, Bool.not_false, Bool.true_and]
  have hcount := countP_rows key content table (disagrees key content table) rows
  have htaken : ∀ row ∈ takenRows key content table rows, disagrees key content table row = true := by
    intro row hrow
    obtain ⟨position, -, htest'⟩ := refused_of_taken hrow
    rw [htest] at htest'
    exact (Bool.and_eq_true_iff.1 htest').2
  rw [List.countP_eq_length.2 htaken, length_takenRows, ← hrows, ← hnextRows] at hcount
  have hlength : 0 < (refusedPositions key content table rows).length := List.length_pos_iff.2 hrefused
  have hmax : maxReportedConflicts = 50 := rfl
  by_cases hfull : maxReportedConflicts ≤ (refusedPositions key content table rows).length
  · refine ⟨n, hcopies.of_sublist hsub fun row hrow _ => hagree row (hsub.subset hrow), ?_⟩
    rw [roundsLeft, roundsLeft, hrequest.1, hrequest.2]
    omega
  · have hall : (refusedPositions key content table rows).length ≤ maxReportedConflicts := by omega
    -- every key that differs loses its first row
    have hfewer : ∀ row ∈ rows, disagrees key content table row = true →
        (nextRows key content table rows).countP (fun other => key other = key row ∧ content other = content row) + 1 ≤ n := by
      intro row hrow hdiffers
      obtain ⟨first, hfirst⟩ := stored_mem key hrow
      obtain ⟨position, hentry, hisFirst⟩ := exists_isFirst hfirst
      have hcontent := content_of_agrees (hagree row hrow) hfirst
      have hfirstDiffers : disagrees key content table first = true := by
        rw [disagrees, key_of_stored hfirst, hcontent]
        exact hdiffers
      have hgone : first ∈ takenRows key content table rows := by
        rw [refusedPositions_eq] at hall
        rw [takenRows, refusedPositions_eq]
        exact mem_removedAt hall hentry (by rw [htest, hisFirst, hfirstDiffers]; rfl)
      have hcopies' := hcopies row hrow hdiffers (hagree row hrow)
      rw [← countP_rows key content table] at hcopies'
      have hpos : 0 < (takenRows key content table rows).countP fun other => key other = key row ∧ content other = content row :=
        List.countP_pos_iff.2 ⟨first, hgone, decide_eq_true ⟨key_of_stored hfirst, hcontent⟩⟩
      omega
    have hpos : 1 ≤ n := by
      obtain ⟨position, hposition⟩ := List.exists_mem_of_ne_nil _ hrefused
      rw [refusedPositions_eq] at hposition
      have hlt := lt_of_mem_positionsOf hposition
      have hentry : (rows[position], position) ∈ rows.zipIdx := List.mem_zipIdx_iff_getElem?.2 (List.getElem?_eq_getElem hlt)
      have hpassed := (mem_positionsOf_iff hentry).1 hposition
      rw [htest] at hpassed
      have := hfewer _ (List.getElem_mem hlt) (Bool.and_eq_true_iff.1 hpassed).2
      omega
    refine ⟨n - 1, ?_, ?_⟩
    · intro row hrow hdiffers _
      have := hfewer row (hsub.subset hrow) hdiffers
      omega
    · rw [roundsLeft, roundsLeft, hrequest.1, hrequest.2]
      omega

variable (key content table) in
/-- A list is refused in at most so many rounds. -/
def Within (rows : List ρ) (rounds : Nat) : Prop :=
  refusedPositions key content table rows = [] ∨ ∃ n, CopiesAtMost key content table rows n ∧ roundsLeft key content table rows n ≤ rounds

theorem roundsLeft_next {rows : List ρ} {n : Nat} (hrefused : refusedPositions key content table rows ≠ [])
    (hcopies : CopiesAtMost key content table rows n) : ∃ n', CopiesAtMost key content table (nextRows key content table rows) n'
      ∧ roundsLeft key content table (nextRows key content table rows) n' + 1 ≤ roundsLeft key content table rows n := by
  by_cases h : requestConflicts key content rows = []
  · exact roundsLeft_table h hrefused hcopies
  · exact ⟨n, roundsLeft_request h hcopies⟩

theorem nextRows_of_accepted {rows : List ρ} (h : refusedPositions key content table rows = []) :
    nextRows key content table rows = rows := by
  rw [nextRows, h, List.take_nil, keptAt_nil]

theorem Within.next {rows : List ρ} {rounds : Nat} (h : Within key content table rows (rounds + 1)) :
    Within key content table (nextRows key content table rows) rounds := by
  by_cases hrefused : refusedPositions key content table rows = []
  · left
    rw [nextRows_of_accepted hrefused, hrefused]
  · right
    obtain ⟨n, hcopies, hrounds⟩ := h.resolve_left hrefused
    obtain ⟨n', hcopies', hrounds'⟩ := roundsLeft_next hrefused hcopies
    exact ⟨n', hcopies', by omega⟩

theorem Within.accepted {rows : List ρ} (h : Within key content table rows 0) : refusedPositions key content table rows = [] := by
  by_contra hrefused
  obtain ⟨n, hcopies, hrounds⟩ := h.resolve_left hrefused
  obtain ⟨n', -, hrounds'⟩ := roundsLeft_next hrefused hcopies
  omega

/-- At most 1000 rows, of which none is there more than 39 times, are refused in 59 rounds at most. -/
theorem within_of_copies {rows : List ρ} (hlength : rows.length ≤ 1000) (hcopies : CopiesAtMost key content table rows 39) :
    Within key content table rows 59 := by
  right
  refine ⟨39, hcopies, ?_⟩
  have hsum : inRequest key content rows + inTable key content table rows ≤ rows.length := by
    rw [inRequest, inTable, List.length_eq_countP_add_countP (disagrees key content rows)]
    apply Nat.add_le_add_left
    apply List.countP_mono_left
    intro row _ hrow
    rw [Bool.and_eq_true, Bool.not_eq_true'] at hrow
    rw [hrow.1]
    rfl
  rw [roundsLeft]
  omega

end Rounds

end SortView
