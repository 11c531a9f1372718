import SortView.Agent.SpoolNames

/-!
# Pending batches in source order

When the listing of a source gives each batch once, in the order of its generation and offsets as numbers, and
each name can be read back: exactly while no generation outgrows its width out of order, no offset and no clock
reading is negative, and no two writes get one name.
-/

namespace SortView

open PyText Calendar

namespace SpoolNames

variable {ρ : Type}

/-! ### Reading a name back -/

theorem isSpace_of_isDigit {c : Char} (hc : c.isDigit = true) : isSpace c = false := by
  have hdigit := Char.isDigit_iff_toNat.1 hc
  have hzero : '0'.toNat = 48 := rfl
  have hnine : '9'.toNat = 57 := rfl
  rw [← Bool.not_eq_true]
  simp only [isSpace, Bool.or_eq_true, Bool.and_eq_true, decide_eq_true_eq, beq_iff_eq]
  omega

theorem pyInt_digits {text : Text} (hne : text ≠ []) (hdigits : ∀ c ∈ text, c.isDigit = true) :
    pyInt text = some ((Nat.ofDigitChars 10 text 0 : Nat) : Int) := by
  have htrimmed : Trimmed text :=
    ⟨fun c hc => isSpace_of_isDigit (hdigits c (List.mem_of_mem_head? hc)),
      fun c hc => isSpace_of_isDigit (hdigits c (List.mem_of_getLast? hc))⟩
  have hplain : '_' ∉ text := fun hmem => absurd (hdigits '_' hmem) (by decide)
  have hread : intDigits text = some (Nat.ofDigitChars 10 text 0) := by
    have hall : (text ≠ [] && text.all Char.isDigit) = true := by
      rw [Bool.and_eq_true, decide_eq_true_eq]
      exact ⟨hne, List.all_eq_true.2 hdigits⟩
    rw [intDigits, split_of_not_mem hplain, List.all_cons, hall]
    simp
  obtain ⟨first, rest, rfl⟩ := List.exists_cons_of_ne_nil hne
  have hminus : first ≠ '-' := by
    rintro rfl
    exact absurd (hdigits '-' (List.mem_cons_self ..)) (by decide)
  have hplus : first ≠ '+' := by
    rintro rfl
    exact absurd (hdigits '+' (List.mem_cons_self ..)) (by decide)
  rw [pyInt, htrimmed.strip_eq]
  simp only [if_neg hminus, if_neg hplus, hread]
  rfl

theorem padded_ne_nil (width value : Nat) : padded width value ≠ [] := by
  apply List.ne_nil_of_length_pos
  have hpos : 0 < (decimal value).length := List.length_pos_iff.2 Nat.toDigits_ne_nil
  rw [padded, List.length_leftpad]
  exact Nat.lt_of_lt_of_le hpos (Nat.le_max_right _ _)

theorem pyInt_padded (width value : Nat) : pyInt (padded width value) = some (value : Int) := by
  rw [pyInt_digits (padded_ne_nil width value) fun c hc => isDigit_of_mem_padded hc, ofDigitChars_padded]

theorem dash_not_mem_padded (width value : Nat) : '-' ∉ padded width value :=
  fun hmem => absurd (isDigit_of_mem_padded hmem) (by decide)

theorem decimal_eq_padded (value : Nat) : decimal value = padded 0 value := by
  simp [padded, List.leftpad]

/-- What a name holds before its ending. -/
def BatchWrite.stem (write : BatchWrite ρ) : Text :=
  join '-' ["batch".toList, zeroPadded generationWidth write.generation, zeroPadded offsetWidth write.startOffset,
    zeroPadded offsetWidth write.endOffset, signed write.stamp.ns, padded 10 write.stamp.seq, write.stamp.rand]

theorem parseBatchFilename_fileName (created : Int → Option Text) (write : BatchWrite ρ) :
    parseBatchFilename created write.fileName = parseParts created (split '-' write.stem) := by
  have hname : write.fileName = write.stem ++ ndjson := rfl
  rw [parseBatchFilename, hname, if_neg (not_not.2 (List.suffix_append _ _)), List.length_append, Nat.add_sub_cancel,
    List.take_left]

theorem zeroPadded_of_nonneg {width : Nat} {value : Int} (hvalue : 0 ≤ value) : zeroPadded width value = padded width value.natAbs :=
  if_neg (Int.not_lt.2 hvalue)

theorem signed_of_nonneg {value : Int} (hvalue : 0 ≤ value) : signed value = padded 0 value.natAbs := by
  rw [signed, if_neg (Int.not_lt.2 hvalue), decimal_eq_padded]

theorem dash_not_mem_rand (stamp : NameStamp) : '-' ∉ stamp.rand :=
  fun hmem => absurd (List.all_eq_true.1 stamp.hex.2 '-' hmem) (by decide)

/-- The parts of a name without negative numbers. -/
theorem split_stem {write : BatchWrite ρ} (hgeneration : 0 ≤ write.generation) (hstart : 0 ≤ write.startOffset)
    (hend : 0 ≤ write.endOffset) (hns : 0 ≤ write.stamp.ns) :
    split '-' write.stem = ["batch".toList, padded generationWidth write.generation.natAbs, padded offsetWidth write.startOffset.natAbs,
      padded offsetWidth write.endOffset.natAbs, padded 0 write.stamp.ns.natAbs, padded 10 write.stamp.seq, write.stamp.rand] := by
  rw [BatchWrite.stem, zeroPadded_of_nonneg hgeneration, zeroPadded_of_nonneg hstart, zeroPadded_of_nonneg hend, signed_of_nonneg hns]
  apply split_join (List.cons_ne_nil _ _)
  intro part hpart
  simp only [List.mem_cons, List.not_mem_nil, or_false] at hpart
  rcases hpart with rfl | rfl | rfl | rfl | rfl | rfl | rfl
  · decide
  · exact dash_not_mem_padded _ _
  · exact dash_not_mem_padded _ _
  · exact dash_not_mem_padded _ _
  · exact dash_not_mem_padded _ _
  · exact dash_not_mem_padded _ _
  · exact dash_not_mem_rand _

/-- A name without negative numbers is read back. -/
theorem parse_fileName {created : Int → Option Text} {write : BatchWrite ρ} (hgeneration : 0 ≤ write.generation)
    (hstart : 0 ≤ write.startOffset) (hend : 0 ≤ write.endOffset) (hns : 0 ≤ write.stamp.ns) {createdAt : Text}
    (hcreated : created write.stamp.ns = some createdAt) :
    parseBatchFilename created write.fileName = some ⟨write.generation, write.startOffset, write.endOffset, some createdAt⟩ := by
  rw [parseBatchFilename_fileName, split_stem hgeneration hstart hend hns, parseParts]
  simp only [ne_eq, not_true_eq_false, if_false, pyInt_padded, Int.natAbs_of_nonneg hgeneration, Int.natAbs_of_nonneg hstart,
    Int.natAbs_of_nonneg hend, Int.natAbs_of_nonneg hns, Option.bind_some, hcreated]
  rfl

theorem split_sep (rest : Text) : split '-' ('-' :: rest) = [] :: split '-' rest := if_pos rfl

theorem dash_not_mem_batch : '-' ∉ "batch".toList := by decide

/-- A minus sign parts a number of the name from nothing, which is no number. -/
theorem parse_of_negative_offset {created : Int → Option Text} {write : BatchWrite ρ} (hgeneration : 0 ≤ write.generation)
    (hstart : write.startOffset < 0) : parseBatchFilename created write.fileName = none := by
  rw [parseBatchFilename_fileName, BatchWrite.stem, zeroPadded_of_nonneg hgeneration, zeroPadded, if_pos hstart]
  simp only [join, List.cons_append]
  rw [split_append_sep dash_not_mem_batch, split_append_sep (dash_not_mem_padded _ _), split_sep]
  generalize split '-' _ = parts
  rcases parts with _ | ⟨first, _ | ⟨second, rest⟩⟩
  · rfl
  · rfl
  · rw [parseParts, if_neg (not_not.2 rfl), pyInt_padded]
    rfl

theorem parse_of_negative_clock {created : Int → Option Text} {write : BatchWrite ρ} (hgeneration : 0 ≤ write.generation)
    (hstart : 0 ≤ write.startOffset) (hend : 0 ≤ write.endOffset) (hns : write.stamp.ns < 0) :
    parseBatchFilename created write.fileName = none := by
  rw [parseBatchFilename_fileName, BatchWrite.stem, zeroPadded_of_nonneg hgeneration, zeroPadded_of_nonneg hstart,
    zeroPadded_of_nonneg hend, signed, if_pos hns]
  simp only [join, List.cons_append]
  rw [split_append_sep dash_not_mem_batch, split_append_sep (dash_not_mem_padded _ _), split_append_sep (dash_not_mem_padded _ _),
    split_append_sep (dash_not_mem_padded _ _), split_sep, parseParts, if_neg (not_not.2 rfl), pyInt_padded, pyInt_padded, pyInt_padded]
  rfl

/-! ### Names in order -/

/-- The digits of a generation in a name. -/
def genWidth (generation : Nat) : Nat := max generationWidth (decimal generation).length

theorem genWidth_pos (generation : Nat) : 0 < genWidth generation := Nat.lt_of_lt_of_le (by decide) (Nat.le_max_left _ _)

theorem padded_genWidth (generation : Nat) : padded generationWidth generation = padded (genWidth generation) generation := by
  rw [padded, padded, List.leftpad, List.leftpad, genWidth]
  congr 2
  omega

theorem lt_genWidth (generation : Nat) : generation < 10 ^ genWidth generation :=
  (Nat.length_toDigits_le_iff (by decide) (genWidth_pos generation)).1 (Nat.le_max_right _ _)

theorem genWidth_mono {small large : Nat} (h : small < large) : genWidth small ≤ genWidth large := by
  have hsmall := (Nat.length_toDigits_le_iff (by decide) (genWidth_pos large)).2 (h.trans (lt_genWidth large))
  exact Nat.max_le.2 ⟨Nat.le_max_left _ _, hsmall⟩

/-- The first digits of a generation, as many as a smaller one has. -/
def leading (small large : Nat) : Nat := large / 10 ^ (genWidth large - genWidth small)

/-- A longer generation, cut after as many digits as a shorter one has. -/
theorem padded_cut {small large : Nat} (h : genWidth small < genWidth large) :
    ∃ c rest, c.isDigit = true ∧ padded generationWidth large = padded (genWidth small) (leading small large) ++ c :: rest := by
  obtain ⟨back, hback⟩ := Nat.exists_eq_add_of_lt h
  have hlarge := lt_genWidth large
  rw [hback, Nat.add_assoc] at hlarge
  have hwidth : genWidth large - genWidth small = back + 1 := by omega
  cases hrest : padded (back + 1) (large % 10 ^ (back + 1)) with
  | nil => exact absurd hrest (padded_ne_nil _ _)
  | cons c rest =>
      refine ⟨c, rest, isDigit_of_mem_padded (hrest ▸ List.mem_cons_self), ?_⟩
      rw [padded_genWidth, hback, Nat.add_assoc, padded_split (genWidth_pos small) (Nat.succ_pos back) hlarge, leading, hwidth, hrest]

theorem leading_lt {small large : Nat} (h : genWidth small ≤ genWidth large) : leading small large < 10 ^ genWidth small := by
  rw [leading, Nat.div_lt_iff_lt_mul (Nat.pow_pos (by decide)), ← Nat.pow_add, Nat.add_sub_cancel' h]
  exact lt_genWidth large

theorem dash_lt_digit {c : Char} (hc : c.isDigit = true) : '-'.toNat < c.toNat := by
  have hdigit := (Char.isDigit_iff_toNat.1 hc).1
  exact Nat.lt_of_lt_of_le (by decide) hdigit

/-- The names of a smaller and a larger generation are in order when the smaller is at most the first digits of the larger. -/
theorem textLt_of_leading {small large : Nat} (h : small < large) (hleading : small ≤ leading small large) (after later : Text) :
    textLt (padded generationWidth small ++ '-' :: after) (padded generationWidth large ++ '-' :: later) := by
  have hwidth := genWidth_mono h
  rcases Nat.eq_or_lt_of_le hwidth with heq | hlt
  · rw [padded_genWidth small, padded_genWidth large, heq]
    exact textLt_of_padded (genWidth_pos large) (lt_genWidth large) h _ _
  · obtain ⟨c, rest, hc, hcut⟩ := padded_cut hlt
    rw [padded_genWidth small, hcut, List.append_assoc]
    rcases Nat.eq_or_lt_of_le hleading with hsame | hless
    · rw [← hsame]
      exact textLt_append_left _ (textLt_of_char (dash_lt_digit hc) _ _)
    · exact textLt_of_padded (genWidth_pos small) (leading_lt hwidth) hless _ _

/-- They are the other way round when it is more. -/
theorem textLt_of_leading_lt {small large : Nat} (h : small < large) (hleading : leading small large < small) (after later : Text) :
    textLt (padded generationWidth large ++ '-' :: later) (padded generationWidth small ++ '-' :: after) := by
  have hwidth := genWidth_mono h
  rcases Nat.eq_or_lt_of_le hwidth with heq | hlt
  · rw [leading, heq, Nat.sub_self, Nat.pow_zero, Nat.div_one] at hleading
    exact absurd hleading (Nat.lt_asymm h)
  · obtain ⟨c, rest, hc, hcut⟩ := padded_cut hlt
    rw [padded_genWidth small, hcut, List.append_assoc]
    exact textLt_of_padded (genWidth_pos small) (lt_genWidth small) hleading _ _

/-- The order of the sources: an earlier generation, then an earlier start, then an earlier end. -/
def BatchWrite.Before (first second : BatchWrite ρ) : Prop :=
  first.generation < second.generation ∨ first.generation = second.generation
    ∧ (first.startOffset < second.startOffset ∨ first.startOffset = second.startOffset ∧ first.endOffset < second.endOffset)

/-- `(generation, start_offset, end_offset)` is at most the other's. -/
def BatchWrite.NotAfter (first second : BatchWrite ρ) : Prop :=
  first.generation < second.generation ∨ first.generation = second.generation
    ∧ (first.startOffset < second.startOffset ∨ first.startOffset = second.startOffset ∧ first.endOffset ≤ second.endOffset)

theorem BatchWrite.notAfter_of_not_before {first second : BatchWrite ρ} (h : ¬ second.Before first) : first.NotAfter second := by
  rw [BatchWrite.Before] at h
  rw [BatchWrite.NotAfter]
  omega

/-- What `write_batch` checks. -/
structure BatchWrite.Accepted (write : BatchWrite ρ) : Prop where
  generation : 0 ≤ write.generation
  forward : write.startOffset < write.endOffset
  start_le : write.startOffset ≤ maxOffset
  end_le : write.endOffset ≤ maxOffset

theorem writeBatch_ok {dir after : PendingDir ρ} {write : BatchWrite ρ} (h : writeBatch dir write = .ok after) :
    write.Accepted ∧ after = dir.install write.fileName write.records := by
  rw [writeBatch] at h
  split at h
  · cases h
  · split at h
    · cases h
    · split at h
      · cases h
      · split at h
        · cases h
        · cases h
          exact ⟨⟨by omega, by omega, by omega, by omega⟩, rfl⟩

theorem mem_install {dir : PendingDir ρ} {name other : Text} {records : List ρ} :
    other ∈ (dir.install name records).map Prod.fst ↔ other ∈ dir.map Prod.fst ∨ other = name := by
  rw [PendingDir.install, List.map_append, List.mem_append, List.map_singleton, List.mem_singleton]
  by_cases hother : other = name
  · simp [hother]
  · refine or_congr_left ?_
    simp only [List.mem_map, List.mem_filter, decide_eq_true_eq]
    constructor
    · rintro ⟨file, ⟨hfile, -⟩, rfl⟩
      exact ⟨file, hfile, rfl⟩
    · rintro ⟨file, hfile, rfl⟩
      exact ⟨file, ⟨hfile, hother⟩, rfl⟩

/-- A run of writes is accepted write by write, and leaves the names of its writes. -/
theorem foldlM_writeBatch {writes : List (BatchWrite ρ)} {start dir : PendingDir ρ} (h : writes.foldlM writeBatch start = .ok dir) :
    (∀ write ∈ writes, write.Accepted)
      ∧ ∀ name, name ∈ dir.map Prod.fst ↔ name ∈ start.map Prod.fst ∨ ∃ write ∈ writes, write.fileName = name := by
  induction writes generalizing start with
  | nil =>
      cases h
      simp
  | cons write writes ih =>
      rw [List.foldlM_cons] at h
      cases hwrite : writeBatch start write with
      | error problem =>
          rw [hwrite] at h
          cases h
      | ok next =>
          rw [hwrite] at h
          obtain ⟨haccepted, hnext⟩ := writeBatch_ok hwrite
          obtain ⟨hrest, hnames⟩ := ih h
          refine ⟨?_, ?_⟩
          · intro other hother
            rcases List.mem_cons.1 hother with rfl | hother
            · exact haccepted
            · exact hrest other hother
          · intro name
            rw [hnames, hnext, mem_install, or_assoc]
            refine or_congr_right ?_
            simp only [List.mem_cons, exists_eq_or_imp]
            exact or_congr_left eq_comm

theorem isBatchFile_fileName (write : BatchWrite ρ) : isBatchFile write.fileName = true := by
  rw [isBatchFile, decide_eq_true_eq]
  refine ⟨List.suffix_append _ _, ?_⟩
  intro heq
  have hlength := congrArg List.length heq
  have hname : write.fileName = write.stem ++ ndjson := rfl
  rw [hname, List.length_append, BatchWrite.stem, join, List.length_append] at hlength
  have hbatch : "batch".toList.length = 5 := rfl
  omega

/-- The listing after a run of writes is the sorted list of their names. -/
theorem listPendingBatches_writeAll {writes : List (BatchWrite ρ)} {dir : PendingDir ρ} (h : writeAll writes = .ok dir) :
    listPendingBatches dir = sortedNames (writes.map BatchWrite.fileName) := by
  obtain ⟨-, hnames⟩ := foldlM_writeBatch h
  apply sortedNames_congr
  intro name
  rw [List.mem_filter, hnames, List.map_nil]
  constructor
  · rintro ⟨hstart | hwrite, -⟩
    · exact absurd hstart List.not_mem_nil
    · exact List.mem_map.2 hwrite
  · intro hname
    obtain ⟨write, hwrite, rfl⟩ := List.mem_map.1 hname
    exact ⟨Or.inr ⟨write, hwrite, rfl⟩, isBatchFile_fileName write⟩

/-- What follows the generation in a name. -/
def BatchWrite.offsets (write : BatchWrite ρ) : Text :=
  zeroPadded offsetWidth write.startOffset ++ '-' :: (zeroPadded offsetWidth write.endOffset ++ '-' ::
    (join '-' [signed write.stamp.ns, padded 10 write.stamp.seq, write.stamp.rand] ++ ndjson))

theorem BatchWrite.Accepted.fileName_eq {write : BatchWrite ρ} (h : write.Accepted) :
    write.fileName = "batch-".toList ++ (padded generationWidth write.generation.natAbs ++ '-' :: write.offsets) := by
  rw [BatchWrite.fileName, newBatchFilename, zeroPadded_of_nonneg h.generation, BatchWrite.offsets]
  simp [join]

theorem lt_width_of_le_maxOffset {offset : Int} (hnonneg : 0 ≤ offset) (hle : offset ≤ maxOffset) :
    offset.natAbs < 10 ^ offsetWidth := by
  rw [maxOffset, offsetWidth] at hle
  rw [offsetWidth]
  omega

/-- An earlier batch of the source has the earlier name, while the generations stay in order. -/
theorem textLt_of_before {first second : BatchWrite ρ} (hfirst : first.Accepted) (hsecond : second.Accepted)
    (hfirstStart : 0 ≤ first.startOffset) (hsecondStart : 0 ≤ second.startOffset) (h : first.Before second)
    (hgenerations : first.generation < second.generation →
      first.generation.natAbs ≤ leading first.generation.natAbs second.generation.natAbs) :
    textLt first.fileName second.fileName := by
  have hfirstEnd := hfirst.forward
  have hsecondEnd := hsecond.forward
  rw [hfirst.fileName_eq, hsecond.fileName_eq]
  apply textLt_append_left
  rcases h with hgeneration | ⟨hsame, h⟩
  · have hlt : first.generation.natAbs < second.generation.natAbs := Int.natAbs_lt_natAbs_of_nonneg_of_lt hfirst.generation hgeneration
    exact textLt_of_leading hlt (hgenerations hgeneration) _ _
  · rw [hsame]
    apply textLt_append_left
    apply textLt_append_left ['-']
    show textLt first.offsets second.offsets
    rw [BatchWrite.offsets, BatchWrite.offsets, zeroPadded_of_nonneg hfirstStart, zeroPadded_of_nonneg hsecondStart,
      zeroPadded_of_nonneg (hfirstStart.trans hfirstEnd.le), zeroPadded_of_nonneg (hsecondStart.trans hsecondEnd.le)]
    rcases h with hstart | ⟨hstart, hend⟩
    · exact textLt_of_padded (by decide) (lt_width_of_le_maxOffset hsecondStart hsecond.start_le)
        (Int.natAbs_lt_natAbs_of_nonneg_of_lt hfirstStart hstart) _ _
    · rw [hstart]
      apply textLt_append_left
      apply textLt_append_left ['-']
      exact textLt_of_padded (by decide) (lt_width_of_le_maxOffset (hsecondStart.trans hsecondEnd.le) hsecond.end_le)
        (Int.natAbs_lt_natAbs_of_nonneg_of_lt (hfirstStart.trans hfirstEnd.le) hend) _ _

/-! ### The listing -/

/-- The listing gives each batch once, in source order, and each name says the generation and the offsets of its batch. -/
structure ListedInOrder (created : Int → Option Text) (writes : List (BatchWrite ρ)) (dir : PendingDir ρ) : Prop where
  listed : ∃ order : List (BatchWrite ρ), order.Perm writes ∧ listPendingBatches dir = order.map BatchWrite.fileName
    ∧ order.Pairwise BatchWrite.NotAfter
  parsed : ∀ write ∈ writes, ∃ metadata, parseBatchFilename created write.fileName = some metadata
    ∧ metadata.generation = write.generation ∧ metadata.startOffset = write.startOffset ∧ metadata.endOffset = write.endOffset

/-- What a name is made of. -/
def BatchWrite.nameParts (write : BatchWrite ρ) : Int × Int × Int × Int × Nat × Text :=
  (write.generation, write.startOffset, write.endOffset, write.stamp.ns, write.stamp.seq, write.stamp.rand)

/-- No two writes agree in all that their names are made of, no offset or clock reading is negative, and a smaller
generation is at most the first digits of a larger one. -/
structure NamesInOrder (writes : List (BatchWrite ρ)) : Prop where
  distinct : (writes.map BatchWrite.nameParts).Nodup
  nonneg : ∀ write ∈ writes, 0 ≤ write.startOffset ∧ 0 ≤ write.stamp.ns
  generations : ∀ first ∈ writes, ∀ second ∈ writes, first.generation < second.generation →
    first.generation.natAbs ≤ leading first.generation.natAbs second.generation.natAbs

theorem BatchWrite.fileName_congr {first second : BatchWrite ρ} (h : first.nameParts = second.nameParts) :
    first.fileName = second.fileName := by
  simp only [BatchWrite.nameParts, Prod.mk.injEq] at h
  obtain ⟨hgeneration, hstart, hend, hns, hseq, hrand⟩ := h
  rw [BatchWrite.fileName, BatchWrite.fileName, newBatchFilename, newBatchFilename, hgeneration, hstart, hend, hns, hseq, hrand]

theorem natAbs_of_padded {width : Nat} {first second : Int} (hfirst : 0 ≤ first) (hsecond : 0 ≤ second)
    (h : padded width first.natAbs = padded width second.natAbs) : first = second := by
  have hvalue := congrArg (Nat.ofDigitChars 10 · 0) h
  simp only [ofDigitChars_padded] at hvalue
  omega

/-- Names without negative numbers tell what they are made of. -/
theorem BatchWrite.nameParts_eq {first second : BatchWrite ρ} (hfirst : first.Accepted) (hsecond : second.Accepted)
    (hfirstNonneg : 0 ≤ first.startOffset ∧ 0 ≤ first.stamp.ns) (hsecondNonneg : 0 ≤ second.startOffset ∧ 0 ≤ second.stamp.ns)
    (h : first.fileName = second.fileName) : first.nameParts = second.nameParts := by
  have hfirstEnd := hfirstNonneg.1.trans hfirst.forward.le
  have hsecondEnd := hsecondNonneg.1.trans hsecond.forward.le
  have hstem : first.stem = second.stem := (List.append_left_inj ndjson).1 h
  have hparts := congrArg (split '-') hstem
  rw [split_stem hfirst.generation hfirstNonneg.1 hfirstEnd hfirstNonneg.2,
    split_stem hsecond.generation hsecondNonneg.1 hsecondEnd hsecondNonneg.2] at hparts
  simp only [List.cons.injEq, true_and, and_true] at hparts
  obtain ⟨hgeneration, hstart, hend, hns, hseq, hrand⟩ := hparts
  have hseqValue := congrArg (Nat.ofDigitChars 10 · 0) hseq
  simp only [ofDigitChars_padded] at hseqValue
  simp only [BatchWrite.nameParts, natAbs_of_padded hfirst.generation hsecond.generation hgeneration,
    natAbs_of_padded hfirstNonneg.1 hsecondNonneg.1 hstart, natAbs_of_padded hfirstEnd hsecondEnd hend,
    natAbs_of_padded hfirstNonneg.2 hsecondNonneg.2 hns, hseqValue, hrand]

theorem not_textLt_of_textLt {left right : Text} (h : textLt left right) : ¬ textLt right left :=
  fun hback => h.2 (textLe_antisymm h.1 hback.1)

theorem nodup_of_textLt {names : List Text} (h : names.Pairwise textLt) : names.Nodup := h.imp fun hlt => hlt.2

theorem pairwise_or {α : Type} {R : α → α → Prop} {items : List α} (h : items.Pairwise R) {first second : α} (hfirst : first ∈ items)
    (hsecond : second ∈ items) (hne : first ≠ second) : R first second ∨ R second first := by
  have : Std.Symm fun left right => R left right ∨ R right left := ⟨fun _ _ => Or.symm⟩
  have hor : items.Pairwise fun left right => R left right ∨ R right left := h.imp Or.inl
  exact hor.forall hfirst hsecond hne

/-- A listing in order needs the names in order. -/
theorem ListedInOrder.namesInOrder {created : Int → Option Text} {writes : List (BatchWrite ρ)} {dir : PendingDir ρ}
    (hwrites : writeAll writes = .ok dir) (h : ListedInOrder created writes dir) : NamesInOrder writes := by
  obtain ⟨haccepted, -⟩ := foldlM_writeBatch hwrites
  obtain ⟨order, hperm, hlisting, hsorted⟩ := h.listed
  have hnames : (order.map BatchWrite.fileName).Pairwise textLt := by
    rw [← hlisting, listPendingBatches_writeAll hwrites]
    exact pairwise_sortedNames _
  have hnonneg : ∀ write ∈ writes, 0 ≤ write.startOffset ∧ 0 ≤ write.stamp.ns := by
    intro write hwrite
    have hwriteAccepted := haccepted write hwrite
    obtain ⟨metadata, hparsed, -⟩ := h.parsed write hwrite
    have hstart : 0 ≤ write.startOffset := by
      by_contra hnegative
      rw [parse_of_negative_offset hwriteAccepted.generation (Int.not_le.1 hnegative)] at hparsed
      cases hparsed
    refine ⟨hstart, ?_⟩
    by_contra hnegative
    rw [parse_of_negative_clock hwriteAccepted.generation hstart (hstart.trans hwriteAccepted.forward.le)
      (Int.not_le.1 hnegative)] at hparsed
    cases hparsed
  refine ⟨?_, hnonneg, ?_⟩
  · have hdistinct : (writes.map BatchWrite.fileName).Pairwise (· ≠ ·) :=
      ((hperm.map _).nodup_iff).1 (nodup_of_textLt hnames)
    rw [List.pairwise_map] at hdistinct
    exact List.pairwise_map.2 (hdistinct.imp fun hne hparts => hne (BatchWrite.fileName_congr hparts))
  · intro first hfirst second hsecond hlt
    by_contra hleading
    have hback : textLt second.fileName first.fileName := by
      rw [(haccepted first hfirst).fileName_eq, (haccepted second hsecond).fileName_eq]
      apply textLt_append_left
      exact textLt_of_leading_lt (Int.natAbs_lt_natAbs_of_nonneg_of_lt (haccepted first hfirst).generation hlt)
        (Nat.not_le.1 hleading) _ _
    have hboth : order.Pairwise fun earlier later => earlier.NotAfter later ∧ textLt earlier.fileName later.fileName :=
      hsorted.and (List.pairwise_map.1 hnames)
    have hne : first ≠ second := by
      rintro rfl
      exact absurd hlt (Int.lt_irrefl _)
    rcases pairwise_or hboth (hperm.mem_iff.2 hfirst) (hperm.mem_iff.2 hsecond) hne with hforth | hforth
    · exact not_textLt_of_textLt hback hforth.2
    · have hafter := hforth.1
      rw [BatchWrite.NotAfter] at hafter
      omega

/-- Names in order give a listing in order. -/
theorem NamesInOrder.listedInOrder {created : Int → Option Text} {writes : List (BatchWrite ρ)} {dir : PendingDir ρ}
    (hwrites : writeAll writes = .ok dir) (hcreated : ∀ ns : Int, 0 ≤ ns → ns < 2 ^ 63 → (created ns).isSome = true)
    (h : NamesInOrder writes) : ListedInOrder created writes dir := by
  obtain ⟨haccepted, -⟩ := foldlM_writeBatch hwrites
  have hdistinct : (writes.map BatchWrite.fileName).Nodup := by
    refine List.pairwise_map.2 ((List.pairwise_map.1 h.distinct).imp_of_mem ?_)
    intro first second hfirst hsecond hne hname
    exact hne (BatchWrite.nameParts_eq (haccepted first hfirst) (haccepted second hsecond) (h.nonneg first hfirst)
      (h.nonneg second hsecond) hname)
  have hperm := List.mergeSort_perm writes fun first second => textLe first.fileName second.fileName
  have hsorted : (writes.mergeSort fun first second => textLe first.fileName second.fileName).Pairwise fun first second =>
      textLt first.fileName second.fileName := by
    have hle := @List.pairwise_mergeSort _ (fun first second : BatchWrite ρ => textLe first.fileName second.fileName)
      (fun _ _ _ => textLe_trans) (fun first second => Bool.or_eq_true _ _ ▸ textLe_total first.fileName second.fileName) writes
    have hne := List.pairwise_map.1 (((hperm.map BatchWrite.fileName).nodup_iff).2 hdistinct)
    exact (hle.and hne).imp fun hboth => hboth
  refine ⟨⟨_, hperm, ?_, hsorted.imp_of_mem ?_⟩, ?_⟩
  · rw [listPendingBatches_writeAll hwrites]
    apply (pairwise_sortedNames _).eq_of_mem_iff (List.pairwise_map.2 hsorted)
    intro name
    rw [mem_sortedNames, (hperm.map BatchWrite.fileName).mem_iff]
  · intro first second hfirst hsecond hlt
    have hfirstMem := hperm.mem_iff.1 hfirst
    have hsecondMem := hperm.mem_iff.1 hsecond
    apply BatchWrite.notAfter_of_not_before
    intro hbefore
    exact not_textLt_of_textLt hlt (textLt_of_before (haccepted second hsecondMem) (haccepted first hfirstMem)
      (h.nonneg second hsecondMem).1 (h.nonneg first hfirstMem).1 hbefore (h.generations second hsecondMem first hfirstMem))
  · intro write hwrite
    obtain ⟨hstart, hns⟩ := h.nonneg write hwrite
    obtain ⟨createdAt, hat⟩ := Option.isSome_iff_exists.1 (hcreated write.stamp.ns hns write.stamp.clock.2)
    exact ⟨_, parse_fileName (haccepted write hwrite).generation hstart (hstart.trans (haccepted write hwrite).forward.le) hns hat,
      rfl, rfl, rfl⟩

/-- The listing is in source order, and every name can be read back, exactly when the names are in order. -/
theorem pending_batches_listed_in_order_iff {created : Int → Option Text} {writes : List (BatchWrite ρ)} {dir : PendingDir ρ}
    (hwrites : writeAll writes = .ok dir) (hcreated : ∀ ns : Int, 0 ≤ ns → ns < 2 ^ 63 → (created ns).isSome = true) :
    ListedInOrder created writes dir ↔ NamesInOrder writes :=
  ⟨ListedInOrder.namesInOrder hwrites, NamesInOrder.listedInOrder hwrites hcreated⟩

/-! ### Two runs -/

/-- A write of one record in the first moment of 1970. -/
def writeOf (generation startOffset endOffset : Int) (seq : Nat) : BatchWrite Nat :=
  ⟨[1], generation, startOffset, endOffset, ⟨0, seq, "0a1b2c".toList, by decide, by decide⟩⟩

def epochText (_ : Int) : Option Text := some "1970-01-01T00:00:00.000000Z".toList

/-- Two batches, the later one of the source written first. -/
def twoWrites : List (BatchWrite Nat) := [writeOf 13 0 10 0, writeOf 12 5 9 1]

theorem pending_batches_listed_in_order_two :
    ListedInOrder epochText twoWrites [((writeOf 13 0 10 0).fileName, [1]), ((writeOf 12 5 9 1).fileName, [1])] := by
  have hwrites : writeAll twoWrites = .ok [((writeOf 13 0 10 0).fileName, [1]), ((writeOf 12 5 9 1).fileName, [1])] := by
    decide +kernel
  refine (pending_batches_listed_in_order_iff hwrites fun _ _ _ => rfl).2 ⟨?_, by decide +kernel, by decide +kernel⟩
  simp [twoWrites, writeOf, BatchWrite.nameParts]

/-- The batch of generation 1000000 is listed before the one of generation 999999. -/
theorem millionth_generation_out_of_order :
    ∃ dir, writeAll [writeOf 999999 0 10 0, writeOf 1000000 0 10 1] = .ok dir
      ∧ ¬ ListedInOrder epochText [writeOf 999999 0 10 0, writeOf 1000000 0 10 1] dir := by
  have hwrites : writeAll [writeOf 999999 0 10 0, writeOf 1000000 0 10 1]
      = .ok [((writeOf 999999 0 10 0).fileName, [1]), ((writeOf 1000000 0 10 1).fileName, [1])] := by decide +kernel
  refine ⟨_, hwrites, ?_⟩
  intro h
  have hleading := (h.namesInOrder hwrites).generations (writeOf 999999 0 10 0) (by simp) (writeOf 1000000 0 10 1) (by simp) (by decide)
  exact absurd hleading (by decide +kernel)

end SpoolNames

end SortView
