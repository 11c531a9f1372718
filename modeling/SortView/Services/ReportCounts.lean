import SortView.Services.OperationalReport

/-!
# The rows a report counts

Every figure of the two services is compared with one plain count: the rows of an interval that an era
owns. A legacy row is owned by its era before the cutover's local reading, a current row from the
cutover on.
-/

namespace SortView

open PyText Buckets

/-! ### The rows an era owns -/

/-- A legacy row of the tenant before the cutover, as the local clock reads it. -/
def ownedByV1 (db : Database) (tenant : ResolvedOperationalTenant) (zone : Zone) (row : CountedRow) : Bool :=
  row.ofTenant tenant && (getEffectiveCutover db tenant).all fun cutoverAt => row.eventTime < zone.toLocal cutoverAt

/-- A current row of the tenant from the cutover on. -/
def ownedByV2 (db : Database) (tenant : ResolvedOperationalTenant) (row : CountedRow) : Bool :=
  row.ofTenant tenant && (getEffectiveCutover db tenant).any fun cutoverAt => cutoverAt ≤ row.eventTime

/-- How many rows of `[start, stop)` are owned and kept. -/
def countOwned (owns keep : CountedRow → Bool) (rows : List CountedRow) (start stop : Int) : Nat :=
  rows.countP fun row => decide (start ≤ row.eventTime ∧ row.eventTime < stop) && (owns row && keep row)

/-- How many rows of a statement's span are kept. -/
def spanCount (tenant : ResolvedOperationalTenant) (keep : CountedRow → Bool) (rows : List CountedRow) :
    Option (Int × Int) → Nat
  | none => 0
  | some span => rows.countP fun row => row.inScope tenant span && keep row

theorem countP_eq_zero_of_false {rows : List CountedRow} {p : CountedRow → Bool} (h : ∀ row ∈ rows, p row = false) :
    rows.countP p = 0 := by
  rw [List.countP_eq_zero]
  intro row hrow
  rw [h row hrow]
  exact Bool.false_ne_true

/-- An empty span that is not asked for counts as the statement would. -/
theorem spanCount_nonEmptySpan (tenant : ResolvedOperationalTenant) (keep : CountedRow → Bool) (rows : List CountedRow)
    (start stop : Int) :
    spanCount tenant keep rows (nonEmptySpan start stop) = spanCount tenant keep rows (some (start, stop)) := by
  by_cases hlt : start < stop
  · rw [nonEmptySpan, if_pos hlt]
  · rw [nonEmptySpan, if_neg hlt]
    symm
    apply countP_eq_zero_of_false
    intro row _
    have hnot : ¬ (start ≤ row.eventTime ∧ row.eventTime < stop) := by omega
    simp only [CountedRow.inScope, hnot, decide_false, Bool.false_and]

theorem spanCount_ownedParts_v1 (db : Database) (tenant : ResolvedOperationalTenant) (zone : Zone)
    (keep : CountedRow → Bool) (rows : List CountedRow) (v1Start v1End v2Start v2End : Int) :
    spanCount tenant keep rows (ownedParts (getEffectiveCutover db tenant) zone v1Start v1End v2Start v2End).v1
      = countOwned (ownedByV1 db tenant zone) keep rows v1Start v1End := by
  cases hcutover : getEffectiveCutover db tenant with
  | none =>
      simp only [ownedParts, spanCount_nonEmptySpan, countOwned, ownedByV1, hcutover, Option.all_none, Bool.and_true]
      apply List.countP_congr
      intro row _
      simp only [CountedRow.inScope, Bool.and_eq_true, and_assoc]
  | some cutoverAt =>
      simp only [ownedParts, spanCount_nonEmptySpan, countOwned, ownedByV1, hcutover, Option.all_some, cutoverBoundary]
      apply List.countP_congr
      intro row _
      simp only [CountedRow.inScope, Bool.and_eq_true, decide_eq_true_eq, lt_min_iff]
      tauto

theorem spanCount_ownedParts_v2 (db : Database) (tenant : ResolvedOperationalTenant) (zone : Zone)
    (keep : CountedRow → Bool) (rows : List CountedRow) (v1Start v1End v2Start v2End : Int) :
    spanCount tenant keep rows (ownedParts (getEffectiveCutover db tenant) zone v1Start v1End v2Start v2End).v2
      = countOwned (ownedByV2 db tenant) keep rows v2Start v2End := by
  cases hcutover : getEffectiveCutover db tenant with
  | none =>
      simp only [ownedParts, countOwned, ownedByV2, hcutover, Option.any_none, Bool.and_false, Bool.false_and]
      symm
      exact countP_eq_zero_of_false fun _ _ => rfl
  | some cutoverAt =>
      simp only [ownedParts, spanCount_nonEmptySpan, countOwned, ownedByV2, hcutover, Option.any_some, cutoverBoundary]
      apply List.countP_congr
      intro row _
      simp only [CountedRow.inScope, Bool.and_eq_true, decide_eq_true_eq, max_le_iff]
      tauto

/-- A part of an interval, counted among the owned rows of the whole interval. -/
theorem countOwned_inside (owns keep : CountedRow → Bool) (rows : List CountedRow) {start stop low high : Int}
    (hlow : start ≤ low) (hhigh : high ≤ stop) :
    countOwned owns (fun row => keep row && decide (low ≤ row.eventTime ∧ row.eventTime < high)) rows start stop
      = countOwned owns keep rows low high := by
  apply List.countP_congr
  intro row _
  simp only [Bool.and_eq_true, decide_eq_true_eq]
  constructor
  · rintro ⟨_, howns, hkeep, hinside⟩
    exact ⟨hinside, howns, hkeep⟩
  · rintro ⟨hinside, howns, hkeep⟩
    exact ⟨by omega, howns, hkeep, hinside⟩

/-- The owned rows of consecutive intervals add up to those of the whole. -/
theorem sum_countOwned {boundary : Nat → Int} (hmono : Monotone boundary) (owns keep : CountedRow → Bool)
    (rows : List CountedRow) (n : Nat) :
    ((List.range n).map fun i => countOwned owns keep rows (boundary i) (boundary (i + 1))).sum
      = countOwned owns keep rows (boundary 0) (boundary n) :=
  sum_countP_intervals hmono CountedRow.eventTime (fun row => owns row && keep row) rows n

/-- Classes that every row is in exactly one of. -/
theorem sum_countOwned_classes (owns : CountedRow → Bool) (slot : CountedRow → Nat) (rows : List CountedRow)
    (start stop : Int) {n : Nat} (hslot : ∀ row, slot row < n) :
    ((List.range n).map fun i => countOwned owns (fun row => decide (slot row = i)) rows start stop).sum
      = countOwned owns (fun _ => true) rows start stop := by
  have hsum := sum_countP_classes slot
    (fun row : CountedRow => decide (start ≤ row.eventTime ∧ row.eventTime < stop) && owns row) rows
    (fun row _ => hslot row)
  simpa only [countOwned, Bool.and_assoc, Bool.and_true] using hsum

/-! ### One count statement -/

theorem Source.group_eq_none {source : Source} (hplain : source.grouped = false) (db : Database) :
    ∀ row ∈ source.rows db, row.group = none := by
  intro row hrow
  cases source with
  | v1Checkins | v2Checkins | v1Rejects | v2Rejects =>
      obtain ⟨_, _, rfl⟩ := List.mem_map.1 hrow
      rfl
  | _ => cases hplain

/-- What the counts of the groups that satisfy `p` hold for bucket `i + 1`. -/
def groupTotal (p : Option Text → Bool) (i : Nat) (rows : List (Option Text × List Nat)) : Nat :=
  entriesTotal (fun group counts => if p group then counts.getD i 0 else 0) rows

theorem addBucketRow_spec {buckets : Nat} {countsByGroup : Dict (Option Text) (List Nat)}
    {row : (Option Text × Nat) × Nat} (hlengths : ∀ entry ∈ countsByGroup.entries, entry.2.length = buckets)
    (hbucket : 1 ≤ row.1.2 ∧ row.1.2 ≤ buckets) :
    ∃ next, addBucketRow buckets countsByGroup row = .ok next
      ∧ (∀ entry ∈ next.entries, entry.2.length = buckets)
      ∧ ∀ pi : (Option Text → Bool) × Nat, groupTotal pi.1 pi.2 next.entries
          = groupTotal pi.1 pi.2 countsByGroup.entries
            + if pi.1 row.1.1 && decide (row.1.2 = pi.2 + 1) then row.2 else 0 := by
  have hcounts : ((countsByGroup.get? row.1.1).getD (List.replicate buckets 0)).length = buckets := by
    cases hget : countsByGroup.get? row.1.1 with
    | none => simp
    | some counts => exact hlengths _ ((Dict.get?_eq_some_iff _ _ _).1 hget)
  refine ⟨_, if_pos hbucket, ?_, ?_⟩
  · intro entry hentry
    have hget := (Dict.get?_eq_some_iff _ entry.1 entry.2).2 hentry
    rw [Dict.get?_set] at hget
    split at hget
    · rw [← Option.some.inj hget, length_addTo, hcounts]
    · exact hlengths _ ((Dict.get?_eq_some_iff _ _ _).1 hget)
  · rintro ⟨p, i⟩
    have hset := entriesTotal_set (fun group (counts : List Nat) => if p group then counts.getD i 0 else 0) countsByGroup
      row.1.1 (addTo ((countsByGroup.get? row.1.1).getD (List.replicate buckets 0)) (row.1.2 - 1) row.2)
    have hold : ((countsByGroup.get? row.1.1).map fun counts => if p row.1.1 then counts.getD i 0 else 0).getD 0
        = if p row.1.1 then ((countsByGroup.get? row.1.1).getD (List.replicate buckets 0)).getD i 0 else 0 := by
      cases countsByGroup.get? row.1.1 with
      | none => simp
      | some counts => rfl
    rw [hold, getD_addTo (by omega)] at hset
    simp only [groupTotal]
    have hslot : row.1.2 - 1 = i ↔ row.1.2 = i + 1 := by omega
    by_cases hp : p row.1.1 = true
    · simp only [hp, if_true, hslot] at hset
      simp only [hp, Bool.true_and, decide_eq_true_eq]
      omega
    · rw [if_neg hp, if_neg hp] at hset
      rw [Bool.not_eq_true] at hp
      simp only [hp, Bool.false_and, Bool.false_eq_true, if_false]
      omega

/-- A row in interval `i` of the boundaries. -/
def inBucket (boundaries : List Int) (i : Nat) (row : CountedRow) : Bool :=
  decide (boundaries.getD i 0 ≤ row.eventTime ∧ row.eventTime < boundaries.getD (i + 1) 0)

/-- A span that lies within `n` intervals of increasing boundaries. -/
structure Fits (span : Int × Int) (boundaries : List Int) (n : Nat) : Prop where
  sorted : boundaries.Pairwise (· ≤ ·)
  length : boundaries.length = n + 1
  some_interval : 0 < n
  low : boundaries.getD 0 0 ≤ span.1
  high : span.2 ≤ boundaries.getD n 0

theorem Fits.widthBucket_eq_succ_iff {span : Int × Int} {boundaries : List Int} {n : Nat} (hfits : Fits span boundaries n)
    (row : CountedRow) {i : Nat} (hi : i < n) :
    widthBucket row.eventTime boundaries = i + 1 ↔ inBucket boundaries i row = true := by
  have hlength := hfits.length
  rw [Buckets.widthBucket_eq_succ_iff hfits.sorted (by omega), inBucket, decide_eq_true_eq,
    List.getD_eq_getElem _ _ (by omega), List.getD_eq_getElem _ _ (by omega)]

theorem Fits.widthBucket_bounds {span : Int × Int} {boundaries : List Int} {n : Nat} (hfits : Fits span boundaries n)
    {value : Int} (hvalue : span.1 ≤ value ∧ value < span.2) :
    1 ≤ widthBucket value boundaries ∧ widthBucket value boundaries ≤ n := by
  have hlength := hfits.length
  have hlow := hfits.low
  have hhigh := hfits.high
  rw [List.getD_eq_getElem _ _ (by omega)] at hlow hhigh
  have hbounds := Buckets.widthBucket_bounds (List.getElem_mem (by omega : 0 < boundaries.length))
    (Int.le_trans hlow hvalue.1) (List.getElem_mem (by omega : n < boundaries.length)) (by omega)
  omega

/-- A statement whose span lies within its boundaries succeeds, and its counts are those of the rows of
the span in each interval. -/
theorem executeBucketCount_spec (db : Database) (tenant : ResolvedOperationalTenant) (source : Source)
    {span : Int × Int} {boundaries : List Int} {n : Nat} (hfits : Fits span boundaries n) :
    ∃ rows, executeBucketCount db tenant source span boundaries = .ok rows
      ∧ (∀ row ∈ rows, row.2.length = n)
      ∧ (source.grouped = false → ∃ counts, rows = [(none, counts)])
      ∧ ∀ (p : Option Text → Bool) (i : Nat), i < n →
          groupTotal p i rows
            = spanCount tenant (fun row => p row.group && inBucket boundaries i row) (source.rows db) (some span) := by
  have hlength : boundaries.length - 1 = n := by
    rw [hfits.length, Nat.add_sub_cancel]
  have hstep : ∀ countsByGroup : Dict (Option Text) (List Nat),
      (∀ entry ∈ countsByGroup.entries, entry.2.length = n) →
      ∀ row ∈ bucketCountRows (source.rows db) tenant span boundaries,
        ∃ next, addBucketRow n countsByGroup row = .ok next
          ∧ (∀ entry ∈ next.entries, entry.2.length = n)
          ∧ ∀ pi : (Option Text → Bool) × Nat, groupTotal pi.1 pi.2 next.entries
              = groupTotal pi.1 pi.2 countsByGroup.entries
                + if pi.1 row.1.1 && decide (row.1.2 = pi.2 + 1) then row.2 else 0 := by
    intro countsByGroup hlengths row hrow
    apply addBucketRow_spec hlengths
    obtain ⟨key, hkey, rfl⟩ := List.mem_map.1 hrow
    obtain ⟨counted, hcounted, rfl⟩ := List.mem_map.1 (List.mem_dedup.1 hkey)
    have hscope := (List.mem_filter.1 hcounted).2
    rw [CountedRow.inScope, Bool.and_eq_true, decide_eq_true_eq] at hscope
    exact hfits.widthBucket_bounds hscope.1
  obtain ⟨countsByGroup, hfold, hlengths, hvalues⟩ :=
    foldlM_adds hstep (s := Dict.empty) fun entry hentry => absurd hentry List.not_mem_nil
  have htotal : ∀ (p : Option Text → Bool) (i : Nat), i < n →
      groupTotal p i countsByGroup.entries
        = spanCount tenant (fun row => p row.group && inBucket boundaries i row) (source.rows db) (some span) := by
    intro p i hi
    rw [hvalues (p, i), bucketCountRows,
      sum_groupCount (fun key : Option Text × Nat => p key.1 && decide (key.2 = i + 1)), List.countP_map,
      List.countP_filter]
    rw [show groupTotal p i (Dict.empty : Dict (Option Text) (List Nat)).entries = 0 from rfl, Nat.zero_add]
    apply List.countP_congr
    intro row _
    simp only [Function.comp_apply, hfits.widthBucket_eq_succ_iff row hi, Bool.decide_eq_true]
    rw [Bool.and_comm]
  rw [executeBucketCount]
  simp only [hlength]
  rw [if_neg (Nat.not_lt.2 hfits.some_interval), hfold]
  cases hgrouped : source.grouped with
  | true =>
      refine ⟨countsByGroup.entries, rfl, hlengths, ?_, htotal⟩
      intro hplain
      cases hplain
  | false =>
      refine ⟨[(none, (countsByGroup.get? none).getD (List.replicate n 0))], rfl, ?_, fun _ => ⟨_, rfl⟩, ?_⟩
      · intro row hrow
        rw [List.mem_singleton.1 hrow]
        cases hget : countsByGroup.get? none with
        | none => simp
        | some counts => exact hlengths _ ((Dict.get?_eq_some_iff _ _ _).1 hget)
      · -- Every row of a plain source has the group `none`.
        intro p i hi
        have hnone := htotal (fun group => decide (group = none)) i hi
        simp only [groupTotal, decide_eq_true_eq] at hnone
        rw [entriesTotal_key (fun counts : List Nat => counts.getD i 0)] at hnone
        have hcounts : ((countsByGroup.get? none).getD (List.replicate n 0)).getD i 0
            = ((countsByGroup.get? none).map fun counts => counts.getD i 0).getD 0 := by
          cases countsByGroup.get? none with
          | none => simp
          | some counts => rfl
        rw [groupTotal, entriesTotal_cons, hcounts, hnone]
        simp only [spanCount, entriesTotal, List.map_nil, List.sum_nil, Nat.add_zero]
        cases hp : p none with
        | true =>
            rw [if_pos rfl]
            apply List.countP_congr
            intro row hrow
            simp [Source.group_eq_none hgrouped db row hrow, hp]
        | false =>
            rw [if_neg Bool.false_ne_true]
            symm
            apply countP_eq_zero_of_false
            intro row hrow
            simp [Source.group_eq_none hgrouped db row hrow, hp]

/-- The one row of counts of a plain source. -/
theorem executeBucketCount_plain (db : Database) (tenant : ResolvedOperationalTenant) {source : Source}
    (hplain : source.grouped = false) {span : Int × Int} {boundaries : List Int} {n : Nat}
    (hfits : Fits span boundaries n) :
    ∃ counts, executeBucketCount db tenant source span boundaries = .ok [(none, counts)] ∧ counts.length = n
      ∧ ∀ i < n, counts.getD i 0 = spanCount tenant (inBucket boundaries i) (source.rows db) (some span) := by
  obtain ⟨rows, hrows, hlengths, hone, htotal⟩ := executeBucketCount_spec db tenant source hfits
  obtain ⟨counts, rfl⟩ := hone hplain
  refine ⟨counts, hrows, hlengths _ (List.mem_singleton.2 rfl), ?_⟩
  intro i hi
  have hcount := htotal (fun _ => true) i hi
  simpa only [groupTotal, entriesTotal, List.map_cons, List.map_nil, List.sum_cons, List.sum_nil, Nat.add_zero, if_true,
    Bool.true_and] using hcount

/-! ### The window of a range -/

/-- The range of `n` days from `fromDate` on. -/
def rangeOf (zone : Zone) (fromDate : Int) (n : Nat) : LocalRange where
  zone := zone
  dates := (List.range n).map fun (offset : Nat) => fromDate + offset
  v1DayBoundariesLocal := (List.range (n + 1)).map fun (i : Nat) => midnight (fromDate + i)
  v2DayBoundariesUtc := (List.range (n + 1)).map fun (i : Nat) => localMidnightUtc zone (fromDate + i)

theorem localRange_eq {fromDate toDate : Int} (hrange : fromDate ≤ toDate) (zone : Zone) :
    localRange fromDate toDate zone = .ok (rangeOf zone fromDate ((toDate - fromDate).toNat + 1)) := by
  rw [localRange, if_neg (by omega)]
  simp only [rangeOf, List.map_map]
  rw [List.range_succ (n := (toDate - fromDate).toNat + 1), List.map_append, List.map_append]
  rw [show (List.range ((toDate - fromDate).toNat + 1)).map
      ((fun day => localDayBounds day zone) ∘ fun (offset : Nat) => fromDate + offset)
      = (List.range (toDate - fromDate).toNat).map (fun (offset : Nat) => localDayBounds (fromDate + offset) zone)
        ++ [localDayBounds (fromDate + (toDate - fromDate).toNat) zone] by
    rw [List.range_succ, List.map_append, List.map_singleton]; rfl]
  rw [List.getLast?_concat]
  simp only [Option.map_some, Option.toList_some, List.map_singleton, Nat.cast_add, Nat.cast_one, localDayBounds,
    Int.add_assoc]
  rfl

@[simp] theorem days_rangeOf (zone : Zone) (fromDate : Int) (n : Nat) : (rangeOf zone fromDate n).days = n := by
  rw [LocalRange.days, rangeOf, List.length_map, List.length_range]

theorem monotone_midnight (fromDate : Int) : Monotone fun (i : Nat) => midnight (fromDate + i) := by
  intro i j hij
  have hcast : (i : Int) ≤ j := Int.ofNat_le.2 hij
  simp only [midnight, dayLength]
  omega

theorem monotone_localMidnightUtc {zone : Zone} (hzone : zone.OrderedMidnights) (fromDate : Int) :
    Monotone fun (i : Nat) => localMidnightUtc zone (fromDate + i) := by
  intro i j hij
  apply hzone
  have hcast : (i : Int) ≤ j := Int.ofNat_le.2 hij
  omega

section Window

variable (db : Database) (tenant : ResolvedOperationalTenant) {zone : Zone} (hzone : zone.OrderedMidnights)
  (fromDate : Int) (n : Nat)

/-- The window of the range of `n` days from `fromDate` on. -/
def windowOf (db : Database) (tenant : ResolvedOperationalTenant) (zone : Zone) (fromDate : Int) (n : Nat) :
    ReportWindow :=
  reportWindow db tenant (rangeOf zone fromDate n)

@[simp] theorem localRange_windowOf : (windowOf db tenant zone fromDate n).localRange = rangeOf zone fromDate n := by
  rw [windowOf, reportWindow]
  split <;> rfl

/-- The window cuts the whole range as a single-day read cuts a day. -/
theorem spans_windowOf (zone : Zone) :
    ((windowOf db tenant zone fromDate n).v1Span = (ownedParts (getEffectiveCutover db tenant) zone (midnight fromDate)
        (midnight (fromDate + n)) (localMidnightUtc zone fromDate) (localMidnightUtc zone (fromDate + n))).v1)
      ∧ ((windowOf db tenant zone fromDate n).v2Span = (ownedParts (getEffectiveCutover db tenant) zone
        (midnight fromDate) (midnight (fromDate + n)) (localMidnightUtc zone fromDate)
        (localMidnightUtc zone (fromDate + n))).v2) := by
  rw [windowOf, reportWindow]
  simp only [rangeOf, headD_map_range, getLastD_map_range, Nat.cast_zero, Int.add_zero]
  cases getEffectiveCutover db tenant with
  | none => exact ⟨rfl, rfl⟩
  | some cutoverAt => exact ⟨rfl, rfl⟩

theorem spanCount_v1Span (keep : CountedRow → Bool) (rows : List CountedRow) :
    spanCount tenant keep rows (windowOf db tenant zone fromDate n).v1Span
      = countOwned (ownedByV1 db tenant zone) keep rows (midnight fromDate) (midnight (fromDate + n)) := by
  rw [(spans_windowOf db tenant fromDate n zone).1, spanCount_ownedParts_v1]

theorem spanCount_v2Span (keep : CountedRow → Bool) (rows : List CountedRow) :
    spanCount tenant keep rows (windowOf db tenant zone fromDate n).v2Span
      = countOwned (ownedByV2 db tenant) keep rows (localMidnightUtc zone fromDate)
          (localMidnightUtc zone (fromDate + n)) := by
  rw [(spans_windowOf db tenant fromDate n zone).2, spanCount_ownedParts_v2]

/-- A span of an interval that an era owns part of lies within the interval. -/
theorem ownedParts_bounds {cutoverAt : Option Int} {v1Start v1End v2Start v2End : Int} {span : Int × Int} :
    ((ownedParts cutoverAt zone v1Start v1End v2Start v2End).v1 = some span → v1Start ≤ span.1 ∧ span.2 ≤ v1End)
      ∧ ((ownedParts cutoverAt zone v1Start v1End v2Start v2End).v2 = some span → v2Start ≤ span.1 ∧ span.2 ≤ v2End) := by
  have hnonEmpty : ∀ {start stop : Int}, nonEmptySpan start stop = some span → span = (start, stop) := by
    intro start stop h
    rw [nonEmptySpan] at h
    split at h
    · exact (Option.some.inj h).symm
    · cases h
  cases cutoverAt with
  | none =>
      constructor
      · intro h
        rw [hnonEmpty h]
        exact ⟨Int.le_refl _, Int.le_refl _⟩
      · intro h
        cases h
  | some cutoverAt =>
      constructor
      · intro h
        rw [hnonEmpty h]
        exact ⟨Int.le_refl _, Int.min_le_left _ _⟩
      · intro h
        rw [hnonEmpty h]
        exact ⟨Int.le_max_left _ _, Int.le_refl _⟩

include hzone in
/-- The statement of each era of a window fits the day boundaries it is given. -/
theorem fits_of_mem_eras (hn : 0 < n) {v1Source v2Source : Source} {era : Source × (Int × Int) × List Int}
    (hera : era ∈ eras (windowOf db tenant zone fromDate n) v1Source v2Source) :
    Fits era.2.1 era.2.2 n ∧ (era.1 = v1Source ∨ era.1 = v2Source) := by
  have hspans := spans_windowOf db tenant fromDate n zone
  rw [eras, List.mem_append, Option.mem_toList, Option.mem_toList, Option.map_eq_some_iff, Option.map_eq_some_iff] at hera
  rcases hera with ⟨span, hspan, rfl⟩ | ⟨span, hspan, rfl⟩
  · rw [hspans.1] at hspan
    obtain ⟨hlow, hhigh⟩ := (ownedParts_bounds).1 hspan
    refine ⟨⟨?_, ?_, hn, ?_, ?_⟩, Or.inl rfl⟩
    · rw [localRange_windowOf]
      exact pairwise_map_range (monotone_midnight fromDate) (n + 1)
    · simp [rangeOf]
    · simpa only [localRange_windowOf, rangeOf, getD_map_range _ (Nat.succ_pos n), Nat.cast_zero, Int.add_zero] using hlow
    · simpa only [localRange_windowOf, rangeOf, getD_map_range _ (Nat.lt_succ_self n)] using hhigh
  · rw [hspans.2] at hspan
    obtain ⟨hlow, hhigh⟩ := (ownedParts_bounds).2 hspan
    refine ⟨⟨?_, ?_, hn, ?_, ?_⟩, Or.inr rfl⟩
    · rw [localRange_windowOf]
      exact pairwise_map_range (monotone_localMidnightUtc hzone fromDate) (n + 1)
    · simp [rangeOf]
    · simpa only [localRange_windowOf, rangeOf, getD_map_range _ (Nat.succ_pos n), Nat.cast_zero, Int.add_zero] using hlow
    · simpa only [localRange_windowOf, rangeOf, getD_map_range _ (Nat.lt_succ_self n)] using hhigh

/-- What both eras hold of an interval of the local clock and the same interval of instants. -/
def bothEras (db : Database) (tenant : ResolvedOperationalTenant) (zone : Zone) (v1Rows v2Rows : List CountedRow)
    (v1Keep v2Keep : CountedRow → Bool) (v1Start v1End v2Start v2End : Int) : Nat :=
  countOwned (ownedByV1 db tenant zone) v1Keep v1Rows v1Start v1End
    + countOwned (ownedByV2 db tenant) v2Keep v2Rows v2Start v2End

/-- What both eras hold of one day. -/
def dayOf (db : Database) (tenant : ResolvedOperationalTenant) (zone : Zone) (v1Rows v2Rows : List CountedRow)
    (v1Keep v2Keep : CountedRow → Bool) (localDate : Int) : Nat :=
  bothEras db tenant zone v1Rows v2Rows v1Keep v2Keep (midnight localDate) (midnight (localDate + 1))
    (localMidnightUtc zone localDate) (localMidnightUtc zone (localDate + 1))

include hzone in
/-- The eras' statements together count day `i` of the range. -/
theorem sum_eras_day (keep : Bool → CountedRow → Bool) {v1Source v2Source : Source} (hv1 : v1Source.aware = false)
    (hv2 : v2Source.aware = true) {i : Nat} (hi : i < n) :
    ((eras (windowOf db tenant zone fromDate n) v1Source v2Source).map fun era =>
        spanCount tenant (fun row => keep era.1.aware row && inBucket era.2.2 i row) (era.1.rows db) (some era.2.1)).sum
      = dayOf db tenant zone (v1Source.rows db) (v2Source.rows db) (keep false) (keep true) (fromDate + i) := by
  have hv1Bucket : ∀ row, inBucket (rangeOf zone fromDate n).v1DayBoundariesLocal i row
      = decide (midnight (fromDate + i) ≤ row.eventTime ∧ row.eventTime < midnight (fromDate + i + 1)) := by
    intro row
    simp only [inBucket, rangeOf, getD_map_range _ (by omega : i < n + 1), getD_map_range _ (by omega : i + 1 < n + 1),
      Nat.cast_add, Nat.cast_one, Int.add_assoc]
  have hv2Bucket : ∀ row, inBucket (rangeOf zone fromDate n).v2DayBoundariesUtc i row
      = decide (localMidnightUtc zone (fromDate + i) ≤ row.eventTime
          ∧ row.eventTime < localMidnightUtc zone (fromDate + i + 1)) := by
    intro row
    simp only [inBucket, rangeOf, getD_map_range _ (by omega : i < n + 1), getD_map_range _ (by omega : i + 1 < n + 1),
      Nat.cast_add, Nat.cast_one, Int.add_assoc]
  have hlist : ∀ (span : Option (Int × Int)) (source : Source) (boundaries : List Int),
      (((span.map fun span => (source, span, boundaries)).toList).map fun era =>
        spanCount tenant (fun row => keep era.1.aware row && inBucket era.2.2 i row) (era.1.rows db) (some era.2.1)).sum
      = spanCount tenant (fun row => keep source.aware row && inBucket boundaries i row) (source.rows db) span := by
    intro span source boundaries
    cases span with
    | none => rfl
    | some span => simp
  have hlocal := monotone_midnight fromDate
  have hutc := monotone_localMidnightUtc hzone fromDate
  have hstart : ∀ {boundary : Nat → Int}, Monotone boundary → boundary 0 ≤ boundary i ∧ boundary (i + 1) ≤ boundary n :=
    fun hmono => ⟨hmono (Nat.zero_le i), hmono hi⟩
  have hlocal₁ := hstart hlocal
  have hutc₁ := hstart hutc
  simp only [Nat.cast_zero, Int.add_zero, Nat.cast_add, Nat.cast_one, ← Int.add_assoc] at hlocal₁ hutc₁
  rw [eras, List.map_append, List.sum_append, hlist, hlist, spanCount_v1Span, spanCount_v2Span, hv1, hv2]
  simp only [localRange_windowOf, hv1Bucket, hv2Bucket]
  rw [countOwned_inside _ _ _ hlocal₁.1 hlocal₁.2, countOwned_inside _ _ _ hutc₁.1 hutc₁.2]
  rfl

end Window

end SortView
