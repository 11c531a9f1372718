import SortView.Services.ReportCounts

/-!
# A range report equals the single-day reads

Each figure of a range, and the same figure of a day, as counts of owned rows.
-/

namespace SortView

open PyText Buckets

variable (db : Database) (tenant : ResolvedOperationalTenant) (zone : Zone)

def anyRow (_ : CountedRow) : Bool := true

/-! ### Check-ins and rejects by day -/

theorem countRows_eq_spanCount (rows : List CountedRow) (span : Option (Int × Int)) :
    countRows rows tenant span = spanCount tenant anyRow rows span := by
  cases span with
  | none => rfl
  | some span => simp only [countRows, spanCount, anyRow, Bool.and_true]

theorem spanCount_ownedOfDay_v1 (keep : CountedRow → Bool) (rows : List CountedRow) (localDate : Int) :
    spanCount tenant keep rows (ownedOfDay db tenant localDate zone).v1
      = countOwned (ownedByV1 db tenant zone) keep rows (midnight localDate) (midnight (localDate + 1)) :=
  spanCount_ownedParts_v1 ..

theorem spanCount_ownedOfDay_v2 (keep : CountedRow → Bool) (rows : List CountedRow) (localDate : Int) :
    spanCount tenant keep rows (ownedOfDay db tenant localDate zone).v2
      = countOwned (ownedByV2 db tenant) keep rows (localMidnightUtc zone localDate)
          (localMidnightUtc zone (localDate + 1)) :=
  spanCount_ownedParts_v2 ..

theorem total_dayCount (v1Rows v2Rows : List CountedRow) (localDate : Int) :
    (dayCount v1Rows v2Rows db tenant localDate zone).total
      = dayOf db tenant zone v1Rows v2Rows anyRow anyRow localDate := by
  simp only [dayCount, countRows_eq_spanCount, spanCount_ownedOfDay_v1, spanCount_ownedOfDay_v2]
  rfl

variable {zone} in
/-- One statement of a plain count, of the rows as they are then, in a window that was cut before. -/
theorem addEraCounts_spec (cut : Database) (hzone : zone.OrderedMidnights) (fromDate : Int) {n : Nat} (hn : 0 < n)
    {v1Source v2Source : Source} {era : Source × (Int × Int) × List Int}
    (hera : era ∈ eras (windowOf cut tenant zone fromDate n) v1Source v2Source)
    (hplain1 : v1Source.grouped = false) (hplain2 : v2Source.grouped = false) {totals : List Nat} (htotals : totals.length = n) :
    ∃ next, addEraCounts db tenant (windowOf cut tenant zone fromDate n) totals era = .ok next ∧ next.length = n
      ∧ ∀ i : Fin n, next.getD i 0 = totals.getD i 0
          + spanCount tenant (fun row => anyRow row && inBucket era.2.2 i row) (era.1.rows db) (some era.2.1) := by
  obtain ⟨hfits, hsource⟩ := fits_of_mem_eras cut tenant hzone fromDate n hn hera
  have hplain : era.1.grouped = false := by
    rcases hsource with h | h
    · rw [h, hplain1]
    · rw [h, hplain2]
  obtain ⟨counts, hexecute, hlength, hcounts⟩ := executeBucketCount_plain db tenant hplain hfits
  refine ⟨totals.zipWith (· + ·) counts, ?_, ?_, ?_⟩
  · rw [addEraCounts, hexecute]
    rw [localRange_windowOf, days_rangeOf]
    change (bucketCounts counts n >>= fun counts => Except.ok (totals.zipWith (· + ·) counts)) = _
    rw [bucketCounts, if_neg (not_not.2 hlength)]
    rfl
  · rw [List.length_zipWith, htotals, hlength, Nat.min_self]
  · intro i
    rw [getD_zipWith_add (htotals.trans hlength.symm), hcounts i i.2]
    simp only [anyRow, Bool.true_and]

variable {zone} in
/-- A plain count of every day of the range. -/
theorem countsByDay_windowOf (hzone : zone.OrderedMidnights) (fromDate : Int) {n : Nat} (hn : 0 < n)
    (v1Source v2Source : Source) (hv1 : v1Source.aware = false) (hv2 : v2Source.aware = true)
    (hplain1 : v1Source.grouped = false) (hplain2 : v2Source.grouped = false) :
    countsByDay db tenant (windowOf db tenant zone fromDate n) v1Source v2Source
      = .ok ((List.range n).map fun (i : Nat) =>
          dayOf db tenant zone (v1Source.rows db) (v2Source.rows db) anyRow anyRow (fromDate + i)) := by
  obtain ⟨totals, hfold, hlength, htotals⟩ := foldlM_adds
    (fun totals htotals era hera => addEraCounts_spec db tenant db hzone fromDate hn hera hplain1 hplain2 htotals)
    (List.length_replicate (n := n) (a := 0))
  rw [countsByDay, localRange_windowOf, days_rangeOf, hfold]
  congr 1
  apply eq_map_range hlength
  intro i hi
  rw [htotals ⟨i, hi⟩, getD_replicate_zero, Nat.zero_add,
    sum_eras_day db tenant hzone fromDate n (fun _ => anyRow) hv1 hv2 hi]

/-! ### Check-ins by destination -/

/-- Rows whose stored destination counts in a bucket. -/
def inDestination (routing : RoutingConfig) (bucket : DestinationBucket) (row : CountedRow) : Bool :=
  decide (routing.bucket (destinationKey row.group) = bucket)

theorem sum_groupedRows (p : Option Text → Bool) (rows : List CountedRow) (span : Option (Int × Int)) :
    ((groupedRows rows tenant span).map fun group => if p group.1 then group.2 else 0).sum
      = spanCount tenant (fun row => p row.group) rows span := by
  cases span with
  | none => rfl
  | some span =>
      rw [groupedRows, sum_groupCount, List.countP_map, List.countP_filter]
      apply List.countP_congr
      intro row _
      simp only [Function.comp_apply, Bool.and_eq_true, and_comm]

namespace DestinationTally

/-- The count of one bucket. -/
def count (tally : DestinationTally) : DestinationBucket → Nat
  | .home => tally.homeCount
  | .transit slot => tally.transitCounts.getD slot 0
  | .other => tally.otherCount

theorem count_countGroup {routing : RoutingConfig} {tally : DestinationTally}
    (htally : tally.transitCounts.length = routing.transit.length) (group : Option Text × Nat) :
    (countGroup routing tally group).transitCounts.length = routing.transit.length
      ∧ ∀ bucket, (countGroup routing tally group).count bucket = tally.count bucket
          + if decide (routing.bucket (destinationKey group.1) = bucket) then group.2 else 0 := by
  rw [countGroup]
  cases hbucket : routing.bucket (destinationKey group.1) with
  | home =>
      refine ⟨htally, ?_⟩
      intro bucket
      cases bucket <;> simp [count]
  | transit slot =>
      have hslot := RoutingConfig.slot_lt_of_bucket hbucket
      refine ⟨(length_addTo ..).trans htally, ?_⟩
      intro bucket
      cases bucket with
      | transit place =>
          simp only [count, getD_addTo (htally ▸ hslot), DestinationBucket.transit.injEq, decide_eq_true_eq]
      | _ => simp [count]
  | other =>
      refine ⟨htally, ?_⟩
      intro bucket
      cases bucket <;> simp [count]

theorem eraTotal_countGroup (routing : RoutingConfig) (tally : DestinationTally) (group : Option Text × Nat) :
    (countGroup routing tally group).eraTotal = tally.eraTotal + group.2 := by
  rw [countGroup]
  cases routing.bucket (destinationKey group.1) <;> rfl

/-- Counting one era's groups adds the era's rows to each bucket. -/
theorem count_countGroups {routing : RoutingConfig} {tally : DestinationTally}
    (htally : tally.transitCounts.length = routing.transit.length) (tenant : ResolvedOperationalTenant)
    (rows : List CountedRow) (span : Option (Int × Int)) :
    (countGroups routing tally (groupedRows rows tenant span)).transitCounts.length = routing.transit.length
      ∧ (∀ bucket, (countGroups routing tally (groupedRows rows tenant span)).count bucket
          = tally.count bucket + spanCount tenant (inDestination routing bucket) rows span)
      ∧ (countGroups routing tally (groupedRows rows tenant span)).eraTotal = spanCount tenant anyRow rows span := by
  obtain ⟨hlength, hcount⟩ := foldl_adds (fun tally => tally.transitCounts.length = routing.transit.length)
    (fun bucket tally => tally.count bucket)
    (fun bucket group => if decide (routing.bucket (destinationKey group.1) = bucket) then group.2 else 0)
    (countGroup routing) (groupedRows rows tenant span) (s := { tally with eraTotal := 0 })
    (fun tally htally group _ => count_countGroup htally group) htally
  obtain ⟨-, htotal⟩ := foldl_adds (fun _ => True) (fun (_ : Unit) tally => tally.eraTotal)
    (fun _ group => if (fun _ : Option Text => true) group.1 then group.2 else 0)
    (countGroup routing) (groupedRows rows tenant span) (s := { tally with eraTotal := 0 })
    (fun tally _ group _ => ⟨trivial, fun _ => eraTotal_countGroup routing tally group⟩) trivial
  refine ⟨hlength, ?_, ?_⟩
  · intro bucket
    rw [countGroups, hcount bucket,
      sum_groupedRows tenant (fun group => decide (routing.bucket (destinationKey group) = bucket))]
    cases bucket <;> rfl
  · rw [countGroups, htotal (), sum_groupedRows tenant (fun _ => true)]
    exact Nat.zero_add _

end DestinationTally

/-- The single-day destination counts, as counts of owned rows. -/
theorem getCheckinCountsByDestination_eq (localDate : Int) (routing : RoutingConfig) :
    (getCheckinCountsByDestination db tenant localDate zone routing).homeCount
        = dayOf db tenant zone (checkinsByDestination db.checkins) (checkinsByDestination db.checkinEvents)
            (inDestination routing .home) (inDestination routing .home) localDate
      ∧ (getCheckinCountsByDestination db tenant localDate zone routing).transitCounts
        = (List.range routing.transit.length).map (fun slot =>
            dayOf db tenant zone (checkinsByDestination db.checkins) (checkinsByDestination db.checkinEvents)
              (inDestination routing (.transit slot)) (inDestination routing (.transit slot)) localDate)
      ∧ (getCheckinCountsByDestination db tenant localDate zone routing).otherCount
        = dayOf db tenant zone (checkinsByDestination db.checkins) (checkinsByDestination db.checkinEvents)
            (inDestination routing .other) (inDestination routing .other) localDate := by
  have hempty : (DestinationTally.empty routing).transitCounts.length = routing.transit.length := by
    rw [DestinationTally.empty, List.length_replicate]
  obtain ⟨hv1, hcount1, -⟩ := DestinationTally.count_countGroups hempty tenant (checkinsByDestination db.checkins)
    (ownedOfDay db tenant localDate zone).v1
  obtain ⟨hv2, hcount2, -⟩ := DestinationTally.count_countGroups hv1 tenant (checkinsByDestination db.checkinEvents)
    (ownedOfDay db tenant localDate zone).v2
  have hcount : ∀ bucket, (countGroups routing (countGroups routing (DestinationTally.empty routing)
        (groupedRows (checkinsByDestination db.checkins) tenant (ownedOfDay db tenant localDate zone).v1))
        (groupedRows (checkinsByDestination db.checkinEvents) tenant (ownedOfDay db tenant localDate zone).v2)).count bucket
      = dayOf db tenant zone (checkinsByDestination db.checkins) (checkinsByDestination db.checkinEvents)
          (inDestination routing bucket) (inDestination routing bucket) localDate := by
    intro bucket
    have hzero : (DestinationTally.empty routing).count bucket = 0 := by
      cases bucket with
      | transit slot => exact getD_replicate_zero _ _
      | _ => rfl
    rw [hcount2, hcount1, hzero, spanCount_ownedOfDay_v1, spanCount_ownedOfDay_v2, Nat.zero_add]
    rfl
  refine ⟨hcount .home, ?_, hcount .other⟩
  exact eq_map_range hv2 fun slot _ => hcount (.transit slot)

namespace DestinationsByDay

/-- One entry per day, and one count per configured destination of each day. -/
structure Shape (routing : RoutingConfig) (n : Nat) (state : DestinationsByDay) : Prop where
  home : state.home.length = n
  transit : state.transit.length = n
  slots : ∀ counts ∈ state.transit, counts.length = routing.transit.length
  other : state.other.length = n

/-- The count of one bucket on one day. -/
def count (state : DestinationsByDay) (bucket : DestinationBucket) (day : Nat) : Nat :=
  match bucket with
  | .home => state.home.getD day 0
  | .transit slot => (state.transit.getD day []).getD slot 0
  | .other => state.other.getD day 0

theorem getD_modify_addTo {rows : List (List Nat)} {width day slot : Nat} (hrows : ∀ counts ∈ rows, counts.length = width)
    (hday : day < rows.length) (hslot : slot < width) (amount i j : Nat) :
    ((rows.modify day fun counts => addTo counts slot amount).getD i []).getD j 0
      = (rows.getD i []).getD j 0 + if day = i ∧ slot = j then amount else 0 := by
  rw [List.getD_eq_getElem?_getD (l := rows.modify _ _), List.getElem?_modify, List.getD_eq_getElem?_getD (l := rows)]
  by_cases hi : day = i
  · subst hi
    have hwidth := hrows _ (List.getElem_mem hday)
    rw [List.getElem?_eq_getElem hday]
    simp only [if_true, Option.map_eq_map, Option.map_some, Option.getD_some, true_and]
    exact getD_addTo (hwidth ▸ hslot) amount j
  · simp [hi]

theorem forall_mem_modify_addTo {rows : List (List Nat)} {width : Nat} (hrows : ∀ counts ∈ rows, counts.length = width)
    (day slot amount : Nat) : ∀ counts ∈ rows.modify day fun counts => addTo counts slot amount, counts.length = width := by
  intro counts hcounts
  obtain ⟨i, hi, rfl⟩ := List.mem_iff_getElem.1 hcounts
  rw [List.length_modify] at hi
  rw [List.getElem_modify]
  split
  · rw [length_addTo]
    exact hrows _ (List.getElem_mem hi)
  · exact hrows _ (List.getElem_mem hi)

theorem count_addDestinationDay {routing : RoutingConfig} {n : Nat} {state : DestinationsByDay}
    (hshape : Shape routing n state) {bucket : DestinationBucket}
    (hbucket : ∀ slot, bucket = .transit slot → slot < routing.transit.length) {entry : Nat × Nat} (hday : entry.2 < n) :
    Shape routing n (addDestinationDay bucket state entry)
      ∧ ∀ place day, (addDestinationDay bucket state entry).count place day
          = state.count place day + if bucket = place ∧ entry.2 = day then entry.1 else 0 := by
  obtain ⟨hhome, htransit, hslots, hother⟩ := hshape
  unfold addDestinationDay
  by_cases hzero : entry.1 = 0
  · rw [if_pos hzero]
    refine ⟨⟨hhome, htransit, hslots, hother⟩, ?_⟩
    intro place day
    rw [hzero, ite_self, Nat.add_zero]
  · rw [if_neg hzero]
    cases bucket with
    | home =>
        refine ⟨⟨(length_addTo ..).trans hhome, htransit, hslots, hother⟩, ?_⟩
        intro place day
        cases place with
        | home => simp only [count, getD_addTo (hhome.symm ▸ hday), true_and]
        | _ => simp [count]
    | transit slot =>
        refine ⟨⟨hhome, (List.length_modify ..).trans htransit, forall_mem_modify_addTo hslots _ _ _, hother⟩, ?_⟩
        intro place day
        cases place with
        | transit other =>
            simp only [count, getD_modify_addTo hslots (htransit.symm ▸ hday) (hbucket slot rfl),
              DestinationBucket.transit.injEq, and_comm]
        | _ => simp [count]
    | other =>
        refine ⟨⟨hhome, htransit, hslots, (length_addTo ..).trans hother⟩, ?_⟩
        intro place day
        cases place with
        | other => simp only [count, getD_addTo (hother.symm ▸ hday), true_and]
        | _ => simp [count]

end DestinationsByDay

/-! ### Check-ins by day and destination -/

section Destinations

variable {zone} (hzone : zone.OrderedMidnights) (fromDate : Int) {n : Nat} (routing : RoutingConfig)

theorem addDestinationGroup_spec {state : DestinationsByDay} (hshape : DestinationsByDay.Shape routing n state)
    {row : Option Text × List Nat} (hlength : row.2.length = n) :
    ∃ next, addDestinationGroup (windowOf db tenant zone fromDate n) routing state row = .ok next
      ∧ DestinationsByDay.Shape routing n next
      ∧ ∀ place : DestinationBucket × Fin n, next.count place.1 place.2 = state.count place.1 place.2
          + if decide (routing.bucket (destinationKey row.1) = place.1) then row.2.getD place.2 0 else 0 := by
  have hslot : ∀ slot, routing.bucket (destinationKey row.1) = .transit slot → slot < routing.transit.length :=
    fun slot h => RoutingConfig.slot_lt_of_bucket h
  obtain ⟨hshape', hcount⟩ := foldl_adds (DestinationsByDay.Shape routing n)
    (fun (place : DestinationBucket × Nat) state => state.count place.1 place.2)
    (fun place entry =>
      if routing.bucket (destinationKey row.1) = place.1 ∧ entry.2 = place.2 then entry.1 else 0)
    (addDestinationDay (routing.bucket (destinationKey row.1))) row.2.zipIdx
    (fun state hshape entry hentry => by
      have hday := List.snd_lt_of_mem_zipIdx hentry
      have hadd := DestinationsByDay.count_addDestinationDay hshape hslot (by omega : entry.2 < n)
      exact ⟨hadd.1, fun place => hadd.2 place.1 place.2⟩) hshape
  refine ⟨_, ?_, hshape', ?_⟩
  · rw [addDestinationGroup, localRange_windowOf, days_rangeOf, bucketCounts, if_neg (not_not.2 hlength)]
    rfl
  · rintro ⟨place, day⟩
    rw [hcount (place, day)]
    congr 1
    by_cases hplace : routing.bucket (destinationKey row.1) = place
    · simp only [hplace, true_and, decide_true, if_true]
      simpa only [Nat.zero_add] using sum_zipIdx row.2 0 day
    · simp only [hplace, false_and, decide_false, if_false, Bool.false_eq_true]
      exact sum_map_eq_zero fun _ _ => rfl

include hzone in
/-- One statement of the grouped count, of the rows as they are then, in a window that was cut before. -/
theorem addDestinationEra_spec (cut : Database) (hn : 0 < n) {v1Source v2Source : Source} {era : Source × (Int × Int) × List Int}
    (hera : era ∈ eras (windowOf cut tenant zone fromDate n) v1Source v2Source) {state : DestinationsByDay}
    (hshape : DestinationsByDay.Shape routing n state) :
    ∃ next, addDestinationEra db tenant (windowOf cut tenant zone fromDate n) routing state era = .ok next
      ∧ DestinationsByDay.Shape routing n next
      ∧ ∀ place : DestinationBucket × Fin n, next.count place.1 place.2 = state.count place.1 place.2
          + spanCount tenant (fun row => inDestination routing place.1 row && inBucket era.2.2 place.2 row)
              (era.1.rows db) (some era.2.1) := by
  obtain ⟨hfits, -⟩ := fits_of_mem_eras cut tenant hzone fromDate n hn hera
  obtain ⟨rows, hrows, hlengths, -, htotal⟩ := executeBucketCount_spec db tenant era.1 hfits
  have hgroup : ∀ state : DestinationsByDay, DestinationsByDay.Shape routing n state → ∀ row ∈ rows,
      ∃ next, addDestinationGroup (windowOf cut tenant zone fromDate n) routing state row = .ok next
        ∧ DestinationsByDay.Shape routing n next
        ∧ ∀ place : DestinationBucket × Fin n, next.count place.1 place.2 = state.count place.1 place.2
            + if decide (routing.bucket (destinationKey row.1) = place.1) then row.2.getD place.2 0 else 0 :=
    fun state hshape row hrow => addDestinationGroup_spec cut tenant fromDate routing hshape (hlengths row hrow)
  obtain ⟨next, hfold, hshape', hcount⟩ := foldlM_adds hgroup hshape
  refine ⟨next, ?_, hshape', ?_⟩
  · rw [addDestinationEra, hrows]
    exact hfold
  · intro place
    rw [hcount place]
    congr 1
    exact htotal (fun group => decide (routing.bucket (destinationKey group) = place.1)) place.2 place.2.2

/-- The counts before the first statement. -/
theorem DestinationsByDay.shape_start :
    DestinationsByDay.Shape routing n
      { home := List.replicate n 0
        transit := List.replicate n (List.replicate routing.transit.length 0)
        other := List.replicate n 0 } := by
  refine ⟨List.length_replicate, List.length_replicate, ?_, List.length_replicate⟩
  intro counts hcounts
  rw [List.eq_of_mem_replicate hcounts, List.length_replicate]

include hzone in
/-- The destination counts of every day of the range. -/
theorem getCheckinDestinationCountsByDay_windowOf (hn : 0 < n) :
    getCheckinDestinationCountsByDay db tenant (windowOf db tenant zone fromDate n) routing
      = .ok ((List.range n).map fun (i : Nat) =>
          let count := fun bucket =>
            dayOf db tenant zone (checkinsByDestination db.checkins) (checkinsByDestination db.checkinEvents)
              (inDestination routing bucket) (inDestination routing bucket) (fromDate + i)
          { homeCount := count .home
            transitCounts := (List.range routing.transit.length).map fun slot => count (.transit slot)
            otherCount := count .other }) := by
  have hstep : ∀ state : DestinationsByDay, DestinationsByDay.Shape routing n state →
      ∀ era ∈ eras (windowOf db tenant zone fromDate n) .v1CheckinsByDestination .v2CheckinsByDestination, _ :=
    fun state hshape era hera => addDestinationEra_spec db tenant hzone fromDate routing db hn hera hshape
  obtain ⟨state, hfold, hshape, hcount⟩ := foldlM_adds hstep (DestinationsByDay.shape_start routing)
  have hdays : ∀ bucket, ∀ i < n, state.count bucket i
      = dayOf db tenant zone (checkinsByDestination db.checkins) (checkinsByDestination db.checkinEvents)
          (inDestination routing bucket) (inDestination routing bucket) (fromDate + i) := by
    intro bucket i hi
    have hzero : (DestinationsByDay.mk (List.replicate n 0) (List.replicate n (List.replicate routing.transit.length 0))
        (List.replicate n 0)).count bucket i = 0 := by
      cases bucket with
      | transit slot =>
          have hrow : (List.replicate n (List.replicate routing.transit.length 0)).getD i []
              = List.replicate routing.transit.length 0 := by
            rw [List.getD_eq_getElem _ _ (by rw [List.length_replicate]; exact hi), List.getElem_replicate]
          exact (congrArg (fun counts : List Nat => counts.getD slot 0) hrow).trans (getD_replicate_zero _ _)
      | _ => exact getD_replicate_zero _ _
    rw [hcount (bucket, ⟨i, hi⟩), hzero, Nat.zero_add]
    exact sum_eras_day db tenant hzone fromDate n (fun _ => inDestination routing bucket) rfl rfl hi
  rw [getCheckinDestinationCountsByDay, localRange_windowOf, days_rangeOf, hfold]
  refine congrArg Except.ok (List.map_congr_left ?_)
  intro i hi
  have hlt := List.mem_range.1 hi
  simp only [DestinationCounts.mk.injEq]
  refine ⟨hdays .home i hlt, ?_, hdays .other i hlt⟩
  apply eq_map_range
  · rw [List.getD_eq_getElem _ _ (hshape.transit.symm ▸ hlt)]
    exact hshape.slots _ (List.getElem_mem _)
  · intro slot _
    exact hdays (.transit slot) i hlt

end Destinations

/-! ### Rejects by reason -/

/-- Rows that count under the reason of a slot. -/
def inReason (slot : Nat) (aware : Bool) (row : CountedRow) : Bool :=
  decide (reasonSlot (reasonOfGroup aware row.group) = slot)

/-- Current rows whose stored class is no reason code. -/
def unexpectedClass (aware : Bool) (row : CountedRow) : Bool := aware && (reasonForErrorClass row.group).isNone

theorem countOwned_false (owns : CountedRow → Bool) (rows : List CountedRow) (start stop : Int) :
    countOwned owns (fun _ => false) rows start stop = 0 := by
  apply countP_eq_zero_of_false
  intro row _
  rw [Bool.and_false, Bool.and_false]

/-- The single-day reason counts, as counts of owned rows. -/
theorem getRejectCountsByReason_eq (localDate : Int) :
    (getRejectCountsByReason db tenant localDate zone).counts
        = (List.range rejectReasons.length).map (fun slot =>
            dayOf db tenant zone (rejectsByReason db.rejects) (rejectsByReason db.rejectEvents)
              (inReason slot false) (inReason slot true) localDate)
      ∧ (getRejectCountsByReason db tenant localDate zone).unexpectedClassRows
        = dayOf db tenant zone (rejectsByReason db.rejects) (rejectsByReason db.rejectEvents)
            (unexpectedClass false) (unexpectedClass true) localDate := by
  have hstart : (List.replicate rejectReasons.length 0).length = rejectReasons.length := List.length_replicate
  obtain ⟨hlength1, hcount1⟩ := foldl_adds (fun counts => counts.length = rejectReasons.length)
    (fun slot (counts : List Nat) => counts.getD slot 0)
    (fun slot group => if decide (reasonSlot (reasonOfGroup false group.1) = slot) then group.2 else 0)
    addMessageGroup
    (groupedRows (rejectsByReason db.rejects) tenant (ownedOfDay db tenant localDate zone).v1)
    (fun counts hlength group _ => by
      refine ⟨(length_addTo ..).trans hlength, ?_⟩
      intro slot
      simp only [addMessageGroup, getD_addTo (hlength.symm ▸ reasonSlot_lt _), reasonOfGroup, Bool.false_eq_true, if_false,
        decide_eq_true_eq]) hstart
  obtain ⟨hlength2, hcount2⟩ := foldl_adds (fun state => state.1.length = rejectReasons.length)
    (fun slot (state : List Nat × Nat) => state.1.getD slot 0)
    (fun slot group => if decide (reasonSlot (reasonOfGroup true group.1) = slot) then group.2 else 0)
    addClassGroup (s := (List.replicate rejectReasons.length 0, 0))
    (groupedRows (rejectsByReason db.rejectEvents) tenant (ownedOfDay db tenant localDate zone).v2)
    (fun state hlength group _ => by
      refine ⟨(length_addTo ..).trans hlength, ?_⟩
      intro slot
      simp only [addClassGroup, getD_addTo (hlength.symm ▸ reasonSlot_lt _), reasonOfGroup, if_true,
        decide_eq_true_eq]) hstart
  obtain ⟨-, hunexpected⟩ := foldl_adds (fun _ => True) (fun (_ : Unit) (state : List Nat × Nat) => state.2)
    (fun _ group => if (reasonForErrorClass group.1).isNone then group.2 else 0)
    addClassGroup (s := (List.replicate rejectReasons.length 0, 0))
    (groupedRows (rejectsByReason db.rejectEvents) tenant (ownedOfDay db tenant localDate zone).v2)
    (fun state _ group _ => by
      refine ⟨trivial, ?_⟩
      intro _
      simp only [addClassGroup]
      split <;> rfl) trivial
  constructor
  · apply eq_map_range
    · rw [getRejectCountsByReason, List.length_zipWith, hlength1, hlength2, Nat.min_self]
    · intro slot _
      rw [getRejectCountsByReason, getD_zipWith_add (hlength1.trans hlength2.symm), hcount1 slot, hcount2 slot,
        sum_groupedRows tenant (fun group => decide (reasonSlot (reasonOfGroup false group) = slot)),
        sum_groupedRows tenant (fun group => decide (reasonSlot (reasonOfGroup true group) = slot)),
        spanCount_ownedOfDay_v1, spanCount_ownedOfDay_v2, getD_replicate_zero, Nat.zero_add, Nat.zero_add]
      rfl
  · rw [getRejectCountsByReason, hunexpected (),
      sum_groupedRows tenant (fun group => (reasonForErrorClass group).isNone), spanCount_ownedOfDay_v2, Nat.zero_add]
    exact (Nat.zero_add _).symm.trans (congrArg (· + _) (countOwned_false ..).symm)

/-! ### Rejects by day and reason -/

/-- A figure of `RejectReasonRangeCounts`. -/
inductive ReasonFigure (n : Nat) where
  | reason (slot : Nat)
  | day (i : Fin n)
  | unexpected

namespace ReasonFigure

variable {n : Nat}

def value (state : RejectReasonRangeCounts) : ReasonFigure n → Nat
  | reason slot => state.reasonCounts.getD slot 0
  | day i => state.dayCounts.getD i 0
  | unexpected => state.unexpectedClassRows

/-- What one group of an era adds to a figure. -/
def weight (aware : Bool) (row : Option Text × List Nat) : ReasonFigure n → Nat
  | reason slot => if decide (reasonSlot (reasonOfGroup aware row.1) = slot) then row.2.sum else 0
  | day i => row.2.getD i 0
  | unexpected => if aware && (reasonForErrorClass row.1).isNone then row.2.sum else 0

/-- The rows that a figure counts, on the days it covers. -/
def keep : ReasonFigure n → Bool → CountedRow → Bool
  | reason slot => inReason slot
  | day _ => fun _ => anyRow
  | unexpected => unexpectedClass

def covered : ReasonFigure n → List Nat
  | day i => [i]
  | _ => List.range n

theorem covered_lt {figure : ReasonFigure n} {i : Nat} (hi : i ∈ figure.covered) : i < n := by
  cases figure with
  | day j => exact (List.mem_singleton.1 hi).symm ▸ j.2
  | _ => exact List.mem_range.1 hi

end ReasonFigure

/-- The whole counts of the groups that satisfy `p`, interval by interval. -/
theorem sum_groupTotal (p : Option Text → Bool) {rows : List (Option Text × List Nat)} {n : Nat}
    (hlengths : ∀ row ∈ rows, row.2.length = n) :
    (rows.map fun row => if p row.1 then row.2.sum else 0).sum
      = ((List.range n).map fun i => groupTotal p i rows).sum := by
  simp only [groupTotal, entriesTotal]
  rw [sum_map_comm]
  refine congrArg List.sum (List.map_congr_left ?_)
  intro row hrow
  split
  · exact sum_eq_sum_getD (hlengths row hrow)
  · exact (sum_map_eq_zero fun _ _ => rfl).symm

theorem addReasonGroup_spec {zone : Zone} (fromDate : Int) {n : Nat} {aware : Bool} {state : RejectReasonRangeCounts}
    (hreasons : state.reasonCounts.length = rejectReasons.length) (hdays : state.dayCounts.length = n)
    {row : Option Text × List Nat} (hlength : row.2.length = n) :
    ∃ next, addReasonGroup (windowOf db tenant zone fromDate n) aware state row = .ok next
      ∧ (next.reasonCounts.length = rejectReasons.length ∧ next.dayCounts.length = n)
      ∧ ∀ figure : ReasonFigure n, figure.value next = figure.value state + figure.weight aware row := by
  refine ⟨⟨addTo state.reasonCounts (reasonSlot (reasonOfGroup aware row.1)) row.2.sum,
    state.dayCounts.zipWith (· + ·) row.2,
    state.unexpectedClassRows + unexpectedRows aware row.1 row.2.sum⟩, ?_, ?_, ?_⟩
  · rw [addReasonGroup, localRange_windowOf, days_rangeOf, bucketCounts, if_neg (not_not.2 hlength)]
    rfl
  · refine ⟨(length_addTo ..).trans hreasons, ?_⟩
    rw [List.length_zipWith, hdays, hlength, Nat.min_self]
  · intro figure
    cases figure with
    | reason slot =>
        simp only [ReasonFigure.value, ReasonFigure.weight, getD_addTo (hreasons.symm ▸ reasonSlot_lt _),
          decide_eq_true_eq]
    | day i => exact getD_zipWith_add (hdays.trans hlength.symm) i
    | unexpected => rfl

variable {zone} in
/-- The reason counts of the range are the sums of the days' counts. -/
theorem getRejectReasonCountsByDay_windowOf (hzone : zone.OrderedMidnights) (fromDate : Int) {n : Nat} (hn : 0 < n) :
    ∃ counts, getRejectReasonCountsByDay db tenant (windowOf db tenant zone fromDate n) = .ok counts
      ∧ counts.reasonCounts.length = rejectReasons.length ∧ counts.dayCounts.length = n
      ∧ ∀ figure : ReasonFigure n, figure.value counts
          = (figure.covered.map fun (i : Nat) =>
              dayOf db tenant zone (rejectsByReason db.rejects) (rejectsByReason db.rejectEvents)
                (figure.keep false) (figure.keep true) (fromDate + i)).sum := by
  have hstep : ∀ state : RejectReasonRangeCounts,
      (state.reasonCounts.length = rejectReasons.length ∧ state.dayCounts.length = n) →
      ∀ era ∈ eras (windowOf db tenant zone fromDate n) .v1RejectsByMessage .v2RejectsByClass,
        ∃ next, addReasonEra db tenant (windowOf db tenant zone fromDate n) state era = .ok next
          ∧ (next.reasonCounts.length = rejectReasons.length ∧ next.dayCounts.length = n)
          ∧ ∀ figure : ReasonFigure n, figure.value next = figure.value state
              + (figure.covered.map fun i => spanCount tenant
                  (fun row => figure.keep era.1.aware row && inBucket era.2.2 i row) (era.1.rows db) (some era.2.1)).sum := by
    intro state hstate era hera
    obtain ⟨hfits, -⟩ := fits_of_mem_eras db tenant hzone fromDate n hn hera
    obtain ⟨rows, hrows, hlengths, -, htotal⟩ := executeBucketCount_spec db tenant era.1 hfits
    have hgroup : ∀ state : RejectReasonRangeCounts,
        (state.reasonCounts.length = rejectReasons.length ∧ state.dayCounts.length = n) → ∀ row ∈ rows,
          ∃ next, addReasonGroup (windowOf db tenant zone fromDate n) era.1.aware state row = .ok next
            ∧ (next.reasonCounts.length = rejectReasons.length ∧ next.dayCounts.length = n)
            ∧ ∀ figure : ReasonFigure n, figure.value next = figure.value state + figure.weight era.1.aware row :=
      fun state hstate row hrow => addReasonGroup_spec db tenant fromDate hstate.1 hstate.2 (hlengths row hrow)
    obtain ⟨next, hfold, hnext, hvalue⟩ := foldlM_adds hgroup hstate
    refine ⟨next, ?_, hnext, ?_⟩
    · rw [addReasonEra, hrows]
      exact hfold
    · intro figure
      rw [hvalue figure]
      congr 1
      cases figure with
      | reason slot =>
          refine (sum_groupTotal (fun group => decide (reasonSlot (reasonOfGroup era.1.aware group) = slot)) hlengths).trans
            (congrArg List.sum (List.map_congr_left ?_))
          intro i hi
          exact htotal _ i (List.mem_range.1 hi)
      | day i =>
          have hday := htotal (fun _ => true) i i.2
          simp only [groupTotal, entriesTotal, if_true] at hday
          rw [ReasonFigure.covered, List.map_singleton, List.sum_singleton]
          exact hday
      | unexpected =>
          refine (sum_groupTotal (fun group => era.1.aware && (reasonForErrorClass group).isNone) hlengths).trans
            (congrArg List.sum (List.map_congr_left ?_))
          intro i hi
          exact htotal _ i (List.mem_range.1 hi)
  obtain ⟨counts, hfold, hshape, hvalue⟩ := foldlM_adds hstep
    (s := ⟨List.replicate rejectReasons.length 0, List.replicate n 0, 0⟩) ⟨List.length_replicate, List.length_replicate⟩
  refine ⟨counts, ?_, hshape.1, hshape.2, ?_⟩
  · rw [getRejectReasonCountsByDay, localRange_windowOf, days_rangeOf, hfold]
  · intro figure
    have hzero : figure.value ⟨List.replicate rejectReasons.length 0, List.replicate n 0, 0⟩ = 0 := by
      cases figure with
      | unexpected => rfl
      | _ => exact getD_replicate_zero _ _
    rw [hvalue figure, hzero, Nat.zero_add, sum_map_comm]
    refine congrArg List.sum (List.map_congr_left ?_)
    intro i hi
    exact sum_eras_day db tenant hzone fromDate n figure.keep rfl rfl (ReasonFigure.covered_lt hi)

end SortView
