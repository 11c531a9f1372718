import SortView.Services.ReportAgreement

/-!
# The hours of a range

The hours of a day tile the day, so the hours of a stretch of days are one run of boundaries, and hour
`h` of day `d` of the stretch is bucket `24 * d + h`.
-/

namespace SortView

open PyText Buckets

/-! ### The boundaries of a day's hours -/

/-- Twenty-five increasing boundaries from the start of each day to the start of the next. -/
structure HourTiling (hours : Int → List Int) (start : Int → Int) : Prop where
  length : ∀ localDate, (hours localDate).length = wallClockHoursPerDay + 1
  sorted : ∀ localDate, (hours localDate).Pairwise (· ≤ ·)
  first : ∀ localDate, (hours localDate).getD 0 0 = start localDate
  last : ∀ localDate, (hours localDate).getD wallClockHoursPerDay 0 = start (localDate + 1)

def v1Hours (zone : Zone) (localDate : Int) : List Int := (localHourBoundaries localDate zone).v1BoundariesLocal

def v2Hours (zone : Zone) (localDate : Int) : List Int := (localHourBoundaries localDate zone).v2BoundariesUtc

theorem hourTiling_v1 (zone : Zone) : HourTiling (v1Hours zone) midnight where
  length localDate := by simp [v1Hours, localHourBoundaries]
  sorted localDate := by
    simp only [v1Hours, localHourBoundaries, localDayBounds]
    apply pairwise_map_range
    intro i j hij
    have hcast : (i : Int) ≤ j := Int.ofNat_le.2 hij
    simp only [hourLength]
    omega
  first localDate := by
    simp only [v1Hours, localHourBoundaries, localDayBounds]
    rw [getD_map_range _ (by decide)]
    simp
  last localDate := by
    simp only [v1Hours, localHourBoundaries, localDayBounds]
    rw [getD_map_range _ (by decide)]
    simp only [midnight, dayLength, hourLength, wallClockHoursPerDay]
    omega

theorem length_heldInstants (zone : Zone) (localDate dayEnd last : Int) (hours : List Nat) :
    (heldInstants zone localDate dayEnd last hours).length = hours.length := by
  induction hours generalizing last with
  | nil => rfl
  | cons hour hours ih => rw [heldInstants, List.length_cons, ih, List.length_cons]

/-- The held instants stay between the last one and the end of the day, in order. -/
theorem heldInstants_sorted (zone : Zone) (localDate : Int) {dayEnd last : Int} (hours : List Nat) (hlast : last ≤ dayEnd) :
    (heldInstants zone localDate dayEnd last hours).Pairwise (· ≤ ·)
      ∧ ∀ instant ∈ heldInstants zone localDate dayEnd last hours, last ≤ instant ∧ instant ≤ dayEnd := by
  induction hours generalizing last with
  | nil => exact ⟨List.Pairwise.nil, fun instant hmem => absurd hmem List.not_mem_nil⟩
  | cons hour hours ih =>
      have hnext : last ≤ min (max (zone.toUtc (midnight localDate + hour * hourLength)) last) dayEnd :=
        le_min (le_max_right _ _) hlast
      obtain ⟨hsorted, hbounds⟩ := ih (min_le_right (max (zone.toUtc (midnight localDate + hour * hourLength)) last) dayEnd)
      rw [heldInstants]
      refine ⟨List.pairwise_cons.2 ⟨fun instant hmem => (hbounds instant hmem).1, hsorted⟩, ?_⟩
      intro instant hmem
      rcases List.mem_cons.1 hmem with rfl | hmem
      · exact ⟨hnext, min_le_right _ _⟩
      · exact ⟨Int.le_trans hnext (hbounds instant hmem).1, (hbounds instant hmem).2⟩

theorem hourTiling_v2 {zone : Zone} (hzone : zone.OrderedMidnights) :
    HourTiling (v2Hours zone) (localMidnightUtc zone) where
  length localDate := by
    simp [v2Hours, localHourBoundaries, length_heldInstants, wallClockHoursPerDay]
  sorted localDate := by
    have hday : localMidnightUtc zone localDate ≤ localMidnightUtc zone (localDate + 1) := hzone (by omega)
    obtain ⟨hsorted, hbounds⟩ := heldInstants_sorted zone localDate (List.range' 1 (wallClockHoursPerDay - 1)) hday
    simp only [v2Hours, localHourBoundaries, localDayBounds]
    rw [List.pairwise_append, List.pairwise_cons]
    refine ⟨⟨fun instant hmem => (hbounds instant hmem).1, hsorted⟩, List.pairwise_singleton _ _, ?_⟩
    intro instant hmem other hother
    rw [List.mem_singleton.1 hother]
    rcases List.mem_cons.1 hmem with rfl | hmem
    · exact hday
    · exact (hbounds instant hmem).2
  first localDate := rfl
  last localDate := by
    have hlength : (localMidnightUtc zone localDate :: heldInstants zone localDate (localMidnightUtc zone (localDate + 1))
        (localMidnightUtc zone localDate) (List.range' 1 (wallClockHoursPerDay - 1))).length = wallClockHoursPerDay := by
      rw [List.length_cons, length_heldInstants, List.length_range']
      rfl
    simp only [v2Hours, localHourBoundaries, localDayBounds]
    rw [List.getD_eq_getElem?_getD, List.getElem?_append_right (Nat.le_of_eq hlength), hlength]
    rfl

/-! ### The boundaries of a stretch of days -/

/-- Boundary `i` of the hours of the days from `first` on. -/
def weekHour (hours : Int → List Int) (first : Int) (i : Nat) : Int :=
  (hours (first + (i / wallClockHoursPerDay : Nat))).getD (i % wallClockHoursPerDay) 0

namespace HourTiling

variable {hours : Int → List Int} {start : Int → Int}

theorem getD_le_getD_succ (htiling : HourTiling hours start) (localDate : Int) {h : Nat} (hh : h < wallClockHoursPerDay) :
    (hours localDate).getD h 0 ≤ (hours localDate).getD (h + 1) 0 := by
  have hlength := htiling.length localDate
  rw [List.getD_eq_getElem _ _ (by omega), List.getD_eq_getElem _ _ (by omega)]
  exact List.pairwise_iff_getElem.1 (htiling.sorted localDate) h (h + 1) _ _ (by omega)

/-- The boundary after hour `h` of day `d` closes that hour, also where the next day starts. -/
theorem weekHour_succ (htiling : HourTiling hours start) (first : Int) (d : Nat) {h : Nat} (hh : h < wallClockHoursPerDay) :
    weekHour hours first (wallClockHoursPerDay * d + h) = (hours (first + d)).getD h 0
      ∧ weekHour hours first (wallClockHoursPerDay * d + h + 1) = (hours (first + d)).getD (h + 1) 0 := by
  have hdiv : (wallClockHoursPerDay * d + h) / wallClockHoursPerDay = d := by
    simp only [wallClockHoursPerDay] at *
    omega
  have hmod : (wallClockHoursPerDay * d + h) % wallClockHoursPerDay = h := by
    simp only [wallClockHoursPerDay] at *
    omega
  refine ⟨by rw [weekHour, hdiv, hmod], ?_⟩
  by_cases hnext : h + 1 < wallClockHoursPerDay
  · have hdiv' : (wallClockHoursPerDay * d + h + 1) / wallClockHoursPerDay = d := by
      simp only [wallClockHoursPerDay] at *
      omega
    have hmod' : (wallClockHoursPerDay * d + h + 1) % wallClockHoursPerDay = h + 1 := by
      simp only [wallClockHoursPerDay] at *
      omega
    rw [weekHour, hdiv', hmod']
  · -- The last hour of a day ends where the next day starts.
    have hdiv' : (wallClockHoursPerDay * d + h + 1) / wallClockHoursPerDay = d + 1 := by
      simp only [wallClockHoursPerDay] at *
      omega
    have hmod' : (wallClockHoursPerDay * d + h + 1) % wallClockHoursPerDay = 0 := by
      simp only [wallClockHoursPerDay] at *
      omega
    have hlast : h + 1 = wallClockHoursPerDay := by omega
    rw [weekHour, hdiv', hmod', htiling.first, hlast, htiling.last, Nat.cast_add, Nat.cast_one, Int.add_assoc]

theorem monotone_weekHour (htiling : HourTiling hours start) (first : Int) : Monotone (weekHour hours first) := by
  apply monotone_nat_of_le_succ
  intro i
  have hh : i % wallClockHoursPerDay < wallClockHoursPerDay := Nat.mod_lt _ (by decide)
  have hboundaries := htiling.weekHour_succ first (i / wallClockHoursPerDay) hh
  rw [Nat.div_add_mod] at hboundaries
  rw [hboundaries.1, hboundaries.2]
  exact htiling.getD_le_getD_succ _ hh

theorem flatMap_take (htiling : HourTiling hours start) (first : Int) (m : Nat) :
    ((List.range m).map fun (k : Nat) => hours (first + k)).flatMap (·.take wallClockHoursPerDay)
      = (List.range (wallClockHoursPerDay * m)).map (weekHour hours first) := by
  induction m with
  | zero => rfl
  | succ m ih =>
      rw [List.range_succ, List.map_append, List.flatMap_append, ih, List.map_singleton, List.flatMap_singleton,
        Nat.mul_succ, List.range_add, List.map_append]
      congr 1
      have hlength := htiling.length (first + m)
      apply List.ext_getElem
      · rw [List.length_take, List.length_map, List.length_map, List.length_range]
        omega
      · intro h hleft hright
        rw [List.length_map, List.length_map, List.length_range] at hright
        rw [List.getElem_take, List.getElem_map, List.getElem_map, List.getElem_range,
          (htiling.weekHour_succ first m hright).1, List.getD_eq_getElem _ _ (by omega)]

/-- The boundaries of a stretch of days are one increasing run. -/
theorem weekBoundaries_eq (htiling : HourTiling hours start) (first : Int) {m : Nat} (hm : 0 < m) :
    weekBoundaries ((List.range m).map fun (k : Nat) => hours (first + k))
      = (List.range (wallClockHoursPerDay * m + 1)).map (weekHour hours first) := by
  obtain ⟨k, rfl⟩ := Nat.exists_eq_succ_of_ne_zero (Nat.pos_iff_ne_zero.1 hm)
  rw [weekBoundaries, htiling.flatMap_take, List.range_succ (n := wallClockHoursPerDay * (k + 1)), List.map_append]
  congr 1
  have hlength := htiling.length (first + k)
  have hlast : ((List.range (k + 1)).map fun (k : Nat) => hours (first + k)).getLast? = some (hours (first + k)) := by
    rw [List.range_succ, List.map_append, List.map_singleton, List.getLast?_concat]
  have hend : (hours (first + k)).getLast? = some (start (first + k + 1)) := by
    rw [List.getLast?_eq_getElem?, hlength, Nat.add_sub_cancel, List.getElem?_eq_getElem (by omega), ← htiling.last,
      List.getD_eq_getElem _ _ (by omega)]
  rw [hlast, Option.bind_some, hend, List.map_singleton]
  have hclose := (htiling.weekHour_succ first k (by decide : wallClockHoursPerDay - 1 < wallClockHoursPerDay)).2
  rw [show wallClockHoursPerDay - 1 + 1 = wallClockHoursPerDay from rfl, htiling.last,
    show wallClockHoursPerDay * k + (wallClockHoursPerDay - 1) + 1 = wallClockHoursPerDay * (k + 1) by
      simp only [wallClockHoursPerDay]; omega] at hclose
  rw [hclose]
  rfl

end HourTiling

/-! ### The hours of one day -/

theorem hourlyCounts_eq (tenant : ResolvedOperationalTenant) (rows : List CountedRow) {boundaries : List Int}
    (hlength : boundaries.length = wallClockHoursPerDay + 1) (span : Option (Int × Int)) :
    hourlyCounts rows tenant boundaries span
      = (List.range wallClockHoursPerDay).map fun h => spanCount tenant (inBucket boundaries h) rows span := by
  cases span with
  | none =>
      simp only [hourlyCounts, spanCount]
      rw [List.map_const', List.length_range]
  | some span =>
      apply List.ext_getElem
      · simp [hourlyCounts, hlength]
      · intro h hleft hright
        rw [List.length_map, List.length_range] at hright
        simp only [hourlyCounts, List.getElem_map, List.getElem_zip, List.getElem_tail, List.getElem_range, spanCount]
        rw [List.countP_filter]
        apply List.countP_congr
        intro row _
        rw [inBucket, List.getD_eq_getElem _ _ (by omega), List.getD_eq_getElem _ _ (by omega), Bool.and_comm]

theorem countOwned_inBucket (owns : CountedRow → Bool) (rows : List CountedRow) {boundaries : List Int} {i : Nat}
    {start stop : Int} (hlow : start ≤ boundaries.getD i 0) (hhigh : boundaries.getD (i + 1) 0 ≤ stop) :
    countOwned owns (inBucket boundaries i) rows start stop
      = countOwned owns anyRow rows (boundaries.getD i 0) (boundaries.getD (i + 1) 0) := by
  rw [← countOwned_inside owns anyRow rows hlow hhigh]
  rfl

namespace HourTiling

variable {hours : Int → List Int} {start : Int → Int}

theorem headD_eq (htiling : HourTiling hours start) (localDate : Int) : (hours localDate).headD 0 = start localDate := by
  have hlength := htiling.length localDate
  rw [← htiling.first localDate]
  cases hhours : hours localDate with
  | nil =>
      rw [hhours] at hlength
      cases hlength
  | cons boundary boundaries => rfl

theorem getLastD_eq (htiling : HourTiling hours start) (localDate : Int) :
    (hours localDate).getLastD 0 = start (localDate + 1) := by
  have hlength := htiling.length localDate
  rw [List.getLastD_eq_getLast?, List.getLast?_eq_getElem?, hlength, Nat.add_sub_cancel, ← htiling.last,
    List.getD_eq_getElem?_getD]

/-- Every hour of a day lies within the day. -/
theorem hour_bounds (htiling : HourTiling hours start) (localDate : Int) {h : Nat} (hh : h < wallClockHoursPerDay) :
    start localDate ≤ (hours localDate).getD h 0 ∧ (hours localDate).getD (h + 1) 0 ≤ start (localDate + 1) := by
  have hlength := htiling.length localDate
  have hle : ∀ {i j : Nat}, i ≤ j → j ≤ wallClockHoursPerDay → (hours localDate).getD i 0 ≤ (hours localDate).getD j 0 := by
    intro i j hij hj
    rcases Nat.eq_or_lt_of_le hij with rfl | hlt
    · exact Int.le_refl _
    · rw [List.getD_eq_getElem _ _ (by omega), List.getD_eq_getElem _ _ (by omega)]
      exact List.pairwise_iff_getElem.1 (htiling.sorted localDate) i j _ _ hlt
  rw [← htiling.first, ← htiling.last]
  exact ⟨hle (Nat.zero_le h) (by omega), hle (by omega) (Nat.le_refl _)⟩

end HourTiling

section Hours

variable (db : Database) (tenant : ResolvedOperationalTenant) {zone : Zone} (hzone : zone.OrderedMidnights)

/-- The check-ins of both eras in hour `h` of a day. -/
def hourOf (db : Database) (tenant : ResolvedOperationalTenant) (zone : Zone) (localDate : Int) (h : Nat) : Nat :=
  bothEras db tenant zone (plainCheckins db.checkins) (plainCheckins db.checkinEvents) anyRow anyRow
    ((v1Hours zone localDate).getD h 0) ((v1Hours zone localDate).getD (h + 1) 0)
    ((v2Hours zone localDate).getD h 0) ((v2Hours zone localDate).getD (h + 1) 0)

include hzone in
/-- The single-day hours, as counts of owned rows. -/
theorem getCheckinCountsByHour_counts (localDate : Int) :
    (Metrics.getCheckinCountsByHour db tenant localDate zone).counts
      = (List.range wallClockHoursPerDay).map (hourOf db tenant zone localDate) := by
  have hv1 := hourTiling_v1 zone
  have hv2 := hourTiling_v2 hzone
  have hv1Hours : (localHourBoundaries localDate zone).v1BoundariesLocal = v1Hours zone localDate := rfl
  have hv2Hours : (localHourBoundaries localDate zone).v2BoundariesUtc = v2Hours zone localDate := rfl
  rw [Metrics.getCheckinCountsByHour]
  simp only [hv1Hours, hv2Hours, hourlyCounts_eq tenant _ (hv1.length localDate), hourlyCounts_eq tenant _ (hv2.length localDate),
    hv1.headD_eq localDate, hv1.getLastD_eq localDate, hv2.headD_eq localDate, hv2.getLastD_eq localDate]
  rw [List.zipWith_map, List.zipWith_self]
  apply List.map_congr_left
  intro h hh
  have hlt := List.mem_range.1 hh
  rw [spanCount_ownedParts_v1, spanCount_ownedParts_v2,
    countOwned_inBucket _ _ (hv1.hour_bounds localDate hlt).1 (hv1.hour_bounds localDate hlt).2,
    countOwned_inBucket _ _ (hv2.hour_bounds localDate hlt).1 (hv2.hour_bounds localDate hlt).2]
  rfl

end Hours

/-! ### The hours of a stretch of days -/

/-- Hour `h` of day `i` as it stands in the counts. -/
def hourValue (byDay : List (List Nat)) (i h : Nat) : Nat := (byDay.getD i []).getD h 0

theorem hourValue_zero (dates : List Int) (i h : Nat) :
    hourValue (dates.map fun _ => List.replicate wallClockHoursPerDay 0) i h = 0 := by
  rw [hourValue, List.getD_eq_getElem?_getD (l := dates.map _), List.getElem?_map]
  cases dates[i]? with
  | none => rfl
  | some _ => exact getD_replicate_zero _ _

/-- `n` days of 24 hours. -/
def HourShape (n : Nat) (byDay : List (List Nat)) : Prop :=
  byDay.length = n ∧ ∀ hours ∈ byDay, hours.length = wallClockHoursPerDay

/-- Adding the counts of a stretch of days from `first` on, bucket by bucket. -/
theorem foldl_addHour {n first : Nat} {byDay : List (List Nat)} (hshape : HourShape n byDay) (counts : List Nat)
    (hlength : counts.length ≤ wallClockHoursPerDay * (n - first)) :
    HourShape n (counts.zipIdx.foldl (addHour first) byDay)
      ∧ ∀ i h, h < wallClockHoursPerDay → hourValue (counts.zipIdx.foldl (addHour first) byDay) i h
          = hourValue byDay i h
            + if first ≤ i then counts.getD (wallClockHoursPerDay * (i - first) + h) 0 else 0 := by
  obtain ⟨hshape', hvalue⟩ := foldl_adds (HourShape n) (fun (place : Nat × Nat) byDay => hourValue byDay place.1 place.2)
    (fun place entry =>
      if first + entry.2 / wallClockHoursPerDay = place.1 ∧ entry.2 % wallClockHoursPerDay = place.2 then entry.1 else 0)
    (addHour first) counts.zipIdx
    (fun byDay hshape entry hentry => by
      have hindex := List.snd_lt_of_mem_zipIdx hentry
      have hday : first + entry.2 / wallClockHoursPerDay < byDay.length := by
        rw [hshape.1]
        simp only [wallClockHoursPerDay] at *
        omega
      have hhour : entry.2 % wallClockHoursPerDay < wallClockHoursPerDay := Nat.mod_lt _ (by decide)
      refine ⟨⟨(List.length_modify ..).trans hshape.1, DestinationsByDay.forall_mem_modify_addTo hshape.2 _ _ _⟩, ?_⟩
      intro place
      exact DestinationsByDay.getD_modify_addTo hshape.2 hday hhour _ _ _) hshape
  refine ⟨hshape', ?_⟩
  intro i h hh
  rw [hvalue (i, h)]
  congr 1
  by_cases hfirst : first ≤ i
  · rw [if_pos hfirst, ← sum_zipIdx counts 0]
    refine congrArg List.sum (List.map_congr_left ?_)
    intro entry _
    apply if_congr _ rfl rfl
    show first + entry.2 / 24 = i ∧ entry.2 % 24 = h ↔ entry.2 = 0 + (24 * (i - first) + h)
    have hlt : h < 24 := hh
    omega
  · rw [if_neg hfirst]
    apply sum_map_eq_zero
    intro entry _
    apply if_neg
    show ¬ (first + entry.2 / 24 = i ∧ entry.2 % 24 = h)
    omega

/-- What a stretch of days adds to hour `h` of day `i`. -/
def weekWeight (db : Database) (tenant : ResolvedOperationalTenant) (i h : Nat)
    (week : Nat × Source × (Int × Int) × List Int) : Nat :=
  if week.1 ≤ i ∧ wallClockHoursPerDay * (i - week.1) + h < week.2.2.2.length - 1 then
    spanCount tenant (inBucket week.2.2.2 (wallClockHoursPerDay * (i - week.1) + h)) (week.2.1.rows db) (some week.2.2.1)
  else 0

section Stretches

variable (db : Database) (tenant : ResolvedOperationalTenant)

theorem addWeek_spec {n m : Nat} {week : Nat × Source × (Int × Int) × List Int}
    (hfits : Fits week.2.2.1 week.2.2.2 (wallClockHoursPerDay * m)) (hplain : week.2.1.grouped = false)
    (hinside : week.1 + m ≤ n) {byDay : List (List Nat)} (hshape : HourShape n byDay) :
    ∃ next, addWeek db tenant byDay week = .ok next ∧ HourShape n next
      ∧ ∀ place : Fin n × Fin wallClockHoursPerDay, hourValue next place.1 place.2
          = hourValue byDay place.1 place.2 + weekWeight db tenant place.1 place.2 week := by
  obtain ⟨counts, hexecute, hlength, hcounts⟩ := executeBucketCount_plain db tenant hplain hfits
  have hle : counts.length ≤ wallClockHoursPerDay * (n - week.1) := by
    rw [hlength]
    exact Nat.mul_le_mul_left _ (by omega)
  obtain ⟨hshape', hvalue⟩ := foldl_addHour hshape counts hle
  have hbuckets : week.2.2.2.length - 1 = wallClockHoursPerDay * m := by
    rw [hfits.length, Nat.add_sub_cancel]
  refine ⟨_, ?_, hshape', ?_⟩
  · rw [addWeek, hexecute]
    change (bucketCounts counts (week.2.2.2.length - 1) >>= fun counts =>
      Except.ok (counts.zipIdx.foldl (addHour week.1) byDay)) = _
    rw [bucketCounts, if_neg (not_not.2 (hlength.trans hbuckets.symm))]
    rfl
  · rintro ⟨i, h⟩
    rw [hvalue i h h.2, weekWeight, hbuckets]
    congr 1
    by_cases hfirst : week.1 ≤ i
    · by_cases hbucket : wallClockHoursPerDay * (i - week.1) + h < wallClockHoursPerDay * m
      · rw [if_pos hfirst, if_pos ⟨hfirst, hbucket⟩, hcounts _ hbucket]
      · rw [if_pos hfirst, if_neg (fun hboth => hbucket hboth.2), List.getD_eq_default _ _ (by omega)]
    · rw [if_neg hfirst, if_neg (fun hboth => hfirst hboth.1)]

/-- A stretch that is cut out of an era's span counts the era's rows of each of its hours. -/
theorem sum_weekOfEra {boundary : Nat → Int} (hmono : Monotone boundary) (first buckets i h : Nat) (source : Source)
    (span : Option (Int × Int)) :
    ((weekOfEra first source span ((List.range (buckets + 1)).map boundary)).map (weekWeight db tenant i h)).sum
      = if first ≤ i ∧ wallClockHoursPerDay * (i - first) + h < buckets then
          spanCount tenant (fun row => decide (boundary (wallClockHoursPerDay * (i - first) + h) ≤ row.eventTime
              ∧ row.eventTime < boundary (wallClockHoursPerDay * (i - first) + h + 1))) (source.rows db) span
        else 0 := by
  cases span with
  | none =>
      rw [weekOfEra]
      split <;> rfl
  | some span =>
      have hlist : ((weekOfEra first source (some span) ((List.range (buckets + 1)).map boundary)).map
            (weekWeight db tenant i h)).sum
          = if first ≤ i ∧ wallClockHoursPerDay * (i - first) + h < buckets then
              spanCount tenant (inBucket ((List.range (buckets + 1)).map boundary) (wallClockHoursPerDay * (i - first) + h))
                (source.rows db) (nonEmptySpan (max span.1 (boundary 0)) (min span.2 (boundary buckets)))
            else 0 := by
        rw [weekOfEra, headD_map_range, getLastD_map_range]
        by_cases hempty : min span.2 (boundary buckets) ≤ max span.1 (boundary 0)
        · rw [if_pos hempty, nonEmptySpan, if_neg (not_lt.2 hempty)]
          split <;> rfl
        · rw [if_neg hempty, nonEmptySpan, if_pos (not_le.1 hempty), List.map_singleton, List.sum_singleton, weekWeight]
          simp only [List.length_map, List.length_range, Nat.add_sub_cancel]
      rw [hlist]
      split
      · next hinside =>
        rw [spanCount_nonEmptySpan]
        apply List.countP_congr
        intro row _
        have hlow := hmono (Nat.zero_le (wallClockHoursPerDay * (i - first) + h))
        have hhigh := hmono (Nat.succ_le_of_lt hinside.2)
        rw [Nat.succ_eq_add_one] at hhigh
        simp only [inBucket, getD_map_range _ (by omega : wallClockHoursPerDay * (i - first) + h < buckets + 1),
          getD_map_range _ (by omega : wallClockHoursPerDay * (i - first) + h + 1 < buckets + 1), CountedRow.inScope,
          Bool.and_eq_true, decide_eq_true_eq]
        constructor
        · rintro ⟨⟨_, htenant⟩, hbucket⟩
          exact ⟨⟨by omega, htenant⟩, hbucket⟩
        · rintro ⟨⟨_, htenant⟩, hbucket⟩
          exact ⟨⟨by omega, htenant⟩, hbucket⟩
      · rfl

end Stretches

/-! ### The hours of every day of the range -/

section Range

variable (db : Database) (tenant : ResolvedOperationalTenant) {zone : Zone} (hzone : zone.OrderedMidnights)
  (fromDate : Int) {n : Nat}

/-- How many days a stretch has. -/
def stretchDays (n stretch : Nat) : Nat :=
  min hourBucketDaysPerStatement (n - stretch * hourBucketDaysPerStatement)

theorem stretchDays_pos {stretch : Nat} (hstretch : stretch < Slices.sliceCount n hourBucketDaysPerStatement) :
    0 < stretchDays n stretch := by
  have hlt := Slices.mul_lt_of_lt_sliceCount hstretch
  simp only [stretchDays, hourBucketDaysPerStatement] at *
  omega

/-- The boundaries of one era's hours in a stretch. -/
theorem weekBoundaries_slice {hours : Int → List Int} {start : Int → Int} (htiling : HourTiling hours start)
    (project : LocalHourBoundaries → List Int)
    (hproject : ∀ localDate, project (localHourBoundaries localDate zone) = hours localDate) {stretch : Nat}
    (hstretch : stretch < Slices.sliceCount n hourBucketDaysPerStatement) :
    weekBoundaries ((Slices.slice ((rangeOf zone fromDate n).dates.map fun day => localHourBoundaries day zone)
        hourBucketDaysPerStatement stretch).map project)
      = (List.range (wallClockHoursPerDay * stretchDays n stretch + 1)).map
          (weekHour hours (fromDate + (stretch * hourBucketDaysPerStatement : Nat))) := by
  rw [← htiling.weekBoundaries_eq _ (stretchDays_pos hstretch)]
  congr 1
  simp only [rangeOf, List.map_map]
  rw [Slices.slice_map_range, List.map_map]
  apply List.map_congr_left
  intro k _
  simp only [Function.comp_apply, hproject, Nat.cast_add, Int.add_assoc]

/-- Day `i` is in stretch `i / 366` and in no other. -/
theorem mem_stretch_iff {i h stretch : Nat} (hi : i < n) (hh : h < wallClockHoursPerDay) :
    (stretch * hourBucketDaysPerStatement ≤ i
        ∧ wallClockHoursPerDay * (i - stretch * hourBucketDaysPerStatement) + h
          < wallClockHoursPerDay * stretchDays n stretch)
      ↔ stretch = i / hourBucketDaysPerStatement := by
  simp only [stretchDays, hourBucketDaysPerStatement, wallClockHoursPerDay] at *
  omega

/-- Hour `h` of day `i` among the boundaries of its stretch. -/
theorem weekHour_day {hours : Int → List Int} {start : Int → Int} (htiling : HourTiling hours start) {i h first : Nat}
    (hfirst : first ≤ i) (hh : h < wallClockHoursPerDay) :
    weekHour hours (fromDate + first) (wallClockHoursPerDay * (i - first) + h) = (hours (fromDate + i)).getD h 0
      ∧ weekHour hours (fromDate + first) (wallClockHoursPerDay * (i - first) + h + 1)
        = (hours (fromDate + i)).getD (h + 1) 0 := by
  have hday : fromDate + (first : Int) + ((i - first : Nat) : Int) = fromDate + i := by omega
  have hboundaries := htiling.weekHour_succ (fromDate + first) (i - first) hh
  rw [hday] at hboundaries
  exact hboundaries

/-- One era of the hourly statements: hour `h` of day `i` is counted in one stretch, as the window owns it. -/
theorem sum_stretches {hours : Int → List Int} {start : Int → Int} (htiling : HourTiling hours start) (source : Source)
    (span : Option (Int × Int)) {i h : Nat} (hi : i < n) (hh : h < wallClockHoursPerDay) :
    ((List.range (Slices.sliceCount n hourBucketDaysPerStatement)).map fun stretch =>
        ((weekOfEra (stretch * hourBucketDaysPerStatement) source span
          ((List.range (wallClockHoursPerDay * stretchDays n stretch + 1)).map
            (weekHour hours (fromDate + (stretch * hourBucketDaysPerStatement : Nat))))).map
          (weekWeight db tenant i h)).sum).sum
      = spanCount tenant (inBucket (hours (fromDate + i)) h) (source.rows db) span := by
  have hstretch : ∀ stretch, ((weekOfEra (stretch * hourBucketDaysPerStatement) source span
          ((List.range (wallClockHoursPerDay * stretchDays n stretch + 1)).map
            (weekHour hours (fromDate + (stretch * hourBucketDaysPerStatement : Nat))))).map
          (weekWeight db tenant i h)).sum
      = if stretch = i / hourBucketDaysPerStatement then
          spanCount tenant (inBucket (hours (fromDate + i)) h) (source.rows db) span else 0 := by
    intro stretch
    rw [sum_weekOfEra db tenant (htiling.monotone_weekHour _)]
    by_cases hmem : stretch = i / hourBucketDaysPerStatement
    · have hinside := (mem_stretch_iff hi hh).2 hmem
      have hboundaries := weekHour_day fromDate htiling hinside.1 hh
      rw [if_pos hinside, if_pos hmem, hboundaries.1, hboundaries.2]
      rfl
    · rw [if_neg (fun hinside => hmem ((mem_stretch_iff hi hh).1 hinside)), if_neg hmem]
  have hlast : i / hourBucketDaysPerStatement < Slices.sliceCount n hourBucketDaysPerStatement :=
    Slices.div_lt_sliceCount (by decide) hi
  simp only [hstretch]
  rw [sum_range_single hlast fun stretch _ hne => if_neg hne, if_pos rfl]

/-- The hourly statements of a window, with their boundaries written out. -/
theorem weeksOfHours_windowOf (hzone : zone.OrderedMidnights) (v1Source v2Source : Source) :
    weeksOfHours (windowOf db tenant zone fromDate n) v1Source v2Source
      = (List.range (Slices.sliceCount n hourBucketDaysPerStatement)).flatMap fun stretch =>
          weekOfEra (stretch * hourBucketDaysPerStatement) v1Source (windowOf db tenant zone fromDate n).v1Span
              ((List.range (wallClockHoursPerDay * stretchDays n stretch + 1)).map
                (weekHour (v1Hours zone) (fromDate + (stretch * hourBucketDaysPerStatement : Nat))))
            ++ weekOfEra (stretch * hourBucketDaysPerStatement) v2Source (windowOf db tenant zone fromDate n).v2Span
              ((List.range (wallClockHoursPerDay * stretchDays n stretch + 1)).map
                (weekHour (v2Hours zone) (fromDate + (stretch * hourBucketDaysPerStatement : Nat)))) := by
  rw [weeksOfHours]
  simp only [localRange_windowOf, days_rangeOf, List.flatMap_def]
  refine congrArg List.flatten (List.map_congr_left ?_)
  intro stretch hstretch
  have hlt := List.mem_range.1 hstretch
  rw [← weekBoundaries_slice fromDate (hourTiling_v1 zone) LocalHourBoundaries.v1BoundariesLocal (fun _ => rfl) hlt,
    ← weekBoundaries_slice fromDate (hourTiling_v2 hzone) LocalHourBoundaries.v2BoundariesUtc (fun _ => rfl) hlt]
  rfl

/-- The statement of a stretch fits the hours it is given. -/
theorem fits_of_mem_weekOfEra {boundary : Nat → Int} (hmono : Monotone boundary) {first buckets : Nat} (hbuckets : 0 < buckets)
    {source : Source} {span : Option (Int × Int)} {week : Nat × Source × (Int × Int) × List Int}
    (hweek : week ∈ weekOfEra first source span ((List.range (buckets + 1)).map boundary)) :
    Fits week.2.2.1 week.2.2.2 buckets ∧ week.1 = first ∧ week.2.1 = source := by
  cases span with
  | none => exact absurd hweek List.not_mem_nil
  | some span =>
      rw [weekOfEra, headD_map_range, getLastD_map_range] at hweek
      by_cases hempty : min span.2 (boundary buckets) ≤ max span.1 (boundary 0)
      · rw [if_pos hempty] at hweek
        exact absurd hweek List.not_mem_nil
      · rw [if_neg hempty] at hweek
        obtain rfl := List.mem_singleton.1 hweek
        refine ⟨⟨pairwise_map_range hmono _, by simp, hbuckets, ?_, ?_⟩, rfl, rfl⟩
        · rw [getD_map_range _ (Nat.succ_pos buckets)]
          exact Int.le_max_right _ _
        · rw [getD_map_range _ (Nat.lt_succ_self buckets)]
          exact Int.min_le_right _ _

include hzone in
/-- The statement of each stretch of a window fits the hours it is given, and its days are days of the range. -/
theorem fits_of_mem_weeksOfHours {v1Source v2Source : Source} {week : Nat × Source × (Int × Int) × List Int}
    (hweek : week ∈ weeksOfHours (windowOf db tenant zone fromDate n) v1Source v2Source) :
    ∃ m, Fits week.2.2.1 week.2.2.2 (wallClockHoursPerDay * m) ∧ week.1 + m ≤ n
      ∧ (week.2.1 = v1Source ∨ week.2.1 = v2Source) := by
  have hv1 := hourTiling_v1 zone
  have hv2 := hourTiling_v2 hzone
  rw [weeksOfHours_windowOf db tenant fromDate hzone, List.mem_flatMap] at hweek
  obtain ⟨stretch, hstretch, hweek⟩ := hweek
  have hlt := List.mem_range.1 hstretch
  have hbuckets : 0 < wallClockHoursPerDay * stretchDays n stretch := Nat.mul_pos (by decide) (stretchDays_pos hlt)
  have hinside : stretch * hourBucketDaysPerStatement + stretchDays n stretch ≤ n := by
    have hmul := Slices.mul_lt_of_lt_sliceCount hlt
    simp only [stretchDays]
    omega
  rcases List.mem_append.1 hweek with hweek | hweek
  · obtain ⟨hfits, hfirst, hsource⟩ := fits_of_mem_weekOfEra (hv1.monotone_weekHour _) hbuckets hweek
    exact ⟨_, hfits, hfirst ▸ hinside, Or.inl hsource⟩
  · obtain ⟨hfits, hfirst, hsource⟩ := fits_of_mem_weekOfEra (hv2.monotone_weekHour _) hbuckets hweek
    exact ⟨_, hfits, hfirst ▸ hinside, Or.inr hsource⟩

include hzone in
/-- The statements of the hours together count hour `h` of day `i`, as the eras own it. -/
theorem sum_weeksOfHours (v1Source v2Source : Source) {i h : Nat} (hi : i < n) (hh : h < wallClockHoursPerDay) :
    ((weeksOfHours (windowOf db tenant zone fromDate n) v1Source v2Source).map (weekWeight db tenant i h)).sum
      = bothEras db tenant zone (v1Source.rows db) (v2Source.rows db) anyRow anyRow
          ((v1Hours zone (fromDate + i)).getD h 0) ((v1Hours zone (fromDate + i)).getD (h + 1) 0)
          ((v2Hours zone (fromDate + i)).getD h 0) ((v2Hours zone (fromDate + i)).getD (h + 1) 0) := by
  have hv1 := hourTiling_v1 zone
  have hv2 := hourTiling_v2 hzone
  have hlocal := hv1.hour_bounds (fromDate + i) hh
  have hutc := hv2.hour_bounds (fromDate + i) hh
  have hdayLocal : midnight fromDate ≤ midnight (fromDate + i)
      ∧ midnight (fromDate + i + 1) ≤ midnight (fromDate + n) := by
    simp only [midnight, dayLength]
    omega
  have hdayUtc : localMidnightUtc zone fromDate ≤ localMidnightUtc zone (fromDate + i)
      ∧ localMidnightUtc zone (fromDate + i + 1) ≤ localMidnightUtc zone (fromDate + n) :=
    ⟨hzone (by omega), hzone (by omega)⟩
  rw [weeksOfHours_windowOf db tenant fromDate hzone, List.flatMap_def, List.map_flatten, List.sum_flatten, List.map_map,
    List.map_map]
  simp only [Function.comp_def, List.map_append, List.sum_append]
  rw [sum_map_add, sum_stretches db tenant fromDate hv1 _ _ hi hh, sum_stretches db tenant fromDate hv2 _ _ hi hh,
    spanCount_v1Span, spanCount_v2Span,
    countOwned_inBucket _ _ (Int.le_trans hdayLocal.1 hlocal.1) (Int.le_trans hlocal.2 hdayLocal.2),
    countOwned_inBucket _ _ (Int.le_trans hdayUtc.1 hutc.1) (Int.le_trans hutc.2 hdayUtc.2)]
  rfl

include hzone in
/-- The hours of every day of the range. -/
theorem getCheckinCountsByHour_windowOf :
    getCheckinCountsByHour db tenant (windowOf db tenant zone fromDate n)
      = .ok ((List.range n).map fun (i : Nat) =>
          (List.range wallClockHoursPerDay).map (hourOf db tenant zone (fromDate + i))) := by
  have hstep : ∀ byDay : List (List Nat), HourShape n byDay →
      ∀ week ∈ weeksOfHours (windowOf db tenant zone fromDate n) .v1Checkins .v2Checkins,
        ∃ next, addWeek db tenant byDay week = .ok next ∧ HourShape n next
          ∧ ∀ place : Fin n × Fin wallClockHoursPerDay, hourValue next place.1 place.2
              = hourValue byDay place.1 place.2 + weekWeight db tenant place.1 place.2 week := by
    intro byDay hshape week hweek
    obtain ⟨m, hfits, hinside, hsource⟩ := fits_of_mem_weeksOfHours db tenant hzone fromDate hweek
    exact addWeek_spec db tenant hfits (by rcases hsource with h | h <;> rw [h] <;> rfl) hinside hshape
  have hstart : HourShape n ((rangeOf zone fromDate n).dates.map fun _ => List.replicate wallClockHoursPerDay 0) := by
    refine ⟨by simp [rangeOf], ?_⟩
    intro hours hhours
    obtain ⟨_, _, rfl⟩ := List.mem_map.1 hhours
    exact List.length_replicate
  obtain ⟨byDay, hfold, hshape, hvalue⟩ := foldlM_adds hstep hstart
  have hhours : ∀ (i : Fin n) (h : Fin wallClockHoursPerDay), hourValue byDay i h = hourOf db tenant zone (fromDate + i) h := by
    intro i h
    rw [hvalue (i, h), hourValue_zero, Nat.zero_add, sum_weeksOfHours db tenant hzone fromDate _ _ i.2 h.2]
    rfl
  rw [getCheckinCountsByHour, localRange_windowOf, hfold]
  congr 1
  apply List.ext_getElem
  · rw [hshape.1, List.length_map, List.length_range]
  · intro i hi hi'
    rw [hshape.1] at hi
    rw [List.getElem_map, List.getElem_range]
    apply eq_map_range (hshape.2 _ (List.getElem_mem _))
    intro h hh
    have hday : byDay.getD i [] = byDay[i] := List.getD_eq_getElem _ _ _
    exact hday ▸ hhours ⟨i, hi⟩ ⟨h, hh⟩

end Range

end SortView
