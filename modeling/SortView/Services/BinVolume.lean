import SortView.Services.RangeReport
import SortView.Services.SortBin

/-!
# Check-ins by bin

`get_bin_volume_report` of `services/operational_report_service.py`, beside the volume report: every check-in of a window is
counted once, in its hour, under its bin or as unknown.
-/

namespace SortView

open PyText Buckets

/-! ### The reports -/

structure VolumeReport where
  checkinDays : List Nat
  checkinHours : List Nat

def VolumeReport.checkinCount (report : VolumeReport) : Nat := report.checkinDays.sum

/-- `get_volume_report`. -/
def getVolumeReport (db : Database) (tenant : ResolvedOperationalTenant) (window : ReportWindow) : Except String VolumeReport := do
  let byHour ← getCheckinCountsByHour db tenant window
  return {
    checkinDays := byHour.map List.sum
    checkinHours := (List.range wallClockHoursPerDay).map fun hour => (byHour.map fun hours => hours.getD hour 0).sum }

structure BinCounts where
  key : Text
  hourCounts : List Nat

def BinCounts.checkinCount (counts : BinCounts) : Nat := counts.hourCounts.sum

structure BinVolumeReport where
  bins : List BinCounts
  unknownCount : Nat

def BinVolumeReport.knownCount (report : BinVolumeReport) : Nat := (report.bins.map BinCounts.checkinCount).sum

def BinVolumeReport.checkinCount (report : BinVolumeReport) : Nat := report.knownCount + report.unknownCount

/-- The running counts of `get_bin_volume_report`. -/
structure BinTally where
  byKey : Dict Text (List Nat)
  unknownCount : Nat

def BinTally.empty : BinTally := ⟨Dict.empty, 0⟩

/-- `hours[index % 24] += count`. -/
def addHourOfDay (hours : List Nat) (entry : Nat × Nat) : List Nat := addTo hours (entry.2 % wallClockHoursPerDay) entry.1

/-- One stored bin's counts. -/
def addBinGroup (buckets : Nat) (tally : BinTally) (row : Option Text × List Nat) : Except String BinTally := do
  let counts ← bucketCounts row.2 buckets
  match binKey row.1 with
  | none => return { tally with unknownCount := tally.unknownCount + counts.sum }
  | some key =>
      let hours := (tally.byKey.get? key).getD (List.replicate wallClockHoursPerDay 0)
      return { tally with byKey := tally.byKey.set key (counts.zipIdx.foldl addHourOfDay hours) }

def addBinWeek (db : Database) (tenant : ResolvedOperationalTenant) (tally : BinTally)
    (week : Nat × Source × (Int × Int) × List Int) : Except String BinTally := do
  let rows ← executeBucketCount db tenant week.2.1 week.2.2.1 week.2.2.2
  rows.foldlM (addBinGroup (week.2.2.2.length - 1)) tally

/-- The bins that a check-in was logged in, in numeric order. -/
def BinTally.bins (tally : BinTally) : List BinCounts :=
  ((tally.byKey.entries.mergeSort fun left right => decide (binOrder left.1 ≤ binOrder right.1)).filter fun entry =>
    entry.2.any (· ≠ 0)).map fun entry => ⟨entry.1, entry.2⟩

/-- `get_bin_volume_report`. -/
def getBinVolumeReport (db : Database) (tenant : ResolvedOperationalTenant) (window : ReportWindow) :
    Except String BinVolumeReport := do
  let tally ← (weeksOfHours window .v1CheckinsByBin .v2CheckinsByBin).foldlM (addBinWeek db tenant) .empty
  return { bins := tally.bins, unknownCount := tally.unknownCount }

/-! ### The check-ins of some bins -/

/-- The stored rows with only the check-ins whose stored bin is as asked. -/
def Database.withBins (db : Database) (keep : Option Text → Bool) : Database where
  __ := db
  checkins := db.checkins.filter fun row => keep row.bin
  checkinEvents := db.checkinEvents.filter fun row => keep row.bin

section Figures

/-- A figure of the running counts: one bin or all of them in an hour of the day, or the unknown bins. -/
inductive BinFigure where
  | bin (key : Text) (hour : Nat)
  | known (hour : Nat)
  | unknown

namespace BinFigure

/-- The stored bins a figure is about. -/
def keeps : BinFigure → Option Text → Bool
  | bin key _, stored => decide (binKey stored = some key)
  | known _, stored => (binKey stored).isSome
  | unknown, stored => (binKey stored).isNone

/-- The hours of the day it takes in. -/
def hours : BinFigure → List Nat
  | bin _ hour | known hour => [hour]
  | unknown => List.range wallClockHoursPerDay

def value (tally : BinTally) : BinFigure → Nat
  | bin key hour => ((tally.byKey.get? key).getD []).getD hour 0
  | known hour => entriesTotal (fun _ counts => counts.getD hour 0) tally.byKey.entries
  | unknown => tally.unknownCount

end BinFigure

/-- What a run of counts by the hour holds for one hour of the day. -/
def hourOfDaySum (counts : List Nat) (hour : Nat) : Nat :=
  ((List.range counts.length).map fun index => if index % wallClockHoursPerDay = hour then counts.getD index 0 else 0).sum

theorem sum_zipIdx_eq (counts : List Nat) (f : Nat → Nat → Nat) :
    (counts.zipIdx.map fun entry => f entry.1 entry.2).sum
      = ((List.range counts.length).map fun index => f (counts.getD index 0) index).sum := by
  congr 1
  apply List.ext_getElem
  · simp
  · intro index hleft hright
    rw [List.length_map, List.length_range] at hright
    simp [hright]

theorem foldl_addHourOfDay {hours : List Nat} (hhours : hours.length = wallClockHoursPerDay) (counts : List Nat) :
    (counts.zipIdx.foldl addHourOfDay hours).length = wallClockHoursPerDay
      ∧ ∀ hour, (counts.zipIdx.foldl addHourOfDay hours).getD hour 0 = hours.getD hour 0 + hourOfDaySum counts hour := by
  obtain ⟨hlength, hvalue⟩ := foldl_adds (fun hours => hours.length = wallClockHoursPerDay)
    (fun (hour : Nat) hours => hours.getD hour 0)
    (fun hour entry => if entry.2 % wallClockHoursPerDay = hour then entry.1 else 0) addHourOfDay counts.zipIdx
    (fun hours hlength entry _ => by
      have hslot : entry.2 % wallClockHoursPerDay < hours.length := by
        rw [hlength]
        exact Nat.mod_lt _ (by decide)
      exact ⟨(length_addTo ..).trans hlength, fun hour => getD_addTo hslot _ _⟩) hhours
  refine ⟨hlength, ?_⟩
  intro hour
  rw [hvalue hour, hourOfDaySum,
    sum_zipIdx_eq counts fun count index => if index % wallClockHoursPerDay = hour then count else 0]

/-- Every count is in one hour of the day. -/
theorem sum_hourOfDaySum (counts : List Nat) :
    ((List.range wallClockHoursPerDay).map (hourOfDaySum counts)).sum = counts.sum := by
  show ((List.range wallClockHoursPerDay).map fun hour => ((List.range counts.length).map fun index =>
    if index % wallClockHoursPerDay = hour then counts.getD index 0 else 0).sum).sum = counts.sum
  have hlength : counts.length = counts.length := rfl
  rw [sum_map_comm, sum_eq_sum_getD hlength]
  refine congrArg List.sum (List.map_congr_left ?_)
  intro index _
  have hlt : index % wallClockHoursPerDay < wallClockHoursPerDay := Nat.mod_lt _ (by decide)
  rw [List.sum_map_eq_nsmul_single (index % wallClockHoursPerDay) _ fun hour hne _ => if_neg fun h => hne h.symm, if_pos rfl,
    List.count_eq_one_of_mem List.nodup_range (List.mem_range.2 hlt), one_nsmul]

/-- Running counts with 24 hours under the key of a bin. -/
structure BinTally.Sound (tally : BinTally) : Prop where
  lengths : ∀ entry ∈ tally.byKey.entries, entry.2.length = wallClockHoursPerDay
  keys : ∀ entry ∈ tally.byKey.entries, ∃ stored, binKey stored = some entry.1

theorem BinTally.sound_empty : BinTally.empty.Sound := ⟨List.forall_mem_nil _, List.forall_mem_nil _⟩

/-- One group adds its counts to the figures that are about its bin. -/
theorem addBinGroup_spec {buckets : Nat} {tally : BinTally} (htally : tally.Sound) {row : Option Text × List Nat}
    (hrow : row.2.length = buckets) :
    ∃ next, addBinGroup buckets tally row = .ok next ∧ next.Sound
      ∧ ∀ figure : BinFigure, figure.value next
          = figure.value tally + if figure.keeps row.1 then (figure.hours.map (hourOfDaySum row.2)).sum else 0 := by
  have hcounts : bucketCounts row.2 buckets = .ok row.2 := if_neg (not_not.2 hrow)
  rw [addBinGroup, hcounts]
  cases hkey : binKey row.1 with
  | none =>
      refine ⟨{ tally with unknownCount := tally.unknownCount + row.2.sum }, rfl, ⟨htally.lengths, htally.keys⟩, ?_⟩
      intro figure
      cases figure with
      | bin key hour => simp [BinFigure.value, BinFigure.keeps, hkey]
      | known hour => simp [BinFigure.value, BinFigure.keeps, hkey]
      | unknown =>
          rw [BinFigure.keeps, hkey, Option.isNone_none, if_pos rfl, BinFigure.hours, sum_hourOfDaySum]
          rfl
  | some key =>
      have hhours : ((tally.byKey.get? key).getD (List.replicate wallClockHoursPerDay 0)).length = wallClockHoursPerDay := by
        cases hget : tally.byKey.get? key with
        | none => exact List.length_replicate
        | some hours => exact htally.lengths _ ((Dict.get?_eq_some_iff _ _ _).1 hget)
      obtain ⟨hlength, hvalue⟩ := foldl_addHourOfDay hhours row.2
      refine ⟨_, rfl, ⟨?_, ?_⟩, ?_⟩
      · intro entry hentry
        have hget := (Dict.get?_eq_some_iff _ entry.1 entry.2).2 hentry
        rw [Dict.get?_set] at hget
        split at hget
        · rw [← Option.some.inj hget, hlength]
        · exact htally.lengths _ ((Dict.get?_eq_some_iff _ _ _).1 hget)
      · intro entry hentry
        have hget := (Dict.get?_eq_some_iff _ entry.1 entry.2).2 hentry
        rw [Dict.get?_set] at hget
        split at hget
        · next hsame => exact ⟨row.1, hsame ▸ hkey⟩
        · exact htally.keys _ ((Dict.get?_eq_some_iff _ _ _).1 hget)
      · intro figure
        cases figure with
        | bin other hour =>
            simp only [BinFigure.value, BinFigure.keeps, BinFigure.hours, hkey, Option.some.injEq, List.map_singleton,
              List.sum_singleton, decide_eq_true_eq, Dict.get?_set]
            by_cases hother : other = key
            · subst hother
              rw [if_pos rfl, if_pos rfl, Option.getD_some, hvalue]
              cases tally.byKey.get? other <;> simp
            · rw [if_neg hother, if_neg fun h => hother h.symm, Nat.add_zero]
        | known hour =>
            have hset := entriesTotal_set (fun (_ : Text) (counts : List Nat) => counts.getD hour 0) tally.byKey key
              (row.2.zipIdx.foldl addHourOfDay ((tally.byKey.get? key).getD (List.replicate wallClockHoursPerDay 0)))
            have hold : ((tally.byKey.get? key).map fun counts => counts.getD hour 0).getD 0
                = ((tally.byKey.get? key).getD (List.replicate wallClockHoursPerDay 0)).getD hour 0 := by
              cases tally.byKey.get? key <;> simp
            rw [hold, hvalue hour] at hset
            simp only [BinFigure.value, BinFigure.keeps, BinFigure.hours, hkey, Option.isSome_some, if_true, List.map_singleton,
              List.sum_singleton]
            omega
        | unknown => simp [BinFigure.value, BinFigure.keeps, hkey]

/-- The groups of a statement, hour by hour of the day. -/
theorem sum_hours_of_groups (p : Option Text → Bool) (hours : List Nat) {buckets : Nat} {rows : List (Option Text × List Nat)}
    (hlengths : ∀ row ∈ rows, row.2.length = buckets) :
    (rows.map fun row => if p row.1 then (hours.map (hourOfDaySum row.2)).sum else 0).sum
      = (hours.map fun hour => ((List.range buckets).map fun index =>
          if index % wallClockHoursPerDay = hour then groupTotal p index rows else 0).sum).sum := by
  induction rows with
  | nil =>
      symm
      apply sum_map_eq_zero
      intro hour _
      apply sum_map_eq_zero
      intro index _
      split <;> rfl
  | cons row rows ih =>
      rw [List.map_cons, List.sum_cons, ih fun other hother => hlengths other (List.mem_cons_of_mem _ hother)]
      have hhour : ∀ hour, ((List.range buckets).map fun index =>
            if index % wallClockHoursPerDay = hour then groupTotal p index (row :: rows) else 0).sum
          = (if p row.1 then hourOfDaySum row.2 hour else 0) + ((List.range buckets).map fun index =>
            if index % wallClockHoursPerDay = hour then groupTotal p index rows else 0).sum := by
        intro hour
        have hfirst : (if p row.1 then hourOfDaySum row.2 hour else 0) = ((List.range buckets).map fun index =>
            if index % wallClockHoursPerDay = hour then (if p row.1 then row.2.getD index 0 else 0) else 0).sum := by
          rw [hourOfDaySum, hlengths row (List.mem_cons_self ..)]
          split
          · rfl
          · symm
            apply sum_map_eq_zero
            intro index _
            split <;> rfl
        rw [hfirst, ← sum_map_add]
        refine congrArg List.sum (List.map_congr_left ?_)
        intro index _
        rw [groupTotal, entriesTotal_cons, ← groupTotal]
        split <;> rfl
      simp only [hhour]
      rw [sum_map_add]
      congr 1
      split
      · rfl
      · exact (sum_map_eq_zero fun _ _ => rfl).symm

section Weeks

variable (db : Database) (tenant : ResolvedOperationalTenant)

/-- A stretch of days adds the rows of its hours to each figure. -/
theorem addBinWeek_spec {buckets : Nat} {week : Nat × Source × (Int × Int) × List Int} (hfits : Fits week.2.2.1 week.2.2.2 buckets)
    {tally : BinTally} (htally : tally.Sound) :
    ∃ next, addBinWeek db tenant tally week = .ok next ∧ next.Sound
      ∧ ∀ figure : BinFigure, figure.value next = figure.value tally
          + (figure.hours.map fun hour => ((List.range buckets).map fun index =>
              if index % wallClockHoursPerDay = hour then
                spanCount tenant (fun row => figure.keeps row.group && inBucket week.2.2.2 index row) (week.2.1.rows db)
                  (some week.2.2.1)
              else 0).sum).sum := by
  obtain ⟨rows, hexecute, hlengths, -, htotal⟩ := executeBucketCount_spec db tenant week.2.1 hfits
  have hbuckets : week.2.2.2.length - 1 = buckets := by
    rw [hfits.length, Nat.add_sub_cancel]
  have hstep : ∀ tally : BinTally, tally.Sound → ∀ row ∈ rows, ∃ next, addBinGroup (week.2.2.2.length - 1) tally row = .ok next
      ∧ next.Sound ∧ ∀ figure : BinFigure, figure.value next
          = figure.value tally + if figure.keeps row.1 then (figure.hours.map (hourOfDaySum row.2)).sum else 0 :=
    fun tally htally row hrow => addBinGroup_spec htally ((hlengths row hrow).trans hbuckets.symm)
  obtain ⟨next, hfold, hsound, hvalue⟩ := foldlM_adds hstep htally
  refine ⟨next, ?_, hsound, ?_⟩
  · rw [addBinWeek, hexecute]
    exact hfold
  · intro figure
    rw [hvalue figure, sum_hours_of_groups figure.keeps figure.hours hlengths]
    congr 2
    apply List.map_congr_left
    intro hour _
    refine congrArg List.sum (List.map_congr_left ?_)
    intro index hindex
    rw [htotal figure.keeps index (List.mem_range.1 hindex)]

/-- The rows of the bins a figure keeps are the rows of the tables that hold nothing else. -/
theorem spanCount_withBins {source : Source} (hsource : source = .v1CheckinsByBin ∨ source = .v2CheckinsByBin)
    (keep : Option Text → Bool) (p : CountedRow → Bool) (span : Option (Int × Int)) :
    spanCount tenant (fun row => keep row.group && p row) (source.rows db) span
      = spanCount tenant p (source.rows (db.withBins keep)) span := by
  cases span with
  | none => rfl
  | some span =>
      rcases hsource with rfl | rfl
      all_goals
        simp only [spanCount, Source.rows, checkinsByBin, Database.withBins, List.countP_map, List.countP_filter]
        apply List.countP_congr
        intro row _
        simp only [Function.comp_apply, Bool.and_eq_true]
        tauto

end Weeks

/-! ### Days and hours of the day -/

/-- The buckets of one hour of the day in a run of days. -/
theorem sum_hour_of_buckets (g : Nat → Nat) {hour : Nat} (hhour : hour < wallClockHoursPerDay) (m : Nat) :
    ((List.range (wallClockHoursPerDay * m)).map fun index => if index % wallClockHoursPerDay = hour then g index else 0).sum
      = ((List.range m).map fun day => g (wallClockHoursPerDay * day + hour)).sum := by
  induction m with
  | zero => rfl
  | succ m ih =>
      rw [Nat.mul_succ, List.range_add, List.map_append, List.sum_append, ih, List.range_succ (n := m), List.map_append,
        List.sum_append, List.map_singleton, List.sum_singleton, List.map_map, Nat.add_left_cancel_iff]
      have hindex : ∀ h ∈ List.range wallClockHoursPerDay,
          ((fun index => if index % wallClockHoursPerDay = hour then g index else 0) ∘ fun h => wallClockHoursPerDay * m + h) h
            = if h = hour then g (wallClockHoursPerDay * m + hour) else 0 := by
        intro h hh
        rw [Function.comp_apply, Nat.mul_add_mod, Nat.mod_eq_of_lt (List.mem_range.1 hh)]
        by_cases heq : h = hour
        · rw [if_pos heq, if_pos heq, heq]
        · rw [if_neg heq, if_neg heq]
      rw [List.map_congr_left hindex, sum_range_single hhour fun h _ hne => if_neg hne, if_pos rfl]

/-- The days of a stretch among the days of the range. -/
theorem sum_days_of_stretch (g : Nat → Nat) {first m n hour : Nat} (hinside : first + m ≤ n) (hhour : hour < wallClockHoursPerDay) :
    ((List.range n).map fun day =>
        if first ≤ day ∧ wallClockHoursPerDay * (day - first) + hour < wallClockHoursPerDay * m then
          g (wallClockHoursPerDay * (day - first) + hour)
        else 0).sum
      = ((List.range m).map fun day => g (wallClockHoursPerDay * day + hour)).sum := by
  obtain ⟨rest, rfl⟩ := Nat.exists_eq_add_of_le hinside
  rw [List.range_add, List.range_add, List.map_append, List.map_append, List.sum_append, List.sum_append, List.map_map, List.map_map]
  have hbefore : ((List.range first).map fun day =>
      if first ≤ day ∧ wallClockHoursPerDay * (day - first) + hour < wallClockHoursPerDay * m then
        g (wallClockHoursPerDay * (day - first) + hour) else 0).sum = 0 := by
    apply sum_map_eq_zero
    intro day hday
    have hlt := List.mem_range.1 hday
    exact if_neg fun h => by omega
  rw [hbefore, Nat.zero_add]
  have hafter : ((List.range rest).map ((fun day =>
      if first ≤ day ∧ wallClockHoursPerDay * (day - first) + hour < wallClockHoursPerDay * m then
        g (wallClockHoursPerDay * (day - first) + hour) else 0) ∘ fun day => first + m + day)).sum = 0 := by
    apply sum_map_eq_zero
    intro day _
    apply if_neg
    simp only [wallClockHoursPerDay]
    omega
  rw [hafter, Nat.add_zero]
  refine congrArg List.sum (List.map_congr_left ?_)
  intro day hday
  have hlt := List.mem_range.1 hday
  have hinside : first ≤ first + day ∧ wallClockHoursPerDay * (first + day - first) + hour < wallClockHoursPerDay * m := by
    simp only [wallClockHoursPerDay] at *
    omega
  rw [Function.comp_apply, if_pos hinside, Nat.add_sub_cancel_left]

end Figures

/-! ### The figures of a range -/

section Range

variable (db : Database) (tenant : ResolvedOperationalTenant) {zone : Zone} (hzone : zone.OrderedMidnights)
  (fromDate : Int) {n : Nat}

/-- The check-ins of some days in an hour of the day. -/
def hourOfDays (db : Database) (tenant : ResolvedOperationalTenant) (zone : Zone) (dates : List Int) (hour : Nat) : Nat :=
  (dates.map fun day => hourOf db tenant zone day hour).sum

/-- The check-ins of a window. -/
def windowCheckins (db : Database) (tenant : ResolvedOperationalTenant) (window : ReportWindow) : Nat :=
  countRows (plainCheckins db.checkins) tenant window.v1Span + countRows (plainCheckins db.checkinEvents) tenant window.v2Span

theorem hourOf_checkinsByBin (db : Database) (zone : Zone) (localDate : Int) (hour : Nat) :
    bothEras db tenant zone (checkinsByBin db.checkins) (checkinsByBin db.checkinEvents) anyRow anyRow
        ((v1Hours zone localDate).getD hour 0) ((v1Hours zone localDate).getD (hour + 1) 0)
        ((v2Hours zone localDate).getD hour 0) ((v2Hours zone localDate).getD (hour + 1) 0)
      = hourOf db tenant zone localDate hour := by
  simp only [hourOf, bothEras, countOwned, checkinsByBin, plainCheckins, List.countP_map]
  rfl

include hzone in
/-- Every figure of the report is its bins' check-ins in its hours. -/
theorem tally_of_weeks :
    ∃ tally : BinTally, (weeksOfHours (windowOf db tenant zone fromDate n) .v1CheckinsByBin .v2CheckinsByBin).foldlM
        (addBinWeek db tenant) .empty = .ok tally
      ∧ tally.Sound
      ∧ ∀ figure : BinFigure, (∀ hour ∈ figure.hours, hour < wallClockHoursPerDay) → figure.value tally
          = (figure.hours.map (hourOfDays (db.withBins figure.keeps) tenant zone (rangeOf zone fromDate n).dates)).sum := by
  have hstep : ∀ tally : BinTally, tally.Sound →
      ∀ week ∈ weeksOfHours (windowOf db tenant zone fromDate n) .v1CheckinsByBin .v2CheckinsByBin,
        ∃ next, addBinWeek db tenant tally week = .ok next ∧ next.Sound
          ∧ ∀ figure : {figure : BinFigure // ∀ hour ∈ figure.hours, hour < wallClockHoursPerDay},
              figure.1.value next = figure.1.value tally + (figure.1.hours.map fun hour => ((List.range n).map fun day =>
                weekWeight (db.withBins figure.1.keeps) tenant day hour week).sum).sum := by
    intro tally htally week hweek
    obtain ⟨m, hfits, hinside, hsource⟩ := fits_of_mem_weeksOfHours db tenant hzone fromDate hweek
    obtain ⟨next, hadd, hsound, hvalue⟩ := addBinWeek_spec db tenant hfits htally
    refine ⟨next, hadd, hsound, ?_⟩
    rintro ⟨figure, hhours⟩
    rw [hvalue figure]
    congr 2
    apply List.map_congr_left
    intro hour hhour
    have hbuckets : week.2.2.2.length - 1 = wallClockHoursPerDay * m := by
      rw [hfits.length, Nat.add_sub_cancel]
    simp only [spanCount_withBins db tenant hsource, weekWeight, hbuckets]
    rw [sum_hour_of_buckets _ (hhours hour hhour)]
    exact (sum_days_of_stretch (fun index => spanCount tenant (inBucket week.2.2.2 index)
      (week.2.1.rows (db.withBins figure.keeps)) (some week.2.2.1)) hinside (hhours hour hhour)).symm
  obtain ⟨tally, hfold, hsound, hvalue⟩ := foldlM_adds hstep BinTally.sound_empty
  refine ⟨tally, hfold, hsound, ?_⟩
  intro figure hhours
  have hzero : figure.value .empty = 0 := by
    cases figure <;> rfl
  rw [hvalue ⟨figure, hhours⟩, hzero, Nat.zero_add, sum_map_comm]
  refine congrArg List.sum (List.map_congr_left ?_)
  intro hour hhour
  rw [sum_map_comm, hourOfDays, rangeOf, List.map_map]
  refine congrArg List.sum (List.map_congr_left ?_)
  intro day hday
  have hweeks := sum_weeksOfHours (db.withBins figure.keeps) tenant hzone fromDate .v1CheckinsByBin .v2CheckinsByBin
    (List.mem_range.1 hday) (hhours hour hhour)
  rw [Function.comp_apply, ← hourOf_checkinsByBin]
  exact hweeks

include hzone in
/-- The hours of the day hold the check-ins of the window. -/
theorem sum_hourOfDays : ((List.range wallClockHoursPerDay).map (hourOfDays db tenant zone (rangeOf zone fromDate n).dates)).sum
    = windowCheckins db tenant (windowOf db tenant zone fromDate n) := by
  show ((List.range wallClockHoursPerDay).map fun hour =>
    ((rangeOf zone fromDate n).dates.map fun day => hourOf db tenant zone day hour).sum).sum = _
  rw [sum_map_comm, windowCheckins, ← sum_dayOf db tenant hzone fromDate n, rangeOf, List.map_map]
  refine congrArg List.sum (List.map_congr_left ?_)
  intro day _
  exact sum_hourOf db tenant hzone _

theorem countOwned_withBins (owns : CountedRow → Bool) (keep : Option Text → Bool) (rows : List CheckinRow) (start stop : Int) :
    countOwned owns anyRow (plainCheckins (rows.filter fun row => keep row.bin)) start stop
        + countOwned owns anyRow (plainCheckins (rows.filter fun row => !keep row.bin)) start stop
      = countOwned owns anyRow (plainCheckins rows) start stop := by
  simp only [countOwned, plainCheckins, List.countP_map]
  exact (List.countP_eq_countP_filter_add rows _ _).symm

/-- The known and the unknown bins of an hour make up its check-ins. -/
theorem hourOfDays_withBins (keep : Option Text → Bool) (dates : List Int) (hour : Nat) :
    hourOfDays (db.withBins keep) tenant zone dates hour + hourOfDays (db.withBins fun stored => !keep stored) tenant zone dates hour
      = hourOfDays db tenant zone dates hour := by
  rw [hourOfDays, hourOfDays, ← sum_map_add]
  refine congrArg List.sum (List.map_congr_left ?_)
  intro day _
  have hv1 := countOwned_withBins (ownedByV1 db tenant zone) keep db.checkins ((v1Hours zone day).getD hour 0)
    ((v1Hours zone day).getD (hour + 1) 0)
  have hv2 := countOwned_withBins (ownedByV2 db tenant) keep db.checkinEvents ((v2Hours zone day).getD hour 0)
    ((v2Hours zone day).getD (hour + 1) 0)
  exact (Nat.add_add_add_comm _ _ _ _).trans (congrArg₂ (· + ·) hv1 hv2)

end Range

/-! ### The bins of the report -/

namespace BinTally

variable {tally : BinTally}

theorem mem_bins {bin : BinCounts} :
    bin ∈ tally.bins ↔ (bin.key, bin.hourCounts) ∈ tally.byKey.entries ∧ ∃ count ∈ bin.hourCounts, count ≠ 0 := by
  rw [bins, List.mem_map]
  simp only [List.mem_filter, List.mem_mergeSort, List.any_eq_true, decide_eq_true_eq]
  constructor
  · rintro ⟨entry, h, rfl⟩
    exact h
  · intro h
    exact ⟨_, h, rfl⟩

/-- The bins left out hold no check-in. -/
theorem sum_bins (hour : Nat) :
    (tally.bins.map fun bin => bin.hourCounts.getD hour 0).sum = BinFigure.value tally (.known hour) := by
  rw [bins, List.map_map, BinFigure.value, entriesTotal,
    ← ((List.mergeSort_perm tally.byKey.entries fun left right => decide (binOrder left.1 ≤ binOrder right.1)).map
      fun entry => entry.2.getD hour 0).sum_eq]
  generalize tally.byKey.entries.mergeSort _ = entries
  rw [← sum_map_ite (fun entry : Text × List Nat => entry.2.any (· ≠ 0))]
  refine congrArg List.sum (List.map_congr_left ?_)
  intro entry _
  split
  · rfl
  · next hnone =>
    rw [List.any_eq_true] at hnone
    by_cases hhour : hour < entry.2.length
    · rw [List.getD_eq_getElem _ _ hhour]
      by_contra hne
      exact hnone ⟨_, List.getElem_mem hhour, decide_eq_true fun h => hne h.symm⟩
    · rw [List.getD_eq_default _ _ (Nat.le_of_not_lt hhour)]

/-- Two keys of one order are one key. -/
theorem Sound.ordered (htally : tally.Sound) : tally.bins.Pairwise fun left right => binOrder left.key < binOrder right.key := by
  rw [bins, List.pairwise_map]
  apply List.Pairwise.filter
  have hsorted : (tally.byKey.entries.mergeSort fun left right => decide (binOrder left.1 ≤ binOrder right.1)).Pairwise
      fun left right => decide (binOrder left.1 ≤ binOrder right.1) = true := by
    apply List.pairwise_mergeSort
    · intro first second third hfirst hsecond
      exact decide_eq_true (Nat.le_trans (of_decide_eq_true hfirst) (of_decide_eq_true hsecond))
    · intro first second
      rw [Bool.or_eq_true, decide_eq_true_eq, decide_eq_true_eq]
      exact Nat.le_total _ _
  have hperm := List.mergeSort_perm tally.byKey.entries fun left right => decide (binOrder left.1 ≤ binOrder right.1)
  have hnodup : ((tally.byKey.entries.mergeSort fun left right => decide (binOrder left.1 ≤ binOrder right.1)).map
      Prod.fst).Nodup := (hperm.map Prod.fst).nodup_iff.2 tally.byKey.nodup
  rw [List.Nodup, List.pairwise_map] at hnodup
  refine (hsorted.and hnodup).imp_of_mem ?_
  intro left right hleft hright h
  apply Nat.lt_of_le_of_ne (of_decide_eq_true h.1)
  intro heq
  obtain ⟨_, hkey⟩ := htally.keys left (hperm.mem_iff.1 hleft)
  obtain ⟨_, hother⟩ := htally.keys right (hperm.mem_iff.1 hright)
  exact h.2 ((decimal_binOrder hkey).symm.trans ((congrArg decimal heq).trans (decimal_binOrder hother)))

end BinTally

/-! ### Every check-in is counted once -/

/-- The check-ins of one bin, and those of none. -/
def Database.ofBin (db : Database) (key : Text) : Database := db.withBins fun stored => decide (binKey stored = some key)

def Database.ofNoBin (db : Database) : Database := db.withBins fun stored => (binKey stored).isNone

/-- The bins and the unknown check-ins partition the check-ins of the window, hour by hour of the day. -/
structure BinsPartition (db : Database) (tenant : ResolvedOperationalTenant) (zone : Zone) (dates : List Int)
    (window : ReportWindow) (report : BinVolumeReport) (volume : VolumeReport) : Prop where
  binHours : ∀ bin ∈ report.bins,
    bin.hourCounts = (List.range wallClockHoursPerDay).map (hourOfDays (db.ofBin bin.key) tenant zone dates)
  binCheckins : ∀ bin ∈ report.bins, bin.checkinCount = windowCheckins (db.ofBin bin.key) tenant window
  everyBin : ∀ key, 0 < windowCheckins (db.ofBin key) tenant window → ∃ bin ∈ report.bins, bin.key = key
  unknown : report.unknownCount = windowCheckins db.ofNoBin tenant window
  total : report.checkinCount = windowCheckins db tenant window
  hours : volume.checkinHours = (List.range wallClockHoursPerDay).map fun hour =>
    (report.bins.map fun bin => bin.hourCounts.getD hour 0).sum + hourOfDays db.ofNoBin tenant zone dates hour
  unknownHours : ((List.range wallClockHoursPerDay).map (hourOfDays db.ofNoBin tenant zone dates)).sum = report.unknownCount
  volume : report.checkinCount = volume.checkinCount
  ordered : report.bins.Pairwise fun left right => binOrder left.key < binOrder right.key
  someCheckin : ∀ bin ∈ report.bins, 0 < bin.checkinCount

section Report

variable (db : Database) (tenant : ResolvedOperationalTenant) {zone : Zone} (hzone : zone.OrderedMidnights)
  (fromDate : Int) {n : Nat}

include hzone in
theorem getVolumeReport_windowOf :
    ∃ volume, getVolumeReport db tenant (windowOf db tenant zone fromDate n) = .ok volume
      ∧ volume.checkinCount = windowCheckins db tenant (windowOf db tenant zone fromDate n)
      ∧ volume.checkinHours = (List.range wallClockHoursPerDay).map
          (hourOfDays db tenant zone (rangeOf zone fromDate n).dates) := by
  rw [getVolumeReport, getCheckinCountsByHour_windowOf db tenant hzone fromDate]
  refine ⟨_, rfl, ?_, ?_⟩
  · rw [VolumeReport.checkinCount, windowCheckins, ← sum_dayOf db tenant hzone fromDate n, List.map_map]
    refine congrArg List.sum (List.map_congr_left ?_)
    intro day _
    exact sum_hourOf db tenant hzone _
  · apply List.map_congr_left
    intro hour hhour
    rw [List.map_map, hourOfDays, rangeOf, List.map_map]
    refine congrArg List.sum (List.map_congr_left ?_)
    intro day _
    have hlt := List.mem_range.1 hhour
    rw [Function.comp_apply, List.getD_eq_getElem _ _ (by rw [List.length_map, List.length_range]; exact hlt), List.getElem_map,
      List.getElem_range]
    rfl

include hzone in
theorem binsPartition_windowOf :
    ∃ report volume, getBinVolumeReport db tenant (windowOf db tenant zone fromDate n) = .ok report
      ∧ getVolumeReport db tenant (windowOf db tenant zone fromDate n) = .ok volume
      ∧ BinsPartition db tenant zone (rangeOf zone fromDate n).dates (windowOf db tenant zone fromDate n) report volume := by
  obtain ⟨tally, hfold, hsound, hvalue⟩ := tally_of_weeks db tenant hzone fromDate (n := n)
  obtain ⟨volume, hvolume, hvolumeCount, hvolumeHours⟩ := getVolumeReport_windowOf db tenant hzone fromDate (n := n)
  have hunknown : tally.unknownCount
      = ((List.range wallClockHoursPerDay).map (hourOfDays db.ofNoBin tenant zone (rangeOf zone fromDate n).dates)).sum :=
    hvalue .unknown fun hour hhour => List.mem_range.1 hhour
  have hunknownCount : tally.unknownCount = windowCheckins db.ofNoBin tenant (windowOf db tenant zone fromDate n) :=
    hunknown.trans (sum_hourOfDays db.ofNoBin tenant hzone fromDate)
  have hbin : ∀ key hour, hour < wallClockHoursPerDay → ((tally.byKey.get? key).getD []).getD hour 0
      = hourOfDays (db.ofBin key) tenant zone (rangeOf zone fromDate n).dates hour := by
    intro key hour hhour
    have hfigure := hvalue (.bin key hour) fun other hother => List.mem_singleton.1 hother ▸ hhour
    rwa [BinFigure.hours, List.map_singleton, List.sum_singleton] at hfigure
  have hbinHours : ∀ bin ∈ tally.bins, bin.hourCounts
      = (List.range wallClockHoursPerDay).map (hourOfDays (db.ofBin bin.key) tenant zone (rangeOf zone fromDate n).dates) := by
    intro bin hmem
    have hentry := (BinTally.mem_bins.1 hmem).1
    have hget := (Dict.get?_eq_some_iff _ _ _).2 hentry
    apply eq_map_range (hsound.lengths _ hentry)
    intro hour hhour
    rw [← hbin bin.key hour hhour, hget, Option.getD_some]
  have hbinCount : ∀ bin ∈ tally.bins,
      bin.checkinCount = windowCheckins (db.ofBin bin.key) tenant (windowOf db tenant zone fromDate n) := by
    intro bin hmem
    rw [BinCounts.checkinCount, hbinHours bin hmem]
    exact sum_hourOfDays (db.ofBin bin.key) tenant hzone fromDate
  have hhours : ∀ hour < wallClockHoursPerDay, (tally.bins.map fun bin => bin.hourCounts.getD hour 0).sum
        + hourOfDays db.ofNoBin tenant zone (rangeOf zone fromDate n).dates hour
      = hourOfDays db tenant zone (rangeOf zone fromDate n).dates hour := by
    intro hour hhour
    have hfigure := hvalue (.known hour) fun other hother => List.mem_singleton.1 hother ▸ hhour
    rw [BinFigure.hours, List.map_singleton, List.sum_singleton] at hfigure
    rw [BinTally.sum_bins, hfigure, ← hourOfDays_withBins db tenant (BinFigure.known hour).keeps]
    congr 2
    simp only [Database.ofNoBin, BinFigure.keeps, Option.not_isSome]
  have hknown : (tally.bins.map BinCounts.checkinCount).sum
      = ((List.range wallClockHoursPerDay).map fun hour => (tally.bins.map fun bin => bin.hourCounts.getD hour 0).sum).sum := by
    rw [sum_map_comm]
    refine congrArg List.sum (List.map_congr_left ?_)
    intro bin hmem
    exact sum_eq_sum_getD (hsound.lengths _ (BinTally.mem_bins.1 hmem).1)
  have htotal : (tally.bins.map BinCounts.checkinCount).sum + tally.unknownCount
      = windowCheckins db tenant (windowOf db tenant zone fromDate n) := by
    rw [hknown, hunknown, ← sum_map_add, ← sum_hourOfDays db tenant hzone fromDate]
    refine congrArg List.sum (List.map_congr_left ?_)
    intro hour hhour
    exact hhours hour (List.mem_range.1 hhour)
  refine ⟨⟨tally.bins, tally.unknownCount⟩, volume, ?_, hvolume, ?_⟩
  · rw [getBinVolumeReport, hfold]
    rfl
  · refine ⟨hbinHours, hbinCount, ?_, hunknownCount, htotal, ?_, hunknown.symm, htotal.trans hvolumeCount.symm, hsound.ordered, ?_⟩
    · intro key hpos
      have hsum := hpos.trans_eq (sum_hourOfDays (db.ofBin key) tenant hzone fromDate).symm
      obtain ⟨hour, hhour, hne⟩ : ∃ hour < wallClockHoursPerDay,
          hourOfDays (db.ofBin key) tenant zone (rangeOf zone fromDate n).dates hour ≠ 0 := by
        by_contra hnone
        refine absurd (sum_map_eq_zero ?_) hsum.ne'
        intro hour hhour
        by_contra hne
        exact hnone ⟨hour, List.mem_range.1 hhour, hne⟩
      rw [← hbin key hour hhour] at hne
      cases hget : tally.byKey.get? key with
      | none =>
          rw [hget] at hne
          exact absurd rfl hne
      | some counts =>
          rw [hget, Option.getD_some] at hne
          have hentry := (Dict.get?_eq_some_iff _ _ _).1 hget
          have hlength : hour < counts.length := (hsound.lengths _ hentry).symm ▸ hhour
          rw [List.getD_eq_getElem _ _ hlength] at hne
          exact ⟨⟨key, counts⟩, BinTally.mem_bins.2 ⟨hentry, _, List.getElem_mem hlength, hne⟩, rfl⟩
    · rw [hvolumeHours]
      apply List.map_congr_left
      intro hour hhour
      exact (hhours hour (List.mem_range.1 hhour)).symm
    · intro bin hmem
      obtain ⟨count, hcount, hne⟩ := (BinTally.mem_bins.1 hmem).2
      exact Nat.lt_of_lt_of_le (Nat.pos_of_ne_zero hne) (List.le_sum_of_mem hcount)

end Report

/-- The bins partition the check-ins: for every zone whose midnights do not decrease, every range, every cutover or none and
all stored rows the report succeeds and counts each check-in of the window once, under the bin whose number its stored text is
or as unknown; and a raw bin text is one bin in either era. -/
theorem bins_partition_checkins (db : Database) (tenant : ResolvedOperationalTenant) {zone : Zone} (hzone : zone.OrderedMidnights)
    {fromDate toDate : Int} (hrange : fromDate ≤ toDate) :
    (∃ range report volume, localRange fromDate toDate zone = .ok range
        ∧ (∀ day, day ∈ range.dates ↔ fromDate ≤ day ∧ day ≤ toDate) ∧ range.dates.Pairwise (· < ·)
        ∧ getBinVolumeReport db tenant (reportWindow db tenant range) = .ok report
        ∧ getVolumeReport db tenant (reportWindow db tenant range) = .ok volume
        ∧ BinsPartition db tenant zone range.dates (reportWindow db tenant range) report volume)
      ∧ (∀ stored key, binKey stored = some key ↔ ∃ text, stored = some text ∧ strip text ≠ [] ∧ (strip text).length ≤ 4
          ∧ (∀ c ∈ strip text, c.isDigit = true) ∧ key = decimal (Nat.ofDigitChars 10 (strip text) 0))
      ∧ ∀ raw, binKey (some (Normalize.normalizeBin raw)) = binKey (some raw) := by
  obtain ⟨report, volume, hreport, hvolume, hpartition⟩ := binsPartition_windowOf db tenant hzone fromDate
  exact ⟨⟨_, report, volume, localRange_eq hrange zone, (dates_rangeOf hrange zone).1, (dates_rangeOf hrange zone).2, hreport,
    hvolume, hpartition⟩, binKey_eq_some_iff, binKey_normalizeBin⟩

/-- The bin of the legacy check-in, and a current one whose bin is unknown. -/
theorem bins_partition_checkins_sample :
    ∃ report, getBinVolumeReport sampleDatabase sampleTenant
        (reportWindow sampleDatabase sampleTenant (rangeOf sixHoursBehind 0 3)) = .ok report
      ∧ (∃ bin ∈ report.bins, bin.key = "1".toList) ∧ report.unknownCount = 1 ∧ report.checkinCount = 2 := by
  obtain ⟨range, report, _, hrange, _, _, hread, _, hpartition⟩ :=
    (bins_partition_checkins sampleDatabase sampleTenant sixHoursBehind_orderedMidnights (by decide : (0 : Int) ≤ 2)).1
  rw [localRange_eq (by decide)] at hrange
  cases hrange
  refine ⟨report, hread, hpartition.everyBin "1".toList ?_, hpartition.unknown.trans ?_, hpartition.total.trans ?_⟩
  · decide +kernel
  · decide +kernel
  · decide +kernel

end SortView
