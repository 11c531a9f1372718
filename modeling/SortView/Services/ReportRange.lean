import SortView.Lib.IsoTime
import SortView.Services.OperationalReport

/-!
# The range of a report request

`services/entitlement_service.py` (`history_days`), `validate_report_range` and `local_range` of
`services/operational_report_service.py`, and `customer_api/report_routes.py` (`require_report_range`), with the bounds of
Python's `date`, `datetime` and `timedelta`. A day is numbered from 0001-01-01.
-/

namespace SortView

namespace ReportRange

open PyText Calendar

/-- A `date` of Python. -/
structure LocalDate where
  day : Nat
  inRange : day < maxDays
  deriving DecidableEq

namespace LocalDate

def date (localDate : LocalDate) : Date := dateOf localDate.day

/-- `isoformat()`. -/
def text (localDate : LocalDate) : Text := localDate.date.written

end LocalDate

/-- A zone whose offset is always less than a day. -/
structure ProductZone where
  zone : Zone
  offset_lt : ∀ reading, reading - dayLength < zone.toUtc reading ∧ zone.toUtc reading < reading + dayLength

/-! ### The plan's history -/

/-- A row of `feature_entitlements`. -/
structure Feature where
  enabled : Bool
  limitValue : Option Int

/-- `DEFAULT_HISTORY_DAYS`. -/
def defaultHistoryDays : Int := 30

/-- `_limit_or_unlimited`: none is no limit. -/
def limitOrUnlimited (feature : Option Feature) (default : Int) : Option Int :=
  match feature with
  | none => some default
  | some feature =>
      if !feature.enabled then some default
      else
        match feature.limitValue with
        | none => none
        | some limit => if limit ≤ 0 then some default else some limit

/-- `history_days_limit`. -/
def historyDaysLimit (feature : Option Feature) : Option Int := limitOrUnlimited feature defaultHistoryDays

/-- What `require_report_range` raises. -/
inductive Failure where
  | requestValidation (type : String) (loc : List String) (msg : String)
  | customerApi (status : Nat) (code message : String)
  | valueError (message : String)
  | overflowError
  deriving DecidableEq

/-- `date - timedelta(days=days)`. -/
def LocalDate.before (localDate : LocalDate) (days : Int) : Except Failure LocalDate :=
  if h : 0 ≤ (localDate.day : Int) - days ∧ ((localDate.day : Int) - days).toNat < maxDays then
    .ok ⟨((localDate.day : Int) - days).toNat, h.2⟩
  else .error .overflowError

/-- `earliest_report_date`: none is no earliest date. -/
def earliestReportDate (feature : Option Feature) (today : LocalDate) : Except Failure (Option LocalDate) :=
  match historyDaysLimit feature with
  | none => .ok none
  | some days => (today.before (days - 1)).map some

/-! ### The range -/

/-- `MAX_REPORT_RANGE_DAYS`. -/
def maxReportRangeDays : Nat := 3660

/-- The problems of `ReportRangeError`. -/
inductive RangeError where
  | rangeOrder
  | rangeInFuture
  | rangeTooLong
  deriving DecidableEq

namespace RangeError

def problem : RangeError → String
  | rangeOrder => "range_order"
  | rangeInFuture => "range_in_future"
  | rangeTooLong => "range_too_long"

def field : RangeError → String
  | rangeOrder => "from"
  | rangeInFuture => "to"
  | rangeTooLong => "to"

/-- The answer of `require_report_range` to the error. -/
def failure (error : RangeError) : Failure :=
  .requestValidation ("report_" ++ error.problem) ["query", error.field] "The date range cannot be reported on."

end RangeError

/-- `validate_report_range`. -/
def validateReportRange (fromDate toDate today : LocalDate) : Except RangeError Unit :=
  if toDate.day < fromDate.day then .error .rangeOrder
  else if today.day < toDate.day then .error .rangeInFuture
  else if maxReportRangeDays < toDate.day - fromDate.day + 1 then .error .rangeTooLong
  else .ok ()

/-- `astimezone(UTC)` of a local midnight. -/
def midnightAsUtc (zone : Zone) (localDate : Int) : Except Failure Int :=
  let instant := localMidnightUtc zone localDate
  if 0 ≤ instant ∧ instant < maxMicroseconds then .ok instant else .error .overflowError

/-- `local_day_bounds`. -/
def checkedDayBounds (zone : Zone) (localDate : Int) : Except Failure LocalDayBounds := do
  if maxDays ≤ localDate + 1 then .error .overflowError
  else
    let startUtc ← midnightAsUtc zone localDate
    let endUtc ← midnightAsUtc zone (localDate + 1)
    return ⟨midnight localDate, midnight (localDate + 1), startUtc, endUtc⟩

/-- The dates of a range, both ends included. -/
def datesBetween (fromDate toDate : LocalDate) : List Int :=
  (List.range (toDate.day - fromDate.day + 1)).map fun (offset : Nat) => (fromDate.day : Int) + offset

/-- `local_range`. -/
def checkedLocalRange (fromDate toDate : LocalDate) (zone : Zone) : Except Failure LocalRange :=
  if toDate.day < fromDate.day then .error (.valueError "a range must not end before it starts")
  else do
    let bounds ← (datesBetween fromDate toDate).mapM (checkedDayBounds zone)
    return {
      zone := zone
      dates := datesBetween fromDate toDate
      v1DayBoundariesLocal :=
        bounds.map LocalDayBounds.v1StartLocal ++ (bounds.getLast?.map LocalDayBounds.v1EndLocal).toList
      v2DayBoundariesUtc :=
        bounds.map LocalDayBounds.v2StartUtc ++ (bounds.getLast?.map LocalDayBounds.v2EndUtc).toList }

structure RequestedRange where
  localRange : LocalRange
  includesToday : Bool

/-- The refusal of a range that starts before the plan's history. -/
def beforeHistory : Failure :=
  .customerApi 422 "range_before_history" "The selected range starts before this organization's available reporting window."

/-- `require_report_range`, on the product's current date. -/
def requireReportRange (zone : Zone) (today : LocalDate) (feature : Option Feature) (fromDate toDate : LocalDate) :
    Except Failure RequestedRange := do
  match validateReportRange fromDate toDate today with
  | .error error => .error error.failure
  | .ok () =>
      let earliest ← earliestReportDate feature today
      if earliest.any fun earliest => fromDate.day < earliest.day then .error beforeHistory
      else
        let range ← checkedLocalRange fromDate toDate zone
        return ⟨range, toDate = today⟩

/-! ### When the arithmetic stays in the calendar -/

theorem LocalDate.before_of_le {localDate : LocalDate} {days : Int} (hnonneg : 0 ≤ days) (hdays : days ≤ localDate.day) :
    ∃ earlier : LocalDate, localDate.before days = .ok earlier ∧ (earlier.day : Int) = localDate.day - days := by
  have hrange := localDate.inRange
  have hfits : 0 ≤ (localDate.day : Int) - days ∧ ((localDate.day : Int) - days).toNat < maxDays := by omega
  exact ⟨_, dif_pos hfits, Int.toNat_of_nonneg hfits.1⟩

theorem LocalDate.before_of_lt {localDate : LocalDate} {days : Int} (hdays : localDate.day < days) :
    localDate.before days = .error .overflowError := by
  have hfits : ¬ (0 ≤ (localDate.day : Int) - days ∧ ((localDate.day : Int) - days).toNat < maxDays) := by omega
  exact dif_neg hfits

theorem historyDaysLimit_pos {feature : Option Feature} {days : Int} (h : historyDaysLimit feature = some days) : 0 < days := by
  rw [historyDaysLimit] at h
  unfold limitOrUnlimited at h
  split at h
  · cases h
    decide
  · split at h
    · cases h
      decide
    · split at h
      · cases h
      · split at h
        · cases h
          decide
        · next hlimit =>
          cases h
          exact Int.not_le.1 hlimit

/-- The midnights of the calendar are instants of the calendar, but for the first one ahead of UTC. -/
theorem midnightAsUtc_eq (zone : ProductZone) {localDate : Nat} (hdate : localDate < maxDays)
    (hfirst : localDate = 0 → 0 ≤ zone.zone.toUtc 0) :
    midnightAsUtc zone.zone localDate = .ok (localMidnightUtc zone.zone localDate) := by
  obtain ⟨hlow, hhigh⟩ := zone.offset_lt (midnight localDate)
  rw [midnight, dayLength] at hlow hhigh
  have hstart : 0 ≤ localMidnightUtc zone.zone localDate := by
    rw [localMidnightUtc, midnight, dayLength]
    rcases Nat.eq_zero_or_pos localDate with rfl | hpos
    · exact hfirst rfl
    · omega
  have hend : localMidnightUtc zone.zone localDate < maxMicroseconds := by
    have hlast : (localDate : Int) + 1 ≤ maxDays := by omega
    have hmicroseconds : (maxMicroseconds : Int) = maxDays * 86400000000 := by
      unfold maxMicroseconds
      generalize maxDays = days
      omega
    rw [hmicroseconds, localMidnightUtc, midnight, dayLength]
    omega
  rw [midnightAsUtc]
  exact if_pos ⟨hstart, hend⟩

theorem midnightAsUtc_first {zone : Zone} (hfirst : zone.toUtc 0 < 0) : midnightAsUtc zone 0 = .error .overflowError :=
  if_neg fun h => absurd h.1 (Int.not_le.2 hfirst)

/-- The days of a range have bounds where the day after is a date and the first midnight is an instant. -/
theorem checkedDayBounds_eq (zone : ProductZone) {localDate : Nat} (hnext : localDate + 1 < maxDays)
    (hfirst : localDate = 0 → 0 ≤ zone.zone.toUtc 0) :
    checkedDayBounds zone.zone localDate = .ok (localDayBounds localDate zone.zone) := by
  have hguard : ¬ ((maxDays : Int) ≤ (localDate : Int) + 1) := by omega
  have hend := midnightAsUtc_eq zone hnext (fun h => absurd h (Nat.succ_ne_zero _))
  rw [Nat.cast_add, Nat.cast_one] at hend
  rw [checkedDayBounds, if_neg hguard, midnightAsUtc_eq zone (Nat.lt_of_succ_lt hnext) hfirst, hend]
  rfl

theorem checkedDayBounds_error {zone : ProductZone} {localDate : Nat} (hdate : localDate < maxDays)
    (h : ¬ (localDate + 1 < maxDays ∧ (localDate = 0 → 0 ≤ zone.zone.toUtc 0))) :
    checkedDayBounds zone.zone localDate = .error .overflowError := by
  by_cases hnext : localDate + 1 < maxDays
  · obtain ⟨rfl, hfirst⟩ : localDate = 0 ∧ zone.zone.toUtc 0 < 0 := by
      by_contra hother
      exact h ⟨hnext, fun hzero => Int.not_lt.1 fun hlt => hother ⟨hzero, hlt⟩⟩
    have hguard : ¬ ((maxDays : Int) ≤ ((0 : Nat) : Int) + 1) := by omega
    rw [checkedDayBounds, if_neg hguard, Nat.cast_zero, midnightAsUtc_first hfirst]
    rfl
  · have hguard : (maxDays : Int) ≤ (localDate : Int) + 1 := by omega
    rw [checkedDayBounds, if_pos hguard]

/-- A day that has bounds is followed by a date of the calendar, and its bounds are those of days without end. -/
theorem of_checkedDayBounds {zone : Zone} {localDate : Int} {bounds : LocalDayBounds}
    (h : checkedDayBounds zone localDate = .ok bounds) : localDate + 1 < maxDays ∧ bounds = localDayBounds localDate zone := by
  have hinstant : ∀ {localDate instant : Int}, midnightAsUtc zone localDate = .ok instant → instant = localMidnightUtc zone localDate := by
    intro localDate instant hinstant
    rw [midnightAsUtc] at hinstant
    split at hinstant <;> cases hinstant
    rfl
  rw [checkedDayBounds] at h
  split at h
  · cases h
  · next hnext =>
    cases hstart : midnightAsUtc zone localDate with
    | error failure =>
        rw [hstart] at h
        cases h
    | ok start =>
        cases hstop : midnightAsUtc zone (localDate + 1) with
        | error failure =>
            rw [hstart, hstop] at h
            cases h
        | ok stop =>
            rw [hstart, hstop] at h
            cases h
            rw [hinstant hstart, hinstant hstop]
            exact ⟨Int.not_le.1 hnext, rfl⟩

/-- What `local_range` needs of the calendar. -/
def RangeFits (zone : Zone) (fromDate toDate : LocalDate) : Prop :=
  toDate.day + 1 < maxDays ∧ (fromDate.day = 0 → 0 ≤ zone.toUtc 0)

theorem mapM_ok {α β ε : Type} {f : α → Except ε β} {g : α → β} : ∀ {items : List α}, (∀ x ∈ items, f x = .ok (g x)) →
    items.mapM f = .ok (items.map g)
  | [], _ => rfl
  | x :: items, h => by
      rw [List.mapM_cons, h x (List.mem_cons_self ..), mapM_ok fun y hy => h y (List.mem_cons_of_mem _ hy)]
      rfl

theorem mapM_error {α β ε : Type} {f : α → Except ε β} {fault : ε} : ∀ {items : List α},
    (∀ x ∈ items, f x = .error fault ∨ ∃ y, f x = .ok y) → (∃ x ∈ items, f x = .error fault) → items.mapM f = .error fault
  | [], _, hfails => by
      obtain ⟨x, hx, -⟩ := hfails
      cases hx
  | x :: items, h, hfails => by
      rw [List.mapM_cons]
      rcases h x (List.mem_cons_self ..) with hx | ⟨y, hy⟩
      · rw [hx]
        rfl
      · rw [hy]
        have htail : items.mapM f = .error fault := by
          apply mapM_error fun z hz => h z (List.mem_cons_of_mem _ hz)
          obtain ⟨z, hz, hfail⟩ := hfails
          rcases List.mem_cons.1 hz with rfl | hz
          · rw [hy] at hfail
            cases hfail
          · exact ⟨z, hz, hfail⟩
        rw [htail]
        rfl

/-- A range that fits is the range of its days. -/
theorem checkedLocalRange_of_fits (zone : ProductZone) {fromDate toDate : LocalDate} (horder : fromDate.day ≤ toDate.day)
    (hfits : RangeFits zone.zone fromDate toDate) :
    ∃ range, checkedLocalRange fromDate toDate zone.zone = .ok range
      ∧ localRange fromDate.day toDate.day zone.zone = .ok range := by
  have hbounds : (datesBetween fromDate toDate).mapM (checkedDayBounds zone.zone)
      = .ok ((datesBetween fromDate toDate).map fun localDate => localDayBounds localDate zone.zone) := by
    apply mapM_ok
    intro localDate hdate
    obtain ⟨offset, hoffset, rfl⟩ := List.mem_map.1 hdate
    have hnext := hfits.1
    rw [List.mem_range] at hoffset
    rw [← Nat.cast_add]
    exact checkedDayBounds_eq zone (by omega) fun hzero => hfits.2 (by omega)
  have hdays : ((toDate.day : Int) - fromDate.day).toNat + 1 = toDate.day - fromDate.day + 1 := by omega
  have hstart : ¬ ((toDate.day : Int) < fromDate.day) := by omega
  rw [localRange, if_neg hstart, hdays]
  refine ⟨_, ?_, rfl⟩
  rw [checkedLocalRange, if_neg (Nat.not_lt.2 horder), hbounds]
  rfl

theorem checkedLocalRange_of_not_fits {zone : ProductZone} {fromDate toDate : LocalDate} (horder : fromDate.day ≤ toDate.day)
    (hfits : ¬ RangeFits zone.zone fromDate toDate) :
    checkedLocalRange fromDate toDate zone.zone = .error .overflowError := by
  have hto := toDate.inRange
  have hfails : (datesBetween fromDate toDate).mapM (checkedDayBounds zone.zone) = .error .overflowError := by
    apply mapM_error
    · intro localDate hdate
      obtain ⟨offset, hoffset, rfl⟩ := List.mem_map.1 hdate
      rw [List.mem_range] at hoffset
      rw [← Nat.cast_add]
      by_cases hday : fromDate.day + offset + 1 < maxDays ∧ (fromDate.day + offset = 0 → 0 ≤ zone.zone.toUtc 0)
      · exact Or.inr ⟨_, checkedDayBounds_eq zone hday.1 hday.2⟩
      · exact Or.inl (checkedDayBounds_error (by omega) hday)
    · -- the last day has no next one, or the first has no midnight
      by_cases hnext : toDate.day + 1 < maxDays
      · have hfirst : ¬ (fromDate.day = 0 → 0 ≤ zone.zone.toUtc 0) := fun h => hfits ⟨hnext, h⟩
        refine ⟨_, List.mem_map.2 ⟨0, List.mem_range.2 (Nat.succ_pos _), rfl⟩, ?_⟩
        rw [← Nat.cast_add]
        exact checkedDayBounds_error (by omega) fun h => hfirst h.2
      · refine ⟨_, List.mem_map.2 ⟨toDate.day - fromDate.day, List.mem_range.2 (Nat.lt_succ_self _), rfl⟩, ?_⟩
        rw [← Nat.cast_add]
        exact checkedDayBounds_error (by omega) fun h => hnext (by omega)
  rw [checkedLocalRange, if_neg (Nat.not_lt.2 horder), hfails]
  rfl

end ReportRange

end SortView
