import SortView.Collector.CanonicalForms

/-!
# Events as the server has them

`services/ingest_v2_models.py` and the rows of `services/ingest_v2_service.py`: an event after its request was
read, the row it is stored as, and the columns a resend is compared on.
-/

namespace SortView

open PyText Calendar

/-! ### Timestamps -/

/-- `_EARLIEST`: the start of the year 2000. -/
def earliestMicroseconds : Nat := daysBefore 1999 * 86400 * 1000000

/-- `_FUTURE_TOLERANCE`: one day. -/
def futureMicroseconds : Nat := 86400 * 1000000

/-- Between the year 2000 and a day ahead of `now`. -/
def acceptedInstant (now instant : Instant) : Bool :=
  earliestMicroseconds ≤ instant.microseconds && instant.microseconds ≤ now.microseconds + futureMicroseconds

/-- `_parse_offset_timestamp`. -/
def parseOffsetTimestamp (now : Instant) (value : Text) : Option Instant :=
  (parseInstant value).filter (acceptedInstant now)

/-! ### Request events -/

structure CheckinEvent where
  eventKey : Text
  eventTime : Instant
  itemKey : Option Text
  destination : Text
  bin : Text
  deriving DecidableEq

structure RejectEvent where
  eventKey : Text
  eventTime : Instant
  errorClass : ErrorClass
  itemKey : Option Text
  deriving DecidableEq

/-- The states of a record that is no hold. -/
inductive NonHoldState where
  | nonHold101
  | otherCode10
  deriving DecidableEq

def NonHoldState.state : NonHoldState → AcsState
  | .nonHold101 => .nonHold101
  | .otherCode10 => .otherCode10

inductive AcsItemEvent where
  | hold (eventKey : Text) (eventTime : Instant) (itemKey destination : Text) (isIll isBranchServices isCollectionServices : Bool)
      (rulesetId : Option Text)
  | nonHold (state : NonHoldState) (eventKey : Text) (eventTime : Instant) (itemKey : Text)
  deriving DecidableEq

/-! ### Rows -/

structure CheckinEventRow where
  eventKey : Text
  eventTime : Instant
  itemKey : Option Text
  destination : Text
  bin : Text
  deriving DecidableEq

structure RejectEventRow where
  eventKey : Text
  eventTime : Instant
  errorClass : Text
  itemKey : Option Text
  deriving DecidableEq

structure AcsItemEventRow where
  eventKey : Text
  eventTime : Instant
  state : Text
  itemKey : Text
  destination : Option Text
  isIll : Option Bool
  isBranchServices : Option Bool
  isCollectionServices : Option Bool
  rulesetId : Option Text
  deriving DecidableEq

/-- `checkin_row`. -/
def checkinRow (event : CheckinEvent) : CheckinEventRow :=
  ⟨event.eventKey, event.eventTime, event.itemKey, event.destination, event.bin⟩

/-- `reject_row`. -/
def rejectRow (event : RejectEvent) : RejectEventRow :=
  ⟨event.eventKey, event.eventTime, event.errorClass.text, event.itemKey⟩

/-- `acs_item_row`: a record that is no hold stores NULL in the columns it does not have. -/
def acsItemRow : AcsItemEvent → AcsItemEventRow
  | .hold eventKey eventTime itemKey destination isIll isBranchServices isCollectionServices rulesetId =>
      ⟨eventKey, eventTime, AcsState.hold.text, itemKey, some destination, some isIll, some isBranchServices,
        some isCollectionServices, rulesetId⟩
  | .nonHold state eventKey eventTime itemKey =>
      ⟨eventKey, eventTime, state.state.text, itemKey, none, none, none, none, none⟩

/-- `CHECKIN_COMPARE_COLUMNS`, as `_content` compares them. -/
def CheckinEventRow.content (row : CheckinEventRow) : Instant × Option Text × Text × Text :=
  (row.eventTime, row.itemKey, row.destination, row.bin)

/-- `REJECT_COMPARE_COLUMNS`. -/
def RejectEventRow.content (row : RejectEventRow) : Instant × Text × Option Text :=
  (row.eventTime, row.errorClass, row.itemKey)

/-- `ACS_ITEM_COMPARE_COLUMNS`: every column but the key and the `ruleset_id`. -/
def AcsItemEventRow.content (row : AcsItemEventRow) :
    Instant × Text × Text × Option Text × Option Bool × Option Bool × Option Bool :=
  (row.eventTime, row.state, row.itemKey, row.destination, row.isIll, row.isBranchServices, row.isCollectionServices)

/-! ### What the server reads of a collector's event -/

/-- The event in a request body, read at `now`: its time is read back from its spelling. -/
def CheckinV2.received (now : Instant) (event : CheckinV2) : Option CheckinEvent :=
  (parseOffsetTimestamp now (formatTime event.eventTime)).map fun time =>
    ⟨event.eventKey, time, event.itemKey, event.destination, event.bin⟩

def RejectV2.received (now : Instant) (event : RejectV2) : Option RejectEvent :=
  (parseOffsetTimestamp now (formatTime event.eventTime)).map fun time =>
    ⟨event.eventKey, time, event.errorClass, event.itemKey⟩

def AcsItemV2.received (now : Instant) (event : AcsItemV2) : Option AcsItemEvent :=
  (parseOffsetTimestamp now (formatTime event.eventTime)).bind fun time =>
    match event.state with
    | .hold =>
        match event.fields with
        | ⟨some destination, some isIll, some isBranchServices, some isCollectionServices⟩ =>
            some (.hold event.eventKey time event.itemKey destination isIll isBranchServices isCollectionServices event.rulesetId)
        | _ => none
    | .nonHold101 => some (.nonHold .nonHold101 event.eventKey time event.itemKey)
    | .otherCode10 => some (.nonHold .otherCode10 event.eventKey time event.itemKey)

theorem parseOffsetTimestamp_formatTime {now instant time : Instant}
    (h : parseOffsetTimestamp now (formatTime instant) = some time) : time = instant.wholeSecond := by
  rw [parseOffsetTimestamp, parseInstant_formatTime] at h
  exact (Option.some.inj (Option.filter_eq_some_iff.1 h).1).symm

theorem CheckinV2.content_received {now : Instant} {event : CheckinV2} {received : CheckinEvent}
    (h : event.received now = some received) : (checkinRow received).eventKey = event.eventKey
      ∧ (checkinRow received).content = (event.eventTime.wholeSecond, event.itemKey, event.destination, event.bin) := by
  obtain ⟨time, htime, rfl⟩ := Option.map_eq_some_iff.1 h
  obtain rfl := parseOffsetTimestamp_formatTime htime
  exact ⟨rfl, rfl⟩

theorem RejectV2.content_received {now : Instant} {event : RejectV2} {received : RejectEvent}
    (h : event.received now = some received) : (rejectRow received).eventKey = event.eventKey
      ∧ (rejectRow received).content = (event.eventTime.wholeSecond, event.errorClass.text, event.itemKey) := by
  obtain ⟨time, htime, rfl⟩ := Option.map_eq_some_iff.1 h
  obtain rfl := parseOffsetTimestamp_formatTime htime
  exact ⟨rfl, rfl⟩

theorem AcsItemV2.fields_of_not_hold (event : AcsItemV2) (hhold : event.state ≠ .hold) : event.fields = .none := by
  have hsafe := firstUnsafe_eq_none.1 event.safe
  have hshape := hsafe ("non_hold_shape".toList, decide (event.fields = .none) && event.rulesetId.isNone)
    (by rw [acsItemChecks, if_neg hhold]; exact List.mem_append_right _ (List.mem_cons_self ..))
  rw [Bool.and_eq_true, decide_eq_true_eq] at hshape
  exact hshape.1

/-- The row of a received ACS item event holds the compared columns of the event. -/
theorem AcsItemV2.content_received {now : Instant} {event : AcsItemV2} {received : AcsItemEvent}
    (h : event.received now = some received) : (acsItemRow received).eventKey = event.eventKey
      ∧ (acsItemRow received).content = (event.eventTime.wholeSecond, event.state.text, event.itemKey, event.fields.destination,
        event.fields.isIll, event.fields.isBranchServices, event.fields.isCollectionServices) := by
  obtain ⟨time, htime, hevent⟩ := Option.bind_eq_some_iff.1 h
  obtain rfl := parseOffsetTimestamp_formatTime htime
  cases hstate : event.state with
  | hold =>
      rw [hstate] at hevent
      dsimp only at hevent
      split at hevent
      · next hfields =>
        cases hevent
        rw [hfields]
        exact ⟨rfl, rfl⟩
      · cases hevent
  | nonHold101 =>
      rw [hstate] at hevent
      cases hevent
      rw [event.fields_of_not_hold (by rw [hstate]; exact AcsState.noConfusion)]
      exact ⟨rfl, rfl⟩
  | otherCode10 =>
      rw [hstate] at hevent
      cases hevent
      rw [event.fields_of_not_hold (by rw [hstate]; exact AcsState.noConfusion)]
      exact ⟨rfl, rfl⟩

end SortView
