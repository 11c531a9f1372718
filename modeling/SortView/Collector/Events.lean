import SortView.Lib.Case
import SortView.Lib.IsoTime

/-!
# Safe events

`collector/v2_events.py`: the only values that leave the transformation layer. An event carries the proof
that each of its fields is in its format.
-/

namespace SortView

open PyText Calendar

/-! ### Formats -/

/-- `HMAC_HEX_PATTERN`: 64 small hexadecimal digits. -/
def isHexKey (text : Text) : Bool :=
  text.length == 64 && text.all fun c => ('0' ≤ c && c ≤ '9') || ('a' ≤ c && c ≤ 'f')

/-- `DESTINATION_PATTERN`: a small letter, then at most 31 small letters, digits and underscores. -/
def isDestinationSlug (slug : Text) : Bool :=
  match slug with
  | [] => false
  | first :: rest =>
      ('a' ≤ first && first ≤ 'z')
        && rest.all (fun c => ('a' ≤ c && c ≤ 'z') || ('0' ≤ c && c ≤ '9') || c == '_') && rest.length ≤ 31

/-- `BIN_PATTERN`. -/
def isBin (bin : Text) : Bool :=
  match bin with
  | [] => false
  | first :: rest =>
      (('a' ≤ first && first ≤ 'z') || ('0' ≤ first && first ≤ '9'))
        && rest.all (fun c => ('a' ≤ c && c ≤ 'z') || ('0' ≤ c && c ≤ '9') || c == '_') && rest.length ≤ 15

/-- `UUID4_PATTERN`. -/
def isUuid4 (text : Text) : Bool :=
  let isHex (c : Char) : Bool := ('0' ≤ c && c ≤ '9') || ('a' ≤ c && c ≤ 'f')
  match split '-' text with
  | [first, second, third, fourth, fifth] =>
      first.length == 8 && second.length == 4 && third.length == 4 && fourth.length == 4 && fifth.length == 12
        && (first ++ second ++ third ++ fourth ++ fifth).all isHex
        && third.head? == some '4' && (fourth.head?.any fun c => c == '8' || c == '9' || c == 'a' || c == 'b')
  | _ => false

/-- The closed set of reject classes. -/
inductive ErrorClass where
  | itemNotFound
  | ilsAcsFailure
  | rfidCollision
  | configurationError
  | routingError
  | communicationError
  | other
  | unknown
  deriving DecidableEq

def ErrorClass.text : ErrorClass → Text
  | .itemNotFound => "item_not_found".toList
  | .ilsAcsFailure => "ils_acs_failure".toList
  | .rfidCollision => "rfid_collision".toList
  | .configurationError => "configuration_error".toList
  | .routingError => "routing_error".toList
  | .communicationError => "communication_error".toList
  | .other => "other".toList
  | .unknown => "unknown".toList

theorem ErrorClass.text_injective {left right : ErrorClass} (h : left.text = right.text) : left = right := by
  cases left <;> cases right <;> first | rfl | exact absurd h (by decide)

/-- `ACS_ITEM_STATES`. -/
inductive AcsState where
  | hold
  | nonHold101
  | otherCode10
  deriving DecidableEq

def AcsState.text : AcsState → Text
  | .hold => "hold".toList
  | .nonHold101 => "non_hold_101".toList
  | .otherCode10 => "other_code10".toList

theorem AcsState.text_injective {left right : AcsState} (h : left.text = right.text) : left = right := by
  cases left <;> cases right <;> first | rfl | exact absurd h (by decide)

/-- The three payload lists. -/
inductive Kind where
  | checkins
  | rejects
  | acsItems
  deriving DecidableEq

/-- `KINDS`, in the order the server names them. -/
def kinds : List Kind := [.checkins, .rejects, .acsItems]

/-! ### The event types -/

/-- The field of the first check that fails: what `UnsafeEventError` names. -/
def firstUnsafe (checks : List (Text × Bool)) : Option Text := (checks.find? fun check => !check.2).map Prod.fst

theorem firstUnsafe_eq_none {checks : List (Text × Bool)} : firstUnsafe checks = none ↔ ∀ check ∈ checks, check.2 = true := by
  simp [firstUnsafe]

/-- The checks of `CheckinV2.__post_init__`. An instant is a time of UTC by its type. -/
def checkinChecks (eventKey : Text) (itemKey : Option Text) (destination bin : Text) : List (Text × Bool) :=
  [("event_key".toList, isHexKey eventKey), ("item_key".toList, itemKey.all isHexKey),
    ("destination".toList, isDestinationSlug destination), ("bin".toList, isBin bin)]

structure CheckinV2 where
  eventKey : Text
  eventTime : Instant
  itemKey : Option Text
  destination : Text
  bin : Text
  safe : firstUnsafe (checkinChecks eventKey itemKey destination bin) = none
  deriving DecidableEq

def CheckinV2.make (eventKey : Text) (eventTime : Instant) (itemKey : Option Text) (destination bin : Text) :
    Except Text CheckinV2 :=
  match h : firstUnsafe (checkinChecks eventKey itemKey destination bin) with
  | none => .ok ⟨eventKey, eventTime, itemKey, destination, bin, h⟩
  | some field => .error field

/-- The checks of `RejectV2.__post_init__`. -/
def rejectChecks (eventKey : Text) (itemKey : Option Text) : List (Text × Bool) :=
  [("event_key".toList, isHexKey eventKey), ("item_key".toList, itemKey.all isHexKey)]

structure RejectV2 where
  eventKey : Text
  eventTime : Instant
  errorClass : ErrorClass
  itemKey : Option Text
  safe : firstUnsafe (rejectChecks eventKey itemKey) = none
  deriving DecidableEq

def RejectV2.make (eventKey : Text) (eventTime : Instant) (errorClass : ErrorClass) (itemKey : Option Text) :
    Except Text RejectV2 :=
  match h : firstUnsafe (rejectChecks eventKey itemKey) with
  | none => .ok ⟨eventKey, eventTime, errorClass, itemKey, h⟩
  | some field => .error field

/-- The classification of a hold, as far as it is given. -/
structure HoldFields where
  destination : Option Text
  isIll : Option Bool
  isBranchServices : Option Bool
  isCollectionServices : Option Bool
  deriving DecidableEq

def HoldFields.none : HoldFields := ⟨.none, .none, .none, .none⟩

/-- The checks of `AcsItemV2.__post_init__`. -/
def acsItemChecks (eventKey itemKey : Text) (state : AcsState) (fields : HoldFields) (rulesetId : Option Text) : List (Text × Bool) :=
  [("event_key".toList, isHexKey eventKey), ("item_key".toList, isHexKey itemKey)] ++
    if state = .hold then
      [("destination".toList, fields.destination.any isDestinationSlug),
        ("flags".toList, fields.isIll.isSome && fields.isBranchServices.isSome && fields.isCollectionServices.isSome),
        ("ruleset_id".toList, rulesetId.all isUuid4)]
    else [("non_hold_shape".toList, decide (fields = .none) && rulesetId.isNone)]

structure AcsItemV2 where
  eventKey : Text
  eventTime : Instant
  itemKey : Text
  state : AcsState
  fields : HoldFields
  rulesetId : Option Text
  safe : firstUnsafe (acsItemChecks eventKey itemKey state fields rulesetId) = none
  deriving DecidableEq

def AcsItemV2.make (eventKey : Text) (eventTime : Instant) (itemKey : Text) (state : AcsState) (fields : HoldFields)
    (rulesetId : Option Text) : Except Text AcsItemV2 :=
  match h : firstUnsafe (acsItemChecks eventKey itemKey state fields rulesetId) with
  | none => .ok ⟨eventKey, eventTime, itemKey, state, fields, rulesetId, h⟩
  | some field => .error field

inductive SafeEvent where
  | checkin (event : CheckinV2)
  | reject (event : RejectV2)
  | acsItem (event : AcsItemV2)
  deriving DecidableEq

def SafeEvent.kind : SafeEvent → Kind
  | .checkin _ => .checkins
  | .reject _ => .rejects
  | .acsItem _ => .acsItems

def SafeEvent.eventKey : SafeEvent → Text
  | .checkin event => event.eventKey
  | .reject event => event.eventKey
  | .acsItem event => event.eventKey

def SafeEvent.eventTime : SafeEvent → Instant
  | .checkin event => event.eventTime
  | .reject event => event.eventTime
  | .acsItem event => event.eventTime

end SortView
