import SortView.Lib.Json
import SortView.Services.IngestEvents

/-!
# The upload models of the server

`services/ingest_v2_models.py`: what `UploadV2Request` accepts of a body, and what it makes of it. The models are strict and
forbid other fields. The lists of errors are left out.
-/

namespace SortView.UploadModels

open PyText Calendar

/-! ### Fields -/

/-- `extra="forbid"`. -/
def onlyFields (names : List Text) (items : List (Text × Json)) : Bool := items.all fun item => names.contains item.1

/-- A field without a default. -/
def required {α : Type} (items : List (Text × Json)) (name : Text) (read : Json → Option α) : Option α :=
  (items.lookup name).bind read

/-- A field `T | None = None`. -/
def optional {α : Type} (items : List (Text × Json)) (name : Text) (read : Json → Option α) : Option (Option α) :=
  match items.lookup name with
  | none => some none
  | some .null => some none
  | some value => (read value).map some

/-- `StringConstraints(pattern=…)` of a strict text. -/
def patterned (pattern : Text → Bool) (value : Json) : Option Text := value.text?.filter pattern

/-- `AwareTimestamp`. -/
def awareTimestamp (now : Instant) (value : Json) : Option Instant := value.text?.bind (parseOffsetTimestamp now)

def maxEventsTotal : Nat := 1000

def maxEventsPerList : Nat := 1000

/-- A list with a default, of at most `MAX_EVENTS_PER_LIST` members. -/
def boundedList {α : Type} (items : List (Text × Json)) (name : Text) (read : Json → Option α) : Option (List α) :=
  match items.lookup name with
  | none => some []
  | some value =>
      (value.array?.filter fun members => decide (members.length ≤ maxEventsPerList)).bind fun members => members.mapM read

/-! ### Events -/

/-- `ERROR_CLASSES`. -/
def errorClasses : List ErrorClass :=
  [.itemNotFound, .ilsAcsFailure, .rfidCollision, .configurationError, .routingError, .communicationError, .other, .unknown]

def errorClass (value : Json) : Option ErrorClass := value.text?.bind fun text => errorClasses.find? fun known => known.text = text

variable (now : Instant)

def checkinEvent (value : Json) : Option CheckinEvent := do
  let items ← value.items?.filter
    (onlyFields ["event_key".toList, "event_time".toList, "item_key".toList, "destination".toList, "bin".toList])
  let eventKey ← required items "event_key".toList (patterned isHexKey)
  let eventTime ← required items "event_time".toList (awareTimestamp now)
  let itemKey ← optional items "item_key".toList (patterned isHexKey)
  let destination ← required items "destination".toList (patterned isDestinationSlug)
  let bin ← required items "bin".toList (patterned isBin)
  return ⟨eventKey, eventTime, itemKey, destination, bin⟩

def rejectEvent (value : Json) : Option RejectEvent := do
  let items ← value.items?.filter
    (onlyFields ["event_key".toList, "event_time".toList, "error_class".toList, "item_key".toList])
  let eventKey ← required items "event_key".toList (patterned isHexKey)
  let eventTime ← required items "event_time".toList (awareTimestamp now)
  let errorClass ← required items "error_class".toList errorClass
  let itemKey ← optional items "item_key".toList (patterned isHexKey)
  return ⟨eventKey, eventTime, errorClass, itemKey⟩

def acsHoldEvent (items : List (Text × Json)) : Option AcsItemEvent := do
  let items ← (some items).filter (onlyFields ["state".toList, "event_key".toList, "event_time".toList, "item_key".toList,
    "destination".toList, "is_ill".toList, "is_branch_services".toList, "is_collection_services".toList, "ruleset_id".toList])
  let eventKey ← required items "event_key".toList (patterned isHexKey)
  let eventTime ← required items "event_time".toList (awareTimestamp now)
  let itemKey ← required items "item_key".toList (patterned isHexKey)
  let destination ← required items "destination".toList (patterned isDestinationSlug)
  let isIll ← required items "is_ill".toList Json.bool?
  let isBranchServices ← required items "is_branch_services".toList Json.bool?
  let isCollectionServices ← required items "is_collection_services".toList Json.bool?
  let rulesetId ← optional items "ruleset_id".toList (patterned isUuid4)
  return .hold eventKey eventTime itemKey destination isIll isBranchServices isCollectionServices rulesetId

def acsNonHoldEvent (state : NonHoldState) (items : List (Text × Json)) : Option AcsItemEvent := do
  let items ← (some items).filter (onlyFields ["state".toList, "event_key".toList, "event_time".toList, "item_key".toList])
  let eventKey ← required items "event_key".toList (patterned isHexKey)
  let eventTime ← required items "event_time".toList (awareTimestamp now)
  let itemKey ← required items "item_key".toList (patterned isHexKey)
  return .nonHold state eventKey eventTime itemKey

/-- `AcsItemEvent`: the model is chosen by `state`. -/
def acsItemEvent (value : Json) : Option AcsItemEvent := do
  let items ← value.items?
  let state ← required items "state".toList Json.text?
  if state = AcsState.hold.text then acsHoldEvent now items
  else if state = NonHoldState.nonHold101.state.text then acsNonHoldEvent now .nonHold101 items
  else if state = NonHoldState.otherCode10.state.text then acsNonHoldEvent now .otherCode10 items
  else none

/-! ### The request -/

structure UploadV2Request where
  keyId : Text
  checkins : List CheckinEvent
  rejects : List RejectEvent
  acsItems : List AcsItemEvent

/-- `ContractVersion`: the integer 2. -/
def contractVersion : Json → Option Unit
  | .int 2 => some ()
  | _ => none

/-- The validation of a body at a time of the server. -/
def uploadV2Request (body : Json) : Option UploadV2Request := do
  let items ← body.items?.filter
    (onlyFields ["contract_version".toList, "key_id".toList, "checkins".toList, "rejects".toList, "acs_items".toList])
  let _ ← required items "contract_version".toList contractVersion
  let keyId ← required items "key_id".toList (patterned isUuid4)
  let checkins ← boundedList items "checkins".toList (checkinEvent now)
  let rejects ← boundedList items "rejects".toList (rejectEvent now)
  let acsItems ← boundedList items "acs_items".toList (acsItemEvent now)
  if checkins.length + rejects.length + acsItems.length ≤ maxEventsTotal then some ⟨keyId, checkins, rejects, acsItems⟩ else none

end SortView.UploadModels
