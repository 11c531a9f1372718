import SortView.Collector.Events
import SortView.Lib.Json

/-!
# The body of an upload

`payload()` of the safe events (`collector/v2_events.py`) and of a batch of them (`collector/v2_uploader.py`).
-/

namespace SortView

open PyText Calendar

def Kind.text : Kind → Text
  | .checkins => "checkins".toList
  | .rejects => "rejects".toList
  | .acsItems => "acs_items".toList

/-- `if item_key is not None: body["item_key"] = item_key`. -/
def givenText (name : Text) (value : Option Text) : List (Text × Json) :=
  match value with
  | none => []
  | some value => [(name, .text value)]

def textOrNull : Option Text → Json
  | none => .null
  | some value => .text value

def boolOrNull : Option Bool → Json
  | none => .null
  | some value => .bool value

def CheckinV2.payload (event : CheckinV2) : Json :=
  .object ([("event_key".toList, .text event.eventKey), ("event_time".toList, .text (formatTime event.eventTime)),
    ("destination".toList, .text event.destination), ("bin".toList, .text event.bin)] ++ givenText "item_key".toList event.itemKey)

def RejectV2.payload (event : RejectV2) : Json :=
  .object ([("event_key".toList, .text event.eventKey), ("event_time".toList, .text (formatTime event.eventTime)),
    ("error_class".toList, .text event.errorClass.text)] ++ givenText "item_key".toList event.itemKey)

def AcsItemV2.payload (event : AcsItemV2) : Json :=
  .object ([("state".toList, .text event.state.text), ("event_key".toList, .text event.eventKey),
    ("event_time".toList, .text (formatTime event.eventTime)), ("item_key".toList, .text event.itemKey)]
    ++ if event.state = .hold then
        [("destination".toList, textOrNull event.fields.destination), ("is_ill".toList, boolOrNull event.fields.isIll),
          ("is_branch_services".toList, boolOrNull event.fields.isBranchServices),
          ("is_collection_services".toList, boolOrNull event.fields.isCollectionServices)]
          ++ givenText "ruleset_id".toList event.rulesetId
      else [])

def SafeEvent.payload : SafeEvent → Json
  | .checkin event => event.payload
  | .reject event => event.payload
  | .acsItem event => event.payload

/-- `Batch`: the events of one request, by the list they are placed in. -/
structure UploadBatch where
  keyId : Text
  order : Kind → List SafeEvent

/-- `Batch.of`. -/
def UploadBatch.of (keyId : Text) (events : List SafeEvent) : UploadBatch :=
  ⟨keyId, fun kind => events.filter fun event => event.kind = kind⟩

/-- The members of the body of a batch: an empty list is left out. -/
def UploadBatch.members (batch : UploadBatch) : List (Text × Json) :=
  [("contract_version".toList, .int 2), ("key_id".toList, .text batch.keyId)]
    ++ (kinds.filter fun kind => !(batch.order kind).isEmpty).map fun kind =>
      (kind.text, .array ((batch.order kind).map SafeEvent.payload))

/-- `Batch.payload`. -/
def UploadBatch.payload (batch : UploadBatch) : Json := .object batch.members

/-- A list of the body is there when it has an event. -/
theorem UploadBatch.lookup_members (batch : UploadBatch) (kind : Kind) :
    batch.members.lookup kind.text
      = if (batch.order kind).isEmpty then none else some (.array ((batch.order kind).map SafeEvent.payload)) := by
  rw [members]
  cases hcheckins : (batch.order .checkins).isEmpty <;> cases hrejects : (batch.order .rejects).isEmpty <;>
    cases hitems : (batch.order .acsItems).isEmpty <;> cases kind <;>
    simp only [kinds, List.filter_cons, List.filter_nil, hcheckins, hrejects, hitems, Bool.not_true, Bool.not_false, if_true,
      Bool.false_eq_true, if_false] <;> rfl

end SortView
