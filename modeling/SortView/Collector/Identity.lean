import SortView.Collector.Events

/-!
# Keyed identity

`collector/v2_identity.py`: the purpose keys, the identifiers they give, the canonical forms of events and
the one place where an event is built. HMAC-SHA256 under a key is a function of the message.
-/

namespace SortView

open PyText Calendar

/-- The 32 bytes of a digest, written as their hexadecimal digits. -/
structure Digest where
  hex : Text
  valid : isHexKey hex = true
  deriving DecidableEq

/-- HMAC-SHA256 under the five purpose keys, as functions of the message. -/
structure SubKeys where
  event : Text → Digest
  item : Text → Digest
  patron : Text → Digest
  name : Text → Digest
  ruleset : Text → Digest

variable (keys : SubKeys)

def itemKey (barcode : Text) : Digest := keys.item (strip barcode)

def patronIdHmac (patronIdentifier : Text) : Digest := keys.patron (strip patronIdentifier)

def nameHmac (patronName : Text) : Digest := keys.name (upper (strip patronName))

def rulesetFingerprint (canonicalRules : Text) : Digest := keys.ruleset canonicalRules

/-! ### Canonical forms -/

/-- `ABSENT`. -/
def absentText : Text := "~".toList

/-- One field of a canonical form: `name=value`. -/
def fieldLine (field : Text × Text) : Text := field.1 ++ ('=' :: field.2)

/-- `_canonical`: a header and the fields, a line each; refused when a value has a line break or a character
outside ASCII. -/
def canonicalForm (kind : Text) (fields : List (Text × Text)) : Option Text :=
  if fields.any fun field => field.2.any fun c => c == '\n' || c == '\r' || 128 ≤ c.toNat then none
  else some (join '\n' (("sortview/v2/event/".toList ++ kind ++ "/1".toList) :: fields.map fieldLine))

/-- `item_key or ABSENT`. -/
def textOrAbsent (value : Option Text) : Text :=
  match value with
  | none => absentText
  | some text => if text = [] then absentText else text

/-- `_flag`. -/
def flagText : Option Bool → Text
  | none => absentText
  | some true => "1".toList
  | some false => "0".toList

/-- `canonical_checkin`. -/
def canonicalCheckin (eventTime : Text) (itemKey : Option Text) (destination bin : Text) : Option Text :=
  canonicalForm "checkin".toList [("event_time".toList, eventTime), ("item_key".toList, textOrAbsent itemKey),
    ("destination".toList, destination), ("bin".toList, bin)]

/-- `canonical_reject`. -/
def canonicalReject (eventTime : Text) (itemKey : Option Text) (errorClass : ErrorClass) : Option Text :=
  canonicalForm "reject".toList [("event_time".toList, eventTime), ("item_key".toList, textOrAbsent itemKey),
    ("error_class".toList, errorClass.text)]

/-- The fields of `canonical_acs_item`. -/
def acsItemFields (eventTime itemKey : Text) (state : AcsState) (fields : HoldFields) (revision : Int) : List (Text × Text) :=
  [("event_time".toList, eventTime), ("item_key".toList, itemKey), ("state".toList, state.text)] ++
    if state = .hold then
      [("destination".toList, textOrAbsent fields.destination), ("is_ill".toList, flagText fields.isIll),
        ("is_branch_services".toList, flagText fields.isBranchServices),
        ("is_collection_services".toList, flagText fields.isCollectionServices)]
        ++ if 0 < revision then [("revision".toList, decimal revision.toNat)] else []
    else []

/-- `canonical_acs_item`. -/
def canonicalAcsItem (eventTime itemKey : Text) (state : AcsState) (fields : HoldFields) (revision : Int) : Option Text :=
  canonicalForm "acs_item".toList (acsItemFields eventTime itemKey state fields revision)

/-! ### Building events -/

/-- Why an event was not built: a value that no canonical form can hold, or the field `UnsafeEventError` names. -/
inductive BuildError where
  | notCanonical
  | unsafeField (field : Text)
  deriving DecidableEq

/-- `build_checkin`. -/
def buildCheckin (eventTime : Instant) (itemKey : Option Text) (destination bin : Text) : Except BuildError CheckinV2 :=
  match canonicalCheckin (formatTime eventTime) itemKey destination bin with
  | none => .error .notCanonical
  | some canonical => (CheckinV2.make (keys.event canonical).hex eventTime itemKey destination bin).mapError .unsafeField

/-- `build_reject`. -/
def buildReject (eventTime : Instant) (itemKey : Option Text) (errorClass : ErrorClass) : Except BuildError RejectV2 :=
  match canonicalReject (formatTime eventTime) itemKey errorClass with
  | none => .error .notCanonical
  | some canonical => (RejectV2.make (keys.event canonical).hex eventTime errorClass itemKey).mapError .unsafeField

/-- `build_acs_item`. -/
def buildAcsItem (eventTime : Instant) (itemKey : Text) (state : AcsState) (fields : HoldFields) (rulesetId : Option Text)
    (revision : Int) : Except BuildError AcsItemV2 :=
  match canonicalAcsItem (formatTime eventTime) itemKey state fields revision with
  | none => .error .notCanonical
  | some canonical =>
      (AcsItemV2.make (keys.event canonical).hex eventTime itemKey state fields rulesetId).mapError .unsafeField

end SortView
