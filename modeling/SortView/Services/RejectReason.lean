import SortView.Lib.Case

/-!
# Reject reasons

The closed set of reason codes of `services/reject_reason.py`. A legacy message is classified; a current
error class is only recognised.
-/

namespace SortView

open PyText

inductive RejectReason where
  | itemNotFound
  | ilsAcsFailure
  | rfidCollision
  | configurationError
  | routingError
  | communicationError
  | other
  | unknown
  deriving DecidableEq

namespace RejectReason

def code : RejectReason → Text
  | itemNotFound => "item_not_found".toList
  | ilsAcsFailure => "ils_acs_failure".toList
  | rfidCollision => "rfid_collision".toList
  | configurationError => "configuration_error".toList
  | routingError => "routing_error".toList
  | communicationError => "communication_error".toList
  | other => "other".toList
  | unknown => "unknown".toList

end RejectReason

/-- `REJECT_REASONS`: every reason, in the order of every answer. -/
def rejectReasons : List RejectReason :=
  [.itemNotFound, .ilsAcsFailure, .rfidCollision, .configurationError, .routingError, .communicationError, .other,
    .unknown]

/-- `_REASON_SLOT[reason]`. -/
def reasonSlot (reason : RejectReason) : Nat := rejectReasons.idxOf reason

theorem reasonSlot_lt (reason : RejectReason) : reasonSlot reason < rejectReasons.length := by
  cases reason <;> decide

/-- The reason of one legacy message: the first rule whose text it holds. -/
def classifyLegacyRejectMessage : Option Text → RejectReason
  | none => .unknown
  | some message =>
      let text := lower (strip message)
      if text = [] ∨ text = "nan".toList then .unknown
      else if contains text "item not found".toList || contains text "no item found".toList then .itemNotFound
      else if contains text "acs".toList then .ilsAcsFailure
      else if contains text "multiple rfid".toList || contains text "multiple tags".toList then .rfidCollision
      else if contains text "collection code".toList then .configurationError
      else if contains text "library not found".toList then .routingError
      else .other

/-- A stored class that is one of the codes. -/
def reasonForErrorClass : Option Text → Option RejectReason
  | none => none
  | some errorClass => rejectReasons.find? fun reason => reason.code = errorClass

/-- Every code is recognised as its own reason. -/
theorem reasonForErrorClass_code (reason : RejectReason) : reasonForErrorClass (some reason.code) = some reason := by
  cases reason <;> decide

end SortView
