import SortView.Collector.Rules
import SortView.Services.RoutingDestination

/-!
# Controlled values

`collector/v2_normalize.py`: the slug of a raw destination, the code of a bin and the class of a reject.
-/

namespace SortView.Normalize

open PyText

/-- `normalize_destination`. -/
def normalizeDestination (raw : Text) (rules : Rules) : Text :=
  let upperText := upper (strip raw)
  if upperText = [] then unknownDestination
  else if upperText ∈ homeAliases then homeDestinationKey
  else match firstContained builtinDestinations upperText with
    | some slug => slug
    | none => (firstContained rules.destinations upperText).getD unknownDestination

/-- `normalize_bin`. -/
def normalizeBin (raw : Text) : Text :=
  let text := strip raw
  if text ≠ [] ∧ text.length ≤ 4 ∧ text.all (fun c => '0' ≤ c && c ≤ '9') then text else unknownDestination

/-- `classify_reject`. -/
def classifyReject (message : Text) : ErrorClass :=
  let text := lower (strip message)
  if text = [] ∨ text = "nan".toList then .unknown
  else if contains text "item not found".toList ∨ contains text "no item found".toList then .itemNotFound
  else if contains text "acs".toList then .ilsAcsFailure
  else if contains text "multiple rfid".toList ∨ contains text "multiple tags".toList then .rfidCollision
  else if contains text "collection code".toList then .configurationError
  else if contains text "library not found".toList then .routingError
  else .other

end SortView.Normalize
