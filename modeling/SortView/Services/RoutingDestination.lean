import SortView.Lib.Case

/-!
# Routing destinations

`services/destination_mapping.py` and `services/routing_destination.py`: the one key of a destination,
whether it comes from a stored label, a stored slug or a configured label.
-/

namespace SortView

open PyText

/-- `UNKNOWN`. -/
def unknownDestination : Text := "unknown".toList

/-- `HOME_DESTINATION_KEY`. -/
def homeDestinationKey : Text := "main".toList

/-- `_HOME_ALIASES`. -/
def homeAliases : List Text := ["1".toList, "LOCAL".toList, "MAIN".toList]

/-- `_BUILTIN`: a text held by the upper-cased label, and its slug. -/
def builtinDestinations : List (Text × Text) :=
  [("WESTSIDE".toList, "westside".toList), ("LIBRARY EXPRESS".toList, "library_express".toList),
    ("NO AGENCY DESTINATION".toList, "no_agency_destination".toList)]

/-- The slug of the first rule whose text `upperText` holds. -/
def firstContained (rules : List (Text × Text)) (upperText : Text) : Option Text :=
  (rules.find? fun rule => contains upperText rule.1).map Prod.snd

theorem firstContained_cons (rule : Text × Text) (rules : List (Text × Text)) (upperText : Text) :
    firstContained (rule :: rules) upperText
      = if contains upperText rule.1 then some rule.2 else firstContained rules upperText := by
  rw [firstContained, List.find?_cons]
  cases contains upperText rule.1 <;> rfl

/-- `map_transit_label_to_v2_slug`. -/
def mapTransitLabelToV2Slug (label : Text) : Text :=
  let upperText := upper (strip label)
  if upperText = [] then unknownDestination
  else if upperText ∈ homeAliases then homeDestinationKey
  else (firstContained builtinDestinations upperText).getD unknownDestination

def isSlugCharacter (c : Char) : Bool := ('a' ≤ c && c ≤ 'z') || ('0' ≤ c && c ≤ '9')

/-- `_NOT_SLUG_CHARACTERS.sub("_", text)`: each run of other characters becomes one underscore. The flag
says that the scan is inside a run. -/
def subRuns : Bool → Text → Text
  | _, [] => []
  | inRun, c :: cs =>
      if isSlugCharacter c then c :: subRuns false cs
      else if inRun then subRuns true cs
      else '_' :: subRuns true cs

/-- `text.strip("_")`. -/
def stripUnderscores (text : Text) : Text :=
  ((text.dropWhile (· == '_')).reverse.dropWhile (· == '_')).reverse

def maxSlugLength : Nat := 32

/-- A slug starts with a letter. Only slug characters reach this, so `isalpha` is a letter of `a` to `z`. -/
def startsWithLetter : Text → Bool
  | [] => false
  | c :: _ => 'a' ≤ c && c ≤ 'z'

/-- The slug form of a text: cut to 32, and with `d_` before one that does not start with a letter. -/
def slugText (value : Text) : Text :=
  let slug := (stripUnderscores (subRuns false (lower (strip value)))).take maxSlugLength
  if slug ≠ [] ∧ ¬ startsWithLetter slug then ("d_".toList ++ slug).take maxSlugLength else slug

/-- `destination_key`. -/
def destinationKey : Option Text → Text
  | none => unknownDestination
  | some value =>
      let builtIn := mapTransitLabelToV2Slug value
      if builtIn ≠ unknownDestination then builtIn
      else
        let slug := stripUnderscores (slugText value)
        if slug = [] then unknownDestination else slug

structure TransitDestination where
  key : Text
  label : Text
  deriving DecidableEq

/-- A site's routing configuration: the keys that mean home, and the enabled destinations in order. -/
structure RoutingConfig where
  homeLabel : Text
  homeKeys : List Text
  transit : List TransitDestination

/-- `transit_slot.get(key)`: the place of the last destination with this key. -/
def RoutingConfig.transitSlot (routing : RoutingConfig) (key : Text) : Option Nat :=
  ((routing.transit.zipIdx.map fun entry => (entry.1.key, entry.2)).reverse.find? fun entry => entry.1 = key).map Prod.snd

theorem RoutingConfig.transitSlot_lt {routing : RoutingConfig} {key : Text} {slot : Nat}
    (hslot : routing.transitSlot key = some slot) : slot < routing.transit.length := by
  obtain ⟨entry, hfind, rfl⟩ := Option.map_eq_some_iff.1 hslot
  have hmem := List.mem_of_find?_eq_some hfind
  rw [List.mem_reverse, List.mem_map] at hmem
  obtain ⟨source, hsource, rfl⟩ := hmem
  have hlt := List.snd_lt_of_mem_zipIdx hsource
  omega

/-- Where a check-in counts: home, one configured destination, or other. -/
inductive DestinationBucket where
  | home
  | transit (slot : Nat)
  | other
  deriving DecidableEq

/-- The bucket of a destination key. -/
def RoutingConfig.bucket (routing : RoutingConfig) (key : Text) : DestinationBucket :=
  if key ∈ routing.homeKeys then .home
  else match routing.transitSlot key with
    | some slot => .transit slot
    | none => .other

theorem RoutingConfig.slot_lt_of_bucket {routing : RoutingConfig} {key : Text} {slot : Nat}
    (h : routing.bucket key = .transit slot) : slot < routing.transit.length := by
  rw [RoutingConfig.bucket] at h
  split at h
  · cases h
  · split at h
    · next hslot =>
      cases h
      exact RoutingConfig.transitSlot_lt hslot
    · cases h

example : destinationKey (some " Local ".toList) = homeDestinationKey := by decide +kernel

end SortView
