import SortView.Collector.PatronCache
import SortView.Lib.Search

/-!
# The local classification of ACS messages

`collector/v2_classify.py`: the state of an item message, the profile in a patron message, and the flags of a hold. Which
characters are part of a word is a parameter.
-/

namespace SortView.Classify

open PyText Search

variable (isWord : Char → Bool)

/-- `_ILL_WORD`. -/
def illWord : List SearchWord := [⟨true, "ILL".toList, true⟩, ⟨false, "INTERLIBRARY".toList, false⟩]

/-- `_ILL_RAW`. -/
def illRaw : List SearchWord :=
  illWord ++ [⟨false, "|DAILL".toList, true⟩, ⟨false, "|AEILL".toList, true⟩, ⟨false, "|PTILL".toList, true⟩]

/-- `item_state`. -/
def itemState (rawMessage : Text) : AcsState :=
  if "101YNY".toList.isPrefixOf rawMessage then .hold
  else if "101".toList.isPrefixOf rawMessage then .nonHold101
  else .otherCode10

/-- `patron_profile`: the name and the type of a patron. -/
def patronProfile (rawMessage : Text) : Text × Text :=
  (strip ((fieldAfter "|AE".toList rawMessage).getD []), strip ((fieldAfter "|PT".toList rawMessage).getD []))

def nameIsIllLike (patronName : Text) : Bool := searchAny isWord illWord (upper (strip patronName))

def typeIsIll (patronType : Text) : Bool := upper (strip patronType) = "ILL".toList

/-- `static_flags`. -/
def staticFlags (rawMessage : Text) (destination : Option Text) (rules : Rules) : HoldFlags :=
  let rawUpper := upper rawMessage
  let destinationUpper := upper (strip (destination.getD []))
  { isIll := searchAny isWord illWord destinationUpper || searchAny isWord illRaw rawUpper
    isBranchServices := rules.branchDaMarkers.any fun marker => contains rawUpper marker
    isCollectionServices := rules.collectionDaMarkers.any fun marker => contains rawUpper marker }

/-- `combine`. -/
def combine (static outcome : HoldFlags) : HoldFlags where
  isIll := static.isIll || outcome.isIll
  isBranchServices := static.isBranchServices || outcome.isBranchServices
  isCollectionServices := static.isCollectionServices || outcome.isCollectionServices

end SortView.Classify
