import SortView.Lib.Case
import SortView.Lib.Dict
import SortView.Lib.Latest
import SortView.Lib.Search

/-!
# The summary of the ACS items

`build_acs_item_summary` of `metrics.py`, of its counts: the latest record of each item, the latest record of each patron, and
what each hold is. The frames that it also returns are not here.
-/

namespace SortView

open PyText Search Latest

/-- A row of `acs_events`. -/
structure AcsRow where
  customerId : Text
  branchId : Text
  eventTime : Int
  messageCode : Option Text
  barcode : Option Text
  destination : Option Text
  patronId : Option Text
  rawMessage : Option Text
  deriving DecidableEq

namespace AcsItemSummary

/-! ### Records -/

def raw (row : AcsRow) : Text := row.rawMessage.getD []

/-- An item record. -/
def isItem (row : AcsRow) : Bool := "101".toList.isPrefixOf (raw row)

/-- A patron record. -/
def isPatron (row : AcsRow) : Bool := strip (row.messageCode.getD []) = "64".toList

def isHold (row : AcsRow) : Bool := "101YNY".toList.isPrefixOf (raw row)

def patronName (patron : AcsRow) : Text := strip ((fieldAfter "|AE".toList (raw patron)).getD [])

def patronType (patron : AcsRow) : Text := strip ((fieldAfter "|PT".toList (raw patron)).getD [])

/-- An item record with the name and the type of its patron. -/
structure Item where
  row : AcsRow
  patronName : Text
  patronType : Text

/-- `merge(how="left", on="patron_id")`, where there is one patron record of an id at most; a missing id is an id. -/
def withPatron (patrons : List AcsRow) (row : AcsRow) : Item :=
  match patrons.find? fun patron => patron.patronId = row.patronId with
  | none => ⟨row, [], []⟩
  | some patron => ⟨row, patronName patron, patronType patron⟩

/-! ### What an item is -/

/-- `\bILL\b|INTERLIBRARY`. -/
def illWords : List SearchWord := [⟨true, "ILL".toList, true⟩, ⟨false, "INTERLIBRARY".toList, false⟩]

/-- `\bILL\b|INTERLIBRARY|\|DAILL\b|\|AEILL\b|\|PTILL\b`. -/
def illMarks : List SearchWord :=
  illWords ++ [⟨false, "|DAILL".toList, true⟩, ⟨false, "|AEILL".toList, true⟩, ⟨false, "|PTILL".toList, true⟩]

def rawUpper (item : Item) : Text := upper (raw item.row)

def patronNameUpper (item : Item) : Text := upper (strip (strip item.patronName))

def destinationUpper (row : AcsRow) : Text := upper (strip (row.destination.getD []))

/-- `is_ill`. Which characters are part of a word is a parameter. -/
def isIll (isWord : Char → Bool) (item : Item) : Bool :=
  upper (strip (strip item.patronType)) = "ILL".toList
    || searchAny isWord illWords (destinationUpper item.row)
    || searchAny isWord illWords (patronNameUpper item)
    || searchAny isWord illMarks (rawUpper item)

/-- The entries of a list that are not blank, as they are compared. -/
def normalized (entries : List Text) : List Text := (entries.filter fun entry => strip entry ≠ []).map fun entry => upper (strip entry)

/-- `is_collection_services` and `is_programming`: a listed patron name, or a listed mark in the message. -/
def isListed (names daPatterns : List Text) (item : Item) : Bool :=
  (normalized names).contains (patronNameUpper item)
    || (normalized daPatterns).any fun pattern => contains (rawUpper item) (['|'] ++ pattern ++ ['|'])

/-! ### The summary -/

structure Summary where
  holdsTotal : Nat := 0
  illTotal : Nat := 0
  programmingTotal : Nat := 0
  collectionServicesTotal : Nat := 0
  illMain : Nat := 0
  illByBranch : Dict Text Nat := Dict.empty

/-- The latest record of each barcode. -/
def latestItems (sorting : TimeSort AcsRow.eventTime) (rows : List AcsRow) : List AcsRow :=
  latest sorting AcsRow.barcode (rows.filter isItem)

/-- The latest record of each patron id. -/
def latestPatrons (sorting : TimeSort AcsRow.eventTime) (rows : List AcsRow) : List AcsRow :=
  latest sorting AcsRow.patronId (rows.filter isPatron)

/-- The items with their patrons. -/
def mergedItems (sorting : TimeSort AcsRow.eventTime) (rows : List AcsRow) : List Item :=
  (latestItems sorting rows).map (withPatron (latestPatrons sorting rows))

/-- `build_acs_item_summary`. -/
def buildAcsItemSummary (sorting : TimeSort AcsRow.eventTime) (isWord : Char → Bool) (rows : List AcsRow) (transitLabels : List Text)
    (branchServicesNames collectionServicesNames branchServicesDaPatterns collectionServicesDaPatterns : List Text) : Summary :=
  if rows.filter isItem = [] then {}
  else
    let holds := (mergedItems sorting rows).filter fun item => isHold item.row
    let isCollectionServices := isListed collectionServicesNames collectionServicesDaPatterns
    let isProgramming := isListed branchServicesNames branchServicesDaPatterns
    let ill := holds.filter (isIll isWord)
    let illDestinations := ill.map fun item => destinationUpper item.row
    { holdsTotal := (holds.filter fun item => !(isIll isWord item || isProgramming item || isCollectionServices item)).length
      illTotal := ill.length
      programmingTotal := (holds.filter isProgramming).length
      collectionServicesTotal := (holds.filter isCollectionServices).length
      illMain := illDestinations.countP fun destination => !(transitLabels.map upper).contains destination
      illByBranch := transitLabels.foldl (fun counts label => counts.set label (illDestinations.count (upper label))) Dict.empty }

/-! ### What the counts depend on -/

/-- A patron record that is the latest of its id. -/
theorem find?_latestPatrons (sorting : TimeSort AcsRow.eventTime) {rows : List AcsRow}
    (hpatrons : Distinct AcsRow.patronId AcsRow.eventTime (rows.filter isPatron)) {patronId : Option Text} {patron : AcsRow} :
    (latestPatrons sorting rows).find? (fun patron => patron.patronId = patronId) = some patron
      ↔ patron.patronId = patronId ∧ IsLatest AcsRow.patronId AcsRow.eventTime (rows.filter isPatron) patron :=
  find?_latest_eq_some_iff sorting hpatrons

/-- The latest record of the patron of a latest hold is read. -/
def PatronsRead (read : AcsRow → Bool) (rows : List AcsRow) : Prop :=
  ∀ hold patron, IsLatest AcsRow.barcode AcsRow.eventTime (rows.filter isItem) hold → isHold hold = true →
    IsLatest AcsRow.patronId AcsRow.eventTime (rows.filter isPatron) patron → patron.patronId = hold.patronId → read patron = true

section Reads

variable {rows narrow : List AcsRow} {read : AcsRow → Bool}

theorem filter_isItem_perm (hitem : ∀ row, isItem row = true → read row = true) (hnarrow : narrow.Perm (rows.filter read)) :
    (narrow.filter isItem).Perm (rows.filter isItem) := by
  have hfilter : (rows.filter read).filter isItem = rows.filter isItem := by
    rw [List.filter_filter]
    apply List.filter_congr
    intro row _
    cases hrow : isItem row with
    | false => rfl
    | true => exact hitem row hrow
  rw [← hfilter]
  exact hnarrow.filter _

variable (sorting : TimeSort AcsRow.eventTime) (hitems : Distinct AcsRow.barcode AcsRow.eventTime (rows.filter isItem))

include hitems

theorem latestItems_perm (hitem : ∀ row, isItem row = true → read row = true) (hnarrow : narrow.Perm (rows.filter read)) :
    (latestItems sorting narrow).Perm (latestItems sorting rows) := by
  have hperm := filter_isItem_perm hitem hnarrow
  exact latest_perm sorting hperm (hitems.perm hperm.symm)

variable (hpatrons : Distinct AcsRow.patronId AcsRow.eventTime (rows.filter isPatron))

include hpatrons

/-- A latest hold has the patron that it has among all rows. -/
theorem withPatron_eq (hnarrow : narrow.Perm (rows.filter read)) (hread : PatronsRead read rows) {hold : AcsRow} (hmem : hold ∈ latestItems sorting rows)
    (hhold : isHold hold = true) :
    withPatron (latestPatrons sorting narrow) hold = withPatron (latestPatrons sorting rows) hold := by
  have hlatest := (mem_latest_iff sorting hitems).1 hmem
  have hperm : (narrow.filter isPatron).Perm ((rows.filter isPatron).filter read) := by
    rw [List.filter_comm]
    exact hnarrow.filter _
  have hselected : Distinct AcsRow.patronId AcsRow.eventTime (narrow.filter isPatron) :=
    Distinct.perm (hpatrons.filter _) hperm.symm
  have hfind : (latestPatrons sorting narrow).find? (fun patron => patron.patronId = hold.patronId)
      = (latestPatrons sorting rows).find? fun patron => patron.patronId = hold.patronId := by
    ext patron
    rw [find?_latestPatrons sorting hselected, find?_latestPatrons sorting hpatrons]
    refine and_congr_right fun hid => ?_
    have hiff := isLatest_filter_iff (x := patron) sorting hpatrons fun other hother hsame =>
      hread hold other hlatest hhold hother (hsame.trans hid)
    rw [← hiff]
    exact ⟨fun h => h.perm hperm, fun h => h.perm hperm.symm⟩
  rw [withPatron, withPatron, hfind]

omit hitems hpatrons in
theorem holds_eq (rows : List AcsRow) :
    (mergedItems sorting rows).filter (fun item => isHold item.row)
      = ((latestItems sorting rows).filter isHold).map (withPatron (latestPatrons sorting rows)) := by
  rw [mergedItems, List.filter_map]
  congr 1
  apply List.filter_congr
  intro row _
  rw [Function.comp_apply, withPatron]
  split <;> rfl

/-- The holds of a read that has every latest patron are the holds of all rows. -/
theorem holds_perm (hitem : ∀ row, isItem row = true → read row = true) (hnarrow : narrow.Perm (rows.filter read))
    (hread : PatronsRead read rows) :
    ((mergedItems sorting narrow).filter fun item => isHold item.row).Perm
      ((mergedItems sorting rows).filter fun item => isHold item.row) := by
  have hsame : ((latestItems sorting rows).filter isHold).map (withPatron (latestPatrons sorting narrow))
      = ((latestItems sorting rows).filter isHold).map (withPatron (latestPatrons sorting rows)) := by
    apply List.map_congr_left
    intro hold hhold
    obtain ⟨hmem, hflag⟩ := List.mem_filter.1 hhold
    exact withPatron_eq sorting hitems hpatrons hnarrow hread hmem hflag
  rw [holds_eq, holds_eq, ← hsame]
  exact ((latestItems_perm sorting hitems hitem hnarrow).filter _).map _

/-- Such a read has the two totals of all rows, whatever the transit labels. -/
theorem totals_eq (hitem : ∀ row, isItem row = true → read row = true) (hnarrow : narrow.Perm (rows.filter read))
    (hread : PatronsRead read rows) (isWord : Char → Bool) (labels otherLabels : List Text)
    (branchServicesNames collectionServicesNames branchServicesDaPatterns collectionServicesDaPatterns : List Text) :
    let summary := buildAcsItemSummary sorting isWord narrow labels branchServicesNames collectionServicesNames
      branchServicesDaPatterns collectionServicesDaPatterns
    let whole := buildAcsItemSummary sorting isWord rows otherLabels branchServicesNames collectionServicesNames
      branchServicesDaPatterns collectionServicesDaPatterns
    summary.holdsTotal = whole.holdsTotal ∧ summary.illTotal = whole.illTotal := by
  have hperm := filter_isItem_perm hitem hnarrow
  have hholds := holds_perm sorting hitems hpatrons hitem hnarrow hread
  dsimp only
  rw [buildAcsItemSummary, buildAcsItemSummary]
  by_cases hnone : rows.filter isItem = []
  · have hempty : narrow.filter isItem = [] := (hnone ▸ hperm).eq_nil
    rw [if_pos hnone, if_pos hempty]
    exact ⟨rfl, rfl⟩
  · have hsome : narrow.filter isItem ≠ [] := by
      intro hempty
      exact hnone (hempty ▸ hperm).symm.eq_nil
    rw [if_neg hnone, if_neg hsome]
    exact ⟨(hholds.filter _).length_eq, (hholds.filter _).length_eq⟩

end Reads

end AcsItemSummary

end SortView
