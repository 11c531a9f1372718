import SortView.Lib.Case

/-!
# The line parsers of `agent/parser`

Checkins.txt, Rejects.txt and ACS Log.txt, line by line. Each parser keeps the label of every line it
turns into a row, and drops blank and short lines. `pd.to_datetime` with the fixed format is the
parameter `toDatetime`: the local reading in whole seconds, or nothing where pandas gives `NaT`.
-/

namespace SortView

open PyText

/-- A wall-clock reading without a zone, in whole seconds. -/
abbrev Naive := Int

/-- The rows a parser makes of labelled lines, and the labels of the lines that became a row. -/
def rowsWithOffsets {ι ρ : Type} (parseLine : Text → Option ρ) (numbered : List (ι × Text)) : List ρ × List ι :=
  (numbered.filterMap fun entry => (parseLine entry.2).map fun row => (row, entry.1)).unzip

theorem rowsWithOffsets_fst {ι ρ : Type} (parseLine : Text → Option ρ) (numbered : List (ι × Text)) :
    (rowsWithOffsets parseLine numbered).1 = (numbered.map Prod.snd).filterMap parseLine := by
  rw [rowsWithOffsets, List.unzip_fst]
  induction numbered with
  | nil => rfl
  | cons entry numbered ih =>
      cases hrow : parseLine entry.2 with
      | none => simpa [List.filterMap_cons, hrow] using ih
      | some row => simpa [List.filterMap_cons, hrow] using ih

/-! ### Checkins.txt -/

namespace Checkins

def normalizeDestination (value : Text) : Text :=
  let text := strip value
  let upperText := upper text
  if text = [] then []
  else if upperText = "1".toList ∨ upperText = "LOCAL".toList ∨ upperText = "MAIN".toList then "Main".toList
  else if contains upperText "WESTSIDE".toList then "Westside".toList
  else if contains upperText "LIBRARY EXPRESS".toList then "Library Express".toList
  else if contains upperText "NO AGENCY DESTINATION".toList then "No Agency Destination".toList
  else text

structure Row where
  title : Text
  barcode : Text
  collectionCode : Text
  callNumber : Text
  shelfCode : Text
  destinationRaw : Text
  destination : Text
  isProblem : Bool
  message : Text
  bin : Text
  flag1 : Text
  flag2 : Text
  flag3 : Text
  datetime : Option Naive
  deriving DecidableEq

variable (toDatetime : Text → Option Naive)

def parseLine (line : Text) : Option Row :=
  if strip line = [] then none
  else match split '|' (strip line) with
    | title :: barcode :: collectionCode :: callNumber :: shelfCode :: destinationRaw :: isProblem :: message
        :: bin :: flag1 :: flag2 :: flag3 :: date :: time :: _ =>
        some {
          title := strip title
          barcode := strip barcode
          collectionCode := strip collectionCode
          callNumber := strip callNumber
          shelfCode := strip shelfCode
          destinationRaw := strip destinationRaw
          destination := normalizeDestination (strip destinationRaw)
          isProblem := upper (strip isProblem) = "TRUE".toList
          message := strip message
          bin := strip bin
          flag1 := strip flag1
          flag2 := strip flag2
          flag3 := strip flag3
          datetime := toDatetime (strip date ++ " ".toList ++ strip time) }
    | _ => none

def parseLinesWithOffsets {ι : Type} (numbered : List (ι × Text)) : List Row × List ι :=
  rowsWithOffsets (parseLine toDatetime) numbered

def parseLines (lines : List Text) : List Row :=
  (parseLinesWithOffsets toDatetime (lines.zipIdx.map Prod.swap)).1

end Checkins

/-! ### Rejects.txt -/

namespace Rejects

def simplifyErrorMessage (message : Text) : Text :=
  let msg := lower message
  if contains msg "item not found".toList then "Item Not Found".toList
  else if contains msg "acs".toList then "ILS / ACS Failure".toList
  else if contains msg "multiple rfid".toList || contains msg "multiple tags".toList then "RFID Collision".toList
  else if contains msg "collection code".toList then "Call Number / Config Error".toList
  else if contains msg "library not found".toList then "Routing Error".toList
  else "Other".toList

structure Row where
  barcode : Text
  errorMessage : Text
  errorSimple : Text
  datetime : Option Naive
  deriving DecidableEq

variable (toDatetime : Text → Option Naive)

def parseLine (line : Text) : Option Row :=
  if strip line = [] then none
  else match split '|' (strip line) with
    | barcode :: errorMessage :: date :: time :: _ =>
        some {
          barcode := strip barcode
          errorMessage := strip errorMessage
          errorSimple := simplifyErrorMessage (strip errorMessage)
          datetime := toDatetime (strip date ++ " ".toList ++ strip time) }
    | _ => none

def parseLinesWithOffsets {ι : Type} (numbered : List (ι × Text)) : List Row × List ι :=
  rowsWithOffsets (parseLine toDatetime) numbered

def parseLines (lines : List Text) : List Row :=
  (parseLinesWithOffsets toDatetime (lines.zipIdx.map Prod.swap)).1

end Rejects

/-! ### ACS Log.txt -/

namespace Acs

def isTagLetter (c : Char) : Bool := decide (65 ≤ c.toNat) && decide (c.toNat ≤ 90)

/-- `TAG_PATTERN.findall(message)`: two capitals and the text up to the next bar, scanned from the left.
The flag says that the scan is inside the value of the last match. -/
def findTags : Bool → Text → List (Text × Text)
  | true, c :: cs => findTags (c != '|') cs
  | false, first :: second :: rest =>
      if isTagLetter first && isTagLetter second then
        ([first, second], rest.takeWhile (· != '|')) :: findTags true rest
      else findTags false (second :: rest)
  | _, _ => []

/-- `extract_fields(message).get(tag)`: a repeated tag keeps its last value. -/
def extractField (message tag : Text) : Option Text :=
  ((findTags false message).reverse.lookup tag).map strip

structure Row where
  datetime : Option Naive
  messageCode : Text
  barcode : Option Text
  title : Option Text
  patronId : Option Text
  destination : Option Text
  rawMessage : Text
  deriving DecidableEq

variable (toDatetime : Text → Option Naive)

def parseLine (line : Text) : Option Row :=
  let cleaned := strip (line.filter (· != '\x01'))
  if cleaned = [] then none
  else match split '\x02' cleaned with
    | date :: time :: rawMessage :: _ =>
        let message := strip rawMessage
        some {
          datetime := toDatetime (strip date ++ " ".toList ++ strip time)
          messageCode := message.take 2
          barcode := extractField message "AB".toList
          title := extractField message "AJ".toList
          patronId := extractField message "AA".toList
          destination := extractField message "CT".toList
          rawMessage := message }
    | _ => none

def parseLinesWithOffsets {ι : Type} (numbered : List (ι × Text)) : List Row × List ι :=
  rowsWithOffsets (parseLine toDatetime) numbered

def parseLines (lines : List Text) : List Row :=
  (parseLinesWithOffsets toDatetime (lines.zipIdx.map Prod.swap)).1

example :
    (parseLine (fun _ => none) "01/02/2024\x0203:04:05 PM\x0210N|AB31234 |AJTitle|CTMain\n".toList).map
        (fun row => (row.messageCode, row.barcode, row.patronId, row.destination))
      = some ("10".toList, some "31234".toList, none, some "Main".toList) := by
  rfl

end Acs

/-! ### The parsers work line by line -/

theorem map_snd_zipIdx_swap (lines : List Text) : (lines.zipIdx.map Prod.swap).map Prod.snd = lines := by
  rw [List.map_map, show Prod.snd ∘ Prod.swap = (Prod.fst : Text × Nat → Text) from rfl, List.zipIdx_map_fst]

theorem Checkins.parseLines_eq (toDatetime : Text → Option Naive) (lines : List Text) :
    Checkins.parseLines toDatetime lines = lines.filterMap (Checkins.parseLine toDatetime) := by
  rw [Checkins.parseLines, Checkins.parseLinesWithOffsets, rowsWithOffsets_fst, map_snd_zipIdx_swap]

theorem Rejects.parseLines_eq (toDatetime : Text → Option Naive) (lines : List Text) :
    Rejects.parseLines toDatetime lines = lines.filterMap (Rejects.parseLine toDatetime) := by
  rw [Rejects.parseLines, Rejects.parseLinesWithOffsets, rowsWithOffsets_fst, map_snd_zipIdx_swap]

theorem Acs.parseLines_eq (toDatetime : Text → Option Naive) (lines : List Text) :
    Acs.parseLines toDatetime lines = lines.filterMap (Acs.parseLine toDatetime) := by
  rw [Acs.parseLines, Acs.parseLinesWithOffsets, rowsWithOffsets_fst, map_snd_zipIdx_swap]

end SortView
