import SortView.Agent.Parser

/-!
# The production parser adapters (`collector/parsers.py`)

Each adapter runs the line parser of its source and maps the rows to the records of `POST /upload`. A row
without a usable timestamp is dropped.
-/

namespace SortView

open PyText

structure CheckinRecord where
  customerId : Int
  branchId : Int
  eventTime : Text
  title : Text
  barcode : Text
  collectionCode : Text
  callNumber : Text
  shelfCode : Text
  destination : Text
  bin : Text
  isProblem : Bool
  message : Text
  flag1 : Text
  flag2 : Text
  flag3 : Text
  sourceFile : Text
  deriving DecidableEq

structure RejectRecord where
  customerId : Int
  branchId : Int
  eventTime : Text
  barcode : Text
  message : Text
  sourceFile : Text
  deriving DecidableEq

structure AcsRecord where
  customerId : Int
  branchId : Int
  eventTime : Text
  messageCode : Text
  barcode : Option Text
  title : Option Text
  patronId : Option Text
  destination : Option Text
  rawMessage : Text
  sourceFile : Text
  deriving DecidableEq

/-- A record of `POST /upload`. -/
inductive Record where
  | checkin (record : CheckinRecord)
  | reject (record : RejectRecord)
  | acs (record : AcsRecord)
  deriving DecidableEq

/-- The sources that have a production parser. -/
inductive SourceName where
  | checkins
  | rejects
  | acs
  deriving DecidableEq

def SourceName.text : SourceName → Text
  | .checkins => "checkins".toList
  | .rejects => "rejects".toList
  | .acs => "acs".toList

theorem SourceName.text_injective {left right : SourceName} (h : left.text = right.text) : left = right := by
  cases left <;> cases right <;> first | rfl | (revert h; decide)

abbrev ParseFn (ρ : Type) := List Text → List ρ

namespace Parsers

variable (toDatetime : Text → Option Naive) (strTimestamp : Naive → Text) (customerId branchId : Int)

def checkinRecord (row : Checkins.Row) : Option Record :=
  row.datetime.map fun time => .checkin {
    customerId, branchId
    eventTime := strTimestamp time
    title := row.title
    barcode := row.barcode
    collectionCode := row.collectionCode
    callNumber := row.callNumber
    shelfCode := row.shelfCode
    destination := row.destination
    bin := row.bin
    isProblem := row.isProblem
    message := row.message
    flag1 := row.flag1
    flag2 := row.flag2
    flag3 := row.flag3
    sourceFile := "Checkins.txt".toList }

def rejectRecord (row : Rejects.Row) : Option Record :=
  row.datetime.map fun time => .reject {
    customerId, branchId
    eventTime := strTimestamp time
    barcode := row.barcode
    message := row.errorMessage
    sourceFile := "Rejects.txt".toList }

def acsRecord (row : Acs.Row) : Option Record :=
  row.datetime.map fun time => .acs {
    customerId, branchId
    eventTime := strTimestamp time
    messageCode := row.messageCode
    barcode := row.barcode
    title := row.title
    patronId := row.patronId
    destination := row.destination
    rawMessage := row.rawMessage
    sourceFile := "ACS Log.txt".toList }

def parseCheckins : ParseFn Record := fun lines =>
  (Checkins.parseLines toDatetime lines).filterMap (checkinRecord strTimestamp customerId branchId)

def parseRejects : ParseFn Record := fun lines =>
  (Rejects.parseLines toDatetime lines).filterMap (rejectRecord strTimestamp customerId branchId)

def parseAcs : ParseFn Record := fun lines =>
  (Acs.parseLines toDatetime lines).filterMap (acsRecord strTimestamp customerId branchId)

/-- The adapter of each source. -/
def parserOf : SourceName → ParseFn Record
  | .checkins => parseCheckins toDatetime strTimestamp customerId branchId
  | .rejects => parseRejects toDatetime strTimestamp customerId branchId
  | .acs => parseAcs toDatetime strTimestamp customerId branchId

/-- `build_production_parse_fns`: an adapter under each of the three names, and under no other. -/
def buildProductionParseFns (name : Text) : Option (ParseFn Record) :=
  if name = SourceName.checkins.text then some (parserOf toDatetime strTimestamp customerId branchId .checkins)
  else if name = SourceName.rejects.text then some (parserOf toDatetime strTimestamp customerId branchId .rejects)
  else if name = SourceName.acs.text then some (parserOf toDatetime strTimestamp customerId branchId .acs)
  else none

theorem buildProductionParseFns_text (source : SourceName) :
    buildProductionParseFns toDatetime strTimestamp customerId branchId source.text
      = some (parserOf toDatetime strTimestamp customerId branchId source) := by
  cases source <;> rfl

theorem exists_source_of_parseFn {name : Text}
    (h : buildProductionParseFns toDatetime strTimestamp customerId branchId name ≠ none) :
    ∃ source : SourceName, name = source.text := by
  rw [buildProductionParseFns] at h
  split_ifs at h with hcheckins hrejects hacs
  · exact ⟨.checkins, hcheckins⟩
  · exact ⟨.rejects, hrejects⟩
  · exact ⟨.acs, hacs⟩
  · exact absurd rfl h

/-- An adapter makes the same records of a line wherever the line stands. -/
theorem parserOf_append (source : SourceName) (left right : List Text) :
    parserOf toDatetime strTimestamp customerId branchId source (left ++ right)
      = parserOf toDatetime strTimestamp customerId branchId source left
        ++ parserOf toDatetime strTimestamp customerId branchId source right := by
  cases source with
  | checkins => simp only [parserOf, parseCheckins, Checkins.parseLines_eq, List.filterMap_append]
  | rejects => simp only [parserOf, parseRejects, Rejects.parseLines_eq, List.filterMap_append]
  | acs => simp only [parserOf, parseAcs, Acs.parseLines_eq, List.filterMap_append]

theorem parserOf_nil (source : SourceName) :
    parserOf toDatetime strTimestamp customerId branchId source [] = [] := by
  cases source <;> rfl

end Parsers

end SortView
