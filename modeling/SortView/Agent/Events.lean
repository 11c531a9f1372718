import SortView.Agent.Tailer
import SortView.Collector.Parsers

/-!
# Normalized events and their identity (`agent/runtime/events.py`, `agent/event_identity.py`)

A parsed row becomes the payload of one event, and the byte offset of its line gives the event its
deterministic `source_event_id`.
-/

namespace SortView

open PyText

namespace Agent

/-- A row of any of the three parsers. -/
inductive ParsedRow where
  | checkin (row : Checkins.Row)
  | reject (row : Rejects.Row)
  | acs (row : Acs.Row)
  deriving DecidableEq

/-- `_PARSERS[source].parse_lines_with_offsets`. -/
def parseLinesWithOffsets (toDatetime : Text → Option Naive) :
    SourceName → List (Nat × Text) → List ParsedRow × List Nat
  | .checkins, numbered =>
      let parsed := Checkins.parseLinesWithOffsets toDatetime numbered
      (parsed.1.map .checkin, parsed.2)
  | .rejects, numbered =>
      let parsed := Rejects.parseLinesWithOffsets toDatetime numbered
      (parsed.1.map .reject, parsed.2)
  | .acs, numbered =>
      let parsed := Acs.parseLinesWithOffsets toDatetime numbered
      (parsed.1.map .acs, parsed.2)

/-- The row the parser of a source makes of one line. -/
def parseLine (toDatetime : Text → Option Naive) : SourceName → Text → Option ParsedRow
  | .checkins, line => (Checkins.parseLine toDatetime line).map .checkin
  | .rejects, line => (Rejects.parseLine toDatetime line).map .reject
  | .acs, line => (Acs.parseLine toDatetime line).map .acs

theorem zip_rowsWithOffsets {ρ σ : Type} (parse : Text → Option ρ) (f : ρ → σ) (numbered : List (Nat × Text)) :
    (rowsWithOffsets parse numbered).2.zip ((rowsWithOffsets parse numbered).1.map f)
      = numbered.filterMap fun entry => ((parse entry.2).map f).map fun row => (entry.1, row) := by
  rw [rowsWithOffsets]
  induction numbered with
  | nil => rfl
  | cons entry numbered ih =>
      cases hrow : parse entry.2 with
      | none => simpa [List.filterMap_cons, hrow] using ih
      | some row => simpa [List.filterMap_cons, hrow] using ih

/-- The kept offsets and the rows are those of the lines that become a row, line by line. -/
theorem zip_parseLinesWithOffsets (toDatetime : Text → Option Naive) (source : SourceName)
    (numbered : List (Nat × Text)) :
    (parseLinesWithOffsets toDatetime source numbered).2.zip (parseLinesWithOffsets toDatetime source numbered).1
      = numbered.filterMap fun entry => (parseLine toDatetime source entry.2).map fun row => (entry.1, row) := by
  cases source with
  | checkins => exact zip_rowsWithOffsets (Checkins.parseLine toDatetime) ParsedRow.checkin numbered
  | rejects => exact zip_rowsWithOffsets (Rejects.parseLine toDatetime) ParsedRow.reject numbered
  | acs => exact zip_rowsWithOffsets (Acs.parseLine toDatetime) ParsedRow.acs numbered

structure CheckinPayload where
  customerId : Int
  branchId : Int
  eventTime : Option Text
  title : Text
  barcode : Text
  collectionCode : Text
  callNumber : Text
  shelfCode : Text
  destination : Text
  bin : Text
  isProblem : Bool
  message : Text
  flag1 : Text
  flag2 : Text
  flag3 : Text
  sourceFile : Text
  deriving DecidableEq

structure RejectPayload where
  customerId : Int
  branchId : Int
  eventTime : Option Text
  barcode : Text
  message : Text
  sourceFile : Text
  deriving DecidableEq

structure AcsPayload where
  customerId : Int
  branchId : Int
  eventTime : Option Text
  messageCode : Text
  barcode : Option Text
  title : Option Text
  patronId : Option Text
  destination : Option Text
  rawMessage : Text
  sourceFile : Text
  deriving DecidableEq

inductive Payload where
  | checkin (payload : CheckinPayload)
  | reject (payload : RejectPayload)
  | acs (payload : AcsPayload)
  deriving DecidableEq

/-- Unlike the Collector's adapters, a row without a usable timestamp keeps its place, with no time. -/
def buildEvent (strTimestamp : Naive → Text) (customerId branchId : Int) : ParsedRow → Payload
  | .checkin row => .checkin {
      customerId, branchId
      eventTime := row.datetime.map strTimestamp
      title := row.title
      barcode := row.barcode
      collectionCode := row.collectionCode
      callNumber := row.callNumber
      shelfCode := row.shelfCode
      destination := row.destination
      bin := row.bin
      isProblem := row.isProblem
      message := row.message
      flag1 := row.flag1
      flag2 := row.flag2
      flag3 := row.flag3
      sourceFile := "Checkins.txt".toList }
  | .reject row => .reject {
      customerId, branchId
      eventTime := row.datetime.map strTimestamp
      barcode := row.barcode
      message := row.errorMessage
      sourceFile := "Rejects.txt".toList }
  | .acs row => .acs {
      customerId, branchId
      eventTime := row.datetime.map strTimestamp
      messageCode := row.messageCode
      barcode := row.barcode
      title := row.title
      patronId := row.patronId
      destination := row.destination
      rawMessage := row.rawMessage
      sourceFile := "ACS Log.txt".toList }

/-! ### Event identity -/

def fieldSeparator : Char := '|'

/-- The string that is hashed, or nothing where the agent id would make it ambiguous and the source
raises. The source name is one of the three, and the numbers are never negative. -/
def canonicalIdentityString (agentId : Text) (source : SourceName) (generation startOffset : Nat) : Option Text :=
  if agentId = [] ∨ fieldSeparator ∈ agentId then none
  else some (join fieldSeparator [agentId, source.text, decimal generation, decimal startOffset])

def computeSourceEventId {δ : Type} (sha256 : Text → δ) (agentId : Text) (source : SourceName)
    (generation startOffset : Nat) : Option δ :=
  (canonicalIdentityString agentId source generation startOffset).map sha256

theorem fieldSeparator_not_mem_decimal (n : Nat) : fieldSeparator ∉ decimal n := by
  intro hmem
  have hdigit := isDigit_of_mem_decimal hmem
  revert hdigit
  decide

/-- An agent id is refused for every record or for none. -/
theorem canonicalIdentityString_eq_none_iff {agentId : Text} {source : SourceName} {generation startOffset : Nat} :
    canonicalIdentityString agentId source generation startOffset = none ↔ agentId = [] ∨ fieldSeparator ∈ agentId := by
  rw [canonicalIdentityString]
  split
  · next hbad => exact ⟨fun _ => hbad, fun _ => rfl⟩
  · next hgood => exact ⟨fun h => absurd h (by simp), fun h => absurd h hgood⟩

/-- The identity string determines the generation and the offset. -/
theorem canonicalIdentityString_injective {agentId : Text} {source : SourceName}
    {generation generation' startOffset startOffset' : Nat} {text : Text}
    (h : canonicalIdentityString agentId source generation startOffset = some text)
    (h' : canonicalIdentityString agentId source generation' startOffset' = some text) :
    generation = generation' ∧ startOffset = startOffset' := by
  rw [canonicalIdentityString] at h h'
  split at h
  · cases h
  · next hgood =>
    rw [if_neg hgood] at h'
    rw [not_or] at hgood
    have hsource : fieldSeparator ∉ source.text := by cases source <;> decide
    have hparts : ∀ g s, ∀ part ∈ [agentId, source.text, decimal g, decimal s], fieldSeparator ∉ part := by
      intro g s part hpart
      simp only [List.mem_cons, List.not_mem_nil, or_false] at hpart
      rcases hpart with rfl | rfl | rfl | rfl
      · exact hgood.2
      · exact hsource
      · exact fieldSeparator_not_mem_decimal g
      · exact fieldSeparator_not_mem_decimal s
    have hjoin := (Option.some.inj h).trans (Option.some.inj h').symm
    have hlist := join_injective (List.cons_ne_nil _ _) (List.cons_ne_nil _ _) (hparts _ _) (hparts _ _) hjoin
    simp only [List.cons.injEq, true_and, and_true] at hlist
    exact ⟨decimal_injective hlist.1, decimal_injective hlist.2⟩

end Agent

end SortView
