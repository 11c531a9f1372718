import SortView.Collector.SeedRules

/-!
# The names of spool batches (`agent/spool.py`)

A batch file is named by its source generation and byte offsets, zero-padded, so that a plain sorted listing gives
the batches in source order. What the names are, how they are read back, and how they compare as texts.
-/

namespace SortView

open PyText Calendar

namespace SpoolNames

/-! ### Names -/

/-- `f"{value:0{width}d}"`. -/
def zeroPadded (width : Nat) (value : Int) : Text :=
  if value < 0 then '-' :: padded (width - 1) value.natAbs else padded width value.natAbs

/-- `str(value)` of an integer. -/
def signed (value : Int) : Text := if value < 0 then '-' :: decimal value.natAbs else decimal value.natAbs

/-- `_OFFSET_WIDTH`. -/
def offsetWidth : Nat := 20

/-- `_GENERATION_WIDTH`. -/
def generationWidth : Nat := 6

def isHexDigit (c : Char) : Bool := c.isDigit || ('a' ≤ c && c ≤ 'f')

/-- What one file name takes from elsewhere: `time.time_ns()`, which fits 64 bits, the counter of the process, and six
digits of `uuid4().hex`. -/
structure NameStamp where
  ns : Int
  seq : Nat
  rand : Text
  clock : -2 ^ 63 ≤ ns ∧ ns < 2 ^ 63
  hex : rand.length = 6 ∧ rand.all isHexDigit = true
  deriving DecidableEq

def ndjson : Text := ".ndjson".toList

/-- `_new_batch_filename`. -/
def newBatchFilename (generation startOffset endOffset : Int) (stamp : NameStamp) : Text :=
  join '-' ["batch".toList, zeroPadded generationWidth generation, zeroPadded offsetWidth startOffset,
    zeroPadded offsetWidth endOffset, signed stamp.ns, padded 10 stamp.seq, stamp.rand] ++ ndjson

/-- Digits with single underscores between them, as `int` takes them. -/
def intDigits (text : Text) : Option Nat :=
  if (split '_' text).all fun part => part ≠ [] && part.all Char.isDigit then
    some (Nat.ofDigitChars 10 (split '_' text).flatten 0)
  else none

/-- `int(text)` for a text of ASCII. -/
def pyInt (text : Text) : Option Int :=
  match strip text with
  | [] => none
  | first :: rest =>
      if first = '-' then (intDigits rest).map fun n => -(n : Int)
      else if first = '+' then (intDigits rest).map fun n => (n : Int)
      else (intDigits (first :: rest)).map fun n => (n : Int)

structure BatchMetadata where
  generation : Int
  startOffset : Int
  endOffset : Int
  createdAt : Option Text
  deriving DecidableEq

/-- The metadata of the parts of a name. `created` is `datetime.fromtimestamp(ns / 1e9, tz=UTC)` as text, `none` where
that raises. -/
def parseParts (created : Int → Option Text) : List Text → Option BatchMetadata
  | first :: generation :: startOffset :: endOffset :: ns :: _ =>
      if first ≠ "batch".toList then none
      else do
        let generation ← pyInt generation
        let startOffset ← pyInt startOffset
        let endOffset ← pyInt endOffset
        let createdAt ← (pyInt ns).bind created
        return ⟨generation, startOffset, endOffset, some createdAt⟩
  | _ => none

/-- `parse_batch_filename`. -/
def parseBatchFilename (created : Int → Option Text) (name : Text) : Option BatchMetadata :=
  if ¬ ndjson <:+ name then none else parseParts created (split '-' (name.take (name.length - ndjson.length)))

/-! ### Files -/

variable {ρ : Type}

/-- The pending files of a source: their names and records. -/
abbrev PendingDir (ρ : Type) := List (Text × List ρ)

/-- `os.replace` onto a name. -/
def PendingDir.install (dir : PendingDir ρ) (name : Text) (records : List ρ) : PendingDir ρ :=
  (dir.filter fun file => file.1 ≠ name) ++ [(name, records)]

/-- The largest offset of the fixed width. -/
def maxOffset : Int := 10 ^ offsetWidth - 1

/-- A call of `write_batch`, with what its file name takes from elsewhere. -/
structure BatchWrite (ρ : Type) where
  records : List ρ
  generation : Int
  startOffset : Int
  endOffset : Int
  stamp : NameStamp

def BatchWrite.fileName (write : BatchWrite ρ) : Text :=
  newBatchFilename write.generation write.startOffset write.endOffset write.stamp

/-- `write_batch`; the text of its `ValueError`, or the files after it. -/
def writeBatch (dir : PendingDir ρ) (write : BatchWrite ρ) : Except Text (PendingDir ρ) :=
  if write.records = [] then .error "write_batch requires at least one record; refusing to write an empty batch".toList
  else if write.generation < 0 then .error ("source_generation must be non-negative, got ".toList ++ signed write.generation)
  else if write.endOffset ≤ write.startOffset then
    .error ("end_offset (".toList ++ signed write.endOffset ++ ") must be greater than start_offset (".toList
      ++ signed write.startOffset ++ ")".toList)
  else if maxOffset < write.startOffset ∨ maxOffset < write.endOffset then
    .error ("start_offset/end_offset (".toList ++ signed write.startOffset ++ ", ".toList ++ signed write.endOffset
      ++ ") exceed the maximum value representable in the fixed-width batch filename (".toList ++ signed maxOffset
      ++ ") -- not a real byte offset".toList)
  else .ok (dir.install write.fileName write.records)

/-- A run of writes into an empty directory. -/
def writeAll (writes : List (BatchWrite ρ)) : Except Text (PendingDir ρ) := writes.foldlM writeBatch []

/-- `p.suffix == ".ndjson"`. -/
def isBatchFile (name : Text) : Bool := ndjson <:+ name ∧ name ≠ ndjson

/-- `list_pending_batches`: a sorted listing of the directory. -/
def listPendingBatches (dir : PendingDir ρ) : List Text := sortedNames ((dir.map Prod.fst).filter isBatchFile)

end SpoolNames

end SortView
