import SortView.Lib.Lines
import SortView.Lib.Text

/-!
# The incremental reader (`collector/reader.py`)

One read of a source file: identify it, compare its identity and size with the saved cursor, and take
the complete lines after the cursor.
-/

namespace SortView

open PyText ByteLines

/-- `(st_dev, st_ino)` of a file. -/
abbrev Token := Int × Int

namespace Reader

def uint32 : Int := 2 ^ 32

/-- Whether a saved identity and the current one name the same file. On Windows a saved 32-bit volume
serial also matches the 64-bit serial whose low half it is. -/
def sameFile (isWindows : Bool) : Option Token → Option Token → Bool
  | some saved, some current =>
      if saved = current then true
      else if !isWindows || saved.1 < 0 || saved.2 < 0 || current.1 < 0 || current.2 < 0 then false
      else saved.2 == current.2 && saved.1 < uint32 && uint32 ≤ current.1 && current.1 % uint32 == saved.1
  | _, _ => false

theorem sameFile_self (isWindows : Bool) (token : Token) : sameFile isWindows (some token) (some token) = true := by
  simp [sameFile]

structure SourceCursor where
  identity : Option Token
  offset : Nat
  deriving DecidableEq

structure ReadResult where
  lines : List Text
  cursor : SourceCursor
  existed : Bool
  rotated : Bool
  truncated : Bool

/-- What the file system answers to the three calls of one read: `os.stat`, `os.path.getsize`, and
opening and reading the file. Each of them can fail. -/
structure FileView where
  identity : Option Token
  size : Option Nat
  content : Option Bytes

def decodeLine (rawLine : Bytes) : Text :=
  let text := decodeUtf8 rawLine
  if "\r\n".toList <:+ text then text.take (text.length - 2) ++ "\n".toList else text

/-- The complete lines from `startOffset` on, and the offset just past the last of them. -/
def readCompleteLines (content : Bytes) (startOffset : Nat) : List Text × Nat :=
  let rest := content.drop startOffset
  let raw := readLines rest.length rest
  (raw.map decodeLine, startOffset + size raw)

def readNewLines (isWindows : Bool) (view : FileView) (cursor : Option SourceCursor) : ReadResult :=
  match view.identity with
  | none => ⟨[], cursor.getD ⟨none, 0⟩, false, false, false⟩
  | some current =>
      let finish (startOffset : Nat) (rotated truncated : Bool) : ReadResult :=
        match view.content with
        | none => ⟨[], cursor.getD ⟨some current, 0⟩, false, false, false⟩
        | some content =>
            let read := readCompleteLines content startOffset
            ⟨read.1, ⟨some current, read.2⟩, true, rotated, truncated⟩
      match cursor with
      | none => finish 0 false false
      | some saved =>
          if saved.identity = none then finish 0 false false
          else if sameFile isWindows saved.identity (some current) = false then finish 0 true false
          else match view.size with
            | none => ⟨[], saved, false, false, false⟩
            | some currentSize =>
                if currentSize < saved.offset then finish 0 false true else finish saved.offset false false

/-- The answers of a file that keeps its identity and only grows: nothing of `past` is lost in them. -/
structure Grows (token : Token) (past : Bytes) (view : FileView) : Prop where
  identity : ∀ current, view.identity = some current → current = token
  size : ∀ currentSize, view.size = some currentSize → past.length ≤ currentSize
  content : ∀ content, view.content = some content → past <+: content

/-- The offset a cursor stands for: the start of the file where there is none. -/
def startOffset (cursor : Option SourceCursor) : Nat := (cursor.map SourceCursor.offset).getD 0

/-- A cursor that an earlier read of a growing file left: at the end of a line of what the file held. -/
structure Settled (token : Token) (past : Bytes) (cursor : Option SourceCursor) : Prop where
  identity : ∀ saved, cursor = some saved → saved.identity = some token
  atLineEnd : AtLineEnd past (startOffset cursor)

/-- A read of a growing file takes the complete lines after the cursor, or finds the file unreadable. -/
theorem readNewLines_grows {isWindows : Bool} {token : Token} {past : Bytes} {view : FileView}
    {cursor : Option SourceCursor} (hview : Grows token past view) (hcursor : Settled token past cursor)
    (hexisted : (readNewLines isWindows view cursor).existed = true) :
    ∃ content, view.content = some content ∧ past <+: content
      ∧ readNewLines isWindows view cursor
          = ⟨(readCompleteLines content (startOffset cursor)).1,
              ⟨some token, (readCompleteLines content (startOffset cursor)).2⟩, true, false, false⟩ := by
  rw [readNewLines] at hexisted ⊢
  cases hidentity : view.identity with
  | none => simp [hidentity] at hexisted
  | some current =>
      obtain rfl := hview.identity current hidentity
      cases hcontent : view.content with
      | none =>
          exfalso
          simp only [hidentity, hcontent] at hexisted
          cases cursor with
          | none => simp at hexisted
          | some saved =>
              simp only at hexisted
              split_ifs at hexisted
              · split at hexisted <;> simp at hexisted
      | some content =>
          refine ⟨content, rfl, hview.content content hcontent, ?_⟩
          cases cursor with
          | none => rfl
          | some saved =>
              have hsaved : saved.identity = some current := hcursor.identity saved rfl
              simp only [hidentity, hcontent, hsaved, sameFile_self] at hexisted ⊢
              cases hsize : view.size with
              | none => simp [hsize] at hexisted
              | some currentSize =>
                  have hoffset : saved.offset ≤ past.length := hcursor.atLineEnd.1
                  have hpast := hview.size currentSize hsize
                  have hnot : ¬ currentSize < saved.offset := by omega
                  simp [hnot, startOffset]

/-- The lines a read takes, and where it stops. -/
theorem readCompleteLines_spec {content : Bytes} {offset : Nat} (hoffset : AtLineEnd content offset) :
    AtLineEnd content (readCompleteLines content offset).2
      ∧ offset ≤ (readCompleteLines content offset).2
      ∧ (linesBelow content (readCompleteLines content offset).2).map decodeLine
          = (linesBelow content offset).map decodeLine ++ (readCompleteLines content offset).1 := by
  have hresume := resume hoffset (content.drop offset).length
  refine ⟨hresume.1, Nat.le_add_right _ _, ?_⟩
  rw [readCompleteLines, hresume.2, List.map_append]

end Reader

end SortView
