import SortView.Collector.Reader

/-!
# The tailer of the continuous agent (`agent/tailer.py`)

The complete lines of a source file after a cursor, each with the offset it starts at.
-/

namespace SortView

open PyText ByteLines Reader

namespace Agent

structure FileCursor where
  identity : Option Token
  offset : Nat
  deriving DecidableEq

structure TailResult where
  lines : List Text
  lineOffsets : List Nat
  cursor : FileCursor
  existed : Bool
  rotated : Bool
  truncated : Bool

/-- The agent decodes a line as the Collector does. -/
abbrev decodeLine : Bytes → Text := Reader.decodeLine

def readSafeLines (content : Bytes) (startOffset : Nat) : List Text × List Nat × Nat :=
  let rest := content.drop startOffset
  let raw := readLines rest.length rest
  (raw.map decodeLine, (numbered startOffset raw).map Prod.fst, startOffset + size raw)

def readNewLines (view : FileView) (cursor : Option FileCursor) : TailResult :=
  match view.identity with
  | none => ⟨[], [], cursor.getD ⟨none, 0⟩, false, false, false⟩
  | some current =>
      let finish (startOffset : Nat) (rotated truncated : Bool) : TailResult :=
        match view.content with
        | none => ⟨[], [], cursor.getD ⟨some current, 0⟩, false, false, false⟩
        | some content =>
            let read := readSafeLines content startOffset
            ⟨read.1, read.2.1, ⟨some current, read.2.2⟩, true, rotated, truncated⟩
      match cursor with
      | none => finish 0 false false
      | some saved =>
          if saved.identity = none then finish 0 false false
          else if saved.identity ≠ some current then finish 0 true false
          else match view.size with
            | none => ⟨[], [], saved, false, false, false⟩
            | some currentSize =>
                if currentSize < saved.offset then finish 0 false true else finish saved.offset false false

/-- The offset a read of a cursor starts at, unless it finds a rotation or a truncation. -/
def cursorOffset (cursor : Option FileCursor) : Nat := (cursor.map FileCursor.offset).getD 0

/-- What a read that found the file returns: the lines after an offset, which is the cursor's unless the
read reports a rotation or a truncation and starts over. -/
theorem readNewLines_existed {view : FileView} {cursor : Option FileCursor}
    (hidentity : ∀ saved, cursor = some saved → saved.identity ≠ none)
    (hexisted : (readNewLines view cursor).existed = true) :
    ∃ current content startOffset, view.content = some content
      ∧ (readNewLines view cursor).lines = (readSafeLines content startOffset).1
      ∧ (readNewLines view cursor).lineOffsets = (readSafeLines content startOffset).2.1
      ∧ (readNewLines view cursor).cursor = ⟨some current, (readSafeLines content startOffset).2.2⟩
      ∧ (startOffset = 0 ∨ startOffset = cursorOffset cursor)
      ∧ ((readNewLines view cursor).rotated = false → (readNewLines view cursor).truncated = false →
          startOffset = cursorOffset cursor) := by
  rw [readNewLines] at hexisted ⊢
  cases hcurrent : view.identity with
  | none => simp [hcurrent] at hexisted
  | some current =>
      cases hcontent : view.content with
      | none =>
          exfalso
          simp only [hcurrent, hcontent] at hexisted
          cases cursor with
          | none => simp at hexisted
          | some saved =>
              simp only at hexisted
              split_ifs at hexisted
              · split at hexisted <;> simp at hexisted
      | some content =>
          cases cursor with
          | none => exact ⟨current, content, 0, rfl, rfl, rfl, rfl, Or.inl rfl, fun _ _ => rfl⟩
          | some saved =>
              have hsaved := hidentity saved rfl
              simp only [hcurrent, hcontent, if_neg hsaved] at hexisted ⊢
              by_cases hrotated : saved.identity = some current
              · simp only [hrotated, ne_eq, not_true_eq_false, if_false] at hexisted ⊢
                cases hsize : view.size with
                | none => simp [hsize] at hexisted
                | some currentSize =>
                    by_cases hshrunk : currentSize < saved.offset
                    · simp only [if_pos hshrunk]
                      exact ⟨current, content, 0, rfl, rfl, rfl, rfl, Or.inl rfl, fun _ h => absurd h (by simp)⟩
                    · simp only [if_neg hshrunk]
                      exact ⟨current, content, saved.offset, rfl, rfl, rfl, rfl, Or.inr rfl, fun _ _ => rfl⟩
              · simp only [ne_eq, hrotated, not_false_eq_true, if_true]
                exact ⟨current, content, 0, rfl, rfl, rfl, rfl, Or.inl rfl, fun h => absurd h (by simp)⟩

end Agent

end SortView
