import SortView.Collector.Normalize
import SortView.Lib.DecimalText

/-!
# Sort bins

`services/sort_bin.py`: the one key of a bin, from the text either era stored for it.
-/

namespace SortView

open PyText

/-- `_NUMERIC_BIN.fullmatch`. -/
def isNumericBin (text : Text) : Bool := text ≠ [] && decide (text.length ≤ 4) && text.all Char.isDigit

/-- `text.lstrip("0") or "0"`. -/
def withoutZeros (text : Text) : Text :=
  let digits := text.dropWhile (· == '0')
  if digits = [] then ['0'] else digits

/-- `bin_key`. -/
def binKey (stored : Option Text) : Option Text :=
  stored.bind fun stored => if isNumericBin (strip stored) then some (withoutZeros (strip stored)) else none

/-- `bin_order`. -/
def binOrder (key : Text) : Nat := Nat.ofDigitChars 10 key 0

/-! ### The number of a bin -/

theorem ofDigitChars_dropZeros (text : Text) :
    Nat.ofDigitChars 10 (text.dropWhile (· == '0')) 0 = Nat.ofDigitChars 10 text 0 := by
  induction text with
  | nil => rfl
  | cons c text ih =>
      rw [List.dropWhile_cons]
      split
      · next hzero =>
        rw [ih, eq_of_beq hzero, Nat.ofDigitChars_cons]
        rfl
      · rfl

/-- Zeros before a number do not change it. -/
theorem withoutZeros_eq {text : Text} (hdigits : ∀ c ∈ text, c.isDigit = true) :
    withoutZeros text = decimal (Nat.ofDigitChars 10 text 0) := by
  rw [withoutZeros]
  split
  · next hnone =>
    rw [← ofDigitChars_dropZeros, hnone]
    rfl
  · next hsome =>
    rw [← ofDigitChars_dropZeros]
    refine (decimal_ofDigitChars hsome ?_ (Or.inr ?_)).symm
    · intro c hc
      exact hdigits c ((List.dropWhile_sublist _).mem hc)
    · intro hhead
      have hfirst := head_dropWhile (p := (· == '0')) text '0' hhead
      cases hfirst

theorem isNumericBin_iff (text : Text) :
    isNumericBin text = true ↔ text ≠ [] ∧ text.length ≤ 4 ∧ ∀ c ∈ text, c.isDigit = true := by
  simp [isNumericBin, and_assoc]

/-- The key of a bin is the number that the stored text is, apart from the space around it. -/
theorem binKey_eq_some_iff (stored : Option Text) (key : Text) :
    binKey stored = some key ↔ ∃ text, stored = some text ∧ strip text ≠ [] ∧ (strip text).length ≤ 4
      ∧ (∀ c ∈ strip text, c.isDigit = true) ∧ key = decimal (Nat.ofDigitChars 10 (strip text) 0) := by
  cases stored with
  | none =>
      constructor
      · intro h
        cases h
      · rintro ⟨text, htext, -⟩
        cases htext
  | some text =>
      rw [binKey, Option.bind_some]
      constructor
      · intro h
        split at h
        · next hbin =>
          obtain ⟨hne, hlength, hdigits⟩ := (isNumericBin_iff _).1 hbin
          refine ⟨text, rfl, hne, hlength, hdigits, ?_⟩
          rw [← withoutZeros_eq hdigits]
          exact (Option.some.inj h).symm
        · cases h
      · rintro ⟨other, htext, hne, hlength, hdigits, rfl⟩
        obtain rfl := Option.some.inj htext
        rw [if_pos ((isNumericBin_iff _).2 ⟨hne, hlength, hdigits⟩), withoutZeros_eq hdigits]

theorem decimal_binOrder {stored : Option Text} {key : Text} (h : binKey stored = some key) : decimal (binOrder key) = key := by
  obtain ⟨text, -, -, -, -, rfl⟩ := (binKey_eq_some_iff stored key).1 h
  rw [binOrder]
  exact congrArg decimal Nat.ofDigitChars_ten_toDigits

/-! ### The bins of both eras -/

theorem normalizeBin_eq (raw : Text) :
    Normalize.normalizeBin raw = if isNumericBin (strip raw) then strip raw else unknownDestination := by
  rw [Normalize.normalizeBin]
  apply if_congr _ rfl rfl
  rw [isNumericBin_iff, List.all_eq_true]
  rfl

/-- A raw bin text that one era stores as it is and the other as the Collector normalized it is one bin. -/
theorem binKey_normalizeBin (raw : Text) : binKey (some (Normalize.normalizeBin raw)) = binKey (some raw) := by
  rw [normalizeBin_eq, binKey, binKey, Option.bind_some, Option.bind_some]
  split
  · next hbin => rw [strip_strip, if_pos hbin]
  · rfl

end SortView
