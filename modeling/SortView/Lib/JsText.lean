import SortView.Lib.Text

/-!
# Text as JavaScript has it

A string is a list of UTF-16 code units, with unpaired surrogates allowed. The white space of `\s` and of `trim`,
and the spelling of a finite number by `String`.
-/

/-- A JavaScript string. -/
abbrev JsText := List UInt16

namespace JsText

/-- The code unit of a character of the first plane. -/
def unit (c : Char) : UInt16 := c.toNat.toUInt16

/-- The string of a text of the first plane. -/
def ofText (text : List Char) : JsText := text.map unit

/-- `\s`: white space and line terminators, the byte order mark among them. -/
def isSpace (u : UInt16) : Bool :=
  let n := u.toNat
  (9 ≤ n && n ≤ 13) || n == 0x20 || n == 0xa0 || n == 0x1680 || (0x2000 ≤ n && n ≤ 0x200a) || n == 0x2028 || n == 0x2029
    || n == 0x202f || n == 0x205f || n == 0x3000 || n == 0xfeff

/-! ### Characters -/

/-- `text.trim()`. -/
def trim (text : JsText) : JsText := ((text.dropWhile isSpace).reverse.dropWhile isSpace).reverse

/-- What stands for an unpaired surrogate, which is no character. -/
def replacement : Char := Char.ofNat 0xfffd

def isHighSurrogate (u : UInt16) : Bool := 0xd800 ≤ u.toNat && u.toNat ≤ 0xdbff

def isLowSurrogate (u : UInt16) : Bool := 0xdc00 ≤ u.toNat && u.toNat ≤ 0xdfff

/-- A code unit as a character. -/
def char (u : UInt16) : Char := if 0xd800 ≤ u.toNat ∧ u.toNat ≤ 0xdfff then replacement else Char.ofNat u.toNat

/-- The code units one by one, as a pattern without the flag `u` sees them. -/
def chars (text : JsText) : List Char := text.map char

/-- The text that is sent: surrogate pairs are one character. Python keeps an unpaired surrogate, which no character stands for. -/
def decode : JsText → List Char
  | [] => []
  | [u] => [char u]
  | high :: low :: rest =>
      if isHighSurrogate high && isLowSurrogate low then
        Char.ofNat (0x10000 + (high.toNat - 0xd800) * 0x400 + (low.toNat - 0xdc00)) :: decode rest
      else char high :: decode (low :: rest)

@[simp] theorem length_chars (text : JsText) : text.chars.length = text.length := List.length_map ..

theorem char_of_isHighSurrogate {u : UInt16} (h : isHighSurrogate u = true) : char u = replacement := by
  rw [isHighSurrogate, Bool.and_eq_true, decide_eq_true_eq, decide_eq_true_eq] at h
  exact if_pos ⟨h.1, h.2.trans (by decide)⟩

/-- The character of a surrogate pair is beyond the first plane. -/
theorem le_toNat_pair {high low : UInt16} (hhigh : isHighSurrogate high = true) (hlow : isLowSurrogate low = true) :
    0x10000 ≤ (Char.ofNat (0x10000 + (high.toNat - 0xd800) * 0x400 + (low.toNat - 0xdc00))).toNat := by
  rw [isHighSurrogate, Bool.and_eq_true, decide_eq_true_eq, decide_eq_true_eq] at hhigh
  rw [isLowSurrogate, Bool.and_eq_true, decide_eq_true_eq, decide_eq_true_eq] at hlow
  have hvalid : (0x10000 + (high.toNat - 0xd800) * 0x400 + (low.toNat - 0xdc00)).isValidChar := by
    right
    omega
  rw [PyText.toNat_ofNat hvalid]
  omega

/-- A text sent in ASCII has a code unit for each character, and a text of ASCII units is sent as it is. -/
theorem decode_eq_chars (text : JsText) (h : (∀ c ∈ text.decode, c.toNat < 128) ∨ ∀ c ∈ text.chars, c.toNat < 128) :
    text.decode = text.chars := by
  induction text using decode.induct with
  | case1 => rfl
  | case2 u => rfl
  | case3 high low rest hpair ih =>
      rw [decode, if_pos hpair] at h
      rw [Bool.and_eq_true] at hpair
      rcases h with h | h
      · have hbeyond := le_toNat_pair hpair.1 hpair.2
        have hascii := h _ (List.mem_cons_self ..)
        omega
      · have hascii := h _ (List.mem_cons_self ..)
        rw [char_of_isHighSurrogate hpair.1] at hascii
        exact absurd hascii (by decide)
  | case4 high low rest hpair ih =>
      rw [decode, if_neg hpair] at h ⊢
      rw [ih (h.imp (fun h c hc => h c (List.mem_cons_of_mem _ hc)) fun h c hc => h c (List.mem_cons_of_mem _ hc))]
      rfl

/-- What reads texts of ASCII only reads the same in the code units and in the text that is sent. -/
theorem read_decode {α : Type} (read : List Char → Option α) (hread : ∀ text x, read text = some x → ∀ c ∈ text, c.toNat < 128)
    (text : JsText) : read text.decode = read text.chars := by
  cases hdecode : read text.decode with
  | some x => rw [← decode_eq_chars text (Or.inl (hread _ _ hdecode)), hdecode]
  | none =>
      cases hchars : read text.chars with
      | none => rfl
      | some x => rw [decode_eq_chars text (Or.inr (hread _ _ hchars)), hchars] at hdecode; cases hdecode

/-! ### Numbers -/

/-- A number by its shortest decimal digits: not finite, zero of either sign, or `±0.d₁d₂… × 10^point` with the digits of
`significand`. -/
inductive Number where
  | notFinite
  | zero
  | finite (negative : Bool) (significand : Nat) (point : Int)
  deriving DecidableEq

def decimal (n : Nat) : JsText := ofText (Nat.toDigits 10 n)

def zeros (count : Nat) : JsText := List.replicate count (unit '0')

/-- `Number::toString` of a positive number: the `k` digits of the significand with the decimal point after the first
`point` of them, or in exponent form. -/
def positiveText (significand : Nat) (point : Int) : JsText :=
  let digits := decimal significand
  let k : Int := digits.length
  if k ≤ point ∧ point ≤ 21 then digits ++ zeros (point - k).toNat
  else if 0 < point ∧ point ≤ 21 then digits.take point.toNat ++ unit '.' :: digits.drop point.toNat
  else if -6 < point ∧ point ≤ 0 then unit '0' :: unit '.' :: (zeros (-point).toNat ++ digits)
  else
    let exponent := (if 0 < point - 1 then unit '+' else unit '-') :: decimal (point - 1).natAbs
    if digits.length = 1 then digits ++ unit 'e' :: exponent
    else digits.take 1 ++ unit '.' :: digits.drop 1 ++ unit 'e' :: exponent

/-- `String(value)` of a finite number. -/
def numberText : Number → JsText
  | .notFinite => []
  | .zero => [unit '0']
  | .finite negative significand point => (if negative then [unit '-'] else []) ++ positiveText significand point

/-- The code units that the spelling of a number has. -/
def isNumberUnit (u : UInt16) : Bool :=
  (unit '0' ≤ u && u ≤ unit '9') || u == unit '.' || u == unit '-' || u == unit '+' || u == unit 'e'

theorem isNumberUnit_digit : ∀ n < 58, 48 ≤ n → isNumberUnit n.toUInt16 = true := by decide

theorem isNumberUnit_of_mem_decimal {n : Nat} {u : UInt16} (hu : u ∈ decimal n) : isNumberUnit u = true := by
  obtain ⟨c, hc, rfl⟩ := List.mem_map.1 hu
  have hdigit := Char.isDigit_iff_toNat.1 (Nat.isDigit_of_mem_toDigits (by decide) (by decide) hc)
  exact isNumberUnit_digit c.toNat (Nat.lt_succ_of_le hdigit.2) hdigit.1

theorem isNumberUnit_of_mem_zeros {count : Nat} {u : UInt16} (hu : u ∈ zeros count) : isNumberUnit u = true := by
  rw [List.eq_of_mem_replicate hu]
  decide

/-- The exponent of a spelling: a sign and digits. -/
theorem isNumberUnit_of_mem_exponent {point : Int} {u : UInt16}
    (hu : u ∈ (if 0 < point - 1 then unit '+' else unit '-') :: decimal (point - 1).natAbs) : isNumberUnit u = true := by
  rcases List.mem_cons.1 hu with rfl | hdigits
  · split <;> decide
  · exact isNumberUnit_of_mem_decimal hdigits

theorem isNumberUnit_of_mem_positiveText {significand : Nat} {point : Int} {u : UInt16} (hu : u ∈ positiveText significand point) :
    isNumberUnit u = true := by
  have hpoint : isNumberUnit (unit '.') = true := by decide
  have hletter : isNumberUnit (unit 'e') = true := by decide
  have hzero : isNumberUnit (unit '0') = true := by decide
  have htake (count : Nat) (h : u ∈ (decimal significand).take count) : isNumberUnit u = true :=
    isNumberUnit_of_mem_decimal (List.mem_of_mem_take h)
  have hdrop (count : Nat) (h : u ∈ (decimal significand).drop count) : isNumberUnit u = true :=
    isNumberUnit_of_mem_decimal (List.mem_of_mem_drop h)
  rw [positiveText] at hu
  dsimp only at hu
  split at hu
  · rcases List.mem_append.1 hu with hdigits | hzeros
    · exact isNumberUnit_of_mem_decimal hdigits
    · exact isNumberUnit_of_mem_zeros hzeros
  · split at hu
    · rcases List.mem_append.1 hu with hwhole | hu
      · exact htake _ hwhole
      · rcases List.mem_cons.1 hu with rfl | hfraction
        · exact hpoint
        · exact hdrop _ hfraction
    · split at hu
      · rcases List.mem_cons.1 hu with rfl | hu
        · exact hzero
        · rcases List.mem_cons.1 hu with rfl | hu
          · exact hpoint
          · rcases List.mem_append.1 hu with hzeros | hdigits
            · exact isNumberUnit_of_mem_zeros hzeros
            · exact isNumberUnit_of_mem_decimal hdigits
      · split at hu
        · rcases List.mem_append.1 hu with hdigits | hu
          · exact isNumberUnit_of_mem_decimal hdigits
          · rcases List.mem_cons.1 hu with rfl | hexponent
            · exact hletter
            · exact isNumberUnit_of_mem_exponent hexponent
        · rcases List.mem_append.1 hu with hu | hu
          · rcases List.mem_append.1 hu with hfirst | hu
            · exact htake _ hfirst
            · rcases List.mem_cons.1 hu with rfl | hfraction
              · exact hpoint
              · exact hdrop _ hfraction
          · rcases List.mem_cons.1 hu with rfl | hexponent
            · exact hletter
            · exact isNumberUnit_of_mem_exponent hexponent

/-- The spelling of a number has digits, signs, a point and an `e` only. -/
theorem isNumberUnit_of_mem_numberText {value : Number} {u : UInt16} (hu : u ∈ numberText value) : isNumberUnit u = true := by
  cases value with
  | notFinite => cases hu
  | zero =>
      rw [List.mem_singleton.1 hu]
      decide
  | finite negative significand point =>
      rcases List.mem_append.1 hu with hsign | hdigits
      · cases negative with
        | true =>
            rw [List.mem_singleton.1 hsign]
            decide
        | false => cases hsign
      · exact isNumberUnit_of_mem_positiveText hdigits

end JsText
