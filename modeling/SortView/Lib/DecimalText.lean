import SortView.Lib.Decimal
import SortView.Lib.IsoTime

/-!
# Decimal and date texts

The plain decimal text of a number that is not negative, digits with an optional point, and a calendar date written
`YYYY-MM-DD`: what such a text denotes, how it is read, and that a number written with fixed places is read back.
-/

namespace PyText

open Calendar

/-! ### Texts of digits -/

theorem digit_value_lt {c : Char} (hc : c.isDigit = true) : c.toNat - '0'.toNat < 10 := by
  have hdigit := Char.isDigit_iff_toNat.1 hc
  have hzero : '0'.toNat = 48 := rfl
  have hnine : '9'.toNat = 57 := rfl
  omega

theorem digitChar_digit_value {c : Char} (hc : c.isDigit = true) : Nat.digitChar (c.toNat - '0'.toNat) = c := by
  apply Char.toNat_inj.1
  have hdigit := Char.isDigit_iff_toNat.1 hc
  have hzero : '0'.toNat = 48 := rfl
  rw [Nat.toNat_digitChar_of_lt_ten (digit_value_lt hc)]
  omega

theorem ofDigitChars_concat (text : Text) (c : Char) :
    Nat.ofDigitChars 10 (text ++ [c]) 0 = 10 * Nat.ofDigitChars 10 text 0 + (c.toNat - '0'.toNat) := by
  rw [Nat.ofDigitChars_append, Nat.ofDigitChars_cons, Nat.ofDigitChars_nil]

/-- Two texts of as many digits that are one number are one text. -/
theorem eq_of_ofDigitChars_eq {left right : Text} (hlength : left.length = right.length) (hleft : ∀ c ∈ left, c.isDigit = true)
    (hright : ∀ c ∈ right, c.isDigit = true) (h : Nat.ofDigitChars 10 left 0 = Nat.ofDigitChars 10 right 0) : left = right := by
  induction left using List.reverseRecOn generalizing right with
  | nil => exact (List.length_eq_zero_iff.1 hlength.symm).symm
  | append_singleton left c ih =>
      rcases List.eq_nil_or_concat right with rfl | ⟨right, d, rfl⟩
      · simp at hlength
      · rw [List.concat_eq_append] at h hright hlength ⊢
        rw [ofDigitChars_concat, ofDigitChars_concat] at h
        have hc := digit_value_lt (hleft c (by simp))
        have hd := digit_value_lt (hright d (by simp))
        have hsame := ih (by simpa using hlength) (fun e he => hleft e (by simp [he])) (fun e he => hright e (by simp [he]))
          (by omega)
        have hlast : c = d := by
          rw [← digitChar_digit_value (hleft c (by simp)), ← digitChar_digit_value (hright d (by simp))]
          congr 1
          omega
        rw [hsame, hlast]

theorem padded_ofDigitChars {text : Text} (hne : text ≠ []) (hdigits : ∀ c ∈ text, c.isDigit = true) :
    padded text.length (Nat.ofDigitChars 10 text 0) = text := by
  have hpos : 0 < text.length := List.length_pos_iff.2 hne
  have hlt : Nat.ofDigitChars 10 text 0 < 10 ^ text.length := by
    clear hne hpos
    induction text using List.reverseRecOn with
    | nil => simp
    | append_singleton text c ih =>
        have hinit := ih fun d hd => hdigits d (by simp [hd])
        have hlast := digit_value_lt (hdigits c (by simp))
        rw [ofDigitChars_concat, List.length_append, List.length_singleton, Nat.pow_succ]
        omega
  apply eq_of_ofDigitChars_eq (length_padded hpos hlt) (fun c hc => isDigit_of_mem_padded hc) hdigits
  exact ofDigitChars_padded _ _

/-- Digits with no zero before them. -/
def NoLeadingZero (text : Text) : Prop := text = ['0'] ∨ text.head? ≠ some '0'

instance (text : Text) : Decidable (NoLeadingZero text) := inferInstanceAs (Decidable (_ ∨ _))

theorem noLeadingZero_decimal (n : Nat) : NoLeadingZero (decimal n) := by
  induction n using Nat.strongRecOn with
  | ind n ih =>
      rw [decimal, Nat.toDigits_eq_if (by decide)]
      split
      · next hlt =>
        have hdigits : ∀ d < 10, NoLeadingZero [Nat.digitChar d] := by decide
        exact hdigits n hlt
      · next hge =>
        right
        have hne : Nat.toDigits 10 (n / 10) ≠ [] := Nat.toDigits_ne_nil
        rw [List.head?_append_of_ne_nil _ hne]
        rcases ih (n / 10) (by omega) with hzero | hhead
        · have hvalue : n / 10 = 0 := by
            have hnumber := Nat.ofDigitChars_ten_toDigits (n := n / 10)
            rw [← decimal, hzero] at hnumber
            exact hnumber.symm
          omega
        · exact hhead

theorem decimal_ofDigitChars {text : Text} (hne : text ≠ []) (hdigits : ∀ c ∈ text, c.isDigit = true)
    (hlead : NoLeadingZero text) : decimal (Nat.ofDigitChars 10 text 0) = text := by
  induction text using List.reverseRecOn with
  | nil => exact absurd rfl hne
  | append_singleton text c ih =>
      have hc := hdigits c (by simp)
      rw [ofDigitChars_concat, decimal]
      by_cases htext : text = []
      · subst htext
        rw [Nat.ofDigitChars_nil, Nat.mul_zero, Nat.zero_add, Nat.toDigits_of_lt_base (digit_value_lt hc),
          digitChar_digit_value hc]
        rfl
      · have hhead : text.head? ≠ some '0' := by
          rcases hlead with hzero | hhead
          · have hlength := congrArg List.length hzero
            rw [List.length_append, List.length_singleton, List.length_singleton] at hlength
            exact absurd (List.length_eq_zero_iff.1 (by omega)) htext
          · rwa [List.head?_append_of_ne_nil _ htext] at hhead
        have hinit := ih htext (fun d hd => hdigits d (by simp [hd])) (Or.inr hhead)
        have hpos : 0 < Nat.ofDigitChars 10 text 0 := by
          apply Nat.pos_of_ne_zero
          intro hzero
          rw [hzero] at hinit
          exact hhead (hinit ▸ rfl)
        rw [← Nat.toDigits_append_toDigits (by decide) hpos (digit_value_lt hc), ← decimal, hinit,
          Nat.toDigits_of_lt_base (digit_value_lt hc), digitChar_digit_value hc]

theorem length_decimal_le {n k : Nat} (hk : 0 < k) (hn : n < 10 ^ k) : (decimal n).length ≤ k :=
  (Nat.length_toDigits_le_iff (by decide) hk).2 hn

/-! ### Dates -/

theorem eq_of_number {width value : Nat} {text rest : Text} (hwidth : 0 < width) (h : number width text = some (value, rest)) :
    text = padded width value ++ rest := by
  rw [number] at h
  split at h
  · next hdigits =>
    obtain ⟨hlength, hall⟩ := hdigits
    cases h
    have hne : text.take width ≠ [] := by
      intro hnil
      rw [hnil] at hlength
      exact hwidth.ne hlength
    have hpadded := padded_ofDigitChars hne (List.all_eq_true.1 hall)
    rw [hlength] at hpadded
    rw [hpadded, List.take_append_drop]
  · cases h

theorem eq_of_literal {c : Char} {text rest : Text} (h : literal c text = some rest) : text = c :: rest := by
  cases text with
  | nil => cases h
  | cons first text =>
      rw [literal] at h
      split at h
      · next heq =>
        cases h
        rw [heq]
      · cases h

/-- A date that is read was written there. -/
theorem eq_of_readDate {text rest : Text} {date : Date} (h : readDate text = some (date, rest)) :
    date.Valid ∧ text = date.written ++ rest := by
  rw [readDate] at h
  simp only [Option.bind_eq_bind] at h
  obtain ⟨⟨year, text₁⟩, hyear, h⟩ := Option.bind_eq_some_iff.1 h
  obtain ⟨text₂, hfirst, h⟩ := Option.bind_eq_some_iff.1 h
  obtain ⟨⟨month, text₃⟩, hmonth, h⟩ := Option.bind_eq_some_iff.1 h
  obtain ⟨text₄, hsecond, h⟩ := Option.bind_eq_some_iff.1 h
  obtain ⟨⟨day, text₅⟩, hday, h⟩ := Option.bind_eq_some_iff.1 h
  split at h
  · next hvalid =>
    cases h
    refine ⟨hvalid, ?_⟩
    dsimp only at hfirst hsecond ⊢
    rw [eq_of_number (by decide) hyear, eq_of_literal hfirst, eq_of_number (by decide) hmonth, eq_of_literal hsecond,
      eq_of_number (by decide) hday, Date.written, List.append_assoc, List.cons_append, List.append_assoc, List.cons_append]
  · cases h

/-! ### Decimals -/

/-- A plain decimal text, how many places it has, and the number it denotes. -/
inductive DenotesDecimal : Text → Nat → ℚ → Prop
  | whole (n : Nat) : DenotesDecimal (decimal n) 0 n
  | point (n : Nat) {fraction : Text} (hne : fraction ≠ []) (hdigits : ∀ c ∈ fraction, c.isDigit = true) :
      DenotesDecimal (decimal n ++ '.' :: fraction) fraction.length
        (n + Nat.ofDigitChars 10 fraction 0 / 10 ^ fraction.length)

/-- The groups of `(0|[1-9][0-9]*)(?:\.([0-9]+))?`, matched on the whole text. -/
def decimalGroups (text : Text) : Option (Text × Text) :=
  let whole := text.takeWhile Char.isDigit
  if whole ≠ [] ∧ NoLeadingZero whole then
    match text.dropWhile Char.isDigit with
    | [] => some (whole, [])
    | c :: fraction => if c = '.' ∧ fraction ≠ [] ∧ fraction.all Char.isDigit then some (whole, fraction) else none
  else none

/-- `Decimal(value)` of a text with these groups. -/
def groupsDecimal (groups : Text × Text) : Decimal := ⟨false, Nat.ofDigitChars 10 (groups.1 ++ groups.2) 0, -groups.2.length⟩

theorem takeWhile_digits {digits rest : Text} (hdigits : ∀ c ∈ digits, c.isDigit = true)
    (hrest : ∀ c ∈ rest.head?, c.isDigit = false) :
    (digits ++ rest).takeWhile Char.isDigit = digits ∧ (digits ++ rest).dropWhile Char.isDigit = rest := by
  induction digits with
  | nil =>
      cases rest with
      | nil => exact ⟨rfl, rfl⟩
      | cons c rest =>
          have hc := hrest c rfl
          simp [hc]
  | cons c digits ih =>
      have hc := hdigits c List.mem_cons_self
      have hdigits' := ih fun d hd => hdigits d (List.mem_cons_of_mem c hd)
      rw [List.cons_append, List.takeWhile_cons_of_pos hc, List.dropWhile_cons_of_pos hc, hdigits'.1, hdigits'.2]
      exact ⟨rfl, rfl⟩

theorem decimalGroups_whole (n : Nat) : decimalGroups (decimal n) = some (decimal n, []) := by
  have hdigits := @takeWhile_digits (decimal n) [] (fun c hc => isDigit_of_mem_decimal hc) nofun
  rw [List.append_nil] at hdigits
  rw [decimalGroups, hdigits.1, hdigits.2]
  exact if_pos ⟨Nat.toDigits_ne_nil, noLeadingZero_decimal n⟩

theorem decimalGroups_point (n : Nat) {fraction : Text} (hne : fraction ≠ []) (hdigits : ∀ c ∈ fraction, c.isDigit = true) :
    decimalGroups (decimal n ++ '.' :: fraction) = some (decimal n, fraction) := by
  have hwhole := @takeWhile_digits (decimal n) ('.' :: fraction) (fun c hc => isDigit_of_mem_decimal hc) (by
    intro c hc
    cases hc
    rfl)
  rw [decimalGroups, hwhole.1, hwhole.2]
  simp only [if_pos (⟨Nat.toDigits_ne_nil, noLeadingZero_decimal n⟩ : decimal n ≠ [] ∧ NoLeadingZero (decimal n))]
  rw [if_pos ⟨trivial, hne, List.all_eq_true.2 hdigits⟩]

/-- The number of the digits before and behind the point. -/
theorem value_groupsDecimal (n : Nat) (fraction : Text) :
    (groupsDecimal (decimal n, fraction)).value = n + Nat.ofDigitChars 10 fraction 0 / 10 ^ fraction.length := by
  rw [groupsDecimal, Decimal.value_eq, if_neg (by decide), Nat.ofDigitChars_append, Nat.ofDigitChars_eq_ofDigitChars_zero, decimal,
    Nat.ofDigitChars_ten_toDigits, zpow_neg, zpow_natCast]
  push_cast
  field_simp

/-- What the groups of a text are, and what the text denotes. -/
theorem denotesDecimal_of_groups {text whole fraction : Text} (h : decimalGroups text = some (whole, fraction)) :
    DenotesDecimal text fraction.length (groupsDecimal (whole, fraction)).value := by
  rw [decimalGroups] at h
  obtain ⟨digits, hdigits⟩ : ∃ digits, digits = text.takeWhile Char.isDigit := ⟨_, rfl⟩
  have htext : digits ++ text.dropWhile Char.isDigit = text := by
    rw [hdigits]
    exact List.takeWhile_append_dropWhile
  have hall : ∀ c ∈ digits, c.isDigit = true := by
    intro c hc
    rw [hdigits] at hc
    exact List.all_eq_true.1 List.all_takeWhile c hc
  rw [← hdigits] at h
  split at h
  · next hwhole =>
    have hnumber := decimal_ofDigitChars hwhole.1 hall hwhole.2
    cases hrest : text.dropWhile Char.isDigit with
    | nil =>
        rw [hrest] at h htext
        cases h
        rw [List.append_nil] at htext
        rw [← htext, ← hnumber, value_groupsDecimal, hnumber, Nat.ofDigitChars_nil, List.length_nil]
        have hdenotes := DenotesDecimal.whole (Nat.ofDigitChars 10 whole 0)
        rw [hnumber] at hdenotes
        simpa using hdenotes
    | cons c rest =>
        rw [hrest] at h htext
        dsimp only at h
        split at h
        · next hpoint =>
          obtain ⟨rfl, hne, hfraction⟩ := hpoint
          cases h
          rw [← htext, ← hnumber, value_groupsDecimal]
          exact DenotesDecimal.point _ hne (List.all_eq_true.1 hfraction)
        · cases h
  · cases h

theorem DenotesDecimal.groups {text : Text} {places : Nat} {q : ℚ} (h : DenotesDecimal text places q) :
    ∃ whole fraction, decimalGroups text = some (whole, fraction) ∧ fraction.length = places
      ∧ (groupsDecimal (whole, fraction)).value = q := by
  cases h with
  | whole n =>
      refine ⟨decimal n, [], decimalGroups_whole n, rfl, ?_⟩
      rw [value_groupsDecimal]
      simp
  | point n hne hdigits => exact ⟨_, _, decimalGroups_point n hne hdigits, rfl, value_groupsDecimal n _⟩

/-- A coefficient at a number of places, halves to the even digit. -/
def evenCoefficientAt (x : Decimal) (places : Nat) : Nat :=
  if 0 ≤ x.exponent + places then x.coefficient * 10 ^ (x.exponent + places).toNat
  else
    let unit := 10 ^ (-(x.exponent + places)).toNat
    let below := x.coefficient / unit
    if unit < 2 * (x.coefficient % unit) ∨ (2 * (x.coefficient % unit) = unit ∧ below % 2 = 1) then below + 1 else below

/-- `f"{x:.{places}f}"`, for one place or more. -/
def fixedText (places : Nat) (x : Decimal) : Text :=
  let coefficient := evenCoefficientAt x places
  (if x.negative then ['-'] else []) ++ (decimal (coefficient / 10 ^ places) ++ '.' :: padded places (coefficient % 10 ^ places))

/-- A number that is not negative and has the places it is written with. -/
structure AtPlaces (places : Nat) (x : Decimal) : Prop where
  positive : x.negative = false
  exponent : x.exponent = -places

theorem AtPlaces.value_eq {places : Nat} {x : Decimal} (h : AtPlaces places x) : x.value = x.coefficient / 10 ^ places := by
  rw [Decimal.value, h.positive, h.exponent, zpow_neg, zpow_natCast, if_neg (by decide), one_mul, div_eq_mul_inv]

theorem AtPlaces.eq_of_value {places : Nat} {x y : Decimal} (hx : AtPlaces places x) (hy : AtPlaces places y)
    (h : x.value = y.value) : x = y := by
  rw [hx.value_eq, hy.value_eq, div_left_inj' (by positivity), Nat.cast_inj] at h
  obtain ⟨negative, coefficient, exponent⟩ := x
  obtain ⟨negative', coefficient', exponent'⟩ := y
  have hsign : negative = negative' := hx.positive.trans hy.positive.symm
  have hexponent : exponent = exponent' := hx.exponent.trans hy.exponent.symm
  have hcoefficient : coefficient = coefficient' := h
  rw [hsign, hexponent, hcoefficient]

theorem AtPlaces.fixedText_eq {places : Nat} {x : Decimal} (h : AtPlaces places x) :
    fixedText places x = decimal (x.coefficient / 10 ^ places) ++ '.' :: padded places (x.coefficient % 10 ^ places) := by
  have hcoefficient : evenCoefficientAt x places = x.coefficient := by
    rw [evenCoefficientAt, h.exponent]
    simp
  rw [fixedText, hcoefficient, h.positive]
  rfl

/-- A number that is written is read with its own digits. -/
theorem AtPlaces.groups {places : Nat} {x : Decimal} (h : AtPlaces places x) (hplaces : 0 < places) :
    ∃ whole fraction, decimalGroups (fixedText places x) = some (whole, fraction) ∧ fraction.length = places
      ∧ groupsDecimal (whole, fraction) = x := by
  have hlt : x.coefficient % 10 ^ places < 10 ^ places := Nat.mod_lt _ (by positivity)
  have hlength := length_padded hplaces hlt
  have hne : padded places (x.coefficient % 10 ^ places) ≠ [] := by
    intro hnil
    rw [hnil] at hlength
    exact hplaces.ne hlength
  refine ⟨_, _, h.fixedText_eq ▸ decimalGroups_point _ hne (fun c hc => isDigit_of_mem_padded hc), hlength, ?_⟩
  rw [groupsDecimal]
  dsimp only
  rw [Nat.ofDigitChars_append, Nat.ofDigitChars_eq_ofDigitChars_zero, ofDigitChars_padded, hlength, decimal,
    Nat.ofDigitChars_ten_toDigits, Nat.div_add_mod]
  obtain ⟨negative, coefficient, exponent⟩ := x
  have hsign : negative = false := h.positive
  have hexponent : exponent = -(places : Int) := h.exponent
  rw [hsign, hexponent]

end PyText
