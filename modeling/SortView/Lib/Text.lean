import Mathlib.Data.List.Infix
import Mathlib.Data.List.TakeWhile
import Mathlib.Data.Nat.Digits.Defs
import Mathlib.Tactic.Common

/-!
# Text as Python has it

Operations of Python's `str` on lists of code points: `strip`, `split` and `join` on one character,
containment, decimal numerals, and decoding UTF-8 with replacement characters.
-/

namespace PyText

abbrev Text := List Char

instance decidableMemTexts (text : Text) (texts : List Text) : Decidable (text ∈ texts) :=
  List.instDecidableMemOfLawfulBEq text texts

theorem toNat_ofNat {n : Nat} (hvalid : n.isValidChar) : (Char.ofNat n).toNat = n := by
  rw [Char.ofNat, dif_pos hvalid]
  rfl

/-- `str.isspace` of one code point. -/
def isSpace (c : Char) : Bool :=
  let n := c.toNat
  (9 ≤ n && n ≤ 13) || (0x1c ≤ n && n ≤ 0x20) || n == 0x85 || n == 0xa0 || n == 0x1680
    || (0x2000 ≤ n && n ≤ 0x200a) || n == 0x2028 || n == 0x2029 || n == 0x202f || n == 0x205f || n == 0x3000

def lstrip (text : Text) : Text := text.dropWhile isSpace

def rstrip (text : Text) : Text := (text.reverse.dropWhile isSpace).reverse

/-- `str.strip()`. -/
def strip (text : Text) : Text := rstrip (lstrip text)

/-- `text.split(sep)` for a separator of one character. -/
def split (sep : Char) : Text → List Text
  | [] => [[]]
  | c :: cs =>
      if c = sep then [] :: split sep cs
      else match split sep cs with
        | [] => [[c]]
        | part :: parts => (c :: part) :: parts

/-- `sep.join(parts)` for a separator of one character. -/
def join (sep : Char) : List Text → Text
  | [] => []
  | [part] => part
  | part :: next :: parts => part ++ sep :: join sep (next :: parts)

/-- `str(n)` of a natural number. -/
def decimal (n : Nat) : Text := Nat.toDigits 10 n

/-- `needle in text`. -/
def contains (text needle : Text) : Bool := decide (needle <:+: text)

theorem split_append_sep {sep : Char} {part : Text} (hpart : sep ∉ part) (rest : Text) :
    split sep (part ++ sep :: rest) = part :: split sep rest := by
  induction part with
  | nil => simp [split]
  | cons c part ih =>
      have hc : c ≠ sep := by
        intro heq
        exact hpart (heq ▸ List.mem_cons_self ..)
      rw [List.cons_append, split, if_neg hc, ih fun hmem => hpart (List.mem_cons_of_mem _ hmem)]

theorem split_of_not_mem {sep : Char} {part : Text} (hpart : sep ∉ part) : split sep part = [part] := by
  induction part with
  | nil => rfl
  | cons c part ih =>
      have hc : c ≠ sep := by
        intro heq
        exact hpart (heq ▸ List.mem_cons_self ..)
      rw [split, if_neg hc, ih fun hmem => hpart (List.mem_cons_of_mem _ hmem)]

/-- Parts that do not hold the separator can be read back from their join. -/
theorem split_join {sep : Char} {parts : List Text} (hne : parts ≠ []) (hparts : ∀ part ∈ parts, sep ∉ part) :
    split sep (join sep parts) = parts := by
  induction parts with
  | nil => exact absurd rfl hne
  | cons part parts ih =>
      have hpart := hparts part (List.mem_cons_self ..)
      cases parts with
      | nil => exact split_of_not_mem hpart
      | cons next parts =>
          rw [join, split_append_sep hpart,
            ih (List.cons_ne_nil _ _) fun other hother => hparts other (List.mem_cons_of_mem _ hother)]

theorem join_injective {sep : Char} {left right : List Text} (hleft : left ≠ []) (hright : right ≠ [])
    (hleftparts : ∀ part ∈ left, sep ∉ part) (hrightparts : ∀ part ∈ right, sep ∉ part)
    (h : join sep left = join sep right) : left = right := by
  rw [← split_join hleft hleftparts, h, split_join hright hrightparts]

theorem decimal_injective {m n : Nat} (h : decimal m = decimal n) : m = n := by
  have hvalue := congrArg (Nat.ofDigitChars 10 · 0) h
  simpa only [decimal, Nat.ofDigitChars_ten_toDigits] using hvalue

theorem isDigit_of_mem_decimal {n : Nat} {c : Char} (hc : c ∈ decimal n) : c.isDigit = true :=
  Nat.isDigit_of_mem_toDigits (by omega) (by omega) hc

/-! ### Stripping -/

/-- A text without white space at its ends. -/
structure Trimmed (text : Text) : Prop where
  head : ∀ c ∈ text.head?, isSpace c = false
  last : ∀ c ∈ text.getLast?, isSpace c = false

theorem dropWhile_of_head {p : Char → Bool} {text : Text} (h : ∀ c ∈ text.head?, p c = false) : text.dropWhile p = text := by
  cases text with
  | nil => rfl
  | cons c text => rw [List.dropWhile_cons_of_neg (by simpa using h c rfl)]

theorem head_dropWhile {p : Char → Bool} (text : Text) : ∀ c ∈ (text.dropWhile p).head?, p c = false := by
  intro c hc
  have hhead := List.head?_dropWhile_not p text
  rw [Option.mem_def.1 hc] at hhead
  simpa using hhead

theorem Trimmed.strip_eq {text : Text} (h : Trimmed text) : strip text = text := by
  rw [strip, lstrip, dropWhile_of_head h.head, rstrip, dropWhile_of_head, List.reverse_reverse]
  rw [List.head?_reverse]
  exact h.last

theorem rstrip_prefix_self (text : Text) : rstrip text <+: text := by
  refine ⟨(text.reverse.takeWhile isSpace).reverse, ?_⟩
  rw [rstrip, ← List.reverse_append, List.takeWhile_append_dropWhile, List.reverse_reverse]

theorem trimmed_strip (text : Text) : Trimmed (strip text) := by
  constructor
  · obtain ⟨tail, htext⟩ := rstrip_prefix_self (lstrip text)
    intro c hc
    have hne : rstrip (lstrip text) ≠ [] := by
      intro hnil
      rw [strip, hnil] at hc
      cases hc
    apply head_dropWhile (p := isSpace) text
    show c ∈ (lstrip text).head?
    rw [← htext, List.head?_append_of_ne_nil _ hne]
    exact hc
  · intro c hc
    rw [strip, rstrip, List.getLast?_reverse] at hc
    exact head_dropWhile _ c hc

@[simp] theorem strip_strip (text : Text) : strip (strip text) = strip text := (trimmed_strip text).strip_eq

theorem lstrip_pad {left text : Text} (hleft : ∀ c ∈ left, isSpace c = true) : lstrip (left ++ text) = lstrip text :=
  List.dropWhile_append_of_pos hleft

theorem rstrip_pad {text right : Text} (hright : ∀ c ∈ right, isSpace c = true) : rstrip (text ++ right) = rstrip text := by
  rw [rstrip, List.reverse_append, List.dropWhile_append_of_pos fun c hc => hright c (List.mem_reverse.1 hc), rstrip]

/-- White space around a text is stripped with the rest. -/
theorem strip_pad {left text right : Text} (hleft : ∀ c ∈ left, isSpace c = true) (hright : ∀ c ∈ right, isSpace c = true) :
    strip (left ++ text ++ right) = strip text := by
  rw [strip, List.append_assoc, lstrip_pad hleft, lstrip, List.dropWhile_append]
  split
  · next hempty =>
    rw [strip, lstrip, List.isEmpty_iff.1 hempty, ← List.append_nil (right.dropWhile isSpace),
      List.dropWhile_eq_nil_iff.2 hright]
    rfl
  · rw [rstrip_pad hright, strip, lstrip]

/-- A text is what `strip` leaves of it between white space. -/
theorem exists_pad (text : Text) :
    ∃ left right, (∀ c ∈ left, isSpace c = true) ∧ (∀ c ∈ right, isSpace c = true) ∧ text = left ++ strip text ++ right := by
  refine ⟨text.takeWhile isSpace, ((lstrip text).reverse.takeWhile isSpace).reverse, ?_, ?_, ?_⟩
  · exact fun c hc => List.mem_takeWhile_imp hc
  · exact fun c hc => List.mem_takeWhile_imp (List.mem_reverse.1 hc)
  · have hright : strip text ++ ((lstrip text).reverse.takeWhile isSpace).reverse = lstrip text := by
      rw [strip, rstrip, ← List.reverse_append, List.takeWhile_append_dropWhile, List.reverse_reverse]
    rw [List.append_assoc, hright]
    exact List.takeWhile_append_dropWhile.symm

/-! ### Decoding UTF-8 -/

/-- An unfinished UTF-8 sequence: the code point so far, how many continuation bytes are still needed, and
the bounds of the next one. -/
structure Utf8State where
  acc : Nat
  needed : Nat
  lower : Nat
  upper : Nat

def replacement : Char := Char.ofNat 0xfffd

/-- The first byte of a sequence. -/
def utf8First (b : Nat) : Text × Option Utf8State :=
  if b < 0x80 then ([Char.ofNat b], none)
  else if 0xc2 ≤ b ∧ b ≤ 0xdf then ([], some ⟨b - 0xc0, 1, 0x80, 0xbf⟩)
  else if b = 0xe0 then ([], some ⟨0, 2, 0xa0, 0xbf⟩)
  else if b = 0xed then ([], some ⟨0xd, 2, 0x80, 0x9f⟩)
  else if 0xe1 ≤ b ∧ b ≤ 0xef then ([], some ⟨b - 0xe0, 2, 0x80, 0xbf⟩)
  else if b = 0xf0 then ([], some ⟨0, 3, 0x90, 0xbf⟩)
  else if 0xf1 ≤ b ∧ b ≤ 0xf3 then ([], some ⟨b - 0xf0, 3, 0x80, 0xbf⟩)
  else if b = 0xf4 then ([], some ⟨4, 3, 0x80, 0x8f⟩)
  else ([replacement], none)

/-- One byte. A byte that does not continue the unfinished sequence ends it with one replacement
character and is then read as a first byte. -/
def utf8Step : Option Utf8State → Nat → Text × Option Utf8State
  | none, b => utf8First b
  | some s, b =>
      if s.lower ≤ b ∧ b ≤ s.upper then
        if s.needed = 1 then ([Char.ofNat (s.acc * 64 + (b - 0x80))], none)
        else ([], some ⟨s.acc * 64 + (b - 0x80), s.needed - 1, 0x80, 0xbf⟩)
      else (replacement :: (utf8First b).1, (utf8First b).2)

def decodeUtf8From : Option Utf8State → List UInt8 → Text
  | none, [] => []
  | some _, [] => [replacement]
  | state, b :: bs => (utf8Step state b.toNat).1 ++ decodeUtf8From (utf8Step state b.toNat).2 bs

/-- `raw.decode("utf-8", errors="replace")`. -/
def decodeUtf8 (raw : List UInt8) : Text := decodeUtf8From none raw

example : decodeUtf8 [0x41, 0xc3, 0xa9, 0xe2, 0x82, 0x41, 0xff] = ['A', 'é', replacement, 'A', replacement] := by
  decide

end PyText
