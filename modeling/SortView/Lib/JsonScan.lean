import SortView.Lib.DecimalText

/-!
# JSON texts: tokens

The numbers, the words and the quoted texts of a JSON text as Python's `json` module scans them: what each scan finds and leaves,
and that a token is found again wherever a delimiter follows it.
-/

namespace JsonText

open PyText

/-- `NaN` and the infinities, which Python's module also writes and reads. -/
inductive Constant where
  | nan
  | infinity
  | negativeInfinity
  deriving DecidableEq

/-- A JSON value with finite floats of the type `φ`; an object is its items in order. -/
inductive JsonValue (φ : Type) where
  | null
  | bool (value : Bool)
  | int (value : Int)
  | float (value : φ)
  | constant (value : Constant)
  | text (value : Text)
  | array (items : List (JsonValue φ))
  | object (items : List (Text × JsonValue φ))

/-! ### White space and delimiters -/

/-- `[ \t\n\r]`. -/
def isWhitespace (c : Char) : Bool := c = ' ' || c = '\t' || c = '\n' || c = '\r'

def skipWhitespace (text : Text) : Text := text.dropWhile isWhitespace

/-- What may follow a value inside a list or an object. -/
def isDelimiter (c : Char) : Bool := isWhitespace c || c = ',' || c = ']' || c = '\x7d'

/-- A text that does not go on with the token before it. -/
def Ends (rest : Text) : Prop := ∀ c ∈ rest.head?, isDelimiter c = true

theorem Ends.nil : Ends [] := fun _ h => nomatch h

theorem ends_cons {c : Char} {rest : Text} : Ends (c :: rest) ↔ isDelimiter c = true :=
  ⟨fun h => h c rfl, fun h _ hd => Option.some.inj hd ▸ h⟩

theorem not_isDigit_of_isDelimiter {c : Char} (h : isDelimiter c = true) : c.isDigit = false := by
  simp only [isDelimiter, isWhitespace, Bool.or_eq_true, decide_eq_true_eq] at h
  rcases h with (((((rfl | rfl) | rfl) | rfl) | rfl) | rfl) | rfl <;> rfl

theorem Ends.not_isDigit {rest : Text} (h : Ends rest) : ∀ c ∈ rest.head?, c.isDigit = false :=
  fun c hc => not_isDigit_of_isDelimiter (h c hc)

/-! ### Numbers -/

/-- `0|[1-9][0-9]*`. -/
def scanWhole : Text → Option (Text × Text)
  | [] => none
  | c :: text =>
      if c = '0' then some (['0'], text)
      else if c.isDigit then some ((c :: text).takeWhile Char.isDigit, (c :: text).dropWhile Char.isDigit)
      else none

/-- `(\.[0-9]+)?`. -/
def scanFraction : Text → Text × Text
  | [] => ([], [])
  | c :: text =>
      if c = '.' ∧ text.takeWhile Char.isDigit ≠ [] then (c :: text.takeWhile Char.isDigit, text.dropWhile Char.isDigit)
      else ([], c :: text)

/-- `[-+]?`. -/
def scanSign : Text → Text × Text
  | [] => ([], [])
  | c :: text => if c = '-' ∨ c = '+' then ([c], text) else ([], c :: text)

/-- `([eE][-+]?[0-9]+)?`. -/
def scanExponent : Text → Text × Text
  | [] => ([], [])
  | c :: text =>
      if (c = 'e' ∨ c = 'E') ∧ (scanSign text).2.takeWhile Char.isDigit ≠ [] then
        (c :: ((scanSign text).1 ++ (scanSign text).2.takeWhile Char.isDigit), (scanSign text).2.dropWhile Char.isDigit)
      else ([], c :: text)

/-- `-?`. -/
def scanMinus : Text → Text × Text
  | [] => ([], [])
  | c :: text => if c = '-' then (['-'], text) else ([], c :: text)

/-- The parts of a number. -/
structure Number where
  minus : Text
  whole : Text
  fraction : Text
  exponent : Text

def Number.written (number : Number) : Text := number.minus ++ (number.whole ++ (number.fraction ++ number.exponent))

/-- The longest number at the start of a text, and what follows it. -/
def scanNumber (text : Text) : Option (Number × Text) := do
  let (whole, rest) ← scanWhole (scanMinus text).2
  return (⟨(scanMinus text).1, whole, (scanFraction rest).1, (scanExponent (scanFraction rest).2).1⟩,
    (scanExponent (scanFraction rest).2).2)

def Digits (text : Text) : Prop := text ≠ [] ∧ ∀ c ∈ text, c.isDigit = true

/-- What a number is made of. -/
structure Number.Valid (number : Number) : Prop where
  minus : number.minus = [] ∨ number.minus = ['-']
  whole : Digits number.whole ∧ NoLeadingZero number.whole
  fraction : number.fraction = [] ∨ ∃ digits, Digits digits ∧ number.fraction = '.' :: digits
  exponent : number.exponent = []
    ∨ ∃ e sign digits, (e = 'e' ∨ e = 'E') ∧ (sign = [] ∨ sign = ['-'] ∨ sign = ['+']) ∧ Digits digits
      ∧ number.exponent = e :: (sign ++ digits)

theorem Digits.scan {digits rest : Text} (h : Digits digits) (hrest : ∀ c ∈ rest.head?, c.isDigit = false) :
    (digits ++ rest).takeWhile Char.isDigit = digits ∧ (digits ++ rest).dropWhile Char.isDigit = rest :=
  takeWhile_digits h.2 hrest

theorem scanWhole_append {whole rest : Text} (hwhole : Digits whole) (hzero : NoLeadingZero whole)
    (hrest : ∀ c ∈ rest.head?, c.isDigit = false) : scanWhole (whole ++ rest) = some (whole, rest) := by
  rcases hzero with rfl | hhead
  · rfl
  · obtain ⟨htake, hdrop⟩ := hwhole.scan hrest
    cases whole with
    | nil => exact absurd rfl hwhole.1
    | cons c digits =>
        have hc : c ≠ '0' := fun h => hhead (congrArg some h)
        rw [List.cons_append] at htake hdrop ⊢
        rw [scanWhole, if_neg hc, if_pos (hwhole.2 c (List.mem_cons_self ..)), htake, hdrop]

theorem scanFraction_of_head {rest : Text} (h : ∀ c ∈ rest.head?, c ≠ '.') : scanFraction rest = ([], rest) := by
  cases rest with
  | nil => rfl
  | cons c rest => exact if_neg fun hdot => h c rfl hdot.1

theorem scanFraction_append {digits rest : Text} (hdigits : Digits digits) (hrest : ∀ c ∈ rest.head?, c.isDigit = false) :
    scanFraction ('.' :: (digits ++ rest)) = ('.' :: digits, rest) := by
  obtain ⟨htake, hdrop⟩ := hdigits.scan hrest
  rw [scanFraction, htake, hdrop]
  exact if_pos ⟨rfl, hdigits.1⟩

theorem scanExponent_of_head {rest : Text} (h : ∀ c ∈ rest.head?, c ≠ 'e' ∧ c ≠ 'E') : scanExponent rest = ([], rest) := by
  cases rest with
  | nil => rfl
  | cons c rest => exact if_neg fun hmark => hmark.1.elim (h c rfl).1 (h c rfl).2

theorem scanSign_append {sign digits rest : Text} (hsign : sign = [] ∨ sign = ['-'] ∨ sign = ['+']) (hdigits : Digits digits) :
    scanSign (sign ++ (digits ++ rest)) = (sign, digits ++ rest) := by
  rcases hsign with rfl | rfl | rfl
  · cases digits with
    | nil => exact absurd rfl hdigits.1
    | cons c digits =>
        have hc := hdigits.2 c (List.mem_cons_self ..)
        refine if_neg ?_
        rintro (rfl | rfl) <;> cases hc
  · rfl
  · rfl

theorem scanExponent_append {e : Char} {sign digits rest : Text} (he : e = 'e' ∨ e = 'E')
    (hsign : sign = [] ∨ sign = ['-'] ∨ sign = ['+']) (hdigits : Digits digits) (hrest : ∀ c ∈ rest.head?, c.isDigit = false) :
    scanExponent (e :: (sign ++ (digits ++ rest))) = (e :: (sign ++ digits), rest) := by
  obtain ⟨htake, hdrop⟩ := hdigits.scan hrest
  rw [scanExponent, scanSign_append hsign hdigits]
  dsimp only
  rw [htake, hdrop]
  exact if_pos ⟨he, hdigits.1⟩

theorem Ends.not_dot {rest : Text} (h : Ends rest) : ∀ c ∈ rest.head?, c ≠ '.' ∧ c ≠ 'e' ∧ c ≠ 'E' := by
  intro c hc
  have hdelimiter := h c hc
  refine ⟨?_, ?_, ?_⟩ <;> rintro rfl <;> cases hdelimiter

/-- A number before a delimiter is found, and nothing of what follows. -/
theorem scanNumber_append {number : Number} (hvalid : number.Valid) {rest : Text} (hrest : Ends rest) :
    scanNumber (number.written ++ rest) = some (number, rest) := by
  obtain ⟨minus, whole, fraction, exponent⟩ := number
  obtain ⟨hminus, ⟨hwhole, hzero⟩, hfraction, hexponent⟩ := hvalid
  dsimp only at hminus hwhole hzero hfraction hexponent
  have hexponentScan : scanExponent (exponent ++ rest) = (exponent, rest) := by
    rcases hexponent with rfl | ⟨e, sign, digits, he, hsign, hdigits, rfl⟩
    · exact scanExponent_of_head fun c hc => (hrest.not_dot c hc).2
    · rw [List.cons_append, List.append_assoc]
      exact scanExponent_append he hsign hdigits hrest.not_isDigit
  have hexponentHead : ∀ c ∈ (exponent ++ rest).head?, c.isDigit = false ∧ c ≠ '.' := by
    rcases hexponent with rfl | ⟨e, sign, digits, he, -, -, rfl⟩
    · exact fun c hc => ⟨hrest.not_isDigit c hc, (hrest.not_dot c hc).1⟩
    · intro c hc
      obtain rfl := Option.some.inj hc
      rcases he with rfl | rfl <;> exact ⟨rfl, by decide⟩
  have hfractionScan : scanFraction (fraction ++ (exponent ++ rest)) = (fraction, exponent ++ rest) := by
    rcases hfraction with rfl | ⟨digits, hdigits, rfl⟩
    · exact scanFraction_of_head fun c hc => (hexponentHead c hc).2
    · exact scanFraction_append hdigits fun c hc => (hexponentHead c hc).1
  have hfractionHead : ∀ c ∈ (fraction ++ (exponent ++ rest)).head?, c.isDigit = false := by
    rcases hfraction with rfl | ⟨digits, -, rfl⟩
    · exact fun c hc => (hexponentHead c hc).1
    · intro c hc
      obtain rfl := Option.some.inj hc
      rfl
  have hminusScan : scanMinus (minus ++ (whole ++ (fraction ++ (exponent ++ rest))))
      = (minus, whole ++ (fraction ++ (exponent ++ rest))) := by
    rcases hminus with rfl | rfl
    · cases whole with
      | nil => exact absurd rfl hwhole.1
      | cons c digits =>
          have hc := hwhole.2 c (List.mem_cons_self ..)
          refine if_neg ?_
          rintro rfl
          cases hc
    · rfl
  have hwritten : Number.written ⟨minus, whole, fraction, exponent⟩ ++ rest
      = minus ++ (whole ++ (fraction ++ (exponent ++ rest))) := by
    simp only [Number.written, List.append_assoc]
  rw [hwritten, scanNumber, hminusScan]
  dsimp only
  rw [scanWhole_append hwhole hzero hfractionHead]
  simp only [Option.bind_eq_bind, Option.bind_some, hfractionScan, hexponentScan]
  rfl

theorem digits_takeWhile (text : Text) (h : text.takeWhile Char.isDigit ≠ []) : Digits (text.takeWhile Char.isDigit) :=
  ⟨h, fun _ hc => List.mem_takeWhile_imp hc⟩

/-- What is found of a number is one, and stands at the start of the text. -/
theorem scanNumber_sound {text rest : Text} {number : Number} (h : scanNumber text = some (number, rest)) :
    number.Valid ∧ text = number.written ++ rest := by
  rw [scanNumber] at h
  obtain ⟨⟨whole, after⟩, hwhole, h⟩ := Option.bind_eq_some_iff.1 h
  obtain ⟨rfl, rfl⟩ : _ ∧ _ := Prod.mk.inj (Option.some.inj h)
  have hminus : ((scanMinus text).1 = [] ∨ (scanMinus text).1 = ['-']) ∧ text = (scanMinus text).1 ++ (scanMinus text).2 := by
    cases text with
    | nil => exact ⟨Or.inl rfl, rfl⟩
    | cons c text =>
        rw [scanMinus]
        split
        · next hc => exact ⟨Or.inr rfl, hc ▸ rfl⟩
        · exact ⟨Or.inl rfl, rfl⟩
  have hparts : (Digits whole ∧ NoLeadingZero whole) ∧ (scanMinus text).2 = whole ++ after := by
    generalize (scanMinus text).2 = body at hwhole
    cases body with
    | nil => cases hwhole
    | cons c body =>
        rw [scanWhole] at hwhole
        split at hwhole
        · next hc =>
          cases hwhole
          refine ⟨⟨⟨List.cons_ne_nil _ _, ?_⟩, Or.inl rfl⟩, hc ▸ rfl⟩
          intro d hd
          rw [List.mem_singleton.1 hd]
          rfl
        · next hc =>
          split at hwhole
          · next hdigit =>
            cases hwhole
            have htake : (c :: body).takeWhile Char.isDigit = c :: body.takeWhile Char.isDigit := List.takeWhile_cons_of_pos hdigit
            refine ⟨⟨digits_takeWhile _ ?_, Or.inr ?_⟩, (List.takeWhile_append_dropWhile).symm⟩
            · rw [htake]
              exact List.cons_ne_nil _ _
            · rw [htake]
              exact fun h => hc (Option.some.inj h)
          · cases hwhole
  have hfraction : ((scanFraction after).1 = [] ∨ ∃ digits, Digits digits ∧ (scanFraction after).1 = '.' :: digits)
      ∧ after = (scanFraction after).1 ++ (scanFraction after).2 := by
    cases after with
    | nil => exact ⟨Or.inl rfl, rfl⟩
    | cons c after =>
        rw [scanFraction]
        split
        · next hdot =>
          refine ⟨Or.inr ⟨_, digits_takeWhile after hdot.2, by rw [hdot.1]⟩, ?_⟩
          rw [List.cons_append, List.takeWhile_append_dropWhile]
        · exact ⟨Or.inl rfl, rfl⟩
  generalize (scanFraction after).2 = later at *
  have hexponent : ((scanExponent later).1 = [] ∨ ∃ e sign digits, (e = 'e' ∨ e = 'E') ∧ (sign = [] ∨ sign = ['-'] ∨ sign = ['+'])
      ∧ Digits digits ∧ (scanExponent later).1 = e :: (sign ++ digits)) ∧ later = (scanExponent later).1 ++ (scanExponent later).2 := by
    cases later with
    | nil => exact ⟨Or.inl rfl, rfl⟩
    | cons c later =>
        have hsign : ((scanSign later).1 = [] ∨ (scanSign later).1 = ['-'] ∨ (scanSign later).1 = ['+'])
            ∧ later = (scanSign later).1 ++ (scanSign later).2 := by
          cases later with
          | nil => exact ⟨Or.inl rfl, rfl⟩
          | cons d later =>
              rw [scanSign]
              split
              · next hd => exact ⟨Or.inr (hd.imp (fun h => by rw [h]) (fun h => by rw [h])), rfl⟩
              · exact ⟨Or.inl rfl, rfl⟩
        rw [scanExponent]
        split
        · next hmark =>
          refine ⟨Or.inr ⟨c, _, _, hmark.1, hsign.1, digits_takeWhile _ hmark.2, rfl⟩, ?_⟩
          rw [List.cons_append, List.append_assoc, List.takeWhile_append_dropWhile, ← hsign.2]
        · exact ⟨Or.inl rfl, rfl⟩
  refine ⟨⟨hminus.1, hparts.1, hfraction.1, hexponent.1⟩, ?_⟩
  simp only [Number.written, List.append_assoc]
  rw [← hexponent.2, ← hfraction.2, ← hparts.2, ← hminus.2]

/-! ### Quoted texts -/

def hexDigits (code : Nat) : Text :=
  [Nat.digitChar (code / 4096 % 16), Nat.digitChar (code / 256 % 16), Nat.digitChar (code / 16 % 16), Nat.digitChar (code % 16)]

/-- `\uXXXX`. -/
def unicodeEscape (code : Nat) : Text := '\\' :: 'u' :: hexDigits code

/-- The escapes of one letter. -/
def shortEscapes : List (Char × Char) :=
  [('"', '"'), ('\\', '\\'), ('\n', 'n'), ('\r', 'r'), ('\t', 't'), (Char.ofNat 8, 'b'), (Char.ofNat 12, 'f')]

/-- `ESCAPE_ASCII`: one character of a text; above the first plane as two surrogates. -/
def escapeChar (c : Char) : Text :=
  match shortEscapes.lookup c with
  | some letter => ['\\', letter]
  | none =>
      if 32 ≤ c.toNat ∧ c.toNat < 127 then [c]
      else if c.toNat < 65536 then unicodeEscape c.toNat
      else unicodeEscape (55296 + (c.toNat - 65536) / 1024) ++ unicodeEscape (56320 + (c.toNat - 65536) % 1024)

/-- `encode_basestring_ascii`. -/
def quoted (value : Text) : Text := '"' :: (value.flatMap escapeChar ++ ['"'])

/-- What stands before the closing quote, and what follows that. -/
def scanBody : Text → Option (Text × Text)
  | [] => none
  | c :: text =>
      if c = '"' then some ([], text)
      else if c = '\\' then
        match text with
        | [] => none
        | d :: text => (scanBody text).map fun scanned => (c :: d :: scanned.1, scanned.2)
      else (scanBody text).map fun scanned => (c :: scanned.1, scanned.2)

def hexDigitValue (c : Char) : Option Nat :=
  if c.isDigit then some (c.toNat - 48)
  else if 97 ≤ c.toNat ∧ c.toNat ≤ 102 then some (c.toNat - 87)
  else if 65 ≤ c.toNat ∧ c.toNat ≤ 70 then some (c.toNat - 55)
  else none

/-- Four hexadecimal digits. -/
def readHex : Text → Option (Nat × Text)
  | a :: b :: c :: d :: rest => do
      let a ← hexDigitValue a
      let b ← hexDigitValue b
      let c ← hexDigitValue c
      let d ← hexDigitValue d
      return (a * 4096 + b * 256 + c * 16 + d, rest)
  | _ => none

/-- U+FFFD stands for a surrogate alone, which is no character here. -/
def charOfCode (code : Nat) : Char := if 0xd800 ≤ code ∧ code ≤ 0xdfff then Char.ofNat 0xfffd else Char.ofNat code

/-- What follows `\u`, where it is next. -/
def afterUnicodeMark : Text → Option Text
  | c :: d :: more => if c = '\\' ∧ d = 'u' then some more else none
  | _ => none

/-- What follows `\u`: a code, or two surrogates. -/
def readUnicode (text : Text) : Option (Char × Text) := do
  let (code, rest) ← readHex text
  if 0xd800 ≤ code ∧ code ≤ 0xdbff then
    match afterUnicodeMark rest with
    | some more =>
        let (low, after) ← readHex more
        if 0xdc00 ≤ low ∧ low ≤ 0xdfff then return (Char.ofNat (65536 + (code - 0xd800) * 1024 + (low - 0xdc00)), after)
        else return (charOfCode code, rest)
    | none => return (charOfCode code, rest)
  else return (charOfCode code, rest)

/-- What follows a backslash. -/
def readEscape : Text → Option (Char × Text)
  | [] => none
  | c :: rest =>
      if c = 'u' then readUnicode rest
      else if c = '/' then some ('/', rest)
      else ((shortEscapes.find? fun escape => escape.2 = c).map fun escape => (escape.1, rest))

/-- The text of a body, in as many steps at most; a control character is an error. -/
def unescape : Nat → Text → Option Text
  | _, [] => some []
  | 0, _ :: _ => none
  | steps + 1, c :: text =>
      if c = '\\' then do
        let (d, rest) ← readEscape text
        let value ← unescape steps rest
        return d :: value
      else if c.toNat < 32 then none
      else do
        let value ← unescape steps text
        return c :: value

/-- `scanstring`, after the opening quote. -/
def scanString (text : Text) : Option (Text × Text) := do
  let (body, rest) ← scanBody text
  let value ← unescape body.length body
  return (value, rest)

/-- What follows a quoted text is not looked at. -/
theorem scanBody_append {more : Text} : ∀ {text : Text} {body rest : Text}, scanBody text = some (body, rest) →
    scanBody (text ++ more) = some (body, rest ++ more)
  | [], _, _, h => nomatch h
  | c :: text, body, rest, h => by
      rw [List.cons_append, scanBody.eq_def]
      rw [scanBody.eq_def] at h
      dsimp only at h ⊢
      split at h
      · next hc =>
        cases h
        exact if_pos hc
      · next hc =>
        rw [if_neg hc]
        split at h
        · next hslash =>
          rw [if_pos hslash]
          cases text with
          | nil => cases h
          | cons d text =>
              obtain ⟨⟨inner, after⟩, hinner, heq⟩ := Option.map_eq_some_iff.1 h
              cases heq
              rw [List.cons_append]
              dsimp only
              rw [scanBody_append hinner]
              rfl
        · next hslash =>
          rw [if_neg hslash]
          obtain ⟨⟨inner, after⟩, hinner, heq⟩ := Option.map_eq_some_iff.1 h
          cases heq
          rw [scanBody_append hinner]
          rfl

theorem scanString_append {text value rest : Text} (h : scanString text = some (value, rest)) (more : Text) :
    scanString (text ++ more) = some (value, rest ++ more) := by
  rw [scanString] at h ⊢
  obtain ⟨⟨body, after⟩, hbody, h⟩ := Option.bind_eq_some_iff.1 h
  obtain ⟨read, hread, h⟩ := Option.bind_eq_some_iff.1 h
  cases h
  rw [scanBody_append hbody]
  simp only [Option.bind_eq_bind, Option.bind_some, hread]
  rfl

/-! ### A quoted text is read back -/

theorem hexDigitValue_digitChar : ∀ digit < 16, hexDigitValue (Nat.digitChar digit) = some digit := by decide

theorem readHex_digits {code : Nat} (hcode : code < 65536) (rest : Text) :
    readHex (hexDigits code ++ rest) = some (code, rest) := by
  have hdigit : ∀ n, hexDigitValue (Nat.digitChar (n % 16)) = some (n % 16) := fun n =>
    hexDigitValue_digitChar _ (Nat.mod_lt _ (by decide))
  have hvalue : code / 4096 % 16 * 4096 + code / 256 % 16 * 256 + code / 16 % 16 * 16 + code % 16 = code := by omega
  rw [hexDigits, List.cons_append, List.cons_append, List.cons_append, List.cons_append, List.nil_append, readHex, hdigit, hdigit,
    hdigit, hdigit]
  exact congrArg (fun code => some (code, rest)) hvalue

theorem charOfCode_toNat (c : Char) : charOfCode c.toNat = c := by
  have hvalid : c.toNat < 0xd800 ∨ 0xdfff < c.toNat ∧ c.toNat < 0x110000 := c.valid
  rw [charOfCode, if_neg (by omega), Char.ofNat_toNat]

theorem readEscape_unicode {c : Char} (hc : c.toNat < 65536) (rest : Text) :
    readEscape ('u' :: (hexDigits c.toNat ++ rest)) = some (c, rest) := by
  have hvalid : c.toNat < 0xd800 ∨ 0xdfff < c.toNat ∧ c.toNat < 0x110000 := c.valid
  have hread := readHex_digits hc rest
  show readUnicode (hexDigits c.toNat ++ rest) = _
  rw [readUnicode, hread]
  simp only [Option.bind_eq_bind, Option.bind_some]
  rw [if_neg (by omega), charOfCode_toNat]
  rfl

theorem readUnicode_surrogates {high low : Nat} (hhigh : 0xd800 ≤ high ∧ high ≤ 0xdbff) (hlow : 0xdc00 ≤ low ∧ low ≤ 0xdfff)
    (rest : Text) : readUnicode (hexDigits high ++ (unicodeEscape low ++ rest))
      = some (Char.ofNat (65536 + (high - 0xd800) * 1024 + (low - 0xdc00)), rest) := by
  have hfirst := readHex_digits (Nat.lt_of_le_of_lt hhigh.2 (by decide)) (unicodeEscape low ++ rest)
  have hsecond := readHex_digits (Nat.lt_of_le_of_lt hlow.2 (by decide)) rest
  have hmark : afterUnicodeMark (unicodeEscape low ++ rest) = some (hexDigits low ++ rest) := by
    rw [unicodeEscape, List.cons_append, List.cons_append, afterUnicodeMark]
    exact if_pos ⟨rfl, rfl⟩
  rw [readUnicode, hfirst]
  simp only [Option.bind_eq_bind, Option.bind_some]
  rw [if_pos hhigh, hmark]
  dsimp only
  rw [hsecond]
  simp only [Option.bind_some]
  rw [if_pos hlow]
  rfl

theorem readEscape_surrogates {c : Char} (hc : 65536 ≤ c.toNat) (rest : Text) :
    readEscape ('u' :: (hexDigits (55296 + (c.toNat - 65536) / 1024)
      ++ (unicodeEscape (56320 + (c.toNat - 65536) % 1024) ++ rest))) = some (c, rest) := by
  have hvalid : c.toNat < 0xd800 ∨ 0xdfff < c.toNat ∧ c.toNat < 0x110000 := c.valid
  have hfirst : 0xd800 ≤ 55296 + (c.toNat - 65536) / 1024 ∧ 55296 + (c.toNat - 65536) / 1024 ≤ 0xdbff := by omega
  have hsecond : 0xdc00 ≤ 56320 + (c.toNat - 65536) % 1024 ∧ 56320 + (c.toNat - 65536) % 1024 ≤ 0xdfff := by omega
  have hcode : 65536 + (55296 + (c.toNat - 65536) / 1024 - 0xd800) * 1024 + (56320 + (c.toNat - 65536) % 1024 - 0xdc00)
      = c.toNat := by omega
  rw [readEscape, if_pos rfl, readUnicode_surrogates hfirst hsecond, hcode, Char.ofNat_toNat]

theorem readEscape_short {c letter : Char} (h : shortEscapes.lookup c = some letter) (rest : Text) :
    readEscape (letter :: rest) = some (c, rest) := by
  have hall : ∀ escape ∈ shortEscapes, readEscape (escape.2 :: rest) = some (escape.1, rest) := by
    intro escape hescape
    simp only [shortEscapes, List.mem_cons, List.not_mem_nil, or_false] at hescape
    rcases hescape with rfl | rfl | rfl | rfl | rfl | rfl | rfl <;> rfl
  have hmem : (c, letter) ∈ shortEscapes := by
    obtain ⟨before, after, hsplit, -⟩ := List.lookup_eq_some_iff.1 h
    rw [hsplit]
    simp
  exact hall _ hmem

/-- Every escape is a character of its own, or a backslash and what is read after it. -/
theorem escapeChar_cases (c : Char) :
    (escapeChar c = [c] ∧ c ≠ '"' ∧ c ≠ '\\' ∧ 32 ≤ c.toNat)
      ∨ ∃ d escaped, escapeChar c = '\\' :: d :: escaped ∧ ∀ rest, readEscape (d :: (escaped ++ rest)) = some (c, rest) := by
  rw [escapeChar]
  cases hlookup : shortEscapes.lookup c with
  | some letter => exact Or.inr ⟨letter, [], rfl, fun rest => readEscape_short hlookup rest⟩
  | none =>
      dsimp only
      split
      · next hprintable =>
        refine Or.inl ⟨rfl, ?_, ?_, hprintable.1⟩ <;> rintro rfl <;> cases hlookup
      · split
        · next hplane => exact Or.inr ⟨_, _, rfl, fun rest => readEscape_unicode hplane rest⟩
        · next hplane =>
          refine Or.inr ⟨_, _, rfl, fun rest => ?_⟩
          have hread := readEscape_surrogates (Nat.not_lt.1 hplane) rest
          rw [← List.append_assoc] at hread
          exact hread

theorem unescape_escapeChar (c : Char) (steps : Nat) (text : Text) :
    unescape (steps + 1) (escapeChar c ++ text) = (unescape steps text).map (c :: ·) := by
  rcases escapeChar_cases c with ⟨hescape, -, hslash, hcontrol⟩ | ⟨d, escaped, hescape, hread⟩
  · rw [hescape, List.cons_append, List.nil_append, unescape, if_neg hslash, if_neg (Nat.not_lt.2 hcontrol)]
    cases unescape steps text <;> rfl
  · rw [hescape, List.cons_append, List.cons_append, unescape, if_pos rfl, hread]
    simp only [Option.bind_eq_bind, Option.bind_some]
    cases unescape steps text <;> rfl

theorem unescape_flatMap : ∀ (value : Text) (steps : Nat), value.length ≤ steps →
    unescape steps (value.flatMap escapeChar) = some value
  | [], steps, _ => by
      cases steps <;> rfl
  | c :: value, 0, h => absurd h (Nat.not_succ_le_zero _)
  | c :: value, steps + 1, h => by
      rw [List.flatMap_cons, unescape_escapeChar, unescape_flatMap value steps (Nat.le_of_succ_le_succ h)]
      rfl

theorem scanBody_escapeChar (c : Char) (text : Text) :
    scanBody (escapeChar c ++ text) = (scanBody text).map fun scanned => (escapeChar c ++ scanned.1, scanned.2) := by
  have hplain : ∀ {d : Char}, d ≠ '"' → d ≠ '\\' → ∀ text,
      scanBody (d :: text) = (scanBody text).map fun scanned => (d :: scanned.1, scanned.2) := by
    intro d hquote hslash text
    rw [scanBody.eq_def]
    dsimp only
    rw [if_neg hquote, if_neg hslash]
  have hpair : ∀ (d : Char) (text : Text),
      scanBody ('\\' :: d :: text) = (scanBody text).map fun scanned => ('\\' :: d :: scanned.1, scanned.2) := fun _ _ => rfl
  have hhex : ∀ n, Nat.digitChar (n % 16) ≠ '"' ∧ Nat.digitChar (n % 16) ≠ '\\' := by
    have hall : ∀ digit < 16, Nat.digitChar digit ≠ '"' ∧ Nat.digitChar digit ≠ '\\' := by decide
    exact fun n => hall _ (Nat.mod_lt _ (by decide))
  have hunicode : ∀ (code : Nat) (text : Text), scanBody (unicodeEscape code ++ text)
      = (scanBody text).map fun scanned => (unicodeEscape code ++ scanned.1, scanned.2) := by
    intro code text
    rw [unicodeEscape, hexDigits]
    simp only [List.cons_append, List.nil_append]
    rw [hpair, hplain (hhex _).1 (hhex _).2, hplain (hhex _).1 (hhex _).2, hplain (hhex _).1 (hhex _).2,
      hplain (hhex _).1 (hhex _).2]
    cases scanBody text <;> rfl
  rw [escapeChar]
  cases hlookup : shortEscapes.lookup c with
  | some letter => exact hpair letter text
  | none =>
      dsimp only
      split
      · refine hplain ?_ ?_ text <;> rintro rfl <;> cases hlookup
      · split
        · exact hunicode _ text
        · rw [List.append_assoc, hunicode, hunicode]
          cases scanBody text with
          | none => rfl
          | some scanned => simp only [Option.map_some, List.append_assoc]

theorem scanBody_flatMap (rest : Text) : ∀ value : Text,
    scanBody (value.flatMap escapeChar ++ '"' :: rest) = some (value.flatMap escapeChar, rest)
  | [] => by
      rw [List.flatMap_nil, List.nil_append, scanBody.eq_def]
      exact if_pos rfl
  | c :: value => by
      rw [List.flatMap_cons, List.append_assoc, scanBody_escapeChar, scanBody_flatMap rest value]
      rfl

theorem length_le_flatMap_escapeChar (value : Text) : value.length ≤ (value.flatMap escapeChar).length := by
  induction value with
  | nil => exact Nat.le_refl _
  | cons c value ih =>
      have hone : 1 ≤ (escapeChar c).length := by
        rcases escapeChar_cases c with ⟨hescape, -⟩ | ⟨d, escaped, hescape, -⟩ <;> rw [hescape] <;>
          exact Nat.succ_le_succ (Nat.zero_le _)
      rw [List.flatMap_cons, List.length_append, List.length_cons]
      omega

/-- A quoted text is read back, and nothing of what follows. -/
theorem scanString_quoted (value rest : Text) : scanString ((quoted value).tail ++ rest) = some (value, rest) := by
  have htail : (quoted value).tail ++ rest = value.flatMap escapeChar ++ '"' :: rest := by
    rw [quoted, List.tail_cons, List.append_assoc]
    rfl
  rw [htail, scanString, scanBody_flatMap]
  simp only [Option.bind_eq_bind, Option.bind_some]
  rw [unescape_flatMap value _ (length_le_flatMap_escapeChar value)]
  rfl

end JsonText
