import SortView.Lib.JsonScan

/-!
# JSON texts

`json.dumps` in its default form and `json.loads`: a value is read back from its text, its text is printable ASCII, and no text of
an object goes on from the text of another value.
-/

namespace JsonText

open PyText

variable {φ : Type}

/-! ### Writing and reading -/

/-- How floats are written and read: as numbers with a fraction or an exponent, each read back as itself. -/
structure FloatText (φ : Type) where
  repr : φ → Number
  read : Number → φ
  valid : ∀ x, (repr x).Valid
  real : ∀ x, (repr x).fraction ≠ [] ∨ (repr x).exponent ≠ []
  read_repr : ∀ x, read (repr x) = x

variable (floats : FloatText φ)

/-- The words of a JSON text, and the values that they are. -/
def words : List (Text × JsonValue φ) :=
  [("null".toList, .null), ("true".toList, .bool true), ("false".toList, .bool false), ("NaN".toList, .constant .nan),
    ("Infinity".toList, .constant .infinity), ("-Infinity".toList, .constant .negativeInfinity)]

def Constant.written : Constant → Text
  | .nan => "NaN".toList
  | .infinity => "Infinity".toList
  | .negativeInfinity => "-Infinity".toList

def intNumber (value : Int) : Number := ⟨if value < 0 then ['-'] else [], decimal value.natAbs, [], []⟩

/-- What stands before an item of a list or an object. -/
def separator (first : Bool) : Text := if first then [] else [',', ' ']

mutual

/-- `json.dumps`. -/
def dumps : JsonValue φ → Text
  | .null => "null".toList
  | .bool true => "true".toList
  | .bool false => "false".toList
  | .int value => (intNumber value).written
  | .float value => (floats.repr value).written
  | .constant value => value.written
  | .text value => quoted value
  | .array items => '[' :: (dumpsItems true items ++ [']'])
  | .object items => '\x7b' :: (dumpsMembers true items ++ ['\x7d'])

def dumpsItems (first : Bool) : List (JsonValue φ) → Text
  | [] => []
  | value :: items => separator first ++ (dumps value ++ dumpsItems false items)

def dumpsMembers (first : Bool) : List (Text × JsonValue φ) → Text
  | [] => []
  | (key, value) :: items => separator first ++ (quoted key ++ ([':', ' '] ++ (dumps value ++ dumpsMembers false items)))

end

/-- `parse_int` or `parse_float`. -/
def numberValue (number : Number) : JsonValue φ :=
  if number.fraction = [] ∧ number.exponent = [] then
    .int (if number.minus = [] then (Nat.ofDigitChars 10 number.whole 0 : Nat) else -(Nat.ofDigitChars 10 number.whole 0 : Nat))
  else .float (floats.read number)

/-- A number or a word. -/
def scanScalar (text : Text) : Option (JsonValue φ × Text) :=
  match scanNumber text with
  | some (number, rest) => some (numberValue floats number, rest)
  | none => words.findSome? fun word => if word.1.isPrefixOf text then some (word.2, text.drop word.1.length) else none

/-- The first character after white space, and what follows it. -/
def mark (text : Text) : Option (Char × Text) :=
  match skipWhitespace text with
  | [] => none
  | c :: rest => some (c, rest)

/-- The key of an object's item, and the text from its value on. -/
def scanKey : Text → Option (Text × Text)
  | [] => none
  | c :: text =>
      if c = '"' then do
        let (key, rest) ← scanString text
        let (d, after) ← mark rest
        if d = ':' then return (key, skipWhitespace after) else none
      else none

/-- `d[key] = value`. -/
def setKey (key : Text) (value : JsonValue φ) : List (Text × JsonValue φ) → List (Text × JsonValue φ)
  | [] => [(key, value)]
  | item :: items => if item.1 = key then (key, value) :: items else item :: setKey key value items

/-- `dict(pairs)`. -/
def dictOf (pairs : List (Text × JsonValue φ)) : List (Text × JsonValue φ) :=
  pairs.foldl (fun items pair => setKey pair.1 pair.2 items) []

mutual

/-- `scan_once`, in as many steps at most. -/
def scanValue : Nat → Text → Option (JsonValue φ × Text)
  | 0, _ => none
  | _ + 1, [] => none
  | steps + 1, c :: text =>
      if c = '"' then (scanString text).map fun scanned => (.text scanned.1, scanned.2)
      else if c = '\x7b' then
        if (skipWhitespace text).head? = some '\x7d' then some (.object [], (skipWhitespace text).tail)
        else (scanMembers steps (skipWhitespace text)).map fun scanned => (.object (dictOf scanned.1), scanned.2)
      else if c = '[' then
        if (skipWhitespace text).head? = some ']' then some (.array [], (skipWhitespace text).tail)
        else (scanItems steps (skipWhitespace text)).map fun scanned => (.array scanned.1, scanned.2)
      else scanScalar floats (c :: text)

/-- The items of a list, from the first one on. -/
def scanItems : Nat → Text → Option (List (JsonValue φ) × Text)
  | 0, _ => none
  | steps + 1, text => do
      let (value, rest) ← scanValue steps text
      let (c, after) ← mark rest
      if c = ']' then return ([value], after)
      else if c = ',' then
        let (values, last) ← scanItems steps (skipWhitespace after)
        return (value :: values, last)
      else none

/-- The items of an object, from the first key on. -/
def scanMembers : Nat → Text → Option (List (Text × JsonValue φ) × Text)
  | 0, _ => none
  | steps + 1, text => do
      let (key, held) ← scanKey text
      let (value, rest) ← scanValue steps held
      let (c, after) ← mark rest
      if c = '\x7d' then return ([(key, value)], after)
      else if c = ',' then
        let (items, last) ← scanMembers steps (skipWhitespace after)
        return ((key, value) :: items, last)
      else none

end

/-- `json.loads`. -/
def loads (text : Text) : Option (JsonValue φ) :=
  if text.head? = some (Char.ofNat 0xfeff) then none
  else
    match scanValue floats (text.length + 1) (skipWhitespace text) with
    | none => none
    | some (value, rest) => if skipWhitespace rest = [] then some value else none

/-! ### Values of a dictionary -/

mutual

/-- Every object has each key once. -/
def Keyed : JsonValue φ → Prop
  | .array items => KeyedItems items
  | .object items => (items.map Prod.fst).Nodup ∧ KeyedMembers items
  | _ => True

def KeyedItems : List (JsonValue φ) → Prop
  | [] => True
  | value :: items => Keyed value ∧ KeyedItems items

def KeyedMembers : List (Text × JsonValue φ) → Prop
  | [] => True
  | (_, value) :: items => Keyed value ∧ KeyedMembers items

end

theorem setKey_of_not_mem {key : Text} {value : JsonValue φ} : ∀ {items : List (Text × JsonValue φ)}, key ∉ items.map Prod.fst →
    setKey key value items = items ++ [(key, value)]
  | [], _ => rfl
  | item :: items, h => by
      rw [List.map_cons, List.mem_cons, not_or] at h
      rw [setKey, if_neg (Ne.symm h.1), setKey_of_not_mem h.2]
      rfl

theorem foldl_setKey {items : List (Text × JsonValue φ)} : ∀ {pairs : List (Text × JsonValue φ)},
    ((items ++ pairs).map Prod.fst).Nodup → pairs.foldl (fun items pair => setKey pair.1 pair.2 items) items = items ++ pairs
  | [], _ => (List.append_nil _).symm
  | pair :: pairs, h => by
      have hmem : pair.1 ∉ items.map Prod.fst := by
        intro hmem
        rw [List.map_append, List.nodup_append] at h
        exact h.2.2 _ hmem pair.1 (List.mem_cons_self ..) rfl
      have happend : items ++ pair :: pairs = (items ++ [pair]) ++ pairs := by rw [List.append_assoc, List.singleton_append]
      rw [happend] at h
      rw [List.foldl_cons, setKey_of_not_mem hmem, foldl_setKey h, happend]

/-- Pairs with each key once are the dictionary. -/
theorem dictOf_eq {pairs : List (Text × JsonValue φ)} (h : (pairs.map Prod.fst).Nodup) : dictOf pairs = pairs :=
  @foldl_setKey φ [] pairs h

/-! ### Scalars -/

theorem scanScalar_number {number : Number} (hvalid : number.Valid) {rest : Text} (hrest : Ends rest) :
    scanScalar floats (number.written ++ rest) = some (numberValue floats number, rest) := by
  rw [scanScalar, scanNumber_append hvalid hrest]

theorem scanScalar_word {word : Text × JsonValue φ} (hword : word ∈ words) (rest : Text) :
    scanScalar floats (word.1 ++ rest) = some (word.2, rest) := by
  simp only [words, List.mem_cons, List.not_mem_nil, or_false] at hword
  rcases hword with rfl | rfl | rfl | rfl | rfl | rfl <;> rfl

/-- A scalar is a number or a word. -/
theorem scanScalar_sound {text rest : Text} {value : JsonValue φ} (h : scanScalar floats text = some (value, rest)) :
    (∃ number : Number, number.Valid ∧ text = number.written ++ rest ∧ value = numberValue floats number)
      ∨ ∃ word ∈ words, text = word.1 ++ rest ∧ value = word.2 := by
  rw [scanScalar] at h
  split at h
  · next number after hnumber =>
    cases h
    obtain ⟨hvalid, htext⟩ := scanNumber_sound hnumber
    exact Or.inl ⟨number, hvalid, htext, rfl⟩
  · obtain ⟨word, hword, hfound⟩ := List.exists_of_findSome?_eq_some h
    split at hfound
    · next hprefix =>
      cases hfound
      obtain ⟨after, rfl⟩ := List.isPrefixOf_iff_prefix.1 hprefix
      exact Or.inr ⟨word, hword, by rw [List.drop_left], rfl⟩
    · cases hfound

theorem Ends.append {rest : Text} (hrest : Ends rest) (hne : rest ≠ []) (more : Text) : Ends (rest ++ more) := by
  cases rest with
  | nil => exact absurd rfl hne
  | cons c rest => exact ends_cons.2 (ends_cons.1 hrest)

theorem scanScalar_append {text rest : Text} {value : JsonValue φ} (h : scanScalar floats text = some (value, rest))
    (hne : rest ≠ []) (hrest : Ends rest) (more : Text) : scanScalar floats (text ++ more) = some (value, rest ++ more) := by
  rcases scanScalar_sound floats h with ⟨number, hvalid, rfl, rfl⟩ | ⟨word, hword, rfl, rfl⟩
  · rw [List.append_assoc]
    exact scanScalar_number floats hvalid (hrest.append hne more)
  · rw [List.append_assoc]
    exact scanScalar_word floats hword _

/-! ### What follows is not looked at -/

theorem skipWhitespace_append {text : Text} (h : skipWhitespace text ≠ []) (more : Text) :
    skipWhitespace (text ++ more) = skipWhitespace text ++ more := by
  induction text with
  | nil => exact absurd rfl h
  | cons c text ih =>
      rw [skipWhitespace] at h ⊢
      rw [List.cons_append, List.dropWhile_cons]
      rw [List.dropWhile_cons] at h
      split
      · next hc =>
        rw [if_pos hc] at h
        rw [skipWhitespace, List.dropWhile_cons, if_pos hc]
        exact ih h
      · next hc =>
        rw [skipWhitespace, List.dropWhile_cons, if_neg hc]
        rfl

theorem mark_eq_some {text rest : Text} {c : Char} (h : mark text = some (c, rest)) : skipWhitespace text = c :: rest := by
  rw [mark] at h
  split at h
  · cases h
  · next heq =>
    cases h
    exact heq

theorem mark_append {text rest : Text} {c : Char} (h : mark text = some (c, rest)) (more : Text) :
    mark (text ++ more) = some (c, rest ++ more) := by
  have hskip := mark_eq_some h
  have hmore := skipWhitespace_append (hskip ▸ List.cons_ne_nil _ _) more
  rw [mark, hmore, hskip]
  rfl

/-- A text with a delimiter after its white space ends a token. -/
theorem ends_of_mark {text rest : Text} {c : Char} (h : mark text = some (c, rest)) (hc : isDelimiter c = true) :
    text ≠ [] ∧ Ends text := by
  have hskip := mark_eq_some h
  cases text with
  | nil => cases hskip
  | cons d text =>
      refine ⟨List.cons_ne_nil _ _, ends_cons.2 ?_⟩
      rw [skipWhitespace, List.dropWhile_cons] at hskip
      split at hskip
      · next hd =>
        rw [isDelimiter, hd]
        rfl
      · cases hskip
        exact hc

theorem scanKey_append {text held key : Text} (h : scanKey text = some (key, held)) (hne : held ≠ []) (more : Text) :
    scanKey (text ++ more) = some (key, held ++ more) := by
  cases text with
  | nil => cases h
  | cons c text =>
      rw [scanKey] at h
      rw [List.cons_append, scanKey]
      split at h
      · next hc =>
        obtain ⟨⟨read, rest⟩, hread, h⟩ := Option.bind_eq_some_iff.1 h
        obtain ⟨⟨d, after⟩, hmark, h⟩ := Option.bind_eq_some_iff.1 h
        rw [if_pos hc, scanString_append hread more]
        simp only [Option.bind_eq_bind, Option.bind_some, mark_append hmark more]
        dsimp only at h
        by_cases hd : d = ':'
        · rw [if_pos hd] at h
          cases h
          rw [if_pos hd, skipWhitespace_append hne]
          rfl
        · rw [if_neg hd] at h
          cases h
      · cases h

theorem skip_append {text : Text} (h : skipWhitespace text ≠ []) (more : Text) :
    (skipWhitespace (text ++ more)).head? = (skipWhitespace text).head?
      ∧ (skipWhitespace (text ++ more)).tail = (skipWhitespace text).tail ++ more := by
  rw [skipWhitespace_append h]
  exact ⟨List.head?_append_of_ne_nil _ h, List.tail_append_of_ne_nil h⟩

theorem skip_ne_nil_of_head {text : Text} {c : Char} (h : (skipWhitespace text).head? = some c) : skipWhitespace text ≠ [] := by
  intro hnil
  rw [hnil] at h
  cases h

theorem scanValue_nil (steps : Nat) : scanValue floats steps [] = none := by
  cases steps <;> rfl

theorem scanItems_nil (steps : Nat) : scanItems floats steps [] = none := by
  cases steps with
  | zero => rfl
  | succ steps =>
      rw [scanItems, scanValue_nil]
      rfl

theorem scanMembers_nil (steps : Nat) : scanMembers floats steps [] = none := by
  cases steps <;> rfl

/-- What the three scans of a text find, they find in a longer one too, in as many steps or more. -/
theorem scan_append (more : Text) : ∀ steps : Nat,
    (∀ text value rest, scanValue floats steps text = some (value, rest) → rest ≠ [] ∧ Ends rest ∨ text.head? = some '\x7b' →
        ∀ later, steps ≤ later → scanValue floats later (text ++ more) = some (value, rest ++ more))
      ∧ (∀ text values rest, scanItems floats steps text = some (values, rest) →
        ∀ later, steps ≤ later → scanItems floats later (text ++ more) = some (values, rest ++ more))
      ∧ ∀ text items rest, scanMembers floats steps text = some (items, rest) →
        ∀ later, steps ≤ later → scanMembers floats later (text ++ more) = some (items, rest ++ more) := by
  intro steps
  induction steps with
  | zero =>
      refine ⟨?_, ?_, ?_⟩
      · intro text value rest h
        cases h
      · intro text values rest h
        cases h
      · intro text items rest h
        cases h
  | succ steps ih =>
      obtain ⟨hvalue, hitems, hmembers⟩ := ih
      refine ⟨?_, ?_, ?_⟩
      · intro text value rest h hends later hlater
        obtain ⟨later, rfl⟩ : ∃ n, later = n + 1 := ⟨later - 1, by omega⟩
        have hsteps : steps ≤ later := Nat.le_of_succ_le_succ hlater
        cases text with
        | nil => cases h
        | cons c text =>
            rw [scanValue] at h
            rw [List.cons_append, scanValue]
            split at h
            · next hc =>
              obtain ⟨⟨read, after⟩, hread, heq⟩ := Option.map_eq_some_iff.1 h
              cases heq
              rw [if_pos hc, scanString_append hread more]
              rfl
            · next hquote =>
              rw [if_neg hquote]
              split at h
              · next hc =>
                rw [if_pos hc]
                split at h
                · next hclose =>
                  cases h
                  obtain ⟨hhead, htail⟩ := skip_append (skip_ne_nil_of_head hclose) more
                  rw [hhead, if_pos hclose, htail]
                · next hopen =>
                  obtain ⟨⟨items, after⟩, hscan, heq⟩ := Option.map_eq_some_iff.1 h
                  cases heq
                  have hne : skipWhitespace text ≠ [] := by
                    intro hnil
                    rw [hnil, scanMembers_nil] at hscan
                    cases hscan
                  rw [(skip_append hne more).1, if_neg hopen, skipWhitespace_append hne, hmembers _ _ _ hscan later hsteps]
                  rfl
              · next hbrace =>
                rw [if_neg hbrace]
                split at h
                · next hc =>
                  rw [if_pos hc]
                  split at h
                  · next hclose =>
                    cases h
                    obtain ⟨hhead, htail⟩ := skip_append (skip_ne_nil_of_head hclose) more
                    rw [hhead, if_pos hclose, htail]
                  · next hopen =>
                    obtain ⟨⟨values, after⟩, hscan, heq⟩ := Option.map_eq_some_iff.1 h
                    cases heq
                    have hne : skipWhitespace text ≠ [] := by
                      intro hnil
                      rw [hnil, scanItems_nil] at hscan
                      cases hscan
                    rw [(skip_append hne more).1, if_neg hopen, skipWhitespace_append hne, hitems _ _ _ hscan later hsteps]
                    rfl
                · next hbracket =>
                  rw [if_neg hbracket]
                  rcases hends with ⟨hne, hrest⟩ | hhead
                  · exact scanScalar_append floats h hne hrest more
                  · exact absurd (Option.some.inj hhead) hbrace
      · intro text values rest h later hlater
        obtain ⟨later, rfl⟩ : ∃ n, later = n + 1 := ⟨later - 1, by omega⟩
        have hsteps : steps ≤ later := Nat.le_of_succ_le_succ hlater
        rw [scanItems] at h ⊢
        obtain ⟨⟨value, held⟩, hscan, h⟩ := Option.bind_eq_some_iff.1 h
        obtain ⟨⟨c, after⟩, hmark, h⟩ := Option.bind_eq_some_iff.1 h
        dsimp only at h
        have hfound : isDelimiter c = true →
            scanValue floats later (text ++ more) = some (value, held ++ more) := fun hc =>
          hvalue text value held hscan (Or.inl (ends_of_mark hmark hc)) later hsteps
        by_cases hclose : c = ']'
        · rw [if_pos hclose] at h
          cases h
          simp only [hfound (hclose ▸ rfl), Option.bind_eq_bind, Option.bind_some, mark_append hmark more]
          exact if_pos hclose
        · rw [if_neg hclose] at h
          by_cases hcomma : c = ','
          · rw [if_pos hcomma] at h
            obtain ⟨⟨others, last⟩, hothers, h⟩ := Option.bind_eq_some_iff.1 h
            cases h
            have hne : skipWhitespace after ≠ [] := by
              intro hnil
              rw [hnil, scanItems_nil] at hothers
              cases hothers
            simp only [hfound (hcomma ▸ rfl), Option.bind_eq_bind, Option.bind_some, mark_append hmark more]
            rw [if_neg hclose, if_pos hcomma, skipWhitespace_append hne, hitems _ _ _ hothers later hsteps]
            rfl
          · rw [if_neg hcomma] at h
            cases h
      · intro text items rest h later hlater
        obtain ⟨later, rfl⟩ : ∃ n, later = n + 1 := ⟨later - 1, by omega⟩
        have hsteps : steps ≤ later := Nat.le_of_succ_le_succ hlater
        rw [scanMembers] at h ⊢
        obtain ⟨⟨key, body⟩, hkey, h⟩ := Option.bind_eq_some_iff.1 h
        obtain ⟨⟨value, held⟩, hscan, h⟩ := Option.bind_eq_some_iff.1 h
        obtain ⟨⟨c, after⟩, hmark, h⟩ := Option.bind_eq_some_iff.1 h
        dsimp only at hscan hmark h
        have hbody : body ≠ [] := by
          rintro rfl
          rw [scanValue_nil] at hscan
          cases hscan
        have hfound : isDelimiter c = true →
            scanValue floats later (body ++ more) = some (value, held ++ more) := fun hc =>
          hvalue body value held hscan (Or.inl (ends_of_mark hmark hc)) later hsteps
        by_cases hclose : c = '\x7d'
        · rw [if_pos hclose] at h
          cases h
          simp only [scanKey_append hkey hbody more, hfound (hclose ▸ rfl), Option.bind_eq_bind, Option.bind_some,
            mark_append hmark more]
          exact if_pos hclose
        · rw [if_neg hclose] at h
          by_cases hcomma : c = ','
          · rw [if_pos hcomma] at h
            obtain ⟨⟨others, last⟩, hothers, h⟩ := Option.bind_eq_some_iff.1 h
            cases h
            have hne : skipWhitespace after ≠ [] := by
              intro hnil
              rw [hnil, scanMembers_nil] at hothers
              cases hothers
            simp only [scanKey_append hkey hbody more, hfound (hcomma ▸ rfl), Option.bind_eq_bind, Option.bind_some,
              mark_append hmark more]
            rw [if_neg hclose, if_pos hcomma, skipWhitespace_append hne, hmembers _ _ _ hothers later hsteps]
            rfl
          · rw [if_neg hcomma] at h
            cases h

/-! ### A value is read back from its text -/

theorem intNumber_valid (value : Int) : (intNumber value).Valid where
  minus := by
    rw [intNumber]
    dsimp only
    split
    · exact Or.inr rfl
    · exact Or.inl rfl
  whole := ⟨⟨Nat.toDigits_ne_nil, fun _ hc => isDigit_of_mem_decimal hc⟩, noLeadingZero_decimal _⟩
  fraction := Or.inl rfl
  exponent := Or.inl rfl

theorem numberValue_intNumber (value : Int) : numberValue floats (intNumber value) = .int value := by
  have hnat : Nat.ofDigitChars 10 (decimal value.natAbs) 0 = value.natAbs := Nat.ofDigitChars_ten_toDigits ..
  rw [numberValue, if_pos ⟨rfl, rfl⟩, intNumber]
  dsimp only
  rw [hnat]
  by_cases hneg : value < 0
  · rw [if_pos hneg, if_neg (List.cons_ne_nil _ _)]
    exact congrArg JsonValue.int (by omega)
  · rw [if_neg hneg, if_pos rfl]
    exact congrArg JsonValue.int (by omega)

theorem numberValue_repr (x : φ) : numberValue floats (floats.repr x) = .float x := by
  have hreal : ¬ ((floats.repr x).fraction = [] ∧ (floats.repr x).exponent = []) := by
    rintro ⟨hfraction, hexponent⟩
    exact (floats.real x).elim (fun h => h hfraction) fun h => h hexponent
  rw [numberValue, if_neg hreal, floats.read_repr]

/-- A number starts with a digit or a minus sign. -/
theorem head_written {number : Number} (hvalid : number.Valid) :
    ∃ c text, number.written = c :: text ∧ (c = '-' ∨ c.isDigit = true) := by
  rw [Number.written]
  rcases hvalid.minus with hminus | hminus
  · obtain ⟨hne, hdigits⟩ := hvalid.whole.1
    cases hwhole : number.whole with
    | nil => exact absurd hwhole hne
    | cons c digits =>
        rw [hminus]
        exact ⟨c, _, rfl, Or.inr (hdigits c (hwhole ▸ List.mem_cons_self ..))⟩
  · rw [hminus]
    exact ⟨'-', _, rfl, Or.inl rfl⟩

theorem not_isDelimiter_of_digit {c : Char} (h : c = '-' ∨ c.isDigit = true) : isDelimiter c = false := by
  rcases h with rfl | hdigit
  · rfl
  · by_contra hdelimiter
    rw [Bool.not_eq_false] at hdelimiter
    rw [not_isDigit_of_isDelimiter hdelimiter] at hdigit
    cases hdigit

/-- The text of a value starts with what is no delimiter. -/
theorem head_dumps (value : JsonValue φ) : ∃ c text, dumps floats value = c :: text ∧ isDelimiter c = false := by
  have hnumber : ∀ number : Number, number.Valid → ∃ c text, number.written = c :: text ∧ isDelimiter c = false := by
    intro number hvalid
    obtain ⟨c, text, htext, hc⟩ := head_written hvalid
    exact ⟨c, text, htext, not_isDelimiter_of_digit hc⟩
  cases value with
  | null => exact ⟨_, _, rfl, rfl⟩
  | bool value => cases value <;> exact ⟨_, _, rfl, rfl⟩
  | int value =>
      rw [dumps]
      exact hnumber _ (intNumber_valid value)
  | float value =>
      rw [dumps]
      exact hnumber _ (floats.valid value)
  | constant value => cases value <;> exact ⟨_, _, rfl, rfl⟩
  | text value =>
      rw [dumps]
      exact ⟨_, _, rfl, rfl⟩
  | array items =>
      rw [dumps]
      exact ⟨_, _, rfl, rfl⟩
  | object items =>
      rw [dumps]
      exact ⟨_, _, rfl, rfl⟩

theorem not_isWhitespace {c : Char} (h : isDelimiter c = false) : isWhitespace c = false := by
  simp only [isDelimiter, Bool.or_eq_false_iff] at h
  exact h.1.1.1

theorem skipWhitespace_cons {c : Char} (h : isWhitespace c = false) (text : Text) : skipWhitespace (c :: text) = c :: text := by
  rw [skipWhitespace, List.dropWhile_cons_of_neg]
  rw [h]
  exact Bool.false_ne_true

theorem skipWhitespace_dumps (value : JsonValue φ) (rest : Text) :
    skipWhitespace (dumps floats value ++ rest) = dumps floats value ++ rest := by
  obtain ⟨c, text, htext, hc⟩ := head_dumps floats value
  rw [htext, List.cons_append, skipWhitespace_cons (not_isWhitespace hc)]

theorem head_dumps_append (value : JsonValue φ) (rest : Text) {c : Char} (hc : isDelimiter c = true) :
    (dumps floats value ++ rest).head? ≠ some c := by
  obtain ⟨d, text, htext, hd⟩ := head_dumps floats value
  rw [htext]
  intro h
  rw [Option.some.inj h, hc] at hd
  cases hd

theorem mark_cons {c : Char} (h : isWhitespace c = false) (text : Text) : mark (c :: text) = some (c, text) := by
  rw [mark, skipWhitespace_cons h]

theorem scanKey_quoted (key rest : Text) : scanKey (quoted key ++ (':' :: ' ' :: rest)) = some (key, skipWhitespace rest) := by
  have hread := scanString_quoted key (':' :: ' ' :: rest)
  have hmark : mark (':' :: ' ' :: rest) = some (':', ' ' :: rest) := mark_cons rfl _
  have hspace : skipWhitespace (' ' :: rest) = skipWhitespace rest := List.dropWhile_cons_of_pos rfl
  rw [quoted, List.tail_cons] at hread
  rw [quoted, List.cons_append, scanKey, if_pos rfl, hread]
  simp only [Option.bind_eq_bind, Option.bind_some, hmark, if_true, hspace]
  rfl

/-- A word that is a value of its own is read back. -/
theorem scanValue_word (word : Text × JsonValue φ) (hword : word ∈ words) (rest : Text) (steps : Nat) :
    scanValue floats (steps + 1) (word.1 ++ rest) = some (word.2, rest) := by
  have hscalar := scanScalar_word floats hword rest
  simp only [words, List.mem_cons, List.not_mem_nil, or_false] at hword
  rcases hword with rfl | rfl | rfl | rfl | rfl | rfl <;> exact hscalar

theorem scanValue_number {number : Number} (hvalid : number.Valid) {rest : Text} (hrest : Ends rest) (steps : Nat) :
    scanValue floats (steps + 1) (number.written ++ rest) = some (numberValue floats number, rest) := by
  have hscalar := scanScalar_number floats hvalid hrest
  obtain ⟨c, text, htext, hc⟩ := head_written hvalid
  have hplain : c ≠ '"' ∧ c ≠ '\x7b' ∧ c ≠ '[' := by
    refine ⟨?_, ?_, ?_⟩ <;> rintro rfl <;> rcases hc with hc | hc <;> cases hc
  rw [htext, List.cons_append] at hscalar ⊢
  rw [scanValue, if_neg hplain.1, if_neg hplain.2.1, if_neg hplain.2.2]
  exact hscalar

theorem dumpsItems_false {items : List (JsonValue φ)} (hne : items ≠ []) :
    dumpsItems floats false items = ',' :: ' ' :: dumpsItems floats true items := by
  cases items with
  | nil => exact absurd rfl hne
  | cons value items =>
      rw [dumpsItems, dumpsItems]
      rfl

theorem dumpsMembers_false {items : List (Text × JsonValue φ)} (hne : items ≠ []) :
    dumpsMembers floats false items = ',' :: ' ' :: dumpsMembers floats true items := by
  cases items with
  | nil => exact absurd rfl hne
  | cons item items =>
      obtain ⟨key, value⟩ := item
      rw [dumpsMembers, dumpsMembers]
      rfl

mutual

/-- A value is read back from its text, before what ends it. -/
theorem scanValue_dumps : ∀ value : JsonValue φ, Keyed value → ∀ {rest : Text}, Ends rest → ∀ steps,
    (dumps floats value).length < steps → scanValue floats steps (dumps floats value ++ rest) = some (value, rest)
  | _, _, _, _, 0, h => absurd h (Nat.not_lt_zero _)
  | .null, _, rest, _, steps + 1, _ => by
      rw [dumps]
      exact scanValue_word floats ("null".toList, .null) (by simp [words]) rest steps
  | .bool true, _, rest, _, steps + 1, _ => by
      rw [dumps]
      exact scanValue_word floats ("true".toList, .bool true) (by simp [words]) rest steps
  | .bool false, _, rest, _, steps + 1, _ => by
      rw [dumps]
      exact scanValue_word floats ("false".toList, .bool false) (by simp [words]) rest steps
  | .constant .nan, _, rest, _, steps + 1, _ => by
      rw [dumps]
      exact scanValue_word floats ("NaN".toList, .constant .nan) (by simp [words]) rest steps
  | .constant .infinity, _, rest, _, steps + 1, _ => by
      rw [dumps]
      exact scanValue_word floats ("Infinity".toList, .constant .infinity) (by simp [words]) rest steps
  | .constant .negativeInfinity, _, rest, _, steps + 1, _ => by
      rw [dumps]
      exact scanValue_word floats ("-Infinity".toList, .constant .negativeInfinity) (by simp [words]) rest steps
  | .int value, _, rest, hrest, steps + 1, _ => by
      rw [dumps, scanValue_number floats (intNumber_valid value) hrest, numberValue_intNumber]
  | .float value, _, rest, hrest, steps + 1, _ => by
      rw [dumps, scanValue_number floats (floats.valid value) hrest, numberValue_repr]
  | .text value, _, rest, _, steps + 1, _ => by
      have hread := scanString_quoted value rest
      rw [quoted, List.tail_cons] at hread
      rw [dumps, quoted, List.cons_append, scanValue, if_pos rfl, hread]
      rfl
  | .array [], _, rest, _, steps + 1, _ => by
      rw [dumps, dumpsItems]
      rfl
  | .array (first :: items), hkeyed, rest, _, steps + 1, hsteps => by
      rw [dumps, List.length_cons, List.length_append, List.length_singleton] at hsteps
      rw [dumps, List.cons_append, List.append_assoc, List.singleton_append, scanValue, if_neg (by decide), if_neg (by decide),
        if_pos rfl]
      have hscan := scanItems_dumps (first :: items) hkeyed (List.cons_ne_nil _ _) rest steps (by omega)
      have hskip : skipWhitespace (dumpsItems floats true (first :: items) ++ ']' :: rest)
          = dumpsItems floats true (first :: items) ++ ']' :: rest := by
        rw [dumpsItems, separator, if_pos rfl, List.nil_append, List.append_assoc, skipWhitespace_dumps]
      have hopen : (dumpsItems floats true (first :: items) ++ ']' :: rest).head? ≠ some ']' := by
        rw [dumpsItems, separator, if_pos rfl, List.nil_append, List.append_assoc]
        exact head_dumps_append floats first _ rfl
      rw [hskip, if_neg hopen, hscan]
      rfl
  | .object [], _, rest, _, steps + 1, _ => by
      rw [dumps, dumpsMembers]
      rfl
  | .object ((key, value) :: items), hkeyed, rest, _, steps + 1, hsteps => by
      rw [dumps, List.length_cons, List.length_append, List.length_singleton] at hsteps
      rw [dumps, List.cons_append, List.append_assoc, List.singleton_append, scanValue, if_neg (by decide), if_pos rfl]
      have hscan := scanMembers_dumps ((key, value) :: items) hkeyed.2 (List.cons_ne_nil _ _) rest steps (by omega)
      have hskip : skipWhitespace (dumpsMembers floats true ((key, value) :: items) ++ '\x7d' :: rest)
          = dumpsMembers floats true ((key, value) :: items) ++ '\x7d' :: rest := by
        rw [dumpsMembers, separator, if_pos rfl, List.nil_append, quoted]
        exact skipWhitespace_cons rfl _
      have hopen : (dumpsMembers floats true ((key, value) :: items) ++ '\x7d' :: rest).head? ≠ some '\x7d' := by
        rw [dumpsMembers, separator, if_pos rfl, List.nil_append, quoted]
        intro h
        cases Option.some.inj h
      rw [hskip, if_neg hopen, hscan, Option.map_some, dictOf_eq hkeyed.1]

theorem scanItems_dumps : ∀ items : List (JsonValue φ), KeyedItems items → items ≠ [] → ∀ (rest : Text) (steps : Nat),
    (dumpsItems floats true items).length + 1 < steps →
    scanItems floats steps (dumpsItems floats true items ++ ']' :: rest) = some (items, rest)
  | [], _, hne, _, _, _ => absurd rfl hne
  | _ :: _, _, _, _, 0, hsteps => absurd hsteps (Nat.not_lt_zero _)
  | value :: items, hkeyed, _, rest, steps + 1, hsteps => by
      rw [dumpsItems, separator, if_pos rfl, List.nil_append, List.length_append] at hsteps
      rw [dumpsItems, separator, if_pos rfl, List.nil_append, List.append_assoc, scanItems]
      cases items with
      | nil =>
          have hvalue := scanValue_dumps value hkeyed.1 (ends_cons.2 rfl : Ends (']' :: rest)) steps (by omega)
          have hmark : mark (']' :: rest) = some (']', rest) := mark_cons rfl rest
          rw [dumpsItems, List.nil_append, hvalue]
          simp only [Option.bind_eq_bind, Option.bind_some, hmark, if_true]
          rfl
      | cons next items =>
          have hmore := dumpsItems_false floats (List.cons_ne_nil next items)
          rw [hmore, List.length_cons, List.length_cons] at hsteps
          have hitems := scanItems_dumps (next :: items) hkeyed.2 (List.cons_ne_nil _ _) rest steps (by omega)
          have hvalue := scanValue_dumps value hkeyed.1
            (ends_cons.2 rfl : Ends (',' :: ' ' :: (dumpsItems floats true (next :: items) ++ ']' :: rest))) steps (by omega)
          have hmark : mark (',' :: ' ' :: (dumpsItems floats true (next :: items) ++ ']' :: rest))
              = some (',', ' ' :: (dumpsItems floats true (next :: items) ++ ']' :: rest)) := mark_cons rfl _
          have hskip : skipWhitespace (' ' :: (dumpsItems floats true (next :: items) ++ ']' :: rest))
              = dumpsItems floats true (next :: items) ++ ']' :: rest := by
            rw [skipWhitespace, List.dropWhile_cons_of_pos rfl, dumpsItems, separator, if_pos rfl, List.nil_append,
              List.append_assoc]
            exact skipWhitespace_dumps floats next _
          rw [hmore, List.cons_append, List.cons_append, hvalue]
          simp only [Option.bind_eq_bind, Option.bind_some, hmark]
          rw [if_neg (by decide), if_pos trivial, hskip, hitems]
          rfl

theorem scanMembers_dumps : ∀ items : List (Text × JsonValue φ), KeyedMembers items → items ≠ [] → ∀ (rest : Text) (steps : Nat),
    (dumpsMembers floats true items).length + 1 < steps →
    scanMembers floats steps (dumpsMembers floats true items ++ '\x7d' :: rest) = some (items, rest)
  | [], _, hne, _, _, _ => absurd rfl hne
  | _ :: _, _, _, _, 0, hsteps => absurd hsteps (Nat.not_lt_zero _)
  | (key, value) :: items, hkeyed, _, rest, steps + 1, hsteps => by
      rw [dumpsMembers, separator, if_pos rfl, List.nil_append, List.length_append, List.length_append, List.length_append] at hsteps
      have hsplit : dumpsMembers floats true ((key, value) :: items) ++ '\x7d' :: rest
          = quoted key ++ (':' :: ' ' :: (dumps floats value ++ (dumpsMembers floats false items ++ '\x7d' :: rest))) := by
        rw [dumpsMembers, separator, if_pos rfl, List.nil_append]
        simp only [List.append_assoc, List.cons_append, List.nil_append]
      rw [hsplit, scanMembers, scanKey_quoted, skipWhitespace_dumps]
      cases items with
      | nil =>
          have hvalue := scanValue_dumps value hkeyed.1 (ends_cons.2 rfl : Ends ('\x7d' :: rest)) steps (by omega)
          have hmark : mark ('\x7d' :: rest) = some ('\x7d', rest) := mark_cons rfl rest
          rw [dumpsMembers, List.nil_append]
          simp only [Option.bind_eq_bind, Option.bind_some, hvalue, hmark, if_true]
          rfl
      | cons next items =>
          have hmore := dumpsMembers_false floats (List.cons_ne_nil next items)
          simp only [hmore, List.length_cons] at hsteps
          have hitems := scanMembers_dumps (next :: items) hkeyed.2 (List.cons_ne_nil _ _) rest steps (by omega)
          have hvalue := scanValue_dumps value hkeyed.1
            (ends_cons.2 rfl : Ends (',' :: ' ' :: (dumpsMembers floats true (next :: items) ++ '\x7d' :: rest))) steps (by omega)
          have hmark : mark (',' :: ' ' :: (dumpsMembers floats true (next :: items) ++ '\x7d' :: rest))
              = some (',', ' ' :: (dumpsMembers floats true (next :: items) ++ '\x7d' :: rest)) := mark_cons rfl _
          have hskip : skipWhitespace (' ' :: (dumpsMembers floats true (next :: items) ++ '\x7d' :: rest))
              = dumpsMembers floats true (next :: items) ++ '\x7d' :: rest := by
            obtain ⟨nextKey, nextValue⟩ := next
            rw [skipWhitespace, List.dropWhile_cons_of_pos rfl, dumpsMembers, separator, if_pos rfl, List.nil_append, quoted]
            exact skipWhitespace_cons rfl _
          rw [hmore, List.cons_append, List.cons_append]
          simp only [Option.bind_eq_bind, Option.bind_some, hvalue, hmark]
          rw [if_neg (by decide), if_pos trivial, hskip, hitems]
          rfl

end

/-! ### The text of a value is printable -/

def Printable (text : Text) : Prop := ∀ c ∈ text, 32 ≤ c.toNat ∧ c.toNat < 127

theorem Printable.append {left right : Text} (hleft : Printable left) (hright : Printable right) : Printable (left ++ right) :=
  fun c hc => (List.mem_append.1 hc).elim (hleft c) (hright c)

theorem Printable.cons {c : Char} {text : Text} (hc : 32 ≤ c.toNat ∧ c.toNat < 127) (htext : Printable text) :
    Printable (c :: text) := by
  intro d hd
  rcases List.mem_cons.1 hd with rfl | hd
  · exact hc
  · exact htext d hd

theorem Printable.nil : Printable [] := fun _ h => nomatch h

theorem Printable.of_all {text : Text} (h : (text.all fun c => Nat.ble 32 c.toNat && Nat.blt c.toNat 127) = true) : Printable text := by
  intro c hc
  have hboth := List.all_eq_true.1 h c hc
  rw [Bool.and_eq_true, Nat.ble_eq, Nat.blt_eq] at hboth
  exact hboth

theorem printable_digits {text : Text} (h : ∀ c ∈ text, c.isDigit = true) : Printable text := by
  intro c hc
  have hdigit := Char.isDigit_iff_toNat.1 (h c hc)
  have hzero : '0'.toNat = 48 := rfl
  have hnine : '9'.toNat = 57 := rfl
  omega

theorem printable_written {number : Number} (hvalid : number.Valid) : Printable number.written := by
  rw [Number.written]
  refine Printable.append ?_ (Printable.append (printable_digits hvalid.whole.1.2) (Printable.append ?_ ?_))
  · rcases hvalid.minus with h | h <;> rw [h]
    · exact Printable.nil
    · exact Printable.cons (by decide) Printable.nil
  · rcases hvalid.fraction with h | ⟨digits, hdigits, h⟩ <;> rw [h]
    · exact Printable.nil
    · exact Printable.cons (by decide) (printable_digits hdigits.2)
  · rcases hvalid.exponent with h | ⟨e, sign, digits, he, hsign, hdigits, h⟩ <;> rw [h]
    · exact Printable.nil
    · refine Printable.cons ?_ (Printable.append ?_ (printable_digits hdigits.2))
      · rcases he with rfl | rfl <;> decide
      · rcases hsign with rfl | rfl | rfl
        · exact Printable.nil
        · exact Printable.cons (by decide) Printable.nil
        · exact Printable.cons (by decide) Printable.nil

theorem printable_unicodeEscape (code : Nat) : Printable (unicodeEscape code) := by
  have hall : ∀ digit < 16, 32 ≤ (Nat.digitChar digit).toNat ∧ (Nat.digitChar digit).toNat < 127 := by decide
  have hdigit : ∀ n, 32 ≤ (Nat.digitChar (n % 16)).toNat ∧ (Nat.digitChar (n % 16)).toNat < 127 := fun n =>
    hall _ (Nat.mod_lt _ (by decide))
  rw [unicodeEscape, hexDigits]
  exact .cons (by decide) (.cons (by decide) (.cons (hdigit _) (.cons (hdigit _) (.cons (hdigit _) (.cons (hdigit _) .nil)))))

theorem printable_escapeChar (c : Char) : Printable (escapeChar c) := by
  rw [escapeChar]
  cases hlookup : shortEscapes.lookup c with
  | some letter =>
      have hall : ∀ escape ∈ shortEscapes, 32 ≤ escape.2.toNat ∧ escape.2.toNat < 127 := by decide
      have hmem : (c, letter) ∈ shortEscapes := by
        obtain ⟨before, after, hsplit, -⟩ := List.lookup_eq_some_iff.1 hlookup
        rw [hsplit]
        simp
      exact .cons (by decide) (.cons (hall _ hmem) .nil)
  | none =>
      dsimp only
      split
      · next hprintable => exact .cons hprintable .nil
      · split
        · exact printable_unicodeEscape _
        · exact (printable_unicodeEscape _).append (printable_unicodeEscape _)

theorem printable_quoted (value : Text) : Printable (quoted value) := by
  refine .cons (by decide) (.append ?_ (.cons (by decide) .nil))
  intro c hc
  obtain ⟨d, -, hd⟩ := List.mem_flatMap.1 hc
  exact printable_escapeChar d c hd

theorem printable_separator (first : Bool) : Printable (separator first) := by
  cases first with
  | true => exact Printable.nil
  | false => exact .cons (by decide) (.cons (by decide) .nil)

mutual

/-- A JSON text is printable ASCII. -/
theorem printable_dumps : ∀ value : JsonValue φ, Printable (dumps floats value)
  | .null => by
      rw [dumps]
      exact .of_all rfl
  | .bool true => by
      rw [dumps]
      exact .of_all rfl
  | .bool false => by
      rw [dumps]
      exact .of_all rfl
  | .constant value => by
      rw [dumps]
      cases value <;> exact .of_all rfl
  | .int value => by
      rw [dumps]
      exact printable_written (intNumber_valid value)
  | .float value => by
      rw [dumps]
      exact printable_written (floats.valid value)
  | .text value => by
      rw [dumps]
      exact printable_quoted value
  | .array items => by
      rw [dumps]
      exact .cons (by decide) ((printable_dumpsItems true items).append (.cons (by decide) .nil))
  | .object items => by
      rw [dumps]
      exact .cons (by decide) ((printable_dumpsMembers true items).append (.cons (by decide) .nil))

theorem printable_dumpsItems (first : Bool) : ∀ items : List (JsonValue φ), Printable (dumpsItems floats first items)
  | [] => by
      rw [dumpsItems]
      exact Printable.nil
  | value :: items => by
      rw [dumpsItems]
      exact (printable_separator first).append ((printable_dumps value).append (printable_dumpsItems false items))

theorem printable_dumpsMembers (first : Bool) : ∀ items : List (Text × JsonValue φ), Printable (dumpsMembers floats first items)
  | [] => by
      rw [dumpsMembers]
      exact Printable.nil
  | (key, value) :: items => by
      rw [dumpsMembers]
      exact (printable_separator first).append ((printable_quoted key).append ((Printable.cons (by decide)
        (.cons (by decide) .nil)).append ((printable_dumps value).append (printable_dumpsMembers false items))))

end

/-! ### Whole texts -/

/-- `json.loads` reads what `json.dumps` writes. -/
theorem loads_dumps {value : JsonValue φ} (hkeyed : Keyed value) : loads floats (dumps floats value) = some value := by
  have hscan := scanValue_dumps floats value hkeyed Ends.nil ((dumps floats value).length + 1) (Nat.lt_succ_self _)
  have hskip := skipWhitespace_dumps floats value []
  rw [List.append_nil] at hscan hskip
  have hmark : (dumps floats value).head? ≠ some (Char.ofNat 0xfeff) := by
    intro h
    have hbound := printable_dumps floats value _ (List.mem_of_head? h)
    exact absurd hbound.2 (by decide)
  rw [loads, if_neg hmark, hskip, hscan]
  rfl

/-- No part of an object's text before its end is a JSON text. -/
theorem loads_of_prefix {items : List (Text × JsonValue φ)} (hkeyed : Keyed (.object items)) {piece rest : Text}
    (htext : dumps floats (.object items) = piece ++ rest) (hpiece : piece ≠ []) (hrest : rest ≠ []) : loads floats piece = none := by
  cases hloads : loads floats piece with
  | none => rfl
  | some value =>
      exfalso
      have hhead : piece.head? = some '\x7b' := by
        cases piece with
        | nil => exact absurd rfl hpiece
        | cons c piece =>
            rw [dumps] at htext
            exact congrArg some (List.cons.inj htext).1.symm
      have hskip : skipWhitespace piece = piece := by
        cases piece with
        | nil => rfl
        | cons c piece =>
            obtain rfl := Option.some.inj hhead
            exact skipWhitespace_cons rfl piece
      have hmark : piece.head? ≠ some (Char.ofNat 0xfeff) := by
        rw [hhead]
        decide
      rw [loads, if_neg hmark, hskip] at hloads
      cases hscan : scanValue floats (piece.length + 1) piece with
      | none =>
          rw [hscan] at hloads
          cases hloads
      | some scanned =>
          obtain ⟨found, after⟩ := scanned
          have hlonger := (scan_append floats rest _).1 _ _ _ hscan (Or.inr hhead) ((piece ++ rest).length + 1)
            (by rw [List.length_append]; omega)
          have hwhole := scanValue_dumps floats _ hkeyed Ends.nil ((piece ++ rest).length + 1) (by rw [htext]; omega)
          rw [List.append_nil, htext, hlonger] at hwhole
          have hnil : after ++ rest = [] := congrArg Prod.snd (Option.some.inj hwhole)
          exact hrest (List.append_eq_nil_iff.1 hnil).2

end JsonText
