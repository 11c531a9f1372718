import SortView.Lib.JsonText

/-!
# JSON texts over several lines

`json.dumps` with an indent or with other separators: its text differs from the default one in the white space between the tokens,
and `json.loads` reads the same value from it.
-/

namespace JsonText

open PyText

variable {φ : Type}

/-! ### White space between tokens -/

def Blank (gap : Text) : Prop := ∀ c ∈ gap, c = ' ' ∨ c = '\n'

theorem Blank.isWhitespace {gap : Text} (h : Blank gap) : ∀ c ∈ gap, JsonText.isWhitespace c = true := by
  intro c hc
  rcases h c hc with rfl | rfl <;> rfl

theorem Blank.skip {gap : Text} (h : Blank gap) (text : Text) : skipWhitespace (gap ++ text) = skipWhitespace text :=
  List.dropWhile_append_of_pos h.isWhitespace

theorem Blank.mark {gap : Text} (h : Blank gap) {c : Char} (hc : JsonText.isWhitespace c = false) (rest : Text) :
    JsonText.mark (gap ++ c :: rest) = some (c, rest) := by
  rw [JsonText.mark, h.skip, skipWhitespace_cons hc]

theorem Blank.ends {gap : Text} (h : Blank gap) {c : Char} (hc : isDelimiter c = true) (rest : Text) : Ends (gap ++ c :: rest) := by
  cases gap with
  | nil => exact ends_cons.2 hc
  | cons d gap =>
      have hd : isDelimiter d = true := by
        rw [isDelimiter, h.isWhitespace d (List.mem_cons_self ..)]
        rfl
      exact ends_cons.2 hd

/-- Where white space is written: before an item at a depth, after a comma and after a colon. -/
structure Layout where
  newline : Nat → Text
  comma : Text
  colon : Text
  newline_blank : ∀ depth, Blank (newline depth)
  comma_blank : Blank comma
  colon_blank : Blank colon

/-- `indent=indent`. -/
def Layout.indented (indent : Nat) : Layout where
  newline depth := '\n' :: List.replicate (indent * depth) ' '
  comma := []
  colon := [' ']
  newline_blank _ := fun _ hc => (List.mem_cons.1 hc).elim Or.inr fun hspace => Or.inl (List.eq_of_mem_replicate hspace)
  comma_blank := fun _ hc => nomatch hc
  colon_blank := fun _ hc => Or.inl (List.mem_singleton.1 hc)

/-! ### Writing -/

variable (floats : FloatText φ) (layout : Layout)

mutual

/-- `json.dumps` with a layout; an empty list or object has no white space in it. -/
def dumpsAs (depth : Nat) : JsonValue φ → Text
  | .array items =>
      if items.isEmpty then ['[', ']']
      else '[' :: (layout.newline (depth + 1) ++ (itemsAs (depth + 1) items ++ (layout.newline depth ++ [']'])))
  | .object items =>
      if items.isEmpty then ['\x7b', '\x7d']
      else '\x7b' :: (layout.newline (depth + 1) ++ (membersAs (depth + 1) items ++ (layout.newline depth ++ ['\x7d'])))
  | value => dumps floats value

def itemsAs (depth : Nat) : List (JsonValue φ) → Text
  | [] => []
  | value :: items =>
      dumpsAs depth value
        ++ (if items.isEmpty then [] else ',' :: (layout.comma ++ (layout.newline depth ++ itemsAs depth items)))

def membersAs (depth : Nat) : List (Text × JsonValue φ) → Text
  | [] => []
  | (key, value) :: items =>
      quoted key ++ (':' :: (layout.colon ++ (dumpsAs depth value
        ++ (if items.isEmpty then [] else ',' :: (layout.comma ++ (layout.newline depth ++ membersAs depth items))))))

end

/-! ### A text starts with no delimiter -/

def Starts (text : Text) : Prop := ∃ c rest, text = c :: rest ∧ isDelimiter c = false

theorem Starts.append {text : Text} (h : Starts text) (more : Text) : Starts (text ++ more) := by
  obtain ⟨c, rest, rfl, hc⟩ := h
  exact ⟨c, rest ++ more, rfl, hc⟩

theorem Starts.skip {text : Text} (h : Starts text) : skipWhitespace text = text := by
  obtain ⟨c, rest, rfl, hc⟩ := h
  exact skipWhitespace_cons (not_isWhitespace hc) rest

theorem Starts.head_ne {text : Text} (h : Starts text) {c : Char} (hc : isDelimiter c = true) : text.head? ≠ some c := by
  obtain ⟨d, rest, rfl, hd⟩ := h
  intro heq
  rw [Option.some.inj heq, hc] at hd
  cases hd

theorem starts_dumpsAs (depth : Nat) (value : JsonValue φ) : Starts (dumpsAs floats layout depth value) := by
  cases value with
  | array items =>
      rw [dumpsAs]
      split
      · exact ⟨_, _, rfl, rfl⟩
      · exact ⟨_, _, rfl, rfl⟩
  | object items =>
      rw [dumpsAs]
      split
      · exact ⟨_, _, rfl, rfl⟩
      · exact ⟨_, _, rfl, rfl⟩
  | null => exact head_dumps floats .null
  | bool value => exact head_dumps floats (.bool value)
  | int value => exact head_dumps floats (.int value)
  | float value => exact head_dumps floats (.float value)
  | constant value => exact head_dumps floats (.constant value)
  | text value => exact head_dumps floats (.text value)

theorem starts_itemsAs (depth : Nat) {items : List (JsonValue φ)} (hne : items ≠ []) : Starts (itemsAs floats layout depth items) := by
  cases items with
  | nil => exact absurd rfl hne
  | cons value items =>
      rw [itemsAs]
      exact (starts_dumpsAs floats layout depth value).append _

theorem starts_membersAs (depth : Nat) {items : List (Text × JsonValue φ)} (hne : items ≠ []) :
    Starts (membersAs floats layout depth items) := by
  cases items with
  | nil => exact absurd rfl hne
  | cons item items =>
      obtain ⟨key, value⟩ := item
      rw [membersAs]
      exact ⟨_, _, rfl, rfl⟩

theorem itemsAs_cons (depth : Nat) (value : JsonValue φ) {items : List (JsonValue φ)} (hne : items ≠ []) :
    itemsAs floats layout depth (value :: items)
      = dumpsAs floats layout depth value ++ (',' :: (layout.comma ++ (layout.newline depth ++ itemsAs floats layout depth items))) := by
  rw [itemsAs, if_neg (by rwa [List.isEmpty_iff])]

theorem membersAs_cons (depth : Nat) (key : Text) (value : JsonValue φ) {items : List (Text × JsonValue φ)} (hne : items ≠ []) :
    membersAs floats layout depth ((key, value) :: items)
      = quoted key ++ (':' :: (layout.colon ++ (dumpsAs floats layout depth value
          ++ (',' :: (layout.comma ++ (layout.newline depth ++ membersAs floats layout depth items)))))) := by
  rw [membersAs, if_neg (by rwa [List.isEmpty_iff])]

/-! ### A value is read back from its text -/

theorem scanKey_colon (key rest : Text) : scanKey (quoted key ++ (':' :: rest)) = some (key, skipWhitespace rest) := by
  have hread := scanString_quoted key (':' :: rest)
  have hmark : mark (':' :: rest) = some (':', rest) := mark_cons rfl _
  rw [quoted, List.tail_cons] at hread
  rw [quoted, List.cons_append, scanKey, if_pos rfl, hread]
  simp only [Option.bind_eq_bind, Option.bind_some, hmark, if_true]
  rfl

mutual

/-- A value is read back from its text in any layout, before what ends it. -/
theorem scanValue_dumpsAs : ∀ (value : JsonValue φ), Keyed value → ∀ (depth : Nat) {rest : Text}, Ends rest → ∀ steps,
    (dumpsAs floats layout depth value).length < steps →
    scanValue floats steps (dumpsAs floats layout depth value ++ rest) = some (value, rest)
  | _, _, _, _, _, 0, h => absurd h (Nat.not_lt_zero _)
  | .null, hkeyed, _, _, hrest, steps + 1, hsteps => scanValue_dumps floats .null hkeyed hrest (steps + 1) hsteps
  | .bool value, hkeyed, _, _, hrest, steps + 1, hsteps => scanValue_dumps floats (.bool value) hkeyed hrest (steps + 1) hsteps
  | .int value, hkeyed, _, _, hrest, steps + 1, hsteps => scanValue_dumps floats (.int value) hkeyed hrest (steps + 1) hsteps
  | .float value, hkeyed, _, _, hrest, steps + 1, hsteps => scanValue_dumps floats (.float value) hkeyed hrest (steps + 1) hsteps
  | .constant value, hkeyed, _, _, hrest, steps + 1, hsteps =>
      scanValue_dumps floats (.constant value) hkeyed hrest (steps + 1) hsteps
  | .text value, hkeyed, _, _, hrest, steps + 1, hsteps => scanValue_dumps floats (.text value) hkeyed hrest (steps + 1) hsteps
  | .array [], _, _, _, _, steps + 1, _ => by
      rw [dumpsAs]
      rfl
  | .array (first :: items), hkeyed, depth, rest, _, steps + 1, hsteps => by
      have hne : first :: items ≠ [] := List.cons_ne_nil _ _
      have hstarts := (starts_itemsAs floats layout (depth + 1) hne).append (layout.newline depth ++ ']' :: rest)
      rw [dumpsAs, if_neg (by rwa [List.isEmpty_iff])] at hsteps ⊢
      simp only [List.length_cons, List.length_append, List.length_nil] at hsteps
      have hscan := scanItems_dumpsAs (first :: items) hkeyed hne (depth + 1) (layout.newline_blank depth) rest steps (by omega)
      simp only [List.cons_append, List.append_assoc, List.nil_append]
      rw [scanValue, if_neg (by decide), if_neg (by decide), if_pos rfl, (layout.newline_blank _).skip, hstarts.skip,
        if_neg (hstarts.head_ne rfl), hscan]
      rfl
  | .object [], _, _, _, _, steps + 1, _ => by
      rw [dumpsAs]
      rfl
  | .object (first :: items), hkeyed, depth, rest, _, steps + 1, hsteps => by
      have hne : first :: items ≠ [] := List.cons_ne_nil _ _
      have hstarts := (starts_membersAs floats layout (depth + 1) hne).append (layout.newline depth ++ '\x7d' :: rest)
      rw [dumpsAs, if_neg (by rwa [List.isEmpty_iff])] at hsteps ⊢
      simp only [List.length_cons, List.length_append, List.length_nil] at hsteps
      have hscan := scanMembers_dumpsAs (first :: items) hkeyed.2 hne (depth + 1) (layout.newline_blank depth) rest steps (by omega)
      simp only [List.cons_append, List.append_assoc, List.nil_append]
      rw [scanValue, if_neg (by decide), if_pos rfl, (layout.newline_blank _).skip, hstarts.skip, if_neg (hstarts.head_ne rfl), hscan,
        Option.map_some, dictOf_eq hkeyed.1]

theorem scanItems_dumpsAs : ∀ (items : List (JsonValue φ)), KeyedItems items → items ≠ [] → ∀ (depth : Nat) {gap : Text}, Blank gap →
    ∀ (rest : Text) (steps : Nat), (itemsAs floats layout depth items).length + 1 < steps →
    scanItems floats steps (itemsAs floats layout depth items ++ (gap ++ ']' :: rest)) = some (items, rest)
  | [], _, hne, _, _, _, _, _, _ => absurd rfl hne
  | _ :: _, _, _, _, _, _, _, 0, hsteps => absurd hsteps (Nat.not_lt_zero _)
  | [value], hkeyed, _, depth, gap, hgap, rest, steps + 1, hsteps => by
      rw [itemsAs, List.isEmpty_nil, if_pos rfl, List.append_nil] at hsteps ⊢
      have hvalue := scanValue_dumpsAs value hkeyed.1 depth (hgap.ends (c := ']') rfl rest) steps (by omega)
      rw [scanItems, hvalue]
      simp only [Option.bind_eq_bind, Option.bind_some, hgap.mark (c := ']') rfl rest, if_true]
      rfl
  | value :: next :: items, hkeyed, _, depth, gap, hgap, rest, steps + 1, hsteps => by
      have hne : next :: items ≠ [] := List.cons_ne_nil _ _
      have hstarts := (starts_itemsAs floats layout depth hne).append (gap ++ ']' :: rest)
      rw [itemsAs_cons floats layout depth value hne] at hsteps ⊢
      simp only [List.length_cons, List.length_append] at hsteps
      have hitems := scanItems_dumpsAs (next :: items) hkeyed.2 hne depth hgap rest steps (by omega)
      simp only [List.append_assoc, List.cons_append]
      have hvalue := scanValue_dumpsAs value hkeyed.1 depth
        (ends_cons.2 rfl : Ends (',' :: (layout.comma ++ (layout.newline depth
          ++ (itemsAs floats layout depth (next :: items) ++ (gap ++ ']' :: rest)))))) steps (by omega)
      rw [scanItems, hvalue]
      simp only [Option.bind_eq_bind, Option.bind_some, mark_cons (c := ',') rfl]
      rw [if_neg (by decide), if_pos trivial, layout.comma_blank.skip, (layout.newline_blank depth).skip, hstarts.skip, hitems]
      rfl

theorem scanMembers_dumpsAs : ∀ (items : List (Text × JsonValue φ)), KeyedMembers items → items ≠ [] → ∀ (depth : Nat) {gap : Text},
    Blank gap → ∀ (rest : Text) (steps : Nat), (membersAs floats layout depth items).length + 1 < steps →
    scanMembers floats steps (membersAs floats layout depth items ++ (gap ++ '\x7d' :: rest)) = some (items, rest)
  | [], _, hne, _, _, _, _, _, _ => absurd rfl hne
  | _ :: _, _, _, _, _, _, _, 0, hsteps => absurd hsteps (Nat.not_lt_zero _)
  | [(key, value)], hkeyed, _, depth, gap, hgap, rest, steps + 1, hsteps => by
      have hstarts := (starts_dumpsAs floats layout depth value).append (gap ++ '\x7d' :: rest)
      rw [membersAs, List.isEmpty_nil, if_pos rfl, List.append_nil] at hsteps ⊢
      simp only [List.length_cons, List.length_append] at hsteps
      have hvalue := scanValue_dumpsAs value hkeyed.1 depth (hgap.ends (c := '\x7d') rfl rest) steps (by omega)
      simp only [List.append_assoc, List.cons_append]
      rw [scanMembers, scanKey_colon, layout.colon_blank.skip, hstarts.skip]
      simp only [Option.bind_eq_bind, Option.bind_some, hvalue, hgap.mark (c := '\x7d') rfl rest, if_true]
      rfl
  | (key, value) :: next :: items, hkeyed, _, depth, gap, hgap, rest, steps + 1, hsteps => by
      have hne : next :: items ≠ [] := List.cons_ne_nil _ _
      have hstarts := (starts_membersAs floats layout depth hne).append (gap ++ '\x7d' :: rest)
      rw [membersAs_cons floats layout depth key value hne] at hsteps ⊢
      simp only [List.length_cons, List.length_append] at hsteps
      have hitems := scanMembers_dumpsAs (next :: items) hkeyed.2 hne depth hgap rest steps (by omega)
      simp only [List.append_assoc, List.cons_append]
      have hvalue := scanValue_dumpsAs value hkeyed.1 depth
        (ends_cons.2 rfl : Ends (',' :: (layout.comma ++ (layout.newline depth
          ++ (membersAs floats layout depth (next :: items) ++ (gap ++ '\x7d' :: rest)))))) steps (by omega)
      rw [scanMembers, scanKey_colon, layout.colon_blank.skip, ((starts_dumpsAs floats layout depth value).append _).skip]
      simp only [Option.bind_eq_bind, Option.bind_some, hvalue, mark_cons (c := ',') rfl]
      rw [if_neg (by decide), if_pos trivial, layout.comma_blank.skip, (layout.newline_blank depth).skip, hstarts.skip, hitems]
      rfl

end

/-! ### The characters of a text -/

/-- Printable ASCII and line feeds. -/
def Plain (text : Text) : Prop := ∀ c ∈ text, c = '\n' ∨ 32 ≤ c.toNat ∧ c.toNat < 127

theorem Plain.of_printable {text : Text} (h : Printable text) : Plain text := fun c hc => Or.inr (h c hc)

theorem Blank.plain {gap : Text} (h : Blank gap) : Plain gap := by
  intro c hc
  rcases h c hc with rfl | rfl
  · exact Or.inr (by decide)
  · exact Or.inl rfl

theorem Plain.append {left right : Text} (hleft : Plain left) (hright : Plain right) : Plain (left ++ right) :=
  fun c hc => (List.mem_append.1 hc).elim (hleft c) (hright c)

theorem Plain.cons {c : Char} {text : Text} (hc : 32 ≤ c.toNat ∧ c.toNat < 127) (h : Plain text) : Plain (c :: text) :=
  (Plain.of_printable (Printable.cons hc Printable.nil)).append h

theorem Plain.nil : Plain [] := Plain.of_printable Printable.nil

theorem Plain.no_return {text : Text} (h : Plain text) : '\r' ∉ text := by
  intro hmem
  rcases h _ hmem with heq | hbound
  · cases heq
  · exact absurd hbound.1 (by decide)

mutual

theorem plain_dumpsAs : ∀ (value : JsonValue φ) (depth : Nat), Plain (dumpsAs floats layout depth value)
  | .array items, depth => by
      rw [dumpsAs]
      split
      · exact Plain.of_printable (Printable.of_all rfl)
      · exact .cons (by decide) ((layout.newline_blank _).plain.append ((plain_itemsAs items (depth + 1)).append
          ((layout.newline_blank _).plain.append (.cons (by decide) .nil))))
  | .object items, depth => by
      rw [dumpsAs]
      split
      · exact Plain.of_printable (Printable.of_all rfl)
      · exact .cons (by decide) ((layout.newline_blank _).plain.append ((plain_membersAs items (depth + 1)).append
          ((layout.newline_blank _).plain.append (.cons (by decide) .nil))))
  | .null, _ => .of_printable (printable_dumps floats .null)
  | .bool value, _ => .of_printable (printable_dumps floats (.bool value))
  | .int value, _ => .of_printable (printable_dumps floats (.int value))
  | .float value, _ => .of_printable (printable_dumps floats (.float value))
  | .constant value, _ => .of_printable (printable_dumps floats (.constant value))
  | .text value, _ => .of_printable (printable_dumps floats (.text value))

theorem plain_itemsAs : ∀ (items : List (JsonValue φ)) (depth : Nat), Plain (itemsAs floats layout depth items)
  | [], _ => by
      rw [itemsAs]
      exact Plain.nil
  | value :: items, depth => by
      have hitems := plain_itemsAs items depth
      rw [itemsAs]
      refine (plain_dumpsAs value depth).append ?_
      split
      · exact Plain.nil
      · exact .cons (by decide) (layout.comma_blank.plain.append ((layout.newline_blank _).plain.append hitems))

theorem plain_membersAs : ∀ (items : List (Text × JsonValue φ)) (depth : Nat), Plain (membersAs floats layout depth items)
  | [], _ => by
      rw [membersAs]
      exact Plain.nil
  | (key, value) :: items, depth => by
      have hitems := plain_membersAs items depth
      rw [membersAs]
      refine (Plain.of_printable (printable_quoted key)).append (.cons (by decide) (layout.colon_blank.plain.append
        ((plain_dumpsAs value depth).append ?_)))
      split
      · exact Plain.nil
      · exact .cons (by decide) (layout.comma_blank.plain.append ((layout.newline_blank _).plain.append hitems))

end

/-- `json.loads` reads what `json.dumps` writes in any layout. -/
theorem loads_dumpsAs {value : JsonValue φ} (hkeyed : Keyed value) :
    loads floats (dumpsAs floats layout 0 value) = some value := by
  have hscan := scanValue_dumpsAs floats layout value hkeyed 0 Ends.nil ((dumpsAs floats layout 0 value).length + 1) (Nat.lt_succ_self _)
  have hstarts := starts_dumpsAs floats layout 0 value
  rw [List.append_nil] at hscan
  have hmark : (dumpsAs floats layout 0 value).head? ≠ some (Char.ofNat 0xfeff) := by
    intro h
    rcases plain_dumpsAs floats layout value 0 _ (List.mem_of_head? h) with heq | hbound
    · exact absurd heq (by decide)
    · exact absurd hbound.2 (by decide)
  rw [loads, if_neg hmark, hstarts.skip, hscan]
  rfl

end JsonText
