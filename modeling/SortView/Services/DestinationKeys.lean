import Mathlib.Data.List.TakeWhile
import SortView.Lib.CaseFacts
import SortView.Services.RoutingDestination

/-!
# Destination keys

The shape of a destination key, and the key of a key: a key is its own key, except that the key `local`
is read again as one of the sorter's words for home.
-/

namespace SortView

open PyText

/-! ### The shape of a slug -/

/-- Two underscores in a row do not occur. -/
def SingleUnderscores (text : Text) : Prop := ¬ ['_', '_'] <:+: text

/-- A letter first, then letters, digits and single underscores, at most 32 characters. -/
structure SlugShape (slug : Text) : Prop where
  letter : startsWithLetter slug = true
  characters : ∀ c ∈ slug, isSlugCharacter c = true ∨ c = '_'
  single : SingleUnderscores slug
  length : slug.length ≤ maxSlugLength

/-- A slug that does not end in an underscore. -/
structure KeyShape (key : Text) : Prop extends SlugShape key where
  ending : key.getLast? ≠ some '_'

theorem isSlugCharacter_iff (c : Char) :
    isSlugCharacter c = true ↔ 97 ≤ c.toNat ∧ c.toNat ≤ 122 ∨ 48 ≤ c.toNat ∧ c.toNat ≤ 57 := by
  simp only [isSlugCharacter, Bool.or_eq_true, Bool.and_eq_true, decide_eq_true_eq]
  exact Iff.rfl

theorem not_isSlugCharacter_underscore : isSlugCharacter '_' = false := by decide

theorem SingleUnderscores.mono {text part : Text} (h : SingleUnderscores text) (hpart : part <:+: text) :
    SingleUnderscores part :=
  fun hdouble => h (hdouble.trans hpart)

theorem singleUnderscores_cons {c : Char} {text : Text} (htext : SingleUnderscores text)
    (hstart : c = '_' → text.head? ≠ some '_') : SingleUnderscores (c :: text) := by
  intro hdouble
  rcases List.infix_cons_iff.1 hdouble with hpre | hinside
  · rw [List.cons_prefix_cons] at hpre
    obtain ⟨hc, hrest⟩ := hpre
    apply hstart hc.symm
    cases text with
    | nil => simp at hrest
    | cons d text =>
        rw [List.cons_prefix_cons] at hrest
        rw [List.head?_cons, hrest.1]
  · exact htext hinside

/-! ### Runs that become underscores -/

theorem subRuns_characters (inRun : Bool) (text : Text) : ∀ c ∈ subRuns inRun text, isSlugCharacter c = true ∨ c = '_' := by
  induction text generalizing inRun with
  | nil => exact fun c hc => absurd hc List.not_mem_nil
  | cons first text ih =>
      intro c hc
      rw [subRuns] at hc
      split at hc
      · next hfirst =>
        rcases List.mem_cons.1 hc with rfl | hc
        · exact Or.inl hfirst
        · exact ih false c hc
      · split at hc
        · exact ih true c hc
        · rcases List.mem_cons.1 hc with rfl | hc
          · exact Or.inr rfl
          · exact ih true c hc

theorem head_subRuns_true (text : Text) : (subRuns true text).head? ≠ some '_' := by
  induction text with
  | nil => simp [subRuns]
  | cons first text ih =>
      rw [subRuns]
      split
      · next hfirst =>
        intro hhead
        rw [List.head?_cons, Option.some.injEq] at hhead
        rw [hhead, not_isSlugCharacter_underscore] at hfirst
        cases hfirst
      · exact ih

theorem singleUnderscores_subRuns (inRun : Bool) (text : Text) : SingleUnderscores (subRuns inRun text) := by
  induction text generalizing inRun with
  | nil =>
      intro hdouble
      simp [subRuns] at hdouble
  | cons first text ih =>
      rw [subRuns]
      split
      · next hfirst =>
        apply singleUnderscores_cons (ih false)
        rintro rfl
        rw [not_isSlugCharacter_underscore] at hfirst
        cases hfirst
      · split
        · exact ih true
        · exact singleUnderscores_cons (ih true) fun _ => head_subRuns_true text

/-- Slug characters that stand together after the runs are replaced stood together before. -/
theorem word_start_of_subRuns {word text : Text} (hword : ∀ c ∈ word, isSlugCharacter c = true)
    (h : word <+: subRuns false text) : word <+: text := by
  induction text generalizing word with
  | nil => exact h
  | cons first text ih =>
      cases word with
      | nil => exact List.nil_prefix
      | cons c word =>
          rw [subRuns] at h
          split at h
          · rw [List.cons_prefix_cons] at h ⊢
            exact ⟨h.1, ih (fun d hd => hword d (List.mem_cons_of_mem _ hd)) h.2⟩
          · simp only [Bool.false_eq_true, if_false, List.cons_prefix_cons] at h
            have hc := hword c (List.mem_cons_self ..)
            rw [h.1, not_isSlugCharacter_underscore] at hc
            cases hc

theorem word_of_subRuns {word text : Text} (hword : ∀ c ∈ word, isSlugCharacter c = true) (hne : word ≠ [])
    (inRun : Bool) (h : word <:+: subRuns inRun text) : word <:+: text := by
  induction text generalizing inRun with
  | nil => exact h
  | cons first text ih =>
      rw [subRuns] at h
      split at h
      · next hfirst =>
        rcases List.infix_cons_iff.1 h with hpre | hinside
        · have hwhole : word <+: subRuns false (first :: text) := by
            rw [subRuns, if_pos hfirst]
            exact hpre
          exact (word_start_of_subRuns hword hwhole).isInfix
        · exact List.infix_cons (ih false hinside)
      · split at h
        · exact List.infix_cons (ih true h)
        · rcases List.infix_cons_iff.1 h with hpre | hinside
          · cases word with
            | nil => exact absurd rfl hne
            | cons c word =>
                have hc := hword c (List.mem_cons_self ..)
                rw [(List.cons_prefix_cons.1 hpre).1, not_isSlugCharacter_underscore] at hc
                cases hc
          · exact List.infix_cons (ih true hinside)

/-! ### The slug form of a text -/

theorem stripUnderscores_infix_self (text : Text) : stripUnderscores text <:+: text := by
  have hfront : text.dropWhile (· == '_') <:+: text := (List.dropWhile_suffix _).isInfix
  have hback : ((text.dropWhile (· == '_')).reverse.dropWhile (· == '_')).reverse <:+: text.dropWhile (· == '_') := by
    rw [← List.reverse_infix, List.reverse_reverse]
    exact (List.dropWhile_suffix _).isInfix
  exact hback.trans hfront

theorem last_stripUnderscores (text : Text) : (stripUnderscores text).getLast? ≠ some '_' := by
  intro hlast
  rw [stripUnderscores, List.getLast?_reverse] at hlast
  have hhead := head_dropWhile _ _ hlast
  simp at hhead

theorem stripUnderscores_eq {text : Text} (hhead : text.head? ≠ some '_') (hlast : text.getLast? ≠ some '_') :
    stripUnderscores text = text := by
  have hnot : ∀ {end? : Option Char}, end? ≠ some '_' → ∀ c ∈ end?, (c == '_') = false := by
    intro end? hne c hc
    rw [beq_eq_false_iff_ne]
    rintro rfl
    exact hne hc
  rw [stripUnderscores, dropWhile_of_head (hnot hhead), dropWhile_of_head, List.reverse_reverse]
  rw [List.head?_reverse]
  exact hnot hlast

/-- Stripping a text that starts with a letter only drops characters at its end. -/
theorem stripUnderscores_of_letter {text : Text} (hletter : startsWithLetter text = true) :
    stripUnderscores text <+: text ∧ stripUnderscores text ≠ [] := by
  cases text with
  | nil => cases hletter
  | cons c text =>
      have hc : (c == '_') = false := by
        rw [beq_eq_false_iff_ne]
        rintro rfl
        rw [startsWithLetter] at hletter
        revert hletter
        decide
      have hfront : (c :: text).dropWhile (· == '_') = c :: text := by
        rw [List.dropWhile_cons_of_neg (by rw [hc]; exact Bool.false_ne_true)]
      rw [stripUnderscores, hfront]
      refine ⟨?_, ?_⟩
      · rw [← List.reverse_suffix, List.reverse_reverse]
        exact List.dropWhile_suffix _
      · intro hnil
        rw [List.reverse_eq_nil_iff, List.dropWhile_eq_nil_iff] at hnil
        have hmem := hnil c (List.mem_reverse.2 (List.mem_cons_self ..))
        rw [hc] at hmem
        cases hmem

theorem startsWithLetter_iff (text : Text) : startsWithLetter text = true ↔ ∃ c rest, text = c :: rest ∧ isSmall c = true := by
  cases text with
  | nil => simp [startsWithLetter]
  | cons c rest =>
      simp only [startsWithLetter, List.cons.injEq, isSmall]
      constructor
      · intro h
        exact ⟨c, rest, ⟨rfl, rfl⟩, h⟩
      · rintro ⟨_, _, ⟨rfl, rfl⟩, h⟩
        exact h

/-- The slug of a text before it is cut: no underscore at its start. -/
theorem head_stripUnderscores (text : Text) : (stripUnderscores text).head? ≠ some '_' := by
  intro hhead
  have hpre : stripUnderscores text <+: text.dropWhile (· == '_') := by
    rw [stripUnderscores, ← List.reverse_suffix, List.reverse_reverse]
    exact List.dropWhile_suffix _
  obtain ⟨tail, htail⟩ := hpre
  have hne : stripUnderscores text ≠ [] := by
    intro hnil
    rw [hnil] at hhead
    cases hhead
  have hdrop : '_' ∈ (text.dropWhile (· == '_')).head? := by
    rw [← htail, List.head?_append_of_ne_nil _ hne]
    exact hhead
  have hfalse := head_dropWhile _ _ hdrop
  simp at hfalse

/-- The slug form of a text is empty or has the shape of a slug. -/
theorem slugText_shape (value : Text) : slugText value = [] ∨ SlugShape (slugText value) := by
  have hcharacters := subRuns_characters false (lower (strip value))
  have hsingle := singleUnderscores_subRuns false (lower (strip value))
  rw [slugText]
  generalize hslug : (stripUnderscores (subRuns false (lower (strip value)))).take maxSlugLength = slug
  have hinside : slug <:+: subRuns false (lower (strip value)) := by
    rw [← hslug]
    exact (List.take_prefix _ _).isInfix.trans (stripUnderscores_infix_self _)
  have hslugcharacters : ∀ c ∈ slug, isSlugCharacter c = true ∨ c = '_' := fun c hc => hcharacters c (hinside.subset hc)
  have hslugsingle := hsingle.mono hinside
  have hhead : slug.head? ≠ some '_' := by
    rw [← hslug, List.head?_take, if_neg (by decide)]
    exact head_stripUnderscores _
  cases slug with
  | nil => exact Or.inl rfl
  | cons c rest =>
      right
      by_cases hletter : startsWithLetter (c :: rest) = true
      · rw [if_neg (fun h => h.2 hletter)]
        refine ⟨hletter, hslugcharacters, hslugsingle, ?_⟩
        rw [← hslug, List.length_take]
        exact Nat.min_le_left _ _
      · rw [if_pos ⟨List.cons_ne_nil _ _, hletter⟩]
        have htake : ("d_".toList ++ c :: rest).take maxSlugLength <:+: "d_".toList ++ c :: rest :=
          (List.take_prefix _ _).isInfix
        refine ⟨rfl, ?_, ?_, ?_⟩
        · intro d hd
          rcases List.mem_append.1 (htake.subset hd) with hd | hd
          · have hmem : d = 'd' ∨ d = '_' := by simpa using hd
            rcases hmem with rfl | rfl
            · exact Or.inl rfl
            · exact Or.inr rfl
          · exact hslugcharacters d hd
        · apply SingleUnderscores.mono _ htake
          apply singleUnderscores_cons (c := 'd') _ (fun h => absurd h (by decide))
          exact singleUnderscores_cons hslugsingle fun _ => hhead
        · rw [List.length_take]
          exact Nat.min_le_left _ _

/-! ### The shape of a key -/

theorem keyShape_of_slugShape {slug : Text} (h : SlugShape slug) : KeyShape (stripUnderscores slug) := by
  obtain ⟨hpre, hne⟩ := stripUnderscores_of_letter h.letter
  refine ⟨⟨?_, fun c hc => h.characters c (hpre.subset hc), h.single.mono hpre.isInfix,
    Nat.le_trans hpre.length_le h.length⟩, last_stripUnderscores slug⟩
  obtain ⟨tail, htail⟩ := hpre
  have hletter := h.letter
  cases hkey : stripUnderscores slug with
  | nil => exact absurd hkey hne
  | cons c rest =>
      rw [← htail, hkey] at hletter
      exact hletter

/-- The slugs of the built-in rules. -/
def builtinSlugs : List Text := homeDestinationKey :: builtinDestinations.map Prod.snd

theorem firstContained_builtin (text : Text) :
    firstContained builtinDestinations text
      = if contains text "WESTSIDE".toList then some "westside".toList
        else if contains text "LIBRARY EXPRESS".toList then some "library_express".toList
        else if contains text "NO AGENCY DESTINATION".toList then some "no_agency_destination".toList
        else none := by
  have hrules : ∀ first second third : Text × Text, firstContained [first, second, third] text
      = if contains text first.1 then some first.2
        else if contains text second.1 then some second.2
        else if contains text third.1 then some third.2
        else none := by
    intro first second third
    rw [firstContained_cons, firstContained_cons, firstContained_cons]
    rfl
  exact hrules _ _ _

theorem mapTransitLabelToV2Slug_mem (label : Text) :
    mapTransitLabelToV2Slug label = unknownDestination ∨ mapTransitLabelToV2Slug label ∈ builtinSlugs := by
  rw [mapTransitLabelToV2Slug]
  split
  · exact Or.inl rfl
  · split
    · exact Or.inr (List.mem_cons_self ..)
    · cases hfirst : firstContained builtinDestinations (upper (strip label)) with
      | none => exact Or.inl rfl
      | some slug =>
          right
          obtain ⟨rule, hfind, rfl⟩ := Option.map_eq_some_iff.1 hfirst
          exact List.mem_cons_of_mem _ (List.mem_map_of_mem (List.mem_of_find?_eq_some hfind))

instance (text : Text) : Decidable (SingleUnderscores text) := inferInstanceAs (Decidable (¬ _))

theorem keyShape_iff (key : Text) : KeyShape key ↔ startsWithLetter key = true
    ∧ (key.all fun c => isSlugCharacter c || c == '_') = true ∧ SingleUnderscores key ∧ key.length ≤ maxSlugLength
    ∧ key.getLast? ≠ some '_' := by
  have hall : (key.all fun c => isSlugCharacter c || c == '_') = true ↔ ∀ c ∈ key, isSlugCharacter c = true ∨ c = '_' := by
    simp only [List.all_eq_true, Bool.or_eq_true, beq_iff_eq]
  rw [hall]
  constructor
  · rintro ⟨⟨hletter, hcharacters, hsingle, hlength⟩, hending⟩
    exact ⟨hletter, hcharacters, hsingle, hlength, hending⟩
  · rintro ⟨hletter, hcharacters, hsingle, hlength, hending⟩
    exact ⟨⟨hletter, hcharacters, hsingle, hlength⟩, hending⟩

instance (key : Text) : Decidable (KeyShape key) := decidable_of_iff' _ (keyShape_iff key)

theorem keyShape_builtinSlugs : ∀ key ∈ unknownDestination :: builtinSlugs, KeyShape key := by
  decide +kernel

/-- Every destination key has the shape of a key. -/
theorem keyShape_destinationKey (value : Option Text) : KeyShape (destinationKey value) := by
  cases value with
  | none => exact keyShape_builtinSlugs _ (List.mem_cons_self ..)
  | some value =>
      rw [destinationKey]
      by_cases hbuiltin : mapTransitLabelToV2Slug value = unknownDestination
      · rw [if_neg (not_not.2 hbuiltin)]
        rcases slugText_shape value with hnil | hshape
        · simp only [hnil]
          exact keyShape_builtinSlugs _ (List.mem_cons_self ..)
        · have hkey := keyShape_of_slugShape hshape
          have hne : stripUnderscores (slugText value) ≠ [] := (stripUnderscores_of_letter hshape.letter).2
          dsimp only
          rw [if_neg hne]
          exact hkey
      · rw [if_pos hbuiltin]
        apply keyShape_builtinSlugs
        exact List.mem_cons_of_mem _ ((mapTransitLabelToV2Slug_mem value).resolve_left hbuiltin)

/-! ### The key of a key -/

theorem toNat_of_key_character {c : Char} (hc : isSlugCharacter c = true ∨ c = '_') :
    97 ≤ c.toNat ∧ c.toNat ≤ 122 ∨ 48 ≤ c.toNat ∧ c.toNat ≤ 57 ∨ c.toNat = 95 := by
  rcases hc with hc | rfl
  · have hrange := (isSlugCharacter_iff c).1 hc
    omega
  · exact Or.inr (Or.inr rfl)

theorem not_isSpace_of_key_character {c : Char} (hc : isSlugCharacter c = true ∨ c = '_') : isSpace c = false := by
  have hrange := toNat_of_key_character hc
  rw [← Bool.not_eq_true, isSpace_iff_inRun]
  simp only [spaceRuns, InRun, List.mem_cons, List.not_mem_nil, or_false, exists_eq_or_imp, exists_eq_left]
  omega

theorem lowerChar_of_key_character {c : Char} (hc : isSlugCharacter c = true ∨ c = '_') : lowerChar c = [c] := by
  have hrange := toNat_of_key_character hc
  apply lowerChar_of_not_isCapital (by omega)
  rw [← Bool.not_eq_true, isCapital_iff]
  omega

theorem upperChar_of_key_character {c : Char} (hc : isSlugCharacter c = true ∨ c = '_') : upperChar c = [capital c] := by
  have hrange := toNat_of_key_character hc
  by_cases hsmall : isSmall c = true
  · exact upperChar_of_isSmall hsmall
  · rw [isSmall_iff] at hsmall
    rw [upperChar_of_lt (by omega), capital, if_neg (by rwa [isSmall_iff])]

/-- The small letter of a capital. -/
def uncapital (c : Char) : Char := if isCapital c then Char.ofNat (c.toNat + 32) else c

theorem uncapital_capital {c : Char} (hc : isSlugCharacter c = true ∨ c = '_') : uncapital (capital c) = c := by
  have hrange := toNat_of_key_character hc
  by_cases hsmall : isSmall c = true
  · have hbounds := (isSmall_iff c).1 hsmall
    have htoNat : (Char.ofNat (c.toNat - 32)).toNat = c.toNat - 32 := toNat_ofNat (Or.inl (by omega))
    have hcapital : isCapital (Char.ofNat (c.toNat - 32)) = true := by
      rw [isCapital_iff, htoNat]
      omega
    rw [capital, if_pos hsmall, uncapital, if_pos hcapital, htoNat, Nat.sub_add_cancel (by omega), Char.ofNat_toNat]
  · have hnot : ¬ isCapital c = true := by
      rw [isCapital_iff]
      rw [isSmall_iff] at hsmall
      omega
    rw [capital, if_neg hsmall, uncapital, if_neg hnot]

section Key

variable {key : Text} (hkey : KeyShape key)

include hkey

theorem KeyShape.strip_eq : strip key = key := by
  apply Trimmed.strip_eq
  constructor
  · intro c hc
    exact not_isSpace_of_key_character (hkey.characters c (List.mem_of_mem_head? hc))
  · intro c hc
    exact not_isSpace_of_key_character (hkey.characters c (List.mem_of_getLast? hc))

theorem KeyShape.lower_eq : lower key = key := by
  rw [lower, List.flatMap_congr fun c hc => lowerChar_of_key_character (hkey.characters c hc)]
  exact List.flatMap_singleton' _

theorem KeyShape.upper_eq : upper key = key.map capital := by
  rw [upper, List.flatMap_congr fun c hc => upperChar_of_key_character (hkey.characters c hc), List.map_eq_flatMap]

theorem KeyShape.uncapital_upper : (upper key).map uncapital = key := by
  rw [hkey.upper_eq, List.map_map]
  exact (List.map_congr_left fun c hc => uncapital_capital (hkey.characters c hc)).trans (List.map_id' key)

theorem KeyShape.head_ne : key.head? ≠ some '_' := by
  obtain ⟨c, rest, rfl, hc⟩ := (startsWithLetter_iff key).1 hkey.letter
  intro hhead
  rw [List.head?_cons, Option.some.injEq] at hhead
  rw [hhead] at hc
  revert hc
  decide

theorem KeyShape.ne_nil : key ≠ [] := by
  rintro rfl
  cases hkey.letter

omit hkey in
/-- Single underscores between slug characters are left as they are. -/
theorem subRuns_eq {text : Text} (hcharacters : ∀ c ∈ text, isSlugCharacter c = true ∨ c = '_')
    (hsingle : SingleUnderscores text) (inRun : Bool) (hstart : inRun = true → text.head? ≠ some '_') :
    subRuns inRun text = text := by
  induction text generalizing inRun with
  | nil => rfl
  | cons c text ih =>
      have hrest := ih (fun d hd => hcharacters d (List.mem_cons_of_mem _ hd)) (hsingle.mono (List.suffix_cons c text).isInfix)
      rw [subRuns]
      by_cases hc : isSlugCharacter c = true
      · rw [if_pos hc, hrest false (fun h => absurd h Bool.false_ne_true)]
      · obtain rfl := (hcharacters c (List.mem_cons_self ..)).resolve_left hc
        rw [if_neg hc]
        cases inRun with
        | true => exact absurd rfl (hstart rfl)
        | false =>
            rw [if_neg Bool.false_ne_true, hrest true]
            intro _ hhead
            obtain ⟨tail, rfl⟩ := List.head?_eq_some_iff.1 hhead
            exact hsingle ⟨[], tail, rfl⟩

/-- A key is its own slug form. -/
theorem KeyShape.slugText_eq : slugText key = key := by
  rw [slugText, hkey.strip_eq, hkey.lower_eq,
    subRuns_eq hkey.characters hkey.single false (fun h => absurd h Bool.false_ne_true),
    stripUnderscores_eq hkey.head_ne hkey.ending, List.take_of_length_le hkey.length]
  exact if_neg fun h => h.2 hkey.letter

theorem KeyShape.stripUnderscores_eq : stripUnderscores key = key :=
  SortView.stripUnderscores_eq hkey.head_ne hkey.ending

/-- A word in the capitals of a key is there in small letters. -/
theorem KeyShape.contains_upper_iff (word : Text) (hword : ∀ c ∈ word, isSmall c = true) :
    contains (upper key) (word.map capital) = true ↔ word <:+: key := by
  rw [contains, decide_eq_true_eq]
  constructor
  · intro hinside
    have hback := hinside.map uncapital
    rw [hkey.uncapital_upper, List.map_map] at hback
    have hsame : word.map (uncapital ∘ capital) = word := by
      refine (List.map_congr_left fun c hc => ?_).trans (List.map_id' word)
      apply uncapital_capital
      exact Or.inl ((isSlugCharacter_iff c).2 (Or.inl ((isSmall_iff c).1 (hword c hc))))
    rwa [hsame] at hback
  · intro hinside
    rw [hkey.upper_eq]
    exact hinside.map capital

theorem KeyShape.not_contains_space (needle : Text) (hneedle : ' ' ∈ needle) : contains (upper key) needle = false := by
  rw [contains, decide_eq_false_iff_not]
  intro hinside
  have hspace := hinside.subset hneedle
  rw [hkey.upper_eq, List.mem_map] at hspace
  obtain ⟨c, hc, hcapital⟩ := hspace
  have hback := uncapital_capital (hkey.characters c hc)
  rw [hcapital] at hback
  have hrange := toNat_of_key_character (hkey.characters c hc)
  rw [← hback] at hrange
  revert hrange
  decide

/-- The built-in rules on a key: the words for home, and keys that hold `westside`. -/
theorem KeyShape.mapTransitLabelToV2Slug_eq :
    mapTransitLabelToV2Slug key
      = if key = "local".toList ∨ key = homeDestinationKey then homeDestinationKey
        else if "westside".toList <:+: key then "westside".toList
        else unknownDestination := by
  have hupper : upper key ≠ [] := by
    rw [Ne, upper_eq_nil_iff]
    exact hkey.ne_nil
  have halias : upper key ∈ homeAliases ↔ key = "local".toList ∨ key = homeDestinationKey := by
    constructor
    · intro hmem
      have hback := hkey.uncapital_upper
      simp only [homeAliases, List.mem_cons, List.not_mem_nil, or_false] at hmem
      rcases hmem with hone | hlocal | hmain
      · exfalso
        have hletter := hkey.letter
        rw [← hback, hone] at hletter
        exact absurd hletter (by decide)
      · left
        rw [← hback, hlocal]
        decide
      · right
        rw [← hback, hmain]
        decide
    · rintro (rfl | rfl)
      · decide +kernel
      · decide +kernel
  have hwestside := hkey.contains_upper_iff "westside".toList (List.all_eq_true.1 (by decide))
  rw [show "westside".toList.map capital = "WESTSIDE".toList by decide] at hwestside
  have hexpress := hkey.not_contains_space "LIBRARY EXPRESS".toList (by decide)
  have hagency := hkey.not_contains_space "NO AGENCY DESTINATION".toList (by decide)
  rw [mapTransitLabelToV2Slug, hkey.strip_eq, firstContained_builtin, hexpress, hagency]
  simp only [if_neg hupper, halias]
  by_cases hhome : key = "local".toList ∨ key = homeDestinationKey
  · rw [if_pos hhome, if_pos hhome]
  · rw [if_neg hhome, if_neg hhome]
    by_cases hinside : "westside".toList <:+: key
    · rw [if_pos hinside, hwestside.2 hinside]
      rfl
    · have hnot : contains (upper key) "WESTSIDE".toList = false :=
        Bool.eq_false_iff.2 fun h => hinside (hwestside.1 h)
      rw [if_neg hinside, hnot]
      rfl

end Key

theorem slug_characters_of_small {word : Text} (hword : ∀ c ∈ word, isSmall c = true) :
    ∀ c ∈ word, isSlugCharacter c = true :=
  fun c hc => (isSlugCharacter_iff c).2 (Or.inl ((isSmall_iff c).1 (hword c hc)))

/-- A word of a slug form was in the text in small letters. -/
theorem word_of_slugText {word value : Text} (hword : ∀ c ∈ word, isSlugCharacter c = true) (hne : word ≠ [])
    (hd : word.head? ≠ some 'd') (h : word <:+: slugText value) : word <:+: lower (strip value) := by
  have hcut : ∀ text : Text, word <:+: text.take maxSlugLength → word <:+: text :=
    fun text hinside => hinside.trans (List.take_prefix _ _).isInfix
  have hslug : word <:+: (stripUnderscores (subRuns false (lower (strip value)))).take maxSlugLength := by
    rw [slugText] at h
    split at h
    · obtain ⟨c, word, rfl⟩ := List.exists_cons_of_ne_nil hne
      have hinside : c :: word <:+: 'd' :: '_' :: _ := hcut _ h
      rcases List.infix_cons_iff.1 hinside with hpre | hinside
      · exact absurd (congrArg some (List.cons_prefix_cons.1 hpre).1) hd
      · rcases List.infix_cons_iff.1 hinside with hpre | hinside
        · have hc := hword c (List.mem_cons_self ..)
          rw [(List.cons_prefix_cons.1 hpre).1, not_isSlugCharacter_underscore] at hc
          cases hc
        · exact hinside
    · exact h
  exact word_of_subRuns hword hne false ((hcut _ hslug).trans (stripUnderscores_infix_self _))

theorem not_westside_of_unknown {value : Text} (hunknown : mapTransitLabelToV2Slug value = unknownDestination) :
    ¬ "westside".toList <:+: slugText value := by
  intro hinside
  have hsmall : ∀ c ∈ "westside".toList, isSmall c = true := List.all_eq_true.1 (by decide)
  have hletters : ∀ c ∈ "westside".toList, isSmall c = true ∧ c ≠ 'k' := by
    intro c hc
    refine ⟨hsmall c hc, ?_⟩
    rintro rfl
    exact absurd hc (by decide)
  have hlower := word_of_slugText (slug_characters_of_small hsmall) (by decide) (by decide) hinside
  have hupper := upper_contains_of_lower_contains hletters (by decide) hlower
  rw [show "westside".toList.map capital = "WESTSIDE".toList by decide] at hupper
  have hcontains : contains (upper (strip value)) "WESTSIDE".toList = true := decide_eq_true hupper
  rw [mapTransitLabelToV2Slug, firstContained_builtin, hcontains] at hunknown
  by_cases hempty : upper (strip value) = []
  · rw [hempty] at hupper
    exact absurd (List.infix_nil.1 hupper) (by decide)
  · simp only [if_neg hempty] at hunknown
    split at hunknown
    · exact absurd hunknown (by decide)
    · rw [if_pos trivial] at hunknown
      exact absurd hunknown (by decide)

/-- A key keyed again is the same key, except that `local` is read as a word for home. -/
theorem destinationKey_destinationKey (value : Option Text) :
    destinationKey (some (destinationKey value))
      = if destinationKey value = "local".toList then homeDestinationKey else destinationKey value := by
  have hkey := keyShape_destinationKey value
  have hwestside : "westside".toList <:+: destinationKey value → destinationKey value = "westside".toList := by
    intro hinside
    cases value with
    | none => exact absurd hinside (by decide)
    | some value =>
        rw [destinationKey] at hinside ⊢
        by_cases hbuiltin : mapTransitLabelToV2Slug value = unknownDestination
        · exfalso
          rw [if_neg (not_not.2 hbuiltin)] at hinside
          dsimp only at hinside
          split at hinside
          · revert hinside
            decide
          · exact not_westside_of_unknown hbuiltin (hinside.trans (stripUnderscores_infix_self _))
        · rw [if_pos hbuiltin] at hinside ⊢
          have hmem := (mapTransitLabelToV2Slug_mem value).resolve_left hbuiltin
          revert hinside
          generalize mapTransitLabelToV2Slug value = slug at hmem ⊢
          revert slug
          decide +kernel
  rw [destinationKey, hkey.mapTransitLabelToV2Slug_eq]
  generalize destinationKey value = key at *
  by_cases hlocal : key = "local".toList
  · rw [if_pos (Or.inl hlocal), if_pos hlocal]
    rfl
  · rw [if_neg hlocal]
    by_cases hmain : key = homeDestinationKey
    · rw [if_pos (Or.inr hmain), hmain]
      rfl
    · rw [if_neg (not_or.2 ⟨hlocal, hmain⟩)]
      by_cases hinside : "westside".toList <:+: key
      · rw [if_pos hinside, hwestside hinside]
        rfl
      · rw [if_neg hinside]
        simp only [ne_eq, not_true_eq_false, if_false, hkey.slugText_eq, hkey.stripUnderscores_eq, if_neg hkey.ne_nil]

end SortView
