import SortView.Services.CollectorRules
import SortView.Services.DestinationKeys

/-!
# How far a destination key is stable

A key is a slug of the contract. Keyed again it is the same key, except that `local` is read as a word for home; and a slug that a
configured destination can have is its own key unless it is read as one of the built-in words or ends where it was cut.
-/

namespace SortView

open PyText

/-! ### The key of a key -/

section KeyShape

variable {key : Text} (hkey : KeyShape key)

include hkey

/-- What a text in the shape of a key is keyed as. -/
theorem KeyShape.destinationKey_eq :
    destinationKey (some key)
      = if key = "local".toList ∨ key = homeDestinationKey then homeDestinationKey
        else if "westside".toList <:+: key then "westside".toList
        else key := by
  rw [destinationKey, hkey.mapTransitLabelToV2Slug_eq]
  by_cases hhome : key = "local".toList ∨ key = homeDestinationKey
  · rw [if_pos hhome, if_pos hhome]
    rfl
  · rw [if_neg hhome, if_neg hhome]
    by_cases hinside : "westside".toList <:+: key
    · rw [if_pos hinside, if_pos hinside]
      rfl
    · rw [if_neg hinside, if_neg hinside]
      simp only [ne_eq, not_true_eq_false, if_false, hkey.slugText_eq, hkey.stripUnderscores_eq, if_neg hkey.ne_nil]

end KeyShape

/-- A slug of a configured destination is its own key unless it is a built-in word, holds one, or was cut at an underscore. -/
theorem destinationKey_slug_iff {slug : Text} (hshape : SlugShape slug) :
    destinationKey (some slug) = slug
      ↔ slug ≠ "local".toList ∧ ("westside".toList <:+: slug → slug = "westside".toList) ∧ slug.getLast? ≠ some '_' := by
  constructor
  · intro hsame
    have hkey : KeyShape slug := hsame ▸ keyShape_destinationKey (some slug)
    rw [hkey.destinationKey_eq] at hsame
    refine ⟨?_, ?_, hkey.ending⟩
    · rintro rfl
      exact absurd hsame (by decide)
    · intro hinside
      split at hsame
      · rw [← hsame] at hinside
        exact absurd hinside (by decide)
      · exact hsame.symm
  · rintro ⟨hlocal, hwestside, hending⟩
    have hkey : KeyShape slug := ⟨hshape, hending⟩
    rw [hkey.destinationKey_eq]
    split
    · next hhome => exact (hhome.resolve_left hlocal).symm
    · split
      · next hinside => exact (hwestside hinside).symm
      · rfl

/-! ### The word that is not kept -/

/-- The text is the word `local`, in any case, with nothing but characters around it that no slug has. -/
def LocalAlone (value : Text) : Prop :=
  mapTransitLabelToV2Slug value = unknownDestination
    ∧ ∃ before after, lower (strip value) = before ++ "local".toList ++ after ∧ ∀ c ∈ before ++ after, isSlugCharacter c = false

theorem filter_subRuns (inRun : Bool) (text : Text) : (subRuns inRun text).filter isSlugCharacter = text.filter isSlugCharacter := by
  induction text generalizing inRun with
  | nil => rfl
  | cons c text ih =>
      rw [subRuns]
      by_cases hc : isSlugCharacter c = true
      · rw [if_pos hc, List.filter_cons_of_pos hc, List.filter_cons_of_pos hc, ih]
      · rw [if_neg hc, List.filter_cons_of_neg hc]
        cases inRun with
        | true => exact ih true
        | false =>
            rw [if_neg Bool.false_ne_true, List.filter_cons_of_neg (by decide)]
            exact ih true

theorem subRuns_word {word : Text} (hword : ∀ c ∈ word, isSlugCharacter c = true) (hne : word ≠ []) (inRun : Bool) (rest : Text) :
    subRuns inRun (word ++ rest) = word ++ subRuns false rest := by
  induction word generalizing inRun with
  | nil => exact absurd rfl hne
  | cons c word ih =>
      rw [List.cons_append, subRuns, if_pos (hword c List.mem_cons_self)]
      by_cases hend : word = []
      · rw [hend]
        rfl
      · rw [ih (fun other hother => hword other (List.mem_cons_of_mem c hother)) hend]
        rfl

/-- Characters that no slug has become one underscore, or none within a run. -/
theorem subRuns_gap {gap : Text} (hgap : ∀ c ∈ gap, isSlugCharacter c = false) (inRun : Bool) (rest : Text) :
    subRuns inRun (gap ++ rest) = (if gap = [] ∨ inRun = true then [] else ['_']) ++ subRuns (inRun || !gap.isEmpty) rest := by
  induction gap generalizing inRun with
  | nil => cases inRun <;> rfl
  | cons c gap ih =>
      have hc : ¬ isSlugCharacter c = true := by
        rw [hgap c List.mem_cons_self]
        exact Bool.false_ne_true
      have hrest := ih (fun other hother => hgap other (List.mem_cons_of_mem c hother)) true
      rw [List.cons_append, subRuns, if_neg hc, hrest]
      cases inRun <;> simp

theorem stripUnderscores_local {before after : Text} (hgaps : ∀ c ∈ before ++ after, isSlugCharacter c = false) :
    stripUnderscores (subRuns false (before ++ "local".toList ++ after)) = "local".toList := by
  have hbefore : ∀ c ∈ before, isSlugCharacter c = false := fun c hc => hgaps c (List.mem_append_left _ hc)
  have hafter : ∀ c ∈ after, isSlugCharacter c = false := fun c hc => hgaps c (List.mem_append_right _ hc)
  have hword : ∀ c ∈ "local".toList, isSlugCharacter c = true :=
    List.all_eq_true.1 (by decide)
  have hend := subRuns_gap hafter false []
  rw [List.append_nil] at hend
  rw [List.append_assoc, subRuns_gap hbefore, subRuns_word hword (by decide), hend]
  split <;> split <;> simp only [subRuns, List.nil_append, List.append_nil] <;> decide

/-- What is left of a text when its underscores at both ends are dropped has the same other characters. -/
theorem filter_stripUnderscores (text : Text) :
    (stripUnderscores text).filter isSlugCharacter = text.filter isSlugCharacter := by
  have hdrop : ∀ text : Text, (text.dropWhile (· == '_')).filter isSlugCharacter = text.filter isSlugCharacter := by
    intro text
    induction text with
    | nil => rfl
    | cons c text ih =>
        by_cases hc : c = '_'
        · subst hc
          exact ih
        · rw [List.dropWhile_cons_of_neg (by simpa using hc)]
  rw [stripUnderscores, List.filter_reverse, hdrop, List.filter_reverse, List.reverse_reverse, hdrop]

theorem stripUnderscores_eq_local_iff {text : Text} :
    stripUnderscores (subRuns false text) = "local".toList
      ↔ ∃ before after, text = before ++ "local".toList ++ after ∧ ∀ c ∈ before ++ after, isSlugCharacter c = false := by
  constructor
  · intro h
    have hword : ∀ c ∈ "local".toList, isSlugCharacter c = true :=
    List.all_eq_true.1 (by decide)
    have hinside : "local".toList <:+: text := by
      apply word_of_subRuns hword (by decide) false
      rw [← h]
      exact stripUnderscores_infix_self _
    obtain ⟨before, after, rfl⟩ := hinside
    refine ⟨before, after, rfl, ?_⟩
    have hfilter := filter_stripUnderscores (subRuns false (before ++ "local".toList ++ after))
    rw [filter_subRuns, h, List.filter_append, List.filter_append] at hfilter
    have hlength := congrArg List.length hfilter
    rw [List.length_append, List.length_append] at hlength
    have hbefore : before.filter isSlugCharacter = [] := List.eq_nil_of_length_eq_zero (by omega)
    have hafter : after.filter isSlugCharacter = [] := List.eq_nil_of_length_eq_zero (by omega)
    intro c hc
    rw [← Bool.not_eq_true]
    rcases List.mem_append.1 hc with hc | hc
    · exact List.filter_eq_nil_iff.1 hbefore c hc
    · exact List.filter_eq_nil_iff.1 hafter c hc
  · rintro ⟨before, after, rfl, hgaps⟩
    exact stripUnderscores_local hgaps

/-- Underscores that no two stand together are at most one. -/
theorem length_le_one_of_single {rest : Text} (hsingle : SingleUnderscores rest) (hall : ∀ c ∈ rest, c = '_') : rest.length ≤ 1 := by
  cases rest with
  | nil => exact Nat.zero_le 1
  | cons first rest =>
      cases rest with
      | nil => exact Nat.le_refl 1
      | cons second rest =>
          exfalso
          apply hsingle
          rw [hall first List.mem_cons_self, hall second (List.mem_cons_of_mem _ List.mem_cons_self)]
          exact ⟨[], rest, rfl⟩

/-- A slug that is `local` once its last underscores are dropped was not cut. -/
theorem stripUnderscores_slugText_eq_local_iff {value : Text} :
    stripUnderscores (slugText value) = "local".toList ↔ stripUnderscores (subRuns false (lower (strip value))) = "local".toList := by
  rw [slugText]
  have hcharacters : ∀ c ∈ stripUnderscores (subRuns false (lower (strip value))), isSlugCharacter c = true ∨ c = '_' :=
    fun c hc => subRuns_characters false _ c ((stripUnderscores_infix_self _).subset hc)
  have hsingle : SingleUnderscores (stripUnderscores (subRuns false (lower (strip value)))) :=
    (singleUnderscores_subRuns false _).mono (stripUnderscores_infix_self _)
  have hlast := last_stripUnderscores (subRuns false (lower (strip value)))
  generalize stripUnderscores (subRuns false (lower (strip value))) = slug at *
  constructor
  · intro h
    split at h
    · -- the text that is cut starts with the letter that was put before it
      have hletter : startsWithLetter (("d_".toList ++ slug.take maxSlugLength).take maxSlugLength) = true := rfl
      obtain ⟨hbegins, -⟩ := stripUnderscores_of_letter hletter
      rw [h] at hbegins
      obtain ⟨rest, hrest⟩ := hbegins
      cases hrest
    · next hnot =>
      have hletter : startsWithLetter (slug.take maxSlugLength) = true := by
        by_contra hno
        rw [not_and_or, not_not, not_not] at hnot
        have hnil := hnot.resolve_right hno
        rw [hnil] at h
        cases h
      obtain ⟨hbegins, -⟩ := stripUnderscores_of_letter hletter
      have hfilter := filter_stripUnderscores (slug.take maxSlugLength)
      rw [h] at hbegins hfilter
      obtain ⟨rest, hrest⟩ := hbegins
      rw [← hrest, List.filter_append] at hfilter
      have hnone : rest.filter isSlugCharacter = [] := by
        have hlength := congrArg List.length hfilter
        rw [List.length_append] at hlength
        exact List.eq_nil_of_length_eq_zero (by omega)
      have htake : slug.take maxSlugLength <+: slug := List.take_prefix _ _
      have hunderscores : ∀ c ∈ rest, c = '_' := by
        intro c hc
        have hmem : c ∈ slug := htake.subset (hrest ▸ List.mem_append_right _ hc)
        exact (hcharacters c hmem).resolve_left (List.filter_eq_nil_iff.1 hnone c hc)
      have hshort := length_le_one_of_single ((hsingle.mono htake.isInfix).mono ⟨"local".toList, [], by rw [List.append_nil, hrest]⟩) hunderscores
      have hlength := congrArg List.length hrest
      rw [List.length_append, List.length_take] at hlength
      have hword : "local".toList.length = 5 := rfl
      have hmax : maxSlugLength = 32 := rfl
      rw [List.take_of_length_le (by omega)] at hrest
      cases rest with
      | nil => rw [← hrest, List.append_nil]
      | cons first others =>
          have hnil : others = [] := List.eq_nil_of_length_eq_zero (by rw [List.length_cons] at hshort; omega)
          rw [← hrest, hnil, hunderscores first List.mem_cons_self] at hlast
          exact absurd rfl hlast
  · rintro rfl
    decide

/-- The texts that are keyed as `local`. -/
theorem destinationKey_eq_local_iff {value : Text} : destinationKey (some value) = "local".toList ↔ LocalAlone value := by
  rw [destinationKey]
  by_cases hbuiltin : mapTransitLabelToV2Slug value = unknownDestination
  · have hslug : (if stripUnderscores (slugText value) = [] then unknownDestination else stripUnderscores (slugText value))
        = "local".toList ↔ stripUnderscores (slugText value) = "local".toList := by
      split
      · next hnil =>
        rw [hnil]
        decide
      · exact Iff.rfl
    dsimp only
    rw [if_neg (not_not.2 hbuiltin), hslug, stripUnderscores_slugText_eq_local_iff, stripUnderscores_eq_local_iff, LocalAlone,
      and_iff_right hbuiltin]
  · have hmem := (mapTransitLabelToV2Slug_mem value).resolve_left hbuiltin
    have hnot : ∀ slug ∈ builtinSlugs, slug ≠ "local".toList := by decide
    rw [if_pos hbuiltin]
    exact iff_of_false (hnot _ hmem) fun halone => hbuiltin halone.1

/-! ### Main result -/

/-- A slug as the contract has it. -/
theorem isDestinationSlug_destinationKey (value : Option Text) : isDestinationSlug (destinationKey value) = true := by
  have hkey := keyShape_destinationKey value
  exact isDestinationSlug_of_shape hkey.letter hkey.characters hkey.length

theorem slugShape_of_slugify {value slug : Text} (h : slugify value = some slug) : SlugShape slug := by
  rw [slugify] at h
  split at h
  · next hslug =>
    cases h
    apply (slugText_shape value).resolve_left
    intro hnil
    rw [hnil] at hslug
    cases hslug
  · cases h

/-- Every key is a slug of the contract. A text's key is its own key just if the text is not `local` alone among characters that no
slug has, and a slug of a configured destination just if it is not `local`, holds no built-in word but itself, and was not cut at an
underscore. -/
theorem destination_key_stable_iff (value : Text) :
    isDestinationSlug (destinationKey (some value)) = true
      ∧ (destinationKey (some (destinationKey (some value))) = destinationKey (some value) ↔ ¬ LocalAlone value)
      ∧ ∀ slug : Text, slugify value = some slug →
        (destinationKey (some slug) = slug
          ↔ slug ≠ "local".toList ∧ ("westside".toList <:+: slug → slug = "westside".toList) ∧ slug.getLast? ≠ some '_') := by
  refine ⟨isDestinationSlug_destinationKey _, ?_, ?_⟩
  · rw [destinationKey_destinationKey, ← destinationKey_eq_local_iff]
    by_cases hlocal : destinationKey (some value) = "local".toList
    · rw [if_pos hlocal, hlocal]
      decide
    · rw [if_neg hlocal]
      exact iff_of_true rfl hlocal
  · intro slug h
    exact destinationKey_slug_iff (slugShape_of_slugify h)

/-- A destination with a full stop after its name, and the key of its key. -/
theorem destination_key_stable_iff_annex : destinationKey (some (destinationKey (some "West Annex.".toList))) = "west_annex".toList
    ∧ destinationKey (some "west_annex".toList) = "west_annex".toList := by
  have hslug : slugify "West Annex.".toList = some "west_annex".toList := by decide +kernel
  have hkey : destinationKey (some "West Annex.".toList) = "west_annex".toList := by decide +kernel
  have hsame := ((destination_key_stable_iff _).2.2 _ hslug).2 (by decide +kernel)
  exact ⟨by rw [hkey, hsame], hsame⟩

/-- A key that is keyed again as home, and two slugs of configured destinations that are not their own keys. -/
theorem destination_key_not_stable :
    destinationKey (some "Local.".toList) = "local".toList ∧ destinationKey (some "local".toList) = "main".toList
      ∧ slugify "Westside Annex".toList = some "westside_annex".toList
      ∧ destinationKey (some "westside_annex".toList) = "westside".toList
      ∧ slugify "Friends of the Southern Library 2".toList = some "friends_of_the_southern_library_".toList
      ∧ destinationKey (some "friends_of_the_southern_library_".toList) = "friends_of_the_southern_library".toList := by
  decide +kernel

end SortView
