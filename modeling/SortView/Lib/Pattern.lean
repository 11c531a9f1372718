import SortView.Lib.Text

/-!
# Patterns and redactions

Regular expressions as a backtracking matcher reads them, and the substitution that keeps the first group of each match
and puts a mark in place of the rest. What such a substitution leaves in place: a text opens with the same plain word
before and after it.
-/

namespace PyText

/-! ### Patterns -/

/-- A pattern of single characters, runs, sequences and choices. -/
inductive Pattern where
  | empty
  | one (accepts : Char → Bool)
  | many (accepts : Char → Bool) (least : Nat)
  | seq (first second : Pattern)
  | alt (first second : Pattern)

namespace Pattern

def optional (pattern : Pattern) : Pattern := alt pattern empty

/-- A word, where `accepts` compares a letter of it with a character. -/
def word (accepts : Char → Char → Bool) (letters : Text) : Pattern :=
  letters.foldr (fun letter rest => seq (one (accepts letter)) rest) empty

/-- The matches at the start of a text in the order in which they are tried, each with what follows it. A run takes as
many characters as it can first. -/
def ends : Pattern → Text → List (Text × Text)
  | empty, text => [([], text)]
  | one _, [] => []
  | one accepts, c :: text => if accepts c then [([c], text)] else []
  | many accepts least, text =>
      let run := (text.takeWhile accepts).length
      (List.range (run + 1 - least)).map fun back => (text.take (run - back), text.drop (run - back))
  | seq first second, text =>
      (first.ends text).flatMap fun start => (second.ends start.2).map fun stop => (start.1 ++ stop.1, stop.2)
  | alt first second, text => first.ends text ++ second.ends text

/-- The texts of a pattern. -/
def Matches : Pattern → Text → Prop
  | empty, text => text = []
  | one accepts, text => ∃ c, accepts c = true ∧ text = [c]
  | many accepts least, text => least ≤ text.length ∧ ∀ c ∈ text, accepts c = true
  | seq first second, text => ∃ left right, first.Matches left ∧ second.Matches right ∧ text = left ++ right
  | alt first second, text => first.Matches text ∨ second.Matches text

/-- A match is the start of the text, and a text of the pattern. -/
theorem ends_sound {pattern : Pattern} {text matched rest : Text} (h : (matched, rest) ∈ pattern.ends text) :
    text = matched ++ rest ∧ pattern.Matches matched := by
  induction pattern generalizing text matched rest with
  | empty =>
      cases List.mem_singleton.1 h
      exact ⟨rfl, rfl⟩
  | one accepts =>
      cases text with
      | nil => cases h
      | cons c text =>
          rw [ends] at h
          split at h
          · next hc =>
            cases List.mem_singleton.1 h
            exact ⟨rfl, c, hc, rfl⟩
          · cases h
  | many accepts least =>
      obtain ⟨back, hback, heq⟩ := List.mem_map.1 h
      cases heq
      have hrange := List.mem_range.1 hback
      refine ⟨(List.take_append_drop ..).symm, ?_, ?_⟩
      · have hrun : (text.takeWhile accepts).length ≤ text.length := (@List.takeWhile_prefix _ text accepts).length_le
        rw [List.length_take]
        omega
      · intro c hc
        have hrun := List.prefix_iff_eq_take.1 (@List.takeWhile_prefix _ text accepts)
        have htake : text.take ((text.takeWhile accepts).length - back)
            = (text.takeWhile accepts).take ((text.takeWhile accepts).length - back) := by
          conv_rhs => rw [hrun]
          rw [List.take_take, ← hrun, Nat.min_eq_left (Nat.sub_le ..)]
        rw [htake] at hc
        exact List.all_eq_true.1 List.all_takeWhile c (List.mem_of_mem_take hc)
  | seq first second ihFirst ihSecond =>
      obtain ⟨⟨left, middle⟩, hstart, h⟩ := List.mem_flatMap.1 h
      obtain ⟨⟨right, last⟩, hstop, heq⟩ := List.mem_map.1 h
      cases heq
      obtain ⟨htext, hleft⟩ := ihFirst hstart
      obtain ⟨hmiddle, hright⟩ := ihSecond hstop
      refine ⟨?_, left, right, hleft, hright, rfl⟩
      rw [htext, List.append_assoc, ← hmiddle]
  | alt first second ihFirst ihSecond =>
      rcases List.mem_append.1 h with h | h
      · exact ⟨(ihFirst h).1, Or.inl (ihFirst h).2⟩
      · exact ⟨(ihSecond h).1, Or.inr (ihSecond h).2⟩

end Pattern

/-! ### Redactions -/

/-- `re.sub` of `(kept)dropped`, after a word boundary or anywhere, by the first group and a mark. -/
structure Redaction where
  boundary : Bool
  kept : Pattern
  dropped : Pattern
  mark : Text

/-- `\b` between two characters. -/
def wordBoundary (isWord : Char → Bool) (before after : Option Char) : Bool := before.any isWord != after.any isWord

/-- The first match at the start of a text: what is kept, what is dropped, and what follows. -/
def Redaction.find (isWord : Char → Bool) (rule : Redaction) (before : Option Char) (text : Text) : Option (Text × Text × Text) :=
  if rule.boundary && !wordBoundary isWord before text.head? then none
  else ((rule.kept.ends text).flatMap fun kept =>
    (rule.dropped.ends kept.2).map fun dropped => (kept.1, dropped.1, dropped.2)).head?

/-- The substitution after a character; a match is not empty, so that a step for each character is enough. -/
def Redaction.subFrom (isWord : Char → Bool) (rule : Redaction) : Nat → Option Char → Text → Text
  | 0, _, text => text
  | _ + 1, _, [] => []
  | steps + 1, before, c :: text =>
      match rule.find isWord before (c :: text) with
      | some (kept, dropped, rest) => kept ++ (rule.mark ++ rule.subFrom isWord steps (kept ++ dropped).getLast? rest)
      | none => c :: rule.subFrom isWord steps (some c) text

/-- `pattern.sub(r"\1" + mark, text)`. -/
def Redaction.sub (isWord : Char → Bool) (rule : Redaction) (text : Text) : Text := rule.subFrom isWord text.length none text

theorem Redaction.find_sound {isWord : Char → Bool} {rule : Redaction} {before : Option Char} {text kept dropped rest : Text}
    (h : rule.find isWord before text = some (kept, dropped, rest)) :
    text = kept ++ (dropped ++ rest) ∧ rule.kept.Matches kept ∧ rule.dropped.Matches dropped := by
  rw [find] at h
  split at h
  · cases h
  · obtain ⟨⟨left, middle⟩, hkept, hmem⟩ := List.mem_flatMap.1 (List.mem_of_mem_head? h)
    obtain ⟨⟨right, last⟩, hdropped, heq⟩ := List.mem_map.1 hmem
    cases heq
    obtain ⟨htext, hleft⟩ := Pattern.ends_sound hkept
    obtain ⟨hmiddle, hright⟩ := Pattern.ends_sound hdropped
    exact ⟨by rw [htext, ← hmiddle], hleft, hright⟩

/-! ### What a text opens with -/

/-- A text is a word and, after it, a character or an end of a kind. -/
def Opens (atEnd : Option Char → Prop) (word text : Text) : Prop := ∃ rest, text = word ++ rest ∧ atEnd rest.head?

theorem opens_nil_iff {atEnd : Option Char → Prop} {text : Text} : Opens atEnd [] text ↔ atEnd text.head? := by
  constructor
  · rintro ⟨rest, rfl, hrest⟩
    exact hrest
  · intro h
    exact ⟨text, rfl, h⟩

theorem opens_cons_iff {atEnd : Option Char → Prop} {w c : Char} {word text : Text} :
    Opens atEnd (w :: word) (c :: text) ↔ w = c ∧ Opens atEnd word text := by
  constructor
  · rintro ⟨rest, heq, hrest⟩
    obtain ⟨rfl, htext⟩ := List.cons_eq_cons.1 heq
    exact ⟨rfl, rest, htext, hrest⟩
  · rintro ⟨rfl, rest, rfl, hrest⟩
    exact ⟨rest, rfl, hrest⟩

section Opening

variable {inside : Char → Prop} {atEnd : Option Char → Prop}

/-- A character that neither belongs to a word nor ends one. -/
def Foreign (inside : Char → Prop) (atEnd : Option Char → Prop) (text : Text) : Prop :=
  ∃ c, text.head? = some c ∧ ¬ inside c ∧ ¬ atEnd (some c)

theorem Foreign.append {text : Text} (h : Foreign inside atEnd text) (more : Text) : Foreign inside atEnd (text ++ more) := by
  obtain ⟨c, hhead, hc⟩ := h
  exact ⟨c, by rw [List.head?_append, hhead]; rfl, hc⟩

theorem Foreign.not_opens {text word : Text} (h : Foreign inside atEnd text) (hword : ∀ c ∈ word, inside c) :
    ¬ Opens atEnd word text := by
  obtain ⟨c, hhead, hc, hend⟩ := h
  rintro ⟨rest, rfl, hrest⟩
  cases word with
  | nil => exact hend (hhead ▸ hrest)
  | cons w word =>
      rw [List.cons_append, List.head?_cons, Option.some_inj] at hhead
      exact hc (hword c (hhead ▸ List.mem_cons_self ..))

/-- What is behind a foreign character does not matter. -/
theorem opens_append_iff {kept left right word : Text} (hword : ∀ c ∈ word, inside c)
    (h : (∃ c ∈ kept, ¬ inside c) ∨ (Foreign inside atEnd left ∧ Foreign inside atEnd right)) :
    Opens atEnd word (kept ++ left) ↔ Opens atEnd word (kept ++ right) := by
  induction kept generalizing word with
  | nil =>
      rcases h with ⟨c, hc, -⟩ | ⟨hleft, hright⟩
      · cases hc
      · exact iff_of_false (hleft.not_opens hword) (hright.not_opens hword)
  | cons c kept ih =>
      cases word with
      | nil => rw [opens_nil_iff, opens_nil_iff]; rfl
      | cons w word =>
          rw [List.cons_append, List.cons_append, opens_cons_iff, opens_cons_iff]
          apply and_congr_right
          intro heq
          apply ih fun d hd => hword d (List.mem_cons_of_mem _ hd)
          rcases h with ⟨d, hd, hforeign⟩ | h
          · rcases List.mem_cons.1 hd with rfl | hd
            · exact absurd (heq ▸ hword w (List.mem_cons_self ..)) hforeign
            · exact Or.inl ⟨d, hd, hforeign⟩
          · exact Or.inr h

/-- A redaction that leaves words alone: a match goes beyond a word, and so does its mark. -/
structure Redaction.LeavesWords (rule : Redaction) (inside : Char → Prop) (atEnd : Option Char → Prop) : Prop where
  beyond : ∀ kept dropped, rule.kept.Matches kept → rule.dropped.Matches dropped →
    (∃ c ∈ kept, ¬ inside c) ∨ Foreign inside atEnd dropped
  mark : Foreign inside atEnd rule.mark

/-- A text opens with a word if and only if it does so after the substitution. -/
theorem Redaction.LeavesWords.opens_sub_iff {rule : Redaction} (h : rule.LeavesWords inside atEnd) (isWord : Char → Bool)
    {word : Text} (hword : ∀ c ∈ word, inside c) (text : Text) :
    Opens atEnd word (rule.sub isWord text) ↔ Opens atEnd word text := by
  have hfrom (steps : Nat) : ∀ (before : Option Char) (word text : Text), (∀ c ∈ word, inside c) →
      (Opens atEnd word (rule.subFrom isWord steps before text) ↔ Opens atEnd word text) := by
    induction steps with
    | zero => exact fun _ _ _ _ => Iff.rfl
    | succ steps ih =>
        intro before word text hword
        cases text with
        | nil => exact Iff.rfl
        | cons c text =>
            rw [subFrom]
            split
            · next kept dropped rest hfind =>
              obtain ⟨htext, hkept, hdropped⟩ := find_sound hfind
              rw [htext]
              apply opens_append_iff hword
              exact (h.beyond kept dropped hkept hdropped).imp_right fun hforeign => ⟨h.mark.append _, hforeign.append _⟩
            · cases word with
              | nil => rw [opens_nil_iff, opens_nil_iff]; rfl
              | cons w word =>
                  rw [opens_cons_iff, opens_cons_iff, ih _ _ _ fun d hd => hword d (List.mem_cons_of_mem _ hd)]
  exact hfrom text.length none word text hword

end Opening

end PyText
