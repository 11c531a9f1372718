import SortView.Lib.Text

/-!
# Lines of a text

`str.splitlines`, which ends a line at every boundary that Python knows, and the newlines of a file that is read as text.
-/

namespace PyText

/-- A character that ends a line. -/
def isLineBoundary (c : Char) : Bool :=
  let n := c.toNat
  (10 ≤ n && n ≤ 13) || (0x1c ≤ n && n ≤ 0x1e) || n == 0x85 || n == 0x2028 || n == 0x2029

/-- `str.splitlines()`. -/
def splitlines : Text → List Text
  | [] => []
  | [c] => if isLineBoundary c then [[]] else [[c]]
  | c :: d :: text =>
      if c = '\r' ∧ d = '\n' then [] :: splitlines text
      else if isLineBoundary c then [] :: splitlines (d :: text)
      else
        match splitlines (d :: text) with
        | [] => [[c]]
        | line :: lines => (c :: line) :: lines

/-- The newlines of a file that is opened as text. -/
def universalNewlines : Text → Text
  | [] => []
  | [c] => [if c = '\r' then '\n' else c]
  | c :: d :: text =>
      if c = '\r' ∧ d = '\n' then '\n' :: universalNewlines text
      else (if c = '\r' then '\n' else c) :: universalNewlines (d :: text)

/-- A text without carriage returns is read as it is. -/
theorem universalNewlines_eq : ∀ {text : Text}, '\r' ∉ text → universalNewlines text = text
  | [], _ => rfl
  | [c], h => by
      have hc : c ≠ '\r' := fun heq => h (heq ▸ List.mem_singleton_self _)
      rw [universalNewlines, if_neg hc]
  | c :: d :: text, h => by
      have hc : c ≠ '\r' := fun heq => h (heq ▸ List.mem_cons_self ..)
      have hrest : '\r' ∉ d :: text := fun hmem => h (List.mem_cons_of_mem _ hmem)
      rw [universalNewlines, if_neg (fun hpair => hc hpair.1), if_neg hc, universalNewlines_eq hrest]

/-- What a file that is opened as text holds of the newlines that are written. -/
def writtenNewlines (linesep : Text) (text : Text) : Text := text.flatMap fun c => if c = '\n' then linesep else [c]

theorem universalNewlines_cons {c : Char} (hc : c ≠ '\r') (text : Text) : universalNewlines (c :: text) = c :: universalNewlines text := by
  cases text with
  | nil =>
      show [if c = '\r' then '\n' else c] = [c]
      rw [if_neg hc]
  | cons d text => rw [universalNewlines, if_neg (fun hpair => hc hpair.1), if_neg hc]

/-- Newlines are read as they were before they were written. -/
theorem universalNewlines_writtenNewlines {linesep : Text} (hlinesep : linesep = ['\n'] ∨ linesep = ['\r', '\n']) {text : Text}
    (h : '\r' ∉ text) : universalNewlines (writtenNewlines linesep text) = text := by
  induction text with
  | nil => rfl
  | cons c text ih =>
      have hc : c ≠ '\r' := fun heq => h (heq ▸ List.mem_cons_self ..)
      have hrest := ih fun hmem => h (List.mem_cons_of_mem _ hmem)
      rw [writtenNewlines] at hrest
      rw [writtenNewlines, List.flatMap_cons]
      by_cases hline : c = '\n'
      · rw [if_pos hline, hline]
        rcases hlinesep with rfl | rfl
        · exact (universalNewlines_cons (by decide) _).trans (congrArg _ hrest)
        · rw [List.cons_append, List.cons_append, List.nil_append, universalNewlines, if_pos ⟨rfl, rfl⟩, hrest]
      · rw [if_neg hline, List.singleton_append, universalNewlines_cons hc, hrest]

theorem not_isLineBoundary_return {c : Char} (h : isLineBoundary c = false) : c ≠ '\r' := by
  rintro rfl
  cases h

/-- A line before a newline. -/
theorem splitlines_line {rest : Text} : ∀ {line : Text}, (∀ c ∈ line, isLineBoundary c = false) →
    splitlines (line ++ '\n' :: rest) = line :: splitlines rest
  | [], _ => by
      cases rest with
      | nil => rfl
      | cons d rest =>
          have hboundary : isLineBoundary '\n' = true := rfl
          rw [List.nil_append, splitlines, if_neg (fun hpair => absurd hpair.1 (by decide)), if_pos hboundary]
  | c :: line, h => by
      have hc := h c (List.mem_cons_self ..)
      have hline : splitlines (line ++ '\n' :: rest) = line :: splitlines rest :=
        splitlines_line fun d hd => h d (List.mem_cons_of_mem _ hd)
      cases hcut : line ++ '\n' :: rest with
      | nil => exact absurd hcut (List.append_ne_nil_of_right_ne_nil _ (List.cons_ne_nil _ _))
      | cons d text =>
          rw [hcut] at hline
          rw [List.cons_append, hcut, splitlines, if_neg (fun hpair => not_isLineBoundary_return hc hpair.1), hc,
            if_neg Bool.false_ne_true, hline]

/-- A last line without a newline. -/
theorem splitlines_last : ∀ {line : Text}, line ≠ [] → (∀ c ∈ line, isLineBoundary c = false) → splitlines line = [line]
  | [], hne, _ => absurd rfl hne
  | [c], _, h => by
      rw [splitlines, h c (List.mem_singleton_self _), if_neg Bool.false_ne_true]
  | c :: d :: line, _, h => by
      have hc := h c (List.mem_cons_self ..)
      have hline := splitlines_last (List.cons_ne_nil d line) fun e he => h e (List.mem_cons_of_mem _ he)
      rw [splitlines, if_neg (fun hpair => not_isLineBoundary_return hc hpair.1), hc, if_neg Bool.false_ne_true, hline]

end PyText
