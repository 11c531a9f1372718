import Mathlib.Data.List.Basic
import Mathlib.Data.List.TakeDrop
import Mathlib.Tactic.Common

/-!
# Complete lines of a growing byte file

A reader of a file that another program appends to may only use complete lines: the runs of bytes up
to and including a newline. `splitLines` cuts a byte string into its complete lines and the partial
line at its end, `readLines` is the `readline` loop of such a reader, and the lemmas say how both
behave when the file grows and when a reader resumes at an offset that is the end of a line.
-/

namespace ByteLines

abbrev Bytes := List UInt8

/-- The byte `b"\n"`. -/
abbrev newline : UInt8 := 10

/-- The complete lines of a byte string, and the partial line after the last of them. -/
def splitLines : Bytes → List Bytes × Bytes
  | [] => ([], [])
  | b :: bs =>
      if b = newline then ([b] :: (splitLines bs).1, (splitLines bs).2)
      else match (splitLines bs).1 with
        | [] => ([], b :: (splitLines bs).2)
        | line :: lines => ((b :: line) :: lines, (splitLines bs).2)

/-- What one `readline` returns: the bytes up to and including the first newline, or all of them. -/
def readline : Bytes → Bytes
  | [] => []
  | b :: bs => if b = newline then [b] else b :: readline bs

/-- The `readline` loop: at most `limit` lines, stopping at the end of the bytes or at a line that has
no newline yet. -/
def readLines : Nat → Bytes → List Bytes
  | 0, _ => []
  | limit + 1, rest =>
      if (readline rest).getLast? = some newline then
        readline rest :: readLines limit (rest.drop (readline rest).length)
      else []

/-- The number of bytes in a list of lines. -/
def size : List Bytes → Nat
  | [] => 0
  | line :: lines => line.length + size lines

/-- Each line with the offset of its first byte, the first line starting at `start`. -/
def numbered : Nat → List Bytes → List (Nat × Bytes)
  | _, [] => []
  | start, line :: lines => (start, line) :: numbered (start + line.length) lines

/-- `offset` is the start of the file or lies just after a newline of it. -/
def AtLineEnd (content : Bytes) (offset : Nat) : Prop :=
  offset ≤ content.length ∧ ((content.take offset).getLast? = none ∨ (content.take offset).getLast? = some newline)

instance (content : Bytes) (offset : Nat) : Decidable (AtLineEnd content offset) := by
  unfold AtLineEnd; infer_instance

/-- The complete lines of the first `offset` bytes. -/
def linesBelow (content : Bytes) (offset : Nat) : List Bytes := (splitLines (content.take offset)).1

@[simp] theorem size_nil : size [] = 0 := rfl

@[simp] theorem size_cons (line : Bytes) (lines : List Bytes) : size (line :: lines) = line.length + size lines := rfl

theorem size_eq_flatten (lines : List Bytes) : size lines = lines.flatten.length := by
  induction lines with
  | nil => rfl
  | cons line lines ih => rw [size_cons, List.flatten_cons, List.length_append, ih]

@[simp] theorem size_append (left right : List Bytes) : size (left ++ right) = size left + size right := by
  rw [size_eq_flatten, List.flatten_append, List.length_append, size_eq_flatten, size_eq_flatten]

/-! ### Splitting -/

theorem splitLines_flatten (bs : Bytes) : (splitLines bs).1.flatten ++ (splitLines bs).2 = bs := by
  induction bs with
  | nil => rfl
  | cons b bs ih =>
      rw [splitLines]
      split
      · simpa using ih
      · cases hlines : (splitLines bs).1 with
        | nil =>
            rw [hlines] at ih
            simpa using ih
        | cons line lines =>
            rw [hlines] at ih
            simpa using ih

/-- The complete lines of one byte string continued by another: those of the first, then those of its
partial line continued by the second. -/
theorem splitLines_append (bs more : Bytes) :
    splitLines (bs ++ more)
      = ((splitLines bs).1 ++ (splitLines ((splitLines bs).2 ++ more)).1,
          (splitLines ((splitLines bs).2 ++ more)).2) := by
  induction bs with
  | nil => rfl
  | cons b bs ih =>
      rw [List.cons_append, splitLines, splitLines, ih]
      by_cases hb : b = newline
      · simp [hb]
      · simp only [if_neg hb]
        cases hlines : (splitLines bs).1 with
        | nil => simp [splitLines, hb]
        | cons line lines => simp

theorem splitLines_append_of_complete {bs : Bytes} (hbs : (splitLines bs).2 = []) (more : Bytes) :
    splitLines (bs ++ more) = ((splitLines bs).1 ++ (splitLines more).1, (splitLines more).2) := by
  rw [splitLines_append, hbs, List.nil_append]

theorem splitLines_rest_getLast? (bs : Bytes) : (splitLines bs).2.getLast? ≠ some newline := by
  induction bs with
  | nil => simp [splitLines]
  | cons b bs ih =>
      rw [splitLines]
      split
      · exact ih
      · next hb =>
        cases hlines : (splitLines bs).1 with
        | nil =>
            cases hrest : (splitLines bs).2 with
            | nil => simpa using hb
            | cons c cs =>
                rw [hrest] at ih
                simpa using ih
        | cons line lines => exact ih

theorem getLast?_of_mem_splitLines {bs line : Bytes} (hmem : line ∈ (splitLines bs).1) :
    line.getLast? = some newline := by
  induction bs generalizing line with
  | nil => simp [splitLines] at hmem
  | cons b bs ih =>
      rw [splitLines] at hmem
      split at hmem
      · next hb =>
        rcases List.mem_cons.1 hmem with rfl | hmem
        · simp [hb]
        · exact ih hmem
      · cases hlines : (splitLines bs).1 with
        | nil => simp [hlines] at hmem
        | cons first lines =>
            rw [hlines] at hmem ih
            rcases List.mem_cons.1 hmem with rfl | hmem
            · have hfirst := ih (List.mem_cons_self ..)
              cases first with
              | nil => simp at hfirst
              | cons c cs => simpa using hfirst
            · exact ih (List.mem_cons_of_mem _ hmem)

theorem length_pos_of_mem_splitLines {bs line : Bytes} (hmem : line ∈ (splitLines bs).1) : 0 < line.length := by
  have hlast := getLast?_of_mem_splitLines hmem
  cases line with
  | nil => simp at hlast
  | cons c cs => simp

/-- A byte string is all complete lines exactly when it is empty or ends in a newline. -/
theorem splitLines_rest_eq_nil_iff (bs : Bytes) :
    (splitLines bs).2 = [] ↔ bs.getLast? = none ∨ bs.getLast? = some newline := by
  have hflat := splitLines_flatten bs
  constructor
  · intro hrest
    rw [hrest, List.append_nil] at hflat
    cases hlines : (splitLines bs).1.getLast? with
    | none =>
        rw [List.getLast?_eq_none_iff.1 hlines] at hflat
        simp [← hflat]
    | some line =>
        obtain ⟨front, hfront⟩ := List.getLast?_eq_some_iff.1 hlines
        have hend := getLast?_of_mem_splitLines (List.mem_of_getLast? hlines)
        right
        rw [← hflat, hfront, List.flatten_append, List.flatten_singleton, List.getLast?_append, hend]
        rfl
  · rintro (hnone | hsome)
    · have hbs : bs = [] := List.getLast?_eq_none_iff.1 hnone
      subst hbs
      rfl
    · by_contra hrest
      rw [← hflat, List.getLast?_append_of_ne_nil _ hrest] at hsome
      exact splitLines_rest_getLast? bs hsome

theorem length_le_size_of_pos {lines : List Bytes} (hpos : ∀ line ∈ lines, 0 < line.length) :
    lines.length ≤ size lines := by
  induction lines with
  | nil => simp
  | cons line lines ih =>
      have hline := hpos line (List.mem_cons_self ..)
      have hrest := ih fun other hother => hpos other (List.mem_cons_of_mem _ hother)
      simp only [List.length_cons, size_cons]
      omega

theorem size_splitLines_le (bs : Bytes) : size (splitLines bs).1 ≤ bs.length := by
  have hflat := congrArg List.length (splitLines_flatten bs)
  rw [List.length_append, ← size_eq_flatten] at hflat
  omega

theorem length_splitLines_le (bs : Bytes) : (splitLines bs).1.length ≤ bs.length :=
  Nat.le_trans (length_le_size_of_pos fun _ hmem => length_pos_of_mem_splitLines hmem) (size_splitLines_le bs)

/-! ### The `readline` loop reads the complete lines -/

theorem readline_eq (bs : Bytes) :
    readline bs = match (splitLines bs).1 with
      | [] => bs
      | line :: _ => line := by
  induction bs with
  | nil => rfl
  | cons b bs ih =>
      rw [readline, splitLines]
      split
      · rfl
      · rw [ih]
        cases (splitLines bs).1 with
        | nil => rfl
        | cons line lines => rfl

theorem splitLines_drop_first {bs line : Bytes} {lines : List Bytes} (h : (splitLines bs).1 = line :: lines) :
    (splitLines (bs.drop line.length)).1 = lines := by
  induction bs generalizing line lines with
  | nil => simp [splitLines] at h
  | cons b bs ih =>
      rw [splitLines] at h
      split at h
      · obtain ⟨rfl, rfl⟩ := List.cons.inj h
        simp
      · cases hlines : (splitLines bs).1 with
        | nil => simp [hlines] at h
        | cons first others =>
            simp only [hlines] at h
            obtain ⟨rfl, rfl⟩ := List.cons.inj h
            simpa using ih hlines

/-- After its first lines, a byte string has the rest of its lines. -/
theorem splitLines_drop_size {bs : Bytes} {front back : List Bytes} (h : (splitLines bs).1 = front ++ back) :
    (splitLines (bs.drop (size front))).1 = back := by
  induction front generalizing bs with
  | nil => exact h
  | cons line front ih =>
      rw [size_cons, ← List.drop_drop]
      exact ih (splitLines_drop_first h)

theorem readLines_eq (limit : Nat) (bs : Bytes) : readLines limit bs = (splitLines bs).1.take limit := by
  induction limit generalizing bs with
  | zero => simp [readLines]
  | succ limit ih =>
      rw [readLines]
      cases hlines : (splitLines bs).1 with
      | nil =>
          have hread : readline bs = bs := by rw [readline_eq, hlines]
          have hrest : (splitLines bs).2 = bs := by simpa [hlines] using splitLines_flatten bs
          have hlast := splitLines_rest_getLast? bs
          rw [hrest] at hlast
          rw [hread, if_neg hlast, List.take_nil]
      | cons line lines =>
          have hread : readline bs = line := by rw [readline_eq, hlines]
          have hlast : line.getLast? = some newline := getLast?_of_mem_splitLines (by rw [hlines]; simp)
          rw [hread, if_pos hlast, ih, splitLines_drop_first hlines, List.take_succ_cons]

theorem size_readLines_le (limit : Nat) (bs : Bytes) : size (readLines limit bs) ≤ bs.length := by
  have hall := size_splitLines_le bs
  rw [← List.take_append_drop limit (splitLines bs).1, size_append] at hall
  rw [readLines_eq]
  omega

/-- With as many rounds as there are bytes the loop reads every complete line. -/
theorem readLines_length (bs : Bytes) : readLines bs.length bs = (splitLines bs).1 := by
  rw [readLines_eq, List.take_of_length_le (length_splitLines_le bs)]

/-! ### Resuming at the end of a line -/

theorem atLineEnd_iff (content : Bytes) (offset : Nat) :
    AtLineEnd content offset ↔ offset ≤ content.length ∧ (splitLines (content.take offset)).2 = [] := by
  rw [AtLineEnd, splitLines_rest_eq_nil_iff]

theorem atLineEnd_zero (content : Bytes) : AtLineEnd content 0 := ⟨Nat.zero_le _, Or.inl (by simp)⟩

@[simp] theorem linesBelow_zero (content : Bytes) : linesBelow content 0 = [] := by
  simp [linesBelow, splitLines]

theorem AtLineEnd.mono {content later : Bytes} {offset : Nat} (h : AtLineEnd content offset)
    (hgrow : content <+: later) : AtLineEnd later offset := by
  obtain ⟨more, rfl⟩ := hgrow
  refine ⟨by have := h.1; simp only [List.length_append]; omega, ?_⟩
  rw [List.take_append_of_le_length h.1]
  exact h.2

theorem linesBelow_mono {content later : Bytes} {offset : Nat} (hoffset : offset ≤ content.length)
    (hgrow : content <+: later) : linesBelow later offset = linesBelow content offset := by
  obtain ⟨more, rfl⟩ := hgrow
  rw [linesBelow, List.take_append_of_le_length hoffset, linesBelow]

theorem splitLines_eq_below {content : Bytes} {offset : Nat} (h : AtLineEnd content offset) :
    (splitLines content).1 = linesBelow content offset ++ (splitLines (content.drop offset)).1 := by
  have hcomplete := ((atLineEnd_iff content offset).1 h).2
  have happend := splitLines_append_of_complete hcomplete (content.drop offset)
  rw [List.take_append_drop] at happend
  rw [happend]
  rfl

theorem size_linesBelow {content : Bytes} {offset : Nat} (h : AtLineEnd content offset) :
    size (linesBelow content offset) = offset := by
  have hcomplete := ((atLineEnd_iff content offset).1 h).2
  have hflat := congrArg List.length (splitLines_flatten (content.take offset))
  rw [hcomplete, List.append_nil, ← size_eq_flatten, List.length_take, Nat.min_eq_left h.1] at hflat
  exact hflat

/-- The first lines of a byte string are its first bytes, and they are complete. -/
theorem splitLines_take_size {bs : Bytes} {front back : List Bytes} (h : (splitLines bs).1 = front ++ back) :
    splitLines (bs.take (size front)) = (front, []) := by
  induction front generalizing bs with
  | nil => simp [splitLines]
  | cons line front ih =>
      have hfirst : (splitLines bs).1 = line :: (front ++ back) := by simpa using h
      have hdrop := ih (splitLines_drop_first hfirst)
      have hbs : bs.take line.length = line := by
        have hflat := splitLines_flatten bs
        rw [hfirst, List.flatten_cons, List.append_assoc] at hflat
        rw [← hflat, List.take_left']
        rfl
      have hsplit : bs.take (size (line :: front)) = line ++ (bs.drop line.length).take (size front) := by
        rw [size_cons, List.take_add, hbs]
      have hline : splitLines line = ([line], []) := by
        have hall := splitLines_flatten line
        have hrest : (splitLines line).2 = [] :=
          (splitLines_rest_eq_nil_iff line).2 (Or.inr (getLast?_of_mem_splitLines (by rw [hfirst]; simp)))
        have hone := splitLines_append_of_complete hrest (bs.drop line.length)
        have hwhole := List.take_append_drop line.length bs
        rw [hbs] at hwhole
        rw [hwhole] at hone
        have hcount := congrArg Prod.fst hone
        rw [hfirst, splitLines_drop_first hfirst] at hcount
        have hlines : (splitLines line).1 = [line] := by
          have hright : [line] ++ (front ++ back) = (splitLines line).1 ++ (front ++ back) := by simpa using hcount
          exact (List.append_cancel_right hright).symm
        exact Prod.ext hlines hrest
      rw [hsplit, splitLines_append_of_complete (by rw [hline]), hline, hdrop]
      rfl

/-- What a reader that resumes at the end of a line and takes the first `limit` complete lines has
read: its new offset is the end of a line again, and the lines below it are the old ones and those. -/
theorem resume {content : Bytes} {offset : Nat} (h : AtLineEnd content offset) (limit : Nat) :
    AtLineEnd content (offset + size (readLines limit (content.drop offset)))
      ∧ linesBelow content (offset + size (readLines limit (content.drop offset)))
          = linesBelow content offset ++ readLines limit (content.drop offset) := by
  rw [readLines_eq]
  have hsplit := splitLines_eq_below h
  rw [← List.take_append_drop limit (splitLines (content.drop offset)).1, ← List.append_assoc] at hsplit
  have htake := splitLines_take_size hsplit
  rw [size_append, size_linesBelow h] at htake
  have hle : offset + size ((splitLines (content.drop offset)).1.take limit) ≤ content.length := by
    have hall := size_splitLines_le (content.drop offset)
    rw [← List.take_append_drop limit (splitLines (content.drop offset)).1, size_append, List.length_drop] at hall
    have := h.1
    omega
  exact ⟨(atLineEnd_iff _ _).2 ⟨hle, by rw [htake]⟩, by rw [linesBelow, htake]⟩

/-! ### Offsets of lines -/

/-- The complete lines of a byte string with their offsets. -/
def numberedLines (content : Bytes) : List (Nat × Bytes) := numbered 0 (splitLines content).1

@[simp] theorem numbered_nil (start : Nat) : numbered start [] = [] := rfl

@[simp] theorem map_snd_numbered (start : Nat) (lines : List Bytes) : (numbered start lines).map Prod.snd = lines := by
  induction lines generalizing start with
  | nil => rfl
  | cons line lines ih => simp [numbered, ih]

theorem numbered_append (start : Nat) (left right : List Bytes) :
    numbered start (left ++ right) = numbered start left ++ numbered (start + size left) right := by
  induction left generalizing start with
  | nil => simp
  | cons line left ih => simp [numbered, ih, Nat.add_assoc]

theorem bounds_of_mem_numbered {start offset : Nat} {lines : List Bytes} {line : Bytes}
    (hmem : (offset, line) ∈ numbered start lines) : start ≤ offset ∧ offset + line.length ≤ start + size lines := by
  induction lines generalizing start with
  | nil => simp at hmem
  | cons first lines ih =>
      rcases List.mem_cons.1 hmem with heq | hmem
      · obtain ⟨rfl, rfl⟩ := Prod.mk.inj heq
        simp only [size_cons]
        omega
      · have hrest := ih hmem
        simp only [size_cons]
        omega

theorem length_pos_of_mem_numbered {start : Nat} {bs : Bytes} {entry : Nat × Bytes}
    (hmem : entry ∈ numbered start (splitLines bs).1) : 0 < entry.2.length := by
  have hline : entry.2 ∈ (splitLines bs).1 := by
    rw [← map_snd_numbered start (splitLines bs).1]
    exact List.mem_map_of_mem hmem
  exact length_pos_of_mem_splitLines hline

theorem pairwise_numbered (start : Nat) {lines : List Bytes} (hpos : ∀ line ∈ lines, 0 < line.length) :
    (numbered start lines).Pairwise fun left right => left.1 < right.1 := by
  induction lines generalizing start with
  | nil => exact List.Pairwise.nil
  | cons line lines ih =>
      refine List.Pairwise.cons ?_ (ih _ fun other hother => hpos other (List.mem_cons_of_mem _ hother))
      intro entry hentry
      have hline := hpos line (List.mem_cons_self ..)
      have hbounds := bounds_of_mem_numbered hentry
      show start < entry.1
      omega

/-- The offsets of the lines of a byte string increase. -/
theorem pairwise_numberedLines (content : Bytes) :
    (numberedLines content).Pairwise fun left right => left.1 < right.1 :=
  pairwise_numbered 0 fun _ hmem => length_pos_of_mem_splitLines hmem

/-- At the end of a line the lines fall into those below and those after it. -/
theorem numberedLines_split {content : Bytes} {offset : Nat} (h : AtLineEnd content offset) :
    numberedLines content
        = numbered 0 (linesBelow content offset) ++ numbered offset (splitLines (content.drop offset)).1
      ∧ (∀ entry ∈ numbered 0 (linesBelow content offset), entry.1 < offset)
      ∧ ∀ entry ∈ numbered offset (splitLines (content.drop offset)).1, offset ≤ entry.1 := by
  refine ⟨?_, ?_, ?_⟩
  · rw [numberedLines, splitLines_eq_below h, numbered_append, size_linesBelow h, Nat.zero_add]
  · intro entry hentry
    have hbounds := bounds_of_mem_numbered hentry
    have hpos := length_pos_of_mem_numbered hentry
    rw [size_linesBelow h] at hbounds
    omega
  · intro entry hentry
    exact (bounds_of_mem_numbered hentry).1

end ByteLines
