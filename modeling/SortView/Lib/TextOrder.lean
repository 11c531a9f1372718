import SortView.Lib.DecimalText

/-!
# Texts in code point order

The order of Python's `str` and of texts in ASCII in any language: a linear order, in which numbers written with a fixed
width compare as numbers.
-/

namespace PyText

open Calendar

/-! ### The order -/

/-- Code point order. -/
def textLe : Text → Text → Bool
  | [], _ => true
  | _ :: _, [] => false
  | a :: left, b :: right => a.toNat < b.toNat || (a == b && textLe left right)

theorem textLe_total (left right : Text) : textLe left right = true ∨ textLe right left = true := by
  induction left generalizing right with
  | nil => exact Or.inl rfl
  | cons a left ih =>
      cases right with
      | nil => exact Or.inr rfl
      | cons b right =>
          simp only [textLe, Bool.or_eq_true, Bool.and_eq_true, decide_eq_true_eq, beq_iff_eq]
          rcases Nat.lt_trichotomy a.toNat b.toNat with hlt | heq | hgt
          · exact Or.inl (Or.inl hlt)
          · have hchar := Char.toNat_inj.1 heq
            subst hchar
            exact (ih right).imp (fun h => Or.inr ⟨rfl, h⟩) fun h => Or.inr ⟨rfl, h⟩
          · exact Or.inr (Or.inl hgt)

theorem textLe_trans {first second third : Text} (hfirst : textLe first second = true) (hsecond : textLe second third = true) :
    textLe first third = true := by
  induction first generalizing second third with
  | nil => rfl
  | cons a first ih =>
      cases second with
      | nil => cases hfirst
      | cons b second =>
          cases third with
          | nil => cases hsecond
          | cons c third =>
              simp only [textLe, Bool.or_eq_true, Bool.and_eq_true, decide_eq_true_eq, beq_iff_eq] at hfirst hsecond ⊢
              rcases hfirst with hab | ⟨rfl, hfirst⟩
              · rcases hsecond with hbc | ⟨rfl, -⟩
                · exact Or.inl (hab.trans hbc)
                · exact Or.inl hab
              · rcases hsecond with hbc | ⟨rfl, hsecond⟩
                · exact Or.inl hbc
                · exact Or.inr ⟨rfl, ih hfirst hsecond⟩

theorem textLe_antisymm {left right : Text} (hle : textLe left right = true) (hge : textLe right left = true) : left = right := by
  induction left generalizing right with
  | nil =>
      cases right with
      | nil => rfl
      | cons _ _ => cases hge
  | cons a left ih =>
      cases right with
      | nil => cases hle
      | cons b right =>
          simp only [textLe, Bool.or_eq_true, Bool.and_eq_true, decide_eq_true_eq, beq_iff_eq] at hle hge
          rcases hle with hab | ⟨rfl, hle⟩
          · rcases hge with hba | ⟨rfl, -⟩ <;> omega
          · rcases hge with hba | ⟨-, hge⟩
            · omega
            · rw [ih hle hge]

/-- Strict code point order. -/
def textLt (left right : Text) : Prop := textLe left right = true ∧ left ≠ right

theorem textLt_trans {first second third : Text} (hfirst : textLt first second) (hsecond : textLt second third) :
    textLt first third := by
  refine ⟨textLe_trans hfirst.1 hsecond.1, ?_⟩
  intro heq
  subst heq
  exact hfirst.2 (textLe_antisymm hfirst.1 hsecond.1)

instance : Std.Irrefl textLt := ⟨fun _ h => h.2 rfl⟩

instance : Std.Antisymm textLt := ⟨fun _ _ hle hge => textLe_antisymm hle.1 hge.1⟩

/-! ### Numbers of a fixed width in text order -/

theorem textLt_of_char {c d : Char} (h : c.toNat < d.toNat) (left right : Text) : textLt (c :: left) (d :: right) := by
  refine ⟨by simp [textLe, h], ?_⟩
  intro heq
  cases heq
  exact absurd h (Nat.lt_irrefl _)

theorem textLt_append_left (common : Text) {left right : Text} (h : textLt left right) : textLt (common ++ left) (common ++ right) := by
  refine ⟨?_, fun heq => h.2 (List.append_cancel_left heq)⟩
  induction common with
  | nil => exact h.1
  | cons c common ih => simp [textLe, ih]

theorem digits_lt {text : Text} (hdigits : ∀ c ∈ text, c.isDigit = true) : Nat.ofDigitChars 10 text 0 < 10 ^ text.length := by
  induction text using List.reverseRecOn with
  | nil => simp
  | append_singleton text c ih =>
      have hinit := ih fun d hd => hdigits d (by simp [hd])
      have hlast := digit_value_lt (hdigits c (by simp))
      rw [ofDigitChars_concat, List.length_append, List.length_singleton, Nat.pow_succ]
      omega

/-- Texts of as many digits compare as their numbers, whatever follows. -/
theorem textLt_of_digits {left right : Text} (hlength : left.length = right.length) (hleft : ∀ c ∈ left, c.isDigit = true)
    (hright : ∀ c ∈ right, c.isDigit = true) (h : Nat.ofDigitChars 10 left 0 < Nat.ofDigitChars 10 right 0) (after later : Text) :
    textLt (left ++ after) (right ++ later) := by
  induction left generalizing right with
  | nil =>
      rw [List.length_eq_zero_iff.1 hlength.symm] at h
      exact absurd h (Nat.lt_irrefl _)
  | cons c left ih =>
      cases right with
      | nil => cases hlength
      | cons d right =>
          have htail : left.length = right.length := Nat.succ.inj hlength
          have hleftTail : ∀ e ∈ left, e.isDigit = true := fun e he => hleft e (List.mem_cons_of_mem _ he)
          have hrightTail : ∀ e ∈ right, e.isDigit = true := fun e he => hright e (List.mem_cons_of_mem _ he)
          have hc := Char.isDigit_iff_toNat.1 (hleft c (List.mem_cons_self ..))
          have hd := Char.isDigit_iff_toNat.1 (hright d (List.mem_cons_self ..))
          have hleftLt := digits_lt hleftTail
          have hrightLt := digits_lt hrightTail
          rw [Nat.ofDigitChars_cons, Nat.ofDigitChars_cons, Nat.ofDigitChars_eq_ofDigitChars_zero,
            @Nat.ofDigitChars_eq_ofDigitChars_zero right, htail] at h
          rw [htail] at hleftLt
          rcases Nat.lt_trichotomy c.toNat d.toNat with hlt | heq | hgt
          · exact textLt_of_char hlt _ _
          · have hsame := Char.toNat_inj.1 heq
            subst hsame
            exact textLt_append_left [c] (ih htail hleftTail hrightTail (by omega))
          · exfalso
            have hzero : '0'.toNat = 48 := rfl
            obtain ⟨gap, hgap⟩ := Nat.exists_eq_add_of_lt hgt
            have hvalue : c.toNat - '0'.toNat = (d.toNat - '0'.toNat) + (gap + 1) := by omega
            rw [hvalue, Nat.mul_zero, Nat.zero_add, Nat.zero_add, Nat.mul_add, Nat.mul_add] at h
            omega

theorem textLt_of_padded {width small large : Nat} (hwidth : 0 < width) (hlarge : large < 10 ^ width) (h : small < large)
    (after later : Text) : textLt (padded width small ++ after) (padded width large ++ later) := by
  apply textLt_of_digits
  · rw [length_padded hwidth (h.trans hlarge), length_padded hwidth hlarge]
  · exact fun c hc => isDigit_of_mem_padded hc
  · exact fun c hc => isDigit_of_mem_padded hc
  · rw [ofDigitChars_padded, ofDigitChars_padded]
    exact h

/-- A padded number is its leading digits and the rest. -/
theorem padded_split {front back value : Nat} (hfront : 0 < front) (hback : 0 < back) (hvalue : value < 10 ^ (front + back)) :
    padded (front + back) value = padded front (value / 10 ^ back) ++ padded back (value % 10 ^ back) := by
  have hquotient : value / 10 ^ back < 10 ^ front := by
    rw [Nat.div_lt_iff_lt_mul (Nat.pow_pos (by decide)), ← Nat.pow_add]
    exact hvalue
  have hremainder : value % 10 ^ back < 10 ^ back := Nat.mod_lt _ (Nat.pow_pos (by decide))
  apply eq_of_ofDigitChars_eq
  · rw [length_padded (by omega) hvalue, List.length_append, length_padded hfront hquotient, length_padded hback hremainder]
  · exact fun c hc => isDigit_of_mem_padded hc
  · intro c hc
    rcases List.mem_append.1 hc with hc | hc
    · exact isDigit_of_mem_padded hc
    · exact isDigit_of_mem_padded hc
  · rw [ofDigitChars_padded, Nat.ofDigitChars_append, Nat.ofDigitChars_eq_ofDigitChars_zero, ofDigitChars_padded,
      ofDigitChars_padded, length_padded hback hremainder]
    exact (Nat.div_add_mod _ _).symm

end PyText
