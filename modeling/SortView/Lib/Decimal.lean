import SortView.Lib.Rounding

/-!
# Decimal arithmetic

`Decimal` of Python's standard library: a sign, a coefficient and an exponent, with the operations of a context that
keeps a number of digits and rounds half up. Each operation is the exact one, rounded to the digits of the context. The
limits on exponents are left out. Of equal values, the exponent of a quotient can be another than the library's.
-/

open Rounding

structure Decimal where
  negative : Bool
  coefficient : Nat
  exponent : Int
  deriving DecidableEq

/-- The signals that a context raises. -/
inductive DecimalError where
  | invalidOperation
  | divisionByZero
  deriving DecidableEq

namespace Decimal

/-- The number that is represented. -/
def value (x : Decimal) : ℚ := (if x.negative then -1 else 1) * (x.coefficient * 10 ^ x.exponent)

def ofInt (n : Int) : Decimal := ⟨n < 0, n.natAbs, 0⟩

def digitCount (n : Nat) : Nat := Nat.log 10 n + 1

/-- A coefficient without its last digits, rounded half up. -/
def dropDigits (coefficient k : Nat) : Nat := (coefficient + 10 ^ k / 2) / 10 ^ k

/-- The digits that the context keeps. -/
def fix (prec : Nat) (x : Decimal) : Decimal :=
  let excess := digitCount x.coefficient - prec
  ⟨x.negative, dropDigits x.coefficient excess, x.exponent + excess⟩

def multiply (prec : Nat) (x y : Decimal) : Decimal :=
  fix prec ⟨x.negative ^^ y.negative, x.coefficient * y.coefficient, x.exponent + y.exponent⟩

/-- The signed coefficient at an exponent that is not above the number's own. -/
def signedAt (x : Decimal) (exponent : Int) : Int :=
  (if x.negative then -1 else 1) * (x.coefficient * 10 ^ (x.exponent - exponent).toNat : Nat)

def add (prec : Nat) (x y : Decimal) : Decimal :=
  let exponent := min x.exponent y.exponent
  let sum := x.signedAt exponent + y.signedAt exponent
  fix prec ⟨if sum = 0 then x.negative && y.negative else sum < 0, sum.natAbs, exponent⟩

def copyNegate (x : Decimal) : Decimal := { x with negative := !x.negative }

def copyAbs (x : Decimal) : Decimal := { x with negative := false }

def subtract (prec : Nat) (x y : Decimal) : Decimal := add prec x y.copyNegate

/-- The power of ten of the first digit of a quotient of coefficients. -/
def quotientOrder (a b : Nat) : Int :=
  let d : Int := digitCount a - digitCount b
  if b * 10 ^ d.toNat ≤ a * 10 ^ (-d).toNat then d else d - 1

/-- A quotient of coefficients at a number of places, rounded half up. -/
def quotientAt (a b : Nat) (places : Int) : Nat :=
  (2 * (a * 10 ^ places.toNat) + b * 10 ^ (-places).toNat) / (2 * (b * 10 ^ (-places).toNat))

def divide (prec : Nat) (x y : Decimal) : Except DecimalError Decimal :=
  if y.coefficient = 0 then .error (if x.coefficient = 0 then .invalidOperation else .divisionByZero)
  else if x.coefficient = 0 then .ok ⟨x.negative ^^ y.negative, 0, x.exponent - y.exponent⟩
  else
    let places := prec - 1 - quotientOrder x.coefficient y.coefficient
    .ok ⟨x.negative ^^ y.negative, quotientAt x.coefficient y.coefficient places, x.exponent - y.exponent - places⟩

/-- The coefficient at a number of places, rounded half up. -/
def coefficientAt (x : Decimal) (places : Int) : Nat :=
  if 0 ≤ x.exponent + places then x.coefficient * 10 ^ (x.exponent + places).toNat
  else dropDigits x.coefficient (-(x.exponent + places)).toNat

def quantize (prec : Nat) (places : Int) (x : Decimal) : Except DecimalError Decimal :=
  if prec < digitCount (x.coefficientAt places) then .error .invalidOperation
  else .ok ⟨x.negative, x.coefficientAt places, -places⟩

def isZero (x : Decimal) : Bool := x.coefficient = 0

@[simp] theorem value_ofInt (n : Int) : (ofInt n).value = n := by
  rcases lt_or_ge n 0 with hneg | hpos
  · simp [value, ofInt, hneg, abs_of_neg hneg]
  · simp [value, ofInt, not_lt.2 hpos, abs_of_nonneg hpos]

theorem value_eq (negative : Bool) (coefficient : Nat) (exponent : Int) :
    value ⟨negative, coefficient, exponent⟩ =
      if negative then -(coefficient * 10 ^ exponent : ℚ) else coefficient * 10 ^ exponent := by
  cases negative <;> simp [value]

theorem value_eq_zero_iff (x : Decimal) : x.value = 0 ↔ x.coefficient = 0 := by
  have hpos := (ten_zpow_pos x.exponent).ne'
  rw [value]
  cases x.negative <;> simp [hpos]

theorem value_copyNegate (x : Decimal) : x.copyNegate.value = -x.value := by
  rw [value, value, copyNegate]
  cases x.negative <;> simp

/-- A rounded division of whole numbers. -/
theorem halfUp_div {a b : Nat} (hb : 0 < b) : (((2 * a + b) / (2 * b) : Nat) : ℤ) = halfUp (a / b) := by
  have hbq : (0 : ℚ) < b := by exact_mod_cast hb
  have hnonneg : (0 : ℚ) ≤ a / b := div_nonneg (Nat.cast_nonneg a) hbq.le
  have hsum : (a : ℚ) / b + 1 / 2 = (((2 * a + b : Nat) : ℤ) : ℚ) / (2 * b : Nat) := by
    push_cast
    field_simp
  rw [halfUp_of_nonneg hnonneg, hsum, Rat.floor_intCast_div_natCast]
  exact Int.natCast_div _ _

theorem dropDigits_eq (coefficient k : Nat) : ((dropDigits coefficient k : Nat) : ℤ) = halfUp (coefficient / 10 ^ k) := by
  have hpow : ((10 ^ k : Nat) : ℚ) = 10 ^ k := by push_cast; rfl
  rw [← hpow, ← halfUp_div (by positivity : 0 < 10 ^ k), dropDigits]
  congr 1
  cases k with
  | zero => omega
  | succ k =>
      have hhalf : 10 ^ (k + 1) = 2 * (5 * 10 ^ k) := by ring
      rw [hhalf, Nat.mul_div_cancel_left _ (by decide), ← Nat.mul_add, Nat.mul_div_mul_left _ _ (by decide)]

/-- A power of ten as a quotient of two whole ones. -/
theorem ten_zpow_eq (k : ℤ) : (10 : ℚ) ^ k = 10 ^ k.toNat / 10 ^ (-k).toNat := by
  rcases Int.le_total 0 k with h | h
  · obtain ⟨n, rfl⟩ := Int.eq_ofNat_of_zero_le h
    simp
  · obtain ⟨n, hn⟩ := Int.eq_ofNat_of_zero_le (Int.neg_nonneg.2 h)
    obtain rfl : k = -n := by omega
    simp

theorem order_coefficient {c : Nat} (hc : 0 < c) (e : ℤ) : order (c * 10 ^ e : ℚ) = Nat.log 10 c + e := by
  have hlow : 10 ^ Nat.log 10 c ≤ c := Nat.pow_log_le_self 10 hc.ne'
  have hhigh : c < 10 ^ (Nat.log 10 c + 1) := Nat.lt_pow_succ_log_self (by decide) c
  have hlowq : (10 : ℚ) ^ Nat.log 10 c ≤ c := by exact_mod_cast hlow
  have hhighq : (c : ℚ) < 10 ^ (Nat.log 10 c + 1) := by exact_mod_cast hhigh
  apply order_eq
  · rw [zpow_add₀ (by norm_num), zpow_natCast]
    exact mul_le_mul_of_nonneg_right hlowq (ten_zpow_pos e).le
  · have hsplit : (10 : ℚ) ^ ((Nat.log 10 c : ℤ) + e + 1) = 10 ^ (Nat.log 10 c + 1) * 10 ^ e := by
      rw [← zpow_natCast, ← zpow_add₀ (by norm_num)]
      congr 1
      push_cast
      ring
    rw [hsplit]
    exact mul_lt_mul_of_pos_right hhighq (ten_zpow_pos e)

theorem toDigits_coefficient (prec c : Nat) (e : ℤ) :
    toDigits prec (c * 10 ^ e : ℚ) = dropDigits c (digitCount c - prec) * 10 ^ (e + (digitCount c - prec : Nat)) := by
  rcases Nat.eq_zero_or_pos c with rfl | hc
  · have hzero := dropDigits_eq 0 (digitCount 0 - prec)
    have hdrop : dropDigits 0 (digitCount 0 - prec) = 0 := by
      rw [Nat.cast_zero, zero_div] at hzero
      have hhalf := halfUp_intCast 0
      rw [Int.cast_zero] at hhalf
      rw [hhalf] at hzero
      exact_mod_cast hzero
    rw [hdrop]
    simp
  · rw [toDigits, order_coefficient hc, toPlaces]
    obtain ⟨k, hk⟩ : ∃ k : Nat, k = digitCount c - prec := ⟨_, rfl⟩
    rw [← hk]
    rcases Nat.le_total (digitCount c) prec with hle | hle
    · obtain rfl : k = 0 := by omega
      obtain ⟨r, hr⟩ : ∃ r : Nat, (prec : ℤ) - 1 - (Nat.log 10 c + e) = r - e := by
        refine ⟨prec - digitCount c, ?_⟩
        rw [digitCount] at hle ⊢
        omega
      have hwhole : (c : ℚ) * 10 ^ e * 10 ^ ((r : ℤ) - e) = ((c * 10 ^ r : ℕ) : ℤ) := by
        rw [mul_assoc, ← zpow_add₀ (by norm_num), add_sub_cancel, zpow_natCast]
        push_cast
        rfl
      rw [hr, hwhole, halfUp_intCast, ← hwhole, mul_div_assoc, div_self (ten_zpow_pos _).ne', mul_one]
      simp [dropDigits]
    · have hplaces : (prec : ℤ) - 1 - (Nat.log 10 c + e) = -(e + k) := by
        rw [digitCount] at hk hle
        omega
      have hscaled : (c : ℚ) * 10 ^ e * 10 ^ (-(e + (k : ℤ))) = c / 10 ^ k := by
        rw [mul_assoc, ← zpow_add₀ (by norm_num)]
        have hexponent : e + -(e + (k : ℤ)) = -k := by ring
        rw [hexponent, zpow_neg, zpow_natCast, div_eq_mul_inv]
      rw [hplaces, hscaled, ← dropDigits_eq, zpow_neg, div_inv_eq_mul]
      push_cast
      rfl

theorem value_fix (prec : Nat) (x : Decimal) : (fix prec x).value = toDigits prec x.value := by
  obtain ⟨negative, c, e⟩ := x
  rw [fix, value_eq, value_eq]
  cases negative with
  | true =>
      rw [if_pos rfl, if_pos rfl, toDigits_neg, toDigits_coefficient]
  | false =>
      simp only [Bool.false_eq_true, if_false, toDigits_coefficient]

/-! ### Operations -/

theorem value_multiply (prec : Nat) (x y : Decimal) : (multiply prec x y).value = toDigits prec (x.value * y.value) := by
  rw [multiply, value_fix]
  congr 1
  rw [value, value, value, zpow_add₀ (by norm_num)]
  push_cast
  cases x.negative <;> cases y.negative <;> simp <;> ring

theorem cast_signedAt (x : Decimal) {e : ℤ} (he : e ≤ x.exponent) : (x.signedAt e : ℚ) * 10 ^ e = x.value := by
  obtain ⟨k, hk⟩ := Int.eq_ofNat_of_zero_le (by omega : 0 ≤ x.exponent - e)
  have hexponent : x.exponent = k + e := by omega
  rw [signedAt, value, hk, hexponent, zpow_add₀ (by norm_num), zpow_natCast]
  cases x.negative <;> simp <;> ring

theorem value_add (prec : Nat) (x y : Decimal) : (add prec x y).value = toDigits prec (x.value + y.value) := by
  rw [add, value_fix]
  congr 1
  rw [← cast_signedAt x (min_le_left x.exponent y.exponent), ← cast_signedAt y (min_le_right x.exponent y.exponent), ← add_mul,
    value]
  obtain ⟨sum, hsum⟩ : ∃ sum, sum = x.signedAt (min x.exponent y.exponent) + y.signedAt (min x.exponent y.exponent) := ⟨_, rfl⟩
  rw [← hsum]
  have hcast : ((x.signedAt (min x.exponent y.exponent) : ℤ) : ℚ) + (y.signedAt (min x.exponent y.exponent) : ℤ) = sum := by
    rw [hsum]
    push_cast
    rfl
  rw [hcast]
  rcases lt_trichotomy sum 0 with hneg | rfl | hpos
  · have habs : ((sum.natAbs : ℕ) : ℚ) = -sum := by
      rw [Nat.cast_natAbs, abs_of_neg hneg]
      push_cast
      rfl
    simp [hneg.ne, hneg, habs]
  · simp
  · have habs : ((sum.natAbs : ℕ) : ℚ) = sum := by rw [Nat.cast_natAbs, abs_of_pos hpos]
    simp [hpos.ne', hpos.le, habs]

theorem value_subtract (prec : Nat) (x y : Decimal) : (subtract prec x y).value = toDigits prec (x.value - y.value) := by
  rw [subtract, value_add, value_copyNegate, sub_eq_add_neg]

theorem quotientOrder_spec {a b : Nat} (ha : 0 < a) (hb : 0 < b) :
    (10 : ℚ) ^ quotientOrder a b ≤ a / b ∧ (a : ℚ) / b < 10 ^ (quotientOrder a b + 1) := by
  have hbq : (0 : ℚ) < b := by exact_mod_cast hb
  have hlowa : (10 : ℚ) ^ Nat.log 10 a ≤ a := by exact_mod_cast Nat.pow_log_le_self 10 ha.ne'
  have hhigha : (a : ℚ) < 10 ^ (Nat.log 10 a + 1) := by exact_mod_cast Nat.lt_pow_succ_log_self (by decide) a
  have hlowb : (10 : ℚ) ^ Nat.log 10 b ≤ b := by exact_mod_cast Nat.pow_log_le_self 10 hb.ne'
  have hhighb : (b : ℚ) < 10 ^ (Nat.log 10 b + 1) := by exact_mod_cast Nat.lt_pow_succ_log_self (by decide) b
  obtain ⟨d, hd⟩ : ∃ d : ℤ, d = digitCount a - digitCount b := ⟨_, rfl⟩
  have hdlog : d = (Nat.log 10 a : ℤ) - Nat.log 10 b := by
    rw [hd, digitCount, digitCount]
    omega
  have htest : b * 10 ^ d.toNat ≤ a * 10 ^ (-d).toNat ↔ (10 : ℚ) ^ d ≤ a / b := by
    rw [ten_zpow_eq, div_le_div_iff₀ (by positivity) hbq, mul_comm, ← Nat.cast_le (α := ℚ)]
    push_cast
    rfl
  rw [quotientOrder, ← hd]
  by_cases h : b * 10 ^ d.toNat ≤ a * 10 ^ (-d).toNat
  · rw [if_pos h]
    refine ⟨htest.1 h, ?_⟩
    rw [div_lt_iff₀ hbq]
    have hpow : (10 : ℚ) ^ (Nat.log 10 a + 1) = 10 ^ (d + 1) * 10 ^ Nat.log 10 b := by
      rw [← zpow_natCast, ← zpow_natCast, ← zpow_add₀ (by norm_num), hdlog]
      congr 1
      push_cast
      ring
    calc (a : ℚ) < 10 ^ (d + 1) * 10 ^ Nat.log 10 b := hpow ▸ hhigha
      _ ≤ 10 ^ (d + 1) * b := mul_le_mul_of_nonneg_left hlowb (ten_zpow_pos _).le
  · rw [if_neg h, sub_add_cancel]
    refine ⟨?_, not_le.1 fun hle => h (htest.2 hle)⟩
    rw [le_div_iff₀ hbq]
    have hpow : (10 : ℚ) ^ Nat.log 10 a = 10 ^ (d - 1) * 10 ^ (Nat.log 10 b + 1) := by
      rw [← zpow_natCast, ← zpow_natCast, ← zpow_add₀ (by norm_num), hdlog]
      congr 1
      push_cast
      ring
    calc (10 : ℚ) ^ (d - 1) * b ≤ 10 ^ (d - 1) * 10 ^ (Nat.log 10 b + 1) :=
          mul_le_mul_of_nonneg_left hhighb.le (ten_zpow_pos _).le
      _ ≤ a := hpow ▸ hlowa

theorem quotientAt_eq (a : Nat) {b : Nat} (hb : 0 < b) (places : ℤ) :
    ((quotientAt a b places : Nat) : ℤ) = halfUp (a / b * 10 ^ places) := by
  have hbq : (0 : ℚ) < b := by exact_mod_cast hb
  have hden : 0 < b * 10 ^ (-places).toNat := by positivity
  rw [quotientAt, halfUp_div hden, ten_zpow_eq]
  congr 1
  push_cast
  field_simp

/-- A quotient is the exact one, rounded to the digits of the context. -/
theorem divide_ok (prec : Nat) (x : Decimal) {y : Decimal} (hy : y.value ≠ 0) :
    ∃ z, divide prec x y = .ok z ∧ z.value = toDigits prec (x.value / y.value) := by
  obtain ⟨xneg, a, ex⟩ := x
  obtain ⟨yneg, b, ey⟩ := y
  have hb : b ≠ 0 := fun h => hy ((value_eq_zero_iff _).2 h)
  rw [divide]
  simp only [if_neg hb]
  rcases Nat.eq_zero_or_pos a with rfl | ha
  · refine ⟨_, if_pos rfl, ?_⟩
    have hzero : value ⟨xneg, 0, ex⟩ = 0 := (value_eq_zero_iff _).2 rfl
    rw [hzero, zero_div, toDigits_zero]
    exact (value_eq_zero_iff _).2 rfl
  · rw [if_neg ha.ne']
    refine ⟨_, rfl, ?_⟩
    have hbpos := Nat.pos_of_ne_zero hb
    have hbq : (0 : ℚ) < b := by exact_mod_cast hbpos
    obtain ⟨hlow, hhigh⟩ := quotientOrder_spec ha hbpos
    obtain ⟨o, ho⟩ : ∃ o, o = quotientOrder a b := ⟨_, rfl⟩
    rw [← ho] at hlow hhigh ⊢
    have hquotient : (a : ℚ) * 10 ^ ex / (b * 10 ^ ey) = a / b * 10 ^ (ex - ey) := by
      rw [zpow_sub₀ (by norm_num)]
      field_simp
    have horder : order ((a : ℚ) / b * 10 ^ (ex - ey)) = o + (ex - ey) := by
      apply order_eq
      · rw [zpow_add₀ (by norm_num)]
        exact mul_le_mul_of_nonneg_right hlow (ten_zpow_pos _).le
      · rw [add_right_comm, zpow_add₀ (by norm_num)]
        exact mul_lt_mul_of_pos_right hhigh (ten_zpow_pos _)
    have hmagnitude : toDigits prec ((a : ℚ) / b * 10 ^ (ex - ey)) =
        quotientAt a b (prec - 1 - o) * 10 ^ (ex - ey - (prec - 1 - o)) := by
      rw [toDigits, horder, toPlaces, mul_assoc, ← zpow_add₀ (by norm_num)]
      have hplaces : ex - ey + ((prec : ℤ) - 1 - (o + (ex - ey))) = prec - 1 - o := by ring
      rw [hplaces, ← quotientAt_eq a hbpos, Int.cast_natCast, div_eq_mul_inv, ← zpow_neg]
      congr 2
      ring
    rw [value_eq, value_eq, value_eq, ← hmagnitude, ← hquotient]
    cases xneg <;> cases yneg <;> simp [toDigits_neg, neg_div, div_neg]

theorem coefficientAt_eq (x : Decimal) (places : ℤ) :
    ((x.coefficientAt places : Nat) : ℤ) = halfUp (x.coefficient * 10 ^ x.exponent * 10 ^ places) := by
  rw [mul_assoc, ← zpow_add₀ (by norm_num), coefficientAt]
  split
  · next h =>
    obtain ⟨k, hk⟩ := Int.eq_ofNat_of_zero_le h
    have hwhole : (x.coefficient : ℚ) * 10 ^ (x.exponent + places) = ((x.coefficient * 10 ^ k : ℕ) : ℤ) := by
      rw [hk, zpow_natCast]
      push_cast
      rfl
    rw [hwhole, halfUp_intCast, hk, Int.toNat_natCast]
  · next h =>
    obtain ⟨k, hk⟩ := Int.eq_ofNat_of_zero_le (by omega : 0 ≤ -(x.exponent + places))
    have hscaled : (x.coefficient : ℚ) * 10 ^ (x.exponent + places) = x.coefficient / 10 ^ k := by
      obtain hneg : x.exponent + places = -k := by omega
      rw [hneg, zpow_neg, zpow_natCast, div_eq_mul_inv]
    rw [hscaled, ← dropDigits_eq, hk, Int.toNat_natCast]

theorem value_coefficientAt (x : Decimal) (places : ℤ) :
    value ⟨x.negative, x.coefficientAt places, -places⟩ = toPlaces places x.value := by
  have hmagnitude : ((x.coefficientAt places : Nat) : ℚ) * 10 ^ (-places) = toPlaces places (x.coefficient * 10 ^ x.exponent) := by
    rw [toPlaces, ← coefficientAt_eq, Int.cast_natCast, zpow_neg, div_eq_mul_inv]
  obtain ⟨negative, c, e⟩ := x
  rw [value_eq, value_eq, hmagnitude]
  cases negative with
  | true => rw [if_pos rfl, if_pos rfl, toPlaces_neg]
  | false => rfl

/-- What is quantized is rounded to its places, if the digits of the context hold it. -/
theorem quantize_ok {prec : Nat} {places : ℤ} {x : Decimal} (h : |x.value| * 10 ^ places + 1 < 10 ^ prec) :
    ∃ z, quantize prec places x = .ok z ∧ z.value = toPlaces places x.value ∧ z.negative = x.negative ∧ z.exponent = -places := by
  have hmagnitude : |x.value| = x.coefficient * 10 ^ x.exponent := by
    have hnonneg : (0 : ℚ) ≤ x.coefficient * 10 ^ x.exponent := mul_nonneg (Nat.cast_nonneg _) (ten_zpow_pos _).le
    rw [value, abs_mul, abs_of_nonneg hnonneg]
    cases x.negative <;> simp
  have hcast := coefficientAt_eq x places
  rw [← hmagnitude] at hcast
  have herror := (abs_le.1 (halfUp_error (|x.value| * 10 ^ places))).2
  rw [← hcast, Int.cast_natCast] at herror
  have hlt : x.coefficientAt places < 10 ^ prec := by
    have hltq : ((x.coefficientAt places : Nat) : ℚ) < 10 ^ prec := by linarith
    exact_mod_cast hltq
  have hcount : digitCount (x.coefficientAt places) ≤ prec := by
    rw [digitCount]
    rcases Nat.eq_zero_or_pos (x.coefficientAt places) with hzero | hpos
    · rw [hzero, Nat.log_zero_right]
      have hone : (1 : ℚ) < 10 ^ prec := by
        have hscaled : 0 ≤ |x.value| * 10 ^ places := mul_nonneg (abs_nonneg _) (ten_zpow_pos _).le
        linarith
      rcases Nat.eq_zero_or_pos prec with rfl | hprec
      · norm_num at hone
      · exact hprec
    · exact Nat.log_lt_of_lt_pow hpos.ne' hlt
  refine ⟨_, ?_, value_coefficientAt x places, rfl, rfl⟩
  rw [quantize, if_neg (not_lt.2 hcount)]

end Decimal
