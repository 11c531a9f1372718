import Mathlib.Algebra.Order.Floor.Ring
import Mathlib.Data.Int.Log
import Mathlib.Data.Rat.Floor
import Mathlib.Tactic.FieldSimp
import Mathlib.Tactic.Linarith
import Mathlib.Tactic.Positivity
import Mathlib.Tactic.Ring

/-!
# Rounding half up

A number rounded to a whole number, halves away from zero; to a number of decimal places; and to a number of
significant digits. A number with few digits is not changed, the error of any other is bounded by its last digit, and
rounding a number that is close to another gives the same places unless a half lies between them.
-/

namespace Rounding

/-- The nearest whole number, halves away from zero. -/
def halfUp (x : ℚ) : ℤ := if 0 ≤ x then ⌊x + 1 / 2⌋ else -⌊-x + 1 / 2⌋

/-- Rounded to a number of decimal places. -/
def toPlaces (places : ℤ) (x : ℚ) : ℚ := halfUp (x * 10 ^ places) / 10 ^ places

/-- The power of ten of the first digit. -/
def order (x : ℚ) : ℤ := Int.log 10 |x|

/-- Rounded to a number of significant digits. -/
def toDigits (digits : ℕ) (x : ℚ) : ℚ := toPlaces (digits - 1 - order x) x

/-! ### Whole numbers -/

theorem halfUp_of_nonneg {x : ℚ} (hx : 0 ≤ x) : halfUp x = ⌊x + 1 / 2⌋ := if_pos hx

@[simp] theorem halfUp_intCast (n : ℤ) : halfUp n = n := by
  rw [halfUp]
  split
  · rw [Int.floor_eq_iff]
    constructor <;> linarith
  · have hfloor : ⌊-(n : ℚ) + 1 / 2⌋ = -n := by
      rw [Int.floor_eq_iff]
      push_cast
      constructor <;> linarith
    rw [hfloor, neg_neg]

theorem halfUp_neg (x : ℚ) : halfUp (-x) = -halfUp x := by
  rcases lt_trichotomy x 0 with hneg | rfl | hpos
  · rw [halfUp, halfUp, if_pos (by linarith), if_neg (by linarith), neg_neg]
  · have hzero := halfUp_intCast 0
    rw [Int.cast_zero] at hzero
    rw [neg_zero, hzero, neg_zero]
  · rw [halfUp, halfUp, if_neg (by linarith), if_pos hpos.le, neg_neg]

theorem halfUp_error (x : ℚ) : |(halfUp x : ℚ) - x| ≤ 1 / 2 := by
  rw [halfUp]
  split
  · have hlow := Int.floor_le (x + 1 / 2)
    have hhigh := Int.lt_floor_add_one (x + 1 / 2)
    rw [abs_le]
    constructor <;> linarith
  · have hlow := Int.floor_le (-x + 1 / 2)
    have hhigh := Int.lt_floor_add_one (-x + 1 / 2)
    rw [Int.cast_neg, abs_le]
    constructor <;> linarith

/-- A whole number that is not above a number is not above its rounding. -/
theorem le_halfUp {n : ℤ} {x : ℚ} (hn : 0 ≤ n) (h : (n : ℚ) ≤ x) : n ≤ halfUp x := by
  have hx : 0 ≤ x := le_trans (Int.cast_nonneg hn) h
  rw [halfUp_of_nonneg hx, Int.le_floor]
  linarith

theorem halfUp_nonneg {x : ℚ} (hx : 0 ≤ x) : 0 ≤ halfUp x := le_halfUp (Int.le_refl 0) (by simpa using hx)

/-! ### Places -/

theorem ten_zpow_pos (places : ℤ) : (0 : ℚ) < 10 ^ places := zpow_pos (by norm_num) places

theorem toPlaces_neg (places : ℤ) (x : ℚ) : toPlaces places (-x) = -toPlaces places x := by
  rw [toPlaces, toPlaces, neg_mul, halfUp_neg, Int.cast_neg, neg_div]

@[simp] theorem toPlaces_zero (places : ℤ) : toPlaces places 0 = 0 := by
  have hzero := halfUp_intCast 0
  rw [Int.cast_zero] at hzero
  rw [toPlaces, zero_mul, hzero, Int.cast_zero, zero_div]

theorem toPlaces_nonneg {places : ℤ} {x : ℚ} (hx : 0 ≤ x) : 0 ≤ toPlaces places x := by
  have hscaled := halfUp_nonneg (mul_nonneg hx (ten_zpow_pos places).le)
  exact div_nonneg (Int.cast_nonneg hscaled) (ten_zpow_pos places).le

/-- A number that has no more places is not changed. -/
theorem toPlaces_of_eq {places n : ℤ} {x : ℚ} (h : x * 10 ^ places = n) : toPlaces places x = x := by
  rw [toPlaces, h, halfUp_intCast, ← h, mul_div_assoc, div_self (ten_zpow_pos places).ne', mul_one]

theorem toPlaces_error (places : ℤ) (x : ℚ) : |toPlaces places x - x| ≤ 1 / 2 / 10 ^ places := by
  have hpos := ten_zpow_pos places
  have herror := halfUp_error (x * 10 ^ places)
  have hdiff : toPlaces places x - x = ((halfUp (x * 10 ^ places) : ℚ) - x * 10 ^ places) / 10 ^ places := by
    rw [toPlaces]
    field_simp
  rw [hdiff, abs_div, abs_of_pos hpos]
  exact div_le_div_of_nonneg_right herror hpos.le

/-! ### Digits -/

theorem zpow_order_le {x : ℚ} (hx : 0 < x) : (10 : ℚ) ^ order x ≤ x := by
  have hlog := Int.zpow_log_le_self (b := 10) (by norm_num) hx
  rw [order, abs_of_pos hx]
  exact_mod_cast hlog

theorem lt_zpow_order_succ {x : ℚ} (hx : 0 < x) : x < (10 : ℚ) ^ (order x + 1) := by
  have hlog := Int.lt_zpow_succ_log_self (b := 10) (by norm_num) x
  rw [order, abs_of_pos hx]
  exact_mod_cast hlog

theorem order_eq {x : ℚ} {e : ℤ} (hlow : (10 : ℚ) ^ e ≤ x) (hhigh : x < (10 : ℚ) ^ (e + 1)) : order x = e := by
  have hx : 0 < x := lt_of_lt_of_le (ten_zpow_pos e) hlow
  have hfirst : (10 : ℚ) ^ e < 10 ^ (order x + 1) := lt_of_le_of_lt hlow (lt_zpow_order_succ hx)
  have hsecond : (10 : ℚ) ^ order x < 10 ^ (e + 1) := lt_of_le_of_lt (zpow_order_le hx) hhigh
  rw [zpow_lt_zpow_iff_right₀ (by norm_num)] at hfirst hsecond
  omega

theorem order_neg (x : ℚ) : order (-x) = order x := by rw [order, order, abs_neg]

theorem toDigits_neg (digits : ℕ) (x : ℚ) : toDigits digits (-x) = -toDigits digits x := by
  rw [toDigits, toDigits, order_neg, toPlaces_neg]

@[simp] theorem toDigits_zero (digits : ℕ) : toDigits digits 0 = 0 := toPlaces_zero _

theorem toDigits_nonneg {digits : ℕ} {x : ℚ} (hx : 0 ≤ x) : 0 ≤ toDigits digits x := toPlaces_nonneg hx

/-- A number of few digits: a whole number of them, at some place. -/
def HasDigits (digits : ℕ) (x : ℚ) : Prop := ∃ (n : ℕ) (e : ℤ), n < 10 ^ digits ∧ x = n * 10 ^ e

/-- At the places that its order leaves to it, a number of few digits is whole. -/
theorem HasDigits.whole {digits : ℕ} {x : ℚ} (h : HasDigits digits x) {places : ℤ} (hplaces : digits - 1 - order x ≤ places) :
    ∃ n : ℕ, x * 10 ^ places = n := by
  obtain ⟨n, e, hn, rfl⟩ := h
  rcases Nat.eq_zero_or_pos n with rfl | hpos
  · exact ⟨0, by simp⟩
  have hx : (0 : ℚ) < n * 10 ^ e := mul_pos (by exact_mod_cast hpos) (ten_zpow_pos e)
  have hlow := zpow_order_le hx
  have hbound : (n : ℚ) * 10 ^ e < 10 ^ ((digits : ℤ) + e) := by
    rw [zpow_add₀ (by norm_num), zpow_natCast]
    have hcast : (n : ℚ) < 10 ^ digits := by exact_mod_cast hn
    exact mul_lt_mul_of_pos_right hcast (ten_zpow_pos e)
  have horder : (10 : ℚ) ^ order (n * 10 ^ e) < 10 ^ ((digits : ℤ) + e) := lt_of_le_of_lt hlow hbound
  rw [zpow_lt_zpow_iff_right₀ (by norm_num)] at horder
  obtain ⟨k, hk⟩ := Int.eq_ofNat_of_zero_le (by omega : 0 ≤ e + places)
  refine ⟨n * 10 ^ k, ?_⟩
  rw [mul_assoc, ← zpow_add₀ (by norm_num), hk, zpow_natCast]
  push_cast
  rfl

theorem toDigits_of_hasDigits {digits : ℕ} {x : ℚ} (h : HasDigits digits x) : toDigits digits x = x := by
  obtain ⟨n, hn⟩ := h.whole (le_refl _)
  rw [toDigits]
  exact toPlaces_of_eq (n := n) (by rw [hn, Int.cast_natCast])

/-- The error is half of the last digit, and the last digit is small beside the number. -/
theorem toDigits_error {digits : ℕ} {x : ℚ} (hnonneg : 0 ≤ x) : |toDigits digits x - x| ≤ x * (5 / 10 ^ digits) := by
  rcases eq_or_lt_of_le hnonneg with rfl | hx
  · simp
  have herror := toPlaces_error (digits - 1 - order x) x
  have hlow := zpow_order_le hx
  have hscale : (1 : ℚ) / 2 / 10 ^ ((digits : ℤ) - 1 - order x) = 10 ^ order x * (5 / 10 ^ digits) := by
    rw [sub_sub, zpow_sub₀ (by norm_num), zpow_natCast, zpow_add₀ (by norm_num), zpow_one]
    field_simp
    norm_num
  rw [toDigits]
  calc |toPlaces (digits - 1 - order x) x - x| ≤ 10 ^ order x * (5 / 10 ^ digits) := hscale ▸ herror
    _ ≤ x * (5 / 10 ^ digits) := mul_le_mul_of_nonneg_right hlow (by positivity)

/-- A number of few digits that is not above another is not above its rounding. -/
theorem le_toDigits {digits : ℕ} {x y : ℚ} (hdigits : HasDigits digits x) (hx : 0 < x) (h : x ≤ y) : x ≤ toDigits digits y := by
  have hy : 0 < y := lt_of_lt_of_le hx h
  have horder : order x ≤ order y := by
    have hlt : (10 : ℚ) ^ order x < 10 ^ (order y + 1) := lt_of_le_of_lt (zpow_order_le hx) (h.trans_lt (lt_zpow_order_succ hy))
    rw [zpow_lt_zpow_iff_right₀ (by norm_num)] at hlt
    omega
  rcases eq_or_lt_of_le horder with heq | hlt
  · obtain ⟨n, hn⟩ := hdigits.whole (le_refl _)
    rw [toDigits, toPlaces, ← heq, le_div_iff₀ (ten_zpow_pos _), hn]
    have hle : ((n : ℤ) : ℚ) ≤ y * 10 ^ ((digits : ℤ) - 1 - order x) := by
      rw [Int.cast_natCast, ← hn]
      exact mul_le_mul_of_nonneg_right h (ten_zpow_pos _).le
    exact_mod_cast le_halfUp (Int.natCast_nonneg n) hle
  · have hpower : (10 : ℚ) ^ (order x + 1) ≤ 10 ^ order y := zpow_le_zpow_right₀ (by norm_num) (by omega)
    have hfirst : (10 : ℚ) ^ order y ≤ toDigits digits y := by
      rcases Nat.eq_zero_or_pos digits with rfl | hpos
      · obtain ⟨n, e, hn, rfl⟩ := hdigits
        have hzero : n = 0 := by simpa using hn
        rw [hzero] at hx
        simp at hx
      · obtain ⟨k, rfl⟩ := Nat.exists_eq_add_of_le' hpos
        have hscaled : (((10 ^ k : ℕ) : ℤ) : ℚ) ≤ y * 10 ^ (((k + 1 : ℕ) : ℤ) - 1 - order y) := by
          have hshift : ((k + 1 : ℕ) : ℤ) - 1 - order y = k - order y := by omega
          rw [hshift, zpow_sub₀ (by norm_num), zpow_natCast, mul_div_assoc', le_div_iff₀ (ten_zpow_pos _)]
          push_cast
          rw [mul_comm]
          exact mul_le_mul_of_nonneg_right (zpow_order_le hy) (by positivity)
        have hwhole := le_halfUp (Int.natCast_nonneg _) hscaled
        rw [toDigits, toPlaces, le_div_iff₀ (ten_zpow_pos _)]
        have hshift : (10 : ℚ) ^ order y * 10 ^ (((k + 1 : ℕ) : ℤ) - 1 - order y) = ((10 ^ k : ℕ) : ℚ) := by
          rw [← zpow_add₀ (by norm_num)]
          have hexponent : order y + (((k + 1 : ℕ) : ℤ) - 1 - order y) = k := by omega
          rw [hexponent, zpow_natCast]
          push_cast
          rfl
        rw [hshift]
        exact_mod_cast hwhole
    exact ((lt_zpow_order_succ hx).le.trans hpower).trans hfirst

theorem hasDigits_of_scaled {digits n : ℕ} {places : ℤ} {x : ℚ} (h : x * 10 ^ places = n) (hn : n < 10 ^ digits) :
    HasDigits digits x := by
  refine ⟨n, -places, hn, ?_⟩
  rw [← h, mul_assoc, ← zpow_add₀ (by norm_num), add_neg_cancel, zpow_zero, mul_one]

/-- A number that is a whole number of units of a place is not changed, if the digits hold it. -/
theorem toDigits_of_scaled {digits : ℕ} {n places : ℤ} {x : ℚ} (h : x * 10 ^ places = n) (hn : |n| < 10 ^ digits) :
    toDigits digits x = x := by
  have hnat : n.natAbs < 10 ^ digits := by
    have habs : ((n.natAbs : ℕ) : ℤ) < 10 ^ digits := by rwa [Int.natCast_natAbs]
    exact_mod_cast habs
  rcases Int.natAbs_eq n with hpos | hneg
  · apply toDigits_of_hasDigits
    have hscaled : x * 10 ^ places = (n.natAbs : ℕ) := by
      rw [h, hpos]
      simp
    exact hasDigits_of_scaled hscaled hnat
  · have hscaled : -x * 10 ^ places = (n.natAbs : ℕ) := by
      rw [neg_mul, h, hneg]
      simp
    have hopposite := toDigits_of_hasDigits (hasDigits_of_scaled hscaled hnat)
    rw [toDigits_neg] at hopposite
    exact neg_inj.1 hopposite

/-- A number that lies on a half of a place has one place more. -/
theorem hasDigits_of_half {digits : ℕ} {places : ℤ} {x : ℚ} {k : ℤ} (hx : 0 ≤ x) (hhalf : x * 10 ^ places + 1 / 2 = k)
    (hbound : x * 10 ^ (places + 1) < 10 ^ digits) : HasDigits digits x := by
  have hscaled : x * 10 ^ (places + 1) = ((10 * k - 5 : ℤ) : ℚ) := by
    rw [zpow_add_one₀ (by norm_num)]
    push_cast
    linarith
  have hnonneg : 0 ≤ 10 * k - 5 := by
    have hle : (0 : ℚ) ≤ ((10 * k - 5 : ℤ) : ℚ) := hscaled ▸ mul_nonneg hx (ten_zpow_pos _).le
    exact_mod_cast hle
  obtain ⟨n, hn⟩ := Int.eq_ofNat_of_zero_le hnonneg
  rw [hn, Int.cast_natCast] at hscaled
  apply hasDigits_of_scaled hscaled
  rw [hscaled] at hbound
  exact_mod_cast hbound

/-! ### Close numbers -/

/-- A number close to another has the same places, unless the other is on a half and this one is below it. -/
theorem toPlaces_eq_of_close {places : ℤ} {x y : ℚ} {n : ℤ} {m : ℕ} (hx : 0 ≤ x) (hy : 0 ≤ y) (hm : 0 < m)
    (hfraction : x * 10 ^ places + 1 / 2 = n / m) (hclose : |y - x| * 10 ^ places * m < 1)
    (hside : x ≤ y ∨ ¬ (m : ℤ) ∣ n) : toPlaces places y = toPlaces places x := by
  have hpos := ten_zpow_pos places
  have hmq : (0 : ℚ) < m := by exact_mod_cast hm
  have hbelow : n - 1 < m * (y * 10 ^ places + 1 / 2) ∧ m * (y * 10 ^ places + 1 / 2) < n + 1 := by
    have hx' : (n : ℚ) = m * (x * 10 ^ places + 1 / 2) := by
      rw [hfraction]
      field_simp
    have hdiff : m * (y * 10 ^ places + 1 / 2) - n = (y - x) * 10 ^ places * m := by
      rw [hx']
      ring
    have hbound : |(y - x) * 10 ^ places * m| < 1 := by
      rw [abs_mul, abs_mul, abs_of_pos hpos, abs_of_pos hmq]
      exact hclose
    rw [abs_lt] at hbound
    constructor <;> linarith [hbound.1, hbound.2]
  rw [toPlaces, toPlaces, halfUp_of_nonneg (mul_nonneg hx hpos.le), halfUp_of_nonneg (mul_nonneg hy hpos.le), hfraction]
  congr 2
  -- the floor of `n / m`, and that `m` times the other number is less than one away from `n`
  have hdiv : ⌊(n : ℚ) / m⌋ = n / (m : ℤ) := Rat.floor_intCast_div_natCast n m
  rw [hdiv, Int.floor_eq_iff]
  have hmod := Int.emod_add_mul_ediv n m
  have hnonneg := Int.emod_nonneg n (by omega : (m : ℤ) ≠ 0)
  have hlt := Int.emod_lt_of_pos n (by omega : (0 : ℤ) < m)
  have hquotient : (n : ℚ) = (n % m : ℤ) + m * (n / m : ℤ) := by exact_mod_cast hmod.symm
  constructor
  · rcases hside with hle | hdvd
    · have hle' : (n : ℚ) / m ≤ y * 10 ^ places + 1 / 2 := by
        rw [← hfraction]
        have hscaled := mul_le_mul_of_nonneg_right hle hpos.le
        linarith
      refine le_trans ?_ hle'
      rw [le_div_iff₀ hmq]
      have hmodq : (0 : ℚ) ≤ (n % m : ℤ) := by exact_mod_cast hnonneg
      linarith
    · have hne : n % m ≠ 0 := fun h => hdvd (Int.dvd_of_emod_eq_zero h)
      have hmodq : (1 : ℚ) ≤ (n % m : ℤ) := by exact_mod_cast (by omega : 1 ≤ n % m)
      have hscaled : (m : ℚ) * (n / m : ℤ) < m * (y * 10 ^ places + 1 / 2) := by linarith [hbelow.1]
      exact (lt_of_mul_lt_mul_left hscaled hmq.le).le
  · have hmodq : ((n % m : ℤ) : ℚ) + 1 ≤ m := by exact_mod_cast hlt
    have hscaled : (m : ℚ) * (y * 10 ^ places + 1 / 2) < m * ((n / m : ℤ) + 1) := by linarith [hbelow.2]
    exact lt_of_mul_lt_mul_left hscaled hmq.le

/-- A number below a half is not rounded as the half is. -/
theorem toPlaces_ne_of_below {places : ℤ} {x y : ℚ} {n : ℤ} (hx : 0 ≤ x) (hy : 0 ≤ y) (hhalf : x * 10 ^ places + 1 / 2 = n)
    (hlt : y < x) : toPlaces places y ≠ toPlaces places x := by
  have hpos := ten_zpow_pos places
  have hscaled : y * 10 ^ places < x * 10 ^ places := mul_lt_mul_of_pos_right hlt hpos
  rw [toPlaces, toPlaces, halfUp_of_nonneg (mul_nonneg hx hpos.le), halfUp_of_nonneg (mul_nonneg hy hpos.le), hhalf,
    Int.floor_intCast]
  intro heq
  rw [div_left_inj' hpos.ne', Int.cast_inj] at heq
  have hfloor := Int.floor_le (y * 10 ^ places + 1 / 2)
  rw [heq] at hfloor
  linarith

/-- The error of rounding what was made from a rounded number. -/
theorem error_trans {x y z a : ℚ} (hx : 0 ≤ x) (ha : a ≤ 1) (hy : |y - x| ≤ x * a) (hz : |z - y| ≤ y * a) :
    |z - x| ≤ x * (3 * a) := by
  have hle : y ≤ 2 * x := by
    have hupper := (abs_le.1 hy).2
    have hscaled : x * a ≤ x * 1 := mul_le_mul_of_nonneg_left ha hx
    linarith
  have hnonneg : 0 ≤ x * a := le_trans (abs_nonneg _) hy
  have hstep : y * a ≤ 2 * x * a := by
    rcases lt_or_ge a 0 with hneg | hpos
    · have hzero : x = 0 := by
        by_contra hne
        have hpos := lt_of_le_of_ne hx (Ne.symm hne)
        have hprod := mul_neg_of_pos_of_neg hpos hneg
        linarith
      rw [hzero] at hy ⊢
      have hyzero : y = 0 := by
        have habs := abs_nonneg (y - 0)
        have hsame : |y - 0| = 0 := by linarith
        simpa using hsame
      rw [hyzero]
      simp
    · exact mul_le_mul_of_nonneg_right hle hpos
  calc |z - x| = |(z - y) + (y - x)| := by rw [sub_add_sub_cancel]
    _ ≤ |z - y| + |y - x| := abs_add_le _ _
    _ ≤ x * (3 * a) := by linarith

/-- What is left of a number after its last digit, in units of that digit. -/
def cut (digits : ℕ) (x : ℚ) : ℚ := Int.fract (x * 10 ^ ((digits : ℤ) - 1 - order x))

/-- Rounding goes down when less than a half is left, and then takes what is left. -/
theorem toDigits_of_cut {digits : ℕ} {x : ℚ} (hx : 0 ≤ x) :
    (cut digits x < 1 / 2 → toDigits digits x = x - cut digits x / 10 ^ ((digits : ℤ) - 1 - order x))
      ∧ (1 / 2 ≤ cut digits x → x ≤ toDigits digits x) := by
  obtain ⟨p, hp⟩ : ∃ p, p = (digits : ℤ) - 1 - order x := ⟨_, rfl⟩
  have hpos := ten_zpow_pos p
  have hfloor := Int.floor_add_fract (x * 10 ^ p)
  have hlt := Int.fract_lt_one (x * 10 ^ p)
  have hnonneg := Int.fract_nonneg (x * 10 ^ p)
  rw [toDigits, cut, ← hp, toPlaces, halfUp_of_nonneg (mul_nonneg hx hpos.le)]
  constructor
  · intro hcut
    have hround : ⌊x * 10 ^ p + 1 / 2⌋ = ⌊x * 10 ^ p⌋ := by
      rw [Int.floor_eq_iff]
      constructor <;> linarith
    rw [hround, eq_sub_iff_add_eq, ← add_div, hfloor, mul_div_assoc, div_self hpos.ne', mul_one]
  · intro hcut
    have hround : ⌊x * 10 ^ p⌋ + 1 ≤ ⌊x * 10 ^ p + 1 / 2⌋ := by
      rw [Int.le_floor]
      push_cast
      linarith
    rw [le_div_iff₀ hpos]
    have hroundq : ((⌊x * 10 ^ p⌋ : ℤ) : ℚ) + 1 ≤ (⌊x * 10 ^ p + 1 / 2⌋ : ℤ) := by exact_mod_cast hround
    linarith

/-- When a number from which something is taken, rounded to its digits, falls below the number: when that is more than half of its last
digit. The number has few digits and is not just above a power of ten. -/
theorem toDigits_sub_lt_iff {digits : ℕ} {x loss : ℚ} (hx : 0 < x) (hfew : HasDigits digits x) (hgap : 10 ^ order x + loss ≤ x) :
    toDigits digits (x - loss) < x ↔ 1 / 2 < loss * 10 ^ ((digits : ℤ) - 1 - order x) := by
  obtain ⟨s, hs⟩ : ∃ s, s = (digits : ℤ) - 1 - order x := ⟨_, rfl⟩
  have hpos := ten_zpow_pos s
  rw [← hs]
  rcases le_or_gt loss 0 with hloss | hloss
  · have habove : x ≤ toDigits digits (x - loss) := le_toDigits hfew hx (by linarith)
    have hnone : loss * 10 ^ s ≤ 0 := mul_nonpos_of_nonpos_of_nonneg hloss hpos.le
    constructor <;> intro h <;> linarith
  · have horder : order (x - loss) = order x := by
      apply order_eq
      · linarith
      · exact lt_of_le_of_lt (by linarith) (lt_zpow_order_succ hx)
    obtain ⟨whole, hwhole⟩ := hfew.whole (le_refl _)
    rw [← hs] at hwhole
    have hrest : 0 ≤ x - loss := le_trans (ten_zpow_pos (order x)).le (by linarith)
    rw [toDigits, horder, ← hs, toPlaces, halfUp_of_nonneg (mul_nonneg hrest hpos.le), div_lt_iff₀ hpos, hwhole, sub_mul, hwhole]
    have hfloor : ((⌊(whole : ℚ) - loss * 10 ^ s + 1 / 2⌋ : ℤ) : ℚ) < whole ↔ ⌊(whole : ℚ) - loss * 10 ^ s + 1 / 2⌋ < (whole : ℤ) := by
      rw [← Int.cast_natCast, Int.cast_lt]
    rw [hfloor, Int.floor_lt]
    push_cast
    constructor <;> intro h <;> linarith

/-- When a multiple of a rounded number, rounded again, falls below the exact multiple: when the first rounding took off
more than half of the last digit of the multiple. The multiple has few digits and is not just above a power of ten. -/
theorem rounded_multiple_lt_iff {digits : ℕ} {x y : ℚ} (hx : 0 < x) (hy : 0 < y) (hfew : HasDigits digits (x * y))
    (hgap : 10 ^ order (x * y) + y / 10 ^ ((digits : ℤ) - 1 - order x) ≤ x * y) :
    toDigits digits (toDigits digits x * y) < x * y
      ↔ cut digits x < 1 / 2 ∧ 1 / 2 < cut digits x * y * 10 ^ (order x - order (x * y)) := by
  have hxy : 0 < x * y := mul_pos hx hy
  obtain ⟨hdown, hup⟩ := @toDigits_of_cut digits x hx.le
  by_cases hcut : cut digits x < 1 / 2
  · obtain ⟨p, hp⟩ : ∃ p, p = (digits : ℤ) - 1 - order x := ⟨_, rfl⟩
    obtain ⟨s, hs⟩ : ∃ s, s = (digits : ℤ) - 1 - order (x * y) := ⟨_, rfl⟩
    have hpos := ten_zpow_pos p
    have hscale : order x - order (x * y) = s - p := by omega
    obtain ⟨loss, hloss⟩ : ∃ loss, loss = cut digits x * y / 10 ^ p := ⟨_, rfl⟩
    have hmultiple : toDigits digits x * y = x * y - loss := by
      rw [hdown hcut, ← hp, hloss]
      ring
    have hlossLe : loss ≤ y / 10 ^ p := by
      rw [hloss]
      apply div_le_div_of_nonneg_right _ hpos.le
      calc cut digits x * y ≤ 1 * y := mul_le_mul_of_nonneg_right (by linarith) hy.le
        _ = y := one_mul y
    rw [← hp] at hgap
    have hshift : cut digits x * y * 10 ^ (order x - order (x * y)) = loss * 10 ^ s := by
      rw [hscale, hloss, zpow_sub₀ (by norm_num)]
      ring
    rw [hmultiple, hshift, toDigits_sub_lt_iff hxy hfew (by linarith), ← hs]
    exact ⟨fun h => ⟨hcut, h⟩, fun h => h.2⟩
  · constructor
    · intro hlt
      have hle : x * y ≤ toDigits digits x * y := mul_le_mul_of_nonneg_right (hup (not_lt.1 hcut)) hy.le
      have habove := le_toDigits hfew hxy hle
      linarith
    · intro h
      exact absurd h.1 hcut

theorem abs_halfUp_le (x : ℚ) : |(halfUp x : ℚ)| ≤ |x| + 1 / 2 := by
  have herror := halfUp_error x
  calc |(halfUp x : ℚ)| = |x + (halfUp x - x)| := by rw [add_sub_cancel]
    _ ≤ |x| + |(halfUp x : ℚ) - x| := abs_add_le _ _
    _ ≤ |x| + 1 / 2 := by linarith

/-- The difference of two numbers of the same places is not changed, if the digits hold it. -/
theorem toDigits_sub_toPlaces {digits : ℕ} {places : ℤ} {x y : ℚ}
    (hbound : |x| * 10 ^ places + |y| * 10 ^ places + 1 < 10 ^ digits) :
    toDigits digits (toPlaces places x - toPlaces places y) = toPlaces places x - toPlaces places y := by
  have hpos := ten_zpow_pos places
  apply @toDigits_of_scaled digits (halfUp (x * 10 ^ places) - halfUp (y * 10 ^ places)) places
  · rw [toPlaces, toPlaces, sub_mul, div_mul_cancel₀ _ hpos.ne', div_mul_cancel₀ _ hpos.ne']
    push_cast
    rfl
  · have hx := abs_halfUp_le (x * 10 ^ places)
    have hy := abs_halfUp_le (y * 10 ^ places)
    rw [abs_mul, abs_of_pos hpos] at hx hy
    have hdiff := abs_sub (halfUp (x * 10 ^ places) : ℚ) (halfUp (y * 10 ^ places))
    have hlt : |((halfUp (x * 10 ^ places) - halfUp (y * 10 ^ places) : ℤ) : ℚ)| < 10 ^ digits := by
      push_cast
      linarith
    exact_mod_cast hlt

/-! ### Quotients and their multiples -/

/-- A number on a half of a place is not just above a power of ten. -/
theorem order_gap_of_half {places k : ℤ} {x : ℚ} (hx : 0 < x) (hhalf : x * 10 ^ places + 1 / 2 = k) :
    10 ^ order x + 1 / 10 ^ (places + 1) ≤ x := by
  have hpos := ten_zpow_pos (places + 1)
  have hscaled : x * 10 ^ (places + 1) = ((10 * k - 5 : ℤ) : ℚ) := by
    rw [zpow_add_one₀ (by norm_num)]
    push_cast
    linarith
  have hpositive : 0 < 10 * k - 5 := by
    have hlt : (0 : ℚ) < ((10 * k - 5 : ℤ) : ℚ) := hscaled ▸ mul_pos hx hpos
    exact_mod_cast hlt
  have hpower : (10 : ℚ) ^ (order x + (places + 1)) ≤ ((10 * k - 5 : ℤ) : ℚ) := by
    rw [← hscaled, zpow_add₀ (by norm_num)]
    exact mul_le_mul_of_nonneg_right (zpow_order_le hx) hpos.le
  -- the number has a five as its last digit, and a power of ten has none
  have hnext : (10 : ℚ) ^ (order x + (places + 1)) + 1 ≤ ((10 * k - 5 : ℤ) : ℚ) := by
    rcases le_or_gt (order x + (places + 1)) 0 with hle | hlt
    · have hone : (10 : ℚ) ^ (order x + (places + 1)) ≤ 1 := zpow_le_one_of_nonpos₀ (by norm_num) hle
      have hfive : (5 : ℚ) ≤ ((10 * k - 5 : ℤ) : ℚ) := by exact_mod_cast (by omega : 5 ≤ 10 * k - 5)
      linarith
    · obtain ⟨j, hj⟩ := Int.eq_ofNat_of_zero_le (by omega : 0 ≤ order x + (places + 1) - 1)
      have hexponent : order x + (places + 1) = ((j + 1 : ℕ) : ℤ) := by omega
      rw [hexponent, zpow_natCast] at hpower ⊢
      have hwhole : ((10 ^ (j + 1) : ℤ)) ≤ 10 * k - 5 := by exact_mod_cast hpower
      rw [pow_succ] at hwhole
      have hstep : (10 : ℤ) ^ j * 10 + 1 ≤ 10 * k - 5 := by omega
      rw [pow_succ]
      exact_mod_cast hstep
  rw [zpow_add₀ (by norm_num), ← hscaled] at hnext
  apply le_of_mul_le_mul_right _ hpos
  rw [add_mul, one_div, inv_mul_cancel₀ hpos.ne']
  exact hnext

/-- What is close to a quotient has its places, if it is not below a half. -/
theorem toPlaces_of_error {digits m : ℕ} {places n : ℤ} {x y : ℚ} (hx : 0 ≤ x) (hy : 0 ≤ y) (hm : 0 < m)
    (hfraction : x * 10 ^ places + 1 / 2 = n / m) (herror : |y - x| ≤ x * (15 / 10 ^ digits))
    (hbound : x * 10 ^ places * (15 * m) < 10 ^ digits) (hhalf : (∃ k : ℤ, x * 10 ^ places + 1 / 2 = k) → x ≤ y) :
    toPlaces places y = toPlaces places x := by
  have hmq : (0 : ℚ) < m := by exact_mod_cast hm
  have hpos := ten_zpow_pos places
  have hpow : (0 : ℚ) < 10 ^ digits := by positivity
  apply toPlaces_eq_of_close hx hy hm hfraction
  · calc |y - x| * 10 ^ places * m ≤ x * (15 / 10 ^ digits) * 10 ^ places * m := by gcongr
      _ = x * 10 ^ places * (15 * m) / 10 ^ digits := by ring
      _ < 1 := by rwa [div_lt_one hpow]
  · by_cases hdvd : (m : ℤ) ∣ n
    · left
      obtain ⟨k, rfl⟩ := hdvd
      apply hhalf
      refine ⟨k, ?_⟩
      rw [hfraction]
      push_cast
      field_simp
    · right
      exact hdvd

/-- A quotient with few digits enough for its places is rounded once, whatever digits it is carried with. -/
theorem toPlaces_toDigits {digits m : ℕ} {places n : ℤ} {x : ℚ} (hx : 0 ≤ x) (hm : 0 < m)
    (hfraction : x * 10 ^ places + 1 / 2 = n / m) (hbound : x * 10 ^ places * (15 * m) < 10 ^ digits) :
    toPlaces places (toDigits digits x) = toPlaces places x := by
  have hscaled : 0 ≤ x * 10 ^ places := mul_nonneg hx (ten_zpow_pos places).le
  have hmq : (1 : ℚ) ≤ m := by exact_mod_cast hm
  apply toPlaces_of_error hx (toDigits_nonneg hx) hm hfraction _ hbound
  · rintro ⟨k, hk⟩
    apply le_of_eq (toDigits_of_hasDigits (hasDigits_of_half hx hk _)).symm
    rw [zpow_add_one₀ (by norm_num), ← mul_assoc]
    calc x * 10 ^ places * 10 ≤ x * 10 ^ places * (15 * m) := mul_le_mul_of_nonneg_left (by linarith) hscaled
      _ < 10 ^ digits := hbound
  · calc |toDigits digits x - x| ≤ x * (5 / 10 ^ digits) := toDigits_error hx
      _ ≤ x * (15 / 10 ^ digits) := by gcongr; norm_num

theorem five_div_le_one {digits : ℕ} (hdigits : 0 < digits) : (5 : ℚ) / 10 ^ digits ≤ 1 := by
  rw [div_le_one (by positivity)]
  calc (5 : ℚ) ≤ 10 ^ 1 := by norm_num
    _ ≤ 10 ^ digits := pow_le_pow_right₀ (by norm_num) hdigits

theorem toDigits_le_two_mul {digits : ℕ} (hdigits : 0 < digits) {x : ℚ} (hx : 0 ≤ x) : toDigits digits x ≤ 2 * x := by
  have herror := (abs_le.1 (@toDigits_error digits x hx)).2
  have hsmall := mul_le_mul_of_nonneg_left (five_div_le_one hdigits) hx
  linarith

theorem toDigits_mul_error {digits : ℕ} (hdigits : 0 < digits) {x y : ℚ} (hx : 0 ≤ x) (hy : 0 ≤ y) :
    |toDigits digits (toDigits digits x * y) - x * y| ≤ x * y * (15 / 10 ^ digits) := by
  have hfirst : |toDigits digits x * y - x * y| ≤ x * y * (5 / 10 ^ digits) := by
    rw [← sub_mul, abs_mul, abs_of_nonneg hy, mul_right_comm x y]
    exact mul_le_mul_of_nonneg_right (toDigits_error hx) hy
  have hsecond := @toDigits_error digits (toDigits digits x * y) (mul_nonneg (toDigits_nonneg hx) hy)
  have htrans := error_trans (mul_nonneg hx hy) (five_div_le_one hdigits) hfirst hsecond
  calc |toDigits digits (toDigits digits x * y) - x * y| ≤ x * y * (3 * (5 / 10 ^ digits)) := htrans
    _ = x * y * (15 / 10 ^ digits) := by ring

/-- A multiple of a number lies on a half of a place, and what the digits cut off the number is more, in the multiple,
than half of its last digit. -/
def HalfLost (digits : ℕ) (places : ℤ) (x y : ℚ) : Prop :=
  (∃ k : ℤ, x * y * 10 ^ places + 1 / 2 = k) ∧ cut digits x < 1 / 2
    ∧ 1 / 2 < cut digits x * y * 10 ^ (order x - order (x * y))

/-- A multiple of a number that is carried with some digits is rounded once, but for a half that is lost. -/
theorem toPlaces_multiple_iff {digits m : ℕ} {places n : ℤ} {x y : ℚ} (hx : 0 ≤ x) (hy : 0 < y) (hm : 0 < m)
    (hdigits : 0 < digits) (hfraction : x * y * 10 ^ places + 1 / 2 = n / m)
    (hbound : x * y * 10 ^ places * (100 * m) < 10 ^ digits) :
    toPlaces places (toDigits digits (toDigits digits x * y)) = toPlaces places (x * y) ↔ ¬ HalfLost digits places x y := by
  have hxy : 0 ≤ x * y := mul_nonneg hx hy.le
  have hcarried : 0 ≤ toDigits digits (toDigits digits x * y) := toDigits_nonneg (mul_nonneg (toDigits_nonneg hx) hy.le)
  have hmq : (1 : ℚ) ≤ m := by exact_mod_cast hm
  have hscaled : 0 ≤ x * y * 10 ^ places := mul_nonneg hxy (ten_zpow_pos places).le
  have hhundred : x * y * 10 ^ places * 100 < 10 ^ digits := by
    refine lt_of_le_of_lt ?_ hbound
    exact mul_le_mul_of_nonneg_left (by linarith) hscaled
  by_cases hhalf : ∃ k : ℤ, x * y * 10 ^ places + 1 / 2 = k
  · obtain ⟨k, hk⟩ := hhalf
    have hne : x * y ≠ 0 := by
      intro hzero
      rw [hzero, zero_mul, zero_add] at hk
      have hdouble : ((2 * k : ℤ) : ℚ) = 1 := by
        push_cast
        linarith
      have hodd : 2 * k = 1 := by exact_mod_cast hdouble
      omega
    have hxypos : 0 < x * y := lt_of_le_of_ne hxy (Ne.symm hne)
    have hxpos : 0 < x := pos_of_mul_pos_left hxypos hy.le
    have hfew : HasDigits digits (x * y) := by
      apply hasDigits_of_half hxy hk
      rw [zpow_add_one₀ (by norm_num), ← mul_assoc]
      linarith
    have hunit : 0 ≤ y * (10 ^ places * 10) := mul_nonneg hy.le (mul_nonneg (ten_zpow_pos places).le (by norm_num))
    have hgap : 10 ^ order (x * y) + y / 10 ^ ((digits : ℤ) - 1 - order x) ≤ x * y := by
      refine le_trans ?_ (order_gap_of_half hxypos hk)
      have hlast : y / 10 ^ ((digits : ℤ) - 1 - order x) ≤ 1 / 10 ^ (places + 1) := by
        rw [div_le_div_iff₀ (ten_zpow_pos _) (ten_zpow_pos _), one_mul, zpow_sub₀ (by norm_num), zpow_sub₀ (by norm_num),
          zpow_natCast, zpow_one, le_div_iff₀ (ten_zpow_pos _), le_div_iff₀ (by norm_num), zpow_add_one₀ (by norm_num)]
        calc y * (10 ^ places * 10) * 10 ^ order x * 10 ≤ y * (10 ^ places * 10) * x * 10 :=
              mul_le_mul_of_nonneg_right (mul_le_mul_of_nonneg_left (zpow_order_le hxpos) hunit) (by norm_num)
          _ = x * y * 10 ^ places * 100 := by ring
          _ ≤ 10 ^ digits := hhundred.le
      linarith
    have hiff := rounded_multiple_lt_iff hxpos hy hfew hgap
    constructor
    · rintro heq ⟨-, hcut⟩
      exact toPlaces_ne_of_below hxy hcarried hk (hiff.2 hcut) heq
    · intro hkept
      have hle : x * y ≤ toDigits digits (toDigits digits x * y) := by
        rw [← not_lt]
        intro hlt
        exact hkept ⟨⟨k, hk⟩, hiff.1 hlt⟩
      apply toPlaces_of_error hxy hcarried hm hfraction (toDigits_mul_error hdigits hx hy.le) _ fun _ => hle
      refine lt_of_le_of_lt ?_ hbound
      exact mul_le_mul_of_nonneg_left (by linarith) hscaled
  · constructor
    · intro _ hlost
      exact hhalf hlost.1
    · intro _
      apply toPlaces_of_error hxy hcarried hm hfraction (toDigits_mul_error hdigits hx hy.le) _ fun h => absurd h hhalf
      refine lt_of_le_of_lt ?_ hbound
      exact mul_le_mul_of_nonneg_left (by linarith) hscaled

/-! ### Numbers that were carried -/

/-- Halfway between two numbers of the places. -/
def OnHalf (places : ℤ) (x : ℚ) : Prop := ∃ k : ℤ, x * 10 ^ places + 1 / 2 = k

/-- A number on a half that is carried as a smaller one. -/
def Lost (places : ℤ) (x y : ℚ) : Prop := OnHalf places x ∧ |y| < |x|

end Rounding
