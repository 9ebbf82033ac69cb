import Mathlib.Algebra.Order.Field.Power
import Mathlib.Data.Rat.Cast.Order
import Mathlib.Tactic.FieldSimp
import Mathlib.Tactic.Linarith
import Mathlib.Tactic.NormNum
import Mathlib.Tactic.Positivity
import Mathlib.Tactic.Ring
import EntityBroker.Double.Decimal

/-!
# Where rounding overflows

A decimal rounds to a finite double exactly below `Double.overflow`, half a last place above the
largest finite double (`nearest_isFinite_iff`). A quotient of whole numbers is followed through the
rounding as a rational `x` with `x * denominator = numerator`.
-/

namespace EntityBroker

namespace Double

/-- Half way from the largest finite double to the power of two above it; this far it is rounded
away, to infinity. -/
def overflow : ℚ := 2 ^ 1024 - 2 ^ 970

theorem isFinite_ofMagnitude (negative : Bool) {magnitude : Nat}
    (h : magnitude ≤ infinityMagnitude) :
    (ofMagnitude negative magnitude).isFinite = true ↔ magnitude < infinityMagnitude := by
  have hinfinity : infinityMagnitude = 2047 * 2 ^ 52 := rfl
  cases negative <;> simp [isFinite, exponentField, ofMagnitude] <;> omega

end Double

namespace Decimal

open Double (overflow infinityMagnitude)

-- ---------------------------------------------------------------- rounding to a whole number

section
variable {n num den : Nat}

theorem le_roundHalfEven (h : n ≤ num / den) : n ≤ roundHalfEven num den := by
  unfold roundHalfEven
  simp only
  split
  · exact h
  · split <;> omega

theorem roundHalfEven_le (h : num / den < n) : roundHalfEven num den ≤ n := by
  unfold roundHalfEven
  simp only
  split
  · omega
  · split <;> omega

/-- An even number is reached from half a unit below, for the odd number before it gives way. -/
theorem roundHalfEven_lt_iff (hd : 0 < den) (half : Nat) :
    roundHalfEven num den < 2 * half + 2 ↔ 2 * num < (4 * half + 3) * den := by
  have hsum := Nat.div_add_mod num den
  have hmod := Nat.mod_lt num hd
  have hbound : (4 * half + 3) * den = 2 * (den * (2 * half + 1)) + den := by ring
  unfold roundHalfEven
  simp only
  generalize num / den = q at *
  generalize num % den = r at *
  have hstep : ∀ {a b : Nat}, a < b → den * a + den ≤ den * b := by
    intro a b hab
    have hle := Nat.mul_le_mul_left den (Nat.succ_le_of_lt hab)
    rwa [Nat.succ_eq_add_one, Nat.mul_add, Nat.mul_one] at hle
  rw [hbound, ← hsum]
  rcases lt_trichotomy q (2 * half + 1) with hq | rfl | hq
  · have hbelow := hstep hq
    split <;> (try split) <;> omega
  · split <;> (try split) <;> omega
  · have habove := hstep hq
    split <;> (try split) <;> omega

end

-- ---------------------------------------------------------------- quotients as rationals

section
variable {num den : Nat} {x : ℚ}

theorem pow_toNat {b : ℚ} (hb : b ≠ 0) (e : ℤ) : b ^ e.toNat = b ^ e * b ^ (-e).toNat := by
  rw [← zpow_natCast, ← zpow_natCast, ← zpow_add₀ hb]
  congr 1
  omega

/-- Dividing by a power of two is done on the numerator or on the denominator. -/
theorem scaled_eq (h : x * den = num) (scale : ℤ) :
    x / 2 ^ scale * (den * Nat.pow 2 scale.toNat : ℕ) = (num * Nat.pow 2 (-scale).toNat : ℕ) := by
  push_cast [Nat.pow_eq]
  rw [pow_toNat two_ne_zero scale, ← h]
  field_simp

theorem scaled_pos (hd : 0 < den) (scale : ℤ) : 0 < den * Nat.pow 2 scale.toNat :=
  Nat.mul_pos hd (Nat.two_pow_pos _)

theorem mul_le_iff (hd : 0 < den) (h : x * den = num) (n : Nat) : n * den ≤ num ↔ (n : ℚ) ≤ x := by
  have hpos : (0 : ℚ) < den := Nat.cast_pos.mpr hd
  rw [← Nat.cast_le (α := ℚ), ← h, Nat.cast_mul, mul_le_mul_iff_left₀ hpos]

theorem scaled_le_iff (hd : 0 < den) (h : x * den = num) (scale : ℤ) :
    den * Nat.pow 2 scale.toNat ≤ num * Nat.pow 2 (-scale).toNat ↔ 2 ^ scale ≤ x := by
  have hscaled := mul_le_iff (scaled_pos hd scale) (scaled_eq h scale) 1
  have hpos : (0 : ℚ) < 2 ^ scale := by positivity
  rw [Nat.one_mul, Nat.cast_one, le_div_iff₀ hpos, one_mul] at hscaled
  exact hscaled

theorem two_zpow_mul {e : ℤ} {m n : ℕ} (h : e + m = n) : (2 : ℚ) ^ e * 2 ^ m = 2 ^ n := by
  rw [← zpow_natCast, ← zpow_natCast, ← zpow_add₀ two_ne_zero, h]

theorem floorLog2_spec (hn : 0 < num) (hd : 0 < den) (h : x * den = num) :
    2 ^ floorLog2 num den ≤ x ∧ x < 2 ^ (floorLog2 num den + 1) := by
  have hpos : (0 : ℚ) < den := Nat.cast_pos.mpr hd
  have hnumLow : (2 : ℚ) ^ num.log2 ≤ num := mod_cast Nat.log2_self_le hn.ne'
  have hdenLow : (2 : ℚ) ^ den.log2 ≤ den := mod_cast Nat.log2_self_le hd.ne'
  have hnumHigh : (num : ℚ) < 2 ^ (num.log2 + 1) := mod_cast Nat.lt_log2_self
  have hdenHigh : (den : ℚ) < 2 ^ (den.log2 + 1) := mod_cast Nat.lt_log2_self
  have hlow : 2 ^ ((num.log2 : ℤ) - den.log2 - 1) ≤ x := by
    apply le_of_mul_le_mul_right _ hpos
    calc (2 : ℚ) ^ ((num.log2 : ℤ) - den.log2 - 1) * den
        ≤ 2 ^ ((num.log2 : ℤ) - den.log2 - 1) * 2 ^ (den.log2 + 1) := by gcongr
      _ = 2 ^ num.log2 := two_zpow_mul (by omega)
      _ ≤ x * den := by rw [h]; exact hnumLow
  have hhigh : x < 2 ^ ((num.log2 : ℤ) - den.log2 + 1) := by
    apply lt_of_mul_lt_mul_right _ hpos.le
    calc x * den < 2 ^ (num.log2 + 1) := by rw [h]; exact hnumHigh
      _ = 2 ^ ((num.log2 : ℤ) - den.log2 + 1) * 2 ^ den.log2 := (two_zpow_mul (by omega)).symm
      _ ≤ 2 ^ ((num.log2 : ℤ) - den.log2 + 1) * den := by gcongr
  simp only [floorLog2, scaled_le_iff hd h]
  split
  · rename_i hk
    exact ⟨hk, hhigh⟩
  · rename_i hk
    rw [sub_add_cancel]
    exact ⟨hlow, lt_of_not_ge hk⟩

theorem le_roundHalfEven_value (hd : 0 < den) (h : x * den = num) {n : Nat} (hx : (n : ℚ) ≤ x) :
    n ≤ roundHalfEven num den :=
  le_roundHalfEven ((Nat.le_div_iff_mul_le hd).mpr ((mul_le_iff hd h n).mpr hx))

theorem roundHalfEven_value_le (hd : 0 < den) (h : x * den = num) {n : Nat} (hx : x < n) :
    roundHalfEven num den ≤ n := by
  apply roundHalfEven_le
  rw [Nat.div_lt_iff_lt_mul hd, ← not_le, mul_le_iff hd h n]
  exact not_le.mpr hx

theorem roundHalfEven_lt_iff_value (hd : 0 < den) (h : x * den = num) (half : Nat) :
    roundHalfEven num den < 2 * half + 2 ↔ 2 * x < 4 * half + 3 := by
  have hpos : (0 : ℚ) < den := Nat.cast_pos.mpr hd
  rw [roundHalfEven_lt_iff hd, ← Nat.cast_lt (α := ℚ)]
  push_cast
  rw [← h, ← mul_assoc, mul_lt_mul_iff_left₀ hpos]

-- ---------------------------------------------------------------- magnitudes below infinity

theorem overflow_eq : overflow = (2 ^ 54 - 1) * 2 ^ (970 : ℤ) := by
  have hsplit : (2 : ℚ) ^ 1024 = 2 ^ 54 * 2 ^ 970 := by rw [← pow_add]
  rw [overflow, hsplit, sub_mul, one_mul]
  rfl

theorem le_overflow : (2 : ℚ) ^ (1023 : ℤ) ≤ overflow := by
  have hsplit : (2 : ℚ) ^ (1023 : ℤ) = 2 ^ 53 * 2 ^ (970 : ℤ) := by
    rw [← zpow_natCast, ← zpow_add₀ two_ne_zero]
    rfl
  rw [overflow_eq, hsplit]
  gcongr
  norm_num

theorem overflow_le : overflow ≤ 2 ^ (1024 : ℤ) := sub_le_self _ (by positivity)

theorem nearestMagnitude_le (num den : Nat) : nearestMagnitude num den ≤ infinityMagnitude :=
  Nat.min_le_right ..

-- In these three the power of two is a variable: as a numeral it would be multiplied out.
section
variable {unit half : Nat} {order scale : ℤ}

theorem significand_le (hd : 0 < den) (h : x * den = num) (hunit : (unit : ℚ) = 2 ^ 52)
    (hhigh : x < 2 ^ (order + 1)) (hscale : order - 52 ≤ scale) :
    roundHalfEven (num * Nat.pow 2 (-scale).toNat) (den * Nat.pow 2 scale.toNat) ≤ 2 * unit := by
  apply roundHalfEven_value_le (scaled_pos hd scale) (scaled_eq h scale)
  have hpos : (0 : ℚ) < 2 ^ scale := by positivity
  push_cast
  rw [div_lt_iff₀ hpos, hunit, ← pow_succ', ← zpow_natCast, ← zpow_add₀ two_ne_zero]
  refine hhigh.trans_le (zpow_le_zpow_right₀ one_le_two ?_)
  omega

theorem le_significand (hd : 0 < den) (h : x * den = num) (hunit : (unit : ℚ) = 2 ^ 52)
    (hlow : 2 ^ order ≤ x) (hscale : scale ≤ order - 52) :
    unit ≤ roundHalfEven (num * Nat.pow 2 (-scale).toNat) (den * Nat.pow 2 scale.toNat) := by
  apply le_roundHalfEven_value (scaled_pos hd scale) (scaled_eq h scale)
  have hpos : (0 : ℚ) < 2 ^ scale := by positivity
  rw [le_div_iff₀ hpos, hunit, ← zpow_natCast, ← zpow_add₀ two_ne_zero]
  refine (zpow_le_zpow_right₀ one_le_two ?_).trans hlow
  omega

theorem significand_lt_iff (hd : 0 < den) (h : x * den = num) (hhalf : (half : ℚ) + 1 = 2 ^ 52) :
    roundHalfEven (num * Nat.pow 2 (-971 : ℤ).toNat) (den * Nat.pow 2 (971 : ℤ).toNat) <
      2 * half + 2 ↔ x < overflow := by
  have hdouble : (2 : ℚ) ^ (971 : ℤ) = 2 ^ (970 : ℤ) * 2 := zpow_add_one₀ two_ne_zero 970
  have hhalves : 2 * (x / 2 ^ (971 : ℤ)) = x / 2 ^ (970 : ℤ) := by
    rw [hdouble]
    field_simp
  have hnext : (4 : ℚ) * half + 3 = 2 ^ 54 - 1 := by linarith
  have hpos : (0 : ℚ) < 2 ^ (970 : ℤ) := by positivity
  rw [roundHalfEven_lt_iff_value (scaled_pos hd 971) (scaled_eq h 971), hhalves, hnext,
    div_lt_iff₀ hpos, ← overflow_eq]

end

/-- The exponent decides but for one binade, the last below infinity. There it is the significand
that must not round up to the next power of two. -/
theorem nearestMagnitude_lt_iff (hn : 0 < num) (hd : 0 < den) (h : x * den = num) :
    nearestMagnitude num den < infinityMagnitude ↔ x < overflow := by
  obtain ⟨half, hhalf, hvalue⟩ : ∃ half : Nat, Nat.pow 2 52 = half + 1 ∧ (half : ℚ) + 1 = 2 ^ 52 :=
    ⟨2 ^ 52 - 1, rfl, by norm_num⟩
  have hunit : ((half + 1 : ℕ) : ℚ) = 2 ^ 52 := by rw [Nat.cast_succ, hvalue]
  obtain ⟨hlow, hhigh⟩ := floorLog2_spec hn hd h
  simp only [nearestMagnitude, infinityMagnitude, min_lt_iff, lt_self_iff_false, or_false, hhalf]
  generalize floorLog2 num den = order at hlow hhigh ⊢
  rcases lt_trichotomy order 1023 with horder | rfl | horder
  · have hround := significand_le hd h hunit hhigh (le_max_left (order - 52) (-1074))
    have hfield : (max (order - 52) (-1074) + 1074).toNat ≤ 2044 := by omega
    have hproduct := Nat.mul_le_mul_right (half + 1) hfield
    refine iff_of_true (by omega) ((hhigh.trans_le ?_).trans_le le_overflow)
    exact zpow_le_zpow_right₀ one_le_two (by omega)
  · have hscale : max ((1023 : ℤ) - 52) (-1074) = 971 := rfl
    have hfield : ((971 : ℤ) + 1074).toNat = 2045 := rfl
    rw [← significand_lt_iff hd h hvalue, hscale, hfield]
    omega
  · have hscale : max (order - 52) (-1074) = order - 52 := by omega
    have hround := le_significand hd h hunit hlow (le_refl (order - 52))
    have hfield : 2046 ≤ (order - 52 + 1074).toNat := by omega
    have hproduct := Nat.mul_le_mul_right (half + 1) hfield
    rw [hscale]
    refine iff_of_false (by omega) (not_lt.mpr ((overflow_le.trans ?_).trans hlow))
    exact zpow_le_zpow_right₀ one_le_two (by omega)

end

-- ---------------------------------------------------------------- decimals

/-- What a decimal writes, without its sign. -/
def magnitude (d : Decimal) : ℚ := d.digits * 10 ^ d.exponent

theorem magnitude_mul (d : Decimal) :
    d.magnitude * (Nat.pow 10 (-d.exponent).toNat : ℕ) =
      (d.digits * Nat.pow 10 d.exponent.toNat : ℕ) := by
  have hten : (10 : ℚ) ≠ 0 := by norm_num
  push_cast [Nat.pow_eq]
  rw [pow_toNat hten d.exponent, magnitude, mul_assoc]

theorem pow_length_le {n : Nat} (h : n ≠ 0) : 10 ^ (length n - 1) ≤ n := by
  have hpos : 0 < length n := Nat.length_toDigits_pos
  by_cases hone : length n = 1
  · rw [hone]
    exact Nat.pos_of_ne_zero h
  · apply le_of_not_gt
    rw [← Nat.length_toDigits_le_iff (by decide) (by omega)]
    exact not_le.mpr (Nat.sub_lt hpos Nat.one_pos)

theorem magnitude_bounds {d : Decimal} (h : d.digits ≠ 0) :
    10 ^ (d.exponent + length d.digits - 1) ≤ d.magnitude ∧
      d.magnitude < 10 ^ (d.exponent + length d.digits) := by
  have hten : (10 : ℚ) ≠ 0 := by norm_num
  have hpos : 0 < length d.digits := Nat.length_toDigits_pos
  have hlow := pow_length_le h
  have hhigh : d.digits < 10 ^ length d.digits :=
    (Nat.length_toDigits_le_iff (by decide) hpos).mp le_rfl
  have hbelow : d.exponent + length d.digits - 1 = (length d.digits - 1 : ℕ) + d.exponent := by
    omega
  rw [hbelow, add_comm d.exponent, zpow_add₀ hten, zpow_add₀ hten, zpow_natCast, zpow_natCast]
  unfold magnitude
  constructor
  · gcongr
    exact_mod_cast hlow
  · gcongr
    exact_mod_cast hhigh

/-- Any power of ten out of the range of doubles would do. -/
theorem overflow_le_ten : overflow ≤ 10 ^ (400 : ℤ) := by
  calc overflow ≤ 2 ^ (1024 : ℤ) := overflow_le
    _ ≤ 2 ^ (3 * 400 : ℤ) := zpow_le_zpow_right₀ one_le_two (by decide)
    _ = (2 ^ (3 : ℤ)) ^ (400 : ℤ) := zpow_mul 2 3 400
    _ ≤ 10 ^ (400 : ℤ) := zpow_le_zpow_left₀ (by decide) (by positivity) (by norm_num)

theorem one_le_overflow : 1 ≤ overflow :=
  (one_le_zpow₀ one_le_two (by decide)).trans le_overflow

/-- Rounding gives a finite double exactly below the bound; the two short cuts for magnitudes far
from the range of doubles agree with it. -/
theorem nearest_isFinite_iff (d : Decimal) :
    d.nearest.isFinite = true ↔ d.magnitude < overflow := by
  have hten : (1 : ℚ) ≤ 10 := by norm_num
  unfold nearest
  simp only
  split
  · rename_i hsmall
    refine iff_of_true ((Double.isFinite_ofMagnitude _ (by decide)).mpr (by decide)) ?_
    apply lt_of_lt_of_le _ one_le_overflow
    by_cases hzero : d.digits = 0
    · simp [magnitude, hzero]
    · refine (magnitude_bounds hzero).2.trans_le (zpow_le_one_of_nonpos₀ hten ?_)
      omega
  · rename_i hsmall
    obtain ⟨hzero, -⟩ := not_or.mp hsmall
    split
    · rename_i hlarge
      have hmagnitude : overflow ≤ d.magnitude :=
        (overflow_le_ten.trans (zpow_le_zpow_right₀ hten (by omega))).trans
          (magnitude_bounds hzero).1
      simp [Double.infinity, Double.isFinite_ofMagnitude, hmagnitude]
    · rw [Double.isFinite_ofMagnitude _ (nearestMagnitude_le _ _)]
      have hpos : 0 < d.digits * Nat.pow 10 d.exponent.toNat :=
        Nat.mul_pos (Nat.pos_of_ne_zero hzero) (Nat.pow_pos (by decide))
      exact nearestMagnitude_lt_iff hpos (Nat.pow_pos (by decide)) (magnitude_mul d)

end Decimal

end EntityBroker
