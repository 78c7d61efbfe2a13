import Mathlib.Algebra.Order.Floor.Ring
import Mathlib.Data.Rat.Floor
import Mathlib.Tactic.Linarith
import Mathlib.Tactic.NormNum
import Mathlib.Tactic.Ring
import Mathlib.Tactic.Positivity
import Mathlib.Tactic.FieldSimp
import Mathlib.Tactic.IntervalCases

/-!
# Arithmetic in doubles

A double is a rational number here, and an operation is the exact one followed by a rounding
`fl`.  `Doubles` is what binary64 promises of the rounding: a number with at most 53 significant
bits is kept, and any other is changed by one part in `2^53` at most.  Only
numbers of a size between `2^-100` and `2^100` are spoken of, so overflow and subnormal results
are outside; `Doubles.rational` rounds nothing.

A chain of operations is followed with `Near k x y`: `x` is `y` after at most `k` roundings.
`floor_eq_of_near` says when a chain may be truncated as if nothing had been rounded.
-/

namespace Lib

/-- The rounding of binary64. -/
structure Doubles where
  fl : ℚ → ℚ
  exact (k : ℤ) (j : ℕ) (hk : |k| ≤ 2 ^ 53) (hj : j ≤ 100) : fl (k / 2 ^ j) = k / 2 ^ j
  close (q : ℚ) (hlow : 1 / 2 ^ 100 ≤ |q|) (hhigh : |q| ≤ 2 ^ 100) : |fl q - q| ≤ |q| / 2 ^ 53

namespace Doubles

/-- No rounding at all. -/
def rational : Doubles where
  fl := id
  exact _ _ _ _ := rfl
  close q _ _ := by simp only [id, sub_self, abs_zero]; positivity

variable (F : Doubles)

lemma fl_intCast {k : ℤ} (hk : |k| ≤ 2 ^ 53) : F.fl k = k := by
  simpa using F.exact k 0 hk (by norm_num)

lemma fl_half {k : ℤ} (hk : |k| ≤ 2 ^ 53) : F.fl (k / 2) = k / 2 := by
  simpa using F.exact k 1 hk (by norm_num)

/-- `x` is the positive number `y` after at most `k` roundings. -/
structure Near (k : ℕ) (x y : ℚ) : Prop where
  pos : 0 < y
  low : y * (1 - 1 / 2 ^ 53) ^ k ≤ x
  high : x ≤ y * (1 + 1 / 2 ^ 53) ^ k

lemma Near.nonneg {k : ℕ} {x y : ℚ} (h : Near k x y) : 0 ≤ x :=
  (mul_nonneg h.pos.le (pow_nonneg (by norm_num) k)).trans h.low

lemma Near.refl {y : ℚ} (hy : 0 < y) : Near 0 y y := ⟨hy, by simp, by simp⟩

lemma Near.mul {k : ℕ} {x y c : ℚ} (h : Near k x y) (hc : 0 < c) : Near k (x * c) (y * c) where
  pos := mul_pos h.pos hc
  low := by rw [mul_right_comm]; exact mul_le_mul_of_nonneg_right h.low hc.le
  high := by rw [mul_right_comm]; exact mul_le_mul_of_nonneg_right h.high hc.le

lemma Near.div {k : ℕ} {x y c : ℚ} (h : Near k x y) (hc : 0 < c) : Near k (x / c) (y / c) := by
  rw [div_eq_mul_inv, div_eq_mul_inv]
  exact h.mul (inv_pos.mpr hc)

/-- Adding an exact number that is not negative makes nothing worse. -/
lemma Near.add {k : ℕ} {x y c : ℚ} (h : Near k x y) (hc : 0 ≤ c) : Near k (c + x) (c + y) where
  pos := add_pos_of_nonneg_of_pos hc h.pos
  low := by
    have hle : (1 - 1 / 2 ^ 53 : ℚ) ^ k ≤ 1 := pow_le_one₀ (by norm_num) (by norm_num)
    linarith [h.low, mul_le_mul_of_nonneg_left hle hc]
  high := by
    have hle : (1 : ℚ) ≤ (1 + 1 / 2 ^ 53) ^ k := one_le_pow₀ (by norm_num)
    linarith [h.high, mul_le_mul_of_nonneg_left hle hc]

/-- One more rounding, up to the fourth. -/
lemma Near.fl {k : ℕ} {x y : ℚ} (h : Near k x y) (hk : k ≤ 3) (hlow : 1 / 2 ^ 90 ≤ y)
    (hhigh : y ≤ 2 ^ 90) : Near (k + 1) (F.fl x) y := by
  have hhalf : y * (1 / 2) ≤ x := by
    have hpow : (1 / 2 : ℚ) ≤ (1 - 1 / 2 ^ 53) ^ k := by interval_cases k <;> norm_num
    exact (mul_le_mul_of_nonneg_left hpow h.pos.le).trans h.low
  have htwice : x ≤ y * 2 := by
    have hpow : ((1 + 1 / 2 ^ 53) ^ k : ℚ) ≤ 2 := by interval_cases k <;> norm_num
    exact h.high.trans (mul_le_mul_of_nonneg_left hpow h.pos.le)
  have hx : 0 < x := by linarith [h.pos]
  have hclose := F.close x (by rw [abs_of_pos hx]; norm_num at hlow ⊢; linarith)
    (by rw [abs_of_pos hx]; norm_num at hhigh ⊢; linarith)
  rw [abs_of_pos hx, abs_le] at hclose
  have hlow' := mul_le_mul_of_nonneg_right h.low (by norm_num : (0 : ℚ) ≤ 1 - 1 / 2 ^ 53)
  have hhigh' := mul_le_mul_of_nonneg_right h.high (by norm_num : (0 : ℚ) ≤ 1 + 1 / 2 ^ 53)
  refine ⟨h.pos, ?_, ?_⟩
  · calc y * (1 - 1 / 2 ^ 53) ^ (k + 1) = y * (1 - 1 / 2 ^ 53) ^ k * (1 - 1 / 2 ^ 53) := by ring
      _ ≤ x * (1 - 1 / 2 ^ 53) := hlow'
      _ = x - x / 2 ^ 53 := by ring
      _ ≤ F.fl x := by linarith [hclose.1]
  · calc F.fl x ≤ x + x / 2 ^ 53 := by linarith [hclose.2]
      _ = x * (1 + 1 / 2 ^ 53) := by ring
      _ ≤ y * (1 + 1 / 2 ^ 53) ^ k * (1 + 1 / 2 ^ 53) := hhigh'
      _ = y * (1 + 1 / 2 ^ 53) ^ (k + 1) := by ring

lemma floor_div {a b : ℤ} (hb : 0 < b) : ⌊(a : ℚ) / b⌋ = a / b := by
  have hbq : (0 : ℚ) < b := by exact_mod_cast hb
  rw [Int.floor_eq_iff, le_div_iff₀ hbq, div_lt_iff₀ hbq]
  constructor
  · exact_mod_cast Int.ediv_mul_le a hb.ne'
  · exact_mod_cast Int.lt_ediv_add_one_mul_self a hb

/-- After four roundings a number below `2^15` that is no integer, with a denominator up to
`2^34`, still has its integer part. -/
lemma floor_eq_of_near {a b : ℤ} (hb : 0 < b) (hden : b ≤ 2 ^ 34) (hsmall : (a : ℚ) / b < 2 ^ 15)
    (hfrac : ¬ b ∣ a) {x : ℚ} (h : Near 4 x (a / b)) : ⌊x⌋ = a / b := by
  have hbq : (0 : ℚ) < b := by exact_mod_cast hb
  have hden' : (b : ℚ) ≤ 2 ^ 34 := by exact_mod_cast hden
  -- the distance of `a / b` from the integers around it
  have hdiv : a = b * (a / b) + a % b := (Int.mul_ediv_add_emod a b).symm
  have hmod := Int.emod_nonneg a hb.ne'
  have hmod' := Int.emod_lt_of_pos a hb
  have hne : a % b ≠ 0 := fun h => hfrac (Int.dvd_of_emod_eq_zero h)
  have hgap : (1 : ℚ) / 2 ^ 34 ≤ 1 / b := one_div_le_one_div_of_le hbq hden'
  have hbelow : ((a / b : ℤ) : ℚ) + 1 / b ≤ a / b := by
    rw [← sub_nonneg, show (a : ℚ) / b - ((a / b : ℤ) + 1 / b) = (a - (b * (a / b : ℤ) + 1)) / b by
      field_simp]
    refine div_nonneg ?_ hbq.le
    have : b * (a / b) + 1 ≤ a := by omega
    exact sub_nonneg.mpr (by exact_mod_cast this)
  have habove : (a : ℚ) / b + 1 / b ≤ ((a / b : ℤ) : ℚ) + 1 := by
    rw [← add_div, div_le_iff₀ hbq]
    have : a + 1 ≤ (a / b + 1) * b := by
      have := Int.lt_ediv_add_one_mul_self a hb
      omega
    exact_mod_cast this
  have hpos := h.pos
  have hlow : (a : ℚ) / b - 1 / 2 ^ 35 ≤ x := by
    have hpow : (1 : ℚ) - 1 / 2 ^ 50 ≤ (1 - 1 / 2 ^ 53) ^ 4 := by norm_num
    linarith [h.low, mul_le_mul_of_nonneg_left hpow hpos.le]
  have hhigh : x < (a : ℚ) / b + 1 / 2 ^ 34 := by
    have hpow : ((1 : ℚ) + 1 / 2 ^ 53) ^ 4 ≤ 1 + 1 / 2 ^ 50 := by norm_num
    linarith [h.high, mul_le_mul_of_nonneg_left hpow hpos.le]
  rw [Int.floor_eq_iff]
  constructor
  · linarith
  · linarith

end Doubles

end Lib
