import Mathlib
import LoyaltyPoints.Decimal.Sum

/-! # Decimals: the numbers they stand for

    A decimal stands for the rational number `coefficient / 10 ^ scale`. Comparing and negating
    decimals is comparing and negating these numbers, whatever the scales. The ledger deals in
    whole cents: multiples of `1 / 100`. Trailing zeros do not matter for that, so a decimal of
    28 places can be one of whole cents. -/

namespace LoyaltyPoints

namespace Decimal

/-- The number a decimal stands for. -/
def value (a : Decimal) : ℚ := a.coefficient / 10 ^ a.scale

theorem value_mul_pow (a : Decimal) : a.value * 10 ^ a.scale = a.coefficient := by
  unfold value
  field_simp

@[simp] theorem value_zero : zero.value = 0 := by
  simp [value, zero]

@[simp] theorem value_neg (a : Decimal) : (-a).value = -a.value := by
  show ((-a.coefficient : ℤ) : ℚ) / 10 ^ a.scale = -a.value
  rw [Int.cast_neg, neg_div, value]

theorem value_eq_zero_iff {a : Decimal} : a.value = 0 ↔ a.coefficient = 0 := by
  simp [value]

theorem value_nonneg_iff {a : Decimal} : 0 ≤ a.value ↔ 0 ≤ a.coefficient := by
  unfold value
  rw [le_div_iff₀ (by positivity), zero_mul]
  exact Int.cast_nonneg_iff

theorem value_pos_iff {a : Decimal} : 0 < a.value ↔ 0 < a.coefficient := by
  unfold value
  rw [lt_div_iff₀ (by positivity), zero_mul]
  exact Int.cast_pos

/-- No decimal reaches `2 ^ 96`. -/
theorem abs_value_le (a : Decimal) : |a.value| ≤ (bound : ℚ) - 1 := by
  have hc : |(a.coefficient : ℚ)| ≤ (bound : ℚ) - 1 := by
    have hlt := a.coefficient_lt
    have hint : |a.coefficient| ≤ (bound : ℤ) - 1 := by
      rw [Int.abs_eq_natAbs]
      omega
    exact_mod_cast hint
  have hp : (1 : ℚ) ≤ 10 ^ a.scale := one_le_pow₀ (by norm_num)
  calc |a.value| = |(a.coefficient : ℚ)| / 10 ^ a.scale := by
        rw [value, abs_div, abs_of_pos (a := (10 : ℚ) ^ a.scale) (by positivity)]
    _ ≤ |(a.coefficient : ℚ)| := div_le_self (abs_nonneg _) hp
    _ ≤ (bound : ℚ) - 1 := hc

/-! ## Comparison -/

/-- Written with enough places, the coefficient is the number times a power of ten. -/
theorem coefficientAt_eq (a : Decimal) {places : ℕ} (h : a.scale ≤ places) :
    (a.coefficientAt places : ℚ) = a.value * 10 ^ places := by
  rw [← pow_mul_pow_sub 10 h, ← mul_assoc, value_mul_pow]
  simp [coefficientAt]

/-- Decimals compare as the numbers they stand for. -/
theorem compare_eq_lt_iff (a b : Decimal) : a.compare b = .lt ↔ a.value < b.value := by
  have ha := a.coefficientAt_eq (le_max_left a.scale b.scale)
  have hb := b.coefficientAt_eq (le_max_right a.scale b.scale)
  have hp : (0 : ℚ) < 10 ^ max a.scale b.scale := by positivity
  unfold compare
  rw [compare_lt_iff_lt, ← Int.cast_lt (R := ℚ), ha, hb, mul_lt_mul_iff_left₀ hp]

theorem lt_iff (a b : Decimal) : a.lt b = true ↔ a.value < b.value := by
  rw [← compare_eq_lt_iff, lt, beq_iff_eq]

theorem lt_eq_false_iff (a b : Decimal) : a.lt b = false ↔ b.value ≤ a.value := by
  rw [← not_lt, ← lt_iff, Bool.not_eq_true]

end Decimal

/-! ## Whole cents -/

/-- A number of whole cents. -/
def IsCents (q : ℚ) : Prop := ∃ k : ℤ, q = k / 100

namespace IsCents

theorem zero : IsCents 0 := ⟨0, by simp⟩

theorem add {p q : ℚ} : IsCents p → IsCents q → IsCents (p + q) := by
  rintro ⟨j, rfl⟩ ⟨k, rfl⟩
  exact ⟨j + k, by push_cast; ring⟩

theorem neg {q : ℚ} : IsCents q → IsCents (-q) := by
  rintro ⟨k, rfl⟩
  exact ⟨-k, by push_cast; ring⟩

theorem sub {p q : ℚ} (hp : IsCents p) (hq : IsCents q) : IsCents (p - q) := by
  rw [sub_eq_add_neg]
  exact hp.add hq.neg

/-- A coefficient over at most a hundred is one of whole cents. -/
theorem of_div_pow (c : ℤ) {places : ℕ} (h : places ≤ 2) : IsCents (c / 10 ^ places) := by
  refine ⟨c * 10 ^ (2 - places), ?_⟩
  have hpow : (100 : ℚ) = 10 ^ places * 10 ^ (2 - places) := by
    rw [pow_mul_pow_sub 10 h]
    norm_num
  rw [hpow]
  push_cast
  field_simp

end IsCents

end LoyaltyPoints
