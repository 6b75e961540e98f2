import LoyaltyPoints.Balance
import LoyaltyPoints.Proofs.Decimal.Value

/-! # Decimals: amounts at the ledger's scale

    Amounts reach the ledger on two ways. A credit is rounded to two places, a half away from zero:
    the result is one of whole cents, and it is negative from minus half a cent on. A withdrawal
    is not rounded; it is let through only if the places behind the second hold zeros, so it is
    one of whole cents as it is. -/

namespace LoyaltyPoints

namespace Decimal

/-! ## Rounding half away from zero -/

theorem scale_roundTo_le (a : Decimal) (places : ℕ) : (a.roundTo places).scale ≤ places := by
  unfold roundTo
  split
  · assumption
  · exact le_rfl

theorem isCents_of_scale_le {a : Decimal} (h : a.scale ≤ moneyScale) : IsCents a.value :=
  IsCents.of_div_pow a.coefficient h

theorem divHalfUp_eq_zero_iff (n : ℕ) {d : ℕ} (hd : 0 < d) : divHalfUp n d = 0 ↔ 2 * n < d := by
  have hn := Nat.div_add_mod n d
  have hr : n % d < d := Nat.mod_lt n hd
  unfold divHalfUp
  rcases Nat.eq_zero_or_pos (n / d) with hq | hq
  · simp only [hq, Nat.mul_zero] at hn ⊢
    split <;> omega
  · have hle : d ≤ d * (n / d) := Nat.le_mul_of_pos_right d hq
    simp only
    split <;> omega

theorem withSignOf_neg_iff {n : ℤ} {m : ℕ} : withSignOf n m < 0 ↔ n < 0 ∧ m ≠ 0 := by
  unfold withSignOf
  split <;> simp_all <;> omega

/-- The rounded number is negative from minus half a unit of its last place on. -/
theorem value_roundTo_neg_iff (a : Decimal) (places : ℕ) :
    (a.roundTo places).value < 0 ↔ a.value * (2 * 10 ^ places) ≤ -1 := by
  rw [← not_le, value_nonneg_iff, not_le]
  have hval := value_mul_pow a
  unfold roundTo
  split
  · next h =>
    -- Nothing is rounded, and a unit of the last place is more than half a unit of it.
    have hpow := pow_mul_pow_sub (10 : ℚ) h
    have heq : a.value * (2 * 10 ^ places) = a.coefficient * (2 * 10 ^ (places - a.scale)) := by
      rw [← hpow, ← hval]
      ring
    have hone : (1 : ℚ) ≤ 10 ^ (places - a.scale) := one_le_pow₀ (by norm_num)
    rw [heq]
    constructor
    · intro hneg
      have hle : (a.coefficient : ℚ) ≤ -1 := by exact_mod_cast Int.le_sub_one_of_lt hneg
      nlinarith
    · intro hle
      by_contra hge
      have hge : (0 : ℚ) ≤ a.coefficient := by exact_mod_cast not_lt.mp hge
      have : 0 ≤ (a.coefficient : ℚ) * (2 * 10 ^ (places - a.scale)) := by positivity
      linarith
  · next h =>
    have hpow := pow_mul_pow_sub (10 : ℚ) (not_le.mp h).le
    have hd : 0 < 10 ^ (a.scale - places) := by positivity
    show shiftHalfAway a.coefficient (a.scale - places) < 0 ↔ _
    rw [shiftHalfAway, withSignOf_neg_iff, Nat.pow_eq, ne_eq, divHalfUp_eq_zero_iff _ hd, not_lt]
    have hd' : (0 : ℚ) < 10 ^ (a.scale - places) := by positivity
    -- Both sides compare twice the coefficient with the power of ten that is rounded away.
    have hiff : a.value * (2 * 10 ^ places) ≤ -1 ↔
        2 * a.coefficient ≤ -(10 : ℤ) ^ (a.scale - places) := by
      rw [← mul_le_mul_iff_left₀ hd', ← Int.cast_le (R := ℚ)]
      push_cast
      rw [← hval, ← hpow]
      constructor <;> intro hle <;> linarith
    rw [hiff]
    have hcast : ((10 ^ (a.scale - places) : ℕ) : ℤ) = 10 ^ (a.scale - places) := by push_cast; rfl
    constructor
    · rintro ⟨hneg, hle⟩
      omega
    · intro hle
      exact ⟨by omega, by omega⟩

/-! ## Trailing zeros -/

theorem pow_trailingZeros_dvd (limit n : ℕ) : 10 ^ trailingZeros limit n ∣ n := by
  induction limit generalizing n with
  | zero => simp [trailingZeros]
  | succ limit ih =>
    unfold trailingZeros
    split
    · next h =>
      have hn : n = n / 10 * 10 := (Nat.div_mul_cancel (Nat.dvd_of_mod_eq_zero h)).symm
      rw [pow_succ]
      conv_rhs => rw [hn]
      exact Nat.mul_dvd_mul_right (ih (n / 10)) 10
    · simp

theorem trailingZeros_le (limit n : ℕ) : trailingZeros limit n ≤ limit := by
  induction limit generalizing n with
  | zero => simp [trailingZeros]
  | succ limit ih =>
    unfold trailingZeros
    split
    · exact Nat.succ_le_succ (ih (n / 10))
    · exact Nat.zero_le _

/-- All zeros that the digits end in are counted, up to the limit. -/
theorem le_trailingZeros {limit n j : ℕ} (hj : j ≤ limit) (h : 10 ^ j ∣ n) :
    j ≤ trailingZeros limit n := by
  induction limit generalizing n j with
  | zero => exact hj
  | succ limit ih =>
    cases j with
    | zero => exact Nat.zero_le _
    | succ j =>
      have hten : n % 10 = 0 := Nat.mod_eq_zero_of_dvd ((dvd_pow_self 10 j.succ_ne_zero).trans h)
      have hrest : 10 ^ j ∣ n / 10 := Nat.dvd_div_of_mul_dvd (by rwa [← pow_succ'])
      unfold trailingZeros
      rw [if_pos hten]
      exact Nat.succ_le_succ (ih (Nat.le_of_succ_le_succ hj) hrest)

/-- A number that can be written with two places is one of whole cents. -/
theorem isCents_of_neededScale_le {a : Decimal} (h : a.neededScale ≤ moneyScale) :
    IsCents a.value := by
  unfold neededScale at h
  split at h
  · next hzero =>
    rw [value_eq_zero_iff.mpr hzero]
    exact IsCents.zero
  · have hle := trailingZeros_le a.scale a.coefficient.natAbs
    obtain ⟨c, hc⟩ := Int.natCast_dvd.mpr (pow_trailingZeros_dvd a.scale a.coefficient.natAbs)
    generalize trailingZeros a.scale a.coefficient.natAbs = zeros at *
    have hval : a.value = c / 10 ^ (a.scale - zeros) := by
      rw [value, hc, ← pow_mul_pow_sub 10 hle]
      push_cast
      field_simp
    rw [hval]
    exact IsCents.of_div_pow c h

/-- Two places are enough to write a number of whole cents, however many it is written with. -/
theorem neededScale_le_of_isCents {a : Decimal} (h : IsCents a.value) :
    a.neededScale ≤ moneyScale := by
  unfold neededScale
  split
  · exact Nat.zero_le _
  · by_cases hscale : a.scale ≤ moneyScale
    · exact (Nat.sub_le _ _).trans hscale
    · -- All digits behind the second place are zeros, and they are counted.
      obtain ⟨k, hk⟩ := h
      have hle : 2 ≤ a.scale := (not_le.mp hscale).le
      have hcoefficient : a.coefficient = k * 10 ^ (a.scale - 2) := by
        have hval := value_mul_pow a
        have hpow := pow_mul_pow_sub (10 : ℚ) hle
        have : (a.coefficient : ℚ) = k * 10 ^ (a.scale - 2) := by
          rw [← hval, hk, ← hpow]
          ring
        exact_mod_cast this
      have hdvd : 10 ^ (a.scale - 2) ∣ a.coefficient.natAbs := by
        rw [hcoefficient, Int.natAbs_mul, Int.natAbs_pow]
        exact Dvd.intro_left _ rfl
      have hzeros := le_trailingZeros (Nat.sub_le a.scale 2) hdvd
      unfold moneyScale
      omega

end Decimal

/-! ## Credits and withdrawals -/

/-- A credit for an order is one of whole cents. -/
theorem Credit.isCents_forOrder (o : Order) (amount : Decimal) :
    IsCents (Credit.forOrder o amount).amount.value :=
  Decimal.isCents_of_scale_le (amount.scale_roundTo_le moneyScale)

/-- What can be withdrawn is a positive number of whole cents. -/
theorem isWithdrawable_iff {amount : Decimal} :
    isWithdrawable amount = true ↔ 0 < amount.value ∧ IsCents amount.value := by
  have hscale : amount.neededScale ≤ moneyScale ↔ IsCents amount.value :=
    ⟨Decimal.isCents_of_neededScale_le, Decimal.neededScale_le_of_isCents⟩
  simp [isWithdrawable, Decimal.value_pos_iff, hscale]

end LoyaltyPoints
