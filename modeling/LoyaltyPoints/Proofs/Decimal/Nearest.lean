import LoyaltyPoints.Proofs.Decimal.Rounding

/-! # Decimals: the nearest whole cent

    A credit is the number of whole cents that is nearest to the amount it is made from, and of two
    that are as near it is the one farther from zero. For every amount there is just one such
    number. All that is said of the rounding here follows from that: it is blind to a change of
    sign, it keeps the order of amounts, and it is off by half a cent at most. -/

namespace LoyaltyPoints

/-! ## Nearest whole cents -/

/-- Two numbers of whole cents are the same, or a cent apart at least. -/
theorem IsCents.eq_or_le_abs_sub {r s : ℚ} (hr : IsCents r) (hs : IsCents s) :
    r = s ∨ 1 / 100 ≤ |r - s| := by
  obtain ⟨j, rfl⟩ := hr
  obtain ⟨k, rfl⟩ := hs
  by_cases hjk : j = k
  · left
    rw [hjk]
  · right
    have hint : 1 ≤ |j - k| := Int.one_le_abs (sub_ne_zero.mpr hjk)
    have hone : (1 : ℚ) ≤ |(j : ℚ) - k| := by exact_mod_cast hint
    have habs : |(j : ℚ) / 100 - k / 100| = |(j : ℚ) - k| / 100 := by
      rw [← sub_div, abs_div, abs_of_pos (by norm_num : (0 : ℚ) < 100)]
    rw [habs]
    linarith

/-- The number of whole cents nearest to `q`; of two that are as near, the one farther from
    zero. -/
structure IsNearestCents (q r : ℚ) : Prop where
  isCents : IsCents r
  nearest : ∀ s, IsCents s → |r - q| ≤ |s - q|
  away : ∀ s, IsCents s → |s - q| = |r - q| → |s| ≤ |r|

namespace IsNearestCents

variable {q r : ℚ}

/-- Half a cent is near enough, if a whole half lies on the side away from zero. -/
theorem of_half (hcents : IsCents r) (hhalf : |r - q| ≤ 1 / 200)
    (haway : |r - q| = 1 / 200 → 0 ≤ q * (r - q)) : IsNearestCents q r := by
  have hdistance (s : ℚ) : |r - s| ≤ |s - q| + |r - q| := by
    have htriangle := abs_sub_le r q s
    rwa [abs_sub_comm q s, add_comm] at htriangle
  apply IsNearestCents.mk hcents
  · intro s hs
    rcases hcents.eq_or_le_abs_sub hs with rfl | hapart
    · exact le_rfl
    · have := hdistance s
      linarith
  · intro s hs heq
    rcases hcents.eq_or_le_abs_sub hs with rfl | hapart
    · exact le_rfl
    · -- The two lie a cent apart with `q` in the middle, and `q` lies on the side of zero.
      have hfull : |r - q| = 1 / 200 := by
        have := hdistance s
        linarith
      have hother : s - q = -(r - q) := by
        rcases abs_eq_abs.mp heq with hsame | hother
        · have hrs : r - s = 0 := by linarith
          rw [hrs, abs_zero] at hapart
          norm_num at hapart
        · exact hother
      have hside := haway hfull
      apply sq_le_sq.mp
      have hs : s = 2 * q - r := by linarith
      rw [hs]
      nlinarith

/-- Whole cents are nearest to themselves. -/
theorem of_isCents (h : IsCents q) : IsNearestCents q q := by
  apply of_half h
  · rw [sub_self, abs_zero]
    norm_num
  · intro _
    rw [sub_self, mul_zero]

/-- Where a cent is cut into `unit` parts, and the number and its error are counted in parts, half a
    cent is half of `unit`. -/
theorem of_scaled {c e : ℤ} {unit : ℕ} (hunit : 0 < unit) (hcents : IsCents r)
    (hq : q = c / (unit * 100)) (herror : r - q = e / (unit * 100)) (hhalf : 2 * |e| ≤ unit)
    (haway : 2 * |e| = unit → 0 ≤ c * e) : IsNearestCents q r := by
  have hpos : (0 : ℚ) < unit := by exact_mod_cast hunit
  have habs : |r - q| = ((2 * |e| : ℤ) : ℚ) / unit / 200 := by
    rw [herror, abs_div, abs_of_pos (by positivity : (0 : ℚ) < unit * 100)]
    push_cast
    ring
  apply of_half hcents
  · have hle : ((2 * |e| : ℤ) : ℚ) ≤ unit := by exact_mod_cast hhalf
    have hone := div_le_one_of_le₀ hle hpos.le
    rw [habs]
    linarith
  · intro hfull
    have heq : ((2 * |e| : ℤ) : ℚ) = unit := by
      rw [habs] at hfull
      apply eq_of_div_eq_one
      linarith
    have hside : (0 : ℚ) ≤ (c * e : ℤ) := by exact_mod_cast haway (by exact_mod_cast heq)
    rw [Int.cast_mul] at hside
    rw [herror, hq, div_mul_div_comm]
    positivity

/-- There is only one. -/
theorem unique {r' : ℚ} (h : IsNearestCents q r) (h' : IsNearestCents q r') : r = r' := by
  have hdistance : |r - q| = |r' - q| :=
    le_antisymm (h.nearest r' h'.isCents) (h'.nearest r h.isCents)
  have hsize : |r| = |r'| :=
    le_antisymm (h'.away r h.isCents hdistance) (h.away r' h'.isCents hdistance.symm)
  rcases abs_eq_abs.mp hsize with heq | hneg
  · exact heq
  -- Two opposite numbers are as near only if `q` is zero, and then they are zero themselves.
  rcases abs_eq_abs.mp hdistance with heq | hopposite
  · linarith
  · have hq : q = 0 := by linarith
    have hzero := h.nearest 0 IsCents.zero
    rw [hq, sub_zero, sub_zero, abs_zero] at hzero
    have hr : r = 0 := abs_nonpos_iff.mp hzero
    linarith

/-- The number with the other sign is nearest to the number with the other sign. -/
theorem neg (h : IsNearestCents q r) : IsNearestCents (-q) (-r) := by
  have hmirror (s : ℚ) : |s - -q| = |-s - q| := by
    rw [← abs_neg]
    congr 1
    ring
  apply IsNearestCents.mk h.isCents.neg
  · intro s hs
    rw [hmirror, hmirror, neg_neg]
    exact h.nearest (-s) hs.neg
  · intro s hs heq
    rw [hmirror, hmirror, neg_neg] at heq
    rw [← abs_neg s, abs_neg r]
    exact h.away (-s) hs.neg heq

/-- A larger number has no smaller number of whole cents nearest to it. -/
theorem mono {q' r' : ℚ} (h : IsNearestCents q r) (h' : IsNearestCents q' r') (hle : q ≤ q') :
    r ≤ r' := by
  by_contra hlt
  rw [not_le] at hlt
  have hleft := sq_le_sq.mpr (h.nearest r' h'.isCents)
  have hright := sq_le_sq.mpr (h'.nearest r h.isCents)
  -- `q` cannot lie before the middle of `r'` and `r`, and `q'` cannot lie behind it.
  have hq : r + r' ≤ 2 * q := by nlinarith
  have hq' : 2 * q' ≤ r + r' := by nlinarith
  obtain rfl : q = q' := by linarith
  exact hlt.ne (h'.unique h)

/-- It is half a cent away at most. -/
theorem abs_sub_le (h : IsNearestCents q r) : |r - q| ≤ 1 / 200 := by
  have hround := abs_sub_round (100 * q)
  have hnear := h.nearest (round (100 * q) / 100) ⟨_, rfl⟩
  have hscaled : (round (100 * q) : ℚ) / 100 - q = -(100 * q - round (100 * q)) / 100 := by ring
  rw [hscaled, abs_div, abs_neg, abs_of_pos (by norm_num : (0 : ℚ) < 100)] at hnear
  linarith

end IsNearestCents

/-! ## Rounding half away from zero -/

namespace Decimal

theorem divHalfUp_bounds (n : ℕ) {d : ℕ} (hd : 0 < d) :
    2 * (d * divHalfUp n d) ≤ 2 * n + d ∧ 2 * n < 2 * (d * divHalfUp n d) + d := by
  have hn := Nat.div_add_mod n d
  have hr : n % d < d := Nat.mod_lt n hd
  unfold divHalfUp
  simp only
  split
  · rw [Nat.mul_succ]
    omega
  · omega

/-- With the sign put back, a rounded magnitude is off by as much as without it, and on the same
    side of zero. -/
theorem error_withSignOf (n : ℤ) (m : ℕ) (unit : ℤ) :
    |withSignOf n m * unit - n| = |m * unit - abs n| ∧
      n * (withSignOf n m * unit - n) = |n| * (m * unit - |n|) := by
  unfold withSignOf
  by_cases hneg : n < 0
  · rw [if_pos hneg, abs_of_neg hneg]
    constructor
    · rw [← abs_neg]
      congr 1
      simp only [Int.ofNat_eq_natCast]
      ring
    · simp only [Int.ofNat_eq_natCast]
      ring
  · rw [if_neg hneg, abs_of_nonneg (not_lt.mp hneg)]
    exact ⟨rfl, rfl⟩

/-- The digits that are left stand for a number half a unit away at most, and if it is a whole half
    they are on the side away from zero. -/
theorem shiftHalfAway_bounds (n : ℤ) (k : ℕ) :
    2 * |shiftHalfAway n k * 10 ^ k - n| ≤ 10 ^ k ∧
      (2 * |shiftHalfAway n k * 10 ^ k - n| = 10 ^ k →
        0 ≤ n * (shiftHalfAway n k * 10 ^ k - n)) := by
  have hd : 0 < 10 ^ k := by positivity
  obtain ⟨hupper, hlower⟩ := divHalfUp_bounds n.natAbs hd
  zify at hupper hlower
  rw [shiftHalfAway, Nat.pow_eq]
  generalize divHalfUp n.natAbs (10 ^ k) = m at *
  obtain ⟨hsize, hside⟩ := error_withSignOf n m (10 ^ k)
  rw [hsize, hside, mul_comm (m : ℤ)]
  have herror : 2 * (10 ^ k * m - |n|) ≤ 10 ^ k ∧ -10 ^ k < 2 * (10 ^ k * (m : ℤ) - |n|) :=
    ⟨by linarith, by linarith⟩
  generalize 10 ^ k * (m : ℤ) - |n| = error at *
  constructor
  · rcases abs_cases error with ⟨habs, -⟩ | ⟨habs, -⟩ <;> linarith
  · intro hfull
    apply mul_nonneg (abs_nonneg n)
    -- Half a unit below the magnitude is out of reach.
    by_contra hbelow
    rw [abs_of_neg (not_le.mp hbelow)] at hfull
    linarith

theorem roundTo_of_scale_le {a : Decimal} {places : ℕ} (h : a.scale ≤ places) :
    a.roundTo places = a := dif_pos h

theorem scale_roundTo (a : Decimal) (places : ℕ) :
    (a.roundTo places).scale = min a.scale places := by
  by_cases h : a.scale ≤ places
  · rw [roundTo_of_scale_le h, min_eq_left h]
  · rw [roundTo, dif_neg h, min_eq_right (not_le.mp h).le]

/-- Rounding needs no more digits than are there. -/
theorem natAbs_coefficient_roundTo_le (a : Decimal) (places : ℕ) :
    (a.roundTo places).coefficient.natAbs ≤ a.coefficient.natAbs := by
  by_cases h : a.scale ≤ places
  · rw [roundTo_of_scale_le h]
  · have hunit : 2 ≤ Nat.pow 10 (a.scale - places) :=
      (by norm_num : 2 ≤ 10 ^ 1).trans (Nat.pow_le_pow_right (by norm_num) (by omega))
    rw [roundTo, dif_neg h]
    show (shiftHalfAway a.coefficient (a.scale - places)).natAbs ≤ a.coefficient.natAbs
    rw [shiftHalfAway, natAbs_withSignOf]
    exact divHalfUp_le_self hunit

/-- The error of rounding, over the unit that is rounded away. -/
theorem value_roundTo_sub_value {a : Decimal} {places : ℕ} (h : places < a.scale) :
    (a.roundTo places).value - a.value =
      ((shiftHalfAway a.coefficient (a.scale - places) * 10 ^ (a.scale - places) -
        a.coefficient : ℤ) : ℚ) / 10 ^ a.scale := by
  have hpow := pow_sub_mul_pow (10 : ℚ) h.le
  rw [roundTo, dif_neg (not_le.mpr h), value, value, ← hpow]
  push_cast
  field_simp

/-- Rounding to two places gives the nearest number of whole cents. -/
theorem isNearestCents_roundTo (a : Decimal) :
    IsNearestCents a.value (a.roundTo moneyScale).value := by
  have hcents := isCents_of_scale_le (a.scale_roundTo_le moneyScale)
  by_cases hscale : a.scale ≤ moneyScale
  · rw [roundTo_of_scale_le hscale] at hcents ⊢
    exact IsNearestCents.of_isCents hcents
  · rw [not_le] at hscale
    -- The places behind the second cut a cent into this many parts.
    have hunit : (10 : ℚ) ^ a.scale = (10 ^ (a.scale - moneyScale) : ℕ) * 100 := by
      rw [← pow_sub_mul_pow 10 hscale.le]
      push_cast
      norm_num [moneyScale]
    have hvalue : a.value = a.coefficient / ((10 ^ (a.scale - moneyScale) : ℕ) * 100) := by
      rw [value, hunit]
    have herror := value_roundTo_sub_value hscale
    rw [hunit] at herror
    obtain ⟨hsize, hside⟩ := shiftHalfAway_bounds a.coefficient (a.scale - moneyScale)
    apply IsNearestCents.of_scaled (by positivity) hcents hvalue herror
    · exact_mod_cast hsize
    · intro hfull
      exact hside (by exact_mod_cast hfull)

/-- A decimal is known by its number and its places. -/
theorem eq_of_value_eq {a b : Decimal} (hscale : a.scale = b.scale) (hvalue : a.value = b.value) :
    a = b := by
  have hcoefficient : (a.coefficient : ℚ) = b.coefficient := by
    rw [← value_mul_pow a, ← value_mul_pow b, hscale, hvalue]
  cases a
  cases b
  simp_all

end Decimal

/-! ## Credits -/

/-- The amount of a credit has two places at most and needs no more digits than it was made from,
    so it never leaves their range. It is the nearest number of whole cents. Rounding is therefore
    half a cent off at most, done once and for all, the same on both sides of zero, never against
    the order of amounts, and nothing to amounts of two places. -/
theorem Credit.amount_nearest (o : Order) (amount : Decimal) :
    let credited := (Credit.forOrder o amount).amount
    credited.scale ≤ moneyScale ∧
    credited.coefficient.natAbs ≤ amount.coefficient.natAbs ∧
    IsNearestCents amount.value credited.value ∧
    |credited.value - amount.value| ≤ 1 / 200 ∧
    (Credit.forOrder o credited).amount = credited ∧
    (Credit.forOrder o (-amount)).amount = -credited ∧
    (∀ larger : Decimal, amount.value ≤ larger.value →
      credited.value ≤ (Credit.forOrder o larger).amount.value) ∧
    (amount.scale ≤ moneyScale → credited = amount) := by
  intro credited
  have hscale : credited.scale ≤ moneyScale := amount.scale_roundTo_le moneyScale
  have hnearest : IsNearestCents amount.value credited.value := amount.isNearestCents_roundTo
  refine ⟨hscale, amount.natAbs_coefficient_roundTo_le moneyScale, hnearest, hnearest.abs_sub_le,
    Decimal.roundTo_of_scale_le hscale, ?_, ?_, Decimal.roundTo_of_scale_le⟩
  · -- Both sides have the same places, and both are nearest to the amount with the other sign.
    have hopposite := (-amount).isNearestCents_roundTo
    rw [Decimal.value_neg] at hopposite
    apply Decimal.eq_of_value_eq
    · show ((-amount).roundTo moneyScale).scale = (amount.roundTo moneyScale).scale
      rw [Decimal.scale_roundTo, Decimal.scale_roundTo]
      rfl
    · rw [Decimal.value_neg]
      exact hopposite.unique hnearest.neg
  · intro larger hle
    exact hnearest.mono larger.isNearestCents_roundTo hle

/-- A tie, on the negative side, beside an amount of two places. -/
theorem Credit.amount_nearest_of_tie :
    let tie : Decimal := ⟨-10125, 3, by decide, by decide⟩
    let cents : Decimal := ⟨-1012, 2, by decide, by decide⟩
    tie.value ≤ cents.value ∧ cents.scale ≤ moneyScale ∧
      (Credit.forOrder default tie).amount = ⟨-1013, 2, by decide, by decide⟩ ∧
      (Credit.forOrder default tie).amount.value ≤ (Credit.forOrder default cents).amount.value ∧
      (Credit.forOrder default cents).amount = cents := by
  intro tie cents
  have hle : tie.value ≤ cents.value := by norm_num [tie, cents, Decimal.value]
  have hscale : cents.scale ≤ moneyScale := le_rfl
  have htie := Credit.amount_nearest default tie
  have hcents := Credit.amount_nearest default cents
  exact ⟨hle, hscale, by decide, htie.2.2.2.2.2.2.1 cents hle, hcents.2.2.2.2.2.2.2 hscale⟩

end LoyaltyPoints
