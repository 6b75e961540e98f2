import Mathlib
import LoyaltyPoints.Binary64

/-! # Binary64: rounding a ratio

    A ratio is rounded once: it is scaled until its whole part has 53 bits, and the scaled ratio is
    rounded to an integer, a half to the even one. The main statement says so about every ratio that
    is neither too small nor too large (`ofRatio_rounds`). What comes of it is a number whose
    reading interval holds the ratio (`ofRatio_reads`): at the least mantissa that interval is
    shorter below, and only ratios that are rounded up to a power of two lie there. -/

namespace LoyaltyPoints

namespace Binary64

open Decimal (divHalfEven)

/-! ## Half to even -/

/-- Whether an integer is nearest to a number, a half going to the even one. -/
structure IsRounded (r : ℚ) (m : ℕ) : Prop where
  lower : (m : ℚ) - 1 / 2 ≤ r
  upper : r ≤ m + 1 / 2
  odd : m % 2 = 1 → (m : ℚ) - 1 / 2 < r ∧ r < m + 1 / 2

theorem isRounded_div_iff {n d m : ℕ} (hd : 0 < d) : IsRounded (n / d) m ↔
    2 * (m * d) ≤ 2 * n + d ∧ 2 * n ≤ 2 * (m * d) + d ∧
      (m % 2 = 1 → 2 * (m * d) < 2 * n + d ∧ 2 * n < 2 * (m * d) + d) := by
  have hd' : (0 : ℚ) < d := Nat.cast_pos.mpr hd
  have hlower : (m : ℚ) - 1 / 2 ≤ n / d ↔ 2 * (m * d) ≤ 2 * n + d := by
    rw [le_div_iff₀ hd', ← Nat.cast_le (α := ℚ)]
    push_cast
    constructor <;> intro h <;> linarith
  have hupper : (n : ℚ) / d ≤ m + 1 / 2 ↔ 2 * n ≤ 2 * (m * d) + d := by
    rw [div_le_iff₀ hd', ← Nat.cast_le (α := ℚ)]
    push_cast
    constructor <;> intro h <;> linarith
  have hlower' : (m : ℚ) - 1 / 2 < n / d ↔ 2 * (m * d) < 2 * n + d := by
    rw [lt_div_iff₀ hd', ← Nat.cast_lt (α := ℚ)]
    push_cast
    constructor <;> intro h <;> linarith
  have hupper' : (n : ℚ) / d < m + 1 / 2 ↔ 2 * n < 2 * (m * d) + d := by
    rw [div_lt_iff₀ hd', ← Nat.cast_lt (α := ℚ)]
    push_cast
    constructor <;> intro h <;> linarith
  rw [← hlower, ← hupper, ← hlower', ← hupper']
  exact ⟨fun h => ⟨h.lower, h.upper, h.odd⟩, fun h => ⟨h.1, h.2.1, h.2.2⟩⟩

theorem isRounded_divHalfEven (n : ℕ) {d : ℕ} (hd : 0 < d) :
    IsRounded (n / d) (divHalfEven n d) := by
  rw [isRounded_div_iff hd]
  have hn : n / d * d + n % d = n := Nat.div_add_mod' n d
  have hr : n % d < d := Nat.mod_lt n hd
  unfold divHalfEven
  generalize n / d = q at hn
  dsimp only
  -- The quotient, the next one, or, in the middle, the even one of the two.
  split
  · rw [Nat.add_mul, Nat.one_mul]
    omega
  · split
    · rcases Nat.mod_two_eq_zero_or_one q with heven | hodd
      · rw [heven, Nat.add_zero]
        omega
      · rw [hodd, Nat.add_mul, Nat.one_mul]
        omega
    · omega

/-- There is one integer that a number is rounded to. -/
theorem IsRounded.eq {r : ℚ} {m n : ℕ} (hm : IsRounded r m) (hn : IsRounded r n) : m = n := by
  have hless {m n : ℕ} (hm : IsRounded r m) (hn : IsRounded r n) : n ≤ m := by
    by_contra hlt
    have hstep : (m : ℚ) + 1 ≤ n := by exact_mod_cast not_le.mp hlt
    have hmupper := hm.upper
    have hnlower := hn.lower
    -- Two candidates are neighbours with the number in the middle, and one of them is odd.
    have hnext : n = m + 1 := by
      have : (n : ℚ) = m + 1 := by linarith
      exact_mod_cast this
    rcases Nat.mod_two_eq_zero_or_one m with heven | hodd
    · have hstrict := (hn.odd (by omega)).1
      linarith
    · have hstrict := (hm.odd hodd).2
      linarith
  exact le_antisymm (hless hn hm) (hless hm hn)

theorem IsRounded.of_natCast (n : ℕ) : IsRounded n n where
  lower := by linarith
  upper := by linarith
  odd := fun _ => ⟨by linarith, by linarith⟩

/-! ## The exponent -/

/-- The two numbers of a scaled one give it back as a ratio. -/
theorem scaled_ratio (n : ℕ) (e : ℤ) :
    ((scaled n e).1 : ℚ) = n * 2 ^ e * (scaled n e).2 ∧ 0 < (scaled n e).2 := by
  unfold scaled
  split
  · next h =>
    obtain ⟨k, rfl⟩ := Int.eq_ofNat_of_zero_le h
    simp
  · next h =>
    obtain ⟨k, hk⟩ := Int.eq_ofNat_of_zero_le (show 0 ≤ -e by omega)
    obtain rfl : e = -k := by omega
    simp

section exponent

variable {num den : ℕ}

/-- Taken by the numbers of bits, the scaled ratio is between `2 ^ 51` and `2 ^ 53`. -/
theorem ratio_log2 (hnum : 0 < num) (hden : 0 < den) :
    (2 : ℚ) ^ ((Nat.log2 num : ℤ) - Nat.log2 den - 1) < num / den ∧
      (num : ℚ) / den < 2 ^ ((Nat.log2 num : ℤ) - Nat.log2 den + 1) := by
  have hden' : (0 : ℚ) < den := Nat.cast_pos.mpr hden
  have hlow : (2 : ℚ) ^ Nat.log2 num ≤ num := by
    exact_mod_cast Nat.log2_self_le hnum.ne'
  have hhigh : (num : ℚ) < 2 ^ (Nat.log2 num + 1) := by
    exact_mod_cast Nat.lt_log2_self
  have hlow' : (2 : ℚ) ^ Nat.log2 den ≤ den := by
    exact_mod_cast Nat.log2_self_le hden.ne'
  have hhigh' : (den : ℚ) < 2 ^ (Nat.log2 den + 1) := by
    exact_mod_cast Nat.lt_log2_self
  constructor
  · rw [lt_div_iff₀ hden']
    calc (2 : ℚ) ^ ((Nat.log2 num : ℤ) - Nat.log2 den - 1) * den
        < 2 ^ ((Nat.log2 num : ℤ) - Nat.log2 den - 1) * 2 ^ (Nat.log2 den + 1) := by gcongr
      _ = 2 ^ Nat.log2 num := by
        rw [← zpow_natCast, ← zpow_natCast, ← zpow_add₀ two_ne_zero]
        congr 1
        push_cast
        ring
      _ ≤ num := hlow
  · rw [div_lt_iff₀ hden']
    calc (num : ℚ) < 2 ^ (Nat.log2 num + 1) := hhigh
      _ = 2 ^ ((Nat.log2 num : ℤ) - Nat.log2 den + 1) * 2 ^ Nat.log2 den := by
        rw [← zpow_natCast, ← zpow_natCast, ← zpow_add₀ two_ne_zero]
        congr 1
        push_cast
        ring
      _ ≤ 2 ^ ((Nat.log2 num : ℤ) - Nat.log2 den + 1) * den := by gcongr

/-- At its exponent a ratio that is not tiny has a whole part of 53 bits. -/
theorem exponentFor_spec (hnum : 0 < num) (hden : 0 < den)
    (htiny : (2 : ℚ) ^ (-1000 : ℤ) ≤ num / den) :
    minExponent < exponentFor num den ∧ (2 : ℚ) ^ (exponentFor num den + 52) ≤ num / den ∧
      (num : ℚ) / den < 2 ^ (exponentFor num den + 53) := by
  obtain ⟨hlow, hhigh⟩ := ratio_log2 hnum hden
  have hden' : (0 : ℚ) < den := Nat.cast_pos.mpr hden
  unfold exponentFor
  dsimp only
  set e : ℤ := (Nat.log2 num : ℤ) - Nat.log2 den - 52 with he
  obtain ⟨hscaled, hpos⟩ := scaled_ratio den e
  have hpos' : (0 : ℚ) < (scaled den e).2 := Nat.cast_pos.mpr hpos
  -- The number that is compared is the ratio, with the denominators multiplied out.
  have hcompare : num * (scaled den e).2 < Nat.pow 2 52 * (scaled den e).1 ↔
      (num : ℚ) / den < 2 ^ (e + 52) := by
    rw [div_lt_iff₀ hden', ← Nat.cast_lt (α := ℚ), Nat.pow_eq, Nat.cast_mul, Nat.cast_mul,
      Nat.cast_pow, Nat.cast_ofNat, hscaled, zpow_add₀ two_ne_zero,
      show ((2 : ℚ) ^ (52 : ℤ)) = 2 ^ 52 from rfl,
      show (2 : ℚ) ^ 52 * (den * 2 ^ e * (scaled den e).2) =
        2 ^ e * 2 ^ 52 * den * (scaled den e).2 by ring, mul_lt_mul_iff_left₀ hpos']
  rw [show (Nat.log2 num : ℤ) - Nat.log2 den - 1 = e + 51 by omega] at hlow
  rw [show (Nat.log2 num : ℤ) - Nat.log2 den + 1 = e + 53 by omega] at hhigh
  have hmin : -1053 < e := by
    have hlt := (zpow_lt_zpow_iff_right₀ (one_lt_two (α := ℚ))).mp (htiny.trans_lt hhigh)
    omega
  by_cases hless : num * (scaled den e).2 < Nat.pow 2 52 * (scaled den e).1
  · rw [if_pos hless, max_eq_left (by unfold minExponent; omega)]
    refine ⟨by unfold minExponent; omega, ?_, ?_⟩
    · rw [show e - 1 + 52 = e + 51 by ring]
      exact hlow.le
    · rw [show e - 1 + 53 = e + 52 by ring]
      exact hcompare.mp hless
  · rw [if_neg hless, max_eq_left (by unfold minExponent; omega)]
    refine ⟨by unfold minExponent; omega, ?_, hhigh⟩
    exact not_lt.mp (mt hcompare.mpr hless)

/-- A ratio in the range is rounded once, and a mantissa that gets too long is halved. -/
theorem ofRatio_rounds (negative : Bool) (hnum : 0 < num) (hden : 0 < den)
    (htiny : (2 : ℚ) ^ (-1000 : ℤ) ≤ num / den) (hhuge : (num : ℚ) / den < 2 ^ (1000 : ℤ)) :
    ∃ m e, minExponent < e ∧ e < 948 ∧ (2 : ℚ) ^ (e + 52) ≤ num / den ∧
      (num : ℚ) / den < 2 ^ (e + 53) ∧ IsRounded (num / den / 2 ^ e) m ∧
      ofRatio negative num den = if m = 2 ^ 53 then .finite negative (2 ^ 52) (e + 1)
        else .finite negative m e := by
  obtain ⟨hmin, hlow, hhigh⟩ := exponentFor_spec hnum hden htiny
  unfold ofRatio
  rw [if_neg hnum.ne']
  dsimp only
  set e := exponentFor num den with he
  obtain ⟨hscaled, hpos⟩ := scaled_ratio den e
  have hmax : e < 948 := by
    have hlt := (zpow_lt_zpow_iff_right₀ (one_lt_two (α := ℚ))).mp (hlow.trans_lt hhuge)
    omega
  have hden' : (0 : ℚ) < den := Nat.cast_pos.mpr hden
  have hpos' : (0 : ℚ) < (scaled den e).2 := Nat.cast_pos.mpr hpos
  have hpow : (0 : ℚ) < 2 ^ e := by positivity
  have hfirst : 0 < (scaled den e).1 := by
    rw [← Nat.cast_pos (α := ℚ), hscaled]
    positivity
  have hrounded : IsRounded (num / den / 2 ^ e)
      (divHalfEven (num * (scaled den e).2) (scaled den e).1) := by
    have h := isRounded_divHalfEven (num * (scaled den e).2) hfirst
    convert h using 1
    rw [hscaled]
    push_cast
    field_simp
  refine ⟨_, e, hmin, hmax, hlow, hhigh, hrounded, ?_⟩
  generalize divHalfEven (num * (scaled den e).2) (scaled den e).1 = m
  have hbound : mantissaBound = 2 ^ 53 := rfl
  by_cases hcarry : m = 2 ^ 53
  · rw [hbound, if_pos hcarry, if_pos hcarry, if_neg (by unfold maxExponent; omega), hcarry]
    rfl
  · rw [hbound, if_neg hcarry, if_neg hcarry, if_neg (by unfold maxExponent; omega)]

end exponent

/-! ## The reading interval -/

/-- An interval with its ends or without them. -/
def span (closed : Bool) (a b : ℚ) : Set ℚ := if closed then Set.Icc a b else Set.Ioo a b

/-- The numbers that are read as `m · 2 ^ e`. -/
def readingSet (m : ℕ) (e : ℤ) : Set ℚ :=
  let interval := readingInterval m e
  span interval.2.2.2 (interval.1 * 2 ^ (e - 2)) (interval.2.2.1 * 2 ^ (e - 2))

/-- The lower end of the interval, in quarters of the unit. -/
theorem lower_readingInterval (m : ℕ) (e : ℤ) : (readingInterval m e).1 =
    if m = 2 ^ 52 ∧ minExponent < e then 4 * m - 1 else 4 * m - 2 := rfl

/-- The ends of the interval count if the mantissa is even. -/
theorem mem_readingSet_iff {m : ℕ} {e : ℤ} {x : ℚ} : x ∈ readingSet m e ↔
    ((readingInterval m e).1 ≤ 4 * (x / 2 ^ e) ∧ 4 * (x / 2 ^ e) ≤ 4 * m + 2) ∧
      (m % 2 = 1 → (readingInterval m e).1 < 4 * (x / 2 ^ e) ∧ 4 * (x / 2 ^ e) < 4 * m + 2) := by
  have hpow : (0 : ℚ) < 2 ^ e := by positivity
  have hquarter (n : ℚ) : n * 2 ^ (e - 2) = n / 4 * 2 ^ e := by
    rw [zpow_sub₀ two_ne_zero]
    ring
  have hupper : (((readingInterval m e).2.2.1 : ℕ) : ℚ) = 4 * m + 2 := by
    show ((4 * m + 2 : ℕ) : ℚ) = _
    push_cast
    rfl
  have hclosed : (readingInterval m e).2.2.2 = (m % 2 == 0) := rfl
  have hle (n : ℚ) : n / 4 * 2 ^ e ≤ x ↔ n ≤ 4 * (x / 2 ^ e) := by
    rw [← le_div_iff₀ hpow, div_le_iff₀ four_pos, mul_comm]
  have hge (n : ℚ) : x ≤ n / 4 * 2 ^ e ↔ 4 * (x / 2 ^ e) ≤ n := by
    rw [← div_le_iff₀ hpow, le_div_iff₀ four_pos, mul_comm]
  have hlt (n : ℚ) : n / 4 * 2 ^ e < x ↔ n < 4 * (x / 2 ^ e) := by
    rw [← lt_div_iff₀ hpow, div_lt_iff₀ four_pos, mul_comm]
  have hgt (n : ℚ) : x < n / 4 * 2 ^ e ↔ 4 * (x / 2 ^ e) < n := by
    rw [← div_lt_iff₀ hpow, lt_div_iff₀ four_pos, mul_comm]
  unfold readingSet span
  dsimp only
  rw [hclosed, hupper, hquarter, hquarter]
  rcases Nat.mod_two_eq_zero_or_one m with heven | hodd
  · rw [heven, if_pos (by decide), Set.mem_Icc, hle, hge]
    exact ⟨fun h => ⟨h, nofun⟩, fun h => h.1⟩
  · rw [hodd, if_neg (by decide), Set.mem_Ioo, hlt, hgt]
    exact ⟨fun h => ⟨⟨h.1.le, h.2.le⟩, fun _ => h⟩, fun h => h.2 rfl⟩

/-- What is rounded to a mantissa is read as it. Nothing below the least mantissa of 53 bits may
    have been rounded up to it, since the numbers below are closer together. -/
theorem IsRounded.mem_readingSet {m : ℕ} {e : ℤ} {x : ℚ} (h : IsRounded (x / 2 ^ e) m)
    (hm : 0 < m) (hleast : m = 2 ^ 52 → (2 : ℚ) ^ 52 ≤ x / 2 ^ e) : x ∈ readingSet m e := by
  rw [mem_readingSet_iff, lower_readingInterval]
  have hlower := h.lower
  have hupper := h.upper
  split
  · next hpower =>
    obtain ⟨rfl, -⟩ := hpower
    have hge := hleast rfl
    norm_num at hge hupper ⊢
    exact ⟨by linarith, by linarith⟩
  · have hcast : ((4 * m - 2 : ℕ) : ℚ) = 4 * m - 2 := by
      rw [Nat.cast_sub (by omega)]
      push_cast
      rfl
    rw [hcast]
    refine ⟨⟨by linarith, by linarith⟩, ?_⟩
    intro hodd
    obtain ⟨hlower', hupper'⟩ := h.odd hodd
    exact ⟨by linarith, by linarith⟩

/-- A ratio is read as the number it is rounded to. -/
theorem ofRatio_reads (negative : Bool) {num den : ℕ} (hnum : 0 < num) (hden : 0 < den)
    (htiny : (2 : ℚ) ^ (-1000 : ℤ) ≤ num / den) (hhuge : (num : ℚ) / den < 2 ^ (1000 : ℤ)) :
    ∃ m e, ofRatio negative num den = .finite negative m e ∧ 2 ^ 52 ≤ m ∧ m < 2 ^ 53 ∧
      minExponent < e ∧ (num / den : ℚ) ∈ readingSet m e := by
  obtain ⟨m, e, hmin, -, hlow, hhigh, hrounded, heq⟩ :=
    ofRatio_rounds negative hnum hden htiny hhuge
  generalize (num : ℚ) / den = x at *
  have hpow : (0 : ℚ) < 2 ^ e := by positivity
  have hlow' : (2 : ℚ) ^ 52 ≤ x / 2 ^ e := by
    rw [le_div_iff₀ hpow, mul_comm]
    exact (zpow_add₀ two_ne_zero e 52).symm.trans_le hlow
  have hhigh' : x / 2 ^ e < (2 : ℚ) ^ 53 := by
    rw [div_lt_iff₀ hpow, mul_comm]
    exact hhigh.trans_eq (zpow_add₀ two_ne_zero e 53)
  have hlower := hrounded.lower
  have hupper := hrounded.upper
  by_cases hcarry : m = 2 ^ 53
  · -- The ratio was rounded up to a power of two, from less than half a unit below.
    subst hcarry
    refine ⟨2 ^ 52, e + 1, by rw [heq, if_pos rfl], le_rfl, by norm_num, by omega, ?_⟩
    rw [mem_readingSet_iff, lower_readingInterval, if_pos ⟨rfl, by omega⟩,
      zpow_add_one₀ two_ne_zero, ← div_div]
    norm_num at hlower hhigh' ⊢
    exact ⟨by linarith, by linarith⟩
  · have hge : 2 ^ 52 ≤ m := by
      by_contra hlt
      have hstep : (m : ℚ) + 1 ≤ 2 ^ 52 := by exact_mod_cast not_le.mp hlt
      linarith
    have hle : m ≤ 2 ^ 53 := by
      by_contra hlt
      have hstep : (2 : ℚ) ^ 53 + 1 ≤ m := by exact_mod_cast not_le.mp hlt
      linarith
    exact ⟨m, e, by rw [heq, if_neg hcarry], hge, lt_of_le_of_ne hle hcarry, hmin,
      hrounded.mem_readingSet (by omega) fun _ => hlow'⟩

/-! ## Integers and quotients -/

/-- The integer that a natural number becomes, as long as it has at most 54 bits. -/
def ofNatValue (n : ℕ) : ℕ := if n < 2 ^ 53 then n else 2 * divHalfEven n 2

/-- Scaled up, an integer is still one, and stays as it is. -/
theorem IsRounded.mul_zpow_of_nonpos {n m : ℕ} {e : ℤ} (h : IsRounded (n / 2 ^ e) m)
    (he : e ≤ 0) : (m : ℚ) * 2 ^ e = n := by
  obtain ⟨j, hj⟩ := Int.eq_ofNat_of_zero_le (show 0 ≤ -e by omega)
  obtain rfl : e = -j := by omega
  have hscaled : (n : ℚ) / 2 ^ (-j : ℤ) = (n * 2 ^ j : ℕ) := by
    rw [zpow_neg, div_inv_eq_mul, zpow_natCast]
    push_cast
    rfl
  rw [hscaled] at h
  rw [h.eq (.of_natCast _), ← hscaled]
  field_simp

/-- One bit is cut off by halving. -/
theorem IsRounded.mul_two {n m : ℕ} (h : IsRounded (n / 2 ^ (1 : ℤ)) m) :
    (m : ℚ) * 2 ^ (1 : ℤ) = (2 * divHalfEven n 2 : ℕ) := by
  rw [zpow_one] at h ⊢
  rw [h.eq (isRounded_divHalfEven n two_pos)]
  push_cast
  ring

theorem ofNat_value {n : ℕ} (hpos : 0 < n) (hn : n < 2 ^ 54) :
    ∃ m e, ofNat n = .finite false m e ∧ 0 < m ∧ (m : ℚ) * 2 ^ e = ofNatValue n := by
  have htiny : (2 : ℚ) ^ (-1000 : ℤ) ≤ (n : ℚ) / (1 : ℕ) := by
    have hone : (1 : ℚ) ≤ n := by exact_mod_cast hpos
    rw [Nat.cast_one, div_one]
    exact (zpow_le_one_of_nonpos₀ one_le_two (by norm_num)).trans hone
  have hwide : (n : ℚ) < 2 ^ (54 : ℤ) := by exact_mod_cast hn
  have hhuge : (n : ℚ) / (1 : ℕ) < 2 ^ (1000 : ℤ) := by
    rw [Nat.cast_one, div_one]
    exact hwide.trans (zpow_lt_zpow_right₀ one_lt_two (by norm_num))
  obtain ⟨m, e, -, -, hlow, hhigh, hrounded, heq⟩ :=
    ofRatio_rounds false hpos one_pos htiny hhuge
  rw [Nat.cast_one, div_one] at hlow hhigh hrounded
  have hle : e ≤ 1 := by
    have hlt := (zpow_lt_zpow_iff_right₀ (one_lt_two (α := ℚ))).mp (hlow.trans_lt hwide)
    omega
  have hvalue : (m : ℚ) * 2 ^ e = ofNatValue n := by
    unfold ofNatValue
    split
    · next hfits =>
      have hnonpos : e ≤ 0 := by
        have hfits' : (n : ℚ) < 2 ^ (53 : ℤ) := by exact_mod_cast hfits
        have hlt := (zpow_lt_zpow_iff_right₀ (one_lt_two (α := ℚ))).mp (hlow.trans_lt hfits')
        omega
      exact hrounded.mul_zpow_of_nonpos hnonpos
    · next hfits =>
      have hone : e = 1 := by
        have hfits' : (2 : ℚ) ^ (53 : ℤ) ≤ n := by exact_mod_cast not_lt.mp hfits
        have hlt := (zpow_lt_zpow_iff_right₀ (one_lt_two (α := ℚ))).mp (hfits'.trans_lt hhigh)
        omega
      subst hone
      exact hrounded.mul_two
  have hmpos : 0 < m := by
    have hpow : (0 : ℚ) < 2 ^ e := by positivity
    have hlow' : (2 : ℚ) ^ 52 ≤ n / 2 ^ e := by
      rw [le_div_iff₀ hpow, mul_comm]
      exact (zpow_add₀ two_ne_zero e 52).symm.trans_le hlow
    have hupper := hrounded.upper
    have hreal : (0 : ℚ) < m := by linarith
    exact_mod_cast hreal
  by_cases hcarry : m = 2 ^ 53
  · subst hcarry
    refine ⟨2 ^ 52, e + 1, by rw [ofNat, heq, if_pos rfl], by norm_num, ?_⟩
    rw [← hvalue, zpow_add_one₀ two_ne_zero]
    push_cast
    ring
  · exact ⟨m, e, by rw [ofNat, heq, if_neg hcarry], hmpos, hvalue⟩

/-- A quotient is the rounded ratio of the two numbers. -/
theorem div_finite (s t : Bool) (m : ℕ) {n : ℕ} (hn : n ≠ 0) (e f : ℤ) :
    ∃ num den, (Binary64.finite s m e).div (.finite t n f) = ofRatio (s != t) num den ∧ 0 < den ∧
      (num : ℚ) / den = m * 2 ^ e / (n * 2 ^ f) := by
  obtain ⟨hscaled, hpos⟩ := scaled_ratio m (e - f)
  refine ⟨(scaled m (e - f)).1, (scaled m (e - f)).2 * n, ?_, by positivity, ?_⟩
  · rw [div, if_neg hn]
  · have hpos' : (0 : ℚ) < (scaled m (e - f)).2 := Nat.cast_pos.mpr hpos
    have hn' : (n : ℚ) ≠ 0 := Nat.cast_ne_zero.mpr hn
    rw [hscaled, zpow_sub₀ two_ne_zero]
    push_cast
    field_simp

end Binary64

end LoyaltyPoints
