import LoyaltyPoints.Proofs.Decimal.Value

/-! # Decimals: when sums are exact, and when they overflow

    A sum keeps as many places as its coefficient leaves room for. Three facts follow from that
    rule, and they are all the ledger needs:

    * a sum is exact if and only if some decimal stands for the exact one, at any scales of the two
      operands: the digits that are given up are zeros. Whole cents are exact if their number fits
      a coefficient;
    * a sum of whole cents is one of whole cents, exact or not;
    * a sum overflows if and only if the exact result lies at `2 ^ 96 - 1 / 2` or beyond, where
      half-to-even rounding reaches `2 ^ 96`. -/

namespace LoyaltyPoints

namespace Decimal

/-! ## Rounding half to even -/

theorem divHalfEven_mul (q : ℕ) {d : ℕ} (hd : 0 < d) : divHalfEven (q * d) d = q := by
  have hdiv : q * d / d = q := Nat.mul_div_cancel q hd
  have hmod : q * d % d = 0 := Nat.mul_mod_left q d
  simp only [divHalfEven, hdiv, hmod]
  split
  · omega
  · split <;> omega

/-- The quotient is rounded to `2 ^ 96` or beyond from half a unit below it on: `2 ^ 96` is even,
    so the tie goes up. -/
theorem bound_le_divHalfEven_iff (m : ℕ) {d : ℕ} (hd : 0 < d) :
    bound ≤ divHalfEven m d ↔ (2 * bound - 1) * d ≤ 2 * m := by
  have hm : m / d * d + m % d = m := by
    rw [Nat.mul_comm]
    exact Nat.div_add_mod m d
  have hr : m % d < d := Nat.mod_lt m hd
  have hup : ∀ x, x ≤ m / d → x * d ≤ m / d * d := fun x h => Nat.mul_le_mul_right d h
  have hdown : ∀ x, m / d ≤ x → m / d * d ≤ x * d := fun x h => Nat.mul_le_mul_right d h
  have h1 := hup (bound - 1)
  have h2 := hup bound
  have h3 := hdown (bound - 2)
  have h4 := hdown (bound - 1)
  simp only [divHalfEven, bound] at *
  generalize m / d * d = x at *
  split
  · omega
  · split <;> omega

theorem natAbs_shiftHalfEven (n : ℤ) (k : ℕ) :
    (shiftHalfEven n k).natAbs = divHalfEven n.natAbs (10 ^ k) := by
  rw [shiftHalfEven, natAbs_withSignOf, Nat.pow_eq]

theorem shiftHalfEven_nonneg {n : ℤ} (h : 0 ≤ n) (k : ℕ) : 0 ≤ shiftHalfEven n k := by
  unfold shiftHalfEven withSignOf
  rw [if_neg (by omega)]
  exact Int.natCast_nonneg _

theorem natAbs_mul_pow (c : ℤ) (k : ℕ) : (c * 10 ^ k).natAbs = c.natAbs * 10 ^ k := by
  rw [Int.natAbs_mul, Int.natAbs_pow]
  rfl

/-- A power of ten has no part in the sign. -/
theorem withSignOf_mul_pow (c : ℤ) (k : ℕ) : withSignOf (c * 10 ^ k) c.natAbs = c := by
  have hpos : (0 : ℤ) < 10 ^ k := by positivity
  unfold withSignOf
  split
  · next h =>
    have : c < 0 := neg_of_mul_neg_left h hpos.le
    simp only [Int.ofNat_eq_natCast]
    omega
  · next h =>
    have : 0 ≤ c := nonneg_of_mul_nonneg_left (not_lt.mp h) hpos
    simp only [Int.ofNat_eq_natCast]
    omega

/-- Places that hold zeros only are given up without a change of the number. -/
theorem shiftHalfEven_mul_pow (c : ℤ) (k : ℕ) : shiftHalfEven (c * 10 ^ k) k = c := by
  rw [shiftHalfEven, natAbs_mul_pow, Nat.pow_eq, divHalfEven_mul _ (by positivity),
    withSignOf_mul_pow]

/-! ## The places that fit -/

theorem findSome?_range_eq_some {α : Type} {f : ℕ → Option α} {n : ℕ} {a : α}
    (h : (List.range n).findSome? f = some a) :
    ∃ k < n, f k = some a ∧ ∀ j < k, f j = none := by
  obtain ⟨before, k, after, hrange, hk, hnone⟩ := List.findSome?_eq_some_iff.mp h
  rw [List.range_eq_range'] at hrange
  obtain ⟨m, hm, rfl, hrest⟩ := List.range'_eq_append_iff.mp hrange
  obtain ⟨rfl, hpos, -⟩ := List.range'_eq_cons_iff.mp hrest.symm
  simp only [Nat.zero_add, Nat.mul_one] at hk
  refine ⟨m, by omega, hk, fun j hj => hnone j ?_⟩
  exact List.mem_range'_1.mpr ⟨Nat.zero_le j, by omega⟩

theorem ofParts?_eq_none_iff {n : ℤ} {scale : ℕ} (h : scale ≤ 28) :
    ofParts? n scale = none ↔ bound ≤ n.natAbs := by
  simp [ofParts?, h]

theorem ofParts?_eq_some {n : ℤ} {scale : ℕ} {c : Decimal} (h : ofParts? n scale = some c) :
    c.coefficient = n ∧ c.scale = scale := by
  unfold ofParts? at h
  split at h
  · cases h
    exact ⟨rfl, rfl⟩
  · cases h

/-- `fit?` gives up the fewest places it can. -/
theorem fit?_eq_some {n : ℤ} {scale : ℕ} {c : Decimal} (hs : scale ≤ 28)
    (h : fit? n scale = some c) :
    ∃ k ≤ scale, c.coefficient = shiftHalfEven n k ∧ c.scale = scale - k ∧
      ∀ j < k, bound ≤ (shiftHalfEven n j).natAbs := by
  obtain ⟨k, hk, hc, hbelow⟩ := findSome?_range_eq_some h
  obtain ⟨hcoeff, hscale⟩ := ofParts?_eq_some hc
  refine ⟨k, by omega, hcoeff, hscale, fun j hj => ?_⟩
  exact (ofParts?_eq_none_iff (by omega)).mp (hbelow j hj)

/-- Nothing fits if and only if the number is at least `2 ^ 96 - 1 / 2`. -/
theorem fit?_eq_none_iff {n : ℤ} {scale : ℕ} (hs : scale ≤ 28) :
    fit? n scale = none ↔ (2 * bound - 1) * 10 ^ scale ≤ 2 * n.natAbs := by
  have hfit : ∀ k ≤ scale, ofParts? (shiftHalfEven n k) (scale - k) = none ↔
      (2 * bound - 1) * 10 ^ k ≤ 2 * n.natAbs := by
    intro k hk
    rw [ofParts?_eq_none_iff (by omega), natAbs_shiftHalfEven,
      bound_le_divHalfEven_iff _ (by positivity)]
  constructor
  · intro h
    have hall := List.findSome?_eq_none_iff.mp h
    exact (hfit scale le_rfl).mp (hall scale (List.mem_range.mpr (by omega)))
  · intro h
    refine List.findSome?_eq_none_iff.mpr fun k hk => ?_
    have hk : k ≤ scale := by
      have := List.mem_range.mp hk
      omega
    have hpow : 10 ^ k ≤ 10 ^ scale := Nat.pow_le_pow_right (by norm_num) hk
    exact (hfit k hk).mpr (le_trans (Nat.mul_le_mul_left _ hpow) h)

/-- A number whose last `zeros` places hold zeros, and whose other digits fit, is kept exactly. -/
theorem fit?_exact {n c : ℤ} {scale : ℕ} (zeros : ℕ) (hs : scale ≤ 28) (hz : zeros ≤ scale)
    (hn : n = c * 10 ^ zeros) (hc : c.natAbs < bound) :
    ∃ d, fit? n scale = some d ∧ d.value * 10 ^ scale = n := by
  have hexact : ∀ k ≤ zeros, shiftHalfEven n k = c * 10 ^ (zeros - k) := by
    intro k hk
    rw [hn, show zeros = zeros - k + k from by omega, pow_add, ← mul_assoc,
      shiftHalfEven_mul_pow, Nat.add_sub_cancel]
  cases h : fit? n scale with
  | none =>
    -- The place where only the zeros are given up would have fitted.
    exfalso
    have hnone := List.findSome?_eq_none_iff.mp h zeros (List.mem_range.mpr (by omega))
    rw [ofParts?_eq_none_iff (by omega), hexact zeros le_rfl] at hnone
    simp at hnone
    omega
  | some d =>
    obtain ⟨k, hk, hcoeff, hscale, hbelow⟩ := fit?_eq_some hs h
    have hkz : k ≤ zeros := by
      by_contra hlt
      have := hbelow zeros (by omega)
      rw [hexact zeros le_rfl] at this
      simp at this
      omega
    refine ⟨d, rfl, ?_⟩
    have hpow : (10 : ℚ) ^ scale = 10 ^ d.scale * 10 ^ k := by
      rw [hscale, ← pow_add, Nat.sub_add_cancel hk]
    rw [hpow, ← mul_assoc, value_mul_pow, hcoeff, hexact k hkz, hn]
    push_cast
    rw [mul_assoc, ← pow_add, Nat.sub_add_cancel hkz]

/-! ## Sums -/

/-- Away from zero operands, a sum is the exact one, fitted into a decimal of the larger scale. -/
theorem add?_eq_fit? {a b : Decimal} (ha : a.coefficient ≠ 0) (hb : b.coefficient ≠ 0) :
    ∃ n : ℤ, add? a b = fit? n (max a.scale b.scale) ∧
      (n : ℚ) = (a.value + b.value) * 10 ^ max a.scale b.scale := by
  refine ⟨a.coefficientAt (max a.scale b.scale) + b.coefficientAt (max a.scale b.scale),
    by simp [add?, ha, hb], ?_⟩
  rw [Int.cast_add, coefficientAt_eq a (le_max_left _ _), coefficientAt_eq b (le_max_right _ _),
    add_mul]

/-- Some decimal stands for a number. -/
def IsRepresented (q : ℚ) : Prop := ∃ d : Decimal, d.value = q

/-- Whole cents are represented if their number fits a coefficient. -/
theorem isRepresented_of_cents {k : ℤ} (hk : k.natAbs < bound) : IsRepresented (k / 100) := by
  refine ⟨⟨k, 2, hk, by decide⟩, ?_⟩
  norm_num [value]

/-- A coefficient holds the number with at most two places. -/
def HeldInCents (q : ℚ) : Prop :=
  ∃ places ≤ 2, ∃ n : ℤ, n.natAbs < bound ∧ q = n / 10 ^ places

/-- Whole cents are represented if a coefficient holds them with both places, or with fewer of them
    where the last ones are zeros. -/
theorem isRepresented_iff_of_isCents {q : ℚ} (h : IsCents q) :
    IsRepresented q ↔ HeldInCents q := by
  constructor
  · rintro ⟨d, hd⟩
    by_cases hscale : d.scale ≤ 2
    · exact ⟨d.scale, hscale, d.coefficient, d.coefficient_lt, hd.symm⟩
    · -- More than two places hold zeros, so the number of cents is no larger than the digits are.
      obtain ⟨k, hk⟩ := h
      have hcoefficient : d.coefficient = k * 10 ^ (d.scale - 2) := by
        have hpow := pow_mul_pow_sub (10 : ℚ) (not_le.mp hscale).le
        have : (d.coefficient : ℚ) = k * 10 ^ (d.scale - 2) := by
          rw [← value_mul_pow, hd, hk, ← hpow]
          ring
        exact_mod_cast this
      have hle : k.natAbs ≤ d.coefficient.natAbs := by
        rw [hcoefficient, Int.natAbs_mul]
        exact Nat.le_mul_of_pos_right _ (Int.natAbs_pos.mpr (by positivity))
      exact ⟨2, le_rfl, k, hle.trans_lt d.coefficient_lt, by rw [hk]; norm_num⟩
  · rintro ⟨places, hplaces, n, hn, rfl⟩
    exact ⟨⟨n, places, hn, by omega⟩, rfl⟩

/-- A sum that some decimal stands for is exact. -/
theorem add?_of_isRepresented {a b : Decimal} (h : IsRepresented (a.value + b.value)) :
    ∃ c, add? a b = some c ∧ c.value = a.value + b.value := by
  by_cases ha : a.coefficient = 0
  · exact ⟨b, by simp [add?, ha], by simp [value_eq_zero_iff.mpr ha]⟩
  by_cases hb : b.coefficient = 0
  · exact ⟨a, by simp [add?, ha, hb], by simp [value_eq_zero_iff.mpr hb]⟩
  obtain ⟨n, hadd, hn⟩ := add?_eq_fit? ha hb
  obtain ⟨d, hd⟩ := h
  have hscale : max a.scale b.scale ≤ 28 := max_le a.scale_le b.scale_le
  generalize max a.scale b.scale = places at *
  rw [← hd] at hn
  have hp : (10 : ℚ) ^ places ≠ 0 := by positivity
  suffices h : ∃ c, fit? n places = some c ∧ c.value * 10 ^ places = n by
    obtain ⟨c, hc, hval⟩ := h
    refine ⟨c, hadd.trans hc, mul_right_cancel₀ hp ?_⟩
    rw [hval, hn, hd]
  rcases Nat.le_total d.scale places with hle | hge
  · -- All places behind those of the decimal hold zeros.
    have hzeros : n = d.coefficient * 10 ^ (places - d.scale) := by
      have : (n : ℚ) = d.coefficient * 10 ^ (places - d.scale) := by
        rw [hn, ← value_mul_pow, mul_assoc, pow_mul_pow_sub 10 hle]
      exact_mod_cast this
    exact fit?_exact (places - d.scale) hscale (Nat.sub_le _ _) hzeros d.coefficient_lt
  · -- The decimal has more places than there are, and its digits fit: none has to be given up.
    have hfew : n * 10 ^ (d.scale - places) = d.coefficient := by
      have : (n : ℚ) * 10 ^ (d.scale - places) = d.coefficient := by
        rw [hn, ← value_mul_pow, mul_assoc, pow_mul_pow_sub 10 hge]
      exact_mod_cast this
    have hle : n.natAbs ≤ d.coefficient.natAbs := by
      rw [← hfew, Int.natAbs_mul]
      exact Nat.le_mul_of_pos_right _ (Int.natAbs_pos.mpr (by positivity))
    exact fit?_exact 0 hscale (Nat.zero_le _) (by simp) (lt_of_le_of_lt hle d.coefficient_lt)

/-- A sum of whole cents that is in range is exact. -/
theorem add?_of_cents {a b : Decimal} {k : ℤ} (hsum : a.value + b.value = k / 100)
    (hk : k.natAbs < bound) : ∃ c, add? a b = some c ∧ c.value = a.value + b.value :=
  add?_of_isRepresented (hsum ▸ isRepresented_of_cents hk)

/-- A sum of whole cents is one of whole cents, even if it is rounded: the first two places are
    given up last, and then the digits of a larger unit are left. -/
theorem isCents_of_add? {a b c : Decimal} (h : add? a b = some c) (ha : IsCents a.value)
    (hb : IsCents b.value) : IsCents c.value := by
  by_cases hza : a.coefficient = 0
  · simp only [add?, hza, if_true, Option.some.injEq] at h
    rwa [← h]
  by_cases hzb : b.coefficient = 0
  · simp only [add?, hza, hzb, if_true, if_false, Option.some.injEq] at h
    rwa [← h]
  obtain ⟨n, hadd, hn⟩ := add?_eq_fit? hza hzb
  obtain ⟨j, hj⟩ := ha.add hb
  have hscale : max a.scale b.scale ≤ 28 := max_le a.scale_le b.scale_le
  generalize max a.scale b.scale = places at *
  obtain ⟨k, hk, hcoefficient, hplaces, -⟩ := fit?_eq_some hscale (hadd ▸ h)
  rcases Nat.lt_or_ge 2 c.scale with hmore | hfew
  · -- More than two places are left, so those that were given up hold zeros.
    have hzeros : n = j * 10 ^ (c.scale - 2) * 10 ^ k := by
      have hpow : (10 : ℚ) ^ places = 100 * 10 ^ (c.scale - 2) * 10 ^ k := by
        rw [show places = 2 + (c.scale - 2) + k by omega, pow_add, pow_add]
        norm_num
      have : (n : ℚ) = j * 10 ^ (c.scale - 2) * 10 ^ k := by
        rw [hn, hj, hpow]
        field_simp
      exact_mod_cast this
    rw [hzeros, shiftHalfEven_mul_pow] at hcoefficient
    have hpow := pow_mul_pow_sub (10 : ℚ) hmore.le
    refine ⟨j, ?_⟩
    rw [value, hcoefficient, ← hpow]
    push_cast
    field_simp
    norm_num
  · exact IsCents.of_div_pow c.coefficient hfew

theorem add_eq_ok_iff {a b c : Decimal} : a.add b = .ok c ↔ add? a b = some c := by
  cases h : add? a b <;> simp [add, h]

/-- A difference is the sum with the other sign. -/
theorem sub_eq_ok_iff {a b c : Decimal} : a.sub b = .ok c ↔ add? a (-b) = some c := by
  cases h : add? a (-b) <;> simp [sub, sub?, h]

theorem add_of_cents {a b : Decimal} {k : ℤ} (hsum : a.value + b.value = k / 100)
    (hk : k.natAbs < bound) : ∃ c, a.add b = .ok c ∧ c.value = a.value + b.value := by
  obtain ⟨c, hc, hval⟩ := add?_of_cents hsum hk
  exact ⟨c, add_eq_ok_iff.mpr hc, hval⟩

theorem sub_of_cents {a b : Decimal} {k : ℤ} (hdiff : a.value - b.value = k / 100)
    (hk : k.natAbs < bound) : ∃ c, a.sub b = .ok c ∧ c.value = a.value - b.value := by
  have hsum : a.value + (-b).value = k / 100 := by rw [value_neg, ← sub_eq_add_neg, hdiff]
  obtain ⟨c, hc, hval⟩ := add?_of_cents hsum hk
  refine ⟨c, sub_eq_ok_iff.mpr hc, ?_⟩
  rw [hval, value_neg, sub_eq_add_neg]

/-- A sum is exact if and only if some decimal stands for the exact one. -/
theorem value_add_eq_iff {a b c : Decimal} (h : a.add b = .ok c) :
    c.value = a.value + b.value ↔ IsRepresented (a.value + b.value) := by
  constructor
  · intro heq
    exact ⟨c, heq⟩
  · intro hrep
    obtain ⟨c', hc', hval⟩ := add?_of_isRepresented hrep
    rw [add_eq_ok_iff.mp h, Option.some.injEq] at hc'
    rw [hc', hval]

theorem value_sub_eq_iff {a b c : Decimal} (h : a.sub b = .ok c) :
    c.value = a.value - b.value ↔ IsRepresented (a.value - b.value) := by
  have hneg := value_add_eq_iff (add_eq_ok_iff.mpr (sub_eq_ok_iff.mp h))
  rwa [value_neg, ← sub_eq_add_neg] at hneg

theorem isCents_of_add {a b c : Decimal} (h : a.add b = .ok c) (ha : IsCents a.value)
    (hb : IsCents b.value) : IsCents c.value :=
  isCents_of_add? (add_eq_ok_iff.mp h) ha hb

theorem isCents_of_sub {a b c : Decimal} (h : a.sub b = .ok c) (ha : IsCents a.value)
    (hb : IsCents b.value) : IsCents c.value :=
  isCents_of_add? (sub_eq_ok_iff.mp h) ha (by rw [value_neg]; exact hb.neg)

/-! ## Overflow -/

/-- There is no sum if and only if the exact one lies at `2 ^ 96 - 1 / 2` or beyond. -/
theorem add?_eq_none_iff (a b : Decimal) :
    add? a b = none ↔ (bound : ℚ) - 1 / 2 ≤ |a.value + b.value| := by
  by_cases ha : a.coefficient = 0
  · have hb := abs_value_le b
    simp only [add?, ha, if_true, reduceCtorEq, value_eq_zero_iff.mpr ha, zero_add, false_iff]
    linarith
  by_cases hb : b.coefficient = 0
  · have ha' := abs_value_le a
    simp only [add?, ha, hb, if_true, if_false, reduceCtorEq, value_eq_zero_iff.mpr hb, add_zero,
      false_iff]
    linarith
  obtain ⟨n, hadd, hn⟩ := add?_eq_fit? ha hb
  have hscale : max a.scale b.scale ≤ 28 := max_le a.scale_le b.scale_le
  rw [hadd, fit?_eq_none_iff hscale]
  generalize max a.scale b.scale = places at *
  have hp : (0 : ℚ) < 10 ^ places := by positivity
  have habs : (n.natAbs : ℚ) = |a.value + b.value| * 10 ^ places := by
    rw [Nat.cast_natAbs, Int.cast_abs, hn, abs_mul, abs_of_pos hp]
  have hcast : ((2 * bound - 1 : ℕ) : ℚ) = 2 * (bound : ℚ) - 1 := by
    rw [Nat.cast_sub (by decide)]
    push_cast
    ring
  rw [← Nat.cast_le (α := ℚ)]
  push_cast
  rw [hcast, habs, ← mul_assoc, mul_le_mul_iff_left₀ hp]
  constructor <;> intro h <;> linarith

theorem add_eq_error_iff {a b : Decimal} {e : Overflow} :
    a.add b = .error e ↔ e = .addition ∧ (bound : ℚ) - 1 / 2 ≤ |a.value + b.value| := by
  rw [← add?_eq_none_iff]
  cases h : add? a b <;> simp [add, h, eq_comm]

theorem sub_eq_error_iff {a b : Decimal} {e : Overflow} :
    a.sub b = .error e ↔ e = .subtraction ∧ (bound : ℚ) - 1 / 2 ≤ |a.value - b.value| := by
  have h := add?_eq_none_iff a (-b)
  rw [value_neg, ← sub_eq_add_neg] at h
  rw [← h]
  cases h : add? a (-b) <;> simp [sub, sub?, h, eq_comm]

/-- Taking away no more than there is does not overflow. -/
theorem sub_of_nonneg {a b : Decimal} (hb : 0 ≤ b.value) (hle : b.value ≤ a.value) :
    ∃ c, a.sub b = .ok c := by
  cases h : a.sub b with
  | ok c => exact ⟨c, rfl⟩
  | error e =>
    have hbound := (sub_eq_error_iff.mp h).2
    have ha := (le_abs_self a.value).trans (abs_value_le a)
    rw [abs_of_nonneg (by linarith)] at hbound
    linarith

/-! ## Signs -/

theorem value_nonneg_of_add? {a b c : Decimal} (h : add? a b = some c)
    (hsum : 0 ≤ a.value + b.value) : 0 ≤ c.value := by
  by_cases ha : a.coefficient = 0
  · simp only [add?, ha, if_true, Option.some.injEq] at h
    rwa [value_eq_zero_iff.mpr ha, zero_add, h] at hsum
  by_cases hb : b.coefficient = 0
  · simp only [add?, ha, hb, if_true, if_false, Option.some.injEq] at h
    rwa [value_eq_zero_iff.mpr hb, add_zero, h] at hsum
  obtain ⟨n, hadd, hn⟩ := add?_eq_fit? ha hb
  have hscale : max a.scale b.scale ≤ 28 := max_le a.scale_le b.scale_le
  have hn0 : 0 ≤ n := by
    have : (0 : ℚ) ≤ n := by
      rw [hn]
      positivity
    exact_mod_cast this
  obtain ⟨k, -, hcoeff, -, -⟩ := fit?_eq_some hscale (hadd ▸ h)
  rw [value_nonneg_iff, hcoeff]
  exact shiftHalfEven_nonneg hn0 k

/-- Rounding does not take a sum below zero. -/
theorem value_nonneg_of_add {a b c : Decimal} (h : a.add b = .ok c)
    (hsum : 0 ≤ a.value + b.value) : 0 ≤ c.value :=
  value_nonneg_of_add? (add_eq_ok_iff.mp h) hsum

/-- Nor does it take a difference below zero. -/
theorem value_nonneg_of_sub {a b c : Decimal} (h : a.sub b = .ok c) (hdiff : b.value ≤ a.value) :
    0 ≤ c.value := by
  have hsum : 0 ≤ a.value + (-b).value := by
    rw [value_neg]
    linarith
  exact value_nonneg_of_add? (sub_eq_ok_iff.mp h) hsum

end Decimal

end LoyaltyPoints
