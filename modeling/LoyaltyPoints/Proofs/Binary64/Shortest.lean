import Mathlib
import LoyaltyPoints.Proofs.Binary64.Rounding
import LoyaltyPoints.Proofs.Decimal.Sum
import LoyaltyPoints.Proofs.Decimal.Text
import LoyaltyPoints.Proofs.Decimal.Value

/-! # Binary64: the shortest text

    The shortest digits of a number are looked for on one grid after another, from coarse to fine.
    The grid of a power of ten has a point that is read as the number if and only if one of the two
    points around the number is, and the nearer one of them is taken, or the upper one
    (`gridPoint?_spec`). So the digits are the nearest ones of the first grid that has any
    (`shortest_spec`). As a text without an exponent they are read as the decimal that they stand
    for (`Digits.ofPlain?_positional`). -/

namespace LoyaltyPoints

namespace Binary64

/-! ## The grid of a power of ten -/

/-- One step of the grid of a power of ten, over a unit, as a ratio. -/
def gridStep (unit : ℕ) (p : ℤ) : ℕ × ℕ :=
  if 0 ≤ p then (unit * Nat.pow 10 p.toNat, 1) else (unit, Nat.pow 10 (-p).toNat)

theorem gridStep_ratio {unit : ℕ} (hunit : 0 < unit) (p : ℤ) :
    0 < (gridStep unit p).1 ∧ 0 < (gridStep unit p).2 ∧
      ((gridStep unit p).1 : ℚ) = unit * 10 ^ p * (gridStep unit p).2 := by
  unfold gridStep
  split
  · next h =>
    obtain ⟨k, rfl⟩ := Int.eq_ofNat_of_zero_le h
    simp [hunit]
  · next h =>
    obtain ⟨k, hk⟩ := Int.eq_ofNat_of_zero_le (show 0 ≤ -p by omega)
    obtain rfl : p = -k := by omega
    simp [hunit]

/-- Whether a number lies between two others, with the ends or without. -/
def between (closed : Bool) (low high x : ℕ) : Bool :=
  if closed then low ≤ x && x ≤ high else low < x && x < high

theorem gridPoint?_eq (lower v upper : ℕ) (closed : Bool) (unit : ℕ) (p : ℤ) :
    gridPoint? lower v upper closed unit p =
      let num := (gridStep unit p).1
      let den := (gridStep unit p).2
      let below := v * den / num
      let inside (k : ℕ) : Bool := between closed (lower * den) (upper * den) (k * num)
      let low := inside below && below != 0
      let high := inside (below + 1)
      if low && high then
        if v * den - below * num < (below + 1) * num - v * den then some below else some (below + 1)
      else if low then some below
      else if high then some (below + 1)
      else none := by
  rfl

theorem mem_of_mem_span {closed : Bool} {a b x y z : ℚ} (hx : x ∈ span closed a b)
    (hz : z ∈ span closed a b) (hxy : x ≤ y) (hyz : y ≤ z) : y ∈ span closed a b := by
  unfold span at *
  cases closed with
  | true => exact ⟨hx.1.trans hxy, hyz.trans hz.2⟩
  | false => exact ⟨hx.1.trans_le hxy, hyz.trans_lt hz.2⟩

section grid

variable {lower v upper : ℕ} {closed : Bool} {unit : ℕ} {p : ℤ}

/-- A point is inside if the number it stands for is. -/
theorem between_iff (lower upper : ℕ) (closed : Bool) (p : ℤ) (hunit : 0 < unit) (k : ℕ) :
    between closed (lower * (gridStep unit p).2) (upper * (gridStep unit p).2)
        (k * (gridStep unit p).1) = true ↔
      (k : ℚ) * 10 ^ p ∈ span closed (lower / unit) (upper / unit) := by
  obtain ⟨hnum, hden, hratio⟩ := gridStep_ratio hunit p
  have hunit' : (0 : ℚ) < unit := Nat.cast_pos.mpr hunit
  have hden' : (0 : ℚ) < (gridStep unit p).2 := Nat.cast_pos.mpr hden
  generalize (gridStep unit p).1 = num at *
  generalize (gridStep unit p).2 = den at *
  have hpoint : (k : ℚ) * num = k * 10 ^ p * unit * den := by
    rw [hratio]
    ring
  have hlow : lower * den ≤ k * num ↔ (lower : ℚ) / unit ≤ k * 10 ^ p := by
    rw [div_le_iff₀ hunit', ← Nat.cast_le (α := ℚ), Nat.cast_mul, Nat.cast_mul, hpoint,
      mul_le_mul_iff_left₀ hden']
  have hhigh : k * num ≤ upper * den ↔ (k : ℚ) * 10 ^ p ≤ upper / unit := by
    rw [le_div_iff₀ hunit', ← Nat.cast_le (α := ℚ), Nat.cast_mul, Nat.cast_mul, hpoint,
      mul_le_mul_iff_left₀ hden']
  have hlow' : lower * den < k * num ↔ (lower : ℚ) / unit < k * 10 ^ p := by
    rw [div_lt_iff₀ hunit', ← Nat.cast_lt (α := ℚ), Nat.cast_mul, Nat.cast_mul, hpoint,
      mul_lt_mul_iff_left₀ hden']
  have hhigh' : k * num < upper * den ↔ (k : ℚ) * 10 ^ p < upper / unit := by
    rw [lt_div_iff₀ hunit', ← Nat.cast_lt (α := ℚ), Nat.cast_mul, Nat.cast_mul, hpoint,
      mul_lt_mul_iff_left₀ hden']
  unfold between span
  cases closed with
  | true => simp [hlow, hhigh]
  | false => simp [hlow', hhigh']

/-- What is due to the grid point of a power of ten that is nearest to a number inside. -/
structure IsNearest (S : Set ℚ) (x : ℚ) (p : ℤ) (j : ℕ) : Prop where
  pos : 0 < j
  mem : (j : ℚ) * 10 ^ p ∈ S
  /-- No other point inside is nearer, and none that is as near is larger. -/
  nearest : ∀ i : ℕ, 0 < i → (i : ℚ) * 10 ^ p ∈ S →
    |(j : ℚ) * 10 ^ p - x| ≤ |(i : ℚ) * 10 ^ p - x| ∧
      (|(j : ℚ) * 10 ^ p - x| = |(i : ℚ) * 10 ^ p - x| → i ≤ j)

/-- The two candidates stand around the number. -/
theorem floor_around (hunit : 0 < unit) :
    ((v * (gridStep unit p).2 / (gridStep unit p).1 : ℕ) : ℚ) * 10 ^ p ≤ v / unit ∧
      (v : ℚ) / unit < ((v * (gridStep unit p).2 / (gridStep unit p).1 : ℕ) + 1) * 10 ^ p := by
  obtain ⟨hnum, hden, hratio⟩ := gridStep_ratio hunit p
  have hunit' : (0 : ℚ) < unit := Nat.cast_pos.mpr hunit
  have hden' : (0 : ℚ) < (gridStep unit p).2 := Nat.cast_pos.mpr hden
  generalize (gridStep unit p).1 = num at *
  generalize (gridStep unit p).2 = den at *
  have hbelow : ((v * den / num : ℕ) : ℚ) * num ≤ v * den := by
    exact_mod_cast Nat.div_mul_le_self (v * den) num
  have habove : (v : ℚ) * den < ((v * den / num : ℕ) + 1) * num := by
    exact_mod_cast (Nat.div_lt_iff_lt_mul hnum).mp (Nat.lt_succ_self _)
  have hpow : (0 : ℚ) < 10 ^ p := by positivity
  constructor
  · rw [le_div_iff₀ hunit']
    refine le_of_mul_le_mul_right ?_ hden'
    calc _ = ((v * den / num : ℕ) : ℚ) * num := by rw [hratio]; ring
      _ ≤ v * den := hbelow
  · rw [div_lt_iff₀ hunit']
    refine lt_of_mul_lt_mul_right ?_ hden'.le
    calc (v : ℚ) * den < ((v * den / num : ℕ) + 1) * num := habove
      _ = _ := by rw [hratio]; ring

/-- The distances from the two candidates are compared as integers. -/
theorem nearer_below_iff (hunit : 0 < unit) {below : ℕ}
    (hfloor : below = v * (gridStep unit p).2 / (gridStep unit p).1) :
    v * (gridStep unit p).2 - below * (gridStep unit p).1 <
        (below + 1) * (gridStep unit p).1 - v * (gridStep unit p).2 ↔
      (v : ℚ) / unit - below * 10 ^ p < (below + 1 : ℕ) * 10 ^ p - v / unit := by
  obtain ⟨hnum, hden, hratio⟩ := gridStep_ratio hunit p
  have hunit' : (0 : ℚ) < unit := Nat.cast_pos.mpr hunit
  have hden' : (0 : ℚ) < (gridStep unit p).2 := Nat.cast_pos.mpr hden
  generalize (gridStep unit p).1 = num at *
  generalize (gridStep unit p).2 = den at *
  have hbelow : below * num ≤ v * den := hfloor ▸ Nat.div_mul_le_self (v * den) num
  have habove : v * den < (below + 1) * num :=
    hfloor ▸ (Nat.div_lt_iff_lt_mul hnum).mp (Nat.lt_succ_self _)
  have hpoint (k : ℕ) : (k : ℚ) * num = k * 10 ^ p * unit * den := by
    rw [hratio]
    ring
  have hvalue : (v : ℚ) * den = v / unit * unit * den := by
    field_simp
  -- No difference is cut off at zero, so both sides can be compared as rational numbers.
  have hsum : v * den - below * num < (below + 1) * num - v * den ↔
      v * den + v * den < (below + 1) * num + below * num := by omega
  rw [hsum, ← Nat.cast_lt (α := ℚ), Nat.cast_add, Nat.cast_add, Nat.cast_mul, Nat.cast_mul,
    Nat.cast_mul, hpoint, hpoint, hvalue, ← add_mul, ← add_mul, ← add_mul, ← add_mul,
    mul_lt_mul_iff_left₀ hden', mul_lt_mul_iff_left₀ hunit']
  constructor
  · intro h
    linarith
  · intro h
    linarith

/-- Which of the two candidates is taken: the nearer one of those inside, and the upper one of two
    that are equally near. -/
theorem gridPoint?_cases (hunit : 0 < unit) {below : ℕ}
    (hfloor : below = v * (gridStep unit p).2 / (gridStep unit p).1) {S : Set ℚ}
    (hS : span closed (lower / unit) (upper / unit) = S) :
    (gridPoint? lower v upper closed unit p = some below ∧ 0 < below ∧ (below : ℚ) * 10 ^ p ∈ S ∧
      (((below + 1 : ℕ) : ℚ) * 10 ^ p ∈ S →
        (v : ℚ) / unit - below * 10 ^ p < (below + 1 : ℕ) * 10 ^ p - v / unit)) ∨
    (gridPoint? lower v upper closed unit p = some (below + 1) ∧
      ((below + 1 : ℕ) : ℚ) * 10 ^ p ∈ S ∧
      (0 < below → (below : ℚ) * 10 ^ p ∈ S →
        ((below + 1 : ℕ) : ℚ) * 10 ^ p - v / unit ≤ v / unit - below * 10 ^ p)) ∨
    (gridPoint? lower v upper closed unit p = none ∧ (0 < below → (below : ℚ) * 10 ^ p ∉ S) ∧
      ((below + 1 : ℕ) : ℚ) * 10 ^ p ∉ S) := by
  subst hS
  have hlow := between_iff lower upper closed p hunit below
  have hhigh := between_iff lower upper closed p hunit (below + 1)
  have hcompare := nearer_below_iff (p := p) hunit hfloor
  have hfirst : (between closed (lower * (gridStep unit p).2) (upper * (gridStep unit p).2)
      (below * (gridStep unit p).1) && below != 0) = true ↔
      (below : ℚ) * 10 ^ p ∈ span closed (lower / unit) (upper / unit) ∧ 0 < below := by
    rw [Bool.and_eq_true, hlow, bne_iff_ne, Nat.pos_iff_ne_zero]
  rw [gridPoint?_eq]
  dsimp only
  rw [← hfloor]
  split
  · next h =>
    rw [Bool.and_eq_true, hfirst, hhigh] at h
    obtain ⟨⟨hin, hpos⟩, hin'⟩ := h
    split
    · next hnear => exact .inl ⟨rfl, hpos, hin, fun _ => hcompare.mp hnear⟩
    · next hnear =>
      exact .inr (.inl ⟨rfl, hin', fun _ _ => not_lt.mp (mt hcompare.mpr hnear)⟩)
  · next h =>
    rw [Bool.and_eq_true, hfirst, hhigh] at h
    split
    · next hone =>
      have hone := hfirst.mp hone
      exact .inl ⟨rfl, hone.2, hone.1, fun hin' => absurd ⟨hone, hin'⟩ h⟩
    · next hone =>
      have hout : 0 < below → (below : ℚ) * 10 ^ p ∉ span closed (lower / unit) (upper / unit) :=
        fun hpos hin => hone (hfirst.mpr ⟨hin, hpos⟩)
      split
      · next hin' =>
        exact .inr (.inl ⟨rfl, hhigh.mp hin', fun hpos hin => absurd hin (hout hpos)⟩)
      · next hin' => exact .inr (.inr ⟨rfl, hout, mt hhigh.mpr hin'⟩)

theorem gridPoint?_spec (hunit : 0 < unit)
    (hv : (v : ℚ) / unit ∈ span closed (lower / unit) (upper / unit)) :
    (∀ j, gridPoint? lower v upper closed unit p = some j →
      IsNearest (span closed (lower / unit) (upper / unit)) (v / unit) p j) ∧
    (gridPoint? lower v upper closed unit p = none →
      ∀ i : ℕ, 0 < i → (i : ℚ) * 10 ^ p ∉ span closed (lower / unit) (upper / unit)) := by
  obtain ⟨hbelow, habove⟩ := floor_around (v := v) (p := p) hunit
  set below := v * (gridStep unit p).2 / (gridStep unit p).1 with hfloor
  set S := span closed (lower / unit : ℚ) (upper / unit) with hS
  have hcases := gridPoint?_cases hunit hfloor hS.symm
  set x : ℚ := v / unit
  rw [← Nat.cast_succ] at habove
  have hpow : (0 : ℚ) < 10 ^ p := by positivity
  -- A point inside lies behind one of the two candidates, which is then inside as well.
  have hpoint (i : ℕ) (hi : 0 < i) (hin : (i : ℚ) * 10 ^ p ∈ S) :
      (i ≤ below ∧ (i : ℚ) * 10 ^ p ≤ below * 10 ^ p ∧ 0 < below ∧ (below : ℚ) * 10 ^ p ∈ S) ∨
      (below + 1 ≤ i ∧ ((below + 1 : ℕ) : ℚ) * 10 ^ p ≤ i * 10 ^ p ∧
        ((below + 1 : ℕ) : ℚ) * 10 ^ p ∈ S) := by
    rcases Nat.lt_or_ge below i with hlt | hle
    · have hmono : ((below + 1 : ℕ) : ℚ) * 10 ^ p ≤ i * 10 ^ p := by
        gcongr
        omega
      exact .inr ⟨hlt, hmono, mem_of_mem_span hv hin habove.le hmono⟩
    · have hmono : (i : ℚ) * 10 ^ p ≤ below * 10 ^ p := by gcongr
      exact .inl ⟨hle, hmono, by omega, mem_of_mem_span hin hv hmono hbelow⟩
  have habs (i : ℕ) (hle : (i : ℚ) * 10 ^ p ≤ x) : |(i : ℚ) * 10 ^ p - x| = x - i * 10 ^ p := by
    rw [abs_sub_comm, abs_of_nonneg (sub_nonneg.mpr hle)]
  have habs' (i : ℕ) (hle : x ≤ (i : ℚ) * 10 ^ p) : |(i : ℚ) * 10 ^ p - x| = i * 10 ^ p - x :=
    abs_of_nonneg (sub_nonneg.mpr hle)
  rcases hcases with ⟨hread, hpos, hin, hnear⟩ | ⟨hread, hin, hnear⟩ | ⟨hread, hout, hout'⟩
  · refine ⟨?_, by rw [hread]; exact nofun⟩
    intro j hj
    obtain rfl : below = j := Option.some.inj (hread.symm.trans hj)
    refine ⟨hpos, hin, ?_⟩
    intro i hi hin'
    rw [habs below hbelow]
    rcases hpoint i hi hin' with ⟨hle, hmono, -, -⟩ | ⟨hlt, hmono, hmem⟩
    · rw [habs i (hmono.trans hbelow)]
      exact ⟨by linarith, fun _ => hle⟩
    · have hless := hnear hmem
      rw [habs' i (habove.le.trans hmono)]
      exact ⟨by linarith, fun heq => by linarith⟩
  · refine ⟨?_, by rw [hread]; exact nofun⟩
    intro j hj
    obtain rfl : below + 1 = j := Option.some.inj (hread.symm.trans hj)
    refine ⟨Nat.succ_pos below, hin, ?_⟩
    intro i hi hin'
    rw [habs' (below + 1) habove.le]
    rcases hpoint i hi hin' with ⟨hle, hmono, hpos, hmem⟩ | ⟨hlt, hmono, -⟩
    · have hless := hnear hpos hmem
      rw [habs i (hmono.trans hbelow)]
      exact ⟨by linarith, fun _ => by omega⟩
    · rw [habs' i (habove.le.trans hmono)]
      refine ⟨by linarith, ?_⟩
      intro heq
      have hsame : (i : ℚ) = (below + 1 : ℕ) := mul_right_cancel₀ hpow.ne' (by linarith)
      exact (Nat.cast_injective hsame).le
  · refine ⟨by rw [hread]; exact nofun, ?_⟩
    intro _ i hi hin
    rcases hpoint i hi hin with ⟨-, -, hpos, hmem⟩ | ⟨-, -, hmem⟩
    · exact hout hpos hmem
    · exact hout' hmem

end grid

/-! ## The shortest digits -/

/-- A quarter of the unit of a number, as a factor over a whole. -/
def quarter (e : ℤ) : ℕ × ℕ :=
  if 0 ≤ e - 2 then (Nat.pow 2 (e - 2).toNat, 1) else (1, Nat.pow 2 (-(e - 2)).toNat)

theorem quarter_ratio (e : ℤ) :
    0 < (quarter e).1 ∧ 0 < (quarter e).2 ∧ ((quarter e).1 : ℚ) = 2 ^ (e - 2) * (quarter e).2 := by
  unfold quarter
  split
  · next h =>
    obtain ⟨k, hk⟩ := Int.eq_ofNat_of_zero_le h
    rw [hk]
    simp
  · next h =>
    obtain ⟨k, hk⟩ := Int.eq_ofNat_of_zero_le (show 0 ≤ -(e - 2) by omega)
    have hk' : e - 2 = -k := by omega
    rw [hk']
    simp

/-- The power of ten above the first digit of a ratio, as far as the shortest digits are looked for
    from it on. -/
def topPower (v unit : ℕ) : ℤ :=
  if unit ≤ v then (Nat.toDigits 10 (v / unit)).length
  else 1 - (Nat.toDigits 10 (unit / v)).length + 1

theorem shortest_eq (m : ℕ) (e : ℤ) : shortest m e =
    ((List.range 19).findSome? fun n : ℕ =>
      (gridPoint? ((readingInterval m e).1 * (quarter e).1) (4 * m * (quarter e).1)
        ((4 * m + 2) * (quarter e).1) (m % 2 == 0) (quarter e).2
        (topPower (4 * m * (quarter e).1) (quarter e).2 - n)).map fun k =>
          (⟨k, topPower (4 * m * (quarter e).1) (quarter e).2 - n⟩ : Digits)).getD
      ⟨4 * m * (quarter e).1 / (quarter e).2, 0⟩ := by
  rfl

section shortest

variable {m : ℕ} {e : ℤ}

/-- A number is read as itself. -/
theorem self_mem_readingSet (hm : 0 < m) (e : ℤ) : (m : ℚ) * 2 ^ e ∈ readingSet m e := by
  have hpow : (2 : ℚ) ^ e ≠ 0 := by positivity
  have hself : (m : ℚ) * 2 ^ e / 2 ^ e = m := mul_div_cancel_right₀ _ hpow
  apply IsRounded.mem_readingSet
  · rw [hself]
    exact .of_natCast m
  · exact hm
  · rintro rfl
    rw [hself]
    norm_num

/-- The power of ten from which on the shortest digits of a number are looked for. -/
def firstPower (m : ℕ) (e : ℤ) : ℤ := topPower (4 * m * (quarter e).1) (quarter e).2

/-- The shortest digits are the nearest ones at the first power of ten at which any digits are read
    as the number. -/
theorem shortest_spec (hm : 0 < m) {i : ℕ} (hi : 0 < i) {q : ℤ}
    (hin : (i : ℚ) * 10 ^ q ∈ readingSet m e) (hq : q ≤ firstPower m e)
    (hq' : firstPower m e ≤ q + 18) :
    ∃ j p, shortest m e = ⟨j, p⟩ ∧ q ≤ p ∧ IsNearest (readingSet m e) (m * 2 ^ e) p j ∧
      ∀ p', p < p' → p' ≤ firstPower m e → ∀ i : ℕ, 0 < i → (i : ℚ) * 10 ^ p' ∉ readingSet m e := by
  obtain ⟨hf, hunit, hratio⟩ := quarter_ratio e
  have hunit' : (0 : ℚ) < (quarter e).2 := Nat.cast_pos.mpr hunit
  have hend (n : ℕ) : ((n * (quarter e).1 : ℕ) : ℚ) / (quarter e).2 = n * 2 ^ (e - 2) := by
    rw [Nat.cast_mul, hratio]
    field_simp
  have hvalue : ((4 * m * (quarter e).1 : ℕ) : ℚ) / (quarter e).2 = m * 2 ^ e := by
    rw [hend, zpow_sub₀ two_ne_zero]
    push_cast
    ring
  have hset : span (m % 2 == 0) (((readingInterval m e).1 * (quarter e).1 : ℕ) / (quarter e).2 : ℚ)
      (((4 * m + 2) * (quarter e).1 : ℕ) / (quarter e).2) = readingSet m e := by
    rw [hend, hend]
    rfl
  have hself : ((4 * m * (quarter e).1 : ℕ) : ℚ) / (quarter e).2 ∈
      span (m % 2 == 0) (((readingInterval m e).1 * (quarter e).1 : ℕ) / (quarter e).2 : ℚ)
        (((4 * m + 2) * (quarter e).1 : ℕ) / (quarter e).2) := by
    rw [hset, hvalue]
    exact self_mem_readingSet hm e
  have hgrid (p : ℤ) := gridPoint?_spec (p := p) hunit hself
  rw [hset, hvalue] at hgrid
  rw [shortest_eq, ← firstPower]
  set point? := fun n : ℕ => gridPoint? ((readingInterval m e).1 * (quarter e).1)
    (4 * m * (quarter e).1) ((4 * m + 2) * (quarter e).1) (m % 2 == 0) (quarter e).2
    (firstPower m e - n) with hpoint
  set digits? := fun n : ℕ => (point? n).map fun k => (⟨k, firstPower m e - n⟩ : Digits)
  -- Where no digits are found, no point of the grid is read as the number.
  have hnone (p : ℤ) (hp : p ≤ firstPower m e) (h : digits? (firstPower m e - p).toNat = none) :
      ∀ i : ℕ, 0 < i → (i : ℚ) * 10 ^ p ∉ readingSet m e := by
    have hback : firstPower m e - ((firstPower m e - p).toNat : ℤ) = p := by omega
    apply (hgrid p).2
    have hpoint? : point? (firstPower m e - p).toNat = none := Option.map_eq_none_iff.mp h
    simp only [hpoint, hback] at hpoint?
    exact hpoint?
  obtain ⟨d, hfound⟩ : ∃ d, (List.range 19).findSome? digits? = some d := by
    apply Option.ne_none_iff_exists'.mp
    intro hall
    have hlast : (firstPower m e - q).toNat ∈ List.range 19 := List.mem_range.mpr (by omega)
    exact hnone q hq (List.findSome?_eq_none_iff.mp hall _ hlast) i hi hin
  obtain ⟨n, hn, hd, hbefore⟩ := Decimal.findSome?_range_eq_some hfound
  obtain ⟨j, hj, rfl⟩ := Option.map_eq_some_iff.mp hd
  refine ⟨j, firstPower m e - n, by rw [hfound, Option.getD_some], ?_, (hgrid _).1 j hj, ?_⟩
  · by_contra hlt
    exact hnone q hq (hbefore _ (by omega)) i hi hin
  · intro p' hlt hle
    exact hnone p' hle (hbefore _ (by omega))

/-- The power of ten of a number that is neither tiny nor huge. -/
theorem firstPower_mem (hlow : (1 : ℚ) / 1000 < m * 2 ^ e) (hhigh : (m : ℚ) * 2 ^ e < 10 ^ 15) :
    -1 ≤ firstPower m e ∧ firstPower m e ≤ 15 := by
  obtain ⟨hf, hunit, hratio⟩ := quarter_ratio e
  have hunit' : (0 : ℚ) < (quarter e).2 := Nat.cast_pos.mpr hunit
  have hvalue : ((4 * m * (quarter e).1 : ℕ) : ℚ) = m * 2 ^ e * (quarter e).2 := by
    rw [Nat.cast_mul, hratio, zpow_sub₀ two_ne_zero]
    push_cast
    ring
  unfold firstPower topPower
  generalize 4 * m * (quarter e).1 = v at *
  generalize (quarter e).2 = unit at *
  have hsmall : v < 10 ^ 15 * unit := by
    rw [← Nat.cast_lt (α := ℚ), hvalue]
    push_cast
    exact mul_lt_mul_of_pos_right hhigh hunit'
  have hlarge : unit < 1000 * v := by
    rw [← Nat.cast_lt (α := ℚ), Nat.cast_mul, hvalue]
    push_cast
    rw [← mul_assoc]
    exact lt_mul_of_one_lt_left hunit' (by linarith)
  split
  · have hlength : (Nat.toDigits 10 (v / unit)).length ≤ 15 := by
      rw [Nat.length_toDigits_le_iff (by norm_num) (by norm_num)]
      exact (Nat.div_lt_iff_lt_mul hunit).mpr hsmall
    omega
  · have hpos : 0 < v := by omega
    have hlength : (Nat.toDigits 10 (unit / v)).length ≤ 3 := by
      rw [Nat.length_toDigits_le_iff (by norm_num) (by norm_num)]
      exact (Nat.div_lt_iff_lt_mul hpos).mpr hlarge
    omega

end shortest

end Binary64

/-! ## The text of digits -/

namespace Decimal

theorem ofMagnitude?_of_lt {n scale : ℕ} (hn : n < bound) (hscale : scale ≤ 28) :
    ∃ a, ofMagnitude? false n scale = some a ∧ a.value = n / 10 ^ scale ∧ a.scale = scale :=
  ⟨⟨n, scale, hn, hscale⟩, dif_pos ⟨hn, hscale⟩, rfl, rfl⟩

end Decimal

namespace Binary64

namespace Digits

/-- The number that digits stand for. -/
def value (d : Digits) : ℚ := d.digits * 10 ^ d.exponent

/-- Zeros are dropped without a change of the number. -/
theorem strip_spec (fuel : ℕ) (d : Digits) (hd : 0 < d.digits) :
    0 < (d.strip fuel).digits ∧ d.exponent ≤ (d.strip fuel).exponent ∧
      (d.strip fuel).value = d.value := by
  induction fuel generalizing d with
  | zero => exact ⟨hd, le_rfl, rfl⟩
  | succ fuel ih =>
    unfold strip
    split
    · next h =>
      obtain ⟨hpos, hexponent, hvalue⟩ := ih ⟨d.digits / 10, d.exponent + 1⟩ (by dsimp only; omega)
      refine ⟨hpos, by dsimp only at hexponent; omega, ?_⟩
      have hten : ((d.digits / 10 : ℕ) : ℚ) * 10 = d.digits := by
        exact_mod_cast Nat.div_mul_cancel (Nat.dvd_of_mod_eq_zero h.2)
      rw [hvalue, value, value, zpow_add_one₀ (by norm_num)]
      dsimp only
      rw [← hten]
      ring
    · exact ⟨hd, le_rfl, rfl⟩

theorem isDigit_of_mem_zeros {k : ℕ} : ∀ c ∈ List.replicate k '0', c.isDigit = true := by
  intro c hc
  rw [List.eq_of_mem_replicate hc]
  rfl

theorem isDigit_of_mem_toDigits {n : ℕ} : ∀ c ∈ Nat.toDigits 10 n, c.isDigit = true :=
  fun _ => Text.isDigit_of_mem_digits

theorem digitsValue_toDigits (n : ℕ) : Text.digitsValue (Nat.toDigits 10 n) = n :=
  Text.digitsValue_digits n

/-- Digits with zeros behind them are read as a whole number. -/
theorem ofPlain?_whole (n k : ℕ) (hfits : n * 10 ^ k < Decimal.bound) :
    Decimal.ofPlain? (Nat.toDigits 10 n ++ List.replicate k '0') =
      Decimal.ofMagnitude? false (n * 10 ^ k) 0 := by
  have hvalue : Text.digitsValue (Nat.toDigits 10 n ++ List.replicate k '0') = n * 10 ^ k := by
    rw [Text.digitsValue_append, digitsValue_toDigits, List.length_replicate,
      Text.digitsValue_replicate_zero, Nat.add_zero, Nat.mul_comm]
  rw [Decimal.ofPlain?_digits
    (List.forall_mem_append.mpr ⟨isDigit_of_mem_toDigits, isDigit_of_mem_zeros⟩) _
    (hvalue ▸ hfits), hvalue]
  exact List.append_ne_nil_of_left_ne_nil (Text.digits_ne_nil n) _

/-- Digits with a point between them are read with so many places. -/
theorem ofPlain?_parted {n k : ℕ} (hlong : k < (Nat.toDigits 10 n).length)
    (hplaces : k ≤ 28) (hfits : n < Decimal.bound) :
    Decimal.ofPlain? ((Nat.toDigits 10 n).take ((Nat.toDigits 10 n).length - k) ++
        '.' :: (Nat.toDigits 10 n).drop ((Nat.toDigits 10 n).length - k)) =
      Decimal.ofMagnitude? false n k := by
  have hdigits := isDigit_of_mem_toDigits (n := n)
  have hspelt := digitsValue_toDigits n
  generalize Nat.toDigits 10 n = ds at *
  have hjoined : ds.take (ds.length - k) ++ ds.drop (ds.length - k) = ds :=
    List.take_append_drop _ _
  have hlength : (ds.drop (ds.length - k)).length = k := by
    rw [List.length_drop]
    omega
  rw [Decimal.ofPlain?_point (fun c hc => hdigits c (List.mem_of_mem_take hc)) _
    (fun c hc => hdigits c (List.mem_of_mem_drop hc)) (by omega)
    (by rw [hjoined, hspelt]; exact hfits), hjoined, hspelt, hlength]
  apply List.ne_nil_of_length_pos
  rw [List.length_take]
  omega

/-- Digits that are filled up with zeros behind the point are read with so many places. -/
theorem ofPlain?_filled {n k : ℕ} (hshort : (Nat.toDigits 10 n).length ≤ k)
    (hplaces : k ≤ 28) (hfits : n < Decimal.bound) :
    Decimal.ofPlain? (['0'] ++ '.' ::
        (List.replicate (k - (Nat.toDigits 10 n).length) '0' ++ Nat.toDigits 10 n)) =
      Decimal.ofMagnitude? false n k := by
  have hlength : (List.replicate (k - (Nat.toDigits 10 n).length) '0' ++
      Nat.toDigits 10 n).length = k := by
    rw [List.length_append, List.length_replicate]
    omega
  have hvalue : Text.digitsValue (['0'] ++ (List.replicate
      (k - (Nat.toDigits 10 n).length) '0' ++ Nat.toDigits 10 n)) = n := by
    rw [Text.digitsValue_append, Text.digitsValue_append, digitsValue_toDigits,
      Text.digitsValue_replicate_zero]
    show _ * 0 + _ = n
    omega
  have hfirst : ∀ c ∈ ['0'], c.isDigit = true := isDigit_of_mem_zeros (k := 1)
  rw [Decimal.ofPlain?_point hfirst (List.cons_ne_nil _ _)
    (List.forall_mem_append.mpr ⟨isDigit_of_mem_zeros, isDigit_of_mem_toDigits⟩) (by omega)
    (by rw [hvalue]; exact hfits), hvalue, hlength]

/-- Digits that are not too many are read as the decimal they stand for. -/
theorem ofPlain?_positional (d : Digits) (hplaces : -28 ≤ d.exponent)
    (hfits : d.digits * 10 ^ d.exponent.toNat < Decimal.bound) :
    ∃ a, Decimal.ofPlain? d.positional = some a ∧ a.value = d.value ∧
      (a.scale : ℤ) = max 0 (-d.exponent) := by
  obtain ⟨n, p⟩ := d
  unfold positional value
  dsimp only at hplaces hfits ⊢
  split
  · next hwhole =>
    obtain ⟨k, rfl⟩ := Int.eq_ofNat_of_zero_le hwhole
    rw [Int.toNat_natCast] at hfits ⊢
    obtain ⟨a, ha, hnumber, hscale⟩ := Decimal.ofMagnitude?_of_lt hfits (Nat.zero_le 28)
    refine ⟨a, (ofPlain?_whole n k hfits).trans ha, ?_, ?_⟩
    · rw [hnumber]
      push_cast
      simp
    · rw [hscale]
      omega
  · next hpoint =>
    obtain ⟨k, hk⟩ := Int.eq_ofNat_of_zero_le (show 0 ≤ -p by omega)
    obtain rfl : p = -k := by omega
    have hzero : (-(k : ℤ)).toNat = 0 := by omega
    rw [hzero, pow_zero, Nat.mul_one] at hfits
    rw [neg_neg, Int.toNat_natCast]
    have hfew : k ≤ 28 := by omega
    obtain ⟨a, ha, hnumber, hscale⟩ := Decimal.ofMagnitude?_of_lt hfits hfew
    refine ⟨a, ?_, ?_, ?_⟩
    · split
      · next hlong => exact (ofPlain?_parted hlong hfew hfits).trans ha
      · next hshort => exact (ofPlain?_filled (not_lt.mp hshort) hfew hfits).trans ha
    · rw [hnumber, zpow_neg, zpow_natCast, div_eq_mul_inv]
    · rw [hscale]
      omega

end Digits

end Binary64

end LoyaltyPoints
