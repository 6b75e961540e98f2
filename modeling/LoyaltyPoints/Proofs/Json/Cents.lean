import Mathlib
import LoyaltyPoints.Json.Number
import LoyaltyPoints.Proofs.Binary64.Shortest

/-! # JSON: amounts in cents

    An amount with two places is read in three steps: its digits are gathered to an integer, the
    integer is divided by a hundred as a floating-point number, and the shortest text of the
    quotient is the amount. The main statement says what comes out for every number of cents below
    `10 ^ 16` (`toDecimal?_ofCents`).

    Below `100 · 2 ^ 46` cents floating-point numbers are less than a cent apart, so no two amounts
    have the same one and every amount comes back. From there on they are sixty-fourths, which are
    farther apart than cents: some amounts share one, and only the one with fewer digits or the
    nearer one of them comes back. -/

namespace LoyaltyPoints

/-! ## Which amounts come back -/

namespace Cents

/-- The first number of cents at which floating-point numbers are farther apart than cents. -/
def limit : ℕ := 100 * 2 ^ 46

/-- The sixty-fourths of a point that so many cents are read as. -/
def sixtyFourths (k : ℕ) : ℕ := (16 * Binary64.ofNatValue k + 12) / 25

/-- Whether so many cents are read as `m` sixty-fourths: `j / 100` is within half a sixty-fourth. -/
def IsReadAs (m j : ℕ) : Prop := 25 * m ≤ 16 * j + 12 ∧ 16 * j ≤ 25 * m + 12

instance (m j : ℕ) : Decidable (IsReadAs m j) := by
  unfold IsReadAs
  infer_instance

/-- The cents that `m` sixty-fourths are written as: tenths of a point if there are any that are
    read as them, else the nearest cents, a half going up. -/
def shown (m : ℕ) : ℕ :=
  if IsReadAs m (10 * ((25 * m + 80) / 160)) then 10 * ((25 * m + 80) / 160) else (25 * m + 8) / 16

/-- The cents that come back for so many cents. -/
def carried (k : ℕ) : ℕ := if k < limit then k else shown (sixtyFourths k)

theorem carried_of_lt {k : ℕ} (h : k < limit) : carried k = k := if_pos h

/-- The gathered integer is one beside the digits at most. -/
theorem ofNatValue_near (k : ℕ) :
    Binary64.ofNatValue k ≤ k + 1 ∧ k ≤ Binary64.ofNatValue k + 1 := by
  unfold Binary64.ofNatValue Decimal.divHalfEven
  dsimp only
  split
  · omega
  · split
    · omega
    · split <;> omega

theorem limit_le_ofNatValue {k : ℕ} (h : limit ≤ k) : limit ≤ Binary64.ofNatValue k := by
  have hnear := ofNatValue_near k
  unfold Binary64.ofNatValue limit at *
  split at hnear
  · next hfits =>
    rw [if_pos hfits]
    omega
  · next hfits =>
    rw [if_neg hfits]
    omega

theorem isReadAs_shown (m : ℕ) : IsReadAs m (shown m) := by
  unfold shown
  split
  · assumption
  · unfold IsReadAs
    omega

/-- No amount is off by more than two cents. -/
theorem carried_near (k : ℕ) : carried k ≤ k + 2 ∧ k ≤ carried k + 2 := by
  have hgathered := ofNatValue_near k
  have hread := isReadAs_shown (sixtyFourths k)
  unfold carried
  split
  · omega
  · unfold IsReadAs sixtyFourths at *
    omega

/-- The points that come back are the nearest ones, or tenths. -/
theorem eq_shown {m j : ℕ} (hread : IsReadAs m j)
    (hten : 10 ∣ j ∨ (∀ t, ¬ IsReadAs m (10 * t)) ∧ ∀ i, IsReadAs m i →
      (16 * j - 25 * m : ℤ).natAbs ≤ (16 * i - 25 * m : ℤ).natAbs ∧
        ((16 * j - 25 * m : ℤ).natAbs = (16 * i - 25 * m : ℤ).natAbs → i ≤ j)) : j = shown m := by
  unfold shown
  rcases hten with ⟨t, rfl⟩ | ⟨hnone, hnearest⟩
  · have ht : (25 * m + 80) / 160 = t := by
      unfold IsReadAs at hread
      omega
    rw [ht, if_pos hread]
  · rw [if_neg (hnone _)]
    have hmiddle : IsReadAs m ((25 * m + 8) / 16) := by
      unfold IsReadAs
      omega
    obtain ⟨hle, htie⟩ := hnearest _ hmiddle
    omega

end Cents

namespace Binary64

open Cents (IsReadAs sixtyFourths shown carried)

/-! ## The floating-point number of an amount -/

/-- What is read as a number is within half a unit of it. -/
theorem near_of_mem_readingSet {m : ℕ} {e : ℤ} {x : ℚ} (hm : 0 < m) (h : x ∈ readingSet m e) :
    ((m : ℚ) - 1 / 2) * 2 ^ e ≤ x ∧ x ≤ (m + 1 / 2) * 2 ^ e := by
  have hpow : (0 : ℚ) < 2 ^ e := by positivity
  obtain ⟨⟨hlow, hhigh⟩, -⟩ := mem_readingSet_iff.mp h
  have hquarter : (4 * m : ℚ) - 2 ≤ (readingInterval m e).1 := by
    rw [lower_readingInterval]
    split
    · rw [Nat.cast_sub (by omega)]
      push_cast
      linarith
    · rw [Nat.cast_sub (by omega)]
      push_cast
      linarith
  rw [← le_div_iff₀ hpow, ← div_le_iff₀ hpow]
  constructor <;> linarith

/-- A hundred. -/
theorem powerOfTen_two : Json.Number.powerOfTen 2 = .finite false 7036874417766400 (-46) := by
  decide +kernel

/-- An amount is divided by a hundred in one rounding. -/
theorem div_hundred {k : ℕ} (hpos : 0 < k) (hk : k < 2 ^ 54) :
    ∃ num den, (ofNat k).div (Json.Number.powerOfTen 2) = ofRatio false num den ∧ 0 < num ∧
      0 < den ∧ (num : ℚ) / den = ofNatValue k / 100 := by
  obtain ⟨m, e, hnat, hm, hvalue⟩ := ofNat_value hpos hk
  obtain ⟨num, den, hdiv, hden, hratio⟩ :=
    div_finite false false m (n := 7036874417766400) (by norm_num) e (-46)
  have hhundred : ((7036874417766400 : ℕ) : ℚ) * 2 ^ (-46 : ℤ) = 100 := by norm_num
  rw [hvalue, hhundred] at hratio
  refine ⟨num, den, ?_, ?_, hden, hratio⟩
  · rw [hnat, powerOfTen_two, hdiv]
    rfl
  · -- The quotient is positive, so its numerator is.
    have hden' : (0 : ℚ) < den := Nat.cast_pos.mpr hden
    have hquotient : (0 : ℚ) < (num : ℚ) / den := by
      rw [hratio, ← hvalue]
      positivity
    exact Nat.cast_pos.mp ((div_pos_iff_of_pos_right hden').mp hquotient)

/-- What is read as a number of points is found among its digits from the tenth place before the
    point to the second one behind it. -/
theorem firstPower_of_mem {m : ℕ} {e : ℤ} {x : ℚ} (hm : 0 < m) (hread : x ∈ readingSet m e)
    (hlow : 1 / 100 ≤ x) (hhigh : x ≤ 10 ^ 14) : -1 ≤ firstPower m e ∧ firstPower m e ≤ 15 := by
  obtain ⟨hbelow, habove⟩ := near_of_mem_readingSet hm hread
  have hpow : (0 : ℚ) < 2 ^ e := by positivity
  have hone : (1 : ℚ) * 2 ^ e ≤ m * 2 ^ e := by
    have hm' : (1 : ℚ) ≤ m := by exact_mod_cast hm
    gcongr
  rw [sub_mul] at hbelow
  rw [add_mul] at habove
  exact firstPower_mem (by linarith) (by linarith)

/-- Digits of at most two places spell cents, and tenths if the last place is not needed. -/
theorem exists_cents_of_digits (j : ℕ) {p : ℤ} (hp : -2 ≤ p) :
    ∃ n : ℕ, (j : ℚ) * 10 ^ p = n / 100 ∧ (-1 ≤ p → 10 ∣ n) ∧ (p = -2 → n = j) := by
  obtain ⟨k, hk⟩ := Int.eq_ofNat_of_zero_le (show 0 ≤ p + 2 by omega)
  obtain rfl : p = k - 2 := by omega
  refine ⟨j * 10 ^ k, ?_, ?_, ?_⟩
  · rw [zpow_sub₀ (by norm_num), zpow_natCast]
    push_cast
    ring
  · intro h
    exact Dvd.dvd.mul_left (dvd_pow_self 10 (by omega)) j
  · intro h
    obtain rfl : k = 0 := by omega
    rw [pow_zero, Nat.mul_one]

/-! ### Less than a cent apart -/

section close

variable {k m : ℕ} {e : ℤ}

/-- Below the limit two neighbours are less than a cent apart. -/
theorem exponent_le_of_lt_limit (hk : k < Cents.limit) (hm : 2 ^ 52 ≤ m)
    (hread : (k : ℚ) / 100 ∈ readingSet m e) : e ≤ -7 := by
  by_contra hlarge
  obtain ⟨hbelow, -⟩ := near_of_mem_readingSet (by omega) hread
  have hpow : (2 : ℚ) ^ (-6 : ℤ) ≤ 2 ^ e := zpow_le_zpow_right₀ one_le_two (by omega)
  have hm' : (2 : ℚ) ^ 52 ≤ m := by exact_mod_cast hm
  have hk' : (k : ℚ) + 1 ≤ 100 * 2 ^ 46 := by exact_mod_cast Nat.succ_le_of_lt hk
  have hhalf : (0 : ℚ) ≤ m - 1 / 2 := by linarith
  have hmono : ((2 : ℚ) ^ 52 - 1 / 2) * 2 ^ (-6 : ℤ) ≤ (m - 1 / 2) * 2 ^ e := by gcongr
  norm_num at hmono
  linarith

/-- So no other amount of cents has the same number. -/
theorem eq_of_mem_readingSet {j : ℕ} (hk : k < Cents.limit) (hm : 2 ^ 52 ≤ m)
    (hread : (k : ℚ) / 100 ∈ readingSet m e) (hj : (j : ℚ) / 100 ∈ readingSet m e) : j = k := by
  have he := exponent_le_of_lt_limit hk hm hread
  obtain ⟨hbelow, habove⟩ := near_of_mem_readingSet (by omega) hread
  obtain ⟨hbelow', habove'⟩ := near_of_mem_readingSet (by omega) hj
  have hpow : (2 : ℚ) ^ e ≤ 2 ^ (-7 : ℤ) := zpow_le_zpow_right₀ one_le_two he
  norm_num at hpow
  rw [sub_mul] at hbelow hbelow'
  rw [add_mul] at habove habove'
  have hless : (j : ℚ) < k + 1 := by linarith
  have hless' : (k : ℚ) < j + 1 := by linarith
  have hlt : j < k + 1 := by exact_mod_cast hless
  have hlt' : k < j + 1 := by exact_mod_cast hless'
  omega

theorem shortest_of_lt_limit (hpos : 0 < k) (hk : k < Cents.limit) (hm : 2 ^ 52 ≤ m)
    (hread : (k : ℚ) / 100 ∈ readingSet m e) :
    0 < (shortest m e).digits ∧ -2 ≤ (shortest m e).exponent ∧
      (shortest m e).value = k / 100 := by
  have hone : (1 : ℚ) ≤ k := by exact_mod_cast hpos
  have hk' : (k : ℚ) < 100 * 2 ^ 46 := by exact_mod_cast hk
  obtain ⟨hfirst, hfirst'⟩ := firstPower_of_mem (by omega) hread (by linarith) (by linarith)
  have hgrid : (k : ℚ) * 10 ^ (-2 : ℤ) ∈ readingSet m e := by
    rwa [show (k : ℚ) * 10 ^ (-2 : ℤ) = k / 100 by ring]
  obtain ⟨j, p, heq, hp, hnearest, -⟩ :=
    shortest_spec (by omega) hpos hgrid (by omega) (by omega)
  obtain ⟨n, hn, -, -⟩ := exists_cents_of_digits j hp
  have hmem := hnearest.mem
  rw [hn] at hmem
  rw [heq]
  refine ⟨hnearest.pos, hp, ?_⟩
  show (j : ℚ) * 10 ^ p = k / 100
  rw [hn, eq_of_mem_readingSet hk hm hread hmem]

end close

/-! ### Sixty-fourths -/

section sixtyFourths

variable {m : ℕ}

/-- Among sixty-fourths, an amount is read as the number if it is within half a unit of it. Half
    units are no cents, so it does not matter whether they count. -/
theorem mem_readingSet_cents (hm : 0 < m) (j : ℕ) :
    (j : ℚ) / 100 ∈ readingSet m (-6) ↔ IsReadAs m j := by
  have hscaled : 4 * ((j : ℚ) / 100 / 2 ^ (-6 : ℤ)) = 64 * j / 25 := by
    norm_num
    ring
  have hle (n : ℕ) : (n : ℚ) ≤ 64 * j / 25 ↔ 25 * n ≤ 64 * j := by
    rw [le_div_iff₀ (by norm_num), ← Nat.cast_le (α := ℚ)]
    push_cast
    rw [mul_comm]
  have hge (n : ℕ) : 64 * j / 25 ≤ (n : ℚ) ↔ 64 * j ≤ 25 * n := by
    rw [div_le_iff₀ (by norm_num), ← Nat.cast_le (α := ℚ)]
    push_cast
    rw [mul_comm (25 : ℚ)]
  have hlt (n : ℕ) : (n : ℚ) < 64 * j / 25 ↔ 25 * n < 64 * j := by
    rw [lt_div_iff₀ (by norm_num), ← Nat.cast_lt (α := ℚ)]
    push_cast
    rw [mul_comm]
  have hgt (n : ℕ) : 64 * j / 25 < (n : ℚ) ↔ 64 * j < 25 * n := by
    rw [div_lt_iff₀ (by norm_num), ← Nat.cast_lt (α := ℚ)]
    push_cast
    rw [mul_comm (25 : ℚ)]
  have hupper : (4 * m + 2 : ℚ) = (4 * m + 2 : ℕ) := by
    push_cast
    rfl
  rw [mem_readingSet_iff, hscaled, hupper, hle, hge, hlt, hgt, lower_readingInterval]
  unfold IsReadAs
  split
  · next h =>
    obtain ⟨rfl, -⟩ := h
    omega
  · omega

/-- Distances from the number, in parts of a sixteen-hundredth. -/
theorem abs_cents_sub (m i : ℕ) : |(i : ℚ) * 10 ^ (-2 : ℤ) - m * 2 ^ (-6 : ℤ)| =
    ((16 * i - 25 * m : ℤ).natAbs : ℚ) / 1600 := by
  have hratio : (i : ℚ) * 10 ^ (-2 : ℤ) - m * 2 ^ (-6 : ℤ) =
      ((16 * i - 25 * m : ℤ) : ℚ) / 1600 := by
    push_cast
    norm_num
    ring
  rw [hratio, abs_div, Nat.cast_natAbs, ← Int.cast_abs, abs_of_pos (by norm_num : (0 : ℚ) < 1600)]

/-- What sixty-fourths are written as. -/
theorem shortest_sixtyFourths (hm : 2 ^ 52 ≤ m) (hm' : m < 2 ^ 53) :
    0 < (shortest m (-6)).digits ∧ -2 ≤ (shortest m (-6)).exponent ∧
      (shortest m (-6)).value = shown m / 100 := by
  have hmpos : 0 < m := by omega
  have hread := Cents.isReadAs_shown m
  have hpos : ∀ i, IsReadAs m i → 0 < i := by
    intro i hi
    unfold IsReadAs at hi
    omega
  have hcents (i : ℕ) : (i : ℚ) * 10 ^ (-2 : ℤ) = i / 100 := by ring
  have htenths (t : ℕ) : (t : ℚ) * 10 ^ (-1 : ℤ) = (10 * t : ℕ) / 100 := by
    push_cast
    ring
  have hself : (m : ℚ) * 2 ^ (-6 : ℤ) ∈ readingSet m (-6) := self_mem_readingSet hmpos (-6)
  have hlarge : (4503599627370496 : ℚ) ≤ m := by exact_mod_cast hm
  have hsmall : (m : ℚ) ≤ 9007199254740992 := by exact_mod_cast hm'.le
  have hunit : (2 : ℚ) ^ (-6 : ℤ) = 1 / 64 := by norm_num
  obtain ⟨hfirst, hfirst'⟩ := firstPower_mem (m := m) (e := -6) (by rw [hunit]; linarith)
    (by rw [hunit]; linarith)
  have hgrid : (shown m : ℚ) * 10 ^ (-2 : ℤ) ∈ readingSet m (-6) := by
    rw [hcents]
    exact (mem_readingSet_cents hmpos _).mpr hread
  obtain ⟨j, p, heq, hp, hnearest, hcoarse⟩ :=
    shortest_spec hmpos (hpos _ hread) hgrid (by omega) (by omega)
  obtain ⟨n, hn, hten, hlast⟩ := exists_cents_of_digits j hp
  have hnread : IsReadAs m n := by
    rw [← mem_readingSet_cents hmpos, ← hn]
    exact hnearest.mem
  rw [heq]
  refine ⟨hnearest.pos, hp, ?_⟩
  show (j : ℚ) * 10 ^ p = shown m / 100
  rw [hn]
  congr 2
  apply Cents.eq_shown hnread
  by_cases hcase : -1 ≤ p
  · exact .inl (hten hcase)
  · -- No tenths are read as the number, and the digits are the nearest cents.
    obtain rfl : p = -2 := by omega
    obtain rfl := hlast rfl
    refine .inr ⟨?_, ?_⟩
    · intro t ht
      have htpos : 0 < t := by
        have := hpos _ ht
        omega
      apply hcoarse (-1) (by norm_num) hfirst t htpos
      rw [htenths]
      exact (mem_readingSet_cents hmpos _).mpr ht
    · intro i hi
      have hmem : (i : ℚ) * 10 ^ (-2 : ℤ) ∈ readingSet m (-6) := by
        rw [hcents]
        exact (mem_readingSet_cents hmpos i).mpr hi
      have hle := hnearest.nearest i (hpos i hi) hmem
      rw [abs_cents_sub, abs_cents_sub, div_le_div_iff_of_pos_right (by norm_num), Nat.cast_le,
        div_left_inj' (by norm_num), Nat.cast_inj] at hle
      exact hle

/-- From the limit on, an amount is read as sixty-fourths. -/
theorem div_hundred_of_limit_le {k : ℕ} (hk : Cents.limit ≤ k) (hk' : k < 10 ^ 16) :
    (ofNat k).div (Json.Number.powerOfTen 2) = .finite false (sixtyFourths k) (-6) ∧
      2 ^ 52 ≤ sixtyFourths k ∧ sixtyFourths k < 2 ^ 53 := by
  have hlimit : Cents.limit = 7036874417766400 := rfl
  obtain ⟨num, den, hdiv, hnum, hden, hratio⟩ := div_hundred (k := k) (by omega) (by omega)
  have hle : ofNatValue k ≤ 10 ^ 16 := by
    have hnear := Cents.ofNatValue_near k
    omega
  have hge : 7036874417766400 ≤ ofNatValue k := Cents.limit_le_ofNatValue hk
  have hle' : (ofNatValue k : ℚ) ≤ 10 ^ 16 := by exact_mod_cast hle
  have hge' : (7036874417766400 : ℚ) ≤ ofNatValue k := by exact_mod_cast hge
  have hlow : (2 : ℚ) ^ (46 : ℤ) ≤ num / den := by
    rw [hratio]
    norm_num
    linarith
  have hhigh : (num : ℚ) / den < 2 ^ (47 : ℤ) := by
    rw [hratio]
    norm_num
    linarith
  obtain ⟨m, e, -, -, hexponent, hexponent', hrounded, heq⟩ := ofRatio_rounds false hnum hden
    ((zpow_le_zpow_right₀ one_le_two (by norm_num)).trans hlow)
    (hhigh.trans (zpow_lt_zpow_right₀ one_lt_two (by norm_num)))
  -- Between these bounds the unit is a sixty-fourth.
  have he : e = -6 := by
    have hlt := (zpow_lt_zpow_iff_right₀ (one_lt_two (α := ℚ))).mp (hexponent.trans_lt hhigh)
    have hlt' := (zpow_lt_zpow_iff_right₀ (one_lt_two (α := ℚ))).mp (hlow.trans_lt hexponent')
    omega
  subst he
  have hscaled : (num : ℚ) / den / 2 ^ (-6 : ℤ) = (16 * ofNatValue k : ℕ) / (25 : ℕ) := by
    rw [hratio]
    push_cast
    norm_num
    ring
  rw [hscaled, isRounded_div_iff (by norm_num)] at hrounded
  obtain rfl : m = sixtyFourths k := by
    unfold sixtyFourths
    omega
  have hbounds : 2 ^ 52 ≤ sixtyFourths k ∧ sixtyFourths k < 2 ^ 53 := by
    unfold sixtyFourths
    omega
  rw [if_neg (by omega)] at heq
  exact ⟨hdiv.trans heq, hbounds⟩

end sixtyFourths

end Binary64

namespace Json

namespace Number

open Text (digits paddedDigits digitsValue digitValue)

/-! ## The amount of a number -/

/-- So many cents, written in points with two places. -/
def ofCents (k : ℕ) : Number := ⟨false, digits (k / 100), paddedDigits 2 (k % 100), none⟩

/-- Digits that fit are all gathered. -/
theorem gather_eq {cs : List Char} {n : ℕ} (h : Nat.ofDigitChars 10 cs n < 2 ^ 64) :
    gather n cs = (Nat.ofDigitChars 10 cs n, []) := by
  induction cs generalizing n with
  | nil => rfl
  | cons c cs ih =>
    rw [Text.ofDigitChars_cons] at h ⊢
    have hfirst := (Text.le_ofDigitChars cs _).trans_lt h
    rw [gather, Nat.pow_eq, if_pos hfirst, ih h]

/-- An amount becomes the quotient of its cents by a hundred. -/
theorem toFloat?_ofCents {k : ℕ} (hk : k < 10 ^ 16) :
    (ofCents k).toFloat? = some ((Binary64.ofNat k).div (powerOfTen 2)) := by
  have hwhole : Nat.ofDigitChars 10 (digits (k / 100)) 0 = k / 100 := Text.digitsValue_digits _
  have hlength : (paddedDigits 2 (k % 100)).length = 2 :=
    Text.length_paddedDigits (by norm_num) (by omega)
  have hall : Nat.ofDigitChars 10 (paddedDigits 2 (k % 100)) (k / 100) = k := by
    rw [Nat.ofDigitChars_eq_ofDigitChars_zero, hlength]
    have hplaces : Nat.ofDigitChars 10 (paddedDigits 2 (k % 100)) 0 = k % 100 :=
      Text.digitsValue_paddedDigits 2 _
    rw [hplaces]
    omega
  have hgather : gather 0 (digits (k / 100)) = (k / 100, []) := by
    rw [gather_eq (by omega), hwhole]
  have hgather' : gather (k / 100) (paddedDigits 2 (k % 100)) = (k, []) := by
    rw [gather_eq (by omega), hall]
  unfold toFloat? ofCents
  simp only [hgather, hgather', hlength, List.length_nil]
  have hscale : scale? k (-2) = some ((Binary64.ofNat k).div (powerOfTen 2)) := by
    rw [scale?, if_pos (by norm_num)]
    show some (dividePower (Binary64.ofNat k) 2) = _
    rw [dividePower, if_pos (by norm_num)]
  show (scale? k (-2)).map _ = _
  rw [hscale]
  rfl

/-- It is read as a floating-point number, since it has places. -/
theorem toDecimal?_eq {n : Number} {x : Binary64} (hplaces : n.places ≠ [])
    (hfloat : n.toFloat? = some x) : n.toDecimal? = Decimal.ofPlain? x.toChars := by
  have hread : n.read? = some (.float x) := by
    unfold read?
    split
    · next h _ _ => exact absurd h hplaces
    · rw [hfloat]
      rfl
  rw [toDecimal?, hread]
  rfl

end Number

end Json

namespace Binary64

/-- A number whose shortest digits spell cents is read as the amount. -/
theorem ofPlain?_toChars_of_cents {m n : ℕ} {e : ℤ} (hm : 0 < m) (hn : n < Decimal.bound)
    (hdigits : 0 < (shortest m e).digits) (hexponent : -2 ≤ (shortest m e).exponent)
    (hvalue : (shortest m e).value = n / 100) :
    ∃ a, Decimal.ofPlain? (toChars (.finite false m e)) = some a ∧ a.value = n / 100 ∧
      a.scale ≤ 2 := by
  obtain ⟨hdigits', hexponent', hvalue'⟩ := Digits.strip_spec 400 (shortest m e) hdigits
  have hchars : toChars (.finite false m e) = ((shortest m e).strip 400).positional := by
    show [] ++ (if m = 0 then ['0'] else _) = _
    rw [if_neg hm.ne', List.nil_append]
  rw [hchars]
  rw [hvalue] at hvalue'
  generalize (shortest m e).strip 400 = d at *
  -- The digits spell no more than the cents.
  have hfew : d.digits * 10 ^ d.exponent.toNat ≤ n := by
    have hcents : (d.digits : ℚ) * 10 ^ (d.exponent + 2) = n := by
      rw [zpow_add₀ (by norm_num), ← mul_assoc, ← Digits.value, hvalue']
      norm_num
    have hpower : (10 : ℚ) ^ d.exponent.toNat ≤ 10 ^ (d.exponent + 2) := by
      rw [← zpow_natCast]
      exact zpow_le_zpow_right₀ (by norm_num) (by omega)
    rw [← Nat.cast_le (α := ℚ), ← hcents]
    push_cast
    gcongr
  obtain ⟨a, ha, hnumber, hscale⟩ :=
    d.ofPlain?_positional (by omega) (hfew.trans_lt hn)
  exact ⟨a, ha, hnumber.trans hvalue', by omega⟩

end Binary64

namespace Json.Number

/-- What comes out for an amount of cents. -/
theorem toDecimal?_ofCents {k : ℕ} (hk : k < 10 ^ 16) :
    ∃ a, (ofCents k).toDecimal? = some a ∧ a.value = Cents.carried k / 100 ∧ a.scale ≤ 2 := by
  rw [toDecimal?_eq (Text.paddedDigits_ne_nil 2 _) (toFloat?_ofCents hk)]
  have hlimit : Cents.limit = 7036874417766400 := rfl
  have hbound : Decimal.bound = 79228162514264337593543950336 := rfl
  have hnear := Cents.carried_near k
  have hfits : Cents.carried k < Decimal.bound := by omega
  by_cases hzero : k = 0
  · subst hzero
    have hread : Decimal.ofPlain? ((Binary64.ofNat 0).div (powerOfTen 2)).toChars = some .zero := by
      decide +kernel
    refine ⟨.zero, hread, ?_, Nat.zero_le 2⟩
    rw [Decimal.value_zero, Cents.carried_of_lt (by omega)]
    norm_num
  have hpos : 0 < k := Nat.pos_of_ne_zero hzero
  by_cases hless : k < Cents.limit
  · -- No other amount of cents is read as the quotient.
    have hexact : Binary64.ofNatValue k = k := if_pos (by omega)
    obtain ⟨num, den, hdiv, hnum, hden, hratio⟩ := Binary64.div_hundred hpos (k := k) (by omega)
    rw [hexact] at hratio
    have hone : (1 : ℚ) ≤ k := by exact_mod_cast hpos
    have hmany : (k : ℚ) < 7036874417766400 := by exact_mod_cast hless
    have htiny : (2 : ℚ) ^ (-1000 : ℤ) ≤ num / den := by
      have hpower : (2 : ℚ) ^ (-1000 : ℤ) ≤ 2 ^ (-7 : ℤ) :=
        zpow_le_zpow_right₀ one_le_two (by norm_num)
      rw [hratio]
      refine hpower.trans ?_
      norm_num
      linarith
    have hhuge : (num : ℚ) / den < 2 ^ (1000 : ℤ) := by
      have hpower : (2 : ℚ) ^ (47 : ℤ) ≤ 2 ^ (1000 : ℤ) :=
        zpow_le_zpow_right₀ one_le_two (by norm_num)
      rw [hratio]
      refine lt_of_lt_of_le ?_ hpower
      norm_num
      linarith
    obtain ⟨m, e, heq, hm, -, -, hread⟩ := Binary64.ofRatio_reads false hnum hden htiny hhuge
    rw [hratio] at hread
    obtain ⟨hdigits, hexponent, hvalue⟩ := Binary64.shortest_of_lt_limit hpos hless hm hread
    rw [hdiv, heq, Cents.carried_of_lt hless]
    exact Binary64.ofPlain?_toChars_of_cents (by omega) (by omega) hdigits hexponent hvalue
  · obtain ⟨hdiv, hm, hm'⟩ := Binary64.div_hundred_of_limit_le (not_lt.mp hless) hk
    obtain ⟨hdigits, hexponent, hvalue⟩ := Binary64.shortest_sixtyFourths hm hm'
    have hcarried : Cents.carried k = Cents.shown (Cents.sixtyFourths k) := if_neg hless
    rw [hcarried] at hfits ⊢
    rw [hdiv]
    exact Binary64.ofPlain?_toChars_of_cents (by omega) hfits hdigits hexponent hvalue

end Json.Number

end LoyaltyPoints
