import LoyaltyPoints.Database.Numeric
import LoyaltyPoints.Proofs.Decimal.Rounding
import LoyaltyPoints.Proofs.Decimal.Sum

/-! # Database: amounts are read exactly

    A number of the database is read by adding up its digits in base ten thousand, the highest one
    first, and giving the sum the places it was written with. For numbers of whole cents each of
    these sums is one of whole cents, so none of them is rounded as long as all digits fit. -/

namespace LoyaltyPoints

namespace Decimal

theorem divHalfUp_mul (q : ℕ) {d : ℕ} (hd : 0 < d) : divHalfUp (q * d) d = q := by
  simp only [divHalfUp, Nat.mul_div_cancel q hd, Nat.mul_mod_left]
  rw [if_neg (by omega)]

/-- Places that hold zeros only are rounded away without a change of the number. -/
theorem shiftHalfAway_mul_pow (c : ℤ) (k : ℕ) : shiftHalfAway (c * 10 ^ k) k = c := by
  rw [shiftHalfAway, natAbs_mul_pow, Nat.pow_eq, divHalfUp_mul _ (by positivity),
    withSignOf_mul_pow]

/-- A number of whole cents is rounded to cents without a change. -/
theorem value_roundTo_of_isCents {a : Decimal} (h : IsCents a.value) :
    (a.roundTo moneyScale).value = a.value := by
  unfold roundTo
  split
  · rfl
  · next hscale =>
    obtain ⟨k, hk⟩ := h
    have hpow := pow_mul_pow_sub (10 : ℚ) (not_le.mp hscale).le
    have hcoeff : a.coefficient = k * 10 ^ (a.scale - moneyScale) := by
      have hval := a.value_mul_pow
      rw [hk, ← hpow] at hval
      have hcast : ((k * 10 ^ (a.scale - moneyScale) : ℤ) : ℚ) = a.coefficient := by
        rw [← hval]
        push_cast [moneyScale]
        ring
      exact_mod_cast hcast.symm
    show ((shiftHalfAway a.coefficient (a.scale - moneyScale) : ℤ) : ℚ) / 10 ^ moneyScale = a.value
    rw [hcoeff, shiftHalfAway_mul_pow, hk, moneyScale]
    norm_num

theorem value_of_ofParts? {n : ℤ} {scale : ℕ} {d : Decimal} (h : ofParts? n scale = some d) :
    d.value = n / 10 ^ scale := by
  obtain ⟨hcoeff, hscale⟩ := ofParts?_eq_some h
  rw [value, hcoeff, hscale]

end Decimal

namespace Database.Numeric

/-! ## Digits in base ten thousand -/

/-- What a digit and its power stand for. -/
def weight (g : ℕ × ℤ) : ℚ := g.1 * 10000 ^ g.2

/-- The lowest digits of a number that has no others add up to it. -/
theorem sum_lowGroups {count n : ℕ} (h : n < 10000 ^ count) (k : ℕ) :
    (((lowGroups count n).zipIdx k).map fun g => (g.1 : ℚ) * 10000 ^ g.2).sum =
      n * 10000 ^ k := by
  induction count generalizing n k with
  | zero =>
    obtain rfl : n = 0 := by simpa using h
    simp [lowGroups]
  | succ count ih =>
    have hdiv : n / 10000 < 10000 ^ count := by
      rw [Nat.div_lt_iff_lt_mul (by norm_num)]
      rwa [pow_succ] at h
    have hn : (n : ℚ) = 10000 * ((n / 10000 : ℕ) : ℚ) + ((n % 10000 : ℕ) : ℚ) := by
      exact_mod_cast (Nat.div_add_mod n 10000).symm
    rw [lowGroups, List.zipIdx_cons, List.map_cons, List.sum_cons, ih hdiv, pow_succ]
    rw [hn]
    ring

theorem mem_lowGroups {count n d : ℕ} (h : d ∈ lowGroups count n) : d < 10000 := by
  induction count generalizing n with
  | zero => cases h
  | succ count ih =>
    rcases List.mem_cons.mp h with rfl | h
    · exact Nat.mod_lt n (by norm_num)
    · exact ih h

theorem length_lowGroups (count n : ℕ) : (lowGroups count n).length = count := by
  induction count generalizing n with
  | zero => rfl
  | succ count ih => rw [lowGroups, List.length_cons, ih]

/-- Zeros that are left out do not change a sum. -/
theorem sum_dropWhile {α : Type} {p : α → Bool} {f : α → ℚ} (h : ∀ x, p x = true → f x = 0)
    (xs : List α) : ((xs.dropWhile p).map f).sum = (xs.map f).sum := by
  induction xs with
  | nil => rfl
  | cons x xs ih =>
    rw [List.dropWhile_cons]
    split
    · next hx => rw [ih, List.map_cons, List.sum_cons, h x hx, zero_add]
    · rfl

theorem weight_eq_zero {g : ℕ × ℤ} (h : (g.1 == 0) = true) : weight g = 0 := by
  rw [weight, beq_iff_eq.mp h, Nat.cast_zero, zero_mul]

/-- The digits of a number of cents. The lowest one stands for ten-thousandths. -/
theorem groups_two (c : ℕ) : ∃ count, c * 100 < 10000 ^ count ∧ (c < 10 ^ 16 → count ≤ 5) ∧
    groups c 2 = ((((lowGroups count (c * 100)).zipIdx.map
      fun x => (x.1, (x.2 : ℤ) - 1)).dropWhile (·.1 == 0)).reverse).dropWhile (·.1 == 0) := by
  refine ⟨((Text.digits (c * 100)).length + 3) / 4, ?_, ?_, rfl⟩
  · have hlength : c * 100 < 10 ^ (Text.digits (c * 100)).length :=
      (Nat.length_toDigits_le_iff (by norm_num) Nat.length_toDigits_pos).mp le_rfl
    refine hlength.trans_le ?_
    rw [show 10000 = 10 ^ 4 from rfl, ← pow_mul]
    exact Nat.pow_le_pow_right (by norm_num) (by omega)
  · intro hc
    have hlength : (Text.digits (c * 100)).length ≤ 18 :=
      (Nat.length_toDigits_le_iff (by norm_num) (by norm_num)).mpr (by omega)
    omega

/-- The digits of a number of cents add up to it. -/
theorem sum_groups (c : ℕ) : ((groups c 2).map weight).sum = c / 100 := by
  obtain ⟨count, hcount, -, hgroups⟩ := groups_two c
  have hweight : weight ∘ (fun x : ℕ × ℕ => (x.1, (x.2 : ℤ) - 1)) =
      fun x => (x.1 : ℚ) * 10000 ^ x.2 * (1 / 10000) := by
    funext x
    simp only [Function.comp_apply, weight]
    rw [zpow_sub_one₀ (by norm_num), zpow_natCast]
    ring
  have hsum := sum_lowGroups hcount 0
  rw [hgroups, sum_dropWhile (fun _ => weight_eq_zero), List.map_reverse, List.sum_reverse,
    sum_dropWhile (fun _ => weight_eq_zero), List.map_map, hweight, List.sum_map_mul_right, hsum]
  push_cast
  ring

/-- The digits of an amount with sixteen places: none of them is beyond the fourth power, and the
    one behind the point is one of hundreds. -/
theorem mem_groups {c : ℕ} (hc : c < 10 ^ 16) {g : ℕ × ℤ} (hg : g ∈ groups c 2) :
    g.1 < 10000 ∧ -1 ≤ g.2 ∧ g.2 ≤ 3 ∧ (g.2 = -1 → 100 ∣ g.1) := by
  obtain ⟨count, -, hcount, hgroups⟩ := groups_two c
  have hcount := hcount hc
  rw [hgroups] at hg
  have hg := List.mem_reverse.mp ((List.dropWhile_sublist _).mem hg)
  obtain ⟨⟨d, i⟩, hmem, rfl⟩ := List.mem_map.mp ((List.dropWhile_sublist _).mem hg)
  obtain ⟨-, hi, hd⟩ := List.mem_zipIdx hmem
  rw [length_lowGroups, Nat.zero_add] at hi
  have hlt : d < 10000 := hd ▸ mem_lowGroups (List.getElem_mem _)
  dsimp only
  refine ⟨hlt, by omega, by omega, ?_⟩
  intro hlast
  obtain rfl : i = 0 := by omega
  obtain ⟨count, rfl⟩ := Nat.exists_eq_succ_of_ne_zero (Nat.pos_iff_ne_zero.mp hi)
  have hlow : d = c * 100 % 10000 := by
    rw [hd]
    rfl
  omega

/-- A digit within these bounds is read as what it stands for, which is a number of cents. -/
theorem groupValue?_eq {g : ℕ × ℤ} (hlt : g.1 < 10000) (hlow : -1 ≤ g.2) (hhigh : g.2 ≤ 3)
    (hcents : g.2 = -1 → 100 ∣ g.1) :
    ∃ v, groupValue? g = some v ∧ v.value = weight g ∧ IsCents v.value ∧ 0 ≤ v.value := by
  obtain ⟨d, p⟩ := g
  dsimp only at hlt hlow hhigh hcents
  unfold groupValue? weight
  dsimp only
  rcases hlow.lt_or_eq with hp | rfl
  · obtain ⟨k, rfl⟩ := Int.eq_ofNat_of_zero_le (show 0 ≤ p by omega)
    have hk : k ≤ 3 := by omega
    have hpow : 10 ^ (4 * k) ≤ 10 ^ 12 := Nat.pow_le_pow_right (by norm_num) (by omega)
    have hfit : ((d : ℤ) * (Nat.pow 10 (4 * k) : ℕ)).natAbs < Decimal.bound := by
      rw [Int.natAbs_mul, Int.natAbs_natCast, Int.natAbs_natCast, Nat.pow_eq]
      calc d * 10 ^ (4 * k) ≤ 10000 * 10 ^ 12 := Nat.mul_le_mul hlt.le hpow
        _ < Decimal.bound := by norm_num [Decimal.bound]
    rw [if_pos (by omega), if_pos (by omega), Int.toNat_natCast]
    refine ⟨⟨_, 0, hfit, by norm_num⟩, dif_pos ⟨hfit, by norm_num⟩, ?_, ?_, ?_⟩
    · simp only [Decimal.value, Nat.pow_eq, pow_mul, pow_zero, div_one, zpow_natCast]
      push_cast
      norm_num
    · exact IsCents.of_div_pow _ (by norm_num)
    · exact Decimal.value_nonneg_iff.mpr (by positivity)
  · have hfit : (d : ℤ).natAbs < Decimal.bound := by
      rw [Int.natAbs_natCast]
      exact hlt.trans (by norm_num [Decimal.bound])
    rw [if_neg (by norm_num)]
    refine ⟨⟨d, 4, hfit, by norm_num⟩, dif_pos ⟨hfit, by norm_num⟩, ?_, ?_, ?_⟩
    · simp only [Decimal.value]
      norm_num
      ring
    · obtain ⟨m, rfl⟩ := hcents rfl
      exact ⟨m, by simp only [Decimal.value]; push_cast; ring⟩
    · exact Decimal.value_nonneg_iff.mpr (by positivity)

/-! ## Reading an amount -/

/-- Digits that stand for cents are added up exactly while the sums are small. -/
theorem foldlM_add? (acc : Decimal) {gs : List (ℕ × ℤ)}
    (hgs : ∀ g ∈ gs, ∃ v, groupValue? g = some v ∧ v.value = weight g ∧ IsCents v.value ∧
      0 ≤ v.value) (hcents : IsCents acc.value) (hnonneg : 0 ≤ acc.value)
    (hsum : acc.value + (gs.map weight).sum < 10 ^ 14) :
    ∃ d, gs.foldlM (fun acc g => (groupValue? g).bind fun v => Decimal.add? acc v) acc = some d ∧
      d.value = acc.value + (gs.map weight).sum := by
  induction gs generalizing acc with
  | nil => exact ⟨acc, rfl, by simp⟩
  | cons g gs ih =>
    rw [List.forall_mem_cons] at hgs
    obtain ⟨⟨v, hv, hweight, hvcents, hvnonneg⟩, hgs⟩ := hgs
    rw [List.map_cons, List.sum_cons, ← hweight, ← add_assoc] at hsum
    have hrest : 0 ≤ (gs.map weight).sum := by
      refine List.sum_nonneg ?_
      intro x hx
      obtain ⟨g', hg', rfl⟩ := List.mem_map.mp hx
      obtain ⟨v', -, hweight', -, hnonneg'⟩ := hgs g' hg'
      rw [← hweight']
      exact hnonneg'
    obtain ⟨k, hk⟩ := hcents.add hvcents
    have hbound : k.natAbs < Decimal.bound := by
      have hlow : (0 : ℚ) ≤ k := by linarith
      have hhigh : (k : ℚ) < 10 ^ 16 := by linarith
      have hlow : 0 ≤ k := by exact_mod_cast hlow
      have hhigh : k < 10 ^ 16 := by exact_mod_cast hhigh
      rw [Decimal.bound]
      omega
    obtain ⟨c, hc, hvalue⟩ := Decimal.add?_of_cents hk hbound
    obtain ⟨d, hd, hdvalue⟩ := ih c hgs (hvalue ▸ hcents.add hvcents)
      (hvalue ▸ add_nonneg hnonneg hvnonneg) (hvalue ▸ hsum)
    refine ⟨d, ?_, ?_⟩
    · rw [List.foldlM_cons, hv]
      show (Decimal.add? acc v >>= fun acc => _) = some d
      rw [hc]
      exact hd
    · rw [hdvalue, hvalue, List.map_cons, List.sum_cons, hweight]
      ring

theorem value_widen (places : ℕ) (d : Decimal) : (widen places d).value = d.value := by
  induction places generalizing d with
  | zero => rfl
  | succ places ih =>
    unfold widen
    split
    · next e he =>
      rw [ih, Decimal.value_of_ofParts? he, Decimal.value, pow_succ]
      push_cast
      field_simp
    · rfl

theorem value_withScale {d : Decimal} (h : IsCents d.value) : (withScale d 2).value = d.value := by
  unfold withScale
  split
  · exact value_widen _ _
  · exact Decimal.value_roundTo_of_isCents h

/-- Amounts of the database are read exactly. -/
theorem toDecimal_of_cents (negative : Bool) {c : ℕ} (hc : c < 10 ^ 16) :
    ∃ d, (number negative c 2).toDecimal = .ok d ∧
      d.value = (if negative then -(c : ℚ) else c) / 100 := by
  unfold toDecimal
  by_cases hzero : c = 0
  · refine ⟨.zero, by simp [hzero], ?_⟩
    rw [hzero, Decimal.value_zero]
    cases negative <;> simp
  · have hgs : ∀ g ∈ groups c 2, ∃ v, groupValue? g = some v ∧ v.value = weight g ∧
        IsCents v.value ∧ 0 ≤ v.value := by
      intro g hg
      obtain ⟨hlt, hlow, hhigh, hcents⟩ := mem_groups hc hg
      exact groupValue?_eq hlt hlow hhigh hcents
    have hsmall : (c : ℚ) < 10 ^ 16 := by exact_mod_cast hc
    have hbound : Decimal.zero.value + ((groups c 2).map weight).sum < 10 ^ 14 := by
      rw [Decimal.value_zero, sum_groups]
      linarith
    obtain ⟨d, hd, hvalue⟩ := foldlM_add? .zero hgs
      (by rw [Decimal.value_zero]; exact IsCents.zero) (by rw [Decimal.value_zero]) hbound
    rw [Decimal.value_zero, zero_add, sum_groups] at hvalue
    have hsigned : (if negative then -d else d).value =
        (if negative then -(c : ℚ) else c) / 100 := by
      cases negative
      · exact hvalue
      · rw [if_pos rfl, Decimal.value_neg, hvalue, if_pos rfl, neg_div]
    refine ⟨withScale (if negative then -d else d) 2, ?_, ?_⟩
    · simp only [hzero, if_false, hd]
    · have hcents : IsCents (if negative then -d else d).value := by
        rw [hsigned]
        refine ⟨if negative then -(c : ℤ) else c, ?_⟩
        cases negative <;> simp
      rw [value_withScale hcents, hsigned]

end Database.Numeric

end LoyaltyPoints
