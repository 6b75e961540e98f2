import LoyaltyPoints.Decimal.Basic

/-! # Decimals: rounding to fewer places

    Two rules are in use. Amounts for the ledger are rounded half away from zero; sums that do not
    fit a coefficient are rounded half to even. -/

namespace LoyaltyPoints.Decimal

/-- The quotient nearest to `n / d`, a half going to the even neighbour (`d` positive). -/
def divHalfEven (n d : Nat) : Nat :=
  let q := n / d
  let r := n % d
  if 2 * r > d then q + 1
  else if 2 * r = d then q + q % 2
  else q

/-- The quotient nearest to `n / d`, a half going up (`d` positive). -/
def divHalfUp (n d : Nat) : Nat :=
  let q := n / d
  if 2 * (n % d) ≥ d then q + 1 else q

/-- The integer with the sign of `n` and this magnitude. -/
def withSignOf (n : Int) (magnitude : Nat) : Int :=
  if n < 0 then -Int.ofNat magnitude else Int.ofNat magnitude

/-- `n / 10 ^ k` to the nearest integer, a half to the even one. -/
def shiftHalfEven (n : Int) (k : Nat) : Int :=
  withSignOf n (divHalfEven n.natAbs (Nat.pow 10 k))

/-- `n / 10 ^ k` to the nearest integer, a half away from zero. -/
def shiftHalfAway (n : Int) (k : Nat) : Int :=
  withSignOf n (divHalfUp n.natAbs (Nat.pow 10 k))

theorem natAbs_withSignOf (n : Int) (m : Nat) : (withSignOf n m).natAbs = m := by
  unfold withSignOf; split <;> simp

theorem divHalfUp_le_self {n d : Nat} (h : 2 ≤ d) : divHalfUp n d ≤ n := by
  unfold divHalfUp
  have hq : n / d * d + n % d = n := by
    rw [Nat.mul_comm]; exact Nat.div_add_mod n d
  have hm : n / d * 2 ≤ n / d * d := Nat.mul_le_mul_left _ h
  simp only
  split <;> omega

/-- The number rounded to `places` places, a half away from zero. A decimal that has no more places
    than that stays as it is. -/
def roundTo (a : Decimal) (places : Nat) : Decimal :=
  if h : a.scale ≤ places then a
  else
    ⟨shiftHalfAway a.coefficient (a.scale - places), places, by
      have hd : 2 ≤ Nat.pow 10 (a.scale - places) :=
        Nat.le_trans (by decide) (Nat.pow_le_pow_right (by decide : 0 < 10) (by omega : 1 ≤ _))
      have := divHalfUp_le_self (n := a.coefficient.natAbs) hd
      have hb := a.coefficient_lt
      rw [shiftHalfAway, natAbs_withSignOf]
      omega, by have := a.scale_le; omega⟩

/-- The exact number `n / 10 ^ scale` as a decimal: with all its places if its digits fit, else
    rounded half to even to the most places at which they do. Without places it may still not
    fit. -/
def fit? (n : Int) (scale : Nat) : Option Decimal :=
  (List.range (scale + 1)).findSome? fun k => ofParts? (shiftHalfEven n k) (scale - k)

/-- How many zeros the digits end in, at most `limit`. -/
def trailingZeros : (limit : Nat) → (n : Nat) → Nat
  | 0, _ => 0
  | limit + 1, n => if n % 10 = 0 then trailingZeros limit (n / 10) + 1 else 0

/-- The fewest places that still write the number exactly. -/
def neededScale (a : Decimal) : Nat :=
  if a.coefficient = 0 then 0 else a.scale - trailingZeros a.scale a.coefficient.natAbs

end LoyaltyPoints.Decimal
