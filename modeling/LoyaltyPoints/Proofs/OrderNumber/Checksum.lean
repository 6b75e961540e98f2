import Mathlib
import LoyaltyPoints.OrderNumber

/-! # Order numbers: the sum that is taken in 32 bits

    The checksum is the Luhn sum of the digits, taken in 32 bits. Every digit adds at most nine to
    it, so that the sum of up to 477218588 digits is the number itself; only longer texts can go
    round. An order number is described here without the loop that judges it. -/

namespace LoyaltyPoints

namespace OrderNumber

open Text (digitValue)

/-! ## The sum as a number -/

/-- The Luhn sum of digits listed from the right end, as a number of any size. -/
def luhnTotal (doubling : Bool) : List ℕ → ℕ
  | [] => 0
  | d :: ds => (if doubling then doubledValue d else d) + luhnTotal (!doubling) ds

/-- The Luhn sum of the digits of a text. -/
def total (number : String) : ℕ := luhnTotal false (number.toList.reverse.map digitValue)

/-- The most digits whose Luhn sum is certain to fit 32 bits. -/
def maxDigits : ℕ := 477218588

theorem doubledValue_le {d : ℕ} (h : d ≤ 9) : doubledValue d ≤ 9 := by
  unfold doubledValue
  split <;> omega

/-- A digit adds at most nine, doubled or not. -/
theorem luhnTotal_le (doubling : Bool) {ds : List ℕ} (h : ∀ d ∈ ds, d ≤ 9) :
    luhnTotal doubling ds ≤ 9 * ds.length := by
  induction ds generalizing doubling with
  | nil => exact Nat.le_refl 0
  | cons d ds ih =>
    obtain ⟨hd, hds⟩ := List.forall_mem_cons.mp h
    have hrest := ih (!doubling) hds
    have hfirst : (if doubling = true then doubledValue d else d) ≤ 9 := by
      split
      · exact doubledValue_le hd
      · exact hd
    rw [luhnTotal, List.length_cons]
    omega

/-- In 32 bits a sum is what remains of the number. -/
theorem toNat_luhnSum (doubling : Bool) (ds : List ℕ) :
    (luhnSum doubling ds).toNat = luhnTotal doubling ds % 2 ^ 32 := by
  induction ds generalizing doubling with
  | nil => rfl
  | cons d ds ih =>
    rw [luhnSum, luhnTotal, UInt32.toNat_add, UInt32.toNat_ofNat', ih, ← Nat.add_mod]

/-! ## Texts -/

theorem digitValue_le {c : Char} (h : c.isDigit = true) : digitValue c ≤ 9 := by
  have hrange := Char.isDigit_iff_toNat.mp h
  have hnine : '9'.toNat = '0'.toNat + 9 := rfl
  unfold digitValue
  omega

/-- A non-empty text of digits whose Luhn sum is a multiple of ten. The sum is taken in 32 bits. -/
structure IsGood (number : String) : Prop where
  nonempty : number ≠ ""
  isDigit : ∀ c ∈ number.toList, c.isDigit = true
  ten_dvd : 10 ∣ total number % 2 ^ 32

theorem isValid_iff (number : String) : isValid number = true ↔ IsGood number := by
  have hsum : (checksum number.toList % 10 == 0) = true ↔ 10 ∣ total number % 2 ^ 32 := by
    rw [beq_iff_eq, ← UInt32.toNat_inj, UInt32.toNat_mod, checksum, toNat_luhnSum]
    exact (Nat.dvd_iff_mod_eq_zero).symm
  unfold isValid
  simp only [Bool.and_eq_true, Bool.not_eq_true', List.isEmpty_eq_false_iff, ne_eq,
    String.toList_eq_nil_iff, List.all_eq_true, hsum]
  constructor
  · rintro ⟨⟨hne, hdigits⟩, hten⟩
    exact ⟨hne, hdigits, hten⟩
  · rintro ⟨hne, hdigits, hten⟩
    exact ⟨⟨hne, hdigits⟩, hten⟩

/-- Up to the limit on its length, a text is judged by the Luhn sum itself. -/
theorem isGood_iff_of_length_le {number : String} (hlength : number.length ≤ maxDigits) :
    IsGood number ↔ number ≠ "" ∧ (∀ c ∈ number.toList, c.isDigit = true) ∧ 10 ∣ total number := by
  have hmod (hdigits : ∀ c ∈ number.toList, c.isDigit = true) :
      total number % 2 ^ 32 = total number := by
    have hle : ∀ d ∈ number.toList.reverse.map digitValue, d ≤ 9 := by
      intro d hd
      obtain ⟨c, hc, rfl⟩ := List.mem_map.mp hd
      exact digitValue_le (hdigits c (List.mem_reverse.mp hc))
    have htotal := luhnTotal_le false hle
    rw [List.length_map, List.length_reverse, String.length_toList] at htotal
    unfold maxDigits at hlength
    unfold total
    apply Nat.mod_eq_of_lt
    omega
  constructor
  · rintro ⟨hne, hdigits, hten⟩
    exact ⟨hne, hdigits, hmod hdigits ▸ hten⟩
  · rintro ⟨hne, hdigits, hten⟩
    exact ⟨hne, hdigits, (hmod hdigits).symm ▸ hten⟩

end OrderNumber

end LoyaltyPoints
