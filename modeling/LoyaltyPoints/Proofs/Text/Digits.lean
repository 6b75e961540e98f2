import Mathlib
import LoyaltyPoints.Text.Digits

/-! # Text: digits and the numbers they spell

    Digits of a number spell that number, with zeros in front and without them, in base ten and in
    base sixteen. They are taken off the front of a text up to the first character that is none. -/

namespace LoyaltyPoints

namespace Text

/-! ## Base ten -/

theorem ofDigitChars_cons (c : Char) (cs : List Char) (n : ℕ) :
    Nat.ofDigitChars 10 (c :: cs) n = Nat.ofDigitChars 10 cs (10 * n + digitValue c) := by
  rw [Nat.ofDigitChars_cons, digitValue]

/-- More digits do not make a number smaller. -/
theorem le_ofDigitChars (cs : List Char) (n : ℕ) : n ≤ Nat.ofDigitChars 10 cs n := by
  rw [Nat.ofDigitChars_eq_ofDigitChars_zero]
  exact (Nat.le_mul_of_pos_left _ (by positivity)).trans (Nat.le_add_right _ _)

theorem digitsValue_append (cs ds : List Char) :
    digitsValue (cs ++ ds) = 10 ^ ds.length * digitsValue cs + digitsValue ds := by
  show Nat.ofDigitChars 10 (cs ++ ds) 0 = _
  rw [Nat.ofDigitChars_append, Nat.ofDigitChars_eq_ofDigitChars_zero]
  rfl

@[simp] theorem digitsValue_digits (n : ℕ) : digitsValue (digits n) = n :=
  Nat.ofDigitChars_ten_toDigits

@[simp] theorem digitsValue_replicate_zero (k : ℕ) : digitsValue (List.replicate k '0') = 0 :=
  Nat.ofDigitChars_replicate_zero

theorem isDigit_of_mem_digits {n : ℕ} {c : Char} (h : c ∈ digits n) : c.isDigit = true :=
  Nat.isDigit_of_mem_toDigits (by norm_num) le_rfl h

theorem digits_ne_nil (n : ℕ) : digits n ≠ [] := Nat.toDigits_ne_nil

@[simp] theorem digitsValue_paddedDigits (width n : ℕ) :
    digitsValue (paddedDigits width n) = n := by
  rw [paddedDigits, digitsValue_append, digitsValue_replicate_zero, digitsValue_digits, mul_zero,
    zero_add]

theorem isDigit_of_mem_paddedDigits {width n : ℕ} {c : Char} (h : c ∈ paddedDigits width n) :
    c.isDigit = true := by
  rcases List.mem_append.mp h with h | h
  · rw [List.eq_of_mem_replicate h]
    rfl
  · exact isDigit_of_mem_digits h

/-- A number that is small enough has exactly so many places. -/
theorem length_paddedDigits {width n : ℕ} (hwidth : 0 < width) (h : n < 10 ^ width) :
    (paddedDigits width n).length = width := by
  have hlength : (digits n).length ≤ width :=
    (Nat.length_toDigits_le_iff (by norm_num) hwidth).mpr h
  rw [paddedDigits, List.length_append, List.length_replicate, Nat.sub_add_cancel hlength]

theorem paddedDigits_ne_nil (width n : ℕ) : paddedDigits width n ≠ [] :=
  List.append_ne_nil_of_right_ne_nil _ (digits_ne_nil n)

/-- Digits end where another character stands. -/
theorem takeWhile_isDigit {ds rest : List Char} (hds : ∀ c ∈ ds, c.isDigit = true)
    (hrest : ∀ c ∈ rest.head?, c.isDigit = false) :
    (ds ++ rest).takeWhile Char.isDigit = ds ∧ (ds ++ rest).dropWhile Char.isDigit = rest := by
  rw [List.takeWhile_append_of_pos hds, List.dropWhile_append_of_pos hds]
  cases rest with
  | nil => simp
  | cons c rest => simp [hrest c rfl]

/-! ## Base sixteen -/

theorem hexNumber?_concat (cs : List Char) (c : Char) :
    hexNumber? (cs ++ [c]) = (hexNumber? cs).bind fun n => (hexValue? c).map (16 * n + ·) := by
  simp [hexNumber?]

theorem hexValue?_hexDigit {n : ℕ} (h : n < 16) : hexValue? (hexDigit false n) = some n := by
  have hall : ∀ n < 16, hexValue? (hexDigit false n) = some n := by decide
  exact hall n h

@[simp] theorem length_hexDigits (width n : ℕ) : (hexDigits width n).length = width := by
  induction width generalizing n with
  | zero => rfl
  | succ width ih => rw [hexDigits, List.length_append, ih, List.length_singleton]

/-- So many digits spell the low ones of a number. -/
theorem hexNumber?_hexDigits (width n : ℕ) :
    hexNumber? (hexDigits width n) = some (n % 16 ^ width) := by
  induction width generalizing n with
  | zero =>
    rw [pow_zero, Nat.mod_one]
    rfl
  | succ width ih =>
    have hlast : hexValue? (hexDigit false (n % 16)) = some (n % 16) :=
      hexValue?_hexDigit (Nat.mod_lt n (by norm_num))
    rw [hexDigits, hexNumber?_concat, ih, hlast, pow_succ', Nat.mod_mul, Option.bind_some,
      Option.map_some, Nat.add_comm]

theorem hexNumber?_hexDigits_of_lt {width n : ℕ} (h : n < 16 ^ width) :
    hexNumber? (hexDigits width n) = some n := by
  rw [hexNumber?_hexDigits, Nat.mod_eq_of_lt h]

end Text

end LoyaltyPoints
