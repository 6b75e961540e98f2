/-! # Text: runs of decimal and hexadecimal digits

    Reading a run of digits as a number and writing a number with a fixed count of digits. -/

namespace LoyaltyPoints.Text

/-- The value of an ASCII digit (meaningful on digits only). -/
def digitValue (c : Char) : Nat := c.toNat - '0'.toNat

/-- The number a run of digits spells; the empty run spells zero. -/
def digitsValue (cs : List Char) : Nat :=
  cs.foldl (fun n c => 10 * n + digitValue c) 0

/-- A non-empty run of ASCII digits and its value. -/
def natural? (cs : List Char) : Option Nat :=
  if cs.isEmpty || !cs.all Char.isDigit then none else some (digitsValue cs)

/-- Splits off the longest run of characters of class `p`. -/
def spanWhile (p : Char → Bool) (cs : List Char) : List Char × List Char :=
  (cs.takeWhile p, cs.dropWhile p)

/-- The digits of a number in base ten. -/
def digits (n : Nat) : List Char := Nat.toDigits 10 n

/-- The digits of a number, filled up with zeros at the front to `width` places. -/
def paddedDigits (width n : Nat) : List Char :=
  let ds := digits n
  List.replicate (width - ds.length) '0' ++ ds

/-- The value of a hexadecimal digit of either case. -/
def hexValue? (c : Char) : Option Nat :=
  if c.isDigit then some (c.toNat - '0'.toNat)
  else if 'a' ≤ c ∧ c ≤ 'f' then some (c.toNat - 'a'.toNat + 10)
  else if 'A' ≤ c ∧ c ≤ 'F' then some (c.toNat - 'A'.toNat + 10)
  else none

/-- The hexadecimal digit of a number below sixteen. -/
def hexDigit (upper : Bool) (n : Nat) : Char :=
  if n < 10 then Char.ofNat ('0'.toNat + n)
  else Char.ofNat ((if upper then 'A' else 'a').toNat + (n - 10))

/-- The number a run of hexadecimal digits spells, if all of them are such digits. -/
def hexNumber? (cs : List Char) : Option Nat :=
  cs.foldl (fun acc c => acc.bind fun n => (hexValue? c).map (16 * n + ·)) (some 0)

/-- A number in base sixteen with exactly `width` lower-case digits (its low ones). -/
def hexDigits : (width : Nat) → (n : Nat) → List Char
  | 0, _ => []
  | w + 1, n => hexDigits w (n / 16) ++ [hexDigit false (n % 16)]

/-- An integer written in decimal, as readers of signed machine numbers take it: an optional sign
    and at least one digit. -/
def integer? (cs : List Char) : Option Int :=
  match cs with
  | '+' :: ds => (natural? ds).map Int.ofNat
  | '-' :: ds => (natural? ds).map fun n => -Int.ofNat n
  | ds => (natural? ds).map Int.ofNat

/-- The first integer above those of 64 bits with a sign: `2 ^ 63`. -/
def int64Bound : Int := 9223372036854775808

/-- A signed 64-bit integer written in decimal. -/
def int64? (cs : List Char) : Option Int :=
  (integer? cs).bind fun n => if -int64Bound ≤ n ∧ n < int64Bound then some n else none

/-- An unsigned integer below `2 ^ bits`; a plus sign is allowed, a minus sign is not. -/
def unsigned? (bits : Nat) (cs : List Char) : Option Nat :=
  let ds := match cs with
    | '+' :: ds => ds
    | ds => ds
  (natural? ds).bind fun n => if n < Nat.pow 2 bits then some n else none

end LoyaltyPoints.Text
